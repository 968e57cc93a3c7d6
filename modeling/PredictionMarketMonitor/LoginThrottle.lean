import PredictionMarketMonitor.IdentityExchange

set_option autoImplicit false

/-!
# Login attempts of one client

`AdminLoginService.login` and `sql_admin_rate_limit.py`. A login checks its
limit, verifies its password and writes the result in separate transactions, so
the steps of several logins may alternate in any order.
-/
namespace PredictionMarketMonitor.LoginThrottle

open CanonicalJson CivilTime CollectionBase FallibleSteps KeyedTable Sha256
open IdentityExchange (IdentityErrorCode timestampSeconds)

def loginFailureLimit : ℕ := 5
def loginFailureWindowSeconds : ℤ := 900
def clientHashDomain : Bytes := encode "admin-login-client-v1" ++ [0]

structure LoginRateLimit where
  clientHash : Digest
  bucketStart : Instant
  bucketEnd : Instant
  failureCount : ℕ
  lockedUntil : Option Instant
  updatedAt : Instant

abbrev Slot := Digest × Instant

def LoginRateLimit.slot (row : LoginRateLimit) : Slot := (row.clientHash, row.bucketStart)

abbrev Limits := Table LoginRateLimit.slot

def bucket (now : Instant) : Instant × Instant :=
  let timestamp := timestampSeconds now
  let start := timestamp - timestamp % loginFailureWindowSeconds
  (seconds start, seconds start + seconds loginFailureWindowSeconds)

section Repository
variable (secret : Bytes)

def clientHash (clientIp : String) : Digest :=
  hmacSha256 secret (clientHashDomain ++ encode clientIp)

def isAllowed (limits : Limits) (clientIp : String) (now : Instant) : Prop :=
  ∀ row ∈ limits.find? (clientHash secret clientIp, (bucket now).1),
    row.failureCount < loginFailureLimit ∧ ∀ lockedUntil ∈ row.lockedUntil, lockedUntil ≤ now

instance (limits : Limits) (clientIp : String) (now : Instant) :
    Decidable (isAllowed secret limits clientIp now) :=
  inferInstanceAs (Decidable (∀ row ∈ limits.find? _, _ ∧ ∀ lockedUntil ∈ row.lockedUntil, _))

def firstFailure (clientIp : String) (now : Instant) : LoginRateLimit where
  clientHash := clientHash secret clientIp
  bucketStart := (bucket now).1
  bucketEnd := (bucket now).2
  failureCount := 1
  lockedUntil := none
  updatedAt := now

def LoginRateLimit.failedAgain (row : LoginRateLimit) (bucketEnd now : Instant) : LoginRateLimit :=
  { row with
    failureCount := row.failureCount + 1
    lockedUntil := if row.failureCount + 1 ≥ loginFailureLimit then some bucketEnd else row.lockedUntil
    updatedAt := now }

def recorded (limits : Limits) (slot : Slot) : ℕ :=
  ((limits.find? slot).map LoginRateLimit.failureCount).getD 0

/-- `INSERT ... ON CONFLICT DO UPDATE`, and whether another attempt remains. -/
def recordFailure (limits : Limits) (clientIp : String) (now : Instant) : Limits × Bool :=
  let next := match limits.insert? (firstFailure secret clientIp now) with
    | some inserted => inserted
    | none => limits.update (clientHash secret clientIp, (bucket now).1)
        (fun row => row.failedAgain (bucket now).2 now) fun _ => rfl
  (next, recorded next (clientHash secret clientIp, (bucket now).1) < loginFailureLimit)

def clear (limits : Limits) (clientIp : String) : Limits where
  rows := limits.rows.filter (fun row => row.clientHash ≠ clientHash secret clientIp)
  distinct := limits.distinct.sublist (List.filter_sublist.map _)

end Repository

structure AdminLoginRequest where
  password : String
  clientIp : String
  now : Instant

/-- What `login` has awaited so far. -/
inductive Phase
  | arrived | admitted | rejected | accepted | cleared
  | answered (refusal : Option IdentityErrorCode)
deriving DecidableEq

inductive Event
  | refused (login : ℕ)
  | verified (login : ℕ) (request : AdminLoginRequest) (passed : Bool)
  | cleared (login : ℕ) (request : AdminLoginRequest)

structure Desk where
  limits : Limits
  logins : List (AdminLoginRequest × Phase)
  log : List Event

def Desk.start : Desk := ⟨Table.empty, [], []⟩

/-- A request arrives, or the next step of one in progress completes. -/
inductive Call
  | arrive (request : AdminLoginRequest)
  | advance (login : ℕ)

inductive CallError
  | unknown | answered

section Login
variable (secret : Bytes) (verify : String → Bool)

def AdminLoginRequest.slot (request : AdminLoginRequest) : Slot :=
  (clientHash secret request.clientIp, (bucket request.now).1)

/-- The body of `login`, from one `await` to the next. -/
def advance (s : Desk) (login : ℕ) (request : AdminLoginRequest) : Phase → Except CallError Desk
  | .arrived =>
    if isAllowed secret s.limits request.clientIp request.now then
      .ok { s with logins := s.logins.set login (request, .admitted) }
    else
      .ok { s with
        logins := s.logins.set login (request, .answered (some .rateLimited))
        log := .refused login :: s.log }
  | .admitted =>
    .ok { s with
      logins := s.logins.set login
        (request, if verify request.password then .accepted else .rejected)
      log := .verified login request (verify request.password) :: s.log }
  | .rejected =>
    let (limits, stillAllowed) := recordFailure secret s.limits request.clientIp request.now
    .ok { s with
      limits := limits
      logins := s.logins.set login
        (request, .answered (some (if stillAllowed then .invalidCredential else .rateLimited))) }
  | .accepted =>
    .ok {
      limits := clear secret s.limits request.clientIp
      logins := s.logins.set login (request, .cleared)
      log := .cleared login request :: s.log }
  | .cleared => .ok { s with logins := s.logins.set login (request, .answered none) }
  | .answered _ => .error .answered

def step (s : Desk) : Call → Except CallError Desk
  | .arrive request => .ok { s with logins := s.logins ++ [(request, .arrived)] }
  | .advance login => do
    let (request, phase) ← present s.logins[login]? .unknown
    advance secret verify s login request phase

/-- Failed verifications of a client in a bucket since its last successful login. -/
def failuresSince (slot : Slot) : List Event → ℕ
  | [] => 0
  | .refused _ :: rest => failuresSince slot rest
  | .verified _ request passed :: rest =>
    failuresSince slot rest + if request.slot secret = slot ∧ passed = false then 1 else 0
  | .cleared _ request :: rest =>
    if clientHash secret request.clientIp = slot.1 then 0 else failuresSince slot rest

/-- A login that has passed the limit with a wrong password, and has not been recorded yet. -/
def Pending (slot : Slot) (login : AdminLoginRequest × Phase) : Prop :=
  login.1.slot secret = slot ∧ verify login.1.password = false ∧
    (login.2 = .admitted ∨ login.2 = .rejected)

instance (slot : Slot) (login : AdminLoginRequest × Phase) :
    Decidable (Pending secret verify slot login) := inferInstanceAs (Decidable (_ ∧ _))

def pending (s : Desk) (slot : Slot) : ℕ :=
  s.logins.countP (fun login => Pending secret verify slot login)

def unrecorded (s : Desk) (slot : Slot) : ℕ :=
  s.logins.countP (fun login => login.1.slot secret = slot ∧ login.2 = .rejected)

/-- When the limit lets a wrong password in, the failures on record and those on
    their way to it number less than five. -/
def Unhurried (s : Desk) : Call → Prop
  | .arrive _ => True
  | .advance login => ∀ x ∈ s.logins[login]?, x.2 = .arrived →
    isAllowed secret s.limits x.1.clientIp x.1.now → verify x.1.password = false →
    recorded s.limits (x.1.slot secret) + pending secret verify s (x.1.slot secret) < loginFailureLimit

instance (s : Desk) (call : Call) : Decidable (Unhurried secret verify s call) :=
  match call with
  | .arrive _ => inferInstanceAs (Decidable True)
  | .advance login => inferInstanceAs (Decidable (∀ x ∈ s.logins[login]?, _ → _ → _ → _))

structure GuessingBounded (s : Desk) : Prop where
  atMostFive : ∀ slot, failuresSince secret slot s.log ≤ loginFailureLimit
  refused : ∀ login, .refused login ∈ s.log → ∀ request passed,
    .verified login request passed ∉ s.log
  resets : ∀ call t, step secret verify s call = .ok t → ∀ slot,
    recorded t.limits slot < recorded s.limits slot → ∃ login request, call = .advance login ∧
      s.logins[login]? = some (request, .accepted) ∧ verify request.password = true ∧
      clientHash secret request.clientIp = slot.1

end Login

section Records
variable {secret : Bytes} {limits : Limits} {clientIp : String} {now : Instant}

theorem recorded_recordFailure (slot : Slot) :
    recorded (recordFailure secret limits clientIp now).1 slot =
      recorded limits slot + if (clientHash secret clientIp, (bucket now).1) = slot then 1 else 0 := by
  rw [recordFailure]
  cases hinsert : limits.insert? (firstFailure secret clientIp now) with
  | some inserted =>
    have hfree := (Table.insert?_eq_some.mp hinsert).1
    change limits.find? (clientHash secret clientIp, (bucket now).1) = none at hfree
    simp only [recorded, Table.find?_insert hinsert]
    change ((if (clientHash secret clientIp, (bucket now).1) = slot then _ else _ : Option _).map _).getD 0 = _
    by_cases hslot : (clientHash secret clientIp, (bucket now).1) = slot
    · rw [if_pos hslot, if_pos hslot, ← hslot, hfree]
      rfl
    · rw [if_neg hslot, if_neg hslot]
      rfl
  | none =>
    have hupdate := @Table.find?_update _ _ LoginRateLimit.slot _ limits
      (clientHash secret clientIp, (bucket now).1)
      (fun row => row.failedAgain (bucket now).2 now) (fun _ => rfl) slot
    change (((limits.update (clientHash secret clientIp, (bucket now).1)
      (fun row => row.failedAgain (bucket now).2 now) (fun _ => rfl)).find? slot).map _).getD 0 = _
    rw [hupdate, recorded]
    by_cases hslot : (clientHash secret clientIp, (bucket now).1) = slot
    · rw [if_pos hslot]
      cases hfind : limits.find? slot with
      | some row =>
        rw [Option.map_some, if_pos hslot.symm]
        rfl
      | none =>
        obtain ⟨inserted, hsome⟩ := @Table.exists_insert _ _ LoginRateLimit.slot _ limits
          (firstFailure secret clientIp now) (by rw [← hslot] at hfind; exact hfind)
        rw [hinsert] at hsome
        cases hsome
    · rw [if_neg hslot]
      cases limits.find? slot with
      | some row =>
        rw [Option.map_some, if_neg (Ne.symm hslot)]
        rfl
      | none => rfl

theorem recorded_clear (slot : Slot) : recorded (clear secret limits clientIp) slot =
    if clientHash secret clientIp = slot.1 then 0 else recorded limits slot := by
  have hfind : (clear secret limits clientIp).find? slot =
      if clientHash secret clientIp = slot.1 then none else limits.find? slot := by
    rw [Table.find?, clear, List.find?_filter]
    by_cases hclient : clientHash secret clientIp = slot.1
    · rw [if_pos hclient, List.find?_eq_none]
      intro row _ hrow
      simp only [decide_not, Bool.not_eq_true', decide_eq_false_iff_not, decide_eq_true_eq,
        Bool.and_eq_true, Bool.decide_and] at hrow
      exact hrow.1 ((congrArg Prod.fst hrow.2).trans hclient.symm)
    · rw [if_neg hclient, Table.find?]
      refine congrArg (fun q => limits.rows.find? q) (funext fun row => ?_)
      by_cases hrow : row.slot = slot
      · have hother : row.clientHash ≠ clientHash secret clientIp := fun heq =>
          hclient (heq.symm.trans (congrArg Prod.fst hrow))
        simp [hrow, hother]
      · simp [hrow]
  rw [recorded, hfind]
  by_cases hclient : clientHash secret clientIp = slot.1
  · rw [if_pos hclient, if_pos hclient]
    rfl
  · rw [if_neg hclient, if_neg hclient]
    rfl

theorem countP_set {α : Type} {p : α → Bool} {xs : List α} {k : ℕ} {x y : α} (h : xs[k]? = some x) :
    (xs.set k y).countP p + (if p x then 1 else 0) = xs.countP p + (if p y then 1 else 0) := by
  induction xs generalizing k with
  | nil => cases h
  | cons z xs ih =>
    cases k with
    | zero =>
      obtain rfl := Option.some.inj h
      rw [List.set_cons_zero, List.countP_cons, List.countP_cons]
      omega
    | succ k =>
      have hrest := ih h
      rw [List.set_cons_succ, List.countP_cons, List.countP_cons]
      omega

end Records

section Invariant
variable {secret : Bytes} {verify : String → Bool}

/-- The failures written so far and those still to be written are five at most, and
    none is forgotten on the way. -/
structure Inv (secret : Bytes) (verify : String → Bool) (s : Desk) : Prop where
  bounded : ∀ slot, recorded s.limits slot + pending secret verify s slot ≤ loginFailureLimit
  logged : ∀ slot, failuresSince secret slot s.log ≤ recorded s.limits slot + unrecorded secret s slot

/-- Where a login is, what it has shown of its password and what the log has of it. -/
structure Ordered (verify : String → Bool) (s : Desk) : Prop where
  rejected : ∀ login ∈ s.logins, login.2 = .rejected → verify login.1.password = false
  accepted : ∀ login ∈ s.logins, login.2 = .accepted → verify login.1.password = true
  verified : ∀ login request passed, .verified login request passed ∈ s.log →
    ∃ x, s.logins[login]? = some x ∧ x.2 ≠ .arrived ∧ x.2 ≠ .admitted
  refused : ∀ login, .refused login ∈ s.log → (∃ request refusal,
    s.logins[login]? = some (request, .answered refusal)) ∧
    ∀ request passed, .verified login request passed ∉ s.log

inductive Move (secret : Bytes) (verify : String → Bool) (s : Desk) (login : ℕ)
    (request : AdminLoginRequest) : Phase → Limits → Phase → List Event → Prop
  | allow (allowed : isAllowed secret s.limits request.clientIp request.now) :
    Move secret verify s login request .arrived s.limits .admitted s.log
  | refuse : Move secret verify s login request .arrived s.limits (.answered (some .rateLimited))
    (.refused login :: s.log)
  | reject (wrong : verify request.password = false) :
    Move secret verify s login request .admitted s.limits .rejected
      (.verified login request false :: s.log)
  | accept (right : verify request.password = true) :
    Move secret verify s login request .admitted s.limits .accepted
      (.verified login request true :: s.log)
  | record (code : IdentityErrorCode) : Move secret verify s login request .rejected
    (recordFailure secret s.limits request.clientIp request.now).1 (.answered (some code)) s.log
  | reset : Move secret verify s login request .accepted (clear secret s.limits request.clientIp)
    .cleared (.cleared login request :: s.log)
  | grant : Move secret verify s login request .cleared s.limits (.answered none) s.log

theorem step_cases {s t : Desk} {call : Call} (h : step secret verify s call = .ok t) :
    (∃ request, call = .arrive request ∧ t = { s with logins := s.logins ++ [(request, .arrived)] }) ∨
    ∃ login request phase limits next log, call = .advance login ∧
      s.logins[login]? = some (request, phase) ∧
      t = ⟨limits, s.logins.set login (request, next), log⟩ ∧
      Move secret verify s login request phase limits next log := by
  cases call with
  | arrive request => exact .inl ⟨request, rfl, (Except.ok.inj h).symm⟩
  | advance login =>
    obtain ⟨⟨request, phase⟩, hlogin, h⟩ := bind_eq_ok.mp h
    have hlocated := present_eq_ok.mp hlogin
    refine .inr ⟨login, request, phase, ?_⟩
    change advance secret verify s login request phase = .ok t at h
    cases phase with
    | arrived =>
      rw [advance] at h
      split at h
      · rename_i hallowed
        exact ⟨_, _, _, rfl, hlocated, (Except.ok.inj h).symm, .allow hallowed⟩
      · exact ⟨_, _, _, rfl, hlocated, (Except.ok.inj h).symm, .refuse⟩
    | admitted =>
      have hnext := (Except.ok.inj h).symm
      cases hpassed : verify request.password with
      | true =>
        rw [hpassed] at hnext
        exact ⟨_, _, _, rfl, hlocated, hnext, .accept hpassed⟩
      | false =>
        rw [hpassed] at hnext
        exact ⟨_, _, _, rfl, hlocated, hnext, .reject hpassed⟩
    | rejected => exact ⟨_, _, _, rfl, hlocated, (Except.ok.inj h).symm, .record _⟩
    | accepted => exact ⟨_, _, _, rfl, hlocated, (Except.ok.inj h).symm, .reset⟩
    | cleared => exact ⟨_, _, _, rfl, hlocated, (Except.ok.inj h).symm, .grant⟩
    | answered refusal => cases h

section Counts
variable {s : Desk} {login : ℕ} {request : AdminLoginRequest} {phase next : Phase} {limits : Limits}
  {log : List Event}

theorem pending_set (hlocated : s.logins[login]? = some (request, phase)) (slot : Slot) :
    pending secret verify ⟨limits, s.logins.set login (request, next), log⟩ slot +
        (if Pending secret verify slot (request, phase) then 1 else 0) =
      pending secret verify s slot + if Pending secret verify slot (request, next) then 1 else 0 := by
  have hcount := @countP_set _ (fun login => Pending secret verify slot login) _ _ _ (request, next)
    hlocated
  simp only [decide_eq_true_eq] at hcount
  exact hcount

theorem unrecorded_set (hlocated : s.logins[login]? = some (request, phase)) (slot : Slot) :
    unrecorded secret ⟨limits, s.logins.set login (request, next), log⟩ slot +
        (if request.slot secret = slot ∧ phase = .rejected then 1 else 0) =
      unrecorded secret s slot + if request.slot secret = slot ∧ next = .rejected then 1 else 0 := by
  have hcount := @countP_set _
    (fun login => login.1.slot secret = slot ∧ login.2 = Phase.rejected) _ _ _ (request, next) hlocated
  simp only [decide_eq_true_eq] at hcount
  exact hcount

end Counts

theorem inv_arrive {s : Desk} (hs : Inv secret verify s) (request : AdminLoginRequest) :
    Inv secret verify { s with logins := s.logins ++ [(request, .arrived)] } := by
  constructor
  · intro slot
    have hsame : pending secret verify { s with logins := s.logins ++ [(request, .arrived)] } slot =
        pending secret verify s slot := by
      simp [pending, Pending]
    rw [hsame]
    exact hs.bounded slot
  · intro slot
    have hsame : unrecorded secret { s with logins := s.logins ++ [(request, .arrived)] } slot =
        unrecorded secret s slot := by
      simp [unrecorded]
    rw [hsame]
    exact hs.logged slot

theorem inv_move {s : Desk} {login : ℕ} {request : AdminLoginRequest} {phase next : Phase}
    {limits : Limits} {log : List Event} (hs : Inv secret verify s)
    (hcondition : Unhurried secret verify s (.advance login))
    (hwrong : phase = .rejected → verify request.password = false)
    (hlocated : s.logins[login]? = some (request, phase))
    (hmove : Move secret verify s login request phase limits next log) :
    Inv secret verify ⟨limits, s.logins.set login (request, next), log⟩ := by
  have hpending := @pending_set secret verify s login request phase next limits log hlocated
  have hunrecorded := @unrecorded_set secret s login request phase next limits log hlocated
  have hslots (slot : Slot) : request.slot secret = slot ↔
    (clientHash secret request.clientIp, (bucket request.now).1) = slot := Iff.rfl
  constructor
  · intro slot
    have hold := hs.bounded slot
    have hcount := hpending slot
    change recorded limits slot + pending secret verify ⟨limits, _, log⟩ slot ≤ _
    cases hmove with
    | allow allowed =>
      by_cases hpends : request.slot secret = slot ∧ verify request.password = false
      · obtain ⟨rfl, hfalse⟩ := hpends
        have hroom := hcondition _ hlocated rfl allowed hfalse
        dsimp only at hroom
        rw [if_neg (by simp [Pending]), if_pos ⟨rfl, hfalse, .inl rfl⟩] at hcount
        omega
      · rw [if_neg (by simp [Pending]), if_neg fun h => hpends ⟨h.1, h.2.1⟩] at hcount
        omega
    | refuse | grant =>
      rw [if_neg (by simp [Pending]), if_neg (by simp [Pending])] at hcount
      omega
    | reject wrong =>
      have hsame : Pending secret verify slot (request, .admitted) ↔
          Pending secret verify slot (request, .rejected) := by simp [Pending]
      rw [if_congr hsame rfl rfl] at hcount
      omega
    | accept right =>
      rw [if_neg (by simp [Pending, right]), if_neg (by simp [Pending])] at hcount
      omega
    | record code =>
      rw [recorded_recordFailure]
      by_cases hslot : request.slot secret = slot
      · rw [if_pos ⟨hslot, hwrong rfl, .inr rfl⟩, if_neg (by simp [Pending])] at hcount
        rw [if_pos ((hslots slot).mp hslot)]
        omega
      · rw [if_neg fun h => hslot h.1, if_neg (by simp [Pending])] at hcount
        rw [if_neg fun h => hslot ((hslots slot).mpr h)]
        omega
    | reset =>
      rw [if_neg (by simp [Pending]), if_neg (by simp [Pending])] at hcount
      rw [recorded_clear]
      split <;> omega
  · intro slot
    have hold := hs.logged slot
    have hcount := hunrecorded slot
    change failuresSince secret slot log ≤ recorded limits slot + unrecorded secret ⟨limits, _, log⟩ slot
    cases hmove with
    | allow | grant =>
      rw [if_neg (by simp), if_neg (by simp)] at hcount
      omega
    | refuse =>
      rw [if_neg (by simp), if_neg (by simp)] at hcount
      change failuresSince secret slot s.log ≤ _
      omega
    | reject wrong =>
      rw [if_neg (by simp)] at hcount
      simp only [failuresSince, and_true] at hcount ⊢
      omega
    | accept right =>
      rw [if_neg (by simp), if_neg (by simp)] at hcount
      simp only [failuresSince, Bool.true_eq_false, and_false, if_false]
      omega
    | record code =>
      rw [recorded_recordFailure]
      simp only [and_true, reduceCtorEq, and_false, if_false, hslots] at hcount
      omega
    | reset =>
      rw [if_neg (by simp), if_neg (by simp)] at hcount
      rw [recorded_clear]
      simp only [failuresSince]
      split <;> omega

/-- What a move adds to the log, and where it leads. -/
structure Moved (verify : String → Bool) (s : Desk) (login : ℕ) (request : AdminLoginRequest)
    (phase next : Phase) (log : List Event) : Prop where
  verified : ∀ k other passed, .verified k other passed ∈ log →
    .verified k other passed ∈ s.log ∨ (k = login ∧ phase = .admitted)
  refused : ∀ k, .refused k ∈ log → .refused k ∈ s.log ∨
    (k = login ∧ phase = .arrived ∧ ∃ refusal, next = .answered refusal)
  unanswered : ∀ refusal, phase ≠ .answered refusal
  onwards : next ≠ .arrived ∧ (next = .admitted → phase = .arrived)
  rejected : next = .rejected → verify request.password = false
  accepted : next = .accepted → verify request.password = true

theorem move_moved {s : Desk} {login : ℕ} {request : AdminLoginRequest} {phase next : Phase}
    {limits : Limits} {log : List Event}
    (h : Move secret verify s login request phase limits next log) :
    Moved verify s login request phase next log := by
  cases h with
  | allow | record | grant =>
    exact ⟨fun _ _ _ => .inl, fun _ => .inl, nofun, ⟨nofun, fun _ => by trivial⟩, nofun, nofun⟩
  | refuse =>
    refine ⟨fun k other passed hevent => .inl ((List.mem_cons.mp hevent).resolve_left nofun),
      fun k hevent => ?_, nofun, ⟨nofun, nofun⟩, nofun, nofun⟩
    rcases List.mem_cons.mp hevent with heq | hold
    · exact .inr ⟨Event.refused.inj heq, rfl, _, rfl⟩
    · exact .inl hold
  | reject wrong =>
    refine ⟨fun k other passed hevent => ?_, fun k hevent =>
      .inl ((List.mem_cons.mp hevent).resolve_left nofun), nofun, ⟨nofun, nofun⟩, fun _ => wrong, nofun⟩
    rcases List.mem_cons.mp hevent with heq | hold
    · exact .inr ⟨(Event.verified.inj heq).1, rfl⟩
    · exact .inl hold
  | accept right =>
    refine ⟨fun k other passed hevent => ?_, fun k hevent =>
      .inl ((List.mem_cons.mp hevent).resolve_left nofun), nofun, ⟨nofun, nofun⟩, nofun, fun _ => right⟩
    rcases List.mem_cons.mp hevent with heq | hold
    · exact .inr ⟨(Event.verified.inj heq).1, rfl⟩
    · exact .inl hold
  | reset =>
    exact ⟨fun k other passed hevent => .inl ((List.mem_cons.mp hevent).resolve_left nofun),
      fun k hevent => .inl ((List.mem_cons.mp hevent).resolve_left nofun), nofun, ⟨nofun, nofun⟩,
      nofun, nofun⟩

theorem ordered_step {s t : Desk} {call : Call} (hs : Ordered verify s)
    (h : step secret verify s call = .ok t) : Ordered verify t := by
  rcases step_cases h with ⟨request, rfl, rfl⟩ |
    ⟨login, request, phase, limits, next, log, rfl, hlocated, rfl, hmove⟩
  · have hkept {k : ℕ} {x : AdminLoginRequest × Phase} (hx : s.logins[k]? = some x) :
        (s.logins ++ [(request, Phase.arrived)])[k]? = some x := by
      rw [List.getElem?_append_left (List.getElem?_eq_some_iff.mp hx).1]
      exact hx
    have hmem (x : AdminLoginRequest × Phase) (hx : x ∈ s.logins ++ [(request, Phase.arrived)]) :
        x ∈ s.logins ∨ x = (request, .arrived) := by simpa using hx
    constructor
    · intro x hx hphase
      rcases hmem x hx with hold | rfl
      · exact hs.rejected x hold hphase
      · cases hphase
    · intro x hx hphase
      rcases hmem x hx with hold | rfl
      · exact hs.accepted x hold hphase
      · cases hphase
    · intro k other passed hevent
      obtain ⟨x, hx, hfacts⟩ := hs.verified k other passed hevent
      exact ⟨x, hkept hx, hfacts⟩
    · intro k hevent
      obtain ⟨⟨other, refusal, hx⟩, hnever⟩ := hs.refused k hevent
      exact ⟨⟨other, refusal, hkept hx⟩, hnever⟩
  have hlength : login < s.logins.length := (List.getElem?_eq_some_iff.mp hlocated).1
  have hself : (s.logins.set login (request, next))[login]? = some (request, next) := by
    simp [hlength]
  have hother {k : ℕ} (hne : k ≠ login) : (s.logins.set login (request, next))[k]? = s.logins[k]? :=
    List.getElem?_set_ne (Ne.symm hne)
  have hmem (x : AdminLoginRequest × Phase) (hx : x ∈ s.logins.set login (request, next)) :
      x ∈ s.logins ∨ x = (request, next) := List.mem_or_eq_of_mem_set hx
  have hmoved := move_moved hmove
  -- what the log says of this login before the move
  have hunseen (hphase : phase = .arrived ∨ phase = .admitted) (other : AdminLoginRequest)
      (passed : Bool) : .verified login other passed ∉ s.log := by
    intro hevent
    obtain ⟨x, hx, hnot⟩ := hs.verified login other passed hevent
    obtain rfl := Option.some.inj (hlocated.symm.trans hx)
    rcases hphase with rfl | rfl
    · exact hnot.1 rfl
    · exact hnot.2 rfl
  have hopen : .refused login ∉ s.log := by
    intro hevent
    obtain ⟨⟨other, refusal, hx⟩, _⟩ := hs.refused login hevent
    have heq := Option.some.inj (hlocated.symm.trans hx)
    exact hmoved.unanswered refusal (congrArg Prod.snd heq)
  constructor
  · intro x hx hphase
    rcases hmem x hx with hold | rfl
    · exact hs.rejected x hold hphase
    · exact hmoved.rejected hphase
  · intro x hx hphase
    rcases hmem x hx with hold | rfl
    · exact hs.accepted x hold hphase
    · exact hmoved.accepted hphase
  · intro k other passed hevent
    by_cases hk : k = login
    · subst hk
      refine ⟨_, hself, hmoved.onwards.1, fun hnext => ?_⟩
      have harrived := hmoved.onwards.2 hnext
      rcases hmoved.verified k other passed hevent with hold | ⟨_, hadmitted⟩
      · exact hunseen (.inl harrived) other passed hold
      · rw [harrived] at hadmitted
        cases hadmitted
    · rcases hmoved.verified k other passed hevent with hold | ⟨heq, _⟩
      · obtain ⟨x, hx, hfacts⟩ := hs.verified k other passed hold
        exact ⟨x, (hother hk).trans hx, hfacts⟩
      · exact absurd heq hk
  · intro k hevent
    rcases hmoved.refused k hevent with hold | ⟨rfl, harrived, refusal, rfl⟩
    · have hk : k ≠ login := fun heq => hopen (heq ▸ hold)
      obtain ⟨⟨other, refusal, hx⟩, hnever⟩ := hs.refused k hold
      refine ⟨⟨other, refusal, (hother hk).trans hx⟩, fun other passed hverified => ?_⟩
      rcases hmoved.verified k other passed hverified with hseen | ⟨heq, _⟩
      · exact hnever other passed hseen
      · exact hk heq
    · refine ⟨⟨request, refusal, hself⟩, fun other passed hverified => ?_⟩
      rcases hmoved.verified k other passed hverified with hseen | ⟨_, hadmitted⟩
      · exact hunseen (.inl harrived) other passed hseen
      · rw [harrived] at hadmitted
        cases hadmitted

/-- The record of a bucket only shrinks when a right password clears it. -/
theorem recorded_step {s t : Desk} {call : Call} {slot : Slot} (hs : Ordered verify s)
    (h : step secret verify s call = .ok t) (hless : recorded t.limits slot < recorded s.limits slot) :
    ∃ login request, call = .advance login ∧ s.logins[login]? = some (request, .accepted) ∧
      verify request.password = true ∧ clientHash secret request.clientIp = slot.1 := by
  rcases step_cases h with ⟨request, rfl, rfl⟩ |
    ⟨login, request, phase, limits, next, log, rfl, hlocated, rfl, hmove⟩
  · exact absurd hless (lt_irrefl _)
  cases hmove with
  | allow | refuse | reject | accept | grant => exact absurd hless (lt_irrefl _)
  | record code =>
    rw [recorded_recordFailure] at hless
    omega
  | reset =>
    refine ⟨login, request, rfl, hlocated,
      hs.accepted _ (List.mem_of_getElem? hlocated) rfl, ?_⟩
    by_contra hother
    rw [recorded_clear, if_neg hother] at hless
    exact lt_irrefl _ hless

theorem inv_step {s t : Desk} {call : Call} (hs : Inv secret verify s ∧ Ordered verify s)
    (hcondition : Unhurried secret verify s call) (h : step secret verify s call = .ok t) :
    Inv secret verify t ∧ Ordered verify t := by
  refine ⟨?_, ordered_step hs.2 h⟩
  rcases step_cases h with ⟨request, rfl, rfl⟩ |
    ⟨login, request, phase, limits, next, log, rfl, hlocated, rfl, hmove⟩
  · exact inv_arrive hs.1 request
  · exact inv_move hs.1 hcondition (fun hphase => hs.2.rejected _ (List.mem_of_getElem? hlocated) hphase)
      hlocated hmove

theorem inv_start : Inv secret verify .start ∧ Ordered verify .start := by
  refine ⟨⟨fun slot => ?_, fun slot => ?_⟩, ?_⟩
  · exact Nat.zero_le _
  · exact Nat.zero_le _
  · constructor <;> simp [Desk.start]

theorem unrecorded_le {s : Desk} (hs : Ordered verify s) (slot : Slot) :
    unrecorded secret s slot ≤ pending secret verify s slot := by
  refine List.countP_mono_left fun login hlogin hrejected => ?_
  obtain ⟨hslot, hphase⟩ := of_decide_eq_true hrejected
  exact decide_eq_true ⟨hslot, hs.rejected login hlogin hphase, .inr hphase⟩

/-- As long as no wrong password is let in on top of four others, a client fails five times at most
    in a bucket; and whatever happens, a refused login never reaches the verifier and only a
    successful one resets the count. -/
theorem guessing_bounded {calls : List Call}
    (h : Meets (step secret verify) (Unhurried secret verify) .start calls) :
    GuessingBounded secret verify (run (step secret verify) .start calls) := by
  have hs : Inv secret verify (run (step secret verify) .start calls) ∧
      Ordered verify (run (step secret verify) .start calls) :=
    run_invariant_of (fun _ _ _ hs hcondition hstep => inv_step hs hcondition hstep) inv_start h
  refine ⟨fun slot => ?_, fun login hevent => (hs.2.refused login hevent).2,
    fun call t hstep slot hless => recorded_step hs.2 hstep hless⟩
  have hlogged := hs.1.logged slot
  have hbounded := hs.1.bounded slot
  have hle := @unrecorded_le secret verify _ hs.2 slot
  omega

end Invariant

section Sample

def wrongGuess : AdminLoginRequest := ⟨"guess", "192.0.2.1", seconds 1000⟩

def rightGuess : AdminLoginRequest := ⟨"right", "192.0.2.1", seconds 1000⟩

/-- Six logins pass the limit before the first of them is recorded. -/
def burst : List Call :=
  List.replicate 6 (.arrive wrongGuess) ++ (List.range 6).map .advance ++ (List.range 6).map .advance

theorem burst_exceeds :
    ¬GuessingBounded [] (· == "right") (run (step [] (· == "right")) .start burst) := by
  intro h
  have hfailures := h.atMostFive (wrongGuess.slot [])
  revert hfailures
  decide +kernel

/-- Two wrong passwords, the second checked while the first is on its way, then the right one. -/
def patient : List Call :=
  [.arrive wrongGuess, .arrive wrongGuess, .arrive rightGuess, .advance 0, .advance 1, .advance 0,
   .advance 1, .advance 0, .advance 1, .advance 2, .advance 2, .advance 2]

theorem guessing_bounded_sample :
    GuessingBounded [] (· == "right") (run (step [] (· == "right")) .start patient) :=
  guessing_bounded ⟨trivial, trivial, trivial, by decide +kernel, by decide +kernel, by decide +kernel,
    by decide +kernel, by decide +kernel, by decide +kernel, by decide +kernel, by decide +kernel,
    by decide +kernel, trivial⟩

end Sample

end PredictionMarketMonitor.LoginThrottle
