import PredictionMarketMonitor.CollectionBase

set_option autoImplicit false

/-!
# The analysis queue

`app/analysis/queue.py`: leases on one post-version analysis. Commands come in
any order, from any worker and at any time; a command that raises leaves the
item alone.
-/
namespace PredictionMarketMonitor.AnalysisQueue

open CanonicalJson CivilTime CollectionBase FallibleSteps Sha256

section Model

def leaseDuration : ℤ := seconds 600

def retryDelays : List ℤ := [seconds 60, seconds 300, seconds 1800]

def minimumLeaseCredentialLength : ℕ := 32

inductive QueueStatus
  | pending | leased | succeeded | blockedCapability | failedRetryable | failedTerminal
deriving DecidableEq

structure AnalysisBinding where
  postVersionId : UUID
  contentHash : Digest
  promptVersion : String
  modelVersion : String
  schemaVersion : String
deriving DecidableEq

structure QueueItem where
  id : UUID
  binding : AnalysisBinding
  status : QueueStatus
  attempts : ℕ
  availableAt : Instant
  leaseTokenHash : Option Digest := none
  leaseExpiresAt : Option Instant := none
  leasedByPrincipalId : Option UUID := none
  lastErrorCode : Option String := none
deriving DecidableEq

structure LeaseCommand where
  itemId : UUID
  binding : AnalysisBinding
  principalId : UUID
  leaseToken : String
  now : Instant

structure AnalysisOutput where
  relevance : Bool
  sentiment : Option Sentiment
  topics : List String
deriving DecidableEq

structure SuccessAckCommand where
  lease : LeaseCommand
  output : AnalysisOutput

structure AnalysisRecord where
  binding : AnalysisBinding
  output : AnalysisOutput
  outputHash : Digest
  analyzedAt : Instant
deriving DecidableEq

structure SuccessAcknowledged where
  item : QueueItem
  analysis : AnalysisRecord

inductive CapabilityDecision
  | approved (proofSetSha256 : Digest)
  | blocked (reasonCodes : List String)
deriving DecidableEq

inductive LeaseResult
  | granted (item : QueueItem) (leaseToken : String)
  | denied (item : QueueItem) (reasonCodes : List String)

def LeaseResult.item : LeaseResult → QueueItem
  | .granted item _ => item
  | .denied item _ => item

inductive QueueErrorCode
  | casMismatch | notAvailable | leaseMismatch | leaseExpired | invalidState
  | invalidLeaseCredential
deriving DecidableEq

abbrev QueueResult := Except QueueErrorCode

def requireCas (item : QueueItem) (command : LeaseCommand) : QueueResult Unit :=
  require (item.id = command.itemId ∧ item.binding = command.binding) .casMismatch

def Leaseable (status : QueueStatus) : Prop := status = .pending ∨ status = .failedRetryable

instance (status : QueueStatus) : Decidable (Leaseable status) :=
  inferInstanceAs (Decidable (_ ∨ _))

def grantLease (item : QueueItem) (command : LeaseCommand) : QueueResult LeaseResult := do
  requireCas item command
  require (Leaseable item.status) .invalidState
  require (item.availableAt ≤ command.now) .notAvailable
  require (minimumLeaseCredentialLength ≤ command.leaseToken.length) .invalidLeaseCredential
  return .granted
    { item with
      status := .leased
      leaseTokenHash := some (hashToken command.leaseToken)
      leaseExpiresAt := some (command.now + leaseDuration)
      leasedByPrincipalId := some command.principalId
      lastErrorCode := none }
    command.leaseToken

/-- The refusal marks the item before anything about it is checked. -/
def requestLease (item : QueueItem) (command : LeaseCommand) (decision : CapabilityDecision) :
    QueueResult LeaseResult :=
  match decision with
  | .blocked reasonCodes => .ok (.denied
      { item with
        status := .blockedCapability
        lastErrorCode := some "blocked_capability" }
      reasonCodes)
  | .approved _ => grantLease item command

def requireActiveLease (item : QueueItem) (command : LeaseCommand) : QueueResult Unit := do
  requireCas item command
  require (item.status = .leased) .invalidState
  let tokenHash ← present item.leaseTokenHash .leaseMismatch
  let expiresAt ← present item.leaseExpiresAt .leaseMismatch
  require (item.leasedByPrincipalId = some command.principalId) .leaseMismatch
  require (tokenHash = hashToken command.leaseToken) .leaseMismatch
  require (command.now < expiresAt) .leaseExpired

def clearLease (item : QueueItem) (status : QueueStatus) (availableAt : Instant)
    (errorCode : Option String) : QueueItem :=
  { item with
    status := status
    availableAt := availableAt
    leaseTokenHash := none
    leaseExpiresAt := none
    leasedByPrincipalId := none
    lastErrorCode := errorCode }

def heartbeat (item : QueueItem) (command : LeaseCommand) : QueueResult QueueItem := do
  requireActiveLease item command
  return { item with leaseExpiresAt := some (command.now + leaseDuration) }

def ackSuccess (dumpOutput : AnalysisOutput → Bytes) (item : QueueItem)
    (command : SuccessAckCommand) : QueueResult SuccessAcknowledged := do
  requireActiveLease item command.lease
  return {
    item := clearLease item .succeeded command.lease.now none
    analysis := ⟨item.binding, command.output, sha256 (dumpOutput command.output),
      command.lease.now⟩ }

def scheduleRetry (item : QueueItem) (interruptedAt : Instant) (errorCode : String) : QueueItem :=
  if retryDelays.length ≤ item.attempts then
    clearLease item .failedTerminal interruptedAt (some errorCode)
  else
    let attempts := item.attempts + 1
    let delay := retryDelays.getD (attempts - 1) 0
    { clearLease item .failedRetryable (interruptedAt + delay) (some errorCode) with
      attempts := attempts }

def ackRetryableFailure (item : QueueItem) (command : LeaseCommand) (errorCode : String) :
    QueueResult QueueItem := do
  requireActiveLease item command
  return scheduleRetry item command.now errorCode

def recoverExpiredLease (item : QueueItem) (now : Instant) : QueueResult QueueItem := do
  require (item.status = .leased) .invalidState
  let _ ← present item.leaseTokenHash .leaseMismatch
  let expiresAt ← present item.leaseExpiresAt .leaseMismatch
  let _ ← present item.leasedByPrincipalId .leaseMismatch
  require (expiresAt ≤ now) .invalidState
  return scheduleRetry item expiresAt "lease_expired"

inductive Command
  | requestLease (command : LeaseCommand) (decision : CapabilityDecision)
  | heartbeat (command : LeaseCommand)
  | ackSuccess (command : SuccessAckCommand)
  | ackRetryableFailure (command : LeaseCommand) (errorCode : String)
  | recoverExpiredLease (now : Instant)

def Command.now : Command → Instant
  | .requestLease command _ | .heartbeat command | .ackRetryableFailure command _ => command.now
  | .ackSuccess command => command.lease.now
  | .recoverExpiredLease now => now

def Command.Blocked : Command → Prop
  | .requestLease _ (.blocked _) => True
  | _ => False

def step (dumpOutput : AnalysisOutput → Bytes) (item : QueueItem) :
    Command → QueueResult QueueItem
  | .requestLease command decision => do
    let result ← requestLease item command decision
    return result.item
  | .heartbeat command => heartbeat item command
  | .ackSuccess command => do
    let acknowledged ← ackSuccess dumpOutput item command
    return acknowledged.item
  | .ackRetryableFailure command errorCode => ackRetryableFailure item command errorCode
  | .recoverExpiredLease now => recoverExpiredLease item now

/-- An item as it is inserted with its post version. -/
structure Registered (item : QueueItem) : Prop where
  pending : item.status = .pending
  first : item.attempts = 0
  free : item.leaseTokenHash = none ∧ item.leaseExpiresAt = none ∧ item.leasedByPrincipalId = none

end Model

section Inversion
variable {dumpOutput : AnalysisOutput → Bytes}

/-- The command carries the identity, token and principal of a lease that has
    not run out. -/
structure Active (item : QueueItem) (command : LeaseCommand) : Prop where
  cas : item.id = command.itemId ∧ item.binding = command.binding
  leased : item.status = .leased
  token : item.leaseTokenHash = some (hashToken command.leaseToken)
  principal : item.leasedByPrincipalId = some command.principalId
  unexpired : ∃ expiresAt, item.leaseExpiresAt = some expiresAt ∧ command.now < expiresAt

theorem requireActiveLease_eq_ok {item : QueueItem} {command : LeaseCommand} :
    requireActiveLease item command = .ok () ↔ Active item command := by
  rw [requireActiveLease, requireCas, require_bind, require_bind, bind_eq_ok]
  constructor
  · rintro ⟨hcas, hleased, tokenHash, htoken, h⟩
    obtain ⟨expiresAt, hexpires, h⟩ := bind_eq_ok.mp h
    obtain ⟨hprincipal, h⟩ := require_bind.mp h
    obtain ⟨rfl, hnow⟩ := require_bind.mp h
    exact ⟨hcas, hleased, present_eq_ok.mp htoken, hprincipal, expiresAt,
      present_eq_ok.mp hexpires, require_eq_ok.mp hnow⟩
  · rintro ⟨hcas, hleased, htoken, hprincipal, expiresAt, hexpires, hnow⟩
    refine ⟨hcas, hleased, _, present_eq_ok.mpr htoken, ?_⟩
    rw [present_eq_ok.mpr hexpires, ok_bind, require_of hprincipal, ok_bind, require_of rfl,
      ok_bind, require_of hnow]

theorem requireActiveLease_bind {α : Type} {item : QueueItem} {command : LeaseCommand}
    {f : Unit → QueueResult α} {b : α} :
    (requireActiveLease item command >>= f) = .ok b ↔ Active item command ∧ f () = .ok b := by
  rw [bind_eq_ok, ← requireActiveLease_eq_ok]
  exact ⟨fun ⟨(), h⟩ => h, fun h => ⟨(), h⟩⟩

structure Grantable (item : QueueItem) (command : LeaseCommand) : Prop where
  cas : item.id = command.itemId ∧ item.binding = command.binding
  leaseable : Leaseable item.status
  available : item.availableAt ≤ command.now
  credential : minimumLeaseCredentialLength ≤ command.leaseToken.length

theorem grantLease_eq_ok {item : QueueItem} {command : LeaseCommand} {result : LeaseResult} :
    grantLease item command = .ok result ↔ Grantable item command ∧
      result = .granted
        { item with
          status := .leased
          leaseTokenHash := some (hashToken command.leaseToken)
          leaseExpiresAt := some (command.now + leaseDuration)
          leasedByPrincipalId := some command.principalId
          lastErrorCode := none }
        command.leaseToken := by
  rw [grantLease, requireCas, require_bind, require_bind, require_bind, require_bind]
  constructor
  · rintro ⟨hcas, hleaseable, havailable, hcredential, h⟩
    exact ⟨⟨hcas, hleaseable, havailable, hcredential⟩, (Except.ok.inj h).symm⟩
  · rintro ⟨⟨hcas, hleaseable, havailable, hcredential⟩, rfl⟩
    exact ⟨hcas, hleaseable, havailable, hcredential, rfl⟩

theorem recoverExpiredLease_eq_ok {item next : QueueItem} {now : Instant} :
    recoverExpiredLease item now = .ok next ↔ ∃ expiresAt,
      item.status = .leased ∧ item.leaseTokenHash.isSome ∧ item.leasedByPrincipalId.isSome ∧
        item.leaseExpiresAt = some expiresAt ∧ expiresAt ≤ now ∧
        next = scheduleRetry item expiresAt "lease_expired" := by
  rw [recoverExpiredLease, require_bind, bind_eq_ok]
  constructor
  · rintro ⟨hleased, tokenHash, htoken, h⟩
    obtain ⟨expiresAt, hexpires, h⟩ := bind_eq_ok.mp h
    obtain ⟨principal, hprincipal, h⟩ := bind_eq_ok.mp h
    obtain ⟨hnow, h⟩ := require_bind.mp h
    exact ⟨expiresAt, hleased, by simp [present_eq_ok.mp htoken],
      by simp [present_eq_ok.mp hprincipal], present_eq_ok.mp hexpires, hnow,
      (Except.ok.inj h).symm⟩
  · rintro ⟨expiresAt, hleased, htoken, hprincipal, hexpires, hnow, rfl⟩
    obtain ⟨tokenHash, htoken⟩ := Option.isSome_iff_exists.mp htoken
    obtain ⟨principal, hprincipal⟩ := Option.isSome_iff_exists.mp hprincipal
    refine ⟨hleased, tokenHash, present_eq_ok.mpr htoken, ?_⟩
    rw [present_eq_ok.mpr hexpires, ok_bind, present_eq_ok.mpr hprincipal, ok_bind,
      require_of hnow]
    rfl

/-- Everything an accepted command can do to an item. -/
inductive Change (s : QueueItem) : Command → QueueItem → Prop
  | block (c : LeaseCommand) (reasonCodes : List String) :
      Change s (.requestLease c (.blocked reasonCodes)) { s with
        status := .blockedCapability
        lastErrorCode := some "blocked_capability" }
  | grant (c : LeaseCommand) (proofs : Digest) (h : Grantable s c) :
      Change s (.requestLease c (.approved proofs)) { s with
        status := .leased
        leaseTokenHash := some (hashToken c.leaseToken)
        leaseExpiresAt := some (c.now + leaseDuration)
        leasedByPrincipalId := some c.principalId
        lastErrorCode := none }
  | beat (c : LeaseCommand) (h : Active s c) :
      Change s (.heartbeat c) { s with leaseExpiresAt := some (c.now + leaseDuration) }
  | succeed (c : SuccessAckCommand) (h : Active s c.lease) :
      Change s (.ackSuccess c) (clearLease s .succeeded c.lease.now none)
  | fail (c : LeaseCommand) (errorCode : String) (h : Active s c) :
      Change s (.ackRetryableFailure c errorCode) (scheduleRetry s c.now errorCode)
  | recover (now expiresAt : Instant) (hs : s.status = .leased)
      (hexpires : s.leaseExpiresAt = some expiresAt) (hnow : expiresAt ≤ now) :
      Change s (.recoverExpiredLease now) (scheduleRetry s expiresAt "lease_expired")

theorem step_change {s t : QueueItem} {c : Command} (h : step dumpOutput s c = .ok t) :
    Change s c t := by
  cases c with
  | requestLease c decision =>
    cases decision with
    | blocked reasonCodes =>
      obtain rfl := Except.ok.inj h
      exact .block c reasonCodes
    | approved proofs =>
      obtain ⟨result, hresult, h⟩ := bind_eq_ok.mp h
      obtain ⟨hgrant, rfl⟩ := grantLease_eq_ok.mp hresult
      obtain rfl := Except.ok.inj h
      exact .grant c proofs hgrant
  | heartbeat c =>
    obtain ⟨hactive, h⟩ := requireActiveLease_bind.mp h
    obtain rfl := Except.ok.inj h
    exact .beat c hactive
  | ackSuccess c =>
    obtain ⟨acknowledged, hacknowledged, h⟩ := bind_eq_ok.mp h
    obtain ⟨hactive, hacknowledged⟩ := requireActiveLease_bind.mp hacknowledged
    obtain rfl := Except.ok.inj hacknowledged
    obtain rfl := Except.ok.inj h
    exact .succeed c hactive
  | ackRetryableFailure c errorCode =>
    obtain ⟨hactive, h⟩ := requireActiveLease_bind.mp h
    obtain rfl := Except.ok.inj h
    exact .fail c errorCode hactive
  | recoverExpiredLease now =>
    obtain ⟨expiresAt, hs, _, _, hexpires, hnow, rfl⟩ := recoverExpiredLease_eq_ok.mp h
    exact .recover now expiresAt hs hexpires hnow

theorem step_blocked (s : QueueItem) {c : Command} (h : c.Blocked) :
    step dumpOutput s c = .ok { s with
      status := .blockedCapability
      lastErrorCode := some "blocked_capability" } := by
  cases c with
  | requestLease c decision =>
    cases decision with
    | blocked reasonCodes => rfl
    | approved proofs => cases h
  | _ => cases h

end Inversion

section Invariant
variable {dumpOutput : AnalysisOutput → Bytes}

def Final (status : QueueStatus) : Prop := status = .succeeded ∨ status = .failedTerminal

instance (status : QueueStatus) : Decidable (Final status) := inferInstanceAs (Decidable (_ ∨ _))

/-- The lease fields are set exactly while the item is leased. -/
structure ItemInvariant (s : QueueItem) : Prop where
  attempts : s.attempts ≤ 3
  token : s.status = .leased ↔ s.leaseTokenHash.isSome
  expiry : s.status = .leased ↔ s.leaseExpiresAt.isSome
  principal : s.status = .leased ↔ s.leasedByPrincipalId.isSome

/-- What one accepted command may do to an item. -/
structure Lawful (s t : QueueItem) : Prop where
  invariant : ItemInvariant t
  attempts : s.attempts ≤ t.attempts
  final : Final s.status → t = s
  unblocked : s.status = .leased ∨ Final s.status → t.status ≠ .blockedCapability

def Guarded (s : QueueItem) (c : Command) : Prop :=
  c.Blocked → ¬(s.status = .leased ∨ Final s.status)

theorem itemInvariant_registered {item : QueueItem} (h : Registered item) :
    ItemInvariant item := by
  obtain ⟨htoken, hexpiry, hprincipal⟩ := h.free
  exact ⟨by simp [h.first], by simp [h.pending, htoken], by simp [h.pending, hexpiry],
    by simp [h.pending, hprincipal]⟩

theorem itemInvariant_cleared {s : QueueItem} (hs : s.leaseTokenHash = none ∧
    s.leaseExpiresAt = none ∧ s.leasedByPrincipalId = none) (hstatus : s.status ≠ .leased)
    (hattempts : s.attempts ≤ 3) : ItemInvariant s := by
  obtain ⟨htoken, hexpiry, hprincipal⟩ := hs
  exact ⟨hattempts, by simp [hstatus, htoken], by simp [hstatus, hexpiry],
    by simp [hstatus, hprincipal]⟩

theorem retryDelays_length : retryDelays.length = 3 := rfl

/-- An interrupted lease is cleared and counted at most three times. -/
structure Retried (s t : QueueItem) : Prop where
  cleared : t.leaseTokenHash = none ∧ t.leaseExpiresAt = none ∧ t.leasedByPrincipalId = none
  cases : (s.attempts < 3 ∧ t.status = .failedRetryable ∧ t.attempts = s.attempts + 1) ∨
    (3 ≤ s.attempts ∧ t.status = .failedTerminal ∧ t.attempts = s.attempts)

theorem scheduleRetry_retried (s : QueueItem) (interruptedAt : Instant) (errorCode : String) :
    Retried s (scheduleRetry s interruptedAt errorCode) := by
  unfold scheduleRetry
  rw [retryDelays_length]
  split
  · exact ⟨⟨rfl, rfl, rfl⟩, .inr ⟨‹_›, rfl, rfl⟩⟩
  · exact ⟨⟨rfl, rfl, rfl⟩, .inl ⟨by omega, rfl, rfl⟩⟩

theorem lawful_retried {s t : QueueItem} (hs : ItemInvariant s) (hleased : s.status = .leased)
    (h : Retried s t) : Lawful s t := by
  have hattempts := hs.attempts
  have hfinal : ¬Final s.status := by simp [Final, hleased]
  rcases h.cases with ⟨hlt, hstatus, hnext⟩ | ⟨_, hstatus, hnext⟩
  · exact ⟨itemInvariant_cleared h.cleared (by simp [hstatus]) (by omega), by omega,
      fun hf => absurd hf hfinal, fun _ => by simp [hstatus]⟩
  · exact ⟨itemInvariant_cleared h.cleared (by simp [hstatus]) (by omega), by omega,
      fun hf => absurd hf hfinal, fun _ => by simp [hstatus]⟩

/-- Every guarded command is lawful. -/
theorem lawful_change {s t : QueueItem} {c : Command} (hs : ItemInvariant s)
    (hguard : Guarded s c) (h : Change s c t) : Lawful s t := by
  cases h with
  | block c reasonCodes =>
    have hwaiting := hguard trivial
    have hleased : s.status ≠ .leased := fun heq => hwaiting (.inl heq)
    have htoken := mt hs.token.mpr hleased
    have hexpiry := mt hs.expiry.mpr hleased
    have hprincipal := mt hs.principal.mpr hleased
    exact ⟨⟨hs.attempts, by simpa using htoken, by simpa using hexpiry, by simpa using hprincipal⟩,
      le_refl _, fun hf => absurd (.inr hf) hwaiting, fun hf => absurd hf hwaiting⟩
  | grant c proofs h =>
    have hfinal : ¬Final s.status := by
      rcases h.leaseable with hs | hs <;> simp [Final, hs]
    exact ⟨⟨hs.attempts, by simp, by simp, by simp⟩, le_refl _, fun hf => absurd hf hfinal,
      fun _ => by simp⟩
  | beat c h =>
    have hfinal : ¬Final s.status := by simp [Final, h.leased]
    exact ⟨⟨hs.attempts, hs.token, by simp [h.leased], hs.principal⟩, le_refl _,
      fun hf => absurd hf hfinal, fun _ => by simp [h.leased]⟩
  | succeed c h =>
    have hfinal : ¬Final s.status := by simp [Final, h.leased]
    exact ⟨itemInvariant_cleared ⟨rfl, rfl, rfl⟩ (by simp [clearLease]) hs.attempts, le_refl _,
      fun hf => absurd hf hfinal, fun _ => by simp [clearLease]⟩
  | fail c errorCode h => exact lawful_retried hs h.leased (scheduleRetry_retried _ _ _)
  | recover now expiresAt hleased => exact lawful_retried hs hleased (scheduleRetry_retried _ _ _)

theorem unlawful_of_unguarded {s : QueueItem} {c : Command} (h : ¬Guarded s c) :
    ∃ t, step dumpOutput s c = .ok t ∧ ¬Lawful s t := by
  simp only [Guarded, Classical.not_imp, not_not] at h
  exact ⟨_, step_blocked s h.1, fun hlawful => hlawful.unblocked h.2 rfl⟩

/-- Over any history of commands, every accepted one is lawful exactly when no
    capability refusal reaches a leased or finished item. -/
theorem queue_lawful_iff {item : QueueItem} (h : Registered item) (commands : List Command) :
    (Meets (step dumpOutput) (fun s c => ∀ t, step dumpOutput s c = .ok t → Lawful s t) item
      commands ↔ Meets (step dumpOutput) Guarded item commands) ∧
    (Meets (step dumpOutput) Guarded item commands →
      ItemInvariant (run (step dumpOutput) item commands)) := by
  have hitem := itemInvariant_registered h
  clear h
  constructor
  · induction commands generalizing item with
    | nil => exact Iff.rfl
    | cons c rest ih =>
      have hguarded (hc : ∀ t, step dumpOutput item c = .ok t → Lawful item t) :
          Guarded item c := by
        by_contra hunguarded
        obtain ⟨t, hstep, hbroken⟩ := @unlawful_of_unguarded dumpOutput _ _ hunguarded
        exact hbroken (hc t hstep)
      have hlawful (hguard : Guarded item c) (t : QueueItem)
          (hstep : step dumpOutput item c = .ok t) : Lawful item t :=
        lawful_change hitem hguard (step_change hstep)
      have hnext (hguard : Guarded item c) : ItemInvariant (attempt (step dumpOutput) item c) := by
        rcases attempt_cases (step dumpOutput) item c with hsame | hstep
        · rw [hsame]
          exact hitem
        · exact (hlawful hguard _ hstep).invariant
      constructor
      · rintro ⟨hc, hrest⟩
        exact ⟨hguarded hc, (ih (hnext (hguarded hc))).mp hrest⟩
      · rintro ⟨hc, hrest⟩
        exact ⟨hlawful hc, (ih (hnext hc)).mpr hrest⟩
  · exact run_invariant_of (fun s c t hs hguard hstep =>
      (lawful_change hs hguard (step_change hstep)).invariant) hitem

end Invariant

section Sample

def freshToken : String := "00000000000000000000000000000000"

theorem freshToken_length : minimumLeaseCredentialLength ≤ freshToken.length := by decide

def irrelevant : AnalysisOutput := ⟨false, none, []⟩

def sampleItem : QueueItem where
  id := 1
  binding := ⟨2, 0, "relevance-v1", "codex-cli-0.144.1", "analysis-output-v1"⟩
  status := .pending
  attempts := 0
  availableAt := 0

theorem sampleItem_registered : Registered sampleItem := ⟨rfl, rfl, rfl, rfl, rfl⟩

def sampleLease (now : ℤ) : LeaseCommand where
  itemId := 1
  binding := sampleItem.binding
  principalId := 3
  leaseToken := freshToken
  now := seconds now

def sampleDump : AnalysisOutput → Bytes := fun _ => []

theorem queue_lawful_iff_sample : ItemInvariant (run (step sampleDump) sampleItem
    [.requestLease (sampleLease 0) (.approved 0), .ackSuccess ⟨sampleLease 120, irrelevant⟩]) :=
  (queue_lawful_iff sampleItem_registered _).2 ⟨nofun, nofun, trivial⟩

/-- A capability refusal takes a leased item away from its holder, lease fields and all. -/
theorem leased_item_refused :
    let leased := run (step sampleDump) sampleItem [.requestLease (sampleLease 0) (.approved 0)]
    leased.status = .leased ∧ ∃ t, step sampleDump leased
        (.requestLease (sampleLease 60) (.blocked ["zero_tools_unproven"])) = .ok t ∧
      t.status = .blockedCapability ∧ t.leaseTokenHash.isSome ∧ ¬Lawful leased t := by
  have hleased : (run (step sampleDump) sampleItem
      [.requestLease (sampleLease 0) (.approved 0)]).status = .leased := by decide +kernel
  exact ⟨hleased, _, rfl, rfl, by decide +kernel,
    fun hlawful => hlawful.unblocked (.inl hleased) rfl⟩

end Sample

end PredictionMarketMonitor.AnalysisQueue
