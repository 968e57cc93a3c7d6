import PredictionMarketMonitor.StaleRecovery

set_option autoImplicit false

/-!
# The lifecycle of one command

Every operation that writes a command row, as one step function over the row:
`dispatch.py`, the command update of `completion_plan_store.py` and
`_reconcile_command` of `reconciliation_store.py`. Operations come in any order
and at any database time; a rejected operation leaves the row alone.
-/
namespace PredictionMarketMonitor.CommandLifecycle

open CanonicalJson CivilTime CollectionBase CollectionModels Completion Dispatch FallibleSteps
open PageCommit Sha256 StaleRecovery

section Machine
variable (nfc : Text → Text)

def retryAvailableAt (command : CommandState) (completedAt : Instant) (retryJitterKey : Bytes) :
    Result Instant :=
  if command.attempt < maxCommandAttempts then do
    let delay ← retryDelaySeconds retryJitterKey command.id (command.attempt + 1)
    return completedAt + seconds delay
  else .ok command.availableAt

def withRetryAvailability (command : CommandState) (plan : CompletionPlan)
    (retryJitterKey : Bytes) : Result CommandState :=
  match plan.commandStatus with
  | .failedRetryable => do
    let availableAt ← retryAvailableAt command plan.completedAt retryJitterKey
    return { clearReservation command with availableAt := availableAt }
  | .succeeded | .partialSuccess | .skipped | .failedTerminal => .ok command
  | .queued | .dispatchReserved | .dispatched | .running | .staleAbandoned =>
    .error (fail .invalidTransition 409)

/-- The command row that `persist_completion_plan` writes. -/
def completedCommand (command : CommandState) (plan : CompletionPlan) (retryJitterKey : Bytes) :
    Result CommandState :=
  withRetryAvailability
    { command with
      status := plan.commandStatus
      completedAt := some plan.completedAt
      outcomeCode := some plan.commandStatus.value }
    plan retryJitterKey

def Reconcilable (status : CommandStatus) : Prop :=
  status = .dispatchReserved ∨ status = .dispatched ∨ status = .running ∨
    status = .staleAbandoned

instance (status : CommandStatus) : Decidable (Reconcilable status) :=
  inferInstanceAs (Decidable (_ ∨ _))

/-- Mark a command stale, and release it in the same pass once abandoned. -/
def releaseCommand (command : CommandState) (now : Instant) (retryJitterKey : Bytes) :
    Result CommandState := do
  let check : StaleCheck := ⟨now, false, retryJitterKey⟩
  let state ← markStale command check
  if state.status = .staleAbandoned then markStale state check else return state

/-- `_reconcile_command`: `now` is the clock of the pass, `contextNow` the one
    read when the runs are locked. -/
def reconcileCommand (command : CommandState) (runs : List RunCompletionFacts)
    (now contextNow : Instant) (retryJitterKey : Bytes) : Result CommandState :=
  if (command.status = .running ∨ command.status = .staleAbandoned) ∧ runs ≠ [] then do
    match ← prepareStaleRecovery nfc ⟨command, runs, contextNow⟩ retryJitterKey with
    | none => return command
    | some plan => completedCommand command plan retryJitterKey
  else releaseCommand command now retryJitterKey

inductive Operation
  | reserve (reservation : DispatchReservation)
  | confirm (confirmation : DispatchConfirmation)
  | claim (credentials : ClaimCredentials)
  | heartbeat (credentials : ClaimCredentials)
  | complete (request : CompletionRequest) (runs : List RunCompletionFacts)
  | markStale (completionReady : Bool)
  | recover (runs : List RunCompletionFacts) (contextNow : Instant)

structure Call where
  operation : Operation
  now : Instant
  retryJitterKey : Bytes

def step (command : CommandState) (call : Call) : Result CommandState :=
  match call.operation with
  | .reserve reservation => reserveDispatch command reservation call.now
  | .confirm confirmation => confirmDispatch command confirmation call.now
  | .claim credentials => claimCommand command credentials call.now
  | .heartbeat credentials => heartbeatCommand command credentials call.now
  | .complete request runs => do
    let plan ← prepareCompletion nfc ⟨command, runs, call.now⟩ request
    completedCommand command plan call.retryJitterKey
  | .markStale completionReady =>
    Dispatch.markStale command ⟨call.now, completionReady, call.retryJitterKey⟩
  | .recover runs contextNow =>
    if Reconcilable command.status then
      reconcileCommand nfc command runs call.now contextNow call.retryJitterKey
    else .ok command

end Machine

section Inversion
variable {nfc : Text → Text}

def Final (status : CommandStatus) : Prop :=
  status = .succeeded ∨ status = .partialSuccess ∨ status = .skipped ∨ status = .failedTerminal

instance (status : CommandStatus) : Decidable (Final status) := inferInstanceAs (Decidable (_ ∨ _))

def Held (status : CommandStatus) : Prop :=
  status = .dispatchReserved ∨ status = .dispatched ∨ status = .running

def Operation.IsRecovery : Operation → Prop
  | .markStale _ | .recover _ _ => True
  | .reserve _ | .confirm _ | .claim _ | .heartbeat _ | .complete _ _ => False

def AsksRetry (request : CompletionRequest) : Prop :=
  .failedRetryable ∈ request.sourceOutcomes.map (·.terminalStatus) ∧
    .succeeded ∉ request.sourceOutcomes.map (·.terminalStatus)

instance (request : CompletionRequest) : Decidable (AsksRetry request) :=
  inferInstanceAs (Decidable (_ ∧ _))

/-- Everything an accepted operation can do to a command row. -/
inductive Change (s : CommandState) : Operation → CommandState → Prop
  | keep (op : Operation) : Change s op s
  | reserve {t : CommandState} (r : DispatchReservation) (now : Instant)
      (h : reserveDispatch s r now = .ok t) : Change s (.reserve r) t
  | confirm (c : DispatchConfirmation) (now : Instant) (hs : s.status = .dispatchReserved) :
      Change s (.confirm c) { s with
        status := .dispatched
        dispatchedAt := some now
        githubRunId := some c.githubRunId
        githubRunAttempt := some c.githubRunAttempt }
  | claim (c : ClaimCredentials) (now : Instant)
      (hs : s.status = .dispatchReserved ∨ s.status = .dispatched) :
      Change s (.claim c) { s with
        status := .running
        claimedAt := some now
        heartbeatAt := some now }
  | heartbeat (c : ClaimCredentials) (now : Instant) (hs : s.status = .running) :
      Change s (.heartbeat c) { s with heartbeatAt := some now }
  | finish (op : Operation) (status : CommandStatus) (completedAt : Instant)
      (hs : s.status = .running) (hfinal : Final status) :
      Change s op { s with
        status := status
        completedAt := some completedAt
        outcomeCode := some status.value }
  | retry (op : Operation) (availableAt completedAt : Instant) (hs : s.status = .running)
      (hbudget : s.attempt < maxCommandAttempts ∨
        ∃ request runs, op = .complete request runs ∧ AsksRetry request) :
      Change s op { clearReservation s with
        status := .failedRetryable
        availableAt := availableAt
        completedAt := some completedAt
        outcomeCode := some CommandStatus.failedRetryable.value }
  | abandon (op : Operation) (hs : s.status = .dispatched ∨ s.status = .running) :
      Change s op { s with status := .staleAbandoned }
  | release (op : Operation) (status : CommandStatus) (availableAt : Instant)
      (hs : Reconcilable s.status)
      (hbudget : (maxCommandAttempts ≤ s.attempt ∧ status = .failedTerminal) ∨
        (s.attempt < maxCommandAttempts ∧ status = .failedRetryable)) :
      Change s op { clearReservation s with status := status, availableAt := availableAt }

theorem final_of_aggregate {statuses : List RunStatus} {status : CommandStatus}
    (h : aggregateCommandStatus statuses = .ok status) :
    Final status ∨ status = .failedRetryable := by
  obtain ⟨_, _, rfl⟩ := aggregateCommandStatus_eq_ok.mp h
  unfold aggregateOf
  split_ifs <;> simp [Final]

theorem aggregateOf_eq_failedRetryable {statuses : List RunStatus}
    (h : aggregateOf statuses = .failedRetryable) :
    .failedRetryable ∈ statuses ∧ .succeeded ∉ statuses := by
  unfold aggregateOf at h
  split_ifs at h with _ hsome _ hretry
  exact ⟨hretry, hsome⟩

theorem completedCommand_cases {s t : CommandState} {op : Operation} {plan : CompletionPlan}
    {key : Bytes} (hs : s.status = .running)
    (hstatus : Final plan.commandStatus ∨ plan.commandStatus = .failedRetryable)
    (hbudget : plan.commandStatus = .failedRetryable → s.attempt < maxCommandAttempts ∨
      ∃ request runs, op = .complete request runs ∧ AsksRetry request)
    (h : completedCommand s plan key = .ok t) : Change s op t := by
  unfold completedCommand withRetryAvailability at h
  rcases hstatus with hfinal | hretry
  · obtain rfl : { s with
        status := plan.commandStatus
        completedAt := some plan.completedAt
        outcomeCode := some plan.commandStatus.value } = t := by
      rcases hfinal with hf | hf | hf | hf <;> rw [hf] at h ⊢ <;> exact Except.ok.inj h
    exact .finish op _ _ hs hfinal
  · simp only [hretry] at h
    obtain ⟨availableAt, _, h⟩ := bind_eq_ok.mp h
    obtain rfl := Except.ok.inj h
    exact .retry op _ _ hs (hbudget hretry)

theorem markStale_change {s t : CommandState} {check : StaleCheck} (op : Operation)
    (h : markStale s check = .ok t) : Change s op t := by
  rcases markStale_cases h with rfl | ⟨hs, rfl⟩ | ⟨hs, hrelease⟩
  · exact .keep op
  · exact .abandon op hs
  · obtain ⟨status, availableAt, rfl, hbudget⟩ := releaseAbandoned_eq_ok hrelease
    refine .release op status availableAt ?_ hbudget
    rcases hs with hs | hs <;> simp [Reconcilable, hs]

theorem release_abandoned {s t : CommandState} {now : Instant} {key : Bytes} {op : Operation}
    (hs : s.status = .dispatched ∨ s.status = .running)
    (h : releaseAbandoned { s with status := .staleAbandoned } now key = .ok t) :
    Change s op t := by
  obtain ⟨status, availableAt, rfl, hbudget⟩ := releaseAbandoned_eq_ok h
  refine Change.release (s := s) op status availableAt ?_ hbudget
  rcases hs with hs | hs <;> simp [Reconcilable, hs]

theorem markStale_abandoned {s : CommandState} {check : StaleCheck}
    (hs : s.status = .staleAbandoned) :
    markStale s check = releaseAbandoned s check.dbNow check.retryJitterKey := by
  rw [markStale, if_neg (by simp [hs]), if_pos hs]

theorem releaseCommand_change {s t : CommandState} {now : Instant} {key : Bytes} (op : Operation)
    (h : releaseCommand s now key = .ok t) : Change s op t := by
  obtain ⟨state, hmark, hnext⟩ := bind_eq_ok.mp h
  split at hnext
  · rename_i habandoned
    rcases markStale_cases hmark with rfl | ⟨hs, rfl⟩ | ⟨_, hrelease⟩
    · exact markStale_change op hnext
    · exact release_abandoned hs ((markStale_abandoned rfl).symm.trans hnext)
    · obtain ⟨status, _, rfl, hbudget⟩ := releaseAbandoned_eq_ok hrelease
      rcases hbudget with ⟨_, rfl⟩ | ⟨_, rfl⟩ <;> cases habandoned
  · obtain rfl := Except.ok.inj hnext
    exact markStale_change op hmark

theorem markStale_budget {s t : CommandState} {check : StaleCheck} (h : markStale s check = .ok t)
    (hs : s.status ≠ .failedRetryable) : t.attempt = s.attempt ∧
      (t.status = .failedRetryable → s.attempt < maxCommandAttempts) := by
  rcases markStale_cases h with rfl | ⟨_, rfl⟩ | ⟨_, hrelease⟩
  · exact ⟨rfl, fun h => absurd h hs⟩
  · exact ⟨rfl, nofun⟩
  · obtain ⟨status, _, rfl, hbudget⟩ := releaseAbandoned_eq_ok hrelease
    refine ⟨rfl, fun hretry => ?_⟩
    rcases hbudget with ⟨_, rfl⟩ | ⟨hlt, _⟩
    · cases hretry
    · exact hlt

theorem releaseStale_budget {context : CompletionContext} {key : Bytes}
    {released : Option CommandState} (h : releaseStale context key = .ok released)
    (hs : context.command.status ≠ .failedRetryable) :
    ∀ command ∈ released, command.status = .failedRetryable →
      context.command.attempt < maxCommandAttempts := by
  obtain ⟨first, hfirst, hnext⟩ := bind_eq_ok.mp h
  have hbudget := markStale_budget hfirst hs
  intro command hcommand hretry
  cases hstatus : first.status <;> simp only [hstatus] at hnext
  case staleAbandoned =>
    obtain ⟨second, hsecond, hnext⟩ := bind_eq_ok.mp hnext
    obtain rfl := Except.ok.inj hnext
    obtain rfl := Option.mem_some.mp hcommand
    have hlt := (markStale_budget hsecond (by simp [hstatus])).2 hretry
    rwa [hbudget.1] at hlt
  case failedRetryable =>
    exact hbudget.2 hstatus
  case failedTerminal =>
    obtain rfl := Except.ok.inj hnext
    obtain rfl := Option.mem_some.mp hcommand
    rw [hstatus] at hretry
    cases hretry
  case running =>
    obtain rfl := Except.ok.inj hnext
    cases hcommand
  all_goals cases hnext

theorem recoveryOutcome_status {status : Option CommandStatus} {now : Instant}
    {retryAfterAt : Option Instant} {facts : RunCompletionFacts}
    {outcome : CompletionSourceOutcome}
    (h : recoveryOutcome status now retryAfterAt facts = .ok outcome)
    (hretry : outcome.terminalStatus = .failedRetryable) : status = some .failedRetryable := by
  unfold recoveryOutcome at h
  split at h
  · obtain rfl := Except.ok.inj h
    cases hretry
  · obtain ⟨abandoned, habandoned, h⟩ := bind_eq_ok.mp h
    obtain rfl := Except.ok.inj h
    unfold abandonedStatus at habandoned
    split at habandoned
    · rfl
    · obtain rfl := Except.ok.inj habandoned
      cases hretry
    · cases habandoned

theorem releasedFacts_status {released : Option CommandState} {status : Option CommandStatus}
    {retryAfterAt : Option Instant} (h : releasedFacts released = .ok (status, retryAfterAt)) :
    status = released.map (·.status) := by
  cases released with
  | none => exact (congrArg Prod.fst (Except.ok.inj h)).symm
  | some command =>
    unfold releasedFacts at h
    cases hstatus : command.status <;> simp only [hstatus] at h <;> cases h <;> simp [hstatus]

theorem plannedRecovery_budget {context : CompletionContext} {released : Option CommandState}
    {plan : CompletionPlan} (h : plannedRecovery nfc context released = .ok plan)
    (hreleased : ∀ command ∈ released, command.status = .failedRetryable →
      context.command.attempt < maxCommandAttempts) :
    context.command.status = .running ∧
      (Final plan.commandStatus ∨ plan.commandStatus = .failedRetryable) ∧
      (plan.commandStatus = .failedRetryable → context.command.attempt < maxCommandAttempts) := by
  obtain ⟨⟨status, retryAfterAt⟩, hfacts, h⟩ := bind_eq_ok.mp h
  have hlt (hretry : status = some .failedRetryable) :
      context.command.attempt < maxCommandAttempts := by
    rw [releasedFacts_status hfacts] at hretry
    obtain ⟨command, hcommand, hstatus⟩ := Option.map_eq_some_iff.mp hretry
    exact hreleased command hcommand hstatus
  obtain ⟨outcomes, houtcomes, h⟩ := bind_eq_ok.mp h
  obtain ⟨base, hbase, h⟩ := bind_eq_ok.mp h
  obtain ⟨results, hplanned⟩ := prepareServerCompletion_eq_ok.mp hbase
  split at h
  · rename_i hmixed
    obtain rfl := Except.ok.inj h
    exact ⟨hplanned.running, .inr rfl, fun _ => hlt hmixed.1⟩
  · obtain rfl := Except.ok.inj h
    refine ⟨hplanned.running, final_of_aggregate hplanned.status, fun hretry => ?_⟩
    rw [planned_commandStatus hplanned] at hretry
    obtain ⟨outcome, houtcome, hterminal⟩ :=
      List.mem_map.mp (aggregateOf_eq_failedRetryable hretry).1
    obtain ⟨facts, _, hrecovery⟩ := forall₂_mem_right (mapM_forall₂.mp houtcomes) outcome houtcome
    exact hlt (recoveryOutcome_status hrecovery hterminal)

theorem prepareStaleRecovery_budget {context : CompletionContext} {key : Bytes}
    {plan : CompletionPlan} (h : prepareStaleRecovery nfc context key = .ok (some plan)) :
    context.command.status = .running ∧
      (Final plan.commandStatus ∨ plan.commandStatus = .failedRetryable) ∧
      (plan.commandStatus = .failedRetryable → context.command.attempt < maxCommandAttempts) := by
  obtain ⟨_, hrecoverable, h⟩ := bind_eq_ok.mp h
  have hstatus : context.command.status ≠ .failedRetryable := by
    rcases require_eq_ok.mp hrecoverable with hs | hs <;> simp [hs]
  split at h
  · cases h
  · obtain ⟨released, hreleased, h⟩ := bind_eq_ok.mp h
    split at h
    · cases h
    · obtain ⟨other, hother, h⟩ := bind_eq_ok.mp h
      obtain rfl := Option.some.inj (Except.ok.inj h)
      refine plannedRecovery_budget hother ?_
      unfold releasedCommand at hreleased
      split at hreleased
      · obtain rfl := Except.ok.inj hreleased
        simp
      · exact releaseStale_budget hreleased hstatus

theorem reconcileCommand_change {s t : CommandState} {runs : List RunCompletionFacts}
    {now contextNow : Instant} {key : Bytes} (op : Operation)
    (h : reconcileCommand nfc s runs now contextNow key = .ok t) : Change s op t := by
  unfold reconcileCommand at h
  split at h
  · obtain ⟨answer, hanswer, h⟩ := bind_eq_ok.mp h
    cases answer with
    | none =>
      obtain rfl := Except.ok.inj h
      exact .keep op
    | some plan =>
      obtain ⟨hrunning, hstatus, hbudget⟩ := prepareStaleRecovery_budget hanswer
      exact completedCommand_cases hrunning hstatus (fun hretry => .inl (hbudget hretry)) h
  · exact releaseCommand_change op h

/-- An accepted operation makes one of the listed changes. -/
theorem step_change {s t : CommandState} {call : Call} (h : step nfc s call = .ok t) :
    Change s call.operation t := by
  obtain ⟨op, now, key⟩ := call
  cases op with
  | reserve r => exact .reserve r now h
  | confirm c =>
    obtain ⟨hs, rfl⟩ := confirmDispatch_eq_ok h
    exact .confirm c now hs
  | claim c =>
    obtain ⟨_, ⟨hs, rfl⟩ | ⟨_, rfl⟩⟩ := claimCommand_cases h
    · exact .claim c now hs
    · exact .keep _
  | heartbeat c =>
    obtain ⟨hs, rfl⟩ := heartbeatCommand_eq_ok h
    exact .heartbeat c now hs.1
  | complete request runs =>
    obtain ⟨plan, hplan, h⟩ := bind_eq_ok.mp h
    obtain ⟨hlease, results, hplanned⟩ := prepareCompletion_eq_ok.mp hplan
    refine completedCommand_cases hlease.1 (final_of_aggregate hplanned.status) ?_ h
    intro hretry
    rw [planned_commandStatus hplanned] at hretry
    exact .inr ⟨request, runs, rfl, aggregateOf_eq_failedRetryable hretry⟩
  | markStale completionReady => exact markStale_change _ h
  | recover runs contextNow =>
    simp only [step] at h
    split at h
    · exact reconcileCommand_change _ h
    · obtain rfl := Except.ok.inj h
      exact .keep _

end Inversion

section Invariant
variable {nfc : Text → Text}

/-- A command as materialized: queued, first attempt, no secrets. -/
structure Issued (command : CommandState) : Prop where
  queued : command.status = .queued
  first : command.attempt = 1
  free : command.reservationNonceHash = none ∧ command.leaseHash = none

structure LifecycleInvariant (s : CommandState) : Prop where
  attempt : 1 ≤ s.attempt ∧ s.attempt ≤ maxCommandAttempts
  secrets : Reconcilable s.status → s.reservationNonceHash.isSome ∧ s.leaseHash.isSome
  claimed : s.status = .running → s.claimedAt.isSome ∧ s.heartbeatAt.isSome
  free : s.status = .queued ∨ s.status = .failedRetryable →
    s.reservationNonceHash = none ∧ s.leaseHash = none

theorem lifecycle_issued {command : CommandState} (h : Issued command) :
    LifecycleInvariant command where
  attempt := by simp [h.first, maxCommandAttempts]
  secrets := by simp [Reconcilable, h.queued]
  claimed := by simp [h.queued]
  free := fun _ => h.free

theorem lifecycle_change {s t : CommandState} {op : Operation} (hs : LifecycleInvariant s)
    (h : Change s op t) : LifecycleInvariant t := by
  cases h with
  | keep => exact hs
  | reserve r now h =>
    obtain ⟨_, _, _, hattempt, rfl⟩ := reserveDispatch_eq_ok.mp h
    exact ⟨⟨Nat.le_trans hs.attempt.1 (Nat.le_add_right _ _), hattempt⟩, fun _ => ⟨rfl, rfl⟩,
      nofun, by simp⟩
  | confirm c now h =>
    exact ⟨hs.attempt, fun _ => hs.secrets (.inl h), nofun, by simp⟩
  | claim c now h =>
    exact ⟨hs.attempt, fun _ => hs.secrets (h.imp_right .inl), fun _ => ⟨rfl, rfl⟩, by simp [*]⟩
  | heartbeat c now h =>
    exact ⟨hs.attempt, hs.secrets, fun hr => ⟨(hs.claimed hr).1, rfl⟩, hs.free⟩
  | finish _ status completedAt h hfinal =>
    exact ⟨hs.attempt, by rcases hfinal with rfl | rfl | rfl | rfl <;> simp [Reconcilable],
      by rcases hfinal with rfl | rfl | rfl | rfl <;> simp,
      by rcases hfinal with rfl | rfl | rfl | rfl <;> simp⟩
  | retry _ availableAt completedAt h hbudget =>
    exact ⟨hs.attempt, by simp [Reconcilable], nofun, fun _ => ⟨rfl, rfl⟩⟩
  | abandon _ h =>
    exact ⟨hs.attempt, fun _ => hs.secrets (by rcases h with h | h <;> simp [Reconcilable, h]),
      nofun, by simp⟩
  | release _ status availableAt h hbudget =>
    refine ⟨hs.attempt, ?_, ?_, fun _ => ⟨rfl, rfl⟩⟩
    · rcases hbudget with ⟨_, rfl⟩ | ⟨_, rfl⟩ <;> simp [Reconcilable]
    · rcases hbudget with ⟨_, rfl⟩ | ⟨_, rfl⟩ <;> simp

theorem lifecycle_run {command : CommandState} (h : Issued command) (calls : List Call) :
    LifecycleInvariant (run (step nfc) command calls) :=
  run_invariant (fun _ _ _ hs hstep => lifecycle_change hs (step_change hstep)) calls
    (lifecycle_issued h)

/-- An attempt is opened only by reserving a retryable command. -/
theorem attempt_change {s t : CommandState} {op : Operation} (h : Change s op t) :
    t.attempt = s.attempt ∨
      (t.attempt = s.attempt + 1 ∧ s.status = .failedRetryable ∧ ∃ r, op = .reserve r) := by
  cases h with
  | reserve r now h =>
    obtain ⟨_, _, _, _, rfl⟩ := reserveDispatch_eq_ok.mp h
    by_cases hretry : s.status = .failedRetryable
    · exact .inr ⟨by simp [hretry], hretry, r, rfl⟩
    · exact .inl (by simp [hretry])
  | _ => exact .inl rfl

theorem change_origin {s t : CommandState} {op : Operation} (h : Change s op t) :
    t = s ∨ (∃ r now, reserveDispatch s r now = .ok t) ∨ Reconcilable s.status := by
  cases h with
  | keep => exact .inl rfl
  | reserve r now h => exact .inr (.inl ⟨r, now, h⟩)
  | confirm c now hs => exact .inr (.inr (.inl hs))
  | claim c now hs => exact .inr (.inr (hs.imp_right .inl))
  | heartbeat c now hs => exact .inr (.inr (.inr (.inr (.inl hs))))
  | finish _ status completedAt hs => exact .inr (.inr (.inr (.inr (.inl hs))))
  | retry _ availableAt completedAt hs => exact .inr (.inr (.inr (.inr (.inl hs))))
  | abandon _ hs => exact .inr (.inr (.inr (hs.imp_right .inl)))
  | release _ status availableAt hs => exact .inr (.inr hs)

/-- No operation changes a finished command. -/
theorem final_change {s t : CommandState} {op : Operation} (hfinal : Final s.status)
    (h : Change s op t) : t = s := by
  rcases change_origin h with rfl | ⟨r, now, hreserve⟩ | hs
  · rfl
  · obtain ⟨_, _, hopen, _⟩ := reserveDispatch_eq_ok.mp hreserve
    rcases hfinal with hf | hf | hf | hf <;> simp [hf] at hopen
  · rcases hfinal with hf | hf | hf | hf <;> simp [Reconcilable, hf] at hs

theorem final_run {command : CommandState} (h : Final command.status) (calls : List Call) :
    run (step nfc) command calls = command :=
  run_invariant (I := (· = command))
    (fun _ _ _ hs hstep => by subst hs; exact final_change h (step_change hstep)) calls rfl

end Invariant

section RetryBudget
variable {nfc : Text → Text}

/-- What `recover_due_commands` reports at time `t`. -/
def Due (s : CommandState) (t : Instant) : Prop :=
  (s.status = .queued ∨ s.status = .failedRetryable) ∧ s.availableAt ≤ t

instance (s : CommandState) (t : Instant) : Decidable (Due s t) :=
  inferInstanceAs (Decidable (_ ∧ _))

/-- An open command can be reserved again, and is accepted whenever it is due. -/
structure ReservableWhenDue (s : CommandState) : Prop where
  open_ : s.status = .queued ∨ s.status = .failedRetryable →
    s.attempt + (if s.status = .failedRetryable then 1 else 0) ≤ maxCommandAttempts ∧
      s.reservationNonceHash = none ∧ s.leaseHash = none
  accepted : ∀ (r : DispatchReservation) (t : Instant), Due s t →
    ∃ next, reserveDispatch s r t = .ok next

def WithinBudget (s : CommandState) (call : Call) : Prop :=
  match call.operation with
  | .complete request _ => s.attempt = maxCommandAttempts → ¬AsksRetry request
  | .reserve _ | .confirm _ | .claim _ | .heartbeat _ | .markStale _ | .recover _ _ => True

def RetryLeft (s : CommandState) : Prop :=
  s.status = .failedRetryable → s.attempt < maxCommandAttempts

theorem reservable_of_retryLeft {s : CommandState} (hs : LifecycleInvariant s)
    (hleft : RetryLeft s) : ReservableWhenDue s := by
  have hattempt (hopen : s.status = .queued ∨ s.status = .failedRetryable) :
      s.attempt + (if s.status = .failedRetryable then 1 else 0) ≤ maxCommandAttempts := by
    split
    · exact hleft ‹_›
    · exact hs.attempt.2
  refine ⟨fun hopen => ⟨hattempt hopen, hs.free hopen⟩, fun r t hdue => ?_⟩
  exact ⟨_, reserveDispatch_eq_ok.mpr ⟨hdue.2, hs.free hdue.1, hdue.1, hattempt hdue.1, rfl⟩⟩

theorem retryLeft_change {s t : CommandState} {op : Operation} {now : Instant} {key : Bytes}
    (hs : LifecycleInvariant s) (hleft : RetryLeft s) (hbudget : WithinBudget s ⟨op, now, key⟩)
    (h : Change s op t) : RetryLeft t := by
  cases h with
  | keep => exact hleft
  | reserve r now h =>
    obtain ⟨_, _, _, _, rfl⟩ := reserveDispatch_eq_ok.mp h
    exact nofun
  | heartbeat c now h => exact hleft
  | finish _ status completedAt h hfinal =>
    rcases hfinal with rfl | rfl | rfl | rfl <;> exact nofun
  | retry _ availableAt completedAt h hretry =>
    intro _
    rcases hretry with hlt | ⟨request, runs, rfl, hasks⟩
    · exact hlt
    · exact Nat.lt_of_le_of_ne hs.attempt.2 fun hlast => hbudget hlast hasks
  | release _ status availableAt h hrelease =>
    intro hretry
    rcases hrelease with ⟨_, rfl⟩ | ⟨hlt, _⟩
    · cases hretry
    · exact hlt
  | _ => exact nofun

/-- Retryable on the last attempt: due for ever, and never reserved again. -/
structure Exhausted (s : CommandState) : Prop where
  retryable : s.status = .failedRetryable
  last : s.attempt = maxCommandAttempts
  free : s.reservationNonceHash = none ∧ s.leaseHash = none

theorem exhausted_refused {s : CommandState} (h : Exhausted s) (r : DispatchReservation)
    {t : Instant} (hdue : Due s t) : reserveDispatch s r t = .error (fail .retriesExhausted 409) := by
  have hattempt : ¬s.attempt + (if s.status = .failedRetryable then 1 else 0) ≤
      maxCommandAttempts := by
    rw [if_pos h.retryable, h.last]
    exact Nat.not_succ_le_self _
  rw [reserveDispatch, require_of hdue.2, ok_bind, require_of h.free, ok_bind,
    require_of hdue.1, ok_bind]
  simp only [require_of_not hattempt]
  rfl

theorem exhausted_change {s t : CommandState} {op : Operation} (hs : Exhausted s)
    (h : Change s op t) : t = s := by
  rcases change_origin h with rfl | ⟨r, now, hreserve⟩ | hactive
  · rfl
  · obtain ⟨_, _, _, hattempt, _⟩ := reserveDispatch_eq_ok.mp hreserve
    rw [if_pos hs.retryable, hs.last] at hattempt
    exact absurd hattempt (Nat.not_succ_le_self _)
  · simp [Reconcilable, hs.retryable] at hactive

theorem exhausted_run {s : CommandState} (hs : Exhausted s) (calls : List Call) :
    run (step nfc) s calls = s :=
  run_invariant (I := (· = s))
    (fun _ _ _ ht hstep => by subst ht; exact exhausted_change hs (step_change hstep)) calls rfl

theorem aggregateOf_asksRetry {request : CompletionRequest} (h : AsksRetry request) :
    aggregateOf (request.sourceOutcomes.map (·.terminalStatus)) = .failedRetryable := by
  have hall : ¬∀ s ∈ request.sourceOutcomes.map (·.terminalStatus), s = .succeeded :=
    fun hall => nomatch hall _ h.1
  have hskip : ¬∀ s ∈ request.sourceOutcomes.map (·.terminalStatus), RunStatus.Skip s :=
    fun hskip => by simpa [RunStatus.Skip] using hskip _ h.1
  rw [aggregateOf, if_neg hall, if_neg h.2, if_neg hskip, if_pos h.1]

theorem exhausted_of_complete {s t : CommandState} {request : CompletionRequest}
    {runs : List RunCompletionFacts} {now : Instant} {key : Bytes}
    (hlast : s.attempt = maxCommandAttempts) (hasks : AsksRetry request)
    (h : step nfc s ⟨.complete request runs, now, key⟩ = .ok t) : Exhausted t := by
  obtain ⟨plan, hplan, h⟩ := bind_eq_ok.mp h
  obtain ⟨_, results, hplanned⟩ := prepareCompletion_eq_ok.mp hplan
  have hstatus : plan.commandStatus = .failedRetryable :=
    (planned_commandStatus hplanned).trans (aggregateOf_asksRetry hasks)
  simp only [completedCommand, withRetryAvailability, hstatus] at h
  obtain ⟨availableAt, _, h⟩ := bind_eq_ok.mp h
  obtain rfl := Except.ok.inj h
  exact ⟨rfl, hlast, rfl, rfl⟩

/-- As long as no completion asks for a retry on the last attempt, every due
    command can be reserved; one that does strands the command for ever. -/
theorem due_reservable {command : CommandState} (h : Issued command) (calls : List Call) :
    (Meets (step nfc) WithinBudget command calls →
      ReservableWhenDue (run (step nfc) command calls)) ∧
    ∀ request runs now key t, ¬WithinBudget (run (step nfc) command calls)
        ⟨.complete request runs, now, key⟩ →
      step nfc (run (step nfc) command calls) ⟨.complete request runs, now, key⟩ = .ok t →
      ∀ later r due, run (step nfc) t later = t ∧ (t.availableAt ≤ due →
        Due t due ∧ reserveDispatch t r due = .error (fail .retriesExhausted 409)) := by
  constructor
  · intro hmeets
    have hrun := run_invariant_of (I := fun s => LifecycleInvariant s ∧ RetryLeft s)
      (fun s call t hs hbudget hstep => ⟨lifecycle_change hs.1 (step_change hstep),
        retryLeft_change hs.1 hs.2 hbudget (step_change hstep)⟩)
      ⟨lifecycle_issued h, fun hretry => by simp [h.queued] at hretry⟩ hmeets
    exact reservable_of_retryLeft hrun.1 hrun.2
  · intro request runs now key t hbudget hstep later r due
    simp only [WithinBudget, Classical.not_imp, not_not] at hbudget
    have ht := exhausted_of_complete hbudget.1 hbudget.2 hstep
    refine ⟨exhausted_run ht later, fun havailable => ?_⟩
    have hdue : Due t due := ⟨.inr ht.retryable, havailable⟩
    exact ⟨hdue, exhausted_refused ht r hdue⟩

end RetryBudget

section Credentials
variable {nfc : Text → Text}

def leaseToken? (call : Call) : Option String :=
  match call.operation with
  | .reserve reservation => some reservation.leaseToken
  | .confirm _ | .claim _ | .heartbeat _ | .complete _ _ | .markStale _ | .recover _ _ => none

/-- Every reservation brings a lease token of its own, told apart by its hash. -/
structure FreshSecrets (calls : List Call) : Prop where
  distinct : (calls.filterMap leaseToken?).Nodup
  collisionFree : ∀ a ∈ calls.filterMap leaseToken?, ∀ b ∈ calls.filterMap leaseToken?,
    hashToken a = hashToken b → a = b

/-- No operation that asks for a lease accepts the holder of `token`. -/
structure Refused (nfc : Text → Text) (s : CommandState) (token : String) : Prop where
  claim : ∀ credentials now, credentials.leaseToken = token →
    ∃ e, claimCommand s credentials now = .error e
  heartbeat : ∀ credentials now, credentials.leaseToken = token →
    ∃ e, heartbeatCommand s credentials now = .error e
  complete : ∀ context request, context.command = s → request.leaseToken = token →
    ∃ e, prepareCompletion nfc context request = .error e
  page : ∀ context request, context.command = s → request.leaseToken = token →
    ∃ e, validateNewPageCommit context request = .error e

/-- A command in flight is not leased to the holder of `token`. -/
def Retired (s : CommandState) (token : String) : Prop :=
  Held s.status → s.leaseHash ≠ some (hashToken token)

theorem error_of_not_ok {α : Type} {x : Result α} (h : ∀ a, x ≠ .ok a) : ∃ e, x = .error e := by
  cases x with
  | error e => exact ⟨e, rfl⟩
  | ok a => exact absurd rfl (h a)

theorem refused_of_retired {s : CommandState} {token : String} (h : Retired s token) :
    Refused nfc s token where
  claim credentials now htoken := error_of_not_ok fun t ht => by
    obtain ⟨⟨_, hlease, _⟩, ⟨hs, _⟩ | ⟨hs, _⟩⟩ := claimCommand_cases ht
    · exact h (hs.imp_right .inl) (htoken ▸ hlease)
    · exact h (.inr (.inr hs)) (htoken ▸ hlease)
  heartbeat credentials now htoken := error_of_not_ok fun t ht => by
    obtain ⟨⟨hs, _, hlease⟩, _⟩ := heartbeatCommand_eq_ok ht
    exact h (.inr (.inr hs)) (htoken ▸ hlease)
  complete context request hcommand htoken := error_of_not_ok fun plan hplan => by
    obtain ⟨⟨hs, _, hlease⟩, _⟩ := prepareCompletion_eq_ok.mp hplan
    rw [hcommand] at hs hlease
    exact h (.inr (.inr hs)) (htoken ▸ hlease)
  page context request hcommand htoken := error_of_not_ok fun _ hvalid => by
    have hadmitted := validateNewPageCommit_eq_ok.mp hvalid
    have hs := hadmitted.commandRunning
    have hlease := hadmitted.lease
    rw [hcommand] at hs hlease
    exact h (.inr (.inr hs)) (htoken ▸ hlease)

/-- Only a reservation hands out a lease. -/
theorem retired_change {s t : CommandState} {op : Operation} {token : String}
    (h : Change s op t) (hs : Retired s token)
    (hreserve : ∀ r, op = .reserve r → hashToken r.leaseToken ≠ hashToken token) :
    Retired t token := by
  cases h with
  | keep => exact hs
  | reserve r now h =>
    obtain ⟨_, _, _, _, rfl⟩ := reserveDispatch_eq_ok.mp h
    exact fun _ hlease => hreserve r rfl (Option.some.inj hlease)
  | confirm c now h => exact fun _ => hs (.inl h)
  | claim c now h => exact fun _ => hs (h.imp_right .inl)
  | heartbeat c now h => exact fun _ => hs (.inr (.inr h))
  | finish _ status completedAt h => exact fun _ => hs (.inr (.inr h))
  | retry => exact fun _ => nofun
  | abandon => rintro (h | h | h) <;> cases h
  | release => exact fun _ => nofun

theorem retired_run {s : CommandState} {token : String} {calls : List Call}
    (hs : Retired s token)
    (hcalls : ∀ other ∈ calls.filterMap leaseToken?, hashToken other ≠ hashToken token) :
    Retired (run (step nfc) s calls) token := by
  refine run_invariant_of (I := fun s => Retired s token) (C := fun _ call => call ∈ calls) ?_ hs
    (meets_of_forall _ _ fun _ _ hcall => hcall)
  intro s call t hs hcall hstep
  refine retired_change (step_change hstep) hs fun r hr => hcalls _ ?_
  exact List.mem_filterMap.mpr ⟨call, hcall, by rw [leaseToken?, hr]⟩

def Supersedes (s : CommandState) (op : Operation) (t : CommandState) : Prop :=
  (op.IsRecovery ∧ t ≠ s) ∨ ∃ r, op = .reserve r

theorem retired_of_supersedes {s t : CommandState} {call : Call} {token : String}
    (h : step nfc s call = .ok t) (hsupersedes : Supersedes s call.operation t)
    (htoken : ∀ other ∈ leaseToken? call, hashToken other ≠ hashToken token) :
    Retired t token := by
  have hchange := step_change h
  rcases hsupersedes with ⟨hrecovery, hne⟩ | ⟨r, hr⟩
  · generalize call.operation = op at hchange hrecovery
    cases hchange with
    | keep => exact absurd rfl hne
    | finish _ status completedAt hs hfinal =>
      rcases hfinal with rfl | rfl | rfl | rfl <;> rintro (h | h | h) <;> cases h
    | retry => exact fun _ => nofun
    | abandon => rintro (h | h | h) <;> cases h
    | release => exact fun _ => nofun
    | _ => cases hrecovery
  · have hlease : ∃ availableAt, reserveDispatch s r availableAt = .ok t :=
      ⟨call.now, by simpa only [step, hr] using h⟩
    obtain ⟨_, hreserve⟩ := hlease
    obtain ⟨_, _, _, _, rfl⟩ := reserveDispatch_eq_ok.mp hreserve
    exact fun _ hsame => htoken r.leaseToken (by simp [leaseToken?, hr]) (Option.some.inj hsame)

theorem superseded_refused {command t : CommandState} {r : DispatchReservation} {now : Instant}
    {key : Bytes} {pre mid post : List Call} {call : Call}
    (hfresh : FreshSecrets (pre ++ ⟨.reserve r, now, key⟩ :: mid ++ call :: post))
    (hstep : step nfc (run (step nfc) command (pre ++ ⟨.reserve r, now, key⟩ :: mid)) call = .ok t)
    (hsupersedes : Supersedes (run (step nfc) command (pre ++ ⟨.reserve r, now, key⟩ :: mid))
      call.operation t) :
    Refused nfc (run (step nfc) command (pre ++ ⟨.reserve r, now, key⟩ :: mid ++ call :: post))
      r.leaseToken := by
  have hdistinct := hfresh.distinct
  have hcollision := hfresh.collisionFree
  simp only [List.filterMap_append, List.filterMap_cons_some (f := leaseToken?)
    (a := ⟨.reserve r, now, key⟩) (b := r.leaseToken) rfl] at hdistinct hcollision
  have hlater : ∀ other ∈ (call :: post).filterMap leaseToken?,
      hashToken other ≠ hashToken r.leaseToken := by
    intro other hother hsame
    have heq := hcollision other (by simp [hother]) r.leaseToken (by simp) hsame
    exact (List.nodup_append.mp hdistinct).2.2 r.leaseToken (by simp) other hother heq.symm
  rw [run_append, run_cons, attempt_of_ok hstep]
  refine refused_of_retired (retired_run (retired_of_supersedes hstep hsupersedes ?_) ?_)
  · intro other hother
    exact hlater other (List.mem_filterMap.mpr ⟨call, by simp, hother⟩)
  · intro other hother
    obtain ⟨c, hc, hctoken⟩ := List.mem_filterMap.mp hother
    exact hlater other (List.mem_filterMap.mpr ⟨c, by simp [hc], hctoken⟩)

/-- What holds of a command after any run of operations from its creation. -/
structure LifecycleFacts (nfc : Text → Text) (command : CommandState) (calls : List Call)
    (s : CommandState) : Prop where
  attempt : 1 ≤ s.attempt ∧ s.attempt ≤ maxCommandAttempts
  nextAttempt : ∀ call t, step nfc s call = .ok t → s.attempt ≤ t.attempt ∧
    (t.attempt ≠ s.attempt → t.attempt = s.attempt + 1 ∧ s.status = .failedRetryable ∧
      ∃ r, call.operation = .reserve r)
  running : s.status = .running → s.claimedAt.isSome ∧ s.heartbeatAt.isSome ∧
    s.reservationNonceHash.isSome ∧ s.leaseHash.isSome
  superseded : ∀ pre r now key mid call post t,
    calls = pre ++ ⟨.reserve r, now, key⟩ :: mid ++ call :: post →
    step nfc (run (step nfc) command (pre ++ ⟨.reserve r, now, key⟩ :: mid)) call = .ok t →
    Supersedes (run (step nfc) command (pre ++ ⟨.reserve r, now, key⟩ :: mid))
      call.operation t → Refused nfc s r.leaseToken
  final : Final s.status → ∀ later, run (step nfc) s later = s

/-- The lifecycle of a command over any interleaving of its operations. -/
theorem lifecycleFacts_run {command : CommandState} (h : Issued command) {calls : List Call}
    (hfresh : FreshSecrets calls) :
    LifecycleFacts nfc command calls (run (step nfc) command calls) := by
  have hs := @lifecycle_run nfc _ h calls
  refine ⟨hs.attempt, ?_, ?_, ?_, fun hfinal later => final_run hfinal later⟩
  · intro call t hstep
    rcases attempt_change (step_change hstep) with hsame | ⟨hnext, hretry, hreserve⟩
    · exact ⟨hsame.ge, fun hne => absurd hsame hne⟩
    · exact ⟨by omega, fun _ => ⟨hnext, hretry, hreserve⟩⟩
  · intro hrunning
    have hclaimed := hs.claimed hrunning
    have hsecrets := hs.secrets (.inr (.inr (.inl hrunning)))
    exact ⟨hclaimed.1, hclaimed.2, hsecrets⟩
  · rintro pre r now key mid call post t rfl hstep hsupersedes
    exact superseded_refused hfresh hstep hsupersedes

end Credentials

section Sample

def sampleIssued : CommandState :=
  { PageStreams.sampleCommand with
    status := .queued
    claimedAt := none
    heartbeatAt := none
    leaseHash := none }

theorem sampleIssued_issued : Issued sampleIssued := ⟨rfl, rfl, rfl, rfl⟩

def attemptToken : ℕ → String
  | 1 => PageStreams.sampleToken
  | 2 => "lease-token-of-the-second-attempt"
  | _ => "lease-token-of-the-third-attempt"

theorem attemptToken_valid (attempt : ℕ) : ValidLeaseToken (attemptToken attempt) := by
  unfold attemptToken
  split <;> decide +kernel

def attemptReservation (attempt : ℕ) : DispatchReservation where
  reservationNonce := "nonce"
  leaseToken := attemptToken attempt

def attemptStart (attempt : ℕ) : RunStart :=
  { PageStreams.sampleStart with runId := BitVec.ofNat 128 attempt, attempt := attempt }

/-- The run that a claim of `attempt` starts for the sample source. -/
def attemptRun (attempt : ℕ) : RunState :=
  let genesis := sha256 (encode "page-chain-genesis/v1\n" ++
    canonicalBytes id (genesisIdentity (attemptStart attempt) PageStreams.sampleCheckpoint))
  { PageStreams.sampleRun with
    id := BitVec.ofNat 128 attempt
    attempt := attempt
    genesisChainHash := genesis
    committedPageHashChain := genesis }

def attemptStream (attempt : ℕ) : PageStreams.PageStream :=
  PageStreams.startedStream (attemptRun attempt) (PageStreams.samplePolicy 1)
    PageStreams.sampleCheckpoint

/-- The report of a run that failed with a network error before its first page. -/
def networkFailure : FailureDetail := ⟨.retryable, "network", 0, Datetime.utc 0, none⟩

def attemptRequest (attempt : ℕ) (h : 1 ≤ attempt ∧ attempt ≤ maxCommandAttempts) :
    CompletionRequest where
  completionIdempotencyKey := 500 + BitVec.ofNat 128 attempt
  attempt := attempt
  leaseToken := attemptToken attempt
  sourceOutcomes := [outcomeOf (attemptStream attempt).run .failedRetryable (some networkFailure)]
  validAttempt := h
  validLeaseToken := attemptToken_valid attempt
  nonempty := by simp

/-- Reserve, claim and report a network failure, one attempt in 1000 seconds. -/
def failedAttempt (attempt : ℕ) (h : 1 ≤ attempt ∧ attempt ≤ maxCommandAttempts) : List Call :=
  let start : Instant := seconds (1000 * attempt)
  [⟨.reserve (attemptReservation attempt), start, []⟩,
   ⟨.claim ⟨attempt, attemptToken attempt, "nonce"⟩, start, []⟩,
   ⟨.complete (attemptRequest attempt h) [factsOf (attemptStream attempt)], start, []⟩]

theorem failedReport_planned {s : CommandState} {attempt : ℕ} {now : Instant}
    {request : CompletionRequest} {status : RunStatus} {failure : FailureDetail}
    {observedAt : Instant}
    (houtcomes : request.sourceOutcomes =
      [outcomeOf (attemptStream attempt).run status (some failure)])
    (hvalid : failureValid (outcomeOf (attemptStream attempt).run status (some failure)) = .ok true)
    (htimes : failure.observedAt = Datetime.utc observedAt ∧ failure.retryAfterAt = none)
    (hid : s.id = 2) (hs : s.status = .running)
    (hattempt : s.attempt = attempt ∧ request.attempt = attempt)
    (hlease : tokenMatches request.leaseToken s.leaseHash) :
    ∃ plan, prepareCompletion id ⟨s, [factsOf (attemptStream attempt)], now⟩ request = .ok plan ∧
      plan.commandStatus = aggregateOf [status] ∧ plan.completedAt = now ∧
      plan.publications = [] ∧ ∀ run ∈ plan.runs, RunStatus.Finished run.status := by
  have hrun := @prepareRun_failed id s (factsOf (attemptStream attempt)) now status failure
    observedAt none (@PageStreams.streamInvariant_started id (attemptStart attempt) _ _ _ rfl)
    ⟨hid.symm, hattempt.1.symm, rfl⟩ rfl hvalid (by rw [htimes.1]; rfl) (by rw [htimes.2]; rfl)
  let finalized := finalizedRun (attemptStream attempt).run
    (outcomeOf (attemptStream attempt).run status (some failure)) (some observedAt) none now
  have hfinished : RunStatus.Finished status := by
    cases status <;> first | cases hvalid | decide
  let plan : CompletionPlan := ⟨completionRequestHash id request, aggregateOf [status],
    [finalized], [], now⟩
  refine ⟨plan, prepareCompletion_eq_ok.mpr ⟨⟨hs, hattempt.1.trans hattempt.2.symm, hlease⟩,
    [(finalized, none)], ?_⟩, rfl, rfl, rfl, ?_⟩
  · exact {
      running := hs
      sameSet := by simp [SameRunSet, factsOf, houtcomes, outcomeOf]
      finalized := .cons ⟨_, by simp [houtcomes, outcomeOf, factsOf], hrun⟩ .nil
      runs := rfl
      publications := rfl
      status := aggregateCommandStatus_eq_ok.mpr ⟨by simp [plan],
        fun other hother => List.mem_singleton.mp hother ▸ hfinished, rfl⟩
      stamp := ⟨rfl, rfl⟩ }
  · intro run hrun
    rw [List.mem_singleton.mp hrun]
    exact hfinished

theorem attemptRequest_planned {s : CommandState} {attempt : ℕ} {now : Instant}
    (h : 1 ≤ attempt ∧ attempt ≤ maxCommandAttempts) (hid : s.id = 2)
    (hs : s.status = .running) (hattempt : s.attempt = attempt)
    (hlease : s.leaseHash = some (hashToken (attemptToken attempt))) :
    ∃ plan, prepareCompletion id ⟨s, [factsOf (attemptStream attempt)], now⟩
        (attemptRequest attempt h) = .ok plan ∧
      plan.commandStatus = .failedRetryable ∧ plan.completedAt = now := by
  obtain ⟨plan, hplan, hstatus, hcompleted, _⟩ := @failedReport_planned s attempt now
    (attemptRequest attempt h) _ _ _ rfl rfl ⟨rfl, rfl⟩ hid hs ⟨hattempt, rfl⟩ hlease
  exact ⟨plan, hplan, hstatus, hcompleted⟩

theorem completedCommand_retry {s : CommandState} {plan : CompletionPlan} {key : Bytes}
    (hstatus : plan.commandStatus = .failedRetryable) (hattempt : 1 ≤ s.attempt) :
    ∃ t, completedCommand s plan key = .ok t ∧ t.id = s.id ∧ t.status = .failedRetryable ∧
      t.attempt = s.attempt ∧ (t.reservationNonceHash = none ∧ t.leaseHash = none) ∧
      (t.availableAt ≤ plan.completedAt + seconds 150 ∨ t.availableAt = s.availableAt) := by
  have havailable : ∃ availableAt, retryAvailableAt
      { s with
        status := plan.commandStatus
        completedAt := some plan.completedAt
        outcomeCode := some plan.commandStatus.value } plan.completedAt key = .ok availableAt ∧
      (availableAt ≤ plan.completedAt + seconds 150 ∨ availableAt = s.availableAt) := by
    unfold retryAvailableAt
    split
    · rename_i hlt
      obtain ⟨delay, hdelay⟩ := @retryDelaySeconds_ok key s.id _
        (Nat.succ_le_succ hattempt) hlt
      refine ⟨plan.completedAt + seconds delay, by rw [hdelay, ok_bind]; rfl, .inl ?_⟩
      exact Int.add_le_add_left (seconds_mono (retryDelaySeconds_le hdelay)) _
    · exact ⟨_, rfl, .inr rfl⟩
  obtain ⟨availableAt, hok, hbound⟩ := havailable
  refine ⟨{ clearReservation s with
    status := .failedRetryable
    availableAt := availableAt
    completedAt := some plan.completedAt
    outcomeCode := some CommandStatus.failedRetryable.value }, ?_, rfl, rfl, rfl, ⟨rfl, rfl⟩, hbound⟩
  simp only [hstatus] at hok
  simp only [completedCommand, withRetryAvailability, hstatus, hok, ok_bind]
  rfl

/-- A failed attempt leaves a command that waits for less than 1000 seconds. -/
theorem failedAttempt_run {s : CommandState} {attempt : ℕ}
    (h : 1 ≤ attempt ∧ attempt ≤ maxCommandAttempts) (hid : s.id = 2)
    (hopen : (s.status = .queued ∧ s.attempt = attempt) ∨
      (s.status = .failedRetryable ∧ s.attempt + 1 = attempt))
    (hfree : s.reservationNonceHash = none ∧ s.leaseHash = none)
    (havailable : s.availableAt ≤ seconds (1000 * attempt)) :
    ∃ t, run (step id) s (failedAttempt attempt h) = t ∧ t.id = 2 ∧
      t.status = .failedRetryable ∧ t.attempt = attempt ∧
      (t.reservationNonceHash = none ∧ t.leaseHash = none) ∧
      t.availableAt ≤ seconds (1000 * (attempt + 1)) := by
  have hnext : s.attempt + (if s.status = .failedRetryable then 1 else 0) = attempt := by
    rcases hopen with ⟨hs, ha⟩ | ⟨hs, ha⟩ <;> simp [hs, ha]
  obtain ⟨reserved, hreserved⟩ : ∃ reserved, reserveDispatch s (attemptReservation attempt)
      (seconds (1000 * attempt)) = .ok reserved :=
    ⟨_, reserveDispatch_eq_ok.mpr ⟨havailable, hfree, hopen.imp And.left And.left,
      by rw [hnext]; exact h.2, rfl⟩⟩
  obtain ⟨hreservedStatus, hreservedAttempt, hnonce, hlease, hreservedId, hreservedAvailable⟩ :
      reserved.status = .dispatchReserved ∧ reserved.attempt = attempt ∧
        reserved.reservationNonceHash = some (hashToken "nonce") ∧
        reserved.leaseHash = some (hashToken (attemptToken attempt)) ∧ reserved.id = 2 ∧
        reserved.availableAt = s.availableAt := by
    obtain ⟨_, _, _, _, rfl⟩ := reserveDispatch_eq_ok.mp hreserved
    exact ⟨rfl, hnext, rfl, rfl, hid, rfl⟩
  have hclaim := @claimCommand_of_reserved reserved
    ⟨attempt, attemptToken attempt, "nonce"⟩ (seconds (1000 * attempt))
    (.inl hreservedStatus) ⟨hreservedAttempt, hlease, hnonce⟩
  obtain ⟨plan, hplan, hstatus, hcompleted⟩ := @attemptRequest_planned
    { reserved with
      status := .running
      claimedAt := some (seconds (1000 * attempt))
      heartbeatAt := some (seconds (1000 * attempt)) }
    attempt (seconds (1000 * attempt)) h hreservedId rfl hreservedAttempt hlease
  obtain ⟨t, ht, htId, htStatus, htAttempt, htFree, htAvailable⟩ := @completedCommand_retry
    { reserved with
      status := .running
      claimedAt := some (seconds (1000 * attempt))
      heartbeatAt := some (seconds (1000 * attempt)) }
    plan [] hstatus (by rw [hreservedAttempt]; exact h.1)
  refine ⟨t, ?_, htId.trans hreservedId, htStatus, htAttempt.trans hreservedAttempt, htFree, ?_⟩
  · have hcomplete : step id { reserved with
        status := .running
        claimedAt := some (seconds (1000 * attempt))
        heartbeatAt := some (seconds (1000 * attempt)) }
        ⟨.complete (attemptRequest attempt h) [factsOf (attemptStream attempt)],
          seconds (1000 * attempt), []⟩ = .ok t := by
      simp only [step, hplan, ok_bind, ht]
    have hfirst : step id s ⟨.reserve (attemptReservation attempt), seconds (1000 * attempt), []⟩ =
      .ok reserved := hreserved
    have hsecond : step id reserved ⟨.claim ⟨attempt, attemptToken attempt, "nonce"⟩,
      seconds (1000 * attempt), []⟩ = .ok _ := hclaim
    rw [failedAttempt, run_cons, attempt_of_ok hfirst, run_cons, attempt_of_ok hsecond, run_cons,
      attempt_of_ok hcomplete, run_nil]
  · have hlater (delay : ℤ) (hdelay : delay ≤ 1000) :
        seconds (1000 * attempt) + seconds delay ≤ seconds (1000 * (attempt + 1)) := by
      rw [← seconds_add]
      exact seconds_mono (by omega)
    rcases htAvailable with hdelayed | hkept
    · rw [hcompleted] at hdelayed
      exact hdelayed.trans (hlater 150 (by decide))
    · rw [hkept]
      exact (hreservedAvailable.le.trans havailable).trans (seconds_mono (by omega))

def threeFailures : List Call :=
  failedAttempt 1 (by decide) ++ failedAttempt 2 (by decide) ++ failedAttempt 3 (by decide)

/-- After three reported network failures the command is due and cannot be reserved. -/
theorem due_not_reservable :
    Due (run (step id) sampleIssued threeFailures) (seconds 4000) ∧
      reserveDispatch (run (step id) sampleIssued threeFailures) (attemptReservation 3)
        (seconds 4000) = .error (fail .retriesExhausted 409) := by
  obtain ⟨s, hs, hsId, hsStatus, hsAttempt, hsFree, hsAvailable⟩ := @failedAttempt_run
    sampleIssued 1 (by decide) rfl (.inl ⟨rfl, rfl⟩) ⟨rfl, rfl⟩ (by decide)
  obtain ⟨t, ht, htId, htStatus, htAttempt, htFree, htAvailable⟩ := @failedAttempt_run
    s 2 (by decide) hsId (.inr ⟨hsStatus, by rw [hsAttempt]⟩) hsFree hsAvailable
  obtain ⟨u, hu, _, huStatus, huAttempt, huFree, huAvailable⟩ := @failedAttempt_run
    t 3 (by decide) htId (.inr ⟨htStatus, by rw [htAttempt]⟩) htFree htAvailable
  have hrun : run (step id) sampleIssued threeFailures = u := by
    rw [threeFailures, run_append, run_append, hs, ht, hu]
  have hdue : Due u (seconds 4000) := ⟨.inr huStatus, huAvailable⟩
  rw [hrun]
  exact ⟨hdue, exhausted_refused ⟨huStatus, huAttempt, huFree⟩ _ hdue⟩

/-- One reported failure on the first attempt leaves a reservable command. -/
theorem due_reservable_sample :
    ReservableWhenDue (run (step id) sampleIssued (failedAttempt 1 (by decide))) := by
  refine (due_reservable sampleIssued_issued _).1 ⟨trivial, trivial, ?_, trivial⟩
  intro hlast
  exact absurd hlast (by decide +kernel)

/-- The collector of a failed first attempt is refused after the second reservation. -/
theorem lifecycleFacts_run_sample :
    Refused id (run (step id) sampleIssued (failedAttempt 1 (by decide) ++
      [⟨.reserve (attemptReservation 2), seconds 2000, []⟩])) PageStreams.sampleToken := by
  obtain ⟨s, hs, _, hsStatus, hsAttempt, hsFree, hsAvailable⟩ := @failedAttempt_run
    sampleIssued 1 (by decide) rfl (.inl ⟨rfl, rfl⟩) ⟨rfl, rfl⟩ (by decide)
  have hfresh : FreshSecrets (failedAttempt 1 (by decide) ++
      [⟨.reserve (attemptReservation 2), seconds 2000, []⟩]) := by
    constructor
    · decide +kernel
    · decide +kernel
  have hstep : step id s ⟨.reserve (attemptReservation 2), seconds 2000, []⟩ = .ok _ :=
    reserveDispatch_eq_ok.mpr ⟨hsAvailable, hsFree, .inr hsStatus, by
      rw [if_pos hsStatus, hsAttempt]; decide, rfl⟩
  exact (lifecycleFacts_run sampleIssued_issued hfresh).superseded [] (attemptReservation 1) _ _ _ _ []
    _ rfl (hs ▸ hstep) (.inr ⟨_, rfl⟩)

end Sample

end PredictionMarketMonitor.CommandLifecycle
