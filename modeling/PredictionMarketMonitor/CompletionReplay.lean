import PredictionMarketMonitor.ControlPlane

set_option autoImplicit false

/-!
# Replayed completions

A completion whose answer was lost is sent again. The receipt is kept for ever,
but it is looked up only under the lease of the attempt, and a completion that
leaves its command retryable gives that lease away.
-/
namespace PredictionMarketMonitor.CompletionReplay

open CanonicalJson CivilTime CollectionBase CollectionModels CommandLifecycle CommandStore
open Completion CompletionStore ControlPlane ControlPlaneTables Dispatch FallibleSteps KeyedTable
open PageStore Sha256

section Receipts
variable {svc : Service}

def ReceiptsKept (db next : Database) : Prop :=
  ∀ key receipt, db.completions.find? key = some receipt →
    next.completions.find? key = some receipt

theorem receiptsKept_of_completions {db next : Database}
    (h : next.completions = db.completions) : ReceiptsKept db next := by
  intro key receipt hreceipt
  rw [h]
  exact hreceipt

theorem receiptsKept_reconcileRows {now : Instant} {clock : ℕ → Instant} {k : ℕ}
    {db next : Database} {commandIds : List UUID}
    (h : reconcileRows svc now clock k db commandIds = .ok next) :
    next.completions = db.completions := by
  induction commandIds generalizing k db with
  | nil => exact (congrArg Database.completions (Except.ok.inj h)).symm
  | cons commandId rest ih =>
    obtain ⟨mid, hmid, hrest⟩ := bind_eq_ok.mp h
    refine (ih hrest).trans ?_
    obtain ⟨_, _, rfl | ⟨_, _, _, _, _, _, _, rfl⟩⟩ := reconcileRow_frame hmid
    · rfl
    · rfl

theorem receiptsKept_complete {db : Database} {commandId : UUID} {request : CompletionRequest}
    {now : Instant} {completed : Database × CompletionOutcome}
    (h : executeCompletion svc db commandId request now = .ok completed) :
    ReceiptsKept db completed.1 := by
  obtain ⟨_, _, h⟩ := bind_eq_ok.mp h
  obtain ⟨_, h⟩ := require_bind.mp h
  split at h
  · obtain ⟨_, h⟩ := require_bind.mp h
    obtain ⟨_, _, h⟩ := bind_eq_ok.mp h
    obtain rfl := Except.ok.inj h
    exact receiptsKept_of_completions rfl
  · obtain ⟨_, _, _, _, _, _, _, completions, _, _, hinsert, hnext, _⟩ := finalizeCommand_frame h
    intro key receipt hreceipt
    rw [hnext]
    change completions.find? key = some receipt
    rw [Table.find?_insert hinsert]
    split
    · rename_i hkey
      have hfree := (Table.insert?_eq_some.mp hinsert).1
      rw [hkey, hreceipt] at hfree
      cases hfree
    · exact hreceipt

theorem receiptsKept_step {db next : Database} {tx : Transaction}
    (h : step svc db tx = .ok next) : ReceiptsKept db next := by
  obtain ⟨operation, clock, ids⟩ := tx
  cases operation with
  | materialize row =>
    obtain ⟨_, h⟩ := require_bind.mp h
    obtain ⟨_, _, h⟩ := bind_eq_ok.mp h
    obtain rfl := Except.ok.inj h
    exact receiptsKept_of_completions rfl
  | govern change =>
    cases change with
    | setSource row =>
      obtain rfl := Except.ok.inj h
      exact receiptsKept_of_completions rfl
    | addAuthorization row =>
      obtain ⟨_, _, h⟩ := bind_eq_ok.mp h
      obtain rfl := Except.ok.inj h
      exact receiptsKept_of_completions rfl
    | addBudgetRecord row =>
      obtain ⟨_, _, h⟩ := bind_eq_ok.mp h
      obtain rfl := Except.ok.inj h
      exact receiptsKept_of_completions rfl
  | reserve commandId reservation =>
    obtain ⟨_, _, h⟩ := bind_eq_ok.mp h
    obtain ⟨_, _, h⟩ := bind_eq_ok.mp h
    obtain rfl := Except.ok.inj h
    exact receiptsKept_of_completions rfl
  | confirm commandId confirmation =>
    obtain ⟨_, _, h⟩ := bind_eq_ok.mp h
    obtain ⟨_, _, h⟩ := bind_eq_ok.mp h
    obtain rfl := Except.ok.inj h
    exact receiptsKept_of_completions rfl
  | claim commandId credentials sourceIds =>
    obtain ⟨claimed, hclaimed, h⟩ := bind_eq_ok.mp h
    obtain rfl := Except.ok.inj h
    obtain ⟨_, _, _, _, _, _, _, hnext⟩ := claim_frame hclaimed
    exact receiptsKept_of_completions (by rw [hnext]; rfl)
  | heartbeat commandId credentials =>
    obtain ⟨_, _, h⟩ := bind_eq_ok.mp h
    obtain ⟨_, _, h⟩ := bind_eq_ok.mp h
    obtain ⟨_, h⟩ := require_bind.mp h
    obtain rfl := Except.ok.inj h
    exact receiptsKept_of_completions rfl
  | commitPage runId request =>
    obtain ⟨committed, hcommitted, h⟩ := bind_eq_ok.mp h
    obtain rfl := Except.ok.inj h
    obtain ⟨_, _, _, _, _, hnext⟩ := executePageCommit_frame hcommitted
    exact receiptsKept_of_completions (by rw [hnext])
  | attachSkip operation =>
    obtain ⟨attached, hattached, h⟩ := bind_eq_ok.mp h
    obtain rfl := Except.ok.inj h
    obtain ⟨_, _, _, _, _, hnext⟩ := attachSkipDecision_frame hattached
    exact receiptsKept_of_completions (by rw [hnext])
  | complete commandId request =>
    obtain ⟨completed, hcompleted, h⟩ := bind_eq_ok.mp h
    obtain rfl := Except.ok.inj h
    exact receiptsKept_complete hcompleted
  | recoverDue scopeVersion =>
    obtain ⟨recovered, hrecovered, h⟩ := bind_eq_ok.mp h
    obtain rfl := Except.ok.inj h
    obtain ⟨reconciled, hreconciled, hrecovered⟩ := bind_eq_ok.mp hrecovered
    obtain rfl := Except.ok.inj hrecovered
    exact receiptsKept_of_completions (receiptsKept_reconcileRows hreconciled)

theorem receiptsKept_run (db : Database) (txs : List Transaction) :
    ReceiptsKept db (run (step svc) db txs) :=
  run_relation (I := fun _ => True) (R := ReceiptsKept) (fun _ _ _ h => h)
    (fun _ _ _ h k key receipt hreceipt => k key receipt (h key receipt hreceipt))
    (fun _ _ _ _ _ => trivial) (fun _ _ _ _ h => receiptsKept_step h) txs trivial

end Receipts

section Lease
variable {nfc : Text → Text}

theorem complete_lease {s t : CommandState} {request : CompletionRequest}
    {runs : List RunCompletionFacts} {now : Instant} {key : Bytes}
    (h : CommandLifecycle.step nfc s ⟨.complete request runs, now, key⟩ = .ok t) :
    (¬AsksRetry request → Final t.status ∧ t.attempt = request.attempt ∧
      tokenMatches request.leaseToken t.leaseHash) ∧
    (AsksRetry request → t.status = .failedRetryable ∧ t.leaseHash = none) := by
  obtain ⟨plan, hplan, h⟩ := bind_eq_ok.mp h
  obtain ⟨⟨_, hattempt, htoken⟩, results, hplanned⟩ := prepareCompletion_eq_ok.mp hplan
  have hstatus := planned_commandStatus hplanned
  constructor
  · intro hasks
    have hne : plan.commandStatus ≠ .failedRetryable := by
      intro hretry
      exact hasks (aggregateOf_eq_failedRetryable (hstatus.symm.trans hretry))
    have hfinal := (final_of_aggregate hplanned.status).resolve_right hne
    obtain rfl : { s with
        status := plan.commandStatus
        completedAt := some plan.completedAt
        outcomeCode := some plan.commandStatus.value } = t := by
      unfold completedCommand withRetryAvailability at h
      rcases hfinal with hf | hf | hf | hf <;> rw [hf] at h ⊢ <;> exact Except.ok.inj h
    exact ⟨hfinal, hattempt, htoken⟩
  · intro hasks
    rw [aggregateOf_asksRetry hasks] at hstatus
    simp only [completedCommand, withRetryAvailability, hstatus] at h
    obtain ⟨availableAt, _, h⟩ := bind_eq_ok.mp h
    obtain rfl := Except.ok.inj h
    exact ⟨rfl, rfl⟩

/-- Without a reservation nothing happens to a retryable command. -/
theorem retryable_run {s : CommandState} (hs : s.status = .failedRetryable) (calls : List Call)
    (hcalls : calls.filterMap leaseToken? = []) : run (CommandLifecycle.step nfc) s calls = s := by
  refine run_invariant_of (I := (· = s)) (C := fun _ call => leaseToken? call = none) ?_ rfl
    (meets_of_forall s calls fun _ call hcall => List.filterMap_eq_nil_iff.mp hcalls call hcall)
  rintro _ call t rfl hnone hstep
  have hchange := step_change hstep
  rcases change_origin hchange with rfl | ⟨r, now, hreserve⟩ | hactive
  · rfl
  · rcases attempt_change hchange with hsame | ⟨_, _, other, hop⟩
    · obtain ⟨_, _, _, _, rfl⟩ := reserveDispatch_eq_ok.mp hreserve
      exact absurd hsame (by simp [hs])
    · simp [leaseToken?, hop] at hnone
  · simp [Reconcilable, hs] at hactive

end Lease

section Replay
variable {svc : Service}

theorem executeCompletion_receipt {db : Database} {commandId : UUID} {request : CompletionRequest}
    {now : Instant} {row : CommandRow} {receipt : CommandCompletionRow}
    {response : CompletionResponse} (hrow : db.commands.find? commandId = some row)
    (hlease : row.state.attempt = request.attempt ∧
      tokenMatches request.leaseToken row.state.leaseHash)
    (hreceipt : db.completions.find? (commandId, request.completionIdempotencyKey) = some receipt)
    (hhash : receipt.requestHash = completionRequestHash svc.nfc request)
    (hparse : svc.parseCompletionResponse receipt.responsePayload = some response) :
    executeCompletion svc db commandId request now =
      .ok (db, ⟨200, response, receipt.responsePayload⟩) := by
  rw [executeCompletion, lockedCommand_eq_ok.mpr hrow, ok_bind, require_of hlease, ok_bind]
  simp only [hreceipt, replayCompletion]
  rw [require_of hhash, ok_bind, present_eq_ok.mpr hparse]
  rfl

theorem executeCompletion_unleased {db : Database} {commandId : UUID} {request : CompletionRequest}
    {now : Instant} {row : CommandRow} (hrow : db.commands.find? commandId = some row)
    (hlease : row.state.leaseHash = none) :
    executeCompletion svc db commandId request now = .error (fail .leaseOrAttemptMismatch 409) := by
  rw [executeCompletion, lockedCommand_eq_ok.mpr hrow, ok_bind, require_of_not]
  · rfl
  · rintro ⟨_, htoken⟩
    rw [hlease] at htoken
    cases htoken

theorem executeCompletion_new {db : Database} {commandId : UUID} {request : CompletionRequest}
    {now : Instant} {completed : Database × CompletionOutcome}
    (hnew : db.completions.find? (commandId, request.completionIdempotencyKey) = none)
    (h : executeCompletion svc db commandId request now = .ok completed) :
    ∃ row s facts, CommandLifecycle.step svc.nfc s
        ⟨.complete request facts, now, svc.retryJitterKey⟩ = .ok row.state ∧
      completed.1.commands.find? commandId = some row ∧
      completed.1.completions.find? (commandId, request.completionIdempotencyKey) = some {
        commandId := commandId, attempt := request.attempt
        completionIdempotencyKey := request.completionIdempotencyKey
        requestHash := completionRequestHash svc.nfc request
        responsePayload := completed.2.responseBytes } ∧ completed.2.statusCode = 200 := by
  obtain ⟨_, _, h⟩ := bind_eq_ok.mp h
  obtain ⟨_, h⟩ := require_bind.mp h
  simp only [hnew] at h
  obtain ⟨row, facts, command, _, _, _, _, completions, hrow, hstep, hinsert, hnext, hstatus⟩ :=
    finalizeCommand_frame h
  have hid := change_identity (step_change hstep)
  have hkey : command.id = commandId := hid.1.trans (Table.find?_eq_some.mp hrow).2
  refine ⟨{ row with state := command }, row.state, facts, hstep, ?_, ?_, hstatus⟩
  · rw [hnext]
    exact (find_setCommand (by rw [hkey]; exact hrow) hid commandId).trans (if_pos hkey.symm)
  · rw [hnext]
    exact (Table.find?_insert hinsert _).trans (if_pos rfl)

/-- An accepted completion is answered again from its receipt, in every later
    state without another reservation, exactly when it did not ask for a retry. -/
theorem completion_replay_iff {db next : Database} {commandId : UUID}
    {request : CompletionRequest} {now : Instant} {outcome : CompletionOutcome}
    (hnew : db.completions.find? (commandId, request.completionIdempotencyKey) = none)
    (hcompleted : executeCompletion svc db commandId request now = .ok (next, outcome))
    (hparse : svc.parseCompletionResponse outcome.responseBytes = some outcome.response) :
    ((∀ txs, (∀ tx ∈ txs, ¬tx.operation.Reserves commandId) → ∀ later,
        executeCompletion svc (run (step svc) next txs) commandId request later =
          .ok (run (step svc) next txs, outcome)) ↔ ¬AsksRetry request) ∧
    (AsksRetry request → ∀ txs, (∀ tx ∈ txs, ¬tx.operation.Reserves commandId) → ∀ later,
      executeCompletion svc (run (step svc) next txs) commandId request later =
        .error (fail .leaseOrAttemptMismatch 409)) := by
  obtain ⟨row, s, facts, hstep, hrow, hreceipt, hstatus⟩ := executeCompletion_new hnew hcompleted
  obtain ⟨hkept, hgiven⟩ := complete_lease hstep
  obtain ⟨statusCode, response, responseBytes⟩ := outcome
  obtain rfl : statusCode = 200 := hstatus
  have hrefused (hasks : AsksRetry request) (txs : List Transaction)
      (hfree : ∀ tx ∈ txs, ¬tx.operation.Reserves commandId) (later : Instant) :
      executeCompletion svc (run (step svc) next txs) commandId request later =
        .error (fail .leaseOrAttemptMismatch 409) := by
    obtain ⟨calls, hfind, hcalls⟩ := @commandsEvolve_run svc (· ≠ commandId) next txs
      (fun tx htx id hid heq => hfree tx htx (heq ▸ hid)) commandId row hrow
    have hcalls := hcalls.resolve_right (fun hne => hne rfl)
    rw [retryable_run (hgiven hasks).1 calls hcalls] at hfind
    exact executeCompletion_unleased hfind (hgiven hasks).2
  refine ⟨⟨fun hanswer hasks => ?_, fun hasks txs _ later => ?_⟩, hrefused⟩
  · have hfirst := hanswer [] (by simp) now
    rw [hrefused hasks [] (by simp) now] at hfirst
    cases hfirst
  · obtain ⟨hfinal, hlease⟩ := hkept hasks
    obtain ⟨calls, hfind, _⟩ := @commandsEvolve_run svc (fun _ => True) next
      txs (fun _ _ _ _ => trivial) commandId row hrow
    rw [final_run hfinal calls] at hfind
    exact executeCompletion_receipt hfind hlease (receiptsKept_run next txs _ _ hreceipt) rfl hparse

end Replay

section Sample

def sampleReport (status : RunStatus) (failure : FailureDetail) : CompletionRequest where
  completionIdempotencyKey := 500
  attempt := 1
  leaseToken := PageStreams.sampleToken
  sourceOutcomes := [StaleRecovery.outcomeOf (attemptStream 1).run status (some failure)]
  validAttempt := firstAttempt_valid
  validLeaseToken := PageStreams.sampleToken_valid
  nonempty := by simp

def contractFailure : FailureDetail :=
  ⟨.terminal, "provider_contract_invalid", 0, Datetime.utc 0, none⟩

def sampleResponse (status : CommandStatus) : CompletionResponse := ⟨2, status, 2000, []⟩

theorem finalizeCommand_failed {svc : Service} {db : Database} {commandId : UUID}
    {request : CompletionRequest} {now : Instant} {context : CompletionContext}
    {plan : CompletionPlan} {command : CommandState}
    (hcontext : loadLockedCompletionContext db commandId request.attempt now false = .ok context)
    (hplan : prepareCompletion svc.nfc context request = .ok plan)
    (hpublications : plan.publications = [])
    (hfinished : ∀ run ∈ plan.runs, RunStatus.Finished run.status)
    (hcommand : completedCommand context.command plan svc.retryJitterKey = .ok command)
    (hfree : db.completions.find? (commandId, request.completionIdempotencyKey) = none) :
    ∃ next, finalizeCommand svc db commandId request now = .ok (next,
      ⟨200, ⟨commandId, plan.commandStatus, plan.completedAt, []⟩,
        completionResponseBytes svc ⟨commandId, plan.commandStatus, plan.completedAt, []⟩⟩) := by
  have hpersisted : persistCompletionPlan db context plan svc.retryJitterKey =
      .ok ((plan.runs.foldl (persistRun context.runs) db).setCommand command, []) := by
    simp only [persistCompletionPlan, hpublications, persistPublications, ok_bind,
      require_of hfinished, hcommand]
    rfl
  obtain ⟨runs, checkpoints, hruns⟩ := persistRuns_frame context.runs db plan.runs
  obtain ⟨completions, hinsert⟩ := Table.exists_insert (t := db.completions) (a := {
    commandId := commandId, attempt := request.attempt
    completionIdempotencyKey := request.completionIdempotencyKey
    requestHash := completionRequestHash svc.nfc request
    responsePayload := completionResponseBytes svc
      ⟨commandId, plan.commandStatus, plan.completedAt, []⟩ }) hfree
  refine ⟨{ (plan.runs.foldl (persistRun context.runs) db).setCommand command with
    completions := completions }, ?_⟩
  rw [hruns] at hpersisted ⊢
  simp only [finalizeCommand, hcontext, hplan, hpersisted, ok_bind, completionResponse]
  simp only [Database.setCommand, hinsert, present, ok_bind]
  rfl

theorem sampleReport_completed {status : RunStatus} {failure : FailureDetail}
    {commandStatus : CommandStatus} (hstatus : aggregateOf [status] = commandStatus)
    (htimes : failure.observedAt = Datetime.utc 0 ∧ failure.retryAfterAt = none)
    (hvalid : failureValid (StaleRecovery.outcomeOf (attemptStream 1).run status (some failure)) =
      .ok true)
    (hcommand : ∀ plan : CompletionPlan, plan.commandStatus = commandStatus →
      ∃ t, completedCommand PageStreams.sampleCommand plan [] = .ok t) :
    ∃ next, executeCompletion (sampleService (sampleResponse commandStatus)) sampleDatabase 2
      (sampleReport status failure) 2000 = .ok (next, ⟨200, sampleResponse commandStatus,
        completionResponseBytes (sampleService (sampleResponse commandStatus))
          (sampleResponse commandStatus)⟩) := by
  obtain ⟨plan, hplan, hplanStatus, hat, hnone, hfinished⟩ := @failedReport_planned
    PageStreams.sampleCommand 1 2000 (sampleReport status failure) _ _ _ rfl hvalid htimes
    rfl rfl ⟨rfl, rfl⟩ rfl
  rw [hstatus] at hplanStatus
  obtain ⟨t, ht⟩ := hcommand plan hplanStatus
  have hcontext : loadLockedCompletionContext sampleDatabase 2 (sampleReport status failure).attempt
      2000 false = .ok ⟨PageStreams.sampleCommand, [StaleRecovery.factsOf (attemptStream 1)], 2000⟩ :=
    rfl
  obtain ⟨next, hnext⟩ := @finalizeCommand_failed
    (sampleService (sampleResponse commandStatus)) _ 2 _ _ _ _ _ hcontext hplan hnone
    hfinished ht rfl
  rw [hplanStatus, hat] at hnext
  have hrow : sampleDatabase.lockedCommand 2 = .ok ⟨PageStreams.sampleCommand, 0, 0⟩ := rfl
  have hlease : PageStreams.sampleCommand.attempt = (sampleReport status failure).attempt ∧
      tokenMatches (sampleReport status failure).leaseToken PageStreams.sampleCommand.leaseHash :=
    ⟨rfl, rfl⟩
  refine ⟨next, ?_⟩
  rw [executeCompletion, hrow, ok_bind, require_of hlease, ok_bind]
  exact hnext

theorem sampleResponse_parsed (status : CommandStatus) :
    (sampleService (sampleResponse status)).parseCompletionResponse
      (completionResponseBytes (sampleService (sampleResponse status)) (sampleResponse status)) =
        some (sampleResponse status) := if_pos rfl

/-- A terminal failure is answered again, whatever happens in between. -/
theorem completion_replay_iff_sample : ∃ next outcome,
    executeCompletion (sampleService (sampleResponse .failedTerminal)) sampleDatabase 2
      (sampleReport .failedTerminal contractFailure) 2000 = .ok (next, outcome) ∧
    ∀ later, executeCompletion (sampleService (sampleResponse .failedTerminal)) next 2
      (sampleReport .failedTerminal contractFailure) later = .ok (next, outcome) := by
  obtain ⟨next, hcompleted⟩ := @sampleReport_completed .failedTerminal
    contractFailure .failedTerminal rfl ⟨rfl, rfl⟩ rfl
    fun plan hplan => ⟨_, by simp only [completedCommand, withRetryAvailability, hplan]; rfl⟩
  exact ⟨next, _, hcompleted, (completion_replay_iff rfl hcompleted
    (sampleResponse_parsed .failedTerminal)).1.mpr (by decide) [] (by simp)⟩

/-- A retryable failure is accepted once and refused when it is sent again. -/
theorem completion_replay_refused : ∃ next outcome,
    executeCompletion (sampleService (sampleResponse .failedRetryable)) sampleDatabase 2
      (sampleReport .failedRetryable networkFailure) 2000 = .ok (next, outcome) ∧
    outcome.statusCode = 200 ∧
    executeCompletion (sampleService (sampleResponse .failedRetryable)) next 2
      (sampleReport .failedRetryable networkFailure) 2000 =
        .error (fail .leaseOrAttemptMismatch 409) := by
  obtain ⟨next, hcompleted⟩ := @sampleReport_completed .failedRetryable
    networkFailure .failedRetryable rfl ⟨rfl, rfl⟩ rfl
    fun plan hplan => (completedCommand_retry hplan (Nat.le_refl 1)).imp fun _ h => h.1
  obtain ⟨row, _, _, hstep, hrow, _, hstatus⟩ := executeCompletion_new rfl hcompleted
  exact ⟨next, _, hcompleted, hstatus,
    executeCompletion_unleased hrow ((complete_lease hstep).2 (by decide)).2⟩

end Sample

end PredictionMarketMonitor.CompletionReplay
