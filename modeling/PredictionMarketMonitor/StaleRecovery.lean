import PredictionMarketMonitor.Completion
import PredictionMarketMonitor.Dispatch
import PredictionMarketMonitor.PageStreams

set_option autoImplicit false

/-!
# Stale recovery

`recovery.py`: the outcomes of an abandoned command are synthesised from its
locked runs and then validated by the rules that client completions pass.
-/
namespace PredictionMarketMonitor.StaleRecovery

open CanonicalJson CivilTime CollectionBase CollectionModels Completion Dispatch FallibleSteps
open PageItems PageStreams Sha256 ThreadedLog

section Planning
variable (nfc : Text → Text)

def requireRecoverableStatus (status : CommandStatus) : Result Unit :=
  require (status = .running ∨ status = .staleAbandoned) (fail .invalidTransition 409)

def releaseStale (context : CompletionContext) (retryJitterKey : Bytes) :
    Result (Option CommandState) := do
  let check : StaleCheck := ⟨context.dbNow, false, retryJitterKey⟩
  let released ← markStale context.command check
  match released.status with
  | .running => return none
  | .staleAbandoned => return some (← markStale released check)
  | .failedRetryable | .failedTerminal => return some released
  | .queued | .dispatchReserved | .dispatched | .succeeded | .partialSuccess | .skipped =>
    throw (fail .invalidTransition 409)

def releasedFacts : Option CommandState → Result (Option CommandStatus × Option Instant)
  | none => .ok (none, none)
  | some released =>
    match released.status with
    | .failedRetryable => .ok (some released.status, some released.availableAt)
    | .failedTerminal => .ok (some released.status, none)
    | .queued | .dispatchReserved | .dispatched | .running | .succeeded | .partialSuccess
    | .skipped | .staleAbandoned => .error (fail .invalidTransition 409)

def staleFingerprint (run : RunState) : Digest :=
  sha256 (encodeText (run.commandId.str ++ ':' :: decimal run.attempt ++ ":stale".toList))

/-- The status of a run that was not ready when its command was released. -/
def abandonedStatus : Option CommandStatus → Result (RunStatus × FailureClass)
  | some .failedRetryable => .ok (.failedRetryable, .retryable)
  | some .failedTerminal => .ok (.failedTerminal, .terminal)
  | _ => .error (fail .invalidTransition 409)

def outcomeOf (run : RunState) (terminalStatus : RunStatus) (failure : Option FailureDetail) :
    CompletionSourceOutcome where
  runId := run.id
  terminalStatus := terminalStatus
  lastPageCommitId := run.lastPageCommitId
  finalCursor := run.finalCursor
  finalPageOrdinal := run.finalPageOrdinal
  committedPageCount := run.committedPageCount
  committedPageHashChain := run.committedPageHashChain
  skipDecisionId := none
  failure := failure

def staleFailure (run : RunState) (failureClass : FailureClass) (observedAt : Instant)
    (retryAfterAt : Option Instant) : FailureDetail where
  failureClass := failureClass
  code := "stale_abandoned"
  fingerprint := staleFingerprint run
  observedAt := Datetime.utc observedAt
  retryAfterAt := retryAfterAt.map Datetime.utc

def recoveryOutcome (releasedStatus : Option CommandStatus) (observedAt : Instant)
    (retryAfterAt : Option Instant) (facts : RunCompletionFacts) :
    Result CompletionSourceOutcome :=
  if facts.run.completionReadyAt.isSome then .ok (outcomeOf facts.run .succeeded none)
  else do
    let (terminalStatus, failureClass) ← abandonedStatus releasedStatus
    return outcomeOf facts.run terminalStatus
      (some (staleFailure facts.run failureClass observedAt retryAfterAt))

def readyRuns (context : CompletionContext) : List Bool :=
  context.runs.map (fun facts => facts.run.completionReadyAt.isSome)

def releasedCommand (context : CompletionContext) (retryJitterKey : Bytes) :
    Result (Option CommandState) :=
  if (readyRuns context).all id then .ok none else releaseStale context retryJitterKey

def plannedRecovery (context : CompletionContext) (released : Option CommandState) :
    Result CompletionPlan := do
  let (releasedStatus, retryAfterAt) ← releasedFacts released
  let outcomes ← context.runs.mapM (recoveryOutcome releasedStatus context.dbNow retryAfterAt)
  let plan ← prepareServerCompletion nfc context outcomes
    (completionOutcomesHash nfc context.command.attempt outcomes)
  if releasedStatus = some .failedRetryable ∧ (readyRuns context).any id = true then
    return { plan with commandStatus := .failedRetryable }
  return plan

/-- Derive terminal outcomes from locked facts without inventing markers. -/
def prepareStaleRecovery (context : CompletionContext) (retryJitterKey : Bytes) :
    Result (Option CompletionPlan) := do
  requireRecoverableStatus context.command.status
  if context.runs = [] then return none
  let released ← releasedCommand context retryJitterKey
  if (readyRuns context).all id = false ∧ released = none then return none
  let plan ← plannedRecovery nfc context released
  return some plan

end Planning

section Release

def heartbeatAnchor (command : CommandState) : Option Instant :=
  command.heartbeatAt.or command.claimedAt

/-- The status a released command and its unfinished runs take at an attempt. -/
def releasedStatus (attempt : ℕ) : CommandStatus :=
  if attempt < maxCommandAttempts then .failedRetryable else .failedTerminal

theorem releaseStale_fresh {context : CompletionContext} {key : Bytes}
    (hrunning : context.command.status = .running)
    (hfresh : ¬Elapsed context.dbNow executionStaleSeconds (heartbeatAnchor context.command)) :
    releaseStale context key = .ok none := by
  have hmark : markStale context.command ⟨context.dbNow, false, key⟩ = .ok context.command := by
    simp only [markStale, staleAnchor, hrunning, reduceCtorEq, if_false, if_true, and_self]
    exact if_neg hfresh
  simp only [releaseStale, hmark, ok_bind, hrunning]
  rfl

theorem releaseStale_elapsed {context : CompletionContext} {key : Bytes}
    (hrunning : context.command.status = .running) (hattempt : 1 ≤ context.command.attempt)
    (helapsed : Elapsed context.dbNow executionStaleSeconds (heartbeatAnchor context.command)) :
    ∃ released, releaseStale context key = .ok (some released) ∧
      released.status = releasedStatus context.command.attempt := by
  have hmark : markStale context.command ⟨context.dbNow, false, key⟩ =
      .ok { context.command with status := .staleAbandoned } := by
    simp only [markStale, staleAnchor, hrunning, reduceCtorEq, if_false, if_true, and_self]
    exact if_pos helapsed
  obtain ⟨released, hreleased⟩ := @releaseAbandoned_ok
    { context.command with status := .staleAbandoned } context.dbNow key hattempt
  have hagain : markStale { context.command with status := .staleAbandoned }
      ⟨context.dbNow, false, key⟩ = .ok released := by
    rw [markStale, if_neg (by simp), if_pos rfl]
    exact hreleased
  refine ⟨released, ?_, ?_⟩
  · simp only [releaseStale, hmark, ok_bind, hagain]
    rfl
  · obtain ⟨status, availableAt, rfl, hcases⟩ := releaseAbandoned_eq_ok hreleased
    change status = releasedStatus context.command.attempt
    rcases hcases with ⟨hmax, rfl⟩ | ⟨hlt, rfl⟩
    · exact (if_neg (Nat.not_lt.mpr hmax)).symm
    · exact (if_pos hlt).symm

end Release

section Runs
variable {nfc : Text → Text}

def streamOf (facts : RunCompletionFacts) : PageStream :=
  ⟨facts.run, facts.checkpoint, facts.commits⟩

theorem verifyPersistedChain_stream {facts : RunCompletionFacts}
    (h : StreamInvariant (streamOf facts)) (status : RunStatus) (failure : Option FailureDetail) :
    verifyPersistedChain facts (outcomeOf facts.run status failure) = .ok () := by
  have horder : byOrdinal facts.commits = facts.commits := byOrdinal_of_counter h.ordinals
  refine verifyPersistedChain_eq_ok.mpr ⟨facts.run.committedPageHashChain, ?_, ?_⟩
  · rw [horder]
    exact verifyLinks_eq_ok.mpr ⟨fun c hc => ⟨(h.owner c hc).1, h.linked c hc⟩, h.ordinals,
      h.chain, h.chainTip.symm⟩
  · rw [horder]
    exact {
      count := ⟨h.pageCount, h.pageCount.symm⟩
      chain := ⟨rfl, rfl⟩
      last := h.last.1
      ordinal := h.last.2
      cursor := ⟨h.finalCursor, h.cursorTip.trans (finish_eq_getLast _ _)⟩
      unreserved := h.unreserved }

/-- The publication of a run sealed by `c`. -/
def sealedPublication (nfc : Text → Text) (facts : RunCompletionFacts) (c : PageCommitRecord) :
    PublicationDraft where
  runId := facts.run.id
  sourceId := facts.run.sourceId
  terminalPageCommitId := c.id
  finalChainHash := c.resultingChainHash
  postSetHash := postSetHash nfc facts
  distinctPostVersionCount := (observedVersions facts).length
  zeroPost := (observedVersions facts).isEmpty

theorem successPublication_stream {facts : RunCompletionFacts} {c : PageCommitRecord}
    (h : StreamInvariant (streamOf facts)) (hseal : sealingCommit facts.commits = some c) :
    successPublication nfc facts (outcomeOf facts.run .succeeded none) =
      .ok (sealedPublication nfc facts c) := by
  have hs : SealedBy (streamOf facts) c := sealedBy_of_invariant h hseal
  have hlast : facts.commits.getLast? = some c := hs.last
  have hid : facts.run.terminalPageCommitId = some c.id := hs.commitId
  have hchain : facts.run.terminalChainHash = some c.resultingChainHash := hs.chainHash
  have hmatches : TerminalMatches facts (outcomeOf facts.run .succeeded none) c := by
    refine ⟨?_, ?_, hs.finalCursor.trans hs.cursor.symm, ?_, hs.terminal, hs.reason.symm,
      hs.revision, rfl, rfl⟩
    · rw [hid]
      exact h.last.1.trans (congrArg (Option.map _) hs.last)
    · exact (h.last.2.trans (congrArg (Option.map _) hs.last)).trans hs.ordinal.symm
    · rw [hchain]
      exact congrArg some hs.chainTip
  simp only [successPublication, hid, hlast, present, ok_bind, require_of hmatches, hchain,
    Option.getD_some]
  rfl

theorem prepareRun_ready {command : CommandState} {facts : RunCompletionFacts}
    {c : PageCommitRecord} {now : Instant} (h : StreamInvariant (streamOf facts))
    (howned : facts.run.commandId = command.id ∧ facts.run.attempt = command.attempt ∧
      facts.run.status = .running) (hseal : sealingCommit facts.commits = some c) :
    prepareRun nfc command facts (outcomeOf facts.run .succeeded none) now =
      .ok (finalizedRun facts.run (outcomeOf facts.run .succeeded none) none none now,
        some (sealedPublication nfc facts c)) := by
  have hid : facts.run.terminalPageCommitId.isSome = true := by
    rw [show facts.run.terminalPageCommitId = some c.id from (sealedBy_of_invariant h hseal).commitId]
    rfl
  refine prepareRun_eq_ok.mpr ⟨howned, ?_, none, none, rfl, rfl, rfl⟩
  change (do
    require (facts.run.terminalPageCommitId.isSome = true) (fail .terminalPageMissing 409)
    verifyPersistedChain facts (outcomeOf facts.run .succeeded none)
    let publication ← successPublication nfc facts (outcomeOf facts.run .succeeded none)
    return some publication) = _
  rw [require_of hid, ok_bind, verifyPersistedChain_stream h, ok_bind,
    successPublication_stream h hseal]
  rfl

theorem prepareRun_failed {command : CommandState} {facts : RunCompletionFacts} {now : Instant}
    {status : RunStatus} {failure : FailureDetail} {observedAt : Instant}
    {retryAfterAt : Option Instant} (h : StreamInvariant (streamOf facts))
    (howned : facts.run.commandId = command.id ∧ facts.run.attempt = command.attempt ∧
      facts.run.status = .running) (hopen : sealingCommit facts.commits = none)
    (hvalid : failureValid (outcomeOf facts.run status (some failure)) = .ok true)
    (hobserved : requireUtc failure.observedAt = .ok observedAt)
    (hretry : requireUtcOption failure.retryAfterAt = .ok retryAfterAt) :
    prepareRun nfc command facts (outcomeOf facts.run status (some failure)) now =
      .ok (finalizedRun facts.run (outcomeOf facts.run status (some failure)) (some observedAt)
        retryAfterAt now, none) := by
  have hid : facts.run.terminalPageCommitId = none := unsealed_of_invariant h hopen
  have hoption : requireUtcOption (some failure.observedAt) = .ok (some observedAt) := by
    rw [requireUtcOption, hobserved, ok_bind]
    rfl
  refine prepareRun_eq_ok.mpr ⟨howned, ?_, some observedAt, retryAfterAt, hoption, hretry, rfl⟩
  have hfailure : verifyFailure facts (outcomeOf facts.run status (some failure)) = .ok () := by
    rw [verifyFailure, hvalid, ok_bind]
    exact require_of (p := _ ∧ _ ∧ _) ⟨hid, rfl, rfl⟩
  have hchain := verifyPersistedChain_stream h status (some failure)
  cases status <;> first
    | cases hvalid
    | simp only [verifyOutcome, outcomeOf] at hchain hfailure ⊢
      rw [hchain, ok_bind, hfailure, ok_bind]
      rfl

theorem requireUtcOption_utc (value : Option Instant) :
    requireUtcOption (value.map Datetime.utc) = .ok value := by
  cases value <;> rfl

theorem prepareRun_unready {command : CommandState} {facts : RunCompletionFacts} {now : Instant}
    {retryAfterAt : Option Instant} {status : RunStatus} {failureClass : FailureClass}
    (h : StreamInvariant (streamOf facts))
    (howned : facts.run.commandId = command.id ∧ facts.run.attempt = command.attempt ∧
      facts.run.status = .running) (hopen : sealingCommit facts.commits = none)
    (hstatus : (status = .failedRetryable ∧ failureClass = .retryable) ∨
      (status = .failedTerminal ∧ failureClass = .terminal)) :
    prepareRun nfc command facts (outcomeOf facts.run status
        (some (staleFailure facts.run failureClass now retryAfterAt))) now =
      .ok (finalizedRun facts.run (outcomeOf facts.run status
        (some (staleFailure facts.run failureClass now retryAfterAt))) (some now) retryAfterAt now,
        none) := by
  refine prepareRun_failed h howned hopen ?_ rfl (requireUtcOption_utc retryAfterAt)
  rcases hstatus with ⟨rfl, rfl⟩ | ⟨rfl, rfl⟩ <;> rfl

end Runs

section Complete
variable {nfc : Text → Text}

/-- A locked running command whose runs are its own and carry the stream facts. -/
structure RecoverableContext (context : CompletionContext) : Prop where
  running : context.command.status = .running
  attempt : 1 ≤ context.command.attempt ∧ context.command.attempt ≤ maxCommandAttempts
  distinct : (context.runs.map (·.run.id)).Nodup
  owned : ∀ facts ∈ context.runs, facts.run.commandId = context.command.id ∧
    facts.run.attempt = context.command.attempt ∧ facts.run.status = .running
  stream : ∀ facts ∈ context.runs, StreamInvariant (streamOf facts)

def Ready (facts : RunCompletionFacts) : Prop := facts.run.completionReadyAt.isSome = true

instance (facts : RunCompletionFacts) : Decidable (Ready facts) :=
  inferInstanceAs (Decidable (_ = _))

theorem ready_iff_sealed {facts : RunCompletionFacts} (h : StreamInvariant (streamOf facts)) :
    Ready facts ↔ ∃ c, sealingCommit facts.commits = some c := by
  rw [Ready, ← Option.isSome_iff_exists]
  exact (congrArg (· = true) h.terminal.ready).to_iff

/-- What one run of a recovered command is given. -/
structure RecoveredRun (context : CompletionContext) (facts : RunCompletionFacts)
    (result : RunState × Option PublicationDraft) : Prop where
  identity : result.1.id = facts.run.id ∧ result.1.sourceId = facts.run.sourceId ∧
    result.1.finalizedAt = some context.dbNow
  succeeded : ∀ c, sealingCommit facts.commits = some c → result.1.status = .succeeded ∧
    ∃ draft, result.2 = some draft ∧ draft.runId = facts.run.id ∧
      draft.sourceId = facts.run.sourceId ∧ draft.terminalPageCommitId = c.id ∧
      draft.finalChainHash = c.resultingChainHash
  abandoned : sealingCommit facts.commits = none → result.2 = none ∧
    result.1.failureCode = some "stale_abandoned" ∧
    result.1.status =
      if context.command.attempt < maxCommandAttempts then .failedRetryable else .failedTerminal

/-- A recovery plan: one finalized run and at most one publication for each run. -/
structure RecoveryPlan (context : CompletionContext) (plan : CompletionPlan) : Prop where
  once : List.Perm (plan.runs.map (·.id)) (context.runs.map (·.run.id))
  results : ∃ results : List (RunState × Option PublicationDraft),
    List.Forall₂ (RecoveredRun context) (byRunId context.runs) results ∧
    plan.runs = results.map Prod.fst ∧ plan.publications = results.filterMap Prod.snd
  command : context.command.attempt < maxCommandAttempts →
    (∃ facts ∈ context.runs, ¬Ready facts) → plan.commandStatus = .failedRetryable

/-- The synthesised outcome of a run once the release of its command is known. -/
def recovered (context : CompletionContext) (retryAfterAt : Option Instant)
    (facts : RunCompletionFacts) : CompletionSourceOutcome :=
  if Ready facts then outcomeOf facts.run .succeeded none
  else if context.command.attempt < maxCommandAttempts then
    outcomeOf facts.run .failedRetryable
      (some (staleFailure facts.run .retryable context.dbNow retryAfterAt))
  else outcomeOf facts.run .failedTerminal
    (some (staleFailure facts.run .terminal context.dbNow retryAfterAt))

theorem recovered_runId (context : CompletionContext) (retryAfterAt : Option Instant)
    (facts : RunCompletionFacts) :
    (recovered context retryAfterAt facts).runId = facts.run.id := by
  unfold recovered
  split
  · rfl
  · split <;> rfl

theorem prepareRun_recovered {context : CompletionContext} {retryAfterAt : Option Instant}
    {facts : RunCompletionFacts} (h : RecoverableContext context) (hmem : facts ∈ context.runs) :
    ∃ result, prepareRun nfc context.command facts (recovered context retryAfterAt facts)
        context.dbNow = .ok result ∧ RecoveredRun context facts result ∧
      result.1.status = (recovered context retryAfterAt facts).terminalStatus := by
  have hstream := h.stream facts hmem
  have howned := h.owned facts hmem
  by_cases hready : Ready facts
  · obtain ⟨c, hseal⟩ := (ready_iff_sealed hstream).mp hready
    rw [recovered, if_pos hready]
    refine ⟨_, prepareRun_ready hstream howned hseal, ⟨⟨rfl, rfl, rfl⟩, ?_, ?_⟩, rfl⟩
    · intro d hd
      obtain rfl := Option.some.inj (hseal.symm.trans hd)
      exact ⟨rfl, _, rfl, rfl, rfl, rfl, rfl⟩
    · intro hopen
      rw [hseal] at hopen
      cases hopen
  · have hopen : sealingCommit facts.commits = none := by
      rw [ready_iff_sealed hstream, ← Option.ne_none_iff_exists'] at hready
      exact not_not.mp hready
    have hnever : ∀ c, sealingCommit facts.commits = some c → False := by
      intro c hc
      rw [hopen] at hc
      cases hc
    rw [recovered, if_neg hready]
    split
    · rename_i hlt
      refine ⟨_, prepareRun_unready hstream howned hopen (.inl ⟨rfl, rfl⟩),
        ⟨⟨rfl, rfl, rfl⟩, fun c hc => (hnever c hc).elim, fun _ => ⟨rfl, rfl, ?_⟩⟩, rfl⟩
      rw [if_pos hlt]
      rfl
    · rename_i hlt
      refine ⟨_, prepareRun_unready hstream howned hopen (.inr ⟨rfl, rfl⟩),
        ⟨⟨rfl, rfl, rfl⟩, fun c hc => (hnever c hc).elim, fun _ => ⟨rfl, rfl, ?_⟩⟩, rfl⟩
      rw [if_neg hlt]
      rfl

theorem recovered_finished (context : CompletionContext) (retryAfterAt : Option Instant)
    (facts : RunCompletionFacts) :
    RunStatus.Finished (recovered context retryAfterAt facts).terminalStatus := by
  unfold recovered
  split
  · simp [outcomeOf, RunStatus.Finished]
  · split <;> simp [outcomeOf, RunStatus.Finished]

theorem recoveredRun_id {context : CompletionContext} {runs : List RunCompletionFacts}
    {results : List (RunState × Option PublicationDraft)}
    (h : List.Forall₂ (RecoveredRun context) runs results) :
    (results.map Prod.fst).map (·.id) = runs.map (·.run.id) := by
  induction h with
  | nil => rfl
  | cons hr _ ih =>
    simp only [List.map_cons, ih, hr.identity.1]

theorem prepareServerCompletion_recovered {context : CompletionContext}
    (h : RecoverableContext context) (hruns : context.runs ≠ []) (retryAfterAt : Option Instant)
    (requestHash : Digest) :
    ∃ plan results, prepareServerCompletion nfc context
        (context.runs.map (recovered context retryAfterAt)) requestHash = .ok plan ∧
      List.Forall₂ (RecoveredRun context) (byRunId context.runs) results ∧
      plan.runs = results.map Prod.fst ∧ plan.publications = results.filterMap Prod.snd ∧
      plan.commandStatus = aggregateOf
        ((context.runs.map (recovered context retryAfterAt)).map (·.terminalStatus)) := by
  let outcomes := context.runs.map (recovered context retryAfterAt)
  have hsame : SameRunSet (context.runs.map (·.run.id)) (outcomes.map (·.runId)) := by
    have hids : outcomes.map (·.runId) = context.runs.map (·.run.id) := by
      rw [List.map_map]
      exact List.map_congr_left fun facts _ => recovered_runId context retryAfterAt facts
    rw [hids]
    exact ⟨h.distinct, h.distinct, fun _ hid => hid, fun _ hid => hid⟩
  have hresult : ∀ facts ∈ byRunId context.runs, ∃ result,
      FinalizedBy nfc context.command outcomes context.dbNow facts result ∧
        RecoveredRun context facts result ∧ RunStatus.Finished result.1.status := by
    intro facts hfacts
    have hmem := mem_byRunId.mp hfacts
    obtain ⟨result, hprepare, hrecovered, hstatus⟩ :=
      @prepareRun_recovered nfc context retryAfterAt facts h hmem
    refine ⟨result, ⟨recovered context retryAfterAt facts, ?_, hprepare⟩, hrecovered, ?_⟩
    · exact find?_map_of_nodup (recovered_runId context retryAfterAt) h.distinct hmem
    · rw [hstatus]
      exact recovered_finished context retryAfterAt facts
  obtain ⟨results, hresults⟩ := forall₂_exists hresult
  have hfinished : ∀ s ∈ (results.map Prod.fst).map (·.status), RunStatus.Finished s := by
    intro s hs
    obtain ⟨run, hrun, rfl⟩ := List.mem_map.mp hs
    obtain ⟨result, hmem, rfl⟩ := List.mem_map.mp hrun
    obtain ⟨facts, _, _, _, hf⟩ := forall₂_mem_right hresults result hmem
    exact hf
  have hnonempty : (results.map Prod.fst).map (·.status) ≠ [] := by
    have hlength := hresults.length_eq
    rw [byRunId, List.length_insertionSort] at hlength
    intro hnil
    simp only [List.map_eq_nil_iff] at hnil
    rw [hnil] at hlength
    exact hruns (List.length_eq_zero_iff.mp hlength)
  let plan : CompletionPlan := ⟨requestHash,
    aggregateOf ((results.map Prod.fst).map (·.status)), results.map Prod.fst,
    results.filterMap Prod.snd, context.dbNow⟩
  have hplanned : Planned nfc context outcomes requestHash plan results := {
    running := h.running
    sameSet := hsame
    finalized := hresults.imp fun _ _ hr => hr.1
    runs := rfl
    publications := rfl
    status := aggregateCommandStatus_eq_ok.mpr ⟨hnonempty, hfinished, rfl⟩
    stamp := ⟨rfl, rfl⟩ }
  exact ⟨plan, results, prepareServerCompletion_eq_ok.mpr ⟨results, hplanned⟩,
    hresults.imp fun _ _ hr => hr.2.1, rfl, rfl, planned_commandStatus hplanned⟩

theorem recoveryOutcome_ready {context : CompletionContext} {status : Option CommandStatus}
    {retryAfterAt : Option Instant} {facts : RunCompletionFacts} (h : Ready facts) :
    recoveryOutcome status context.dbNow retryAfterAt facts =
      .ok (recovered context retryAfterAt facts) := by
  have hsome : facts.run.completionReadyAt.isSome = true := h
  rw [recoveryOutcome, recovered, if_pos h, if_pos hsome]

theorem recoveryOutcome_released {context : CompletionContext} {retryAfterAt : Option Instant}
    (facts : RunCompletionFacts) :
    recoveryOutcome (some (releasedStatus context.command.attempt)) context.dbNow retryAfterAt
      facts = .ok (recovered context retryAfterAt facts) := by
  by_cases hready : Ready facts
  · exact recoveryOutcome_ready hready
  · have hnone : ¬facts.run.completionReadyAt.isSome = true := hready
    rw [recoveryOutcome, recovered, if_neg hready, if_neg hnone, releasedStatus]
    split <;> rfl

theorem releasedFacts_of_status {released : CommandState} {attempt : ℕ}
    (h : released.status = releasedStatus attempt) :
    ∃ retryAfterAt,
      releasedFacts (some released) = .ok (some (releasedStatus attempt), retryAfterAt) := by
  unfold releasedStatus at h ⊢
  by_cases hlt : attempt < maxCommandAttempts
  · rw [if_pos hlt] at h ⊢
    exact ⟨some released.availableAt, by simp only [releasedFacts, h]⟩
  · rw [if_neg hlt] at h ⊢
    exact ⟨none, by simp only [releasedFacts, h]⟩

theorem aggregateOf_abandoned {context : CompletionContext} {retryAfterAt : Option Instant}
    (hruns : context.runs ≠ []) (hlt : context.command.attempt < maxCommandAttempts)
    (hnone : ∀ facts ∈ context.runs, ¬Ready facts) :
    aggregateOf ((context.runs.map (recovered context retryAfterAt)).map (·.terminalStatus)) =
      .failedRetryable := by
  have hall : (context.runs.map (recovered context retryAfterAt)).map (·.terminalStatus) =
      context.runs.map (fun _ => RunStatus.failedRetryable) := by
    rw [List.map_map]
    refine List.map_congr_left fun facts hfacts => ?_
    simp only [Function.comp_apply, recovered, if_neg (hnone facts hfacts), if_pos hlt, outcomeOf]
  obtain ⟨facts, rest, hcons⟩ := List.exists_cons_of_ne_nil hruns
  rw [hall, hcons, aggregateOf]
  simp [RunStatus.Skip]

theorem plannedRecovery_complete {context : CompletionContext} (h : RecoverableContext context)
    (hruns : context.runs ≠ []) {released : Option CommandState} {status : Option CommandStatus}
    {retryAfterAt : Option Instant} (hfacts : releasedFacts released = .ok (status, retryAfterAt))
    (hstatus : (∀ facts ∈ context.runs, Ready facts) ∨
      status = some (releasedStatus context.command.attempt)) :
    ∃ plan, plannedRecovery nfc context released = .ok plan ∧ RecoveryPlan context plan := by
  have houtcomes : context.runs.mapM (recoveryOutcome status context.dbNow retryAfterAt) =
      .ok (context.runs.map (recovered context retryAfterAt)) := by
    refine mapM_eq_map fun facts hfacts => ?_
    rcases hstatus with hready | rfl
    · exact recoveryOutcome_ready (hready facts hfacts)
    · exact recoveryOutcome_released facts
  obtain ⟨plan, results, hplan, hresults, hplanRuns, hpublications, hcommand⟩ :=
    @prepareServerCompletion_recovered nfc context h hruns retryAfterAt
      (completionOutcomesHash nfc context.command.attempt
        (context.runs.map (recovered context retryAfterAt)))
  have honce : List.Perm (plan.runs.map (·.id)) (context.runs.map (·.run.id)) := by
    rw [hplanRuns, recoveredRun_id hresults]
    exact (List.perm_insertionSort _ _).map _
  rw [plannedRecovery, hfacts, ok_bind]
  simp only [houtcomes, ok_bind, hplan]
  split
  · exact ⟨_, rfl, honce, ⟨results, hresults, hplanRuns, hpublications⟩, fun _ _ => rfl⟩
  · rename_i hkeep
    refine ⟨plan, rfl, honce, ⟨results, hresults, hplanRuns, hpublications⟩, fun hlt hopen => ?_⟩
    obtain ⟨facts, hfacts, hunready⟩ := hopen
    have hreleased : status = some .failedRetryable := by
      rcases hstatus with hready | rfl
      · exact absurd (hready facts hfacts) hunready
      · rw [releasedStatus, if_pos hlt]
    rw [hcommand]
    refine aggregateOf_abandoned hruns hlt fun other hother hready => hkeep ⟨hreleased, ?_⟩
    rw [readyRuns, List.any_map]
    exact List.any_eq_true.mpr ⟨other, hother, hready⟩

theorem readyRuns_all {context : CompletionContext} :
    (readyRuns context).all id = true ↔ ∀ facts ∈ context.runs, Ready facts := by
  rw [readyRuns, List.all_map, List.all_eq_true]
  rfl

/-- Recovery of a running command never fails: it answers nothing exactly when
    there is nothing to finalize yet, and otherwise finalizes every run once. -/
theorem staleRecovery_complete {context : CompletionContext} (h : RecoverableContext context)
    (retryJitterKey : Bytes) :
    ∃ answer, prepareStaleRecovery nfc context retryJitterKey = .ok answer ∧
      (answer = none ↔ context.runs = [] ∨
        ((∃ facts ∈ context.runs, ¬Ready facts) ∧
          ¬Elapsed context.dbNow executionStaleSeconds (heartbeatAnchor context.command))) ∧
      ∀ plan, answer = some plan → RecoveryPlan context plan := by
  have hrecoverable : requireRecoverableStatus context.command.status = .ok ⟨⟩ :=
    require_of (.inl h.running)
  rw [prepareStaleRecovery, hrecoverable, ok_bind]
  by_cases hruns : context.runs = []
  · exact ⟨none, by rw [if_pos hruns]; rfl, by simp [hruns], by simp⟩
  rw [if_neg hruns]
  by_cases hready : ∀ facts ∈ context.runs, Ready facts
  · have hall := readyRuns_all.mpr hready
    obtain ⟨plan, hplan, hspec⟩ := @plannedRecovery_complete nfc context
      h hruns none _ _ rfl (.inl hready)
    refine ⟨some plan, ?_, ?_, fun other hother => Option.some.inj hother ▸ hspec⟩
    · simp only [releasedCommand, hall, if_true, ok_bind, Bool.true_eq_false, false_and, if_false,
        hplan]
      rfl
    · simp only [reduceCtorEq, hruns, false_or, false_iff, not_and, not_not]
      rintro ⟨facts, hfacts, hunready⟩
      exact absurd (hready facts hfacts) hunready
  · obtain ⟨facts, hfacts, hunready⟩ : ∃ facts ∈ context.runs, ¬Ready facts := by
      simpa only [not_forall, exists_prop] using hready
    have hall : (readyRuns context).all id = false := by
      rw [← Bool.not_eq_true, readyRuns_all]
      exact hready
    by_cases helapsed : Elapsed context.dbNow executionStaleSeconds
        (heartbeatAnchor context.command)
    · obtain ⟨released, hreleased, hstatus⟩ :=
        @releaseStale_elapsed context retryJitterKey h.running h.attempt.1 helapsed
      obtain ⟨retryAfterAt, hretry⟩ := releasedFacts_of_status hstatus
      obtain ⟨plan, hplan, hspec⟩ := @plannedRecovery_complete nfc context h hruns _ _ _ hretry
        (.inr rfl)
      refine ⟨some plan, ?_, ?_, fun other hother => Option.some.inj hother ▸ hspec⟩
      · simp only [releasedCommand, hall, Bool.false_eq_true, if_false, hreleased, ok_bind,
          reduceCtorEq, and_false, hplan]
        rfl
      · simp [hruns, helapsed]
    · refine ⟨none, ?_, ?_, by simp⟩
      · simp only [releasedCommand, hall, Bool.false_eq_true, if_false,
          releaseStale_fresh h.running helapsed, ok_bind, and_self, if_true]
        rfl
      · simp only [true_iff]
        exact .inr ⟨⟨facts, hfacts, hunready⟩, helapsed⟩

end Complete

section Sample

def sampleSealed : PageStream :=
  run (pageStep sampleRuntime) (startedStream sampleRun (samplePolicy 1) sampleCheckpoint)
    [sampleCall 0 "c4" "c5"]

def sampleIdleStart : RunStart := { sampleStart with runId := 21, sourceId := 4 }

def sampleIdleCheckpoint : CheckpointState := { sampleCheckpoint with id := 12, sourceId := 4 }

def sampleIdleGenesis : Digest :=
  sha256 (encode "page-chain-genesis/v1\n" ++
    canonicalBytes id (PageCommit.genesisIdentity sampleIdleStart sampleIdleCheckpoint))

def sampleIdleRun : RunState :=
  { sampleRun with
    id := 21
    sourceId := 4
    genesisChainHash := sampleIdleGenesis
    committedPageHashChain := sampleIdleGenesis }

def sampleIdle : PageStream :=
  startedStream sampleIdleRun (samplePolicy 1) sampleIdleCheckpoint

def factsOf (s : PageStream) : RunCompletionFacts := ⟨s.run, s.checkpoint, s.commits, [], none⟩

def sampleContext : CompletionContext where
  command := sampleCommand
  runs := [factsOf sampleSealed, factsOf sampleIdle]
  dbNow := 1000 + seconds 361

theorem sampleContext_recoverable : RecoverableContext sampleContext where
  running := rfl
  attempt := ⟨by decide, by decide⟩
  distinct := by decide +kernel
  owned := by
    simp only [sampleContext, List.forall_mem_cons, List.not_mem_nil, false_implies,
      implies_true, and_true]
    exact ⟨by decide +kernel, by decide +kernel⟩
  stream := by
    simp only [sampleContext, List.forall_mem_cons, List.not_mem_nil, false_implies,
      implies_true, and_true]
    exact ⟨streamInvariant_run _ (streamInvariant_started _ startRun_sample),
      @streamInvariant_started id sampleIdleStart _ _ _ rfl⟩

/-- One sealed and one idle run under a silent collector are finalized together. -/
theorem staleRecovery_complete_sample :
    ∃ plan, prepareStaleRecovery id sampleContext [] = .ok (some plan) ∧
      RecoveryPlan sampleContext plan := by
  obtain ⟨answer, hanswer, hnone, hplan⟩ :=
    @staleRecovery_complete id _ sampleContext_recoverable []
  cases answer with
  | some plan => exact ⟨plan, hanswer, hplan plan rfl⟩
  | none =>
    rcases hnone.mp rfl with hruns | ⟨_, hfresh⟩
    · cases hruns
    · exact absurd (by decide) hfresh

end Sample

end PredictionMarketMonitor.StaleRecovery
