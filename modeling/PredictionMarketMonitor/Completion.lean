import PredictionMarketMonitor.PageItems
import PredictionMarketMonitor.ThreadedLog

set_option autoImplicit false

/-!
# Command completion

`aggregate_command_status` of `commands.py`, `completion.py` and
`completion_failure.py`: every asserted outcome is compared with the persisted
facts of its run before one all-or-nothing plan is derived.
-/
namespace PredictionMarketMonitor.Completion

open CanonicalJson CivilTime CollectionBase CollectionModels FallibleSteps PageItems Sha256
open ThreadedLog

section Aggregate

inductive TerminalBucket
  | success | skip | retryable | terminal
deriving DecidableEq

def terminalBucket : RunStatus → Result TerminalBucket
  | .succeeded => .ok .success
  | .skippedPolicy | .skippedQuota => .ok .skip
  | .failedRetryable => .ok .retryable
  | .failedTerminal => .ok .terminal
  | .created | .running | .staleAbandoned => .error (fail .invalidTransition 409)

/-- Reduce terminal run statuses by the mutually exclusive truth table. -/
def aggregateCommandStatus (statuses : List RunStatus) : Result CommandStatus := do
  require (statuses ≠ []) (fail .invalidContract 422)
  let buckets ← statuses.mapM terminalBucket
  return if buckets.count .success = statuses.length then .succeeded
    else if 0 < buckets.count .success then .partialSuccess
    else if buckets.count .skip = statuses.length then .skipped
    else if 0 < buckets.count .retryable then .failedRetryable
    else .failedTerminal

def RunStatus.Skip (s : RunStatus) : Prop := s = .skippedPolicy ∨ s = .skippedQuota

instance (s : RunStatus) : Decidable (RunStatus.Skip s) := inferInstanceAs (Decidable (_ ∨ _))

def RunStatus.Finished (s : RunStatus) : Prop :=
  s ≠ .created ∧ s ≠ .running ∧ s ≠ .staleAbandoned

instance (s : RunStatus) : Decidable (RunStatus.Finished s) := inferInstanceAs (Decidable (_ ∧ _))

def aggregateOf (statuses : List RunStatus) : CommandStatus :=
  if ∀ s ∈ statuses, s = .succeeded then .succeeded
  else if .succeeded ∈ statuses then .partialSuccess
  else if ∀ s ∈ statuses, RunStatus.Skip s then .skipped
  else if .failedRetryable ∈ statuses then .failedRetryable
  else .failedTerminal

theorem aggregateOf_congr {xs ys : List RunStatus} (h : ∀ s, s ∈ xs ↔ s ∈ ys) :
    aggregateOf xs = aggregateOf ys := by
  simp only [aggregateOf, h]

theorem terminalBucket_cases {s : RunStatus} {b : TerminalBucket} (h : terminalBucket s = .ok b) :
    RunStatus.Finished s ∧ (b = .success ↔ s = .succeeded) ∧ (b = .skip ↔ RunStatus.Skip s) ∧
      (b = .retryable ↔ s = .failedRetryable) := by
  cases s <;> simp_all [terminalBucket, RunStatus.Finished, RunStatus.Skip] <;> subst h <;> simp

theorem count_buckets {statuses : List RunStatus} {buckets : List TerminalBucket}
    {b : TerminalBucket} {p : RunStatus → Prop} [DecidablePred p]
    (h : List.Forall₂ (fun s c => terminalBucket s = .ok c) statuses buckets)
    (hp : ∀ s c, terminalBucket s = .ok c → (c = b ↔ p s)) :
    buckets.count b = statuses.countP (fun s => p s) := by
  induction h with
  | nil => rfl
  | @cons s c ss cs hsc _ ih =>
    rw [List.count_cons, List.countP_cons, ih]
    by_cases hb : c = b
    · simp [hb, (hp s c hsc).mp hb]
    · simp [hb, mt (hp s c hsc).mpr hb]

theorem aggregateCommandStatus_eq_ok {statuses : List RunStatus} {status : CommandStatus} :
    aggregateCommandStatus statuses = .ok status ↔
      statuses ≠ [] ∧ (∀ s ∈ statuses, RunStatus.Finished s) ∧ status = aggregateOf statuses := by
  have htable {buckets : List TerminalBucket}
      (hb : List.Forall₂ (fun s c => terminalBucket s = .ok c) statuses buckets) :
      (if buckets.count .success = statuses.length then CommandStatus.succeeded
        else if 0 < buckets.count .success then .partialSuccess
        else if buckets.count .skip = statuses.length then .skipped
        else if 0 < buckets.count .retryable then .failedRetryable
        else .failedTerminal) = aggregateOf statuses := by
    rw [count_buckets (p := (· = .succeeded)) hb fun s c h => (terminalBucket_cases h).2.1,
      count_buckets (p := RunStatus.Skip) hb fun s c h => (terminalBucket_cases h).2.2.1,
      count_buckets (p := (· = .failedRetryable)) hb fun s c h => (terminalBucket_cases h).2.2.2]
    simp [aggregateOf, List.countP_eq_length, List.countP_pos_iff]
  rw [aggregateCommandStatus, require_bind, bind_eq_ok]
  refine and_congr_right fun _ => ?_
  constructor
  · rintro ⟨buckets, hbuckets, h⟩
    have hb := mapM_forall₂.mp hbuckets
    refine ⟨fun s hs => ?_, ?_⟩
    · obtain ⟨c, _, hc⟩ := forall₂_mem_left hb s hs
      exact (terminalBucket_cases hc).1
    · rw [← htable hb]
      exact (Except.ok.inj h).symm
  · rintro ⟨hfinished, rfl⟩
    obtain ⟨buckets, hbuckets⟩ := @mapM_ok_of_forall _ _ _ terminalBucket statuses
      (by
        intro s hs
        have := hfinished s hs
        cases s <;> simp_all [terminalBucket, RunStatus.Finished])
    refine ⟨buckets, hbuckets, ?_⟩
    rw [← htable (mapM_forall₂.mp hbuckets)]
    rfl

end Aggregate

section Identity
variable (nfc : Text → Text)

def FailureDetail.json (failure : FailureDetail) : Json := .object
  [("class", .ofString failure.failureClass.value),
   ("code", .ofString failure.code),
   ("fingerprint", Digest.json failure.fingerprint),
   ("observed_at", .str failure.observedAt.json),
   ("retry_after_at", .ofOption (fun t => .str (Datetime.json t)) failure.retryAfterAt)]

def CompletionSourceOutcome.json (outcome : CompletionSourceOutcome) : Json := .object
  [("run_id", outcome.runId.json),
   ("terminal_status", .ofString outcome.terminalStatus.value),
   ("last_page_commit_id", .ofOption UUID.json outcome.lastPageCommitId),
   ("final_cursor", .ofOption .ofString outcome.finalCursor),
   ("final_page_ordinal", .ofOption .ofNat outcome.finalPageOrdinal),
   ("committed_page_count", .ofNat outcome.committedPageCount),
   ("committed_page_hash_chain", Digest.json outcome.committedPageHashChain),
   ("skip_decision_id", .ofOption UUID.json outcome.skipDecisionId),
   ("failure", .ofOption FailureDetail.json outcome.failure)]

def completionOutcomesHash (attempt : ℕ) (outcomes : List CompletionSourceOutcome) : Digest :=
  let ordered := outcomes.insertionSort (fun a b => UUID.HexLE a.runId b.runId)
  sha256 (canonicalBytes nfc (.object
    [("attempt", .ofNat attempt),
     ("source_outcomes", .list (ordered.map CompletionSourceOutcome.json))]))

def completionRequestHash (request : CompletionRequest) : Digest :=
  completionOutcomesHash nfc request.attempt request.sourceOutcomes

end Identity

section Validation
variable (nfc : Text → Text)

def retryableCodes : List String :=
  ["network", "stale_abandoned", "timeout", "provider_temporarily_unavailable"]

def terminalCodes : List String :=
  ["normalization_invalid", "provider_contract_invalid", "provider_terminal_http_error",
   "stale_abandoned"]

def failureValid (outcome : CompletionSourceOutcome) : Result Bool :=
  match outcome.terminalStatus with
  | .failedRetryable => .ok (outcome.failure.any
      (fun f => f.failureClass = .retryable ∧ f.code ∈ retryableCodes))
  | .failedTerminal => .ok (outcome.failure.any
      (fun f => f.failureClass = .terminal ∧ f.code ∈ terminalCodes))
  | .created | .running | .succeeded | .skippedPolicy | .skippedQuota | .staleAbandoned =>
    .error (fail .invalidTransition 409)

/-- Reject completion facts that do not match the recorded failure. -/
def verifyFailure (facts : RunCompletionFacts) (outcome : CompletionSourceOutcome) :
    Result Unit := do
  let valid ← failureValid outcome
  require (facts.run.terminalPageCommitId = none ∧ outcome.skipDecisionId = none ∧ valid = true)
    (fail .completionMismatch 409)

/-- Recompute the chain from `chain` over commits numbered from `ordinal` on. -/
def verifyLinks (runId : UUID) : ℕ → Digest → List PageCommitRecord → Result Digest
  | _, chain, [] => .ok chain
  | ordinal, chain, commit :: rest => do
    let expectedLink := pageChainLink chain commit.pageContentHash
    require (commit.runId = runId ∧ commit.pageOrdinal = ordinal ∧
      commit.previousChainHash = chain ∧ commit.resultingChainHash = expectedLink)
      (fail .completionMismatch 409)
    verifyLinks runId (ordinal + 1) expectedLink rest

def byOrdinal (commits : List PageCommitRecord) : List PageCommitRecord :=
  commits.insertionSort (fun a b => a.pageOrdinal ≤ b.pageOrdinal)

/-- The outcome asserts what the commits and the run say. -/
structure ChainAgrees (facts : RunCompletionFacts) (outcome : CompletionSourceOutcome)
    (commits : List PageCommitRecord) (chain : Digest) : Prop where
  count : outcome.committedPageCount = commits.length ∧
    commits.length = facts.run.committedPageCount
  chain : outcome.committedPageHashChain = chain ∧ chain = facts.run.committedPageHashChain
  last : outcome.lastPageCommitId = commits.getLast?.map (·.id)
  ordinal : outcome.finalPageOrdinal = commits.getLast?.map (·.pageOrdinal)
  cursor : outcome.finalCursor = facts.checkpoint.cursor ∧
    facts.checkpoint.cursor = (commits.getLast?.map (·.nextCursor)).getD facts.run.startCursor
  unreserved : facts.run.pageReservationId = none

instance (facts : RunCompletionFacts) (outcome : CompletionSourceOutcome)
    (commits : List PageCommitRecord) (chain : Digest) :
    Decidable (ChainAgrees facts outcome commits chain) :=
  decidable_of_iff
    ((outcome.committedPageCount = commits.length ∧
        commits.length = facts.run.committedPageCount) ∧
      (outcome.committedPageHashChain = chain ∧ chain = facts.run.committedPageHashChain) ∧
      outcome.lastPageCommitId = commits.getLast?.map (·.id) ∧
      outcome.finalPageOrdinal = commits.getLast?.map (·.pageOrdinal) ∧
      (outcome.finalCursor = facts.checkpoint.cursor ∧
        facts.checkpoint.cursor =
          (commits.getLast?.map (·.nextCursor)).getD facts.run.startCursor) ∧
      facts.run.pageReservationId = none)
    ⟨fun ⟨a, b, c, d, e, f⟩ => ⟨a, b, c, d, e, f⟩, fun ⟨a, b, c, d, e, f⟩ => ⟨a, b, c, d, e, f⟩⟩

def verifyPersistedChain (facts : RunCompletionFacts) (outcome : CompletionSourceOutcome) :
    Result Unit := do
  let commits := byOrdinal facts.commits
  let chain ← verifyLinks facts.run.id 0 facts.run.genesisChainHash commits
  require (ChainAgrees facts outcome commits chain) (fail .completionMismatch 409)

/-- The outcome and the last commit are those of the run's terminal marker. -/
def TerminalMatches (facts : RunCompletionFacts) (outcome : CompletionSourceOutcome)
    (last : PageCommitRecord) : Prop :=
  outcome.lastPageCommitId = facts.run.terminalPageCommitId ∧
    outcome.finalPageOrdinal = facts.run.terminalPageOrdinal ∧
    outcome.finalCursor = facts.run.terminalCursor ∧
    some outcome.committedPageHashChain = facts.run.terminalChainHash ∧
    last.isTerminalPage = true ∧
    last.terminalReason = facts.run.terminalReason ∧
    facts.checkpoint.revision = last.resultingCheckpointRevision ∧
    outcome.skipDecisionId = none ∧
    outcome.failure = none

instance (facts : RunCompletionFacts) (outcome : CompletionSourceOutcome)
    (last : PageCommitRecord) : Decidable (TerminalMatches facts outcome last) :=
  inferInstanceAs (Decidable (_ ∧ _))

def observedVersions (facts : RunCompletionFacts) : List ObservedPostVersion :=
  facts.observedPostVersions.dedup.insertionSort (fun a b => UUID.HexLE a.id b.id)

def postSetHash (facts : RunCompletionFacts) : Digest :=
  canonicalJsonHash nfc (.list ((observedVersions facts).map (fun v => .object
    [("content_hash", Digest.json v.contentHash), ("post_version_id", v.id.json)])))

def successPublication (facts : RunCompletionFacts) (outcome : CompletionSourceOutcome) :
    Result PublicationDraft := do
  let terminalId ← present facts.run.terminalPageCommitId (fail .terminalPageMissing 409)
  let last ← present facts.commits.getLast? (fail .terminalPageMissing 409)
  require (TerminalMatches facts outcome last) (fail .completionMismatch 409)
  return {
    runId := facts.run.id
    sourceId := facts.run.sourceId
    terminalPageCommitId := terminalId
    finalChainHash := facts.run.terminalChainHash.getD facts.run.committedPageHashChain
    postSetHash := postSetHash nfc facts
    distinctPostVersionCount := (observedVersions facts).length
    zeroPost := (observedVersions facts).isEmpty }

def verifySkip (facts : RunCompletionFacts) (outcome : CompletionSourceOutcome) : Result Unit :=
  require ((∃ proof ∈ facts.skipDecision, some proof.id = outcome.skipDecisionId ∧
      proof.terminalStatus = outcome.terminalStatus) ∧
    facts.commits = [] ∧ facts.run.terminalPageCommitId = none ∧ outcome.failure = none)
    (fail .completionMismatch 409)

/-- The validation of one asserted outcome, with the publication of a success. -/
def verifyOutcome (facts : RunCompletionFacts) (outcome : CompletionSourceOutcome) :
    Result (Option PublicationDraft) :=
  match outcome.terminalStatus with
  | .succeeded => do
    require (facts.run.terminalPageCommitId.isSome = true) (fail .terminalPageMissing 409)
    verifyPersistedChain facts outcome
    let publication ← successPublication nfc facts outcome
    return some publication
  | .skippedPolicy | .skippedQuota => do
    verifyPersistedChain facts outcome
    verifySkip facts outcome
    return none
  | .failedRetryable | .failedTerminal => do
    verifyPersistedChain facts outcome
    verifyFailure facts outcome
    return none
  | .created | .running | .staleAbandoned => .error (fail .invalidTransition 409)

def requireUtcOption : Option Datetime → Result (Option Instant)
  | none => .ok none
  | some value => do return some (← requireUtc value)

def finalizedRun (run : RunState) (outcome : CompletionSourceOutcome)
    (observedAt retryAfterAt : Option Instant) (now : Instant) : RunState :=
  { run with
    status := outcome.terminalStatus
    failureClass := outcome.failure.map (fun f => f.failureClass.value)
    failureCode := outcome.failure.map (·.code)
    failureFingerprint := outcome.failure.map (·.fingerprint)
    failureObservedAt := observedAt
    retryAfterAt := retryAfterAt
    finalizedAt := some now
    finishedAt := some now }

def prepareRun (command : CommandState) (facts : RunCompletionFacts)
    (outcome : CompletionSourceOutcome) (now : Instant) :
    Result (RunState × Option PublicationDraft) := do
  require (facts.run.commandId = command.id ∧ facts.run.attempt = command.attempt ∧
    facts.run.status = .running) (fail .leaseOrAttemptMismatch 409)
  let publication ← verifyOutcome nfc facts outcome
  let observedAt ← requireUtcOption (outcome.failure.map (·.observedAt))
  let retryAfterAt ← requireUtcOption (outcome.failure.bind (·.retryAfterAt))
  return (finalizedRun facts.run outcome observedAt retryAfterAt now, publication)

/-- Both identity lists are free of duplicates and name the same runs. -/
def SameRunSet (runIds outcomeIds : List UUID) : Prop :=
  runIds.Nodup ∧ outcomeIds.Nodup ∧ (∀ id ∈ runIds, id ∈ outcomeIds) ∧
    ∀ id ∈ outcomeIds, id ∈ runIds

instance (runIds outcomeIds : List UUID) : Decidable (SameRunSet runIds outcomeIds) :=
  inferInstanceAs (Decidable (_ ∧ _))

def byRunId (runs : List RunCompletionFacts) : List RunCompletionFacts :=
  runs.insertionSort (fun a b => UUID.HexLE a.run.id b.run.id)

/-- Apply the persisted-fact rules to every run and aggregate the results. -/
def prepareServerCompletion (context : CompletionContext)
    (outcomes : List CompletionSourceOutcome) (requestHash : Digest) : Result CompletionPlan := do
  require (context.command.status = .running) (fail .invalidTransition 409)
  require (SameRunSet (context.runs.map (·.run.id)) (outcomes.map (·.runId)))
    (fail .runSetMismatch 409)
  let results ← (byRunId context.runs).mapM (fun facts => do
    -- the run sets agree, so the outcome is there
    let outcome ← present (outcomes.find? (fun o => o.runId = facts.run.id))
      (fail .runSetMismatch 409)
    prepareRun nfc context.command facts outcome context.dbNow)
  let finalized := results.map Prod.fst
  let status ← aggregateCommandStatus (finalized.map (·.status))
  return ⟨requestHash, status, finalized, results.filterMap Prod.snd, context.dbNow⟩

def prepareCompletion (context : CompletionContext) (request : CompletionRequest) :
    Result CompletionPlan := do
  require (context.command.status = .running ∧ context.command.attempt = request.attempt ∧
    tokenMatches request.leaseToken context.command.leaseHash) (fail .leaseOrAttemptMismatch 409)
  prepareServerCompletion nfc context request.sourceOutcomes (completionRequestHash nfc request)

end Validation

section Specifications
variable {nfc : Text → Text}

theorem verifyLinks_eq_ok {runId : UUID} {ordinal : ℕ} {chain tip : Digest}
    {commits : List PageCommitRecord} :
    verifyLinks runId ordinal chain commits = .ok tip ↔
      (∀ c ∈ commits, c.runId = runId ∧
        c.resultingChainHash = pageChainLink c.previousChainHash c.pageContentHash) ∧
      Threaded (·.pageOrdinal) (·.pageOrdinal + 1) ordinal commits ∧
      Threaded (·.previousChainHash) (·.resultingChainHash) chain commits ∧
      finish (·.resultingChainHash) chain commits = tip := by
  induction commits generalizing ordinal chain with
  | nil => simp [verifyLinks, Threaded]
  | cons c rest ih =>
    rw [verifyLinks, require_bind, ih, finish_cons]
    simp only [Threaded, List.forall_mem_cons]
    constructor
    · rintro ⟨⟨hrun, rfl, rfl, hlink⟩, hrest, hordinals, hchain, htip⟩
      rw [← hlink] at hchain htip
      exact ⟨⟨⟨hrun, hlink⟩, hrest⟩, ⟨rfl, hordinals⟩, ⟨rfl, hchain⟩, htip⟩
    · rintro ⟨⟨⟨hrun, hlink⟩, hrest⟩, ⟨rfl, hordinals⟩, ⟨rfl, hchain⟩, htip⟩
      rw [hlink] at hchain htip
      exact ⟨⟨hrun, rfl, rfl, hlink⟩, hrest, hordinals, hchain, htip⟩

theorem verifyPersistedChain_eq_ok {facts : RunCompletionFacts}
    {outcome : CompletionSourceOutcome} : verifyPersistedChain facts outcome = .ok () ↔
      ∃ chain, verifyLinks facts.run.id 0 facts.run.genesisChainHash (byOrdinal facts.commits) =
          .ok chain ∧ ChainAgrees facts outcome (byOrdinal facts.commits) chain := by
  rw [verifyPersistedChain, bind_eq_ok]
  exact exists_congr fun _ => and_congr_right fun _ => require_eq_ok

theorem byOrdinal_of_counter {commits : List PageCommitRecord} {k : ℕ}
    (h : Threaded (·.pageOrdinal) (·.pageOrdinal + 1) k commits) : byOrdinal commits = commits :=
  List.Pairwise.insertionSort_eq ((counter_pairwise h).imp fun hlt => Nat.le_of_lt hlt)

theorem prepareRun_eq_ok {command : CommandState} {facts : RunCompletionFacts}
    {outcome : CompletionSourceOutcome} {now : Instant}
    {result : RunState × Option PublicationDraft} :
    prepareRun nfc command facts outcome now = .ok result ↔
      (facts.run.commandId = command.id ∧ facts.run.attempt = command.attempt ∧
        facts.run.status = .running) ∧
      verifyOutcome nfc facts outcome = .ok result.2 ∧
      ∃ observedAt retryAfterAt,
        requireUtcOption (outcome.failure.map (·.observedAt)) = .ok observedAt ∧
        requireUtcOption (outcome.failure.bind (·.retryAfterAt)) = .ok retryAfterAt ∧
        result.1 = finalizedRun facts.run outcome observedAt retryAfterAt now := by
  rw [prepareRun, require_bind, bind_eq_ok]
  refine and_congr_right fun _ => ?_
  constructor
  · rintro ⟨publication, hpublication, h⟩
    obtain ⟨observedAt, hobserved, h⟩ := bind_eq_ok.mp h
    obtain ⟨retryAfterAt, hretry, h⟩ := bind_eq_ok.mp h
    obtain rfl := Except.ok.inj h
    exact ⟨hpublication, observedAt, retryAfterAt, hobserved, hretry, rfl⟩
  · rintro ⟨hpublication, observedAt, retryAfterAt, hobserved, hretry, hresult⟩
    refine ⟨result.2, hpublication, ?_⟩
    rw [hobserved, ok_bind, hretry, ok_bind, ← hresult]
    rfl

theorem verifyOutcome_finished {facts : RunCompletionFacts} {outcome : CompletionSourceOutcome}
    {publication : Option PublicationDraft}
    (h : verifyOutcome nfc facts outcome = .ok publication) :
    RunStatus.Finished outcome.terminalStatus := by
  unfold verifyOutcome at h
  cases hstatus : outcome.terminalStatus <;> simp [hstatus] at h <;>
    simp [RunStatus.Finished]

def FinalizedBy (nfc : Text → Text) (command : CommandState)
    (outcomes : List CompletionSourceOutcome) (now : Instant) (facts : RunCompletionFacts)
    (result : RunState × Option PublicationDraft) : Prop :=
  ∃ outcome, outcomes.find? (fun o => o.runId = facts.run.id) = some outcome ∧
    prepareRun nfc command facts outcome now = .ok result

/-- A completion plan with the validation behind it. -/
structure Planned (nfc : Text → Text) (context : CompletionContext)
    (outcomes : List CompletionSourceOutcome) (requestHash : Digest) (plan : CompletionPlan)
    (results : List (RunState × Option PublicationDraft)) : Prop where
  running : context.command.status = .running
  sameSet : SameRunSet (context.runs.map (·.run.id)) (outcomes.map (·.runId))
  finalized : List.Forall₂ (FinalizedBy nfc context.command outcomes context.dbNow)
    (byRunId context.runs) results
  runs : plan.runs = results.map Prod.fst
  publications : plan.publications = results.filterMap Prod.snd
  status : aggregateCommandStatus (plan.runs.map (·.status)) = .ok plan.commandStatus
  stamp : plan.requestHash = requestHash ∧ plan.completedAt = context.dbNow

theorem prepareServerCompletion_eq_ok {context : CompletionContext}
    {outcomes : List CompletionSourceOutcome} {requestHash : Digest} {plan : CompletionPlan} :
    prepareServerCompletion nfc context outcomes requestHash = .ok plan ↔
      ∃ results, Planned nfc context outcomes requestHash plan results := by
  have hrun (facts : RunCompletionFacts) (r : RunState × Option PublicationDraft) :
      (present (outcomes.find? (fun o => o.runId = facts.run.id)) (fail .runSetMismatch 409) >>=
        fun outcome => prepareRun nfc context.command facts outcome context.dbNow) = .ok r ↔
        FinalizedBy nfc context.command outcomes context.dbNow facts r := by
    rw [bind_eq_ok]
    exact exists_congr fun _ => and_congr_left fun _ => present_eq_ok
  rw [prepareServerCompletion, require_bind, require_bind, bind_eq_ok]
  constructor
  · rintro ⟨hrunning, hsame, results, hresults, h⟩
    obtain ⟨status, hstatus, h⟩ := bind_eq_ok.mp h
    obtain rfl := Except.ok.inj h
    exact ⟨results, hrunning, hsame, (mapM_forall₂.mp hresults).imp fun a b => (hrun a b).mp,
      rfl, rfl, hstatus, rfl, rfl⟩
  · rintro ⟨results, h⟩
    refine ⟨h.running, h.sameSet, results,
      mapM_forall₂.mpr (h.finalized.imp fun a b => (hrun a b).mpr), ?_⟩
    obtain ⟨hash, status, runs, publications, completedAt⟩ := plan
    obtain ⟨rfl, rfl⟩ := h.stamp
    obtain rfl := h.runs
    obtain rfl := h.publications
    exact bind_eq_ok.mpr ⟨status, h.status, rfl⟩

theorem finalizedBy_fields {command : CommandState} {outcomes : List CompletionSourceOutcome}
    {now : Instant} {facts : RunCompletionFacts} {result : RunState × Option PublicationDraft}
    (h : FinalizedBy nfc command outcomes now facts result) :
    ∃ outcome ∈ outcomes, outcome.runId = facts.run.id ∧ result.1.id = facts.run.id ∧
      result.1.status = outcome.terminalStatus ∧ RunStatus.Finished outcome.terminalStatus := by
  obtain ⟨outcome, hfind, hprepare⟩ := h
  obtain ⟨_, hverify, observedAt, retryAfterAt, _, _, hresult⟩ := prepareRun_eq_ok.mp hprepare
  refine ⟨outcome, List.mem_of_find?_eq_some hfind, by simpa using List.find?_some hfind, ?_, ?_,
    verifyOutcome_finished hverify⟩
  · rw [hresult]; rfl
  · rw [hresult]; rfl

theorem mem_byRunId {runs : List RunCompletionFacts} {facts : RunCompletionFacts} :
    facts ∈ byRunId runs ↔ facts ∈ runs := List.mem_insertionSort _

theorem planned_statuses {context : CompletionContext} {outcomes : List CompletionSourceOutcome}
    {requestHash : Digest} {plan : CompletionPlan}
    {results : List (RunState × Option PublicationDraft)}
    (h : Planned nfc context outcomes requestHash plan results) (s : RunStatus) :
    s ∈ plan.runs.map (·.status) ↔ s ∈ outcomes.map (·.terminalStatus) := by
  rw [h.runs, List.map_map]
  constructor
  · intro hs
    obtain ⟨result, hresult, rfl⟩ := List.mem_map.mp hs
    obtain ⟨facts, _, hfinal⟩ := forall₂_mem_right h.finalized result hresult
    obtain ⟨outcome, hmem, _, _, hstatus, _⟩ := finalizedBy_fields hfinal
    exact List.mem_map.mpr ⟨outcome, hmem, hstatus.symm⟩
  · intro hs
    obtain ⟨outcome, hmem, rfl⟩ := List.mem_map.mp hs
    have hid : outcome.runId ∈ context.runs.map (·.run.id) :=
      h.sameSet.2.2.2 _ (List.mem_map_of_mem hmem)
    obtain ⟨facts, hfacts, hrun⟩ := List.mem_map.mp hid
    obtain ⟨result, hresult, hfinal⟩ :=
      forall₂_mem_left h.finalized facts (mem_byRunId.mpr hfacts)
    obtain ⟨other, hother, hotherRun, _, hstatus, _⟩ := finalizedBy_fields hfinal
    have hsame : other = outcome :=
      List.inj_on_of_nodup_map h.sameSet.2.1 hother hmem (hotherRun.trans hrun)
    exact List.mem_map.mpr ⟨result, hresult, by rw [← hsame]; exact hstatus⟩

theorem planned_commandStatus {context : CompletionContext}
    {outcomes : List CompletionSourceOutcome} {requestHash : Digest} {plan : CompletionPlan}
    {results : List (RunState × Option PublicationDraft)}
    (h : Planned nfc context outcomes requestHash plan results) :
    plan.commandStatus = aggregateOf (outcomes.map (·.terminalStatus)) := by
  obtain ⟨_, _, hstatus⟩ := aggregateCommandStatus_eq_ok.mp h.status
  rw [hstatus, aggregateOf_congr (planned_statuses h)]

theorem prepareCompletion_eq_ok {context : CompletionContext} {request : CompletionRequest}
    {plan : CompletionPlan} : prepareCompletion nfc context request = .ok plan ↔
      (context.command.status = .running ∧ context.command.attempt = request.attempt ∧
        tokenMatches request.leaseToken context.command.leaseHash) ∧
      ∃ results, Planned nfc context request.sourceOutcomes (completionRequestHash nfc request)
        plan results := by
  rw [prepareCompletion, require_bind, prepareServerCompletion_eq_ok]

end Specifications

end PredictionMarketMonitor.Completion
