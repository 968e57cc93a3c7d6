import PredictionMarketMonitor.PageStore

set_option autoImplicit false

/-!
# Completion and reconciliation transactions

`completion_context_store.py`, `completion_plan_store.py`, `completion_store.py`
and `reconciliation_store.py`. A pass over due commands is one transaction: the
first command that fails takes the whole pass with it.
-/
namespace PredictionMarketMonitor.CompletionStore

open CanonicalJson CivilTime ClaimPolicy CollectionBase CollectionModels CommandLifecycle
open CommandStore Completion ControlPlaneTables FallibleSteps KeyedTable Sha256 StaleRecovery

section Context

def RetiredStatus (status : AuthorizationStatus) : Prop :=
  status = .denied ∨ status = .revoked ∨ status = .expired

instance (status : AuthorizationStatus) : Decidable (RetiredStatus status) :=
  inferInstanceAs (Decidable (_ ∨ _))

/-- A decision that was good when the run started, of a source still enabled. -/
def RetiredClaimValid (source : SourceRow) (decision : AuthorizationRow) (run : RunState) : Prop :=
  source.enabled = true ∧ source.scopeVersion = run.scopeVersion ∧ decision.status = .approved ∧
    decision.effectiveAt ≤ run.startedAt ∧ (∃ t ∈ decision.expiresAt, run.startedAt < t) ∧
    ∀ t ∈ decision.revokedAt, run.startedAt < t

instance (source : SourceRow) (decision : AuthorizationRow) (run : RunState) :
    Decidable (RetiredClaimValid source decision run) :=
  inferInstanceAs (Decidable (_ ∧ _))

def completionDecision (db : Database) (source : SourceRow) (run : RunState)
    (allowRetiredClaim : Bool) : Option AuthorizationRow :=
  let authorizationId :=
    if allowRetiredClaim = true ∧ run.skipAuthorizationDecisionId = none then
      run.authorizationDecisionId
    else source.activeAuthorizationId
  (authorizationId.bind db.authorizations.find?).filter (fun d => d.sourceId = source.id)

def requireCompletionAuthorization (db : Database) (run : RunState) (now : Instant)
    (allowRetiredClaim : Bool) : Result Unit := do
  let source ← present (db.sources.find? run.sourceId) .integrity
  let decision := completionDecision db source run allowRetiredClaim
  match run.skipAuthorizationDecisionId with
  | some skipId =>
    require (∃ d ∈ decision, d.id = skipId ∧ source.enabled = false ∧ RetiredStatus d.status)
      (fail .completionMismatch 409)
  | none => do
    let decision ← present decision (fail .sourceAuthorizationInactive 403)
    require (some decision.id = run.authorizationDecisionId) (fail .sourceAuthorizationInactive 403)
    if allowRetiredClaim = true ∧ source.activeAuthorizationId ≠ some decision.id then
      require (RetiredClaimValid source decision run) (fail .sourceAuthorizationInactive 403)
    else
      require (ActiveFor (authorizationSnapshot source decision source.enabled) run.sourceId
        run.scopeVersion now) (fail .sourceAuthorizationInactive 403)

def skipProof (db : Database) (run : RunState) : Result (Option SkipDecisionProof) :=
  match run.skipAuthorizationDecisionId, run.skipBudgetDecisionId with
  | some _, some _ => .error (fail .completionMismatch 409)
  | some authorizationId, none => do
    require (∃ d ∈ db.authorizations.find? authorizationId, d.sourceId = run.sourceId ∧
      RetiredStatus d.status) (fail .completionMismatch 409)
    return some ⟨authorizationId, .skippedPolicy⟩
  | none, some budgetId => do
    require (∃ d ∈ db.budgetDecisions.find? budgetId, d.status = .hardStop ∧
      ∀ sourceId ∈ d.sourceId, sourceId = run.sourceId) (fail .completionMismatch 409)
    return some ⟨budgetId, .skippedQuota⟩
  | none, none => .ok none

def completionFacts (db : Database) (now : Instant) (allowRetiredClaim : Bool) (run : RunState) :
    Result RunCompletionFacts := do
  requireCompletionAuthorization db run now allowRetiredClaim
  let checkpoint ← present (db.checkpoints.find? (run.sourceId, run.scopeVersion)) .integrity
  let proof ← skipProof db run
  return ⟨run, checkpoint, db.commitsOf run.id, db.observedOf run.id, proof⟩

def loadLockedCompletionContext (db : Database) (commandId : UUID) (attempt : ℕ) (now : Instant)
    (allowRetiredClaim : Bool) : Result CompletionContext := do
  let row ← db.lockedCommand commandId
  let runs ← (db.runsOf commandId attempt).mapM (completionFacts db now allowRetiredClaim)
  return ⟨row.state, runs, now⟩

end Context

section Persistence

def nextSequence (db : Database) (sourceId : UUID) : ℕ :=
  ((db.sequences.find? sourceId).map (·.currentSequence)).getD 0 + 1

def advanceSequence (db : Database) (sourceId : UUID) : Table PublicationSequenceRow.sourceId :=
  (db.sequences.insert? ⟨sourceId, nextSequence db sourceId⟩).getD
    (db.sequences.update sourceId (fun row => { row with
      currentSequence := nextSequence db sourceId }) (fun _ => rfl))

def persistPublication (db : Database) (draft : PublicationDraft) (completedAt : Instant) :
    Result (Database × CompletionPublicationResponse) := do
  let sequence := nextSequence db draft.sourceId
  let manifests ← present (db.manifests.insert? ⟨draft, sequence, completedAt⟩) .integrity
  return ({ db with sequences := advanceSequence db draft.sourceId, manifests := manifests },
    { runId := draft.runId
      sourceId := draft.sourceId
      sequence := sequence
      postSetHash := draft.postSetHash
      zeroPost := draft.zeroPost })

def persistPublications (completedAt : Instant) : Database → List PublicationDraft →
    Result (Database × List CompletionPublicationResponse)
  | db, [] => .ok (db, [])
  | db, draft :: rest => do
    let published ← persistPublication db draft completedAt
    let others ← persistPublications completedAt published.1 rest
    return (others.1, published.2 :: others.2)

/-- One finalized run; a success becomes the last completed run of its checkpoint. -/
def persistRun (facts : List RunCompletionFacts) (db : Database) (state : RunState) : Database :=
  if state.status = .succeeded then
    match facts.find? (fun f => f.run.id = state.id) with
    | some f => (db.setRun state).setCheckpoint
        { f.checkpoint with lastCompletedRunId := some state.id }
    | none => db.setRun state
  else db.setRun state

def persistCompletionPlan (db : Database) (context : CompletionContext) (plan : CompletionPlan)
    (retryJitterKey : Bytes) : Result (Database × List CompletionPublicationResponse) := do
  let published ← persistPublications plan.completedAt db plan.publications
  require (∀ state ∈ plan.runs, RunStatus.Finished state.status) (fail .invalidTransition 409)
  let finalized := plan.runs.foldl (persistRun context.runs) published.1
  let command ← completedCommand context.command plan retryJitterKey
  return (finalized.setCommand command, published.2)

end Persistence

section Completion
variable (svc : Service)

def CompletionPublicationResponse.json (p : CompletionPublicationResponse) : Json := .object
  [("run_id", p.runId.json), ("source_id", p.sourceId.json), ("sequence", .ofNat p.sequence),
   ("post_set_hash", Digest.json p.postSetHash), ("zero_post", .bool p.zeroPost)]

def CompletionResponse.json (response : CompletionResponse) : Json := .object
  [("command_id", response.commandId.json), ("status", .ofString response.status.value),
   ("completed_at", .str (Datetime.json (Datetime.utc response.completedAt))),
   ("publications", .list (response.publications.map CompletionPublicationResponse.json))]

def completionResponse (commandId : UUID) (plan : CompletionPlan)
    (publications : List CompletionPublicationResponse) : CompletionResponse where
  commandId := commandId
  status := plan.commandStatus
  completedAt := plan.completedAt
  publications := publications

def completionResponseBytes (response : CompletionResponse) : Bytes :=
  canonicalBytes svc.nfc (CompletionResponse.json response)

def replayCompletion (db : Database) (receipt : CommandCompletionRow) (requestHash : Digest) :
    Result (Database × CompletionOutcome) := do
  require (receipt.requestHash = requestHash) (fail .completionIdempotencyMismatch 409)
  let response ← present (svc.parseCompletionResponse receipt.responsePayload) .validation
  return (db, ⟨200, response, receipt.responsePayload⟩)

def finalizeCommand (db : Database) (commandId : UUID) (request : CompletionRequest)
    (now : Instant) : Result (Database × CompletionOutcome) := do
  let context ← loadLockedCompletionContext db commandId request.attempt now false
  let plan ← prepareCompletion svc.nfc context request
  let persisted ← persistCompletionPlan db context plan svc.retryJitterKey
  let response := completionResponse commandId plan persisted.2
  let payload := completionResponseBytes svc response
  let completions ← present (persisted.1.completions.insert? {
    commandId := commandId, attempt := request.attempt
    completionIdempotencyKey := request.completionIdempotencyKey
    requestHash := completionRequestHash svc.nfc request
    responsePayload := payload }) .integrity
  return ({ persisted.1 with completions := completions }, ⟨200, response, payload⟩)

def executeCompletion (db : Database) (commandId : UUID) (request : CompletionRequest)
    (now : Instant) : Result (Database × CompletionOutcome) := do
  let row ← db.lockedCommand commandId
  require (row.state.attempt = request.attempt ∧
    tokenMatches request.leaseToken row.state.leaseHash) (fail .leaseOrAttemptMismatch 409)
  match db.completions.find? (commandId, request.completionIdempotencyKey) with
  | some receipt => replayCompletion svc db receipt (completionRequestHash svc.nfc request)
  | none => finalizeCommand svc db commandId request now

end Completion

section Reconciliation
variable (svc : Service)

def reconcileRow (db : Database) (commandId : UUID) (now contextNow : Instant) :
    Result Database := do
  let row ← present (db.commands.find? commandId) .integrity
  if (row.state.status = .running ∨ row.state.status = .staleAbandoned) ∧
      db.runsOf commandId row.state.attempt ≠ [] then
    let context ← loadLockedCompletionContext db commandId row.state.attempt contextNow true
    match ← prepareStaleRecovery svc.nfc context svc.retryJitterKey with
    | none => return db
    | some plan =>
      let persisted ← persistCompletionPlan db context plan svc.retryJitterKey
      return persisted.1
  else
    let state ← releaseCommand row.state now svc.retryJitterKey
    return db.setCommand state

/-- Every row in turn; `clock k` is the reading behind the `k`-th locked context. -/
def reconcileRows (now : Instant) (clock : ℕ → Instant) : ℕ → Database → List UUID →
    Result Database
  | _, db, [] => .ok db
  | k, db, commandId :: rest => do
    let next ← reconcileRow svc db commandId now (clock k)
    reconcileRows now clock (k + 1) next rest

def reconcilableRows (db : Database) (scopeVersion : String) : List CommandRow :=
  (db.commands.rows.filter (fun row => row.state.scopeVersion = scopeVersion ∧
    Reconcilable row.state.status)).insertionSort
      (fun a b => a.createdAt < b.createdAt ∨
        (a.createdAt = b.createdAt ∧ UUID.HexLE a.state.id b.state.id))

def dueCommands (db : Database) (scopeVersion : String) (now : Instant) : List UUID :=
  ((db.commands.rows.filter (fun row => row.state.scopeVersion = scopeVersion ∧
    Due row.state now)).insertionSort
      (fun a b => a.state.availableAt < b.state.availableAt ∨
        (a.state.availableAt = b.state.availableAt ∧ UUID.HexLE a.state.id b.state.id))).map
    (fun row => row.state.id)

/-- Reconcile stale commands, then return every database-time due command. -/
def recoverDueCommands (db : Database) (scopeVersion : String) (clock : ℕ → Instant) :
    Result (Database × List UUID) := do
  let rows := reconcilableRows db scopeVersion
  let reconciled ← reconcileRows svc (clock 0) clock 1 db (rows.map (fun row => row.state.id))
  return (reconciled, dueCommands reconciled scopeVersion (clock 0))

end Reconciliation

end PredictionMarketMonitor.CompletionStore
