import PredictionMarketMonitor.CommandStore

set_option autoImplicit false

/-!
# Page and skip-decision transactions

`page_context_store.py`, `page_store.py`, `skip_decision_store.py` and
`skip_decision_proofs.py`. A row that a query expects to be there and is not
fails the transaction like a refused write.
-/
namespace PredictionMarketMonitor.PageStore

open CanonicalJson CivilTime ClaimPolicy CollectionBase CollectionModels CommandStore
open ControlPlaneTables Dispatch FallibleSteps KeyedTable PageCommit PageStreams Sha256

section Pages
variable (svc : Service)

/-- The locked run with its recomputed counters, its checkpoint and its pages. -/
def lockedStream (db : Database) (runId : UUID) : Result PageStream := do
  let run ← present (db.runs.find? runId) (fail .leaseOrAttemptMismatch 409)
  let checkpoint ← present (db.checkpoints.find? (run.sourceId, run.scopeVersion)) .integrity
  let commits := db.commitsOf run.id
  return {
    run := { run with
      acceptedCount := (commits.map (·.acceptedCount)).sum
      duplicateCount := (commits.map (·.duplicateCount)).sum
      rejectedCount := (commits.map (·.rejectedCount)).sum }
    checkpoint := checkpoint
    commits := commits }

/-- The active decision of a source, or its latest one when none is active. -/
def pageAuthorization (db : Database) (sourceId : UUID) : Result AuthorizationSnapshot := do
  let source ← present (db.sources.find? sourceId) .integrity
  let candidates := db.authorizations.rows.filter (fun d => d.sourceId = sourceId)
  let decision ← present
    (match source.activeAuthorizationId with
    | some id => candidates.find? (fun d => d.id = id)
    | none => (candidates.insertionSort (fun a b => b.decidedAt ≤ a.decidedAt)).head?)
    (fail .sourceAuthorizationInactive 403)
  return authorizationSnapshot source decision (currentlyEnabled source decision)

def existingPosts (db : Database) (sourceId : UUID) (sourcePostIds : List String) :
    List ExistingPostVersion :=
  (db.posts.rows.filter (fun p => p.sourceId = sourceId ∧
    p.current.sourcePostId ∈ sourcePostIds)).map (·.current)

def lockedPageCall (db : Database) (stream : PageStream) (request : PageCommitRequest)
    (now : Instant) (newId : ℕ → UUID) : Result PageCall := do
  let command ← present (db.commands.find? stream.run.commandId) .integrity
  let pageCap ← present stream.run.reviewedPageCap (fail .invalidContract 409)
  let postCap ← present stream.run.reviewedPostCap (fail .invalidContract 409)
  require ((0 < pageCap ∧ pageCap ≤ svc.reviewedPageCap) ∧
    (0 < postCap ∧ postCap ≤ svc.reviewedPostCap)) (fail .invalidContract 409)
  let authorization ← pageAuthorization db stream.run.sourceId
  return {
    dbNow := now
    command := command.state
    authorization := authorization
    existingPosts := existingPosts db stream.run.sourceId
      (request.posts.map PagePostInput.sourcePostId)
    reviewedPageCap := pageCap
    reviewedPostCap := postCap
    request := request
    newId := newId }

/-- The version an accepted item leaves as the current one of its post. -/
def acceptedVersion (item : PageItemPlan) : Option ExistingPostVersion :=
  match item.disposition, item.postId, item.postVersionId, item.revision with
  | .accepted, some postId, some versionId, some revision =>
    some ⟨item.normalizedItem.sourcePostId, postId, versionId, item.normalizedContentHash, revision⟩
  | _, _, _, _ => none

def storePost (posts : Table (fun row : PostRow => (row.sourceId, row.current.sourcePostId)))
    (sourceId : UUID) (current : ExistingPostVersion) :
    Table (fun row : PostRow => (row.sourceId, row.current.sourcePostId)) :=
  (posts.insert? ⟨sourceId, current⟩).getD
    (posts.update (sourceId, current.sourcePostId)
      (fun row => { row with
        current := { current with sourcePostId := row.current.sourcePostId } }) (fun _ => rfl))

def storeItems (db : Database) (sourceId commitId : UUID) (items : List PageItemPlan) : Database :=
  { db with
    posts := (items.filterMap acceptedVersion).foldl (fun posts v => storePost posts sourceId v)
      db.posts
    observedItems := db.observedItems ++ items.filterMap (fun item =>
      item.postVersionId.map (fun id => ⟨commitId, ⟨id, item.normalizedContentHash⟩⟩)) }

/-- What the database asks of a new page and of the running row it advances. -/
def PageAdmitted (db : Database) (commit : PageCommitRecord) (sourceId : UUID) (now : Instant) :
    Prop :=
  db.SourceRunnable sourceId now ∧
    ∀ c ∈ db.commits.rows, c.runId = commit.runId →
      c.pageIdempotencyKey ≠ commit.pageIdempotencyKey ∧ c.pageOrdinal ≠ commit.pageOrdinal ∧
        ¬(c.isTerminalPage = true ∧ commit.isTerminalPage = true)

instance (db : Database) (commit : PageCommitRecord) (sourceId : UUID) (now : Instant) :
    Decidable (PageAdmitted db commit sourceId now) :=
  inferInstanceAs (Decidable (_ ∧ _))

def executePageCommit (db : Database) (runId : UUID) (request : PageCommitRequest)
    (clock : ℕ → Instant) (newId : ℕ → UUID) : Result (Database × PageCommitOutcome) := do
  let stream ← lockedStream db runId
  let call ← lockedPageCall svc db stream request (clock 0) newId
  let plan ← preparePageCommit svc.toRuntime (stream.context call) request newId
  if plan.shouldPersist = false then
    return (db, plan.outcome)
  require (PageAdmitted db plan.commit stream.run.sourceId (clock 1)) .integrity
  let commits ← present (db.commits.insert? plan.commit) .integrity
  let stored := storeItems { db with commits := commits } stream.run.sourceId plan.commit.id
    plan.items
  return ((stored.setCheckpoint plan.updatedCheckpoint).setRun plan.updatedRun, plan.outcome)

end Pages

section Skips
variable (svc : Service)

inductive SkipHttpStatus
  | unauthorized | forbidden | tooManyRequests
deriving DecidableEq

def SkipHttpStatus.value : SkipHttpStatus → ℕ
  | .unauthorized => 401
  | .forbidden => 403
  | .tooManyRequests => 429

/-- The failure code that the payload validator pairs with the status. -/
def SkipHttpStatus.failureCode : SkipHttpStatus → String
  | .unauthorized | .forbidden => "provider_authorization_rejected"
  | .tooManyRequests => "provider_quota_exhausted"

structure SkipDecisionOperation where
  runId : UUID
  commandId : UUID
  attempt : ℕ
  leaseToken : String
  idempotencyKey : UUID
  provider : SourcePlatform
  route : String
  httpStatus : SkipHttpStatus

def skipRequestHash (op : SkipDecisionOperation) : Digest :=
  canonicalJsonHash svc.nfc (.object
    [("attempt", .ofNat op.attempt), ("command_id", op.commandId.json),
     ("failure_code", .ofString op.httpStatus.failureCode),
     ("http_status", .ofNat op.httpStatus.value), ("idempotency_key", op.idempotencyKey.json),
     ("provider", .ofString op.provider.value), ("route", .ofString op.route)])

def skipEvidenceHash (op : SkipDecisionOperation) : Digest :=
  canonicalJsonHash svc.nfc (.object
    [("attempt", .ofNat op.attempt), ("command_id", op.commandId.json),
     ("failure_code", .ofString op.httpStatus.failureCode),
     ("http_status", .ofNat op.httpStatus.value), ("provider", .ofString op.provider.value),
     ("route", .ofString op.route), ("run_id", op.runId.json)])

def SkipLive (run : RunState) (command : CommandState) (op : SkipDecisionOperation)
    (now : Instant) : Prop :=
  command.attempt = op.attempt ∧ run.status = .running ∧ command.status = .running ∧
    tokenMatches op.leaseToken command.leaseHash ∧
    hashToken op.leaseToken = run.leaseIdentityHash ∧
    now - run.heartbeatAt ≤ seconds executionStaleSeconds

instance (run : RunState) (command : CommandState) (op : SkipDecisionOperation) (now : Instant) :
    Decidable (SkipLive run command op now) :=
  inferInstanceAs (Decidable (_ ∧ _))

def SkipEmpty (run : RunState) : Prop :=
  run.committedPageCount = 0 ∧ run.lastPageCommitId = none ∧ run.terminalPageCommitId = none ∧
    run.pageReservationId = none ∧ run.skipAuthorizationDecisionId = none ∧
    run.skipBudgetDecisionId = none

instance (run : RunState) : Decidable (SkipEmpty run) := inferInstanceAs (Decidable (_ ∧ _))

def currentAuthorization (db : Database) (run : RunState) (now : Instant) :
    Result (SourceRow × AuthorizationRow) := do
  let source ← present (db.sources.find? run.sourceId) .integrity
  let decision ← present
    ((source.activeAuthorizationId.bind db.authorizations.find?).filter
      (fun d => d.sourceId = source.id)) (fail .sourceAuthorizationInactive 403)
  require (some decision.id = run.authorizationDecisionId) (fail .sourceAuthorizationInactive 403)
  let _ ← requireActiveAuthorization
    (authorizationSnapshot source decision (currentlyEnabled source decision)) run.sourceId
    run.scopeVersion now
  return (source, decision)

/-- A server-derived revocation; the source is disabled and points to it. -/
def attachPolicyProof (db : Database) (source : SourceRow) (current : AuthorizationRow)
    (run : RunState) (now : Instant) (decisionId : UUID) : Result Database := do
  let authorizations ← present (db.authorizations.insert? {
    id := decisionId, sourceId := source.id, status := .revoked
    permittedRoutes := current.permittedRoutes, effectiveAt := now
    expiresAt := current.expiresAt, revokedAt := some now, decidedAt := now }) .integrity
  require (svc.flushesPolicyProof = true) .integrity
  return { db with
    authorizations := authorizations
    sources := db.sources.update source.id (fun s => { s with
      enabled := false
      activeAuthorizationId := some decisionId }) (fun _ => rfl)
    runs := db.runs.update run.id (fun r => { r with
      skipAuthorizationDecisionId := some decisionId }) (fun _ => rfl) }

/-- A 429 is promoted only when a current reviewed budget period is exhausted. -/
def attachQuotaProof (db : Database) (source : SourceRow) (run : RunState)
    (now statementNow : Instant) (decisionId : UUID) : Result Database := do
  let current ← present ((run.budgetDecisionId.bind db.budgetDecisions.find?).filter
    (fun d => d.sourceId = some run.sourceId)) (fail .invalidContract 409)
  let record ← present (db.budgetRecords.find? current.budgetRecordId) .integrity
  require (record.provider = source.platform ∧ record.billingPeriodStart ≤ now ∧
    now < record.billingPeriodEnd) (fail .invalidContract 409)
  let decision ← deriveClaimBudget record.facts (max 1 current.reviewedPageCap)
    (max 1 current.reviewedPostCap)
  require (decision.status = .hardStop) (fail .invalidContract 409)
  let budgetDecisions ← present (db.budgetDecisions.insert? {
    id := decisionId, budgetRecordId := record.id, sourceId := some source.id
    status := .hardStop, reviewedPageCap := 0, reviewedPostCap := 0 }) .integrity
  require (db.SourceRunnable run.sourceId statementNow) .integrity
  return { db with
    budgetDecisions := budgetDecisions
    runs := db.runs.update run.id (fun r => { r with
      skipBudgetDecisionId := some decisionId }) (fun _ => rfl) }

def attachProof (db : Database) (source : SourceRow) (current : AuthorizationRow)
    (run : RunState) (op : SkipDecisionOperation) (now statementNow : Instant)
    (decisionId : UUID) : Result Database :=
  match op.httpStatus with
  | .unauthorized | .forbidden => attachPolicyProof svc db source current run now decisionId
  | .tooManyRequests => attachQuotaProof db source run now statementNow decisionId

def skipStatus : SkipHttpStatus → RunStatus
  | .unauthorized | .forbidden => .skippedPolicy
  | .tooManyRequests => .skippedQuota

/-- Attach exactly one proof after all ownership and evidence locks pass. -/
def attachSkipDecision (db : Database) (op : SkipDecisionOperation) (clock : ℕ → Instant)
    (ids : FreshIds) : Result (Database × ℕ × Bytes) := do
  let run ← present ((db.runs.find? op.runId).filter
    (fun r => r.commandId = op.commandId ∧ r.attempt = op.attempt))
    (fail .leaseOrAttemptMismatch 409)
  let command ← present ((db.commands.find? op.commandId).filter
    (fun c => c.state.attempt = op.attempt)) .integrity
  require (hashToken op.leaseToken = run.leaseIdentityHash) (fail .leaseOrAttemptMismatch 409)
  match db.skipObservations.find? (run.id, op.idempotencyKey) with
  | some existing => do
    require (existing.requestHash = skipRequestHash svc op) (fail .idempotencyKeyReused 409)
    require (svc.parseSkipResponse existing.storedResponse = true) .validation
    return (db, 200, existing.storedResponse)
  | none => do
    require (SkipLive run command.state op (clock 0)) (fail .leaseOrAttemptMismatch 409)
    require (SkipEmpty run) (fail .completionMismatch 409)
    require (db.commitsOf run.id = []) (fail .completionMismatch 409)
    let current ← currentAuthorization db run (clock 0)
    let snapshot ← present run.authorizationSnapshot (fail .sourceAuthorizationInactive 403)
    require (current.1.platform = op.provider ∧ op.route ∈ snapshot.permittedRoutes)
      (fail .sourceAuthorizationInactive 403)
    let proved ← attachProof svc db current.1 current.2 run op (clock 0) (clock 1) ids.skipDecision
    let response := svc.dumpSkipResponse ids.skipDecision (skipStatus op.httpStatus)
      (skipEvidenceHash svc op)
    let skipObservations ← present (proved.skipObservations.insert? {
      runId := run.id, idempotencyKey := op.idempotencyKey
      requestHash := skipRequestHash svc op, decisionId := ids.skipDecision
      storedResponse := response }) .integrity
    return ({ proved with skipObservations := skipObservations }, 201, response)

end Skips

end PredictionMarketMonitor.PageStore
