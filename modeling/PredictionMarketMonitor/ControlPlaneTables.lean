import PredictionMarketMonitor.CommandLifecycle
import PredictionMarketMonitor.KeyedTable

set_option autoImplicit false

/-!
# The control-plane database

The rows that collection transactions lock, read and write (`app/db`,
`orm_state.py`), with the database checks a transaction can run into: primary
keys, the unique constraints of runs, and the authorization trigger. A clock
value is read from the database clock at each point where the code reads it.
-/
namespace PredictionMarketMonitor.ControlPlaneTables

open CivilTime ClaimPolicy CollectionBase CollectionModels Completion FallibleSteps KeyedTable
open Sha256

structure SourceRow where
  id : UUID
  platform : SourcePlatform
  scopeVersion : String
  enabled : Bool
  activeAuthorizationId : Option UUID
deriving DecidableEq

/-- The permitted routes are absent when the stored scope is not a valid
    authorization document. -/
structure AuthorizationRow where
  id : UUID
  sourceId : UUID
  status : AuthorizationStatus
  permittedRoutes : Option (List String)
  effectiveAt : Instant
  expiresAt : Option Instant
  revokedAt : Option Instant
  decidedAt : Instant
deriving DecidableEq

structure BudgetRecordRow where
  id : UUID
  provider : SourcePlatform
  billingPeriodStart : Instant
  billingPeriodEnd : Instant
  verifiedAt : Instant
  facts : BudgetRecordFacts
deriving DecidableEq

structure BudgetDecisionRow where
  id : UUID
  budgetRecordId : UUID
  sourceId : Option UUID
  status : BudgetDecisionStatus
  reviewedPageCap : ℕ
  reviewedPostCap : ℕ
deriving DecidableEq

structure CommandRow where
  state : CommandState
  sourceSetHash : Digest
  createdAt : Instant
deriving DecidableEq

structure PostRow where
  sourceId : UUID
  current : ExistingPostVersion
deriving DecidableEq

structure ObservedItemRow where
  pageCommitId : UUID
  version : ObservedPostVersion
deriving DecidableEq

structure PublicationSequenceRow where
  sourceId : UUID
  currentSequence : ℕ
deriving DecidableEq

structure PublicationManifestRow where
  draft : PublicationDraft
  sequence : ℕ
  committedAt : Instant
deriving DecidableEq

structure CommandCompletionRow where
  commandId : UUID
  attempt : ℕ
  completionIdempotencyKey : UUID
  requestHash : Digest
  responsePayload : Bytes
deriving DecidableEq

structure SkipObservationRow where
  runId : UUID
  idempotencyKey : UUID
  requestHash : Digest
  decisionId : UUID
  storedResponse : Bytes
deriving DecidableEq

def CheckpointState.key (c : CheckpointState) : UUID × String := (c.sourceId, c.scopeVersion)

structure Database where
  sources : Table SourceRow.id
  authorizations : Table AuthorizationRow.id
  budgetRecords : Table BudgetRecordRow.id
  budgetDecisions : Table BudgetDecisionRow.id
  commands : Table (fun row : CommandRow => row.state.id)
  checkpoints : Table CheckpointState.key
  runs : Table RunState.id
  commits : Table PageCommitRecord.id
  observedItems : List ObservedItemRow
  posts : Table (fun row : PostRow => (row.sourceId, row.current.sourcePostId))
  sequences : Table PublicationSequenceRow.sourceId
  manifests : Table (fun row : PublicationManifestRow => row.draft.runId)
  completions : Table (fun row : CommandCompletionRow =>
    (row.commandId, row.completionIdempotencyKey))
  skipObservations : Table (fun row : SkipObservationRow => (row.runId, row.idempotencyKey))

/-- Server configuration, the boundary parsers, and what a flush of a policy
    proof comes to: the order in which the unit of work sends its row changes
    decides whether the triggers accept them. -/
structure Service extends Runtime where
  reviewedPageCap : ℕ
  reviewedPostCap : ℕ
  retryJitterKey : Bytes
  flushesPolicyProof : Bool
  dumpSkipResponse : UUID → RunStatus → Digest → Bytes
  parseSkipResponse : Bytes → Bool

/-- The identities a transaction draws, by the row they are drawn for. -/
structure FreshIds where
  run : UUID → UUID
  checkpoint : UUID → UUID
  budgetDecision : UUID → UUID
  page : ℕ → UUID
  skipDecision : UUID

def applyCommandState (row state : CommandState) : CommandState :=
  { row with
    status := state.status
    attempt := state.attempt
    availableAt := state.availableAt
    reservationStartedAt := state.reservationStartedAt
    reservationNonceHash := state.reservationNonceHash
    dispatchedAt := state.dispatchedAt
    claimedAt := state.claimedAt
    heartbeatAt := state.heartbeatAt
    completedAt := state.completedAt
    leaseHash := state.leaseHash
    githubRunId := state.githubRunId
    githubRunAttempt := state.githubRunAttempt
    outcomeCode := state.outcomeCode
    errorFingerprint := state.errorFingerprint }

def applyCheckpointState (row state : CheckpointState) : CheckpointState :=
  { row with
    revision := state.revision
    cursor := state.cursor
    watermarkPublishedAt := state.watermarkPublishedAt
    watermarkSourcePostId := state.watermarkSourcePostId
    lastCompletedRunId := state.lastCompletedRunId }

def applyRunState (row state : RunState) : RunState :=
  { row with
    status := state.status
    committedPageHashChain := state.committedPageHashChain
    nextPageOrdinal := state.nextPageOrdinal
    committedPageCount := state.committedPageCount
    lastPageCommitId := state.lastPageCommitId
    finalPageOrdinal := state.finalPageOrdinal
    finalCursor := state.finalCursor
    terminalPageCommitId := state.terminalPageCommitId
    terminalPageOrdinal := state.terminalPageOrdinal
    terminalCursor := state.terminalCursor
    terminalReason := state.terminalReason
    terminalChainHash := state.terminalChainHash
    completionReadyAt := state.completionReadyAt
    failureClass := state.failureClass
    failureCode := state.failureCode
    failureFingerprint := state.failureFingerprint
    failureObservedAt := state.failureObservedAt
    retryAfterAt := state.retryAfterAt
    finalizedAt := state.finalizedAt
    finishedAt := state.finishedAt }

theorem applyCommandState_id (row state : CommandState) :
    (applyCommandState row state).id = row.id := rfl

theorem applyCheckpointState_key (row state : CheckpointState) :
    CheckpointState.key (applyCheckpointState row state) = CheckpointState.key row := rfl

theorem applyRunState_id (row state : RunState) : (applyRunState row state).id = row.id := rfl

namespace Database

def setCommand (db : Database) (state : CommandState) : Database :=
  { db with
    commands := db.commands.update state.id
      (fun row => { row with state := applyCommandState row.state state })
      (fun row => applyCommandState_id row.state state) }

def setRun (db : Database) (state : RunState) : Database :=
  { db with
    runs := db.runs.update state.id (fun row => applyRunState row state)
      (fun row => applyRunState_id row state) }

def setCheckpoint (db : Database) (state : CheckpointState) : Database :=
  { db with
    checkpoints := db.checkpoints.update (CheckpointState.key state)
      (fun row => applyCheckpointState row state)
      (fun row => applyCheckpointState_key row state) }

def lockedCommand (db : Database) (commandId : UUID) : Result CommandRow :=
  present (db.commands.find? commandId) (fail .leaseOrAttemptMismatch 409)

def runsOf (db : Database) (commandId : UUID) (attempt : ℕ) : List RunState :=
  (db.runs.rows.filter (fun r => r.commandId = commandId ∧ r.attempt = attempt)).insertionSort
    (fun a b => UUID.HexLE a.id b.id)

def commitsOf (db : Database) (runId : UUID) : List PageCommitRecord :=
  byOrdinal (db.commits.rows.filter (fun c => c.runId = runId))

def observedOf (db : Database) (runId : UUID) : List ObservedPostVersion :=
  (db.observedItems.filter (fun item => ∃ c ∈ db.commits.rows, c.id = item.pageCommitId ∧
    c.runId = runId)).map (·.version)

/-- The condition of `trg_collection_runs_authorization` and
    `trg_page_commits_authorization`. -/
def SourceRunnable (db : Database) (sourceId : UUID) (now : Instant) : Prop :=
  ∃ source ∈ db.sources.find? sourceId, source.enabled = true ∧
    ∃ id ∈ source.activeAuthorizationId, ∃ decision ∈ db.authorizations.find? id,
      decision.sourceId = source.id ∧ decision.status = .approved ∧
      decision.effectiveAt ≤ now ∧ (∃ t ∈ decision.expiresAt, now < t) ∧
      decision.revokedAt = none

instance (db : Database) (sourceId : UUID) (now : Instant) :
    Decidable (db.SourceRunnable sourceId now) :=
  inferInstanceAs (Decidable (∃ source ∈ db.sources.find? sourceId, _))

end Database

end PredictionMarketMonitor.ControlPlaneTables
