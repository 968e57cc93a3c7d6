import PredictionMarketMonitor.PostArchive
import PredictionMarketMonitor.Receipts
import PredictionMarketMonitor.VerificationSnapshots

set_option autoImplicit false

/-!
# Recording cadence workflow attempts

`services/release/cadence_workflow_*.py` over the tables of
`release_cadence_models.py`. One delivery is one transaction under the advisory
lock of its epoch.
-/
namespace PredictionMarketMonitor.CadenceAttempts

open CanonicalJson CivilTime CollectionBase FallibleSteps KeyedTable Sha256
open JsonReader (Document document)
open PostArchive (isoformat)

inductive ScheduleKind
  | collection | verifier
deriving DecidableEq

def ScheduleKind.value : ScheduleKind → String
  | .collection => "collection"
  | .verifier => "verifier"

inductive WorkflowMode
  | schedule | retry | manual
deriving DecidableEq

inductive WorkflowFile
  | collect | verify
deriving DecidableEq

def WorkflowFile.value : WorkflowFile → String
  | .collect => "collect.yml"
  | .verify => "verify.yml"

inductive WorkflowEvent
  | schedule | workflowDispatch
deriving DecidableEq

inductive ProtectedEnvironment
  | productionCollector | productionVerifier
deriving DecidableEq

inductive SourceStatus
  | succeeded | failed
deriving DecidableEq

inductive SourceCode
  | ok | transientTimeout | transientTransport | operationRejected | unexpectedFailure
deriving DecidableEq

def SourceCode.value : SourceCode → String
  | .ok => "ok"
  | .transientTimeout => "transient_timeout"
  | .transientTransport => "transient_transport"
  | .operationRejected => "operation_rejected"
  | .unexpectedFailure => "unexpected_failure"

inductive RetryClassification
  | notApplicable | safeTerminal | hold
deriving DecidableEq

def expectedFailureHash (sourceId : UUID) (code : SourceCode) : Digest :=
  sha256 (encodeText ("cadence-operation-source.v1".toList ++ Char.ofNat 0 :: sourceId.str ++
    Char.ofNat 0 :: code.value.toList))

structure SourceResult where
  sourceId : UUID
  status : SourceStatus
  code : SourceCode
  retryClassification : RetryClassification
  receiptSha256 : Digest
  closed : (status = .succeeded ∧ code = .ok ∧ retryClassification = .notApplicable) ∨
    (status = .failed ∧ (code = .transientTimeout ∨ code = .transientTransport) ∧
      retryClassification = .safeTerminal) ∨
    (status = .failed ∧ (code = .operationRejected ∨ code = .unexpectedFailure) ∧
      retryClassification = .hold)
  hashBound : status = .succeeded ∨ receiptSha256 = expectedFailureHash sourceId code

def SourceResult.projection (r : SourceResult) : UUID × Bool × Digest :=
  (r.sourceId, decide (r.status = .succeeded), r.receiptSha256)

abbrev SlotKey := UUID × ScheduleKind × Text

/-- The fields that only the identity check reads are left out. -/
structure CadenceWorkflowAttemptRequest where
  workflow : WorkflowFile
  event : WorkflowEvent
  environment : ProtectedEnvironment
  runId : ℕ
  runAttempt : ℕ
  epochId : UUID
  scheduleKind : ScheduleKind
  slotKey : Text
  workflowMode : WorkflowMode
  cadenceAttempt : ℕ
  failedPredecessorAttemptId : Option UUID
  startedAt : Datetime
  completedAt : Datetime
  sourceResults : List SourceResult
  positive : 0 < runId ∧ 0 < runAttempt
  pair : sourceResults.length = 2
  branch : (cadenceAttempt = 1 ∧ failedPredecessorAttemptId = none) ∨
    (cadenceAttempt = 2 ∧ failedPredecessorAttemptId ≠ none)

namespace CadenceWorkflowAttemptRequest

def slot (p : CadenceWorkflowAttemptRequest) : SlotKey := (p.epochId, p.scheduleKind, p.slotKey)

/-- `_attempt_id`. -/
def attemptId (p : CadenceWorkflowAttemptRequest) : UUID :=
  uuid5 namespaceUrl ("cadence|".toList ++ p.epochId.str ++ '|' :: p.scheduleKind.value.toList ++
    '|' :: p.slotKey ++ '|' :: p.workflow.value.toList ++ '|' :: decimal p.runId ++
    '|' :: decimal p.runAttempt)

end CadenceWorkflowAttemptRequest

inductive Reason
  | epochInvalidated | sourceSetMismatch | sourceFailed | manualModeExcluded
  | duplicateAfterAcceptance | initialAttemptIdentityInvalid | retryProofRequired
  | retryProofInvalid | initialAttemptAlreadyRecorded | retryAttemptAlreadyRecorded
  | startedEarly | startedLate | completedBeforeStart | completedLate | eligible | accepted
deriving DecidableEq

def Reason.value : Reason → String
  | .epochInvalidated => "epoch_invalidated"
  | .sourceSetMismatch => "source_set_mismatch"
  | .sourceFailed => "source_failed"
  | .manualModeExcluded => "manual_mode_excluded"
  | .duplicateAfterAcceptance => "duplicate_after_acceptance"
  | .initialAttemptIdentityInvalid => "initial_attempt_identity_invalid"
  | .retryProofRequired => "retry_proof_required"
  | .retryProofInvalid => "retry_proof_invalid"
  | .initialAttemptAlreadyRecorded => "initial_attempt_already_recorded"
  | .retryAttemptAlreadyRecorded => "retry_attempt_already_recorded"
  | .startedEarly => "started_early"
  | .startedLate => "started_late"
  | .completedBeforeStart => "completed_before_start"
  | .completedLate => "completed_late"
  | .eligible => "eligible"
  | .accepted => "accepted"

structure CadenceEpochContract where
  cadenceEpochId : UUID
  epochSha256 : Digest
  dcinsideSourceId : UUID
  manifoldSourceId : UUID
  bindingSha256 : Digest
  scopeSha256 : Digest
  invalidatedAt : Option Instant
  distinct : dcinsideSourceId ≠ manifoldSourceId

structure CadenceWorkflowSlot where
  cadenceEpochId : UUID
  scheduleKind : ScheduleKind
  slotKey : Text
  dueAt : Instant
  acceptedAttemptId : Option UUID
deriving DecidableEq

def CadenceWorkflowSlot.key (s : CadenceWorkflowSlot) : SlotKey :=
  (s.cadenceEpochId, s.scheduleKind, s.slotKey)

def CadenceWorkflowSlot.accept (s : CadenceWorkflowSlot) (id : UUID) : CadenceWorkflowSlot :=
  { s with acceptedAttemptId := some id }

theorem CadenceWorkflowSlot.key_accept (id : UUID) (s : CadenceWorkflowSlot) :
    (s.accept id).key = s.key := rfl

structure CadenceWorkflowAttempt where
  attemptId : UUID
  cadenceEpochId : UUID
  scheduleKind : ScheduleKind
  slotKey : Text
  workflowMode : WorkflowMode
  workflowFile : WorkflowFile
  workflowRunId : ℕ
  workflowRunAttempt : ℕ
  cadenceAttempt : ℕ
  failedPredecessorAttemptId : Option UUID
  startedAt : Instant
  completedAt : Instant
  epochSha256 : Digest
  bindingSha256 : Digest
  scopeSha256 : Digest
  eligible : Bool
  accepted : Bool
  reasonCode : Reason
  retryPermitted : Bool
  createdAtDb : Instant
deriving DecidableEq

namespace CadenceWorkflowAttempt

def slot (a : CadenceWorkflowAttempt) : SlotKey := (a.cadenceEpochId, a.scheduleKind, a.slotKey)

def workflowRun (a : CadenceWorkflowAttempt) : WorkflowFile × ℕ × ℕ :=
  (a.workflowFile, a.workflowRunId, a.workflowRunAttempt)

/-- The update of `FINALIZE`. -/
def finalize (a : CadenceWorkflowAttempt) (accepted : Bool) (reason : Reason) (retry : Bool) :
    CadenceWorkflowAttempt :=
  { a with accepted := accepted, reasonCode := reason, retryPermitted := retry }

theorem attemptId_finalize (accepted : Bool) (reason : Reason) (retry : Bool)
    (a : CadenceWorkflowAttempt) : (a.finalize accepted reason retry).attemptId = a.attemptId := rfl

def Checked (a : CadenceWorkflowAttempt) : Prop :=
  a.startedAt ≤ a.completedAt ∧
    (a.accepted = true → a.eligible = true ∧ a.reasonCode = .accepted) ∧
    ¬(a.accepted = true ∧ a.retryPermitted = true)

instance (a : CadenceWorkflowAttempt) : Decidable a.Checked := inferInstanceAs (Decidable (_ ∧ _))

end CadenceWorkflowAttempt

structure CadenceAttemptSourceReceipt where
  attemptId : UUID
  sourceId : UUID
  succeeded : Bool
  receiptSha256 : Digest
deriving DecidableEq

def CadenceAttemptSourceReceipt.key (r : CadenceAttemptSourceReceipt) : UUID × UUID :=
  (r.attemptId, r.sourceId)

/-- The database as far as the recorder reads it. -/
structure Ledger where
  contracts : Table CadenceEpochContract.cadenceEpochId
  slots : Table CadenceWorkflowSlot.key
  attempts : Table CadenceWorkflowAttempt.attemptId
  receipts : Table CadenceAttemptSourceReceipt.key
  communitySources : List UUID

inductive RecordError
  | invalidOidcClaims | workflowIdentityInvalid | slotNotFound | insertConflict | replayConflict
  | canonical (e : Receipts.CanonicalError)
  | multipleResultsFound | integrity | dataError | overflow
deriving DecidableEq

/-- Errors that are no identity errors, and so end as a failed request. -/
def RecordError.Internal : RecordError → Prop
  | .canonical _ | .multipleResultsFound | .integrity | .dataError | .overflow => True
  | _ => False

structure CadenceWorkflowAttemptReceipt where
  attemptId : UUID
  cadenceAccepted : Bool
  reason : Reason
  retryPermitted : Bool
  createdAtDb : Instant
  receiptSha256 : Digest
deriving DecidableEq

def receiptBody (attemptId : UUID) (accepted : Bool) (reason : Reason) (retry : Bool)
    (createdAt : Instant) : Json :=
  .object [("schema", .ofString "cadence-workflow-attempt-receipt.v1"),
    ("attempt_id", attemptId.json), ("recorded", .bool true), ("cadence_accepted", .bool accepted),
    ("reason", .ofString reason.value), ("retry_permitted", .bool retry),
    ("created_at_db", .str (isoformat createdAt))]

def buildReceipt (attemptId : UUID) (accepted : Bool) (reason : Reason) (retry : Bool)
    (createdAt : Instant) : Except RecordError CadenceWorkflowAttemptReceipt := do
  let body : Document Empty := document (receiptBody attemptId accepted reason retry createdAt)
  let bytes ← (Receipts.canonicalize Receipts.receiptLevels body).mapError .canonical
  return ⟨attemptId, accepted, reason, retry, createdAt, sha256 bytes⟩

/-- `value.astimezone(UTC)`, which leaves the years 1 to 9999 for no value. -/
def astimezone (d : Datetime) : Except RecordError Instant := do
  require (seconds (-62135596800) ≤ d.instant ∧ d.instant < seconds 253402300800) .overflow
  return d.instant

def requireWorkflowIdentity (p : CadenceWorkflowAttemptRequest) : Except RecordError Unit :=
  require ((p.workflow = .collect ∧ p.scheduleKind = .collection ∧
      p.environment = .productionCollector) ∨
    (p.workflow = .verify ∧ p.scheduleKind = .verifier ∧ p.environment = .productionVerifier))
    .workflowIdentityInvalid

def AllSucceeded (p : CadenceWorkflowAttemptRequest) : Prop :=
  ∀ r ∈ p.sourceResults, r.status = .succeeded

instance (p : CadenceWorkflowAttemptRequest) : Decidable (AllSucceeded p) :=
  inferInstanceAs (Decidable (∀ r ∈ p.sourceResults, r.status = .succeeded))

def expectedSources (c : CadenceEpochContract) : Finset UUID :=
  {c.dcinsideSourceId, c.manifoldSourceId}

def reportedSources (p : CadenceWorkflowAttemptRequest) : Finset UUID :=
  (p.sourceResults.map (·.sourceId)).toFinset

def basicReason (p : CadenceWorkflowAttemptRequest) (c : CadenceEpochContract) : Option Reason :=
  if c.invalidatedAt ≠ none then some .epochInvalidated
  else if reportedSources p ≠ expectedSources c then some .sourceSetMismatch
  else if ¬AllSucceeded p then some .sourceFailed
  else if p.workflowMode = .manual then some .manualModeExcluded
  else none

/-- The rows of `LOAD_LOGICAL_ATTEMPT`. -/
def logicalAttempts (ledger : Ledger) (p : CadenceWorkflowAttemptRequest) :
    List CadenceWorkflowAttempt :=
  ledger.attempts.rows.filter (fun a => a.slot = p.slot ∧ a.cadenceAttempt = p.cadenceAttempt)

/-- `_logical_duplicate`; `one_or_none` raises on a second row. -/
def logicalDuplicate (ledger : Ledger) (p : CadenceWorkflowAttemptRequest) :
    Except RecordError (Option Reason) :=
  match logicalAttempts ledger p with
  | [] => .ok none
  | [_] => .ok (some (if p.cadenceAttempt = 1 then .initialAttemptAlreadyRecorded
      else .retryAttemptAlreadyRecorded))
  | _ => .error .multipleResultsFound

def InitialValid (p : CadenceWorkflowAttemptRequest) : Prop :=
  p.event = .schedule ∧ p.cadenceAttempt = 1 ∧ p.failedPredecessorAttemptId = none

instance (p : CadenceWorkflowAttemptRequest) : Decidable (InitialValid p) :=
  inferInstanceAs (Decidable (_ ∧ _))

def RetryValid (p : CadenceWorkflowAttemptRequest) : Prop :=
  p.event = .workflowDispatch ∧ p.cadenceAttempt = 2 ∧ p.failedPredecessorAttemptId ≠ none

instance (p : CadenceWorkflowAttemptRequest) : Decidable (RetryValid p) :=
  inferInstanceAs (Decidable (_ ∧ _))

/-- The row of `LOAD_FAILED`. -/
def failedPredecessor (ledger : Ledger) (p : CadenceWorkflowAttemptRequest) :
    Option CadenceWorkflowAttempt :=
  p.failedPredecessorAttemptId.bind ledger.attempts.find?

def Retryable (a : CadenceWorkflowAttempt) (p : CadenceWorkflowAttemptRequest) : Prop :=
  a.accepted = false ∧ a.retryPermitted = true ∧ a.slot = p.slot

instance (a : CadenceWorkflowAttempt) (p : CadenceWorkflowAttemptRequest) :
    Decidable (Retryable a p) := inferInstanceAs (Decidable (_ ∧ _))

def branchRejection (ledger : Ledger) (p : CadenceWorkflowAttemptRequest) :
    Except RecordError (Option Reason) :=
  match p.workflowMode with
  | .manual => .ok none
  | .schedule =>
    if ¬InitialValid p then .ok (some .initialAttemptIdentityInvalid)
    else logicalDuplicate ledger p
  | .retry =>
    if ¬RetryValid p then .ok (some .retryProofRequired)
    else
      match failedPredecessor ledger p with
      | none => .ok (some .retryProofInvalid)
      | some failed =>
        if ¬Retryable failed p then .ok (some .retryProofInvalid)
        else logicalDuplicate ledger p

def startLimit (kind : ScheduleKind) : ℤ := minutes (if kind = .collection then 30 else 5)

def completionLimit (kind : ScheduleKind) : ℤ := minutes (if kind = .collection then 36 else 8)

def timeReason (p : CadenceWorkflowAttemptRequest) (s : CadenceWorkflowSlot) (dbNow : Instant) :
    Except RecordError (Option Reason) := do
  let started ← astimezone p.startedAt
  let completed ← astimezone p.completedAt
  return if started < s.dueAt then some .startedEarly
    else if started ≥ s.dueAt + startLimit p.scheduleKind then some .startedLate
    else if completed < started then some .completedBeforeStart
    else if completed ≥ started + completionLimit p.scheduleKind ∨ completed > dbNow then
      some .completedLate
    else none

def rejectionReason (ledger : Ledger) (p : CadenceWorkflowAttemptRequest)
    (c : CadenceEpochContract) (s : CadenceWorkflowSlot) (dbNow : Instant) :
    Except RecordError (Option Reason) :=
  match basicReason p c with
  | some basic => .ok (some basic)
  | none =>
    if s.acceptedAttemptId ≠ none then .ok (some .duplicateAfterAcceptance)
    else do
      match ← branchRejection ledger p with
      | some branch => return some branch
      | none => timeReason p s dbNow

def SafeFailure (p : CadenceWorkflowAttemptRequest) : Prop :=
  (∃ r ∈ p.sourceResults, r.status = .failed) ∧
    ∀ r ∈ p.sourceResults, r.status = .succeeded ∨ r.retryClassification = .safeTerminal

instance (p : CadenceWorkflowAttemptRequest) : Decidable (SafeFailure p) :=
  inferInstanceAs (Decidable ((∃ r ∈ p.sourceResults, r.status = .failed) ∧
    ∀ r ∈ p.sourceResults, r.status = .succeeded ∨ r.retryClassification = .safeTerminal))

def retryPermitted (p : CadenceWorkflowAttemptRequest) (s : CadenceWorkflowSlot)
    (reason : Option Reason) : Except RecordError Bool :=
  if reason ≠ some .sourceFailed ∨ p.workflowMode ≠ .schedule ∨ p.cadenceAttempt ≠ 1 ∨
      ¬SafeFailure p then .ok false
  else do
    let completed ← astimezone p.completedAt
    return decide (completed < s.dueAt + startLimit p.scheduleKind)

/-- One request as it arrives: whether its token carries the claims that the request
    names, and the timestamp of its transaction. -/
structure Delivery where
  authorized : Bool
  payload : CadenceWorkflowAttemptRequest
  dbNow : Instant

/-- The row of `INSERT_ATTEMPT`. -/
def attemptRow (d : Delivery) (c : CadenceEpochContract) (started completed : Instant)
    (reason : Option Reason) (retry : Bool) : CadenceWorkflowAttempt where
  attemptId := d.payload.attemptId
  cadenceEpochId := d.payload.epochId
  scheduleKind := d.payload.scheduleKind
  slotKey := d.payload.slotKey
  workflowMode := d.payload.workflowMode
  workflowFile := d.payload.workflow
  workflowRunId := d.payload.runId
  workflowRunAttempt := d.payload.runAttempt
  cadenceAttempt := d.payload.cadenceAttempt
  failedPredecessorAttemptId := d.payload.failedPredecessorAttemptId
  startedAt := started
  completedAt := completed
  epochSha256 := c.epochSha256
  bindingSha256 := c.bindingSha256
  scopeSha256 := c.scopeSha256
  eligible := reason.isNone
  accepted := false
  reasonCode := reason.getD .eligible
  retryPermitted := retry
  createdAtDb := d.dbNow

def FitsColumns (a : CadenceWorkflowAttempt) : Prop :=
  a.workflowRunId < 2 ^ 63 ∧ a.workflowRunAttempt < 2 ^ 31

instance (a : CadenceWorkflowAttempt) : Decidable (FitsColumns a) :=
  inferInstanceAs (Decidable (_ ∧ _))

/-- The foreign key, which the row itself may meet, and the unique index. -/
def RefersOk (ledger : Ledger) (a : CadenceWorkflowAttempt) : Prop :=
  (∀ id ∈ a.failedPredecessorAttemptId,
      id = a.attemptId ∨ ∃ b ∈ ledger.attempts.rows, b.attemptId = id) ∧
    ∀ b ∈ ledger.attempts.rows, b.workflowRun ≠ a.workflowRun

instance (ledger : Ledger) (a : CadenceWorkflowAttempt) : Decidable (RefersOk ledger a) :=
  inferInstanceAs (Decidable (_ ∧ _))

def insertAttempt (ledger : Ledger) (a : CadenceWorkflowAttempt) : Except RecordError Ledger := do
  require (FitsColumns a) .dataError
  require (a.Checked ∧ RefersOk ledger a) .integrity
  let attempts ← present (ledger.attempts.insert? a) .insertConflict
  return { ledger with attempts := attempts }

/-- `INSERT_SOURCE`: a source that the attempt already reported is skipped. -/
def insertSource (attemptId : UUID) (ledger : Ledger) (r : SourceResult) :
    Except RecordError Ledger := do
  require (r.sourceId ∈ ledger.communitySources) .integrity
  let row : CadenceAttemptSourceReceipt :=
    ⟨attemptId, r.sourceId, decide (r.status = .succeeded), r.receiptSha256⟩
  match ledger.receipts.insert? row with
  | some receipts => return { ledger with receipts := receipts }
  | none => return ledger

abbrev acceptedSlots (ledger : Ledger) (p : CadenceWorkflowAttemptRequest) :
    Table CadenceWorkflowSlot.key :=
  ledger.slots.update p.slot (fun s => s.accept p.attemptId)
    (CadenceWorkflowSlot.key_accept p.attemptId)

/-- `CAS` and the number of rows it updates. -/
def accept (ledger : Ledger) (p : CadenceWorkflowAttemptRequest) (eligible : Bool) :
    Bool × Ledger :=
  if eligible = true ∧ ∃ s ∈ ledger.slots.rows, s.key = p.slot ∧ s.acceptedAttemptId = none then
    (true, { ledger with slots := acceptedSlots ledger p })
  else (false, ledger)

/-- `FINALIZE`, with the check constraints and the partial unique index of its row. -/
def finalizeAttempt (ledger : Ledger) (attemptId : UUID) (accepted : Bool) (reason : Reason)
    (retry : Bool) : Except RecordError Ledger := do
  let attempts := ledger.attempts.update attemptId (fun a => a.finalize accepted reason retry)
    (CadenceWorkflowAttempt.attemptId_finalize accepted reason retry)
  require ((∀ a ∈ attempts.rows, a.attemptId = attemptId → a.Checked) ∧
    ∀ a ∈ attempts.rows, a.attemptId = attemptId → a.accepted = true →
      ∀ b ∈ attempts.rows, b.accepted = true → b.slot = a.slot → b.attemptId = attemptId) .integrity
  return { ledger with attempts := attempts }

def storedSources (ledger : Ledger) (attemptId : UUID) : List CadenceAttemptSourceReceipt :=
  ledger.receipts.rows.filter (fun r => r.attemptId = attemptId)

/-- A stored time equals a submitted one when that carries an offset. -/
def SameTime (stored : Instant) (d : Datetime) : Prop := d.Aware ∧ stored = d.instant

instance (stored : Instant) (d : Datetime) : Decidable (SameTime stored d) :=
  inferInstanceAs (Decidable (_ ∧ _))

/-- `same_attempt`. -/
def SameAttempt (p : CadenceWorkflowAttemptRequest) (a : CadenceWorkflowAttempt)
    (sources : List CadenceAttemptSourceReceipt) : Prop :=
  a.slot = p.slot ∧ a.workflowMode = p.workflowMode ∧
    a.workflowRun = (p.workflow, p.runId, p.runAttempt) ∧ a.cadenceAttempt = p.cadenceAttempt ∧
    a.failedPredecessorAttemptId = p.failedPredecessorAttemptId ∧
    SameTime a.startedAt p.startedAt ∧ SameTime a.completedAt p.completedAt ∧
    (sources.map (fun r => (r.sourceId, r.succeeded, r.receiptSha256))).toFinset =
      (p.sourceResults.map SourceResult.projection).toFinset

instance (p : CadenceWorkflowAttemptRequest) (a : CadenceWorkflowAttempt)
    (sources : List CadenceAttemptSourceReceipt) : Decidable (SameAttempt p a sources) :=
  inferInstanceAs (Decidable (_ ∧ _))

def replay (ledger : Ledger) (p : CadenceWorkflowAttemptRequest)
    (existing : CadenceWorkflowAttempt) : Except RecordError CadenceWorkflowAttemptReceipt := do
  require (SameAttempt p existing (storedSources ledger p.attemptId)) .replayConflict
  buildReceipt p.attemptId existing.accepted existing.reasonCode existing.retryPermitted
    existing.createdAtDb

def recordNew (ledger : Ledger) (d : Delivery) :
    Except RecordError (CadenceWorkflowAttemptReceipt × Ledger) := do
  let p := d.payload
  let s ← present (ledger.slots.find? p.slot) .slotNotFound
  let c ← present (ledger.contracts.find? p.epochId) .slotNotFound
  let reason ← rejectionReason ledger p c s d.dbNow
  let retry ← retryPermitted p s reason
  let started ← astimezone p.startedAt
  let completed ← astimezone p.completedAt
  let inserted ← insertAttempt ledger (attemptRow d c started completed reason retry)
  let sourced ← p.sourceResults.foldlM (insertSource p.attemptId) inserted
  let (accepted, cased) := accept sourced p reason.isNone
  let final := reason.getD (if accepted then .accepted else .duplicateAfterAcceptance)
  let finalRetry := if accepted then false else retry
  let finalized ← finalizeAttempt cased p.attemptId accepted final finalRetry
  let receipt ← buildReceipt p.attemptId accepted final finalRetry d.dbNow
  return (receipt, finalized)

def record (ledger : Ledger) (d : Delivery) :
    Except RecordError (CadenceWorkflowAttemptReceipt × Ledger) := do
  require (d.authorized = true) .invalidOidcClaims
  requireWorkflowIdentity d.payload
  match ledger.attempts.find? d.payload.attemptId with
  | some existing => do
    let receipt ← replay ledger d.payload existing
    return (receipt, ledger)
  | none => recordNew ledger d

def recordStep (ledger : Ledger) (d : Delivery) : Except RecordError Ledger := do
  let (_, next) ← record ledger d
  return next

end PredictionMarketMonitor.CadenceAttempts
