import PredictionMarketMonitor.IdentityExchange
import PredictionMarketMonitor.Receipts

set_option autoImplicit false

/-!
# Claiming and completing dispatch reservations

`api/routes/workflow_dispatch_claim.py` and `workflow_operation_complete.py` over
the release tables. A claim is one atomic update; a completion reads its
reservation and the stored receipts first and inserts later, so two completions of
one reservation can overlap.
-/
namespace PredictionMarketMonitor.DispatchReservations

open CanonicalJson CivilTime CollectionBase FallibleSteps KeyedTable Sha256
open IdentityExchange (GitHubOIDCClaims githubOidcAudience githubOidcIssuer timestampSeconds
  tokenSkewSeconds)
open JsonReader (Document document)

inductive Refusal
  | invalidOidcClaims | reservationRejected | commandRejected | alreadyFinalized
  | rowInvalid | canonical (e : Receipts.CanonicalError) | integrity | multipleResultsFound
  | dataError | valueError
deriving DecidableEq

structure WorkflowDispatchClaimRequest where
  repository : Text
  workflow : Text
  displayTitle : Text
  headSha : Text
  approvedPlanSha256 : Text
  activationNonce : UUID
  dispatchNonce : UUID
  reservationSha256 : Digest
  runId : ℕ
  runAttempt : ℕ
  environment : Option Text
deriving DecidableEq

structure WorkflowOperationCompleteRequest extends WorkflowDispatchClaimRequest where
  command : Text
  evidenceSha256 : Digest
deriving DecidableEq

/-- The literals of `event` and `ref`. -/
def dispatchEvent : Text := "workflow_dispatch".toList
def mainRef : Text := "refs/heads/main".toList

/-- `expected_subject`; a repository without a slash raises. -/
def expectedSubject (claims : GitHubOIDCClaims) (context : Text) : Except Refusal Text := do
  let owner := claims.repository.takeWhile (· ≠ '/')
  require ('/' ∈ claims.repository) .valueError
  let repository := (claims.repository.dropWhile (· ≠ '/')).drop 1
  return "repo:".toList ++ owner ++ '@' :: claims.repositoryOwnerId ++ '/' :: repository ++
    '@' :: claims.repositoryId ++ ':' :: context

def subjectContext (payload : WorkflowDispatchClaimRequest) : Text :=
  match payload.environment with
  | some environment => "environment:".toList ++ environment
  | none => "ref:".toList ++ mainRef

/-- The comparisons of `authorize` behind the one of the subject. -/
def Identifies (repository : Text) (claims : GitHubOIDCClaims)
    (payload : WorkflowDispatchClaimRequest) (nowSeconds : ℤ) : Prop :=
  claims.repository = repository ∧ repository = payload.repository ∧
    claims.workflowRef =
      payload.repository ++ "/.github/workflows/".toList ++ payload.workflow ++ '@' :: mainRef ∧
    claims.gitRef = mainRef ∧ claims.headSha = payload.headSha ∧
    claims.environment = payload.environment ∧ claims.runId = decimal payload.runId ∧
    claims.runAttempt = decimal payload.runAttempt ∧
    claims.issuedAt ≤ nowSeconds + tokenSkewSeconds ∧
    claims.notBefore ≤ nowSeconds + tokenSkewSeconds ∧
    claims.expiresAt ≥ nowSeconds - tokenSkewSeconds ∧ claims.expiresAt > claims.notBefore

instance (repository : Text) (claims : GitHubOIDCClaims) (payload : WorkflowDispatchClaimRequest)
    (nowSeconds : ℤ) : Decidable (Identifies repository claims payload nowSeconds) :=
  inferInstanceAs (Decidable (_ ∧ _))

/-- What a call brings besides its payload: the claims that the verifier reads from its
    token, if it accepts the token, and the clock. -/
structure Caller where
  claims : Option GitHubOIDCClaims
  now : Instant
deriving DecidableEq

def authorize (repository : Text) (caller : Caller) (payload : WorkflowDispatchClaimRequest) :
    Except Refusal Unit := do
  let claims ← present caller.claims .invalidOidcClaims
  require (claims.issuer = githubOidcIssuer ∧ claims.audience = githubOidcAudience)
    .invalidOidcClaims
  let subject ← expectedSubject claims (subjectContext payload)
  require (claims.subject = subject) .invalidOidcClaims
  require (Identifies repository claims payload (timestampSeconds caller.now)) .invalidOidcClaims

structure ClaimedRun where
  runId : ℕ
  runAttempt : ℕ
  claimedAtDb : Instant
deriving DecidableEq

/-- A row of `release_operation_reservations`. The three claim columns are null
    together by `release_reservation_claim_pair`. -/
structure Reservation where
  receiptSha256 : Digest
  reviewedSha : Text
  approvedPlanSha256 : Text
  approvalRoundId : Text
  approvalLaunchSha256s : List Text
  activationNonce : UUID
  dispatchNonce : UUID
  repository : Text
  gitRef : Text
  workflowFile : Text
  eventName : Text
  displayTitle : Text
  headSha : Text
  attempt : ℤ
  reservedAtDb : Instant
  selectionFloorAt : Instant
  claimed : Option ClaimedRun
deriving DecidableEq

def Reservation.claim (run : ClaimedRun) (r : Reservation) : Reservation :=
  { r with claimed := some run }

theorem Reservation.receiptSha256_claim (run : ClaimedRun) (r : Reservation) :
    (r.claim run).receiptSha256 = r.receiptSha256 := rfl

structure OperationReceipt where
  receiptSha256 : Digest
  canonicalReceipt : Bytes
  reservationReceiptSha256 : Digest
  activationNonce : UUID
  dispatchNonce : UUID
  attempt : ℤ
  runId : ℕ
  committedRevision : Text
deriving DecidableEq

/-- The columns of `uq_release_operation_identity`. -/
def OperationReceipt.identity (o : OperationReceipt) : UUID × UUID × ℤ × ℕ :=
  (o.activationNonce, o.dispatchNonce, o.attempt, o.runId)

structure ChainRow where
  receiptSha256 : Digest
  canonicalReceipt : Bytes
  command : Text
  predecessorReceiptSha256 : Option Digest
deriving DecidableEq

/-- A completion that has read its reservation and found no stored receipt. -/
structure PendingCompletion where
  payload : WorkflowOperationCompleteRequest
  row : Reservation
  currentRevision : Text
  canonical : Bytes

structure Server where
  reservations : Table Reservation.receiptSha256
  operations : Table OperationReceipt.receiptSha256
  chain : Table ChainRow.receiptSha256
  /-- `SELECT version_num FROM alembic_version`. -/
  revision : Text
  pending : List PendingCompletion

def hexDigit (c : Char) : Bool := ('0' ≤ c && c ≤ '9') || ('a' ≤ c && c ≤ 'f')

/-- The pattern of `n` lowercase hexadecimal digits. -/
def Hex (n : ℕ) (text : Text) : Prop := text.length = n ∧ text.all hexDigit = true

instance (n : ℕ) (text : Text) : Decidable (Hex n text) := inferInstanceAs (Decidable (_ ∧ _))

/-- The patterns of the approval columns that a receipt model checks. -/
def ApprovalValid (r : Reservation) : Prop :=
  Hex 40 r.reviewedSha ∧ Hex 64 r.approvedPlanSha256 ∧ Hex 64 r.approvalRoundId ∧
    r.approvalLaunchSha256s.length = 2 ∧ ∀ launch ∈ r.approvalLaunchSha256s, Hex 64 launch

instance (r : Reservation) : Decidable (ApprovalValid r) :=
  inferInstanceAs (Decidable (_ ∧ _ ∧ _ ∧ _ ∧ ∀ launch ∈ r.approvalLaunchSha256s, Hex 64 launch))

/-- The comparisons that both statements make between a row and a payload. -/
def SameDispatch (r : Reservation) (p : WorkflowDispatchClaimRequest) : Prop :=
  r.repository = p.repository ∧ r.gitRef = mainRef ∧ r.workflowFile = p.workflow ∧
    r.displayTitle = p.displayTitle ∧ r.headSha = p.headSha ∧
    r.approvedPlanSha256 = p.approvedPlanSha256 ∧ r.activationNonce = p.activationNonce ∧
    r.dispatchNonce = p.dispatchNonce

instance (r : Reservation) (p : WorkflowDispatchClaimRequest) : Decidable (SameDispatch r p) :=
  inferInstanceAs (Decidable (_ ∧ _))

/-- The condition of `CLAIM_RESERVATION_SQL`. -/
def Claimable (r : Reservation) (p : WorkflowDispatchClaimRequest) : Prop :=
  SameDispatch r p ∧ r.eventName = dispatchEvent ∧ r.reviewedSha = p.headSha ∧ r.claimed = none

instance (r : Reservation) (p : WorkflowDispatchClaimRequest) : Decidable (Claimable r p) :=
  inferInstanceAs (Decidable (_ ∧ _))

def claimFields (p : WorkflowDispatchClaimRequest) (r : Reservation) (claimedAt : Instant) :
    List (String × Json) :=
  [("schema", .ofString "release-chain-receipt.v1"), ("command", .ofString "workflow-dispatch-claim"),
    ("reviewed_sha", .str r.reviewedSha), ("approved_plan_sha256", .str r.approvedPlanSha256),
    ("approval_round_id", .str r.approvalRoundId),
    ("approval_launch_sha256s", .list (r.approvalLaunchSha256s.map .str)),
    ("activation_nonce", r.activationNonce.json), ("dispatch_nonce", r.dispatchNonce.json),
    ("attempt", .int r.attempt),
    ("database_timestamps", .object [("created_at_db", instantJson claimedAt),
      ("reserved_at_db", instantJson r.reservedAtDb),
      ("selection_floor_at", instantJson r.selectionFloorAt),
      ("claimed_at_db", instantJson claimedAt)]),
    ("accepted", .bool true), ("terminal_for_attempt", .bool false),
    ("retry_permitted", .bool false),
    ("predecessor_receipt_sha256", Digest.json p.reservationSha256),
    ("repository", .str p.repository), ("workflow", .str p.workflow),
    ("display_title", .str p.displayTitle), ("head_sha", .str p.headSha),
    ("reservation_sha256", Digest.json p.reservationSha256), ("run_id", .int p.runId),
    ("run_attempt", .int p.runAttempt), ("event", .str dispatchEvent), ("ref", .str mainRef),
    ("environment", .ofOption .str p.environment)]

def receiptBytes (value : Json) : Except Refusal Bytes :=
  (Receipts.canonicalize Receipts.receiptLevels (document value : Document Empty)).mapError
    .canonical

/-- `build_claim_receipt`: the hash of the receipt and its canonical bytes. -/
def buildClaimReceipt (p : WorkflowDispatchClaimRequest) (r : Reservation) (claimedAt : Instant) :
    Except Refusal (Digest × Bytes) := do
  let fields := claimFields p r claimedAt
  let body ← receiptBytes (.object fields)
  require (ApprovalValid r) .rowInvalid
  let receiptSha256 := sha256 body
  let canonical ← receiptBytes (.object (fields ++ [("receipt_sha256", Digest.json receiptSha256)]))
  return (receiptSha256, canonical)

def insertChain (chain : Table ChainRow.receiptSha256) (row : ChainRow) :
    Except Refusal (Table ChainRow.receiptSha256) := do
  require (∀ id ∈ row.predecessorReceiptSha256, ∃ other ∈ chain.rows, other.receiptSha256 = id)
    .integrity
  present (chain.insert? row) .integrity

structure ClaimCall where
  caller : Caller
  payload : WorkflowDispatchClaimRequest
  /-- `transaction_timestamp()`. -/
  dbNow : Instant
deriving DecidableEq

/-- `bigint` and `integer` columns. -/
def FitsColumns (runId runAttempt : ℕ) : Prop := runId < 2 ^ 63 ∧ runAttempt < 2 ^ 31

instance (runId runAttempt : ℕ) : Decidable (FitsColumns runId runAttempt) :=
  inferInstanceAs (Decidable (_ ∧ _))

/-- `SqlWorkflowDispatchClaimer.claim`. -/
def claim (repository : Text) (server : Server) (call : ClaimCall) : Except Refusal Server := do
  let p := call.payload
  authorize repository call.caller p
  require (FitsColumns p.runId p.runAttempt) .dataError
  let found := server.reservations.find? p.reservationSha256
  let row ← present (found.filter (fun r => Claimable r p)) .reservationRejected
  -- the partial unique index on the repository and its claimed runs
  require (∀ r ∈ server.reservations.rows, ∀ run ∈ r.claimed,
    r.repository = row.repository → run.runId ≠ p.runId) .integrity
  let (receiptSha256, canonical) ← buildClaimReceipt p row call.dbNow
  let chain ← insertChain server.chain ⟨receiptSha256, canonical,
    "workflow-dispatch-claim".toList, some p.reservationSha256⟩
  return { server with
    reservations := server.reservations.update p.reservationSha256
      (fun r => r.claim ⟨p.runId, p.runAttempt, call.dbNow⟩)
      (Reservation.receiptSha256_claim ⟨p.runId, p.runAttempt, call.dbNow⟩)
    chain := chain }

/-- `_ALLOWED_COMMANDS`. -/
def allowedCommands (workflow : Text) : List Text :=
  if workflow = "activation-evidence.yml".toList then ["activation-evidence".toList]
  else if workflow = "ci.yml".toList then ["ci".toList]
  else if workflow = "collect.yml".toList then
    ["binding-handshake".toList, "binding-prestate".toList, "binding-restore-verify".toList,
      "smoke-collection".toList]
  else if workflow = "migrate.yml".toList then
    ["migrate-0011".toList, "migrate-0011-to-0010g".toList]
  else if workflow = "verify.yml".toList then ["smoke-verifier".toList]
  else []

/-- The condition of `RESERVATION_SQL`. -/
def Completable (r : Reservation) (p : WorkflowDispatchClaimRequest) : Prop :=
  SameDispatch r p ∧ ∃ run ∈ r.claimed, run.runId = p.runId ∧ run.runAttempt = p.runAttempt

instance (r : Reservation) (p : WorkflowDispatchClaimRequest) : Decidable (Completable r p) :=
  inferInstanceAs (Decidable (SameDispatch r p ∧
    ∃ run ∈ r.claimed, run.runId = p.runId ∧ run.runAttempt = p.runAttempt))

def operationFields (p : WorkflowOperationCompleteRequest) (r : Reservation) (revision : Text) :
    List (String × Json) :=
  [("schema_version", .int 1), ("command", .str p.command),
    ("reviewed_sha", .str r.reviewedSha), ("approved_plan_sha256", .str r.approvedPlanSha256),
    ("approval_round_id", .str r.approvalRoundId),
    ("approval_launch_sha256s", .list (r.approvalLaunchSha256s.map .str)),
    ("activation_nonce", r.activationNonce.json), ("dispatch_nonce", r.dispatchNonce.json),
    ("attempt", .int r.attempt), ("accepted", .bool true), ("terminal_for_attempt", .bool true),
    ("retry_permitted", .bool false),
    ("predecessor_receipt_sha256", Digest.json p.reservationSha256),
    ("reservation_receipt_sha256", Digest.json p.reservationSha256), ("run_id", .int p.runId),
    ("head_sha", .str p.headSha), ("artifact_sha256", Digest.json p.evidenceSha256),
    ("state_before", .str revision), ("state_after", .str revision), ("enum_residue", .bool false),
    ("committed_revision", .str revision)]

/-- `_operation_receipt` and its canonical bytes. -/
def operationReceipt (p : WorkflowOperationCompleteRequest) (r : Reservation) (revision : Text) :
    Except Refusal Bytes := do
  require (ApprovalValid r ∧ 0 < r.attempt ∧ revision ≠ [] ∧ revision.length ≤ 32) .rowInvalid
  receiptBytes (.object (operationFields p r revision))

structure CompletionCall where
  caller : Caller
  payload : WorkflowOperationCompleteRequest
deriving DecidableEq

/-- How far a completion gets before it inserts. -/
inductive Completing
  | replayed (canonical : Bytes)
  | inserting (completion : PendingCompletion)

/-- `SELECT_EXISTING_SQL` and `scalar_one_or_none`. -/
def storedReceipt (server : Server) (reservation : Digest) : Except Refusal (Option Bytes) :=
  match server.operations.rows.filter (fun o => o.reservationReceiptSha256 = reservation) with
  | [] => .ok none
  | [o] => .ok (some o.canonicalReceipt)
  | _ => .error .multipleResultsFound

/-- `complete` up to its inserts. -/
def beginCompletion (repository : Text) (server : Server) (call : CompletionCall) :
    Except Refusal Completing := do
  let p := call.payload
  require (p.command ∈ allowedCommands p.workflow) .commandRejected
  authorize repository call.caller p.toWorkflowDispatchClaimRequest
  require (FitsColumns p.runId p.runAttempt) .dataError
  let found := server.reservations.find? p.reservationSha256
  let row ← present
    (found.filter (fun r => Completable r p.toWorkflowDispatchClaimRequest)) .reservationRejected
  let canonical ← operationReceipt p row server.revision
  let stored ← storedReceipt server p.reservationSha256
  match stored with
  | some bytes => do
    require (bytes = canonical) .alreadyFinalized
    return .replayed canonical
  | none => return .inserting ⟨p, row, server.revision, canonical⟩

/-- The row of `INSERT_OPERATION_SQL`. -/
def operationRow (q : PendingCompletion) : OperationReceipt where
  receiptSha256 := sha256 q.canonical
  canonicalReceipt := q.canonical
  reservationReceiptSha256 := q.row.receiptSha256
  activationNonce := q.row.activationNonce
  dispatchNonce := q.row.dispatchNonce
  attempt := q.row.attempt
  runId := q.payload.runId
  committedRevision := q.currentRevision

def finishCompletion (server : Server) (q : PendingCompletion) : Except Refusal Server := do
  require (∀ o ∈ server.operations.rows, o.identity ≠ (operationRow q).identity) .integrity
  let operations ← present (server.operations.insert? (operationRow q)) .integrity
  let chain ← insertChain server.chain
    ⟨sha256 q.canonical, q.canonical, q.payload.command, some q.row.receiptSha256⟩
  return { server with operations := operations, chain := chain }

/-- What can happen next; `finish` and `abandon` name an overlapping completion. -/
inductive Event
  | claim (call : ClaimCall)
  | begin (call : CompletionCall)
  | finish (n : ℕ)
  | abandon (n : ℕ)
  | migrate (revision : Text)

def Server.withoutPending (server : Server) (n : ℕ) : Server :=
  { server with pending := server.pending.eraseIdx n }

/-- A completion that cannot insert is rolled back and is no longer pending. -/
def step (repository : Text) (server : Server) : Event → Except Refusal Server
  | .claim call => claim repository server call
  | .begin call => do
    match ← beginCompletion repository server call with
    | .replayed _ => return server
    | .inserting q => return { server with pending := server.pending ++ [q] }
  | .finish n => do
    let q ← present server.pending[n]? .reservationRejected
    match finishCompletion server q with
    | .ok next => return next.withoutPending n
    | .error _ => return server.withoutPending n
  | .abandon n => return server.withoutPending n
  | .migrate revision => return { server with revision := revision }

end PredictionMarketMonitor.DispatchReservations
