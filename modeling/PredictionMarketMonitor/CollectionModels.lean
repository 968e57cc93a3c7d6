import PredictionMarketMonitor.CollectionBase

set_option autoImplicit false

/-!
# Domain values

The value classes of `authorization.py`, `checkpoint.py`, `commands.py`,
`normalizer.py`, `page_models.py` and `completion_models.py`. A request carries
the contract its boundary model has checked.
-/
namespace PredictionMarketMonitor.CollectionModels

open CanonicalJson CivilTime CollectionBase Sha256

structure AuthorizationSnapshot where
  decisionId : UUID
  sourceId : UUID
  scopeVersion : String
  enabled : Bool
  status : AuthorizationStatus
  effectiveAt : Instant
  expiresAt : Option Instant
  revokedAt : Option Instant
deriving DecidableEq

structure ActiveAuthorization where
  decisionId : UUID
deriving DecidableEq

/-- What later steps read of the claim-time authorization document of a run. -/
structure ClaimAuthorization where
  decisionId : UUID
  permittedRoutes : List String
deriving DecidableEq

structure CommandState where
  id : UUID
  scopeVersion : String
  sourceIds : List UUID
  kind : CommandKind
  status : CommandStatus
  attempt : ℕ
  availableAt : Instant
  reservationStartedAt : Option Instant := none
  reservationNonceHash : Option Digest := none
  dispatchedAt : Option Instant := none
  claimedAt : Option Instant := none
  heartbeatAt : Option Instant := none
  completedAt : Option Instant := none
  leaseHash : Option Digest := none
  githubRunId : Option String := none
  githubRunAttempt : Option ℕ := none
  outcomeCode : Option String := none
  errorFingerprint : Option String := none
deriving DecidableEq

structure CheckpointState where
  id : UUID
  sourceId : UUID
  scopeVersion : String
  revision : ℕ
  cursor : Option String
  watermarkPublishedAt : Option Instant := none
  watermarkSourcePostId : Option String := none
  lastCompletedRunId : Option UUID := none
deriving DecidableEq

structure RunStart where
  runId : UUID
  commandId : UUID
  sourceId : UUID
  scopeVersion : String
  attempt : ℕ
  leaseIdentityHash : Digest
  startedAt : Datetime

structure RunState where
  id : UUID
  commandId : UUID
  sourceId : UUID
  scopeVersion : String
  attempt : ℕ
  status : RunStatus
  startCheckpointRevision : ℕ
  startCursor : Option String
  genesisChainHash : Digest
  committedPageHashChain : Digest
  leaseIdentityHash : Digest
  startedAt : Instant
  heartbeatAt : Instant
  authorizationDecisionId : Option UUID := none
  authorizationSnapshot : Option ClaimAuthorization := none
  budgetDecisionId : Option UUID := none
  budgetDecisionStatus : Option BudgetDecisionStatus := none
  reviewedPageCap : Option ℕ := none
  reviewedPostCap : Option ℕ := none
  nextPageOrdinal : ℕ := 0
  committedPageCount : ℕ := 0
  acceptedCount : ℕ := 0
  duplicateCount : ℕ := 0
  rejectedCount : ℕ := 0
  lastPageCommitId : Option UUID := none
  finalPageOrdinal : Option ℕ := none
  finalCursor : Option String := none
  terminalPageCommitId : Option UUID := none
  terminalPageOrdinal : Option ℕ := none
  terminalCursor : Option String := none
  terminalReason : Option TerminalReason := none
  terminalChainHash : Option Digest := none
  completionReadyAt : Option Instant := none
  pageReservationId : Option UUID := none
  skipAuthorizationDecisionId : Option UUID := none
  skipBudgetDecisionId : Option UUID := none
  failureClass : Option String := none
  failureCode : Option String := none
  failureFingerprint : Option Digest := none
  failureObservedAt : Option Instant := none
  retryAfterAt : Option Instant := none
  finalizedAt : Option Instant := none
  finishedAt : Option Instant := none
deriving DecidableEq

namespace RunState

def skipDecisionId (r : RunState) : Option UUID :=
  r.skipBudgetDecisionId.or r.skipAuthorizationDecisionId

end RunState

inductive Language
  | ko | en
deriving DecidableEq

def Language.value : Language → String
  | .ko => "ko"
  | .en => "en"

structure AcceptedPostInput where
  sourcePostId : String
  canonicalUrl : String
  title : String
  body : String
  publishedAt : Datetime
  language : Language
  commentsCount : Option ℕ := none
  upvoteOrScore : Option ℤ := none
  contentHash : Digest
deriving DecidableEq

structure OversizePostInput where
  sourcePostId : String
  canonicalUrl : String
  contentHash : Digest
  bodyBytes : {n : ℕ // maxPostBytes < n}
deriving DecidableEq

inductive PagePostInput
  | accepted (item : AcceptedPostInput)
  | oversize (item : OversizePostInput)
deriving DecidableEq

def PagePostInput.sourcePostId : PagePostInput → String
  | .accepted item => item.sourcePostId
  | .oversize item => item.sourcePostId

structure NormalizedPost where
  sourcePostId : String
  canonicalUrl : String
  title : String
  body : String
  bodyBytes : ℕ
  publishedAt : Instant
  language : Language
  commentsCount : Option ℕ
  upvoteOrScore : Option ℤ
  contentHash : Digest
deriving DecidableEq

structure OversizeRejection where
  sourcePostId : String
  canonicalUrl : String
  contentHash : Digest
  bodyBytes : ℕ
deriving DecidableEq

inductive NormalizedPageItem
  | post (item : NormalizedPost)
  | rejection (item : OversizeRejection)
deriving DecidableEq

def NormalizedPageItem.sourcePostId : NormalizedPageItem → String
  | .post item => item.sourcePostId
  | .rejection item => item.sourcePostId

def ValidLeaseToken (token : String) : Prop :=
  32 ≤ token.length ∧ token.length ≤ 128 ∧
    token.toList.all (fun c => c.isAlphanum || c == '_' || c == '-') = true

instance (token : String) : Decidable (ValidLeaseToken token) :=
  inferInstanceAs (Decidable (_ ∧ _))

structure PageCommitBody where
  commandId : UUID
  attempt : ℕ
  leaseToken : String
  pageIdempotencyKey : UUID
  expectedCheckpointRevision : ℕ
  expectedCursor : Option String
  nextCursor : Option String
  pageOrdinal : ℕ
  posts : List PagePostInput
  sourcePageItemCount : ℕ
  sourcePageReceiptSha256 : Digest
  pageFetchStartedAt : Datetime
  pageFetchFinishedAt : Datetime
  isTerminalPage : Bool
  terminalReason : Option TerminalReason
deriving DecidableEq

/-- Field bounds and `validate_contract`. Comparing a naive with an aware clock
    value raises in the source, so both ends of the window are of one kind. -/
structure PageCommitBody.Valid (b : PageCommitBody) : Prop where
  attempt : 1 ≤ b.attempt ∧ b.attempt ≤ maxCommandAttempts
  leaseToken : ValidLeaseToken b.leaseToken
  posts : b.posts.length ≤ 20
  itemCount : b.sourcePageItemCount = b.posts.length
  terminalPair : b.isTerminalPage = b.terminalReason.isSome
  window : (b.pageFetchStartedAt.Aware ↔ b.pageFetchFinishedAt.Aware) ∧
    b.pageFetchStartedAt.instant ≤ b.pageFetchFinishedAt.instant

theorem PageCommitBody.Valid.seal {b : PageCommitBody} (h : b.Valid) (reason : TerminalReason) :
    PageCommitBody.Valid { b with isTerminalPage := true, terminalReason := some reason } :=
  ⟨h.attempt, h.leaseToken, h.posts, h.itemCount, rfl, h.window⟩

structure PageCommitRequest extends PageCommitBody where
  valid : toPageCommitBody.Valid

structure ExistingPostVersion where
  sourcePostId : String
  postId : UUID
  currentVersionId : UUID
  currentContentHash : Digest
  currentRevision : ℕ
deriving DecidableEq

structure PageItemPlan where
  itemOrdinal : ℕ
  disposition : PageItemDisposition
  normalizedItem : NormalizedPageItem
  normalizedContentHash : Digest
  postId : Option UUID
  postVersionId : Option UUID
  revision : Option ℕ
deriving DecidableEq

structure PageCommitResponse where
  pageCommitId : UUID
  checkpointRevision : ℕ
  nextCursor : Option String
  acceptedCount : ℕ
  duplicateCount : ℕ
  rejectedCount : ℕ
  pageContentHash : Digest
deriving DecidableEq

structure PageCommitRecord where
  id : UUID
  runId : UUID
  commandId : UUID
  attempt : ℕ
  leaseIdentityHash : Digest
  pageIdempotencyKey : UUID
  pageOrdinal : ℕ
  expectedCheckpointRevision : ℕ
  resultingCheckpointRevision : ℕ
  expectedCursor : Option String
  nextCursor : Option String
  pageRequestHash : Digest
  pageContentHash : Digest
  previousChainHash : Digest
  resultingChainHash : Digest
  sourcePageReceiptSha256 : Digest
  sourcePageItemCount : ℕ
  acceptedCount : ℕ
  duplicateCount : ℕ
  rejectedCount : ℕ
  isTerminalPage : Bool
  terminalReason : Option TerminalReason
  storedResponse : Bytes
deriving DecidableEq

structure PageCommitOutcome where
  statusCode : ℕ
  response : PageCommitResponse
  responseBytes : Bytes
deriving DecidableEq

structure PageCommitContext where
  dbNow : Instant
  command : CommandState
  run : RunState
  checkpoint : CheckpointState
  authorization : AuthorizationSnapshot
  existingPosts : List ExistingPostVersion
  existingIdempotencyCommit : Option PageCommitRecord
  existingOrdinalCommit : Option PageCommitRecord
  reviewedPageCap : ℕ
  reviewedPostCap : ℕ

structure PageCommitPlan where
  commit : PageCommitRecord
  items : List PageItemPlan
  updatedCheckpoint : CheckpointState
  updatedRun : RunState
  outcome : PageCommitOutcome
  shouldPersist : Bool
deriving DecidableEq

inductive FailureClass
  | retryable | terminal
deriving DecidableEq

def FailureClass.value : FailureClass → String
  | .retryable => "retryable"
  | .terminal => "terminal"

structure FailureDetail where
  failureClass : FailureClass
  code : String
  fingerprint : Digest
  observedAt : Datetime
  retryAfterAt : Option Datetime
deriving DecidableEq

structure CompletionSourceOutcome where
  runId : UUID
  terminalStatus : RunStatus
  lastPageCommitId : Option UUID
  finalCursor : Option String
  finalPageOrdinal : Option ℕ
  committedPageCount : ℕ
  committedPageHashChain : Digest
  skipDecisionId : Option UUID
  failure : Option FailureDetail
deriving DecidableEq

structure CompletionRequest where
  completionIdempotencyKey : UUID
  attempt : ℕ
  leaseToken : String
  sourceOutcomes : List CompletionSourceOutcome
  validAttempt : 1 ≤ attempt ∧ attempt ≤ maxCommandAttempts
  validLeaseToken : ValidLeaseToken leaseToken
  nonempty : sourceOutcomes ≠ []

structure ObservedPostVersion where
  id : UUID
  contentHash : Digest
deriving DecidableEq

structure SkipDecisionProof where
  id : UUID
  terminalStatus : RunStatus
deriving DecidableEq

structure RunCompletionFacts where
  run : RunState
  checkpoint : CheckpointState
  commits : List PageCommitRecord
  observedPostVersions : List ObservedPostVersion
  skipDecision : Option SkipDecisionProof

structure CompletionContext where
  command : CommandState
  runs : List RunCompletionFacts
  dbNow : Instant

structure PublicationDraft where
  runId : UUID
  sourceId : UUID
  terminalPageCommitId : UUID
  finalChainHash : Digest
  postSetHash : Digest
  distinctPostVersionCount : ℕ
  zeroPost : Bool
deriving DecidableEq

structure CompletionPlan where
  requestHash : Digest
  commandStatus : CommandStatus
  runs : List RunState
  publications : List PublicationDraft
  completedAt : Instant
deriving DecidableEq

structure CompletionPublicationResponse where
  runId : UUID
  sourceId : UUID
  sequence : ℕ
  postSetHash : Digest
  zeroPost : Bool
deriving DecidableEq

structure CompletionResponse where
  commandId : UUID
  status : CommandStatus
  completedAt : Instant
  publications : List CompletionPublicationResponse
deriving DecidableEq

structure CompletionOutcome where
  statusCode : ℕ
  response : CompletionResponse
  responseBytes : Bytes
deriving DecidableEq

/-- What the package takes from outside: the Unicode normal form NFC, and the
    boundary models' parsers of stored responses (`none` is a validation error). -/
structure Runtime where
  nfc : Text → Text
  parsePageCommitResponse : Bytes → Option PageCommitResponse
  parseCompletionResponse : Bytes → Option CompletionResponse

end PredictionMarketMonitor.CollectionModels
