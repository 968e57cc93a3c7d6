import PredictionMarketMonitor.ClaimPolicy
import PredictionMarketMonitor.PageItems

set_option autoImplicit false

/-!
# Page commits

`start_run` of `checkpoint.py`, `page_transitions.py` and `page_commit.py`:
planning one page against a locked run and checkpoint, or answering a stored
idempotency key without a write.
-/
namespace PredictionMarketMonitor.PageCommit

open CanonicalJson CivilTime ClaimPolicy CollectionBase CollectionModels FallibleSteps PageItems
open Sha256

section Genesis
variable (nfc : Text → Text)

def genesisIdentity (start : RunStart) (checkpoint : CheckpointState) : Json := .object
  [("attempt", .ofNat start.attempt),
   ("command_id", start.commandId.json),
   ("run_id", start.runId.json),
   ("scope_version", .ofString start.scopeVersion),
   ("source_id", start.sourceId.json),
   ("start_checkpoint_revision", .ofNat checkpoint.revision),
   ("start_cursor", .ofOption .ofString checkpoint.cursor)]

/-- Create a running attempt with a chain unique to its start snapshot. -/
def startRun (start : RunStart) (checkpoint : CheckpointState) : Result RunState := do
  require (start.sourceId = checkpoint.sourceId ∧ start.scopeVersion = checkpoint.scopeVersion)
    (fail .invalidContract 422)
  let startedAt ← requireUtc start.startedAt
  let genesis := sha256 (encode "page-chain-genesis/v1\n" ++
    canonicalBytes nfc (genesisIdentity start checkpoint))
  return {
    id := start.runId, commandId := start.commandId, sourceId := start.sourceId
    scopeVersion := start.scopeVersion, attempt := start.attempt, status := .running
    startCheckpointRevision := checkpoint.revision, startCursor := checkpoint.cursor
    genesisChainHash := genesis, committedPageHashChain := genesis
    leaseIdentityHash := start.leaseIdentityHash, startedAt := startedAt
    heartbeatAt := startedAt, finalCursor := checkpoint.cursor }

end Genesis

section Transitions

def reviewedCaps (run : RunState) : Result (ℕ × ℕ) :=
  match run.reviewedPageCap, run.reviewedPostCap with
  | some pageCap, some postCap =>
    if pageCap < 1 ∨ postCap < 1 then .error (fail .invalidContract 409)
    else .ok (pageCap, postCap)
  | _, _ => .error (fail .invalidContract 409)

theorem reviewedCaps_eq_ok {run : RunState} {caps : ℕ × ℕ} :
    reviewedCaps run = .ok caps ↔
      run.reviewedPageCap = some caps.1 ∧ run.reviewedPostCap = some caps.2 ∧
        1 ≤ caps.1 ∧ 1 ≤ caps.2 := by
  obtain ⟨pageCap, postCap⟩ := caps
  cases hp : run.reviewedPageCap <;> cases hq : run.reviewedPostCap <;>
    simp only [reviewedCaps, hp, hq, reduceCtorEq, false_and, and_false]
  split
  · simp; omega
  · simp; omega

def markPageCap (request : PageCommitRequest) : PageCommitRequest :=
  ⟨{ request.toPageCommitBody with
      isTerminalPage := true
      terminalReason := some .reviewedPageCap }, request.valid.seal _⟩

def serverTerminalRequest (context : PageCommitContext) (request : PageCommitRequest) :
    Result PageCommitRequest := do
  let caps ← reviewedCaps context.run
  let reachesCap := context.run.committedPageCount + 1 = caps.1
  if reachesCap ∧ request.terminalReason = none then return markPageCap request
  else return request

/-- Authorization, lease ownership, stream state, compare-and-swap, ordinal. -/
def validateNewPageCommit (context : PageCommitContext) (request : PageCommitRequest) :
    Result Unit := do
  let authorization ← requireActiveAuthorization context.authorization context.run.sourceId
    context.run.scopeVersion context.dbNow
  require (some authorization.decisionId = context.run.authorizationDecisionId)
    (fail .sourceAuthorizationInactive 403)
  require (context.command.status = .running ∧ context.run.status = .running ∧
    tokenMatches request.leaseToken context.command.leaseHash ∧
    hashToken request.leaseToken = context.run.leaseIdentityHash)
    (fail .leaseOrAttemptMismatch 409)
  match context.existingOrdinalCommit with
  | some existing => throw (.collection { code := .ordinalAlreadyCommitted, statusCode := 409,
                                          existingCommitId := some existing.id })
  | none => pure ()
  match context.run.terminalPageCommitId with
  | some sealedBy => throw (.collection { code := .runStreamSealed, statusCode := 409,
                                          existingCommitId := some sealedBy })
  | none => pure ()
  let caps ← reviewedCaps context.run
  require (context.run.committedPageCount < caps.1) (fail .runStreamSealed 409)
  require (request.expectedCheckpointRevision = context.checkpoint.revision ∧
    request.expectedCursor = context.checkpoint.cursor)
    (.collection { code := .checkpointConflict, statusCode := 409,
                   currentCheckpointRevision := some context.checkpoint.revision,
                   currentCursor := context.checkpoint.cursor })
  require (request.pageOrdinal = context.run.nextPageOrdinal)
    (.collection { code := .ordinalGap, statusCode := 409,
                   expectedPageOrdinal := some context.run.nextPageOrdinal })

def CapReached (run : RunState) (pageCap postCap accepted : ℕ) : Option TerminalReason → Prop
  | some .reviewedPageCap => run.committedPageCount + 1 = pageCap
  | some .reviewedPostCap => postCap ≤ run.acceptedCount + accepted
  | some .reviewedByteCap | some .sourceExhausted | none => True

instance (run : RunState) (pageCap postCap accepted : ℕ) (reason : Option TerminalReason) :
    Decidable (CapReached run pageCap postCap accepted reason) := by
  unfold CapReached; split <;> infer_instance

def validateTerminalCap (context : PageCommitContext) (request : PageCommitRequest)
    (accepted : ℕ) : Result Unit := do
  let caps ← reviewedCaps context.run
  require (CapReached context.run caps.1 caps.2 accepted request.terminalReason)
    (fail .invalidTerminalReason 422)

/-- The order of `(published_at, source_post_id)` pairs. -/
def WatermarkLT (a b : Instant × String) : Prop := a.1 < b.1 ∨ (a.1 = b.1 ∧ a.2 < b.2)

instance (a b : Instant × String) : Decidable (WatermarkLT a b) :=
  inferInstanceAs (Decidable (_ ∨ _))

/-- `max` of the full items of a page, the first one of equal pairs. -/
def latestItem : List NormalizedPageItem → Option (Instant × String)
  | [] => none
  | .rejection _ :: rest => latestItem rest
  | .post item :: rest =>
    match latestItem rest with
    | none => some (item.publishedAt, item.sourcePostId)
    | some later =>
      if WatermarkLT (item.publishedAt, item.sourcePostId) later then some later
      else some (item.publishedAt, item.sourcePostId)

/-- The watermark after a page. Ordering a text against a missing source post
    identity of the same instant raises. -/
def advanceWatermark (publishedAt : Option Instant) (sourcePostId : Option String) :
    Option (Instant × String) → Result (Option Instant × Option String)
  | none => .ok (publishedAt, sourcePostId)
  | some candidate =>
    match publishedAt, sourcePostId with
    | none, _ => .ok (some candidate.1, some candidate.2)
    | some at_, some post =>
      if WatermarkLT (at_, post) candidate then .ok (some candidate.1, some candidate.2)
      else .ok (publishedAt, sourcePostId)
    | some at_, none =>
      if candidate.1 = at_ then .error .typeError
      else if at_ < candidate.1 then .ok (some candidate.1, some candidate.2)
      else .ok (publishedAt, sourcePostId)

def advanceCheckpoint (checkpoint : CheckpointState) (request : PageCommitRequest)
    (items : List NormalizedPageItem) : Result CheckpointState := do
  let (publishedAt, sourcePostId) ← advanceWatermark checkpoint.watermarkPublishedAt
    checkpoint.watermarkSourcePostId (latestItem items)
  return { checkpoint with
    revision := checkpoint.revision + 1
    cursor := request.nextCursor
    watermarkPublishedAt := publishedAt
    watermarkSourcePostId := sourcePostId }

/-- Aggregate run facts; a terminal page seals all its marker facts together. -/
def advanceRun (run : RunState) (commit : PageCommitRecord) (dbNow : Instant) : RunState :=
  let updated := { run with
    acceptedCount := run.acceptedCount + commit.acceptedCount
    committedPageCount := run.committedPageCount + 1
    committedPageHashChain := commit.resultingChainHash
    duplicateCount := run.duplicateCount + commit.duplicateCount
    finalCursor := commit.nextCursor
    finalPageOrdinal := some commit.pageOrdinal
    lastPageCommitId := some commit.id
    nextPageOrdinal := commit.pageOrdinal + 1
    rejectedCount := run.rejectedCount + commit.rejectedCount }
  if commit.isTerminalPage then
    { updated with
      terminalPageCommitId := some commit.id
      terminalPageOrdinal := some commit.pageOrdinal
      terminalCursor := commit.nextCursor
      terminalReason := commit.terminalReason
      terminalChainHash := some commit.resultingChainHash
      completionReadyAt := some dbNow }
  else updated

end Transitions

section Commit
variable (rt : Runtime)

def itemResult (item : PageItemPlan) : Json := .object
  [("disposition", .ofString item.disposition.value),
   ("item_ordinal", .ofNat item.itemOrdinal),
   ("normalized_content_hash", Digest.json item.normalizedContentHash),
   ("post_id", .ofOption UUID.json item.postId),
   ("post_version_id", .ofOption UUID.json item.postVersionId),
   ("revision", .ofOption .ofNat item.revision),
   ("source_post_id", .ofString item.normalizedItem.sourcePostId)]

def pageResult (request : PageCommitRequest) (requestHash : Digest) (nextRevision : ℕ)
    (items : List PageItemPlan) : Json := .object
  [("accepted_count", .ofNat (countOf .accepted items)),
   ("checkpoint_revision", .ofNat nextRevision),
   ("duplicate_count", .ofNat (countOf .duplicate items)),
   ("is_terminal_page", .bool request.isTerminalPage),
   ("items", .list (items.map itemResult)),
   ("next_cursor", .ofOption .ofString request.nextCursor),
   ("page_ordinal", .ofNat request.pageOrdinal),
   ("page_request_hash", Digest.json requestHash),
   ("rejected_count", .ofNat (countOf .rejectedOversize items)),
   ("schema", .ofString "page-result/v1"),
   ("terminal_reason", .ofOption (fun r => .ofString r.value) request.terminalReason)]

def PageCommitResponse.json (response : PageCommitResponse) : Json := .object
  [("page_commit_id", response.pageCommitId.json),
   ("checkpoint_revision", .ofNat response.checkpointRevision),
   ("next_cursor", .ofOption .ofString response.nextCursor),
   ("accepted_count", .ofNat response.acceptedCount),
   ("duplicate_count", .ofNat response.duplicateCount),
   ("rejected_count", .ofNat response.rejectedCount),
   ("page_content_hash", Digest.json response.pageContentHash)]

def replayPage (context : PageCommitContext) (request : PageCommitRequest) (requestHash : Digest)
    (replay : PageCommitRecord) : Result PageCommitPlan := do
  require (replay.pageRequestHash = requestHash) (fail .idempotencyKeyReused 409)
  require (replay.leaseIdentityHash = hashToken request.leaseToken)
    (fail .leaseOrAttemptMismatch 409)
  let response ← present (rt.parsePageCommitResponse replay.storedResponse) .validation
  return {
    commit := replay, items := [], updatedCheckpoint := context.checkpoint
    updatedRun := context.run, outcome := ⟨200, response, replay.storedResponse⟩
    shouldPersist := false }

def pageResponse (request : PageCommitRequest) (contentHash : Digest) (commitId : UUID)
    (nextRevision : ℕ) (items : List PageItemPlan) : PageCommitResponse where
  pageCommitId := commitId
  checkpointRevision := nextRevision
  nextCursor := request.nextCursor
  acceptedCount := countOf .accepted items
  duplicateCount := countOf .duplicate items
  rejectedCount := countOf .rejectedOversize items
  pageContentHash := contentHash

def pageRecord (context : PageCommitContext) (request : PageCommitRequest)
    (requestHash : Digest) (commitId : UUID) (items : List PageItemPlan) : PageCommitRecord :=
  let run := context.run
  let nextRevision := context.checkpoint.revision + 1
  let contentHash := canonicalJsonHash rt.nfc (pageResult request requestHash nextRevision items)
  { id := commitId
    runId := run.id
    commandId := run.commandId
    attempt := run.attempt
    leaseIdentityHash := run.leaseIdentityHash
    pageIdempotencyKey := request.pageIdempotencyKey
    pageOrdinal := request.pageOrdinal
    expectedCheckpointRevision := request.expectedCheckpointRevision
    resultingCheckpointRevision := nextRevision
    expectedCursor := request.expectedCursor
    nextCursor := request.nextCursor
    pageRequestHash := requestHash
    pageContentHash := contentHash
    previousChainHash := run.committedPageHashChain
    resultingChainHash := pageChainLink run.committedPageHashChain contentHash
    sourcePageReceiptSha256 := request.sourcePageReceiptSha256
    sourcePageItemCount := request.sourcePageItemCount
    acceptedCount := countOf .accepted items
    duplicateCount := countOf .duplicate items
    rejectedCount := countOf .rejectedOversize items
    isTerminalPage := request.isTerminalPage
    terminalReason := request.terminalReason
    storedResponse := canonicalBytes rt.nfc (PageCommitResponse.json
      (pageResponse request contentHash commitId nextRevision items)) }

/-- The plan of an admitted page; its commit identity follows those of its items. -/
def newPagePlan (context : PageCommitContext) (request : PageCommitRequest)
    (requestHash : Digest) (classified : ℕ × List PageItemPlan) (newId : ℕ → UUID)
    (checkpoint : CheckpointState) : PageCommitPlan :=
  let commit := pageRecord rt context request requestHash (newId classified.1) classified.2
  { commit := commit
    items := classified.2
    updatedCheckpoint := checkpoint
    updatedRun := advanceRun context.run commit context.dbNow
    outcome := ⟨201, pageResponse request commit.pageContentHash commit.id
      commit.resultingCheckpointRevision classified.2, commit.storedResponse⟩
    shouldPersist := true }

def commitPage (context : PageCommitContext) (request : PageCommitRequest)
    (normalized : List NormalizedPageItem) (requestHash : Digest) (newId : ℕ → UUID) :
    Result PageCommitPlan := do
  validateNewPageCommit context request
  let classified := classifyPageItems normalized context.existingPosts newId
  validateTerminalCap context request (countOf .accepted classified.2)
  let checkpoint ← advanceCheckpoint context.checkpoint request normalized
  return newPagePlan rt context request requestHash classified newId checkpoint

/-- Validate and plan one page transaction without performing persistence. -/
def preparePageCommit (context : PageCommitContext) (request : PageCommitRequest)
    (newId : ℕ → UUID) : Result PageCommitPlan := do
  let request ← serverTerminalRequest context request
  let normalized ← normalizePageItems rt.nfc request.posts
  let requestHash ← pageRequestHash rt.nfc request.toPageCommitBody normalized
  require (request.commandId = context.run.commandId ∧ request.attempt = context.run.attempt)
    (fail .leaseOrAttemptMismatch 409)
  match context.existingIdempotencyCommit with
  | some replay => replayPage rt context request requestHash replay
  | none => commitPage rt context request normalized requestHash newId

end Commit

section Specifications
variable {rt : Runtime}

structure Admitted (context : PageCommitContext) (request : PageCommitRequest) : Prop where
  active : ActiveFor context.authorization context.run.sourceId context.run.scopeVersion
    context.dbNow
  decision : some context.authorization.decisionId = context.run.authorizationDecisionId
  commandRunning : context.command.status = .running
  runRunning : context.run.status = .running
  lease : tokenMatches request.leaseToken context.command.leaseHash
  runLease : hashToken request.leaseToken = context.run.leaseIdentityHash
  ordinalFree : context.existingOrdinalCommit = none
  unsealed : context.run.terminalPageCommitId = none
  belowCap : ∃ caps, reviewedCaps context.run = .ok caps ∧
    context.run.committedPageCount < caps.1
  revision : request.expectedCheckpointRevision = context.checkpoint.revision
  cursor : request.expectedCursor = context.checkpoint.cursor
  ordinal : request.pageOrdinal = context.run.nextPageOrdinal

theorem validateNewPageCommit_eq_ok {context : PageCommitContext} {request : PageCommitRequest} :
    validateNewPageCommit context request = .ok () ↔ Admitted context request := by
  unfold validateNewPageCommit
  constructor
  · intro h
    obtain ⟨proof, hproof, h⟩ := bind_eq_ok.mp h
    obtain ⟨hactive, rfl⟩ := requireActiveAuthorization_eq_ok.mp hproof
    obtain ⟨hdecision, h⟩ := require_bind.mp h
    obtain ⟨⟨hcommand, hrun, hlease, hrunLease⟩, h⟩ := require_bind.mp h
    cases hordinal : context.existingOrdinalCommit with
    | some existing => simp [hordinal, throw, throwThe, MonadExceptOf.throw, error_bind] at h
    | none =>
      cases hsealed : context.run.terminalPageCommitId with
      | some sealedBy =>
        simp [hordinal, hsealed, throw, throwThe, MonadExceptOf.throw, error_bind] at h
      | none =>
        simp only [hordinal, hsealed] at h
        obtain ⟨caps, hcaps, h⟩ := bind_eq_ok.mp h
        obtain ⟨hbelow, h⟩ := require_bind.mp h
        obtain ⟨⟨hrevision, hcursor⟩, h⟩ := require_bind.mp h
        exact ⟨hactive, hdecision, hcommand, hrun, hlease, hrunLease, hordinal, hsealed,
          ⟨caps, hcaps, hbelow⟩, hrevision, hcursor, require_eq_ok.mp h⟩
  · intro h
    obtain ⟨caps, hcaps, hbelow⟩ := h.belowCap
    have hactive := requireActiveAuthorization_eq_ok.mpr ⟨h.active, rfl⟩
    simp only [hactive, ok_bind, require_of h.decision, h.commandRunning, h.runRunning, h.lease,
      h.runLease, and_self, require_of True.intro, h.ordinalFree, h.unsealed, hcaps,
      require_of hbelow, h.revision, h.cursor, h.ordinal]

theorem serverTerminalRequest_eq_ok {context : PageCommitContext}
    {request served : PageCommitRequest} :
    serverTerminalRequest context request = .ok served ↔
      ∃ caps, reviewedCaps context.run = .ok caps ∧
        served = if context.run.committedPageCount + 1 = caps.1 ∧ request.terminalReason = none
          then markPageCap request else request := by
  rw [serverTerminalRequest, bind_eq_ok]
  refine exists_congr fun caps => and_congr_right fun _ => ?_
  dsimp only
  split
  · exact ⟨fun h => (Except.ok.inj h).symm, fun h => h ▸ rfl⟩
  · exact ⟨fun h => (Except.ok.inj h).symm, fun h => h ▸ rfl⟩

theorem replayPage_eq_ok {context : PageCommitContext} {request : PageCommitRequest}
    {requestHash : Digest} {replay : PageCommitRecord} {plan : PageCommitPlan} :
    replayPage rt context request requestHash replay = .ok plan ↔
      replay.pageRequestHash = requestHash ∧
      replay.leaseIdentityHash = hashToken request.leaseToken ∧
      ∃ response, rt.parsePageCommitResponse replay.storedResponse = some response ∧
        plan = ⟨replay, [], context.checkpoint, context.run,
          ⟨200, response, replay.storedResponse⟩, false⟩ := by
  rw [replayPage, require_bind, require_bind, bind_eq_ok]
  simp only [present_eq_ok, pure, Except.pure, Except.ok.injEq, eq_comm (b := plan)]

/-- What a committed page has passed, and its plan. -/
structure NewPage (rt : Runtime) (context : PageCommitContext) (request : PageCommitRequest)
    (normalized : List NormalizedPageItem) (requestHash : Digest) (newId : ℕ → UUID)
    (plan : PageCommitPlan) : Prop where
  admitted : Admitted context request
  capReached : ∃ caps, reviewedCaps context.run = .ok caps ∧
    CapReached context.run caps.1 caps.2
      (countOf .accepted (classifyPageItems normalized context.existingPosts newId).2)
      request.terminalReason
  planned : ∃ checkpoint, advanceCheckpoint context.checkpoint request normalized = .ok checkpoint ∧
    plan = newPagePlan rt context request requestHash
      (classifyPageItems normalized context.existingPosts newId) newId checkpoint

theorem newPage_of_commitPage {context : PageCommitContext} {request : PageCommitRequest}
    {normalized : List NormalizedPageItem} {requestHash : Digest} {newId : ℕ → UUID}
    {plan : PageCommitPlan}
    (h : commitPage rt context request normalized requestHash newId = .ok plan) :
    NewPage rt context request normalized requestHash newId plan := by
  unfold commitPage at h
  obtain ⟨_, hvalid, h⟩ := bind_eq_ok.mp h
  obtain ⟨_, hcap, h⟩ := bind_eq_ok.mp h
  obtain ⟨checkpoint, hcheckpoint, h⟩ := bind_eq_ok.mp h
  obtain ⟨caps, hcaps, hcap⟩ := bind_eq_ok.mp hcap
  exact ⟨validateNewPageCommit_eq_ok.mp hvalid, ⟨caps, hcaps, require_eq_ok.mp hcap⟩,
    checkpoint, hcheckpoint, (Except.ok.inj h).symm⟩

/-- An accepted call is either a replay without a write or a new page. -/
theorem preparePageCommit_cases {context : PageCommitContext} {request : PageCommitRequest}
    {newId : ℕ → UUID} {plan : PageCommitPlan}
    (h : preparePageCommit rt context request newId = .ok plan) :
    ∃ served normalized requestHash,
      serverTerminalRequest context request = .ok served ∧
      normalizePageItems rt.nfc served.posts = .ok normalized ∧
      pageRequestHash rt.nfc served.toPageCommitBody normalized = .ok requestHash ∧
      (served.commandId = context.run.commandId ∧ served.attempt = context.run.attempt) ∧
      ((∃ replay, context.existingIdempotencyCommit = some replay ∧
          replayPage rt context served requestHash replay = .ok plan) ∨
        (context.existingIdempotencyCommit = none ∧
          NewPage rt context served normalized requestHash newId plan)) := by
  unfold preparePageCommit at h
  obtain ⟨served, hserved, h⟩ := bind_eq_ok.mp h
  obtain ⟨normalized, hnormalized, h⟩ := bind_eq_ok.mp h
  obtain ⟨requestHash, hhash, h⟩ := bind_eq_ok.mp h
  obtain ⟨howner, h⟩ := require_bind.mp h
  refine ⟨served, normalized, requestHash, hserved, hnormalized, hhash, howner, ?_⟩
  cases hkey : context.existingIdempotencyCommit with
  | some replay => exact .inl ⟨replay, rfl, by simpa only [hkey] using h⟩
  | none => exact .inr ⟨rfl, newPage_of_commitPage (by simpa only [hkey] using h)⟩

end Specifications

end PredictionMarketMonitor.PageCommit
