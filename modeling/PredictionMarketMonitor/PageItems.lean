import PredictionMarketMonitor.CollectionModels

set_option autoImplicit false

/-!
# Page items: normalization, classification and request identity

`normalizer.py` and `page_item_planning.py`. Fresh identities come from a
supply `newId` read at successive positions.
-/
namespace PredictionMarketMonitor.PageItems

open CanonicalJson CivilTime CollectionBase CollectionModels FallibleSteps Sha256

section Normalizer
variable (nfc : Text → Text)

/-- `"\r\n"` and then every remaining `"\r"` become `"\n"`. -/
def unixNewlines : Text → Text
  | '\r' :: '\n' :: rest => '\n' :: unixNewlines rest
  | '\r' :: rest => '\n' :: unixNewlines rest
  | c :: rest => c :: unixNewlines rest
  | [] => []

def normalizeText (value : String) : String := String.ofList (nfc (unixNewlines value.toList))

def computeContentHash (title body : String) : Digest :=
  canonicalJsonHash nfc
    (.object [("title", .ofString (normalizeText nfc title)),
      ("body", .ofString (normalizeText nfc body))])

def computeBodyBytes (body : String) : ℕ := (encode (normalizeText nfc body)).length

def normalizeItem : PagePostInput → Result NormalizedPageItem
  | .oversize item => .ok (.rejection
      { sourcePostId := item.sourcePostId, canonicalUrl := item.canonicalUrl,
        contentHash := item.contentHash, bodyBytes := item.bodyBytes })
  | .accepted item => do
    let title := normalizeText nfc item.title
    let body := normalizeText nfc item.body
    let contentHash := computeContentHash nfc title body
    require (contentHash = item.contentHash) (fail .invalidContract 422)
    let bodyBytes := computeBodyBytes nfc body
    if maxPostBytes < bodyBytes then
      return .rejection
        { sourcePostId := item.sourcePostId, canonicalUrl := item.canonicalUrl,
          contentHash := contentHash, bodyBytes := bodyBytes }
    else
      let publishedAt ← requireUtc item.publishedAt
      return .post
        { sourcePostId := item.sourcePostId, canonicalUrl := item.canonicalUrl, title := title,
          body := body, bodyBytes := bodyBytes, publishedAt := publishedAt,
          language := item.language, commentsCount := item.commentsCount,
          upvoteOrScore := item.upvoteOrScore, contentHash := contentHash }

def normalizePageItems (items : List PagePostInput) : Result (List NormalizedPageItem) := do
  require (items.map PagePostInput.sourcePostId).Nodup (fail .invalidContract 422)
  items.mapM (normalizeItem nfc)

variable {nfc}

theorem normalizeItem_sourcePostId {item : PagePostInput} {n : NormalizedPageItem}
    (h : normalizeItem nfc item = .ok n) : n.sourcePostId = item.sourcePostId := by
  cases item with
  | oversize item => rw [← Except.ok.inj h]; rfl
  | accepted item =>
    obtain ⟨_, h⟩ := require_bind.mp h
    dsimp only at h
    split at h
    · rw [← Except.ok.inj h]; rfl
    · obtain ⟨_, _, h⟩ := bind_eq_ok.mp h
      rw [← Except.ok.inj h]; rfl

theorem normalizePageItems_length {items : List PagePostInput} {ns : List NormalizedPageItem}
    (h : normalizePageItems nfc items = .ok ns) : ns.length = items.length :=
  (mapM_forall₂.mp (require_bind.mp h).2).length_eq.symm

end Normalizer

section Planning
variable (nfc : Text → Text)

def pageChainLink (previousHash pageContentHash : Digest) : Digest :=
  sha256 (encode "page-chain-link/v1\n" ++ Digest.bytes previousHash ++
    Digest.bytes pageContentHash)

def itemPayload : NormalizedPageItem → Json
  | .post item => .object
      [("body", .ofString item.body),
       ("canonical_url", .ofString item.canonicalUrl),
       ("comments_count", .ofOption .ofNat item.commentsCount),
       ("content_hash", Digest.json item.contentHash),
       ("language", .ofString item.language.value),
       ("published_at", .str (formatUtc item.publishedAt)),
       ("source_post_id", .ofString item.sourcePostId),
       ("title", .ofString item.title),
       ("upvote_or_score", .ofOption .int item.upvoteOrScore)]
  | .rejection item => .object
      [("body_bytes", .ofNat item.bodyBytes),
       ("canonical_url", .ofString item.canonicalUrl),
       ("content_hash", Digest.json item.contentHash),
       ("rejection_reason", .ofString "rejected_oversize"),
       ("source_post_id", .ofString item.sourcePostId)]

def pageRequestPayload (request : PageCommitBody) (startedAt finishedAt : Instant)
    (items : List NormalizedPageItem) : List (String × Json) :=
  [("attempt", .ofNat request.attempt),
   ("command_id", request.commandId.json),
   ("expected_checkpoint_revision", .ofNat request.expectedCheckpointRevision),
   ("expected_cursor", .ofOption .ofString request.expectedCursor),
   ("is_terminal_page", .bool request.isTerminalPage),
   ("next_cursor", .ofOption .ofString request.nextCursor),
   ("page_fetch_finished_at", .str (formatUtc finishedAt)),
   ("page_fetch_started_at", .str (formatUtc startedAt)),
   ("page_ordinal", .ofNat request.pageOrdinal),
   ("posts", .list (items.map itemPayload)),
   ("schema", .ofString "page-request/v1"),
   ("source_page_item_count", .ofNat request.sourcePageItemCount),
   ("source_page_receipt_sha256", Digest.json request.sourcePageReceiptSha256),
   ("terminal_reason", .ofOption (fun r => .ofString r.value) request.terminalReason)]

/-- Hash normalized request facts; the idempotency key and the lease stay out. -/
def pageRequestHash (request : PageCommitBody) (items : List NormalizedPageItem) :
    Result Digest := do
  let finishedAt ← requireUtc request.pageFetchFinishedAt
  let startedAt ← requireUtc request.pageFetchStartedAt
  return canonicalJsonHash nfc (.object (pageRequestPayload request startedAt finishedAt items))

def pageRequestKeys : List String :=
  ["attempt", "command_id", "expected_checkpoint_revision", "expected_cursor",
   "is_terminal_page", "next_cursor", "page_fetch_finished_at", "page_fetch_started_at",
   "page_ordinal", "posts", "schema", "source_page_item_count",
   "source_page_receipt_sha256", "terminal_reason"]

theorem pageRequestPayload_keys (request : PageCommitBody) (startedAt finishedAt : Instant)
    (items : List NormalizedPageItem) :
    ((pageRequestPayload request startedAt finishedAt items).map
      (fun p => (p.1.toList, p.2))).map Prod.fst = pageRequestKeys.map String.toList := by
  have hkeys : (pageRequestPayload request startedAt finishedAt items).map Prod.fst
      = pageRequestKeys := rfl
  rw [← hkeys, List.map_map, List.map_map]
  rfl

theorem pageRequestKeys_sorted : (pageRequestKeys.map String.toList).Pairwise (· < ·) := by
  rw [← List.isChain_iff_pairwise]
  decide +kernel

theorem pageRequestKeys_ascii : ∀ k ∈ pageRequestKeys.map String.toList, IsAscii k := by
  decide +kernel

theorem pageRequestPayload_bytes_ne {nfc : Text → Text} (hnfc : FixesAscii nfc)
    {request : PageCommitBody} {reason : Option TerminalReason} {s t : Instant}
    {ns : List NormalizedPageItem} (hopen : request.isTerminalPage = false) :
    canonicalBytes nfc (.object (pageRequestPayload
        { request with isTerminalPage := true, terminalReason := reason } s t ns)) ≠
      canonicalBytes nfc (.object (pageRequestPayload request s t ns)) := by
  let fields (b : PageCommitBody) : Fields :=
    (pageRequestPayload b s t ns).map (fun p => (p.1.toList, p.2))
  have hsplit (b : PageCommitBody) : fields b = (fields b).take 4 ++
      ("is_terminal_page".toList, .bool b.isTerminalPage) :: (fields b).drop 5 := rfl
  have hsorted (b : PageCommitBody) : ((fields b).map Prod.fst).Pairwise (· < ·) :=
    pageRequestPayload_keys b s t ns ▸ pageRequestKeys_sorted
  have hascii (b : PageCommitBody) : ∀ k ∈ (fields b).map Prod.fst, IsAscii k :=
    pageRequestPayload_keys b s t ns ▸ pageRequestKeys_ascii
  have hfront : (fields { request with isTerminalPage := true, terminalReason := reason }).take 4 =
      (fields request).take 4 := rfl
  have hm := hsplit { request with isTerminalPage := true, terminalReason := reason }
  have hu := hsplit request
  rw [hfront] at hm
  rw [hopen] at hu
  have hne := canonicalBytes_ne_of_flag hnfc (hm ▸ hsorted _) (hu ▸ hsorted request)
    (hm ▸ hascii _) (hu ▸ hascii request)
  rw [← hm, ← hu] at hne
  exact hne

/-- One item's outcome, the number of fresh identities it takes, and its plan. -/
def classifyItem (existing : List ExistingPostVersion) (newId : ℕ → UUID) (used ordinal : ℕ) :
    NormalizedPageItem → ℕ × PageItemPlan
  | .rejection item =>
    (used, ⟨ordinal, .rejectedOversize, .rejection item, item.contentHash, none, none, none⟩)
  | .post item =>
    match existing.find? (fun row => row.sourcePostId = item.sourcePostId) with
    | some current =>
      if current.currentContentHash = item.contentHash then
        (used, ⟨ordinal, .duplicate, .post item, item.contentHash, some current.postId,
          some current.currentVersionId, some current.currentRevision⟩)
      else
        (used + 1, ⟨ordinal, .accepted, .post item, item.contentHash, some current.postId,
          some (newId used), some (current.currentRevision + 1)⟩)
    | none =>
      -- a first version takes a post identity and then a version identity
      (used + 2, ⟨ordinal, .accepted, .post item, item.contentHash, some (newId used),
        some (newId (used + 1)), some 1⟩)

/-- Classify from `ordinal` on; the first component counts the identities taken so far. -/
def classifyFrom (existing : List ExistingPostVersion) (newId : ℕ → UUID) :
    ℕ → ℕ → List NormalizedPageItem → ℕ × List PageItemPlan
  | used, _, [] => (used, [])
  | used, ordinal, item :: rest =>
    let (used', plan) := classifyItem existing newId used ordinal item
    let (final, plans) := classifyFrom existing newId used' (ordinal + 1) rest
    (final, plan :: plans)

def classifyPageItems (normalized : List NormalizedPageItem)
    (existing : List ExistingPostVersion) (newId : ℕ → UUID) : ℕ × List PageItemPlan :=
  classifyFrom existing newId 0 0 normalized

def countOf (disposition : PageItemDisposition) (items : List PageItemPlan) : ℕ :=
  items.countP (fun item => item.disposition = disposition)

theorem classifyFrom_length (existing : List ExistingPostVersion) (newId : ℕ → UUID)
    (used ordinal : ℕ) (ns : List NormalizedPageItem) :
    (classifyFrom existing newId used ordinal ns).2.length = ns.length := by
  induction ns generalizing used ordinal with
  | nil => rfl
  | cons n ns ih => simp [classifyFrom, ih]

theorem classifyPageItems_length (ns : List NormalizedPageItem)
    (existing : List ExistingPostVersion) (newId : ℕ → UUID) :
    (classifyPageItems ns existing newId).2.length = ns.length :=
  classifyFrom_length existing newId 0 0 ns

theorem countOf_total (items : List PageItemPlan) :
    countOf .accepted items + countOf .duplicate items + countOf .rejectedOversize items
      = items.length := by
  induction items with
  | nil => rfl
  | cons item items ih =>
    simp only [countOf, List.countP_cons, List.length_cons] at ih ⊢
    cases item.disposition <;> simp <;> omega

end Planning

end PredictionMarketMonitor.PageItems
