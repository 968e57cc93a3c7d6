import PredictionMarketMonitor.ManifoldComments

set_option autoImplicit false

/-!
# One logical page of Manifold comments

`manifold_page.py` and the loop of `ManifoldAdapter.fetch_page`: identity, count
and byte caps over the pairs of a market and a comment, in the order of the
loop.
-/
namespace PredictionMarketMonitor.ManifoldPage

open CanonicalJson CivilTime CollectionBase Sha256 ManifoldComments
open CollectionModels (Language)
open PageItems (computeBodyBytes normalizeText unixNewlines)

inductive PageTermination
  | continue | sourceExhausted | reviewedPostCap | reviewedByteCap | rateLimitPause
deriving DecidableEq

structure NormalizedPost where
  source : SourcePlatform
  sourcePostId : String
  canonicalUrl : String
  title : String
  body : String
  publishedAt : Instant
  language : Language
  commentsCount : Option ℕ
  upvoteOrScore : Option ℤ
  contentHash : Digest
  sizeBytes : ℕ

structure RejectedOversize where
  source : SourcePlatform
  sourcePostId : String
  canonicalUrl : String
  contentHash : Digest
  sizeBytes : ℕ

inductive NormalizedItem
  | post (item : NormalizedPost)
  | oversize (item : RejectedOversize)

namespace NormalizedItem

def sourcePostId : NormalizedItem → String
  | .post item => item.sourcePostId
  | .oversize item => item.sourcePostId

def canonicalUrl : NormalizedItem → String
  | .post item => item.canonicalUrl
  | .oversize item => item.canonicalUrl

def post? : NormalizedItem → Option NormalizedPost
  | .post item => some item
  | .oversize _ => none

def Valid (item : NormalizedItem) : Prop :=
  (1 ≤ item.sourcePostId.length ∧ item.sourcePostId.length ≤ 300) ∧
    "https://".toList <+: item.canonicalUrl.toList ∧
    ∀ o, item = .oversize o → 262144 < o.sizeBytes

end NormalizedItem

structure RateLimitSnapshot where
  used : Option ℚ
  remaining : Option ℚ
  resetAfterSeconds : Option ℚ
  retryAfterSeconds : Option ℚ

structure AdapterPage where
  items : List NormalizedItem
  nextCursor : Option String
  acceptedCount : ℕ
  rejectedCount : ℕ
  rateLimit : RateLimitSnapshot
  termination : PageTermination

def maxManifoldPersistedBytes : ℕ := 262144

structure ManifoldPageAccumulator where
  acceptedLimit : ℕ
  items : List NormalizedItem
  acceptedCount : ℕ
  rejectedCount : ℕ
  persistedBytes : ℕ
  seenCommentIds : List String

namespace ManifoldPageAccumulator

def init (acceptedLimit : ℕ) : ManifoldPageAccumulator := ⟨acceptedLimit, [], 0, 0, 0, []⟩

def page (acc : ManifoldPageAccumulator) (termination : PageTermination) : AdapterPage :=
  ⟨acc.items, none, acc.acceptedCount, acc.rejectedCount, ⟨none, none, none, none⟩, termination⟩

end ManifoldPageAccumulator

def accepted (n : ManifoldNormalizedComment) : NormalizedPost :=
  { source := .manifold, sourcePostId := n.sourcePostId, canonicalUrl := n.canonicalUrl,
    title := n.title, body := n.body, publishedAt := n.publishedAt, language := n.language,
    commentsCount := none, upvoteOrScore := none, contentHash := n.contentHash,
    sizeBytes := n.sizeBytes }

def rejected (n : ManifoldRejectedOversize) : RejectedOversize :=
  { source := .manifold, sourcePostId := n.sourcePostId, canonicalUrl := n.canonicalUrl,
    contentHash := n.contentHash, sizeBytes := n.sizeBytes }

def candidateBytes (n : ManifoldNormalizedComment) : ℕ := (encode n.title).length + n.sizeBytes

section Accumulator
variable {F : Type} (r : Runtime F)

abbrev Listed (F : Type) := ManifoldMarket × ManifoldCommentWire F

def add (acc : ManifoldPageAccumulator) (market : ManifoldMarket) (comment : ManifoldCommentWire F) :
    ManifoldPageAccumulator × Option PageTermination :=
  if comment.id ∈ acc.seenCommentIds then ({ acc with rejectedCount := acc.rejectedCount + 1 }, none)
  else
    let seen := { acc with seenCommentIds := comment.id :: acc.seenCommentIds }
    match normalizeManifoldComment r market comment with
    | .skipped _ => ({ seen with rejectedCount := acc.rejectedCount + 1 }, none)
    | .rejectedOversize n =>
      ({ seen with
          items := acc.items ++ [.oversize (rejected n)]
          rejectedCount := acc.rejectedCount + 1 }, none)
    | .normalized n =>
      if maxManifoldPersistedBytes < acc.persistedBytes + candidateBytes n then
        (seen, some .reviewedByteCap)
      else
        ({ seen with
            items := acc.items ++ [.post (accepted n)]
            acceptedCount := acc.acceptedCount + 1
            persistedBytes := acc.persistedBytes + candidateBytes n },
          if acc.acceptedLimit ≤ acc.acceptedCount + 1 then some .reviewedPostCap else none)

/-- What the loop leaves: the accumulator, the cap it stopped at, and the pairs it added. -/
structure Feed (F : Type) where
  accumulator : ManifoldPageAccumulator
  termination : Option PageTermination
  processed : List (Listed F)

def feed (acc : ManifoldPageAccumulator) : List (Listed F) → Feed F
  | [] => ⟨acc, none, []⟩
  | pair :: rest =>
    match add r acc pair.1 pair.2 with
    | (next, some termination) => ⟨next, some termination, [pair]⟩
    | (next, none) =>
      let fed := feed next rest
      { fed with processed := pair :: fed.processed }

def Feed.page (fed : Feed F) : AdapterPage :=
  fed.accumulator.page (fed.termination.getD .sourceExhausted)

def Feed.posts (fed : Feed F) : List NormalizedPost := fed.page.items.filterMap NormalizedItem.post?

/-- The bytes of a post as it is persisted: its title, and its body with unix newlines. -/
def postBytes (item : NormalizedPost) : ℕ :=
  (encode item.title).length + computeBodyBytes r.nfc item.body

def Fresh (before : List (Listed F)) (comment : ManifoldCommentWire F) : Prop :=
  comment.id ∉ before.map (fun pair => pair.2.id)

def Normalizable (pair : Listed F) : Prop :=
  ∀ n, normalizeManifoldComment r pair.1 pair.2 ≠ .skipped n

/-- A fresh comment that would take the bytes of what was accepted before it over the cap. -/
def Exceeds (limit : ℕ) (before : List (Listed F)) (pair : Listed F) : Prop :=
  Fresh before pair.2 ∧ ∃ n, normalizeManifoldComment r pair.1 pair.2 = .normalized n ∧
    maxManifoldPersistedBytes <
      ((feed r (.init limit) before).posts.map (postBytes r)).sum + candidateBytes n

/-- The reference fold of a page: which pairs it is made of, and what stops it. -/
structure Reference (limit : ℕ) (pairs : List (Listed F)) (fed : Feed F) : Prop where
  processed : fed.processed <+: pairs ∧ (fed.termination = none → fed.processed = pairs)
  valid : ∀ item ∈ fed.page.items, item.Valid
  distinct : (fed.page.items.map NormalizedItem.sourcePostId).Nodup
  ordered : (fed.page.items.map NormalizedItem.sourcePostId).Sublist
    (fed.processed.map fun pair => pair.2.id)
  accepted : fed.page.acceptedCount = fed.posts.length
  capped : fed.page.acceptedCount ≤ limit
  postCap : fed.termination = some .reviewedPostCap ↔ fed.page.acceptedCount = limit
  bytes : (fed.posts.map (postBytes r)).sum ≤ maxManifoldPersistedBytes
  byteCap : fed.termination = some .reviewedByteCap ↔
    ∃ before pair after, fed.processed = before ++ pair :: after ∧ Exceeds r limit before pair
  byteCap_last : ∀ before pair after, fed.processed = before ++ pair :: after →
    Exceeds r limit before pair → after = []
  rejected : fed.page.acceptedCount + fed.page.rejectedCount +
    (if fed.termination = some .reviewedByteCap then 1 else 0) = fed.processed.length
  complete : ∀ before pair after, fed.processed = before ++ pair :: after → Fresh before pair.2 →
    Normalizable r pair → ¬Exceeds r limit before pair →
    pair.2.id ∈ fed.page.items.map NormalizedItem.sourcePostId

end Accumulator

section Step
variable {F : Type} {r : Runtime F} {limit : ℕ} {done : List (Listed F)}
  {acc : ManifoldPageAccumulator} {market : ManifoldMarket} {comment : ManifoldCommentWire F}

theorem filterMap_append_singleton (items : List NormalizedItem) (item : NormalizedItem) :
    (items ++ [item]).filterMap NormalizedItem.post? =
      items.filterMap NormalizedItem.post? ++ item.post?.toList := by
  rw [List.filterMap_append]
  cases item <;> rfl

/-- What holds of the items and the counts of an accumulator. -/
structure Totals (r : Runtime F) (limit : ℕ) (acc : ManifoldPageAccumulator) : Prop where
  acceptedLimit : acc.acceptedLimit = limit
  valid : ∀ item ∈ acc.items, item.Valid
  distinct : (acc.items.map NormalizedItem.sourcePostId).Nodup
  accepted : acc.acceptedCount = (acc.items.filterMap NormalizedItem.post?).length
  capped : acc.acceptedCount ≤ limit
  measured : acc.persistedBytes = ((acc.items.filterMap NormalizedItem.post?).map (postBytes r)).sum
  fits : acc.persistedBytes ≤ maxManifoldPersistedBytes

def Complete (r : Runtime F) (pairs : List (Listed F)) (ids : List String) : Prop :=
  ∀ before pair after, pairs = before ++ pair :: after → Fresh before pair.2 →
    Normalizable r pair → pair.2.id ∈ ids

/-- What holds after the pairs that were added, none of which met the byte cap. -/
structure Folded (r : Runtime F) (limit : ℕ) (done : List (Listed F)) (acc : ManifoldPageAccumulator) :
    Prop extends Totals r limit acc where
  seen : ∀ id, id ∈ acc.seenCommentIds ↔ id ∈ done.map (fun pair => pair.2.id)
  ordered : (acc.items.map NormalizedItem.sourcePostId).Sublist (done.map fun pair => pair.2.id)
  rejected : acc.acceptedCount + acc.rejectedCount = done.length
  complete : Complete r done (acc.items.map NormalizedItem.sourcePostId)

theorem init_folded (r : Runtime F) (limit : ℕ) : Folded r limit [] (.init limit) where
  acceptedLimit := rfl
  valid := by simp [ManifoldPageAccumulator.init]
  distinct := List.nodup_nil
  accepted := rfl
  capped := Nat.zero_le limit
  measured := rfl
  fits := Nat.zero_le _
  seen := by simp [ManifoldPageAccumulator.init]
  ordered := List.Sublist.slnil
  rejected := rfl
  complete := by
    intro before pair after h
    simp at h

theorem complete_append {ids others : List String} (hdone : Complete r done ids)
    (hkeep : ids ⊆ others)
    (hnew : Fresh done comment → Normalizable r (market, comment) → comment.id ∈ others) :
    Complete r (done ++ [(market, comment)]) others := by
  intro before pair after hsplit hfresh hnormalizable
  rcases after.eq_nil_or_concat with hnil | ⟨tail, last, hconcat⟩
  · subst hnil
    have hends := List.append_inj' hsplit rfl
    rw [← hends.1] at hfresh
    rw [← List.singleton_inj.mp hends.2] at hfresh hnormalizable ⊢
    exact hnew hfresh hnormalizable
  · rw [hconcat, List.concat_eq_append, ← List.cons_append, ← List.append_assoc] at hsplit
    have hends := List.append_inj' hsplit rfl
    exact hkeep (hdone before pair tail hends.1 hfresh hnormalizable)

inductive Added (r : Runtime F) (acc : ManifoldPageAccumulator) (market : ManifoldMarket)
    (comment : ManifoldCommentWire F) : ManifoldPageAccumulator → Option PageTermination → Prop
  | repeated (seen : comment.id ∈ acc.seenCommentIds) :
      Added r acc market comment { acc with rejectedCount := acc.rejectedCount + 1 } none
  | skipped (n) (fresh : comment.id ∉ acc.seenCommentIds)
      (result : normalizeManifoldComment r market comment = .skipped n) :
      Added r acc market comment
        { acc with
          seenCommentIds := comment.id :: acc.seenCommentIds
          rejectedCount := acc.rejectedCount + 1 } none
  | oversize (n) (fresh : comment.id ∉ acc.seenCommentIds)
      (result : normalizeManifoldComment r market comment = .rejectedOversize n) :
      Added r acc market comment
        { acc with
          seenCommentIds := comment.id :: acc.seenCommentIds
          items := acc.items ++ [.oversize (ManifoldPage.rejected n)]
          rejectedCount := acc.rejectedCount + 1 } none
  | exceeded (n) (fresh : comment.id ∉ acc.seenCommentIds)
      (result : normalizeManifoldComment r market comment = .normalized n)
      (exceeds : maxManifoldPersistedBytes < acc.persistedBytes + candidateBytes n) :
      Added r acc market comment
        { acc with seenCommentIds := comment.id :: acc.seenCommentIds } (some .reviewedByteCap)
  | accepted (n) (fresh : comment.id ∉ acc.seenCommentIds)
      (result : normalizeManifoldComment r market comment = .normalized n)
      (fits : acc.persistedBytes + candidateBytes n ≤ maxManifoldPersistedBytes) :
      Added r acc market comment
        { acc with
          seenCommentIds := comment.id :: acc.seenCommentIds
          items := acc.items ++ [.post (ManifoldPage.accepted n)]
          acceptedCount := acc.acceptedCount + 1
          persistedBytes := acc.persistedBytes + candidateBytes n }
        (if acc.acceptedLimit ≤ acc.acceptedCount + 1 then some .reviewedPostCap else none)

theorem add_cases (r : Runtime F) (acc : ManifoldPageAccumulator) (market : ManifoldMarket)
    (comment : ManifoldCommentWire F) :
    Added r acc market comment (add r acc market comment).1 (add r acc market comment).2 := by
  by_cases hseen : comment.id ∈ acc.seenCommentIds
  · rw [add, if_pos hseen]
    exact .repeated hseen
  rw [add, if_neg hseen]
  cases hresult : normalizeManifoldComment r market comment with
  | skipped n => exact .skipped n hseen hresult
  | rejectedOversize n => exact .oversize n hseen hresult
  | normalized n =>
    dsimp only
    by_cases hover : maxManifoldPersistedBytes < acc.persistedBytes + candidateBytes n
    · rw [if_pos hover]
      exact .exceeded n hseen hresult hover
    · rw [if_neg hover]
      exact .accepted n hseen hresult (by omega)

theorem Folded.fresh (h : Folded r limit done acc) :
    comment.id ∉ acc.seenCommentIds ↔ Fresh done comment := not_congr (h.seen comment.id)

theorem Folded.seen_append (h : Folded r limit done acc) (id : String) :
    id ∈ comment.id :: acc.seenCommentIds ↔
      id ∈ (done ++ [(market, comment)]).map fun pair => pair.2.id := by
  rw [List.map_append, List.mem_append, List.mem_cons, h.seen, or_comm]
  simp

theorem Folded.distinct_append (h : Folded r limit done acc) (hfresh : comment.id ∉ acc.seenCommentIds)
    {item : NormalizedItem} (hid : item.sourcePostId = comment.id) :
    ((acc.items ++ [item]).map NormalizedItem.sourcePostId).Nodup := by
  rw [List.map_append, List.map_singleton, hid, List.nodup_append]
  refine ⟨h.distinct, List.nodup_singleton _, fun id hmem other hother heq => ?_⟩
  rw [List.mem_singleton] at hother
  subst hother heq
  exact hfresh ((h.seen _).mpr (h.ordered.subset hmem))

theorem Folded.ordered_append (h : Folded r limit done acc) {item : NormalizedItem}
    (hid : item.sourcePostId = comment.id) :
    ((acc.items ++ [item]).map NormalizedItem.sourcePostId).Sublist
      ((done ++ [(market, comment)]).map fun pair => pair.2.id) := by
  rw [List.map_append, List.map_append, List.map_singleton, List.map_singleton, hid]
  exact h.ordered.append (List.Sublist.refl _)

theorem Folded.complete_append (h : Folded r limit done acc) {item : NormalizedItem}
    (hid : item.sourcePostId = comment.id) :
    Complete r (done ++ [(market, comment)])
      ((acc.items ++ [item]).map NormalizedItem.sourcePostId) := by
  rw [List.map_append, List.map_singleton, hid]
  apply ManifoldPage.complete_append h.complete (List.subset_append_left _ _)
  intro _ _
  simp

theorem neutralUrl_https (market : ManifoldMarket) : "https://".toList <+: market.neutralUrl.toList :=
  List.IsPrefix.trans (by decide) market.neutralUrl_origin

theorem valid_append (h : Folded r limit done acc) {item : NormalizedItem}
    (hid : item.sourcePostId = comment.id) (hurl : item.canonicalUrl = market.neutralUrl)
    (hsize : ∀ o, item = .oversize o → 262144 < o.sizeBytes) :
    ∀ other ∈ acc.items ++ [item], other.Valid := by
  intro other hmem
  rcases List.mem_append.mp hmem with hold | hnew
  · exact h.valid other hold
  · rw [List.mem_singleton.mp hnew, NormalizedItem.Valid, hid, hurl]
    exact ⟨comment.id_length, neutralUrl_https market, hsize⟩

theorem add_folded (h : Folded r limit done acc) (hbelow : acc.acceptedCount < limit)
    (hcap : (add r acc market comment).2 ≠ some .reviewedByteCap) :
    Folded r limit (done ++ [(market, comment)]) (add r acc market comment).1 := by
  have hadded := add_cases r acc market comment
  have hdescribes := normalize_describes r market comment
  generalize (add r acc market comment).1 = next at hadded
  generalize (add r acc market comment).2 = termination at hadded hcap
  cases hadded with
  | repeated seen =>
    refine { h with
      seen := fun id => ?_
      ordered := ?_
      rejected := ?_
      complete := complete_append h.complete (List.Subset.refl _) fun hfresh _ => ?_ }
    · rw [List.map_append, List.mem_append, ← h.seen]
      refine ⟨.inl, fun hmem => hmem.elim (fun hin => hin) fun hlast => ?_⟩
      rw [List.map_singleton, List.mem_singleton] at hlast
      rw [hlast]
      exact seen
    · rw [List.map_append]
      exact h.ordered.trans (List.sublist_append_left _ _)
    · have := h.rejected
      simp only [List.length_append, List.length_singleton]
      omega
    · exact absurd seen (h.fresh.mpr hfresh)
  | skipped n fresh result =>
    refine { h with
      seen := h.seen_append
      ordered := ?_
      rejected := ?_
      complete := complete_append h.complete (List.Subset.refl _) fun _ hnormalizable =>
        absurd result (hnormalizable n) }
    · rw [List.map_append]
      exact h.ordered.trans (List.sublist_append_left _ _)
    · have := h.rejected
      simp only [List.length_append, List.length_singleton]
      omega
  | oversize n fresh result =>
    rw [result] at hdescribes
    have hid : (NormalizedItem.oversize (ManifoldPage.rejected n)).sourcePostId = comment.id := hdescribes.1
    refine { h with
      valid := valid_append h hid hdescribes.2.1 ?_
      distinct := h.distinct_append fresh hid
      accepted := ?_
      measured := ?_
      seen := h.seen_append
      ordered := h.ordered_append hid
      rejected := ?_
      complete := h.complete_append hid }
    · intro o ho
      cases ho
      exact hdescribes.2.2
    · rw [filterMap_append_singleton]
      simpa [NormalizedItem.post?] using h.accepted
    · rw [filterMap_append_singleton]
      simpa [NormalizedItem.post?] using h.measured
    · have := h.rejected
      simp only [List.length_append, List.length_singleton]
      omega
  | exceeded n fresh result exceeds => exact absurd rfl hcap
  | accepted n fresh result fits =>
    rw [result] at hdescribes
    have hid : (NormalizedItem.post (ManifoldPage.accepted n)).sourcePostId = comment.id := hdescribes.1
    refine { h with
      valid := valid_append h hid hdescribes.2.1 ?_
      distinct := h.distinct_append fresh hid
      accepted := ?_
      capped := hbelow
      measured := ?_
      fits := fits
      seen := h.seen_append
      ordered := h.ordered_append hid
      rejected := ?_
      complete := h.complete_append hid }
    · intro o ho
      cases ho
    · rw [filterMap_append_singleton]
      simpa [NormalizedItem.post?] using h.accepted
    · have hbytes : postBytes r (ManifoldPage.accepted n) = candidateBytes n := by
        rw [postBytes, candidateBytes, hdescribes.2.2.1]
        rfl
      rw [filterMap_append_singleton]
      simp [NormalizedItem.post?, hbytes, h.measured]
    · have := h.rejected
      simp only [List.length_append, List.length_singleton]
      omega

theorem add_postCap (hlimit : acc.acceptedLimit = limit) (hbelow : acc.acceptedCount < limit) :
    (add r acc market comment).2 = some .reviewedPostCap ↔
      (add r acc market comment).1.acceptedCount = limit := by
  have hadded := add_cases r acc market comment
  generalize (add r acc market comment).1 = next at hadded ⊢
  generalize (add r acc market comment).2 = termination at hadded ⊢
  have hne : acc.acceptedCount ≠ limit := by omega
  cases hadded with
  | repeated seen => simp [hne]
  | skipped n fresh result => simp [hne]
  | oversize n fresh result => simp [hne]
  | exceeded n fresh result exceeds => simp [hne]
  | accepted n fresh result fits =>
    dsimp only
    rw [hlimit]
    constructor
    · intro h
      by_cases hreached : limit ≤ acc.acceptedCount + 1
      · omega
      · simp [hreached] at h
    · intro h
      rw [if_pos (by omega)]

theorem add_byteCap (h : Folded r limit done acc) : (add r acc market comment).2 = some .reviewedByteCap ↔
    Fresh done comment ∧ ∃ n, normalizeManifoldComment r market comment = .normalized n ∧
      maxManifoldPersistedBytes < acc.persistedBytes + candidateBytes n := by
  have hadded := add_cases r acc market comment
  generalize (add r acc market comment).1 = next at hadded
  generalize (add r acc market comment).2 = termination at hadded ⊢
  cases hadded with
  | repeated seen => simp [← h.fresh, seen]
  | skipped n fresh result => simp [result]
  | oversize n fresh result => simp [result]
  | exceeded n fresh result exceeds => simpa [← h.fresh, fresh, result] using exceeds
  | accepted n fresh result fits =>
    have hreached : (if acc.acceptedLimit ≤ acc.acceptedCount + 1 then
        some PageTermination.reviewedPostCap else none) ≠ some .reviewedByteCap := by
      split <;> simp
    simp [hreached, result, fits]

theorem add_exceeded (hcap : (add r acc market comment).2 = some .reviewedByteCap) :
    (add r acc market comment).1 =
      { acc with seenCommentIds := comment.id :: acc.seenCommentIds } := by
  have hadded := add_cases r acc market comment
  generalize (add r acc market comment).1 = next at hadded ⊢
  generalize (add r acc market comment).2 = termination at hadded hcap
  cases hadded with
  | exceeded => rfl
  | accepted =>
    split at hcap <;> cases hcap
  | repeated => cases hcap
  | skipped => cases hcap
  | oversize => cases hcap

end Step

section Loop
variable {F : Type} {r : Runtime F} {limit : ℕ} {done before after pairs : List (Listed F)}
  {acc : ManifoldPageAccumulator} {pair : Listed F}

theorem feed_stops {rest : List (Listed F)} {termination : PageTermination}
    (h : (add r acc pair.1 pair.2).2 = some termination) :
    feed r acc (pair :: rest) = ⟨(add r acc pair.1 pair.2).1, some termination, [pair]⟩ := by
  rw [feed, ← Prod.mk.eta (p := add r acc pair.1 pair.2), h]

theorem feed_continues {rest : List (Listed F)} (h : (add r acc pair.1 pair.2).2 = none) :
    feed r acc (pair :: rest) =
      { feed r (add r acc pair.1 pair.2).1 rest with
        processed := pair :: (feed r (add r acc pair.1 pair.2).1 rest).processed } := by
  rw [feed, ← Prod.mk.eta (p := add r acc pair.1 pair.2), h]

theorem feed_processed (r : Runtime F) (acc : ManifoldPageAccumulator) (pairs : List (Listed F)) :
    (feed r acc pairs).processed <+: pairs ∧
      ((feed r acc pairs).termination = none → (feed r acc pairs).processed = pairs) := by
  induction pairs generalizing acc with
  | nil => exact ⟨List.prefix_rfl, fun _ => rfl⟩
  | cons pair rest ih =>
    cases hadd : (add r acc pair.1 pair.2).2 with
    | some termination =>
      rw [feed_stops hadd]
      exact ⟨List.prefix_append [pair] rest, fun h => by cases h⟩
    | none =>
      rw [feed_continues hadd]
      have hrest := ih (add r acc pair.1 pair.2).1
      exact ⟨List.cons_prefix_cons.mpr ⟨rfl, hrest.1⟩, fun h => congrArg (pair :: ·) (hrest.2 h)⟩

theorem feed_before (h : (feed r acc pairs).processed = before ++ pair :: after) :
    (feed r acc before).termination = none ∧
      (add r (feed r acc before).accumulator pair.1 pair.2).2 =
        (if after = [] then (feed r acc pairs).termination else none) ∧
      (after = [] → (add r (feed r acc before).accumulator pair.1 pair.2).1 =
        (feed r acc pairs).accumulator) := by
  induction before generalizing acc pairs with
  | nil =>
    refine ⟨rfl, ?_⟩
    change (add r acc pair.1 pair.2).2 = _ ∧ (_ → (add r acc pair.1 pair.2).1 = _)
    cases pairs with
    | nil => cases h
    | cons first rest =>
      cases hadd : (add r acc first.1 first.2).2 with
      | some termination =>
        rw [feed_stops hadd] at h ⊢
        obtain ⟨rfl, rfl⟩ := List.cons.inj h
        exact ⟨hadd, fun _ => rfl⟩
      | none =>
        rw [feed_continues hadd] at h ⊢
        obtain ⟨rfl, hrest⟩ := List.cons.inj h
        cases rest with
        | nil => exact ⟨by rw [hadd]; split <;> rfl, fun _ => rfl⟩
        | cons second others =>
          have hne : after ≠ [] := by
            rw [← List.nil_append after, ← hrest]
            cases hnext : (add r (add r acc first.1 first.2).1 second.1 second.2).2 with
            | some termination => simp [feed_stops hnext]
            | none => simp [feed_continues hnext]
          rw [if_neg hne]
          exact ⟨hadd, fun hnil => absurd hnil hne⟩
  | cons first before ih =>
    cases pairs with
    | nil => cases h
    | cons head rest =>
      cases hadd : (add r acc head.1 head.2).2 with
      | some termination =>
        rw [feed_stops hadd] at h
        have hnil := (List.cons.inj h).2
        simp at hnil
      | none =>
        rw [feed_continues hadd] at h ⊢
        obtain ⟨rfl, hrest⟩ := List.cons.inj h
        rw [feed_continues hadd]
        exact ih hrest

theorem feed_folded (h : Folded r limit done acc) (hbelow : acc.acceptedCount < limit)
    (hcap : (feed r acc pairs).termination ≠ some .reviewedByteCap) :
    Folded r limit (done ++ (feed r acc pairs).processed) (feed r acc pairs).accumulator ∧
      ((feed r acc pairs).termination = some .reviewedPostCap ↔
        (feed r acc pairs).accumulator.acceptedCount = limit) := by
  induction pairs generalizing done acc with
  | nil =>
    rw [feed, List.append_nil]
    have hne : acc.acceptedCount ≠ limit := by omega
    exact ⟨h, by simp [hne]⟩
  | cons pair rest ih =>
    have hreached := @add_postCap F r limit acc pair.1 pair.2 h.acceptedLimit hbelow
    cases hadd : (add r acc pair.1 pair.2).2 with
    | some termination =>
      rw [feed_stops hadd] at hcap ⊢
      rw [hadd] at hreached
      exact ⟨add_folded h hbelow (by rw [hadd]; exact hcap), hreached⟩
    | none =>
      rw [feed_continues hadd] at hcap ⊢
      have hnext := @add_folded F r limit done acc pair.1 pair.2 h hbelow (by simp [hadd])
      have hlt : (add r acc pair.1 pair.2).1.acceptedCount < limit := by
        apply lt_of_le_of_ne hnext.capped
        rw [hadd] at hreached
        simpa using hreached
      have hrest := ih hnext hlt hcap
      rw [List.append_assoc] at hrest
      exact hrest

theorem before_folded (hlimit : 1 ≤ limit)
    (h : (feed r (.init limit) pairs).processed = before ++ pair :: after) :
    Folded r limit before (feed r (.init limit) before).accumulator ∧
      (feed r (.init limit) before).accumulator.acceptedCount < limit := by
  have hnone := (feed_before h).1
  have hall := (feed_processed r (.init limit) before).2 hnone
  have hfolded := @feed_folded F r limit [] before (.init limit) (init_folded r limit) hlimit (by simp [hnone])
  rw [hall, hnone] at hfolded
  exact ⟨hfolded.1, lt_of_le_of_ne hfolded.1.capped (by simpa using hfolded.2)⟩

/-- The only processed pair that exceeds the cap is the one at which the loop stops. -/
theorem exceeds_iff (hlimit : 1 ≤ limit)
    (h : (feed r (.init limit) pairs).processed = before ++ pair :: after) :
    Exceeds r limit before pair ↔
      after = [] ∧ (feed r (.init limit) pairs).termination = some .reviewedByteCap := by
  have hfolded := (before_folded hlimit h).1
  have hbytes : ((feed r (.init limit) before).posts.map (postBytes r)).sum =
      (feed r (.init limit) before).accumulator.persistedBytes := hfolded.measured.symm
  rw [Exceeds, hbytes, ← add_byteCap hfolded, (feed_before h).2.1]
  by_cases hafter : after = []
  · simp [hafter]
  · simp [hafter]

theorem feed_last {termination : PageTermination} (h : (feed r acc pairs).termination = some termination) :
    ∃ before pair, (feed r acc pairs).processed = before ++ [pair] := by
  cases pairs with
  | nil => cases h
  | cons first rest =>
    have hne : (feed r acc (first :: rest)).processed ≠ [] := by
      cases hadd : (add r acc first.1 first.2).2 with
      | some reached => simp [feed_stops hadd]
      | none => simp [feed_continues hadd]
    rcases (feed r acc (first :: rest)).processed.eq_nil_or_concat with hnil | ⟨before, pair, hconcat⟩
    · exact absurd hnil hne
    · exact ⟨before, pair, by rw [hconcat, List.concat_eq_append]⟩

theorem feed_admitted (hlimit : 1 ≤ limit) (pairs : List (Listed F)) : ∃ admitted tail seen,
    (feed r (.init limit) pairs).processed = admitted ++ tail ∧
      tail.length = (if (feed r (.init limit) pairs).termination = some .reviewedByteCap then 1 else 0) ∧
      Folded r limit admitted
        { (feed r (.init limit) pairs).accumulator with seenCommentIds := seen } ∧
      ((feed r (.init limit) pairs).termination = some .reviewedPostCap ↔
        (feed r (.init limit) pairs).accumulator.acceptedCount = limit) := by
  by_cases hcap : (feed r (.init limit) pairs).termination = some .reviewedByteCap
  · obtain ⟨before, pair, hsplit⟩ := feed_last hcap
    obtain ⟨hfolded, hbelow⟩ := before_folded hlimit hsplit
    obtain ⟨_, hresult, hstate⟩ := feed_before hsplit
    rw [if_pos rfl, hcap] at hresult
    have hexceeded := add_exceeded hresult
    rw [hstate rfl] at hexceeded
    refine ⟨before, [pair], (feed r (.init limit) before).accumulator.seenCommentIds, hsplit, ?_, ?_, ?_⟩
    · rw [if_pos hcap, List.length_singleton]
    · rw [hexceeded]
      exact hfolded
    · rw [hcap, hexceeded]
      have hne := hbelow.ne
      simp [hne]
  · have hfolded := @feed_folded F r limit [] pairs (.init limit) (init_folded r limit) hlimit hcap
    rw [List.nil_append] at hfolded
    refine ⟨_, [], (feed r (.init limit) pairs).accumulator.seenCommentIds, (List.append_nil _).symm, ?_,
      hfolded⟩
    rw [if_neg hcap, List.length_nil]

/-- For every limit, the page of any pairs is their reference fold. -/
theorem page_reference (r : Runtime F) (limit : ℕ) (hlimit : 1 ≤ limit) (pairs : List (Listed F)) :
    Reference r limit pairs (feed r (.init limit) pairs) := by
  obtain ⟨admitted, tail, seen, hsplit, htail, hfolded, hpost⟩ := feed_admitted (r := r) hlimit pairs
  refine
    { processed := feed_processed r (.init limit) pairs
      valid := hfolded.valid
      distinct := hfolded.distinct
      ordered := ?_
      accepted := hfolded.accepted
      capped := hfolded.capped
      postCap := hpost
      bytes := ?_
      byteCap := ?_
      byteCap_last := fun before pair after hpair hexceeds => ((exceeds_iff hlimit hpair).mp hexceeds).1
      rejected := ?_
      complete := ?_ }
  · rw [hsplit, List.map_append]
    exact hfolded.ordered.trans (List.sublist_append_left _ _)
  · have hfits := hfolded.fits
    rw [hfolded.measured] at hfits
    exact hfits
  · constructor
    · intro hcap
      obtain ⟨before, pair, hlast⟩ := feed_last hcap
      exact ⟨before, pair, [], hlast, (exceeds_iff hlimit hlast).mpr ⟨rfl, hcap⟩⟩
    · rintro ⟨before, pair, after, hpair, hexceeds⟩
      exact ((exceeds_iff hlimit hpair).mp hexceeds).2
  · have hcounts : (feed r (.init limit) pairs).accumulator.acceptedCount +
        (feed r (.init limit) pairs).accumulator.rejectedCount = admitted.length := hfolded.rejected
    rw [hsplit, List.length_append, htail, ← hcounts]
    rfl
  · intro before pair after hpair hfresh hnormalizable hfits
    rw [exceeds_iff hlimit hpair] at hfits
    by_cases hcap : (feed r (.init limit) pairs).termination = some .reviewedByteCap
    · -- the tail is the last pair, which is not this one
      obtain ⟨rest, last, hafter⟩ := (after.eq_nil_or_concat).resolve_left fun hnil => hfits ⟨hnil, hcap⟩
      rw [if_pos hcap] at htail
      rw [hpair, hafter, List.concat_eq_append, ← List.cons_append, ← List.append_assoc] at hsplit
      have hadmitted := (List.append_inj' hsplit (by rw [htail, List.length_singleton])).1
      exact hfolded.complete before pair rest hadmitted.symm hfresh hnormalizable
    · rw [if_neg hcap] at htail
      rw [hpair, List.eq_nil_of_length_eq_zero htail, List.append_nil] at hsplit
      exact hfolded.complete before pair after hsplit.symm hfresh hnormalizable

end Loop

section Samples

/-- The language on ASCII text and on the timestamps of years that dates have. -/
def plainRuntime : Runtime Unit where
  nfc := id
  validateJson := fun _ => none
  fromtimestamp := fun t => if t < 253402300800000 then some (t * 1000) else none

def plainMarket : ManifoldMarket where
  id := "market-1"
  question := "Question?"
  neutralUrl := "https://manifold.markets/market/one"
  id_length := by decide
  question_length := by decide
  neutralUrl_origin := by decide

def otherMarket : ManifoldMarket := { plainMarket with
  id := "market-2"
  id_length := by decide }

def plainComment (text : Text) : ManifoldCommentWire Unit where
  id := "comment-1"
  contractId := "market-1"
  createdTime := 0
  content := .dict [("type".toList, .str "doc".toList), ("content".toList,
    .list [.dict [("type".toList, .str "paragraph".toList), ("content".toList,
      .list [.dict [("type".toList, .str "text".toList), ("text".toList, .str text)]])]])]
  id_length := by decide
  contractId_length := by decide

/-- One comment, listed first under another market. -/
theorem page_reference_listed_twice : 1 ≤ 1 ∧
    Reference plainRuntime 1 [(otherMarket, plainComment ['x']), (plainMarket, plainComment ['x'])]
      (feed plainRuntime (.init 1)
        [(otherMarket, plainComment ['x']), (plainMarket, plainComment ['x'])]) :=
  ⟨by decide, page_reference plainRuntime 1 (by decide) _⟩

theorem plainComment_text (text : Text) :
    tiptapToNfcText plainRuntime (plainComment text).content = .ok text := by
  simp [tiptapToNfcText, plainComment, decodeContent, nodeType, ManifoldComments.get, renderChildren,
    renderNodes, renderNode, plainRuntime]

theorem plainRuntime_nfc : plainRuntime.nfc = id := rfl

theorem plainComment_normalized {text : Text} (hne : text ≠ [])
    (hsize : computeBodyBytes id (String.ofList text) ≤ maxManifoldBodyBytes) :
    ∃ n, normalizeManifoldComment plainRuntime plainMarket (plainComment text) = .normalized n ∧
      n.title = "Question?" ∧ n.body = String.ofList text ∧
      n.sizeBytes = computeBodyBytes id (String.ofList text) := by
  have hmatches : ¬(plainComment text).contractId ≠ plainMarket.id := by simp [plainComment, plainMarket]
  rw [normalizeManifoldComment, if_neg hmatches, plainComment_text]
  cases text with
  | nil => exact absurd rfl hne
  | cons c cs =>
    have htime : plainRuntime.fromtimestamp (plainComment (c :: cs)).createdTime = some 0 := by
      simp [plainRuntime, plainComment]
    have hfits : ¬maxManifoldBodyBytes < computeBodyBytes plainRuntime.nfc (String.ofList (c :: cs)) := by
      rw [plainRuntime_nfc]
      exact Nat.not_lt.mpr hsize
    dsimp only
    rw [htime]
    dsimp only
    rw [if_neg hfits]
    refine ⟨_, rfl, ?_, rfl, ?_⟩
    · simp [plainRuntime, plainMarket]
    · rw [← plainRuntime_nfc]

def crlf : ℕ → Text
  | 0 => []
  | n + 1 => '\r' :: '\n' :: crlf n

theorem unixNewlines_crlf (n : ℕ) : unixNewlines (crlf n) = List.replicate n '\n' := by
  induction n with
  | zero => rfl
  | succ n ih => rw [crlf, unixNewlines, ih, List.replicate_succ]

theorem unixNewlines_replicate {c : Char} (hc : c ≠ '\r') (n : ℕ) :
    unixNewlines (List.replicate n c) = List.replicate n c := by
  induction n with
  | zero => rfl
  | succ n ih =>
    rw [List.replicate_succ, unixNewlines, ih]
    · intro rest h
      exact absurd h hc
    · intro h
      exact absurd h hc

theorem encodeText_replicate (n : ℕ) {c : Char} (hc : c.utf8Size = 1) :
    (encodeText (List.replicate n c)).length = n := by
  simp [encodeText, List.length_flatMap, hc]

theorem computeBodyBytes_crlf (n : ℕ) : computeBodyBytes id (String.ofList (crlf n)) = n := by
  rw [computeBodyBytes, normalizeText, String.toList_ofList, unixNewlines_crlf, id, encode,
    String.toList_ofList, encodeText_replicate n (by decide)]

theorem computeBodyBytes_replicate (n : ℕ) :
    computeBodyBytes id (String.ofList (List.replicate n 'x')) = n := by
  rw [computeBodyBytes, normalizeText, String.toList_ofList, unixNewlines_replicate (by decide), id,
    encode, String.toList_ofList, encodeText_replicate n (by decide)]

theorem encode_crlf (n : ℕ) : (encode (String.ofList (crlf n))).length = 2 * n := by
  rw [encode, String.toList_ofList]
  induction n with
  | zero => rfl
  | succ n ih =>
    have hstep : encodeText (crlf (n + 1)) = 13 :: 10 :: encodeText (crlf n) := rfl
    rw [hstep, List.length_cons, List.length_cons, ih]
    omega

theorem feed_plain {text : Text} {n : ManifoldNormalizedComment}
    (h : normalizeManifoldComment plainRuntime plainMarket (plainComment text) = .normalized n) :
    feed plainRuntime (.init 1) [(plainMarket, plainComment text)] =
      if maxManifoldPersistedBytes < candidateBytes n then
        ⟨⟨1, [], 0, 0, 0, ["comment-1"]⟩, some .reviewedByteCap, [(plainMarket, plainComment text)]⟩
      else ⟨⟨1, [.post (accepted n)], 1, 0, candidateBytes n, ["comment-1"]⟩, some .reviewedPostCap,
        [(plainMarket, plainComment text)]⟩ := by
  have hfresh : (plainComment text).id ∉ (ManifoldPageAccumulator.init 1).seenCommentIds := List.not_mem_nil
  have hadd : add plainRuntime (.init 1) plainMarket (plainComment text) =
      if maxManifoldPersistedBytes < candidateBytes n then
        (⟨1, [], 0, 0, 0, ["comment-1"]⟩, some .reviewedByteCap)
      else (⟨1, [.post (accepted n)], 1, 0, candidateBytes n, ["comment-1"]⟩, some .reviewedPostCap) := by
    rw [add, if_neg hfresh, h]
    simp [ManifoldPageAccumulator.init, plainComment]
  rw [feed]
  dsimp only
  rw [hadd]
  by_cases hover : maxManifoldPersistedBytes < candidateBytes n
  · rw [if_pos hover, if_pos hover]
  · rw [if_neg hover, if_neg hover]

def rawBytes (item : NormalizedPost) : ℕ := (encode item.title).length + (encode item.body).length

theorem xs_normalized {n : ℕ} (hpos : 0 < n) (hsize : n ≤ maxManifoldBodyBytes) :
    ∃ m, normalizeManifoldComment plainRuntime plainMarket (plainComment (List.replicate n 'x')) =
      .normalized m ∧ m.title = "Question?" ∧ m.sizeBytes = n := by
  have hne : List.replicate n 'x' ≠ [] := by
    intro h
    rw [List.replicate_eq_nil_iff] at h
    omega
  obtain ⟨m, hnormalized, htitle, _, hbytes⟩ :=
    plainComment_normalized hne (by rw [computeBodyBytes_replicate]; exact hsize)
  rw [computeBodyBytes_replicate] at hbytes
  exact ⟨m, hnormalized, htitle, hbytes⟩

theorem title_bytes {m : ManifoldNormalizedComment} (h : m.title = "Question?") :
    (encode m.title).length = 9 := by
  rw [h]
  decide

theorem skipped_hides : ¬∀ (limit : ℕ) (pairs : List (Listed Unit)), 1 ≤ limit →
    ∀ pair ∈ (feed plainRuntime (.init limit) pairs).processed, Normalizable plainRuntime pair →
      pair.2.id ∈ (feed plainRuntime (.init limit) pairs).page.items.map NormalizedItem.sourcePostId := by
  intro h
  have hhidden := h 1 [(otherMarket, plainComment ['x']), (plainMarket, plainComment ['x'])] (by decide)
    (plainMarket, plainComment ['x'])
  have hfed : feed plainRuntime (.init 1)
      [(otherMarket, plainComment ['x']), (plainMarket, plainComment ['x'])] =
        ⟨⟨1, [], 0, 2, 0, ["comment-1"]⟩, none,
          [(otherMarket, plainComment ['x']), (plainMarket, plainComment ['x'])]⟩ := rfl
  obtain ⟨m, hnormalized, _⟩ := @xs_normalized 1 (by decide) (by decide)
  have hvalid : Normalizable plainRuntime (plainMarket, plainComment ['x']) := by
    intro skipped hskipped
    cases hnormalized.symm.trans hskipped
  rw [hfed] at hhidden
  cases hhidden (by simp) hvalid

theorem raw_unbounded : ¬∀ (limit : ℕ) (pairs : List (Listed Unit)), 1 ≤ limit →
    ((feed plainRuntime (.init limit) pairs).posts.map rawBytes).sum ≤ maxManifoldPersistedBytes := by
  intro h
  have hne : crlf 131073 ≠ [] := by
    rw [crlf]
    exact List.cons_ne_nil _ _
  obtain ⟨m, hnormalized, htitle, hbody, hsize⟩ :=
    plainComment_normalized hne (by rw [computeBodyBytes_crlf]; decide)
  rw [computeBodyBytes_crlf] at hsize
  have hfits : ¬maxManifoldPersistedBytes < candidateBytes m := by
    rw [candidateBytes, title_bytes htitle, hsize]
    decide
  have hraw := h 1 [(plainMarket, plainComment (crlf 131073))] (by decide)
  rw [feed_plain hnormalized, if_neg hfits] at hraw
  have hpost : rawBytes (accepted m) ≤ maxManifoldPersistedBytes := hraw
  have htitled : (accepted m).title = m.title := rfl
  have hbodied : (accepted m).body = m.body := rfl
  rw [rawBytes, htitled, hbodied, title_bytes htitle, hbody, encode_crlf] at hpost
  exact absurd hpost (by decide)

theorem exceeding_uncounted : ¬∀ (limit : ℕ) (pairs : List (Listed Unit)), 1 ≤ limit →
    (feed plainRuntime (.init limit) pairs).page.acceptedCount +
      (feed plainRuntime (.init limit) pairs).page.rejectedCount =
        (feed plainRuntime (.init limit) pairs).processed.length := by
  intro h
  obtain ⟨m, hnormalized, htitle, hsize⟩ := @xs_normalized 262144 (by decide) (by decide)
  have hover : maxManifoldPersistedBytes < candidateBytes m := by
    rw [candidateBytes, title_bytes htitle, hsize]
    decide
  have hcounted := h 1 [(plainMarket, plainComment (List.replicate 262144 'x'))] (by decide)
  rw [feed_plain hnormalized, if_pos hover] at hcounted
  cases hcounted

/-- A listing under another market hides the valid one after it; the bytes of a body before its
    newlines are unified have no bound; the comment that meets the byte cap is not counted. -/
theorem page_beyond_reference :
    (¬∀ (limit : ℕ) (pairs : List (Listed Unit)), 1 ≤ limit →
      ∀ pair ∈ (feed plainRuntime (.init limit) pairs).processed, Normalizable plainRuntime pair →
        pair.2.id ∈ (feed plainRuntime (.init limit) pairs).page.items.map NormalizedItem.sourcePostId) ∧
    (¬∀ (limit : ℕ) (pairs : List (Listed Unit)), 1 ≤ limit →
      ((feed plainRuntime (.init limit) pairs).posts.map rawBytes).sum ≤ maxManifoldPersistedBytes) ∧
    ¬∀ (limit : ℕ) (pairs : List (Listed Unit)), 1 ≤ limit →
      (feed plainRuntime (.init limit) pairs).page.acceptedCount +
        (feed plainRuntime (.init limit) pairs).page.rejectedCount =
          (feed plainRuntime (.init limit) pairs).processed.length :=
  ⟨skipped_hides, raw_unbounded, exceeding_uncounted⟩

end Samples

end PredictionMarketMonitor.ManifoldPage
