import PredictionMarketMonitor.ReachableStores

set_option autoImplicit false

/-!
# Stored posts and the limits of their tables

`persist_page_items` of `post_store.py` and the page-commit row of
`page_store.py`, with the unique and check constraints and the 32-bit columns
of `post_models.py` and `page_models.py`. A post row carries the facts of its
current version; every version it ever had stays in the archive.
-/
namespace PredictionMarketMonitor.PostArchive

open CanonicalJson CivilTime ClaimPolicy CollectionBase CollectionModels ControlPlane
open ControlPlaneTables FallibleSteps KeyedTable PageCommit PageItems PageStore PageStreams
open ReachableStores Sha256

inductive PostVersionReason
  | firstSeen | sourceEdit
deriving DecidableEq

structure PostVersionRow where
  id : UUID
  postId : UUID
  revision : ℕ
  contentHash : Digest
  title : String
  body : String
  bodyBytes : ℕ
  reason : PostVersionReason
  collectedAt : Instant
deriving DecidableEq

structure PageCommitItemRow where
  pageCommitId : UUID
  itemOrdinal : ℕ
  disposition : PageItemDisposition
  sourcePostId : String
  canonicalUrl : String
  normalizedContentHash : Digest
  postVersionId : Option UUID
  rejectedBodyBytes : Option ℕ
  rejectionReason : Option String
deriving DecidableEq

structure EngagementObservationRow where
  postVersionId : UUID
  sourceRunId : UUID
  observedAt : Instant
  commentsCount : Option ℕ
  upvoteOrScore : Option ℤ
  engagementHash : Digest
deriving DecidableEq

/-- The control-plane rows with the append-only rows of collected pages. -/
structure Archive where
  db : Database
  versions : Table PostVersionRow.id
  items : List PageCommitItemRow
  engagements : List EngagementObservationRow

/-- `uq_post_version_revision`, `uq_post_version_content`, `post_revision_positive`
    and `post_body_size_limit`, with the integer and text columns of a version. -/
def VersionAdmitted (versions : List PostVersionRow) (v : PostVersionRow) : Prop :=
  (∀ u ∈ versions, ¬(u.postId = v.postId ∧ u.revision = v.revision)) ∧
    (∀ u ∈ versions, ¬(u.postId = v.postId ∧ u.contentHash = v.contentHash)) ∧
    0 < v.revision ∧ v.bodyBytes ≤ 262144 ∧ FitsInteger v.revision ∧ FitsInteger v.bodyBytes ∧
    FitsText v.title.toList ∧ FitsText v.body.toList

instance (versions : List PostVersionRow) (v : PostVersionRow) :
    Decidable (VersionAdmitted versions v) :=
  inferInstanceAs (Decidable (_ ∧ _))

def NamesFit (sourcePostId canonicalUrl : String) : Prop :=
  FitsText sourcePostId.toList ∧ FitsText canonicalUrl.toList

instance (sourcePostId canonicalUrl : String) : Decidable (NamesFit sourcePostId canonicalUrl) :=
  inferInstanceAs (Decidable (_ ∧ _))

/-- `uq_page_commit_item_ordinal` and `oversize_retains_descriptor_only`, with the
    integer and text columns of an item. -/
def ItemAdmitted (items : List PageCommitItemRow) (item : PageCommitItemRow) : Prop :=
  (∀ other ∈ items, ¬(other.pageCommitId = item.pageCommitId ∧
      other.itemOrdinal = item.itemOrdinal)) ∧
    (item.disposition = .rejectedOversize →
      item.postVersionId = none ∧ item.rejectedBodyBytes.isSome = true) ∧
    FitsInteger item.itemOrdinal ∧ (∀ n ∈ item.rejectedBodyBytes, FitsInteger n) ∧
    NamesFit item.sourcePostId item.canonicalUrl

instance (items : List PageCommitItemRow) (item : PageCommitItemRow) :
    Decidable (ItemAdmitted items item) :=
  inferInstanceAs (Decidable (_ ∧ _))

/-- The integer columns of an observation; a comments count is never negative. -/
def EngagementAdmitted (row : EngagementObservationRow) : Prop :=
  (∀ n ∈ row.commentsCount, FitsInteger n) ∧ ∀ n ∈ row.upvoteOrScore, FitsInteger n

instance (row : EngagementObservationRow) : Decidable (EngagementAdmitted row) :=
  inferInstanceAs (Decidable (_ ∧ _))

/-- The unique and check constraints of `page_commits`, with its integer and text columns. -/
def CommitAdmitted (commits : List PageCommitRecord) (c : PageCommitRecord)
    (startedAt finishedAt : Instant) : Prop :=
  (∀ other ∈ commits, other.runId = c.runId →
      other.pageIdempotencyKey ≠ c.pageIdempotencyKey ∧ other.pageOrdinal ≠ c.pageOrdinal ∧
        ¬(other.isTerminalPage = true ∧ c.isTerminalPage = true)) ∧
    c.resultingCheckpointRevision = c.expectedCheckpointRevision + 1 ∧
    c.sourcePageItemCount = c.acceptedCount + c.duplicateCount + c.rejectedCount ∧
    c.isTerminalPage = c.terminalReason.isSome ∧ startedAt ≤ finishedAt ∧
    (∀ n ∈ [c.attempt, c.pageOrdinal, c.expectedCheckpointRevision, c.resultingCheckpointRevision,
      c.sourcePageItemCount, c.acceptedCount, c.duplicateCount, c.rejectedCount], FitsInteger n) ∧
    (∀ cursor ∈ c.expectedCursor, FitsText cursor.toList) ∧
    ∀ cursor ∈ c.nextCursor, FitsText cursor.toList

instance (commits : List PageCommitRecord) (c : PageCommitRecord)
    (startedAt finishedAt : Instant) : Decidable (CommitAdmitted commits c startedAt finishedAt) :=
  inferInstanceAs (Decidable (_ ∧ _))

section Writes
variable (nfc : Text → Text)

/-- `datetime.isoformat` of a UTC value: fractional seconds only when present. -/
def isoformat (t : Instant) : Text :=
  formatSeconds (civil t) ++
    (if (civil t).microsecond = 0 then [] else '.' :: padded 6 (civil t).microsecond) ++
    "+00:00".toList

/-- Run identity and observation clock of one page. -/
structure PageWriteContext where
  runId : UUID
  sourceId : UUID
  observedAt : Instant

def engagementHash (context : PageWriteContext) (versionId : UUID) (item : NormalizedPost) :
    Digest :=
  canonicalJsonHash nfc (.object
    [("comments_count", .ofOption .ofNat item.commentsCount),
     ("observed_at", .str (isoformat context.observedAt)),
     ("post_version_id", versionId.json),
     ("source_run_id", context.runId.json),
     ("upvote_or_score", .ofOption .int item.upvoteOrScore)])

def versionRow (context : PageWriteContext) (item : NormalizedPost) (postId versionId : UUID)
    (revision : ℕ) : PostVersionRow where
  id := versionId
  postId := postId
  revision := revision
  contentHash := item.contentHash
  title := item.title
  body := item.body
  bodyBytes := item.bodyBytes
  reason := if revision = 1 then .firstSeen else .sourceEdit
  collectedAt := context.observedAt

def addVersion (a : Archive) (v : PostVersionRow) : Result Archive := do
  require (VersionAdmitted a.versions.rows v) .integrity
  let versions ← present (a.versions.insert? v) .integrity
  return { a with versions := versions }

def addItem (a : Archive) (item : PageCommitItemRow) : Result Archive := do
  require (ItemAdmitted a.items item) .integrity
  return { a with items := a.items ++ [item] }

/-- A second observation of one version by one run is dropped, yet its values
    must fit their columns. -/
def addEngagement (a : Archive) (row : EngagementObservationRow) : Result Archive := do
  require (EngagementAdmitted row) .integrity
  if ∃ other ∈ a.engagements, other.postVersionId = row.postVersionId ∧
      other.sourceRunId = row.sourceRunId then
    return a
  else return { a with engagements := a.engagements ++ [row] }

def rejectionRow (pageCommitId : UUID) (plan : PageItemPlan) (item : OversizeRejection) :
    PageCommitItemRow where
  pageCommitId := pageCommitId
  itemOrdinal := plan.itemOrdinal
  disposition := plan.disposition
  sourcePostId := item.sourcePostId
  canonicalUrl := item.canonicalUrl
  normalizedContentHash := item.contentHash
  postVersionId := none
  rejectedBodyBytes := some item.bodyBytes
  rejectionReason := some "rejected_oversize"

def postItemRow (pageCommitId : UUID) (plan : PageItemPlan) (item : NormalizedPost)
    (versionId : UUID) : PageCommitItemRow where
  pageCommitId := pageCommitId
  itemOrdinal := plan.itemOrdinal
  disposition := plan.disposition
  sourcePostId := item.sourcePostId
  canonicalUrl := item.canonicalUrl
  normalizedContentHash := item.contentHash
  postVersionId := some versionId
  rejectedBodyBytes := none
  rejectionReason := none

/-- A new version for an accepted item, then its page item and its engagement. -/
def persistNormalizedItem (context : PageWriteContext) (a : Archive) (pageCommitId : UUID)
    (plan : PageItemPlan) (item : NormalizedPost) : Result Archive :=
  match plan.postId, plan.postVersionId, plan.revision with
  | some postId, some versionId, some revision => do
    let written ← match plan.disposition with
      | .accepted => addVersion a (versionRow context item postId versionId revision)
      | .duplicate => .ok a
      | .rejectedOversize => .error (fail .invalidContract 422)
    let written ← addItem written (postItemRow pageCommitId plan item versionId)
    addEngagement written {
      postVersionId := versionId
      sourceRunId := context.runId
      observedAt := context.observedAt
      commentsCount := item.commentsCount
      upvoteOrScore := item.upvoteOrScore
      engagementHash := engagementHash nfc context versionId item }
  | _, _, _ => .error (fail .invalidContract 422)

def persistItem (context : PageWriteContext) (a : Archive) (pageCommitId : UUID)
    (plan : PageItemPlan) : Result Archive :=
  match plan.normalizedItem with
  | .rejection item => addItem a (rejectionRow pageCommitId plan item)
  | .post item => persistNormalizedItem nfc context a pageCommitId plan item

def persistPageItems (context : PageWriteContext) (pageCommitId : UUID) :
    Archive → List PageItemPlan → Result Archive
  | a, [] => .ok a
  | a, plan :: rest => do
    let written ← persistItem nfc context a pageCommitId plan
    persistPageItems context pageCommitId written rest

def storePage (a : Archive) (run : RunState) (request : PageCommitRequest)
    (plan : PageCommitPlan) : Result Archive := do
  let startedAt ← requireUtc request.pageFetchStartedAt
  let finishedAt ← requireUtc request.pageFetchFinishedAt
  require (CommitAdmitted a.db.commits.rows plan.commit startedAt finishedAt) .integrity
  persistPageItems nfc ⟨run.id, run.sourceId, finishedAt⟩ plan.commit.id a plan.items

end Writes

section Machine
variable (svc : Service)

def plannedPage (db : Database) (runId : UUID) (request : PageCommitRequest) (now : Instant)
    (newId : ℕ → UUID) : Result (RunState × PageCommitPlan) := do
  let stream ← lockedStream db runId
  let call ← lockedPageCall svc db stream request now newId
  let plan ← preparePageCommit svc.toRuntime (stream.context call) request newId
  return (stream.run, plan)

def storePlanned (nfc : Text → Text) (a : Archive) (run : RunState) (request : PageCommitRequest)
    (plan : PageCommitPlan) : Result Archive :=
  if plan.shouldPersist then storePage nfc a run request plan else .ok a

/-- A page writes its archive rows with its other rows or not at all. -/
def archivePage (a : Archive) (runId : UUID) (request : PageCommitRequest) (clock : ℕ → Instant)
    (newId : ℕ → UUID) : Result Archive := do
  let planned ← plannedPage svc a.db runId request (clock 0) newId
  let stored ← storePlanned svc.nfc a planned.1 request planned.2
  let committed ← executePageCommit svc a.db runId request clock newId
  return { stored with db := committed.1 }

def archiveStep (a : Archive) (tx : Transaction) : Result Archive :=
  match tx.operation with
  | .commitPage runId request => archivePage svc a runId request tx.clock tx.ids.page
  | _ => do
    let db ← ControlPlane.step svc a.db tx
    return { a with db := db }

/-- `load_existing_posts`: the current version of each listed post, read through
    the pointer of the post row. -/
def loadExistingPosts (a : Archive) (sourceId : UUID) (sourcePostIds : List String) :
    Result (List ExistingPostVersion) :=
  (a.db.posts.rows.filter (fun p => p.sourceId = sourceId ∧
    p.current.sourcePostId ∈ sourcePostIds)).mapM (fun p => do
      let version ← present (a.versions.find? p.current.currentVersionId)
        (fail .invalidContract 422)
      return ⟨p.current.sourcePostId, p.current.postId, version.id, version.contentHash,
        version.revision⟩)

end Machine

section Posts

abbrev PostTable := Table (fun row : PostRow => (row.sourceId, row.current.sourcePostId))

/-- Each post row names its newest stored version, and each version its post. -/
structure PostsCurrent (posts : List PostRow) (versions : List PostVersionRow) : Prop where
  distinct : ∀ p ∈ posts, ∀ q ∈ posts, p.current.postId = q.current.postId → p = q
  current : ∀ p ∈ posts, ∃ v ∈ versions, v.id = p.current.currentVersionId ∧
    v.postId = p.current.postId ∧ v.contentHash = p.current.currentContentHash ∧
    v.revision = p.current.currentRevision
  newest : ∀ p ∈ posts, ∀ v ∈ versions, v.postId = p.current.postId →
    v.revision ≤ p.current.currentRevision
  first : ∀ p ∈ posts, ∃ v ∈ versions, v.postId = p.current.postId ∧ v.revision = 1
  owned : ∀ v ∈ versions, ∃ p ∈ posts, p.current.postId = v.postId

theorem find_storePost
    (posts : PostTable)
    (sourceId : UUID) (current : ExistingPostVersion) (key : UUID × String) :
    (storePost posts sourceId current).find? key =
      if key = (sourceId, current.sourcePostId) then some ⟨sourceId, current⟩
      else posts.find? key := by
  unfold storePost
  cases hinsert : posts.insert? ⟨sourceId, current⟩ with
  | some stored =>
    rw [Option.getD_some, Table.find?_insert hinsert]
    by_cases heq : key = (sourceId, current.sourcePostId)
    · rw [if_pos heq, if_pos heq.symm]
    · rw [if_neg heq, if_neg (Ne.symm heq)]
  | none =>
    rw [Option.getD_none]
    by_cases heq : key = (sourceId, current.sourcePostId)
    · subst heq
      rw [if_pos rfl]
      have hupdate := @Table.find?_update_self _ _
        (fun row : PostRow => (row.sourceId, row.current.sourcePostId)) _ posts
        (sourceId, current.sourcePostId)
        (fun row => { row with
          current := { current with sourcePostId := row.current.sourcePostId } }) (fun _ => rfl)
      refine hupdate.trans ?_
      cases hfind : posts.find? (sourceId, current.sourcePostId) with
      | none =>
        obtain ⟨stored, hstored⟩ := @Table.exists_insert _ _
          (fun row : PostRow => (row.sourceId, row.current.sourcePostId)) _ posts
          ⟨sourceId, current⟩ hfind
        rw [hinsert] at hstored
        cases hstored
      | some row =>
        obtain ⟨_, hkey⟩ := Table.find?_eq_some.mp hfind
        obtain ⟨hsource, hpost⟩ := Prod.mk.inj hkey
        rw [Option.map_some, hsource, hpost]
    · rw [if_neg heq]
      exact Table.find?_update_ne heq

theorem mem_storePost
    {posts : PostTable}
    {sourceId : UUID} {current : ExistingPostVersion} {p : PostRow} :
    p ∈ (storePost posts sourceId current).rows ↔
      p = ⟨sourceId, current⟩ ∨
        (p ∈ posts ∧ (p.sourceId, p.current.sourcePostId) ≠ (sourceId, current.sourcePostId)) := by
  have hmem (t : PostTable) :
      p ∈ t ↔ t.find? (p.sourceId, p.current.sourcePostId) = some p :=
    ⟨Table.find?_of_mem, fun h => (Table.find?_eq_some.mp h).1⟩
  rw [← Table.mem_def, hmem, find_storePost]
  by_cases heq : (p.sourceId, p.current.sourcePostId) = (sourceId, current.sourcePostId)
  · rw [if_pos heq]
    constructor
    · intro h
      exact .inl (Option.some.inj h).symm
    · rintro (rfl | ⟨_, hne⟩)
      · rfl
      · exact absurd heq hne
  · rw [if_neg heq, ← hmem]
    constructor
    · intro h
      exact .inr ⟨h, heq⟩
    · rintro (rfl | ⟨h, _⟩)
      · exact absurd rfl heq
      · exact h

/-- The version an accepted item adds after those stored for its post. -/
def Continues (posts : PostTable)
    (sourceId : UUID) (current : ExistingPostVersion) : Prop :=
  match posts.find? (sourceId, current.sourcePostId) with
  | some p => current.postId = p.current.postId ∧
      current.currentRevision = p.current.currentRevision + 1
  | none => current.currentRevision = 1

/-- One accepted version. A new post cannot take the identity of a stored one:
    the stored one already has a first revision. -/
theorem postsCurrent_stored
    {posts : PostTable}
    {versions : List PostVersionRow} {sourceId : UUID} {current : ExistingPostVersion}
    {v : PostVersionRow} (h : PostsCurrent posts.rows versions)
    (hcontinues : Continues posts sourceId current)
    (hv : v.id = current.currentVersionId ∧ v.postId = current.postId ∧
      v.contentHash = current.currentContentHash ∧ v.revision = current.currentRevision)
    (hadmitted : VersionAdmitted versions v) :
    PostsCurrent (storePost posts sourceId current).rows (versions ++ [v]) := by
  obtain ⟨hid, hpost, hhash, hrevision⟩ := hv
  obtain ⟨hfreeRevision, _⟩ := hadmitted
  -- every other stored post has another identity
  have hother (p : PostRow) (hp : p ∈ posts.rows)
      (hne : (p.sourceId, p.current.sourcePostId) ≠ (sourceId, current.sourcePostId)) :
      p.current.postId ≠ current.postId := by
    intro hsame
    unfold Continues at hcontinues
    split at hcontinues
    · rename_i q hq
      obtain ⟨hqmem, hqkey⟩ := Table.find?_eq_some.mp hq
      have heq := h.distinct p hp q hqmem (hsame.trans hcontinues.1)
      exact hne (by rw [heq]; exact hqkey)
    · obtain ⟨u, hu, hupost, hurevision⟩ := h.first p hp
      exact hfreeRevision u hu ⟨hupost.trans (hsame.trans hpost.symm),
        hurevision.trans (hrevision.trans hcontinues).symm⟩
  have hmem (u : PostVersionRow) : u ∈ versions ++ [v] ↔ u ∈ versions ∨ u = v := by simp
  constructor
  · intro p hp q hq hsame
    rcases mem_storePost.mp hp with rfl | ⟨hp, hpne⟩ <;>
      rcases mem_storePost.mp hq with rfl | ⟨hq, hqne⟩
    · rfl
    · exact absurd hsame.symm (hother q hq hqne)
    · exact absurd hsame (hother p hp hpne)
    · exact h.distinct p hp q hq hsame
  · intro p hp
    rcases mem_storePost.mp hp with rfl | ⟨hp, _⟩
    · exact ⟨v, (hmem v).mpr (.inr rfl), hid, hpost, hhash, hrevision⟩
    · obtain ⟨u, hu, hfacts⟩ := h.current p hp
      exact ⟨u, (hmem u).mpr (.inl hu), hfacts⟩
  · intro p hp u hu hupost
    rcases mem_storePost.mp hp with rfl | ⟨hp, hne⟩
    · rcases (hmem u).mp hu with hold | rfl
      · unfold Continues at hcontinues
        split at hcontinues
        · rename_i q hq
          have hle := h.newest q (Table.find?_eq_some.mp hq).1 u hold
            (hupost.trans hcontinues.1)
          have hnext := hcontinues.2
          change u.revision ≤ current.currentRevision
          omega
        · rename_i hnone
          obtain ⟨q, hq, hqpost⟩ := h.owned u hold
          have hkey : (q.sourceId, q.current.sourcePostId) ≠ (sourceId, current.sourcePostId) :=
            Table.find?_eq_none.mp hnone q hq
          exact absurd (hqpost.trans hupost) (hother q hq hkey)
      · exact hrevision.le
    · rcases (hmem u).mp hu with hold | rfl
      · exact h.newest p hp u hold hupost
      · exact absurd (hpost.symm.trans hupost).symm (hother p hp hne)
  · intro p hp
    rcases mem_storePost.mp hp with rfl | ⟨hp, _⟩
    · unfold Continues at hcontinues
      split at hcontinues
      · rename_i q hq
        obtain ⟨u, hu, hupost, hurevision⟩ := h.first q (Table.find?_eq_some.mp hq).1
        exact ⟨u, (hmem u).mpr (.inl hu), hupost.trans hcontinues.1.symm, hurevision⟩
      · exact ⟨v, (hmem v).mpr (.inr rfl), hpost, hrevision.trans hcontinues⟩
    · obtain ⟨u, hu, hfacts⟩ := h.first p hp
      exact ⟨u, (hmem u).mpr (.inl hu), hfacts⟩
  · intro u hu
    rcases (hmem u).mp hu with hold | rfl
    · obtain ⟨q, hq, hqpost⟩ := h.owned u hold
      by_cases hkey : (q.sourceId, q.current.sourcePostId) = (sourceId, current.sourcePostId)
      · refine ⟨⟨sourceId, current⟩, mem_storePost.mpr (.inl rfl), ?_⟩
        unfold Continues at hcontinues
        have hfind : posts.find? (sourceId, current.sourcePostId) = some q :=
          Table.find?_eq_some.mpr ⟨hq, hkey⟩
        simp only [hfind] at hcontinues
        exact hcontinues.1.trans hqpost
      · exact ⟨q, mem_storePost.mpr (.inr ⟨hq, hkey⟩), hqpost⟩
    · exact ⟨⟨sourceId, current⟩, mem_storePost.mpr (.inl rfl), hpost.symm⟩

end Posts

section Items
variable {nfc : Text → Text} {context : PageWriteContext} {pageCommitId : UUID}

theorem addVersion_eq_ok {a b : Archive} {v : PostVersionRow} :
    addVersion a v = .ok b ↔ VersionAdmitted a.versions.rows v ∧
      ∃ versions, a.versions.insert? v = some versions ∧ b = { a with versions := versions } := by
  rw [addVersion, require_bind, bind_eq_ok]
  simp only [present_eq_ok, pure, Except.pure, Except.ok.injEq, eq_comm (b := b)]

theorem addItem_eq_ok {a b : Archive} {item : PageCommitItemRow} :
    addItem a item = .ok b ↔ ItemAdmitted a.items item ∧ b = { a with items := a.items ++ [item] } := by
  rw [addItem, require_bind]
  simp only [pure, Except.pure, Except.ok.injEq, eq_comm (b := b)]

theorem addEngagement_eq_ok {a b : Archive} {row : EngagementObservationRow} :
    addEngagement a row = .ok b ↔ EngagementAdmitted row ∧
      b = if ∃ other ∈ a.engagements, other.postVersionId = row.postVersionId ∧
          other.sourceRunId = row.sourceRunId then a
        else { a with engagements := a.engagements ++ [row] } := by
  rw [addEngagement, require_bind]
  refine and_congr_right fun _ => ?_
  split
  · exact ⟨fun h => (Except.ok.inj h).symm, fun h => h ▸ rfl⟩
  · exact ⟨fun h => (Except.ok.inj h).symm, fun h => h ▸ rfl⟩

def plannedVersion (context : PageWriteContext) (plan : PageItemPlan) : Option PostVersionRow :=
  match plan.normalizedItem with
  | .rejection _ => none
  | .post item => (acceptedVersion plan).map (fun current =>
      versionRow context item current.postId current.currentVersionId current.currentRevision)

def plannedItem (pageCommitId : UUID) (plan : PageItemPlan) : PageCommitItemRow :=
  match plan.normalizedItem with
  | .rejection item => rejectionRow pageCommitId plan item
  | .post item => postItemRow pageCommitId plan item (plan.postVersionId.getD 0)

theorem plannedItem_page (plan : PageItemPlan) :
    (plannedItem pageCommitId plan).pageCommitId = pageCommitId := by
  unfold plannedItem
  split <;> rfl

/-- The columns that take the values of an item unchanged, whatever becomes of its text. -/
def ValuesFit : NormalizedPageItem → Prop
  | .rejection item => FitsInteger item.bodyBytes ∧ NamesFit item.sourcePostId item.canonicalUrl
  | .post item => ((∀ n ∈ item.commentsCount, FitsInteger n) ∧
      ∀ n ∈ item.upvoteOrScore, FitsInteger n) ∧ NamesFit item.sourcePostId item.canonicalUrl

/-- What the rows of one planned item need of the archive. -/
structure PlanAdmitted (context : PageWriteContext) (pageCommitId : UUID) (a : Archive)
    (plan : PageItemPlan) : Prop where
  version : ∀ v ∈ plannedVersion context plan,
    VersionAdmitted a.versions.rows v ∧ a.versions.find? v.id = none
  ordinal : (∀ other ∈ a.items, ¬(other.pageCommitId = pageCommitId ∧
    other.itemOrdinal = plan.itemOrdinal)) ∧ FitsInteger plan.itemOrdinal
  values : ValuesFit plan.normalizedItem

structure Wrote (a b : Archive) (version : Option PostVersionRow) (item : PageCommitItemRow) :
    Prop where
  db : b.db = a.db
  versions : (version = none ∧ b.versions = a.versions) ∨
    ∃ v, version = some v ∧ a.versions.insert? v = some b.versions
  items : b.items = a.items ++ [item]

theorem addEngagement_frame {a b : Archive} {row : EngagementObservationRow}
    (h : addEngagement a row = .ok b) :
    b.db = a.db ∧ b.versions = a.versions ∧ b.items = a.items := by
  obtain ⟨_, rfl⟩ := addEngagement_eq_ok.mp h
  split <;> exact ⟨rfl, rfl, rfl⟩

/-- The three shapes that classification gives a plan. -/
inductive Shaped : PageItemPlan → Prop
  | rejected (ordinal : ℕ) (item : OversizeRejection) :
    Shaped ⟨ordinal, .rejectedOversize, .rejection item, item.contentHash, none, none, none⟩
  | duplicate (ordinal : ℕ) (item : NormalizedPost) (postId versionId : UUID) (revision : ℕ) :
    Shaped ⟨ordinal, .duplicate, .post item, item.contentHash, some postId, some versionId,
      some revision⟩
  | accepted (ordinal : ℕ) (item : NormalizedPost) (postId versionId : UUID) (revision : ℕ) :
    Shaped ⟨ordinal, .accepted, .post item, item.contentHash, some postId, some versionId,
      some revision⟩

/-- One item's outcome, with the identities it takes and its plan. -/
inductive Classified (existing : List ExistingPostVersion) (newId : ℕ → UUID)
    (used ordinal : ℕ) : NormalizedPageItem → ℕ → PageItemPlan → Prop
  | rejected (item : OversizeRejection) :
    Classified existing newId used ordinal (.rejection item) used
      ⟨ordinal, .rejectedOversize, .rejection item, item.contentHash, none, none, none⟩
  | duplicate (item : NormalizedPost) (current : ExistingPostVersion)
    (found : existing.find? (fun row => row.sourcePostId = item.sourcePostId) = some current)
    (same : current.currentContentHash = item.contentHash) :
    Classified existing newId used ordinal (.post item) used
      ⟨ordinal, .duplicate, .post item, item.contentHash, some current.postId,
        some current.currentVersionId, some current.currentRevision⟩
  | edited (item : NormalizedPost) (current : ExistingPostVersion)
    (found : existing.find? (fun row => row.sourcePostId = item.sourcePostId) = some current)
    (other : current.currentContentHash ≠ item.contentHash) :
    Classified existing newId used ordinal (.post item) (used + 1)
      ⟨ordinal, .accepted, .post item, item.contentHash, some current.postId,
        some (newId used), some (current.currentRevision + 1)⟩
  | first (item : NormalizedPost)
    (absent : existing.find? (fun row => row.sourcePostId = item.sourcePostId) = none) :
    Classified existing newId used ordinal (.post item) (used + 2)
      ⟨ordinal, .accepted, .post item, item.contentHash, some (newId used),
        some (newId (used + 1)), some 1⟩

theorem classifyItem_classified (existing : List ExistingPostVersion) (newId : ℕ → UUID)
    (used ordinal : ℕ) (n : NormalizedPageItem) :
    Classified existing newId used ordinal n (classifyItem existing newId used ordinal n).1
      (classifyItem existing newId used ordinal n).2 := by
  cases n with
  | rejection item => exact .rejected item
  | post item =>
    cases hfind : existing.find? (fun row => row.sourcePostId = item.sourcePostId) with
    | some current =>
      by_cases hsame : current.currentContentHash = item.contentHash
      · simp only [classifyItem, hfind, if_pos hsame]
        exact .duplicate item current hfind hsame
      · simp only [classifyItem, hfind, if_neg hsame]
        exact .edited item current hfind hsame
    | none =>
      simp only [classifyItem, hfind]
      exact .first item hfind

theorem classified_shaped {existing : List ExistingPostVersion} {newId : ℕ → UUID}
    {used ordinal taken : ℕ} {n : NormalizedPageItem} {plan : PageItemPlan}
    (h : Classified existing newId used ordinal n taken plan) : Shaped plan := by
  cases h with
  | rejected item => exact .rejected ordinal item
  | duplicate item current => exact .duplicate ..
  | edited item current => exact .accepted ..
  | first item => exact .accepted ..

theorem persistItem_cases {a b : Archive} {plan : PageItemPlan} (hplan : Shaped plan)
    (h : persistItem nfc context a pageCommitId plan = .ok b) :
    PlanAdmitted context pageCommitId a plan ∧
      Wrote a b (plannedVersion context plan) (plannedItem pageCommitId plan) := by
  cases hplan with
  | rejected ordinal item =>
    obtain ⟨⟨hfree, _, hordinal, hbytes, hnames⟩, rfl⟩ := addItem_eq_ok.mp h
    exact ⟨⟨nofun, ⟨hfree, hordinal⟩, hbytes _ rfl, hnames⟩, rfl, .inl ⟨rfl, rfl⟩, rfl⟩
  | duplicate ordinal item postId versionId revision =>
    obtain ⟨first, hfirst, h⟩ := bind_eq_ok.mp h
    obtain rfl := Except.ok.inj hfirst
    obtain ⟨second, hsecond, h⟩ := bind_eq_ok.mp h
    obtain ⟨⟨hfree, _, hordinal, _, hnames⟩, rfl⟩ := addItem_eq_ok.mp hsecond
    obtain ⟨hdb, hversions, hitems⟩ := addEngagement_frame h
    obtain ⟨hvalues, _⟩ := addEngagement_eq_ok.mp h
    exact ⟨⟨nofun, ⟨hfree, hordinal⟩, hvalues, hnames⟩, hdb, .inl ⟨rfl, hversions⟩, hitems⟩
  | accepted ordinal item postId versionId revision =>
    obtain ⟨first, hfirst, h⟩ := bind_eq_ok.mp h
    obtain ⟨hadmitted, versions, hinsert, rfl⟩ := addVersion_eq_ok.mp hfirst
    obtain ⟨second, hsecond, h⟩ := bind_eq_ok.mp h
    obtain ⟨⟨hfree, _, hordinal, _, hnames⟩, rfl⟩ := addItem_eq_ok.mp hsecond
    obtain ⟨hdb, hversions, hitems⟩ := addEngagement_frame h
    obtain ⟨hvalues, _⟩ := addEngagement_eq_ok.mp h
    refine ⟨⟨?_, ⟨hfree, hordinal⟩, hvalues, hnames⟩, hdb, .inr ⟨_, rfl, ?_⟩, hitems⟩
    · intro v hv
      obtain rfl := Option.some.inj hv
      exact ⟨hadmitted, (Table.insert?_eq_some.mp hinsert).1⟩
    · rw [hversions]
      exact hinsert

theorem persistItem_admitted {a : Archive} {plan : PageItemPlan} (hplan : Shaped plan)
    (h : PlanAdmitted context pageCommitId a plan) :
    ∃ b, persistItem nfc context a pageCommitId plan = .ok b := by
  obtain ⟨hversion, ⟨hfree, hordinal⟩, hvalues⟩ := h
  cases hplan with
  | rejected ordinal item =>
    refine ⟨_, addItem_eq_ok.mpr ⟨⟨hfree, fun _ => ⟨rfl, rfl⟩, hordinal, ?_, hvalues.2⟩, rfl⟩⟩
    intro n hn
    obtain rfl := Option.some.inj hn
    exact hvalues.1
  | duplicate ordinal item postId versionId revision =>
    exact ⟨_, bind_eq_ok.mpr ⟨a, rfl, bind_eq_ok.mpr ⟨_,
      addItem_eq_ok.mpr ⟨⟨hfree, nofun, hordinal, nofun, hvalues.2⟩, rfl⟩,
      addEngagement_eq_ok.mpr ⟨hvalues.1, rfl⟩⟩⟩⟩
  | accepted ordinal item postId versionId revision =>
    obtain ⟨hadmitted, hfresh⟩ := hversion _ rfl
    obtain ⟨versions, hinsert⟩ := Table.exists_insert hfresh
    exact ⟨_, bind_eq_ok.mpr ⟨_, addVersion_eq_ok.mpr ⟨hadmitted, versions, hinsert, rfl⟩,
      bind_eq_ok.mpr ⟨_, addItem_eq_ok.mpr ⟨⟨hfree, nofun, hordinal, nofun, hvalues.2⟩, rfl⟩,
        addEngagement_eq_ok.mpr ⟨hvalues.1, rfl⟩⟩⟩⟩

theorem addEngagement_appends {a b : Archive} {row : EngagementObservationRow}
    (h : addEngagement a row = .ok b) : ∃ observed, b.engagements = a.engagements ++ observed ∧
      (observed.map (·.postVersionId)).Sublist [row.postVersionId] := by
  obtain ⟨_, rfl⟩ := addEngagement_eq_ok.mp h
  by_cases hseen : ∃ other ∈ a.engagements, other.postVersionId = row.postVersionId ∧
      other.sourceRunId = row.sourceRunId
  · rw [if_pos hseen]
    exact ⟨[], by simp, by simp⟩
  · rw [if_neg hseen]
    exact ⟨[row], rfl, by simp⟩

theorem persistItem_observes {a b : Archive} {plan : PageItemPlan} (hplan : Shaped plan)
    (h : persistItem nfc context a pageCommitId plan = .ok b) :
    ∃ observed, b.engagements = a.engagements ++ observed ∧
      (observed.map (·.postVersionId)).Sublist plan.postVersionId.toList := by
  cases hplan with
  | rejected ordinal item =>
    obtain ⟨_, rfl⟩ := addItem_eq_ok.mp h
    exact ⟨[], by simp, by simp⟩
  | duplicate ordinal item postId versionId revision =>
    obtain ⟨first, hfirst, h⟩ := bind_eq_ok.mp h
    obtain rfl := Except.ok.inj hfirst
    obtain ⟨second, hsecond, h⟩ := bind_eq_ok.mp h
    obtain ⟨_, rfl⟩ := addItem_eq_ok.mp hsecond
    exact addEngagement_appends h
  | accepted ordinal item postId versionId revision =>
    obtain ⟨first, hfirst, h⟩ := bind_eq_ok.mp h
    obtain ⟨_, versions, _, rfl⟩ := addVersion_eq_ok.mp hfirst
    obtain ⟨second, hsecond, h⟩ := bind_eq_ok.mp h
    obtain ⟨_, rfl⟩ := addItem_eq_ok.mp hsecond
    exact addEngagement_appends h

theorem wrote_rows {a b : Archive} {version : Option PostVersionRow} {item : PageCommitItemRow}
    (h : Wrote a b version item) : b.versions.rows = a.versions.rows ++ version.toList := by
  rcases h.versions with ⟨rfl, hsame⟩ | ⟨v, rfl, hinsert⟩
  · rw [hsame, Option.toList_none, List.append_nil]
  · exact (Table.insert?_eq_some.mp hinsert).2

/-- The rows that the items of a page leave, in page order. -/
structure PlansWritten (context : PageWriteContext) (pageCommitId : UUID) (a b : Archive)
    (plans : List PageItemPlan) : Prop where
  items : b.items = a.items ++ plans.map (plannedItem pageCommitId)
  versions : b.versions.rows = a.versions.rows ++ plans.filterMap (plannedVersion context)
  observed : ∃ observed, b.engagements = a.engagements ++ observed ∧
    (observed.map (·.postVersionId)).Sublist (plans.filterMap (·.postVersionId))

theorem persistPageItems_written {a b : Archive} {plans : List PageItemPlan}
    (hplans : ∀ plan ∈ plans, Shaped plan)
    (h : persistPageItems nfc context pageCommitId a plans = .ok b) :
    PlansWritten context pageCommitId a b plans := by
  induction plans generalizing a with
  | nil =>
    obtain rfl := Except.ok.inj h
    exact ⟨by simp, by simp, [], by simp, by simp⟩
  | cons plan rest ih =>
    obtain ⟨first, hfirst, h⟩ := bind_eq_ok.mp h
    have hplan := hplans plan (by simp)
    obtain ⟨_, hwrote⟩ := persistItem_cases hplan hfirst
    obtain ⟨seen, hseen, hone⟩ := persistItem_observes hplan hfirst
    have hrest := ih (fun other hother => hplans other (by simp [hother])) h
    obtain ⟨later, hlater, hothers⟩ := hrest.observed
    refine ⟨?_, ?_, seen ++ later, ?_, ?_⟩
    · rw [hrest.items, hwrote.items, List.append_assoc]
      rfl
    · rw [hrest.versions, wrote_rows hwrote, List.append_assoc, List.filterMap_cons]
      cases plannedVersion context plan <;> rfl
    · rw [hlater, hseen, List.append_assoc]
    · rw [List.map_append, List.filterMap_cons]
      have happended := hone.append hothers
      cases hversion : plan.postVersionId <;> simpa [hversion] using happended

end Items

section Pages
variable {nfc : Text → Text} {context : PageWriteContext} {pageCommitId : UUID}
  {existing : List ExistingPostVersion} {newId : ℕ → UUID} {sourceId : UUID}

def Synced (existing : List ExistingPostVersion)
    (posts : PostTable)
    (sourceId : UUID) (ns : List NormalizedPageItem) : Prop :=
  ∀ n ∈ ns, existing.find? (fun row => row.sourcePostId = n.sourcePostId) =
    (posts.find? (sourceId, n.sourcePostId)).map (·.current)

theorem synced_existingPosts {db : Database} {sourcePostIds : List String}
    {ns : List NormalizedPageItem} (h : ∀ n ∈ ns, n.sourcePostId ∈ sourcePostIds) :
    Synced (existingPosts db sourceId sourcePostIds) db.posts sourceId ns := by
  intro n hn
  rw [existingPosts, List.find?_map, List.find?_filter, Table.find?]
  refine congrArg (Option.map _) (congrArg (fun q => List.find? q db.posts.rows) (funext fun p => ?_))
  have hlisted := h n hn
  by_cases hsource : p.sourceId = sourceId <;>
    by_cases hpost : p.current.sourcePostId = n.sourcePostId <;>
    simp [hsource, hpost, hlisted]

theorem classified_version
    {posts : PostTable}
    {used ordinal taken : ℕ} {n : NormalizedPageItem} {plan : PageItemPlan}
    (h : Classified existing newId used ordinal n taken plan)
    (hsync : existing.find? (fun row => row.sourcePostId = n.sourcePostId) =
      (posts.find? (sourceId, n.sourcePostId)).map (·.current)) :
    (acceptedVersion plan = none ∧ plannedVersion context plan = none) ∨
      ∃ current v, acceptedVersion plan = some current ∧ plannedVersion context plan = some v ∧
        current.sourcePostId = n.sourcePostId ∧ Continues posts sourceId current ∧
        v.id = current.currentVersionId ∧ v.postId = current.postId ∧
        v.contentHash = current.currentContentHash ∧ v.revision = current.currentRevision := by
  cases h with
  | rejected item => exact .inl ⟨rfl, rfl⟩
  | duplicate item current found same => exact .inl ⟨rfl, rfl⟩
  | edited item current found other =>
    refine .inr ⟨_, _, rfl, rfl, rfl, ?_, rfl, rfl, rfl, rfl⟩
    change existing.find? (fun row => row.sourcePostId = item.sourcePostId) =
      (posts.find? (sourceId, item.sourcePostId)).map (·.current) at hsync
    rw [found] at hsync
    obtain ⟨p, hp, rfl⟩ := Option.map_eq_some_iff.mp hsync.symm
    change match posts.find? (sourceId, item.sourcePostId) with
      | some q => p.current.postId = q.current.postId ∧
          p.current.currentRevision + 1 = q.current.currentRevision + 1
      | none => p.current.currentRevision + 1 = 1
    rw [hp]
    exact ⟨rfl, rfl⟩
  | first item absent =>
    refine .inr ⟨_, _, rfl, rfl, rfl, ?_, rfl, rfl, rfl, rfl⟩
    change existing.find? (fun row => row.sourcePostId = item.sourcePostId) =
      (posts.find? (sourceId, item.sourcePostId)).map (·.current) at hsync
    rw [absent] at hsync
    have hnone := Option.map_eq_none_iff.mp hsync.symm
    change match posts.find? (sourceId, item.sourcePostId) with
      | some q => newId used = q.current.postId ∧ 1 = q.current.currentRevision + 1
      | none => 1 = 1
    rw [hnone]

theorem classifyFrom_shaped (used ordinal : ℕ) (ns : List NormalizedPageItem) :
    ∀ plan ∈ (classifyFrom existing newId used ordinal ns).2, Shaped plan := by
  induction ns generalizing used ordinal with
  | nil => intro plan hplan; cases hplan
  | cons n ns ih =>
    intro plan hplan
    rcases List.mem_cons.mp hplan with rfl | hrest
    · exact classified_shaped (classifyItem_classified existing newId used ordinal n)
    · exact ih _ _ plan hrest

theorem persisted_invariant {nfc : Text → Text} {context : PageWriteContext} {pageCommitId : UUID}
    {existing : List ExistingPostVersion} {newId : ℕ → UUID} {sourceId : UUID}
    {I : PostTable → List PostVersionRow → Prop}
    (hstep : ∀ posts versions current v, I posts versions → Continues posts sourceId current →
      (v.id = current.currentVersionId ∧ v.postId = current.postId ∧
        v.contentHash = current.currentContentHash ∧ v.revision = current.currentRevision) →
      VersionAdmitted versions v → I (storePost posts sourceId current) (versions ++ [v]))
    {posts : PostTable} {a b : Archive} {used ordinal : ℕ} {ns : List NormalizedPageItem}
    (hdistinct : (ns.map NormalizedPageItem.sourcePostId).Nodup)
    (hsync : Synced existing posts sourceId ns) (h : I posts a.versions.rows)
    (hok : persistPageItems nfc context pageCommitId a
      (classifyFrom existing newId used ordinal ns).2 = .ok b) :
    I (((classifyFrom existing newId used ordinal ns).2.filterMap acceptedVersion).foldl
      (fun posts v => storePost posts sourceId v) posts) b.versions.rows := by
  induction ns generalizing posts a used ordinal with
  | nil =>
    obtain rfl := Except.ok.inj hok
    exact h
  | cons n ns ih =>
    have hplans : (classifyFrom existing newId used ordinal (n :: ns)).2 =
        (classifyItem existing newId used ordinal n).2 ::
          (classifyFrom existing newId (classifyItem existing newId used ordinal n).1
            (ordinal + 1) ns).2 := rfl
    rw [hplans] at hok ⊢
    have hclassified := classifyItem_classified existing newId used ordinal n
    obtain ⟨first, hfirst, hrest⟩ := bind_eq_ok.mp hok
    obtain ⟨hadmitted, hwrote⟩ := persistItem_cases (classified_shaped hclassified) hfirst
    have hversions := wrote_rows hwrote
    obtain ⟨hnotin, hdistinct⟩ := List.nodup_cons.mp hdistinct
    rcases classified_version hclassified (hsync n (by simp)) with
      ⟨hnone, hversion⟩ | ⟨current, v, hsome, hversion, hpost, hcontinues, hv⟩
    · rw [hversion, Option.toList_none, List.append_nil] at hversions
      rw [List.filterMap_cons_none hnone]
      exact ih hdistinct (fun m hm => hsync m (by simp [hm])) (by rw [hversions]; exact h) hrest
    · rw [hversion] at hversions
      rw [List.filterMap_cons_some hsome, List.foldl_cons]
      have hsyncRest : Synced existing (storePost posts sourceId current) sourceId ns := by
        intro m hm
        rw [find_storePost, if_neg, hsync m (by simp [hm])]
        intro heq
        refine hnotin (List.mem_map.mpr ⟨m, hm, ?_⟩)
        exact (Prod.mk.inj heq).2.trans hpost
      refine ih hdistinct hsyncRest ?_ hrest
      rw [hversions]
      exact hstep _ _ _ _ h hcontinues hv (hadmitted.version v hversion).1

end Pages

section Limits
variable {nfc : Text → Text} {context : PageWriteContext} {pageCommitId : UUID}
  {existing : List ExistingPostVersion} {newId : ℕ → UUID} {sourceId : UUID}

/-- The text that the post has now, or one that its columns take and that none of its
    versions had, while its revisions are not used up. -/
def TextFits (a : Archive) (sourceId : UUID) (sourcePostId : String) (contentHash : Digest)
    (title body : String) : Prop :=
  (∃ p ∈ a.db.posts.find? (sourceId, sourcePostId), p.current.currentContentHash = contentHash) ∨
    ((FitsText title.toList ∧ FitsText body.toList) ∧
      ∀ p ∈ a.db.posts.find? (sourceId, sourcePostId),
        FitsInteger (p.current.currentRevision + 1 : ℕ) ∧
          ∀ v ∈ a.versions.rows, v.postId = p.current.postId → v.contentHash ≠ contentHash)

def NormalizedFits (a : Archive) (sourceId : UUID) (n : NormalizedPageItem) : Prop :=
  ValuesFit n ∧ ∀ item, n = .post item →
    TextFits a sourceId item.sourcePostId item.contentHash item.title item.body

/-- The identities drawn for a page differ from each other and from all stored ones. -/
structure FreshIdentities (a : Archive) (newId : ℕ → UUID) (drawn : ℕ) : Prop where
  distinct : ∀ k ≤ drawn, ∀ j < k, newId j ≠ newId k
  versions : ∀ k ≤ drawn, ∀ v ∈ a.versions.rows, v.id ≠ newId k ∧ v.postId ≠ newId k
  commits : ∀ k ≤ drawn, ∀ c ∈ a.db.commits.rows, c.id ≠ newId k

/-- The archive after some items of a page, seen from the items still to come. -/
structure Extends (a b : Archive) (sourceId pageCommitId : UUID) (newId : ℕ → UUID)
    (used ordinal : ℕ) (ns : List NormalizedPageItem) : Prop where
  kept : ∀ u ∈ a.versions.rows, u ∈ b.versions.rows
  added : ∀ u ∈ b.versions.rows, u ∈ a.versions.rows ∨ ((∃ k < used, u.id = newId k) ∧
    ((∃ k < used, u.postId = newId k) ∨ ∃ p ∈ a.db.posts.rows, u.postId = p.current.postId ∧
      ∀ n ∈ ns, (p.sourceId, p.current.sourcePostId) ≠ (sourceId, n.sourcePostId)))
  items : ∀ i ∈ b.items, i.pageCommitId = pageCommitId → i.itemOrdinal < ordinal

theorem classified_taken {used ordinal taken : ℕ} {n : NormalizedPageItem} {plan : PageItemPlan}
    (h : Classified existing newId used ordinal n taken plan) :
    used ≤ taken ∧ taken ≤ used + 2 ∧ plan.itemOrdinal = ordinal := by
  cases h <;> refine ⟨?_, ?_, rfl⟩ <;> omega

theorem fresh_extends {a b : Archive} {used ordinal drawn k : ℕ} {ns : List NormalizedPageItem}
    (hfresh : FreshIdentities a newId drawn)
    (hext : Extends a b sourceId pageCommitId newId used ordinal ns) (hused : used ≤ k)
    (hk : k ≤ drawn) {u : PostVersionRow} (hu : u ∈ b.versions.rows) : u.id ≠ newId k := by
  rcases hext.added u hu with hold | ⟨⟨j, hj, hid⟩, _⟩
  · exact (hfresh.versions k hk u hold).1
  · rw [hid]
    exact hfresh.distinct k hk j (by omega)

/-- One item is stored exactly when its values and its text fit. -/
theorem planAdmitted_iff {a b : Archive} {used ordinal taken drawn : ℕ} {n : NormalizedPageItem}
    {ns : List NormalizedPageItem} {plan : PageItemPlan}
    (hposts : PostsCurrent a.db.posts.rows a.versions.rows)
    (hfresh : FreshIdentities a newId drawn)
    (hext : Extends a b sourceId pageCommitId newId used ordinal (n :: ns))
    (hdrawn : taken ≤ drawn) (hordinal : FitsInteger ordinal)
    (hsize : ∀ item, n = .post item → item.bodyBytes ≤ maxPostBytes)
    (hsync : existing.find? (fun row => row.sourcePostId = n.sourcePostId) =
      (a.db.posts.find? (sourceId, n.sourcePostId)).map (·.current))
    (h : Classified existing newId used ordinal n taken plan) :
    PlanAdmitted context pageCommitId b plan ↔ NormalizedFits a sourceId n := by
  have hfree : (∀ other ∈ b.items, ¬(other.pageCommitId = pageCommitId ∧
      other.itemOrdinal = plan.itemOrdinal)) ∧ FitsInteger plan.itemOrdinal := by
    rw [(classified_taken h).2.2]
    refine ⟨fun other hother hsame => ?_, hordinal⟩
    have hlt := hext.items other hother hsame.1
    omega
  cases h with
  | rejected item =>
    exact ⟨fun hplan => ⟨hplan.values, nofun⟩, fun hfits => ⟨nofun, hfree, hfits.1⟩⟩
  | duplicate item current found same =>
    refine ⟨fun hplan => ⟨hplan.values, ?_⟩, fun hfits => ⟨nofun, hfree, hfits.1⟩⟩
    intro other hother
    obtain rfl := NormalizedPageItem.post.inj hother
    change existing.find? (fun row => row.sourcePostId = item.sourcePostId) =
      (a.db.posts.find? (sourceId, item.sourcePostId)).map (·.current) at hsync
    rw [found] at hsync
    obtain ⟨p, hp, rfl⟩ := Option.map_eq_some_iff.mp hsync.symm
    exact .inl ⟨p, hp, same⟩
  | edited item current found other =>
    change existing.find? (fun row => row.sourcePostId = item.sourcePostId) =
      (a.db.posts.find? (sourceId, item.sourcePostId)).map (·.current) at hsync
    rw [found] at hsync
    obtain ⟨p, hp, rfl⟩ := Option.map_eq_some_iff.mp hsync.symm
    obtain ⟨hpmem, hpkey⟩ := Table.find?_eq_some.mp hp
    constructor
    · intro hplan
      obtain ⟨⟨_, hcontent, _, _, hrevision, _, htexts⟩, _⟩ := hplan.version _ rfl
      refine ⟨hplan.values, fun item' hitem => .inr ?_⟩
      obtain rfl := NormalizedPageItem.post.inj hitem
      refine ⟨htexts, fun q hq => ?_⟩
      obtain rfl := Option.some.inj (hp.symm.trans hq)
      exact ⟨hrevision, fun v hv hvpost hvhash => hcontent v (hext.kept v hv) ⟨hvpost, hvhash⟩⟩
    · rintro ⟨hvalues, htext⟩
      obtain ⟨htexts, hnew⟩ := (htext item rfl).resolve_left fun ⟨q, hq, hsame⟩ =>
        other (by rw [Option.some.inj (hp.symm.trans hq)]; exact hsame)
      obtain ⟨hrevision, hcontent⟩ := hnew p hp
      -- a version added before belongs to another post
      have hstored (u : PostVersionRow) (hu : u ∈ b.versions.rows)
          (hupost : u.postId = p.current.postId) : u ∈ a.versions.rows := by
        rcases hext.added u hu with hold | ⟨_, ⟨k, hk, hpost⟩ | ⟨q, hq, hpost, hother⟩⟩
        · exact hold
        · obtain ⟨v, hv, _, hvpost, _⟩ := hposts.current p hpmem
          exact absurd (hvpost.trans (hupost.symm.trans hpost))
            (hfresh.versions k (by omega) v hv).2
        · have hsame := hposts.distinct q hq p hpmem (hpost.symm.trans hupost)
          exact absurd (by rw [hsame]; exact hpkey) (hother (.post item) (by simp))
      refine ⟨fun v hv => ?_, hfree, hvalues⟩
      obtain rfl := Option.some.inj hv
      refine ⟨⟨fun u hu hsame => ?_, fun u hu hsame => ?_, Nat.succ_pos _, hsize item rfl,
        hrevision, ?_, htexts⟩, ?_⟩
      · have hle := hposts.newest p hpmem u (hstored u hu hsame.1) hsame.1
        have heq : u.revision = p.current.currentRevision + 1 := hsame.2
        omega
      · exact hcontent u (hstored u hu hsame.1) hsame.1 hsame.2
      · exact fitsInteger_of_le (Nat.le_trans (hsize item rfl) (by decide))
      · exact Table.find?_eq_none.mpr fun u hu =>
          fresh_extends hfresh hext (Nat.le_refl used) (by omega) hu
  | first item absent =>
    change existing.find? (fun row => row.sourcePostId = item.sourcePostId) =
      (a.db.posts.find? (sourceId, item.sourcePostId)).map (·.current) at hsync
    rw [absent] at hsync
    have hnone := Option.map_eq_none_iff.mp hsync.symm
    constructor
    · intro hplan
      obtain ⟨⟨_, _, _, _, _, _, htexts⟩, _⟩ := hplan.version _ rfl
      refine ⟨hplan.values, fun item' hitem => .inr ?_⟩
      obtain rfl := NormalizedPageItem.post.inj hitem
      refine ⟨htexts, fun q hq => ?_⟩
      cases hnone.symm.trans hq
    · rintro ⟨hvalues, htext⟩
      obtain ⟨htexts, _⟩ := (htext item rfl).resolve_left fun ⟨q, hq, _⟩ => by
        cases hnone.symm.trans hq
      -- the drawn post identity names no stored version
      have hunused (u : PostVersionRow) (hu : u ∈ b.versions.rows) : u.postId ≠ newId used := by
        rcases hext.added u hu with hold | ⟨_, ⟨k, hk, hpost⟩ | ⟨q, hq, hpost, _⟩⟩
        · exact (hfresh.versions used (by omega) u hold).2
        · rw [hpost]
          exact hfresh.distinct used (by omega) k hk
        · obtain ⟨v, hv, _, hvpost, _⟩ := hposts.current q hq
          rw [hpost, ← hvpost]
          exact (hfresh.versions used (by omega) v hv).2
      refine ⟨fun v hv => ?_, hfree, hvalues⟩
      obtain rfl := Option.some.inj hv
      refine ⟨⟨fun u hu hsame => hunused u hu hsame.1, fun u hu hsame => hunused u hu hsame.1,
        Nat.one_pos, hsize item rfl, fitsInteger_of_le (n := 1) (by decide), ?_, htexts⟩, ?_⟩
      · exact fitsInteger_of_le (Nat.le_trans (hsize item rfl) (by decide))
      · exact Table.find?_eq_none.mpr fun u hu =>
          fresh_extends hfresh hext (Nat.le_succ used) (by omega) hu

theorem extends_written {a b c : Archive} {used ordinal taken : ℕ} {n : NormalizedPageItem}
    {ns : List NormalizedPageItem} {plan : PageItemPlan}
    (hext : Extends a b sourceId pageCommitId newId used ordinal (n :: ns))
    (hdistinct : ∀ m ∈ ns, m.sourcePostId ≠ n.sourcePostId)
    (hsync : existing.find? (fun row => row.sourcePostId = n.sourcePostId) =
      (a.db.posts.find? (sourceId, n.sourcePostId)).map (·.current))
    (h : Classified existing newId used ordinal n taken plan)
    (hwrote : Wrote b c (plannedVersion context plan) (plannedItem pageCommitId plan)) :
    Extends a c sourceId pageCommitId newId taken (ordinal + 1) ns := by
  obtain ⟨htaken, _, hordinal⟩ := classified_taken h
  have hold (u : PostVersionRow) (hu : u ∈ b.versions.rows) :
      u ∈ a.versions.rows ∨ ((∃ k < taken, u.id = newId k) ∧
        ((∃ k < taken, u.postId = newId k) ∨ ∃ p ∈ a.db.posts.rows, u.postId = p.current.postId ∧
          ∀ m ∈ ns, (p.sourceId, p.current.sourcePostId) ≠ (sourceId, m.sourcePostId))) := by
    rcases hext.added u hu with hu | ⟨⟨j, hj, hid⟩, hpost⟩
    · exact .inl hu
    · refine .inr ⟨⟨j, by omega, hid⟩, ?_⟩
      rcases hpost with ⟨k, hk, hpost⟩ | ⟨p, hp, hpost, hother⟩
      · exact .inl ⟨k, by omega, hpost⟩
      · exact .inr ⟨p, hp, hpost, fun m hm => hother m (by simp [hm])⟩
  have hitems : ∀ i ∈ c.items, i.pageCommitId = pageCommitId → i.itemOrdinal < ordinal + 1 := by
    intro i hi hpage
    rw [hwrote.items, List.mem_append, List.mem_singleton] at hi
    rcases hi with hi | rfl
    · have hlt := hext.items i hi hpage
      omega
    · have hsame : (plannedItem pageCommitId plan).itemOrdinal = plan.itemOrdinal := by
        unfold plannedItem
        split <;> rfl
      omega
  have hrows : (plannedVersion context plan = none ∧ c.versions.rows = b.versions.rows) ∨
      ∃ v, plannedVersion context plan = some v ∧ c.versions.rows = b.versions.rows ++ [v] := by
    rcases hwrote.versions with ⟨hnone, hsame⟩ | ⟨v, hv, hinsert⟩
    · exact .inl ⟨hnone, by rw [hsame]⟩
    · exact .inr ⟨v, hv, (Table.insert?_eq_some.mp hinsert).2⟩
  rcases hrows with ⟨_, hsame⟩ | ⟨v, hv, happended⟩
  · exact ⟨by rw [hsame]; exact hext.kept, by rw [hsame]; exact hold, hitems⟩
  refine ⟨fun u hu => ?_, fun u hu => ?_, hitems⟩
  · rw [happended]
    exact List.mem_append_left _ (hext.kept u hu)
  · rw [happended, List.mem_append, List.mem_singleton] at hu
    rcases hu with hu | rfl
    · exact hold u hu
    · cases h with
      | rejected item => cases hv
      | duplicate item current found same => cases hv
      | edited item current found other =>
        obtain rfl := Option.some.inj hv
        change existing.find? (fun row => row.sourcePostId = item.sourcePostId) =
          (a.db.posts.find? (sourceId, item.sourcePostId)).map (·.current) at hsync
        rw [found] at hsync
        obtain ⟨p, hp, rfl⟩ := Option.map_eq_some_iff.mp hsync.symm
        obtain ⟨hpmem, hpkey⟩ := Table.find?_eq_some.mp hp
        refine .inr ⟨⟨used, by omega, rfl⟩, .inr ⟨p, hpmem, rfl, fun m hm hsame => ?_⟩⟩
        have hpost : m.sourcePostId = item.sourcePostId :=
          (Prod.mk.inj (hsame.symm.trans hpkey)).2
        exact hdistinct m hm hpost
      | first item absent =>
        obtain rfl := Option.some.inj hv
        exact .inr ⟨⟨used + 1, by omega, rfl⟩, .inl ⟨used, by omega, rfl⟩⟩

/-- The items of a page are stored exactly when each of them fits. -/
theorem persistPageItems_iff {a b : Archive} {used ordinal drawn : ℕ}
    {ns : List NormalizedPageItem} (hposts : PostsCurrent a.db.posts.rows a.versions.rows)
    (hfresh : FreshIdentities a newId drawn)
    (hext : Extends a b sourceId pageCommitId newId used ordinal ns)
    (hdrawn : used + 2 * ns.length ≤ drawn) (hordinal : ordinal + ns.length ≤ 2147483647)
    (hsize : ∀ item, .post item ∈ ns → item.bodyBytes ≤ maxPostBytes)
    (hdistinct : (ns.map NormalizedPageItem.sourcePostId).Nodup)
    (hsync : Synced existing a.db.posts sourceId ns) :
    (∃ c, persistPageItems nfc context pageCommitId b
      (classifyFrom existing newId used ordinal ns).2 = .ok c) ↔
        ∀ n ∈ ns, NormalizedFits a sourceId n := by
  induction ns generalizing b used ordinal with
  | nil => exact ⟨fun _ _ hn => by simp at hn, fun _ => ⟨b, rfl⟩⟩
  | cons n ns ih =>
    have hplans : (classifyFrom existing newId used ordinal (n :: ns)).2 =
        (classifyItem existing newId used ordinal n).2 ::
          (classifyFrom existing newId (classifyItem existing newId used ordinal n).1
            (ordinal + 1) ns).2 := rfl
    have hclassified := classifyItem_classified existing newId used ordinal n
    obtain ⟨_, htaken, _⟩ := classified_taken hclassified
    have hsyncHead := hsync n (by simp)
    obtain ⟨hnotin, hdistinct⟩ := List.nodup_cons.mp hdistinct
    have hothers (m : NormalizedPageItem) (hm : m ∈ ns) : m.sourcePostId ≠ n.sourcePostId :=
      fun heq => hnotin (List.mem_map.mpr ⟨m, hm, heq⟩)
    rw [List.length_cons] at hdrawn hordinal
    have hhead : PlanAdmitted context pageCommitId b (classifyItem existing newId used ordinal n).2 ↔
        NormalizedFits a sourceId n :=
      planAdmitted_iff hposts hfresh hext (by omega) (fitsInteger_of_le (by omega))
        (fun item hitem => hsize item (by simp [hitem])) hsyncHead hclassified
    have htail {c : Archive} (hwrote : Wrote b c
        (plannedVersion context (classifyItem existing newId used ordinal n).2)
        (plannedItem pageCommitId (classifyItem existing newId used ordinal n).2)) :=
      ih (extends_written hext hothers hsyncHead hclassified hwrote) (by omega) (by omega)
        (fun item hitem => hsize item (by simp [hitem])) hdistinct
        (fun m hm => hsync m (by simp [hm]))
    rw [hplans, List.forall_mem_cons]
    constructor
    · rintro ⟨c, hc⟩
      obtain ⟨first, hfirst, hrest⟩ := bind_eq_ok.mp hc
      obtain ⟨hadmitted, hwrote⟩ := persistItem_cases (classified_shaped hclassified) hfirst
      exact ⟨hhead.mp hadmitted, (htail hwrote).mp ⟨c, hrest⟩⟩
    · rintro ⟨hfits, hrest⟩
      obtain ⟨first, hfirst⟩ := @persistItem_admitted nfc context pageCommitId b _
        (classified_shaped hclassified) (hhead.mpr hfits)
      obtain ⟨_, hwrote⟩ := persistItem_cases (classified_shaped hclassified) hfirst
      obtain ⟨c, hc⟩ := (htail hwrote).mpr hrest
      exact ⟨c, bind_eq_ok.mpr ⟨first, hfirst, hc⟩⟩

end Limits

section Normalization
variable {nfc : Text → Text}

theorem normalizePageItems_ids {items : List PagePostInput} {ns : List NormalizedPageItem}
    (h : normalizePageItems nfc items = .ok ns) :
    ns.map NormalizedPageItem.sourcePostId = items.map PagePostInput.sourcePostId ∧
      (ns.map NormalizedPageItem.sourcePostId).Nodup := by
  obtain ⟨hnodup, h⟩ := require_bind.mp h
  have hids {xs : List PagePostInput} {ys : List NormalizedPageItem}
      (heach : List.Forall₂ (fun x y => normalizeItem nfc x = .ok y) xs ys) :
      ys.map NormalizedPageItem.sourcePostId = xs.map PagePostInput.sourcePostId := by
    induction heach with
    | nil => rfl
    | cons hxy _ ih => rw [List.map_cons, List.map_cons, ih, normalizeItem_sourcePostId hxy]
  have hsame := hids (mapM_forall₂.mp h)
  exact ⟨hsame, by rw [hsame]; exact hnodup⟩

theorem normalizeItem_size {p : PagePostInput} {n : NormalizedPageItem}
    (h : normalizeItem nfc p = .ok n) (item : NormalizedPost) (hitem : n = .post item) :
    item.bodyBytes ≤ maxPostBytes := by
  subst hitem
  cases p with
  | oversize p => cases Except.ok.inj h
  | accepted p =>
    obtain ⟨_, h⟩ := require_bind.mp h
    dsimp only at h
    split at h
    · cases Except.ok.inj h
    · rename_i hbytes
      obtain ⟨publishedAt, _, h⟩ := bind_eq_ok.mp h
      obtain rfl := NormalizedPageItem.post.inj (Except.ok.inj h)
      exact Nat.le_of_not_lt hbytes

variable (nfc)

def PostFits (a : Archive) (sourceId : UUID) : PagePostInput → Prop
  | .oversize item => FitsInteger item.bodyBytes.val ∧ NamesFit item.sourcePostId item.canonicalUrl
  | .accepted item =>
    if maxPostBytes < computeBodyBytes nfc (normalizeText nfc item.body) then
      FitsInteger (computeBodyBytes nfc (normalizeText nfc item.body)) ∧
        NamesFit item.sourcePostId item.canonicalUrl
    else (((∀ n ∈ item.commentsCount, FitsInteger n) ∧ ∀ n ∈ item.upvoteOrScore, FitsInteger n) ∧
        NamesFit item.sourcePostId item.canonicalUrl) ∧
      TextFits a sourceId item.sourcePostId item.contentHash (normalizeText nfc item.title)
        (normalizeText nfc item.body)

variable {nfc}

theorem postFits_iff {a : Archive} {sourceId : UUID} {p : PagePostInput} {n : NormalizedPageItem}
    (h : normalizeItem nfc p = .ok n) :
    PostFits nfc a sourceId p ↔ NormalizedFits a sourceId n := by
  cases p with
  | oversize p =>
    obtain rfl := Except.ok.inj h
    exact ⟨fun hfits => ⟨hfits, nofun⟩, fun hfits => hfits.1⟩
  | accepted p =>
    obtain ⟨hhash, h⟩ := require_bind.mp h
    dsimp only at h
    split at h
    · rename_i hbytes
      obtain rfl := Except.ok.inj h
      simp only [PostFits, if_pos hbytes]
      exact ⟨fun hfits => ⟨hfits, nofun⟩, fun hfits => hfits.1⟩
    · rename_i hbytes
      obtain ⟨publishedAt, _, h⟩ := bind_eq_ok.mp h
      obtain rfl := Except.ok.inj h
      simp only [PostFits, if_neg hbytes]
      constructor
      · rintro ⟨hvalues, htext⟩
        refine ⟨hvalues, fun item hitem => ?_⟩
        obtain rfl := NormalizedPageItem.post.inj hitem
        rw [hhash]
        exact htext
      · rintro ⟨hvalues, htext⟩
        refine ⟨hvalues, ?_⟩
        have hkept := htext _ rfl
        rw [hhash] at hkept
        exact hkept

theorem normalizedFits_all {a : Archive} {sourceId : UUID} {items : List PagePostInput}
    {ns : List NormalizedPageItem} (h : normalizePageItems nfc items = .ok ns) :
    (∀ n ∈ ns, NormalizedFits a sourceId n) ↔ ∀ p ∈ items, PostFits nfc a sourceId p := by
  obtain ⟨_, h⟩ := require_bind.mp h
  have heach := mapM_forall₂.mp h
  constructor
  · intro hfits p hp
    obtain ⟨n, hn, hnormal⟩ := forall₂_mem_left heach p hp
    exact (postFits_iff hnormal).mpr (hfits n hn)
  · intro hfits n hn
    obtain ⟨p, hp, hnormal⟩ := forall₂_mem_right heach n hn
    exact (postFits_iff hnormal).mp (hfits p hp)

end Normalization

section Plans
variable {svc : Service} {db : Database} {runId : UUID} {request : PageCommitRequest}
  {now : Instant} {newId : ℕ → UUID}

structure PagePlanned (svc : Service) (db : Database) (runId : UUID) (request : PageCommitRequest)
    (now : Instant) (newId : ℕ → UUID) (row : RunState) (checkpoint : CheckpointState)
    (normalized : List NormalizedPageItem) (plan : PageCommitPlan) : Prop where
  located : db.runs.find? runId = some row
  running : row.status = .running
  items : normalizePageItems svc.nfc request.posts = .ok normalized
  readings : request.pageFetchStartedAt.HasUtc ∧ request.pageFetchFinishedAt.HasUtc
  attempt : plan.commit.attempt = request.attempt
  echoed : plan.commit.pageOrdinal = request.pageOrdinal ∧
    plan.commit.expectedCheckpointRevision = request.expectedCheckpointRevision ∧
    plan.commit.sourcePageItemCount = request.posts.length
  keyed : plan.commit.pageIdempotencyKey = request.pageIdempotencyKey
  cursors : plan.commit.expectedCursor = request.expectedCursor ∧
    plan.commit.nextCursor = request.nextCursor
  appended : Appended ⟨countedRun db row, checkpoint, db.commitsOf row.id⟩
    ⟨plan.updatedRun, plan.updatedCheckpoint, db.commitsOf row.id ++ [plan.commit]⟩ plan.commit now
  keyFree : ∀ c ∈ db.commitsOf row.id, c.pageIdempotencyKey ≠ plan.commit.pageIdempotencyKey
  ordinalFree : ∀ c ∈ db.commitsOf row.id, c.pageOrdinal ≠ plan.commit.pageOrdinal
  classified : plan.items = (classifyPageItems normalized
    (existingPosts db row.sourceId (request.posts.map PagePostInput.sourcePostId)) newId).2
  commitId : plan.commit.id = newId (classifyPageItems normalized
    (existingPosts db row.sourceId (request.posts.map PagePostInput.sourcePostId)) newId).1

theorem plannedPage_cases {planned : RunState × PageCommitPlan}
    (h : plannedPage svc db runId request now newId = .ok planned) :
    (planned.2.shouldPersist = false ∧ planned.2.outcome.statusCode = 200 ∧
      ∃ c ∈ db.commitsOf runId, c.pageIdempotencyKey = request.pageIdempotencyKey) ∨
    (planned.2.shouldPersist = true ∧ planned.2.outcome.statusCode = 201 ∧
      ∃ row checkpoint normalized, planned.1 = countedRun db row ∧
        PagePlanned svc db runId request now newId row checkpoint normalized planned.2) := by
  obtain ⟨stream, hstream, h⟩ := bind_eq_ok.mp h
  obtain ⟨row, checkpoint, hrow, hcheckpoint, rfl⟩ := lockedStream_eq_ok.mp hstream
  obtain ⟨call, hcall, h⟩ := bind_eq_ok.mp h
  obtain ⟨command, _, hcall⟩ := bind_eq_ok.mp hcall
  obtain ⟨pageCap, _, hcall⟩ := bind_eq_ok.mp hcall
  obtain ⟨postCap, _, hcall⟩ := bind_eq_ok.mp hcall
  obtain ⟨_, hcall⟩ := require_bind.mp hcall
  obtain ⟨authorization, _, hcall⟩ := bind_eq_ok.mp hcall
  obtain rfl := Except.ok.inj hcall
  obtain ⟨plan, hplan, h⟩ := bind_eq_ok.mp h
  obtain rfl := Except.ok.inj h
  obtain ⟨served, normalized, requestHash, hserved, hnormalized, hhash, ⟨_, hattempt⟩, hcases⟩ :=
    preparePageCommit_cases hplan
  have hfields := serverTerminalRequest_fields hserved
  have hkeySame : served.pageIdempotencyKey = request.pageIdempotencyKey :=
    congrArg (·.pageIdempotencyKey) hfields
  rcases hcases with ⟨replay, hfound, hreplay⟩ | ⟨hkey, hnew⟩
  · obtain ⟨_, _, response, _, rfl⟩ := replayPage_eq_ok.mp hreplay
    obtain rfl : row.id = runId := (Table.find?_eq_some.mp hrow).2
    have hstored : (db.commitsOf row.id).find?
        (fun c => c.pageIdempotencyKey = request.pageIdempotencyKey) = some replay := hfound
    have hkeyed := List.find?_some hstored
    exact .inl ⟨rfl, rfl, replay, List.mem_of_find?_eq_some hstored, of_decide_eq_true hkeyed⟩
  · have happended := appended_of_newPage hnormalized hnew
    have hposts : served.posts = request.posts := congrArg (·.posts) hfields
    have hordinalFree := hnew.admitted.ordinalFree
    obtain ⟨hadmitted, _, updated, _, rfl⟩ := hnew
    refine .inr ⟨rfl, rfl, row, checkpoint, normalized, rfl, ?_⟩
    refine {
      located := hrow
      running := hadmitted.runRunning
      items := by rw [← hposts]; exact hnormalized
      readings := ?_
      attempt := ?_
      echoed := ⟨congrArg (·.pageOrdinal) hfields,
        congrArg (·.expectedCheckpointRevision) hfields, ?_⟩
      keyed := hkeySame
      cursors := ⟨congrArg (·.expectedCursor) hfields, congrArg (·.nextCursor) hfields⟩
      appended := happended
      keyFree := fun c hc hsame => ?_
      ordinalFree := fun c hc hsame => ?_
      classified := rfl
      commitId := rfl }
    · obtain ⟨finishedAt, hfinished, hstarted⟩ := bind_eq_ok.mp hhash
      obtain ⟨startedAt, hstarted, _⟩ := bind_eq_ok.mp hstarted
      have hs : served.pageFetchStartedAt = request.pageFetchStartedAt :=
        congrArg (·.pageFetchStartedAt) hfields
      have hf : served.pageFetchFinishedAt = request.pageFetchFinishedAt :=
        congrArg (·.pageFetchFinishedAt) hfields
      rw [← hs, ← hf]
      exact ⟨(requireUtc_eq_ok.mp hstarted).1, (requireUtc_eq_ok.mp hfinished).1⟩
    · have hsame : served.attempt = request.attempt := congrArg (·.attempt) hfields
      rw [← hsame]
      exact hattempt.symm
    · change served.sourcePageItemCount = request.posts.length
      rw [served.valid.itemCount, hposts]
    · have hnever := List.find?_eq_none.mp hkey c hc
      exact hnever (decide_eq_true (hsame.trans hkeySame))
    · have hordinalSame : served.pageOrdinal = request.pageOrdinal :=
        congrArg (·.pageOrdinal) hfields
      have hnever := List.find?_eq_none.mp hordinalFree c hc
      exact hnever (decide_eq_true (hsame.trans hordinalSame))

end Plans

section Reached
variable {svc : Service}

/-- The commit row of a planned page is refused only by its integer and text columns. -/
theorem commitAdmitted_iff {db : Database} {runId : UUID} {request : PageCommitRequest}
    {now : Instant} {newId : ℕ → UUID} {row : RunState} {checkpoint : CheckpointState}
    {normalized : List NormalizedPageItem} {plan : PageCommitPlan} (hdb : StoreInvariant db)
    (h : PagePlanned svc db runId request now newId row checkpoint normalized plan) :
    CommitAdmitted db.commits.rows plan.commit request.pageFetchStartedAt.instant
        request.pageFetchFinishedAt.instant ↔
      (FitsInteger request.pageOrdinal ∧
        FitsInteger (request.expectedCheckpointRevision + 1 : ℕ)) ∧
      (∀ cursor ∈ request.expectedCursor, FitsText cursor.toList) ∧
      ∀ cursor ∈ request.nextCursor, FitsText cursor.toList := by
  obtain ⟨hordinal, hrevision, hcount⟩ := h.echoed
  rw [← h.cursors.1, ← h.cursors.2]
  have hresulting := h.appended.revision.2
  constructor
  · rintro ⟨_, _, _, _, _, hfits, hcursors⟩
    have hfirst := hfits plan.commit.pageOrdinal (by simp)
    have hsecond := hfits plan.commit.resultingCheckpointRevision (by simp)
    rw [hresulting, hrevision] at hsecond
    rw [hordinal] at hfirst
    exact ⟨⟨hfirst, hsecond⟩, hcursors⟩
  · rintro ⟨⟨hfirst, hsecond⟩, hcursors⟩
    obtain ⟨hmem, _⟩ := Table.find?_eq_some.mp h.located
    obtain ⟨c, _, hstream⟩ := hdb.stream row hmem h.running
    have hrunId : plan.commit.runId = row.id := h.appended.owner.1
    have hunsealed := (terminalFacts_unsealed hstream.terminal h.appended.unsealed).2
    have hpages (other : PageCommitRecord) (hother : other ∈ db.commits.rows)
        (hrun : other.runId = plan.commit.runId) : other ∈ db.commitsOf row.id := by
      rw [commitsOf_running hdb hmem h.running, pagesOf, List.mem_filter]
      exact ⟨hother, decide_eq_true (hrun.trans hrunId)⟩
    refine ⟨fun other hother hrun => ?_, hresulting, h.appended.itemCount.symm,
      h.appended.terminalPair, request.valid.window.2, ?_, hcursors⟩
    · have hpage := hpages other hother hrun
      refine ⟨h.keyFree other hpage, h.ordinalFree other hpage, fun hterminal => ?_⟩
      rw [commitsOf_running hdb hmem h.running] at hpage
      have hopen := hunsealed other hpage
      rw [hterminal.1] at hopen
      cases hopen
    · have hattempt := h.attempt
      have hlimit := request.valid.attempt.2
      have hposts := request.valid.posts
      have hsum := h.appended.itemCount
      have hmax : maxCommandAttempts = 3 := rfl
      intro n hn
      simp only [List.mem_cons, List.not_mem_nil, or_false] at hn
      rcases hn with rfl | rfl | rfl | rfl | rfl | rfl | rfl | rfl
      · exact fitsInteger_of_le (by omega)
      · rw [hordinal]
        exact hfirst
      · rw [hrevision]
        exact fitsInteger_of_le (by have := hsecond.2; omega)
      · rw [hresulting, hrevision]
        exact hsecond
      all_goals exact fitsInteger_of_le (by omega)

structure ArchiveInvariant (a : Archive) : Prop where
  store : StoreInvariant a.db
  posts : PostsCurrent a.db.posts.rows a.versions.rows
  items : ∀ i ∈ a.items, ∃ c ∈ a.db.commits.rows, c.id = i.pageCommitId

theorem posts_move {db next : Database} (h : Move svc db next) :
    next.posts = db.posts ∧ next.commits = db.commits := by
  cases h with
  | @govern change next governed =>
    cases change with
    | setSource row =>
      obtain rfl := Except.ok.inj governed
      exact ⟨rfl, rfl⟩
    | addAuthorization row | addBudgetRecord row =>
      obtain ⟨_, _, governed⟩ := bind_eq_ok.mp governed
      obtain rfl := Except.ok.inj governed
      exact ⟨rfl, rfl⟩
  | materialize issued =>
    obtain ⟨_, issued⟩ := require_bind.mp issued
    obtain ⟨_, _, issued⟩ := bind_eq_ok.mp issued
    obtain rfl := Except.ok.inj issued
    exact ⟨rfl, rfl⟩
  | command | beat | receipt => exact ⟨rfl, rfl⟩
  | claim claims =>
    obtain ⟨_, _, _, _, _, _, _, hnext⟩ := claim_frame claims
    rw [hnext]
    exact ⟨rfl, rfl⟩
  | proof attaches =>
    obtain ⟨_, _, _, _, _, hnext⟩ := attachSkipDecision_frame attaches
    rw [hnext]
    exact ⟨rfl, rfl⟩
  | plan locked finalizes persisted change =>
    obtain ⟨_, _, _, _, hnext⟩ := persisted.frame
    rw [hnext]
    exact ⟨rfl, rfl⟩

theorem executePageCommit_planned {db : Database} {runId : UUID} {request : PageCommitRequest}
    {clock : ℕ → Instant} {newId : ℕ → UUID} {planned : RunState × PageCommitPlan}
    {committed : Database × PageCommitOutcome}
    (hplanned : plannedPage svc db runId request (clock 0) newId = .ok planned)
    (h : executePageCommit svc db runId request clock newId = .ok committed) :
    (planned.2.shouldPersist = false ∧ committed.1 = db) ∨
    (planned.2.shouldPersist = true ∧
      committed.1.posts = (planned.2.items.filterMap acceptedVersion).foldl
        (fun posts v => storePost posts planned.1.sourceId v) db.posts ∧
      committed.1.commits.rows = db.commits.rows ++ [planned.2.commit] ∧
      committed.1.checkpoints = (db.setCheckpoint planned.2.updatedCheckpoint).checkpoints) := by
  obtain ⟨stream, hstream, h⟩ := bind_eq_ok.mp h
  obtain ⟨call, hcall, h⟩ := bind_eq_ok.mp h
  obtain ⟨plan, hplan, h⟩ := bind_eq_ok.mp h
  have hsame : planned = (stream.run, plan) := by
    rw [plannedPage, hstream, ok_bind, hcall, ok_bind, hplan, ok_bind] at hplanned
    exact (Except.ok.inj hplanned).symm
  subst hsame
  dsimp only at h ⊢
  split at h
  · rename_i hkept
    obtain rfl := Except.ok.inj h
    exact .inl ⟨hkept, rfl⟩
  · rename_i hpersist
    obtain ⟨_, h⟩ := require_bind.mp h
    obtain ⟨commits, hcommits, h⟩ := bind_eq_ok.mp h
    obtain rfl := Except.ok.inj h
    exact .inr ⟨by simpa using hpersist, rfl,
      (Table.insert?_eq_some.mp (present_eq_ok.mp hcommits)).2, rfl⟩

theorem storePage_eq_ok {nfc : Text → Text} {a b : Archive} {run : RunState}
    {request : PageCommitRequest} {plan : PageCommitPlan}
    (hreadings : request.pageFetchStartedAt.HasUtc ∧ request.pageFetchFinishedAt.HasUtc) :
    storePage nfc a run request plan = .ok b ↔
      CommitAdmitted a.db.commits.rows plan.commit request.pageFetchStartedAt.instant
        request.pageFetchFinishedAt.instant ∧
      persistPageItems nfc ⟨run.id, run.sourceId, request.pageFetchFinishedAt.instant⟩
        plan.commit.id a plan.items = .ok b := by
  have hstarted := requireUtc_eq_ok.mpr ⟨hreadings.1, rfl⟩
  have hfinished := requireUtc_eq_ok.mpr ⟨hreadings.2, rfl⟩
  rw [storePage, hstarted, ok_bind, hfinished, ok_bind, require_bind]

theorem archiveInvariant_page {a b : Archive} {runId : UUID} {request : PageCommitRequest}
    {clock : ℕ → Instant} {newId : ℕ → UUID} (ha : ArchiveInvariant a)
    (h : archivePage svc a runId request clock newId = .ok b) : ArchiveInvariant b := by
  obtain ⟨planned, hplanned, h⟩ := bind_eq_ok.mp h
  obtain ⟨stored, hstored, h⟩ := bind_eq_ok.mp h
  obtain ⟨committed, hcommitted, h⟩ := bind_eq_ok.mp h
  obtain rfl := Except.ok.inj h
  have hstore := storeInvariant_commitPage ha.store hcommitted
  rcases executePageCommit_planned hplanned hcommitted with
    ⟨hkept, hsame⟩ | ⟨hpersist, hposts, hcommits, _⟩
  · rw [storePlanned, if_neg (by simp [hkept])] at hstored
    obtain rfl := Except.ok.inj hstored
    rw [hsame]
    exact ha
  · rcases plannedPage_cases hplanned with
      ⟨hnever, _⟩ | ⟨_, _, row, checkpoint, normalized, hrun, hpage⟩
    · rw [hpersist] at hnever
      cases hnever
    rw [storePlanned, if_pos hpersist] at hstored
    obtain ⟨_, hitems⟩ := (storePage_eq_ok hpage.readings).mp hstored
    obtain ⟨hids, hdistinct⟩ := normalizePageItems_ids hpage.items
    have hsync : Synced (existingPosts a.db row.sourceId
        (request.posts.map PagePostInput.sourcePostId)) a.db.posts row.sourceId normalized := by
      refine synced_existingPosts fun n hn => ?_
      rw [← hids]
      exact List.mem_map_of_mem hn
    rw [hpage.classified] at hitems
    have hcurrent := @persisted_invariant svc.nfc _ _ _ newId row.sourceId
      (fun posts versions => PostsCurrent posts.rows versions)
      (fun _ _ _ _ h => postsCurrent_stored h) _ _ _ _ _ _ hdistinct hsync ha.posts hitems
    have hwritten := persistPageItems_written (classifyFrom_shaped 0 0 normalized) hitems
    refine ⟨hstore, ?_, ?_⟩
    · change PostsCurrent committed.1.posts.rows stored.versions.rows
      rw [hposts, hpage.classified, hrun]
      exact hcurrent
    · change ∀ i ∈ stored.items, ∃ c ∈ committed.1.commits.rows, c.id = i.pageCommitId
      rw [hcommits, hwritten.items]
      intro i hi
      rcases List.mem_append.mp hi with hold | hnew
      · obtain ⟨c, hc, hid⟩ := ha.items i hold
        exact ⟨c, by simp [hc], hid⟩
      · obtain ⟨plan, _, rfl⟩ := List.mem_map.mp hnew
        exact ⟨planned.2.commit, by simp, (plannedItem_page plan).symm⟩

theorem archiveStep_cases {a b : Archive} {tx : Transaction} (h : archiveStep svc a tx = .ok b) :
    (∃ runId request, archivePage svc a runId request tx.clock tx.ids.page = .ok b) ∨
    ((∀ runId request, tx.operation ≠ .commitPage runId request) ∧
      ∃ db, ControlPlane.step svc a.db tx = .ok db ∧ b = { a with db := db }) := by
  unfold archiveStep at h
  split at h
  · rename_i runId request _
    exact .inl ⟨runId, request, h⟩
  · rename_i hother
    obtain ⟨db, hdb, h⟩ := bind_eq_ok.mp h
    exact .inr ⟨fun runId request heq => hother runId request heq, db, hdb, (Except.ok.inj h).symm⟩

theorem archiveInvariant_step {a b : Archive} {tx : Transaction} (ha : ArchiveInvariant a)
    (h : archiveStep svc a tx = .ok b) : ArchiveInvariant b := by
  rcases archiveStep_cases h with ⟨runId, request, hpage⟩ | ⟨hother, db, hstep, rfl⟩
  · exact archiveInvariant_page ha hpage
  -- transactions other than pages leave posts and commits alone
  have hsame : db.posts = a.db.posts ∧ db.commits = a.db.commits := by
    rcases step_moves hstep with ⟨runId, request, _, hpage, _⟩ | hmoves
    · exact absurd hpage (hother runId request)
    · refine moves_invariant (I := fun c => c.posts = a.db.posts ∧ c.commits = a.db.commits)
        (fun c d hc hmove => ?_) ⟨rfl, rfl⟩ hmoves
      obtain ⟨hposts, hcommits⟩ := posts_move hmove
      exact ⟨hposts.trans hc.1, hcommits.trans hc.2⟩
  refine ⟨storeInvariant_step ha.store hstep, ?_, ?_⟩
  · change PostsCurrent db.posts.rows a.versions.rows
    rw [hsame.1]
    exact ha.posts
  · change ∀ i ∈ a.items, ∃ c ∈ db.commits.rows, c.id = i.pageCommitId
    rw [hsame.2]
    exact ha.items

structure Unused (a : Archive) : Prop where
  bare : Bare a.db
  posts : a.db.posts.rows = []
  versions : a.versions.rows = []
  items : a.items = []

theorem archiveInvariant_unused {a : Archive} (h : Unused a) : ArchiveInvariant a := by
  refine ⟨storeInvariant_bare h.bare, ?_, ?_⟩
  · constructor <;> simp [h.posts, h.versions]
  · simp [h.items]

theorem archiveInvariant_run {a : Archive} (h : ArchiveInvariant a) (txs : List Transaction) :
    ArchiveInvariant (run (archiveStep svc) a txs) :=
  run_invariant (fun _ _ _ ha hstep => archiveInvariant_step ha hstep) txs h

end Reached

section Results
variable {svc : Service}

theorem loadExistingPosts_current {a : Archive} (ha : ArchiveInvariant a) (sourceId : UUID)
    (sourcePostIds : List String) :
    loadExistingPosts a sourceId sourcePostIds = .ok (existingPosts a.db sourceId sourcePostIds) := by
  refine mapM_eq_map fun p hp => ?_
  obtain ⟨v, hv, hid, hpost, hhash, hrevision⟩ := ha.posts.current p (List.mem_filter.mp hp).1
  have hfind : a.versions.find? p.current.currentVersionId = some v :=
    Table.find?_eq_some.mpr ⟨hv, hid⟩
  rw [hfind]
  change Except.ok (⟨p.current.sourcePostId, p.current.postId, v.id, v.contentHash, v.revision⟩ :
    ExistingPostVersion) = _
  rw [hid, hhash, hrevision]

theorem classifyFrom_taken (existing : List ExistingPostVersion) (newId : ℕ → UUID)
    (used ordinal : ℕ) (ns : List NormalizedPageItem) :
    (classifyFrom existing newId used ordinal ns).1 ≤ used + 2 * ns.length := by
  induction ns generalizing used ordinal with
  | nil => exact Nat.le_refl used
  | cons n ns ih =>
    have hrest := ih (classifyItem existing newId used ordinal n).1 (ordinal + 1)
    obtain ⟨_, htaken, _⟩ := classified_taken (classifyItem_classified existing newId used ordinal n)
    change (classifyFrom existing newId (classifyItem existing newId used ordinal n).1
      (ordinal + 1) ns).1 ≤ used + 2 * (ns.length + 1)
    omega

/-- The conditions under which no constraint and no column refuses a page. -/
structure PageFits (nfc : Text → Text) (a : Archive) (sourceId : UUID)
    (request : PageCommitRequest) : Prop where
  ordinal : FitsInteger request.pageOrdinal
  revision : FitsInteger (request.expectedCheckpointRevision + 1 : ℕ)
  expectedCursor : ∀ cursor ∈ request.expectedCursor, FitsText cursor.toList
  nextCursor : ∀ cursor ∈ request.nextCursor, FitsText cursor.toList
  posts : ∀ p ∈ request.posts, PostFits nfc a sourceId p

/-- A page that planning accepts is stored exactly when its integers and texts fit their
    columns and no post returns to an earlier text. -/
theorem acceptedPage_stored_iff {start : Archive} (hstart : Unused start) (txs : List Transaction)
    {runId : UUID} {request : PageCommitRequest} {now : Instant} {newId : ℕ → UUID}
    {planned : RunState × PageCommitPlan}
    (hplanned : plannedPage svc (run (archiveStep svc) start txs).db runId request now newId =
      .ok planned) (hcreated : planned.2.outcome.statusCode = 201)
    (hfresh : FreshIdentities (run (archiveStep svc) start txs) newId (2 * request.posts.length)) :
    (∃ stored, storePage svc.nfc (run (archiveStep svc) start txs) planned.1 request planned.2 =
      .ok stored) ↔
      PageFits svc.nfc (run (archiveStep svc) start txs) planned.1.sourceId request := by
  have ha := @archiveInvariant_run svc start (archiveInvariant_unused hstart) txs
  generalize run (archiveStep svc) start txs = a at hplanned hfresh ha ⊢
  rcases plannedPage_cases hplanned with
    ⟨_, hreplayed, _⟩ | ⟨_, _, row, checkpoint, normalized, hrun, hpage⟩
  · rw [hcreated] at hreplayed
    cases hreplayed
  obtain ⟨hids, hdistinct⟩ := normalizePageItems_ids hpage.items
  have hlength := normalizePageItems_length hpage.items
  have hsync : Synced (existingPosts a.db row.sourceId
      (request.posts.map PagePostInput.sourcePostId)) a.db.posts row.sourceId normalized := by
    refine synced_existingPosts fun n hn => ?_
    rw [← hids]
    exact List.mem_map_of_mem hn
  have hextends : Extends a a row.sourceId planned.2.commit.id newId 0 0 normalized := by
    refine ⟨fun u hu => hu, fun u hu => .inl hu, fun i hi heq => ?_⟩
    obtain ⟨c, hc, hid⟩ := ha.items i hi
    have htaken := classifyFrom_taken (existingPosts a.db row.sourceId
      (request.posts.map PagePostInput.sourcePostId)) newId 0 0 normalized
    refine absurd (hid.trans (heq.trans hpage.commitId)) (hfresh.commits _ ?_ c hc)
    change (classifyFrom _ newId 0 0 normalized).1 ≤ _
    omega
  have hposts := request.valid.posts
  have hitems := @persistPageItems_iff svc.nfc
    ⟨planned.1.id, planned.1.sourceId, request.pageFetchFinishedAt.instant⟩ _ _ _ row.sourceId
    a a 0 0 (2 * request.posts.length) normalized ha.posts hfresh hextends (by omega) (by omega)
    (fun item hitem => by
      obtain ⟨p, _, hnormal⟩ :=
        forall₂_mem_right (mapM_forall₂.mp (require_bind.mp hpage.items).2) _ hitem
      exact normalizeItem_size hnormal item rfl) hdistinct hsync
  have hsource : planned.1.sourceId = row.sourceId := by
    rw [hrun]
    rfl
  rw [normalizedFits_all hpage.items] at hitems
  constructor
  · rintro ⟨stored, hstored⟩
    obtain ⟨hcommit, hpersisted⟩ := (storePage_eq_ok hpage.readings).mp hstored
    obtain ⟨⟨hordinal, hrevision⟩, hexpected, hnext⟩ :=
      (commitAdmitted_iff ha.store hpage).mp hcommit
    rw [hpage.classified] at hpersisted
    rw [hsource]
    exact ⟨hordinal, hrevision, hexpected, hnext, hitems.mp ⟨stored, hpersisted⟩⟩
  · rintro ⟨hordinal, hrevision, hexpected, hnext, hfits⟩
    rw [hsource] at hfits
    obtain ⟨stored, hpersisted⟩ := hitems.mpr hfits
    refine ⟨stored, (storePage_eq_ok hpage.readings).mpr
      ⟨(commitAdmitted_iff ha.store hpage).mpr ⟨⟨hordinal, hrevision⟩, hexpected, hnext⟩, ?_⟩⟩
    rw [hpage.classified]
    exact hpersisted

end Results

section Sample

def storyArchive : Archive := ⟨storyStart, Table.empty, [], []⟩

theorem storyArchive_unused : Unused storyArchive := ⟨storyStart_bare, rfl, rfl, rfl⟩

/-- One post whose text is `body`, on the page with the given ordinal. -/
def editedPage (ordinal : ℕ) (expected next : String) (body : String) : PageCommitRequest where
  commandId := 2
  attempt := 1
  leaseToken := sampleToken
  pageIdempotencyKey := 100 + BitVec.ofNat 128 ordinal
  expectedCheckpointRevision := ordinal
  expectedCursor := if ordinal = 0 then none else some expected
  nextCursor := some next
  pageOrdinal := ordinal
  posts := [.accepted {
    sourcePostId := "p", canonicalUrl := "u", title := "t", body := body
    publishedAt := Datetime.utc 5, language := .en
    contentHash := computeContentHash id "t" body }]
  sourcePageItemCount := 1
  sourcePageReceiptSha256 := 7
  pageFetchStartedAt := Datetime.utc 30
  pageFetchFinishedAt := Datetime.utc 35
  isTerminalPage := false
  terminalReason := none
  valid := ⟨show 1 ≤ 1 ∧ 1 ≤ maxCommandAttempts by decide, sampleToken_valid, by simp, rfl, rfl,
    Iff.rfl, by simp [Datetime.utc]⟩

def editedStory : List Transaction :=
  ⟨.materialize (storyCommand [3]), fun _ => 10, storyIds 0⟩ :: storyClaim [3] 1 20 ++
    [⟨.commitPage 1103 (editedPage 0 "" "c1" "first"), fun _ => 40, storyIds 1⟩,
      ⟨.commitPage 1103 (editedPage 1 "c1" "c2" "second"), fun _ => 40, storyIds 2⟩]

/-- Whether a page is planned as a new one, and whether it can then be stored. -/
def pageAnswer (svc : Service) (a : Archive) (runId : UUID) (request : PageCommitRequest)
    (now : Instant) (newId : ℕ → UUID) : Bool × Bool :=
  match plannedPage svc a.db runId request now newId with
  | .ok planned =>
    (planned.2.outcome.statusCode = 201, (storePage svc.nfc a planned.1 request planned.2).isOk)
  | .error _ => (false, false)

theorem pageAnswer_planned {svc : Service} {a : Archive} {runId : UUID}
    {request : PageCommitRequest} {now : Instant} {newId : ℕ → UUID} {stored : Bool}
    (h : pageAnswer svc a runId request now newId = (true, stored)) :
    ∃ planned, plannedPage svc a.db runId request now newId = .ok planned ∧
      planned.2.outcome.statusCode = 201 ∧
      (storePage svc.nfc a planned.1 request planned.2).isOk = stored := by
  unfold pageAnswer at h
  split at h
  · rename_i planned hplanned
    obtain ⟨hcreated, hstored⟩ := Prod.mk.inj h
    exact ⟨planned, hplanned, of_decide_eq_true hcreated, hstored⟩
  · cases h

theorem editedArchive_fresh :
    FreshIdentities (run (archiveStep storyService) storyArchive editedStory) (storyIds 3).page 2 :=
  ⟨by decide +kernel, by decide +kernel, by decide +kernel⟩

/-- The text of a post goes back to its first one: planned with 201, never stored. -/
theorem revertedText_refused :
    ∃ planned, plannedPage storyService (run (archiveStep storyService) storyArchive editedStory).db
        1103 (editedPage 2 "c2" "c3" "first") 40 (storyIds 3).page = .ok planned ∧
      planned.2.outcome.statusCode = 201 ∧
      FreshIdentities (run (archiveStep storyService) storyArchive editedStory) (storyIds 3).page 2 ∧
      (storePage storyService.nfc (run (archiveStep storyService) storyArchive editedStory)
        planned.1 (editedPage 2 "c2" "c3" "first") planned.2).isOk = false := by
  have hanswer : pageAnswer storyService (run (archiveStep storyService) storyArchive editedStory)
      1103 (editedPage 2 "c2" "c3" "first") 40 (storyIds 3).page = (true, false) := by decide +kernel
  obtain ⟨planned, hplanned, hcreated, hstored⟩ := pageAnswer_planned hanswer
  exact ⟨planned, hplanned, hcreated, editedArchive_fresh, hstored⟩

/-- A third text is stored, like any page whose facts fit. -/
theorem acceptedPage_stored_sample :
    ∃ planned, plannedPage storyService (run (archiveStep storyService) storyArchive editedStory).db
        1103 (editedPage 2 "c2" "c3" "third") 40 (storyIds 3).page = .ok planned ∧
      ((∃ stored, storePage storyService.nfc
          (run (archiveStep storyService) storyArchive editedStory) planned.1
          (editedPage 2 "c2" "c3" "third") planned.2 = .ok stored) ↔
        PageFits storyService.nfc (run (archiveStep storyService) storyArchive editedStory)
          planned.1.sourceId (editedPage 2 "c2" "c3" "third")) := by
  have hanswer : pageAnswer storyService (run (archiveStep storyService) storyArchive editedStory)
      1103 (editedPage 2 "c2" "c3" "third") 40 (storyIds 3).page = (true, true) := by decide +kernel
  obtain ⟨planned, hplanned, hcreated, _⟩ := pageAnswer_planned hanswer
  exact ⟨planned, hplanned,
    acceptedPage_stored_iff storyArchive_unused editedStory hplanned hcreated editedArchive_fresh⟩

end Sample

end PredictionMarketMonitor.PostArchive
