import PredictionMarketMonitor.PostArchive

set_option autoImplicit false

/-!
# Revisions of posts and the watermark of a checkpoint

What the stored versions of a post are after any transactions, what one stored
page adds to them, and how far the watermark of its checkpoint has come.
-/
namespace PredictionMarketMonitor.PostRevisions

open CanonicalJson CivilTime CollectionBase CollectionModels CompletionStore ControlPlane
open ControlPlaneTables FallibleSteps KeyedTable PageCommit PageItems PageStore PageStreams PlanEffects
open PostArchive ReachableStores Sha256

/-- Watermarks in lexicographic order; one that was never set comes first. -/
abbrev Watermark := Lex (WithBot Instant × WithBot String)

def mark (publishedAt : Option Instant) (sourcePostId : Option String) : Watermark :=
  toLex (publishedAt, sourcePostId)

def watermark (c : CheckpointState) : Watermark := mark c.watermarkPublishedAt c.watermarkSourcePostId

def postMark (item : NormalizedPost) : Watermark := mark (some item.publishedAt) (some item.sourcePostId)

theorem watermarkLT_iff {a b : Instant × String} :
    WatermarkLT a b ↔ mark (some a.1) (some a.2) < mark (some b.1) (some b.2) := by
  have hlex : mark (some a.1) (some a.2) < mark (some b.1) (some b.2) ↔
      (a.1 : WithBot Instant) < b.1 ∨
        ((a.1 : WithBot Instant) = b.1 ∧ (a.2 : WithBot String) < b.2) := Prod.Lex.toLex_lt_toLex
  rw [hlex, WithBot.coe_lt_coe, WithBot.coe_inj, WithBot.coe_lt_coe]
  rfl

theorem mark_le {a b : Instant × String} (h : ¬WatermarkLT b a) :
    mark (some a.1) (some a.2) ≤ mark (some b.1) (some b.2) :=
  not_lt.mp (mt watermarkLT_iff.mpr h)

section Page
variable {items : List NormalizedPageItem} {item : NormalizedPost}

theorem latestItem_eq_none (h : latestItem items = none) : .post item ∉ items := by
  induction items with
  | nil => exact List.not_mem_nil
  | cons first rest ih =>
    cases first with
    | rejection other =>
      rw [List.mem_cons, not_or]
      exact ⟨nofun, ih h⟩
    | post other =>
      rw [latestItem] at h
      split at h
      · cases h
      · split at h <;> cases h

theorem latestItem_latest {latest : Instant × String} (h : latestItem items = some latest)
    (hitem : .post item ∈ items) : postMark item ≤ mark (some latest.1) (some latest.2) := by
  induction items generalizing latest with
  | nil => cases hitem
  | cons first rest ih =>
    cases first with
    | rejection other => exact ih h ((List.mem_cons.mp hitem).resolve_left nofun)
    | post other =>
      rw [latestItem] at h
      cases hrest : latestItem rest with
      | none =>
        rw [hrest] at h
        obtain rfl := Option.some.inj h
        rcases List.mem_cons.mp hitem with heq | hlater
        · cases heq
          exact le_refl _
        · exact absurd hlater (latestItem_eq_none hrest)
      | some later =>
        rw [hrest] at h
        dsimp only at h
        by_cases hlt : WatermarkLT (other.publishedAt, other.sourcePostId) later
        · rw [if_pos hlt] at h
          obtain rfl := Option.some.inj h
          rcases List.mem_cons.mp hitem with heq | hlater
          · cases heq
            exact (watermarkLT_iff.mp hlt).le
          · exact ih hrest hlater
        · rw [if_neg hlt] at h
          obtain rfl := Option.some.inj h
          rcases List.mem_cons.mp hitem with heq | hlater
          · cases heq
            exact le_refl _
          · exact (ih hrest hlater).trans (mark_le hlt)

theorem advanceWatermark_eq_max {publishedAt : Option Instant} {sourcePostId : Option String}
    {latest : Instant × String} {next : Option Instant × Option String}
    (h : advanceWatermark publishedAt sourcePostId (some latest) = .ok next) :
    mark next.1 next.2 = max (mark publishedAt sourcePostId) (mark (some latest.1) (some latest.2)) := by
  cases publishedAt with
  | none =>
    obtain rfl := Except.ok.inj h
    have hfirst : mark none sourcePostId ≤ mark (some latest.1) (some latest.2) :=
      Prod.Lex.toLex_le_toLex.mpr (.inl (WithBot.bot_lt_coe latest.1))
    exact (max_eq_right hfirst).symm
  | some at_ =>
    cases sourcePostId with
    | some id =>
      rw [advanceWatermark] at h
      by_cases hlt : WatermarkLT (at_, id) latest
      · rw [if_pos hlt] at h
        obtain rfl := Except.ok.inj h
        exact (max_eq_right (watermarkLT_iff.mp hlt).le).symm
      · rw [if_neg hlt] at h
        obtain rfl := Except.ok.inj h
        exact (max_eq_left (mark_le hlt)).symm
    | none =>
      rw [advanceWatermark] at h
      by_cases hsame : latest.1 = at_
      · rw [if_pos hsame] at h
        cases h
      rw [if_neg hsame] at h
      by_cases hlt : at_ < latest.1
      · rw [if_pos hlt] at h
        obtain rfl := Except.ok.inj h
        have hlater : mark (some at_) none ≤ mark (some latest.1) (some latest.2) :=
          Prod.Lex.toLex_le_toLex.mpr (.inl (WithBot.coe_lt_coe.mpr hlt))
        exact (max_eq_right hlater).symm
      · rw [if_neg hlt] at h
        obtain rfl := Except.ok.inj h
        have hbefore : latest.1 < at_ := lt_of_le_of_ne (not_lt.mp hlt) hsame
        have hearlier : mark (some latest.1) (some latest.2) ≤ mark (some at_) none :=
          Prod.Lex.toLex_le_toLex.mpr (.inl (WithBot.coe_lt_coe.mpr hbefore))
        exact (max_eq_left hearlier).symm

theorem advanceWatermark_onward {publishedAt : Option Instant} {sourcePostId : Option String}
    {next : Option Instant × Option String}
    (h : advanceWatermark publishedAt sourcePostId (latestItem items) = .ok next) :
    mark publishedAt sourcePostId ≤ mark next.1 next.2 ∧
      ∀ item, .post item ∈ items → postMark item ≤ mark next.1 next.2 := by
  cases hlatest : latestItem items with
  | none =>
    rw [hlatest] at h
    obtain rfl := Except.ok.inj h
    exact ⟨le_refl _, fun item hitem => absurd hitem (latestItem_eq_none hlatest)⟩
  | some latest =>
    rw [hlatest] at h
    rw [advanceWatermark_eq_max h]
    exact ⟨le_max_left _ _, fun item hitem =>
      (latestItem_latest hlatest hitem).trans (le_max_right _ _)⟩

end Page

section Onward
variable {svc : Service}

def Onward (db next : Database) : Prop :=
  ∀ key c, db.checkpoints.find? key = some c →
    ∃ d, next.checkpoints.find? key = some d ∧ watermark c ≤ watermark d

theorem onward_of_kept {db next : Database}
    (h : ∀ key c, db.checkpoints.find? key = some c → next.checkpoints.find? key = some c) :
    Onward db next :=
  fun key c hc => ⟨c, h key c hc, le_refl _⟩

theorem onward_refl (db : Database) : Onward db db := onward_of_kept fun _ _ hc => hc

theorem onward_trans {a b c : Database} (hab : Onward a b) (hbc : Onward b c) : Onward a c := by
  intro key u hu
  obtain ⟨v, hv, huv⟩ := hab key u hu
  obtain ⟨w, hw, hvw⟩ := hbc key v hv
  exact ⟨w, hw, huv.trans hvw⟩

theorem claimEach_kept {nfc : Text → Text} {state : CommandState} {lease : Digest}
    {now statementNow : Instant} {policies : List ClaimPolicy.ClaimSourcePolicy} {ids : FreshIds}
    {db : Database} {sourceIds : List UUID} {claimed : Database × List RunState}
    (h : CommandStore.claimEach nfc state lease now statementNow policies ids db sourceIds =
      .ok claimed) (key : UUID × String) (c : CheckpointState)
    (hc : db.checkpoints.find? key = some c) : claimed.1.checkpoints.find? key = some c := by
  induction sourceIds generalizing db claimed with
  | nil =>
    obtain rfl := Except.ok.inj h
    exact hc
  | cons sourceId rest ih =>
    obtain ⟨first, hfirst, h⟩ := bind_eq_ok.mp h
    obtain ⟨others, hothers, h⟩ := bind_eq_ok.mp h
    obtain rfl := Except.ok.inj h
    have hrest : others.1.checkpoints.find? key = some c :=
      ih hothers ((claimRun_created hfirst).kept key c hc)
    exact hrest

theorem onward_move {db next : Database} (h : Move svc db next) : Onward db next := by
  cases h with
  | @govern change next governed =>
    cases change with
    | setSource row =>
      obtain rfl := Except.ok.inj governed
      exact onward_of_kept fun _ _ hc => hc
    | addAuthorization row | addBudgetRecord row =>
      obtain ⟨_, _, governed⟩ := bind_eq_ok.mp governed
      obtain rfl := Except.ok.inj governed
      exact onward_of_kept fun _ _ hc => hc
  | materialize issued =>
    obtain ⟨_, issued⟩ := require_bind.mp issued
    obtain ⟨_, _, issued⟩ := bind_eq_ok.mp issued
    obtain rfl := Except.ok.inj issued
    exact onward_of_kept fun _ _ hc => hc
  | command | beat | receipt => exact onward_of_kept fun _ _ hc => hc
  | claim claims =>
    obtain ⟨decided, row, hclaimed⟩ := claim_cases claims
    obtain ⟨_, hdecided⟩ := claimSourcePolicies_frame hclaimed.policies
    have hsame : decided.1.checkpoints = db.checkpoints := by rw [hdecided]
    refine onward_of_kept fun key c hc => ?_
    rw [← hsame] at hc
    rcases hclaimed.runs with ⟨_, _, hnext⟩ | ⟨_, _, _, _, _, _, hcreated, _, hnext⟩
    · rw [hnext]
      exact hc
    · rw [hnext]
      exact claimEach_kept hcreated key c hc
  | proof attaches =>
    obtain ⟨_, _, _, _, _, hnext⟩ := attachSkipDecision_frame attaches
    rw [hnext]
    exact onward_of_kept fun _ _ hc => hc
  | plan locked finalizes persisted change =>
    intro key c hc
    have hfind := persisted.checkpoints (locked_current locked) key
    rw [hc] at hfind
    exact ⟨_, hfind, le_refl _⟩

theorem find_setCheckpoint {db : Database} {row updated : CheckpointState} {key : UUID × String}
    (hrow : db.checkpoints.find? key = some row) (hkey : CheckpointState.key updated = key)
    (other : UUID × String) :
    (db.setCheckpoint updated).checkpoints.find? other =
      if other = key then some (applyCheckpointState row updated) else db.checkpoints.find? other := by
  subst hkey
  by_cases heq : other = CheckpointState.key updated
  · subst heq
    rw [if_pos rfl]
    have hupdate := @Table.find?_update_self _ _ CheckpointState.key _ db.checkpoints
      (CheckpointState.key updated) (fun row => applyCheckpointState row updated)
      (fun row => applyCheckpointState_key row _)
    refine hupdate.trans ?_
    rw [hrow]
    rfl
  · rw [if_neg heq]
    exact @Table.find?_update_ne _ _ CheckpointState.key _ db.checkpoints _ _
      (fun row => applyCheckpointState row updated) (fun row => applyCheckpointState_key row _) heq

end Onward

section PageCheckpoint
variable {svc : Service} {db : Database} {runId : UUID} {request : PageCommitRequest}
  {clock : ℕ → Instant} {newId : ℕ → UUID} {planned : RunState × PageCommitPlan}

theorem plannedPage_watermark (h : plannedPage svc db runId request (clock 0) newId = .ok planned)
    (hpersist : planned.2.shouldPersist = true) : ∃ row checkpoint normalized,
      db.runs.find? runId = some row ∧
      db.checkpoints.find? (row.sourceId, row.scopeVersion) = some checkpoint ∧
      normalizePageItems svc.nfc request.posts = .ok normalized ∧
      CheckpointState.key planned.2.updatedCheckpoint = CheckpointState.key checkpoint ∧
      advanceWatermark checkpoint.watermarkPublishedAt checkpoint.watermarkSourcePostId
        (latestItem normalized) = .ok (planned.2.updatedCheckpoint.watermarkPublishedAt,
          planned.2.updatedCheckpoint.watermarkSourcePostId) := by
  obtain ⟨stream, hstream, h⟩ := bind_eq_ok.mp h
  obtain ⟨row, checkpoint, hrow, hcheckpoint, rfl⟩ := lockedStream_eq_ok.mp hstream
  obtain ⟨call, _, h⟩ := bind_eq_ok.mp h
  obtain ⟨plan, hplan, h⟩ := bind_eq_ok.mp h
  obtain rfl := Except.ok.inj h
  obtain ⟨served, normalized, _, hserved, hnormalized, _, _, hcases⟩ := preparePageCommit_cases hplan
  have hposts : served.posts = request.posts := congrArg (·.posts) (serverTerminalRequest_fields hserved)
  rcases hcases with ⟨_, _, hreplay⟩ | ⟨_, hnew⟩
  · obtain ⟨_, _, _, _, rfl⟩ := replayPage_eq_ok.mp hreplay
    cases hpersist
  · obtain ⟨updated, hupdated, rfl⟩ := hnew.planned
    obtain ⟨next, hnext, hupdated⟩ := bind_eq_ok.mp hupdated
    obtain rfl := Except.ok.inj hupdated
    rw [hposts] at hnormalized
    exact ⟨row, checkpoint, normalized, hrow, hcheckpoint, hnormalized, rfl, hnext⟩

theorem onward_page {committed : Database × PageCommitOutcome}
    (hplanned : plannedPage svc db runId request (clock 0) newId = .ok planned)
    (hpersist : planned.2.shouldPersist = true)
    (h : committed.1.checkpoints = (db.setCheckpoint planned.2.updatedCheckpoint).checkpoints) :
    Onward db committed.1 ∧ ∃ row normalized d, db.runs.find? runId = some row ∧
      normalizePageItems svc.nfc request.posts = .ok normalized ∧
      committed.1.checkpoints.find? (row.sourceId, row.scopeVersion) = some d ∧
      ∀ item, .post item ∈ normalized → postMark item ≤ watermark d := by
  obtain ⟨row, checkpoint, normalized, hrow, hlocked, hnormalized, hkey, hmark⟩ :=
    plannedPage_watermark hplanned hpersist
  have hsame : CheckpointState.key checkpoint = (row.sourceId, row.scopeVersion) :=
    (Table.find?_eq_some.mp hlocked).2
  have hfind (other : UUID × String) := find_setCheckpoint hlocked (hkey.trans hsame) other
  rw [← h] at hfind
  obtain ⟨hlater, hcovers⟩ := advanceWatermark_onward hmark
  constructor
  · intro key c hc
    rw [hfind]
    by_cases heq : key = (row.sourceId, row.scopeVersion)
    · rw [heq, hlocked] at hc
      obtain rfl := Option.some.inj hc
      exact ⟨_, if_pos heq, hlater⟩
    · rw [if_neg heq]
      exact ⟨c, hc, le_refl _⟩
  · exact ⟨row, normalized, _, hrow, hnormalized, (hfind _).trans (if_pos rfl), hcovers⟩

end PageCheckpoint

/-- The versions of each post are numbered from 1 without a gap or a repetition, and consecutive ones
    differ in their content. -/
structure Revised (versions : List PostVersionRow) : Prop where
  once : ∀ u ∈ versions, ∀ v ∈ versions, u.postId = v.postId → u.revision = v.revision → u = v
  positive : ∀ v ∈ versions, 0 < v.revision
  preceded : ∀ v ∈ versions, 1 < v.revision →
    ∃ u ∈ versions, u.postId = v.postId ∧ u.revision + 1 = v.revision
  changed : ∀ u ∈ versions, ∀ v ∈ versions, u.postId = v.postId → u.revision + 1 = v.revision →
    u.contentHash ≠ v.contentHash

section Versions
variable {posts : Table (fun row : PostRow => (row.sourceId, row.current.sourcePostId))}
  {versions : List PostVersionRow} {sourceId : UUID} {current : ExistingPostVersion} {v : PostVersionRow}

theorem revised_stored (hposts : PostsCurrent posts.rows versions) (h : Revised versions)
    (hcontinues : Continues posts sourceId current) (hpost : v.postId = current.postId)
    (hrevision : v.revision = current.currentRevision) (hadmitted : VersionAdmitted versions v) :
    Revised (versions ++ [v]) := by
  obtain ⟨hfreeRevision, hfreeContent, hpositive, _⟩ := hadmitted
  have hmem (u : PostVersionRow) : u ∈ versions ++ [v] ↔ u ∈ versions ∨ u = v := by simp
  constructor
  · intro u hu w hw hsame hnumber
    rcases (hmem u).mp hu with huold | rfl <;> rcases (hmem w).mp hw with hwold | rfl
    · exact h.once u huold w hwold hsame hnumber
    · exact absurd ⟨hsame, hnumber⟩ (hfreeRevision u huold)
    · exact absurd ⟨hsame.symm, hnumber.symm⟩ (hfreeRevision w hwold)
    · rfl
  · intro u hu
    rcases (hmem u).mp hu with hu | rfl
    · exact h.positive u hu
    · exact hpositive
  · intro u hu hlater
    rcases (hmem u).mp hu with hold | rfl
    · obtain ⟨w, hw, hfacts⟩ := h.preceded u hold hlater
      exact ⟨w, (hmem w).mpr (.inl hw), hfacts⟩
    -- the new version follows the current one of its post
    · unfold Continues at hcontinues
      split at hcontinues
      · rename_i p hp
        obtain ⟨w, hw, _, hwpost, _, hwrevision⟩ := hposts.current p (Table.find?_eq_some.mp hp).1
        refine ⟨w, (hmem w).mpr (.inl hw), ?_, ?_⟩
        · rw [hwpost, hpost, hcontinues.1]
        · rw [hwrevision, hrevision, hcontinues.2]
      · omega
  · intro u hu w hw hsame hnumber
    rcases (hmem u).mp hu with huold | rfl <;> rcases (hmem w).mp hw with hwold | rfl
    · exact h.changed u huold w hwold hsame hnumber
    · exact fun hcontent => hfreeContent u huold ⟨hsame, hcontent⟩
    · exact fun hcontent => hfreeContent w hwold ⟨hsame.symm, hcontent.symm⟩
    · omega

theorem revisions_exact (hposts : PostsCurrent posts.rows versions) (h : Revised versions) {p : PostRow}
    (hp : p ∈ posts.rows) (k : ℕ) :
    (∃ u ∈ versions, u.postId = p.current.postId ∧ u.revision = k) ↔
      1 ≤ k ∧ k ≤ p.current.currentRevision := by
  constructor
  · rintro ⟨u, hu, hpost, rfl⟩
    exact ⟨h.positive u hu, hposts.newest p hp u hu hpost⟩
  · rintro ⟨hpositive, hle⟩
    obtain ⟨v, hv, _, hpost, _, hrevision⟩ := hposts.current p hp
    -- going down from the current version
    have hdown (d : ℕ) (hd : d < p.current.currentRevision) :
        ∃ u ∈ versions, u.postId = p.current.postId ∧ u.revision + d = p.current.currentRevision := by
      induction d with
      | zero => exact ⟨v, hv, hpost, hrevision⟩
      | succ d ih =>
        obtain ⟨u, hu, hupost, hnumber⟩ := ih (by omega)
        obtain ⟨w, hw, hwpost, hbefore⟩ := h.preceded u hu (by omega)
        exact ⟨w, hw, hwpost.trans hupost, by omega⟩
    obtain ⟨u, hu, hupost, hnumber⟩ := hdown (p.current.currentRevision - k) (by omega)
    exact ⟨u, hu, hupost, by omega⟩

end Versions

section Dispositions

def dispositionOf (posts : PostTable) (sourceId : UUID) : NormalizedPageItem → PageItemDisposition
  | .rejection _ => .rejectedOversize
  | .post item =>
    if (posts.find? (sourceId, item.sourcePostId)).map (·.current.currentContentHash) =
        some item.contentHash then .duplicate
    else .accepted

/-- The number of the current version of a post, 0 when there is none. -/
def revisionOf (posts : PostTable) (sourceId : UUID) (sourcePostId : String) : ℕ :=
  ((posts.find? (sourceId, sourcePostId)).map (·.current.currentRevision)).getD 0

def contentHashOf : NormalizedPageItem → Digest
  | .rejection item => item.contentHash
  | .post item => item.contentHash

variable {context : PageWriteContext} {pageCommitId : UUID} {existing : List ExistingPostVersion}
  {newId : ℕ → UUID} {posts : PostTable} {sourceId : UUID} {used ordinal taken : ℕ}
  {n : NormalizedPageItem} {plan : PageItemPlan}

theorem classified_disposition (h : Classified existing newId used ordinal n taken plan)
    (hsync : existing.find? (fun row => row.sourcePostId = n.sourcePostId) =
      (posts.find? (sourceId, n.sourcePostId)).map (·.current)) :
    plan.disposition = dispositionOf posts sourceId n := by
  cases h with
  | rejected item => rfl
  | duplicate item current found same =>
    change existing.find? (fun row => row.sourcePostId = item.sourcePostId) =
      (posts.find? (sourceId, item.sourcePostId)).map (·.current) at hsync
    rw [found] at hsync
    obtain ⟨p, hp, rfl⟩ := Option.map_eq_some_iff.mp hsync.symm
    rw [dispositionOf, hp, Option.map_some, same, if_pos rfl]
  | edited item current found other =>
    change existing.find? (fun row => row.sourcePostId = item.sourcePostId) =
      (posts.find? (sourceId, item.sourcePostId)).map (·.current) at hsync
    rw [found] at hsync
    obtain ⟨p, hp, rfl⟩ := Option.map_eq_some_iff.mp hsync.symm
    rw [dispositionOf, hp, Option.map_some, if_neg fun hsame => other (Option.some.inj hsame)]
  | first item absent =>
    change existing.find? (fun row => row.sourcePostId = item.sourcePostId) =
      (posts.find? (sourceId, item.sourcePostId)).map (·.current) at hsync
    rw [absent] at hsync
    rw [dispositionOf, Option.map_eq_none_iff.mp hsync.symm, Option.map_none, if_neg nofun]

theorem classified_accepted (h : Classified existing newId used ordinal n taken plan)
    (hsync : existing.find? (fun row => row.sourcePostId = n.sourcePostId) =
      (posts.find? (sourceId, n.sourcePostId)).map (·.current)) :
    (dispositionOf posts sourceId n ≠ .accepted ∧ acceptedVersion plan = none ∧
      plannedVersion context plan = none) ∨
    (dispositionOf posts sourceId n = .accepted ∧ ∃ current v, acceptedVersion plan = some current ∧
      plannedVersion context plan = some v ∧ v.contentHash = contentHashOf n ∧
      current.sourcePostId = n.sourcePostId ∧ current.currentContentHash = contentHashOf n ∧
      current.currentRevision = revisionOf posts sourceId n.sourcePostId + 1) := by
  have hdisposition := classified_disposition h hsync
  rw [← hdisposition]
  cases h with
  | rejected item => exact .inl ⟨nofun, rfl, rfl⟩
  | duplicate item current found same => exact .inl ⟨nofun, rfl, rfl⟩
  | edited item current found other =>
    change existing.find? (fun row => row.sourcePostId = item.sourcePostId) =
      (posts.find? (sourceId, item.sourcePostId)).map (·.current) at hsync
    rw [found] at hsync
    obtain ⟨p, hp, rfl⟩ := Option.map_eq_some_iff.mp hsync.symm
    have hrevision : revisionOf posts sourceId item.sourcePostId = p.current.currentRevision := by
      rw [revisionOf, hp]
      rfl
    exact .inr ⟨rfl, _, _, rfl, rfl, rfl, rfl, rfl, congrArg (· + 1) hrevision.symm⟩
  | first item absent =>
    change existing.find? (fun row => row.sourcePostId = item.sourcePostId) =
      (posts.find? (sourceId, item.sourcePostId)).map (·.current) at hsync
    rw [absent] at hsync
    have hrevision : revisionOf posts sourceId item.sourcePostId = 0 := by
      rw [revisionOf, Option.map_eq_none_iff.mp hsync.symm]
      rfl
    exact .inr ⟨rfl, _, _, rfl, rfl, rfl, rfl, rfl, congrArg (· + 1) hrevision.symm⟩

end Dispositions

section Lists
variable {context : PageWriteContext} {pageCommitId : UUID} {existing : List ExistingPostVersion}
  {newId : ℕ → UUID} {sourceId : UUID}

theorem classified_row {used ordinal taken : ℕ} {n : NormalizedPageItem} {plan : PageItemPlan}
    (h : Classified existing newId used ordinal n taken plan) :
    ((plannedItem pageCommitId plan).itemOrdinal, (plannedItem pageCommitId plan).sourcePostId,
      (plannedItem pageCommitId plan).disposition) = (ordinal, n.sourcePostId, plan.disposition) := by
  cases h <;> rfl

theorem classifyFrom_rows {posts : PostTable} {used ordinal : ℕ} {ns : List NormalizedPageItem}
    (hsync : Synced existing posts sourceId ns) :
    ((classifyFrom existing newId used ordinal ns).2.map (plannedItem pageCommitId)).map
        (fun i => (i.itemOrdinal, i.sourcePostId, i.disposition)) =
      (ns.zipIdx ordinal).map (fun n => (n.2, n.1.sourcePostId, dispositionOf posts sourceId n.1)) := by
  induction ns generalizing used ordinal with
  | nil => rfl
  | cons n ns ih =>
    have hclassified := classifyItem_classified existing newId used ordinal n
    have hhead := @classified_row pageCommitId _ _ _ _ _ _ _ hclassified
    rw [classified_disposition hclassified (hsync n (by simp))] at hhead
    have hrest := @ih (classifyItem existing newId used ordinal n).1 (ordinal + 1)
      (fun m hm => hsync m (by simp [hm]))
    rw [List.zipIdx_cons, List.map_cons, ← hrest, ← hhead]
    rfl

theorem classifyFrom_versions {posts : PostTable} {used ordinal : ℕ} {ns : List NormalizedPageItem}
    (hsync : Synced existing posts sourceId ns) :
    ((classifyFrom existing newId used ordinal ns).2.filterMap (plannedVersion context)).map
        (·.contentHash) =
      (ns.filter (fun n => dispositionOf posts sourceId n = .accepted)).map contentHashOf := by
  induction ns generalizing used ordinal with
  | nil => rfl
  | cons n ns ih =>
    have hplans : (classifyFrom existing newId used ordinal (n :: ns)).2 =
        (classifyItem existing newId used ordinal n).2 ::
          (classifyFrom existing newId (classifyItem existing newId used ordinal n).1
            (ordinal + 1) ns).2 := rfl
    have hrest := @ih (classifyItem existing newId used ordinal n).1 (ordinal + 1)
      (fun m hm => hsync m (by simp [hm]))
    rw [hplans]
    rcases @classified_accepted context _ _ _ _ _ _ _ _ _
      (classifyItem_classified existing newId used ordinal n) (hsync n (by simp)) with
      ⟨hother, _, hnone⟩ | ⟨haccepted, current, v, _, hversion, hcontent, _⟩
    · rw [List.filterMap_cons_none hnone, List.filter_cons_of_neg (by simpa using hother)]
      exact hrest
    · rw [List.filterMap_cons_some hversion, List.filter_cons_of_pos (by simpa using haccepted),
        List.map_cons, List.map_cons, hcontent, hrest]

/-- The post of an item after its page: its next revision, or what it was. -/
structure PostAfter (posts final : PostTable) (sourceId : UUID) (n : NormalizedPageItem) : Prop where
  accepted : dispositionOf posts sourceId n = .accepted →
    ∃ p, final.find? (sourceId, n.sourcePostId) = some p ∧
      p.current.currentContentHash = contentHashOf n ∧
      p.current.currentRevision = revisionOf posts sourceId n.sourcePostId + 1
  kept : dispositionOf posts sourceId n ≠ .accepted →
    final.find? (sourceId, n.sourcePostId) = posts.find? (sourceId, n.sourcePostId)

theorem postAfter_congr {posts first final : PostTable} {n : NormalizedPageItem}
    (hsame : first.find? (sourceId, n.sourcePostId) = posts.find? (sourceId, n.sourcePostId))
    (h : PostAfter first final sourceId n) : PostAfter posts final sourceId n := by
  have hdisposition : dispositionOf first sourceId n = dispositionOf posts sourceId n := by
    cases n with
    | rejection item => rfl
    | post item =>
      change first.find? (sourceId, item.sourcePostId) =
        posts.find? (sourceId, item.sourcePostId) at hsame
      rw [dispositionOf, dispositionOf, hsame]
  have hrevision : revisionOf first sourceId n.sourcePostId =
      revisionOf posts sourceId n.sourcePostId := by
    rw [revisionOf, revisionOf, hsame]
  obtain ⟨haccepted, hkept⟩ := h
  rw [hdisposition, hrevision] at haccepted
  rw [hdisposition, hsame] at hkept
  exact ⟨haccepted, hkept⟩

theorem storedPosts_after {posts : PostTable} {used ordinal : ℕ} {ns : List NormalizedPageItem}
    (hdistinct : (ns.map NormalizedPageItem.sourcePostId).Nodup)
    (hsync : Synced existing posts sourceId ns) :
    (∀ key, (∀ n ∈ ns, key ≠ (sourceId, n.sourcePostId)) →
      (((classifyFrom existing newId used ordinal ns).2.filterMap acceptedVersion).foldl
        (fun posts v => storePost posts sourceId v) posts).find? key = posts.find? key) ∧
    ∀ n ∈ ns, PostAfter posts
      (((classifyFrom existing newId used ordinal ns).2.filterMap acceptedVersion).foldl
        (fun posts v => storePost posts sourceId v) posts) sourceId n := by
  induction ns generalizing posts used ordinal with
  | nil => exact ⟨fun _ _ => rfl, fun n hn => absurd hn List.not_mem_nil⟩
  | cons n ns ih =>
    have hplans : (classifyFrom existing newId used ordinal (n :: ns)).2 =
        (classifyItem existing newId used ordinal n).2 ::
          (classifyFrom existing newId (classifyItem existing newId used ordinal n).1
            (ordinal + 1) ns).2 := rfl
    obtain ⟨hnotin, hdistinct⟩ := List.nodup_cons.mp hdistinct
    have hothers (m : NormalizedPageItem) (hm : m ∈ ns) :
        (sourceId, m.sourcePostId) ≠ (sourceId, n.sourcePostId) :=
      fun heq => hnotin (List.mem_map.mpr ⟨m, hm, (Prod.mk.inj heq).2⟩)
    rw [hplans]
    rcases @classified_accepted ⟨0, 0, 0⟩ _ _ _ _ _ _ _ _ _
      (classifyItem_classified existing newId used ordinal n) (hsync n (by simp)) with
      ⟨hother, hnone, _⟩ | ⟨haccepted, current, _, hsome, _, _, hpost, hcontent, hrevision⟩
    · rw [List.filterMap_cons_none hnone]
      obtain ⟨hkept, hafter⟩ := @ih posts (classifyItem existing newId used ordinal n).1
        (ordinal + 1) hdistinct (fun m hm => hsync m (by simp [hm]))
      refine ⟨fun key hkey => hkept key fun m hm => hkey m (by simp [hm]), fun m hm => ?_⟩
      rcases List.mem_cons.mp hm with rfl | hrest
      · exact ⟨fun haccepted => absurd haccepted hother,
          fun _ => hkept _ fun m hm => (hothers m hm).symm⟩
      · exact hafter m hrest
    · rw [List.filterMap_cons_some hsome, List.foldl_cons]
      have hfind (key : UUID × String) := find_storePost posts sourceId current key
      rw [hpost] at hfind
      have hsyncRest : Synced existing (storePost posts sourceId current) sourceId ns := by
        intro m hm
        rw [hfind, if_neg (hothers m hm), hsync m (by simp [hm])]
      obtain ⟨hkept, hafter⟩ := @ih (storePost posts sourceId current)
        (classifyItem existing newId used ordinal n).1 (ordinal + 1) hdistinct hsyncRest
      refine ⟨fun key hkey => ?_, fun m hm => ?_⟩
      · rw [hkept key fun m hm => hkey m (by simp [hm]), hfind, if_neg (hkey n (by simp))]
      · rcases List.mem_cons.mp hm with rfl | hrest
        · refine ⟨fun _ => ⟨⟨sourceId, current⟩, ?_, hcontent, hrevision⟩,
            fun hother => absurd haccepted hother⟩
          rw [hkept _ fun k hk => (hothers k hk).symm, hfind, if_pos rfl]
        · exact postAfter_congr ((hfind _).trans (if_neg (hothers m hrest))) (hafter m hrest)

end Lists

section Reached
variable {svc : Service}

/-- A page of the run that is committed under the key of the request. -/
def Committed (a : Archive) (runId : UUID) (request : PageCommitRequest) : Prop :=
  ∃ c ∈ a.db.commitsOf runId, c.pageIdempotencyKey = request.pageIdempotencyKey

/-- What one new page stores: a row for each of its items in page order, a version for each
    accepted item, at most one observation for each version it names, and nothing else for the
    posts of the other items. -/
structure PageStored (svc : Service) (a b : Archive) (runId : UUID) (request : PageCommitRequest)
    (row : RunState) (normalized : List NormalizedPageItem) : Prop where
  located : a.db.runs.find? runId = some row
  keyFree : ¬Committed a runId request
  normal : normalizePageItems svc.nfc request.posts = .ok normalized
  distinct : (normalized.map NormalizedPageItem.sourcePostId).Nodup
  items : ∃ pageCommitId rows, b.items = a.items ++ rows ∧
    (∀ i ∈ a.items, i.pageCommitId ≠ pageCommitId) ∧ (∀ i ∈ rows, i.pageCommitId = pageCommitId) ∧
    rows.map (fun i => (i.itemOrdinal, i.sourcePostId, i.disposition)) = normalized.zipIdx.map
      (fun n => (n.2, n.1.sourcePostId, dispositionOf a.db.posts row.sourceId n.1)) ∧
    ∃ observed, b.engagements = a.engagements ++ observed ∧
      (observed.map (·.postVersionId)).Sublist (rows.filterMap (·.postVersionId))
  versions : ∃ added, b.versions.rows = a.versions.rows ++ added ∧
    added.map (·.contentHash) = (normalized.filter
      (fun n => dispositionOf a.db.posts row.sourceId n = .accepted)).map contentHashOf
  posts : ∀ n ∈ normalized, PostAfter a.db.posts b.db.posts row.sourceId n
  unread : ∀ n ∈ normalized, dispositionOf a.db.posts row.sourceId n ≠ .accepted →
    ∀ p, a.db.posts.find? (row.sourceId, n.sourcePostId) = some p →
      ∀ v ∈ b.versions.rows, v.postId = p.current.postId → v ∈ a.versions.rows
  others : ∀ key, (∀ n ∈ normalized, key ≠ (row.sourceId, n.sourcePostId)) →
    b.db.posts.find? key = a.db.posts.find? key
  covered : ∃ d, b.db.checkpoints.find? (row.sourceId, row.scopeVersion) = some d ∧
    ∀ item, .post item ∈ normalized → postMark item ≤ watermark d

theorem plannedItems_versions {pageCommitId : UUID}
    {plans : List PageItemPlan} (hplans : ∀ plan ∈ plans, Shaped plan) :
    (plans.map (plannedItem pageCommitId)).filterMap (·.postVersionId) =
      plans.filterMap (·.postVersionId) := by
  rw [List.filterMap_map]
  refine List.filterMap_congr fun plan hplan => ?_
  cases hplans plan hplan <;> rfl

theorem unread_of_kept {posts final : PostTable} {versions after : List PostVersionRow}
    (hbefore : PostsCurrent posts.rows versions) (hrevised : Revised versions)
    (hposts : PostsCurrent final.rows after) (hafter : Revised after)
    (hkept : ∀ u ∈ versions, u ∈ after) {key : UUID × String} {p : PostRow}
    (hp : posts.find? key = some p) (hsame : final.find? key = posts.find? key) {v : PostVersionRow}
    (hv : v ∈ after) (hpost : v.postId = p.current.postId) : v ∈ versions := by
  have hmem : p ∈ posts.rows := (Table.find?_eq_some.mp hp).1
  have hfinal : p ∈ final.rows := (Table.find?_eq_some.mp (hsame.trans hp)).1
  have hpositive := hafter.positive v hv
  have hle := hposts.newest p hfinal v hv hpost
  obtain ⟨u, hu, hupost, hurevision⟩ :=
    (revisions_exact hbefore hrevised hmem v.revision).mpr ⟨hpositive, hle⟩
  rw [← hafter.once u (hkept u hu) v hv (hupost.trans hpost.symm) hurevision]
  exact hu

theorem page_stored {a b : Archive} {runId : UUID} {request : PageCommitRequest}
    {clock : ℕ → Instant} {newId : ℕ → UUID} (ha : ArchiveInvariant a)
    (hrevised : Revised a.versions.rows)
    (h : archivePage svc a runId request clock newId = .ok b) :
    (Committed a runId request ∧ b = a) ∨ (Revised b.versions.rows ∧ Onward a.db b.db ∧
      ∃ row normalized, PageStored svc a b runId request row normalized) := by
  have hb := archiveInvariant_page ha h
  obtain ⟨planned, hplanned, h⟩ := bind_eq_ok.mp h
  obtain ⟨stored, hstored, h⟩ := bind_eq_ok.mp h
  obtain ⟨committed, hcommitted, h⟩ := bind_eq_ok.mp h
  obtain rfl := Except.ok.inj h
  rcases executePageCommit_planned hplanned hcommitted with
    ⟨hkept, hsame⟩ | ⟨hpersist, hposts, hcommits, hcheckpoints⟩
  · rw [storePlanned, if_neg (by simp [hkept])] at hstored
    obtain rfl := Except.ok.inj hstored
    rw [hsame]
    rcases plannedPage_cases hplanned with ⟨_, _, hcommitted⟩ | ⟨hpersist, _⟩
    · exact .inl ⟨hcommitted, rfl⟩
    · rw [hkept] at hpersist
      cases hpersist
  refine .inr ?_
  rcases plannedPage_cases hplanned with
    ⟨hnever, _⟩ | ⟨_, _, row, checkpoint, normalized, hrun, hpage⟩
  · rw [hpersist] at hnever
    cases hnever
  rw [storePlanned, if_pos hpersist] at hstored
  obtain ⟨_, hitems⟩ := (storePage_eq_ok hpage.readings).mp hstored
  obtain ⟨hids, hdistinct⟩ := normalizePageItems_ids hpage.items
  have hsync : Synced (existingPosts a.db row.sourceId
      (request.posts.map PagePostInput.sourcePostId)) a.db.posts row.sourceId normalized := by
    refine synced_existingPosts fun n hn => ?_
    rw [← hids]
    exact List.mem_map_of_mem hn
  rw [hpage.classified] at hitems
  have hshaped : ∀ plan ∈ (classifyPageItems normalized (existingPosts a.db row.sourceId
      (request.posts.map PagePostInput.sourcePostId)) newId).2, Shaped plan :=
    classifyFrom_shaped 0 0 normalized
  have hwritten := persistPageItems_written hshaped hitems
  rw [hpage.classified, hrun] at hposts
  have hfinal : Revised stored.versions.rows := by
    have hboth := @persisted_invariant svc.nfc _ _ _ newId row.sourceId
      (fun posts versions => PostsCurrent posts.rows versions ∧ Revised versions)
      (fun posts versions current v hI hcontinues hv hadmitted =>
        ⟨postsCurrent_stored hI.1 hcontinues hv hadmitted,
          revised_stored hI.1 hI.2 hcontinues hv.2.1 hv.2.2.2 hadmitted⟩)
      _ _ _ _ _ _ hdistinct hsync ⟨ha.posts, hrevised⟩ hitems
    exact hboth.2
  have hsplit : ∀ u ∈ a.versions.rows, u ∈ stored.versions.rows := by
    intro u hu
    rw [hwritten.versions]
    exact List.mem_append_left _ hu
  obtain ⟨honward, row', normalized', d, hrow', hnormal', hd, hcovers⟩ :=
    onward_page hplanned hpersist hcheckpoints
  obtain rfl := Option.some.inj (hpage.located.symm.trans hrow')
  obtain rfl := Except.ok.inj (hpage.items.symm.trans hnormal')
  obtain ⟨hothers, hafter⟩ := @storedPosts_after _ newId row.sourceId a.db.posts 0 0 normalized
    hdistinct hsync
  have hfind (key : UUID × String) : committed.1.posts.find? key =
      (((classifyPageItems normalized (existingPosts a.db row.sourceId
        (request.posts.map PagePostInput.sourcePostId)) newId).2.filterMap acceptedVersion).foldl
          (fun posts v => storePost posts row.sourceId v) a.db.posts).find? key := by
    rw [hposts]
    rfl
  have hpostAfter (n : NormalizedPageItem) (hn : n ∈ normalized) :
      PostAfter a.db.posts committed.1.posts row.sourceId n := by
    obtain ⟨haccepted, hkept⟩ := hafter n hn
    refine ⟨fun hd => ?_, fun hd => (hfind _).trans (hkept hd)⟩
    obtain ⟨p, hp, hfacts⟩ := haccepted hd
    exact ⟨p, (hfind _).trans hp, hfacts⟩
  refine ⟨hfinal, honward, row, normalized, ?_⟩
  refine {
    located := hpage.located
    keyFree := ?_
    normal := hpage.items
    distinct := hdistinct
    items := ⟨planned.2.commit.id, _, hwritten.items, fun i hi hsame => ?_, fun i hi => ?_,
      classifyFrom_rows hsync, ?_⟩
    versions := ⟨_, hwritten.versions, classifyFrom_versions hsync⟩
    posts := hpostAfter
    unread := fun n hn hother p hp v hv hpost => ?_
    others := fun key hkey => (hfind key).trans (hothers key hkey)
    covered := ⟨d, hd, hcovers⟩ }
  · rintro ⟨c, hc, hkey⟩
    obtain rfl : row.id = runId := (Table.find?_eq_some.mp hpage.located).2
    exact hpage.keyFree c hc (hkey.trans hpage.keyed.symm)
  · obtain ⟨c, hc, hid⟩ := ha.items i hi
    have hkeys := committed.1.commits.distinct
    rw [hcommits, List.map_append, List.map_cons, List.map_nil] at hkeys
    have hdisjoint := (List.nodup_append.mp hkeys).2.2
    exact hdisjoint c.id (List.mem_map_of_mem hc) planned.2.commit.id (by simp) (hid.trans hsame)
  · obtain ⟨plan, _, rfl⟩ := List.mem_map.mp hi
    exact plannedItem_page plan
  · rw [plannedItems_versions hshaped]
    exact hwritten.observed
  · exact unread_of_kept ha.posts hrevised hb.posts hfinal hsplit hp
      ((hpostAfter n hn).kept hother) hv hpost

end Reached

section Results
variable {svc : Service}

def Kept (a : Archive) : Prop := ArchiveInvariant a ∧ Revised a.versions.rows

theorem kept_step {a b : Archive} {tx : Transaction} (ha : Kept a)
    (h : archiveStep svc a tx = .ok b) : Kept b ∧ Onward a.db b.db := by
  obtain ⟨harchive, hrevised⟩ := ha
  have hb := archiveInvariant_step harchive h
  rcases archiveStep_cases h with ⟨runId, request, hpage⟩ | ⟨hother, db, hstep, rfl⟩
  · rcases page_stored harchive hrevised hpage with ⟨_, rfl⟩ | ⟨hnext, honward, _⟩
    · exact ⟨⟨hb, hrevised⟩, onward_refl _⟩
    · exact ⟨⟨hb, hnext⟩, honward⟩
  · refine ⟨⟨hb, hrevised⟩, ?_⟩
    rcases step_moves hstep with ⟨runId, request, _, hpage, _⟩ | hmoves
    · exact absurd hpage (hother runId request)
    · exact moves_invariant (I := fun c => Onward a.db c)
        (fun _ _ hc hmove => onward_trans hc (onward_move hmove)) (onward_refl _) hmoves

theorem kept_unused {a : Archive} (h : Unused a) : Kept a := by
  refine ⟨archiveInvariant_unused h, ?_⟩
  constructor <;> simp [h.versions]

theorem kept_run {a : Archive} (ha : Kept a) (txs : List Transaction) :
    Kept (run (archiveStep svc) a txs) :=
  run_invariant (fun _ _ _ hs hstep => (kept_step hs hstep).1) txs ha

theorem onward_run {a : Archive} (ha : Kept a) (txs : List Transaction) :
    Onward a.db (run (archiveStep svc) a txs).db :=
  run_relation (I := Kept) (R := fun a b => Onward a.db b.db) (fun _ => onward_refl _)
    (fun _ _ _ => onward_trans) (fun _ _ _ hs hstep => (kept_step hs hstep).1)
    (fun _ _ _ hs hstep => (kept_step hs hstep).2) txs ha

/-- Revisions without gaps, a change at each of them, the newest one current, and what any
    further page and any further transactions do. -/
structure RevisionsKept (svc : Service) (a : Archive) : Prop where
  numbered : ∀ p ∈ a.db.posts.rows, ∀ k,
    (∃ u ∈ a.versions.rows, u.postId = p.current.postId ∧ u.revision = k) ↔
      1 ≤ k ∧ k ≤ p.current.currentRevision
  once : ∀ u ∈ a.versions.rows, ∀ v ∈ a.versions.rows, u.postId = v.postId →
    u.revision = v.revision → u = v
  changed : ∀ u ∈ a.versions.rows, ∀ v ∈ a.versions.rows, u.postId = v.postId →
    u.revision + 1 = v.revision → u.contentHash ≠ v.contentHash
  current : ∀ p ∈ a.db.posts.rows, ∃ v ∈ a.versions.rows, v.id = p.current.currentVersionId ∧
    v.postId = p.current.postId ∧ v.contentHash = p.current.currentContentHash ∧
    v.revision = p.current.currentRevision
  owned : ∀ v ∈ a.versions.rows, ∃ p ∈ a.db.posts.rows, p.current.postId = v.postId
  loaded : ∀ sourceId sourcePostIds, loadExistingPosts a sourceId sourcePostIds =
    .ok (existingPosts a.db sourceId sourcePostIds)
  pages : ∀ tx runId request b, tx.operation = .commitPage runId request →
    archiveStep svc a tx = .ok b → (Committed a runId request ∧ b = a) ∨
      ∃ row normalized, PageStored svc a b runId request row normalized
  onward : ∀ txs, Onward a.db (run (archiveStep svc) a txs).db

theorem revisionsKept_run {start : Archive} (hstart : Unused start) (txs : List Transaction) :
    RevisionsKept svc (run (archiveStep svc) start txs) := by
  have hkept := @kept_run svc start (kept_unused hstart) txs
  obtain ⟨harchive, hrevised⟩ := hkept
  refine {
    numbered := fun p hp => revisions_exact harchive.posts hrevised hp
    once := hrevised.once
    changed := hrevised.changed
    current := harchive.posts.current
    owned := harchive.posts.owned
    loaded := loadExistingPosts_current harchive
    pages := fun tx runId request b hcommit hstep => ?_
    onward := onward_run ⟨harchive, hrevised⟩ }
  rcases archiveStep_cases hstep with ⟨runId', request', hpage⟩ | ⟨hother, _⟩
  · have hsame : archiveStep svc (run (archiveStep svc) start txs) tx =
        archivePage svc (run (archiveStep svc) start txs) runId request tx.clock tx.ids.page := by
      rw [archiveStep, hcommit]
    rw [hsame] at hstep
    rcases page_stored harchive hrevised hstep with hreplay | ⟨_, _, hnew⟩
    · exact .inl hreplay
    · exact .inr hnew
  · exact absurd hcommit (hother runId request)

/-- A source that edits its post once: two revisions. -/
theorem revisionsKept_run_sample :
    RevisionsKept storyService (run (archiveStep storyService) storyArchive editedStory) :=
  revisionsKept_run storyArchive_unused editedStory

/-- The page that a transaction adds, when it is accepted: how many versions it
    adds, and the dispositions of its items. -/
def pageAdds (svc : Service) (a : Archive) (tx : Transaction) :
    Option (ℕ × List PageItemDisposition) :=
  match archiveStep svc a tx with
  | .ok b => some (b.versions.rows.length - a.versions.rows.length,
      (b.items.drop a.items.length).map (·.disposition))
  | .error _ => none

/-- A post that comes again unchanged: no version, yet a stored item. -/
theorem duplicate_storesItem :
    pageAdds storyService (run (archiveStep storyService) storyArchive editedStory)
      ⟨.commitPage 1103 (editedPage 2 "c2" "c3" "second"), fun _ => 40, storyIds 3⟩ =
        some (0, [.duplicate]) := by
  decide +kernel

end Results

end PredictionMarketMonitor.PostRevisions
