import PredictionMarketMonitor.PostArchive

set_option autoImplicit false

/-!
# Checkpoint replay

`SqlAlchemyCollectionRepository.checkpoint` and the collector that resumes from
its answer. The page counters are no columns of a run: `to_run_state` leaves them
at their defaults, and only the page context store sums them over the commits.
-/
namespace PredictionMarketMonitor.ResumePosition

open CivilTime ClaimPolicy CollectionBase CollectionModels CommandStore ControlPlaneTables
open FallibleSteps KeyedTable PageCommit PageItems PageStore ReachableStores Sha256

structure CheckpointReplay where
  expectedCheckpointRevision : ℕ
  expectedCursor : Option String
  nextPageOrdinal : ℕ
  committedPageHashChain : Digest
  acceptedCount : ℕ
  lastPageCommitId : Option UUID
deriving DecidableEq

def checkpointReplay (run : RunState) (checkpoint : CheckpointState) :
    Result CheckpointReplay := do
  require (run.sourceId = checkpoint.sourceId ∧ run.scopeVersion = checkpoint.scopeVersion ∧
    run.startCheckpointRevision ≤ checkpoint.revision) (fail .checkpointConflict 409)
  return {
    expectedCheckpointRevision := checkpoint.revision
    expectedCursor := checkpoint.cursor
    nextPageOrdinal := run.nextPageOrdinal
    committedPageHashChain := run.committedPageHashChain
    acceptedCount := run.acceptedCount
    lastPageCommitId := run.lastPageCommitId }

/-- The state read from a stored row, without the counters it has no columns for. -/
def toRunState (row : RunState) : RunState :=
  { row with acceptedCount := 0, duplicateCount := 0, rejectedCount := 0 }

/-- `_require_run_authorization`. -/
def requireRunAuthorization (db : Database) (run : RunState) (now : Instant) : Result Unit := do
  let snapshots := (claimAuthorizationRows db [run.sourceId] run.scopeVersion).map (fun row =>
    authorizationSnapshot row.1 row.2 (currentlyEnabled row.1 row.2))
  let snapshot ← present (snapshots.find? (fun s => s.sourceId = run.sourceId))
    (fail .sourceAuthorizationInactive 403)
  require (some snapshot.decisionId = run.authorizationDecisionId)
    (fail .sourceAuthorizationInactive 403)
  let _ ← requireActiveAuthorization snapshot run.sourceId run.scopeVersion now
  return ()

/-- `SqlAlchemyCollectionRepository.checkpoint`. -/
def checkpoint (db : Database) (runId : UUID) (now : Instant) : Result CheckpointReplay := do
  let run ← present (db.runs.find? runId) (fail .leaseOrAttemptMismatch 409)
  requireRunAuthorization db run now
  let stored ← present (db.checkpoints.find? (run.sourceId, run.scopeVersion)) .integrity
  checkpointReplay (toRunState run) stored

structure PageCursor where
  revision : ℕ
  cursor : Option String
  ordinal : ℕ
  acceptedCount : ℕ := 0
  committedPageCount : ℕ := 0
  committedPageHashChain : Digest
  lastPageCommitId : Option UUID := none
deriving DecidableEq

def checkpointCursor (checkpoint : CheckpointReplay) (committedPageCount : ℕ) : PageCursor where
  revision := checkpoint.expectedCheckpointRevision
  cursor := checkpoint.expectedCursor
  ordinal := checkpoint.nextPageOrdinal
  acceptedCount := checkpoint.acceptedCount
  committedPageCount := committedPageCount
  committedPageHashChain := checkpoint.committedPageHashChain
  lastPageCommitId := checkpoint.lastPageCommitId

/-- The cursor of a collector that holds the receipt of a page it committed. -/
def advanceCursor (state : PageCursor) (commit : PageCommitRecord) : PageCursor where
  revision := commit.resultingCheckpointRevision
  cursor := commit.nextCursor
  ordinal := state.ordinal + 1
  acceptedCount := state.acceptedCount + commit.acceptedCount
  committedPageCount := state.committedPageCount + 1
  committedPageHashChain := pageChainLink state.committedPageHashChain commit.pageContentHash
  lastPageCommitId := some commit.id

def maxAcceptedPerSourceRun : ℕ := 20

def remainingPosts (state : PageCursor) : ℤ :=
  (maxAcceptedPerSourceRun : ℤ) - state.acceptedCount

/-- The replay carries the stored position of the run and the sum over its commits. -/
structure ReportsPersisted (db : Database) (runId : UUID) (replay : CheckpointReplay) : Prop where
  position : ∃ run stored, db.runs.find? runId = some run ∧
    db.checkpoints.find? (run.sourceId, run.scopeVersion) = some stored ∧
    replay.expectedCheckpointRevision = stored.revision ∧
    replay.expectedCursor = stored.cursor ∧
    replay.nextPageOrdinal = run.nextPageOrdinal ∧
    replay.committedPageHashChain = run.committedPageHashChain ∧
    replay.lastPageCommitId = run.lastPageCommitId
  accepted : replay.acceptedCount = ((db.commitsOf runId).map (·.acceptedCount)).sum

/-- A collector that resumes from the replay has as many posts left as one that
    started the run and held the receipt of every stored page. -/
def ResumesAlike (db : Database) (runId : UUID) (replay : CheckpointReplay) : Prop :=
  ∀ (start : PageCursor) (pages : ℕ), start.acceptedCount = 0 →
    remainingPosts (checkpointCursor replay pages) =
      remainingPosts ((db.commitsOf runId).foldl advanceCursor start)

section Results

theorem checkpointReplay_eq_ok {run : RunState} {checkpoint : CheckpointState}
    {replay : CheckpointReplay} (h : checkpointReplay run checkpoint = .ok replay) :
    replay = ⟨checkpoint.revision, checkpoint.cursor, run.nextPageOrdinal,
      run.committedPageHashChain, run.acceptedCount, run.lastPageCommitId⟩ := by
  obtain ⟨_, h⟩ := require_bind.mp h
  exact (Except.ok.inj h).symm

theorem checkpoint_eq_ok {db : Database} {runId : UUID} {now : Instant}
    {replay : CheckpointReplay} (h : checkpoint db runId now = .ok replay) :
    ∃ run stored, db.runs.find? runId = some run ∧
      db.checkpoints.find? (run.sourceId, run.scopeVersion) = some stored ∧
      replay = ⟨stored.revision, stored.cursor, run.nextPageOrdinal, run.committedPageHashChain,
        0, run.lastPageCommitId⟩ := by
  obtain ⟨run, hrun, h⟩ := bind_eq_ok.mp h
  obtain ⟨_, _, h⟩ := bind_eq_ok.mp h
  obtain ⟨stored, hstored, h⟩ := bind_eq_ok.mp h
  exact ⟨run, stored, present_eq_ok.mp hrun, present_eq_ok.mp hstored, checkpointReplay_eq_ok h⟩

theorem foldl_advanceCursor_accepted (start : PageCursor) (commits : List PageCommitRecord) :
    (commits.foldl advanceCursor start).acceptedCount =
      start.acceptedCount + (commits.map (·.acceptedCount)).sum := by
  induction commits generalizing start with
  | nil => rfl
  | cons commit commits ih =>
    have hstep : (advanceCursor start commit).acceptedCount =
        start.acceptedCount + commit.acceptedCount := rfl
    rw [List.foldl_cons, ih, hstep, List.map_cons, List.sum_cons]
    omega

theorem resumesAlike_iff {db : Database} {runId : UUID} {replay : CheckpointReplay} :
    ResumesAlike db runId replay ↔
      replay.acceptedCount = ((db.commitsOf runId).map (·.acceptedCount)).sum := by
  have hcursor : ∀ pages, (checkpointCursor replay pages).acceptedCount = replay.acceptedCount :=
    fun _ => rfl
  constructor
  · intro h
    have hzero := h ⟨0, none, 0, 0, 0, 0, none⟩ 0 rfl
    rw [remainingPosts, remainingPosts, hcursor, foldl_advanceCursor_accepted] at hzero
    dsimp only at hzero
    omega
  · intro h start pages hstart
    rw [remainingPosts, remainingPosts, hcursor, foldl_advanceCursor_accepted, hstart, h]
    omega

theorem sum_eq_zero_iff {commits : List PageCommitRecord} :
    0 = (commits.map (·.acceptedCount)).sum ↔ ∀ c ∈ commits, c.acceptedCount = 0 := by
  rw [eq_comm, List.sum_eq_zero_iff]
  simp only [List.mem_map, forall_exists_index, and_imp, forall_apply_eq_imp_iff₂]

/-- A returned replay reports the persisted run exactly when the run has stored no
    accepted post. -/
theorem checkpoint_reports_iff {db : Database} {runId : UUID} {now : Instant}
    {replay : CheckpointReplay} (h : checkpoint db runId now = .ok replay) :
    (ReportsPersisted db runId replay ∧ ResumesAlike db runId replay) ↔
      ∀ c ∈ db.commitsOf runId, c.acceptedCount = 0 := by
  obtain ⟨run, stored, hrun, hstored, rfl⟩ := checkpoint_eq_ok h
  rw [resumesAlike_iff, ← sum_eq_zero_iff]
  constructor
  · rintro ⟨_, haccepted⟩
    exact haccepted
  · intro haccepted
    exact ⟨⟨⟨run, stored, hrun, hstored, rfl, rfl, rfl, rfl, rfl⟩, haccepted⟩, haccepted⟩

end Results

section Sample
open PostArchive

/-- The run of `editedStory` after its first `pages` pages, one accepted post each. -/
def editedDatabase (pages : ℕ) : Database :=
  run (ControlPlane.step storyService) storyStart (editedStory.take (3 + pages))

def storedAccepted (db : Database) : List ℕ := (db.commitsOf 1103).map (·.acceptedCount)

/-- Before its first page the run is reported as it is stored. -/
theorem checkpoint_reports_iff_sample : ∃ replay,
    checkpoint (editedDatabase 0) 1103 50 = .ok replay ∧
      ReportsPersisted (editedDatabase 0) 1103 replay ∧
      ResumesAlike (editedDatabase 0) 1103 replay := by
  have hok : (checkpoint (editedDatabase 0) 1103 50).isOk = true := by decide +kernel
  obtain ⟨replay, hreplay⟩ := isOk_iff.mp hok
  have hnone : ∀ c ∈ (editedDatabase 0).commitsOf 1103, c.acceptedCount = 0 := by decide +kernel
  exact ⟨replay, hreplay, (checkpoint_reports_iff hreplay).mpr hnone⟩

/-- After two pages with a post each, the replay still says that none was accepted. -/
theorem checkpoint_forgets_posts : ∃ replay,
    checkpoint (editedDatabase 2) 1103 50 = .ok replay ∧ replay.nextPageOrdinal = 2 ∧
      storedAccepted (editedDatabase 2) = [1, 1] ∧ replay.acceptedCount = 0 ∧
      ¬ReportsPersisted (editedDatabase 2) 1103 replay ∧
      ¬ResumesAlike (editedDatabase 2) 1103 replay := by
  have hok : (checkpoint (editedDatabase 2) 1103 50).isOk = true := by decide +kernel
  obtain ⟨replay, hreplay⟩ := isOk_iff.mp hok
  have hstored : storedAccepted (editedDatabase 2) = [1, 1] := by decide +kernel
  have hordinal : ∀ run ∈ (editedDatabase 2).runs.find? 1103, run.nextPageOrdinal = 2 := by
    decide +kernel
  obtain ⟨run, stored, hrun, _, heq⟩ := checkpoint_eq_ok hreplay
  have hzero : replay.acceptedCount = 0 := by rw [heq]
  have hne : replay.acceptedCount ≠
      (((editedDatabase 2).commitsOf 1103).map (·.acceptedCount)).sum := by
    change replay.acceptedCount ≠ (storedAccepted (editedDatabase 2)).sum
    rw [hzero, hstored]
    decide
  refine ⟨replay, hreplay, ?_, hstored, hzero, fun h => hne h.accepted,
    fun h => hne (resumesAlike_iff.mp h)⟩
  rw [heq]
  exact hordinal run hrun

end Sample

end PredictionMarketMonitor.ResumePosition
