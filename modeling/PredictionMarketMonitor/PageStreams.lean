import PredictionMarketMonitor.PageCommit
import PredictionMarketMonitor.ThreadedLog

set_option autoImplicit false

/-!
# Page streams

One run, its checkpoint and its stored commits under a sequence of page
requests. The three logs a commit carries (ordinals, revisions and the hash
chain) and the cursors are threaded logs; a call either appends one entry to
all of them or changes nothing.
-/
namespace PredictionMarketMonitor.PageStreams

open CanonicalJson CivilTime ClaimPolicy CollectionBase CollectionModels FallibleSteps PageCommit
open PageItems Sha256 ThreadedLog

structure PageStream where
  run : RunState
  checkpoint : CheckpointState
  commits : List PageCommitRecord

/-- What a call brings besides the locked stream. -/
structure PageCall where
  dbNow : Instant
  command : CommandState
  authorization : AuthorizationSnapshot
  existingPosts : List ExistingPostVersion
  reviewedPageCap : ℕ
  reviewedPostCap : ℕ
  request : PageCommitRequest
  newId : ℕ → UUID

def PageStream.storedKey (s : PageStream) (key : UUID) : Option PageCommitRecord :=
  s.commits.find? (fun c => c.pageIdempotencyKey = key)

def PageStream.storedOrdinal (s : PageStream) (ordinal : ℕ) : Option PageCommitRecord :=
  s.commits.find? (fun c => c.pageOrdinal = ordinal)

def PageStream.context (s : PageStream) (call : PageCall) : PageCommitContext where
  dbNow := call.dbNow
  command := call.command
  run := s.run
  checkpoint := s.checkpoint
  authorization := call.authorization
  existingPosts := call.existingPosts
  existingIdempotencyCommit := s.storedKey call.request.pageIdempotencyKey
  existingOrdinalCommit := s.storedOrdinal call.request.pageOrdinal
  reviewedPageCap := call.reviewedPageCap
  reviewedPostCap := call.reviewedPostCap

def PageStream.store (s : PageStream) (plan : PageCommitPlan) : PageStream :=
  if plan.shouldPersist then ⟨plan.updatedRun, plan.updatedCheckpoint, s.commits ++ [plan.commit]⟩
  else s

section Steps
variable (rt : Runtime)

def pageStep (s : PageStream) (call : PageCall) : Result PageStream := do
  let plan ← preparePageCommit rt (s.context call) call.request call.newId
  return s.store plan

variable {rt}

theorem advanceRun_eq (run : RunState) (c : PageCommitRecord) (now : Instant) :
    advanceRun run c now = { run with
      acceptedCount := run.acceptedCount + c.acceptedCount
      committedPageCount := run.committedPageCount + 1
      committedPageHashChain := c.resultingChainHash
      duplicateCount := run.duplicateCount + c.duplicateCount
      finalCursor := c.nextCursor
      finalPageOrdinal := some c.pageOrdinal
      lastPageCommitId := some c.id
      nextPageOrdinal := c.pageOrdinal + 1
      rejectedCount := run.rejectedCount + c.rejectedCount
      terminalPageCommitId := if c.isTerminalPage then some c.id else run.terminalPageCommitId
      terminalPageOrdinal :=
        if c.isTerminalPage then some c.pageOrdinal else run.terminalPageOrdinal
      terminalCursor := if c.isTerminalPage then c.nextCursor else run.terminalCursor
      terminalReason := if c.isTerminalPage then c.terminalReason else run.terminalReason
      terminalChainHash :=
        if c.isTerminalPage then some c.resultingChainHash else run.terminalChainHash
      completionReadyAt := if c.isTerminalPage then some now else run.completionReadyAt } := by
  unfold advanceRun
  split <;> rfl

theorem advanceCheckpoint_eq_ok {checkpoint updated : CheckpointState}
    {request : PageCommitRequest} {items : List NormalizedPageItem}
    (h : advanceCheckpoint checkpoint request items = .ok updated) :
    ∃ publishedAt sourcePostId, updated = { checkpoint with
      revision := checkpoint.revision + 1
      cursor := request.nextCursor
      watermarkPublishedAt := publishedAt
      watermarkSourcePostId := sourcePostId } := by
  obtain ⟨⟨publishedAt, sourcePostId⟩, _, h⟩ := bind_eq_ok.mp h
  exact ⟨publishedAt, sourcePostId, (Except.ok.inj h).symm⟩

theorem serverTerminalRequest_fields {context : PageCommitContext}
    {request served : PageCommitRequest} (h : serverTerminalRequest context request = .ok served) :
    served.toPageCommitBody = { request.toPageCommitBody with
      isTerminalPage := served.isTerminalPage
      terminalReason := served.terminalReason } := by
  obtain ⟨caps, _, rfl⟩ := serverTerminalRequest_eq_ok.mp h
  split <;> rfl

/-- One appended commit: what it reads from the stream and what it leaves there. -/
structure Appended (s t : PageStream) (c : PageCommitRecord) (now : Instant) : Prop where
  commits : t.commits = s.commits ++ [c]
  run : t.run = advanceRun s.run c now
  checkpoint : ∃ publishedAt sourcePostId, t.checkpoint = { s.checkpoint with
    revision := c.resultingCheckpointRevision
    cursor := c.nextCursor
    watermarkPublishedAt := publishedAt
    watermarkSourcePostId := sourcePostId }
  owner : c.runId = s.run.id ∧ c.commandId = s.run.commandId ∧ c.attempt = s.run.attempt ∧
    c.leaseIdentityHash = s.run.leaseIdentityHash
  unsealed : s.run.terminalPageCommitId = none
  ordinal : c.pageOrdinal = s.run.nextPageOrdinal
  revision : c.expectedCheckpointRevision = s.checkpoint.revision ∧
    c.resultingCheckpointRevision = c.expectedCheckpointRevision + 1
  cursor : c.expectedCursor = s.checkpoint.cursor
  chain : c.previousChainHash = s.run.committedPageHashChain ∧
    c.resultingChainHash = pageChainLink c.previousChainHash c.pageContentHash
  itemCount : c.acceptedCount + c.duplicateCount + c.rejectedCount = c.sourcePageItemCount
  terminalPair : c.isTerminalPage = c.terminalReason.isSome

theorem appended_of_newPage {s : PageStream} {call : PageCall} {served : PageCommitRequest}
    {normalized : List NormalizedPageItem} {requestHash : Digest} {plan : PageCommitPlan}
    (hnormalized : normalizePageItems rt.nfc served.posts = .ok normalized)
    (h : NewPage rt (s.context call) served normalized requestHash call.newId plan) :
    Appended s (s.store plan) plan.commit call.dbNow := by
  obtain ⟨hadmitted, -, checkpoint, hcheckpoint, rfl⟩ := h
  obtain ⟨publishedAt, sourcePostId, rfl⟩ := advanceCheckpoint_eq_ok hcheckpoint
  have hcount : countOf .accepted (classifyPageItems normalized call.existingPosts call.newId).2 +
      countOf .duplicate (classifyPageItems normalized call.existingPosts call.newId).2 +
      countOf .rejectedOversize (classifyPageItems normalized call.existingPosts call.newId).2
      = served.sourcePageItemCount := by
    rw [countOf_total, classifyPageItems_length, normalizePageItems_length hnormalized,
      served.valid.itemCount]
  exact {
    commits := rfl
    run := rfl
    checkpoint := ⟨publishedAt, sourcePostId, rfl⟩
    owner := ⟨rfl, rfl, rfl, rfl⟩
    unsealed := hadmitted.unsealed
    ordinal := hadmitted.ordinal
    revision := ⟨hadmitted.revision, congrArg (· + 1) hadmitted.revision.symm⟩
    cursor := hadmitted.cursor
    chain := ⟨rfl, rfl⟩
    itemCount := hcount
    terminalPair := served.valid.terminalPair }

/-- The whole effect of an accepted call. -/
theorem pageStep_cases {s t : PageStream} {call : PageCall} (h : pageStep rt s call = .ok t) :
    t = s ∨ ∃ c, Appended s t c call.dbNow := by
  obtain ⟨plan, hplan, h⟩ := bind_eq_ok.mp h
  obtain rfl := Except.ok.inj h
  obtain ⟨served, normalized, requestHash, _, hnormalized, _, _, hcases⟩ :=
    preparePageCommit_cases hplan
  rcases hcases with ⟨replay, _, hreplay⟩ | ⟨_, hnew⟩
  · obtain ⟨_, _, response, _, rfl⟩ := replayPage_eq_ok.mp hreplay
    exact .inl rfl
  · exact .inr ⟨plan.commit, appended_of_newPage hnormalized hnew⟩

end Steps

section Invariant

def sealingCommit (commits : List PageCommitRecord) : Option PageCommitRecord :=
  commits.getLast?.filter (fun c => c.isTerminalPage)

/-- Only the last commit can be terminal, and the run's marker facts are those
    of the sealing commit, all together. -/
structure TerminalFacts (run : RunState) (commits : List PageCommitRecord) : Prop where
  earlier : ∀ c ∈ commits.dropLast, c.isTerminalPage = false
  pair : ∀ c ∈ commits, c.isTerminalPage = c.terminalReason.isSome
  commitId : run.terminalPageCommitId = (sealingCommit commits).map (·.id)
  ordinal : run.terminalPageOrdinal = (sealingCommit commits).map (·.pageOrdinal)
  cursor : run.terminalCursor = (sealingCommit commits).bind (·.nextCursor)
  reason : run.terminalReason = (sealingCommit commits).bind (·.terminalReason)
  chainHash : run.terminalChainHash = (sealingCommit commits).map (·.resultingChainHash)
  ready : run.completionReadyAt.isSome = (sealingCommit commits).isSome

/-- The running totals are those of the stored commits. -/
structure Tallies (s : PageStream) : Prop where
  accepted : s.run.acceptedCount = (s.commits.map (·.acceptedCount)).sum
  duplicate : s.run.duplicateCount = (s.commits.map (·.duplicateCount)).sum
  rejected : s.run.rejectedCount = (s.commits.map (·.rejectedCount)).sum

/-- The coupled facts of a run, its checkpoint and its commits. -/
structure StreamInvariant (s : PageStream) : Prop where
  ordinals : Threaded (·.pageOrdinal) (·.pageOrdinal + 1) 0 s.commits
  nextOrdinal : s.run.nextPageOrdinal = s.commits.length
  pageCount : s.run.committedPageCount = s.commits.length
  chain : Threaded (·.previousChainHash) (·.resultingChainHash) s.run.genesisChainHash s.commits
  linked : ∀ c ∈ s.commits, c.resultingChainHash = pageChainLink c.previousChainHash c.pageContentHash
  chainTip : s.run.committedPageHashChain =
    finish (·.resultingChainHash) s.run.genesisChainHash s.commits
  revisions : Threaded (·.expectedCheckpointRevision) (·.expectedCheckpointRevision + 1)
    s.run.startCheckpointRevision s.commits
  resulting : ∀ c ∈ s.commits, c.resultingCheckpointRevision = c.expectedCheckpointRevision + 1
  revisionTip : s.checkpoint.revision = s.run.startCheckpointRevision + s.commits.length
  cursors : Threaded (·.expectedCursor) (·.nextCursor) s.run.startCursor s.commits
  cursorTip : s.checkpoint.cursor = finish (·.nextCursor) s.run.startCursor s.commits
  finalCursor : s.run.finalCursor = s.checkpoint.cursor
  unreserved : s.run.pageReservationId = none
  itemCounts : ∀ c ∈ s.commits,
    c.acceptedCount + c.duplicateCount + c.rejectedCount = c.sourcePageItemCount
  last : s.run.lastPageCommitId = s.commits.getLast?.map (·.id) ∧
    s.run.finalPageOrdinal = s.commits.getLast?.map (·.pageOrdinal)
  owner : ∀ c ∈ s.commits, c.runId = s.run.id ∧ c.commandId = s.run.commandId ∧
    c.attempt = s.run.attempt ∧ c.leaseIdentityHash = s.run.leaseIdentityHash
  terminal : TerminalFacts s.run s.commits

theorem forall_mem_snoc {p : PageCommitRecord → Prop} {cs : List PageCommitRecord}
    {c : PageCommitRecord} (hcs : ∀ d ∈ cs, p d) (hc : p c) : ∀ d ∈ cs ++ [c], p d := by
  intro d hd
  rcases List.mem_append.mp hd with hd | hd
  · exact hcs d hd
  · exact List.mem_singleton.mp hd ▸ hc

theorem terminalFacts_unsealed {run : RunState} {commits : List PageCommitRecord}
    (h : TerminalFacts run commits) (hnone : run.terminalPageCommitId = none) :
    sealingCommit commits = none ∧ ∀ c ∈ commits, c.isTerminalPage = false := by
  have hseal : sealingCommit commits = none := by
    have := h.commitId
    rw [hnone] at this
    exact Option.map_eq_none_iff.mp this.symm
  refine ⟨hseal, ?_⟩
  intro c hc
  rcases List.eq_nil_or_concat commits with rfl | ⟨front, last, rfl⟩
  · simp at hc
  · rw [List.concat_eq_append] at h hc hseal
    rcases List.mem_append.mp hc with hc | hc
    · exact h.earlier c (by simpa using hc)
    · rw [List.mem_singleton.mp hc]
      simpa [sealingCommit] using hseal

theorem terminalFacts_appended {s t : PageStream} {c : PageCommitRecord} {now : Instant}
    (h : TerminalFacts s.run s.commits) (hc : Appended s t c now) :
    TerminalFacts t.run t.commits := by
  obtain ⟨hseal, hfalse⟩ := terminalFacts_unsealed h hc.unsealed
  have hready : s.run.completionReadyAt = none := by
    have := h.ready
    rw [hseal] at this
    simpa using this
  rw [hc.commits, hc.run, advanceRun_eq]
  have hlast : sealingCommit (s.commits ++ [c]) = if c.isTerminalPage then some c else none := by
    simp [sealingCommit, Option.filter]
  refine ⟨?_, forall_mem_snoc h.pair hc.terminalPair, ?_, ?_, ?_, ?_, ?_, ?_⟩
  · simpa using hfalse
  all_goals
    rw [hlast]
    cases c.isTerminalPage <;>
      simp [h.commitId, h.ordinal, h.cursor, h.reason, h.chainHash, hready, hseal]

theorem streamInvariant_appended {s t : PageStream} {c : PageCommitRecord} {now : Instant}
    (h : StreamInvariant s) (hc : Appended s t c now) : StreamInvariant t := by
  obtain ⟨publishedAt, sourcePostId, hcheckpoint⟩ := hc.checkpoint
  have hterminal := terminalFacts_appended h.terminal hc
  have hcommits := hc.commits
  have hrun := hc.run
  rw [advanceRun_eq] at hrun
  obtain ⟨run, checkpoint, commits⟩ := t
  subst hcommits hrun hcheckpoint
  exact {
    ordinals := threaded_snoc.mpr ⟨h.ordinals, by
      rw [counter_finish h.ordinals, hc.ordinal, h.nextOrdinal, Nat.zero_add]⟩
    nextOrdinal := by simp [hc.ordinal, h.nextOrdinal]
    pageCount := by simp [h.pageCount]
    chain := threaded_snoc.mpr ⟨h.chain, hc.chain.1.trans h.chainTip⟩
    linked := forall_mem_snoc h.linked hc.chain.2
    chainTip := by simp
    revisions := threaded_snoc.mpr ⟨h.revisions, by
      rw [counter_finish h.revisions, hc.revision.1, h.revisionTip]⟩
    resulting := forall_mem_snoc h.resulting hc.revision.2
    revisionTip := by
      simp only [List.length_append, List.length_singleton]
      rw [hc.revision.2, hc.revision.1, h.revisionTip, Nat.add_assoc]
    cursors := threaded_snoc.mpr ⟨h.cursors, hc.cursor.trans h.cursorTip⟩
    cursorTip := by simp
    finalCursor := rfl
    unreserved := h.unreserved
    itemCounts := forall_mem_snoc h.itemCounts hc.itemCount
    last := by simp
    owner := forall_mem_snoc h.owner hc.owner
    terminal := hterminal }

theorem sealingCommit_eq_some {commits : List PageCommitRecord} {c : PageCommitRecord} :
    sealingCommit commits = some c ↔ commits.getLast? = some c ∧ c.isTerminalPage = true := by
  simp [sealingCommit, Option.filter_eq_some_iff]

/-- Run and checkpoint of a sealed stream, read off the sealing commit. -/
structure SealedBy (s : PageStream) (c : PageCommitRecord) : Prop where
  last : s.commits.getLast? = some c
  terminal : c.isTerminalPage = true
  commitId : s.run.terminalPageCommitId = some c.id
  ordinal : s.run.terminalPageOrdinal = some c.pageOrdinal
  cursor : s.run.terminalCursor = c.nextCursor
  reason : s.run.terminalReason = c.terminalReason
  chainHash : s.run.terminalChainHash = some c.resultingChainHash
  chainTip : s.run.committedPageHashChain = c.resultingChainHash
  finalCursor : s.run.finalCursor = c.nextCursor
  revision : s.checkpoint.revision = c.resultingCheckpointRevision

theorem sealedBy_of_invariant {s : PageStream} {c : PageCommitRecord} (h : StreamInvariant s)
    (hseal : sealingCommit s.commits = some c) : SealedBy s c := by
  obtain ⟨hlast, hterminal⟩ := sealingCommit_eq_some.mp hseal
  have hrevision := counter_finish h.revisions
  rw [finish_eq_getLast, hlast, ← h.revisionTip] at hrevision
  exact {
    last := hlast
    terminal := hterminal
    commitId := by rw [h.terminal.commitId, hseal]; rfl
    ordinal := by rw [h.terminal.ordinal, hseal]; rfl
    cursor := by rw [h.terminal.cursor, hseal]; rfl
    reason := by rw [h.terminal.reason, hseal]; rfl
    chainHash := by rw [h.terminal.chainHash, hseal]; rfl
    chainTip := by rw [h.chainTip, finish_eq_getLast, hlast]; rfl
    finalCursor := by rw [h.finalCursor, h.cursorTip, finish_eq_getLast, hlast]; rfl
    revision := by rw [h.resulting c (List.mem_of_getLast? hlast)]; exact hrevision.symm }

theorem unsealed_of_invariant {s : PageStream} (h : StreamInvariant s)
    (hopen : sealingCommit s.commits = none) : s.run.terminalPageCommitId = none := by
  rw [h.terminal.commitId, hopen]
  rfl

theorem tallies_appended {s t : PageStream} {c : PageCommitRecord} {now : Instant}
    (h : Tallies s) (hc : Appended s t c now) : Tallies t := by
  constructor <;> rw [hc.run, hc.commits, advanceRun_eq] <;>
    simp [h.accepted, h.duplicate, h.rejected]

end Invariant

section Runs
variable {rt : Runtime}

def SameStart (s t : PageStream) : Prop :=
  t.run.id = s.run.id ∧ t.run.genesisChainHash = s.run.genesisChainHash ∧
    t.run.startCheckpointRevision = s.run.startCheckpointRevision ∧
    t.run.startCursor = s.run.startCursor

theorem sameStart_refl (s : PageStream) : SameStart s s := ⟨rfl, rfl, rfl, rfl⟩

theorem sameStart_trans {s t u : PageStream} (h : SameStart s t) (k : SameStart t u) :
    SameStart s u :=
  ⟨k.1.trans h.1, k.2.1.trans h.2.1, k.2.2.1.trans h.2.2.1, k.2.2.2.trans h.2.2.2⟩

theorem sameStart_appended {s t : PageStream} {c : PageCommitRecord} {now : Instant}
    (hc : Appended s t c now) : SameStart s t := by
  rw [SameStart, hc.run, advanceRun_eq]
  exact ⟨rfl, rfl, rfl, rfl⟩

theorem streamInvariant_step {s t : PageStream} {call : PageCall} (hs : StreamInvariant s)
    (h : pageStep rt s call = .ok t) : StreamInvariant t := by
  rcases pageStep_cases h with rfl | ⟨c, hc⟩
  · exact hs
  · exact streamInvariant_appended hs hc

theorem tallies_step {s t : PageStream} {call : PageCall} (hs : Tallies s)
    (h : pageStep rt s call = .ok t) : Tallies t := by
  rcases pageStep_cases h with rfl | ⟨c, hc⟩
  · exact hs
  · exact tallies_appended hs hc

theorem sameStart_step {s t : PageStream} {call : PageCall} (h : pageStep rt s call = .ok t) :
    SameStart s t := by
  rcases pageStep_cases h with rfl | ⟨c, hc⟩
  · exact sameStart_refl _
  · exact sameStart_appended hc

/-- The stream of a run that `startRun` has just created under a claim policy. -/
def startedStream (run : RunState) (policy : ClaimSourcePolicy) (checkpoint : CheckpointState) :
    PageStream :=
  ⟨bindPolicy run policy, checkpoint, []⟩

theorem startRun_eq_ok {nfc : Text → Text} {start : RunStart} {checkpoint : CheckpointState}
    {run : RunState} (h : startRun nfc start checkpoint = .ok run) :
    ∃ startedAt genesis, start.startedAt.Aware ∧ start.startedAt.instant = startedAt ∧
      (start.sourceId = checkpoint.sourceId ∧ start.scopeVersion = checkpoint.scopeVersion) ∧
      run = {
        id := start.runId, commandId := start.commandId, sourceId := start.sourceId
        scopeVersion := start.scopeVersion, attempt := start.attempt, status := .running
        startCheckpointRevision := checkpoint.revision, startCursor := checkpoint.cursor
        genesisChainHash := genesis, committedPageHashChain := genesis
        leaseIdentityHash := start.leaseIdentityHash, startedAt := startedAt
        heartbeatAt := startedAt, finalCursor := checkpoint.cursor } := by
  obtain ⟨hsource, h⟩ := require_bind.mp h
  obtain ⟨startedAt, hstarted, h⟩ := bind_eq_ok.mp h
  obtain ⟨haware, hinstant⟩ := requireUtc_eq_ok.mp hstarted
  exact ⟨startedAt, _, haware.1, hinstant, hsource, (Except.ok.inj h).symm⟩

theorem streamInvariant_started {nfc : Text → Text} {start : RunStart}
    {checkpoint : CheckpointState} {run : RunState} (policy : ClaimSourcePolicy)
    (h : startRun nfc start checkpoint = .ok run) :
    StreamInvariant (startedStream run policy checkpoint) := by
  obtain ⟨startedAt, genesis, _, _, _, rfl⟩ := startRun_eq_ok h
  have hempty {p : PageCommitRecord → Prop} : ∀ c ∈ ([] : List PageCommitRecord), p c := by simp
  exact {
    ordinals := trivial, nextOrdinal := rfl, pageCount := rfl, chain := trivial
    linked := hempty, chainTip := rfl, revisions := trivial, resulting := hempty
    revisionTip := rfl, cursors := trivial, cursorTip := rfl, finalCursor := rfl
    unreserved := rfl, itemCounts := hempty
    last := ⟨rfl, rfl⟩, owner := hempty
    terminal := ⟨hempty, hempty, rfl, rfl, rfl, rfl, rfl, rfl⟩ }

theorem tallies_started {nfc : Text → Text} {start : RunStart} {checkpoint : CheckpointState}
    {run : RunState} (policy : ClaimSourcePolicy) (h : startRun nfc start checkpoint = .ok run) :
    Tallies (startedStream run policy checkpoint) := by
  obtain ⟨startedAt, genesis, _, _, _, rfl⟩ := startRun_eq_ok h
  exact ⟨rfl, rfl, rfl⟩

/-- The six facts after any sequence of calls, spelled out commit by commit. -/
structure CoupledFacts (start : PageStream) (s : PageStream) : Prop where
  sameStart : SameStart start s
  ordinals : s.commits.map (·.pageOrdinal) = List.range s.commits.length ∧
    s.run.nextPageOrdinal = s.commits.length ∧ s.run.committedPageCount = s.commits.length
  chain : s.run.committedPageHashChain =
      (s.commits.map (·.pageContentHash)).foldl pageChainLink s.run.genesisChainHash ∧
    ∀ k (hk : k < s.commits.length),
      s.commits[k].previousChainHash =
        ((s.commits.take k).map (·.pageContentHash)).foldl pageChainLink s.run.genesisChainHash ∧
      s.commits[k].resultingChainHash =
        ((s.commits.take (k + 1)).map (·.pageContentHash)).foldl pageChainLink
          s.run.genesisChainHash
  revisions : s.checkpoint.revision = s.run.startCheckpointRevision + s.commits.length ∧
    ∀ k (hk : k < s.commits.length),
      s.commits[k].expectedCheckpointRevision = s.run.startCheckpointRevision + k ∧
      s.commits[k].resultingCheckpointRevision = s.run.startCheckpointRevision + k + 1
  cursors : s.checkpoint.cursor = s.run.finalCursor ∧
    s.checkpoint.cursor = (s.commits.getLast?.map (·.nextCursor)).getD s.run.startCursor ∧
    ∀ k (hk : k < s.commits.length), s.commits[k].expectedCursor =
      ((s.commits.take k).getLast?.map (·.nextCursor)).getD s.run.startCursor
  counts : s.run.acceptedCount = (s.commits.map (·.acceptedCount)).sum ∧
    s.run.duplicateCount = (s.commits.map (·.duplicateCount)).sum ∧
    s.run.rejectedCount = (s.commits.map (·.rejectedCount)).sum ∧
    ∀ c ∈ s.commits, c.acceptedCount + c.duplicateCount + c.rejectedCount = c.sourcePageItemCount
  last : s.run.lastPageCommitId = s.commits.getLast?.map (·.id) ∧
    s.run.finalPageOrdinal = s.commits.getLast?.map (·.pageOrdinal) ∧
    ∀ c ∈ s.commits, c.runId = s.run.id
  terminal : TerminalFacts s.run s.commits

theorem coupledFacts_of_invariant {start s : PageStream} (hstart : SameStart start s)
    (h : StreamInvariant s) (htallies : Tallies s) : CoupledFacts start s where
  sameStart := hstart
  ordinals := ⟨by rw [counter_map h.ordinals, List.range_eq_range'], h.nextOrdinal, h.pageCount⟩
  chain := ⟨h.chainTip.trans (chain_finish h.chain h.linked),
    fun k hk => chain_getElem h.chain h.linked k hk⟩
  revisions := by
    refine ⟨h.revisionTip, fun k hk => ?_⟩
    have hexpected := counter_getElem h.revisions k hk
    exact ⟨hexpected, by rw [h.resulting _ (List.getElem_mem hk), hexpected]⟩
  cursors := by
    refine ⟨h.finalCursor.symm, by rw [h.cursorTip, finish_eq_getLast], fun k hk => ?_⟩
    rw [threaded_getElem h.cursors k hk, finish_eq_getLast]
  counts := ⟨htallies.accepted, htallies.duplicate, htallies.rejected, h.itemCounts⟩
  last := ⟨h.last.1, h.last.2, fun c hc => (h.owner c hc).1⟩
  terminal := h.terminal

theorem streamInvariant_run {s : PageStream} (calls : List PageCall) (hs : StreamInvariant s) :
    StreamInvariant (run (pageStep rt) s calls) :=
  run_invariant (fun _ _ _ hs h => streamInvariant_step hs h) calls hs

theorem tallies_run {s : PageStream} (calls : List PageCall) (hs : Tallies s) :
    Tallies (run (pageStep rt) s calls) :=
  run_invariant (fun _ _ _ hs h => tallies_step hs h) calls hs

theorem sameStart_run (s : PageStream) (calls : List PageCall) :
    SameStart s (run (pageStep rt) s calls) :=
  run_relation (I := fun _ => True) (R := SameStart) sameStart_refl
    (fun _ _ _ h k => sameStart_trans h k) (fun _ _ _ _ _ => trivial)
    (fun _ _ _ _ h => sameStart_step h) calls trivial

/-- Accepted, replayed or rejected, in any order: every stored page stream
    keeps its run, checkpoint and commits in step. -/
theorem pageStream_coupled {start : RunStart} {checkpoint : CheckpointState} {created : RunState}
    (hcreated : startRun rt.nfc start checkpoint = .ok created) (policy : ClaimSourcePolicy)
    (calls : List PageCall) :
    CoupledFacts (startedStream created policy checkpoint)
      (run (pageStep rt) (startedStream created policy checkpoint) calls) :=
  coupledFacts_of_invariant (sameStart_run _ calls)
    (streamInvariant_run calls (streamInvariant_started policy hcreated))
    (tallies_run calls (tallies_started policy hcreated))

end Runs

section Sample

def sampleToken : String := "lease-token-of-the-first-attempt"

theorem sampleToken_valid : ValidLeaseToken sampleToken := by decide +kernel

def sampleCheckpoint : CheckpointState where
  id := 11
  sourceId := 3
  scopeVersion := "scope-v1"
  revision := 4
  cursor := some "c4"

def sampleStart : RunStart where
  runId := 1
  commandId := 2
  sourceId := 3
  scopeVersion := "scope-v1"
  attempt := 1
  leaseIdentityHash := hashToken sampleToken
  startedAt := Datetime.utc 1000

def sampleGenesis : Digest :=
  sha256 (encode "page-chain-genesis/v1\n" ++
    canonicalBytes id (genesisIdentity sampleStart sampleCheckpoint))

def sampleRun : RunState where
  id := 1
  commandId := 2
  sourceId := 3
  scopeVersion := "scope-v1"
  attempt := 1
  status := .running
  startCheckpointRevision := 4
  startCursor := some "c4"
  genesisChainHash := sampleGenesis
  committedPageHashChain := sampleGenesis
  leaseIdentityHash := hashToken sampleToken
  startedAt := 1000
  heartbeatAt := 1000
  finalCursor := some "c4"

def samplePolicy (pageCap : ℕ) : ClaimSourcePolicy where
  sourceId := 3
  authorization := ⟨5, ["/questions"]⟩
  budgetDecisionId := 6
  budgetStatus := .allow
  reviewedPageCap := pageCap
  reviewedPostCap := 40
  skipBudgetDecisionId := none

def sampleCommand : CommandState where
  id := 2
  scopeVersion := "scope-v1"
  sourceIds := [3]
  kind := .scheduled
  status := .running
  attempt := 1
  availableAt := 0
  claimedAt := some 1000
  heartbeatAt := some 1000
  leaseHash := some (hashToken sampleToken)

def sampleAuthorization : AuthorizationSnapshot where
  decisionId := 5
  sourceId := 3
  scopeVersion := "scope-v1"
  enabled := true
  status := .approved
  effectiveAt := 0
  expiresAt := some 1000000000
  revokedAt := none

/-- Page `ordinal` of the sample run: no items, no terminal marker. -/
def sampleRequest (ordinal : ℕ) (expected next : String) : PageCommitRequest where
  commandId := 2
  attempt := 1
  leaseToken := sampleToken
  pageIdempotencyKey := 100 + BitVec.ofNat 128 ordinal
  expectedCheckpointRevision := 4 + ordinal
  expectedCursor := some expected
  nextCursor := some next
  pageOrdinal := ordinal
  posts := []
  sourcePageItemCount := 0
  sourcePageReceiptSha256 := 7
  pageFetchStartedAt := Datetime.utc 1100
  pageFetchFinishedAt := Datetime.utc 1200
  isTerminalPage := false
  terminalReason := none
  valid := ⟨⟨le_refl 1, by simp [maxCommandAttempts]⟩, sampleToken_valid, by simp, rfl, rfl,
    Iff.rfl, by simp [Datetime.utc]⟩

def sampleCall (ordinal : ℕ) (expected next : String) : PageCall where
  dbNow := 2000
  command := sampleCommand
  authorization := sampleAuthorization
  existingPosts := []
  reviewedPageCap := 4
  reviewedPostCap := 40
  request := sampleRequest ordinal expected next
  newId := fun k => 1000 + 10 * BitVec.ofNat 128 ordinal + BitVec.ofNat 128 k

/-- Parsers that accept what `canonicalBytes` writes. -/
def sampleRuntime : Runtime where
  nfc := id
  parsePageCommitResponse := fun _ => some ⟨0, 0, none, 0, 0, 0, 0⟩
  parseCompletionResponse := fun _ => some ⟨0, .succeeded, 0, []⟩

theorem startRun_sample : startRun id sampleStart sampleCheckpoint = .ok sampleRun := rfl

/-- Two pages, a replay of the first one and a page out of order: two commits. -/
theorem pageStream_coupled_sample :
    let calls := [sampleCall 0 "c4" "c5", sampleCall 1 "c5" "c6", sampleCall 0 "c4" "c5",
      sampleCall 3 "c6" "c7"]
    let s := run (pageStep sampleRuntime)
      (startedStream sampleRun (samplePolicy 8) sampleCheckpoint) calls
    s.commits.length = 2 ∧
      CoupledFacts (startedStream sampleRun (samplePolicy 8) sampleCheckpoint) s :=
  ⟨by decide +kernel, @pageStream_coupled sampleRuntime _ _ _ startRun_sample (samplePolicy 8) _⟩

end Sample

end PredictionMarketMonitor.PageStreams
