import PredictionMarketMonitor.PageStreams

set_option autoImplicit false

/-!
# Replaying a committed page

The request is marked from the current run counters before it is hashed, so
whether a lost page response can be asked for again depends on where the run
stands between the commit and the replay.
-/
namespace PredictionMarketMonitor.PageReplay

open CanonicalJson CivilTime ClaimPolicy CollectionBase CollectionModels FallibleSteps PageCommit
open PageItems PageStreams Sha256

variable {rt : Runtime}

/-- Further pages of the same run, each accepted with status 201. -/
inductive Accepted (rt : Runtime) : PageStream → PageStream → Prop
  | refl (s : PageStream) : Accepted rt s s
  | next {s u : PageStream} {call : PageCall} {plan : PageCommitPlan}
      (h : preparePageCommit rt (s.context call) call.request call.newId = .ok plan)
      (created : plan.outcome.statusCode = 201) (tail : Accepted rt (s.store plan) u) :
      Accepted rt s u

/-- The context of a replay: the current rows and the stored record of the key. -/
def replayContext (now : PageStream) (call : PageCall) (stored : PageCommitRecord) :
    PageCommitContext :=
  { now.context call with existingIdempotencyCommit := some stored }

/-- The call is answered with the stored response and writes nothing. -/
def AnsweredFromStore (rt : Runtime) (context : PageCommitContext) (request : PageCommitRequest)
    (newId : ℕ → UUID) (first : PageCommitPlan) : Prop :=
  ∃ plan, preparePageCommit rt context request newId = .ok plan ∧
    plan.outcome.statusCode = 200 ∧ plan.outcome.responseBytes = first.outcome.responseBytes ∧
    plan.shouldPersist = false ∧ plan.updatedRun = context.run ∧
    plan.updatedCheckpoint = context.checkpoint

/-- Neither the commit nor the replay of an unmarked request stands one page
    short of the run's page cap. -/
def ReplaySafe (request : PageCommitRequest) (atCommit now : RunState) : Prop :=
  request.terminalReason ≠ none ∨
    (some (atCommit.committedPageCount + 1) ≠ atCommit.reviewedPageCap ∧
      some (now.committedPageCount + 1) ≠ now.reviewedPageCap)

section Identity

def payloadBytes (rt : Runtime) (body : PageCommitBody) (items : List NormalizedPageItem) :
    Bytes :=
  canonicalBytes rt.nfc (.object (pageRequestPayload body body.pageFetchStartedAt.instant
    body.pageFetchFinishedAt.instant items))

/-- SHA-256 does not map the two forms of this request to one digest. -/
def CollisionFree (rt : Runtime) (request : PageCommitRequest) : Prop :=
  ∀ items, normalizePageItems rt.nfc request.posts = .ok items →
    sha256 (payloadBytes rt (markPageCap request).toPageCommitBody items) =
      sha256 (payloadBytes rt request.toPageCommitBody items) →
    payloadBytes rt (markPageCap request).toPageCommitBody items =
      payloadBytes rt request.toPageCommitBody items

def AcceptsWritten (rt : Runtime) : Prop :=
  ∀ response : PageCommitResponse, ∃ parsed,
    rt.parsePageCommitResponse (canonicalBytes rt.nfc (PageCommitResponse.json response)) =
      some parsed

theorem pageRequestHash_eq_ok {body : PageCommitBody} {items : List NormalizedPageItem}
    {d : Digest} :
    pageRequestHash rt.nfc body items = .ok d ↔
      (body.pageFetchFinishedAt.HasUtc ∧ body.pageFetchStartedAt.HasUtc) ∧
        sha256 (payloadBytes rt body items) = d := by
  rw [pageRequestHash, bind_eq_ok]
  constructor
  · rintro ⟨finishedAt, hfinished, h⟩
    obtain ⟨startedAt, hstarted, h⟩ := bind_eq_ok.mp h
    obtain ⟨hf, rfl⟩ := requireUtc_eq_ok.mp hfinished
    obtain ⟨hs, rfl⟩ := requireUtc_eq_ok.mp hstarted
    exact ⟨⟨hf, hs⟩, Except.ok.inj h⟩
  · rintro ⟨⟨hf, hs⟩, rfl⟩
    refine ⟨_, requireUtc_eq_ok.mpr ⟨hf, rfl⟩, bind_eq_ok.mpr ⟨_, requireUtc_eq_ok.mpr ⟨hs, rfl⟩, ?_⟩⟩
    rfl

theorem payloadBytes_mark_ne (hnfc : FixesAscii rt.nfc) {request : PageCommitRequest}
    (hopen : request.terminalReason = none) (items : List NormalizedPageItem) :
    payloadBytes rt (markPageCap request).toPageCommitBody items ≠
      payloadBytes rt request.toPageCommitBody items := by
  have hflag : request.isTerminalPage = false := by rw [request.valid.terminalPair, hopen]; rfl
  exact pageRequestPayload_bytes_ne hnfc hflag

theorem digest_mark_ne (hnfc : FixesAscii rt.nfc) {request : PageCommitRequest}
    (hcoll : CollisionFree rt request) (hopen : request.terminalReason = none)
    {items : List NormalizedPageItem} (hitems : normalizePageItems rt.nfc request.posts = .ok items) :
    sha256 (payloadBytes rt (markPageCap request).toPageCommitBody items) ≠
      sha256 (payloadBytes rt request.toPageCommitBody items) :=
  fun h => payloadBytes_mark_ne hnfc hopen items (hcoll items hitems h)

end Identity

section Frames

def SameClaim (s t : RunState) : Prop :=
  t.commandId = s.commandId ∧ t.attempt = s.attempt ∧ t.reviewedPageCap = s.reviewedPageCap ∧
    t.reviewedPostCap = s.reviewedPostCap

theorem Accepted.frame {s u : PageStream} (h : Accepted rt s u) :
    SameClaim s.run u.run ∧ s.run.committedPageCount ≤ u.run.committedPageCount := by
  induction h with
  | refl s => exact ⟨⟨rfl, rfl, rfl, rfl⟩, Nat.le_refl _⟩
  | @next s u call plan h _ _ ih =>
    have hstep : pageStep rt s call = .ok (s.store plan) := by
      rw [pageStep, h, ok_bind]
      rfl
    rcases pageStep_cases hstep with heq | ⟨c, hc⟩
    · rwa [heq] at ih
    · obtain ⟨⟨hcommand, hattempt, hpage, hpost⟩, hle⟩ := ih
      rw [hc.run, advanceRun_eq] at hcommand hattempt hpage hpost hle
      exact ⟨⟨hcommand, hattempt, hpage, hpost⟩, (Nat.le_succ _).trans hle⟩

theorem reviewedCaps_congr {s t : RunState} (h : SameClaim s t) :
    reviewedCaps t = reviewedCaps s := by
  rw [reviewedCaps, reviewedCaps, h.2.2.1, h.2.2.2]

end Frames

section Replay

/-- The request as it is hashed when the run stands at `run`. -/
def servedAt (run : RunState) (request : PageCommitRequest) : PageCommitRequest :=
  if some (run.committedPageCount + 1) = run.reviewedPageCap ∧ request.terminalReason = none then
    markPageCap request
  else request

theorem serverTerminalRequest_servedAt {context : PageCommitContext} {request : PageCommitRequest}
    {caps : ℕ × ℕ} (hcaps : reviewedCaps context.run = .ok caps) :
    serverTerminalRequest context request = .ok (servedAt context.run request) := by
  refine serverTerminalRequest_eq_ok.mpr ⟨caps, hcaps, ?_⟩
  simp only [servedAt, (reviewedCaps_eq_ok.mp hcaps).1, Option.some.injEq]

theorem servedAt_fields (run : RunState) (request : PageCommitRequest) :
    (servedAt run request).posts = request.posts ∧
      (servedAt run request).commandId = request.commandId ∧
      (servedAt run request).attempt = request.attempt ∧
      (servedAt run request).leaseToken = request.leaseToken ∧
      (servedAt run request).pageFetchStartedAt = request.pageFetchStartedAt ∧
      (servedAt run request).pageFetchFinishedAt = request.pageFetchFinishedAt := by
  unfold servedAt
  split <;> exact ⟨rfl, rfl, rfl, rfl, rfl, rfl⟩

/-- What the acceptance of a page leaves for its replays. -/
structure Committed (rt : Runtime) (s : PageStream) (call : PageCall) (plan : PageCommitPlan)
    (items : List NormalizedPageItem) : Prop where
  caps : ∃ caps, reviewedCaps s.run = .ok caps
  normalized : normalizePageItems rt.nfc call.request.posts = .ok items
  readings : call.request.pageFetchFinishedAt.HasUtc ∧ call.request.pageFetchStartedAt.HasUtc
  owner : call.request.commandId = s.run.commandId ∧ call.request.attempt = s.run.attempt
  hash : plan.commit.pageRequestHash =
    sha256 (payloadBytes rt (servedAt s.run call.request).toPageCommitBody items)
  lease : plan.commit.leaseIdentityHash = hashToken call.request.leaseToken
  response : ∃ response, plan.commit.storedResponse =
    canonicalBytes rt.nfc (PageCommitResponse.json response)
  bytes : plan.outcome.responseBytes = plan.commit.storedResponse

theorem committed_of_created {s : PageStream} {call : PageCall} {plan : PageCommitPlan}
    (h : preparePageCommit rt (s.context call) call.request call.newId = .ok plan)
    (created : plan.outcome.statusCode = 201) : ∃ items, Committed rt s call plan items := by
  obtain ⟨served, items, requestHash, hserved, hitems, hhash, howner, hcases⟩ :=
    preparePageCommit_cases h
  obtain ⟨caps, hcaps, _⟩ := serverTerminalRequest_eq_ok.mp hserved
  rw [serverTerminalRequest_servedAt hcaps] at hserved
  obtain rfl := (Except.ok.inj hserved).symm
  obtain ⟨hposts, hcommand, hattempt, htoken, hstarted, hfinished⟩ :=
    servedAt_fields s.run call.request
  obtain ⟨hreadings, rfl⟩ := pageRequestHash_eq_ok.mp hhash
  rcases hcases with ⟨replay, _, hreplay⟩ | ⟨_, hadmitted, _, checkpoint, _, rfl⟩
  · obtain ⟨_, _, response, _, rfl⟩ := replayPage_eq_ok.mp hreplay
    simp at created
  · refine ⟨items, ⟨caps, hcaps⟩, ?_, ?_, ?_, rfl, ?_, ⟨_, rfl⟩, rfl⟩
    · exact hposts ▸ hitems
    · exact ⟨hfinished ▸ hreadings.1, hstarted ▸ hreadings.2⟩
    · exact ⟨hcommand ▸ howner.1, hattempt ▸ howner.2⟩
    · exact hadmitted.runLease.symm.trans (congrArg hashToken htoken)

theorem preparePageCommit_replay {s u : PageStream} {call later : PageCall}
    {plan : PageCommitPlan} {items : List NormalizedPageItem} {newId : ℕ → UUID}
    (hc : Committed rt s call plan items) (hu : SameClaim s.run u.run) :
    preparePageCommit rt (replayContext u later plan.commit) call.request newId =
      replayPage rt (replayContext u later plan.commit) (servedAt u.run call.request)
        (sha256 (payloadBytes rt (servedAt u.run call.request).toPageCommitBody items))
        plan.commit := by
  obtain ⟨caps, hcaps⟩ := hc.caps
  obtain ⟨hposts, hcommand, hattempt, _, hstarted, hfinished⟩ := servedAt_fields u.run call.request
  have hserved : serverTerminalRequest (replayContext u later plan.commit) call.request =
      .ok (servedAt u.run call.request) :=
    serverTerminalRequest_servedAt ((reviewedCaps_congr hu).trans hcaps)
  have hitems : normalizePageItems rt.nfc (servedAt u.run call.request).posts = .ok items :=
    hposts ▸ hc.normalized
  have hhash := (@pageRequestHash_eq_ok rt _ _ _).mpr
    ⟨⟨hfinished ▸ hc.readings.1, hstarted ▸ hc.readings.2⟩,
      rfl (a := sha256 (payloadBytes rt (servedAt u.run call.request).toPageCommitBody items))⟩
  have howner : (servedAt u.run call.request).commandId =
        (replayContext u later plan.commit).run.commandId ∧
      (servedAt u.run call.request).attempt = (replayContext u later plan.commit).run.attempt :=
    ⟨by rw [hcommand, hc.owner.1, ← hu.1]; rfl, by rw [hattempt, hc.owner.2, ← hu.2.1]; rfl⟩
  rw [preparePageCommit, hserved, ok_bind, hitems, ok_bind, hhash, ok_bind,
    require_of howner, ok_bind]
  rfl

theorem answered_of_same_digest (hparse : AcceptsWritten rt) {s u : PageStream}
    {call later : PageCall} {plan : PageCommitPlan} {items : List NormalizedPageItem}
    {newId : ℕ → UUID} (hc : Committed rt s call plan items) (hu : SameClaim s.run u.run)
    (hsame : servedAt s.run call.request = servedAt u.run call.request) :
    AnsweredFromStore rt (replayContext u later plan.commit) call.request newId plan := by
  obtain ⟨response, hresponse⟩ := hc.response
  obtain ⟨parsed, hparsed⟩ := hparse response
  have htoken := (servedAt_fields u.run call.request).2.2.2.1
  refine ⟨_, (preparePageCommit_replay hc hu).trans (replayPage_eq_ok.mpr
    ⟨hc.hash.trans (by rw [hsame]), hc.lease.trans (by rw [htoken]), parsed, ?_, rfl⟩),
    rfl, hc.bytes.symm, rfl, rfl, rfl⟩
  rw [hresponse, hparsed]

theorem reused_of_other_digest {s u : PageStream} {call later : PageCall} {plan : PageCommitPlan}
    {items : List NormalizedPageItem} {newId : ℕ → UUID} (hc : Committed rt s call plan items)
    (hu : SameClaim s.run u.run)
    (hne : sha256 (payloadBytes rt (servedAt s.run call.request).toPageCommitBody items) ≠
      sha256 (payloadBytes rt (servedAt u.run call.request).toPageCommitBody items)) :
    preparePageCommit rt (replayContext u later plan.commit) call.request newId =
      .error (fail .idempotencyKeyReused 409) := by
  rw [preparePageCommit_replay hc hu, replayPage, require_of_not (by rw [hc.hash]; exact hne),
    error_bind]

theorem appended_of_created {s : PageStream} {call : PageCall} {plan : PageCommitPlan}
    (h : preparePageCommit rt (s.context call) call.request call.newId = .ok plan)
    (created : plan.outcome.statusCode = 201) :
    Appended s (s.store plan) plan.commit call.dbNow := by
  obtain ⟨served, items, requestHash, _, hitems, _, _, hcases⟩ := preparePageCommit_cases h
  rcases hcases with ⟨replay, _, hreplay⟩ | ⟨_, hnew⟩
  · obtain ⟨_, _, response, _, rfl⟩ := replayPage_eq_ok.mp hreplay
    simp at created
  · exact appended_of_newPage hitems hnew

theorem committedPageCount_store {s : PageStream} {call : PageCall} {plan : PageCommitPlan}
    (h : preparePageCommit rt (s.context call) call.request call.newId = .ok plan)
    (created : plan.outcome.statusCode = 201) :
    (s.store plan).run.committedPageCount = s.run.committedPageCount + 1 := by
  rw [(appended_of_created h created).run, advanceRun_eq]

/-- At most one of a commit and its later replays is served at the page cap. -/
theorem served_differs_iff {s u : PageStream} {request : PageCommitRequest}
    (hu : SameClaim s.run u.run) (hlt : s.run.committedPageCount < u.run.committedPageCount) :
    ¬ReplaySafe request s.run u.run ↔
      request.terminalReason = none ∧
        ((servedAt s.run request = markPageCap request ∧ servedAt u.run request = request) ∨
          (servedAt s.run request = request ∧ servedAt u.run request = markPageCap request)) := by
  have hcap := hu.2.2.1
  have hself : markPageCap request ≠ request ∨ request.terminalReason ≠ none := by
    by_cases hopen : request.terminalReason = none
    · refine .inl fun heq => ?_
      have := congrArg (fun r => r.terminalReason) heq
      rw [hopen] at this
      cases this
    · exact .inr hopen
  unfold ReplaySafe servedAt
  by_cases hopen : request.terminalReason = none
  · have hmark := hself.resolve_right (fun h => h hopen)
    by_cases hs : some (s.run.committedPageCount + 1) = s.run.reviewedPageCap
    · have hu' : some (u.run.committedPageCount + 1) ≠ u.run.reviewedPageCap := by
        rw [hcap, ← hs]
        simp only [ne_eq, Option.some.injEq]
        omega
      simp [hopen, hs, hu']
    · by_cases hu' : some (u.run.committedPageCount + 1) = u.run.reviewedPageCap
      · simp [hopen, hs, hu']
      · simp [hopen, hs, hu', Ne.symm hmark]
  · simp [hopen]

theorem replay_answer (hparse : AcceptsWritten rt) (hnfc : FixesAscii rt.nfc)
    {s u : PageStream} {call later : PageCall} {plan : PageCommitPlan} {newId : ℕ → UUID}
    (h : preparePageCommit rt (s.context call) call.request call.newId = .ok plan)
    (created : plan.outcome.statusCode = 201) (hcoll : CollisionFree rt call.request)
    (hlater : Accepted rt (s.store plan) u) :
    (ReplaySafe call.request s.run u.run →
      AnsweredFromStore rt (replayContext u later plan.commit) call.request newId plan) ∧
    (¬ReplaySafe call.request s.run u.run →
      preparePageCommit rt (replayContext u later plan.commit) call.request newId =
        .error (fail .idempotencyKeyReused 409)) := by
  obtain ⟨items, hc⟩ := committed_of_created h created
  have hrun : Accepted rt s u := .next h created hlater
  obtain ⟨hframe, _⟩ := hrun.frame
  have hlt : s.run.committedPageCount < u.run.committedPageCount :=
    Nat.lt_of_lt_of_le (by rw [committedPageCount_store h created]; omega) hlater.frame.2
  constructor
  · intro hsafe
    refine answered_of_same_digest hparse hc hframe ?_
    unfold servedAt
    rcases hsafe with hmarked | ⟨hs, hu⟩
    · simp [hmarked]
    · simp [hs, hu]
  · intro hunsafe
    obtain ⟨hopen, hserved⟩ := (served_differs_iff hframe hlt).mp hunsafe
    have hne := digest_mark_ne hnfc hcoll hopen hc.normalized
    refine reused_of_other_digest hc hframe ?_
    rcases hserved with ⟨hs, hu⟩ | ⟨hs, hu⟩
    · rw [hs, hu]; exact hne
    · rw [hs, hu]; exact hne.symm

/-- Presented again at any later point of the run, the identical request of a
    committed page is answered from the store exactly when the page-cap marker
    touched neither the commit nor the replay; otherwise its key counts as
    reused. -/
theorem page_replay_iff (hparse : AcceptsWritten rt) (hnfc : FixesAscii rt.nfc)
    {s u : PageStream} {call later : PageCall} {plan : PageCommitPlan} {newId : ℕ → UUID}
    (h : preparePageCommit rt (s.context call) call.request call.newId = .ok plan)
    (created : plan.outcome.statusCode = 201) (hcoll : CollisionFree rt call.request)
    (hlater : Accepted rt (s.store plan) u) :
    (AnsweredFromStore rt (replayContext u later plan.commit) call.request newId plan ↔
      ReplaySafe call.request s.run u.run) ∧
    (¬ReplaySafe call.request s.run u.run →
      preparePageCommit rt (replayContext u later plan.commit) call.request newId =
        .error (fail .idempotencyKeyReused 409)) := by
  obtain ⟨hsafe, hreused⟩ := @replay_answer _ hparse hnfc _ _ _ later _ newId h created hcoll hlater
  refine ⟨⟨fun hanswered => ?_, hsafe⟩, hreused⟩
  by_contra hunsafe
  obtain ⟨again, hagain, _⟩ := hanswered
  rw [hreused hunsafe] at hagain
  cases hagain

end Replay

section Sample

theorem acceptsWritten_sample : AcceptsWritten sampleRuntime := fun _ => ⟨_, rfl⟩

theorem fixesAscii_sample : FixesAscii sampleRuntime.nfc := fun _ _ => rfl

def sampleStream (pageCap : ℕ) : PageStream :=
  startedStream sampleRun (samplePolicy pageCap) sampleCheckpoint

def sampleAnswer (pageCap : ℕ) : Result PageCommitPlan :=
  preparePageCommit sampleRuntime ((sampleStream pageCap).context (sampleCall 0 "c4" "c5"))
    (sampleCall 0 "c4" "c5").request (sampleCall 0 "c4" "c5").newId

theorem sampleAnswer_created {pageCap : ℕ}
    (h : (sampleAnswer pageCap).toOption.any (fun p => p.outcome.statusCode == 201) = true) :
    ∃ plan, sampleAnswer pageCap = .ok plan ∧ plan.outcome.statusCode = 201 := by
  cases hanswer : sampleAnswer pageCap with
  | error e => simp [hanswer, Except.toOption] at h
  | ok plan => exact ⟨plan, rfl, by simpa [hanswer, Except.toOption] using h⟩

theorem sampleDigests_ne :
    sha256 (payloadBytes sampleRuntime
      (markPageCap (sampleCall 0 "c4" "c5").request).toPageCommitBody []) ≠
    sha256 (payloadBytes sampleRuntime (sampleCall 0 "c4" "c5").request.toPageCommitBody []) := by
  decide +kernel

theorem collisionFree_sample : CollisionFree sampleRuntime (sampleCall 0 "c4" "c5").request := by
  intro items hitems hdigest
  obtain rfl : items = [] := (Except.ok.inj hitems).symm
  exact absurd hdigest sampleDigests_ne

/-- Under a page cap of 4 the first page of the sample run can be asked for again. -/
theorem page_replay_iff_sample : ∃ plan, sampleAnswer 4 = .ok plan ∧
    AnsweredFromStore sampleRuntime
      (replayContext ((sampleStream 4).store plan) (sampleCall 0 "c4" "c5") plan.commit)
      (sampleCall 0 "c4" "c5").request (sampleCall 0 "c4" "c5").newId plan := by
  obtain ⟨plan, hplan, hcreated⟩ := @sampleAnswer_created 4 (by decide +kernel)
  have hsafe : ReplaySafe (sampleCall 0 "c4" "c5").request (sampleStream 4).run
      ((sampleStream 4).store plan).run := by
    rw [(appended_of_created hplan hcreated).run, advanceRun_eq]
    refine .inr ⟨by decide, ?_⟩
    change some 2 ≠ some 4
    decide
  exact ⟨plan, hplan, (page_replay_iff acceptsWritten_sample fixesAscii_sample hplan hcreated
    collisionFree_sample (.refl _)).1.mpr hsafe⟩

/-- Under a page cap of 1 the only page of the run cannot be asked for again. -/
theorem page_replay_refused : ∃ plan, sampleAnswer 1 = .ok plan ∧
    plan.outcome.statusCode = 201 ∧
    ¬AnsweredFromStore sampleRuntime
      (replayContext ((sampleStream 1).store plan) (sampleCall 0 "c4" "c5") plan.commit)
      (sampleCall 0 "c4" "c5").request (sampleCall 0 "c4" "c5").newId plan := by
  obtain ⟨plan, hplan, hcreated⟩ := @sampleAnswer_created 1 (by decide +kernel)
  refine ⟨plan, hplan, hcreated, fun hanswered => ?_⟩
  have hunsafe : ¬ReplaySafe (sampleCall 0 "c4" "c5").request (sampleStream 1).run
      ((sampleStream 1).store plan).run := by
    rintro (hmarked | ⟨hcap, _⟩)
    · exact hmarked rfl
    · exact hcap rfl
  obtain ⟨again, hagain, _⟩ := hanswered
  rw [(replay_answer acceptsWritten_sample fixesAscii_sample hplan hcreated collisionFree_sample
    (.refl _)).2 hunsafe] at hagain
  cases hagain

end Sample

end PredictionMarketMonitor.PageReplay
