import PredictionMarketMonitor.PageReplay

set_option autoImplicit false

/-!
# The reviewed post cap

The page cap of a run is enforced by the server; its post cap is compared with the
accepted posts only when a request names it as the reason of its terminal page. A
page that reaches the cap without a terminal marker leaves the stream open.
-/
namespace PredictionMarketMonitor.PostCap

open CanonicalJson CivilTime ClaimPolicy CollectionBase CollectionModels FallibleSteps
open PageCommit PageItems PageReplay PageStreams Sha256

section Caps
variable (rt : Runtime)

/-- The posts of a request that count as accepted against the existing versions. -/
def acceptedPosts (call : PageCall) : ℕ :=
  match normalizePageItems rt.nfc call.request.posts with
  | .ok normalized =>
    countOf .accepted (classifyPageItems normalized call.existingPosts call.newId).2
  | .error _ => 0

/-- A new page that passes every check of an open stream, whose posts reach the post
    cap, and which neither the request nor the page cap makes the last one. -/
structure LeftOpen (s : PageStream) (call : PageCall) : Prop where
  fresh : s.storedKey call.request.pageIdempotencyKey = none
  owner : call.request.commandId = s.run.commandId ∧ call.request.attempt = s.run.attempt
  readings : call.request.pageFetchFinishedAt.HasUtc ∧ call.request.pageFetchStartedAt.HasUtc
  admitted : Admitted (s.context call) call.request
  normalized : ∃ normalized checkpoint,
    normalizePageItems rt.nfc call.request.posts = .ok normalized ∧
    advanceCheckpoint s.checkpoint call.request normalized = .ok checkpoint
  reached : ∃ cap ∈ s.run.reviewedPostCap, cap ≤ s.run.acceptedCount + acceptedPosts rt call
  unmarked : call.request.isTerminalPage = false ∧
    some (s.run.committedPageCount + 1) ≠ s.run.reviewedPageCap

def lastPageSize (commits : List PageCommitRecord) : ℕ :=
  (commits.getLast?.map (·.sourcePageItemCount)).getD 0

/-- Once the cap is reached the stream is sealed and takes no further page, and the
    stored posts exceed the cap by less than one page. -/
structure CapRespected (cap : ℕ) (s : PageStream) : Prop where
  sealing : cap ≤ s.run.acceptedCount → s.run.terminalPageCommitId ≠ none
  closed : cap ≤ s.run.acceptedCount →
    ∀ call t, pageStep rt s call = .ok t → t.commits = s.commits
  bounded : (s.commits.map (·.acceptedCount)).sum < cap + lastPageSize s.commits

end Caps

section Steps
variable {rt : Runtime}

theorem servedAt_terminal (run : RunState) (request : PageCommitRequest) :
    (servedAt run request).isTerminalPage = true ↔
      request.isTerminalPage = true ∨ some (run.committedPageCount + 1) = run.reviewedPageCap := by
  have hpair := request.valid.terminalPair
  unfold servedAt
  by_cases hcap : some (run.committedPageCount + 1) = run.reviewedPageCap
  · by_cases hreason : request.terminalReason = none
    · rw [if_pos ⟨hcap, hreason⟩]
      exact iff_of_true rfl (.inr hcap)
    · rw [if_neg (fun h => hreason h.2)]
      have hmarked : request.isTerminalPage = true := by
        rw [hpair, Option.isSome_iff_ne_none]
        exact hreason
      exact iff_of_true hmarked (.inr hcap)
  · rw [if_neg (fun h => hcap h.1)]
    simp only [hcap, or_false]

theorem servedAt_unmarked {run : RunState} {request : PageCommitRequest}
    (h : some (run.committedPageCount + 1) ≠ run.reviewedPageCap) :
    servedAt run request = request :=
  if_neg (fun hcap => h hcap.1)

theorem acceptedPosts_of_normalized {call : PageCall} {normalized : List NormalizedPageItem}
    (h : normalizePageItems rt.nfc call.request.posts = .ok normalized) :
    acceptedPosts rt call =
      countOf .accepted (classifyPageItems normalized call.existingPosts call.newId).2 := by
  rw [acceptedPosts, h]

/-- A page that was appended and did not leave the stream open is terminal as soon
    as it reaches the cap. -/
theorem pageStep_marked {s t : PageStream} {call : PageCall} (h : pageStep rt s call = .ok t)
    (hclosed : ¬LeftOpen rt s call) :
    t = s ∨ ∃ c, Appended s t c call.dbNow ∧
      ∀ cap ∈ s.run.reviewedPostCap, cap ≤ s.run.acceptedCount + c.acceptedCount →
        c.isTerminalPage = true := by
  obtain ⟨plan, hplan, h⟩ := bind_eq_ok.mp h
  obtain rfl := Except.ok.inj h
  obtain ⟨served, normalized, requestHash, hserved, hnormalized, hhash, howner, hcases⟩ :=
    preparePageCommit_cases hplan
  rcases hcases with ⟨replay, _, hreplay⟩ | ⟨hfresh, hnew⟩
  · obtain ⟨_, _, response, _, rfl⟩ := replayPage_eq_ok.mp hreplay
    exact .inl rfl
  · refine .inr ⟨plan.commit, appended_of_newPage hnormalized hnew, fun cap hcap hreached => ?_⟩
    obtain ⟨caps, hcaps, _⟩ := serverTerminalRequest_eq_ok.mp hserved
    have hsame : served = servedAt s.run call.request :=
      Except.ok.inj (hserved.symm.trans (serverTerminalRequest_servedAt hcaps))
    obtain ⟨hadmitted, -, checkpoint, hcheckpoint, rfl⟩ := hnew
    by_contra hopen
    have hunmarked : ¬served.isTerminalPage = true := hopen
    rw [hsame, servedAt_terminal, not_or, Bool.not_eq_true] at hunmarked
    rw [servedAt_unmarked hunmarked.2] at hsame
    subst hsame
    refine hclosed ⟨hfresh, howner, (pageRequestHash_eq_ok.mp hhash).1, hadmitted,
      ⟨normalized, checkpoint, hnormalized, hcheckpoint⟩, ⟨cap, hcap, ?_⟩, hunmarked⟩
    rw [acceptedPosts_of_normalized hnormalized]
    exact hreached

theorem commitPage_unmarked {s : PageStream} {call : PageCall} {newId : ℕ → UUID}
    {normalized : List NormalizedPageItem} {requestHash : Digest} {checkpoint : CheckpointState}
    (hadmitted : Admitted (s.context call) call.request)
    (hreason : call.request.terminalReason = none)
    (hcheckpoint : advanceCheckpoint s.checkpoint call.request normalized = .ok checkpoint) :
    commitPage rt (s.context call) call.request normalized requestHash newId =
      .ok (newPagePlan rt (s.context call) call.request requestHash
        (classifyPageItems normalized call.existingPosts newId) newId checkpoint) := by
  obtain ⟨caps, hcaps, _⟩ := hadmitted.belowCap
  have hmarker (accepted : ℕ) :
      validateTerminalCap (s.context call) call.request accepted = .ok () := by
    rw [validateTerminalCap, hcaps, ok_bind, hreason]
    exact require_of trivial
  have hmoved : advanceCheckpoint (s.context call).checkpoint call.request normalized =
      .ok checkpoint := hcheckpoint
  rw [commitPage, validateNewPageCommit_eq_ok.mpr hadmitted, ok_bind]
  dsimp only
  rw [hmarker, ok_bind, hmoved, ok_bind]
  rfl

theorem preparePageCommit_leftOpen {s : PageStream} {call : PageCall}
    (hopen : LeftOpen rt s call) : ∃ normalized requestHash checkpoint,
      normalizePageItems rt.nfc call.request.posts = .ok normalized ∧
      preparePageCommit rt (s.context call) call.request call.newId =
        .ok (newPagePlan rt (s.context call) call.request requestHash
          (classifyPageItems normalized call.existingPosts call.newId) call.newId checkpoint) := by
  obtain ⟨caps, hcaps, _⟩ := hopen.admitted.belowCap
  obtain ⟨normalized, checkpoint, hnormalized, hcheckpoint⟩ := hopen.normalized
  obtain ⟨requestHash, hhash⟩ :
      ∃ d, pageRequestHash rt.nfc call.request.toPageCommitBody normalized = .ok d :=
    ⟨_, pageRequestHash_eq_ok.mpr ⟨hopen.readings, rfl⟩⟩
  have hreason : call.request.terminalReason = none := by
    have hpair := call.request.valid.terminalPair
    rw [hopen.unmarked.1] at hpair
    exact Option.not_isSome_iff_eq_none.mp (by rw [← hpair]; exact Bool.false_ne_true)
  have hserved : serverTerminalRequest (s.context call) call.request = .ok call.request := by
    have hserve := @serverTerminalRequest_servedAt (s.context call) call.request caps hcaps
    exact hserve.trans (congrArg Except.ok (servedAt_unmarked hopen.unmarked.2))
  have hkey : (s.context call).existingIdempotencyCommit = none := hopen.fresh
  have howner : call.request.commandId = (s.context call).run.commandId ∧
      call.request.attempt = (s.context call).run.attempt := hopen.owner
  refine ⟨normalized, requestHash, checkpoint, hnormalized, ?_⟩
  rw [preparePageCommit, hserved, ok_bind, hnormalized, ok_bind, hhash, ok_bind,
    require_of howner, ok_bind, hkey]
  exact commitPage_unmarked hopen.admitted hreason hcheckpoint

theorem pageStep_leftOpen {s : PageStream} {call : PageCall} {cap : ℕ}
    (hopen : LeftOpen rt s call) (hcap : s.run.reviewedPostCap = some cap) :
    ∃ t, pageStep rt s call = .ok t ∧ cap ≤ t.run.acceptedCount ∧
      t.run.terminalPageCommitId = none := by
  obtain ⟨normalized, requestHash, checkpoint, hnormalized, hplan⟩ :=
    preparePageCommit_leftOpen hopen
  obtain ⟨cap', hcap', hreached⟩ := hopen.reached
  obtain rfl : cap' = cap := Option.some.inj (hcap'.symm.trans hcap)
  rw [acceptedPosts_of_normalized hnormalized] at hreached
  refine ⟨_, by rw [pageStep, hplan, ok_bind]; rfl, ?_, ?_⟩
  · change cap' ≤ (advanceRun s.run _ _).acceptedCount
    rw [advanceRun_eq]
    exact hreached
  · change (advanceRun s.run _ _).terminalPageCommitId = none
    rw [advanceRun, if_neg]
    · exact hopen.admitted.unsealed
    · exact Bool.eq_false_iff.mp hopen.unmarked.1

end Steps

section Runs
variable {rt : Runtime}

/-- What the steps preserve: the pages before the last one stay below the cap. -/
structure CapInvariant (cap : ℕ) (s : PageStream) : Prop where
  stream : StreamInvariant s
  tallies : Tallies s
  fixedCap : s.run.reviewedPostCap = some cap
  sealing : cap ≤ s.run.acceptedCount → s.run.terminalPageCommitId ≠ none
  earlier : ∀ front last, s.commits = front ++ [last] →
    (front.map (·.acceptedCount)).sum < cap

theorem capInvariant_started {start : RunStart} {checkpoint : CheckpointState}
    {created : RunState} {policy : ClaimSourcePolicy}
    (h : startRun rt.nfc start checkpoint = .ok created) (hcap : 1 ≤ policy.reviewedPostCap) :
    CapInvariant policy.reviewedPostCap (startedStream created policy checkpoint) where
  stream := streamInvariant_started policy h
  tallies := tallies_started policy h
  fixedCap := rfl
  sealing := by
    have hnone : (startedStream created policy checkpoint).run.acceptedCount = 0 :=
      (tallies_started policy h).accepted
    omega
  earlier front last heq := by
    have hempty : (startedStream created policy checkpoint).commits = [] := rfl
    rw [hempty] at heq
    simp at heq

theorem capInvariant_appended {cap : ℕ} {s t : PageStream} {c : PageCommitRecord}
    {now : Instant} (hs : CapInvariant cap s) (hc : Appended s t c now)
    (hmarked : cap ≤ s.run.acceptedCount + c.acceptedCount → c.isTerminalPage = true) :
    CapInvariant cap t where
  stream := streamInvariant_appended hs.stream hc
  tallies := tallies_appended hs.tallies hc
  fixedCap := by
    rw [hc.run, advanceRun_eq]
    exact hs.fixedCap
  sealing := by
    rw [hc.run, advanceRun_eq]
    intro hreached
    simp [hmarked hreached]
  earlier front last heq := by
    have hbelow : s.run.acceptedCount < cap := by
      by_contra hreached
      exact hs.sealing (by omega) hc.unsealed
    have hfront : front = s.commits :=
      (List.append_inj' (heq.symm.trans hc.commits) rfl).1
    rw [hfront, ← hs.tallies.accepted]
    exact hbelow

theorem capInvariant_step {cap : ℕ} {s t : PageStream} {call : PageCall}
    (hs : CapInvariant cap s) (hclosed : ¬LeftOpen rt s call) (h : pageStep rt s call = .ok t) :
    CapInvariant cap t := by
  rcases pageStep_marked h hclosed with rfl | ⟨c, hc, hmarked⟩
  · exact hs
  · exact capInvariant_appended hs hc (hmarked cap hs.fixedCap)

theorem commits_of_sealed {s t : PageStream} {call : PageCall}
    (hsealed : s.run.terminalPageCommitId ≠ none) (h : pageStep rt s call = .ok t) :
    t.commits = s.commits := by
  rcases pageStep_cases h with rfl | ⟨c, hc⟩
  · rfl
  · exact absurd hc.unsealed hsealed

theorem capRespected_of_invariant {cap : ℕ} {s : PageStream} (hcap : 1 ≤ cap)
    (hs : CapInvariant cap s) : CapRespected rt cap s where
  sealing := hs.sealing
  closed hreached _ _ h := commits_of_sealed (hs.sealing hreached) h
  bounded := by
    rcases List.eq_nil_or_concat s.commits with hnil | ⟨front, last, hcommits⟩
    · simp only [hnil, List.map_nil, List.sum_nil]
      omega
    · rw [List.concat_eq_append] at hcommits
      have hearlier := hs.earlier front last hcommits
      have hcount := hs.stream.itemCounts last (by simp [hcommits])
      have hsize : lastPageSize s.commits = last.sourcePageItemCount := by
        rw [hcommits, lastPageSize, List.getLast?_concat]
        rfl
      rw [hsize, hcommits]
      simp only [List.map_append, List.map_cons, List.map_nil, List.sum_append, List.sum_cons,
        List.sum_nil]
      omega

/-- A run from a stream that respects the cap keeps to it in every state it reaches
    exactly when no request on the way leaves the stream open at the cap. -/
theorem capRespected_run_iff {cap : ℕ} {s : PageStream} {calls : List PageCall} (hcap : 1 ≤ cap)
    (hs : CapInvariant cap s) :
    (∀ k, CapRespected rt cap (run (pageStep rt) s (calls.take k))) ↔
      Meets (pageStep rt) (fun s call => ¬LeftOpen rt s call) s calls := by
  constructor
  · intro hall
    induction calls generalizing s with
    | nil => trivial
    | cons call calls ih =>
      have hclosed : ¬LeftOpen rt s call := by
        intro hopen
        obtain ⟨t, hstep, hreached, hunsealed⟩ := pageStep_leftOpen hopen hs.fixedCap
        have hone := hall 1
        simp only [List.take_succ_cons, List.take_zero, run_cons, attempt_of_ok hstep] at hone
        exact hone.sealing hreached hunsealed
      refine ⟨hclosed, ih ?_ fun k => ?_⟩
      · rcases attempt_cases (pageStep rt) s call with h | h
        · rw [h]
          exact hs
        · exact capInvariant_step hs hclosed h
      · simpa only [List.take_succ_cons, run_cons] using hall (k + 1)
  · intro hclosed k
    have hpre : Meets (pageStep rt) (fun s call => ¬LeftOpen rt s call) s (calls.take k) := by
      rw [← List.take_append_drop k calls] at hclosed
      exact (meets_append.mp hclosed).1
    exact capRespected_of_invariant hcap
      (run_invariant_of (fun _ _ _ hs hc hstep => capInvariant_step hs hc hstep) hs hpre)

/-- The cap bounds every state of a claimed run exactly when no page request leaves
    the stream open at the cap. -/
theorem postCap_respected_iff {start : RunStart} {checkpoint : CheckpointState}
    {created : RunState} {policy : ClaimSourcePolicy}
    (h : startRun rt.nfc start checkpoint = .ok created) (hcap : 1 ≤ policy.reviewedPostCap)
    (calls : List PageCall) :
    (∀ k, CapRespected rt policy.reviewedPostCap
        (run (pageStep rt) (startedStream created policy checkpoint) (calls.take k))) ↔
      Meets (pageStep rt) (fun s call => ¬LeftOpen rt s call)
        (startedStream created policy checkpoint) calls :=
  capRespected_run_iff hcap (capInvariant_started h hcap)

end Runs

section Sample

/-- Page `ordinal` of the sample run with one post, and a marker or none. -/
def postedRequest (ordinal : ℕ) (expected next : String) (reason : Option TerminalReason) :
    PageCommitRequest :=
  ⟨{ (sampleRequest ordinal expected next).toPageCommitBody with
      posts := [.accepted {
        sourcePostId := next, canonicalUrl := "u", title := "t", body := next
        publishedAt := Datetime.utc 900, language := .en
        contentHash := computeContentHash id "t" next }]
      sourcePageItemCount := 1
      isTerminalPage := reason.isSome
      terminalReason := reason },
    ⟨le_refl 1, by simp [sampleRequest, maxCommandAttempts]⟩, sampleToken_valid, by simp, rfl,
    rfl, (sampleRequest ordinal expected next).valid.window⟩

def postedCall (ordinal : ℕ) (expected next : String) (reason : Option TerminalReason) :
    PageCall :=
  { sampleCall ordinal expected next with request := postedRequest ordinal expected next reason }

def onePostPolicy : ClaimSourcePolicy := { samplePolicy 4 with reviewedPostCap := 1 }

def onePostRun (calls : List PageCall) : PageStream :=
  run (pageStep sampleRuntime) (startedStream sampleRun onePostPolicy sampleCheckpoint) calls

/-- Two unmarked pages with a post each: both are committed under a cap of one. -/
theorem postCap_exceeded :
    let s := onePostRun [postedCall 0 "c4" "c5" none, postedCall 1 "c5" "c6" none]
    s.commits.map (·.acceptedCount) = [1, 1] ∧ ¬CapRespected sampleRuntime 1 s := by
  intro s
  have hcounts : s.commits.map (·.acceptedCount) = [1, 1] := by decide +kernel
  have hreached : s.run.acceptedCount = 2 := by decide +kernel
  have hunsealed : s.run.terminalPageCommitId = none := by decide +kernel
  exact ⟨hcounts, fun h => h.sealing (by omega) hunsealed⟩

/-- A client that marks the page that reaches the cap keeps to it. -/
theorem postCap_respected_iff_sample :
    (onePostRun [postedCall 0 "c4" "c5" (some .reviewedPostCap)]).commits.length = 1 ∧
      ∀ k, CapRespected sampleRuntime 1
        (onePostRun ([postedCall 0 "c4" "c5" (some .reviewedPostCap)].take k)) := by
  refine ⟨by decide +kernel, ?_⟩
  have hmarked (s : PageStream) :
      ¬LeftOpen sampleRuntime s (postedCall 0 "c4" "c5" (some .reviewedPostCap)) :=
    fun h => Bool.noConfusion h.unmarked.1
  exact (@postCap_respected_iff sampleRuntime _ _ _ onePostPolicy startRun_sample (le_refl 1) _).mpr
    ⟨hmarked _, trivial⟩

end Sample

end PredictionMarketMonitor.PostCap
