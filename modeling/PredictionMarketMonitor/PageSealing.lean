import PredictionMarketMonitor.PageStreams

set_option autoImplicit false

/-!
# The page cap and the sealed stream

A stream is sealed by its first terminal page. The page that reaches the cap is
terminal whether its client said so or the server derived it, so a run never
passes its cap and is sealed when it has reached it.
-/
namespace PredictionMarketMonitor.PageSealing

open ClaimPolicy CollectionBase CollectionModels FallibleSteps PageCommit PageItems PageStreams
open Sha256

section Steps
variable {rt : Runtime}

def Sealed (s : PageStream) : Prop :=
  s.run.terminalPageCommitId.isSome = true ∧ s.run.completionReadyAt.isSome = true

structure Capped (pageCap : ℕ) (s : PageStream) : Prop where
  cap : s.run.reviewedPageCap = some pageCap
  within : s.run.committedPageCount ≤ pageCap
  atCap : s.run.committedPageCount = pageCap → Sealed s

theorem served_terminal {context : PageCommitContext} {request served : PageCommitRequest}
    {pageCap : ℕ} (hserved : serverTerminalRequest context request = .ok served)
    (hcap : context.run.reviewedPageCap = some pageCap)
    (hreaches : context.run.committedPageCount + 1 = pageCap) : served.isTerminalPage = true := by
  obtain ⟨caps, hcaps, rfl⟩ := serverTerminalRequest_eq_ok.mp hserved
  have hcapEq : caps.1 = pageCap :=
    Option.some.inj ((reviewedCaps_eq_ok.mp hcaps).1.symm.trans hcap)
  by_cases hreason : request.terminalReason = none
  · rw [if_pos ⟨hreaches.trans hcapEq.symm, hreason⟩]
    rfl
  · rw [if_neg fun h => hreason h.2, request.valid.terminalPair]
    exact Option.isSome_iff_ne_none.mpr hreason

theorem pageStep_capped {pageCap : ℕ} {s t : PageStream} {call : PageCall} (hs : Capped pageCap s)
    (h : pageStep rt s call = .ok t) :
    t = s ∨ ∃ c, Appended s t c call.dbNow ∧ s.run.committedPageCount < pageCap ∧
      (s.run.committedPageCount + 1 = pageCap → c.isTerminalPage = true) := by
  obtain ⟨plan, hplan, h⟩ := bind_eq_ok.mp h
  obtain rfl := Except.ok.inj h
  obtain ⟨served, normalized, requestHash, hserved, hnormalized, _, _, hcases⟩ :=
    preparePageCommit_cases hplan
  rcases hcases with ⟨replay, _, hreplay⟩ | ⟨_, hnew⟩
  · obtain ⟨_, _, response, _, rfl⟩ := replayPage_eq_ok.mp hreplay
    exact .inl rfl
  · have happended := appended_of_newPage hnormalized hnew
    obtain ⟨caps, hcaps, hbelow⟩ := hnew.admitted.belowCap
    have hcapEq : caps.1 = pageCap :=
      Option.some.inj ((reviewedCaps_eq_ok.mp hcaps).1.symm.trans hs.cap)
    obtain ⟨_, _, checkpoint, _, rfl⟩ := hnew
    refine .inr ⟨_, happended, ?_, fun hreaches => served_terminal hserved hs.cap hreaches⟩
    rw [← hcapEq]
    exact hbelow

theorem capped_step {pageCap : ℕ} {s t : PageStream} {call : PageCall} (hs : Capped pageCap s)
    (h : pageStep rt s call = .ok t) : Capped pageCap t := by
  rcases pageStep_capped hs h with rfl | ⟨c, hc, hbelow, hterminal⟩
  · exact hs
  have hrun := hc.run
  rw [advanceRun_eq] at hrun
  have hcount : t.run.committedPageCount = s.run.committedPageCount + 1 := by rw [hrun]
  refine ⟨by rw [hrun]; exact hs.cap, by omega, fun hreached => ?_⟩
  have hflag := hterminal (by omega)
  rw [Sealed, hrun]
  simp only [hflag, if_true, Option.isSome_some, and_self]

/-- No request of any kind moves a sealed stream. -/
theorem sealed_step {s t : PageStream} {call : PageCall} (hs : Sealed s)
    (h : pageStep rt s call = .ok t) : t = s := by
  rcases pageStep_cases h with rfl | ⟨c, hc⟩
  · rfl
  · have hopen := hc.unsealed
    have hsome := hs.1
    rw [hopen] at hsome
    cases hsome

theorem sealed_run {s : PageStream} (hs : Sealed s) (calls : List PageCall) :
    run (pageStep rt) s calls = s := by
  induction calls with
  | nil => rfl
  | cons call calls ih =>
    have hstay : attempt (pageStep rt) s call = s := by
      rcases attempt_cases (pageStep rt) s call with h | h
      · exact h
      · exact sealed_step hs h
    rw [run_cons, hstay, ih]

theorem capped_started {nfc : CanonicalJson.Text → CanonicalJson.Text} {start : RunStart}
    {checkpoint : CheckpointState} {created : RunState} {policy : ClaimSourcePolicy}
    (hcreated : startRun nfc start checkpoint = .ok created) (hcap : 1 ≤ policy.reviewedPageCap) :
    Capped policy.reviewedPageCap (startedStream created policy checkpoint) := by
  obtain ⟨startedAt, genesis, _, _, _, rfl⟩ := startRun_eq_ok hcreated
  refine ⟨rfl, Nat.zero_le _, fun hreached => ?_⟩
  change 0 = policy.reviewedPageCap at hreached
  omega

end Steps

section Results
variable {rt : Runtime}

/-- What a run promises about its cap, however its pages were requested. -/
structure SealingFacts (rt : Runtime) (pageCap : ℕ) (s : PageStream) : Prop where
  within : s.run.committedPageCount ≤ pageCap
  atCap : s.run.committedPageCount = pageCap →
    s.run.terminalPageCommitId.isSome = true ∧ s.run.completionReadyAt.isSome = true
  sealed : s.run.terminalPageCommitId.isSome = true →
    (∀ call t, pageStep rt s call = .ok t → t = s) ∧ ∀ calls, run (pageStep rt) s calls = s

/-- Whatever requests come, a run stays within its cap, is sealed at it, and
    never moves again once it is sealed. -/
theorem pageStream_sealing {start : RunStart} {checkpoint : CheckpointState} {created : RunState}
    (hcreated : startRun rt.nfc start checkpoint = .ok created) {policy : ClaimSourcePolicy}
    (hcap : 1 ≤ policy.reviewedPageCap) (calls : List PageCall) :
    SealingFacts rt policy.reviewedPageCap
      (run (pageStep rt) (startedStream created policy checkpoint) calls) := by
  have hcapped : Capped policy.reviewedPageCap
      (run (pageStep rt) (startedStream created policy checkpoint) calls) :=
    run_invariant (fun _ _ _ hs h => capped_step hs h) calls (capped_started hcreated hcap)
  have hstream := @streamInvariant_run rt _ calls (streamInvariant_started policy hcreated)
  generalize run (pageStep rt) (startedStream created policy checkpoint) calls = s
    at hcapped hstream ⊢
  have hready (h : s.run.terminalPageCommitId.isSome = true) : Sealed s := by
    refine ⟨h, ?_⟩
    rw [hstream.terminal.ready]
    rw [hstream.terminal.commitId, Option.isSome_map] at h
    exact h
  exact ⟨hcapped.within, hcapped.atCap,
    fun h => ⟨fun _ _ => sealed_step (hready h), fun calls => sealed_run (hready h) calls⟩⟩

/-- Cap 1: the only page is sealed by the server, and the next one is refused. -/
theorem pageStream_sealing_sample :
    let s := run (pageStep sampleRuntime)
      (startedStream sampleRun (samplePolicy 1) sampleCheckpoint)
      [sampleCall 0 "c4" "c5", sampleCall 1 "c5" "c6"]
    s.run.committedPageCount = 1 ∧ SealingFacts sampleRuntime 1 s :=
  ⟨by decide +kernel,
    @pageStream_sealing sampleRuntime _ _ _ startRun_sample (samplePolicy 1) (Nat.le_refl 1) _⟩

end Results

end PredictionMarketMonitor.PageSealing
