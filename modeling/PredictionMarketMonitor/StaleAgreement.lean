import PredictionMarketMonitor.CommandLifecycle

set_option autoImplicit false

/-!
# One-step and two-step stale release

A stale running command is recovered directly, or after its intermediate
`STALE_ABANDONED` status has been persisted. The recovery planner admits that
status and the completion planner behind it does not.
-/
namespace PredictionMarketMonitor.StaleAgreement

open CivilTime CollectionBase CollectionModels CommandLifecycle Completion Dispatch FallibleSteps
open Sha256 StaleRecovery

section Paths
variable (nfc : CanonicalJson.Text → CanonicalJson.Text)

/-- The locked context of a command after its stale mark was persisted, at a
    later database time. -/
def abandonedContext (context : CompletionContext) (later : Instant) : CompletionContext where
  command := { context.command with status := .staleAbandoned }
  runs := context.runs
  dbNow := later

/-- The runs that a recovery terminalizes, their statuses, and its publications. -/
def terminalized (answer : Option CompletionPlan) :
    List (UUID × RunStatus) × List PublicationDraft :=
  match answer with
  | some plan => (plan.runs.map (fun run => (run.id, run.status)), plan.publications)
  | none => ([], [])

/-- `_reconcile_command` of a locked context. -/
def reconcileContext (context : CompletionContext) (key : Bytes) : Result CommandState :=
  reconcileCommand nfc context.command context.runs context.dbNow context.dbNow key

/-- Neither path raises, and both leave the same runs, publications and status. -/
structure PathsAgree (context : CompletionContext) (later : Instant) (key : Bytes) : Prop where
  plans : ∃ direct twoStep, prepareStaleRecovery nfc context key = .ok direct ∧
    prepareStaleRecovery nfc (abandonedContext context later) key = .ok twoStep ∧
    terminalized direct = terminalized twoStep
  commands : ∃ direct twoStep, reconcileContext nfc context key = .ok direct ∧
    reconcileContext nfc (abandonedContext context later) key = .ok twoStep ∧
    direct.status = twoStep.status

variable {nfc}

theorem abandonedContext_status (context : CompletionContext) (later : Instant) :
    (abandonedContext context later).command.status = .staleAbandoned := rfl

theorem markStale_abandons {context : CompletionContext} {key : Bytes}
    (hrunning : context.command.status = .running)
    (hstale : Elapsed context.dbNow executionStaleSeconds (heartbeatAnchor context.command)) :
    markStale context.command ⟨context.dbNow, false, key⟩ =
      .ok (abandonedContext context context.dbNow).command := by
  simp only [markStale, staleAnchor, hrunning, reduceCtorEq, if_false, if_true, and_self]
  exact if_pos hstale

theorem markStale_of_abandoned {command : CommandState} (check : StaleCheck)
    (h : command.status = .staleAbandoned) :
    markStale command check = releaseAbandoned command check.dbNow check.retryJitterKey := by
  rw [markStale, if_neg (by simp [h]), if_pos h]

theorem prepareServerCompletion_abandoned {context : CompletionContext} {later : Instant}
    {outcomes : List CompletionSourceOutcome} {requestHash : Digest} {plan : CompletionPlan}
    (h : prepareServerCompletion nfc (abandonedContext context later) outcomes requestHash =
      .ok plan) : False := by
  obtain ⟨results, hplanned⟩ := prepareServerCompletion_eq_ok.mp h
  have hstatus : CommandStatus.staleAbandoned = .running := hplanned.running
  cases hstatus

theorem plannedRecovery_abandoned {context : CompletionContext} {later : Instant}
    {released : Option CommandState} {plan : CompletionPlan}
    (h : plannedRecovery nfc (abandonedContext context later) released = .ok plan) : False := by
  obtain ⟨facts, _, h⟩ := bind_eq_ok.mp h
  obtain ⟨outcomes, _, h⟩ := bind_eq_ok.mp h
  obtain ⟨answer, hanswer, _⟩ := bind_eq_ok.mp h
  exact prepareServerCompletion_abandoned hanswer

theorem releasedCommand_abandoned {context : CompletionContext} {later : Instant} {key : Bytes}
    {released : Option CommandState}
    (hopen : (readyRuns (abandonedContext context later)).all id = false)
    (h : releasedCommand (abandonedContext context later) key = .ok released) :
    released ≠ none := by
  rw [releasedCommand, hopen] at h
  obtain ⟨state, hmark, h⟩ := bind_eq_ok.mp h
  rw [markStale_of_abandoned _ rfl] at hmark
  obtain ⟨status, availableAt, rfl, hcases⟩ := releaseAbandoned_eq_ok hmark
  rcases hcases with ⟨_, rfl⟩ | ⟨_, rfl⟩
  · cases h
    exact Option.some_ne_none _
  · cases h
    exact Option.some_ne_none _

theorem prepareStaleRecovery_abandoned {context : CompletionContext} {later : Instant}
    {key : Bytes} {answer : Option CompletionPlan} (hruns : context.runs ≠ [])
    (h : prepareStaleRecovery nfc (abandonedContext context later) key = .ok answer) : False := by
  obtain ⟨_, _, h⟩ := bind_eq_ok.mp h
  have hsame : (abandonedContext context later).runs ≠ [] := hruns
  rw [if_neg hsame] at h
  obtain ⟨released, hreleased, h⟩ := bind_eq_ok.mp h
  by_cases hwait : (readyRuns (abandonedContext context later)).all id = false ∧ released = none
  · exact releasedCommand_abandoned hwait.1 hreleased hwait.2
  · rw [if_neg hwait] at h
    obtain ⟨plan, hplan, _⟩ := bind_eq_ok.mp h
    exact plannedRecovery_abandoned hplan

theorem prepareStaleRecovery_idle {context : CompletionContext} (key : Bytes)
    (hstatus : context.command.status = .running ∨ context.command.status = .staleAbandoned)
    (hruns : context.runs = []) : prepareStaleRecovery nfc context key = .ok none := by
  rw [prepareStaleRecovery, requireRecoverableStatus, require_of hstatus, ok_bind, if_pos hruns]
  rfl

theorem releaseAbandoned_status {command next : CommandState} {now : Instant} {key : Bytes}
    (h : releaseAbandoned command now key = .ok next) :
    next.status = releasedStatus command.attempt := by
  obtain ⟨status, availableAt, rfl, hcases⟩ := releaseAbandoned_eq_ok h
  rcases hcases with ⟨hmax, rfl⟩ | ⟨hlt, rfl⟩
  · exact (if_neg (Nat.not_lt.mpr hmax)).symm
  · exact (if_pos hlt).symm

theorem releaseCommand_abandoned {command : CommandState} (now : Instant) (key : Bytes)
    (hattempt : 1 ≤ command.attempt) (hstatus : command.status = .staleAbandoned) :
    ∃ next, releaseCommand command now key = .ok next ∧
      next.status = releasedStatus command.attempt := by
  obtain ⟨next, hnext⟩ := releaseAbandoned_ok now key hattempt
  have hmark : markStale command ⟨now, false, key⟩ = .ok next :=
    (markStale_of_abandoned _ hstatus).trans hnext
  have hreleased := releaseAbandoned_status hnext
  refine ⟨next, ?_, hreleased⟩
  rw [releaseCommand, hmark, ok_bind, if_neg]
  · rfl
  · rw [hreleased, releasedStatus]
    split_ifs <;> simp

theorem releaseCommand_stale {context : CompletionContext} (key : Bytes)
    (hattempt : 1 ≤ context.command.attempt) (hrunning : context.command.status = .running)
    (hstale : Elapsed context.dbNow executionStaleSeconds (heartbeatAnchor context.command)) :
    ∃ next, releaseCommand context.command context.dbNow key = .ok next ∧
      next.status = releasedStatus context.command.attempt := by
  let abandoned := (abandonedContext context context.dbNow).command
  obtain ⟨next, hnext⟩ := @releaseAbandoned_ok abandoned context.dbNow key hattempt
  refine ⟨next, ?_, releaseAbandoned_status hnext⟩
  rw [releaseCommand, markStale_abandons hrunning hstale, ok_bind,
    if_pos (abandonedContext_status _ _), markStale_of_abandoned _ rfl]
  exact hnext

/-- The two ways of releasing a stale running command agree exactly when it has
    no runs: the completion planner refuses the intermediate status. -/
theorem staleRelease_agrees_iff {context : CompletionContext}
    (hrunning : context.command.status = .running) (hattempt : 1 ≤ context.command.attempt)
    (hstale : Elapsed context.dbNow executionStaleSeconds (heartbeatAnchor context.command))
    (later : Instant) (key : Bytes) :
    markStale context.command ⟨context.dbNow, false, key⟩ =
        .ok (abandonedContext context later).command ∧
      (PathsAgree nfc context later key ↔ context.runs = []) := by
  refine ⟨markStale_abandons hrunning hstale, ?_, ?_⟩
  · intro h
    obtain ⟨_, twoStep, _, htwoStep, _⟩ := h.plans
    by_contra hruns
    exact prepareStaleRecovery_abandoned hruns htwoStep
  · intro hruns
    let abandoned := abandonedContext context later
    have hdirect := @prepareStaleRecovery_idle nfc context key (.inl hrunning) hruns
    have htwoStep := @prepareStaleRecovery_idle nfc abandoned key (.inr rfl) hruns
    obtain ⟨direct, hreleased, hstatus⟩ := releaseCommand_stale key hattempt hrunning hstale
    obtain ⟨next, hnext, hsecond⟩ := @releaseCommand_abandoned abandoned.command later key
      hattempt rfl
    refine ⟨⟨none, none, hdirect, htwoStep, rfl⟩, ⟨direct, next, ?_, ?_, hstatus.trans hsecond.symm⟩⟩
    · rw [reconcileContext, reconcileCommand, if_neg (fun h => h.2 hruns)]
      exact hreleased
    · rw [reconcileContext, reconcileCommand, if_neg (fun h => h.2 hruns)]
      exact hnext

end Paths

section Sample

theorem sampleContext_stale : Elapsed sampleContext.dbNow executionStaleSeconds
    (heartbeatAnchor sampleContext.command) := by decide

/-- A recoverable command with one sealed and one idle run: the direct path
    finalizes both, and the second path raises. -/
theorem staleRelease_disagrees :
    RecoverableContext sampleContext ∧
      Elapsed sampleContext.dbNow executionStaleSeconds (heartbeatAnchor sampleContext.command) ∧
      (∃ plan, prepareStaleRecovery id sampleContext [] = .ok (some plan)) ∧
      ¬PathsAgree id sampleContext sampleContext.dbNow [] := by
  refine ⟨sampleContext_recoverable, sampleContext_stale, ?_, ?_⟩
  · obtain ⟨answer, hanswer, hnone, _⟩ := @staleRecovery_complete id _ sampleContext_recoverable []
    cases answer with
    | some plan => exact ⟨plan, hanswer⟩
    | none =>
      rcases hnone.mp rfl with hruns | ⟨_, hfresh⟩
      · cases hruns
      · exact absurd sampleContext_stale hfresh
  · intro h
    obtain ⟨_, twoStep, _, htwoStep, _⟩ := h.plans
    exact prepareStaleRecovery_abandoned (by simp [sampleContext]) htwoStep

def sampleUnclaimed : CompletionContext := { sampleContext with runs := [] }

theorem staleRelease_agrees_iff_sample :
    PathsAgree id sampleUnclaimed sampleUnclaimed.dbNow [] ∧
      ¬PathsAgree id sampleContext sampleContext.dbNow [] := by
  refine ⟨?_, ?_⟩
  · exact (@staleRelease_agrees_iff id sampleUnclaimed rfl (by decide) (by decide) _ _).2.mpr rfl
  · intro h
    have hruns := (@staleRelease_agrees_iff id sampleContext rfl (by decide) (by decide) _ _).2.mp h
    cases hruns

end Sample

end PredictionMarketMonitor.StaleAgreement
