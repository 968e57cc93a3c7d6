import PredictionMarketMonitor.DailyIndependence

set_option autoImplicit false

/-!
# Corrections of the trailing window

Which dates a cron call reconciles again, and when these are all the dates of
the trailing seven days whose report has succeeded.
-/
namespace PredictionMarketMonitor.TrailingCorrections

open CivilTime CollectionBase DailyIndependence DailyJobs FallibleSteps KeyedTable Sha256

/-- The claim of a date leads to the coordinator: for its first report, or for a correction. -/
def ClaimCalls (input : DailyInput) (jobs : Jobs) (t : ℤ) : Prop :=
  ∃ claimed ∈ claim jobs .dailyReport t (input.claiming .dailyReport t).claimedAt
    (input.claiming .dailyReport t).lease,
      claimed.1.disposition = .run ∨ claimed.1.disposition = .succeeded

instance (input : DailyInput) (jobs : Jobs) (t : ℤ) : Decidable (ClaimCalls input jobs t) :=
  Option.decidableExistsMem _

/-- Whether `report_outcome` calls the coordinator for a date. -/
def CallsReport (input : DailyInput) (jobs : Jobs) (t firstPending : ℤ) (canContinue : Bool) : Prop :=
  t < firstPending ∨ (canContinue = true ∧ ClaimCalls input jobs t)

instance (input : DailyInput) (jobs : Jobs) (t firstPending : ℤ) (canContinue : Bool) :
    Decidable (CallsReport input jobs t firstPending canContinue) :=
  inferInstanceAs (Decidable (_ ∨ _))

/-- Where the coordinator is not called, its answer does not matter. -/
theorem reportOutcome_uncalled {input other : DailyInput} {jobs : Jobs} {t firstPending : ℤ}
    {canContinue : Bool} (hclaiming : other.claiming = input.claiming)
    (h : ¬CallsReport input jobs t firstPending canContinue) :
    reportOutcome other jobs t firstPending canContinue =
      reportOutcome input jobs t firstPending canContinue := by
  have hlate : ¬t < firstPending := fun hearly => h (.inl hearly)
  rw [reportOutcome, reportOutcome, hclaiming, executeDate, executeDate, if_neg hlate, if_neg hlate]
  by_cases hblocked : canContinue = false
  · rw [if_pos hblocked, if_pos hblocked]
  rw [if_neg hblocked, if_neg hblocked]
  cases hclaim : claim jobs .dailyReport t (input.claiming .dailyReport t).claimedAt
      (input.claiming .dailyReport t).lease with
  | none => rfl
  | some claimed =>
    have hneither : ¬(claimed.1.disposition = .run ∨ claimed.1.disposition = .succeeded) :=
      fun hcalls => h (.inr ⟨by simpa using hblocked, claimed, hclaim, hcalls⟩)
    dsimp only
    rw [executeClaimed.eq_def, executeClaimed.eq_def]
    cases hdisposition : claimed.1.disposition with
    | run => exact absurd (.inl hdisposition) hneither
    | succeeded => exact absurd (.inr hdisposition) hneither
    | busy => rfl
    | terminal => rfl

def reportCalls (input : DailyInput) (plan : DailyPlan) : Progress → List ℤ → List ℤ
  | _, [] => []
  | p, t :: rest =>
    if p.halted then []
    else (if CallsReport input p.jobs t plan.reportNext p.reportCanContinue then [t] else []) ++
      reportCalls input plan (runDate input plan p t) rest

/-- A forced run calls the coordinator for every date, up to an exception. -/
def forcedCalls (input : DailyInput) : List ℤ → List ℤ
  | [] => []
  | t :: rest => t :: if input.reports t = .raised then [] else forcedCalls input rest

def scheduledDates (jobs : Jobs) (latest : ℤ) : List ℤ :=
  catchUpDates (planDaily jobs latest).firstTarget latest

/-- The target dates of a call, and those for which it calls the report coordinator. -/
def targetDates (input : DailyInput) (jobs : Jobs) : List ℤ × List ℤ :=
  let latest := latestCompleteDate input.startedAt
  let scheduled (jobs : Jobs) := (scheduledDates jobs latest,
    reportCalls input (planDaily jobs latest) ⟨jobs, true, true, [], false⟩ (scheduledDates jobs latest))
  match claimReconciliation jobs input.startedAt input.requested.lease with
  | none => scheduled jobs
  | some (claim, claimed) =>
    if claim.disposition = .run then (forcedDates latest, forcedCalls input (forcedDates latest))
    else scheduled claimed

def Works (input : DailyInput) : Prop :=
  ∀ d, (∃ summary, input.reports d = .returned summary) ∧ ∃ summary, input.retention d = .returned summary

def Trailing (latest d : ℤ) : Prop := latest - 6 ≤ d ∧ d ≤ latest

/-- The call produces the newest report and reconciles again every trailing date whose
    report has succeeded. -/
def TrailingCorrected (jobs : Jobs) (input : DailyInput) : Prop :=
  latestCompleteDate input.startedAt ∈ (targetDates input jobs).2 ∧
    ∀ d, Trailing (latestCompleteDate input.startedAt) d → Succeeded jobs .dailyReport d →
      d ∈ (targetDates input jobs).2

/-- An administrator's reconciliation is waiting and can be claimed. -/
def RequestDue (jobs : Jobs) (startedAt : Instant) : Prop :=
  ∃ job ∈ earliest (jobs.rows.filter (Due startedAt)),
    (claimLocked job startedAt 0).1.disposition = .run

/-- The job of a date, if there is one, has succeeded or has an attempt left that nobody holds. -/
def Claimable (stored : Option ScheduledJobRun) (claimedAt : Instant) : Prop :=
  ∀ job ∈ stored, job.status = .succeeded ∨
    (job.status ≠ .failedTerminal ∧ ¬job.Busy claimedAt ∧ job.nextAttempt ≤ maxJobAttempts)

def PendingReport (jobs : Jobs) (latest t : ℤ) : Prop :=
  nextDate (latestSucceededDate jobs .dailyReport latest) latest ≤ t ∧ t ≤ latest

/-- No kind of work is more than the window behind; the newest report has succeeded before, or
    retention has not passed a trailing date whose report has; and no report is in the way of
    the newest one. -/
structure Correcting (jobs : Jobs) (input : DailyInput) (latest : ℤ) : Prop where
  report : latest - 6 ≤ nextDate (latestSucceededDate jobs .dailyReport latest) latest
  retention : latest - 6 ≤ nextDate (latestSucceededDate jobs .retention latest) latest
  repeated : latestSucceededDate jobs .dailyReport latest = some latest ∨
    ∀ d, Trailing latest d → Succeeded jobs .dailyReport d →
      nextDate (latestSucceededDate jobs .retention latest) latest ≤ d
  claimable : ∀ t, PendingReport jobs latest t →
    Claimable (jobs.find? (.daily .dailyReport t)) (input.claiming .dailyReport t).claimedAt

section Plan
variable {jobs : Jobs} {latest : ℤ}

theorem maxCatchUpDays_pred (t : ℤ) : t - (maxCatchUpDays - 1) = t - 6 := by
  have hdays : maxCatchUpDays = 7 := rfl
  rw [hdays]
  omega

theorem mem_forcedDates {d : ℤ} : d ∈ forcedDates latest ↔ Trailing latest d := by
  rw [forcedDates, maxCatchUpDays_pred, mem_catchUpDates, Trailing]
  omega

theorem firstTarget_eq : (planDaily jobs latest).firstTarget =
    if latestSucceededDate jobs .dailyReport latest = some latest then
      min (nextDate (latestSucceededDate jobs .retention latest) latest) (latest - 6)
    else min (nextDate (latestSucceededDate jobs .dailyReport latest) latest)
      (nextDate (latestSucceededDate jobs .retention latest) latest) := by
  have hretention := @nextDate_le latest (latestSucceededDate jobs .retention latest)
  unfold planDaily
  dsimp only
  rw [maxCatchUpDays_pred]
  by_cases hlast : latestSucceededDate jobs .dailyReport latest = some latest
  · rw [if_pos hlast, if_pos hlast, hlast]
    have hnext : nextDate (some latest) latest = latest := min_eq_right (by omega)
    rw [hnext, min_eq_right hretention]
  · rw [if_neg hlast, if_neg hlast]

theorem succeeded_le_next {d : ℤ} (hle : d ≤ latest) (hd : Succeeded jobs .dailyReport d) :
    d ≤ nextDate (latestSucceededDate jobs .dailyReport latest) latest := by
  cases hlast : latestSucceededDate jobs .dailyReport latest with
  | none => exact hle
  | some last =>
    have hlatest := (latestSucceededDate_eq_some.mp hlast).2 d hd hle
    rw [nextDate]
    omega

/-- When the dates of a scheduled call are the newest one and all trailing dates whose
    report has succeeded. -/
theorem scheduledDates_trailing :
    (latest ∈ scheduledDates jobs latest ∧ ∀ d, Trailing latest d → Succeeded jobs .dailyReport d →
        d ∈ scheduledDates jobs latest) ↔
      latest - 6 ≤ nextDate (latestSucceededDate jobs .dailyReport latest) latest ∧
        latest - 6 ≤ nextDate (latestSucceededDate jobs .retention latest) latest ∧
        (latestSucceededDate jobs .dailyReport latest = some latest ∨
          ∀ d, Trailing latest d → Succeeded jobs .dailyReport d →
            nextDate (latestSucceededDate jobs .retention latest) latest ≤ d) := by
  have hreport := @nextDate_le latest (latestSucceededDate jobs .dailyReport latest)
  have hretention := @nextDate_le latest (latestSucceededDate jobs .retention latest)
  simp only [scheduledDates, mem_catchUpDates, firstTarget_eq]
  by_cases hlast : latestSucceededDate jobs .dailyReport latest = some latest
  · have hnext : nextDate (some latest) latest = latest := min_eq_right (by omega)
    rw [if_pos hlast]
    constructor
    · rintro ⟨hnewest, _⟩
      exact ⟨by rw [hlast, hnext]; omega, by omega, .inl hlast⟩
    · rintro ⟨_, hclose, _⟩
      refine ⟨by omega, fun d hd _ => ?_⟩
      rw [Trailing] at hd
      omega
  · rw [if_neg hlast]
    constructor
    · rintro ⟨hnewest, hcorrected⟩
      refine ⟨by omega, by omega, .inr fun d hd hsucceeded => ?_⟩
      -- the date comes before the next report, so retention is what reaches back to it
      have hfirst := (hcorrected d hd hsucceeded).1
      have hle := succeeded_le_next hd.2 hsucceeded
      have hne : d ≠ nextDate (latestSucceededDate jobs .dailyReport latest) latest := by
        intro heq
        cases hdate : latestSucceededDate jobs .dailyReport latest with
        | none => exact latestSucceededDate_eq_none.mp hdate d hsucceeded hd.2
        | some last =>
          have hlatest := (latestSucceededDate_eq_some.mp hdate).2 d hsucceeded hd.2
          have hbound := (latestSucceededDate_eq_some.mp hdate).1.2
          rw [hdate, nextDate] at heq
          have hend : last ≠ latest := fun h => hlast (by rw [hdate, h])
          omega
      omega
    · rintro ⟨hclose, hkept, hrepeated⟩
      refine ⟨by omega, fun d hd hsucceeded => ?_⟩
      have hpassed := hrepeated.resolve_left hlast d hd hsucceeded
      rw [Trailing] at hd
      omega

end Plan

section Calls
variable {input : DailyInput} {plan : DailyPlan}

theorem claimCalls_iff {jobs : Jobs} {t : ℤ} : ClaimCalls input jobs t ↔
    Claimable (jobs.find? (.daily .dailyReport t)) (input.claiming .dailyReport t).claimedAt := by
  obtain ⟨rest, hclaim, _⟩ := claim_row jobs .dailyReport t (input.claiming .dailyReport t)
  rw [ClaimCalls, hclaim]
  simp only [Option.mem_def, Option.some.injEq, exists_eq_left', Claimable]
  cases hfind : jobs.find? (.daily .dailyReport t) with
  | none => simp [claimRow, claimLocked, queuedJob, ScheduledJobRun.Busy, ScheduledJobRun.nextAttempt,
      maxJobAttempts]
  | some job =>
    simp only [claimRow, claimLocked, Option.getD_some, Option.some.injEq, forall_eq']
    split_ifs with hsucceeded hterminal hbusy hattempts
    · simp [hsucceeded]
    · simp [hterminal]
    · simp [hsucceeded, hbusy]
    · simp [hsucceeded, hattempts]
    · simp [hterminal, hbusy, not_lt.mp hattempts]

theorem claimable_succeeded {jobs : Jobs} {d : ℤ} (h : Succeeded jobs .dailyReport d)
    (claimedAt : Instant) : Claimable (jobs.find? (.daily .dailyReport d)) claimedAt := by
  obtain ⟨row, hrow, hstatus⟩ := h
  intro job hjob
  rw [← Option.some.inj (hrow.symm.trans hjob)]
  exact .inl hstatus

theorem reportCalls_subset {p : Progress} {dates : List ℤ} {d : ℤ}
    (h : d ∈ reportCalls input plan p dates) : d ∈ dates := by
  induction dates generalizing p with
  | nil => cases h
  | cons t rest ih =>
    rw [reportCalls] at h
    split at h
    · cases h
    · rcases List.mem_append.mp h with hhead | hrest
      · split at hhead
        · rw [List.mem_singleton.mp hhead]
          exact List.mem_cons_self
        · cases hhead
      · exact List.mem_cons_of_mem t (ih hrest)

theorem runDate_called (hworks : Works input) {p : Progress} {t : ℤ} (hrunning : p.halted = false)
    (hcan : p.reportCanContinue = true)
    (hcalls : CallsReport input p.jobs t plan.reportNext p.reportCanContinue) :
    (runDate input plan p t).halted = false ∧ (runDate input plan p t).reportCanContinue = true := by
  have hfacts := runDate_facts input plan t hrunning
  have hhalted : (runDate input plan p t).halted = false := by
    cases hvalue : (runDate input plan p t).halted with
    | false => rfl
    | true =>
      obtain ⟨kind, hnone⟩ := hfacts.halted.mp hvalue
      have hraises := rowOutcome_none hnone
      cases kind with
      | dailyReport =>
        obtain ⟨summary, hreturned⟩ := (hworks t).1
        rw [Raises, hreturned] at hraises
        cases hraises
      | retention =>
        obtain ⟨summary, hreturned⟩ := (hworks t).2
        rw [Raises, hreturned] at hraises
        cases hraises
  refine ⟨hhalted, ?_⟩
  obtain ⟨outcome, houtcome, hcontinues⟩ := hfacts.continues hhalted .dailyReport
  obtain ⟨summary, hreturned⟩ := (hworks t).1
  have hsucceeded : outcome = ⟨.succeeded, none⟩ := by
    rw [Progress.outcome, rowOutcome, executeRow, hreturned] at houtcome
    by_cases hearly : t < plan.next .dailyReport
    · rw [if_pos hearly] at houtcome
      exact (Option.some.inj houtcome).symm
    · have hblocked : ¬p.can .dailyReport = false := by simp [Progress.can, hcan]
      obtain ⟨_, claimed, hclaimed, hdisposition⟩ := hcalls.resolve_left hearly
      obtain ⟨rest, hclaim, _⟩ := claim_row p.jobs .dailyReport t (input.claiming .dailyReport t)
      obtain rfl := Option.some.inj (hclaim.symm.trans hclaimed)
      rw [if_neg hearly, if_neg hblocked] at houtcome
      dsimp only at hdisposition
      rcases hdisposition with hrun | hdone
      · simp only [hrun] at houtcome
        exact (Option.some.inj houtcome).symm
      · simp only [hdone] at houtcome
        exact (Option.some.inj houtcome).symm
  change (runDate input plan p t).reportCanContinue = (p.reportCanContinue && _) at hcontinues
  rw [hcontinues, hcan, hsucceeded]
  rfl

theorem runDate_uncalled {p : Progress} {t : ℤ} (hrunning : p.halted = false)
    (hcalls : ¬CallsReport input p.jobs t plan.reportNext p.reportCanContinue) :
    (runDate input plan p t).halted = true ∨
      (runDate input plan p t).reportCanContinue = false := by
  have hfacts := runDate_facts input plan t hrunning
  cases hhalted : (runDate input plan p t).halted with
  | true => exact .inl rfl
  | false =>
    refine .inr ?_
    obtain ⟨outcome, houtcome, hcontinues⟩ := hfacts.continues hhalted .dailyReport
    change (runDate input plan p t).reportCanContinue = (p.reportCanContinue && _) at hcontinues
    rw [hcontinues, Bool.and_eq_false_iff]
    by_cases hcan : p.reportCanContinue = false
    · exact .inl hcan
    refine .inr (decide_eq_false fun hallows => ?_)
    have hearly : ¬t < plan.next .dailyReport := fun h => hcalls (.inl h)
    have hopen : ¬p.can .dailyReport = false := hcan
    obtain ⟨rest, hclaim, _⟩ := claim_row p.jobs .dailyReport t (input.claiming .dailyReport t)
    rw [Progress.outcome, rowOutcome, executeRow, if_neg hearly, if_neg hopen] at houtcome
    have hneither (h : _ ∨ _) : False :=
      hcalls (.inr ⟨by simpa using hcan, _, hclaim, h⟩)
    cases hdisposition : (claimRow (p.jobs.find? (.daily .dailyReport t)) (.daily .dailyReport t)
        (input.claiming .dailyReport t)).1.disposition with
    | run => exact hneither (.inl hdisposition)
    | succeeded => exact hneither (.inr hdisposition)
    | busy =>
      simp only [hdisposition] at houtcome
      rw [← Option.some.inj houtcome] at hallows
      simp [DailyJobOutcome.AllowsSuccessor] at hallows
    | terminal =>
      simp only [hdisposition] at houtcome
      rw [← Option.some.inj houtcome] at hallows
      simp [DailyJobOutcome.AllowsSuccessor] at hallows

theorem claimCalls_later {p : Progress} {t u : ℤ} (hrunning : p.halted = false) (hne : u ≠ t) :
    ClaimCalls input (runDate input plan p t).jobs u ↔ ClaimCalls input p.jobs u := by
  rw [claimCalls_iff, runDate_other (runDate_facts input plan t hrunning) .dailyReport hne,
    ← claimCalls_iff]

theorem mem_reportCalls (hworks : Works input) {p : Progress} {t d : ℤ} {n : ℕ}
    (hrunning : p.halted = false) (hcan : p.reportCanContinue = true)
    (hclaims : ∀ u, t ≤ u → plan.reportNext ≤ u → u ≤ d → ClaimCalls input p.jobs u)
    (hmem : d ∈ consecutive t n) : d ∈ reportCalls input plan p (consecutive t n) := by
  induction n generalizing t p with
  | zero => cases hmem
  | succ n ih =>
    have hle := (mem_consecutive.mp hmem).1
    rw [consecutive] at hmem ⊢
    have hhalted : ¬p.halted = true := by simp [hrunning]
    have hcalls : CallsReport input p.jobs t plan.reportNext p.reportCanContinue := by
      by_cases hearly : t < plan.reportNext
      · exact .inl hearly
      · exact .inr ⟨hcan, hclaims t (le_refl t) (not_lt.mp hearly) hle⟩
    rw [reportCalls, if_neg hhalted, if_pos hcalls, List.mem_append]
    rcases List.mem_cons.mp hmem with rfl | hlater
    · exact .inl List.mem_cons_self
    · obtain ⟨hstill, hcontinues⟩ := runDate_called hworks hrunning hcan hcalls
      refine .inr (ih hstill hcontinues (fun u hfrom hnext hu => ?_) hlater)
      exact (claimCalls_later hrunning (by omega)).mpr (hclaims u (by omega) hnext hu)

theorem reportCalls_blocked {p : Progress} {dates : List ℤ} {d : ℤ}
    (hblocked : p.reportCanContinue = false) (h : d ∈ reportCalls input plan p dates) :
    d < plan.reportNext := by
  induction dates generalizing p with
  | nil => cases h
  | cons t rest ih =>
    rw [reportCalls] at h
    split at h
    · cases h
    rename_i hrunning
    have hlater (h : d ∈ reportCalls input plan (runDate input plan p t) rest) :
        d < plan.reportNext := by
      cases hhalted : (runDate input plan p t).halted with
      | true =>
        cases rest with
        | nil => cases h
        | cons u rest => rw [reportCalls, if_pos hhalted] at h; cases h
      | false =>
        obtain ⟨outcome, _, hcontinues⟩ :=
          (runDate_facts input plan t (by simpa using hrunning)).continues hhalted .dailyReport
        refine ih ?_ h
        change (runDate input plan p t).reportCanContinue = (p.reportCanContinue && _) at hcontinues
        rw [hcontinues, hblocked, Bool.false_and]
    rcases List.mem_append.mp h with hhead | hrest
    · split at hhead
      · rename_i hcalls
        rw [List.mem_singleton.mp hhead]
        refine hcalls.resolve_right fun hlate => ?_
        rw [hblocked] at hlate
        cases hlate.1
      · cases hhead
    · exact hlater hrest

theorem claimCalls_of_mem {p : Progress} {t d u : ℤ} {n : ℕ} (hrunning : p.halted = false)
    (hd : plan.reportNext ≤ d) (h : d ∈ reportCalls input plan p (consecutive t n)) (hfrom : t ≤ u)
    (hnext : plan.reportNext ≤ u) (hu : u ≤ d) : ClaimCalls input p.jobs u := by
  induction n generalizing t p with
  | zero => cases h
  | succ n ih =>
    have hhalted : ¬p.halted = true := by simp [hrunning]
    have hle := (mem_consecutive.mp (reportCalls_subset h)).1
    rw [consecutive, reportCalls, if_neg hhalted] at h
    by_cases hcalls : CallsReport input p.jobs t plan.reportNext p.reportCanContinue
    · by_cases heq : u = t
      · subst heq
        exact (hcalls.resolve_left (not_lt.mpr hnext)).2
      rw [if_pos hcalls] at h
      have hrest : d ∈ reportCalls input plan (runDate input plan p t) (consecutive (t + 1) n) := by
        refine (List.mem_append.mp h).resolve_left fun hhead => ?_
        have hsame := List.mem_singleton.mp hhead
        omega
      have hstill : (runDate input plan p t).halted = false := by
        cases hvalue : (runDate input plan p t).halted with
        | false => rfl
        | true =>
          cases n with
          | zero => cases hrest
          | succ n => rw [consecutive, reportCalls, if_pos hvalue] at hrest; cases hrest
      exact (claimCalls_later hrunning heq).mp (ih hstill hrest (by omega))
    · rw [if_neg hcalls, List.nil_append] at h
      rcases runDate_uncalled hrunning hcalls with hstopped | hblocked
      · cases n with
        | zero => cases h
        | succ n => rw [consecutive, reportCalls, if_pos hstopped] at h; cases h
      · exact absurd (reportCalls_blocked hblocked h) (not_lt.mpr hd)

theorem forcedCalls_eq (hworks : Works input) (dates : List ℤ) : forcedCalls input dates = dates := by
  induction dates with
  | nil => rfl
  | cons t rest ih =>
    obtain ⟨summary, hreturned⟩ := (hworks t).1
    rw [forcedCalls, hreturned, if_neg (fun h => by cases h), ih]

end Calls

section Results
variable {jobs : Jobs} {input : DailyInput}

theorem claimLocked_disposition (job : ScheduledJobRun) (observedAt : Instant) (lease other : Digest) :
    (claimLocked job observedAt lease).1.disposition =
      (claimLocked job observedAt other).1.disposition := by
  unfold claimLocked
  split_ifs <;> rfl

theorem requestDue_iff : RequestDue jobs input.startedAt ↔ RunsRequested jobs input := by
  rw [RequestDue, RunsRequested, claimReconciliation]
  cases earliest (jobs.rows.filter (Due input.startedAt)) with
  | none => simp
  | some job =>
    simp only [Option.map_some, Option.mem_def, Option.some.injEq, exists_eq_left']
    rw [claimLocked_disposition job input.startedAt 0 input.requested.lease]
    rfl

theorem targetDates_scheduled (h : ¬RunsRequested jobs input) : ∃ claimed : Jobs,
    (∀ kind d, claimed.find? (.daily kind d) = jobs.find? (.daily kind d)) ∧
      targetDates input jobs = (scheduledDates claimed (latestCompleteDate input.startedAt),
        reportCalls input (planDaily claimed (latestCompleteDate input.startedAt))
          ⟨claimed, true, true, [], false⟩
          (scheduledDates claimed (latestCompleteDate input.startedAt))) := by
  rw [targetDates]
  cases hclaim : claimReconciliation jobs input.startedAt input.requested.lease with
  | none => exact ⟨jobs, fun _ _ => rfl, rfl⟩
  | some claimed =>
    have hnot : ¬claimed.1.disposition = .run := fun hrun => h ⟨claimed, hclaim, hrun⟩
    refine ⟨claimed.2, (claimReconciliation_frame hclaim).2, ?_⟩
    dsimp only
    rw [if_neg hnot]

theorem targetDates_requested (h : RunsRequested jobs input) :
    targetDates input jobs = (forcedDates (latestCompleteDate input.startedAt),
      forcedCalls input (forcedDates (latestCompleteDate input.startedAt))) := by
  obtain ⟨claimed, hclaimed, hrun⟩ := h
  rw [targetDates, hclaimed]
  dsimp only
  rw [if_pos hrun]

/-- After any history, a call whose coordinators work corrects the trailing window exactly when a
    request takes it over or its plan is a correcting one. -/
theorem trailing_corrected_iff (start : Jobs) (events : List Event) {input : DailyInput}
    (hworks : Works input) :
    TrailingCorrected (run dailyStep start events) input ↔
      RequestDue (run dailyStep start events) input.startedAt ∨
        Correcting (run dailyStep start events) input (latestCompleteDate input.startedAt) := by
  generalize run dailyStep start events = jobs
  rw [TrailingCorrected]
  by_cases hrequested : RunsRequested jobs input
  · rw [targetDates_requested hrequested, forcedCalls_eq hworks]
    refine iff_of_true ⟨mem_forcedDates.mpr ?_, fun d hd _ => mem_forcedDates.mpr hd⟩
      (.inl (requestDue_iff.mpr hrequested))
    rw [Trailing]
    omega
  obtain ⟨claimed, hframe, htargets⟩ := targetDates_scheduled hrequested
  have hclaims (t : ℤ) : ClaimCalls input claimed t ↔
      Claimable (jobs.find? (.daily .dailyReport t)) (input.claiming .dailyReport t).claimedAt := by
    rw [claimCalls_iff, hframe]
  have hreport := @nextDate_le (latestCompleteDate input.startedAt)
    (latestSucceededDate jobs .dailyReport (latestCompleteDate input.startedAt))
  rw [htargets, scheduledDates, planDaily_congr hframe, catchUpDates_eq]
  dsimp only
  constructor
  · rintro ⟨hnewest, hdates⟩
    have htrailing := @scheduledDates_trailing jobs (latestCompleteDate input.startedAt)
    rw [scheduledDates, catchUpDates_eq] at htrailing
    obtain ⟨hclose, hkept, hrepeated⟩ := htrailing.mp ⟨reportCalls_subset hnewest,
      fun d hd hsucceeded => reportCalls_subset (hdates d hd hsucceeded)⟩
    refine .inr ⟨hclose, hkept, hrepeated, fun t ht => (hclaims t).mp ?_⟩
    refine claimCalls_of_mem rfl hreport hnewest ?_ ht.1 ht.2
    exact (firstTarget_le .dailyReport).trans ht.1
  · intro hplan
    have hcorrecting := hplan.resolve_left fun h => hrequested (requestDue_iff.mp h)
    obtain ⟨hnewest, hdates⟩ := scheduledDates_trailing.mpr
      ⟨hcorrecting.report, hcorrecting.retention, hcorrecting.repeated⟩
    rw [scheduledDates, catchUpDates_eq] at hnewest hdates
    refine ⟨mem_reportCalls hworks rfl rfl (fun u _ hpending hu => ?_) hnewest,
      fun d hd hsucceeded => mem_reportCalls hworks rfl rfl (fun u _ hpending hu => ?_)
        (hdates d hd hsucceeded)⟩
    · exact (hclaims u).mpr (hcorrecting.claimable u ⟨hpending, hu⟩)
    · have hlast := succeeded_le_next hd.2 hsucceeded
      obtain rfl : u = d := le_antisymm hu (hlast.trans hpending)
      exact (hclaims u).mpr (claimable_succeeded hsucceeded _)

/-- The calls of a schedule and a further one come on different days, in order. -/
def OncePerDay (events : List Event) (startedAt : Instant) : Prop :=
  ((events.filterMap Event.startedAt?).map seoulDate ++ [seoulDate startedAt]).Pairwise (· < ·)

instance (events : List Event) (startedAt : Instant) : Decidable (OncePerDay events startedAt) :=
  inferInstanceAs (Decidable (List.Pairwise _ _))

/-- A day after its first call has done both kinds of work: the second call of the day. -/
def correctedDays : List Event :=
  [.cron (noonInput 20661 appended cleaned), .cron (noonInput 20662 appended cleaned)]

theorem noonInput_works (day : ℤ) : Works (noonInput day appended cleaned) :=
  fun _ => ⟨⟨_, rfl⟩, ⟨_, rfl⟩⟩

theorem trailing_corrected_iff_sample :
    (targetDates (noonInput 20662 appended cleaned) (run dailyStep Table.empty correctedDays)).2 =
        [20655, 20656, 20657, 20658, 20659, 20660, 20661] ∧
      Succeeded (run dailyStep Table.empty correctedDays) .dailyReport 20660 ∧
      (TrailingCorrected (run dailyStep Table.empty correctedDays)
          (noonInput 20662 appended cleaned) ↔
        RequestDue (run dailyStep Table.empty correctedDays)
            (noonInput 20662 appended cleaned).startedAt ∨
          Correcting (run dailyStep Table.empty correctedDays) (noonInput 20662 appended cleaned)
            (latestCompleteDate (noonInput 20662 appended cleaned).startedAt)) :=
  ⟨by decide +kernel, by decide +kernel,
    trailing_corrected_iff Table.empty correctedDays (noonInput_works 20662)⟩

/-- On the second day only the newest date is reconciled. -/
theorem secondDay_uncorrected : ¬∀ events input, OncePerDay events input.startedAt → Works input →
    TrailingCorrected (run dailyStep Table.empty events) input := by
  intro h
  obtain ⟨_, hdates⟩ := h [.cron (noonInput 20661 appended cleaned)]
    (noonInput 20662 appended cleaned) (by decide +kernel) (noonInput_works 20662)
  exact absurd (hdates 20660 ⟨by decide, by decide⟩ (by decide +kernel)) (by decide +kernel)

end Results

end PredictionMarketMonitor.TrailingCorrections
