import PredictionMarketMonitor.DailyJobs

set_option autoImplicit false

/-!
# Reports and retention side by side

What one kind of daily work would do with the cron calls to itself, and when
the shared window of dates leaves it exactly that.
-/
namespace PredictionMarketMonitor.DailyIndependence

open CivilTime CollectionBase DailyJobs FallibleSteps KeyedTable Sha256

section Rows

def core (row : ScheduledJobRun) : ScheduledJobRun :=
  { row with
    leaseHash := none
    reportOutcome := none
    retentionOutcome := none
    errorCode := none }

theorem claimLocked_core {a b : ScheduledJobRun} (h : core a = core b) (observedAt : Instant)
    (lease lease' : Digest) :
    (claimLocked a observedAt lease).1.disposition =
        (claimLocked b observedAt lease').1.disposition ∧
      (claimLocked a observedAt lease).1.attempt = (claimLocked b observedAt lease').1.attempt ∧
      core (claimLocked a observedAt lease).2 = core (claimLocked b observedAt lease').2 := by
  simp only [core, ScheduledJobRun.mk.injEq, true_and] at h
  obtain ⟨hkey, hstatus, hattempt, havailable, hstarted, hheartbeat, hfinished, hcreated⟩ := h
  have hbusy : a.Busy observedAt ↔ b.Busy observedAt := by
    rw [ScheduledJobRun.Busy, ScheduledJobRun.Busy, hstatus, havailable, hstarted, hheartbeat]
  have hnext : a.nextAttempt = b.nextAttempt := by
    rw [ScheduledJobRun.nextAttempt, ScheduledJobRun.nextAttempt, hattempt, hstatus]
  rw [claimLocked, claimLocked, hstatus, hnext]
  by_cases hsucceeded : b.status = .succeeded
  · simp only [if_pos hsucceeded, core, hkey, hstatus, hattempt, havailable, hstarted, hheartbeat,
      hfinished, hcreated, and_self]
  by_cases hterminal : b.status = .failedTerminal
  · simp only [if_neg hsucceeded, if_pos hterminal, core, hkey, hstatus, hattempt, havailable,
      hstarted, hheartbeat, hfinished, hcreated, and_self]
  by_cases hheld : b.Busy observedAt
  · simp only [if_neg hsucceeded, if_neg hterminal, if_pos hheld, if_pos (hbusy.mpr hheld), core,
      hkey, hstatus, hattempt, havailable, hstarted, hheartbeat, hfinished, hcreated, and_self]
  simp only [if_neg hsucceeded, if_neg hterminal, if_neg hheld, if_neg fun h => hheld (hbusy.mp h)]
  by_cases hexhausted : b.nextAttempt > maxJobAttempts
  · simp only [if_pos hexhausted, core, hkey, hattempt, havailable, hstarted, hheartbeat, hcreated,
      and_self]
  · simp only [if_neg hexhausted, core, hkey, hcreated, and_self]

theorem completeRow_core {a b : ScheduledJobRun} (h : core a = core b) (finishedAt : Instant)
    {x y : JobCompletion} (hstatus : x.status = y.status) :
    core (completeRow a finishedAt x) = core (completeRow b finishedAt y) := by
  simp only [core, ScheduledJobRun.mk.injEq, true_and] at h
  obtain ⟨hkey, _, hattempt, havailable, hstarted, _, _, hcreated⟩ := h
  simp only [core, completeRow, hkey, hattempt, havailable, hstarted, hcreated, hstatus]

def Alike (a b : Option ScheduledJobRun) : Prop := a.map core = b.map core

theorem Alike.refl (a : Option ScheduledJobRun) : Alike a a := rfl

theorem alike_cases {a b : Option ScheduledJobRun} (h : Alike a b) :
    (a = none ∧ b = none) ∨ ∃ x y, a = some x ∧ b = some y ∧ core x = core y := by
  cases a with
  | none =>
    cases b with
    | none => exact .inl ⟨rfl, rfl⟩
    | some y => cases h
  | some x =>
    cases b with
    | none => cases h
    | some y => exact .inr ⟨x, y, rfl, rfl, Option.some.inj h⟩

theorem Alike.some {x y : ScheduledJobRun} (h : core x = core y) :
    Alike (Option.some x) (Option.some y) := congrArg Option.some h

theorem rowSucceeded_alike {a b : Option ScheduledJobRun} (h : Alike a b) :
    RowSucceeded a ↔ RowSucceeded b := by
  rcases alike_cases h with ⟨rfl, rfl⟩ | ⟨x, y, rfl, rfl, hcore⟩
  · exact Iff.rfl
  · have hstatus : (core x).status = (core y).status := congrArg ScheduledJobRun.status hcore
    change x.status = y.status at hstatus
    simp [RowSucceeded, hstatus]

theorem claimRow_alike {a b : Option ScheduledJobRun} (h : Alike a b) (key : JobKey)
    {c c' : Claiming} (htime : c.claimedAt = c'.claimedAt) :
    (claimRow a key c).1.disposition = (claimRow b key c').1.disposition ∧
      (claimRow a key c).1.attempt = (claimRow b key c').1.attempt ∧
      core (claimRow a key c).2 = core (claimRow b key c').2 := by
  rw [claimRow, claimRow, htime]
  refine claimLocked_core ?_ _ _ _
  rcases alike_cases h with ⟨rfl, rfl⟩ | ⟨x, y, rfl, rfl, hcore⟩
  · rfl
  · exact hcore

theorem executeRow_alike {α : Type} (kind : DailyKind) {a b : Option ScheduledJobRun}
    (h : Alike a b) {c c' : Claiming} (hclaimed : c.claimedAt = c'.claimedAt)
    (hfinished : c.finishedAt = c'.finishedAt) (targetDate firstPending : ℤ) (canContinue : Bool)
    (work : Reconciled α) (success : α → JobCompletion) (early correct : Option DailyJobOutcome) :
    (executeRow kind a c targetDate firstPending canContinue work success early correct).1 =
        (executeRow kind b c' targetDate firstPending canContinue work success early correct).1 ∧
      Alike (executeRow kind a c targetDate firstPending canContinue work success early correct).2
        (executeRow kind b c' targetDate firstPending canContinue work success early correct).2 := by
  rw [executeRow, executeRow]
  by_cases hearly : targetDate < firstPending
  · rw [if_pos hearly, if_pos hearly]
    exact ⟨rfl, h⟩
  by_cases hblocked : canContinue = false
  · rw [if_neg hearly, if_neg hearly, if_pos hblocked, if_pos hblocked]
    exact ⟨rfl, h⟩
  rw [if_neg hearly, if_neg hearly, if_neg hblocked, if_neg hblocked]
  obtain ⟨hdisposition, hattempt, hrow⟩ := claimRow_alike h (.daily kind targetDate) hclaimed
  dsimp only
  rw [hdisposition]
  cases (claimRow b (.daily kind targetDate) c').1.disposition with
  | succeeded => exact ⟨rfl, .some hrow⟩
  | busy => exact ⟨rfl, .some hrow⟩
  | terminal => exact ⟨rfl, .some hrow⟩
  | run =>
    cases work with
    | returned summary =>
      dsimp only
      rw [hfinished]
      exact ⟨rfl, .some (completeRow_core hrow _ rfl)⟩
    | failed =>
      dsimp only
      rw [hfinished]
      refine ⟨rfl, .some (completeRow_core hrow _ ?_)⟩
      simp only [failureStatus, hattempt]
    | raised => exact ⟨rfl, .some hrow⟩

end Rows

section Alone

structure Solo where
  rows : ℤ → Option ScheduledJobRun
  canContinue : Bool
  halted : Bool

def soloDate (input : DailyInput) (kind : DailyKind) (next : ℤ) (s : Solo) (t : ℤ) : Solo :=
  if s.halted then s
  else
    let outcome := rowOutcome input kind (s.rows t) t next s.canContinue
    { rows := Function.update s.rows t outcome.2
      canContinue := s.canContinue && outcome.1.any (fun o => o.AllowsSuccessor)
      halted := outcome.1.isNone }

def soloRun (input : DailyInput) (kind : DailyKind) (rows : ℤ → Option ScheduledJobRun)
    (next latest : ℤ) : Solo :=
  (catchUpDates next latest).foldl (soloDate input kind next) ⟨rows, true, false⟩

/-- The clock and the outcomes of one kind are the same in both calls. -/
structure SameInput (kind : DailyKind) (i j : DailyInput) : Prop where
  startedAt : i.startedAt = j.startedAt
  claimedAt : ∀ d, (i.claiming kind d).claimedAt = (j.claiming kind d).claimedAt
  finishedAt : ∀ d, (i.claiming kind d).finishedAt = (j.claiming kind d).finishedAt
  reports : kind = .dailyReport → i.reports = j.reports
  retention : kind = .retention → i.retention = j.retention
  requestedFinish : i.requested.finishedAt = j.requested.finishedAt

theorem rowOutcome_alike {kind : DailyKind} {i j : DailyInput} (hsame : SameInput kind i j)
    {a b : Option ScheduledJobRun} (h : Alike a b) (t next : ℤ) (canContinue : Bool) :
    (rowOutcome i kind a t next canContinue).1 = (rowOutcome j kind b t next canContinue).1 ∧
      Alike (rowOutcome i kind a t next canContinue).2
        (rowOutcome j kind b t next canContinue).2 := by
  cases kind with
  | dailyReport =>
    rw [rowOutcome, rowOutcome, hsame.reports rfl]
    exact executeRow_alike _ h (hsame.claimedAt t) (hsame.finishedAt t) ..
  | retention =>
    rw [rowOutcome, rowOutcome, hsame.retention rfl]
    exact executeRow_alike _ h (hsame.claimedAt t) (hsame.finishedAt t) ..

theorem soloRun_alike {kind : DailyKind} {i j : DailyInput} (hsame : SameInput kind i j)
    {rows rows' : ℤ → Option ScheduledJobRun} (h : ∀ d, Alike (rows d) (rows' d))
    (next latest : ℤ) (d : ℤ) :
    Alike ((soloRun i kind rows next latest).rows d) ((soloRun j kind rows' next latest).rows d) := by
  rw [soloRun, soloRun]
  generalize catchUpDates next latest = dates
  have hfold (canContinue halted : Bool) :
      ∀ d, Alike ((dates.foldl (soloDate i kind next) ⟨rows, canContinue, halted⟩).rows d)
        ((dates.foldl (soloDate j kind next) ⟨rows', canContinue, halted⟩).rows d) := by
    induction dates generalizing rows rows' canContinue halted with
    | nil => exact h
    | cons t dates ih =>
      rw [List.foldl_cons, List.foldl_cons, soloDate, soloDate]
      by_cases hhalted : halted = true
      · rw [if_pos hhalted, if_pos hhalted]
        exact ih h canContinue halted
      · rw [if_neg hhalted, if_neg hhalted]
        obtain ⟨hstatus, hrow⟩ := rowOutcome_alike hsame (h t) t next canContinue
        dsimp only
        rw [hstatus]
        refine ih (fun d => ?_) _ _
        by_cases hd : d = t
        · subst hd
          rw [Function.update_self, Function.update_self]
          exact hrow
        · rw [Function.update_of_ne hd, Function.update_of_ne hd]
          exact h d
  exact hfold true false d

def Raises (input : DailyInput) (d : ℤ) : DailyKind → Prop
  | .dailyReport => input.reports d = .raised
  | .retention => input.retention d = .raised

def peer : DailyKind → DailyKind
  | .dailyReport => .retention
  | .retention => .dailyReport

theorem executeRow_none {α : Type} {kind : DailyKind} {stored : Option ScheduledJobRun}
    {c : Claiming} {t next : ℤ} {canContinue : Bool} {work : Reconciled α}
    {success : α → JobCompletion} {early correct : Option DailyJobOutcome}
    (h : (executeRow kind stored c t next canContinue work success early correct).1 = none) :
    early = none ∨ correct = none ∨ work = .raised := by
  rw [executeRow] at h
  by_cases hearly : t < next
  · rw [if_pos hearly] at h
    exact .inl h
  by_cases hblocked : canContinue = false
  · rw [if_neg hearly, if_pos hblocked] at h
    cases h
  rw [if_neg hearly, if_neg hblocked] at h
  dsimp only at h
  cases hdisposition : (claimRow stored (.daily kind t) c).1.disposition with
  | succeeded =>
    simp only [hdisposition] at h
    exact .inr (.inl h)
  | busy =>
    simp only [hdisposition] at h
    cases h
  | terminal =>
    simp only [hdisposition] at h
    cases h
  | run =>
    simp only [hdisposition] at h
    cases work with
    | returned summary => cases h
    | failed => cases h
    | raised => exact .inr (.inr rfl)

theorem correctionOutcome_none {work : Reconciled ReportSummary}
    (h : correctionOutcome work = none) : work = .raised := by
  cases work with
  | returned summary => cases h
  | failed => cases h
  | raised => rfl

theorem rowOutcome_none {input : DailyInput} {kind : DailyKind} {stored : Option ScheduledJobRun}
    {t next : ℤ} {canContinue : Bool}
    (h : (rowOutcome input kind stored t next canContinue).1 = none) : Raises input t kind := by
  cases kind with
  | dailyReport =>
    rcases executeRow_none h with h | h | h
    · exact correctionOutcome_none h
    · exact correctionOutcome_none h
    · exact h
  | retention =>
    rcases executeRow_none h with h | h | h
    · cases h
    · cases h
    · exact h

/-- The shared loop and the loop of one kind are at the same point. -/
structure Follows (kind : DailyKind) (p : Progress) (s : Solo) : Prop where
  rows : ∀ d, p.jobs.find? (.daily kind d) = s.rows d
  halted : p.halted = s.halted
  canContinue : s.halted = false → p.can kind = s.canContinue

theorem follows_date {input : DailyInput} {plan : DailyPlan} {kind : DailyKind} {t : ℤ}
    {p : Progress} {s : Solo} (h : Follows kind p s) (hpeer : ¬ Raises input t (peer kind)) :
    Follows kind (runDate input plan p t) (soloDate input kind (plan.next kind) s t) := by
  by_cases hhalted : s.halted = true
  · rw [runDate_halted (h.halted.trans hhalted), soloDate, if_pos hhalted]
    exact h
  have hrunning : s.halted = false := by simpa using hhalted
  have hfacts := runDate_facts input plan t (h.halted.trans hrunning)
  have hown : p.outcome input plan t kind =
      rowOutcome input kind (s.rows t) t (plan.next kind) s.canContinue := by
    rw [Progress.outcome, h.rows t, h.canContinue hrunning]
  have hnone (k : DailyKind) (hk : (p.outcome input plan t k).1 = none) : k = kind := by
    by_contra hne
    have hother : k = peer kind := by
      cases k <;> cases kind <;> first | rfl | exact absurd rfl hne
    rw [hother] at hk
    exact hpeer (rowOutcome_none hk)
  generalize runDate input plan p t = q at hfacts ⊢
  have hrow : q.jobs.find? (.daily kind t) =
      (rowOutcome input kind (s.rows t) t (plan.next kind) s.canContinue).2 := by
    rw [← hown]
    cases kind with
    | dailyReport => exact hfacts.report
    | retention =>
      refine hfacts.retention fun hreport => ?_
      have hkind := hnone .dailyReport hreport
      cases hkind
  rw [soloDate, if_neg hhalted]
  refine ⟨fun d => ?_, ?_, fun hcontinues => ?_⟩
  · dsimp only
    by_cases hd : d = t
    · subst hd
      rw [Function.update_self]
      exact hrow
    · rw [Function.update_of_ne hd, runDate_other hfacts kind hd]
      exact h.rows d
  · dsimp only
    rw [← hown, Bool.eq_iff_iff, hfacts.halted, Option.isNone_iff_eq_none]
    constructor
    · rintro ⟨k, hk⟩
      rwa [hnone k hk] at hk
    · intro hk
      exact ⟨kind, hk⟩
  · have hq : q.halted = false := by
      by_contra hq
      obtain ⟨k, hk⟩ := hfacts.halted.mp (by simpa using hq)
      rw [hnone k hk, hown] at hk
      dsimp only at hcontinues
      rw [hk] at hcontinues
      cases hcontinues
    obtain ⟨o, ho, hcan⟩ := hfacts.continues hq kind
    dsimp only
    rw [hcan, h.canContinue hrunning, ← hown, ho]
    rfl

theorem follows_dates {input : DailyInput} {plan : DailyPlan} {kind : DailyKind} {dates : List ℤ}
    {p : Progress} {s : Solo} (h : Follows kind p s)
    (hpeer : ∀ t ∈ dates, ¬ Raises input t (peer kind)) :
    Follows kind (dates.foldl (runDate input plan) p)
      (dates.foldl (soloDate input kind (plan.next kind)) s) := by
  induction dates generalizing p s with
  | nil => exact h
  | cons t dates ih =>
    rw [List.foldl_cons, List.foldl_cons]
    exact ih (follows_date h (hpeer t List.mem_cons_self))
      fun u hu => hpeer u (List.mem_cons_of_mem t hu)

def CorrectionReturns (input : DailyInput) (kind : DailyKind) (t : ℤ) : Prop :=
  kind = .dailyReport → ∃ summary, input.reports t = .returned summary

theorem soloDate_early {input : DailyInput} {kind : DailyKind} {next t : ℤ} {s : Solo}
    (hrunning : s.halted = false) (hearly : t < next) (hreturns : CorrectionReturns input kind t) :
    soloDate input kind next s t = s := by
  have hrow : (rowOutcome input kind (s.rows t) t next s.canContinue).2 = s.rows t :=
    rowOutcome_idle (.inl hearly)
  have hstatus : ∃ o, (rowOutcome input kind (s.rows t) t next s.canContinue).1 = some o ∧
      o.AllowsSuccessor := by
    cases kind with
    | dailyReport =>
      obtain ⟨summary, hsummary⟩ := hreturns rfl
      rw [rowOutcome, executeRow, if_pos hearly, hsummary]
      exact ⟨_, rfl, .inl rfl⟩
    | retention =>
      rw [rowOutcome, executeRow, if_pos hearly]
      exact ⟨_, rfl, .inr rfl⟩
  obtain ⟨o, ho, hallows⟩ := hstatus
  obtain ⟨rows, canContinue, halted⟩ := s
  obtain rfl : halted = false := hrunning
  rw [soloDate, if_neg Bool.false_ne_true]
  dsimp only at hrow ho ⊢
  rw [hrow, ho, Function.update_eq_self]
  simp [hallows]

theorem soloDates_early {input : DailyInput} {kind : DailyKind} {next : ℤ} {dates : List ℤ}
    {s : Solo} (hrunning : s.halted = false)
    (hearly : ∀ t ∈ dates, t < next ∧ CorrectionReturns input kind t) :
    dates.foldl (soloDate input kind next) s = s := by
  induction dates with
  | nil => rfl
  | cons t dates ih =>
    have hhead := hearly t List.mem_cons_self
    rw [List.foldl_cons, soloDate_early hrunning hhead.1 hhead.2]
    exact ih fun u hu => hearly u (List.mem_cons_of_mem t hu)

theorem settled_dates {input : DailyInput} {plan : DailyPlan} {kind : DailyKind} {jobs : Jobs}
    {dates : List ℤ} {p : Progress}
    (hrows : ∀ d, p.jobs.find? (.daily kind d) = jobs.find? (.daily kind d))
    (hsettled : ∀ t ∈ dates, t < plan.next kind ∨ Succeeded jobs kind t) (d : ℤ) :
    (dates.foldl (runDate input plan) p).jobs.find? (.daily kind d) =
      jobs.find? (.daily kind d) := by
  induction dates generalizing p with
  | nil => exact hrows d
  | cons t dates ih =>
    rw [List.foldl_cons]
    refine ih (fun d => ?_) fun u hu => hsettled u (List.mem_cons_of_mem t hu)
    by_cases hhalted : p.halted = true
    · rw [runDate_halted hhalted]
      exact hrows d
    have hfacts := runDate_facts input plan t (by simpa using hhalted)
    by_cases hd : d = t
    · subst hd
      rw [← hrows d]
      rcases runDate_row hfacts kind with hrow | hrow
      · exact hrow
      · rw [hrow, Progress.outcome]
        rcases hsettled d List.mem_cons_self with hearly | hdone
        · exact rowOutcome_idle (.inl hearly)
        · refine rowOutcome_succeeded ?_
          rw [hrows d]
          exact hdone
    · rw [runDate_other hfacts kind hd]
      exact hrows d

theorem settled_solo {input : DailyInput} {kind : DailyKind} {next : ℤ} {dates : List ℤ}
    {s : Solo} (hsettled : ∀ t ∈ dates, RowSucceeded (s.rows t)) :
    (dates.foldl (soloDate input kind next) s).rows = s.rows := by
  induction dates generalizing s with
  | nil => rfl
  | cons t dates ih =>
    have hstep : (soloDate input kind next s t).rows = s.rows := by
      by_cases hhalted : s.halted = true
      · rw [soloDate, if_pos hhalted]
      · rw [soloDate, if_neg hhalted]
        dsimp only
        rw [rowOutcome_succeeded (hsettled t List.mem_cons_self), Function.update_eq_self]
    rw [List.foldl_cons, ih fun u hu => ?_, hstep]
    rw [hstep]
    exact hsettled u (List.mem_cons_of_mem t hu)

/-- The window that covers a kind's own dates begins with earlier ones and ends
    with exactly them. -/
theorem catchUpDates_split {first next latest : ℤ} (hfirst : first ≤ next) (hnext : next ≤ latest)
    (hcovers : ∀ d ∈ catchUpDates next latest, d ∈ catchUpDates first latest) :
    catchUpDates first latest =
      consecutive first (next - first).toNat ++ catchUpDates next latest := by
  have hlast := hcovers (min (next + 6) latest) (mem_catchUpDates.mpr (by omega))
  have hend := mem_catchUpDates.mp hlast
  rw [catchUpDates_eq, catchUpDates_eq]
  have hcount : (min 7 (latest - first + 1)).toNat =
      (next - first).toNat + (min 7 (latest - next + 1)).toNat := by omega
  have hstart : first + ((next - first).toNat : ℤ) = next := by omega
  rw [hcount, consecutive_add, hstart]

/-- The call leaves the kind what it would do alone: it is up to date, or its own
    dates lie in the shared window, the corrections before them return and the
    peer is not cut off. -/
def Unhindered (kind : DailyKind) (jobs : Jobs) (input : DailyInput) : Prop :=
  let latest := latestCompleteDate input.startedAt
  let plan := planDaily jobs latest
  let dates := catchUpDates plan.firstTarget latest
  latestSucceededDate jobs kind latest = some latest ∨
    ((∀ d ∈ catchUpDates (plan.next kind) latest, d ∈ dates) ∧
      (∀ d ∈ dates, ¬ Raises input d (peer kind)) ∧
      ∀ d ∈ dates, d < plan.next kind → CorrectionReturns input kind d)

theorem runDates_alone {input : DailyInput} {kind : DailyKind} {jobs : Jobs}
    (h : Unhindered kind jobs input) (d : ℤ) :
    (runDates input jobs (latestCompleteDate input.startedAt)).jobs.find? (.daily kind d) =
      (soloRun input kind (fun d => jobs.find? (.daily kind d))
        (nextDate (latestSucceededDate jobs kind (latestCompleteDate input.startedAt))
          (latestCompleteDate input.startedAt)) (latestCompleteDate input.startedAt)).rows d := by
  rw [Unhindered] at h
  generalize latestCompleteDate input.startedAt = latest at h ⊢
  rcases h with hlast | ⟨hcovers, hpeer, hreturns⟩
  · have hdone : Succeeded jobs kind latest := (latestSucceededDate_eq_some.mp hlast).1.1
    have hnext : nextDate (some latest) latest = latest := min_eq_right (by omega)
    have hplan : (planDaily jobs latest).next kind = latest := by
      rw [planDaily_next, hlast, hnext]
    rw [hlast, hnext, soloRun, settled_solo]
    · refine settled_dates (fun _ => rfl) (fun t ht => ?_) d
      have hmem := mem_catchUpDates.mp ht
      by_cases hlt : t < latest
      · exact .inl (by rw [hplan]; exact hlt)
      · obtain rfl : t = latest := by omega
        exact .inr hdone
    · intro t ht
      have hmem := mem_catchUpDates.mp ht
      obtain rfl : t = latest := by omega
      exact hdone
  · have hnext : (planDaily jobs latest).next kind ≤ latest := by
      rw [planDaily_next]
      exact nextDate_le _
    have hstart : Follows kind ⟨jobs, true, true, [], false⟩
        ⟨fun d => jobs.find? (.daily kind d), true, false⟩ :=
      ⟨fun _ => rfl, rfl, fun _ => by cases kind <;> rfl⟩
    have hfollows := @follows_dates input (planDaily jobs latest) kind _ _ _ hstart hpeer
    have hsplit := catchUpDates_split (firstTarget_le kind) hnext hcovers
    have hbefore (t : ℤ) (ht : t ∈ consecutive (planDaily jobs latest).firstTarget
        ((planDaily jobs latest).next kind - (planDaily jobs latest).firstTarget).toNat) :
        t < (planDaily jobs latest).next kind ∧ CorrectionReturns input kind t := by
      have hmem := mem_consecutive.mp ht
      have hearly : t < (planDaily jobs latest).next kind := by omega
      refine ⟨hearly, hreturns t ?_ hearly⟩
      rw [hsplit]
      exact List.mem_append_left _ ht
    have hsolo : (catchUpDates (planDaily jobs latest).firstTarget latest).foldl
        (soloDate input kind ((planDaily jobs latest).next kind))
          ⟨fun d => jobs.find? (.daily kind d), true, false⟩ =
        soloRun input kind (fun d => jobs.find? (.daily kind d)) ((planDaily jobs latest).next kind)
          latest := by
      rw [hsplit, List.foldl_append, soloDates_early rfl hbefore]
      rfl
    have hrows := hfollows.rows d
    rw [hsolo] at hrows
    rw [← planDaily_next]
    exact hrows

end Alone

section Requested

def requestView (row : ScheduledJobRun) : Option ScheduledJobRun :=
  if Eligible row.status then some (core row) else none

/-- The rows of one kind, and the waiting reconciliations, are the same. -/
structure AlikeFor (kind : DailyKind) (s t : Jobs) : Prop where
  daily : ∀ d, Alike (s.find? (.daily kind d)) (t.find? (.daily kind d))
  requested : ∀ jobId, (s.find? (.requested jobId)).map requestView =
    (t.find? (.requested jobId)).map requestView

variable {kind : DailyKind} {s t : Jobs}

theorem AlikeFor.refl (s : Jobs) : AlikeFor kind s s := ⟨fun _ => rfl, fun _ => rfl⟩

theorem AlikeFor.symm (h : AlikeFor kind s t) : AlikeFor kind t s :=
  ⟨fun d => Eq.symm (h.daily d), fun jobId => (h.requested jobId).symm⟩

theorem requestView_congr {x y : ScheduledJobRun} (h : core x = core y) :
    requestView x = requestView y := by
  have hstatus : (core x).status = (core y).status := congrArg ScheduledJobRun.status h
  change x.status = y.status at hstatus
  rw [requestView, requestView, hstatus, h]

theorem due_core {x y : ScheduledJobRun} (h : core x = core y) (observedAt : Instant) :
    Due observedAt x ↔ Due observedAt y := by
  have hkey : (core x).key = (core y).key := congrArg ScheduledJobRun.key h
  have hstatus : (core x).status = (core y).status := congrArg ScheduledJobRun.status h
  have havailable : (core x).availableAt = (core y).availableAt :=
    congrArg ScheduledJobRun.availableAt h
  change x.key = y.key at hkey
  change x.status = y.status at hstatus
  change x.availableAt = y.availableAt at havailable
  rw [Due, Due, hkey, hstatus, havailable]

theorem before_core {x y z w : ScheduledJobRun} (hx : core x = core y) (hz : core z = core w) :
    Before x z ↔ Before y w := by
  have hkey : (core x).key = (core y).key := congrArg ScheduledJobRun.key hx
  have hcreated : (core x).createdAt = (core y).createdAt := congrArg ScheduledJobRun.createdAt hx
  have hkey' : (core z).key = (core w).key := congrArg ScheduledJobRun.key hz
  have hcreated' : (core z).createdAt = (core w).createdAt := congrArg ScheduledJobRun.createdAt hz
  change x.key = y.key at hkey
  change x.createdAt = y.createdAt at hcreated
  change z.key = w.key at hkey'
  change z.createdAt = w.createdAt at hcreated'
  rw [Before, Before, hkey, hcreated, hkey', hcreated']

theorem due_counterpart (h : AlikeFor kind s t) {observedAt : Instant} {x : ScheduledJobRun}
    (hx : x ∈ s.rows.filter (Due observedAt)) :
    ∃ y ∈ t.rows.filter (Due observedAt), core x = core y := by
  obtain ⟨hmem, hdue⟩ := List.mem_filter.mp hx
  have hdue : Due observedAt x := of_decide_eq_true hdue
  cases hkey : x.key with
  | daily k d =>
    have hrequested := hdue.1
    rw [hkey] at hrequested
    cases hrequested
  | requested jobId =>
    have hview := h.requested jobId
    rw [Table.find?_eq_some.mpr ⟨hmem, hkey⟩, Option.map_some, requestView, if_pos hdue.2.1] at hview
    obtain ⟨y, hy, hyview⟩ := Option.map_eq_some_iff.mp hview.symm
    rw [requestView] at hyview
    by_cases heligible : Eligible y.status
    · rw [if_pos heligible] at hyview
      have hcore : core x = core y := (Option.some.inj hyview).symm
      exact ⟨y, List.mem_filter.mpr ⟨(Table.find?_eq_some.mp hy).1,
        decide_eq_true ((due_core hcore observedAt).mp hdue)⟩, hcore⟩
    · rw [if_neg heligible] at hyview
      cases hyview

theorem earliest_eq_none {jobs : List ScheduledJobRun} (h : earliest jobs = none) : jobs = [] := by
  cases jobs with
  | nil => rfl
  | cons job rest =>
    rw [earliest] at h
    cases hrest : earliest rest with
    | none =>
      rw [hrest] at h
      cases h
    | some other =>
      rw [hrest] at h
      cases h

theorem before_refl (a : ScheduledJobRun) : Before a a := .inr ⟨rfl, le_refl _⟩

theorem before_trans {a b c : ScheduledJobRun} (h : Before a b) (k : Before b c) : Before a c := by
  unfold Before at h k ⊢
  rcases h with h | ⟨h, hid⟩
  · rcases k with k | ⟨k, _⟩
    · exact .inl (h.trans k)
    · exact .inl (by rw [← k]; exact h)
  · rcases k with k | ⟨k, kid⟩
    · exact .inl (by rw [h]; exact k)
    · exact .inr ⟨h.trans k, hid.trans kid⟩

theorem before_total (a b : ScheduledJobRun) : Before a b ∨ Before b a := by
  unfold Before
  rcases lt_trichotomy a.createdAt b.createdAt with h | h | h
  · exact .inl (.inl h)
  · rcases le_total (((requestId? a.key).map BitVec.toNat).getD 0)
        (((requestId? b.key).map BitVec.toNat).getD 0) with hid | hid
    · exact .inl (.inr ⟨h, hid⟩)
    · exact .inr (.inr ⟨h.symm, hid⟩)
  · exact .inr (.inl h)

theorem earliest_before {jobs : List ScheduledJobRun} {job : ScheduledJobRun}
    (h : earliest jobs = some job) : ∀ other ∈ jobs, Before job other := by
  induction jobs generalizing job with
  | nil => cases h
  | cons head rest ih =>
    rw [earliest] at h
    cases hrest : earliest rest with
    | none =>
      rw [hrest] at h
      obtain rfl := Option.some.inj h
      rw [earliest_eq_none hrest]
      intro other hother
      rw [List.mem_singleton.mp hother]
      exact before_refl _
    | some first =>
      rw [hrest] at h
      obtain rfl := Option.some.inj h
      intro other hother
      by_cases hbefore : Before head first
      · rw [if_pos hbefore]
        rcases List.mem_cons.mp hother with rfl | hother
        · exact before_refl _
        · exact before_trans hbefore (ih hrest other hother)
      · rw [if_neg hbefore]
        rcases List.mem_cons.mp hother with rfl | hother
        · exact (before_total other first).resolve_left hbefore
        · exact ih hrest other hother

theorem key_of_before {a b : ScheduledJobRun} (ha : (requestId? a.key).isSome = true)
    (hb : (requestId? b.key).isSome = true) (hab : Before a b) (hba : Before b a) :
    a.key = b.key := by
  cases hkey : a.key with
  | daily k d =>
    rw [hkey] at ha
    cases ha
  | requested jobId =>
    cases hkey' : b.key with
    | daily k d =>
      rw [hkey'] at hb
      cases hb
    | requested other =>
      rw [Before, hkey, hkey'] at hab
      rw [Before, hkey, hkey'] at hba
      simp only [requestId?, Option.map_some, Option.getD_some] at hab hba
      have hnat : jobId.toNat = other.toNat := by
        rcases hab with hab | ⟨hcreated, hab⟩
        · rcases hba with hba | ⟨hba, _⟩
          · exact absurd (hab.trans hba) (lt_irrefl _)
          · rw [hba] at hab
            exact absurd hab (lt_irrefl _)
        · rcases hba with hba | ⟨_, hba⟩
          · rw [hcreated] at hba
            exact absurd hba (lt_irrefl _)
          · exact le_antisymm hab hba
      rw [BitVec.eq_of_toNat_eq hnat]

theorem claimReconciliation_alike (h : AlikeFor kind s t) (observedAt : Instant)
    (lease lease' : Digest) :
    (claimReconciliation s observedAt lease = none ∧
        claimReconciliation t observedAt lease' = none) ∨
      ∃ x y, core x = core y ∧ (requestId? x.key).isSome = true ∧
        s.find? x.key = some x ∧ t.find? x.key = some y ∧
        claimReconciliation s observedAt lease = some (claimStored s x observedAt lease) ∧
        claimReconciliation t observedAt lease' = some (claimStored t y observedAt lease') := by
  rw [claimReconciliation, claimReconciliation]
  cases hs : earliest (s.rows.filter (Due observedAt)) with
  | none =>
    left
    refine ⟨rfl, ?_⟩
    cases ht : earliest (t.rows.filter (Due observedAt)) with
    | none => rfl
    | some z =>
      obtain ⟨w, hw, _⟩ := due_counterpart h.symm (earliest_mem ht)
      rw [earliest_eq_none hs] at hw
      cases hw
  | some x =>
    right
    have hxmem := earliest_mem hs
    obtain ⟨y, hy, hxy⟩ := due_counterpart h hxmem
    cases ht : earliest (t.rows.filter (Due observedAt)) with
    | none =>
      rw [earliest_eq_none ht] at hy
      cases hy
    | some z =>
      have hzmem := earliest_mem ht
      obtain ⟨w, hw, hzw⟩ := due_counterpart h.symm hzmem
      have hzy : Before z y := earliest_before ht y hy
      have hyz : Before y z := (before_core hxy hzw.symm).mp (earliest_before hs w hw)
      obtain ⟨hxs, hxdue⟩ := List.mem_filter.mp hxmem
      obtain ⟨hyt, hydue⟩ := List.mem_filter.mp hy
      obtain ⟨hzt, hzdue⟩ := List.mem_filter.mp hzmem
      have hydue : Due observedAt y := of_decide_eq_true hydue
      have hzdue : Due observedAt z := of_decide_eq_true hzdue
      have hxdue : Due observedAt x := of_decide_eq_true hxdue
      have hsame : z = y :=
        Table.eq_of_key hzt hyt (key_of_before hzdue.1 hydue.1 hzy hyz)
      have hkey : (core x).key = (core y).key := congrArg ScheduledJobRun.key hxy
      change x.key = y.key at hkey
      refine ⟨x, y, hxy, hxdue.1, Table.find?_of_mem hxs, ?_, rfl, by rw [hsame]; rfl⟩
      rw [hkey]
      exact Table.find?_of_mem hyt

def forcedDates (latest : ℤ) : List ℤ := catchUpDates (latest - (maxCatchUpDays - 1)) latest

def ForcedRaises (input : DailyInput) (latest : ℤ) : DailyKind → Prop
  | .dailyReport => ∃ d ∈ forcedDates latest, input.reports d = .raised
  | .retention => input.retention latest = .raised

def ForcedFails (input : DailyInput) (latest : ℤ) : DailyKind → Prop
  | .dailyReport => ∃ d ∈ forcedDates latest, input.reports d = .failed
  | .retention => input.retention latest = .failed

theorem forcedRun_cases (input : DailyInput) (latest : ℤ) :
    ((∃ kind, ForcedRaises input latest kind) ∧ forcedRun input latest = none) ∨
      ((∀ kind, ¬ ForcedRaises input latest kind) ∧ ∃ failed successes note,
        forcedRun input latest = some (failed, successes, note) ∧
          (failed = true ↔ ∃ kind, ForcedFails input latest kind)) := by
  rw [forcedRun]
  by_cases hraised : (∃ d ∈ forcedDates latest, input.reports d = .raised) ∨
      input.retention latest = .raised
  · left
    refine ⟨?_, if_pos hraised⟩
    rcases hraised with h | h
    · exact ⟨.dailyReport, h⟩
    · exact ⟨.retention, h⟩
  · right
    obtain ⟨hreports, hretention⟩ := not_or.mp hraised
    refine ⟨fun kind => by cases kind; exacts [hreports, hretention], ?_⟩
    rw [forcedDates] at hraised
    rw [if_neg hraised]
    cases hwork : input.retention latest with
    | raised => exact absurd hwork hretention
    | failed =>
      refine ⟨_, _, _, rfl, fun _ => ⟨.retention, hwork⟩, fun _ => rfl⟩
    | returned summary =>
      refine ⟨_, _, _, rfl, fun h => ⟨.dailyReport, ?_⟩, ?_⟩
      · rw [ForcedFails, forcedDates]
        exact of_decide_eq_true h
      rintro ⟨kind, hfails⟩
      cases kind with
      | dailyReport =>
        rw [ForcedFails, forcedDates] at hfails
        exact decide_eq_true hfails
      | retention =>
        rw [ForcedFails, hwork] at hfails
        cases hfails

/-- The peer's part of a forced run leaves no trace on the kind: the kind itself
    cuts the run off, or the peer does not cut it off, and does not alone make an
    unfinished attempt retryable. -/
def ForcedAlone (kind : DailyKind) (input : DailyInput) (latest : ℤ) (attempt : ℕ) : Prop :=
  ForcedRaises input latest kind ∨
    (¬ ForcedRaises input latest (peer kind) ∧
      (¬ ForcedFails input latest (peer kind) ∨ ForcedFails input latest kind ∨
        maxJobAttempts ≤ attempt))

open Classical in
noncomputable def soloRequested (kind : DailyKind) (input : DailyInput) (latest : ℤ)
    (row : ScheduledJobRun) (attempt : ℕ) : Option ScheduledJobRun :=
  if ForcedRaises input latest kind then some (core row)
  else if ForcedFails input latest kind ∧ attempt < maxJobAttempts then
    some (core (completeRow row input.requested.finishedAt ⟨.failedRetryable, none, none, none⟩))
  else none

theorem exists_kind {kind : DailyKind} {P : DailyKind → Prop} :
    (∃ k, P k) ↔ P kind ∨ P (peer kind) := by
  constructor
  · rintro ⟨k, hk⟩
    cases k <;> cases kind <;> first | exact .inl hk | exact .inr hk
  · rintro (h | h)
    · exact ⟨_, h⟩
    · exact ⟨_, h⟩

theorem runRequested_view {input : DailyInput} {latest : ℤ} {jobs : Jobs} {x : ScheduledJobRun}
    {c : Claiming} (hrow : jobs.find? x.key = some (claimRow (some x) x.key c).2)
    (hrun : (claimRow (some x) x.key c).1.disposition = .run)
    (halone : ForcedAlone kind input latest (claimRow (some x) x.key c).1.attempt) :
    ((runRequested input latest (claimRow (some x) x.key c).1 jobs).find? x.key).map requestView =
      some (soloRequested kind input latest (claimRow (some x) x.key c).2
        (claimRow (some x) x.key c).1.attempt) := by
  have hrunning : (claimRow (some x) x.key c).2.status = .running := by
    unfold claimRow claimLocked at hrun ⊢
    split_ifs at hrun ⊢
    rfl
  rw [runRequested.eq_def]
  rcases forcedRun_cases input latest with ⟨hraised, hforced⟩ | ⟨hreturned, failed, successes, note,
    hforced, hfailed⟩
  · have hown : ForcedRaises input latest kind := by
      rcases halone with h | h
      · exact h
      · exact (exists_kind.mp hraised).resolve_right h.1
    rw [hforced, soloRequested, if_pos hown]
    dsimp only
    rw [hrow, Option.map_some, requestView, if_pos (.inr (.inl hrunning))]
  · have hown := hreturned kind
    have hpeer := (halone.resolve_left hown).2
    rw [hforced, soloRequested, if_neg hown]
    dsimp only
    obtain ⟨rest, hfinish, hrest, _⟩ := @finish_row jobs (some x) x.key c (by simp) hrow hrun
      input.requested.finishedAt
      { status := if failed then failureStatus (claimRow (some x) x.key c).1 else .succeeded
        reportOutcome := some (.attempted
          (catchUpDates (latest - (maxCatchUpDays - 1)) latest).length successes)
        retentionOutcome := note
        errorCode := if failed then some "daily_reconciliation_failed" else none }
    rw [hfinish, Option.getD_some, hrest, Option.map_some]
    refine congrArg some ?_
    rw [@exists_kind kind] at hfailed
    by_cases hretry : ForcedFails input latest kind ∧
        (claimRow (some x) x.key c).1.attempt < maxJobAttempts
    · have htrue : failed = true := hfailed.mpr (.inl hretry.1)
      rw [if_pos hretry, requestView, if_pos]
      · refine congrArg some (completeRow_core rfl _ ?_)
        simp only [htrue, if_true, failureStatus, if_pos hretry.2]
      · refine .inr (.inr ?_)
        simp only [completeRow, htrue, if_true, failureStatus, if_pos hretry.2]
    · rw [if_neg hretry, requestView, if_neg]
      have hstatus : (if failed then failureStatus (claimRow (some x) x.key c).1
          else JobStatus.succeeded) = .succeeded ∨ (if failed then failureStatus
            (claimRow (some x) x.key c).1 else JobStatus.succeeded) = .failedTerminal := by
        cases hvalue : failed with
        | false => exact .inl rfl
        | true =>
          right
          have hlast : ¬ (claimRow (some x) x.key c).1.attempt < maxJobAttempts := by
            rcases hfailed.mp hvalue with h | h
            · exact fun hlt => hretry ⟨h, hlt⟩
            · rcases hpeer with hp | hp | hp
              · exact absurd h hp
              · exact fun hlt => hretry ⟨hp, hlt⟩
              · exact not_lt.mpr hp
          simp only [if_true, failureStatus, if_neg hlast]
      rcases hstatus with h | h <;> simp [Eligible, completeRow, h]

end Requested

section Histories
variable {kind : DailyKind} {s t : Jobs}

def UnhinderedCall (kind : DailyKind) (jobs : Jobs) (input : DailyInput) : Prop :=
  match claimReconciliation jobs input.startedAt input.requested.lease with
  | none => Unhindered kind jobs input
  | some (claim, _) =>
    if claim.disposition = .run then
      ForcedAlone kind input (latestCompleteDate input.startedAt) claim.attempt
    else Unhindered kind jobs input

def UnhinderedEvent (kind : DailyKind) (jobs : Jobs) : Event → Prop
  | .cron input => UnhinderedCall kind jobs input
  | .request _ _ _ => True

/-- The same calls at the same times, with the same outcomes of one kind. -/
inductive SameEvent (kind : DailyKind) : Event → Event → Prop
  | cron {i j : DailyInput} (h : SameInput kind i j) : SameEvent kind (.cron i) (.cron j)
  | request (jobId request : UUID) (requestedAt : Instant) :
      SameEvent kind (.request jobId request requestedAt) (.request jobId request requestedAt)

theorem runDates_requested (input : DailyInput) (jobs : Jobs) (latest : ℤ) (jobId : UUID) :
    (runDates input jobs latest).jobs.find? (.requested jobId) =
      jobs.find? (.requested jobId) := by
  rw [runDates]
  generalize catchUpDates (planDaily jobs latest).firstTarget latest = dates
  generalize planDaily jobs latest = plan
  have hfold (p : Progress) : (dates.foldl (runDate input plan) p).jobs.find? (.requested jobId) =
      p.jobs.find? (.requested jobId) := by
    induction dates generalizing p with
    | nil => rfl
    | cons d dates ih =>
      rw [List.foldl_cons, ih]
      by_cases hhalted : p.halted = true
      · rw [runDate_halted hhalted]
      · exact (runDate_facts input plan d (by simpa using hhalted)).frame _ fun k h => by cases h
  exact hfold _

theorem latestSucceededDate_alike (h : ∀ d, Alike (s.find? (.daily kind d)) (t.find? (.daily kind d)))
    (through : ℤ) : latestSucceededDate s kind through = latestSucceededDate t kind through := by
  have hsucceeded (d : ℤ) : Succeeded s kind d ↔ Succeeded t kind d := rowSucceeded_alike (h d)
  cases hlast : latestSucceededDate t kind through with
  | none =>
    rw [latestSucceededDate_eq_none] at hlast ⊢
    simpa only [hsucceeded] using hlast
  | some last =>
    rw [latestSucceededDate_eq_some] at hlast ⊢
    simpa only [hsucceeded] using hlast

theorem runDates_alike {i j : DailyInput} (hsame : SameInput kind i j) (h : AlikeFor kind s t)
    (hs : Unhindered kind s i) (ht : Unhindered kind t j) :
    AlikeFor kind (runDates i s (latestCompleteDate i.startedAt)).jobs
      (runDates j t (latestCompleteDate j.startedAt)).jobs := by
  constructor
  · intro d
    rw [runDates_alone hs, runDates_alone ht, hsame.startedAt, latestSucceededDate_alike h.daily]
    exact soloRun_alike hsame h.daily _ _ d
  · intro jobId
    rw [runDates_requested, runDates_requested]
    exact h.requested jobId

theorem unhindered_congr {jobs other : Jobs} {input : DailyInput}
    (h : ∀ k d, other.find? (.daily k d) = jobs.find? (.daily k d))
    (hjobs : Unhindered kind jobs input) : Unhindered kind other input := by
  simpa only [Unhindered, planDaily_congr h, latestSucceededDate_congr (h kind)] using hjobs

theorem claimStored_alike (h : AlikeFor kind s t) {x y : ScheduledJobRun} (hcore : core x = core y)
    (hrequested : (requestId? x.key).isSome = true) (hx : s.find? x.key = some x)
    (hy : t.find? x.key = some y) (observedAt : Instant) (lease lease' : Digest) :
    (claimStored s x observedAt lease).1.disposition =
        (claimStored t y observedAt lease').1.disposition ∧
      AlikeFor kind (claimStored s x observedAt lease).2 (claimStored t y observedAt lease').2 := by
  obtain ⟨hdisposition, _, hrow⟩ := claimLocked_core hcore observedAt lease lease'
  have hkey : y.key = x.key := (Table.find?_eq_some.mp hy).2
  refine ⟨hdisposition, fun d => ?_, fun jobId => ?_⟩
  · have hne : JobKey.daily kind d ≠ x.key := by
      intro hd
      rw [← hd] at hrequested
      cases hrequested
    simp only [claimStored, hkey, Table.find?_update_ne hne]
    exact h.daily d
  · by_cases hsame : JobKey.requested jobId = x.key
    · rw [hsame]
      simp only [claimStored, hkey, Table.find?_update_self, hx, hy, Option.map_some]
      exact congrArg some (requestView_congr hrow)
    · simp only [claimStored, hkey, Table.find?_update_ne hsame]
      exact h.requested jobId

theorem soloRequested_alike {i j : DailyInput} (hsame : SameInput kind i j) {latest : ℤ}
    {x y : ScheduledJobRun} (hcore : core x = core y) (attempt : ℕ) :
    soloRequested kind i latest x attempt = soloRequested kind j latest y attempt := by
  have hraises : ForcedRaises i latest kind ↔ ForcedRaises j latest kind := by
    cases kind with
    | dailyReport => rw [ForcedRaises, ForcedRaises, hsame.reports rfl]
    | retention => rw [ForcedRaises, ForcedRaises, hsame.retention rfl]
  have hfails : ForcedFails i latest kind ↔ ForcedFails j latest kind := by
    cases kind with
    | dailyReport => rw [ForcedFails, ForcedFails, hsame.reports rfl]
    | retention => rw [ForcedFails, ForcedFails, hsame.retention rfl]
  rw [soloRequested, soloRequested, hcore, hsame.requestedFinish,
    completeRow_core hcore j.requested.finishedAt rfl]
  rw [propext hraises, propext hfails]

theorem claimStored_claimRow {jobs : Jobs} {x : ScheduledJobRun} (hx : jobs.find? x.key = some x)
    (c : Claiming) :
    (claimStored jobs x c.claimedAt c.lease).1 = (claimRow (some x) x.key c).1 ∧
      (claimStored jobs x c.claimedAt c.lease).2.find? x.key =
        some (claimRow (some x) x.key c).2 := by
  refine ⟨rfl, ?_⟩
  simp only [claimStored, Table.find?_update_self, hx, Option.map_some]
  rfl

theorem runRequested_alike {i j : DailyInput} (hsame : SameInput kind i j) {latest : ℤ}
    {x y : ScheduledJobRun} {observedAt : Instant} {lease lease' : Digest}
    (halike : AlikeFor kind (claimStored s x observedAt lease).2
      (claimStored t y observedAt lease').2)
    (hcore : core x = core y) (hrequested : (requestId? x.key).isSome = true)
    (hx : s.find? x.key = some x) (hy : t.find? x.key = some y)
    (hrun : (claimStored s x observedAt lease).1.disposition = .run)
    (hs : ForcedAlone kind i latest (claimStored s x observedAt lease).1.attempt)
    (ht : ForcedAlone kind j latest (claimStored t y observedAt lease').1.attempt) :
    AlikeFor kind
      (runRequested i latest (claimStored s x observedAt lease).1
        (claimStored s x observedAt lease).2)
      (runRequested j latest (claimStored t y observedAt lease').1
        (claimStored t y observedAt lease').2) := by
  have hkey : y.key = x.key := (Table.find?_eq_some.mp hy).2
  obtain ⟨hdisposition, hattempt, hrow⟩ := claimLocked_core hcore observedAt lease lease'
  have hclaimKey (jobs : Jobs) (a : ScheduledJobRun) (l : Digest) :
      (claimStored jobs a observedAt l).1.key = a.key := claimLocked_claim a observedAt l
  constructor
  · intro d
    have hne (jobs : Jobs) (a : ScheduledJobRun) (l : Digest) (ha : a.key = x.key) :
        JobKey.daily kind d ≠ (claimStored jobs a observedAt l).1.key := by
      intro h
      rw [hclaimKey, ha] at h
      rw [← h] at hrequested
      cases hrequested
    rw [runRequested_frame (hne s x lease rfl), runRequested_frame (hne t y lease' hkey)]
    exact halike.daily d
  · intro jobId
    by_cases hid : JobKey.requested jobId = x.key
    · have hsRow := claimStored_claimRow hx ⟨observedAt, observedAt, lease⟩
      have htRow := claimStored_claimRow (hkey ▸ hy : t.find? y.key = some y)
        ⟨observedAt, observedAt, lease'⟩
      have hsView := @runRequested_view kind i latest _ x _ hsRow.2 hrun hs
      have htView := @runRequested_view kind j latest _ y _ htRow.2
        (hdisposition.symm.trans hrun) ht
      rw [hkey] at htView
      rw [hid]
      refine hsView.trans (Eq.trans ?_ htView.symm)
      refine congrArg some ?_
      change soloRequested kind i latest (claimLocked x observedAt lease).2
          (claimLocked x observedAt lease).1.attempt =
        soloRequested kind j latest (claimLocked y observedAt lease').2
          (claimLocked y observedAt lease').1.attempt
      rw [hattempt]
      exact soloRequested_alike hsame hrow _
    · have hne (jobs : Jobs) (a : ScheduledJobRun) (l : Digest) (ha : a.key = x.key) :
          JobKey.requested jobId ≠ (claimStored jobs a observedAt l).1.key := by
        rw [hclaimKey, ha]
        exact hid
      rw [runRequested_frame (hne s x lease rfl), runRequested_frame (hne t y lease' hkey)]
      exact halike.requested jobId

theorem runDaily_alike {i j : DailyInput} (hsame : SameInput kind i j) (h : AlikeFor kind s t)
    (hs : UnhinderedCall kind s i) (ht : UnhinderedCall kind t j) :
    AlikeFor kind (runDaily i s) (runDaily j t) := by
  have hclaims := claimReconciliation_alike h i.startedAt i.requested.lease j.requested.lease
  rw [UnhinderedCall] at hs ht
  rw [runDaily, runDaily]
  rw [← hsame.startedAt] at ht ⊢
  rcases hclaims with ⟨hnone, hnone'⟩ | ⟨x, y, hcore, hrequested, hx, hy, hclaim, hclaim'⟩
  · rw [hnone] at hs ⊢
    rw [hnone'] at ht ⊢
    have halike := runDates_alike hsame h hs ht
    rwa [← hsame.startedAt] at halike
  · obtain ⟨hdisposition, halike⟩ := claimStored_alike h hcore hrequested hx hy i.startedAt
      i.requested.lease j.requested.lease
    have hframe := (claimReconciliation_frame hclaim).2
    have hframe' := (claimReconciliation_frame hclaim').2
    rw [hclaim] at hs ⊢
    rw [hclaim'] at ht ⊢
    dsimp only at hs ht ⊢
    by_cases hrun : (claimStored s x i.startedAt i.requested.lease).1.disposition = .run
    · have hrun' := hdisposition.symm.trans hrun
      rw [if_pos hrun] at hs ⊢
      rw [if_pos hrun'] at ht ⊢
      exact runRequested_alike hsame halike hcore hrequested hx hy hrun hs ht
    · have hrun' := fun hr => hrun (hdisposition.trans hr)
      rw [if_neg hrun] at hs ⊢
      rw [if_neg hrun'] at ht ⊢
      have hresult := runDates_alike hsame halike (unhindered_congr hframe hs)
        (unhindered_congr hframe' ht)
      rwa [← hsame.startedAt] at hresult

theorem enqueue_alike (h : AlikeFor kind s t) (jobId request : UUID) (requestedAt : Instant) :
    AlikeFor kind (handle s (.request jobId request requestedAt))
      (handle t (.request jobId request requestedAt)) := by
  have hs := enqueue_row s (queuedJob (.requested jobId) (some (.requestId request)) requestedAt)
  have ht := enqueue_row t (queuedJob (.requested jobId) (some (.requestId request)) requestedAt)
  constructor
  · intro d
    rw [handle, handle, hs.2 _ (by simp [queuedJob]), ht.2 _ (by simp [queuedJob])]
    exact h.daily d
  · intro other
    by_cases hid : other = jobId
    · subst hid
      have hview := h.requested other
      rw [handle, handle]
      change (Option.map requestView ((enqueue s (queuedJob (.requested other)
        (some (.requestId request)) requestedAt)).find? (queuedJob (.requested other)
          (some (.requestId request)) requestedAt).key)) = Option.map requestView ((enqueue t
            (queuedJob (.requested other) (some (.requestId request)) requestedAt)).find?
              (queuedJob (.requested other) (some (.requestId request)) requestedAt).key)
      rw [hs.1, ht.1]
      change (s.find? (queuedJob (.requested other) (some (.requestId request))
        requestedAt).key).map requestView = (t.find? (queuedJob (.requested other)
          (some (.requestId request)) requestedAt).key).map requestView at hview
      generalize s.find? _ = a at hview ⊢
      generalize t.find? _ = b at hview ⊢
      cases a with
      | none =>
        cases b with
        | none => rfl
        | some y => cases hview
      | some x =>
        cases b with
        | none => cases hview
        | some y => exact hview
    · have hne : JobKey.requested other ≠
          (queuedJob (.requested jobId) (some (.requestId request)) requestedAt).key :=
        fun hkey => hid (by injection hkey)
      rw [handle, handle, hs.2 _ hne, ht.2 _ hne]
      exact h.requested other

theorem run_alike {events events' : List Event} (hsame : List.Forall₂ (SameEvent kind) events events')
    (h : AlikeFor kind s t) (hs : Meets dailyStep (UnhinderedEvent kind) s events)
    (ht : Meets dailyStep (UnhinderedEvent kind) t events') :
    AlikeFor kind (run dailyStep s events) (run dailyStep t events') := by
  induction hsame generalizing s t with
  | nil => exact h
  | cons hevent _ ih =>
    obtain ⟨hcall, hs⟩ := hs
    obtain ⟨hcall', ht⟩ := ht
    rw [run_cons, run_cons]
    refine ih ?_ hs ht
    cases hevent with
    | cron hinput => exact runDaily_alike hinput h hcall hcall'
    | request jobId request requestedAt => exact enqueue_alike h jobId request requestedAt

/-- The dates attempted, the dates succeeded, and the attempts at each date. -/
structure SameProgress (kind : DailyKind) (s t : Jobs) : Prop where
  attempted : ∀ d, Planned s kind d ↔ Planned t kind d
  succeeded : ∀ d, Succeeded s kind d ↔ Succeeded t kind d
  attempts : ∀ d, Alike (s.find? (.daily kind d)) (t.find? (.daily kind d))

/-- Two histories whose calls leave a kind unhindered, with the same outcomes of
    that kind and any outcomes of its peer, make the same progress in it. -/
theorem dailyKinds_independent {jobs : Jobs} {events events' : List Event}
    (hsame : List.Forall₂ (SameEvent kind) events events')
    (hmeets : Meets dailyStep (UnhinderedEvent kind) jobs events)
    (hmeets' : Meets dailyStep (UnhinderedEvent kind) jobs events') :
    SameProgress kind (run dailyStep jobs events) (run dailyStep jobs events') := by
  have halike := run_alike hsame (.refl jobs) hmeets hmeets'
  refine ⟨fun d => ?_, fun d => rowSucceeded_alike (halike.daily d), halike.daily⟩
  rw [Planned, Planned]
  rcases alike_cases (halike.daily d) with ⟨h, h'⟩ | ⟨x, y, h, h', _⟩
  · rw [h, h']
  · rw [h, h']
    exact Iff.rfl

theorem unhinderedEvent_of_none {jobs : Jobs} {input : DailyInput}
    (hnone : (claimReconciliation jobs input.startedAt input.requested.lease).isNone = true)
    (h : Unhindered kind jobs input) : UnhinderedEvent kind jobs (.cron input) := by
  rw [UnhinderedEvent, UnhinderedCall, Option.isNone_iff_eq_none.mp hnone]
  exact h

/-- The retention pass fails on the first day of one history only. -/
theorem dailyKinds_independent_sample :
    SameProgress .dailyReport
      (run dailyStep Table.empty [.cron (noonInput 20661 appended cleaned),
        .cron (noonInput 20662 appended cleaned)])
      (run dailyStep Table.empty [.cron (noonInput 20661 appended (fun _ => .failed)),
        .cron (noonInput 20662 appended cleaned)]) := by
  have hsame (day : ℤ) (retention retention' : ℤ → Reconciled RetentionSummary) :
      SameEvent .dailyReport (.cron (noonInput day appended retention))
        (.cron (noonInput day appended retention')) :=
    .cron ⟨rfl, fun _ => rfl, fun _ => rfl, fun _ => rfl, fun h => (by cases h), rfl⟩
  refine dailyKinds_independent (.cons (hsame ..) (.cons (hsame ..) .nil)) ⟨?_, ?_, trivial⟩
    ⟨?_, ?_, trivial⟩
  all_goals
    refine unhinderedEvent_of_none ?_ (.inr ⟨?_, ?_, ?_⟩)
    · decide +kernel
    · decide +kernel
    · exact fun d _ h => by cases h
    · exact fun d _ _ _ => ⟨_, rfl⟩

/-- Nine days on which every report can be made, after a first successful day. -/
def reportDays (retention : ℤ → Reconciled RetentionSummary) : List Event :=
  .cron (noonInput 20661 appended cleaned) ::
    [20662, 20663, 20664, 20665, 20666, 20667, 20668, 20669].map
      (fun day => .cron (noonInput day appended retention))

/-- A retention date that never succeeds keeps the shared window where it is, and
    after a week no report is attempted any more. -/
theorem stuckRetention_starvesReports :
    List.Forall₂ (SameEvent .dailyReport) (reportDays cleaned) (reportDays (fun _ => .failed)) ∧
      ¬ SameProgress .dailyReport (run dailyStep Table.empty (reportDays cleaned))
        (run dailyStep Table.empty (reportDays (fun _ => .failed))) := by
  have hsame (day : ℤ) (retention retention' : ℤ → Reconciled RetentionSummary) :
      SameEvent .dailyReport (.cron (noonInput day appended retention))
        (.cron (noonInput day appended retention')) :=
    .cron ⟨rfl, fun _ => rfl, fun _ => rfl, fun _ => rfl, fun h => (by cases h), rfl⟩
  constructor
  · refine .cons (hsame ..) ?_
    rw [List.forall₂_map_left_iff, List.forall₂_map_right_iff]
    exact List.forall₂_same.mpr fun day _ => hsame ..
  · intro h
    have hattempted := (h.attempted 20668).mp (by decide +kernel)
    exact absurd hattempted (by decide +kernel)

end Histories

end PredictionMarketMonitor.DailyIndependence
