import PredictionMarketMonitor.CollectionBase
import PredictionMarketMonitor.FallibleSteps
import PredictionMarketMonitor.KeyedTable

set_option autoImplicit false

/-!
# Daily report and retention jobs

`app/reporting/daily*.py`. One cron call plans the dates of both kinds of daily
work from their last successful dates and runs them in ascending order, unless
an administrator's reconciliation is waiting. A date is its day number.
-/
namespace PredictionMarketMonitor.DailyJobs

open CivilTime CollectionBase FallibleSteps KeyedTable Sha256

inductive JobStatus
  | queued | running | succeeded | failedRetryable | failedTerminal
deriving DecidableEq

inductive DailyKind
  | dailyReport | retention
deriving DecidableEq

inductive JobKey
  | daily (kind : DailyKind) (target : ℤ)
  | requested (jobId : UUID)
deriving DecidableEq

structure ReportSummary where
  created : Bool
  reportId : UUID
  versionId : UUID
  revision : ℕ
deriving DecidableEq

structure RetentionSummary where
  cleanedSourceCount : ℕ
  expiredManifestCount : ℕ
  expiredTombstoneCount : ℕ
deriving DecidableEq

inductive ReportNote
  | appended (summary : ReportSummary)
  | attempted (dateCount successCount : ℕ)
  | requestId (request : UUID)
deriving DecidableEq

structure ScheduledJobRun where
  key : JobKey
  status : JobStatus
  attempt : ℕ
  availableAt : Instant
  leaseHash : Option Digest
  startedAt : Option Instant
  heartbeatAt : Option Instant
  finishedAt : Option Instant
  reportOutcome : Option ReportNote
  retentionOutcome : Option RetentionSummary
  errorCode : Option String
  createdAt : Instant
deriving DecidableEq

abbrev Jobs := Table ScheduledJobRun.key

def staleJobAfter : ℤ := seconds (15 * 60)
def maxJobAttempts : ℕ := 3
def maxCatchUpDays : ℤ := 7

inductive JobClaimDisposition
  | run | succeeded | busy | terminal
deriving DecidableEq

structure JobClaim where
  disposition : JobClaimDisposition
  key : JobKey
  attempt : ℕ
  leaseHash : Option Digest

structure JobCompletion where
  status : JobStatus
  reportOutcome : Option ReportNote
  retentionOutcome : Option RetentionSummary
  errorCode : Option String

def ScheduledJobRun.Busy (job : ScheduledJobRun) (observedAt : Instant) : Prop :=
  (job.status = .running ∧
      ∃ activityAt ∈ job.heartbeatAt.or job.startedAt, observedAt - activityAt < staleJobAfter) ∨
    (job.status = .failedRetryable ∧ job.availableAt > observedAt)

instance (job : ScheduledJobRun) (observedAt : Instant) : Decidable (job.Busy observedAt) :=
  inferInstanceAs (Decidable (_ ∨ _))

def ScheduledJobRun.nextAttempt (job : ScheduledJobRun) : ℕ :=
  job.attempt + if job.status ≠ .queued then 1 else 0

/-- `_claim_locked`: the claim, and the row as the claim leaves it. -/
def claimLocked (job : ScheduledJobRun) (observedAt : Instant) (lease : Digest) :
    JobClaim × ScheduledJobRun :=
  if job.status = .succeeded then (⟨.succeeded, job.key, job.attempt, none⟩, job)
  else if job.status = .failedTerminal then (⟨.terminal, job.key, job.attempt, none⟩, job)
  else if job.Busy observedAt then (⟨.busy, job.key, job.attempt, none⟩, job)
  else if job.nextAttempt > maxJobAttempts then
    (⟨.terminal, job.key, job.attempt, none⟩,
      { job with
        status := .failedTerminal
        finishedAt := some observedAt
        errorCode := some "daily_job_attempts_exhausted" })
  else
    (⟨.run, job.key, job.nextAttempt, some lease⟩,
      { job with
        status := .running
        attempt := job.nextAttempt
        availableAt := observedAt
        leaseHash := some lease
        startedAt := some observedAt
        heartbeatAt := some observedAt
        finishedAt := none
        reportOutcome := none
        retentionOutcome := none
        errorCode := none })

theorem claimLocked_key (job : ScheduledJobRun) (observedAt : Instant) (lease : Digest) :
    (claimLocked job observedAt lease).2.key = job.key := by
  unfold claimLocked
  split_ifs <;> rfl

def queuedJob (key : JobKey) (note : Option ReportNote) (at_ : Instant) : ScheduledJobRun where
  key := key
  status := .queued
  attempt := 1
  availableAt := at_
  leaseHash := none
  startedAt := none
  heartbeatAt := none
  finishedAt := none
  reportOutcome := note
  retentionOutcome := none
  errorCode := none
  createdAt := at_

/-- `ON CONFLICT DO NOTHING` on the idempotency key. -/
def enqueue (jobs : Jobs) (job : ScheduledJobRun) : Jobs :=
  (jobs.insert? job).getD jobs

def claimStored (jobs : Jobs) (job : ScheduledJobRun) (observedAt : Instant) (lease : Digest) :
    JobClaim × Jobs :=
  ((claimLocked job observedAt lease).1,
    jobs.update job.key (fun row => (claimLocked row observedAt lease).2)
      fun row => claimLocked_key row observedAt lease)

/-- A missing row cannot be found after the insertion; the call would raise. -/
def claim (jobs : Jobs) (kind : DailyKind) (target : ℤ) (observedAt : Instant) (lease : Digest) :
    Option (JobClaim × Jobs) :=
  let stored := enqueue jobs (queuedJob (.daily kind target) none observedAt)
  (stored.find? (.daily kind target)).map (fun job => claimStored stored job observedAt lease)

def Eligible (status : JobStatus) : Prop :=
  status = .queued ∨ status = .running ∨ status = .failedRetryable

instance (status : JobStatus) : Decidable (Eligible status) := inferInstanceAs (Decidable (_ ∨ _))

def requestId? : JobKey → Option UUID
  | .requested jobId => some jobId
  | .daily _ _ => none

def Due (observedAt : Instant) (job : ScheduledJobRun) : Prop :=
  (requestId? job.key).isSome = true ∧ Eligible job.status ∧ job.availableAt ≤ observedAt

instance (observedAt : Instant) (job : ScheduledJobRun) : Decidable (Due observedAt job) :=
  inferInstanceAs (Decidable (_ ∧ _))

/-- `ORDER BY created_at, id`. -/
def Before (a b : ScheduledJobRun) : Prop :=
  a.createdAt < b.createdAt ∨
    a.createdAt = b.createdAt ∧
      ((requestId? a.key).map BitVec.toNat).getD 0 ≤ ((requestId? b.key).map BitVec.toNat).getD 0

instance (a b : ScheduledJobRun) : Decidable (Before a b) := inferInstanceAs (Decidable (_ ∨ _))

/-- `LIMIT 1`. -/
def earliest : List ScheduledJobRun → Option ScheduledJobRun
  | [] => none
  | job :: rest =>
    match earliest rest with
    | none => some job
    | some other => some (if Before job other then job else other)

def claimReconciliation (jobs : Jobs) (observedAt : Instant) (lease : Digest) :
    Option (JobClaim × Jobs) :=
  (earliest (jobs.rows.filter (Due observedAt))).map
    (fun job => claimStored jobs job observedAt lease)

/-- `none` when the row no longer holds the claim's lease: the call raises. -/
def finish (jobs : Jobs) (claim : JobClaim) (observedAt : Instant) (completion : JobCompletion) :
    Option Jobs :=
  match jobs.find? claim.key with
  | none => none
  | some job =>
    if job.status = .running ∧ job.leaseHash = claim.leaseHash ∧ claim.leaseHash ≠ none then
      some (jobs.update claim.key (fun row =>
        { row with
          status := completion.status
          leaseHash := none
          heartbeatAt := some observedAt
          finishedAt := some observedAt
          reportOutcome := completion.reportOutcome
          retentionOutcome := completion.retentionOutcome
          errorCode := completion.errorCode }) fun _ => rfl)
    else none

def latestSucceededDate (jobs : Jobs) (kind : DailyKind) (throughDate : ℤ) : Option ℤ :=
  (jobs.rows.filterMap (fun job =>
    match job.key with
    | .daily k target =>
      if k = kind ∧ job.status = .succeeded ∧ target ≤ throughDate then some target else none
    | .requested _ => none)).max?

inductive DailyOutcomeStatus
  | succeeded | skipped | failed | blocked
deriving DecidableEq

structure DailyJobOutcome where
  status : DailyOutcomeStatus
  errorCode : Option String
deriving DecidableEq

def DailyJobOutcome.AllowsSuccessor (o : DailyJobOutcome) : Prop :=
  o.status = .succeeded ∨ o.status = .skipped

instance (o : DailyJobOutcome) : Decidable o.AllowsSuccessor := inferInstanceAs (Decidable (_ ∨ _))

/-- What a coordinator does: it returns, raises one of `RECONCILIATION_FAILURES`,
    or is cut off by anything else. -/
inductive Reconciled (α : Type)
  | returned (summary : α)
  | failed
  | raised
deriving DecidableEq

/-- The clock readings and the random lease of one claim. -/
structure Claiming where
  claimedAt : Instant
  finishedAt : Instant
  lease : Digest

/-- Everything one cron call reads besides the jobs. -/
structure DailyInput where
  startedAt : Instant
  claiming : DailyKind → ℤ → Claiming
  reports : ℤ → Reconciled ReportSummary
  retention : ℤ → Reconciled RetentionSummary
  requested : Claiming

def DailyKind.label : DailyKind → String
  | .dailyReport => "report"
  | .retention => "retention"

def failureStatus (claim : JobClaim) : JobStatus :=
  if claim.attempt < maxJobAttempts then .failedRetryable else .failedTerminal

/-- `none` stands for an exception that leaves `run_daily`; the committed jobs stay. -/
abbrev Executed := Option DailyJobOutcome × Jobs

def finishWith (jobs : Jobs) (claim : JobClaim) (finishedAt : Instant) (completion : JobCompletion)
    (outcome : DailyJobOutcome) : Executed :=
  match finish jobs claim finishedAt completion with
  | some rest => (some outcome, rest)
  | none => (none, jobs)

/-- Run the claimed job of one date: `success` completes it, `correct` is the
    answer where the date has succeeded before. -/
def executeClaimed {α : Type} (kind : DailyKind) (claimed : JobClaim × Jobs) (claiming : Claiming)
    (work : Reconciled α) (success : α → JobCompletion) (correct : Option DailyJobOutcome) : Executed :=
  match claimed.1.disposition with
  | .succeeded => (correct, claimed.2)
  | .busy => (some ⟨.blocked, some (kind.label ++ "_job_busy")⟩, claimed.2)
  | .terminal => (some ⟨.failed, some (kind.label ++ "_job_terminal")⟩, claimed.2)
  | .run =>
    match work with
    | .returned summary => finishWith claimed.2 claimed.1 claiming.finishedAt (success summary)
        ⟨.succeeded, none⟩
    | .failed => finishWith claimed.2 claimed.1 claiming.finishedAt
        ⟨failureStatus claimed.1, none, none, some (kind.label ++ "_reconciliation_failed")⟩
        ⟨.failed, some (kind.label ++ "_reconciliation_failed")⟩
    | .raised => (none, claimed.2)

/-- The order of both kinds: earlier dates, then the predecessor, then the claim. -/
def executeDate {α : Type} (kind : DailyKind) (jobs : Jobs) (claiming : Claiming)
    (targetDate firstPending : ℤ) (canContinue : Bool) (work : Reconciled α)
    (success : α → JobCompletion) (early correct : Option DailyJobOutcome) : Executed :=
  if targetDate < firstPending then (early, jobs)
  else if canContinue = false then
    (some ⟨.blocked, some (kind.label ++ "_predecessor_failed")⟩, jobs)
  else
    match claim jobs kind targetDate claiming.claimedAt claiming.lease with
    | none => (none, jobs)
    | some claimed => executeClaimed kind claimed claiming work success correct

def correctionOutcome : Reconciled ReportSummary → Option DailyJobOutcome
  | .returned _ => some ⟨.succeeded, none⟩
  | .failed => some ⟨.failed, some "report_reconciliation_failed"⟩
  | .raised => none

def skippedOutcome : Option DailyJobOutcome := some ⟨.skipped, none⟩

def reportOutcome (input : DailyInput) (jobs : Jobs) (targetDate firstPending : ℤ)
    (canContinue : Bool) : Executed :=
  executeDate .dailyReport jobs (input.claiming .dailyReport targetDate) targetDate firstPending
    canContinue (input.reports targetDate)
    (fun summary => ⟨.succeeded, some (.appended summary), none, none⟩)
    (correctionOutcome (input.reports targetDate)) (correctionOutcome (input.reports targetDate))

def retentionOutcome (input : DailyInput) (jobs : Jobs) (targetDate firstPending : ℤ)
    (canContinue : Bool) : Executed :=
  executeDate .retention jobs (input.claiming .retention targetDate) targetDate firstPending
    canContinue (input.retention targetDate) (fun summary => ⟨.succeeded, none, some summary, none⟩)
    skippedOutcome skippedOutcome

structure DailyOutcome where
  targetDateSeoul : ℤ
  report : DailyJobOutcome
  retention : DailyJobOutcome
deriving DecidableEq

/-- How far the loop over the target dates has come. `halted` is set by an exception. -/
structure Progress where
  jobs : Jobs
  reportCanContinue : Bool
  retentionCanContinue : Bool
  outcomes : List DailyOutcome
  halted : Bool

def seoulDate (t : Instant) : ℤ := (t + seconds (9 * 3600)) / seconds 86400

def latestCompleteDate (startedAt : Instant) : ℤ := seoulDate startedAt - 1

def catchUpDates (first latest : ℤ) : List ℤ :=
  (List.range (min maxCatchUpDays (latest - first + 1)).toNat).map
    (fun offset : ℕ => first + (offset : ℤ))

def nextDate (lastSucceeded : Option ℤ) (latestComplete : ℤ) : ℤ :=
  match lastSucceeded with
  | none => latestComplete
  | some last => min (last + 1) latestComplete

structure DailyPlan where
  reportNext : ℤ
  retentionNext : ℤ
  firstTarget : ℤ

def planDaily (jobs : Jobs) (latest : ℤ) : DailyPlan :=
  let reportLast := latestSucceededDate jobs .dailyReport latest
  let retentionLast := latestSucceededDate jobs .retention latest
  let reportNext := nextDate reportLast latest
  let retentionNext := nextDate retentionLast latest
  let firstTarget := min reportNext retentionNext
  { reportNext := reportNext
    retentionNext := retentionNext
    firstTarget := if reportLast = some latest then min firstTarget (latest - (maxCatchUpDays - 1))
      else firstTarget }

def runDate (input : DailyInput) (plan : DailyPlan) (p : Progress) (targetDate : ℤ) : Progress :=
  if p.halted then p
  else
    match reportOutcome input p.jobs targetDate plan.reportNext p.reportCanContinue with
    | (none, jobs) => { p with jobs := jobs, halted := true }
    | (some report, jobs) =>
      match retentionOutcome input jobs targetDate plan.retentionNext p.retentionCanContinue with
      | (none, jobs) => { p with jobs := jobs, halted := true }
      | (some retention, jobs) =>
        { jobs := jobs
          reportCanContinue := p.reportCanContinue && report.AllowsSuccessor
          retentionCanContinue := p.retentionCanContinue && retention.AllowsSuccessor
          outcomes := p.outcomes ++ [⟨targetDate, report, retention⟩]
          halted := false }

def runDates (input : DailyInput) (jobs : Jobs) (latest : ℤ) : Progress :=
  let plan := planDaily jobs latest
  (catchUpDates plan.firstTarget latest).foldl (runDate input plan)
    ⟨jobs, true, true, [], false⟩

/-- The dates and the retention pass of a requested run: `none` when something
    else than a failure was raised, else whether anything failed. -/
def forcedRun (input : DailyInput) (latest : ℤ) : Option (Bool × ℕ × Option RetentionSummary) :=
  let dates := catchUpDates (latest - (maxCatchUpDays - 1)) latest
  if (∃ d ∈ dates, input.reports d = .raised) ∨ input.retention latest = .raised then none
  else
    let reportFailed := decide (∃ d ∈ dates, input.reports d = .failed)
    let successes := (dates.filter (fun d => input.reports d ≠ .failed)).length
    match input.retention latest with
    | .returned summary => some (reportFailed, successes, some summary)
    | _ => some (true, successes, none)

def runRequested (input : DailyInput) (latest : ℤ) (claim : JobClaim) (jobs : Jobs) : Jobs :=
  match forcedRun input latest with
  | none => jobs
  | some (failed, successes, retention) =>
    (finish jobs claim input.requested.finishedAt
      { status := if failed then failureStatus claim else .succeeded
        reportOutcome := some (.attempted (catchUpDates (latest - (maxCatchUpDays - 1)) latest).length
          successes)
        retentionOutcome := retention
        errorCode := if failed then some "daily_reconciliation_failed" else none }).getD jobs

def runDaily (input : DailyInput) (jobs : Jobs) : Jobs :=
  let latest := latestCompleteDate input.startedAt
  match claimReconciliation jobs input.startedAt input.requested.lease with
  | none => (runDates input jobs latest).jobs
  | some (claim, claimed) =>
    if claim.disposition = .run then runRequested input latest claim claimed
    else (runDates input claimed latest).jobs

/-- A cron call, or an administrator's trigger between two of them. -/
inductive Event
  | cron (input : DailyInput)
  | request (jobId request : UUID) (requestedAt : Instant)

def handle (jobs : Jobs) : Event → Jobs
  | .cron input => runDaily input jobs
  | .request jobId request requestedAt =>
    enqueue jobs (queuedJob (.requested jobId) (some (.requestId request)) requestedAt)

def dailyStep (jobs : Jobs) (event : Event) : Except Unit Jobs := .ok (handle jobs event)

section Rows

def claimRow (stored : Option ScheduledJobRun) (key : JobKey) (claiming : Claiming) :
    JobClaim × ScheduledJobRun :=
  claimLocked (stored.getD (queuedJob key none claiming.claimedAt)) claiming.claimedAt
    claiming.lease

def completeRow (row : ScheduledJobRun) (finishedAt : Instant) (completion : JobCompletion) :
    ScheduledJobRun :=
  { row with
    status := completion.status
    leaseHash := none
    heartbeatAt := some finishedAt
    finishedAt := some finishedAt
    reportOutcome := completion.reportOutcome
    retentionOutcome := completion.retentionOutcome
    errorCode := completion.errorCode }

def executeRow {α : Type} (kind : DailyKind) (stored : Option ScheduledJobRun)
    (claiming : Claiming) (targetDate firstPending : ℤ) (canContinue : Bool)
    (work : Reconciled α) (success : α → JobCompletion) (early correct : Option DailyJobOutcome) :
    Option DailyJobOutcome × Option ScheduledJobRun :=
  if targetDate < firstPending then (early, stored)
  else if canContinue = false then
    (some ⟨.blocked, some (kind.label ++ "_predecessor_failed")⟩, stored)
  else
    let claimed := claimRow stored (.daily kind targetDate) claiming
    match claimed.1.disposition with
    | .succeeded => (correct, some claimed.2)
    | .busy => (some ⟨.blocked, some (kind.label ++ "_job_busy")⟩, some claimed.2)
    | .terminal => (some ⟨.failed, some (kind.label ++ "_job_terminal")⟩, some claimed.2)
    | .run =>
      match work with
      | .returned summary => (some ⟨.succeeded, none⟩,
          some (completeRow claimed.2 claiming.finishedAt (success summary)))
      | .failed => (some ⟨.failed, some (kind.label ++ "_reconciliation_failed")⟩,
          some (completeRow claimed.2 claiming.finishedAt
            ⟨failureStatus claimed.1, none, none, some (kind.label ++ "_reconciliation_failed")⟩))
      | .raised => (none, some claimed.2)

theorem enqueue_row (jobs : Jobs) (job : ScheduledJobRun) :
    (enqueue jobs job).find? job.key = some ((jobs.find? job.key).getD job) ∧
      ∀ k, k ≠ job.key → (enqueue jobs job).find? k = jobs.find? k := by
  cases hfind : jobs.find? job.key with
  | none =>
    obtain ⟨inserted, hinserted⟩ := Table.exists_insert hfind
    rw [enqueue, hinserted, Option.getD_some]
    refine ⟨by rw [Table.find?_insert hinserted, if_pos rfl]; rfl, fun k hk => ?_⟩
    rw [Table.find?_insert hinserted, if_neg hk.symm]
  | some row =>
    have htaken : jobs.insert? job = none := by
      cases hinsert : jobs.insert? job with
      | none => rfl
      | some inserted =>
        rw [(Table.insert?_eq_some.mp hinsert).1] at hfind
        cases hfind
    rw [enqueue, htaken]
    exact ⟨hfind, fun k _ => rfl⟩

theorem claim_row (jobs : Jobs) (kind : DailyKind) (target : ℤ) (claiming : Claiming) :
    ∃ rest, claim jobs kind target claiming.claimedAt claiming.lease =
        some ((claimRow (jobs.find? (.daily kind target)) (.daily kind target) claiming).1, rest) ∧
      rest.find? (.daily kind target) =
        some (claimRow (jobs.find? (.daily kind target)) (.daily kind target) claiming).2 ∧
      ∀ k, k ≠ .daily kind target → rest.find? k = jobs.find? k := by
  obtain ⟨hrow, hframe⟩ := enqueue_row jobs (queuedJob (.daily kind target) none claiming.claimedAt)
  rw [show (queuedJob (.daily kind target) none claiming.claimedAt).key =
    .daily kind target from rfl] at hrow hframe
  rw [claim]
  simp only [hrow, Option.map_some]
  have hkey : ((jobs.find? (.daily kind target)).getD
      (queuedJob (.daily kind target) none claiming.claimedAt)).key = .daily kind target := by
    cases hfind : jobs.find? (.daily kind target) with
    | none => rfl
    | some row => exact (Table.find?_eq_some.mp hfind).2
  refine ⟨_, rfl, ?_, fun k hk => ?_⟩
  · simp only [hkey, Table.find?_update_self, hrow, Option.map_some, claimRow]
  · simp only [hkey, Table.find?_update_ne hk, hframe k hk]

theorem finish_row {jobs : Jobs} {stored : Option ScheduledJobRun} {key : JobKey}
    {claiming : Claiming} (hkey : ∀ row ∈ stored, row.key = key)
    (hrow : jobs.find? key = some (claimRow stored key claiming).2)
    (hrun : (claimRow stored key claiming).1.disposition = .run) (finishedAt : Instant)
    (completion : JobCompletion) :
    ∃ rest, finish jobs (claimRow stored key claiming).1 finishedAt completion = some rest ∧
      rest.find? key = some (completeRow (claimRow stored key claiming).2 finishedAt completion) ∧
      ∀ k, k ≠ key → rest.find? k = jobs.find? k := by
  have hclaim : (claimRow stored key claiming).1.key = key ∧
      (claimRow stored key claiming).1.leaseHash = some claiming.lease ∧
      (claimRow stored key claiming).2.status = .running ∧
      (claimRow stored key claiming).2.leaseHash = some claiming.lease := by
    have hstored : (stored.getD (queuedJob key none claiming.claimedAt)).key = key := by
      cases stored with
      | none => rfl
      | some row => exact hkey row rfl
    unfold claimRow claimLocked at hrun ⊢
    split_ifs at hrun ⊢
    exact ⟨hstored, rfl, rfl, rfl⟩
  obtain ⟨hclaimKey, hlease, hstatus, hrowLease⟩ := hclaim
  rw [finish, hclaimKey]
  simp only [hrow]
  rw [if_pos ⟨hstatus, hrowLease.trans hlease.symm, by rw [hlease]; exact Option.some_ne_none _⟩]
  refine ⟨_, rfl, ?_, fun k hk => ?_⟩
  · rw [Table.find?_update_self, hrow]
    rfl
  · rw [Table.find?_update_ne hk]

theorem executeDate_row {α : Type} (kind : DailyKind) (jobs : Jobs) (claiming : Claiming)
    (targetDate firstPending : ℤ) (canContinue : Bool) (work : Reconciled α)
    (success : α → JobCompletion) (early correct : Option DailyJobOutcome) :
    let executed := executeDate kind jobs claiming targetDate firstPending canContinue work success
      early correct
    (executed.1, executed.2.find? (.daily kind targetDate)) =
        executeRow kind (jobs.find? (.daily kind targetDate)) claiming targetDate firstPending
          canContinue work success early correct ∧
      ∀ k, k ≠ .daily kind targetDate → executed.2.find? k = jobs.find? k := by
  intro executed
  by_cases hearly : targetDate < firstPending
  · simp only [executed, executeDate, executeRow, if_pos hearly]
    exact ⟨trivial, fun _ _ => trivial⟩
  by_cases hblocked : canContinue = false
  · simp only [executed, executeDate, executeRow, if_neg hearly, if_pos hblocked]
    exact ⟨trivial, fun _ _ => trivial⟩
  obtain ⟨rest, hclaim, hrow, hframe⟩ := claim_row jobs kind targetDate claiming
  have hkey : ∀ row ∈ jobs.find? (.daily kind targetDate), row.key = .daily kind targetDate :=
    fun row h => (Table.find?_eq_some.mp h).2
  simp only [executed, executeDate, executeRow, if_neg hearly, if_neg hblocked, hclaim]
  rw [executeClaimed.eq_def]
  cases hdisposition : (claimRow (jobs.find? (.daily kind targetDate)) (.daily kind targetDate)
      claiming).1.disposition with
  | succeeded => exact ⟨by rw [hrow], hframe⟩
  | busy => exact ⟨by rw [hrow], hframe⟩
  | terminal => exact ⟨by rw [hrow], hframe⟩
  | run =>
    cases work with
    | returned summary =>
      obtain ⟨done, hfinish, hdone, hkept⟩ := finish_row hkey hrow hdisposition claiming.finishedAt
        (success summary)
      simp only [finishWith, hfinish]
      exact ⟨by rw [hdone], fun k hk => (hkept k hk).trans (hframe k hk)⟩
    | failed =>
      obtain ⟨done, hfinish, hdone, hkept⟩ := finish_row hkey hrow hdisposition claiming.finishedAt
        ⟨failureStatus (claimRow (jobs.find? (.daily kind targetDate)) (.daily kind targetDate)
          claiming).1, none, none, some (kind.label ++ "_reconciliation_failed")⟩
      simp only [finishWith, hfinish]
      exact ⟨by rw [hdone], fun k hk => (hkept k hk).trans (hframe k hk)⟩
    | raised => exact ⟨by rw [hrow], hframe⟩

end Rows

section Dates

/-- The execution of one kind at one date, on the row of that date. -/
def rowOutcome (input : DailyInput) (kind : DailyKind) (stored : Option ScheduledJobRun)
    (targetDate firstPending : ℤ) (canContinue : Bool) :
    Option DailyJobOutcome × Option ScheduledJobRun :=
  match kind with
  | .dailyReport =>
    executeRow .dailyReport stored (input.claiming .dailyReport targetDate) targetDate firstPending
      canContinue (input.reports targetDate)
      (fun summary => ⟨.succeeded, some (.appended summary), none, none⟩)
      (correctionOutcome (input.reports targetDate)) (correctionOutcome (input.reports targetDate))
  | .retention =>
    executeRow .retention stored (input.claiming .retention targetDate) targetDate firstPending
      canContinue (input.retention targetDate)
      (fun summary => ⟨.succeeded, none, some summary, none⟩) skippedOutcome skippedOutcome

def Progress.can (p : Progress) : DailyKind → Bool
  | .dailyReport => p.reportCanContinue
  | .retention => p.retentionCanContinue

def DailyPlan.next (plan : DailyPlan) : DailyKind → ℤ
  | .dailyReport => plan.reportNext
  | .retention => plan.retentionNext

def Progress.outcome (p : Progress) (input : DailyInput) (plan : DailyPlan) (targetDate : ℤ)
    (kind : DailyKind) : Option DailyJobOutcome × Option ScheduledJobRun :=
  rowOutcome input kind (p.jobs.find? (.daily kind targetDate)) targetDate (plan.next kind)
    (p.can kind)

/-- What the loop does at one date: the report first, then the retention unless
    the report was cut off. -/
structure DateFacts (input : DailyInput) (plan : DailyPlan) (targetDate : ℤ) (p q : Progress) :
    Prop where
  report : q.jobs.find? (.daily .dailyReport targetDate) =
    (p.outcome input plan targetDate .dailyReport).2
  retention : (p.outcome input plan targetDate .dailyReport).1 ≠ none →
    q.jobs.find? (.daily .retention targetDate) = (p.outcome input plan targetDate .retention).2
  cutOff : (p.outcome input plan targetDate .dailyReport).1 = none →
    q.jobs.find? (.daily .retention targetDate) = p.jobs.find? (.daily .retention targetDate)
  halted : q.halted = true ↔ ∃ kind, (p.outcome input plan targetDate kind).1 = none
  continues : q.halted = false → ∀ kind, ∃ o,
    (p.outcome input plan targetDate kind).1 = some o ∧
      q.can kind = (p.can kind && decide o.AllowsSuccessor)
  frame : ∀ k, (∀ kind, k ≠ .daily kind targetDate) → q.jobs.find? k = p.jobs.find? k

theorem reportOutcome_row (input : DailyInput) (jobs : Jobs) (targetDate firstPending : ℤ)
    (canContinue : Bool) :
    ((reportOutcome input jobs targetDate firstPending canContinue).1,
        (reportOutcome input jobs targetDate firstPending canContinue).2.find?
          (.daily .dailyReport targetDate)) =
      rowOutcome input .dailyReport (jobs.find? (.daily .dailyReport targetDate)) targetDate
        firstPending canContinue ∧
    ∀ k, k ≠ .daily .dailyReport targetDate →
      (reportOutcome input jobs targetDate firstPending canContinue).2.find? k = jobs.find? k :=
  executeDate_row ..

theorem retentionOutcome_row (input : DailyInput) (jobs : Jobs) (targetDate firstPending : ℤ)
    (canContinue : Bool) :
    ((retentionOutcome input jobs targetDate firstPending canContinue).1,
        (retentionOutcome input jobs targetDate firstPending canContinue).2.find?
          (.daily .retention targetDate)) =
      rowOutcome input .retention (jobs.find? (.daily .retention targetDate)) targetDate
        firstPending canContinue ∧
    ∀ k, k ≠ .daily .retention targetDate →
      (retentionOutcome input jobs targetDate firstPending canContinue).2.find? k = jobs.find? k :=
  executeDate_row ..

theorem runDate_facts (input : DailyInput) (plan : DailyPlan) (targetDate : ℤ) {p : Progress}
    (hrunning : p.halted = false) :
    DateFacts input plan targetDate p (runDate input plan p targetDate) := by
  obtain ⟨hreport, hreportFrame⟩ := reportOutcome_row input p.jobs targetDate plan.reportNext
    p.reportCanContinue
  change _ = p.outcome input plan targetDate .dailyReport at hreport
  rw [runDate, if_neg (by simp [hrunning])]
  generalize reportOutcome input p.jobs targetDate plan.reportNext p.reportCanContinue = executed
    at hreport hreportFrame ⊢
  obtain ⟨report, jobs⟩ := executed
  have hstatus : report = (p.outcome input plan targetDate .dailyReport).1 :=
    congrArg Prod.fst hreport
  have hstored : jobs.find? (.daily .dailyReport targetDate) =
      (p.outcome input plan targetDate .dailyReport).2 := congrArg Prod.snd hreport
  have hkept : jobs.find? (.daily .retention targetDate) =
      p.jobs.find? (.daily .retention targetDate) := hreportFrame _ (by simp)
  obtain ⟨hretention, hretentionFrame⟩ := retentionOutcome_row input jobs targetDate
    plan.retentionNext p.retentionCanContinue
  rw [hkept] at hretention
  change _ = p.outcome input plan targetDate .retention at hretention
  cases report with
  | none =>
    exact ⟨hstored, fun h => absurd hstatus.symm h, fun _ => hkept,
      ⟨fun _ => ⟨.dailyReport, hstatus.symm⟩, fun _ => rfl⟩, fun h => (by cases h),
      fun k hk => hreportFrame k (hk .dailyReport)⟩
  | some report =>
    dsimp only
    generalize retentionOutcome input jobs targetDate plan.retentionNext p.retentionCanContinue =
      executed at hretention hretentionFrame ⊢
    obtain ⟨retention, rest⟩ := executed
    have hretentionStatus : retention = (p.outcome input plan targetDate .retention).1 :=
      congrArg Prod.fst hretention
    have hretentionStored : rest.find? (.daily .retention targetDate) =
        (p.outcome input plan targetDate .retention).2 := congrArg Prod.snd hretention
    have hreportKept : rest.find? (.daily .dailyReport targetDate) =
        (p.outcome input plan targetDate .dailyReport).2 :=
      (hretentionFrame _ (by simp)).trans hstored
    have hcontinued : (p.outcome input plan targetDate .dailyReport).1 ≠ none := by
      rw [← hstatus]
      exact Option.some_ne_none _
    have hframe (k : JobKey) (hk : ∀ kind, k ≠ .daily kind targetDate) :
        rest.find? k = p.jobs.find? k :=
      (hretentionFrame k (hk .retention)).trans (hreportFrame k (hk .dailyReport))
    cases retention with
    | none =>
      exact ⟨hreportKept, fun _ => hretentionStored, fun h => absurd h hcontinued,
        ⟨fun _ => ⟨.retention, hretentionStatus.symm⟩, fun _ => rfl⟩, fun h => (by cases h), hframe⟩
    | some retention =>
      refine ⟨hreportKept, fun _ => hretentionStored, fun h => absurd h hcontinued,
        ⟨fun h => (by cases h), ?_⟩, fun _ kind => ?_, hframe⟩
      · rintro ⟨kind, hnone⟩
        cases kind with
        | dailyReport => exact absurd hnone hcontinued
        | retention =>
          rw [← hretentionStatus] at hnone
          cases hnone
      · cases kind with
        | dailyReport => exact ⟨report, hstatus.symm, rfl⟩
        | retention => exact ⟨retention, hretentionStatus.symm, rfl⟩

def RowSucceeded (stored : Option ScheduledJobRun) : Prop :=
  ∃ row ∈ stored, row.status = .succeeded

theorem claimRow_succeeded {row : ScheduledJobRun} (h : row.status = .succeeded) (key : JobKey)
    (claiming : Claiming) :
    claimRow (some row) key claiming = (⟨.succeeded, row.key, row.attempt, none⟩, row) := by
  simp [claimRow, claimLocked, h]

/-- Only a succeeded row answers a claim with `succeeded`. -/
theorem succeeded_of_claimRow {stored : Option ScheduledJobRun} {key : JobKey}
    {claiming : Claiming} (h : (claimRow stored key claiming).1.disposition = .succeeded) :
    (claimRow stored key claiming).2.status = .succeeded := by
  unfold claimRow claimLocked at h ⊢
  split_ifs at h ⊢ with hsucceeded
  exact hsucceeded

section Execution
variable {α : Type} {kind : DailyKind} {stored : Option ScheduledJobRun} {claiming : Claiming}
  {targetDate firstPending : ℤ} {canContinue : Bool} {work : Reconciled α}
  {success : α → JobCompletion} {early correct : Option DailyJobOutcome}

theorem executeRow_idle (h : targetDate < firstPending ∨ canContinue = false) :
    (executeRow kind stored claiming targetDate firstPending canContinue work success early
      correct).2 = stored := by
  by_cases hearly : targetDate < firstPending
  · rw [executeRow, if_pos hearly]
  · rw [executeRow, if_neg hearly, if_pos (h.resolve_left hearly)]

theorem executeRow_succeeded (h : RowSucceeded stored) :
    (executeRow kind stored claiming targetDate firstPending canContinue work success early
      correct).2 = stored := by
  by_cases hidle : targetDate < firstPending ∨ canContinue = false
  · exact executeRow_idle hidle
  · obtain ⟨row, rfl, hstatus⟩ := h
    rw [executeRow, if_neg fun h => hidle (.inl h), if_neg fun h => hidle (.inr h)]
    simp only [claimRow_succeeded hstatus]

theorem executeRow_allows (hsuccess : ∀ summary, (success summary).status = .succeeded)
    (hpending : ¬ targetDate < firstPending) {o : DailyJobOutcome}
    (ho : (executeRow kind stored claiming targetDate firstPending canContinue work success early
      correct).1 = some o) (hallows : o.AllowsSuccessor) :
    canContinue = true ∧ RowSucceeded (executeRow kind stored claiming targetDate firstPending
      canContinue work success early correct).2 := by
  rw [executeRow, if_neg hpending] at ho ⊢
  by_cases hblocked : canContinue = false
  · rw [if_pos hblocked] at ho
    obtain rfl := Option.some.inj ho
    simp [DailyJobOutcome.AllowsSuccessor] at hallows
  rw [if_neg hblocked] at ho ⊢
  refine ⟨by simpa using hblocked, ?_⟩
  dsimp only at ho ⊢
  cases hdisposition : (claimRow stored (.daily kind targetDate) claiming).1.disposition with
  | succeeded => exact ⟨_, rfl, succeeded_of_claimRow hdisposition⟩
  | busy =>
    simp only [hdisposition] at ho
    obtain rfl := Option.some.inj ho
    simp [DailyJobOutcome.AllowsSuccessor] at hallows
  | terminal =>
    simp only [hdisposition] at ho
    obtain rfl := Option.some.inj ho
    simp [DailyJobOutcome.AllowsSuccessor] at hallows
  | run =>
    simp only [hdisposition] at ho
    cases work with
    | returned summary => exact ⟨_, rfl, hsuccess summary⟩
    | failed =>
      obtain rfl := Option.some.inj ho
      simp [DailyJobOutcome.AllowsSuccessor] at hallows
    | raised => cases ho

end Execution

section Outcome
variable {input : DailyInput} {kind : DailyKind} {stored : Option ScheduledJobRun}
  {targetDate firstPending : ℤ} {canContinue : Bool}

theorem rowOutcome_idle (h : targetDate < firstPending ∨ canContinue = false) :
    (rowOutcome input kind stored targetDate firstPending canContinue).2 = stored := by
  cases kind <;> exact executeRow_idle h

theorem rowOutcome_succeeded (h : RowSucceeded stored) :
    (rowOutcome input kind stored targetDate firstPending canContinue).2 = stored := by
  cases kind <;> exact executeRow_succeeded h

theorem rowOutcome_allows (hpending : ¬ targetDate < firstPending) {o : DailyJobOutcome}
    (ho : (rowOutcome input kind stored targetDate firstPending canContinue).1 = some o)
    (hallows : o.AllowsSuccessor) :
    canContinue = true ∧
      RowSucceeded (rowOutcome input kind stored targetDate firstPending canContinue).2 := by
  cases kind <;> exact executeRow_allows (fun _ => rfl) hpending ho hallows

end Outcome

end Dates

section Gaps

def Planned (jobs : Jobs) (kind : DailyKind) (d : ℤ) : Prop :=
  (jobs.find? (.daily kind d)).isSome = true

def Succeeded (jobs : Jobs) (kind : DailyKind) (d : ℤ) : Prop :=
  RowSucceeded (jobs.find? (.daily kind d))

/-- A date is planned only when every date since the first planned one has succeeded. -/
def Gapless (jobs : Jobs) (kind : DailyKind) : Prop :=
  ∀ f d e, Planned jobs kind f → Planned jobs kind d → f ≤ e → e < d → Succeeded jobs kind e

theorem planned_of_succeeded {jobs : Jobs} {kind : DailyKind} {d : ℤ}
    (h : Succeeded jobs kind d) : Planned jobs kind d := by
  obtain ⟨row, hrow, _⟩ := h
  rw [Planned, hrow]
  rfl

theorem mem_succeededDates {jobs : Jobs} {kind : DailyKind} {through d : ℤ} :
    d ∈ jobs.rows.filterMap (fun job =>
        match job.key with
        | .daily k target =>
          if k = kind ∧ job.status = .succeeded ∧ target ≤ through then some target else none
        | .requested _ => none) ↔ Succeeded jobs kind d ∧ d ≤ through := by
  rw [List.mem_filterMap]
  constructor
  · rintro ⟨row, hrow, h⟩
    cases hkey : row.key with
    | requested jobId =>
      rw [hkey] at h
      cases h
    | daily k target =>
      simp only [hkey] at h
      by_cases hcond : k = kind ∧ row.status = .succeeded ∧ target ≤ through
      · rw [if_pos hcond] at h
        obtain rfl := Option.some.inj h
        obtain ⟨rfl, hstatus, hle⟩ := hcond
        exact ⟨⟨row, Table.find?_eq_some.mpr ⟨hrow, hkey⟩, hstatus⟩, hle⟩
      · rw [if_neg hcond] at h
        cases h
  · rintro ⟨⟨row, hfind, hstatus⟩, hle⟩
    obtain ⟨hrow, hkey⟩ := Table.find?_eq_some.mp hfind
    refine ⟨row, hrow, ?_⟩
    simp only [hkey]
    exact if_pos ⟨trivial, hstatus, hle⟩

theorem latestSucceededDate_eq_some {jobs : Jobs} {kind : DailyKind} {through last : ℤ} :
    latestSucceededDate jobs kind through = some last ↔
      (Succeeded jobs kind last ∧ last ≤ through) ∧
        ∀ d, Succeeded jobs kind d → d ≤ through → d ≤ last := by
  rw [latestSucceededDate, List.max?_eq_some_iff, mem_succeededDates]
  refine and_congr_right fun _ => ?_
  constructor
  · intro h d hd hle
    exact h d (mem_succeededDates.mpr ⟨hd, hle⟩)
  · intro h d hd
    exact h d (mem_succeededDates.mp hd).1 (mem_succeededDates.mp hd).2

theorem latestSucceededDate_eq_none {jobs : Jobs} {kind : DailyKind} {through : ℤ} :
    latestSucceededDate jobs kind through = none ↔
      ∀ d, Succeeded jobs kind d → ¬ d ≤ through := by
  rw [latestSucceededDate, List.max?_eq_none_iff, List.eq_nil_iff_forall_not_mem]
  exact forall_congr' fun d => by rw [mem_succeededDates, not_and]

/-- Every date from the first planned one up to `t` has succeeded. -/
def SucceededBefore (jobs : Jobs) (kind : DailyKind) (t : ℤ) : Prop :=
  ∀ f, Planned jobs kind f → f ≤ t ∧ ∀ e, f ≤ e → e < t → Succeeded jobs kind e

/-- The loop stands before `t`. -/
structure Ready (kind : DailyKind) (next latest t : ℤ) (p : Progress) : Prop where
  gapless : Gapless p.jobs kind
  bounded : ∀ d, Planned p.jobs kind d → d ≤ latest
  ready : p.halted = false → p.can kind = true → SucceededBefore p.jobs kind (max t next)

theorem runDate_row {input : DailyInput} {plan : DailyPlan} {t : ℤ} {p q : Progress}
    (h : DateFacts input plan t p q) (kind : DailyKind) :
    q.jobs.find? (.daily kind t) = p.jobs.find? (.daily kind t) ∨
      q.jobs.find? (.daily kind t) = (p.outcome input plan t kind).2 := by
  cases kind with
  | dailyReport => exact .inr h.report
  | retention =>
    by_cases hcut : (p.outcome input plan t .dailyReport).1 = none
    · exact .inl (h.cutOff hcut)
    · exact .inr (h.retention hcut)

theorem runDate_continued {input : DailyInput} {plan : DailyPlan} {t : ℤ} {p q : Progress}
    (h : DateFacts input plan t p q) (hrunning : q.halted = false) (kind : DailyKind) :
    q.jobs.find? (.daily kind t) = (p.outcome input plan t kind).2 := by
  have hnone (k : DailyKind) : (p.outcome input plan t k).1 ≠ none := by
    intro hnone
    rw [h.halted.mpr ⟨k, hnone⟩] at hrunning
    cases hrunning
  cases kind with
  | dailyReport => exact h.report
  | retention => exact h.retention (hnone .dailyReport)

theorem runDate_other {input : DailyInput} {plan : DailyPlan} {t d : ℤ} {p q : Progress}
    (h : DateFacts input plan t p q) (kind : DailyKind) (hd : d ≠ t) :
    q.jobs.find? (.daily kind d) = p.jobs.find? (.daily kind d) :=
  h.frame _ fun k hk => hd (by injection hk)

theorem runDate_halted {input : DailyInput} {plan : DailyPlan} {t : ℤ} {p : Progress}
    (h : p.halted = true) : runDate input plan p t = p := by
  rw [runDate, if_pos h]

theorem ready_runDate {input : DailyInput} {plan : DailyPlan} {kind : DailyKind} {latest t : ℤ}
    {p : Progress} (hp : Ready kind (plan.next kind) latest t p) (ht : t ≤ latest) :
    Ready kind (plan.next kind) latest (t + 1) (runDate input plan p t) := by
  by_cases hhalted : p.halted = true
  · rw [runDate_halted hhalted]
    exact ⟨hp.gapless, hp.bounded, fun h => absurd hhalted (by simp [h])⟩
  have hrunning : p.halted = false := by simpa using hhalted
  have hfacts := runDate_facts input plan t hrunning
  generalize runDate input plan p t = q at hfacts ⊢
  have hkeep (d : ℤ) (hd : Succeeded p.jobs kind d) : Succeeded q.jobs kind d := by
    by_cases hdt : d = t
    · subst hdt
      rw [Succeeded]
      rcases runDate_row hfacts kind with hrow | hrow
      · rw [hrow]
        exact hd
      · rw [hrow, Progress.outcome, rowOutcome_succeeded hd]
        exact hd
    · rw [Succeeded, runDate_other hfacts kind hdt]
      exact hd
  have hplanned (d : ℤ) (hd : Planned q.jobs kind d) :
      Planned p.jobs kind d ∨ d = t ∧ p.can kind = true ∧ plan.next kind ≤ t := by
    by_cases hdt : d = t
    · subst hdt
      by_cases hidle : d < plan.next kind ∨ p.can kind = false
      · refine .inl ?_
        rw [Planned] at hd ⊢
        rcases runDate_row hfacts kind with hrow | hrow
        · rw [← hrow]
          exact hd
        · rw [hrow, Progress.outcome, rowOutcome_idle hidle] at hd
          exact hd
      · obtain ⟨hpending, hcan⟩ := not_or.mp hidle
        exact .inr ⟨rfl, by simpa using hcan, not_lt.mp hpending⟩
    · rw [Planned, runDate_other hfacts kind hdt] at hd
      exact .inl hd
  have hbefore (hcan : p.can kind = true) (hnext : plan.next kind ≤ t) :
      SucceededBefore p.jobs kind t := by
    have hready := hp.ready hrunning hcan
    rwa [max_eq_left hnext] at hready
  refine ⟨fun f d e hf hd hfe hed => ?_, fun d hd => ?_, fun hq hcan => ?_⟩
  · rcases hplanned d hd with hd | ⟨rfl, hcan, hnext⟩
    · rcases hplanned f hf with hf | ⟨rfl, hcan, hnext⟩
      · exact hkeep e (hp.gapless f d e hf hd hfe hed)
      · have hle := (hbefore hcan hnext d hd).1
        omega
    · rcases hplanned f hf with hf | ⟨rfl, _, _⟩
      · exact hkeep e ((hbefore hcan hnext f hf).2 e hfe hed)
      · omega
  · rcases hplanned d hd with hd | ⟨rfl, _, _⟩
    · exact hp.bounded d hd
    · exact ht
  · obtain ⟨o, ho, hcontinues⟩ := hfacts.continues hq kind
    rw [hcan] at hcontinues
    obtain ⟨hcanBefore, hallows⟩ : p.can kind = true ∧ o.AllowsSuccessor := by
      simpa using hcontinues.symm
    by_cases hpending : t < plan.next kind
    · have hready := hp.ready hrunning hcanBefore
      rw [max_eq_right (by omega)] at hready ⊢
      intro f hf
      rcases hplanned f hf with hf | ⟨_, _, hnext⟩
      · exact ⟨(hready f hf).1, fun e hfe het => hkeep e ((hready f hf).2 e hfe het)⟩
      · omega
    · have hnext : plan.next kind ≤ t := not_lt.mp hpending
      have hdone : Succeeded q.jobs kind t := by
        rw [Succeeded, runDate_continued hfacts hq kind]
        exact (rowOutcome_allows hpending ho hallows).2
      rw [max_eq_left (by omega)]
      intro f hf
      rcases hplanned f hf with hf | ⟨rfl, _, _⟩
      · have hold := hbefore hcanBefore hnext f hf
        refine ⟨by omega, fun e hfe het => ?_⟩
        by_cases hlast : e = t
        · rw [hlast]
          exact hdone
        · exact hkeep e (hold.2 e hfe (by omega))
      · refine ⟨by omega, fun e hfe het => ?_⟩
        obtain rfl : e = f := by omega
        exact hdone

/-- The dates `t`, `t + 1`, ... of a window of `n` days. -/
def consecutive (t : ℤ) : ℕ → List ℤ
  | 0 => []
  | n + 1 => t :: consecutive (t + 1) n

theorem mem_consecutive {t d : ℤ} {n : ℕ} : d ∈ consecutive t n ↔ t ≤ d ∧ d < t + n := by
  induction n generalizing t with
  | zero =>
    simp only [consecutive, List.not_mem_nil, false_iff]
    omega
  | succ n ih =>
    rw [consecutive, List.mem_cons, ih]
    omega

theorem consecutive_add (t : ℤ) (m n : ℕ) :
    consecutive t (m + n) = consecutive t m ++ consecutive (t + m) n := by
  induction m generalizing t with
  | zero => simp [consecutive]
  | succ m ih =>
    rw [Nat.succ_add, consecutive, ih, consecutive, List.cons_append]
    congr 3
    omega

theorem catchUpDates_eq (first latest : ℤ) :
    catchUpDates first latest = consecutive first (min 7 (latest - first + 1)).toNat := by
  rw [catchUpDates, maxCatchUpDays]
  generalize (min 7 (latest - first + 1)).toNat = n
  have hrange (n : ℕ) (t : ℤ) :
      (List.range n).map (fun offset : ℕ => t + offset) = consecutive t n := by
    induction n generalizing t with
    | zero => rfl
    | succ n ih =>
      rw [List.range_succ_eq_map, List.map_cons, List.map_map, consecutive, ← ih (t + 1)]
      congr 1
      · simp
      · refine List.map_congr_left fun offset _ => ?_
        simp only [Function.comp, Nat.succ_eq_add_one, Nat.cast_add, Nat.cast_one]
        omega
  exact hrange n first

theorem mem_catchUpDates {first latest d : ℤ} :
    d ∈ catchUpDates first latest ↔ first ≤ d ∧ d ≤ latest ∧ d < first + 7 := by
  rw [catchUpDates_eq, mem_consecutive]
  omega

theorem ready_runDates {input : DailyInput} {plan : DailyPlan} {kind : DailyKind} {latest t : ℤ}
    {n : ℕ} {p : Progress} (hp : Ready kind (plan.next kind) latest t p) (hn : t + n ≤ latest + 1) :
    Ready kind (plan.next kind) latest (t + n)
      ((consecutive t n).foldl (runDate input plan) p) := by
  induction n generalizing t p with
  | zero => simpa [consecutive] using hp
  | succ n ih =>
    have hstep := @ready_runDate input plan kind latest t p hp (by omega)
    have hrest := ih hstep (by omega)
    rw [consecutive, List.foldl_cons]
    have hend : t + (n + 1 : ℕ) = t + 1 + n := by omega
    rw [hend]
    exact hrest

section Plan
variable {jobs : Jobs} {latest : ℤ}

theorem planDaily_next (kind : DailyKind) :
    (planDaily jobs latest).next kind = nextDate (latestSucceededDate jobs kind latest) latest := by
  cases kind <;> rfl

theorem nextDate_le (last : Option ℤ) : nextDate last latest ≤ latest := by
  cases last with
  | none => exact le_refl _
  | some last => exact min_le_right _ _

theorem firstTarget_le (kind : DailyKind) :
    (planDaily jobs latest).firstTarget ≤ (planDaily jobs latest).next kind := by
  have hmin : min (planDaily jobs latest).reportNext (planDaily jobs latest).retentionNext ≤
      (planDaily jobs latest).next kind := by
    cases kind
    · exact min_le_left _ _
    · exact min_le_right _ _
  have hfirst : (planDaily jobs latest).firstTarget ≤
      min (planDaily jobs latest).reportNext (planDaily jobs latest).retentionNext := by
    unfold planDaily
    dsimp only
    split
    · exact min_le_left _ _
    · exact le_refl _
  exact hfirst.trans hmin

theorem succeededBefore_next {kind : DailyKind} (hgapless : Gapless jobs kind)
    (hbounded : ∀ d, Planned jobs kind d → d ≤ latest)
    (hanchored : latestSucceededDate jobs kind latest ≠ none ∨
      ∀ d, Planned jobs kind d → d = latest) :
    SucceededBefore jobs kind ((planDaily jobs latest).next kind) := by
  rw [planDaily_next]
  intro f hf
  cases hlast : latestSucceededDate jobs kind latest with
  | none =>
    have hfirst := hanchored.resolve_left (fun h => h hlast) f hf
    refine ⟨le_of_eq hfirst, fun e hfe hel => ?_⟩
    change e < latest at hel
    omega
  | some last =>
    obtain ⟨⟨hsucceeded, _⟩, hmax⟩ := latestSucceededDate_eq_some.mp hlast
    have hnext : nextDate (some last) latest = min (last + 1) latest := rfl
    rw [hnext]
    have hle : f ≤ last + 1 := by
      by_contra hgt
      have hafter := hgapless last f (last + 1) (planned_of_succeeded hsucceeded) hf (by omega)
        (by omega)
      have hbound := hbounded f hf
      have hagain := hmax (last + 1) hafter (by omega)
      omega
    refine ⟨le_min hle (hbounded f hf), fun e hfe hel => ?_⟩
    have hel' : e < last + 1 := lt_of_lt_of_le hel (min_le_left _ _)
    by_cases hend : e = last
    · rw [hend]
      exact hsucceeded
    · exact hgapless f last e hf (planned_of_succeeded hsucceeded) hfe (by omega)

end Plan

section Idle

def Stops (input : DailyInput) (kind : DailyKind) (next d : ℤ) : Prop :=
  kind = .dailyReport ∧ d < next ∧ ∀ summary, input.reports d ≠ .returned summary

/-- The rows of a kind are as they were, and nothing more of it runs once it is stopped. -/
structure Idle (kind : DailyKind) (jobs : Jobs) (stopped : Prop) (p : Progress) : Prop where
  rows : ∀ d, p.jobs.find? (.daily kind d) = jobs.find? (.daily kind d)
  stop : stopped → p.halted = true ∨ p.can kind = false

theorem idle_runDate {input : DailyInput} {plan : DailyPlan} {kind : DailyKind} {jobs : Jobs}
    {stopped : Prop} {t : ℤ} {p : Progress} (hp : Idle kind jobs stopped p)
    (hidle : t < plan.next kind ∨ stopped) :
    Idle kind jobs (stopped ∨ Stops input kind (plan.next kind) t) (runDate input plan p t) := by
  by_cases hhalted : p.halted = true
  · rw [runDate_halted hhalted]
    exact ⟨hp.rows, fun _ => .inl hhalted⟩
  have hrunning : p.halted = false := by simpa using hhalted
  have hfacts := runDate_facts input plan t hrunning
  generalize runDate input plan p t = q at hfacts ⊢
  have hkept : t < plan.next kind ∨ p.can kind = false :=
    hidle.imp_right fun h => (hp.stop h).resolve_left hhalted
  refine ⟨fun d => ?_, fun hstopped => ?_⟩
  · rw [← hp.rows d]
    by_cases hdt : d = t
    · subst hdt
      rcases runDate_row hfacts kind with hrow | hrow
      · exact hrow
      · rw [hrow, Progress.outcome, rowOutcome_idle hkept]
    · exact runDate_other hfacts kind hdt
  · by_cases hq : q.halted = true
    · exact .inl hq
    obtain ⟨o, ho, hcontinues⟩ := hfacts.continues (by simpa using hq) kind
    rw [hcontinues]
    refine .inr ?_
    rcases hstopped with hstopped | ⟨rfl, hearly, hfailed⟩
    · rw [(hp.stop hstopped).resolve_left hhalted]
      rfl
    · rw [Progress.outcome, rowOutcome, executeRow, if_pos hearly] at ho
      cases hwork : input.reports t with
      | returned summary => exact absurd hwork (hfailed summary)
      | failed =>
        rw [hwork] at ho
        obtain rfl := Option.some.inj ho
        simp [DailyJobOutcome.AllowsSuccessor]
      | raised =>
        rw [hwork] at ho
        cases ho

theorem idle_runDates {input : DailyInput} {plan : DailyPlan} {kind : DailyKind} {jobs : Jobs}
    {stopped : Prop} {t : ℤ} {n : ℕ} {p : Progress} (hp : Idle kind jobs stopped p)
    (hidle : ∀ d ∈ consecutive t n, d < plan.next kind ∨ stopped ∨
      ∃ e ∈ consecutive t n, e < d ∧ Stops input kind (plan.next kind) e) (d : ℤ) :
    ((consecutive t n).foldl (runDate input plan) p).jobs.find? (.daily kind d) =
      jobs.find? (.daily kind d) := by
  induction n generalizing t p stopped with
  | zero => exact hp.rows d
  | succ n ih =>
    rw [consecutive, List.foldl_cons]
    have hfirst : t < plan.next kind ∨ stopped := by
      rcases hidle t (mem_consecutive.mpr (by omega)) with h | h | ⟨e, he, het, _⟩
      · exact .inl h
      · exact .inr h
      · have hbound := mem_consecutive.mp he
        omega
    refine ih (idle_runDate hp hfirst) fun d hd => ?_
    have hd' := mem_consecutive.mp hd
    rcases hidle d (mem_consecutive.mpr (by omega)) with h | h | ⟨e, he, hed, hstops⟩
    · exact .inl h
    · exact .inr (.inl (.inl h))
    · by_cases het : e = t
      · rw [het] at hstops
        exact .inr (.inl (.inr hstops))
      · have he' := mem_consecutive.mp he
        exact .inr (.inr ⟨e, mem_consecutive.mpr (by omega), hed, hstops⟩)

end Idle

section Requests

theorem earliest_mem {jobs : List ScheduledJobRun} {job : ScheduledJobRun}
    (h : earliest jobs = some job) : job ∈ jobs := by
  induction jobs generalizing job with
  | nil => cases h
  | cons head rest ih =>
    rw [earliest] at h
    cases hrest : earliest rest with
    | none =>
      rw [hrest] at h
      obtain rfl := Option.some.inj h
      exact List.mem_cons_self
    | some other =>
      rw [hrest] at h
      obtain rfl := Option.some.inj h
      by_cases hbefore : Before head other
      · rw [if_pos hbefore]
        exact List.mem_cons_self
      · rw [if_neg hbefore]
        exact List.mem_cons_of_mem head (ih hrest)

theorem claimLocked_claim (job : ScheduledJobRun) (observedAt : Instant) (lease : Digest) :
    (claimLocked job observedAt lease).1.key = job.key := by
  unfold claimLocked
  split_ifs <;> rfl

theorem claimReconciliation_frame {jobs : Jobs} {observedAt : Instant} {lease : Digest}
    {claimed : JobClaim × Jobs} (h : claimReconciliation jobs observedAt lease = some claimed) :
    (requestId? claimed.1.key).isSome = true ∧
      ∀ kind d, claimed.2.find? (.daily kind d) = jobs.find? (.daily kind d) := by
  obtain ⟨job, hjob, rfl⟩ := Option.map_eq_some_iff.mp h
  have hdue : Due observedAt job := by
    simpa using List.of_mem_filter (earliest_mem hjob)
  refine ⟨by rw [claimStored, claimLocked_claim]; exact hdue.1, fun kind d => ?_⟩
  have hne : JobKey.daily kind d ≠ job.key := by
    intro hkey
    have hrequested := hdue.1
    rw [← hkey] at hrequested
    cases hrequested
  simp only [claimStored, Table.find?_update_ne hne]

theorem finish_frame {jobs rest : Jobs} {claim : JobClaim} {finishedAt : Instant}
    {completion : JobCompletion} (h : finish jobs claim finishedAt completion = some rest)
    {k : JobKey} (hk : k ≠ claim.key) : rest.find? k = jobs.find? k := by
  rw [finish] at h
  cases hfind : jobs.find? claim.key with
  | none =>
    rw [hfind] at h
    cases h
  | some job =>
    simp only [hfind] at h
    split_ifs at h
    obtain rfl := Option.some.inj h
    exact Table.find?_update_ne hk

theorem runRequested_frame {input : DailyInput} {latest : ℤ} {claim : JobClaim} {jobs : Jobs}
    {k : JobKey} (hk : k ≠ claim.key) :
    (runRequested input latest claim jobs).find? k = jobs.find? k := by
  rw [runRequested.eq_def]
  cases forcedRun input latest with
  | none => rfl
  | some outcome =>
    dsimp only
    generalize ({ status := _, reportOutcome := _, retentionOutcome := _, errorCode := _ } :
      JobCompletion) = completion
    cases hfinish : finish jobs claim input.requested.finishedAt completion with
    | none => rfl
    | some rest => exact finish_frame hfinish hk

end Requests

variable {kind : DailyKind}

def RunsRequested (jobs : Jobs) (input : DailyInput) : Prop :=
  ∃ claimed ∈ claimReconciliation jobs input.startedAt input.requested.lease,
    claimed.1.disposition = .run

/-- The plan of the kind starts from a success or from the latest date itself, or
    the run does not come to the latest date. -/
def Anchored (kind : DailyKind) (jobs : Jobs) (input : DailyInput) : Prop :=
  let latest := latestCompleteDate input.startedAt
  let dates := catchUpDates (planDaily jobs latest).firstTarget latest
  latestSucceededDate jobs kind latest ≠ none ∨ (∀ d, Planned jobs kind d → d = latest) ∨
    latest ∉ dates ∨ ∃ d ∈ dates, Stops input kind latest d

def AnchoredEvent (kind : DailyKind) (jobs : Jobs) : Event → Prop
  | .cron input => RunsRequested jobs input ∨ Anchored kind jobs input
  | .request _ _ _ => True

theorem planned_congr {jobs other : Jobs}
    (h : ∀ d, other.find? (.daily kind d) = jobs.find? (.daily kind d)) (d : ℤ) :
    Planned other kind d ↔ Planned jobs kind d := by
  rw [Planned, Planned, h d]

theorem succeeded_congr {jobs other : Jobs}
    (h : ∀ d, other.find? (.daily kind d) = jobs.find? (.daily kind d)) (d : ℤ) :
    Succeeded other kind d ↔ Succeeded jobs kind d := by
  rw [Succeeded, Succeeded, h d]

theorem gapless_congr {jobs other : Jobs}
    (h : ∀ d, other.find? (.daily kind d) = jobs.find? (.daily kind d)) :
    Gapless other kind ↔ Gapless jobs kind := by
  simp only [Gapless, planned_congr h, succeeded_congr h]

theorem latestSucceededDate_congr {jobs other : Jobs}
    (h : ∀ d, other.find? (.daily kind d) = jobs.find? (.daily kind d)) (through : ℤ) :
    latestSucceededDate other kind through = latestSucceededDate jobs kind through := by
  cases hlast : latestSucceededDate jobs kind through with
  | none =>
    rw [latestSucceededDate_eq_none] at hlast ⊢
    simpa only [succeeded_congr h] using hlast
  | some last =>
    rw [latestSucceededDate_eq_some] at hlast ⊢
    simpa only [succeeded_congr h] using hlast

theorem planDaily_congr {jobs other : Jobs}
    (h : ∀ kind d, other.find? (.daily kind d) = jobs.find? (.daily kind d)) (latest : ℤ) :
    planDaily other latest = planDaily jobs latest := by
  unfold planDaily
  rw [latestSucceededDate_congr (h .dailyReport), latestSucceededDate_congr (h .retention)]

/-- The planned dates have no gap and lie before the end of the closed days. -/
structure GaplessUntil (jobs : Jobs) (kind : DailyKind) (latest : ℤ) : Prop where
  gapless : Gapless jobs kind
  bounded : ∀ d, Planned jobs kind d → d ≤ latest

theorem gaplessUntil_congr {jobs other : Jobs} {latest : ℤ}
    (h : ∀ d, other.find? (.daily kind d) = jobs.find? (.daily kind d))
    (hjobs : GaplessUntil jobs kind latest) : GaplessUntil other kind latest :=
  ⟨(gapless_congr h).mpr hjobs.gapless,
    fun d hd => hjobs.bounded d ((planned_congr h d).mp hd)⟩

theorem gaplessUntil_runDates {jobs : Jobs} {input : DailyInput}
    (hjobs : GaplessUntil jobs kind (latestCompleteDate input.startedAt))
    (hanchored : Anchored kind jobs input) :
    GaplessUntil (runDates input jobs (latestCompleteDate input.startedAt)).jobs kind
      (latestCompleteDate input.startedAt) := by
  rw [Anchored] at hanchored
  generalize latestCompleteDate input.startedAt = latest at hjobs hanchored ⊢
  by_cases hplan : latestSucceededDate jobs kind latest ≠ none ∨
      ∀ d, Planned jobs kind d → d = latest
  · have hbefore := succeededBefore_next hjobs.gapless hjobs.bounded hplan
    have hfirst : (planDaily jobs latest).firstTarget ≤ (planDaily jobs latest).next kind :=
      firstTarget_le kind
    have hstart : Ready kind ((planDaily jobs latest).next kind) latest
        (planDaily jobs latest).firstTarget ⟨jobs, true, true, [], false⟩ :=
      ⟨hjobs.gapless, hjobs.bounded, fun _ _ => by rw [max_eq_right hfirst]; exact hbefore⟩
    have hnext : (planDaily jobs latest).next kind ≤ latest := by
      rw [planDaily_next]
      exact nextDate_le _
    have hrun := @ready_runDates input (planDaily jobs latest) kind latest _
      (min 7 (latest - (planDaily jobs latest).firstTarget + 1)).toNat _ hstart (by omega)
    rw [← catchUpDates_eq] at hrun
    exact ⟨hrun.gapless, hrun.bounded⟩
  · obtain ⟨hlast, _⟩ := not_or.mp hplan
    have hnext : (planDaily jobs latest).next kind = latest := by
      rw [planDaily_next, not_not.mp hlast]
      rfl
    refine gaplessUntil_congr (fun d => ?_) hjobs
    rw [runDates, catchUpDates_eq]
    refine @idle_runDates input _ kind jobs False _ _ _ ⟨fun _ => rfl, fun h => h.elim⟩
      (fun d hd => ?_) d
    rw [← catchUpDates_eq] at hd ⊢
    rw [hnext]
    rcases hanchored with h | h | h | ⟨e, he, hstops⟩
    · exact absurd (.inl h) hplan
    · exact absurd (.inr h) hplan
    · have hmem := mem_catchUpDates.mp hd
      refine .inl (lt_of_le_of_ne hmem.2.1 fun heq => h ?_)
      rwa [heq] at hd
    · have hmem := mem_catchUpDates.mp hd
      by_cases hlt : d < latest
      · exact .inl hlt
      · have hearly : e < latest := hstops.2.1
        exact .inr (.inr ⟨e, he, by omega, hstops⟩)

theorem gaplessUntil_cron {jobs : Jobs} {input : DailyInput}
    (hjobs : GaplessUntil jobs kind (latestCompleteDate input.startedAt))
    (hanchored : AnchoredEvent kind jobs (.cron input)) :
    GaplessUntil (runDaily input jobs) kind (latestCompleteDate input.startedAt) := by
  rw [runDaily]
  cases hclaim : claimReconciliation jobs input.startedAt input.requested.lease with
  | none =>
    refine gaplessUntil_runDates hjobs (hanchored.resolve_left ?_)
    rintro ⟨claimed, hclaimed, _⟩
    rw [hclaim] at hclaimed
    cases hclaimed
  | some claimed =>
    obtain ⟨hkey, hframe⟩ := claimReconciliation_frame hclaim
    obtain ⟨claim, rest⟩ := claimed
    dsimp only
    by_cases hrun : claim.disposition = .run
    · rw [if_pos hrun]
      refine gaplessUntil_congr (fun d => ?_) hjobs
      rw [runRequested_frame fun h => by rw [← h] at hkey; cases hkey]
      exact hframe kind d
    · rw [if_neg hrun]
      have hplain : Anchored kind jobs input := by
        refine hanchored.resolve_left ?_
        rintro ⟨claimed, hclaimed, hdisposition⟩
        rw [hclaim] at hclaimed
        obtain rfl := Option.some.inj hclaimed
        exact hrun hdisposition
      refine gaplessUntil_runDates (gaplessUntil_congr (hframe kind) hjobs) ?_
      simpa only [Anchored, planDaily_congr hframe, latestSucceededDate_congr (hframe kind),
        planned_congr (hframe kind)] using hplain

def Event.startedAt? : Event → Option Instant
  | .cron input => some input.startedAt
  | .request _ _ _ => none

theorem latestCompleteDate_mono {t u : Instant} (h : t ≤ u) :
    latestCompleteDate t ≤ latestCompleteDate u := by
  have hdiv : (t + seconds (9 * 3600)) / seconds 86400 ≤ (u + seconds (9 * 3600)) / seconds 86400 :=
    Int.ediv_le_ediv (by decide) (add_le_add_left h _)
  exact sub_le_sub_right hdiv 1

/-- What a kind of daily work promises about its dates. -/
structure NoSkippedDates (jobs : Jobs) (kind : DailyKind) : Prop where
  succeeded : ∀ f d e, Planned jobs kind f → Succeeded jobs kind d → f ≤ e → e ≤ d →
    Succeeded jobs kind e
  blocks : ∀ e d, Planned jobs kind e → ¬ Succeeded jobs kind e → e < d → ¬ Planned jobs kind d
  rows : ∀ f d e, Planned jobs kind f → Planned jobs kind d → f ≤ e → e ≤ d → Planned jobs kind e

theorem noSkippedDates {jobs : Jobs} (h : Gapless jobs kind) : NoSkippedDates jobs kind := by
  refine ⟨fun f d e hf hd hfe hed => ?_, fun e d he hopen hed hd => ?_,
    fun f d e hf hd hfe hed => ?_⟩
  · by_cases hend : e = d
    · rw [hend]
      exact hd
    · exact h f d e hf (planned_of_succeeded hd) hfe (by omega)
  · exact hopen (h e d e he hd (le_refl e) hed)
  · by_cases hend : e = d
    · rw [hend]
      exact hd
    · exact planned_of_succeeded (h f d e hf hd hfe (by omega))

theorem gapless_run {jobs : Jobs} {events : List Event}
    (hordered : (events.filterMap Event.startedAt?).Pairwise (· ≤ ·))
    (hmeets : Meets dailyStep (AnchoredEvent kind) jobs events) (hgapless : Gapless jobs kind)
    (hbounded : ∀ t ∈ events.filterMap Event.startedAt?,
      ∀ d, Planned jobs kind d → d ≤ latestCompleteDate t) :
    Gapless (run dailyStep jobs events) kind := by
  induction events generalizing jobs with
  | nil => exact hgapless
  | cons event events ih =>
    obtain ⟨hanchored, hmeets⟩ := hmeets
    rw [run_cons]
    rw [attempt_of_ok (show dailyStep jobs event = .ok (handle jobs event) from rfl)] at hmeets ⊢
    cases event with
    | cron input =>
      obtain ⟨hlater, hordered⟩ := List.pairwise_cons.mp hordered
      have hnow := hbounded input.startedAt List.mem_cons_self
      have hnext := gaplessUntil_cron ⟨hgapless, hnow⟩ hanchored
      exact ih hordered hmeets hnext.gapless fun t ht d hd =>
        (hnext.bounded d hd).trans (latestCompleteDate_mono (hlater t ht))
    | request jobId request requestedAt =>
      have hframe (d : ℤ) : (handle jobs (.request jobId request requestedAt)).find?
          (.daily kind d) = jobs.find? (.daily kind d) := by
        refine (enqueue_row jobs _).2 _ ?_
        simp [queuedJob]
      exact ih hordered hmeets ((gapless_congr hframe).mpr hgapless) fun t ht d hd =>
        hbounded t ht d ((planned_congr hframe d).mp hd)

/-- Along a run whose calls are anchored, the dates of a kind are planned, and
    succeed, without a gap. -/
theorem dailyJobs_noSkippedDates {jobs : Jobs} (hfresh : ∀ d, ¬ Planned jobs kind d)
    {events : List Event} (hordered : (events.filterMap Event.startedAt?).Pairwise (· ≤ ·))
    (hmeets : Meets dailyStep (AnchoredEvent kind) jobs events) :
    NoSkippedDates (run dailyStep jobs events) kind :=
  noSkippedDates (gapless_run hordered hmeets (fun f _ _ hf => absurd hf (hfresh f))
    fun _ _ d hd => absurd hd (hfresh d))

instance (stored : Option ScheduledJobRun) : Decidable (RowSucceeded stored) :=
  Option.decidableExistsMem stored

instance (jobs : Jobs) (d : ℤ) : Decidable (Planned jobs kind d) :=
  inferInstanceAs (Decidable (_ = _))

instance (jobs : Jobs) (d : ℤ) : Decidable (Succeeded jobs kind d) :=
  inferInstanceAs (Decidable (RowSucceeded _))

instance (jobs : Jobs) (input : DailyInput) : Decidable (RunsRequested jobs input) :=
  Option.decidableExistsMem _

def noonInput (day : ℤ) (reports : ℤ → Reconciled ReportSummary)
    (retention : ℤ → Reconciled RetentionSummary) : DailyInput where
  startedAt := seconds (day * 86400 + 10800)
  claiming := fun _ _ => ⟨seconds (day * 86400 + 10801), seconds (day * 86400 + 10802), 7⟩
  reports := reports
  retention := retention
  requested := ⟨seconds (day * 86400 + 10800), seconds (day * 86400 + 10803), 8⟩

def appended (d : ℤ) : Reconciled ReportSummary := .returned ⟨true, 1, BitVec.ofInt 128 d, 1⟩

def cleaned (_ : ℤ) : Reconciled RetentionSummary := .returned ⟨0, 0, 0⟩

/-- The first report ever fails; the next day plans only its own date. -/
def failedFirstDate : List Event :=
  [.cron (noonInput 20661 (fun _ => .failed) cleaned), .cron (noonInput 20662 appended cleaned)]

theorem failedFirstDate_skipped :
    ¬ NoSkippedDates (run dailyStep Table.empty failedFirstDate) .dailyReport := by
  intro h
  exact absurd (h.succeeded 20660 20661 20660 (by decide +kernel) (by decide +kernel) (by decide)
    (by decide)) (by decide +kernel)

def caughtUp : List Event :=
  [.cron (noonInput 20661 appended cleaned), .cron (noonInput 20662 (fun _ => .failed) cleaned),
   .request 5 6 (seconds 1785267000), .cron (noonInput 20664 appended cleaned),
   .cron (noonInput 20664 appended cleaned)]

theorem dailyJobs_noSkippedDates_sample :
    let jobs := run dailyStep Table.empty caughtUp
    (Planned jobs .dailyReport 20660 ∧ Succeeded jobs .dailyReport 20663) ∧
      NoSkippedDates jobs .dailyReport :=
  ⟨by decide +kernel,
    dailyJobs_noSkippedDates (fun d h => by cases h) (by decide +kernel)
      ⟨.inr (.inr (.inl fun d h => by cases h)), .inr (.inl (by decide +kernel)), trivial,
        .inl (by decide +kernel), .inr (.inl (by decide +kernel)), trivial⟩⟩

end Gaps

end PredictionMarketMonitor.DailyJobs
