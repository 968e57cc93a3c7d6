import PredictionMarketMonitor.DailyJobs

set_option autoImplicit false

/-!
# Leases of daily jobs

Workers claim jobs, finish them or report their failure in any order and at any
times. A ledger beside the jobs keeps every lease that was handed out, in order.
-/
namespace PredictionMarketMonitor.DailyLeases

open CivilTime CollectionBase DailyJobs FallibleSteps KeyedTable Sha256

/-- A claim that a worker may run, and when it was made. -/
structure Holder where
  claim : JobClaim
  claimedAt : Instant

structure Ledger where
  jobs : Jobs
  holders : List Holder
  finished : List (Option Digest)

def Ledger.start : Ledger := ⟨Table.empty, [], []⟩

/-- What a worker reports of its claim: the outcomes, and an error code when it failed. -/
structure Work where
  reportOutcome : Option ReportNote
  retentionOutcome : Option RetentionSummary
  errorCode : Option String

/-- The two completions of `daily_execution.py`: `SUCCEEDED`, or `_finish_failure`. -/
def Work.completion (work : Work) (claim : JobClaim) : JobCompletion where
  status := if work.errorCode = none then .succeeded else failureStatus claim
  reportOutcome := work.reportOutcome
  retentionOutcome := work.retentionOutcome
  errorCode := work.errorCode

inductive Call
  | claim (kind : DailyKind) (target : ℤ) (observedAt : Instant) (lease : Digest)
  | claimReconciliation (observedAt : Instant) (lease : Digest)
  | request (jobId request : UUID) (requestedAt : Instant)
  | finish (holder : ℕ) (observedAt : Instant) (work : Work)

def Call.lease? : Call → Option Digest
  | .claim _ _ _ lease | .claimReconciliation _ lease => some lease
  | .request _ _ _ | .finish _ _ _ => none

def Ledger.holdersOf (s : Ledger) (key : JobKey) : List Holder :=
  s.holders.filter (fun h => h.claim.key = key)

def Ledger.record (s : Ledger) (claimed : JobClaim × Jobs) (observedAt : Instant) : Ledger where
  jobs := claimed.2
  holders := if claimed.1.disposition = .run then s.holders ++ [⟨claimed.1, observedAt⟩] else s.holders
  finished := s.finished

inductive CallError
  | claimMissing | noHolder | finishConflict
deriving DecidableEq

def step (s : Ledger) : Call → Except CallError Ledger
  | .claim kind target observedAt lease => do
    let claimed ← present (claim s.jobs kind target observedAt lease) .claimMissing
    return s.record claimed observedAt
  | .claimReconciliation observedAt lease =>
    match claimReconciliation s.jobs observedAt lease with
    | none => .ok s
    | some claimed => .ok (s.record claimed observedAt)
  | .request jobId request requestedAt =>
    .ok { s with
      jobs := enqueue s.jobs (queuedJob (.requested jobId) (some (.requestId request)) requestedAt) }
  | .finish holder observedAt work => do
    let h ← present s.holders[holder]? .noHolder
    let jobs ← present (finish s.jobs h.claim observedAt (work.completion h.claim)) .finishConflict
    return { s with jobs := jobs, finished := h.claim.leaseHash :: s.finished }

def FreshLease (s : Ledger) (call : Call) : Prop :=
  ∀ lease ∈ call.lease?, ∀ h ∈ s.holders, h.claim.leaseHash ≠ some lease

/-- A lease that is neither given up nor older than the stale limit. -/
def Ledger.InForce (s : Ledger) (h : Holder) (t : Instant) : Prop :=
  h.claim.leaseHash ∉ s.finished ∧ h.claimedAt ≤ t ∧ t < h.claimedAt + staleJobAfter

def Ledger.TakenOver (s : Ledger) (holder : ℕ) : Prop :=
  ∃ h ∈ s.holders[holder]?, ∃ later, holder < later ∧
    ∃ g ∈ s.holders[later]?, g.claim.key = h.claim.key

def Final (status : JobStatus) : Prop := status = .succeeded ∨ status = .failedTerminal

section Claims

/-- What a claim makes of the row it has locked. -/
inductive Claimed (job : ScheduledJobRun) (observedAt : Instant) (lease : Digest) :
    JobClaim × ScheduledJobRun → Prop
  | kept {claim : JobClaim} (refused : claim.disposition ≠ .run) :
    Claimed job observedAt lease (claim, job)
  | exhausted {claim : JobClaim} {row : ScheduledJobRun} (refused : claim.disposition ≠ .run)
    (key : row.key = job.key) (attempt : row.attempt = job.attempt)
    (status : row.status = .failedTerminal) (from_ : ¬Final job.status) :
    Claimed job observedAt lease (claim, row)
  | granted {claim : JobClaim} {row : ScheduledJobRun} (claims : claim.disposition = .run)
    (owner : claim.key = job.key ∧ claim.leaseHash = some lease) (key : row.key = job.key)
    (attempt : row.attempt = job.nextAttempt ∧ row.attempt ≤ maxJobAttempts)
    (status : row.status = .running)
    (held : row.leaseHash = some lease)
    (times : row.availableAt = observedAt ∧ row.heartbeatAt = some observedAt)
    (from_ : ¬Final job.status) (free : ¬job.Busy observedAt) :
    Claimed job observedAt lease (claim, row)

theorem claimLocked_claimed (job : ScheduledJobRun) (observedAt : Instant) (lease : Digest) :
    Claimed job observedAt lease (claimLocked job observedAt lease) := by
  unfold claimLocked
  by_cases hsucceeded : job.status = .succeeded
  · rw [if_pos hsucceeded]
    exact .kept (by simp)
  by_cases hterminal : job.status = .failedTerminal
  · rw [if_neg hsucceeded, if_pos hterminal]
    exact .kept (by simp)
  have hopen : ¬Final job.status := not_or.mpr ⟨hsucceeded, hterminal⟩
  by_cases hbusy : job.Busy observedAt
  · rw [if_neg hsucceeded, if_neg hterminal, if_pos hbusy]
    exact .kept (by simp)
  by_cases hexhausted : job.nextAttempt > maxJobAttempts
  · rw [if_neg hsucceeded, if_neg hterminal, if_neg hbusy, if_pos hexhausted]
    exact .exhausted (by simp) rfl rfl rfl hopen
  · rw [if_neg hsucceeded, if_neg hterminal, if_neg hbusy, if_neg hexhausted]
    exact .granted rfl ⟨rfl, rfl⟩ rfl ⟨rfl, not_lt.mp hexhausted⟩ rfl rfl ⟨rfl, rfl⟩ hopen hbusy

/-- A claim locks one stored row and leaves the others. -/
structure Locked (jobs : Jobs) (observedAt : Instant) (lease : Digest) (claimed : JobClaim × Jobs)
    (job row : ScheduledJobRun) : Prop where
  mem : job ∈ jobs
  claims : Claimed job observedAt lease (claimed.1, row)
  rows : ∀ r, r ∈ claimed.2 ↔ r = row ∨ (r ∈ jobs ∧ r.key ≠ job.key)

theorem claimStored_locked {jobs : Jobs} {job : ScheduledJobRun} (hjob : job ∈ jobs)
    (observedAt : Instant) (lease : Digest) :
    Locked jobs observedAt lease (claimStored jobs job observedAt lease) job
      (claimLocked job observedAt lease).2 := by
  refine ⟨hjob, claimLocked_claimed job observedAt lease, fun r => ?_⟩
  rw [claimStored, Table.mem_update]
  constructor
  · rintro (⟨q, hq, hkey, rfl⟩ | ⟨hr, hkey⟩)
    · obtain rfl := Table.eq_of_key hq hjob hkey
      exact .inl rfl
    · exact .inr ⟨hr, hkey⟩
  · rintro (rfl | ⟨hr, hkey⟩)
    · exact .inl ⟨job, hjob, rfl, rfl⟩
    · exact .inr ⟨hr, hkey⟩

end Claims

section Histories

/-- What every history keeps: a running job belongs to the newest lease of its key, and every lease
    before it was given up or had run out when the next one began. -/
structure Inv (s : Ledger) : Prop where
  attempts : ∀ job ∈ s.jobs, job.attempt ≤ maxJobAttempts
  counted : ∀ job ∈ s.jobs,
    (s.holdersOf job.key).length + (if job.status = .queued then 1 else 0) ≤ job.attempt
  stored : ∀ h ∈ s.holders, ∃ job ∈ s.jobs, job.key = h.claim.key ∧ job.status ≠ .queued
  active : ∀ job ∈ s.jobs, job.status = .running → job.heartbeatAt = some job.availableAt
  newest : ∀ job ∈ s.jobs, job.status = .running → ∃ pre h post, s.holders = pre ++ h :: post ∧
    h.claim.leaseHash = job.leaseHash ∧ ∀ g ∈ post, g.claim.key ≠ job.key
  distinct : (s.holders.map (fun h => h.claim.leaseHash)).Nodup
  behind : ∀ job ∈ s.jobs, ¬Final job.status → ∀ h ∈ s.holders, h.claim.key = job.key →
    h.claim.leaseHash ∉ s.finished → h.claimedAt + staleJobAfter ≤ job.availableAt ∨
      (job.status = .running ∧ h.claim.leaseHash = job.leaseHash ∧ h.claimedAt = job.availableAt)
  separated : s.holders.Pairwise (fun g h => g.claim.key = h.claim.key →
    g.claim.leaseHash ∉ s.finished → g.claimedAt + staleJobAfter ≤ h.claimedAt)

theorem inv_start : Inv .start := by
  constructor <;> simp [Ledger.start, Table.not_mem_empty]

theorem mem_enqueue {jobs : Jobs} {job r : ScheduledJobRun} :
    r ∈ enqueue jobs job ↔ r ∈ jobs ∨ (r = job ∧ jobs.find? job.key = none) := by
  rw [enqueue]
  cases hinsert : jobs.insert? job with
  | some inserted =>
    have hfree := (Table.insert?_eq_some.mp hinsert).1
    rw [Option.getD_some, Table.mem_insert hinsert]
    simp [hfree]
  | none =>
    rw [Option.getD_none]
    constructor
    · exact .inl
    · rintro (hr | ⟨_, hfree⟩)
      · exact hr
      · obtain ⟨inserted, hinserted⟩ := Table.exists_insert hfree
        rw [hinsert] at hinserted
        cases hinserted

theorem inv_enqueue {s : Ledger} (hs : Inv s) (key : JobKey) (note : Option ReportNote)
    (at_ : Instant) : Inv { s with jobs := enqueue s.jobs (queuedJob key note at_) } := by
  have hmem (r : ScheduledJobRun) : r ∈ enqueue s.jobs (queuedJob key note at_) ↔
      r ∈ s.jobs ∨ (r = queuedJob key note at_ ∧ s.jobs.find? key = none) := mem_enqueue
  constructor
  · intro job hjob
    rcases (hmem job).mp hjob with hold | ⟨rfl, _⟩
    · exact hs.attempts job hold
    · exact show 1 ≤ maxJobAttempts by decide
  · intro job hjob
    rcases (hmem job).mp hjob with hold | ⟨rfl, hfree⟩
    · exact hs.counted job hold
    · have hnone : s.holdersOf key = [] := by
        rw [Ledger.holdersOf, List.filter_eq_nil_iff]
        intro h hh heq
        obtain ⟨other, hother, hsame, _⟩ := hs.stored h hh
        exact Table.find?_eq_none.mp hfree other hother (hsame.trans (of_decide_eq_true heq))
      change (s.holdersOf key).length + 1 ≤ 1
      rw [hnone]
      exact le_refl _
  · intro h hh
    obtain ⟨job, hjob, hfacts⟩ := hs.stored h hh
    exact ⟨job, (hmem job).mpr (.inl hjob), hfacts⟩
  · intro job hjob hrunning
    rcases (hmem job).mp hjob with hold | ⟨rfl, _⟩
    · exact hs.active job hold hrunning
    · cases hrunning
  · intro job hjob hrunning
    rcases (hmem job).mp hjob with hold | ⟨rfl, _⟩
    · exact hs.newest job hold hrunning
    · cases hrunning
  · exact hs.distinct
  · intro job hjob hopen h hh hkey hlive
    rcases (hmem job).mp hjob with hold | ⟨rfl, hfree⟩
    · exact hs.behind job hold hopen h hh hkey hlive
    -- a job without a row has no holders yet
    · obtain ⟨other, hother, hsame, _⟩ := hs.stored h hh
      exact absurd (hsame.trans hkey) (Table.find?_eq_none.mp hfree other hother)
  · exact hs.separated

theorem behind_claim {s : Ledger} (hs : Inv s) {job : ScheduledJobRun} {observedAt : Instant}
    (hjob : job ∈ s.jobs) (hopen : ¬Final job.status) (hfree : ¬job.Busy observedAt) {h : Holder}
    (hh : h ∈ s.holders) (hkey : h.claim.key = job.key) (hlive : h.claim.leaseHash ∉ s.finished) :
    h.claimedAt + staleJobAfter ≤ observedAt := by
  have hbehind := hs.behind job hjob hopen h hh hkey hlive
  obtain ⟨hrunning, hretry⟩ := not_or.mp hfree
  have hstale : 0 ≤ staleJobAfter := by decide
  cases hstatus : job.status with
  | queued =>
    obtain ⟨other, hother, hsame, hnever⟩ := hs.stored h hh
    obtain rfl := Table.eq_of_key hother hjob (hsame.trans hkey)
    exact absurd hstatus hnever
  | running =>
    have hage : staleJobAfter ≤ observedAt - job.availableAt := not_lt.mp fun hage =>
      hrunning ⟨hstatus, job.availableAt, by rw [hs.active job hjob hstatus]; rfl, hage⟩
    rcases hbehind with hle | ⟨_, _, hsame⟩
    · linarith
    · rw [hsame]
      linarith
  | failedRetryable =>
    have hdue : job.availableAt ≤ observedAt := not_lt.mp fun hdue => hretry ⟨hstatus, hdue⟩
    rcases hbehind with hle | ⟨hrunning, _⟩
    · exact hle.trans hdue
    · rw [hstatus] at hrunning
      cases hrunning
  | succeeded => exact absurd (.inl hstatus) hopen
  | failedTerminal => exact absurd (.inr hstatus) hopen

theorem holdersOf_append (s : Ledger) (jobs : Jobs) (h : Holder) (key : JobKey) :
    (Ledger.mk jobs (s.holders ++ [h]) s.finished).holdersOf key =
      s.holdersOf key ++ if h.claim.key = key then [h] else [] := by
  rw [Ledger.holdersOf, List.filter_append, List.filter_singleton]
  by_cases hkey : h.claim.key = key <;> simp [Ledger.holdersOf, hkey]

section Locked
variable {s : Ledger} {jobs : Jobs} {job row : ScheduledJobRun} {observedAt : Instant}
variable {lease : Digest} {claim : JobClaim}

theorem inv_kept (hs : Inv s) (hsame : ∀ r, r ∈ jobs ↔ r ∈ s.jobs) : Inv { s with jobs := jobs } where
  attempts := fun r hr => hs.attempts r ((hsame r).mp hr)
  counted := fun r hr => hs.counted r ((hsame r).mp hr)
  stored := by
    intro h hh
    obtain ⟨r, hr, hfacts⟩ := hs.stored h hh
    exact ⟨r, (hsame r).mpr hr, hfacts⟩
  active := fun r hr => hs.active r ((hsame r).mp hr)
  newest := fun r hr => hs.newest r ((hsame r).mp hr)
  distinct := hs.distinct
  behind := fun r hr => hs.behind r ((hsame r).mp hr)
  separated := hs.separated

theorem stored_locked (hs : Inv s)
    (hrows : ∀ r, r ∈ jobs ↔ r = row ∨ (r ∈ s.jobs ∧ r.key ≠ job.key)) (key : row.key = job.key)
    (hstarted : row.status ≠ .queued) {h : Holder} (hh : h ∈ s.holders) :
    ∃ r ∈ jobs, r.key = h.claim.key ∧ r.status ≠ .queued := by
  obtain ⟨r, hr, hkey, hstatus⟩ := hs.stored h hh
  by_cases hsame : r.key = job.key
  · exact ⟨row, (hrows row).mpr (.inl rfl), key.trans (hsame.symm.trans hkey), hstarted⟩
  · exact ⟨r, (hrows r).mpr (.inr ⟨hr, hsame⟩), hkey, hstatus⟩

theorem inv_exhausted (hs : Inv s) (hjob : job ∈ s.jobs)
    (hrows : ∀ r, r ∈ jobs ↔ r = row ∨ (r ∈ s.jobs ∧ r.key ≠ job.key)) (key : row.key = job.key)
    (attempt : row.attempt = job.attempt) (status : row.status = .failedTerminal) :
    Inv { s with jobs := jobs } where
  attempts := by
    intro r hr
    rcases (hrows r).mp hr with rfl | ⟨hr, _⟩
    · rw [attempt]
      exact hs.attempts job hjob
    · exact hs.attempts r hr
  counted := by
    intro r hr
    rcases (hrows r).mp hr with rfl | ⟨hr, _⟩
    · have hcounted := hs.counted job hjob
      rw [key, attempt, status]
      change (s.holdersOf job.key).length ≤ job.attempt
      omega
    · exact hs.counted r hr
  stored := fun _ hh => stored_locked hs hrows key (by simp [status]) hh
  active := by
    intro r hr hrunning
    rcases (hrows r).mp hr with rfl | ⟨hr, _⟩
    · rw [status] at hrunning
      cases hrunning
    · exact hs.active r hr hrunning
  newest := by
    intro r hr hrunning
    rcases (hrows r).mp hr with rfl | ⟨hr, _⟩
    · rw [status] at hrunning
      cases hrunning
    · exact hs.newest r hr hrunning
  distinct := hs.distinct
  behind := by
    intro r hr hopen
    rcases (hrows r).mp hr with rfl | ⟨hr, _⟩
    · exact absurd (.inr status) hopen
    · exact hs.behind r hr hopen
  separated := hs.separated

theorem mem_granted (h : Holder) : h ∈ s.holders ++ [⟨claim, observedAt⟩] ↔
    h ∈ s.holders ∨ h = ⟨claim, observedAt⟩ := by simp

theorem counted_granted (hs : Inv s) (hjob : job ∈ s.jobs)
    (hrows : ∀ r, r ∈ jobs ↔ r = row ∨ (r ∈ s.jobs ∧ r.key ≠ job.key)) (howner : claim.key = job.key)
    (key : row.key = job.key) (attempt : row.attempt = job.nextAttempt)
    (status : row.status = .running) {r : ScheduledJobRun} (hr : r ∈ jobs) :
    ((Ledger.mk jobs (s.holders ++ [⟨claim, observedAt⟩]) s.finished).holdersOf r.key).length +
      (if r.status = .queued then 1 else 0) ≤ r.attempt := by
  rcases (hrows r).mp hr with rfl | ⟨hr, hne⟩
  · have hcounted := hs.counted job hjob
    rw [holdersOf_append, key, if_pos howner, attempt, ScheduledJobRun.nextAttempt, status,
      List.length_append]
    by_cases hqueued : job.status = .queued <;> simp [hqueued] at hcounted ⊢ <;> omega
  · have hother : claim.key ≠ r.key := fun heq => hne (heq.symm.trans howner)
    rw [holdersOf_append, if_neg hother, List.append_nil]
    exact hs.counted r hr

theorem newest_granted (hs : Inv s)
    (hrows : ∀ r, r ∈ jobs ↔ r = row ∨ (r ∈ s.jobs ∧ r.key ≠ job.key)) (howner : claim.key = job.key)
    (hheld : claim.leaseHash = row.leaseHash) {r : ScheduledJobRun} (hr : r ∈ jobs)
    (hrunning : r.status = .running) :
    ∃ pre h post, s.holders ++ [⟨claim, observedAt⟩] = pre ++ h :: post ∧
      h.claim.leaseHash = r.leaseHash ∧ ∀ g ∈ post, g.claim.key ≠ r.key := by
  rcases (hrows r).mp hr with rfl | ⟨hr, hne⟩
  · exact ⟨s.holders, ⟨claim, observedAt⟩, [], rfl, hheld, by simp⟩
  · obtain ⟨pre, h, post, hsplit, hlease, hlater⟩ := hs.newest r hr hrunning
    refine ⟨pre, h, post ++ [⟨claim, observedAt⟩], by simp [hsplit], hlease, fun g hg => ?_⟩
    rcases List.mem_append.mp hg with hold | hnew
    · exact hlater g hold
    · obtain rfl := List.mem_singleton.mp hnew
      rw [howner]
      exact hne.symm

theorem distinct_granted (hs : Inv s) (hlease : claim.leaseHash = some lease)
    (hfresh : ∀ h ∈ s.holders, h.claim.leaseHash ≠ some lease) :
    ((s.holders ++ [Holder.mk claim observedAt]).map fun h => h.claim.leaseHash).Nodup := by
  rw [List.map_append, List.nodup_append]
  refine ⟨hs.distinct, List.nodup_singleton _, ?_⟩
  intro taken htaken other hother
  obtain ⟨h, hh, rfl⟩ := List.mem_map.mp htaken
  obtain rfl := List.mem_singleton.mp hother
  change h.claim.leaseHash ≠ claim.leaseHash
  rw [hlease]
  exact hfresh h hh

theorem inv_granted (hs : Inv s) (hjob : job ∈ s.jobs)
    (hrows : ∀ r, r ∈ jobs ↔ r = row ∨ (r ∈ s.jobs ∧ r.key ≠ job.key))
    (howner : claim.key = job.key ∧ claim.leaseHash = some lease) (key : row.key = job.key)
    (attempt : row.attempt = job.nextAttempt ∧ row.attempt ≤ maxJobAttempts)
    (status : row.status = .running) (held : row.leaseHash = some lease)
    (times : row.availableAt = observedAt ∧ row.heartbeatAt = some observedAt)
    (hopen : ¬Final job.status) (hfree : ¬job.Busy observedAt)
    (hfresh : ∀ h ∈ s.holders, h.claim.leaseHash ≠ some lease) :
    Inv ⟨jobs, s.holders ++ [⟨claim, observedAt⟩], s.finished⟩ where
  attempts := by
    intro r hr
    rcases (hrows r).mp hr with rfl | ⟨hr, _⟩
    · exact attempt.2
    · exact hs.attempts r hr
  counted := fun _ hr => counted_granted hs hjob hrows howner.1 key attempt.1 status hr
  stored := by
    intro h hh
    rcases (mem_granted h).mp hh with hold | rfl
    · exact stored_locked hs hrows key (by simp [status]) hold
    · exact ⟨row, (hrows row).mpr (.inl rfl), key.trans howner.1.symm, by simp [status]⟩
  active := by
    intro r hr hrunning
    rcases (hrows r).mp hr with rfl | ⟨hr, _⟩
    · rw [times.1, times.2]
    · exact hs.active r hr hrunning
  newest := fun _ hr hrunning =>
    newest_granted hs hrows howner.1 (howner.2.trans held.symm) hr hrunning
  distinct := distinct_granted hs howner.2 hfresh
  behind := by
    intro r hr hnever h hh hkey hlive
    rcases (hrows r).mp hr with rfl | ⟨hr, hne⟩ <;> rcases (mem_granted h).mp hh with hold | rfl
    · rw [times.1]
      exact .inl (behind_claim hs hjob hopen hfree hold (hkey.trans key) hlive)
    · exact .inr ⟨status, howner.2.trans held.symm, times.1.symm⟩
    · exact hs.behind r hr hnever h hold hkey hlive
    · exact absurd (hkey.symm.trans howner.1) hne
  separated := by
    rw [List.pairwise_append]
    refine ⟨hs.separated, List.pairwise_singleton _ _, ?_⟩
    intro g hg h hh hkey hlive
    obtain rfl := List.mem_singleton.mp hh
    exact behind_claim hs hjob hopen hfree hg (hkey.trans howner.1) hlive

theorem inv_locked (hs : Inv s) {claimed : JobClaim × Jobs}
    (h : Locked s.jobs observedAt lease claimed job row)
    (hfresh : ∀ h ∈ s.holders, h.claim.leaseHash ≠ some lease) :
    Inv (s.record claimed observedAt) := by
  obtain ⟨claim, jobs⟩ := claimed
  obtain ⟨hjob, hclaims, hrows⟩ := h
  dsimp only at hclaims hrows
  cases hclaims with
  | kept refused =>
    rw [Ledger.record, if_neg refused]
    refine inv_kept hs fun r => ?_
    rw [hrows]
    constructor
    · rintro (rfl | ⟨hr, _⟩)
      · exact hjob
      · exact hr
    · intro hr
      by_cases hkey : r.key = job.key
      · exact .inl (Table.eq_of_key hr hjob hkey)
      · exact .inr ⟨hr, hkey⟩
  | exhausted refused key attempt status from_ =>
    rw [Ledger.record, if_neg refused]
    exact inv_exhausted hs hjob hrows key attempt status
  | granted claims owner key attempt status held times from_ free =>
    rw [Ledger.record, if_pos claims]
    exact inv_granted hs hjob hrows owner key attempt status held times from_ free hfresh

end Locked

theorem finish_eq_some {jobs next : Jobs} {claim : JobClaim} {observedAt : Instant}
    {completion : JobCompletion} (h : finish jobs claim observedAt completion = some next) :
    ∃ job ∈ jobs, job.key = claim.key ∧ job.status = .running ∧ job.leaseHash = claim.leaseHash ∧
      ∀ r, r ∈ next ↔ r = completeRow job observedAt completion ∨ (r ∈ jobs ∧ r.key ≠ job.key) := by
  unfold finish at h
  split at h
  · cases h
  rename_i job hfind
  obtain ⟨hjob, hkey⟩ := Table.find?_eq_some.mp hfind
  split at h
  · rename_i hheld
    obtain rfl := Option.some.inj h
    refine ⟨job, hjob, hkey, hheld.1, hheld.2.1, fun r => ?_⟩
    rw [Table.mem_update]
    constructor
    · rintro (⟨q, hq, hsame, rfl⟩ | ⟨hr, hother⟩)
      · obtain rfl := Table.eq_of_key hq hjob (hsame.trans hkey.symm)
        exact .inl rfl
      · exact .inr ⟨hr, fun heq => hother (heq.trans hkey)⟩
    · rintro (rfl | ⟨hr, hother⟩)
      · exact .inl ⟨job, hjob, hkey, rfl⟩
      · exact .inr ⟨hr, fun heq => hother (heq.trans hkey.symm)⟩
  · cases h

theorem completion_status (work : Work) (claim : JobClaim) :
    Final (work.completion claim).status ∨ (work.completion claim).status = .failedRetryable := by
  change Final (if work.errorCode = none then .succeeded else failureStatus claim) ∨ _
  by_cases hdone : work.errorCode = none
  · exact .inl (.inl (if_pos hdone))
  · by_cases hleft : claim.attempt < maxJobAttempts
    · exact .inr ((if_neg hdone).trans (if_pos hleft))
    · exact .inl (.inr ((if_neg hdone).trans (if_neg hleft)))

theorem inv_finish {s : Ledger} (hs : Inv s) {next : Jobs} {h : Holder} {observedAt : Instant}
    {work : Work} (hfinish : finish s.jobs h.claim observedAt (work.completion h.claim) = some next) :
    Inv { s with jobs := next, finished := h.claim.leaseHash :: s.finished } := by
  obtain ⟨job, hjob, hkey, hrunning, hlease, hrows⟩ := finish_eq_some hfinish
  have hcompleted := completion_status work h.claim
  have hstatus : (completeRow job observedAt (work.completion h.claim)).status ≠ .running := by
    rcases hcompleted with (heq | heq) | heq <;> simp [completeRow, heq]
  constructor
  · intro r hr
    rcases (hrows r).mp hr with rfl | ⟨hr, _⟩
    · exact hs.attempts job hjob
    · exact hs.attempts r hr
  · intro r hr
    rcases (hrows r).mp hr with rfl | ⟨hr, _⟩
    · have hcounted := hs.counted job hjob
      have hqueued : (work.completion h.claim).status ≠ .queued := by
        rcases hcompleted with (heq | heq) | heq <;> simp [heq]
      change (s.holdersOf job.key).length +
        (if (work.completion h.claim).status = .queued then 1 else 0) ≤ job.attempt
      rw [if_neg hqueued]
      omega
    · exact hs.counted r hr
  · intro g hg
    obtain ⟨r, hr, hsame, hqueued⟩ := hs.stored g hg
    by_cases heq : r.key = job.key
    · refine ⟨_, (hrows _).mpr (.inl rfl), heq.symm.trans hsame, ?_⟩
      rcases hcompleted with (heq | heq) | heq <;> simp [completeRow, heq]
    · exact ⟨r, (hrows r).mpr (.inr ⟨hr, heq⟩), hsame, hqueued⟩
  · intro r hr hactive
    rcases (hrows r).mp hr with rfl | ⟨hr, _⟩
    · exact absurd hactive hstatus
    · exact hs.active r hr hactive
  · intro r hr hactive
    rcases (hrows r).mp hr with rfl | ⟨hr, _⟩
    · exact absurd hactive hstatus
    · exact hs.newest r hr hactive
  · exact hs.distinct
  · intro r hr hopen g hg hsame hlive
    obtain ⟨hother, hlive⟩ := not_or.mp (fun hmem => hlive (List.mem_cons.mpr hmem))
    rcases (hrows r).mp hr with rfl | ⟨hr, _⟩
    -- the lease just given up is the one the row had
    · refine .inl ?_
      rcases hs.behind job hjob (by simp [Final, hrunning]) g hg hsame hlive with hle | ⟨_, heq, _⟩
      · exact hle
      · exact absurd (heq.trans hlease) hother
    · exact hs.behind r hr hopen g hg hsame hlive
  · exact hs.separated.imp fun hapart hsame hlive =>
      hapart hsame fun hmem => hlive (List.mem_cons_of_mem _ hmem)

/-- What an accepted call does: a claim of one row, a new row, a finished claim, or nothing. -/
inductive Stepped (s : Ledger) : Call → Ledger → Prop
  | claims {kind : DailyKind} {target : ℤ} {observedAt : Instant} {lease : Digest}
    {claimed : JobClaim × Jobs} {job row : ScheduledJobRun}
    (locked : Locked (enqueue s.jobs (queuedJob (.daily kind target) none observedAt)) observedAt
      lease claimed job row) :
    Stepped s (.claim kind target observedAt lease) (s.record claimed observedAt)
  | reconciles {observedAt : Instant} {lease : Digest} {claimed : JobClaim × Jobs}
    {job row : ScheduledJobRun} (locked : Locked s.jobs observedAt lease claimed job row) :
    Stepped s (.claimReconciliation observedAt lease) (s.record claimed observedAt)
  | idle {observedAt : Instant} {lease : Digest} : Stepped s (.claimReconciliation observedAt lease) s
  | requests {jobId request : UUID} {requestedAt : Instant} :
    Stepped s (.request jobId request requestedAt) { s with
      jobs := enqueue s.jobs (queuedJob (.requested jobId) (some (.requestId request)) requestedAt) }
  | finishes {holder : ℕ} {observedAt : Instant} {work : Work} {h : Holder} {next : Jobs}
    (located : s.holders[holder]? = some h)
    (finished : finish s.jobs h.claim observedAt (work.completion h.claim) = some next) :
    Stepped s (.finish holder observedAt work)
      { s with jobs := next, finished := h.claim.leaseHash :: s.finished }

theorem step_cases {s t : Ledger} {call : Call} (h : step s call = .ok t) : Stepped s call t := by
  cases call with
  | claim kind target observedAt lease =>
    obtain ⟨claimed, hclaimed, h⟩ := bind_eq_ok.mp h
    obtain rfl := Except.ok.inj h
    obtain ⟨job, hjob, rfl⟩ := Option.map_eq_some_iff.mp (present_eq_ok.mp hclaimed)
    exact .claims (claimStored_locked (Table.find?_eq_some.mp hjob).1 observedAt lease)
  | claimReconciliation observedAt lease =>
    unfold step at h
    dsimp only at h
    split at h
    · obtain rfl := Except.ok.inj h
      exact .idle
    · rename_i claimed hclaimed
      obtain rfl := Except.ok.inj h
      obtain ⟨job, hjob, rfl⟩ := Option.map_eq_some_iff.mp hclaimed
      exact .reconciles (claimStored_locked (List.mem_filter.mp (earliest_mem hjob)).1 observedAt lease)
  | request jobId request requestedAt =>
    obtain rfl := Except.ok.inj h
    exact .requests
  | finish holder observedAt work =>
    obtain ⟨holding, hholding, h⟩ := bind_eq_ok.mp h
    obtain ⟨next, hnext, h⟩ := bind_eq_ok.mp h
    obtain rfl := Except.ok.inj h
    exact .finishes (present_eq_ok.mp hholding) (present_eq_ok.mp hnext)

theorem inv_step {s t : Ledger} {call : Call} (hs : Inv s) (hfresh : FreshLease s call)
    (h : step s call = .ok t) : Inv t := by
  cases step_cases h with
  | claims locked =>
    exact inv_locked (inv_enqueue hs _ none _) locked (hfresh _ rfl)
  | reconciles locked => exact inv_locked hs locked (hfresh _ rfl)
  | idle => exact hs
  | requests => exact inv_enqueue hs _ _ _
  | finishes located finished => exact inv_finish hs finished

theorem inv_run {s : Ledger} {calls : List Call} (hs : Inv s) (hfresh : Meets step FreshLease s calls) :
    Inv (run step s calls) :=
  run_invariant_of (fun _ _ _ hs hfresh hstep => inv_step hs hfresh hstep) hs hfresh

end Histories

section Results

/-- No call moves a job that has succeeded or failed for good. -/
theorem final_step {s t : Ledger} {call : Call} {job : ScheduledJobRun} (hjob : job ∈ s.jobs)
    (hfinal : Final job.status) (h : step s call = .ok t) : job ∈ t.jobs := by
  have hlocked {jobs : Jobs} {observedAt : Instant} {lease : Digest} {claimed : JobClaim × Jobs}
      {locked row : ScheduledJobRun} (hmem : job ∈ jobs)
      (hlocked : Locked jobs observedAt lease claimed locked row) : job ∈ claimed.2 := by
    by_cases hkey : job.key = locked.key
    · obtain rfl := Table.eq_of_key hmem hlocked.mem hkey
      have hclaims := hlocked.claims
      generalize hpair : (claimed.1, row) = pair at hclaims
      cases hclaims with
      | kept refused => exact (hlocked.rows job).mpr (.inl (Prod.mk.inj hpair).2.symm)
      | exhausted _ _ _ _ from_ => exact absurd hfinal from_
      | granted _ _ _ _ _ _ _ from_ => exact absurd hfinal from_
    · exact (hlocked.rows job).mpr (.inr ⟨hmem, hkey⟩)
  cases step_cases h with
  | claims locked => exact hlocked (mem_enqueue.mpr (.inl hjob)) locked
  | reconciles locked => exact hlocked hjob locked
  | idle => exact hjob
  | requests => exact mem_enqueue.mpr (.inl hjob)
  | finishes located finished =>
    obtain ⟨running, hrunning, _, hstatus, _, hrows⟩ := finish_eq_some finished
    refine (hrows job).mpr (.inr ⟨hjob, fun hkey => ?_⟩)
    obtain rfl := Table.eq_of_key hjob hrunning hkey
    rcases hfinal with heq | heq <;> (rw [hstatus] at heq; cases heq)

theorem finish_newest {s : Ledger} (hs : Inv s) {holder : ℕ} {h : Holder} {observedAt : Instant}
    {completion : JobCompletion} {next : Jobs} (hlocated : s.holders[holder]? = some h)
    (hfinish : finish s.jobs h.claim observedAt completion = some next) : ¬s.TakenOver holder := by
  rintro ⟨other, hother, later, hlater, g, hg, hsame⟩
  obtain rfl := Option.some.inj (hlocated.symm.trans hother)
  obtain ⟨job, hjob, hkey, hrunning, hlease, _⟩ := finish_eq_some hfinish
  obtain ⟨pre, newest, post, hsplit, heq, hnone⟩ := hs.newest job hjob hrunning
  have hdistinct := hs.distinct
  rw [hsplit] at hlocated hg hdistinct
  -- leases are distinct, so the finished one is the newest
  have hindex : pre.length = holder := by
    refine (List.getElem?_inj (by simp) hdistinct).mp ?_
    rw [List.getElem?_map, List.getElem?_map, hlocated]
    simp [heq, hlease]
  have hpost : g ∈ post := by
    rw [List.getElem?_append_right (by omega)] at hg
    obtain ⟨d, hd⟩ : ∃ d, later - pre.length = d + 1 := ⟨later - pre.length - 1, by omega⟩
    rw [hd, List.getElem?_cons_succ] at hg
    exact List.mem_of_getElem? hg
  exact hnone g hpost (hsame.trans hkey.symm)

theorem inForce_unique {s : Ledger} (hs : Inv s) {t : Instant} {g h : Holder} (hg : g ∈ s.holders)
    (hh : h ∈ s.holders) (hkey : g.claim.key = h.claim.key) (hgt : s.InForce g t)
    (hht : s.InForce h t) : g = h := by
  have happart := List.pairwise_iff_getElem.mp hs.separated
  obtain ⟨i, hi, rfl⟩ := List.getElem_of_mem hg
  obtain ⟨j, hj, rfl⟩ := List.getElem_of_mem hh
  rcases lt_trichotomy i j with hlt | rfl | hlt
  · have hle := happart i j hi hj hlt hkey hgt.1
    exact absurd (hle.trans hht.2.1) (not_le.mpr hgt.2.2)
  · rfl
  · have hle := happart j i hj hi hlt hkey.symm hht.1
    exact absurd (hle.trans hgt.2.1) (not_le.mpr hht.2.2)

/-- What holds of the leases and jobs of a history, and of every job from then on. -/
structure LeasesLawful (s : Ledger) : Prop where
  attempts : ∀ job ∈ s.jobs, (s.holdersOf job.key).length ≤ job.attempt ∧ job.attempt ≤ maxJobAttempts
  exclusive : ∀ t, ∀ g ∈ s.holders, ∀ h ∈ s.holders, g.claim.key = h.claim.key →
    s.InForce g t → s.InForce h t → g = h
  superseded : ∀ holder, s.TakenOver holder → ∀ observedAt work,
    attempt step s (.finish holder observedAt work) = s
  absorbing : ∀ job ∈ s.jobs, Final job.status → ∀ more, job ∈ (run step s more).jobs

/-- Whatever the workers do, and whenever: three attempts at most, one lease in force at most, no word
    of a worker that was replaced, and no change to a job that is done. -/
theorem dailyLeases_lawful {calls : List Call} (hfresh : Meets step FreshLease .start calls) :
    LeasesLawful (run step .start calls) := by
  have hs := inv_run inv_start hfresh
  generalize run step .start calls = s at hs
  refine ⟨fun job hjob => ⟨?_, hs.attempts job hjob⟩,
    fun t g hg h hh hkey hgt hht => inForce_unique hs hg hh hkey hgt hht, ?_, ?_⟩
  · have hcounted := hs.counted job hjob
    omega
  · intro holder htaken observedAt work
    rcases attempt_cases step s (.finish holder observedAt work) with hsame | hstep
    · exact hsame
    generalize attempt step s (.finish holder observedAt work) = t at hstep
    cases step_cases hstep with
    | finishes located finished => exact absurd htaken (finish_newest hs located finished)
  · intro job hjob hfinal more
    exact run_invariant (I := fun t => job ∈ t.jobs)
      (fun _ _ _ hmem hstep => final_step hmem hfinal hstep) more hjob

/-- A lease runs out, another worker takes over, and the first one reports too late. -/
def takenOver : List Call :=
  [.claim .dailyReport 20660 (seconds 0) 7, .claim .dailyReport 20660 (seconds 600) 8,
   .claim .dailyReport 20660 (seconds 900) 9, .finish 0 (seconds 901) ⟨none, none, none⟩,
   .finish 1 (seconds 902) ⟨none, none, some "report_reconciliation_failed"⟩]

theorem dailyLeases_lawful_sample :
    (run step .start takenOver).TakenOver 0 ∧ LeasesLawful (run step .start takenOver) :=
  ⟨⟨_, rfl, 1, by decide, _, rfl, rfl⟩, dailyLeases_lawful (by
    refine ⟨?_, ?_, ?_, ?_, ?_, trivial⟩ <;> simp [FreshLease, Call.lease?] <;> decide +kernel)⟩

end Results

end PredictionMarketMonitor.DailyLeases
