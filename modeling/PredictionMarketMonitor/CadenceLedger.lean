import PredictionMarketMonitor.CadenceAttempts

set_option autoImplicit false

/-!
# The cadence attempt ledger over whole histories

Every delivery appends at most one attempt. Credit is given once a slot, and only
where the recorded facts support it; the exceptions are a late failure that keeps
its retry permission, and attempts that crowd the number of the first one.
-/
namespace PredictionMarketMonitor.CadenceLedger

open CadenceAttempts CanonicalJson CivilTime CollectionBase FallibleSteps JsonReader KeyedTable
open Sha256

section Laws

/-- What an accepted attempt shows in the tables. -/
structure Credited (ledger : Ledger) (a : CadenceWorkflowAttempt) : Prop where
  eligible : a.eligible = true
  reason : a.reasonCode = .accepted
  noRetry : a.retryPermitted = false
  mode : a.workflowMode ≠ .manual
  sources : ∃ c ∈ ledger.contracts, c.cadenceEpochId = a.cadenceEpochId ∧
    (∀ id ∈ expectedSources c, ∃ r ∈ storedSources ledger a.attemptId, r.sourceId = id) ∧
    ∀ r ∈ storedSources ledger a.attemptId, r.sourceId ∈ expectedSources c ∧ r.succeeded = true
  timely : ∃ s ∈ ledger.slots, s.key = a.slot ∧ s.dueAt ≤ a.startedAt ∧
    a.startedAt < s.dueAt + startLimit a.scheduleKind ∧ a.startedAt ≤ a.completedAt ∧
    a.completedAt < a.startedAt + completionLimit a.scheduleKind ∧ a.completedAt ≤ a.createdAtDb
  predecessor : a.workflowMode = .retry → ∃ b ∈ ledger.attempts,
    a.failedPredecessorAttemptId = some b.attemptId ∧ b.slot = a.slot ∧ b.accepted = false ∧
      b.retryPermitted = true

structure LedgerLaws (ledger : Ledger) : Prop where
  accepted : ∀ a ∈ ledger.attempts, a.accepted = true ↔
    ∃ s ∈ ledger.slots, s.key = a.slot ∧ s.acceptedAttemptId = some a.attemptId
  once : ∀ a ∈ ledger.attempts, ∀ b ∈ ledger.attempts, a.accepted = true → b.accepted = true →
    a.slot = b.slot → a = b
  pointer : ∀ s ∈ ledger.slots, ∀ id ∈ s.acceptedAttemptId,
    ∃ a ∈ ledger.attempts, a.attemptId = id ∧ a.slot = s.key ∧ a.accepted = true
  credited : ∀ a ∈ ledger.attempts, a.accepted = true → Credited ledger a
  closed : ∀ front a middle b back,
    ledger.attempts.rows = front ++ a :: (middle ++ b :: back) → a.accepted = true →
      a.slot = b.slot → b.retryPermitted = false

/-- A timely first scheduled attempt of its slot with both sources succeeded. -/
structure TimelyFirst (ledger : Ledger) (d : Delivery) (s : CadenceWorkflowSlot)
    (c : CadenceEpochContract) : Prop where
  authorized : d.authorized = true
  identity : requireWorkflowIdentity d.payload = .ok ()
  fresh : ledger.attempts.find? d.payload.attemptId = none
  slot : ledger.slots.find? d.payload.slot = some s
  contract : ledger.contracts.find? d.payload.epochId = some c
  valid : c.invalidatedAt = none
  mode : d.payload.workflowMode = .schedule
  initial : InitialValid d.payload
  sources : reportedSources d.payload = expectedSources c
  succeeded : AllSucceeded d.payload
  started : s.dueAt ≤ d.payload.startedAt.instant ∧
    d.payload.startedAt.instant < s.dueAt + startLimit d.payload.scheduleKind
  completed : d.payload.startedAt.instant ≤ d.payload.completedAt.instant ∧
    d.payload.completedAt.instant <
      d.payload.startedAt.instant + completionLimit d.payload.scheduleKind ∧
    d.payload.completedAt.instant ≤ d.dbNow

def Unscheduled (ledger : Ledger) (slot : SlotKey) : Prop :=
  ∀ a ∈ ledger.attempts, a.slot = slot → a.workflowMode ≠ .schedule

structure DeliveryLaws (ledger : Ledger) (d : Delivery) : Prop where
  noInternal : ∀ e, record ledger d = .error e → ¬e.Internal
  creditable : ∀ s c, TimelyFirst ledger d s c → Unscheduled ledger d.payload.slot →
    ∃ receipt next, record ledger d = .ok (receipt, next) ∧ receipt.cadenceAccepted = true
  repeated : ∀ receipt next, record ledger d = .ok (receipt, next) →
    ∀ (later : List Delivery) (again : Delivery), again.authorized = true →
      again.payload = d.payload →
      record (run recordStep next later) again = .ok (receipt, run recordStep next later)

end Laws

section Condition

/-- A delivery that reaches its slot unrecorded. -/
structure Arrives (ledger : Ledger) (d : Delivery) (s : CadenceWorkflowSlot)
    (c : CadenceEpochContract) : Prop where
  authorized : d.authorized = true
  identity : requireWorkflowIdentity d.payload = .ok ()
  fresh : ledger.attempts.find? d.payload.attemptId = none
  slot : ledger.slots.find? d.payload.slot = some s
  contract : ledger.contracts.find? d.payload.epochId = some c

/-- The attempt has passed every check before the one for recorded attempts of its
    number. -/
def ReachesDuplicateCheck (ledger : Ledger) (p : CadenceWorkflowAttemptRequest)
    (s : CadenceWorkflowSlot) (c : CadenceEpochContract) : Prop :=
  basicReason p c = none ∧ s.acceptedAttemptId = none ∧
    ((p.workflowMode = .schedule ∧ InitialValid p) ∨
      (p.workflowMode = .retry ∧ RetryValid p ∧
        ∃ failed ∈ failedPredecessor ledger p, Retryable failed p))

def InRange (d : Datetime) : Prop :=
  seconds (-62135596800) ≤ d.instant ∧ d.instant < seconds 253402300800

/-- What a delivery that reaches its slot must satisfy. -/
structure Sound (ledger : Ledger) (d : Delivery) (s : CadenceWorkflowSlot)
    (c : CadenceEpochContract) : Prop where
  inRange : InRange d.payload.startedAt ∧ InRange d.payload.completedAt
  aware : d.payload.startedAt.Aware ∧ d.payload.completedAt.Aware
  ordered : d.payload.startedAt.instant ≤ d.payload.completedAt.instant
  columns : d.payload.runId < 2 ^ 63 ∧ d.payload.runAttempt < 2 ^ 31
  freeRun : ∀ a ∈ ledger.attempts,
    a.workflowRun ≠ (d.payload.workflow, d.payload.runId, d.payload.runAttempt)
  predecessor : ∀ id ∈ d.payload.failedPredecessorAttemptId,
    id = d.payload.attemptId ∨ ∃ a ∈ ledger.attempts, a.attemptId = id
  known : ∀ r ∈ d.payload.sourceResults, r.sourceId ∈ ledger.communitySources
  consistent : ∀ r ∈ d.payload.sourceResults, ∀ r' ∈ d.payload.sourceResults,
    r.sourceId = r'.sourceId → r.projection = r'.projection
  -- two recorded attempts of its number make the duplicate check raise
  single : ReachesDuplicateCheck ledger d.payload s c →
    (logicalAttempts ledger d.payload).length ≤ 1
  -- an unscheduled attempt of its number stands in the way of the first scheduled one
  unblocked : TimelyFirst ledger d s c → Unscheduled ledger d.payload.slot →
    logicalAttempts ledger d.payload = []
  -- a failure of the first attempt keeps its retry permission behind an acceptance
  closed : s.acceptedAttemptId ≠ none → basicReason d.payload c = some .sourceFailed →
    d.payload.workflowMode = .schedule → d.payload.cadenceAttempt = 1 → SafeFailure d.payload →
    s.dueAt + startLimit d.payload.scheduleKind ≤ d.payload.completedAt.instant

def Recordable (ledger : Ledger) (d : Delivery) : Prop :=
  ∀ s c, Arrives ledger d s c → Sound ledger d s c

/-- The ledger of fresh epochs, in which nothing is recorded. -/
structure Opened (ledger : Ledger) : Prop where
  attempts : ledger.attempts.rows = []
  receipts : ledger.receipts.rows = []
  slots : ∀ s ∈ ledger.slots, s.acceptedAttemptId = none

end Condition

section Writes

theorem insert_update {α κ : Type} [DecidableEq κ] {key : α → κ} {t u : Table key} {a : α}
    {k : κ} {f : α → α} (hf : ∀ a, key (f a) = key a) (h : t.insert? a = some u)
    (hk : key a = k) : (u.update k f hf).rows = t.rows ++ [f a] := by
  subst hk
  obtain ⟨hfree, hrows⟩ := Table.insert?_eq_some.mp h
  have hkeep : t.rows.map (fun b => if key b = key a then f b else b) = t.rows := by
    refine (List.map_congr_left fun b hb => ?_).trans (List.map_id _)
    rw [if_neg (Table.find?_eq_none.mp hfree b hb)]
    rfl
  have hmap : (u.update (key a) f hf).rows =
      u.rows.map (fun b => if key b = key a then f b else b) := rfl
  rw [hmap, hrows, List.map_append, hkeep, List.map_singleton, if_pos rfl]

theorem insertAttempt_eq_ok {ledger next : Ledger} {a : CadenceWorkflowAttempt} :
    insertAttempt ledger a = .ok next ↔ FitsColumns a ∧ (a.Checked ∧ RefersOk ledger a) ∧
      ∃ attempts, ledger.attempts.insert? a = some attempts ∧
        next = { ledger with attempts := attempts } := by
  rw [insertAttempt, require_bind, require_bind, bind_eq_ok]
  refine and_congr_right fun _ => and_congr_right fun _ => exists_congr fun attempts => ?_
  rw [present_eq_ok]
  exact and_congr_right fun _ => ⟨fun h => (Except.ok.inj h).symm, fun h => by rw [h]; rfl⟩

def sourceRow (id : UUID) (r : SourceResult) : CadenceAttemptSourceReceipt :=
  ⟨id, r.sourceId, decide (r.status = .succeeded), r.receiptSha256⟩

/-- The receipts behind the ones that were there, all of one attempt. -/
structure SourcesStored (ledger next : Ledger) (id : UUID) (results : List SourceResult)
    (new : List CadenceAttemptSourceReceipt) : Prop where
  rest : ∃ receipts, next = { ledger with receipts := receipts } ∧
    receipts.rows = ledger.receipts.rows ++ new
  own : ∀ row ∈ new, ∃ r ∈ results, row = sourceRow id r
  all : ∀ r ∈ results, ∃ row ∈ next.receipts, row.key = (id, r.sourceId)

theorem insertSource_ok {ledger : Ledger} {id : UUID} {r : SourceResult}
    (h : r.sourceId ∈ ledger.communitySources) :
    ∃ next new, insertSource id ledger r = .ok next ∧ SourcesStored ledger next id [r] new := by
  rw [insertSource, require_of h, ok_bind]
  dsimp only
  cases hinsert : ledger.receipts.insert? (sourceRow id r) with
  | some receipts =>
    have hrows := (Table.insert?_eq_some.mp hinsert).2
    refine ⟨{ ledger with receipts := receipts }, [sourceRow id r], ?_, ⟨receipts, rfl, hrows⟩,
      ?_, ?_⟩
    · rw [sourceRow] at hinsert
      rw [hinsert]
      rfl
    · intro row hrow
      exact ⟨r, List.mem_singleton_self r, List.mem_singleton.mp hrow⟩
    · intro r' hr'
      rw [List.mem_singleton.mp hr']
      exact ⟨sourceRow id r, (Table.mem_insert hinsert).mpr (.inr rfl), rfl⟩
  | none =>
    refine ⟨ledger, [], ?_, ⟨ledger.receipts, rfl, (List.append_nil _).symm⟩, ?_, ?_⟩
    · rw [sourceRow] at hinsert
      rw [hinsert]
      rfl
    · intro row hrow
      cases hrow
    · intro r' hr'
      rw [List.mem_singleton.mp hr']
      by_contra hfree
      have hnone : ledger.receipts.find? (sourceRow id r).key = none :=
        Table.find?_eq_none.mpr fun row hrow hkey => hfree ⟨row, hrow, hkey⟩
      obtain ⟨_, hsome⟩ := Table.exists_insert hnone
      rw [hinsert] at hsome
      cases hsome

theorem insertSource_known {ledger next : Ledger} {id : UUID} {r : SourceResult}
    (h : insertSource id ledger r = .ok next) : r.sourceId ∈ ledger.communitySources :=
  (require_bind.mp h).1

theorem insertSource_eq_ok {ledger next : Ledger} {id : UUID} {r : SourceResult}
    (h : insertSource id ledger r = .ok next) : ∃ new, SourcesStored ledger next id [r] new := by
  obtain ⟨other, new, hother, hstored⟩ := @insertSource_ok ledger id r (insertSource_known h)
  rw [h] at hother
  rw [Except.ok.inj hother]
  exact ⟨new, hstored⟩

theorem sourcesStored_nil (ledger : Ledger) (id : UUID) : SourcesStored ledger ledger id [] [] where
  rest := ⟨ledger.receipts, rfl, (List.append_nil _).symm⟩
  own := by simp
  all := by simp

theorem sourcesStored_cons {ledger mid next : Ledger} {id : UUID} {r : SourceResult}
    {rs : List SourceResult} {first rest : List CadenceAttemptSourceReceipt}
    (hfirst : SourcesStored ledger mid id [r] first) (hrest : SourcesStored mid next id rs rest) :
    SourcesStored ledger next id (r :: rs) (first ++ rest) := by
  obtain ⟨middle, rfl, hmiddle⟩ := hfirst.rest
  obtain ⟨receipts, rfl, hreceipts⟩ := hrest.rest
  refine ⟨⟨receipts, rfl, ?_⟩, ?_, ?_⟩
  · rw [hreceipts, hmiddle, List.append_assoc]
  · intro row hrow
    rcases List.mem_append.mp hrow with hrow | hrow
    · obtain ⟨r', hr', rfl⟩ := hfirst.own row hrow
      exact ⟨r', List.mem_cons.mpr (.inl (List.mem_singleton.mp hr')), rfl⟩
    · obtain ⟨r', hr', rfl⟩ := hrest.own row hrow
      exact ⟨r', List.mem_cons_of_mem r hr', rfl⟩
  · intro r' hr'
    rcases List.mem_cons.mp hr' with rfl | hr'
    · obtain ⟨row, hrow, hkey⟩ := hfirst.all r' (List.mem_singleton_self r')
      have hkept : row ∈ receipts.rows := by
        rw [hreceipts]
        exact List.mem_append_left _ hrow
      exact ⟨row, hkept, hkey⟩
    · exact hrest.all r' hr'

theorem insertSources_eq_ok {results : List SourceResult} {ledger next : Ledger} {id : UUID}
    (h : results.foldlM (insertSource id) ledger = .ok next) :
    ∃ new, SourcesStored ledger next id results new := by
  induction results generalizing ledger with
  | nil =>
    rw [← Except.ok.inj h]
    exact ⟨[], sourcesStored_nil ledger id⟩
  | cons r rs ih =>
    rw [List.foldlM_cons, bind_eq_ok] at h
    obtain ⟨mid, hmid, h⟩ := h
    obtain ⟨first, hfirst⟩ := insertSource_eq_ok hmid
    obtain ⟨rest, hrest⟩ := ih h
    exact ⟨first ++ rest, sourcesStored_cons hfirst hrest⟩

theorem insertSources_ok {results : List SourceResult} {ledger : Ledger} {id : UUID}
    (h : ∀ r ∈ results, r.sourceId ∈ ledger.communitySources) :
    ∃ next, results.foldlM (insertSource id) ledger = .ok next := by
  induction results generalizing ledger with
  | nil => exact ⟨ledger, rfl⟩
  | cons r rs ih =>
    obtain ⟨mid, new, hmid, hstored⟩ := @insertSource_ok ledger id r (h r (by simp))
    obtain ⟨receipts, hsame, _⟩ := hstored.rest
    obtain ⟨next, hnext⟩ := @ih mid (by
      intro r' hr'
      rw [hsame]
      exact h r' (by simp [hr']))
    exact ⟨next, by rw [List.foldlM_cons, hmid, ok_bind, hnext]⟩

end Writes

section Decisions

theorem astimezone_eq_ok {d : Datetime} {t : Instant} :
    astimezone d = .ok t ↔ InRange d ∧ t = d.instant := by
  rw [astimezone, require_bind]
  exact and_congr_right fun _ => ⟨fun h => (Except.ok.inj h).symm, fun h => by rw [h]; rfl⟩

theorem astimezone_of {d : Datetime} (h : InRange d) : astimezone d = .ok d.instant :=
  astimezone_eq_ok.mpr ⟨h, rfl⟩

theorem basicReason_eq_none {p : CadenceWorkflowAttemptRequest} {c : CadenceEpochContract} :
    basicReason p c = none ↔ c.invalidatedAt = none ∧ reportedSources p = expectedSources c ∧
      AllSucceeded p ∧ p.workflowMode ≠ .manual := by
  rw [basicReason]
  split_ifs with hinvalid hsources hfailed hmanual <;> simp_all

theorem logicalDuplicate_ne_sourceFailed {ledger : Ledger} {p : CadenceWorkflowAttemptRequest}
    {reason : Option Reason} (h : logicalDuplicate ledger p = .ok reason) :
    reason ≠ some .sourceFailed := by
  rw [logicalDuplicate] at h
  split at h
  · cases h
    exact Option.some_ne_none _ ∘ Eq.symm
  · cases h
    split_ifs <;> simp
  · cases h

theorem branchRejection_ne_sourceFailed {ledger : Ledger} {p : CadenceWorkflowAttemptRequest}
    {reason : Option Reason} (h : branchRejection ledger p = .ok reason) :
    reason ≠ some .sourceFailed := by
  rw [branchRejection] at h
  split at h
  · cases h
    simp
  · split_ifs at h
    · exact logicalDuplicate_ne_sourceFailed h
    · cases h
      simp
  · split_ifs at h
    · split at h
      · cases h
        simp
      · split_ifs at h
        · exact logicalDuplicate_ne_sourceFailed h
        · cases h
          simp
    · cases h
      simp

structure Timely (p : CadenceWorkflowAttemptRequest) (s : CadenceWorkflowSlot) (dbNow : Instant) :
    Prop where
  due : s.dueAt ≤ p.startedAt.instant
  start : p.startedAt.instant < s.dueAt + startLimit p.scheduleKind
  order : p.startedAt.instant ≤ p.completedAt.instant
  limit : p.completedAt.instant < p.startedAt.instant + completionLimit p.scheduleKind
  past : p.completedAt.instant ≤ dbNow

theorem timeReason_of {p : CadenceWorkflowAttemptRequest} (s : CadenceWorkflowSlot)
    (dbNow : Instant) (hrange : InRange p.startedAt ∧ InRange p.completedAt) :
    ∃ reason, timeReason p s dbNow = .ok reason ∧ reason ≠ some .sourceFailed := by
  rw [timeReason, astimezone_of hrange.1, ok_bind, astimezone_of hrange.2, ok_bind]
  refine ⟨_, rfl, ?_⟩
  split_ifs <;> simp

theorem timeReason_eq_none {p : CadenceWorkflowAttemptRequest} {s : CadenceWorkflowSlot}
    {dbNow : Instant} : timeReason p s dbNow = .ok none ↔
      (InRange p.startedAt ∧ InRange p.completedAt) ∧ Timely p s dbNow := by
  rw [timeReason, bind_eq_ok]
  constructor
  · rintro ⟨started, hstarted, h⟩
    obtain ⟨hstart, rfl⟩ := astimezone_eq_ok.mp hstarted
    obtain ⟨completed, hcompleted, h⟩ := bind_eq_ok.mp h
    obtain ⟨hcomplete, rfl⟩ := astimezone_eq_ok.mp hcompleted
    have hnone := Except.ok.inj h
    split_ifs at hnone with h1 h2 h3 h4
    rw [not_or] at h4
    exact ⟨⟨hstart, hcomplete⟩, ⟨not_lt.mp h1, not_le.mp h2, not_lt.mp h3, not_le.mp h4.1,
      not_lt.mp h4.2⟩⟩
  · rintro ⟨⟨hstart, hcomplete⟩, htimely⟩
    refine ⟨_, astimezone_of hstart, bind_eq_ok.mpr ⟨_, astimezone_of hcomplete, ?_⟩⟩
    rw [if_neg (not_lt.mpr htimely.due), if_neg (not_le.mpr htimely.start),
      if_neg (not_lt.mpr htimely.order), if_neg]
    · rfl
    · exact not_or.mpr ⟨not_le.mpr htimely.limit, not_lt.mpr htimely.past⟩

theorem branchRejection_eq_none {ledger : Ledger} {p : CadenceWorkflowAttemptRequest}
    (hmode : p.workflowMode ≠ .manual) : branchRejection ledger p = .ok none ↔
      logicalAttempts ledger p = [] ∧ ((p.workflowMode = .schedule ∧ InitialValid p) ∨
        (p.workflowMode = .retry ∧ RetryValid p ∧
          ∃ failed ∈ failedPredecessor ledger p, Retryable failed p)) := by
  have hduplicate : logicalDuplicate ledger p = .ok none ↔ logicalAttempts ledger p = [] := by
    rw [logicalDuplicate]
    split <;> simp_all
  rw [branchRejection]
  split
  · rename_i h
    exact absurd h hmode
  · rename_i h
    by_cases hvalid : InitialValid p
    · rw [if_neg (not_not.mpr hvalid), hduplicate]
      simp [h, hvalid]
    · rw [if_pos hvalid]
      simp [h, hvalid]
  · rename_i h
    by_cases hvalid : RetryValid p
    · rw [if_neg (not_not.mpr hvalid)]
      cases hfailed : failedPredecessor ledger p with
      | none => simp [h]
      | some failed =>
        by_cases hretry : Retryable failed p
        · dsimp only
          rw [if_neg (not_not.mpr hretry), hduplicate]
          simp [h, hvalid, hretry]
        · dsimp only
          rw [if_pos hretry]
          simp [h, hretry]
    · rw [if_pos hvalid]
      simp [h, hvalid]

theorem rejectionReason_eq_none {ledger : Ledger} {p : CadenceWorkflowAttemptRequest}
    {c : CadenceEpochContract} {s : CadenceWorkflowSlot} {dbNow : Instant} :
    rejectionReason ledger p c s dbNow = .ok none ↔ ReachesDuplicateCheck ledger p s c ∧
      logicalAttempts ledger p = [] ∧ (InRange p.startedAt ∧ InRange p.completedAt) ∧
        Timely p s dbNow := by
  rw [rejectionReason, ReachesDuplicateCheck]
  cases hbasic : basicReason p c with
  | some basic => simp
  | none =>
    have hmode := (basicReason_eq_none.mp hbasic).2.2.2
    by_cases hopen : s.acceptedAttemptId = none
    · simp only [ne_eq, hopen, not_true_eq_false, if_false, true_and]
      rw [bind_eq_ok, ← timeReason_eq_none]
      constructor
      · rintro ⟨branch, hbranch, h⟩
        cases branch with
        | some reason => cases Except.ok.inj h
        | none =>
          obtain ⟨hempty, hproof⟩ := (branchRejection_eq_none hmode).mp hbranch
          exact ⟨hproof, hempty, h⟩
      · rintro ⟨hproof, hempty, h⟩
        exact ⟨none, (branchRejection_eq_none hmode).mpr ⟨hempty, hproof⟩, h⟩
    · simp [hopen]

theorem rejectionReason_sourceFailed {ledger : Ledger} {p : CadenceWorkflowAttemptRequest}
    {c : CadenceEpochContract} {s : CadenceWorkflowSlot} {dbNow : Instant}
    (h : rejectionReason ledger p c s dbNow = .ok (some .sourceFailed)) :
    basicReason p c = some .sourceFailed := by
  rw [rejectionReason] at h
  cases hbasic : basicReason p c with
  | some basic =>
    rw [hbasic] at h
    exact Except.ok.inj h
  | none =>
    rw [hbasic] at h
    dsimp only at h
    by_cases hopen : s.acceptedAttemptId = none
    · rw [if_neg (not_not.mpr hopen)] at h
      obtain ⟨branch, hbranch, h⟩ := bind_eq_ok.mp h
      cases branch with
      | some reason => exact absurd (Except.ok.inj h) (branchRejection_ne_sourceFailed hbranch)
      | none =>
        obtain ⟨started, hstarted, htime⟩ := bind_eq_ok.mp h
        obtain ⟨completed, hcompleted, _⟩ := bind_eq_ok.mp htime
        have hrange := And.intro (astimezone_eq_ok.mp hstarted).1 (astimezone_eq_ok.mp hcompleted).1
        obtain ⟨reason, hreason, hne⟩ := timeReason_of s dbNow hrange
        rw [hreason] at h
        exact absurd (Except.ok.inj h) hne
    · rw [if_pos hopen] at h
      cases Except.ok.inj h

theorem rejectionReason_ok {ledger : Ledger} {p : CadenceWorkflowAttemptRequest}
    {c : CadenceEpochContract} {s : CadenceWorkflowSlot} (dbNow : Instant)
    (hrange : InRange p.startedAt ∧ InRange p.completedAt)
    (hsingle : ReachesDuplicateCheck ledger p s c → (logicalAttempts ledger p).length ≤ 1) :
    ∃ reason, rejectionReason ledger p c s dbNow = .ok reason := by
  rw [rejectionReason]
  cases hbasic : basicReason p c with
  | some basic => exact ⟨some basic, rfl⟩
  | none =>
    dsimp only
    by_cases hopen : s.acceptedAttemptId = none
    · rw [if_neg (not_not.mpr hopen)]
      have hduplicate (hreaches : ReachesDuplicateCheck ledger p s c) :
          ∃ reason, logicalDuplicate ledger p = .ok reason := by
        have hlength := hsingle hreaches
        rw [logicalDuplicate]
        split
        · exact ⟨_, rfl⟩
        · exact ⟨_, rfl⟩
        · rename_i hnil hcons
          match hrows : logicalAttempts ledger p with
          | [] => exact absurd hrows hnil
          | [a] => exact absurd hrows (hcons a)
          | a :: b :: rest =>
            rw [hrows] at hlength
            simp at hlength
      have hbranch : ∃ branch, branchRejection ledger p = .ok branch := by
        rw [branchRejection]
        split
        · exact ⟨_, rfl⟩
        · rename_i hmode
          by_cases hvalid : InitialValid p
          · rw [if_neg (not_not.mpr hvalid)]
            exact hduplicate ⟨hbasic, hopen, .inl ⟨hmode, hvalid⟩⟩
          · exact ⟨_, if_pos hvalid⟩
        · rename_i hmode
          by_cases hvalid : RetryValid p
          · rw [if_neg (not_not.mpr hvalid)]
            cases hfailed : failedPredecessor ledger p with
            | none => exact ⟨_, rfl⟩
            | some failed =>
              dsimp only
              by_cases hretry : Retryable failed p
              · rw [if_neg (not_not.mpr hretry)]
                exact hduplicate ⟨hbasic, hopen, .inr ⟨hmode, hvalid, failed, hfailed, hretry⟩⟩
              · exact ⟨_, if_pos hretry⟩
          · exact ⟨_, if_pos hvalid⟩
      obtain ⟨branch, hbranch⟩ := hbranch
      rw [hbranch, ok_bind]
      cases branch with
      | some reason => exact ⟨_, rfl⟩
      | none =>
        obtain ⟨reason, hreason, _⟩ := timeReason_of s dbNow hrange
        exact ⟨reason, hreason⟩
    · exact ⟨_, if_pos hopen⟩

theorem retryPermitted_ok {p : CadenceWorkflowAttemptRequest} (s : CadenceWorkflowSlot)
    (reason : Option Reason) (h : InRange p.completedAt) :
    ∃ retry, retryPermitted p s reason = .ok retry := by
  rw [retryPermitted]
  split_ifs
  · exact ⟨false, rfl⟩
  · exact ⟨_, by rw [astimezone_of h]; rfl⟩

theorem retryPermitted_true {p : CadenceWorkflowAttemptRequest} {s : CadenceWorkflowSlot}
    {reason : Option Reason} (h : retryPermitted p s reason = .ok true) :
    reason = some .sourceFailed ∧ p.workflowMode = .schedule ∧ p.cadenceAttempt = 1 ∧
      SafeFailure p ∧ p.completedAt.instant < s.dueAt + startLimit p.scheduleKind := by
  rw [retryPermitted] at h
  split_ifs at h with hblocked
  · cases h
  · simp only [ne_eq, not_or, not_not] at hblocked
    obtain ⟨completed, hcompleted, h⟩ := bind_eq_ok.mp h
    obtain ⟨_, rfl⟩ := astimezone_eq_ok.mp hcompleted
    exact ⟨hblocked.1, hblocked.2.1, hblocked.2.2.1, hblocked.2.2.2,
      of_decide_eq_true (Except.ok.inj h)⟩

theorem retryPermitted_none {p : CadenceWorkflowAttemptRequest} {s : CadenceWorkflowSlot} :
    retryPermitted p s none = .ok false := if_pos (.inl (by simp))

end Decisions

section Transactions

def decidedRow (d : Delivery) (c : CadenceEpochContract) (reason : Option Reason) (retry : Bool) :
    CadenceWorkflowAttempt :=
  (attemptRow d c d.payload.startedAt.instant d.payload.completedAt.instant reason retry).finalize
    reason.isNone (reason.getD .accepted) retry

@[simp] theorem decidedRow_attemptId (d : Delivery) (c : CadenceEpochContract)
    (reason : Option Reason) (retry : Bool) :
    (decidedRow d c reason retry).attemptId = d.payload.attemptId := rfl

def decidedSlots (ledger : Ledger) (p : CadenceWorkflowAttemptRequest) (reason : Option Reason) :
    Table CadenceWorkflowSlot.key :=
  if reason = none then acceptedSlots ledger p else ledger.slots

/-- What a transaction that records an attempt has read and written. -/
structure Recorded (ledger next : Ledger) (d : Delivery) (receipt : CadenceWorkflowAttemptReceipt)
    (s : CadenceWorkflowSlot) (c : CadenceEpochContract) (reason : Option Reason) (retry : Bool)
    (new : List CadenceAttemptSourceReceipt) : Prop where
  slot : ledger.slots.find? d.payload.slot = some s
  contract : ledger.contracts.find? d.payload.epochId = some c
  decided : rejectionReason ledger d.payload c s d.dbNow = .ok reason
  permitted : retryPermitted d.payload s reason = .ok retry
  fresh : ledger.attempts.find? d.payload.attemptId = none
  attempts : next.attempts.rows = ledger.attempts.rows ++ [decidedRow d c reason retry]
  receipts : next.receipts.rows = ledger.receipts.rows ++ new
  own : ∀ row ∈ new, ∃ r ∈ d.payload.sourceResults, row = sourceRow d.payload.attemptId r
  all : ∀ r ∈ d.payload.sourceResults, ∃ row ∈ next.receipts,
    row.key = (d.payload.attemptId, r.sourceId)
  slots : next.slots = decidedSlots ledger d.payload reason
  contracts : next.contracts = ledger.contracts
  communitySources : next.communitySources = ledger.communitySources
  answer : buildReceipt d.payload.attemptId reason.isNone (reason.getD .accepted) retry d.dbNow =
    .ok receipt

theorem receiptBody_safe (id : UUID) (accepted : Bool) (reason : Reason) (retry : Bool)
    (createdAt : Instant) : Receipts.SafeIntegers (receiptBody id accepted reason retry createdAt) := by
  simp [receiptBody, Json.object, Json.ofString, UUID.json, Receipts.SafeIntegers,
    Receipts.SafeFields]

theorem receiptBody_depth (id : UUID) (accepted : Bool) (reason : Reason) (retry : Bool)
    (createdAt : Instant) :
    (document (receiptBody id accepted reason retry createdAt) : Document Empty).depth ≤
      Receipts.receiptLevels := by
  simp [receiptBody, Json.object, Json.ofString, UUID.json, document, members, Document.depth,
    membersDepth, Receipts.receiptLevels]

theorem buildReceipt_ok (id : UUID) (accepted : Bool) (reason : Reason) (retry : Bool)
    (createdAt : Instant) : ∃ receipt, buildReceipt id accepted reason retry createdAt =
      .ok receipt ∧ receipt.cadenceAccepted = accepted := by
  rw [buildReceipt, Receipts.canonicalize_document
    (receiptBody_safe id accepted reason retry createdAt)
    (receiptBody_depth id accepted reason retry createdAt)]
  exact ⟨_, rfl, rfl⟩

theorem accept_rejected (ledger : Ledger) (p : CadenceWorkflowAttemptRequest) :
    accept ledger p false = (false, ledger) := if_neg (fun h => Bool.false_ne_true h.1)

theorem accept_eligible {ledger : Ledger} {p : CadenceWorkflowAttemptRequest}
    {s : CadenceWorkflowSlot} (hslot : ledger.slots.find? p.slot = some s)
    (hopen : s.acceptedAttemptId = none) : accept ledger p true =
      (true, { ledger with slots := decidedSlots ledger p none }) := by
  obtain ⟨hmem, hkey⟩ := Table.find?_eq_some.mp hslot
  exact if_pos ⟨rfl, s, hmem, hkey, hopen⟩

theorem accept_decided {ledger sourced : Ledger} {d : Delivery} {s : CadenceWorkflowSlot}
    {c : CadenceEpochContract} {reason : Option Reason}
    (hsame : sourced.slots = ledger.slots)
    (hslot : ledger.slots.find? d.payload.slot = some s)
    (hdecided : rejectionReason ledger d.payload c s d.dbNow = .ok reason) :
    accept sourced d.payload reason.isNone =
      (reason.isNone, { sourced with slots := decidedSlots ledger d.payload reason }) := by
  cases reason with
  | some reason =>
    rw [Option.isNone_some, accept_rejected, decidedSlots, if_neg (Option.some_ne_none _), ← hsame]
  | none =>
    have hopen := (rejectionReason_eq_none.mp hdecided).1.2.1
    rw [← hsame] at hslot
    rw [Option.isNone_none, accept_eligible hslot hopen, decidedSlots, decidedSlots, acceptedSlots,
      acceptedSlots, hsame]

theorem recordNew_recorded {ledger next : Ledger} {d : Delivery}
    {receipt : CadenceWorkflowAttemptReceipt}
    (hfresh : ledger.attempts.find? d.payload.attemptId = none)
    (h : recordNew ledger d = .ok (receipt, next)) :
    ∃ s c reason retry new, Recorded ledger next d receipt s c reason retry new := by
  obtain ⟨s, hslot, h⟩ := bind_eq_ok.mp h
  obtain ⟨c, hcontract, h⟩ := bind_eq_ok.mp h
  obtain ⟨reason, hreason, h⟩ := bind_eq_ok.mp h
  obtain ⟨retry, hretry, h⟩ := bind_eq_ok.mp h
  obtain ⟨started, hstarted, h⟩ := bind_eq_ok.mp h
  obtain ⟨completed, hcompleted, h⟩ := bind_eq_ok.mp h
  obtain ⟨inserted, hinserted, h⟩ := bind_eq_ok.mp h
  obtain ⟨sourced, hsourced, h⟩ := bind_eq_ok.mp h
  obtain ⟨_, rfl⟩ := astimezone_eq_ok.mp hstarted
  obtain ⟨_, rfl⟩ := astimezone_eq_ok.mp hcompleted
  obtain ⟨_, _, attempts, hattempts, rfl⟩ := insertAttempt_eq_ok.mp hinserted
  obtain ⟨new, hstored⟩ := insertSources_eq_ok hsourced
  obtain ⟨receipts, rfl, hreceipts⟩ := hstored.rest
  have hsfound := present_eq_ok.mp hslot
  have hnoretry : reason = none → retry = false := by
    rintro rfl
    exact (Except.ok.inj (retryPermitted_none.symm.trans hretry)).symm
  have hfinal : reason.getD (if reason.isNone = true then .accepted else .duplicateAfterAcceptance) =
      reason.getD .accepted := by cases reason <;> rfl
  have hfinalRetry : (if reason.isNone = true then false else retry) = retry := by
    cases reason with
    | none => exact (hnoretry rfl).symm
    | some reason => rfl
  have haccept := @accept_decided ledger { ledger with attempts := attempts, receipts := receipts }
    d s c reason rfl hsfound hreason
  dsimp only at h
  rw [haccept] at h
  dsimp only at h
  rw [hfinal, hfinalRetry] at h
  obtain ⟨finalized, hfinalized, h⟩ := bind_eq_ok.mp h
  obtain ⟨answer, hanswer, h⟩ := bind_eq_ok.mp h
  obtain ⟨rfl, rfl⟩ := Prod.mk.inj (Except.ok.inj h)
  obtain ⟨_, hdone⟩ := require_bind.mp hfinalized
  obtain rfl := Except.ok.inj hdone
  exact ⟨s, c, reason, retry, new, {
    slot := hsfound
    contract := present_eq_ok.mp hcontract
    decided := hreason
    permitted := hretry
    fresh := hfresh
    attempts := insert_update (CadenceWorkflowAttempt.attemptId_finalize _ _ _) hattempts rfl
    receipts := hreceipts
    own := hstored.own
    all := hstored.all
    slots := rfl
    contracts := rfl
    communitySources := rfl
    answer := hanswer }⟩

/-- A delivery answers from the recorded attempt or records one. -/
theorem record_cases {ledger next : Ledger} {d : Delivery}
    {receipt : CadenceWorkflowAttemptReceipt} (h : record ledger d = .ok (receipt, next)) :
    (next = ledger ∧ ∃ existing, ledger.attempts.find? d.payload.attemptId = some existing ∧
      replay ledger d.payload existing = .ok receipt) ∨
    ∃ s c reason retry new, Recorded ledger next d receipt s c reason retry new := by
  obtain ⟨_, h⟩ := require_bind.mp h
  obtain ⟨_, _, h⟩ := bind_eq_ok.mp h
  cases hfind : ledger.attempts.find? d.payload.attemptId with
  | some existing =>
    rw [hfind] at h
    obtain ⟨answer, hanswer, h⟩ := bind_eq_ok.mp h
    obtain ⟨rfl, rfl⟩ := Prod.mk.inj (Except.ok.inj h)
    exact .inl ⟨rfl, existing, rfl, hanswer⟩
  | none =>
    rw [hfind] at h
    exact .inr (recordNew_recorded hfind h)

theorem recordStep_eq_ok {ledger next : Ledger} {d : Delivery} :
    recordStep ledger d = .ok next ↔ ∃ receipt, record ledger d = .ok (receipt, next) := by
  rw [recordStep, bind_eq_ok]
  constructor
  · rintro ⟨⟨receipt, other⟩, hrecord, h⟩
    exact ⟨receipt, by rw [hrecord, Except.ok.inj h]⟩
  · rintro ⟨receipt, hrecord⟩
    exact ⟨(receipt, next), hrecord, rfl⟩

end Transactions

section Growth

/-- The recorded facts that a later ledger keeps. -/
structure Grows (ledger next : Ledger) : Prop where
  contracts : next.contracts = ledger.contracts
  attempts : ∀ a ∈ ledger.attempts, a ∈ next.attempts
  stored : ∀ a ∈ ledger.attempts,
    storedSources next a.attemptId = storedSources ledger a.attemptId
  slots : ∀ s ∈ ledger.slots, ∃ t ∈ next.slots, t.key = s.key ∧ t.dueAt = s.dueAt

theorem grows_refl (ledger : Ledger) : Grows ledger ledger where
  contracts := rfl
  attempts := fun _ h => h
  stored := fun _ _ => rfl
  slots := fun s h => ⟨s, h, rfl, rfl⟩

theorem grows_trans {ledger mid next : Ledger} (h : Grows ledger mid) (k : Grows mid next) :
    Grows ledger next where
  contracts := k.contracts.trans h.contracts
  attempts := fun a ha => k.attempts a (h.attempts a ha)
  stored := fun a ha => (k.stored a (h.attempts a ha)).trans (h.stored a ha)
  slots := by
    intro s hs
    obtain ⟨t, ht, hkey, hdue⟩ := h.slots s hs
    obtain ⟨u, hu, hkey', hdue'⟩ := k.slots t ht
    exact ⟨u, hu, hkey'.trans hkey, hdue'.trans hdue⟩

variable {ledger next : Ledger} {d : Delivery} {receipt : CadenceWorkflowAttemptReceipt}
  {s : CadenceWorkflowSlot} {c : CadenceEpochContract} {reason : Option Reason} {retry : Bool}
  {new : List CadenceAttemptSourceReceipt}

theorem mem_attempts (h : Recorded ledger next d receipt s c reason retry new)
    {a : CadenceWorkflowAttempt} :
    a ∈ next.attempts ↔ a ∈ ledger.attempts ∨ a = decidedRow d c reason retry := by
  rw [Table.mem_def, h.attempts, List.mem_append, List.mem_singleton]
  rfl

theorem mem_accepted_slots {p : CadenceWorkflowAttemptRequest} {t : CadenceWorkflowSlot} :
    t ∈ decidedSlots ledger p none ↔
      (∃ s ∈ ledger.slots, s.key = p.slot ∧ s.accept p.attemptId = t) ∨
        (t ∈ ledger.slots ∧ t.key ≠ p.slot) := by
  rw [decidedSlots, if_pos rfl]
  exact Table.mem_update

theorem decidedSlots_some {p : CadenceWorkflowAttemptRequest} (reason : Reason) :
    decidedSlots ledger p (some reason) = ledger.slots := if_neg (Option.some_ne_none _)

theorem grows_recorded (h : Recorded ledger next d receipt s c reason retry new) :
    Grows ledger next where
  contracts := h.contracts
  attempts := fun a ha => (mem_attempts h).mpr (.inl ha)
  stored := by
    intro a ha
    have hnew : new.filter (fun r => r.attemptId = a.attemptId) = [] := by
      refine List.filter_eq_nil_iff.mpr fun row hrow => ?_
      obtain ⟨r, _, rfl⟩ := h.own row hrow
      have hne : d.payload.attemptId ≠ a.attemptId :=
        fun heq => Table.find?_eq_none.mp h.fresh a ha heq.symm
      exact fun heq => hne (of_decide_eq_true heq)
    rw [storedSources, storedSources, h.receipts, List.filter_append, hnew, List.append_nil]
  slots := by
    intro t ht
    rw [h.slots]
    cases reason with
    | some reason =>
      rw [decidedSlots_some]
      exact ⟨t, ht, rfl, rfl⟩
    | none =>
      by_cases hkey : t.key = d.payload.slot
      · exact ⟨_, mem_accepted_slots.mpr (.inl ⟨t, ht, hkey, rfl⟩), rfl, rfl⟩
      · exact ⟨t, mem_accepted_slots.mpr (.inr ⟨ht, hkey⟩), rfl, rfl⟩

theorem grows_step (h : recordStep ledger d = .ok next) : Grows ledger next := by
  obtain ⟨receipt, hrecord⟩ := recordStep_eq_ok.mp h
  rcases record_cases hrecord with ⟨rfl, _⟩ | ⟨s, c, reason, retry, new, hrecorded⟩
  · exact grows_refl _
  · exact grows_recorded hrecorded

/-- Along every run the ledger grows. -/
theorem grows_run (ledger : Ledger) (ds : List Delivery) :
    Grows ledger (run recordStep ledger ds) :=
  run_relation grows_refl (fun _ _ _ => grows_trans) (fun _ _ _ _ _ => trivial)
    (fun _ _ _ _ h => grows_step h) ds trivial

theorem credited_grows {a : CadenceWorkflowAttempt} (h : Credited ledger a)
    (ha : a ∈ ledger.attempts) (hgrows : Grows ledger next) : Credited next a where
  eligible := h.eligible
  reason := h.reason
  noRetry := h.noRetry
  mode := h.mode
  sources := by
    rw [hgrows.contracts, hgrows.stored a ha]
    exact h.sources
  timely := by
    obtain ⟨s, hs, hkey, hdue, hstart, hrest⟩ := h.timely
    obtain ⟨t, ht, hkey', hdue'⟩ := hgrows.slots s hs
    rw [← hdue'] at hdue hstart
    exact ⟨t, ht, hkey'.trans hkey, hdue, hstart, hrest⟩
  predecessor := by
    intro hmode
    obtain ⟨b, hb, hrest⟩ := h.predecessor hmode
    exact ⟨b, hgrows.attempts b hb, hrest⟩

end Growth

section Invariants

structure LedgerInvariant (ledger : Ledger) : Prop where
  laws : LedgerLaws ledger
  owned : ∀ r ∈ ledger.receipts, ∃ a ∈ ledger.attempts, a.attemptId = r.attemptId
  retries : ∀ a ∈ ledger.attempts, a.retryPermitted = true →
    a.workflowMode = .schedule ∧ a.accepted = false

theorem ledgerInvariant_opened {ledger : Ledger} (h : Opened ledger) : LedgerInvariant ledger := by
  have hempty (a : CadenceWorkflowAttempt) : a ∉ ledger.attempts := by
    rw [Table.mem_def, h.attempts]
    exact List.not_mem_nil
  refine ⟨⟨fun a ha => absurd ha (hempty a), fun a ha => absurd ha (hempty a), ?_,
    fun a ha => absurd ha (hempty a), ?_⟩, ?_, fun a ha => absurd ha (hempty a)⟩
  · intro s hs id hid
    rw [h.slots s hs] at hid
    cases hid
  · intro front a middle b back hrows
    rw [h.attempts] at hrows
    simp at hrows
  · intro r hr
    rw [Table.mem_def, h.receipts] at hr
    cases hr

variable {ledger next : Ledger} {d : Delivery} {receipt : CadenceWorkflowAttemptReceipt}
  {s : CadenceWorkflowSlot} {c : CadenceEpochContract} {reason : Option Reason} {retry : Bool}
  {new : List CadenceAttemptSourceReceipt}

theorem storedSources_recorded (hinv : LedgerInvariant ledger)
    (h : Recorded ledger next d receipt s c reason retry new) :
    storedSources next d.payload.attemptId = new := by
  have hold : ledger.receipts.rows.filter (fun r => r.attemptId = d.payload.attemptId) = [] := by
    refine List.filter_eq_nil_iff.mpr fun row hrow heq => ?_
    obtain ⟨a, ha, hid⟩ := hinv.owned row hrow
    exact Table.find?_eq_none.mp h.fresh a ha (hid.trans (of_decide_eq_true heq))
  have hnew : new.filter (fun r => r.attemptId = d.payload.attemptId) = new := by
    refine List.filter_eq_self.mpr fun row hrow => ?_
    obtain ⟨r, _, rfl⟩ := h.own row hrow
    exact decide_eq_true rfl
  rw [storedSources, h.receipts, List.filter_append, hold, hnew, List.nil_append]

theorem credited_sources (hinv : LedgerInvariant ledger)
    (h : Recorded ledger next d receipt s c none retry new) :
    (∀ id ∈ expectedSources c, ∃ r ∈ storedSources next d.payload.attemptId, r.sourceId = id) ∧
      ∀ r ∈ storedSources next d.payload.attemptId,
        r.sourceId ∈ expectedSources c ∧ r.succeeded = true := by
  obtain ⟨hreaches, _⟩ := rejectionReason_eq_none.mp h.decided
  obtain ⟨_, hsources, hsucceeded, _⟩ := basicReason_eq_none.mp hreaches.1
  have hstored := storedSources_recorded hinv h
  constructor
  · intro id hid
    rw [← hsources, reportedSources, List.mem_toFinset, List.mem_map] at hid
    obtain ⟨r, hr, rfl⟩ := hid
    obtain ⟨row, hrow, hkey⟩ := h.all r hr
    obtain ⟨hattempt, hsource⟩ := Prod.mk.inj hkey
    exact ⟨row, List.mem_filter.mpr ⟨hrow, decide_eq_true hattempt⟩, hsource⟩
  · rw [hstored]
    intro row hrow
    obtain ⟨r, hr, rfl⟩ := h.own row hrow
    refine ⟨?_, decide_eq_true (hsucceeded r hr)⟩
    rw [← hsources, reportedSources, List.mem_toFinset]
    exact List.mem_map_of_mem hr

theorem credited_recorded (hinv : LedgerInvariant ledger)
    (h : Recorded ledger next d receipt s c none retry new) :
    Credited next (decidedRow d c none retry) := by
  obtain ⟨hreaches, _, _, htimely⟩ := rejectionReason_eq_none.mp h.decided
  obtain ⟨hsmem, hskey⟩ := Table.find?_eq_some.mp h.slot
  obtain ⟨hcmem, hckey⟩ := Table.find?_eq_some.mp h.contract
  have hretry : retry = false :=
    (Except.ok.inj (retryPermitted_none.symm.trans h.permitted)).symm
  have hgrows := grows_recorded h
  refine ⟨rfl, rfl, hretry, (basicReason_eq_none.mp hreaches.1).2.2.2, ?_, ?_, ?_⟩
  · rw [hgrows.contracts]
    exact ⟨c, hcmem, hckey, credited_sources hinv h⟩
  · obtain ⟨t, ht, hkey, hdue⟩ := hgrows.slots s hsmem
    refine ⟨t, ht, hkey.trans hskey, ?_⟩
    rw [hdue]
    exact ⟨htimely.due, htimely.start, htimely.order, htimely.limit, htimely.past⟩
  · intro hmode
    rcases hreaches.2.2 with ⟨hschedule, _⟩ | ⟨_, _, failed, hfailed, haccepted, hpermitted, hslot⟩
    · exact absurd (hschedule.symm.trans hmode) (by decide)
    · obtain ⟨id, hid, hfind⟩ := Option.bind_eq_some_iff.mp hfailed
      obtain ⟨hmem, rfl⟩ := Table.find?_eq_some.mp hfind
      exact ⟨failed, hgrows.attempts failed hmem, hid, hslot, haccepted, hpermitted⟩

theorem accepted_slot (hinv : LedgerInvariant ledger) {a : CadenceWorkflowAttempt}
    (ha : a ∈ ledger.attempts) (haccepted : a.accepted = true)
    (hslot : ledger.slots.find? a.slot = some s) : s.acceptedAttemptId = some a.attemptId := by
  obtain ⟨t, ht, hkey, hid⟩ := (hinv.laws.accepted a ha).mp haccepted
  have hsame : t = s := by
    rw [← hkey, Table.find?_of_mem ht] at hslot
    exact Option.some.inj hslot
  rw [← hsame]
  exact hid

theorem once_of_accepted (h : ∀ a ∈ ledger.attempts, a.accepted = true ↔
    ∃ s ∈ ledger.slots, s.key = a.slot ∧ s.acceptedAttemptId = some a.attemptId) :
    ∀ a ∈ ledger.attempts, ∀ b ∈ ledger.attempts, a.accepted = true → b.accepted = true →
      a.slot = b.slot → a = b := by
  intro a ha b hb haccepted hbccepted hslot
  obtain ⟨s, hs, hskey, hsid⟩ := (h a ha).mp haccepted
  obtain ⟨t, ht, htkey, htid⟩ := (h b hb).mp hbccepted
  have hsame : s = t := Table.eq_of_key hs ht (by rw [hskey, hslot, htkey])
  rw [hsame, htid] at hsid
  exact Table.eq_of_key ha hb (Option.some.inj hsid).symm

theorem unaccepted_of_eligible (h : Recorded ledger next d receipt s c none retry new)
    {t : CadenceWorkflowSlot} (ht : t ∈ ledger.slots) (hkey : t.key = d.payload.slot) :
    t.acceptedAttemptId = none := by
  obtain ⟨hsmem, hskey⟩ := Table.find?_eq_some.mp h.slot
  have hsame : t = s := Table.eq_of_key ht hsmem (hkey.trans hskey.symm)
  rw [hsame]
  exact (rejectionReason_eq_none.mp h.decided).1.2.1

theorem accepted_recorded (hinv : LedgerInvariant ledger)
    (h : Recorded ledger next d receipt s c reason retry new) :
    ∀ a ∈ next.attempts, a.accepted = true ↔
      ∃ t ∈ next.slots, t.key = a.slot ∧ t.acceptedAttemptId = some a.attemptId := by
  intro a ha
  rw [h.slots]
  have hnew : ∀ b ∈ ledger.attempts, b.attemptId ≠ d.payload.attemptId :=
    Table.find?_eq_none.mp h.fresh
  have hunnamed : ∀ t ∈ ledger.slots, t.acceptedAttemptId ≠ some d.payload.attemptId := by
    intro t ht hid
    obtain ⟨b, hb, hbid, _⟩ := hinv.laws.pointer t ht _ hid
    exact hnew b hb hbid
  cases reason with
  | some reason =>
    rw [decidedSlots_some]
    rcases (mem_attempts h).mp ha with ha | rfl
    · exact hinv.laws.accepted a ha
    · refine iff_of_false Bool.false_ne_true ?_
      rintro ⟨t, ht, _, hid⟩
      exact hunnamed t ht hid
  | none =>
    rcases (mem_attempts h).mp ha with ha | rfl
    · rw [hinv.laws.accepted a ha]
      constructor
      · rintro ⟨t, ht, hkey, hid⟩
        refine ⟨t, mem_accepted_slots.mpr (.inr ⟨ht, fun hslot => ?_⟩), hkey, hid⟩
        rw [unaccepted_of_eligible h ht hslot] at hid
        cases hid
      · rintro ⟨t, ht, hkey, hid⟩
        rcases mem_accepted_slots.mp ht with ⟨u, hu, hukey, rfl⟩ | ⟨ht, _⟩
        · exact absurd (Option.some.inj hid).symm (hnew a ha)
        · exact ⟨t, ht, hkey, hid⟩
    · obtain ⟨hsmem, hskey⟩ := Table.find?_eq_some.mp h.slot
      exact iff_of_true rfl
        ⟨s.accept d.payload.attemptId, mem_accepted_slots.mpr (.inl ⟨s, hsmem, hskey, rfl⟩),
          hskey, rfl⟩

theorem pointer_recorded (hinv : LedgerInvariant ledger)
    (h : Recorded ledger next d receipt s c reason retry new) :
    ∀ t ∈ next.slots, ∀ id ∈ t.acceptedAttemptId,
      ∃ a ∈ next.attempts, a.attemptId = id ∧ a.slot = t.key ∧ a.accepted = true := by
  intro t ht id hid
  rw [h.slots] at ht
  have hold : t ∈ ledger.slots →
      ∃ a ∈ next.attempts, a.attemptId = id ∧ a.slot = t.key ∧ a.accepted = true := by
    intro ht
    obtain ⟨a, ha, hrest⟩ := hinv.laws.pointer t ht id hid
    exact ⟨a, (mem_attempts h).mpr (.inl ha), hrest⟩
  cases reason with
  | some reason =>
    rw [decidedSlots_some] at ht
    exact hold ht
  | none =>
    rcases mem_accepted_slots.mp ht with ⟨u, hu, hukey, rfl⟩ | ⟨ht, _⟩
    · exact ⟨_, (mem_attempts h).mpr (.inr rfl), Option.some.inj hid, hukey.symm, rfl⟩
    · exact hold ht

theorem permitted_recorded (h : Recorded ledger next d receipt s c reason true new) :
    basicReason d.payload c = some .sourceFailed ∧ reason = some .sourceFailed ∧
      d.payload.workflowMode = .schedule ∧ d.payload.cadenceAttempt = 1 ∧ SafeFailure d.payload ∧
      d.payload.completedAt.instant < s.dueAt + startLimit d.payload.scheduleKind := by
  obtain ⟨rfl, hrest⟩ := retryPermitted_true h.permitted
  exact ⟨rejectionReason_sourceFailed h.decided, rfl, hrest⟩

theorem closed_recorded (hinv : LedgerInvariant ledger)
    (h : Recorded ledger next d receipt s c reason retry new) (hsound : Sound ledger d s c) :
    ∀ front a middle b back, next.attempts.rows = front ++ a :: (middle ++ b :: back) →
      a.accepted = true → a.slot = b.slot → b.retryPermitted = false := by
  intro front a middle b back hrows haccepted hslot
  rw [h.attempts] at hrows
  rcases List.eq_nil_or_concat back with rfl | ⟨rest, x, rfl⟩
  · have hsplit : ledger.attempts.rows ++ [decidedRow d c reason retry] =
        (front ++ a :: middle) ++ [b] := by
      rw [hrows]
      simp
    obtain ⟨hold, hlast⟩ := List.append_inj' hsplit (by simp only [List.length_singleton])
    obtain rfl := List.singleton_inj.mp hlast
    have ha : a ∈ ledger.attempts := by
      rw [Table.mem_def, hold]
      simp
    cases hretry : retry with
    | false => rfl
    | true =>
      subst hretry
      obtain ⟨hbasic, _, hmode, hfirst, hsafe, htime⟩ := permitted_recorded h
      have hnamed : s.acceptedAttemptId = some a.attemptId := by
        refine accepted_slot hinv ha haccepted ?_
        rw [hslot]
        exact h.slot
      have hlate := hsound.closed (by rw [hnamed]; exact Option.some_ne_none _) hbasic hmode hfirst
        hsafe
      exact absurd htime (not_lt.mpr hlate)
  · have hsplit : ledger.attempts.rows ++ [decidedRow d c reason retry] =
        (front ++ a :: (middle ++ b :: rest)) ++ [x] := by
      rw [hrows]
      simp
    have hfront := (List.append_inj' hsplit (by simp only [List.length_singleton])).1
    exact hinv.laws.closed front a middle b rest hfront haccepted hslot

theorem ledgerInvariant_recorded (hinv : LedgerInvariant ledger)
    (h : Recorded ledger next d receipt s c reason retry new) (hsound : Sound ledger d s c) :
    LedgerInvariant next := by
  have haccepted := accepted_recorded hinv h
  refine ⟨⟨haccepted, once_of_accepted haccepted, pointer_recorded hinv h, ?_,
    closed_recorded hinv h hsound⟩, ?_, ?_⟩
  · intro a ha hcredit
    rcases (mem_attempts h).mp ha with ha | rfl
    · exact credited_grows (hinv.laws.credited a ha hcredit) ha (grows_recorded h)
    · cases reason with
      | some reason => exact absurd hcredit Bool.false_ne_true
      | none => exact credited_recorded hinv h
  · intro r hr
    rw [Table.mem_def, h.receipts, List.mem_append] at hr
    rcases hr with hr | hr
    · obtain ⟨a, ha, hid⟩ := hinv.owned r hr
      exact ⟨a, (mem_attempts h).mpr (.inl ha), hid⟩
    · obtain ⟨result, _, rfl⟩ := h.own r hr
      exact ⟨_, (mem_attempts h).mpr (.inr rfl), rfl⟩
  · intro a ha hretry
    rcases (mem_attempts h).mp ha with ha | rfl
    · exact hinv.retries a ha hretry
    · have hpermitted : retry = true := hretry
      subst hpermitted
      obtain ⟨_, rfl, hmode, _⟩ := permitted_recorded h
      exact ⟨hmode, rfl⟩

theorem arrives_recorded (hrecord : record ledger d = .ok (receipt, next))
    (h : Recorded ledger next d receipt s c reason retry new) : Arrives ledger d s c := by
  obtain ⟨hauthorized, hrest⟩ := require_bind.mp hrecord
  obtain ⟨_, hidentity, _⟩ := bind_eq_ok.mp hrest
  exact ⟨hauthorized, hidentity, h.fresh, h.slot, h.contract⟩

theorem ledgerInvariant_step (hinv : LedgerInvariant ledger) (hsound : Recordable ledger d)
    (h : recordStep ledger d = .ok next) : LedgerInvariant next := by
  obtain ⟨receipt, hrecord⟩ := recordStep_eq_ok.mp h
  rcases record_cases hrecord with ⟨rfl, _⟩ | ⟨s, c, reason, retry, new, hrecorded⟩
  · exact hinv
  · exact ledgerInvariant_recorded hinv hrecorded (hsound s c (arrives_recorded hrecord hrecorded))

end Invariants

end PredictionMarketMonitor.CadenceLedger
