import PredictionMarketMonitor.CadenceLedger

set_option autoImplicit false

/-!
# Cadence attempts over whole histories

A sound delivery is always answered, a timely first scheduled attempt gets its
credit, and a repeated delivery gets its first answer again.
-/
namespace PredictionMarketMonitor.CadenceHistory

open CadenceAttempts CadenceLedger CollectionBase CivilTime FallibleSteps KeyedTable

section Answers
variable {ledger next : Ledger} {d : Delivery} {receipt : CadenceWorkflowAttemptReceipt}
  {s : CadenceWorkflowSlot} {c : CadenceEpochContract} {reason : Option Reason} {retry : Bool}
  {new : List CadenceAttemptSourceReceipt}

theorem insertAttempt_ok (hfresh : ledger.attempts.find? d.payload.attemptId = none)
    (hsound : Sound ledger d s c) (reason : Option Reason) (retry : Bool) :
    ∃ attempts, ledger.attempts.insert?
        (attemptRow d c d.payload.startedAt.instant d.payload.completedAt.instant reason retry) =
        some attempts ∧
      insertAttempt ledger
        (attemptRow d c d.payload.startedAt.instant d.payload.completedAt.instant reason retry) =
        .ok { ledger with attempts := attempts } := by
  obtain ⟨attempts, hattempts⟩ := @Table.exists_insert _ _ _ _ _
    (attemptRow d c d.payload.startedAt.instant d.payload.completedAt.instant reason retry) hfresh
  refine ⟨attempts, hattempts, insertAttempt_eq_ok.mpr ⟨hsound.columns, ⟨⟨hsound.ordered, ?_, ?_⟩,
    hsound.predecessor, hsound.freeRun⟩, attempts, hattempts, rfl⟩⟩
  · intro h
    exact absurd h Bool.false_ne_true
  · intro h
    exact absurd h.1 Bool.false_ne_true

theorem finalizeAttempt_ok (hinv : LedgerInvariant ledger)
    (hfresh : ledger.attempts.find? d.payload.attemptId = none)
    (hslot : ledger.slots.find? d.payload.slot = some s)
    (hdecided : rejectionReason ledger d.payload c s d.dbNow = .ok reason)
    (hpermitted : retryPermitted d.payload s reason = .ok retry)
    (hordered : d.payload.startedAt.instant ≤ d.payload.completedAt.instant)
    {cased : Ledger}
    (hattempts : ledger.attempts.insert?
      (attemptRow d c d.payload.startedAt.instant d.payload.completedAt.instant reason retry) =
      some cased.attempts) :
    ∃ finalized, finalizeAttempt cased d.payload.attemptId reason.isNone (reason.getD .accepted)
      retry = .ok finalized := by
  have hrows := insert_update
    (CadenceWorkflowAttempt.attemptId_finalize reason.isNone (reason.getD .accepted) retry)
    hattempts (@rfl _ d.payload.attemptId)
  have hlast : ∀ a ∈ ledger.attempts.rows ++ [decidedRow d c reason retry],
      a.attemptId = d.payload.attemptId → a = decidedRow d c reason retry := by
    intro a ha hid
    rcases List.mem_append.mp ha with ha | ha
    · exact absurd hid (Table.find?_eq_none.mp hfresh a ha)
    · exact List.mem_singleton.mp ha
  refine ⟨_, bind_eq_ok.mpr ⟨⟨⟩, require_of ?_, rfl⟩⟩
  rw [hrows]
  change (∀ a ∈ ledger.attempts.rows ++ [decidedRow d c reason retry], _) ∧
    ∀ a ∈ ledger.attempts.rows ++ [decidedRow d c reason retry], _
  constructor
  · intro a ha hid
    rw [hlast a ha hid]
    refine ⟨hordered, ?_, ?_⟩
    · intro haccepted
      have hnone : reason = none := Option.isNone_iff_eq_none.mp haccepted
      rw [hnone]
      exact ⟨rfl, rfl⟩
    · rintro ⟨haccepted, hretry⟩
      have hnone : reason = none := Option.isNone_iff_eq_none.mp haccepted
      rw [hnone, retryPermitted_none] at hpermitted
      have hsame : retry = true := hretry
      rw [hsame] at hpermitted
      cases hpermitted
  · intro a ha hid haccepted b hb hbaccepted hbslot
    rw [hlast a ha hid] at haccepted hbslot
    have hnone : reason = none := Option.isNone_iff_eq_none.mp haccepted
    rcases List.mem_append.mp hb with hb | hb
    · have hnamed : s.acceptedAttemptId = some b.attemptId := by
        refine accepted_slot hinv hb hbaccepted ?_
        rw [hbslot]
        exact hslot
      rw [hnone] at hdecided
      rw [(rejectionReason_eq_none.mp hdecided).1.2.1] at hnamed
      cases hnamed
    · rw [List.mem_singleton.mp hb]
      rfl

theorem recordNew_ok (hinv : LedgerInvariant ledger) (harrives : Arrives ledger d s c)
    (hsound : Sound ledger d s c) : ∃ receipt next, recordNew ledger d = .ok (receipt, next) := by
  obtain ⟨reason, hreason⟩ := rejectionReason_ok d.dbNow hsound.inRange hsound.single
  obtain ⟨retry, hretry⟩ := retryPermitted_ok s reason hsound.inRange.2
  obtain ⟨attempts, hattempts, hinserted⟩ := insertAttempt_ok harrives.fresh hsound reason retry
  obtain ⟨sourced, hsourced⟩ := @insertSources_ok d.payload.sourceResults
    { ledger with attempts := attempts } d.payload.attemptId hsound.known
  obtain ⟨new, hstored⟩ := insertSources_eq_ok hsourced
  obtain ⟨receipts, rfl, _⟩ := hstored.rest
  have haccept := @accept_decided ledger { ledger with attempts := attempts, receipts := receipts }
    d s c reason rfl harrives.slot hreason
  have hfinal : reason.getD (if reason.isNone = true then .accepted else .duplicateAfterAcceptance) =
      reason.getD .accepted := by cases reason <;> rfl
  have hfinalRetry : (if reason.isNone = true then false else retry) = retry := by
    cases reason with
    | none => exact Except.ok.inj (retryPermitted_none.symm.trans hretry)
    | some reason => rfl
  obtain ⟨finalized, hfinalized⟩ := @finalizeAttempt_ok ledger d s c reason retry hinv
    harrives.fresh harrives.slot hreason hretry hsound.ordered
    { ledger with
      attempts := attempts
      receipts := receipts
      slots := decidedSlots ledger d.payload reason } hattempts
  obtain ⟨receipt, hreceipt, _⟩ := buildReceipt_ok d.payload.attemptId reason.isNone
    (reason.getD .accepted) retry d.dbNow
  refine ⟨receipt, finalized, ?_⟩
  rw [recordNew, harrives.slot, present, ok_bind, harrives.contract, present, ok_bind]
  dsimp only
  rw [hreason, ok_bind, hretry, ok_bind, astimezone_of hsound.inRange.1, ok_bind,
    astimezone_of hsound.inRange.2, ok_bind, hinserted, ok_bind, hsourced, ok_bind]
  dsimp only
  rw [haccept]
  dsimp only
  rw [hfinal, hfinalRetry, hfinalized, ok_bind]
  exact bind_eq_ok.mpr ⟨receipt, hreceipt, rfl⟩

theorem record_of_identified (hauthorized : d.authorized = true)
    (hidentity : requireWorkflowIdentity d.payload = .ok ()) : record ledger d =
      match ledger.attempts.find? d.payload.attemptId with
      | some existing => do
        let receipt ← replay ledger d.payload existing
        return (receipt, ledger)
      | none => recordNew ledger d := by
  cases hfind : ledger.attempts.find? d.payload.attemptId <;>
    rw [record, require_of hauthorized, ok_bind, hidentity, ok_bind, hfind]

theorem record_arrives (harrives : Arrives ledger d s c) :
    record ledger d = recordNew ledger d := by
  rw [record_of_identified harrives.authorized harrives.identity, harrives.fresh]

theorem replay_not_internal {p : CadenceWorkflowAttemptRequest} {a : CadenceWorkflowAttempt}
    {e : RecordError} (h : replay ledger p a = .error e) : ¬e.Internal := by
  rw [replay] at h
  by_cases hsame : SameAttempt p a (storedSources ledger p.attemptId)
  · obtain ⟨receipt, hreceipt, _⟩ := buildReceipt_ok p.attemptId a.accepted a.reasonCode
      a.retryPermitted a.createdAtDb
    rw [require_of hsame, ok_bind, hreceipt] at h
    cases h
  · rw [require_of_not hsame, error_bind] at h
    cases h
    exact not_false

theorem recordNew_unknown {e : RecordError}
    (hunknown : ∀ s c, ledger.slots.find? d.payload.slot = some s →
      ledger.contracts.find? d.payload.epochId ≠ some c)
    (h : recordNew ledger d = .error e) : ¬e.Internal := by
  rw [recordNew] at h
  dsimp only at h
  cases hslot : ledger.slots.find? d.payload.slot with
  | none =>
    rw [hslot, present, error_bind] at h
    cases h
    exact not_false
  | some s =>
    cases hcontract : ledger.contracts.find? d.payload.epochId with
    | none =>
      rw [hslot, present, ok_bind, hcontract, present, error_bind] at h
      cases h
      exact not_false
    | some c => exact absurd hcontract (hunknown s c hslot)

theorem record_not_internal (hinv : LedgerInvariant ledger) (hsound : Recordable ledger d)
    {e : RecordError} (h : record ledger d = .error e) : ¬e.Internal := by
  by_cases hauthorized : d.authorized = true
  · cases hidentity : requireWorkflowIdentity d.payload with
    | error f =>
      rw [record, require_of hauthorized, ok_bind, hidentity, error_bind] at h
      rw [requireWorkflowIdentity, require] at hidentity
      split_ifs at hidentity
      cases hidentity
      cases h
      exact not_false
    | ok u =>
      rw [record_of_identified hauthorized hidentity] at h
      cases hfind : ledger.attempts.find? d.payload.attemptId with
      | some existing =>
        rw [hfind] at h
        dsimp only at h
        cases hreplay : replay ledger d.payload existing with
        | error f =>
          rw [hreplay, error_bind] at h
          cases h
          exact replay_not_internal hreplay
        | ok receipt =>
          rw [hreplay, ok_bind] at h
          cases h
      | none =>
        rw [hfind] at h
        by_cases hknown : ∃ s c, ledger.slots.find? d.payload.slot = some s ∧
            ledger.contracts.find? d.payload.epochId = some c
        · obtain ⟨s, c, hslot, hcontract⟩ := hknown
          have harrives : Arrives ledger d s c := ⟨hauthorized, hidentity, hfind, hslot, hcontract⟩
          obtain ⟨receipt, next, hrecorded⟩ := recordNew_ok hinv harrives (hsound s c harrives)
          have herror : recordNew ledger d = .error e := h
          rw [hrecorded] at herror
          cases herror
        · exact recordNew_unknown (fun s c hslot hcontract => hknown ⟨s, c, hslot, hcontract⟩) h
  · rw [record, require_of_not hauthorized, error_bind] at h
    cases h
    exact not_false

end Answers

section Credit
variable {ledger : Ledger} {d : Delivery} {s : CadenceWorkflowSlot} {c : CadenceEpochContract}

theorem timelyFirst_arrives (h : TimelyFirst ledger d s c) : Arrives ledger d s c :=
  ⟨h.authorized, h.identity, h.fresh, h.slot, h.contract⟩

theorem unaccepted_of_unscheduled (hinv : LedgerInvariant ledger)
    (hslot : ledger.slots.find? d.payload.slot = some s)
    (hnone : Unscheduled ledger d.payload.slot) : s.acceptedAttemptId = none := by
  obtain ⟨hs, hskey⟩ := Table.find?_eq_some.mp hslot
  cases hid : s.acceptedAttemptId with
  | none => rfl
  | some id =>
    obtain ⟨a, ha, _, haslot, haccepted⟩ := hinv.laws.pointer s hs id hid
    have hcredit := hinv.laws.credited a ha haccepted
    rw [hskey] at haslot
    cases hmode : a.workflowMode with
    | manual => exact absurd hmode hcredit.mode
    | schedule => exact absurd hmode (hnone a ha haslot)
    | retry =>
      obtain ⟨b, hb, _, hbslot, _, hretry⟩ := hcredit.predecessor hmode
      exact absurd (hinv.retries b hb hretry).1 (hnone b hb (hbslot.trans haslot))

theorem record_timelyFirst (hinv : LedgerInvariant ledger) (hsound : Recordable ledger d)
    (h : TimelyFirst ledger d s c) (hnone : Unscheduled ledger d.payload.slot) :
    ∃ receipt next, record ledger d = .ok (receipt, next) ∧ receipt.cadenceAccepted = true := by
  have hs := hsound s c (timelyFirst_arrives h)
  have hopen := unaccepted_of_unscheduled hinv h.slot hnone
  have hreaches : ReachesDuplicateCheck ledger d.payload s c := by
    refine ⟨basicReason_eq_none.mpr ⟨h.valid, h.sources, h.succeeded, ?_⟩, hopen,
      .inl ⟨h.mode, h.initial⟩⟩
    rw [h.mode]
    decide
  have hdecided : rejectionReason ledger d.payload c s d.dbNow = .ok none :=
    rejectionReason_eq_none.mpr ⟨hreaches, hs.unblocked h hnone, hs.inRange,
      ⟨h.started.1, h.started.2, h.completed.1, h.completed.2.1, h.completed.2.2⟩⟩
  obtain ⟨receipt, next, hrecord⟩ := recordNew_ok hinv (timelyFirst_arrives h) hs
  obtain ⟨t, e, reason, retry, new, hrecorded⟩ := recordNew_recorded h.fresh hrecord
  have ht : t = s := Option.some.inj (hrecorded.slot.symm.trans h.slot)
  have he : e = c := Option.some.inj (hrecorded.contract.symm.trans h.contract)
  subst ht he
  have hreason : reason = none := Except.ok.inj (hrecorded.decided.symm.trans hdecided)
  subst hreason
  refine ⟨receipt, next, by rw [record_arrives (timelyFirst_arrives h), hrecord], ?_⟩
  obtain ⟨built, hbuilt, haccepted⟩ := buildReceipt_ok d.payload.attemptId true .accepted retry
    d.dbNow
  have hsame : built = receipt := Except.ok.inj (hbuilt.symm.trans hrecorded.answer)
  rw [← hsame]
  exact haccepted

end Credit

section Repetition
variable {ledger next : Ledger} {d : Delivery} {receipt : CadenceWorkflowAttemptReceipt}
  {s : CadenceWorkflowSlot} {c : CadenceEpochContract} {reason : Option Reason} {retry : Bool}
  {new : List CadenceAttemptSourceReceipt}

theorem record_again {later : Ledger} {again : Delivery} {a : CadenceWorkflowAttempt}
    (hgrows : Grows ledger later) (hauthorized : again.authorized = true)
    (hidentity : requireWorkflowIdentity again.payload = .ok ())
    (hfind : ledger.attempts.find? again.payload.attemptId = some a)
    (hreplay : replay ledger again.payload a = .ok receipt) :
    record later again = .ok (receipt, later) := by
  obtain ⟨ha, hid⟩ := Table.find?_eq_some.mp hfind
  have hlater : later.attempts.find? again.payload.attemptId = some a :=
    Table.find?_eq_some.mpr ⟨hgrows.attempts a ha, hid⟩
  have hstored := hgrows.stored a ha
  rw [hid] at hstored
  rw [record_of_identified hauthorized hidentity, hlater]
  dsimp only
  rw [replay, hstored, ← replay, hreplay]
  rfl

theorem sources_replay (hinv : LedgerInvariant ledger)
    (h : Recorded ledger next d receipt s c reason retry new) (hsound : Sound ledger d s c) :
    ((storedSources next d.payload.attemptId).map
        (fun r => (r.sourceId, r.succeeded, r.receiptSha256))).toFinset =
      (d.payload.sourceResults.map SourceResult.projection).toFinset := by
  have hstored := storedSources_recorded hinv h
  ext x
  rw [hstored, List.mem_toFinset, List.mem_toFinset, List.mem_map, List.mem_map]
  constructor
  · rintro ⟨row, hrow, rfl⟩
    obtain ⟨r, hr, rfl⟩ := h.own row hrow
    exact ⟨r, hr, rfl⟩
  · rintro ⟨r, hr, rfl⟩
    obtain ⟨row, hrow, hkey⟩ := h.all r hr
    obtain ⟨hattempt, hsource⟩ := Prod.mk.inj hkey
    have hnew : row ∈ new := by
      rw [← hstored]
      exact List.mem_filter.mpr ⟨hrow, decide_eq_true hattempt⟩
    obtain ⟨r', hr', rfl⟩ := h.own row hnew
    exact ⟨_, hnew, (hsound.consistent r hr r' hr' hsource.symm).symm⟩

theorem sameAttempt_recorded (hinv : LedgerInvariant ledger)
    (h : Recorded ledger next d receipt s c reason retry new) (hsound : Sound ledger d s c) :
    SameAttempt d.payload (decidedRow d c reason retry)
      (storedSources next d.payload.attemptId) :=
  ⟨rfl, rfl, rfl, rfl, rfl, ⟨hsound.aware.1, rfl⟩, ⟨hsound.aware.2, rfl⟩,
    sources_replay hinv h hsound⟩

theorem record_repeated (hinv : LedgerInvariant ledger) (hsound : Recordable ledger d)
    (h : record ledger d = .ok (receipt, next)) (later : List Delivery) {again : Delivery}
    (hauthorized : again.authorized = true) (hpayload : again.payload = d.payload) :
    record (run recordStep next later) again = .ok (receipt, run recordStep next later) := by
  obtain ⟨_, hrest⟩ := require_bind.mp h
  obtain ⟨_, hidentity, _⟩ := bind_eq_ok.mp hrest
  rw [← hpayload] at hidentity
  have hgrows := grows_run next later
  rcases record_cases h with ⟨rfl, a, hfind, hreplay⟩ | ⟨s, c, reason, retry, new, hrecorded⟩
  · rw [← hpayload] at hfind hreplay
    exact record_again hgrows hauthorized hidentity hfind hreplay
  · have harrives := arrives_recorded h hrecorded
    have hsame := sameAttempt_recorded hinv hrecorded (hsound s c harrives)
    have hfind : next.attempts.find? d.payload.attemptId = some (decidedRow d c reason retry) :=
      Table.find?_eq_some.mpr ⟨(mem_attempts hrecorded).mpr (.inr rfl), decidedRow_attemptId ..⟩
    have hreplay : replay next d.payload (decidedRow d c reason retry) = .ok receipt := by
      rw [replay, require_of hsame, ok_bind]
      exact hrecorded.answer
    rw [← hpayload] at hfind hreplay
    exact record_again hgrows hauthorized hidentity hfind hreplay

end Repetition

section Histories

theorem ledgerInvariant_run {ledger : Ledger} (hopen : Opened ledger) {ds : List Delivery}
    (h : Meets recordStep Recordable ledger ds) : LedgerInvariant (run recordStep ledger ds) :=
  run_invariant_of (fun _ _ _ hinv hsound hstep => ledgerInvariant_step hinv hsound hstep)
    (ledgerInvariant_opened hopen) h

/-- In every history of sound deliveries the tables keep the laws of the cadence ledger,
    and every delivery of it is answered by them. -/
theorem ledgerLaws_of_recordable {ledger : Ledger} (hopen : Opened ledger) (ds : List Delivery)
    (h : Meets recordStep Recordable ledger ds) :
    LedgerLaws (run recordStep ledger ds) ∧
      ∀ pre d post, ds = pre ++ d :: post → LedgerLaws (run recordStep ledger pre) ∧
        DeliveryLaws (run recordStep ledger pre) d := by
  refine ⟨(ledgerInvariant_run hopen h).laws, ?_⟩
  rintro pre d post rfl
  have hinv := ledgerInvariant_run hopen (meets_append.mp h).1
  have hsound := meets_initial h
  refine ⟨hinv.laws, ?_, ?_, ?_⟩
  · intro e
    exact record_not_internal hinv hsound
  · intro s c hfirst hnone
    exact record_timelyFirst hinv hsound hfirst hnone
  · intro receipt next hrecord later again hauthorized hpayload
    exact record_repeated hinv hsound hrecord later hauthorized hpayload

end Histories

section Sample

def sampleEpoch : CadenceEpochContract where
  cadenceEpochId := 1
  epochSha256 := 0
  dcinsideSourceId := 2
  manifoldSourceId := 3
  bindingSha256 := 0
  scopeSha256 := 0
  invalidatedAt := none
  distinct := by decide

def sampleSlot : CadenceWorkflowSlot where
  cadenceEpochId := 1
  scheduleKind := .verifier
  slotKey := "2026-08-01T00:00:00Z".toList
  dueAt := seconds 1785542400
  acceptedAttemptId := none

def sampleLedger : Ledger where
  contracts := ⟨[sampleEpoch], List.nodup_singleton _⟩
  slots := ⟨[sampleSlot], List.nodup_singleton _⟩
  attempts := Table.empty
  receipts := Table.empty
  communitySources := [2, 3]

theorem sampleLedger_opened : Opened sampleLedger where
  attempts := rfl
  receipts := rfl
  slots := by
    intro s hs
    rw [List.mem_singleton.mp hs]
    rfl

def succeededResult (sourceId : UUID) : SourceResult :=
  ⟨sourceId, .succeeded, .ok, .notApplicable, 0, .inl ⟨rfl, rfl, rfl⟩, .inl rfl⟩

def timeoutResult (sourceId : UUID) : SourceResult :=
  ⟨sourceId, .failed, .transientTimeout, .safeTerminal,
    expectedFailureHash sourceId .transientTimeout, .inr (.inl ⟨rfl, .inl rfl, rfl⟩), .inr rfl⟩

/-- A first attempt of the slot, ten seconds after it was due, for ten seconds. -/
def sampleDelivery (runId : ℕ) (hrun : 0 < runId) (mode : WorkflowMode) (event : WorkflowEvent)
    (second : SourceResult) : Delivery where
  authorized := true
  payload :=
    { workflow := .verify
      event := event
      environment := .productionVerifier
      runId := runId
      runAttempt := 1
      epochId := 1
      scheduleKind := .verifier
      slotKey := "2026-08-01T00:00:00Z".toList
      workflowMode := mode
      cadenceAttempt := 1
      failedPredecessorAttemptId := none
      startedAt := .utc (seconds 1785542410)
      completedAt := .utc (seconds 1785542420)
      sourceResults := [succeededResult 2, second]
      positive := ⟨hrun, Nat.one_pos⟩
      pair := rfl
      branch := .inl ⟨rfl, rfl⟩ }
  dbNow := seconds 1785542460

def manualRun : Delivery :=
  sampleDelivery 1 Nat.one_pos .manual .workflowDispatch (succeededResult 3)

def failedRun : Delivery := sampleDelivery 2 Nat.two_pos .schedule .schedule (timeoutResult 3)

def scheduledRun : Delivery :=
  sampleDelivery 3 (Nat.succ_pos 2) .schedule .schedule (succeededResult 3)

/-- The retry of the failed run by hand, in the window of the same slot. -/
def retryRun : Delivery where
  authorized := true
  payload :=
    { scheduledRun.payload with
      event := .workflowDispatch
      runId := 4
      workflowMode := .retry
      cadenceAttempt := 2
      failedPredecessorAttemptId := some failedRun.payload.attemptId
      startedAt := .utc (seconds 1785542430)
      completedAt := .utc (seconds 1785542440)
      positive := ⟨Nat.succ_pos 3, Nat.one_pos⟩
      pair := rfl
      branch := .inr ⟨rfl, Option.some_ne_none _⟩ }
  dbNow := seconds 1785542460

def retriedStory : List Delivery := [failedRun, retryRun, failedRun]

/-- The ledger along the story of a failed first attempt, its retry and a repetition. -/
theorem retriedStory_runs :
    sampleLedger.slots.find? failedRun.payload.slot = some sampleSlot ∧
    (∀ r ∈ failedRun.payload.sourceResults, ∀ r' ∈ failedRun.payload.sourceResults,
      r.sourceId = r'.sourceId → r.projection = r'.projection) ∧
    (∀ a ∈ (run recordStep sampleLedger [failedRun]).attempts.rows,
      a.workflowRun ≠ (.verify, 4, 1)) ∧
    (∃ a ∈ (run recordStep sampleLedger [failedRun]).attempts.rows,
      a.attemptId = failedRun.payload.attemptId) ∧
    (logicalAttempts (run recordStep sampleLedger [failedRun]) retryRun.payload).length ≤ 1 ∧
    (run recordStep sampleLedger [failedRun]).communitySources = [2, 3] ∧
    (run recordStep sampleLedger [failedRun, retryRun]).attempts.find?
      failedRun.payload.attemptId ≠ none ∧
    (run recordStep sampleLedger retriedStory).attempts.rows.map
        (fun a => (a.accepted, a.reasonCode, a.retryPermitted)) =
      [(false, .sourceFailed, true), (true, .accepted, false)] := by
  decide +kernel

theorem failedRun_recordable : Recordable sampleLedger failedRun := by
  intro s c harrives
  obtain ⟨hslot, hconsistent, _⟩ := retriedStory_runs
  obtain rfl := Option.some.inj (hslot.symm.trans harrives.slot)
  exact {
    inRange := by unfold InRange; decide
    aware := by decide
    ordered := by decide
    columns := by decide
    freeRun := fun a ha => absurd ha (Table.not_mem_empty a)
    predecessor := by simp [failedRun, sampleDelivery]
    known := by decide
    consistent := hconsistent
    single := fun _ => by decide
    unblocked := fun _ _ => rfl
    closed := fun haccepted => absurd rfl haccepted }

theorem retryRun_recordable : Recordable (run recordStep sampleLedger [failedRun]) retryRun := by
  intro s c _
  obtain ⟨_, _, hfree, hfailed, hsingle, hsources, _⟩ := retriedStory_runs
  exact {
    inRange := by unfold InRange; decide
    aware := by decide
    ordered := by decide
    columns := by decide
    freeRun := hfree
    predecessor := by
      intro id hid
      obtain rfl : failedRun.payload.attemptId = id := Option.some.inj hid
      exact .inr hfailed
    known := by
      rw [hsources]
      decide
    consistent := by decide
    single := fun _ => hsingle
    unblocked := fun hfirst => absurd hfirst.mode (by decide)
    closed := fun _ _ hmode => absurd hmode (by decide) }

theorem recordable_of_recorded {ledger : Ledger} {d : Delivery}
    (h : ledger.attempts.find? d.payload.attemptId ≠ none) : Recordable ledger d :=
  fun _ _ harrives => absurd harrives.fresh h

theorem retriedStory_recordable : Meets recordStep Recordable sampleLedger retriedStory := by
  obtain ⟨_, _, _, _, _, _, hfound, _⟩ := retriedStory_runs
  refine ⟨failedRun_recordable, ?_, ?_, trivial⟩
  · simpa only [run_cons, run_nil] using retryRun_recordable
  · simpa only [run_cons, run_nil] using recordable_of_recorded hfound

/-- A failed first attempt, its accepted retry, and the first delivery once more. -/
theorem ledgerLaws_of_recordable_sample :
    (run recordStep sampleLedger retriedStory).attempts.rows.map
        (fun a => (a.accepted, a.reasonCode, a.retryPermitted)) =
      [(false, .sourceFailed, true), (true, .accepted, false)] ∧
    LedgerLaws (run recordStep sampleLedger retriedStory) ∧
    ∀ pre d post, retriedStory = pre ++ d :: post → LedgerLaws (run recordStep sampleLedger pre) ∧
      DeliveryLaws (run recordStep sampleLedger pre) d := by
  obtain ⟨_, _, _, _, _, _, _, hrows⟩ := retriedStory_runs
  exact ⟨hrows,
    ledgerLaws_of_recordable sampleLedger_opened retriedStory retriedStory_recordable⟩

def answered (ledger : Ledger) (d : Delivery) : Except RecordError (Bool × Reason) :=
  (record ledger d).map (fun r => (r.1.cadenceAccepted, r.1.reason))

theorem record_of_answered {ledger : Ledger} {d : Delivery} {e : RecordError}
    (h : answered ledger d = .error e) : record ledger d = .error e := by
  rw [answered] at h
  cases hrecord : record ledger d with
  | error f =>
    rw [hrecord] at h
    cases h
    rfl
  | ok r =>
    rw [hrecord] at h
    cases h

/-- The ledgers of the failing stories: a manual run before the scheduled one, also with a
    failed one between them, and a failed run behind the accepted one. -/
theorem blockedStories_runs :
    (run recordStep sampleLedger [manualRun]).attempts.find? scheduledRun.payload.attemptId = none ∧
    (run recordStep sampleLedger [manualRun]).slots.find? scheduledRun.payload.slot =
      some sampleSlot ∧
    (∀ a ∈ (run recordStep sampleLedger [manualRun]).attempts.rows,
      a.slot = scheduledRun.payload.slot → a.workflowMode ≠ .schedule) ∧
    answered (run recordStep sampleLedger [manualRun]) scheduledRun =
      .ok (false, .initialAttemptAlreadyRecorded) ∧
    answered (run recordStep sampleLedger [manualRun, failedRun]) scheduledRun =
      .error .multipleResultsFound ∧
    (run recordStep sampleLedger [scheduledRun, failedRun]).attempts.rows.map
        (fun a => (a.slot, a.accepted, a.retryPermitted)) =
      [(sampleSlot.key, true, false), (sampleSlot.key, false, true)] := by
  decide +kernel

theorem manualRun_first :
    TimelyFirst (run recordStep sampleLedger [manualRun]) scheduledRun sampleSlot sampleEpoch where
  authorized := rfl
  identity := by decide
  fresh := blockedStories_runs.1
  slot := blockedStories_runs.2.1
  contract := by
    rw [(grows_run sampleLedger [manualRun]).contracts]
    rfl
  valid := rfl
  mode := rfl
  initial := by decide
  sources := by decide
  succeeded := by decide
  started := by decide
  completed := by decide

theorem manualRun_blocks :
    ¬DeliveryLaws (run recordStep sampleLedger [manualRun]) scheduledRun := by
  intro hlaws
  obtain ⟨_, _, hnone, hanswer, _, _⟩ := blockedStories_runs
  obtain ⟨receipt, next, hrecord, haccepted⟩ := hlaws.creditable _ _ manualRun_first hnone
  rw [answered, hrecord] at hanswer
  have hrefused := (Prod.mk.inj (Except.ok.inj hanswer)).1
  rw [haccepted] at hrefused
  cases hrefused

theorem failedRun_late : ¬LedgerLaws (run recordStep sampleLedger [scheduledRun, failedRun]) := by
  intro hlaws
  obtain ⟨_, _, _, _, _, hrows⟩ := blockedStories_runs
  obtain ⟨a, tail, hfirst, ha, htail⟩ := List.map_eq_cons_iff.mp hrows
  obtain ⟨b, rest, hsecond, hb, hrest⟩ := List.map_eq_cons_iff.mp htail
  rw [hsecond, List.map_eq_nil_iff.mp hrest] at hfirst
  simp only [Prod.mk.injEq] at ha hb
  have hclosed := hlaws.closed [] a [] b [] hfirst ha.2.1 (ha.1.trans hb.1.symm)
  rw [hb.2.2] at hclosed
  cases hclosed

theorem scheduledRun_unanswered :
    record (run recordStep sampleLedger [manualRun, failedRun]) scheduledRun =
      .error .multipleResultsFound := by
  obtain ⟨_, _, _, _, hanswer, _⟩ := blockedStories_runs
  exact record_of_answered hanswer

/-- Two attempts without credit make the recorder fail on the first scheduled one. -/
theorem ledgerLaws_broken : Opened sampleLedger ∧
    ¬DeliveryLaws (run recordStep sampleLedger [manualRun]) scheduledRun ∧
    record (run recordStep sampleLedger [manualRun, failedRun]) scheduledRun =
      .error .multipleResultsFound ∧
    ¬LedgerLaws (run recordStep sampleLedger [scheduledRun, failedRun]) :=
  ⟨sampleLedger_opened, manualRun_blocks, scheduledRun_unanswered, failedRun_late⟩

end Sample

end PredictionMarketMonitor.CadenceHistory
