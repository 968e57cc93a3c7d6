import PredictionMarketMonitor.VerificationSnapshots

set_option autoImplicit false

/-!
# The verifier's observation grid

`app/collection/verification_observation_store.py`: the cursor of a scope moves
along quarter hours, the slots it passes are recorded as missing, and each
recorded observation consumes one snapshot.
-/
namespace PredictionMarketMonitor.VerificationGrid

open CanonicalJson CivilTime CollectionBase FallibleSteps KeyedTable Sha256 VerificationSnapshots

structure VerificationCursor where
  scopeVersion : Text
  lastMaterializedSlotUtc : Option Instant
  updatedAt : Instant
deriving DecidableEq

structure VerificationSnapshotUse where
  snapshotId : UUID
  scopeVersion : Text
  expectedSlotUtc : Instant
  actionStartedAt : Instant
  consumedAt : Instant
deriving DecidableEq

structure VerificationObservation where
  scopeVersion : Text
  expectedSlotUtc : Instant
  sourceId : UUID
  snapshotId : UUID
  snapshotPublishedAt : Instant
  latestSuccessfulRunId : Option UUID
  visiblePublicationManifestId : Option UUID
  visiblePublicationSequence : Option ℤ
  actionStartedAt : Instant
  schedulerLatencySeconds : ℤ
  collectionRecencySeconds : Option ℤ
  publicationLatencySeconds : Option ℤ
  status : VerificationStatus
  failureCode : Option Text
  snapshotChecksum : Digest
  observedAt : Instant
deriving DecidableEq

namespace VerificationObservation

/-- The key of `uq_verification_expected_source_slot`. -/
def slot (o : VerificationObservation) : Text × Instant × UUID :=
  (o.scopeVersion, o.expectedSlotUtc, o.sourceId)

/-- `verification_latencies_nonnegative`. -/
def LatenciesNonnegative (o : VerificationObservation) : Prop :=
  0 ≤ o.schedulerLatencySeconds ∧ (∀ c ∈ o.collectionRecencySeconds, 0 ≤ c) ∧
    ∀ p ∈ o.publicationLatencySeconds, 0 ≤ p

/-- `verification_pass_within_three_hours`, which absent latencies satisfy. -/
def PassWithinThreeHours (o : VerificationObservation) : Prop :=
  o.status = .passed → (∀ c ∈ o.collectionRecencySeconds, c ≤ 10800) ∧
    ∀ p ∈ o.publicationLatencySeconds, 0 ≤ p ∧ p ≤ 10800

def Fits (o : VerificationObservation) : Prop :=
  FitsInteger o.schedulerLatencySeconds ∧ (∀ c ∈ o.collectionRecencySeconds, FitsInteger c) ∧
    (∀ p ∈ o.publicationLatencySeconds, FitsInteger p) ∧
    ∀ n ∈ o.visiblePublicationSequence, FitsInteger n

instance (o : VerificationObservation) :
    Decidable (o.LatenciesNonnegative ∧ o.PassWithinThreeHours) := by
  unfold LatenciesNonnegative PassWithinThreeHours
  infer_instance

instance (o : VerificationObservation) : Decidable o.Fits := by
  unfold Fits
  infer_instance

end VerificationObservation

structure VerificationStore where
  issued : SnapshotStore
  cursors : Table VerificationCursor.scopeVersion
  uses : Table VerificationSnapshotUse.snapshotId
  observations : Table VerificationObservation.slot

def VerificationStore.empty : VerificationStore := ⟨.empty, .empty, .empty, .empty⟩

/-- The rows of other tables that an observation may reference. -/
structure References where
  sources : UUID → Bool
  runs : UUID → Bool
  publications : UUID → Bool

def References.Resolve (references : References) (o : VerificationObservation) : Prop :=
  references.sources o.sourceId = true ∧
    (∀ id ∈ o.latestSuccessfulRunId, references.runs id = true) ∧
    ∀ id ∈ o.visiblePublicationManifestId, references.publications id = true

instance (references : References) (o : VerificationObservation) :
    Decidable (references.Resolve o) :=
  inferInstanceAs (Decidable (_ ∧ (∀ _ ∈ _, _) ∧ ∀ _ ∈ _, _))

/-- `_require_aligned_utc`. -/
def requireAlignedUtc (value : Datetime) : Except Refusal Unit := do
  requireAwareUtc value
  require (¬ ((civil value.instant).minute % 15 ≠ 0 ∨ (civil value.instant).second ≠ 0 ∨
    (civil value.instant).microsecond ≠ 0)) (.valueError "verification_slot_not_aligned")

/-- The slots from `slot` through `target`. -/
def slotsThrough (slot target : ℤ) : List ℤ :=
  if slot ≤ target then slot :: slotsThrough (slot + verificationInterval) target else []
termination_by (target + 1 - slot).toNat
decreasing_by simp only [verificationInterval, seconds]; omega

def verificationSlots (lastObserved : Option Instant) (target : Datetime) :
    Except Refusal (List Instant) := do
  requireAlignedUtc target
  match lastObserved with
  | none => return [target.instant]
  | some last => do
    requireAlignedUtc (.utc last)
    return if target.instant ≤ last then []
      else slotsThrough (last + verificationInterval) target.instant

/-- `_SlotContext`. -/
structure SlotContext where
  snapshot : SnapshotEnvelope
  facts : List SourceVerificationFacts
  payload : VerificationObservationPayload
  targetResults : List VerificationSourceResult
  observedAt : Instant

def missingResult (sourceId : UUID) (slot actionStartedAt : Instant) :
    Except Refusal VerificationSourceResult := do
  let latency := wholeSeconds (actionStartedAt - slot)
  require (0 ≤ latency) (.http 409)
  sourceResult ⟨sourceId, latency, none, none, .missing, some "verification_slot_missing".toList⟩

def SlotContext.observation (context : SlotContext) (slot : Instant)
    (facts : SourceVerificationFacts) (result : VerificationSourceResult) :
    VerificationObservation where
  scopeVersion := context.payload.scopeVersion
  expectedSlotUtc := slot
  sourceId := facts.sourceId
  snapshotId := context.snapshot.snapshotId
  snapshotPublishedAt := context.snapshot.evidence.publishedAt
  latestSuccessfulRunId := facts.latestSuccessfulRunId
  visiblePublicationManifestId := facts.visiblePublicationManifestId
  visiblePublicationSequence := facts.visiblePublicationSequence
  actionStartedAt := context.payload.actionStartedAt.instant
  schedulerLatencySeconds := result.schedulerLatencySeconds
  collectionRecencySeconds := result.collectionRecencySeconds
  publicationLatencySeconds := result.publicationLatencySeconds
  status := result.status
  failureCode := result.failureCode
  snapshotChecksum := context.snapshot.checksum
  observedAt := context.observedAt

/-- A row under the constraints of its table; the flush refuses where the row is added. -/
def addObservation (references : References) (observations : Table VerificationObservation.slot)
    (o : VerificationObservation) : Except Refusal (Table VerificationObservation.slot) := do
  require o.Fits .dataError
  require (o.LatenciesNonnegative ∧ o.PassWithinThreeHours) .checkViolation
  require (references.Resolve o) .foreignKeyViolation
  present (observations.insert? o) .uniqueViolation

def slotResult (context : SlotContext) (slot : Instant) (facts : SourceVerificationFacts) :
    Except Refusal VerificationSourceResult := do
  let missing ← missingResult facts.sourceId slot context.payload.actionStartedAt.instant
  if slot ≠ context.payload.expectedSlotUtc.instant then return missing
  else present (resultOf context.targetResults facts.sourceId) .keyError

def persistFact (references : References) (context : SlotContext) (slot : Instant)
    (observations : Table VerificationObservation.slot) (facts : SourceVerificationFacts) :
    Except Refusal (Table VerificationObservation.slot) := do
  let result ← slotResult context slot facts
  addObservation references observations (context.observation slot facts result)

/-- `_persist_slot`. -/
def persistSlot (references : References) (context : SlotContext)
    (observations : Table VerificationObservation.slot) (slot : Instant) :
    Except Refusal (Table VerificationObservation.slot) :=
  context.facts.foldlM (persistFact references context slot) observations

def SlotContext.use (context : SlotContext) : VerificationSnapshotUse where
  snapshotId := context.snapshot.snapshotId
  scopeVersion := context.payload.scopeVersion
  expectedSlotUtc := context.payload.expectedSlotUtc.instant
  actionStartedAt := context.payload.actionStartedAt.instant
  consumedAt := context.observedAt

def addUse (uses : Table VerificationSnapshotUse.snapshotId) (use : VerificationSnapshotUse) :
    Except Refusal (Table VerificationSnapshotUse.snapshotId) := do
  require (use.expectedSlotUtc ≤ use.actionStartedAt) .checkViolation
  -- `uq_verification_snapshot_use_slot`
  require (∀ other ∈ uses.rows, ¬ (other.scopeVersion = use.scopeVersion ∧
    other.expectedSlotUtc = use.expectedSlotUtc)) .uniqueViolation
  present (uses.insert? use) .uniqueViolation

def VerificationCursor.move (slot now : Instant) (cursor : VerificationCursor) :
    VerificationCursor :=
  { cursor with lastMaterializedSlotUtc := some slot, updatedAt := now }

theorem VerificationCursor.scopeVersion_move (slot now : Instant) (cursor : VerificationCursor) :
    (cursor.move slot now).scopeVersion = cursor.scopeVersion := rfl

/-- The cursor of a scope, created when it is absent, moves to the slot. -/
def moveCursor (cursors : Table VerificationCursor.scopeVersion) (scopeVersion : Text)
    (slot now : Instant) : Except Refusal (Table VerificationCursor.scopeVersion) :=
  match cursors.find? scopeVersion with
  | none => present (cursors.insert? ⟨scopeVersion, some slot, now⟩) .uniqueViolation
  | some _ => .ok (cursors.update scopeVersion (VerificationCursor.move slot now)
      (VerificationCursor.scopeVersion_move slot now))

def VerificationStore.lastSlot (store : VerificationStore) (scopeVersion : Text) : Option Instant :=
  (store.cursors.find? scopeVersion).bind VerificationCursor.lastMaterializedSlotUtc

def SnapshotWasUsed (store : VerificationStore) (snapshotId : UUID) : Prop :=
  (∃ use ∈ store.uses.rows, use.snapshotId = snapshotId) ∨
    ∃ o ∈ store.observations.rows, o.snapshotId = snapshotId

instance (store : VerificationStore) (snapshotId : UUID) :
    Decidable (SnapshotWasUsed store snapshotId) :=
  inferInstanceAs (Decidable ((∃ _ ∈ _, _) ∨ ∃ _ ∈ _, _))

def recordObservations (references : References) (store : VerificationStore)
    (snapshot : SnapshotEnvelope) (facts : List SourceVerificationFacts)
    (payload : VerificationObservationPayload) (observedAt : Instant) :
    Except Refusal VerificationStore := do
  -- the driver has no timestamp for a naive value
  require payload.expectedSlotUtc.Aware .dataError
  let target := payload.expectedSlotUtc.instant
  require (¬ ∃ o ∈ store.observations.rows, o.scopeVersion = payload.scopeVersion ∧
    o.expectedSlotUtc = target) (.http 409)
  require (¬ SnapshotWasUsed store payload.snapshotId) (.http 409)
  let targetResults ← validatedSourceResults snapshot facts payload observedAt
  let slots ← valueErrorAs 422
    (verificationSlots (store.lastSlot payload.scopeVersion) payload.expectedSlotUtc)
  require (slots.getLast? = some target) (.http 409)
  let context : SlotContext := ⟨snapshot, facts, payload, targetResults, observedAt⟩
  let observations ← slots.foldlM (persistSlot references context) store.observations
  let uses ← addUse store.uses context.use
  let cursors ← moveCursor store.cursors payload.scopeVersion target observedAt
  require (1 ≤ facts.length ∧ facts.length ≤ 20) .validation
  return ⟨store.issued, cursors, uses, observations⟩

/-- `except SnapshotIntegrityError`. -/
def integrityAs {α : Type} (statusCode : ℕ) : Except Refusal α → Except Refusal α
  | .error (.snapshotIntegrity _) => .error (.http statusCode)
  | x => x

/-- `raise_verification_integrity_error`. -/
def uniqueAs {α : Type} (statusCode : ℕ) : Except Refusal α → Except Refusal α
  | .error .uniqueViolation => .error (.http statusCode)
  | x => x

/-- `SqlAlchemyVerificationRepository.record` of the configured scope. -/
def record (nfc : Text → Text) (scopeVersion : Text) (references : References)
    (store : VerificationStore) (payload : VerificationObservationPayload)
    (observedAt : Instant) : Except Refusal VerificationStore := do
  require (payload.scopeVersion = scopeVersion) (.http 409)
  let snapshot ← integrityAs 409
    (loadSnapshot nfc store.issued payload.snapshotId scopeVersion payload.snapshotChecksum)
  require (¬ snapshot.evidence.publishedAt > observedAt) (.http 409)
  let facts ← integrityAs 409 (observationFacts store.issued snapshot)
  uniqueAs 409 (recordObservations references store snapshot facts payload observedAt)

/-- A request to the verifier routes of some configured scope. -/
inductive Request
  | snapshot (issue : Issue)
  | observation (scopeVersion : Text) (references : References)
      (payload : VerificationObservationPayload) (observedAt : Instant)

def handle (nfc : Text → Text) (store : VerificationStore) :
    Request → Except Refusal VerificationStore
  | .snapshot issue => do
    let issued ← issueSnapshot nfc store.issued issue
    return { store with issued := issued }
  | .observation scopeVersion references payload observedAt =>
    record nfc scopeVersion references store payload observedAt

section Slots

def OnGrid (t : ℤ) : Prop := t % verificationInterval = 0

theorem verificationInterval_eq : verificationInterval = 900000000 := rfl

theorem requireAlignedUtc_eq_ok {value : Datetime} :
    requireAlignedUtc value = .ok () ↔ value.utcoffset = some 0 ∧ OnGrid value.instant := by
  have hminute : (civil value.instant).minute = value.instant / 1000000 % 86400 / 60 % 60 := rfl
  have hsecond : (civil value.instant).second = value.instant / 1000000 % 86400 % 60 := rfl
  have hmicro : (civil value.instant).microsecond = value.instant % 1000000 := rfl
  rw [requireAlignedUtc, requireAwareUtc, require_bind, require_eq_ok, hminute, hsecond, hmicro,
    OnGrid, verificationInterval_eq]
  constructor
  · rintro ⟨hutc, haligned⟩
    refine ⟨hutc, ?_⟩
    omega
  · rintro ⟨hutc, haligned⟩
    refine ⟨hutc, ?_⟩
    omega

theorem mem_slotsThrough {slot target t : ℤ} : t ∈ slotsThrough slot target ↔
    slot ≤ t ∧ t ≤ target ∧ (t - slot) % 900000000 = 0 := by
  fun_induction slotsThrough slot target with
  | case1 slot hle ih =>
    have hnext : t ∈ slotsThrough (slot + verificationInterval) target ↔
        slot + 900000000 ≤ t ∧ t ≤ target ∧ (t - (slot + 900000000)) % 900000000 = 0 := ih
    rw [List.mem_cons, hnext]
    constructor
    · rintro (rfl | ⟨hslot, htarget, hstep⟩)
      · exact ⟨le_rfl, hle, by simp⟩
      · exact ⟨by omega, htarget, by omega⟩
    · rintro ⟨hslot, htarget, hstep⟩
      by_cases heq : t = slot
      · exact .inl heq
      · exact .inr ⟨by omega, htarget, by omega⟩
  | case2 slot hgt =>
    constructor
    · exact fun h => absurd h List.not_mem_nil
    · rintro ⟨hslot, htarget, _⟩
      omega

theorem slots_after {last target t : ℤ} (hlast : OnGrid last) :
    t ∈ slotsThrough (last + verificationInterval) target ↔ OnGrid t ∧ t ≤ target ∧ last < t := by
  rw [OnGrid, verificationInterval_eq] at hlast
  rw [mem_slotsThrough, OnGrid, verificationInterval_eq]
  constructor
  · rintro ⟨hge, hle, hstep⟩
    exact ⟨by omega, hle, by omega⟩
  · rintro ⟨hon, hle, hafter⟩
    exact ⟨by omega, hle, by omega⟩

theorem verificationSlots_spec {last : Option Instant} {target : Datetime} {slots : List Instant}
    (h : verificationSlots last target = .ok slots)
    (hlast : slots.getLast? = some target.instant) :
    target.utcoffset = some 0 ∧ OnGrid target.instant ∧ (∀ l ∈ last, l < target.instant) ∧
      ∀ t, t ∈ slots ↔ OnGrid t ∧ t ≤ target.instant ∧ (∀ l ∈ last, l < t) ∧
        (last = none → t = target.instant) := by
  obtain ⟨_, haligned, h⟩ := bind_eq_ok.mp h
  have htarget := requireAlignedUtc_eq_ok.mp haligned
  cases last with
  | none =>
    have hslots := Except.ok.inj h
    subst hslots
    refine ⟨htarget.1, htarget.2, by simp, fun t => ?_⟩
    rw [List.mem_singleton]
    constructor
    · rintro rfl
      exact ⟨htarget.2, le_rfl, by simp, fun _ => rfl⟩
    · exact fun ht => ht.2.2.2 rfl
  | some l =>
    obtain ⟨_, hl, h⟩ := bind_eq_ok.mp h
    have hl : OnGrid l := (requireAlignedUtc_eq_ok.mp hl).2
    have hslots := Except.ok.inj h
    by_cases hle : target.instant ≤ l
    · rw [if_pos hle] at hslots
      subst hslots
      exact absurd hlast (by simp)
    · rw [if_neg hle] at hslots
      subst hslots
      refine ⟨htarget.1, htarget.2, ?_, fun t => ?_⟩
      · intro m hm
        rw [← Option.some.inj hm]
        exact lt_of_not_ge hle
      · rw [slots_after hl]
        refine and_congr_right fun _ => and_congr_right fun _ => ⟨fun hafter => ?_, fun hafter => ?_⟩
        · refine ⟨fun m hm => ?_, by simp⟩
          rw [← Option.some.inj hm]
          exact hafter
        · exact hafter.1 l rfl

example : (verificationSlots (some (seconds 900)) (.utc (seconds 3600))).toOption =
    some [seconds 1800, seconds 2700, seconds 3600] := by
  decide +kernel

end Slots

section Accepted

def Written (context : SlotContext) (slot : Instant) (facts : SourceVerificationFacts)
    (o : VerificationObservation) : Prop :=
  ∃ result, slotResult context slot facts = .ok result ∧ o = context.observation slot facts result

theorem persistFact_rows {references : References} {context : SlotContext} {slot : Instant}
    {observations added : Table VerificationObservation.slot} {facts : SourceVerificationFacts}
    (h : persistFact references context slot observations facts = .ok added) :
    ∃ new, (∃ o, Written context slot facts o ∧ new = [o]) ∧
      added.rows = observations.rows ++ new := by
  obtain ⟨result, hresult, h⟩ := bind_eq_ok.mp h
  rw [addObservation, require_bind, require_bind, require_bind, present_eq_ok] at h
  have hrows := (Table.insert?_eq_some.mp h.2.2.2).2
  exact ⟨_, ⟨_, ⟨result, hresult, rfl⟩, rfl⟩, hrows⟩

def SlotRows (context : SlotContext) (slot : Instant) (new : List VerificationObservation) : Prop :=
  (∀ o, o ∈ new ↔ ∃ facts ∈ context.facts, Written context slot facts o) ∧
    ∀ facts ∈ context.facts, ∃ o, Written context slot facts o

theorem written_unique {context : SlotContext} {slot : Instant} {facts : SourceVerificationFacts}
    {o other : VerificationObservation} (h : Written context slot facts o)
    (hother : Written context slot facts other) : o = other := by
  obtain ⟨result, hresult, rfl⟩ := h
  obtain ⟨result', hresult', rfl⟩ := hother
  have hsame : result = result' := Except.ok.inj (hresult.symm.trans hresult')
  rw [hsame]

theorem persistSlot_rows {references : References} {context : SlotContext} {slot : Instant}
    {observations added : Table VerificationObservation.slot}
    (h : persistSlot references context observations slot = .ok added) :
    ∃ new, SlotRows context slot new ∧ added.rows = observations.rows ++ new := by
  obtain ⟨news, hnews, hrows⟩ := foldlM_appends Table.rows
    (fun _ _ _ hstep => persistFact_rows hstep) h
  have hwritten : ∀ facts ∈ context.facts, ∃ o, Written context slot facts o := by
    intro facts hfacts
    obtain ⟨_, _, o, ho, _⟩ := forall₂_mem_left hnews facts hfacts
    exact ⟨o, ho⟩
  refine ⟨news.flatten, ⟨fun o => ?_, hwritten⟩, hrows⟩
  rw [mem_foldlM_appends hnews]
  constructor
  · rintro ⟨facts, hfacts, new, _, ⟨written, hwritten, rfl⟩, ho⟩
    rw [List.mem_singleton.mp ho]
    exact ⟨facts, hfacts, hwritten⟩
  · rintro ⟨facts, hfacts, ho⟩
    obtain ⟨new, hnew, written, hwritten, hsingle⟩ := forall₂_mem_left hnews facts hfacts
    refine ⟨facts, hfacts, new, hnew, ⟨written, hwritten, hsingle⟩, ?_⟩
    rw [hsingle, written_unique ho hwritten]
    exact List.mem_singleton_self _

theorem persistSlots_rows {references : References} {context : SlotContext} {slots : List Instant}
    {observations added : Table VerificationObservation.slot}
    (h : slots.foldlM (persistSlot references context) observations = .ok added) :
    (∀ o, o ∈ added ↔ o ∈ observations ∨
      ∃ slot ∈ slots, ∃ facts ∈ context.facts, Written context slot facts o) ∧
      ∀ slot ∈ slots, ∀ facts ∈ context.facts, ∃ o, Written context slot facts o := by
  obtain ⟨news, hnews, hrows⟩ := foldlM_appends Table.rows
    (fun _ _ _ hstep => persistSlot_rows hstep) h
  have hwritten : ∀ slot ∈ slots, ∀ facts ∈ context.facts, ∃ o, Written context slot facts o := by
    intro slot hslot
    obtain ⟨new, _, hnew⟩ := forall₂_mem_left hnews slot hslot
    exact hnew.2
  refine ⟨fun o => ?_, hwritten⟩
  rw [Table.mem_def, hrows, List.mem_append, mem_foldlM_appends hnews]
  refine or_congr Iff.rfl ⟨?_, ?_⟩
  · rintro ⟨slot, hslot, new, _, hnew, ho⟩
    exact ⟨slot, hslot, (hnew.1 o).mp ho⟩
  · rintro ⟨slot, hslot, hfacts⟩
    obtain ⟨new, hnew, hslotRows⟩ := forall₂_mem_left hnews slot hslot
    exact ⟨slot, hslot, new, hnew, hslotRows, (hslotRows.1 o).mpr hfacts⟩

theorem measurements_status (facts : SourceVerificationFacts) (scheduler : ℤ) :
    (measurements facts scheduler).status ≠ .missing ∧
      (measurements facts scheduler).sourceId = facts.sourceId := by
  unfold measurements finishedMeasurements failedMeasurements
  split_ifs
  · simp
  · split
    · dsimp only
      split_ifs
      · simp
      · simp
      · split
        · split_ifs <;> simp
        · simp
    · simp

theorem deriveSourceResult_eq_ok {facts : SourceVerificationFacts} {slot startedAt : Datetime}
    {result : VerificationSourceResult} (h : deriveSourceResult facts slot startedAt = .ok result) :
    result.status ≠ .missing ∧ result.sourceId = facts.sourceId := by
  obtain ⟨_, _, h⟩ := bind_eq_ok.mp h
  obtain ⟨_, _, h⟩ := bind_eq_ok.mp h
  obtain ⟨_, h⟩ := require_bind.mp h
  rw [sourceResult] at h
  split at h
  · have hresult := Except.ok.inj h
    subst hresult
    exact measurements_status facts _
  · exact absurd h (by simp)

theorem missingResult_eq_ok {sourceId : UUID} {slot startedAt : Instant}
    {result : VerificationSourceResult} (h : missingResult sourceId slot startedAt = .ok result) :
    result.status = .missing ∧ result.failureCode = some "verification_slot_missing".toList := by
  obtain ⟨_, h⟩ := require_bind.mp h
  rw [sourceResult] at h
  split at h
  · have hresult := Except.ok.inj h
    subst hresult
    exact ⟨rfl, rfl⟩
  · exact absurd h (by simp)

theorem resultOf_eq_some {results : List VerificationSourceResult} {sourceId : UUID}
    {result : VerificationSourceResult} (h : resultOf results sourceId = some result) :
    result ∈ results ∧ result.sourceId = sourceId := by
  have hmem := List.mem_reverse.mp (List.mem_of_find?_eq_some h)
  have hid := List.find?_some h
  exact ⟨hmem, by simpa using hid⟩

theorem resultOf_of_mem {results : List VerificationSourceResult}
    {result : VerificationSourceResult} (h : result ∈ results) :
    ∃ found, resultOf results result.sourceId = some found := by
  cases hfind : resultOf results result.sourceId with
  | some found => exact ⟨found, rfl⟩
  | none =>
    have hno := List.find?_eq_none.mp hfind result (List.mem_reverse.mpr h)
    exact absurd (decide_eq_true rfl) hno

theorem validatedSourceResults_eq_ok {snapshot : SnapshotEnvelope}
    {facts : List SourceVerificationFacts} {payload : VerificationObservationPayload}
    {observedAt : Instant} {results : List VerificationSourceResult}
    (h : validatedSourceResults snapshot facts payload observedAt = .ok results) :
    payload.scopeVersion = snapshot.evidence.scopeVersion ∧
      payload.snapshotId = snapshot.snapshotId ∧ facts ≠ [] ∧
      SameResults payload.sourceResults results ∧ ∀ result ∈ results, result.status ≠ .missing := by
  obtain ⟨_, hbinding, h⟩ := bind_eq_ok.mp h
  obtain ⟨expected, hexpected, h⟩ := bind_eq_ok.mp h
  obtain ⟨hsame, h⟩ := require_bind.mp h
  have hresults : expected = results := Except.ok.inj h
  subst hresults
  rw [validateBinding, require_bind] at hbinding
  have hidentity := hbinding.1
  have hall : (facts.mapM fun item =>
      deriveSourceResult item payload.expectedSlotUtc payload.actionStartedAt) = .ok expected := by
    rw [derivedResults, valueErrorAs.eq_def] at hexpected
    split at hexpected
    · exact absurd hexpected (by simp)
    · exact absurd hexpected (by simp)
    · exact hexpected
  refine ⟨?_, ?_, ?_, hsame, fun result hresult => ?_⟩
  · exact not_not.mp fun hne => hidentity (.inl hne)
  · exact not_not.mp fun hne => hidentity (.inr (.inl hne))
  · intro hnil
    rw [hnil] at hall
    have hnone : expected = [] := mapM_eq_ok_nil.mp hall
    obtain ⟨first, hfirst⟩ : ∃ first, first ∈ payload.sourceResults :=
      List.exists_mem_of_length_pos payload.counted.1
    obtain ⟨found, hfound⟩ := resultOf_of_mem hfirst
    have hderived := hsame first.sourceId
      (List.mem_map_of_mem (List.mem_append_left _ hfirst))
    rw [hfound, hnone] at hderived
    exact absurd hderived (by simp [resultOf])
  · obtain ⟨item, _, hitem⟩ := forall₂_mem_right (mapM_forall₂.mp hall) result hresult
    exact (deriveSourceResult_eq_ok hitem).1

theorem loadSnapshot_eq_ok {nfc : Text → Text} {store : SnapshotStore} {id : UUID}
    {scopeVersion : Text} {checksum : Digest} {envelope : SnapshotEnvelope}
    (h : loadSnapshot nfc store id scopeVersion checksum = .ok envelope) :
    store.snapshots.find? envelope.snapshotId ≠ none ∧
      ∀ item, item ∈ envelope.evidence.sources ↔
        ∃ row ∈ rowsOf store envelope.snapshotId, row.facts = item := by
  obtain ⟨record, hrecord, h⟩ := bind_eq_ok.mp h
  have hmem : record ∈ store.snapshots := List.mem_of_find?_eq_some (present_eq_ok.mp hrecord)
  obtain ⟨hmatch, h⟩ := require_bind.mp h
  have henvelope := Except.ok.inj h
  have hid : envelope.snapshotId = record.id := by
    rw [← henvelope]
    exact not_not.mp fun hne => hmatch (.inl hne)
  have hsources : envelope.evidence.sources = (store.factsOf record.id).insertionSort SourceLE := by
    rw [← henvelope]
    rfl
  refine ⟨?_, fun item => ?_⟩
  · rw [hid, Table.find?_of_mem hmem]
    exact Option.some_ne_none _
  · rw [hsources, List.mem_insertionSort, factsOf_eq, List.mem_insertionSort, List.mem_map, hid]

theorem moveCursor_lastSlot {cursors moved : Table VerificationCursor.scopeVersion}
    {scopeVersion : Text} {slot now : Instant}
    (h : moveCursor cursors scopeVersion slot now = .ok moved) (scope : Text) :
    (moved.find? scope).bind VerificationCursor.lastMaterializedSlotUtc =
      if scope = scopeVersion then some slot
      else (cursors.find? scope).bind VerificationCursor.lastMaterializedSlotUtc := by
  rw [moveCursor.eq_def] at h
  cases hfind : cursors.find? scopeVersion with
  | none =>
    rw [hfind] at h
    have hinsert := present_eq_ok.mp h
    rw [Table.find?_insert hinsert]
    by_cases hscope : scope = scopeVersion
    · rw [if_pos hscope.symm, if_pos hscope, Option.bind_some]
    · rw [if_neg (Ne.symm hscope), if_neg hscope]
  | some cursor =>
    rw [hfind] at h
    have hmoved := Except.ok.inj h
    rw [← hmoved]
    by_cases hscope : scope = scopeVersion
    · rw [hscope, Table.find?_update_self, hfind, if_pos rfl]
      rfl
    · rw [Table.find?_update_ne hscope, if_neg hscope]

def SlotContext.target (context : SlotContext) : Instant := context.payload.expectedSlotUtc.instant

def SlotContext.scope (context : SlotContext) : Text := context.payload.scopeVersion

/-- The slots between a cursor and a target: the quarter hours after the cursor, or the
    target alone where there is no cursor. -/
def Reached (last : Option Instant) (target slot : Instant) : Prop :=
  OnGrid slot ∧ slot ≤ target ∧ (∀ l ∈ last, l < slot) ∧ (last = none → slot = target)

structure Accepted (store next : VerificationStore) (context : SlotContext) (slots : List Instant) :
    Prop where
  issued : next.issued = store.issued
  bound : context.payload.snapshotId = context.snapshot.snapshotId
  held : store.issued.snapshots.find? context.snapshot.snapshotId ≠ none
  unused : ∀ use ∈ store.uses, use.snapshotId ≠ context.payload.snapshotId
  sources : ∀ sourceId,
    (∃ row ∈ rowsOf store.issued context.snapshot.snapshotId, row.facts.sourceId = sourceId) ↔
      ∃ facts ∈ context.facts, facts.sourceId = sourceId
  nonempty : context.facts ≠ []
  same : SameResults context.payload.sourceResults context.targetResults
  derived : ∀ result ∈ context.targetResults, result.status ≠ .missing
  aligned : OnGrid context.target ∧ ∀ last ∈ store.lastSlot context.scope, last < context.target
  mem_slots : ∀ t, t ∈ slots ↔ Reached (store.lastSlot context.scope) context.target t
  lastSlot : ∀ scope, next.lastSlot scope =
    if scope = context.scope then some context.target else store.lastSlot scope
  uses : ∀ use, use ∈ next.uses ↔ use ∈ store.uses ∨ use = context.use
  observations : ∀ o, o ∈ next.observations ↔ o ∈ store.observations ∨
    ∃ slot ∈ slots, ∃ facts ∈ context.facts, Written context slot facts o
  written : ∀ slot ∈ slots, ∀ facts ∈ context.facts, ∃ o, Written context slot facts o

theorem observationFacts_sources {store : SnapshotStore} {envelope : SnapshotEnvelope}
    {facts : List SourceVerificationFacts}
    (hrows : ∀ item, item ∈ envelope.evidence.sources ↔
      ∃ row ∈ rowsOf store envelope.snapshotId, row.facts = item)
    (hfacts : observationFacts store envelope = .ok facts) (sourceId : UUID) :
    (∃ row ∈ rowsOf store envelope.snapshotId, row.facts.sourceId = sourceId) ↔
      ∃ fact ∈ facts, fact.sourceId = sourceId := by
  rw [observationFacts_eq_map hfacts]
  constructor
  · rintro ⟨row, hrow, hid⟩
    have hitem := (hrows row.facts).mpr ⟨row, hrow, rfl⟩
    exact ⟨_, List.mem_map_of_mem hitem, hid⟩
  · rintro ⟨fact, hfact, hid⟩
    obtain ⟨item, hitem, rfl⟩ := List.mem_map.mp hfact
    obtain ⟨row, hrow, rfl⟩ := (hrows item).mp hitem
    exact ⟨row, hrow, hid⟩

theorem integrityAs_eq_ok {α : Type} {x : Except Refusal α} {a : α} {statusCode : ℕ}
    (h : integrityAs statusCode x = .ok a) : x = .ok a := by
  rw [integrityAs.eq_def] at h
  split at h
  · exact absurd h (by simp)
  · exact h

theorem uniqueAs_eq_ok {α : Type} {x : Except Refusal α} {a : α} {statusCode : ℕ}
    (h : uniqueAs statusCode x = .ok a) : x = .ok a := by
  rw [uniqueAs.eq_def] at h
  split at h
  · exact absurd h (by simp)
  · exact h

theorem valueErrorAs_eq_ok {α : Type} {x : Except Refusal α} {a : α} {statusCode : ℕ}
    (h : valueErrorAs statusCode x = .ok a) : x = .ok a := by
  rw [valueErrorAs.eq_def] at h
  split at h
  · exact absurd h (by simp)
  · exact absurd h (by simp)
  · exact h

theorem record_eq_ok {nfc : Text → Text} {scopeVersion : Text} {references : References}
    {store next : VerificationStore} {payload : VerificationObservationPayload}
    {observedAt : Instant}
    (h : record nfc scopeVersion references store payload observedAt = .ok next) :
    payload.scopeVersion = scopeVersion ∧ ∃ snapshot facts targetResults slots,
      Accepted store next ⟨snapshot, facts, payload, targetResults, observedAt⟩ slots := by
  obtain ⟨hscope, h⟩ := require_bind.mp h
  obtain ⟨snapshot, hsnapshot, h⟩ := bind_eq_ok.mp h
  obtain ⟨_, h⟩ := require_bind.mp h
  obtain ⟨facts, hfacts, h⟩ := bind_eq_ok.mp h
  have hloaded := loadSnapshot_eq_ok (integrityAs_eq_ok hsnapshot)
  have hfacts := integrityAs_eq_ok hfacts
  have h := uniqueAs_eq_ok h
  obtain ⟨_, h⟩ := require_bind.mp h
  obtain ⟨_, h⟩ := require_bind.mp h
  obtain ⟨hunused, h⟩ := require_bind.mp h
  obtain ⟨targetResults, hresults, h⟩ := bind_eq_ok.mp h
  obtain ⟨slots, hslots, h⟩ := bind_eq_ok.mp h
  obtain ⟨hlast, h⟩ := require_bind.mp h
  obtain ⟨observations, hobservations, h⟩ := bind_eq_ok.mp h
  obtain ⟨uses, huses, h⟩ := bind_eq_ok.mp h
  obtain ⟨cursors, hcursors, h⟩ := bind_eq_ok.mp h
  obtain ⟨_, h⟩ := require_bind.mp h
  have hnext := Except.ok.inj h
  subst hnext
  have hvalidated := validatedSourceResults_eq_ok hresults
  have hgrid := verificationSlots_spec (valueErrorAs_eq_ok hslots) hlast
  rw [addUse, require_bind, require_bind, present_eq_ok] at huses
  refine ⟨hscope, snapshot, facts, targetResults, slots, ?_⟩
  exact {
    issued := rfl
    bound := hvalidated.2.1
    held := hloaded.1
    unused := fun use huse hsame => hunused (.inl ⟨use, huse, hsame⟩)
    sources := observationFacts_sources hloaded.2 hfacts
    nonempty := hvalidated.2.2.1
    same := hvalidated.2.2.2.1
    derived := hvalidated.2.2.2.2
    aligned := ⟨hgrid.2.1, hgrid.2.2.1⟩
    mem_slots := hgrid.2.2.2
    lastSlot := moveCursor_lastSlot hcursors
    uses := fun _ => Table.mem_insert huses.2.2
    observations := (persistSlots_rows hobservations).1
    written := (persistSlots_rows hobservations).2 }

end Accepted

section Grid

def Recorded (store : VerificationStore) (scope : Text) (slot : Instant) : Prop :=
  ∃ o ∈ store.observations, o.scopeVersion = scope ∧ o.expectedSlotUtc = slot

/-- The recorded slots are the quarter hours from a first one to the cursor. -/
def Contiguous (store : VerificationStore) (scope : Text) : Prop :=
  match store.lastSlot scope with
  | none => ∀ slot, ¬ Recorded store scope slot
  | some last => ∃ first, OnGrid first ∧ OnGrid last ∧ first ≤ last ∧
      ∀ slot, Recorded store scope slot ↔ OnGrid slot ∧ first ≤ slot ∧ slot ≤ last

def ReachedBy (store : VerificationStore) (scope : Text) (slot : Instant)
    (use : VerificationSnapshotUse) : Prop :=
  use ∈ store.uses ∧ use.scopeVersion = scope ∧ slot ≤ use.expectedSlotUtc ∧
    ∀ other ∈ store.uses, other.scopeVersion = scope → slot ≤ other.expectedSlotUtc →
      use.expectedSlotUtc ≤ other.expectedSlotUtc

/-- Each source of the consumed snapshot is recorded exactly once at the slot. -/
def RecordedOnce (store : VerificationStore) (scope : Text) (slot : Instant)
    (use : VerificationSnapshotUse) : Prop :=
  ∀ sourceId, (∃ row ∈ rowsOf store.issued use.snapshotId, row.facts.sourceId = sourceId) ↔
    ∃! o, o ∈ store.observations ∧ o.slot = (scope, slot, sourceId)

/-- The rows of a slot carry the consumed snapshot, and are missing exactly when
    the slot was passed. -/
def RecordedFrom (store : VerificationStore) (scope : Text) (slot : Instant)
    (use : VerificationSnapshotUse) : Prop :=
  ∀ o ∈ store.observations, o.scopeVersion = scope → o.expectedSlotUtc = slot →
    o.snapshotId = use.snapshotId ∧ (o.status = .missing ↔ slot ≠ use.expectedSlotUtc)

/-- Latencies are nonnegative, and those of a pass are present and bounded. -/
def Measured (o : VerificationObservation) : Prop :=
  0 ≤ o.schedulerLatencySeconds ∧ (∀ c ∈ o.collectionRecencySeconds, 0 ≤ c) ∧
    (∀ p ∈ o.publicationLatencySeconds, 0 ≤ p) ∧
    (o.status = .passed → (∃ c ∈ o.collectionRecencySeconds, c ≤ maxFreshnessSeconds) ∧
      ∃ p ∈ o.publicationLatencySeconds, p ≤ maxFreshnessSeconds)

structure ObservationGrid (store : VerificationStore) : Prop where
  contiguous : ∀ scope, Contiguous store scope
  reached : ∀ scope slot, Recorded store scope slot → ∃ use, ReachedBy store scope slot use ∧
    RecordedOnce store scope slot use ∧ RecordedFrom store scope slot use
  consumedOnce : ∀ use ∈ store.uses, ∀ other ∈ store.uses,
    use.snapshotId = other.snapshotId → use = other
  measured : ∀ o ∈ store.observations, Measured o

end Grid

section Steps

structure Invariant (store : VerificationStore) : Prop extends ObservationGrid store where
  used : ∀ use ∈ store.uses, store.issued.snapshots.find? use.snapshotId ≠ none ∧
    ∃ last ∈ store.lastSlot use.scopeVersion, use.expectedSlotUtc ≤ last

theorem written_fields {context : SlotContext} {slot : Instant} {facts : SourceVerificationFacts}
    {o : VerificationObservation} (h : Written context slot facts o) :
    o.scopeVersion = context.scope ∧ o.expectedSlotUtc = slot ∧ o.sourceId = facts.sourceId ∧
      o.snapshotId = context.snapshot.snapshotId := by
  obtain ⟨result, _, rfl⟩ := h
  exact ⟨rfl, rfl, rfl, rfl⟩

theorem written_measured {context : SlotContext} {slot : Instant} {facts : SourceVerificationFacts}
    {o : VerificationObservation} (h : Written context slot facts o) : Measured o := by
  obtain ⟨result, _, rfl⟩ := h
  have hvalid := result.valid
  refine ⟨hvalid.1.1, hvalid.1.2.1, hvalid.1.2.2.1, fun hpassed => ?_⟩
  have hstatus : result.status = .passed := hpassed
  have hevidence := hvalid.2
  rw [SourceMeasurements.StatusEvidence, hstatus] at hevidence
  exact ⟨hevidence.1, hevidence.2.1⟩

theorem written_status {context : SlotContext} {slot : Instant} {facts : SourceVerificationFacts}
    {o : VerificationObservation}
    (hderived : ∀ result ∈ context.targetResults, result.status ≠ .missing)
    (h : Written context slot facts o) : o.status = .missing ↔ slot ≠ context.target := by
  obtain ⟨result, hresult, rfl⟩ := h
  obtain ⟨missing, hmissing, hresult⟩ := bind_eq_ok.mp hresult
  by_cases hslot : slot = context.payload.expectedSlotUtc.instant
  · have hfound : present (resultOf context.targetResults facts.sourceId) Refusal.keyError =
        .ok result := by
      rw [if_neg (not_not.mpr hslot)] at hresult
      exact hresult
    have hstatus : result.status ≠ .missing :=
      hderived result (resultOf_eq_some (present_eq_ok.mp hfound)).1
    exact ⟨fun h => absurd h hstatus, fun h => absurd hslot h⟩
  · rw [if_pos hslot] at hresult
    have hsame := Except.ok.inj hresult
    subst hsame
    have hstatus : missing.status = .missing := (missingResult_eq_ok hmissing).1
    exact ⟨fun _ => hslot, fun _ => hstatus⟩

variable {store next : VerificationStore} {context : SlotContext} {slots : List Instant}

theorem recorded_accepted (h : Accepted store next context slots) (scope : Text) (slot : Instant) :
    Recorded next scope slot ↔
      Recorded store scope slot ∨ (scope = context.scope ∧ slot ∈ slots) := by
  constructor
  · rintro ⟨o, ho, hscope, hslot⟩
    rcases (h.observations o).mp ho with hold | ⟨slot', hslot', facts, _, hwritten⟩
    · exact .inl ⟨o, hold, hscope, hslot⟩
    · have hfields := written_fields hwritten
      rw [← hscope, ← hslot, hfields.1, hfields.2.1]
      exact .inr ⟨rfl, hslot'⟩
  · rintro (⟨o, ho, hscope, hslot⟩ | ⟨rfl, hslot⟩)
    · exact ⟨o, (h.observations o).mpr (.inl ho), hscope, hslot⟩
    · obtain ⟨facts, hfacts⟩ := List.exists_mem_of_ne_nil _ h.nonempty
      obtain ⟨o, hwritten⟩ := h.written slot hslot facts hfacts
      have hfields := written_fields hwritten
      exact ⟨o, (h.observations o).mpr (.inr ⟨slot, hslot, facts, hfacts, hwritten⟩), hfields.1,
        hfields.2.1⟩

theorem recorded_le_last {scope : Text} {slot : Instant} (hgrid : Contiguous store scope)
    (hrecorded : Recorded store scope slot) : ∃ last ∈ store.lastSlot scope, slot ≤ last := by
  rw [Contiguous] at hgrid
  cases hlast : store.lastSlot scope with
  | none =>
    rw [hlast] at hgrid
    exact absurd hrecorded (hgrid slot)
  | some last =>
    rw [hlast] at hgrid
    obtain ⟨first, _, _, _, hslots⟩ := hgrid
    exact ⟨last, rfl, ((hslots slot).mp hrecorded).2.2⟩

theorem slots_fresh (h : Accepted store next context slots)
    (hgrid : Contiguous store context.scope) {slot : Instant} (hslot : slot ∈ slots) :
    ¬ Recorded store context.scope slot := by
  intro hrecorded
  obtain ⟨last, hlast, hle⟩ := recorded_le_last hgrid hrecorded
  exact absurd (((h.mem_slots slot).mp hslot).2.2.1 last hlast) (not_lt_of_ge hle)

theorem contiguous_accepted (h : Accepted store next context slots)
    (hgrid : ∀ scope, Contiguous store scope) (scope : Text) : Contiguous next scope := by
  have hold := hgrid scope
  rw [Contiguous] at hold ⊢
  rw [h.lastSlot scope]
  by_cases hscope : scope = context.scope
  · rw [if_pos hscope]
    subst hscope
    cases hlast : store.lastSlot context.scope with
    | none =>
      rw [hlast] at hold
      refine ⟨context.target, h.aligned.1, h.aligned.1, le_rfl, fun slot => ?_⟩
      rw [recorded_accepted h, h.mem_slots]
      constructor
      · rintro (hrecorded | ⟨_, hon, hle, _, hfirst⟩)
        · exact absurd hrecorded (hold slot)
        · exact ⟨hon, le_of_eq (hfirst hlast).symm, hle⟩
      · rintro ⟨hon, hge, hle⟩
        refine .inr ⟨rfl, hon, hle, ?_, fun _ => le_antisymm hle hge⟩
        simp [hlast]
    | some last =>
      rw [hlast] at hold
      obtain ⟨first, hfirst, hlastOn, hle, hslots⟩ := hold
      have hafter : last < context.target := h.aligned.2 last hlast
      refine ⟨first, hfirst, h.aligned.1, hle.trans hafter.le, fun slot => ?_⟩
      rw [recorded_accepted h, h.mem_slots, hslots slot]
      constructor
      · rintro (⟨hon, hge, hlt⟩ | ⟨_, hon, hlt, hpast, _⟩)
        · exact ⟨hon, hge, hlt.trans hafter.le⟩
        · exact ⟨hon, hle.trans (hpast last hlast).le, hlt⟩
      · rintro ⟨hon, hge, hlt⟩
        by_cases hpast : slot ≤ last
        · exact .inl ⟨hon, hge, hpast⟩
        · refine .inr ⟨rfl, hon, hlt, fun l hl => ?_, fun hnone => ?_⟩
          · rw [Option.mem_def, hlast] at hl
            rw [← Option.some.inj hl]
            exact lt_of_not_ge hpast
          · rw [hlast] at hnone
            exact absurd hnone (by simp)
  · rw [if_neg hscope]
    have hsame : ∀ slot, Recorded next scope slot ↔ Recorded store scope slot := by
      intro slot
      rw [recorded_accepted h]
      exact or_iff_left fun hnew => hscope hnew.1
    cases hlast : store.lastSlot scope with
    | none =>
      rw [hlast] at hold
      exact fun slot => (hsame slot).not.mpr (hold slot)
    | some last =>
      rw [hlast] at hold
      obtain ⟨first, hfirst, hlastOn, hle, hslots⟩ := hold
      exact ⟨first, hfirst, hlastOn, hle, fun slot => (hsame slot).trans (hslots slot)⟩

theorem rows_kept (h : Accepted store next context slots)
    (hgrid : ∀ scope, Contiguous store scope) {scope : Text} {slot : Instant}
    (hrecorded : Recorded store scope slot) {o : VerificationObservation}
    (hscope : o.scopeVersion = scope) (hslot : o.expectedSlotUtc = slot) :
    o ∈ next.observations ↔ o ∈ store.observations := by
  rw [h.observations]
  refine or_iff_left ?_
  rintro ⟨slot', hslot', facts, _, hwritten⟩
  have hfields := written_fields hwritten
  have hold : Recorded store context.scope slot' := by
    rw [← hfields.1, ← hfields.2.1, hscope, hslot]
    exact hrecorded
  exact slots_fresh h (hgrid context.scope) hslot' hold

theorem reached_kept (h : Accepted store next context slots) (hinv : Invariant store)
    {scope : Text} {slot : Instant} (hrecorded : Recorded store scope slot)
    {use : VerificationSnapshotUse} (hreached : ReachedBy store scope slot use)
    (honce : RecordedOnce store scope slot use) (hfrom : RecordedFrom store scope slot use) :
    ReachedBy next scope slot use ∧ RecordedOnce next scope slot use ∧
      RecordedFrom next scope slot use := by
  obtain ⟨huse, huseScope, hle, hfirst⟩ := hreached
  refine ⟨⟨(h.uses use).mpr (.inl huse), huseScope, hle, fun other hother hscope hslot => ?_⟩,
    fun sourceId => ?_, fun o ho hscope hslot => ?_⟩
  · rcases (h.uses other).mp hother with hold | rfl
    · exact hfirst other hold hscope hslot
    · have hsame : use.scopeVersion = context.scope := huseScope.trans hscope.symm
      obtain ⟨last, hlast, hbefore⟩ := (hinv.used use huse).2
      rw [hsame] at hlast
      exact hbefore.trans (h.aligned.2 last hlast).le
  · rw [h.issued, honce sourceId]
    refine existsUnique_congr fun o => and_congr_left fun hslot => ?_
    have hscope : o.scopeVersion = scope := congrArg Prod.fst hslot
    have hslot : o.expectedSlotUtc = slot := congrArg (fun k => k.2.1) hslot
    exact (rows_kept h hinv.contiguous hrecorded hscope hslot).symm
  · exact hfrom o ((rows_kept h hinv.contiguous hrecorded hscope hslot).mp ho) hscope hslot

theorem reached_new (h : Accepted store next context slots) (hinv : Invariant store)
    {slot : Instant} (hslot : slot ∈ slots) :
    ReachedBy next context.scope slot context.use ∧
      RecordedOnce next context.scope slot context.use ∧
      RecordedFrom next context.scope slot context.use := by
  have hslots := (h.mem_slots slot).mp hslot
  have hnew : ∀ o ∈ next.observations, o.scopeVersion = context.scope → o.expectedSlotUtc = slot →
      ∃ facts ∈ context.facts, Written context slot facts o := by
    intro o ho hscope hslotEq
    rcases (h.observations o).mp ho with hold | ⟨slot', _, facts, hfacts, hwritten⟩
    · exact absurd ⟨o, hold, hscope, hslotEq⟩ (slots_fresh h (hinv.contiguous _) hslot)
    · have hsame : slot' = slot := (written_fields hwritten).2.1.symm.trans hslotEq
      exact ⟨facts, hfacts, hsame ▸ hwritten⟩
  refine ⟨⟨(h.uses _).mpr (.inr rfl), rfl, hslots.2.1, fun other hother hscope hle => ?_⟩,
    fun sourceId => ?_, fun o ho hscope hslotEq => ?_⟩
  · rcases (h.uses other).mp hother with hold | rfl
    · obtain ⟨last, hlast, hbefore⟩ := (hinv.used other hold).2
      rw [hscope] at hlast
      exact absurd (hle.trans hbefore) (not_le_of_gt (hslots.2.2.1 last hlast))
    · exact le_rfl
  · rw [h.issued]
    refine (h.sources sourceId).trans ⟨?_, ?_⟩
    · rintro ⟨facts, hfacts, rfl⟩
      obtain ⟨o, hwritten⟩ := h.written slot hslot facts hfacts
      have hfields := written_fields hwritten
      have hkey : o.slot = (context.scope, slot, facts.sourceId) := by
        rw [VerificationObservation.slot, hfields.1, hfields.2.1, hfields.2.2.1]
      refine ⟨o, ⟨(h.observations o).mpr (.inr ⟨slot, hslot, facts, hfacts, hwritten⟩), hkey⟩, ?_⟩
      rintro other ⟨hother, hotherKey⟩
      exact Table.eq_of_key hother
        ((h.observations o).mpr (.inr ⟨slot, hslot, facts, hfacts, hwritten⟩))
        (hotherKey.trans hkey.symm)
    · rintro ⟨o, ⟨ho, hkey⟩, _⟩
      have hscope : o.scopeVersion = context.scope := congrArg Prod.fst hkey
      have hslotEq : o.expectedSlotUtc = slot := congrArg (fun k => k.2.1) hkey
      have hsource : o.sourceId = sourceId := congrArg (fun k => k.2.2) hkey
      obtain ⟨facts, hfacts, hwritten⟩ := hnew o ho hscope hslotEq
      exact ⟨facts, hfacts, (written_fields hwritten).2.2.1.symm.trans hsource⟩
  · obtain ⟨facts, _, hwritten⟩ := hnew o ho hscope hslotEq
    exact ⟨(written_fields hwritten).2.2.2, written_status h.derived hwritten⟩

theorem used_accepted (h : Accepted store next context slots) (hinv : Invariant store)
    {use : VerificationSnapshotUse} (huse : use ∈ next.uses) :
    next.issued.snapshots.find? use.snapshotId ≠ none ∧
      ∃ last ∈ next.lastSlot use.scopeVersion, use.expectedSlotUtc ≤ last := by
  rw [h.issued, h.lastSlot]
  rcases (h.uses use).mp huse with hold | rfl
  · obtain ⟨hheld, last, hlast, hle⟩ := hinv.used use hold
    refine ⟨hheld, ?_⟩
    by_cases hscope : use.scopeVersion = context.scope
    · rw [if_pos hscope]
      rw [hscope] at hlast
      exact ⟨context.target, rfl, hle.trans (h.aligned.2 last hlast).le⟩
    · rw [if_neg hscope]
      exact ⟨last, hlast, hle⟩
  · have hscope : context.use.scopeVersion = context.scope := rfl
    rw [if_pos hscope]
    exact ⟨h.held, context.target, rfl, le_rfl⟩

theorem invariant_accepted (h : Accepted store next context slots) (hinv : Invariant store) :
    Invariant next where
  contiguous := contiguous_accepted h hinv.contiguous
  reached := by
    intro scope slot hrecorded
    rcases (recorded_accepted h scope slot).mp hrecorded with hold | ⟨rfl, hslot⟩
    · obtain ⟨use, hreached, honce, hfrom⟩ := hinv.reached scope slot hold
      exact ⟨use, reached_kept h hinv hold hreached honce hfrom⟩
    · exact ⟨context.use, reached_new h hinv hslot⟩
  consumedOnce := fun _ huse _ hother hkey => Table.eq_of_key huse hother hkey
  measured := by
    intro o ho
    rcases (h.observations o).mp ho with hold | ⟨_, _, _, _, hwritten⟩
    · exact hinv.measured o hold
    · exact written_measured hwritten
  used := fun _ huse => used_accepted h hinv huse

theorem invariant_issued {issued : SnapshotStore} {envelope : SnapshotEnvelope}
    (h : Persisted store.issued envelope issued) (hinv : Invariant store) :
    Invariant { store with issued := issued } where
  contiguous := hinv.contiguous
  reached := by
    intro scope slot hrecorded
    obtain ⟨use, hreached, honce, hfrom⟩ := hinv.reached scope slot hrecorded
    refine ⟨use, hreached, fun sourceId => ?_, hfrom⟩
    have hrows := rowsOf_old h (hinv.used use hreached.1).1
    have hsame := honce sourceId
    rw [← hrows] at hsame
    exact hsame
  consumedOnce := hinv.consumedOnce
  measured := hinv.measured
  used := by
    intro use huse
    obtain ⟨hheld, hlast⟩ := hinv.used use huse
    refine ⟨?_, hlast⟩
    obtain ⟨record, hrecord⟩ := Option.ne_none_iff_exists'.mp hheld
    obtain ⟨hmem, hid⟩ := Table.find?_eq_some.mp hrecord
    have hkept : record ∈ issued.snapshots := by
      rw [Table.mem_def, h.snapshots]
      exact List.mem_append_left _ hmem
    rw [← hid, Table.find?_of_mem hkept]
    exact Option.some_ne_none _

theorem invariant_empty : Invariant VerificationStore.empty where
  contiguous := fun _ _ hrecorded => by
    obtain ⟨o, ho, _⟩ := hrecorded
    exact Table.not_mem_empty o ho
  reached := fun _ _ ⟨o, ho, _⟩ => absurd ho (Table.not_mem_empty o)
  consumedOnce := fun use huse => absurd huse (Table.not_mem_empty use)
  measured := fun o ho => absurd ho (Table.not_mem_empty o)
  used := fun use huse => absurd huse (Table.not_mem_empty use)

theorem invariant_handle {nfc : Text → Text} {store next : VerificationStore} {request : Request}
    (hinv : Invariant store) (h : handle nfc store request = .ok next) : Invariant next := by
  cases request with
  | snapshot issue =>
    obtain ⟨issued, hissued, h⟩ := bind_eq_ok.mp h
    have hnext := Except.ok.inj h
    subst hnext
    exact invariant_issued (persistSnapshot_eq_ok hissued) hinv
  | observation scopeVersion references payload observedAt =>
    obtain ⟨_, _, _, _, _, haccepted⟩ := record_eq_ok h
    exact invariant_accepted haccepted hinv

def Answers (payload : VerificationObservationPayload) (o : VerificationObservation) : Prop :=
  ∃ result ∈ payload.sourceResults, result.sourceId = o.sourceId ∧ o.status = result.status ∧
    o.schedulerLatencySeconds = result.schedulerLatencySeconds ∧
    o.collectionRecencySeconds = result.collectionRecencySeconds ∧
    o.publicationLatencySeconds = result.publicationLatencySeconds ∧
    o.failureCode = result.failureCode

/-- What an accepted observation records: its sources at the target as it reports them and
    at the slots passed over as missing, the use of its snapshot, and the target as cursor. -/
structure Records (store next : VerificationStore) (scopeVersion : Text)
    (payload : VerificationObservationPayload) (observedAt : Instant) : Prop where
  issued : next.issued = store.issued
  held : store.issued.snapshots.find? payload.snapshotId ≠ none
  unused : ∀ use ∈ store.uses, use.snapshotId ≠ payload.snapshotId
  used : ∀ use, use ∈ next.uses ↔ use ∈ store.uses ∨ use = ⟨payload.snapshotId, scopeVersion,
    payload.expectedSlotUtc.instant, payload.actionStartedAt.instant, observedAt⟩
  target : Reached (store.lastSlot scopeVersion) payload.expectedSlotUtc.instant
    payload.expectedSlotUtc.instant
  cursor : ∀ scope, next.lastSlot scope =
    if scope = scopeVersion then some payload.expectedSlotUtc.instant else store.lastSlot scope
  sources : rowsOf store.issued payload.snapshotId ≠ []
  slots : ∀ slot, Reached (store.lastSlot scopeVersion) payload.expectedSlotUtc.instant slot →
    ¬ Recorded store scopeVersion slot ∧
    ∀ row ∈ rowsOf store.issued payload.snapshotId, ∃ o ∈ next.observations,
      o.slot = (scopeVersion, slot, row.facts.sourceId) ∧ o.snapshotId = payload.snapshotId ∧
      if slot = payload.expectedSlotUtc.instant then Answers payload o else o.status = .missing
  rows : ∀ o, o ∈ store.observations → o ∈ next.observations
  others : ∀ o ∈ next.observations, o ∈ store.observations ∨ (o.scopeVersion = scopeVersion ∧
    Reached (store.lastSlot scopeVersion) payload.expectedSlotUtc.instant o.expectedSlotUtc ∧
    ∃ row ∈ rowsOf store.issued payload.snapshotId, row.facts.sourceId = o.sourceId)

theorem written_answers {facts : SourceVerificationFacts} {o : VerificationObservation}
    (hsame : SameResults context.payload.sourceResults context.targetResults)
    (h : Written context context.target facts o) : Answers context.payload o := by
  obtain ⟨result, hresult, rfl⟩ := h
  obtain ⟨missing, _, hresult⟩ := bind_eq_ok.mp hresult
  have htarget : context.target = context.payload.expectedSlotUtc.instant := rfl
  rw [if_neg (not_not.mpr htarget)] at hresult
  have hfound := present_eq_ok.mp hresult
  obtain ⟨hmem, hid⟩ := resultOf_eq_some hfound
  have hreported := hsame facts.sourceId
    (hid ▸ List.mem_map_of_mem (List.mem_append_right _ hmem))
  rw [hfound] at hreported
  obtain ⟨hreported, _⟩ := resultOf_eq_some hreported
  exact ⟨result, hreported, hid, rfl, rfl, rfl, rfl, rfl⟩

theorem records_accepted (h : Accepted store next context slots) (hinv : Invariant store) :
    Records store next context.scope context.payload context.observedAt where
  issued := h.issued
  held := h.bound ▸ h.held
  unused := h.unused
  used := by
    intro use
    rw [h.uses, SlotContext.use, ← h.bound]
    rfl
  target := ⟨h.aligned.1, le_rfl, h.aligned.2, fun _ => rfl⟩
  cursor := h.lastSlot
  sources := by
    obtain ⟨facts, hfacts⟩ := List.exists_mem_of_ne_nil _ h.nonempty
    obtain ⟨row, hrow, _⟩ := (h.sources facts.sourceId).mpr ⟨facts, hfacts, rfl⟩
    exact List.ne_nil_of_mem (h.bound ▸ hrow)
  slots := by
    intro slot hreached
    have hslot := (h.mem_slots slot).mpr hreached
    refine ⟨slots_fresh h (hinv.contiguous _) hslot, fun row hrow => ?_⟩
    rw [h.bound] at hrow
    obtain ⟨facts, hfacts, hid⟩ := (h.sources row.facts.sourceId).mp ⟨row, hrow, rfl⟩
    obtain ⟨o, hwritten⟩ := h.written slot hslot facts hfacts
    obtain ⟨hscope, hexpected, hsource, hsnapshot⟩ := written_fields hwritten
    refine ⟨o, (h.observations o).mpr (.inr ⟨slot, hslot, facts, hfacts, hwritten⟩), ?_,
      hsnapshot.trans h.bound.symm, ?_⟩
    · rw [VerificationObservation.slot, hscope, hexpected, hsource, hid]
    · split
      · rename_i htarget
        exact written_answers h.same (htarget ▸ hwritten)
      · rename_i hpassed
        exact (written_status h.derived hwritten).mpr hpassed
  rows := fun o ho => (h.observations o).mpr (.inl ho)
  others := by
    intro o ho
    refine ((h.observations o).mp ho).imp_right ?_
    rintro ⟨slot, hslot, facts, hfacts, hwritten⟩
    obtain ⟨hscope, hexpected, hsource, _⟩ := written_fields hwritten
    obtain ⟨row, hrow, hid⟩ := (h.sources facts.sourceId).mpr ⟨facts, hfacts, rfl⟩
    exact ⟨hscope, hexpected ▸ (h.mem_slots slot).mp hslot, row, h.bound ▸ hrow,
      hid.trans hsource.symm⟩

/-- After any requests to the verifier routes the recorded slots of every scope
    are its quarter hours up to the cursor, each source recorded once at each, the
    slots passed over as missing, each snapshot consumed at most once, and every
    row measured; an observation that is accepted is recorded, and a request that is
    refused leaves the store as it was. -/
theorem observations_onGrid (nfc : Text → Text) (requests : List Request) :
    ObservationGrid (run (handle nfc) VerificationStore.empty requests) ∧
      (∀ scopeVersion references payload observedAt next,
        handle nfc (run (handle nfc) VerificationStore.empty requests)
          (.observation scopeVersion references payload observedAt) = .ok next →
        run (handle nfc) VerificationStore.empty
          (requests ++ [.observation scopeVersion references payload observedAt]) = next ∧
        Records (run (handle nfc) VerificationStore.empty requests) next scopeVersion payload
          observedAt) ∧
      ∀ request e,
        handle nfc (run (handle nfc) VerificationStore.empty requests) request = .error e →
          run (handle nfc) VerificationStore.empty (requests ++ [request]) =
            run (handle nfc) VerificationStore.empty requests := by
  have hinv : Invariant (run (handle nfc) VerificationStore.empty requests) :=
    run_invariant (fun _ _ _ hinv h => invariant_handle hinv h) requests invariant_empty
  refine ⟨hinv.toObservationGrid, fun scopeVersion references payload observedAt next h => ?_,
    fun request e he => ?_⟩
  · rw [run_append, run_cons, run_nil]
    obtain ⟨rfl, _, _, _, _, haccepted⟩ := record_eq_ok h
    exact ⟨attempt_of_ok h, records_accepted haccepted hinv⟩
  · rw [run_append, run_cons, run_nil]
    exact attempt_of_error he

end Steps

end PredictionMarketMonitor.VerificationGrid
