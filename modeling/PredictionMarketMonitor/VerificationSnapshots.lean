import PredictionMarketMonitor.CollectionBase
import PredictionMarketMonitor.KeyedTable
import PredictionMarketMonitor.Sha1

set_option autoImplicit false

/-!
# Verifier snapshots and the results derived from them

`app/collection/verification*.py` and `app/api/routes/verification.py`: a
snapshot is issued from database facts, persisted, answered to the verifier
command, and loaded again when the observation made from it is recorded.
-/
namespace PredictionMarketMonitor.VerificationSnapshots

open CanonicalJson CivilTime CollectionBase FallibleSteps KeyedTable Sha1 Sha256

inductive Country
  | kr | us
deriving DecidableEq

def Country.value : Country → String
  | .kr => "kr"
  | .us => "us"

inductive VerificationStatus
  | passed | failed | missing
deriving DecidableEq

inductive OutcomeStatus
  | success | pending | blocked | partialResult | error | unknown
deriving DecidableEq

/-- Why a request is refused: an HTTP status, operands that do not compare, a
    value that a boundary model or a column rejects, or a row that a constraint
    rejects. -/
inductive Refusal
  | http (statusCode : ℕ)
  | snapshotIntegrity (code : String)
  | valueError (code : String)
  | typeError
  | keyError
  | validation
  | dataError
  | uniqueViolation
  | checkViolation
  | foreignKeyViolation
deriving DecidableEq

def snapshotNotFound : Refusal := .snapshotIntegrity "verification_snapshot_not_found"

def snapshotIntegrityMismatch : Refusal :=
  .snapshotIntegrity "verification_snapshot_integrity_mismatch"

def verificationInterval : ℤ := seconds (15 * 60)
def maxFreshnessSeconds : ℤ := 3 * 60 * 60

/-- `int(delta.total_seconds())`; the division is exact below `2 ^ 53` microseconds. -/
def wholeSeconds (delta : ℤ) : ℤ := Int.tdiv delta 1000000

/-- The values of a `String(80)` column. -/
def FitsScope (scopeVersion : Text) : Prop :=
  scopeVersion.length ≤ 80 ∧ FitsText scopeVersion

instance (scopeVersion : Text) : Decidable (FitsScope scopeVersion) :=
  inferInstanceAs (Decidable (_ ∧ _))

/-- One row of `source_facts_statement`. -/
structure SourceColumns where
  sourceId : UUID
  country : Country
  enabled : Bool
  latestSuccessfulRunId : Option UUID
  latestSuccessfulRunFinishedAt : Option Instant
  visiblePublicationManifestId : Option UUID
  visiblePublicationSequence : Option ℤ
deriving DecidableEq

structure VerificationSourceFactsRow extends SourceColumns where
  publicationFirstVisibleAt : Option Instant
deriving DecidableEq

structure SnapshotEvidence where
  scopeVersion : Text
  publishedAt : Instant
  sources : List VerificationSourceFactsRow
deriving DecidableEq

structure SnapshotEnvelope where
  snapshotId : UUID
  checksum : Digest
  canonicalPayload : Bytes
  evidence : SnapshotEvidence
deriving DecidableEq

def VerificationSourceFactsRow.json (row : VerificationSourceFactsRow) : Json :=
  .object [
    ("source_id", UUID.json row.sourceId),
    ("country", .ofString row.country.value),
    ("enabled", .bool row.enabled),
    ("latest_successful_run_id", .ofOption UUID.json row.latestSuccessfulRunId),
    ("latest_successful_run_finished_at",
      .ofOption instantJson row.latestSuccessfulRunFinishedAt),
    ("visible_publication_manifest_id", .ofOption UUID.json row.visiblePublicationManifestId),
    ("visible_publication_sequence", .ofOption Json.int row.visiblePublicationSequence),
    ("publication_first_visible_at", .ofOption instantJson row.publicationFirstVisibleAt)]

def SnapshotEvidence.json (evidence : SnapshotEvidence) : Json :=
  .object [
    ("scope_version", .str evidence.scopeVersion),
    ("published_at", instantJson evidence.publishedAt),
    ("sources", .list (evidence.sources.map VerificationSourceFactsRow.json))]

def snapshotId (scopeVersion : Text) (checksum : Digest) : UUID :=
  uuid5 namespaceUrl ("verification:".toList ++ scopeVersion ++ ':' :: Digest.hexdigest checksum)

example : uuid5 namespaceUrl "verification:scope-v1:0".toList =
    BitVec.ofNat 128 0xf54a717203985c16b5572280af246ad4 := by
  decide +kernel

def SourceLE (a b : VerificationSourceFactsRow) : Prop := UUID.HexLE a.sourceId b.sourceId

instance : DecidableRel SourceLE := fun a b =>
  inferInstanceAs (Decidable (UUID.HexLE a.sourceId b.sourceId))

instance : IsTrans VerificationSourceFactsRow SourceLE := ⟨fun _ _ _ h k => Nat.le_trans h k⟩

instance : Std.Total SourceLE := ⟨fun a b => Nat.le_total a.sourceId.toNat b.sourceId.toNat⟩

def canonicalSnapshot (nfc : Text → Text) (scopeVersion : Text) (publishedAt : Instant)
    (facts : List VerificationSourceFactsRow) : SnapshotEnvelope :=
  let evidence : SnapshotEvidence := ⟨scopeVersion, publishedAt, facts.insertionSort SourceLE⟩
  let payload := canonicalBytes nfc evidence.json
  ⟨snapshotId scopeVersion (sha256 payload), sha256 payload, payload, evidence⟩

structure VerificationSnapshotRecord where
  id : UUID
  scopeVersion : Text
  publishedAt : Instant
  snapshotChecksum : Digest
  canonicalPayload : Bytes
deriving DecidableEq

structure VerificationSnapshotSource where
  snapshotId : UUID
  facts : VerificationSourceFactsRow
deriving DecidableEq

namespace VerificationSnapshotSource

/-- The key of `uq_verification_snapshot_source`. -/
def slot (row : VerificationSnapshotSource) : UUID × UUID := (row.snapshotId, row.facts.sourceId)

/-- `verification_snapshot_run_all_or_nothing`. -/
def RunAllOrNothing (row : VerificationSnapshotSource) : Prop :=
  row.facts.latestSuccessfulRunId.isSome = row.facts.latestSuccessfulRunFinishedAt.isSome

/-- `verification_snapshot_manifest_all_or_nothing`. -/
def ManifestAllOrNothing (row : VerificationSnapshotSource) : Prop :=
  (row.facts.visiblePublicationManifestId = none ∧ row.facts.visiblePublicationSequence = none ∧
      row.facts.publicationFirstVisibleAt = none) ∨
    (row.facts.visiblePublicationManifestId.isSome ∧
      (∃ n ∈ row.facts.visiblePublicationSequence, 0 < n) ∧
      row.facts.publicationFirstVisibleAt.isSome)

/-- `verification_snapshot_visibility_after_run`, which an absent operand satisfies. -/
def VisibilityAfterRun (row : VerificationSnapshotSource) : Prop :=
  ∀ visible ∈ row.facts.publicationFirstVisibleAt,
    ∀ finished ∈ row.facts.latestSuccessfulRunFinishedAt, finished ≤ visible

def Checked (row : VerificationSnapshotSource) : Prop :=
  row.RunAllOrNothing ∧ row.ManifestAllOrNothing ∧ row.VisibilityAfterRun

instance (row : VerificationSnapshotSource) : Decidable row.Checked := by
  unfold Checked RunAllOrNothing ManifestAllOrNothing VisibilityAfterRun
  infer_instance

end VerificationSnapshotSource

structure SnapshotStore where
  snapshots : Table VerificationSnapshotRecord.id
  sources : Table VerificationSnapshotSource.slot

def SnapshotStore.empty : SnapshotStore := ⟨.empty, .empty⟩

def SnapshotEnvelope.header (envelope : SnapshotEnvelope) : VerificationSnapshotRecord where
  id := envelope.snapshotId
  scopeVersion := envelope.evidence.scopeVersion
  publishedAt := envelope.evidence.publishedAt
  snapshotChecksum := envelope.checksum
  canonicalPayload := envelope.canonicalPayload

theorem header_id (envelope : SnapshotEnvelope) : envelope.header.id = envelope.snapshotId := rfl

def addSource (sources : Table VerificationSnapshotSource.slot)
    (row : VerificationSnapshotSource) : Except Refusal (Table VerificationSnapshotSource.slot) := do
  require (∀ n ∈ row.facts.visiblePublicationSequence, FitsInteger n) .dataError
  require row.Checked .checkViolation
  present (sources.insert? row) .uniqueViolation

def persistSnapshot (store : SnapshotStore) (envelope : SnapshotEnvelope) :
    Except Refusal SnapshotStore := do
  require (FitsScope envelope.evidence.scopeVersion) .dataError
  require (envelope.canonicalPayload ≠ []) .checkViolation
  -- `uq_verification_snapshot_hash`
  require (∀ row ∈ store.snapshots.rows, row.snapshotChecksum ≠ envelope.checksum) .uniqueViolation
  let snapshots ← present (store.snapshots.insert? envelope.header) .uniqueViolation
  let sources ← (envelope.evidence.sources.map (VerificationSnapshotSource.mk envelope.snapshotId))
    |>.foldlM addSource store.sources
  return ⟨snapshots, sources⟩

def SnapshotStore.factsOf (store : SnapshotStore) (id : UUID) : List VerificationSourceFactsRow :=
  ((store.sources.rows.filter (fun row => row.snapshotId = id)).map
    VerificationSnapshotSource.facts).insertionSort SourceLE

def verifiedSnapshot (nfc : Text → Text) (record : VerificationSnapshotRecord)
    (facts : List VerificationSourceFactsRow) : Except Refusal SnapshotEnvelope := do
  let envelope := canonicalSnapshot nfc record.scopeVersion record.publishedAt facts
  require (¬ (envelope.snapshotId ≠ record.id ∨ envelope.checksum ≠ record.snapshotChecksum ∨
    envelope.canonicalPayload ≠ record.canonicalPayload)) snapshotIntegrityMismatch
  return envelope

def loadSnapshot (nfc : Text → Text) (store : SnapshotStore) (id : UUID) (scopeVersion : Text)
    (checksum : Digest) : Except Refusal SnapshotEnvelope := do
  let record ← present (store.snapshots.rows.find? (fun row => row.id = id ∧
    row.scopeVersion = scopeVersion ∧ row.snapshotChecksum = checksum)) snapshotNotFound
  verifiedSnapshot nfc record (store.factsOf record.id)

structure PublicationVisibilityKey where
  sourceId : UUID
  sequence : ℤ
  runFinishedAt : Instant
  scopeVersion : Text
deriving DecidableEq

def visibilityKey (item : SourceColumns) (scopeVersion : Text) : Option PublicationVisibilityKey :=
  match item.visiblePublicationSequence, item.latestSuccessfulRunFinishedAt with
  | some sequence, some finishedAt => some ⟨item.sourceId, sequence, finishedAt, scopeVersion⟩
  | _, _ => none

def PublicationVisibilityKey.ExposedBy (key : PublicationVisibilityKey)
    (row : VerificationSnapshotSource) : Prop :=
  row.facts.sourceId = key.sourceId ∧
    ∃ sequence ∈ row.facts.visiblePublicationSequence, key.sequence ≤ sequence

instance (key : PublicationVisibilityKey) (row : VerificationSnapshotSource) :
    Decidable (key.ExposedBy row) :=
  inferInstanceAs (Decidable (_ ∧ ∃ _ ∈ _, _))

def Exposes (sources : List VerificationSnapshotSource) (key : PublicationVisibilityKey)
    (record : VerificationSnapshotRecord) : Prop :=
  record.scopeVersion = key.scopeVersion ∧ key.runFinishedAt ≤ record.publishedAt ∧
    ∃ row ∈ sources, row.snapshotId = record.id ∧ key.ExposedBy row

instance (sources : List VerificationSnapshotSource) (key : PublicationVisibilityKey)
    (record : VerificationSnapshotRecord) : Decidable (Exposes sources key record) :=
  inferInstanceAs (Decidable (_ ∧ _ ∧ _))

/-- `first_visibility_statement` over the snapshots that the transaction sees. -/
def firstVisibility (sources : List VerificationSnapshotSource)
    (snapshots : List VerificationSnapshotRecord) (key : PublicationVisibilityKey) :
    Option Instant :=
  ((snapshots.filter (fun record => Exposes sources key record)).map
    VerificationSnapshotRecord.publishedAt).min?

/-- `seen` tells which snapshots the repeatable read of this transaction contains. -/
def sourceFacts (store : SnapshotStore) (seen : UUID → Bool) (scopeVersion : Text)
    (publishedAt : Instant) (rows : List SourceColumns) : List VerificationSourceFactsRow :=
  rows.map fun item =>
    ⟨item, (visibilityKey item scopeVersion).map fun key =>
      (firstVisibility store.sources.rows
        (store.snapshots.rows.filter (fun record => seen record.id)) key).getD publishedAt⟩

structure SourceVerificationFacts where
  sourceId : UUID
  enabled : Bool
  snapshotPublishedAt : Instant
  latestSuccessfulRunId : Option UUID
  latestSuccessfulRunFinishedAt : Option Instant
  visiblePublicationManifestId : Option UUID
  visiblePublicationSequence : Option ℤ
  publicationFirstVisibleAt : Option Instant
deriving DecidableEq

def observationFact (store : SnapshotStore) (evidence : SnapshotEvidence)
    (item : VerificationSourceFactsRow) : Except Refusal SourceVerificationFacts := do
  let firstVisible := (visibilityKey item.toSourceColumns evidence.scopeVersion).bind
    (firstVisibility store.sources.rows store.snapshots.rows)
  require (firstVisible = item.publicationFirstVisibleAt) snapshotIntegrityMismatch
  return {
    sourceId := item.sourceId
    enabled := item.enabled
    snapshotPublishedAt := evidence.publishedAt
    latestSuccessfulRunId := item.latestSuccessfulRunId
    latestSuccessfulRunFinishedAt := item.latestSuccessfulRunFinishedAt
    visiblePublicationManifestId := item.visiblePublicationManifestId
    visiblePublicationSequence := item.visiblePublicationSequence
    publicationFirstVisibleAt := firstVisible }

def observationFacts (store : SnapshotStore) (envelope : SnapshotEnvelope) :
    Except Refusal (List SourceVerificationFacts) :=
  envelope.evidence.sources.mapM (observationFact store envelope.evidence)

structure SourceMeasurements where
  sourceId : UUID
  schedulerLatencySeconds : ℤ
  collectionRecencySeconds : Option ℤ
  publicationLatencySeconds : Option ℤ
  status : VerificationStatus
  failureCode : Option Text
deriving DecidableEq

namespace SourceMeasurements

/-- The field bounds of `VerificationSourceResult`. -/
def FieldsBounded (m : SourceMeasurements) : Prop :=
  0 ≤ m.schedulerLatencySeconds ∧ (∀ c ∈ m.collectionRecencySeconds, 0 ≤ c) ∧
    (∀ p ∈ m.publicationLatencySeconds, 0 ≤ p) ∧ ∀ code ∈ m.failureCode, code.length ≤ 120

def StatusEvidence (m : SourceMeasurements) : Prop :=
  match m.status with
  | .passed => (∃ c ∈ m.collectionRecencySeconds, c ≤ maxFreshnessSeconds) ∧
      (∃ p ∈ m.publicationLatencySeconds, p ≤ maxFreshnessSeconds) ∧ m.failureCode = none
  | .failed | .missing => m.failureCode.isSome

def Valid (m : SourceMeasurements) : Prop := m.FieldsBounded ∧ m.StatusEvidence

instance (m : SourceMeasurements) : Decidable m.Valid := by
  unfold Valid FieldsBounded StatusEvidence
  cases m.status <;> infer_instance

end SourceMeasurements

/-- Measurements that the model of the route accepted. -/
structure VerificationSourceResult extends SourceMeasurements where
  valid : toSourceMeasurements.Valid
deriving DecidableEq

def sourceResult (m : SourceMeasurements) : Except Refusal VerificationSourceResult :=
  if h : m.Valid then .ok ⟨m, h⟩ else .error .validation

def failedMeasurements (sourceId : UUID) (scheduler : ℤ) (collection publication : Option ℤ)
    (code : String) : SourceMeasurements :=
  ⟨sourceId, scheduler, collection, publication, .failed, some code.toList⟩

/-- `_require_aware_utc`. -/
def requireAwareUtc (value : Datetime) : Except Refusal Unit :=
  require (value.utcoffset = some 0) (.valueError "verification_timestamp_not_utc")

/-- The measurements of a source whose run finished at `finishedAt`. -/
def finishedMeasurements (facts : SourceVerificationFacts) (scheduler : ℤ) (finishedAt : Instant) :
    SourceMeasurements :=
  let failed := failedMeasurements facts.sourceId scheduler
  let collection := wholeSeconds (facts.snapshotPublishedAt - finishedAt)
  if collection < 0 then failed none none "collection_clock_invalid"
  else if collection > maxFreshnessSeconds then failed (some collection) none "collection_stale"
  else
    match facts.visiblePublicationManifestId, facts.visiblePublicationSequence,
      facts.publicationFirstVisibleAt with
    | some _, some _, some visibleAt =>
      let publication := wholeSeconds (visibleAt - finishedAt)
      if publication < 0 then failed (some collection) none "publication_clock_invalid"
      else if publication > maxFreshnessSeconds then
        failed (some collection) (some publication) "publication_stale"
      else ⟨facts.sourceId, scheduler, some collection, some publication, .passed, none⟩
    | _, _, _ => failed (some collection) none "publication_missing"

def measurements (facts : SourceVerificationFacts) (scheduler : ℤ) : SourceMeasurements :=
  if facts.enabled = false then
    failedMeasurements facts.sourceId scheduler none none "source_disabled"
  else
    match facts.latestSuccessfulRunId, facts.latestSuccessfulRunFinishedAt with
    | some _, some finishedAt => finishedMeasurements facts scheduler finishedAt
    | _, _ => failedMeasurements facts.sourceId scheduler none none "no_successful_run"

def deriveSourceResult (facts : SourceVerificationFacts) (expectedSlot actionStartedAt : Datetime) :
    Except Refusal VerificationSourceResult := do
  requireAwareUtc expectedSlot
  requireAwareUtc actionStartedAt
  let scheduler := wholeSeconds (actionStartedAt.instant - expectedSlot.instant)
  require (0 ≤ scheduler) (.valueError "action_started_before_expected_slot")
  sourceResult (measurements facts scheduler)

structure VerificationSourceSnapshot where
  sourceId : UUID
  country : Country
  enabled : Bool
  status : OutcomeStatus
  latestSuccessfulRunId : Option UUID
  latestSuccessfulRunFinishedAt : Option Instant
  collectionRecencySeconds : Option ℤ
  visiblePublicationManifestId : Option UUID
  visiblePublicationSequence : Option ℤ
  publicationFirstVisibleAt : Option Instant
deriving DecidableEq

structure VerificationSnapshot where
  snapshotId : UUID
  scopeVersion : Text
  publishedAt : Instant
  checksum : Digest
  sources : List VerificationSourceSnapshot
deriving DecidableEq

def outcome (item : VerificationSourceFactsRow) : OutcomeStatus :=
  if item.enabled = false then .blocked
  else if item.latestSuccessfulRunId = none then .error
  else if item.visiblePublicationManifestId = none then .partialResult
  else .success

def recency (item : VerificationSourceFactsRow) (now : Instant) : Option ℤ :=
  (item.latestSuccessfulRunFinishedAt.map fun finishedAt => wholeSeconds (now - finishedAt)).filter
    fun n => 0 ≤ n

def sourceSnapshot (item : VerificationSourceFactsRow) (now : Instant) :
    Except Refusal VerificationSourceSnapshot := do
  require (∀ n ∈ item.visiblePublicationSequence, 1 ≤ n) .validation
  return {
    sourceId := item.sourceId
    country := item.country
    enabled := item.enabled
    status := outcome item
    latestSuccessfulRunId := item.latestSuccessfulRunId
    latestSuccessfulRunFinishedAt := item.latestSuccessfulRunFinishedAt
    collectionRecencySeconds := recency item now
    visiblePublicationManifestId := item.visiblePublicationManifestId
    visiblePublicationSequence := item.visiblePublicationSequence
    publicationFirstVisibleAt := item.publicationFirstVisibleAt }

def ScopeNamed (scopeVersion : Text) : Prop := 1 ≤ scopeVersion.length ∧ scopeVersion.length ≤ 80

instance (scopeVersion : Text) : Decidable (ScopeNamed scopeVersion) :=
  inferInstanceAs (Decidable (_ ∧ _))

def snapshotResponse (envelope : SnapshotEnvelope) : Except Refusal VerificationSnapshot := do
  let sources ← envelope.evidence.sources.mapM (sourceSnapshot · envelope.evidence.publishedAt)
  require (ScopeNamed envelope.evidence.scopeVersion) .validation
  return {
    snapshotId := envelope.snapshotId
    scopeVersion := envelope.evidence.scopeVersion
    publishedAt := envelope.evidence.publishedAt
    checksum := envelope.checksum
    sources := sources }

/-- A payload as the route receives it: at most twenty results, of distinct sources. -/
structure VerificationObservationPayload where
  scopeVersion : Text
  expectedSlotUtc : Datetime
  actionStartedAt : Datetime
  snapshotId : UUID
  snapshotChecksum : Digest
  sourceResults : List VerificationSourceResult
  named : ScopeNamed scopeVersion
  counted : 1 ≤ sourceResults.length ∧ sourceResults.length ≤ 20
  distinct : (sourceResults.map (fun r => r.sourceId)).Nodup

def clientFacts (snapshot : VerificationSnapshot) (source : VerificationSourceSnapshot) :
    SourceVerificationFacts where
  sourceId := source.sourceId
  enabled := source.enabled
  snapshotPublishedAt := snapshot.publishedAt
  latestSuccessfulRunId := source.latestSuccessfulRunId
  latestSuccessfulRunFinishedAt := source.latestSuccessfulRunFinishedAt
  visiblePublicationManifestId := source.visiblePublicationManifestId
  visiblePublicationSequence := source.visiblePublicationSequence
  publicationFirstVisibleAt := source.publicationFirstVisibleAt

def observationResults (snapshot : VerificationSnapshot) (slot startedAt : Datetime) :
    Except Refusal (List VerificationSourceResult) :=
  snapshot.sources.mapM fun source =>
    deriveSourceResult (clientFacts snapshot source) slot startedAt

/-- `observation`, the body that the verifier command posts. -/
def observation (snapshot : VerificationSnapshot) (scope : Text) (slot startedAt : Datetime) :
    Except Refusal VerificationObservationPayload := do
  let results ← observationResults snapshot slot startedAt
  if h : ScopeNamed scope ∧ (1 ≤ results.length ∧ results.length ≤ 20) ∧
      (results.map (fun r => r.sourceId)).Nodup then
    return ⟨scope, slot, startedAt, snapshot.snapshotId, snapshot.checksum, results,
      h.1, h.2.1, h.2.2⟩
  else .error .validation

def comparable (a b : Datetime) : Except Refusal Unit := require (a.Aware ↔ b.Aware) .typeError

def resultOf (results : List VerificationSourceResult) (sourceId : UUID) :
    Option VerificationSourceResult :=
  results.reverse.find? (fun r => r.sourceId = sourceId)

def SameResults (supplied derived : List VerificationSourceResult) : Prop :=
  ∀ sourceId ∈ (supplied ++ derived).map (fun r => r.sourceId),
    resultOf supplied sourceId = resultOf derived sourceId

instance (supplied derived : List VerificationSourceResult) :
    Decidable (SameResults supplied derived) :=
  inferInstanceAs (Decidable (∀ _ ∈ List.map _ _, _))

/-- The identity and the times of a payload, against the snapshot that it names. -/
def validateBinding (snapshot : SnapshotEnvelope) (payload : VerificationObservationPayload)
    (observedAt : Instant) : Except Refusal Unit := do
  require (¬ (payload.scopeVersion ≠ snapshot.evidence.scopeVersion ∨
    payload.snapshotId ≠ snapshot.snapshotId ∨ payload.snapshotChecksum ≠ snapshot.checksum ∨
    snapshot.evidence.publishedAt > observedAt)) (.http 409)
  comparable payload.actionStartedAt payload.expectedSlotUtc
  require (¬ payload.actionStartedAt.instant < payload.expectedSlotUtc.instant) (.http 409)
  comparable payload.actionStartedAt (.utc snapshot.evidence.publishedAt)
  require (¬ payload.actionStartedAt.instant > snapshot.evidence.publishedAt) (.http 409)

/-- `except ValueError`, of which a validation error is one. -/
def valueErrorAs {α : Type} (statusCode : ℕ) : Except Refusal α → Except Refusal α
  | .error (.valueError _) => .error (.http statusCode)
  | .error .validation => .error (.http statusCode)
  | x => x

def derivedResults (facts : List SourceVerificationFacts)
    (payload : VerificationObservationPayload) : Except Refusal (List VerificationSourceResult) :=
  valueErrorAs 409 (facts.mapM fun item =>
    deriveSourceResult item payload.expectedSlotUtc payload.actionStartedAt)

def validatedSourceResults (snapshot : SnapshotEnvelope) (facts : List SourceVerificationFacts)
    (payload : VerificationObservationPayload) (observedAt : Instant) :
    Except Refusal (List VerificationSourceResult) := do
  validateBinding snapshot payload observedAt
  let expected ← derivedResults facts payload
  require (SameResults payload.sourceResults expected) (.http 409)
  return expected

/-- One call of the snapshot route: what its transaction sees, its clock, and the
    rows that the source query answers. -/
structure Issue where
  scopeVersion : Text
  seen : UUID → Bool
  publishedAt : Instant
  rows : List SourceColumns

section Issues
variable (nfc : Text → Text)

def Issue.envelope (issue : Issue) (store : SnapshotStore) : SnapshotEnvelope :=
  canonicalSnapshot nfc issue.scopeVersion issue.publishedAt
    (sourceFacts store issue.seen issue.scopeVersion issue.publishedAt issue.rows)

def issueSnapshot (store : SnapshotStore) (issue : Issue) : Except Refusal SnapshotStore :=
  persistSnapshot store (issue.envelope nfc store)

end Issues

section Persistence

theorem addSource_eq_ok {sources added : Table VerificationSnapshotSource.slot}
    {row : VerificationSnapshotSource} (h : addSource sources row = .ok added) :
    row.Checked ∧ added.rows = sources.rows ++ [row] := by
  rw [addSource, require_bind, require_bind] at h
  obtain ⟨_, hchecked, hinsert⟩ := h
  have hrows := (Table.insert?_eq_some.mp (present_eq_ok.mp hinsert)).2
  exact ⟨hchecked, hrows⟩

theorem addSources_eq_ok {rows : List VerificationSnapshotSource}
    {sources added : Table VerificationSnapshotSource.slot}
    (h : rows.foldlM addSource sources = .ok added) :
    (∀ row ∈ rows, row.Checked) ∧ added.rows = sources.rows ++ rows := by
  induction rows generalizing sources with
  | nil =>
    have hsame : sources = added := Except.ok.inj h
    rw [hsame, List.append_nil]
    exact ⟨fun row hrow => absurd hrow List.not_mem_nil, rfl⟩
  | cons row rows ih =>
    rw [List.foldlM_cons, bind_eq_ok] at h
    obtain ⟨next, hnext, h⟩ := h
    have hrow := addSource_eq_ok hnext
    have hrest := ih h
    refine ⟨fun other hother => ?_, ?_⟩
    · rcases List.mem_cons.mp hother with rfl | hother
      · exact hrow.1
      · exact hrest.1 other hother
    · rw [hrest.2, hrow.2, List.append_assoc, List.singleton_append]

structure Persisted (store : SnapshotStore) (envelope : SnapshotEnvelope) (next : SnapshotStore) :
    Prop where
  fresh : store.snapshots.find? envelope.snapshotId = none
  snapshots : next.snapshots.rows = store.snapshots.rows ++ [envelope.header]
  sources : next.sources.rows = store.sources.rows ++
    envelope.evidence.sources.map (VerificationSnapshotSource.mk envelope.snapshotId)
  checked : ∀ item ∈ envelope.evidence.sources,
    (VerificationSnapshotSource.mk envelope.snapshotId item).Checked

theorem persistSnapshot_eq_ok {store next : SnapshotStore} {envelope : SnapshotEnvelope}
    (h : persistSnapshot store envelope = .ok next) : Persisted store envelope next := by
  rw [persistSnapshot, require_bind, require_bind, require_bind] at h
  obtain ⟨_, _, _, h⟩ := h
  obtain ⟨snapshots, hinsert, h⟩ := bind_eq_ok.mp h
  obtain ⟨sources, hadd, h⟩ := bind_eq_ok.mp h
  rw [present_eq_ok] at hinsert
  have hnext : SnapshotStore.mk snapshots sources = next := Except.ok.inj h
  subst hnext
  have hheader := Table.insert?_eq_some.mp hinsert
  have hrows := addSources_eq_ok hadd
  exact ⟨hheader.1, hheader.2, hrows.2, fun item hitem => hrows.1 _ (List.mem_map_of_mem hitem)⟩

def Headed (store : SnapshotStore) : Prop :=
  ∀ row ∈ store.sources.rows, ∃ record ∈ store.snapshots.rows, record.id = row.snapshotId

theorem headed_empty : Headed SnapshotStore.empty :=
  fun _ hrow => absurd hrow List.not_mem_nil

theorem headed_persisted {store next : SnapshotStore} {envelope : SnapshotEnvelope}
    (h : Persisted store envelope next) (hheaded : Headed store) : Headed next := by
  intro row hrow
  rw [h.sources, List.mem_append, List.mem_map] at hrow
  rw [h.snapshots]
  rcases hrow with hold | ⟨item, hitem, rfl⟩
  · obtain ⟨record, hrecord, hid⟩ := hheaded row hold
    exact ⟨record, List.mem_append_left _ hrecord, hid⟩
  · exact ⟨envelope.header, List.mem_append_right _ (List.mem_singleton_self _), rfl⟩

variable {nfc : Text → Text}

theorem headed_run (issues : List Issue) :
    Headed (run (issueSnapshot nfc) SnapshotStore.empty issues) :=
  run_invariant (fun _ _ _ hheaded h => headed_persisted (persistSnapshot_eq_ok h) hheaded) issues
    headed_empty

def rowsOf (store : SnapshotStore) (id : UUID) : List VerificationSnapshotSource :=
  store.sources.rows.filter (fun row => row.snapshotId = id)

theorem factsOf_eq (store : SnapshotStore) (id : UUID) : store.factsOf id =
    ((rowsOf store id).map VerificationSnapshotSource.facts).insertionSort SourceLE := rfl

theorem rowsOf_new {store next : SnapshotStore} {envelope : SnapshotEnvelope}
    (h : Persisted store envelope next) (hheaded : Headed store) :
    rowsOf next envelope.snapshotId =
      envelope.evidence.sources.map (VerificationSnapshotSource.mk envelope.snapshotId) := by
  have hold : store.sources.rows.filter (fun row => row.snapshotId = envelope.snapshotId) = [] := by
    refine List.filter_eq_nil_iff.mpr fun row hrow => ?_
    obtain ⟨record, hrecord, hid⟩ := hheaded row hrow
    have hne := Table.find?_eq_none.mp h.fresh record hrecord
    rw [hid] at hne
    simpa using hne
  have hall : (envelope.evidence.sources.map
      (VerificationSnapshotSource.mk envelope.snapshotId)).filter
        (fun row => row.snapshotId = envelope.snapshotId) =
      envelope.evidence.sources.map (VerificationSnapshotSource.mk envelope.snapshotId) := by
    refine List.filter_eq_self.mpr fun row hrow => ?_
    obtain ⟨item, _, rfl⟩ := List.mem_map.mp hrow
    simp
  rw [rowsOf, h.sources, List.filter_append, hold, hall, List.nil_append]

theorem rowsOf_old {store next : SnapshotStore} {envelope : SnapshotEnvelope} {id : UUID}
    (h : Persisted store envelope next) (hid : store.snapshots.find? id ≠ none) :
    rowsOf next id = rowsOf store id := by
  have hne : envelope.snapshotId ≠ id := by
    intro heq
    have hfresh := h.fresh
    rw [heq] at hfresh
    exact hid hfresh
  have hnone : (envelope.evidence.sources.map
      (VerificationSnapshotSource.mk envelope.snapshotId)).filter
        (fun row => row.snapshotId = id) = [] := by
    refine List.filter_eq_nil_iff.mpr fun row hrow => ?_
    obtain ⟨item, _, rfl⟩ := List.mem_map.mp hrow
    simpa using hne
  rw [rowsOf, h.sources, List.filter_append, hnone, List.append_nil, rowsOf]

structure Holds (store : SnapshotStore) (envelope : SnapshotEnvelope) : Prop where
  header : envelope.header ∈ store.snapshots
  rows : rowsOf store envelope.snapshotId =
    envelope.evidence.sources.map (VerificationSnapshotSource.mk envelope.snapshotId)

theorem holds_new {store next : SnapshotStore} {envelope : SnapshotEnvelope}
    (h : Persisted store envelope next) (hheaded : Headed store) : Holds next envelope := by
  refine ⟨?_, rowsOf_new h hheaded⟩
  rw [Table.mem_def, h.snapshots]
  exact List.mem_append_right _ (List.mem_singleton_self _)

theorem holds_persisted {store next : SnapshotStore} {envelope other : SnapshotEnvelope}
    (h : Persisted store other next) (hholds : Holds store envelope) : Holds next envelope := by
  have hfound : store.snapshots.find? envelope.snapshotId ≠ none := by
    rw [show envelope.snapshotId = envelope.header.id from rfl, Table.find?_of_mem hholds.header]
    exact Option.some_ne_none _
  refine ⟨?_, by rw [rowsOf_old h hfound, hholds.rows]⟩
  rw [Table.mem_def, h.snapshots]
  exact List.mem_append_left _ hholds.header

theorem holds_run {store : SnapshotStore} {envelope : SnapshotEnvelope} (issues : List Issue)
    (hholds : Holds store envelope) : Holds (run (issueSnapshot nfc) store issues) envelope :=
  run_invariant (fun _ _ _ hholds h => holds_persisted (persistSnapshot_eq_ok h) hholds) issues
    hholds

def Canonical (nfc : Text → Text) (envelope : SnapshotEnvelope) : Prop :=
  ∀ facts, facts.insertionSort SourceLE = envelope.evidence.sources →
    canonicalSnapshot nfc envelope.evidence.scopeVersion envelope.evidence.publishedAt facts =
      envelope

theorem canonicalSnapshot_canonical (scopeVersion : Text) (publishedAt : Instant)
    (facts : List VerificationSourceFactsRow) :
    Canonical nfc (canonicalSnapshot nfc scopeVersion publishedAt facts) := by
  intro others hothers
  have hsame : others.insertionSort SourceLE = facts.insertionSort SourceLE := hothers
  simp only [canonicalSnapshot, hsame]

theorem canonicalSnapshot_sorted (scopeVersion : Text) (publishedAt : Instant)
    (facts : List VerificationSourceFactsRow) :
    (canonicalSnapshot nfc scopeVersion publishedAt facts).evidence.sources.Pairwise SourceLE :=
  List.pairwise_insertionSort SourceLE facts

theorem verifiedSnapshot_canonical {envelope : SnapshotEnvelope} (hcanonical : Canonical nfc envelope)
    (hsorted : envelope.evidence.sources.Pairwise SourceLE) :
    verifiedSnapshot nfc envelope.header envelope.evidence.sources = .ok envelope := by
  have hsame := hcanonical _ hsorted.insertionSort_eq
  have hrebuilt : canonicalSnapshot nfc envelope.header.scopeVersion envelope.header.publishedAt
      envelope.evidence.sources = envelope := hsame
  have hmatch : ¬ (envelope.snapshotId ≠ envelope.header.id ∨
      envelope.checksum ≠ envelope.header.snapshotChecksum ∨
      envelope.canonicalPayload ≠ envelope.header.canonicalPayload) := by
    rintro (h | h | h) <;> exact h rfl
  simp only [verifiedSnapshot, hrebuilt]
  rw [require_of hmatch]
  rfl

theorem find_header {store : SnapshotStore} {envelope : SnapshotEnvelope}
    (h : envelope.header ∈ store.snapshots) :
    store.snapshots.rows.find? (fun row => row.id = envelope.snapshotId ∧
      row.scopeVersion = envelope.evidence.scopeVersion ∧
      row.snapshotChecksum = envelope.checksum) = some envelope.header := by
  cases hfind : store.snapshots.rows.find? (fun row => row.id = envelope.snapshotId ∧
      row.scopeVersion = envelope.evidence.scopeVersion ∧
      row.snapshotChecksum = envelope.checksum) with
  | none =>
    have hno := List.find?_eq_none.mp hfind envelope.header h
    have hyes : envelope.header.id = envelope.snapshotId ∧
        envelope.header.scopeVersion = envelope.evidence.scopeVersion ∧
        envelope.header.snapshotChecksum = envelope.checksum := ⟨rfl, rfl, rfl⟩
    exact absurd (decide_eq_true hyes) hno
  | some record =>
    have hid : record.id = envelope.snapshotId ∧
        record.scopeVersion = envelope.evidence.scopeVersion ∧
        record.snapshotChecksum = envelope.checksum := by
      simpa using List.find?_some hfind
    have hmem : record ∈ store.snapshots := List.mem_of_find?_eq_some hfind
    rw [Table.eq_of_key hmem h hid.1]

theorem factsOf_holds {store : SnapshotStore} {envelope : SnapshotEnvelope}
    (h : Holds store envelope) (hsorted : envelope.evidence.sources.Pairwise SourceLE) :
    store.factsOf envelope.snapshotId = envelope.evidence.sources := by
  have hmap : (envelope.evidence.sources.map
      (VerificationSnapshotSource.mk envelope.snapshotId)).map
        VerificationSnapshotSource.facts = envelope.evidence.sources := by
    rw [List.map_map]
    exact List.map_id _
  rw [factsOf_eq, h.rows, hmap, hsorted.insertionSort_eq]

theorem loadSnapshot_holds {store : SnapshotStore} {envelope : SnapshotEnvelope}
    (h : Holds store envelope) (hcanonical : Canonical nfc envelope)
    (hsorted : envelope.evidence.sources.Pairwise SourceLE) :
    loadSnapshot nfc store envelope.snapshotId envelope.evidence.scopeVersion envelope.checksum =
      .ok envelope := by
  rw [loadSnapshot, find_header h.header, present, ok_bind, header_id, factsOf_holds h hsorted]
  exact verifiedSnapshot_canonical hcanonical hsorted

end Persistence

section FirstVisibility

theorem firstVisibility_eq_some {sources : List VerificationSnapshotSource}
    {snapshots : List VerificationSnapshotRecord} {key : PublicationVisibilityKey} {t : Instant} :
    firstVisibility sources snapshots key = some t ↔
      (∃ record ∈ snapshots, Exposes sources key record ∧ record.publishedAt = t) ∧
        ∀ record ∈ snapshots, Exposes sources key record → t ≤ record.publishedAt := by
  rw [firstVisibility, List.min?_eq_some_iff]
  constructor
  · rintro ⟨hmem, hle⟩
    obtain ⟨record, hrecord, ht⟩ := List.mem_map.mp hmem
    have hfilter := List.mem_filter.mp hrecord
    refine ⟨⟨record, hfilter.1, of_decide_eq_true hfilter.2, ht⟩, fun other hother hexposes => ?_⟩
    exact hle _ (List.mem_map_of_mem (List.mem_filter.mpr ⟨hother, decide_eq_true hexposes⟩))
  · rintro ⟨⟨record, hrecord, hexposes, ht⟩, hle⟩
    refine ⟨List.mem_map.mpr ⟨record, List.mem_filter.mpr ⟨hrecord, decide_eq_true hexposes⟩, ht⟩,
      fun b hb => ?_⟩
    obtain ⟨other, hother, rfl⟩ := List.mem_map.mp hb
    have hfilter := List.mem_filter.mp hother
    exact hle other hfilter.1 (of_decide_eq_true hfilter.2)

theorem firstVisibility_eq_none {sources : List VerificationSnapshotSource}
    {snapshots : List VerificationSnapshotRecord} {key : PublicationVisibilityKey} :
    firstVisibility sources snapshots key = none ↔
      ∀ record ∈ snapshots, ¬ Exposes sources key record := by
  rw [firstVisibility, List.min?_eq_none_iff, List.map_eq_nil_iff, List.filter_eq_nil_iff]
  simp only [decide_eq_true_eq]

variable {store next : SnapshotStore} {envelope : SnapshotEnvelope} {key : PublicationVisibilityKey}

theorem exposes_persisted (h : Persisted store envelope next)
    {record : VerificationSnapshotRecord} (hrecord : record ∈ store.snapshots.rows) :
    Exposes next.sources.rows key record ↔ Exposes store.sources.rows key record := by
  have hne : envelope.snapshotId ≠ record.id :=
    fun heq => Table.find?_eq_none.mp h.fresh record hrecord heq.symm
  have hrow : (∃ row ∈ next.sources.rows, row.snapshotId = record.id ∧ key.ExposedBy row) ↔
      ∃ row ∈ store.sources.rows, row.snapshotId = record.id ∧ key.ExposedBy row := by
    rw [h.sources]
    constructor
    · rintro ⟨row, hmem, hid, hexposed⟩
      rcases List.mem_append.mp hmem with hold | hnew
      · exact ⟨row, hold, hid, hexposed⟩
      · obtain ⟨item, _, rfl⟩ := List.mem_map.mp hnew
        exact absurd hid hne
    · rintro ⟨row, hmem, hid, hexposed⟩
      exact ⟨row, List.mem_append_left _ hmem, hid, hexposed⟩
  rw [Exposes, Exposes, hrow]

theorem firstVisibility_persisted (h : Persisted store envelope next) {t : Instant}
    (hlast : ∀ record ∈ store.snapshots.rows, record.publishedAt ≤ envelope.evidence.publishedAt)
    (hfirst : firstVisibility store.sources.rows store.snapshots.rows key = some t) :
    firstVisibility next.sources.rows next.snapshots.rows key = some t := by
  obtain ⟨⟨record, hrecord, hexposes, ht⟩, hle⟩ := firstVisibility_eq_some.mp hfirst
  rw [firstVisibility_eq_some, h.snapshots]
  refine ⟨⟨record, List.mem_append_left _ hrecord, (exposes_persisted h hrecord).mpr hexposes, ht⟩,
    fun other hother hother' => ?_⟩
  rcases List.mem_append.mp hother with hold | hnew
  · exact hle other hold ((exposes_persisted h hold).mp hother')
  · rw [List.mem_singleton.mp hnew, ← ht]
    exact hlast record hrecord

theorem firstVisibility_first (h : Persisted store envelope next)
    (hexposes : Exposes next.sources.rows key envelope.header)
    (hfirst : firstVisibility store.sources.rows store.snapshots.rows key = none) :
    firstVisibility next.sources.rows next.snapshots.rows key =
      some envelope.evidence.publishedAt := by
  rw [firstVisibility_eq_some, h.snapshots]
  refine ⟨⟨envelope.header, List.mem_append_right _ (List.mem_singleton_self _), hexposes, rfl⟩,
    fun other hother hother' => ?_⟩
  rcases List.mem_append.mp hother with hold | hnew
  · exact absurd ((exposes_persisted h hold).mp hother')
      (firstVisibility_eq_none.mp hfirst other hold)
  · rw [List.mem_singleton.mp hnew]
    exact le_rfl

end FirstVisibility

section Sequential
variable {nfc : Text → Text}

/-- An issue that sees every snapshot, none of which is later than its clock. -/
def Sequential (store : SnapshotStore) (issue : Issue) : Prop :=
  ∀ record ∈ store.snapshots.rows,
    issue.seen record.id = true ∧ record.publishedAt ≤ issue.publishedAt

def visibleNow (store : SnapshotStore) (scopeVersion : Text) (item : SourceColumns) :
    Option Instant :=
  (visibilityKey item scopeVersion).bind
    (firstVisibility store.sources.rows store.snapshots.rows)

def Current (store : SnapshotStore) : Prop :=
  ∀ record ∈ store.snapshots.rows, ∀ row ∈ store.sources.rows, row.snapshotId = record.id →
    visibleNow store record.scopeVersion row.facts.toSourceColumns =
        row.facts.publicationFirstVisibleAt ∧
      row.Checked

theorem visible_of_key {row : VerificationSnapshotSource} {scopeVersion : Text}
    {key : PublicationVisibilityKey} (hchecked : row.Checked)
    (hkey : visibilityKey row.facts.toSourceColumns scopeVersion = some key) :
    ∃ t, row.facts.publicationFirstVisibleAt = some t := by
  have hsequence : row.facts.visiblePublicationSequence ≠ none := by
    intro hnone
    rw [visibilityKey, hnone] at hkey
    exact absurd hkey (by simp)
  rcases hchecked.2.1 with ⟨_, hnone, _⟩ | ⟨_, _, hsome⟩
  · exact absurd hnone hsequence
  · exact Option.isSome_iff_exists.mp hsome

theorem visibilityKey_eq_some {item : SourceColumns} {scopeVersion : Text}
    {key : PublicationVisibilityKey} (h : visibilityKey item scopeVersion = some key) :
    item.visiblePublicationSequence = some key.sequence ∧
      item.latestSuccessfulRunFinishedAt = some key.runFinishedAt ∧
      key.sourceId = item.sourceId ∧ key.scopeVersion = scopeVersion := by
  rw [visibilityKey] at h
  split at h
  · rename_i sequence finishedAt hsequence hfinished
    have hkey := Option.some.inj h
    subst hkey
    exact ⟨hsequence, hfinished, rfl, rfl⟩
  · exact absurd h (by simp)

theorem visibleNow_persisted {store next : SnapshotStore} {envelope : SnapshotEnvelope}
    (h : Persisted store envelope next)
    (hlast : ∀ record ∈ store.snapshots.rows, record.publishedAt ≤ envelope.evidence.publishedAt)
    {scopeVersion : Text} {row : VerificationSnapshotSource} (hchecked : row.Checked)
    (hnow : visibleNow store scopeVersion row.facts.toSourceColumns =
      row.facts.publicationFirstVisibleAt) :
    visibleNow next scopeVersion row.facts.toSourceColumns =
      row.facts.publicationFirstVisibleAt := by
  rw [visibleNow] at hnow ⊢
  cases hkey : visibilityKey row.facts.toSourceColumns scopeVersion with
  | none =>
    rw [hkey] at hnow
    exact hnow
  | some key =>
    obtain ⟨t, ht⟩ := visible_of_key hchecked hkey
    rw [hkey, ht, Option.bind_some] at hnow
    rw [ht, Option.bind_some]
    exact firstVisibility_persisted h hlast hnow

theorem visibleNow_issued {store next : SnapshotStore} {issue : Issue}
    (hsequential : Sequential store issue) (h : Persisted store (issue.envelope nfc store) next)
    {item : VerificationSourceFactsRow} (hitem : item ∈ (issue.envelope nfc store).evidence.sources) :
    visibleNow next issue.scopeVersion item.toSourceColumns = item.publicationFirstVisibleAt := by
  have hchecked := h.checked item hitem
  have hitems : item ∈ sourceFacts store issue.seen issue.scopeVersion issue.publishedAt issue.rows :=
    (List.mem_insertionSort SourceLE).mp hitem
  obtain ⟨columns, _, hcolumns⟩ := List.mem_map.mp hitems
  have hall : store.snapshots.rows.filter (fun record => issue.seen record.id) =
      store.snapshots.rows :=
    List.filter_eq_self.mpr fun record hrecord => (hsequential record hrecord).1
  rw [hall] at hcolumns
  have hlast : ∀ record ∈ store.snapshots.rows,
      record.publishedAt ≤ (issue.envelope nfc store).evidence.publishedAt :=
    fun record hrecord => (hsequential record hrecord).2
  have hsame : item.toSourceColumns = columns := by rw [← hcolumns]
  have hvisible : item.publicationFirstVisibleAt =
      (visibilityKey item.toSourceColumns issue.scopeVersion).map fun key =>
        (firstVisibility store.sources.rows store.snapshots.rows key).getD issue.publishedAt := by
    rw [hsame, ← hcolumns]
  rw [visibleNow]
  cases hkey : visibilityKey item.toSourceColumns issue.scopeVersion with
  | none =>
    rw [hkey] at hvisible
    rw [hvisible]
    rfl
  | some key =>
    rw [hkey, Option.map_some] at hvisible
    rw [Option.bind_some, hvisible]
    cases hfirst : firstVisibility store.sources.rows store.snapshots.rows key with
    | some t => exact firstVisibility_persisted h hlast hfirst
    | none =>
      rw [hfirst, Option.getD_none] at hvisible
      have hkeys := visibilityKey_eq_some hkey
      have hfinished : key.runFinishedAt ≤ issue.publishedAt :=
        hchecked.2.2 _ hvisible _ hkeys.2.1
      have hrow : VerificationSnapshotSource.mk (issue.envelope nfc store).snapshotId item ∈
          next.sources.rows := by
        rw [h.sources]
        exact List.mem_append_right _ (List.mem_map_of_mem hitem)
      refine firstVisibility_first h ⟨hkeys.2.2.2.symm, hfinished, _, hrow, rfl,
        hkeys.2.2.1.symm, key.sequence, hkeys.1, le_rfl⟩ hfirst

theorem current_issued {store next : SnapshotStore} {issue : Issue}
    (hcurrent : Current store) (hheaded : Headed store) (hsequential : Sequential store issue)
    (h : issueSnapshot nfc store issue = .ok next) : Current next := by
  have hpersisted : Persisted store (issue.envelope nfc store) next := persistSnapshot_eq_ok h
  have hlast : ∀ record ∈ store.snapshots.rows,
      record.publishedAt ≤ (issue.envelope nfc store).evidence.publishedAt :=
    fun record hrecord => (hsequential record hrecord).2
  intro record hrecord row hrow hid
  rw [hpersisted.snapshots] at hrecord
  rw [hpersisted.sources] at hrow
  rcases List.mem_append.mp hrow with hold | hnew
  · obtain ⟨header, hheader, hheaderId⟩ := hheaded row hold
    rcases List.mem_append.mp hrecord with hrecord | hrecord
    · have hrow := hcurrent record hrecord row hold hid
      exact ⟨visibleNow_persisted hpersisted hlast hrow.2 hrow.1, hrow.2⟩
    · have hfresh := Table.find?_eq_none.mp hpersisted.fresh header hheader
      rw [hheaderId, hid, List.mem_singleton.mp hrecord] at hfresh
      exact absurd rfl hfresh
  · obtain ⟨item, hitem, rfl⟩ := List.mem_map.mp hnew
    rcases List.mem_append.mp hrecord with hrecord | hrecord
    · exact absurd hid.symm (Table.find?_eq_none.mp hpersisted.fresh record hrecord)
    · rw [List.mem_singleton.mp hrecord]
      exact ⟨visibleNow_issued hsequential hpersisted hitem, hpersisted.checked item hitem⟩

theorem current_run {issues : List Issue}
    (hsequential : Meets (issueSnapshot nfc) Sequential SnapshotStore.empty issues) :
    Current (run (issueSnapshot nfc) SnapshotStore.empty issues) := by
  have hboth : Current (run (issueSnapshot nfc) SnapshotStore.empty issues) ∧
      Headed (run (issueSnapshot nfc) SnapshotStore.empty issues) := by
    refine run_invariant_of (C := Sequential) (I := fun store => Current store ∧ Headed store)
      (fun store issue next hinv hsequential h => ?_)
      ⟨fun record hrecord => absurd hrecord List.not_mem_nil, headed_empty⟩ hsequential
    exact ⟨current_issued hinv.1 hinv.2 hsequential h,
      headed_persisted (persistSnapshot_eq_ok h) hinv.2⟩
  exact hboth.1

end Sequential

section Agreement

def factsAt (publishedAt : Instant) (item : VerificationSourceFactsRow) :
    SourceVerificationFacts where
  sourceId := item.sourceId
  enabled := item.enabled
  snapshotPublishedAt := publishedAt
  latestSuccessfulRunId := item.latestSuccessfulRunId
  latestSuccessfulRunFinishedAt := item.latestSuccessfulRunFinishedAt
  visiblePublicationManifestId := item.visiblePublicationManifestId
  visiblePublicationSequence := item.visiblePublicationSequence
  publicationFirstVisibleAt := item.publicationFirstVisibleAt

theorem observationFact_eq_ok {store : SnapshotStore} {evidence : SnapshotEvidence}
    {item : VerificationSourceFactsRow} {facts : SourceVerificationFacts} :
    observationFact store evidence item = .ok facts ↔
      visibleNow store evidence.scopeVersion item.toSourceColumns =
          item.publicationFirstVisibleAt ∧
        factsAt evidence.publishedAt item = facts := by
  rw [observationFact]
  simp only [require_bind, pure, Except.pure, Except.ok.injEq]
  constructor
  · rintro ⟨hvisible, rfl⟩
    exact ⟨hvisible, by rw [hvisible]; rfl⟩
  · rintro ⟨hvisible, rfl⟩
    have hfirst : (visibilityKey item.toSourceColumns evidence.scopeVersion).bind
        (firstVisibility store.sources.rows store.snapshots.rows) =
          item.publicationFirstVisibleAt := hvisible
    exact ⟨hfirst, by rw [hfirst]; rfl⟩

theorem observationFacts_eq_map {store : SnapshotStore} {envelope : SnapshotEnvelope}
    {facts : List SourceVerificationFacts} (h : observationFacts store envelope = .ok facts) :
    facts = envelope.evidence.sources.map (factsAt envelope.evidence.publishedAt) := by
  have hall := mapM_forall₂.mp h
  have hpointwise : List.Forall₂ (fun item fact => factsAt envelope.evidence.publishedAt item = fact)
      envelope.evidence.sources facts :=
    hall.imp fun _ _ hitem => (observationFact_eq_ok.mp hitem).2
  have hmap : List.map (factsAt envelope.evidence.publishedAt) envelope.evidence.sources = facts := by
    rw [← List.forall₂_eq_eq_eq, List.forall₂_map_left_iff]
    exact hpointwise
  exact hmap.symm

theorem observationFacts_ok {store : SnapshotStore} {envelope : SnapshotEnvelope}
    (h : ∀ item ∈ envelope.evidence.sources,
      visibleNow store envelope.evidence.scopeVersion item.toSourceColumns =
        item.publicationFirstVisibleAt) :
    ∃ facts, observationFacts store envelope = .ok facts :=
  mapM_ok_of_forall fun item hitem => ⟨_, observationFact_eq_ok.mpr ⟨h item hitem, rfl⟩⟩

theorem sourceSnapshot_facts {item : VerificationSourceFactsRow} {snapshot : VerificationSnapshot}
    {source : VerificationSourceSnapshot}
    (h : sourceSnapshot item snapshot.publishedAt = .ok source) :
    clientFacts snapshot source = factsAt snapshot.publishedAt item := by
  rw [sourceSnapshot, require_bind] at h
  have hsource := Except.ok.inj h.2
  subst hsource
  rfl

theorem snapshotResponse_facts {envelope : SnapshotEnvelope} {response : VerificationSnapshot}
    (h : snapshotResponse envelope = .ok response) :
    response.sources.map (clientFacts response) =
      envelope.evidence.sources.map (factsAt envelope.evidence.publishedAt) := by
  obtain ⟨sources, hsources, h⟩ := bind_eq_ok.mp h
  obtain ⟨_, h⟩ := require_bind.mp h
  have hresponse := Except.ok.inj h
  subst hresponse
  rw [← List.forall₂_eq_eq_eq, List.forall₂_map_left_iff, List.forall₂_map_right_iff]
  refine (mapM_forall₂.mp hsources).flip.imp fun source item hitem => ?_
  exact sourceSnapshot_facts hitem

theorem observationResults_eq {store : SnapshotStore} {envelope : SnapshotEnvelope}
    {response : VerificationSnapshot} {facts : List SourceVerificationFacts}
    (hresponse : snapshotResponse envelope = .ok response)
    (hfacts : observationFacts store envelope = .ok facts) (slot startedAt : Datetime) :
    (facts.mapM fun item => deriveSourceResult item slot startedAt) =
      observationResults response slot startedAt := by
  rw [observationFacts_eq_map hfacts, ← snapshotResponse_facts hresponse, List.mapM_map]
  rfl

theorem observation_eq_ok {snapshot : VerificationSnapshot} {scope : Text}
    {slot startedAt : Datetime} {payload : VerificationObservationPayload}
    (h : observation snapshot scope slot startedAt = .ok payload) :
    observationResults snapshot slot startedAt = .ok payload.sourceResults ∧
      payload.expectedSlotUtc = slot ∧ payload.actionStartedAt = startedAt := by
  obtain ⟨results, hresults, h⟩ := bind_eq_ok.mp h
  split at h
  · have hpayload := Except.ok.inj h
    subst hpayload
    exact ⟨hresults, rfl, rfl⟩
  · exact absurd h (by simp)

theorem validatedSourceResults_honest {store : SnapshotStore} {envelope : SnapshotEnvelope}
    {response : VerificationSnapshot} {facts : List SourceVerificationFacts} {scope : Text}
    {slot startedAt : Datetime} {payload : VerificationObservationPayload}
    (hresponse : snapshotResponse envelope = .ok response)
    (hfacts : observationFacts store envelope = .ok facts)
    (hpayload : observation response scope slot startedAt = .ok payload) (observedAt : Instant) :
    validatedSourceResults envelope facts payload observedAt =
      (validateBinding envelope payload observedAt).map fun _ => payload.sourceResults := by
  obtain ⟨hresults, rfl, rfl⟩ := observation_eq_ok hpayload
  have hderived : derivedResults facts payload = .ok payload.sourceResults := by
    rw [derivedResults, observationResults_eq hresponse hfacts, hresults]
    rfl
  have hsame : SameResults payload.sourceResults payload.sourceResults := fun _ _ => rfl
  rw [validatedSourceResults]
  cases validateBinding envelope payload observedAt with
  | error e => rfl
  | ok _ =>
    rw [ok_bind, hderived, ok_bind, require_of hsame]
    rfl

variable {nfc : Text → Text}

theorem issued_holds {issues : List Issue} {issue : Issue} {store : SnapshotStore} (later : List Issue)
    (h : issueSnapshot nfc (run (issueSnapshot nfc) SnapshotStore.empty issues) issue = .ok store) :
    Holds (run (issueSnapshot nfc) SnapshotStore.empty (issues ++ issue :: later))
      (issue.envelope nfc (run (issueSnapshot nfc) SnapshotStore.empty issues)) := by
  rw [run_append, run_cons, attempt_of_ok h]
  exact holds_run later (holds_new (persistSnapshot_eq_ok h) (headed_run issues))

/-- Whatever was issued before and after: a snapshot that was persisted loads as
    it was issued; from its facts, where the server derives them, come exactly
    the results that the command derives from the answer, and an honest payload
    passes unless its identity or its times are refused; and where every issue
    sees the earlier ones and none of their clocks is ahead of it, the server
    does derive them. -/
theorem verifierResults_agree (nfc : Text → Text) (issues later : List Issue) (issue : Issue)
    (store : SnapshotStore)
    (hissue : issueSnapshot nfc (run (issueSnapshot nfc) SnapshotStore.empty issues) issue =
      .ok store) :
    let envelope := issue.envelope nfc (run (issueSnapshot nfc) SnapshotStore.empty issues)
    let final := run (issueSnapshot nfc) SnapshotStore.empty (issues ++ issue :: later)
    loadSnapshot nfc final envelope.snapshotId envelope.evidence.scopeVersion envelope.checksum =
        .ok envelope ∧
      (∀ response facts, snapshotResponse envelope = .ok response →
        observationFacts final envelope = .ok facts → ∀ slot startedAt,
          (facts.mapM fun item => deriveSourceResult item slot startedAt) =
              observationResults response slot startedAt ∧
            ∀ scope payload observedAt, observation response scope slot startedAt = .ok payload →
              validatedSourceResults envelope facts payload observedAt =
                (validateBinding envelope payload observedAt).map fun _ => payload.sourceResults) ∧
      (Meets (issueSnapshot nfc) Sequential SnapshotStore.empty (issues ++ issue :: later) →
        ∃ facts, observationFacts final envelope = .ok facts) := by
  intro envelope final
  have hholds : Holds final envelope := issued_holds later hissue
  refine ⟨?_, fun response facts hresponse hfacts slot startedAt => ⟨?_, ?_⟩, fun hmeets => ?_⟩
  · exact loadSnapshot_holds hholds (canonicalSnapshot_canonical _ _ _)
      (canonicalSnapshot_sorted _ _ _)
  · exact observationResults_eq hresponse hfacts slot startedAt
  · intro scope payload observedAt hpayload
    exact validatedSourceResults_honest hresponse hfacts hpayload observedAt
  · refine observationFacts_ok fun item hitem => ?_
    have hrow : VerificationSnapshotSource.mk envelope.snapshotId item ∈
        rowsOf final envelope.snapshotId := by
      rw [hholds.rows]
      exact List.mem_map_of_mem hitem
    exact (current_run hmeets envelope.header hholds.header _ (List.mem_filter.mp hrow).1 rfl).1

/-- Two issues of one published run and of a source that never ran. -/
def sampleIssue (publishedAt : Instant) : Issue where
  scopeVersion := "scope-v1".toList
  seen := fun _ => true
  publishedAt := publishedAt
  rows := [
    ⟨2, .us, true, some 21, some 100000000, some 22, some 4⟩,
    ⟨1, .kr, true, none, none, none, none⟩]

theorem verifierResults_agree_sample :
    ∃ store facts, issueSnapshot id SnapshotStore.empty (sampleIssue 160000000) = .ok store ∧
      observationFacts (run (issueSnapshot id) SnapshotStore.empty
        [sampleIssue 160000000, sampleIssue 700000000])
        ((sampleIssue 160000000).envelope id SnapshotStore.empty) = .ok facts := by
  have hissue : ∃ store, issueSnapshot id SnapshotStore.empty (sampleIssue 160000000) = .ok store :=
    isOk_iff.mp (by decide +kernel)
  obtain ⟨store, hstore⟩ := hissue
  have hlater : Sequential (attempt (issueSnapshot id) SnapshotStore.empty (sampleIssue 160000000))
      (sampleIssue 700000000) := by
    unfold Sequential
    decide +kernel
  obtain ⟨facts, hfacts⟩ := (verifierResults_agree id [] [sampleIssue 700000000]
    (sampleIssue 160000000) store hstore).2.2
      ⟨fun record hrecord => absurd hrecord List.not_mem_nil, hlater, trivial⟩
  exact ⟨store, facts, hstore, hfacts⟩

end Agreement

end PredictionMarketMonitor.VerificationSnapshots
