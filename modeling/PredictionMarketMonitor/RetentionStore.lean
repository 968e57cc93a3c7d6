import PredictionMarketMonitor.KeySorting
import PredictionMarketMonitor.KeyedTable
import PredictionMarketMonitor.ReportFormula

set_option autoImplicit false

/-!
# Report retention

`app/reporting/retention.py` over the reference store of `retention_memory.py`: raw
sources are replaced by tombstones where retained manifests refer to them, and report
graphs whose retention has elapsed are removed.
-/
namespace PredictionMarketMonitor.RetentionStore

open CanonicalJson CivilTime CollectionBase FallibleSteps KeySorting KeyedTable ReportInputs
open ReportManifest ReportFormula Sha256

inductive TombstoneEntityKind
  | postVersion | analysis | postMatch | engagement | sourceManifest
deriving DecidableEq

inductive ManifestItemKind
  | record | sourceCoverage
deriving DecidableEq

inductive TombstoneDeletionReason
  | rawRetentionExpired
deriving DecidableEq

structure SourceEntity where
  id : UUID
  entityKind : TombstoneEntityKind
  sourceEntityHash : Digest
  sourceId : Option UUID
  publishedOrObservedAt : Option Instant
  retentionStartedAt : Instant
deriving DecidableEq

structure RetainedManifest where
  id : UUID
  envelope : ManifestEnvelope
  retainUntil : Instant
deriving DecidableEq

structure ManifestItemReference where
  id : UUID
  manifestId : UUID
  itemKind : ManifestItemKind
  role : ReportRole
  ordinal : ℤ
  sourceId : UUID
  sourceEntityId : UUID
  sourceEntityHash : Digest
  valueSliceSha256 : Digest
  liveSourceEntityId : Option UUID
  tombstoneId : Option UUID
deriving DecidableEq

structure TombstoneIdentity where
  entityKind : TombstoneEntityKind
  sourceEntityId : UUID
  sourceEntityHash : Digest
  manifestValueSliceSha256 : Digest
deriving DecidableEq

structure TombstoneCandidate where
  identity : TombstoneIdentity
  sourceId : Option UUID
  publishedOrObservedAt : Option Instant
  deletedAt : Instant
  deletionReason : TombstoneDeletionReason
  firstManifestId : UUID
  retainUntil : Instant

structure RetentionTombstone extends TombstoneCandidate where
  id : UUID

structure CleanupRequest where
  sourceEntityId : UUID
  observedAt : Instant

structure CleanupOutcome where
  deleted : Bool
  tombstoneIds : List UUID
  reason : Option String

structure ExpiryOutcome where
  deletedManifestIds : List UUID
  deletedTombstoneIds : List UUID

inductive RetentionFailure
  | integrity (reason : String)
  | runtimeError (message : String)
  | keyError
  | raised (failure : ReportFailure)

inductive Event
  | referenceSwitched | sourceDeleted | reportDependenciesDeleted | manifestItemsDeleted
  | manifestDeleted | tombstoneDeleted
deriving DecidableEq

structure Repository where
  sources : Table SourceEntity.id
  manifests : Table RetainedManifest.id
  references : Table ManifestItemReference.id
  tombstones : Table RetentionTombstone.id
  reportDependencies : Finset UUID
  events : List Event

namespace Repository
variable (db : Repository)

/-- The store seeded with rows; every manifest has report rows that depend on it. -/
def seed (sources : Table SourceEntity.id) (manifests : Table RetainedManifest.id)
    (references : Table ManifestItemReference.id) : Repository where
  sources := sources
  manifests := manifests
  references := references
  tombstones := Table.empty
  reportDependencies := (manifests.rows.map RetainedManifest.id).toFinset
  events := []

def lockSource (entityId : UUID) : Option SourceEntity := db.sources.find? entityId

def lockLiveReferences (entityId : UUID) : List ManifestItemReference :=
  sortBy (fun item => item.id.toNat)
    (db.references.rows.filter fun item => item.liveSourceEntityId = some entityId)

def lockManifest (manifestId : UUID) : Option RetainedManifest := db.manifests.find? manifestId

/-- The snapshot of the property `tombstones`. -/
def sortedTombstones : List RetentionTombstone :=
  sortBy (fun item => item.id.toNat) db.tombstones.rows

/-- `newId` is the identifier that `uuid4` returns. -/
def upsertTombstone (candidate : TombstoneCandidate) (newId : UUID) :
    Repository × RetentionTombstone :=
  match db.sortedTombstones.find? fun item => item.identity = candidate.identity with
  | some existing =>
    let extended :=
      { existing with retainUntil := max existing.retainUntil candidate.retainUntil }
    ({ db with tombstones := db.tombstones.put extended }, extended)
  | none =>
    let tombstone : RetentionTombstone := { candidate with id := newId }
    ({ db with tombstones := db.tombstones.put tombstone }, tombstone)

def switchReference (referenceId tombstoneId : UUID) : Except RetentionFailure Repository := do
  let reference ← present (db.references.find? referenceId) .keyError
  return { db with
    references := db.references.put
      { reference with liveSourceEntityId := none, tombstoneId := some tombstoneId }
    events := db.events ++ [.referenceSwitched] }

def deleteSource (entityId : UUID) : Except RetentionFailure Repository := do
  require (∀ item ∈ db.references.rows, item.liveSourceEntityId ≠ some entityId)
    (.runtimeError "live_reference_prevents_source_deletion")
  let _ ← present (db.sources.find? entityId) .keyError
  return { db with
    sources := db.sources.filter fun item => item.id ≠ entityId
    events := db.events ++ [.sourceDeleted] }

def lockExpiredManifests (observedAt : Instant) : List RetainedManifest :=
  sortBy (fun item => toLex (item.retainUntil, item.id.toNat))
    (db.manifests.rows.filter fun item => item.retainUntil ≤ observedAt)

def deleteReportDependencies (manifestId : UUID) : Except RetentionFailure Repository := do
  require (manifestId ∈ db.reportDependencies) .keyError
  return { db with
    reportDependencies := db.reportDependencies.erase manifestId
    events := db.events ++ [.reportDependenciesDeleted] }

def deleteManifestItems (manifestId : UUID) : Except RetentionFailure Repository := do
  require (manifestId ∉ db.reportDependencies)
    (.runtimeError "report_dependency_prevents_item_deletion")
  return { db with
    references := db.references.filter fun item => item.manifestId ≠ manifestId
    events := db.events ++ [.manifestItemsDeleted] }

def deleteManifest (manifestId : UUID) : Except RetentionFailure Repository := do
  require (∀ item ∈ db.references.rows, item.manifestId ≠ manifestId)
    (.runtimeError "manifest_item_prevents_manifest_deletion")
  let _ ← present (db.manifests.find? manifestId) .keyError
  return { db with
    manifests := db.manifests.filter fun item => item.id ≠ manifestId
    events := db.events ++ [.manifestDeleted] }

def Unreferenced (tombstoneId : UUID) : Prop :=
  ∀ item ∈ db.references.rows, item.tombstoneId ≠ some tombstoneId

instance (tombstoneId : UUID) : Decidable (db.Unreferenced tombstoneId) :=
  inferInstanceAs (Decidable (∀ item ∈ db.references.rows, item.tombstoneId ≠ some tombstoneId))

def lockUnreferencedTombstones (observedAt : Instant) : List RetentionTombstone :=
  db.sortedTombstones.filter fun item =>
    db.Unreferenced item.id ∧ item.retainUntil ≤ observedAt

def deleteTombstone (tombstoneId : UUID) : Except RetentionFailure Repository := do
  require (db.Unreferenced tombstoneId)
    (.runtimeError "manifest_reference_prevents_tombstone_deletion")
  let _ ← present (db.tombstones.find? tombstoneId) .keyError
  return { db with
    tombstones := db.tombstones.filter fun item => item.id ≠ tombstoneId
    events := db.events ++ [.tombstoneDeleted] }

end Repository

inductive ManifestValueSlice
  | record (item : ReportRecord)
  | coverage (item : SourceCoverage)

namespace ManifestValueSlice

def sourceId : ManifestValueSlice → UUID
  | .record item => item.sourceId
  | .coverage item => item.sourceId

def json : ManifestValueSlice → Json
  | .record item => item.json
  | .coverage item => item.json

end ManifestValueSlice

/-- The item addressed by role and ordinal; a coverage ordinal is a position. -/
def manifestValueSlice (payload : ReportInputManifest) (reference : ManifestItemReference) :
    Except RetentionFailure ManifestValueSlice :=
  let selected : List ManifestValueSlice :=
    match reference.itemKind with
    | .record => (payload.records.filter fun item =>
        item.role = reference.role ∧ (item.ordinal : ℤ) = reference.ordinal).map .record
    | .sourceCoverage =>
      let roleCoverage := payload.sourceCoverage.filter fun item => item.role = reference.role
      if 0 ≤ reference.ordinal then roleCoverage[reference.ordinal.toNat]?.toList.map .coverage
      else []
  match selected with
  | [item] => .ok item
  | _ => .error (.integrity "manifest_value_slice_missing")

def recordHash (record : ReportRecord) (entityKind : TombstoneEntityKind) (entityId : UUID) :
    Option Digest :=
  match entityKind with
  | .postVersion => if record.postVersionId = entityId then some record.postContentHash else none
  | .analysis =>
    if record.analysis.analysisId = some entityId then record.analysis.outputHash else none
  | .postMatch =>
    (record.ruleMatches.find? fun item => item.matchId = entityId).map (·.matchHash)
  | .engagement =>
    if record.engagement.observationId = some entityId then record.engagement.engagementHash
    else none
  | .sourceManifest =>
    if record.sourcePublicationManifestId = entityId then
      some record.sourcePublicationManifestHash
    else none

def provenanceHash (valueSlice : ManifestValueSlice) (entityKind : TombstoneEntityKind)
    (entityId : UUID) : Option Digest :=
  match valueSlice with
  | .record item => recordHash item entityKind entityId
  | .coverage item =>
    if entityKind = .sourceManifest ∧ item.cutoffPublicationManifestId = some entityId then
      item.cutoffPublicationManifestHash
    else none

def rawRetention : ℤ := seconds (30 * 86400)

/-- `RetentionIntegrityError(str(error))` of the integrity errors of a manifest. -/
def retentionFailure : ReportFailure → RetentionFailure
  | .manifestIntegrity reason => .integrity reason
  | .manifestCorrupt reason => .integrity reason
  | failure => .raised failure

section Policy
variable (codecs : Codecs)

def verifyReference (payload : ReportInputManifest) (reference : ManifestItemReference)
    (source : SourceEntity) : Except RetentionFailure Unit := do
  let valueSlice ← manifestValueSlice payload reference
  let valueHash := sha256 (canonicalBytes codecs.nf valueSlice.json)
  require (source.sourceId.isSome ∧ reference.sourceEntityId = source.id ∧
      reference.sourceEntityHash = source.sourceEntityHash ∧
      some reference.sourceId = source.sourceId ∧ source.sourceId = some valueSlice.sourceId ∧
      provenanceHash valueSlice source.entityKind source.id = some source.sourceEntityHash)
    (.integrity "source_provenance_mismatch")
  require (valueHash = reference.valueSliceSha256) (.integrity "value_slice_hash_mismatch")

def verifiedManifest (retained : RetainedManifest) : Except RetentionFailure ReportInputManifest :=
  (do
    let payload ← readManifest codecs.nf codecs.gzip codecs.manifests retained.envelope
    let _ ← projectReport codecs.nf codecs.gzip payload
    return payload : Except ReportFailure ReportInputManifest).mapError retentionFailure

/-- The loop of `cleanup_source`: the store, the manifests verified so far and the
    tombstones in use. -/
structure CleanupProgress where
  repository : Repository
  payloads : List (UUID × ReportInputManifest × RetainedManifest)
  tombstoneIds : List UUID

def cachedManifest (progress : CleanupProgress) (manifestId : UUID) :
    Except RetentionFailure ((ReportInputManifest × RetainedManifest) ×
      List (UUID × ReportInputManifest × RetainedManifest)) :=
  let retained := progress.repository.lockManifest manifestId
  match progress.payloads.find? fun entry => entry.1 = manifestId with
  | some (_, cached) => return (cached, progress.payloads)
  | none => do
    let retained ← present retained (.integrity "retained_manifest_missing")
    let payload ← verifiedManifest codecs retained
    return ((payload, retained), progress.payloads ++ [(manifestId, payload, retained)])

def candidateOf (source : SourceEntity) (request : CleanupRequest)
    (reference : ManifestItemReference) (retained : RetainedManifest) : TombstoneCandidate where
  identity := {
    entityKind := source.entityKind
    sourceEntityId := source.id
    sourceEntityHash := source.sourceEntityHash
    manifestValueSliceSha256 := reference.valueSliceSha256 }
  sourceId := source.sourceId
  publishedOrObservedAt := source.publishedOrObservedAt
  deletedAt := request.observedAt
  deletionReason := .rawRetentionExpired
  firstManifestId := reference.manifestId
  retainUntil := retained.retainUntil

/-- One reference of the loop; `newId` gives what `uuid4` would return at it. -/
def switchStep (source : SourceEntity) (request : CleanupRequest) (newId : UUID → UUID)
    (progress : CleanupProgress) (reference : ManifestItemReference) :
    Except RetentionFailure CleanupProgress := do
  let ((payload, retained), payloads) ← cachedManifest codecs progress reference.manifestId
  verifyReference codecs payload reference source
  let (db, tombstone) := progress.repository.upsertTombstone
    (candidateOf source request reference retained) (newId reference.id)
  let db ← db.switchReference reference.id tombstone.id
  return {
    repository := db
    payloads := payloads
    tombstoneIds := progress.tombstoneIds ++ [tombstone.id] }

def cleanupSource (db : Repository) (request : CleanupRequest) (newId : UUID → UUID) :
    Except RetentionFailure (Repository × CleanupOutcome) := do
  let source ← present (db.lockSource request.sourceEntityId) (.integrity "source_missing")
  if request.observedAt < source.retentionStartedAt + rawRetention then
    return (db, ⟨false, [], some "not_eligible"⟩)
  let progress ← (db.lockLiveReferences source.id).foldlM
    (switchStep codecs source request newId) ⟨db, [], []⟩
  let db ← progress.repository.deleteSource source.id
  return (db, ⟨true, progress.tombstoneIds.eraseDups, none⟩)

end Policy

def expireRetainedReports (db : Repository) (observedAt : Instant) :
    Except RetentionFailure (Repository × ExpiryOutcome) := do
  let manifests := db.lockExpiredManifests observedAt
  let db ← manifests.foldlM (fun db manifest => db.deleteReportDependencies manifest.id) db
  let db ← manifests.foldlM (fun db manifest => db.deleteManifestItems manifest.id) db
  let db ← manifests.foldlM (fun db manifest => db.deleteManifest manifest.id) db
  let tombstones := db.lockUnreferencedTombstones observedAt
  let db ← tombstones.foldlM (fun db tombstone => db.deleteTombstone tombstone.id) db
  return (db, ⟨manifests.map (·.id), tombstones.map (·.id)⟩)

inductive RetentionCommand
  | cleanup (request : CleanupRequest) (newId : UUID → UUID)
  | expire (observedAt : Instant)

def retentionStep (codecs : Codecs) (db : Repository) :
    RetentionCommand → Except RetentionFailure Repository
  | .cleanup request newId => do
    let (db, _) ← cleanupSource codecs db request newId
    return db
  | .expire observedAt => do
    let (db, _) ← expireRetainedReports db observedAt
    return db

end PredictionMarketMonitor.RetentionStore
