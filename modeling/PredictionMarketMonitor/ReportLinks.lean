import PredictionMarketMonitor.ComposedTexts
import PredictionMarketMonitor.HistoryTables
import PredictionMarketMonitor.RetentionRuns

set_option autoImplicit false

/-!
# The links that a report writes

`add_manifest_items` of `_report_rows.py` writes the items of a manifest and their live
links, `retention_sql_sources.py` reads a linked row back, and the reference is verified
as in `retention.py`.
-/
namespace PredictionMarketMonitor.ReportLinks

open CanonicalJson CivilTime CollectionBase ComposedTexts FallibleSteps KeyedTable KeySorting
open ManifestRoundTrip ReportFormula ReportHistory ReportInputs ReportManifest RetentionStore Sha256
open HistoryTables (Reconciled verifyRetained)
open RetentionRuns (Attested)
open ReportAssembly (MatchSqlRow PublicationFingerprint RecordSqlRow ReportAssemblyPolicy
  ReportInputQueryRows analysisOf checkedAnalysis checkedCoverage checkedEngagement engagementOf
  matchesOf projectReportInput publicationHash reportRecord ruleMatch sourceCoverage)

section Rows

structure Post where
  id : UUID
  sourceId : UUID
  publishedAt : Instant

structure PostVersion where
  id : UUID
  postId : UUID
  contentHash : Digest
  collectedAt : Instant

structure Analysis where
  id : UUID
  postVersionId : UUID
  outputHash : Digest
  analyzedAt : Instant

structure PostMatch where
  id : UUID
  postVersionId : UUID
  matchHash : Digest
  matchedAt : Instant

structure EngagementObservation where
  id : UUID
  postVersionId : UUID
  engagementHash : Digest
  observedAt : Instant

structure ReportInputManifestItem where
  id : UUID
  manifestId : UUID
  itemKind : ManifestItemKind
  ordinal : ℕ
  role : ReportRole
  sourceId : UUID
  sourceEntityId : Option UUID
  sourceEntityHash : Option Digest
  livePostVersionId : Option UUID
  postVersionTombstoneId : Option UUID
  liveAnalysisId : Option UUID
  liveEngagementObservationId : Option UUID
  liveSourcePublicationManifestId : Option UUID
  provenanceValues : Json
  valueSliceSha256 : Digest

structure ReportInputManifestItemMatch where
  id : UUID
  manifestItemId : UUID
  postMatchId : UUID

structure RawTables where
  posts : Table Post.id
  versions : Table PostVersion.id
  analyses : Table Analysis.id
  postMatches : Table PostMatch.id
  engagements : Table EngagementObservation.id
  publications : Table PublicationFingerprint.id
  items : Table ReportInputManifestItem.id
  itemMatches : Table ReportInputManifestItemMatch.id

end Rows

section Writer
variable (nf : NormalForm)

/-- What `uuid4` returns for the rows of a report. -/
structure NewIds where
  ofRecord : ReportRecord → UUID
  ofCoverage : SourceCoverage → UUID
  ofMatch : ReportRecord → RuleMatchSnapshot → UUID

def recordItem (manifestId itemId : UUID) (record : ReportRecord) : ReportInputManifestItem where
  id := itemId
  manifestId := manifestId
  itemKind := .record
  ordinal := record.ordinal
  role := record.role
  sourceId := record.sourceId
  sourceEntityId := some record.postVersionId
  sourceEntityHash := some record.postContentHash
  livePostVersionId := some record.postVersionId
  postVersionTombstoneId := none
  liveAnalysisId := record.analysis.analysisId
  liveEngagementObservationId := record.engagement.observationId
  liveSourcePublicationManifestId := some record.sourcePublicationManifestId
  provenanceValues := record.json
  valueSliceSha256 := sha256 (canonicalBytes nf record.json)

def coverageItem (manifestId itemId : UUID) (coverage : SourceCoverage) (ordinal : ℕ) :
    ReportInputManifestItem where
  id := itemId
  manifestId := manifestId
  itemKind := .sourceCoverage
  ordinal := ordinal
  role := coverage.role
  sourceId := coverage.sourceId
  sourceEntityId := coverage.cutoffPublicationManifestId
  sourceEntityHash := coverage.cutoffPublicationManifestHash
  livePostVersionId := none
  postVersionTombstoneId := none
  liveAnalysisId := none
  liveEngagementObservationId := none
  liveSourcePublicationManifestId := coverage.cutoffPublicationManifestId
  provenanceValues := coverage.json
  valueSliceSha256 := sha256 (canonicalBytes nf coverage.json)

def coverageOf (payload : ReportInputManifest) (role : ReportRole) : List SourceCoverage :=
  payload.sourceCoverage.filter fun item => item.role = role

/-- The rows added: the items, and the links of their matches. -/
def addManifestItems (ids : NewIds) (payload : ReportInputManifest) (manifestId : UUID) :
    List ReportInputManifestItem × List ReportInputManifestItemMatch :=
  (payload.records.map (fun record => recordItem nf manifestId (ids.ofRecord record) record) ++
    [ReportRole.primary, .comparison].flatMap fun role =>
      (coverageOf payload role).zipIdx.map fun (item, ordinal) =>
        coverageItem nf manifestId (ids.ofCoverage item) item ordinal,
  payload.records.flatMap fun record => record.ruleMatches.map fun item =>
    ⟨ids.ofMatch record item, ids.ofRecord record, item.matchId⟩)

end Writer

section Locks
variable (nf : NormalForm) (tables : RawTables)

/-- `JOIN post_versions` and `JOIN posts` of a row that hangs on a version. -/
def postOfVersion (versionId : UUID) : Option Post := do
  let version ← tables.versions.find? versionId
  tables.posts.find? version.postId

def lockPostVersionSource (entityId : UUID) : Option SourceEntity := do
  let version ← tables.versions.find? entityId
  let post ← tables.posts.find? version.postId
  return {
    id := version.id
    entityKind := .postVersion
    sourceEntityHash := version.contentHash
    sourceId := some post.sourceId
    publishedOrObservedAt := some post.publishedAt
    retentionStartedAt := version.collectedAt }

def lockAnalysisSource (entityId : UUID) : Option SourceEntity := do
  let analysis ← tables.analyses.find? entityId
  let post ← postOfVersion tables analysis.postVersionId
  return {
    id := analysis.id
    entityKind := .analysis
    sourceEntityHash := analysis.outputHash
    sourceId := some post.sourceId
    publishedOrObservedAt := some analysis.analyzedAt
    retentionStartedAt := analysis.analyzedAt }

def lockMatchSource (entityId : UUID) : Option SourceEntity := do
  let matched ← tables.postMatches.find? entityId
  let post ← postOfVersion tables matched.postVersionId
  return {
    id := matched.id
    entityKind := .postMatch
    sourceEntityHash := matched.matchHash
    sourceId := some post.sourceId
    publishedOrObservedAt := some matched.matchedAt
    retentionStartedAt := matched.matchedAt }

def lockEngagementSource (entityId : UUID) : Option SourceEntity := do
  let engagement ← tables.engagements.find? entityId
  let post ← postOfVersion tables engagement.postVersionId
  return {
    id := engagement.id
    entityKind := .engagement
    sourceEntityHash := engagement.engagementHash
    sourceId := some post.sourceId
    publishedOrObservedAt := some engagement.observedAt
    retentionStartedAt := engagement.observedAt }

def lockPublicationSource (entityId : UUID) : Option SourceEntity := do
  let publication ← tables.publications.find? entityId
  return {
    id := publication.id
    entityKind := .sourceManifest
    sourceEntityHash := publicationHash nf publication
    sourceId := some publication.sourceId
    publishedOrObservedAt := some publication.committedAt.instant
    retentionStartedAt := publication.committedAt.instant }

def RawTables.ids : TombstoneEntityKind → List UUID
  | .postVersion => tables.versions.rows.map PostVersion.id
  | .analysis => tables.analyses.rows.map Analysis.id
  | .postMatch => tables.postMatches.rows.map PostMatch.id
  | .engagement => tables.engagements.rows.map EngagementObservation.id
  | .sourceManifest => tables.publications.rows.map PublicationFingerprint.id

def lockOf : TombstoneEntityKind → UUID → Option SourceEntity
  | .postVersion => lockPostVersionSource tables
  | .analysis => lockAnalysisSource tables
  | .postMatch => lockMatchSource tables
  | .engagement => lockEngagementSource tables
  | .sourceManifest => lockPublicationSource nf tables

/-- The order of `_SOURCE_LOCKS`. -/
def sourceLocks : List TombstoneEntityKind :=
  [.postVersion, .analysis, .postMatch, .engagement, .sourceManifest]

def lockSourceRow (entityId : UUID) : Option SourceEntity :=
  sourceLocks.findSome? fun kind => lockOf nf tables kind entityId

structure ReferenceSwitchTarget where
  referenceId : UUID
  manifestItemId : UUID
  sourceEntityId : UUID
  entityKind : TombstoneEntityKind

structure LockedReferences where
  references : List ManifestItemReference
  targets : List ReferenceSwitchTarget

/-- The live column that a kind of entity is linked by; a match has link rows of its own. -/
def liveLink (item : ReportInputManifestItem) : TombstoneEntityKind → Option UUID
  | .postVersion => item.livePostVersionId
  | .analysis => item.liveAnalysisId
  | .engagement => item.liveEngagementObservationId
  | .sourceManifest => item.liveSourcePublicationManifestId
  | .postMatch => none

/-- The rows of a reference lock: the identity of the link and the item that it is of. -/
def referenceRows (entityKind : TombstoneEntityKind) (entityId : UUID) :
    List (UUID × ReportInputManifestItem) :=
  sortBy (fun row => toLex (row.2.manifestId.toNat, row.1.toNat))
    (match entityKind with
    | .postMatch => tables.itemMatches.rows.filterMap fun link =>
        if link.postMatchId = entityId then
          (tables.items.find? link.manifestItemId).map fun item => (link.id, item)
        else none
    | kind => (tables.items.rows.filter fun item => liveLink item kind = some entityId).map
        fun item => (item.id, item))

def referenceOf (source : SourceEntity) (row : UUID × ReportInputManifestItem) :
    ManifestItemReference where
  id := row.1
  manifestId := row.2.manifestId
  itemKind := row.2.itemKind
  role := row.2.role
  ordinal := row.2.ordinal
  sourceId := row.2.sourceId
  sourceEntityId := source.id
  sourceEntityHash := source.sourceEntityHash
  valueSliceSha256 := row.2.valueSliceSha256
  liveSourceEntityId := some source.id
  tombstoneId := none

def lockReferenceRows (source : SourceEntity) : LockedReferences where
  references := (referenceRows tables source.entityKind source.id).map (referenceOf source)
  targets := (referenceRows tables source.entityKind source.id).map fun row =>
    ⟨row.1, row.2.id, source.id, source.entityKind⟩

end Locks

section Assembled
variable {nf : NormalForm} {casefold : Text → Text} {policy : ReportAssemblyPolicy}
variable {rows : ReportInputQueryRows} {windows : ReportWindows} {row : RecordSqlRow}
variable {record : ReportRecord}

/-- The identities and hashes that a record has from its row. -/
structure Draws (nf : NormalForm) (rows : ReportInputQueryRows) (row : RecordSqlRow)
    (record : ReportRecord) : Prop where
  source : record.sourceId = row.sourceId
  version : record.postVersionId = row.postVersionId ∧ record.postContentHash = row.postContentHash
  analysis : ∀ id ∈ record.analysis.analysisId,
    row.analysisId = some id ∧ record.analysis.outputHash = row.outputHash
  matched : ∀ item ∈ record.ruleMatches, ∃ drawn ∈ matchesOf rows row,
    drawn.matchId = item.matchId ∧ drawn.matchHash = item.matchHash
  engagement : ∀ id ∈ record.engagement.observationId,
    row.engagementObservationId = some id ∧ record.engagement.engagementHash = row.engagementHash
  publication : record.sourcePublicationManifestId = row.publication.id ∧
    record.sourcePublicationManifestHash = publicationHash nf row.publication

theorem checkedAnalysis_eq_ok {values : AnalysisValues} {analysis : AnalysisSnapshot}
    (h : checkedAnalysis values = .ok analysis) : analysis.toAnalysisValues = values := by
  rw [checkedAnalysis] at h
  split at h
  · rw [← Except.ok.inj h]
  · cases h

theorem checkedEngagement_eq_ok {values : EngagementValues} {engagement : EngagementSnapshot}
    (h : checkedEngagement values = .ok engagement) : engagement.toEngagementValues = values := by
  rw [checkedEngagement] at h
  split at h
  · rw [← Except.ok.inj h]
  · cases h

theorem checkedCoverage_eq_ok {values : CoverageValues} {coverage : SourceCoverage}
    (h : checkedCoverage values = .ok coverage) : coverage.toCoverageValues = values := by
  rw [checkedCoverage] at h
  split at h
  · rw [← Except.ok.inj h]
  · cases h

theorem analysisOf_draws {analysis : AnalysisSnapshot} (h : analysisOf row = .ok analysis) :
    ∀ id ∈ analysis.analysisId, row.analysisId = some id ∧ analysis.outputHash = row.outputHash := by
  intro id hid
  rw [analysisOf] at h
  split at h
  · cases h
  · rw [checkedAnalysis_eq_ok h] at hid ⊢
    exact ⟨hid, rfl⟩
  · rw [checkedAnalysis_eq_ok h] at hid
    cases hid
  · cases h
  · rw [checkedAnalysis_eq_ok h] at hid
    cases hid

theorem engagementOf_draws {engagement : EngagementSnapshot} (h : engagementOf row = .ok engagement) :
    ∀ id ∈ engagement.observationId,
      row.engagementObservationId = some id ∧ engagement.engagementHash = row.engagementHash := by
  intro id hid
  rw [engagementOf] at h
  split at h
  · obtain ⟨_, _, h⟩ := bind_eq_ok.mp h
    rw [checkedEngagement_eq_ok h] at hid
    cases hid
  · next hobservation =>
    obtain ⟨_, _, h⟩ := bind_eq_ok.mp h
    obtain ⟨_, _, h⟩ := bind_eq_ok.mp h
    rw [checkedEngagement_eq_ok h] at hid ⊢
    exact ⟨hobservation.trans hid, rfl⟩

theorem ruleMatch_draws {drawn : MatchSqlRow} {item : RuleMatchSnapshot}
    (h : ruleMatch policy drawn = .ok item) :
    drawn.matchId = item.matchId ∧ drawn.matchHash = item.matchHash := by
  obtain ⟨_, _, h⟩ := bind_eq_ok.mp h
  split at h
  · obtain ⟨_, _, h⟩ := bind_eq_ok.mp h
    rw [← Except.ok.inj h]
    exact ⟨rfl, rfl⟩
  · cases h

theorem reportRecord_draws (h : reportRecord nf casefold policy rows windows row = .ok record) :
    Draws nf rows row record := by
  obtain ⟨_, _, h⟩ := bind_eq_ok.mp h
  obtain ⟨analysis, hanalysis, h⟩ := bind_eq_ok.mp h
  obtain ⟨ruleMatches, hmatches, h⟩ := bind_eq_ok.mp h
  obtain ⟨_, _, h⟩ := bind_eq_ok.mp h
  obtain ⟨engagement, hengagement, h⟩ := bind_eq_ok.mp h
  obtain ⟨_, _, h⟩ := bind_eq_ok.mp h
  rw [← Except.ok.inj h]
  refine ⟨rfl, ⟨rfl, rfl⟩, analysisOf_draws hanalysis, fun item hitem => ?_,
    engagementOf_draws hengagement, rfl, rfl⟩
  obtain ⟨drawn, hdrawn, hitem⟩ := forall₂_mem_right (mapM_forall₂.mp hmatches) item hitem
  exact ⟨drawn, hdrawn, ruleMatch_draws hitem⟩

theorem coverageItem_draws {facts : ReportAssembly.CoverageFacts} {coverage : SourceCoverage}
    (h : ReportAssembly.coverageItem nf policy facts = .ok coverage) :
    coverage.sourceId = facts.source.sourceId ∧
    ∀ id ∈ coverage.cutoffPublicationManifestId, ∃ publication ∈ facts.publications,
      publication.fingerprint.id = id ∧ coverage.cutoffPublicationManifestHash =
        some (publicationHash nf publication.fingerprint) := by
  repeat obtain ⟨_, _, h⟩ := bind_eq_ok.mp h
  rw [checkedCoverage_eq_ok h]
  refine ⟨rfl, fun id hid => ?_⟩
  obtain ⟨publication, hcutoff, rfl⟩ := Option.map_eq_some_iff.mp hid
  exact ⟨publication, AssemblyAcceptance.maxBy_mem hcutoff, rfl, congrArg (Option.map _) hcutoff⟩

/-- Every item of a payload has its evidence from the rows. -/
structure AssembledFrom (nf : NormalForm) (rows : ReportInputQueryRows)
    (payload : ReportInputManifest) : Prop where
  records : ∀ record ∈ payload.records, ∃ row ∈ rows.records, Draws nf rows row record
  coverage : ∀ item ∈ payload.sourceCoverage, ∀ id ∈ item.cutoffPublicationManifestId,
    ∃ publication ∈ rows.publications, publication.fingerprint.id = id ∧
      publication.fingerprint.sourceId = item.sourceId ∧
      item.cutoffPublicationManifestHash = some (publicationHash nf publication.fingerprint)

theorem sourceCoverage_draws {records : List ReportRecord} {items : List SourceCoverage}
    (h : sourceCoverage nf policy rows records = .ok items) :
    ∀ item ∈ items, ∀ id ∈ item.cutoffPublicationManifestId,
      ∃ publication ∈ rows.publications, publication.fingerprint.id = id ∧
        publication.fingerprint.sourceId = item.sourceId ∧
        item.cutoffPublicationManifestHash = some (publicationHash nf publication.fingerprint) := by
  intro item hitem id hid
  obtain ⟨_, _, h⟩ := bind_eq_ok.mp h
  obtain ⟨lists, hlists, h⟩ := bind_eq_ok.mp h
  obtain rfl := Except.ok.inj h
  obtain ⟨list, hlist, hitem⟩ := List.mem_flatten.mp hitem
  obtain ⟨window, _, hwindow⟩ := forall₂_mem_right (mapM_forall₂.mp hlists) list hlist
  obtain ⟨source, _, hsource⟩ := forall₂_mem_right (mapM_forall₂.mp hwindow) item hitem
  obtain ⟨hsourceId, hcutoff⟩ := coverageItem_draws hsource
  obtain ⟨publication, hpublication, hpublicationId, hhash⟩ := hcutoff id hid
  obtain ⟨hmem, hselected⟩ := List.mem_filter.mp hpublication
  have hselected := (of_decide_eq_true hselected).1
  exact ⟨publication, hmem, hpublicationId, hselected.trans hsourceId.symm, hhash⟩

theorem projectReportInput_from {payload : ReportInputManifest}
    (h : projectReportInput nf casefold policy rows = .ok payload) :
    payload.validateWindowsAndRecords = .ok () ∧ AssembledFrom nf rows payload := by
  obtain ⟨records, hrecords, h⟩ := bind_eq_ok.mp h
  obtain ⟨windows, _, h⟩ := bind_eq_ok.mp h
  obtain ⟨coverage, hcoverage, h⟩ := bind_eq_ok.mp h
  obtain ⟨_, _, hrecords⟩ := bind_eq_ok.mp hrecords
  dsimp only at h
  split at h
  · next hvalid =>
    obtain rfl := Except.ok.inj h
    refine ⟨hvalid, fun record hrecord => ?_, sourceCoverage_draws hcoverage⟩
    obtain ⟨row, hrow, hdrawn⟩ := forall₂_mem_right (mapM_forall₂.mp hrecords) record hrecord
    exact ⟨row, hrow, reportRecord_draws hdrawn⟩
  · cases h

/-- Normalization and composition leave the identities and hashes as they were drawn. -/
theorem Draws.settled (h : Draws nf rows row record) (ordinal : ℕ) :
    Draws nf rows row ((settled record ordinal).mapText nf) where
  source := h.source
  version := h.version
  analysis := h.analysis
  matched := by
    intro item hitem
    obtain ⟨other, hother, rfl⟩ := List.mem_map.mp hitem
    exact h.matched other (mem_sortBy.mp hother)
  engagement := h.engagement
  publication := h.publication

theorem AssembledFrom.settled {payload : ReportInputManifest} (h : AssembledFrom nf rows payload)
    (windows : ReportWindows) :
    AssembledFrom nf rows ((settledManifest payload windows).mapText nf) where
  records := by
    intro record hrecord
    obtain ⟨other, hother, rfl⟩ := List.mem_map.mp hrecord
    have hrole : ∃ role, other ∈ settledRole payload role :=
      (List.mem_append.mp hother).elim (fun h => ⟨_, h⟩) fun h => ⟨_, h⟩
    obtain ⟨role, hother⟩ := hrole
    obtain ⟨drawnRecord, hdrawnRecord, _, ordinal, rfl⟩ := mem_settledRole hother
    obtain ⟨row, hrow, hdrawn⟩ := h.records drawnRecord hdrawnRecord
    exact ⟨row, hrow, hdrawn.settled ordinal⟩
  coverage := by
    intro item hitem
    obtain ⟨other, hother, rfl⟩ := List.mem_map.mp hitem
    exact h.coverage other (mem_sortBy.mp hother)

/-- The place of a record in the manifest. -/
def recordPlace (record : ReportRecord) : ReportRole × ℕ := (record.role, record.ordinal)

theorem settledRole_places (payload : ReportInputManifest) (role : ReportRole) :
    ((settledRole payload role).map recordPlace).Nodup := by
  have hdistinct : ((settledRole payload role).map ReportRecord.ordinal).Nodup := by
    rw [settledRole_ordinals]
    exact List.nodup_range'
  exact .of_map Prod.snd (by rwa [List.map_map])

theorem places_distinct (payload : ReportInputManifest) (windows : ReportWindows) :
    (((settledManifest payload windows).mapText nf).records.map recordPlace).Nodup := by
  have hplaces : ((settledManifest payload windows).mapText nf).records.map recordPlace =
      (settledRole payload .primary).map recordPlace ++
        (settledRole payload .comparison).map recordPlace := by
    change (((settledRole payload .primary ++ settledRole payload .comparison).map _).map _) = _
    rw [List.map_map, List.map_append]
    rfl
  rw [hplaces, List.nodup_append]
  refine ⟨settledRole_places payload _, settledRole_places payload _, ?_⟩
  rintro _ hprimary _ hcomparison rfl
  obtain ⟨record, hrecord, hplace⟩ := List.mem_map.mp hprimary
  obtain ⟨other, hother, rfl⟩ := List.mem_map.mp hcomparison
  obtain ⟨_, _, hrole, _, rfl⟩ := mem_settledRole hrecord
  obtain ⟨_, _, hotherRole, _, rfl⟩ := mem_settledRole hother
  have hsame := congrArg Prod.fst hplace
  exact absurd (hrole.symm.trans (hsame.trans hotherRole)) (by decide)

end Assembled

section Written
variable {codecs : Codecs} {casefold : Text → Text}

/-- A report that was assembled from rows, projected and replayed before it was stored; its
    items are those of the payload that was replayed. -/
structure WrittenReport (codecs : Codecs) (casefold : Text → Text) where
  policy : ReportAssemblyPolicy
  rows : ReportInputQueryRows
  source : ReconcileRequest
  request : AppendReportRequest
  payload : ReportInputManifest
  projected : DailyReportPayload
  assembled : projectReportInput codecs.nf casefold policy rows = .ok source.payload
  requested : appendReportRequest codecs.nf codecs.gzip source = .ok request
  verified : verifyRetained codecs request = .ok (payload, projected)

theorem verifyRetained_reads {request : AppendReportRequest} {payload : ReportInputManifest}
    {projected : DailyReportPayload} (h : verifyRetained codecs request = .ok (payload, projected)) :
    readManifest codecs.nf codecs.gzip codecs.manifests request.retained.manifest = .ok payload ∧
      ∃ build, projectReport codecs.nf codecs.gzip payload = .ok build := by
  rw [verifyRetained] at h
  split at h
  · cases h
  · cases h
  · next hreproduced =>
    obtain ⟨other, build, hread, hproject, _⟩ := reproduced_projects hreproduced
    rw [hread] at h
    obtain ⟨_, hother, h⟩ := bind_eq_ok.mp h
    obtain ⟨_, _, h⟩ := bind_eq_ok.mp h
    obtain rfl := Except.ok.inj hother
    obtain ⟨rfl, _⟩ := Prod.mk.inj (Except.ok.inj h)
    exact ⟨hread, build, hproject⟩

namespace WrittenReport
variable (report : WrittenReport codecs casefold)

theorem payload_composed : ∃ windows,
    seoulReportWindows report.source.payload.reportDateSeoul = some windows ∧
      AssembledFrom codecs.nf report.rows report.source.payload ∧
      report.payload = (settledManifest report.source.payload windows).mapText codecs.nf := by
  obtain ⟨hvalid, hfrom⟩ := projectReportInput_from report.assembled
  obtain ⟨windows, hadmitted⟩ := admitted_iff.mp hvalid
  obtain ⟨build, hbuild, hrequest⟩ := bind_eq_ok.mp report.requested
  obtain ⟨manifest, _, hmanifest, _, _, rfl⟩ := projectReport_iff.mp hbuild
  obtain ⟨normalized, hnormalized, rfl⟩ := buildManifest_iff.mp hmanifest
  rw [normalizeManifest_settled hadmitted] at hnormalized
  obtain rfl := Except.ok.inj hnormalized
  have hread := (verifyRetained_reads report.verified).1
  rw [← Except.ok.inj hrequest] at hread
  exact ⟨windows, hadmitted.ofDate, hfrom, (reads_composed hread).1⟩

theorem payload_from : AssembledFrom codecs.nf report.rows report.payload := by
  obtain ⟨windows, _, hfrom, hpayload⟩ := report.payload_composed
  rw [hpayload]
  exact hfrom.settled windows

/-- The records of the manifest by their places. -/
def recordTable : Table recordPlace where
  rows := report.payload.records
  distinct := by
    obtain ⟨windows, _, _, hpayload⟩ := report.payload_composed
    rw [hpayload]
    exact places_distinct _ windows

/-- The manifest row that retention reads. -/
def retained : RetainedManifest :=
  ⟨report.request.manifestId, report.request.retained.manifest, report.request.retainUntil⟩

theorem retained_verified : verifiedManifest codecs report.retained = .ok report.payload := by
  obtain ⟨hread, build, hbuild⟩ := verifyRetained_reads report.verified
  rw [verifiedManifest, retained, hread, ok_bind, hbuild]
  rfl

end WrittenReport

end Written

section Slices

/-- The entities that an item of a manifest names. -/
inductive Names : ManifestValueSlice → TombstoneEntityKind → UUID → Prop
  | version (record : ReportRecord) : Names (.record record) .postVersion record.postVersionId
  | analysis {record : ReportRecord} {id : UUID} (h : record.analysis.analysisId = some id) :
    Names (.record record) .analysis id
  | postMatch {record : ReportRecord} {item : RuleMatchSnapshot} (h : item ∈ record.ruleMatches) :
    Names (.record record) .postMatch item.matchId
  | engagement {record : ReportRecord} {id : UUID} (h : record.engagement.observationId = some id) :
    Names (.record record) .engagement id
  | publication (record : ReportRecord) :
    Names (.record record) .sourceManifest record.sourcePublicationManifestId
  | cutoff {coverage : SourceCoverage} {id : UUID}
    (h : coverage.cutoffPublicationManifestId = some id) :
    Names (.coverage coverage) .sourceManifest id

def Contains (payload : ReportInputManifest) : ManifestValueSlice → Prop
  | .record item => item ∈ payload.records
  | .coverage item => item ∈ payload.sourceCoverage

/-- The row of an entity stands in the tables as the queries returned it; a publication is of
    the source of its posts, as the pages of a run are. -/
def Stands (tables : RawTables) (rows : ReportInputQueryRows) : TombstoneEntityKind → UUID → Prop
  | .postVersion, id => ∀ row ∈ rows.records, row.postVersionId = id →
    ∃ version post, tables.versions.find? id = some version ∧
      tables.posts.find? version.postId = some post ∧
      version.contentHash = row.postContentHash ∧ post.sourceId = row.sourceId
  | .analysis, id => ∀ row ∈ rows.records, row.analysisId = some id →
    ∃ analysis post, tables.analyses.find? id = some analysis ∧
      postOfVersion tables analysis.postVersionId = some post ∧
      row.outputHash = some analysis.outputHash ∧ post.sourceId = row.sourceId
  | .postMatch, id => ∀ row ∈ rows.records, ∀ drawn ∈ matchesOf rows row, drawn.matchId = id →
    ∃ matched post, tables.postMatches.find? id = some matched ∧
      postOfVersion tables matched.postVersionId = some post ∧
      matched.matchHash = drawn.matchHash ∧ post.sourceId = row.sourceId
  | .engagement, id => ∀ row ∈ rows.records, row.engagementObservationId = some id →
    ∃ engagement post, tables.engagements.find? id = some engagement ∧
      postOfVersion tables engagement.postVersionId = some post ∧
      row.engagementHash = some engagement.engagementHash ∧ post.sourceId = row.sourceId
  | .sourceManifest, id =>
    (∀ row ∈ rows.records, row.publicationId = id →
      tables.publications.find? id = some row.publication) ∧
    ∀ row ∈ rows.publications, row.fingerprint.id = id →
      tables.publications.find? id = some row.fingerprint

/-- What the locked row of a named entity proves of the item. -/
structure Evidences (slice : ManifestValueSlice) (kind : TombstoneEntityKind) (id : UUID)
    (source : SourceEntity) : Prop where
  entityKind : source.entityKind = kind
  entityId : source.id = id
  sourceId : source.sourceId = some slice.sourceId
  hash : provenanceHash slice kind id = some source.sourceEntityHash

variable {nf : NormalForm} {tables : RawTables} {rows : ReportInputQueryRows}
variable {kind : TombstoneEntityKind} {id : UUID} {source : SourceEntity}

theorem find?_fields {α : Type} {key : α → UUID} {t : Table key} {row : α} (h : t.find? id = some row) :
    key row = id ∧ id ∈ t.rows.map key := by
  obtain ⟨hmem, rfl⟩ := Table.find?_eq_some.mp h
  exact ⟨rfl, List.mem_map_of_mem hmem⟩

theorem lockOf_fields (h : lockOf nf tables kind id = some source) :
    source.entityKind = kind ∧ source.id = id ∧ id ∈ tables.ids kind := by
  cases kind with
  | postVersion =>
    obtain ⟨version, hversion, h⟩ := Option.bind_eq_some_iff.mp h
    obtain ⟨post, _, h⟩ := Option.bind_eq_some_iff.mp h
    rw [← Option.some.inj h]
    exact ⟨rfl, find?_fields hversion⟩
  | analysis =>
    obtain ⟨analysis, hanalysis, h⟩ := Option.bind_eq_some_iff.mp h
    obtain ⟨post, _, h⟩ := Option.bind_eq_some_iff.mp h
    rw [← Option.some.inj h]
    exact ⟨rfl, find?_fields hanalysis⟩
  | postMatch =>
    obtain ⟨matched, hmatched, h⟩ := Option.bind_eq_some_iff.mp h
    obtain ⟨post, _, h⟩ := Option.bind_eq_some_iff.mp h
    rw [← Option.some.inj h]
    exact ⟨rfl, find?_fields hmatched⟩
  | engagement =>
    obtain ⟨engagement, hengagement, h⟩ := Option.bind_eq_some_iff.mp h
    obtain ⟨post, _, h⟩ := Option.bind_eq_some_iff.mp h
    rw [← Option.some.inj h]
    exact ⟨rfl, find?_fields hengagement⟩
  | sourceManifest =>
    obtain ⟨publication, hpublication, h⟩ := Option.bind_eq_some_iff.mp h
    rw [← Option.some.inj h]
    exact ⟨rfl, find?_fields hpublication⟩

theorem lockSourceRow_locks (h : lockSourceRow nf tables id = some source) :
    source.id = id ∧ lockOf nf tables source.entityKind id = some source := by
  obtain ⟨kind, _, hlock⟩ := List.exists_of_findSome?_eq_some h
  obtain ⟨rfl, hid, _⟩ := lockOf_fields hlock
  exact ⟨hid, hlock⟩

/-- Rows of two kinds have two identities. -/
def DistinctIds (tables : RawTables) : Prop :=
  ∀ kind other, ∀ id ∈ tables.ids kind, id ∈ tables.ids other → kind = other

theorem lockSourceRow_of_lock (hids : DistinctIds tables)
    (h : lockOf nf tables kind id = some source) : lockSourceRow nf tables id = some source := by
  cases hfirst : lockSourceRow nf tables id with
  | none =>
    have hkind : kind ∈ sourceLocks := by cases kind <;> decide
    rw [List.findSome?_eq_none_iff.mp hfirst kind hkind] at h
    cases h
  | some other =>
    obtain ⟨_, hother⟩ := lockSourceRow_locks hfirst
    have hsame := hids _ _ id (lockOf_fields h).2.2 (lockOf_fields hother).2.2
    rw [← hsame, h] at hother
    exact hother.symm

theorem record_evidence {row : RecordSqlRow} {record : ReportRecord} (hrow : row ∈ rows.records)
    (h : Draws nf rows row record) (hnames : Names (.record record) kind id)
    (hstands : Stands tables rows kind id) :
    ∃ source, lockOf nf tables kind id = some source ∧ Evidences (.record record) kind id source := by
  cases hnames with
  | version =>
    obtain ⟨hid, hhash⟩ := h.version
    obtain ⟨version, post, hversion, hpost, hcontent, hsource⟩ := hstands row hrow hid.symm
    refine ⟨_, Option.bind_eq_some_iff.mpr ⟨version, hversion,
      Option.bind_eq_some_iff.mpr ⟨post, hpost, rfl⟩⟩, ⟨rfl, (find?_fields hversion).1, ?_, ?_⟩⟩
    · rw [hsource, ManifestValueSlice.sourceId, h.source]
    · rw [provenanceHash, recordHash, if_pos rfl, hhash, hcontent]
  | analysis hid =>
    obtain ⟨hrowId, houtput⟩ := h.analysis id hid
    obtain ⟨analysis, post, hanalysis, hpost, hhash, hsource⟩ := hstands row hrow hrowId
    refine ⟨_, Option.bind_eq_some_iff.mpr ⟨analysis, hanalysis,
      Option.bind_eq_some_iff.mpr ⟨post, hpost, rfl⟩⟩, ⟨rfl, (find?_fields hanalysis).1, ?_, ?_⟩⟩
    · rw [hsource, ManifestValueSlice.sourceId, h.source]
    · rw [provenanceHash, recordHash, if_pos hid, houtput, hhash]
  | @postMatch _ item hitem =>
    -- the verifier takes the first match with the identity
    obtain ⟨first, hfirst⟩ : ∃ first, record.ruleMatches.find?
        (fun other => other.matchId = item.matchId) = some first :=
      Option.isSome_iff_exists.mp (List.find?_isSome.mpr ⟨item, hitem, decide_eq_true rfl⟩)
    have hfirstId : first.matchId = item.matchId := by
      simpa using List.find?_some hfirst
    obtain ⟨drawn, hdrawn, hid, hhash⟩ := h.matched first (List.mem_of_find?_eq_some hfirst)
    obtain ⟨matched, post, hmatched, hpost, hsame, hsource⟩ :=
      hstands row hrow drawn hdrawn (hid.trans hfirstId)
    refine ⟨_, Option.bind_eq_some_iff.mpr ⟨matched, hmatched,
      Option.bind_eq_some_iff.mpr ⟨post, hpost, rfl⟩⟩, ⟨rfl, (find?_fields hmatched).1, ?_, ?_⟩⟩
    · rw [hsource, ManifestValueSlice.sourceId, h.source]
    · rw [provenanceHash, recordHash, hfirst, hsame, hhash]
      rfl
  | engagement hid =>
    obtain ⟨hrowId, hobserved⟩ := h.engagement id hid
    obtain ⟨engagement, post, hengagement, hpost, hhash, hsource⟩ := hstands row hrow hrowId
    refine ⟨_, Option.bind_eq_some_iff.mpr ⟨engagement, hengagement,
      Option.bind_eq_some_iff.mpr ⟨post, hpost, rfl⟩⟩, ⟨rfl, (find?_fields hengagement).1, ?_, ?_⟩⟩
    · rw [hsource, ManifestValueSlice.sourceId, h.source]
    · rw [provenanceHash, recordHash, if_pos hid, hobserved, hhash]
  | publication =>
    obtain ⟨hid, hhash⟩ := h.publication
    have hpublication := hstands.1 row hrow hid.symm
    refine ⟨_, Option.bind_eq_some_iff.mpr ⟨row.publication, hpublication, rfl⟩,
      ⟨rfl, hid.symm, ?_, ?_⟩⟩
    · rw [ManifestValueSlice.sourceId, h.source]
      rfl
    · rw [provenanceHash, recordHash, if_pos rfl, hhash]

theorem slice_evidence {payload : ReportInputManifest} {slice : ManifestValueSlice}
    (h : AssembledFrom nf rows payload) (hslice : Contains payload slice)
    (hnames : Names slice kind id) (hstands : Stands tables rows kind id) :
    ∃ source, lockOf nf tables kind id = some source ∧ Evidences slice kind id source := by
  cases slice with
  | record record =>
    obtain ⟨row, hrow, hdrawn⟩ := h.records record hslice
    exact record_evidence hrow hdrawn hnames hstands
  | coverage item =>
    cases hnames with
    | cutoff hid =>
      obtain ⟨row, hrow, hrowId, hsource, hhash⟩ := h.coverage item hslice id hid
      have hpublication := hstands.2 row hrow hrowId
      refine ⟨_, Option.bind_eq_some_iff.mpr ⟨row.fingerprint, hpublication, rfl⟩,
        ⟨rfl, hrowId, congrArg some hsource, ?_⟩⟩
      rw [provenanceHash, if_pos ⟨rfl, hid⟩, hhash]

end Slices

section References
variable {codecs : Codecs} {casefold : Text → Text}

/-- An item as it was written, less the live links that retention has switched since. -/
structure Switched (written item : ReportInputManifestItem) : Prop where
  kept : { item with
    livePostVersionId := written.livePostVersionId
    postVersionTombstoneId := written.postVersionTombstoneId
    liveAnalysisId := written.liveAnalysisId
    liveEngagementObservationId := written.liveEngagementObservationId
    liveSourcePublicationManifestId := written.liveSourcePublicationManifestId } = written
  live : ∀ kind, ∀ id ∈ liveLink item kind, liveLink written kind = some id

/-- The tables hold of a manifest what was written of it. -/
structure Stored (nf : NormalForm) (ids : NewIds) (payload : ReportInputManifest)
    (manifestId : UUID) (tables : RawTables) : Prop where
  distinct : ((addManifestItems nf ids payload manifestId).1.map ReportInputManifestItem.id).Nodup
  items : ∀ item ∈ tables.items, item.manifestId = manifestId →
    ∃ written ∈ (addManifestItems nf ids payload manifestId).1, Switched written item
  links : ∀ link ∈ tables.itemMatches, ∀ item ∈ tables.items, item.id = link.manifestItemId →
    item.manifestId = manifestId → link ∈ (addManifestItems nf ids payload manifestId).2

/-- The item of the payload that a row is of. -/
structure SliceOf (nf : NormalForm) (payload : ReportInputManifest)
    (item : ReportInputManifestItem) (slice : ManifestValueSlice) : Prop where
  contained : Contains payload slice
  found : ∀ reference : ManifestItemReference, reference.itemKind = item.itemKind →
    reference.role = item.role → reference.ordinal = item.ordinal →
      manifestValueSlice payload reference = .ok slice
  source : item.sourceId = slice.sourceId
  value : item.valueSliceSha256 = sha256 (canonicalBytes nf slice.json)

variable (report : WrittenReport codecs casefold) {ids : NewIds} {manifestId : UUID}
variable {item written : ReportInputManifestItem}

theorem recordItem_slice {record : ReportRecord} (hrecord : record ∈ report.payload.records)
    (itemId : UUID) : SliceOf codecs.nf report.payload
      (recordItem codecs.nf manifestId itemId record) (.record record) where
  contained := hrecord
  found := by
    intro reference hkind hrole hordinal
    have hmem : record ∈ report.recordTable := hrecord
    have hselected : report.payload.records.filter (fun other =>
        other.role = reference.role ∧ (other.ordinal : ℤ) = reference.ordinal) = [record] := by
      refine Table.rows_filter_unique hmem fun other hother => ?_
      rw [hrole, hordinal]
      constructor
      · rintro ⟨hsame, hplace⟩
        refine Table.eq_of_key hother hmem ?_
        rw [recordPlace, recordPlace, hsame, Int.natCast_inj.mp hplace]
        rfl
      · rintro rfl
        exact ⟨rfl, rfl⟩
    rw [manifestValueSlice, hkind]
    dsimp only [recordItem]
    rw [hselected]
    rfl
  source := rfl
  value := rfl

theorem coverageItem_slice {payload : ReportInputManifest} {nf : NormalForm} {coverage : SourceCoverage}
    {role : ReportRole} {ordinal : ℕ}
    (hcoverage : (coverage, ordinal) ∈ (coverageOf payload role).zipIdx) (itemId : UUID) :
    SliceOf nf payload (coverageItem nf manifestId itemId coverage ordinal) (.coverage coverage) where
  contained := (List.mem_filter.mp (List.fst_mem_of_mem_zipIdx hcoverage)).1
  found := by
    intro reference hkind hrole hordinal
    have hsame : coverage.role = role :=
      of_decide_eq_true (List.mem_filter.mp (List.fst_mem_of_mem_zipIdx hcoverage)).2
    have hfound : (coverageOf payload role)[ordinal]? = some coverage :=
      List.mk_mem_zipIdx_iff_getElem?.mp hcoverage
    have hrole : reference.role = role := hrole.trans hsame
    have hordinal : reference.ordinal = (ordinal : ℤ) := hordinal
    rw [coverageOf] at hfound
    rw [manifestValueSlice, hkind]
    dsimp only [coverageItem]
    rw [hrole, hordinal, if_pos (Int.natCast_nonneg _), Int.toNat_natCast, hfound]
    rfl
  source := rfl
  value := rfl

theorem Switched.slice (h : Switched written item) {payload : ReportInputManifest} {nf : NormalForm}
    {slice : ManifestValueSlice} (hslice : SliceOf nf payload written slice) :
    SliceOf nf payload item slice := by
  have hkind := congrArg ReportInputManifestItem.itemKind h.kept
  have hrole := congrArg ReportInputManifestItem.role h.kept
  have hordinal := congrArg ReportInputManifestItem.ordinal h.kept
  refine ⟨hslice.contained, fun reference h1 h2 h3 => ?_, ?_, ?_⟩
  · refine hslice.found reference (h1.trans hkind) (h2.trans hrole) (h3.trans ?_)
    exact congrArg Int.ofNat hordinal
  · exact (congrArg ReportInputManifestItem.sourceId h.kept).trans hslice.source
  · exact (congrArg ReportInputManifestItem.valueSliceSha256 h.kept).trans hslice.value

theorem mem_addManifestItems {payload : ReportInputManifest} {nf : NormalForm} :
    written ∈ (addManifestItems nf ids payload manifestId).1 ↔
      (∃ record ∈ payload.records,
        written = recordItem nf manifestId (ids.ofRecord record) record) ∨
      ∃ role coverage ordinal, (coverage, ordinal) ∈ (coverageOf payload role).zipIdx ∧
        written = coverageItem nf manifestId (ids.ofCoverage coverage) coverage ordinal := by
  rw [addManifestItems, List.mem_append, List.mem_map, List.mem_flatMap]
  refine or_congr ⟨?_, ?_⟩ ⟨?_, ?_⟩
  · rintro ⟨record, hrecord, rfl⟩
    exact ⟨record, hrecord, rfl⟩
  · rintro ⟨record, hrecord, rfl⟩
    exact ⟨record, hrecord, rfl⟩
  · rintro ⟨role, _, hrole⟩
    obtain ⟨⟨coverage, ordinal⟩, hmem, rfl⟩ := List.mem_map.mp hrole
    exact ⟨role, coverage, ordinal, hmem, rfl⟩
  · rintro ⟨role, coverage, ordinal, hmem, rfl⟩
    have hroles : role ∈ [ReportRole.primary, .comparison] := by cases role <;> decide
    exact ⟨role, hroles, List.mem_map.mpr ⟨(coverage, ordinal), hmem, rfl⟩⟩

theorem written_names {kind : TombstoneEntityKind} {id : UUID}
    (hwritten : written ∈ (addManifestItems codecs.nf ids report.payload manifestId).1)
    (hlink : liveLink written kind = some id) :
    ∃ slice, SliceOf codecs.nf report.payload written slice ∧ Names slice kind id := by
  rcases mem_addManifestItems.mp hwritten with ⟨record, hrecord, rfl⟩ |
    ⟨role, coverage, ordinal, hcoverage, rfl⟩
  · refine ⟨.record record, recordItem_slice report hrecord _, ?_⟩
    cases kind with
    | postVersion =>
      rw [← Option.some.inj hlink]
      exact .version record
    | analysis => exact .analysis hlink
    | postMatch => cases hlink
    | engagement => exact .engagement hlink
    | sourceManifest =>
      rw [← Option.some.inj hlink]
      exact .publication record
  · refine ⟨.coverage coverage, coverageItem_slice hcoverage _, ?_⟩
    cases kind with
    | postVersion => cases hlink
    | analysis => cases hlink
    | postMatch => cases hlink
    | engagement => cases hlink
    | sourceManifest => exact .cutoff hlink

theorem reference_names {tables : RawTables} {kind : TombstoneEntityKind} {id : UUID}
    (hstored : Stored codecs.nf ids report.payload manifestId tables)
    {row : UUID × ReportInputManifestItem} (hrow : row ∈ referenceRows tables kind id)
    (hmanifest : row.2.manifestId = manifestId) :
    ∃ slice, SliceOf codecs.nf report.payload row.2 slice ∧ Names slice kind id := by
  have hrow := mem_sortBy.mp hrow
  have hlinked : ∀ item ∈ tables.items, item.manifestId = manifestId →
      liveLink item kind = some id →
      ∃ slice, SliceOf codecs.nf report.payload item slice ∧ Names slice kind id := by
    intro item hitem hof hlink
    obtain ⟨written, hwritten, hswitched⟩ := hstored.items item hitem hof
    obtain ⟨slice, hslice, hnames⟩ := written_names report hwritten (hswitched.live kind id hlink)
    exact ⟨slice, hswitched.slice hslice, hnames⟩
  have hcolumn : row ∈ (tables.items.rows.filter fun item => liveLink item kind = some id).map
      (fun item => (item.id, item)) →
      ∃ slice, SliceOf codecs.nf report.payload row.2 slice ∧ Names slice kind id := by
    intro hrow
    obtain ⟨item, hitem, rfl⟩ := List.mem_map.mp hrow
    obtain ⟨hmem, hlink⟩ := List.mem_filter.mp hitem
    exact hlinked item hmem hmanifest (of_decide_eq_true hlink)
  cases kind with
  | postMatch =>
    obtain ⟨link, hlink, hjoined⟩ := List.mem_filterMap.mp hrow
    split at hjoined
    · next hid =>
      obtain ⟨item, hitem, rfl⟩ := Option.map_eq_some_iff.mp hjoined
      obtain ⟨hmem, hitemId⟩ := Table.find?_eq_some.mp hitem
      obtain ⟨record, hrecord, hadded⟩ := List.mem_flatMap.mp
        (hstored.links link hlink item hmem hitemId hmanifest)
      obtain ⟨matched, hmatched, rfl⟩ := List.mem_map.mp hadded
      obtain ⟨written, hwritten, hswitched⟩ := hstored.items item hmem hmanifest
      -- the item of the link is that of the record that the match was written with
      have hsame : written = recordItem codecs.nf manifestId (ids.ofRecord record) record :=
        List.inj_on_of_nodup_map hstored.distinct hwritten
          (mem_addManifestItems.mpr (.inl ⟨record, hrecord, rfl⟩))
          ((congrArg ReportInputManifestItem.id hswitched.kept).symm.trans hitemId)
      rw [hsame] at hswitched
      refine ⟨.record record, hswitched.slice (recordItem_slice report hrecord _), ?_⟩
      rw [← hid]
      exact .postMatch hmatched
    · cases hjoined
  | postVersion => exact hcolumn hrow
  | analysis => exact hcolumn hrow
  | engagement => exact hcolumn hrow
  | sourceManifest => exact hcolumn hrow

theorem verifyReference_of {payload : ReportInputManifest} {reference : ManifestItemReference}
    {source : SourceEntity} {slice : ManifestValueSlice}
    (hslice : manifestValueSlice payload reference = .ok slice)
    (hevidence : Evidences slice source.entityKind source.id source)
    (hid : reference.sourceEntityId = source.id)
    (hhash : reference.sourceEntityHash = source.sourceEntityHash)
    (hsource : reference.sourceId = slice.sourceId)
    (hvalue : reference.valueSliceSha256 = sha256 (canonicalBytes codecs.nf slice.json)) :
    verifyReference codecs payload reference source = .ok () := by
  have hidentities : source.sourceId.isSome ∧ reference.sourceEntityId = source.id ∧
      reference.sourceEntityHash = source.sourceEntityHash ∧
      some reference.sourceId = source.sourceId ∧ source.sourceId = some slice.sourceId ∧
      provenanceHash slice source.entityKind source.id = some source.sourceEntityHash :=
    ⟨by rw [hevidence.sourceId]; rfl, hid, hhash, by rw [hevidence.sourceId, hsource],
      hevidence.sourceId, hevidence.hash⟩
  rw [verifyReference, hslice, ok_bind]
  exact require_bind.mpr ⟨hidentities, require_eq_ok.mpr hvalue.symm⟩

/-- The entities that the written rows link to. -/
def Links (written : List ReportInputManifestItem × List ReportInputManifestItemMatch)
    (kind : TombstoneEntityKind) (id : UUID) : Prop :=
  (∃ item ∈ written.1, liveLink item kind = some id) ∨
    kind = .postMatch ∧ ∃ link ∈ written.2, link.postMatchId = id

theorem links_names {kind : TombstoneEntityKind} {id : UUID}
    (h : Links (addManifestItems codecs.nf ids report.payload manifestId) kind id) :
    ∃ slice, Contains report.payload slice ∧ Names slice kind id := by
  rcases h with ⟨item, hitem, hlink⟩ | ⟨rfl, link, hlink, rfl⟩
  · obtain ⟨slice, hslice, hnames⟩ := written_names report hitem hlink
    exact ⟨slice, hslice.contained, hnames⟩
  · obtain ⟨record, hrecord, hadded⟩ := List.mem_flatMap.mp hlink
    obtain ⟨matched, hmatched, rfl⟩ := List.mem_map.mp hadded
    exact ⟨.record record, hrecord, .postMatch hmatched⟩

/-- What the writer records of a report is what the verifier computes: a live link leads to a
    row of its kind, identity and hash, and every reference of the manifest to a row that
    stands as it was read is accepted. -/
theorem written_links_attested (tables : RawTables) (manifests : Table RetainedManifest.id)
    (hstored : Stored codecs.nf ids report.payload report.request.manifestId tables)
    (hmanifest : manifests.find? report.request.manifestId = some report.retained)
    (hids : DistinctIds tables) :
    (∀ kind id, Links (addManifestItems codecs.nf ids report.payload report.request.manifestId) kind id →
      Stands tables report.rows kind id → ∃ slice source, Contains report.payload slice ∧
        lockSourceRow codecs.nf tables id = some source ∧ Evidences slice kind id source) ∧
    ∀ source, lockSourceRow codecs.nf tables source.id = some source →
      Stands tables report.rows source.entityKind source.id →
      ∀ reference ∈ (lockReferenceRows tables source).references,
        reference.manifestId = report.request.manifestId →
          Attested codecs manifests source reference := by
  refine ⟨fun kind id hlinks hstands => ?_, fun source hlocked hstands reference hreference hof => ?_⟩
  · obtain ⟨slice, hslice, hnames⟩ := links_names report hlinks
    obtain ⟨source, hlock, hevidence⟩ := slice_evidence report.payload_from hslice hnames hstands
    exact ⟨slice, source, hslice, lockSourceRow_of_lock hids hlock, hevidence⟩
  · obtain ⟨row, hrow, rfl⟩ := List.mem_map.mp hreference
    obtain ⟨slice, hslice, hnames⟩ := reference_names report hstored hrow hof
    obtain ⟨other, hlock, hevidence⟩ :=
      slice_evidence report.payload_from hslice.contained hnames hstands
    obtain ⟨_, hsame⟩ := lockSourceRow_locks hlocked
    obtain rfl := Option.some.inj (hlock.symm.trans hsame)
    exact ⟨report.retained, report.payload, by rw [hof, hmanifest], report.retained_verified,
      verifyReference_of (hslice.found _ rfl rfl rfl) hevidence rfl rfl hslice.source hslice.value⟩

end References

section Sample
open AssemblyAcceptance (sampleMatch samplePolicy sampleRow sampleRows)
open ReportAccounting (projectReport_of sampleDigest sampleForm sampleGzip sampleTime)

def linkedRow : RecordSqlRow :=
  { sampleRow with analysisId := some 2, engagementObservationId := some 4, publicationId := 5 }

def linkedRows : ReportInputQueryRows :=
  { sampleRows with
    records := [linkedRow]
    matched := [{ sampleMatch with matchId := 3 }]
    publications := [⟨linkedRow.publication, sampleTime⟩] }

def linkedIds : NewIds where
  ofRecord _ := 1
  ofCoverage item := if item.role = .primary then 2 else 3
  ofMatch _ _ := 1

def linkedWrites (payload : ReportInputManifest) :
    Option (List ReportInputManifestItem × List ReportInputManifestItemMatch) :=
  (seoulReportWindows payload.reportDateSeoul).map fun windows =>
    addManifestItems sampleForm linkedIds ((settledManifest payload windows).mapText sampleForm) 7

theorem linkedRows_evaluate :
    ∃ payload ∈ (projectReportInput sampleForm id samplePolicy linkedRows).toOption,
      verifyCoverage payload = .ok () ∧ payload.records.length = 1 ∧
      ∃ written ∈ linkedWrites payload,
        written.1.map (fun item => (item.id, item.manifestId, item.livePostVersionId)) =
          [(1, 7, some 1), (2, 7, none), (3, 7, none)] ∧
        written.2.map ReportInputManifestItemMatch.id = [1] := by
  decide +kernel

theorem sampleForm_fixes (payload : ReportInputManifest) : payload.mapText sampleForm = payload := by
  have hanalysis : ∀ analysis : AnalysisSnapshot, analysis.mapText sampleForm = analysis := by
    rintro ⟨⟨⟩, hvalid⟩
    simp [AnalysisSnapshot.mapText, AnalysisValues.mapText, sampleForm]
  have hrecord : ∀ record : ReportRecord, record.mapText sampleForm = record := fun record =>
    record_inForm_iff.mpr ⟨rfl, hanalysis _, List.map_id _, List.map_id _, List.map_id _⟩
  exact inForm_iff.mpr ⟨rfl, rfl, rfl, rfl, List.map_id _, List.map_id _, List.map_id _,
    map_eq_self_iff.mpr fun record _ => hrecord record, List.map_id _⟩

/-- A report of the rows, and what is written of it. -/
theorem linkedReport : ∃ report : WrittenReport sampleCodecs id,
    report.rows = linkedRows ∧ report.request.manifestId = 7 ∧
    (addManifestItems sampleForm linkedIds report.payload 7).1.map
        (fun item => (item.id, item.manifestId, item.livePostVersionId)) =
      [(1, 7, some 1), (2, 7, none), (3, 7, none)] ∧
    (addManifestItems sampleForm linkedIds report.payload 7).2.map ReportInputManifestItemMatch.id =
      [1] := by
  obtain ⟨payload, hpayload, hverified, hlength, written, hwritten, hitems, hlinks⟩ :=
    linkedRows_evaluate
  have hassembled : projectReportInput sampleForm id samplePolicy linkedRows = .ok payload := by
    cases hproject : projectReportInput sampleForm id samplePolicy linkedRows with
    | error e => rw [hproject] at hpayload; cases hpayload
    | ok found => rw [hproject] at hpayload; rw [Option.some.inj hpayload]
  obtain ⟨hvalid, _⟩ := projectReportInput_from hassembled
  have hfits : payload.records.length < 2 ^ 53 := hlength.trans_lt (by decide)
  obtain ⟨build, hbuild⟩ := @projectReport_of sampleForm sampleGzip _ hvalid hverified hfits
  obtain ⟨request, hrequested, hmanifest⟩ : ∃ request,
      appendReportRequest sampleForm sampleGzip ⟨payload, 0, 7, 7, 7⟩ = .ok request ∧
        request.manifestId = 7 :=
    ⟨_, bind_eq_ok.mpr ⟨build, hbuild, rfl⟩, rfl⟩
  obtain ⟨read, projected, hread⟩ := (@Reconciled.sound sampleCodecs request
    ⟨⟨payload, 0, 7, 7, 7⟩, hvalid, sampleForm_fixes payload, hfits.le, hrequested⟩).verified
  let report : WrittenReport sampleCodecs id :=
    ⟨samplePolicy, linkedRows, ⟨payload, 0, 7, 7, 7⟩, request, read, projected, hassembled,
      hrequested, hread⟩
  obtain ⟨windows, hwindows, _, hcomposed⟩ := report.payload_composed
  have hwritten : addManifestItems sampleForm linkedIds report.payload 7 = written := by
    rw [hcomposed]
    have hmapped : linkedWrites payload = some (addManifestItems sampleForm linkedIds
        ((settledManifest payload windows).mapText sampleForm) 7) :=
      congrArg (Option.map _) hwindows
    exact Option.some.inj (hmapped.symm.trans hwritten)
  exact ⟨report, rfl, hmanifest, by rw [hwritten, hitems], by rw [hwritten, hlinks]⟩

def linkedId : TombstoneEntityKind → UUID
  | .postVersion => 1
  | .analysis => 2
  | .postMatch => 3
  | .engagement => 4
  | .sourceManifest => 5

def linkedTables (written : List ReportInputManifestItem × List ReportInputManifestItemMatch)
    (hitems : (written.1.map ReportInputManifestItem.id).Nodup)
    (hlinks : (written.2.map ReportInputManifestItemMatch.id).Nodup) : RawTables where
  posts := ⟨[⟨1, 1, 0⟩], List.nodup_singleton _⟩
  versions := ⟨[⟨1, 1, sampleDigest, 0⟩], List.nodup_singleton _⟩
  analyses := ⟨[⟨2, 1, sampleDigest, 0⟩], List.nodup_singleton _⟩
  postMatches := ⟨[⟨3, 1, sampleDigest, 0⟩], List.nodup_singleton _⟩
  engagements := ⟨[⟨4, 1, sampleDigest, 0⟩], List.nodup_singleton _⟩
  publications := ⟨[linkedRow.publication], List.nodup_singleton _⟩
  items := ⟨written.1, hitems⟩
  itemMatches := ⟨written.2, hlinks⟩

theorem linkedTables_distinct {written : List ReportInputManifestItem × List ReportInputManifestItemMatch}
    {hitems : (written.1.map ReportInputManifestItem.id).Nodup}
    {hlinks : (written.2.map ReportInputManifestItemMatch.id).Nodup} :
    DistinctIds (linkedTables written hitems hlinks) := by
  have hids : ∀ kind, (linkedTables written hitems hlinks).ids kind = [linkedId kind] := by
    intro kind
    cases kind <;> rfl
  intro kind other id hid hother
  rw [hids, List.mem_singleton] at hid hother
  subst hid
  revert hother
  cases kind <;> cases other <;> decide

theorem written_links_attested_sample : ∃ (report : WrittenReport sampleCodecs id) (tables : RawTables)
    (manifests : Table RetainedManifest.id) (source : SourceEntity) (reference : ManifestItemReference),
    lockSourceRow sampleForm tables source.id = some source ∧
      reference ∈ (lockReferenceRows tables source).references ∧
      reference.manifestId = report.request.manifestId ∧
      Attested sampleCodecs manifests source reference := by
  obtain ⟨report, hrows, hmanifest, hitems, hlinks⟩ := linkedReport
  have hitemIds : ((addManifestItems sampleForm linkedIds report.payload 7).1.map
      ReportInputManifestItem.id) = [1, 2, 3] := by
    have hfirst := congrArg (List.map Prod.fst) hitems
    rwa [List.map_map] at hfirst
  have hdistinct : ((addManifestItems sampleForm linkedIds report.payload 7).1.map
      ReportInputManifestItem.id).Nodup := by
    rw [hitemIds]
    decide
  have hlinkIds : ((addManifestItems sampleForm linkedIds report.payload 7).2.map
      ReportInputManifestItemMatch.id).Nodup := by
    rw [hlinks]
    exact List.nodup_singleton _
  let tables := linkedTables (addManifestItems sampleForm linkedIds report.payload 7) hdistinct hlinkIds
  let manifests : Table RetainedManifest.id := ⟨[report.retained], List.nodup_singleton _⟩
  have hstored : Stored sampleForm linkedIds report.payload report.request.manifestId tables := by
    rw [hmanifest]
    exact ⟨hdistinct, fun item hitem _ => ⟨item, hitem, rfl, fun _ _ h => h⟩,
      fun link hlink _ _ _ _ => hlink⟩
  obtain ⟨item, hitem, hversion⟩ : ∃ item ∈ (addManifestItems sampleForm linkedIds report.payload 7).1,
      (item.id, item.manifestId, item.livePostVersionId) = (1, 7, some 1) := by
    have hmem : ((1, 7, some 1) : UUID × UUID × Option UUID) ∈
        (addManifestItems sampleForm linkedIds report.payload 7).1.map
          (fun item => (item.id, item.manifestId, item.livePostVersionId)) := by
      rw [hitems]
      exact List.mem_cons_self
    exact List.mem_map.mp hmem
  have hreference : referenceOf ⟨1, .postVersion, sampleDigest, some 1, some 0, 0⟩ (item.id, item) ∈
      (lockReferenceRows tables ⟨1, .postVersion, sampleDigest, some 1, some 0, 0⟩).references := by
    refine List.mem_map_of_mem (mem_sortBy.mpr (List.mem_map.mpr ⟨item, ?_, rfl⟩))
    exact List.mem_filter.mpr ⟨hitem, decide_eq_true (congrArg (·.2.2) hversion)⟩
  have hof : item.manifestId = report.request.manifestId :=
    (congrArg (·.2.1) hversion).trans hmanifest.symm
  refine ⟨report, tables, manifests, _, _, rfl, hreference, hof, ?_⟩
  refine (written_links_attested report tables manifests hstored ?_ linkedTables_distinct).2 _ rfl ?_
    _ hreference hof
  · exact Table.find?_of_mem (a := report.retained) (List.mem_singleton.mpr rfl)
  · rw [hrows]
    intro row hrow _
    obtain rfl := List.mem_singleton.mp hrow
    exact ⟨_, _, rfl, rfl, rfl, rfl⟩

end Sample

end PredictionMarketMonitor.ReportLinks
