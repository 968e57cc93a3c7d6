import PredictionMarketMonitor.KeySorting
import PredictionMarketMonitor.ReportInputs

set_option autoImplicit false

/-!
# Report input manifests

`app/reporting/manifest_schema.py` and `manifest.py`: the payload of a report
input manifest, its validators, its canonical order and its retained envelope.
-/
namespace PredictionMarketMonitor.ReportManifest

open CanonicalJson CivilTime CollectionBase FallibleSteps KeySorting ReportInputs Sha256

/-- Why an input is refused: a value that a schema rejects, a date whose windows
    leave the range of `datetime`, an absent mapping, a damaged stream, or a
    retained artifact that does not verify. -/
inductive ReportFailure
  | schema (e : SchemaError)
  | validationError
  | overflowError
  | keyError
  | zlibError
  | manifestIntegrity (reason : String)
  | manifestCorrupt (reason : String)
deriving DecidableEq

structure RuleSetVersion where
  ruleSetId : Text
  version : Text
  rulesHash : Digest
deriving DecidableEq

namespace RuleSetVersion

def json (item : RuleSetVersion) : Json :=
  .object [
    ("rule_set_id", .str item.ruleSetId),
    ("rules_hash", Digest.json item.rulesHash),
    ("version", .str item.version)]

def mapText (f : Text → Text) (item : RuleSetVersion) : RuleSetVersion :=
  { item with ruleSetId := f item.ruleSetId, version := f item.version }

end RuleSetVersion

structure AnalysisVersionTuple where
  promptVersion : Text
  modelVersion : Text
  schemaVersion : Text
deriving DecidableEq

namespace AnalysisVersionTuple

def json (item : AnalysisVersionTuple) : Json :=
  .object [
    ("model_version", .str item.modelVersion),
    ("prompt_version", .str item.promptVersion),
    ("schema_version", .str item.schemaVersion)]

def mapText (f : Text → Text) (item : AnalysisVersionTuple) : AnalysisVersionTuple :=
  ⟨f item.promptVersion, f item.modelVersion, f item.schemaVersion⟩

end AnalysisVersionTuple

-- literal fields, which admit these values only
namespace FormulaConstants

def completeCoverageNumerator : ℕ := 85
def completeCoverageDenominator : ℕ := 100
def highlightLimit : ℕ := 5
def risingKeywordLimit : ℕ := 10
def risingKeywordMinPrimaryCount : ℕ := 3

def json : Json :=
  .object [
    ("complete_coverage_denominator", .ofNat completeCoverageDenominator),
    ("complete_coverage_numerator", .ofNat completeCoverageNumerator),
    ("highlight_limit", .ofNat highlightLimit),
    ("missing_analysis_semantics", .ofString "excluded_not_neutral"),
    ("rising_keyword_limit", .ofNat risingKeywordLimit),
    ("rising_keyword_min_primary_count", .ofNat risingKeywordMinPrimaryCount),
    ("zero_denominator", .ofString "null")]

end FormulaConstants

structure GoverningDefinitions where
  formulaVersion : Text
  formulaHash : Digest
  metricVersion : Text
  metricHash : Digest
  categoryVersion : Text
  categoryHash : Digest
  ruleSets : List RuleSetVersion
  analysisVersions : List AnalysisVersionTuple
deriving DecidableEq

namespace GoverningDefinitions

def json (definitions : GoverningDefinitions) : Json :=
  .object [
    ("analysis_versions", .list (definitions.analysisVersions.map AnalysisVersionTuple.json)),
    ("category_hash", Digest.json definitions.categoryHash),
    ("category_version", .str definitions.categoryVersion),
    ("constants", FormulaConstants.json),
    ("formula_hash", Digest.json definitions.formulaHash),
    ("formula_version", .str definitions.formulaVersion),
    ("metric_hash", Digest.json definitions.metricHash),
    ("metric_version", .str definitions.metricVersion),
    ("rule_sets", .list (definitions.ruleSets.map RuleSetVersion.json))]

def mapText (f : Text → Text) (definitions : GoverningDefinitions) : GoverningDefinitions :=
  { definitions with
    formulaVersion := f definitions.formulaVersion
    metricVersion := f definitions.metricVersion
    categoryVersion := f definitions.categoryVersion
    ruleSets := definitions.ruleSets.map (RuleSetVersion.mapText f)
    analysisVersions := definitions.analysisVersions.map (AnalysisVersionTuple.mapText f) }

end GoverningDefinitions

inductive InputKind
  | rule | topic
deriving DecidableEq

def InputKind.value : InputKind → String
  | .rule => "rule"
  | .topic => "topic"

abbrev MappingKey := InputKind × Text × Text × Text

def MappingKey.mapText (f : Text → Text) (key : MappingKey) : MappingKey :=
  (key.1, f key.2.1, f key.2.2.1, f key.2.2.2)

structure CategoryMappingSnapshot where
  inputKind : InputKind
  ruleOrTopicKey : Text
  version : Text
  normalizedValue : Text
  category : Text
deriving DecidableEq

namespace CategoryMappingSnapshot

def key (item : CategoryMappingSnapshot) : MappingKey :=
  (item.inputKind, item.ruleOrTopicKey, item.version, item.normalizedValue)

def json (item : CategoryMappingSnapshot) : Json :=
  .object [
    ("category", .str item.category),
    ("input_kind", .ofString item.inputKind.value),
    ("normalized_value", .str item.normalizedValue),
    ("rule_or_topic_key", .str item.ruleOrTopicKey),
    ("version", .str item.version)]

def mapText (f : Text → Text) (item : CategoryMappingSnapshot) : CategoryMappingSnapshot :=
  { item with
    ruleOrTopicKey := f item.ruleOrTopicKey
    version := f item.version
    normalizedValue := f item.normalizedValue
    category := f item.category }

end CategoryMappingSnapshot

def ruleMappingKey (item : RuleMatchSnapshot) : MappingKey :=
  (.rule, item.ruleId, item.ruleSetVersion, item.normalizedPhrase)

def topicMappingKey (item : TopicMatchSnapshot) : MappingKey :=
  (.topic, item.topicKey, item.analysisSchemaVersion, item.normalizedValue)

/-- The dict of mappings by key; a later mapping replaces an earlier one. -/
def mappingByKey (mappings : List CategoryMappingSnapshot) (key : MappingKey) :
    Option CategoryMappingSnapshot :=
  mappings.reverse.find? (fun item => item.key = key)

structure ReportInputManifest where
  reportDateSeoul : Date
  windows : ReportWindow × ReportWindow
  sourceScopeVersion : Text
  definitions : GoverningDefinitions
  categoryMappings : List CategoryMappingSnapshot
  records : List ReportRecord
  sourceCoverage : List SourceCoverage
deriving DecidableEq

def schemaName : String := "report-input-manifest/v1"

namespace ReportInputManifest

def json (payload : ReportInputManifest) : Json :=
  .object [
    ("category_mappings", .list (payload.categoryMappings.map CategoryMappingSnapshot.json)),
    ("definitions", payload.definitions.json),
    ("records", .list (payload.records.map ReportRecord.json)),
    ("report_date_seoul", payload.reportDateSeoul.json),
    ("schema", .ofString schemaName),
    ("source_coverage", .list (payload.sourceCoverage.map (fun item => item.json))),
    ("source_scope_version", .str payload.sourceScopeVersion),
    ("windows", .list [payload.windows.1.json, payload.windows.2.json])]

def mapText (f : Text → Text) (payload : ReportInputManifest) : ReportInputManifest :=
  { payload with
    sourceScopeVersion := f payload.sourceScopeVersion
    definitions := payload.definitions.mapText f
    categoryMappings := payload.categoryMappings.map (CategoryMappingSnapshot.mapText f)
    records := payload.records.map (ReportRecord.mapText f)
    sourceCoverage := payload.sourceCoverage.map (SourceCoverage.mapText f) }

def OrdinalsFit (payload : ReportInputManifest) : Prop :=
  ∀ record ∈ payload.records, record.ordinal < 2 ^ 53

instance (payload : ReportInputManifest) : Decidable payload.OrdinalsFit :=
  inferInstanceAs (Decidable (∀ record ∈ payload.records, record.ordinal < 2 ^ 53))

/-- The dict of windows by role; the second window replaces one of the same role. -/
def windowByRole (payload : ReportInputManifest) (role : ReportRole) : Option ReportWindow :=
  [payload.windows.2, payload.windows.1].find? (fun window => window.role = role)

def PublishedInRole (windows : ReportWindows) (record : ReportRecord) : Prop :=
  let window := windows.ofRole record.role
  (window.startUtc.instant ≤ record.publishedAtUtc.instant ∧
      record.publishedAtUtc.instant < window.endUtc.instant) ∧
    record.publishedDateSeoul = window.dateSeoul

instance (windows : ReportWindows) (record : ReportRecord) :
    Decidable (PublishedInRole windows record) := by
  unfold PublishedInRole
  infer_instance

def identity (record : ReportRecord) : ReportRole × Text :=
  (record.role, UUID.str record.postVersionId)

def validateWindowsAndPublication (payload : ReportInputManifest) :
    Except ReportFailure Unit := do
  let expected ← present (seoulReportWindows payload.reportDateSeoul) .overflowError
  require (payload.windowByRole .primary = some expected.primary ∧
      payload.windowByRole .comparison = some expected.comparison)
    (.schema ⟨"manifest_windows_invalid",
      "windows must be the exact primary and preceding Seoul days"⟩)
  require ((payload.records.map identity).Nodup ∧
      ∀ record ∈ payload.records, PublishedInRole expected record)
    (.schema ⟨"manifest_record_role_invalid",
      "records must be unique and published inside their retained role"⟩)

def coverageKey (item : SourceCoverage) : ReportRole × UUID := (item.role, item.sourceId)

def validateCoverage (payload : ReportInputManifest) : Except ReportFailure Unit :=
  require (payload.sourceCoverage.map coverageKey).Nodup
    (.schema ⟨"manifest_coverage_duplicate",
      "source coverage role and source pairs must be unique"⟩)

def validatedMappings (snapshots : List CategoryMappingSnapshot) :
    Except ReportFailure (MappingKey → Option CategoryMappingSnapshot) := do
  require (snapshots.map CategoryMappingSnapshot.key).Nodup
    (.schema ⟨"manifest_category_mapping_duplicate",
      "category mapping identities must be unique"⟩)
  return mappingByKey snapshots

def requireMapping (mappings : MappingKey → Option CategoryMappingSnapshot) (key : MappingKey)
    (mappedCategory : Text) (mismatchMessage : String) : Except ReportFailure Unit := do
  let authoritative ← present (mappings key)
    (.schema ⟨"manifest_category_mapping_missing",
      "every retained rule or topic requires an exact mapping"⟩)
  require (authoritative.category = mappedCategory)
    (.schema ⟨"manifest_category_mapping_mismatch", mismatchMessage⟩)

def ruleVersions (payload : ReportInputManifest) : List (Text × Text) :=
  payload.definitions.ruleSets.map (fun item => (item.ruleSetId, item.version))

def analysisVersions (payload : ReportInputManifest) : List (Option Text × Option Text × Option Text) :=
  payload.definitions.analysisVersions.map
    (fun item => (some item.promptVersion, some item.modelVersion, some item.schemaVersion))

def validateGoverningRecord (payload : ReportInputManifest)
    (mappings : MappingKey → Option CategoryMappingSnapshot) (record : ReportRecord) :
    Except ReportFailure Unit := do
  let analysis := record.analysis
  require (analysis.state = .valid →
      (analysis.promptVersion, analysis.modelVersion, analysis.schemaVersion) ∈
        payload.analysisVersions)
    (.schema ⟨"manifest_analysis_version_unknown",
      "valid analysis must use a governing version tuple"⟩)
  record.ruleMatches.forM fun rule => do
    require ((rule.ruleSetId, rule.ruleSetVersion) ∈ payload.ruleVersions)
      (.schema ⟨"manifest_rule_version_unknown",
        "rule match must use a governing rule-set version"⟩)
    requireMapping mappings (ruleMappingKey rule) rule.mappedCategory
      "record rule category contradicts the retained mapping"
  record.topicMatches.forM fun topic =>
    requireMapping mappings (topicMappingKey topic) topic.mappedCategory
      "record topic category contradicts the retained mapping"

def validateWindowsAndRecords (payload : ReportInputManifest) : Except ReportFailure Unit := do
  payload.validateWindowsAndPublication
  payload.validateCoverage
  let mappings ← validatedMappings payload.categoryMappings
  payload.records.forM (payload.validateGoverningRecord mappings)

end ReportInputManifest

def roleRank : ReportRole → ℕ
  | .primary => 0
  | .comparison => 1

def ruleSortKey (item : RuleMatchSnapshot) : Text ×ₗ Text ×ₗ Text :=
  toLex (item.normalizedPhrase, toLex (item.ruleSetVersion, UUID.str item.matchId))

def topicSortKey (item : TopicMatchSnapshot) : Text ×ₗ Text ×ₗ Text :=
  toLex (item.normalizedValue, toLex (item.analysisSchemaVersion, item.topicKey))

def recordSortKey (record : ReportRecord) : Text ×ₗ Text :=
  toLex (UUID.str record.postVersionId, UUID.str record.sourceId)

def ruleSetSortKey (item : RuleSetVersion) : Text ×ₗ Text ×ₗ Text :=
  toLex (item.ruleSetId, toLex (item.version, Digest.hexdigest item.rulesHash))

def analysisVersionSortKey (item : AnalysisVersionTuple) : Text ×ₗ Text ×ₗ Text :=
  toLex (item.promptVersion, toLex (item.modelVersion, item.schemaVersion))

def mappingSortKey (item : CategoryMappingSnapshot) : Text ×ₗ Text ×ₗ Text ×ₗ Text :=
  toLex (item.inputKind.value.toList,
    toLex (item.normalizedValue, toLex (item.version, item.ruleOrTopicKey)))

def coverageSortKey (item : SourceCoverage) : ℕ ×ₗ Text :=
  toLex (roleRank item.role, UUID.str item.sourceId)

def uncategorized : Text := "uncategorized".toList

/-- Effective categories are derived for valid relevant analyses only. -/
def Categorized (record : ReportRecord) : Prop :=
  record.analysis.state = .valid ∧ record.analysis.relevance = some true

instance (record : ReportRecord) : Decidable (Categorized record) :=
  inferInstanceAs (Decidable (_ ∧ _))

/-- `mappings[key].category` -/
def mappedCategory (mappings : MappingKey → Option CategoryMappingSnapshot) (key : MappingKey) :
    Except ReportFailure Text := do
  let mapping ← present (mappings key) .keyError
  return mapping.category

/-- `sorted(mapped or {"uncategorized"})` -/
def sortedCategories (mapped : List Text) : List Text :=
  if mapped = [] then [uncategorized] else sortedSet mapped

def normalizeRecord (record : ReportRecord) (ordinal : ℕ)
    (mappings : MappingKey → Option CategoryMappingSnapshot) :
    Except ReportFailure ReportRecord := do
  let rules := sortBy ruleSortKey record.ruleMatches
  let topics := sortBy topicSortKey record.topicMatches
  let categories ←
    if Categorized record then do
      let fromRules ← (rules.filter (·.matchPresent)).mapM
        (fun item => mappedCategory mappings (ruleMappingKey item))
      let fromTopics ← topics.mapM (fun item => mappedCategory mappings (topicMappingKey item))
      pure (sortedCategories (fromRules ++ fromTopics))
    else pure []
  return { record with
    ordinal := ordinal
    ruleMatches := rules
    topicMatches := topics
    effectiveCategories := categories }

def orderedRecords (role : ReportRole) (records : List ReportRecord) : List ReportRecord :=
  sortBy recordSortKey (records.filter (fun record => record.role = role))

def normalizeManifest (payload : ReportInputManifest) :
    Except ReportFailure ReportInputManifest := do
  let mappings := mappingByKey payload.categoryMappings
  let records ← [ReportRole.primary, .comparison].mapM fun role =>
    (orderedRecords role payload.records).zipIdx.mapM fun (record, ordinal) =>
      normalizeRecord record ordinal mappings
  let windows ← present (seoulReportWindows payload.reportDateSeoul) .overflowError
  return { payload with
    windows := (windows.primary, windows.comparison)
    definitions := { payload.definitions with
      ruleSets := sortBy ruleSetSortKey payload.definitions.ruleSets
      analysisVersions := sortBy analysisVersionSortKey payload.definitions.analysisVersions }
    categoryMappings := sortBy mappingSortKey payload.categoryMappings
    records := records.flatten
    sourceCoverage := sortBy coverageSortKey payload.sourceCoverage }

/-- How `gzip.decompress` fails: with `EOFError` or `OSError`, or with `zlib.error`. -/
inductive GzipError
  | truncated | damaged
deriving DecidableEq

structure Gzip where
  compress : Bytes → Bytes
  decompress : Bytes → Except GzipError Bytes
  decompress_compress : ∀ bytes, decompress (compress bytes) = .ok bytes

/-- Structural decoding of manifest text by the schema library: the text of a
    value decodes to it when its ordinals fit. -/
structure ManifestDecoder where
  decode : Bytes → Option ReportInputManifest
  decode_json : ∀ payload : ReportInputManifest,
    decode (encodeText (render payload.json)) = if payload.OrdinalsFit then some payload else none

inductive ManifestCodec
  | gzip
deriving DecidableEq

structure ManifestEnvelope where
  codec : ManifestCodec
  compressedPayload : Bytes
  uncompressedByteLength : ℕ
  manifestPayloadSha256 : Digest
  inputSetHash : Digest
deriving DecidableEq

structure ManifestBuild where
  payload : ReportInputManifest
  envelope : ManifestEnvelope
  canonicalBytes : Bytes

def inputSetHash (serialized : Bytes) : Digest :=
  sha256 (encode "report-input-manifest/v1\n" ++ serialized)

section Envelopes
variable (nf : NormalForm) (gzip : Gzip) (decoder : ManifestDecoder)

def buildManifest (payload : ReportInputManifest) : Except ReportFailure ManifestBuild := do
  let normalized ← normalizeManifest payload
  let serialized := CanonicalJson.canonicalBytes nf normalized.json
  return {
    payload := normalized
    envelope := {
      codec := .gzip
      compressedPayload := gzip.compress serialized
      uncompressedByteLength := serialized.length
      manifestPayloadSha256 := sha256 serialized
      inputSetHash := inputSetHash serialized }
    canonicalBytes := serialized }

/-- `gzip.decompress`, whose end-of-file and stream errors are reported. -/
def decompress (envelope : ManifestEnvelope) : Except ReportFailure Bytes :=
  match envelope.codec, gzip.decompress envelope.compressedPayload with
  | .gzip, .ok serialized => .ok serialized
  | .gzip, .error .truncated => .error (.manifestIntegrity "manifest_decompression_failed")
  | .gzip, .error .damaged => .error .zlibError

/-- `ReportInputManifest.model_validate_json`, whose validation errors are reported. -/
def validateJson (serialized : Bytes) : Except ReportFailure ReportInputManifest := do
  let payload ← present (decoder.decode serialized) (.manifestIntegrity "manifest_schema_invalid")
  match payload.validateWindowsAndRecords with
  | .ok _ => return payload
  | .error (.schema _) => throw (.manifestIntegrity "manifest_schema_invalid")
  | .error e => throw e

def readManifest (envelope : ManifestEnvelope) : Except ReportFailure ReportInputManifest := do
  let serialized ← decompress gzip envelope
  require (serialized.length = envelope.uncompressedByteLength ∧
      sha256 serialized = envelope.manifestPayloadSha256 ∧
      inputSetHash serialized = envelope.inputSetHash)
    (.manifestIntegrity "manifest_identity_mismatch")
  let payload ← validateJson decoder serialized
  let normalized ← normalizeManifest payload
  require (CanonicalJson.canonicalBytes nf normalized.json = serialized)
    (.manifestIntegrity "manifest_not_canonical")
  return payload

end Envelopes

end PredictionMarketMonitor.ReportManifest
