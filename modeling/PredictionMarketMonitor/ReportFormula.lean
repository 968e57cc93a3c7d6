import PredictionMarketMonitor.ReportManifest

set_option autoImplicit false

/-!
# Report projection

`app/reporting/rankings.py`, `report_schema.py`, `formula.py` and
`reproduction.py`: the report computed from a manifest payload, and its
recomputation from the retained artifacts alone.
-/
namespace PredictionMarketMonitor.ReportFormula

open CanonicalJson CivilTime CollectionBase FallibleSteps KeySorting ReportInputs ReportManifest
open Sha256
open VerificationSnapshots (Country)

inductive ReportStatus
  | complete | partialReport
deriving DecidableEq

def ReportStatus.value : ReportStatus → String
  | .complete => "complete"
  | .partialReport => "partial"

def safeCount (n : ℕ) : Except ReportFailure SafeCount :=
  if h : n < 2 ^ 53 then .ok ⟨n, h⟩ else .error .validationError

structure Highlight where
  category : Text
  primaryCount : SafeCount
  comparisonCount : SafeCount
  delta : ℤ
  deltaRateNumerator : ℤ
  deltaRateDenominator : SafeCount
  deltaRateDecimal : Option Text
  netSentiment : ℤ
deriving DecidableEq

namespace Highlight

def json (item : Highlight) : Json :=
  .object [
    ("category", .str item.category),
    ("comparison_count", item.comparisonCount.json),
    ("delta", .int item.delta),
    ("delta_rate_decimal", .ofOption Json.str item.deltaRateDecimal),
    ("delta_rate_denominator", item.deltaRateDenominator.json),
    ("delta_rate_numerator", .int item.deltaRateNumerator),
    ("net_sentiment", .int item.netSentiment),
    ("primary_count", item.primaryCount.json)]

def mapText (f : Text → Text) (item : Highlight) : Highlight :=
  { item with
    category := f item.category
    deltaRateDecimal := item.deltaRateDecimal.map f }

end Highlight

structure RisingKeyword where
  phrase : Text
  primaryCount : SafeCount
  comparisonCount : SafeCount
  delta : ℤ
  deltaRateNumerator : ℤ
  deltaRateDenominator : SafeCount
  deltaRateDecimal : Option Text
deriving DecidableEq

namespace RisingKeyword

def json (item : RisingKeyword) : Json :=
  .object [
    ("comparison_count", item.comparisonCount.json),
    ("delta", .int item.delta),
    ("delta_rate_decimal", .ofOption Json.str item.deltaRateDecimal),
    ("delta_rate_denominator", item.deltaRateDenominator.json),
    ("delta_rate_numerator", .int item.deltaRateNumerator),
    ("phrase", .str item.phrase),
    ("primary_count", item.primaryCount.json)]

def mapText (f : Text → Text) (item : RisingKeyword) : RisingKeyword :=
  { item with
    phrase := f item.phrase
    deltaRateDecimal := item.deltaRateDecimal.map f }

end RisingKeyword

structure DailyReportPayload where
  reportDateSeoul : Date
  windows : ReportWindow × ReportWindow
  sourceScopeVersion : Text
  inputSetHash : Digest
  manifestPayloadSha256 : Digest
  formulaVersion : Text
  formulaHash : Digest
  metricVersion : Text
  metricHash : Digest
  categoryVersion : Text
  categoryHash : Digest
  candidateCount : SafeCount
  validAnalysisCount : SafeCount
  pendingCount : SafeCount
  relevantCount : SafeCount
  positiveCount : SafeCount
  neutralCount : SafeCount
  negativeCount : SafeCount
  unknownSentimentCount : SafeCount
  analysisCoverageNumerator : SafeCount
  analysisCoverageDenominator : SafeCount
  analysisCoverageDecimal : Option Text
  commentsSum : Option ℤ
  commentsKnownCount : SafeCount
  commentsUnknownCount : SafeCount
  scoreSum : Option ℤ
  scoreKnownCount : SafeCount
  scoreUnknownCount : SafeCount
  highlights : List Highlight
  risingKeywords : List RisingKeyword
  sourceCoverage : List SourceCoverage
  status : ReportStatus
deriving DecidableEq

def reportSchemaName : String := "daily-report-payload/v1"

namespace DailyReportPayload

def json (report : DailyReportPayload) : Json :=
  .object [
    ("analysis_coverage_decimal", .ofOption Json.str report.analysisCoverageDecimal),
    ("analysis_coverage_denominator", report.analysisCoverageDenominator.json),
    ("analysis_coverage_numerator", report.analysisCoverageNumerator.json),
    ("candidate_count", report.candidateCount.json),
    ("category_hash", Digest.json report.categoryHash),
    ("category_version", .str report.categoryVersion),
    ("comments_known_count", report.commentsKnownCount.json),
    ("comments_sum", .ofOption Json.int report.commentsSum),
    ("comments_unknown_count", report.commentsUnknownCount.json),
    ("formula_hash", Digest.json report.formulaHash),
    ("formula_version", .str report.formulaVersion),
    ("highlights", .list (report.highlights.map Highlight.json)),
    ("input_set_hash", Digest.json report.inputSetHash),
    ("manifest_payload_sha256", Digest.json report.manifestPayloadSha256),
    ("metric_hash", Digest.json report.metricHash),
    ("metric_version", .str report.metricVersion),
    ("negative_count", report.negativeCount.json),
    ("neutral_count", report.neutralCount.json),
    ("pending_count", report.pendingCount.json),
    ("positive_count", report.positiveCount.json),
    ("relevant_count", report.relevantCount.json),
    ("report_date_seoul", report.reportDateSeoul.json),
    ("rising_keywords", .list (report.risingKeywords.map RisingKeyword.json)),
    ("schema", .ofString reportSchemaName),
    ("score_known_count", report.scoreKnownCount.json),
    ("score_sum", .ofOption Json.int report.scoreSum),
    ("score_unknown_count", report.scoreUnknownCount.json),
    ("source_coverage", .list (report.sourceCoverage.map (fun item => item.json))),
    ("source_scope_version", .str report.sourceScopeVersion),
    ("status", .ofString report.status.value),
    ("unknown_sentiment_count", report.unknownSentimentCount.json),
    ("valid_analysis_count", report.validAnalysisCount.json),
    ("windows", .list [report.windows.1.json, report.windows.2.json])]

def mapText (f : Text → Text) (report : DailyReportPayload) : DailyReportPayload :=
  { report with
    sourceScopeVersion := f report.sourceScopeVersion
    formulaVersion := f report.formulaVersion
    metricVersion := f report.metricVersion
    categoryVersion := f report.categoryVersion
    analysisCoverageDecimal := report.analysisCoverageDecimal.map f
    highlights := report.highlights.map (Highlight.mapText f)
    risingKeywords := report.risingKeywords.map (RisingKeyword.mapText f)
    sourceCoverage := report.sourceCoverage.map (SourceCoverage.mapText f) }

end DailyReportPayload

def sentimentWeight : Option Sentiment → ℤ
  | some .positive => 1
  | some .neutral | none => 0
  | some .negative => -1

def categoryCounts (records : List ReportRecord) : List Text :=
  records.flatMap ReportRecord.effectiveCategories

def netSentiment (records : List ReportRecord) (category : Text) : ℤ :=
  (records.map fun record =>
    sentimentWeight record.analysis.sentiment * record.effectiveCategories.count category).sum

def highlightKey (primary : List ReportRecord) (category : Text) : ℤ ×ₗ ℤ ×ₗ Text :=
  toLex (-((categoryCounts primary).count category : ℤ),
    toLex (-netSentiment primary category, category))

def delta (primaryCount comparisonCount : ℕ) : ℤ := (primaryCount : ℤ) - comparisonCount

def highlight (primary comparison : List ReportRecord) (category : Text) :
    Except ReportFailure Highlight := do
  let primaryCount := (categoryCounts primary).count category
  let comparisonCount := (categoryCounts comparison).count category
  let checkedPrimary ← safeCount primaryCount
  let checkedComparison ← safeCount comparisonCount
  return {
    category := category
    primaryCount := checkedPrimary
    comparisonCount := checkedComparison
    delta := delta primaryCount comparisonCount
    deltaRateNumerator := delta primaryCount comparisonCount
    deltaRateDenominator := checkedComparison
    deltaRateDecimal := ratioDecimal (delta primaryCount comparisonCount) comparisonCount
    netSentiment := netSentiment primary category }

def leadingCategories (primary : List ReportRecord) : List Text :=
  (sortBy (highlightKey primary) (categoryCounts primary).dedup).take FormulaConstants.highlightLimit

def rankHighlights (primary comparison : List ReportRecord) :
    Except ReportFailure (List Highlight) :=
  (leadingCategories primary).mapM (highlight primary comparison)

def presentPhrases (record : ReportRecord) : List Text :=
  ((record.ruleMatches.filter (·.matchPresent)).map (·.normalizedPhrase)).dedup

def phraseCounts (records : List ReportRecord) : List Text := records.flatMap presentPhrases

def ratedKey (primary comparison : List ReportRecord) (phrase : Text) : ℚ ×ₗ ℤ ×ₗ Text :=
  let primaryCount := (phraseCounts primary).count phrase
  let comparisonCount := (phraseCounts comparison).count phrase
  toLex (-((delta primaryCount comparisonCount : ℚ) / comparisonCount),
    toLex (-(primaryCount : ℤ), phrase))

def unratedKey (primary : List ReportRecord) (phrase : Text) : ℤ ×ₗ Text :=
  toLex (-((phraseCounts primary).count phrase : ℤ), phrase)

def eligiblePhrases (primary : List ReportRecord) : List Text :=
  (phraseCounts primary).dedup.filter fun phrase =>
    FormulaConstants.risingKeywordMinPrimaryCount ≤ (phraseCounts primary).count phrase

def leadingPhrases (primary comparison : List ReportRecord) : List Text :=
  let rated := sortBy (ratedKey primary comparison) ((eligiblePhrases primary).filter fun phrase =>
    0 < (phraseCounts comparison).count phrase)
  let unrated := sortBy (unratedKey primary) ((eligiblePhrases primary).filter fun phrase =>
    (phraseCounts comparison).count phrase = 0)
  (rated ++ unrated).take FormulaConstants.risingKeywordLimit

def risingKeyword (primary comparison : List ReportRecord) (phrase : Text) :
    Except ReportFailure RisingKeyword := do
  let primaryCount := (phraseCounts primary).count phrase
  let comparisonCount := (phraseCounts comparison).count phrase
  let checkedPrimary ← safeCount primaryCount
  let checkedComparison ← safeCount comparisonCount
  return {
    phrase := phrase
    primaryCount := checkedPrimary
    comparisonCount := checkedComparison
    delta := delta primaryCount comparisonCount
    deltaRateNumerator := delta primaryCount comparisonCount
    deltaRateDenominator := checkedComparison
    deltaRateDecimal := ratioDecimal (delta primaryCount comparisonCount) comparisonCount }

def rankRisingKeywords (primary comparison : List ReportRecord) :
    Except ReportFailure (List RisingKeyword) :=
  (leadingPhrases primary comparison).mapM (risingKeyword primary comparison)

def ofRole (role : ReportRole) (payload : ReportInputManifest) : List ReportRecord :=
  payload.records.filter (fun record => record.role = role)

def relevantRecords (records : List ReportRecord) : List ReportRecord :=
  records.filter Categorized

def validCount (records : List ReportRecord) : ℕ :=
  records.countP (fun record => record.analysis.state = .valid)

def relevantCount (records : List ReportRecord) : ℕ :=
  records.countP (fun record => record.analysis.relevance = some true)

def coveredRecords (payload : ReportInputManifest) (coverage : SourceCoverage) :
    List ReportRecord :=
  payload.records.filter
    (fun record => record.role = coverage.role ∧ record.sourceId = coverage.sourceId)

def CountsRetained (records : List ReportRecord) (coverage : SourceCoverage) : Prop :=
  ((records.length, validCount records,
      (records.length : ℤ) - validCount records, relevantCount records) : ℕ × ℕ × ℤ × ℕ) =
    (coverage.candidateCount.val, coverage.validAnalysisCount.val,
      (coverage.pendingCount.val : ℤ), coverage.relevantCount.val)

instance (records : List ReportRecord) (coverage : SourceCoverage) :
    Decidable (CountsRetained records coverage) :=
  inferInstanceAs (Decidable (_ = _))

def SameDimensions (record : ReportRecord) (coverage : SourceCoverage) : Prop :=
  (record.country, record.platform, record.community) =
    (coverage.country, coverage.platform, coverage.community)

instance (record : ReportRecord) (coverage : SourceCoverage) :
    Decidable (SameDimensions record coverage) :=
  inferInstanceAs (Decidable (_ = _))

def verifyCoverage (payload : ReportInputManifest) : Except ReportFailure Unit := do
  require (∀ record ∈ payload.records, (record.role, record.sourceId) ∈
      payload.sourceCoverage.map ReportInputManifest.coverageKey)
    (.manifestCorrupt "source_coverage_missing")
  payload.sourceCoverage.forM fun coverage => do
    require (CountsRetained (coveredRecords payload coverage) coverage)
      (.manifestCorrupt "source_coverage_count_mismatch")
    (coveredRecords payload coverage).forM fun record =>
      require (SameDimensions record coverage)
        (.manifestCorrupt "source_coverage_dimension_mismatch")

def knownSum (values : List ℤ) : Option ℤ := if values = [] then none else some values.sum

def knownComments (records : List ReportRecord) : List ℤ :=
  records.filterMap fun record => record.engagement.commentsCount.map fun n => (n.val : ℤ)

def knownScores (records : List ReportRecord) : List ℤ :=
  records.filterMap fun record => record.engagement.upvoteOrScore.map SafeScore.val

def sentimentCount (records : List ReportRecord) (sentiment : Option Sentiment) : ℕ :=
  records.countP (fun record => record.analysis.sentiment = sentiment)

def PrimarySourcesComplete (payload : ReportInputManifest) : Prop :=
  ∀ item ∈ payload.sourceCoverage, item.role = .primary → item.expected →
    item.collectionStatus = .complete

instance (payload : ReportInputManifest) : Decidable (PrimarySourcesComplete payload) := by
  unfold PrimarySourcesComplete
  infer_instance

def AnalysisComplete (candidate valid : ℕ) : Prop :=
  candidate = 0 ∨
    candidate * FormulaConstants.completeCoverageNumerator ≤
      valid * FormulaConstants.completeCoverageDenominator

instance (candidate valid : ℕ) : Decidable (AnalysisComplete candidate valid) :=
  inferInstanceAs (Decidable (_ ∨ _))

/-- The report of a normalized payload, under the identities of its manifest. -/
def projectPayload (normalized : ReportInputManifest) (inputSetHash payloadHash : Digest) :
    Except ReportFailure DailyReportPayload := do
  let primaryRecords := ofRole .primary normalized
  let primary := relevantRecords primaryRecords
  let comparison := relevantRecords (ofRole .comparison normalized)
  let candidate := primaryRecords.length
  let valid := validCount primaryRecords
  let comments := knownComments primary
  let scores := knownScores primary
  let highlights ← rankHighlights primary comparison
  let risingKeywords ← rankRisingKeywords primary comparison
  return {
    reportDateSeoul := normalized.reportDateSeoul
    windows := normalized.windows
    sourceScopeVersion := normalized.sourceScopeVersion
    inputSetHash := inputSetHash
    manifestPayloadSha256 := payloadHash
    formulaVersion := normalized.definitions.formulaVersion
    formulaHash := normalized.definitions.formulaHash
    metricVersion := normalized.definitions.metricVersion
    metricHash := normalized.definitions.metricHash
    categoryVersion := normalized.definitions.categoryVersion
    categoryHash := normalized.definitions.categoryHash
    candidateCount := ← safeCount candidate
    validAnalysisCount := ← safeCount valid
    pendingCount := ← safeCount (candidate - valid)
    relevantCount := ← safeCount primary.length
    positiveCount := ← safeCount (sentimentCount primary (some .positive))
    neutralCount := ← safeCount (sentimentCount primary (some .neutral))
    negativeCount := ← safeCount (sentimentCount primary (some .negative))
    unknownSentimentCount := ← safeCount (sentimentCount primary none)
    analysisCoverageNumerator := ← safeCount valid
    analysisCoverageDenominator := ← safeCount candidate
    analysisCoverageDecimal := ratioDecimal valid candidate
    commentsSum := knownSum comments
    commentsKnownCount := ← safeCount comments.length
    commentsUnknownCount := ← safeCount (primary.length - comments.length)
    scoreSum := knownSum scores
    scoreKnownCount := ← safeCount scores.length
    scoreUnknownCount := ← safeCount (primary.length - scores.length)
    highlights := highlights
    risingKeywords := risingKeywords
    sourceCoverage := normalized.sourceCoverage
    status :=
      if PrimarySourcesComplete normalized ∧ AnalysisComplete candidate valid then .complete
      else .partialReport }

structure ReportBuild where
  manifest : ManifestBuild
  payload : DailyReportPayload
  canonicalBytes : Bytes
  payloadSha256 : Digest

def projectReport (nf : NormalForm) (gzip : Gzip) (payload : ReportInputManifest) :
    Except ReportFailure ReportBuild := do
  let manifest ← buildManifest nf gzip payload
  verifyCoverage manifest.payload
  let report ← projectPayload manifest.payload manifest.envelope.inputSetHash
    manifest.envelope.manifestPayloadSha256
  let serialized := CanonicalJson.canonicalBytes nf report.json
  return ⟨manifest, report, serialized, sha256 serialized⟩

/-- Decoding of report text by the schema library: the text of a report decodes to it. -/
structure ReportDecoder where
  decode : Bytes → Option DailyReportPayload
  decode_json : ∀ report : DailyReportPayload,
    decode (encodeText (render report.json)) = some report

/-- What lies outside the reporting code: the normal form, the compression and
    the decoding of retained text. -/
structure Codecs where
  nf : NormalForm
  gzip : Gzip
  manifests : ManifestDecoder
  reports : ReportDecoder

structure RetainedReport where
  manifest : ManifestEnvelope
  reportPayload : Bytes
  reportPayloadSha256 : Digest
deriving DecidableEq

/-- A corrupt outcome keeps the error whose text is its reason. -/
inductive ReproductionResult
  | reproduced (payload : DailyReportPayload) (reportPayload : Bytes) (reportPayloadSha256 : Digest)
  | manifestCorrupt (reason : ReportFailure)
deriving DecidableEq

def ReportFailure.Reported : ReportFailure → Prop
  | .manifestIntegrity _ | .manifestCorrupt _ | .validationError | .schema _ => True
  | .overflowError | .keyError | .zlibError => False

instance (e : ReportFailure) : Decidable (ReportFailure.Reported e) := by
  cases e <;> unfold ReportFailure.Reported <;> infer_instance

section Reproduction
variable (codecs : Codecs)

/-- The projection recomputed from the retained manifest, beside the stored payload. -/
def recompute (retained : RetainedReport) :
    Except ReportFailure (ReportBuild × DailyReportPayload) := do
  let payload ← readManifest codecs.nf codecs.gzip codecs.manifests retained.manifest
  let recomputed ← projectReport codecs.nf codecs.gzip payload
  let storedPayload ← present (codecs.reports.decode retained.reportPayload) .validationError
  return (recomputed, storedPayload)

def ProjectionMatches (retained : RetainedReport) (recomputed : ReportBuild)
    (storedPayload : DailyReportPayload) : Prop :=
  retained.reportPayload = recomputed.canonicalBytes ∧
    retained.reportPayloadSha256 = recomputed.payloadSha256 ∧
    sha256 retained.reportPayload = retained.reportPayloadSha256 ∧
    storedPayload = recomputed.payload

instance (retained : RetainedReport) (recomputed : ReportBuild)
    (storedPayload : DailyReportPayload) :
    Decidable (ProjectionMatches retained recomputed storedPayload) :=
  inferInstanceAs (Decidable (_ ∧ _))

def reproduceReport (retained : RetainedReport) : Except ReportFailure ReproductionResult :=
  match recompute codecs retained with
  | .ok (recomputed, storedPayload) =>
    if ProjectionMatches retained recomputed storedPayload then
      .ok (.reproduced recomputed.payload recomputed.canonicalBytes recomputed.payloadSha256)
    else .ok (.manifestCorrupt (.manifestCorrupt "report_projection_mismatch"))
  | .error e => if ReportFailure.Reported e then .ok (.manifestCorrupt e) else .error e

end Reproduction

end PredictionMarketMonitor.ReportFormula
