import PredictionMarketMonitor.JsonText
import PredictionMarketMonitor.VerificationSnapshots

set_option autoImplicit false

/-!
# Report input values

`app/reporting/inputs.py`, `coverage.py` and `windows.py`: the values that a
daily report retains. Every `json` lists its keys in canonical order.
-/
namespace PredictionMarketMonitor.ReportInputs

open CanonicalJson CivilTime CollectionBase FallibleSteps Sha256
open VerificationSnapshots (Country)

inductive AnalysisState
  | valid | pending | blockedCapability | failedRetryable | failedTerminal | invalidOutput
deriving DecidableEq

def AnalysisState.value : AnalysisState → String
  | .valid => "valid"
  | .pending => "pending"
  | .blockedCapability => "blocked_capability"
  | .failedRetryable => "failed_retryable"
  | .failedTerminal => "failed_terminal"
  | .invalidOutput => "invalid_output"

inductive ReportRole
  | primary | comparison
deriving DecidableEq

def ReportRole.value : ReportRole → String
  | .primary => "primary"
  | .comparison => "comparison"

inductive EngagementSelectionState
  | selected | unavailable
deriving DecidableEq

def EngagementSelectionState.value : EngagementSelectionState → String
  | .selected => "selected"
  | .unavailable => "unavailable"

inductive CollectionStatus
  | complete | partialCollection | missing | skippedPolicy | skippedQuota | failedRetryable
  | failedTerminal | unauthorized
deriving DecidableEq

def CollectionStatus.value : CollectionStatus → String
  | .complete => "complete"
  | .partialCollection => "partial"
  | .missing => "missing"
  | .skippedPolicy => "skipped_policy"
  | .skippedQuota => "skipped_quota"
  | .failedRetryable => "failed_retryable"
  | .failedTerminal => "failed_terminal"
  | .unauthorized => "unauthorized"

/-- A `PydanticCustomError`. -/
structure SchemaError where
  code : String
  message : String
deriving DecidableEq

abbrev Validation := Except SchemaError Unit

structure SafeCount where
  val : ℕ
  lt_bound : val < 2 ^ 53
deriving DecidableEq

def SafeCount.json (n : SafeCount) : Json := .ofNat n.val

structure SafeScore where
  val : ℤ
  bounds : -2 ^ 53 + 1 ≤ val ∧ val < 2 ^ 53
deriving DecidableEq

def SafeScore.json (n : SafeScore) : Json := .int n.val

structure PublicationSequence where
  val : ℕ
  bounds : 0 < val ∧ val < 2 ^ 53
deriving DecidableEq

def PublicationSequence.json (n : PublicationSequence) : Json := .ofNat n.val

/-- A calendar date of the years 1 to 9999, by its number from 1970-01-01. -/
structure Date where
  day : ℤ
  inRange : -719162 ≤ day ∧ day ≤ 2932896
deriving DecidableEq

namespace Date

def ofDay? (day : ℤ) : Option Date :=
  if h : -719162 ≤ day ∧ day ≤ 2932896 then some ⟨day, h⟩ else none

def isoformat (date : Date) : Text :=
  let (year, month, day) := civilFromDays date.day
  padded 4 year ++ '-' :: padded 2 month ++ '-' :: padded 2 day

def json (date : Date) : Json := .str date.isoformat

end Date

/-- An aware timestamp after `astimezone(UTC)`. -/
structure UtcTimestamp where
  instant : Instant
  inRange : -62135596800000000 ≤ instant ∧ instant ≤ 253402300799999999
deriving DecidableEq

namespace UtcTimestamp

def ofInstant? (t : Instant) : Option UtcTimestamp :=
  if h : -62135596800000000 ≤ t ∧ t ≤ 253402300799999999 then some ⟨t, h⟩ else none

def json (t : UtcTimestamp) : Json := .str (formatUtc t.instant)

end UtcTimestamp

structure ReportWindow where
  role : ReportRole
  dateSeoul : Date
  startUtc : UtcTimestamp
  endUtc : UtcTimestamp
deriving DecidableEq

def ReportWindow.json (window : ReportWindow) : Json :=
  .object [
    ("date_seoul", window.dateSeoul.json),
    ("end_utc", window.endUtc.json),
    ("role", .ofString window.role.value),
    ("start_utc", window.startUtc.json)]

structure ReportWindows where
  primary : ReportWindow
  comparison : ReportWindow
deriving DecidableEq

def ReportWindows.ofRole (windows : ReportWindows) : ReportRole → ReportWindow
  | .primary => windows.primary
  | .comparison => windows.comparison

def seoulMidnight (day : ℤ) : Instant := seconds (day * 86400 - 9 * 3600)

/-- No windows where a boundary leaves the range of `datetime`. -/
def seoulReportWindows (reportDate : Date) : Option ReportWindows := do
  let comparisonDate ← Date.ofDay? (reportDate.day - 1)
  -- the end of the primary day is first a local timestamp
  let following ← Date.ofDay? (reportDate.day + 1)
  let primaryStart ← UtcTimestamp.ofInstant? (seoulMidnight reportDate.day)
  let comparisonStart ← UtcTimestamp.ofInstant? (seoulMidnight comparisonDate.day)
  let primaryEnd ← UtcTimestamp.ofInstant? (seoulMidnight following.day)
  return {
    primary := ⟨.primary, reportDate, primaryStart, primaryEnd⟩
    comparison := ⟨.comparison, comparisonDate, comparisonStart, primaryStart⟩ }

structure AnalysisValues where
  state : AnalysisState
  analysisId : Option UUID
  outputHash : Option Digest
  promptVersion : Option Text
  modelVersion : Option Text
  schemaVersion : Option Text
  analyzedAt : Option UtcTimestamp
  relevance : Option Bool
  sentiment : Option Sentiment
deriving DecidableEq

namespace AnalysisValues

def provenance (values : AnalysisValues) : List Bool :=
  [values.analysisId.isSome, values.outputHash.isSome, values.promptVersion.isSome,
    values.modelVersion.isSome, values.schemaVersion.isSome, values.analyzedAt.isSome]

def validateState (values : AnalysisValues) : Validation :=
  match values.state with
  | .valid => do
    require (values.provenance.all id ∧ values.relevance.isSome)
      ⟨"valid_analysis_provenance_missing", "valid analysis requires provenance and relevance"⟩
    require (¬(values.relevance = some false ∧ values.sentiment.isSome))
      ⟨"irrelevant_sentiment_present", "irrelevant analysis cannot carry sentiment"⟩
  | .pending | .blockedCapability | .failedRetryable | .failedTerminal | .invalidOutput =>
    require (¬(values.provenance.any id ∨ values.relevance.isSome ∨ values.sentiment.isSome))
      ⟨"missing_analysis_value_present", "non-valid analysis values must be null"⟩

def json (values : AnalysisValues) : Json :=
  .object [
    ("analysis_id", .ofOption UUID.json values.analysisId),
    ("analyzed_at", .ofOption UtcTimestamp.json values.analyzedAt),
    ("model_version", .ofOption Json.str values.modelVersion),
    ("output_hash", .ofOption Digest.json values.outputHash),
    ("prompt_version", .ofOption Json.str values.promptVersion),
    ("relevance", .ofOption Json.bool values.relevance),
    ("schema_version", .ofOption Json.str values.schemaVersion),
    ("sentiment", .ofOption (fun s => .ofString s.value) values.sentiment),
    ("state", .ofString values.state.value)]

def mapText (f : Text → Text) (values : AnalysisValues) : AnalysisValues :=
  { values with
    promptVersion := values.promptVersion.map f
    modelVersion := values.modelVersion.map f
    schemaVersion := values.schemaVersion.map f }

theorem validateState_mapText (f : Text → Text) (values : AnalysisValues) :
    (values.mapText f).validateState = values.validateState := by
  simp [mapText, validateState, provenance]

end AnalysisValues

structure AnalysisSnapshot extends AnalysisValues where
  valid_state : toAnalysisValues.validateState = .ok ()
deriving DecidableEq

def AnalysisSnapshot.mapText (f : Text → Text) (analysis : AnalysisSnapshot) : AnalysisSnapshot :=
  ⟨analysis.toAnalysisValues.mapText f, by
    rw [AnalysisValues.validateState_mapText, analysis.valid_state]⟩

structure EngagementValues where
  selectionState : EngagementSelectionState
  observationId : Option UUID
  engagementHash : Option Digest
  observedAt : Option UtcTimestamp
  commentsCount : Option SafeCount
  upvoteOrScore : Option SafeScore
deriving DecidableEq

namespace EngagementValues

def provenance (values : EngagementValues) : List Bool :=
  [values.observationId.isSome, values.engagementHash.isSome, values.observedAt.isSome]

def validateSelection (values : EngagementValues) : Validation :=
  match values.selectionState with
  | .selected =>
    require (values.provenance.all id)
      ⟨"engagement_provenance_missing", "selected engagement requires provenance"⟩
  | .unavailable =>
    require (¬(values.provenance.any id ∨ values.commentsCount.isSome ∨ values.upvoteOrScore.isSome))
      ⟨"unavailable_engagement_value_present", "unavailable engagement values must be null"⟩

def json (values : EngagementValues) : Json :=
  .object [
    ("comments_count", .ofOption SafeCount.json values.commentsCount),
    ("engagement_hash", .ofOption Digest.json values.engagementHash),
    ("observation_id", .ofOption UUID.json values.observationId),
    ("observed_at", .ofOption UtcTimestamp.json values.observedAt),
    ("selection_state", .ofString values.selectionState.value),
    ("upvote_or_score", .ofOption SafeScore.json values.upvoteOrScore)]

end EngagementValues

structure EngagementSnapshot extends EngagementValues where
  valid_selection : toEngagementValues.validateSelection = .ok ()
deriving DecidableEq

structure RuleMatchSnapshot where
  matchId : UUID
  matchHash : Digest
  ruleId : Text
  ruleSetId : Text
  ruleSetVersion : Text
  normalizedPhrase : Text
  matchPresent : Bool
  mappedCategory : Text
deriving DecidableEq

namespace RuleMatchSnapshot

def json (item : RuleMatchSnapshot) : Json :=
  .object [
    ("mapped_category", .str item.mappedCategory),
    ("match_hash", Digest.json item.matchHash),
    ("match_id", UUID.json item.matchId),
    ("match_present", .bool item.matchPresent),
    ("normalized_phrase", .str item.normalizedPhrase),
    ("rule_id", .str item.ruleId),
    ("rule_set_id", .str item.ruleSetId),
    ("rule_set_version", .str item.ruleSetVersion)]

def mapText (f : Text → Text) (item : RuleMatchSnapshot) : RuleMatchSnapshot :=
  { item with
    ruleId := f item.ruleId
    ruleSetId := f item.ruleSetId
    ruleSetVersion := f item.ruleSetVersion
    normalizedPhrase := f item.normalizedPhrase
    mappedCategory := f item.mappedCategory }

end RuleMatchSnapshot

structure TopicMatchSnapshot where
  topicKey : Text
  normalizedValue : Text
  analysisSchemaVersion : Text
  mappedCategory : Text
deriving DecidableEq

namespace TopicMatchSnapshot

def json (item : TopicMatchSnapshot) : Json :=
  .object [
    ("analysis_schema_version", .str item.analysisSchemaVersion),
    ("mapped_category", .str item.mappedCategory),
    ("normalized_value", .str item.normalizedValue),
    ("topic_key", .str item.topicKey)]

def mapText (f : Text → Text) (item : TopicMatchSnapshot) : TopicMatchSnapshot :=
  ⟨f item.topicKey, f item.normalizedValue, f item.analysisSchemaVersion, f item.mappedCategory⟩

end TopicMatchSnapshot

/-- The ordinal is a plain number: it is also written by `model_copy`, which
    does not validate. -/
structure ReportRecord where
  ordinal : ℕ
  role : ReportRole
  sourceId : UUID
  country : Country
  platform : SourcePlatform
  community : Text
  postVersionId : UUID
  postContentHash : Digest
  publishedAtUtc : UtcTimestamp
  publishedDateSeoul : Date
  sourcePublicationSequence : PublicationSequence
  sourcePublicationManifestId : UUID
  sourcePublicationManifestHash : Digest
  analysis : AnalysisSnapshot
  ruleMatches : List RuleMatchSnapshot
  topicMatches : List TopicMatchSnapshot
  effectiveCategories : List Text
  engagement : EngagementSnapshot
deriving DecidableEq

namespace ReportRecord

def json (record : ReportRecord) : Json :=
  .object [
    ("analysis", record.analysis.json),
    ("community", .str record.community),
    ("country", .ofString record.country.value),
    ("effective_categories", .list (record.effectiveCategories.map Json.str)),
    ("engagement", record.engagement.json),
    ("ordinal", .ofNat record.ordinal),
    ("platform", .ofString record.platform.value),
    ("post_content_hash", Digest.json record.postContentHash),
    ("post_version_id", UUID.json record.postVersionId),
    ("published_at_utc", record.publishedAtUtc.json),
    ("published_date_seoul", record.publishedDateSeoul.json),
    ("role", .ofString record.role.value),
    ("rule_matches", .list (record.ruleMatches.map RuleMatchSnapshot.json)),
    ("source_id", UUID.json record.sourceId),
    ("source_publication_manifest_hash", Digest.json record.sourcePublicationManifestHash),
    ("source_publication_manifest_id", UUID.json record.sourcePublicationManifestId),
    ("source_publication_sequence", record.sourcePublicationSequence.json),
    ("topic_matches", .list (record.topicMatches.map TopicMatchSnapshot.json))]

def mapText (f : Text → Text) (record : ReportRecord) : ReportRecord :=
  { record with
    community := f record.community
    analysis := record.analysis.mapText f
    ruleMatches := record.ruleMatches.map (RuleMatchSnapshot.mapText f)
    topicMatches := record.topicMatches.map (TopicMatchSnapshot.mapText f)
    effectiveCategories := record.effectiveCategories.map f }

end ReportRecord

/-- `Decimal(numerator) / Decimal(denominator)` with 28 digits, rounding half to
    even: a coefficient and its exponent of ten. An inexact quotient is moved off
    the multiples of five, so that the final rounding sees that it is inexact. -/
def quotient28 (numerator denominator : ℕ) : ℕ × ℤ :=
  let digits (n : ℕ) : ℕ := (Nat.toDigits 10 n).length
  let shift : ℤ := digits denominator - digits numerator + 29
  let dividend := numerator * 10 ^ shift.toNat
  let divisor := denominator * 10 ^ (-shift).toNat
  let quotient := dividend / divisor
  let coefficient :=
    if dividend % divisor ≠ 0 ∧ quotient % 5 = 0 then quotient + 1 else quotient
  let excess := digits coefficient - 28
  let kept := coefficient / 10 ^ excess
  let dropped := 2 * (coefficient % 10 ^ excess)
  let up := 10 ^ excess < dropped ∨ (10 ^ excess = dropped ∧ kept % 2 = 1)
  (if up then kept + 1 else kept, excess - shift)

/-- `format(value, "f")` without a sign. -/
def formatFixed (coefficient : ℕ) (exponent : ℤ) : Text :=
  let digits := Nat.toDigits 10 coefficient
  if 0 ≤ exponent then
    if coefficient = 0 then ['0'] else digits ++ List.replicate exponent.toNat '0'
  else
    let places := (-exponent).toNat
    let whole := List.replicate (places + 1 - digits.length) '0' ++ digits
    whole.take (whole.length - places) ++ '.' :: whole.drop (whole.length - places)

/-- `text.rstrip(c)`. -/
def rstrip (c : Char) (text : Text) : Text := text.rdropWhile (· = c)

def ratioDecimal (numerator denominator : ℤ) : Option Text :=
  if denominator = 0 then none
  else
    let (coefficient, exponent) := quotient28 numerator.natAbs denominator.natAbs
    let unsigned :=
      if numerator = 0 then ['0'] else formatFixed coefficient exponent
    let text := if numerator * denominator < 0 then '-' :: unsigned else unsigned
    let text := if '.' ∈ text then rstrip '.' (rstrip '0' text) else text
    some (if text = ['-', '0'] ∨ text = [] then ['0'] else text)

example : ratioDecimal (-5) 3 = some "-1.666666666666666666666666667".toList ∧
    ratioDecimal 17 20 = some "0.85".toList ∧ ratioDecimal 40 4 = some "10".toList := by
  decide +kernel

structure CoverageValues where
  role : ReportRole
  sourceId : UUID
  country : Country
  platform : SourcePlatform
  community : Text
  expected : Bool
  enabled : Bool
  collectionStatus : CollectionStatus
  expectedRunCount : SafeCount
  successfulRunCount : SafeCount
  failedRunCount : SafeCount
  skippedRunCount : SafeCount
  candidateCount : SafeCount
  validAnalysisCount : SafeCount
  pendingCount : SafeCount
  relevantCount : SafeCount
  cutoffPublicationSequence : Option SafeCount
  cutoffPublicationManifestId : Option UUID
  cutoffPublicationManifestHash : Option Digest
  latestSuccessfulRunStartedAt : Option UtcTimestamp
  latestSuccessfulRunFinishedAt : Option UtcTimestamp
  latestPublicationCommittedAt : Option UtcTimestamp
  latestAttemptFinishedAt : Option UtcTimestamp
  statusObservedAt : Option UtcTimestamp
  coverageNumerator : SafeCount
  coverageDenominator : SafeCount
  coverageDecimal : Option Text
deriving DecidableEq

namespace CoverageValues

def terminalRuns (values : CoverageValues) : ℕ :=
  values.successfulRunCount.val + values.failedRunCount.val + values.skippedRunCount.val

def allowedStatuses (values : CoverageValues) : List CollectionStatus :=
  if values.expected ∧ ¬values.enabled then [.unauthorized]
  else if 0 < values.expectedRunCount.val ∧ values.successfulRunCount = values.expectedRunCount then
    [.complete]
  else if values.terminalRuns = 0 then [.missing]
  else if 0 < values.successfulRunCount.val then [.partialCollection]
  else if 0 < values.failedRunCount.val then [.failedTerminal, .failedRetryable]
  else [.skippedPolicy, .skippedQuota, .partialCollection]

def CountsValid (values : CoverageValues) : Prop :=
  values.validAnalysisCount.val ≤ values.candidateCount.val ∧
    values.relevantCount.val ≤ values.validAnalysisCount.val ∧
    (values.pendingCount.val : ℤ) = values.candidateCount.val - values.validAnalysisCount.val ∧
    values.coverageNumerator = values.validAnalysisCount ∧
    values.coverageDenominator = values.candidateCount

instance (values : CoverageValues) : Decidable values.CountsValid := by
  unfold CountsValid
  infer_instance

def CutoffGrouped (values : CoverageValues) : Prop :=
  let present := [values.cutoffPublicationSequence.isSome,
    values.cutoffPublicationManifestId.isSome, values.cutoffPublicationManifestHash.isSome]
  present.any id → present.all id

instance (values : CoverageValues) : Decidable values.CutoffGrouped := by
  unfold CutoffGrouped
  infer_instance

def validateCounts (values : CoverageValues) : Validation := do
  require (values.CountsValid ∧ values.coverageDecimal =
      ratioDecimal values.coverageNumerator.val values.coverageDenominator.val)
    ⟨"coverage_counts_mismatch", "coverage counts and decimal must be exact"⟩
  require values.CutoffGrouped
    ⟨"coverage_cutoff_incomplete", "publication cutoff provenance is all-or-nothing"⟩
  require (values.terminalRuns ≤ values.expectedRunCount.val)
    ⟨"coverage_run_count_exceeded", "terminal run counts cannot exceed expected runs"⟩
  require (values.collectionStatus ∈ values.allowedStatuses)
    ⟨"coverage_run_status_mismatch", "collection status must be derived from retained run counts"⟩

def json (values : CoverageValues) : Json :=
  .object [
    ("candidate_count", values.candidateCount.json),
    ("collection_status", .ofString values.collectionStatus.value),
    ("community", .str values.community),
    ("country", .ofString values.country.value),
    ("coverage_decimal", .ofOption Json.str values.coverageDecimal),
    ("coverage_denominator", values.coverageDenominator.json),
    ("coverage_numerator", values.coverageNumerator.json),
    ("cutoff_publication_manifest_hash", .ofOption Digest.json values.cutoffPublicationManifestHash),
    ("cutoff_publication_manifest_id", .ofOption UUID.json values.cutoffPublicationManifestId),
    ("cutoff_publication_sequence", .ofOption SafeCount.json values.cutoffPublicationSequence),
    ("enabled", .bool values.enabled),
    ("expected", .bool values.expected),
    ("expected_run_count", values.expectedRunCount.json),
    ("failed_run_count", values.failedRunCount.json),
    ("latest_attempt_finished_at", .ofOption UtcTimestamp.json values.latestAttemptFinishedAt),
    ("latest_publication_committed_at",
      .ofOption UtcTimestamp.json values.latestPublicationCommittedAt),
    ("latest_successful_run_finished_at",
      .ofOption UtcTimestamp.json values.latestSuccessfulRunFinishedAt),
    ("latest_successful_run_started_at",
      .ofOption UtcTimestamp.json values.latestSuccessfulRunStartedAt),
    ("pending_count", values.pendingCount.json),
    ("platform", .ofString values.platform.value),
    ("relevant_count", values.relevantCount.json),
    ("role", .ofString values.role.value),
    ("skipped_run_count", values.skippedRunCount.json),
    ("source_id", UUID.json values.sourceId),
    ("status_observed_at", .ofOption UtcTimestamp.json values.statusObservedAt),
    ("successful_run_count", values.successfulRunCount.json),
    ("valid_analysis_count", values.validAnalysisCount.json)]

/-- The ratio is written in ASCII digits, so only the community is text. -/
def mapText (f : Text → Text) (values : CoverageValues) : CoverageValues :=
  { values with community := f values.community }

end CoverageValues

structure SourceCoverage extends CoverageValues where
  valid_counts : toCoverageValues.validateCounts = .ok ()
deriving DecidableEq

def SourceCoverage.mapText (f : Text → Text) (coverage : SourceCoverage) : SourceCoverage :=
  ⟨coverage.toCoverageValues.mapText f, coverage.valid_counts⟩

end PredictionMarketMonitor.ReportInputs
