import PredictionMarketMonitor.AnalysisQueue
import PredictionMarketMonitor.PythonText
import PredictionMarketMonitor.ReportManifest

set_option autoImplicit false

/-!
# Report inputs from database rows

`app/reporting/sql_input_rows.py`, `input_policy.py`, `input_records.py`,
`input_coverage.py`, `coverage.py` and `input_assembler.py`: the manifest
payload assembled from the rows of one repeatable-read snapshot.
-/
namespace PredictionMarketMonitor.ReportAssembly

open AnalysisQueue (QueueStatus)
open CanonicalJson CivilTime CollectionBase FallibleSteps KeySorting PythonText ReportInputs
open ReportManifest Sha256
open VerificationSnapshots (Country)

/-- Why an assembly fails: `ReportAssemblyError`, or a value that the report
    models refuse. -/
inductive AssemblyFailure
  | rejected (reason : String)
  | report (e : ReportFailure)
deriving DecidableEq

abbrev Assembly := Except AssemblyFailure

/-- Columns of fixed range keep their type; the counts are integers until a
    report model checks them. -/
structure PublicationFingerprint where
  id : UUID
  runId : UUID
  sourceId : UUID
  terminalPageCommitId : UUID
  sequence : ℤ
  finalChainHash : Digest
  postSetHash : Digest
  distinctPostVersionCount : ℤ
  zeroPost : Bool
  committedAt : UtcTimestamp
deriving DecidableEq

def PublicationFingerprint.json (item : PublicationFingerprint) : Json :=
  .object [
    ("committed_at", instantJson item.committedAt.instant),
    ("distinct_post_version_count", .int item.distinctPostVersionCount),
    ("final_chain_hash", Digest.json item.finalChainHash),
    ("id", UUID.json item.id),
    ("post_set_hash", Digest.json item.postSetHash),
    ("run_id", UUID.json item.runId),
    ("sequence", .int item.sequence),
    ("source_id", UUID.json item.sourceId),
    ("terminal_page_commit_id", UUID.json item.terminalPageCommitId),
    ("zero_post", .bool item.zeroPost)]

structure RecordSqlRow where
  sourceId : UUID
  country : Country
  platform : SourcePlatform
  community : Text
  postVersionId : UUID
  postContentHash : Digest
  publishedAtUtc : UtcTimestamp
  analysisId : Option UUID
  analysisState : Option AnalysisState
  outputHash : Option Digest
  promptVersion : Option Text
  modelVersion : Option Text
  schemaVersion : Option Text
  analyzedAt : Option UtcTimestamp
  relevance : Option Bool
  sentiment : Option Sentiment
  topics : Option (List Text)
  queueStatus : Option QueueStatus
  engagementObservationId : Option UUID
  engagementHash : Option Digest
  engagementObservedAt : Option UtcTimestamp
  commentsCount : Option ℤ
  upvoteOrScore : Option ℤ
  publicationId : UUID
  publicationRunId : UUID
  publicationTerminalPageCommitId : UUID
  publicationSequence : ℤ
  publicationFinalChainHash : Digest
  publicationPostSetHash : Digest
  publicationDistinctPostVersionCount : ℤ
  publicationZeroPost : Bool
  publicationCommittedAt : UtcTimestamp
deriving DecidableEq

def RecordSqlRow.publication (row : RecordSqlRow) : PublicationFingerprint where
  id := row.publicationId
  runId := row.publicationRunId
  sourceId := row.sourceId
  terminalPageCommitId := row.publicationTerminalPageCommitId
  sequence := row.publicationSequence
  finalChainHash := row.publicationFinalChainHash
  postSetHash := row.publicationPostSetHash
  distinctPostVersionCount := row.publicationDistinctPostVersionCount
  zeroPost := row.publicationZeroPost
  committedAt := row.publicationCommittedAt

structure MatchSqlRow where
  postVersionId : UUID
  matchId : UUID
  matchHash : Digest
  ruleSetVersion : Text
  ruleSetHash : Digest
  normalizedPhrase : Text
  matchPresent : Bool
  storedCategory : Text
  ruleCategory : Text
deriving DecidableEq

structure SourceSqlRow where
  sourceId : UUID
  country : Country
  platform : SourcePlatform
  community : Text
  externalKey : Text
  sourceEnabled : Bool
  authorizationStatus : Option AuthorizationStatus
  authorizationEffectiveAt : Option UtcTimestamp
  authorizationExpiresAt : Option UtcTimestamp
  authorizationRevokedAt : Option UtcTimestamp
deriving DecidableEq

structure SlotSqlRow where
  dueSlotUtc : UtcTimestamp
deriving DecidableEq

structure RunSqlRow where
  sourceId : UUID
  dueSlotUtc : UtcTimestamp
  status : RunStatus
  attempt : ℤ
  startedAt : Option UtcTimestamp
  finishedAt : Option UtcTimestamp
deriving DecidableEq

structure PublicationSqlRow where
  fingerprint : PublicationFingerprint
  dueSlotUtc : UtcTimestamp
deriving DecidableEq

structure ReportInputQueryRows where
  reportDateSeoul : Date
  records : List RecordSqlRow
  matched : List MatchSqlRow
  sources : List SourceSqlRow
  slots : List SlotSqlRow
  runs : List RunSqlRow
  publications : List PublicationSqlRow
deriving DecidableEq

def checked {α : Type} (value : Option α) : Assembly α := present value (.report .validationError)

def SafeCount.ofInt? (n : ℤ) : Option SafeCount :=
  if h : 0 ≤ n ∧ n.toNat < 2 ^ 53 then some ⟨n.toNat, h.2⟩ else none

def SafeScore.ofInt? (n : ℤ) : Option SafeScore :=
  if h : -2 ^ 53 + 1 ≤ n ∧ n < 2 ^ 53 then some ⟨n, h⟩ else none

def PublicationSequence.ofInt? (n : ℤ) : Option PublicationSequence :=
  if h : 0 < n.toNat ∧ n.toNat < 2 ^ 53 then some ⟨n.toNat, h⟩ else none

/-- `None` is admitted beside a checked value. -/
def checkedOptional {α β : Type} (f : α → Option β) : Option α → Assembly (Option β)
  | none => return none
  | some value => return some (← checked (f value))

def checkedAnalysis (values : AnalysisValues) : Assembly AnalysisSnapshot :=
  match h : values.validateState with
  | .ok () => .ok ⟨values, h⟩
  | .error e => .error (.report (.schema e))

def checkedEngagement (values : EngagementValues) : Assembly EngagementSnapshot :=
  match h : values.validateSelection with
  | .ok () => .ok ⟨values, h⟩
  | .error e => .error (.report (.schema e))

def checkedCoverage (values : CoverageValues) : Assembly SourceCoverage :=
  match h : values.validateCounts with
  | .ok () => .ok ⟨values, h⟩
  | .error e => .error (.report (.schema e))

structure ReportAssemblyPolicy where
  sourceScopeVersion : Text
  definitions : GoverningDefinitions
  mappings : List CategoryMappingSnapshot
  defaultCategory : Text
  expectedSources : List (SourcePlatform × Text)
deriving DecidableEq

namespace ReportAssemblyPolicy

def select (policy : ReportAssemblyPolicy) (kind : InputKind) (value version : Text) :
    List CategoryMappingSnapshot :=
  policy.mappings.filter fun item =>
    item.inputKind = kind ∧ item.normalizedValue = value ∧ item.version = version

def ruleMapping (policy : ReportAssemblyPolicy) (normalizedPhrase ruleSetVersion : Text) :
    Assembly CategoryMappingSnapshot :=
  match policy.select .rule normalizedPhrase ruleSetVersion with
  | [selected] => .ok selected
  | _ => .error (.rejected "report_rule_mapping_missing")

def topicMapping (policy : ReportAssemblyPolicy) (normalizedTopic schemaVersion : Text) :
    CategoryMappingSnapshot :=
  ((policy.select .topic normalizedTopic schemaVersion).head?).getD {
    inputKind := .topic
    ruleOrTopicKey := normalizedTopic
    version := schemaVersion
    normalizedValue := normalizedTopic
    category := policy.defaultCategory }

def ruleSets (policy : ReportAssemblyPolicy) (version : Text) (rulesHash : Digest) :
    List RuleSetVersion :=
  policy.definitions.ruleSets.filter fun item =>
    item.version = version ∧ item.rulesHash = rulesHash

end ReportAssemblyPolicy

section Assembly
variable (nf : NormalForm) (casefold : Text → Text)

/-- `canonical_sha256` of a fingerprint. -/
def publicationHash (fingerprint : PublicationFingerprint) : Digest :=
  sha256 (CanonicalJson.canonicalBytes nf fingerprint.json)

def InWindow (window : ReportWindow) (t : UtcTimestamp) : Prop :=
  window.startUtc.instant ≤ t.instant ∧ t.instant < window.endUtc.instant

instance (window : ReportWindow) (t : UtcTimestamp) : Decidable (InWindow window t) :=
  inferInstanceAs (Decidable (_ ∧ _))

def windowOf (row : RecordSqlRow) (windows : ReportWindows) : Assembly ReportWindow :=
  if InWindow windows.primary row.publishedAtUtc then .ok windows.primary
  else if InWindow windows.comparison row.publishedAtUtc then .ok windows.comparison
  else .error (.rejected "report_record_outside_windows")

def emptyAnalysis (state : AnalysisState) : AnalysisValues where
  state := state
  analysisId := none
  outputHash := none
  promptVersion := none
  modelVersion := none
  schemaVersion := none
  analyzedAt := none
  relevance := none
  sentiment := none

def queuedState : Option QueueStatus → AnalysisState
  | none | some .pending | some .leased => .pending
  | some .succeeded => .invalidOutput
  | some .blockedCapability => .blockedCapability
  | some .failedRetryable => .failedRetryable
  | some .failedTerminal => .failedTerminal

def RecordSqlRow.analysisValues (row : RecordSqlRow) (state : AnalysisState) : AnalysisValues where
  state := state
  analysisId := row.analysisId
  outputHash := row.outputHash
  promptVersion := row.promptVersion
  modelVersion := row.modelVersion
  schemaVersion := row.schemaVersion
  analyzedAt := row.analyzedAt
  relevance := row.relevance
  sentiment := row.sentiment

def analysisOf (row : RecordSqlRow) : Assembly AnalysisSnapshot :=
  match row.analysisId, row.analysisState with
  | some _, none => .error (.rejected "report_analysis_state_missing")
  | some _, some .valid => checkedAnalysis (row.analysisValues .valid)
  | some _, some state => checkedAnalysis (emptyAnalysis state)
  | none, some _ => .error (.rejected "report_analysis_identity_missing")
  | none, none => checkedAnalysis (emptyAnalysis (queuedState row.queueStatus))

def ruleMatch (policy : ReportAssemblyPolicy) (row : MatchSqlRow) : Assembly RuleMatchSnapshot := do
  let mapping ← policy.ruleMapping row.normalizedPhrase row.ruleSetVersion
  match policy.ruleSets row.ruleSetVersion row.ruleSetHash with
  | [ruleSet] =>
    require (row.storedCategory = mapping.category ∧ row.ruleCategory = mapping.category)
      (.rejected "report_rule_provenance_mismatch")
    return {
      matchId := row.matchId
      matchHash := row.matchHash
      ruleId := mapping.ruleOrTopicKey
      ruleSetId := ruleSet.ruleSetId
      ruleSetVersion := row.ruleSetVersion
      normalizedPhrase := row.normalizedPhrase
      matchPresent := row.matchPresent
      mappedCategory := mapping.category }
  | _ => throw (.rejected "report_rule_provenance_mismatch")

/-- A topic as it is compared: stripped, case-folded and in normal form. -/
def normalizedTopic (value : Text) : Text := nf (casefold (strip value))

def topicMatch (policy : ReportAssemblyPolicy) (schemaVersion value : Text) : TopicMatchSnapshot where
  topicKey := (policy.topicMapping value schemaVersion).ruleOrTopicKey
  normalizedValue := value
  analysisSchemaVersion := schemaVersion
  mappedCategory := (policy.topicMapping value schemaVersion).category

def topicMatches (policy : ReportAssemblyPolicy) (row : RecordSqlRow)
    (analysis : AnalysisSnapshot) : Assembly (List TopicMatchSnapshot) :=
  if analysis.state ≠ .valid then return []
  else
    match analysis.schemaVersion, row.topics with
    | some schemaVersion, some topics => do
      let normalized := topics.map (normalizedTopic nf casefold)
      require ([] ∉ normalized) (.rejected "report_analysis_topic_empty")
      return (sortedSet normalized).map (topicMatch policy schemaVersion)
    | _, _ => throw (.rejected "report_analysis_topics_missing")

def engagementOf (row : RecordSqlRow) : Assembly EngagementSnapshot :=
  match row.engagementObservationId with
  | none => do
    require (row.engagementHash = none ∧ row.engagementObservedAt = none ∧
        row.commentsCount = none ∧ row.upvoteOrScore = none)
      (.rejected "report_engagement_identity_missing")
    checkedEngagement ⟨.unavailable, none, none, none, none, none⟩
  | some observationId => do
    let commentsCount ← checkedOptional SafeCount.ofInt? row.commentsCount
    let upvoteOrScore ← checkedOptional SafeScore.ofInt? row.upvoteOrScore
    checkedEngagement ⟨.selected, some observationId, row.engagementHash, row.engagementObservedAt,
      commentsCount, upvoteOrScore⟩

def matchesOf (rows : ReportInputQueryRows) (row : RecordSqlRow) : List MatchSqlRow :=
  rows.matched.filter fun item => item.postVersionId = row.postVersionId

def reportRecord (policy : ReportAssemblyPolicy) (rows : ReportInputQueryRows)
    (windows : ReportWindows) (row : RecordSqlRow) : Assembly ReportRecord := do
  let window ← windowOf row windows
  let analysis ← analysisOf row
  let ruleMatches ← (matchesOf rows row).mapM (ruleMatch policy)
  let topicMatches ← topicMatches nf casefold policy row analysis
  let engagement ← engagementOf row
  let sequence ← checked (PublicationSequence.ofInt? row.publication.sequence)
  return {
    ordinal := 0
    role := window.role
    sourceId := row.sourceId
    country := row.country
    platform := row.platform
    community := row.community
    postVersionId := row.postVersionId
    postContentHash := row.postContentHash
    publishedAtUtc := row.publishedAtUtc
    publishedDateSeoul := window.dateSeoul
    sourcePublicationSequence := sequence
    sourcePublicationManifestId := row.publication.id
    sourcePublicationManifestHash := publicationHash nf row.publication
    analysis := analysis
    ruleMatches := ruleMatches
    topicMatches := topicMatches
    effectiveCategories := []
    engagement := engagement }

def windowsOf (rows : ReportInputQueryRows) : Assembly ReportWindows :=
  present (seoulReportWindows rows.reportDateSeoul) (.report .overflowError)

def reportRecords (policy : ReportAssemblyPolicy) (rows : ReportInputQueryRows) :
    Assembly (List ReportRecord) := do
  let windows ← windowsOf rows
  rows.records.mapM (reportRecord nf casefold policy rows windows)

structure CoverageRunFacts where
  expected : Bool
  authorizationRequired : Bool
  authorizationActive : Bool
  expectedRuns : SafeCount
  successfulRuns : SafeCount
  skippedPolicyRuns : SafeCount
  skippedQuotaRuns : SafeCount
  failedTerminalRuns : SafeCount
  failedRetryableOrAbandonedRuns : SafeCount
deriving DecidableEq

def CoverageRunFacts.terminalCount (facts : CoverageRunFacts) : ℕ :=
  facts.successfulRuns.val + facts.skippedPolicyRuns.val + facts.skippedQuotaRuns.val +
    facts.failedTerminalRuns.val + facts.failedRetryableOrAbandonedRuns.val

def deriveCollectionStatus (facts : CoverageRunFacts) : CollectionStatus :=
  if facts.expected ∧ facts.authorizationRequired ∧ ¬facts.authorizationActive then .unauthorized
  else if 0 < facts.expectedRuns.val ∧ facts.successfulRuns = facts.expectedRuns then .complete
  else if facts.terminalCount = 0 then .missing
  else if 0 < facts.successfulRuns.val then .partialCollection
  else if facts.skippedPolicyRuns.val = facts.terminalCount then .skippedPolicy
  else if facts.skippedQuotaRuns.val = facts.terminalCount then .skippedQuota
  else if 0 < facts.failedTerminalRuns.val then .failedTerminal
  else if 0 < facts.failedRetryableOrAbandonedRuns.val then .failedRetryable
  else .partialCollection

structure CoverageFacts where
  window : ReportWindow
  source : SourceSqlRow
  expectedRuns : ℕ
  runs : List RunSqlRow
  records : List ReportRecord
  publications : List PublicationSqlRow

def AuthorizationActive (source : SourceSqlRow) (observedAt : UtcTimestamp) : Prop :=
  source.sourceEnabled ∧ source.authorizationStatus = some .approved ∧
    (∃ effectiveAt ∈ source.authorizationEffectiveAt, effectiveAt.instant ≤ observedAt.instant) ∧
    (∃ expiresAt ∈ source.authorizationExpiresAt, observedAt.instant < expiresAt.instant) ∧
    source.authorizationRevokedAt = none

instance (source : SourceSqlRow) (observedAt : UtcTimestamp) :
    Decidable (AuthorizationActive source observedAt) := by
  unfold AuthorizationActive
  infer_instance

def countRuns (runs : List RunSqlRow) (statuses : List RunStatus) : ℕ :=
  runs.countP fun run => run.status ∈ statuses

def checkedCount (n : ℕ) : Assembly SafeCount := checked (SafeCount.ofInt? n)

def runFacts (expected enabled : Bool) (facts : CoverageFacts) : Assembly CoverageRunFacts := do
  return {
    expected := expected
    authorizationRequired := true
    authorizationActive := enabled
    expectedRuns := ← checkedCount facts.expectedRuns
    successfulRuns := ← checkedCount (countRuns facts.runs [.succeeded])
    skippedPolicyRuns := ← checkedCount (countRuns facts.runs [.skippedPolicy])
    skippedQuotaRuns := ← checkedCount (countRuns facts.runs [.skippedQuota])
    failedTerminalRuns := ← checkedCount (countRuns facts.runs [.failedTerminal])
    failedRetryableOrAbandonedRuns := ← checkedCount
      (countRuns facts.runs [.failedRetryable] + countRuns facts.runs [.staleAbandoned]) }

/-- `max(xs, key=key, default=None)`: the first of the greatest. -/
def maxBy {α κ : Type} [LinearOrder κ] (key : α → κ) (xs : List α) : Option α :=
  xs.foldl (fun best x => some (best.elim x fun y => if key y < key x then x else y)) none

def runKey (run : RunSqlRow) : ℕ ×ₗ ℤ ×ₗ ℤ :=
  toLex (run.finishedAt.elim 0 fun _ => 1,
    toLex (run.finishedAt.elim 0 UtcTimestamp.instant, run.attempt))

def latestRun (runs : List RunSqlRow) : Option RunSqlRow := maxBy runKey runs

def publicationKey (publication : PublicationSqlRow) : ℤ ×ₗ Text :=
  toLex (publication.fingerprint.sequence, UUID.str publication.fingerprint.id)

def statusObservedAt (source : SourceSqlRow) (run : Option RunSqlRow)
    (publication : Option PublicationSqlRow) : Option UtcTimestamp :=
  let expiration :=
    if source.authorizationStatus = some .expired then source.authorizationExpiresAt else none
  let candidates := [
    run.bind RunSqlRow.finishedAt,
    publication.map (fun item => item.fingerprint.committedAt),
    source.authorizationRevokedAt,
    expiration,
    source.authorizationEffectiveAt].filterMap id
  maxBy UtcTimestamp.instant candidates

def coverageItem (policy : ReportAssemblyPolicy) (facts : CoverageFacts) : Assembly SourceCoverage := do
  let source := facts.source
  let expected : Bool := (source.platform, source.externalKey) ∈ policy.expectedSources
  let enabled : Bool := AuthorizationActive source facts.window.endUtc
  let status := deriveCollectionStatus (← runFacts expected enabled facts)
  let successful := facts.runs.filter fun run => run.status = .succeeded
  let latestSuccess := latestRun successful
  let latestAttempt := latestRun facts.runs
  let cutoff := maxBy publicationKey facts.publications
  let valid := facts.records.countP fun record => record.analysis.state = .valid
  let relevant := facts.records.countP fun record =>
    record.analysis.state = .valid ∧ record.analysis.relevance = some true
  let candidate := facts.records.length
  checkedCoverage {
    role := facts.window.role
    sourceId := source.sourceId
    country := source.country
    platform := source.platform
    community := source.community
    expected := expected
    enabled := enabled
    collectionStatus := status
    expectedRunCount := ← checkedCount facts.expectedRuns
    successfulRunCount := ← checkedCount successful.length
    failedRunCount := ← checkedCount
      (countRuns facts.runs [.failedRetryable, .failedTerminal, .staleAbandoned])
    skippedRunCount := ← checkedCount (countRuns facts.runs [.skippedPolicy, .skippedQuota])
    candidateCount := ← checkedCount candidate
    validAnalysisCount := ← checkedCount valid
    pendingCount := ← checked (SafeCount.ofInt? ((candidate : ℤ) - valid))
    relevantCount := ← checkedCount relevant
    cutoffPublicationSequence := ← checkedOptional SafeCount.ofInt?
      (cutoff.map fun item => item.fingerprint.sequence)
    cutoffPublicationManifestId := cutoff.map fun item => item.fingerprint.id
    cutoffPublicationManifestHash := cutoff.map fun item => publicationHash nf item.fingerprint
    latestSuccessfulRunStartedAt := latestSuccess.bind RunSqlRow.startedAt
    latestSuccessfulRunFinishedAt := latestSuccess.bind RunSqlRow.finishedAt
    latestPublicationCommittedAt := cutoff.map fun item => item.fingerprint.committedAt
    latestAttemptFinishedAt := latestAttempt.bind RunSqlRow.finishedAt
    statusObservedAt := statusObservedAt source latestAttempt cutoff
    coverageNumerator := ← checkedCount valid
    coverageDenominator := ← checkedCount candidate
    coverageDecimal := ratioDecimal valid candidate }

def coverageFacts (rows : ReportInputQueryRows) (records : List ReportRecord) (window : ReportWindow)
    (source : SourceSqlRow) : CoverageFacts where
  window := window
  source := source
  expectedRuns := (rows.slots.filter fun item => InWindow window item.dueSlotUtc).length
  runs := rows.runs.filter fun item => item.sourceId = source.sourceId ∧ InWindow window item.dueSlotUtc
  records := records.filter fun item => item.sourceId = source.sourceId ∧ item.role = window.role
  publications := rows.publications.filter fun item =>
    item.fingerprint.sourceId = source.sourceId ∧ InWindow window item.dueSlotUtc

def sourceCoverage (policy : ReportAssemblyPolicy) (rows : ReportInputQueryRows)
    (records : List ReportRecord) : Assembly (List SourceCoverage) := do
  let windows ← windowsOf rows
  let items ← [windows.primary, windows.comparison].mapM fun window =>
    rows.sources.mapM fun source => coverageItem nf policy (coverageFacts rows records window source)
  return items.flatten

/-- `selected[key] = mapping`: a key that is known keeps its place. -/
def setMapping (selected : List CategoryMappingSnapshot) (mapping : CategoryMappingSnapshot) :
    List CategoryMappingSnapshot :=
  if mapping.key ∈ selected.map CategoryMappingSnapshot.key then
    selected.map fun item => if item.key = mapping.key then mapping else item
  else selected ++ [mapping]

def effectiveMappings (policy : ReportAssemblyPolicy) (records : List ReportRecord) :
    List CategoryMappingSnapshot :=
  let used := records.flatMap fun record => record.topicMatches.map fun topic =>
    policy.topicMapping topic.normalizedValue topic.analysisSchemaVersion
  (policy.mappings ++ used).foldl setMapping []

def manifestOf (policy : ReportAssemblyPolicy) (reportDate : Date) (windows : ReportWindows)
    (records : List ReportRecord) (coverage : List SourceCoverage) : ReportInputManifest where
  reportDateSeoul := reportDate
  windows := (windows.primary, windows.comparison)
  sourceScopeVersion := policy.sourceScopeVersion
  definitions := policy.definitions
  categoryMappings := effectiveMappings policy records
  records := records
  sourceCoverage := coverage

def projectReportInput (policy : ReportAssemblyPolicy) (rows : ReportInputQueryRows) :
    Assembly ReportInputManifest := do
  let records ← reportRecords nf casefold policy rows
  let windows ← windowsOf rows
  let coverage ← sourceCoverage nf policy rows records
  let payload := manifestOf policy rows.reportDateSeoul windows records coverage
  match payload.validateWindowsAndRecords with
  | .ok () => return payload
  | .error e => throw (.report e)

end Assembly

end PredictionMarketMonitor.ReportAssembly
