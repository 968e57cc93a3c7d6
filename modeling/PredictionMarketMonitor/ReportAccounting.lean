import PredictionMarketMonitor.RankingOrder

set_option autoImplicit false

/-!
# Accounting identities of the daily report

The totals of a report are those of the payload it was projected from: every
record lands in one bucket of each count, and the retained coverage adds up.
-/
namespace PredictionMarketMonitor.ReportAccounting

open CanonicalJson CivilTime CollectionBase FallibleSteps KeySorting RankingOrder ReportFormula
open ReportInputs ReportManifest Sha256

def relevantPrimary (payload : ReportInputManifest) : List ReportRecord :=
  relevantRecords (ofRole .primary payload)

def primaryCoverage (report : DailyReportPayload) : List SourceCoverage :=
  report.sourceCoverage.filter (fun item => item.role = .primary)

/-- When a report is complete: all expected primary sources are, and nothing was there to be
    analysed or 85 of 100 candidates have been. -/
def DocumentedComplete (payload : ReportInputManifest) : Prop :=
  (∀ item ∈ payload.sourceCoverage, item.role = .primary → item.expected = true →
      item.collectionStatus = .complete) ∧
    ((ofRole .primary payload).length = 0 ∨
      (85 / 100 : ℚ) ≤ (validCount (ofRole .primary payload) : ℚ) / (ofRole .primary payload).length)

structure AccountingIdentities (payload : ReportInputManifest) (report : DailyReportPayload) :
    Prop where
  -- what is counted
  candidate : report.candidateCount.val = (ofRole .primary payload).length
  valid : report.validAnalysisCount.val = validCount (ofRole .primary payload)
  relevant : report.relevantCount.val = (relevantPrimary payload).length
  positive : report.positiveCount.val = sentimentCount (relevantPrimary payload) (some .positive)
  neutral : report.neutralCount.val = sentimentCount (relevantPrimary payload) (some .neutral)
  negative : report.negativeCount.val = sentimentCount (relevantPrimary payload) (some .negative)
  unknown : report.unknownSentimentCount.val = sentimentCount (relevantPrimary payload) none
  -- how the counts add up
  candidate_split : report.candidateCount.val =
    report.validAnalysisCount.val + report.pendingCount.val
  relevant_split : report.relevantCount.val = report.positiveCount.val + report.neutralCount.val +
    report.negativeCount.val + report.unknownSentimentCount.val
  relevant_le : report.relevantCount.val ≤ report.validAnalysisCount.val
  comments_split : report.commentsKnownCount.val + report.commentsUnknownCount.val =
    report.relevantCount.val
  score_split : report.scoreKnownCount.val + report.scoreUnknownCount.val = report.relevantCount.val
  -- engagement
  comments_known : report.commentsKnownCount.val = (knownComments (relevantPrimary payload)).length
  comments_null : report.commentsSum = none ↔ report.commentsKnownCount.val = 0
  comments_sum : ∀ total ∈ report.commentsSum, total = (knownComments (relevantPrimary payload)).sum
  score_known : report.scoreKnownCount.val = (knownScores (relevantPrimary payload)).length
  score_null : report.scoreSum = none ↔ report.scoreKnownCount.val = 0
  score_sum : ∀ total ∈ report.scoreSum, total = (knownScores (relevantPrimary payload)).sum
  -- coverage of the primary sources
  covered_candidate :
    ((primaryCoverage report).map (·.candidateCount.val)).sum = report.candidateCount.val
  covered_valid :
    ((primaryCoverage report).map (·.validAnalysisCount.val)).sum = report.validAnalysisCount.val
  covered_pending :
    ((primaryCoverage report).map (·.pendingCount.val)).sum = report.pendingCount.val
  covered_relevant :
    ((primaryCoverage report).map (·.relevantCount.val)).sum = report.relevantCount.val
  status : report.status = .complete ↔ DocumentedComplete payload

section Normalization

structure RecordFacts where
  role : ReportRole
  sourceId : UUID
  analysis : AnalysisSnapshot
  engagement : EngagementSnapshot
deriving DecidableEq

def facts (record : ReportRecord) : RecordFacts :=
  ⟨record.role, record.sourceId, record.analysis, record.engagement⟩

variable {payload normalized : ReportInputManifest}

theorem normalizeRecord_eq_ok {record result : ReportRecord} {ordinal : ℕ}
    {mappings : MappingKey → Option CategoryMappingSnapshot}
    (h : normalizeRecord record ordinal mappings = .ok result) :
    ∃ categories : List Text, categories.Nodup ∧ result = { record with
      ordinal := ordinal
      ruleMatches := sortBy ruleSortKey record.ruleMatches
      topicMatches := sortBy topicSortKey record.topicMatches
      effectiveCategories := categories } := by
  by_cases hrelevant : Categorized record
  · simp only [normalizeRecord, if_pos hrelevant] at h
    obtain ⟨fromRules, _, h⟩ := bind_eq_ok.mp h
    obtain ⟨fromTopics, _, h⟩ := bind_eq_ok.mp h
    refine ⟨sortedCategories (fromRules ++ fromTopics), ?_, (Except.ok.inj h).symm⟩
    rw [sortedCategories]
    split
    · exact List.nodup_singleton _
    · exact (sortedSet_pairwise _).imp ne_of_lt
  · simp only [normalizeRecord, if_neg hrelevant] at h
    exact ⟨[], List.nodup_nil, (Except.ok.inj h).symm⟩

theorem normalizeRecord_facts {record result : ReportRecord} {ordinal : ℕ}
    {mappings : MappingKey → Option CategoryMappingSnapshot}
    (h : normalizeRecord record ordinal mappings = .ok result) : facts result = facts record := by
  obtain ⟨categories, _, rfl⟩ := normalizeRecord_eq_ok h
  rfl

theorem normalizeRole_map {β : Type} {f : ReportRecord → β} {role : ReportRole}
    {records results : List ReportRecord} {mappings : MappingKey → Option CategoryMappingSnapshot}
    (hf : ∀ record ordinal result, normalizeRecord record ordinal mappings = .ok result →
      f result = f record)
    (h : (orderedRecords role records).zipIdx.mapM (fun (record, ordinal) =>
      normalizeRecord record ordinal mappings) = .ok results) :
    results.map f = (orderedRecords role records).map f := by
  have hpairs : ∀ (pairs : List (ReportRecord × ℕ)) (results : List ReportRecord),
      pairs.mapM (fun (record, ordinal) => normalizeRecord record ordinal mappings) = .ok results →
        results.map f = (pairs.map Prod.fst).map f := by
    intro pairs
    induction pairs with
    | nil =>
      intro results h
      rw [mapM_eq_ok_nil.mp h]
      rfl
    | cons pair pairs ih =>
      intro results h
      obtain ⟨result, rest, hresult, hrest, rfl⟩ := mapM_eq_ok_cons.mp h
      rw [List.map_cons, List.map_cons, List.map_cons, hf _ _ _ hresult, ih rest hrest]
  rw [hpairs _ results h, List.zipIdx_map_fst]

theorem orderedRecords_perm (records : List ReportRecord) :
    (orderedRecords .primary records ++ orderedRecords .comparison records).Perm records := by
  have hrest : records.filter (fun record => record.role = .comparison) =
      records.filter (fun record => !decide (record.role = .primary)) := by
    refine List.filter_congr fun record _ => ?_
    cases record.role <;> rfl
  rw [orderedRecords, orderedRecords, hrest]
  exact ((sortBy_perm recordSortKey _).append (sortBy_perm recordSortKey _)).trans
    (List.filter_append_perm _ records)

theorem normalizeManifest_map {β : Type} {f : ReportRecord → β}
    (hf : ∀ record ordinal mappings result, normalizeRecord record ordinal mappings = .ok result →
      f result = f record)
    (h : normalizeManifest payload = .ok normalized) :
    (normalized.records.map f).Perm (payload.records.map f) := by
  obtain ⟨records, hrecords, h⟩ := bind_eq_ok.mp h
  obtain ⟨windows, _, h⟩ := bind_eq_ok.mp h
  have hnormalized := Except.ok.inj h
  subst hnormalized
  obtain ⟨primary, rest, hprimary, hrest, rfl⟩ := mapM_eq_ok_cons.mp hrecords
  obtain ⟨comparison, none, hcomparison, hnone, rfl⟩ := mapM_eq_ok_cons.mp hrest
  rw [mapM_eq_ok_nil.mp hnone]
  have hflat : [primary, comparison].flatten = primary ++ comparison := by simp
  rw [hflat, List.map_append, normalizeRole_map (fun _ _ _ => hf _ _ _ _) hprimary,
    normalizeRole_map (fun _ _ _ => hf _ _ _ _) hcomparison, ← List.map_append]
  exact (orderedRecords_perm payload.records).map f

theorem normalizeManifest_facts (h : normalizeManifest payload = .ok normalized) :
    (normalized.records.map facts).Perm (payload.records.map facts) ∧
      normalized.sourceCoverage.Perm payload.sourceCoverage := by
  refine ⟨normalizeManifest_map (fun _ _ _ _ => normalizeRecord_facts) h, ?_⟩
  obtain ⟨records, _, h⟩ := bind_eq_ok.mp h
  obtain ⟨windows, _, h⟩ := bind_eq_ok.mp h
  rw [← Except.ok.inj h]
  exact sortBy_perm coverageSortKey _

theorem normalizeManifest_date (h : normalizeManifest payload = .ok normalized) :
    normalized.reportDateSeoul = payload.reportDateSeoul := by
  obtain ⟨records, _, h⟩ := bind_eq_ok.mp h
  obtain ⟨windows, _, h⟩ := bind_eq_ok.mp h
  rw [← Except.ok.inj h]

end Normalization

section SameFacts

def SameFacts (xs ys : List ReportRecord) : Prop := (xs.map facts).Perm (ys.map facts)

variable {xs ys : List ReportRecord}

theorem SameFacts.filter (h : SameFacts xs ys) (q : RecordFacts → Bool) :
    SameFacts (xs.filter (q ∘ facts)) (ys.filter (q ∘ facts)) := by
  have hfiltered := List.Perm.filter q h
  rwa [List.filter_map, List.filter_map] at hfiltered

theorem SameFacts.length_eq (h : SameFacts xs ys) : xs.length = ys.length := by
  have hlength := List.Perm.length_eq h
  rwa [List.length_map, List.length_map] at hlength

theorem SameFacts.countP_eq (h : SameFacts xs ys) (q : RecordFacts → Bool) :
    xs.countP (q ∘ facts) = ys.countP (q ∘ facts) := by
  have hcount := List.Perm.countP_eq q h
  rwa [List.countP_map, List.countP_map] at hcount

theorem SameFacts.validCount_eq (h : SameFacts xs ys) : validCount xs = validCount ys :=
  h.countP_eq fun f => f.analysis.state = .valid

theorem SameFacts.sentimentCount_eq (h : SameFacts xs ys) (sentiment : Option Sentiment) :
    sentimentCount xs sentiment = sentimentCount ys sentiment :=
  h.countP_eq fun f => f.analysis.sentiment = sentiment

theorem SameFacts.relevant (h : SameFacts xs ys) :
    SameFacts (relevantRecords xs) (relevantRecords ys) :=
  h.filter fun f => decide (f.analysis.state = .valid ∧ f.analysis.relevance = some true)

theorem SameFacts.knownComments (h : SameFacts xs ys) :
    (ReportFormula.knownComments xs).Perm (ReportFormula.knownComments ys) := by
  have hknown := List.Perm.filterMap
    (fun f : RecordFacts => f.engagement.commentsCount.map fun n => (n.val : ℤ)) h
  rwa [List.filterMap_map, List.filterMap_map] at hknown

theorem SameFacts.knownScores (h : SameFacts xs ys) :
    (ReportFormula.knownScores xs).Perm (ReportFormula.knownScores ys) := by
  have hknown := List.Perm.filterMap
    (fun f : RecordFacts => f.engagement.upvoteOrScore.map SafeScore.val) h
  rwa [List.filterMap_map, List.filterMap_map] at hknown

theorem normalizeManifest_ofRole {payload normalized : ReportInputManifest}
    (h : normalizeManifest payload = .ok normalized) (role : ReportRole) :
    SameFacts (ofRole role normalized) (ofRole role payload) :=
  SameFacts.filter (normalizeManifest_facts h).1 fun f => f.role = role

end SameFacts

section Buckets
variable {records : List ReportRecord}

theorem sentimentCount_cons (record : ReportRecord) (records : List ReportRecord)
    (sentiment : Option Sentiment) : sentimentCount (record :: records) sentiment =
      sentimentCount records sentiment + if record.analysis.sentiment = sentiment then 1 else 0 := by
  simp [sentimentCount, List.countP_cons]

theorem sentiment_buckets : records.length = sentimentCount records (some .positive) +
    sentimentCount records (some .neutral) + sentimentCount records (some .negative) +
      sentimentCount records none := by
  induction records with
  | nil => rfl
  | cons record records ih =>
    simp only [sentimentCount_cons, List.length_cons]
    cases hvalue : record.analysis.sentiment with
    | none => simp; omega
    | some sentiment => cases sentiment <;> simp <;> omega

theorem relevantRecords_le : (relevantRecords records).length ≤ validCount records := by
  rw [relevantRecords, ← List.countP_eq_length_filter, validCount]
  refine List.countP_mono_left fun record _ hrelevant => ?_
  exact decide_eq_true (of_decide_eq_true hrelevant).1

theorem knownSum_eq_none {values : List ℤ} : knownSum values = none ↔ values.length = 0 := by
  rw [knownSum, List.length_eq_zero_iff]
  by_cases h : values = []
  · simp [h]
  · simp [h]

theorem knownSum_mem {values : List ℤ} {total : ℤ} (h : total ∈ knownSum values) :
    total = values.sum := by
  rw [knownSum] at h
  split at h
  · cases h
  · exact (Option.some.inj h).symm

/-- Only a valid analysis carries a relevance. -/
theorem categorized_iff {record : ReportRecord} :
    record.analysis.relevance = some true ↔ Categorized record := by
  refine ⟨fun hrelevance => ⟨?_, hrelevance⟩, fun h => h.2⟩
  have hstate := record.analysis.valid_state
  rw [AnalysisValues.validateState] at hstate
  split at hstate
  · assumption
  all_goals
    have hnone := require_eq_ok.mp hstate
    exact absurd (.inr (.inl (by simp [hrelevance]))) hnone

theorem relevantCount_eq : relevantCount records = (relevantRecords records).length := by
  rw [relevantCount, relevantRecords, ← List.countP_eq_length_filter]
  refine List.countP_congr fun record _ => ?_
  rw [decide_eq_true_eq, decide_eq_true_eq]
  exact categorized_iff

theorem countP_buckets {α κ : Type} [DecidableEq κ] (key : α → κ) (p : α → Bool) {keys : List κ}
    (hkeys : keys.Nodup) (xs : List α) (hxs : ∀ x ∈ xs, key x ∈ keys) :
    (keys.map fun k => (xs.filter fun x => key x = k).countP p).sum = xs.countP p := by
  induction xs with
  | nil => simp
  | cons x xs ih =>
    obtain ⟨hx, hxs⟩ := List.forall_mem_cons.mp hxs
    have hone : ∀ k, ((x :: xs).filter fun y => key y = k).countP p =
        ((xs.filter fun y => key y = k).countP p) + if k = key x then (if p x then 1 else 0) else 0 := by
      intro k
      by_cases hk : key x = k
      · simp [hk, List.countP_cons]
      · simp [hk, Ne.symm hk]
    have hadd : (keys.map fun k => if k = key x then (if p x then 1 else 0) else 0).sum =
        if p x then 1 else 0 := by
      rw [List.sum_map_eq_nsmul_single (key x) _ (fun k hk _ => if_neg hk),
        List.count_eq_one_of_mem hkeys hx, one_smul, if_pos rfl]
    simp only [hone, List.sum_map_add]
    rw [ih hxs, hadd, List.countP_cons]

end Buckets

section Coverage
variable {payload : ReportInputManifest}

theorem forM_eq_ok {ε α : Type} {f : α → Except ε Unit} {xs : List α} :
    xs.forM f = .ok () ↔ ∀ x ∈ xs, f x = .ok () := by
  induction xs with
  | nil => exact ⟨fun _ x hx => absurd hx List.not_mem_nil, fun _ => rfl⟩
  | cons x xs ih =>
    have hcons : (x :: xs).forM f = (f x >>= fun _ => xs.forM f) := rfl
    rw [hcons, bind_eq_ok, List.forall_mem_cons, ← ih]
    exact ⟨fun ⟨_, hx, hxs⟩ => ⟨hx, hxs⟩, fun ⟨hx, hxs⟩ => ⟨(), hx, hxs⟩⟩

theorem verifyCoverage_eq_ok : verifyCoverage payload = .ok () ↔
    (∀ record ∈ payload.records, (record.role, record.sourceId) ∈
        payload.sourceCoverage.map ReportInputManifest.coverageKey) ∧
      ∀ coverage ∈ payload.sourceCoverage,
        CountsRetained (coveredRecords payload coverage) coverage ∧
          ∀ record ∈ coveredRecords payload coverage, SameDimensions record coverage := by
  rw [verifyCoverage, require_bind, forM_eq_ok]
  refine and_congr_right fun _ => forall₂_congr fun coverage _ => ?_
  rw [require_bind, forM_eq_ok]
  exact and_congr_right fun _ => forall₂_congr fun record _ => require_eq_ok

theorem coveredRecords_primary {coverage : SourceCoverage} (h : coverage.role = .primary) :
    coveredRecords payload coverage =
      (ofRole .primary payload).filter (fun record => record.sourceId = coverage.sourceId) := by
  rw [coveredRecords, ofRole, List.filter_filter, h]
  refine List.filter_congr fun record _ => ?_
  rw [Bool.decide_and, Bool.and_comm]

theorem primary_counts (hkeys : (payload.sourceCoverage.map ReportInputManifest.coverageKey).Nodup)
    (hverified : verifyCoverage payload = .ok ()) (p : ReportRecord → Bool)
    (count : SourceCoverage → ℕ) (hcount : ∀ coverage ∈ payload.sourceCoverage,
      count coverage = (coveredRecords payload coverage).countP p) :
    ((payload.sourceCoverage.filter (fun item => item.role = .primary)).map count).sum =
      (ofRole .primary payload).countP p := by
  obtain ⟨hpresent, _⟩ := verifyCoverage_eq_ok.mp hverified
  have hbucket : (payload.sourceCoverage.filter (fun item => item.role = .primary)).map count =
      ((payload.sourceCoverage.filter (fun item => item.role = .primary)).map
        (fun item => item.sourceId)).map fun id =>
          ((ofRole .primary payload).filter fun record => record.sourceId = id).countP p := by
    rw [List.map_map]
    refine List.map_congr_left fun coverage hcoverage => ?_
    obtain ⟨hcoverage, hrole⟩ := List.mem_filter.mp hcoverage
    rw [hcount coverage hcoverage, coveredRecords_primary (of_decide_eq_true hrole)]
    rfl
  have hnodup : ((payload.sourceCoverage.filter (fun item => item.role = .primary)).map
      (fun item => item.sourceId)).Nodup := by
    have hfiltered : ((payload.sourceCoverage.filter (fun item => item.role = .primary)).map
        ReportInputManifest.coverageKey).Nodup :=
      List.Nodup.sublist (List.Sublist.map _ List.filter_sublist) hkeys
    refine List.Nodup.of_map (fun id => (ReportRole.primary, id)) ?_
    rw [List.map_map]
    refine (congrArg List.Nodup (List.map_congr_left fun coverage hcoverage => ?_)).mp hfiltered
    have hrole : coverage.role = .primary := of_decide_eq_true (List.mem_filter.mp hcoverage).2
    rw [ReportInputManifest.coverageKey, hrole]
    rfl
  rw [hbucket]
  refine countP_buckets ReportRecord.sourceId p hnodup _ fun record hrecord => ?_
  obtain ⟨hrecord, hrole⟩ := List.mem_filter.mp hrecord
  have hrole : record.role = .primary := of_decide_eq_true hrole
  obtain ⟨coverage, hcoverage, hkey⟩ := List.mem_map.mp (hpresent record hrecord)
  rw [ReportInputManifest.coverageKey, Prod.mk.injEq, hrole] at hkey
  exact List.mem_map.mpr ⟨coverage, List.mem_filter.mpr ⟨hcoverage, decide_eq_true hkey.1⟩, hkey.2⟩

end Coverage

section Projection
variable {payload normalized : ReportInputManifest} {report : DailyReportPayload}

/-- The totals of a report, as the projection computes them. -/
structure Totals (normalized : ReportInputManifest) (report : DailyReportPayload) : Prop where
  candidate : report.candidateCount.val = (ofRole .primary normalized).length
  valid : report.validAnalysisCount.val = validCount (ofRole .primary normalized)
  pending : report.pendingCount.val =
    (ofRole .primary normalized).length - validCount (ofRole .primary normalized)
  relevant : report.relevantCount.val = (relevantPrimary normalized).length
  sentiments : report.positiveCount.val = sentimentCount (relevantPrimary normalized) (some .positive) ∧
    report.neutralCount.val = sentimentCount (relevantPrimary normalized) (some .neutral) ∧
    report.negativeCount.val = sentimentCount (relevantPrimary normalized) (some .negative) ∧
    report.unknownSentimentCount.val = sentimentCount (relevantPrimary normalized) none
  comments : report.commentsSum = knownSum (knownComments (relevantPrimary normalized)) ∧
    report.commentsKnownCount.val = (knownComments (relevantPrimary normalized)).length ∧
    report.commentsUnknownCount.val = (relevantPrimary normalized).length -
      (knownComments (relevantPrimary normalized)).length
  scores : report.scoreSum = knownSum (knownScores (relevantPrimary normalized)) ∧
    report.scoreKnownCount.val = (knownScores (relevantPrimary normalized)).length ∧
    report.scoreUnknownCount.val = (relevantPrimary normalized).length -
      (knownScores (relevantPrimary normalized)).length
  coverage : report.sourceCoverage = normalized.sourceCoverage
  status : report.status = if PrimarySourcesComplete normalized ∧
      AnalysisComplete (ofRole .primary normalized).length
        (validCount (ofRole .primary normalized)) then .complete else .partialReport

/-- What a report takes over from its manifest and from the rankings. -/
structure Carried (normalized : ReportInputManifest) (inputSetHash : Digest)
    (report : DailyReportPayload) : Prop where
  date : report.reportDateSeoul = normalized.reportDateSeoul
  inputSet : report.inputSetHash = inputSetHash
  scope : report.sourceScopeVersion = normalized.sourceScopeVersion
  formula : report.formulaVersion = normalized.definitions.formulaVersion
  metric : report.metricVersion = normalized.definitions.metricVersion
  category : report.categoryVersion = normalized.definitions.categoryVersion
  analysis : report.analysisCoverageDecimal =
    ratioDecimal (validCount (ofRole .primary normalized)) (ofRole .primary normalized).length
  highlights : rankHighlights (relevantPrimary normalized)
    (relevantRecords (ofRole .comparison normalized)) = .ok report.highlights
  risingKeywords : rankRisingKeywords (relevantPrimary normalized)
    (relevantRecords (ofRole .comparison normalized)) = .ok report.risingKeywords
  coverage : report.sourceCoverage = normalized.sourceCoverage

theorem projectPayload_shows {inputSetHash payloadHash : Digest}
    (h : projectPayload normalized inputSetHash payloadHash = .ok report) :
    Totals normalized report ∧ Carried normalized inputSetHash report := by
  obtain ⟨highlights, hhighlights, h⟩ := bind_eq_ok.mp h
  obtain ⟨risingKeywords, hrisingKeywords, h⟩ := bind_eq_ok.mp h
  obtain ⟨candidate, hcandidate, h⟩ := bind_eq_ok.mp h
  obtain ⟨valid, hvalid, h⟩ := bind_eq_ok.mp h
  obtain ⟨pending, hpending, h⟩ := bind_eq_ok.mp h
  obtain ⟨relevant, hrelevant, h⟩ := bind_eq_ok.mp h
  obtain ⟨positive, hpositive, h⟩ := bind_eq_ok.mp h
  obtain ⟨neutral, hneutral, h⟩ := bind_eq_ok.mp h
  obtain ⟨negative, hnegative, h⟩ := bind_eq_ok.mp h
  obtain ⟨unknown, hunknown, h⟩ := bind_eq_ok.mp h
  obtain ⟨numerator, _, h⟩ := bind_eq_ok.mp h
  obtain ⟨denominator, _, h⟩ := bind_eq_ok.mp h
  obtain ⟨commentsKnown, hcommentsKnown, h⟩ := bind_eq_ok.mp h
  obtain ⟨commentsUnknown, hcommentsUnknown, h⟩ := bind_eq_ok.mp h
  obtain ⟨scoreKnown, hscoreKnown, h⟩ := bind_eq_ok.mp h
  obtain ⟨scoreUnknown, hscoreUnknown, h⟩ := bind_eq_ok.mp h
  have hreport := Except.ok.inj h
  subst hreport
  refine ⟨⟨safeCount_eq_ok.mp hcandidate, safeCount_eq_ok.mp hvalid, safeCount_eq_ok.mp hpending,
    safeCount_eq_ok.mp hrelevant, ⟨safeCount_eq_ok.mp hpositive, safeCount_eq_ok.mp hneutral,
      safeCount_eq_ok.mp hnegative, safeCount_eq_ok.mp hunknown⟩, ⟨rfl, ?_, ?_⟩, ⟨rfl, ?_, ?_⟩, rfl,
    rfl⟩, rfl, rfl, rfl, rfl, rfl, rfl, rfl, hhighlights, hrisingKeywords, rfl⟩
  · exact safeCount_eq_ok.mp hcommentsKnown
  · exact safeCount_eq_ok.mp hcommentsUnknown
  · exact safeCount_eq_ok.mp hscoreKnown
  · exact safeCount_eq_ok.mp hscoreUnknown

theorem projectReport_eq_ok {nf : NormalForm} {gzip : Gzip} {build : ReportBuild}
    (h : projectReport nf gzip payload = .ok build) :
    ∃ normalized, normalizeManifest payload = .ok normalized ∧
      verifyCoverage normalized = .ok () ∧ Totals normalized build.payload := by
  obtain ⟨manifest, hmanifest, h⟩ := bind_eq_ok.mp h
  obtain ⟨_, hverified, h⟩ := bind_eq_ok.mp h
  obtain ⟨report, hreport, h⟩ := bind_eq_ok.mp h
  have hbuild := Except.ok.inj h
  subst hbuild
  obtain ⟨normalized, hnormalized, hmanifest⟩ := bind_eq_ok.mp hmanifest
  have hpayload : manifest.payload = normalized := by rw [← Except.ok.inj hmanifest]
  rw [hpayload] at hverified hreport
  exact ⟨normalized, hnormalized, hverified, (projectPayload_shows hreport).1⟩

theorem analysisComplete_iff {candidate valid : ℕ} : AnalysisComplete candidate valid ↔
    candidate = 0 ∨ (85 / 100 : ℚ) ≤ (valid : ℚ) / candidate := by
  have hnumerator : FormulaConstants.completeCoverageNumerator = 85 := rfl
  have hdenominator : FormulaConstants.completeCoverageDenominator = 100 := rfl
  rw [AnalysisComplete, hnumerator, hdenominator]
  by_cases hzero : candidate = 0
  · simp [hzero]
  · have hpositive : (0 : ℚ) < candidate := by exact_mod_cast Nat.pos_of_ne_zero hzero
    rw [div_le_div_iff₀ (by norm_num) hpositive]
    simp only [hzero, false_or]
    norm_cast
    rw [Nat.mul_comm candidate 85]

theorem status_iff (hnormalized : normalizeManifest payload = .ok normalized)
    (htotals : Totals normalized report) :
    report.status = .complete ↔ DocumentedComplete payload := by
  have hrecords := normalizeManifest_ofRole hnormalized .primary
  have hcoverage := (normalizeManifest_facts hnormalized).2
  have hsources : PrimarySourcesComplete normalized ↔
      ∀ item ∈ payload.sourceCoverage, item.role = .primary → item.expected = true →
        item.collectionStatus = .complete :=
    forall_congr' fun item => by rw [hcoverage.mem_iff]
  rw [htotals.status, DocumentedComplete, ← hsources, ← analysisComplete_iff, ← hrecords.length_eq,
    ← hrecords.validCount_eq]
  by_cases hcomplete : PrimarySourcesComplete normalized ∧
      AnalysisComplete (ofRole .primary normalized).length (validCount (ofRole .primary normalized))
  · rw [if_pos hcomplete]
    exact ⟨fun _ => hcomplete, fun _ => rfl⟩
  · rw [if_neg hcomplete]
    exact ⟨fun h => absurd h (by decide), fun h => absurd h hcomplete⟩

theorem countsRetained_val {records : List ReportRecord} {coverage : SourceCoverage}
    (h : CountsRetained records coverage) : coverage.candidateCount.val = records.countP (fun _ => true) ∧
      coverage.validAnalysisCount.val = validCount records ∧
      coverage.pendingCount.val = records.countP (fun record => !decide (record.analysis.state = .valid)) ∧
      coverage.relevantCount.val = relevantCount records := by
  rw [CountsRetained, Prod.mk.injEq, Prod.mk.injEq, Prod.mk.injEq] at h
  obtain ⟨hcandidate, hvalid, hpending, hrelevant⟩ := h
  have hlength : records.length = validCount records +
      records.countP (fun record => !decide (record.analysis.state = .valid)) := by
    rw [validCount, List.length_eq_countP_add_countP
      (fun record : ReportRecord => decide (record.analysis.state = .valid))]
    simp only [decide_eq_true_eq, decide_not]
  refine ⟨by rw [List.countP_true, hcandidate], hvalid.symm, ?_, hrelevant.symm⟩
  omega

end Projection

section Success
variable {normalized : ReportInputManifest}

theorem relevantRecords_length_le {role : ReportRole} :
    (relevantRecords (ofRole role normalized)).length ≤ normalized.records.length :=
  (List.length_filter_le _ _).trans (List.length_filter_le _ _)

theorem categoryCounts_le {records : List ReportRecord}
    (h : ∀ record ∈ records, record.effectiveCategories.Nodup) (category : Text) :
    (categoryCounts records).count category ≤ records.length := by
  rw [count_categoryCounts, (deduplicated_counts h category).1]
  exact List.countP_le_length

theorem projectPayload_ok (inputSetHash payloadHash : Digest)
    (hrecords : normalized.records.length < 2 ^ 53)
    (hcategories : ∀ record ∈ normalized.records, record.effectiveCategories.Nodup) :
    ∃ report, projectPayload normalized inputSetHash payloadHash = .ok report := by
  have hlisted : ∀ role category,
      (categoryCounts (relevantRecords (ofRole role normalized))).count category < 2 ^ 53 := by
    intro role category
    refine lt_of_le_of_lt (categoryCounts_le (fun record hrecord => ?_) category)
      (lt_of_le_of_lt relevantRecords_length_le hrecords)
    exact hcategories record (List.mem_filter.mp (List.mem_filter.mp hrecord).1).1
  obtain ⟨highlights, hhighlights⟩ := rankHighlights_of (hlisted .primary) (hlisted .comparison)
  obtain ⟨risingKeywords, hrising⟩ := rankRisingKeywords_ok
    (lt_of_le_of_lt (@relevantRecords_length_le _ .primary) hrecords)
    (lt_of_le_of_lt (@relevantRecords_length_le _ .comparison) hrecords)
  have hprimary : (ofRole .primary normalized).length < 2 ^ 53 :=
    lt_of_le_of_lt (List.length_filter_le _ _) hrecords
  have hvalid : validCount (ofRole .primary normalized) < 2 ^ 53 :=
    lt_of_le_of_lt List.countP_le_length hprimary
  have hrelevant : (relevantRecords (ofRole .primary normalized)).length < 2 ^ 53 :=
    lt_of_le_of_lt relevantRecords_length_le hrecords
  have hsentiment : ∀ sentiment,
      sentimentCount (relevantRecords (ofRole .primary normalized)) sentiment < 2 ^ 53 :=
    fun sentiment => lt_of_le_of_lt List.countP_le_length hrelevant
  have hcomments : (knownComments (relevantRecords (ofRole .primary normalized))).length < 2 ^ 53 :=
    lt_of_le_of_lt (List.length_filterMap_le _ _) hrelevant
  have hscores : (knownScores (relevantRecords (ofRole .primary normalized))).length < 2 ^ 53 :=
    lt_of_le_of_lt (List.length_filterMap_le _ _) hrelevant
  have hfits : ∀ n : ℕ, (h : n < 2 ^ 53) → safeCount n = .ok ⟨n, h⟩ := fun n h =>
    safeCount_eq_ok.mpr rfl
  have hless : ∀ n m : ℕ, n < 2 ^ 53 → n - m < 2 ^ 53 := fun n m h =>
    lt_of_le_of_lt (Nat.sub_le n m) h
  rw [projectPayload, hhighlights, ok_bind, hrising, ok_bind, hfits _ hprimary, ok_bind,
    hfits _ hvalid, ok_bind, hfits _ (hless _ _ hprimary), ok_bind, hfits _ hrelevant, ok_bind,
    hfits _ (hsentiment _), ok_bind, hfits _ (hsentiment _), ok_bind, hfits _ (hsentiment _), ok_bind,
    hfits _ (hsentiment _), ok_bind, ok_bind, ok_bind, hfits _ hcomments, ok_bind,
    hfits _ (hless _ _ hrelevant), ok_bind, hfits _ hscores, ok_bind, hfits _ (hless _ _ hrelevant),
    ok_bind]
  exact ⟨_, rfl⟩

theorem normalizeManifest_categories {payload normalized : ReportInputManifest}
    (h : normalizeManifest payload = .ok normalized) :
    ∀ record ∈ normalized.records, record.effectiveCategories.Nodup := by
  obtain ⟨records, hrecords, h⟩ := bind_eq_ok.mp h
  obtain ⟨windows, _, h⟩ := bind_eq_ok.mp h
  have hnormalized := Except.ok.inj h
  subst hnormalized
  intro record hrecord
  obtain ⟨results, hresults, hrecord⟩ := List.mem_flatten.mp hrecord
  obtain ⟨role, _, hrole⟩ := forall₂_mem_right (mapM_forall₂.mp hrecords) results hresults
  obtain ⟨pair, _, hpair⟩ := forall₂_mem_right (mapM_forall₂.mp hrole) record hrecord
  obtain ⟨categories, hcategories, rfl⟩ := normalizeRecord_eq_ok hpair
  exact hcategories

theorem requireMapping_eq_ok {mappings : MappingKey → Option CategoryMappingSnapshot} {key : MappingKey}
    {category : Text} {message : String} :
    ReportInputManifest.requireMapping mappings key category message = .ok () ↔
      ∃ mapping, mappings key = some mapping ∧ mapping.category = category := by
  rw [ReportInputManifest.requireMapping, bind_eq_ok]
  simp only [present_eq_ok, require_eq_ok]

theorem validateGoverningRecord_eq_ok {payload : ReportInputManifest}
    {mappings : MappingKey → Option CategoryMappingSnapshot} {record : ReportRecord} :
    payload.validateGoverningRecord mappings record = .ok () ↔
      (record.analysis.state = .valid →
        (record.analysis.promptVersion, record.analysis.modelVersion, record.analysis.schemaVersion) ∈
          payload.analysisVersions) ∧
      (∀ rule ∈ record.ruleMatches, (rule.ruleSetId, rule.ruleSetVersion) ∈ payload.ruleVersions ∧
        ∃ mapping, mappings (ruleMappingKey rule) = some mapping ∧
          mapping.category = rule.mappedCategory) ∧
      ∀ topic ∈ record.topicMatches, ∃ mapping, mappings (topicMappingKey topic) = some mapping ∧
        mapping.category = topic.mappedCategory := by
  have hrule : ∀ rule : RuleMatchSnapshot,
      (require ((rule.ruleSetId, rule.ruleSetVersion) ∈ payload.ruleVersions)
          (ReportFailure.schema ⟨"manifest_rule_version_unknown",
            "rule match must use a governing rule-set version"⟩) >>= fun _ : Unit =>
        ReportInputManifest.requireMapping mappings (ruleMappingKey rule) rule.mappedCategory
          "record rule category contradicts the retained mapping") = .ok () ↔
      (rule.ruleSetId, rule.ruleSetVersion) ∈ payload.ruleVersions ∧
        ∃ mapping, mappings (ruleMappingKey rule) = some mapping ∧
          mapping.category = rule.mappedCategory := by
    intro rule
    rw [require_bind, requireMapping_eq_ok]
  rw [ReportInputManifest.validateGoverningRecord, require_bind, bind_eq_ok]
  refine and_congr_right fun _ => ⟨?_, ?_⟩
  · rintro ⟨_, hrules, htopics⟩
    exact ⟨fun rule hmem => (hrule rule).mp (forM_eq_ok.mp hrules rule hmem),
      fun topic hmem => requireMapping_eq_ok.mp (forM_eq_ok.mp htopics topic hmem)⟩
  · rintro ⟨hrules, htopics⟩
    exact ⟨(), forM_eq_ok.mpr fun rule hmem => (hrule rule).mpr (hrules rule hmem),
      forM_eq_ok.mpr fun topic hmem => requireMapping_eq_ok.mpr (htopics topic hmem)⟩

theorem normalizeRecord_ok {record : ReportRecord} (ordinal : ℕ)
    {mappings : MappingKey → Option CategoryMappingSnapshot}
    (hrules : ∀ rule ∈ record.ruleMatches, ∃ mapping, mappings (ruleMappingKey rule) = some mapping)
    (htopics : ∀ topic ∈ record.topicMatches,
      ∃ mapping, mappings (topicMappingKey topic) = some mapping) :
    ∃ result, normalizeRecord record ordinal mappings = .ok result := by
  have hmapped : ∀ key, (∃ mapping, mappings key = some mapping) →
      ∃ category, mappedCategory mappings key = .ok category := by
    rintro key ⟨mapping, hmapping⟩
    refine ⟨mapping.category, ?_⟩
    rw [mappedCategory, hmapping]
    rfl
  by_cases hcategorized : Categorized record
  · simp only [normalizeRecord, if_pos hcategorized]
    obtain ⟨fromRules, hfromRules⟩ := mapM_ok_of_forall fun rule
      (hrule : rule ∈ (sortBy ruleSortKey record.ruleMatches).filter (·.matchPresent)) =>
        hmapped _ (hrules rule (mem_sortBy.mp (List.mem_filter.mp hrule).1))
    obtain ⟨fromTopics, hfromTopics⟩ := mapM_ok_of_forall fun topic
      (htopic : topic ∈ sortBy topicSortKey record.topicMatches) =>
        hmapped _ (htopics topic (mem_sortBy.mp htopic))
    rw [hfromRules, ok_bind, hfromTopics, ok_bind]
    exact ⟨_, rfl⟩
  · simp only [normalizeRecord, if_neg hcategorized]
    exact ⟨_, rfl⟩

theorem normalizeManifest_ok {payload : ReportInputManifest}
    (hvalid : payload.validateWindowsAndRecords = .ok ()) :
    ∃ normalized, normalizeManifest payload = .ok normalized := by
  obtain ⟨_, hpublication, hvalid⟩ := bind_eq_ok.mp hvalid
  obtain ⟨_, _, hvalid⟩ := bind_eq_ok.mp hvalid
  obtain ⟨mappings, hmappings, hvalid⟩ := bind_eq_ok.mp hvalid
  obtain ⟨_, _, hmappings⟩ := bind_eq_ok.mp hmappings
  obtain rfl := Except.ok.inj hmappings
  obtain ⟨windows, hwindows, _⟩ := bind_eq_ok.mp hpublication
  have hrecord : ∀ record ∈ payload.records, ∀ ordinal,
      ∃ result, normalizeRecord record ordinal (mappingByKey payload.categoryMappings) = .ok result := by
    intro record hrecord ordinal
    obtain ⟨_, hrules, htopics⟩ :=
      validateGoverningRecord_eq_ok.mp (forM_eq_ok.mp hvalid record hrecord)
    refine normalizeRecord_ok ordinal (fun rule hrule => ?_) fun topic htopic => ?_
    · exact (hrules rule hrule).2.imp fun _ h => h.1
    · exact (htopics topic htopic).imp fun _ h => h.1
  have hrole : ∀ role, ∃ results, (orderedRecords role payload.records).zipIdx.mapM
      (fun (record, ordinal) => normalizeRecord record ordinal
        (mappingByKey payload.categoryMappings)) = .ok results := by
    intro role
    refine mapM_ok_of_forall fun pair hpair => hrecord pair.1 ?_ pair.2
    have hordered : pair.1 ∈ orderedRecords role payload.records := by
      rw [← List.zipIdx_map_fst 0 (orderedRecords role payload.records)]
      exact List.mem_map_of_mem hpair
    exact (List.mem_filter.mp (mem_sortBy.mp hordered)).1
  obtain ⟨primary, hprimary⟩ := hrole .primary
  obtain ⟨comparison, hcomparison⟩ := hrole .comparison
  rw [normalizeManifest, List.mapM_cons, hprimary, ok_bind, List.mapM_cons, hcomparison, ok_bind,
    List.mapM_nil, pure_bind, pure_bind, pure_bind, hwindows, ok_bind]
  exact ⟨_, rfl⟩

theorem verifyCoverage_normalized {payload normalized : ReportInputManifest}
    (h : normalizeManifest payload = .ok normalized) (hverified : verifyCoverage payload = .ok ()) :
    verifyCoverage normalized = .ok () := by
  obtain ⟨hfacts, hcoverage⟩ := normalizeManifest_facts h
  obtain ⟨hpresent, hretained⟩ := verifyCoverage_eq_ok.mp hverified
  have hsame : SameFacts normalized.records payload.records := hfacts
  have hcovered : ∀ coverage : SourceCoverage,
      SameFacts (coveredRecords normalized coverage) (coveredRecords payload coverage) := fun coverage =>
    hsame.filter fun f => f.role = coverage.role ∧ f.sourceId = coverage.sourceId
  refine verifyCoverage_eq_ok.mpr ⟨fun record hrecord => ?_, fun coverage hmem => ⟨?_, ?_⟩⟩
  · obtain ⟨other, hother, hsameFacts⟩ :=
      List.mem_map.mp (hfacts.mem_iff.mp (List.mem_map_of_mem hrecord))
    rw [facts, facts, RecordFacts.mk.injEq] at hsameFacts
    have hkey := hpresent other hother
    rw [hsameFacts.1, hsameFacts.2.1] at hkey
    exact (hcoverage.map ReportInputManifest.coverageKey).mem_iff.mpr hkey
  · have hcounts := (hretained coverage (hcoverage.mem_iff.mp hmem)).1
    have hrelevant : relevantCount (coveredRecords normalized coverage) =
        relevantCount (coveredRecords payload coverage) :=
      (hcovered coverage).countP_eq fun f => f.analysis.relevance = some true
    rwa [CountsRetained, (hcovered coverage).length_eq, (hcovered coverage).validCount_eq, hrelevant]
  · intro record hrecord
    have hkept := normalizeManifest_map (f := fun record =>
      (facts record, record.country, record.platform, record.community))
      (fun _ _ _ _ hresult => by
        obtain ⟨_, _, rfl⟩ := normalizeRecord_eq_ok hresult
        rfl) h
    obtain ⟨hrecord, hkey⟩ := List.mem_filter.mp hrecord
    obtain ⟨other, hother, hsameFacts⟩ :=
      List.mem_map.mp (hkept.mem_iff.mp (List.mem_map_of_mem hrecord))
    rw [Prod.mk.injEq, facts, facts, RecordFacts.mk.injEq] at hsameFacts
    have hdimensions := (hretained coverage (hcoverage.mem_iff.mp hmem)).2 other
      (List.mem_filter.mpr ⟨hother, by
        rw [hsameFacts.1.1, hsameFacts.1.2.1]
        exact hkey⟩)
    rwa [SameDimensions, hsameFacts.2] at hdimensions

theorem projectReport_of {nf : NormalForm} {gzip : Gzip} {payload : ReportInputManifest}
    (hvalid : payload.validateWindowsAndRecords = .ok ())
    (hverified : verifyCoverage payload = .ok ()) (hrecords : payload.records.length < 2 ^ 53) :
    ∃ build, projectReport nf gzip payload = .ok build := by
  obtain ⟨normalized, hnormalized⟩ := normalizeManifest_ok hvalid
  have hsame : SameFacts normalized.records payload.records := (normalizeManifest_facts hnormalized).1
  obtain ⟨manifest, hmanifest, hpayload⟩ : ∃ manifest,
      buildManifest nf gzip payload = .ok manifest ∧ manifest.payload = normalized := by
    rw [buildManifest, hnormalized, ok_bind]
    exact ⟨_, rfl, rfl⟩
  obtain ⟨report, hreport⟩ := projectPayload_ok manifest.envelope.inputSetHash
    manifest.envelope.manifestPayloadSha256 (hsame.length_eq ▸ hrecords)
    (normalizeManifest_categories hnormalized)
  rw [projectReport, hmanifest, ok_bind, hpayload, verifyCoverage_normalized hnormalized hverified,
    ok_bind, hreport, ok_bind]
  exact ⟨_, rfl⟩

end Success

section Results

/-- Every report that is projected obeys the accounting identities of its payload. -/
theorem report_accounts {nf : NormalForm} {gzip : Gzip} {payload : ReportInputManifest}
    {build : ReportBuild} (hvalid : payload.validateWindowsAndRecords = .ok ())
    (h : projectReport nf gzip payload = .ok build) :
    AccountingIdentities payload build.payload := by
  obtain ⟨normalized, hnormalized, hverified, htotals⟩ := projectReport_eq_ok h
  have hrecords := normalizeManifest_ofRole hnormalized .primary
  have hrelevant : SameFacts (relevantPrimary normalized) (relevantPrimary payload) :=
    hrecords.relevant
  have hcomments := hrelevant.knownComments
  have hscores := hrelevant.knownScores
  have hkeys : (normalized.sourceCoverage.map ReportInputManifest.coverageKey).Nodup := by
    obtain ⟨_, _, hvalid⟩ := bind_eq_ok.mp hvalid
    obtain ⟨_, hcoverage, _⟩ := bind_eq_ok.mp hvalid
    exact ((normalizeManifest_facts hnormalized).2.map _).nodup_iff.mpr (require_eq_ok.mp hcoverage)
  have hretained := fun coverage hcoverage =>
    countsRetained_val ((verifyCoverage_eq_ok.mp hverified).2 coverage hcoverage).1
  have hcovered := fun p => primary_counts hkeys hverified p
  have hprimary : primaryCoverage build.payload =
      normalized.sourceCoverage.filter (fun item => item.role = .primary) := by
    rw [primaryCoverage, htotals.coverage]
  obtain ⟨hpositive, hneutral, hnegative, hunknown⟩ := htotals.sentiments
  obtain ⟨hcommentsSum, hcommentsKnown, hcommentsUnknown⟩ := htotals.comments
  obtain ⟨hscoreSum, hscoreKnown, hscoreUnknown⟩ := htotals.scores
  have hvalidLe : validCount (ofRole .primary normalized) ≤ (ofRole .primary normalized).length :=
    List.countP_le_length
  have hrelevantLe : (relevantPrimary normalized).length ≤ validCount (ofRole .primary normalized) :=
    relevantRecords_le
  have hbuckets := @sentiment_buckets (relevantPrimary normalized)
  have hcommentsLe : (knownComments (relevantPrimary normalized)).length ≤
      (relevantPrimary normalized).length := List.length_filterMap_le _ _
  have hscoresLe : (knownScores (relevantPrimary normalized)).length ≤
      (relevantPrimary normalized).length := List.length_filterMap_le _ _
  exact {
    candidate := htotals.candidate.trans hrecords.length_eq
    valid := htotals.valid.trans hrecords.validCount_eq
    relevant := htotals.relevant.trans hrelevant.length_eq
    positive := hpositive.trans (hrelevant.sentimentCount_eq _)
    neutral := hneutral.trans (hrelevant.sentimentCount_eq _)
    negative := hnegative.trans (hrelevant.sentimentCount_eq _)
    unknown := hunknown.trans (hrelevant.sentimentCount_eq _)
    candidate_split := by
      rw [htotals.candidate, htotals.valid, htotals.pending]
      omega
    relevant_split := by
      rw [htotals.relevant, hpositive, hneutral, hnegative, hunknown]
      exact hbuckets
    relevant_le := by
      rw [htotals.relevant, htotals.valid]
      exact hrelevantLe
    comments_split := by
      rw [htotals.relevant, hcommentsKnown, hcommentsUnknown]
      omega
    score_split := by
      rw [htotals.relevant, hscoreKnown, hscoreUnknown]
      omega
    comments_known := hcommentsKnown.trans hcomments.length_eq
    comments_null := by
      rw [hcommentsSum, hcommentsKnown]
      exact knownSum_eq_none
    comments_sum := by
      intro total htotal
      rw [hcommentsSum] at htotal
      exact (knownSum_mem htotal).trans hcomments.sum_eq
    score_known := hscoreKnown.trans hscores.length_eq
    score_null := by
      rw [hscoreSum, hscoreKnown]
      exact knownSum_eq_none
    score_sum := by
      intro total htotal
      rw [hscoreSum] at htotal
      exact (knownSum_mem htotal).trans hscores.sum_eq
    covered_candidate := by
      rw [hprimary, htotals.candidate, hcovered (fun _ => true) _ fun c hc => (hretained c hc).1,
        List.countP_true]
    covered_valid := by
      rw [hprimary, htotals.valid]
      exact hcovered _ _ fun c hc => (hretained c hc).2.1
    covered_pending := by
      have hpending := hcovered (fun record => !decide (record.analysis.state = .valid)) _
        fun c hc => (hretained c hc).2.2.1
      have hsplit := List.length_eq_countP_add_countP
        (fun record : ReportRecord => decide (record.analysis.state = .valid))
        (l := ofRole .primary normalized)
      simp only [decide_eq_true_eq, decide_not] at hsplit
      rw [hprimary, htotals.pending, hpending, validCount]
      omega
    covered_relevant := by
      have hcounted := hcovered (fun record => decide (record.analysis.relevance = some true)) _
        fun c hc => (hretained c hc).2.2.2
      rw [hprimary, htotals.relevant, hcounted]
      exact relevantCount_eq
    status := status_iff hnormalized htotals }

end Results

section Sample

def sampleDigest : Digest := 0

def sampleTime : UtcTimestamp := ⟨seconds 1785560000, by decide⟩

def sampleAnalysis : AnalysisSnapshot where
  state := .valid
  analysisId := some 1
  outputHash := some sampleDigest
  promptVersion := some "prompt-1".toList
  modelVersion := some "model-1".toList
  schemaVersion := some "schema-1".toList
  analyzedAt := some sampleTime
  relevance := some true
  sentiment := some .positive
  valid_state := by decide

def samplePending : AnalysisSnapshot where
  state := .pending
  analysisId := none
  outputHash := none
  promptVersion := none
  modelVersion := none
  schemaVersion := none
  analyzedAt := none
  relevance := none
  sentiment := none
  valid_state := by decide

def sampleEngagement : EngagementSnapshot where
  selectionState := .selected
  observationId := some 1
  engagementHash := some sampleDigest
  observedAt := some sampleTime
  commentsCount := some ⟨3, by decide⟩
  upvoteOrScore := none
  valid_selection := by decide

theorem sampleDay_valid : -719162 ≤ (20666 : ℤ) ∧ (20666 : ℤ) ≤ 2932896 := by decide

def sampleRecord (ordinal : ℕ) (postVersionId : UUID) (analysis : AnalysisSnapshot)
    (effectiveCategories : List Text) : ReportRecord where
  ordinal := ordinal
  role := .primary
  sourceId := 1
  country := .kr
  platform := .dcinside
  community := "stocks".toList
  postVersionId := postVersionId
  postContentHash := sampleDigest
  publishedAtUtc := sampleTime
  publishedDateSeoul := ⟨20666, by decide⟩
  sourcePublicationSequence := ⟨1, by decide⟩
  sourcePublicationManifestId := 1
  sourcePublicationManifestHash := sampleDigest
  analysis := analysis
  ruleMatches := []
  topicMatches := []
  effectiveCategories := effectiveCategories
  engagement := sampleEngagement

def sampleCoverage : SourceCoverage where
  role := .primary
  sourceId := 1
  country := .kr
  platform := .dcinside
  community := "stocks".toList
  expected := true
  enabled := true
  collectionStatus := .complete
  expectedRunCount := ⟨8, by decide⟩
  successfulRunCount := ⟨8, by decide⟩
  failedRunCount := ⟨0, by decide⟩
  skippedRunCount := ⟨0, by decide⟩
  candidateCount := ⟨2, by decide⟩
  validAnalysisCount := ⟨1, by decide⟩
  pendingCount := ⟨1, by decide⟩
  relevantCount := ⟨1, by decide⟩
  cutoffPublicationSequence := none
  cutoffPublicationManifestId := none
  cutoffPublicationManifestHash := none
  latestSuccessfulRunStartedAt := none
  latestSuccessfulRunFinishedAt := none
  latestPublicationCommittedAt := none
  latestAttemptFinishedAt := none
  statusObservedAt := none
  coverageNumerator := ⟨1, by decide⟩
  coverageDenominator := ⟨2, by decide⟩
  coverageDecimal := some "0.5".toList
  valid_counts := by decide +kernel

def sampleWindows : ReportWindow × ReportWindow :=
  (⟨.primary, ⟨20666, by decide⟩, ⟨seoulMidnight 20666, by decide⟩, ⟨seoulMidnight 20667, by decide⟩⟩,
    ⟨.comparison, ⟨20665, by decide⟩, ⟨seoulMidnight 20665, by decide⟩,
      ⟨seoulMidnight 20666, by decide⟩⟩)

def sampleManifest (records : List ReportRecord) : ReportInputManifest where
  reportDateSeoul := ⟨20666, by decide⟩
  windows := sampleWindows
  sourceScopeVersion := "scope".toList
  definitions := {
    formulaVersion := "formula-1".toList
    formulaHash := sampleDigest
    metricVersion := "metric-1".toList
    metricHash := sampleDigest
    categoryVersion := "category-1".toList
    categoryHash := sampleDigest
    ruleSets := []
    analysisVersions := [⟨"prompt-1".toList, "model-1".toList, "schema-1".toList⟩] }
  categoryMappings := []
  records := records
  sourceCoverage := [sampleCoverage]

def sampleInput : ReportInputManifest :=
  sampleManifest [sampleRecord 0 2 samplePending [], sampleRecord 1 1 sampleAnalysis []]

theorem sampleInput_valid : sampleInput.validateWindowsAndRecords = .ok () := by decide +kernel

theorem sampleInput_verified : verifyCoverage sampleInput = .ok () := by decide +kernel

def sampleForm : NormalForm := ⟨id, fun _ => rfl, fun _ _ => rfl⟩

def sampleGzip : Gzip := ⟨id, .ok, fun _ => rfl⟩

theorem sampleInput_projected :
    ∃ build, projectReport sampleForm sampleGzip sampleInput = .ok build :=
  projectReport_of sampleInput_valid sampleInput_verified (by decide)

theorem report_accounts_sample : ∃ build,
    projectReport sampleForm sampleGzip sampleInput = .ok build ∧
      AccountingIdentities sampleInput build.payload := by
  obtain ⟨build, hbuild⟩ := sampleInput_projected
  exact ⟨build, hbuild, report_accounts sampleInput_valid hbuild⟩

end Sample

end PredictionMarketMonitor.ReportAccounting
