import PredictionMarketMonitor.ReportAccounting
import PredictionMarketMonitor.ReportAssembly
import PredictionMarketMonitor.ReportJson

set_option autoImplicit false

/-!
# Assembled inputs are accepted

Rows that the queries select are either refused, because they contradict the
reviewed policy, or assembled into a payload that the schema admits and that
projects to a report.
-/
namespace PredictionMarketMonitor.AssemblyAcceptance

open AnalysisQueue (QueueStatus)
open CanonicalJson CivilTime CollectionBase FallibleSteps KeySorting ReportAccounting ReportAssembly
open ReportFormula ReportInputs ReportManifest Sha256

/-- The columns of the one analysis of a version, or none of them. -/
structure AnalysisColumns (version : AnalysisVersionTuple) (row : RecordSqlRow) : Prop where
  absent : row.analysisId = none → row.analysisState = none
  stored : row.analysisId ≠ none → row.analysisState ≠ none ∧ row.outputHash ≠ none ∧
    row.analyzedAt ≠ none ∧ row.topics ≠ none
  bound : row.analysisId ≠ none → row.promptVersion = some version.promptVersion ∧
    row.modelVersion = some version.modelVersion ∧ row.schemaVersion = some version.schemaVersion
  relevance : row.analysisState = some .valid → row.relevance ≠ none
  sentiment : row.relevance ≠ some true → row.sentiment = none

/-- The columns of the latest engagement observation, or none of them. -/
structure EngagementColumns (row : RecordSqlRow) : Prop where
  absent : row.engagementObservationId = none → row.engagementHash = none ∧
    row.engagementObservedAt = none ∧ row.commentsCount = none ∧ row.upvoteOrScore = none
  stored : row.engagementObservationId ≠ none →
    row.engagementHash ≠ none ∧ row.engagementObservedAt ≠ none
  comments : ∀ n ∈ row.commentsCount, 0 ≤ n ∧ n < 2 ^ 31
  score : ∀ n ∈ row.upvoteOrScore, -2 ^ 31 ≤ n ∧ n < 2 ^ 31

def SequenceColumn (n : ℤ) : Prop := 0 < n ∧ n < 2 ^ 31

/-- The source that a record row names is listed with the same dimensions. -/
def ListedSource (rows : ReportInputQueryRows) (row : RecordSqlRow) : Prop :=
  ∃ source ∈ rows.sources, (source.sourceId, source.country, source.platform, source.community) =
    (row.sourceId, row.country, row.platform, row.community)

/-- Rows of one snapshot, selected for the windows of a date and for the only
    analysis version of a policy. -/
structure Selected (policy : ReportAssemblyPolicy) (windows : ReportWindows)
    (rows : ReportInputQueryRows) : Prop where
  dated : seoulReportWindows rows.reportDateSeoul = some windows
  published : ∀ row ∈ rows.records,
    windows.comparison.startUtc.instant ≤ row.publishedAtUtc.instant ∧
      row.publishedAtUtc.instant < windows.primary.endUtc.instant
  versions : ∃ version, policy.definitions.analysisVersions = [version] ∧
    ∀ row ∈ rows.records, AnalysisColumns version row
  engagement : ∀ row ∈ rows.records, EngagementColumns row
  sequences : (∀ row ∈ rows.records, SequenceColumn row.publicationSequence) ∧
    ∀ item ∈ rows.publications, SequenceColumn item.fingerprint.sequence
  -- current versions belong to one post, and sources are listed once
  distinctVersions : (rows.records.map RecordSqlRow.postVersionId).Nodup
  distinctSources : (rows.sources.map SourceSqlRow.sourceId).Nodup
  listed : ∀ row ∈ rows.records, ListedSource rows row
  -- one command is created for a slot, and its latest attempt is selected
  distinctRuns : (rows.runs.map fun run => (run.sourceId, run.dueSlotUtc)).Nodup
  slotted : ∀ run ∈ rows.runs, ⟨run.dueSlotUtc⟩ ∈ rows.slots
  -- a table holds fewer rows than this
  fits : rows.records.length < 2 ^ 53 ∧ rows.slots.length < 2 ^ 53

def MatchReviewed (policy : ReportAssemblyPolicy) (row : MatchSqlRow) : Prop :=
  ∃ mapping ruleSet, policy.select .rule row.normalizedPhrase row.ruleSetVersion = [mapping] ∧
    policy.ruleSets row.ruleSetVersion row.ruleSetHash = [ruleSet] ∧
    row.storedCategory = mapping.category ∧ row.ruleCategory = mapping.category

section Reviewed
variable (nf : NormalForm) (casefold : Text → Text)

def TopicsReviewed (row : RecordSqlRow) : Prop :=
  row.analysisState = some .valid →
    ∀ topics ∈ row.topics, ∀ topic ∈ topics, normalizedTopic nf casefold topic ≠ []

def Reviewed (policy : ReportAssemblyPolicy) (rows : ReportInputQueryRows) : Prop :=
  ∀ row ∈ rows.records, (∀ item ∈ matchesOf rows row, MatchReviewed policy item) ∧
    TopicsReviewed nf casefold row

end Reviewed

section Settled

/-- A step that succeeds with a property exactly under a condition on its rows, and is refused
    by the assembler itself otherwise. -/
def Settles {α : Type} (R : Prop) (x : Assembly α) (P : α → Prop) : Prop :=
  (R ∧ ∃ a, x = .ok a ∧ P a) ∨ (¬R ∧ ∃ reason, x = .error (.rejected reason))

variable {α β : Type} {R S : Prop} {P : α → Prop} {Q : β → Prop}

theorem Settles.of_ok {x : Assembly α} {a : α} (hx : x = .ok a) (ha : P a) : Settles True x P :=
  .inl ⟨trivial, a, hx, ha⟩

theorem Settles.bind {x : Assembly α} {f : α → Assembly β} (hx : Settles R x P)
    (hf : ∀ a, P a → Settles S (f a) Q) : Settles (R ∧ S) (x >>= f) Q := by
  rcases hx with ⟨hR, a, rfl, ha⟩ | ⟨hR, reason, rfl⟩
  · rcases hf a ha with ⟨hS, b, hb, hQ⟩ | ⟨hS, reason, hb⟩
    · exact .inl ⟨⟨hR, hS⟩, b, hb, hQ⟩
    · exact .inr ⟨fun h => hS h.2, reason, hb⟩
  · exact .inr ⟨fun h => hR h.1, reason, rfl⟩

theorem Settles.congr {x : Assembly α} {P' : α → Prop} (hx : Settles R x P) (hRS : R ↔ S)
    (hP : ∀ a, P a → P' a) : Settles S x P' := by
  rcases hx with ⟨hR, a, hx, ha⟩ | ⟨hR, reason, hx⟩
  · exact .inl ⟨hRS.mp hR, a, hx, hP a ha⟩
  · exact .inr ⟨fun h => hR (hRS.mpr h), reason, hx⟩

theorem Settles.require {p : Prop} [Decidable p] {reason : String} :
    Settles p (FallibleSteps.require p (AssemblyFailure.rejected reason) : Assembly Unit)
      fun _ => p := by
  by_cases hp : p
  · exact .inl ⟨hp, (), require_of hp, hp⟩
  · exact .inr ⟨hp, reason, require_of_not hp⟩

theorem Settles.mapM {γ : Type} {f : γ → Assembly α} {R : γ → Prop} {P : γ → α → Prop} {xs : List γ}
    (h : ∀ x ∈ xs, Settles (R x) (f x) (P x)) :
    Settles (∀ x ∈ xs, R x) (xs.mapM f) (fun ys => List.Forall₂ P xs ys) := by
  induction xs with
  | nil => exact .inl ⟨fun x hx => absurd hx List.not_mem_nil, [], rfl, .nil⟩
  | cons x xs ih =>
    obtain ⟨hx, hxs⟩ := List.forall_mem_cons.mp h
    have hsteps : Settles (R x ∧ (∀ y ∈ xs, R y) ∧ True)
        (f x >>= fun y => xs.mapM f >>= fun ys => pure (y :: ys))
          (fun ys => List.Forall₂ P (x :: xs) ys) :=
      hx.bind fun y hy => (ih hxs).bind fun ys hys => .of_ok rfl (.cons hy hys)
    rw [List.mapM_cons]
    exact hsteps.congr (by rw [and_true, List.forall_mem_cons]) fun _ h => h

end Settled

section Checked

theorem checkedAnalysis_of {values : AnalysisValues} (h : values.validateState = .ok ()) :
    checkedAnalysis values = .ok ⟨values, h⟩ := by
  rw [checkedAnalysis]
  split
  · rfl
  · rename_i e he
    rw [h] at he
    cases he

theorem checkedEngagement_of {values : EngagementValues} (h : values.validateSelection = .ok ()) :
    checkedEngagement values = .ok ⟨values, h⟩ := by
  rw [checkedEngagement]
  split
  · rfl
  · rename_i e he
    rw [h] at he
    cases he

theorem checkedCoverage_of {values : CoverageValues} (h : values.validateCounts = .ok ()) :
    checkedCoverage values = .ok ⟨values, h⟩ := by
  rw [checkedCoverage]
  split
  · rfl
  · rename_i e he
    rw [h] at he
    cases he

theorem checkedCount_of {n : ℕ} (h : n < 2 ^ 53) : checkedCount n = .ok ⟨n, h⟩ := by
  have hn : 0 ≤ (n : ℤ) ∧ (n : ℤ).toNat < 2 ^ 53 := by omega
  rw [checkedCount, SafeCount.ofInt?, dif_pos hn]
  rfl

theorem checkedOptional_of {α β : Type} {f : α → Option β} {value : Option α}
    (h : ∀ a ∈ value, ∃ b, f a = some b) :
    ∃ checked, checkedOptional f value = .ok checked ∧ checked.isSome = value.isSome := by
  cases value with
  | none => exact ⟨none, rfl, rfl⟩
  | some a =>
    obtain ⟨b, hb⟩ := h a rfl
    refine ⟨some b, ?_, rfl⟩
    rw [checkedOptional, hb]
    rfl

theorem safeCount_ofInt {n : ℤ} (h : 0 ≤ n ∧ n < 2 ^ 31) : ∃ count, SafeCount.ofInt? n = some count := by
  have hn : 0 ≤ n ∧ n.toNat < 2 ^ 53 := by omega
  exact ⟨_, dif_pos hn⟩

theorem safeScore_ofInt {n : ℤ} (h : -2 ^ 31 ≤ n ∧ n < 2 ^ 31) :
    ∃ score, SafeScore.ofInt? n = some score := by
  have hn : -2 ^ 53 + 1 ≤ n ∧ n < 2 ^ 53 := by omega
  exact ⟨_, dif_pos hn⟩

theorem sequence_ofInt {n : ℤ} (h : SequenceColumn n) :
    ∃ sequence, PublicationSequence.ofInt? n = some sequence := by
  have hn : 0 < n.toNat ∧ n.toNat < 2 ^ 53 := by
    rw [SequenceColumn] at h
    omega
  exact ⟨_, dif_pos hn⟩

end Checked

section Records
variable {nf : NormalForm} {casefold : Text → Text} {policy : ReportAssemblyPolicy}
variable {windows : ReportWindows} {rows : ReportInputQueryRows}

theorem windows_meet {date : Date} (h : seoulReportWindows date = some windows) :
    windows.primary.role = .primary ∧ windows.comparison.role = .comparison ∧
      windows.comparison.endUtc = windows.primary.startUtc := by
  rw [seoulReportWindows] at h
  simp only [Option.bind_eq_bind, Option.bind_eq_some_iff] at h
  obtain ⟨_, _, _, _, _, _, _, _, _, _, h⟩ := h
  rw [← Option.some.inj h]
  exact ⟨rfl, rfl, rfl⟩

/-- A record is published inside the window of its role. -/
structure Windowed (windows : ReportWindows) (t : UtcTimestamp) (window : ReportWindow) : Prop where
  ofRole : windows.ofRole window.role = window
  within : InWindow window t

theorem windowOf_settles {row : RecordSqlRow} {date : Date}
    (hwindows : seoulReportWindows date = some windows)
    (hpublished : windows.comparison.startUtc.instant ≤ row.publishedAtUtc.instant ∧
      row.publishedAtUtc.instant < windows.primary.endUtc.instant) :
    Settles True (windowOf row windows) (Windowed windows row.publishedAtUtc) := by
  obtain ⟨hprimary, hcomparison, hmeet⟩ := windows_meet hwindows
  by_cases hin : InWindow windows.primary row.publishedAtUtc
  · refine .of_ok (if_pos hin) ⟨?_, hin⟩
    rw [hprimary]
    rfl
  · have hbefore : InWindow windows.comparison row.publishedAtUtc := by
      refine ⟨hpublished.1, ?_⟩
      rw [hmeet]
      exact lt_of_not_ge fun hge => hin ⟨hge, hpublished.2⟩
    refine .of_ok ((if_neg hin).trans (if_pos hbefore)) ⟨?_, hbefore⟩
    rw [hcomparison]
    rfl

def AnalysisKept (version : AnalysisVersionTuple) (row : RecordSqlRow) (analysis : AnalysisSnapshot) :
    Prop :=
  analysis.state = .valid → row.analysisState = some .valid ∧ row.topics ≠ none ∧
    analysis.promptVersion = some version.promptVersion ∧
    analysis.modelVersion = some version.modelVersion ∧
    analysis.schemaVersion = some version.schemaVersion

theorem emptyAnalysis_valid {state : AnalysisState} (h : state ≠ .valid) :
    (emptyAnalysis state).validateState = .ok () := by
  cases state with
  | valid => exact absurd rfl h
  | pending | blockedCapability | failedRetryable | failedTerminal | invalidOutput => rfl

theorem empty_settles {version : AnalysisVersionTuple} {row : RecordSqlRow} {state : AnalysisState}
    (h : state ≠ .valid) : Settles True (checkedAnalysis (emptyAnalysis state))
      (fun analysis => AnalysisKept version row analysis ∧
        (row.analysisState = some .valid → analysis.state = .valid)) ∨ row.analysisState = some .valid := by
  by_cases hvalid : row.analysisState = some .valid
  · exact .inr hvalid
  · exact .inl (.of_ok (checkedAnalysis_of (emptyAnalysis_valid h))
      ⟨fun hstate => absurd hstate h, fun hstate => absurd hstate hvalid⟩)

theorem queuedState_ne_valid (status : Option QueueStatus) : queuedState status ≠ .valid := by
  cases status with
  | none => exact fun h => by cases h
  | some status => cases status <;> exact fun h => by cases h

theorem analysisOf_settles {version : AnalysisVersionTuple} {row : RecordSqlRow}
    (hcolumns : AnalysisColumns version row) : Settles True (analysisOf row)
      (fun analysis => AnalysisKept version row analysis ∧
        (row.analysisState = some .valid → analysis.state = .valid)) := by
  cases hid : row.analysisId with
  | none =>
    have hstate := hcolumns.absent hid
    have hof : analysisOf row = checkedAnalysis (emptyAnalysis (queuedState row.queueStatus)) := by
      rw [analysisOf, hid, hstate]
    rw [hof]
    refine (empty_settles (queuedState_ne_valid _)).resolve_right ?_
    rw [hstate]
    exact fun h => by cases h
  | some analysisId =>
    have hstored : row.analysisId ≠ none := by
      rw [hid]
      exact fun h => by cases h
    obtain ⟨hstate, houtput, hanalyzed, htopics⟩ := hcolumns.stored hstored
    obtain ⟨hprompt, hmodel, hschema⟩ := hcolumns.bound hstored
    obtain ⟨state, hstate⟩ := Option.ne_none_iff_exists'.mp hstate
    by_cases hvalid : state = .valid
    · subst hvalid
      have hrelevance := hcolumns.relevance hstate
      have hchecked : (row.analysisValues .valid).validateState = .ok () := by
        have hall : (row.analysisValues .valid).provenance.all id ∧
            (row.analysisValues .valid).relevance.isSome := by
          obtain ⟨output, houtput⟩ := Option.ne_none_iff_exists'.mp houtput
          obtain ⟨analyzed, hanalyzed⟩ := Option.ne_none_iff_exists'.mp hanalyzed
          obtain ⟨relevance, hrelevance⟩ := Option.ne_none_iff_exists'.mp hrelevance
          simp [RecordSqlRow.analysisValues, AnalysisValues.provenance, hid, houtput, hprompt, hmodel,
            hschema, hanalyzed, hrelevance]
        have hsentiment : ¬((row.analysisValues .valid).relevance = some false ∧
            (row.analysisValues .valid).sentiment.isSome) := by
          rintro ⟨hfalse, hsome⟩
          have hfalse : row.relevance = some false := hfalse
          have hnone : row.sentiment = none := hcolumns.sentiment (by simp [hfalse])
          have hsome : row.sentiment.isSome := hsome
          simp [hnone] at hsome
        have hvalues : (row.analysisValues .valid).state = .valid := rfl
        rw [AnalysisValues.validateState, hvalues]
        dsimp only
        rw [require_of hall, ok_bind, require_of hsentiment]
      rw [analysisOf, hid, hstate]
      exact .of_ok (checkedAnalysis_of hchecked)
        ⟨fun _ => ⟨hstate, htopics, hprompt, hmodel, hschema⟩, fun _ => rfl⟩
    · have hof : analysisOf row = checkedAnalysis (emptyAnalysis state) := by
        rw [analysisOf, hid, hstate]
        cases state with
        | valid => exact absurd rfl hvalid
        | pending | blockedCapability | failedRetryable | failedTerminal | invalidOutput => rfl
      rw [hof]
      refine (empty_settles hvalid).resolve_right fun h => hvalid ?_
      rw [hstate] at h
      exact Option.some.inj h

def RuleSupported (policy : ReportAssemblyPolicy) (item : RuleMatchSnapshot) : Prop :=
  ∃ mapping, policy.select .rule item.normalizedPhrase item.ruleSetVersion = [mapping] ∧
    item.ruleId = mapping.ruleOrTopicKey ∧ item.mappedCategory = mapping.category ∧
    (item.ruleSetId, item.ruleSetVersion) ∈
      policy.definitions.ruleSets.map (fun item => (item.ruleSetId, item.version))

theorem ruleMatch_settles (row : MatchSqlRow) :
    Settles (MatchReviewed policy row) (ruleMatch policy row) (RuleSupported policy) := by
  rw [ruleMatch, ReportAssemblyPolicy.ruleMapping]
  split
  · rename_i mapping hmapping
    rw [ok_bind]
    split
    · rename_i ruleSet hruleSet
      have hreviewed : MatchReviewed policy row ↔
          row.storedCategory = mapping.category ∧ row.ruleCategory = mapping.category := by
        constructor
        · rintro ⟨other, _, hother, _, hstored, hrule⟩
          rw [hmapping] at hother
          obtain rfl := (List.cons.inj hother).1
          exact ⟨hstored, hrule⟩
        · exact fun h => ⟨mapping, ruleSet, hmapping, hruleSet, h.1, h.2⟩
      refine (Settles.require.bind fun _ _ => .of_ok rfl ?_).congr (by rw [hreviewed, and_true])
        fun _ h => h
      have hmem : ruleSet ∈ policy.ruleSets row.ruleSetVersion row.ruleSetHash := by simp [hruleSet]
      obtain ⟨hmem, hversion⟩ := List.mem_filter.mp hmem
      refine ⟨mapping, hmapping, rfl, rfl, List.mem_map.mpr ⟨ruleSet, hmem, ?_⟩⟩
      rw [(of_decide_eq_true hversion).1]
    · rename_i hnot
      refine .inr ⟨?_, _, rfl⟩
      rintro ⟨_, ruleSet, _, hruleSet, _⟩
      exact hnot ruleSet hruleSet
  · rename_i hnot
    refine .inr ⟨?_, "report_rule_mapping_missing", rfl⟩
    rintro ⟨mapping, _, hmapping, _⟩
    exact hnot mapping hmapping

def TopicSupported (policy : ReportAssemblyPolicy) (item : TopicMatchSnapshot) : Prop :=
  item = topicMatch policy item.analysisSchemaVersion item.normalizedValue

theorem topicMatches_settles {version : AnalysisVersionTuple} {row : RecordSqlRow}
    {analysis : AnalysisSnapshot} (hkept : AnalysisKept version row analysis)
    (hstate : row.analysisState = some .valid → analysis.state = .valid) :
    Settles (TopicsReviewed nf casefold row) (topicMatches nf casefold policy row analysis)
      (fun items => ∀ item ∈ items, TopicSupported policy item) := by
  by_cases hvalid : analysis.state = .valid
  · obtain ⟨hrow, htopics, _, _, hschema⟩ := hkept hvalid
    obtain ⟨topics, htopics⟩ := Option.ne_none_iff_exists'.mp htopics
    have hreviewed : TopicsReviewed nf casefold row ↔
        [] ∉ topics.map (normalizedTopic nf casefold) := by
      rw [TopicsReviewed, htopics]
      constructor
      · intro h hmem
        obtain ⟨topic, htopic, hempty⟩ := List.mem_map.mp hmem
        exact h hrow topics rfl topic htopic hempty
      · intro h _ others hothers topic htopic hempty
        obtain rfl := Option.some.inj hothers
        exact h (List.mem_map.mpr ⟨topic, htopic, hempty⟩)
    rw [topicMatches, if_neg (not_not.mpr hvalid), hschema, htopics]
    refine (Settles.require.bind fun _ _ => .of_ok rfl ?_).congr (by rw [hreviewed, and_true])
      fun _ h => h
    intro item hitem
    obtain ⟨value, _, rfl⟩ := List.mem_map.mp hitem
    rfl
  · rw [topicMatches, if_pos hvalid]
    refine (Settles.of_ok rfl ?_).congr ⟨fun _ h => absurd (hstate h) hvalid, fun _ => trivial⟩
      fun _ h => h
    exact fun item hitem => absurd hitem List.not_mem_nil

theorem engagementOf_settles {row : RecordSqlRow} (hcolumns : EngagementColumns row) :
    Settles True (engagementOf row) (fun _ => True) := by
  cases hid : row.engagementObservationId with
  | none =>
    rw [engagementOf, hid]
    dsimp only
    rw [require_of (hcolumns.absent hid), ok_bind]
    exact .of_ok (checkedEngagement_of rfl) trivial
  | some id =>
    have hstored : row.engagementObservationId ≠ none := by
      rw [hid]
      exact fun h => by cases h
    obtain ⟨hhash, hobserved⟩ := hcolumns.stored hstored
    obtain ⟨hash, hhash⟩ := Option.ne_none_iff_exists'.mp hhash
    obtain ⟨observed, hobserved⟩ := Option.ne_none_iff_exists'.mp hobserved
    obtain ⟨comments, hcomments, _⟩ := checkedOptional_of
      fun n hn => safeCount_ofInt (hcolumns.comments n hn)
    obtain ⟨score, hscore, _⟩ := checkedOptional_of
      fun n hn => safeScore_ofInt (hcolumns.score n hn)
    rw [engagementOf, hid]
    dsimp only
    rw [hcomments, ok_bind, hscore, ok_bind, hhash, hobserved]
    exact .of_ok (checkedEngagement_of rfl) trivial

/-- What a record retains of its row and of the policy. -/
structure RecordAssembled (policy : ReportAssemblyPolicy) (windows : ReportWindows)
    (version : AnalysisVersionTuple) (row : RecordSqlRow) (record : ReportRecord) : Prop where
  published : ReportInputManifest.PublishedInRole windows record
  versionId : record.postVersionId = row.postVersionId
  dimensions : (record.sourceId, record.country, record.platform, record.community) =
    (row.sourceId, row.country, row.platform, row.community)
  analysis : AnalysisKept version row record.analysis
  rules : ∀ item ∈ record.ruleMatches, RuleSupported policy item
  topics : ∀ item ∈ record.topicMatches, TopicSupported policy item

theorem reportRecord_settles (hselected : Selected policy windows rows)
    {version : AnalysisVersionTuple} (hversion : ∀ row ∈ rows.records, AnalysisColumns version row)
    {row : RecordSqlRow} (hrow : row ∈ rows.records) :
    Settles ((∀ item ∈ matchesOf rows row, MatchReviewed policy item) ∧ TopicsReviewed nf casefold row)
      (reportRecord nf casefold policy rows windows row)
      (RecordAssembled policy windows version row) := by
  obtain ⟨sequence, hsequence⟩ := sequence_ofInt (hselected.sequences.1 row hrow)
  have hchecked : checked (PublicationSequence.ofInt? row.publication.sequence) = .ok sequence := by
    rw [checked]
    exact present_eq_ok.mpr hsequence
  have hsteps : Settles (True ∧ True ∧ (∀ item ∈ matchesOf rows row, MatchReviewed policy item) ∧
      TopicsReviewed nf casefold row ∧ True ∧ True ∧ True)
        (reportRecord nf casefold policy rows windows row)
        (RecordAssembled policy windows version row) := by
    refine (windowOf_settles hselected.dated (hselected.published row hrow)).bind
      fun window hwindow => ?_
    refine (analysisOf_settles (hversion row hrow)).bind fun analysis hanalysis => ?_
    refine (Settles.mapM fun item _ => ruleMatch_settles item).bind fun rules hrules => ?_
    refine (topicMatches_settles hanalysis.1 hanalysis.2).bind fun topics htopics => ?_
    refine (engagementOf_settles (hselected.engagement row hrow)).bind fun engagement _ => ?_
    refine (Settles.of_ok (P := fun _ => True) hchecked trivial).bind fun _ _ => .of_ok rfl ?_
    exact {
      published := by
        refine ⟨?_, ?_⟩
        · dsimp only
          rw [hwindow.ofRole]
          exact hwindow.within
        · dsimp only
          rw [hwindow.ofRole]
      versionId := rfl
      dimensions := rfl
      analysis := hanalysis.1
      rules := fun item hitem => by
        obtain ⟨_, _, hsupported⟩ := forall₂_mem_right hrules item hitem
        exact hsupported
      topics := htopics }
  exact hsteps.congr (by simp only [true_and, and_true]) fun _ h => h

theorem reportRecords_settles (hselected : Selected policy windows rows)
    {version : AnalysisVersionTuple} (hversion : ∀ row ∈ rows.records, AnalysisColumns version row) :
    Settles (Reviewed nf casefold policy rows) (reportRecords nf casefold policy rows)
      (List.Forall₂ (RecordAssembled policy windows version) rows.records) := by
  have hwindows : windowsOf rows = .ok windows := present_eq_ok.mpr hselected.dated
  rw [reportRecords, hwindows, ok_bind]
  exact Settles.mapM fun row hrow => reportRecord_settles hselected hversion hrow

end Records

section Mappings
variable {policy : ReportAssemblyPolicy} {records : List ReportRecord}

theorem mappingByKey_append (xs ys : List CategoryMappingSnapshot) (key : MappingKey) :
    mappingByKey (xs ++ ys) key = (mappingByKey ys key).or (mappingByKey xs key) := by
  rw [mappingByKey, List.reverse_append, List.find?_append]
  rfl

theorem mappingByKey_set (selected : List CategoryMappingSnapshot) (mapping : CategoryMappingSnapshot)
    (key : MappingKey) : mappingByKey (setMapping selected mapping) key =
      if mapping.key = key then some mapping else mappingByKey selected key := by
  by_cases hknown : mapping.key ∈ selected.map CategoryMappingSnapshot.key
  · rw [setMapping, if_pos hknown, mappingByKey, ← List.map_reverse, List.find?_map]
    by_cases hkey : mapping.key = key
    · subst hkey
      rw [if_pos rfl]
      have hcomp : ((fun item : CategoryMappingSnapshot => decide (item.key = mapping.key)) ∘
          fun item => if item.key = mapping.key then mapping else item) =
            fun item => decide (item.key = mapping.key) := by
        funext item
        by_cases hitem : item.key = mapping.key
        · simp [hitem]
        · simp [hitem]
      rw [hcomp]
      obtain ⟨known, hmem, hknown⟩ := List.mem_map.mp hknown
      cases hfind : selected.reverse.find? fun item => decide (item.key = mapping.key) with
      | none =>
        have hnone := List.find?_eq_none.mp hfind known (List.mem_reverse.mpr hmem)
        exact absurd (decide_eq_true hknown) hnone
      | some found =>
        have hfound := List.find?_some hfind
        rw [Option.map_some, if_pos (of_decide_eq_true hfound)]
    · rw [if_neg hkey]
      have hcomp : ((fun item : CategoryMappingSnapshot => decide (item.key = key)) ∘
          fun item => if item.key = mapping.key then mapping else item) =
            fun item => decide (item.key = key) := by
        funext item
        by_cases hitem : item.key = mapping.key
        · simp [hitem, hkey]
        · simp [hitem]
      rw [hcomp, mappingByKey]
      cases hfind : selected.reverse.find? fun item => decide (item.key = key) with
      | none => rfl
      | some found =>
        have hfound := List.find?_some hfind
        rw [Option.map_some, if_neg]
        rw [of_decide_eq_true hfound]
        exact Ne.symm hkey
  · rw [setMapping, if_neg hknown, mappingByKey_append]
    by_cases hkey : mapping.key = key
    · simp [mappingByKey, hkey]
    · simp [mappingByKey, hkey]

theorem setMapping_nodup {selected : List CategoryMappingSnapshot} (mapping : CategoryMappingSnapshot)
    (h : (selected.map CategoryMappingSnapshot.key).Nodup) :
    ((setMapping selected mapping).map CategoryMappingSnapshot.key).Nodup := by
  by_cases hknown : mapping.key ∈ selected.map CategoryMappingSnapshot.key
  · rw [setMapping, if_pos hknown, List.map_map]
    have hsame : (CategoryMappingSnapshot.key ∘ fun item : CategoryMappingSnapshot =>
        if item.key = mapping.key then mapping else item) = CategoryMappingSnapshot.key := by
      funext item
      by_cases hitem : item.key = mapping.key
      · simp [hitem]
      · simp [hitem]
    rwa [hsame]
  · rw [setMapping, if_neg hknown, List.map_append]
    refine List.Nodup.append h (List.nodup_singleton _) ?_
    intro key hkey hmapping
    rw [List.map_singleton, List.mem_singleton] at hmapping
    exact hknown (hmapping ▸ hkey)

theorem mappingByKey_foldl (items selected : List CategoryMappingSnapshot) (key : MappingKey) :
    mappingByKey (items.foldl setMapping selected) key =
      (mappingByKey items key).or (mappingByKey selected key) := by
  induction items generalizing selected with
  | nil => rfl
  | cons item items ih =>
    have hcons : item :: items = [item] ++ items := rfl
    rw [List.foldl_cons, ih, mappingByKey_set, hcons, mappingByKey_append]
    by_cases hkey : item.key = key
    · cases mappingByKey items key <;> simp [mappingByKey, hkey]
    · cases mappingByKey items key <;> simp [mappingByKey, hkey]

theorem effectiveMappings_nodup :
    ((effectiveMappings policy records).map CategoryMappingSnapshot.key).Nodup := by
  have hfold : ∀ items selected : List CategoryMappingSnapshot,
      (selected.map CategoryMappingSnapshot.key).Nodup →
        ((items.foldl setMapping selected).map CategoryMappingSnapshot.key).Nodup := by
    intro items
    induction items with
    | nil => exact fun _ h => h
    | cons item items ih => exact fun selected h => ih _ (setMapping_nodup item h)
  exact hfold _ [] List.nodup_nil

def usedMappings (policy : ReportAssemblyPolicy) (records : List ReportRecord) :
    List CategoryMappingSnapshot :=
  records.flatMap fun record => record.topicMatches.map fun topic =>
    policy.topicMapping topic.normalizedValue topic.analysisSchemaVersion

theorem effectiveMappings_lookup (key : MappingKey) :
    mappingByKey (effectiveMappings policy records) key =
      (mappingByKey (usedMappings policy records) key).or (mappingByKey policy.mappings key) := by
  have heffective : effectiveMappings policy records =
      (policy.mappings ++ usedMappings policy records).foldl setMapping [] := rfl
  rw [heffective, mappingByKey_foldl, mappingByKey_append]
  simp [mappingByKey]

theorem topicMapping_fields (value version : Text) :
    (policy.topicMapping value version).inputKind = .topic ∧
      (policy.topicMapping value version).normalizedValue = value ∧
      (policy.topicMapping value version).version = version := by
  rw [ReportAssemblyPolicy.topicMapping]
  cases hhead : (policy.select .topic value version).head? with
  | none => exact ⟨rfl, rfl, rfl⟩
  | some mapping =>
    have hmem := List.mem_of_mem_head? hhead
    exact of_decide_eq_true (List.mem_filter.mp hmem).2

theorem mem_usedMappings {mapping : CategoryMappingSnapshot} (h : mapping ∈ usedMappings policy records) :
    mapping = policy.topicMapping mapping.normalizedValue mapping.version ∧
      mapping.inputKind = .topic := by
  obtain ⟨record, _, hmapping⟩ := List.mem_flatMap.mp h
  obtain ⟨topic, _, rfl⟩ := List.mem_map.mp hmapping
  obtain ⟨hkind, hvalue, hversion⟩ := @topicMapping_fields policy topic.normalizedValue
    topic.analysisSchemaVersion
  rw [hvalue, hversion]
  exact ⟨rfl, hkind⟩

theorem mappingByKey_some {items : List CategoryMappingSnapshot} {key : MappingKey}
    {mapping : CategoryMappingSnapshot} (h : mappingByKey items key = some mapping) :
    mapping ∈ items ∧ mapping.key = key := by
  have hkey := List.find?_some h
  exact ⟨List.mem_reverse.mp (List.mem_of_find?_eq_some h), of_decide_eq_true hkey⟩

theorem mappingByKey_of_unique {items : List CategoryMappingSnapshot} {mapping : CategoryMappingSnapshot}
    (hmem : mapping ∈ items) (hunique : ∀ other ∈ items, other.key = mapping.key → other = mapping) :
    mappingByKey items mapping.key = some mapping := by
  cases hfind : mappingByKey items mapping.key with
  | none =>
    have hnone := List.find?_eq_none.mp hfind mapping (List.mem_reverse.mpr hmem)
    exact absurd (decide_eq_true rfl) hnone
  | some found =>
    obtain ⟨hfound, hkey⟩ := mappingByKey_some hfind
    rw [hunique found hfound hkey]

theorem effectiveMappings_rule {item : RuleMatchSnapshot} (h : RuleSupported policy item) :
    ∃ mapping, mappingByKey (effectiveMappings policy records) (ruleMappingKey item) = some mapping ∧
      mapping.category = item.mappedCategory := by
  obtain ⟨mapping, hselect, hrule, hcategory, _⟩ := h
  have hselected : mapping ∈ policy.select .rule item.normalizedPhrase item.ruleSetVersion := by
    simp [hselect]
  obtain ⟨hmem, hfields⟩ := List.mem_filter.mp hselected
  obtain ⟨hkind, hvalue, hversion⟩ := of_decide_eq_true hfields
  have hkey : ruleMappingKey item = mapping.key := by
    rw [ruleMappingKey, CategoryMappingSnapshot.key, hkind, hvalue, hversion, hrule]
  refine ⟨mapping, ?_, hcategory.symm⟩
  have hunused : mappingByKey (usedMappings policy records) mapping.key = none := by
    cases hfind : mappingByKey (usedMappings policy records) mapping.key with
    | none => rfl
    | some used =>
      obtain ⟨hused, hsame⟩ := mappingByKey_some hfind
      have htopic := (mem_usedMappings hused).2
      have hkinds : used.inputKind = mapping.inputKind := congrArg Prod.fst hsame
      rw [htopic, hkind] at hkinds
      cases hkinds
  rw [hkey, effectiveMappings_lookup, hunused, Option.none_or]
  refine mappingByKey_of_unique hmem fun other hother hsame => ?_
  simp only [CategoryMappingSnapshot.key, Prod.mk.injEq] at hsame
  have hselected : other ∈ policy.select .rule item.normalizedPhrase item.ruleSetVersion := by
    refine List.mem_filter.mpr ⟨hother, decide_eq_true ?_⟩
    rw [hsame.1, hsame.2.2.1, hsame.2.2.2, hkind, hvalue, hversion]
    exact ⟨rfl, rfl, rfl⟩
  rw [hselect] at hselected
  exact List.mem_singleton.mp hselected

theorem effectiveMappings_topic {record : ReportRecord} {item : TopicMatchSnapshot}
    (hrecord : record ∈ records) (hitem : item ∈ record.topicMatches) (h : TopicSupported policy item) :
    ∃ mapping, mappingByKey (effectiveMappings policy records) (topicMappingKey item) = some mapping ∧
      mapping.category = item.mappedCategory := by
  obtain ⟨hkind, hvalue, hversion⟩ :=
    @topicMapping_fields policy item.normalizedValue item.analysisSchemaVersion
  have hkey : topicMappingKey item =
      (policy.topicMapping item.normalizedValue item.analysisSchemaVersion).key := by
    rw [topicMappingKey, CategoryMappingSnapshot.key, hkind, hvalue, hversion, h]
    rfl
  refine ⟨policy.topicMapping item.normalizedValue item.analysisSchemaVersion, ?_, ?_⟩
  · have hused : policy.topicMapping item.normalizedValue item.analysisSchemaVersion ∈
        usedMappings policy records :=
      List.mem_flatMap.mpr ⟨record, hrecord, List.mem_map.mpr ⟨item, hitem, rfl⟩⟩
    rw [hkey, effectiveMappings_lookup, mappingByKey_of_unique hused, Option.some_or]
    intro other hother hsame
    simp only [CategoryMappingSnapshot.key, Prod.mk.injEq] at hsame
    rw [(mem_usedMappings hother).1, hsame.2.2.1, hsame.2.2.2, hvalue, hversion]
  · rw [h]
    rfl

end Mappings

section Coverage
variable {nf : NormalForm} {policy : ReportAssemblyPolicy} {facts : CoverageFacts}

theorem maxBy_mem {α κ : Type} [LinearOrder κ] {key : α → κ} {xs : List α} {x : α}
    (h : maxBy key xs = some x) : x ∈ xs := by
  have hfold : ∀ (xs : List α) (best : Option α) (x : α),
      xs.foldl (fun best x => some (best.elim x fun y => if key y < key x then x else y)) best = some x →
        x ∈ xs ∨ best = some x := by
    intro xs
    induction xs with
    | nil => exact fun _ _ h => .inr h
    | cons y ys ih =>
      intro best x h
      rcases ih _ x h with hmem | hbest
      · exact .inl (List.mem_cons_of_mem _ hmem)
      · cases best with
        | none =>
          obtain rfl := Option.some.inj hbest
          exact .inl List.mem_cons_self
        | some b =>
          have hbest := Option.some.inj hbest
          simp only [Option.elim] at hbest
          split at hbest
          · exact .inl (hbest ▸ List.mem_cons_self)
          · exact .inr (congrArg some hbest)
  exact (hfold xs none x h).resolve_right fun h => by cases h

theorem countRuns_cons (run : RunSqlRow) (runs : List RunSqlRow) (statuses : List RunStatus) :
    countRuns (run :: runs) statuses =
      countRuns runs statuses + if run.status ∈ statuses then 1 else 0 := by
  simp [countRuns, List.countP_cons]

theorem countRuns_split (runs : List RunSqlRow) :
    countRuns runs [.failedRetryable, .failedTerminal, .staleAbandoned] =
        countRuns runs [.failedTerminal] +
          (countRuns runs [.failedRetryable] + countRuns runs [.staleAbandoned]) ∧
      countRuns runs [.skippedPolicy, .skippedQuota] =
        countRuns runs [.skippedPolicy] + countRuns runs [.skippedQuota] ∧
      countRuns runs [.succeeded] +
          countRuns runs [.failedRetryable, .failedTerminal, .staleAbandoned] +
          countRuns runs [.skippedPolicy, .skippedQuota] ≤ runs.length := by
  induction runs with
  | nil => exact ⟨rfl, rfl, le_rfl⟩
  | cons run runs ih =>
    obtain ⟨hfailed, hskipped, htotal⟩ := ih
    simp only [countRuns_cons, List.length_cons]
    cases hstatus : run.status <;> simp <;> omega

theorem deriveCollectionStatus_allowed {runFacts : CoverageRunFacts} {values : CoverageValues}
    (hrequired : runFacts.authorizationRequired = true)
    (hauthorization : values.expected = runFacts.expected ∧
      values.enabled = runFacts.authorizationActive)
    (hexpected : values.expectedRunCount = runFacts.expectedRuns)
    (hsuccessful : values.successfulRunCount = runFacts.successfulRuns)
    (hfailed : values.failedRunCount.val =
      runFacts.failedTerminalRuns.val + runFacts.failedRetryableOrAbandonedRuns.val)
    (hskipped : values.skippedRunCount.val =
      runFacts.skippedPolicyRuns.val + runFacts.skippedQuotaRuns.val) :
    deriveCollectionStatus runFacts ∈ values.allowedStatuses := by
  have hterminal : values.terminalRuns = runFacts.terminalCount := by
    rw [CoverageValues.terminalRuns, CoverageRunFacts.terminalCount, hsuccessful, hfailed, hskipped]
    omega
  have hcount : runFacts.terminalCount = runFacts.successfulRuns.val +
      (runFacts.skippedPolicyRuns.val + runFacts.skippedQuotaRuns.val) + values.failedRunCount.val := by
    rw [CoverageRunFacts.terminalCount, hfailed]
    omega
  rw [deriveCollectionStatus, CoverageValues.allowedStatuses, hauthorization.1, hauthorization.2,
    hexpected, hsuccessful, hterminal]
  simp only [hrequired, true_and]
  by_cases hunauthorized : runFacts.expected = true ∧ ¬runFacts.authorizationActive = true
  · rw [if_pos hunauthorized, if_pos hunauthorized]
    exact List.mem_singleton_self _
  rw [if_neg hunauthorized, if_neg hunauthorized]
  by_cases hcomplete : 0 < runFacts.expectedRuns.val ∧ runFacts.successfulRuns = runFacts.expectedRuns
  · rw [if_pos hcomplete, if_pos hcomplete]
    exact List.mem_singleton_self _
  rw [if_neg hcomplete, if_neg hcomplete]
  by_cases hmissing : runFacts.terminalCount = 0
  · rw [if_pos hmissing, if_pos hmissing]
    exact List.mem_singleton_self _
  rw [if_neg hmissing, if_neg hmissing]
  by_cases hsome : 0 < runFacts.successfulRuns.val
  · rw [if_pos hsome, if_pos hsome]
    exact List.mem_singleton_self _
  rw [if_neg hsome, if_neg hsome]
  by_cases hfailures : 0 < values.failedRunCount.val
  · -- a failure keeps the skips below the terminal runs
    rw [if_pos hfailures, if_neg (by omega), if_neg (by omega)]
    by_cases hterminalFailure : 0 < runFacts.failedTerminalRuns.val
    · rw [if_pos hterminalFailure]
      simp
    · rw [if_neg hterminalFailure, if_pos (by omega)]
      simp
  · rw [if_neg hfailures]
    by_cases hpolicy : runFacts.skippedPolicyRuns.val = runFacts.terminalCount
    · rw [if_pos hpolicy]
      simp
    rw [if_neg hpolicy]
    by_cases hquota : runFacts.skippedQuotaRuns.val = runFacts.terminalCount
    · rw [if_pos hquota]
      simp
    rw [if_neg hquota, if_neg (by omega), if_neg (by omega)]
    simp

theorem validateCounts_of {values : CoverageValues} (hcounts : values.CountsValid)
    (hdecimal : values.coverageDecimal =
      ratioDecimal values.coverageNumerator.val values.coverageDenominator.val)
    (hcutoff : values.CutoffGrouped) (hruns : values.terminalRuns ≤ values.expectedRunCount.val)
    (hstatus : values.collectionStatus ∈ values.allowedStatuses) : values.validateCounts = .ok () := by
  rw [CoverageValues.validateCounts, require_of ⟨hcounts, hdecimal⟩, ok_bind, require_of hcutoff,
    ok_bind, require_of hruns, ok_bind, require_of hstatus]

/-- What an item retains of its source and of the records of its role. -/
structure CoverageAssembled (facts : CoverageFacts) (item : SourceCoverage) : Prop where
  key : ReportInputManifest.coverageKey item = (facts.window.role, facts.source.sourceId)
  dimensions : (item.country, item.platform, item.community) =
    (facts.source.country, facts.source.platform, facts.source.community)
  counts : CountsRetained facts.records item

theorem coverageItem_ok (hruns : facts.runs.length ≤ facts.expectedRuns)
    (hslots : facts.expectedRuns < 2 ^ 53) (hrecords : facts.records.length < 2 ^ 53)
    (hsequences : ∀ item ∈ facts.publications, SequenceColumn item.fingerprint.sequence) :
    ∃ item, coverageItem nf policy facts = .ok item ∧ CoverageAssembled facts item := by
  obtain ⟨hfailed, hskipped, htotal⟩ := countRuns_split facts.runs
  have hlength : ∀ statuses, countRuns facts.runs statuses < 2 ^ 53 := fun statuses =>
    lt_of_le_of_lt (List.countP_le_length.trans hruns) hslots
  have habandoned : countRuns facts.runs [.failedRetryable] +
      countRuns facts.runs [.staleAbandoned] < 2 ^ 53 := by
    have := hlength [.failedRetryable, .failedTerminal, .staleAbandoned]
    omega
  have hsuccessful : (facts.runs.filter fun run => run.status = .succeeded).length =
      countRuns facts.runs [.succeeded] := by
    rw [← List.countP_eq_length_filter, countRuns]
    simp
  have hsuccessfulFits : (facts.runs.filter fun run => run.status = .succeeded).length < 2 ^ 53 := by
    rw [hsuccessful]
    exact hlength _
  have hvalid : (facts.records.countP fun record => record.analysis.state = .valid) < 2 ^ 53 :=
    lt_of_le_of_lt List.countP_le_length hrecords
  have hrelevant : (facts.records.countP fun record =>
      record.analysis.state = .valid ∧ record.analysis.relevance = some true) < 2 ^ 53 :=
    lt_of_le_of_lt List.countP_le_length hrecords
  have hvalidLe : (facts.records.countP fun record => record.analysis.state = .valid) ≤
      facts.records.length := List.countP_le_length
  have hrelevantLe : (facts.records.countP fun record =>
      record.analysis.state = .valid ∧ record.analysis.relevance = some true) ≤
        facts.records.countP fun record => record.analysis.state = .valid :=
    List.countP_mono_left fun record _ h => decide_eq_true (of_decide_eq_true h).1
  have hpending : checked (SafeCount.ofInt? ((facts.records.length : ℤ) -
      (facts.records.countP fun record => record.analysis.state = .valid : ℕ))) =
        .ok ⟨facts.records.length - facts.records.countP fun record => record.analysis.state = .valid,
          lt_of_le_of_lt (Nat.sub_le _ _) hrecords⟩ := by
    have hcast := Nat.cast_sub (R := ℤ) hvalidLe
    have hfits := checkedCount_of (lt_of_le_of_lt (Nat.sub_le facts.records.length
      (facts.records.countP fun record => record.analysis.state = .valid)) hrecords)
    rw [checkedCount, hcast] at hfits
    exact hfits
  obtain ⟨sequence, hsequence, hgrouped⟩ : ∃ sequence,
      checkedOptional SafeCount.ofInt? ((maxBy publicationKey facts.publications).map
        fun item => item.fingerprint.sequence) = .ok sequence ∧
      sequence.isSome = ((maxBy publicationKey facts.publications).map
        fun item => item.fingerprint.sequence).isSome := by
    refine checkedOptional_of fun n hn => ?_
    obtain ⟨item, hitem, rfl⟩ := Option.map_eq_some_iff.mp hn
    have hcolumn := hsequences item (maxBy_mem hitem)
    exact safeCount_ofInt ⟨le_of_lt hcolumn.1, hcolumn.2⟩
  rw [coverageItem, runFacts, checkedCount_of hslots, ok_bind, checkedCount_of (hlength _), ok_bind,
    checkedCount_of (hlength _), ok_bind, checkedCount_of (hlength _), ok_bind,
    checkedCount_of (hlength _), ok_bind, checkedCount_of habandoned, ok_bind]
  rw [pure_bind]
  dsimp only
  rw [ok_bind, checkedCount_of hsuccessfulFits, ok_bind, checkedCount_of (hlength _), ok_bind,
    checkedCount_of (hlength _), ok_bind, checkedCount_of hrecords, ok_bind, checkedCount_of hvalid,
    ok_bind, hpending, ok_bind, checkedCount_of hrelevant, ok_bind, hsequence, ok_bind, ok_bind,
    ok_bind]
  refine ⟨_, checkedCoverage_of (validateCounts_of ⟨hvalidLe, hrelevantLe, ?_, rfl, rfl⟩ rfl ?_ ?_ ?_),
    ⟨rfl, rfl, ?_⟩⟩
  · exact Nat.cast_sub hvalidLe
  · rw [CoverageValues.CutoffGrouped]
    simp only [hgrouped]
    cases maxBy publicationKey facts.publications <;> simp
  · rw [CoverageValues.terminalRuns]
    dsimp only
    omega
  · refine deriveCollectionStatus_allowed rfl ⟨rfl, rfl⟩ rfl ?_ hfailed hskipped
    rw [SafeCount.mk.injEq]
    exact hsuccessful
  · have hcategorized : relevantCount facts.records = facts.records.countP fun record =>
        record.analysis.state = .valid ∧ record.analysis.relevance = some true := by
      refine List.countP_congr fun record _ => ?_
      rw [decide_eq_true_eq, decide_eq_true_eq]
      exact categorized_iff
    rw [CountsRetained, hcategorized, validCount]
    dsimp only
    rw [Nat.cast_sub hvalidLe]

theorem runs_le_slots {windows : ReportWindows} {rows : ReportInputQueryRows}
    (hselected : Selected policy windows rows) (records : List ReportRecord) (window : ReportWindow)
    (source : SourceSqlRow) : (coverageFacts rows records window source).runs.length ≤
      (coverageFacts rows records window source).expectedRuns := by
  have hdistinct : ((coverageFacts rows records window source).runs.map RunSqlRow.dueSlotUtc).Nodup := by
    have hfiltered : ((coverageFacts rows records window source).runs.map
        fun run => (run.sourceId, run.dueSlotUtc)).Nodup :=
      List.Nodup.sublist (List.Sublist.map _ List.filter_sublist) hselected.distinctRuns
    refine List.Nodup.of_map (fun due => (source.sourceId, due)) ?_
    rw [List.map_map]
    refine (congrArg List.Nodup (List.map_congr_left fun run hrun => ?_)).mp hfiltered
    have hsource : run.sourceId = source.sourceId :=
      (of_decide_eq_true (List.mem_filter.mp hrun).2).1
    rw [hsource]
    rfl
  have hslots : (coverageFacts rows records window source).runs.map RunSqlRow.dueSlotUtc ⊆
      (rows.slots.filter fun item => InWindow window item.dueSlotUtc).map SlotSqlRow.dueSlotUtc := by
    intro due hdue
    obtain ⟨run, hrun, rfl⟩ := List.mem_map.mp hdue
    obtain ⟨hrun, hwithin⟩ := List.mem_filter.mp hrun
    refine List.mem_map.mpr ⟨⟨run.dueSlotUtc⟩, List.mem_filter.mpr ⟨hselected.slotted run hrun, ?_⟩, rfl⟩
    exact decide_eq_true (of_decide_eq_true hwithin).2
  have hle := (hdistinct.subperm hslots).length_le
  rwa [List.length_map, List.length_map] at hle

theorem sourceCoverage_ok {windows : ReportWindows} {rows : ReportInputQueryRows}
    (hselected : Selected policy windows rows) {records : List ReportRecord}
    (hrecords : records.length = rows.records.length) :
    ∃ items, sourceCoverage nf policy rows records = .ok items ∧
      List.Forall₂ CoverageAssembled
        ([windows.primary, windows.comparison].flatMap fun window =>
          rows.sources.map (coverageFacts rows records window)) items := by
  have hitem : ∀ window source, ∃ item,
      coverageItem nf policy (coverageFacts rows records window source) = .ok item ∧
        CoverageAssembled (coverageFacts rows records window source) item := by
    intro window source
    refine coverageItem_ok (runs_le_slots hselected records window source) ?_ ?_ ?_
    · exact lt_of_le_of_lt (List.length_filter_le _ _) hselected.fits.2
    · refine lt_of_le_of_lt (List.length_filter_le _ _) ?_
      rw [hrecords]
      exact hselected.fits.1
    · exact fun item hmem => hselected.sequences.2 item (List.mem_filter.mp hmem).1
  have hwindow : ∀ window, ∃ items, (rows.sources.mapM fun source =>
      coverageItem nf policy (coverageFacts rows records window source)) = .ok items ∧
        List.Forall₂ CoverageAssembled (rows.sources.map (coverageFacts rows records window)) items := by
    intro window
    obtain ⟨items, hitems⟩ := mapM_ok_of_forall fun source (_ : source ∈ rows.sources) =>
      (hitem window source).imp fun _ h => h.1
    refine ⟨items, hitems, ?_⟩
    rw [List.forall₂_map_left_iff]
    refine (mapM_forall₂.mp hitems).imp fun source item hsource => ?_
    obtain ⟨other, hother, hassembled⟩ := hitem window source
    rw [hsource] at hother
    rwa [Except.ok.inj hother]
  obtain ⟨primary, hprimary, hprimaryItems⟩ := hwindow windows.primary
  obtain ⟨comparison, hcomparison, hcomparisonItems⟩ := hwindow windows.comparison
  have hwindows : windowsOf rows = .ok windows := present_eq_ok.mpr hselected.dated
  refine ⟨[primary, comparison].flatten, ?_, ?_⟩
  · rw [sourceCoverage, hwindows, ok_bind, List.mapM_cons, hprimary, ok_bind, List.mapM_cons,
      hcomparison, ok_bind, List.mapM_nil]
    rfl
  · have hflat : [primary, comparison].flatten = primary ++ comparison := by simp
    have hfacts : ([windows.primary, windows.comparison].flatMap fun window =>
        rows.sources.map (coverageFacts rows records window)) =
          rows.sources.map (coverageFacts rows records windows.primary) ++
            rows.sources.map (coverageFacts rows records windows.comparison) := by simp
    rw [hflat, hfacts]
    exact List.rel_append hprimaryItems hcomparisonItems

end Coverage

section Payload
variable {nf : NormalForm} {casefold : Text → Text} {policy : ReportAssemblyPolicy}
variable {windows : ReportWindows} {rows : ReportInputQueryRows} {version : AnalysisVersionTuple}
variable {records : List ReportRecord} {coverage : List SourceCoverage}

theorem map_of_forall₂ {α β γ : Type} {R : α → β → Prop} {f : α → γ} {g : β → γ} {xs : List α}
    {ys : List β} (h : List.Forall₂ R xs ys) (hfg : ∀ x y, R x y → g y = f x) : ys.map g = xs.map f := by
  induction h with
  | nil => rfl
  | cons hxy _ ih => rw [List.map_cons, List.map_cons, hfg _ _ hxy, ih]

def allFacts (windows : ReportWindows) (rows : ReportInputQueryRows) (records : List ReportRecord) :
    List CoverageFacts :=
  [windows.primary, windows.comparison].flatMap fun window =>
    rows.sources.map (coverageFacts rows records window)

theorem mem_allFacts {facts : CoverageFacts} (h : facts ∈ allFacts windows rows records) :
    ∃ window source, source ∈ rows.sources ∧ facts = coverageFacts rows records window source := by
  obtain ⟨window, _, h⟩ := List.mem_flatMap.mp h
  obtain ⟨source, hsource, rfl⟩ := List.mem_map.mp h
  exact ⟨window, source, hsource, rfl⟩

theorem coverage_keys (hcoverage : List.Forall₂ CoverageAssembled (allFacts windows rows records) coverage) :
    coverage.map ReportInputManifest.coverageKey =
      rows.sources.map (fun source => (windows.primary.role, source.sourceId)) ++
        rows.sources.map (fun source => (windows.comparison.role, source.sourceId)) := by
  rw [map_of_forall₂ hcoverage fun _ _ h => h.key]
  simp [allFacts, coverageFacts, Function.comp_def]

theorem coverage_distinct (hselected : Selected policy windows rows)
    (hcoverage : List.Forall₂ CoverageAssembled (allFacts windows rows records) coverage) :
    (coverage.map ReportInputManifest.coverageKey).Nodup := by
  obtain ⟨hprimary, hcomparison, _⟩ := windows_meet hselected.dated
  have hsources : ∀ role : ReportRole,
      (rows.sources.map fun source => (role, source.sourceId)).Nodup := by
    intro role
    have hpairs : (rows.sources.map fun source => (role, source.sourceId)) =
        (rows.sources.map SourceSqlRow.sourceId).map fun id => (role, id) := by
      rw [List.map_map]
      rfl
    rw [hpairs]
    exact hselected.distinctSources.map fun _ _ h => congrArg Prod.snd h
  rw [coverage_keys hcoverage, hprimary, hcomparison]
  refine (hsources .primary).append (hsources .comparison) fun key hone hother => ?_
  obtain ⟨_, _, rfl⟩ := List.mem_map.mp hone
  obtain ⟨_, _, hother⟩ := List.mem_map.mp hother
  cases congrArg Prod.fst hother

theorem assembled_identities (hselected : Selected policy windows rows)
    (hrecords : List.Forall₂ (RecordAssembled policy windows version) rows.records records) :
    (records.map ReportInputManifest.identity).Nodup := by
  have hversions : records.map (fun record => UUID.str record.postVersionId) =
      rows.records.map fun row => UUID.str row.postVersionId :=
    map_of_forall₂ hrecords fun _ _ h => congrArg UUID.str h.versionId
  refine List.Nodup.of_map Prod.snd ?_
  have hsnd : (records.map ReportInputManifest.identity).map Prod.snd =
      rows.records.map fun row => UUID.str row.postVersionId := by
    rw [List.map_map, ← hversions]
    rfl
  have hstr : (rows.records.map fun row => UUID.str row.postVersionId) =
      (rows.records.map RecordSqlRow.postVersionId).map UUID.str := by
    rw [List.map_map]
    rfl
  rw [hsnd, hstr]
  exact hselected.distinctVersions.map ReportJson.uuid_str_injective

theorem assembled_valid (hselected : Selected policy windows rows)
    (hversion : policy.definitions.analysisVersions = [version])
    (hrecords : List.Forall₂ (RecordAssembled policy windows version) rows.records records)
    (hcoverage : List.Forall₂ CoverageAssembled (allFacts windows rows records) coverage) :
    (manifestOf policy rows.reportDateSeoul windows records coverage).validateWindowsAndRecords =
      .ok () := by
  obtain ⟨hprimary, hcomparison, _⟩ := windows_meet hselected.dated
  have hbyRole : (manifestOf policy rows.reportDateSeoul windows records coverage).windowByRole .primary =
        some windows.primary ∧
      (manifestOf policy rows.reportDateSeoul windows records coverage).windowByRole .comparison =
        some windows.comparison := by
    rw [ReportInputManifest.windowByRole, ReportInputManifest.windowByRole, manifestOf]
    simp [hprimary, hcomparison]
  have hpublished : ∀ record ∈ records, ReportInputManifest.PublishedInRole windows record := by
    intro record hrecord
    obtain ⟨_, _, hassembled⟩ := forall₂_mem_right hrecords record hrecord
    exact hassembled.published
  have hpublication : (manifestOf policy rows.reportDateSeoul windows records
      coverage).validateWindowsAndPublication = .ok () := by
    refine bind_eq_ok.mpr ⟨windows, present_eq_ok.mpr hselected.dated, ?_⟩
    rw [require_of hbyRole, ok_bind]
    exact require_of ⟨assembled_identities hselected hrecords, hpublished⟩
  have hdistinct : (manifestOf policy rows.reportDateSeoul windows records coverage).validateCoverage =
      .ok () := require_of (coverage_distinct hselected hcoverage)
  have hmappings : ReportInputManifest.validatedMappings (effectiveMappings policy records) =
      .ok (mappingByKey (effectiveMappings policy records)) := by
    rw [ReportInputManifest.validatedMappings, require_of effectiveMappings_nodup, ok_bind]
    rfl
  refine bind_eq_ok.mpr ⟨(), hpublication, bind_eq_ok.mpr ⟨(), hdistinct, ?_⟩⟩
  refine bind_eq_ok.mpr ⟨_, hmappings, forM_eq_ok.mpr fun record hrecord => ?_⟩
  obtain ⟨row, _, hassembled⟩ := forall₂_mem_right hrecords record hrecord
  refine validateGoverningRecord_eq_ok.mpr ⟨fun hvalid => ?_, fun rule hrule => ⟨?_, ?_⟩,
    fun topic htopic => ?_⟩
  · obtain ⟨_, _, hprompt, hmodel, hschema⟩ := hassembled.analysis hvalid
    rw [hprompt, hmodel, hschema, ReportInputManifest.analysisVersions, manifestOf, hversion]
    exact List.mem_singleton_self _
  · obtain ⟨_, _, _, _, hknown⟩ := hassembled.rules rule hrule
    exact hknown
  · exact effectiveMappings_rule (hassembled.rules rule hrule)
  · exact effectiveMappings_topic hrecord htopic (hassembled.topics topic htopic)

theorem assembled_verified (hselected : Selected policy windows rows)
    (hrecords : List.Forall₂ (RecordAssembled policy windows version) rows.records records)
    (hcoverage : List.Forall₂ CoverageAssembled (allFacts windows rows records) coverage) :
    verifyCoverage (manifestOf policy rows.reportDateSeoul windows records coverage) = .ok () := by
  obtain ⟨hprimary, hcomparison, _⟩ := windows_meet hselected.dated
  refine verifyCoverage_eq_ok.mpr ⟨fun record hrecord => ?_, fun item hitem => ?_⟩
  · obtain ⟨row, hrow, hassembled⟩ := forall₂_mem_right hrecords record hrecord
    obtain ⟨source, hsource, hsame⟩ := hselected.listed row hrow
    have hdimensions := hassembled.dimensions
    rw [← hsame] at hdimensions
    have hid : source.sourceId = record.sourceId := (congrArg Prod.fst hdimensions).symm
    have hkeys := coverage_keys hcoverage
    rw [hprimary, hcomparison] at hkeys
    rw [manifestOf, hkeys, List.mem_append]
    cases hrole : record.role with
    | primary => exact .inl (List.mem_map.mpr ⟨source, hsource, by rw [hid]⟩)
    | comparison => exact .inr (List.mem_map.mpr ⟨source, hsource, by rw [hid]⟩)
  · obtain ⟨facts, hfacts, hassembled⟩ := forall₂_mem_right hcoverage item hitem
    obtain ⟨window, source, hsource, rfl⟩ := mem_allFacts hfacts
    obtain ⟨hrole, hid⟩ := Prod.mk.inj hassembled.key
    have hcovered : coveredRecords (manifestOf policy rows.reportDateSeoul windows records coverage) item =
        (coverageFacts rows records window source).records := by
      rw [coveredRecords, hrole, hid, coverageFacts, manifestOf]
      refine List.filter_congr fun record _ => ?_
      rw [Bool.decide_and, Bool.decide_and, Bool.and_comm]
    rw [hcovered]
    refine ⟨hassembled.counts, fun record hrecord => ?_⟩
    obtain ⟨hrecord, hkey⟩ := List.mem_filter.mp hrecord
    obtain ⟨row, hrow, hrecorded⟩ := forall₂_mem_right hrecords record hrecord
    obtain ⟨listed, hlisted, hsame⟩ := hselected.listed row hrow
    have hdimensions := hrecorded.dimensions
    rw [← hsame, Prod.mk.injEq] at hdimensions
    have hsources : listed = source := by
      refine List.inj_on_of_nodup_map hselected.distinctSources hlisted hsource ?_
      rw [← hdimensions.1]
      exact (of_decide_eq_true hkey).1
    rw [SameDimensions, hdimensions.2, hassembled.dimensions, hsources]
    rfl

end Payload

section Results

/-- What the projector makes of an assembled payload. -/
structure Accepted (nf : NormalForm) (gzip : Gzip) (payload : ReportInputManifest) : Prop where
  statuses : ∀ item ∈ payload.sourceCoverage, item.collectionStatus ∈ item.allowedStatuses
  schema : payload.validateWindowsAndRecords = .ok ()
  verified : verifyCoverage payload = .ok ()
  projected : ∃ build, projectReport nf gzip payload = .ok build

theorem coverage_status (item : SourceCoverage) : item.collectionStatus ∈ item.allowedStatuses := by
  obtain ⟨_, hvalid⟩ := require_bind.mp item.valid_counts
  obtain ⟨_, hvalid⟩ := require_bind.mp hvalid
  obtain ⟨_, hvalid⟩ := require_bind.mp hvalid
  exact require_eq_ok.mp hvalid

/-- Rows that a snapshot selects are assembled into a payload that the projector accepts, unless
    they contradict the policy, and then the assembler itself refuses them. -/
theorem assembled_input_accepted (nf : NormalForm) (casefold : Text → Text) (gzip : Gzip)
    (policy : ReportAssemblyPolicy) (windows : ReportWindows) (rows : ReportInputQueryRows)
    (hselected : Selected policy windows rows) :
    (Reviewed nf casefold policy rows → ∃ payload,
      projectReportInput nf casefold policy rows = .ok payload ∧ Accepted nf gzip payload) ∧
    (¬Reviewed nf casefold policy rows → ∃ reason,
      projectReportInput nf casefold policy rows = .error (.rejected reason)) := by
  obtain ⟨version, hversion, hcolumns⟩ := hselected.versions
  have hsteps : Settles (Reviewed nf casefold policy rows ∧ True)
      (projectReportInput nf casefold policy rows) (Accepted nf gzip) := by
    refine (reportRecords_settles hselected hcolumns).bind fun records hrecords => ?_
    have hlength : records.length = rows.records.length := hrecords.length_eq.symm
    have hwindows : windowsOf rows = .ok windows := present_eq_ok.mpr hselected.dated
    obtain ⟨coverage, hcoverage, hitems⟩ := @sourceCoverage_ok nf policy windows rows hselected
      records hlength
    have hvalid := assembled_valid hselected hversion hrecords hitems
    have hverified := assembled_verified hselected hrecords hitems
    refine .of_ok (a := manifestOf policy rows.reportDateSeoul windows records coverage) ?_
      ⟨fun item _ => coverage_status item, hvalid, hverified,
        projectReport_of hvalid hverified (hlength ▸ hselected.fits.1)⟩
    rw [hwindows, ok_bind, hcoverage, ok_bind]
    dsimp only
    rw [hvalid]
    rfl
  rcases hsteps with ⟨⟨hreviewed, _⟩, payload, hpayload, haccepted⟩ | ⟨hnot, reason, hreason⟩
  · exact ⟨fun _ => ⟨payload, hpayload, haccepted⟩, fun h => absurd hreviewed h⟩
  · exact ⟨fun h => absurd ⟨h, trivial⟩ hnot, fun _ => ⟨reason, hreason⟩⟩

end Results

section Sample

def sampleVersion : AnalysisVersionTuple :=
  ⟨"prompt-1".toList, "model-1".toList, "schema-1".toList⟩

def sampleMapping : CategoryMappingSnapshot where
  inputKind := .rule
  ruleOrTopicKey := "rate-cut".toList
  version := "rules-1".toList
  normalizedValue := "rate cut".toList
  category := "macro".toList

def samplePolicy : ReportAssemblyPolicy where
  sourceScopeVersion := "scope".toList
  definitions := {
    formulaVersion := "formula-1".toList
    formulaHash := sampleDigest
    metricVersion := "metric-1".toList
    metricHash := sampleDigest
    categoryVersion := "category-1".toList
    categoryHash := sampleDigest
    ruleSets := [⟨"rules".toList, "rules-1".toList, sampleDigest⟩]
    analysisVersions := [sampleVersion] }
  mappings := [sampleMapping]
  defaultCategory := "other".toList
  expectedSources := [(.dcinside, "stocks".toList)]

/-- A relevant post with one rule result, one topic and one engagement observation. -/
def sampleRow : RecordSqlRow where
  sourceId := 1
  country := .kr
  platform := .dcinside
  community := "stocks".toList
  postVersionId := 1
  postContentHash := sampleDigest
  publishedAtUtc := sampleTime
  analysisId := some 1
  analysisState := some .valid
  outputHash := some sampleDigest
  promptVersion := some sampleVersion.promptVersion
  modelVersion := some sampleVersion.modelVersion
  schemaVersion := some sampleVersion.schemaVersion
  analyzedAt := some sampleTime
  relevance := some true
  sentiment := some .positive
  topics := some ["fed".toList]
  queueStatus := some .succeeded
  engagementObservationId := some 1
  engagementHash := some sampleDigest
  engagementObservedAt := some sampleTime
  commentsCount := some 3
  upvoteOrScore := some (-2)
  publicationId := 1
  publicationRunId := 1
  publicationTerminalPageCommitId := 1
  publicationSequence := 1
  publicationFinalChainHash := sampleDigest
  publicationPostSetHash := sampleDigest
  publicationDistinctPostVersionCount := 1
  publicationZeroPost := false
  publicationCommittedAt := sampleTime

def sampleMatch : MatchSqlRow where
  postVersionId := 1
  matchId := 1
  matchHash := sampleDigest
  ruleSetVersion := "rules-1".toList
  ruleSetHash := sampleDigest
  normalizedPhrase := "rate cut".toList
  matchPresent := true
  storedCategory := "macro".toList
  ruleCategory := "macro".toList

def sampleRows : ReportInputQueryRows where
  reportDateSeoul := ⟨20666, sampleDay_valid⟩
  records := [sampleRow]
  matched := [sampleMatch]
  sources := [⟨1, .kr, .dcinside, "stocks".toList, "stocks".toList, true, some .approved,
    some sampleTime, none, none⟩]
  slots := [⟨sampleTime⟩]
  runs := [⟨1, sampleTime, .succeeded, 1, some sampleTime, some sampleTime⟩]
  publications := [⟨sampleRow.publication, sampleTime⟩]

def sampleReportWindows : ReportWindows := ⟨sampleWindows.1, sampleWindows.2⟩

theorem sampleRows_selected : Selected samplePolicy sampleReportWindows sampleRows where
  dated := by decide +kernel
  published := by decide +kernel
  versions := by
    refine ⟨sampleVersion, rfl, fun row hrow => ?_⟩
    obtain rfl := List.mem_singleton.mp hrow
    exact {
      absent := fun h => by cases h
      stored := fun _ => by decide
      bound := fun _ => ⟨rfl, rfl, rfl⟩
      relevance := fun _ => by decide
      sentiment := fun h => absurd rfl h }
  engagement := by
    intro row hrow
    obtain rfl := List.mem_singleton.mp hrow
    exact {
      absent := fun h => by cases h
      stored := fun _ => by decide
      comments := by decide
      score := by decide }
  sequences := by
    refine ⟨fun row hrow => ?_, fun item hitem => ?_⟩
    · obtain rfl := List.mem_singleton.mp hrow
      exact ⟨by decide, by decide⟩
    · obtain rfl := List.mem_singleton.mp hitem
      exact ⟨by decide, by decide⟩
  distinctVersions := List.nodup_singleton _
  distinctSources := List.nodup_singleton _
  listed := by
    intro row hrow
    obtain rfl := List.mem_singleton.mp hrow
    exact ⟨_, List.mem_singleton_self _, rfl⟩
  distinctRuns := List.nodup_singleton _
  slotted := by decide
  fits := by decide

theorem sampleRows_reviewed : Reviewed sampleForm id samplePolicy sampleRows := by
  intro row hrow
  obtain rfl := List.mem_singleton.mp hrow
  refine ⟨fun item hitem => ?_, fun _ topics htopics topic htopic => ?_⟩
  · obtain rfl := List.mem_singleton.mp (List.mem_of_mem_filter hitem)
    exact ⟨sampleMapping, ⟨"rules".toList, "rules-1".toList, sampleDigest⟩, by decide, by decide, rfl, rfl⟩
  · obtain rfl := Option.some.inj htopics
    obtain rfl := List.mem_singleton.mp htopic
    decide

theorem assembled_input_accepted_sample : ∃ payload,
    projectReportInput sampleForm id samplePolicy sampleRows = .ok payload ∧
      Accepted sampleForm sampleGzip payload :=
  (assembled_input_accepted sampleForm id sampleGzip samplePolicy sampleReportWindows sampleRows
    sampleRows_selected).1 sampleRows_reviewed

end Sample

end PredictionMarketMonitor.AssemblyAcceptance
