import PredictionMarketMonitor.AssemblyAcceptance

set_option autoImplicit false

/-!
# Manifests read back

The canonical form of a manifest payload is stable, the schema admits it, and its
envelope is read back as the payload that was hashed. From this follows the
reproduction of a report from what is retained of it.
-/
namespace PredictionMarketMonitor.ManifestRoundTrip

open CanonicalJson CivilTime CollectionBase FallibleSteps KeySorting ReportInputs ReportManifest
open ReportFormula ReportAccounting ReportJson AssemblyAcceptance Sha256

section CanonicalOrder
variable {payload normalized : ReportInputManifest}

theorem mappingByKey_perm {xs ys : List CategoryMappingSnapshot} (hperm : xs.Perm ys)
    (hkeys : (xs.map CategoryMappingSnapshot.key).Nodup) : mappingByKey xs = mappingByKey ys := by
  have hunique : ∀ x ∈ xs, ∀ y ∈ xs, y.key = x.key → y = x := fun x hx y hy hkey =>
    List.inj_on_of_nodup_map hkeys hy hx hkey
  funext key
  cases hfind : mappingByKey ys key with
  | none =>
    cases hother : mappingByKey xs key with
    | none => rfl
    | some mapping =>
      obtain ⟨hmem, hkey⟩ := mappingByKey_some hother
      have habsent := List.find?_eq_none.mp hfind mapping
        (List.mem_reverse.mpr (hperm.mem_iff.mp hmem))
      exact absurd (decide_eq_true hkey) habsent
  | some mapping =>
    obtain ⟨hmem, rfl⟩ := mappingByKey_some hfind
    have hmem' := hperm.mem_iff.mpr hmem
    exact mappingByKey_of_unique hmem' fun other hother => hunique mapping hmem' other hother

/-- What normalization keeps of a record: its matches in canonical order, without
    what normalization derives. -/
def content (record : ReportRecord) : ReportRecord :=
  { record with
    ordinal := 0
    ruleMatches := sortBy ruleSortKey record.ruleMatches
    topicMatches := sortBy topicSortKey record.topicMatches
    effectiveCategories := [] }

theorem normalizeRecord_content {record result : ReportRecord} {ordinal : ℕ}
    {mappings : MappingKey → Option CategoryMappingSnapshot}
    (h : normalizeRecord record ordinal mappings = .ok result) :
    content result = content record := by
  obtain ⟨categories, _, rfl⟩ := normalizeRecord_eq_ok h
  simp only [content, sortBy_idem]

theorem normalizeRecord_eq_content (record : ReportRecord) (ordinal : ℕ)
    (mappings : MappingKey → Option CategoryMappingSnapshot) :
    normalizeRecord (content record) ordinal mappings = normalizeRecord record ordinal mappings := by
  have hrules : sortBy ruleSortKey (content record).ruleMatches = sortBy ruleSortKey record.ruleMatches :=
    sortBy_idem
  have htopics : sortBy topicSortKey (content record).topicMatches =
      sortBy topicSortKey record.topicMatches := sortBy_idem
  rw [normalizeRecord, normalizeRecord, hrules, htopics]
  rfl

theorem normalizeRecord_idem {record result : ReportRecord} {ordinal : ℕ}
    {mappings : MappingKey → Option CategoryMappingSnapshot}
    (h : normalizeRecord record ordinal mappings = .ok result) :
    normalizeRecord result ordinal mappings = .ok result := by
  rw [← normalizeRecord_eq_content, normalizeRecord_content h, normalizeRecord_eq_content, h]

theorem mapM_zipIdx_idem {α ε : Type} {f : α → ℕ → Except ε α}
    (hf : ∀ x k y, f x k = .ok y → f y k = .ok y) (xs ys : List α) (n : ℕ)
    (h : (xs.zipIdx n).mapM (fun (x, k) => f x k) = .ok ys) :
    (ys.zipIdx n).mapM (fun (x, k) => f x k) = .ok ys := by
  induction xs generalizing ys n with
  | nil =>
    rw [mapM_eq_ok_nil.mp h]
    rfl
  | cons x xs ih =>
    obtain ⟨y, rest, hy, hrest, rfl⟩ := mapM_eq_ok_cons.mp h
    exact mapM_eq_ok_cons.mpr ⟨y, rest, hf x n y hy, ih rest (n + 1) hrest, rfl⟩

structure RoleNormalized (mappings : MappingKey → Option CategoryMappingSnapshot)
    (role : ReportRole) (results : List ReportRecord) : Prop where
  roles : ∀ record ∈ results, record.role = role
  ordered : results.Pairwise (fun r s => recordSortKey r ≤ recordSortKey s)
  fixed : results.zipIdx.mapM (fun (record, ordinal) => normalizeRecord record ordinal mappings) =
    .ok results

theorem roleNormalized {mappings : MappingKey → Option CategoryMappingSnapshot} {role : ReportRole}
    {records results : List ReportRecord}
    (h : (orderedRecords role records).zipIdx.mapM (fun (record, ordinal) =>
      normalizeRecord record ordinal mappings) = .ok results) :
    RoleNormalized mappings role results where
  roles := by
    have hroles := normalizeRole_map (f := ReportRecord.role) (fun _ _ _ hresult => by
      obtain ⟨_, _, rfl⟩ := normalizeRecord_eq_ok hresult
      rfl) h
    intro record hrecord
    have hmem := List.mem_map_of_mem (f := ReportRecord.role) hrecord
    rw [hroles] at hmem
    obtain ⟨other, hother, heq⟩ := List.mem_map.mp hmem
    rw [← heq]
    exact of_decide_eq_true (List.mem_filter.mp (mem_sortBy.mp hother)).2
  ordered := by
    have hkeys := normalizeRole_map (f := recordSortKey) (fun _ _ _ hresult => by
      obtain ⟨_, _, rfl⟩ := normalizeRecord_eq_ok hresult
      rfl) h
    have hsorted := sortBy_pairwise recordSortKey (records.filter fun record => record.role = role)
    rw [← List.pairwise_map (R := (· ≤ ·)), hkeys, List.pairwise_map]
    exact hsorted
  fixed := mapM_zipIdx_idem (f := fun record ordinal => normalizeRecord record ordinal mappings)
    (fun _ _ _ => normalizeRecord_idem) _ results 0 h

theorem filter_role {role : ReportRole} {results : List ReportRecord}
    (h : ∀ record ∈ results, record.role = role) (other : ReportRole) :
    results.filter (fun record => record.role = other) = if role = other then results else [] := by
  split
  · exact List.filter_eq_self.mpr fun record hrecord => decide_eq_true (by rwa [h record hrecord])
  · rename_i hne
    refine List.filter_eq_nil_iff.mpr fun record hrecord hrole => hne ?_
    rw [← h record hrecord, of_decide_eq_true hrole]

/-- A normalized payload, from its windows and the records of each role. -/
def assemble (payload : ReportInputManifest) (windows : ReportWindows)
    (primary comparison : List ReportRecord) : ReportInputManifest :=
  { payload with
    windows := (windows.primary, windows.comparison)
    definitions := { payload.definitions with
      ruleSets := sortBy ruleSetSortKey payload.definitions.ruleSets
      analysisVersions := sortBy analysisVersionSortKey payload.definitions.analysisVersions }
    categoryMappings := sortBy mappingSortKey payload.categoryMappings
    records := primary ++ comparison
    sourceCoverage := sortBy coverageSortKey payload.sourceCoverage }

/-- `[normalize_record(...) for ...]` over the records of a role. -/
def normalizeRole (payload : ReportInputManifest) (role : ReportRole) :
    Except ReportFailure (List ReportRecord) :=
  (orderedRecords role payload.records).zipIdx.mapM fun (record, ordinal) =>
    normalizeRecord record ordinal (mappingByKey payload.categoryMappings)

structure Normalizes (payload normalized : ReportInputManifest) (windows : ReportWindows)
    (primary comparison : List ReportRecord) : Prop where
  ofDate : seoulReportWindows payload.reportDateSeoul = some windows
  ofPrimary : normalizeRole payload .primary = .ok primary
  ofComparison : normalizeRole payload .comparison = .ok comparison
  result : normalized = assemble payload windows primary comparison

theorem normalizeManifest_iff : normalizeManifest payload = .ok normalized ↔
    ∃ windows primary comparison, Normalizes payload normalized windows primary comparison := by
  constructor
  · intro h
    obtain ⟨records, hrecords, h⟩ := bind_eq_ok.mp h
    obtain ⟨windows, hwindows, h⟩ := bind_eq_ok.mp h
    obtain ⟨primary, rest, hprimary, hrest, rfl⟩ := mapM_eq_ok_cons.mp hrecords
    obtain ⟨comparison, none, hcomparison, hnone, rfl⟩ := mapM_eq_ok_cons.mp hrest
    obtain rfl := mapM_eq_ok_nil.mp hnone
    refine ⟨windows, primary, comparison, present_eq_ok.mp hwindows, hprimary, hcomparison, ?_⟩
    have hflat : [primary, comparison].flatten = primary ++ comparison := by simp
    rw [← Except.ok.inj h, hflat]
    rfl
  · rintro ⟨windows, primary, comparison, hwindows, hprimary, hcomparison, rfl⟩
    have hflat : [primary, comparison].flatten = primary ++ comparison := by simp
    rw [normalizeRole] at hprimary hcomparison
    rw [normalizeManifest, List.mapM_cons, hprimary, ok_bind, List.mapM_cons, hcomparison, ok_bind,
      List.mapM_nil, pure_bind, pure_bind, pure_bind, hwindows, present, ok_bind, hflat]
    rfl

theorem orderedRecords_append {primary comparison : List ReportRecord}
    (hprimary : ∀ record ∈ primary, record.role = .primary)
    (hcomparison : ∀ record ∈ comparison, record.role = .comparison)
    (hfirst : primary.Pairwise (fun r s => recordSortKey r ≤ recordSortKey s))
    (hsecond : comparison.Pairwise (fun r s => recordSortKey r ≤ recordSortKey s)) :
    orderedRecords .primary (primary ++ comparison) = primary ∧
      orderedRecords .comparison (primary ++ comparison) = comparison := by
  constructor
  · rw [orderedRecords, List.filter_append, filter_role hprimary, filter_role hcomparison,
      if_pos rfl, if_neg (by decide), List.append_nil]
    exact sortBy_eq_self.mpr hfirst
  · rw [orderedRecords, List.filter_append, filter_role hprimary, filter_role hcomparison,
      if_pos rfl, if_neg (by decide), List.nil_append]
    exact sortBy_eq_self.mpr hsecond

theorem orderedRecords_normalized {mappings : MappingKey → Option CategoryMappingSnapshot}
    {primary comparison : List ReportRecord} (hprimary : RoleNormalized mappings .primary primary)
    (hcomparison : RoleNormalized mappings .comparison comparison) :
    orderedRecords .primary (primary ++ comparison) = primary ∧
      orderedRecords .comparison (primary ++ comparison) = comparison :=
  orderedRecords_append hprimary.roles hcomparison.roles hprimary.ordered hcomparison.ordered

theorem normalizeManifest_idem (hkeys : (payload.categoryMappings.map CategoryMappingSnapshot.key).Nodup)
    (h : normalizeManifest payload = .ok normalized) : normalizeManifest normalized = .ok normalized := by
  obtain ⟨windows, primary, comparison, hparts⟩ := normalizeManifest_iff.mp h
  have hmappings : mappingByKey (sortBy mappingSortKey payload.categoryMappings) =
      mappingByKey payload.categoryMappings :=
    (mappingByKey_perm (sortBy_perm _ _).symm hkeys).symm
  have hprimary := roleNormalized hparts.ofPrimary
  have hcomparison := roleNormalized hparts.ofComparison
  obtain ⟨hfirst, hsecond⟩ := orderedRecords_normalized hprimary hcomparison
  obtain rfl := hparts.result
  refine normalizeManifest_iff.mpr ⟨windows, primary, comparison, hparts.ofDate, ?_, ?_, ?_⟩
  · rw [normalizeRole, assemble, hfirst, hmappings]
    exact hprimary.fixed
  · rw [normalizeRole, assemble, hsecond, hmappings]
    exact hcomparison.fixed
  · simp only [assemble, sortBy_idem]

end CanonicalOrder

section Admission
variable {payload normalized : ReportInputManifest}

/-- What the schema checks of a payload beyond its fields. -/
structure Admitted (payload : ReportInputManifest) (windows : ReportWindows) : Prop where
  ofDate : seoulReportWindows payload.reportDateSeoul = some windows
  ofRole : payload.windowByRole .primary = some windows.primary ∧
    payload.windowByRole .comparison = some windows.comparison
  identities : (payload.records.map ReportInputManifest.identity).Nodup
  published : ∀ record ∈ payload.records, ReportInputManifest.PublishedInRole windows record
  coverage : (payload.sourceCoverage.map ReportInputManifest.coverageKey).Nodup
  mappings : (payload.categoryMappings.map CategoryMappingSnapshot.key).Nodup
  governed : ∀ record ∈ payload.records,
    payload.validateGoverningRecord (mappingByKey payload.categoryMappings) record = .ok ()

theorem admitted_iff : payload.validateWindowsAndRecords = .ok () ↔
    ∃ windows, Admitted payload windows := by
  constructor
  · intro h
    obtain ⟨_, hpublication, h⟩ := bind_eq_ok.mp h
    obtain ⟨_, hcoverage, h⟩ := bind_eq_ok.mp h
    obtain ⟨_, hmappings, hgoverned⟩ := bind_eq_ok.mp h
    obtain ⟨_, hkeys, hmappings⟩ := bind_eq_ok.mp hmappings
    obtain rfl := Except.ok.inj hmappings
    obtain ⟨windows, hwindows, hpublication⟩ := bind_eq_ok.mp hpublication
    obtain ⟨hroles, hpublication⟩ := require_bind.mp hpublication
    obtain ⟨hidentities, hpublished⟩ := require_eq_ok.mp hpublication
    exact ⟨windows, present_eq_ok.mp hwindows, hroles, hidentities, hpublished,
      require_eq_ok.mp hcoverage, require_eq_ok.mp hkeys, forM_eq_ok.mp hgoverned⟩
  · rintro ⟨windows, h⟩
    refine bind_eq_ok.mpr ⟨(), ?_, bind_eq_ok.mpr ⟨(), require_eq_ok.mpr h.coverage,
      bind_eq_ok.mpr ⟨mappingByKey payload.categoryMappings,
        bind_eq_ok.mpr ⟨(), require_eq_ok.mpr h.mappings, rfl⟩, forM_eq_ok.mpr h.governed⟩⟩⟩
    exact bind_eq_ok.mpr ⟨windows, present_eq_ok.mpr h.ofDate, require_bind.mpr ⟨h.ofRole,
      require_eq_ok.mpr ⟨h.identities, h.published⟩⟩⟩

theorem normalizeManifest_content (h : normalizeManifest payload = .ok normalized) :
    (normalized.records.map content).Perm (payload.records.map content) :=
  normalizeManifest_map (fun _ _ _ _ => normalizeRecord_content) h

theorem mem_normalized (h : normalizeManifest payload = .ok normalized) {record : ReportRecord}
    (hrecord : record ∈ normalized.records) :
    ∃ other ∈ payload.records, content other = content record :=
  List.mem_map.mp ((normalizeManifest_content h).mem_iff.mp (List.mem_map_of_mem hrecord))

theorem governed_content {mappings : MappingKey → Option CategoryMappingSnapshot}
    {record other : ReportRecord} (h : content other = content record)
    (hgoverned : payload.validateGoverningRecord mappings other = .ok ()) :
    payload.validateGoverningRecord mappings record = .ok () := by
  obtain ⟨hanalysis, hrules, htopics⟩ := validateGoverningRecord_eq_ok.mp hgoverned
  have hanalysisEq : (content other).analysis = (content record).analysis := by rw [h]
  have hrulesEq : (content other).ruleMatches = (content record).ruleMatches := by rw [h]
  have htopicsEq : (content other).topicMatches = (content record).topicMatches := by rw [h]
  simp only [content] at hanalysisEq hrulesEq htopicsEq
  refine validateGoverningRecord_eq_ok.mpr ⟨by rwa [← hanalysisEq], fun rule hrule => ?_,
    fun topic htopic => ?_⟩
  · have hmem : rule ∈ sortBy ruleSortKey other.ruleMatches := by
      rw [hrulesEq]
      exact mem_sortBy.mpr hrule
    exact hrules rule (mem_sortBy.mp hmem)
  · have hmem : topic ∈ sortBy topicSortKey other.topicMatches := by
      rw [htopicsEq]
      exact mem_sortBy.mpr htopic
    exact htopics topic (mem_sortBy.mp hmem)

theorem Admitted.canonical {windows : ReportWindows} (hadmitted : Admitted payload windows)
    (h : normalizeManifest payload = .ok normalized) : Admitted normalized windows := by
  have hcontent := normalizeManifest_content h
  have hmem : ∀ record ∈ normalized.records, ∃ other ∈ payload.records,
      content other = content record := fun _ hrecord => mem_normalized h hrecord
  obtain ⟨found, primary, comparison, hparts⟩ := normalizeManifest_iff.mp h
  have hsame : found = windows := Option.some.inj (hparts.ofDate.symm.trans hadmitted.ofDate)
  subst hsame
  obtain ⟨hprimary, hcomparison, _⟩ := windows_meet hparts.ofDate
  obtain rfl := hparts.result
  refine ⟨hparts.ofDate, ?_, ?_, ?_, ?_, ?_, ?_⟩
  · simp [assemble, ReportInputManifest.windowByRole, hprimary, hcomparison]
  · have hmaps : ∀ records : List ReportRecord, records.map ReportInputManifest.identity =
        (records.map content).map ReportInputManifest.identity := by
      intro records
      rw [List.map_map]
      rfl
    have hperm := hcontent.map ReportInputManifest.identity
    rw [← hmaps, ← hmaps] at hperm
    exact hperm.nodup_iff.mpr hadmitted.identities
  · intro record hrecord
    obtain ⟨other, hother, heq⟩ := hmem record hrecord
    have hpublished := hadmitted.published other hother
    have hread : ReportInputManifest.PublishedInRole found (content other) := hpublished
    rw [heq] at hread
    exact hread
  · exact ((sortBy_perm coverageSortKey _).map _).nodup_iff.mpr hadmitted.coverage
  · exact ((sortBy_perm mappingSortKey _).map _).nodup_iff.mpr hadmitted.mappings
  · intro record hrecord
    obtain ⟨other, hother, heq⟩ := hmem record hrecord
    have hmappings : mappingByKey (sortBy mappingSortKey payload.categoryMappings) =
        mappingByKey payload.categoryMappings :=
      (mappingByKey_perm (sortBy_perm _ _).symm hadmitted.mappings).symm
    have hgoverned := governed_content heq (hadmitted.governed other hother)
    obtain ⟨hanalysis, hrules, htopics⟩ := validateGoverningRecord_eq_ok.mp hgoverned
    refine validateGoverningRecord_eq_ok.mpr ⟨fun hvalid => ?_, fun rule hrule => ?_, ?_⟩
    · exact ((sortBy_perm analysisVersionSortKey _).map _).mem_iff.mpr (hanalysis hvalid)
    · refine ⟨((sortBy_perm ruleSetSortKey _).map _).mem_iff.mpr (hrules rule hrule).1, ?_⟩
      rw [assemble, hmappings]
      exact (hrules rule hrule).2
    · rw [assemble, hmappings]
      exact htopics

end Admission

section Text
variable {nf : NormalForm} {payload normalized : ReportInputManifest}

theorem map_eq_self_iff {α : Type} {f : α → α} {xs : List α} :
    xs.map f = xs ↔ ∀ x ∈ xs, f x = x := by
  induction xs with
  | nil => simp
  | cons x xs ih => rw [List.map_cons, List.cons.injEq, ih, List.forall_mem_cons]

theorem map_sortBy_eq_self {α κ : Type} [LinearOrder κ] {f : α → α} {key : α → κ} {xs : List α}
    (h : xs.map f = xs) : (sortBy key xs).map f = sortBy key xs :=
  map_eq_self_iff.mpr fun x hx => map_eq_self_iff.mp h x (mem_sortBy.mp hx)

theorem normalizeRecord_categories {record result : ReportRecord} {ordinal : ℕ}
    {mappings : MappingKey → Option CategoryMappingSnapshot}
    (h : normalizeRecord record ordinal mappings = .ok result) {category : Text}
    (hcategory : category ∈ result.effectiveCategories) :
    category = uncategorized ∨ ∃ key mapping, mappings key = some mapping ∧
      mapping.category = category := by
  have hmapped : ∀ key found, mappedCategory mappings key = .ok found →
      ∃ key mapping, mappings key = some mapping ∧ mapping.category = found := by
    intro key found hfound
    obtain ⟨mapping, hmapping, hfound⟩ := bind_eq_ok.mp hfound
    exact ⟨key, mapping, present_eq_ok.mp hmapping, Except.ok.inj hfound⟩
  by_cases hrelevant : Categorized record
  · simp only [normalizeRecord, if_pos hrelevant] at h
    obtain ⟨fromRules, hrules, h⟩ := bind_eq_ok.mp h
    obtain ⟨fromTopics, htopics, h⟩ := bind_eq_ok.mp h
    obtain rfl := Except.ok.inj h
    have hmem : category ∈ sortedCategories (fromRules ++ fromTopics) := hcategory
    rw [sortedCategories] at hmem
    split at hmem
    · exact .inl (List.mem_singleton.mp hmem)
    · right
      rcases List.mem_append.mp (mem_sortedSet.mp hmem) with hrule | htopic
      · obtain ⟨rule, _, hfound⟩ := forall₂_mem_right (mapM_forall₂.mp hrules) category hrule
        exact hmapped _ _ hfound
      · obtain ⟨topic, _, hfound⟩ := forall₂_mem_right (mapM_forall₂.mp htopics) category htopic
        exact hmapped _ _ hfound
  · simp only [normalizeRecord, if_neg hrelevant] at h
    obtain rfl := Except.ok.inj h
    exact absurd hcategory (by simp)

/-- The parts of a payload whose text is in normal form. -/
structure InForm (nf : NormalForm) (payload : ReportInputManifest) : Prop where
  scope : nf payload.sourceScopeVersion = payload.sourceScopeVersion
  formula : nf payload.definitions.formulaVersion = payload.definitions.formulaVersion
  metric : nf payload.definitions.metricVersion = payload.definitions.metricVersion
  category : nf payload.definitions.categoryVersion = payload.definitions.categoryVersion
  ruleSets : payload.definitions.ruleSets.map (RuleSetVersion.mapText nf) =
    payload.definitions.ruleSets
  analysisVersions : payload.definitions.analysisVersions.map (AnalysisVersionTuple.mapText nf) =
    payload.definitions.analysisVersions
  mappings : payload.categoryMappings.map (CategoryMappingSnapshot.mapText nf) =
    payload.categoryMappings
  records : payload.records.map (ReportRecord.mapText nf) = payload.records
  coverage : payload.sourceCoverage.map (SourceCoverage.mapText nf) = payload.sourceCoverage

theorem inForm_iff : payload.mapText nf = payload ↔ InForm nf payload := by
  obtain ⟨date, windows, scope, definitions, mappings, records, coverage⟩ := payload
  obtain ⟨formula, formulaHash, metric, metricHash, category, categoryHash, rules, versions⟩ :=
    definitions
  constructor
  · intro h
    simp only [ReportInputManifest.mapText, GoverningDefinitions.mapText,
      ReportInputManifest.mk.injEq, GoverningDefinitions.mk.injEq, true_and] at h
    obtain ⟨hscope, ⟨hformula, hmetric, hcategory, hrules, hversions⟩, hmappings, hrecords, hcoverage⟩ := h
    exact ⟨hscope, hformula, hmetric, hcategory, hrules, hversions, hmappings, hrecords, hcoverage⟩
  · intro h
    simp only [ReportInputManifest.mapText, GoverningDefinitions.mapText,
      ReportInputManifest.mk.injEq, GoverningDefinitions.mk.injEq, true_and]
    exact ⟨h.scope, ⟨h.formula, h.metric, h.category, h.ruleSets, h.analysisVersions⟩, h.mappings,
      h.records, h.coverage⟩

/-- A record in normal form, part by part. -/
theorem record_inForm_iff {record : ReportRecord} : record.mapText nf = record ↔
    nf record.community = record.community ∧ record.analysis.mapText nf = record.analysis ∧
      record.ruleMatches.map (RuleMatchSnapshot.mapText nf) = record.ruleMatches ∧
      record.topicMatches.map (TopicMatchSnapshot.mapText nf) = record.topicMatches ∧
      record.effectiveCategories.map nf = record.effectiveCategories := by
  cases record
  simp only [ReportRecord.mapText, ReportRecord.mk.injEq, true_and, and_true]

theorem normalizeRecord_inForm {record result : ReportRecord} {ordinal : ℕ}
    {mappings : List CategoryMappingSnapshot}
    (hmappings : mappings.map (CategoryMappingSnapshot.mapText nf) = mappings)
    (hrecord : record.mapText nf = record)
    (h : normalizeRecord record ordinal (mappingByKey mappings) = .ok result) :
    result.mapText nf = result := by
  have hcategories : result.effectiveCategories.map nf = result.effectiveCategories := by
    refine map_eq_self_iff.mpr fun category hcategory => ?_
    rcases normalizeRecord_categories h hcategory with rfl | ⟨key, mapping, hfound, rfl⟩
    · exact nf.fixesAscii _ (by decide)
    · have hfixed := map_eq_self_iff.mp hmappings mapping (mappingByKey_some hfound).1
      exact congrArg CategoryMappingSnapshot.category hfixed
  obtain ⟨hcommunity, hanalysis, hrules, htopics, _⟩ := record_inForm_iff.mp hrecord
  obtain ⟨categories, _, rfl⟩ := normalizeRecord_eq_ok h
  exact record_inForm_iff.mpr ⟨hcommunity, hanalysis, map_sortBy_eq_self hrules,
    map_sortBy_eq_self htopics, hcategories⟩

theorem normalizeRole_mem {role : ReportRole} {results : List ReportRecord}
    (h : normalizeRole payload role = .ok results) {record : ReportRecord} (hrecord : record ∈ results) :
    ∃ other ∈ payload.records, ∃ ordinal < payload.records.length,
      normalizeRecord other ordinal (mappingByKey payload.categoryMappings) = .ok record := by
  obtain ⟨⟨other, ordinal⟩, hpair, hnormalized⟩ :=
    forall₂_mem_right (mapM_forall₂.mp h) record hrecord
  have hlt := List.snd_lt_of_mem_zipIdx hpair
  have hmem := List.fst_mem_of_mem_zipIdx hpair
  obtain ⟨hother, _⟩ := List.mem_filter.mp (mem_sortBy.mp hmem)
  have hlength : (orderedRecords role payload.records).length ≤ payload.records.length := by
    rw [orderedRecords, length_sortBy]
    exact List.length_filter_le _ _
  exact ⟨other, hother, ordinal, by simp only at hlt; omega, hnormalized⟩

theorem normalizeManifest_mem (h : normalizeManifest payload = .ok normalized) {record : ReportRecord}
    (hrecord : record ∈ normalized.records) :
    ∃ other ∈ payload.records, ∃ ordinal < payload.records.length,
      normalizeRecord other ordinal (mappingByKey payload.categoryMappings) = .ok record := by
  obtain ⟨windows, primary, comparison, hparts⟩ := normalizeManifest_iff.mp h
  obtain rfl := hparts.result
  rcases List.mem_append.mp hrecord with hprimary | hcomparison
  · exact normalizeRole_mem hparts.ofPrimary hprimary
  · exact normalizeRole_mem hparts.ofComparison hcomparison

theorem normalizeManifest_inForm (h : normalizeManifest payload = .ok normalized)
    (htext : payload.mapText nf = payload) : normalized.mapText nf = normalized := by
  have hform := inForm_iff.mp htext
  have hrecords : normalized.records.map (ReportRecord.mapText nf) = normalized.records := by
    refine map_eq_self_iff.mpr fun record hrecord => ?_
    obtain ⟨other, hother, ordinal, _, hnormalized⟩ := normalizeManifest_mem h hrecord
    exact normalizeRecord_inForm hform.mappings (map_eq_self_iff.mp hform.records other hother)
      hnormalized
  obtain ⟨windows, primary, comparison, hparts⟩ := normalizeManifest_iff.mp h
  obtain rfl := hparts.result
  exact inForm_iff.mpr ⟨hform.scope, hform.formula, hform.metric, hform.category,
    map_sortBy_eq_self hform.ruleSets, map_sortBy_eq_self hform.analysisVersions,
    map_sortBy_eq_self hform.mappings, hrecords, map_sortBy_eq_self hform.coverage⟩

theorem normalizeManifest_ordinals (h : normalizeManifest payload = .ok normalized)
    (hfits : payload.records.length ≤ 2 ^ 53) : normalized.OrdinalsFit := by
  intro record hrecord
  obtain ⟨other, _, ordinal, hlt, hnormalized⟩ := normalizeManifest_mem h hrecord
  obtain ⟨categories, _, rfl⟩ := normalizeRecord_eq_ok hnormalized
  exact lt_of_lt_of_le hlt hfits

end Text

section Envelopes
variable {nf : NormalForm} {gzip : Gzip} {decoder : ManifestDecoder}
variable {payload normalized : ReportInputManifest}

def envelopeOf (nf : NormalForm) (gzip : Gzip) (normalized : ReportInputManifest) : ManifestBuild :=
  let serialized := CanonicalJson.canonicalBytes nf normalized.json
  { payload := normalized
    envelope := {
      codec := .gzip
      compressedPayload := gzip.compress serialized
      uncompressedByteLength := serialized.length
      manifestPayloadSha256 := sha256 serialized
      inputSetHash := inputSetHash serialized }
    canonicalBytes := serialized }

theorem buildManifest_iff {build : ManifestBuild} : buildManifest nf gzip payload = .ok build ↔
    ∃ normalized, normalizeManifest payload = .ok normalized ∧
      build = envelopeOf nf gzip normalized := by
  rw [buildManifest, bind_eq_ok]
  exact exists_congr fun normalized => and_congr_right fun _ =>
    ⟨fun h => (Except.ok.inj h).symm, fun h => congrArg Except.ok h.symm⟩

theorem decode_canonicalBytes (payload : ReportInputManifest) :
    decoder.decode (CanonicalJson.canonicalBytes nf payload.json) =
      if (payload.mapText nf).OrdinalsFit then some (payload.mapText nf) else none := by
  rw [CanonicalJson.canonicalBytes, ReportInputManifest.normalize_json, decoder.decode_json]

structure Reads (nf : NormalForm) (gzip : Gzip) (decoder : ManifestDecoder)
    (envelope : ManifestEnvelope) (payload : ReportInputManifest) (serialized : Bytes) : Prop where
  decompressed : gzip.decompress envelope.compressedPayload = .ok serialized
  identity : serialized.length = envelope.uncompressedByteLength ∧
    sha256 serialized = envelope.manifestPayloadSha256 ∧
    inputSetHash serialized = envelope.inputSetHash
  decoded : decoder.decode serialized = some payload
  admitted : payload.validateWindowsAndRecords = .ok ()
  canonical : ∃ normalized, normalizeManifest payload = .ok normalized ∧
    CanonicalJson.canonicalBytes nf normalized.json = serialized

theorem decompress_eq_ok {envelope : ManifestEnvelope} {serialized : Bytes} :
    decompress gzip envelope = .ok serialized ↔
      gzip.decompress envelope.compressedPayload = .ok serialized := by
  rw [decompress]
  cases envelope.codec
  cases hstream : gzip.decompress envelope.compressedPayload with
  | ok bytes => simp
  | error e => cases e <;> simp

theorem validateJson_eq_ok {serialized : Bytes} : validateJson decoder serialized = .ok payload ↔
    decoder.decode serialized = some payload ∧ payload.validateWindowsAndRecords = .ok () := by
  rw [validateJson, bind_eq_ok]
  constructor
  · rintro ⟨found, hfound, h⟩
    rw [present_eq_ok] at hfound
    split at h
    · rename_i hvalid
      obtain rfl := Except.ok.inj h
      exact ⟨hfound, hvalid⟩
    · exact absurd h (by simp [throw, throwThe, MonadExceptOf.throw])
    · exact absurd h (by simp [throw, throwThe, MonadExceptOf.throw])
  · rintro ⟨hdecoded, hvalid⟩
    refine ⟨payload, present_eq_ok.mpr hdecoded, ?_⟩
    rw [hvalid]
    rfl

theorem readManifest_iff {envelope : ManifestEnvelope} :
    readManifest nf gzip decoder envelope = .ok payload ↔
      ∃ serialized, Reads nf gzip decoder envelope payload serialized := by
  rw [readManifest, bind_eq_ok]
  refine exists_congr fun serialized => ?_
  rw [decompress_eq_ok, require_bind]
  constructor
  · rintro ⟨hstream, hidentity, h⟩
    obtain ⟨found, hfound, h⟩ := bind_eq_ok.mp h
    obtain ⟨normalized, hnormalized, h⟩ := bind_eq_ok.mp h
    obtain ⟨hcanonical, h⟩ := require_bind.mp h
    obtain rfl := Except.ok.inj h
    obtain ⟨hdecoded, hadmitted⟩ := validateJson_eq_ok.mp hfound
    exact ⟨hstream, hidentity, hdecoded, hadmitted, normalized, hnormalized, hcanonical⟩
  · rintro ⟨hstream, hidentity, hdecoded, hadmitted, normalized, hnormalized, hcanonical⟩
    exact ⟨hstream, hidentity, bind_eq_ok.mpr ⟨payload, validateJson_eq_ok.mpr ⟨hdecoded, hadmitted⟩,
      bind_eq_ok.mpr ⟨normalized, hnormalized, require_bind.mpr ⟨hcanonical, rfl⟩⟩⟩⟩

theorem reads_envelopeOf (hadmitted : normalized.validateWindowsAndRecords = .ok ())
    (hcanonical : normalizeManifest normalized = .ok normalized)
    (htext : normalized.mapText nf = normalized) (hfits : normalized.OrdinalsFit) :
    readManifest nf gzip decoder (envelopeOf nf gzip normalized).envelope = .ok normalized := by
  refine readManifest_iff.mpr ⟨CanonicalJson.canonicalBytes nf normalized.json,
    gzip.decompress_compress _, ⟨rfl, rfl, rfl⟩, ?_, hadmitted, normalized, hcanonical, rfl⟩
  rw [decode_canonicalBytes, htext, if_pos hfits]

/-- A manifest built from an admitted payload is read back as the payload that was
    hashed, and is built again from it, bytes and identities alike. -/
theorem build_reads (nf : NormalForm) (gzip : Gzip) (decoder : ManifestDecoder)
    (hvalid : payload.validateWindowsAndRecords = .ok ())
    (htext : payload.mapText nf = payload) (hfits : payload.records.length ≤ 2 ^ 53) :
    ∃ build, buildManifest nf gzip payload = .ok build ∧
      normalizeManifest payload = .ok build.payload ∧
      readManifest nf gzip decoder build.envelope = .ok build.payload ∧
      buildManifest nf gzip build.payload = .ok build := by
  obtain ⟨normalized, hnormalized⟩ := normalizeManifest_ok hvalid
  obtain ⟨windows, hadmitted⟩ := admitted_iff.mp hvalid
  have hidem := normalizeManifest_idem hadmitted.mappings hnormalized
  refine ⟨envelopeOf nf gzip normalized, buildManifest_iff.mpr ⟨normalized, hnormalized, rfl⟩,
    hnormalized, ?_, buildManifest_iff.mpr ⟨normalized, hidem, rfl⟩⟩
  exact reads_envelopeOf (admitted_iff.mpr ⟨windows, hadmitted.canonical hnormalized⟩) hidem
    (normalizeManifest_inForm hnormalized htext) (normalizeManifest_ordinals hnormalized hfits)

theorem map_map_eq_map {α : Type} {f : α → α} (hf : ∀ x, f (f x) = f x) (xs : List α) :
    (xs.map f).map f = xs.map f := by
  rw [List.map_map]
  exact List.map_congr_left fun x _ => hf x

theorem analysis_mapText_idem (analysis : AnalysisSnapshot) :
    (analysis.mapText nf).mapText nf = analysis.mapText nf := by
  have hoption : ∀ o : Option Text, (o.map nf).map nf = o.map nf := by
    intro o
    cases o with
    | none => rfl
    | some s => exact congrArg some (nf.idempotent s)
  simp only [AnalysisSnapshot.mapText, AnalysisValues.mapText, hoption]

theorem record_mapText_idem (record : ReportRecord) :
    (record.mapText nf).mapText nf = record.mapText nf := by
  refine record_inForm_iff.mpr ⟨nf.idempotent _, analysis_mapText_idem _, map_map_eq_map ?_ _,
    map_map_eq_map ?_ _, map_map_eq_map nf.idempotent _⟩
  · intro item
    simp only [RuleMatchSnapshot.mapText, nf.idempotent]
  · intro item
    simp only [TopicMatchSnapshot.mapText, nf.idempotent]

theorem mapText_idem (payload : ReportInputManifest) :
    (payload.mapText nf).mapText nf = payload.mapText nf := by
  refine inForm_iff.mpr ⟨nf.idempotent _, nf.idempotent _, nf.idempotent _, nf.idempotent _,
    map_map_eq_map ?_ _, map_map_eq_map ?_ _, map_map_eq_map ?_ _,
    map_map_eq_map record_mapText_idem _, map_map_eq_map ?_ _⟩
  · intro item
    simp only [RuleSetVersion.mapText, nf.idempotent]
  · intro item
    simp only [AnalysisVersionTuple.mapText, nf.idempotent]
  · intro item
    simp only [CategoryMappingSnapshot.mapText, nf.idempotent]
  · intro item
    simp only [SourceCoverage.mapText, CoverageValues.mapText, nf.idempotent]

theorem read_canonical {envelope : ManifestEnvelope}
    (h : readManifest nf gzip decoder envelope = .ok payload) :
    normalizeManifest payload = .ok payload ∧ payload.mapText nf = payload := by
  obtain ⟨serialized, hreads⟩ := readManifest_iff.mp h
  obtain ⟨normalized, hnormalized, rfl⟩ := hreads.canonical
  have hdecoded := hreads.decoded
  rw [decode_canonicalBytes] at hdecoded
  split at hdecoded
  · have hpayload := Option.some.inj hdecoded
    have htext : payload.mapText nf = payload := by rw [← hpayload, mapText_idem]
    have hsame : normalized = payload := by
      rw [← hpayload, normalizeManifest_inForm hnormalized htext]
    rw [hsame] at hnormalized
    exact ⟨hnormalized, htext⟩
  · exact absurd hdecoded (by simp)

/-- The manifest built from what was read of an envelope has its bytes and identities. -/
structure Rebuilt (nf : NormalForm) (gzip : Gzip) (envelope : ManifestEnvelope)
    (payload : ReportInputManifest) (build : ManifestBuild) : Prop where
  built : buildManifest nf gzip payload = .ok build
  canonical : build.payload = payload
  bytes : gzip.decompress envelope.compressedPayload = .ok build.canonicalBytes
  length : envelope.uncompressedByteLength = build.envelope.uncompressedByteLength
  payloadSha256 : envelope.manifestPayloadSha256 = build.envelope.manifestPayloadSha256
  inputSet : envelope.inputSetHash = build.envelope.inputSetHash

theorem read_rebuilds {envelope : ManifestEnvelope}
    (h : readManifest nf gzip decoder envelope = .ok payload) :
    ∃ build, Rebuilt nf gzip envelope payload build ∧
      readManifest nf gzip decoder build.envelope = .ok payload := by
  obtain ⟨hcanonical, htext⟩ := read_canonical h
  obtain ⟨serialized, hreads⟩ := readManifest_iff.mp h
  obtain ⟨normalized, hnormalized, hserialized⟩ := hreads.canonical
  obtain rfl := Except.ok.inj (hcanonical.symm.trans hnormalized)
  obtain ⟨hlength, hsha, hinput⟩ := hreads.identity
  subst hserialized
  refine ⟨envelopeOf nf gzip payload, ⟨buildManifest_iff.mpr ⟨payload, hcanonical, rfl⟩, rfl,
    hreads.decompressed, hlength.symm, hsha.symm, hinput.symm⟩, ?_⟩
  exact readManifest_iff.mpr ⟨_, gzip.decompress_compress _, ⟨rfl, rfl, rfl⟩, hreads.decoded,
    hreads.admitted, payload, hcanonical, rfl⟩

/-- Writer and reader of a manifest agree: what is built from an admitted payload is
    read back and built again alike, and whatever envelope is accepted holds the bytes
    that are built from its payload. -/
theorem manifest_roundTrip (nf : NormalForm) (gzip : Gzip) (decoder : ManifestDecoder)
    (hvalid : payload.validateWindowsAndRecords = .ok ())
    (htext : payload.mapText nf = payload) (hfits : payload.records.length ≤ 2 ^ 53) :
    (∃ build, buildManifest nf gzip payload = .ok build ∧
      normalizeManifest payload = .ok build.payload ∧
      readManifest nf gzip decoder build.envelope = .ok build.payload ∧
      buildManifest nf gzip build.payload = .ok build) ∧
    ∀ envelope read, readManifest nf gzip decoder envelope = .ok read →
      ∃ build, Rebuilt nf gzip envelope read build ∧
        readManifest nf gzip decoder build.envelope = .ok read :=
  ⟨build_reads nf gzip decoder hvalid htext hfits, fun _ _ => read_rebuilds⟩

end Envelopes

section Reproduction
variable {codecs : Codecs} {payload : ReportInputManifest} {build : ReportBuild}

def retainedOf (build : ReportBuild) : RetainedReport :=
  ⟨build.manifest.envelope, build.canonicalBytes, build.payloadSha256⟩

theorem decode_report {nf : NormalForm} {reports : ReportDecoder} (report : DailyReportPayload) :
    reports.decode (CanonicalJson.canonicalBytes nf report.json) = some (report.mapText nf) := by
  rw [CanonicalJson.canonicalBytes, DailyReportPayload.normalize_json, reports.decode_json]

theorem category_inForm {nf : NormalForm} {records : List ReportRecord}
    (htext : records.map (ReportRecord.mapText nf) = records) {category : Text}
    (hcategory : category ∈ categoryCounts records) : nf category = category := by
  obtain ⟨record, hrecord, hmem⟩ := List.mem_flatMap.mp hcategory
  obtain ⟨_, _, _, _, hcategories⟩ := record_inForm_iff.mp (map_eq_self_iff.mp htext record hrecord)
  exact map_eq_self_iff.mp hcategories category hmem

theorem phrase_inForm {nf : NormalForm} {records : List ReportRecord}
    (htext : records.map (ReportRecord.mapText nf) = records) {phrase : Text}
    (hphrase : phrase ∈ phraseCounts records) : nf phrase = phrase := by
  obtain ⟨record, hrecord, hmem⟩ := List.mem_flatMap.mp hphrase
  obtain ⟨_, _, hrules, _, _⟩ := record_inForm_iff.mp (map_eq_self_iff.mp htext record hrecord)
  obtain ⟨rule, hrule, rfl⟩ := List.mem_map.mp (List.mem_dedup.mp hmem)
  have hfixed := map_eq_self_iff.mp hrules rule (List.mem_filter.mp hrule).1
  exact congrArg RuleMatchSnapshot.normalizedPhrase hfixed

theorem rankHighlights_inForm {nf : NormalForm} {primary comparison : List ReportRecord}
    {highlights : List Highlight} (htext : primary.map (ReportRecord.mapText nf) = primary)
    (h : rankHighlights primary comparison = .ok highlights) :
    highlights.map (Highlight.mapText nf) = highlights := by
  refine map_eq_self_iff.mpr fun item hitem => ?_
  obtain ⟨category, hcategory, hrow⟩ := forall₂_mem_right (mapM_forall₂.mp h) item hitem
  have hleading := mem_sortBy.mp (List.mem_of_mem_take hcategory)
  obtain ⟨checkedPrimary, _, hrow⟩ := bind_eq_ok.mp hrow
  obtain ⟨checkedComparison, _, hrow⟩ := bind_eq_ok.mp hrow
  rw [← Except.ok.inj hrow]
  simp only [Highlight.mapText, map_ratioDecimal,
    category_inForm htext (List.mem_dedup.mp hleading)]

theorem leadingPhrases_mem {primary comparison : List ReportRecord} {phrase : Text}
    (h : phrase ∈ leadingPhrases primary comparison) : phrase ∈ phraseCounts primary := by
  have heligible : ∀ {p : Text → Bool}, phrase ∈ (eligiblePhrases primary).filter p →
      phrase ∈ phraseCounts primary := fun hmem =>
    List.mem_dedup.mp (List.mem_filter.mp (List.mem_filter.mp hmem).1).1
  rcases List.mem_append.mp (List.mem_of_mem_take h) with hrated | hunrated
  · exact heligible (mem_sortBy.mp hrated)
  · exact heligible (mem_sortBy.mp hunrated)

theorem rankRisingKeywords_inForm {nf : NormalForm} {primary comparison : List ReportRecord}
    {keywords : List RisingKeyword} (htext : primary.map (ReportRecord.mapText nf) = primary)
    (h : rankRisingKeywords primary comparison = .ok keywords) :
    keywords.map (RisingKeyword.mapText nf) = keywords := by
  refine map_eq_self_iff.mpr fun item hitem => ?_
  obtain ⟨phrase, hphrase, hrow⟩ := forall₂_mem_right (mapM_forall₂.mp h) item hitem
  obtain ⟨checkedPrimary, _, hrow⟩ := bind_eq_ok.mp hrow
  obtain ⟨checkedComparison, _, hrow⟩ := bind_eq_ok.mp hrow
  rw [← Except.ok.inj hrow]
  simp only [RisingKeyword.mapText, map_ratioDecimal,
    phrase_inForm htext (leadingPhrases_mem hphrase)]

theorem projectPayload_inForm {nf : NormalForm} {normalized : ReportInputManifest}
    {inputSetHash payloadHash : Digest} {report : DailyReportPayload}
    (htext : normalized.mapText nf = normalized)
    (h : projectPayload normalized inputSetHash payloadHash = .ok report) :
    report.mapText nf = report := by
  have hform := inForm_iff.mp htext
  have hprimary : (relevantRecords (ofRole .primary normalized)).map (ReportRecord.mapText nf) =
      relevantRecords (ofRole .primary normalized) := by
    refine map_eq_self_iff.mpr fun record hrecord => ?_
    have hmem := (List.mem_filter.mp (List.mem_filter.mp hrecord).1).1
    exact map_eq_self_iff.mp hform.records record hmem
  have hcarried := (projectPayload_shows h).2
  have hranked := rankHighlights_inForm hprimary hcarried.highlights
  have hkeywords := rankRisingKeywords_inForm hprimary hcarried.risingKeywords
  have hcoverage : report.sourceCoverage.map (SourceCoverage.mapText nf) = report.sourceCoverage := by
    rw [hcarried.coverage]
    exact hform.coverage
  simp only [DailyReportPayload.mapText, hcarried.scope, hcarried.formula, hcarried.metric,
    hcarried.category, hcarried.analysis, hform.scope, hform.formula, hform.metric, hform.category,
    map_ratioDecimal, hranked, hkeywords, hcoverage]
  rw [← hcarried.scope, ← hcarried.formula, ← hcarried.metric, ← hcarried.category,
    ← hcarried.analysis]

theorem projectReport_iff {nf : NormalForm} {gzip : Gzip} :
    projectReport nf gzip payload = .ok build ↔
      ∃ manifest report, buildManifest nf gzip payload = .ok manifest ∧
        verifyCoverage manifest.payload = .ok () ∧
        projectPayload manifest.payload manifest.envelope.inputSetHash
          manifest.envelope.manifestPayloadSha256 = .ok report ∧
        build = ⟨manifest, report, CanonicalJson.canonicalBytes nf report.json,
          sha256 (CanonicalJson.canonicalBytes nf report.json)⟩ := by
  rw [projectReport, bind_eq_ok]
  refine exists_congr fun manifest => ⟨?_, ?_⟩
  · rintro ⟨hmanifest, h⟩
    obtain ⟨_, hverified, h⟩ := bind_eq_ok.mp h
    obtain ⟨report, hreport, h⟩ := bind_eq_ok.mp h
    exact ⟨report, hmanifest, hverified, hreport, (Except.ok.inj h).symm⟩
  · rintro ⟨report, hmanifest, hverified, hreport, rfl⟩
    exact ⟨hmanifest, bind_eq_ok.mpr ⟨(), hverified, bind_eq_ok.mpr ⟨report, hreport, rfl⟩⟩⟩

/-- A projection of an admitted payload in normal form is recomputed from what is
    retained of it. -/
theorem recompute_retained (hvalid : payload.validateWindowsAndRecords = .ok ())
    (htext : payload.mapText codecs.nf = payload) (hfits : payload.records.length ≤ 2 ^ 53)
    (h : projectReport codecs.nf codecs.gzip payload = .ok build) :
    recompute codecs (retainedOf build) = .ok (build, build.payload) := by
  obtain ⟨manifest, hmanifest, hnormalized, hread, hrebuild⟩ :=
    build_reads codecs.nf codecs.gzip codecs.manifests hvalid htext hfits
  obtain ⟨other, report, hother, hverified, hreport, rfl⟩ := projectReport_iff.mp h
  obtain rfl := Except.ok.inj (hmanifest.symm.trans hother)
  have hinForm := normalizeManifest_inForm hnormalized htext
  refine bind_eq_ok.mpr ⟨manifest.payload, hread, bind_eq_ok.mpr ⟨_, projectReport_iff.mpr
    ⟨manifest, report, hrebuild, hverified, hreport, rfl⟩, bind_eq_ok.mpr ⟨report, ?_, rfl⟩⟩⟩
  rw [retainedOf, decode_report, projectPayload_inForm hinForm hreport]
  rfl

/-- A reproduced report has the bytes and the digest that are projected from the
    payload of its manifest, whose identities are those of the retained envelope. -/
theorem reproduced_projects {retained : RetainedReport} {report : DailyReportPayload} {bytes : Bytes}
    {digest : Digest}
    (h : reproduceReport codecs retained = .ok (.reproduced report bytes digest)) :
    ∃ payload build, readManifest codecs.nf codecs.gzip codecs.manifests retained.manifest =
        .ok payload ∧
      projectReport codecs.nf codecs.gzip payload = .ok build ∧
      Rebuilt codecs.nf codecs.gzip retained.manifest payload build.manifest ∧
      build.payload = report ∧ build.canonicalBytes = bytes ∧ build.payloadSha256 = digest ∧
      retained.reportPayload = bytes ∧ retained.reportPayloadSha256 = digest ∧
      sha256 bytes = digest := by
  rw [reproduceReport] at h
  split at h
  · rename_i recomputed storedPayload hrecompute
    obtain ⟨payload, hread, hrecompute⟩ := bind_eq_ok.mp hrecompute
    obtain ⟨found, hproject, hrecompute⟩ := bind_eq_ok.mp hrecompute
    obtain ⟨_, _, hrecompute⟩ := bind_eq_ok.mp hrecompute
    obtain ⟨rfl, rfl⟩ := Prod.mk.inj (Except.ok.inj hrecompute)
    split at h
    · rename_i hmatches
      obtain ⟨rfl, rfl, rfl⟩ := ReproductionResult.reproduced.inj (Except.ok.inj h)
      obtain ⟨hbytes, hdigest, hsha, _⟩ := hmatches
      obtain ⟨manifest, hrebuilt, _⟩ := read_rebuilds hread
      obtain ⟨other, _, hother, _, _, hbuild⟩ := projectReport_iff.mp hproject
      have hmanifest : found.manifest = manifest := by
        rw [hbuild]
        exact Except.ok.inj (hother.symm.trans hrebuilt.built)
      refine ⟨payload, found, hread, hproject, hmanifest ▸ hrebuilt, rfl, rfl, rfl, hbytes, hdigest, ?_⟩
      rw [← hbytes, hsha, hdigest]
    · exact absurd (Except.ok.inj h) nofun
  · split at h
    · exact absurd (Except.ok.inj h) nofun
    · exact absurd h nofun

/-- Every report that is projected from an admitted payload in normal form is
    reproduced from what is retained of it, byte for byte; and whatever is reproduced
    is the projection of the payload that its manifest holds. -/
theorem retained_reproduced (hvalid : payload.validateWindowsAndRecords = .ok ())
    (htext : payload.mapText codecs.nf = payload) (hfits : payload.records.length ≤ 2 ^ 53)
    (h : projectReport codecs.nf codecs.gzip payload = .ok build) :
    reproduceReport codecs (retainedOf build) =
      .ok (.reproduced build.payload build.canonicalBytes build.payloadSha256) ∧
    ∀ retained report bytes digest,
      reproduceReport codecs retained = .ok (.reproduced report bytes digest) →
      ∃ payload build, readManifest codecs.nf codecs.gzip codecs.manifests retained.manifest =
          .ok payload ∧
        projectReport codecs.nf codecs.gzip payload = .ok build ∧
        Rebuilt codecs.nf codecs.gzip retained.manifest payload build.manifest ∧
        build.payload = report ∧ build.canonicalBytes = bytes ∧ build.payloadSha256 = digest ∧
        retained.reportPayload = bytes ∧ retained.reportPayloadSha256 = digest ∧
        sha256 bytes = digest := by
  refine ⟨?_, fun _ _ _ _ => reproduced_projects⟩
  obtain ⟨_, report, _, _, _, rfl⟩ := projectReport_iff.mp h
  rw [reproduceReport, recompute_retained hvalid htext hfits h]
  exact if_pos ⟨rfl, rfl, rfl, rfl⟩

end Reproduction

section Decoders

noncomputable def decodeText {α : Type} (json : α → Json) (p : α → Prop) (bytes : Bytes) : Option α :=
  open Classical in
  if h : ∃ a, p a ∧ encodeText (render (json a)) = bytes then some h.choose else none

theorem decodeText_json {α : Type} {json : α → Json} (hinj : Function.Injective json) {p : α → Prop}
    (a : α) [Decidable (p a)] :
    decodeText json p (encodeText (render (json a))) = if p a then some a else none := by
  have hsame : ∀ b, encodeText (render (json b)) = encodeText (render (json a)) → b = a := fun b h =>
    hinj (render_injective (encodeText_injective h))
  by_cases hp : p a
  · have hex : ∃ b, p b ∧ encodeText (render (json b)) = encodeText (render (json a)) := ⟨a, hp, rfl⟩
    rw [decodeText, dif_pos hex, if_pos hp, hsame _ hex.choose_spec.2]
  · rw [decodeText, if_neg hp, dif_neg]
    rintro ⟨b, hb, htext⟩
    rw [hsame b htext] at hb
    exact hp hb

noncomputable def searchManifests : ManifestDecoder :=
  ⟨decodeText ReportInputManifest.json ReportInputManifest.OrdinalsFit,
    fun payload => decodeText_json manifest_json_injective payload⟩

noncomputable def searchReports : ReportDecoder :=
  ⟨decodeText DailyReportPayload.json fun _ => True, fun report =>
    (decodeText_json report_json_injective report).trans (if_pos trivial)⟩

end Decoders

section Sample

noncomputable def sampleCodecs : Codecs := ⟨sampleForm, sampleGzip, searchManifests, searchReports⟩

theorem manifest_roundTrip_sample : ∃ build, buildManifest sampleForm sampleGzip sampleInput = .ok build ∧
    readManifest sampleForm sampleGzip searchManifests build.envelope = .ok build.payload :=
  (manifest_roundTrip sampleForm sampleGzip searchManifests sampleInput_valid rfl (by decide)).1.imp
    fun _ h => ⟨h.1, h.2.2.1⟩

theorem retained_reproduced_sample : ∃ build, projectReport sampleForm sampleGzip sampleInput = .ok build ∧
    reproduceReport sampleCodecs (retainedOf build) =
      .ok (.reproduced build.payload build.canonicalBytes build.payloadSha256) :=
  sampleInput_projected.imp fun build h => ⟨h,
    (@retained_reproduced sampleCodecs _ _ sampleInput_valid rfl (by decide) h).1⟩

end Sample

end PredictionMarketMonitor.ManifestRoundTrip
