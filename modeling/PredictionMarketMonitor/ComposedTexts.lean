import PredictionMarketMonitor.ReportIdentity

set_option autoImplicit false

/-!
# Manifests whose texts are not composed

`build_manifest` sorts and checks the texts as they come, and the encoder writes their
normal form: the reader sorts and checks what the writer did not.
-/
namespace PredictionMarketMonitor.ComposedTexts

open CanonicalJson CollectionBase FallibleSteps KeySorting ReportInputs ReportManifest
open ReportFormula ReportJson ManifestRoundTrip ReportAccounting ReportIdentity AssemblyAcceptance

section Settled
variable {payload : ReportInputManifest} {mappings : MappingKey → Option CategoryMappingSnapshot}
variable {record : ReportRecord} {xs ys : List Text}

/-- The categories of the matches that count. -/
def matchedCategories (record : ReportRecord) : List Text :=
  (record.ruleMatches.filter (·.matchPresent)).map RuleMatchSnapshot.mappedCategory ++
    record.topicMatches.map TopicMatchSnapshot.mappedCategory

/-- A record with what normalization derives, when its matches have their mappings. -/
def settled (record : ReportRecord) (ordinal : ℕ) : ReportRecord :=
  { record with
    ordinal := ordinal
    ruleMatches := sortBy ruleSortKey record.ruleMatches
    topicMatches := sortBy topicSortKey record.topicMatches
    effectiveCategories :=
      if Categorized record then sortedCategories (matchedCategories record) else [] }

theorem sortedCategories_congr (h : ∀ c, c ∈ xs ↔ c ∈ ys) :
    sortedCategories xs = sortedCategories ys := by
  have hempty : xs = [] ↔ ys = [] := by simp only [List.eq_nil_iff_forall_not_mem, h]
  have hsorted : sortedSet xs = sortedSet ys :=
    eq_of_mem_iff_of_pairwise (sortedSet_pairwise xs) (sortedSet_pairwise ys) (by simpa using h)
  rw [sortedCategories, sortedCategories, hsorted, if_congr hempty rfl rfl]

theorem normalizeRecord_settled (ordinal : ℕ)
    (h : payload.validateGoverningRecord mappings record = .ok ()) :
    normalizeRecord record ordinal mappings = .ok (settled record ordinal) := by
  obtain ⟨_, hrules, htopics⟩ := validateGoverningRecord_eq_ok.mp h
  have hmapped : ∀ {key mapping}, mappings key = some mapping →
      mappedCategory mappings key = .ok mapping.category := by
    intro key mapping hmapping
    rw [mappedCategory, hmapping]
    rfl
  by_cases hcategorized : Categorized record
  · have hfromRules : ((sortBy ruleSortKey record.ruleMatches).filter (·.matchPresent)).mapM
        (fun item => mappedCategory mappings (ruleMappingKey item)) = .ok _ :=
      mapM_eq_map fun rule hrule => by
        obtain ⟨_, mapping, hmapping, hcategory⟩ :=
          hrules rule (mem_sortBy.mp (List.mem_filter.mp hrule).1)
        rw [hmapped hmapping, hcategory]
    have hfromTopics : (sortBy topicSortKey record.topicMatches).mapM
        (fun item => mappedCategory mappings (topicMappingKey item)) = .ok _ :=
      mapM_eq_map fun topic htopic => by
        obtain ⟨mapping, hmapping, hcategory⟩ := htopics topic (mem_sortBy.mp htopic)
        rw [hmapped hmapping, hcategory]
    have hcategories : sortedCategories
        (((sortBy ruleSortKey record.ruleMatches).filter (·.matchPresent)).map
            RuleMatchSnapshot.mappedCategory ++
          (sortBy topicSortKey record.topicMatches).map TopicMatchSnapshot.mappedCategory) =
        sortedCategories (matchedCategories record) :=
      sortedCategories_congr fun c => by simp [matchedCategories]
    simp only [normalizeRecord, if_pos hcategorized, hfromRules, hfromTopics, ok_bind, pure_bind,
      settled, hcategories]
    rfl
  · simp only [normalizeRecord, if_neg hcategorized, settled]
    rfl

end Settled

section Composition
variable {nf : NormalForm} {gzip : Gzip} {decoder : ManifestDecoder}
variable {payload normalized read : ReportInputManifest} {record : ReportRecord} {xs : List Text}
variable {windows : ReportWindows}

/-- Composing the texts of a record's matches keeps their order and that of its categories. -/
structure MatchesCompose (nf : NormalForm) (record : ReportRecord) : Prop where
  rules : MonovaryOn (fun item : RuleMatchSnapshot => ruleSortKey (item.mapText nf)) ruleSortKey
    {item | item ∈ record.ruleMatches}
  topics : MonovaryOn (fun item : TopicMatchSnapshot => topicSortKey (item.mapText nf)) topicSortKey
    {item | item ∈ record.topicMatches}
  categories : Categorized record → StrictMonoOn nf {c | c ∈ matchedCategories record}

theorem sortedCategories_map :
    sortedCategories (xs.map nf) = (sortedCategories xs).map nf ↔ StrictMonoOn nf {c | c ∈ xs} := by
  by_cases hempty : xs = []
  · subst hempty
    have hfixed : nf uncategorized = uncategorized := nf.fixesAscii _ (by decide)
    simp [sortedCategories, hfixed, StrictMonoOn]
  · have hmapped : xs.map nf ≠ [] := by simpa using hempty
    rw [sortedCategories, sortedCategories, if_neg hempty, if_neg hmapped]
    exact sortedSet_map

theorem settled_eq_self {ordinal : ℕ} : settled record ordinal = record ↔
    record.ordinal = ordinal ∧ sortBy ruleSortKey record.ruleMatches = record.ruleMatches ∧
      sortBy topicSortKey record.topicMatches = record.topicMatches ∧
      (if Categorized record then sortedCategories (matchedCategories record) else []) =
        record.effectiveCategories := by
  constructor
  · intro h
    exact ⟨(congrArg ReportRecord.ordinal h).symm, congrArg ReportRecord.ruleMatches h,
      congrArg ReportRecord.topicMatches h, congrArg ReportRecord.effectiveCategories h⟩
  · rintro ⟨hordinal, hrules, htopics, hcategories⟩
    rw [settled, hrules, htopics, hcategories, ← hordinal]

theorem ruleSortKey_mapText {a b : RuleMatchSnapshot} (h : ruleSortKey a = ruleSortKey b) :
    ruleSortKey (a.mapText nf) = ruleSortKey (b.mapText nf) := by
  obtain ⟨hphrase, h⟩ := toLex_pair_inj.mp h
  obtain ⟨hversion, hid⟩ := toLex_pair_inj.mp h
  exact toLex_pair_inj.mpr ⟨congrArg nf.apply hphrase,
    toLex_pair_inj.mpr ⟨congrArg nf.apply hversion, hid⟩⟩

theorem topicSortKey_mapText {a b : TopicMatchSnapshot} (h : topicSortKey a = topicSortKey b) :
    topicSortKey (a.mapText nf) = topicSortKey (b.mapText nf) := by
  obtain ⟨hvalue, h⟩ := toLex_pair_inj.mp h
  obtain ⟨hversion, hkey⟩ := toLex_pair_inj.mp h
  exact toLex_pair_inj.mpr ⟨congrArg nf.apply hvalue,
    toLex_pair_inj.mpr ⟨congrArg nf.apply hversion, congrArg nf.apply hkey⟩⟩

theorem mappingSortKey_mapText {a b : CategoryMappingSnapshot}
    (h : mappingSortKey a = mappingSortKey b) :
    mappingSortKey (a.mapText nf) = mappingSortKey (b.mapText nf) := by
  obtain ⟨hkind, h⟩ := toLex_pair_inj.mp h
  obtain ⟨hvalue, h⟩ := toLex_pair_inj.mp h
  obtain ⟨hversion, hkey⟩ := toLex_pair_inj.mp h
  exact toLex_pair_inj.mpr ⟨hkind, toLex_pair_inj.mpr ⟨congrArg nf.apply hvalue,
    toLex_pair_inj.mpr ⟨congrArg nf.apply hversion, congrArg nf.apply hkey⟩⟩⟩

theorem settled_composed (record : ReportRecord) (ordinal : ℕ) :
    settled ((settled record ordinal).mapText nf) ordinal = (settled record ordinal).mapText nf ↔
      MatchesCompose nf record := by
  have hrules := @sortBy_map_sorted _ _ _ ruleSortKey record.ruleMatches
    (RuleMatchSnapshot.mapText nf) fun _ _ _ _ => ruleSortKey_mapText
  have htopics := @sortBy_map_sorted _ _ _ topicSortKey record.topicMatches
    (TopicMatchSnapshot.mapText nf) fun _ _ _ _ => topicSortKey_mapText
  have hmatched : sortedCategories (matchedCategories ((settled record ordinal).mapText nf)) =
      sortedCategories ((matchedCategories record).map nf) :=
    sortedCategories_congr fun c => by
      simp [matchedCategories, settled, ReportRecord.mapText, RuleMatchSnapshot.mapText,
        TopicMatchSnapshot.mapText]
  have hcategories : (if Categorized ((settled record ordinal).mapText nf) then
        sortedCategories (matchedCategories ((settled record ordinal).mapText nf)) else []) =
      ((settled record ordinal).mapText nf).effectiveCategories ↔
      (Categorized record → StrictMonoOn nf {c | c ∈ matchedCategories record}) := by
    have hsame : Categorized ((settled record ordinal).mapText nf) ↔ Categorized record := Iff.rfl
    have heffective : ((settled record ordinal).mapText nf).effectiveCategories =
        (if Categorized record then sortedCategories (matchedCategories record) else []).map nf := rfl
    rw [hmatched, if_congr hsame rfl rfl, heffective]
    by_cases hcategorized : Categorized record
    · rw [if_pos hcategorized, if_pos hcategorized, sortedCategories_map]
      exact ⟨fun h _ => h, fun h => h hcategorized⟩
    · rw [if_neg hcategorized, if_neg hcategorized]
      exact ⟨fun _ h => absurd h hcategorized, fun _ => rfl⟩
  rw [settled_eq_self, hcategories]
  constructor
  · rintro ⟨_, hsortedRules, hsortedTopics, hcategories⟩
    exact ⟨hrules.mp hsortedRules, htopics.mp hsortedTopics, hcategories⟩
  · exact fun h => ⟨rfl, hrules.mpr h.rules, htopics.mpr h.topics, h.categories⟩

def settledRole (payload : ReportInputManifest) (role : ReportRole) : List ReportRecord :=
  (orderedRecords role payload.records).zipIdx.map fun (record, ordinal) => settled record ordinal

theorem normalizeManifest_settled (h : Admitted payload windows) :
    normalizeManifest payload = .ok (assemble payload windows (settledRole payload .primary)
      (settledRole payload .comparison)) := by
  have hrole : ∀ role, normalizeRole payload role = .ok (settledRole payload role) :=
    fun role => mapM_eq_map fun (record, ordinal) hmem =>
      normalizeRecord_settled ordinal (h.governed record
        (List.mem_filter.mp (mem_sortBy.mp (List.fst_mem_of_mem_zipIdx hmem))).1)
  exact normalizeManifest_iff.mpr ⟨windows, _, _, h.ofDate, hrole .primary, hrole .comparison, rfl⟩

theorem zipIdx_settled_composed (records : List ReportRecord) (n : ℕ) :
    (((records.zipIdx n).map fun (record, ordinal) => (settled record ordinal).mapText nf).zipIdx n).map
        (fun (record, ordinal) => settled record ordinal) =
      ((records.zipIdx n).map fun (record, ordinal) => (settled record ordinal).mapText nf) ↔
    ∀ record ∈ records, MatchesCompose nf record := by
  induction records generalizing n with
  | nil => simp
  | cons record records ih =>
    simp only [List.zipIdx_cons, List.map_cons, List.cons.injEq, settled_composed, ih,
      List.forall_mem_cons]

theorem mem_settledRole {role : ReportRole} (h : record ∈ settledRole payload role) :
    ∃ other ∈ payload.records, other.role = role ∧ ∃ ordinal, record = settled other ordinal := by
  obtain ⟨⟨other, ordinal⟩, hmem, rfl⟩ := List.mem_map.mp h
  obtain ⟨hother, hrole⟩ := List.mem_filter.mp (mem_sortBy.mp (List.fst_mem_of_mem_zipIdx hmem))
  exact ⟨other, hother, of_decide_eq_true hrole, ordinal, rfl⟩

theorem settledRole_ordered (payload : ReportInputManifest) (role : ReportRole) :
    ((settledRole payload role).map (ReportRecord.mapText nf)).Pairwise
      (fun r s => recordSortKey r ≤ recordSortKey s) := by
  have hkeys : ((settledRole payload role).map (ReportRecord.mapText nf)).map recordSortKey =
      (orderedRecords role payload.records).map recordSortKey := by
    rw [settledRole, List.map_map, List.map_map]
    calc (orderedRecords role payload.records).zipIdx.map (fun pair => recordSortKey pair.1)
        = ((orderedRecords role payload.records).zipIdx.map Prod.fst).map recordSortKey := by
          rw [List.map_map]
          rfl
      _ = (orderedRecords role payload.records).map recordSortKey := by
          rw [List.zipIdx_map_fst]
  have hsorted : ((orderedRecords role payload.records).map recordSortKey).Pairwise (· ≤ ·) :=
    List.pairwise_map.mpr (sortBy_pairwise recordSortKey _)
  rw [← hkeys] at hsorted
  exact List.pairwise_map.mp hsorted

/-- What `assemble` makes of an admitted payload. -/
def settledManifest (payload : ReportInputManifest) (windows : ReportWindows) : ReportInputManifest :=
  assemble payload windows (settledRole payload .primary) (settledRole payload .comparison)

theorem orderedRecords_composed (payload : ReportInputManifest) (windows : ReportWindows)
    (role : ReportRole) :
    orderedRecords role ((settledManifest payload windows).mapText nf).records =
      (settledRole payload role).map (ReportRecord.mapText nf) := by
  have hroles : ∀ role, ∀ record ∈ (settledRole payload role).map (ReportRecord.mapText nf),
      record.role = role := by
    intro role record hrecord
    obtain ⟨other, hother, rfl⟩ := List.mem_map.mp hrecord
    obtain ⟨_, _, hrole, _, rfl⟩ := mem_settledRole hother
    exact hrole
  have hrecords : ((settledManifest payload windows).mapText nf).records =
      (settledRole payload .primary).map (ReportRecord.mapText nf) ++
        (settledRole payload .comparison).map (ReportRecord.mapText nf) := List.map_append
  obtain ⟨hprimary, hcomparison⟩ := orderedRecords_append (hroles .primary) (hroles .comparison)
    (settledRole_ordered payload .primary) (settledRole_ordered payload .comparison)
  rw [hrecords]
  cases role with
  | primary => exact hprimary
  | comparison => exact hcomparison

theorem settledRole_composed (payload : ReportInputManifest) (windows : ReportWindows)
    (role : ReportRole) :
    settledRole ((settledManifest payload windows).mapText nf) role =
        (settledRole payload role).map (ReportRecord.mapText nf) ↔
      ∀ record ∈ payload.records, record.role = role → MatchesCompose nf record := by
  have hfixed := @zipIdx_settled_composed nf (orderedRecords role payload.records) 0
  rw [settledRole, orderedRecords_composed, settledRole, List.map_map]
  refine hfixed.trans ⟨fun h record hrecord hrole => h record ?_, fun h record hrecord => ?_⟩
  · exact mem_sortBy.mpr (List.mem_filter.mpr ⟨hrecord, decide_eq_true hrole⟩)
  · obtain ⟨hmem, hrole⟩ := List.mem_filter.mp (mem_sortBy.mp hrecord)
    exact h record hmem (of_decide_eq_true hrole)

/-- Composing the texts of a payload keeps the order of its sort keys, and merges no two
    mappings. -/
structure OrderComposes (nf : NormalForm) (payload : ReportInputManifest) : Prop where
  ruleSets : MonovaryOn (fun item : RuleSetVersion => ruleSetSortKey (item.mapText nf))
    ruleSetSortKey {item | item ∈ payload.definitions.ruleSets}
  analysisVersions : MonovaryOn
    (fun item : AnalysisVersionTuple => analysisVersionSortKey (item.mapText nf))
    analysisVersionSortKey {item | item ∈ payload.definitions.analysisVersions}
  mappings : MonovaryOn (fun item : CategoryMappingSnapshot => mappingSortKey (item.mapText nf))
    mappingSortKey {item | item ∈ payload.categoryMappings}
  records : ∀ record ∈ payload.records, MatchesCompose nf record

theorem assemble_eq_self {primary comparison : List ReportRecord} :
    assemble payload windows primary comparison = payload ↔
      payload.windows = (windows.primary, windows.comparison) ∧
      sortBy ruleSetSortKey payload.definitions.ruleSets = payload.definitions.ruleSets ∧
      sortBy analysisVersionSortKey payload.definitions.analysisVersions =
        payload.definitions.analysisVersions ∧
      sortBy mappingSortKey payload.categoryMappings = payload.categoryMappings ∧
      primary ++ comparison = payload.records ∧
      sortBy coverageSortKey payload.sourceCoverage = payload.sourceCoverage := by
  constructor
  · intro h
    have hdefinitions := congrArg ReportInputManifest.definitions h
    exact ⟨(congrArg ReportInputManifest.windows h).symm,
      congrArg GoverningDefinitions.ruleSets hdefinitions,
      congrArg GoverningDefinitions.analysisVersions hdefinitions,
      congrArg ReportInputManifest.categoryMappings h, congrArg ReportInputManifest.records h,
      congrArg ReportInputManifest.sourceCoverage h⟩
  · rintro ⟨hwindows, hruleSets, hversions, hmappings, hrecords, hcoverage⟩
    rw [assemble, ← hwindows, hruleSets, hversions, hmappings, hrecords, hcoverage]

theorem composed_fixed (h : Admitted ((settledManifest payload windows).mapText nf) windows) :
    normalizeManifest ((settledManifest payload windows).mapText nf) =
        .ok ((settledManifest payload windows).mapText nf) ↔ OrderComposes nf payload := by
  have hruleSets := @sortBy_map_sorted _ _ _ ruleSetSortKey payload.definitions.ruleSets
    (RuleSetVersion.mapText nf) fun _ _ _ _ heq => by rw [ruleSetSortKey_injective heq]
  have hversions := @sortBy_map_sorted _ _ _ analysisVersionSortKey
    payload.definitions.analysisVersions (AnalysisVersionTuple.mapText nf)
    fun _ _ _ _ heq => by rw [analysisVersionSortKey_injective heq]
  have hmappings := @sortBy_map_sorted _ _ _ mappingSortKey payload.categoryMappings
    (CategoryMappingSnapshot.mapText nf) fun _ _ _ _ => mappingSortKey_mapText
  have hcoverage : sortBy coverageSortKey ((settledManifest payload windows).mapText nf).sourceCoverage =
      ((settledManifest payload windows).mapText nf).sourceCoverage :=
    sortBy_eq_self.mpr (List.pairwise_map.mpr (sortBy_pairwise coverageSortKey _))
  have hrecords : settledRole ((settledManifest payload windows).mapText nf) .primary ++
        settledRole ((settledManifest payload windows).mapText nf) .comparison =
      ((settledManifest payload windows).mapText nf).records ↔
      ∀ record ∈ payload.records, MatchesCompose nf record := by
    have hsplit : ((settledManifest payload windows).mapText nf).records =
        (settledRole payload .primary).map (ReportRecord.mapText nf) ++
          (settledRole payload .comparison).map (ReportRecord.mapText nf) := List.map_append
    have hlength : (settledRole ((settledManifest payload windows).mapText nf) .primary).length =
        ((settledRole payload .primary).map (ReportRecord.mapText nf)).length := by
      rw [settledRole, orderedRecords_composed, List.length_map, List.length_zipIdx]
    rw [hsplit, List.append_eq_append_iff_of_size_eq_left hlength, settledRole_composed,
      settledRole_composed]
    constructor
    · rintro ⟨hprimary, hcomparison⟩ record hrecord
      cases hrole : record.role with
      | primary => exact hprimary record hrecord hrole
      | comparison => exact hcomparison record hrecord hrole
    · exact fun h => ⟨fun record hrecord _ => h record hrecord, fun record hrecord _ => h record hrecord⟩
  rw [normalizeManifest_settled h, Except.ok.injEq, assemble_eq_self, hrecords]
  constructor
  · rintro ⟨_, hsortedSets, hsortedVersions, hsortedMappings, hcomposed, _⟩
    exact ⟨hruleSets.mp hsortedSets, hversions.mp hsortedVersions, hmappings.mp hsortedMappings,
      hcomposed⟩
  · exact fun h => ⟨rfl, hruleSets.mpr h.ruleSets, hversions.mpr h.analysisVersions,
      hmappings.mpr h.mappings, h.records, hcoverage⟩

theorem mappingByKey_composed {mapping : CategoryMappingSnapshot} {key : MappingKey}
    {mappings : List CategoryMappingSnapshot}
    (hdistinct : (mappings.map fun item => (item.mapText nf).key).Nodup)
    (h : mappingByKey mappings key = some mapping) :
    mappingByKey (mappings.map (CategoryMappingSnapshot.mapText nf)) (mapping.mapText nf).key =
      some (mapping.mapText nf) := by
  obtain ⟨hmem, _⟩ := mappingByKey_some h
  refine mappingByKey_of_unique (List.mem_map_of_mem hmem) fun other hother hkey => ?_
  obtain ⟨item, hitem, rfl⟩ := List.mem_map.mp hother
  rw [List.inj_on_of_nodup_map hdistinct hitem hmem hkey]

theorem composedKey {a b : MappingKey} (h : a = b) :
    (a.1, nf a.2.1, nf a.2.2.1, nf a.2.2.2) = (b.1, nf b.2.1, nf b.2.2.1, nf b.2.2.2) := by
  rw [h]

theorem governed_composed (hdistinct : (payload.categoryMappings.map fun item =>
      (item.mapText nf).key).Nodup)
    (h : payload.validateGoverningRecord (mappingByKey payload.categoryMappings) record = .ok ()) :
    (payload.mapText nf).validateGoverningRecord
      (mappingByKey (payload.mapText nf).categoryMappings) (record.mapText nf) = .ok () := by
  obtain ⟨hanalysis, hrules, htopics⟩ := validateGoverningRecord_eq_ok.mp h
  refine validateGoverningRecord_eq_ok.mpr ⟨fun hvalid => ?_, fun rule hrule => ?_,
    fun topic htopic => ?_⟩
  · obtain ⟨version, hversion, hsame⟩ := List.mem_map.mp (hanalysis hvalid)
    exact List.mem_map.mpr ⟨version.mapText nf, List.mem_map_of_mem hversion,
      congrArg (fun versions => (versions.1.map nf.apply, versions.2.1.map nf.apply,
        versions.2.2.map nf.apply)) hsame⟩
  · obtain ⟨item, hitem, rfl⟩ := List.mem_map.mp hrule
    obtain ⟨hknown, mapping, hmapping, hcategory⟩ := hrules item hitem
    obtain ⟨ruleSet, hruleSet, hsame⟩ := List.mem_map.mp hknown
    have hfound := mappingByKey_composed hdistinct hmapping
    have hkey : (mapping.mapText nf).key = ruleMappingKey (item.mapText nf) :=
      composedKey (mappingByKey_some hmapping).2
    rw [hkey] at hfound
    exact ⟨List.mem_map.mpr ⟨ruleSet.mapText nf, List.mem_map_of_mem hruleSet,
      congrArg (Prod.map nf.apply nf.apply) hsame⟩, mapping.mapText nf, hfound,
      congrArg nf.apply hcategory⟩
  · obtain ⟨item, hitem, rfl⟩ := List.mem_map.mp htopic
    obtain ⟨mapping, hmapping, hcategory⟩ := htopics item hitem
    have hfound := mappingByKey_composed hdistinct hmapping
    have hkey : (mapping.mapText nf).key = topicMappingKey (item.mapText nf) :=
      composedKey (mappingByKey_some hmapping).2
    rw [hkey] at hfound
    exact ⟨mapping.mapText nf, hfound, congrArg nf.apply hcategory⟩

theorem composed_admitted (h : Admitted payload windows) :
    Admitted (payload.mapText nf) windows ↔
      (payload.categoryMappings.map fun item => (item.mapText nf).key).Nodup := by
  constructor
  · intro hcomposed
    have hkeys := hcomposed.mappings
    rwa [ReportInputManifest.mapText, List.map_map] at hkeys
  · intro hdistinct
    have hidentities : (payload.mapText nf).records.map ReportInputManifest.identity =
        payload.records.map ReportInputManifest.identity := List.map_map
    have hcoverage : (payload.mapText nf).sourceCoverage.map ReportInputManifest.coverageKey =
        payload.sourceCoverage.map ReportInputManifest.coverageKey := List.map_map
    have hmappings : (payload.mapText nf).categoryMappings.map CategoryMappingSnapshot.key =
        payload.categoryMappings.map fun item => (item.mapText nf).key := List.map_map
    refine ⟨h.ofDate, h.ofRole, ?_, fun record hrecord => ?_, ?_, ?_, ?_⟩
    · rw [hidentities]
      exact h.identities
    · obtain ⟨other, hother, rfl⟩ := List.mem_map.mp hrecord
      exact h.published other hother
    · rw [hcoverage]
      exact h.coverage
    · rw [hmappings]
      exact hdistinct
    · intro record hrecord
      obtain ⟨other, hother, rfl⟩ := List.mem_map.mp hrecord
      exact governed_composed hdistinct (h.governed other hother)

/-- Composing the texts of a payload keeps the order of its sort keys, merges no two
    mappings, and no role has more records than an ordinal counts. -/
structure Composes (nf : NormalForm) (payload : ReportInputManifest) : Prop
    extends OrderComposes nf payload where
  distinct : (payload.categoryMappings.map fun item => (item.mapText nf).key).Nodup
  ordinals : ∀ role, (orderedRecords role payload.records).length ≤ 2 ^ 53

theorem settledRole_ordinals (payload : ReportInputManifest) (role : ReportRole) :
    (settledRole payload role).map ReportRecord.ordinal =
      List.range' 0 (orderedRecords role payload.records).length := by
  rw [settledRole, List.map_map]
  exact List.zipIdx_map_snd 0 _

theorem settledRole_ordinals_lt {role : ReportRole} {bound : ℕ} :
    (∀ record ∈ settledRole payload role, record.ordinal < bound) ↔
      (orderedRecords role payload.records).length ≤ bound := by
  have hall : (∀ record ∈ settledRole payload role, record.ordinal < bound) ↔
      ∀ ordinal ∈ (settledRole payload role).map ReportRecord.ordinal, ordinal < bound := by
    rw [List.forall_mem_map]
  rw [hall, settledRole_ordinals]
  simp only [List.mem_range'_1, Nat.zero_le, Nat.zero_add, true_and]
  exact ⟨fun h => le_of_not_gt fun hlt => lt_irrefl _ (h bound hlt), fun h _ hlt => hlt.trans_le h⟩

theorem ordinalsFit_settled : (settledManifest payload windows).OrdinalsFit ↔
    ∀ role, (orderedRecords role payload.records).length ≤ 2 ^ 53 := by
  have hsplit : (settledManifest payload windows).OrdinalsFit ↔
      (∀ record ∈ settledRole payload .primary, record.ordinal < 2 ^ 53) ∧
        ∀ record ∈ settledRole payload .comparison, record.ordinal < 2 ^ 53 :=
    List.forall_mem_append
  rw [hsplit, settledRole_ordinals_lt, settledRole_ordinals_lt]
  constructor
  · rintro ⟨hprimary, hcomparison⟩ role
    cases role with
    | primary => exact hprimary
    | comparison => exact hcomparison
  · exact fun h => ⟨h .primary, h .comparison⟩

/-- What the reader checks of the composed payload. -/
structure Canonical (nf : NormalForm) (normalized : ReportInputManifest) : Prop where
  valid : (normalized.mapText nf).validateWindowsAndRecords = .ok ()
  fixed : normalizeManifest (normalized.mapText nf) = .ok (normalized.mapText nf)
  ordinals : normalized.OrdinalsFit

theorem canonical_iff (h : Admitted payload windows) :
    Canonical nf (settledManifest payload windows) ↔ Composes nf payload := by
  have hadmitted : Admitted (settledManifest payload windows) windows :=
    h.canonical (normalizeManifest_settled h)
  have hperm : ((settledManifest payload windows).categoryMappings.map fun item =>
        (item.mapText nf).key).Perm
      (payload.categoryMappings.map fun item => (item.mapText nf).key) :=
    (sortBy_perm mappingSortKey _).map _
  constructor
  · rintro ⟨hvalid, hfixed, hordinals⟩
    obtain ⟨other, hcomposed⟩ := admitted_iff.mp hvalid
    obtain rfl : other = windows := Option.some.inj (hcomposed.ofDate.symm.trans h.ofDate)
    exact ⟨(composed_fixed hcomposed).mp hfixed,
      hperm.nodup_iff.mp ((composed_admitted hadmitted).mp hcomposed), ordinalsFit_settled.mp hordinals⟩
  · rintro ⟨horder, hdistinct, hordinals⟩
    have hcomposed := (composed_admitted hadmitted).mpr (hperm.nodup_iff.mpr hdistinct)
    exact ⟨admitted_iff.mpr ⟨windows, hcomposed⟩, (composed_fixed hcomposed).mpr horder,
      ordinalsFit_settled.mpr hordinals⟩

end Composition

section Reading
variable {nf : NormalForm} {gzip : Gzip} {decoder : ManifestDecoder}
variable {payload normalized read : ReportInputManifest}

/-- The envelope of a build is read as a payload that is built again with its bytes. -/
structure RoundTrips (nf : NormalForm) (gzip : Gzip) (decoder : ManifestDecoder)
    (build : ManifestBuild) (read : ReportInputManifest) : Prop where
  reads : readManifest nf gzip decoder build.envelope = .ok read
  rebuilds : ∃ again, buildManifest nf gzip read = .ok again ∧
    again.canonicalBytes = build.canonicalBytes ∧
    again.envelope.inputSetHash = build.envelope.inputSetHash

theorem ordinalsFit_mapText : (normalized.mapText nf).OrdinalsFit ↔ normalized.OrdinalsFit :=
  List.forall_mem_map

theorem canonicalBytes_mapText (normalized : ReportInputManifest) :
    CanonicalJson.canonicalBytes nf (normalized.mapText nf).json =
      CanonicalJson.canonicalBytes nf normalized.json := by
  rw [canonicalBytes_inj, ReportInputManifest.normalize_json, ReportInputManifest.normalize_json,
    mapText_idem]

theorem envelopeOf_mapText (normalized : ReportInputManifest) :
    (envelopeOf nf gzip (normalized.mapText nf)).envelope =
        (envelopeOf nf gzip normalized).envelope ∧
      (envelopeOf nf gzip (normalized.mapText nf)).canonicalBytes =
        (envelopeOf nf gzip normalized).canonicalBytes := by
  simp only [envelopeOf, canonicalBytes_mapText, and_self]

/-- The reader gives the composed payload or nothing. -/
theorem reads_composed
    (h : readManifest nf gzip decoder (envelopeOf nf gzip normalized).envelope = .ok read) :
    read = normalized.mapText nf ∧ Canonical nf normalized := by
  obtain ⟨hcanonical, _⟩ := read_canonical h
  obtain ⟨serialized, hreads⟩ := readManifest_iff.mp h
  have hserialized : serialized = CanonicalJson.canonicalBytes nf normalized.json :=
    Except.ok.inj (hreads.decompressed.symm.trans (gzip.decompress_compress _))
  have hdecoded := hreads.decoded
  rw [hserialized, decode_canonicalBytes] at hdecoded
  split at hdecoded
  · next hfits =>
    obtain rfl := Option.some.inj hdecoded
    exact ⟨rfl, hreads.admitted, hcanonical, ordinalsFit_mapText.mp hfits⟩
  · exact absurd hdecoded (by simp)

theorem roundTrips_iff :
    RoundTrips nf gzip decoder (envelopeOf nf gzip normalized) (normalized.mapText nf) ↔
      Canonical nf normalized := by
  refine ⟨fun h => (reads_composed h.reads).2, fun h => ?_⟩
  obtain ⟨henvelope, hbytes⟩ := @envelopeOf_mapText nf gzip normalized
  refine ⟨?_, _, buildManifest_iff.mpr ⟨_, h.fixed, rfl⟩, hbytes, by rw [henvelope]⟩
  rw [← henvelope]
  exact reads_envelopeOf h.valid h.fixed (mapText_idem normalized)
    (ordinalsFit_mapText.mpr h.ordinals)

/-- A manifest is read back exactly when composing its texts keeps the order of the sort keys
    and the mappings apart: as the composed payload, which is the one in memory exactly when
    its texts were composed before. -/
theorem manifest_returns_iff (nf : NormalForm) (gzip : Gzip) (decoder : ManifestDecoder)
    (hvalid : payload.validateWindowsAndRecords = .ok ()) :
    ∃ build, buildManifest nf gzip payload = .ok build ∧
      normalizeManifest payload = .ok build.payload ∧
      (RoundTrips nf gzip decoder build (build.payload.mapText nf) ↔ Composes nf payload) ∧
      (RoundTrips nf gzip decoder build build.payload ↔
        build.payload.mapText nf = build.payload ∧
          ∀ role, (orderedRecords role payload.records).length ≤ 2 ^ 53) ∧
      ∀ read, readManifest nf gzip decoder build.envelope = .ok read → Composes nf payload := by
  obtain ⟨windows, hadmitted⟩ := admitted_iff.mp hvalid
  have hnormalized := normalizeManifest_settled hadmitted
  have hcomposes := @canonical_iff nf payload windows hadmitted
  have htrips := @roundTrips_iff nf gzip decoder (settledManifest payload windows)
  refine ⟨envelopeOf nf gzip (settledManifest payload windows),
    buildManifest_iff.mpr ⟨_, hnormalized, rfl⟩, hnormalized, htrips.trans hcomposes,
    ⟨fun h => ?_, ?_⟩, fun read hread => hcomposes.mp (reads_composed hread).2⟩
  · obtain ⟨hcomposed, hcanonical⟩ := reads_composed h.reads
    exact ⟨hcomposed.symm, (hcomposes.mp hcanonical).ordinals⟩
  · rintro ⟨htext, hordinals⟩
    have htext : (settledManifest payload windows).mapText nf = settledManifest payload windows := htext
    have hcanonical : Canonical nf (settledManifest payload windows) := by
      refine ⟨?_, ?_, ordinalsFit_settled.mpr hordinals⟩
      · rw [htext]
        exact admitted_iff.mpr ⟨windows, hadmitted.canonical hnormalized⟩
      · rw [htext]
        exact normalizeManifest_idem hadmitted.mappings hnormalized
    rw [htext] at htrips
    exact htrips.mpr hcanonical

theorem manifest_returns_iff_sample : ∃ build,
    buildManifest sampleForm sampleGzip sampleInput = .ok build ∧
      RoundTrips sampleForm sampleGzip searchManifests build build.payload := by
  obtain ⟨build, hbuild, hnormalized, _, htrips, _⟩ := manifest_returns_iff sampleForm sampleGzip
    searchManifests sampleInput_valid
  refine ⟨build, hbuild, htrips.mpr ⟨normalizeManifest_inForm hnormalized rfl, fun role => ?_⟩⟩
  cases role <;> decide

end Reading

section Kelvin

/-- The normal form of a Kelvin sign is the letter K. -/
def composeKelvin (c : Char) : Char := if c = '\u212a' then 'K' else c

/-- The normal form of texts whose only other characters are fixed by it. -/
def kelvinForm : NormalForm where
  apply := List.map composeKelvin
  idempotent s := by
    have hchar : ∀ c, composeKelvin (composeKelvin c) = composeKelvin c := by
      intro c
      by_cases hkelvin : c = '\u212a'
      · rw [hkelvin]
        decide
      · simp only [composeKelvin, if_neg hkelvin]
    exact map_map_eq_map hchar s
  fixesAscii s hascii := by
    refine map_eq_self_iff.mpr fun c hc => if_neg ?_
    rintro rfl
    exact absurd (List.all_eq_true.mp hascii _ hc) (by decide)

def kelvinInput : ReportInputManifest :=
  { sampleManifest [] with
    definitions := { (sampleManifest []).definitions with
      ruleSets := [⟨['L'], "1".toList, sampleDigest⟩, ⟨['\u212a'], "1".toList, sampleDigest⟩] }
    sourceCoverage := [] }

theorem kelvinInput_evaluates :
    kelvinInput.validateWindowsAndRecords = .ok () ∧
    ∀ m ∈ (normalizeManifest kelvinInput).toOption,
      (normalizeManifest (m.mapText kelvinForm)).toOption ≠ some (m.mapText kelvinForm) := by
  decide +kernel

/-- Two rule sets named L and Kelvin sign sort as L, K, and the reader sorts K, L. -/
theorem kelvinInput_unread :
    kelvinInput.validateWindowsAndRecords = .ok () ∧ kelvinInput.records.length ≤ 2 ^ 53 ∧
    ∀ build, buildManifest kelvinForm sampleGzip kelvinInput = .ok build → ∀ read,
      readManifest kelvinForm sampleGzip searchManifests build.envelope ≠ .ok read := by
  obtain ⟨hvalid, hunordered⟩ := kelvinInput_evaluates
  refine ⟨hvalid, by decide, fun build hbuild read hread => ?_⟩
  obtain ⟨normalized, hnormalized, rfl⟩ := buildManifest_iff.mp hbuild
  obtain ⟨_, hcanonical⟩ := reads_composed hread
  refine hunordered normalized ?_ ?_
  · rw [hnormalized]
    rfl
  · rw [hcanonical.fixed]
    rfl

end Kelvin

end PredictionMarketMonitor.ComposedTexts
