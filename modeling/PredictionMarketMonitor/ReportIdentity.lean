import PredictionMarketMonitor.ManifestRoundTrip

set_option autoImplicit false

/-!
# The identity of a report input

The canonical bytes of an input are its content: they forget the order in which its
arrays arrive, and nothing else.
-/
namespace PredictionMarketMonitor.ReportIdentity

open CanonicalJson CollectionBase FallibleSteps KeySorting ReportInputs ReportManifest
open ReportFormula ReportAccounting ReportJson ManifestRoundTrip Sha256

section Identity
variable {p q : ReportInputManifest}

/-- One record with its matches in two orders; its ordinal and categories are derived. -/
structure SameRecord (r s : ReportRecord) : Prop where
  rules : r.ruleMatches.Perm s.ruleMatches
  topics : r.topicMatches.Perm s.topicMatches
  rest : { r with
    ordinal := s.ordinal
    ruleMatches := s.ruleMatches
    topicMatches := s.topicMatches
    effectiveCategories := s.effectiveCategories } = s

/-- One input whose arrays arrive in two orders; its windows follow from its date. -/
structure Reordered (p q : ReportInputManifest) : Prop where
  ruleSets : p.definitions.ruleSets.Perm q.definitions.ruleSets
  analysisVersions : p.definitions.analysisVersions.Perm q.definitions.analysisVersions
  mappings : p.categoryMappings.Perm q.categoryMappings
  records : ∃ rows, p.records.Perm rows ∧ List.Forall₂ SameRecord rows q.records
  coverage : p.sourceCoverage.Perm q.sourceCoverage
  rest : { p with
    windows := q.windows
    definitions := { p.definitions with
      ruleSets := q.definitions.ruleSets
      analysisVersions := q.definitions.analysisVersions }
    categoryMappings := q.categoryMappings
    records := q.records
    sourceCoverage := q.sourceCoverage } = q

def MatchesDistinct (payload : ReportInputManifest) : Prop :=
  ∀ record ∈ payload.records, (record.ruleMatches.map RuleMatchSnapshot.matchId).Nodup

instance (payload : ReportInputManifest) : Decidable (MatchesDistinct payload) :=
  inferInstanceAs (Decidable (∀ record ∈ payload.records,
    (record.ruleMatches.map RuleMatchSnapshot.matchId).Nodup))

/-- Two rule matches of one record that sort alike are one match. -/
def MatchesKeyed (payload : ReportInputManifest) : Prop :=
  ∀ record ∈ payload.records, ∀ a ∈ record.ruleMatches, ∀ b ∈ record.ruleMatches,
    ruleSortKey a = ruleSortKey b → a = b

instance (payload : ReportInputManifest) : Decidable (MatchesKeyed payload) :=
  inferInstanceAs (Decidable (∀ record ∈ payload.records, ∀ a ∈ record.ruleMatches,
    ∀ b ∈ record.ruleMatches, ruleSortKey a = ruleSortKey b → a = b))

theorem toLex_pair_inj {α β : Type} {a c : α} {b d : β} :
    (toLex (a, b) : α ×ₗ β) = toLex (c, d) ↔ a = c ∧ b = d := by
  rw [toLex_inj, Prod.mk.injEq]

theorem MatchesDistinct.keyed (h : MatchesDistinct p) : MatchesKeyed p := by
  intro record hrecord a ha b hb hkey
  obtain ⟨_, hkey⟩ := toLex_pair_inj.mp hkey
  obtain ⟨_, hid⟩ := toLex_pair_inj.mp hkey
  exact List.inj_on_of_nodup_map (h record hrecord) ha hb (uuid_str_injective hid)

theorem ruleSetSortKey_injective : Function.Injective ruleSetSortKey := by
  intro a b h
  obtain ⟨hid, h⟩ := toLex_pair_inj.mp h
  obtain ⟨hversion, hhash⟩ := toLex_pair_inj.mp h
  have hhash := hexdigest_injective hhash
  cases a
  cases b
  simp_all

theorem analysisVersionSortKey_injective : Function.Injective analysisVersionSortKey := by
  intro a b h
  obtain ⟨hprompt, h⟩ := toLex_pair_inj.mp h
  obtain ⟨hmodel, hschema⟩ := toLex_pair_inj.mp h
  cases a
  cases b
  simp_all

theorem mappingSortKey_key {a b : CategoryMappingSnapshot} (h : mappingSortKey a = mappingSortKey b) :
    a.key = b.key := by
  obtain ⟨hkind, h⟩ := toLex_pair_inj.mp h
  obtain ⟨hvalue, h⟩ := toLex_pair_inj.mp h
  obtain ⟨hversion, hrule⟩ := toLex_pair_inj.mp h
  have hkind : a.inputKind = b.inputKind := inputKind_json_inj.mp (congrArg Json.str hkind)
  rw [CategoryMappingSnapshot.key, CategoryMappingSnapshot.key, hkind, hvalue, hversion, hrule]

theorem coverageSortKey_key {a b : SourceCoverage} (h : coverageSortKey a = coverageSortKey b) :
    ReportInputManifest.coverageKey a = ReportInputManifest.coverageKey b := by
  obtain ⟨hrole, hsource⟩ := toLex_pair_inj.mp h
  have hrole : a.role = b.role := by
    cases ha : a.role <;> cases hb : b.role <;> simp_all [roleRank]
  rw [ReportInputManifest.coverageKey, ReportInputManifest.coverageKey, hrole,
    uuid_str_injective hsource]

theorem topic_eq_of_key {payload : ReportInputManifest} {record : ReportRecord}
    {mappings : MappingKey → Option CategoryMappingSnapshot}
    (hgoverned : payload.validateGoverningRecord mappings record = .ok ())
    {a b : TopicMatchSnapshot} (ha : a ∈ record.topicMatches) (hb : b ∈ record.topicMatches)
    (h : topicSortKey a = topicSortKey b) : a = b := by
  obtain ⟨_, _, htopics⟩ := validateGoverningRecord_eq_ok.mp hgoverned
  obtain ⟨hvalue, h⟩ := toLex_pair_inj.mp h
  obtain ⟨hversion, hkey⟩ := toLex_pair_inj.mp h
  obtain ⟨mappingA, hfoundA, hcategoryA⟩ := htopics a ha
  obtain ⟨mappingB, hfoundB, hcategoryB⟩ := htopics b hb
  have hsame : topicMappingKey a = topicMappingKey b := by
    rw [topicMappingKey, topicMappingKey, hkey, hversion, hvalue]
  rw [hsame, hfoundB] at hfoundA
  obtain rfl := Option.some.inj hfoundA
  have hcategory := hcategoryA.symm.trans hcategoryB
  cases a
  cases b
  simp_all

theorem SameRecord.content_eq {payload : ReportInputManifest} {r s : ReportRecord}
    {mappings : MappingKey → Option CategoryMappingSnapshot}
    (hgoverned : payload.validateGoverningRecord mappings r = .ok ())
    (hkeyed : ∀ a ∈ r.ruleMatches, ∀ b ∈ r.ruleMatches, ruleSortKey a = ruleSortKey b → a = b)
    (h : SameRecord r s) : content r = content s := by
  have hrules : sortBy ruleSortKey r.ruleMatches = sortBy ruleSortKey s.ruleMatches :=
    sortBy_eq_of_perm h.rules hkeyed
  have htopics : sortBy topicSortKey r.topicMatches = sortBy topicSortKey s.topicMatches :=
    sortBy_eq_of_perm h.topics fun a ha b hb hkey => topic_eq_of_key hgoverned ha hb hkey
  rw [← h.rest]
  simp only [content, hrules, htopics]

/-- A record without what normalization derives, and its matches in no order. -/
def bag (record : ReportRecord) :
    ReportRecord × Multiset RuleMatchSnapshot × Multiset TopicMatchSnapshot :=
  ({ record with
      ordinal := 0
      ruleMatches := []
      topicMatches := []
      effectiveCategories := [] }, record.ruleMatches, record.topicMatches)

theorem bag_content (record : ReportRecord) : bag (content record) = bag record := by
  have hrules : ((sortBy ruleSortKey record.ruleMatches : List RuleMatchSnapshot) :
      Multiset RuleMatchSnapshot) = record.ruleMatches :=
    Multiset.coe_eq_coe.mpr (sortBy_perm _ _)
  have htopics : ((sortBy topicSortKey record.topicMatches : List TopicMatchSnapshot) :
      Multiset TopicMatchSnapshot) = record.topicMatches :=
    Multiset.coe_eq_coe.mpr (sortBy_perm _ _)
  simp only [bag, content, hrules, htopics]

theorem bag_mapText (f : Text → Text) (record : ReportRecord) : bag (record.mapText f) =
    Prod.map (ReportRecord.mapText f) (Prod.map (Multiset.map (RuleMatchSnapshot.mapText f))
      (Multiset.map (TopicMatchSnapshot.mapText f))) (bag record) := rfl

theorem sameRecord_of_bag {r s : ReportRecord} (h : bag r = bag s) : SameRecord r s := by
  obtain ⟨hrest, hmatches⟩ := Prod.mk.inj h
  obtain ⟨hrules, htopics⟩ := Prod.mk.inj hmatches
  refine ⟨Multiset.coe_eq_coe.mp hrules, Multiset.coe_eq_coe.mp htopics, ?_⟩
  cases r
  cases s
  simp only [ReportRecord.mk.injEq] at hrest ⊢
  obtain ⟨_, h1, h2, h3, h4, h5, h6, h7, h8, h9, h10, h11, h12, h13, _, _, _, h14⟩ := hrest
  exact ⟨trivial, h1, h2, h3, h4, h5, h6, h7, h8, h9, h10, h11, h12, h13, trivial, trivial, trivial, h14⟩

theorem sameRecords_of_bag {rs ss : List ReportRecord} (h : rs.map bag = ss.map bag) :
    List.Forall₂ SameRecord rs ss := by
  induction rs generalizing ss with
  | nil =>
    cases ss with
    | nil => exact .nil
    | cons s ss => exact absurd h (by simp)
  | cons r rs ih =>
    cases ss with
    | nil => exact absurd h (by simp)
    | cons s ss =>
      obtain ⟨hhead, htail⟩ := List.cons.inj h
      exact .cons (sameRecord_of_bag hhead) (ih htail)

theorem exists_perm_of_map_perm {α β : Type} {f : α → β} {ys zs : List β} (h : ys.Perm zs) :
    ∀ xs : List α, xs.map f = ys → ∃ rows, xs.Perm rows ∧ rows.map f = zs := by
  induction h with
  | nil => exact fun xs hxs => ⟨xs, .refl _, hxs⟩
  | cons y _ ih =>
    intro xs hxs
    cases xs with
    | nil => exact absurd hxs (by simp)
    | cons x xs =>
      obtain ⟨hx, hxs⟩ := List.cons.inj hxs
      obtain ⟨rows, hperm, hmap⟩ := ih xs hxs
      exact ⟨x :: rows, hperm.cons x, by rw [List.map_cons, hx, hmap]⟩
  | swap y z l =>
    intro xs hxs
    match xs, hxs with
    | a :: b :: xs, hxs =>
      obtain ⟨ha, hxs⟩ := List.cons.inj hxs
      obtain ⟨hb, hxs⟩ := List.cons.inj hxs
      exact ⟨b :: a :: xs, .swap b a xs, by rw [List.map_cons, List.map_cons, ha, hb, hxs]⟩
  | trans _ _ ih₁ ih₂ =>
    intro xs hxs
    obtain ⟨mid, hmid, hmap⟩ := ih₁ xs hxs
    obtain ⟨rows, hrows, hmap⟩ := ih₂ mid hmap
    exact ⟨rows, hmid.trans hrows, hmap⟩

theorem Reordered.content_perm {windows : ReportWindows} (hadmitted : Admitted p windows)
    (hkeyed : MatchesKeyed p) (h : Reordered p q) :
    (p.records.map content).Perm (q.records.map content) := by
  obtain ⟨rows, hperm, hsame⟩ := h.records
  have hmap : rows.map content = q.records.map content := by
    have hmem : ∀ row ∈ rows, row ∈ p.records := fun row hrow => hperm.mem_iff.mpr hrow
    clear hperm
    generalize q.records = others at hsame
    induction hsame with
    | nil => rfl
    | @cons row other rows others hrow _ ih =>
      obtain ⟨hhead, htail⟩ := List.forall_mem_cons.mp hmem
      rw [List.map_cons, List.map_cons, ih htail,
        hrow.content_eq (hadmitted.governed row hhead) (hkeyed row hhead)]
  rw [← hmap]
  exact hperm.map content

theorem orderedRecords_content {windows : ReportWindows} (hadmitted : Admitted p windows)
    (h : (p.records.map content).Perm (q.records.map content)) (role : ReportRole) :
    (orderedRecords role p.records).map content = (orderedRecords role q.records).map content := by
  have hordered : ∀ records : List ReportRecord, (orderedRecords role records).map content =
      sortBy recordSortKey ((records.map content).filter fun record => record.role = role) := by
    intro records
    have hsorted : sortBy recordSortKey ((records.filter fun record => record.role = role).map content) =
        (orderedRecords role records).map content := sortBy_map fun _ _ _ _ => Iff.rfl
    rw [← hsorted, List.filter_map]
    rfl
  rw [hordered, hordered]
  refine sortBy_eq_of_perm (h.filter _) fun a ha b hb hkey => ?_
  obtain ⟨ha, harole⟩ := List.mem_filter.mp ha
  obtain ⟨hb, hbrole⟩ := List.mem_filter.mp hb
  obtain ⟨hid, _⟩ := toLex_pair_inj.mp hkey
  have hidentity : ReportInputManifest.identity a = ReportInputManifest.identity b :=
    Prod.ext ((of_decide_eq_true harole).trans (of_decide_eq_true hbrole).symm) hid
  have hnodup : ((p.records.map content).map ReportInputManifest.identity).Nodup := by
    rw [List.map_map]
    exact hadmitted.identities
  exact List.inj_on_of_nodup_map hnodup ha hb hidentity

theorem mapM_zipIdx_content {mappings : MappingKey → Option CategoryMappingSnapshot}
    (xs ys : List ReportRecord) (n : ℕ) (h : xs.map content = ys.map content) :
    (xs.zipIdx n).mapM (fun (record, ordinal) => normalizeRecord record ordinal mappings) =
      (ys.zipIdx n).mapM (fun (record, ordinal) => normalizeRecord record ordinal mappings) := by
  induction xs generalizing ys n with
  | nil =>
    cases ys with
    | nil => rfl
    | cons y ys => exact absurd h (by simp)
  | cons x xs ih =>
    cases ys with
    | nil => exact absurd h (by simp)
    | cons y ys =>
      obtain ⟨hhead, htail⟩ := List.cons.inj h
      have hrecord : normalizeRecord x n mappings = normalizeRecord y n mappings := by
        rw [← normalizeRecord_eq_content x, hhead, normalizeRecord_eq_content y]
      rw [List.zipIdx_cons, List.zipIdx_cons, List.mapM_cons, List.mapM_cons, ih ys (n + 1) htail]
      change (normalizeRecord x n mappings >>= _) = (normalizeRecord y n mappings >>= _)
      rw [hrecord]

theorem Reordered.normalize_eq {windows : ReportWindows} (hadmitted : Admitted p windows)
    (hkeyed : MatchesKeyed p) (h : Reordered p q) {normalized : ReportInputManifest}
    (hnormalized : normalizeManifest p = .ok normalized) : normalizeManifest q = .ok normalized := by
  have hmappings : mappingByKey p.categoryMappings = mappingByKey q.categoryMappings :=
    mappingByKey_perm h.mappings hadmitted.mappings
  have hrole : ∀ role, normalizeRole p role = normalizeRole q role := by
    intro role
    rw [normalizeRole, normalizeRole, hmappings]
    exact mapM_zipIdx_content _ _ 0 (orderedRecords_content hadmitted
      (h.content_perm hadmitted hkeyed) role)
  have hrules := sortBy_eq_of_perm h.ruleSets fun _ _ _ _ hkey => ruleSetSortKey_injective hkey
  have hversions := sortBy_eq_of_perm h.analysisVersions fun _ _ _ _ hkey =>
    analysisVersionSortKey_injective hkey
  have hsorted := sortBy_eq_of_perm h.mappings fun a ha b hb hkey =>
    List.inj_on_of_nodup_map hadmitted.mappings ha hb (mappingSortKey_key hkey)
  have hcoverage := sortBy_eq_of_perm h.coverage fun a ha b hb hkey =>
    List.inj_on_of_nodup_map hadmitted.coverage ha hb (coverageSortKey_key hkey)
  have hassemble : ∀ windows primary comparison,
      assemble p windows primary comparison = assemble q windows primary comparison := by
    intro windows primary comparison
    rw [← h.rest]
    simp only [assemble, hrules, hversions, hsorted, hcoverage]
  have hdate : p.reportDateSeoul = q.reportDateSeoul := by rw [← h.rest]
  obtain ⟨found, primary, comparison, hparts⟩ := normalizeManifest_iff.mp hnormalized
  exact normalizeManifest_iff.mpr ⟨found, primary, comparison, hdate ▸ hparts.ofDate,
    (hrole .primary).symm.trans hparts.ofPrimary, (hrole .comparison).symm.trans hparts.ofComparison,
    hparts.result.trans (hassemble found primary comparison)⟩

theorem bags_normalized {normalized : ReportInputManifest} (f : Text → Text)
    (h : normalizeManifest p = .ok normalized) :
    ((normalized.mapText f).records.map bag).Perm ((p.mapText f).records.map bag) := by
  have hbags : ∀ payload : ReportInputManifest, (payload.mapText f).records.map bag =
      (payload.records.map content).map fun record =>
        Prod.map (ReportRecord.mapText f) (Prod.map (Multiset.map (RuleMatchSnapshot.mapText f))
          (Multiset.map (TopicMatchSnapshot.mapText f))) (bag record) := by
    intro payload
    rw [ReportInputManifest.mapText, List.map_map, List.map_map]
    refine List.map_congr_left fun record _ => ?_
    rw [Function.comp_apply, Function.comp_apply, bag_content, bag_mapText]
  rw [hbags, hbags]
  exact (normalizeManifest_content h).map _

/-- Inputs whose normalized forms have the same texts differ in the order of arrays only. -/
theorem reordered_of_mapText_eq {f : Text → Text} {m n : ReportInputManifest}
    (hp : normalizeManifest p = .ok m) (hq : normalizeManifest q = .ok n)
    (h : m.mapText f = n.mapText f) : Reordered (p.mapText f) (q.mapText f) := by
  have hbags : ((p.mapText f).records.map bag).Perm ((q.mapText f).records.map bag) := by
    refine (bags_normalized f hp).symm.trans ?_
    rw [h]
    exact bags_normalized f hq
  obtain ⟨_, _, _, hpparts⟩ := normalizeManifest_iff.mp hp
  obtain ⟨_, _, _, hqparts⟩ := normalizeManifest_iff.mp hq
  rw [hpparts.result, hqparts.result] at h
  simp only [assemble, ReportInputManifest.mapText, GoverningDefinitions.mapText,
    ReportInputManifest.mk.injEq, GoverningDefinitions.mk.injEq] at h
  obtain ⟨hdate, _, hscope, ⟨hformula, hformulaHash, hmetric, hmetricHash, hcategory, hcategoryHash,
    hrules, hversions⟩, hmappings, _, hcoverage⟩ := h
  refine ⟨?_, ?_, ?_, ?_, ?_, ?_⟩
  · refine ((sortBy_perm ruleSetSortKey p.definitions.ruleSets).map _).symm.trans ?_
    rw [hrules]
    exact (sortBy_perm _ _).map _
  · refine ((sortBy_perm analysisVersionSortKey p.definitions.analysisVersions).map _).symm.trans ?_
    rw [hversions]
    exact (sortBy_perm _ _).map _
  · refine ((sortBy_perm mappingSortKey p.categoryMappings).map _).symm.trans ?_
    rw [hmappings]
    exact (sortBy_perm _ _).map _
  · obtain ⟨rows, hperm, hmap⟩ := exists_perm_of_map_perm hbags (p.mapText f).records rfl
    exact ⟨rows, hperm, sameRecords_of_bag hmap⟩
  · refine ((sortBy_perm coverageSortKey p.sourceCoverage).map _).symm.trans ?_
    rw [hcoverage]
    exact (sortBy_perm _ _).map _
  · simp only [ReportInputManifest.mapText, GoverningDefinitions.mapText, hdate, hscope, hformula,
      hformulaHash, hmetric, hmetricHash, hcategory, hcategoryHash]

theorem mapText_eq_of_canonicalBytes {nf : NormalForm} {m n : ReportInputManifest}
    (h : CanonicalJson.canonicalBytes nf m.json = CanonicalJson.canonicalBytes nf n.json) :
    m.mapText nf = n.mapText nf := by
  rw [canonicalBytes_inj, ReportInputManifest.normalize_json, ReportInputManifest.normalize_json] at h
  exact manifest_json_injective h

/-- What two builds say about their inputs: reordered inputs have one build and one report,
    and the same bytes come from inputs that are reordered up to the normal form. -/
theorem builds_of_reordered (nf : NormalForm) (gzip : Gzip)
    (hp : p.validateWindowsAndRecords = .ok ()) (hq : q.validateWindowsAndRecords = .ok ()) :
    ∃ b c, buildManifest nf gzip p = .ok b ∧ buildManifest nf gzip q = .ok c ∧
      (MatchesKeyed p → Reordered p q → b = c ∧ projectReport nf gzip p = projectReport nf gzip q) ∧
      (b.canonicalBytes = c.canonicalBytes → Reordered (p.mapText nf) (q.mapText nf)) := by
  obtain ⟨m, hm⟩ := normalizeManifest_ok hp
  obtain ⟨n, hn⟩ := normalizeManifest_ok hq
  obtain ⟨windows, hadmitted⟩ := admitted_iff.mp hp
  have hb : buildManifest nf gzip p = .ok (envelopeOf nf gzip m) := buildManifest_iff.mpr ⟨m, hm, rfl⟩
  have hc : buildManifest nf gzip q = .ok (envelopeOf nf gzip n) := buildManifest_iff.mpr ⟨n, hn, rfl⟩
  refine ⟨_, _, hb, hc, fun hkeyed h => ?_, fun h => ?_⟩
  · obtain rfl : m = n := Except.ok.inj ((h.normalize_eq hadmitted hkeyed hm).symm.trans hn)
    exact ⟨rfl, by rw [projectReport, projectReport, hb, hc]⟩
  · exact reordered_of_mapText_eq hm hn (mapText_eq_of_canonicalBytes h)

/-- An input is identified by its content: two admitted inputs have the same
    canonical bytes exactly when they differ in the order of their arrays only, and
    then they have the same report. -/
theorem identity_iff_reordered (nf : NormalForm) (gzip : Gzip)
    (hp : p.validateWindowsAndRecords = .ok ()) (hq : q.validateWindowsAndRecords = .ok ())
    (hdistinct : MatchesDistinct p) (hptext : p.mapText nf = p) (hqtext : q.mapText nf = q) :
    ∃ b c, buildManifest nf gzip p = .ok b ∧ buildManifest nf gzip q = .ok c ∧
      (b.canonicalBytes = c.canonicalBytes ↔ Reordered p q) ∧
      (Reordered p q → b = c ∧ projectReport nf gzip p = projectReport nf gzip q) := by
  obtain ⟨b, c, hb, hc, hsame, hbytes⟩ := builds_of_reordered nf gzip hp hq
  rw [hptext, hqtext] at hbytes
  refine ⟨b, c, hb, hc, ⟨hbytes, fun h => ?_⟩, hsame hdistinct.keyed⟩
  rw [(hsame hdistinct.keyed h).1]

/-- Reordered inputs have the same identity and report when no two rule matches of a record
    tie in their sort key, and the same bytes come from reordered inputs only. -/
theorem identity_free_of_order (nf : NormalForm) (gzip : Gzip)
    (hp : p.validateWindowsAndRecords = .ok ()) (hq : q.validateWindowsAndRecords = .ok ()) :
    ∃ b c, buildManifest nf gzip p = .ok b ∧ buildManifest nf gzip q = .ok c ∧
      (MatchesKeyed p → Reordered p q → b = c ∧ projectReport nf gzip p = projectReport nf gzip q) ∧
      (b.canonicalBytes = c.canonicalBytes → Reordered (p.mapText nf) (q.mapText nf)) :=
  builds_of_reordered nf gzip hp hq

end Identity

section Sample

def sampleReversed : ReportInputManifest :=
  { sampleInput with records := sampleInput.records.reverse }

theorem sampleReversed_valid : sampleReversed.validateWindowsAndRecords = .ok () := by decide +kernel

theorem identity_iff_reordered_sample : ∃ b c,
    buildManifest sampleForm sampleGzip sampleInput = .ok b ∧
      buildManifest sampleForm sampleGzip sampleReversed = .ok c ∧
      (b.canonicalBytes = c.canonicalBytes ↔ Reordered sampleInput sampleReversed) :=
  (identity_iff_reordered sampleForm sampleGzip sampleInput_valid sampleReversed_valid (by decide)
    rfl rfl).imp fun _ h => h.imp fun _ h => ⟨h.1, h.2.1, h.2.2.1⟩

theorem sampleReversed_reordered : Reordered sampleInput sampleReversed where
  ruleSets := .refl _
  analysisVersions := .refl _
  mappings := .refl _
  records := ⟨_, (List.reverse_perm _).symm, .cons ⟨.refl _, .refl _, rfl⟩
    (.cons ⟨.refl _, .refl _, rfl⟩ .nil)⟩
  coverage := .refl _
  rest := rfl

theorem identity_free_of_order_sample : ∃ b,
    buildManifest sampleForm sampleGzip sampleInput = .ok b ∧
      buildManifest sampleForm sampleGzip sampleReversed = .ok b := by
  obtain ⟨b, c, hb, hc, hsame, _⟩ := identity_free_of_order sampleForm sampleGzip sampleInput_valid
    sampleReversed_valid
  obtain rfl := (hsame (by decide) sampleReversed_reordered).1
  exact ⟨b, hb, hc⟩

def sampleMatch (matchHash : Digest) : RuleMatchSnapshot where
  matchId := 1
  matchHash := matchHash
  ruleId := "rule-1".toList
  ruleSetId := "rules".toList
  ruleSetVersion := "1".toList
  normalizedPhrase := "rate".toList
  matchPresent := true
  mappedCategory := "economy".toList

def tiedInput (ruleMatches : List RuleMatchSnapshot) : ReportInputManifest :=
  { sampleManifest [{ sampleRecord 0 1 sampleAnalysis [] with ruleMatches := ruleMatches }] with
    definitions := { (sampleManifest []).definitions with
      ruleSets := [⟨"rules".toList, "1".toList, sampleDigest⟩] }
    categoryMappings := [⟨.rule, "rule-1".toList, "1".toList, "rate".toList, "economy".toList⟩] }

def tiedMatches : List RuleMatchSnapshot := [sampleMatch 2, sampleMatch 3]

theorem tiedInput_evaluates :
    (tiedInput tiedMatches).validateWindowsAndRecords = .ok () ∧
    (tiedInput tiedMatches.reverse).validateWindowsAndRecords = .ok () ∧
    (normalizeManifest (tiedInput tiedMatches)).toOption.map
        (fun m => m.records.map ReportRecord.ruleMatches) ≠
      (normalizeManifest (tiedInput tiedMatches.reverse)).toOption.map
        (fun m => m.records.map ReportRecord.ruleMatches) := by
  decide +kernel

/-- Two matches of one record with one phrase, version and identifier keep their order. -/
theorem tied_matches_keep_order :
    (tiedInput tiedMatches).validateWindowsAndRecords = .ok () ∧
    (tiedInput tiedMatches.reverse).validateWindowsAndRecords = .ok () ∧
    Reordered (tiedInput tiedMatches) (tiedInput tiedMatches.reverse) ∧
    ∀ b c, buildManifest sampleForm sampleGzip (tiedInput tiedMatches) = .ok b →
      buildManifest sampleForm sampleGzip (tiedInput tiedMatches.reverse) = .ok c →
      b.canonicalBytes ≠ c.canonicalBytes := by
  obtain ⟨hp, hq, hmatches⟩ := tiedInput_evaluates
  have hrecord : SameRecord { sampleRecord 0 1 sampleAnalysis [] with ruleMatches := tiedMatches }
      { sampleRecord 0 1 sampleAnalysis [] with ruleMatches := tiedMatches.reverse } :=
    ⟨(List.reverse_perm _).symm, .refl _, rfl⟩
  refine ⟨hp, hq, ⟨.refl _, .refl _, .refl _, ⟨_, .refl _, .cons hrecord .nil⟩, .refl _, rfl⟩, ?_⟩
  intro b c hb hc hbytes
  obtain ⟨m, hm, rfl⟩ := buildManifest_iff.mp hb
  obtain ⟨n, hn, rfl⟩ := buildManifest_iff.mp hc
  have hsame := mapText_eq_of_canonicalBytes hbytes
  rw [normalizeManifest_inForm hm rfl, normalizeManifest_inForm hn rfl] at hsame
  rw [hm, hn, hsame] at hmatches
  exact hmatches rfl

end Sample

end PredictionMarketMonitor.ReportIdentity
