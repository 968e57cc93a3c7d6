import PredictionMarketMonitor.ReportFormula

set_option autoImplicit false

/-!
# Rankings and their documented orders

Each ranking is the first part of one total order over everything that could be
ranked, whatever order the records come in.
-/
namespace PredictionMarketMonitor.RankingOrder

open CanonicalJson CollectionBase FallibleSteps KeySorting ReportFormula ReportInputs ReportManifest

def matchingRecords (records : List ReportRecord) (phrase : Text) : ℕ :=
  records.countP fun record =>
    ∃ item ∈ record.ruleMatches, item.matchPresent = true ∧ item.normalizedPhrase = phrase

/-- `(P - Q) / Q`, null when `Q` is zero. -/
def growthRate (primaryCount comparisonCount : ℕ) : Option ℚ :=
  if comparisonCount = 0 then none
  else some (((primaryCount : ℚ) - comparisonCount) / comparisonCount)

def descendingNullLast : Option ℚ → WithTop ℚ
  | some rate => ((-rate : ℚ) : WithTop ℚ)
  | none => ⊤

/-- Growth rate descending with null last, then count descending, then phrase ascending. -/
def phraseOrder (primary comparison : List ReportRecord) (phrase : Text) :
    WithTop ℚ ×ₗ ℤ ×ₗ Text :=
  toLex (descendingNullLast (growthRate (matchingRecords primary phrase)
      (matchingRecords comparison phrase)),
    toLex (-(matchingRecords primary phrase : ℤ), phrase))

def categoryOccurrences (records : List ReportRecord) (category : Text) : ℕ :=
  (records.map fun record => record.effectiveCategories.count category).sum

def ofSentiment (records : List ReportRecord) (sentiment : Sentiment) : List ReportRecord :=
  records.filter fun record => record.analysis.sentiment = some sentiment

/-- How much more often the positive records list a category than the negative ones. -/
def categorySentiment (records : List ReportRecord) (category : Text) : ℤ :=
  (categoryOccurrences (ofSentiment records .positive) category : ℤ) -
    categoryOccurrences (ofSentiment records .negative) category

/-- Count descending, then net sentiment descending, then category ascending. -/
def categoryOrder (primary : List ReportRecord) (category : Text) : ℤ ×ₗ ℤ ×ₗ Text :=
  toLex (-(categoryOccurrences primary category : ℤ),
    toLex (-categorySentiment primary category, category))

/-- The rows of a phrase ranking: the first ten of the phrases that three records match. -/
structure RanksPhrases (primary comparison : List ReportRecord) (rows : List RisingKeyword) :
    Prop where
  ranked : ∀ candidates : List Text, candidates.Nodup →
    (∀ phrase, phrase ∈ candidates ↔ 3 ≤ matchingRecords primary phrase) →
      rows.map RisingKeyword.phrase =
        (sortBy (phraseOrder primary comparison) candidates).take 10
  counted : ∀ row ∈ rows, row.primaryCount.val = matchingRecords primary row.phrase ∧
    row.comparisonCount.val = matchingRecords comparison row.phrase ∧
    row.delta = (matchingRecords primary row.phrase : ℤ) - matchingRecords comparison row.phrase

/-- The rows of a highlight ranking: the first five of the categories of the records. -/
structure RanksCategories (primary comparison : List ReportRecord) (rows : List Highlight) :
    Prop where
  ranked : ∀ candidates : List Text, candidates.Nodup →
    (∀ category, category ∈ candidates ↔ ∃ record ∈ primary, category ∈ record.effectiveCategories) →
      rows.map Highlight.category = (sortBy (categoryOrder primary) candidates).take 5
  counted : ∀ row ∈ rows, row.primaryCount.val = categoryOccurrences primary row.category ∧
    row.comparisonCount.val = categoryOccurrences comparison row.category ∧
    row.netSentiment = categorySentiment primary row.category

section Counting
variable {records : List ReportRecord} {phrase : Text}

theorem mem_presentPhrases {record : ReportRecord} : phrase ∈ presentPhrases record ↔
    ∃ item ∈ record.ruleMatches, item.matchPresent = true ∧ item.normalizedPhrase = phrase := by
  rw [presentPhrases, List.mem_dedup, List.mem_map]
  constructor
  · rintro ⟨item, hitem, rfl⟩
    obtain ⟨hitem, hpresent⟩ := List.mem_filter.mp hitem
    exact ⟨item, hitem, hpresent, rfl⟩
  · rintro ⟨item, hitem, hpresent, rfl⟩
    exact ⟨item, List.mem_filter.mpr ⟨hitem, hpresent⟩, rfl⟩

theorem count_phraseCounts : (phraseCounts records).count phrase = matchingRecords records phrase := by
  induction records with
  | nil => rfl
  | cons record records ih =>
    have hcons : phraseCounts (record :: records) = presentPhrases record ++ phraseCounts records :=
      rfl
    have hnodup : (presentPhrases record).Nodup := List.nodup_dedup _
    rw [hcons, List.count_append, ih, matchingRecords, matchingRecords, List.countP_cons]
    by_cases hmem : phrase ∈ presentPhrases record
    · rw [List.count_eq_one_of_mem hnodup hmem,
        if_pos (decide_eq_true (mem_presentPhrases.mp hmem))]
      omega
    · have hnone : ¬∃ item ∈ record.ruleMatches,
          item.matchPresent = true ∧ item.normalizedPhrase = phrase :=
        fun h => hmem (mem_presentPhrases.mpr h)
      rw [List.count_eq_zero_of_not_mem hmem, if_neg (by simpa using hnone)]
      omega

theorem matchingRecords_le : matchingRecords records phrase ≤ records.length := List.countP_le_length

theorem count_categoryCounts (category : Text) :
    (categoryCounts records).count category = categoryOccurrences records category := by
  rw [categoryCounts, List.count_flatMap, categoryOccurrences]
  rfl

theorem netSentiment_eq (category : Text) :
    netSentiment records category = categorySentiment records category := by
  induction records with
  | nil => rfl
  | cons record records ih =>
    have hhead : netSentiment (record :: records) category =
        sentimentWeight record.analysis.sentiment * record.effectiveCategories.count category +
          netSentiment records category := rfl
    rw [hhead, ih]
    simp only [categorySentiment, ofSentiment, List.filter_cons]
    cases hvalue : record.analysis.sentiment with
    | none => simp [sentimentWeight]
    | some sentiment =>
      cases sentiment with
      | positive => simp [sentimentWeight, categoryOccurrences]; omega
      | neutral => simp [sentimentWeight]
      | negative => simp [sentimentWeight, categoryOccurrences]; omega

theorem mem_eligiblePhrases : phrase ∈ eligiblePhrases records ↔ 3 ≤ matchingRecords records phrase := by
  have hmin : FormulaConstants.risingKeywordMinPrimaryCount = 3 := rfl
  rw [eligiblePhrases, List.mem_filter, decide_eq_true_eq, count_phraseCounts, List.mem_dedup, hmin,
    and_iff_right_iff_imp, ← count_phraseCounts]
  intro hcount
  exact List.count_pos_iff.mp (by omega)

theorem eligiblePhrases_nodup : (eligiblePhrases records).Nodup := (List.nodup_dedup _).filter _

end Counting

section Names
variable {primary comparison : List ReportRecord}

theorem phraseOrder_injective {phrase other : Text}
    (h : phraseOrder primary comparison phrase = phraseOrder primary comparison other) :
    phrase = other :=
  congrArg (fun key => (ofLex (ofLex key).2).2) h

theorem categoryOrder_injective {category other : Text}
    (h : categoryOrder primary category = categoryOrder primary other) : category = other :=
  congrArg (fun key => (ofLex (ofLex key).2).2) h

theorem toLex_coe_le {x y : ℚ} {u v : ℤ ×ₗ Text} :
    (toLex ((x : WithTop ℚ), u) : WithTop ℚ ×ₗ ℤ ×ₗ Text) ≤ toLex ((y : WithTop ℚ), v) ↔
      (toLex (x, u) : ℚ ×ₗ ℤ ×ₗ Text) ≤ toLex (y, v) := by
  rw [Prod.Lex.toLex_le_toLex, Prod.Lex.toLex_le_toLex, WithTop.coe_lt_coe, WithTop.coe_inj]

theorem toLex_top_le {u v : ℤ ×ₗ Text} :
    (toLex (⊤, u) : WithTop ℚ ×ₗ ℤ ×ₗ Text) ≤ toLex (⊤, v) ↔ u ≤ v := by
  rw [Prod.Lex.toLex_le_toLex]
  simp

theorem ratedKey_le {phrase other : Text} (hphrase : 0 < matchingRecords comparison phrase)
    (hother : 0 < matchingRecords comparison other) :
    ratedKey primary comparison phrase ≤ ratedKey primary comparison other ↔
      phraseOrder primary comparison phrase ≤ phraseOrder primary comparison other := by
  have hkey : ∀ p : Text, 0 < matchingRecords comparison p →
      descendingNullLast (growthRate (matchingRecords primary p) (matchingRecords comparison p)) =
        (((-((delta (matchingRecords primary p) (matchingRecords comparison p) : ℚ) /
          matchingRecords comparison p)) : ℚ) : WithTop ℚ) := by
    intro p hp
    rw [growthRate, if_neg (Nat.ne_of_gt hp), descendingNullLast, delta]
    push_cast
    rfl
  simp only [ratedKey, phraseOrder, count_phraseCounts]
  rw [hkey phrase hphrase, hkey other hother]
  exact toLex_coe_le.symm

theorem unratedKey_le {phrase other : Text} (hphrase : matchingRecords comparison phrase = 0)
    (hother : matchingRecords comparison other = 0) :
    unratedKey primary phrase ≤ unratedKey primary other ↔
      phraseOrder primary comparison phrase ≤ phraseOrder primary comparison other := by
  simp only [unratedKey, phraseOrder, count_phraseCounts, growthRate, hphrase, hother, if_true,
    descendingNullLast]
  exact toLex_top_le.symm

theorem rated_before_unrated {phrase other : Text} (hphrase : 0 < matchingRecords comparison phrase)
    (hother : matchingRecords comparison other = 0) :
    phraseOrder primary comparison phrase ≤ phraseOrder primary comparison other := by
  refine Prod.Lex.toLex_le_toLex.mpr (.inl ?_)
  rw [growthRate, growthRate, if_neg (Nat.ne_of_gt hphrase), if_pos hother]
  exact WithTop.coe_lt_top _

theorem leadingPhrases_eq {candidates : List Text} (hnodup : candidates.Nodup)
    (hcandidates : ∀ phrase, phrase ∈ candidates ↔ 3 ≤ matchingRecords primary phrase) :
    leadingPhrases primary comparison =
      (sortBy (phraseOrder primary comparison) candidates).take 10 := by
  have hperm : (eligiblePhrases primary).Perm candidates :=
    (List.perm_ext_iff_of_nodup eligiblePhrases_nodup hnodup).mpr fun phrase => by
      rw [mem_eligiblePhrases, hcandidates]
  have hinjective : ∀ phrase ∈ eligiblePhrases primary, ∀ other ∈ eligiblePhrases primary,
      phraseOrder primary comparison phrase = phraseOrder primary comparison other →
        phrase = other := fun _ _ _ _ h => phraseOrder_injective h
  have hrated : sortBy (ratedKey primary comparison) ((eligiblePhrases primary).filter fun phrase =>
        0 < (phraseCounts comparison).count phrase) =
      sortBy (phraseOrder primary comparison) ((eligiblePhrases primary).filter fun phrase =>
        0 < (phraseCounts comparison).count phrase) := by
    refine sortBy_congr fun phrase hphrase other hother => ?_
    have hcount := (List.mem_filter.mp hphrase).2
    have hothers := (List.mem_filter.mp hother).2
    rw [decide_eq_true_eq, count_phraseCounts] at hcount hothers
    exact (ratedKey_le hcount hothers).symm
  have hunrated : sortBy (unratedKey primary) ((eligiblePhrases primary).filter fun phrase =>
        (phraseCounts comparison).count phrase = 0) =
      sortBy (phraseOrder primary comparison) ((eligiblePhrases primary).filter fun phrase =>
        !decide (0 < (phraseCounts comparison).count phrase)) := by
    have hsame : ((eligiblePhrases primary).filter fun phrase =>
          (phraseCounts comparison).count phrase = 0) =
        (eligiblePhrases primary).filter fun phrase =>
          !decide (0 < (phraseCounts comparison).count phrase) := by
      refine List.filter_congr fun phrase _ => ?_
      rw [← decide_not, decide_eq_decide]
      omega
    rw [hsame]
    refine sortBy_congr fun phrase hphrase other hother => ?_
    have hcount := (List.mem_filter.mp hphrase).2
    have hothers := (List.mem_filter.mp hother).2
    rw [← decide_not, decide_eq_true_eq, count_phraseCounts] at hcount hothers
    exact (unratedKey_le (Nat.eq_zero_of_not_pos hcount) (Nat.eq_zero_of_not_pos hothers)).symm
  have hlimit : FormulaConstants.risingKeywordLimit = 10 := rfl
  rw [leadingPhrases, hlimit, hrated, hunrated, sortBy_filter_append _ hinjective,
    sortBy_eq_of_perm hperm hinjective]
  intro phrase _ other _ hphrase hother
  rw [decide_eq_true_eq, count_phraseCounts] at hphrase
  rw [decide_eq_false_iff_not, count_phraseCounts] at hother
  exact rated_before_unrated hphrase (Nat.eq_zero_of_not_pos hother)

theorem mem_categoryCounts {category : Text} : category ∈ categoryCounts primary ↔
    ∃ record ∈ primary, category ∈ record.effectiveCategories := List.mem_flatMap

theorem leadingCategories_eq {candidates : List Text} (hnodup : candidates.Nodup)
    (hcandidates : ∀ category, category ∈ candidates ↔
      ∃ record ∈ primary, category ∈ record.effectiveCategories) :
    leadingCategories primary = (sortBy (categoryOrder primary) candidates).take 5 := by
  have hperm : (categoryCounts primary).dedup.Perm candidates :=
    (List.perm_ext_iff_of_nodup (List.nodup_dedup _) hnodup).mpr fun category => by
      rw [List.mem_dedup, mem_categoryCounts, hcandidates]
  have hkey : highlightKey primary = categoryOrder primary := by
    funext category
    rw [highlightKey, categoryOrder, count_categoryCounts, netSentiment_eq]
  have hlimit : FormulaConstants.highlightLimit = 5 := rfl
  rw [leadingCategories, hlimit, hkey,
    sortBy_eq_of_perm hperm fun _ _ _ _ h => categoryOrder_injective h]

end Names

section Rows
variable {primary comparison : List ReportRecord}

theorem safeCount_eq_ok {n : ℕ} {count : SafeCount} : safeCount n = .ok count ↔ count.val = n := by
  constructor
  · intro h
    by_cases hn : n < 2 ^ 53
    · rw [safeCount, dif_pos hn] at h
      rw [← Except.ok.inj h]
    · rw [safeCount, dif_neg hn] at h
      cases h
  · rintro rfl
    rw [safeCount, dif_pos count.lt_bound]

theorem safeCount_of {n : ℕ} (h : n < 2 ^ 53) : ∃ count : SafeCount, safeCount n = .ok count :=
  ⟨⟨n, h⟩, safeCount_eq_ok.mpr rfl⟩

theorem risingKeyword_row {phrase : Text} {row : RisingKeyword}
    (h : risingKeyword primary comparison phrase = .ok row) :
    row.phrase = phrase ∧ row.primaryCount.val = matchingRecords primary row.phrase ∧
      row.comparisonCount.val = matchingRecords comparison row.phrase ∧
      row.delta = (matchingRecords primary row.phrase : ℤ) - matchingRecords comparison row.phrase := by
  rw [risingKeyword, count_phraseCounts, count_phraseCounts] at h
  obtain ⟨checked, hprimary, h⟩ := bind_eq_ok.mp h
  obtain ⟨checkedComparison, hcomparison, h⟩ := bind_eq_ok.mp h
  have hrow := Except.ok.inj h
  subst hrow
  exact ⟨rfl, safeCount_eq_ok.mp hprimary, safeCount_eq_ok.mp hcomparison, rfl⟩

theorem highlight_row {category : Text} {row : Highlight}
    (h : highlight primary comparison category = .ok row) :
    row.category = category ∧ row.primaryCount.val = categoryOccurrences primary row.category ∧
      row.comparisonCount.val = categoryOccurrences comparison row.category ∧
      row.netSentiment = categorySentiment primary row.category := by
  rw [highlight, count_categoryCounts, count_categoryCounts] at h
  obtain ⟨checked, hprimary, h⟩ := bind_eq_ok.mp h
  obtain ⟨checkedComparison, hcomparison, h⟩ := bind_eq_ok.mp h
  have hrow := Except.ok.inj h
  subst hrow
  exact ⟨rfl, safeCount_eq_ok.mp hprimary, safeCount_eq_ok.mp hcomparison, netSentiment_eq category⟩

theorem mapM_names {α : Type} {name : α → Text} {f : Text → Except ReportFailure α}
    (hname : ∀ text row, f text = .ok row → name row = text) {names : List Text} {rows : List α}
    (h : names.mapM f = .ok rows) : rows.map name = names := by
  induction mapM_forall₂.mp h with
  | nil => rfl
  | cons hrow _ ih => rw [List.map_cons, hname _ _ hrow, ih (mapM_forall₂.mpr ‹_›)]

theorem rankRisingKeywords_ranks {rows : List RisingKeyword}
    (h : rankRisingKeywords primary comparison = .ok rows) :
    RanksPhrases primary comparison rows where
  ranked candidates hnodup hcandidates := by
    rw [mapM_names (fun _ _ hrow => (risingKeyword_row hrow).1) h,
      leadingPhrases_eq hnodup hcandidates]
  counted row hrow := by
    obtain ⟨phrase, _, hphrase⟩ := forall₂_mem_right (mapM_forall₂.mp h) row hrow
    exact (risingKeyword_row hphrase).2

theorem rankHighlights_ranks {rows : List Highlight}
    (h : rankHighlights primary comparison = .ok rows) :
    RanksCategories primary comparison rows where
  ranked candidates hnodup hcandidates := by
    rw [mapM_names (fun _ _ hrow => (highlight_row hrow).1) h,
      leadingCategories_eq hnodup hcandidates]
  counted row hrow := by
    obtain ⟨category, _, hcategory⟩ := forall₂_mem_right (mapM_forall₂.mp h) row hrow
    exact (highlight_row hcategory).2

theorem rankRisingKeywords_ok (hprimary : primary.length < 2 ^ 53)
    (hcomparison : comparison.length < 2 ^ 53) :
    ∃ rows, rankRisingKeywords primary comparison = .ok rows := by
  refine mapM_ok_of_forall fun phrase _ => ?_
  obtain ⟨checked, hchecked⟩ := safeCount_of (lt_of_le_of_lt matchingRecords_le hprimary)
  obtain ⟨other, hother⟩ := safeCount_of (lt_of_le_of_lt matchingRecords_le hcomparison)
  rw [risingKeyword, count_phraseCounts, count_phraseCounts, hchecked, ok_bind, hother, ok_bind]
  exact ⟨_, rfl⟩

theorem rankHighlights_of (hprimary : ∀ category, (categoryCounts primary).count category < 2 ^ 53)
    (hcomparison : ∀ category, (categoryCounts comparison).count category < 2 ^ 53) :
    ∃ rows, rankHighlights primary comparison = .ok rows := by
  refine mapM_ok_of_forall fun category _ => ?_
  obtain ⟨checked, hchecked⟩ := safeCount_of (hprimary category)
  obtain ⟨other, hother⟩ := safeCount_of (hcomparison category)
  rw [highlight, hchecked, ok_bind, hother, ok_bind]
  exact ⟨_, rfl⟩

theorem rankHighlights_ok (hprimary : (categoryCounts primary).length < 2 ^ 53)
    (hcomparison : (categoryCounts comparison).length < 2 ^ 53) :
    ∃ rows, rankHighlights primary comparison = .ok rows :=
  rankHighlights_of (fun _ => lt_of_le_of_lt List.count_le_length hprimary)
    (fun _ => lt_of_le_of_lt List.count_le_length hcomparison)

end Rows

section Permuted
variable {primary comparison primary' comparison' : List ReportRecord}

theorem matchingRecords_perm (h : primary.Perm primary') :
    matchingRecords primary = matchingRecords primary' := by
  funext phrase
  exact h.countP_eq _

theorem categoryOccurrences_perm (h : primary.Perm primary') :
    categoryOccurrences primary = categoryOccurrences primary' := by
  funext category
  exact (h.map _).sum_eq

theorem categorySentiment_perm (h : primary.Perm primary') :
    categorySentiment primary = categorySentiment primary' := by
  funext category
  rw [categorySentiment, categorySentiment, ofSentiment, ofSentiment,
    categoryOccurrences_perm (h.filter _), categoryOccurrences_perm (h.filter _)]
  rfl

theorem rankRisingKeywords_perm (h : primary.Perm primary') (hcomparison : comparison.Perm comparison') :
    rankRisingKeywords primary comparison = rankRisingKeywords primary' comparison' := by
  have hcounts := matchingRecords_perm h
  have hcomparisons := matchingRecords_perm hcomparison
  have hcandidates : ∀ phrase, phrase ∈ eligiblePhrases primary ↔
      3 ≤ matchingRecords primary' phrase := by
    intro phrase
    rw [mem_eligiblePhrases, hcounts]
  have horder : phraseOrder primary comparison = phraseOrder primary' comparison' := by
    funext phrase
    rw [phraseOrder, phraseOrder, hcounts, hcomparisons]
  have hleading : leadingPhrases primary comparison = leadingPhrases primary' comparison' := by
    rw [leadingPhrases_eq eligiblePhrases_nodup (fun _ => mem_eligiblePhrases),
      leadingPhrases_eq eligiblePhrases_nodup hcandidates, horder]
  have hrow : risingKeyword primary comparison = risingKeyword primary' comparison' := by
    funext phrase
    simp only [risingKeyword, count_phraseCounts, hcounts, hcomparisons]
  rw [rankRisingKeywords, rankRisingKeywords, hleading, hrow]

theorem rankHighlights_perm (h : primary.Perm primary') (hcomparison : comparison.Perm comparison') :
    rankHighlights primary comparison = rankHighlights primary' comparison' := by
  have hcounts := categoryOccurrences_perm h
  have hcomparisons := categoryOccurrences_perm hcomparison
  have hsentiments := categorySentiment_perm h
  have hcandidates : ∀ category, category ∈ (categoryCounts primary).dedup ↔
      ∃ record ∈ primary', category ∈ record.effectiveCategories := by
    intro category
    rw [List.mem_dedup, mem_categoryCounts]
    exact exists_congr fun record => and_congr_left fun _ => h.mem_iff
  have horder : categoryOrder primary = categoryOrder primary' := by
    funext category
    rw [categoryOrder, categoryOrder, hcounts, hsentiments]
  have hleading : leadingCategories primary = leadingCategories primary' := by
    rw [leadingCategories_eq (List.nodup_dedup _)
        (fun _ => List.mem_dedup.trans mem_categoryCounts),
      leadingCategories_eq (List.nodup_dedup _) hcandidates, horder]
  have hrow : highlight primary comparison = highlight primary' comparison' := by
    funext category
    simp only [highlight, count_categoryCounts, netSentiment_eq, hcounts, hcomparisons, hsentiments]
  rw [rankHighlights, rankHighlights, hleading, hrow]

end Permuted

section Deduplicated
variable {records : List ReportRecord}

def sentimentRecords (records : List ReportRecord) (sentiment : Sentiment) (category : Text) : ℕ :=
  records.countP fun record =>
    record.analysis.sentiment = some sentiment ∧ category ∈ record.effectiveCategories

theorem categoryOccurrences_nodup (h : ∀ record ∈ records, record.effectiveCategories.Nodup)
    (category : Text) : categoryOccurrences records category =
      records.countP fun record => category ∈ record.effectiveCategories := by
  induction records with
  | nil => rfl
  | cons record records ih =>
    obtain ⟨hrecord, hrecords⟩ := List.forall_mem_cons.mp h
    have hhead : categoryOccurrences (record :: records) category =
        record.effectiveCategories.count category + categoryOccurrences records category := rfl
    rw [hhead, ih hrecords, List.countP_cons]
    by_cases hmem : category ∈ record.effectiveCategories
    · rw [List.count_eq_one_of_mem hrecord hmem]
      simp [hmem, Nat.add_comm]
    · rw [List.count_eq_zero_of_not_mem hmem]
      simp [hmem]

theorem sentimentRecords_eq (h : ∀ record ∈ records, record.effectiveCategories.Nodup)
    (sentiment : Sentiment) (category : Text) :
    categoryOccurrences (ofSentiment records sentiment) category =
      sentimentRecords records sentiment category := by
  have hofSentiment : ∀ record ∈ ofSentiment records sentiment, record.effectiveCategories.Nodup :=
    fun record hrecord => h record (List.mem_filter.mp hrecord).1
  rw [categoryOccurrences_nodup hofSentiment, ofSentiment, List.countP_filter, sentimentRecords]
  refine List.countP_congr fun record _ => ?_
  rw [Bool.and_eq_true, decide_eq_true_iff, decide_eq_true_iff, decide_eq_true_iff, and_comm]

/-- Over deduplicated categories the occurrences are the records, and the net sentiment is the
    positive ones less the negative ones. -/
theorem deduplicated_counts (h : ∀ record ∈ records, record.effectiveCategories.Nodup)
    (category : Text) :
    categoryOccurrences records category =
        records.countP (fun record => category ∈ record.effectiveCategories) ∧
      categorySentiment records category = (sentimentRecords records .positive category : ℤ) -
        sentimentRecords records .negative category :=
  ⟨categoryOccurrences_nodup h category, by
    rw [categorySentiment, sentimentRecords_eq h, sentimentRecords_eq h]⟩

end Deduplicated

section Results

/-- Both rankings are first parts of their documented orders over all that can be ranked; they
    exist while counts fit, and the records may come in any order. -/
theorem rankings_documented (primary comparison : List ReportRecord) :
    (∀ rows, rankRisingKeywords primary comparison = .ok rows →
        RanksPhrases primary comparison rows) ∧
      (∀ rows, rankHighlights primary comparison = .ok rows →
        RanksCategories primary comparison rows) ∧
      (primary.length < 2 ^ 53 → comparison.length < 2 ^ 53 →
        ∃ rows, rankRisingKeywords primary comparison = .ok rows) ∧
      ((categoryCounts primary).length < 2 ^ 53 → (categoryCounts comparison).length < 2 ^ 53 →
        ∃ rows, rankHighlights primary comparison = .ok rows) ∧
      (∀ primary' comparison' : List ReportRecord, primary.Perm primary' →
        comparison.Perm comparison' →
          rankRisingKeywords primary comparison = rankRisingKeywords primary' comparison' ∧
            rankHighlights primary comparison = rankHighlights primary' comparison') ∧
      ((∀ record ∈ primary, record.effectiveCategories.Nodup) → ∀ category,
        categoryOccurrences primary category =
            primary.countP (fun record => category ∈ record.effectiveCategories) ∧
          categorySentiment primary category = (sentimentRecords primary .positive category : ℤ) -
            sentimentRecords primary .negative category) :=
  ⟨fun _ => rankRisingKeywords_ranks, fun _ => rankHighlights_ranks, rankRisingKeywords_ok,
    rankHighlights_ok, fun _ _ h hcomparison =>
      ⟨rankRisingKeywords_perm h hcomparison, rankHighlights_perm h hcomparison⟩,
    deduplicated_counts⟩

end Results

end PredictionMarketMonitor.RankingOrder
