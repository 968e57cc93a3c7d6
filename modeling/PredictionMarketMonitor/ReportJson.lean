import PredictionMarketMonitor.CalendarText
import PredictionMarketMonitor.ReportFormula

set_option autoImplicit false

/-!
# Canonical text of report values

The canonical text of a report value is the text of its normal form, and a value
is determined by its JSON.
-/
namespace PredictionMarketMonitor.ReportJson

open CanonicalJson CivilTime CollectionBase ReportInputs ReportManifest ReportFormula Sha256
open VerificationSnapshots (Country)

section Scalars
variable (nf : NormalForm)

theorem isAscii_uuid (u : UUID) : IsAscii (UUID.str u) := by
  have hpart : ∀ s : Text, (∀ c ∈ s, c ∈ u.hex) → IsAscii s := fun s h =>
    isAscii_of_subset (isAscii_hexString u.toNat 32) h
  have hdash : ∀ s : Text, IsAscii s → IsAscii ('-' :: s) := fun s => isAscii_cons (by decide)
  have htaken : ∀ k l, ∀ c ∈ (u.hex.drop k).take l, c ∈ u.hex := fun k l c hc =>
    List.mem_of_mem_drop (List.mem_of_mem_take hc)
  exact isAscii_append (isAscii_append (isAscii_append (isAscii_append
    (hpart _ fun c hc => List.mem_of_mem_take hc) (hdash _ (hpart _ (htaken 8 4))))
    (hdash _ (hpart _ (htaken 12 4)))) (hdash _ (hpart _ (htaken 16 4))))
    (hdash _ (hpart _ fun c hc => List.mem_of_mem_drop hc))

theorem uuid_str_injective : Function.Injective UUID.str := by
  intro u v h
  have hlen : ∀ w : UUID, w.hex.length = 32 := fun w => hexString_length w.toNat 32
  have hu := hlen u
  have hv := hlen v
  simp only [UUID.str, List.append_assoc, List.cons_append] at h
  obtain ⟨h1, h⟩ := List.append_inj h (by simp [hu, hv])
  obtain ⟨h2, h⟩ := List.append_inj (List.cons.inj h).2 (by simp [hu, hv])
  obtain ⟨h3, h⟩ := List.append_inj (List.cons.inj h).2 (by simp [hu, hv])
  obtain ⟨h4, h⟩ := List.append_inj (List.cons.inj h).2 (by simp [hu, hv])
  have h5 := (List.cons.inj h).2
  have hjoin : ∀ w : UUID, w.hex = w.hex.take 8 ++ ((w.hex.drop 8).take 4 ++
      ((w.hex.drop 12).take 4 ++ ((w.hex.drop 16).take 4 ++ w.hex.drop 20))) := by
    intro w
    have hsplit : ∀ k l, w.hex.drop k = (w.hex.drop k).take l ++ w.hex.drop (k + l) := fun k l => by
      rw [← List.drop_drop, List.take_append_drop]
    rw [← hsplit 16 4, ← hsplit 12 4, ← hsplit 8 4, List.take_append_drop]
  have hhex : u.hex = v.hex := by rw [hjoin u, hjoin v, h1, h2, h3, h4, h5]
  have hmod := hexString_injective hhex
  rw [Nat.mod_eq_of_lt (by exact u.isLt), Nat.mod_eq_of_lt (by exact v.isLt)] at hmod
  exact BitVec.eq_of_toNat_eq hmod

@[simp] theorem uuid_json_inj {u v : UUID} : UUID.json u = UUID.json v ↔ u = v :=
  ⟨fun h => uuid_str_injective (Json.str.inj h), fun h => by rw [h]⟩

theorem normalize_uuid (u : UUID) : normalize nf (UUID.json u) = UUID.json u :=
  normalize_ascii nf (isAscii_uuid u)

theorem hexdigest_injective : Function.Injective Digest.hexdigest := by
  intro a b h
  have hmod := hexString_injective h
  rw [Nat.mod_eq_of_lt (by exact a.isLt), Nat.mod_eq_of_lt (by exact b.isLt)] at hmod
  exact BitVec.eq_of_toNat_eq hmod

@[simp] theorem digest_json_inj {a b : Digest} : Digest.json a = Digest.json b ↔ a = b :=
  ⟨fun h => hexdigest_injective (Json.str.inj h), fun h => by rw [h]⟩

theorem normalize_digest (d : Digest) : normalize nf (Digest.json d) = Digest.json d :=
  normalize_ascii nf (isAscii_hexString _ 64)

theorem date_eq_of_day {a b : Date} (h : a.day = b.day) : a = b := by
  cases a
  cases b
  simpa using h

theorem isoformat_eq (date : Date) : date.isoformat = formatDate (civilFromDays date.day) := rfl

theorem day_nonneg (date : Date) : -719468 ≤ date.day := by
  have h := date.inRange.1
  omega

theorem isoformat_injective : Function.Injective Date.isoformat := by
  intro a b h
  rw [isoformat_eq, isoformat_eq] at h
  have hcivil := formatDate_injective (civilFromDays_nonneg (day_nonneg a))
    (civilFromDays_nonneg (day_nonneg b)) h
  exact date_eq_of_day (civilFromDays_injective hcivil)

@[simp] theorem date_json_inj {a b : Date} : a.json = b.json ↔ a = b :=
  ⟨fun h => isoformat_injective (Json.str.inj h), fun h => by rw [h]⟩

theorem isAscii_isoformat (date : Date) : IsAscii date.isoformat := by
  rw [isoformat_eq]
  exact isAscii_formatDate _

theorem normalize_date (date : Date) : normalize nf date.json = date.json :=
  normalize_ascii nf (isAscii_isoformat date)

theorem instant_fromYearZero {t : ℤ} (h : -62135596800000000 ≤ t) :
    -719468 * 86400000000 ≤ t := by
  omega

@[simp] theorem timestamp_json_inj {a b : UtcTimestamp} : a.json = b.json ↔ a = b := by
  constructor
  · intro h
    have hinstant := formatMicroseconds_injective (instant_fromYearZero a.inRange.1)
      (instant_fromYearZero b.inRange.1) (Json.str.inj h)
    cases a
    cases b
    cases hinstant
    rfl
  · exact fun h => by rw [h]

theorem normalize_timestamp (t : UtcTimestamp) : normalize nf t.json = t.json :=
  normalize_ascii nf (isAscii_formatMicroseconds _)

@[simp] theorem ofNat_inj {m n : ℕ} : Json.ofNat m = Json.ofNat n ↔ m = n := by
  simp [Json.ofNat]

@[simp] theorem safeCount_json_inj {a b : SafeCount} : a.json = b.json ↔ a = b := by
  cases a
  cases b
  simp [SafeCount.json]

@[simp] theorem safeScore_json_inj {a b : SafeScore} : a.json = b.json ↔ a = b := by
  cases a
  cases b
  simp [SafeScore.json]

@[simp] theorem publicationSequence_json_inj {a b : PublicationSequence} :
    a.json = b.json ↔ a = b := by
  cases a
  cases b
  simp [PublicationSequence.json]

theorem ofString_inj_of {α : Type} {value : α → String} (h : Function.Injective value) {a b : α} :
    Json.ofString (value a) = Json.ofString (value b) ↔ a = b :=
  ⟨fun heq => h (String.toList_injective (Json.str.inj heq)), fun heq => by rw [heq]⟩

theorem normalize_ofString {s : String} (h : IsAscii s.toList) :
    normalize nf (.ofString s) = .ofString s := normalize_ascii nf h

@[simp] theorem role_json_inj {a b : ReportRole} :
    Json.ofString a.value = Json.ofString b.value ↔ a = b :=
  ofString_inj_of (fun a b => by cases a <;> cases b <;> simp [ReportRole.value])

@[simp] theorem state_json_inj {a b : AnalysisState} :
    Json.ofString a.value = Json.ofString b.value ↔ a = b :=
  ofString_inj_of (fun a b => by cases a <;> cases b <;> simp [AnalysisState.value])

@[simp] theorem sentiment_json_inj {a b : Sentiment} :
    Json.ofString a.value = Json.ofString b.value ↔ a = b :=
  ofString_inj_of (fun a b => by cases a <;> cases b <;> simp [Sentiment.value])

@[simp] theorem selection_json_inj {a b : EngagementSelectionState} :
    Json.ofString a.value = Json.ofString b.value ↔ a = b :=
  ofString_inj_of (fun a b => by cases a <;> cases b <;> simp [EngagementSelectionState.value])

@[simp] theorem collectionStatus_json_inj {a b : CollectionStatus} :
    Json.ofString a.value = Json.ofString b.value ↔ a = b :=
  ofString_inj_of (fun a b => by cases a <;> cases b <;> simp [CollectionStatus.value])

@[simp] theorem country_json_inj {a b : Country} :
    Json.ofString a.value = Json.ofString b.value ↔ a = b :=
  ofString_inj_of (fun a b => by cases a <;> cases b <;> simp [Country.value])

@[simp] theorem platform_json_inj {a b : SourcePlatform} :
    Json.ofString a.value = Json.ofString b.value ↔ a = b :=
  ofString_inj_of (fun a b => by cases a <;> cases b <;> simp [SourcePlatform.value])

@[simp] theorem inputKind_json_inj {a b : InputKind} :
    Json.ofString a.value = Json.ofString b.value ↔ a = b :=
  ofString_inj_of (fun a b => by cases a <;> cases b <;> simp [InputKind.value])

@[simp] theorem option_json_inj {α : Type} {f : α → Json} {a b : Option α}
    (hnull : ∀ x, f x ≠ .null) (hf : ∀ x y, f x = f y ↔ x = y) :
    Json.ofOption f a = Json.ofOption f b ↔ a = b :=
  ⟨fun h => ofOption_injective (fun x y hxy => (hf x y).mp hxy) hnull h, fun h => by rw [h]⟩

end Scalars

section Records
variable (nf : NormalForm)

theorem normalize_value {s : String} (h : (s.toList.all fun c => c.toNat < 128) = true) :
    normalize nf (.ofString s) = .ofString s := normalize_ofString nf h

theorem RuleMatchSnapshot.normalize_json (item : RuleMatchSnapshot) :
    normalize nf item.json = (item.mapText nf).json := by
  rw [RuleMatchSnapshot.json, normalize_object nf.fixesAscii
    (by simp only [List.map_cons, List.map_nil]; decide +kernel)]
  simp only [List.map_cons, List.map_nil, normalize_digest, normalize_uuid, CanonicalJson.normalize]
  rfl

theorem ruleMatch_json_injective : Function.Injective RuleMatchSnapshot.json := by
  intro a b h
  have hvalues := object_values h
  simp only [List.map_cons, List.map_nil, List.cons.injEq, Json.str.injEq, Json.bool.injEq,
    digest_json_inj, uuid_json_inj, and_true] at hvalues
  cases a
  cases b
  simp_all

end Records

section SpelledKeys

inductive Spells : List String → List Text → Prop
  | nil : Spells [] []
  | cons {keys : List String} {texts : List Text} (text : Text) (h : Spells keys texts) :
      Spells (String.ofList text :: keys) (text :: texts)

theorem Spells.toList {keys : List String} {texts : List Text} (h : Spells keys texts) :
    keys.map String.toList = texts := by
  induction h with
  | nil => rfl
  | cons text h ih => rw [List.map_cons, String.toList_ofList, ih]

/-- `sortedKeys` of keys whose characters are spelled out, which is cheap to evaluate. -/
theorem normalize_spelled (nf : NormalForm) {fields : List (String × Json)} {texts : List Text}
    (hspells : Spells (fields.map Prod.fst) texts)
    (hsorted : (decide (texts.IsChain (· < ·)) && texts.all fun k => decide (IsAscii k)) = true) :
    normalize nf (.object fields) = .object (fields.map fun p => (p.1, normalize nf p.2)) :=
  normalize_object nf.fixesAscii (by rw [sortedKeys, hspells.toList]; exact hsorted)

end SpelledKeys

section Enumerations
variable (nf : NormalForm)

theorem normalize_role (role : ReportRole) :
    normalize nf (.ofString role.value) = .ofString role.value :=
  normalize_value nf (by cases role <;> decide)

theorem normalize_state (state : AnalysisState) :
    normalize nf (.ofString state.value) = .ofString state.value :=
  normalize_value nf (by cases state <;> decide)

theorem normalize_sentiment (sentiment : Sentiment) :
    normalize nf (.ofString sentiment.value) = .ofString sentiment.value :=
  normalize_value nf (by cases sentiment <;> decide)

theorem normalize_selection (state : EngagementSelectionState) :
    normalize nf (.ofString state.value) = .ofString state.value :=
  normalize_value nf (by cases state <;> decide)

theorem normalize_collectionStatus (status : CollectionStatus) :
    normalize nf (.ofString status.value) = .ofString status.value :=
  normalize_value nf (by cases status <;> decide)

theorem normalize_country (country : Country) :
    normalize nf (.ofString country.value) = .ofString country.value :=
  normalize_value nf (by cases country <;> decide)

theorem normalize_platform (platform : SourcePlatform) :
    normalize nf (.ofString platform.value) = .ofString platform.value :=
  normalize_value nf (by cases platform <;> decide)

theorem normalize_inputKind (kind : InputKind) :
    normalize nf (.ofString kind.value) = .ofString kind.value :=
  normalize_value nf (by cases kind <;> decide)

theorem normalize_status (status : ReportStatus) :
    normalize nf (.ofString status.value) = .ofString status.value :=
  normalize_value nf (by cases status <;> decide)

end Enumerations

section Ratios

theorem isAscii_zeros (n : ℕ) : IsAscii (List.replicate n '0') := by
  refine List.all_eq_true.mpr fun c hc => ?_
  rw [List.eq_of_mem_replicate hc]
  decide

theorem isAscii_formatFixed (coefficient : ℕ) (exponent : ℤ) :
    IsAscii (formatFixed coefficient exponent) := by
  have hdigits := isAscii_toDigits coefficient
  unfold formatFixed
  split_ifs with hsign hzero
  · decide
  · exact isAscii_append hdigits (isAscii_zeros _)
  · have hwhole := isAscii_append (isAscii_zeros ((-exponent).toNat + 1 -
      (Nat.toDigits 10 coefficient).length)) hdigits
    exact isAscii_append (isAscii_of_subset hwhole fun c hc => List.mem_of_mem_take hc)
      (isAscii_cons (by decide) (isAscii_of_subset hwhole fun c hc => List.mem_of_mem_drop hc))

theorem isAscii_rstrip {s : Text} (c : Char) (h : IsAscii s) : IsAscii (rstrip c s) :=
  isAscii_of_subset h fun _ hd => (List.rdropWhile_prefix _ _).subset hd

theorem isAscii_ratioDecimal {numerator denominator : ℤ} {text : Text}
    (h : ratioDecimal numerator denominator = some text) : IsAscii text := by
  by_cases hzero : denominator = 0
  · rw [ratioDecimal, if_pos hzero] at h
    exact absurd h (by simp)
  · have hunsigned : IsAscii (if numerator = 0 then ['0'] else
        formatFixed (quotient28 numerator.natAbs denominator.natAbs).1
          (quotient28 numerator.natAbs denominator.natAbs).2) := by
      split
      · decide
      · exact isAscii_formatFixed _ _
    simp only [ratioDecimal, if_neg hzero] at h
    generalize (if numerator = 0 then ['0'] else
        formatFixed (quotient28 numerator.natAbs denominator.natAbs).1
          (quotient28 numerator.natAbs denominator.natAbs).2) = unsigned at h hunsigned
    have hsigned : IsAscii (if numerator * denominator < 0 then '-' :: unsigned else unsigned) := by
      split
      · exact isAscii_cons (by decide) hunsigned
      · exact hunsigned
    generalize (if numerator * denominator < 0 then '-' :: unsigned else unsigned) = signed
      at h hsigned
    have hstripped : IsAscii (if '.' ∈ signed then rstrip '.' (rstrip '0' signed) else signed) := by
      split
      · exact isAscii_rstrip _ (isAscii_rstrip _ hsigned)
      · exact hsigned
    generalize (if '.' ∈ signed then rstrip '.' (rstrip '0' signed) else signed) = stripped
      at h hstripped
    rw [← Option.some.inj h]
    split
    · decide
    · exact hstripped

theorem map_ratioDecimal (nf : NormalForm) (numerator denominator : ℤ) :
    (ratioDecimal numerator denominator).map nf = ratioDecimal numerator denominator := by
  cases h : ratioDecimal numerator denominator with
  | none => rfl
  | some text => rw [Option.map_some, nf.fixesAscii text (isAscii_ratioDecimal h)]

end Ratios

section Values
variable (nf : NormalForm)

theorem normalize_str (s : Text) : normalize nf (.str s) = .str (nf s) := by rw [CanonicalJson.normalize]

theorem normalize_int (i : ℤ) : normalize nf (.int i) = .int i := by rw [CanonicalJson.normalize]

theorem normalize_ofNat (n : ℕ) : normalize nf (.ofNat n) = .ofNat n := normalize_int nf _

theorem normalize_bool (b : Bool) : normalize nf (.bool b) = .bool b := by rw [CanonicalJson.normalize]

theorem normalize_safeCount (n : SafeCount) : normalize nf n.json = n.json := normalize_int nf _

theorem normalize_safeScore (n : SafeScore) : normalize nf n.json = n.json := normalize_int nf _

theorem normalize_sequence (n : PublicationSequence) : normalize nf n.json = n.json :=
  normalize_int nf _

theorem normalize_option {α : Type} {f : α → Json} (hf : ∀ a, normalize nf (f a) = f a)
    (o : Option α) : normalize nf (.ofOption f o) = .ofOption f o := by
  rw [normalize_ofOption]
  congr 1
  exact funext hf

theorem normalize_optionStr (o : Option Text) :
    normalize nf (.ofOption Json.str o) = .ofOption Json.str (o.map nf) := by
  cases o with
  | none => rfl
  | some s => exact normalize_str nf s

theorem normalize_listMap {α : Type} {f : α → Json} {g : α → α}
    (hf : ∀ a, normalize nf (f a) = f (g a)) (xs : List α) :
    normalize nf (.list (xs.map f)) = .list ((xs.map g).map f) := by
  rw [normalize_list, List.map_map]
  exact congrArg Json.list (List.map_congr_left fun a _ => hf a)

theorem TopicMatchSnapshot.normalize_json (item : TopicMatchSnapshot) :
    normalize nf item.json = (item.mapText nf).json := by
  rw [TopicMatchSnapshot.json, normalize_spelled nf
    (by simp only [List.map_cons, List.map_nil]; repeat constructor) (by decide)]
  simp only [List.map_cons, List.map_nil, normalize_str]
  rfl

theorem AnalysisValues.normalize_json (values : AnalysisValues) :
    normalize nf values.json = (values.mapText nf).json := by
  rw [AnalysisValues.json, normalize_spelled nf
    (by simp only [List.map_cons, List.map_nil]; repeat constructor) (by decide)]
  simp only [List.map_cons, List.map_nil, normalize_optionStr, normalize_state,
    normalize_option nf (normalize_uuid nf), normalize_option nf (normalize_timestamp nf),
    normalize_option nf (normalize_digest nf), normalize_option nf (normalize_bool nf),
    normalize_option nf (normalize_sentiment nf)]
  rfl

theorem EngagementValues.normalize_json (values : EngagementValues) :
    normalize nf values.json = values.json := by
  rw [EngagementValues.json, normalize_spelled nf
    (by simp only [List.map_cons, List.map_nil]; repeat constructor) (by decide)]
  simp only [List.map_cons, List.map_nil, normalize_selection,
    normalize_option nf (normalize_uuid nf), normalize_option nf (normalize_timestamp nf),
    normalize_option nf (normalize_digest nf), normalize_option nf (normalize_safeCount nf),
    normalize_option nf (normalize_safeScore nf)]

theorem ReportRecord.normalize_json (record : ReportRecord) :
    normalize nf record.json = (record.mapText nf).json := by
  rw [ReportRecord.json, normalize_spelled nf
    (by simp only [List.map_cons, List.map_nil]; repeat constructor) (by decide)]
  simp only [List.map_cons, List.map_nil, AnalysisValues.normalize_json, normalize_str,
    normalize_country, normalize_listMap nf (normalize_str nf), EngagementValues.normalize_json,
    normalize_ofNat, normalize_platform, normalize_digest, normalize_uuid, normalize_timestamp,
    normalize_date, normalize_role, normalize_listMap nf (RuleMatchSnapshot.normalize_json nf),
    normalize_sequence, normalize_listMap nf (TopicMatchSnapshot.normalize_json nf)]
  rfl

theorem ReportWindow.normalize_json (window : ReportWindow) :
    normalize nf window.json = window.json := by
  rw [ReportWindow.json, normalize_spelled nf
    (by simp only [List.map_cons, List.map_nil]; repeat constructor) (by decide)]
  simp only [List.map_cons, List.map_nil, normalize_date, normalize_timestamp, normalize_role]

theorem SourceCoverage.normalize_json (coverage : SourceCoverage) :
    normalize nf coverage.json = (coverage.mapText nf).json := by
  have hdecimal : coverage.coverageDecimal.map nf = coverage.coverageDecimal := by
    obtain ⟨_, hcounts, _⟩ := FallibleSteps.bind_eq_ok.mp coverage.valid_counts
    rw [(FallibleSteps.require_eq_ok.mp hcounts).2]
    exact map_ratioDecimal nf _ _
  rw [CoverageValues.json, normalize_spelled nf
    (by simp only [List.map_cons, List.map_nil]; repeat constructor) (by decide)]
  simp only [List.map_cons, List.map_nil, normalize_optionStr, hdecimal, normalize_str,
    normalize_collectionStatus, normalize_country, normalize_platform, normalize_role,
    normalize_bool, normalize_uuid, normalize_safeCount, normalize_option nf (normalize_uuid nf),
    normalize_option nf (normalize_timestamp nf), normalize_option nf (normalize_digest nf),
    normalize_option nf (normalize_safeCount nf)]
  rfl

theorem RuleSetVersion.normalize_json (item : RuleSetVersion) :
    normalize nf item.json = (item.mapText nf).json := by
  rw [RuleSetVersion.json, normalize_spelled nf
    (by simp only [List.map_cons, List.map_nil]; repeat constructor) (by decide)]
  simp only [List.map_cons, List.map_nil, normalize_str, normalize_digest]
  rfl

theorem AnalysisVersionTuple.normalize_json (item : AnalysisVersionTuple) :
    normalize nf item.json = (item.mapText nf).json := by
  rw [AnalysisVersionTuple.json, normalize_spelled nf
    (by simp only [List.map_cons, List.map_nil]; repeat constructor) (by decide)]
  simp only [List.map_cons, List.map_nil, normalize_str]
  rfl

theorem FormulaConstants.normalize_json :
    normalize nf FormulaConstants.json = FormulaConstants.json := by
  rw [FormulaConstants.json, normalize_spelled nf
    (by simp only [List.map_cons, List.map_nil]; repeat constructor) (by decide)]
  simp only [List.map_cons, List.map_nil, normalize_ofNat,
    normalize_value nf (s := "excluded_not_neutral") (by decide),
    normalize_value nf (s := "null") (by decide)]

theorem GoverningDefinitions.normalize_json (definitions : GoverningDefinitions) :
    normalize nf definitions.json = (definitions.mapText nf).json := by
  rw [GoverningDefinitions.json, normalize_spelled nf
    (by simp only [List.map_cons, List.map_nil]; repeat constructor) (by decide)]
  simp only [List.map_cons, List.map_nil, normalize_str, normalize_digest,
    FormulaConstants.normalize_json,
    normalize_listMap nf (RuleSetVersion.normalize_json nf),
    normalize_listMap nf (AnalysisVersionTuple.normalize_json nf)]
  rfl

theorem CategoryMappingSnapshot.normalize_json (item : CategoryMappingSnapshot) :
    normalize nf item.json = (item.mapText nf).json := by
  rw [CategoryMappingSnapshot.json, normalize_spelled nf
    (by simp only [List.map_cons, List.map_nil]; repeat constructor) (by decide)]
  simp only [List.map_cons, List.map_nil, normalize_str, normalize_inputKind]
  rfl

theorem normalize_windows (windows : ReportWindow × ReportWindow) :
    normalize nf (.list [windows.1.json, windows.2.json]) =
      .list [windows.1.json, windows.2.json] := by
  have hlist := normalize_listMap nf (g := id) (ReportWindow.normalize_json nf)
    [windows.1, windows.2]
  rwa [List.map_id] at hlist

theorem ReportInputManifest.normalize_json (payload : ReportInputManifest) :
    normalize nf payload.json = (payload.mapText nf).json := by
  rw [ReportInputManifest.json, normalize_spelled nf
    (by simp only [List.map_cons, List.map_nil]; repeat constructor) (by decide)]
  simp only [List.map_cons, List.map_nil, normalize_str, GoverningDefinitions.normalize_json,
    normalize_listMap nf (CategoryMappingSnapshot.normalize_json nf),
    normalize_listMap nf (ReportRecord.normalize_json nf), normalize_date,
    normalize_value nf (s := schemaName) (by decide), normalize_windows,
    normalize_listMap nf (SourceCoverage.normalize_json nf)]
  rfl

theorem Highlight.normalize_json (item : Highlight) :
    normalize nf item.json = (item.mapText nf).json := by
  rw [Highlight.json, normalize_spelled nf
    (by simp only [List.map_cons, List.map_nil]; repeat constructor) (by decide)]
  simp only [List.map_cons, List.map_nil, normalize_str, normalize_int, normalize_optionStr,
    normalize_safeCount]
  rfl

theorem RisingKeyword.normalize_json (item : RisingKeyword) :
    normalize nf item.json = (item.mapText nf).json := by
  rw [RisingKeyword.json, normalize_spelled nf
    (by simp only [List.map_cons, List.map_nil]; repeat constructor) (by decide)]
  simp only [List.map_cons, List.map_nil, normalize_str, normalize_int, normalize_optionStr,
    normalize_safeCount]
  rfl

theorem DailyReportPayload.normalize_json (report : DailyReportPayload) :
    normalize nf report.json = (report.mapText nf).json := by
  rw [DailyReportPayload.json, normalize_spelled nf
    (by simp only [List.map_cons, List.map_nil]; repeat constructor) (by decide)]
  simp only [List.map_cons, List.map_nil, normalize_str, normalize_optionStr, normalize_safeCount,
    normalize_digest, normalize_option nf (normalize_int nf), normalize_date,
    normalize_listMap nf (Highlight.normalize_json nf),
    normalize_listMap nf (RisingKeyword.normalize_json nf),
    normalize_value nf (s := reportSchemaName) (by decide),
    normalize_listMap nf (SourceCoverage.normalize_json nf), normalize_status, normalize_windows]
  rfl

end Values

section Injectivity

theorem list_json_inj {α : Type} {f : α → Json} (hf : ∀ a b, f a = f b ↔ a = b) {xs ys : List α} :
    Json.list (xs.map f) = Json.list (ys.map f) ↔ xs = ys :=
  ⟨fun h => list_map_injective (fun a b hab => (hf a b).mp hab) h, fun h => by rw [h]⟩

theorem str_json_inj (a b : Text) : Json.str a = Json.str b ↔ a = b := by
  rw [Json.str.injEq]

theorem int_json_inj (a b : ℤ) : Json.int a = Json.int b ↔ a = b := by
  rw [Json.int.injEq]

theorem optionStr_json_inj {a b : Option Text} :
    Json.ofOption Json.str a = Json.ofOption Json.str b ↔ a = b :=
  option_json_inj (fun _ => nofun) str_json_inj

theorem optionInt_json_inj {a b : Option ℤ} :
    Json.ofOption Json.int a = Json.ofOption Json.int b ↔ a = b :=
  option_json_inj (fun _ => nofun) int_json_inj

theorem optionBool_json_inj {a b : Option Bool} :
    Json.ofOption Json.bool a = Json.ofOption Json.bool b ↔ a = b :=
  option_json_inj (fun _ => nofun) fun _ _ => by rw [Json.bool.injEq]

theorem optionUuid_json_inj {a b : Option UUID} :
    Json.ofOption UUID.json a = Json.ofOption UUID.json b ↔ a = b :=
  option_json_inj (fun _ => nofun) fun _ _ => uuid_json_inj

theorem optionDigest_json_inj {a b : Option Digest} :
    Json.ofOption Digest.json a = Json.ofOption Digest.json b ↔ a = b :=
  option_json_inj (fun _ => nofun) fun _ _ => digest_json_inj

theorem optionTimestamp_json_inj {a b : Option UtcTimestamp} :
    Json.ofOption UtcTimestamp.json a = Json.ofOption UtcTimestamp.json b ↔ a = b :=
  option_json_inj (fun _ => nofun) fun _ _ => timestamp_json_inj

theorem optionCount_json_inj {a b : Option SafeCount} :
    Json.ofOption SafeCount.json a = Json.ofOption SafeCount.json b ↔ a = b :=
  option_json_inj (fun _ => nofun) fun _ _ => safeCount_json_inj

theorem optionScore_json_inj {a b : Option SafeScore} :
    Json.ofOption SafeScore.json a = Json.ofOption SafeScore.json b ↔ a = b :=
  option_json_inj (fun _ => nofun) fun _ _ => safeScore_json_inj

theorem optionSentiment_json_inj {a b : Option Sentiment} :
    Json.ofOption (fun s => Json.ofString s.value) a = Json.ofOption (fun s => Json.ofString s.value) b ↔
      a = b :=
  option_json_inj (fun _ => nofun) fun _ _ => sentiment_json_inj

theorem status_json_inj {a b : ReportStatus} :
    Json.ofString a.value = Json.ofString b.value ↔ a = b :=
  ofString_inj_of (fun a b => by cases a <;> cases b <;> simp [ReportStatus.value])

theorem topicMatch_json_injective : Function.Injective TopicMatchSnapshot.json := by
  intro a b h
  have hvalues := object_values h
  simp only [List.map_cons, List.map_nil, List.cons.injEq, Json.str.injEq, and_true] at hvalues
  cases a
  cases b
  simp_all

theorem analysisValues_json_injective : Function.Injective AnalysisValues.json := by
  intro a b h
  have hvalues := object_values h
  simp only [List.map_cons, List.map_nil, List.cons.injEq, optionUuid_json_inj,
    optionTimestamp_json_inj, optionStr_json_inj, optionDigest_json_inj, optionBool_json_inj,
    optionSentiment_json_inj, state_json_inj, and_true] at hvalues
  cases a
  cases b
  simp_all

theorem engagementValues_json_injective : Function.Injective EngagementValues.json := by
  intro a b h
  have hvalues := object_values h
  simp only [List.map_cons, List.map_nil, List.cons.injEq, optionUuid_json_inj,
    optionTimestamp_json_inj, optionDigest_json_inj, optionCount_json_inj, optionScore_json_inj,
    selection_json_inj, and_true] at hvalues
  cases a
  cases b
  simp_all

theorem analysis_json_inj {a b : AnalysisSnapshot} : a.json = b.json ↔ a = b := by
  refine ⟨fun h => ?_, fun h => by rw [h]⟩
  have hvalues := analysisValues_json_injective h
  cases a
  cases b
  simp_all

theorem engagement_json_inj {a b : EngagementSnapshot} : a.json = b.json ↔ a = b := by
  refine ⟨fun h => ?_, fun h => by rw [h]⟩
  have hvalues := engagementValues_json_injective h
  cases a
  cases b
  simp_all

theorem ruleMatches_json_inj {xs ys : List RuleMatchSnapshot} :
    Json.list (xs.map RuleMatchSnapshot.json) = Json.list (ys.map RuleMatchSnapshot.json) ↔ xs = ys :=
  list_json_inj fun _ _ => ruleMatch_json_injective.eq_iff

theorem topicMatches_json_inj {xs ys : List TopicMatchSnapshot} :
    Json.list (xs.map TopicMatchSnapshot.json) = Json.list (ys.map TopicMatchSnapshot.json) ↔ xs = ys :=
  list_json_inj fun _ _ => topicMatch_json_injective.eq_iff

theorem texts_json_inj {xs ys : List Text} :
    Json.list (xs.map Json.str) = Json.list (ys.map Json.str) ↔ xs = ys :=
  list_json_inj str_json_inj

theorem record_json_injective : Function.Injective ReportRecord.json := by
  intro a b h
  have hvalues := object_values h
  simp only [List.map_cons, List.map_nil, List.cons.injEq, analysis_json_inj, str_json_inj,
    country_json_inj, texts_json_inj, engagement_json_inj, ofNat_inj, platform_json_inj,
    digest_json_inj, uuid_json_inj, timestamp_json_inj, date_json_inj, role_json_inj,
    ruleMatches_json_inj, publicationSequence_json_inj, topicMatches_json_inj, and_true] at hvalues
  cases a
  cases b
  simp_all

theorem window_json_injective : Function.Injective ReportWindow.json := by
  intro a b h
  have hvalues := object_values h
  simp only [List.map_cons, List.map_nil, List.cons.injEq, date_json_inj, timestamp_json_inj,
    role_json_inj, and_true] at hvalues
  cases a
  cases b
  simp_all

theorem windows_json_inj {v w : ReportWindow × ReportWindow} :
    Json.list [v.1.json, v.2.json] = Json.list [w.1.json, w.2.json] ↔ v = w := by
  rw [Json.list.injEq, List.cons.injEq, List.cons.injEq, window_json_injective.eq_iff,
    window_json_injective.eq_iff, Prod.ext_iff]
  simp

theorem coverageValues_json_injective : Function.Injective CoverageValues.json := by
  intro a b h
  have hvalues := object_values h
  simp only [List.map_cons, List.map_nil, List.cons.injEq, safeCount_json_inj,
    collectionStatus_json_inj, str_json_inj, country_json_inj, optionStr_json_inj,
    optionDigest_json_inj, optionUuid_json_inj, optionCount_json_inj, Json.bool.injEq,
    optionTimestamp_json_inj, platform_json_inj, role_json_inj, uuid_json_inj, and_true] at hvalues
  cases a
  cases b
  simp_all

theorem coverage_json_inj {xs ys : List SourceCoverage} :
    Json.list (xs.map fun item => item.json) = Json.list (ys.map fun item => item.json) ↔ xs = ys := by
  refine list_json_inj fun a b => ⟨fun h => ?_, fun h => by rw [h]⟩
  have hvalues := coverageValues_json_injective h
  cases a
  cases b
  simp_all

theorem ruleSet_json_injective : Function.Injective RuleSetVersion.json := by
  intro a b h
  have hvalues := object_values h
  simp only [List.map_cons, List.map_nil, List.cons.injEq, str_json_inj, digest_json_inj,
    and_true] at hvalues
  cases a
  cases b
  simp_all

theorem analysisVersion_json_injective : Function.Injective AnalysisVersionTuple.json := by
  intro a b h
  have hvalues := object_values h
  simp only [List.map_cons, List.map_nil, List.cons.injEq, str_json_inj, and_true] at hvalues
  cases a
  cases b
  simp_all

theorem definitions_json_injective : Function.Injective GoverningDefinitions.json := by
  intro a b h
  have hvalues := object_values h
  simp only [List.map_cons, List.map_nil, List.cons.injEq, str_json_inj, digest_json_inj,
    list_json_inj fun _ _ => ruleSet_json_injective.eq_iff,
    list_json_inj fun _ _ => analysisVersion_json_injective.eq_iff, and_true] at hvalues
  cases a
  cases b
  simp_all

theorem mapping_json_injective : Function.Injective CategoryMappingSnapshot.json := by
  intro a b h
  have hvalues := object_values h
  simp only [List.map_cons, List.map_nil, List.cons.injEq, str_json_inj, inputKind_json_inj,
    and_true] at hvalues
  cases a
  cases b
  simp_all

theorem manifest_json_injective : Function.Injective ReportInputManifest.json := by
  intro a b h
  have hvalues := object_values h
  simp only [List.map_cons, List.map_nil, List.cons.injEq,
    list_json_inj fun _ _ => mapping_json_injective.eq_iff, definitions_json_injective.eq_iff,
    list_json_inj fun _ _ => record_json_injective.eq_iff, date_json_inj, coverage_json_inj,
    str_json_inj, windows_json_inj, and_true, true_and] at hvalues
  cases a
  cases b
  simp_all

theorem highlight_json_injective : Function.Injective Highlight.json := by
  intro a b h
  have hvalues := object_values h
  simp only [List.map_cons, List.map_nil, List.cons.injEq, str_json_inj, safeCount_json_inj,
    int_json_inj, optionStr_json_inj, and_true] at hvalues
  cases a
  cases b
  simp_all

theorem risingKeyword_json_injective : Function.Injective RisingKeyword.json := by
  intro a b h
  have hvalues := object_values h
  simp only [List.map_cons, List.map_nil, List.cons.injEq, str_json_inj, safeCount_json_inj,
    int_json_inj, optionStr_json_inj, and_true] at hvalues
  cases a
  cases b
  simp_all

theorem report_json_injective : Function.Injective DailyReportPayload.json := by
  intro a b h
  have hvalues := object_values h
  simp only [List.map_cons, List.map_nil, List.cons.injEq, optionStr_json_inj, safeCount_json_inj,
    digest_json_inj, str_json_inj, optionInt_json_inj, date_json_inj, status_json_inj,
    list_json_inj fun _ _ => highlight_json_injective.eq_iff,
    list_json_inj fun _ _ => risingKeyword_json_injective.eq_iff, coverage_json_inj,
    windows_json_inj, and_true, true_and] at hvalues
  cases a
  cases b
  simp_all

end Injectivity

end PredictionMarketMonitor.ReportJson
