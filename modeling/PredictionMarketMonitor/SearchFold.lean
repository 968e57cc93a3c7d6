import PredictionMarketMonitor.CodePoints
import PredictionMarketMonitor.LikePatterns
import PredictionMarketMonitor.PostArchive

set_option autoImplicit false

/-!
# Literal search

`search_fold_v1` and `search_like_pattern_v1` of `services/dashboard/filters.py`, the
function and the generated column `search_text` of the migration
`20260727_0010_manifold_search_compatibility`, and the search predicate of
`sql_read_statements.py`. The two folds share the normalization `nfc`.
-/
namespace PredictionMarketMonitor.SearchFold

open CanonicalJson CodePoints ControlPlaneTables KeyedTable LikePatterns PostArchive

/-- `"\t\n\v\f\r "` -/
def edgeWhitespace : Text := ['\t', '\n', Char.ofNat 11, Char.ofNat 12, '\r', ' ']

def asciiUpper : Text := "ABCDEFGHIJKLMNOPQRSTUVWXYZ".toList

def asciiLower : Text := "abcdefghijklmnopqrstuvwxyz".toList

/-- `str.maketrans` -/
def asciiFoldTable : List (Char × Char) := asciiUpper.zip asciiLower

/-- `str.translate` -/
def translate (table : List (Char × Char)) (text : Text) : Text :=
  text.map fun c => (table.lookup c).getD c

/-- `str.strip(chars)` -/
def stripChars (chars text : Text) : Text :=
  (text.dropWhile (· ∈ chars)).rdropWhile (· ∈ chars)

inductive SearchFoldReason
  | scalarCount | unicodeScalar
deriving DecidableEq

structure SearchFoldResult where
  value : Text
  scalarCount : ℕ
deriving DecidableEq

def searchFoldV1 (nfc : Text → Text) (value : Str) : Except SearchFoldReason SearchFoldResult :=
  match scalars? value with
  | none => .error .unicodeScalar
  | some text =>
    let folded := translate asciiFoldTable (nfc (stripChars edgeWhitespace text))
    if folded.length < 2 ∨ 100 < folded.length then .error .scalarCount
    else .ok ⟨folded, folded.length⟩

/-- `text.replace(old, new)` for one character. -/
def replace (old : Char) (new text : Text) : Text :=
  text.flatMap fun c => if c = old then new else [c]

def searchLikePatternV1 (foldedValue : Text) : Text :=
  let escaped := replace '_' ['\\', '_'] (replace '%' ['\\', '%'] (replace '\\' ['\\', '\\'] foldedValue))
  '%' :: (escaped ++ ['%'])

/-- `btrim(input, characters)` -/
def btrim (input characters : Text) : Text :=
  (input.dropWhile (· ∈ characters)).rdropWhile (· ∈ characters)

/-- `translate(input, source, target)`: a character without a counterpart is removed. -/
def sqlTranslate (input source target : Text) : Text :=
  input.filterMap fun c =>
    match source.idxOf? c with
    | none => some c
    | some i => target[i]?

def sqlSearchFoldV1 (nfc : Text → Text) (input : Text) : Text :=
  sqlTranslate (nfc (btrim input ([9, 10, 11, 12, 13, 32].map Char.ofNat)))
    "ABCDEFGHIJKLMNOPQRSTUVWXYZ".toList "abcdefghijklmnopqrstuvwxyz".toList

def searchText (nfc : Text → Text) (version : PostVersionRow) : Text :=
  sqlSearchFoldV1 nfc (version.title.toList ++ '\n' :: version.body.toList)

def likeSigns : Signs Char := ⟨'%', '_', '\\', by decide⟩

/-- `POST_SEARCH_PREDICATE`; without a pattern every version satisfies it. -/
def PostSearchPredicate (nfc : Text → Text) (searchPattern : Option Text)
    (version : PostVersionRow) : Prop :=
  ∀ pattern ∈ searchPattern, like likeSigns pattern (searchText nfc version) = some true

instance (nfc : Text → Text) (searchPattern : Option Text) (version : PostVersionRow) :
    Decidable (PostSearchPredicate nfc searchPattern version) :=
  inferInstanceAs (Decidable (∀ _ ∈ _, _))

/-- The rows of the post statements when no other filter is set: a post is joined with its
    current version. -/
def searchedPosts (nfc : Text → Text) (archive : Archive) (search : Option Text) : List PostRow :=
  archive.db.posts.rows.filter fun post =>
    (archive.versions.find? post.current.currentVersionId).any fun version =>
      decide (PostSearchPredicate nfc (search.map searchLikePatternV1) version)

def fold (nfc : Text → Text) (text : Text) : Text :=
  (nfc (stripChars edgeWhitespace text)).map Char.toLower

theorem lookup_asciiFoldTable (c : Char) : (asciiFoldTable.lookup c).getD c = c.toLower := by
  by_cases hc : 65 ≤ c.toNat ∧ c.toNat ≤ 90
  · obtain ⟨n, hn⟩ : ∃ n, c.toNat = n := ⟨_, rfl⟩
    have hchar : c = Char.ofNat n := by rw [← hn, Char.ofNat_toNat]
    obtain ⟨hlow, hhigh⟩ := hn ▸ hc
    rw [hchar]
    interval_cases n <;> rfl
  · have hkeys : ∀ p ∈ asciiFoldTable, 65 ≤ p.1.toNat ∧ p.1.toNat ≤ 90 := by decide
    have hnone : asciiFoldTable.lookup c = none := by
      rw [List.lookup_eq_none_iff]
      intro p hp
      have hne : c ≠ p.1 := by
        rintro rfl
        exact hc (hkeys p hp)
      simpa using hne
    have hlower : c.toLower = c := by
      have hrange : ¬(c.val ≥ 'A'.val ∧ c.val ≤ 'Z'.val) := hc
      rw [Char.toLower]
      exact dif_neg hrange
    rw [hnone, hlower]
    rfl

theorem translate_asciiFoldTable (text : Text) :
    translate asciiFoldTable text = text.map Char.toLower := by
  unfold translate
  congr
  funext c
  exact lookup_asciiFoldTable c

theorem idxOf_lookup (c : Char) {source target : Text} (h : source.length = target.length) :
    (match source.idxOf? c with
      | none => some c
      | some i => target[i]?) = some (((source.zip target).lookup c).getD c) := by
  induction source generalizing target with
  | nil => simp
  | cons a source ih =>
    cases target with
    | nil => simp at h
    | cons b target =>
      have hlengths : source.length = target.length := by simpa using h
      have hrest := ih hlengths
      by_cases hc : a = c
      · simp [List.idxOf?_cons, hc]
      · have hca : (c == a) = false := by simpa using Ne.symm hc
        rw [List.idxOf?_cons, List.zip_cons_cons, List.lookup_cons, hca, ← hrest]
        cases source.idxOf? c with
        | none => simp [hc]
        | some i => simp [hc]

theorem sqlTranslate_eq {source target : Text} (h : source.length = target.length)
    (input : Text) : sqlTranslate input source target = translate (source.zip target) input := by
  unfold sqlTranslate translate
  rw [← List.filterMap_eq_map]
  congr
  funext c
  exact idxOf_lookup c h

theorem sqlSearchFoldV1_eq (nfc : Text → Text) (input : Text) :
    sqlSearchFoldV1 nfc input = fold nfc input := by
  have htrim : btrim input ([9, 10, 11, 12, 13, 32].map Char.ofNat) =
      stripChars edgeWhitespace input := rfl
  rw [sqlSearchFoldV1, htrim, sqlTranslate_eq (by decide)]
  exact translate_asciiFoldTable _

theorem searchFoldV1_eq_ok {nfc : Text → Text} {value : Str} {result : SearchFoldResult} :
    searchFoldV1 nfc value = .ok result ↔ ∃ text, scalars? value = some text ∧
      2 ≤ (fold nfc text).length ∧ (fold nfc text).length ≤ 100 ∧
      result = ⟨fold nfc text, (fold nfc text).length⟩ := by
  cases hs : scalars? value with
  | none => simp [searchFoldV1, hs]
  | some text =>
    have hfold : translate asciiFoldTable (nfc (stripChars edgeWhitespace text)) =
        fold nfc text := translate_asciiFoldTable _
    simp only [searchFoldV1, hs, hfold, Option.some.injEq, exists_eq_left']
    by_cases hcount : (fold nfc text).length < 2 ∨ 100 < (fold nfc text).length
    · rw [if_pos hcount]
      constructor
      · intro h
        cases h
      · intro h
        omega
    · rw [if_neg hcount, Except.ok.injEq]
      constructor
      · intro h
        exact ⟨by omega, by omega, h.symm⟩
      · intro h
        exact h.2.2.symm

theorem searchLikePatternV1_eq (foldedValue : Text) :
    searchLikePatternV1 foldedValue =
      likeSigns.sequence :: (escapeText likeSigns foldedValue ++ [likeSigns.sequence]) := by
  have hescape : replace '_' ['\\', '_'] (replace '%' ['\\', '%']
      (replace '\\' ['\\', '\\'] foldedValue)) = escapeText likeSigns foldedValue := by
    simp only [replace, escapeText, List.flatMap_assoc]
    congr
    funext c
    by_cases hb : c = '\\'
    · subst hb
      rfl
    · by_cases hp : c = '%'
      · subst hp
        rfl
      · by_cases hu : c = '_'
        · subst hu
          rfl
        · simp [hb, hp, hu, Special, likeSigns]
  rw [searchLikePatternV1, hescape]
  rfl

theorem postSearchPredicate_iff (nfc : Text → Text) (f : Text) (version : PostVersionRow) :
    PostSearchPredicate nfc (some (searchLikePatternV1 f)) version ↔
      f <:+: fold nfc (version.title.toList ++ '\n' :: version.body.toList) := by
  have hlike := @like_contains _ _ likeSigns f (searchText nfc version)
  rw [← searchLikePatternV1_eq, searchText, sqlSearchFoldV1_eq] at hlike
  rw [← hlike, PostSearchPredicate]
  simp [searchText, sqlSearchFoldV1_eq]

def BreaksAtEdges (nfc : Text → Text) : Prop :=
  ∀ x c y, c ∈ edgeWhitespace → nfc (x ++ c :: y) = nfc x ++ nfc (c :: y)

theorem BreaksAtEdges.nil {nfc : Text → Text} (h : BreaksAtEdges nfc) : nfc [] = [] := by
  have hspace := h [] ' ' [] (by decide)
  simpa using hspace

theorem rdropWhile_append {α : Type} (p : α → Bool) (l s : List α) :
    (l ++ s).rdropWhile p =
      if (s.rdropWhile p).isEmpty then l.rdropWhile p else l ++ s.rdropWhile p := by
  have hempty : (s.rdropWhile p).isEmpty = (s.reverse.dropWhile p).isEmpty :=
    List.isEmpty_reverse
  rw [hempty]
  simp only [List.rdropWhile, List.reverse_append, List.dropWhile_append]
  split_ifs with h
  · rfl
  · simp

/-- Text and what follows it, trimmed: the trimmed text, and nothing or an edge character
    after it. -/
theorem stripChars_append {text : Text} (h : stripChars edgeWhitespace text ≠ [])
    {c : Char} (hc : c ∈ edgeWhitespace) (rest : Text) :
    stripChars edgeWhitespace (text ++ c :: rest) = stripChars edgeWhitespace text ∨
      ∃ d y, d ∈ edgeWhitespace ∧ stripChars edgeWhitespace (text ++ c :: rest) =
        stripChars edgeWhitespace text ++ d :: y := by
  let edge : Char → Bool := (· ∈ edgeWhitespace)
  let kept := text.dropWhile edge
  have hkept : kept.isEmpty = false := by
    by_contra hempty
    refine h ?_
    have hnil : text.dropWhile edge = [] := by simpa [kept] using hempty
    change (text.dropWhile edge).rdropWhile edge = []
    rw [hnil, List.rdropWhile_nil]
  have hfront : stripChars edgeWhitespace (text ++ c :: rest) =
      (kept ++ c :: rest).rdropWhile edge := by
    change ((text ++ c :: rest).dropWhile edge).rdropWhile edge = _
    rw [List.dropWhile_append]
    simp only [kept] at hkept
    rw [hkept]
    rfl
  rw [hfront, rdropWhile_append]
  by_cases hrest : ((c :: rest).rdropWhile edge).isEmpty = true
  · exact .inl (by rw [if_pos hrest]; rfl)
  · refine .inr ?_
    rw [if_neg hrest]
    have hsplit : kept = stripChars edgeWhitespace text ++ kept.rtakeWhile edge :=
      List.rdropWhile_append_rtakeWhile.symm
    obtain ⟨y, hy⟩ : ∃ y, (c :: rest).rdropWhile edge = c :: y := by
      have hlead := List.rdropWhile_prefix edge (l := c :: rest)
      cases htail : (c :: rest).rdropWhile edge with
      | nil => simp [htail] at hrest
      | cons d y =>
        rw [htail, List.cons_prefix_cons] at hlead
        exact ⟨y, by rw [hlead.1]⟩
    cases htaken : kept.rtakeWhile edge with
    | nil =>
      rw [htaken, List.append_nil] at hsplit
      exact ⟨c, y, hc, by rw [hy, ← hsplit]⟩
    | cons d z =>
      have hd : edge d = true := List.mem_rtakeWhile_imp (by rw [htaken]; exact List.mem_cons_self)
      refine ⟨d, z ++ c :: y, by simpa [edge] using hd, ?_⟩
      rw [hy]
      conv_lhs => rw [hsplit, htaken]
      simp

theorem fold_prefix {nfc : Text → Text} (hnfc : BreaksAtEdges nfc) {text : Text}
    (h : fold nfc text ≠ []) {c : Char} (hc : c ∈ edgeWhitespace) (rest : Text) :
    fold nfc text <+: fold nfc (text ++ c :: rest) := by
  have htext : stripChars edgeWhitespace text ≠ [] := by
    intro hempty
    exact h (by rw [fold, hempty, hnfc.nil]; rfl)
  unfold fold
  apply List.IsPrefix.map
  rcases stripChars_append htext hc rest with heq | ⟨d, y, hd, heq⟩
  · rw [heq]
  · rw [heq, hnfc _ d y hd]
    exact List.prefix_append _ _

theorem scalars_str (text : Text) : scalars? (str text) = some text := by
  induction text with
  | nil => rfl
  | cons c text ih =>
    have hcons : scalars? (str (c :: text)) = (scalars? (str text)).map (c :: ·) := rfl
    rw [hcons, ih]
    rfl

theorem title_found {nfc : Text → Text} (hnfc : BreaksAtEdges nfc) {archive : Archive}
    {post : PostRow} (hpost : post ∈ archive.db.posts.rows) {version : PostVersionRow}
    (hversion : archive.versions.find? post.current.currentVersionId = some version)
    (hlow : 2 ≤ (fold nfc version.title.toList).length)
    (hhigh : (fold nfc version.title.toList).length ≤ 100) :
    ∃ result, searchFoldV1 nfc (str version.title.toList) = .ok result ∧
      post ∈ searchedPosts nfc archive (some result.value) := by
  have htitle : fold nfc version.title.toList ≠ [] := by
    intro hempty
    rw [hempty] at hlow
    simp at hlow
  refine ⟨⟨fold nfc version.title.toList, _⟩,
    searchFoldV1_eq_ok.mpr ⟨_, scalars_str _, hlow, hhigh, rfl⟩, ?_⟩
  have hlead := fold_prefix hnfc htitle (c := '\n') (by decide) version.body.toList
  have hfound : PostSearchPredicate nfc
      (some (searchLikePatternV1 (fold nfc version.title.toList))) version :=
    (postSearchPredicate_iff nfc _ version).mpr hlead.isInfix
  refine List.mem_filter.mpr ⟨hpost, ?_⟩
  rw [hversion]
  simpa using hfound

/-- Literal search means substring, both folds are one function where both accept, and an
    exact title finds its post. -/
theorem search_iff_infix (nfc : Text → Text) :
    (∀ query result, searchFoldV1 nfc query = .ok result → ∀ version,
      PostSearchPredicate nfc (some (searchLikePatternV1 result.value)) version ↔
        result.value <:+: fold nfc (version.title.toList ++ '\n' :: version.body.toList)) ∧
    (∀ text result, searchFoldV1 nfc (str text) = .ok result →
      result.value = sqlSearchFoldV1 nfc text) ∧
    (BreaksAtEdges nfc → ∀ (archive : Archive) (post : PostRow) (version : PostVersionRow),
      post ∈ archive.db.posts.rows →
      archive.versions.find? post.current.currentVersionId = some version →
      2 ≤ (fold nfc version.title.toList).length → (fold nfc version.title.toList).length ≤ 100 →
      ∃ result, searchFoldV1 nfc (str version.title.toList) = .ok result ∧
        post ∈ searchedPosts nfc archive (some result.value)) := by
  refine ⟨?_, ?_, ?_⟩
  · intro query result _ version
    exact postSearchPredicate_iff nfc result.value version
  · intro text result h
    obtain ⟨text', htext, -, -, rfl⟩ := searchFoldV1_eq_ok.mp h
    rw [scalars_str, Option.some.injEq] at htext
    rw [← htext, sqlSearchFoldV1_eq]
  · intro hnfc archive post version hpost hversion hlow hhigh
    exact title_found hnfc hpost hversion hlow hhigh

section Sample

def marketVersion : PostVersionRow where
  id := 7
  postId := 5
  revision := 1
  contentHash := Sha256.sha256 []
  title := "\tWill A\\B_C reach 100%? "
  body := " "
  bodyBytes := 1
  reason := .firstSeen
  collectedAt := 0

def marketPost : PostRow := ⟨3, ⟨"market", 5, 7, Sha256.sha256 [], 1⟩⟩

def marketArchive : Archive :=
  ⟨{ ReachableStores.storyStart with posts := ⟨[marketPost], List.nodup_singleton _⟩ },
    ⟨[marketVersion], List.nodup_singleton _⟩, [], []⟩

/-- Its title, with signs and white space at its edges, finds the post; `b_c` is found as a
    literal only. -/
theorem search_iff_infix_sample :
    (∃ result, searchFoldV1 id (str marketVersion.title.toList) = .ok result ∧
      marketPost ∈ searchedPosts id marketArchive (some result.value)) ∧
    PostSearchPredicate id (some (searchLikePatternV1 "\\b_c".toList)) marketVersion ∧
    "a\\b_c".toList = sqlSearchFoldV1 id " A\\B_C\r".toList := by
  have h := search_iff_infix id
  refine ⟨?_, ?_, ?_⟩
  · exact h.2.2 (fun _ _ _ _ => rfl) marketArchive marketPost marketVersion
      (List.mem_singleton_self _) rfl
      (by decide +kernel) (by decide +kernel)
  · exact (h.1 (str "\\b_c".toList) ⟨"\\b_c".toList, 4⟩ (by decide +kernel) marketVersion).mpr
      (by decide +kernel)
  · exact h.2.1 " A\\B_C\r".toList ⟨"a\\b_c".toList, 5⟩ (by decide +kernel)

end Sample

end PredictionMarketMonitor.SearchFold
