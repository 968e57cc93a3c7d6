import PredictionMarketMonitor.CodePoints
import PredictionMarketMonitor.FallibleSteps
import PredictionMarketMonitor.JsonText

set_option autoImplicit false

/-!
# Reading JSON text

The standard library's reader: a document of any encoding is scanned by recursive
descent, with an object hook that sees the members in the order of the text.
Canonical text is read back to the value that was written.
-/
namespace PredictionMarketMonitor.JsonReader

open CanonicalJson CodePoints FallibleSteps

/-- What the reader produces; floats are of a type of their own. -/
inductive Document (F : Type)
  | null
  | bool (b : Bool)
  | int (i : ℤ)
  | float (x : F)
  | str (s : Str)
  | list (items : List (Document F))
  | dict (members : List (Str × Document F))

abbrev Members (F : Type) := List (Str × Document F)

section Depth
variable {F : Type}

mutual
def Document.depth : Document F → ℕ
  | .null | .bool _ | .int _ | .float _ | .str _ => 0
  | .list items => itemsDepth items + 1
  | .dict ms => membersDepth ms + 1

def itemsDepth : List (Document F) → ℕ
  | [] => 0
  | d :: rest => max d.depth (itemsDepth rest)

def membersDepth : Members F → ℕ
  | [] => 0
  | (_, d) :: rest => max d.depth (membersDepth rest)
end

end Depth

section Scanner
variable {F : Type} {ε : Type}

def isSpace (c : CodePoint) : Bool :=
  c = .scalar ' ' || c = .scalar '\t' || c = .scalar '\n' || c = .scalar '\r'

def skipSpace (s : Str) : Str := s.dropWhile isSpace

def keyword : List Char → Str → Option Str
  | [], s => some s
  | _ :: _, [] => none
  | c :: word, d :: s => if d = .scalar c then keyword word s else none

def hexValue : CodePoint → Option ℕ
  | .surrogate _ => none
  | .scalar c =>
    if c.isDigit then some (c.toNat - 48)
    else if 97 ≤ c.toNat ∧ c.toNat ≤ 102 then some (c.toNat - 87)
    else if 65 ≤ c.toNat ∧ c.toNat ≤ 70 then some (c.toNat - 55)
    else none

/-- The four digits after `\u`. -/
def hex4 : Str → Option (ℕ × Str)
  | a :: b :: c :: d :: rest => do
    return ((((← hexValue a) * 16 + (← hexValue b)) * 16 + (← hexValue c)) * 16 + (← hexValue d),
      rest)
  | _ => none

def lowEscape (s : Str) : Option (ℕ × Str) := do
  let digits ← keyword ['\\', 'u'] s
  let (unit, rest) ← hex4 digits
  if 0xdc00 ≤ unit ∧ unit ≤ 0xdfff then some (unit, rest) else none

/-- The code point of a `\u` escape; a high half takes a low half that follows it. -/
def unicodeEscape (s : Str) : Option (CodePoint × Str) := do
  let (unit, rest) ← hex4 s
  if 0xd800 ≤ unit ∧ unit ≤ 0xdbff then
    match lowEscape rest with
    | some (low, rest) =>
      return (← CodePoint.ofNat? (0x10000 + (unit - 0xd800) * 1024 + (low - 0xdc00)), rest)
    | none => return (← CodePoint.ofNat? unit, rest)
  else return (← CodePoint.ofNat? unit, rest)

def shortEscape (c : CodePoint) : Option CodePoint :=
  if c = .scalar '"' then some (.scalar '"')
  else if c = .scalar '\\' then some (.scalar '\\')
  else if c = .scalar '/' then some (.scalar '/')
  else if c = .scalar 'b' then some (.scalar (Char.ofNat 8))
  else if c = .scalar 'f' then some (.scalar (Char.ofNat 12))
  else if c = .scalar 'n' then some (.scalar '\n')
  else if c = .scalar 'r' then some (.scalar '\r')
  else if c = .scalar 't' then some (.scalar '\t')
  else none

def escape : Str → Option (CodePoint × Str)
  | [] => none
  | c :: rest =>
    if c = .scalar 'u' then unicodeEscape rest else (shortEscape c).map (fun d => (d, rest))

def isControl : CodePoint → Bool
  | .scalar c => c.toNat < 32
  | .surrogate _ => false

/-- `scanstring` after the opening quote; `strict` refuses control characters. -/
def scanString : ℕ → Str → Option (Str × Str)
  | 0, _ => none
  | _, [] => none
  | n + 1, c :: rest =>
    if c = .scalar '"' then some ([], rest)
    else if c = .scalar '\\' then do
      let (d, rest) ← escape rest
      let (s, rest) ← scanString n rest
      return (d :: s, rest)
    else if isControl c then none
    else do
      let (s, rest) ← scanString n rest
      return (c :: s, rest)

def digits : Str → List Char × Str
  | .scalar c :: rest =>
    if c.isDigit then (c :: (digits rest).1, (digits rest).2) else ([], .scalar c :: rest)
  | s => ([], s)

def sign : Str → List Char × Str
  | .scalar '-' :: rest => (['-'], rest)
  | s => ([], s)

/-- `0`, or digits that do not start with it. -/
def whole : Str → List Char × Str
  | .scalar '0' :: rest => (['0'], rest)
  | s => digits s

def fraction (s : Str) : List Char × Str :=
  match s with
  | .scalar '.' :: rest =>
    if (digits rest).1 = [] then ([], s) else ('.' :: (digits rest).1, (digits rest).2)
  | _ => ([], s)

def exponentSign : Str → List Char × Str
  | .scalar '-' :: rest => (['-'], rest)
  | .scalar '+' :: rest => (['+'], rest)
  | s => ([], s)

def exponent (s : Str) : List Char × Str :=
  match s with
  | .scalar c :: rest =>
    let (mark, tail) := exponentSign rest
    if (c = 'e' ∨ c = 'E') ∧ (digits tail).1 ≠ [] then
      (c :: mark ++ (digits tail).1, (digits tail).2)
    else ([], s)
  | _ => ([], s)

variable (readFloat : List Char → F)

def signedValue (mark ds : List Char) : ℤ :=
  if mark = [] then digitsValue ds else -(digitsValue ds : ℤ)

def scanNumber (s : Str) : Option (Document F × Str) :=
  let (mark, s) := sign s
  let (ds, s) := whole s
  let (frac, s) := fraction s
  let (exp, s) := exponent s
  if ds = [] then none
  else if frac = [] ∧ exp = [] then some (.int (signedValue mark ds), s)
  else some (.float (readFloat (mark ++ ds ++ frac ++ exp)), s)

def constants : List (List Char × Option (Document F)) :=
  [(['n', 'u', 'l', 'l'], some .null), (['t', 'r', 'u', 'e'], some (.bool true)),
   (['f', 'a', 'l', 's', 'e'], some (.bool false)), (['N', 'a', 'N'], none),
   (['I', 'n', 'f', 'i', 'n', 'i', 't', 'y'], none),
   (['-', 'I', 'n', 'f', 'i', 'n', 'i', 't', 'y'], none)]

def scanScalar (s : Str) : Option (Document F × Str) :=
  match constants.findSome? (fun (c : List Char × Option (Document F)) =>
    (keyword c.1 s).map (fun rest => (c.2.getD (.float (readFloat c.1)), rest))) with
  | some answer => some answer
  | none => scanNumber readFloat s

variable (hook : Members F → Except ε (Members F)) (invalid tooDeep : ε)

def afterColon (s : Str) : Option Str :=
  match skipSpace s with
  | .scalar ':' :: rest => some (skipSpace rest)
  | _ => none

def memberName (s : Str) : Option (Str × Str) :=
  match s with
  | .scalar '"' :: rest => scanString s.length rest
  | _ => none

mutual
/-- `scan_once`; the recursion limit admits as many containers inside one another as there
    are `levels`. -/
def scanOnce : ℕ → ℕ → Str → Except ε (Document F × Str)
  | _, 0, _ => .error invalid
  | _, _, [] => .error invalid
  | levels, n + 1, c :: rest =>
    if c = .scalar '"' then do
      let (s, rest) ← present (scanString (rest.length + 1) rest) invalid
      return (.str s, rest)
    else if c = .scalar '{' then do
      require (0 < levels) tooDeep
      match skipSpace rest with
      | .scalar '}' :: rest => return (.dict (← hook []), rest)
      | s => do
        let (members, rest) ← scanMembers (levels - 1) n s
        return (.dict (← hook members), rest)
    else if c = .scalar '[' then do
      require (0 < levels) tooDeep
      match skipSpace rest with
      | .scalar ']' :: rest => return (.list [], rest)
      | s => do
        let (items, rest) ← scanItems (levels - 1) n s
        return (.list items, rest)
    else present (scanScalar readFloat (c :: rest)) invalid

def scanItems : ℕ → ℕ → Str → Except ε (List (Document F) × Str)
  | _, 0, _ => .error invalid
  | levels, n + 1, s => do
    let (item, rest) ← scanOnce levels n s
    match skipSpace rest with
    | .scalar ',' :: rest => do
      let (items, rest) ← scanItems levels n (skipSpace rest)
      return (item :: items, rest)
    | .scalar ']' :: rest => return ([item], rest)
    | _ => throw invalid

def scanMembers : ℕ → ℕ → Str → Except ε (Members F × Str)
  | _, 0, _ => .error invalid
  | levels, n + 1, s => do
    let (name, rest) ← present (memberName s) invalid
    let rest ← present (afterColon rest) invalid
    let (value, rest) ← scanOnce levels n rest
    match skipSpace rest with
    | .scalar ',' :: rest => do
      let (members, rest) ← scanMembers levels n (skipSpace rest)
      return ((name, value) :: members, rest)
    | .scalar '}' :: rest => return ([(name, value)], rest)
    | _ => throw invalid
end

/-- `json.loads(raw, object_pairs_hook=hook)`. -/
def loads (levels : ℕ) (raw : List UInt8) : Except ε (Document F) := do
  let s ← present (decodeBytes (detectEncoding raw) raw) invalid
  let (document, rest) ← scanOnce readFloat hook invalid tooDeep levels s.length (skipSpace s)
  if skipSpace rest = [] then return document else throw invalid

end Scanner

section Values
variable {F : Type}

mutual
def document : Json → Document F
  | .null => .null
  | .bool b => .bool b
  | .int i => .int i
  | .str s => .str (str s)
  | .list items => .list (documents items)
  | .dict fields => .dict (members fields)

def documents : List Json → List (Document F)
  | [] => []
  | v :: rest => document v :: documents rest

def members : Fields → Members F
  | [] => []
  | (k, v) :: rest => (str k, document v) :: members rest
end

mutual
def UniqueKeys : Json → Prop
  | .null | .bool _ | .int _ | .str _ => True
  | .list items => UniqueItems items
  | .dict fields => (fields.map Prod.fst).Nodup ∧ UniqueFields fields

def UniqueItems : List Json → Prop
  | [] => True
  | v :: rest => UniqueKeys v ∧ UniqueItems rest

def UniqueFields : Fields → Prop
  | [] => True
  | (_, v) :: rest => UniqueKeys v ∧ UniqueFields rest
end

end Values

section Strings

theorem str_append (s t : Text) : str (s ++ t) = str s ++ str t := List.map_append

theorem str_cons (c : Char) (s : Text) : str (c :: s) = .scalar c :: str s := rfl

theorem hexValue_digit : ∀ i < 16,
    hexValue (.scalar (Sha256.hexDigits.getD i '0')) = some i := by
  decide

theorem hex4_hexString {n : ℕ} (hn : n < 16 ^ 4) (rest : Str) :
    hex4 (str (Sha256.hexString n 4) ++ rest) = some (n, rest) := by
  have hdigit (k : ℕ) := hexValue_digit (n / 16 ^ k % 16) (Nat.mod_lt _ (by decide))
  rw [hexString_succ, hexString_succ, hexString_succ, hexString_succ]
  change hex4 (_ :: _ :: _ :: _ :: rest) = _
  rw [hex4]
  simp only [hdigit, Option.bind_eq_bind, Option.bind_some, Option.pure_def, Option.some.injEq,
    Prod.mk.injEq, and_true]
  omega

theorem escape_unicode {n : ℕ} (hn : n < 0xd800) (rest : Str) :
    escape (str ('u' :: Sha256.hexString n 4) ++ rest) =
      some (.scalar (Char.ofNat n), rest) := by
  have hpoint : CodePoint.ofNat? n = some (.scalar (Char.ofNat n)) := by
    rw [CodePoint.ofNat?, dif_neg (by omega), if_pos (by omega)]
  rw [str_cons, List.cons_append, escape, if_pos rfl, unicodeEscape, hex4_hexString (by omega)]
  simp only [Option.bind_eq_bind, Option.bind_some]
  rw [if_neg (by omega), hpoint]
  rfl

theorem scanString_escaped {tail rest : Str} {e : CodePoint} (h : escape tail = some (e, rest))
    (n : ℕ) : scanString (n + 1) (.scalar '\\' :: tail) =
      (scanString n rest).map (fun p => (e :: p.1, p.2)) := by
  rw [scanString, if_neg (by decide), if_pos rfl, h]
  simp only [Option.bind_eq_bind, Option.bind_some]
  cases scanString n rest <;> rfl

theorem scanString_escapeChar (c : Char) (n : ℕ) (rest : Str) :
    scanString (n + 1) (str (escapeChar c) ++ rest) =
      (scanString n rest).map (fun p => (.scalar c :: p.1, p.2)) := by
  have hshort {d : Char} {e : CodePoint} (hd : d ≠ 'u') (he : shortEscape (.scalar d) = some e) :
      scanString (n + 1) (str ['\\', d] ++ rest) =
        (scanString n rest).map (fun p => (e :: p.1, p.2)) := by
    refine scanString_escaped ?_ n
    change escape (.scalar d :: rest) = some (e, rest)
    rw [escape, if_neg (by simpa using hd), he]
    rfl
  unfold escapeChar
  split_ifs with h1 h2 h3 h4 h5 h6 h7 h8
  · rw [h1]
    exact hshort (by decide) (by decide)
  · rw [h2]
    exact hshort (by decide) (by decide)
  · rw [h3]
    exact hshort (by decide) (by decide)
  · rw [h4]
    exact hshort (by decide) (by decide)
  · rw [h5]
    exact hshort (by decide) (by decide)
  · rw [← Char.ofNat_toNat c, h6]
    exact hshort (by decide) (by decide)
  · rw [← Char.ofNat_toNat c, h7]
    exact hshort (by decide) (by decide)
  · have hescape := @escape_unicode c.toNat (by omega) rest
    rw [Char.ofNat_toNat] at hescape
    exact scanString_escaped hescape n
  · change scanString (n + 1) (.scalar c :: rest) = _
    rw [scanString, if_neg (by simpa using h1), if_neg (by simpa using h2), isControl,
      if_neg (by simpa using h8)]
    cases scanString n rest <;> rfl

theorem scanString_quoted (s : Text) {n : ℕ} (hn : (s.flatMap escapeChar).length < n) (rest : Str) :
    scanString n (str (s.flatMap escapeChar) ++ .scalar '"' :: rest) = some (str s, rest) := by
  induction s generalizing n with
  | nil =>
    obtain ⟨m, rfl⟩ : ∃ m, n = m + 1 := ⟨n - 1, by omega⟩
    rfl
  | cons c s ih =>
    rw [List.flatMap_cons, List.length_append] at hn
    have hpos : 0 < (escapeChar c).length := by
      rcases escapeChar_head c with ⟨h, _⟩ | ⟨d, ds, h⟩ <;> rw [h] <;> simp
    obtain ⟨m, rfl⟩ : ∃ m, n = m + 1 := ⟨n - 1, by omega⟩
    rw [List.flatMap_cons, str_append, List.append_assoc, scanString_escapeChar, ih (by omega)]
    rfl

end Strings

section Numbers
variable {F : Type} (readFloat : List Char → F)

def Follows (rest : Str) : Prop :=
  rest = [] ∨ ∃ c tail, rest = .scalar c :: tail ∧ c ∈ [',', ']', '}']

theorem follows_cons {c : Char} (h : c ∈ [',', ']', '}']) (tail : Str) :
    Follows (.scalar c :: tail) := .inr ⟨c, tail, rfl, h⟩

theorem number_parts_follows {rest : Str} (h : Follows rest) :
    digits rest = ([], rest) ∧ fraction rest = ([], rest) ∧ exponent rest = ([], rest) := by
  rcases h with rfl | ⟨c, tail, rfl, hc⟩
  · exact ⟨rfl, rfl, rfl⟩
  · simp only [List.mem_cons, List.not_mem_nil, or_false] at hc
    rcases hc with rfl | rfl | rfl <;> exact ⟨rfl, rfl, by simp [exponent]⟩

theorem digits_append {ds : List Char} (hds : ∀ c ∈ ds, c.isDigit = true) {rest : Str}
    (hrest : digits rest = ([], rest)) : digits (str ds ++ rest) = (ds, rest) := by
  induction ds with
  | nil => exact hrest
  | cons c ds ih =>
    rw [str_cons, List.cons_append, digits, if_pos (hds c (by simp)),
      ih (fun d hd => hds d (by simp [hd]))]

theorem toDigits_head {n : ℕ} (hn : 0 < n) : ∃ d ds, Nat.toDigits 10 n = d :: ds ∧ d ≠ '0' := by
  induction n using Nat.strong_induction_on with
  | _ n ih =>
    rw [Nat.toDigits_eq_if (by decide)]
    by_cases hsmall : n < 10
    · rw [if_pos hsmall]
      have hdigit : ∀ k < 10, 0 < k → Nat.digitChar k ≠ '0' := by decide
      exact ⟨_, [], rfl, hdigit n hsmall hn⟩
    · rw [if_neg hsmall]
      obtain ⟨d, ds, heq, hne⟩ := ih (n / 10) (by omega) (by omega)
      exact ⟨d, _, by rw [heq]; rfl, hne⟩

theorem whole_toDigits (n : ℕ) {rest : Str} (hrest : digits rest = ([], rest)) :
    whole (str (Nat.toDigits 10 n) ++ rest) = (Nat.toDigits 10 n, rest) := by
  rcases Nat.eq_zero_or_pos n with rfl | hn
  · rfl
  · obtain ⟨d, ds, heq, hne⟩ := toDigits_head hn
    have hdigits := digits_append (@toDigits_isDigit n) hrest
    rw [heq] at hdigits ⊢
    rw [str_cons, List.cons_append] at hdigits ⊢
    unfold whole
    split
    · rename_i tail hzero
      exact absurd (CodePoint.scalar.inj (List.cons.inj hzero).1) hne
    · exact hdigits

theorem sign_digit {d : Char} (hd : d.isDigit = true) (tail : Str) :
    sign (.scalar d :: tail) = ([], .scalar d :: tail) := by
  unfold sign
  split
  · rename_i rest heq
    rw [CodePoint.scalar.inj (List.cons.inj heq).1] at hd
    exact absurd hd (by decide)
  · rfl

theorem scanNumber_parts {s tail rest : Str} {mark : List Char} {n : ℕ} (hsign : sign s = (mark, tail))
    (htail : tail = str (Nat.toDigits 10 n) ++ rest) (hrest : Follows rest) :
    scanNumber readFloat s = some (.int (signedValue mark (Nat.toDigits 10 n)), rest) := by
  obtain ⟨hdigits, hfraction, hexponent⟩ := number_parts_follows hrest
  rw [scanNumber, hsign, htail]
  dsimp only
  rw [whole_toDigits n hdigits]
  dsimp only
  rw [hfraction]
  dsimp only
  rw [hexponent]
  dsimp only
  rw [if_neg Nat.toDigits_ne_nil, if_pos ⟨rfl, rfl⟩]

theorem scanNumber_decimal (i : ℤ) {rest : Str} (hrest : Follows rest) :
    scanNumber readFloat (str (decimal i) ++ rest) = some (.int i, rest) := by
  unfold decimal
  by_cases hi : i < 0
  · rw [if_pos hi, str_cons, List.cons_append]
    have hsign : sign (.scalar '-' :: (str (Nat.toDigits 10 i.natAbs) ++ rest)) =
        (['-'], str (Nat.toDigits 10 i.natAbs) ++ rest) := rfl
    rw [scanNumber_parts readFloat hsign rfl hrest, signedValue, if_neg (by simp),
      digitsValue_toDigits]
    congr
    omega
  · rw [if_neg hi]
    have hsign : sign (str (Nat.toDigits 10 i.natAbs) ++ rest) =
        ([], str (Nat.toDigits 10 i.natAbs) ++ rest) := by
      cases hds : Nat.toDigits 10 i.natAbs with
      | nil => exact absurd hds Nat.toDigits_ne_nil
      | cons d ds =>
        have hd : d.isDigit = true := toDigits_isDigit d (by rw [hds]; simp)
        rw [str_cons, List.cons_append]
        exact sign_digit hd _
    rw [scanNumber_parts readFloat hsign rfl hrest, signedValue, if_pos rfl,
      digitsValue_toDigits]
    congr
    omega

theorem keyword_head {c d : Char} (h : d ≠ c) (word : List Char) (s : Str) :
    keyword (c :: word) (.scalar d :: s) = none := by
  rw [keyword, if_neg (by simpa using h)]

theorem scanScalar_number {s : Str} {d : Char} {tail : Str} (hs : s = .scalar d :: tail)
    (hd : d.isDigit = true ∨ (d = '-' ∧ ∃ e rest, tail = .scalar e :: rest ∧ e.isDigit = true)) :
    scanScalar readFloat s = scanNumber readFloat s := by
  have hnone : ∀ c ∈ @constants F, keyword c.1 s = none := by
    have hletter {c : Char} (hc : c.isDigit = false) (hm : c ≠ '-') : d ≠ c := by
      rintro rfl
      rcases hd with hd | hd
      · rw [hd] at hc
        exact absurd hc (by simp)
      · exact hm hd.1
    subst hs
    simp only [constants, List.forall_mem_cons, List.not_mem_nil, false_implies, implies_true,
      and_true]
    refine ⟨keyword_head (hletter (by decide) (by decide)) _ _,
      keyword_head (hletter (by decide) (by decide)) _ _,
      keyword_head (hletter (by decide) (by decide)) _ _,
      keyword_head (hletter (by decide) (by decide)) _ _,
      keyword_head (hletter (by decide) (by decide)) _ _, ?_⟩
    rcases hd with hd | ⟨rfl, e, rest, rfl, he⟩
    · refine keyword_head ?_ _ _
      rintro rfl
      exact absurd hd (by decide)
    · rw [keyword, if_pos rfl]
      refine keyword_head ?_ _ _
      rintro rfl
      exact absurd he (by decide)
  rw [scanScalar]
  rw [List.findSome?_eq_none_iff.mpr]
  intro c hc
  rw [hnone c hc]
  rfl

theorem scanScalar_decimal (i : ℤ) {rest : Str} (hrest : Follows rest) :
    scanScalar readFloat (str (decimal i) ++ rest) = some (.int i, rest) := by
  have hdigits := @toDigits_isDigit i.natAbs
  have hnumber := scanNumber_decimal readFloat i hrest
  unfold decimal at hnumber ⊢
  cases hds : Nat.toDigits 10 i.natAbs with
  | nil => exact absurd hds Nat.toDigits_ne_nil
  | cons d ds =>
    have hd : d.isDigit = true := hdigits d (by rw [hds]; simp)
    rw [hds] at hnumber
    by_cases hi : i < 0
    · rw [if_pos hi] at hnumber ⊢
      exact (scanScalar_number readFloat rfl (.inr ⟨rfl, d, _, rfl, hd⟩)).trans hnumber
    · rw [if_neg hi] at hnumber ⊢
      exact (scanScalar_number readFloat rfl (.inl hd)).trans hnumber

end Numbers

section RoundTrip
variable {F ε : Type} (readFloat : List Char → F) (hook : Members F → Except ε (Members F))
  (invalid tooDeep : ε)

theorem skipSpace_cons {c : Char} (h : isSpace (.scalar c) = false) (s : Str) :
    skipSpace (.scalar c :: s) = .scalar c :: s := by
  rw [skipSpace, List.dropWhile_cons_of_neg (by simp [h])]

theorem headKind_space {c : Char} (h : isSpace (.scalar c) = true) : headKind c = 6 := by
  simp only [isSpace, Bool.or_eq_true, decide_eq_true_eq, CodePoint.scalar.injEq] at h
  rcases h with ((rfl | rfl) | rfl) | rfl <;> rfl

theorem isSpace_number {c : Char} (h : c.isDigit = true ∨ c = '-') :
    isSpace (.scalar c) = false := by
  by_contra hspace
  simp only [Bool.not_eq_false, isSpace, Bool.or_eq_true, decide_eq_true_eq,
    CodePoint.scalar.injEq] at hspace
  rcases hspace with ((rfl | rfl) | rfl) | rfl <;> rcases h with h | h <;>
    exact absurd h (by decide)

theorem render_start (v : Json) : ∃ c cs, render v = c :: cs ∧
    isSpace (.scalar c) = false ∧ c ≠ ']' ∧ c ≠ '}' := by
  obtain ⟨c, cs, hrender, hkind, hbracket, hbrace⟩ := render_head v
  refine ⟨c, cs, hrender, ?_, hbracket, hbrace⟩
  cases v with
  | int i =>
    refine isSpace_number ?_
    rw [render, decimal] at hrender
    split at hrender
    · exact .inr (List.cons.inj hrender).1.symm
    · exact .inl (toDigits_isDigit c (by rw [hrender]; simp))
  | null | str _ | list _ | dict _ =>
    by_contra hspace
    rw [headKind_space (by simpa using hspace)] at hkind
    exact absurd hkind (by simp [Json.kind])
  | bool b =>
    by_contra hspace
    rw [headKind_space (by simpa using hspace)] at hkind
    cases b <;> exact absurd hkind (by simp [Json.kind])

theorem skipSpace_render (v : Json) (rest : Str) :
    skipSpace (str (render v) ++ rest) = str (render v) ++ rest := by
  obtain ⟨c, cs, hrender, hspace, _⟩ := render_start v
  rw [hrender, str_cons, List.cons_append]
  exact skipSpace_cons hspace _

theorem quote_eq (s : Text) (rest : Str) :
    str (quote s) ++ rest =
      .scalar '"' :: (str (s.flatMap escapeChar) ++ .scalar '"' :: rest) := by
  rw [quote, List.cons_append, str_cons, str_append, List.cons_append, List.append_assoc]
  rfl

theorem skipSpace_follows {c : Char} (h : c ∈ [',', ']', '}', ':', '"']) (tail : Str) :
    skipSpace (.scalar c :: tail) = .scalar c :: tail := by
  refine skipSpace_cons ?_ tail
  simp only [List.mem_cons, List.not_mem_nil, or_false] at h
  rcases h with rfl | rfl | rfl | rfl | rfl <;> rfl

theorem memberName_quote (s : Text) (rest : Str) :
    memberName (str (quote s) ++ rest) = some (str s, rest) := by
  rw [quote_eq, memberName]
  refine scanString_quoted s ?_ rest
  simp only [List.length_cons, List.length_append, str, List.length_map]
  omega

theorem afterColon_render (v : Json) (rest : Str) :
    afterColon (.scalar ':' :: (str (render v) ++ rest)) = some (str (render v) ++ rest) := by
  rw [afterColon, skipSpace_follows (by simp)]
  exact congrArg some (skipSpace_render v rest)

theorem renderItems_follows (items : List Json) (rest : Str) :
    Follows (str (renderItems items) ++ .scalar ']' :: rest) := by
  cases items with
  | nil => exact follows_cons (by simp) rest
  | cons v items =>
    rw [renderItems, List.cons_append, str_cons]
    exact follows_cons (by simp) _

theorem renderFields_follows (fields : Fields) (rest : Str) :
    Follows (str (renderFields fields) ++ .scalar '}' :: rest) := by
  cases fields with
  | nil => exact follows_cons (by simp) rest
  | cons p fields =>
    obtain ⟨k, v⟩ := p
    rw [renderFields, List.cons_append, List.cons_append, str_cons]
    exact follows_cons (by simp) _

/-- A hook that keeps the members of an object without repeated names. -/
def KeepsUnique : Prop := ∀ fields : Fields, (fields.map Prod.fst).Nodup →
  hook (members fields) = .ok (members fields)

variable {hook}

section Steps
variable {readFloat : List Char → F} {invalid tooDeep : ε} {levels n : ℕ} {s tail rest : Str}

theorem scanItems_last {item : Document F}
    (h : scanOnce readFloat hook invalid tooDeep levels n s = .ok (item, .scalar ']' :: rest)) :
    scanItems readFloat hook invalid tooDeep levels (n + 1) s = .ok ([item], rest) := by
  rw [scanItems, h, ok_bind]
  dsimp only
  rw [skipSpace_follows (by simp)]
  rfl

theorem scanItems_more {item : Document F} {items : List (Document F)}
    (h : scanOnce readFloat hook invalid tooDeep levels n s = .ok (item, .scalar ',' :: tail))
    (hmore : scanItems readFloat hook invalid tooDeep levels n (skipSpace tail) = .ok (items, rest)) :
    scanItems readFloat hook invalid tooDeep levels (n + 1) s = .ok (item :: items, rest) := by
  rw [scanItems, h, ok_bind]
  dsimp only
  rw [skipSpace_follows (by simp)]
  exact bind_eq_ok.mpr ⟨_, hmore, rfl⟩

theorem scanMembers_last {name : Str} {value : Document F} {after start : Str}
    (hname : memberName s = some (name, after)) (hcolon : afterColon after = some start)
    (h : scanOnce readFloat hook invalid tooDeep levels n start = .ok (value, .scalar '}' :: rest)) :
    scanMembers readFloat hook invalid tooDeep levels (n + 1) s = .ok ([(name, value)], rest) := by
  rw [scanMembers]
  refine bind_eq_ok.mpr ⟨_, present_eq_ok.mpr hname, bind_eq_ok.mpr
    ⟨_, present_eq_ok.mpr hcolon, bind_eq_ok.mpr ⟨_, h, ?_⟩⟩⟩
  dsimp only
  rw [skipSpace_follows (by simp)]
  rfl

theorem scanMembers_more {name : Str} {value : Document F} {more : Members F} {after start : Str}
    (hname : memberName s = some (name, after)) (hcolon : afterColon after = some start)
    (h : scanOnce readFloat hook invalid tooDeep levels n start = .ok (value, .scalar ',' :: tail))
    (hmore : scanMembers readFloat hook invalid tooDeep levels n (skipSpace tail) = .ok (more, rest)) :
    scanMembers readFloat hook invalid tooDeep levels (n + 1) s = .ok ((name, value) :: more, rest) := by
  rw [scanMembers]
  refine bind_eq_ok.mpr ⟨_, present_eq_ok.mpr hname, bind_eq_ok.mpr
    ⟨_, present_eq_ok.mpr hcolon, bind_eq_ok.mpr ⟨_, h, ?_⟩⟩⟩
  dsimp only
  rw [skipSpace_follows (by simp)]
  exact bind_eq_ok.mpr ⟨_, hmore, rfl⟩

theorem scanOnce_list {items : List (Document F)} {d : Char} {after : Str}
    (hstart : skipSpace tail = .scalar d :: after) (hd : d ≠ ']')
    (h : scanItems readFloat hook invalid tooDeep levels n (.scalar d :: after) = .ok (items, rest)) :
    scanOnce readFloat hook invalid tooDeep (levels + 1) (n + 1) (.scalar '[' :: tail) =
      .ok (.list items, rest) := by
  rw [scanOnce, if_neg (by decide), if_neg (by decide), if_pos rfl, require_of levels.succ_pos,
    ok_bind, hstart, Nat.add_sub_cancel]
  split
  · rename_i heq
    exact absurd (CodePoint.scalar.inj (List.cons.inj heq).1) hd
  · rw [h]
    rfl

theorem scanOnce_dict {more kept : Members F} {d : Char} {after : Str}
    (hstart : skipSpace tail = .scalar d :: after) (hd : d ≠ '}')
    (h : scanMembers readFloat hook invalid tooDeep levels n (.scalar d :: after) = .ok (more, rest))
    (hkept : hook more = .ok kept) :
    scanOnce readFloat hook invalid tooDeep (levels + 1) (n + 1) (.scalar '{' :: tail) =
      .ok (.dict kept, rest) := by
  rw [scanOnce, if_neg (by decide), if_pos rfl, require_of levels.succ_pos, ok_bind, hstart,
    Nat.add_sub_cancel]
  split
  · rename_i heq
    exact absurd (CodePoint.scalar.inj (List.cons.inj heq).1) hd
  · rw [h, ok_bind]
    dsimp only
    rw [hkept]
    rfl

end Steps

mutual
theorem scanOnce_render (hhook : KeepsUnique hook) (v : Json) (hv : UniqueKeys v) {levels n : ℕ}
    (hlevels : (document v : Document F).depth ≤ levels) (hn : (render v).length ≤ n) {rest : Str}
    (hrest : Follows rest) :
    scanOnce readFloat hook invalid tooDeep levels n (str (render v) ++ rest) =
      .ok (document v, rest) := by
  obtain ⟨c, cs, hrender, hkind, _⟩ := render_head v
  obtain ⟨m, rfl⟩ : ∃ m, n = m + 1 := by
    rw [hrender, List.length_cons] at hn
    exact ⟨n - 1, by omega⟩
  cases v with
  | null => rfl
  | bool b => cases b <;> rfl
  | int i =>
    have hscan := scanScalar_decimal readFloat i hrest
    have hdecimal : decimal i = c :: cs := hrender
    have hne {d : Char} (hd : headKind d ≠ 6) : ¬CodePoint.scalar c = .scalar d := by
      intro heq
      rw [CodePoint.scalar.inj heq] at hkind
      exact hd hkind
    rw [hdecimal, str_cons, List.cons_append] at hscan
    rw [hrender, str_cons, List.cons_append, scanOnce, if_neg (hne (by decide)),
      if_neg (hne (by decide)), if_neg (hne (by decide)), hscan]
    rfl
  | str s =>
    have hlength : (s.flatMap escapeChar).length <
        (str (s.flatMap escapeChar) ++ .scalar '"' :: rest).length + 1 := by
      rw [List.length_append, str, List.length_map]
      omega
    rw [render, quote_eq, scanOnce, if_pos rfl, scanString_quoted s hlength rest]
    rfl
  | list items =>
    rw [render, List.length_append, List.length_cons, List.length_drop] at hn
    obtain ⟨k, rfl⟩ : ∃ k, levels = k + 1 := by
      rw [document, Document.depth] at hlevels
      exact ⟨levels - 1, by omega⟩
    have hinner := Nat.le_of_add_le_add_right hlevels
    cases items with
    | nil => rfl
    | cons v items =>
      obtain ⟨d, ds, hd, hspace, hne, _⟩ := render_start v
      have hlength : 1 ≤ (renderItems (v :: items)).length := by
        rw [renderItems, List.cons_append, List.length_cons]
        omega
      have hitems := scanItems_render hhook v items hv (n := m) hinner
        (by simp only [List.length_singleton] at hn; omega) rest
      have htext : str (render (.list (v :: items))) ++ rest = .scalar '[' ::
          (str (render v) ++ (str (renderItems items) ++ .scalar ']' :: rest)) := by
        simp [render, renderItems, str]
      rw [htext]
      rw [hd, str_cons, List.cons_append] at hitems ⊢
      exact scanOnce_list (skipSpace_cons hspace _) hne hitems
  | dict fields =>
    rw [render, List.length_append, List.length_cons, List.length_drop] at hn
    obtain ⟨j, rfl⟩ : ∃ j, levels = j + 1 := by
      rw [document, Document.depth] at hlevels
      exact ⟨levels - 1, by omega⟩
    have hinner := Nat.le_of_add_le_add_right hlevels
    cases fields with
    | nil =>
      change scanOnce readFloat hook invalid tooDeep (j + 1) (m + 1)
        (.scalar '{' :: .scalar '}' :: rest) = _
      rw [scanOnce, if_neg (by decide), if_pos rfl, require_of j.succ_pos, ok_bind,
        skipSpace_follows (by simp)]
      exact bind_eq_ok.mpr ⟨_, hhook [] List.nodup_nil, rfl⟩
    | cons p fields =>
      obtain ⟨k, v⟩ := p
      have hlength : 1 ≤ (renderFields ((k, v) :: fields)).length := by
        rw [renderFields, List.cons_append, List.cons_append, List.length_cons]
        omega
      have hmembers := scanMembers_render hhook k v fields hv.2 (n := m) hinner
        (by simp only [List.length_singleton] at hn; omega) rest
      have htext : str (render (.dict ((k, v) :: fields))) ++ rest = .scalar '{' ::
          (str (quote k) ++ .scalar ':' ::
            (str (render v) ++ (str (renderFields fields) ++ .scalar '}' :: rest))) := by
        simp [render, renderFields, str]
      rw [htext]
      rw [quote_eq] at hmembers ⊢
      exact scanOnce_dict (skipSpace_follows (by simp) _) (by decide) hmembers (hhook _ hv.1)
termination_by n

theorem scanItems_render (hhook : KeepsUnique hook) (v : Json) (items : List Json)
    (hv : UniqueItems (v :: items)) {levels n : ℕ}
    (hlevels : itemsDepth (documents (v :: items) : List (Document F)) ≤ levels)
    (hn : (renderItems (v :: items)).length ≤ n) (rest : Str) :
    scanItems readFloat hook invalid tooDeep levels n
        (str (render v) ++ (str (renderItems items) ++ .scalar ']' :: rest)) =
      .ok (documents (v :: items), rest) := by
  rw [renderItems, List.cons_append, List.length_cons, List.length_append] at hn
  obtain ⟨m, rfl⟩ : ∃ m, n = m + 1 := ⟨n - 1, by omega⟩
  obtain ⟨hone, hrest⟩ := max_le_iff.mp hlevels
  have hfirst := scanOnce_render hhook v hv.1 (n := m) hone (by omega)
    (renderItems_follows items rest)
  cases items with
  | nil => exact scanItems_last hfirst
  | cons w items =>
    have hmore := scanItems_render hhook w items hv.2 (n := m) hrest (by omega) rest
    have htext : str (renderItems (w :: items)) ++ .scalar ']' :: rest = .scalar ',' ::
        (str (render w) ++ (str (renderItems items) ++ .scalar ']' :: rest)) := by
      simp [renderItems, str]
    rw [htext] at hfirst ⊢
    exact scanItems_more hfirst (by rw [skipSpace_render]; exact hmore)
termination_by n

theorem scanMembers_render (hhook : KeepsUnique hook) (k : Text) (v : Json) (fields : Fields)
    (hv : UniqueFields ((k, v) :: fields)) {levels n : ℕ}
    (hlevels : membersDepth (members ((k, v) :: fields) : Members F) ≤ levels)
    (hn : (renderFields ((k, v) :: fields)).length ≤ n) (rest : Str) :
    scanMembers readFloat hook invalid tooDeep levels n (str (quote k) ++ .scalar ':' ::
        (str (render v) ++ (str (renderFields fields) ++ .scalar '}' :: rest))) =
      .ok (members ((k, v) :: fields), rest) := by
  simp only [renderFields, List.cons_append, List.length_cons, List.length_append] at hn
  obtain ⟨m, rfl⟩ : ∃ m, n = m + 1 := ⟨n - 1, by omega⟩
  obtain ⟨hone, hrest⟩ := max_le_iff.mp hlevels
  have hvalue := scanOnce_render hhook v hv.1 (n := m) hone (by omega)
    (renderFields_follows fields rest)
  cases fields with
  | nil => exact scanMembers_last (memberName_quote k _) (afterColon_render v _) hvalue
  | cons p fields =>
    obtain ⟨l, w⟩ := p
    have hmore := scanMembers_render hhook l w fields hv.2 (n := m) hrest (by omega) rest
    have htext : str (renderFields ((l, w) :: fields)) ++ .scalar '}' :: rest = .scalar ',' ::
        (str (quote l) ++ .scalar ':' ::
          (str (render w) ++ (str (renderFields fields) ++ .scalar '}' :: rest))) := by
      simp [renderFields, str]
    rw [htext] at hvalue ⊢
    refine scanMembers_more (memberName_quote k _) (afterColon_render v _) hvalue ?_
    rw [quote_eq] at hmore ⊢
    rw [skipSpace_follows (by simp)]
    exact hmore
termination_by n
end

def Printable (s : Text) : Prop := s.all (fun d => 32 ≤ d.toNat) = true

instance (s : Text) : Decidable (Printable s) := inferInstanceAs (Decidable (_ = _))

theorem printable_append {s t : Text} : Printable (s ++ t) ↔ Printable s ∧ Printable t := by
  rw [Printable, Printable, Printable, List.all_append, Bool.and_eq_true]

theorem printable_cons {c : Char} {s : Text} :
    Printable (c :: s) ↔ 32 ≤ c.toNat ∧ Printable s := by
  rw [Printable, Printable, List.all_cons, Bool.and_eq_true, decide_eq_true_eq]

theorem printable_of_mem {s : Text} (h : ∀ d ∈ s, 32 ≤ d.toNat) : Printable s :=
  List.all_eq_true.mpr fun d hd => decide_eq_true (h d hd)

theorem mem_printable {s : Text} (h : Printable s) {d : Char} (hd : d ∈ s) : 32 ≤ d.toNat :=
  of_decide_eq_true (List.all_eq_true.mp h d hd)

theorem hexEscape_printable (c : Char) : Printable (hexEscape c) := by
  have hdigit : ∀ i < 16, 32 ≤ (Sha256.hexDigits.getD i '0').toNat := by decide
  refine printable_append.mpr ⟨by decide, printable_of_mem fun d hd => ?_⟩
  obtain ⟨i, _, rfl⟩ := List.mem_map.mp hd
  exact hdigit _ (Nat.mod_lt _ (by decide))

theorem escapeChar_printable (c : Char) : Printable (escapeChar c) := by
  unfold escapeChar
  split_ifs with h1 h2 h3 h4 h5 h6 h7 h8
  · decide
  · decide
  · decide
  · decide
  · decide
  · decide
  · decide
  · exact hexEscape_printable c
  · exact printable_cons.mpr ⟨by omega, by decide⟩

theorem quote_printable (s : Text) : Printable (quote s) := by
  have hbody : Printable (s.flatMap escapeChar) := by
    refine printable_of_mem fun d hd => ?_
    obtain ⟨c, _, hd⟩ := List.mem_flatMap.mp hd
    exact mem_printable (escapeChar_printable c) hd
  exact printable_append.mpr ⟨printable_cons.mpr ⟨by decide, hbody⟩, by decide⟩

theorem toDigits_printable (n : ℕ) : Printable (Nat.toDigits 10 n) := by
  refine printable_of_mem fun d hd => ?_
  have h := toDigits_isDigit d hd
  simp only [Char.isDigit, Bool.and_eq_true, decide_eq_true_eq, ge_iff_le,
    UInt32.le_iff_toNat_le] at h
  have hle : 48 ≤ d.toNat := h.1
  omega

theorem decimal_printable (i : ℤ) : Printable (decimal i) := by
  unfold decimal
  split
  · exact printable_cons.mpr ⟨by decide, toDigits_printable _⟩
  · exact toDigits_printable _

theorem printable_drop {s : Text} (h : Printable s) (k : ℕ) : Printable (s.drop k) :=
  printable_of_mem fun _ hd => mem_printable h (List.mem_of_mem_drop hd)

mutual
theorem render_printable (v : Json) : Printable (render v) := by
  cases v with
  | null => rfl
  | bool b => cases b <;> rfl
  | int i => exact decimal_printable i
  | str s => exact quote_printable s
  | list items =>
    exact printable_append.mpr ⟨printable_cons.mpr
      ⟨by decide, printable_drop (renderItems_printable items) 1⟩, rfl⟩
  | dict fields =>
    exact printable_append.mpr ⟨printable_cons.mpr
      ⟨by decide, printable_drop (renderFields_printable fields) 1⟩, rfl⟩

theorem renderItems_printable (items : List Json) : Printable (renderItems items) := by
  cases items with
  | nil => rfl
  | cons v items =>
    exact printable_append.mpr ⟨printable_cons.mpr ⟨by decide, render_printable v⟩,
      renderItems_printable items⟩

theorem renderFields_printable (fields : Fields) : Printable (renderFields fields) := by
  cases fields with
  | nil => rfl
  | cons p fields =>
    obtain ⟨k, v⟩ := p
    refine printable_append.mpr ⟨?_, renderFields_printable fields⟩
    refine printable_append.mpr ⟨printable_cons.mpr ⟨by decide, quote_printable k⟩, ?_⟩
    exact printable_cons.mpr ⟨by decide, render_printable v⟩
end

theorem render_ascii_head (v : Json) : ∃ c cs, render v = c :: cs ∧ c.toNat < 128 := by
  cases v with
  | null => exact ⟨'n', _, rfl, by decide⟩
  | bool b =>
    cases b with
    | true => exact ⟨'t', _, rfl, by decide⟩
    | false => exact ⟨'f', _, rfl, by decide⟩
  | int i =>
    by_cases hi : i < 0
    · exact ⟨'-', _, by rw [render, decimal, if_pos hi], by decide⟩
    · cases hds : Nat.toDigits 10 i.natAbs with
      | nil => exact absurd hds Nat.toDigits_ne_nil
      | cons d ds =>
        have hascii := isAscii_toDigits i.natAbs
        rw [hds, IsAscii, List.all_cons, Bool.and_eq_true, decide_eq_true_eq] at hascii
        exact ⟨d, ds, by rw [render, decimal, if_neg hi, hds], hascii.1⟩
  | str s => exact ⟨'"', _, by rw [render, quote, List.cons_append], by decide⟩
  | list items => exact ⟨'[', _, by rw [render, List.cons_append], by decide⟩
  | dict fields => exact ⟨'{', _, by rw [render, List.cons_append], by decide⟩

theorem decode_render (v : Json) :
    decodeBytes (detectEncoding (encodeText (render v))) (encodeText (render v)) =
      some (str (render v)) := by
  obtain ⟨c, cs, hrender, hascii⟩ := render_ascii_head v
  have hprintable := render_printable v
  rw [hrender] at hprintable ⊢
  have hdetect : detectEncoding (encodeText (c :: cs)) = .utf8 := by
    refine detectEncoding_utf8 hascii fun d hd => ?_
    have h := mem_printable hprintable hd
    omega
  rw [hdetect]
  exact decodeUtf8_utf8 (c :: cs)

theorem loads_render (hhook : KeepsUnique hook) {v : Json} (hv : UniqueKeys v) {levels : ℕ}
    (hlevels : (document v : Document F).depth ≤ levels) :
    loads readFloat hook invalid tooDeep levels (encodeText (render v)) = .ok (document v) := by
  have hlength : (render v).length ≤ (str (render v)).length := by rw [str, List.length_map]
  have hscan := scanOnce_render readFloat invalid tooDeep hhook v hv hlevels hlength (.inl rfl)
  have hskip := skipSpace_render v []
  rw [List.append_nil] at hscan hskip
  rw [loads, decode_render, present, ok_bind, hskip, hscan]
  rfl

end RoundTrip

section Unique
variable {F ε : Type} {readFloat : List Char → F} {hook : Members F → Except ε (Members F)}
  {invalid tooDeep : ε}

mutual
def Document.Unique : Document F → Prop
  | .null | .bool _ | .int _ | .float _ | .str _ => True
  | .list items => UniqueDocuments items
  | .dict ms => (ms.map Prod.fst).Nodup ∧ UniqueMembers ms

def UniqueDocuments : List (Document F) → Prop
  | [] => True
  | d :: rest => d.Unique ∧ UniqueDocuments rest

def UniqueMembers : Members F → Prop
  | [] => True
  | (_, d) :: rest => d.Unique ∧ UniqueMembers rest
end

def ChecksUnique (hook : Members F → Except ε (Members F)) : Prop :=
  ∀ ms kept, hook ms = .ok kept → kept = ms ∧ (ms.map Prod.fst).Nodup

theorem scanScalar_read {s rest : Str} {d : Document F}
    (h : scanScalar readFloat s = some (d, rest)) : d.Unique ∧ d.depth = 0 := by
  have hnumber (h : scanNumber readFloat s = some (d, rest)) : d.Unique ∧ d.depth = 0 := by
    unfold scanNumber at h
    dsimp only at h
    split_ifs at h
    · rw [← (Prod.mk.inj (Option.some.inj h)).1]
      exact ⟨trivial, rfl⟩
    · rw [← (Prod.mk.inj (Option.some.inj h)).1]
      exact ⟨trivial, rfl⟩
  unfold scanScalar at h
  split at h
  · rename_i answer hanswer
    obtain ⟨c, hc, hkeyword⟩ := List.exists_of_findSome?_eq_some hanswer
    obtain ⟨tail, _, rfl⟩ := Option.map_eq_some_iff.mp hkeyword
    rw [← (Prod.mk.inj (Option.some.inj h)).1]
    simp only [constants, List.mem_cons, List.not_mem_nil, or_false] at hc
    rcases hc with rfl | rfl | rfl | rfl | rfl | rfl <;> exact ⟨trivial, rfl⟩
  · exact hnumber h

theorem scan_read (hhook : ChecksUnique hook) (n : ℕ) :
    (∀ levels s d rest, scanOnce readFloat hook invalid tooDeep levels n s = .ok (d, rest) →
      d.Unique ∧ d.depth ≤ levels) ∧
    (∀ levels s ds rest, scanItems readFloat hook invalid tooDeep levels n s = .ok (ds, rest) →
      UniqueDocuments ds ∧ itemsDepth ds ≤ levels) ∧
    (∀ levels s ms rest, scanMembers readFloat hook invalid tooDeep levels n s = .ok (ms, rest) →
      UniqueMembers ms ∧ membersDepth ms ≤ levels) := by
  induction n with
  | zero =>
    refine ⟨?_, ?_, ?_⟩
    · intro levels s d rest h
      rw [scanOnce] at h
      cases h
    · intro levels s ds rest h
      rw [scanItems] at h
      cases h
    · intro levels s ms rest h
      rw [scanMembers] at h
      cases h
  | succ n ih =>
    obtain ⟨hvalue, hitems, hmembers⟩ := ih
    refine ⟨?_, ?_, ?_⟩
    · intro levels s d rest h
      cases s with
      | nil =>
        rw [scanOnce] at h
        · cases h
        · simp
      | cons c tail =>
        rw [scanOnce] at h
        split_ifs at h
        · obtain ⟨answer, _, h⟩ := bind_eq_ok.mp h
          rw [← (Prod.mk.inj (Except.ok.inj h)).1]
          exact ⟨trivial, Nat.zero_le _⟩
        · obtain ⟨hlevels, h⟩ := require_bind.mp h
          split at h
          · obtain ⟨kept, hkept, h⟩ := bind_eq_ok.mp h
            obtain ⟨rfl, hnodup⟩ := hhook _ _ hkept
            rw [← (Prod.mk.inj (Except.ok.inj h)).1]
            exact ⟨⟨hnodup, trivial⟩, hlevels⟩
          · obtain ⟨answer, hanswer, h⟩ := bind_eq_ok.mp h
            obtain ⟨kept, hkept, h⟩ := bind_eq_ok.mp h
            obtain ⟨rfl, hnodup⟩ := hhook _ _ hkept
            obtain ⟨hunique, hdepth⟩ := hmembers _ _ _ _ hanswer
            rw [← (Prod.mk.inj (Except.ok.inj h)).1, Document.depth]
            exact ⟨⟨hnodup, hunique⟩, by omega⟩
        · obtain ⟨hlevels, h⟩ := require_bind.mp h
          split at h
          · rw [← (Prod.mk.inj (Except.ok.inj h)).1]
            exact ⟨trivial, hlevels⟩
          · obtain ⟨answer, hanswer, h⟩ := bind_eq_ok.mp h
            obtain ⟨hunique, hdepth⟩ := hitems _ _ _ _ hanswer
            rw [← (Prod.mk.inj (Except.ok.inj h)).1, Document.depth]
            exact ⟨hunique, by omega⟩
        · obtain ⟨hunique, hdepth⟩ := scanScalar_read (present_eq_ok.mp h)
          exact ⟨hunique, hdepth.trans_le (Nat.zero_le _)⟩
    · intro levels s ds rest h
      rw [scanItems] at h
      obtain ⟨first, hfirst, h⟩ := bind_eq_ok.mp h
      obtain ⟨hunique, hdepth⟩ := hvalue _ _ _ _ hfirst
      dsimp only at h
      split at h
      · obtain ⟨more, hmore, h⟩ := bind_eq_ok.mp h
        obtain ⟨hrest, hwithin⟩ := hitems _ _ _ _ hmore
        rw [← (Prod.mk.inj (Except.ok.inj h)).1]
        exact ⟨⟨hunique, hrest⟩, max_le hdepth hwithin⟩
      · rw [← (Prod.mk.inj (Except.ok.inj h)).1]
        exact ⟨⟨hunique, trivial⟩, max_le hdepth (Nat.zero_le _)⟩
      · cases h
    · intro levels s ms rest h
      rw [scanMembers] at h
      obtain ⟨name, _, h⟩ := bind_eq_ok.mp h
      obtain ⟨start, _, h⟩ := bind_eq_ok.mp h
      obtain ⟨first, hfirst, h⟩ := bind_eq_ok.mp h
      obtain ⟨hunique, hdepth⟩ := hvalue _ _ _ _ hfirst
      dsimp only at h
      split at h
      · obtain ⟨more, hmore, h⟩ := bind_eq_ok.mp h
        obtain ⟨hrest, hwithin⟩ := hmembers _ _ _ _ hmore
        rw [← (Prod.mk.inj (Except.ok.inj h)).1]
        exact ⟨⟨hunique, hrest⟩, max_le hdepth hwithin⟩
      · rw [← (Prod.mk.inj (Except.ok.inj h)).1]
        exact ⟨⟨hunique, trivial⟩, max_le hdepth (Nat.zero_le _)⟩
      · cases h

theorem loads_read (hhook : ChecksUnique hook) {levels : ℕ} {raw : List UInt8} {d : Document F}
    (h : loads readFloat hook invalid tooDeep levels raw = .ok d) :
    d.Unique ∧ d.depth ≤ levels := by
  obtain ⟨s, _, h⟩ := bind_eq_ok.mp h
  obtain ⟨answer, hanswer, h⟩ := bind_eq_ok.mp h
  dsimp only at h
  split_ifs at h
  rw [← Except.ok.inj h]
  exact (scan_read hhook _).1 _ _ _ _ hanswer

end Unique

end PredictionMarketMonitor.JsonReader
