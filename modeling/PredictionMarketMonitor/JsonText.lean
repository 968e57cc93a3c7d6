import PredictionMarketMonitor.CanonicalJson

set_option autoImplicit false

/-!
# Canonical text determines its value

Every rendering is followed, in a longer text, by a comma, a closing bracket or
nothing. Under that condition the renderer is injective even with a remainder,
so two values with the same bytes have the same normal form.
-/
namespace PredictionMarketMonitor.CanonicalJson

open Sha256 (hexDigits hexString)

section Hexadecimal

theorem hexString_succ (n k : ℕ) :
    hexString n (k + 1) = hexDigits.getD (n / 16 ^ k % 16) '0' :: hexString n k := by
  rw [hexString, List.range_succ, List.reverse_append]
  rfl

theorem hexString_length (n k : ℕ) : (hexString n k).length = k := by
  simp [hexString]

theorem hexDigit_injective : ∀ i < 16, ∀ j < 16,
    hexDigits.getD i '0' = hexDigits.getD j '0' → i = j := by
  decide

/-- `k` digits determine a number below `16 ^ k`. -/
theorem hexString_injective {n m k : ℕ} (h : hexString n k = hexString m k) :
    n % 16 ^ k = m % 16 ^ k := by
  induction k with
  | zero => simp [Nat.mod_one]
  | succ k ih =>
    rw [hexString_succ, hexString_succ, List.cons.injEq] at h
    have hdigit := hexDigit_injective _ (Nat.mod_lt _ (by decide)) _ (Nat.mod_lt _ (by decide)) h.1
    have hrest := ih h.2
    rw [Nat.pow_succ, Nat.mod_mul, Nat.mod_mul, hdigit, hrest]

end Hexadecimal

section Decimal

def Ends (rest : Text) : Prop := ∀ c tail, rest = c :: tail → c.isDigit = false

theorem ends_nil : Ends [] := fun _ _ h => absurd h (by simp)

theorem ends_cons {c : Char} {rest : Text} (h : c.isDigit = false) : Ends (c :: rest) := by
  intro d tail heq
  rw [← (List.cons.inj heq).1]
  exact h

theorem digits_split {ds es r s : Text} (hds : ∀ c ∈ ds, c.isDigit = true)
    (hes : ∀ c ∈ es, c.isDigit = true) (hr : Ends r) (hs : Ends s) (h : ds ++ r = es ++ s) :
    ds = es ∧ r = s := by
  induction ds generalizing es with
  | nil =>
    cases es with
    | nil => exact ⟨rfl, h⟩
    | cons e es =>
      have hend := hr e (es ++ s) h
      rw [hes e (by simp)] at hend
      exact absurd hend (by simp)
  | cons d ds ih =>
    cases es with
    | nil =>
      have hend := hs d (ds ++ r) h.symm
      rw [hds d (by simp)] at hend
      exact absurd hend (by simp)
    | cons e es =>
      obtain ⟨hhead, htail⟩ := List.cons.inj h
      have hrest := ih (fun c hc => hds c (by simp [hc])) (fun c hc => hes c (by simp [hc])) htail
      exact ⟨by rw [hhead, hrest.1], hrest.2⟩

def digitsValue (ds : Text) : ℕ := ds.foldl (fun v c => 10 * v + (c.toNat - 48)) 0

theorem digitsValue_append_singleton (ds : Text) (c : Char) :
    digitsValue (ds ++ [c]) = 10 * digitsValue ds + (c.toNat - 48) := by
  simp [digitsValue]

theorem digitChar_value : ∀ d < 10, (Nat.digitChar d).toNat - 48 = d := by decide

theorem digitsValue_toDigits (n : ℕ) : digitsValue (Nat.toDigits 10 n) = n := by
  induction n using Nat.strong_induction_on with
  | _ n ih =>
    rw [Nat.toDigits_eq_if (by decide)]
    by_cases hsmall : n < 10
    · rw [if_pos hsmall]
      simpa [digitsValue] using digitChar_value n hsmall
    · rw [if_neg hsmall, digitsValue_append_singleton, ih (n / 10) (by omega),
        digitChar_value _ (Nat.mod_lt _ (by decide))]
      omega

theorem toDigits_injective {n m : ℕ} (h : Nat.toDigits 10 n = Nat.toDigits 10 m) : n = m := by
  rw [← digitsValue_toDigits n, h, digitsValue_toDigits]

theorem toDigits_isDigit {n : ℕ} : ∀ c ∈ Nat.toDigits 10 n, c.isDigit = true :=
  fun _ hc => Nat.isDigit_of_mem_toDigits (by decide) (by decide) hc

theorem minus_not_digits {n : ℕ} {rest tail : Text} (h : '-' :: rest = Nat.toDigits 10 n ++ tail) :
    False := by
  cases hds : Nat.toDigits 10 n with
  | nil => exact absurd hds Nat.toDigits_ne_nil
  | cons d ds =>
    have hd : d.isDigit = true := toDigits_isDigit d (by rw [hds]; simp)
    rw [hds, List.cons_append, List.cons.injEq] at h
    rw [← h.1] at hd
    exact absurd hd (by decide)

theorem decimal_split {i j : ℤ} {r s : Text} (hr : Ends r) (hs : Ends s)
    (h : decimal i ++ r = decimal j ++ s) : i = j ∧ r = s := by
  unfold decimal at h
  by_cases hi : i < 0
  · by_cases hj : j < 0
    · rw [if_pos hi, if_pos hj] at h
      obtain ⟨hdigits, hrest⟩ := digits_split toDigits_isDigit toDigits_isDigit hr hs
        (List.cons.inj h).2
      have habs := toDigits_injective hdigits
      exact ⟨by omega, hrest⟩
    · rw [if_pos hi, if_neg hj] at h
      exact (minus_not_digits h).elim
  · by_cases hj : j < 0
    · rw [if_neg hi, if_pos hj] at h
      exact (minus_not_digits h.symm).elim
    · rw [if_neg hi, if_neg hj] at h
      obtain ⟨hdigits, hrest⟩ := digits_split toDigits_isDigit toDigits_isDigit hr hs h
      have habs := toDigits_injective hdigits
      exact ⟨by omega, hrest⟩

end Decimal

section Quotes

theorem escapeChar_head (c : Char) :
    (escapeChar c = [c] ∧ c ≠ '"' ∧ c ≠ '\\') ∨ ∃ d ds, escapeChar c = '\\' :: d :: ds := by
  unfold escapeChar
  split_ifs with h1 h2
  · exact .inr ⟨_, _, rfl⟩
  · exact .inr ⟨_, _, rfl⟩
  · exact .inr ⟨_, _, rfl⟩
  · exact .inr ⟨_, _, rfl⟩
  · exact .inr ⟨_, _, rfl⟩
  · exact .inr ⟨_, _, rfl⟩
  · exact .inr ⟨_, _, rfl⟩
  · exact .inr ⟨_, _, rfl⟩
  · exact .inl ⟨rfl, h1, h2⟩

def shortEscapes : Text := ['"', '\\', '\n', '\r', '\t', Char.ofNat 8, Char.ofNat 12]

/-- The second character of an escape, and the character of a `\u` escape. -/
theorem escapeChar_cases (c : Char) :
    (escapeChar c = [c] ∧ c ≠ '\\') ∨
      (∃ d, d ≠ 'u' ∧ escapeChar c = ['\\', d] ∧
        c ∈ shortEscapes) ∨
      (c.toNat < 32 ∧ escapeChar c = '\\' :: 'u' :: hexString c.toNat 4) := by
  unfold escapeChar
  split_ifs with h1 h2 h3 h4 h5 h6 h7 h8
  · exact .inr (.inl ⟨_, by decide, rfl, by simp [h1, shortEscapes]⟩)
  · exact .inr (.inl ⟨_, by decide, rfl, by simp [h2, shortEscapes]⟩)
  · exact .inr (.inl ⟨_, by decide, rfl, by simp [h3, shortEscapes]⟩)
  · exact .inr (.inl ⟨_, by decide, rfl, by simp [h4, shortEscapes]⟩)
  · exact .inr (.inl ⟨_, by decide, rfl, by simp [h5, shortEscapes]⟩)
  · have hc : c = Char.ofNat 8 := by rw [← h6, Char.ofNat_toNat]
    exact .inr (.inl ⟨_, by decide, rfl, by simp [hc, shortEscapes]⟩)
  · have hc : c = Char.ofNat 12 := by rw [← h7, Char.ofNat_toNat]
    exact .inr (.inl ⟨_, by decide, rfl, by simp [hc, shortEscapes]⟩)
  · exact .inr (.inr ⟨h8, rfl⟩)
  · exact .inl ⟨rfl, h2⟩

theorem shortEscapes_injective {c d : Char} (hc : c ∈ shortEscapes) (hd : d ∈ shortEscapes)
    (h : escapeChar c = escapeChar d) : c = d := by
  have hall : (shortEscapes.all fun c => shortEscapes.all fun d =>
      decide (escapeChar c = escapeChar d → c = d)) = true := by decide
  have hrow := List.all_eq_true.mp hall c hc
  exact of_decide_eq_true (List.all_eq_true.mp hrow d hd) h

theorem escapeChar_split {c d : Char} {r s : Text} (h : escapeChar c ++ r = escapeChar d ++ s) :
    c = d ∧ r = s := by
  rcases escapeChar_cases c with ⟨hc, hcn⟩ | ⟨x, hx, hc, hcm⟩ | ⟨hlt, hc⟩ <;>
    rcases escapeChar_cases d with ⟨hd, hdn⟩ | ⟨y, hy, hd, hdm⟩ | ⟨hlt', hd⟩
  · rw [hc, hd] at h
    exact ⟨(List.cons.inj h).1, (List.cons.inj h).2⟩
  · rw [hc, hd] at h
    exact absurd (List.cons.inj h).1 hcn
  · rw [hc, hd] at h
    exact absurd (List.cons.inj h).1 hcn
  · rw [hc, hd] at h
    exact absurd (List.cons.inj h).1.symm hdn
  · rw [hc, hd] at h
    obtain ⟨_, htail⟩ := List.cons.inj h
    obtain ⟨hsecond, hrest⟩ := List.cons.inj htail
    refine ⟨shortEscapes_injective hcm hdm ?_, hrest⟩
    rw [hc, hd, hsecond]
  · rw [hc, hd] at h
    obtain ⟨_, htail⟩ := List.cons.inj h
    exact absurd (List.cons.inj htail).1 hx
  · rw [hc, hd] at h
    exact absurd (List.cons.inj h).1.symm hdn
  · rw [hc, hd] at h
    obtain ⟨_, htail⟩ := List.cons.inj h
    exact absurd (List.cons.inj htail).1.symm hy
  · rw [hc, hd] at h
    obtain ⟨_, htail⟩ := List.cons.inj h
    obtain ⟨_, htail⟩ := List.cons.inj htail
    obtain ⟨hhex, hrest⟩ := List.append_inj htail (by rw [hexString_length, hexString_length])
    have hmod := hexString_injective hhex
    have hnat : c.toNat = d.toNat := by omega
    exact ⟨by rw [← Char.ofNat_toNat c, hnat, Char.ofNat_toNat], hrest⟩

theorem escapeChar_ne_quote (c : Char) (r s : Text) : escapeChar c ++ r ≠ '"' :: s := by
  intro h
  rcases escapeChar_head c with ⟨hc, hne, _⟩ | ⟨d, ds, hc⟩
  · rw [hc] at h
    exact hne (List.cons.inj h).1
  · rw [hc] at h
    exact absurd (List.cons.inj h).1 (by decide)

theorem escaped_split {a b r s : Text}
    (h : a.flatMap escapeChar ++ '"' :: r = b.flatMap escapeChar ++ '"' :: s) : a = b ∧ r = s := by
  induction a generalizing b with
  | nil =>
    cases b with
    | nil => exact ⟨rfl, (List.cons.inj h).2⟩
    | cons d b =>
      rw [List.flatMap_cons, List.append_assoc] at h
      exact absurd h.symm (escapeChar_ne_quote d _ _)
  | cons c a ih =>
    rw [List.flatMap_cons, List.append_assoc] at h
    cases b with
    | nil => exact absurd h (escapeChar_ne_quote c _ _)
    | cons d b =>
      rw [List.flatMap_cons, List.append_assoc] at h
      obtain ⟨hhead, htail⟩ := escapeChar_split h
      obtain ⟨htext, hrest⟩ := ih htail
      exact ⟨by rw [hhead, htext], hrest⟩

theorem quote_split {a b r s : Text} (h : quote a ++ r = quote b ++ s) : a = b ∧ r = s := by
  simp only [quote, List.cons_append, List.append_assoc, List.nil_append] at h
  exact escaped_split (List.cons.inj h).2

end Quotes

section Values

def headKind (c : Char) : ℕ :=
  if c = 'n' then 0 else if c = 't' then 1 else if c = 'f' then 2 else if c = '"' then 3
  else if c = '[' then 4 else if c = '{' then 5 else 6

def Json.kind : Json → ℕ
  | .null => 0
  | .bool true => 1
  | .bool false => 2
  | .str _ => 3
  | .list _ => 4
  | .dict _ => 5
  | .int _ => 6

theorem headKind_digit {c : Char} (h : c.isDigit = true) :
    headKind c = 6 ∧ c ≠ ']' ∧ c ≠ '}' := by
  refine ⟨?_, ?_, ?_⟩
  · unfold headKind
    split_ifs with h1 h2 h3 h4 h5 h6
    · rw [h1] at h; exact absurd h (by decide)
    · rw [h2] at h; exact absurd h (by decide)
    · rw [h3] at h; exact absurd h (by decide)
    · rw [h4] at h; exact absurd h (by decide)
    · rw [h5] at h; exact absurd h (by decide)
    · rw [h6] at h; exact absurd h (by decide)
    · rfl
  · rintro rfl; exact absurd h (by decide)
  · rintro rfl; exact absurd h (by decide)

theorem render_head (v : Json) :
    ∃ c cs, render v = c :: cs ∧ headKind c = v.kind ∧ c ≠ ']' ∧ c ≠ '}' := by
  cases v with
  | null => exact ⟨'n', _, rfl, rfl, by decide, by decide⟩
  | bool b =>
    cases b with
    | true => exact ⟨'t', _, rfl, rfl, by decide, by decide⟩
    | false => exact ⟨'f', _, rfl, rfl, by decide, by decide⟩
  | int i =>
    by_cases hi : i < 0
    · exact ⟨'-', _, by rw [render, decimal, if_pos hi], rfl, by decide, by decide⟩
    · cases hds : Nat.toDigits 10 i.natAbs with
      | nil => exact absurd hds Nat.toDigits_ne_nil
      | cons d ds =>
        have hd := headKind_digit (toDigits_isDigit d (by rw [hds]; simp))
        exact ⟨d, ds, by rw [render, decimal, if_neg hi, hds], hd.1, hd.2.1, hd.2.2⟩
  | str s => exact ⟨'"', _, by rw [render, quote, List.cons_append], rfl, by decide, by decide⟩
  | list items => exact ⟨'[', _, by rw [render, List.cons_append], rfl, by decide, by decide⟩
  | dict fields => exact ⟨'{', _, by rw [render, List.cons_append], rfl, by decide, by decide⟩

theorem kind_eq {v w : Json} {r s : Text} (h : render v ++ r = render w ++ s) : v.kind = w.kind := by
  obtain ⟨c, cs, hc, hkind, _⟩ := render_head v
  obtain ⟨d, ds, hd, hkind', _⟩ := render_head w
  rw [hc, hd, List.cons_append, List.cons_append] at h
  rw [← hkind, ← hkind', (List.cons.inj h).1]

theorem renderItems_ends (vs : List Json) (r : Text) : Ends (renderItems vs ++ ']' :: r) := by
  cases vs with
  | nil => exact ends_cons (by decide)
  | cons v vs =>
    rw [renderItems, List.cons_append, List.cons_append]
    exact ends_cons (by decide)

theorem renderFields_ends (fs : Fields) (r : Text) : Ends (renderFields fs ++ '}' :: r) := by
  cases fs with
  | nil => exact ends_cons (by decide)
  | cons f fs =>
    obtain ⟨k, v⟩ := f
    rw [renderFields, List.cons_append, List.cons_append]
    exact ends_cons (by decide)

theorem render_list_tail {v : Json} {vs : List Json} {r : Text} :
    (renderItems (v :: vs)).drop 1 ++ ']' :: r = render v ++ (renderItems vs ++ ']' :: r) := by
  simp [renderItems]

theorem render_dict_tail {k : Text} {v : Json} {fs : Fields} {r : Text} :
    (renderFields ((k, v) :: fs)).drop 1 ++ '}' :: r =
      quote k ++ (':' :: (render v ++ (renderFields fs ++ '}' :: r))) := by
  simp [renderFields]

theorem render_ne_close (v : Json) (r s : Text) : render v ++ r ≠ ']' :: s := by
  intro h
  obtain ⟨c, cs, hc, _, hne, _⟩ := render_head v
  rw [hc, List.cons_append] at h
  exact hne (List.cons.inj h).1

mutual
theorem render_split (v w : Json) {r s : Text} (hr : Ends r) (hs : Ends s)
    (h : render v ++ r = render w ++ s) : v = w ∧ r = s := by
  have hkind := kind_eq h
  cases v with
  | null =>
    cases w with
    | null => exact ⟨rfl, List.append_cancel_left h⟩
    | bool b => cases b <;> exact absurd hkind (by simp [Json.kind])
    | int _ | str _ | list _ | dict _ => exact absurd hkind (by simp [Json.kind])
  | bool b =>
    cases w with
    | bool c =>
      cases b <;> cases c
      · exact ⟨rfl, List.append_cancel_left h⟩
      · exact absurd hkind (by simp [Json.kind])
      · exact absurd hkind (by simp [Json.kind])
      · exact ⟨rfl, List.append_cancel_left h⟩
    | null | int _ | str _ | list _ | dict _ => cases b <;> exact absurd hkind (by simp [Json.kind])
  | int i =>
    cases w with
    | int j =>
      obtain ⟨hvalue, hrest⟩ := decimal_split hr hs h
      exact ⟨by rw [hvalue], hrest⟩
    | bool b => cases b <;> exact absurd hkind (by simp [Json.kind])
    | null | str _ | list _ | dict _ => exact absurd hkind (by simp [Json.kind])
  | str a =>
    cases w with
    | str b =>
      obtain ⟨htext, hrest⟩ := quote_split h
      exact ⟨by rw [htext], hrest⟩
    | bool b => cases b <;> exact absurd hkind (by simp [Json.kind])
    | null | int _ | list _ | dict _ => exact absurd hkind (by simp [Json.kind])
  | list vs =>
    cases w with
    | list ws =>
      simp only [render, List.cons_append, List.append_assoc, List.nil_append] at h
      obtain ⟨_, h⟩ := List.cons.inj h
      cases vs with
      | nil =>
        cases ws with
        | nil => exact ⟨rfl, (List.cons.inj h).2⟩
        | cons w ws =>
          rw [render_list_tail] at h
          exact absurd h.symm (render_ne_close w _ _)
      | cons v vs =>
        cases ws with
        | nil =>
          rw [render_list_tail] at h
          exact absurd h (render_ne_close v _ _)
        | cons w ws =>
          rw [render_list_tail, render_list_tail] at h
          obtain ⟨hhead, htail⟩ := render_split v w (renderItems_ends vs r) (renderItems_ends ws s) h
          obtain ⟨hitems, hrest⟩ := renderItems_split vs ws htail
          exact ⟨by rw [hhead, hitems], hrest⟩
    | bool b => cases b <;> exact absurd hkind (by simp [Json.kind])
    | null | int _ | str _ | dict _ => exact absurd hkind (by simp [Json.kind])
  | dict fs =>
    cases w with
    | dict gs =>
      simp only [render, List.cons_append, List.append_assoc, List.nil_append] at h
      obtain ⟨_, h⟩ := List.cons.inj h
      cases fs with
      | nil =>
        cases gs with
        | nil => exact ⟨rfl, (List.cons.inj h).2⟩
        | cons g gs =>
          obtain ⟨k, v⟩ := g
          rw [render_dict_tail] at h
          exact absurd (List.cons.inj h).1 (by decide)
      | cons f fs =>
        obtain ⟨k, v⟩ := f
        cases gs with
        | nil =>
          rw [render_dict_tail] at h
          exact absurd (List.cons.inj h).1 (by decide)
        | cons g gs =>
          obtain ⟨l, w⟩ := g
          rw [render_dict_tail, render_dict_tail] at h
          obtain ⟨hkey, h⟩ := quote_split h
          obtain ⟨_, h⟩ := List.cons.inj h
          obtain ⟨hhead, htail⟩ := render_split v w (renderFields_ends fs r) (renderFields_ends gs s) h
          obtain ⟨hfields, hrest⟩ := renderFields_split fs gs htail
          exact ⟨by rw [hkey, hhead, hfields], hrest⟩
    | bool b => cases b <;> exact absurd hkind (by simp [Json.kind])
    | null | int _ | str _ | list _ => exact absurd hkind (by simp [Json.kind])

theorem renderItems_split (vs ws : List Json) {r s : Text}
    (h : renderItems vs ++ ']' :: r = renderItems ws ++ ']' :: s) : vs = ws ∧ r = s := by
  cases vs with
  | nil =>
    cases ws with
    | nil => exact ⟨rfl, (List.cons.inj h).2⟩
    | cons w ws =>
      rw [renderItems, renderItems, List.cons_append, List.cons_append] at h
      exact absurd (List.cons.inj h).1 (by decide)
  | cons v vs =>
    cases ws with
    | nil =>
      rw [renderItems, renderItems, List.cons_append, List.cons_append] at h
      exact absurd (List.cons.inj h).1 (by decide)
    | cons w ws =>
      rw [renderItems, renderItems, List.cons_append, List.cons_append, List.cons_append,
        List.cons_append, List.append_assoc, List.append_assoc] at h
      obtain ⟨_, h⟩ := List.cons.inj h
      obtain ⟨hhead, htail⟩ := render_split v w (renderItems_ends vs r) (renderItems_ends ws s) h
      obtain ⟨hitems, hrest⟩ := renderItems_split vs ws htail
      exact ⟨by rw [hhead, hitems], hrest⟩

theorem renderFields_split (fs gs : Fields) {r s : Text}
    (h : renderFields fs ++ '}' :: r = renderFields gs ++ '}' :: s) : fs = gs ∧ r = s := by
  cases fs with
  | nil =>
    cases gs with
    | nil => exact ⟨rfl, (List.cons.inj h).2⟩
    | cons g gs =>
      obtain ⟨k, v⟩ := g
      rw [renderFields, renderFields, List.cons_append, List.cons_append] at h
      exact absurd (List.cons.inj h).1 (by decide)
  | cons f fs =>
    obtain ⟨k, v⟩ := f
    cases gs with
    | nil =>
      rw [renderFields, renderFields, List.cons_append, List.cons_append] at h
      exact absurd (List.cons.inj h).1 (by decide)
    | cons g gs =>
      obtain ⟨l, w⟩ := g
      rw [renderFields, renderFields] at h
      simp only [List.cons_append, List.append_assoc] at h
      obtain ⟨_, h⟩ := List.cons.inj h
      obtain ⟨hkey, h⟩ := quote_split h
      obtain ⟨_, h⟩ := List.cons.inj h
      obtain ⟨hhead, htail⟩ := render_split v w (renderFields_ends fs r) (renderFields_ends gs s) h
      obtain ⟨hfields, hrest⟩ := renderFields_split fs gs htail
      exact ⟨by rw [hkey, hhead, hfields], hrest⟩
end

theorem render_injective : Function.Injective render := by
  intro v w h
  have hsame : render v ++ [] = render w ++ [] := by rw [h]
  exact (render_split v w ends_nil ends_nil hsame).1

theorem canonicalBytes_inj {nfc : Text → Text} {v w : Json} :
    canonicalBytes nfc v = canonicalBytes nfc w ↔ normalize nfc v = normalize nfc w := by
  constructor
  · intro h
    exact render_injective (canonicalBytes_injective_on_render h)
  · intro h
    unfold canonicalBytes
    rw [h]

end Values

section Objects

/-- Literal ASCII keys in the order in which canonical text writes them. -/
def sortedKeys (keys : List String) : Bool :=
  let texts := keys.map String.toList
  decide (texts.IsChain (· < ·)) && texts.all (fun k => decide (IsAscii k))

theorem normalize_object {nfc : Text → Text} (hnfc : FixesAscii nfc)
    {fields : List (String × Json)} (hkeys : sortedKeys (fields.map Prod.fst) = true) :
    normalize nfc (.object fields) = .object (fields.map fun p => (p.1, normalize nfc p.2)) := by
  have hfirst : (fields.map fun p => (p.1.toList, p.2)).map Prod.fst =
      (fields.map Prod.fst).map String.toList := by
    simp [List.map_map, Function.comp_def]
  simp only [sortedKeys, Bool.and_eq_true, decide_eq_true_eq, List.all_eq_true] at hkeys
  obtain ⟨hchain, hascii⟩ := hkeys
  rw [Json.object, normalize_dict hnfc (by rw [hfirst]; exact hchain.pairwise)
    (by rw [hfirst]; exact hascii), Json.object, List.map_map, List.map_map]
  rfl

theorem object_values {fs gs : List (String × Json)} (h : Json.object fs = Json.object gs) :
    fs.map Prod.snd = gs.map Prod.snd := by
  have hfields := congrArg (List.map Prod.snd) (Json.dict.inj h)
  simpa [List.map_map, Function.comp_def] using hfields

theorem list_map_injective {α : Type} {f : α → Json} (hf : Function.Injective f) :
    Function.Injective (fun xs : List α => Json.list (xs.map f)) :=
  fun _ _ h => List.map_injective_iff.mpr hf (Json.list.inj h)

theorem ofOption_injective {α : Type} {f : α → Json} (hf : Function.Injective f)
    (hnull : ∀ a, f a ≠ .null) : Function.Injective (Json.ofOption f) := by
  intro a b h
  cases a with
  | none =>
    cases b with
    | none => rfl
    | some b => exact absurd h.symm (hnull b)
  | some a =>
    cases b with
    | none => exact absurd h (hnull a)
    | some b => rw [hf h]

end Objects

section NormalForms

/-- A Unicode normal form: repeating it changes nothing, and ASCII text keeps its form. -/
structure NormalForm where
  apply : Text → Text
  idempotent : ∀ s, apply (apply s) = apply s
  fixesAscii : FixesAscii apply

instance : CoeFun NormalForm (fun _ => Text → Text) := ⟨NormalForm.apply⟩

variable (nf : NormalForm)

theorem normalize_ascii {s : Text} (h : IsAscii s) : normalize nf (.str s) = .str s := by
  rw [normalize, nf.fixesAscii s h]

theorem normalize_list {α : Type} (f : α → Json) (xs : List α) :
    normalize nf (.list (xs.map f)) = .list (xs.map fun x => normalize nf (f x)) := by
  rw [normalize]
  congr 1
  induction xs with
  | nil => rfl
  | cons x xs ih => rw [List.map_cons, normalizeItems, ih, List.map_cons]

theorem normalize_ofOption {α : Type} (f : α → Json) (o : Option α) :
    normalize nf (.ofOption f o) = .ofOption (fun a => normalize nf (f a)) o := by
  cases o with
  | none => rfl
  | some a => rfl

theorem isAscii_append {s t : Text} (hs : IsAscii s) (ht : IsAscii t) : IsAscii (s ++ t) := by
  unfold IsAscii at *
  rw [List.all_append, hs, ht]
  rfl

theorem isAscii_cons {c : Char} {s : Text} (hc : c.toNat < 128) (hs : IsAscii s) :
    IsAscii (c :: s) := by
  unfold IsAscii at *
  rw [List.all_cons, hs, decide_eq_true hc]
  rfl

theorem isAscii_of_subset {s t : Text} (ht : IsAscii t) (h : ∀ c ∈ s, c ∈ t) : IsAscii s :=
  List.all_eq_true.mpr fun c hc => List.all_eq_true.mp ht c (h c hc)

theorem isAscii_digits {s : Text} (h : ∀ c ∈ s, c.isDigit = true) : IsAscii s := by
  refine List.all_eq_true.mpr fun c hc => decide_eq_true ?_
  have hdigit := h c hc
  simp only [Char.isDigit, Bool.and_eq_true, decide_eq_true_eq, ge_iff_le,
    UInt32.le_iff_toNat_le] at hdigit
  have hle : c.toNat ≤ 57 := hdigit.2
  omega

theorem isAscii_toDigits (n : ℕ) : IsAscii (Nat.toDigits 10 n) := isAscii_digits toDigits_isDigit

theorem isAscii_hexString (n k : ℕ) : IsAscii (hexString n k) := by
  have hdigit : ∀ i < 16, (hexDigits.getD i '0').toNat < 128 := by decide
  refine List.all_eq_true.mpr fun c hc => decide_eq_true ?_
  obtain ⟨i, _, rfl⟩ := List.mem_map.mp hc
  exact hdigit _ (Nat.mod_lt _ (by decide))

end NormalForms

end PredictionMarketMonitor.CanonicalJson
