import Mathlib

set_option autoImplicit false

/-!
# Code points and their encodings

A text that may hold surrogates, the encodings that a JSON document may come in,
and the rule that picks one by the first bytes. Surrogates pass through every
decoder; UTF-8 and UTF-16 texts without them are read back and told apart.
-/
namespace PredictionMarketMonitor.CodePoints

/-- A Unicode scalar value, or one of the 2048 surrogates. -/
inductive CodePoint
  | scalar (c : Char)
  | surrogate (n : Fin 2048)
deriving DecidableEq

abbrev Str := List CodePoint

def CodePoint.ofNat? (n : ℕ) : Option CodePoint :=
  if h : 0xd800 ≤ n ∧ n ≤ 0xdfff then some (.surrogate ⟨n - 0xd800, by omega⟩)
  else if n < 0x110000 then some (.scalar (Char.ofNat n))
  else none

def str (s : List Char) : Str := s.map .scalar

def scalars? : Str → Option (List Char)
  | [] => some []
  | .scalar c :: rest => (scalars? rest).map (c :: ·)
  | .surrogate _ :: _ => none

section Decoders

def Continues (b : UInt8) : Prop := 0x80 ≤ b.toNat ∧ b.toNat ≤ 0xbf

instance (b : UInt8) : Decidable (Continues b) := inferInstanceAs (Decidable (_ ∧ _))

def push (n : ℕ) (rest : Option Str) : Option Str := do
  return (← CodePoint.ofNat? n) :: (← rest)

/-- UTF-8 with `surrogatepass`. -/
def decodeUtf8 : List UInt8 → Option Str
  | [] => some []
  | a :: rest =>
    if a.toNat < 0x80 then push a.toNat (decodeUtf8 rest)
    else match rest with
    | [] => none
    | b :: rest =>
      if ¬Continues b then none
      else if 0xc2 ≤ a.toNat ∧ a.toNat ≤ 0xdf then
        push (a.toNat % 0x20 * 64 + b.toNat % 64) (decodeUtf8 rest)
      else match rest with
      | [] => none
      | c :: rest =>
        if ¬Continues c then none
        else if 0xe0 ≤ a.toNat ∧ a.toNat ≤ 0xef then
          let n := a.toNat % 0x10 * 4096 + b.toNat % 64 * 64 + c.toNat % 64
          if n < 0x800 then none else push n (decodeUtf8 rest)
        else match rest with
        | [] => none
        | d :: rest =>
          let n := a.toNat % 0x08 * 262144 + b.toNat % 64 * 4096 + c.toNat % 64 * 64 + d.toNat % 64
          if Continues d ∧ 0xf0 ≤ a.toNat ∧ a.toNat ≤ 0xf4 ∧ 0x10000 ≤ n then
            push n (decodeUtf8 rest)
          else none

def word (bigEndian : Bool) (a b : UInt8) : ℕ :=
  if bigEndian then a.toNat * 256 + b.toNat else b.toNat * 256 + a.toNat

def units16 (bigEndian : Bool) : List UInt8 → Option (List ℕ)
  | [] => some []
  | [_] => none
  | a :: b :: rest => (units16 bigEndian rest).map (word bigEndian a b :: ·)

/-- A high surrogate takes the low one that follows it; others stand alone. -/
def joinUnits : List ℕ → Option Str
  | [] => some []
  | [u] => push u (some [])
  | u :: v :: rest =>
    if (0xd800 ≤ u ∧ u ≤ 0xdbff) ∧ 0xdc00 ≤ v ∧ v ≤ 0xdfff then
      push (0x10000 + (u - 0xd800) * 1024 + (v - 0xdc00)) (joinUnits rest)
    else push u (joinUnits (v :: rest))

def decodeUtf16 (bigEndian : Bool) (bytes : List UInt8) : Option Str :=
  (units16 bigEndian bytes).bind joinUnits

def decodeUtf32 (bigEndian : Bool) : List UInt8 → Option Str
  | [] => some []
  | a :: b :: c :: d :: rest =>
    let n := if bigEndian then word true a b * 65536 + word true c d
      else word false c d * 65536 + word false a b
    push n (decodeUtf32 bigEndian rest)
  | _ => none

end Decoders

section Detection

inductive Encoding
  | utf8 | utf8Sig | utf16 | utf16be | utf16le | utf32 | utf32be | utf32le
deriving DecidableEq

/-- `json.detect_encoding`. -/
def detectEncoding (b : List UInt8) : Encoding :=
  if b.take 4 = [0x00, 0x00, 0xfe, 0xff] ∨ b.take 4 = [0xff, 0xfe, 0x00, 0x00] then .utf32
  else if b.take 2 = [0xfe, 0xff] ∨ b.take 2 = [0xff, 0xfe] then .utf16
  else if b.take 3 = [0xef, 0xbb, 0xbf] then .utf8Sig
  else match b with
  | b0 :: b1 :: b2 :: b3 :: _ =>
    if b0 = 0 then (if b1 ≠ 0 then .utf16be else .utf32be)
    else if b1 = 0 then (if b2 ≠ 0 ∨ b3 ≠ 0 then .utf16le else .utf32le)
    else .utf8
  | [b0, b1] => if b0 = 0 then .utf16be else if b1 = 0 then .utf16le else .utf8
  | _ => .utf8

/-- `bytes.decode(encoding, "surrogatepass")`; a byte order mark is dropped. -/
def decodeBytes (encoding : Encoding) (b : List UInt8) : Option Str :=
  match encoding with
  | .utf8 => decodeUtf8 b
  | .utf8Sig => decodeUtf8 (b.drop 3)
  | .utf16 => decodeUtf16 (b.take 2 = [0xfe, 0xff]) (b.drop 2)
  | .utf16be => decodeUtf16 true b
  | .utf16le => decodeUtf16 false b
  | .utf32 => decodeUtf32 (b.take 4 = [0x00, 0x00, 0xfe, 0xff]) (b.drop 4)
  | .utf32be => decodeUtf32 true b
  | .utf32le => decodeUtf32 false b

end Detection

section Utf16

/-- `utf-16be` of one character. -/
def utf16Char (c : Char) : List UInt8 :=
  if c.toNat < 0x10000 then [UInt8.ofNat (c.toNat / 256), UInt8.ofNat (c.toNat % 256)]
  else
    let high := 0xd800 + (c.toNat - 0x10000) / 1024
    let low := 0xdc00 + (c.toNat - 0x10000) % 1024
    [UInt8.ofNat (high / 256), UInt8.ofNat (high % 256), UInt8.ofNat (low / 256),
      UInt8.ofNat (low % 256)]

def utf16be (s : List Char) : List UInt8 := s.flatMap utf16Char

theorem char_range (c : Char) : c.toNat < 0xd800 ∨ (0xdfff < c.toNat ∧ c.toNat < 0x110000) :=
  c.valid

theorem byte_inj {n m : ℕ} (hn : n < 256) (hm : m < 256) (h : UInt8.ofNat n = UInt8.ofNat m) :
    n = m := by
  have hnat := congrArg UInt8.toNat h
  rw [UInt8.toNat_ofNat', UInt8.toNat_ofNat'] at hnat
  omega

theorem char_ext {c d : Char} (h : c.toNat = d.toNat) : c = d := by
  rw [← Char.ofNat_toNat c, h, Char.ofNat_toNat]

theorem utf16Char_split {c d : Char} {r s : List UInt8}
    (h : utf16Char c ++ r = utf16Char d ++ s) : c = d ∧ r = s := by
  have hc := char_range c
  have hd := char_range d
  unfold utf16Char at h
  by_cases hlow : c.toNat < 0x10000
  · by_cases hlow' : d.toNat < 0x10000
    · rw [if_pos hlow, if_pos hlow'] at h
      simp only [List.cons_append, List.nil_append, List.cons.injEq] at h
      have hhigh := byte_inj (by omega) (by omega) h.1
      have hrest := byte_inj (by omega) (by omega) h.2.1
      exact ⟨char_ext (by omega), h.2.2⟩
    · rw [if_pos hlow, if_neg hlow'] at h
      simp only [List.cons_append, List.nil_append, List.cons.injEq] at h
      have hhigh := byte_inj (by omega) (by omega) h.1
      omega
  · by_cases hlow' : d.toNat < 0x10000
    · rw [if_neg hlow, if_pos hlow'] at h
      simp only [List.cons_append, List.nil_append, List.cons.injEq] at h
      have hhigh := byte_inj (by omega) (by omega) h.1
      omega
    · rw [if_neg hlow, if_neg hlow'] at h
      simp only [List.cons_append, List.nil_append, List.cons.injEq] at h
      have h1 := byte_inj (by omega) (by omega) h.1
      have h2 := byte_inj (by omega) (by omega) h.2.1
      have h3 := byte_inj (by omega) (by omega) h.2.2.1
      have h4 := byte_inj (by omega) (by omega) h.2.2.2.1
      exact ⟨char_ext (by omega), h.2.2.2.2⟩

theorem utf16Char_ne_nil (c : Char) (r : List UInt8) : utf16Char c ++ r ≠ [] := by
  unfold utf16Char
  split <;> simp

theorem utf16be_injective : Function.Injective utf16be := by
  intro s t h
  induction s generalizing t with
  | nil =>
    cases t with
    | nil => rfl
    | cons d t => exact absurd h.symm (utf16Char_ne_nil d _)
  | cons c s ih =>
    cases t with
    | nil => exact absurd h (utf16Char_ne_nil c _)
    | cons d t =>
      obtain ⟨hhead, htail⟩ := utf16Char_split h
      rw [hhead, ih htail]

end Utf16

section Utf8

def utf8 (s : List Char) : List UInt8 := s.flatMap String.utf8EncodeChar

theorem ofNat?_toNat (c : Char) : CodePoint.ofNat? c.toNat = some (.scalar c) := by
  have hrange := char_range c
  rw [CodePoint.ofNat?, dif_neg (by omega), if_pos (by omega), Char.ofNat_toNat]

theorem push_toNat {n : ℕ} {c : Char} (hn : n = c.toNat) (rest : Option Str) :
    push n rest = rest.map (.scalar c :: ·) := by
  rw [push, hn, ofNat?_toNat]
  cases rest <;> rfl

theorem toNat_byte {n : ℕ} (h : n < 256) : (UInt8.ofNat n).toNat = n := by
  rw [UInt8.toNat_ofNat']
  omega

theorem continues_tail (n : ℕ) : ¬¬Continues (UInt8.ofNat (n % 0x40 + 0x80)) := by
  rw [not_not, Continues, toNat_byte (by omega)]
  omega

theorem tail_bits (n : ℕ) : (UInt8.ofNat (n % 0x40 + 0x80)).toNat % 64 = n % 64 := by
  rw [toNat_byte (by omega)]
  omega

theorem decodeUtf8_char (c : Char) (rest : List UInt8) :
    decodeUtf8 (String.utf8EncodeChar c ++ rest) = (decodeUtf8 rest).map (.scalar c :: ·) := by
  have hrange := char_range c
  have hval : c.val.toNat = c.toNat := rfl
  unfold String.utf8EncodeChar
  simp only [hval]
  by_cases h1 : c.toNat ≤ 0x7f
  · rw [if_pos h1, List.cons_append, List.nil_append, decodeUtf8.eq_def]
    dsimp only
    rw [toNat_byte (by omega), if_pos (by omega)]
    exact push_toNat rfl _
  · rw [if_neg h1]
    by_cases h2 : c.toNat ≤ 0x7ff
    · rw [if_pos h2, List.cons_append, List.cons_append, List.nil_append, decodeUtf8.eq_def]
      dsimp only
      rw [tail_bits, if_neg (continues_tail _), toNat_byte (by omega), if_neg (by omega),
        if_pos (by omega)]
      exact push_toNat (by omega) _
    · rw [if_neg h2]
      by_cases h3 : c.toNat ≤ 0xffff
      · rw [if_pos h3, List.cons_append, List.cons_append, List.cons_append, List.nil_append,
          decodeUtf8.eq_def]
        dsimp only
        rw [tail_bits, tail_bits, if_neg (continues_tail _), if_neg (continues_tail _),
          toNat_byte (by omega), if_neg (by omega), if_neg (by omega), if_pos (by omega),
          if_neg (by omega)]
        exact push_toNat (by omega) _
      · rw [if_neg h3, List.cons_append, List.cons_append, List.cons_append, List.cons_append,
          List.nil_append, decodeUtf8.eq_def]
        dsimp only
        rw [tail_bits, tail_bits, tail_bits, if_neg (continues_tail _),
          if_neg (continues_tail _), toNat_byte (by omega), if_neg (by omega), if_neg (by omega),
          if_neg (by omega), if_pos ⟨not_not.mp (continues_tail _), by omega⟩]
        exact push_toNat (by omega) _

theorem decodeUtf8_utf8 (s : List Char) : decodeUtf8 (utf8 s) = some (str s) := by
  induction s with
  | nil => rfl
  | cons c s ih =>
    have hcons : utf8 (c :: s) = String.utf8EncodeChar c ++ utf8 s := rfl
    rw [hcons, decodeUtf8_char, ih]
    rfl

theorem utf8Char_ne_zero {c : Char} (hc : c.toNat ≠ 0) : ∀ b ∈ String.utf8EncodeChar c, b ≠ 0 := by
  have hrange := char_range c
  have hval : c.val.toNat = c.toNat := rfl
  have hbyte {n : ℕ} (hpos : 0 < n) (hlt : n < 256) : UInt8.ofNat n ≠ 0 := by
    intro h
    have hnat := congrArg UInt8.toNat h
    rw [toNat_byte hlt, UInt8.toNat_zero] at hnat
    omega
  unfold String.utf8EncodeChar
  simp only [hval]
  split_ifs <;> simp only [List.forall_mem_cons, List.not_mem_nil, false_implies, implies_true,
    and_true]
  · exact hbyte (by omega) (by omega)
  · exact ⟨hbyte (by omega) (by omega), hbyte (by omega) (by omega)⟩
  · exact ⟨hbyte (by omega) (by omega), hbyte (by omega) (by omega), hbyte (by omega) (by omega)⟩
  · exact ⟨hbyte (by omega) (by omega), hbyte (by omega) (by omega), hbyte (by omega) (by omega),
      hbyte (by omega) (by omega)⟩

theorem utf8_ne_zero {s : List Char} (h : ∀ c ∈ s, c.toNat ≠ 0) : ∀ b ∈ utf8 s, b ≠ 0 := by
  intro b hb
  obtain ⟨c, hc, hb⟩ := List.mem_flatMap.mp hb
  exact utf8Char_ne_zero (h c hc) b hb

theorem detectEncoding_utf8 {c : Char} {s : List Char} (hc : c.toNat < 0x80)
    (h : ∀ d ∈ c :: s, d.toNat ≠ 0) : detectEncoding (utf8 (c :: s)) = .utf8 := by
  have hzero := utf8_ne_zero h
  have hval : c.val.toNat = c.toNat := rfl
  have hfirst : utf8 (c :: s) = UInt8.ofNat c.toNat :: utf8 s := by
    change String.utf8EncodeChar c ++ utf8 s = _
    unfold String.utf8EncodeChar
    simp only [hval]
    rw [if_pos (by omega)]
    rfl
  have hmark {n : ℕ} (hn : 0x80 ≤ n) (hlt : n < 256) : UInt8.ofNat c.toNat ≠ UInt8.ofNat n :=
    fun heq => by
      have hnat := byte_inj (by omega) hlt heq
      omega
  rw [hfirst] at hzero ⊢
  generalize utf8 s = tail at hzero
  have hhead : UInt8.ofNat c.toNat ≠ 0 := hzero _ (by simp)
  have hff : UInt8.ofNat c.toNat ≠ 0xff := @hmark 0xff (by omega) (by omega)
  have hfe : UInt8.ofNat c.toNat ≠ 0xfe := @hmark 0xfe (by omega) (by omega)
  have hef : UInt8.ofNat c.toNat ≠ 0xef := @hmark 0xef (by omega) (by omega)
  unfold detectEncoding
  rw [if_neg (by simp [hhead, hff]), if_neg (by simp [hff, hfe]), if_neg (by simp [hef])]
  match tail, hzero with
  | [], _ => rfl
  | [b1], hzero =>
    dsimp only
    rw [if_neg hhead, if_neg (hzero b1 (by simp))]
  | [_, _], _ => rfl
  | b1 :: _ :: _ :: _, hzero =>
    dsimp only
    rw [if_neg hhead, if_neg (hzero b1 (by simp))]

end Utf8

end PredictionMarketMonitor.CodePoints
