import PredictionMarketMonitor.JsonReader
import PredictionMarketMonitor.KeySorting

set_option autoImplicit false

/-!
# Canonical release receipts

`services/release/receipts.py` and the encoder of `scripts/free_tier_domain.py`.
Both sort the members of an object by the UTF-16 bytes of their names; on the
receipt subset of JSON they write the same bytes, and a verified receipt is
exactly a canonical text of a document that its model accepts.
-/
namespace PredictionMarketMonitor.Receipts

open CanonicalJson CodePoints FallibleSteps JsonReader KeySorting
open Sha256 (Bytes)

def maxReceiptBytes : ℕ := 65536

def maxSafeInteger : ℕ := 9007199254740991

/-- `",".join(parts)`. -/
def joined : List Text → Text
  | [] => []
  | [part] => part
  | part :: rest => part ++ ',' :: joined rest

def utf16Order (name : Text) : List ℕ := (utf16be name).map UInt8.toNat

section Canonicalize
variable {F : Type}

inductive CanonicalError
  | integerOutOfRange | floatNotSupported | stringInvalid | recursionError
deriving DecidableEq

def rejectSurrogates (value : Str) : Except CanonicalError Text :=
  present (scalars? value) .stringInvalid

def encodeString (value : Str) : Except CanonicalError Text := do
  return quote (← rejectSurrogates value)

def encodeInteger (value : ℤ) : Except CanonicalError Text :=
  if maxSafeInteger < value.natAbs then .error .integerOutOfRange else .ok (decimal value)

def utf16SortKey (value : Str) : Except CanonicalError (List ℕ) := do
  return utf16Order (← rejectSurrogates value)

/-- The members sorted by their keys; a member is encoded in its turn. -/
def encodeMapping (ms : List (Str × Except CanonicalError Text)) : Except CanonicalError Text := do
  let keyed ← ms.mapM (fun m => do return (← utf16SortKey m.1, m))
  let written ← (sortBy Prod.fst keyed).mapM (fun m => do
    return (← encodeString m.2.1) ++ ':' :: (← m.2.2))
  return '{' :: joined written ++ ['}']

mutual
/-- `_encode`; the recursion limit admits as many containers inside one another as there
    are `levels`. -/
def encode : ℕ → Document F → Except CanonicalError Text
  | _, .null => .ok ['n', 'u', 'l', 'l']
  | _, .bool true => .ok ['t', 'r', 'u', 'e']
  | _, .bool false => .ok ['f', 'a', 'l', 's', 'e']
  | _, .int i => encodeInteger i
  | _, .float _ => .error .floatNotSupported
  | _, .str s => encodeString s
  | levels, .list items => do
    require (0 < levels) .recursionError
    return '[' :: joined (← encodeItems (levels - 1) items) ++ [']']
  | levels, .dict ms => do
    require (0 < levels) .recursionError
    encodeMapping (encodeMembers (levels - 1) ms)

def encodeItems : ℕ → List (Document F) → Except CanonicalError (List Text)
  | _, [] => .ok []
  | levels, d :: rest => do
    let text ← encode levels d
    return text :: (← encodeItems levels rest)

def encodeMembers : ℕ → Members F → List (Str × Except CanonicalError Text)
  | _, [] => []
  | levels, (k, d) :: rest => (k, encode levels d) :: encodeMembers levels rest
end

def canonicalize (levels : ℕ) (value : Document F) : Except CanonicalError Bytes := do
  return encodeText (← encode levels value)

/-- Receipts that the program builds hold scalars, and lists and objects of scalars. -/
def receiptLevels : ℕ := 2

end Canonicalize

/-- How many containers inside one another the recursion limit leaves to each function. -/
structure RecursionLimits where
  encode : ℕ
  jcsEncode : ℕ
  loads : ℕ

section Verify
variable {F α : Type} (limits : RecursionLimits) (readFloat : List Char → F)
  (model : Document F → Option α)

inductive ReceiptError
  | oversize | jsonInvalid | duplicateKey | noncanonical | recursionError
  | canonical (e : CanonicalError) | modelInvalid
deriving DecidableEq

/-- `_unique_object`. -/
def uniqueObject (pairs : Members F) : Except ReceiptError (Members F) := do
  require (pairs.map Prod.fst).Nodup .duplicateKey
  return pairs

/-- `verify_canonical_receipt`; `model` is `model_validate`. -/
def verifyCanonicalReceipt (raw : Bytes) : Except ReceiptError α := do
  require (raw.length ≤ maxReceiptBytes) .oversize
  let value ← loads readFloat uniqueObject .jsonInvalid .recursionError limits.loads raw
  let canonical ← (canonicalize limits.encode value).mapError .canonical
  require (raw = canonical) .noncanonical
  present (model value) .modelInvalid

end Verify

section FreeTier
variable {F : Type}

inductive JcsError
  | integerRange | invalidUnicode | invalidKey | notFinite | recursionError
deriving DecidableEq

def orjsonChar (c : Char) : Text :=
  match c.toNat with
  | 8 => ['\\', 'b']
  | 9 => ['\\', 't']
  | 10 => ['\\', 'n']
  | 12 => ['\\', 'f']
  | 13 => ['\\', 'r']
  | 34 => ['\\', '"']
  | 92 => ['\\', '\\']
  | n => if n < 32 then ['\\', 'u'] ++ Sha256.hexString n 4 else [c]

/-- What is documented of `orjson.dumps` on strings: UTF-8 between quotation marks, with
    the escapes that JSON requires. -/
def DumpsStrings (dumps : Text → Bytes) : Prop :=
  ∀ s, dumps s = encodeText ('"' :: s.flatMap orjsonChar ++ ['"'])

def jcsInteger (number : ℤ) : Except JcsError Bytes :=
  if maxSafeInteger < number.natAbs then .error .integerRange else .ok (encodeText (decimal number))

/-- `b",".join(parts)`. -/
def joinedBytes : List Bytes → Bytes
  | [] => []
  | [part] => part
  | part :: rest => part ++ encodeText [','] ++ joinedBytes rest

variable (dumps : Text → Bytes) (jcsFloat : F → Except JcsError Bytes)

def jcsString (s : Str) : Except JcsError Bytes := do
  return dumps (← present (scalars? s) .invalidUnicode)

def jcsMapping (ms : List (Str × Except JcsError Bytes)) : Except JcsError Bytes := do
  let keyed ← ms.mapM (fun m => do
    let key ← present (scalars? m.1) .invalidKey
    return (utf16Order key, key, m.2))
  let written ← (sortBy Prod.fst keyed).mapM (fun m => do
    return dumps m.2.1 ++ encodeText [':'] ++ (← m.2.2))
  return encodeText ['{'] ++ joinedBytes written ++ encodeText ['}']

mutual
/-- `_jcs_encode`; `orjson.dumps` of a string and the float formatter are parameters. -/
def jcsEncode : ℕ → Document F → Except JcsError Bytes
  | _, .null => .ok (encodeText ['n', 'u', 'l', 'l'])
  | _, .bool true => .ok (encodeText ['t', 'r', 'u', 'e'])
  | _, .bool false => .ok (encodeText ['f', 'a', 'l', 's', 'e'])
  | _, .int i => jcsInteger i
  | _, .float x => jcsFloat x
  | _, .str s => jcsString dumps s
  | levels, .list items => do
    require (0 < levels) .recursionError
    return encodeText ['['] ++ joinedBytes (← jcsItems (levels - 1) items) ++ encodeText [']']
  | levels, .dict ms => do
    require (0 < levels) .recursionError
    jcsMapping dumps (jcsMembers (levels - 1) ms)

def jcsItems : ℕ → List (Document F) → Except JcsError (List Bytes)
  | _, [] => .ok []
  | levels, d :: rest => do
    let bytes ← jcsEncode levels d
    return bytes :: (← jcsItems levels rest)

def jcsMembers : ℕ → Members F → List (Str × Except JcsError Bytes)
  | _, [] => []
  | levels, (k, d) :: rest => (k, jcsEncode levels d) :: jcsMembers levels rest
end

/-- `canonical_bytes` of an object. -/
def canonicalObject (levels : ℕ) (ms : Members F) : Except JcsError Bytes :=
  jcsEncode dumps jcsFloat levels (.dict ms)

end FreeTier

mutual
def SafeIntegers : Json → Prop
  | .null | .bool _ | .str _ => True
  | .int i => i.natAbs ≤ maxSafeInteger
  | .list items => SafeItems items
  | .dict fields => SafeFields fields

def SafeItems : List Json → Prop
  | [] => True
  | v :: rest => SafeIntegers v ∧ SafeItems rest

def SafeFields : Fields → Prop
  | [] => True
  | (_, v) :: rest => SafeIntegers v ∧ SafeFields rest
end

structure ReceiptValue (v : Json) : Prop where
  unique : UniqueKeys v
  safe : SafeIntegers v

mutual
def Same : Json → Json → Prop
  | .null, .null => True
  | .bool a, .bool b => a = b
  | .int i, .int j => i = j
  | .str s, .str t => s = t
  | .list vs, .list ws => SameItems vs ws
  | .dict fs, .dict gs => fs.length = gs.length ∧ SameFields fs gs
  | _, _ => False

def SameItems : List Json → List Json → Prop
  | [], [] => True
  | v :: vs, w :: ws => Same v w ∧ SameItems vs ws
  | _, _ => False

def SameFields : Fields → Fields → Prop
  | [], _ => True
  | (k, v) :: fs, gs => (∃ w, (k, w) ∈ gs ∧ Same v w) ∧ SameFields fs gs
end

mutual
def arrange : Json → Json
  | .null => .null
  | .bool b => .bool b
  | .int i => .int i
  | .str s => .str s
  | .list items => .list (arrangeItems items)
  | .dict fields => .dict (sortBy (fun p => utf16Order p.1) (arrangeFields fields))

def arrangeItems : List Json → List Json
  | [] => []
  | v :: rest => arrange v :: arrangeItems rest

def arrangeFields : Fields → Fields
  | [] => []
  | (k, v) :: rest => (k, arrange v) :: arrangeFields rest
end

section Joins

theorem joined_eq (parts : List Text) :
    joined parts = (parts.flatMap (fun t => ',' :: t)).drop 1 := by
  induction parts with
  | nil => rfl
  | cons part rest ih =>
    cases rest with
    | nil => simp [joined]
    | cons next rest =>
      rw [joined, ih]
      · simp
      · simp

theorem renderItems_eq (items : List Json) :
    renderItems items = (items.map render).flatMap (fun t => ',' :: t) := by
  induction items with
  | nil => rfl
  | cons v items ih => rw [renderItems, ih, List.map_cons, List.flatMap_cons]

theorem renderFields_eq (fields : Fields) : renderFields fields =
    (fields.map (fun p => quote p.1 ++ ':' :: render p.2)).flatMap (fun t => ',' :: t) := by
  induction fields with
  | nil => rfl
  | cons p fields ih =>
    obtain ⟨k, v⟩ := p
    rw [renderFields, ih, List.map_cons, List.flatMap_cons]
    simp

theorem render_list (items : List Json) :
    render (.list items) = '[' :: joined (items.map render) ++ [']'] := by
  rw [render, joined_eq, renderItems_eq]

theorem render_dict (fields : Fields) : render (.dict fields) =
    '{' :: joined (fields.map (fun p => quote p.1 ++ ':' :: render p.2)) ++ ['}'] := by
  rw [render, joined_eq, renderFields_eq]

theorem encodeText_append (s t : Text) : encodeText (s ++ t) = encodeText s ++ encodeText t :=
  List.flatMap_append

theorem joinedBytes_map (parts : List Text) :
    joinedBytes (parts.map encodeText) = encodeText (joined parts) := by
  induction parts with
  | nil => rfl
  | cons part rest ih =>
    cases rest with
    | nil => rfl
    | cons next rest =>
      have hjoin : joined (part :: next :: rest) = part ++ ([','] ++ joined (next :: rest)) := rfl
      have hbytes : joinedBytes ((part :: next :: rest).map encodeText) = encodeText part ++
          encodeText [','] ++ joinedBytes ((next :: rest).map encodeText) := rfl
      rw [hjoin, hbytes, ih, encodeText_append, encodeText_append, List.append_assoc]

end Joins

section Strings

theorem scalars?_str (s : Text) : scalars? (str s) = some s := by
  induction s with
  | nil => rfl
  | cons c s ih => rw [str_cons, scalars?, ih, Option.map_some]

theorem scalars?_eq_some {s : Str} {t : Text} (h : scalars? s = some t) : s = str t := by
  induction s generalizing t with
  | nil => rw [← Option.some.inj h]; rfl
  | cons c s ih =>
    cases c with
    | scalar c =>
      obtain ⟨rest, hrest, rfl⟩ := Option.map_eq_some_iff.mp h
      rw [ih hrest, str_cons]
    | surrogate n => cases h

theorem str_injective : Function.Injective str := by
  intro s t h
  have hs := scalars?_str s
  rw [h, scalars?_str] at hs
  exact (Option.some.inj hs).symm

theorem utf16Order_injective : Function.Injective utf16Order := by
  intro s t h
  exact utf16be_injective (List.map_injective_iff.mpr (fun _ _ => UInt8.toNat_inj.mp) h)

theorem orjsonChar_eq (c : Char) : orjsonChar c = escapeChar c := by
  have hchar {n : ℕ} (h : c.toNat = n) : c = Char.ofNat n := by rw [← h, Char.ofNat_toNat]
  unfold orjsonChar
  split
  · rename_i h; rw [hchar h]; rfl
  · rename_i h; rw [hchar h]; rfl
  · rename_i h; rw [hchar h]; rfl
  · rename_i h; rw [hchar h]; rfl
  · rename_i h; rw [hchar h]; rfl
  · rename_i h; rw [hchar h]; rfl
  · rename_i h; rw [hchar h]; rfl
  · rename_i n h8 h9 h10 h12 h13 h34 h92
    have hne {d : Char} {n : ℕ} (hn : c.toNat = n → False) (hd : d.toNat = n) : ¬c = d :=
      fun h => hn (by rw [h, hd])
    rw [escapeChar, if_neg (hne h34 rfl), if_neg (hne h92 rfl), if_neg (hne h10 rfl),
      if_neg (hne h13 rfl), if_neg (hne h9 rfl), if_neg h8, if_neg h12]
    rfl

theorem dumps_eq {dumps : Text → Bytes} (hdumps : DumpsStrings dumps) (s : Text) :
    dumps s = encodeText (quote s) := by
  have hescape : s.flatMap orjsonChar = s.flatMap escapeChar :=
    List.flatMap_congr fun c _ => orjsonChar_eq c
  rw [hdumps, hescape]
  rfl

end Strings

section Encoders
variable {F : Type}

theorem arrangeItems_eq (items : List Json) : arrangeItems items = items.map arrange := by
  induction items with
  | nil => rfl
  | cons v items ih => rw [arrangeItems, ih, List.map_cons]

theorem arrangeFields_eq (fields : Fields) :
    arrangeFields fields = fields.map (fun p => (p.1, arrange p.2)) := by
  induction fields with
  | nil => rfl
  | cons p fields ih =>
    obtain ⟨k, v⟩ := p
    rw [arrangeFields, ih, List.map_cons]

theorem arrange_dict (fields : Fields) : arrange (.dict fields) =
    .dict ((sortBy (fun p : Text × Json => utf16Order p.1) fields).map
      (fun p => (p.1, arrange p.2))) := by
  rw [arrange, arrangeFields_eq]
  exact congrArg Json.dict (sortBy_map (fun x _ y _ => Iff.rfl))

theorem rejectSurrogates_str (s : Text) : rejectSurrogates (str s) = .ok s := by
  rw [rejectSurrogates, scalars?_str]
  rfl

theorem encodeString_str (s : Text) : encodeString (str s) = .ok (quote s) := by
  rw [encodeString, rejectSurrogates_str]
  rfl

theorem utf16SortKey_str (s : Text) : utf16SortKey (str s) = .ok (utf16Order s) := by
  rw [utf16SortKey, rejectSurrogates_str]
  rfl

theorem encodeMapping_ok (fields : Fields) (text : Json → Text) :
    encodeMapping (fields.map (fun p => (str p.1, .ok (text p.2)))) =
      .ok ('{' :: joined ((sortBy (fun p : Text × Json => utf16Order p.1) fields).map
        (fun p => quote p.1 ++ ':' :: text p.2)) ++ ['}']) := by
  have hkeyed : (fields.map (fun p => (str p.1, (.ok (text p.2) : Except CanonicalError Text)))).mapM
      (fun m => do return (← utf16SortKey m.1, m)) =
      .ok (fields.map (fun p => (utf16Order p.1, str p.1, .ok (text p.2)))) := by
    rw [List.mapM_map]
    refine mapM_eq_map fun p _ => ?_
    rw [Function.comp_apply, utf16SortKey_str]
    rfl
  have hsorted : sortBy Prod.fst (fields.map (fun p =>
      (utf16Order p.1, str p.1, (.ok (text p.2) : Except CanonicalError Text)))) =
      (sortBy (fun p : Text × Json => utf16Order p.1) fields).map (fun p =>
        (utf16Order p.1, str p.1, .ok (text p.2))) := sortBy_map (fun x _ y _ => Iff.rfl)
  rw [encodeMapping, hkeyed, ok_bind, hsorted, List.mapM_map, mapM_eq_map, ok_bind]
  · rfl
  · intro p _
    rw [Function.comp_apply, encodeString_str]
    rfl

theorem encodeInteger_safe {i : ℤ} (h : i.natAbs ≤ maxSafeInteger) :
    encodeInteger i = .ok (decimal i) := if_neg (by omega)

theorem jcsInteger_safe {i : ℤ} (h : i.natAbs ≤ maxSafeInteger) :
    jcsInteger i = .ok (encodeText (decimal i)) := if_neg (by omega)

mutual
theorem encode_document (v : Json) (h : SafeIntegers v) {levels : ℕ}
    (hlevels : (document v : Document F).depth ≤ levels) :
    encode levels (document v : Document F) = .ok (render (arrange v)) := by
  cases v with
  | null => rfl
  | bool b => cases b <;> rfl
  | int i => exact encodeInteger_safe h
  | str s => exact encodeString_str s
  | list items =>
    obtain ⟨n, rfl⟩ := Nat.exists_eq_add_of_le' (Nat.le_of_add_left_le hlevels)
    rw [document, encode, require_of n.succ_pos, ok_bind, Nat.add_sub_cancel,
      encodeItems_documents items h (Nat.le_of_add_le_add_right hlevels), arrange, render_list,
      arrangeItems_eq, List.map_map]
    rfl
  | dict fields =>
    obtain ⟨n, rfl⟩ := Nat.exists_eq_add_of_le' (Nat.le_of_add_left_le hlevels)
    rw [document, encode, require_of n.succ_pos, ok_bind, Nat.add_sub_cancel,
      encodeMembers_members fields h (Nat.le_of_add_le_add_right hlevels), arrange_dict,
      render_dict, List.map_map]
    exact encodeMapping_ok fields (fun v => render (arrange v))

theorem encodeItems_documents (items : List Json) (h : SafeItems items) {levels : ℕ}
    (hlevels : itemsDepth (documents items : List (Document F)) ≤ levels) :
    encodeItems levels (documents items : List (Document F)) =
      .ok (items.map (fun v => render (arrange v))) := by
  cases items with
  | nil => rfl
  | cons v items =>
    obtain ⟨hfirst, hrest⟩ := max_le_iff.mp hlevels
    rw [documents, encodeItems, encode_document v h.1 hfirst, ok_bind,
      encodeItems_documents items h.2 hrest]
    rfl

theorem encodeMembers_members (fields : Fields) (h : SafeFields fields) {levels : ℕ}
    (hlevels : membersDepth (members fields : Members F) ≤ levels) :
    encodeMembers levels (members fields : Members F) =
      fields.map (fun p => (str p.1, .ok (render (arrange p.2)))) := by
  cases fields with
  | nil => rfl
  | cons p fields =>
    obtain ⟨k, v⟩ := p
    obtain ⟨hfirst, hrest⟩ := max_le_iff.mp hlevels
    rw [members, encodeMembers, encode_document v h.1 hfirst,
      encodeMembers_members fields h.2 hrest]
    rfl
end

theorem canonicalize_document {v : Json} (h : SafeIntegers v) {levels : ℕ}
    (hlevels : (document v : Document F).depth ≤ levels) :
    canonicalize levels (document v : Document F) = .ok (encodeText (render (arrange v))) := by
  rw [canonicalize, encode_document v h hlevels]
  rfl

variable {dumps : Text → Bytes}

theorem jcsMapping_ok (hdumps : DumpsStrings dumps) (fields : Fields) (text : Json → Text) :
    jcsMapping dumps (fields.map (fun p => (str p.1, .ok (encodeText (text p.2))))) =
      .ok (encodeText ('{' :: joined ((sortBy (fun p : Text × Json => utf16Order p.1) fields).map
        (fun p => quote p.1 ++ ':' :: text p.2)) ++ ['}'])) := by
  have hkeyed : (fields.map (fun p =>
      (str p.1, (.ok (encodeText (text p.2)) : Except JcsError Bytes)))).mapM (fun m => do
        let key ← present (scalars? m.1) JcsError.invalidKey
        return (utf16Order key, key, m.2)) =
      .ok (fields.map (fun p => (utf16Order p.1, p.1, .ok (encodeText (text p.2))))) := by
    rw [List.mapM_map]
    refine mapM_eq_map fun p _ => ?_
    rw [Function.comp_apply, scalars?_str]
    rfl
  have hsorted : sortBy Prod.fst (fields.map (fun p =>
      (utf16Order p.1, p.1, (.ok (encodeText (text p.2)) : Except JcsError Bytes)))) =
      (sortBy (fun p : Text × Json => utf16Order p.1) fields).map (fun p =>
        (utf16Order p.1, p.1, .ok (encodeText (text p.2)))) :=
    sortBy_map (fun x _ y _ => Iff.rfl)
  have hwritten : ((sortBy (fun p : Text × Json => utf16Order p.1) fields).map (fun p =>
        (utf16Order p.1, p.1, (.ok (encodeText (text p.2)) : Except JcsError Bytes)))).mapM
      (fun m => do return dumps m.2.1 ++ encodeText [':'] ++ (← m.2.2)) =
      .ok (((sortBy (fun p : Text × Json => utf16Order p.1) fields).map
        (fun p => quote p.1 ++ ':' :: text p.2)).map encodeText) := by
    rw [List.mapM_map, List.map_map]
    refine mapM_eq_map fun p _ => ?_
    rw [Function.comp_apply, Function.comp_apply, dumps_eq hdumps, ← encodeText_append]
    have hsplit : quote p.1 ++ ':' :: text p.2 = quote p.1 ++ [':'] ++ text p.2 := by simp
    rw [hsplit, encodeText_append _ (text p.2)]
    rfl
  rw [jcsMapping, hkeyed, ok_bind, hsorted, hwritten, ok_bind, joinedBytes_map,
    ← encodeText_append, ← encodeText_append]
  rfl

variable (jcsFloat : F → Except JcsError Bytes)

mutual
theorem jcsEncode_document (hdumps : DumpsStrings dumps) (v : Json) (h : SafeIntegers v)
    {levels : ℕ} (hlevels : (document v : Document F).depth ≤ levels) :
    jcsEncode dumps jcsFloat levels (document v) = .ok (encodeText (render (arrange v))) := by
  cases v with
  | null => rfl
  | bool b => cases b <;> rfl
  | int i => exact jcsInteger_safe h
  | str s =>
    rw [document, jcsEncode, jcsString, scalars?_str, present, ok_bind, dumps_eq hdumps]
    rfl
  | list items =>
    obtain ⟨n, rfl⟩ := Nat.exists_eq_add_of_le' (Nat.le_of_add_left_le hlevels)
    have hitems : (items.map (fun v => encodeText (render (arrange v)))) =
        (items.map (fun v => render (arrange v))).map encodeText := by rw [List.map_map]; rfl
    rw [document, jcsEncode, require_of n.succ_pos, ok_bind, Nat.add_sub_cancel,
      jcsItems_documents hdumps items h (Nat.le_of_add_le_add_right hlevels), ok_bind, hitems,
      joinedBytes_map, arrange, render_list, arrangeItems_eq, List.map_map, ← encodeText_append,
      ← encodeText_append]
    rfl
  | dict fields =>
    obtain ⟨n, rfl⟩ := Nat.exists_eq_add_of_le' (Nat.le_of_add_left_le hlevels)
    rw [document, jcsEncode, require_of n.succ_pos, ok_bind, Nat.add_sub_cancel,
      jcsMembers_members hdumps fields h (Nat.le_of_add_le_add_right hlevels), arrange_dict,
      render_dict, List.map_map]
    exact jcsMapping_ok hdumps fields (fun v => render (arrange v))

theorem jcsItems_documents (hdumps : DumpsStrings dumps) (items : List Json)
    (h : SafeItems items) {levels : ℕ}
    (hlevels : itemsDepth (documents items : List (Document F)) ≤ levels) :
    jcsItems dumps jcsFloat levels (documents items) =
      .ok (items.map (fun v => encodeText (render (arrange v)))) := by
  cases items with
  | nil => rfl
  | cons v items =>
    obtain ⟨hfirst, hrest⟩ := max_le_iff.mp hlevels
    rw [documents, jcsItems, jcsEncode_document hdumps v h.1 hfirst, ok_bind,
      jcsItems_documents hdumps items h.2 hrest]
    rfl

theorem jcsMembers_members (hdumps : DumpsStrings dumps) (fields : Fields)
    (h : SafeFields fields) {levels : ℕ}
    (hlevels : membersDepth (members fields : Members F) ≤ levels) :
    jcsMembers dumps jcsFloat levels (members fields) =
      fields.map (fun p => (str p.1, .ok (encodeText (render (arrange p.2))))) := by
  cases fields with
  | nil => rfl
  | cons p fields =>
    obtain ⟨k, v⟩ := p
    obtain ⟨hfirst, hrest⟩ := max_le_iff.mp hlevels
    rw [members, jcsMembers, jcsEncode_document hdumps v h.1 hfirst,
      jcsMembers_members hdumps fields h.2 hrest]
    rfl
end

end Encoders

section Order

theorem uniqueFields_iff {fields : Fields} :
    UniqueFields fields ↔ ∀ p ∈ fields, UniqueKeys p.2 := by
  induction fields with
  | nil => simp [UniqueFields]
  | cons p fields ih =>
    obtain ⟨k, v⟩ := p
    rw [UniqueFields, ih, List.forall_mem_cons]

theorem safeFields_iff {fields : Fields} :
    SafeFields fields ↔ ∀ p ∈ fields, SafeIntegers p.2 := by
  induction fields with
  | nil => simp [SafeFields]
  | cons p fields ih =>
    obtain ⟨k, v⟩ := p
    rw [SafeFields, ih, List.forall_mem_cons]

theorem mem_arrangeFields {fields : Fields} {k : Text} {v : Json} :
    (k, v) ∈ arrangeFields fields ↔ ∃ w, (k, w) ∈ fields ∧ arrange w = v := by
  rw [arrangeFields_eq, List.mem_map]
  constructor
  · rintro ⟨⟨l, w⟩, hmem, heq⟩
    obtain ⟨rfl, rfl⟩ := Prod.mk.inj heq
    exact ⟨w, hmem, rfl⟩
  · rintro ⟨w, hmem, rfl⟩
    exact ⟨(k, w), hmem, rfl⟩

theorem arrangeFields_keys (fields : Fields) :
    (arrangeFields fields).map Prod.fst = fields.map Prod.fst := by
  rw [arrangeFields_eq, List.map_map]
  rfl

mutual
theorem arrange_unique (v : Json) (h : UniqueKeys v) : UniqueKeys (arrange v) := by
  cases v with
  | null | bool _ | int _ | str _ => trivial
  | list items => exact arrangeItems_unique items h
  | dict fields =>
    have hperm := sortBy_perm (fun p : Text × Json => utf16Order p.1) (arrangeFields fields)
    refine ⟨?_, uniqueFields_iff.mpr fun p hp => ?_⟩
    · rw [(hperm.map Prod.fst).nodup_iff, arrangeFields_keys]
      exact h.1
    · exact arrangeFields_unique fields h.2 p (mem_sortBy.mp hp)

theorem arrangeItems_unique (items : List Json) (h : UniqueItems items) :
    UniqueItems (arrangeItems items) := by
  cases items with
  | nil => trivial
  | cons v items => exact ⟨arrange_unique v h.1, arrangeItems_unique items h.2⟩

theorem arrangeFields_unique (fields : Fields) (h : UniqueFields fields) :
    ∀ p ∈ arrangeFields fields, UniqueKeys p.2 := by
  cases fields with
  | nil => simp [arrangeFields]
  | cons p fields =>
    obtain ⟨k, v⟩ := p
    exact List.forall_mem_cons.mpr ⟨arrange_unique v h.1, arrangeFields_unique fields h.2⟩
end

mutual
theorem arrange_safe (v : Json) (h : SafeIntegers v) : SafeIntegers (arrange v) := by
  cases v with
  | null | bool _ | str _ => trivial
  | int i => exact h
  | list items => exact arrangeItems_safe items h
  | dict fields =>
    exact safeFields_iff.mpr fun p hp => arrangeFields_safe fields h p (mem_sortBy.mp hp)

theorem arrangeItems_safe (items : List Json) (h : SafeItems items) :
    SafeItems (arrangeItems items) := by
  cases items with
  | nil => trivial
  | cons v items => exact ⟨arrange_safe v h.1, arrangeItems_safe items h.2⟩

theorem arrangeFields_safe (fields : Fields) (h : SafeFields fields) :
    ∀ p ∈ arrangeFields fields, SafeIntegers p.2 := by
  cases fields with
  | nil => simp [arrangeFields]
  | cons p fields =>
    obtain ⟨k, v⟩ := p
    exact List.forall_mem_cons.mpr ⟨arrange_safe v h.1, arrangeFields_safe fields h.2⟩
end

mutual
theorem arrange_idem (v : Json) : arrange (arrange v) = arrange v := by
  cases v with
  | null | bool _ | int _ | str _ => rfl
  | list items => exact congrArg Json.list (arrangeItems_idem items)
  | dict fields =>
    have hvalues : ∀ p ∈ sortBy (fun p : Text × Json => utf16Order p.1) (arrangeFields fields),
        (p.1, arrange p.2) = p := by
      intro p hp
      rw [arrangeFields_idem fields p (mem_sortBy.mp hp)]
    rw [arrange, arrange_dict, sortBy_idem]
    exact congrArg Json.dict ((List.map_congr_left hvalues).trans (List.map_id _))

theorem arrangeItems_idem (items : List Json) :
    arrangeItems (arrangeItems items) = arrangeItems items := by
  cases items with
  | nil => rfl
  | cons v items => rw [arrangeItems, arrangeItems, arrange_idem v, arrangeItems_idem items]

theorem arrangeFields_idem (fields : Fields) :
    ∀ p ∈ arrangeFields fields, arrange p.2 = p.2 := by
  cases fields with
  | nil => simp [arrangeFields]
  | cons p fields =>
    obtain ⟨k, v⟩ := p
    exact List.forall_mem_cons.mpr ⟨arrange_idem v, arrangeFields_idem fields⟩
end

/-- Objects have the same arrangement when they have the same arranged members. -/
theorem arrange_dict_iff {fs gs : Fields} (hfs : (fs.map Prod.fst).Nodup) :
    arrange (.dict fs) = arrange (.dict gs) ↔
      fs.length = gs.length ∧ ∀ p ∈ arrangeFields fs, p ∈ arrangeFields gs := by
  have hlength (hs : Fields) : (arrangeFields hs).length = hs.length := by
    rw [arrangeFields_eq, List.length_map]
  have hkeys : ((arrangeFields fs).map Prod.fst).Nodup := by
    rw [arrangeFields_keys]
    exact hfs
  have hunique : ∀ p ∈ arrangeFields fs, ∀ q ∈ arrangeFields fs,
      utf16Order p.1 = utf16Order q.1 → p = q :=
    fun p hp q hq heq => List.inj_on_of_nodup_map hkeys hp hq (utf16Order_injective heq)
  rw [arrange, arrange]
  constructor
  · intro h
    have hsorted := Json.dict.inj h
    have hperm : (arrangeFields fs).Perm (arrangeFields gs) :=
      (sortBy_perm _ _).symm.trans ((List.Perm.of_eq hsorted).trans (sortBy_perm _ _))
    have hlen := hperm.length_eq
    rw [hlength, hlength] at hlen
    exact ⟨hlen, fun p hp => hperm.mem_iff.mp hp⟩
  · rintro ⟨hlen, hsubset⟩
    have hperm : (arrangeFields fs).Perm (arrangeFields gs) :=
      (List.subperm_of_subset (List.Nodup.of_map _ hkeys) hsubset).perm_of_length_le
        (by rw [hlength, hlength]; omega)
    rw [sortBy_eq_of_perm hperm hunique]

mutual
/-- Two values have the same arrangement exactly when they are equal up to the order
    of members. -/
theorem arrange_eq_iff (v w : Json) (hv : UniqueKeys v) (hw : UniqueKeys w) :
    arrange v = arrange w ↔ Same v w := by
  cases v with
  | null => cases w <;> simp [arrange, Same]
  | bool b => cases w <;> simp [arrange, Same]
  | int i => cases w <;> simp [arrange, Same]
  | str s => cases w <;> simp [arrange, Same]
  | list vs =>
    cases w with
    | list ws =>
      rw [arrange, arrange, Same, Json.list.injEq]
      exact arrangeItems_eq_iff vs ws hv hw
    | null | bool _ | int _ | str _ | dict _ => simp [arrange, Same]
  | dict fs =>
    cases w with
    | dict gs =>
      rw [arrange_dict_iff hv.1, Same]
      exact and_congr_right fun _ => sameFields_iff fs gs hv.2 (uniqueFields_iff.mp hw.2)
    | null | bool _ | int _ | str _ | list _ => simp [arrange, Same]

theorem arrangeItems_eq_iff (vs ws : List Json) (hv : UniqueItems vs) (hw : UniqueItems ws) :
    arrangeItems vs = arrangeItems ws ↔ SameItems vs ws := by
  cases vs with
  | nil => cases ws <;> simp [arrangeItems, SameItems]
  | cons v vs =>
    cases ws with
    | nil => simp [arrangeItems, SameItems]
    | cons w ws =>
      rw [arrangeItems, arrangeItems, SameItems, List.cons.injEq,
        arrange_eq_iff v w hv.1 hw.1, arrangeItems_eq_iff vs ws hv.2 hw.2]

theorem sameFields_iff (fs gs : Fields) (hfs : UniqueFields fs)
    (hgs : ∀ q ∈ gs, UniqueKeys q.2) :
    (∀ p ∈ arrangeFields fs, p ∈ arrangeFields gs) ↔ SameFields fs gs := by
  cases fs with
  | nil => simp [arrangeFields, SameFields]
  | cons p fs =>
    obtain ⟨k, v⟩ := p
    rw [arrangeFields, SameFields, List.forall_mem_cons, mem_arrangeFields,
      sameFields_iff fs gs hfs.2 hgs]
    refine and_congr_left fun _ => exists_congr fun w => and_congr_right fun hmem => ?_
    rw [eq_comm]
    exact arrange_eq_iff v w hfs.1 (hgs _ hmem)
end

theorem same_names {fs gs : Fields} (hfs : (fs.map Prod.fst).Nodup)
    (h : Same (.dict fs) (.dict gs)) : (fs.map Prod.fst).Perm (gs.map Prod.fst) := by
  have hnames : ∀ fs : Fields, SameFields fs gs → ∀ k ∈ fs.map Prod.fst, k ∈ gs.map Prod.fst := by
    intro fs
    induction fs with
    | nil => simp
    | cons p fs ih =>
      obtain ⟨k, v⟩ := p
      rintro ⟨⟨w, hmem, _⟩, hrest⟩
      rw [List.map_cons, List.forall_mem_cons]
      exact ⟨List.mem_map.mpr ⟨_, hmem, rfl⟩, ih hrest⟩
  refine (List.subperm_of_subset hfs (hnames fs h.2)).perm_of_length_le ?_
  rw [List.length_map, List.length_map]
  exact h.1.ge

end Order

section Inverse
variable {F : Type}

theorem encodeMapping_eq_ok {ms : List (Str × Except CanonicalError Text)} {t : Text}
    (h : encodeMapping ms = .ok t) :
    ∀ m ∈ ms, (∃ s, m.1 = str s) ∧ ∃ u, m.2 = .ok u := by
  obtain ⟨keyed, hkeyed, h⟩ := bind_eq_ok.mp h
  obtain ⟨written, hwritten, _⟩ := bind_eq_ok.mp h
  intro m hm
  obtain ⟨entry, hentry, hkey⟩ := forall₂_mem_left (mapM_forall₂.mp hkeyed) m hm
  obtain ⟨order, _, hpair⟩ := bind_eq_ok.mp hkey
  rw [← Except.ok.inj hpair] at hentry
  obtain ⟨line, _, hline⟩ := forall₂_mem_left (mapM_forall₂.mp hwritten) _ (mem_sortBy.mpr hentry)
  obtain ⟨name, hname, hline⟩ := bind_eq_ok.mp hline
  obtain ⟨u, hu, _⟩ := bind_eq_ok.mp hline
  obtain ⟨s, hs, _⟩ := bind_eq_ok.mp hname
  exact ⟨⟨s, scalars?_eq_some (present_eq_ok.mp hs)⟩, u, hu⟩

theorem members_keys (fields : Fields) :
    (members fields : Members F).map Prod.fst = (fields.map Prod.fst).map str := by
  induction fields with
  | nil => rfl
  | cons p fields ih =>
    obtain ⟨k, v⟩ := p
    rw [members, List.map_cons, ih, List.map_cons, List.map_cons]

mutual
theorem document_unique (v : Json) (h : UniqueKeys v) : (document v : Document F).Unique := by
  cases v with
  | null | bool _ | int _ | str _ => trivial
  | list items => exact documents_unique items h
  | dict fields =>
    refine ⟨?_, members_unique fields h.2⟩
    rw [members_keys]
    exact h.1.map str_injective

theorem documents_unique (items : List Json) (h : UniqueItems items) :
    UniqueDocuments (documents items : List (Document F)) := by
  cases items with
  | nil => trivial
  | cons v items => exact ⟨document_unique v h.1, documents_unique items h.2⟩

theorem members_unique (fields : Fields) (h : UniqueFields fields) :
    UniqueMembers (members fields : Members F) := by
  cases fields with
  | nil => trivial
  | cons p fields =>
    obtain ⟨k, v⟩ := p
    exact ⟨document_unique v h.1, members_unique fields h.2⟩
end

theorem membersDepth_perm {fs gs : Fields} (h : fs.Perm gs) :
    membersDepth (members fs : Members F) = membersDepth (members gs : Members F) := by
  induction h with
  | nil => rfl
  | cons p _ ih => rw [members, members, membersDepth, membersDepth, ih]
  | swap p q fs =>
    simp only [members, membersDepth]
    exact max_left_comm _ _ _
  | trans _ _ ih ih' => exact ih.trans ih'

mutual
theorem depth_arrange (v : Json) :
    (document (arrange v) : Document F).depth = (document v : Document F).depth := by
  cases v with
  | null | bool _ | int _ | str _ => rfl
  | list items => exact congrArg Nat.succ (itemsDepth_arrange items)
  | dict fields =>
    have hperm := sortBy_perm (fun p : Text × Json => utf16Order p.1) (arrangeFields fields)
    exact congrArg Nat.succ ((membersDepth_perm hperm).trans (membersDepth_arrange fields))

theorem itemsDepth_arrange (items : List Json) :
    itemsDepth (documents (arrangeItems items) : List (Document F)) =
      itemsDepth (documents items : List (Document F)) := by
  cases items with
  | nil => rfl
  | cons v items => exact congrArg₂ max (depth_arrange v) (itemsDepth_arrange items)

theorem membersDepth_arrange (fields : Fields) :
    membersDepth (members (arrangeFields fields) : Members F) =
      membersDepth (members fields : Members F) := by
  cases fields with
  | nil => rfl
  | cons p fields =>
    obtain ⟨k, v⟩ := p
    exact congrArg₂ max (depth_arrange v) (membersDepth_arrange fields)
end

mutual
theorem encode_subset {levels : ℕ} (d : Document F) (hd : d.Unique) {t : Text}
    (h : encode levels d = .ok t) :
    ∃ v, document v = d ∧ ReceiptValue v ∧ d.depth ≤ levels := by
  cases d with
  | null => exact ⟨.null, rfl, ⟨trivial, trivial⟩, Nat.zero_le _⟩
  | bool b => exact ⟨.bool b, rfl, ⟨trivial, trivial⟩, Nat.zero_le _⟩
  | int i =>
    refine ⟨.int i, rfl, ⟨trivial, ?_⟩, Nat.zero_le _⟩
    rw [encode, encodeInteger] at h
    split at h
    · cases h
    · rename_i hsafe
      change i.natAbs ≤ maxSafeInteger
      omega
  | float x =>
    rw [encode] at h
    cases h
  | str s =>
    rw [encode] at h
    obtain ⟨text, htext, _⟩ := bind_eq_ok.mp h
    refine ⟨.str text, ?_, ⟨trivial, trivial⟩, Nat.zero_le _⟩
    rw [document, scalars?_eq_some (present_eq_ok.mp htext)]
  | list items =>
    rw [encode] at h
    obtain ⟨hlevels, h⟩ := require_bind.mp h
    obtain ⟨texts, htexts, _⟩ := bind_eq_ok.mp h
    obtain ⟨vs, hvs, hunique, hsafe, hdepth⟩ := encodeItems_subset items hd htexts
    refine ⟨.list vs, congrArg Document.list hvs, ⟨hunique, hsafe⟩, ?_⟩
    rw [Document.depth]
    omega
  | dict ms =>
    rw [encode] at h
    obtain ⟨hlevels, h⟩ := require_bind.mp h
    obtain ⟨fs, hfs, hunique, hsafe, hdepth⟩ :=
      encodeMembers_subset ms hd.2 (encodeMapping_eq_ok h)
    have hkeys := hd.1
    rw [← hfs, members_keys] at hkeys
    refine ⟨.dict fs, congrArg Document.dict hfs, ⟨⟨List.Nodup.of_map _ hkeys, hunique⟩, hsafe⟩, ?_⟩
    rw [Document.depth]
    omega

theorem encodeItems_subset {levels : ℕ} (items : List (Document F)) (hd : UniqueDocuments items)
    {ts : List Text} (h : encodeItems levels items = .ok ts) :
    ∃ vs, documents vs = items ∧ UniqueItems vs ∧ SafeItems vs ∧ itemsDepth items ≤ levels := by
  cases items with
  | nil => exact ⟨[], rfl, trivial, trivial, Nat.zero_le _⟩
  | cons d items =>
    rw [encodeItems] at h
    obtain ⟨t, ht, h⟩ := bind_eq_ok.mp h
    obtain ⟨us, hus, _⟩ := bind_eq_ok.mp h
    obtain ⟨v, rfl, hv, hfirst⟩ := encode_subset d hd.1 ht
    obtain ⟨vs, rfl, hunique, hsafe, hrest⟩ := encodeItems_subset items hd.2 hus
    exact ⟨v :: vs, rfl, ⟨hv.unique, hunique⟩, ⟨hv.safe, hsafe⟩, max_le hfirst hrest⟩

theorem encodeMembers_subset {levels : ℕ} (ms : Members F) (hd : UniqueMembers ms)
    (h : ∀ m ∈ encodeMembers levels ms, (∃ s, m.1 = str s) ∧ ∃ u, m.2 = .ok u) :
    ∃ fs, members fs = ms ∧ UniqueFields fs ∧ SafeFields fs ∧ membersDepth ms ≤ levels := by
  cases ms with
  | nil => exact ⟨[], rfl, trivial, trivial, Nat.zero_le _⟩
  | cons m ms =>
    obtain ⟨k, d⟩ := m
    rw [encodeMembers, List.forall_mem_cons] at h
    obtain ⟨⟨⟨s, hs⟩, u, hu⟩, hrest⟩ := h
    obtain ⟨v, rfl, hv, hfirst⟩ := encode_subset d hd.1 hu
    obtain ⟨fs, rfl, hunique, hsafe, hmore⟩ := encodeMembers_subset ms hd.2 hrest
    refine ⟨(s, v) :: fs, ?_, ⟨hv.unique, hunique⟩, ⟨hv.safe, hsafe⟩, max_le hfirst hmore⟩
    rw [members, ← hs]
end

end Inverse

section Results
variable {F α : Type} {limits : RecursionLimits} {readFloat : List Char → F}
  {model : Document F → Option α}

theorem uniqueObject_keeps : KeepsUnique (@uniqueObject F) := by
  intro fields h
  have hnodup : ((members fields : Members F).map Prod.fst).Nodup := by
    rw [members_keys]
    exact h.map str_injective
  rw [uniqueObject, require_of hnodup]
  rfl

theorem uniqueObject_checks : ChecksUnique (@uniqueObject F) := by
  intro ms kept h
  obtain ⟨hnodup, h⟩ := require_bind.mp h
  exact ⟨(Except.ok.inj h).symm, hnodup⟩

theorem receiptValue_arrange {v : Json} (h : ReceiptValue v) : ReceiptValue (arrange v) :=
  ⟨arrange_unique v h.unique, arrange_safe v h.safe⟩

theorem same_arrange {v : Json} (h : ReceiptValue v) : Same v (arrange v) :=
  (arrange_eq_iff v _ h.unique (arrange_unique v h.unique)).mp (arrange_idem v).symm

theorem loads_canonical {v : Json} (h : ReceiptValue v)
    (hlevels : (document v : Document F).depth ≤ limits.loads) :
    loads readFloat uniqueObject .jsonInvalid .recursionError limits.loads
        (encodeText (render (arrange v))) = .ok (document (arrange v)) := by
  rw [← depth_arrange] at hlevels
  exact loads_render readFloat _ _ uniqueObject_keeps (arrange_unique v h.unique) hlevels

/-- `model_validate` looks members up by name: their order does not matter. -/
def OrderFree (model : Document F → Option α) : Prop :=
  ∀ v w, ReceiptValue v → ReceiptValue w → Same v w →
    (model (document v)).isSome = (model (document w)).isSome

/-- A value of the subset that nests within the recursion limits. -/
structure Fits (F : Type) (limits : RecursionLimits) (v : Json) : Prop extends ReceiptValue v where
  encode : (document v : Document F).depth ≤ limits.encode
  jcsEncode : (document v : Document F).depth ≤ limits.jcsEncode
  loads : (document v : Document F).depth ≤ limits.loads

theorem fits_arrange {v : Json} (h : Fits F limits v) : Fits F limits (arrange v) :=
  ⟨receiptValue_arrange h.toReceiptValue, (depth_arrange v).trans_le h.encode,
    (depth_arrange v).trans_le h.jcsEncode, (depth_arrange v).trans_le h.loads⟩

/-- Only the canonical bytes of documents that the model accepts are verified. -/
theorem verify_iff (hmodel : OrderFree model) {raw : Bytes} (hsize : raw.length ≤ maxReceiptBytes) :
    (∃ r, verifyCanonicalReceipt limits readFloat model raw = .ok r) ↔
      ∃ v, ReceiptValue v ∧ (document v : Document F).depth ≤ limits.loads ∧
        canonicalize limits.encode (document v : Document F) = .ok raw ∧
        (model (document v)).isSome = true := by
  rw [verifyCanonicalReceipt, require_of hsize, ok_bind]
  constructor
  · rintro ⟨r, h⟩
    obtain ⟨value, hvalue, h⟩ := bind_eq_ok.mp h
    obtain ⟨canonical, hcanonical, h⟩ := bind_eq_ok.mp h
    obtain ⟨heq, h⟩ := require_bind.mp h
    have hbytes : canonicalize limits.encode value = .ok raw := by
      cases hresult : canonicalize limits.encode value with
      | error e => simp [hresult, Except.mapError] at hcanonical
      | ok bytes =>
        rw [hresult] at hcanonical
        rw [heq, ← Except.ok.inj hcanonical]
    obtain ⟨text, htext, _⟩ := bind_eq_ok.mp hbytes
    obtain ⟨hunique, hdepth⟩ := loads_read uniqueObject_checks hvalue
    obtain ⟨v, rfl, hv, _⟩ := encode_subset value hunique htext
    exact ⟨v, hv, hdepth, hbytes, by rw [present_eq_ok.mp h]; rfl⟩
  · rintro ⟨v, hv, hdepth, hbytes, haccepted⟩
    have harranged := receiptValue_arrange hv
    obtain ⟨text, htext, _⟩ := bind_eq_ok.mp hbytes
    obtain ⟨_, _, _, hlevels⟩ := encode_subset (document v) (document_unique v hv.unique) htext
    rw [canonicalize_document hv.safe hlevels] at hbytes
    obtain rfl := Except.ok.inj hbytes
    have hagain : canonicalize limits.encode (document (arrange v) : Document F) =
        .ok (encodeText (render (arrange v))) := by
      rw [← depth_arrange] at hlevels
      rw [canonicalize_document harranged.safe hlevels, arrange_idem]
    rw [hmodel v (arrange v) hv harranged (same_arrange hv), Option.isSome_iff_exists] at haccepted
    obtain ⟨r, hr⟩ := haccepted
    refine ⟨r, ?_⟩
    rw [loads_canonical hv hdepth, ok_bind, hagain, Except.mapError, ok_bind, require_of rfl, ok_bind,
      hr]
    rfl

/-- Receipts of the subset that nest within the recursion limits are canonical: they are
    encoded, read back, told apart up to the order of members, written alike by both encoders,
    and verified exactly in their canonical bytes. -/
theorem receipts_canonical (limits : RecursionLimits) (readFloat : List Char → F)
    (jcsFloat : F → Except JcsError Bytes) {dumps : Text → Bytes} (hdumps : DumpsStrings dumps)
    {model : Document F → Option α} (hmodel : OrderFree model) :
    (∀ v, Fits F limits v → ∃ raw, canonicalize limits.encode (document v : Document F) = .ok raw ∧
      ∃ w, loads readFloat uniqueObject ReceiptError.jsonInvalid .recursionError limits.loads raw =
          .ok (document w) ∧ Fits F limits w ∧ Same v w) ∧
    (∀ v w, Fits F limits v → Fits F limits w →
      (canonicalize limits.encode (document v : Document F) =
        canonicalize limits.encode (document w : Document F) ↔ Same v w)) ∧
    (∀ fields raw, Fits F limits (.dict fields) →
      (canonicalObject dumps jcsFloat limits.jcsEncode (members fields) = .ok raw ↔
        canonicalize limits.encode (.dict (members fields) : Document F) = .ok raw)) ∧
    (∀ raw, raw.length ≤ maxReceiptBytes →
      ((∃ r, verifyCanonicalReceipt limits readFloat model raw = .ok r) ↔
        ∃ v, ReceiptValue v ∧ (document v : Document F).depth ≤ limits.loads ∧
          canonicalize limits.encode (document v : Document F) = .ok raw ∧
          (model (document v)).isSome = true)) := by
  refine ⟨?_, ?_, ?_, fun raw hsize => verify_iff hmodel hsize⟩
  · intro v hv
    exact ⟨_, canonicalize_document hv.safe hv.encode, _, loads_canonical hv.toReceiptValue hv.loads,
      fits_arrange hv, same_arrange hv.toReceiptValue⟩
  · intro v w hv hw
    rw [canonicalize_document hv.safe hv.encode, canonicalize_document hw.safe hw.encode,
      Except.ok.injEq, ← arrange_eq_iff v w hv.unique hw.unique]
    constructor
    · intro h
      exact render_injective (encodeText_injective h)
    · intro h
      rw [h]
  · intro fields raw hv
    have hjcs := jcsEncode_document jcsFloat hdumps (.dict fields) hv.safe hv.jcsEncode
    have hcanonical := @canonicalize_document F (.dict fields) hv.safe _ hv.encode
    rw [document] at hjcs hcanonical
    rw [canonicalObject, hjcs, hcanonical, Except.ok.injEq, Except.ok.injEq]

/-- A closed model: the members are those named, with values of any kind. -/
def closedModel (names : List Text) : Document Unit → Option ℕ
  | .dict ms => if (ms.map Prod.fst).Perm (names.map str) then some ms.length else none
  | _ => none

theorem closedModel_orderFree (names : List Text) : OrderFree (closedModel names) := by
  intro v w hv hw hsame
  cases v with
  | dict fs =>
    cases w with
    | dict gs =>
      have hperm := same_names hv.unique.1 hsame
      have hkeys : ((members fs : Members Unit).map Prod.fst).Perm
          ((members gs : Members Unit).map Prod.fst) := by
        rw [members_keys, members_keys]
        exact hperm.map str
      rw [document, document, closedModel, closedModel]
      by_cases hnames : ((members gs : Members Unit).map Prod.fst).Perm (names.map str)
      · rw [if_pos hnames, if_pos (hkeys.trans hnames)]
        rfl
      · rw [if_neg hnames, if_neg fun h => hnames (hkeys.symm.trans h)]
    | null | bool _ | int _ | str _ | list _ => exact absurd hsame id
  | null | bool _ | int _ | str _ | list _ =>
    cases w <;> first | rfl | exact absurd hsame id

def sampleLimits : RecursionLimits := ⟨400, 400, 1000⟩

def sampleDumps (s : Text) : Bytes := encodeText ('"' :: s.flatMap orjsonChar ++ ['"'])

theorem sampleDumps_strings : DumpsStrings sampleDumps := fun _ => rfl

/-- The names of the inner members stand one way by code points, the other by UTF-16 units. -/
def sampleReceipt : Json :=
  .dict [("schema".toList, .str "v1".toList),
    ("counts".toList, .dict [("｡".toList, .int 1), ("😀".toList, .bool true)])]

theorem receipts_canonical_sample :
    (∃ r, verifyCanonicalReceipt sampleLimits (fun _ => ())
        (closedModel ["counts".toList, "schema".toList])
        (encodeText "\x7b\"counts\":\x7b\"😀\":true,\"｡\":1\x7d,\"schema\":\"v1\"\x7d".toList) =
          .ok r) ∧
      verifyCanonicalReceipt sampleLimits (fun _ => ())
        (closedModel ["counts".toList, "schema".toList])
        (encodeText "\x7b\"counts\":\x7b\"｡\":1,\"😀\":true\x7d,\"schema\":\"v1\"\x7d".toList) =
          .error .noncanonical :=
  ⟨((receipts_canonical sampleLimits (fun _ => ()) (fun _ => .error .notFinite)
      sampleDumps_strings (closedModel_orderFree _)).2.2.2 _ (by decide +kernel)).mpr
        ⟨sampleReceipt, ⟨by simp [sampleReceipt, UniqueKeys, UniqueFields],
          by simp [sampleReceipt, SafeIntegers, SafeFields, maxSafeInteger]⟩, by decide +kernel,
          by decide +kernel, by decide +kernel⟩,
    by decide +kernel⟩

def nest : ℕ → Json
  | 0 => .list []
  | n + 1 => .list [nest n]

theorem nest_value (n : ℕ) : ReceiptValue (nest n) := by
  induction n with
  | zero => exact ⟨trivial, trivial⟩
  | succ n ih => exact ⟨⟨ih.unique, trivial⟩, ih.safe, trivial⟩

theorem encode_nest (n : ℕ) :
    encode n (document (nest n) : Document F) = .error .recursionError := by
  induction n with
  | zero => rfl
  | succ n ih =>
    rw [nest, document, documents, documents, encode, require_of n.succ_pos, ok_bind,
      Nat.add_sub_cancel, encodeItems, ih]
    rfl

/-- Every list takes a call of `_encode` and a generator: the 1000 frames of the default
    limit leave no more than 500 levels. -/
theorem deepReceipt_refused : ReceiptValue (nest 500) ∧
    canonicalize 500 (document (nest 500) : Document Unit) = .error .recursionError := by
  refine ⟨nest_value 500, ?_⟩
  rw [canonicalize, encode_nest]
  rfl

end Results

end PredictionMarketMonitor.Receipts
