import PredictionMarketMonitor.Sha256

set_option autoImplicit false

/-!
# Canonical JSON

JSON values, their normalization (keys sorted by code point, every string in a
given normal form) and their compact UTF-8 rendering, as Python's
`json.dumps(..., ensure_ascii=False, separators=(",", ":"), sort_keys=True)`.
A JSON string is the list of its characters; the Unicode normal form is a
parameter.
-/
namespace PredictionMarketMonitor.CanonicalJson

open Sha256 (Bytes)

abbrev Text := List Char

instance : LawfulBEq Text := inferInstance

inductive Json
  | null
  | bool (b : Bool)
  | int (i : ℤ)
  | str (s : Text)
  | list (items : List Json)
  | dict (fields : List (Text × Json))

abbrev Fields := List (Text × Json)

namespace Json

def ofNat (n : ℕ) : Json := .int n

def ofString (s : String) : Json := .str s.toList

def object (fields : List (String × Json)) : Json := .dict (fields.map (fun p => (p.1.toList, p.2)))

/-- `value` or `None`. -/
def ofOption {α : Type} (f : α → Json) : Option α → Json
  | some a => f a
  | none => .null

end Json

def encodeText (cs : Text) : Bytes := cs.flatMap String.utf8EncodeChar

def encode (s : String) : Bytes := encodeText s.toList

theorem encodeText_injective : Function.Injective encodeText := by
  intro cs ds h
  have hbytes : cs.utf8Encode = ds.utf8Encode := congrArg List.toByteArray h
  exact String.ofList_injective (String.toByteArray_inj.mp hbytes)

section Normalize
variable (nfc : Text → Text)

/-- Item assignment of a dict: a key already present keeps its place. -/
def setItem (fields : Fields) (k : Text) (v : Json) : Fields :=
  if k ∈ fields.map Prod.fst then fields.map (fun p => if p.1 = k then (k, v) else p)
  else fields ++ [(k, v)]

def dictOf (items : Fields) : Fields := items.foldl (fun d p => setItem d p.1 p.2) []

def sortKeys (fields : Fields) : Fields := fields.insertionSort (fun p q => p.1 ≤ q.1)

/-- The dict comprehension of the normalizer followed by `sort_keys`. -/
def normalizeKeys (fields : Fields) : Fields :=
  sortKeys (dictOf ((sortKeys fields).map (fun p => (nfc p.1, p.2))))

mutual
def normalize : Json → Json
  | .null => .null
  | .bool b => .bool b
  | .int i => .int i
  | .str s => .str (nfc s)
  | .list items => .list (normalizeItems items)
  | .dict fields => .dict (normalizeKeys nfc (normalizeValues fields))

def normalizeItems : List Json → List Json
  | [] => []
  | v :: rest => normalize v :: normalizeItems rest

def normalizeValues : Fields → Fields
  | [] => []
  | (k, v) :: rest => (k, normalize v) :: normalizeValues rest
end

end Normalize

section Render

def hexEscape (c : Char) : Text := ['\\', 'u'] ++ Sha256.hexString c.toNat 4

def escapeChar (c : Char) : Text :=
  if c = '"' then ['\\', '"']
  else if c = '\\' then ['\\', '\\']
  else if c = '\n' then ['\\', 'n']
  else if c = '\r' then ['\\', 'r']
  else if c = '\t' then ['\\', 't']
  else if c.toNat = 8 then ['\\', 'b']
  else if c.toNat = 12 then ['\\', 'f']
  else if c.toNat < 32 then hexEscape c
  else [c]

def quote (s : Text) : Text := '"' :: s.flatMap escapeChar ++ ['"']

def decimal (i : ℤ) : Text :=
  if i < 0 then '-' :: Nat.toDigits 10 i.natAbs else Nat.toDigits 10 i.natAbs

-- every item and field is written after a comma and the first comma dropped
mutual
def render : Json → Text
  | .null => ['n', 'u', 'l', 'l']
  | .bool true => ['t', 'r', 'u', 'e']
  | .bool false => ['f', 'a', 'l', 's', 'e']
  | .int i => decimal i
  | .str s => quote s
  | .list items => '[' :: (renderItems items).drop 1 ++ [']']
  | .dict fields => '{' :: (renderFields fields).drop 1 ++ ['}']

def renderItems : List Json → Text
  | [] => []
  | v :: rest => ',' :: render v ++ renderItems rest

def renderFields : Fields → Text
  | [] => []
  | (k, v) :: rest => ',' :: quote k ++ ':' :: render v ++ renderFields rest
end

end Render

@[irreducible] def canonicalBytes (nfc : Text → Text) (v : Json) : Bytes :=
  encodeText (render (normalize nfc v))

section Laws
variable {nfc : Text → Text}

theorem renderFields_append (fs gs : Fields) :
    renderFields (fs ++ gs) = renderFields fs ++ renderFields gs := by
  induction fs with
  | nil => simp [renderFields]
  | cons p fs ih => simp [renderFields, ih]

theorem normalizeValues_eq_map (fs : Fields) :
    normalizeValues nfc fs = fs.map (fun p => (p.1, normalize nfc p.2)) := by
  induction fs with
  | nil => rfl
  | cons p fs ih => simp [normalizeValues, ih]

def IsAscii (s : Text) : Prop := s.all (fun c => c.toNat < 128) = true

instance (s : Text) : Decidable (IsAscii s) := inferInstanceAs (Decidable (_ = _))

def FixesAscii (nfc : Text → Text) : Prop := ∀ s, IsAscii s → nfc s = s

theorem setItem_of_not_mem {fs : Fields} {k : Text} {v : Json}
    (h : k ∉ fs.map Prod.fst) : setItem fs k v = fs ++ [(k, v)] := by
  simp [setItem, h]

theorem dictOf_of_nodup {fs : Fields} (h : (fs.map Prod.fst).Nodup) : dictOf fs = fs := by
  have key : ∀ ds gs : Fields, ((ds ++ gs).map Prod.fst).Nodup →
      gs.foldl (fun d p => setItem d p.1 p.2) ds = ds ++ gs := by
    intro ds gs
    induction gs generalizing ds with
    | nil => simp
    | cons p gs ih =>
      intro hn
      have hp : p.1 ∉ ds.map Prod.fst := by
        rw [List.map_append, List.nodup_append] at hn
        exact fun hm => hn.2.2 _ hm _ (by simp) rfl
      rw [List.foldl_cons, setItem_of_not_mem hp, ih (ds ++ [p]) (by simpa using hn)]
      simp
  simpa [dictOf] using key [] fs (by simpa using h)

theorem sortKeys_of_sorted {fs : Fields} (h : (fs.map Prod.fst).Pairwise (· < ·)) :
    sortKeys fs = fs := by
  refine List.Pairwise.insertionSort_eq ((List.pairwise_map.mp h).imp ?_)
  exact fun hlt => le_of_lt hlt

theorem normalize_dict (hnfc : FixesAscii nfc) {fs : Fields}
    (hs : (fs.map Prod.fst).Pairwise (· < ·)) (ha : ∀ k ∈ fs.map Prod.fst, IsAscii k) :
    normalize nfc (.dict fs) = .dict (fs.map (fun p => (p.1, normalize nfc p.2))) := by
  have hkeys : (fs.map (fun p => (p.1, normalize nfc p.2))).map Prod.fst = fs.map Prod.fst := by
    simp [List.map_map, Function.comp_def]
  have hid : (fs.map (fun p => (p.1, normalize nfc p.2))).map (fun p => (nfc p.1, p.2))
      = fs.map (fun p => (p.1, normalize nfc p.2)) := by
    rw [List.map_map]
    refine List.map_congr_left fun p hp => ?_
    simp [hnfc p.1 (ha p.1 (List.mem_map_of_mem hp))]
  have hsorted := sortKeys_of_sorted (hkeys ▸ hs)
  rw [normalize, normalizeValues_eq_map, normalizeKeys, hsorted, hid,
    dictOf_of_nodup (hkeys ▸ hs.imp ne_of_lt), hsorted]

theorem canonicalBytes_injective_on_render {v w : Json}
    (h : canonicalBytes nfc v = canonicalBytes nfc w) :
    render (normalize nfc v) = render (normalize nfc w) := by
  unfold canonicalBytes at h
  exact encodeText_injective h

/-- Two dicts that agree up to a field that is true in one and false in the
    other are written differently. -/
theorem canonicalBytes_ne_of_flag (hnfc : FixesAscii nfc) {ps qs rs : Fields} {k : Text}
    (hq : ((ps ++ (k, .bool true) :: qs).map Prod.fst).Pairwise (· < ·))
    (hr : ((ps ++ (k, .bool false) :: rs).map Prod.fst).Pairwise (· < ·))
    (haq : ∀ l ∈ (ps ++ (k, .bool true) :: qs).map Prod.fst, IsAscii l)
    (har : ∀ l ∈ (ps ++ (k, .bool false) :: rs).map Prod.fst, IsAscii l) :
    canonicalBytes nfc (.dict (ps ++ (k, .bool true) :: qs)) ≠
      canonicalBytes nfc (.dict (ps ++ (k, .bool false) :: rs)) := by
  intro h
  have hrender := canonicalBytes_injective_on_render h
  rw [normalize_dict hnfc hq haq, normalize_dict hnfc hr har] at hrender
  simp only [render, List.map_append, List.map_cons, renderFields_append, renderFields, normalize,
    List.cons_append, List.cons.injEq, true_and, List.append_cancel_right_eq] at hrender
  generalize renderFields (ps.map fun p => (p.1, normalize nfc p.2)) = front at hrender
  cases front with
  | nil => simp at hrender
  | cons c front => simp at hrender

end Laws

end PredictionMarketMonitor.CanonicalJson
