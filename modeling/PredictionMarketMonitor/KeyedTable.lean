import Mathlib

set_option autoImplicit false

/-!
# Tables with a primary key

A table is a list of rows whose keys are distinct. Rows are rewritten in place
by functions that keep the key, and a new row is refused when its key is taken,
so a table with a repeated key cannot be built.
-/
namespace PredictionMarketMonitor.KeyedTable

universe u v
variable {α : Type u} {κ : Type v}

structure Table (key : α → κ) where
  rows : List α
  distinct : (rows.map key).Nodup

namespace Table
variable {key : α → κ}

instance : Membership α (Table key) := ⟨fun t a => a ∈ t.rows⟩

theorem mem_def {t : Table key} {a : α} : a ∈ t ↔ a ∈ t.rows := Iff.rfl

def empty : Table key := ⟨[], List.nodup_nil⟩

theorem not_mem_empty (a : α) : a ∉ (empty : Table key) := List.not_mem_nil

def modify (t : Table key) (f : α → α) (hf : ∀ a, key (f a) = key a) : Table key :=
  ⟨t.rows.map f, by
    rw [List.map_map, show key ∘ f = key from funext hf]
    exact t.distinct⟩

theorem mem_modify {t : Table key} {f : α → α} {hf : ∀ a, key (f a) = key a} {b : α} :
    b ∈ t.modify f hf ↔ ∃ a ∈ t, f a = b := List.mem_map

theorem eq_of_key {t : Table key} {a b : α} (ha : a ∈ t) (hb : b ∈ t) (h : key a = key b) :
    a = b := List.inj_on_of_nodup_map t.distinct ha hb h

theorem eq_of_rows {t u : Table key} (h : t.rows = u.rows) : t = u := by
  obtain ⟨rows, distinct⟩ := t
  obtain ⟨rows', distinct'⟩ := u
  obtain rfl : rows = rows' := h
  rfl

/-- Keep the rows that satisfy `p`. -/
def filter (t : Table key) (p : α → Prop) [DecidablePred p] : Table key :=
  ⟨t.rows.filter p, t.distinct.sublist (List.filter_sublist.map key)⟩

theorem mem_filter {t : Table key} {p : α → Prop} [DecidablePred p] {a : α} :
    a ∈ t.filter p ↔ a ∈ t ∧ p a := by
  rw [mem_def, filter, List.mem_filter, decide_eq_true_iff]
  rfl

theorem filter_filter {t : Table key} {p q : α → Prop} [DecidablePred p] [DecidablePred q] :
    (t.filter p).filter q = t.filter fun a => p a ∧ q a := by
  refine eq_of_rows ((List.filter_filter ..).trans (List.filter_congr fun a _ => ?_))
  rw [Bool.decide_and, Bool.and_comm]

theorem filter_congr {t : Table key} {p q : α → Prop} [DecidablePred p] [DecidablePred q]
    (h : ∀ a ∈ t, p a ↔ q a) : t.filter p = t.filter q := by
  refine eq_of_rows ?_
  exact List.filter_congr fun a ha => decide_eq_decide.mpr (h a ha)

theorem filter_eq_self {t : Table key} {p : α → Prop} [DecidablePred p] (h : ∀ a ∈ t, p a) :
    t.filter p = t :=
  eq_of_rows (List.filter_eq_self.mpr fun a ha => decide_eq_true (h a ha))

variable [DecidableEq κ]

theorem filter_notMem_cons (t : Table key) (f : α → κ) (k : κ) (ks : List κ) :
    (t.filter fun a => f a ∉ [k]).filter (fun a => f a ∉ ks) = t.filter fun a => f a ∉ k :: ks := by
  rw [filter_filter]
  refine filter_congr fun a _ => ?_
  rw [List.mem_singleton, List.mem_cons, not_or]

theorem exists_filter_notMem {t : Table key} {k : κ} {ks : List κ} (hk : k ∉ ks)
    (h : ∀ j ∈ k :: ks, ∃ a ∈ t, key a = j) :
    ∀ j ∈ ks, ∃ a ∈ t.filter (fun a => key a ∉ [k]), key a = j := by
  intro j hj
  obtain ⟨a, ha, rfl⟩ := h j (List.mem_cons_of_mem _ hj)
  refine ⟨a, mem_filter.mpr ⟨ha, ?_⟩, rfl⟩
  rw [List.mem_singleton]
  rintro rfl
  exact hk hj

omit [DecidableEq κ] in
/-- The only row that satisfies `p`. -/
theorem rows_filter_unique {t : Table key} {a : α} {p : α → Prop} [DecidablePred p] (ha : a ∈ t)
    (h : ∀ b ∈ t, p b ↔ b = a) : t.rows.filter p = [a] := by
  obtain ⟨before, after, hsplit⟩ := List.append_of_mem ha
  have hdistinct : t.rows.Nodup := t.distinct.of_map
  rw [hsplit, List.nodup_middle] at hdistinct
  obtain ⟨hnot, _⟩ := List.nodup_cons.mp hdistinct
  have hnone : ∀ b ∈ before ++ after, ¬p b := by
    intro b hb hp
    have hmem : b ∈ t := by
      rw [mem_def, hsplit]
      rcases List.mem_append.mp hb with hb | hb
      · exact List.mem_append_left _ hb
      · exact List.mem_append_right _ (List.mem_cons_of_mem _ hb)
    exact hnot ((h b hmem).mp hp ▸ hb)
  have hself : decide (p a) = true := decide_eq_true ((h a ha).mpr rfl)
  rw [hsplit, List.filter_append, List.filter_cons, if_pos hself, List.filter_eq_nil_iff.mpr,
    List.filter_eq_nil_iff.mpr]
  · rfl
  · exact fun b hb hp => hnone b (List.mem_append_right _ hb) (of_decide_eq_true hp)
  · exact fun b hb hp => hnone b (List.mem_append_left _ hb) (of_decide_eq_true hp)

def find? (t : Table key) (k : κ) : Option α := t.rows.find? (fun a => key a = k)

theorem find?_eq_some {t : Table key} {k : κ} {a : α} :
    t.find? k = some a ↔ a ∈ t ∧ key a = k := by
  constructor
  · intro h
    exact ⟨List.mem_of_find?_eq_some h, by simpa using List.find?_some h⟩
  · rintro ⟨ha, rfl⟩
    cases h : t.find? (key a) with
    | none => simpa using List.find?_eq_none.mp h a ha
    | some b =>
      have hb : b ∈ t := List.mem_of_find?_eq_some h
      rw [eq_of_key hb ha (by simpa using List.find?_some h)]

theorem find?_eq_none {t : Table key} {k : κ} : t.find? k = none ↔ ∀ a ∈ t, key a ≠ k := by
  rw [find?, List.find?_eq_none]
  simp only [decide_eq_true_eq]
  rfl

theorem find?_of_mem {t : Table key} {a : α} (h : a ∈ t) : t.find? (key a) = some a :=
  find?_eq_some.mpr ⟨h, rfl⟩

theorem find?_modify {t : Table key} {f : α → α} {hf : ∀ a, key (f a) = key a} (k : κ) :
    (t.modify f hf).find? k = (t.find? k).map f := by
  cases h : t.find? k with
  | none =>
    refine find?_eq_none.mpr fun b hb => ?_
    obtain ⟨a, ha, rfl⟩ := mem_modify.mp hb
    rw [hf]
    exact find?_eq_none.mp h a ha
  | some a =>
    obtain ⟨ha, hk⟩ := find?_eq_some.mp h
    exact find?_eq_some.mpr ⟨mem_modify.mpr ⟨a, ha, rfl⟩, by rw [hf]; exact hk⟩

/-- Rewrite the row with key `k`. -/
def update (t : Table key) (k : κ) (f : α → α) (hf : ∀ a, key (f a) = key a) : Table key :=
  t.modify (fun a => if key a = k then f a else a) (by
    intro a
    split
    · exact hf a
    · rfl)

theorem mem_update {t : Table key} {k : κ} {f : α → α} {hf : ∀ a, key (f a) = key a} {b : α} :
    b ∈ t.update k f hf ↔ (∃ a ∈ t, key a = k ∧ f a = b) ∨ (b ∈ t ∧ key b ≠ k) := by
  rw [update, mem_modify]
  constructor
  · rintro ⟨a, ha, rfl⟩
    split
    · exact .inl ⟨a, ha, ‹_›, rfl⟩
    · exact .inr ⟨ha, ‹_›⟩
  · rintro (⟨a, ha, hk, rfl⟩ | ⟨hb, hk⟩)
    · exact ⟨a, ha, if_pos hk⟩
    · exact ⟨b, hb, if_neg hk⟩

theorem find?_update {t : Table key} {k : κ} {f : α → α} {hf : ∀ a, key (f a) = key a} (j : κ) :
    (t.update k f hf).find? j = (t.find? j).map (fun a => if j = k then f a else a) := by
  rw [update, find?_modify]
  cases h : t.find? j with
  | none => rfl
  | some a =>
    obtain ⟨_, rfl⟩ := find?_eq_some.mp h
    rfl

theorem find?_update_self {t : Table key} {k : κ} {f : α → α} {hf : ∀ a, key (f a) = key a} :
    (t.update k f hf).find? k = (t.find? k).map f := by
  rw [find?_update]
  simp

theorem find?_update_ne {t : Table key} {k j : κ} {f : α → α} {hf : ∀ a, key (f a) = key a}
    (h : j ≠ k) : (t.update k f hf).find? j = t.find? j := by
  rw [find?_update]
  simp [h]

def insert? (t : Table key) (a : α) : Option (Table key) :=
  if h : key a ∈ t.rows.map key then none
  else some ⟨t.rows ++ [a], by
    rw [List.map_append, List.map_singleton]
    exact List.nodup_append.mpr ⟨t.distinct, List.nodup_singleton _, by
      rintro k hk j hj rfl
      rw [List.mem_singleton.mp hj] at hk
      exact h hk⟩⟩

theorem insert?_eq_some {t u : Table key} {a : α} :
    t.insert? a = some u ↔ t.find? (key a) = none ∧ u.rows = t.rows ++ [a] := by
  have hfree : t.find? (key a) = none ↔ key a ∉ t.rows.map key := by
    rw [find?_eq_none, List.mem_map]
    exact ⟨fun h ⟨b, hb, hk⟩ => h b hb hk, fun h b hb hk => h ⟨b, hb, hk⟩⟩
  rw [hfree, insert?]
  split
  · rename_i h
    simp [h]
  · rename_i h
    obtain ⟨rows, distinct⟩ := u
    simp [h, eq_comm]

theorem exists_insert {t : Table key} {a : α} (h : t.find? (key a) = none) :
    ∃ u, t.insert? a = some u := by
  have hfree : key a ∉ t.rows.map key := by
    rw [List.mem_map]
    rintro ⟨b, hb, hk⟩
    exact find?_eq_none.mp h b hb hk
  exact ⟨_, dif_neg hfree⟩

theorem mem_insert {t u : Table key} {a b : α} (h : t.insert? a = some u) :
    b ∈ u ↔ b ∈ t ∨ b = a := by
  rw [mem_def, (insert?_eq_some.mp h).2, List.mem_append, List.mem_singleton]
  rfl

theorem find?_insert {t u : Table key} {a : α} (h : t.insert? a = some u) (k : κ) :
    u.find? k = if key a = k then some a else t.find? k := by
  have hfree := (insert?_eq_some.mp h).1
  split
  · rename_i hk
    exact find?_eq_some.mpr ⟨(mem_insert h).mpr (.inr rfl), hk⟩
  · rename_i hk
    cases hfind : t.find? k with
    | none =>
      refine find?_eq_none.mpr fun b hb => ?_
      rcases (mem_insert h).mp hb with hb | rfl
      · exact find?_eq_none.mp hfind b hb
      · exact hk
    | some b =>
      obtain ⟨hb, hkey⟩ := find?_eq_some.mp hfind
      exact find?_eq_some.mpr ⟨(mem_insert h).mpr (.inl hb), hkey⟩

def put (t : Table key) (a : α) : Table key :=
  if h : key a ∈ t.rows.map key then ⟨t.rows.map (fun b => if key b = key a then a else b), by
    have hkeys : key ∘ (fun b => if key b = key a then a else b) = key := by
      funext b
      by_cases hb : key b = key a
      · simp [hb]
      · simp [hb]
    rw [List.map_map, hkeys]
    exact t.distinct⟩
  else ⟨t.rows ++ [a], by
    rw [List.map_append, List.map_singleton]
    exact t.distinct.append (List.nodup_singleton _) (List.disjoint_singleton.mpr h)⟩

theorem mem_put {t : Table key} {a b : α} : b ∈ t.put a ↔ b = a ∨ (b ∈ t ∧ key b ≠ key a) := by
  unfold put
  split
  · rename_i h
    obtain ⟨c, hc, hkey⟩ := List.mem_map.mp h
    refine Iff.trans List.mem_map ⟨?_, ?_⟩
    · rintro ⟨d, hd, rfl⟩
      split
      · exact .inl rfl
      · exact .inr ⟨hd, ‹_›⟩
    · rintro (rfl | ⟨hb, hne⟩)
      · exact ⟨c, hc, if_pos hkey⟩
      · exact ⟨b, hb, if_neg hne⟩
  · rename_i h
    refine Iff.trans List.mem_append ⟨?_, ?_⟩
    · rintro (hb | hb)
      · refine .inr ⟨hb, fun hkey => h (hkey ▸ List.mem_map_of_mem hb)⟩
      · exact .inl (List.mem_singleton.mp hb)
    · rintro (rfl | ⟨hb, _⟩)
      · exact .inr (List.mem_singleton.mpr rfl)
      · exact .inl hb

theorem map_put {β : Type v} {t : Table key} {a b : α} {f : α → β} (hb : b ∈ t)
    (hkey : key b = key a) (hf : f b = f a) : (t.put a).rows.map f = t.rows.map f := by
  have hmem : key a ∈ t.rows.map key := hkey ▸ List.mem_map_of_mem hb
  rw [put, dif_pos hmem, List.map_map]
  refine List.map_congr_left fun c hc => ?_
  by_cases hc' : key c = key a
  · rw [Function.comp, if_pos hc', eq_of_key (show c ∈ t from hc) hb (hc'.trans hkey.symm), hf]
  · rw [Function.comp, if_neg hc']

end Table

end PredictionMarketMonitor.KeyedTable
