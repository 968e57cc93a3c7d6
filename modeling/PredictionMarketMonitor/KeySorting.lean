import Mathlib

set_option autoImplicit false

/-!
# Sorting by a key

A stable sort by a key in a linear order, the sorted list of a set, and when
each commutes with a change of the elements.
-/
namespace PredictionMarketMonitor.KeySorting

universe u v w x
variable {α : Type u} {β : Type v} {κ : Type w} {μ : Type x} [LinearOrder κ] [LinearOrder μ]

section SortBy

/-- `sorted(xs, key=key)`. -/
def sortBy (key : α → κ) (xs : List α) : List α := xs.insertionSort (fun x y => key x ≤ key y)

instance keyTotal (key : α → κ) : Std.Total (fun x y => key x ≤ key y) :=
  ⟨fun x y => le_total (key x) (key y)⟩

instance keyTrans (key : α → κ) : IsTrans α (fun x y => key x ≤ key y) :=
  ⟨fun _ _ _ hxy hyz => hxy.trans hyz⟩

variable {key : α → κ} {xs ys : List α}

theorem sortBy_perm (key : α → κ) (xs : List α) : (sortBy key xs).Perm xs :=
  List.perm_insertionSort _ xs

@[simp] theorem mem_sortBy {x : α} : x ∈ sortBy key xs ↔ x ∈ xs := List.mem_insertionSort _

@[simp] theorem length_sortBy : (sortBy key xs).length = xs.length := List.length_insertionSort _ xs

theorem sortBy_pairwise (key : α → κ) (xs : List α) :
    (sortBy key xs).Pairwise (fun x y => key x ≤ key y) :=
  List.pairwise_insertionSort _ xs

theorem sortBy_eq_self : sortBy key xs = xs ↔ xs.Pairwise (fun x y => key x ≤ key y) := by
  constructor
  · intro h
    rw [← h]
    exact sortBy_pairwise key xs
  · exact fun h => List.Pairwise.insertionSort_eq h

theorem sortBy_idem : sortBy key (sortBy key xs) = sortBy key xs :=
  sortBy_eq_self.mpr (sortBy_pairwise key xs)

theorem eq_of_perm_of_pairwise (hperm : xs.Perm ys)
    (hkeys : ∀ x ∈ xs, ∀ y ∈ xs, key x = key y → x = y)
    (hxs : xs.Pairwise (fun x y => key x ≤ key y)) (hys : ys.Pairwise (fun x y => key x ≤ key y)) :
    xs = ys :=
  hperm.eq_of_pairwise
    (fun x y hx hy hxy hyx => hkeys x hx y (hperm.mem_iff.mpr hy) (le_antisymm hxy hyx)) hxs hys

theorem sortBy_eq_of_perm (hperm : xs.Perm ys)
    (hkeys : ∀ x ∈ xs, ∀ y ∈ xs, key x = key y → x = y) : sortBy key xs = sortBy key ys := by
  have hsorted : (sortBy key xs).Perm (sortBy key ys) :=
    ((sortBy_perm key xs).trans hperm).trans (sortBy_perm key ys).symm
  refine eq_of_perm_of_pairwise hsorted ?_ (sortBy_pairwise key xs) (sortBy_pairwise key ys)
  intro x hx y hy heq
  exact hkeys x (mem_sortBy.mp hx) y (mem_sortBy.mp hy) heq

theorem sortBy_map {f : α → β} {key' : β → μ}
    (hf : ∀ x ∈ xs, ∀ y ∈ xs, key x ≤ key y ↔ key' (f x) ≤ key' (f y)) :
    sortBy key' (xs.map f) = (sortBy key xs).map f :=
  (List.map_insertionSort _ _ f xs hf).symm

theorem sortBy_congr {key' : α → μ} (h : ∀ x ∈ xs, ∀ y ∈ xs, key x ≤ key y ↔ key' x ≤ key' y) :
    sortBy key' xs = sortBy key xs := by
  have hid : sortBy key' (xs.map id) = (sortBy key xs).map id := sortBy_map h
  rwa [List.map_id, List.map_id] at hid

/-- In a sorted list the smaller of two elements comes first. -/
theorem pairwise_of_lt {R : α → α → Prop} (hsorted : xs.Pairwise (fun x y => key x ≤ key y))
    (h : xs.Pairwise R) {x y : α} (hx : x ∈ xs) (hy : y ∈ xs) (hlt : key x < key y) : R x y := by
  have hforward : xs.Pairwise (fun x y => key x < key y → R x y) := by
    apply h.imp
    intro x y hxy _
    exact hxy
  have hbackward : xs.Pairwise (fun x y => key y < key x → R y x) :=
    hsorted.imp fun hle hlt => absurd hle (not_le_of_gt hlt)
  exact hforward.forall_of_forall_of_flip (fun _ _ hlt => absurd hlt (lt_irrefl _)) hbackward hx hy hlt

/-- A sorted list stays sorted under a map exactly when the map keeps the order of the keys. -/
theorem sortBy_map_sorted {f : α → α}
    (hf : ∀ x ∈ xs, ∀ y ∈ xs, key x = key y → key (f x) = key (f y)) :
    sortBy key ((sortBy key xs).map f) = (sortBy key xs).map f ↔
      MonovaryOn (fun x => key (f x)) key {x | x ∈ xs} := by
  have hsorted := sortBy_pairwise key xs
  rw [sortBy_eq_self, List.pairwise_map]
  constructor
  · intro hmapped x hx y hy hlt
    exact pairwise_of_lt hsorted hmapped (mem_sortBy.mpr hx) (mem_sortBy.mpr hy) hlt
  · intro hkeeps
    refine hsorted.imp_of_mem fun {x y} hx hy hle => ?_
    rw [mem_sortBy] at hx hy
    rcases hle.lt_or_eq with hlt | heq
    · exact hkeeps hx hy hlt
    · exact (hf x hx y hy heq).le

theorem sortBy_filter_append (p : α → Bool) (hkeys : ∀ x ∈ xs, ∀ y ∈ xs, key x = key y → x = y)
    (hfirst : ∀ x ∈ xs, ∀ y ∈ xs, p x = true → p y = false → key x ≤ key y) :
    sortBy key (xs.filter p) ++ sortBy key (xs.filter (fun x => !p x)) = sortBy key xs := by
  have hparts : (sortBy key (xs.filter p) ++ sortBy key (xs.filter (fun x => !p x))).Perm
      (xs.filter p ++ xs.filter (fun x => !p x)) :=
    (sortBy_perm key _).append (sortBy_perm key _)
  have hperm := (hparts.trans (List.filter_append_perm p xs)).trans (sortBy_perm key xs).symm
  have hmem : ∀ x, x ∈ sortBy key (xs.filter p) ++ sortBy key (xs.filter (fun x => !p x)) → x ∈ xs :=
    fun x hx => mem_sortBy.mp (hperm.mem_iff.mp hx)
  refine eq_of_perm_of_pairwise hperm (fun x hx y hy => hkeys x (hmem x hx) y (hmem y hy)) ?_
    (sortBy_pairwise key xs)
  refine List.pairwise_append.mpr ⟨sortBy_pairwise key _, sortBy_pairwise key _, ?_⟩
  intro x hx y hy
  obtain ⟨hx, hpx⟩ := List.mem_filter.mp (mem_sortBy.mp hx)
  obtain ⟨hy, hpy⟩ := List.mem_filter.mp (mem_sortBy.mp hy)
  exact hfirst x hx y hy hpx (by simpa using hpy)

end SortBy

section SortedSet

/-- `sorted(set(xs))`. -/
def sortedSet (xs : List κ) : List κ := sortBy id xs.dedup

variable {xs ys : List κ}

@[simp] theorem mem_sortedSet {x : κ} : x ∈ sortedSet xs ↔ x ∈ xs := by
  rw [sortedSet, mem_sortBy, List.mem_dedup]

theorem sortedSet_pairwise (xs : List κ) : (sortedSet xs).Pairwise (· < ·) := by
  have hle := sortBy_pairwise id xs.dedup
  have hne : (sortedSet xs).Pairwise (· ≠ ·) :=
    (sortBy_perm id xs.dedup).nodup_iff.mpr (List.nodup_dedup xs)
  exact hle.imp₂ (fun _ _ hle hne => lt_of_le_of_ne hle hne) hne

theorem eq_of_mem_iff_of_pairwise (hxs : xs.Pairwise (· < ·)) (hys : ys.Pairwise (· < ·))
    (h : ∀ x, x ∈ xs ↔ x ∈ ys) : xs = ys :=
  hxs.eq_of_mem_iff hys h

theorem sortedSet_map {f : κ → κ} :
    sortedSet (xs.map f) = (sortedSet xs).map f ↔ StrictMonoOn f {k | k ∈ xs} := by
  have hsorted := sortedSet_pairwise xs
  constructor
  · intro h x hx y hy hlt
    have hmapped := sortedSet_pairwise (xs.map f)
    rw [h, List.pairwise_map] at hmapped
    exact @pairwise_of_lt _ _ _ id _ _ (hsorted.imp le_of_lt) hmapped _ _ (mem_sortedSet.mpr hx)
      (mem_sortedSet.mpr hy) hlt
  · intro hf
    refine eq_of_mem_iff_of_pairwise (sortedSet_pairwise _) ?_ (by simp)
    rw [List.pairwise_map]
    exact hsorted.imp_of_mem fun hx hy hlt =>
      hf (mem_sortedSet.mp hx) (mem_sortedSet.mp hy) hlt

end SortedSet

end PredictionMarketMonitor.KeySorting
