import Mathlib

set_option autoImplicit false

/-!
# Logs that keep changes

Two ways to keep a log of what arrives: an entry is appended unless the last entry
has its key, or unless any entry has it. The first keeps every change, the second
every key once, and they part exactly when a key returns.
-/
namespace PredictionMarketMonitor.ChangeLogs

universe u v
variable {α : Type u} {κ : Type v} [DecidableEq κ] (key : α → κ)

def pushChanged (log : List α) (x : α) : List α :=
  if log.getLast?.map key = some (key x) then log else log ++ [x]

def pushNew (log : List α) (x : α) : List α :=
  if key x ∈ log.map key then log else log ++ [x]

def changed (xs : List α) : List α := xs.foldl (pushChanged key) []

def fresh (xs : List α) : List α := xs.foldl (pushNew key) []

variable {key}

@[simp] theorem changed_nil : changed key [] = [] := rfl

@[simp] theorem fresh_nil : fresh key [] = [] := rfl

theorem changed_concat (xs : List α) (x : α) :
    changed key (xs ++ [x]) = pushChanged key (changed key xs) x := by
  rw [changed, List.foldl_append]
  rfl

theorem fresh_concat (xs : List α) (x : α) :
    fresh key (xs ++ [x]) = pushNew key (fresh key xs) x := by
  rw [fresh, List.foldl_append]
  rfl

theorem isPrefix_pushChanged (log : List α) (x : α) : log <+: pushChanged key log x := by
  rw [pushChanged]
  split
  · exact List.prefix_rfl
  · exact List.prefix_append log [x]

theorem isPrefix_changed (xs ys : List α) : changed key xs <+: changed key (xs ++ ys) := by
  induction ys using List.reverseRecOn with
  | nil => rw [List.append_nil]
  | append_singleton ys y ih =>
    rw [← List.append_assoc, changed_concat]
    exact ih.trans (isPrefix_pushChanged _ y)

theorem changed_isChain (xs : List α) : (changed key xs).IsChain fun x y => key x ≠ key y := by
  induction xs using List.reverseRecOn with
  | nil => exact .nil
  | append_singleton xs x ih =>
    rw [changed_concat, pushChanged]
    split
    · exact ih
    · rename_i hne
      refine List.isChain_append.mpr ⟨ih, .singleton x, fun y hy z hz hkey => hne ?_⟩
      obtain rfl : z = x := by simpa using hz.symm
      rw [Option.mem_def.mp hy, Option.map_some, hkey]

theorem fresh_nodup (xs : List α) : ((fresh key xs).map key).Nodup := by
  induction xs using List.reverseRecOn with
  | nil => exact List.nodup_nil
  | append_singleton xs x ih =>
    rw [fresh_concat, pushNew]
    split
    · exact ih
    · rename_i hnew
      rw [List.map_append]
      exact List.nodup_append.mpr ⟨ih, List.nodup_singleton _, fun k hk j hj hkj => hnew (by
        rw [List.map_singleton, List.mem_singleton] at hj
        rwa [← hj, ← hkj])⟩

theorem changed_subset (xs : List α) : changed key xs ⊆ xs := by
  induction xs using List.reverseRecOn with
  | nil => exact List.Subset.refl _
  | append_singleton xs x ih =>
    rw [changed_concat, pushChanged]
    split
    · exact fun y hy => List.mem_append_left _ (ih hy)
    · exact List.append_subset.mpr ⟨fun y hy => List.mem_append_left _ (ih hy),
        List.subset_append_right _ _⟩

theorem fresh_subset (xs : List α) : fresh key xs ⊆ xs := by
  induction xs using List.reverseRecOn with
  | nil => exact List.Subset.refl _
  | append_singleton xs x ih =>
    rw [fresh_concat, pushNew]
    split
    · exact fun y hy => List.mem_append_left _ (ih hy)
    · exact List.append_subset.mpr ⟨fun y hy => List.mem_append_left _ (ih hy),
        List.subset_append_right _ _⟩

/-- A log of the keys of some entries is the log of changes of all exactly when no key
    returns after a change and every change is among those entries. -/
theorem fresh_filter_eq_changed_iff (p : α → Prop) [DecidablePred p] (xs : List α) :
    fresh key (xs.filter p) = changed key xs ↔
      ((changed key xs).map key).Nodup ∧ ∀ x ∈ changed key xs, p x := by
  constructor
  · refine fun h => ⟨h ▸ fresh_nodup _, fun x hx => ?_⟩
    rw [← h] at hx
    exact of_decide_eq_true (List.mem_filter.mp (fresh_subset _ hx)).2
  rintro ⟨hnodup, hall⟩
  induction xs using List.reverseRecOn with
  | nil => rfl
  | append_singleton xs x ih =>
    have hpre : changed key xs <+: changed key (xs ++ [x]) := isPrefix_changed xs [x]
    have hsame := ih (hnodup.sublist (hpre.sublist.map key)) fun y hy => hall y (hpre.subset hy)
    rw [changed_concat] at hnodup hall ⊢
    rw [pushChanged] at hnodup hall ⊢
    rw [List.filter_append, List.filter_singleton]
    by_cases hlast : (changed key xs).getLast?.map key = some (key x)
    · have hmem : key x ∈ (changed key xs).map key := by
        obtain ⟨y, hy, hkey⟩ := Option.map_eq_some_iff.mp hlast
        exact hkey ▸ List.mem_map_of_mem (List.mem_of_getLast? hy)
      rw [if_pos hlast]
      cases decide (p x)
      · rw [cond_false, List.append_nil, hsame]
      · rw [cond_true, fresh_concat, hsame, pushNew, if_pos hmem]
    · rw [if_neg hlast] at hnodup hall ⊢
      rw [List.map_append] at hnodup
      have hnew : key x ∉ (changed key xs).map key := fun hmem =>
        (List.nodup_append.mp hnodup).2.2 _ hmem _ (List.mem_singleton.mpr rfl) rfl
      have hx : p x := hall x (by simp)
      rw [decide_eq_true hx, cond_true, fresh_concat, hsame, pushNew, if_neg hnew]

end PredictionMarketMonitor.ChangeLogs
