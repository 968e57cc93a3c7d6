import Mathlib

set_option autoImplicit false

/-!
# Tilings of the integer line

Boundaries in strictly increasing order cut the line into half-open cells. A loop
that goes from a boundary to the next one until it reaches a bound lists the cells
below the bound, unless a boundary past the limit of the number format stops it.
-/
namespace PredictionMarketMonitor.Tilings

/-- The boundaries by their number, and the number of the cell of a point. -/
structure Tiling where
  start : ℤ → ℤ
  mono : StrictMono start
  index : ℤ → ℤ
  lower : ∀ t, start (index t) ≤ t
  upper : ∀ t, t < start (index t + 1)

namespace Tiling

def evenly (origin step : ℤ) (hstep : 0 < step) : Tiling where
  start k := origin + step * k
  mono := by
    apply strictMono_int_of_lt_succ
    intro k
    have hnext : step * (k + 1) = step * k + step := by ring
    omega
  index t := (t - origin) / step
  lower t := by
    have h := Int.mul_ediv_self_le (x := t - origin) (k := step) (by omega)
    omega
  upper t := by
    have h := Int.lt_mul_ediv_self_add (x := t - origin) hstep
    have hnext : step * ((t - origin) / step + 1) = step * ((t - origin) / step) + step := by ring
    omega

def scale (T : Tiling) (unit : ℤ) (hunit : 0 < unit) : Tiling where
  start k := unit * T.start k
  mono j k h := Int.mul_lt_mul_of_pos_left (T.mono h) hunit
  index t := T.index (t / unit)
  lower t := by
    have h := Int.mul_ediv_self_le (x := t) (k := unit) (by omega)
    exact (Int.mul_le_mul_of_nonneg_left (T.lower (t / unit)) (by omega)).trans h
  upper t := by
    have h := Int.lt_mul_ediv_self_add (x := t) hunit
    have hnext : t / unit + 1 ≤ T.start (T.index (t / unit) + 1) := T.upper (t / unit)
    have hmul := Int.mul_le_mul_of_nonneg_left hnext (by omega : 0 ≤ unit)
    have hunfold : unit * (t / unit + 1) = unit * (t / unit) + unit := by ring
    omega

variable (T : Tiling)

def cell (k : ℤ) : ℤ × ℤ := (T.start k, T.start (k + 1))

theorem start_le_iff {k t : ℤ} : T.start k ≤ t ↔ k ≤ T.index t := by
  constructor
  · intro h
    have hlt := T.mono.lt_iff_lt.mp (h.trans_lt (T.upper t))
    omega
  · intro h
    exact (T.mono.monotone h).trans (T.lower t)

theorem lt_start_iff {k t : ℤ} : t < T.start k ↔ T.index t < k := by
  rw [← not_le, T.start_le_iff, not_le]

/-- A point lies in the cell of its number and in no other. -/
theorem inside_iff {k t : ℤ} : T.start k ≤ t ∧ t < T.start (k + 1) ↔ T.index t = k := by
  rw [T.start_le_iff, T.lt_start_iff]
  omega

@[simp] theorem index_start (k : ℤ) : T.index (T.start k) = k :=
  T.inside_iff.mp ⟨le_refl _, T.mono (by omega)⟩

theorem cell_nonempty (k : ℤ) : (T.cell k).1 < (T.cell k).2 := T.mono (by omega)

theorem cell_injective : Function.Injective T.cell := by
  intro j k h
  exact T.mono.injective (congrArg Prod.fst h)

def cells (k : ℤ) : ℕ → List (ℤ × ℤ)
  | 0 => []
  | n + 1 => T.cell k :: cells (k + 1) n

theorem mem_cells {k : ℤ} {n : ℕ} {w : ℤ × ℤ} :
    w ∈ T.cells k n ↔ ∃ j, k ≤ j ∧ j < k + n ∧ w = T.cell j := by
  induction n generalizing k with
  | zero =>
    simp only [cells, List.not_mem_nil, false_iff]
    rintro ⟨j, hk, hj, -⟩
    simp at hj
    omega
  | succ n ih =>
    rw [cells, List.mem_cons, ih]
    push_cast
    constructor
    · rintro (rfl | ⟨j, hk, hj, rfl⟩)
      · exact ⟨k, le_refl k, by omega, rfl⟩
      · exact ⟨j, by omega, by omega, rfl⟩
    · rintro ⟨j, hk, hj, rfl⟩
      by_cases h : j = k
      · exact .inl (by rw [h])
      · exact .inr ⟨j, by omega, by omega, rfl⟩

theorem cell_mem_cells {j k : ℤ} {n : ℕ} : T.cell j ∈ T.cells k n ↔ k ≤ j ∧ j < k + n := by
  rw [T.mem_cells]
  constructor
  · rintro ⟨i, hk, hi, hcell⟩
    obtain rfl := T.cell_injective hcell
    exact ⟨hk, hi⟩
  · rintro ⟨hk, hj⟩
    exact ⟨j, hk, hj, rfl⟩

theorem cells_contiguous (k : ℤ) (n : ℕ) : (T.cells k n).IsChain (fun v w => v.2 = w.1) := by
  induction n generalizing k with
  | zero => exact .nil
  | succ n ih =>
    cases n with
    | zero => exact .singleton _
    | succ n => exact .cons_cons rfl (ih (k + 1))

theorem cells_increasing (k : ℤ) (n : ℕ) :
    (T.cells k n).Pairwise (fun v w => v.1 < w.1 ∧ v.2 < w.2) := by
  induction n generalizing k with
  | zero => exact .nil
  | succ n ih =>
    refine List.pairwise_cons.mpr ⟨fun w hw => ?_, ih (k + 1)⟩
    obtain ⟨j, hk, -, rfl⟩ := T.mem_cells.mp hw
    exact ⟨T.mono (by omega), T.mono (by omega)⟩

theorem cells_cover {k t : ℤ} {n : ℕ} (hk : k ≤ T.index t) (hn : T.index t < k + n) :
    ∃! w, w ∈ T.cells k n ∧ w.1 ≤ t ∧ t < w.2 := by
  refine ⟨T.cell (T.index t), ⟨T.cell_mem_cells.mpr ⟨hk, hn⟩, T.lower t, T.upper t⟩, ?_⟩
  rintro w ⟨hw, hinside⟩
  obtain ⟨j, -, -, rfl⟩ := T.mem_cells.mp hw
  rw [T.inside_iff.mp hinside]

/-- A cell and an interval have a point in common just when their numbers meet. -/
theorem overlaps_iff {j a b : ℤ} (h : a < b) :
    max a (T.start j) < min b (T.start (j + 1)) ↔ T.index a ≤ j ∧ j ≤ T.index (b - 1) := by
  have hcell := T.cell_nonempty j
  simp only [cell] at hcell
  rw [← T.start_le_iff, ← Int.lt_add_one_iff (a := T.index a), ← T.lt_start_iff]
  omega

end Tiling

section Loop
variable {ε : Type} (next : ℤ → Except ε ℤ) (hnext : ∀ x y, next x = .ok y → x < y)
  (keep : ℤ → Bool) (bound : ℤ)

/-- `while current < bound`: the end of the window comes first, then the window is kept or
    not, and its end is the next current value. -/
def enumerate (current : ℤ) : Except ε (List (ℤ × ℤ)) :=
  if _hb : current < bound then
    match h : next current with
    | .error e => .error e
    | .ok fin =>
      have := hnext current fin h
      (enumerate fin).map fun rest => if keep fin = true then (current, fin) :: rest else rest
  else .ok []
termination_by (bound - current).toNat
decreasing_by omega

variable {next} {hnext} {keep} {bound}

theorem enumerate_stop {current : ℤ} (h : bound ≤ current) :
    enumerate next hnext keep bound current = .ok [] := by
  rw [enumerate, dif_neg (by omega)]

theorem enumerate_error {current : ℤ} {e : ε} (hb : current < bound)
    (h : next current = .error e) : enumerate next hnext keep bound current = .error e := by
  rw [enumerate, dif_pos hb]
  split
  · next e' he =>
    rw [h] at he
    exact congrArg _ (Except.error.inj he).symm
  · next fin hfin => simp [h] at hfin

theorem enumerate_step {current fin : ℤ} (hb : current < bound) (h : next current = .ok fin)
    (hkeep : keep fin = true) : enumerate next hnext keep bound current =
      (enumerate next hnext keep bound fin).map ((current, fin) :: ·) := by
  rw [enumerate, dif_pos hb]
  split
  · next e he => simp [h] at he
  · next fin' hfin =>
    obtain rfl : fin = fin' := Except.ok.inj (h.symm.trans hfin)
    simp [hkeep]

variable (T : Tiling) {limit : ℤ}

theorem enumerate_cells {k : ℤ} {n : ℕ}
    (hok : ∀ j, k ≤ j → T.start (j + 1) ≤ limit → next (T.start j) = .ok (T.start (j + 1)))
    (hkeep : ∀ j, k < j → keep (T.start j) = true) (hbelow : ∀ i : ℕ, i < n → T.start (k + i) < bound)
    (hend : bound ≤ T.start (k + n)) (hlimit : T.start (k + n) ≤ limit) :
    enumerate next hnext keep bound (T.start k) = .ok (T.cells k n) := by
  induction n generalizing k with
  | zero => exact enumerate_stop (by simpa using hend)
  | succ n ih =>
    have hshift : ∀ i : ℤ, k + 1 + i = k + (i + 1) := by
      intro i
      omega
    have hfirst : T.start k < bound := by simpa using hbelow 0 (Nat.succ_pos n)
    have hnextEnd : T.start (k + 1) ≤ limit := by
      refine (T.mono.monotone ?_).trans hlimit
      push_cast
      omega
    have hrest : enumerate next hnext keep bound (T.start (k + 1)) = .ok (T.cells (k + 1) n) := by
      refine ih (fun j hj => hok j (by omega)) (fun j hj => hkeep j (by omega)) (fun i hi => ?_) ?_ ?_
      · rw [hshift]
        exact_mod_cast hbelow (i + 1) (by omega)
      · rw [hshift]
        exact_mod_cast hend
      · rw [hshift]
        exact_mod_cast hlimit
    rw [enumerate_step hfirst (hok k (le_refl k) hnextEnd) (hkeep _ (by omega)), hrest]
    rfl

theorem enumerate_fails {k : ℤ} {n : ℕ}
    (hok : ∀ j, k ≤ j → T.start (j + 1) ≤ limit → next (T.start j) = .ok (T.start (j + 1)))
    (herror : ∀ j, T.start j ≤ limit → limit < T.start (j + 1) → ∃ e, next (T.start j) = .error e)
    (hkeep : ∀ j, k < j → keep (T.start j) = true) (hbelow : ∀ i : ℕ, i < n → T.start (k + i) < bound)
    (hfrom : T.start k ≤ limit) (hlimit : limit < T.start (k + n)) :
    ∃ e, enumerate next hnext keep bound (T.start k) = .error e := by
  induction n generalizing k with
  | zero =>
    have hsame : T.start (k + (0 : ℕ)) = T.start k := by simp
    omega
  | succ n ih =>
    have hfirst : T.start k < bound := by simpa using hbelow 0 (Nat.succ_pos n)
    by_cases hover : limit < T.start (k + 1)
    · obtain ⟨e, he⟩ := herror k hfrom hover
      exact ⟨e, enumerate_error hfirst he⟩
    · have hshift : ∀ i : ℤ, k + 1 + i = k + (i + 1) := by
        intro i
        omega
      obtain ⟨e, he⟩ := ih (k := k + 1) (fun j hj => hok j (by omega)) (fun j hj => hkeep j (by omega))
        (fun i hi => by
          rw [hshift]
          exact_mod_cast hbelow (i + 1) (by omega)) (by omega)
        (by
          rw [hshift]
          exact_mod_cast hlimit)
      refine ⟨e, ?_⟩
      rw [enumerate_step hfirst (hok k (le_refl k) (by omega)) (hkeep _ (by omega)), he]
      rfl

end Loop

end PredictionMarketMonitor.Tilings
