import Mathlib

set_option autoImplicit false

/-!
# Loops that walk by a fixed step

A loop takes a value while a test holds of it and goes on one step further. A
value past the limit of the number format cannot be formed, and the loop then
yields nothing.
-/
namespace PredictionMarketMonitor.SteppedWalk

/-- `start, start + step, …`, as many values as counted. -/
def progression (start step : ℤ) : ℕ → List ℤ
  | 0 => []
  | count + 1 => start :: progression (start + step) step count

/-- The loop `while p x: take x; x += step`. -/
def walk (p : ℤ → Prop) [DecidablePred p] (limit step : ℤ) (hstep : 0 < step) (x : ℤ) :
    Option (List ℤ) :=
  if p x then
    if x + step ≤ limit then (walk p limit step hstep (x + step)).map (x :: ·) else none
  else some []
termination_by (limit - x).toNat

section Progression

theorem progression_length (start step : ℤ) (count : ℕ) :
    (progression start step count).length = count := by
  induction count generalizing start with
  | zero => rfl
  | succ count ih => rw [progression, List.length_cons, ih]

theorem mem_progression {start step x : ℤ} {count : ℕ} :
    x ∈ progression start step count ↔ ∃ i < count, x = start + step * (i : ℕ) := by
  induction count generalizing start with
  | zero => simp [progression]
  | succ count ih =>
    rw [progression, List.mem_cons, ih]
    constructor
    · rintro (rfl | ⟨i, hi, rfl⟩)
      · exact ⟨0, Nat.succ_pos count, by simp⟩
      · refine ⟨i + 1, Nat.succ_lt_succ hi, ?_⟩
        push_cast
        ring
    · rintro ⟨i, hi, rfl⟩
      cases i with
      | zero => exact .inl (by simp)
      | succ i =>
        refine .inr ⟨i, Nat.lt_of_succ_lt_succ hi, ?_⟩
        push_cast
        ring

theorem progression_append (start step : ℤ) (m n : ℕ) :
    progression start step (m + n) =
      progression start step m ++ progression (start + step * m) step n := by
  induction m generalizing start with
  | zero => simp [progression]
  | succ m ih =>
    have hnext : start + step + step * m = start + step * (m + 1 : ℕ) := by
      push_cast
      ring
    rw [Nat.succ_add, progression, ih, hnext]
    rfl

theorem progression_getLast? (start step : ℤ) (count : ℕ) :
    (progression start step (count + 1)).getLast? = some (start + step * count) := by
  rw [progression_append, progression, progression, List.getLast?_concat]

theorem progression_pairwise {start step : ℤ} (hstep : 0 < step) (count : ℕ) :
    (progression start step count).Pairwise (· < ·) := by
  induction count generalizing start with
  | zero => exact .nil
  | succ count ih =>
    refine List.pairwise_cons.mpr ⟨fun x hx => ?_, ih⟩
    obtain ⟨i, _, rfl⟩ := mem_progression.mp hx
    have hi : 0 ≤ step * (i : ℤ) := by positivity
    omega

end Progression

section Steps

/-- How many of `0, step, 2 * step, …` lie below the gap. -/
def steps (step gap : ℤ) : ℕ := ((gap + step - 1) / step).toNat

theorem lt_steps {step gap : ℤ} (hstep : 0 < step) {i : ℕ} :
    i < steps step gap ↔ step * i < gap := by
  have hdiv : ((i : ℤ) + 1) ≤ (gap + step - 1) / step ↔ ((i : ℤ) + 1) * step ≤ gap + step - 1 :=
    Int.le_ediv_iff_mul_le hstep
  have hexpand : ((i : ℤ) + 1) * step = step * i + step := by ring
  rw [hexpand] at hdiv
  unfold steps
  omega

theorem steps_sub {step gap : ℤ} (hstep : 0 < step) (k : ℕ) :
    steps step (gap - step * k) = steps step gap - k := by
  refine eq_of_forall_lt_iff fun i => ?_
  have hshift : step * ((i + k : ℕ) : ℤ) = step * i + step * k := by
    push_cast
    ring
  have hwhole := @lt_steps step gap hstep (i + k)
  rw [hshift] at hwhole
  rw [lt_steps hstep]
  omega

theorem steps_mono {step gap larger : ℤ} (hstep : 0 < step) (h : gap ≤ larger) :
    steps step gap ≤ steps step larger := by
  refine forall_lt_iff_le.mp fun i hi => ?_
  have hgap := (lt_steps hstep).mp hi
  exact (lt_steps hstep).mpr (by omega)

end Steps

section Walk
variable {p : ℤ → Prop} [DecidablePred p] {limit step : ℤ} {hstep : 0 < step}

theorem walk_progression {x : ℤ} {count : ℕ} (htake : ∀ i < count, p (x + step * (i : ℕ)))
    (hstop : ¬p (x + step * count)) (hlimit : count = 0 ∨ x + step * count ≤ limit) :
    walk p limit step hstep x = some (progression x step count) := by
  induction count generalizing x with
  | zero =>
    rw [walk, if_neg (by simpa using hstop)]
    rfl
  | succ count ih =>
    have hnext : ∀ i : ℕ, x + step + step * i = x + step * (i + 1 : ℕ) := by
      intro i
      push_cast
      ring
    have hfirst : p x := by simpa using htake 0 (Nat.succ_pos count)
    have hend : x + step + step * count ≤ limit := by
      rw [hnext]
      exact hlimit.resolve_left (Nat.succ_ne_zero count)
    have hcount : 0 ≤ step * (count : ℤ) := by positivity
    have hrest : walk p limit step hstep (x + step) = some (progression (x + step) step count) := by
      refine ih (fun i hi => ?_) ?_ (.inr hend)
      · rw [hnext]
        exact htake (i + 1) (Nat.succ_lt_succ hi)
      · rw [hnext]
        exact hstop
    rw [walk, if_pos hfirst, if_pos (by omega), hrest]
    rfl

theorem walk_below {bound x : ℤ} (hp : ∀ y, p y ↔ y < bound)
    (hlimit : x < bound → x + step * (steps step (bound - x)) ≤ limit) :
    walk p limit step hstep x = some (progression x step (steps step (bound - x))) := by
  have hbelow : ∀ i : ℕ, p (x + step * i) ↔ i < steps step (bound - x) := by
    intro i
    rw [hp, lt_steps hstep]
    omega
  refine walk_progression (fun i hi => (hbelow i).mpr hi) (fun h => ?_) ?_
  · exact absurd ((hbelow _).mp h) (lt_irrefl _)
  · by_cases hx : x < bound
    · exact .inr (hlimit hx)
    · refine .inl (Nat.eq_zero_of_not_pos fun hpos => ?_)
      have hfirst := (lt_steps hstep).mp hpos
      simp only [Nat.cast_zero, mul_zero] at hfirst
      omega

end Walk

end PredictionMarketMonitor.SteppedWalk
