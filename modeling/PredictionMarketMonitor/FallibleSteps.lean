import Mathlib

set_option autoImplicit false

/-!
# Fallible computations and the runs they generate

`Except` is read as a transaction: an error leaves the state it started from.
The rules here turn a fact about one accepted transition into a fact about a
whole run, and peel a sequence of checks apart one check at a time.
-/
namespace PredictionMarketMonitor.FallibleSteps

universe u v w
variable {ε : Type u} {α β : Type v}

theorem bind_eq_ok {x : Except ε α} {f : α → Except ε β} {b : β} :
    (x >>= f) = .ok b ↔ ∃ a, x = .ok a ∧ f a = .ok b := by
  cases x with
  | error e => simp [bind, Except.bind]
  | ok a => simp [bind, Except.bind]

theorem ok_bind (a : α) (f : α → Except ε β) : ((Except.ok a : Except ε α) >>= f) = f a := rfl

theorem error_bind (e : ε) (f : α → Except ε β) :
    ((Except.error e : Except ε α) >>= f) = .error e := rfl

/-- A guard: raise `e` unless `p` holds. -/
def require (p : Prop) [Decidable p] (e : ε) : Except ε PUnit.{v + 1} :=
  if p then .ok ⟨⟩ else .error e

theorem require_eq_ok {p : Prop} [Decidable p] {e : ε} {t : PUnit.{v + 1}} :
    require p e = .ok t ↔ p := by
  by_cases h : p <;> simp [require, h]

theorem require_of {p : Prop} [Decidable p] {e : ε} (h : p) :
    require p e = .ok (⟨⟩ : PUnit.{v + 1}) := by
  simp [require, h]

theorem require_of_not {p : Prop} [Decidable p] {e : ε} (h : ¬p) :
    (require p e : Except ε PUnit.{v + 1}) = .error e := by
  simp [require, h]

theorem require_bind {p : Prop} [Decidable p] {e : ε} {f : PUnit.{v + 1} → Except ε β} {b : β} :
    (require p e >>= f) = .ok b ↔ p ∧ f ⟨⟩ = .ok b := by
  by_cases h : p
  · simp [require, h, ok_bind]
  · simp [require, h, error_bind]

/-- `Option` values that must be present. -/
def present (x : Option α) (e : ε) : Except ε α :=
  match x with
  | some a => .ok a
  | none => .error e

theorem present_eq_ok {x : Option α} {e : ε} {a : α} : present x e = .ok a ↔ x = some a := by
  cases x <;> simp [present]

theorem isOk_iff {x : Except ε α} : x.isOk = true ↔ ∃ a, x = .ok a := by
  cases x <;> simp [Except.isOk, Except.toBool]

section Traverse

theorem mapM_eq_ok_cons {f : α → Except ε β} {x : α} {xs : List α} {ys : List β} :
    (x :: xs).mapM f = .ok ys ↔ ∃ z zs, f x = .ok z ∧ xs.mapM f = .ok zs ∧ ys = z :: zs := by
  rw [List.mapM_cons, bind_eq_ok]
  constructor
  · rintro ⟨z, hz, h⟩
    obtain ⟨zs, hzs, h⟩ := bind_eq_ok.mp h
    exact ⟨z, zs, hz, hzs, (Except.ok.inj h).symm⟩
  · rintro ⟨z, zs, hz, hzs, rfl⟩
    exact ⟨z, hz, bind_eq_ok.mpr ⟨zs, hzs, rfl⟩⟩

theorem mapM_eq_ok_nil {f : α → Except ε β} {ys : List β} :
    ([] : List α).mapM f = .ok ys ↔ ys = [] := by
  simp only [List.mapM_nil]
  exact ⟨fun h => (Except.ok.inj h).symm, fun h => by rw [h]; rfl⟩

theorem mapM_forall₂ {f : α → Except ε β} {xs : List α} {ys : List β} :
    xs.mapM f = .ok ys ↔ List.Forall₂ (fun x y => f x = .ok y) xs ys := by
  induction xs generalizing ys with
  | nil => rw [mapM_eq_ok_nil]; exact List.forall₂_nil_left_iff.symm
  | cons x xs ih =>
    rw [mapM_eq_ok_cons, List.forall₂_cons_left_iff]
    constructor
    · rintro ⟨z, zs, hz, hzs, rfl⟩
      exact ⟨z, zs, hz, ih.mp hzs, rfl⟩
    · rintro ⟨z, zs, hz, hzs, rfl⟩
      exact ⟨z, zs, hz, ih.mpr hzs, rfl⟩

theorem mapM_ok_of_forall {f : α → Except ε β} {xs : List α}
    (h : ∀ x ∈ xs, ∃ y, f x = .ok y) : ∃ ys, xs.mapM f = .ok ys := by
  induction xs with
  | nil => exact ⟨[], mapM_eq_ok_nil.mpr rfl⟩
  | cons x xs ih =>
    obtain ⟨z, hz⟩ := h x (by simp)
    obtain ⟨zs, hzs⟩ := ih (fun y hy => h y (by simp [hy]))
    exact ⟨z :: zs, mapM_eq_ok_cons.mpr ⟨z, zs, hz, hzs, rfl⟩⟩

theorem forall₂_mem_left {γ : Type w} {R : α → γ → Prop} {xs : List α} {ys : List γ}
    (h : List.Forall₂ R xs ys) : ∀ x ∈ xs, ∃ y ∈ ys, R x y := by
  induction h with
  | nil => simp
  | cons hxy _ ih =>
    intro x hx
    rcases List.mem_cons.mp hx with rfl | hx
    · exact ⟨_, by simp, hxy⟩
    · obtain ⟨y, hy, hr⟩ := ih x hx
      exact ⟨y, by simp [hy], hr⟩

theorem forall₂_mem_right {γ : Type w} {R : α → γ → Prop} {xs : List α} {ys : List γ}
    (h : List.Forall₂ R xs ys) : ∀ y ∈ ys, ∃ x ∈ xs, R x y :=
  forall₂_mem_left (List.Forall₂.flip (R := flip R) h)

theorem forall₂_exists {γ : Type w} {R : α → γ → Prop} {xs : List α}
    (h : ∀ x ∈ xs, ∃ y, R x y) : ∃ ys, List.Forall₂ R xs ys := by
  induction xs with
  | nil => exact ⟨[], .nil⟩
  | cons x xs ih =>
    obtain ⟨y, hy⟩ := h x (by simp)
    obtain ⟨ys, hys⟩ := ih (fun z hz => h z (by simp [hz]))
    exact ⟨y :: ys, .cons hy hys⟩

theorem foldlM_closed {σ : Type v} {κ : Type w} {step : σ → κ → Except ε σ} {f : σ → List κ → σ}
    {P : σ → List κ → Prop} (hnil : ∀ s, f s [] = s)
    (hstep : ∀ s k ks, P s (k :: ks) →
      step s k = .ok (f s [k]) ∧ P (f s [k]) ks ∧ f (f s [k]) ks = f s (k :: ks))
    {s : σ} {ks : List κ} (h : P s ks) : ks.foldlM step s = .ok (f s ks) := by
  induction ks generalizing s with
  | nil => rw [hnil]; rfl
  | cons k ks ih =>
    obtain ⟨hok, hnext, hcompose⟩ := hstep s k ks h
    rw [List.foldlM_cons, hok, ok_bind, ih hnext, hcompose]

theorem mapM_eq_map {f : α → Except ε β} {g : α → β} {xs : List α}
    (h : ∀ x ∈ xs, f x = .ok (g x)) : xs.mapM f = .ok (xs.map g) := by
  refine mapM_forall₂.mpr ?_
  induction xs with
  | nil => exact .nil
  | cons x xs ih => exact .cons (h x (by simp)) (ih (fun y hy => h y (by simp [hy])))

theorem foldlM_appends {σ : Type v} {γ : Type w} {f : σ → α → Except ε σ} (rows : σ → List γ)
    {R : α → List γ → Prop}
    (hf : ∀ s x t, f s x = .ok t → ∃ new, R x new ∧ rows t = rows s ++ new)
    {xs : List α} {s t : σ} (h : xs.foldlM f s = .ok t) :
    ∃ news, List.Forall₂ R xs news ∧ rows t = rows s ++ news.flatten := by
  induction xs generalizing s with
  | nil =>
    have hsame : s = t := Except.ok.inj h
    subst hsame
    exact ⟨[], .nil, by simp⟩
  | cons x xs ih =>
    rw [List.foldlM_cons, bind_eq_ok] at h
    obtain ⟨next, hnext, h⟩ := h
    obtain ⟨new, hnew, hrows⟩ := hf s x next hnext
    obtain ⟨news, hnews, hrest⟩ := ih h
    refine ⟨new :: news, .cons hnew hnews, ?_⟩
    rw [hrest, hrows, List.flatten_cons, List.append_assoc]

/-- The rows that such a fold appends, where each step appends what `R` says of its element. -/
theorem mem_foldlM_appends {γ : Type w} {R : α → List γ → Prop} {xs : List α} {news : List (List γ)}
    (h : List.Forall₂ R xs news) {b : γ} :
    b ∈ news.flatten ↔ ∃ x ∈ xs, ∃ new ∈ news, R x new ∧ b ∈ new := by
  rw [List.mem_flatten]
  constructor
  · rintro ⟨new, hnew, hb⟩
    obtain ⟨x, hx, hr⟩ := forall₂_mem_right h new hnew
    exact ⟨x, hx, new, hnew, hr, hb⟩
  · rintro ⟨_, _, new, hnew, _, hb⟩
    exact ⟨new, hnew, hb⟩

theorem find?_map_of_nodup {κ : Type w} [DecidableEq κ] {f : α → β} {key : α → κ} {id : β → κ}
    (hid : ∀ x, id (f x) = key x) {xs : List α} (hnodup : (xs.map key).Nodup) {x : α}
    (hx : x ∈ xs) : (xs.map f).find? (fun b => id b = key x) = some (f x) := by
  induction xs with
  | nil => simp at hx
  | cons y xs ih =>
    rw [List.map_cons, List.nodup_cons] at hnodup
    rw [List.map_cons, List.find?_cons]
    rcases List.mem_cons.mp hx with rfl | hx
    · simp [hid]
    · have hne : key y ≠ key x := fun h => hnodup.1 (h ▸ List.mem_map_of_mem hx)
      simp only [hid, hne, decide_false]
      exact ih hnodup.2 hx

end Traverse

section Runs
variable {σ : Type v} {ℓ : Type w} (step : σ → ℓ → Except ε σ)

def attempt (s : σ) (l : ℓ) : σ :=
  match step s l with
  | .ok t => t
  | .error _ => s

def run (s : σ) (ls : List ℓ) : σ := ls.foldl (attempt step) s

variable {step}

theorem attempt_of_ok {s t : σ} {l : ℓ} (h : step s l = .ok t) : attempt step s l = t := by
  simp [attempt, h]

theorem attempt_of_error {s : σ} {l : ℓ} {e : ε} (h : step s l = .error e) :
    attempt step s l = s := by
  simp [attempt, h]

/-- An attempt either fails and keeps the state or takes the accepted step. -/
theorem attempt_cases (step : σ → ℓ → Except ε σ) (s : σ) (l : ℓ) :
    attempt step s l = s ∨ step s l = .ok (attempt step s l) := by
  cases h : step s l with
  | error e => exact .inl (attempt_of_error h)
  | ok t => exact .inr (by rw [attempt_of_ok h])

@[simp] theorem run_nil (s : σ) : run step s [] = s := rfl

@[simp] theorem run_cons (s : σ) (l : ℓ) (ls : List ℓ) :
    run step s (l :: ls) = run step (attempt step s l) ls := rfl

theorem run_append (s : σ) (ls ms : List ℓ) :
    run step s (ls ++ ms) = run step (run step s ls) ms := by
  simp [run, List.foldl_append]

/-- Every label of the run meets `C` in the state in which it is attempted. -/
def Meets (step : σ → ℓ → Except ε σ) (C : σ → ℓ → Prop) : σ → List ℓ → Prop
  | _, [] => True
  | s, l :: ls => C s l ∧ Meets step C (attempt step s l) ls

theorem meets_true (s : σ) (ls : List ℓ) : Meets step (fun _ _ => True) s ls := by
  induction ls generalizing s with
  | nil => trivial
  | cons l ls ih => exact ⟨trivial, ih _⟩

theorem meets_of_forall {C : σ → ℓ → Prop} (s : σ) (ls : List ℓ)
    (h : ∀ t, ∀ l ∈ ls, C t l) : Meets step C s ls := by
  induction ls generalizing s with
  | nil => trivial
  | cons l ls ih => exact ⟨h s l (by simp), ih _ (fun t m hm => h t m (by simp [hm]))⟩

theorem meets_initial {C : σ → ℓ → Prop} {s : σ} {pre : List ℓ} {l : ℓ} {post : List ℓ}
    (h : Meets step C s (pre ++ l :: post)) : C (run step s pre) l := by
  induction pre generalizing s with
  | nil => exact h.1
  | cons m pre ih => exact ih h.2

theorem meets_append {C : σ → ℓ → Prop} {s : σ} {ls ms : List ℓ} :
    Meets step C s (ls ++ ms) ↔ Meets step C s ls ∧ Meets step C (run step s ls) ms := by
  induction ls generalizing s with
  | nil => simp [Meets]
  | cons l ls ih => simp only [List.cons_append, Meets, ih, run_cons, and_assoc]

/-- Conditioned invariant rule: accepted steps whose label meets `C` keep `I`. -/
theorem run_invariant_of {I : σ → Prop} {C : σ → ℓ → Prop}
    (hstep : ∀ s l t, I s → C s l → step s l = .ok t → I t) {s : σ} {ls : List ℓ}
    (hs : I s) (hm : Meets step C s ls) : I (run step s ls) := by
  induction ls generalizing s with
  | nil => exact hs
  | cons l ls ih =>
    obtain ⟨hc, hm⟩ := hm
    refine ih ?_ hm
    rcases attempt_cases step s l with h | h
    · rw [h]; exact hs
    · exact hstep s l _ hs hc h

theorem run_invariant {I : σ → Prop} (hstep : ∀ s l t, I s → step s l = .ok t → I t)
    {s : σ} (ls : List ℓ) (hs : I s) : I (run step s ls) :=
  run_invariant_of (C := fun _ _ => True) (fun s l t hs _ h => hstep s l t hs h) hs
    (meets_true s ls)

/-- A reflexive and transitive relation kept by accepted steps relates the two
    ends of every run, under an invariant of the states in between. -/
theorem run_relation {I : σ → Prop} {R : σ → σ → Prop} (hrefl : ∀ s, R s s)
    (htrans : ∀ s t u, R s t → R t u → R s u)
    (hinv : ∀ s l t, I s → step s l = .ok t → I t)
    (hstep : ∀ s l t, I s → step s l = .ok t → R s t)
    {s : σ} (ls : List ℓ) (hs : I s) : R s (run step s ls) := by
  induction ls generalizing s with
  | nil => exact hrefl s
  | cons l ls ih =>
    rcases attempt_cases step s l with h | h
    · rw [run_cons, h]; exact ih hs
    · exact htrans _ _ _ (hstep s l _ hs h) (ih (hinv s l _ hs h))

end Runs

end PredictionMarketMonitor.FallibleSteps
