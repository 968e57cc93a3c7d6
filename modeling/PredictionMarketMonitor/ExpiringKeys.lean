import Mathlib

set_option autoImplicit false

/-!
# Calls on keys that are held until a deadline

A store is observed key by key. A call names one key, changes what is observed
at that key only, and is answered from it. A key that was taken is held until
its deadline; a call begins at one time and is decided at a later one.
-/
namespace PredictionMarketMonitor.ExpiringKeys

universe u v w x y
variable {σ : Type u} {ℓ : Type v} {ρ : Type w} {κ : Type x} {β : Type y}

def answers (step : σ → ℓ → σ × ρ) : σ → List ℓ → List (ℓ × ρ)
  | _, [] => []
  | s, l :: ls => (l, (step s l).2) :: answers step (step s l).1 ls

variable {step : σ → ℓ → σ × ρ}

theorem exists_of_answer {s : σ} {ls : List ℓ} {a : ℓ × ρ} (ha : a ∈ answers step s ls) :
    a.1 ∈ ls ∧ ∃ t, a.2 = (step t a.1).2 := by
  induction ls generalizing s with
  | nil => cases ha
  | cons l ls ih =>
    rcases List.mem_cons.mp ha with rfl | ha
    · exact ⟨List.mem_cons_self, s, rfl⟩
    · have hrest := ih ha
      exact ⟨List.mem_cons_of_mem l hrest.1, hrest.2⟩

section Locality
variable {view : σ → κ → β} {key : ℓ → κ}

structure KeyLocal (step : σ → ℓ → σ × ρ) (view : σ → κ → β) (key : ℓ → κ) : Prop where
  frame : ∀ s l j, j ≠ key l → view (step s l).1 j = view s j
  answer : ∀ s t l, view s (key l) = view t (key l) → (step s l).2 = (step t l).2
  effect : ∀ s t l, view s (key l) = view t (key l) →
    view (step s l).1 (key l) = view (step t l).1 (key l)

theorem answers_filter [DecidableEq κ] (hlocal : KeyLocal step view key) (k : κ) {s t : σ}
    (hview : view s k = view t k) (ls : List ℓ) :
    (answers step s ls).filter (fun a => key a.1 = k) =
      answers step t (ls.filter (fun l => key l = k)) := by
  induction ls generalizing s t with
  | nil => rfl
  | cons l ls ih =>
    by_cases hkey : key l = k
    · subst hkey
      have hanswer : (step s l).2 = (step t l).2 := hlocal.answer s t l hview
      have hnext : view (step s l).1 (key l) = view (step t l).1 (key l) :=
        hlocal.effect s t l hview
      simp only [answers, List.filter_cons_of_pos, decide_true]
      rw [hanswer, ih hnext]
    · have hframe : view (step s l).1 k = view t k :=
        (hlocal.frame s l k (Ne.symm hkey)).trans hview
      simp only [answers, List.filter_cons, hkey, decide_false]
      exact ih hframe

end Locality

section Runs

def Meets (step : σ → ℓ → σ × ρ) (cond : σ → ℓ → Prop) : σ → List ℓ → Prop
  | _, [] => True
  | s, l :: ls => cond s l ∧ Meets step cond (step s l).1 ls

instance decidableMeets {cond : σ → ℓ → Prop} [∀ s l, Decidable (cond s l)] :
    ∀ (s : σ) (ls : List ℓ), Decidable (Meets step cond s ls)
  | _, [] => .isTrue trivial
  | s, l :: ls => @instDecidableAnd _ _ (inferInstance : Decidable (cond s l))
      (decidableMeets (step s l).1 ls)

theorem Meets.mono {cond other : σ → ℓ → Prop} (h : ∀ s l, cond s l → other s l) {s : σ}
    {ls : List ℓ} (hmeets : Meets step cond s ls) : Meets step other s ls := by
  induction ls generalizing s with
  | nil => trivial
  | cons l ls ih => exact ⟨h s l hmeets.1, ih hmeets.2⟩

end Runs

section Deadlines
variable {τ : Type y} [LinearOrder τ] {deadline : σ → κ → Option τ} {key : ℓ → κ}
  {now clock till : ℓ → τ} {took : ρ → Prop}

/-- A call that begins at `now` and is decided at `clock` takes a key that is free or past
    its deadline by then, and holds it until a time after it began; any other call leaves
    the key as it is. -/
structure Holding (step : σ → ℓ → σ × ρ) (deadline : σ → κ → Option τ) (key : ℓ → κ)
    (now clock till : ℓ → τ) (took : ρ → Prop) : Prop where
  frame : ∀ s l j, j ≠ key l → deadline (step s l).1 j = deadline s j
  refused : ∀ s l, ¬ took (step s l).2 → deadline (step s l).1 (key l) = deadline s (key l)
  free : ∀ s l, took (step s l).2 → ∀ d ∈ deadline s (key l), d ≤ clock l
  ahead : ∀ s l, took (step s l).2 → now l < till l
  held : ∀ s l, took (step s l).2 → deadline (step s l).1 (key l) = some (till l)

/-- A call that begins before the deadline of its key is decided before it. -/
def Prompt (deadline : σ → κ → Option τ) (key : ℓ → κ) (now clock : ℓ → τ) (s : σ) (l : ℓ) :
    Prop :=
  ∀ d ∈ deadline s (key l), now l < d → clock l < d

theorem free_of_prompt (hold : Holding step deadline key now clock till took) {s : σ} {l : ℓ}
    (hprompt : Prompt deadline key now clock s l) (htook : took (step s l).2) {d : τ}
    (hd : d ∈ deadline s (key l)) : d ≤ now l := by
  by_contra hbefore
  have hclock : clock l < d := hprompt d hd (not_le.mp hbefore)
  exact absurd (hold.free s l htook d hd) (not_le.mpr hclock)

theorem held_until (hold : Holding step deadline key now clock till took) {s : σ} {k : κ} {d : τ}
    (hheld : deadline s k = some d) {ls : List ℓ}
    (hprompt : Meets step (Prompt deadline key now clock) s ls) {a : ℓ × ρ}
    (ha : a ∈ answers step s ls) (htook : took a.2) (hkey : key a.1 = k) : d ≤ now a.1 := by
  induction ls generalizing s d with
  | nil => cases ha
  | cons l ls ih =>
    obtain ⟨hl, hrest⟩ := hprompt
    rcases List.mem_cons.mp ha with rfl | ha
    · exact free_of_prompt hold hl htook (by rw [hkey]; exact hheld)
    by_cases hcall : key l = k
    · by_cases htaken : took (step s l).2
      -- a call that takes the key only moves its deadline on
      · have hopen : d ≤ now l := free_of_prompt hold hl htaken (by rw [hcall]; exact hheld)
        have hnext : deadline (step s l).1 k = some (till l) := hcall ▸ hold.held s l htaken
        exact (hopen.trans (hold.ahead s l htaken).le).trans (ih hnext hrest ha)
      · refine ih ?_ hrest ha
        rw [← hcall, hold.refused s l htaken, hcall]
        exact hheld
    · refine ih ?_ hrest ha
      rw [hold.frame s l k (Ne.symm hcall)]
      exact hheld

theorem taken_apart (hold : Holding step deadline key now clock till took) {s : σ} {ls : List ℓ}
    (hprompt : Meets step (Prompt deadline key now clock) s ls) :
    (answers step s ls).Pairwise (fun a b =>
      took a.2 → took b.2 → key a.1 = key b.1 → till a.1 ≤ now b.1 ∧ now b.1 < till b.1) := by
  induction ls generalizing s with
  | nil => exact .nil
  | cons l ls ih =>
    obtain ⟨_, hrest⟩ := hprompt
    refine List.pairwise_cons.mpr ⟨fun b hb ha htook hkey => ?_, ih hrest⟩
    have hafter : till l ≤ now b.1 :=
      held_until hold (hold.held s l ha) hrest hb htook hkey.symm
    obtain ⟨_, t, hanswer⟩ := exists_of_answer hb
    have hahead : now b.1 < till b.1 := hold.ahead t b.1 (by rw [← hanswer]; exact htook)
    exact ⟨hafter, hahead⟩

theorem length_filter_le_one {α : Type u} {p : α → Prop} [DecidablePred p] {xs : List α}
    (h : xs.Pairwise (fun a b => p a → p b → False)) : (xs.filter p).length ≤ 1 := by
  induction xs with
  | nil => exact Nat.zero_le 1
  | cons x xs ih =>
    obtain ⟨hx, hxs⟩ := List.pairwise_cons.mp h
    by_cases hp : p x
    · have hnone : xs.filter p = [] :=
        List.filter_eq_nil_iff.mpr fun y hy hpy => hx y hy hp (of_decide_eq_true hpy)
      rw [List.filter_cons_of_pos (by simpa using hp), hnone]
      exact Nat.le_refl 1
    · rw [List.filter_cons_of_neg (by simpa using hp)]
      exact ih hxs

end Deadlines

end PredictionMarketMonitor.ExpiringKeys
