import Mathlib.Data.List.Infix
import Mathlib.Tactic.Common
import Mathlib.Tactic.SplitIfs

set_option autoImplicit false

/-!
# Patterns with two wildcards and an escape

The language of SQL's `LIKE ... ESCAPE`: one sign stands for any text, one for any
character, and the character after the escape stands for itself. A text with its
signs escaped and the first sign around it matches exactly what contains the text.
-/
namespace PredictionMarketMonitor.LikePatterns

variable {α : Type} [DecidableEq α]

/-- The signs of a pattern, told apart from each other. -/
structure Signs (α : Type) where
  sequence : α
  one : α
  escape : α
  sequence_ne : sequence ≠ escape

inductive Element (α : Type)
  | anySequence
  | anyOne
  | literal (c : α)

variable (signs : Signs α)

/-- `none` where the pattern ends with the escape, which is an error. -/
def parse : List α → Option (List (Element α))
  | [] => some []
  | c :: rest =>
    if c = signs.escape then
      match rest with
      | [] => none
      | quoted :: rest => (parse rest).map (.literal quoted :: ·)
    else if c = signs.sequence then (parse rest).map (.anySequence :: ·)
    else if c = signs.one then (parse rest).map (.anyOne :: ·)
    else (parse rest).map (.literal c :: ·)

def isMatch : List (Element α) → List α → Bool
  | [], s => s.isEmpty
  | .anySequence :: p, s => s.tails.any (isMatch p)
  | .anyOne :: p, _ :: s => isMatch p s
  | .literal c :: p, d :: s => decide (c = d) && isMatch p s
  | .anyOne :: _, [] => false
  | .literal _ :: _, [] => false

/-- `s LIKE pattern ESCAPE escape` -/
def like (pattern s : List α) : Option Bool := (parse signs pattern).map (isMatch · s)

def Special (c : α) : Prop := c = signs.escape ∨ c = signs.sequence ∨ c = signs.one

instance (c : α) : Decidable (Special signs c) := inferInstanceAs (Decidable (_ ∨ _))

def escapeText (f : List α) : List α :=
  f.flatMap fun c => if Special signs c then [signs.escape, c] else [c]

variable {signs}

theorem parse_quoted (quoted : α) (rest : List α) :
    parse signs (signs.escape :: quoted :: rest) = (parse signs rest).map (.literal quoted :: ·) := by
  simp [parse]

theorem parse_cons {c : α} (hc : c ≠ signs.escape) (rest : List α) :
    parse signs (c :: rest) = (parse signs rest).map
      ((if c = signs.sequence then .anySequence else if c = signs.one then .anyOne else .literal c)
        :: ·) := by
  have hif : parse signs (c :: rest) = if c = signs.sequence then
        (parse signs rest).map (.anySequence :: ·)
      else if c = signs.one then (parse signs rest).map (.anyOne :: ·)
      else (parse signs rest).map (.literal c :: ·) := by
    cases rest <;> simp [parse, hc]
  rw [hif]
  split_ifs <;> rfl

theorem isMatch_anySequence {p : List (Element α)} {s : List α} :
    isMatch (.anySequence :: p) s = true ↔ ∃ t, t <:+ s ∧ isMatch p t = true := by
  simp only [isMatch, List.any_eq_true, List.mem_tails]

theorem isMatch_literals {p : List (Element α)} (f s : List α) :
    isMatch (f.map .literal ++ p) s = true ↔ ∃ t, s = f ++ t ∧ isMatch p t = true := by
  induction f generalizing s with
  | nil => simp
  | cons c f ih =>
    cases s with
    | nil => simp [isMatch]
    | cons d s =>
      simp only [List.map_cons, List.cons_append, isMatch, Bool.and_eq_true, decide_eq_true_eq,
        ih, List.cons.injEq]
      constructor
      · rintro ⟨rfl, t, rfl, ht⟩
        exact ⟨t, ⟨rfl, rfl⟩, ht⟩
      · rintro ⟨t, ⟨rfl, rfl⟩, ht⟩
        exact ⟨rfl, t, rfl, ht⟩

theorem isMatch_contains (f s : List α) :
    isMatch (.anySequence :: (f.map .literal ++ [.anySequence])) s = true ↔ f <:+: s := by
  have hrest : ∀ t : List α, isMatch [.anySequence] t = true :=
    fun t => isMatch_anySequence.mpr ⟨[], List.nil_suffix, rfl⟩
  rw [isMatch_anySequence]
  constructor
  · rintro ⟨t, ⟨u, hu⟩, ht⟩
    obtain ⟨v, hv, -⟩ := (isMatch_literals f t).mp ht
    exact ⟨u, v, by rw [← hu, hv, List.append_assoc]⟩
  · rintro ⟨u, v, huv⟩
    refine ⟨f ++ v, ⟨u, by rw [← huv, List.append_assoc]⟩, ?_⟩
    exact (isMatch_literals f (f ++ v)).mpr ⟨v, rfl, hrest v⟩

theorem parse_escapeText (f rest : List α) :
    parse signs (escapeText signs f ++ rest) =
      (parse signs rest).map (f.map Element.literal ++ ·) := by
  induction f with
  | nil => simp [escapeText]
  | cons c f ih =>
    have hcons : escapeText signs (c :: f) =
        (if Special signs c then [signs.escape, c] else [c]) ++ escapeText signs f := rfl
    have hmap : (parse signs rest).map ((c :: f).map Element.literal ++ ·) =
        (parse signs (escapeText signs f ++ rest)).map (.literal c :: ·) := by
      rw [ih, Option.map_map]
      rfl
    rw [hmap, hcons]
    by_cases hc : Special signs c
    · simp [hc, parse_quoted]
    · have hne : c ≠ signs.escape ∧ c ≠ signs.sequence ∧ c ≠ signs.one := by
        simpa [Special, not_or] using hc
      simp [hc, parse_cons hne.1, hne.2]

theorem parse_contains (f : List α) :
    parse signs (signs.sequence :: (escapeText signs f ++ [signs.sequence])) =
      some (.anySequence :: (f.map .literal ++ [.anySequence])) := by
  have hnil : parse signs [] = some [] := by simp only [parse]
  simp [parse_cons signs.sequence_ne, parse_escapeText, hnil]

theorem like_contains (f s : List α) :
    like signs (signs.sequence :: (escapeText signs f ++ [signs.sequence])) s = some true ↔
      f <:+: s := by
  rw [like, parse_contains, Option.map_some, Option.some.injEq]
  exact isMatch_contains f s

end PredictionMarketMonitor.LikePatterns
