import Mathlib

set_option autoImplicit false

/-!
# Logs whose entries hand a value on to the next

An entry reads a value `before` it and leaves a value `after` it. A log is
threaded from `start` when every entry reads what the entry under it left.
Counters, compare-and-swap revisions, cursors and hash chains are all of this
form and differ only in the two projections.
-/
namespace PredictionMarketMonitor.ThreadedLog

universe u v w
variable {α : Type u} {β : Type v} (before after : α → β)

def Threaded : β → List α → Prop
  | _, [] => True
  | b, e :: es => before e = b ∧ Threaded (after e) es

/-- The value left by the last entry, or `start` when there is none. -/
def finish (start : β) (es : List α) : β := es.foldl (fun _ e => after e) start

variable {before after}

@[simp] theorem finish_nil (b : β) : finish after b [] = b := rfl

@[simp] theorem finish_append_singleton (b : β) (es : List α) (e : α) :
    finish after b (es ++ [e]) = after e := by
  simp [finish, List.foldl_append]

theorem finish_cons (b : β) (e : α) (es : List α) :
    finish after b (e :: es) = finish after (after e) es := rfl

theorem finish_eq_getLast (b : β) (es : List α) :
    finish after b es = (es.getLast?.map after).getD b := by
  induction es using List.reverseRecOn with
  | nil => rfl
  | append_singleton es e _ => simp

theorem threaded_append {b : β} {es fs : List α} :
    Threaded before after b (es ++ fs) ↔
      Threaded before after b es ∧ Threaded before after (finish after b es) fs := by
  induction es generalizing b with
  | nil => simp [Threaded]
  | cons e es ih => simp only [List.cons_append, Threaded, ih, finish_cons, and_assoc]

theorem threaded_snoc {b : β} {es : List α} {e : α} :
    Threaded before after b (es ++ [e]) ↔
      Threaded before after b es ∧ before e = finish after b es := by
  rw [threaded_append]
  simp [Threaded]

theorem threaded_getElem {b : β} {es : List α} (h : Threaded before after b es)
    (k : ℕ) (hk : k < es.length) : before es[k] = finish after b (es.take k) := by
  induction es generalizing b k with
  | nil => simp at hk
  | cons e es ih =>
    obtain ⟨he, hes⟩ := h
    cases k with
    | zero => exact he
    | succ k =>
      simpa [List.take_succ_cons, finish_cons] using ih hes k (by simpa using hk)

section Counter

theorem counter_map {f : α → ℕ} {k : ℕ} {es : List α}
    (h : Threaded f (fun e => f e + 1) k es) : es.map f = List.range' k es.length := by
  induction es generalizing k with
  | nil => rfl
  | cons e es ih =>
    obtain ⟨rfl, hes⟩ := h
    simp [List.range'_succ, ih hes]

theorem counter_finish {f : α → ℕ} {k : ℕ} {es : List α}
    (h : Threaded f (fun e => f e + 1) k es) :
    finish (fun e => f e + 1) k es = k + es.length := by
  induction es generalizing k with
  | nil => rfl
  | cons e es ih =>
    obtain ⟨rfl, hes⟩ := h
    rw [finish_cons, ih hes, List.length_cons]
    change f e + 1 + es.length = f e + (es.length + 1)
    omega

theorem counter_getElem {f : α → ℕ} {k : ℕ} {es : List α}
    (h : Threaded f (fun e => f e + 1) k es) (i : ℕ) (hi : i < es.length) :
    f es[i] = k + i := by
  have hm := counter_map h
  have hg : (es.map f)[i]? = (List.range' k es.length)[i]? := by rw [hm]
  simpa [List.getElem?_range', hi] using hg

theorem counter_pairwise {f : α → ℕ} {k : ℕ} {es : List α}
    (h : Threaded f (fun e => f e + 1) k es) : es.Pairwise (fun a b => f a < f b) := by
  have hp : (es.map f).Pairwise (· < ·) := by
    rw [counter_map h]
    exact List.pairwise_lt_range'
  exact List.pairwise_map.mp hp

end Counter

section Chain
variable {γ : Type w} {link : β → γ → β} {content : α → γ}

/-- A hash chain: each entry's `after` value is linked from its `before` value
    and its content, so the whole chain is the fold of the contents. -/
theorem chain_finish {g : β} {es : List α} (ht : Threaded before after g es)
    (hl : ∀ e ∈ es, after e = link (before e) (content e)) :
    finish after g es = (es.map content).foldl link g := by
  induction es generalizing g with
  | nil => rfl
  | cons e es ih =>
    obtain ⟨rfl, hes⟩ := ht
    rw [finish_cons, List.map_cons, List.foldl_cons, ih hes (fun f hf => hl f (by simp [hf])),
      hl e (by simp)]

theorem chain_getElem {g : β} {es : List α} (ht : Threaded before after g es)
    (hl : ∀ e ∈ es, after e = link (before e) (content e)) (k : ℕ) (hk : k < es.length) :
    before es[k] = ((es.take k).map content).foldl link g ∧
      after es[k] = ((es.take (k + 1)).map content).foldl link g := by
  have hpre : before es[k] = ((es.take k).map content).foldl link g := by
    rw [threaded_getElem ht k hk]
    refine chain_finish ?_ (fun e he => hl e (List.mem_of_mem_take he))
    have hsplit : Threaded before after g (es.take k ++ es.drop k) := by
      rwa [List.take_append_drop]
    exact (threaded_append.mp hsplit).1
  refine ⟨hpre, ?_⟩
  rw [List.take_succ_eq_append_getElem hk, List.map_append, List.foldl_append, ← hpre]
  exact hl _ (List.getElem_mem hk)

end Chain

end PredictionMarketMonitor.ThreadedLog
