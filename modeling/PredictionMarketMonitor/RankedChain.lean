import PredictionMarketMonitor.ThreadedLog

set_option autoImplicit false

/-!
# Chains of predecessors read by a rank

An entry names the entry under it. A reader that takes the entry of highest rank
finds the end of the chain exactly when no rank falls along the chain.
-/
namespace PredictionMarketMonitor.RankedChain

open ThreadedLog

universe u v w
variable {α : Type u} {ι : Type v} {κ : Type w}

section Tips
variable (parent : α → Option ι) (ident : α → ι)

def Linear (xs : List α) : Prop := Threaded parent (fun a => some (ident a)) none xs

def Tip (xs : List α) (t : α) : Prop := t ∈ xs ∧ ∀ a ∈ xs, parent a ≠ some (ident t)

variable {parent ident} {xs : List α}

theorem linear_snoc {a : α} : Linear parent ident (xs ++ [a]) ↔
    Linear parent ident xs ∧ parent a = xs.getLast?.map ident := by
  have hfinish : finish (fun a => some (ident a)) none xs = xs.getLast?.map ident := by
    rw [finish_eq_getLast]
    cases xs.getLast? <;> rfl
  rw [Linear, threaded_snoc, hfinish]
  rfl

theorem linear_named {a b : α} {front back : List α}
    (h : Linear parent ident (front ++ a :: b :: back)) : parent b = some (ident a) := by
  have hsplit : Threaded parent (fun a => some (ident a)) none ((front ++ [a]) ++ b :: back) := by
    rwa [List.append_assoc]
  have hback := (threaded_append.mp hsplit).2
  rw [finish_append_singleton] at hback
  exact hback.1

theorem linear_front {front back : List α} (h : Linear parent ident (front ++ back)) :
    Linear parent ident front := (threaded_append.mp h).1

theorem linear_parent {a : α} {i : ι} {front back : List α}
    (h : Linear parent ident (front ++ a :: back)) (ha : parent a = some i) :
    front.getLast?.map ident = some i := by
  have hsplit : Linear parent ident ((front ++ [a]) ++ back) := by
    rwa [List.append_assoc]
  rw [← ha, (linear_snoc.mp (linear_front hsplit)).2]

theorem linear_tip (h : Linear parent ident xs) (hids : (xs.map ident).Nodup) {t : α} :
    Tip parent ident xs t ↔ xs.getLast? = some t := by
  constructor
  · rintro ⟨ht, hfree⟩
    obtain ⟨front, back, rfl⟩ := List.append_of_mem ht
    cases back with
    | nil => simp
    | cons b back => exact absurd (linear_named h) (hfree b (by simp))
  · intro hlast
    obtain ⟨front, rfl⟩ := List.getLast?_eq_some_iff.mp hlast
    refine ⟨by simp, fun a ha hparent => ?_⟩
    obtain ⟨before, behind, hsplit⟩ := List.append_of_mem ha
    rw [hsplit] at h
    have hnamed := linear_parent h hparent
    obtain ⟨b, hb, hident⟩ := Option.map_eq_some_iff.mp hnamed
    -- the entry that is named would be a second one with the identity of the last
    have hpos : b ∈ before := List.mem_of_getLast? hb
    have htail : t ∈ a :: behind := by
      have hend : (before ++ a :: behind).getLast? = some t := by rw [← hsplit]; simp
      rw [List.getLast?_append_of_ne_nil _ (by simp)] at hend
      exact List.mem_of_getLast? hend
    rw [hsplit, List.map_append] at hids
    exact (List.nodup_append.mp hids).2.2 _ (List.mem_map_of_mem hpos) _
      (List.mem_map_of_mem htail) hident

end Tips

section Latest
variable [LinearOrder κ] (rank : α → κ)

/-- `ORDER BY rank DESC LIMIT 1`. -/
def latest : List α → Option α
  | [] => none
  | a :: rest =>
    match latest rest with
    | none => some a
    | some b => if rank a ≤ rank b then some b else some a

variable {rank} {xs : List α}

theorem latest_mem {a : α} (h : latest rank xs = some a) : a ∈ xs := by
  induction xs with
  | nil => cases h
  | cons b xs ih =>
    rw [latest] at h
    cases hrest : latest rank xs with
    | none =>
      rw [hrest] at h
      exact List.mem_cons.mpr (.inl (Option.some.inj h).symm)
    | some c =>
      rw [hrest] at h
      dsimp only at h
      split at h
      · exact List.mem_cons.mpr (.inr (ih (hrest.trans h)))
      · exact List.mem_cons.mpr (.inl (Option.some.inj h).symm)

theorem latest_eq_none : latest rank xs = none ↔ xs = [] := by
  cases xs with
  | nil => simp [latest]
  | cons a xs =>
    rw [latest]
    cases latest rank xs with
    | none => simp
    | some b =>
      dsimp only
      split <;> simp

theorem latest_le {a b : α} (h : latest rank xs = some a) (hb : b ∈ xs) : rank b ≤ rank a := by
  induction xs generalizing a with
  | nil => cases h
  | cons c xs ih =>
    rw [latest] at h
    cases hrest : latest rank xs with
    | none =>
      rw [hrest] at h
      rw [latest_eq_none.mp hrest] at hb
      rw [List.mem_singleton.mp hb, Option.some.inj h]
    | some d =>
      rw [hrest] at h
      dsimp only at h
      by_cases hle : rank c ≤ rank d
      · rw [if_pos hle] at h
        rcases List.mem_cons.mp hb with rfl | hb
        · rwa [← Option.some.inj h]
        · exact ih (hrest.trans h) hb
      · rw [if_neg hle] at h
        rw [← Option.some.inj h]
        rcases List.mem_cons.mp hb with rfl | hb
        · exact le_refl _
        · exact (ih hrest hb).trans (le_of_not_ge hle)

theorem latest_ascending (h : xs.Pairwise (fun a b => rank a < rank b)) :
    latest rank xs = xs.getLast? := by
  induction xs with
  | nil => rfl
  | cons a xs ih =>
    obtain ⟨hhead, htail⟩ := List.pairwise_cons.mp h
    rw [latest, ih htail]
    cases hlast : xs.getLast? with
    | none => rw [List.getLast?_eq_none_iff.mp hlast]; rfl
    | some b =>
      dsimp only
      rw [if_pos (hhead b (List.mem_of_getLast? hlast)).le, List.getLast?_cons, hlast]
      rfl

end Latest

end PredictionMarketMonitor.RankedChain
