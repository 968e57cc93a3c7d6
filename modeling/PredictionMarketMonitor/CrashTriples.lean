import Mathlib.Logic.Relation
import Mathlib.Tactic.Common

set_option autoImplicit false

/-!
# Processes that may crash between their writes

A process changes a durable state by single writes and is lost with all it
remembers when it crashes. Its run lists the states it passes through, so a crash
point is one of them. A triple has a crash condition besides its precondition and
its postcondition; where the two former are one condition, the process may be
started again after any number of crashes.
-/
namespace PredictionMarketMonitor.CrashTriples

/-- The states passed through, the state in which the run ends, and how it ends. -/
structure Run (σ ε α : Type) where
  passed : List σ
  last : σ
  result : Except ε α
  last_passed : last ∈ passed

def Process (σ ε α : Type) := σ → Run σ ε α

variable {σ ε α β : Type}

def Process.ret (a : α) : Process σ ε α := fun s => ⟨[s], s, .ok a, List.mem_singleton_self s⟩

def Process.read (f : σ → Except ε α) : Process σ ε α :=
  fun s => ⟨[s], s, f s, List.mem_singleton_self s⟩

def Process.write (f : σ → σ) : Process σ ε Unit :=
  fun s => ⟨[s, f s], f s, .ok (), List.mem_cons_of_mem _ (List.mem_singleton_self _)⟩

/-- `if not done: ...` -/
def Process.skipIf (done : Bool) (p : Process σ ε Unit) : Process σ ε Unit :=
  if done = true then .ret () else p

def Run.andThen (r : Run σ ε α) (f : α → Process σ ε β) : Run σ ε β :=
  match r.result with
  | .ok a => ⟨r.passed ++ (f a r.last).passed, (f a r.last).last, (f a r.last).result,
      List.mem_append_right _ (f a r.last).last_passed⟩
  | .error e => ⟨r.passed, r.last, .error e, r.last_passed⟩

instance : Monad (Process σ ε) where
  pure := Process.ret
  bind p f := fun s => (p s).andThen f

theorem bind_apply (p : Process σ ε α) (f : α → Process σ ε β) (s : σ) :
    (p >>= f) s = (p s).andThen f := rfl

theorem andThen_ok {r : Run σ ε α} {a : α} (h : r.result = .ok a) (f : α → Process σ ε β) :
    (r.andThen f).passed = r.passed ++ (f a r.last).passed ∧
      (r.andThen f).last = (f a r.last).last ∧ (r.andThen f).result = (f a r.last).result := by
  simp only [Run.andThen]
  split
  · next b hb =>
    obtain rfl : a = b := Except.ok.inj (h.symm.trans hb)
    exact ⟨rfl, rfl, rfl⟩
  · next e he => simp [h] at he

theorem andThen_error {r : Run σ ε α} {e : ε} (h : r.result = .error e)
    (f : α → Process σ ε β) : (r.andThen f).result = .error e := by
  simp only [Run.andThen]
  split
  · next a ha => simp [h] at ha
  · next e' he =>
    obtain rfl : e = e' := Except.error.inj (h.symm.trans he)
    rfl

theorem passed_bind {p : Process σ ε α} {s t : σ} (ht : t ∈ (p s).passed)
    (k : α → Process σ ε β) : t ∈ ((p >>= k) s).passed := by
  cases h : (p s).result with
  | ok a =>
    rw [bind_apply, (andThen_ok h k).1]
    exact List.mem_append_left _ ht
  | error e =>
    rw [bind_apply, Run.andThen]
    split
    · next a ha => simp [h] at ha
    · exact ht

/-- The second run is what is left of the first. -/
structure Continues (r r' : Run σ ε β) : Prop where
  passed : ∀ t ∈ r'.passed, t ∈ r.passed
  last : r.last = r'.last
  result : r.result = r'.result

theorem Continues.trans {r r' r'' : Run σ ε β} (h : Continues r r') (h' : Continues r' r'') :
    Continues r r'' :=
  ⟨fun t ht => h.passed t (h'.passed t ht), h.last.trans h'.last, h.result.trans h'.result⟩

theorem continues_bind {p : Process σ ε α} {s t : σ} {a : α} (h : (p s).result = .ok a)
    (ht : (p s).last = t) (k : α → Process σ ε β) : Continues ((p >>= k) s) (k a t) := by
  have hseq := andThen_ok h k
  subst ht
  exact ⟨fun t ht => hseq.1 ▸ List.mem_append_right _ ht, hseq.2.1, hseq.2.2⟩

/-- Started in `P`, the process passes through states of `C` only and, unless it crashes,
    ends well and in `Q`. -/
structure Triple (P : σ → Prop) (p : Process σ ε α) (Q : α → σ → Prop) (C : σ → Prop) :
    Prop where
  passes : ∀ s, P s → ∀ t ∈ (p s).passed, C t
  ends : ∀ s, P s → ∃ a, (p s).result = .ok a ∧ Q a (p s).last

section Rules
variable {P : σ → Prop} {Q : β → σ → Prop} {C : σ → Prop}

theorem Triple.ret {a : α} {Q : α → σ → Prop} (hC : ∀ s, P s → C s) (hQ : ∀ s, P s → Q a s) :
    Triple P (pure a : Process σ ε α) Q C where
  passes s hs t ht := by
    have h : t = s := List.mem_singleton.mp ht
    exact h ▸ hC s hs
  ends s hs := ⟨a, rfl, hQ s hs⟩

theorem Triple.write {f : σ → σ} {Q : Unit → σ → Prop} (hC : ∀ s, P s → C s)
    (hQ : ∀ s, P s → Q () (f s)) (hQC : ∀ s, Q () s → C s) :
    Triple P (Process.write f : Process σ ε Unit) Q C where
  passes s hs t ht := by
    have h : t = s ∨ t = f s := by simpa [Process.write] using ht
    rcases h with rfl | rfl
    · exact hC t hs
    · exact hQC _ (hQ s hs)
  ends s hs := ⟨(), rfl, hQ s hs⟩

theorem Triple.skipIf {done : Bool} {p : Process σ ε Unit} {Q : Unit → σ → Prop}
    (hC : ∀ s, P s → C s) (hdone : done = true → ∀ s, P s → Q () s)
    (hp : done = false → Triple P p Q C) : Triple P (Process.skipIf done p) Q C := by
  cases done with
  | true => exact .ret hC (hdone rfl)
  | false => exact hp rfl

theorem Triple.read {f : σ → Except ε α} {k : α → Process σ ε β} (hC : ∀ s, P s → C s)
    (hf : ∀ s, P s → ∃ a, f s = .ok a)
    (hk : ∀ a, Triple (fun s => P s ∧ f s = .ok a) (k a) Q C) :
    Triple P (Process.read f >>= k) Q C where
  passes s hs t ht := by
    obtain ⟨a, ha⟩ := hf s hs
    have hseq := andThen_ok (r := (Process.read f : Process σ ε α) s) ha k
    rw [bind_apply, hseq.1] at ht
    rcases List.mem_append.mp ht with h | h
    · have hts : t = s := List.mem_singleton.mp h
      exact hts ▸ hC s hs
    · exact (hk a).passes s ⟨hs, ha⟩ t h
  ends s hs := by
    obtain ⟨a, ha⟩ := hf s hs
    obtain ⟨b, hb, hQ⟩ := (hk a).ends s ⟨hs, ha⟩
    have hseq := andThen_ok (r := (Process.read f : Process σ ε α) s) ha k
    refine ⟨b, ?_, ?_⟩
    · rw [bind_apply, hseq.2.2]
      exact hb
    · rw [bind_apply, hseq.2.1]
      exact hQ

theorem Triple.seq {p : Process σ ε α} {k : α → Process σ ε β} {R : α → σ → Prop}
    (hp : Triple P p R C) (hk : ∀ a, Triple (R a) (k a) Q C) : Triple P (p >>= k) Q C where
  passes s hs t ht := by
    obtain ⟨a, ha, hR⟩ := hp.ends s hs
    rw [bind_apply, (andThen_ok ha k).1] at ht
    rcases List.mem_append.mp ht with h | h
    · exact hp.passes s hs t h
    · exact (hk a).passes _ hR t h
  ends s hs := by
    obtain ⟨a, ha, hR⟩ := hp.ends s hs
    obtain ⟨b, hb, hQ⟩ := (hk a).ends _ hR
    have hseq := andThen_ok ha k
    exact ⟨b, hseq.2.2.trans hb, hseq.2.1 ▸ hQ⟩

theorem Triple.strengthen {P' : σ → Prop} {p : Process σ ε β} (h : Triple P p Q C)
    (hP : ∀ s, P' s → P s) : Triple P' p Q C where
  passes s hs := h.passes s (hP s hs)
  ends s hs := h.ends s (hP s hs)

end Rules

/-- The states that starting the process again and again, with a crash each time, leads to. -/
def Restarted (p : Process σ ε α) : σ → σ → Prop :=
  Relation.ReflTransGen (fun s t => t ∈ (p s).passed)

theorem Restarted.passed {p : Process σ ε α} {s t : σ} (h : t ∈ (p s).passed) :
    Restarted p s t := Relation.ReflTransGen.single h

/-- Recovery by running again: a precondition that is also the crash condition outlasts
    every number of crashes. -/
theorem Triple.restarted {P : σ → Prop} {p : Process σ ε α} {Q : α → σ → Prop}
    (h : Triple P p Q P) {s t : σ} (hs : P s) (ht : Restarted p s t) : P t := by
  induction ht with
  | refl => exact hs
  | tail _ hstep ih => exact h.passes _ ih _ hstep

end PredictionMarketMonitor.CrashTriples
