/- Module: RankGate/Foundation/Hoare
   layer: foundation
   digest: Partial-correctness triples for stateful programs that may fail, and for runs of an engine. -/

import RankGate.Foundation.Lockstep

set_option autoImplicit false
set_option relaxedAutoImplicit false

namespace Hoare

variable {σ ε α β : Type}

/-- From a state with `P`, a run that returns ends in a state and a value with `Q`. -/
def Triple (P : σ → Prop) (m : StateT σ (Except ε) α) (Q : α → σ → Prop) : Prop :=
  ∀ s a s', P s → m s = .ok (a, s') → Q a s'

variable {P P' : σ → Prop} {Q Q' : α → σ → Prop} {R : β → σ → Prop} {m : StateT σ (Except ε) α}
  {f : α → StateT σ (Except ε) β}

namespace Triple

theorem pure {a : α} (h : ∀ s, P s → Q a s) :
    Triple P (pure a : StateT σ (Except ε) α) Q := by
  intro s b s' hs hrun
  cases hrun
  exact h s hs

theorem throw (e : ε) : Triple P (throw e : StateT σ (Except ε) α) Q := by
  intro s a s' _ hrun
  cases hrun

theorem modify {p : σ → σ} {Q : Unit → σ → Prop} (h : ∀ s, P s → Q () (p s)) :
    Triple P (modify p : StateT σ (Except ε) Unit) Q := by
  intro s a s' hs hrun
  cases hrun
  exact h s hs

theorem bind (hm : Triple P m Q) (hf : ∀ a, Triple (Q a) (f a) R) : Triple P (m >>= f) R := by
  intro s b s'' hs hrun
  obtain ⟨a, s', hfirst, hrest⟩ := Effects.bind_eq_ok hrun
  exact hf a s' b s'' (hm s a s' hs hfirst) hrest

theorem get_bind {k : σ → StateT σ (Except ε) β} (hk : ∀ s, P s → Triple (· = s) (k s) R) :
    Triple P (get >>= k) R :=
  fun s b s' hs hrun => hk s hs s b s' rfl hrun

theorem ite {c : Prop} [Decidable c] {m₁ m₂ : StateT σ (Except ε) α} (h₁ : c → Triple P m₁ Q)
    (h₂ : ¬c → Triple P m₂ Q) : Triple P (if c then m₁ else m₂) Q := by
  split_ifs with h
  · exact h₁ h
  · exact h₂ h

theorem mono (h : Triple P m Q) (hpre : ∀ s, P' s → P s) (hpost : ∀ a s, Q a s → Q' a s) :
    Triple P' m Q' :=
  fun s a s' hs hrun => hpost a s' (h s a s' (hpre s hs) hrun)

theorem of_and {p : Prop} (h : p → Triple P m Q) : Triple (fun s => p ∧ P s) m Q :=
  fun s a s' hs hrun => h hs.1 s a s' hs.2 hrun

end Triple

/-- Assertions that a step leads from one to the next hold along a path. -/
theorem path_assertion {E : Lockstep.Engine σ ε} {I : Nat → σ → Prop}
    (hstep : ∀ n, Triple (I n) E.step fun _ => I (n + 1)) {n k : Nat} {s t : σ}
    (h : Lockstep.Engine.Path E k s t) (hs : I n s) : I (n + k) t := by
  induction h generalizing n with
  | refl s => exact hs
  | @step k s s' t _ hnext _ ih =>
    have hrest := ih (hstep n s () s' hs hnext)
    rwa [Nat.add_right_comm, Nat.add_assoc] at hrest

end Hoare
