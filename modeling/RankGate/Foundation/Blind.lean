/- Module: RankGate/Foundation/Blind
   layer: foundation
   digest: Programs and engines that do not see a part of their state: overwriting it commutes with them. -/

import RankGate.Foundation.Lockstep

set_option autoImplicit false
set_option relaxedAutoImplicit false

namespace Lockstep

open Effects (bind_ok bind_error)

variable {σ ε α β : Type}

/-- The program does the same after `g` has overwritten what it does not look at. -/
def Blind (g : σ → σ) (m : StateT σ (Except ε) α) : Prop :=
  ∀ s, m (g s) = (m s).map fun p => (p.1, g p.2)

namespace Blind

variable {g : σ → σ} {m : StateT σ (Except ε) α} {f : α → StateT σ (Except ε) β}

theorem pure (a : α) : Blind g (pure a : StateT σ (Except ε) α) := fun _ => rfl

theorem throw (e : ε) : Blind g (throw e : StateT σ (Except ε) α) := fun _ => rfl

theorem bind (hm : Blind g m) (hf : ∀ a, Blind g (f a)) : Blind g (m >>= f) := by
  intro s
  cases hs : m s with
  | error e => rw [bind_error hs, bind_error (by rw [hm s, hs]; rfl)]; rfl
  | ok p =>
    obtain ⟨a, s'⟩ := p
    have hg : m (g s) = .ok (a, g s') := by
      rw [hm s, hs]
      rfl
    rw [bind_ok hs, bind_ok hg, hf a s']

theorem get_bind {k : σ → StateT σ (Except ε) β} (hsame : ∀ s, k (g s) = k s)
    (hk : ∀ s, Blind g (k s)) : Blind g (get >>= k) := by
  intro s
  change k (g s) (g s) = _
  rw [hsame s, hk s s]
  rfl

theorem modify {p : σ → σ} (h : ∀ s, p (g s) = g (p s)) :
    Blind g (modify p : StateT σ (Except ε) Unit) := by
  intro s
  exact congrArg (fun s => Except.ok ((), s)) (h s)

theorem ite {c : Prop} [Decidable c] {m₁ m₂ : StateT σ (Except ε) α} (h₁ : Blind g m₁)
    (h₂ : Blind g m₂) : Blind g (if c then m₁ else m₂) := by
  split_ifs
  · exact h₁
  · exact h₂

theorem dite {c : Prop} [Decidable c] {m₁ : c → StateT σ (Except ε) α}
    {m₂ : ¬ c → StateT σ (Except ε) α} (h₁ : ∀ h, Blind g (m₁ h)) (h₂ : ∀ h, Blind g (m₂ h)) :
    Blind g (if h : c then m₁ h else m₂ h) := by
  split_ifs with h
  · exact h₁ h
  · exact h₂ h

theorem fixed (hm : Blind g m) {s s' : σ} {a : α} (hs : g s = s) (h : m s = .ok (a, s')) :
    g s' = s' := by
  have hg := hm s
  rw [hs, h] at hg
  exact (congrArg Prod.snd (Except.ok.inj hg)).symm

end Blind

namespace Engine

variable {E F : Engine σ ε} {g : σ → σ}

/-- A run is blind where the step, the halting test and the runaway mark are. -/
theorem run_blind (hhalted : ∀ s, E.halted (g s) = E.halted s) (hstep : Blind g E.step)
    (hrunaway : ∀ s, E.runaway (g s) = g (E.runaway s)) (n : Nat) : Blind g (E.run n) := by
  induction n with
  | zero =>
    intro s
    simp only [run, hhalted, Except.map]
    split_ifs
    · rfl
    · rw [hrunaway]
  | succ n ih =>
    intro s
    simp only [run, hhalted]
    split_ifs
    · rfl
    · exact hstep.bind (fun _ => ih) s

/-- Two engines that agree on an invariant of one of them have the same runs. -/
theorem run_congr {I : σ → Prop} (hhalted : ∀ s, E.halted s = F.halted s)
    (hrunaway : ∀ s, E.runaway s = F.runaway s) (hstep : ∀ s, I s → E.step s = F.step s)
    (hkeep : ∀ s s', I s → F.step s = .ok ((), s') → I s') (n : Nat) {s : σ} (hs : I s) :
    E.run n s = F.run n s := by
  induction n generalizing s with
  | zero => simp only [run, hhalted, hrunaway]
  | succ n ih =>
    simp only [run, hhalted]
    split_ifs
    · rfl
    · cases hF : F.step s with
      | error e => rw [bind_error hF, bind_error ((hstep s hs).trans hF)]
      | ok p =>
        rw [bind_ok hF, bind_ok ((hstep s hs).trans hF)]
        exact ih (hkeep s _ hs hF)

end Engine

end Lockstep
