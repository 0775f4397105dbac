/- Module: RankGate/Foundation/Embedding
   layer: foundation
   digest: One engine inside another: a map of states that carries every step over carries every run over. -/

import RankGate.Foundation.Lockstep

set_option autoImplicit false
set_option relaxedAutoImplicit false

namespace Lockstep

variable {σ τ ε δ : Type}

def carry (raise : ε → δ) (link : σ → τ) : Except ε (Unit × σ) → Except δ (Unit × τ)
  | .ok (u, s) => .ok (u, link s)
  | .error e => .error (raise e)

namespace Engine

variable {E : Engine σ ε} {F : Engine τ δ} {raise : ε → δ} {link : σ → τ}

/-- On linked states `F` does what `E` does. -/
structure Embeds (E : Engine σ ε) (F : Engine τ δ) (raise : ε → δ) (link : σ → τ) : Prop where
  halted : ∀ s, F.halted (link s) = E.halted s
  step : ∀ s, F.step (link s) = carry raise link (E.step s)
  runaway : ∀ s, F.runaway (link s) = link (E.runaway s)

theorem Embeds.step_ok (h : Embeds E F raise link) {s s' : σ} (hs : E.step s = .ok ((), s')) :
    F.step (link s) = .ok ((), link s') := by
  rw [h.step, hs]
  rfl

theorem Embeds.step_error (h : Embeds E F raise link) {s : σ} {e : ε} (hs : E.step s = .error e) :
    F.step (link s) = .error (raise e) := by
  rw [h.step, hs]
  rfl

theorem Embeds.run (h : Embeds E F raise link) (n : Nat) (s : σ) :
    F.run n (link s) = carry raise link (E.run n s) := by
  induction n generalizing s with
  | zero =>
    simp only [Engine.run, h.halted]
    cases E.halted s with
    | true => rfl
    | false => exact congrArg (fun t => Except.ok ((), t)) (h.runaway s)
  | succ n ih =>
    simp only [Engine.run, h.halted]
    cases E.halted s with
    | true => rfl
    | false =>
      simp only [Bool.false_eq_true, if_false]
      cases hs : E.step s with
      | error e =>
        rw [Effects.bind_error hs, Effects.bind_error (h.step_error hs)]
        rfl
      | ok p =>
        obtain ⟨⟨⟩, s'⟩ := p
        rw [Effects.bind_ok hs, Effects.bind_ok (h.step_ok hs)]
        exact ih s'

theorem Embeds.path (h : Embeds E F raise link) {k : Nat} {s t : σ} (hpath : Path E k s t) :
    Path F k (link s) (link t) := by
  induction hpath with
  | refl s => exact .refl _
  | @step k s s' t live hs _ ih =>
    exact .step ((h.halted s).trans live) (h.step_ok hs) ih

theorem run_error {n : Nat} {s : σ} {e : ε} (h : E.run n s = .error e) :
    ∃ k t, k < n ∧ Path E k s t ∧ E.halted t = false ∧ E.step t = .error e := by
  induction n generalizing s with
  | zero => cases h
  | succ n ih =>
    cases hs : E.halted s with
    | true =>
      rw [run_of_halted hs] at h
      cases h
    | false =>
      simp only [Engine.run, hs, Bool.false_eq_true, if_false] at h
      cases hstep : E.step s with
      | error d =>
        rw [Effects.bind_error hstep] at h
        cases h
        exact ⟨0, s, Nat.succ_pos n, .refl s, hs, hstep⟩
      | ok p =>
        obtain ⟨⟨⟩, s'⟩ := p
        rw [Effects.bind_ok hstep] at h
        obtain ⟨k, t, hk, hpath, ht, hfail⟩ := ih h
        exact ⟨k + 1, t, Nat.succ_lt_succ hk, .step hs hstep hpath, ht, hfail⟩

theorem run_of_error {n k : Nat} {s t : σ} {e : ε} (hk : k < n) (h : Path E k s t)
    (live : E.halted t = false) (hs : E.step t = .error e) : E.run n s = .error e := by
  obtain ⟨l, rfl⟩ := Nat.exists_eq_add_of_lt hk
  rw [Nat.add_assoc, run_path h]
  simp only [Engine.run, live, Bool.false_eq_true, if_false]
  exact Effects.bind_error hs

end Engine

end Lockstep
