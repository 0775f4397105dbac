/- Module: RankGate/Foundation/Parallel
   layer: foundation
   digest: Two programs over one state that survives failure; the left may be the stricter one. -/

import RankGate.Foundation.Effects

set_option autoImplicit false
set_option relaxedAutoImplicit false

namespace Parallel

open Effects (Yields ensure exec)

variable {σ ε δ α β α' β' : Type} {O : Prop}

/-- Both returned, related values, or both stopped. Under `O` the left may stop alone. -/
inductive Alike (O : Prop) (R : α → β → Prop) : Except ε α → Except δ β → Prop
  | ok {a : α} {b : β} : R a b → Alike O R (.ok a) (.ok b)
  | stop (e : ε) (d : δ) : Alike O R (.error e) (.error d)
  | apart (e : ε) (b : β) : O → Alike O R (.error e) (.ok b)

namespace Alike

variable {R : α → β → Prop} {Q : α' → β' → Prop} {x : Except ε α} {y : Except δ β}
  {f : α → Except ε α'} {g : β → Except δ β'}

theorem of_error (hO : O) (e : ε) (y : Except δ β) : Alike O R (.error e) y := by
  cases y with
  | ok b => exact .apart e b hO
  | error d => exact .stop e d

theorem of_iff (hx : ∀ a, x = .ok a → ∃ b, y = .ok b ∧ R a b) (hy : ∀ b, y = .ok b → ∃ a, x = .ok a) :
    Alike O R x y := by
  cases hxc : x with
  | ok a =>
    obtain ⟨b, rfl, hab⟩ := hx a hxc
    exact .ok hab
  | error e =>
    cases hyc : y with
    | ok b =>
      obtain ⟨a, ha⟩ := hy b hyc
      rw [hxc] at ha
      cases ha
    | error d => exact .stop e d

theorem mono {R' : α → β → Prop} (h : Alike O R x y)
    (hR : ∀ a b, x = .ok a → y = .ok b → R a b → R' a b) : Alike O R' x y := by
  cases h with
  | ok hab => exact .ok (hR _ _ rfl rfl hab)
  | stop e d => exact .stop e d
  | apart e b hO => exact .apart e b hO

theorem bind (h : Alike O R x y) (k : ∀ a b, R a b → Alike O Q (f a) (g b)) :
    Alike O Q (x >>= f) (y >>= g) := by
  cases h with
  | ok hab => exact k _ _ hab
  | stop e d => exact .stop e d
  | apart e b hO => exact of_error hO e _

theorem mapError_right {δ' : Type} (h : Alike O R x y) (q : δ → δ') :
    Alike O R x (y.mapError q) := by
  cases h with
  | ok hab => exact .ok hab
  | stop e d => exact .stop e (q d)
  | apart e b hO => exact .apart e b hO

theorem ensure {p q : Prop} [Decidable p] [Decidable q] {e : ε} {d : δ}
    {f : Unit → Except ε α'} {g : Unit → Except δ β'} (hpq : p ↔ q)
    (k : p → Alike O Q (f ()) (g ())) :
    Alike O Q (ensure p e >>= f) (Effects.ensure q d >>= g) := by
  by_cases hp : p
  · rw [Effects.except_ensure_true hp, Effects.except_ensure_true (hpq.mp hp)]
    exact k hp
  · rw [Effects.except_ensure_false hp, Effects.except_ensure_false (mt hpq.mpr hp)]
    exact .stop e d

theorem ensure_left {p : Prop} [Decidable p] {e : ε} {f : Unit → Except ε α} (hO : ¬ p → O)
    (k : p → Alike O R (f ()) y) : Alike O R (Effects.ensure p e >>= f) y := by
  by_cases hp : p
  · rw [Effects.except_ensure_true hp]
    exact k hp
  · rw [Effects.except_ensure_false hp]
    exact of_error (hO hp) e y

end Alike

/-- From every state: like outcomes, and the same state afterwards unless the left stopped alone. -/
def Runs (O : Prop) (R : α → β → Prop) (m : ExceptT ε (StateM σ) α)
    (n : ExceptT δ (StateM σ) β) : Prop :=
  ∀ s, Alike O R (exec m s).1 (exec n s).1 ∧
    ((exec m s).2 = (exec n s).2 ∨ O ∧ ∃ e, (exec m s).1 = .error e)

namespace Runs

section Rules

variable {R : α → β → Prop} {Q : α' → β' → Prop} {m : ExceptT ε (StateM σ) α}
  {n : ExceptT δ (StateM σ) β} {f : α → ExceptT ε (StateM σ) α'}
  {g : β → ExceptT δ (StateM σ) β'} {m' : ExceptT ε (StateM σ) α'}

theorem lift {x : Except ε α} {y : Except δ β} (h : Alike O R x y) :
    Runs O R (liftM x : ExceptT ε (StateM σ) α) (liftM y : ExceptT δ (StateM σ) β) :=
  fun _ => ⟨h, .inl rfl⟩

theorem bind (h : Runs O R m n) (k : ∀ a b, R a b → Runs O Q (f a) (g b)) :
    Runs O Q (m >>= f) (n >>= g) := by
  intro s
  obtain ⟨hout, hstate⟩ := h s
  rcases hm : exec m s with ⟨x, s₁⟩
  rcases hn : exec n s with ⟨y, s₂⟩
  rw [hm, hn] at hout hstate
  dsimp only at hout hstate
  cases hout with
  | ok hab =>
    obtain rfl | ⟨-, e, he⟩ := hstate
    · rw [Effects.exec_bind_ok hm, Effects.exec_bind_ok hn]
      exact k _ _ hab s₁
    · cases he
  | stop e d =>
    rw [Effects.exec_bind_error hm, Effects.exec_bind_error hn]
    exact ⟨.stop e d, hstate.imp_right fun h => ⟨h.1, e, rfl⟩⟩
  | apart e b hO =>
    rw [Effects.exec_bind_error hm]
    exact ⟨.of_error hO e _, .inr ⟨hO, e, rfl⟩⟩

theorem lift_right {b : β} (h : Runs O Q m' (g b)) :
    Runs O Q m' ((liftM (.ok b : Except δ β) : ExceptT δ (StateM σ) β) >>= g) := h

theorem and_left {p : α → Prop} (h : Runs O R m n) (hp : ¬ O → Yields p m) :
    Runs O (fun a b => R a b ∧ (¬ O → p a)) m n :=
  fun s => ⟨(h s).1.mono fun a _ ha _ hab => ⟨hab, fun hO => hp hO s a _ (Prod.ext ha rfl)⟩, (h s).2⟩

end Rules

variable {m : ExceptT ε (StateM σ) α} {n : ExceptT δ (StateM σ) α}

theorem of_same (h : ∀ s, (exec m s).1.toOption = (exec n s).1.toOption ∧ (exec m s).2 = (exec n s).2) :
    Runs O Eq m n := by
  intro s
  obtain ⟨hout, hstate⟩ := h s
  refine ⟨?_, .inl hstate⟩
  refine Alike.of_iff (fun a ha => ⟨a, ?_, rfl⟩) fun b hb => ⟨b, ?_⟩
  · rw [ha] at hout
    exact Effects.toOption_eq_some.mp hout.symm
  · rw [hb] at hout
    exact Effects.toOption_eq_some.mp hout

/-- What the left returns, the right returns. -/
theorem forward (h : Runs O Eq m n) {s : σ} {a : α} (hm : (exec m s).1 = .ok a) :
    exec n s = (.ok a, (exec m s).2) := by
  obtain ⟨hout, hstate⟩ := h s
  rcases hn : exec n s with ⟨y, s₂⟩
  rw [hm, hn] at hout hstate
  cases hout with
  | ok hab =>
    obtain hs | ⟨-, e, he⟩ := hstate
    · rw [hab]
      exact congrArg (Prod.mk _) hs.symm
    · cases he

/-- Where the left is no stricter, nothing but the text of an exception differs. -/
theorem both (h : Runs O Eq m n) (hO : ¬ O) (s : σ) :
    (exec m s).1.toOption = (exec n s).1.toOption ∧ (exec m s).2 = (exec n s).2 := by
  obtain ⟨hout, hstate⟩ := h s
  refine ⟨?_, hstate.resolve_right fun h => hO h.1⟩
  generalize (exec m s).1 = x at hout
  generalize (exec n s).1 = y at hout
  cases hout with
  | ok hab => exact congrArg some hab
  | stop e d => rfl
  | apart e b hstrict => exact absurd hstrict hO

end Runs

end Parallel
