/- Module: RankGate/Foundation/Effects
   layer: foundation
   digest: Sequencing, checks and inversion for programs that may stop, in three arrangements of state and failure. -/

import Mathlib.Data.List.Forall2
import Mathlib.Tactic.Common

set_option autoImplicit false
set_option relaxedAutoImplicit false

namespace Effects

variable {σ τ ε α β : Type}

def ensure {m : Type → Type} [Monad m] [MonadExcept ε m] (c : Prop) [Decidable c] (e : ε) :
    m Unit :=
  if c then pure () else throw e

section Failing

variable {m : Except ε α} {f : α → Except ε β}

theorem except_bind_eq_ok {b : β} (h : (m >>= f) = .ok b) : ∃ a, m = .ok a ∧ f a = .ok b := by
  cases m with
  | error e => cases h
  | ok a => exact ⟨a, rfl, h⟩

theorem except_bind_ok {a : α} (h : m = .ok a) : (m >>= f) = f a := by
  subst h
  rfl

theorem except_bind_error {e : ε} (h : m = .error e) : (m >>= f) = .error e := by
  subst h
  rfl

theorem eq_ok_iff_of_check {c : Prop} {a b : α} (hpass : c → m = .ok a)
    (hstop : ¬ c → ∃ e, m = .error e) : m = .ok b ↔ c ∧ a = b := by
  by_cases hc : c
  · rw [hpass hc, Except.ok.injEq]
    exact (and_iff_right hc).symm
  · obtain ⟨e, he⟩ := hstop hc
    rw [he]
    exact ⟨fun h => (nomatch h), fun h => absurd h.1 hc⟩

theorem toOption_eq_some {a : α} : m.toOption = some a ↔ m = .ok a := by
  cases m with
  | error e => exact ⟨fun h => (nomatch h), fun h => (nomatch h)⟩
  | ok b => exact ⟨fun h => congrArg Except.ok (Option.some.inj h),
      fun h => congrArg some (Except.ok.inj h)⟩

theorem mapM_eq_ok_iff {f : α → Except ε β} {l : List α} {r : List β} :
    l.mapM f = .ok r ↔ List.Forall₂ (fun a b => f a = .ok b) l r := by
  constructor
  · intro h
    induction l generalizing r with
    | nil =>
      cases h
      exact .nil
    | cons a l ih =>
      rw [List.mapM_cons] at h
      obtain ⟨b, hb, h⟩ := except_bind_eq_ok h
      obtain ⟨bs, hbs, h⟩ := except_bind_eq_ok h
      cases h
      exact .cons hb (ih hbs)
  · intro h
    induction h with
    | nil => rfl
    | cons hab _ ih =>
      rw [List.mapM_cons, hab, except_bind_ok rfl, ih]
      rfl

theorem exists_mapM_ok_iff {f : α → Except ε β} {l : List α} :
    (∃ r, l.mapM f = .ok r) ↔ ∀ a ∈ l, ∃ b, f a = .ok b := by
  simp only [mapM_eq_ok_iff]
  induction l with
  | nil => exact ⟨fun _ a ha => (List.not_mem_nil ha).elim, fun _ => ⟨[], .nil⟩⟩
  | cons a l ih =>
    rw [List.forall_mem_cons, ← ih]
    constructor
    · rintro ⟨r, h⟩
      obtain ⟨b, r', hb, hr, -⟩ := List.forall₂_cons_left_iff.mp h
      exact ⟨⟨b, hb⟩, ⟨r', hr⟩⟩
    · rintro ⟨⟨b, hb⟩, ⟨r, hr⟩⟩
      exact ⟨b :: r, .cons hb hr⟩

theorem mapM_eq_ok {f : α → Except ε β} {g : α → β} {l : List α}
    (h : ∀ a ∈ l, f a = .ok (g a)) : l.mapM f = .ok (l.map g) := by
  rw [mapM_eq_ok_iff, List.forall₂_map_right_iff, List.forall₂_same]
  exact h

variable {c : Prop} [Decidable c] {e : ε} {k : Unit → Except ε β}

theorem except_ensure_true (h : c) : (ensure c e >>= k) = k () := by
  rw [ensure, if_pos h]
  rfl

theorem except_ensure_false (h : ¬ c) : (ensure c e >>= k) = .error e := by
  rw [ensure, if_neg h]
  rfl

theorem ensure_eq_ok_iff {u : Unit} : (ensure c e : Except ε Unit) = .ok u ↔ c := by
  by_cases h : c
  · rw [ensure, if_pos h]
    exact ⟨fun _ => h, fun _ => rfl⟩
  · rw [ensure, if_neg h]
    exact ⟨fun hk => (nomatch hk), fun hc => absurd hc h⟩

theorem except_ensure_eq_ok {b : β} (h : (ensure c e >>= k) = .ok b) : c ∧ k () = .ok b := by
  by_cases hc : c
  · exact ⟨hc, except_ensure_true (e := e) (k := k) hc ▸ h⟩
  · rw [except_ensure_false hc] at h
    cases h

end Failing

/-! State that is lost on failure: `StateT σ (Except ε)`. -/

section Losing

variable {m : StateT σ (Except ε) α} {f : α → StateT σ (Except ε) β}

theorem bind_ok {s s' : σ} {a : α} (h : m s = .ok (a, s')) : (m >>= f) s = f a s' := by
  simp only [bind, StateT.bind, h, Except.bind]

theorem bind_error {s : σ} {e : ε} (h : m s = .error e) : (m >>= f) s = .error e := by
  simp only [bind, StateT.bind, h, Except.bind]

theorem bind_eq_ok {s s'' : σ} {b : β} (h : (m >>= f) s = .ok (b, s'')) :
    ∃ a s', m s = .ok (a, s') ∧ f a s' = .ok (b, s'') := by
  cases hm : m s with
  | error e => rw [bind_error hm] at h; cases h
  | ok p =>
    obtain ⟨a, s'⟩ := p
    rw [bind_ok hm] at h
    exact ⟨a, s', rfl, h⟩

variable {c : Prop} [Decidable c] {e : ε} {k : Unit → StateT σ (Except ε) β}

theorem ensure_true (h : c) (s : σ) : (ensure c e >>= k) s = k () s := by
  rw [ensure, if_pos h]
  rfl

theorem ensure_eq_ok {s s' : σ} {b : β} (h : (ensure c e >>= k) s = .ok (b, s')) :
    c ∧ k () s = .ok (b, s') := by
  by_cases hc : c
  · exact ⟨hc, ensure_true (e := e) (k := k) hc s ▸ h⟩
  · rw [ensure, if_neg hc] at h
    cases h

end Losing

/-! State that survives failure: `ExceptT ε (StateM σ)`, as with mutable objects and exceptions. -/

section Keeping

/-- Outcome and final state of a program whose state survives failure. -/
def exec (m : ExceptT ε (StateM σ) α) (s : σ) : Except ε α × σ := (m.run).run s

variable {m : ExceptT ε (StateM σ) α} {f : α → ExceptT ε (StateM σ) β} {s : σ}

@[simp] theorem exec_pure (a : α) : exec (pure a : ExceptT ε (StateM σ) α) s = (.ok a, s) := rfl

@[simp] theorem exec_throw (e : ε) :
    exec (throw e : ExceptT ε (StateM σ) α) s = (.error e, s) := rfl

@[simp] theorem exec_get : exec (get : ExceptT ε (StateM σ) σ) s = (.ok s, s) := rfl

@[simp] theorem exec_modify (g : σ → σ) :
    exec (modify g : ExceptT ε (StateM σ) Unit) s = (.ok (), g s) := rfl

@[simp] theorem exec_lift (x : Except ε α) :
    exec (liftM x : ExceptT ε (StateM σ) α) s = (x, s) := rfl

theorem exec_bind_ok {a : α} {s' : σ} (h : exec m s = (.ok a, s')) :
    exec (m >>= f) s = exec (f a) s' := by
  change exec (ExceptT.bind m f) s = _
  simp only [exec, ExceptT.run, ExceptT.bind, ExceptT.mk, StateT.run] at h ⊢
  simp only [bind, StateT.bind, h, ExceptT.bindCont]

theorem exec_bind_error {e : ε} {s' : σ} (h : exec m s = (.error e, s')) :
    exec (m >>= f) s = (.error e, s') := by
  change exec (ExceptT.bind m f) s = _
  simp only [exec, ExceptT.run, ExceptT.bind, ExceptT.mk, StateT.run] at h ⊢
  simp only [bind, StateT.bind, h, ExceptT.bindCont]
  rfl

theorem exec_bind_eq_ok {b : β} {s'' : σ} (h : exec (m >>= f) s = (.ok b, s'')) :
    ∃ a s', exec m s = (.ok a, s') ∧ exec (f a) s' = (.ok b, s'') := by
  rcases hm : exec m s with ⟨r, s'⟩
  cases r with
  | error e =>
    rw [exec_bind_error hm] at h
    cases h
  | ok a =>
    rw [exec_bind_ok hm] at h
    exact ⟨a, s', rfl, h⟩

theorem exec_lift_bind (x : Except ε α) :
    exec ((liftM x : ExceptT ε (StateM σ) α) >>= f) s =
      match x with
      | .ok a => exec (f a) s
      | .error e => (.error e, s) := by
  cases x with
  | ok a => exact exec_bind_ok rfl
  | error e => exact exec_bind_error rfl

theorem exec_lift_bind_eq_ok {x : Except ε α} {b : β} {s' : σ}
    (h : exec ((liftM x : ExceptT ε (StateM σ) α) >>= f) s = (.ok b, s')) :
    ∃ a, x = .ok a ∧ exec (f a) s = (.ok b, s') := by
  rw [exec_lift_bind] at h
  cases x with
  | error e => cases h
  | ok a => exact ⟨a, rfl, h⟩

/-- Whatever the program returns, from any state, has this property. -/
def Yields (Q : α → Prop) (m : ExceptT ε (StateM σ) α) : Prop :=
  ∀ s a s', exec m s = (.ok a, s') → Q a

theorem Yields.bind {Q : β → Prop} (h : ∀ a, Yields Q (f a)) : Yields Q (m >>= f) := by
  intro s b s'' hrun
  obtain ⟨a, s', -, hrest⟩ := exec_bind_eq_ok hrun
  exact h a s' b s'' hrest

theorem Yields.lift {Q : α → Prop} {x : Except ε α} (h : ∀ a, x = .ok a → Q a) :
    Yields Q (liftM x : ExceptT ε (StateM σ) α) := by
  intro s a s' hrun
  exact h a (congrArg Prod.fst hrun)

theorem exec_of_fst {x : Except ε α} (h : (exec m s).1 = x) : exec m s = (x, (exec m s).2) := by
  rw [← h]

theorem exec_ext {m' : ExceptT ε (StateM σ) α} (h : ∀ s, exec m s = exec m' s) : m = m' :=
  funext h

variable {c : Prop} [Decidable c] {e : ε} {k : Unit → ExceptT ε (StateM σ) β}

theorem exec_ensure_true (h : c) : exec (ensure c e >>= k) s = exec (k ()) s := by
  rw [ensure, if_pos h]
  exact exec_bind_ok rfl

theorem exec_ensure_false (h : ¬ c) : exec (ensure c e >>= k) s = (.error e, s) := by
  rw [ensure, if_neg h]
  exact exec_bind_error rfl

end Keeping

end Effects
