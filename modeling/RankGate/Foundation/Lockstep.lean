/- Module: RankGate/Foundation/Lockstep
   layer: foundation
   digest: Relational rules for two programs that thread a state and may stop, and for two bounded engines. -/

import RankGate.Foundation.Effects

set_option autoImplicit false
set_option relaxedAutoImplicit false

namespace Lockstep

open Effects (bind_ok bind_error)

variable {σ τ ε δ α β α' β' : Type}

/-- Two outcomes agree: both return related values in related states, or both stop. The one
licensed difference is a left run that stops while the right one goes astray, into a state
described by `O`. -/
inductive Agree (O : τ → Prop) (R : α → β → Prop) (S : σ → τ → Prop) :
    Except ε (α × σ) → Except δ (β × τ) → Prop
  | ok {a : α} {b : β} {s : σ} {t : τ} : R a b → S s t → Agree O R S (.ok (a, s)) (.ok (b, t))
  | stop (e : ε) (d : δ) : Agree O R S (.error e) (.error d)
  | astray (e : ε) {b : β} {t : τ} : O t → Agree O R S (.error e) (.ok (b, t))

/-- Agreement from every pair of related states. -/
def Simulates (O : τ → Prop) (S : σ → τ → Prop) (m : StateT σ (Except ε) α)
    (n : StateT τ (Except δ) β) (R : α → β → Prop) (S' : σ → τ → Prop) : Prop :=
  ∀ s t, S s t → Agree O R S' (m s) (n t)

def Never (_ : τ) : Prop := False

/-- A program that, started astray, either stops or stays astray. -/
def Confined (O : τ → Prop) (n : StateT τ (Except δ) β) : Prop :=
  ∀ t b t', O t → n t = .ok (b, t') → O t'

variable {O : τ → Prop} {S S' S'' : σ → τ → Prop} {R : α → β → Prop} {R' : α' → β' → Prop}
  {m : StateT σ (Except ε) α} {n : StateT τ (Except δ) β}
  {f : α → StateT σ (Except ε) α'} {g : β → StateT τ (Except δ) β'}

theorem Agree.mono {O' : τ → Prop} {Q : α → β → Prop} {x : Except ε (α × σ)}
    {y : Except δ (β × τ)} (h : Agree O R S x y) (hO : ∀ t, O t → O' t)
    (hR : ∀ a b, R a b → Q a b) (hS : ∀ s t, S s t → S' s t) : Agree O' Q S' x y := by
  cases h with
  | ok hr hs => exact .ok (hR _ _ hr) (hS _ _ hs)
  | stop e d => exact .stop e d
  | astray e ho => exact .astray e (hO _ ho)

theorem Simulates.mono {O' : τ → Prop} {Q : α → β → Prop} (h : Simulates O S m n R S')
    (hO : ∀ t, O t → O' t) (hR : ∀ a b, R a b → Q a b) (hS : ∀ s t, S' s t → S'' s t) :
    Simulates O' S m n Q S'' :=
  fun s t hst => (h s t hst).mono hO hR hS

theorem Simulates.post (h : Simulates O S m n R S') (hS : ∀ s t, S' s t → S'' s t) :
    Simulates O S m n R S'' :=
  h.mono (fun _ ho => ho) (fun _ _ hr => hr) hS

theorem Simulates.loosen (h : Simulates Never S m n R S') : Simulates O S m n R S' :=
  h.mono (fun _ ho => ho.elim) (fun _ _ hr => hr) (fun _ _ hs => hs)

theorem Simulates.pure {a : α} {b : β} (h : R a b) :
    Simulates (ε := ε) (δ := δ) O S (pure a) (pure b) R S :=
  fun _ _ hst => .ok h hst

theorem Simulates.bind (h : Simulates Never S m n R S')
    (k : ∀ a b, R a b → Simulates O S' (f a) (g b) R' S'') :
    Simulates O S (m >>= f) (n >>= g) R' S'' := by
  intro s t hst
  have hmn := h s t hst
  generalize hx : m s = x at hmn
  generalize hy : n t = y at hmn
  cases hmn with
  | ok hr hs =>
    rw [bind_ok hx, bind_ok hy]
    exact k _ _ hr _ _ hs
  | stop e d =>
    rw [bind_error hx, bind_error hy]
    exact .stop e d
  | astray e ho => exact ho.elim

/-- Sequencing behind a first half that may leave the right side astray: the rest of the right
side must keep it there. -/
theorem Simulates.bind_astray (h : Simulates O S m n R S')
    (k : ∀ a b, R a b → Simulates O S' (f a) (g b) R' S'') (hg : ∀ b, Confined O (g b)) :
    Simulates O S (m >>= f) (n >>= g) R' S'' := by
  intro s t hst
  have hmn := h s t hst
  generalize hx : m s = x at hmn
  generalize hy : n t = y at hmn
  cases hmn with
  | ok hr hs =>
    rw [bind_ok hx, bind_ok hy]
    exact k _ _ hr _ _ hs
  | stop e d =>
    rw [bind_error hx, bind_error hy]
    exact .stop e d
  | @astray e b t' ho =>
    rw [bind_error hx, bind_ok hy]
    cases hz : g b t' with
    | error d => exact .stop e d
    | ok p => exact .astray e (hg b t' p.1 p.2 ho hz)

namespace Confined

variable {O : σ → Prop} {m : StateT σ (Except ε) α} {f : α → StateT σ (Except ε) β}

theorem pure (a : α) : Confined O (pure a : StateT σ (Except ε) α) := by
  intro s b s' ho h
  cases h
  exact ho

theorem throw (e : ε) : Confined O (throw e : StateT σ (Except ε) α) :=
  fun _ _ _ _ h => nomatch h

theorem bind (hm : Confined O m) (hf : ∀ a, Confined O (f a)) : Confined O (m >>= f) := by
  intro s b s' ho h
  obtain ⟨a, t, hfirst, hrest⟩ := Effects.bind_eq_ok h
  exact hf a t b s' (hm s a t ho hfirst) hrest

theorem get_bind {k : σ → StateT σ (Except ε) β} (hk : ∀ s, Confined O (k s)) :
    Confined O (get >>= k) := fun s => hk s s

theorem modify {p : σ → σ} (h : ∀ s, O s → O (p s)) :
    Confined O (modify p : StateT σ (Except ε) Unit) := by
  intro s b s' ho hs
  cases hs
  exact h s ho

theorem ite {c : Prop} [Decidable c] {m₁ m₂ : StateT σ (Except ε) α} (h₁ : Confined O m₁)
    (h₂ : Confined O m₂) : Confined O (if c then m₁ else m₂) := by
  split_ifs
  · exact h₁
  · exact h₂

theorem dite {c : Prop} [Decidable c] {m₁ : c → StateT σ (Except ε) α}
    {m₂ : ¬ c → StateT σ (Except ε) α} (h₁ : ∀ h, Confined O (m₁ h)) (h₂ : ∀ h, Confined O (m₂ h)) :
    Confined O (if h : c then m₁ h else m₂ h) := by
  split_ifs with h
  · exact h₁ h
  · exact h₂ h

end Confined

theorem Simulates.get : Simulates (ε := ε) (δ := δ) O S get get S S :=
  fun _ _ hst => .ok hst hst

theorem Simulates.modify {p : σ → σ} {q : τ → τ} (h : ∀ s t, S s t → S' (p s) (q t)) :
    Simulates (ε := ε) (δ := δ) O S (modify p) (modify q) (fun _ _ => True) S' :=
  fun s t hst => .ok trivial (h s t hst)

theorem Simulates.ite {b c : Bool} (hbc : b = c) {m₁ m₂ : StateT σ (Except ε) α}
    {n₁ n₂ : StateT τ (Except δ) β} (h₁ : b = true → Simulates O S m₁ n₁ R S')
    (h₂ : b = false → Simulates O S m₂ n₂ R S') :
    Simulates O S (if b then m₁ else m₂) (if c then n₁ else n₂) R S' := by
  subst hbc
  cases b with
  | true => exact h₁ rfl
  | false => exact h₂ rfl

/-- A machine with a step budget: it runs until it has halted; a machine still live when the
budget is spent is marked as a runaway. -/
structure Engine (σ ε : Type) where
  halted : σ → Bool
  step : StateT σ (Except ε) Unit
  runaway : σ → σ

namespace Engine

def run (E : Engine σ ε) : Nat → StateT σ (Except ε) Unit
  | 0 => fun s => .ok ((), if E.halted s then s else E.runaway s)
  | n + 1 => fun s => if E.halted s then .ok ((), s) else (E.step >>= fun _ => run E n) s

/-- Exactly `n` steps, none of them taken from a halted state. -/
inductive Path (E : Engine σ ε) : Nat → σ → σ → Prop
  | refl (s : σ) : Path E 0 s s
  | step {k : Nat} {s s' t : σ} : E.halted s = false → E.step s = .ok ((), s') →
      Path E k s' t → Path E (k + 1) s t

theorem Path.trans {E : Engine σ ε} {k l : Nat} {s t u : σ} (h : Path E k s t)
    (h' : Path E l t u) : Path E (k + l) s u := by
  induction h with
  | refl s => simpa using h'
  | @step k s s' t live hs _ ih =>
    rw [Nat.add_right_comm]
    exact .step live hs (ih h')

/-- What every step keeps, a path keeps. -/
theorem Path.confined {E : Engine σ ε} {I : σ → Prop} (hstep : Confined I E.step) {k : Nat}
    {s t : σ} (h : Path E k s t) (hs : I s) : I t := by
  induction h with
  | refl s => exact hs
  | step _ hnext _ ih => exact ih (hstep _ _ _ hs hnext)

theorem run_of_halted {E : Engine σ ε} {s : σ} (h : E.halted s = true) (n : Nat) :
    E.run n s = .ok ((), s) := by
  cases n <;> simp [run, h]

theorem run_path {E : Engine σ ε} {k : Nat} {s t : σ} (h : Path E k s t) (n : Nat) :
    E.run (k + n) s = E.run n t := by
  induction h with
  | refl s => rw [Nat.zero_add]
  | @step k s s' t live hs _ ih =>
    rw [Nat.add_right_comm, run]
    simp only [live, Bool.false_eq_true, if_false]
    rw [bind_ok hs, ih]

theorem run_path_error {E : Engine σ ε} {k : Nat} {s t : σ} (h : Path E k s t)
    (live : E.halted t = false) {e : ε} (hs : E.step t = .error e) :
    E.run (k + 1) s = .error e := by
  rw [run_path h, run]
  simp only [live, Bool.false_eq_true, if_false]
  exact bind_error hs

theorem run_path_runaway {E : Engine σ ε} {k : Nat} {s t : σ} (h : Path E k s t)
    (live : E.halted t = false) : E.run k s = .ok ((), E.runaway t) := by
  have hrun := run_path h 0
  rw [Nat.add_zero] at hrun
  rw [hrun]
  simp only [run, live, Bool.false_eq_true, if_false]

theorem run_eq_of_path {E : Engine σ ε} {k n : Nat} {s t : σ} (h : Path E k s t)
    (hk : k ≤ n) (ht : E.halted t = true) : E.run n s = .ok ((), t) := by
  obtain ⟨l, rfl⟩ := Nat.exists_eq_add_of_le hk
  rw [run_path h, run_of_halted ht]

theorem Path.split_last {E : Engine σ ε} {k : Nat} {s u : σ} (h : Path E (k + 1) s u) :
    ∃ t, Path E k s t ∧ E.halted t = false ∧ E.step t = .ok ((), u) := by
  generalize hl : k + 1 = l at h
  induction h generalizing k with
  | refl s => cases hl
  | @step j s s' t live hs htail ih =>
    cases Nat.succ.inj hl
    cases j with
    | zero =>
      cases htail
      exact ⟨s, .refl s, live, hs⟩
    | succ j =>
      obtain ⟨v, hv, hlive, hstep⟩ := ih rfl
      exact ⟨v, .step live hs hv, hlive, hstep⟩

theorem run_ok {E : Engine σ ε} {n : Nat} {s t : σ} (h : E.run n s = .ok ((), t)) :
    (∃ k, k ≤ n ∧ Path E k s t ∧ E.halted t = true) ∨
      ∃ u, Path E n s u ∧ E.halted u = false ∧ t = E.runaway u := by
  induction n generalizing s with
  | zero =>
    rw [run, Except.ok.injEq, Prod.mk.injEq] at h
    obtain ⟨-, rfl⟩ := h
    cases hs : E.halted s with
    | true =>
      rw [if_pos rfl]
      exact .inl ⟨0, Nat.le_refl 0, .refl s, hs⟩
    | false =>
      rw [if_neg Bool.false_ne_true]
      exact .inr ⟨s, .refl s, hs, rfl⟩
  | succ n ih =>
    cases hs : E.halted s with
    | true =>
      rw [run_of_halted hs, Except.ok.injEq, Prod.mk.injEq] at h
      obtain ⟨-, rfl⟩ := h
      exact .inl ⟨0, Nat.zero_le _, .refl s, hs⟩
    | false =>
      simp only [run, hs, Bool.false_eq_true, if_false] at h
      obtain ⟨_, s', hstep, hrest⟩ := Effects.bind_eq_ok h
      rcases ih hrest with ⟨k, hk, hpath, ht⟩ | ⟨u, hpath, hu, ht⟩
      · exact .inl ⟨k + 1, Nat.succ_le_succ hk, .step hs hstep hpath, ht⟩
      · exact .inr ⟨u, .step hs hstep hpath, hu, ht⟩

/-- Stepwise agreement lifts to paths: what the right engine can step through without going
astray, the left one steps through as well. -/
theorem path_agree (budget : Nat) {E : Engine σ ε} {F : Engine τ δ} {S : Nat → σ → τ → Prop}
    {O : τ → Prop} (halted : ∀ k s t, S k s t → E.halted s = F.halted t)
    (step : ∀ k s t, k < budget → S k s t → E.halted s = false →
      Agree O (fun _ _ => True) (S (k + 1)) (E.step s) (F.step t))
    (stuck : ∀ t, O t → F.halted t = false ∧ ∃ d, F.step t = .error d) {k l : Nat} {s : σ}
    {t t' : τ} (hk : k + l ≤ budget) (hst : S k s t) (hpath : Path F l t t') (ht : ¬ O t') :
    ∃ s', Path E l s s' ∧ S (k + l) s' t' := by
  induction hpath generalizing k s with
  | refl t => exact ⟨s, .refl s, hst⟩
  | @step l t t₁ t' live hs htail ih =>
    have hE : E.halted s = false := (halted k s t hst).trans live
    have hnext := step k s t (by omega) hst hE
    rw [hs] at hnext
    generalize hx : E.step s = x at hnext
    cases hnext with
    | @ok _ _ s₁ _ _ hst₁ =>
      obtain ⟨s', hpath', hst'⟩ := ih (k := k + 1) (by omega) hst₁ ht
      refine ⟨s', .step hE hx hpath', ?_⟩
      rwa [Nat.add_right_comm, Nat.add_assoc] at hst'
    | astray e ho =>
      obtain ⟨-, d, hd⟩ := stuck t₁ ho
      cases htail with
      | refl _ => exact absurd ho ht
      | step _ hs₁ _ =>
        rw [hd] at hs₁
        cases hs₁

/-- Stepwise agreement lifts to runs. The relation is indexed by the number of steps taken, so
that it may carry bounds that grow with the run; an astray state is live and has no step, hence
survives only as a runaway. -/
theorem run_agree (budget : Nat) {E : Engine σ ε} {F : Engine τ δ} {S : Nat → σ → τ → Prop}
    {O : τ → Prop} (halted : ∀ k s t, S k s t → E.halted s = F.halted t)
    (step : ∀ k s t, k < budget → S k s t → E.halted s = false →
      Agree O (fun _ _ => True) (S (k + 1)) (E.step s) (F.step t))
    (stuck : ∀ t, O t → F.halted t = false ∧ ∃ d, F.step t = .error d)
    (runaway : ∀ k s t, S k s t → S k (E.runaway s) (F.runaway t)) (n k : Nat) (s : σ) (t : τ)
    (hk : k + n ≤ budget) (hst : S k s t) :
    Agree (fun t' => ∃ u, O u ∧ t' = F.runaway u) (fun _ _ => True)
      (fun s' t' => ∃ l, l ≤ k + n ∧ S l s' t') (E.run n s) (F.run n t) := by
  induction n generalizing k s t with
  | zero =>
    have hh := halted k s t hst
    cases hs : E.halted s with
    | true => simpa [run, hs, ← hh] using Agree.ok trivial ⟨k, Nat.le_refl _, hst⟩
    | false => simpa [run, hs, ← hh] using Agree.ok trivial ⟨k, Nat.le_refl _, runaway k s t hst⟩
  | succ n ih =>
    have hh := halted k s t hst
    cases hs : E.halted s with
    | true =>
      rw [run_of_halted hs, run_of_halted (hh ▸ hs)]
      exact .ok trivial ⟨k, by omega, hst⟩
    | false =>
      have hstep := step k s t (by omega) hst hs
      rw [run, run]
      simp only [hs, hh ▸ hs, Bool.false_eq_true, if_false]
      generalize hx : E.step s = x at hstep
      generalize hy : F.step t = y at hstep
      cases hstep with
      | ok _ hnext =>
        rw [bind_ok hx, bind_ok hy]
        refine (ih (k + 1) _ _ (by omega) hnext).mono (fun _ ho => ho) (fun _ _ hr => hr) ?_
        rintro s' t' ⟨l, hl, hr⟩
        exact ⟨l, by omega, hr⟩
      | stop e d =>
        rw [bind_error hx, bind_error hy]
        exact .stop e d
      | @astray e b u ho =>
        obtain ⟨live, d, hd⟩ := stuck u ho
        rw [bind_error hx, bind_ok hy]
        cases n with
        | zero => simpa [run, live] using Agree.astray e ⟨u, ho, rfl⟩
        | succ n =>
          simp only [run, live, Bool.false_eq_true, if_false, bind_error hd]
          exact .stop e d

end Engine

end Lockstep
