/- Module: RankGate/Foundation/Interleaving
   layer: foundation
   digest: Where every owner has its own part of the state, the order of different owners does not matter. -/

import RankGate.Foundation.Runs

set_option autoImplicit false
set_option relaxedAutoImplicit false

namespace Interleaving

variable {ι α σ τ ρ ω : Type} [DecidableEq ι]

def proj (i : ι) : List (ι × α) → List α
  | [] => []
  | (j, a) :: l => if j = i then a :: proj i l else proj i l

@[simp] theorem proj_nil (i : ι) : proj i ([] : List (ι × α)) = [] := rfl

theorem proj_cons_self (i : ι) (a : α) (l : List (ι × α)) :
    proj i ((i, a) :: l) = a :: proj i l := if_pos rfl

theorem proj_cons_ne {i j : ι} (h : j ≠ i) (a : α) (l : List (ι × α)) :
    proj i ((j, a) :: l) = proj i l := if_neg h

theorem mem_proj {i : ι} {a : α} {l : List (ι × α)} : a ∈ proj i l ↔ (i, a) ∈ l := by
  induction l with
  | nil => exact ⟨fun h => absurd h List.not_mem_nil, fun h => absurd h List.not_mem_nil⟩
  | cons p l ih =>
    obtain ⟨j, b⟩ := p
    by_cases hj : j = i
    · subst hj
      rw [proj_cons_self, List.mem_cons, List.mem_cons, ih, Prod.mk.injEq, eq_self, true_and]
    · rw [proj_cons_ne hj, ih, List.mem_cons, Prod.mk.injEq]
      exact ⟨.inr, fun h => h.resolve_left fun heq => hj heq.1.symm⟩

def Interleaves (seqs : ι → List α) (l : List (ι × α)) : Prop := ∀ i, proj i l = seqs i

section System

variable (step : σ → ρ → ω × σ)

def outcomes : σ → List (ι × ρ) → List (ι × ω)
  | _, [] => []
  | s, (i, r) :: l => (i, (step s r).1) :: outcomes (step s r).2 l

def after (s : σ) (l : List (ι × ρ)) : σ := Runs.final step s (l.map Prod.snd)

/-- A request of one owner is answered from that owner's part of the state, and leaves the
others' alone; `own` is the owner's part as a system of its own. -/
structure Separate (view : ι → σ → τ) (own : ι → τ → ρ → ω × τ) (Ok : σ → Prop)
    (May : ι → ρ → Prop) : Prop where
  preserve : ∀ {s i r}, Ok s → May i r → Ok (step s r).2
  answer : ∀ {s i r}, Ok s → May i r → own i (view i s) r = ((step s r).1, view i (step s r).2)
  frame : ∀ {s i r j}, Ok s → May i r → j ≠ i → view j (step s r).2 = view j s

variable {step} {view : ι → σ → τ} {own : ι → τ → ρ → ω × τ} {Ok : σ → Prop} {May : ι → ρ → Prop}

/-- Every owner sees its own run, whatever the others did in between. -/
theorem proj_outcomes (h : Separate step view own Ok May) {s : σ} (hs : Ok s)
    {l : List (ι × ρ)} (hmay : ∀ p ∈ l, May p.1 p.2) (i : ι) :
    proj i (outcomes step s l) =
        (Runs.trace (own i) (view i s) (proj i l)).map Runs.Event.outcome ∧
      view i (after step s l) = Runs.final (own i) (view i s) (proj i l) := by
  induction l generalizing s with
  | nil => exact ⟨rfl, rfl⟩
  | cons p l ih =>
    obtain ⟨j, r⟩ := p
    have hr : May j r := hmay (j, r) List.mem_cons_self
    obtain ⟨houts, hview⟩ := ih (h.preserve hs hr) fun q hq => hmay q (List.mem_cons_of_mem _ hq)
    have hafter : after step s ((j, r) :: l) = after step (step s r).2 l := rfl
    rw [outcomes, hafter, hview]
    by_cases hj : j = i
    · subst hj
      have hown := h.answer hs hr
      rw [proj_cons_self, proj_cons_self, houts, Runs.trace, List.map_cons, Runs.event, hown]
      refine ⟨rfl, ?_⟩
      rw [Runs.final, Runs.final, List.foldl_cons, hown]
    · rw [proj_cons_ne hj, proj_cons_ne hj, houts, h.frame hs hr (Ne.symm hj)]
      exact ⟨rfl, rfl⟩

/-- Two orders of the same sequences answer everybody alike and leave everybody's part alike. -/
theorem independent (h : Separate step view own Ok May) {s : σ} (hs : Ok s)
    {seqs : ι → List ρ} (hmay : ∀ i, ∀ r ∈ seqs i, May i r) {l l' : List (ι × ρ)}
    (hl : Interleaves seqs l) (hl' : Interleaves seqs l') (i : ι) :
    proj i (outcomes step s l) = proj i (outcomes step s l') ∧
      view i (after step s l) = view i (after step s l') := by
  have hallowed : ∀ {k : List (ι × ρ)}, Interleaves seqs k → ∀ p ∈ k, May p.1 p.2 :=
    fun hk p hp => hmay p.1 p.2 (hk p.1 ▸ mem_proj.mpr hp)
  obtain ⟨houts, hview⟩ := proj_outcomes h hs (hallowed hl) i
  obtain ⟨houts', hview'⟩ := proj_outcomes h hs (hallowed hl') i
  rw [houts, hview, houts', hview', hl i, hl' i]
  exact ⟨rfl, rfl⟩

end System

end Interleaving
