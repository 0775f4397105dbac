/- Module: RankGate/Foundation/Runs
   layer: foundation
   digest: Runs of a system that answers requests: traces, invariants, and the events since a reset. -/

import Mathlib.Data.List.Induction
import Mathlib.Tactic.Common

set_option autoImplicit false
set_option relaxedAutoImplicit false

namespace Runs

/-- One request with the state it met, its outcome, and the state it left. -/
structure Event (σ ρ ω : Type) where
  before : σ
  request : ρ
  outcome : ω
  after : σ

section System

variable {σ ρ ω : Type} (step : σ → ρ → ω × σ)

def event (s : σ) (r : ρ) : Event σ ρ ω := ⟨s, r, (step s r).1, (step s r).2⟩

def final (s : σ) (rs : List ρ) : σ := rs.foldl (fun s r => (step s r).2) s

def trace : σ → List ρ → List (Event σ ρ ω)
  | _, [] => []
  | s, r :: rs => event step s r :: trace (step s r).2 rs

@[simp] theorem final_nil (s : σ) : final step s [] = s := rfl

theorem final_append (s : σ) (rs ts : List ρ) :
    final step s (rs ++ ts) = final step (final step s rs) ts := List.foldl_append

theorem final_concat (s : σ) (rs : List ρ) (r : ρ) :
    final step s (rs ++ [r]) = (step (final step s rs) r).2 := final_append step s rs [r]

theorem trace_append (s : σ) (rs ts : List ρ) :
    trace step s (rs ++ ts) = trace step s rs ++ trace step (final step s rs) ts := by
  induction rs generalizing s with
  | nil => rfl
  | cons r rs ih =>
    rw [List.cons_append, trace, ih, trace, List.cons_append]
    rfl

theorem trace_concat (s : σ) (rs : List ρ) (r : ρ) :
    trace step s (rs ++ [r]) = trace step s rs ++ [event step (final step s rs) r] :=
  trace_append step s rs [r]

theorem trace_split {s : σ} {rs : List ρ} {pre post : List (Event σ ρ ω)} {e : Event σ ρ ω}
    (h : trace step s rs = pre ++ e :: post) :
    ∃ rs₁ r rs₂, rs = rs₁ ++ r :: rs₂ ∧ pre = trace step s rs₁ ∧
      e = event step (final step s rs₁) r ∧
      post = trace step (step (final step s rs₁) r).2 rs₂ := by
  induction pre generalizing s rs with
  | nil =>
    cases rs with
    | nil => cases h
    | cons r rs =>
      cases h
      exact ⟨[], r, rs, rfl, rfl, rfl, rfl⟩
  | cons a pre ih =>
    cases rs with
    | nil => cases h
    | cons r rs =>
      rw [trace, List.cons_append, List.cons.injEq] at h
      obtain ⟨ha, htail⟩ := h
      obtain ⟨rs₁, q, rs₂, rfl, hpre, he, hpost⟩ := ih htail
      refine ⟨r :: rs₁, q, rs₂, rfl, ?_, he, hpost⟩
      rw [trace, ← ha, hpre]

/-- What one step preserves, a whole run preserves. -/
theorem final_invariant (I : σ → Prop) {s : σ} (h₀ : I s)
    (hstep : ∀ s r, I s → I (step s r).2) (rs : List ρ) : I (final step s rs) := by
  induction rs generalizing s with
  | nil => exact h₀
  | cons r rs ih => exact ih (hstep s r h₀)

end System

section Two

variable {σ ρ ω ω' : Type} {f : σ → ρ → ω × σ} {g : σ → ρ → ω' × σ} {Q : ρ → ω → ω' → Prop}

end Two

section Reset

variable {α : Type} (resets : α → Bool)

/-- The events since the latest reset, that one included. -/
def sinceReset (tr : List α) : List α :=
  tr.foldl (fun segment e => if resets e then [e] else segment ++ [e]) []

theorem sinceReset_concat (tr : List α) (e : α) :
    sinceReset resets (tr ++ [e]) =
      if resets e then [e] else sinceReset resets tr ++ [e] := by
  rw [sinceReset, List.foldl_append]
  rfl

theorem exists_sinceReset (tr : List α) : ∃ pre, tr = pre ++ sinceReset resets tr := by
  induction tr using List.reverseRecOn with
  | nil => exact ⟨[], rfl⟩
  | append_singleton tr e ih =>
    rw [sinceReset_concat]
    split_ifs with h
    · exact ⟨tr, rfl⟩
    · obtain ⟨pre, hpre⟩ := ih
      exact ⟨pre, by rw [← List.append_assoc, ← hpre]⟩

theorem sinceReset_append {tr post : List α} (h : ∀ e ∈ post, resets e = false) :
    sinceReset resets (tr ++ post) = sinceReset resets tr ++ post := by
  induction post using List.reverseRecOn with
  | nil => rw [List.append_nil, List.append_nil]
  | append_singleton post e ih =>
    have he := h e (List.mem_append_right _ (List.mem_singleton.mpr rfl))
    rw [← List.append_assoc, sinceReset_concat, he, if_neg Bool.false_ne_true,
      ih fun a ha => h a (List.mem_append_left _ ha), List.append_assoc]

theorem mem_sinceReset {tr post : List α} {e : α} (h : ∀ a ∈ post, resets a = false) :
    e ∈ sinceReset resets (tr ++ e :: post) := by
  have hsplit : tr ++ e :: post = (tr ++ [e]) ++ post := by simp
  rw [hsplit, sinceReset_append resets h, sinceReset_concat]
  refine List.mem_append_left _ ?_
  split_ifs
  · exact List.mem_singleton.mpr rfl
  · exact List.mem_append_right _ (List.mem_singleton.mpr rfl)

end Reset

end Runs
