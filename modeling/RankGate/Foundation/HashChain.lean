/- Module: RankGate/Foundation/HashChain
   layer: foundation
   digest: A rolling hash commits to its whole history, up to an explicit collision. -/

import Mathlib.Data.List.Induction
import Mathlib.Tactic.Common

set_option autoImplicit false
set_option relaxedAutoImplicit false

namespace HashChain

variable {χ δ β : Type}

/-- A rolling hash: a seed, and a way to put the next item behind the current digest. -/
structure Chain (χ δ β : Type) where
  hash : χ → δ
  seed : χ
  join : δ → β → χ

/-- Some input of the first list and some other input of the second have one image. -/
def Collides (f : χ → δ) (xs ys : List χ) : Prop :=
  ∃ x ∈ xs, ∃ y ∈ ys, x ≠ y ∧ f x = f y

theorem Collides.mono {f : χ → δ} {xs xs' ys ys' : List χ} (h : Collides f xs ys)
    (hx : ∀ x ∈ xs, x ∈ xs') (hy : ∀ y ∈ ys, y ∈ ys') : Collides f xs' ys' := by
  obtain ⟨x, hxm, y, hym, hne, he⟩ := h
  exact ⟨x, hx x hxm, y, hy y hym, hne, he⟩

namespace Chain

variable (C : Chain χ δ β)

/-- Inputs formed from actual digests are told apart, and none of them is the seed. -/
structure Separated : Prop where
  split : ∀ x y b c, C.join (C.hash x) b = C.join (C.hash y) c → C.hash x = C.hash y ∧ b = c
  seed_ne : ∀ x b, C.seed ≠ C.join (C.hash x) b

def absorb (d : δ) (b : β) : δ := C.hash (C.join d b)

def state (l : List β) : δ := l.foldl C.absorb (C.hash C.seed)

def inputsFrom : δ → List β → List χ
  | _, [] => []
  | d, b :: l => C.join d b :: inputsFrom (C.absorb d b) l

/-- Everything hashed on the way through a history, the seed first. -/
def inputs (l : List β) : List χ := C.seed :: C.inputsFrom (C.hash C.seed) l

@[simp] theorem state_nil : C.state [] = C.hash C.seed := rfl

theorem state_append (l m : List β) : C.state (l ++ m) = m.foldl C.absorb (C.state l) :=
  List.foldl_append

theorem state_concat (l : List β) (b : β) : C.state (l ++ [b]) = C.absorb (C.state l) b :=
  C.state_append l [b]

theorem exists_hash (l : List β) : ∃ x, C.state l = C.hash x := by
  induction l using List.reverseRecOn with
  | nil => exact ⟨C.seed, rfl⟩
  | append_singleton l b _ => exact ⟨C.join (C.state l) b, C.state_concat l b⟩

private theorem inputsFrom_concat (d : δ) (l : List β) (b : β) :
    C.inputsFrom d (l ++ [b]) = C.inputsFrom d l ++ [C.join (l.foldl C.absorb d) b] := by
  induction l generalizing d with
  | nil => rfl
  | cons c l ih => simp only [List.cons_append, inputsFrom, List.foldl_cons, ih]

theorem inputs_concat (l : List β) (b : β) :
    C.inputs (l ++ [b]) = C.inputs l ++ [C.join (C.state l) b] := by
  rw [inputs, inputsFrom_concat]
  rfl

theorem seed_mem_inputs (l : List β) : C.seed ∈ C.inputs l := List.mem_cons_self

theorem last_mem_inputs (l : List β) (b : β) : C.join (C.state l) b ∈ C.inputs (l ++ [b]) := by
  rw [inputs_concat]
  exact List.mem_append_right _ (List.mem_singleton.mpr rfl)

theorem inputs_subset (l : List β) (b : β) (x : χ) (h : x ∈ C.inputs l) :
    x ∈ C.inputs (l ++ [b]) := by
  rw [inputs_concat]
  exact List.mem_append_left _ h

variable {C}

/-- Equal digests mean equal histories, or two different inputs among those actually hashed. The
two histories are peeled from the right, in lockstep. -/
theorem Separated.binding (hs : C.Separated) (l m : List β) (h : C.state l = C.state m) :
    l = m ∨ Collides C.hash (C.inputs l) (C.inputs m) := by
  induction l using List.reverseRecOn generalizing m with
  | nil =>
    induction m using List.reverseRecOn with
    | nil => exact .inl rfl
    | append_singleton m c _ =>
      obtain ⟨y, hy⟩ := C.exists_hash m
      refine .inr ⟨C.seed, C.seed_mem_inputs [], _, C.last_mem_inputs m c, ?_, ?_⟩
      · rw [hy]
        exact hs.seed_ne y c
      · rw [← absorb, ← C.state_concat, ← h, C.state_nil]
  | append_singleton l b ih =>
    obtain ⟨x, hx⟩ := C.exists_hash l
    induction m using List.reverseRecOn with
    | nil =>
      refine .inr ⟨_, C.last_mem_inputs l b, C.seed, C.seed_mem_inputs [], ?_, ?_⟩
      · rw [hx]
        exact (hs.seed_ne x b).symm
      · rw [← absorb, ← C.state_concat, h, C.state_nil]
    | append_singleton m c _ =>
      obtain ⟨y, hy⟩ := C.exists_hash m
      by_cases hjoin : C.join (C.state l) b = C.join (C.state m) c
      · have hsplit := hjoin
        rw [hx, hy] at hsplit
        obtain ⟨hd, rfl⟩ := hs.split x y b c hsplit
        rcases ih m (hx.trans (hd.trans hy.symm)) with rfl | hcol
        · exact .inl rfl
        · exact .inr (hcol.mono (C.inputs_subset l b) (C.inputs_subset m b))
      · refine .inr ⟨_, C.last_mem_inputs l b, _, C.last_mem_inputs m c, hjoin, ?_⟩
        rw [← absorb, ← absorb, ← C.state_concat, ← C.state_concat, h]

end Chain

end HashChain
