/- Module: RankGate/Foundation/Tiling
   layer: foundation
   digest: Segments laid one behind the other over a range: where they lie, and that they never meet. -/

import Mathlib.Data.List.Perm.Basic
import Mathlib.Tactic.Common

set_option autoImplicit false
set_option relaxedAutoImplicit false

namespace Tiling

variable {ι α : Type} {off len : ι → Nat}

/-- The segments cover the range from `a` to `b` without a gap, none of them empty. -/
def Tiles (off len : ι → Nat) : Nat → List ι → Nat → Prop
  | a, [], b => a = b
  | a, i :: l, b => off i = a ∧ 0 < len i ∧ Tiles off len (a + len i) l b

def Apart (off len : ι → Nat) (i j : ι) : Prop := off i + len i ≤ off j ∨ off j + len j ≤ off i

theorem Tiles.append {a b c : Nat} {l l' : List ι} (h : Tiles off len a l b)
    (h' : Tiles off len b l' c) : Tiles off len a (l ++ l') c := by
  induction l generalizing a with
  | nil =>
    cases h
    exact h'
  | cons i l ih =>
    obtain ⟨hoff, hlen, hrest⟩ := h
    exact ⟨hoff, hlen, ih hrest⟩

theorem Tiles.le {a b : Nat} {l : List ι} (h : Tiles off len a l b) : a ≤ b := by
  induction l generalizing a with
  | nil => exact Nat.le_of_eq h
  | cons i l ih =>
    obtain ⟨-, -, hrest⟩ := h
    exact Nat.le_trans (Nat.le_add_right a _) (ih hrest)

theorem Tiles.mem {a b : Nat} {l : List ι} (h : Tiles off len a l b) :
    ∀ i ∈ l, a ≤ off i ∧ 0 < len i ∧ off i + len i ≤ b := by
  induction l generalizing a with
  | nil =>
    intro i hi
    cases hi
  | cons j l ih =>
    obtain ⟨hoff, hlen, hrest⟩ := h
    refine List.forall_mem_cons.mpr
      ⟨⟨Nat.le_of_eq hoff.symm, hlen, hoff ▸ hrest.le⟩, fun i hi => ?_⟩
    obtain ⟨hle, hpos, hend⟩ := ih hrest i hi
    exact ⟨by omega, hpos, hend⟩

theorem Tiles.pairwise {a b : Nat} {l : List ι} (h : Tiles off len a l b) :
    l.Pairwise (Apart off len) := by
  induction l generalizing a with
  | nil => exact .nil
  | cons i l ih =>
    obtain ⟨hoff, -, hrest⟩ := h
    refine .cons (fun j hj => .inl ?_) (ih hrest)
    exact hoff ▸ (hrest.mem j hj).1

theorem pairwise_of_perm {l l' : List ι} (h : l.Perm l') (hl : l.Pairwise (Apart off len)) :
    l'.Pairwise (Apart off len) :=
  h.pairwise hl fun h => h.symm

theorem Tiles.disjoint {a b c : Nat} {l l' : List ι} (h : Tiles off len a l b)
    (h' : Tiles off len b l' c) {i : ι} (hi : i ∈ l) : i ∉ l' := by
  intro hi'
  have hfirst := h.mem i hi
  have hsecond := h'.mem i hi'
  omega

theorem slice_of_prefix {l l' : List α} (h : l <+: l') {a n : Nat} (hle : a + n ≤ l.length) :
    (l'.drop a).take n = (l.drop a).take n := by
  obtain ⟨rest, rfl⟩ := h
  rw [List.drop_append_of_le_length (by omega),
    List.take_append_of_le_length (by rw [List.length_drop]; omega)]

end Tiling
