/- Module: RankGate/Foundation/Layout
   layer: foundation
   digest: Pieces of different lengths laid end to end: where each of them starts, and what stands there. -/

import Mathlib.Data.List.Basic
import Mathlib.Tactic.Common

set_option autoImplicit false
set_option relaxedAutoImplicit false

namespace Layout

variable {ι β : Type} (encode : ι → List β)

def place : List ι → Nat → List (Nat × ι)
  | [], _ => []
  | i :: l, off => (off, i) :: place l (off + (encode i).length)

/-- The start of a piece, or the end of the last one. -/
def Boundary (l : List ι) (off a : Nat) : Prop :=
  a = off + (l.flatMap encode).length ∨ ∃ i, (a, i) ∈ place encode l off

variable {encode} {l : List ι} {i : ι} {off a : Nat}

theorem map_snd_place : (place encode l off).map Prod.snd = l := by
  induction l generalizing off with
  | nil => rfl
  | cons i l ih => rw [place, List.map_cons, ih]

theorem mem_of_mem_place (h : (a, i) ∈ place encode l off) : i ∈ l := by
  have hmap := List.mem_map_of_mem (f := Prod.snd) h
  rwa [map_snd_place] at hmap

theorem boundary_start (l : List ι) (off : Nat) : Boundary encode l off off := by
  cases l with
  | nil => exact .inl rfl
  | cons i l => exact .inr ⟨i, List.mem_cons_self⟩

theorem Boundary.cons (h : Boundary encode l (off + (encode i).length) a) :
    Boundary encode (i :: l) off a := by
  rcases h with rfl | ⟨j, hj⟩
  · refine .inl ?_
    rw [List.flatMap_cons, List.length_append, Nat.add_assoc]
  · exact .inr ⟨j, List.mem_cons_of_mem _ hj⟩

/-- A piece stands at its offset, and ends at a boundary. -/
theorem mem_place (h : (a, i) ∈ place encode l off) :
    (∃ pre post, l.flatMap encode = pre ++ encode i ++ post ∧ off + pre.length = a) ∧
      Boundary encode l off (a + (encode i).length) := by
  induction l generalizing off with
  | nil => cases h
  | cons j l ih =>
    rcases List.mem_cons.mp h with heq | htail
    · cases heq
      refine ⟨⟨[], l.flatMap encode, rfl, rfl⟩, ?_⟩
      exact (boundary_start l _).cons
    · obtain ⟨⟨pre, post, hsplit, hlen⟩, hend⟩ := ih htail
      refine ⟨⟨encode j ++ pre, post, ?_, ?_⟩, hend.cons⟩
      · rw [List.flatMap_cons, hsplit]
        simp only [List.append_assoc]
      · rw [List.length_append, ← hlen, Nat.add_assoc]

end Layout
