/- Module: RankGate/Foundation/Records
   layer: foundation
   digest: Records of consecutive fields without delimiters: cutting one at known widths. -/

import Mathlib.Algebra.GroupWithZero.Nat
import Mathlib.Data.List.TakeDrop

set_option autoImplicit false
set_option relaxedAutoImplicit false

namespace Records

variable {α : Type}

/-- The consecutive pieces of the given widths; what is left over is dropped. -/
def cut : List Nat → List α → List (List α)
  | [], _ => []
  | w :: ws, l => l.take w :: cut ws (l.drop w)

theorem cut_append (ls : List (List α)) (rest : List α) :
    cut (ls.map List.length) (ls.flatten ++ rest) = ls := by
  induction ls with
  | nil => rfl
  | cons l ls ih =>
    rw [List.map_cons, List.flatten_cons, List.append_assoc, cut, List.take_left, List.drop_left,
      ih]

theorem cut_flatten (ls : List (List α)) : cut (ls.map List.length) ls.flatten = ls := by
  have h := cut_append ls []
  rwa [List.append_nil] at h

theorem flatten_cut {ws : List Nat} {l : List α} : (cut ws l).flatten = l.take ws.sum := by
  induction ws generalizing l with
  | nil => rfl
  | cons w ws ih => rw [cut, List.flatten_cons, ih, List.sum_cons, List.take_add]

/-- The widths say where a record ends: one that has more gives it back without the rest. -/
theorem flatten_cut_eq_iff {ws : List Nat} {l : List α} (h : ws.sum ≤ l.length) :
    (cut ws l).flatten = l ↔ l.length = ws.sum := by
  rw [flatten_cut, List.take_eq_self_iff]
  omega

theorem map_length_cut {ws : List Nat} {l : List α} (h : ws.sum ≤ l.length) :
    (cut ws l).map List.length = ws := by
  induction ws generalizing l with
  | nil => rfl
  | cons w ws ih =>
    rw [List.sum_cons] at h
    rw [cut, List.map_cons, List.length_take, ih (by rw [List.length_drop]; omega),
      Nat.min_eq_left (by omega)]

end Records
