/- Module: RankGate/Foundation/Shuffle
   layer: foundation
   digest: Swap-driven shuffles are permutations, and a table filled through one is read back exactly. -/

import Mathlib.Data.List.FinRange
import Mathlib.Data.Fintype.Basic
import Mathlib.Data.List.Nodup
import Mathlib.Tactic.Common

set_option autoImplicit false
set_option relaxedAutoImplicit false

namespace Shuffle

variable {α ι : Type} {n : Nat}

def swapAll (i j : ι → Nat) (ks : List ι) (v : Vector α n) : Vector α n :=
  ks.foldl (fun v k => v.swapIfInBounds (i k) (j k)) v

theorem swapIfInBounds_eq (v : Vector α n) (i j : Nat) :
    v.swapIfInBounds i j = if h : i < n ∧ j < n then v.swap i j h.1 h.2 else v := by
  apply Vector.toArray_inj.mp
  rw [Vector.toArray_swapIfInBounds, Array.swapIfInBounds_def]
  by_cases hi : i < n <;> by_cases hj : j < n <;> simp [hi, hj]

theorem swapIfInBounds_perm (v : Vector α n) (i j : Nat) :
    (v.swapIfInBounds i j).toList.Perm v.toList := by
  rw [swapIfInBounds_eq]
  split_ifs with hb
  · exact (Vector.swap_perm hb.1 hb.2).toList
  · exact List.Perm.refl _

theorem swapAll_perm (i j : ι → Nat) (ks : List ι) (v : Vector α n) :
    (swapAll i j ks v).toList.Perm v.toList := by
  induction ks generalizing v with
  | nil => exact List.Perm.refl _
  | cons k ks ih => exact (ih (v.swapIfInBounds (i k) (j k))).trans (swapIfInBounds_perm v _ _)

theorem injective_of_nodup {v : Vector α n} (h : v.toList.Nodup) :
    Function.Injective fun x : Fin n => v[x] := by
  intro x y hxy
  have hlen : v.toList.length = n := Vector.length_toList
  have hx : x.val < v.toList.length := by omega
  have hy : y.val < v.toList.length := by omega
  have hget : v.toList[x.val] = v.toList[y.val] := by simpa using hxy
  exact Fin.ext ((List.Nodup.getElem_inj_iff h).mp hget)

theorem map_swapAll {β : Type} (f : α → β) (d : β) (i j : ι → Nat) {ks : List ι}
    (h : ∀ k ∈ ks, i k < n ∧ j k < n) (v : Vector α n) :
    (swapAll i j ks v).toList.map f =
      ks.foldl (fun l k => (l.set (i k) (l.getD (j k) d)).set (j k) (l.getD (i k) d))
        (v.toList.map f) := by
  induction ks generalizing v with
  | nil => rfl
  | cons k ks ih =>
    obtain ⟨hi, hj⟩ := h k List.mem_cons_self
    have hstep : (v.swapIfInBounds (i k) (j k)).toList.map f =
        ((v.toList.map f).set (i k) ((v.toList.map f).getD (j k) d)).set (j k)
          ((v.toList.map f).getD (i k) d) := by
      rw [swapIfInBounds_eq, dif_pos ⟨hi, hj⟩, Vector.toList_swap hi hj, List.map_set, List.map_set]
      simp [List.getD, hi, hj]
    rw [swapAll, List.foldl_cons, List.foldl_cons, ← hstep]
    exact ih (fun k' hk' => h k' (List.mem_cons_of_mem k hk')) _

theorem swapAll_finRange_perm (i j : ι → Nat) (ks : List ι) :
    (swapAll i j ks (Vector.finRange n)).toList.Perm (List.finRange n) := by
  refine (swapAll_perm i j ks _).trans ?_
  rw [Vector.finRange, Vector.toList_ofFn]
  exact List.Perm.of_eq (List.ofFn_id n)

theorem swapAll_finRange_injective (i j : ι → Nat) (ks : List ι) :
    Function.Injective fun x : Fin n => (swapAll i j ks (Vector.finRange n))[x] := by
  exact injective_of_nodup ((swapAll_finRange_perm i j ks).nodup_iff.mpr (List.nodup_finRange n))

/-- A table with one row per slot; slots are assigned through `place`, later assignments win. -/
def fillTable (place : Fin n → Fin n) (init : α) (sets : List (Fin n × α)) : Vector α n :=
  sets.foldl (fun t p => t.set (place p.1) p.2) (Vector.replicate n init)

def lastSet (init : α) (sets : List (Fin n × α)) (x : Fin n) : α :=
  sets.foldl (fun v p => if p.1 = x then p.2 else v) init

theorem lastSet_of_not_mem (init : α) {sets : List (Fin n × α)} {x : Fin n}
    (h : x ∉ sets.map Prod.fst) : lastSet init sets x = init := by
  induction sets with
  | nil => rfl
  | cons p sets ih =>
    rw [List.map_cons, List.mem_cons, not_or] at h
    rw [lastSet, List.foldl_cons, if_neg (Ne.symm h.1)]
    exact ih h.2

private theorem foldl_set_get {place : Fin n → Fin n} (hp : Function.Injective place)
    (sets : List (Fin n × α)) (t : Vector α n) (x : Fin n) :
    (sets.foldl (fun t p => t.set (place p.1) p.2) t)[place x] =
      sets.foldl (fun v p => if p.1 = x then p.2 else v) t[place x] := by
  induction sets generalizing t with
  | nil => rfl
  | cons p sets ih =>
    rw [List.foldl_cons, ih, List.foldl_cons]
    congr 1
    by_cases h : p.1 = x
    · simp [h]
    · have hne : (place p.1).val ≠ (place x).val := fun he => h (hp (Fin.ext he))
      simp [h, hne]

/-- Reading a filled table through an injective placement gives each slot's own assignment:
no later assignment lands in another slot. -/
theorem fillTable_get {place : Fin n → Fin n} (hp : Function.Injective place) (init : α)
    (sets : List (Fin n × α)) (x : Fin n) :
    (fillTable place init sets)[place x] = lastSet init sets x := by
  rw [fillTable, foldl_set_get hp, lastSet]
  simp

/-- `inv = [0] * n; for new, old in enumerate(order): inv[old] = new`. -/
def inverse (order : List Nat) : List Nat :=
  order.zipIdx.foldl (fun inv p => inv.set p.1 p.2) (List.replicate order.length 0)

theorem getElem?_foldl_set_of_notMem {sets : List (Nat × α)} {l : List α} {k : Nat}
    (h : k ∉ sets.map Prod.fst) : (sets.foldl (fun l p => l.set p.1 p.2) l)[k]? = l[k]? := by
  induction sets generalizing l with
  | nil => rfl
  | cons p sets ih =>
    rw [List.map_cons, List.mem_cons, not_or] at h
    rw [List.foldl_cons, ih h.2, List.getElem?_set_ne (Ne.symm h.1)]

theorem getElem?_foldl_set {sets : List (Nat × α)} (hnodup : (sets.map Prod.fst).Nodup)
    {l : List α} {k : Nat} {v : α} (hmem : (k, v) ∈ sets) (hk : k < l.length) :
    (sets.foldl (fun l p => l.set p.1 p.2) l)[k]? = some v := by
  induction sets generalizing l with
  | nil => cases hmem
  | cons p sets ih =>
    obtain ⟨hfresh, hrest⟩ := List.nodup_cons.mp hnodup
    rw [List.foldl_cons]
    rcases List.mem_cons.mp hmem with rfl | htail
    · rw [getElem?_foldl_set_of_notMem hfresh, List.getElem?_set_self hk]
    · exact ih hrest htail (by rw [List.length_set]; exact hk)

/-- The inverse of a permutation says where an old row has gone. -/
theorem getElem?_inverse {order : List Nat} (hperm : order.Perm (List.range order.length))
    {new old : Nat} (h : order[new]? = some old) : (inverse order)[old]? = some new := by
  have hnodup : (order.zipIdx.map Prod.fst).Nodup := by
    rw [List.zipIdx_map_fst]
    exact hperm.nodup_iff.mpr List.nodup_range
  refine getElem?_foldl_set hnodup ?_ ?_
  · exact List.mem_zipIdx_iff_getElem?.mpr h
  · rw [List.length_replicate]
    exact List.mem_range.mp (hperm.mem_iff.mp (List.mem_of_getElem? h))

theorem exists_inverse {order : List Nat} (hperm : order.Perm (List.range order.length))
    {old : Nat} (h : old < order.length) :
    ∃ new, (inverse order)[old]? = some new ∧ order[new]? = some old := by
  obtain ⟨new, hnew⟩ := List.mem_iff_getElem?.mp (hperm.mem_iff.mpr (List.mem_range.mpr h))
  exact ⟨new, getElem?_inverse hperm hnew, hnew⟩

end Shuffle
