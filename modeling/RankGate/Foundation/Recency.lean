/- Module: RankGate/Foundation/Recency
   layer: foundation
   digest: Keys in the order of their latest use, and which of them a bound on their number keeps. -/

import Mathlib.Data.Finset.Card
import Mathlib.Data.List.Induction
import Mathlib.Data.List.Nodup
import Mathlib.Data.List.TakeWhile
import Mathlib.Tactic.Common

set_option autoImplicit false
set_option relaxedAutoImplicit false

namespace Recency

variable {κ : Type} [DecidableEq κ]

def touch (l : List κ) (k : κ) : List κ := k :: l.erase k

/-- The distinct keys of a history, latest use first. -/
def recency (history : List κ) : List κ := history.foldl touch []

/-- After its own latest use `old` was not used again, and `k` was. -/
def UsedAfter (history : List κ) (k old : κ) : Prop :=
  ∃ pre post, history = pre ++ old :: post ∧ old ∉ post ∧ k ∈ post

section Order

variable {l history : List κ} {j k : κ}

@[simp] theorem recency_concat : recency (history ++ [k]) = touch (recency history) k := by
  rw [recency, List.foldl_append]
  rfl

theorem mem_touch : j ∈ touch l k ↔ j = k ∨ j ∈ l := by
  rw [touch, List.mem_cons]
  by_cases h : j = k
  · simp only [h, true_or]
  · rw [List.mem_erase_of_ne h]

theorem nodup_touch (h : l.Nodup) : (touch l k).Nodup :=
  List.nodup_cons.mpr ⟨h.not_mem_erase, h.erase k⟩

theorem length_touch_of_mem (h : k ∈ l) : (touch l k).length = l.length := by
  have hpos := List.length_pos_of_mem h
  rw [touch, List.length_cons, List.length_erase_of_mem h]
  omega

theorem touch_of_not_mem (h : k ∉ l) : touch l k = k :: l := by
  rw [touch, List.erase_of_not_mem h]

@[simp] theorem mem_recency : k ∈ recency history ↔ k ∈ history := by
  induction history using List.reverseRecOn with
  | nil => rfl
  | append_singleton history j ih =>
    rw [recency_concat, mem_touch, ih, List.mem_append, List.mem_singleton, or_comm]

theorem nodup_recency (history : List κ) : (recency history).Nodup := by
  induction history using List.reverseRecOn with
  | nil => exact List.nodup_nil
  | append_singleton history j ih =>
    rw [recency_concat]
    exact nodup_touch ih

omit [DecidableEq κ] in
theorem exists_latest (h : k ∈ history) : ∃ pre post, history = pre ++ k :: post ∧ k ∉ post := by
  obtain ⟨post, pre, hsplit, hnot⟩ := List.eq_append_cons_of_mem (List.mem_reverse.mpr h)
  refine ⟨pre.reverse, post.reverse, ?_, by simpa using hnot⟩
  rw [← List.reverse_reverse history, hsplit]
  simp

omit [DecidableEq κ] in
theorem UsedAfter.concat (h : UsedAfter history j k) {i : κ} (hne : k ≠ i) :
    UsedAfter (history ++ [i]) j k := by
  obtain ⟨pre, post, rfl, hnot, hmem⟩ := h
  refine ⟨pre, post ++ [i], by simp, ?_, List.mem_append_left _ hmem⟩
  rw [List.mem_append, List.mem_singleton, not_or]
  exact ⟨hnot, hne⟩

omit [DecidableEq κ] in
theorem UsedAfter.newest (h : k ∈ history) (hne : k ≠ j) : UsedAfter (history ++ [j]) j k := by
  obtain ⟨pre, post, rfl, hnot⟩ := exists_latest h
  refine ⟨pre, post ++ [j], by simp, ?_, List.mem_append_right _ (List.mem_singleton.mpr rfl)⟩
  rw [List.mem_append, List.mem_singleton, not_or]
  exact ⟨hnot, hne⟩

theorem recency_pairwise (history : List κ) : (recency history).Pairwise (UsedAfter history) := by
  induction history using List.reverseRecOn with
  | nil => exact .nil
  | append_singleton history j ih =>
    rw [recency_concat, touch, List.pairwise_cons]
    have hne (k : κ) (hk : k ∈ (recency history).erase j) : k ≠ j := by
      rintro rfl
      exact (nodup_recency history).not_mem_erase hk
    constructor
    · intro k hk
      exact .newest (mem_recency.mp (List.mem_of_mem_erase hk)) (hne k hk)
    · refine (ih.sublist List.erase_sublist).imp_of_mem ?_
      intro i k _ hk h
      exact h.concat (hne k hk)

end Order

section Bound

variable {l history : List κ} {j k : κ}

theorem take_erase (l : List κ) (k : κ) (n : Nat) :
    (l.erase k).take n = ((l.take (n + 1)).erase k).take n := by
  induction l generalizing n with
  | nil => simp
  | cons a l ih =>
    by_cases h : a = k
    · subst h
      rw [List.take_succ_cons, List.erase_cons_head, List.erase_cons_head, List.take_take,
        Nat.min_self]
    · rw [List.take_succ_cons, List.erase_cons_tail (by simpa using h),
        List.erase_cons_tail (by simpa using h)]
      cases n with
      | zero => rfl
      | succ n => rw [List.take_succ_cons, List.take_succ_cons, ih]

/-- A bounded order stays the front of the unbounded one: what it has dropped never counts. -/
theorem take_touch (l : List κ) (k : κ) (n : Nat) :
    (touch l k).take n = (touch (l.take n) k).take n := by
  cases n with
  | zero => rfl
  | succ n => rw [touch, touch, List.take_succ_cons, List.take_succ_cons, take_erase]

theorem takeWhile_erase_subset (l : List κ) (h : j ≠ k) (x : κ)
    (hx : x ∈ (l.erase j).takeWhile (· ≠ k)) : x ∈ l.takeWhile (· ≠ k) := by
  induction l with
  | nil => exact hx
  | cons a l ih =>
    by_cases ha : a = j
    · subst ha
      rw [List.erase_cons_head] at hx
      rw [List.takeWhile_cons_of_pos (by simpa using h)]
      exact List.mem_cons_of_mem _ hx
    · rw [List.erase_cons_tail (by simpa using ha)] at hx
      by_cases hk : a = k
      · subst hk
        simp at hx
      · rw [List.takeWhile_cons_of_pos (by simpa using hk)] at hx ⊢
        rcases List.mem_cons.mp hx with rfl | hx
        · exact List.mem_cons_self
        · exact List.mem_cons_of_mem _ (ih hx)

theorem takeWhile_recency_subset (pre post : List κ) (k x : κ)
    (hx : x ∈ (recency (pre ++ k :: post)).takeWhile (· ≠ k)) : x ∈ post := by
  induction post using List.reverseRecOn with
  | nil =>
    rw [recency_concat, touch, List.takeWhile_cons_of_neg (by simp)] at hx
    cases hx
  | append_singleton post j ih =>
    have hsplit : pre ++ k :: (post ++ [j]) = (pre ++ k :: post) ++ [j] := by simp
    rw [hsplit, recency_concat, touch] at hx
    by_cases h : j = k
    · rw [List.takeWhile_cons_of_neg (by simpa using h)] at hx
      cases hx
    · rw [List.takeWhile_cons_of_pos (by simpa using h)] at hx
      rcases List.mem_cons.mp hx with rfl | hx
      · exact List.mem_append_right _ (List.mem_singleton.mpr rfl)
      · exact List.mem_append_left _ (ih (takeWhile_erase_subset _ h x hx))

theorem mem_take_of_takeWhile {n : Nat} (h : k ∈ l) (hn : (l.takeWhile (· ≠ k)).length < n) :
    k ∈ l.take n := by
  induction l generalizing n with
  | nil => cases h
  | cons a l ih =>
    cases n with
    | zero => cases hn
    | succ n =>
      rw [List.take_succ_cons]
      by_cases ha : a = k
      · subst ha
        exact List.mem_cons_self
      · rw [List.takeWhile_cons_of_pos (by simpa using ha), List.length_cons] at hn
        have hk : k ∈ l := (List.mem_cons.mp h).resolve_left (Ne.symm ha)
        exact List.mem_cons_of_mem _ (ih hk (by omega))

/-- A key survives a bound of `n` while fewer than `n` other keys are used after it. -/
theorem mem_take_recency {n : Nat} {pre post : List κ}
    (h : (post.toFinset.erase k).card < n) : k ∈ (recency (pre ++ k :: post)).take n := by
  have hmem : k ∈ recency (pre ++ k :: post) := by
    rw [mem_recency]
    exact List.mem_append_right _ List.mem_cons_self
  refine mem_take_of_takeWhile hmem ?_
  generalize hahead : (recency (pre ++ k :: post)).takeWhile (· ≠ k) = ahead
  have hnodup : ahead.Nodup := by
    rw [← hahead]
    exact (nodup_recency _).sublist (List.takeWhile_sublist _)
  rw [← List.toFinset_card_of_nodup hnodup]
  refine lt_of_le_of_lt (Finset.card_le_card ?_) h
  intro x hx
  rw [List.mem_toFinset, ← hahead] at hx
  rw [Finset.mem_erase, List.mem_toFinset]
  exact ⟨by simpa using List.mem_takeWhile_imp hx, takeWhile_recency_subset pre post k x hx⟩

end Bound

end Recency
