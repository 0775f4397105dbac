/- Module: RankGate/Foundation/OrderedDict
   layer: foundation
   digest: An insertion-ordered dictionary under a size bound, and how long an entry stays in it. -/

import RankGate.Foundation.Recency
import Mathlib.Data.List.AList

set_option autoImplicit false
set_option relaxedAutoImplicit false

namespace OrderedDict

variable {κ ν : Type} [DecidableEq κ]

/-- An ordered dictionary, newest entry first. -/
abbrev Dict (κ ν : Type) := AList (fun _ : κ => ν)

namespace Dict

/-- `d[k] = v`: in place where the key is there, else as the newest entry. -/
def assign (d : Dict κ ν) (k : κ) (v : ν) : Dict κ ν :=
  if k ∈ d then d.replace k v else d.insert k v

def moveToEnd (d : Dict κ ν) (k : κ) : Option (Dict κ ν) :=
  (d.lookup k).map fun v => d.insert k v

def popFirst (d : Dict κ ν) : Dict κ ν :=
  ⟨d.entries.dropLast, d.nodupKeys.sublist (List.dropLast_sublist _)⟩

/-- `while len(d) > cap: popitem(last=False)`; every pass drops one entry. -/
def shrinkLoop (cap : Nat) : Nat → Dict κ ν → Dict κ ν
  | 0, d => d
  | fuel + 1, d => if cap < d.entries.length then shrinkLoop cap fuel d.popFirst else d

def shrink (cap : Nat) (d : Dict κ ν) : Dict κ ν := shrinkLoop cap d.entries.length d

section Lookup

private theorem kreplace_cons_eq (k : κ) (v b : ν) (l : List (Sigma fun _ : κ => ν)) :
    List.kreplace k v (⟨k, b⟩ :: l) = ⟨k, v⟩ :: l :=
  List.lookmap_cons_some (fun s : Sigma fun _ : κ => ν => if k = s.1 then some ⟨k, v⟩ else none)
    l (if_pos rfl)

private theorem kreplace_cons_ne {k a : κ} (h : k ≠ a) (v b : ν)
    (l : List (Sigma fun _ : κ => ν)) :
    List.kreplace k v (⟨a, b⟩ :: l) = ⟨a, b⟩ :: List.kreplace k v l :=
  List.lookmap_cons_none (fun s : Sigma fun _ : κ => ν => if k = s.1 then some ⟨k, v⟩ else none)
    l (if_neg h)

variable (d : Dict κ ν) {k j : κ} {v : ν}

theorem lookup_replace_self (h : k ∈ d) : (d.replace k v).lookup k = some v := by
  obtain ⟨entries, hnodup⟩ := d
  rw [AList.mem_mk] at h
  change List.dlookup k (List.kreplace k v entries) = some v
  clear hnodup
  induction entries with
  | nil => cases h
  | cons e entries ih =>
    obtain ⟨a, b⟩ := e
    by_cases ha : k = a
    · subst ha
      rw [kreplace_cons_eq, List.dlookup_cons_eq]
    · rw [kreplace_cons_ne ha, List.dlookup_cons_ne _ _ ha]
      refine ih ?_
      rw [List.keys_cons, List.mem_cons] at h
      exact h.resolve_left ha

theorem lookup_replace_ne (h : j ≠ k) : (d.replace k v).lookup j = d.lookup j := by
  obtain ⟨entries, hnodup⟩ := d
  change List.dlookup j (List.kreplace k v entries) = List.dlookup j entries
  clear hnodup
  induction entries with
  | nil => rfl
  | cons e entries ih =>
    obtain ⟨a, b⟩ := e
    by_cases ha : k = a
    · subst ha
      rw [kreplace_cons_eq, List.dlookup_cons_ne _ _ h, List.dlookup_cons_ne _ _ h]
    · rw [kreplace_cons_ne ha]
      by_cases hj : j = a
      · subst hj
        rw [List.dlookup_cons_eq, List.dlookup_cons_eq]
      · rw [List.dlookup_cons_ne _ _ hj, List.dlookup_cons_ne _ _ hj]
        exact ih

theorem lookup_assign_self : (d.assign k v).lookup k = some v := by
  rw [assign]
  split_ifs with h
  · exact lookup_replace_self d h
  · exact AList.lookup_insert d

theorem moveToEnd_assign : (d.assign k v).moveToEnd k = some (d.insert k v) := by
  rw [moveToEnd, lookup_assign_self, Option.map_some, assign]
  split_ifs with h
  · have herase : List.kerase k (List.kreplace k v d.entries) = List.kerase k d.entries := by
      generalize d.entries = entries
      induction entries with
      | nil => rfl
      | cons e entries ih =>
        obtain ⟨a, b⟩ := e
        by_cases ha : k = a
        · subst ha
          rw [kreplace_cons_eq, List.kerase_cons_eq (by rfl : k = (⟨k, v⟩ : Sigma fun _ : κ => ν).1),
            List.kerase_cons_eq (by rfl : k = (⟨k, b⟩ : Sigma fun _ : κ => ν).1)]
        · rw [kreplace_cons_ne ha, List.kerase_cons_ne ha, List.kerase_cons_ne ha]
          exact congrArg _ ih
    refine congrArg some (AList.ext ?_)
    rw [AList.entries_insert, AList.entries_insert]
    exact congrArg _ herase
  · exact congrArg some (AList.insert_insert d)

theorem lookup_popFirst (h : d.popFirst.lookup k = some v) : d.lookup k = some v := by
  have hmem : (⟨k, v⟩ : Sigma fun _ : κ => ν) ∈ d.popFirst.entries := AList.mem_lookup_iff.mp h
  exact AList.mem_lookup_iff.mpr ((List.dropLast_sublist _).subset hmem)

theorem lookup_shrinkLoop {cap fuel : Nat} (h : (shrinkLoop cap fuel d).lookup k = some v) :
    d.lookup k = some v := by
  induction fuel generalizing d with
  | zero => exact h
  | succ fuel ih =>
    rw [shrinkLoop] at h
    split_ifs at h with hcap
    · exact lookup_popFirst d (ih _ h)
    · exact h

theorem lookup_shrink {cap : Nat} (h : (d.shrink cap).lookup k = some v) : d.lookup k = some v :=
  lookup_shrinkLoop d h

end Lookup

section Size

variable (d : Dict κ ν)

omit [DecidableEq κ] in
theorem length_keys : d.keys.length = d.entries.length := List.length_map _

theorem length_replace (k : κ) (v : ν) : (d.replace k v).entries.length = d.entries.length := by
  rw [← length_keys, ← length_keys, AList.keys_replace]

theorem length_insert_of_mem {k : κ} (v : ν) (h : k ∈ d) :
    (d.insert k v).entries.length = d.entries.length := by
  have hlen := List.length_erase_of_mem (AList.mem_keys.mp h)
  have hpos : 0 < d.keys.length := List.length_pos_of_mem (AList.mem_keys.mp h)
  rw [← length_keys, ← length_keys, AList.keys_insert, List.length_cons, hlen]
  omega

omit [DecidableEq κ] in
theorem keys_shrinkLoop {cap fuel : Nat} (h : d.entries.length ≤ cap + fuel) :
    (shrinkLoop cap fuel d).keys = d.keys.take cap := by
  induction fuel generalizing d with
  | zero =>
    rw [shrinkLoop, List.take_of_length_le]
    rwa [length_keys]
  | succ fuel ih =>
    rw [shrinkLoop]
    split_ifs with hcap
    · have hkeys : (popFirst d).keys = d.keys.dropLast := List.map_dropLast
      have hlen : (popFirst d).entries.length ≤ cap + fuel := by
        rw [popFirst, List.length_dropLast]
        omega
      rw [ih _ hlen, hkeys, List.dropLast_eq_take, List.take_take, length_keys,
        Nat.min_eq_left (by omega)]
    · rw [List.take_of_length_le]
      rw [length_keys]
      omega

omit [DecidableEq κ] in
theorem keys_shrink (cap : Nat) : (d.shrink cap).keys = d.keys.take cap :=
  keys_shrinkLoop d (by omega)

omit [DecidableEq κ] in
theorem length_shrink (cap : Nat) : (d.shrink cap).entries.length ≤ cap := by
  rw [← length_keys, keys_shrink, List.length_take]
  exact Nat.min_le_left _ _

theorem lookup_shrink_of_mem {cap : Nat} {k : κ} (h : k ∈ d.keys.take cap) :
    (d.shrink cap).lookup k = d.lookup k := by
  have hmem : k ∈ d.shrink cap := by
    rw [AList.mem_keys, keys_shrink]
    exact h
  obtain ⟨v, hv⟩ := Option.isSome_iff_exists.mp (AList.lookup_isSome.mpr hmem)
  rw [hv, lookup_shrink d hv]

omit [DecidableEq κ] in
theorem shrink_of_le {cap : Nat} (h : d.entries.length ≤ cap) : d.shrink cap = d := by
  have hcap : ¬ cap < d.entries.length := by omega
  rw [shrink]
  cases d.entries.length with
  | zero => rfl
  | succ fuel => rw [shrinkLoop, if_neg hcap]

end Size

section Map

variable {μ : Type} (f : ν → μ) (d : Dict κ ν) {k : κ} {v : ν}

/-- The same function on a list of entries. -/
private def mapEntries (l : List (Sigma fun _ : κ => ν)) : List (Sigma fun _ : κ => μ) :=
  l.map (Sigma.map id fun _ => f)

def mapValues : Dict κ μ :=
  ⟨mapEntries f d.entries, List.NodupKeys.map₂ (fun _ => f) d.entries d.nodupKeys⟩

theorem lookup_mapValues : (d.mapValues f).lookup k = (d.lookup k).map f :=
  List.dlookup_map₂ k

theorem mapValues_insert : mapValues f (d.insert k v) = (d.mapValues f).insert k (f v) := by
  have herase (l : List (Sigma fun _ : κ => ν)) :
      mapEntries f (List.kerase k l) = List.kerase k (mapEntries f l) := by
    induction l with
    | nil => rfl
    | cons e l ih =>
      rw [mapEntries, mapEntries] at ih
      by_cases h : k = e.1
      · rw [List.kerase_cons_eq h, mapEntries, mapEntries, List.map_cons,
          List.kerase_cons_eq (by exact h)]
      · rw [List.kerase_cons_ne h, mapEntries, mapEntries, List.map_cons, List.map_cons,
          List.kerase_cons_ne (by exact h), ih]
  refine AList.ext ?_
  rw [AList.entries_insert]
  change mapEntries f (d.insert k v).entries = _
  rw [AList.entries_insert]
  exact congrArg _ (herase d.entries)

omit [DecidableEq κ] in
theorem mapValues_shrink (cap : Nat) : (d.shrink cap).mapValues f = (d.mapValues f).shrink cap := by
  have hloop (fuel : Nat) (d : Dict κ ν) :
      (shrinkLoop cap fuel d).mapValues f = shrinkLoop cap fuel (d.mapValues f) := by
    induction fuel generalizing d with
    | zero => rfl
    | succ fuel ih =>
      have hlen : (d.mapValues f).entries.length = d.entries.length := List.length_map _
      have hpop : (popFirst d).mapValues f = popFirst (d.mapValues f) :=
        AList.ext List.map_dropLast
      rw [shrinkLoop, shrinkLoop, hlen]
      split_ifs
      · rw [ih, hpop]
      · rfl
  have hlen : (d.mapValues f).entries.length = d.entries.length := List.length_map _
  rw [shrink, shrink, hloop, hlen]

theorem mapValues_congr {g : ν → μ} (h : ∀ k v, d.lookup k = some v → f v = g v) :
    d.mapValues f = d.mapValues g := by
  refine AList.ext (List.map_congr_left ?_)
  rintro ⟨k, v⟩ he
  have hv : f v = g v := h k v (AList.mem_lookup_iff.mpr he)
  simp only [Sigma.map, hv]

end Map

section Newer

variable (d : Dict κ ν) {k j : κ} {v : ν}

def newer (k : κ) : List κ := d.keys.takeWhile (· ≠ k)

@[simp] theorem newer_insert_self : newer (d.insert k v) k = [] := by
  simp [newer]

@[simp] theorem newer_replace : newer (d.replace j v) k = newer d k := by
  rw [newer, AList.keys_replace, newer]

theorem newer_insert_ne (h : j ≠ k) (x : κ) (hx : x ∈ newer (d.insert j v) k) :
    x = j ∨ x ∈ newer d k := by
  rw [newer, AList.keys_insert, List.takeWhile_cons_of_pos (by simpa using h)] at hx
  exact (List.mem_cons.mp hx).imp id (Recency.takeWhile_erase_subset _ h x)

private theorem keys_split (hk : k ∈ d) : ∃ rest, d.keys = newer d k ++ k :: rest := by
  have hsplit : newer d k ++ d.keys.dropWhile (· ≠ k) = d.keys := List.takeWhile_append_dropWhile
  have hnot := List.head?_dropWhile_not (fun x => decide (x ≠ k)) d.keys
  cases hdrop : d.keys.dropWhile (· ≠ k) with
  | nil =>
    rw [hdrop, List.append_nil] at hsplit
    have hmem := AList.mem_keys.mp hk
    rw [← hsplit] at hmem
    simpa using List.mem_takeWhile_imp hmem
  | cons a rest =>
    rw [hdrop] at hnot hsplit
    have ha : a = k := by simpa using hnot
    exact ⟨rest, by rw [← hsplit, ha]⟩

private theorem popFirst_keeps {cap : Nat} (hk : k ∈ d) (hcap : cap < d.entries.length)
    (hnewer : (newer d k).length < cap) :
    (popFirst d).lookup k = d.lookup k ∧ newer (popFirst d) k = newer d k := by
  obtain ⟨rest, hsplit⟩ := keys_split d hk
  have hkeys : (popFirst d).keys = d.keys.dropLast := List.map_dropLast
  have hrest : rest ≠ [] := by
    rintro rfl
    have hlen := congrArg List.length hsplit
    rw [length_keys, List.length_append, List.length_singleton] at hlen
    omega
  have hdrop : (popFirst d).keys = newer d k ++ k :: rest.dropLast := by
    rw [hkeys, hsplit, List.dropLast_append_of_ne_nil (by simp), List.dropLast_cons_of_ne_nil hrest]
  have hmem : k ∈ popFirst d := by
    rw [AList.mem_keys, hdrop]
    exact List.mem_append_right _ List.mem_cons_self
  constructor
  · obtain ⟨v, hv⟩ := Option.isSome_iff_exists.mp (AList.lookup_isSome.mpr hmem)
    rw [hv, lookup_popFirst d hv]
  · have hnot : ∀ x ∈ newer d k, decide (x ≠ k) = true := by
      intro x hx
      exact List.mem_takeWhile_imp (p := fun x => decide (x ≠ k)) hx
    rw [newer, hdrop, List.takeWhile_append_of_pos hnot, List.takeWhile_cons_of_neg (by simp),
      List.append_nil]

theorem shrinkLoop_keeps {cap fuel : Nat} (hk : k ∈ d) (hnewer : (newer d k).length < cap) :
    (shrinkLoop cap fuel d).lookup k = d.lookup k ∧ newer (shrinkLoop cap fuel d) k = newer d k := by
  induction fuel generalizing d with
  | zero => exact ⟨rfl, rfl⟩
  | succ fuel ih =>
    rw [shrinkLoop]
    split_ifs with hcap
    · obtain ⟨hlookup, hsame⟩ := popFirst_keeps d hk hcap hnewer
      have hmem : k ∈ popFirst d := by
        rw [← AList.lookup_isSome, hlookup]
        exact AList.lookup_isSome.mpr hk
      obtain ⟨hl, hn⟩ := ih _ hmem (hsame ▸ hnewer)
      exact ⟨hl.trans hlookup, hn.trans hsame⟩
    · exact ⟨rfl, rfl⟩

/-- An entry with fewer than `cap` newer keys survives the bound, and so does its place. -/
theorem shrink_keeps {cap : Nat} (hk : k ∈ d) (hnewer : (newer d k).length < cap) :
    (shrink cap d).lookup k = d.lookup k ∧ newer (shrink cap d) k = newer d k :=
  shrinkLoop_keeps d hk hnewer

theorem newer_nodup (k : κ) : (newer d k).Nodup := d.keys_nodup.sublist (List.takeWhile_sublist _)

theorem length_newer_lt {cap : Nat} {touched : List κ} (hsub : ∀ x ∈ newer d k, x ∈ touched)
    (hcard : touched.toFinset.card < cap) : (newer d k).length < cap := by
  rw [← List.toFinset_card_of_nodup (newer_nodup d k)]
  refine lt_of_le_of_lt (Finset.card_le_card fun x hx => ?_) hcard
  exact List.mem_toFinset.mpr (hsub x (List.mem_toFinset.mp hx))

end Newer

end Dict

end OrderedDict
