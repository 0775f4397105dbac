/- Module: RankGate/Foundation/ByteCodec
   layer: foundation
   digest: Big-endian byte strings, the partial integer encoder, and a cursor that takes exact chunks. -/

import Mathlib.Data.Nat.Digits.Lemmas
import Mathlib.Tactic.Ring
import Mathlib.Tactic.NormNum

set_option autoImplicit false
set_option relaxedAutoImplicit false

namespace ByteCodec

abbrev Bytes := List UInt8

/-- A byte string of a fixed width; the width travels with the value. -/
abbrev BytesN (n : Nat) := {b : Bytes // b.length = n}

def ascii (s : String) : Bytes := s.toList.map fun c => UInt8.ofNat c.toNat

def zeros (n : Nat) : Bytes := List.replicate n 0

@[simp] theorem length_zeros (n : Nat) : (zeros n).length = n := List.length_replicate

def beNat (b : Bytes) : Nat := b.foldl (fun acc x => acc * 256 + x.toNat) 0

/-- The `n` low-order bytes of `v`, most significant byte first. -/
def beBytes : Nat → Nat → Bytes
  | 0, _ => []
  | n + 1, v => beBytes n (v / 256) ++ [UInt8.ofNat v]

def toBytes? (n v : Nat) : Option Bytes :=
  if v < 256 ^ n then some (beBytes n v) else none

@[simp] theorem length_beBytes (n v : Nat) : (beBytes n v).length = n := by
  induction n generalizing v with
  | zero => rfl
  | succ n ih => simp [beBytes, ih]

@[simp] theorem beNat_nil : beNat [] = 0 := rfl

theorem beNat_append_singleton (b : Bytes) (x : UInt8) :
    beNat (b ++ [x]) = beNat b * 256 + x.toNat := by
  simp [beNat, List.foldl_append]

theorem beNat_append (a b : Bytes) : beNat (a ++ b) = beNat a * 256 ^ b.length + beNat b := by
  induction b using List.reverseRecOn with
  | nil => simp
  | append_singleton b x ih =>
    rw [← List.append_assoc, beNat_append_singleton, beNat_append_singleton, ih,
      List.length_append, List.length_singleton, pow_succ]
    ring

theorem beNat_lt (b : Bytes) : beNat b < 256 ^ b.length := by
  induction b using List.reverseRecOn with
  | nil => simp
  | append_singleton b x ih =>
    have hx : x.toNat < 256 := x.toNat_lt
    rw [beNat_append_singleton, List.length_append, List.length_singleton, pow_succ]
    omega

theorem beNat_beBytes_mod (n v : Nat) : beNat (beBytes n v) = v % 256 ^ n := by
  induction n generalizing v with
  | zero => simp [beBytes, Nat.mod_one]
  | succ n ih =>
    have hx : (UInt8.ofNat v).toNat = v % 256 := UInt8.toNat_ofNat'
    rw [beBytes, beNat_append_singleton, ih, hx, pow_succ, Nat.mul_comm (256 ^ n) 256,
      Nat.mod_mul]
    ring

theorem beNat_beBytes {n v : Nat} (h : v < 256 ^ n) : beNat (beBytes n v) = v := by
  rw [beNat_beBytes_mod, Nat.mod_eq_of_lt h]

theorem beBytes_beNat (b : Bytes) : beBytes b.length (beNat b) = b := by
  induction b using List.reverseRecOn with
  | nil => rfl
  | append_singleton b x ih =>
    have hx : x.toNat < 256 := x.toNat_lt
    have hdiv : (beNat b * 256 + x.toNat) / 256 = beNat b := by omega
    have hmod : UInt8.ofNat (beNat b * 256 + x.toNat) = x := by
      apply UInt8.toNat_inj.mp
      rw [UInt8.toNat_ofNat']
      omega
    rw [List.length_append, List.length_singleton, beBytes, beNat_append_singleton, hdiv, ih,
      hmod]

theorem beBytes_beNat_of_length {n : Nat} {b : Bytes} (h : b.length = n) :
    beBytes n (beNat b) = b := by
  subst h
  exact beBytes_beNat b

theorem beBytes_mod (n v : Nat) : beBytes n (v % 256 ^ n) = beBytes n v := by
  have h := beBytes_beNat_of_length (length_beBytes n v)
  rwa [beNat_beBytes_mod] at h

theorem beNat_inj {a b : Bytes} (hl : a.length = b.length) (h : beNat a = beNat b) : a = b := by
  rw [← beBytes_beNat a, ← beBytes_beNat b, hl, h]

theorem toBytes?_eq_some {n v : Nat} (h : v < 256 ^ n) : toBytes? n v = some (beBytes n v) :=
  if_pos h

/-! A parser that consumes a byte string from the left. `take` fails when fewer than `n`
    bytes remain, so a successful parse accounts for every byte it read. -/

section Cursor

variable {ε : Type}

/-- Take the next `n` bytes of the remaining input, or fail with `e`. -/
def take (e : ε) (n : Nat) : StateT Bytes (Except ε) Bytes := fun rest =>
  if (rest.take n).length = n then .ok (rest.take n, rest.drop n) else .error e

theorem take_append (e : ε) {n : Nat} {a : Bytes} (h : a.length = n) (rest : Bytes) :
    take e n (a ++ rest) = .ok (a, rest) := by
  subst h
  simp [take]

theorem take_eq_ok {e : ε} {n : Nat} {buf a rest : Bytes} (h : take e n buf = .ok (a, rest)) :
    a.length = n ∧ buf = a ++ rest := by
  unfold take at h
  split_ifs at h with hn
  simp only [Except.ok.injEq, Prod.mk.injEq] at h
  obtain ⟨rfl, rfl⟩ := h
  exact ⟨hn, (List.take_append_drop n buf).symm⟩

end Cursor

section Overwrite

variable {α β : Type}

/-- Write `ws` into `l` from position `k` on; cells beyond the end are dropped. -/
def overwrite (l : List α) (k : Nat) (ws : List α) : List α :=
  ws.zipIdx.foldl (fun l p => l.set (k + p.2) p.1) l

def overwriteVec {n : Nat} (v : Vector α n) (k : Nat) (ws : List α) : Vector α n :=
  ws.zipIdx.foldl (fun v p => v.setIfInBounds (k + p.2) p.1) v

private theorem map_foldl_set (f : α → β) (k : Nat) (ps : List (α × Nat)) (l : List α) :
    (ps.foldl (fun l p => l.set (k + p.2) p.1) l).map f =
      (ps.map fun p => (f p.1, p.2)).foldl (fun l p => l.set (k + p.2) p.1) (l.map f) := by
  induction ps generalizing l with
  | nil => rfl
  | cons p ps ih => simp [ih, List.map_set]

theorem map_overwrite (f : α → β) (l : List α) (k : Nat) (ws : List α) :
    (overwrite l k ws).map f = overwrite (l.map f) k (ws.map f) := by
  rw [overwrite, overwrite, map_foldl_set, List.zipIdx_map]
  rfl

private theorem toList_foldl_set {n : Nat} (k : Nat) (ps : List (α × Nat)) (v : Vector α n) :
    (ps.foldl (fun v p => v.setIfInBounds (k + p.2) p.1) v).toList =
      ps.foldl (fun l p => l.set (k + p.2) p.1) v.toList := by
  induction ps generalizing v with
  | nil => rfl
  | cons p ps ih => simp [ih]

theorem toList_overwriteVec {n : Nat} (v : Vector α n) (k : Nat) (ws : List α) :
    (overwriteVec v k ws).toList = overwrite v.toList k ws :=
  toList_foldl_set k ws.zipIdx v

private theorem foldl_set_middle {k : Nat} (a b c ws : List α) (n : Nat) (ha : a.length = k + n)
    (hb : b.length = ws.length) :
    (ws.zipIdx n).foldl (fun l p => l.set (k + p.2) p.1) (a ++ (b ++ c)) = a ++ (ws ++ c) := by
  induction ws generalizing a b n with
  | nil => rw [List.length_eq_zero_iff.mp hb, List.zipIdx_nil, List.foldl_nil]
  | cons w ws ih =>
    cases b with
    | nil => cases hb
    | cons x b =>
      rw [List.zipIdx_cons, List.foldl_cons, List.cons_append, ← ha, List.set_append_right _ _ le_rfl,
        Nat.sub_self, List.set_cons_zero, ← List.singleton_append, ← List.append_assoc,
        ih (a ++ [w]) b (n + 1) (by simp [ha, Nat.add_assoc]) (Nat.succ.inj hb)]
      simp

theorem overwrite_middle {a b c ws : List α} {k : Nat} (ha : a.length = k)
    (hb : b.length = ws.length) : overwrite (a ++ (b ++ c)) k ws = a ++ (ws ++ c) :=
  foldl_set_middle a b c ws 0 (by rw [ha, Nat.add_zero]) hb

end Overwrite

end ByteCodec
