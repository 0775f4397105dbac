/- Module: RankGate/Foundation/Radix
   layer: foundation
   digest: Numerals of a fixed width over an alphabet, and groups of bytes written as such. -/

import RankGate.Foundation.ByteCodec

set_option autoImplicit false
set_option relaxedAutoImplicit false

namespace Radix

open ByteCodec (Bytes beNat beBytes)

/-- The symbols of the digits, in the order of their values. -/
structure Alphabet (τ : Type) where
  symbols : List τ
  nodup : symbols.Nodup
  nonempty : 0 < symbols.length

namespace Alphabet

section Writing

variable {τ : Type} (A : Alphabet τ)

def radix : Nat := A.symbols.length

def lowest (v : Nat) : τ := A.symbols.get ⟨v % A.radix, Nat.mod_lt v A.nonempty⟩

/-- The `n` low-order digits of `v`, most significant digit first. -/
def numeral : Nat → Nat → List τ
  | 0, _ => []
  | n + 1, v => numeral n (v / A.radix) ++ [A.lowest v]

variable {A} {n v : Nat} {c : τ}

theorem radix_pos : 0 < A.radix := A.nonempty

@[simp] theorem length_numeral : (A.numeral n v).length = n := by
  induction n generalizing v with
  | zero => rfl
  | succ n ih => rw [numeral, List.length_append, ih, List.length_singleton]

theorem numeral_append {m u : Nat} (hv : v < A.radix ^ n) :
    A.numeral (m + n) (u * A.radix ^ n + v) = A.numeral m u ++ A.numeral n v := by
  induction n generalizing v with
  | zero =>
    have hzero : v = 0 := Nat.lt_one_iff.mp hv
    rw [hzero, pow_zero, Nat.mul_one, Nat.add_zero, Nat.add_zero, numeral, List.append_nil]
  | succ n ih =>
    have hvalue : u * A.radix ^ (n + 1) + v = A.radix * (u * A.radix ^ n) + v := by
      rw [pow_succ]
      ring
    have hdiv : (u * A.radix ^ (n + 1) + v) / A.radix = u * A.radix ^ n + v / A.radix := by
      rw [hvalue, Nat.mul_add_div radix_pos]
    have hlow : A.lowest (u * A.radix ^ (n + 1) + v) = A.lowest v := by
      simp only [lowest, hvalue, Nat.mul_add_mod]
    have hlt : v / A.radix < A.radix ^ n :=
      Nat.div_lt_of_lt_mul (by rwa [pow_succ, Nat.mul_comm] at hv)
    rw [← Nat.add_assoc, numeral, hdiv, hlow, ih hlt, numeral, List.append_assoc]

theorem mem_of_mem_numeral (h : c ∈ A.numeral n v) : c ∈ A.symbols := by
  induction n generalizing v with
  | zero => cases h
  | succ n ih =>
    rcases List.mem_append.mp h with hhigh | hlow
    · exact ih hhigh
    · rw [List.mem_singleton.mp hlow]
      exact List.get_mem _ _

end Writing

section Reading

variable {τ : Type} [DecidableEq τ] (A : Alphabet τ)

def digit? (c : τ) : Option Nat := A.symbols.idxOf? c

def push (acc : Nat) (c : τ) : Option Nat := (A.digit? c).map (acc * A.radix + ·)

/-- The number a word denotes, if all its letters are digits. -/
def read (cs : List τ) : Option Nat := cs.foldlM A.push 0

variable {A} {n v acc d : Nat} {c : τ} {cs : List τ}

theorem digit?_eq_some : A.digit? c = some d ↔ d < A.radix ∧ A.symbols[d]? = some c := by
  constructor
  · intro h
    obtain ⟨hd, hc, -⟩ := List.idxOf?_eq_some_iff.mp h
    exact ⟨hd, by rw [List.getElem?_eq_getElem hd, hc]⟩
  · rintro ⟨hd, hc⟩
    obtain ⟨hlt, hc⟩ := List.getElem?_eq_some_iff.mp hc
    refine List.idxOf?_eq_some_iff.mpr ⟨hlt, hc, ?_⟩
    intro j hj heq
    have hjd := A.nodup.getElem_inj_iff.mp (heq.trans hc.symm)
    exact absurd hjd hj.ne

theorem digit?_lowest : A.digit? (A.lowest v) = some (v % A.radix) := by
  refine digit?_eq_some.mpr ⟨Nat.mod_lt v A.nonempty, ?_⟩
  exact List.getElem?_eq_getElem _

theorem push_lowest : A.push (v / A.radix) (A.lowest v) = some v := by
  rw [push, digit?_lowest, Option.map_some, Nat.mul_comm, Nat.div_add_mod]

theorem push_eq_some (h : A.push acc c = some v) :
    v / A.radix = acc ∧ A.lowest v = c ∧ v < (acc + 1) * A.radix := by
  obtain ⟨d, hd, rfl⟩ := Option.map_eq_some_iff.mp h
  obtain ⟨hlt, hc⟩ := digit?_eq_some.mp hd
  have hdiv : (acc * A.radix + d) / A.radix = acc := by
    rw [Nat.mul_comm, Nat.mul_add_div radix_pos, Nat.div_eq_of_lt hlt, Nat.add_zero]
  have hmod : (acc * A.radix + d) % A.radix = d := by
    rw [Nat.mul_comm, Nat.mul_add_mod, Nat.mod_eq_of_lt hlt]
  refine ⟨hdiv, ?_, ?_⟩
  · obtain ⟨_, hget⟩ := List.getElem?_eq_some_iff.mp hc
    simp only [lowest, hmod, List.get_eq_getElem]
    exact hget
  · rw [Nat.succ_mul]
    exact Nat.add_lt_add_left hlt _

theorem read_append_singleton : A.read (cs ++ [c]) = (A.read cs).bind fun acc => A.push acc c := by
  rw [read, List.foldlM_append]
  cases h : A.read cs with
  | none => rw [read] at h; rw [h]; rfl
  | some acc =>
    rw [read] at h
    rw [h, Option.bind_some, Option.bind_eq_bind, Option.bind_some, List.foldlM_cons]
    cases A.push acc c <;> rfl

theorem read_numeral (h : v < A.radix ^ n) : A.read (A.numeral n v) = some v := by
  induction n generalizing v with
  | zero =>
    have hzero : v = 0 := Nat.lt_one_iff.mp h
    subst hzero
    rfl
  | succ n ih =>
    have hdiv : v / A.radix < A.radix ^ n :=
      Nat.div_lt_of_lt_mul (by rwa [pow_succ, Nat.mul_comm] at h)
    rw [numeral, read_append_singleton, ih hdiv, Option.bind_some, push_lowest]

theorem read_eq_some (h : A.read cs = some v) :
    v < A.radix ^ cs.length ∧ A.numeral cs.length v = cs := by
  induction cs using List.reverseRecOn generalizing v with
  | nil =>
    cases h
    exact ⟨Nat.one_pos, rfl⟩
  | append_singleton cs c ih =>
    rw [read_append_singleton] at h
    obtain ⟨acc, hacc, hpush⟩ := Option.bind_eq_some_iff.mp h
    obtain ⟨hlt, hcs⟩ := ih hacc
    obtain ⟨hdiv, hlow, hbound⟩ := push_eq_some hpush
    rw [List.length_append, List.length_singleton, numeral, hdiv, hlow, hcs, pow_succ]
    exact ⟨hbound.trans_le (Nat.mul_le_mul_right _ hlt), rfl⟩

end Reading

section Groups

variable {τ : Type}

def encodeGroup (A : Alphabet τ) (m : Nat) (q : Bytes) : List τ := A.numeral m (beNat q)

/-- Where `n` bytes have as many values as `m` symbols, a word that reads is one code. -/
theorem read_eq_some_iff_group [DecidableEq τ] {A : Alphabet τ} {n m : Nat} {cs : List τ}
    (hsize : 256 ^ n = A.radix ^ m) (hcs : cs.length = m) {q : Bytes} :
    (A.read cs).map (beBytes n) = some q ↔ q.length = n ∧ A.encodeGroup m q = cs := by
  constructor
  · intro h
    obtain ⟨v, hv, rfl⟩ := Option.map_eq_some_iff.mp h
    obtain ⟨hlt, hnum⟩ := read_eq_some hv
    rw [hcs] at hlt hnum
    refine ⟨ByteCodec.length_beBytes n v, ?_⟩
    rw [encodeGroup, ByteCodec.beNat_beBytes (hsize ▸ hlt), hnum]
  · rintro ⟨hq, rfl⟩
    have hlt : beNat q < A.radix ^ m := by
      rw [← hsize, ← hq]
      exact ByteCodec.beNat_lt q
    rw [encodeGroup, read_numeral hlt, Option.map_some, ByteCodec.beBytes_beNat_of_length hq]

end Groups

end Alphabet

end Radix
