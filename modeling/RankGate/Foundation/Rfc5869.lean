/- Module: RankGate/Foundation/Rfc5869
   layer: foundation
   digest: HKDF-Expand of RFC 5869 over any MAC, and chains derived with given counter octets. -/

import RankGate.Foundation.BlockStream
import RankGate.Foundation.ByteCodec

set_option autoImplicit false
set_option relaxedAutoImplicit false

namespace Rfc5869

open ByteCodec (Bytes)
open BlockStream (blocks cover stream)

variable (mac : Bytes → Bytes) (info : Bytes)

/-- `T(i)`; the octet is the number itself up to 255. -/
def t : Nat → Bytes
  | 0 => []
  | i + 1 => mac (t i ++ info ++ [UInt8.ofNat (i + 1)])

/-- The first octets of `T(1) || T(2) || ...`; nothing past 255 blocks. -/
def expand (hashLen length : Nat) : Option Bytes :=
  if length ≤ 255 * hashLen then some (stream (fun i => t mac info (i + 1)) hashLen length)
  else none

/-- The chain of blocks that takes these octets in turn, after the block `prev`. -/
def derive (prev : Bytes) : List UInt8 → Bytes
  | [] => []
  | c :: cs =>
    let next := mac (prev ++ info ++ [c])
    next ++ derive next cs

def octets (first n : Nat) : List UInt8 := (List.range' first n).map UInt8.ofNat

theorem octets_succ (first n : Nat) :
    octets first (n + 1) = UInt8.ofNat first :: octets (first + 1) n := by
  rw [octets, List.range'_succ, List.map_cons]
  rfl

theorem derive_octets (i n : Nat) :
    derive mac info (t mac info i) (octets (i + 1) n) =
      blocks (fun j => t mac info (j + 1)) i n := by
  induction n generalizing i with
  | zero => rfl
  | succ n ih =>
    have hnext : mac (t mac info i ++ info ++ [UInt8.ofNat (i + 1)]) = t mac info (i + 1) := rfl
    rw [octets_succ, derive, BlockStream.blocks_head, hnext, ih]

theorem octets_exact {first n : Nat} (h : first + n ≤ 256) :
    (octets first n).map UInt8.toNat = List.range' first n := by
  have hid : ∀ i ∈ List.range' first n, (UInt8.toNat ∘ UInt8.ofNat) i = id i := by
    intro i hi
    rw [List.mem_range'_1] at hi
    rw [Function.comp_apply, UInt8.toNat_ofNat', Nat.mod_eq_of_lt (by omega)]
    rfl
  rw [octets, List.map_map, List.map_congr_left hid, List.map_id]

end Rfc5869
