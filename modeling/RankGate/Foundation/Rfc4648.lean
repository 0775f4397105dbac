/- Module: RankGate/Foundation/Rfc4648
   layer: foundation
   digest: Base 64 as one numeral over the whole string, and digits of any width regrouped into bytes. -/

import RankGate.Foundation.Radix

set_option autoImplicit false
set_option relaxedAutoImplicit false

namespace Rfc4648

open ByteCodec (Bytes ascii beBytes beNat)

def base64 : Radix.Alphabet UInt8 where
  symbols := ascii "ABCDEFGHIJKLMNOPQRSTUVWXYZabcdefghijklmnopqrstuvwxyz0123456789+/"
  nodup := by decide
  nonempty := by decide

@[simp] theorem radix_base64 : base64.radix = 64 := by decide

def pad : UInt8 := 0x3D

def symbolCount (n : Nat) : Nat := (8 * n + 5) / 6

def spare (n : Nat) : Nat := 6 * symbolCount n - 8 * n

def digits (b : Bytes) : Bytes :=
  base64.numeral (symbolCount b.length) (beNat b * 2 ^ spare b.length)

/-- The encoding: the digits, filled up to whole quartets. -/
def encode (b : Bytes) : Bytes :=
  digits b ++ List.replicate ((4 - symbolCount b.length % 4) % 4) pad

section Encode

variable {b : Bytes}

theorem spare_eq (n : Nat) : 6 * symbolCount n = 8 * n + spare n := by
  rw [spare, symbolCount]
  omega

theorem spare_lt (n : Nat) : spare n < 6 := by
  rw [spare, symbolCount]
  omega

theorem value_lt (b : Bytes) :
    beNat b * 2 ^ spare b.length < base64.radix ^ symbolCount b.length := by
  have hpow : 256 ^ b.length * 2 ^ spare b.length = base64.radix ^ symbolCount b.length := by
    rw [radix_base64, show 256 = 2 ^ 8 from rfl, show 64 = 2 ^ 6 from rfl, ← pow_mul, ← pow_mul,
      ← pow_add, spare_eq]
  rw [← hpow]
  exact Nat.mul_lt_mul_of_pos_right (ByteCodec.beNat_lt b) (Nat.two_pow_pos _)

theorem read_digits (b : Bytes) :
    base64.read (digits b) = some (beNat b * 2 ^ spare b.length) :=
  Radix.Alphabet.read_numeral (value_lt b)

theorem length_digits (b : Bytes) : (digits b).length = symbolCount b.length :=
  Radix.Alphabet.length_numeral

theorem encode_append {q : Bytes} (hq : q.length = 3) (b : Bytes) :
    encode (q ++ b) = base64.numeral 4 (beNat q) ++ encode b := by
  have hlen : (q ++ b).length = 3 + b.length := by rw [List.length_append, hq]
  have hcount : symbolCount (q ++ b).length = 4 + symbolCount b.length := by
    rw [hlen, symbolCount, symbolCount]
    omega
  have hspare : spare (q ++ b).length = spare b.length := by
    have hall := spare_eq (q ++ b).length
    have hrest := spare_eq b.length
    omega
  have hvalue : beNat (q ++ b) * 2 ^ spare b.length =
      beNat q * base64.radix ^ symbolCount b.length + beNat b * 2 ^ spare b.length := by
    rw [ByteCodec.beNat_append, radix_base64, show 64 = 2 ^ 6 from rfl, ← pow_mul, spare_eq,
      pow_add, pow_mul]
    ring
  have hpad : (4 - (4 + symbolCount b.length) % 4) % 4 = (4 - symbolCount b.length % 4) % 4 := by
    rw [Nat.add_mod_left]
  rw [encode, encode, digits, digits, hcount, hspare, hpad, hvalue,
    Radix.Alphabet.numeral_append (value_lt b), List.append_assoc]

end Encode

section Shift

variable {v d w : Nat}

theorem shift_div (hd : d < 2 ^ w) (n : Nat) : (v * 2 ^ w + d) / 2 ^ (n + w) = v / 2 ^ n := by
  have hlow : (v * 2 ^ w + d) / 2 ^ w = v := by
    rw [Nat.mul_comm, Nat.mul_add_div (Nat.two_pow_pos w), Nat.div_eq_of_lt hd, Nat.add_zero]
  rw [Nat.add_comm n w, pow_add, ← Nat.div_div_eq_div_mul, hlow]

theorem shift_mod (hd : d < 2 ^ w) (n : Nat) :
    (v * 2 ^ w + d) % 2 ^ (n + w) = v % 2 ^ n * 2 ^ w + d := by
  have hlow : (v * 2 ^ w + d) % 2 ^ w = d := by
    rw [Nat.mul_comm, Nat.mul_add_mod, Nat.mod_eq_of_lt hd]
  have hhigh : (v * 2 ^ w + d) / 2 ^ w = v := by
    rw [Nat.mul_comm, Nat.mul_add_div (Nat.two_pow_pos w), Nat.div_eq_of_lt hd, Nat.add_zero]
  rw [Nat.add_comm n w, pow_add, Nat.mod_mul, hlow, hhigh]
  ring

end Shift

/-! A reader of digits keeps the bits that do not make up a byte yet, fewer than eight. -/

/-- After `t` bits of value `v`: the whole bytes are out, the rest is pending. -/
structure Regrouped (t v pending : Nat) (out : Bytes) : Prop where
  pending : pending = v % 2 ^ (t % 8)
  out : out = beBytes (t / 8) (v / 2 ^ (t % 8))

namespace Regrouped

variable {t v p d w : Nat} {out : Bytes}

theorem start : Regrouped 0 0 0 [] := ⟨rfl, rfl⟩

theorem pending_lt (h : Regrouped t v p out) : p < 2 ^ (t % 8) := by
  rw [h.pending]
  exact Nat.mod_lt _ (Nat.two_pow_pos _)

theorem hold (h : Regrouped t v p out) (hd : d < 2 ^ w) (hw : t % 8 + w < 8) :
    Regrouped (t + w) (v * 2 ^ w + d) (p * 2 ^ w + d) out := by
  have hmod : (t + w) % 8 = t % 8 + w := by omega
  have hdiv : (t + w) / 8 = t / 8 := by omega
  constructor
  · rw [hmod, shift_mod hd, h.pending]
  · rw [hmod, hdiv, shift_div hd, h.out]

theorem emit (h : Regrouped t v p out) (hd : d < 2 ^ w) (hw : 8 ≤ t % 8 + w) (hw8 : w ≤ 8) :
    Regrouped (t + w) (v * 2 ^ w + d) ((p * 2 ^ w + d) % 2 ^ (t % 8 + w - 8))
      (out ++ [UInt8.ofNat ((p * 2 ^ w + d) / 2 ^ (t % 8 + w - 8))]) := by
  have hmod : (t + w) % 8 = t % 8 + w - 8 := by omega
  have hdiv : (t + w) / 8 = t / 8 + 1 := by omega
  have hsum : t % 8 + w - 8 + 8 = t % 8 + w := by omega
  have hpending : p * 2 ^ w + d = (v * 2 ^ w + d) % 2 ^ (t % 8 + w) := by
    rw [shift_mod hd, h.pending]
  generalize hx : v * 2 ^ w + d = x at hpending ⊢
  generalize hr : t % 8 + w - 8 = r at hsum hmod ⊢
  rw [hpending, ← hsum]
  constructor
  · rw [hmod, Nat.mod_mod_of_dvd _ (pow_dvd_pow 2 (Nat.le_add_right r 8))]
  · have hbyte : (x % 2 ^ (r + 8)) / 2 ^ r = x / 2 ^ r % 256 := by
      rw [show 256 = 2 ^ 8 from rfl, pow_add, Nat.mod_mul_right_div_self]
    have hhigh : x / 2 ^ r / 256 = v / 2 ^ (t % 8) := by
      rw [Nat.div_div_eq_div_mul, show 256 = 2 ^ 8 from rfl, ← pow_add, hsum, ← hx, shift_div hd]
    have hlow : UInt8.ofNat (x / 2 ^ r % 256) = UInt8.ofNat (x / 2 ^ r) := by
      apply UInt8.toNat_inj.mp
      rw [UInt8.toNat_ofNat', UInt8.toNat_ofNat', Nat.mod_mod]
    rw [hmod, hdiv, beBytes, hbyte, hlow, hhigh, h.out]

/-- The digits of an encoding give the bytes back. -/
theorem finish {b : Bytes} (h : Regrouped (6 * symbolCount b.length)
    (beNat b * 2 ^ spare b.length) p out) : out = b := by
  have hspare := spare_lt b.length
  have hmod : 6 * symbolCount b.length % 8 = spare b.length := by
    rw [spare_eq]
    omega
  have hdiv : 6 * symbolCount b.length / 8 = b.length := by
    rw [spare_eq]
    omega
  rw [h.out, hmod, hdiv, Nat.mul_div_cancel _ (Nat.two_pow_pos _), ByteCodec.beBytes_beNat]

end Regrouped

end Rfc4648
