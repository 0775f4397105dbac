/- Module: RankGate/Wire/TransportBase64
   source: client/src/crypto/base64.cpp, server/app/main.py
   digest: The client writes the standard base 64, and both decoders read it back. -/

import RankGate.Client.Base64
import RankGate.Server.Base64

set_option autoImplicit false
set_option relaxedAutoImplicit false

namespace RankGate.Wire.TransportBase64

open ByteCodec (Bytes beNat)
open Rfc4648 (Regrouped base64 symbolCount)
open RankGate.Client.Base64

section Encode

theorem kAlpha_eq : kAlpha = base64.symbols := rfl

theorem symbol_eq (n s : UInt32) (hs : s.toNat < 32) :
    symbol n s = base64.lowest (n.toNat / 2 ^ s.toNat) := by
  have hindex : ((n >>> s) &&& 63).toNat = n.toNat / 2 ^ s.toNat % 64 := by
    have hmask : (63 : UInt32).toNat = 2 ^ 6 - 1 := rfl
    rw [UInt32.toNat_and, UInt32.toNat_shiftRight, Nat.mod_eq_of_lt hs, hmask,
      Nat.and_two_pow_sub_one_eq_mod, Nat.shiftRight_eq_div_pow]
  have hlt : n.toNat / 2 ^ s.toNat % 64 < base64.symbols.length := Nat.mod_lt _ (by decide)
  rw [symbol, hindex, kAlpha_eq, List.getD_eq_getElem?_getD, List.getElem?_eq_getElem hlt,
    Option.getD_some, Radix.Alphabet.lowest, List.get_eq_getElem]
  rfl

private theorem shift_toNat (b : UInt8) {s : UInt32} (hs : s.toNat ≤ 16) :
    (b.toUInt32 <<< s).toNat = b.toNat * 2 ^ s.toNat := by
  have hb := b.toNat_lt
  have hpow : 2 ^ s.toNat ≤ 2 ^ 16 := Nat.pow_le_pow_right (by decide) hs
  have hlt : b.toNat * 2 ^ s.toNat < 2 ^ 32 :=
    calc
      b.toNat * 2 ^ s.toNat ≤ b.toNat * 2 ^ 16 := Nat.mul_le_mul_left _ hpow
      _ < 2 ^ 32 := by omega
  have hsmall : s.toNat % 32 = s.toNat := Nat.mod_eq_of_lt (by omega)
  rw [UInt32.toNat_shiftLeft, UInt8.toNat_toUInt32, hsmall, Nat.shiftLeft_eq,
    Nat.mod_eq_of_lt hlt]

private theorem or_eq_add {a b i : Nat} (h : b < 2 ^ i) : a * 2 ^ i ||| b = a * 2 ^ i + b := by
  rw [← Nat.shiftLeft_eq, Nat.shiftLeft_add_eq_or_of_lt h]

theorem pack1 (b0 : UInt8) : (b0.toUInt32 <<< 16).toNat = b0.toNat * 2 ^ 16 :=
  shift_toNat b0 (le_refl 16)

theorem pack2 (b0 b1 : UInt8) : ((b0.toUInt32 <<< 16) ||| (b1.toUInt32 <<< 8)).toNat =
    (b0.toNat * 256 + b1.toNat) * 2 ^ 8 := by
  have hlow : b1.toNat * 2 ^ 8 < 2 ^ 16 := by
    have h := b1.toNat_lt
    omega
  rw [UInt32.toNat_or, pack1, shift_toNat b1 (by decide), show (8 : UInt32).toNat = 8 from rfl,
    or_eq_add hlow]
  omega

theorem pack3 (b0 b1 b2 : UInt8) :
    ((b0.toUInt32 <<< 16) ||| (b1.toUInt32 <<< 8) ||| b2.toUInt32).toNat =
      (b0.toNat * 256 + b1.toNat) * 256 + b2.toNat := by
  have hlow : b2.toNat < 2 ^ 8 := b2.toNat_lt
  rw [UInt32.toNat_or, pack2, UInt8.toNat_toUInt32, or_eq_add hlow]
  omega

theorem numeral_two (n : UInt32) :
    base64.numeral 2 (n.toNat / 2 ^ 12) = [symbol n 18, symbol n 12] := by
  rw [symbol_eq n 18 (by decide), symbol_eq n 12 (by decide)]
  simp only [Radix.Alphabet.numeral, Rfc4648.radix_base64, Nat.div_div_eq_div_mul,
    List.nil_append, List.cons_append]
  rfl

theorem numeral_three (n : UInt32) :
    base64.numeral 3 (n.toNat / 2 ^ 6) = [symbol n 18, symbol n 12, symbol n 6] := by
  rw [Radix.Alphabet.numeral, Rfc4648.radix_base64, Nat.div_div_eq_div_mul, symbol_eq n 6 (by decide)]
  exact congrArg (· ++ _) (numeral_two n)

theorem numeral_four (n : UInt32) :
    base64.numeral 4 n.toNat = [symbol n 18, symbol n 12, symbol n 6, symbol n 0] := by
  have hlow : symbol n 0 = base64.lowest n.toNat := by
    rw [symbol_eq n 0 (by decide), show (0 : UInt32).toNat = 0 from rfl, pow_zero, Nat.div_one]
  rw [Radix.Alphabet.numeral, Rfc4648.radix_base64, hlow]
  exact congrArg (· ++ _) (numeral_three n)

/-- The three cases of the loop and its end make the numeral of the whole string. -/
theorem b64encode_eq (b : Bytes) : b64encode b = Rfc4648.encode b := by
  fun_induction b64encode b with
  | case1 b0 b1 b2 data n ih =>
    have hvalue : beNat [b0, b1, b2] = n.toNat := by
      rw [pack3]
      simp [beNat]
    have hencode : Rfc4648.encode (b0 :: b1 :: b2 :: data) =
        base64.numeral 4 (beNat [b0, b1, b2]) ++ Rfc4648.encode data :=
      Rfc4648.encode_append (q := [b0, b1, b2]) rfl data
    rw [hencode, hvalue, numeral_four, ih]
    rfl
  | case2 b0 b1 n =>
    have hvalue : beNat [b0, b1] * 2 ^ 2 = n.toNat / 2 ^ 6 := by
      rw [pack2]
      simp only [beNat, List.foldl_cons, List.foldl_nil]
      omega
    have hencode : Rfc4648.encode [b0, b1] =
        base64.numeral 3 (beNat [b0, b1] * 2 ^ 2) ++ [Rfc4648.pad] := by
      simp [Rfc4648.encode, Rfc4648.digits, Rfc4648.spare, symbolCount]
    rw [hencode, hvalue, numeral_three]
    rfl
  | case3 b0 n =>
    have hvalue : beNat [b0] * 2 ^ 4 = n.toNat / 2 ^ 12 := by
      rw [pack1]
      simp only [beNat, List.foldl_cons, List.foldl_nil]
      omega
    have hencode : Rfc4648.encode [b0] =
        base64.numeral 2 (beNat [b0] * 2 ^ 4) ++ [Rfc4648.pad, Rfc4648.pad] := by
      simp [Rfc4648.encode, Rfc4648.digits, Rfc4648.spare, symbolCount]
    rw [hencode, hvalue, numeral_two]
    rfl
  | case4 => rfl

end Encode

/-! The client's decoder. Of the accumulator only the pending low bits are ever looked at. -/

section ClientDecode

/-- After `t` bits of value `v`. -/
structure Holds (t v : Nat) (s : Decoder) : Prop where
  bits : s.bits = t % 8
  regrouped : Regrouped t v (s.buf.toNat % 2 ^ s.bits) s.out

theorem Holds.start : Holds 0 0 ⟨0, 0, []⟩ := ⟨rfl, .start⟩

private theorem symbol_facts : ∀ d : Fin 64,
    base64.symbols[d.val]?.all (fun c => c ≠ 0x3D ∧ isBlank c = false ∧
      ¬ kRev.get ⟨c.toNat, c.toNat_lt⟩ < 0 ∧
      (kRev.get ⟨c.toNat, c.toNat_lt⟩).toInt32.toUInt32.toNat = d.val) = true := by
  decide +kernel

theorem kRev_digit {c : UInt8} {d : Nat} (h : base64.digit? c = some d) :
    d < 64 ∧ c ≠ 0x3D ∧ isBlank c = false ∧ ¬ kRev.get ⟨c.toNat, c.toNat_lt⟩ < 0 ∧
      (kRev.get ⟨c.toNat, c.toNat_lt⟩).toInt32.toUInt32.toNat = d := by
  obtain ⟨hd, hc⟩ := Radix.Alphabet.digit?_eq_some.mp h
  rw [Rfc4648.radix_base64] at hd
  have hfacts := symbol_facts ⟨d, hd⟩
  rw [hc] at hfacts
  exact ⟨hd, by simpa using hfacts⟩

theorem push_buf (buf : UInt32) {v : Int8} {d bits : Nat} (hd : d < 64)
    (hv : v.toInt32.toUInt32.toNat = d) (hbits : bits < 8) :
    ((buf <<< 6) ||| v.toInt32.toUInt32).toNat % 2 ^ (bits + 6) =
      buf.toNat % 2 ^ bits * 2 ^ 6 + d := by
  have hshift : (buf <<< 6).toNat = buf.toNat % 2 ^ 26 * 2 ^ 6 := by
    rw [UInt32.toNat_shiftLeft, show (6 : UInt32).toNat % 32 = 6 from rfl, Nat.shiftLeft_eq,
      show 2 ^ 32 = 2 ^ 26 * 2 ^ 6 from rfl, Nat.mul_mod_mul_right]
  have hdvd : 2 ^ bits ∣ 2 ^ 26 := pow_dvd_pow 2 (by omega)
  rw [UInt32.toNat_or, hshift, hv, or_eq_add (show d < 2 ^ 6 from hd),
    Rfc4648.shift_mod (show d < 2 ^ 6 from hd), Nat.mod_mod_of_dvd _ hdvd]

theorem byte_eq (buf : UInt32) {r : Nat} (hr : r < 8) :
    ((buf >>> UInt32.ofNat r) &&& 0xFF).toUInt8 = UInt8.ofNat (buf.toNat % 2 ^ (r + 8) / 2 ^ r) := by
  have hcount : (UInt32.ofNat r).toNat = r :=
    UInt32.toNat_ofNat_of_lt' (lt_trans hr (by decide))
  have hsmall : r % 32 = r := Nat.mod_eq_of_lt (by omega)
  have hmask : (0xFF : UInt32).toNat = 2 ^ 8 - 1 := rfl
  apply UInt8.toNat_inj.mp
  rw [UInt32.toNat_toUInt8, UInt32.toNat_and, UInt32.toNat_shiftRight, hcount, hsmall, hmask,
    Nat.and_two_pow_sub_one_eq_mod, Nat.shiftRight_eq_div_pow, UInt8.toNat_ofNat', pow_add,
    Nat.mod_mul_right_div_self]

theorem Holds.push {t v d : Nat} {s : Decoder} {x : Int8} (h : Holds t v s) (hd : d < 64)
    (hx : x.toInt32.toUInt32.toNat = d) : Holds (t + 6) (v * 64 + d) (s.push x) := by
  obtain ⟨hbits, hr⟩ := h
  have hlt : s.bits < 8 := by omega
  have hbuf := push_buf s.buf hd hx hlt
  by_cases hemit : 8 ≤ s.bits + 6
  · have hsum : s.bits + 6 - 8 + 8 = s.bits + 6 := by omega
    have hnext := hr.emit (w := 6) hd (by omega) (by decide)
    rw [← hbits, ← hbuf] at hnext
    rw [Decoder.push, if_pos hemit]
    refine ⟨by dsimp only; omega, ?_⟩
    dsimp only
    rw [byte_eq _ (by omega), hsum]
    rwa [Nat.mod_mod_of_dvd _ (pow_dvd_pow 2 (by omega))] at hnext
  · have hnext := hr.hold (w := 6) hd (by omega)
    rw [Decoder.push, if_neg hemit]
    refine ⟨by dsimp only; omega, ?_⟩
    dsimp only
    rw [hbuf]
    exact hnext

theorem decodeLoop_filter (text : Bytes) (s : Decoder) :
    decodeLoop (text.filter fun c => !isBlank c) s = decodeLoop text s := by
  induction text generalizing s with
  | nil => rfl
  | cons c text ih =>
    by_cases hblank : isBlank c = true
    · have hne : c ≠ 0x3D := by
        rintro rfl
        exact absurd hblank (by decide)
      rw [List.filter_cons_of_neg (by simpa using hblank), ih, decodeLoop, if_neg hne,
        if_pos hblank]
    · rw [List.filter_cons_of_pos (by simpa using hblank), decodeLoop, decodeLoop, if_neg hblank,
        if_neg hblank]
      simp only [ih]

theorem decodeLoop_digits {cs : Bytes} {t v v' : Nat} {s : Decoder} (h : Holds t v s)
    (hread : cs.foldlM base64.push v = some v') (rest : Bytes) :
    ∃ s', decodeLoop (cs ++ rest) s = decodeLoop rest s' ∧ Holds (t + 6 * cs.length) v' s' := by
  induction cs generalizing t v s with
  | nil =>
    cases hread
    exact ⟨s, rfl, h⟩
  | cons c cs ih =>
    rw [List.foldlM_cons] at hread
    obtain ⟨v₁, hpush, hread⟩ := Option.bind_eq_some_iff.mp hread
    obtain ⟨d, hdigit, rfl⟩ := Option.map_eq_some_iff.mp hpush
    obtain ⟨hd, hne, hblank, hsign, hvalue⟩ := kRev_digit hdigit
    rw [Rfc4648.radix_base64] at hread
    obtain ⟨s', hloop, hs'⟩ := ih (h.push hd hvalue) hread
    refine ⟨s', ?_, ?_⟩
    · rw [List.cons_append, decodeLoop, if_neg hne, if_neg (by simp [hblank]), if_neg hsign, hloop]
    · rw [List.length_cons, Nat.mul_succ, Nat.add_comm _ 6, ← Nat.add_assoc]
      exact hs'

theorem decodeLoop_pads (n : Nat) (s : Decoder) :
    decodeLoop (List.replicate n Rfc4648.pad) s = .ok s.out := by
  cases n with
  | zero => rfl
  | succ n => rw [List.replicate_succ, decodeLoop, if_pos (show Rfc4648.pad = 0x3D from rfl)]

theorem b64decode_encode (b : Bytes) : Client.Base64.b64decode (Rfc4648.encode b) = .ok b := by
  obtain ⟨s, hloop, hs⟩ := decodeLoop_digits .start (Rfc4648.read_digits b)
    (List.replicate ((4 - symbolCount b.length % 4) % 4) Rfc4648.pad)
  rw [Nat.zero_add, Rfc4648.length_digits] at hs
  rw [Client.Base64.b64decode, Rfc4648.encode, hloop, decodeLoop_pads, hs.regrouped.finish]

end ClientDecode

/-! The server's decoder keeps the pending bits masked, and their number as a place in the quad. -/

section ServerDecode

open RankGate.Server.Base64 (Quad a2bBase64)

/-- After `k` digits of value `v`. -/
structure InQuad (k v : Nat) (q : Quad) : Prop where
  quadPos : q.quadPos = k % 4
  regrouped : Regrouped (6 * k) v q.leftchar q.out

theorem InQuad.start : InQuad 0 0 ⟨0, 0, []⟩ := ⟨rfl, .start⟩

theorem quad_byte {leftchar d r : Nat} (hd : d < 2 ^ 6) (hr : r ≤ 6) :
    (leftchar <<< (6 - r)) ||| (d >>> r) = (leftchar * 2 ^ 6 + d) / 2 ^ r := by
  have hpow : 2 ^ 6 = 2 ^ (6 - r) * 2 ^ r := by rw [← pow_add, Nat.sub_add_cancel hr]
  have hlow : d / 2 ^ r < 2 ^ (6 - r) := by
    rw [hpow] at hd
    exact Nat.div_lt_of_lt_mul (by rwa [Nat.mul_comm])
  have hsplit : leftchar * 2 ^ 6 + d = 2 ^ r * (leftchar * 2 ^ (6 - r)) + d := by
    rw [hpow]
    ring
  rw [Nat.shiftLeft_eq, Nat.shiftRight_eq_div_pow, or_eq_add hlow, hsplit,
    Nat.mul_add_div (Nat.two_pow_pos r)]

theorem quad_rest {leftchar d r : Nat} (hr : r ≤ 6) :
    d &&& (2 ^ r - 1) = (leftchar * 2 ^ 6 + d) % 2 ^ r := by
  obtain ⟨m, hm⟩ : 2 ^ r ∣ leftchar * 2 ^ 6 := (pow_dvd_pow 2 hr).mul_left leftchar
  rw [Nat.and_two_pow_sub_one_eq_mod, hm, Nat.mul_add_mod]

/-- The four places of the quad are the four counts of pending bits. -/
theorem InQuad.push {k v d : Nat} {q : Quad} (h : InQuad k v q) (hd : d < 64) :
    InQuad (k + 1) (v * 64 + d) (q.push d) := by
  obtain ⟨quadPos, leftchar, out⟩ := q
  obtain ⟨hquad, hr⟩ := h
  dsimp only at hquad hr
  have hd : d < 2 ^ 6 := hd
  have hplace : k % 4 = 0 ∨ k % 4 = 1 ∨ k % 4 = 2 ∨ k % 4 = 3 := by omega
  rcases hplace with hk | hk | hk | hk
  · have hleft := hr.pending_lt
    have hnext := hr.hold hd (by omega)
    have hpush : Quad.push ⟨0, leftchar, out⟩ d = ⟨1, d, out⟩ := rfl
    rw [show 6 * k % 8 = 0 by omega] at hleft
    rw [show leftchar = 0 by omega, Nat.zero_mul, Nat.zero_add] at hnext
    rw [hquad, hk, hpush]
    exact ⟨by dsimp only; omega, hnext⟩
  · have hnext := hr.emit hd (by omega) (by decide)
    have hpush : Quad.push ⟨1, leftchar, out⟩ d =
        ⟨2, d &&& (2 ^ 4 - 1), out ++ [UInt8.ofNat ((leftchar <<< (6 - 4)) ||| (d >>> 4))]⟩ := rfl
    rw [show 6 * k % 8 + 6 - 8 = 4 by omega, ← quad_byte hd (by decide),
      ← quad_rest (by decide)] at hnext
    rw [hquad, hk, hpush]
    exact ⟨by dsimp only; omega, hnext⟩
  · have hnext := hr.emit hd (by omega) (by decide)
    have hpush : Quad.push ⟨2, leftchar, out⟩ d =
        ⟨3, d &&& (2 ^ 2 - 1), out ++ [UInt8.ofNat ((leftchar <<< (6 - 2)) ||| (d >>> 2))]⟩ := rfl
    rw [show 6 * k % 8 + 6 - 8 = 2 by omega, ← quad_byte hd (by decide),
      ← quad_rest (by decide)] at hnext
    rw [hquad, hk, hpush]
    exact ⟨by dsimp only; omega, hnext⟩
  · have hnext := hr.emit hd (by omega) (by decide)
    have hpush : Quad.push ⟨3, leftchar, out⟩ d =
        ⟨0, 0, out ++ [UInt8.ofNat ((leftchar <<< (6 - 0)) ||| (d >>> 0))]⟩ := rfl
    rw [show 6 * k % 8 + 6 - 8 = 0 by omega, ← quad_byte hd (by decide), pow_zero,
      Nat.mod_one] at hnext
    rw [hquad, hk, hpush]
    exact ⟨by dsimp only; omega, hnext⟩

theorem a2b_digits {cs : Bytes} {k v v' : Nat} {q : Quad} (h : InQuad k v q)
    (hread : cs.foldlM base64.push v = some v') (rest : Bytes) :
    ∃ q', a2bBase64 (cs ++ rest) q 0 = a2bBase64 rest q' 0 ∧ InQuad (k + cs.length) v' q' := by
  induction cs generalizing k v q with
  | nil =>
    cases hread
    exact ⟨q, rfl, h⟩
  | cons c cs ih =>
    rw [List.foldlM_cons] at hread
    obtain ⟨v₁, hpush, hread⟩ := Option.bind_eq_some_iff.mp hread
    obtain ⟨d, hdigit, rfl⟩ := Option.map_eq_some_iff.mp hpush
    obtain ⟨hd, hne, -⟩ := kRev_digit hdigit
    rw [Rfc4648.radix_base64] at hread
    obtain ⟨q', hloop, hq'⟩ := ih (h.push hd) hread
    refine ⟨q', ?_, ?_⟩
    · rw [List.cons_append, a2bBase64, if_neg (by exact hne), hdigit]
      exact hloop
    · rw [List.length_cons, Nat.add_comm cs.length, ← Nat.add_assoc]
      exact hq'

theorem a2b_pads {n v : Nat} {q : Quad} (h : InQuad (symbolCount n) v q) :
    a2bBase64 (List.replicate ((4 - symbolCount n % 4) % 4) Rfc4648.pad) q 0 = .ok q.out := by
  have hquad := h.quadPos
  have hcases : symbolCount n % 4 = 0 ∨ symbolCount n % 4 = 2 ∨ symbolCount n % 4 = 3 := by
    rw [symbolCount]
    omega
  rcases hcases with hn | hn | hn
  all_goals
    rw [hn] at hquad ⊢
    simp [a2bBase64, hquad, List.replicate]

theorem server_b64decode_encode (b : Bytes) :
    Server.Base64.b64decode (Rfc4648.encode b) = .ok b := by
  obtain ⟨q, hloop, hq⟩ := a2b_digits .start (Rfc4648.read_digits b)
    (List.replicate ((4 - symbolCount b.length % 4) % 4) Rfc4648.pad)
  rw [Nat.zero_add, Rfc4648.length_digits] at hq
  rw [Server.Base64.b64decode, Rfc4648.encode, hloop, a2b_pads hq, hq.regrouped.finish]

end ServerDecode

/-- The client's encoder is the standard one, the server reads it, and so does the client, with
blanks put in anywhere. -/
theorem transport_base64 (b : Bytes) :
    b64encode b = Rfc4648.encode b ∧
      Server.Base64.b64decode (b64encode b) = .ok b ∧
      ∀ text : Bytes, (text.filter fun c => !isBlank c) = b64encode b →
        Client.Base64.b64decode text = .ok b := by
  rw [b64encode_eq]
  refine ⟨rfl, server_b64decode_encode b, ?_⟩
  intro text htext
  rw [Client.Base64.b64decode, ← decodeLoop_filter, htext]
  exact b64decode_encode b

end RankGate.Wire.TransportBase64
