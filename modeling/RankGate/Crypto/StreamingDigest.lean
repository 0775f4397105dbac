/- Module: RankGate/Crypto/StreamingDigest
   source: client/src/crypto/crypto.cpp (Blake2b, blake2b)
   digest: The client's streaming BLAKE2b is the one-shot function of RFC 7693, for every input. -/

import RankGate.Client.Blake2b
import RankGate.Foundation.Rfc7693

set_option autoImplicit false
set_option relaxedAutoImplicit false

namespace RankGate.Crypto.StreamingDigest

open ByteCodec (Bytes zeros)
open RankGate.Client
open Rfc7693 (Chain Word Work put pad words leNat leBytes output)
open Text (slices slices_append slices_induction slices_nil slices_of_le)

section Compression

def view {n : Nat} (v : Vector UInt64 n) : Vector Word n := v.map UInt64.toBitVec

@[simp] theorem getElem_view {n : Nat} (v : Vector UInt64 n) {i : Nat} (h : i < n) :
    (view v)[i] = v[i].toBitVec := by simp [view]

theorem toBitVec_getElem {n : Nat} (v : Vector UInt64 n) {i : Nat} (h : i < n) :
    v[i].toBitVec = Rfc7693.entry (view v) i := by
  rw [Rfc7693.entry_eq _ h, getElem_view]

theorem view_set {n : Nat} (v : Vector UInt64 n) {i : Nat} (h : i < n) (x : UInt64) :
    view (v.set i x) = put (view v) i x.toBitVec := by
  apply Vector.ext
  intro j hj
  rw [getElem_view, Vector.getElem_set, Rfc7693.getElem_put, getElem_view]
  split_ifs <;> rfl

theorem view_kIV : view Blake2b.kIV = Rfc7693.iv := by decide +kernel

theorem rotr64_toBitVec (x n : UInt64) (hpos : 0 < n.toNat) (h : n.toNat < 64) :
    (Blake2b.rotr64 x n).toBitVec = x.toBitVec.rotateRight n.toNat := by
  have hsub : (64 - n).toNat = 64 - n.toNat := by
    rw [UInt64.toNat_sub_of_le _ _ (UInt64.le_iff_toNat_le.mpr h.le)]
    rfl
  rw [Blake2b.rotr64, BitVec.rotateRight_def, Nat.mod_eq_of_lt h, UInt64.toBitVec_or,
    UInt64.toBitVec_shiftRight, UInt64.toBitVec_shiftLeft, BitVec.ushiftRight_eq',
    BitVec.shiftLeft_eq', BitVec.toNat_umod, BitVec.toNat_umod]
  congr 2
  · exact Nat.mod_eq_of_lt h
  · change (64 - n).toNat % 64 = _
    rw [hsub, Nat.mod_eq_of_lt (by omega)]

theorem rotr64_amounts (x : UInt64) : (Blake2b.rotr64 x 32).toBitVec = x.toBitVec.rotateRight 32 ∧
    (Blake2b.rotr64 x 24).toBitVec = x.toBitVec.rotateRight 24 ∧
    (Blake2b.rotr64 x 16).toBitVec = x.toBitVec.rotateRight 16 ∧
    (Blake2b.rotr64 x 63).toBitVec = x.toBitVec.rotateRight 63 :=
  ⟨rotr64_toBitVec x 32 (by decide) (by decide), rotr64_toBitVec x 24 (by decide) (by decide),
    rotr64_toBitVec x 16 (by decide) (by decide), rotr64_toBitVec x 63 (by decide) (by decide)⟩

theorem mixG_view {a b c d : Fin 16} (h : [a.val, b.val, c.val, d.val].Nodup) (x y : UInt64)
    (v : Vector UInt64 16) : view (Blake2b.mixG a b c d x y v) =
      Rfc7693.mixing (view v) a b c d x.toBitVec y.toBitVec := by
  have hrot (z : UInt64) := rotr64_amounts z
  have hentry (e : Fin 16) (w : Work) := Rfc7693.entry_eq w e.isLt
  simp only [List.nodup_cons, List.mem_cons, List.not_mem_nil, or_false, not_or] at h
  obtain ⟨⟨hab, hac, had⟩, ⟨hbc, hbd⟩, hcd, -⟩ := h
  apply Vector.ext
  intro i hi
  simp only [Blake2b.mixG, Rfc7693.mixing, view_set, Rfc7693.getElem_put, hentry, Fin.getElem_fin,
    getElem_view, UInt64.toBitVec_add, UInt64.toBitVec_xor, hrot, hab, hac, had, hbc, hbd, hcd,
    Ne.symm hab, Ne.symm hac, Ne.symm had, Ne.symm hbc, Ne.symm hbd, Ne.symm hcd, if_true,
    if_false]
  split_ifs <;> first | rfl | omega

def row (s : Vector (Fin 16) 16) : List Nat := s.toList.map Fin.val

theorem scheduled_view (m : Vector UInt64 16) (s : Vector (Fin 16) 16) {i : Nat} (h : i < 16) :
    Rfc7693.scheduled (view m) (row s) i = m[s[i]].toBitVec := by
  have hrow : (row s).getD i 0 = s[i].val := by simp [row, h]
  rw [Rfc7693.scheduled, hrow, Rfc7693.entry_eq _ s[i].isLt, getElem_view]
  rfl

theorem round_view (m v : Vector UInt64 16) (s : Vector (Fin 16) 16) :
    view (Blake2b.round m v s) = Rfc7693.round (view m) (view v) (row s) := by
  simp (disch := decide) only [Blake2b.round, Rfc7693.round, mixG_view, scheduled_view]
  rfl

theorem kSigma_eq : Blake2b.kSigma.map row =
    (List.range 12).map fun i => Rfc7693.sigma.getD (i % 10) [] := by
  decide

theorem rounds_view (m v : Vector UInt64 16) :
    view (Blake2b.kSigma.foldl (Blake2b.round m) v) =
      (List.range 12).foldl
        (fun v i => Rfc7693.round (view m) v (Rfc7693.sigma.getD (i % 10) [])) (view v) := by
  have hrows (rows : List (Vector (Fin 16) 16)) : view (rows.foldl (Blake2b.round m) v) =
      (rows.map row).foldl (Rfc7693.round (view m)) (view v) := by
    induction rows generalizing v with
    | nil => rfl
    | cons s rows ih => rw [List.foldl_cons, ih, round_view, List.map_cons, List.foldl_cons]
  rw [hrows, kSigma_eq, List.foldl_map]

theorem leNat_lt (b : Bytes) : leNat b < 256 ^ b.length := by
  induction b with
  | nil => exact Nat.one_pos
  | cons x b ih =>
    have hx : x.toNat < 256 := x.toNat_lt
    change x.toNat + 256 * leNat b < 256 ^ (b.length + 1)
    rw [pow_succ]
    omega

theorem foldr_toNat (b : Bytes) (h : b.length ≤ 8) :
    (b.foldr (fun x (w : UInt64) => (w <<< 8) ||| x.toUInt64) 0).toNat = leNat b := by
  induction b with
  | nil => rfl
  | cons x b ih =>
    rw [List.length_cons] at h
    have hlow := ih (by omega)
    have hlt := leNat_lt b
    have hpow : (256 : Nat) ^ b.length ≤ 256 ^ 7 := Nat.pow_le_pow_right (by decide) (by omega)
    have hx : x.toNat < 2 ^ 8 := x.toNat_lt
    rw [List.foldr_cons, UInt64.toNat_or, UInt64.toNat_shiftLeft, hlow, UInt8.toNat_toUInt64]
    change leNat b <<< 8 % 2 ^ 64 ||| x.toNat = x.toNat + 256 * leNat b
    rw [Nat.mod_eq_of_lt (by rw [Nat.shiftLeft_eq]; omega), ← Nat.shiftLeft_add_eq_or_of_lt hx,
      Nat.shiftLeft_eq]
    omega

theorem words_view (block : Bytes) :
    view (Vector.ofFn fun i : Fin 16 => Blake2b.loadWord block i) = words block := by
  apply Vector.ext
  intro i hi
  rw [getElem_view, Vector.getElem_ofFn, words, Vector.getElem_ofFn]
  apply BitVec.eq_of_toNat_eq
  have hword : (Blake2b.loadWord block i).toNat = leNat ((block.drop (8 * i)).take 8) := by
    rw [Blake2b.loadWord, foldr_toNat _ (List.length_take_le _ _), Nat.mul_comm]
  rw [UInt64.toNat_toBitVec, hword, BitVec.toNat_ofNat, Nat.mod_eq_of_lt]
  rw [← hword]
  exact UInt64.toNat_lt _

/-- The two counter words hold a number of bytes, modulo 2^128. -/
structure Counts (st : Blake2b) (t : Nat) : Prop where
  low : st.t0.toNat = t % 2 ^ 64
  high : st.t1.toNat = t / 2 ^ 64 % 2 ^ 64

theorem Counts.inc {st : Blake2b} {t : Nat} (h : Counts st t) {n : UInt64} :
    Counts (st.inc n) (t + n.toNat) := by
  have hword : (2 : Nat) ^ 64 = 18446744073709551616 := by decide
  have hlow := h.low
  have hhigh := h.high
  have hn := n.toNat_lt
  have hsum : (st.t0 + n).toNat = (st.t0.toNat + n.toNat) % 2 ^ 64 := UInt64.toNat_add _ _
  have hcarry : st.t0 + n < n ↔ 2 ^ 64 ≤ st.t0.toNat + n.toNat := by
    have ht0 := st.t0.toNat_lt
    rw [UInt64.lt_iff_toNat_lt, hsum]
    omega
  rw [hword] at hlow hhigh hn hsum hcarry
  constructor
  · change (st.t0 + n).toNat = _
    rw [hsum, hlow]
    omega
  · change (if st.t0 + n < n then st.t1 + 1 else st.t1).toNat = _
    rw [hword]
    by_cases hc : st.t0 + n < n
    · have hwrap := hcarry.mp hc
      have hdiv : (t + n.toNat) / 18446744073709551616 = t / 18446744073709551616 + 1 := by omega
      have hone : (st.t1 + 1).toNat = (st.t1.toNat + 1) % 2 ^ 64 := UInt64.toNat_add _ _
      rw [if_pos hc, hone, hword, hhigh, hdiv, Nat.mod_add_mod]
    · have hfit := mt hcarry.mpr hc
      have hdiv : (t + n.toNat) / 18446744073709551616 = t / 18446744073709551616 := by omega
      rw [if_neg hc, hhigh, hdiv]

theorem compress_view {st : Blake2b} {t : Nat} (h : Counts st t) (block : Bytes) (last : Bool) :
    view (st.compress block last).h = Rfc7693.compress (view st.h) (words block) t last := by
  have hlow : st.t0.toBitVec = BitVec.ofNat 64 t := by
    apply BitVec.eq_of_toNat_eq
    rw [UInt64.toNat_toBitVec, BitVec.toNat_ofNat, h.low]
  have hhigh : st.t1.toBitVec = BitVec.ofNat 64 (t / 2 ^ 64) := by
    apply BitVec.eq_of_toNat_eq
    rw [UInt64.toNat_toBitVec, BitVec.toNat_ofNat, h.high]
  have happend : view (st.h ++ Blake2b.kIV) = view st.h ++ Rfc7693.iv := by
    rw [← view_kIV, view, Vector.map_append]
    rfl
  have hones : (0xFFFFFFFFFFFFFFFF : UInt64).toBitVec = 0xFFFFFFFFFFFFFFFF := rfl
  apply Vector.ext
  intro i hi
  rw [getElem_view, Blake2b.compress, Rfc7693.compress]
  cases last <;>
  simp only [Vector.getElem_mapFinIdx, Vector.getElem_ofFn, UInt64.toBitVec_xor, toBitVec_getElem,
    rounds_view, words_view, view_set, happend, hlow, hhigh, hones, if_true, if_false,
    Bool.false_eq_true, BitVec.xor_assoc, Nat.add_comm]

end Compression

/-! Streaming: the buffer is compressed when the next byte arrives. -/

section Streaming

variable {st : Blake2b} {a r : Bytes}

theorem shift_toUInt8 (x : UInt64) {j : Nat} (hj : j < 8) :
    (x >>> UInt64.ofNat (8 * j)).toUInt8 = UInt8.ofNat (x.toBitVec >>> (8 * j)).toNat := by
  have hshift : (UInt64.ofNat (8 * j)).toNat = 8 * j :=
    UInt64.toNat_ofNat_of_lt' (by change 8 * j < 2 ^ 64; omega)
  apply UInt8.toNat_inj.mp
  rw [UInt64.toNat_toUInt8, UInt64.toNat_shiftRight, hshift,
    Nat.mod_eq_of_lt (show 8 * j < 64 by omega), UInt8.toNat_ofNat', BitVec.toNat_ushiftRight,
    UInt64.toNat_toBitVec]

theorem output_view (h : Vector UInt64 8) {size : Nat} (hsize : size ≤ 64) :
    (List.range size).map (fun i =>
      (h.toList.getD (i / 8) 0 >>> UInt64.ofNat (8 * (i % 8))).toUInt8) =
        output (view h) size := by
  have hfull : (List.range 64).map (fun i =>
      (h.toList.getD (i / 8) 0 >>> UInt64.ofNat (8 * (i % 8))).toUInt8) =
        (view h).toList.flatMap leBytes := by
    have hrange : List.range 64 = (List.range 8).flatMap fun i => (List.range 8).map (8 * i + ·) := by
      decide
    have hwords : (view h).toList = (List.range 8).map fun i => (h.toList.getD i 0).toBitVec := by
      apply List.ext_getElem
      · simp
      · intro i hi hi'
        have hlt : i < 8 := by simpa using hi
        simp [view, hlt]
    rw [hrange, List.map_flatMap, hwords, List.flatMap_map]
    refine List.flatMap_congr fun i _ => ?_
    rw [leBytes, List.map_map]
    refine List.map_congr_left fun j hj => ?_
    rw [List.mem_range] at hj
    have hdiv : (8 * i + j) / 8 = i := by omega
    have hmod : (8 * i + j) % 8 = j := by omega
    rw [Function.comp_apply, hdiv, hmod, shift_toUInt8 _ hj]
  rw [output, ← hfull, ← List.map_take, List.take_range, Nat.min_eq_left hsize]

/-- The chain value after the blocks of a stream, the last of them padded and flagged. -/
def digestFrom (h : Chain) (k : Nat) (s : Bytes) : Chain :=
  Rfc7693.compress (Rfc7693.chain h ((slices 128 s).map pad).dropLast k)
    (words (((slices 128 s).map pad).getLastD (zeros 128))) (128 * k + s.length) true

theorem pad_of_length (h : a.length = 128) : pad a = a := by
  rw [pad, h, Nat.sub_self]
  exact List.append_nil a

theorem digestFrom_append (h : Chain) (k : Nat) (ha : a.length = 128) (hr : r ≠ []) :
    digestFrom h k (a ++ r) =
      digestFrom (Rfc7693.compress h (words a) (128 * (k + 1)) false) (k + 1) r := by
  have hslices : slices 128 r ≠ [] := by
    intro hnil
    have hflat := Text.flatten_slices (by decide : 0 < 128) r
    rw [hnil] at hflat
    exact hr hflat.symm
  obtain ⟨b, l, hcons⟩ := List.exists_cons_of_ne_nil hslices
  have hchain : Rfc7693.chain h ((slices 128 (a ++ r)).map pad).dropLast k =
      Rfc7693.chain (Rfc7693.compress h (words a) (128 * (k + 1)) false)
        ((slices 128 r).map pad).dropLast (k + 1) := by
    rw [slices_append (by decide) ha, hcons, List.map_cons, List.map_cons, List.dropLast_cons_cons,
      pad_of_length ha, Rfc7693.chain, List.zipIdx_cons, List.foldl_cons, Nat.mul_comm 128]
    rfl
  have hlast : ((slices 128 (a ++ r)).map pad).getLastD (zeros 128) =
      ((slices 128 r).map pad).getLastD (zeros 128) := by
    rw [slices_append (by decide) ha, hcons]
    rfl
  have htotal : 128 * k + (a ++ r).length = 128 * (k + 1) + r.length := by
    rw [List.length_append]
    omega
  rw [digestFrom, hchain, hlast, htotal, digestFrom]

/-- What the client makes of a stream, from a state that has compressed `k` blocks. -/
theorem final_update (s : Bytes) (k : Nat) (hbuf : st.buf = []) (hcount : Counts st (128 * k))
    (hout : st.outlen ≤ 64) : (st.update s).final = output (digestFrom (view st.h) k s) st.outlen := by
  induction s using slices_induction (n := 128) (by decide) generalizing st k with
  | short s hs =>
    have hlast : ((slices 128 s).map pad).dropLast = [] ∧
        ((slices 128 s).map pad).getLastD (zeros 128) = pad s := by
      by_cases hne : s = []
      · subst hne
        rw [slices_nil (by decide)]
        exact ⟨rfl, rfl⟩
      · rw [slices_of_le hne hs]
        exact ⟨rfl, rfl⟩
    have hroom : st.update s = { st with buf := s } := by
      have hupdate : st.update s = { st with buf := st.buf ++ s } :=
        Blake2b.update_of_room (by rw [hbuf]; simpa using hs)
      rw [hupdate, hbuf, List.nil_append]
    have hlen : (UInt64.ofNat s.length).toNat = s.length :=
      UInt64.toNat_ofNat_of_lt' (by change s.length < 2 ^ 64; omega)
    have hcount' : Counts (Blake2b.inc { st with buf := s } (UInt64.ofNat s.length))
        (128 * k + s.length) := by
      have hfilled : Counts { st with buf := s } (128 * k) := ⟨hcount.low, hcount.high⟩
      have hinc := hfilled.inc (n := UInt64.ofNat s.length)
      rwa [hlen] at hinc
    rw [hroom, Blake2b.final, output_view _ hout, compress_view hcount', digestFrom, hlast.1, hlast.2]
    rfl
  | long a r ha hr ih =>
    have hfill : st.update a = { st with buf := a } := by
      have hupdate : st.update a = { st with buf := st.buf ++ a } :=
        Blake2b.update_of_room (by rw [hbuf]; simpa using ha.le)
      rw [hupdate, hbuf, List.nil_append]
    have hfilled : Counts { st with buf := a } (128 * k) := ⟨hcount.low, hcount.high⟩
    have hcount' : Counts (Blake2b.inc { st with buf := a } 128) (128 * (k + 1)) := hfilled.inc
    have hrest : (Blake2b.update
          { (Blake2b.inc { st with buf := a } 128).compress a false with buf := [] } r).final =
        output (digestFrom (view ((Blake2b.inc { st with buf := a } 128).compress a false).h)
          (k + 1) r) st.outlen :=
      ih (k + 1) rfl ⟨hcount'.low, hcount'.high⟩ hout
    rw [Blake2b.update_append, hfill, Blake2b.update_of_full ha hr, hrest, compress_view hcount',
      digestFrom_append _ _ ha hr]
    rfl

theorem init_counts (size keylen : Nat) : Counts (Blake2b.init size keylen) (128 * 0) :=
  ⟨rfl, rfl⟩

theorem init_view (size keylen : Nat) :
    view (Blake2b.init size keylen).h = Rfc7693.start keylen size := by
  rw [Blake2b.init, view_set, view_kIV, Rfc7693.start]
  simp only [UInt64.toBitVec_xor, UInt64.toBitVec_shiftLeft, BitVec.xor_assoc, toBitVec_getElem,
    view_kIV]
  rfl

theorem digestFrom_start (data key : Bytes) (h : Chain) (hkey : key.length ≤ 64) :
    digestFrom h 0 ((if key = [] then [] else pad key) ++ data) =
      Rfc7693.compress (Rfc7693.chain h (Rfc7693.blocks data key).dropLast 0)
        (words ((Rfc7693.blocks data key).getLastD (zeros 128)))
        (if key = [] then data.length else data.length + 128) true := by
  by_cases hk : key = []
  · simp only [hk, if_true, List.nil_append, Rfc7693.blocks]
    by_cases hdata : (slices 128 data).map pad = []
    · rw [digestFrom, hdata, if_pos rfl, Nat.mul_zero, Nat.zero_add]
      rfl
    · rw [digestFrom, if_neg hdata, Nat.mul_zero, Nat.zero_add]
  · have hlen : (pad key).length = 128 := by
      rw [pad, List.length_append, ByteCodec.length_zeros]
      omega
    have hslices : (slices 128 (pad key ++ data)).map pad = pad key :: (slices 128 data).map pad := by
      rw [slices_append (by decide) hlen, List.map_cons, pad_of_length hlen]
    have htotal : 128 * 0 + (pad key ++ data).length = data.length + 128 := by
      rw [List.length_append, hlen]
      omega
    simp only [hk, if_false, Rfc7693.blocks, List.singleton_append, List.cons_ne_nil]
    rw [digestFrom, hslices, htotal]

end Streaming

/-- The client's BLAKE2b is that of RFC 7693 for every message, key and digest size, and what it
makes of an input does not depend on how the input is cut into updates. -/
theorem blake2b_is_rfc7693 :
    (∀ data key size, key.length ≤ 64 → 1 ≤ size → size ≤ 64 →
      Blake2b.blake2b data key size = .ok (Rfc7693.blake2b data key size)) ∧
    ∀ (st : Blake2b) (a b : Bytes), ((st.update a).update b).final = (st.update (a ++ b)).final := by
  refine ⟨fun data key size hkey hpos hsize => ?_, fun st a b => ?_⟩
  · have hstream : (if key = [] then Blake2b.init size key.length
        else (Blake2b.init size key.length).update (key ++ zeros (128 - key.length))).update data =
          (Blake2b.init size key.length).update ((if key = [] then [] else pad key) ++ data) := by
      split_ifs
      · rw [List.nil_append]
      · exact (Blake2b.update_append _ (pad key) data).symm
    have hfinal : ((Blake2b.init size key.length).update
        ((if key = [] then [] else pad key) ++ data)).final = _ :=
      final_update _ 0 rfl (init_counts size key.length) hsize
    rw [Blake2b.blake2b, if_neg (by omega), if_neg (by omega)]
    simp only [hstream, hfinal, init_view, digestFrom_start data key _ hkey]
    rfl
  · rw [Blake2b.update_append]

/-- The keyed vector of the self-test. -/
theorem blake2b_is_rfc7693_vector :
    Blake2b.blake2b (ByteCodec.ascii "the quick brown fox") ((List.range 32).map UInt8.ofNat) 4 =
      .ok [0xc8, 0xb2, 0x8f, 0xa8] := by
  rw [blake2b_is_rfc7693.1 _ _ _ (by decide) (by decide) (by decide)]
  decide +kernel

end RankGate.Crypto.StreamingDigest
