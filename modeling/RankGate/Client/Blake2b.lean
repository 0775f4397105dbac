/- Module: RankGate/Client/Blake2b
   source: client/src/crypto/crypto.cpp (Blake2b, blake2b)
   digest: The self-contained BLAKE2b of the client, byte by byte as it buffers its input. -/

import RankGate.Crypto.Primitives

set_option autoImplicit false
set_option relaxedAutoImplicit false

namespace RankGate.Client

open ByteCodec (Bytes zeros)
open RankGate.Crypto (Hashes)

/-- `buf` holds the first `buflen` bytes of the C++ buffer. -/
structure Blake2b where
  h : Vector UInt64 8
  t0 : UInt64
  t1 : UInt64
  buf : Bytes
  outlen : Nat
  deriving DecidableEq

namespace Blake2b

def kIV : Vector UInt64 8 :=
  #v[0x6a09e667f3bcc908, 0xbb67ae8584caa73b, 0x3c6ef372fe94f82b, 0xa54ff53a5f1d36f1,
    0x510e527fade682d1, 0x9b05688c2b3e6c1f, 0x1f83d9abfb41bd6b, 0x5be0cd19137e2179]

def kSigma : List (Vector (Fin 16) 16) :=
  [#v[0, 1, 2, 3, 4, 5, 6, 7, 8, 9, 10, 11, 12, 13, 14, 15],
   #v[14, 10, 4, 8, 9, 15, 13, 6, 1, 12, 0, 2, 11, 7, 5, 3],
   #v[11, 8, 12, 0, 5, 2, 15, 13, 10, 14, 3, 6, 7, 1, 9, 4],
   #v[7, 9, 3, 1, 13, 12, 11, 14, 2, 6, 5, 10, 4, 0, 15, 8],
   #v[9, 0, 5, 7, 2, 4, 10, 15, 14, 1, 11, 12, 6, 8, 3, 13],
   #v[2, 12, 6, 10, 0, 11, 8, 3, 4, 13, 7, 5, 15, 14, 1, 9],
   #v[12, 5, 1, 15, 14, 13, 4, 10, 0, 7, 6, 3, 9, 2, 8, 11],
   #v[13, 11, 7, 14, 12, 1, 3, 9, 5, 0, 15, 4, 8, 6, 2, 10],
   #v[6, 15, 14, 9, 11, 3, 0, 8, 12, 2, 13, 7, 1, 4, 10, 5],
   #v[10, 2, 8, 4, 7, 6, 1, 5, 15, 11, 9, 14, 3, 12, 13, 0],
   #v[0, 1, 2, 3, 4, 5, 6, 7, 8, 9, 10, 11, 12, 13, 14, 15],
   #v[14, 10, 4, 8, 9, 15, 13, 6, 1, 12, 0, 2, 11, 7, 5, 3]]

def rotr64 (x n : UInt64) : UInt64 := (x >>> n) ||| (x <<< (64 - n))

def loadWord (block : Bytes) (i : Nat) : UInt64 :=
  ((block.drop (i * 8)).take 8).foldr (fun b w => (w <<< 8) ||| b.toUInt64) 0

/-- The lambda `G`; its four indices are distinct. -/
def mixG (a b c d : Fin 16) (x y : UInt64) (v : Vector UInt64 16) : Vector UInt64 16 :=
  let va := v[a] + v[b] + x
  let vd := rotr64 (v[d] ^^^ va) 32
  let vc := v[c] + vd
  let vb := rotr64 (v[b] ^^^ vc) 24
  let va := va + vb + y
  let vd := rotr64 (vd ^^^ va) 16
  let vc := vc + vd
  let vb := rotr64 (vb ^^^ vc) 63
  (((v.set a va).set b vb).set c vc).set d vd

def round (m : Vector UInt64 16) (v : Vector UInt64 16) (s : Vector (Fin 16) 16) :
    Vector UInt64 16 :=
  let v := mixG 0 4 8 12 m[s[0]] m[s[1]] v
  let v := mixG 1 5 9 13 m[s[2]] m[s[3]] v
  let v := mixG 2 6 10 14 m[s[4]] m[s[5]] v
  let v := mixG 3 7 11 15 m[s[6]] m[s[7]] v
  let v := mixG 0 5 10 15 m[s[8]] m[s[9]] v
  let v := mixG 1 6 11 12 m[s[10]] m[s[11]] v
  let v := mixG 2 7 8 13 m[s[12]] m[s[13]] v
  mixG 3 4 9 14 m[s[14]] m[s[15]] v

def compress (st : Blake2b) (block : Bytes) (last : Bool) : Blake2b :=
  let v := st.h ++ kIV
  let v := v.set 12 (v[12] ^^^ st.t0)
  let v := v.set 13 (v[13] ^^^ st.t1)
  let v := if last then v.set 14 (v[14] ^^^ 0xFFFFFFFFFFFFFFFF) else v
  let m := Vector.ofFn fun i : Fin 16 => loadWord block i
  let v := kSigma.foldl (round m) v
  { st with h := st.h.mapFinIdx fun i x _ => x ^^^ (v[i] ^^^ v[8 + i]) }

def inc (st : Blake2b) (n : UInt64) : Blake2b :=
  let t0 := st.t0 + n
  { st with t0, t1 := if t0 < n then st.t1 + 1 else st.t1 }

def init (out keylen : Nat) : Blake2b where
  h := kIV.set 0 (kIV[0] ^^^
    ((0x01010000 : UInt64) ^^^ (UInt64.ofNat keylen <<< 8) ^^^ UInt64.ofNat out))
  t0 := 0
  t1 := 0
  buf := []
  outlen := out

/-- One pass of the loop of `update`: a full buffer is compressed when the next byte arrives. -/
def push (st : Blake2b) (b : UInt8) : Blake2b :=
  if st.buf.length = 128 then { (st.inc 128).compress st.buf false with buf := [b] }
  else { st with buf := st.buf ++ [b] }

def update (st : Blake2b) (input : Bytes) : Blake2b := input.foldl push st

def final (st : Blake2b) : Bytes :=
  let last := (st.inc (UInt64.ofNat st.buf.length)).compress
    (st.buf ++ zeros (128 - st.buf.length)) true
  (List.range st.outlen).map fun i =>
    (last.h.toList.getD (i / 8) 0 >>> UInt64.ofNat (8 * (i % 8))).toUInt8

def blake2b (data key : Bytes) (outLen : Nat) : Except String Bytes :=
  if outLen < 1 ∨ 64 < outLen then .error "blake2b out_len"
  else if 64 < key.length then .error "blake2b key too long"
  else
    let st := init outLen key.length
    let st := if key = [] then st else st.update (key ++ zeros (128 - key.length))
    .ok (st.update data).final

section Short

variable {st : Blake2b} {input data key : Bytes} {size : Nat}

@[simp] theorem length_final (st : Blake2b) : st.final.length = st.outlen := by
  simp [final]

theorem outlen_push (st : Blake2b) (b : UInt8) : (st.push b).outlen = st.outlen := by
  unfold push
  split_ifs <;> rfl

@[simp] theorem outlen_update (st : Blake2b) (input : Bytes) :
    (st.update input).outlen = st.outlen := by
  induction input generalizing st with
  | nil => rfl
  | cons b input ih => exact (ih (st.push b)).trans (outlen_push st b)

theorem length_blake2b {digest : Bytes} (h : blake2b data key size = .ok digest) :
    digest.length = size := by
  unfold blake2b at h
  split_ifs at h with hsize hkey hempty <;> cases h <;>
    simp only [length_final, outlen_update] <;> rfl

theorem update_of_room (h : st.buf.length + input.length ≤ 128) :
    st.update input = { st with buf := st.buf ++ input } := by
  induction input generalizing st with
  | nil => rw [List.append_nil]; rfl
  | cons b input ih =>
    rw [List.length_cons] at h
    have hroom : st.push b = { st with buf := st.buf ++ [b] } := if_neg (by omega)
    have hnext : (st.push b).buf.length + input.length ≤ 128 := by
      rw [hroom, List.length_append, List.length_singleton]
      omega
    change (st.push b).update input = _
    rw [ih hnext, hroom, List.append_assoc]
    rfl

theorem update_append (st : Blake2b) (a r : Bytes) : st.update (a ++ r) = (st.update a).update r :=
  List.foldl_append

theorem update_of_full (hfull : st.buf.length = 128) (hne : input ≠ []) :
    st.update input = update { (st.inc 128).compress st.buf false with buf := [] } input := by
  cases input with
  | nil => exact absurd rfl hne
  | cons b input =>
    have hpush : st.push b = push { (st.inc 128).compress st.buf false with buf := [] } b := by
      rw [push, if_pos hfull, push, if_neg (by exact Nat.zero_ne_add_one 127)]
      rfl
    exact congrArg (fun st => update st input) hpush

def keyed (key : Bytes) (size : Nat) : Blake2b :=
  if key = [] then init size 0
  else ((init size key.length).inc 128).compress (key ++ zeros (128 - key.length)) false

def shortDigest (data key : Bytes) (size : Nat) : Bytes :=
  final { keyed key size with buf := data }

theorem length_shortDigest (data key : Bytes) (size : Nat) :
    (shortDigest data key size).length = size := by
  rw [shortDigest, length_final, keyed]
  split_ifs <;> rfl

theorem blake2b_eq_shortDigest (hdata : data.length ≤ 128) (hne : key = [] ∨ data ≠ [])
    (hkey : key.length ≤ 64) (hpos : 1 ≤ size) (hsize : size ≤ 64) :
    blake2b data key size = .ok (shortDigest data key size) := by
  rw [blake2b, if_neg (by omega), if_neg (by omega), shortDigest, keyed]
  by_cases hk : key = []
  · subst hk
    simp only [if_true]
    rw [update_of_room (by simpa [init] using hdata)]
    rfl
  · have hblock : (key ++ zeros (128 - key.length)).length = 128 := by
      rw [List.length_append, ByteCodec.length_zeros]
      omega
    have hfill : (init size key.length).update (key ++ zeros (128 - key.length)) =
        { init size key.length with buf := key ++ zeros (128 - key.length) } :=
      update_of_room (by rw [hblock]; exact Nat.le_refl 128)
    simp only [if_neg hk]
    rw [hfill, update_of_full hblock (hne.resolve_left hk), update_of_room (by simpa using hdata)]
    rfl

end Short

end Blake2b

/-- The other side's BLAKE2b is this one, wherever this one does not throw. -/
def UsesBlake2b (H : Hashes) : Prop :=
  ∀ data key size digest, Blake2b.blake2b data key size = .ok digest →
    H.blake2b data key size = digest

end RankGate.Client
