/- Module: RankGate/Foundation/Rfc7693
   layer: foundation
   digest: BLAKE2b as RFC 7693 defines it, on whole messages and unbounded counters. -/

import RankGate.Foundation.Text

set_option autoImplicit false
set_option relaxedAutoImplicit false

namespace Rfc7693

open ByteCodec (Bytes zeros)

abbrev Word := BitVec 64

/-- The chain value h[0..7]. -/
abbrev Chain := Vector Word 8

/-- The working vector v[0..15], and the message words m[0..15]. -/
abbrev Work := Vector Word 16

/-- 2.6. Initialization vector. -/
def iv : Vector Word 8 :=
  #v[0x6A09E667F3BCC908, 0xBB67AE8584CAA73B, 0x3C6EF372FE94F82B, 0xA54FF53A5F1D36F1,
    0x510E527FADE682D1, 0x9B05688C2B3E6C1F, 0x1F83D9ABFB41BD6B, 0x5BE0CD19137E2179]

/-- 2.7. Message schedule. -/
def sigma : List (List Nat) :=
  [[0, 1, 2, 3, 4, 5, 6, 7, 8, 9, 10, 11, 12, 13, 14, 15],
    [14, 10, 4, 8, 9, 15, 13, 6, 1, 12, 0, 2, 11, 7, 5, 3],
    [11, 8, 12, 0, 5, 2, 15, 13, 10, 14, 3, 6, 7, 1, 9, 4],
    [7, 9, 3, 1, 13, 12, 11, 14, 2, 6, 5, 10, 4, 0, 15, 8],
    [9, 0, 5, 7, 2, 4, 10, 15, 14, 1, 11, 12, 6, 8, 3, 13],
    [2, 12, 6, 10, 0, 11, 8, 3, 4, 13, 7, 5, 15, 14, 1, 9],
    [12, 5, 1, 15, 14, 13, 4, 10, 0, 7, 6, 3, 9, 2, 8, 11],
    [13, 11, 7, 14, 12, 1, 3, 9, 5, 0, 15, 4, 8, 6, 2, 10],
    [6, 15, 14, 9, 11, 3, 0, 8, 12, 2, 13, 7, 1, 4, 10, 5],
    [10, 2, 8, 4, 7, 6, 1, 5, 15, 11, 9, 14, 3, 12, 13, 0]]

def entry {n : Nat} (v : Vector Word n) (i : Nat) : Word := v.toList.getD i 0

def put {n : Nat} (v : Vector Word n) (i : Nat) (x : Word) : Vector Word n :=
  ⟨(v.toList.set i x).toArray, by simp⟩

theorem entry_eq {n : Nat} (v : Vector Word n) {i : Nat} (h : i < n) : entry v i = v[i] := by
  simp [entry, h]

theorem getElem_put {n : Nat} (v : Vector Word n) (i : Nat) (x : Word) {j : Nat} (h : j < n) :
    (put v i x)[j] = if i = j then x else v[j] := by
  simp [put, List.getElem_set]

def scheduled (m : Work) (s : List Nat) (i : Nat) : Word := entry m (s.getD i 0)

/-- 3.1. Mixing function G, with the rotations of BLAKE2b. -/
def mixing (v : Work) (a b c d : Nat) (x y : Word) : Work :=
  let v := put v a (entry v a + entry v b + x)
  let v := put v d ((entry v d ^^^ entry v a).rotateRight 32)
  let v := put v c (entry v c + entry v d)
  let v := put v b ((entry v b ^^^ entry v c).rotateRight 24)
  let v := put v a (entry v a + entry v b + y)
  let v := put v d ((entry v d ^^^ entry v a).rotateRight 16)
  let v := put v c (entry v c + entry v d)
  put v b ((entry v b ^^^ entry v c).rotateRight 63)

def round (m v : Work) (s : List Nat) : Work :=
  let v := mixing v 0 4 8 12 (scheduled m s 0) (scheduled m s 1)
  let v := mixing v 1 5 9 13 (scheduled m s 2) (scheduled m s 3)
  let v := mixing v 2 6 10 14 (scheduled m s 4) (scheduled m s 5)
  let v := mixing v 3 7 11 15 (scheduled m s 6) (scheduled m s 7)
  let v := mixing v 0 5 10 15 (scheduled m s 8) (scheduled m s 9)
  let v := mixing v 1 6 11 12 (scheduled m s 10) (scheduled m s 11)
  let v := mixing v 2 7 8 13 (scheduled m s 12) (scheduled m s 13)
  mixing v 3 4 9 14 (scheduled m s 14) (scheduled m s 15)

/-- 3.2. Compression function F: twelve rounds over the ten rows of the schedule. -/
def compress (h : Chain) (m : Work) (t : Nat) (last : Bool) : Chain :=
  let v := h ++ iv
  let v := put v 12 (entry v 12 ^^^ BitVec.ofNat 64 t)
  let v := put v 13 (entry v 13 ^^^ BitVec.ofNat 64 (t / 2 ^ 64))
  let v := if last then put v 14 (entry v 14 ^^^ 0xFFFFFFFFFFFFFFFF) else v
  let v := (List.range 12).foldl (fun v i => round m v (sigma.getD (i % 10) [])) v
  Vector.ofFn fun i : Fin 8 => entry h i ^^^ entry v i ^^^ entry v (i + 8)

def leNat (b : Bytes) : Nat := b.foldr (fun x acc => x.toNat + 256 * acc) 0

def words (block : Bytes) : Work :=
  Vector.ofFn fun i : Fin 16 => BitVec.ofNat 64 (leNat ((block.drop (8 * i.val)).take 8))

def leBytes (w : Word) : Bytes := (List.range 8).map fun j => UInt8.ofNat (w >>> (8 * j)).toNat

def pad (b : Bytes) : Bytes := b ++ zeros (128 - b.length)

/-- 3.3. The data blocks: the padded key if there is one, then the message, its last block padded;
an unkeyed empty message is one block of zeros. -/
def blocks (data key : Bytes) : List Bytes :=
  let d := (if key = [] then [] else [pad key]) ++ (Text.slices 128 data).map pad
  if d = [] then [zeros 128] else d

def start (keylen size : Nat) : Chain :=
  put iv 0
    (entry iv 0 ^^^ 0x01010000 ^^^ (BitVec.ofNat 64 keylen <<< 8) ^^^ BitVec.ofNat 64 size)

def output (h : Chain) (size : Nat) : Bytes := (h.toList.flatMap leBytes).take size

/-- The blocks before the last, block `i` under the counter of the bytes up to its end. -/
def chain (h : Chain) (d : List Bytes) (start : Nat) : Chain :=
  (d.zipIdx start).foldl (fun h p => compress h (words p.1) ((p.2 + 1) * 128) false) h

/-- BLAKE2b of `data` under `key`, with a digest of `size` bytes. -/
def blake2b (data key : Bytes) (size : Nat) : Bytes :=
  let d := blocks data key
  let h := chain (start key.length size) d.dropLast 0
  let total := if key = [] then data.length else data.length + 128
  output (compress h (words (d.getLastD (zeros 128))) total true) size

end Rfc7693
