/- Module: RankGate/Foundation/BlockStream
   layer: foundation
   digest: Streams cut out of numbered blocks of one size, and the loop that fills a buffer with them. -/

import Mathlib.Data.List.TakeDrop
import Mathlib.Tactic.SplitIfs
import Mathlib.Tactic.Linarith

set_option autoImplicit false
set_option relaxedAutoImplicit false

namespace BlockStream

variable {α : Type} (block : Nat → List α)

def blocks (first n : Nat) : List α := (List.range' first n).flatMap block

def cover (size length : Nat) : Nat := (length + size - 1) / size

/-- The first `length` elements of the blocks from number 0 on. -/
def stream (size length : Nat) : List α := (blocks block 0 (cover size length)).take length

/-- `while out.length < length: out += block(n); n += 1`. -/
def fill (length : Nat) : Nat → Nat → List α → List α
  | 0, _, out => out
  | fuel + 1, n, out =>
    if out.length < length then fill length fuel (n + 1) (out ++ block n) else out

theorem blocks_add (first m n : Nat) :
    blocks block first (m + n) = blocks block first m ++ blocks block (first + m) n := by
  rw [blocks, ← List.range'_append, List.flatMap_append, one_mul]
  rfl

theorem blocks_one (first : Nat) : blocks block first 1 = block first := by
  simp [blocks]

theorem blocks_succ (first n : Nat) :
    blocks block first (n + 1) = blocks block first n ++ block (first + n) := by
  rw [blocks_add, blocks_one]

theorem blocks_head (first n : Nat) :
    blocks block first (n + 1) = block first ++ blocks block (first + 1) n := by
  rw [blocks, List.range'_succ, List.flatMap_cons]
  rfl

theorem cover_zero {size : Nat} (h0 : 0 < size) : cover size 0 = 0 := by
  rw [cover, Nat.div_eq_zero_iff]
  omega

theorem cover_step {size : Nat} (h0 : 0 < size) (length : Nat) (h : 0 < length) :
    cover size length = cover size (length - size) + 1 := by
  rw [cover, cover, ← Nat.add_div_right _ h0]
  rcases Nat.le_total size length with hle | hle
  · congr 1
    omega
  · rw [Nat.div_eq_of_lt_le (k := 1) (by omega) (by omega),
      Nat.div_eq_of_lt_le (k := 1) (by omega) (by omega)]

theorem le_cover_mul {size : Nat} (h0 : 0 < size) (length : Nat) :
    length ≤ cover size length * size := by
  have h := Nat.div_add_mod (length + size - 1) size
  have hlt := Nat.mod_lt (length + size - 1) h0
  rw [Nat.mul_comm] at h
  rw [cover]
  omega

theorem cover_le_iff {size : Nat} (h0 : 0 < size) {length n : Nat} :
    cover size length ≤ n ↔ length ≤ n * size := by
  rw [cover, Nat.div_le_iff_le_mul h0]
  omega

section Sized

variable {block} {size : Nat} (h0 : 0 < size) (hsize : ∀ n, (block n).length = size)

include hsize in
theorem length_blocks (first n : Nat) : (blocks block first n).length = n * size := by
  induction n with
  | zero => simp [blocks]
  | succ n ih => rw [blocks_succ, List.length_append, ih, hsize, Nat.succ_mul]

include h0 hsize in
theorem take_blocks {n length : Nat} (h : length ≤ n * size) :
    (blocks block 0 n).take length = stream block size length := by
  have hcover : cover size length ≤ n := (cover_le_iff h0).mpr h
  obtain ⟨k, rfl⟩ := Nat.exists_eq_add_of_le hcover
  have hlen := length_blocks hsize 0 (cover size length)
  have hle := le_cover_mul h0 length
  rw [blocks_add, List.take_append_of_le_length (by omega), stream]

include h0 hsize in
@[simp] theorem length_stream (length : Nat) : (stream block size length).length = length := by
  have hle := le_cover_mul h0 length
  rw [stream, List.length_take, length_blocks hsize, Nat.min_eq_left hle]

include h0 hsize in
theorem take_stream {n m : Nat} (h : n ≤ m) :
    (stream block size m).take n = stream block size n := by
  have hle := le_cover_mul h0 m
  rw [stream, List.take_take, Nat.min_eq_left h, take_blocks h0 hsize (by omega)]

include h0 hsize in
theorem stream_block {i length : Nat} (h : (i + 1) * size ≤ length) :
    ((stream block size length).drop (i * size)).take size = block i := by
  have hlen := length_blocks hsize 0 i
  have hmul : (i + 1) * size = i * size + size := Nat.succ_mul i size
  have hcut : (stream block size length).take (i * size + size) = blocks block 0 i ++ block i := by
    rw [← hmul, take_stream h0 hsize h, ← take_blocks h0 hsize (n := i + 1) (le_refl _),
      List.take_of_length_le (by rw [length_blocks hsize]), blocks_succ, Nat.zero_add]
  rw [← List.take_append_drop (i * size + size) (stream block size length), hcut,
    List.append_assoc, List.drop_append_of_le_length (by omega), List.drop_of_length_le (by omega),
    List.nil_append, List.take_append_of_le_length (by rw [hsize]),
    List.take_of_length_le (by rw [hsize])]

include h0 hsize in
theorem stream_piece (i length : Nat) :
    ((stream block size length).drop (i * size)).take size =
      (block i).take (length - i * size) := by
  have hlong : length ≤ length + (i + 1) * size := Nat.le_add_right _ _
  rw [← take_stream h0 hsize hlong, List.drop_take, List.take_take, Nat.min_comm, ← List.take_take,
    stream_block h0 hsize (Nat.le_add_left _ _)]

include h0 hsize in
/-- The loop stops after the blocks that cover the length. -/
theorem fill_eq {length fuel n : Nat} {out : List α}
    (hfuel : cover size (length - out.length) ≤ fuel) :
    fill block length fuel n out =
      out ++ blocks block n (cover size (length - out.length)) := by
  induction fuel generalizing n out with
  | zero =>
    rw [Nat.le_zero.mp hfuel, fill]
    simp [blocks]
  | succ fuel ih =>
    rw [fill]
    split_ifs with hlt
    · have hlen : length - (out ++ block n).length = length - out.length - size := by
        rw [List.length_append, hsize]
        omega
      have hcover := cover_step h0 (length - out.length) (by omega)
      rw [ih (by rw [hlen]; omega), hlen, hcover, blocks_head, List.append_assoc]
    · rw [Nat.sub_eq_zero_of_le (by omega), cover_zero h0]
      simp [blocks]

include h0 hsize in
theorem take_fill {length fuel : Nat} (hfuel : length ≤ fuel) :
    (fill block length fuel 0 []).take length = stream block size length := by
  have hcover : cover size length ≤ fuel := by
    rw [cover_le_iff h0]
    exact le_trans hfuel (Nat.le_mul_of_pos_right fuel h0)
  rw [fill_eq h0 hsize (by simpa using hcover)]
  simp [stream]

include h0 hsize in
theorem le_length_fill {length fuel : Nat} (hfuel : length ≤ fuel) :
    length ≤ (fill block length fuel 0 []).length := by
  have hlen := length_stream h0 hsize length
  rw [← take_fill h0 hsize hfuel, List.length_take] at hlen
  omega

end Sized

end BlockStream
