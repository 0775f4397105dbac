/- Module: RankGate/Vm/CanonicalProgram
   source: tools/generate_vm_bytecode.py (build_program), server/app/vm_reference.py (VM.run)
   digest: The canonical program, verified block by block against the fold it is meant to compute. -/

import RankGate.Tools.VmBytecode
import RankGate.Vm.ReferenceSteps
import RankGate.Vm.Words

set_option autoImplicit false
set_option relaxedAutoImplicit false

namespace RankGate.Vm.CanonicalProgram

open ByteCodec (Bytes beBytes)
open RankGate.Crypto (Hashes)
open RankGate.Server.Config (toBytes mapM_toBytes)
open RankGate.Server.VmReference
open RankGate.Tools.VmBytecode (buildProgram c12 c13 c14 c15)
open Lockstep (Engine)
open Lockstep.Engine (Path)
open ReferenceSteps
open Words (hashRound_lt mix_lt rotl64_lt rotr64_lt subM64_lt notM64_lt)

def program : Bytes :=
  [0x10, 0x0c, 0x01, 0x23, 0x45, 0x67, 0x89, 0xab, 0xcd, 0xef,
    0x10, 0x0d, 0xde, 0xad, 0xbe, 0xef, 0xca, 0xfe, 0xba, 0xbe,
    0x10, 0x0e, 0xa5, 0xa5, 0xa5, 0xa5, 0x5a, 0x5a, 0x5a, 0x5a,
    0x10, 0x0f, 0xf0, 0xe1, 0xd2, 0xc3, 0xb4, 0xa5, 0x96, 0x87,
    0x10, 0x00, 0x00, 0x00, 0x00, 0x00, 0x00, 0x00, 0x00, 0x00,
    0x10, 0x01, 0x00, 0x00, 0x00, 0x00, 0x00, 0x00, 0x00, 0x16,
    0x10, 0x06, 0x00, 0x00, 0x00, 0x00, 0x00, 0x00, 0x00, 0x01,
    0x10, 0x08, 0x00, 0x00, 0x00, 0x00, 0x00, 0x00, 0x00, 0x00, 0x50, 0x00, 0x01,
    0x61, 0x00, 0x8f, 0x11, 0x07, 0x00, 0x20, 0x02, 0x07, 0x70, 0x0c, 0x0c, 0x02,
    0x71, 0x0d, 0x02, 0x34, 0x03, 0x02, 0x06, 0x50, 0x03, 0x08, 0x61, 0x00, 0x78,
    0x70, 0x0f, 0x0f, 0x02, 0x40, 0x0f, 0x0f, 0x07, 0x60, 0x00, 0x80, 0x70, 0x0e, 0x0e, 0x02,
    0x41, 0x0e, 0x0e, 0x0b, 0x33, 0x0c, 0x0c, 0x0e, 0x30, 0x0d, 0x0d, 0x0f,
    0x30, 0x00, 0x00, 0x06, 0x60, 0x00, 0x50, 0x70, 0x0c, 0x0c, 0x0d, 0x70, 0x0d, 0x0d, 0x0e,
    0x70, 0x0e, 0x0e, 0x0f, 0x70, 0x0f, 0x0f, 0x0c, 0x63, 0x00, 0xa4, 0xf0, 0x42, 0x00,
    0x36, 0x03, 0x0c, 0x35, 0x04, 0x0d, 0x03, 0x31, 0x05, 0x0e, 0x0f, 0x32, 0x09, 0x05, 0x06,
    0x42, 0x0a, 0x04, 0x03, 0x43, 0x0b, 0x04, 0x05, 0x33, 0x04, 0x0a, 0x0b,
    0x10, 0x00, 0x00, 0x00, 0x00, 0x00, 0x00, 0x00, 0x00, 0x03, 0x70, 0x09, 0x09, 0x04,
    0x50, 0x09, 0x08, 0x51, 0x05, 0x09, 0x01, 0x31, 0x00, 0x00, 0x06, 0x50, 0x00, 0x08,
    0x62, 0x00, 0xca, 0x21, 0x07, 0x09, 0x33, 0x0c, 0x0c, 0x09, 0x30, 0x0d, 0x0d, 0x05,
    0x33, 0x0e, 0x0e, 0x04, 0x71, 0x0f, 0x03, 0x64]

theorem buildProgram_eq : buildProgram = .ok program := by decide +kernel

structure Acc where
  r12 : Nat
  r13 : Nat
  r14 : Nat
  r15 : Nat
  deriving DecidableEq

namespace Acc

def start : Acc := ⟨c12, c13, c14, c15⟩

/-- One memory word: an even word stirs R14, an odd one R15. -/
def word (a : Acc) (w : Nat) : Acc :=
  let r12 := hashRound a.r12 w
  let r13 := mix a.r13 w 13
  let r14 := if w % 2 = 0 then rotr64 (hashRound a.r14 w) 11 else a.r14
  let r15 := if w % 2 = 0 then a.r15 else rotl64 (hashRound a.r15 w) 7
  ⟨r12 ^^^ r14, (r13 + r15) % 2 ^ 64, r14, r15⟩

def avalanche (a : Acc) : Acc :=
  let r12 := hashRound a.r12 a.r13
  let r13 := hashRound a.r13 a.r14
  let r14 := hashRound a.r14 a.r15
  let r15 := hashRound a.r15 r12
  ⟨r12, r13, r14, r15⟩

/-- One inner round on R9 and R5: the conditional move copies a nonzero R9. -/
def innerRound (r4 : Nat) (p : Nat × Nat) : Nat × Nat :=
  let r9 := hashRound p.1 r4
  (r9, if r9 ≠ 0 then r9 else p.2)

def stirred (a : Acc) : Nat :=
  let r4 := a.r13 ||| notM64 a.r12
  (r4 <<< 3) % 2 ^ 64 ^^^ (r4 >>> 5) % 2 ^ 64

def rounds (a : Acc) : Nat × Nat :=
  let r5 := subM64 a.r14 a.r15
  innerRound a.stirred (innerRound a.stirred (innerRound a.stirred (r5 * 1 % 2 ^ 64, r5)))

/-- The subroutine: R9, R5, R4 and R3 = `~R12` go into the accumulators. -/
def finalize (a : Acc) : Acc where
  r12 := a.r12 ^^^ a.rounds.1
  r13 := (a.r13 + a.rounds.2) % 2 ^ 64
  r14 := a.r14 ^^^ a.stirred
  r15 := mix a.r15 (notM64 a.r12) 15

def digest (a : Acc) : Bytes :=
  beBytes 8 a.r12 ++ beBytes 8 a.r13 ++ beBytes 8 a.r14 ++ beBytes 8 a.r15

end Acc

/-- The reference: only the first 22 words are read. -/
def fold (mem : List Nat) : Acc := ((mem.take 22).foldl Acc.word Acc.start).avalanche.finalize

section Flags

theorem cmpFlags_zf (a b : Nat) : decide (cmpFlags a b &&& flZf ≠ 0) = decide (a = b) := by
  unfold cmpFlags
  by_cases h : a = b
  · subst h
    simp [subM64, flZf]
  · by_cases hlt : a < b <;> by_cases hs : subM64 a b >>> 63 = 0 <;>
      simp [h, hlt, hs, flZf, flCf, flSf]

theorem cond_nzf {s : VM} {c : Bool} (h : (!decide (s.flags &&& flZf ≠ 0)) = c) :
    Server.VmReference.cond condNzf s = .ok (c, s) := by
  subst h
  rfl

end Flags

/-- The loop-carried values, next to the index. -/
structure Trip where
  i : Nat
  r2 : Nat
  r3 : Nat
  r7 : Nat
  flags : Nat
  path : Nat
  acc : Acc

namespace Trip

def start : Trip := ⟨0, 0, 0, 0, 0, 0x811C9DC5, Acc.start⟩

def next (t : Trip) (w : Nat) : Trip where
  i := t.i + 1
  r2 := w
  r3 := w &&& 1
  r7 := t.i
  flags := cmpFlags (w &&& 1) 0
  path := pathAfter (pathAfter t.path 86 false) 109 (decide (w % 2 = 0))
  acc := t.acc.word w

end Trip

def trips (words : List Nat) : Trip := words.foldl Trip.next Trip.start

variable (mem perm : List Nat)

def atLoop (t : Trip) : VM :=
  ⟨program, mem, [t.i, 22, t.r2, t.r3, 0, 0, 1, t.r7, 0, 0, 0, 0,
    t.acc.r12, t.acc.r13, t.acc.r14, t.acc.r15], [], t.flags, 80, t.path, false, 0, perm⟩

section Loop

theorem prologue_path :
    Path engine 8
      ⟨program, mem, List.replicate 16 0, [], 0, 0, 0x811C9DC5, false, 0, perm⟩
      (atLoop mem perm Trip.start) := by
  refine .step rfl (step_movRi 12 (beBytes 8 c12) c12 rfl rfl (by decide) rfl) ?_
  refine .step rfl (step_movRi 13 (beBytes 8 c13) c13 rfl rfl (by decide) rfl) ?_
  refine .step rfl (step_movRi 14 (beBytes 8 c14) c14 rfl rfl (by decide) rfl) ?_
  refine .step rfl (step_movRi 15 (beBytes 8 c15) c15 rfl rfl (by decide) rfl) ?_
  refine .step rfl (step_movRi 0 (beBytes 8 0) 0 rfl rfl (by decide) rfl) ?_
  refine .step rfl (step_movRi 1 (beBytes 8 22) 22 rfl rfl (by decide) rfl) ?_
  refine .step rfl (step_movRi 6 (beBytes 8 1) 1 rfl rfl (by decide) rfl) ?_
  refine .step rfl (step_movRi 8 (beBytes 8 0) 0 rfl rfl (by decide) rfl) ?_
  exact .refl _

private theorem index_succ {i : Nat} (h : i < 22) : (i + 1) &&& m64 = i + 1 := by
  rw [Words.land_m64]
  omega

theorem loop_head {t : Trip} {w : Nat} (hi : t.i < 22) (hw : mem[t.i]? = some w) {even : Bool}
    (he : decide (w % 2 = 0) = even) :
    Path engine 9 (atLoop mem perm t)
      ⟨program, mem, [t.i, 22, w, w &&& 1, 0, 0, 1, t.i, 0, 0, 0, 0,
        hashRound t.acc.r12 w, mix t.acc.r13 w 13, t.acc.r14, t.acc.r15], [],
        cmpFlags (w &&& 1) 0, if even then 120 else 109,
        pathAfter (pathAfter t.path 86 false) 109 even, false, 0, perm⟩ := by
  have hmod : t.i % 64 = t.i := by omega
  have hne : decide (cmpFlags t.i 22 &&& flZf ≠ 0) = false := by
    rw [cmpFlags_zf]
    exact decide_eq_false (by omega)
  have hbit : decide (cmpFlags (w &&& 1) 0 &&& flZf ≠ 0) = even := by
    rw [cmpFlags_zf, ← he, Nat.and_one_is_mod]
  refine .step rfl (step_cmp 0 1 rfl rfl rfl) ?_
  refine .step rfl (step_jz 0x00 0x8f rfl hne) ?_
  refine .step rfl (step_movRr 7 0 rfl rfl rfl) ?_
  refine .step rfl (step_load 2 7 rfl rfl (hmod.symm ▸ hw) rfl) ?_
  refine .step rfl (step_binary 0x70 12 12 2 rfl rfl rfl rfl rfl) ?_
  refine .step rfl (step_mix 13 2 rfl rfl rfl) ?_
  refine .step rfl (step_binary 0x34 3 2 6 rfl rfl rfl rfl rfl) ?_
  refine .step rfl (step_cmp 3 8 rfl rfl rfl) ?_
  refine .step rfl (step_jz 0x00 0x78 rfl hbit) ?_
  exact .refl _

theorem loop_tail {i : Nat} (hi : i < 22) (r2 r3 r7 r12 r13 r14 r15 flags path : Nat) :
    Path engine 4
      ⟨program, mem, [i, 22, r2, r3, 0, 0, 1, r7, 0, 0, 0, 0, r12, r13, r14, r15], [], flags, 128,
        path, false, 0, perm⟩
      ⟨program, mem, [i + 1, 22, r2, r3, 0, 0, 1, r7, 0, 0, 0, 0,
        r12 ^^^ r14, (r13 + r15) % 2 ^ 64, r14, r15], [], flags, 80, path, false, 0, perm⟩ := by
  rw [← Words.land_m64, ← index_succ hi]
  refine .step rfl (step_binary 0x33 12 12 14 rfl rfl rfl rfl rfl) ?_
  refine .step rfl (step_binary 0x30 13 13 15 rfl rfl rfl rfl rfl) ?_
  refine .step rfl (step_binary 0x30 0 0 6 rfl rfl rfl rfl rfl) ?_
  refine .step rfl (step_jmp 0x00 0x50 rfl) ?_
  exact .refl _

theorem loop_even {t : Trip} {w : Nat} (hi : t.i < 22) (hw : mem[t.i]? = some w)
    (he : w % 2 = 0) : Path engine 15 (atLoop mem perm t) (atLoop mem perm (t.next w)) := by
  have hword : t.acc.word w = ⟨hashRound t.acc.r12 w ^^^ rotr64 (hashRound t.acc.r14 w) 11,
      (mix t.acc.r13 w 13 + t.acc.r15) % 2 ^ 64, rotr64 (hashRound t.acc.r14 w) 11,
      t.acc.r15⟩ := by
    simp [Acc.word, he]
  simp only [atLoop, Trip.next, hword, decide_eq_true he]
  refine .trans (k := 9) (l := 6) (loop_head mem perm hi hw (decide_eq_true he)) ?_
  refine .step rfl (step_binary 0x70 14 14 2 rfl rfl rfl rfl rfl) ?_
  refine .step rfl (step_shift 0x41 14 14 11 rfl rfl rfl rfl) ?_
  exact loop_tail mem perm hi _ _ _ _ _ _ _ _ _

theorem loop_odd {t : Trip} {w : Nat} (hi : t.i < 22) (hw : mem[t.i]? = some w)
    (ho : w % 2 ≠ 0) : Path engine 16 (atLoop mem perm t) (atLoop mem perm (t.next w)) := by
  have hword : t.acc.word w = ⟨hashRound t.acc.r12 w ^^^ t.acc.r14,
      (mix t.acc.r13 w 13 + rotl64 (hashRound t.acc.r15 w) 7) % 2 ^ 64, t.acc.r14,
      rotl64 (hashRound t.acc.r15 w) 7⟩ := by
    simp [Acc.word, ho]
  simp only [atLoop, Trip.next, hword, decide_eq_false ho]
  refine .trans (k := 9) (l := 7) (loop_head mem perm hi hw (decide_eq_false ho)) ?_
  refine .step rfl (step_binary 0x70 15 15 2 rfl rfl rfl rfl rfl) ?_
  refine .step rfl (step_shift 0x40 15 15 7 rfl rfl rfl rfl) ?_
  refine .step rfl (step_jmp 0x00 0x80 rfl) ?_
  exact loop_tail mem perm hi _ _ _ _ _ _ _ _ _

theorem trips_append (ws : List Nat) (w : Nat) : trips (ws ++ [w]) = (trips ws).next w := by
  simp [trips]

theorem trips_i (ws : List Nat) : (trips ws).i = ws.length := by
  induction ws using List.reverseRecOn with
  | nil => rfl
  | append_singleton ws w ih => simp [trips_append, Trip.next, ih]

theorem trips_acc (ws : List Nat) : (trips ws).acc = ws.foldl Acc.word Acc.start := by
  induction ws using List.reverseRecOn with
  | nil => rfl
  | append_singleton ws w ih => simp [trips_append, Trip.next, ih]

theorem trips_last (hlen : mem.length = 64) :
    (trips (mem.take 22)).r7 = 21 ∧ (trips (mem.take 22)).r2 ∈ mem := by
  have hlt : 21 < mem.length := by omega
  have htake : mem.take 22 = mem.take 21 ++ [mem[21]] := List.take_succ_eq_append_getElem hlt
  rw [htake, trips_append]
  refine ⟨?_, List.getElem_mem hlt⟩
  simp only [Trip.next, trips_i, List.length_take]
  omega

/-- Induction on the number of iterations: each consumes the next word. -/
theorem loop_run (hlen : mem.length = 64) (n : Nat) (hn : n ≤ 22) :
    ∃ k, k ≤ 16 * n ∧
      Path engine k (atLoop mem perm Trip.start) (atLoop mem perm (trips (mem.take n))) := by
  induction n with
  | zero => exact ⟨0, Nat.le_refl 0, .refl _⟩
  | succ n ih =>
    obtain ⟨k, hk, hpath⟩ := ih (by omega)
    have hlt : n < mem.length := by omega
    have hi : (trips (mem.take n)).i = n := by
      rw [trips_i, List.length_take]
      omega
    have hw : mem[(trips (mem.take n)).i]? = some mem[n] := by
      rw [hi, List.getElem?_eq_getElem hlt]
    have htake : mem.take (n + 1) = mem.take n ++ [mem[n]] := List.take_succ_eq_append_getElem hlt
    rw [htake, trips_append]
    by_cases he : mem[n] % 2 = 0
    · exact ⟨k + 15, by omega, hpath.trans (loop_even mem perm (by omega) hw he)⟩
    · exact ⟨k + 16, by omega, hpath.trans (loop_odd mem perm (by omega) hw he)⟩

theorem loop_exit {t : Trip} (hi : t.i = 22) :
    Path engine 2 (atLoop mem perm t)
      ⟨program, mem, [22, 22, t.r2, t.r3, 0, 0, 1, t.r7, 0, 0, 0, 0,
        t.acc.r12, t.acc.r13, t.acc.r14, t.acc.r15], [], cmpFlags 22 22, 143,
        pathAfter t.path 86 true, false, 0, perm⟩ := by
  rw [atLoop, hi]
  refine .step rfl (step_cmp 0 1 rfl rfl rfl) ?_
  refine .step rfl (step_jz 0x00 0x8f rfl rfl) ?_
  exact .refl _

end Loop

section Finalize

theorem avalanche_path (r2 r3 r7 flags path : Nat) (a : Acc) :
    Path engine 5
      ⟨program, mem, [22, 22, r2, r3, 0, 0, 1, r7, 0, 0, 0, 0, a.r12, a.r13, a.r14, a.r15], [],
        flags, 143, path, false, 0, perm⟩
      ⟨program, mem, [22, 22, r2, r3, 0, 0, 1, r7, 0, 0, 0, 0, a.avalanche.r12, a.avalanche.r13,
        a.avalanche.r14, a.avalanche.r15], [162], flags, 164, path, false, 0, perm⟩ := by
  refine .step rfl (step_binary 0x70 12 12 13 rfl rfl rfl rfl rfl) ?_
  refine .step rfl (step_binary 0x70 13 13 14 rfl rfl rfl rfl rfl) ?_
  refine .step rfl (step_binary 0x70 14 14 15 rfl rfl rfl rfl rfl) ?_
  refine .step rfl (step_binary 0x70 15 15 12 rfl rfl rfl rfl rfl) ?_
  refine .step rfl (step_call 0x00 0xa4 rfl) ?_
  exact .refl _

def atInner (n r2 r3 r4 r7 r10 r11 flags path : Nat) (p : Nat × Nat) (a : Acc) : VM :=
  ⟨program, mem, [n, 22, r2, r3, r4, p.2, 1, r7, 0, p.1, r10, r11, a.r12, a.r13, a.r14, a.r15],
    [162], flags, 202, path, false, 0, perm⟩

theorem finalize_path (r2 r3 r7 flags path : Nat) (a : Acc) :
    Path engine 9
      ⟨program, mem, [22, 22, r2, r3, 0, 0, 1, r7, 0, 0, 0, 0, a.r12, a.r13, a.r14, a.r15], [162],
        flags, 164, path, false, 0, perm⟩
      (atInner mem perm 3 r2 (notM64 a.r12) a.stirred r7
        (((a.r13 ||| notM64 a.r12) <<< 3) % 2 ^ 64)
        (((a.r13 ||| notM64 a.r12) >>> 5) % 2 ^ 64) flags path
        (subM64 a.r14 a.r15 * 1 % 2 ^ 64, subM64 a.r14 a.r15) a) := by
  simp only [Acc.stirred, ← Words.land_m64]
  refine .step rfl (step_nop rfl) ?_
  refine .step rfl (step_not 3 12 rfl rfl rfl) ?_
  refine .step rfl (step_binary 0x35 4 13 3 rfl rfl rfl rfl rfl) ?_
  refine .step rfl (step_binary 0x31 5 14 15 rfl rfl rfl rfl rfl) ?_
  refine .step rfl (step_binary 0x32 9 5 6 rfl rfl rfl rfl rfl) ?_
  refine .step rfl (step_shift 0x42 10 4 3 rfl rfl rfl rfl) ?_
  refine .step rfl (step_shift 0x43 11 4 5 rfl rfl rfl rfl) ?_
  refine .step rfl (step_binary 0x33 4 10 11 rfl rfl rfl rfl rfl) ?_
  refine .step rfl (step_movRi 0 (beBytes 8 3) 3 rfl rfl (by decide) rfl) ?_
  exact .refl _

theorem inner_path {n : Nat} (hn : n < 3) (r2 r3 r4 r7 r10 r11 flags path : Nat) (p : Nat × Nat)
    (a : Acc) :
    Path engine 6 (atInner mem perm (n + 1) r2 r3 r4 r7 r10 r11 flags path p a)
      { atInner mem perm n r2 r3 r4 r7 r10 r11 (cmpFlags n 0)
          (pathAfter path 223 (!decide (n = 0))) (Acc.innerRound r4 p) a with
        ip := if !decide (n = 0) then 202 else 223 } := by
  have hzero : (!decide (cmpFlags (hashRound p.1 r4) 0 &&& flZf ≠ 0)) =
      decide (hashRound p.1 r4 ≠ 0) := by
    rw [cmpFlags_zf, decide_not]
  have hround : Acc.innerRound r4 p =
      (hashRound p.1 r4, if decide (hashRound p.1 r4 ≠ 0) then hashRound p.1 r4 else p.2) := by
    simp [Acc.innerRound]
  have hsub : subM64 (n + 1) 1 = n := by
    rw [subM64]
    omega
  have hlast : (!decide (cmpFlags n 0 &&& flZf ≠ 0)) = !decide (n = 0) := by
    rw [cmpFlags_zf]
  simp only [atInner, hround]
  refine .step rfl (step_binary 0x70 9 9 4 rfl rfl rfl rfl rfl) ?_
  refine .step rfl (step_cmp 9 8 rfl rfl rfl) ?_
  refine .step rfl (step_cmov 5 9 1 rfl (cond_nzf hzero) rfl rfl) ?_
  refine .step rfl (step_binary 0x31 0 0 6 rfl rfl rfl rfl rfl) ?_
  rw [hsub]
  refine .step rfl (step_cmp 0 8 rfl rfl rfl) ?_
  refine .step rfl (step_jnz 0x00 0xca rfl hlast) ?_
  exact .refl _

theorem inner_run (r2 r3 r4 r7 r10 r11 flags path : Nat) (p : Nat × Nat) (a : Acc) :
    Path engine 18 (atInner mem perm 3 r2 r3 r4 r7 r10 r11 flags path p a)
      { atInner mem perm 0 r2 r3 r4 r7 r10 r11 (cmpFlags 0 0)
          (pathAfter (pathAfter (pathAfter path 223 true) 223 true) 223 false)
          (Acc.innerRound r4 (Acc.innerRound r4 (Acc.innerRound r4 p))) a with ip := 223 } := by
  refine .trans (k := 6) (l := 12) (inner_path mem perm (n := 2) (by omega) ..) ?_
  refine .trans (k := 6) (l := 6) (inner_path mem perm (n := 1) (by omega) ..) ?_
  exact inner_path mem perm (n := 0) (by omega) ..

theorem return_path (hlen : mem.length = 64) (r2 r3 r4 r10 r11 path : Nat) (p : Nat × Nat)
    (a : Acc) :
    Path engine 7
      { atInner mem perm 0 r2 r3 r4 21 r10 r11 (cmpFlags 0 0) path p a with ip := 223 }
      ⟨program, mem.set 21 p.1, [0, 22, r2, r3, r4, p.2, 1, 21, 0, p.1, r10, r11, a.r12 ^^^ p.1,
        (a.r13 + p.2) % 2 ^ 64, a.r14 ^^^ r4, mix a.r15 r3 15], [], cmpFlags 0 0, 164, path, true,
        0x42, perm⟩ := by
  have hm : 21 % 64 < mem.length := by omega
  rw [← Words.land_m64]
  refine .step rfl (step_store 7 9 rfl rfl rfl hm) ?_
  refine .step rfl (step_binary 0x33 12 12 9 rfl rfl rfl rfl rfl) ?_
  refine .step rfl (step_binary 0x30 13 13 5 rfl rfl rfl rfl rfl) ?_
  refine .step rfl (step_binary 0x33 14 14 4 rfl rfl rfl rfl rfl) ?_
  refine .step rfl (step_mix 15 3 rfl rfl rfl) ?_
  refine .step rfl (step_ret rfl rfl) ?_
  refine .step rfl (step_halt 0x42 rfl) ?_
  exact .refl _

end Finalize

section Bounds

structure Acc.Words (a : Acc) : Prop where
  r12 : a.r12 < 2 ^ 64
  r13 : a.r13 < 2 ^ 64
  r14 : a.r14 < 2 ^ 64
  r15 : a.r15 < 2 ^ 64

theorem Acc.Words.start : Acc.start.Words := ⟨by decide, by decide, by decide, by decide⟩

theorem Acc.Words.word {a : Acc} (h : a.Words) (w : Nat) : (a.word w).Words := by
  have h14 : (a.word w).r14 < 2 ^ 64 := by
    simp only [Acc.word]
    split_ifs
    · exact rotr64_lt _ _
    · exact h.r14
  refine ⟨Nat.xor_lt_two_pow (hashRound_lt _ _) h14, Nat.mod_lt _ (by decide), h14, ?_⟩
  simp only [Acc.word]
  split_ifs
  · exact h.r15
  · exact rotl64_lt _ _

theorem Acc.Words.foldl (ws : List Nat) {a : Acc} (h : a.Words) : (ws.foldl Acc.word a).Words := by
  induction ws generalizing a with
  | nil => exact h
  | cons w ws ih => exact ih (h.word w)

theorem Acc.avalanche_words (a : Acc) : a.avalanche.Words :=
  ⟨hashRound_lt _ _, hashRound_lt _ _, hashRound_lt _ _, hashRound_lt _ _⟩

theorem Acc.stirred_lt (a : Acc) : a.stirred < 2 ^ 64 :=
  Nat.xor_lt_two_pow (Nat.mod_lt _ (by decide)) (Nat.mod_lt _ (by decide))

theorem Acc.innerRound_lt (r4 : Nat) {p : Nat × Nat} (h : p.2 < 2 ^ 64) :
    (innerRound r4 p).1 < 2 ^ 64 ∧ (innerRound r4 p).2 < 2 ^ 64 := by
  refine ⟨hashRound_lt _ _, ?_⟩
  simp only [innerRound]
  split_ifs
  · exact hashRound_lt _ _
  · exact h

theorem Acc.rounds_lt (a : Acc) : a.rounds.1 < 2 ^ 64 ∧ a.rounds.2 < 2 ^ 64 :=
  innerRound_lt _ (innerRound_lt _ (innerRound_lt _ (subM64_lt _ _)).2).2

theorem Acc.Words.finalize {a : Acc} (h : a.Words) : a.finalize.Words :=
  ⟨Nat.xor_lt_two_pow h.r12 a.rounds_lt.1, Nat.mod_lt _ (by decide),
    Nat.xor_lt_two_pow h.r14 a.stirred_lt, mix_lt _ _ _⟩

end Bounds

section Outcome

/-- The state in which the program stops, given the loop-carried values at its exit. -/
def finished (t : Trip) : VM :=
  let a := t.acc.avalanche
  let r4 := a.r13 ||| notM64 a.r12
  ⟨program, mem.set 21 a.rounds.1,
    [0, 22, t.r2, notM64 a.r12, a.stirred, a.rounds.2, 1, 21, 0, a.rounds.1,
      (r4 <<< 3) % 2 ^ 64, (r4 >>> 5) % 2 ^ 64,
      a.finalize.r12, a.finalize.r13, a.finalize.r14, a.finalize.r15],
    [], cmpFlags 0 0, 164,
    pathAfter (pathAfter (pathAfter (pathAfter t.path 86 true) 223 true) 223 true) 223 false,
    true, 0x42, perm⟩

/-- The whole run: prologue, 22 iterations, avalanche, subroutine, halt. -/
theorem program_path (hlen : mem.length = 64) :
    ∃ k, k ≤ 401 ∧
      Path engine k ⟨program, mem, List.replicate 16 0, [], 0, 0, 0x811C9DC5, false, 0, perm⟩
        (finished mem perm (trips (mem.take 22))) := by
  obtain ⟨k, hk, hloop⟩ := loop_run mem perm hlen 22 (Nat.le_refl 22)
  have hi : (trips (mem.take 22)).i = 22 := by
    rw [trips_i, List.length_take]
    omega
  have hr7 := (trips_last mem hlen).1
  refine ⟨8 + (k + (2 + (5 + (9 + (18 + 7))))), by omega, (prologue_path mem perm).trans
    (hloop.trans ((loop_exit mem perm hi).trans ((avalanche_path ..).trans
    ((finalize_path ..).trans ((inner_run ..).trans ?_)))))⟩
  rw [hr7]
  exact return_path mem perm hlen _ _ _ _ _ _ _ _

def result (H : Hashes) (t : Trip) : VMResult :=
  let s := finished [] [] t
  let state := s.reg.flatMap (beBytes 8) ++ [UInt8.ofNat (s.flags &&& 0xFF)] ++
    beBytes 2 (s.ip &&& 0xFFFF) ++ beBytes 4 (s.path &&& m32)
  ⟨t.acc.avalanche.finalize.digest, H.blake2b state [] 32, s.path &&& m32,
    (s.haltOperand ^^^ (s.path &&& 0xFF)) &&& m32⟩

theorem finished_words {t : Trip} (h2 : t.r2 < 2 ^ 64) (v : Nat)
    (hv : v ∈ (finished mem perm t).reg) : v < 2 ^ 64 := by
  have ha := t.acc.avalanche_words
  have hf := ha.finalize
  have hr := t.acc.avalanche.rounds_lt
  simp only [finished, List.mem_cons, List.not_mem_nil, or_false] at hv
  rcases hv with rfl | rfl | rfl | rfl | rfl | rfl | rfl | rfl | rfl | rfl | rfl | rfl | rfl | rfl |
    rfl | rfl
  · decide
  · decide
  · exact h2
  · exact notM64_lt _
  · exact Acc.stirred_lt _
  · exact hr.2
  · decide
  · decide
  · decide
  · exact hr.1
  · exact Nat.mod_lt _ (by decide)
  · exact Nat.mod_lt _ (by decide)
  · exact hf.r12
  · exact hf.r13
  · exact hf.r14
  · exact hf.r15

theorem finish_eq (H : Hashes) {t : Trip} (h2 : t.r2 < 2 ^ 64) :
    (finished mem perm t).finish H = .ok (result H t) := by
  have hw := finished_words mem perm h2
  have hregs := mapM_toBytes (n := 8) hw
  have hdigest : (((finished mem perm t).reg.drop 12).take 4).mapM (toBytes 8) =
      .ok ((((finished mem perm t).reg.drop 12).take 4).map (beBytes 8)) :=
    mapM_toBytes fun v hv => hw v (List.mem_of_mem_drop (List.mem_of_mem_take hv))
  rw [VM.finish, hregs, hdigest]
  simp [bind, Except.bind, pure, Except.pure, finished, result, Acc.digest, List.flatMap]

theorem init_eq (H : Hashes) (sessionNonce : Bytes) :
    VM.init H program mem sessionNonce =
      ⟨program, mem, List.replicate 16 0, [], 0, 0, 0x811C9DC5, false, 0,
        handlerPermutation H sessionNonce⟩ := rfl

theorem program_run (H : Hashes) (sessionNonce : Bytes) (hlen : mem.length = 64)
    (hw : ∀ w ∈ mem, w < 2 ^ 64) :
    (VM.init H program mem sessionNonce).run H = .ok (result H (trips (mem.take 22))) := by
  obtain ⟨k, hk, hpath⟩ := program_path mem (handlerPermutation H sessionNonce) hlen
  have hbudget : k ≤ maxSteps := hk.trans (by decide)
  have hrun := Engine.run_eq_of_path hpath hbudget rfl
  rw [← init_eq] at hrun
  rw [run_eq_finish H hrun]
  exact finish_eq mem _ H (hw _ (trips_last mem hlen).2)

end Outcome

/-- The canonical program, on every memory image and under every session nonce: no step faults,
it stops at HALT 0x42 with an empty stack well within the step limit, its digest is the fold, and
the words from 22 on do not matter. -/
theorem canonical_program_computes_fold (H : Hashes) (sessionNonce : Bytes)
    (mem : Vector UInt64 64) :
    ∃ code k t r, buildProgram = .ok code ∧ k < maxSteps ∧
      Path engine k (VM.init H code (mem.toList.map UInt64.toNat) sessionNonce) t ∧
      t.halted = true ∧ t.haltOperand = 0x42 ∧ t.stack = [] ∧
      t.ip = 164 ∧ (code.drop 162).take 2 = [0xF0, 0x42] ∧
      (VM.init H code (mem.toList.map UInt64.toNat) sessionNonce).run H = .ok r ∧
      r.vmDigest = (fold (mem.toList.map UInt64.toNat)).digest ∧
      ∀ mem' : Vector UInt64 64, (∀ i : Fin 64, i.val < 22 → mem'[i] = mem[i]) →
        (VM.init H code (mem'.toList.map UInt64.toNat) sessionNonce).run H = .ok r := by
  have hlen : (mem.toList.map UInt64.toNat).length = 64 := by simp
  have hw : ∀ m : Vector UInt64 64, ∀ w ∈ m.toList.map UInt64.toNat, w < 2 ^ 64 := by
    intro m w hmem
    obtain ⟨v, _, rfl⟩ := List.mem_map.mp hmem
    exact v.toNat_lt
  obtain ⟨k, hk, hpath⟩ := program_path (mem.toList.map UInt64.toNat)
    (handlerPermutation H sessionNonce) hlen
  refine ⟨program, k, finished (mem.toList.map UInt64.toNat) (handlerPermutation H sessionNonce)
    (trips ((mem.toList.map UInt64.toNat).take 22)), _, buildProgram_eq,
    lt_of_le_of_lt hk (by decide), ?_, rfl, rfl, rfl, rfl, rfl, program_run _ H sessionNonce hlen (hw mem), ?_, ?_⟩
  · rw [init_eq]
    exact hpath
  · simp only [result, fold, trips_acc]
  · intro mem' hsame
    have htake : (mem'.toList.map UInt64.toNat).take 22 = (mem.toList.map UInt64.toNat).take 22 := by
      apply List.ext_getElem
      · simp
      · intro i hi _
        have hlt : i < 22 := by simpa using hi
        have h := hsame ⟨i, by omega⟩ hlt
        simpa using congrArg UInt64.toNat h
    rw [← htake]
    exact program_run _ H sessionNonce (by simp) (hw mem')

end RankGate.Vm.CanonicalProgram
