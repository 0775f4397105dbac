/- Module: RankGate/Vm/PathParity
   source: tools/generate_vm_bytecode.py (build_program), server/app/vm_reference.py (_fold_path, _finish)
   digest: The control flow of the canonical program, and with it the path id, sees 22 low bits of memory. -/

import RankGate.Vm.CanonicalProgram

set_option autoImplicit false
set_option relaxedAutoImplicit false

namespace RankGate.Vm.PathParity

open ByteCodec (Bytes)
open CanonicalProgram (Trip buildProgram_eq finished program program_run result trips trips_append)
open ReferenceSteps (pathAfter)
open RankGate.Crypto (Hashes)
open RankGate.Server.VmReference
open RankGate.Tools.VmBytecode (buildProgram)

/-! The path on branch outcomes alone: two tests an iteration, one more at the exit, three rounds. -/

/-- One iteration: the loop test fails, the parity test is taken on an even word. -/
def iteration (path : Nat) (even : Bool) : Nat := pathAfter (pathAfter path 86 false) 109 even

def exit (path : Nat) : Nat :=
  pathAfter (pathAfter (pathAfter (pathAfter path 86 true) 223 true) 223 true) 223 false

/-- The path id of a run, from the parities of the words it reads. -/
def pathOf (evens : List Bool) : Nat := exit (evens.foldl iteration Trip.start.path) % 2 ^ 32

def parities (mem : Vector UInt64 64) : List Bool :=
  (mem.toList.take 22).map fun w => decide (w.toNat % 2 = 0)

/-- Two loop states are indistinguishable to the branches: same index, same path. Accumulators,
words and flags may differ. -/
structure SameControl (t u : Trip) : Prop where
  i : t.i = u.i
  path : t.path = u.path

theorem SameControl.next {t u : Trip} {w v : Nat} (h : SameControl t u)
    (hwv : w % 2 = v % 2) : SameControl (t.next w) (u.next v) where
  i := by rw [Trip.next, Trip.next, h.i]
  path := by rw [Trip.next, Trip.next, h.path, hwv]

/-- Two loops over words of pairwise one parity. -/
theorem SameControl.trips {ws vs : List Nat} (h : List.Forall₂ (fun w v => w % 2 = v % 2) ws vs) :
    SameControl (trips ws) (trips vs) := by
  have hfold : ∀ t u, SameControl t u → SameControl (ws.foldl Trip.next t) (vs.foldl Trip.next u) := by
    induction h with
    | nil =>
      intro t u htu
      exact htu
    | cons hwv _ ih =>
      intro t u htu
      exact ih _ _ (htu.next hwv)
  exact hfold _ _ ⟨rfl, rfl⟩

theorem next_path (t : Trip) (w : Nat) :
    (t.next w).path = iteration t.path (decide (w % 2 = 0)) := by
  rw [Trip.next, iteration]

theorem trips_path (ws : List Nat) :
    (trips ws).path = (ws.map fun w => decide (w % 2 = 0)).foldl iteration Trip.start.path := by
  induction ws using List.reverseRecOn with
  | nil => rw [trips, List.map_nil, List.foldl_nil, List.foldl_nil]
  | append_singleton ws w ih =>
    rw [trips_append, next_path, ih, List.map_append, List.foldl_append, List.map_cons,
      List.map_nil, List.foldl_cons, List.foldl_nil]

theorem result_path (H : Hashes) (t : Trip) : (result H t).vmPathId = exit t.path % 2 ^ 32 := by
  simp only [result, finished, exit, Words.land_m32]

theorem result_haltCode (H : Hashes) (t : Trip) :
    (result H t).vmHaltCode = 0x42 ^^^ ((result H t).vmPathId % 256) := by
  have hcode : (result H t).vmHaltCode = (0x42 ^^^ (exit t.path &&& 0xFF)) &&& m32 := by
    simp only [result, finished, exit]
  have hmask : exit t.path &&& 0xFF = exit t.path % 256 :=
    Nat.and_two_pow_sub_one_eq_mod (exit t.path) 8
  have hlow : exit t.path % 256 < 2 ^ 8 := Nat.mod_lt _ (by decide)
  have hxor : 0x42 ^^^ (exit t.path % 256) < 2 ^ 8 := Nat.xor_lt_two_pow (by decide) hlow
  rw [hcode, hmask, Words.land_m32, result_path, Nat.mod_mod_of_dvd _ (by decide),
    Nat.mod_eq_of_lt (hxor.trans (by decide))]

theorem program_runs (H : Hashes) (mem : Vector UInt64 64) (sessionNonce : Bytes) :
    (VM.init H program (mem.toList.map UInt64.toNat) sessionNonce).run H =
      .ok (result H (trips ((mem.toList.take 22).map UInt64.toNat))) := by
  rw [List.map_take]
  refine program_run _ H sessionNonce (by simp) ?_
  intro w hw
  obtain ⟨v, -, rfl⟩ := List.mem_map.mp hw
  exact v.toNat_lt

/-- The path id and the halt code of the canonical program are functions of the parities of words
0 to 21: two runs whose memories agree there agree on both, whatever else differs and whatever the
session nonces, and the halt code is the path id's low byte under 0x42. -/
theorem canonical_path_reveals_parities (H : Hashes) :
    ∃ code, buildProgram = .ok code ∧
      ∀ (mem : Vector UInt64 64) (sessionNonce : Bytes), ∃ r,
        (VM.init H code (mem.toList.map UInt64.toNat) sessionNonce).run H = .ok r ∧
        r.vmPathId = pathOf (parities mem) ∧ r.vmHaltCode = 0x42 ^^^ (r.vmPathId % 256) ∧
        ∀ (mem' : Vector UInt64 64) (sessionNonce' : Bytes),
          (∀ i : Fin 64, i.val < 22 → mem'.get i % 2 = mem.get i % 2) →
          ∃ r', (VM.init H code (mem'.toList.map UInt64.toNat) sessionNonce').run H = .ok r' ∧
            r'.vmPathId = r.vmPathId ∧ r'.vmHaltCode = r.vmHaltCode := by
  refine ⟨program, buildProgram_eq, ?_⟩
  intro mem sessionNonce
  refine ⟨_, program_runs H mem sessionNonce, ?_, result_haltCode H _, ?_⟩
  · rw [result_path, trips_path, List.map_map]
    rfl
  · intro mem' sessionNonce' hsame
    have hwords : List.Forall₂ (fun w v => w % 2 = v % 2)
        ((mem'.toList.take 22).map UInt64.toNat) ((mem.toList.take 22).map UInt64.toNat) := by
      refine List.forall₂_iff_get.mpr ⟨by simp, ?_⟩
      intro i hi hi'
      have hlt : i < 22 := by simpa using hi
      have hword : i < 64 := by omega
      have h : (mem'[i] % 2).toNat = (mem[i] % 2).toNat :=
        congrArg UInt64.toNat (hsame ⟨i, hword⟩ hlt)
      simpa using h
    have hcontrol := SameControl.trips hwords
    have hpath : (result H (trips ((mem'.toList.take 22).map UInt64.toNat))).vmPathId =
        (result H (trips ((mem.toList.take 22).map UInt64.toNat))).vmPathId := by
      rw [result_path, result_path, hcontrol.path]
    refine ⟨_, program_runs H mem' sessionNonce', hpath, ?_⟩
    rw [result_haltCode, result_haltCode, hpath]

end RankGate.Vm.PathParity
