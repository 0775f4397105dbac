/- Module: RankGate/Vm/CommittedBlob
   source: client/src/vm/bytecode_blob.cpp, server/app/bytecode_blob.py (load_bytecode)
   digest: Under the default key both committed blobs are the canonical program, and both machines run it. -/

import RankGate.Client.Blake2b
import RankGate.Crypto.Keystream
import RankGate.Vm.CanonicalProgram
import RankGate.Vm.EngineRefinement

set_option autoImplicit false
set_option relaxedAutoImplicit false
set_option maxRecDepth 4000

namespace RankGate.Vm.CommittedBlob

open ByteCodec (Bytes ascii beBytes)
open CanonicalProgram (program)
open EngineRefinement (widen)
open Lockstep (Engine)
open RankGate.Client (UsesBlake2b)
open RankGate.Client.Blake2b (shortDigest blake2b_eq_shortDigest length_shortDigest)
open RankGate.Crypto (Hashes Primitives)
open RankGate.Server.Config (Env)

/-- Hashes that can be run: the client's BLAKE2b on one block of data, and nothing else. -/
def shortHashes : Hashes where
  sha256 _ := ByteCodec.zeros 32
  hmacSha256 _ _ := ByteCodec.zeros 32
  blake2b := shortDigest
  length_sha256 _ := ByteCodec.length_zeros 32
  length_hmacSha256 _ _ := ByteCodec.length_zeros 32
  length_blake2b data key size _ _ _ := length_shortDigest data key size

def defaultBlobKey : Bytes := shortDigest (ascii "rankgate-insane-vm-blob-obfuscation/v6") [] 32

/-- The committed ciphertext under the default key. -/
theorem committed_blob :
    Server.CryptoBox.streamXor shortHashes defaultBlobKey Server.VmReference.encryptedBlob
      Server.Config.vmBlobDomain = program := by
  decide +kernel

section Load

variable {H : Hashes} (hH : UsesBlake2b H)

include hH

theorem blake2b_label :
    H.blake2b (ascii "rankgate-insane-vm-blob-obfuscation/v6") [] 32 = defaultBlobKey :=
  hH _ _ _ _ (blake2b_eq_shortDigest (by decide) (.inl rfl) (by decide) (by decide) (by decide))

theorem streamXor_committed :
    Server.CryptoBox.streamXor H defaultBlobKey Server.VmReference.encryptedBlob
      Server.Config.vmBlobDomain = program := by
  rw [← committed_blob]
  refine Crypto.Keystream.streamXor_congr (fun n => hH _ _ _ _ ?_) _
  have hkey : defaultBlobKey.length = 32 := length_shortDigest _ _ _
  have hdata : (Server.Config.vmBlobDomain ++ beBytes 8 n).length = 22 := by
    rw [List.length_append, ByteCodec.length_beBytes]
    rfl
  refine blake2b_eq_shortDigest (by omega) (.inr fun h => ?_) (by omega) (by decide) (by decide)
  rw [h] at hdata
  cases hdata

theorem client_loadBytecode : Client.Vm.loadBytecode H = program := by
  have hlabel : Client.Constants.vmBlobKeyLabel =
      ascii "rankgate-insane-vm-blob-obfuscation/v6" := Client.Constants.rgObf_eq _
  have hdomain : Client.Constants.vmBlobDomain = Server.Config.vmBlobDomain :=
    Client.Constants.rgObf_eq _
  have hblob : Client.Vm.kEncryptedBlob = Server.VmReference.encryptedBlob := by decide
  have hkey : defaultBlobKey.length ≤ 64 := by
    rw [defaultBlobKey, length_shortDigest]
    decide
  rw [Client.Vm.loadBytecode, hlabel, hdomain, hblob, blake2b_label hH,
    Crypto.Keystream.streamXor_eq H hkey, streamXor_committed hH]

end Load

theorem server_loadBytecode {P : Primitives} {env : Env} (hP : UsesBlake2b P.toHashes)
    (henv : env.vmBlobKey = none) : Server.VmReference.loadBytecode P env = program := by
  rw [Server.VmReference.loadBytecode, Server.Config.vmBlobKey, henv, Server.Config.seed32,
    blake2b_label hP, streamXor_committed hP]

section Run

variable (H : Hashes)

theorem run_agree {c : HandlerSimulation.CVm} {p t : HandlerSimulation.PVm}
    (hr : HandlerSimulation.Rel 0 false c p)
    (hrun : Server.VmReference.engine.run Server.VmReference.maxSteps p = .ok ((), t))
    (ht : t.halted = true) :
    ∃ r, c.run H = .ok r ∧ p.run H = .ok (widen r) ∧
      r.vmDigest.length = 32 ∧ r.vmStateHash.length = 32 := by
  obtain ⟨c', B, hclient, halted, hr'⟩ := EngineRefinement.client_run_of_halted hr hrun ht
  rw [Client.Vm.VM.run, Server.VmReference.VM.run, hclient, hrun]
  refine ⟨c'.finish H, rfl, EngineRefinement.finish_eq H hr', ?_, ?_⟩
  · simp [Client.Vm.VM.finish, Client.Constants.be64]
  · exact H.length_blake2b _ [] 32 (by decide) (by decide) (by decide)

theorem program_halts (mem : List Nat) (hlen : mem.length = 64) (sessionNonce : Bytes) :
    ∃ t, Server.VmReference.engine.run Server.VmReference.maxSteps
        (Server.VmReference.VM.init H program mem sessionNonce) = .ok ((), t) ∧
      t.halted = true := by
  obtain ⟨k, hk, hpath⟩ := CanonicalProgram.program_path mem
    (Server.VmReference.handlerPermutation H sessionNonce) hlen
  have hbudget : k ≤ Server.VmReference.maxSteps := hk.trans (by decide)
  rw [← CanonicalProgram.init_eq] at hpath
  exact ⟨_, Engine.run_eq_of_path hpath hbudget rfl, rfl⟩

/-- Both machines complete the canonical program on the inputs of a session, with one result. -/
theorem runBytecode_program (usernameNorm licenseStruct serverRandom sessionId
    transcriptPrefix sessionNonce : Bytes) :
    ∃ r, Client.Vm.runBytecode H program usernameNorm licenseStruct serverRandom sessionId
        transcriptPrefix sessionNonce = .ok r ∧
      Server.VmReference.runBytecode H program usernameNorm licenseStruct serverRandom sessionId
        transcriptPrefix sessionNonce = .ok (widen r) ∧
      r.vmDigest.length = 32 ∧ r.vmStateHash.length = 32 := by
  rw [Client.Vm.runBytecode, Server.VmReference.runBytecode, ← Words.packInputs_toNat]
  generalize Client.Vm.packInputs H usernameNorm licenseStruct serverRandom sessionId
    transcriptPrefix = mem
  obtain ⟨t, hrun, ht⟩ := program_halts H (mem.toList.map UInt64.toNat) (by simp) sessionNonce
  exact run_agree H (EngineRefinement.init_rel H program mem sessionNonce) hrun ht

end Run

/-- The refinement on the shipped program, with one byte more in every input. -/
theorem client_run_refines_reference_program : ∃ r r',
    Client.Vm.runBytecode shortHashes program [1] [1, 2] [1, 2, 3] [1, 2, 3, 4] [1, 2, 3, 4, 5]
      [1, 2, 3, 4, 5, 6] = .ok r ∧
    Server.VmReference.runBytecode shortHashes program [1] [1, 2] [1, 2, 3] [1, 2, 3, 4]
      [1, 2, 3, 4, 5] [1, 2, 3, 4, 5, 6] = .ok r' ∧
    r'.vmDigest = r.vmDigest ∧ r'.vmStateHash = r.vmStateHash ∧
    r'.vmPathId = r.vmPathId.toNat ∧ r'.vmHaltCode = r.vmHaltCode.toNat := by
  obtain ⟨r, hclient, -⟩ := runBytecode_program shortHashes [1] [1, 2] [1, 2, 3] [1, 2, 3, 4]
    [1, 2, 3, 4, 5] [1, 2, 3, 4, 5, 6]
  obtain ⟨r', hserver, hsame⟩ :=
    EngineRefinement.client_run_refines_reference shortHashes program _ _ _ _ _ _ r hclient
  exact ⟨r, r', hclient, hserver, hsame⟩

/-- The two `run_vm` agree on every session, as the two programs are committed. -/
theorem runVm_agree {P : Primitives} {env : Env} (hP : UsesBlake2b P.toHashes)
    (henv : env.vmBlobKey = none) (usernameNorm licenseStruct serverRandom sessionId
    transcriptPrefix sessionNonce : Bytes) :
    ∃ r, Client.Vm.runVm P.toHashes usernameNorm licenseStruct serverRandom sessionId
        transcriptPrefix sessionNonce = .ok r ∧
      Server.VmReference.runVm P env usernameNorm licenseStruct serverRandom sessionId
        transcriptPrefix sessionNonce = .ok (widen r) ∧
      r.vmDigest.length = 32 ∧ r.vmStateHash.length = 32 := by
  rw [Client.Vm.runVm, Server.VmReference.runVm, client_loadBytecode hP,
    server_loadBytecode hP henv]
  exact runBytecode_program _ _ _ _ _ _ _

end RankGate.Vm.CommittedBlob
