/- Module: RankGate/Session/License
   source: server/app/verifier.py (build_license_struct, validate_license)
   digest: The field layout of the license, and that a license built for a name validates for it. -/

import RankGate.Foundation.Records
import RankGate.Server.Verifier

set_option autoImplicit false
set_option relaxedAutoImplicit false

namespace RankGate.Session.License

open ByteCodec (Bytes ascii)
open RankGate.Crypto (Hashes Primitives)
open RankGate.Server
open RankGate.Server.Config (Env)
open RankGate.Server.Verifier

theorem byteAt_of_take {b : Bytes} {v : UInt8} {i : Nat} (h : (b.drop i).take 1 = [v]) :
    byteAt b i = .ok v := by
  have hhead := congrArg List.head? h
  rw [List.head?_take, if_neg Nat.one_ne_zero, List.head?_drop, List.head?_cons] at hhead
  rw [byteAt, hhead]

structure Fields where
  version : UInt8
  fragment : Bytes
  proofSeed : Bytes
  vmSeed : Bytes
  parity : UInt8
  timestamp : Bytes
  length_fragment : fragment.length = 4
  length_proofSeed : proofSeed.length = 8
  length_vmSeed : vmSeed.length = 4
  length_timestamp : timestamp.length = 3

namespace Fields

variable (l : Fields)

def payload17 : Bytes := [l.version] ++ l.fragment ++ l.proofSeed ++ l.vmSeed

def payload21 : Bytes := l.payload17 ++ [l.parity] ++ l.timestamp

theorem length_payload17 : l.payload17.length = 17 := by
  simp [payload17, l.length_fragment, l.length_proofSeed, l.length_vmSeed]

@[simp] theorem length_payload21 : l.payload21.length = 21 := by
  simp [payload21, l.length_payload17, l.length_timestamp]

variable (c : Bytes)

theorem slice_payload17 : slice (l.payload21 ++ c) 0 17 = l.payload17 := by
  rw [slice, payload21, List.append_assoc, List.append_assoc]
  exact List.take_left' l.length_payload17

theorem slice_payload21 : slice (l.payload21 ++ c) 0 21 = l.payload21 :=
  List.take_left' l.length_payload21

theorem cut_struct (hc : c.length = 4) : Records.cut [1, 4, 8, 4, 1, 3, 4] (l.payload21 ++ c) =
    [[l.version], l.fragment, l.proofSeed, l.vmSeed, [l.parity], l.timestamp, c] := by
  have h := Records.cut_flatten [[l.version], l.fragment, l.proofSeed, l.vmSeed, [l.parity],
    l.timestamp, c]
  simpa [payload21, payload17, l.length_fragment, l.length_proofSeed, l.length_vmSeed,
    l.length_timestamp, hc] using h

theorem parseLicense_struct (hc : c.length = 4) : parseLicense (l.payload21 ++ c) = .ok {
    version := l.version
    fragment := l.fragment
    proofSeed := l.proofSeed
    vmSeed := l.vmSeed
    parity := l.parity
    timestamp := l.timestamp
    checksum := c
    raw := l.payload21 ++ c } := by
  have hcut := l.cut_struct c hc
  generalize l.payload21 ++ c = struct at hcut ⊢
  simp only [Records.cut, List.drop_drop, List.cons.injEq, and_true] at hcut
  obtain ⟨hversion, hfragment, hproofSeed, hvmSeed, hparity, htimestamp, hchecksum⟩ := hcut
  refine (Effects.except_bind_ok (byteAt_of_take (i := 0) hversion)).trans ?_
  refine (Effects.except_bind_ok (byteAt_of_take hparity)).trans ?_
  rw [← hfragment, ← hproofSeed, ← hvmSeed, ← htimestamp, ← hchecksum]
  rfl

end Fields

section Build

variable (P : Primitives) (env : Env) (usernameNorm : Bytes)

theorem length_licenseSecret : (Config.licenseSecret P env).length ≤ 64 := by
  rw [Config.licenseSecret, Config.length_seed32]
  decide

theorem length_checksum (payload : Bytes) : (checksum P env payload).length = 4 :=
  P.length_blake2b _ _ 4 (length_licenseSecret P env) (by decide) (by decide)

def built : Fields where
  version := UInt8.ofNat Config.licenseVersion
  fragment := fragment P.toHashes usernameNorm
  proofSeed := P.blake2b (ascii "proof-seed" ++ usernameNorm) (Config.licenseSecret P env) 8
  vmSeed := P.blake2b (ascii "vm-seed" ++ usernameNorm) (Config.licenseSecret P env) 4
  parity := parityOf ([UInt8.ofNat Config.licenseVersion] ++ fragment P.toHashes usernameNorm ++
    P.blake2b (ascii "proof-seed" ++ usernameNorm) (Config.licenseSecret P env) 8 ++
    P.blake2b (ascii "vm-seed" ++ usernameNorm) (Config.licenseSecret P env) 4)
  timestamp := P.blake2b (ascii "ts" ++ usernameNorm) [] 3
  length_fragment := P.length_blake2b _ _ 4 (by decide) (by decide) (by decide)
  length_proofSeed :=
    P.length_blake2b _ _ 8 (length_licenseSecret P env) (by decide) (by decide)
  length_vmSeed := P.length_blake2b _ _ 4 (length_licenseSecret P env) (by decide) (by decide)
  length_timestamp := P.length_blake2b _ _ 3 (by decide) (by decide) (by decide)

theorem buildLicenseStruct_eq : buildLicenseStruct P env usernameNorm =
    (built P env usernameNorm).payload21 ++ checksum P env (built P env usernameNorm).payload21 :=
  rfl

theorem length_buildLicenseStruct : (buildLicenseStruct P env usernameNorm).length = 25 := by
  rw [buildLicenseStruct_eq, List.length_append, Fields.length_payload21, length_checksum]

/-- Stage 2 accepts a structure exactly when its four bound fields are right. -/
theorem validateLicense_iff (l : Fields) {c : Bytes} (hc : c.length = 4) :
    (∃ lic, validateLicense P env usernameNorm (l.payload21 ++ c) = .ok lic) ↔
      l.version.toNat = Config.licenseVersion ∧ l.fragment = fragment P.toHashes usernameNorm ∧
        parityOf l.payload17 = l.parity ∧ c = checksum P env l.payload21 := by
  have hparse := l.parseLicense_struct c hc
  rw [validateLicense, Effects.except_bind_ok hparse, Fields.slice_payload17,
    Fields.slice_payload21]
  constructor
  · rintro ⟨lic, h⟩
    obtain ⟨hversion, h⟩ := Effects.except_ensure_eq_ok h
    obtain ⟨hfragment, h⟩ := Effects.except_ensure_eq_ok h
    obtain ⟨hparity, h⟩ := Effects.except_ensure_eq_ok h
    obtain ⟨hchecksum, -⟩ := Effects.except_ensure_eq_ok h
    exact ⟨hversion, hfragment, hparity, hchecksum⟩
  · rintro ⟨hversion, hfragment, hparity, hchecksum⟩
    rw [Effects.except_ensure_true hversion, Effects.except_ensure_true hfragment,
      Effects.except_ensure_true hparity, Effects.except_ensure_true hchecksum]
    exact ⟨_, rfl⟩

/-- The license built for a name passes every check of stage 2. -/
theorem validateLicense_build : ∃ lic,
    validateLicense P env usernameNorm (buildLicenseStruct P env usernameNorm) = .ok lic := by
  rw [buildLicenseStruct_eq]
  refine (validateLicense_iff P env usernameNorm _ (length_checksum P env _)).mpr ?_
  exact ⟨by rfl, rfl, rfl, rfl⟩

end Build

end RankGate.Session.License
