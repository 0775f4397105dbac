/- Module: RankGate/Session/ProofEncoding
   source: client/src/challenge/proof_builder.cpp, server/app/verifier.py (stages 3 and 6)
   digest: The strings under the proof MACs: one on both sides, each with a single reading. -/

import RankGate.Client.ProofBuilder
import RankGate.Server.ChallengeLogic

set_option autoImplicit false
set_option relaxedAutoImplicit false

namespace RankGate.Session.ProofEncoding

open ByteCodec (Bytes BytesN ascii beBytes)
open RankGate.Client.Constants (be16 be32 be32_injective)
open RankGate.Client.Vm (VMResult)
open RankGate.Crypto (Hashes)

section Inputs

variable (H : Hashes)

/-- What `compute_proof1` accumulates in `in`. -/
def clientProof1In (usernameNorm licenseStruct : Bytes) (vm : VMResult)
    (serverRandom sessionId transcriptPrefix : Bytes) : Bytes :=
  Client.Constants.proof1Label ++ be16 (UInt16.ofNat usernameNorm.length) ++ usernameNorm ++
    licenseStruct ++ vm.vmDigest ++ vm.vmStateHash ++ be32 vm.vmPathId ++ be32 vm.vmHaltCode ++
    serverRandom ++ sessionId ++ transcriptPrefix

theorem computeProof1_mac (key usernameNorm licenseStruct : Bytes) (vm : VMResult)
    (serverRandom sessionId transcriptPrefix : Bytes) :
    Client.ProofBuilder.computeProof1 H key usernameNorm licenseStruct vm serverRandom sessionId
        transcriptPrefix =
      H.hmacSha256 key
        (clientProof1In usernameNorm licenseStruct vm serverRandom sessionId transcriptPrefix) :=
  rfl

/-- What `compute_proof2` accumulates in `in`. -/
def clientProof2In (serverChallenge2 serverRandom serverPub vmDigest transcriptPrefix : Bytes) :
    Bytes :=
  Client.Constants.proof2Label ++ serverChallenge2 ++ serverRandom ++ serverPub ++ vmDigest ++
    transcriptPrefix

theorem computeProof2_mac (key serverChallenge2 serverRandom serverPub vmDigest
    transcriptPrefix : Bytes) :
    Client.ProofBuilder.computeProof2 H key serverChallenge2 serverRandom serverPub vmDigest
        transcriptPrefix =
      H.hmacSha256 key
        (clientProof2In serverChallenge2 serverRandom serverPub vmDigest transcriptPrefix) :=
  rfl

/-- What `handle_exchange` authenticates as the server's own proof. -/
def serverProof1In (transcriptState vmDigest serverChallenge2 : Bytes) : Bytes :=
  ascii "RG6-SPROOF1/v6" ++ transcriptState ++ vmDigest ++ serverChallenge2

theorem serverProof1_mac (keys : Server.Sessions.Keys) (t : Server.Protocol.Transcript)
    (vmDigest serverChallenge2 : Bytes) :
    Server.ChallengeLogic.serverProof1Payload H keys t vmDigest serverChallenge2 =
      H.hmacSha256 keys.sproof1 (serverProof1In t.state vmDigest serverChallenge2) ++
        serverChallenge2 :=
  rfl

theorem proof1Label_eq : Client.Constants.proof1Label = ascii "RG6-PROOF1/v6" :=
  Client.Constants.rgObf_eq _

theorem proof2Label_eq : Client.Constants.proof2Label = ascii "RG6-PROOF2/v6" :=
  Client.Constants.rgObf_eq _

end Inputs

section Agree

variable {name : Bytes} (license : Bytes) (vm : VMResult) (serverRandom sessionId salt : Bytes)

theorem proof1Input_eq (hname : name.length < 65536) :
    Server.Verifier.proof1Input name license vm.vmDigest vm.vmStateHash vm.vmPathId.toNat
        vm.vmHaltCode.toNat serverRandom sessionId salt =
      .ok (clientProof1In name license vm serverRandom sessionId salt) := by
  have hlen : (UInt16.ofNat name.length).toNat = name.length := UInt16.toNat_ofNat_of_lt' hname
  have hu : Server.Config.toBytes 2 name.length = .ok (beBytes 2 name.length) :=
    Server.Config.toBytes_eq hname
  have hpath : Server.Config.toBytes 4 vm.vmPathId.toNat = .ok (beBytes 4 vm.vmPathId.toNat) :=
    Server.Config.toBytes_eq vm.vmPathId.toNat_lt
  have hhalt : Server.Config.toBytes 4 vm.vmHaltCode.toNat = .ok (beBytes 4 vm.vmHaltCode.toNat) :=
    Server.Config.toBytes_eq vm.vmHaltCode.toNat_lt
  rw [Server.Verifier.proof1Input, hu, hpath, hhalt, clientProof1In, proof1Label_eq,
    Client.Constants.be16_eq, Client.Constants.be32_eq, Client.Constants.be32_eq, hlen]
  rfl

theorem proof2Input_eq (serverChallenge2 serverRandom serverPub vmDigest salt : Bytes) :
    Server.Verifier.proof2Input serverChallenge2 serverRandom serverPub vmDigest salt =
      clientProof2In serverChallenge2 serverRandom serverPub vmDigest salt := by
  rw [Server.Verifier.proof2Input, clientProof2In, proof2Label_eq]

end Agree

@[ext] structure Proof1Fields where
  usernameNorm : {b : Bytes // b.length < 65536}
  licenseStruct : BytesN 25
  vmDigest : BytesN 32
  vmStateHash : BytesN 32
  vmPathId : UInt32
  vmHaltCode : UInt32
  serverRandom : BytesN 16
  sessionId : BytesN 16
  transcriptPrefix : BytesN 32

namespace Proof1Fields

def vm (f : Proof1Fields) : VMResult :=
  ⟨f.vmDigest.val, f.vmStateHash.val, f.vmPathId, f.vmHaltCode⟩

def input (f : Proof1Fields) : Bytes :=
  clientProof1In f.usernameNorm.val f.licenseStruct.val f.vm f.serverRandom.val f.sessionId.val
    f.transcriptPrefix.val

end Proof1Fields

@[ext] structure Proof2Fields where
  serverChallenge2 : BytesN 16
  serverRandom : BytesN 16
  serverPub : BytesN 32
  vmDigest : BytesN 32
  transcriptPrefix : BytesN 32

def Proof2Fields.input (f : Proof2Fields) : Bytes :=
  clientProof2In f.serverChallenge2.val f.serverRandom.val f.serverPub.val f.vmDigest.val
    f.transcriptPrefix.val

section Unambiguous

theorem append_field {n : Nat} {a b : Bytes} {x y : BytesN n} (h : a ++ x.val = b ++ y.val) :
    a = b ∧ x = y := by
  obtain ⟨hab, hxy⟩ := List.append_inj' h (x.property.trans y.property.symm)
  exact ⟨hab, Subtype.ext hxy⟩

theorem append_be32 {a b : Bytes} {v w : UInt32} (h : a ++ be32 v = b ++ be32 w) :
    a = b ∧ v = w := by
  obtain ⟨hab, hvw⟩ := List.append_inj' h rfl
  exact ⟨hab, be32_injective hvw⟩

/-- Fields come off the end one by one; what is left of the name starts at a fixed offset. -/
theorem proof1_injective : Function.Injective Proof1Fields.input := by
  intro f g h
  simp only [Proof1Fields.input, Proof1Fields.vm, clientProof1In] at h
  obtain ⟨h, hprefix⟩ := append_field h
  obtain ⟨h, hsession⟩ := append_field h
  obtain ⟨h, hrandom⟩ := append_field h
  obtain ⟨h, hhalt⟩ := append_be32 h
  obtain ⟨h, hpath⟩ := append_be32 h
  obtain ⟨h, hstate⟩ := append_field h
  obtain ⟨h, hdigest⟩ := append_field h
  obtain ⟨h, hlicense⟩ := append_field h
  obtain ⟨-, hname⟩ := List.append_inj h rfl
  exact Proof1Fields.ext (Subtype.ext hname) hlicense hdigest hstate hpath hhalt hrandom hsession
    hprefix

theorem proof2_injective : Function.Injective Proof2Fields.input := by
  intro f g h
  simp only [Proof2Fields.input, clientProof2In] at h
  obtain ⟨h, hprefix⟩ := append_field h
  obtain ⟨h, hdigest⟩ := append_field h
  obtain ⟨h, hpub⟩ := append_field h
  obtain ⟨h, hrandom⟩ := append_field h
  obtain ⟨-, hchallenge⟩ := append_field h
  exact Proof2Fields.ext hchallenge hrandom hpub hdigest hprefix

theorem labels_differ {l m a b : Bytes} {n : Nat} (hl : n ≤ l.length) (hm : n ≤ m.length)
    (h : l.take n ≠ m.take n) : l ++ a ≠ m ++ b := by
  intro heq
  have htake := congrArg (List.take n) heq
  rw [List.take_append_of_le_length hl, List.take_append_of_le_length hm] at htake
  exact h htake

theorem proof1_ne_proof2 (name license : Bytes) (vm : VMResult) (serverRandom sessionId
    salt serverChallenge2 serverRandom' serverPub vmDigest salt' : Bytes) :
    clientProof1In name license vm serverRandom sessionId salt ≠
      clientProof2In serverChallenge2 serverRandom' serverPub vmDigest salt' := by
  simp only [clientProof1In, clientProof2In, List.append_assoc, proof1Label_eq, proof2Label_eq]
  exact labels_differ (n := 10) (by decide) (by decide) (by decide)

theorem proof1_ne_serverProof1 (name license : Bytes) (vm : VMResult) (serverRandom sessionId
    salt transcriptState vmDigest serverChallenge2 : Bytes) :
    clientProof1In name license vm serverRandom sessionId salt ≠
      serverProof1In transcriptState vmDigest serverChallenge2 := by
  simp only [clientProof1In, serverProof1In, List.append_assoc, proof1Label_eq]
  exact labels_differ (n := 5) (by decide) (by decide) (by decide)

end Unambiguous

/-- Both sides authenticate one string for each proof, the string determines the fields it was
built from, and no string for the first proof is one for the second or for the server's own. -/
theorem proof_inputs_unambiguous :
    (∀ f : Proof1Fields,
      (∀ (H : Hashes) (key : Bytes), Client.ProofBuilder.computeProof1 H key f.usernameNorm.val
        f.licenseStruct.val f.vm f.serverRandom.val f.sessionId.val f.transcriptPrefix.val =
          H.hmacSha256 key f.input) ∧
      Server.Verifier.proof1Input f.usernameNorm.val f.licenseStruct.val f.vmDigest.val
        f.vmStateHash.val f.vmPathId.toNat f.vmHaltCode.toNat f.serverRandom.val f.sessionId.val
        f.transcriptPrefix.val = .ok f.input) ∧
    (∀ f : Proof2Fields,
      (∀ (H : Hashes) (key : Bytes), Client.ProofBuilder.computeProof2 H key
        f.serverChallenge2.val f.serverRandom.val f.serverPub.val f.vmDigest.val
        f.transcriptPrefix.val = H.hmacSha256 key f.input) ∧
      Server.Verifier.proof2Input f.serverChallenge2.val f.serverRandom.val f.serverPub.val
        f.vmDigest.val f.transcriptPrefix.val = f.input) ∧
    Function.Injective Proof1Fields.input ∧ Function.Injective Proof2Fields.input ∧
    (∀ (f : Proof1Fields) (g : Proof2Fields), f.input ≠ g.input) ∧
    (∀ (H : Hashes) (keys : Server.Sessions.Keys) (t : Server.Protocol.Transcript)
      (vmDigest serverChallenge2 : Bytes),
      Server.ChallengeLogic.serverProof1Payload H keys t vmDigest serverChallenge2 =
        H.hmacSha256 keys.sproof1 (serverProof1In t.state vmDigest serverChallenge2) ++
          serverChallenge2) ∧
    (∀ (f : Proof1Fields) (transcriptState vmDigest serverChallenge2 : Bytes),
      f.input ≠ serverProof1In transcriptState vmDigest serverChallenge2) := by
  refine ⟨?_, ?_, proof1_injective, proof2_injective, ?_, serverProof1_mac, ?_⟩
  · intro f
    refine ⟨fun H key => computeProof1_mac H key _ _ _ _ _ _, ?_⟩
    exact proof1Input_eq _ f.vm _ _ _ f.usernameNorm.property
  · intro f
    exact ⟨fun H key => computeProof2_mac H key _ _ _ _ _, proof2Input_eq _ _ _ _ _⟩
  · intro f g
    exact proof1_ne_proof2 _ _ _ _ _ _ _ _ _ _ _
  · intro f transcriptState vmDigest serverChallenge2
    exact proof1_ne_serverProof1 _ _ _ _ _ _ _ _ _

end RankGate.Session.ProofEncoding
