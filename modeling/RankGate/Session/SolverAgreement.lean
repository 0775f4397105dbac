/- Module: RankGate/Session/SolverAgreement
   source: tools/solve_full_challenge.py, client/src/net/protocol.cpp (run_session)
   digest: The reference solver takes every session the client takes, on the same frames. -/

import RankGate.Foundation.Parallel
import RankGate.Session.ClientSteps
import RankGate.Session.Script
import RankGate.Tools.Solver
import RankGate.Vm.CommittedBlob

set_option autoImplicit false
set_option relaxedAutoImplicit false

namespace RankGate.Session.SolverAgreement

open ByteCodec (Bytes zeros)
open Effects (Yields exec)
open Parallel (Alike Runs)
open RankGate.Client (UsesBlake2b)
open RankGate.Client.Protocol (Challenge Draws Endpoint Http)
open RankGate.Crypto (Hashes Primitives)
open RankGate.Server.Config (Env Failure)
open RankGate.Session.Script (bootstrapMacKey_eq computeProof1_eq computeProof2_eq widenKeys)
open RankGate.Tools
open RankGate.Wire.FrameAgreement
open RankGate.Wire.FrameExactness (WellFormed wellFormed_widen client_parse_ok)

section Seal

theorem serialize_widen {f : CFrame} (hp : f.encryptedPayload.length < 2 ^ 32) :
    (widen f).serialize = .ok f.serialize := by
  rw [serialize_eq hp]
  exact Server.Protocol.Frame.serialize_eq f.messageType.toNat_lt f.counter.toNat_lt hp

variable (P : Primitives) (t : CTranscript) (macKey aeadKey sid nonce payload : Bytes) (mt : UInt8)
  (counter : UInt64) (hp : payload.length < 2 ^ 32)

include hp

theorem plainSeal_widen (H : Hashes) :
    Server.ChallengeLogic.plainSeal H (widenT t) macKey mt.toNat sid counter.toNat nonce payload =
      .ok (widen (Client.Protocol.plainSeal H t macKey mt sid counter nonce payload).1,
        widenT (Client.Protocol.plainSeal H t macKey mt sid counter nonce payload).2) :=
  sealFrame_eq H t macKey sid nonce payload _ mt counter hp

theorem aeadSeal_widen :
    Server.ChallengeLogic.aeadSeal P (widenT t) macKey aeadKey mt.toNat sid counter.toNat nonce
        payload =
      .ok (widen (Client.Protocol.aeadSeal P t macKey aeadKey mt sid counter nonce payload).1,
        widenT (Client.Protocol.aeadSeal P t macKey aeadKey mt sid counter nonce payload).2) := by
  have hzeros : (zeros payload.length).length < 2 ^ 32 := by
    rw [ByteCodec.length_zeros]
    exact hp
  have haad : Server.Protocol.Frame.header
      ⟨mt.toNat, sid, counter.toNat, nonce, zeros payload.length, [], []⟩ =
        .ok (Client.BinaryFrame.Frame.header
          ⟨mt, sid, counter, nonce, zeros payload.length, [], []⟩) := by
    rw [header_eq hzeros]
    exact Server.Protocol.Frame.header_eq mt.toNat_lt counter.toNat_lt hzeros
  refine (Effects.except_bind_ok haad).trans ?_
  refine sealFrame_eq P.toHashes t macKey sid nonce _ _ mt counter ?_
  exact lt_of_eq_of_lt (Server.CryptoBox.length_aeadEncrypt_fst P aeadKey nonce payload _) hp

end Seal

section Open

variable (P : Primitives) (O : Prop)

theorem parse_alike (resp : Bytes) :
    Alike O
      (fun f g => g = widen f ∧ WellFormed f ∧ Client.BinaryFrame.Frame.parse resp = .ok f)
      (Client.BinaryFrame.Frame.parse resp) (Server.Protocol.Frame.parse resp) := by
  refine Alike.of_iff (fun f hf => ?_) fun g hg => ?_
  · obtain ⟨hwf, rfl⟩ := client_parse_ok hf
    refine ⟨widen f, ?_, rfl, hwf, hf⟩
    rw [serialize_eq hwf.payload_lt]
    exact Server.Protocol.Frame.parse_bytes (wellFormed_widen.mpr hwf)
  · obtain ⟨hwf, rfl⟩ := Server.Protocol.Frame.parse_ok hg
    exact ⟨narrow g, parse_bytes hwf⟩

theorem openFrame_alike (t : CTranscript) (macKey : Bytes) {f : CFrame} (hf : WellFormed f) :
    Alike O (fun t t' => t' = widenT t) (t.openFrame P.toHashes macKey f)
      ((widenT t).openFrame P.toHashes macKey (widen f)) := by
  refine Alike.of_iff (fun t' h => ⟨widenT t', ?_, rfl⟩) fun t' h => ⟨⟨t'.state⟩, ?_⟩
  · exact (openFrame_ok P.toHashes hf.payload_lt).mp h
  · exact (openFrame_ok P.toHashes hf.payload_lt).mpr h

def Opened (x : Bytes × CTranscript) (y : Bytes × STranscript) : Prop :=
  y.1 = x.1 ∧ y.2 = widenT x.2

theorem plainOpen_alike (t : CTranscript) (macKey : Bytes) {f : CFrame} (hf : WellFormed f) :
    Alike O Opened (Client.Protocol.plainOpen P.toHashes t macKey f)
      (Server.ChallengeLogic.plainOpen P.toHashes (widenT t) macKey (widen f)) := by
  refine (openFrame_alike P O t macKey hf).bind fun u u' hu => ?_
  subst hu
  exact .ok ⟨rfl, rfl⟩

theorem aeadDecrypt_alike (key nonce ct tag aad : Bytes) :
    Alike O Eq (Client.CryptoBox.aeadDecrypt P key nonce ct tag aad)
      (Server.CryptoBox.aeadDecrypt P key nonce ct tag aad) := by
  rw [Client.CryptoBox.aeadDecrypt, Server.CryptoBox.aeadDecrypt]
  cases P.aeadOpen key nonce (ct ++ tag) aad with
  | ok plaintext => exact .ok rfl
  | error e => exact .stop _ e

/-- The library's plaintext is as long as the ciphertext without its tag. -/
def OpensToLength (P : Primitives) : Prop :=
  ∀ key nonce sealed aad plaintext, P.aeadOpen key nonce sealed aad = .ok plaintext →
    plaintext.length + 16 = sealed.length

theorem aeadOpen_alike (t : CTranscript) (macKey aeadKey : Bytes) {f : CFrame} (hf : WellFormed f) :
    Alike O (fun x y => Opened x y ∧ (OpensToLength P → x.1.length = f.encryptedPayload.length))
      (Client.Protocol.aeadOpen P t macKey aeadKey f)
      (Server.ChallengeLogic.aeadOpen P (widenT t) macKey aeadKey (widen f)) := by
  refine (openFrame_alike P O t macKey hf).bind fun u u' hu => ?_
  subst hu
  have hheader : (widen f).header = .ok f.header := by
    rw [header_eq hf.payload_lt]
    exact (wellFormed_widen.mpr hf).header_eq
  rw [Effects.except_bind_ok hheader]
  cases hdec : P.aeadOpen aeadKey f.nonce (f.encryptedPayload ++ f.authTag) f.header with
  | ok plaintext =>
    have hclient : Client.CryptoBox.aeadDecrypt P aeadKey f.nonce f.encryptedPayload f.authTag
        f.header = .ok plaintext := by
      rw [Client.CryptoBox.aeadDecrypt, hdec]
    have hserver : Server.CryptoBox.aeadDecrypt P aeadKey (widen f).nonce
        (widen f).encryptedPayload (widen f).authTag f.header = .ok plaintext := hdec
    rw [Effects.except_bind_ok hclient, hserver]
    refine .ok ⟨⟨rfl, rfl⟩, fun hlen => ?_⟩
    have h := hlen _ _ _ _ _ hdec
    rw [List.length_append, hf.authTag] at h
    exact Nat.add_right_cancel h
  | error e =>
    have hclient : ∃ e', Client.CryptoBox.aeadDecrypt P aeadKey f.nonce f.encryptedPayload f.authTag
        f.header = .error e' := ⟨_, by rw [Client.CryptoBox.aeadDecrypt, hdec]⟩
    have hserver : Server.CryptoBox.aeadDecrypt P aeadKey (widen f).nonce
        (widen f).encryptedPayload (widen f).authTag f.header = .error e := hdec
    obtain ⟨e', hclient⟩ := hclient
    rw [Effects.except_bind_error hclient, hserver]
    exact .stop _ _

end Open

section Steps

variable (P : Primitives) (env : Env) (O : Prop) (d : Draws) {name license : Bytes}

def widenS (s : Client.Protocol.Session) : Solver.Session :=
  ⟨s.salt, widenKeys s.keys, Vm.EngineRefinement.widen s.vmres⟩

theorem length_helloPayload (hname : name.length ≤ 64) :
    (Client.Protocol.helloPayload P d name).length ≤ 2 ^ 20 := by
  simp only [Client.Protocol.helloPayload, Client.Constants.be16_eq, List.length_append,
    P.length_x25519Base, d.clientRandom.property, ByteCodec.length_beBytes]
  omega

theorem hello_widen (hname : name.length ≤ 64) :
    Solver.hello P d name = .ok (widen (Client.Protocol.hello P d name).1,
      widenT (Client.Protocol.hello P d name).2) := by
  have hlt : name.length < 2 ^ 16 := by omega
  have hulen : Server.Config.toBytes 2 name.length =
      .ok (Client.Constants.be16 (UInt16.ofNat name.length)) := by
    rw [Server.Config.toBytes_eq hlt, Client.Constants.be16_eq, UInt16.toNat_ofNat_of_lt' hlt]
  have hpayload : Solver.helloPayload P d name = .ok (Client.Protocol.helloPayload P d name) :=
    Effects.except_bind_ok hulen
  have hlen : (Client.Protocol.helloPayload P d name).length < 2 ^ 32 :=
    lt_of_le_of_lt (length_helloPayload P d hname) (by decide)
  refine (Effects.except_bind_ok hpayload).trans ?_
  rw [← init_eq, ← bootstrapMacKey_eq]
  exact plainSeal_widen _ _ _ _ _ Client.Constants.mtHello 1 hlen P.toHashes

/-- A payload that is too short has a short signature, which the solver refuses. -/
theorem openChallenge_alike (t : CTranscript) (resp : Bytes) :
    Alike O (fun x y => y.1 = (x.1.serverPub, x.1.serverRandom) ∧ y.2 = widenT x.2)
      (Client.Protocol.openChallenge P (Server.Config.serverSignPk P env) t resp)
      (Solver.openChallenge P env (widenT t) resp) := by
  refine ((parse_alike O resp).mapError_right _).bind fun f g hfg => ?_
  obtain ⟨rfl, hwf, -⟩ := hfg
  rw [← bootstrapMacKey_eq]
  refine ((plainOpen_alike P O t _ hwf).mapError_right _).bind ?_
  rintro ⟨payload, u⟩ ⟨payload', u'⟩ ⟨hpayload, hu⟩
  cases hpayload
  cases hu
  dsimp only
  by_cases hlen : 32 + 16 + 64 ≤ payload.length
  · rw [Effects.except_ensure_true hlen,
      Effects.except_bind_ok (Wire.Payloads.client_slice_eq (by omega)),
      Effects.except_bind_ok (Wire.Payloads.client_slice_eq (by omega)),
      Effects.except_bind_ok (Wire.Payloads.client_slice_eq (by omega)),
      Client.Constants.signContext, Client.Constants.rgObf_eq]
    exact Alike.ensure Iff.rfl fun _ => .ok ⟨rfl, rfl⟩
  · have hshort : (Server.Verifier.slice payload 48 112).length ≠ 64 := by
      rw [Server.Verifier.slice, List.length_take, List.length_drop]
      omega
    have hrefused (signed : Bytes) : ¬ Solver.ed25519Verify P (Server.Config.serverSignPk P env)
        signed (Server.Verifier.slice payload 48 112) = true := by
      rw [Solver.ed25519Verify, if_pos (.inr hshort)]
      exact Bool.false_ne_true
    rw [Effects.except_ensure_false hlen, Effects.except_ensure_false (hrefused _)]
    exact .stop _ _

theorem establish_alike (hblake : UsesBlake2b P.toHashes) (henv : env.vmBlobKey = none)
    (chal : Challenge) (t : CTranscript) :
    Alike O (fun s s' => s' = widenS s ∧ s.vmres.vmDigest.length = 32 ∧
        s.vmres.vmStateHash.length = 32)
      (Client.Protocol.establish P d name license chal t)
      (Solver.establish P env d name license chal.serverPub chal.serverRandom (widenT t)) := by
  have hshared : Alike O Eq (Client.CryptoBox.x25519Shared P d.priv.val chal.serverPub)
      (Server.ChallengeLogic.x25519Shared P d.priv.val chal.serverPub) := by
    rw [Client.CryptoBox.x25519Shared, Server.ChallengeLogic.x25519Shared]
    cases P.x25519Shared d.priv.val chal.serverPub with
    | some shared => exact .ok rfl
    | none => exact .stop _ _
  refine hshared.bind fun shared _ heq => ?_
  subst heq
  obtain ⟨vm, hclient, hserver, hdigest, hstate⟩ := Vm.CommittedBlob.runVm_agree hblake henv name
    license chal.serverRandom d.sessionId.val t.state chal.serverRandom
  have hkeys := Handlers.Specs.deriveKeys_eq P.toHashes
    (Server.CryptoBox.hkdfExtract P.toHashes (widenT t).state shared)
  change Server.VmReference.runVm P env name license chal.serverRandom d.sessionId.val
    (widenT t).state chal.serverRandom = _ at hserver
  rw [Effects.except_bind_ok hclient, Effects.except_bind_ok hkeys, Effects.except_bind_ok hserver]
  refine .ok ⟨?_, hdigest, hstate⟩
  rw [Script.deriveKeys_eq]
  rfl

variable {s : Client.Protocol.Session} (hname : name.length ≤ 64) (hlicense : license.length = 25)
  (hdigest : s.vmres.vmDigest.length = 32) (hstate : s.vmres.vmStateHash.length = 32)

include hlicense hdigest hstate in
theorem length_proof1Payload (chal : Challenge) :
    (Client.Protocol.proof1Payload P.toHashes d name license chal s).length ≤ 2 ^ 20 := by
  simp [Client.Protocol.proof1Payload, hlicense, hdigest, hstate, Client.Constants.be32_eq,
    Client.ProofBuilder.computeProof1]

include hname hlicense hdigest hstate in
theorem clientProof1_widen (chal : Challenge) (t : CTranscript) :
    Solver.clientProof1 P d name license chal.serverRandom (widenS s) (widenT t) =
      .ok (widen (Client.Protocol.clientProof1 P d name license chal s t).1,
        widenT (Client.Protocol.clientProof1 P d name license chal s t).2) := by
  have hproof := computeProof1_eq P.toHashes hname s.keys.proof1 license chal.serverRandom
    d.sessionId.val s.salt s.vmres
  have hbe32 (v : UInt32) : Server.Config.toBytes 4 v.toNat = .ok (Client.Constants.be32 v) := by
    rw [Server.Config.toBytes_eq v.toNat_lt, Client.Constants.be32_eq]
  have hpayload : Solver.proof1Payload P.toHashes d name license chal.serverRandom (widenS s) =
      .ok (Client.Protocol.proof1Payload P.toHashes d name license chal s) :=
    (Effects.except_bind_ok hproof).trans ((Effects.except_bind_ok (hbe32 _)).trans
      (Effects.except_bind_ok (hbe32 _)))
  have hlen : (Client.Protocol.proof1Payload P.toHashes d name license chal s).length < 2 ^ 32 :=
    lt_of_le_of_lt (length_proof1Payload P d hlicense hdigest hstate chal) (by decide)
  refine (Effects.except_bind_ok hpayload).trans ?_
  exact aeadSeal_widen P t _ _ _ _ _ Client.Constants.mtClientProof1 2 hlen

theorem clientProof2_widen (chal : Challenge) (serverChallenge2 : Bytes) (t : CTranscript) :
    Solver.clientProof2 P d chal.serverPub chal.serverRandom (widenS s) serverChallenge2 (widenT t) =
      .ok (widen (Client.Protocol.clientProof2 P d chal s serverChallenge2 t).1,
        widenT (Client.Protocol.clientProof2 P d chal s serverChallenge2 t).2) := by
  rw [Solver.clientProof2, Client.Protocol.clientProof2, computeProof2_eq]
  refine aeadSeal_widen P t _ _ _ _ _ Client.Constants.mtClientProof2 3 ?_
  rw [Server.Verifier.computeProof2, P.length_hmacSha256]
  decide

end Steps

/-! The answers to the two proofs. The client checks a length before it reads; the solver does not. -/

section Answers

variable (P : Primitives) {O : Prop} (s : Client.Protocol.Session) (t : CTranscript) {resp : Bytes}

def Carries (size : Nat → Prop) (resp : Bytes) : Prop :=
  ∀ f, Client.BinaryFrame.Frame.parse resp = .ok f → size f.encryptedPayload.length

theorem answer_alike (size : Nat → Prop) {f : CFrame} (hwf : WellFormed f)
    (hO : ¬ O → OpensToLength P ∧ size f.encryptedPayload.length) :
    Alike O (fun x y => Opened x y ∧ (¬ O → size x.1.length))
      (Client.Protocol.aeadOpen P t s.keys.mac s.keys.s2c f)
      (Solver.own (Server.ChallengeLogic.aeadOpen P (widenT t) (widenS s).keys.mac
        (widenS s).keys.s2c (widen f))) := by
  refine ((aeadOpen_alike P O t _ _ hwf).mapError_right _).mono fun x y _ _ h => ?_
  refine ⟨h.1, fun hno => ?_⟩
  obtain ⟨hopens, hsize⟩ := hO hno
  rw [h.2 hopens]
  exact hsize

theorem openServerProof1_alike (hO : ¬ O → OpensToLength P ∧ Carries (· = 48) resp) :
    Alike O Opened (Client.Protocol.openServerProof1 P s t resp)
      (Solver.openServerProof1 P (widenS s) (widenT t) resp) := by
  refine ((parse_alike O resp).mapError_right _).bind ?_
  rintro f _ ⟨rfl, hwf, hf⟩
  refine (answer_alike P s t (· = 48) hwf fun hno => ⟨(hO hno).1, (hO hno).2 f hf⟩).bind ?_
  rintro ⟨payload, u⟩ ⟨payload', u'⟩ ⟨⟨hpayload, hu⟩, hsize⟩
  cases hpayload
  cases hu
  dsimp only
  refine Alike.ensure_left (fun hlen => not_not.mp fun hno => hlen (hsize hno)) fun hlen => ?_
  rw [Effects.except_bind_ok (Wire.Payloads.client_slice_eq (by omega)),
    Effects.except_bind_ok (Wire.Payloads.client_slice_eq (by omega)),
    Client.Constants.sproof1Label, Client.Constants.rgObf_eq]
  exact Alike.ensure beq_iff_eq fun _ => .ok ⟨rfl, rfl⟩

theorem openSealedFlag_alike (hO : ¬ O → OpensToLength P ∧ Carries (40 ≤ ·) resp) :
    Alike O Eq (Client.Protocol.openSealedFlag P s t resp)
      (Solver.openSealedFlag P (widenS s) (widenT t) resp) := by
  refine ((parse_alike O resp).mapError_right _).bind ?_
  rintro f _ ⟨rfl, hwf, hf⟩
  refine (answer_alike P s t (40 ≤ ·) hwf fun hno => ⟨(hO hno).1, (hO hno).2 f hf⟩).bind ?_
  rintro ⟨blob, u⟩ ⟨blob', u'⟩ ⟨⟨hblob, hu⟩, hsize⟩
  cases hblob
  cases hu
  dsimp only
  refine Alike.ensure_left (fun hlen => not_not.mp fun hno => hlen (hsize hno)) fun hlen => ?_
  simp only [Client.Constants.szNonce, Client.Constants.szAuthtag, Server.Config.szNonce] at hlen ⊢
  have hct : blob.length - 24 - 16 = blob.length - 16 - 24 := Nat.sub_right_comm _ _ _
  have htag : (blob.drop (24 + (blob.length - 16 - 24))).take 16 =
      blob.drop (blob.length - 16) := by
    rw [show 24 + (blob.length - 16 - 24) = blob.length - 16 by omega, List.take_of_length_le]
    rw [List.length_drop]
    omega
  have hkey : Server.CryptoBox.hkdf P.toHashes (widenT t).state (widenS s).keys.sealKey
      (ByteCodec.ascii "RG6 seal") 32 = .ok (Client.CryptoBox.hkdf P.toHashes t.state s.keys.sealKey
        Client.Constants.sealInfo 32) := by
    rw [Server.CryptoBox.hkdf, Server.CryptoBox.hkdfExpand_32, Client.CryptoBox.hkdf,
      Client.CryptoBox.hkdfExpand_32, Client.Constants.sealInfo, Client.Constants.rgObf_eq]
    rfl
  rw [hct, Effects.except_bind_ok (Wire.Payloads.client_slice_eq (by omega)),
    Effects.except_bind_ok (Wire.Payloads.client_slice_eq (by omega)),
    Effects.except_bind_ok (Wire.Payloads.client_slice_eq (by omega)), htag, hkey]
  exact (aeadDecrypt_alike P O _ _ _ _ _).mapError_right _

end Answers

section Session

variable {σ : Type}

/-- The solver's transport answers what the client's answers, and refuses what it refuses. -/
def Matches (http : Http (StateM σ)) (send : Solver.Transport (StateM σ)) : Prop :=
  ∀ e raw s, (exec (http.post e raw) s).1.toOption = (exec (send e raw) s).1.toOption ∧
    (exec (http.post e raw) s).2 = (exec (send e raw) s).2

/-- The answers to the proofs have the sizes of the protocol. -/
structure Sized (http : Http (StateM σ)) : Prop where
  exchange : ∀ raw, Yields (Carries (· = 48)) (http.post .exchange raw)
  finalize : ∀ raw, Yields (Carries (40 ≤ ·)) (http.post .finalize raw)

variable {P : Primitives} {env : Env} {http : Http (StateM σ)} {send : Solver.Transport (StateM σ)}
  {name license : Bytes}

/-- Frame by frame, both sessions post the same and read the same. -/
theorem session_runs (hblake : UsesBlake2b P.toHashes) (henv : env.vmBlobKey = none)
    (hpk : ∀ s, exec http.publicKey s = (.ok (Server.Config.serverSignPk P env), s))
    (hsend : Matches http send) (d : Draws) (hname : name.length ≤ 64)
    (hlicense : license.length = 25) :
    Runs (¬ (OpensToLength P ∧ Sized http)) Eq (Client.Protocol.runSession P http d name license)
      (Solver.session P env send d name license) := by
  generalize hO : (¬ (OpensToLength P ∧ Sized http)) = O
  have hsized (hno : ¬ O) : OpensToLength P ∧ Sized http := by
    rw [← hO] at hno
    exact not_not.mp hno
  have hpost (e : Endpoint) (raw : Bytes) : Runs O Eq (http.post e raw) (send e raw) :=
    Runs.of_same (hsend e raw)
  have hkey : http.publicKey = pure (Server.Config.serverSignPk P env) := Effects.exec_ext hpk
  have hhello : WellFormed (Client.Protocol.hello P d name).1 :=
    ClientSteps.plainSeal_wellFormed _ _ _ _ _ _ _ d.sessionId.property d.helloNonce.property
      (length_helloPayload P d hname) P.toHashes
  rw [Client.Protocol.runSession, Solver.session, hkey, pure_bind, hello_widen P d hname]
  refine Runs.lift_right ?_
  dsimp only
  rw [serialize_widen hhello.payload_lt]
  refine Runs.lift_right ?_
  refine (hpost _ _).bind fun resp _ heq => ?_
  subst heq
  refine (Runs.lift (openChallenge_alike P env O _ resp)).bind ?_
  rintro ⟨chal, t₂⟩ ⟨_, _⟩ ⟨hpair, ht₂⟩
  dsimp only at hpair ht₂
  subst hpair ht₂
  dsimp only
  refine (Runs.lift ((establish_alike P env O d hblake henv chal t₂).mapError_right _)).bind ?_
  rintro s _ ⟨rfl, hdigest, hstate⟩
  rw [clientProof1_widen P d hname hlicense hdigest hstate chal t₂]
  have hproof1 : WellFormed (Client.Protocol.clientProof1 P d name license chal s t₂).1 :=
    ClientSteps.aeadSeal_wellFormed _ _ _ _ _ _ _ _ _ d.sessionId.property d.proof1Nonce.property
      (length_proof1Payload P d hlicense hdigest hstate chal)
  refine Runs.lift_right ?_
  dsimp only
  rw [serialize_widen hproof1.payload_lt]
  refine Runs.lift_right ?_
  refine ((hpost .exchange _).and_left fun hno => (hsized hno).2.exchange _).bind ?_
  rintro resp _ ⟨rfl, hsize⟩
  refine (Runs.lift (openServerProof1_alike P s _ fun hno => ⟨(hsized hno).1, hsize hno⟩)).bind ?_
  rintro ⟨_, t₄⟩ ⟨serverChallenge2, _⟩ ⟨hchallenge, ht₄⟩
  dsimp only at hchallenge ht₄
  subst hchallenge ht₄
  dsimp only
  rw [clientProof2_widen P d chal serverChallenge2 t₄]
  have hproof2 : WellFormed (Client.Protocol.clientProof2 P d chal s serverChallenge2 t₄).1 := by
    refine ClientSteps.aeadSeal_wellFormed _ _ _ _ _ _ _ _ _ d.sessionId.property
      d.proof2Nonce.property ?_
    rw [computeProof2_eq, Server.Verifier.computeProof2, P.length_hmacSha256]
    decide
  refine Runs.lift_right ?_
  dsimp only
  rw [serialize_widen hproof2.payload_lt]
  refine Runs.lift_right ?_
  refine ((hpost .finalize _).and_left fun hno => (hsized hno).2.finalize _).bind ?_
  rintro resp _ ⟨rfl, hsize⟩
  exact Runs.lift (openSealedFlag_alike P s _ fun hno => ⟨(hsized hno).1, hsize hno⟩)

end Session

end RankGate.Session.SolverAgreement
