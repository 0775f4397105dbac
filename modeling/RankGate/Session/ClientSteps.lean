/- Module: RankGate/Session/ClientSteps
   source: client/src/net/protocol.cpp (run_session)
   digest: What it takes for the client to go on, at each of the steps that receive and over the session. -/

import RankGate.Wire.FrameExactness
import RankGate.Wire.Payloads

set_option autoImplicit false
set_option relaxedAutoImplicit false

namespace RankGate.Session.ClientSteps

open ByteCodec (Bytes)
open Effects (exec)
open RankGate.Client.BinaryFrame (Frame Transcript)
open RankGate.Client.CryptoBox (aeadDecrypt ctEqual ed25519Verify hkdf)
open RankGate.Client.Protocol
open RankGate.Crypto (Hashes Primitives)
open RankGate.Wire.FrameExactness (WellFormed)
open RankGate.Wire.Payloads (ChallengeFields ServerProof1Fields client_slice_eq)

section Seal

variable (P : Primitives) (t : Transcript) (macKey aeadKey : Bytes) (mt : UInt8) (sid : Bytes)
  (counter : UInt64) (nonce payload : Bytes)

theorem openFrame_sealFrame (H : Hashes) (tag : Bytes) :
    t.openFrame H macKey (t.sealFrame H macKey mt sid counter nonce payload tag).1 =
      .ok (t.sealFrame H macKey mt sid counter nonce payload tag).2 :=
  Effects.except_ensure_true (beq_self_eq_true _)

theorem plainOpen_plainSeal (H : Hashes) :
    plainOpen H t macKey (plainSeal H t macKey mt sid counter nonce payload).1 =
      .ok (payload, (plainSeal H t macKey mt sid counter nonce payload).2) :=
  Effects.except_bind_ok (openFrame_sealFrame t macKey mt sid counter nonce payload H _)

theorem aeadEncrypt_append (key plaintext aad : Bytes) :
    (Client.CryptoBox.aeadEncrypt P key nonce plaintext aad).1 ++
      (Client.CryptoBox.aeadEncrypt P key nonce plaintext aad).2 =
        P.aeadSeal key nonce plaintext aad := List.take_append_drop _ _

theorem length_aeadEncrypt_fst (key plaintext aad : Bytes) :
    (Client.CryptoBox.aeadEncrypt P key nonce plaintext aad).1.length = plaintext.length := by
  simp [Client.CryptoBox.aeadEncrypt]

theorem length_aeadEncrypt_snd (key plaintext aad : Bytes) :
    (Client.CryptoBox.aeadEncrypt P key nonce plaintext aad).2.length = 16 := by
  simp [Client.CryptoBox.aeadEncrypt]

theorem aeadDecrypt_aeadEncrypt (hsound : Crypto.Sound P) (key plaintext aad : Bytes) :
    aeadDecrypt P key nonce (Client.CryptoBox.aeadEncrypt P key nonce plaintext aad).1
      (Client.CryptoBox.aeadEncrypt P key nonce plaintext aad).2 aad = .ok plaintext := by
  rw [aeadDecrypt, aeadEncrypt_append, hsound.aead]

theorem aeadOpen_aeadSeal (hsound : Crypto.Sound P) :
    aeadOpen P t macKey aeadKey (aeadSeal P t macKey aeadKey mt sid counter nonce payload).1 =
      .ok (payload, (aeadSeal P t macKey aeadKey mt sid counter nonce payload).2) := by
  generalize haad : Frame.header ⟨mt, sid, counter, nonce, ByteCodec.zeros payload.length, [], []⟩ =
    aad
  generalize hsealed : Client.CryptoBox.aeadEncrypt P aeadKey nonce payload aad = sealed
  have hseal : aeadSeal P t macKey aeadKey mt sid counter nonce payload =
      t.sealFrame P.toHashes macKey mt sid counter nonce sealed.1 sealed.2 := by
    rw [aeadSeal, haad, hsealed]
  have hheader : (t.sealFrame P.toHashes macKey mt sid counter nonce sealed.1 sealed.2).1.header =
      aad := by
    have hlen := length_aeadEncrypt_fst P nonce aeadKey payload aad
    rw [hsealed] at hlen
    rw [← haad, Frame.header, Frame.header, ByteCodec.length_zeros, ← hlen]
    rfl
  have hdec := aeadDecrypt_aeadEncrypt P nonce hsound aeadKey payload aad
  rw [hsealed] at hdec
  rw [hseal]
  refine (Effects.except_bind_ok (openFrame_sealFrame t macKey mt sid counter nonce _ _ _)).trans ?_
  rw [hheader]
  exact Effects.except_bind_ok hdec

variable (hsid : sid.length = 16) (hnonce : nonce.length = 24) (hpayload : payload.length ≤ 2 ^ 20)

include hsid hnonce hpayload

theorem plainSeal_wellFormed (H : Hashes) :
    WellFormed (plainSeal H t macKey mt sid counter nonce payload).1 :=
  ⟨hsid, hnonce, hpayload, ByteCodec.length_zeros 16, H.length_hmacSha256 _ _⟩

theorem aeadSeal_wellFormed :
    WellFormed (aeadSeal P t macKey aeadKey mt sid counter nonce payload).1 :=
  ⟨hsid, hnonce, (length_aeadEncrypt_fst P nonce aeadKey payload _).trans_le hpayload,
    length_aeadEncrypt_snd P nonce aeadKey payload _, P.length_hmacSha256 _ _⟩

end Seal

section Steps

variable {P : Primitives} {t t' : Transcript} {resp : Bytes} {f : Frame}

theorem openChallenge_ok {serverSignPk : Bytes} (c : ChallengeFields)
    (hparse : Frame.parse resp = .ok f)
    (hopen : plainOpen P.toHashes t (bootstrapMacKey P.toHashes) f =
      .ok (Wire.Payloads.serverChallenge.encode c, t'))
    (hverify : ed25519Verify P serverSignPk (Client.Constants.signContext ++ t.state ++
      c.serverPub.val ++ c.serverRandom.val) c.signature.val = true) :
    openChallenge P serverSignPk t resp = .ok (⟨c.serverPub.val, c.serverRandom.val⟩, t') := by
  have hread : Wire.Payloads.readChallenge (Wire.Payloads.serverChallenge.encode c) =
      .ok (c.serverPub.val, c.serverRandom.val, c.signature.val) :=
    Wire.Payloads.serverChallenge_fixed.recovers c
  rw [Wire.Payloads.openChallenge_eq]
  refine (Effects.except_bind_ok hparse).trans ?_
  refine (Effects.except_bind_ok hopen).trans ?_
  refine (Effects.except_bind_ok hread).trans ?_
  exact Effects.except_ensure_true hverify

theorem openServerProof1_ok {s : Client.Protocol.Session} (c : ServerProof1Fields)
    (hparse : Frame.parse resp = .ok f)
    (hopen : aeadOpen P t s.keys.mac s.keys.s2c f =
      .ok (Wire.Payloads.serverProof1.encode c, t'))
    (hproof : c.serverProof1.val = P.hmacSha256 s.keys.sproof1 (Client.Constants.sproof1Label ++
      t.state ++ s.vmres.vmDigest ++ c.serverChallenge2.val)) :
    openServerProof1 P s t resp = .ok (c.serverChallenge2.val, t') := by
  have hread : Wire.Payloads.readServerProof1 (Wire.Payloads.serverProof1.encode c) =
      .ok (c.serverProof1.val, c.serverChallenge2.val) :=
    Wire.Payloads.serverProof1_fixed.recovers c
  rw [Wire.Payloads.openServerProof1_eq]
  refine (Effects.except_bind_ok hparse).trans ?_
  refine (Effects.except_bind_ok hopen).trans ?_
  refine (Effects.except_bind_ok hread).trans ?_
  refine Effects.except_ensure_true ?_
  rw [ctEqual, hproof]
  exact beq_self_eq_true _

theorem openSealedFlag_ok {s : Client.Protocol.Session} {nonce ct tag flag : Bytes}
    (hparse : Frame.parse resp = .ok f)
    (hopen : aeadOpen P t s.keys.mac s.keys.s2c f = .ok (nonce ++ ct ++ tag, t'))
    (hnonce : nonce.length = 24) (htag : tag.length = 16)
    (hdec : aeadDecrypt P (hkdf P.toHashes t.state s.keys.sealKey Client.Constants.sealInfo 32)
      nonce ct tag t.state = .ok flag) : openSealedFlag P s t resp = .ok flag := by
  have hlen : (nonce ++ ct ++ tag).length = 24 + ct.length + 16 := by
    rw [List.length_append, List.length_append, hnonce, htag]
  have hctLen : (nonce ++ ct ++ tag).length - Client.Constants.szNonce -
      Client.Constants.szAuthtag = ct.length := by
    change (nonce ++ ct ++ tag).length - 24 - 16 = ct.length
    omega
  have hslice1 : Client.Constants.slice (nonce ++ ct ++ tag) 0 24 = .ok nonce := by
    rw [client_slice_eq (by omega), List.drop_zero, List.append_assoc, List.take_left' hnonce]
  have hslice2 : Client.Constants.slice (nonce ++ ct ++ tag) 24 ct.length = .ok ct := by
    rw [client_slice_eq (by omega), List.append_assoc, List.drop_left' hnonce, List.take_left' rfl]
  have hslice3 : Client.Constants.slice (nonce ++ ct ++ tag) (24 + ct.length) 16 = .ok tag := by
    rw [client_slice_eq (by omega), List.drop_left' (by rw [List.length_append, hnonce]),
      List.take_of_length_le htag.le]
  refine (Effects.except_bind_ok hparse).trans ?_
  refine (Effects.except_bind_ok hopen).trans ?_
  refine (Effects.except_ensure_true ?_).trans ?_
  · change 24 + 16 ≤ (nonce ++ ct ++ tag).length
    omega
  · dsimp only
    rw [hctLen]
    refine (Effects.except_bind_ok hslice1).trans ?_
    refine (Effects.except_bind_ok hslice2).trans ?_
    exact (Effects.except_bind_ok hslice3).trans hdec

end Steps

/-- The course of a session that returned: what was answered, what the client made of it, and the
states the peer went through. -/
structure Course (σ : Type) where
  serverSignPk : Bytes
  ready : σ
  challenge : Bytes
  greeted : σ
  chal : Challenge
  t2 : Transcript
  session : Client.Protocol.Session
  serverProof1 : Bytes
  exchanged : σ
  serverChallenge2 : Bytes
  t4 : Transcript
  sealedFlag : Bytes
  finished : σ

namespace Course

variable {σ : Type} (P : Primitives) (d : Draws) (usernameNorm licenseStruct : Bytes) (x : Course σ)

def hello : Frame × Transcript := Client.Protocol.hello P d usernameNorm

def proof1 : Frame × Transcript :=
  clientProof1 P d usernameNorm licenseStruct x.chal x.session x.t2

def proof2 : Frame × Transcript := clientProof2 P d x.chal x.session x.serverChallenge2 x.t4

/-- Every step of `run_session` goes through. -/
structure Follows (http : Http (StateM σ)) (s : σ) (flag : Bytes) : Prop where
  publicKey : exec http.publicKey s = (.ok x.serverSignPk, x.ready)
  postHello : exec (http.post .hello (hello P d usernameNorm).1.serialize) x.ready =
    (.ok x.challenge, x.greeted)
  openChallenge : openChallenge P x.serverSignPk (hello P d usernameNorm).2 x.challenge =
    .ok (x.chal, x.t2)
  establish : establish P d usernameNorm licenseStruct x.chal x.t2 = .ok x.session
  postProof1 : exec (http.post .exchange
    (x.proof1 P d usernameNorm licenseStruct).1.serialize) x.greeted =
      (.ok x.serverProof1, x.exchanged)
  openServerProof1 : openServerProof1 P x.session (x.proof1 P d usernameNorm licenseStruct).2
    x.serverProof1 = .ok (x.serverChallenge2, x.t4)
  postProof2 : exec (http.post .finalize (x.proof2 P d).1.serialize) x.exchanged =
    (.ok x.sealedFlag, x.finished)
  openSealedFlag : openSealedFlag P x.session (x.proof2 P d).2 x.sealedFlag = .ok flag

theorem Follows.unique {P : Primitives} {d : Draws} {usernameNorm licenseStruct : Bytes}
    {http : Http (StateM σ)} {s : σ} {flag flag' : Bytes} {x y : Course σ}
    (hx : x.Follows P d usernameNorm licenseStruct http s flag)
    (hy : y.Follows P d usernameNorm licenseStruct http s flag') : x = y := by
  obtain ⟨pk, s0, r1, s1, chal, t2, session, r2, s2, challenge2, t4, r3, s3⟩ := x
  obtain ⟨pk', s0', r1', s1', chal', t2', session', r2', s2', challenge2', t4', r3', s3'⟩ := y
  obtain ⟨hpk, hs0⟩ := Prod.mk.inj (hx.publicKey.symm.trans hy.publicKey)
  cases hpk
  cases hs0
  obtain ⟨hr1, hs1⟩ := Prod.mk.inj (hx.postHello.symm.trans hy.postHello)
  cases hr1
  cases hs1
  cases hx.openChallenge.symm.trans hy.openChallenge
  cases hx.establish.symm.trans hy.establish
  obtain ⟨hr2, hs2⟩ := Prod.mk.inj (hx.postProof1.symm.trans hy.postProof1)
  cases hr2
  cases hs2
  cases hx.openServerProof1.symm.trans hy.openServerProof1
  obtain ⟨hr3, hs3⟩ := Prod.mk.inj (hx.postProof2.symm.trans hy.postProof2)
  cases hr3
  cases hs3
  rfl

end Course

/-- A session returns a flag exactly when it has such a course. -/
theorem runSession_eq_ok_iff {σ : Type} (P : Primitives) (http : Http (StateM σ)) (d : Draws)
    (usernameNorm licenseStruct : Bytes) {s s' : σ} {flag : Bytes} :
    exec (runSession P http d usernameNorm licenseStruct) s = (.ok flag, s') ↔
      ∃ x : Course σ, x.Follows P d usernameNorm licenseStruct http s flag ∧ x.finished = s' := by
  constructor
  · intro h
    obtain ⟨pk, s0, hpk, h⟩ := Effects.exec_bind_eq_ok h
    obtain ⟨r1, s1, hr1, h⟩ := Effects.exec_bind_eq_ok h
    obtain ⟨⟨chal, t2⟩, hchal, h⟩ := Effects.exec_lift_bind_eq_ok h
    obtain ⟨session, hsession, h⟩ := Effects.exec_lift_bind_eq_ok h
    obtain ⟨r2, s2, hr2, h⟩ := Effects.exec_bind_eq_ok h
    obtain ⟨⟨serverChallenge2, t4⟩, hproof, h⟩ := Effects.exec_lift_bind_eq_ok h
    obtain ⟨r3, s3, hr3, h⟩ := Effects.exec_bind_eq_ok h
    obtain ⟨hflag, rfl⟩ := Prod.mk.inj h
    exact ⟨⟨pk, s0, r1, s1, chal, t2, session, r2, s2, serverChallenge2, t4, r3, s3⟩,
      ⟨hpk, hr1, hchal, hsession, hr2, hproof, hr3, hflag⟩, rfl⟩
  · rintro ⟨x, h, rfl⟩
    refine (Effects.exec_bind_ok h.publicKey).trans ?_
    refine (Effects.exec_bind_ok h.postHello).trans ?_
    refine (Effects.exec_bind_ok (congrArg (·, x.greeted) h.openChallenge)).trans ?_
    refine (Effects.exec_bind_ok (congrArg (·, x.greeted) h.establish)).trans ?_
    refine (Effects.exec_bind_ok h.postProof1).trans ?_
    refine (Effects.exec_bind_ok (congrArg (·, x.exchanged) h.openServerProof1)).trans ?_
    refine (Effects.exec_bind_ok h.postProof2).trans ?_
    exact congrArg (·, x.finished) h.openSealedFlag

end RankGate.Session.ClientSteps
