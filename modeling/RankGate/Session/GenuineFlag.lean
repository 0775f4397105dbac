/- Module: RankGate/Session/GenuineFlag
   source: client/src/net/protocol.cpp (run_session), server/app/challenge_logic.py
   digest: Where the two records of a session are one, the two states are one, and the flag is the
   server's. -/

import RankGate.Session.Agreement
import RankGate.Session.LicenseGate
import RankGate.Session.Script
import RankGate.Session.UsernameAgreement
import RankGate.Vm.StateHash

set_option autoImplicit false
set_option relaxedAutoImplicit false

namespace RankGate.Session.GenuineFlag

open ByteCodec (Bytes)
open Effects (exec)
open RankGate.Client.Protocol (Challenge Draws Http runSession)
open RankGate.Crypto (Hashes Primitives Sound)
open RankGate.Handlers.Bookkeeping
open RankGate.Handlers.Ledger
open RankGate.Handlers.Requests
open RankGate.Handlers.Specs
open RankGate.Server.ChallengeLogic (ExchangeDraws Proof1Payload)
open RankGate.Server.Config (Env)
open RankGate.Server.Protocol (Frame Transcript)
open RankGate.Server.Sessions (Keys Session SessionStore)
open RankGate.Session.Agreement
open RankGate.Session.Answers (challengeFrame_wellFormed sealedFlagFrame_wellFormed
  serverProofFrame_wellFormed)
open RankGate.Session.ClientSteps (Course)
open RankGate.Session.Completeness (hashing hashing_sound runSession_sample sampleDraws
  sampleServerDraws serverHttp)
open RankGate.Session.Conversations
open RankGate.Session.LicenseTamper (Accepted)
open RankGate.Session.Script (widenKeys)
open RankGate.Session.Username (Canonical)
open RankGate.Wire.ChannelLockstep (aeadDecrypt_aeadFrame aeadFrame_wellFormed client_aeadDecrypt
  client_aeadSeal client_serialize)
open RankGate.Wire.FrameAgreement (CFrame SFrame widen)
open RankGate.Wire.TranscriptBinding

theorem length_runVm {H : Hashes} {name license serverRandom sessionId salt nonce : Bytes}
    {r : Client.Vm.VMResult}
    (h : Client.Vm.runVm H name license serverRandom sessionId salt nonce = .ok r) :
    r.vmDigest.length = 32 ∧ r.vmStateHash.length = 32 := by
  obtain ⟨⟨u, t⟩, -, h⟩ := Effects.except_bind_eq_ok h
  cases h
  constructor
  · have hregisters : ((t.reg.toList.drop 12).take 4).length = 4 := by simp
    exact (Vm.StateHash.length_flatMap_be64 _).trans (by rw [hregisters])
  · exact H.length_blake2b _ _ _ (by decide) (by decide) (by decide)

section Server

variable {P : Primitives} {env : Env} {sid : Bytes} {es : List Event} {s : Session}

/-- The exchange behind the flag for stage 1: what it met, and how it was answered. -/
structure Exchanged (P : Primitives) (env : Env) (f : Frame) (met : Session) (keys : Keys)
    (p : Proof1Payload) (d : ExchangeDraws) (e : Event) : Prop where
  frame : e.request.frame? = some f
  passed : Proof1Passed P env f met keys
    ((Server.ChallengeLogic.restoreTranscript met.transcriptState).absorb P.toHashes f.bytes) p
  counter : met.serverCounter + 1 < 2 ^ 64
  outcome : e.outcome = .ok (serverProofFrame P d met keys
    ((Server.ChallengeLogic.restoreTranscript met.transcriptState).absorb P.toHashes f.bytes)
    p.vm.vmDigest).bytes

theorem Lived.exchanged (h : Lived P env sid es s) (hproof : s.proof1Ok = true) :
    ∃ f met keys p d e early late, es = early ++ e :: late ∧ Lived P env sid early met ∧
      Exchanged P env f met keys p d e ∧ handshake s = handshake met ∧
      s.serverChallenge2 = d.serverChallenge2.val ∧ s.vmDigest = p.vm.vmDigest := by
  induction h with
  | halfOpen _ _ hfalse =>
    rw [hfalse] at hproof
    cases hproof
  | hello => cases hproof
  | @exchange es s e d raw f keys t p h hreq hframe hid hbefore hpassed houtcome hafter =>
    have hcounter := h.serverCounter_lt (Request.wellFormed hframe) hpassed.fresh
    obtain rfl := hpassed.transcript
    exact ⟨f, s, keys, p, d, e, es, [], rfl, h, ⟨hframe, hpassed, hcounter, houtcome⟩, rfl, rfl, rfl⟩
  | @finalize es s e d raw f keys t h hreq hframe hid hbefore hpassed houtcome hafter ih =>
    obtain ⟨f', met, keys', p, d', a, early, late, rfl, hearly, hat, hshake, hc, hv⟩ :=
      ih hpassed.proof1Ok
    exact ⟨f', met, keys', p, d', a, early, late ++ [e], by rw [List.append_assoc]; rfl, hearly, hat,
      hshake, hc, hv⟩
  | refused _ _ ih => exact ih hproof

end Server

section Sealed

variable {P : Primitives} (hsound : Sound P)

include hsound

theorem decrypted_of_sealed {t : Transcript} {macKey key sid nonce plaintext payload : Bytes}
    {mt counter : Nat} {f : CFrame} (hwf : (widen f).WellFormed)
    (hsame : widen f = aeadFrame P t macKey key mt sid counter nonce plaintext)
    (hdec : Client.CryptoBox.aeadDecrypt P key f.nonce f.encryptedPayload f.authTag f.header =
      .ok payload) : payload = plaintext := by
  have hsealed := client_aeadDecrypt P
    (@aeadDecrypt_aeadFrame P t macKey key sid nonce plaintext mt counter hsound.aead)
  rw [← hsame] at hsealed
  rw [Wire.FrameAgreement.header_eq hwf.payload_lt] at hdec
  exact Except.ok.inj (hdec.symm.trans hsealed)

theorem opened_of_sealed {t : Client.BinaryFrame.Transcript} {macKey key payload opened : Bytes}
    {mt : UInt8} {counter : UInt64} {sid nonce : Bytes} (hsid : sid.length = 16)
    (hnonce : nonce.length = 24) (hlen : payload.length ≤ 2 ^ 20) {f : Frame} (hf : f.WellFormed)
    (hbytes : f.bytes =
      (Client.Protocol.aeadSeal P t macKey key mt sid counter nonce payload).1.serialize)
    (hdec : Server.CryptoBox.aeadDecrypt P key f.nonce f.encryptedPayload f.authTag f.headerBytes =
      .ok opened) : opened = payload := by
  have hwf := aeadFrame_wellFormed P ⟨t.state⟩ macKey key sid nonce payload mt.toNat_lt
    counter.toNat_lt hsid hnonce hlen
  have hseal := client_aeadSeal P ⟨t.state⟩ macKey key sid nonce payload mt counter (by omega)
  have hframe : f = aeadFrame P ⟨t.state⟩ macKey key mt.toNat sid counter.toNat nonce payload := by
    refine Frame.bytes_inj hf hwf (hbytes.trans ?_)
    rw [show (Client.Protocol.aeadSeal P t macKey key mt sid counter nonce payload).1 = _ from
      congrArg Prod.fst hseal]
    exact client_serialize hwf
  rw [hframe] at hdec
  exact Except.ok.inj (hdec.symm.trans (aeadDecrypt_aeadFrame P _ _ _ _ _ _ hsound.aead))

end Sealed

section Agreed

variable {P : Primitives} {env : Env} {σ : Type} {d : Draws} {name license : Bytes} {x : Course σ}
  {http : Http (StateM σ)} {q : σ} {flag : Bytes}

/-- What both sides take from the first two frames. -/
structure Established (P : Primitives) (d : Draws) (name : Bytes) (x : Course σ) (s : Session) :
    Prop where
  usernameNorm : s.usernameNorm = name
  clientEphPub : s.clientEphPub = P.x25519Base d.priv.val
  serverEphPub : s.serverEphPub = x.chal.serverPub
  serverRandom : s.serverRandom = x.chal.serverRandom
  salt : s.salt = x.session.salt
  keys : s.keys = some (widenKeys x.session.keys)

theorem Established.of_handshake {s s' : Session} (h : Established P d name x s)
    (hshake : handshake s' = handshake s) : Established P d name x s' where
  usernameNorm := (congrArg Handshake.usernameNorm hshake).trans h.usernameNorm
  clientEphPub := (congrArg Handshake.clientEphPub hshake).trans h.clientEphPub
  serverEphPub := (congrArg Handshake.serverEphPub hshake).trans h.serverEphPub
  serverRandom := (congrArg Handshake.serverRandom hshake).trans h.serverRandom
  salt := (congrArg Handshake.salt hshake).trans h.salt
  keys := (congrArg Handshake.keys hshake).trans h.keys

theorem hello_wellFormed (hname : Canonical name) :
    (widen (Course.hello P d name).1).WellFormed := by
  have hlen := hname.length_le
  refine Wire.FrameExactness.wellFormed_widen.mpr (ClientSteps.plainSeal_wellFormed _ _ _ _ _ _ _
    d.sessionId.property d.helloNonce.property ?_ P.toHashes)
  rw [Wire.Payloads.helloPayload_eq, Wire.Payloads.length_hello]
  change 50 + name.length ≤ 2 ^ 20
  omega

variable (hsound : Sound P) (hname : Canonical name)
  (hx : x.Follows P d name license http q flag)

include hsound hname hx

/-- Whoever answered the client's HELLO with the challenge that it took has its keys. -/
theorem established_of_frames {o : Opening} {e : Event} (hat : o.At P env d.sessionId.val e)
    (hframes : frames e = (conversation P d name license x).take 2) :
    Established P d name x (o.session P env d.sessionId.val) := by
  obtain ⟨fc, signature, hchallenge, ht2, hread, -⟩ := heard_challenge hx
  obtain ⟨hbytes, hanswer⟩ : o.frame.bytes = (Course.hello P d name).1.serialize ∧
      (challengeFrame P env o.draws o.frame o.transcript 1).bytes = x.challenge := by
    rw [frames_eq hat.frame hat.outcome] at hframes
    obtain ⟨hfirst, hrest⟩ := List.cons.inj hframes
    exact ⟨hfirst, List.singleton_inj.mp hrest⟩
  have hwf := Request.wellFormed hat.frame
  have hhello := hello_wellFormed (P := P) (d := d) hname
  -- the HELLO is the client's
  have hframe : o.frame = widen (Course.hello P d name).1 := Frame.bytes_inj hwf hhello
    (hbytes.trans (Wire.FrameAgreement.serialize_eq hhello.payload_lt))
  have hpayload : o.frame.encryptedPayload = Client.Protocol.helloPayload P d name := by
    rw [hframe]
    rfl
  obtain ⟨-, hopen, hserverShared⟩ := helloCheck_ok P o.draws o.frame hat.check
  have hstored := UsernameAgreement.openHello_name P d hname hpayload hopen
  obtain ⟨-, clientRandom, unameRaw, hparse, -⟩ := openHello_ok P o.frame hwf hopen
  have hpub : o.clientPub = P.x25519Base d.priv.val := by
    have hlen := hname.length_le
    have hrecovers := (Wire.Payloads.hello_recovers_iff ⟨⟨P.x25519Base d.priv.val,
      P.length_x25519Base _⟩, d.clientRandom, name⟩).mpr (show name.length < 65536 by omega)
    rw [hpayload, Wire.Payloads.helloPayload_eq] at hparse
    exact (Prod.mk.inj (Except.ok.inj (hparse.symm.trans hrecovers))).1
  -- the challenge is the server's
  have hchal : x.chal.serverPub = P.x25519Base o.draws.serverPriv.val ∧
      x.chal.serverRandom = o.draws.serverRandom.val := by
    have hsame : widen fc = challengeFrame P env o.draws o.frame o.transcript 1 :=
      Frame.bytes_inj hchallenge.wellFormed (challengeFrame_wellFormed P env o.draws hwf _
        (by exact (by decide : 1 < 2 ^ 64))) (hchallenge.bytes.trans hanswer.symm)
    have hpayload : fc.encryptedPayload = Server.ChallengeLogic.challengePayload P env o.transcript
        (P.x25519Base o.draws.serverPriv.val) o.draws.serverRandom.val :=
      congrArg Frame.encryptedPayload hsame
    rw [hpayload, Wire.Payloads.challengePayload_eq P env o.transcript
      ⟨P.x25519Base o.draws.serverPriv.val, P.length_x25519Base _⟩] at hread
    have hview := Except.ok.inj (hread.symm.trans (Wire.Payloads.serverChallenge_fixed.recovers _))
    exact ⟨(Prod.mk.inj hview).1, (Prod.mk.inj (Prod.mk.inj hview).2).1⟩
  -- both sides come to one shared secret, behind one salt
  have hstate : (o.session P env d.sessionId.val).salt = x.t2.state := by
    rw [Opening.salt, hat.transcript, hframes, ht2, atFrame, clientAfter_state]
  obtain ⟨shared, hclient, hserver⟩ := hsound.agreement d.priv.val o.draws.serverPriv.val
    d.priv.property o.draws.serverPriv.property
  obtain rfl : o.shared = shared := by
    rw [hpub, hserver] at hserverShared
    exact (Option.some.inj hserverShared).symm
  have hestablish := hx.establish
  obtain ⟨secret, hsecret, hestablish⟩ := Effects.except_bind_eq_ok hestablish
  obtain ⟨vmres, -, hestablish⟩ := Effects.except_bind_eq_ok hestablish
  obtain rfl : o.shared = secret := by
    rw [Client.CryptoBox.x25519Shared, hchal.1, hclient] at hsecret
    exact Except.ok.inj hsecret
  have hsession := (Except.ok.inj hestablish).symm
  refine ⟨hstored, hpub, hchal.1.symm, hchal.2.symm, ?_, ?_⟩
  · rw [hsession]
    exact hstate
  · have hkeys : (o.session P env d.sessionId.val).keys = some (keysOf P.toHashes
        (Server.CryptoBox.hkdfExtract P.toHashes (o.session P env d.sessionId.val).salt o.shared)) :=
      rfl
    rw [hkeys, hstate, hsession]
    dsimp only
    rw [Script.deriveKeys_eq]
    rfl

variable (hlicense : license.length = 25)

include hlicense

omit hname in
/-- Whoever answered the client's first proof with the frame that it took had the client's license
before it, and accepted it. -/
theorem exchanged_of_frames {f : Frame} {met : Session} {keys : Keys} {p : Proof1Payload}
    {ed : ExchangeDraws} {e : Event} (hex : Exchanged P env f met keys p ed e)
    (hmet : Established P d name x met) (hsid : met.sessionId = d.sessionId.val)
    (hframes : frames e = [(x.proof1 P d name license).1.serialize, x.serverProof1]) :
    Accepted P env name license ∧ p.vm.vmDigest = x.session.vmres.vmDigest ∧
      ed.serverChallenge2.val = x.serverChallenge2 := by
  obtain rfl : widenKeys x.session.keys = keys :=
    Option.some.inj (hmet.keys.symm.trans hex.passed.hasKeys)
  obtain ⟨hbytes, hanswer⟩ :
      f.bytes = (x.proof1 P d name license).1.serialize ∧ _ = x.serverProof1 := by
    rw [frames_eq hex.frame hex.outcome] at hframes
    obtain ⟨hfirst, hrest⟩ := List.cons.inj hframes
    exact ⟨hfirst, List.singleton_inj.mp hrest⟩
  have hwf := Request.wellFormed hex.frame
  obtain ⟨secret, -, hestablish⟩ := Effects.except_bind_eq_ok hx.establish
  obtain ⟨vmres, hvm, hestablish⟩ := Effects.except_bind_eq_ok hestablish
  obtain ⟨hdigest, hstate⟩ : x.session.vmres.vmDigest.length = 32 ∧
      x.session.vmres.vmStateHash.length = 32 := by
    rw [← Except.ok.inj hestablish]
    exact length_runVm hvm
  -- CLIENT_PROOF_1
  let c : Wire.Payloads.ClientProof1Fields := ⟨⟨license, hlicense⟩, ⟨_, hdigest⟩, ⟨_, hstate⟩,
    x.session.vmres.vmPathId, x.session.vmres.vmHaltCode, ⟨Client.ProofBuilder.computeProof1
      P.toHashes x.session.keys.proof1 name license x.session.vmres x.chal.serverRandom
      d.sessionId.val x.session.salt, P.length_hmacSha256 _ _⟩⟩
  have hlen := (Wire.Payloads.clientProof1_fixed.length_encode c).trans_le
    (by decide : [25, 32, 32, 4, 4, 32].sum ≤ 2 ^ 20)
  obtain ⟨payload, hdec, hparse⟩ := hex.passed.payload
  obtain rfl : payload = Wire.Payloads.clientProof1.encode c :=
    opened_of_sealed hsound d.sessionId.property d.proof1Nonce.property hlen hwf hbytes hdec
  have hp : p = Wire.Payloads.clientProof1.view c :=
    Except.ok.inj (hparse.symm.trans (Wire.Payloads.clientProof1_fixed.recovers c))
  subst hp
  obtain ⟨lic, haccepted⟩ := hex.passed.license
  rw [hmet.usernameNorm] at haccepted
  refine ⟨⟨lic, haccepted⟩, rfl, ?_⟩
  -- SERVER_PROOF_1
  obtain ⟨fp, opened, proof, htaken, -, hopened, hread⟩ := heard_serverProof1 hx
  have hsame := Frame.bytes_inj htaken.wellFormed (serverProofFrame_wellFormed P ed
    (by rw [hsid]; exact d.sessionId.property) hex.counter _ _ _) (htaken.bytes.trans hanswer.symm)
  obtain rfl := decrypted_of_sealed hsound htaken.wellFormed hsame hopened
  rw [Wire.Payloads.serverProof1Payload_eq] at hread
  have hview := Except.ok.inj (hread.symm.trans (Wire.Payloads.serverProof1_fixed.recovers _))
  exact (Prod.mk.inj hview).2.symm

omit hname hlicense in
theorem flag_of_sealed {fd : Server.ChallengeLogic.FinalizeDraws} {s : Session} {t : Transcript}
    (hsid : s.sessionId.length = 16) (hcounter : s.serverCounter + 1 < 2 ^ 64)
    (ht : t.state = (atFrame P d name license x 5).state)
    (hbytes : (sealedFlagFrame P fd s (widenKeys x.session.keys) t).bytes = x.sealedFlag) :
    flag = Server.Config.flag := by
  obtain ⟨f, nonce, ct, tag, htaken, hdec, hnonce, htag, hinner⟩ := heard_sealedFlag hx
  have hsame := Frame.bytes_inj htaken.wellFormed
    (sealedFlagFrame_wellFormed P fd hsid hcounter _ t) (htaken.bytes.trans hbytes.symm)
  have hblob := decrypted_of_sealed hsound htaken.wellFormed hsame hdec
  have hkey : Client.CryptoBox.hkdf P.toHashes t.state x.session.keys.sealKey
      Client.Constants.sealInfo 32 = sealKeyOf P (widenKeys x.session.keys) t.state := by
    rw [Client.CryptoBox.hkdf, Client.CryptoBox.hkdfExpand_32, Client.Constants.sealInfo,
      Client.Constants.rgObf_eq]
    rfl
  rw [← ht, hkey] at hinner
  have hdecrypt : Server.CryptoBox.aeadDecrypt P (sealKeyOf P (widenKeys x.session.keys) t.state)
      fd.sealNonce.val
      (Server.CryptoBox.aeadEncrypt P (sealKeyOf P (widenKeys x.session.keys) t.state)
        fd.sealNonce.val Server.Config.flag t.state).1
      (Server.CryptoBox.aeadEncrypt P (sealKeyOf P (widenKeys x.session.keys) t.state)
        fd.sealNonce.val Server.Config.flag t.state).2 t.state = .ok Server.Config.flag := by
    rw [Server.CryptoBox.aeadDecrypt, Server.CryptoBox.aeadEncrypt_append]
    exact hsound.aead _ _ _ _
  obtain ⟨hhead, rfl⟩ := List.append_inj' hblob
    (htag.trans (Server.CryptoBox.length_aeadEncrypt_snd P _ _ _ _).symm)
  obtain ⟨rfl, rfl⟩ := List.append_inj hhead (hnonce.trans fd.sealNonce.property.symm)
  exact Except.ok.inj (hinner.symm.trans (client_aeadDecrypt P hdecrypt))

/-- What a finished session holds on either side. -/
structure AgreedState (P : Primitives) (d : Draws) (name license : Bytes) (x : Course σ)
    (s : Session) : Prop extends Established P d name x s where
  vmDigest : s.vmDigest = x.session.vmres.vmDigest
  serverChallenge2 : s.serverChallenge2 = x.serverChallenge2
  proof1Ok : s.proof1Ok = true
  transcriptState : s.transcriptState = (chain P.toHashes).state (conversation P d name license x)

omit hsound hname hx hlicense in
theorem frames_split {e a : Event} {mid late : List Event} {es : List Event}
    (hes : es = e :: mid ++ a :: late) (he : (frames e).length = 2) (ha : (frames a).length = 2)
    (hframes : es.flatMap frames = (conversation P d name license x).take 4) :
    frames e = (conversation P d name license x).take 2 ∧
      frames a = [(x.proof1 P d name license).1.serialize, x.serverProof1] := by
  rw [hes, List.flatMap_append, List.flatMap_cons, List.flatMap_cons, List.append_assoc] at hframes
  have hlen := congrArg List.length hframes
  simp only [List.length_append, he, ha] at hlen
  have hfour : ((conversation P d name license x).take 4).length = 4 := rfl
  rw [hfour] at hlen
  have hmid : mid.flatMap frames = [] := List.eq_nil_of_length_eq_zero (by omega)
  have hlate : late.flatMap frames = [] := List.eq_nil_of_length_eq_zero (by omega)
  rw [hmid, hlate, List.nil_append, List.append_nil] at hframes
  exact List.append_inj (show _ = (conversation P d name license x).take 2 ++
    [(x.proof1 P d name license).1.serialize, x.serverProof1] from hframes) he

/-- A session with the client's first four frames behind it is in the client's state. -/
theorem established_of_past {es : List Event} {s : Session}
    (hlived : Lived P env d.sessionId.val es s) (hproof : s.proof1Ok = true)
    (hpast : es.flatMap frames = (conversation P d name license x).take 4) :
    Established P d name x s ∧ Accepted P env name license ∧
      s.vmDigest = x.session.vmres.vmDigest ∧ s.serverChallenge2 = x.serverChallenge2 := by
  obtain ⟨f, met, keys, p, ed, a, early, late, hes, hearly, hex, hshake, hc2, hvm⟩ :=
    Lived.exchanged hlived hproof
  obtain ⟨o, e, mid, rfl, hat, hopened⟩ :=
    Handlers.Bookkeeping.Lived.opening hearly hex.passed.hasKeys
  obtain ⟨hfirst, hsecond⟩ := frames_split hes (by rw [frames_eq hat.frame hat.outcome]; rfl)
    (by rw [frames_eq hex.frame hex.outcome]; rfl) hpast
  have hmet := (established_of_frames hsound hname hx hat hfirst).of_handshake hopened
  obtain ⟨haccepted, hdigest, hchallenge2⟩ :=
    exchanged_of_frames hsound hx hlicense hex hmet hearly.sessionId hsecond
  exact ⟨hmet.of_handshake hshake, haccepted, hvm.trans hdigest, hc2.trans hchallenge2⟩

omit hsound hname hx hlicense in
theorem finalize_of_behind {rs : List Request} {r : Request}
    (hr : r.frame? = some (widen (x.proof2 P d).1))
    (hbehind : behind P env rs r = (conversation P d name license x).take 5) :
    ∃ fd, r = .finalize fd (x.proof2 P d).1.serialize ∧
      (life d.sessionId.val (trace P env rs)).flatMap frames =
        (conversation P d name license x).take 4 := by
  obtain ⟨-, hadmits⟩ := Request.frame?_eq_some hr
  cases r with
  | hello hd raw => cases hadmits with | tail _ h => cases h
  | exchange ed raw => cases hadmits with | tail _ h => cases h
  | finalize fd raw =>
    rw [behind, Request.sessionId?, hr] at hbehind
    obtain ⟨hpast, hraw⟩ := List.append_inj'
      (show _ ++ [raw] = (conversation P d name license x).take 4 ++ [_] from hbehind) rfl
    exact ⟨fd, congrArg (Request.finalize fd) (List.singleton_inj.mp hraw), hpast⟩

/-- The server that sent the last frame behind the client's five is in the client's state. -/
theorem agreed_of_sends {rs : List Request} {r : Request} {key state : Bytes} {g : Frame}
    (hsends : Sends P env rs r key state g) (hg : g.bytes = x.sealedFlag)
    (hbehind : behind P env rs r = (conversation P d name license x).take 5) :
    flag = Server.Config.flag ∧ Accepted P env name license ∧
      ∃ s, (storeAfter P env (rs ++ [r])).lookup d.sessionId.val = some s ∧
        AgreedState P d name license x s := by
  obtain ⟨f, hf⟩ := frame_of_answered P env hsends.answered
  obtain rfl := frame_of_behind hf hbehind
  obtain ⟨fd, rfl, hpast⟩ := finalize_of_behind hf hbehind
  have hwf := Request.wellFormed hf
  obtain ⟨f', s, k, hf', hlookup, -, -, -, hlived⟩ := hsends.known rfl
  obtain rfl : widen (x.proof2 P d).1 = f' := Option.some.inj (hf.symm.trans hf')
  have hanswered := hsends.answered
  rw [step_known P env hf rfl hlookup] at hanswered
  obtain ⟨keys, t, hcheck, hresponse, hafter⟩ := finalizeBody_ok P fd (widen (x.proof2 P d).1)
    (hlived.serverCounter_lt hwf) (Prod.ext hanswered rfl)
  have hpassed := finalizeCheck_ok P _ hwf hcheck
  obtain ⟨hs, haccepted, hdigest, hchallenge2⟩ :=
    established_of_past hsound hname hx hlicense hlived hpassed.proof1Ok hpast
  obtain rfl : widenKeys x.session.keys = keys :=
    Option.some.inj (hs.keys.symm.trans hpassed.hasKeys)
  have htranscript : s.transcriptState =
      (chain P.toHashes).state ((conversation P d name license x).take 4) :=
    (Handlers.Bookkeeping.Lived.transcript hlived hpassed.hasKeys).trans (congrArg _ hpast)
  -- the transcript moves on by the client's frame, and then by the answer
  have hfive : (conversation P d name license x).take 5 =
      (conversation P d name license x).take 4 ++ [(widen (x.proof2 P d).1).bytes] := by
    rw [← Request.raw_eq hf]
    rfl
  have ht : t.state = (chain P.toHashes).state ((conversation P d name license x).take 5) := by
    rw [hfive, (chain P.toHashes).state_concat, ← htranscript, hpassed.transcript]
    rfl
  have hsix : conversation P d name license x =
      (conversation P d name license x).take 5 ++ [g.bytes] := by
    rw [hg]
    rfl
  have hflag := flag_of_sealed hsound hx (hlived.sessionId ▸ d.sessionId.property)
    (hlived.serverCounter_lt hwf hpassed.fresh) (ht.trans (clientAfter_state _ _).symm)
    (hresponse.symm.trans hg)
  refine ⟨hflag, haccepted, finalized P fd (widen (x.proof2 P d).1) s
    (widenKeys x.session.keys) t, ?_, ?_⟩
  · rw [storeAfter_concat]
    exact (lookup_known_self P env hf rfl hlookup).trans (congrArg some hafter)
  · refine { toEstablished := hs.of_handshake rfl
             vmDigest := hdigest
             serverChallenge2 := hchallenge2
             proof1Ok := hpassed.proof1Ok
             transcriptState := ?_ }
    rw [hsix, (chain P.toHashes).state_concat, ← ht, hresponse]
    rfl

end Agreed

/-- Over any network, a flag that the client comes to is the server's, for a license that the server
accepted under the client's name, and both sides end in one state; or the last frame was taken for a
MAC that the server never made; SHA-256 aside. -/
theorem flag_is_genuine {P : Primitives} (env : Env) (hsound : Sound P) (rs : List Request)
    {σ : Type} (http : Http (StateM σ)) (d : Draws) {username license name struct : Bytes}
    (hname : Client.LicenseFormat.normalizeUsername username = .ok name)
    (hstruct : Client.LicenseFormat.decodeLicense license = .ok struct) {s s' : σ} {flag : Bytes}
    (h : exec (runSession P http d name struct) s = (.ok flag, s')) :
    ∃ x : Course σ, x.Follows P d name struct http s flag ∧
      ((flag = Server.Config.flag ∧ Accepted P env name struct ∧
          ∃ rs₁ r rs₂ sess, rs = rs₁ ++ r :: rs₂ ∧
            (storeAfter P env (rs₁ ++ [r])).lookup d.sessionId.val = some sess ∧
            AgreedState P d name struct x sess) ∨
        Colliding P env rs ((conversation P d name struct x).take 5) ∨
        ∃ f, Frame.parse x.sealedFlag = .ok f ∧
          Forged P env rs x.session.keys.mac ((conversation P d name struct x).take 5) f) := by
  obtain ⟨x, hx, -⟩ := (ClientSteps.runSession_eq_ok_iff P http d name struct).mp h
  refine ⟨x, hx, (sealedFlag_sent env rs hx).imp_left ?_⟩
  rintro ⟨rs₁, r, rs₂, state, g, hrs, hsends, hbytes, hbehind⟩
  obtain ⟨hflag, haccepted, sess, hlookup, hagreed⟩ := agreed_of_sends hsound
    (Username.normalizeUsername_canonical hname) hx (LicenseGate.length_of_decodeLicense hstruct)
    hsends hbytes hbehind
  exact ⟨hflag, haccepted, rs₁, r, rs₂, sess, hrs, hlookup, hagreed⟩

/-- A license of the author, over the server itself: the flag is the one that the client's own three
requests led to. -/
theorem flag_is_genuine_sample : ∃ (struct : Bytes) (x : Course SessionStore),
    let rs := before [] sampleServerDraws [] [] hashing sampleDraws [0x61] struct x ++
      [last sampleServerDraws hashing sampleDraws x]
    x.Follows hashing sampleDraws [0x61] struct (serverHttp hashing sampleEnv sampleServerDraws [] [])
      ∅ Server.Config.flag ∧ Accepted hashing sampleEnv [0x61] struct ∧
    ∃ rs₁ r rs₂ sess, rs = rs₁ ++ r :: rs₂ ∧
      (storeAfter hashing sampleEnv (rs₁ ++ [r])).lookup sampleDraws.sessionId.val = some sess ∧
      AgreedState hashing sampleDraws [0x61] struct x sess := by
  have hname : Client.LicenseFormat.normalizeUsername [0x20, 0x41] = .ok [0x61] := by rfl
  have hrun := Effects.exec_of_fst runSession_sample
  obtain ⟨license, -, hstruct⟩ := LicenseGate.exists_license hashing sampleEnv [0x61]
  obtain ⟨y, hy, -⟩ := (ClientSteps.runSession_eq_ok_iff hashing _ sampleDraws [0x61] _).mp hrun
  obtain ⟨x, hx, hcases⟩ := flag_is_genuine sampleEnv hashing_sound
    (before [] sampleServerDraws [] [] hashing sampleDraws [0x61] _ y ++
      [last sampleServerDraws hashing sampleDraws y]) _ sampleDraws hname hstruct hrun
  obtain rfl := hx.unique hy
  refine ⟨_, x, hx, hcases.elim (fun h => h.2) fun _ => ?_⟩
  obtain ⟨key, state, g, hsends, hbytes, hbehind⟩ := served [] hx
    (fun _ h => absurd h List.not_mem_nil) (fun _ h => absurd h List.not_mem_nil)
  obtain ⟨-, haccepted, sess, hlookup, hagreed⟩ := agreed_of_sends hashing_sound
    (Username.normalizeUsername_canonical hname) hx (LicenseGate.length_of_decodeLicense hstruct)
    hsends hbytes hbehind
  exact ⟨haccepted, _, _, [], sess, rfl, hlookup, hagreed⟩

end RankGate.Session.GenuineFlag
