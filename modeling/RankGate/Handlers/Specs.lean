/- Module: RankGate/Handlers/Specs
   source: server/app/challenge_logic.py
   digest: Each handler decides, from the frame and the session alone, whether it accepts; then it commits. -/

import RankGate.Server.ChallengeLogic
import RankGate.Wire.FrameCodec

set_option autoImplicit false
set_option relaxedAutoImplicit false

namespace RankGate.Handlers.Specs

open ByteCodec (Bytes zeros ascii)
open Effects (ensure exec)
open RankGate.Crypto (Hashes Primitives)
open RankGate.Server
open RankGate.Server.Config (Env Failure)
open RankGate.Server.Protocol (Frame Transcript)
open RankGate.Server.Sessions (Keys Session)
open RankGate.Server.ChallengeLogic

section Channel

variable (P : Primitives)

/-- The key schedule in closed form: one MAC a key. -/
def keysOf (H : Hashes) (prk : Bytes) : Keys where
  c2s := H.hmacSha256 prk (Config.hkdfC2s ++ [1])
  s2c := H.hmacSha256 prk (Config.hkdfS2c ++ [1])
  mac := H.hmacSha256 prk (Config.hkdfMac ++ [1])
  proof1 := H.hmacSha256 prk (Config.hkdfProof1 ++ [1])
  sproof1 := H.hmacSha256 prk (Config.hkdfSproof1 ++ [1])
  proof2 := H.hmacSha256 prk (Config.hkdfProof2 ++ [1])
  sealKey := H.hmacSha256 prk (Config.hkdfSeal ++ [1])

theorem deriveKeys_eq (H : Hashes) (prk : Bytes) : deriveKeys H prk = .ok (keysOf H prk) := by
  simp only [deriveKeys, CryptoBox.hkdfExpand_32]
  rfl

/-- The frame an AEAD seal emits; its header goes in as additional data. -/
def aeadFrame (t : Transcript) (macKey aeadKey : Bytes) (mt : Nat) (sid : Bytes) (counter : Nat)
    (nonce plaintext : Bytes) : Frame :=
  let aad := Frame.headerBytes ⟨mt, sid, counter, nonce, zeros plaintext.length, [], []⟩
  let sealed := CryptoBox.aeadEncrypt P aeadKey nonce plaintext aad
  t.sealed P.toHashes macKey mt sid counter nonce sealed.1 sealed.2

theorem aeadSeal_eq (t : Transcript) (macKey aeadKey sid nonce plaintext : Bytes) {mt counter : Nat}
    (hm : mt < 256) (hc : counter < 2 ^ 64) (hp : plaintext.length < 2 ^ 32) :
    aeadSeal P t macKey aeadKey mt sid counter nonce plaintext =
      .ok (aeadFrame P t macKey aeadKey mt sid counter nonce plaintext,
        t.absorb P.toHashes
          (aeadFrame P t macKey aeadKey mt sid counter nonce plaintext).bytes) := by
  have hzeros : (zeros plaintext.length).length < 2 ^ 32 := by
    rw [ByteCodec.length_zeros]
    exact hp
  have haad : Frame.header ⟨mt, sid, counter, nonce, zeros plaintext.length, [], []⟩ =
      .ok (Frame.headerBytes ⟨mt, sid, counter, nonce, zeros plaintext.length, [], []⟩) :=
    Frame.header_eq hm hc hzeros
  refine (Effects.except_bind_ok haad).trans ?_
  refine Transcript.sealFrame_eq P.toHashes t macKey sid nonce _ _ hm hc ?_
  exact lt_of_eq_of_lt (CryptoBox.length_aeadEncrypt_fst P aeadKey nonce plaintext _) hp

theorem aeadFrame_serialize (t : Transcript) (macKey aeadKey sid nonce plaintext : Bytes)
    {mt counter : Nat} (hm : mt < 256) (hc : counter < 2 ^ 64) (hp : plaintext.length < 2 ^ 32) :
    (aeadFrame P t macKey aeadKey mt sid counter nonce plaintext).serialize =
      .ok (aeadFrame P t macKey aeadKey mt sid counter nonce plaintext).bytes :=
  Frame.serialize_eq hm hc
    (lt_of_eq_of_lt (CryptoBox.length_aeadEncrypt_fst P aeadKey nonce plaintext _) hp)

theorem plainSeal_eq (t : Transcript) (macKey sid nonce payload : Bytes) {mt counter : Nat}
    (hm : mt < 256) (hc : counter < 2 ^ 64) (hp : payload.length < 2 ^ 32) :
    plainSeal P.toHashes t macKey mt sid counter nonce payload =
      .ok (t.sealed P.toHashes macKey mt sid counter nonce payload (zeros Config.szAuthtag),
        t.absorb P.toHashes (t.sealed P.toHashes macKey mt sid counter nonce payload
          (zeros Config.szAuthtag)).bytes) :=
  Transcript.sealFrame_eq P.toHashes t macKey sid nonce payload _ hm hc hp

theorem aeadOpen_ok {t t' : Transcript} {macKey aeadKey payload : Bytes} {f : Frame}
    (hf : f.WellFormed) (h : aeadOpen P t macKey aeadKey f = .ok (payload, t')) :
    t.macFor P.toHashes macKey f.preMacBytes = f.transcriptMac ∧
      t' = t.absorb P.toHashes f.bytes ∧
      CryptoBox.aeadDecrypt P aeadKey f.nonce f.encryptedPayload f.authTag f.headerBytes =
        .ok payload := by
  unfold aeadOpen at h
  obtain ⟨u, hopen, h⟩ := Effects.except_bind_eq_ok h
  obtain ⟨aad, haad, h⟩ := Effects.except_bind_eq_ok h
  obtain ⟨hmac, rfl⟩ := (Transcript.openFrame_eq_ok P.toHashes hf.messageType hf.counter
    hf.payload_lt).mp hopen
  have haad' : f.headerBytes = aad := Except.ok.inj (hf.header_eq.symm.trans haad)
  subst haad'
  cases hdec : CryptoBox.aeadDecrypt P aeadKey f.nonce f.encryptedPayload f.authTag f.headerBytes with
  | error e =>
    rw [hdec] at h
    cases h
  | ok plaintext =>
    rw [hdec] at h
    cases h
    exact ⟨hmac, rfl, rfl⟩

end Channel

def bump (s : Session) (counter : Nat) : Session :=
  { s with clientCounter := max s.clientCounter counter }

theorem bump_fresh {s : Session} {counter : Nat} (h : s.clientCounter < counter) :
    bump s counter = { s with clientCounter := counter } := by
  rw [bump, max_eq_right h.le]

theorem bump_stale {s : Session} {counter : Nat} (h : ¬ s.clientCounter < counter) :
    bump s counter = s := by
  rw [bump, max_eq_left (not_lt.mp h)]

section Hello

variable (P : Primitives) (env : Env) (d : HelloDraws) (f : Frame)

/-- When a HELLO is accepted: transcript after it, client key, name, shared secret. -/
def helloCheck (s : Session) : Except Failure (Transcript × Bytes × Bytes × Bytes) := do
  ensure (s.clientCounter < f.counter) (.protocolError "replay" "non-monotonic client counter")
  let (t, clientPub, usernameNorm) ← openHello P f
  let shared ← x25519Shared P d.serverPriv.val clientPub
  return (t, clientPub, usernameNorm, shared)

def challengeFrame (t : Transcript) (counter : Nat) : Frame :=
  t.sealed P.toHashes (bootstrapMacKey P.toHashes) Config.mtServerChallenge f.sessionId counter
    d.nonce.val (challengePayload P env t (P.x25519Base d.serverPriv.val) d.serverRandom.val)
    (zeros Config.szAuthtag)

def established (s : Session) (t : Transcript) (clientPub usernameNorm shared : Bytes) : Session :=
  let t := t.absorb P.toHashes (challengeFrame P env d f t (s.serverCounter + 1)).bytes
  let prk := CryptoBox.hkdfExtract P.toHashes t.state shared
  { s with
    clientCounter := f.counter
    serverCounter := s.serverCounter + 1
    usernameNorm
    clientEphPub := clientPub
    prk
    keys := some (keysOf P.toHashes prk)
    transcriptState := t.state
    salt := t.state
    serverRandom := d.serverRandom.val
    serverEphPub := P.x25519Base d.serverPriv.val }

/-- The session a rejected HELLO leaves: no keys, and no more than the name and the client's key. -/
def halfOpen (s : Session) : Session :=
  if s.clientCounter < f.counter then
    match openHello P f with
    | .ok (_, clientPub, usernameNorm) =>
      { s with clientCounter := f.counter, usernameNorm, clientEphPub := clientPub }
    | .error _ => { s with clientCounter := f.counter }
  else s

def opened : Option (Bytes × Bytes) :=
  if 0 < f.counter then (openHello P f).toOption.map Prod.snd else none

theorem halfOpen_fresh : halfOpen P f { sessionId := f.sessionId } = {
    sessionId := f.sessionId
    clientCounter := f.counter
    clientEphPub := ((opened P f).map Prod.fst).getD []
    usernameNorm := ((opened P f).map Prod.snd).getD [] } := by
  unfold halfOpen opened
  by_cases hfresh : 0 < f.counter
  · rw [if_pos hfresh, if_pos hfresh]
    cases openHello P f <;> rfl
  · rw [if_neg hfresh, if_neg hfresh, Nat.eq_zero_of_not_pos hfresh]
    rfl

theorem halfOpen_fields (s : Session) : (halfOpen P f s).sessionId = s.sessionId ∧
    (halfOpen P f s).keys = s.keys ∧ (halfOpen P f s).proof1Ok = s.proof1Ok ∧
    (halfOpen P f s).serverCounter = s.serverCounter ∧
    (halfOpen P f s).clientCounter = max s.clientCounter f.counter := by
  unfold halfOpen
  split_ifs with hfresh
  · have hmax := (max_eq_right hfresh.le).symm
    cases openHello P f <;> exact ⟨rfl, rfl, rfl, rfl, hmax⟩
  · exact ⟨rfl, rfl, rfl, rfl, (max_eq_left (not_lt.mp hfresh)).symm⟩

theorem openHello_ok {t : Transcript} {clientPub usernameNorm : Bytes} (hf : f.WellFormed)
    (h : openHello P f = .ok (t, clientPub, usernameNorm)) :
    t = (Transcript.init P.toHashes).absorb P.toHashes f.bytes ∧
      ∃ clientRandom unameRaw,
        parseHelloPayload f.encryptedPayload = .ok (clientPub, clientRandom, unameRaw) ∧
        Verifier.normalizeUsername P unameRaw = .ok usernameNorm := by
  unfold openHello at h
  obtain ⟨⟨payload, u⟩, hopen, h⟩ := Effects.except_bind_eq_ok h
  obtain ⟨⟨pub, clientRandom, unameRaw⟩, hparse, h⟩ := Effects.except_bind_eq_ok h
  obtain ⟨name, hname, h⟩ := Effects.except_bind_eq_ok h
  cases h
  obtain ⟨v, hframe, hopen⟩ := Effects.except_bind_eq_ok hopen
  cases hopen
  obtain ⟨-, rfl⟩ := (Transcript.openFrame_eq_ok P.toHashes hf.messageType hf.counter
    hf.payload_lt).mp hframe
  exact ⟨rfl, clientRandom, unameRaw, hparse, hname⟩

theorem helloCheck_ok {s : Session} {t : Transcript} {clientPub usernameNorm shared : Bytes}
    (h : helloCheck P d f s = .ok (t, clientPub, usernameNorm, shared)) :
    s.clientCounter < f.counter ∧ openHello P f = .ok (t, clientPub, usernameNorm) ∧
      P.x25519Shared d.serverPriv.val clientPub = some shared := by
  unfold helloCheck at h
  obtain ⟨hfresh, h⟩ := Effects.except_ensure_eq_ok h
  obtain ⟨⟨u, pub, name⟩, hopen, h⟩ := Effects.except_bind_eq_ok h
  obtain ⟨secret, hshared, h⟩ := Effects.except_bind_eq_ok h
  cases h
  refine ⟨hfresh, hopen, ?_⟩
  unfold x25519Shared at hshared
  split at hshared
  · rename_i hsome
    cases hshared
    exact hsome
  · cases hshared

theorem length_challengePayload (t : Transcript) :
    (challengePayload P env t (P.x25519Base d.serverPriv.val) d.serverRandom.val).length = 112 := by
  simp [challengePayload, d.serverRandom.property]

theorem exec_helloBody {s : Session}
    (hs : s.clientCounter < f.counter → s.serverCounter + 1 < 2 ^ 64) :
    exec (helloBody P env d f) s =
      match helloCheck P d f s with
      | .ok (t, clientPub, usernameNorm, shared) =>
        (.ok (challengeFrame P env d f t (s.serverCounter + 1)).bytes,
          established P env d f s t clientPub usernameNorm shared)
      | .error e => (.error e, halfOpen P f s) := by
  unfold helloBody helloCheck halfOpen
  by_cases hfresh : s.clientCounter < f.counter
  · have hs := hs hfresh
    rw [Sessions.exec_accept_fresh hfresh, Effects.except_ensure_true hfresh, if_pos hfresh]
    cases hopen : openHello P f with
    | error e => exact Effects.exec_bind_error rfl
    | ok r =>
      obtain ⟨t, clientPub, usernameNorm⟩ := r
      refine (Effects.exec_bind_ok rfl).trans ?_
      refine (Effects.exec_bind_ok rfl).trans ?_
      refine (Effects.exec_bind_ok rfl).trans ?_
      cases hshared : x25519Shared P d.serverPriv.val clientPub with
      | error e =>
        refine (Effects.exec_bind_error (by rw [hshared]; rfl)).trans ?_
        simp only [bind, Except.bind, hshared]
      | ok shared =>
        have hpayload : (challengePayload P env t (P.x25519Base d.serverPriv.val)
            d.serverRandom.val).length < 2 ^ 32 := by
          rw [length_challengePayload]
          decide
        have hseal := plainSeal_eq P t (bootstrapMacKey P.toHashes) f.sessionId d.nonce.val _
          (by decide : Config.mtServerChallenge < 256) hs hpayload
        have hserial : (challengeFrame P env d f t (s.serverCounter + 1)).serialize =
            .ok (challengeFrame P env d f t (s.serverCounter + 1)).bytes :=
          Frame.serialize_eq (by exact (by decide : Config.mtServerChallenge < 256)) hs hpayload
        refine (Effects.exec_bind_ok (by rw [hshared]; rfl)).trans ?_
        refine (Effects.exec_bind_ok rfl).trans ?_
        refine (Effects.exec_bind_ok (by rw [hseal]; rfl)).trans ?_
        refine (Effects.exec_bind_ok rfl).trans ?_
        refine (Effects.exec_bind_ok (by rw [deriveKeys_eq]; rfl)).trans ?_
        refine (Effects.exec_bind_ok rfl).trans ?_
        refine Eq.trans (b := exec (liftM (challengeFrame P env d f t
          (s.serverCounter + 1)).serialize) _) rfl ?_
        rw [hserial]
        simp only [bind, Except.bind, hshared]
        rfl
  · rw [Sessions.exec_accept_stale hfresh, Effects.except_ensure_false hfresh, if_neg hfresh]

theorem helloBody_ok {s s' : Session} {response : Bytes}
    (hs : s.clientCounter < f.counter → s.serverCounter + 1 < 2 ^ 64)
    (h : exec (helloBody P env d f) s = (.ok response, s')) :
    ∃ t clientPub usernameNorm shared,
      helloCheck P d f s = .ok (t, clientPub, usernameNorm, shared) ∧
      response = (challengeFrame P env d f t (s.serverCounter + 1)).bytes ∧
      s' = established P env d f s t clientPub usernameNorm shared := by
  rw [exec_helloBody P env d f hs] at h
  cases hcheck : helloCheck P d f s with
  | error e =>
    rw [hcheck] at h
    cases h
  | ok q =>
    obtain ⟨t, clientPub, usernameNorm, shared⟩ := q
    rw [hcheck] at h
    cases h
    exact ⟨t, clientPub, usernameNorm, shared, rfl, rfl, rfl⟩

end Hello

section Exchange

variable (P : Primitives) (env : Env) (d : ExchangeDraws) (f : Frame)

/-- When a CLIENT_PROOF_1 is accepted: keys, transcript after it, proof payload. -/
def exchangeCheck (s : Session) : Except Failure (Keys × Transcript × Proof1Payload) := do
  ensure (s.clientCounter < f.counter) (.protocolError "replay" "non-monotonic client counter")
  openProof1 P env s f

def serverProofFrame (s : Session) (keys : Keys) (t : Transcript) (vmDigest : Bytes) : Frame :=
  aeadFrame P t keys.mac keys.s2c Config.mtServerProof1 s.sessionId (s.serverCounter + 1)
    d.nonce.val (serverProof1Payload P.toHashes keys t vmDigest d.serverChallenge2.val)

def exchanged (s : Session) (keys : Keys) (t : Transcript) (vmDigest : Bytes) : Session :=
  { s with
    clientCounter := f.counter
    serverCounter := s.serverCounter + 1
    transcriptState := (t.absorb P.toHashes (serverProofFrame P d s keys t vmDigest).bytes).state
    serverChallenge2 := d.serverChallenge2.val
    vmDigest
    proof1Ok := true }

structure Proof1Passed (s : Session) (keys : Keys) (t : Transcript) (p : Proof1Payload) : Prop where
  fresh : s.clientCounter < f.counter
  hasKeys : s.keys = some keys
  mac : (restoreTranscript s.transcriptState).macFor P.toHashes keys.mac f.preMacBytes =
    f.transcriptMac
  transcript : t = (restoreTranscript s.transcriptState).absorb P.toHashes f.bytes
  payload : ∃ payload, CryptoBox.aeadDecrypt P keys.c2s f.nonce f.encryptedPayload f.authTag
    f.headerBytes = .ok payload ∧ parseProof1 payload = .ok p
  license : ∃ lic, Verifier.validateLicense P env s.usernameNorm p.licenseStruct = .ok lic
  vm : VmReference.runVm P env s.usernameNorm p.licenseStruct s.serverRandom s.sessionId s.salt
    s.serverRandom = .ok p.vm
  proof1 : Verifier.computeProof1 P.toHashes keys.proof1 s.usernameNorm p.licenseStruct
    p.vm.vmDigest p.vm.vmStateHash p.vm.vmPathId p.vm.vmHaltCode s.serverRandom s.sessionId
    s.salt = .ok p.proof1

theorem sessionKeys_ok {s : Session} {keys : Keys} (h : sessionKeys s = .ok keys) :
    s.keys = some keys := by
  unfold sessionKeys at h
  split at h
  · rename_i k hk
    cases h
    exact hk
  · cases h

theorem exchangeCheck_ok {s : Session} {keys : Keys} {t : Transcript} {p : Proof1Payload}
    (hf : f.WellFormed) (h : exchangeCheck P env f s = .ok (keys, t, p)) :
    Proof1Passed P env f s keys t p := by
  unfold exchangeCheck openProof1 at h
  obtain ⟨hfresh, h⟩ := Effects.except_ensure_eq_ok h
  obtain ⟨k, hkeys, h⟩ := Effects.except_bind_eq_ok h
  obtain ⟨⟨payload, u⟩, hopen, h⟩ := Effects.except_bind_eq_ok h
  obtain ⟨q, hparse, h⟩ := Effects.except_bind_eq_ok h
  obtain ⟨_, hstages, h⟩ := Effects.except_bind_eq_ok h
  cases h
  obtain ⟨hmac, ht, hdec⟩ := aeadOpen_ok P hf hopen
  unfold validateStages at hstages
  obtain ⟨lic, hlic, hstages⟩ := Effects.except_bind_eq_ok hstages
  obtain ⟨_, hvm, hproof⟩ := Effects.except_bind_eq_ok hstages
  obtain ⟨expected, hrun, hvm⟩ := Effects.except_bind_eq_ok hvm
  obtain ⟨proof, hcompute, hproof⟩ := Effects.except_bind_eq_ok hproof
  have heq : expected = p.vm := Effects.ensure_eq_ok_iff.mp hvm
  have hsupplied : p.proof1 = proof := Effects.ensure_eq_ok_iff.mp hproof
  exact ⟨hfresh, sessionKeys_ok hkeys, hmac, ht, ⟨payload, hdec, hparse⟩, ⟨lic, hlic⟩,
    heq ▸ hrun, hsupplied ▸ hcompute⟩

theorem length_serverProof1Payload (keys : Keys) (t : Transcript) (vmDigest : Bytes) :
    (serverProof1Payload P.toHashes keys t vmDigest d.serverChallenge2.val).length = 48 := by
  simp [serverProof1Payload, d.serverChallenge2.property]

theorem openProof1_counter (s : Session) (counter : Nat) :
    openProof1 P env { s with clientCounter := counter } f = openProof1 P env s f := by
  simp only [openProof1, sessionKeys, validateStages]

theorem exec_exchangeBody {s : Session}
    (hs : s.clientCounter < f.counter → s.serverCounter + 1 < 2 ^ 64) :
    exec (exchangeBody P env d f) s =
      match exchangeCheck P env f s with
      | .ok (keys, t, p) =>
        (.ok (serverProofFrame P d s keys t p.vm.vmDigest).bytes,
          exchanged P d f s keys t p.vm.vmDigest)
      | .error e => (.error e, bump s f.counter) := by
  unfold exchangeBody exchangeCheck
  by_cases hfresh : s.clientCounter < f.counter
  · have hs := hs hfresh
    rw [Sessions.exec_accept_fresh hfresh, Effects.except_ensure_true hfresh, bump_fresh hfresh]
    refine (Effects.exec_bind_ok Effects.exec_get).trans ?_
    have hsame := openProof1_counter P env f s f.counter
    cases hopen : openProof1 P env s f with
    | error e => exact Effects.exec_bind_error (by rw [hsame, hopen]; rfl)
    | ok r =>
      obtain ⟨keys, t, p⟩ := r
      have hpayload : (serverProof1Payload P.toHashes keys t p.vm.vmDigest
          d.serverChallenge2.val).length < 2 ^ 32 := by
        rw [length_serverProof1Payload]
        decide
      have hmt : Config.mtServerProof1 < 256 := by decide
      have hseal := aeadSeal_eq P t keys.mac keys.s2c s.sessionId d.nonce.val _ hmt hs hpayload
      have hserial : (serverProofFrame P d s keys t p.vm.vmDigest).serialize =
          .ok (serverProofFrame P d s keys t p.vm.vmDigest).bytes :=
        aeadFrame_serialize P t keys.mac keys.s2c s.sessionId d.nonce.val _ hmt hs hpayload
      refine (Effects.exec_bind_ok (by rw [hsame, hopen]; rfl)).trans ?_
      refine (Effects.exec_bind_ok rfl).trans ?_
      refine (Effects.exec_bind_ok (by rw [hseal]; rfl)).trans ?_
      refine (Effects.exec_bind_ok rfl).trans ?_
      refine Eq.trans (b := exec (liftM (serverProofFrame P d s keys t
        p.vm.vmDigest).serialize) _) rfl ?_
      rw [hserial]
      rfl
  · rw [Sessions.exec_accept_stale hfresh, Effects.except_ensure_false hfresh, bump_stale hfresh]

theorem exchangeBody_ok {s s' : Session} {response : Bytes}
    (hs : s.clientCounter < f.counter → s.serverCounter + 1 < 2 ^ 64)
    (h : exec (exchangeBody P env d f) s = (.ok response, s')) :
    ∃ keys t p, exchangeCheck P env f s = .ok (keys, t, p) ∧
      response = (serverProofFrame P d s keys t p.vm.vmDigest).bytes ∧
      s' = exchanged P d f s keys t p.vm.vmDigest := by
  rw [exec_exchangeBody P env d f hs] at h
  cases hcheck : exchangeCheck P env f s with
  | error e =>
    rw [hcheck] at h
    cases h
  | ok q =>
    obtain ⟨keys, t, p⟩ := q
    rw [hcheck] at h
    cases h
    exact ⟨keys, t, p, rfl, rfl, rfl⟩

end Exchange

section Finalize

variable (P : Primitives) (d : FinalizeDraws) (f : Frame)

/-- When a CLIENT_PROOF_2 or FINALIZE is accepted: keys, and the transcript after it. -/
def finalizeCheck (s : Session) : Except Failure (Keys × Transcript) := do
  ensure (s.clientCounter < f.counter) (.protocolError "replay" "non-monotonic client counter")
  ensure (s.proof1Ok = true) (.proofError "finalize" "proof1 not completed")
  openProof2 P s f

structure Proof2Passed (s : Session) (keys : Keys) (t : Transcript) : Prop where
  fresh : s.clientCounter < f.counter
  proof1Ok : s.proof1Ok = true
  hasKeys : s.keys = some keys
  mac : (restoreTranscript s.transcriptState).macFor P.toHashes keys.mac f.preMacBytes =
    f.transcriptMac
  transcript : t = (restoreTranscript s.transcriptState).absorb P.toHashes f.bytes
  proof2 : CryptoBox.aeadDecrypt P keys.c2s f.nonce f.encryptedPayload f.authTag f.headerBytes =
    .ok (Verifier.computeProof2 P.toHashes keys.proof2 s.serverChallenge2 s.serverRandom
      s.serverEphPub s.vmDigest s.salt)

theorem finalizeCheck_ok {s : Session} {keys : Keys} {t : Transcript} (hf : f.WellFormed)
    (h : finalizeCheck P f s = .ok (keys, t)) : Proof2Passed P f s keys t := by
  unfold finalizeCheck openProof2 at h
  obtain ⟨hfresh, h⟩ := Effects.except_ensure_eq_ok h
  obtain ⟨hok, h⟩ := Effects.except_ensure_eq_ok h
  obtain ⟨k, hkeys, h⟩ := Effects.except_bind_eq_ok h
  obtain ⟨⟨proof2, u⟩, hopen, h⟩ := Effects.except_bind_eq_ok h
  obtain ⟨-, h⟩ := Effects.except_ensure_eq_ok h
  obtain ⟨_, hproof, h⟩ := Effects.except_bind_eq_ok h
  cases h
  obtain ⟨hmac, ht, hdec⟩ := aeadOpen_ok P hf hopen
  have heq := Effects.ensure_eq_ok_iff.mp hproof
  exact ⟨hfresh, hok, sessionKeys_ok hkeys, hmac, ht, heq ▸ hdec⟩

def sealKeyOf (keys : Keys) (finalTranscript : Bytes) : Bytes :=
  P.hmacSha256 (CryptoBox.hkdfExtract P.toHashes finalTranscript keys.sealKey)
    (ascii "RG6 seal" ++ [1])

def innerBytes (keys : Keys) (finalTranscript : Bytes) : Bytes :=
  let sealed := CryptoBox.aeadEncrypt P (sealKeyOf P keys finalTranscript) d.sealNonce.val
    Config.flag finalTranscript
  d.sealNonce.val ++ sealed.1 ++ sealed.2

def sealedFlagFrame (s : Session) (keys : Keys) (t : Transcript) : Frame :=
  aeadFrame P t keys.mac keys.s2c Config.mtSealedFlag s.sessionId (s.serverCounter + 1) d.nonce.val
    (innerBytes P d keys t.state)

def finalized (s : Session) (keys : Keys) (t : Transcript) : Session :=
  { s with
    clientCounter := f.counter
    serverCounter := s.serverCounter + 1
    transcriptState := (t.absorb P.toHashes (sealedFlagFrame P d s keys t).bytes).state }

theorem innerBlob_eq (keys : Keys) (finalTranscript : Bytes) :
    innerBlob P keys finalTranscript d.sealNonce.val = .ok (innerBytes P d keys finalTranscript) := by
  rw [innerBlob, CryptoBox.hkdf, CryptoBox.hkdfExpand_32]
  rfl

theorem length_innerBytes (keys : Keys) (finalTranscript : Bytes) :
    (innerBytes P d keys finalTranscript).length < 2 ^ 32 := by
  have hflag : Config.flag.length = 48 := by decide
  simp [innerBytes, d.sealNonce.property, hflag]

theorem openProof2_counter (s : Session) (counter : Nat) :
    openProof2 P { s with clientCounter := counter } f = openProof2 P s f := by
  simp only [openProof2, sessionKeys]

theorem exec_finalizeBody {s : Session}
    (hs : s.clientCounter < f.counter → s.serverCounter + 1 < 2 ^ 64) :
    exec (finalizeBody P d f) s =
      match finalizeCheck P f s with
      | .ok (keys, t) => (.ok (sealedFlagFrame P d s keys t).bytes, finalized P d f s keys t)
      | .error e => (.error e, bump s f.counter) := by
  unfold finalizeBody finalizeCheck
  by_cases hfresh : s.clientCounter < f.counter
  · have hs := hs hfresh
    rw [Sessions.exec_accept_fresh hfresh, Effects.except_ensure_true hfresh, bump_fresh hfresh]
    refine (Effects.exec_bind_ok Effects.exec_get).trans ?_
    by_cases hproof : s.proof1Ok = true
    · refine (Effects.exec_ensure_true (by exact hproof)).trans ?_
      rw [Effects.except_ensure_true hproof]
      have hsame := openProof2_counter P f s f.counter
      cases hopen : openProof2 P s f with
      | error e => exact Effects.exec_bind_error (by rw [hsame, hopen]; rfl)
      | ok r =>
        obtain ⟨keys, t⟩ := r
        have hmt : Config.mtSealedFlag < 256 := by decide
        have hseal := aeadSeal_eq P t keys.mac keys.s2c s.sessionId d.nonce.val _ hmt hs
          (length_innerBytes P d keys t.state)
        have hserial : (sealedFlagFrame P d s keys t).serialize =
            .ok (sealedFlagFrame P d s keys t).bytes :=
          aeadFrame_serialize P t keys.mac keys.s2c s.sessionId d.nonce.val _ hmt hs
            (length_innerBytes P d keys t.state)
        refine (Effects.exec_bind_ok (by rw [hsame, hopen]; rfl)).trans ?_
        refine (Effects.exec_bind_ok (by rw [innerBlob_eq]; rfl)).trans ?_
        refine (Effects.exec_bind_ok rfl).trans ?_
        refine (Effects.exec_bind_ok (by rw [hseal]; rfl)).trans ?_
        refine (Effects.exec_bind_ok rfl).trans ?_
        refine Eq.trans (b := exec (liftM (sealedFlagFrame P d s keys t).serialize) _) rfl ?_
        rw [hserial]
        rfl
    · refine (Effects.exec_ensure_false (by exact hproof)).trans ?_
      rw [Effects.except_ensure_false hproof]
  · rw [Sessions.exec_accept_stale hfresh, Effects.except_ensure_false hfresh, bump_stale hfresh]

theorem finalizeBody_ok {s s' : Session} {response : Bytes}
    (hs : s.clientCounter < f.counter → s.serverCounter + 1 < 2 ^ 64)
    (h : exec (finalizeBody P d f) s = (.ok response, s')) :
    ∃ keys t, finalizeCheck P f s = .ok (keys, t) ∧
      response = (sealedFlagFrame P d s keys t).bytes ∧ s' = finalized P d f s keys t := by
  rw [exec_finalizeBody P d f hs] at h
  cases hcheck : finalizeCheck P f s with
  | error e =>
    rw [hcheck] at h
    cases h
  | ok q =>
    obtain ⟨keys, t⟩ := q
    rw [hcheck] at h
    cases h
    exact ⟨keys, t, rfl, rfl, rfl⟩

end Finalize

end RankGate.Handlers.Specs
