/- Module: RankGate/Session/HeaderChecks
   source: client/src/net/protocol.cpp (run_session), client/src/challenge/transcript.cpp (open_frame)
   digest: The client takes server frames under any headers at all; only the server puts the right ones on. -/

import RankGate.Session.Answers
import RankGate.Session.ClientSteps
import RankGate.Session.Completeness

set_option autoImplicit false
set_option relaxedAutoImplicit false

namespace RankGate.Session.HeaderChecks

open ByteCodec (Bytes BytesN zeros)
open Effects (exec)
open RankGate.Client (UsesBlake2b)
open RankGate.Client.BinaryFrame (Frame Transcript)
open RankGate.Client.Protocol
open RankGate.Crypto (Primitives Sound)
open RankGate.Handlers.Requests
open RankGate.Server.Config (Env)
open RankGate.Server.Sessions (SessionStore)
open RankGate.Server.Verifier (buildLicenseStruct)
open RankGate.Session.Answers
open RankGate.Session.ClientSteps
open RankGate.Session.Completeness
open RankGate.Session.Retention (Elsewhere)
open RankGate.Session.Script (ServerDraws)
open RankGate.Wire.FrameAgreement

section Recording

variable {σ : Type}

def recording (http : Http (StateM σ)) : Http (StateM (σ × List Bytes)) where
  publicKey := ExceptT.mk fun (s, log) =>
    let (outcome, s') := exec http.publicKey s
    (outcome, (s', log))
  post e raw := ExceptT.mk fun (s, log) =>
    match exec (http.post e raw) s with
    | (.ok resp, s') => (.ok resp, (s', log ++ [resp]))
    | (.error err, s') => (.error err, (s', log))

variable {http : Http (StateM σ)} {s : σ} {q : σ × List Bytes} {log : List Bytes}

theorem recording_publicKey {serverSignPk : Bytes}
    (h : exec (recording http).publicKey (s, log) = (.ok serverSignPk, q)) :
    ∃ s', exec http.publicKey s = (.ok serverSignPk, s') ∧ q = (s', log) := by
  change ((exec http.publicKey s).1, ((exec http.publicKey s).2, log)) = _ at h
  obtain ⟨houtcome, rfl⟩ := Prod.mk.inj h
  exact ⟨_, Prod.ext houtcome rfl, rfl⟩

theorem recording_post {e : Endpoint} {raw resp : Bytes}
    (h : exec ((recording http).post e raw) (s, log) = (.ok resp, q)) :
    ∃ s', exec (http.post e raw) s = (.ok resp, s') ∧ q = (s', log ++ [resp]) := by
  rcases hpost : exec (http.post e raw) s with ⟨outcome, s'⟩
  change (match exec (http.post e raw) s with
    | (.ok resp, s') => (Except.ok resp, (s', log ++ [resp]))
    | (.error err, s') => (Except.error err, (s', log))) = _ at h
  rw [hpost] at h
  cases outcome with
  | error err => cases h
  | ok r =>
    cases h
    exact ⟨s', rfl, rfl⟩

theorem recording_post_ok {e : Endpoint} {raw resp : Bytes} {s' : σ}
    (h : exec (http.post e raw) s = (.ok resp, s')) :
    exec ((recording http).post e raw) (s, log) = (.ok resp, (s', log ++ [resp])) := by
  change (match exec (http.post e raw) s with
    | (.ok resp, s') => (Except.ok resp, (s', log ++ [resp]))
    | (.error err, s') => (Except.error err, (s', log))) = _
  rw [h]

theorem recorded_iff {P : Primitives} {d : Draws} {usernameNorm licenseStruct flag : Bytes} {s' : σ} :
    exec (runSession P (recording http) d usernameNorm licenseStruct) (s, []) =
        (.ok flag, (s', log)) ↔
      ∃ x : Course σ, x.Follows P d usernameNorm licenseStruct http s flag ∧ x.finished = s' ∧
        log = [x.challenge, x.serverProof1, x.sealedFlag] := by
  constructor
  · intro h
    obtain ⟨y, hy, hfinished⟩ := (runSession_eq_ok_iff P _ d _ _).mp h
    obtain ⟨pk, q0, r1, q1, chal, t2, session, r2, q2, c2, t4, r3, q3⟩ := y
    obtain ⟨hlogged0, hlogged1, hchal, hsession, hlogged2, hproof, hlogged3, hflag⟩ := hy
    dsimp only at hlogged0 hlogged1 hlogged2 hlogged3 hfinished
    obtain ⟨s0, hkey, rfl⟩ := recording_publicKey hlogged0
    obtain ⟨s1, hpost1, rfl⟩ := recording_post hlogged1
    obtain ⟨s2, hpost2, rfl⟩ := recording_post hlogged2
    obtain ⟨s3, hpost3, rfl⟩ := recording_post hlogged3
    obtain ⟨rfl, rfl⟩ := Prod.mk.inj hfinished
    exact ⟨⟨pk, s0, r1, s1, chal, t2, session, r2, s2, c2, t4, r3, s3⟩,
      ⟨hkey, hpost1, hchal, hsession, hpost2, hproof, hpost3, hflag⟩, rfl, rfl⟩
  · rintro ⟨x, hx, rfl, rfl⟩
    obtain ⟨pk, s0, r1, s1, chal, t2, session, r2, s2, c2, t4, r3, s3⟩ := x
    obtain ⟨hkey, hpost1, hchal, hsession, hpost2, hproof, hpost3, hflag⟩ := hx
    have hlogged0 : exec (recording http).publicKey (s, []) = (.ok pk, (s0, [])) := by
      change ((exec http.publicKey s).1, ((exec http.publicKey s).2, [])) = _
      rw [hkey]
    exact (runSession_eq_ok_iff P _ d _ _).mpr ⟨⟨pk, (s0, []), r1, (s1, [r1]), chal, t2, session, r2,
      (s2, [r1, r2]), c2, t4, r3, (s3, [r1, r2, r3])⟩, ⟨hlogged0, recording_post_ok hpost1, hchal,
        hsession, recording_post_ok hpost2, hproof, recording_post_ok hpost3, hflag⟩, rfl⟩

end Recording

structure Header where
  messageType : UInt8
  sessionId : BytesN 16
  counter : UInt64

/-- The bytes are a frame under this header. -/
def Header.On (h : Header) (resp : Bytes) : Prop :=
  ∃ f : Frame, Frame.parse resp = .ok f ∧ f.messageType = h.messageType ∧
    f.sessionId = h.sessionId.val ∧ f.counter = h.counter

theorem Header.On.unique {h h' : Header} {resp : Bytes} (hon : h.On resp) (hon' : h'.On resp) :
    h = h' := by
  obtain ⟨f, hparse, htype, hsid, hcounter⟩ := hon
  obtain ⟨f', hparse', htype', hsid', hcounter'⟩ := hon'
  obtain rfl := Except.ok.inj (hparse.symm.trans hparse')
  obtain ⟨mt, sid, counter⟩ := h
  obtain ⟨mt', sid', counter'⟩ := h'
  obtain rfl : mt = mt' := htype.symm.trans htype'
  obtain rfl : sid = sid' := Subtype.ext (hsid.symm.trans hsid')
  obtain rfl : counter = counter' := hcounter.symm.trans hcounter'
  rfl

def Carries (log : List Bytes) (hs : List Header) : Prop :=
  List.Forall₂ (fun resp h => h.On resp) log hs

theorem Carries.unique {log : List Bytes} {hs hs' : List Header} (h : Carries log hs)
    (h' : Carries log hs') : hs = hs' := by
  have hunique : Relator.RightUnique fun (resp : Bytes) (h : Header) => h.On resp :=
    fun _ _ _ => Header.On.unique
  exact List.right_unique_forall₂' hunique h h'

/-- SERVER_CHALLENGE, SERVER_PROOF_1 and SEALED_FLAG of this session, with rising counters. -/
structure InPlace (sid : BytesN 16) (hs : List Header) : Prop where
  messageTypes : hs.map Header.messageType =
    [Client.Constants.mtServerChallenge, Client.Constants.mtServerProof1,
      Client.Constants.mtSealedFlag]
  sessionIds : ∀ h ∈ hs, h.sessionId = sid
  counters : (hs.map Header.counter).Pairwise (· < ·)

/-- Whatever answers the client, a flag has three frames in place behind it. -/
def HeadersChecked (P : Primitives) (d : Draws) (usernameNorm licenseStruct : Bytes) : Prop :=
  ∀ (σ : Type) (http : Http (StateM σ)) (s s' : σ) (flag : Bytes) (log : List Bytes),
    exec (runSession P (recording http) d usernameNorm licenseStruct) (s, []) =
        (.ok flag, (s', log)) →
      ∃ hs, Carries log hs ∧ InPlace d.sessionId hs

/-! A server of the client's own code answers each of its frames under the header it likes. -/

section Forging

variable {P : Primitives} (h : Header)

variable (P) in
theorem parse_plainSeal (t : Transcript) (macKey : Bytes) {payload : Bytes}
    (hpayload : payload.length ≤ 2 ^ 20) :
    Frame.parse (plainSeal P.toHashes t macKey h.messageType h.sessionId.val h.counter (zeros 24)
        payload).1.serialize =
      .ok (plainSeal P.toHashes t macKey h.messageType h.sessionId.val h.counter (zeros 24)
        payload).1 :=
  Wire.FrameExactness.client_parse_serialize (plainSeal_wellFormed t macKey _ _ _ _ _
    h.sessionId.property (ByteCodec.length_zeros 24) hpayload P.toHashes)

variable (P) in
theorem parse_aeadSeal (t : Transcript) (macKey aeadKey : Bytes) {payload : Bytes}
    (hpayload : payload.length ≤ 2 ^ 20) :
    Frame.parse (aeadSeal P t macKey aeadKey h.messageType h.sessionId.val h.counter (zeros 24)
        payload).1.serialize =
      .ok (aeadSeal P t macKey aeadKey h.messageType h.sessionId.val h.counter (zeros 24)
        payload).1 :=
  Wire.FrameExactness.client_parse_serialize (aeadSeal_wellFormed P t macKey aeadKey _ _ _ _ _
    h.sessionId.property (ByteCodec.length_zeros 24) hpayload)

theorem forged_challenge (hsound : Sound P) (t : Transcript) :
    ∃ resp chal t2, h.On resp ∧ chal.serverPub = P.x25519Base (zeros 32) ∧
      openChallenge P (P.ed25519PublicKey (zeros 32)) t resp = .ok (chal, t2) := by
  let signedData := Client.Constants.signContext ++ t.state ++ P.x25519Base (zeros 32) ++ zeros 16
  let c : Wire.Payloads.ChallengeFields := ⟨⟨P.x25519Base (zeros 32), P.length_x25519Base _⟩,
    ⟨zeros 16, ByteCodec.length_zeros 16⟩, ⟨P.ed25519Sign (zeros 32) signedData,
      P.length_ed25519Sign _ _⟩⟩
  have hlen : (Wire.Payloads.serverChallenge.encode c).length ≤ 2 ^ 20 := by
    rw [Wire.Payloads.serverChallenge_fixed.length_encode]
    decide
  have hverify : Client.CryptoBox.ed25519Verify P (P.ed25519PublicKey (zeros 32)) signedData
      (P.ed25519Sign (zeros 32) signedData) = true := by
    rw [Client.CryptoBox.ed25519Verify, if_neg (by simp)]
    exact hsound.signature _ _
  have hparse := parse_plainSeal P h t (bootstrapMacKey P.toHashes) hlen
  exact ⟨_, _, _, ⟨_, hparse, rfl, rfl, rfl⟩, rfl,
    openChallenge_ok c hparse (plainOpen_plainSeal t _ _ _ _ _ _ P.toHashes) hverify⟩

theorem forged_serverProof1 (hsound : Sound P) (s : Client.Protocol.Session) (t : Transcript) :
    ∃ resp serverChallenge2 t4, h.On resp ∧
      openServerProof1 P s t resp = .ok (serverChallenge2, t4) := by
  let c : Wire.Payloads.ServerProof1Fields := ⟨⟨P.hmacSha256 s.keys.sproof1
    (Client.Constants.sproof1Label ++ t.state ++ s.vmres.vmDigest ++ zeros 16),
      P.length_hmacSha256 _ _⟩, ⟨zeros 16, ByteCodec.length_zeros 16⟩⟩
  have hlen : (Wire.Payloads.serverProof1.encode c).length ≤ 2 ^ 20 := by
    rw [Wire.Payloads.serverProof1_fixed.length_encode]
    decide
  have hparse := parse_aeadSeal P h t s.keys.mac s.keys.s2c hlen
  exact ⟨_, _, _, ⟨_, hparse, rfl, rfl, rfl⟩,
    openServerProof1_ok c hparse (aeadOpen_aeadSeal P t _ _ _ _ _ _ _ hsound) rfl⟩

theorem forged_sealedFlag (hsound : Sound P) (s : Client.Protocol.Session) (t : Transcript)
    {flag : Bytes} (hflag : flag.length + 40 ≤ 2 ^ 20) :
    ∃ resp, h.On resp ∧ openSealedFlag P s t resp = .ok flag := by
  generalize hkey : Client.CryptoBox.hkdf P.toHashes t.state s.keys.sealKey
    Client.Constants.sealInfo 32 = kSeal
  generalize hsealed : Client.CryptoBox.aeadEncrypt P kSeal (zeros 24) flag t.state = sealed
  have hct := length_aeadEncrypt_fst P (zeros 24) kSeal flag t.state
  have htag := length_aeadEncrypt_snd P (zeros 24) kSeal flag t.state
  have hdec := aeadDecrypt_aeadEncrypt P (zeros 24) hsound kSeal flag t.state
  rw [hsealed] at hct htag hdec
  have hlen : (zeros 24 ++ sealed.1 ++ sealed.2).length ≤ 2 ^ 20 := by
    rw [List.length_append, List.length_append, ByteCodec.length_zeros, hct, htag]
    omega
  rw [← hkey] at hdec
  have hparse := parse_aeadSeal P h t s.keys.mac s.keys.s2c hlen
  exact ⟨_, ⟨_, hparse, rfl, rfl, rfl⟩,
    openSealedFlag_ok hparse (aeadOpen_aeadSeal P t _ _ _ _ _ _ _ hsound)
      (ByteCodec.length_zeros 24) htag hdec⟩

theorem establish_ok (hsound : Sound P) (hblake : UsesBlake2b P.toHashes) (d : Draws)
    (usernameNorm licenseStruct : Bytes) {chal : Challenge} (t : Transcript)
    (hchal : chal.serverPub = P.x25519Base (zeros 32)) :
    ∃ s, establish P d usernameNorm licenseStruct chal t = .ok s := by
  obtain ⟨shared, hshared, -⟩ := hsound.agreement d.priv.val (zeros 32) d.priv.property
    (ByteCodec.length_zeros 32)
  obtain ⟨vmres, hvm, -⟩ := Vm.CommittedBlob.runVm_agree hblake
    (rfl : sampleEnv.vmBlobKey = none) usernameNorm licenseStruct chal.serverRandom d.sessionId.val
    t.state chal.serverRandom
  have hagree : Client.CryptoBox.x25519Shared P d.priv.val chal.serverPub = .ok shared := by
    rw [Client.CryptoBox.x25519Shared, hchal, hshared]
  exact ⟨_, (Effects.except_bind_ok hagree).trans (Effects.except_bind_ok hvm)⟩

def answering (serverSignPk challenge serverProof1 sealedFlag : Bytes) : Http (StateM Unit) where
  publicKey := pure serverSignPk
  post e _ :=
    match e with
    | .hello => pure challenge
    | .exchange => pure serverProof1
    | .finalize => pure sealedFlag

/-- Under any three headers the client comes to a flag. -/
theorem any_headers (hsound : Sound P) (hblake : UsesBlake2b P.toHashes) (d : Draws)
    (usernameNorm licenseStruct : Bytes) {flag : Bytes} (hflag : flag.length + 40 ≤ 2 ^ 20)
    (h₁ h₂ h₃ : Header) :
    ∃ (http : Http (StateM Unit)) (log : List Bytes), Carries log [h₁, h₂, h₃] ∧
      exec (runSession P (recording http) d usernameNorm licenseStruct) ((), []) =
        (.ok flag, ((), log)) := by
  obtain ⟨r1, chal, t2, hon1, hpub, hchal⟩ :=
    forged_challenge h₁ hsound (hello P d usernameNorm).2
  obtain ⟨s, hs⟩ := establish_ok hsound hblake d usernameNorm licenseStruct t2 hpub
  obtain ⟨r2, c2, t4, hon2, hproof⟩ :=
    forged_serverProof1 h₂ hsound s (clientProof1 P d usernameNorm licenseStruct chal s t2).2
  obtain ⟨r3, hon3, hsealed⟩ :=
    forged_sealedFlag h₃ hsound s (clientProof2 P d chal s c2 t4).2 hflag
  let serverSignPk := P.ed25519PublicKey (zeros 32)
  exact ⟨answering serverSignPk r1 r2 r3, [r1, r2, r3], .cons hon1 (.cons hon2 (.cons hon3 .nil)),
    recorded_iff.mpr ⟨⟨serverSignPk, (), r1, (), chal, t2, s, r2, (), c2, t4, r3, ()⟩,
      ⟨rfl, rfl, hchal, hs, rfl, hproof, rfl, hsealed⟩, rfl, rfl⟩⟩

theorem not_headersChecked {d : Draws} {usernameNorm licenseStruct flag : Bytes}
    {http : Http (StateM Unit)} {log : List Bytes} {h₁ h₂ h₃ : Header}
    (hcarries : Carries log [h₁, h₂, h₃]) (hcounter : ¬ h₁.counter < h₂.counter)
    (hrun : exec (runSession P (recording http) d usernameNorm licenseStruct) ((), []) =
      (.ok flag, ((), log))) : ¬ HeadersChecked P d usernameNorm licenseStruct := by
  intro hchecked
  obtain ⟨hs, hcarries', hplace⟩ := hchecked Unit http () () flag log hrun
  obtain rfl := hcarries'.unique hcarries
  exact hcounter (List.rel_of_pairwise_cons hplace.counters List.mem_cons_self)

end Forging

section Served

variable {P : Primitives} {env : Env} {sd : ServerDraws} {gap₁ gap₂ : List Request}
  {store store' : SessionStore}

theorem serverHttp_post {e : Endpoint} {raw resp : Bytes}
    (h : exec ((serverHttp P env sd gap₁ gap₂).post e raw) store = (.ok resp, store')) :
    step P env (Runs.final (step P env) store (meanwhile gap₁ gap₂ e)) (request sd e raw) =
      (.ok resp, store') := by
  rcases hstep : step P env (Runs.final (step P env) store (meanwhile gap₁ gap₂ e))
    (request sd e raw) with ⟨outcome, store''⟩
  change ((step P env _ _).1.mapError _, (step P env _ _).2) = _ at h
  rw [hstep] at h
  cases outcome with
  | error e => cases h
  | ok r =>
    cases h
    rfl

theorem sessionId_of_parse {f : SFrame} {g : CFrame} (hsid : g.sessionId.length = 16)
    (h : Server.Protocol.Frame.parse g.serialize = .ok f) : f.sessionId = g.sessionId := by
  obtain ⟨hwf, hbytes⟩ := Server.Protocol.Frame.parse_ok h
  have hserver : (f.bytes.drop 6).take 16 = f.sessionId := by
    rw [Server.Protocol.Frame.bytes_split]
    exact List.take_left' hwf.sessionId
  have hclient : (g.serialize.drop 6).take 16 = g.sessionId := by
    simp only [Client.BinaryFrame.Frame.serialize, Client.BinaryFrame.Frame.preMac,
      Client.BinaryFrame.Frame.header, List.append_assoc]
    exact List.take_left' hsid
  rw [← hserver, ← hbytes, hclient]

theorem on_of_answer {r : Request} {sid : BytesN 16} {n : Nat} {g : SFrame} {resp : Bytes}
    (h : AnswerTo r sid.val n g resp) :
    Header.On ⟨UInt8.ofNat (answerType r), sid, UInt64.ofNat n⟩ resp := by
  obtain ⟨hwf, rfl, htype, hsid, rfl⟩ := h
  rw [← htype]
  exact ⟨narrow g, parse_bytes hwf, rfl, hsid, rfl⟩

theorem served_inPlace {d : Draws} {usernameNorm licenseStruct flag : Bytes} {log : List Bytes}
    (h₁ : Elsewhere d.sessionId.val gap₁) (h₂ : Elsewhere d.sessionId.val gap₂)
    (hrun : exec (runSession P (recording (serverHttp P env sd gap₁ gap₂)) d usernameNorm
      licenseStruct) (store, []) = (.ok flag, (store', log))) :
    ∃ hs, Carries log hs ∧ InPlace d.sessionId hs := by
  obtain ⟨x, hx, -, rfl⟩ := recorded_iff.mp hrun
  have hstep₁ := serverHttp_post hx.postHello
  have hstep₂ := serverHttp_post hx.postProof1
  have hstep₃ := serverHttp_post hx.postProof2
  -- each request is a frame under the client's session id
  obtain ⟨f₁, hf₁⟩ := frame_of_answered P env (congrArg Prod.fst hstep₁)
  obtain ⟨f₂, hf₂⟩ := frame_of_answered P env (congrArg Prod.fst hstep₂)
  obtain ⟨f₃, hf₃⟩ := frame_of_answered P env (congrArg Prod.fst hstep₃)
  have hid₁ : f₁.sessionId = d.sessionId.val :=
    sessionId_of_parse d.sessionId.property (Request.frame?_eq_some hf₁).1
  have hid₂ : f₂.sessionId = d.sessionId.val :=
    sessionId_of_parse d.sessionId.property (Request.frame?_eq_some hf₂).1
  have hid₃ : f₃.sessionId = d.sessionId.val :=
    sessionId_of_parse d.sessionId.property (Request.frame?_eq_some hf₃).1
  -- and finds the session where the last one left it
  obtain ⟨⟨g₁, hg₁⟩, ⟨s₁, hs₁⟩, hnewest₁⟩ := hello_answers P env hf₁ rfl hstep₁
  rw [hid₁] at hg₁ hs₁ hnewest₁
  have hs₁' := hs₁.run P env hnewest₁ h₁
  rw [← hid₂] at hs₁'
  obtain ⟨⟨g₂, hg₂⟩, ⟨s₂, hs₂⟩, hnewest₂⟩ :=
    known_answers P env hf₂ rfl hs₁' (by decide) hstep₂
  rw [hid₂] at hg₂ hs₂ hnewest₂
  have hs₂' := hs₂.run P env hnewest₂ h₂
  rw [← hid₃] at hs₂'
  obtain ⟨⟨g₃, hg₃⟩, -, -⟩ := known_answers P env hf₃ rfl hs₂' (by decide) hstep₃
  rw [hid₃] at hg₃
  refine ⟨_, .cons (on_of_answer hg₁) (.cons (on_of_answer hg₂) (.cons (on_of_answer hg₃) .nil)),
    ?_, ?_, ?_⟩
  · rfl
  · simp
  · change [UInt64.ofNat 1, UInt64.ofNat 2, UInt64.ofNat 3].Pairwise (· < ·)
    decide

theorem served_flag (hsound : Sound P) (hblake : UsesBlake2b P.toHashes)
    (henv : env.vmBlobKey = none) {raw usernameNorm : Bytes}
    (hname : Client.LicenseFormat.normalizeUsername raw = .ok usernameNorm) (d : Draws)
    (h₁ : Elsewhere d.sessionId.val gap₁) (h₂ : Elsewhere d.sessionId.val gap₂) :
    ∃ store' log, exec (runSession P (recording (serverHttp P env sd gap₁ gap₂)) d usernameNorm
      (buildLicenseStruct P env usernameNorm)) (store, []) =
        (.ok Server.Config.flag, (store', log)) := by
  obtain ⟨x, h, rfl, rfl, rfl, hlicense⟩ := exists_honest hsound hblake henv hname d sd
  obtain ⟨y, hy⟩ := honest_course h h₁ h₂ store
  rw [← hlicense]
  exact ⟨_, _, recorded_iff.mpr ⟨y, hy, rfl, rfl⟩⟩

end Served

/-- The header checks of the server are missing in the client. Whatever its inputs, under any three
headers some server brings it to a flag; only that the server's handlers put theirs on does a session
with them show the headers of the protocol. -/
theorem headers_unchecked (P : Primitives) (hsound : Sound P) (hblake : UsesBlake2b P.toHashes)
    (d : Draws) (usernameNorm licenseStruct : Bytes) :
    ¬ HeadersChecked P d usernameNorm licenseStruct ∧
    (∀ h₁ h₂ h₃ : Header, ∃ (http : Http (StateM Unit)) (log : List Bytes),
      Carries log [h₁, h₂, h₃] ∧
        exec (runSession P (recording http) d usernameNorm licenseStruct) ((), []) =
          (.ok Server.Config.flag, ((), log))) ∧
    ∀ (env : Env) (sd : ServerDraws) (gap₁ gap₂ : List Request) (store store' : SessionStore)
      (flag : Bytes) (log : List Bytes), Elsewhere d.sessionId.val gap₁ →
      Elsewhere d.sessionId.val gap₂ →
      exec (runSession P (recording (serverHttp P env sd gap₁ gap₂)) d usernameNorm licenseStruct)
        (store, []) = (.ok flag, (store', log)) →
      ∃ hs, Carries log hs ∧ InPlace d.sessionId hs := by
  have hflag : Server.Config.flag.length + 40 ≤ 2 ^ 20 := by decide
  have hany := any_headers hsound hblake d usernameNorm licenseStruct hflag
  let h : Header := ⟨Client.Constants.mtHello, d.sessionId, 0⟩
  obtain ⟨http, log, hcarries, hrun⟩ := hany h h h
  exact ⟨not_headersChecked hcarries (UInt64.lt_irrefl _) hrun, hany,
    fun _ _ _ _ _ _ _ _ h₁ h₂ hrun => served_inPlace h₁ h₂ hrun⟩

def sampleDraws : Draws :=
  ⟨sampleDraw 32, sampleDraw 16, ⟨List.replicate 16 1, rfl⟩, sampleDraw 24, sampleDraw 24,
    sampleDraw 24⟩

def strayHeader (counter : UInt64) : Header :=
  ⟨Client.Constants.mtHello, ⟨List.replicate 16 0xFF, rfl⟩, counter⟩

/-- Three HELLOs of another session, counting down, lead to the flag. -/
theorem headers_unchecked_counterexample :
    (∃ (http : Http (StateM Unit)) (log : List Bytes),
      Carries log [strayHeader 3, strayHeader 2, strayHeader 1] ∧
        exec (runSession hashing (recording http) sampleDraws [0x61] (zeros 25)) ((), []) =
          (.ok Server.Config.flag, ((), log))) ∧
    ¬ HeadersChecked hashing sampleDraws [0x61] (zeros 25) := by
  have hflag : Server.Config.flag.length + 40 ≤ 2 ^ 20 := by decide
  obtain ⟨http, log, hcarries, hrun⟩ := any_headers hashing_sound hashing_usesBlake2b sampleDraws
    [0x61] (zeros 25) hflag (strayHeader 3) (strayHeader 2) (strayHeader 1)
  exact ⟨⟨http, log, hcarries, hrun⟩, not_headersChecked hcarries (by decide) hrun⟩

/-- The same client with the handlers behind its transport: it has its flag, and the headers are in
place. -/
theorem headers_unchecked_sample :
    ¬ HeadersChecked hashing sampleDraws [0x61] (buildLicenseStruct hashing sampleEnv [0x61]) ∧
    ∃ store log hs,
      exec (runSession hashing (recording (serverHttp hashing sampleEnv ⟨⟨sampleDraw 32, sampleDraw 16,
          sampleDraw 24⟩, ⟨sampleDraw 16, sampleDraw 24⟩, ⟨sampleDraw 24, sampleDraw 24⟩⟩ [sampleHello 1]
          [])) sampleDraws [0x61] (buildLicenseStruct hashing sampleEnv [0x61])) (∅, []) =
        (.ok Server.Config.flag, (store, log)) ∧ Carries log hs ∧ InPlace sampleDraws.sessionId hs := by
  obtain ⟨hunchecked, -, hserved⟩ := headers_unchecked hashing hashing_sound hashing_usesBlake2b
    sampleDraws [0x61] (buildLicenseStruct hashing sampleEnv [0x61])
  have hfirst : Elsewhere sampleDraws.sessionId.val [sampleHello 1] := by
    constructor <;> decide +kernel
  have hsecond : Elsewhere sampleDraws.sessionId.val [] := by
    constructor <;> decide +kernel
  have hname : Client.LicenseFormat.normalizeUsername [0x61] = .ok [0x61] := by rfl
  obtain ⟨store, log, hrun⟩ := served_flag hashing_sound hashing_usesBlake2b
    (rfl : sampleEnv.vmBlobKey = none) hname sampleDraws hfirst hsecond
  obtain ⟨hs, hcarries, hplace⟩ := hserved _ _ _ _ _ _ _ _ hfirst hsecond hrun
  exact ⟨hunchecked, store, log, hs, hrun, hcarries, hplace⟩

end RankGate.Session.HeaderChecks
