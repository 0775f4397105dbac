/- Module: RankGate/Session/Agreement
   source: client/src/net/protocol.cpp (run_session), server/app/challenge_logic.py
   digest: Over any network, what the client accepts is what the server said to it, unless a MAC, a
   signature or a digest is broken at a named place. -/

import RankGate.Session.Conversations
import RankGate.Session.LicenseGate

set_option autoImplicit false
set_option relaxedAutoImplicit false

namespace RankGate.Session.Agreement

open ByteCodec (Bytes zeros)
open Effects (exec)
open HashChain (Collides)
open RankGate.Client.Protocol (Challenge Draws Http openChallenge runSession)
open RankGate.Crypto (Primitives)
open RankGate.Handlers.Requests
open RankGate.Server.Config (Env)
open RankGate.Server.Protocol (Frame)
open RankGate.Server.Sessions (SessionStore)
open RankGate.Server.Verifier (buildLicenseStruct)
open RankGate.Session.ClientSteps (Course)
open RankGate.Session.Completeness (hashing hashing_sound meanwhile request runSession_sample
  sampleDraws sampleServerDraws serverHttp step_of_post)
open RankGate.Session.Conversations
open RankGate.Session.Script (ServerDraws)
open RankGate.Wire.FrameAgreement (SFrame widen)
open RankGate.Wire.TranscriptBinding

variable (P : Primitives) (env : Env)

/-- At some point of the run the record of the session is this conversation. -/
def Recorded (rs : List Request) (sid : Bytes) (history : List Bytes) : Prop :=
  ∃ rs₁ r rs₂, rs = rs₁ ++ r :: rs₂ ∧
    (life sid (trace P env (rs₁ ++ [r]))).flatMap frames = history

/-- Among what the server hashed on its way to some request, and the client on its way through these
frames, there is a collision. -/
def Colliding (rs : List Request) (history : List Bytes) : Prop :=
  ∃ rs₁ r rs₂, rs = rs₁ ++ r :: rs₂ ∧
    Collides P.sha256 ((chain P.toHashes).inputs (behind P env rs₁ r))
      ((chain P.toHashes).inputs history)

/-- The MAC on the frame is right, and the server never put one on this input. -/
structure Forged (rs : List Request) (key : Bytes) (history : List Bytes) (f : SFrame) : Prop where
  mac : f.transcriptMac = P.hmacSha256 key (macInput P.toHashes history f)
  fresh : ¬ Macs P env rs key (macInput P.toHashes history f)

variable {P env} {rs : List Request}

/-- Of a frame whose input the server did put its MAC on, the server is the sender. -/
theorem sent_or_colliding {history : List Bytes} {key : Bytes} {f : SFrame} (hf : f.WellFormed)
    (hmac : f.transcriptMac = P.hmacSha256 key (macInput P.toHashes history f))
    (hmacs : Macs P env rs key (macInput P.toHashes history f)) :
    (∃ rs₁ r rs₂ state, rs = rs₁ ++ r :: rs₂ ∧ Sends P env rs₁ r key state f ∧
      behind P env rs₁ r = history) ∨ Colliding P env rs history := by
  obtain ⟨rs₁, r, rs₂, state, g, hrs, hsends, hinput⟩ := hmacs
  have hsame : g.transcriptMac = f.transcriptMac := by rw [hsends.mac, ← hinput, hmac]
  rw [macInput, hsends.state_eq] at hinput
  obtain ⟨hstate, hpre⟩ := List.append_inj hinput
    ((length_state P.toHashes _).trans (length_state P.toHashes _).symm)
  have hframe : g = f := by
    have hinj := Frame.preMacBytes_inj hsends.wellFormed hf hpre.symm
    rw [← hsame] at hinj
    exact hinj
  subst hframe
  rcases (chain_separated P.toHashes).binding _ _ hstate.symm with hhistory | hcollides
  · exact .inl ⟨rs₁, r, rs₂, state, hrs, hsends, hhistory⟩
  · exact .inr ⟨rs₁, r, rs₂, hrs, hcollides⟩

section Flag

variable {σ : Type} {d : Draws} {name license : Bytes} {x : Course σ}

theorem proof2_wellFormed : (widen (x.proof2 P d).1).WellFormed := by
  refine Wire.FrameExactness.wellFormed_widen.mpr (ClientSteps.aeadSeal_wellFormed P _ _ _ _ _ _ _ _
    d.sessionId.property d.proof2Nonce.property ?_)
  exact (P.length_hmacSha256 _ _).trans_le (by decide)

theorem frame_of_behind {rs₁ : List Request} {r : Request} {f : Frame} (hf : r.frame? = some f)
    (hbehind : behind P env rs₁ r = (conversation P d name license x).take 5) :
    f = widen (x.proof2 P d).1 := by
  obtain ⟨-, hraw⟩ := List.append_inj' (show _ ++ [r.raw] = [_, _, _, _] ++ [_] from hbehind) rfl
  have hwf := proof2_wellFormed (P := P) (d := d) (x := x)
  refine Frame.bytes_inj (Request.wellFormed hf) hwf ?_
  rw [← Request.raw_eq hf, List.singleton_inj.mp hraw]
  exact Wire.FrameAgreement.serialize_eq hwf.payload_lt

/-- The last frame is the server's answer to the client's five, or the MAC on it is not the server's;
SHA-256 aside. -/
theorem sealedFlag_sent (env : Env) (rs : List Request) {http : Http (StateM σ)} {s : σ}
    {flag : Bytes} (hx : x.Follows P d name license http s flag) :
    (∃ rs₁ r rs₂ state g, rs = rs₁ ++ r :: rs₂ ∧
        Sends P env rs₁ r x.session.keys.mac state g ∧ g.bytes = x.sealedFlag ∧
        behind P env rs₁ r = (conversation P d name license x).take 5) ∨
      Colliding P env rs ((conversation P d name license x).take 5) ∨
      ∃ f, Frame.parse x.sealedFlag = .ok f ∧
        Forged P env rs x.session.keys.mac ((conversation P d name license x).take 5) f := by
  obtain ⟨f, -, -, -, htaken, -⟩ := heard_sealedFlag hx
  by_cases hmacs : Macs P env rs x.session.keys.mac
      (macInput P.toHashes ((conversation P d name license x).take 5) (widen f))
  · rcases sent_or_colliding htaken.wellFormed htaken.mac hmacs with hsent | hcollides
    · obtain ⟨rs₁, r, rs₂, state, hrs, hsends, hbehind⟩ := hsent
      exact .inl ⟨rs₁, r, rs₂, state, widen f, hrs, hsends, htaken.bytes, hbehind⟩
    · exact .inr (.inl hcollides)
  · refine .inr (.inr ⟨widen f, ?_, htaken.mac, hmacs⟩)
    rw [← htaken.bytes]
    exact Frame.parse_bytes htaken.wellFormed

theorem recorded_of_sends {rs₁ : List Request} {r : Request} {key state : Bytes} {g : Frame}
    (hsends : Sends P env rs₁ r key state g) (hbytes : g.bytes = x.sealedFlag)
    (hbehind : behind P env rs₁ r = (conversation P d name license x).take 5) (rs₂ : List Request) :
    Recorded P env (rs₁ ++ r :: rs₂) d.sessionId.val (conversation P d name license x) := by
  obtain ⟨f, hf⟩ := frame_of_answered P env hsends.answered
  obtain rfl := frame_of_behind hf hbehind
  refine ⟨rs₁, r, rs₂, rfl, (record_answered hf hsends.answered).trans ?_⟩
  rw [hbehind, hbytes]
  rfl

section Served

variable {sd : ServerDraws} {gap₁ gap₂ : List Request} {x : Course SessionStore} {flag : Bytes}

/-- The requests the server has handled when the last frame of the session reaches it. -/
def before (rs : List Request) (sd : ServerDraws) (gap₁ gap₂ : List Request) (P : Primitives)
    (d : Draws) (name license : Bytes) (x : Course SessionStore) : List Request :=
  rs ++ [.hello sd.hello (Course.hello P d name).1.serialize] ++ gap₁ ++
    [.exchange sd.exchange (x.proof1 P d name license).1.serialize] ++ gap₂

def last (sd : ServerDraws) (P : Primitives) (d : Draws) (x : Course SessionStore) : Request :=
  .finalize sd.finalize (x.proof2 P d).1.serialize

theorem sessionId_of_serialize {f : Frame} {c : Client.BinaryFrame.Frame} (hf : f.WellFormed)
    (hc : c.sessionId.length = 16) (h : f.bytes = c.serialize) : f.sessionId = c.sessionId := by
  simp only [Frame.bytes, Frame.preMacBytes, Frame.headerBytes, Client.BinaryFrame.Frame.serialize,
    Client.BinaryFrame.Frame.preMac, Client.BinaryFrame.Frame.header, List.append_assoc] at h
  have hmagic : Server.Config.magic.length = Client.Constants.magic.length := by decide
  have h := List.append_inj_right h hmagic
  have h : [UInt8.ofNat f.messageType] ++ (f.sessionId ++ _) =
    [c.messageType] ++ (c.sessionId ++ _) := (List.cons.inj h).2
  exact List.append_inj_left (List.append_inj_right h rfl) (hf.sessionId.trans hc.symm)

theorem frame_of_posted {r : Request} {c : Client.BinaryFrame.Frame} {response : Bytes}
    (hc : c.sessionId = d.sessionId.val) (hraw : r.raw = c.serialize)
    (h : (step P env (storeAfter P env rs) r).1 = .ok response) :
    ∃ f, r.frame? = some f ∧ f.sessionId = d.sessionId.val := by
  obtain ⟨f, hf⟩ := frame_of_answered P env h
  refine ⟨f, hf, (sessionId_of_serialize (Request.wellFormed hf) ?_ ?_).trans hc⟩
  · rw [hc]
    exact d.sessionId.property
  · rw [← Request.raw_eq hf, hraw]

/-- One frame of the client that the server answered: what it met, and the record behind it. -/
theorem posted {s' : SessionStore} {e : Client.Protocol.Endpoint} {c : Client.BinaryFrame.Frame}
    {resp : Bytes} (hc : c.sessionId = d.sessionId.val)
    (hgap : ∀ r ∈ meanwhile gap₁ gap₂ e, r.sessionId? ≠ some d.sessionId.val)
    (h : exec ((serverHttp P env sd gap₁ gap₂).post e c.serialize) (storeAfter P env rs) =
      (.ok resp, s')) :
    let before := rs ++ meanwhile gap₁ gap₂ e
    let r := request sd e c.serialize
    (step P env (storeAfter P env before) r).1 = .ok resp ∧ storeAfter P env (before ++ [r]) = s' ∧
      behind P env before r = (if r.isHello then []
        else (life d.sessionId.val (trace P env rs)).flatMap frames) ++ [c.serialize] ∧
      (life d.sessionId.val (trace P env (before ++ [r]))).flatMap frames =
        behind P env before r ++ [resp] := by
  intro before r
  have hbefore : Runs.final (step P env) (storeAfter P env rs) (meanwhile gap₁ gap₂ e) =
      storeAfter P env before := (Runs.final_append (step P env) ∅ rs _).symm
  have hraw : r.raw = c.serialize := by cases e <;> rfl
  have hstep := step_of_post P env sd gap₁ gap₂ h
  rw [hbefore] at hstep
  have hanswer : (step P env (storeAfter P env before) r).1 = .ok resp := congrArg Prod.fst hstep
  obtain ⟨f, hf, hid⟩ := frame_of_posted hc hraw hanswer
  have hsid : r.sessionId? = some d.sessionId.val := by
    rw [Request.sessionId?, hf, Option.map_some, hid]
  refine ⟨hanswer, (storeAfter_concat P env before r).trans (congrArg Prod.snd hstep), ?_,
    hid ▸ record_answered hf hanswer⟩
  rw [behind, hraw, hsid, Option.map_some, Option.getD_some, life_elsewhere rs hgap]

/-- Where the client talked to the server itself, the server sent the last frame, behind the client's
five. -/
theorem served (rs : List Request) (hx : x.Follows P d name license (serverHttp P env sd gap₁ gap₂)
      (storeAfter P env rs) flag)
    (h₁ : ∀ r ∈ gap₁, r.sessionId? ≠ some d.sessionId.val)
    (h₂ : ∀ r ∈ gap₂, r.sessionId? ≠ some d.sessionId.val) :
    ∃ key state g, Sends P env (before rs sd gap₁ gap₂ P d name license x) (last sd P d x) key state
        g ∧ g.bytes = x.sealedFlag ∧
      behind P env (before rs sd gap₁ gap₂ P d name license x) (last sd P d x) =
        (conversation P d name license x).take 5 := by
  have hready : x.ready = storeAfter P env rs := (congrArg Prod.snd hx.publicKey).symm
  have hnil : rs ++ meanwhile gap₁ gap₂ .hello = rs := List.append_nil rs
  have hhello := posted (c := (Course.hello P d name).1) rfl
    (show ∀ r ∈ meanwhile gap₁ gap₂ .hello, _ from fun _ h => absurd h List.not_mem_nil)
    (hready ▸ hx.postHello)
  rw [hnil] at hhello
  obtain ⟨-, hgreeted, hbehind₁, hrecord₁⟩ := hhello
  obtain ⟨-, hexchanged, hbehind₂, hrecord₂⟩ := posted (c := (x.proof1 P d name license).1) rfl
    (show ∀ r ∈ meanwhile gap₁ gap₂ .exchange, _ from h₁) (hgreeted ▸ hx.postProof1)
  obtain ⟨hanswer, -, hbehind₃, -⟩ := posted (c := (x.proof2 P d).1) rfl
    (show ∀ r ∈ meanwhile gap₁ gap₂ .finalize, _ from h₂) (hexchanged ▸ hx.postProof2)
  rw [hrecord₂, hbehind₂, hrecord₁, hbehind₁] at hbehind₃
  obtain ⟨key, state, g, hsends, hg⟩ := sends_of_answered hanswer
  exact ⟨key, state, g, hsends, hg, hbehind₃⟩

end Served

/-- A client that comes to a flag has had all six of its frames with the server, the last answer
included, or took its last frame for a MAC that the server never made; SHA-256 aside. -/
theorem flag_agreement (P : Primitives) (env : Env) (rs : List Request) (http : Http (StateM σ))
    (d : Draws) (name license : Bytes) {s s' : σ} {flag : Bytes}
    (h : exec (runSession P http d name license) s = (.ok flag, s')) :
    ∃ x : Course σ, x.Follows P d name license http s flag ∧
      (Recorded P env rs d.sessionId.val (conversation P d name license x) ∨
        Colliding P env rs ((conversation P d name license x).take 5) ∨
        ∃ f, Frame.parse x.sealedFlag = .ok f ∧
          Forged P env rs x.session.keys.mac ((conversation P d name license x).take 5) f) := by
  obtain ⟨x, hx, -⟩ := (ClientSteps.runSession_eq_ok_iff P http d name license).mp h
  refine ⟨x, hx, (sealedFlag_sent env rs hx).imp_left ?_⟩
  rintro ⟨rs₁, r, rs₂, state, g, rfl, hsends, hbytes, hbehind⟩
  exact recorded_of_sends hsends hbytes hbehind rs₂

/-- The run is the three requests that served the client, and the client is on its record. -/
theorem flag_agreement_sample : ∃ x : Course SessionStore,
    x.Follows hashing sampleDraws [0x61] (buildLicenseStruct hashing sampleEnv [0x61])
      (serverHttp hashing sampleEnv sampleServerDraws [] []) ∅ Server.Config.flag ∧
    Recorded hashing sampleEnv
      (before [] sampleServerDraws [] [] hashing sampleDraws [0x61]
        (buildLicenseStruct hashing sampleEnv [0x61]) x ++
          [last sampleServerDraws hashing sampleDraws x])
      sampleDraws.sessionId.val (conversation hashing sampleDraws [0x61]
        (buildLicenseStruct hashing sampleEnv [0x61]) x) := by
  have hrun := Effects.exec_of_fst runSession_sample
  obtain ⟨y, hy, -⟩ := (ClientSteps.runSession_eq_ok_iff hashing _ sampleDraws [0x61] _).mp hrun
  obtain ⟨x, hx, hcases⟩ := flag_agreement hashing sampleEnv
    (before [] sampleServerDraws [] [] hashing sampleDraws [0x61]
      (buildLicenseStruct hashing sampleEnv [0x61]) y ++ [last sampleServerDraws hashing sampleDraws y])
    _ sampleDraws [0x61] _ hrun
  obtain rfl := hx.unique hy
  obtain ⟨key, state, g, hsends, hbytes, hbehind⟩ := served [] hx
    (fun _ h => absurd h List.not_mem_nil) (fun _ h => absurd h List.not_mem_nil)
  exact ⟨x, hx, hcases.elim id fun _ => recorded_of_sends hsends hbytes hbehind []⟩

end Flag

section Challenge

variable {d : Draws} {name : Bytes}

theorem length_of_readChallenge {payload pub random signature : Bytes}
    (h : Wire.Payloads.readChallenge payload = .ok (pub, random, signature)) : pub.length = 32 := by
  obtain ⟨hlen, hv⟩ := (Wire.Payloads.serverChallenge_fixed.decode_iff _ _).mp h
  obtain ⟨c, hc⟩ := Wire.Payloads.serverChallenge_fixed.complete _ (Records.map_length_cut hlen)
  rw [← hc] at hv
  obtain ⟨rfl, -⟩ := Prod.mk.inj hv
  exact c.serverPub.property

def helloBytes (P : Primitives) (d : Draws) (name : Bytes) : Bytes :=
  (Client.Protocol.hello P d name).1.serialize

/-- The signature in the answer verifies over a message that the server has not signed. -/
structure Countersigned (P : Primitives) (env : Env) (rs : List Request)
    (serverSignPk resp helloRaw : Bytes) (chal : Challenge) : Prop where
  fresh : ¬ Signs P env rs (Server.Config.signContext ++ (chain P.toHashes).state [helloRaw] ++
    chal.serverPub ++ chal.serverRandom)
  verifies : ∃ f signature, Client.BinaryFrame.Frame.parse resp = .ok f ∧
    Wire.Payloads.readChallenge f.encryptedPayload =
      .ok (chal.serverPub, chal.serverRandom, signature) ∧
    Client.CryptoBox.ed25519Verify P serverSignPk (Server.Config.signContext ++
      (chain P.toHashes).state [helloRaw] ++ chal.serverPub ++ chal.serverRandom) signature = true

/-- A challenge that the client accepts was made for this very HELLO, with this key share and this
random, in a request that the server answered; or its signature is not the server's; SHA-256 aside.
The frame around the challenge is under a public key, and nothing is said of it. -/
theorem challenge_agreement (P : Primitives) (env : Env) (rs : List Request) (d : Draws)
    (name : Bytes) {serverSignPk resp : Bytes} {chal : Challenge}
    {t2 : Client.BinaryFrame.Transcript}
    (h : openChallenge P serverSignPk (Client.Protocol.hello P d name).2 resp = .ok (chal, t2)) :
    (∃ rs₁ sd rs₂ response, rs = rs₁ ++ .hello sd (helloBytes P d name) :: rs₂ ∧
      (step P env (storeAfter P env rs₁) (.hello sd (helloBytes P d name))).1 = .ok response ∧
      chal = ⟨P.x25519Base sd.serverPriv.val, sd.serverRandom.val⟩) ∨
    Colliding P env rs [helloBytes P d name] ∨
    Countersigned P env rs serverSignPk resp (helloBytes P d name) chal := by
  obtain ⟨f, signature, hparse, -, hread, hverify⟩ := openChallenge_eq_ok h
  have hctx : Client.Constants.signContext = Server.Config.signContext := by
    rw [Client.Constants.signContext, Client.Constants.rgObf_eq]
    rfl
  have hstate : (Client.Protocol.hello P d name).2.state =
      (chain P.toHashes).state [helloBytes P d name] :=
    clientAfter_state P.toHashes [helloBytes P d name]
  rw [hctx, hstate] at hverify
  by_cases hsigns : Signs P env rs (Server.Config.signContext ++
      (chain P.toHashes).state [helloBytes P d name] ++ chal.serverPub ++ chal.serverRandom)
  · obtain ⟨rs₁, sd, raw, rs₂, response, hrs, hanswered, hmsg⟩ := hsigns
    have hlen := length_of_readChallenge hread
    simp only [List.append_assoc] at hmsg
    obtain ⟨hstates, hmsg⟩ := List.append_inj (List.append_cancel_left hmsg)
      ((length_state P.toHashes _).trans (P.length_sha256 _).symm)
    obtain ⟨hpub, hrandom⟩ := List.append_inj hmsg (hlen.trans (P.length_x25519Base _).symm)
    rcases (chain_separated P.toHashes).binding [raw] [helloBytes P d name] hstates.symm with
      hraw | hcollides
    · obtain rfl := List.singleton_inj.mp hraw
      refine .inl ⟨rs₁, sd, rs₂, response, hrs, hanswered, ?_⟩
      rw [← hpub, ← hrandom]
    · exact .inr (.inl ⟨rs₁, .hello sd raw, rs₂, hrs, hcollides⟩)
  · exact .inr (.inr ⟨hsigns, f, signature, hparse, hread, hverify⟩)

/-- Under transparent primitives, the answer of the server to this HELLO. -/
theorem challenge_agreement_sample :
    let P := Primitives.transparent
    let hello := Request.hello sampleServerDraws.hello (helloBytes P sampleDraws [0x61])
    ∃ resp chal t2, (step P sampleEnv ∅ hello).1 = .ok resp ∧
      openChallenge P (Server.Config.serverSignPk P sampleEnv)
        (Client.Protocol.hello P sampleDraws [0x61]).2 resp = .ok (chal, t2) ∧
      ∃ rs₁ sd rs₂ response, [hello] = rs₁ ++ .hello sd (helloBytes P sampleDraws [0x61]) :: rs₂ ∧
        (step P sampleEnv (storeAfter P sampleEnv rs₁)
          (.hello sd (helloBytes P sampleDraws [0x61]))).1 = .ok response ∧
        chal = ⟨P.x25519Base sd.serverPriv.val, sd.serverRandom.val⟩ := by
  intro P hello
  have hanswer : (step P sampleEnv ∅ hello).1 = .ok (sampleFrame 2 1 (zeros 112) (zeros 32)) := by
    decide +kernel
  have h : openChallenge P (Server.Config.serverSignPk P sampleEnv)
      (Client.Protocol.hello P sampleDraws [0x61]).2 (sampleFrame 2 1 (zeros 112) (zeros 32)) =
        .ok (⟨zeros 32, zeros 16⟩, ⟨zeros 32⟩) := by decide +kernel
  exact ⟨_, _, _, hanswer, h, (challenge_agreement P sampleEnv [hello] sampleDraws [0x61] h).elim id
    fun _ => ⟨[], sampleServerDraws.hello, [], _, rfl, hanswer, rfl⟩⟩

end Challenge

end RankGate.Session.Agreement
