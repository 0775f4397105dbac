/- Module: RankGate/Session/Conversations
   source: server/app/challenge_logic.py, client/src/net/protocol.cpp (run_session)
   digest: What the server puts its framing MAC and its signature on in a run, and what the client has
   behind it when it takes a frame. -/

import RankGate.Handlers.Bookkeeping
import RankGate.Session.Answers
import RankGate.Session.ClientSteps

set_option autoImplicit false
set_option relaxedAutoImplicit false

namespace RankGate.Session.Conversations

open ByteCodec (Bytes)
open Effects (exec)
open HashChain (Collides)
open RankGate.Client.Protocol (Draws Http openChallenge openSealedFlag openServerProof1)
open RankGate.Crypto (Hashes Primitives)
open RankGate.Handlers.Bookkeeping
open RankGate.Handlers.Ledger
open RankGate.Handlers.Requests
open RankGate.Handlers.Specs
open RankGate.Server.Config (Env)
open RankGate.Server.Protocol (Frame Transcript)
open RankGate.Server.Sessions (Session SessionStore)
open RankGate.Session.Answers
open RankGate.Session.ClientSteps (Course)
open RankGate.Wire.FrameAgreement (CFrame CTranscript SFrame widen)
open RankGate.Wire.TranscriptBinding

/-! The server's side: the inputs of its MAC and of its signature. -/

section Server

variable (P : Primitives) (env : Env)

/-- The framing key and the transcript under which an answer to the request goes out. -/
def sealing (store : SessionStore) (r : Request) : Option (Bytes × Bytes) :=
  if r.isHello then
    some (Server.ChallengeLogic.bootstrapMacKey P.toHashes, (Transcript.init P.toHashes).state)
  else do
    let sid ← r.sessionId?
    let s ← store.lookup sid
    let keys ← s.keys
    return (keys.mac, s.transcriptState)

/-- After these requests, the answer to this one is the frame, under this key and transcript. -/
structure Sends (rs : List Request) (r : Request) (key state : Bytes) (g : Frame) : Prop where
  wellFormed : g.WellFormed
  answered : (step P env (storeAfter P env rs) r).1 = .ok g.bytes
  under : sealing P (storeAfter P env rs) r = some (key, state)

/-- In this run the server has put its framing MAC on this input under this key. -/
def Macs (rs : List Request) (key input : Bytes) : Prop :=
  ∃ rs₁ r rs₂ state g, rs = rs₁ ++ r :: rs₂ ∧ Sends P env rs₁ r key state g ∧
    input = P.sha256 (state ++ r.raw) ++ g.preMacBytes

/-- In this run the server has signed this message. -/
def Signs (rs : List Request) (msg : Bytes) : Prop :=
  ∃ rs₁ d raw rs₂ response, rs = rs₁ ++ .hello d raw :: rs₂ ∧
    (step P env (storeAfter P env rs₁) (.hello d raw)).1 = .ok response ∧
    msg = Server.Config.signContext ++ P.sha256 ((Transcript.init P.toHashes).state ++ raw) ++
      P.x25519Base d.serverPriv.val ++ d.serverRandom.val

/-- The full frames of the session the request belongs to, up to the request. -/
def behind (rs : List Request) (r : Request) : List Bytes :=
  (if r.isHello then []
    else (r.sessionId?.map fun sid => (life sid (trace P env rs)).flatMap frames).getD []) ++ [r.raw]

variable {P env} {rs : List Request} {r : Request} {key state : Bytes} {g : Frame}

theorem Sends.known (h : Sends P env rs r key state g) (hr : r.isHello = false) :
    ∃ f s keys, r.frame? = some f ∧ (storeAfter P env rs).lookup f.sessionId = some s ∧
      s.keys = some keys ∧ keys.mac = key ∧ s.transcriptState = state ∧
      Lived P env f.sessionId (life f.sessionId (trace P env rs)) s := by
  obtain ⟨f, hf⟩ := frame_of_answered P env h.answered
  have hsid : r.sessionId? = some f.sessionId := by rw [Request.sessionId?, hf, Option.map_some]
  have hsealing := h.under
  rw [sealing, hr, if_neg Bool.false_ne_true, hsid] at hsealing
  cases hs : (storeAfter P env rs).lookup f.sessionId with
  | none =>
    rw [Option.bind_eq_bind, Option.bind_some, hs] at hsealing
    cases hsealing
  | some s =>
    rw [Option.bind_eq_bind, Option.bind_some, hs] at hsealing
    cases hkeys : s.keys with
    | none =>
      rw [Option.bind_eq_bind, Option.bind_some, hkeys] at hsealing
      cases hsealing
    | some keys =>
      rw [Option.bind_eq_bind, Option.bind_some, hkeys] at hsealing
      obtain ⟨hmac, hstate⟩ := Prod.mk.inj (Option.some.inj hsealing)
      exact ⟨f, s, keys, hf, hs, hkeys, hmac, hstate, lived_storeAfter rs hs⟩

theorem Sends.state_eq (h : Sends P env rs r key state g) :
    P.sha256 (state ++ r.raw) = (chain P.toHashes).state (behind P env rs r) := by
  cases hr : r.isHello with
  | true =>
    have hsealing := h.under
    rw [sealing, hr, if_pos rfl] at hsealing
    obtain ⟨-, rfl⟩ := Prod.mk.inj (Option.some.inj hsealing)
    rw [behind, hr, if_pos rfl, List.nil_append]
    rfl
  | false =>
    obtain ⟨f, s, keys, hf, -, hkeys, -, rfl, hlived⟩ := h.known hr
    have hsid : r.sessionId? = some f.sessionId := by rw [Request.sessionId?, hf, Option.map_some]
    rw [behind, hr, if_neg Bool.false_ne_true, hsid, Option.map_some, Option.getD_some,
      (chain P.toHashes).state_concat, ← Lived.transcript hlived hkeys]
    rfl

/-- The frame carries the MAC of that input. -/
theorem Sends.mac (h : Sends P env rs r key state g) :
    g.transcriptMac = P.hmacSha256 key (P.sha256 (state ++ r.raw) ++ g.preMacBytes) := by
  obtain ⟨f, hf⟩ := frame_of_answered P env h.answered
  have hwf := Request.wellFormed hf
  have hraw := Request.raw_eq hf
  have hanswered := h.answered
  cases hr : r.isHello with
  | true =>
    have hunder := h.under
    rw [sealing, hr, if_pos rfl] at hunder
    obtain ⟨rfl, rfl⟩ := Prod.mk.inj (Option.some.inj hunder)
    rw [step_hello P env _ hf hr] at hanswered
    cases r with
    | hello d raw =>
      obtain ⟨t, pub, name, shared, hcheck, hbytes, -⟩ := helloBody_ok P env d f
        (fun _ => by exact (by decide : 0 + 1 < 2 ^ 64)) (Prod.ext hanswered rfl)
      obtain ⟨rfl, -⟩ := openHello_ok P f hwf (helloCheck_ok P d f hcheck).2.1
      obtain rfl := Frame.bytes_inj h.wellFormed
        (challengeFrame_wellFormed P env d hwf _ (by exact (by decide : 0 + 1 < 2 ^ 64))) hbytes
      rw [hraw]
      rfl
    | exchange d raw => cases hr
    | finalize d raw => cases hr
  | false =>
    obtain ⟨f', s, keys, hf', hs, hkeys, rfl, rfl, hlived⟩ := h.known hr
    obtain rfl : f' = f := Option.some.inj (hf'.symm.trans hf)
    have hsid : s.sessionId.length = 16 := hlived.sessionId ▸ hwf.sessionId
    rw [step_known P env hf hr hs] at hanswered
    cases r with
    | hello d raw => cases hr
    | exchange d raw =>
      obtain ⟨k, t, p, hcheck, hbytes, -⟩ := exchangeBody_ok P env d f'
        (hlived.serverCounter_lt hwf) (Prod.ext hanswered rfl)
      have hpassed := exchangeCheck_ok P env f' hwf hcheck
      obtain rfl : keys = k := Option.some.inj (hkeys.symm.trans hpassed.hasKeys)
      obtain rfl := Frame.bytes_inj h.wellFormed (serverProofFrame_wellFormed P d hsid
        (hlived.serverCounter_lt hwf hpassed.fresh) _ _ _) hbytes
      rw [hraw, serverProofFrame, hpassed.transcript]
      rfl
    | finalize d raw =>
      obtain ⟨k, t, hcheck, hbytes, -⟩ := finalizeBody_ok P d f'
        (hlived.serverCounter_lt hwf) (Prod.ext hanswered rfl)
      have hpassed := finalizeCheck_ok P f' hwf hcheck
      obtain rfl : keys = k := Option.some.inj (hkeys.symm.trans hpassed.hasKeys)
      obtain rfl := Frame.bytes_inj h.wellFormed (sealedFlagFrame_wellFormed P d hsid
        (hlived.serverCounter_lt hwf hpassed.fresh) _ _) hbytes
      rw [hraw, sealedFlagFrame, hpassed.transcript]
      rfl

theorem record_answered {f : Frame} {response : Bytes} (hf : r.frame? = some f)
    (h : (step P env (storeAfter P env rs) r).1 = .ok response) :
    (life f.sessionId (trace P env (rs ++ [r]))).flatMap frames =
      behind P env rs r ++ [response] := by
  have hsid : r.sessionId? = some f.sessionId := by rw [Request.sessionId?, hf, Option.map_some]
  have hcreates := creates_event P env (storeAfter P env rs) hf rfl
  have hanswers := answers_event_ok hf rfl h
  have hframes : frames (Runs.event (step P env) (storeAfter P env rs) r) = [r.raw, response] := by
    rw [Request.raw_eq hf]
    exact frames_eq hf h
  rw [trace_concat, life_concat, hcreates, List.filter_singleton, hanswers, cond_true,
    List.flatMap_append, List.flatMap_singleton, hframes, behind]
  cases r.isHello with
  | true => rfl
  | false =>
    rw [if_neg Bool.false_ne_true, if_neg Bool.false_ne_true, hsid, Option.map_some,
      Option.getD_some, List.append_assoc]
    rfl

theorem life_elsewhere {sid : Bytes} (rs : List Request) {gap : List Request}
    (h : ∀ r ∈ gap, r.sessionId? ≠ some sid) :
    life sid (trace P env (rs ++ gap)) = life sid (trace P env rs) := by
  induction gap using List.reverseRecOn with
  | nil => rw [List.append_nil]
  | append_singleton gap r ih =>
    obtain ⟨hcreates, hanswers⟩ := silent_event P env (storeAfter P env (rs ++ gap))
      (h r (List.mem_append_right _ List.mem_cons_self))
    rw [← List.append_assoc, trace_concat, life_concat_silent _ hcreates hanswers]
    exact ih fun r hr => h r (List.mem_append_left _ hr)

/-- What an answered request behind the HELLO has met. -/
theorem known_of_answered {f : Frame} {response : Bytes} (hf : r.frame? = some f)
    (hr : r.isHello = false) (h : (step P env (storeAfter P env rs) r).1 = .ok response) :
    ∃ s keys, (storeAfter P env rs).lookup f.sessionId = some s ∧ s.keys = some keys ∧
      s.clientCounter < f.counter ∧ Lived P env f.sessionId (life f.sessionId (trace P env rs)) s ∧
      (exec (body P env f r) s).1 = .ok response := by
  have hwf := Request.wellFormed hf
  cases hs : (storeAfter P env rs).lookup f.sessionId with
  | none =>
    rw [step_unknown P env hf hr hs] at h
    cases h
  | some s =>
    have hlived := lived_storeAfter rs hs
    rw [step_known P env hf hr hs] at h
    cases r with
    | hello d raw => cases hr
    | exchange d raw =>
      obtain ⟨keys, t, p, hcheck, -⟩ := exchangeBody_ok P env d f (hlived.serverCounter_lt hwf)
        (Prod.ext h rfl)
      have hpassed := exchangeCheck_ok P env f hwf hcheck
      exact ⟨s, keys, rfl, hpassed.hasKeys, hpassed.fresh, hlived, h⟩
    | finalize d raw =>
      obtain ⟨keys, t, hcheck, -⟩ := finalizeBody_ok P d f (hlived.serverCounter_lt hwf)
        (Prod.ext h rfl)
      have hpassed := finalizeCheck_ok P f hwf hcheck
      exact ⟨s, keys, rfl, hpassed.hasKeys, hpassed.fresh, hlived, h⟩

/-- Every answer goes out under some key. -/
theorem sends_of_answered {response : Bytes}
    (h : (step P env (storeAfter P env rs) r).1 = .ok response) :
    ∃ key state g, Sends P env rs r key state g ∧ g.bytes = response := by
  obtain ⟨f, hf⟩ := frame_of_answered P env h
  have hwf := Request.wellFormed hf
  cases hr : r.isHello with
  | true =>
    have hanswered := h
    rw [step_hello P env _ hf hr] at hanswered
    obtain ⟨⟨g, hg⟩, -⟩ := body_answers P env hwf rfl
      (by exact (by decide : 0 + 1 < 2 ^ 64)) (Prod.ext hanswered rfl)
    have hunder : sealing P (storeAfter P env rs) r =
        some (Server.ChallengeLogic.bootstrapMacKey P.toHashes,
          (Transcript.init P.toHashes).state) := by
      rw [sealing, hr, if_pos rfl]
    exact ⟨_, _, g, ⟨hg.wellFormed, hg.bytes ▸ h, hunder⟩, hg.bytes.symm⟩
  | false =>
    have hsid : r.sessionId? = some f.sessionId := by rw [Request.sessionId?, hf, Option.map_some]
    obtain ⟨s, keys, hs, hkeys, hfresh, hlived, hbody⟩ := known_of_answered hf hr h
    obtain ⟨⟨g, hg⟩, -⟩ := body_answers P env hwf hlived.sessionId
      (hlived.serverCounter_lt hwf hfresh) (Prod.ext hbody rfl)
    refine ⟨keys.mac, s.transcriptState, g, ⟨hg.wellFormed, hg.bytes ▸ h, ?_⟩, hg.bytes.symm⟩
    rw [sealing, hr, if_neg Bool.false_ne_true, hsid, Option.bind_eq_bind, Option.bind_some, hs,
      Option.bind_eq_bind, Option.bind_some, hkeys]
    rfl

end Server

/-! The client's side: the frames it has taken, and its transcript. -/

section Client

open RankGate.Client.CryptoBox (aeadDecrypt ed25519Verify hkdf)

variable {P : Primitives} {t t' : CTranscript} {resp : Bytes}

theorem clientAfter_concat (H : Hashes) (history : List Bytes) (raw : Bytes) :
    clientAfter H (history ++ [raw]) = (clientAfter H history).absorb H raw := List.foldl_append

theorem clientAfter_state (H : Hashes) (history : List Bytes) :
    (clientAfter H history).state = (chain H).state history := by
  rw [← serverAfter_state, ← widenT_clientAfter]
  rfl

/-- A frame that the client took: where it came from, and the MAC on it. -/
structure Taken (H : Hashes) (history : List Bytes) (key resp : Bytes) (f : CFrame) : Prop where
  wellFormed : (widen f).WellFormed
  bytes : (widen f).bytes = resp
  mac : (widen f).transcriptMac = H.hmacSha256 key (macInput H history (widen f))

theorem taken (H : Hashes) {history : List Bytes} {key : Bytes} {f : CFrame}
    (hparse : Client.BinaryFrame.Frame.parse resp = .ok f)
    (hopen : (clientAfter H history).openFrame H key f = .ok t') :
    Taken H history key resp f ∧ t' = clientAfter H (history ++ [resp]) := by
  obtain ⟨hwf, hserialize⟩ := Wire.FrameExactness.client_parse_ok hparse
  have hwiden := Wire.FrameExactness.wellFormed_widen.mpr hwf
  have haccepts : Accepts H history key (widen f) .client := ⟨f, t', rfl, hopen⟩
  obtain ⟨-, habsorb⟩ := Effects.except_ensure_eq_ok hopen
  refine ⟨⟨hwiden, ?_, (haccepts.transcriptMac H hwiden).symm⟩, ?_⟩
  · rw [← Wire.FrameAgreement.serialize_eq hwf.payload_lt, hserialize]
  · rw [clientAfter_concat, ← hserialize]
    exact (Except.ok.inj habsorb).symm

theorem openChallenge_eq_ok {serverSignPk : Bytes} {chal : Client.Protocol.Challenge}
    (h : openChallenge P serverSignPk t resp = .ok (chal, t')) :
    ∃ f signature, Client.BinaryFrame.Frame.parse resp = .ok f ∧
      t.openFrame P.toHashes (Client.Protocol.bootstrapMacKey P.toHashes) f = .ok t' ∧
      Wire.Payloads.readChallenge f.encryptedPayload =
        .ok (chal.serverPub, chal.serverRandom, signature) ∧
      ed25519Verify P serverSignPk (Client.Constants.signContext ++ t.state ++ chal.serverPub ++
        chal.serverRandom) signature = true := by
  rw [Wire.Payloads.openChallenge_eq] at h
  obtain ⟨f, hparse, h⟩ := Effects.except_bind_eq_ok h
  obtain ⟨⟨payload, u⟩, hopen, h⟩ := Effects.except_bind_eq_ok h
  obtain ⟨v, hframe, hopened⟩ := Effects.except_bind_eq_ok hopen
  cases hopened
  obtain ⟨⟨pub, random, signature⟩, hread, h⟩ := Effects.except_bind_eq_ok h
  obtain ⟨hverify, h⟩ := Effects.except_ensure_eq_ok h
  cases h
  exact ⟨f, signature, hparse, hframe, hread, hverify⟩

theorem aeadOpen_eq_ok {macKey aeadKey plaintext : Bytes} {f : CFrame}
    (h : Client.Protocol.aeadOpen P t macKey aeadKey f = .ok (plaintext, t')) :
    t.openFrame P.toHashes macKey f = .ok t' ∧
      aeadDecrypt P aeadKey f.nonce f.encryptedPayload f.authTag f.header = .ok plaintext := by
  obtain ⟨u, hframe, h⟩ := Effects.except_bind_eq_ok h
  obtain ⟨p, hdec, h⟩ := Effects.except_bind_eq_ok h
  cases h
  exact ⟨hframe, hdec⟩

theorem openServerProof1_eq_ok {s : Client.Protocol.Session} {serverChallenge2 : Bytes}
    (h : openServerProof1 P s t resp = .ok (serverChallenge2, t')) :
    ∃ f payload proof, Client.BinaryFrame.Frame.parse resp = .ok f ∧
      t.openFrame P.toHashes s.keys.mac f = .ok t' ∧
      aeadDecrypt P s.keys.s2c f.nonce f.encryptedPayload f.authTag f.header = .ok payload ∧
      Wire.Payloads.readServerProof1 payload = .ok (proof, serverChallenge2) := by
  rw [Wire.Payloads.openServerProof1_eq] at h
  obtain ⟨f, hparse, h⟩ := Effects.except_bind_eq_ok h
  obtain ⟨⟨payload, u⟩, hopen, h⟩ := Effects.except_bind_eq_ok h
  obtain ⟨⟨proof, c⟩, hread, h⟩ := Effects.except_bind_eq_ok h
  obtain ⟨-, h⟩ := Effects.except_ensure_eq_ok h
  cases h
  obtain ⟨hframe, hdec⟩ := aeadOpen_eq_ok hopen
  exact ⟨f, payload, proof, hparse, hframe, hdec, hread⟩

theorem openSealedFlag_eq_ok {s : Client.Protocol.Session} {flag : Bytes}
    (h : openSealedFlag P s t resp = .ok flag) :
    ∃ f t' nonce ct tag, Client.BinaryFrame.Frame.parse resp = .ok f ∧
      t.openFrame P.toHashes s.keys.mac f = .ok t' ∧
      aeadDecrypt P s.keys.s2c f.nonce f.encryptedPayload f.authTag f.header =
        .ok (nonce ++ ct ++ tag) ∧
      nonce.length = 24 ∧ tag.length = 16 ∧
      aeadDecrypt P (hkdf P.toHashes t.state s.keys.sealKey Client.Constants.sealInfo 32) nonce ct
        tag t.state = .ok flag := by
  obtain ⟨f, hparse, h⟩ := Effects.except_bind_eq_ok h
  obtain ⟨⟨blob, u⟩, hopen, h⟩ := Effects.except_bind_eq_ok h
  obtain ⟨hlen, h⟩ := Effects.except_ensure_eq_ok h
  obtain ⟨hframe, hdec⟩ := aeadOpen_eq_ok hopen
  obtain ⟨nonce, hnonce, h⟩ := Effects.except_bind_eq_ok h
  obtain ⟨ct, hct, h⟩ := Effects.except_bind_eq_ok h
  obtain ⟨tag, htag, h⟩ := Effects.except_bind_eq_ok h
  have hlen : 24 + 16 ≤ blob.length := hlen
  change Client.Constants.slice blob 0 24 = _ at hnonce
  change Client.Constants.slice blob 24 (blob.length - 24 - 16) = _ at hct
  change Client.Constants.slice blob (24 + (blob.length - 24 - 16)) 16 = _ at htag
  generalize hn : blob.length - 24 - 16 = n at hct htag
  have hsum : [24, n, 16].sum = blob.length := by
    rw [List.sum_cons, List.sum_cons, List.sum_cons, List.sum_nil]
    omega
  have hcut : Records.cut [24, n, 16] blob = [nonce, ct, tag] := by
    rw [Wire.Payloads.client_slice_eq (by omega)] at hnonce hct htag
    rw [← Except.ok.inj hnonce, ← Except.ok.inj hct, ← Except.ok.inj htag, Records.cut, Records.cut,
      Records.cut, Records.cut, List.drop_drop, List.drop_zero]
  have hblob : nonce ++ ct ++ tag = blob := by
    have hflatten : (Records.cut [24, n, 16] blob).flatten = blob.take [24, n, 16].sum :=
      Records.flatten_cut
    rw [hcut, hsum, List.take_length] at hflatten
    rw [← hflatten, List.append_assoc]
    simp
  have hwidths := Records.map_length_cut hsum.le
  rw [hcut] at hwidths
  simp only [List.map_cons, List.cons.injEq] at hwidths
  exact ⟨f, u, nonce, ct, tag, hparse, hframe, hblob ▸ hdec, hwidths.1, hwidths.2.2.1, h⟩

end Client

section Followed

open RankGate.Client.CryptoBox (aeadDecrypt ed25519Verify hkdf)

variable {σ : Type} (P : Primitives) (d : Draws) (name license : Bytes) (x : Course σ)

/-- The six frames, as the client has them. -/
def conversation : List Bytes :=
  [(Course.hello P d name).1.serialize, x.challenge, (x.proof1 P d name license).1.serialize,
    x.serverProof1, (x.proof2 P d).1.serialize, x.sealedFlag]

def atFrame (n : Nat) : CTranscript :=
  clientAfter P.toHashes ((conversation P d name license x).take n)

variable {P d name license x} {http : Http (StateM σ)} {s : σ} {flag : Bytes}
  (h : x.Follows P d name license http s flag)

include h

theorem heard_challenge : ∃ f signature,
    Taken P.toHashes ((conversation P d name license x).take 1)
      (Client.Protocol.bootstrapMacKey P.toHashes) x.challenge f ∧
    x.t2 = atFrame P d name license x 2 ∧
    Wire.Payloads.readChallenge f.encryptedPayload =
      .ok (x.chal.serverPub, x.chal.serverRandom, signature) ∧
    ed25519Verify P x.serverSignPk (Client.Constants.signContext ++
      (atFrame P d name license x 1).state ++ x.chal.serverPub ++ x.chal.serverRandom)
        signature = true := by
  obtain ⟨f, signature, hparse, hopen, hread, hverify⟩ := openChallenge_eq_ok h.openChallenge
  obtain ⟨htaken, ht2⟩ := taken P.toHashes hparse
    (show (atFrame P d name license x 1).openFrame _ _ f = _ from hopen)
  exact ⟨f, signature, htaken, ht2, hread, hverify⟩

theorem heard_serverProof1 : ∃ f payload proof,
    Taken P.toHashes ((conversation P d name license x).take 3) x.session.keys.mac x.serverProof1 f ∧
    x.t4 = atFrame P d name license x 4 ∧
    aeadDecrypt P x.session.keys.s2c f.nonce f.encryptedPayload f.authTag f.header = .ok payload ∧
    Wire.Payloads.readServerProof1 payload = .ok (proof, x.serverChallenge2) := by
  obtain ⟨-, -, -, ht2, -, -⟩ := heard_challenge h
  obtain ⟨f, payload, proof, hparse, hopen, hdec, hread⟩ :=
    openServerProof1_eq_ok h.openServerProof1
  have ht3 : (x.proof1 P d name license).2 = atFrame P d name license x 3 :=
    congrArg (fun t : CTranscript => t.absorb P.toHashes (x.proof1 P d name license).1.serialize) ht2
  rw [ht3] at hopen
  obtain ⟨htaken, ht4⟩ := taken P.toHashes hparse hopen
  exact ⟨f, payload, proof, htaken, ht4, hdec, hread⟩

theorem heard_sealedFlag : ∃ f nonce ct tag,
    Taken P.toHashes ((conversation P d name license x).take 5) x.session.keys.mac x.sealedFlag f ∧
    aeadDecrypt P x.session.keys.s2c f.nonce f.encryptedPayload f.authTag f.header =
      .ok (nonce ++ ct ++ tag) ∧
    nonce.length = 24 ∧ tag.length = 16 ∧
    aeadDecrypt P (hkdf P.toHashes (atFrame P d name license x 5).state x.session.keys.sealKey
      Client.Constants.sealInfo 32) nonce ct tag (atFrame P d name license x 5).state = .ok flag := by
  obtain ⟨-, -, -, -, ht4, -, -⟩ := heard_serverProof1 h
  obtain ⟨f, t', nonce, ct, tag, hparse, hopen, hdec, hnonce, htag, hinner⟩ :=
    openSealedFlag_eq_ok h.openSealedFlag
  have ht5 : (x.proof2 P d).2 = atFrame P d name license x 5 :=
    congrArg (fun t : CTranscript => t.absorb P.toHashes (x.proof2 P d).1.serialize) ht4
  rw [ht5] at hopen hinner
  obtain ⟨htaken, -⟩ := taken P.toHashes hparse hopen
  exact ⟨f, nonce, ct, tag, htaken, hdec, hnonce, htag, hinner⟩

end Followed

end RankGate.Session.Conversations
