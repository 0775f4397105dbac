/- Module: RankGate/Wire/ChannelLockstep
   source: client/src/net/protocol.cpp, server/app/challenge_logic.py (plain and AEAD seal and open)
   digest: What one endpoint seals the other opens, and both transcripts move together. -/

import RankGate.Client.Protocol
import RankGate.Handlers.Specs
import RankGate.Wire.FrameAgreement

set_option autoImplicit false
set_option relaxedAutoImplicit false

namespace RankGate.Wire.ChannelLockstep

open ByteCodec (Bytes BytesN zeros)
open FrameAgreement
open RankGate.Crypto (Hashes Primitives)
open RankGate.Handlers.Specs (aeadFrame aeadSeal_eq aeadFrame_serialize)
open RankGate.Server.Config (Failure)

def AeadInverts (P : Primitives) : Prop :=
  ∀ key nonce plaintext aad,
    P.aeadOpen key nonce (P.aeadSeal key nonce plaintext aad) aad = .ok plaintext

section Server

variable (P : Primitives) (t : STranscript) (macKey aeadKey sid nonce payload : Bytes)
  {mt counter : Nat}

theorem sealed_wellFormed (H : Hashes) (tag : Bytes) (hm : mt < 256) (hc : counter < 2 ^ 64)
    (hsid : sid.length = 16) (hnonce : nonce.length = 24) (hp : payload.length ≤ 2 ^ 20)
    (htag : tag.length = 16) :
    (t.sealed H macKey mt sid counter nonce payload tag).WellFormed where
  messageType := hm
  sessionId := hsid
  counter := hc
  nonce := hnonce
  encryptedPayload := hp
  authTag := htag
  transcriptMac := H.length_hmacSha256 _ _

theorem aeadFrame_wellFormed (hm : mt < 256) (hc : counter < 2 ^ 64) (hsid : sid.length = 16)
    (hnonce : nonce.length = 24) (hp : payload.length ≤ 2 ^ 20) :
    (aeadFrame P t macKey aeadKey mt sid counter nonce payload).WellFormed := by
  refine sealed_wellFormed t macKey sid nonce _ P.toHashes _ hm hc hsid hnonce ?_ ?_
  · rw [Server.CryptoBox.length_aeadEncrypt_fst]
    exact hp
  · exact Server.CryptoBox.length_aeadEncrypt_snd P _ _ _ _

theorem aeadFrame_headerBytes :
    (aeadFrame P t macKey aeadKey mt sid counter nonce payload).headerBytes =
      Server.Protocol.Frame.headerBytes
        ⟨mt, sid, counter, nonce, zeros payload.length, [], []⟩ := by
  have hlen : (aeadFrame P t macKey aeadKey mt sid counter nonce payload).encryptedPayload.length =
      payload.length := Server.CryptoBox.length_aeadEncrypt_fst P _ _ _ _
  rw [Server.Protocol.Frame.headerBytes, Server.Protocol.Frame.headerBytes, hlen,
    ByteCodec.length_zeros]
  rfl

theorem aeadDecrypt_aeadFrame (haead : AeadInverts P) :
    Server.CryptoBox.aeadDecrypt P aeadKey
      (aeadFrame P t macKey aeadKey mt sid counter nonce payload).nonce
      (aeadFrame P t macKey aeadKey mt sid counter nonce payload).encryptedPayload
      (aeadFrame P t macKey aeadKey mt sid counter nonce payload).authTag
      (aeadFrame P t macKey aeadKey mt sid counter nonce payload).headerBytes = .ok payload := by
  rw [aeadFrame_headerBytes, Server.CryptoBox.aeadDecrypt]
  change P.aeadOpen aeadKey nonce ((Server.CryptoBox.aeadEncrypt P aeadKey nonce payload _).1 ++
    (Server.CryptoBox.aeadEncrypt P aeadKey nonce payload _).2) _ = _
  rw [Server.CryptoBox.aeadEncrypt_append]
  exact haead _ _ _ _

theorem server_plainOpen {f : SFrame} (H : Hashes) (hf : f.WellFormed)
    (hmac : t.macFor H macKey f.preMacBytes = f.transcriptMac) :
    Server.ChallengeLogic.plainOpen H t macKey f =
      .ok (f.encryptedPayload, t.absorb H f.bytes) := by
  have hopen := (Server.Protocol.Transcript.openFrame_eq_ok H hf.messageType hf.counter
    hf.payload_lt).mpr ⟨hmac, rfl⟩
  exact Effects.except_bind_ok hopen

theorem server_aeadOpen {f : SFrame} {plaintext : Bytes} (hf : f.WellFormed)
    (hmac : t.macFor P.toHashes macKey f.preMacBytes = f.transcriptMac)
    (hdec : Server.CryptoBox.aeadDecrypt P aeadKey f.nonce f.encryptedPayload f.authTag
      f.headerBytes = .ok plaintext) :
    Server.ChallengeLogic.aeadOpen P t macKey aeadKey f =
      .ok (plaintext, t.absorb P.toHashes f.bytes) := by
  have hopen := (Server.Protocol.Transcript.openFrame_eq_ok P.toHashes hf.messageType hf.counter
    hf.payload_lt).mpr ⟨hmac, rfl⟩
  refine (Effects.except_bind_ok hopen).trans ?_
  refine (Effects.except_bind_ok hf.header_eq).trans ?_
  rw [hdec]
  rfl

end Server

section Client

def narrowT (t : STranscript) : CTranscript := ⟨t.state⟩

variable (P : Primitives) (t : STranscript) (macKey aeadKey sid nonce payload : Bytes)

theorem client_init (H : Hashes) :
    Client.BinaryFrame.Transcript.init H = narrowT (Server.Protocol.Transcript.init H) := by
  rw [← init_eq]
  rfl

theorem client_serialize {f : SFrame} (hf : f.WellFormed) : (narrow f).serialize = f.bytes := by
  have h := serialize_eq (f := narrow f) hf.payload_lt
  rwa [widen_narrow hf] at h

theorem client_header {f : SFrame} (hf : f.WellFormed) : (narrow f).header = f.headerBytes := by
  have h := header_eq (f := narrow f) hf.payload_lt
  rwa [widen_narrow hf] at h

theorem client_sealFrame (H : Hashes) (tag : Bytes) (mt : UInt8) (counter : UInt64)
    (hp : payload.length < 2 ^ 32) :
    (narrowT t).sealFrame H macKey mt sid counter nonce payload tag =
      (narrow (t.sealed H macKey mt.toNat sid counter.toNat nonce payload tag),
        narrowT (t.absorb H
          (t.sealed H macKey mt.toNat sid counter.toNat nonce payload tag).bytes)) := by
  have hclient := sealFrame_eq H (narrowT t) macKey sid nonce payload tag mt counter hp
  have hserver := Server.Protocol.Transcript.sealFrame_eq H t macKey sid nonce payload tag
    mt.toNat_lt counter.toNat_lt hp
  obtain ⟨hframe, hstate⟩ := Prod.mk.inj (Except.ok.inj (hserver.symm.trans hclient))
  refine Prod.ext ?_ ?_
  · rw [hframe]
    exact (narrow_widen _).symm
  · rw [hstate]
    rfl

theorem client_plainSeal (H : Hashes) (mt : UInt8) (counter : UInt64)
    (hp : payload.length < 2 ^ 32) :
    Client.Protocol.plainSeal H (narrowT t) macKey mt sid counter nonce payload =
      (narrow (t.sealed H macKey mt.toNat sid counter.toNat nonce payload (zeros 16)),
        narrowT (t.absorb H
          (t.sealed H macKey mt.toNat sid counter.toNat nonce payload (zeros 16)).bytes)) :=
  client_sealFrame t macKey sid nonce payload H (zeros 16) mt counter hp

theorem client_aeadSeal (mt : UInt8) (counter : UInt64) (hp : payload.length < 2 ^ 32) :
    Client.Protocol.aeadSeal P (narrowT t) macKey aeadKey mt sid counter nonce payload =
      (narrow (aeadFrame P t macKey aeadKey mt.toNat sid counter.toNat nonce payload),
        narrowT (t.absorb P.toHashes
          (aeadFrame P t macKey aeadKey mt.toNat sid counter.toNat nonce payload).bytes)) := by
  have hzeros : (zeros payload.length).length < 2 ^ 32 := by
    rw [ByteCodec.length_zeros]
    exact hp
  have haad : Client.BinaryFrame.Frame.header
      ⟨mt, sid, counter, nonce, zeros payload.length, [], []⟩ =
      Server.Protocol.Frame.headerBytes
        ⟨mt.toNat, sid, counter.toNat, nonce, zeros payload.length, [], []⟩ := header_eq hzeros
  rw [Client.Protocol.aeadSeal, haad]
  refine client_sealFrame t macKey sid nonce _ P.toHashes _ mt counter ?_
  exact lt_of_eq_of_lt (Server.CryptoBox.length_aeadEncrypt_fst P aeadKey nonce payload _) hp

theorem client_openFrame {f : SFrame} (H : Hashes) (hf : f.WellFormed)
    (hmac : t.macFor H macKey f.preMacBytes = f.transcriptMac) :
    (narrowT t).openFrame H macKey (narrow f) = .ok (narrowT (t.absorb H f.bytes)) := by
  refine (openFrame_ok H (f := narrow f) hf.payload_lt).mpr ?_
  rw [widen_narrow hf]
  exact (Server.Protocol.Transcript.openFrame_eq_ok H hf.messageType hf.counter
    hf.payload_lt).mpr ⟨hmac, rfl⟩

theorem client_plainOpen {f : SFrame} (H : Hashes) (hf : f.WellFormed)
    (hmac : t.macFor H macKey f.preMacBytes = f.transcriptMac) :
    Client.Protocol.plainOpen H (narrowT t) macKey (narrow f) =
      .ok (f.encryptedPayload, narrowT (t.absorb H f.bytes)) :=
  Effects.except_bind_ok (client_openFrame t macKey H hf hmac)

theorem client_aeadDecrypt {key n ct tag aad plaintext : Bytes}
    (h : Server.CryptoBox.aeadDecrypt P key n ct tag aad = .ok plaintext) :
    Client.CryptoBox.aeadDecrypt P key n ct tag aad = .ok plaintext := by
  rw [Server.CryptoBox.aeadDecrypt] at h
  rw [Client.CryptoBox.aeadDecrypt, h]

theorem client_aeadOpen {f : SFrame} {plaintext : Bytes} (hf : f.WellFormed)
    (hmac : t.macFor P.toHashes macKey f.preMacBytes = f.transcriptMac)
    (hdec : Server.CryptoBox.aeadDecrypt P aeadKey f.nonce f.encryptedPayload f.authTag
      f.headerBytes = .ok plaintext) :
    Client.Protocol.aeadOpen P (narrowT t) macKey aeadKey (narrow f) =
      .ok (plaintext, narrowT (t.absorb P.toHashes f.bytes)) := by
  refine (Effects.except_bind_ok (client_openFrame t macKey P.toHashes hf hmac)).trans ?_
  rw [client_header hf]
  exact Effects.except_bind_ok (client_aeadDecrypt P hdec)

end Client

section Dialogue

inductive Layer
  | plain
  | aead
  deriving DecidableEq

structure Message where
  fromClient : Bool
  layer : Layer
  messageType : UInt8
  sessionId : BytesN 16
  counter : UInt64
  nonce : BytesN 24
  plaintext : Bytes
  length_plaintext : plaintext.length ≤ 2 ^ 20

structure ChannelKeys where
  mac : Bytes
  c2s : Bytes
  s2c : Bytes

structure Endpoints where
  client : CTranscript
  server : STranscript

inductive Fault
  | server (failure : Failure)
  | client (what : String)

variable (P : Primitives) (k : ChannelKeys)

def clientSeal (m : Message) (t : CTranscript) : CFrame × CTranscript :=
  match m.layer with
  | .plain => Client.Protocol.plainSeal P.toHashes t k.mac m.messageType m.sessionId.val m.counter
      m.nonce.val m.plaintext
  | .aead => Client.Protocol.aeadSeal P t k.mac k.c2s m.messageType m.sessionId.val m.counter
      m.nonce.val m.plaintext

def serverSeal (m : Message) (t : STranscript) : Except Failure (SFrame × STranscript) :=
  match m.layer with
  | .plain => Server.ChallengeLogic.plainSeal P.toHashes t k.mac m.messageType.toNat
      m.sessionId.val m.counter.toNat m.nonce.val m.plaintext
  | .aead => Server.ChallengeLogic.aeadSeal P t k.mac k.s2c m.messageType.toNat m.sessionId.val
      m.counter.toNat m.nonce.val m.plaintext

def clientOpen (l : Layer) (t : CTranscript) (f : CFrame) : Except String (Bytes × CTranscript) :=
  match l with
  | .plain => Client.Protocol.plainOpen P.toHashes t k.mac f
  | .aead => Client.Protocol.aeadOpen P t k.mac k.s2c f

def serverOpen (l : Layer) (t : STranscript) (f : SFrame) : Except Failure (Bytes × STranscript) :=
  match l with
  | .plain => Server.ChallengeLogic.plainOpen P.toHashes t k.mac f
  | .aead => Server.ChallengeLogic.aeadOpen P t k.mac k.c2s f

/-- One message: sealed, serialised, parsed and opened; what was opened, and both transcripts. -/
def deliver (m : Message) (e : Endpoints) : Except Fault (Bytes × Endpoints) :=
  if m.fromClient then do
    let (f, client) := clientSeal P k m e.client
    let g ← (Server.Protocol.Frame.parse f.serialize).mapError .server
    let (payload, server) ← (serverOpen P k m.layer e.server g).mapError .server
    return (payload, ⟨client, server⟩)
  else do
    let (f, server) ← (serverSeal P k m e.server).mapError .server
    let wire ← f.serialize.mapError .server
    let g ← (Client.BinaryFrame.Frame.parse wire).mapError .client
    let (payload, client) ← (clientOpen P k m.layer e.client g).mapError .client
    return (payload, ⟨client, server⟩)

/-- A sequence of messages: what each delivery opened, and the transcripts after it. -/
def converse : Endpoints → List Message → Except Fault (List (Bytes × Endpoints))
  | _, [] => .ok []
  | e, m :: ms => do
    let (payload, e) ← deliver P k m e
    let rest ← converse e ms
    return (payload, e) :: rest

def frameOf (m : Message) (t : STranscript) : SFrame :=
  match m.layer with
  | .plain => t.sealed P.toHashes k.mac m.messageType.toNat m.sessionId.val m.counter.toNat
      m.nonce.val m.plaintext (zeros 16)
  | .aead => aeadFrame P t k.mac (if m.fromClient then k.c2s else k.s2c) m.messageType.toNat
      m.sessionId.val m.counter.toNat m.nonce.val m.plaintext

variable {P k} (m : Message) (t : STranscript)

theorem Message.length_lt (m : Message) : m.plaintext.length < 2 ^ 32 :=
  lt_of_le_of_lt m.length_plaintext (by decide)

theorem frameOf_wellFormed : (frameOf P k m t).WellFormed := by
  unfold frameOf
  cases m.layer with
  | plain =>
    exact sealed_wellFormed t _ _ _ _ _ _ m.messageType.toNat_lt m.counter.toNat_lt
      m.sessionId.property m.nonce.property m.length_plaintext (ByteCodec.length_zeros 16)
  | aead =>
    exact aeadFrame_wellFormed P t _ _ _ _ _ m.messageType.toNat_lt m.counter.toNat_lt
      m.sessionId.property m.nonce.property m.length_plaintext

theorem frameOf_mac :
    t.macFor P.toHashes k.mac (frameOf P k m t).preMacBytes = (frameOf P k m t).transcriptMac := by
  unfold frameOf
  cases m.layer <;> rfl

theorem clientSeal_eq (h : m.fromClient = true) :
    clientSeal P k m (narrowT t) = (narrow (frameOf P k m t),
      narrowT (t.absorb P.toHashes (frameOf P k m t).bytes)) := by
  unfold clientSeal frameOf
  rw [h, if_pos rfl]
  cases m.layer with
  | plain => exact client_plainSeal t _ _ _ _ _ _ _ m.length_lt
  | aead => exact client_aeadSeal P t _ _ _ _ _ _ _ m.length_lt

theorem serverSeal_eq (h : m.fromClient = false) :
    serverSeal P k m t = .ok (frameOf P k m t,
      t.absorb P.toHashes (frameOf P k m t).bytes) := by
  unfold serverSeal frameOf
  rw [h, if_neg Bool.false_ne_true]
  cases m.layer with
  | plain =>
    exact Handlers.Specs.plainSeal_eq P t _ _ _ _ m.messageType.toNat_lt m.counter.toNat_lt
      m.length_lt
  | aead => exact aeadSeal_eq P t _ _ _ _ _ m.messageType.toNat_lt m.counter.toNat_lt m.length_lt

theorem frameOf_opens (haead : AeadInverts P) :
    (m.layer = .plain → (frameOf P k m t).encryptedPayload = m.plaintext) ∧
      (m.layer = .aead → Server.CryptoBox.aeadDecrypt P (if m.fromClient then k.c2s else k.s2c)
        (frameOf P k m t).nonce (frameOf P k m t).encryptedPayload (frameOf P k m t).authTag
        (frameOf P k m t).headerBytes = .ok m.plaintext) := by
  unfold frameOf
  constructor <;> intro h <;> rw [h]
  · rfl
  · exact aeadDecrypt_aeadFrame P t _ _ _ _ _ haead

theorem serverOpen_eq (haead : AeadInverts P) (h : m.fromClient = true) :
    serverOpen P k m.layer t (frameOf P k m t) =
      .ok (m.plaintext, t.absorb P.toHashes (frameOf P k m t).bytes) := by
  have hwf := frameOf_wellFormed (P := P) (k := k) m t
  have hmac := frameOf_mac (P := P) (k := k) m t
  obtain ⟨hplain, hsealed⟩ := frameOf_opens (k := k) m t haead
  rw [h, if_pos rfl] at hsealed
  unfold serverOpen
  cases hl : m.layer with
  | plain => exact (server_plainOpen t _ _ hwf hmac).trans (by rw [hplain hl])
  | aead => exact server_aeadOpen P t _ _ hwf hmac (hsealed hl)

theorem clientOpen_eq (haead : AeadInverts P) (h : m.fromClient = false) :
    clientOpen P k m.layer (narrowT t) (narrow (frameOf P k m t)) =
      .ok (m.plaintext, narrowT (t.absorb P.toHashes (frameOf P k m t).bytes)) := by
  have hwf := frameOf_wellFormed (P := P) (k := k) m t
  have hmac := frameOf_mac (P := P) (k := k) m t
  obtain ⟨hplain, hsealed⟩ := frameOf_opens (k := k) m t haead
  rw [h, if_neg Bool.false_ne_true] at hsealed
  unfold clientOpen
  cases hl : m.layer with
  | plain => exact (client_plainOpen t _ _ hwf hmac).trans (by rw [hplain hl])
  | aead => exact client_aeadOpen P t _ _ hwf hmac (hsealed hl)

/-- One message keeps the transcripts together and arrives as it was sent. -/
theorem deliver_ok (haead : AeadInverts P) :
    deliver P k m ⟨narrowT t, t⟩ = .ok (m.plaintext,
      ⟨narrowT (t.absorb P.toHashes (frameOf P k m t).bytes),
        t.absorb P.toHashes (frameOf P k m t).bytes⟩) := by
  have hwf := frameOf_wellFormed (P := P) (k := k) m t
  unfold deliver
  cases h : m.fromClient with
  | true =>
    have hparse := Server.Protocol.Frame.parse_bytes hwf
    rw [if_pos rfl, clientSeal_eq m t h]
    simp only
    rw [client_serialize hwf, hparse, Except.mapError]
    refine (Effects.except_bind_ok rfl).trans ?_
    rw [serverOpen_eq m t haead h]
    rfl
  | false =>
    rw [if_neg Bool.false_ne_true, serverSeal_eq m t h]
    refine (Effects.except_bind_ok rfl).trans ?_
    simp only
    rw [hwf.serialize_eq]
    refine (Effects.except_bind_ok rfl).trans ?_
    rw [parse_bytes hwf]
    refine (Effects.except_bind_ok rfl).trans ?_
    rw [clientOpen_eq m t haead h]
    rfl

end Dialogue

/-- From equal transcripts, any sequence of messages in either direction and on either layer is
opened as it was sealed, and the transcripts are equal after every one of them. -/
theorem channel_lockstep (P : Primitives) (haead : AeadInverts P) (k : ChannelKeys)
    (client : CTranscript) (server : STranscript) (hstate : client.state = server.state)
    (ms : List Message) :
    ∃ deliveries, converse P k ⟨client, server⟩ ms = .ok deliveries ∧
      deliveries.map Prod.fst = ms.map Message.plaintext ∧
      ∀ delivery ∈ deliveries, delivery.2.client.state = delivery.2.server.state := by
  have hclient : client = narrowT server := by
    obtain ⟨state⟩ := client
    exact congrArg Client.BinaryFrame.Transcript.mk hstate
  subst hclient
  induction ms generalizing server with
  | nil => exact ⟨[], rfl, rfl, fun _ h => absurd h List.not_mem_nil⟩
  | cons m ms ih =>
    obtain ⟨rest, hrest, hpayloads, hstates⟩ :=
      ih (server.absorb P.toHashes (frameOf P k m server).bytes) rfl
    have hfirst := deliver_ok (k := k) m server haead
    refine ⟨_, (Effects.except_bind_ok hfirst).trans (Effects.except_bind_ok hrest), ?_, ?_⟩
    · rw [List.map_cons, hpayloads, List.map_cons]
    · exact List.forall_mem_cons.mpr ⟨rfl, hstates⟩

/-- A sealed message to the server and a plain one back. -/
theorem channel_lockstep_pair :
    ∃ deliveries, converse Primitives.transparent ⟨[], [1], [2]⟩ ⟨⟨[]⟩, ⟨[]⟩⟩
        [⟨true, .aead, 3, ⟨zeros 16, rfl⟩, 2, ⟨zeros 24, rfl⟩, [7], by decide⟩,
          ⟨false, .plain, 4, ⟨zeros 16, rfl⟩, 2, ⟨zeros 24, rfl⟩, [8, 9], by decide⟩] =
        .ok deliveries ∧
      deliveries.map Prod.fst = [[7], [8, 9]] ∧
      ∀ delivery ∈ deliveries, delivery.2.client.state = delivery.2.server.state :=
  channel_lockstep Primitives.transparent Crypto.Primitives.transparent_sound.aead _ _ _ rfl _

end RankGate.Wire.ChannelLockstep
