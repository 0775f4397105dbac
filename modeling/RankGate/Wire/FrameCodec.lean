/- Module: RankGate/Wire/FrameCodec
   source: server/app/protocol.py (Frame.header .. Frame.parse)
   digest: On well-formed frames serialisation is total and injective, the parser is its inverse, and
   sealing and opening compute on the serialised bytes. -/

import RankGate.Server.Protocol

set_option autoImplicit false
set_option relaxedAutoImplicit false

namespace RankGate.Server.Protocol.Frame

open ByteCodec (Bytes beNat beBytes take take_append take_eq_ok)
open RankGate.Server.Config (Failure toBytes toBytes_eq)

/-- The 58 header bytes. -/
def headerBytes (f : Frame) : Bytes :=
  Config.magic ++ [6, UInt8.ofNat f.messageType] ++ f.sessionId ++ beBytes 8 f.counter ++ f.nonce ++
    beBytes 4 f.encryptedPayload.length

def preMacBytes (f : Frame) : Bytes := f.headerBytes ++ f.encryptedPayload ++ f.authTag

def bytes (f : Frame) : Bytes := f.preMacBytes ++ f.transcriptMac

section Serialize

theorem header_eq {f : Frame} (hm : f.messageType < 256) (hc : f.counter < 2 ^ 64)
    (hp : f.encryptedPayload.length < 2 ^ 32) : f.header = .ok f.headerBytes := by
  have hmt : byte f.messageType = .ok [UInt8.ofNat f.messageType] := if_pos hm
  have hver : byte Config.protoVersion = .ok [6] := rfl
  have hcounter : toBytes Config.szCounter f.counter = .ok (beBytes 8 f.counter) := toBytes_eq hc
  have hlen : toBytes Config.szPaylen f.encryptedPayload.length =
      .ok (beBytes 4 f.encryptedPayload.length) := toBytes_eq hp
  simp only [header, hmt, hver, hcounter, hlen, bind, Except.bind, pure, Except.pure]
  rfl

theorem preMac_eq {f : Frame} (hm : f.messageType < 256) (hc : f.counter < 2 ^ 64)
    (hp : f.encryptedPayload.length < 2 ^ 32) : f.preMac = .ok f.preMacBytes := by
  rw [preMac, header_eq hm hc hp]
  rfl

theorem serialize_eq {f : Frame} (hm : f.messageType < 256) (hc : f.counter < 2 ^ 64)
    (hp : f.encryptedPayload.length < 2 ^ 32) : f.serialize = .ok f.bytes := by
  rw [serialize, preMac_eq hm hc hp]
  rfl

theorem WellFormed.payload_lt {f : Frame} (h : f.WellFormed) :
    f.encryptedPayload.length < 2 ^ 32 :=
  lt_of_le_of_lt h.encryptedPayload (by decide)

theorem WellFormed.header_eq {f : Frame} (h : f.WellFormed) : f.header = .ok f.headerBytes :=
  Frame.header_eq h.messageType h.counter h.payload_lt

theorem WellFormed.preMac_eq {f : Frame} (h : f.WellFormed) : f.preMac = .ok f.preMacBytes :=
  Frame.preMac_eq h.messageType h.counter h.payload_lt

theorem WellFormed.serialize_eq {f : Frame} (h : f.WellFormed) : f.serialize = .ok f.bytes :=
  Frame.serialize_eq h.messageType h.counter h.payload_lt

theorem headerBytes_length {f : Frame} (hs : f.sessionId.length = 16) (hn : f.nonce.length = 24) :
    f.headerBytes.length = 58 := by
  simp [headerBytes, hs, hn, Config.magic, ByteCodec.ascii]

end Serialize

section Parse

theorem bytes_split (f : Frame) :
    f.bytes = Config.magic ++ ([6] ++ ([UInt8.ofNat f.messageType] ++ (f.sessionId ++
      (beBytes 8 f.counter ++ (f.nonce ++ (beBytes 4 f.encryptedPayload.length ++
      (f.encryptedPayload ++ (f.authTag ++ f.transcriptMac)))))))) := by
  simp [bytes, preMacBytes, headerBytes]

theorem WellFormed.length_bytes {f : Frame} (h : f.WellFormed) :
    f.bytes.length = 106 + f.encryptedPayload.length := by
  rw [bytes, preMacBytes, List.length_append, List.length_append, List.length_append,
    headerBytes_length h.sessionId h.nonce, h.authTag, h.transcriptMac]
  omega

private theorem take_bind {α : Type} {e : Failure} {n : Nat} {a rest : Bytes} (h : a.length = n)
    (k : Bytes → StateT Bytes (Except Failure) α) : (take e n >>= k) (a ++ rest) = k a rest :=
  Effects.bind_ok (take_append e h rest)

theorem parseFields_bytes {f : Frame} (h : f.WellFormed) : parseFields f.bytes = .ok (f, []) := by
  have hmt : beNat [UInt8.ofNat f.messageType] = f.messageType := by
    have : (UInt8.ofNat f.messageType).toNat = f.messageType :=
      UInt8.toNat_ofNat_of_lt' h.messageType
    simp [beNat, this]
  have hcounter : beNat (beBytes 8 f.counter) = f.counter := ByteCodec.beNat_beBytes h.counter
  have hlen : beNat (beBytes 4 f.encryptedPayload.length) = f.encryptedPayload.length :=
    ByteCodec.beNat_beBytes h.payload_lt
  have hmac : f.transcriptMac = f.transcriptMac ++ [] := (List.append_nil _).symm
  rw [bytes_split, hmac, parseFields]
  refine (take_bind (by rfl) _).trans ?_
  refine (Effects.ensure_true rfl _).trans ?_
  refine (take_bind (by rfl) _).trans ?_
  refine (Effects.ensure_true rfl _).trans ?_
  refine (take_bind (by rfl) _).trans ?_
  refine (take_bind h.sessionId _).trans ?_
  refine (take_bind (ByteCodec.length_beBytes 8 _) _).trans ?_
  refine (take_bind h.nonce _).trans ?_
  refine (take_bind (ByteCodec.length_beBytes 4 _) _).trans ?_
  rw [hlen]
  refine (Effects.ensure_true h.encryptedPayload _).trans ?_
  refine (take_bind (by rfl) _).trans ?_
  refine (take_bind h.authTag _).trans ?_
  refine (take_bind h.transcriptMac _).trans ?_
  rw [hmt, hcounter]
  rfl

/-- A well-formed frame survives the wire. -/
theorem parse_bytes {f : Frame} (h : f.WellFormed) : parse f.bytes = .ok f := by
  have hlen : Config.headerSize + Config.szAuthtag + Config.szTranscriptMac ≤ f.bytes.length := by
    rw [h.length_bytes]
    exact Nat.le_add_right 106 _
  rw [parse]
  refine (Effects.except_ensure_true hlen).trans ?_
  exact (Effects.except_bind_ok (parseFields_bytes h)).trans (Effects.except_ensure_true rfl)

theorem parseFields_ok {buf rest : Bytes} {f : Frame} (h : parseFields buf = .ok (f, rest)) :
    f.WellFormed ∧ buf = f.bytes ++ rest := by
  unfold parseFields at h
  obtain ⟨magic, r1, h1, h⟩ := Effects.bind_eq_ok h
  obtain ⟨hmagic, h⟩ := Effects.ensure_eq_ok h
  obtain ⟨version, r2, h2, h⟩ := Effects.bind_eq_ok h
  obtain ⟨hversion, h⟩ := Effects.ensure_eq_ok h
  obtain ⟨msgtype, r3, h3, h⟩ := Effects.bind_eq_ok h
  obtain ⟨sessionId, r4, h4, h⟩ := Effects.bind_eq_ok h
  obtain ⟨counter, r5, h5, h⟩ := Effects.bind_eq_ok h
  obtain ⟨nonce, r6, h6, h⟩ := Effects.bind_eq_ok h
  obtain ⟨paylen, r7, h7, h⟩ := Effects.bind_eq_ok h
  obtain ⟨hpaylen, h⟩ := Effects.ensure_eq_ok h
  obtain ⟨payload, r8, h8, h⟩ := Effects.bind_eq_ok h
  obtain ⟨tag, r9, h9, h⟩ := Effects.bind_eq_ok h
  obtain ⟨tmac, r10, h10, h⟩ := Effects.bind_eq_ok h
  cases h
  obtain ⟨-, rfl⟩ := take_eq_ok h1
  obtain ⟨l2, rfl⟩ := take_eq_ok h2
  obtain ⟨l3, rfl⟩ := take_eq_ok h3
  obtain ⟨l4, rfl⟩ := take_eq_ok h4
  obtain ⟨l5, rfl⟩ := take_eq_ok h5
  obtain ⟨l6, rfl⟩ := take_eq_ok h6
  obtain ⟨l7, rfl⟩ := take_eq_ok h7
  obtain ⟨l8, rfl⟩ := take_eq_ok h8
  obtain ⟨l9, rfl⟩ := take_eq_ok h9
  obtain ⟨l10, rfl⟩ := take_eq_ok h10
  have hmt : beNat msgtype < 256 := by
    have := ByteCodec.beNat_lt msgtype
    rwa [l3] at this
  have hc : beNat counter < 2 ^ 64 := by
    have := ByteCodec.beNat_lt counter
    rwa [l5] at this
  refine ⟨⟨hmt, l4, hc, l6, l8 ▸ hpaylen, l9, l10⟩, ?_⟩
  have hv : version = [6] := by
    refine ByteCodec.beNat_inj (l2.trans rfl) hversion
  have hcounter : beBytes 8 (beNat counter) = counter := ByteCodec.beBytes_beNat_of_length l5
  have hpaylen' : beBytes 4 (beNat paylen) = paylen := ByteCodec.beBytes_beNat_of_length l7
  have hm : [UInt8.ofNat (beNat msgtype)] = msgtype := ByteCodec.beBytes_beNat_of_length l3
  rw [bytes_split]
  simp only [hm, hv, hmagic, l8, hcounter, hpaylen', List.append_assoc]

/-- Whatever the parser accepts is the serialisation of the frame it returns. -/
theorem parse_ok {buf : Bytes} {f : Frame} (h : parse buf = .ok f) :
    f.WellFormed ∧ buf = f.bytes := by
  unfold parse at h
  obtain ⟨-, h⟩ := Effects.except_ensure_eq_ok h
  obtain ⟨⟨g, rest⟩, hg, h⟩ := Effects.except_bind_eq_ok h
  obtain ⟨hrest, h⟩ := Effects.except_ensure_eq_ok h
  cases h
  obtain ⟨hwf, hbuf⟩ := parseFields_ok hg
  have hrest' : rest = [] := hrest
  rw [hrest', List.append_nil] at hbuf
  exact ⟨hwf, hbuf⟩

end Parse

section Injective

theorem bytes_inj {f g : Frame} (hf : f.WellFormed) (hg : g.WellFormed) (h : f.bytes = g.bytes) :
    f = g := by
  have hfg := parse_bytes hf
  rw [h, parse_bytes hg] at hfg
  exact (Except.ok.inj hfg).symm

theorem preMacBytes_inj {f g : Frame} (hf : f.WellFormed) (hg : g.WellFormed)
    (h : f.preMacBytes = g.preMacBytes) : { f with transcriptMac := g.transcriptMac } = g :=
  bytes_inj { hf with transcriptMac := hg.transcriptMac } hg
    (congrArg (· ++ g.transcriptMac) h)

end Injective

end RankGate.Server.Protocol.Frame

namespace RankGate.Server.Protocol.Transcript

open ByteCodec (Bytes)
open RankGate.Crypto (Hashes)
open RankGate.Server.Config (Failure)

section Channel

variable (H : Hashes)

/-- The frame sealing emits: the given fields under the MAC of the current state. -/
def sealed (t : Transcript) (macKey : Bytes) (messageType : Nat) (sessionId : Bytes)
    (counter : Nat) (nonce payload tag : Bytes) : Frame :=
  let f : Frame := ⟨messageType, sessionId, counter, nonce, payload, tag, []⟩
  { f with transcriptMac := t.macFor H macKey f.preMacBytes }

theorem sealFrame_eq (t : Transcript) (macKey sid nonce payload tag : Bytes) {mt counter : Nat}
    (hm : mt < 256) (hc : counter < 2 ^ 64) (hp : payload.length < 2 ^ 32) :
    t.sealFrame H macKey mt sid counter nonce payload tag =
      .ok (t.sealed H macKey mt sid counter nonce payload tag,
        t.absorb H (t.sealed H macKey mt sid counter nonce payload tag).bytes) := by
  have hpre : ∀ mac, Frame.preMac ⟨mt, sid, counter, nonce, payload, tag, mac⟩ =
      .ok (Frame.preMacBytes ⟨mt, sid, counter, nonce, payload, tag, mac⟩) :=
    fun _ => Frame.preMac_eq hm hc hp
  have hser : ∀ mac, Frame.serialize ⟨mt, sid, counter, nonce, payload, tag, mac⟩ =
      .ok (Frame.bytes ⟨mt, sid, counter, nonce, payload, tag, mac⟩) :=
    fun _ => Frame.serialize_eq hm hc hp
  simp only [sealFrame, hpre, hser, bind, Except.bind, pure, Except.pure]
  rfl

theorem openFrame_eq_ok {t t' : Transcript} {macKey : Bytes} {f : Frame}
    (hm : f.messageType < 256) (hc : f.counter < 2 ^ 64)
    (hp : f.encryptedPayload.length < 2 ^ 32) :
    t.openFrame H macKey f = .ok t' ↔
      t.macFor H macKey f.preMacBytes = f.transcriptMac ∧ t' = t.absorb H f.bytes := by
  have hopen : t.openFrame H macKey f = (do
      Effects.ensure (t.macFor H macKey f.preMacBytes = f.transcriptMac)
        (Failure.protocolError "transcript_mac" "transcript MAC mismatch")
      return t.absorb H f.bytes : Except Failure Transcript) := by
    rw [openFrame, Frame.preMac_eq hm hc hp, Frame.serialize_eq hm hc hp]
    rfl
  rw [hopen]
  constructor
  · intro h
    obtain ⟨hmac, h⟩ := Effects.except_ensure_eq_ok h
    exact ⟨hmac, (Except.ok.inj h).symm⟩
  · rintro ⟨hmac, rfl⟩
    exact Effects.except_ensure_true hmac

end Channel

end RankGate.Server.Protocol.Transcript
