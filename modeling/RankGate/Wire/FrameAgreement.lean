/- Module: RankGate/Wire/FrameAgreement
   source: client/src/net/binary_frame.cpp, server/app/protocol.py
   digest: Client and server put the same bytes on the wire and read the same frames off it. -/

import RankGate.Client.BinaryFrame
import RankGate.Wire.FrameCodec

set_option autoImplicit false
set_option relaxedAutoImplicit false

namespace RankGate.Wire.FrameAgreement

open ByteCodec (Bytes beNat beBytes take take_append)
open RankGate.Crypto (Hashes)
open RankGate.Server.Config (Failure)

abbrev CFrame := Client.BinaryFrame.Frame
abbrev SFrame := Server.Protocol.Frame
abbrev CTranscript := Client.BinaryFrame.Transcript
abbrev STranscript := Server.Protocol.Transcript

/-- A client frame, read on unbounded integers. -/
def widen (f : CFrame) : SFrame :=
  ⟨f.messageType.toNat, f.sessionId, f.counter.toNat, f.nonce, f.encryptedPayload, f.authTag,
    f.transcriptMac⟩

def narrow (f : SFrame) : CFrame :=
  ⟨UInt8.ofNat f.messageType, f.sessionId, UInt64.ofNat f.counter, f.nonce, f.encryptedPayload,
    f.authTag, f.transcriptMac⟩

def widenT (t : CTranscript) : STranscript := ⟨t.state⟩

theorem widen_narrow {f : SFrame} (h : f.WellFormed) : widen (narrow f) = f := by
  have hm : (UInt8.ofNat f.messageType).toNat = f.messageType :=
    UInt8.toNat_ofNat_of_lt' h.messageType
  have hc : (UInt64.ofNat f.counter).toNat = f.counter := UInt64.toNat_ofNat_of_lt' h.counter
  simp only [widen, narrow, hm, hc]

theorem narrow_widen (f : CFrame) : narrow (widen f) = f := by
  simp only [widen, narrow, UInt8.ofNat_toNat, UInt64.ofNat_toNat]

theorem header_eq {f : CFrame} (hp : f.encryptedPayload.length < 2 ^ 32) :
    f.header = (widen f).headerBytes := by
  have hlen : (UInt32.ofNat f.encryptedPayload.length).toNat = f.encryptedPayload.length :=
    UInt32.toNat_ofNat_of_lt' hp
  simp only [Client.BinaryFrame.Frame.header, Server.Protocol.Frame.headerBytes, widen,
    UInt8.ofNat_toNat, Client.Constants.be64_eq, Client.Constants.be32_eq, hlen,
    List.append_assoc]
  rfl

theorem preMac_eq {f : CFrame} (hp : f.encryptedPayload.length < 2 ^ 32) :
    f.preMac = (widen f).preMacBytes := by
  rw [Client.BinaryFrame.Frame.preMac, header_eq hp]
  rfl

theorem serialize_eq {f : CFrame} (hp : f.encryptedPayload.length < 2 ^ 32) :
    f.serialize = (widen f).bytes := by
  rw [Client.BinaryFrame.Frame.serialize, preMac_eq hp]
  rfl

private theorem take_bind {α : Type} {e : String} {n : Nat} {a rest : Bytes} (h : a.length = n)
    (k : Bytes → StateT Bytes (Except String) α) : (take e n >>= k) (a ++ rest) = k a rest :=
  Effects.bind_ok (take_append e h rest)

theorem parseFields_bytes {f : SFrame} (h : f.WellFormed) :
    Client.BinaryFrame.Frame.parseFields f.bytes = .ok (narrow f, []) := by
  have hcounter : Client.Constants.rdBe64 (beBytes 8 f.counter) = UInt64.ofNat f.counter := by
    apply UInt64.toNat_inj.mp
    rw [Client.Constants.rdBe64_toNat (ByteCodec.length_beBytes 8 _).le,
      ByteCodec.beNat_beBytes h.counter, UInt64.toNat_ofNat_of_lt' h.counter]
  have hlen : (Client.Constants.rdBe32 (beBytes 4 f.encryptedPayload.length)).toNat =
      f.encryptedPayload.length := by
    rw [Client.Constants.rdBe32_toNat (ByteCodec.length_beBytes 4 _),
      ByteCodec.beNat_beBytes h.payload_lt]
  have hle : Client.Constants.rdBe32 (beBytes 4 f.encryptedPayload.length) ≤
      (1 : UInt32) <<< 20 := by
    rw [UInt32.le_iff_toNat_le, hlen]
    exact h.encryptedPayload
  have hmac : f.transcriptMac = f.transcriptMac ++ [] := (List.append_nil _).symm
  rw [Server.Protocol.Frame.bytes_split, hmac, Client.BinaryFrame.Frame.parseFields]
  refine (take_bind (by rfl) _).trans ?_
  refine (Effects.ensure_true rfl _).trans ?_
  refine (take_bind (by rfl) _).trans ?_
  refine (Effects.ensure_true rfl _).trans ?_
  refine (take_bind (by rfl) _).trans ?_
  refine (take_bind h.sessionId _).trans ?_
  refine (take_bind (ByteCodec.length_beBytes 8 _) _).trans ?_
  refine (take_bind h.nonce _).trans ?_
  refine (take_bind (ByteCodec.length_beBytes 4 _) _).trans ?_
  refine (Effects.ensure_true hle _).trans ?_
  rw [hlen]
  refine (take_bind (by rfl) _).trans ?_
  refine (take_bind h.authTag _).trans ?_
  refine (take_bind h.transcriptMac _).trans ?_
  rw [hcounter]
  rfl

/-- The client reads a well-formed frame off the wire as the server means it. -/
theorem parse_bytes {f : SFrame} (h : f.WellFormed) :
    Client.BinaryFrame.Frame.parse f.bytes = .ok (narrow f) := by
  have hlen : Client.Constants.headerSize + Client.Constants.szAuthtag +
      Client.Constants.szTranscriptMac ≤ f.bytes.length := by
    rw [h.length_bytes]
    exact Nat.le_add_right 106 _
  rw [Client.BinaryFrame.Frame.parse]
  refine (Effects.except_ensure_true hlen).trans ?_
  exact (Effects.except_bind_ok (parseFields_bytes h)).trans (Effects.except_ensure_true rfl)

section Transcripts

variable (H : Hashes)

theorem init_eq : widenT (Client.BinaryFrame.Transcript.init H) =
    Server.Protocol.Transcript.init H := by
  simp [widenT, Client.BinaryFrame.Transcript.init, Server.Protocol.Transcript.init,
    Client.Constants.transcriptSeed, Server.Config.transcriptSeed]

theorem sealFrame_eq (t : CTranscript) (macKey sid nonce payload tag : Bytes) (mt : UInt8)
    (counter : UInt64) (hp : payload.length < 2 ^ 32) :
    (widenT t).sealFrame H macKey mt.toNat sid counter.toNat nonce payload tag =
      .ok (widen (t.sealFrame H macKey mt sid counter nonce payload tag).1,
        widenT (t.sealFrame H macKey mt sid counter nonce payload tag).2) := by
  have hpre : ∀ mac, Client.BinaryFrame.Frame.preMac ⟨mt, sid, counter, nonce, payload, tag, mac⟩ =
      (widen ⟨mt, sid, counter, nonce, payload, tag, mac⟩).preMacBytes := fun _ => preMac_eq hp
  have hser : ∀ mac,
      Client.BinaryFrame.Frame.serialize ⟨mt, sid, counter, nonce, payload, tag, mac⟩ =
        (widen ⟨mt, sid, counter, nonce, payload, tag, mac⟩).bytes := fun _ => serialize_eq hp
  rw [Server.Protocol.Transcript.sealFrame_eq H _ _ _ _ _ _ mt.toNat_lt counter.toNat_lt hp]
  simp only [Client.BinaryFrame.Transcript.sealFrame, hpre, hser]
  rfl

/-- Opening agrees: one side accepts a frame exactly when the other does, into the same state. -/
theorem openFrame_ok {t t' : CTranscript} {macKey : Bytes} {f : CFrame}
    (hp : f.encryptedPayload.length < 2 ^ 32) :
    t.openFrame H macKey f = .ok t' ↔
      (widenT t).openFrame H macKey (widen f) = .ok (widenT t') := by
  have hopen : t.openFrame H macKey f = (do
      Effects.ensure (Client.CryptoBox.ctEqual ((widenT t).macFor H macKey (widen f).preMacBytes)
        f.transcriptMac = true) "transcript MAC mismatch"
      return ⟨((widenT t).absorb H (widen f).bytes).state⟩ : Except String CTranscript) := by
    rw [Client.BinaryFrame.Transcript.openFrame, preMac_eq hp, serialize_eq hp]
    rfl
  rw [hopen, Server.Protocol.Transcript.openFrame_eq_ok H f.messageType.toNat_lt
    f.counter.toNat_lt hp]
  have hct : ∀ a b : Bytes, Client.CryptoBox.ctEqual a b = true ↔ a = b := fun _ _ => beq_iff_eq
  constructor
  · intro h
    obtain ⟨hmac, h⟩ := Effects.except_ensure_eq_ok h
    exact ⟨(hct _ _).mp hmac, congrArg widenT (Except.ok.inj h).symm⟩
  · rintro ⟨hmac, hstate⟩
    refine (Effects.except_ensure_true ((hct _ _).mpr hmac)).trans ?_
    exact congrArg (fun s : STranscript => Except.ok (Client.BinaryFrame.Transcript.mk s.state)) hstate.symm

end Transcripts

end RankGate.Wire.FrameAgreement
