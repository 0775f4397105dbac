/- Module: RankGate/Wire/FrameExactness
   source: client/src/net/binary_frame.cpp, server/app/protocol.py (Frame)
   digest: Either parser accepts exactly the serialisations of well-formed frames, and the same ones. -/

import RankGate.Foundation.Codec
import RankGate.Wire.FrameAgreement

set_option autoImplicit false
set_option relaxedAutoImplicit false

namespace RankGate.Wire.FrameExactness

open ByteCodec (Bytes beNat beBytes take_eq_ok)
open Codec (Exact)
open Wire.FrameAgreement

/-- The field sizes of a client frame; its type and counter have theirs by their C++ types. -/
structure WellFormed (f : CFrame) : Prop where
  sessionId : f.sessionId.length = 16
  nonce : f.nonce.length = 24
  encryptedPayload : f.encryptedPayload.length ≤ 2 ^ 20
  authTag : f.authTag.length = 16
  transcriptMac : f.transcriptMac.length = 32

theorem wellFormed_widen {f : CFrame} : (widen f).WellFormed ↔ WellFormed f := by
  constructor
  · rintro ⟨-, hsid, -, hnonce, hpayload, htag, hmac⟩
    exact ⟨hsid, hnonce, hpayload, htag, hmac⟩
  · rintro ⟨hsid, hnonce, hpayload, htag, hmac⟩
    exact ⟨f.messageType.toNat_lt, hsid, f.counter.toNat_lt, hnonce, hpayload, htag, hmac⟩

theorem WellFormed.payload_lt {f : CFrame} (h : WellFormed f) :
    f.encryptedPayload.length < 2 ^ 32 :=
  (wellFormed_widen.mpr h).payload_lt

section Parse

private theorem singleton_getD {b : Bytes} (h : b.length = 1) : [b.getD 0 0] = b := by
  match b, h with
  | [x], _ => rfl

theorem client_parseFields_ok {buf rest : Bytes} {f : CFrame}
    (h : Client.BinaryFrame.Frame.parseFields buf = .ok (f, rest)) :
    WellFormed f ∧ buf = (widen f).bytes ++ rest := by
  unfold Client.BinaryFrame.Frame.parseFields at h
  obtain ⟨magic, r1, h1, h⟩ := Effects.bind_eq_ok h
  obtain ⟨hmagic, h⟩ := Effects.ensure_eq_ok h
  obtain ⟨version, r2, h2, h⟩ := Effects.bind_eq_ok h
  obtain ⟨hversion, h⟩ := Effects.ensure_eq_ok h
  obtain ⟨msgtype, r3, h3, h⟩ := Effects.bind_eq_ok h
  obtain ⟨sessionId, r4, h4, h⟩ := Effects.bind_eq_ok h
  obtain ⟨counter, r5, h5, h⟩ := Effects.bind_eq_ok h
  obtain ⟨nonce, r6, h6, h⟩ := Effects.bind_eq_ok h
  obtain ⟨paylen, r7, h7, h⟩ := Effects.bind_eq_ok h
  obtain ⟨hpaylen, h⟩ := Effects.ensure_eq_ok h
  obtain ⟨payload, r8, h8, h⟩ := Effects.bind_eq_ok h
  obtain ⟨tag, r9, h9, h⟩ := Effects.bind_eq_ok h
  obtain ⟨tmac, r10, h10, h⟩ := Effects.bind_eq_ok h
  cases h
  obtain ⟨-, rfl⟩ := take_eq_ok h1
  obtain ⟨l2, rfl⟩ := take_eq_ok h2
  obtain ⟨l3, rfl⟩ := take_eq_ok h3
  obtain ⟨l4, rfl⟩ := take_eq_ok h4
  obtain ⟨l5, rfl⟩ := take_eq_ok h5
  obtain ⟨l6, rfl⟩ := take_eq_ok h6
  obtain ⟨l7, rfl⟩ := take_eq_ok h7
  obtain ⟨l8, rfl⟩ := take_eq_ok h8
  obtain ⟨l9, rfl⟩ := take_eq_ok h9
  obtain ⟨l10, rfl⟩ := take_eq_ok h10
  have hlen : (Client.Constants.rdBe32 paylen).toNat = beNat paylen :=
    Client.Constants.rdBe32_toNat l7
  have hcap : payload.length ≤ 2 ^ 20 := by
    rw [l8]
    exact UInt32.le_iff_toNat_le.mp hpaylen
  refine ⟨⟨l4, l6, hcap, l9, l10⟩, ?_⟩
  have hv : version = [6] := by
    rw [← singleton_getD l2, hversion]
    rfl
  have hm : [UInt8.ofNat (msgtype.getD 0 0).toNat] = msgtype := by
    rw [UInt8.ofNat_toNat, singleton_getD l3]
  have hcounter : beBytes 8 (Client.Constants.rdBe64 counter).toNat = counter := by
    rw [Client.Constants.rdBe64_toNat (le_of_eq l5)]
    exact ByteCodec.beBytes_beNat_of_length l5
  have hpaylen' : beBytes 4 payload.length = paylen := by
    rw [l8, hlen]
    exact ByteCodec.beBytes_beNat_of_length l7
  rw [Server.Protocol.Frame.bytes_split]
  simp only [widen, hm, hv, hmagic, hcounter, hpaylen', List.append_assoc]
  rfl

theorem client_parse_ok {buf : Bytes} {f : CFrame}
    (h : Client.BinaryFrame.Frame.parse buf = .ok f) : WellFormed f ∧ f.serialize = buf := by
  unfold Client.BinaryFrame.Frame.parse at h
  obtain ⟨-, h⟩ := Effects.except_ensure_eq_ok h
  obtain ⟨⟨g, rest⟩, hg, h⟩ := Effects.except_bind_eq_ok h
  obtain ⟨hrest, h⟩ := Effects.except_ensure_eq_ok h
  cases h
  obtain ⟨hwf, hbuf⟩ := client_parseFields_ok hg
  have hrest' : rest = [] := hrest
  rw [hrest', List.append_nil] at hbuf
  exact ⟨hwf, (serialize_eq hwf.payload_lt).trans hbuf.symm⟩

theorem client_parse_serialize {f : CFrame} (h : WellFormed f) :
    Client.BinaryFrame.Frame.parse f.serialize = .ok f := by
  rw [serialize_eq h.payload_lt, parse_bytes (wellFormed_widen.mpr h), narrow_widen]

end Parse

section Exact

theorem server_exact : Exact (fun f : SFrame => f.serialize.toOption)
    (fun buf => (Server.Protocol.Frame.parse buf).toOption) Server.Protocol.Frame.WellFormed where
  roundtrip f h := by
    refine ⟨f.bytes, ?_, ?_⟩
    · rw [h.serialize_eq]
      rfl
    · rw [Server.Protocol.Frame.parse_bytes h]
      rfl
  canonical buf f h := by
    obtain ⟨hwf, rfl⟩ := Server.Protocol.Frame.parse_ok (Effects.toOption_eq_some.mp h)
    refine ⟨hwf, ?_⟩
    rw [hwf.serialize_eq]
    rfl

theorem client_exact : Exact (fun f : CFrame => some f.serialize)
    (fun buf => (Client.BinaryFrame.Frame.parse buf).toOption) WellFormed where
  roundtrip f h := by
    refine ⟨f.serialize, rfl, ?_⟩
    rw [client_parse_serialize h]
    rfl
  canonical buf f h := by
    obtain ⟨hwf, hbuf⟩ := client_parse_ok (Effects.toOption_eq_some.mp h)
    exact ⟨hwf, congrArg some hbuf⟩

theorem widen_serialize {f : CFrame} (h : WellFormed f) :
    (widen f).serialize = .ok f.serialize := by
  rw [(wellFormed_widen.mpr h).serialize_eq, serialize_eq h.payload_lt]

/-- Both codecs are exact, on the same frames and the same bytes: each parser inverts its
serialiser on well-formed frames, rejects every other buffer, and agrees with the other's. -/
theorem frame_codec_exact :
    Exact (fun f : SFrame => f.serialize.toOption)
        (fun buf => (Server.Protocol.Frame.parse buf).toOption)
        Server.Protocol.Frame.WellFormed ∧
      Exact (fun f : CFrame => some f.serialize)
        (fun buf => (Client.BinaryFrame.Frame.parse buf).toOption) WellFormed ∧
      (∀ f : CFrame, WellFormed f →
        (widen f).WellFormed ∧ (widen f).serialize = .ok f.serialize) ∧
      ∀ buf, (Server.Protocol.Frame.parse buf).toOption =
        (Client.BinaryFrame.Frame.parse buf).toOption.map widen := by
  refine ⟨server_exact, client_exact, ?_, ?_⟩
  · intro f h
    exact ⟨wellFormed_widen.mpr h, widen_serialize h⟩
  · refine client_exact.agree server_exact widen (fun f h => wellFormed_widen.mpr h) ?_ ?_
    · intro f h
      rw [widen_serialize h]
      rfl
    · intro f h
      have hf := widen_narrow h
      exact ⟨narrow f, wellFormed_widen.mp (hf.symm ▸ h), hf⟩

end Exact

end RankGate.Wire.FrameExactness
