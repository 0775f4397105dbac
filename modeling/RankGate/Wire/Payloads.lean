/- Module: RankGate/Wire/Payloads
   source: client/src/net/protocol.cpp (run_session), server/app/challenge_logic.py
   digest: The five handshake payloads, as one program writes them and the other reads them. -/

import RankGate.Client.Protocol
import RankGate.Foundation.Records
import RankGate.Server.ChallengeLogic

set_option autoImplicit false
set_option relaxedAutoImplicit false

namespace RankGate.Wire.Payloads

open ByteCodec (Bytes BytesN ascii beBytes beNat)
open Effects (ensure)
open RankGate.Client.Constants (be16 be32)
open RankGate.Client.Protocol (Challenge Draws)
open RankGate.Crypto (Hashes Primitives)
open RankGate.Server.ChallengeLogic
open RankGate.Server.Config (Env Failure)
open RankGate.Server.Verifier (slice)

/-- How the sender writes the fields, how the receiver reads a payload, and what becomes of the
fields on the way. -/
structure Payload (φ ρ ε : Type) where
  encode : φ → Bytes
  decode : Bytes → Except ε ρ
  view : φ → ρ

namespace Payload

variable {φ ρ ε : Type} (p : Payload φ ρ ε)

/-- The receiver gets the fields that were sent. -/
def Recovers (f : φ) : Prop := p.decode (p.encode f) = .ok (p.view f)

/-- If the receiver accepts these bytes, they are the encoding of what it read. -/
def Covered (payload : Bytes) : Prop :=
  ∀ v, p.decode payload = .ok v → ∃ f, p.view f = v ∧ p.encode f = payload

end Payload

structure HelloFields where
  clientPub : BytesN 32
  clientRandom : BytesN 16
  username : Bytes

def hello : Payload HelloFields (Bytes × Bytes × List Nat) Failure where
  encode f := f.clientPub.val ++ f.clientRandom.val ++ be16 (UInt16.ofNat f.username.length) ++
    f.username
  decode := parseHelloPayload
  view f := (f.clientPub.val, f.clientRandom.val, f.username.map UInt8.toNat)

theorem helloPayload_eq (P : Primitives) (d : Draws) (usernameNorm : Bytes) :
    Client.Protocol.helloPayload P d usernameNorm =
      hello.encode ⟨⟨P.x25519Base d.priv.val, P.length_x25519Base _⟩, d.clientRandom,
        usernameNorm⟩ := rfl

structure ChallengeFields where
  serverPub : BytesN 32
  serverRandom : BytesN 16
  signature : BytesN 64

/-- What `run_session` reads out of SERVER_CHALLENGE. -/
def readChallenge (chalPayload : Bytes) : Except String (Bytes × Bytes × Bytes) := do
  ensure (32 + 16 + 64 ≤ chalPayload.length) "server challenge too short"
  let serverPub ← Client.Constants.slice chalPayload 0 32
  let serverRandom ← Client.Constants.slice chalPayload 32 16
  let signature ← Client.Constants.slice chalPayload 48 64
  return (serverPub, serverRandom, signature)

def serverChallenge : Payload ChallengeFields (Bytes × Bytes × Bytes) String where
  encode f := f.serverPub.val ++ f.serverRandom.val ++ f.signature.val
  decode := readChallenge
  view f := (f.serverPub.val, f.serverRandom.val, f.signature.val)

theorem challengePayload_eq (P : Primitives) (env : Env) (t : Server.Protocol.Transcript)
    (serverPub : BytesN 32) (serverRandom : BytesN 16) :
    challengePayload P env t serverPub.val serverRandom.val =
      serverChallenge.encode ⟨serverPub, serverRandom, ⟨P.ed25519Sign (Server.Config.serverSignSeed P env)
        (Server.Config.signContext ++ t.state ++ serverPub.val ++ serverRandom.val),
        P.length_ed25519Sign _ _⟩⟩ := rfl

theorem openChallenge_eq (P : Primitives) (serverSignPk : Bytes)
    (t : Client.BinaryFrame.Transcript) (resp : Bytes) :
    Client.Protocol.openChallenge P serverSignPk t resp = (do
      let chal ← Client.BinaryFrame.Frame.parse resp
      let (chalPayload, t') ← Client.Protocol.plainOpen P.toHashes t
        (Client.Protocol.bootstrapMacKey P.toHashes) chal
      let (serverPub, serverRandom, signature) ← readChallenge chalPayload
      ensure (Client.CryptoBox.ed25519Verify P serverSignPk
        (Client.Constants.signContext ++ t.state ++ serverPub ++ serverRandom) signature = true)
        "server challenge signature invalid"
      return (⟨serverPub, serverRandom⟩, t')) := by
  simp only [Client.Protocol.openChallenge, readChallenge, bind_assoc, pure_bind]

structure ClientProof1Fields where
  licenseStruct : BytesN 25
  vmDigest : BytesN 32
  vmStateHash : BytesN 32
  vmPathId : UInt32
  vmHaltCode : UInt32
  proof1 : BytesN 32

def clientProof1 : Payload ClientProof1Fields Proof1Payload Failure where
  encode f := f.licenseStruct.val ++ f.vmDigest.val ++ f.vmStateHash.val ++ be32 f.vmPathId ++
    be32 f.vmHaltCode ++ f.proof1.val
  decode := parseProof1
  view f := {
    licenseStruct := f.licenseStruct.val
    vm := ⟨f.vmDigest.val, f.vmStateHash.val, f.vmPathId.toNat, f.vmHaltCode.toNat⟩
    proof1 := f.proof1.val }

structure ServerProof1Fields where
  serverProof1 : BytesN 32
  serverChallenge2 : BytesN 16

def readServerProof1 (spPayload : Bytes) : Except String (Bytes × Bytes) := do
  ensure (spPayload.length = 48) "bad server proof1 length"
  let serverProof1 ← Client.Constants.slice spPayload 0 32
  let serverChallenge2 ← Client.Constants.slice spPayload 32 16
  return (serverProof1, serverChallenge2)

def serverProof1 : Payload ServerProof1Fields (Bytes × Bytes) String where
  encode f := f.serverProof1.val ++ f.serverChallenge2.val
  decode := readServerProof1
  view f := (f.serverProof1.val, f.serverChallenge2.val)

theorem serverProof1Payload_eq (H : Hashes) (keys : Server.Sessions.Keys)
    (t : Server.Protocol.Transcript) (vmDigest : Bytes) (serverChallenge2 : BytesN 16) :
    serverProof1Payload H keys t vmDigest serverChallenge2.val =
      serverProof1.encode ⟨⟨H.hmacSha256 keys.sproof1 (ascii "RG6-SPROOF1/v6" ++ t.state ++
        vmDigest ++ serverChallenge2.val), H.length_hmacSha256 _ _⟩, serverChallenge2⟩ := rfl

theorem openServerProof1_eq (P : Primitives) (s : Client.Protocol.Session)
    (t : Client.BinaryFrame.Transcript) (resp : Bytes) :
    Client.Protocol.openServerProof1 P s t resp = (do
      let sp ← Client.BinaryFrame.Frame.parse resp
      let (spPayload, t') ← Client.Protocol.aeadOpen P t s.keys.mac s.keys.s2c sp
      let (proof, serverChallenge2) ← readServerProof1 spPayload
      ensure (Client.CryptoBox.ctEqual proof (P.hmacSha256 s.keys.sproof1
        (Client.Constants.sproof1Label ++ t.state ++ s.vmres.vmDigest ++ serverChallenge2)) = true)
        "server proof1 invalid"
      return (serverChallenge2, t')) := by
  simp only [Client.Protocol.openServerProof1, readServerProof1, bind_assoc, pure_bind]

def readProof2 (payload : Bytes) : Except Failure Bytes := do
  ensure (payload.length = 32) (.protocolError "finalize" "bad proof2 payload length")
  return payload

def clientProof2 : Payload (BytesN 32) Bytes Failure where
  encode f := f.val
  decode := readProof2
  view f := f.val

theorem openProof2_eq (P : Primitives) (sess : Server.Sessions.Session)
    (frame : Server.Protocol.Frame) :
    openProof2 P sess frame = (do
      let keys ← sessionKeys sess
      let (payload, t) ← aeadOpen P (restoreTranscript sess.transcriptState) keys.mac keys.c2s frame
      let proof2 ← readProof2 payload
      Server.Verifier.validateProof2 P.toHashes keys.proof2 proof2 sess.serverChallenge2
        sess.serverRandom sess.serverEphPub sess.vmDigest sess.salt
      return (keys, t)) := by
  simp only [openProof2, readProof2, bind_assoc, pure_bind]

section Hello

/-- The reader takes the length field at its word, and looks no further than the name. -/
theorem parseHelloPayload_eq_ok {payload : Bytes} {v : Bytes × Bytes × List Nat} :
    parseHelloPayload payload = .ok v ↔
      50 ≤ payload.length ∧ 50 + beNat (slice payload 48 50) ≤ payload.length ∧
        (slice payload 0 32, slice payload 32 48,
          (slice payload 50 (50 + beNat (slice payload 48 50))).map UInt8.toNat) = v := by
  generalize hulen : beNat (slice payload 48 50) = ulen
  have hraw : (slice payload 50 (50 + ulen)).length = ulen ↔
      ulen = 0 ∨ 50 + ulen ≤ payload.length := by
    rw [slice, List.length_take, List.length_drop]
    omega
  constructor
  · intro h
    obtain ⟨hshort, h⟩ := Effects.except_ensure_eq_ok h
    rw [hulen] at h
    obtain ⟨hname, h⟩ := Effects.except_ensure_eq_ok h
    refine ⟨hshort, ?_, Except.ok.inj h⟩
    have hname' := hraw.mp hname
    omega
  · rintro ⟨hshort, hname, rfl⟩
    refine (Effects.except_ensure_true hshort).trans ?_
    rw [hulen]
    exact Effects.except_ensure_true (hraw.mpr (.inr hname))

variable (f : HelloFields)

theorem encode_hello : hello.encode f = [f.clientPub.val, f.clientRandom.val,
    beBytes 2 (f.username.length % 65536)].flatten ++ f.username := by
  simp only [hello, Client.Constants.be16_eq, UInt16.toNat_ofNat', List.flatten_cons,
    List.flatten_nil, List.append_nil, List.append_assoc]

theorem length_hello : (hello.encode f).length = 50 + f.username.length := by
  rw [encode_hello, List.length_append]
  simp [f.clientPub.property, f.clientRandom.property]

theorem cut_hello : Records.cut [32, 16, 2] (hello.encode f) = [f.clientPub.val,
    f.clientRandom.val, beBytes 2 (f.username.length % 65536)] := by
  have h := Records.cut_append [f.clientPub.val, f.clientRandom.val,
    beBytes 2 (f.username.length % 65536)] f.username
  rw [← encode_hello] at h
  simpa [f.clientPub.property, f.clientRandom.property] using h

theorem parse_hello : parseHelloPayload (hello.encode f) = .ok (f.clientPub.val,
    f.clientRandom.val, (f.username.take (f.username.length % 65536)).map UInt8.toNat) := by
  have hlen := length_hello f
  have hcut := cut_hello f
  simp only [Records.cut, List.drop_drop, List.cons.injEq, and_true] at hcut
  obtain ⟨hpub, hrandom, hulen⟩ := hcut
  have hbe : beNat (slice (hello.encode f) 48 50) = f.username.length % 65536 :=
    (congrArg beNat hulen).trans (ByteCodec.beNat_beBytes (Nat.mod_lt _ (by decide)))
  have hname : (hello.encode f).drop 50 = f.username := by
    rw [encode_hello]
    exact List.drop_left' (by simp [f.clientPub.property, f.clientRandom.property])
  refine parseHelloPayload_eq_ok.mpr ⟨by omega, by omega, ?_⟩
  rw [hbe, slice, slice, slice, hname, Nat.add_sub_cancel_left]
  exact Prod.ext hpub (Prod.ext hrandom rfl)

theorem hello_recovers_iff : hello.Recovers f ↔ f.username.length < 65536 := by
  have hparse := parse_hello f
  constructor
  · intro h
    have heq := Except.ok.inj (hparse.symm.trans h)
    have hlen := congrArg (fun v => v.2.2.length) heq
    simp only [hello, List.length_map, List.length_take] at hlen
    omega
  · intro h
    rw [Nat.mod_eq_of_lt h, List.take_length] at hparse
    exact hparse

theorem length_slice {payload : Bytes} {i j : Nat} (h : j ≤ payload.length) :
    (slice payload i j).length = j - i := by
  rw [slice, List.length_take, List.length_drop]
  omega

theorem encode_parts {payload : Bytes} (hlen : payload.length = 50 + beNat (slice payload 48 50))
    (hpub : (slice payload 0 32).length = 32) (hrandom : (slice payload 32 48).length = 16) :
    hello.encode ⟨⟨slice payload 0 32, hpub⟩, ⟨slice payload 32 48, hrandom⟩, payload.drop 50⟩ =
      payload := by
  have hwidth : (slice payload 48 50).length = 2 := length_slice (by omega)
  have hname : (payload.drop 50).length = beNat (slice payload 48 50) := by
    rw [List.length_drop]
    omega
  have hsmall : beNat (slice payload 48 50) < 65536 := by
    have hlt := ByteCodec.beNat_lt (slice payload 48 50)
    rwa [hwidth] at hlt
  have hfield : beBytes 2 ((payload.drop 50).length % 65536) = slice payload 48 50 := by
    rw [hname, Nat.mod_eq_of_lt hsmall]
    exact ByteCodec.beBytes_beNat_of_length hwidth
  have hcut : Records.cut [32, 16, 2] payload =
      [slice payload 0 32, slice payload 32 48, slice payload 48 50] := by
    simp only [Records.cut, slice, List.drop_drop]
    rfl
  rw [encode_hello, hfield, ← hcut, Records.flatten_cut]
  exact List.take_append_drop 50 payload

/-- What follows the name is not in the encoding of what was read. -/
theorem hello_covered_iff (payload : Bytes) :
    hello.Covered payload ↔ payload.length ≤ 50 + beNat (slice payload 48 50) := by
  generalize hulen : beNat (slice payload 48 50) = ulen
  constructor
  · intro h
    by_contra hlong
    obtain ⟨f, hview, hencode⟩ := h _ (parseHelloPayload_eq_ok.mpr ⟨by omega, by omega, rfl⟩)
    rw [hulen] at hview
    have hname := congrArg (fun v => v.2.2.length) hview
    simp only [hello, List.length_map] at hname
    rw [length_slice (by omega)] at hname
    have hlen := length_hello f
    rw [hencode] at hlen
    omega
  · intro hle v h
    obtain ⟨hshort, hname, rfl⟩ := parseHelloPayload_eq_ok.mp h
    rw [hulen] at hname
    have hpub : (slice payload 0 32).length = 32 := length_slice (by omega)
    have hrandom : (slice payload 32 48).length = 16 := length_slice (by omega)
    refine ⟨_, ?_, encode_parts (by omega) hpub hrandom⟩
    have htail : slice payload 50 (50 + ulen) = payload.drop 50 := by
      rw [slice, List.take_of_length_le]
      rw [List.length_drop]
      omega
    rw [hulen, htail]
    rfl

end Hello

/-! The other four have a fixed layout: pieces of the widths `ws`, and a check of the length. -/

namespace Payload

variable {φ ρ ε : Type}

/-- The fields are the pieces; whatever length is accepted, the reader cuts off the pieces. -/
structure Fixed (p : Payload φ ρ ε) (ws : List Nat) (accepts : Nat → Prop)
    (pieces : φ → List Bytes) (assemble : List Bytes → ρ) : Prop where
  encode_eq : ∀ f, p.encode f = (pieces f).flatten
  view_eq : ∀ f, p.view f = assemble (pieces f)
  widths : ∀ f, (pieces f).map List.length = ws
  complete : ∀ ls, ls.map List.length = ws → ∃ f, pieces f = ls
  decode_iff : ∀ payload v, p.decode payload = .ok v ↔
    accepts payload.length ∧ assemble (Records.cut ws payload) = v
  sum_accepted : accepts ws.sum
  sum_le : ∀ n, accepts n → ws.sum ≤ n

namespace Fixed

variable {p : Payload φ ρ ε} {ws : List Nat} {accepts : Nat → Prop} {pieces : φ → List Bytes}
  {assemble : List Bytes → ρ}

theorem length_encode (h : Fixed p ws accepts pieces assemble) (f : φ) :
    (p.encode f).length = ws.sum := by
  rw [h.encode_eq, List.length_flatten, h.widths]

theorem recovers (h : Fixed p ws accepts pieces assemble) (f : φ) : p.Recovers f := by
  have hcut := Records.cut_flatten (pieces f)
  rw [h.widths, ← h.encode_eq] at hcut
  refine (h.decode_iff _ _).mpr ⟨?_, ?_⟩
  · rw [h.length_encode]
    exact h.sum_accepted
  · rw [hcut, h.view_eq]

/-- Nothing is lost exactly when nothing follows the last piece. -/
theorem covered_iff (h : Fixed p ws accepts pieces assemble) (payload : Bytes) :
    p.Covered payload ↔ (accepts payload.length → payload.length = ws.sum) := by
  constructor
  · intro hcovered haccepts
    obtain ⟨f, -, rfl⟩ := hcovered _ ((h.decode_iff payload _).mpr ⟨haccepts, rfl⟩)
    exact h.length_encode f
  · intro hlen v hv
    obtain ⟨haccepts, hv⟩ := (h.decode_iff payload v).mp hv
    have hsum := h.sum_le _ haccepts
    obtain ⟨f, hf⟩ := h.complete _ (Records.map_length_cut hsum)
    refine ⟨f, ?_, ?_⟩
    · rw [h.view_eq, hf, hv]
    · rw [h.encode_eq, hf]
      exact (Records.flatten_cut_eq_iff hsum).mpr (hlen haccepts)

end Fixed

end Payload

section Fixed

theorem client_slice_eq {payload : Bytes} {i n : Nat} (h : i + n ≤ payload.length) :
    Client.Constants.slice payload i n = .ok ((payload.drop i).take n) :=
  if_neg (by omega)

theorem serverChallenge_fixed : serverChallenge.Fixed [32, 16, 64] (112 ≤ ·)
    (fun f => [f.serverPub.val, f.serverRandom.val, f.signature.val])
    (fun ls => (ls.getD 0 [], ls.getD 1 [], ls.getD 2 [])) where
  encode_eq f := by simp [serverChallenge]
  view_eq f := rfl
  widths f := by simp [f.serverPub.property, f.serverRandom.property, f.signature.property]
  complete ls h := by
    rcases ls with _ | ⟨a, _ | ⟨b, _ | ⟨c, _ | ⟨d, ls⟩⟩⟩⟩ <;> simp at h
    exact ⟨⟨⟨a, h.1⟩, ⟨b, h.2.1⟩, ⟨c, h.2.2⟩⟩, rfl⟩
  decode_iff payload v := by
    refine Effects.eq_ok_iff_of_check (fun hlen => ?_)
      fun hlen => ⟨_, Effects.except_ensure_false hlen⟩
    refine (Effects.except_ensure_true hlen).trans ?_
    rw [client_slice_eq (by omega), client_slice_eq (by omega), client_slice_eq (by omega)]
    simp only [Records.cut, List.drop_drop]
    rfl
  sum_accepted := le_refl 112
  sum_le n h := h

theorem be32_complete {b : Bytes} (h : b.length = 4) : be32 (UInt32.ofNat (beNat b)) = b := by
  have hlt := ByteCodec.beNat_lt b
  rw [h] at hlt
  rw [Client.Constants.be32_eq, UInt32.toNat_ofNat_of_lt' hlt, ByteCodec.beBytes_beNat_of_length h]

theorem beNat_be32 (v : UInt32) : beNat (be32 v) = v.toNat := by
  rw [Client.Constants.be32_eq]
  exact ByteCodec.beNat_beBytes v.toNat_lt

theorem clientProof1_fixed : clientProof1.Fixed [25, 32, 32, 4, 4, 32] (· = 129)
    (fun f => [f.licenseStruct.val, f.vmDigest.val, f.vmStateHash.val, be32 f.vmPathId,
      be32 f.vmHaltCode, f.proof1.val])
    (fun ls => {
      licenseStruct := ls.getD 0 []
      vm := ⟨ls.getD 1 [], ls.getD 2 [], beNat (ls.getD 3 []), beNat (ls.getD 4 [])⟩
      proof1 := ls.getD 5 [] }) where
  encode_eq f := by simp [clientProof1]
  view_eq f := by
    simp only [clientProof1, List.getD_cons_zero, List.getD_cons_succ, beNat_be32]
  widths f := by
    simp [f.licenseStruct.property, f.vmDigest.property, f.vmStateHash.property,
      f.proof1.property, be32]
  complete ls h := by
    rcases ls with _ | ⟨a, _ | ⟨b, _ | ⟨c, _ | ⟨d, _ | ⟨e, _ | ⟨g, _ | ⟨i, ls⟩⟩⟩⟩⟩⟩⟩ <;> simp at h
    obtain ⟨ha, hb, hc, hd, he, hg⟩ := h
    refine ⟨⟨⟨a, ha⟩, ⟨b, hb⟩, ⟨c, hc⟩, UInt32.ofNat (beNat d), UInt32.ofNat (beNat e), ⟨g, hg⟩⟩, ?_⟩
    simp only [be32_complete hd, be32_complete he]
  decode_iff payload v := by
    refine Effects.eq_ok_iff_of_check (fun hlen => ?_)
      fun hlen => ⟨_, Effects.except_ensure_false hlen⟩
    refine (Effects.except_ensure_true hlen).trans ?_
    simp only [Records.cut, List.drop_drop]
    rfl
  sum_accepted := rfl
  sum_le n h := h.ge

theorem serverProof1_fixed : serverProof1.Fixed [32, 16] (· = 48)
    (fun f => [f.serverProof1.val, f.serverChallenge2.val])
    (fun ls => (ls.getD 0 [], ls.getD 1 [])) where
  encode_eq f := by simp [serverProof1]
  view_eq f := rfl
  widths f := by simp [f.serverProof1.property, f.serverChallenge2.property]
  complete ls h := by
    rcases ls with _ | ⟨a, _ | ⟨b, _ | ⟨c, ls⟩⟩⟩ <;> simp at h
    exact ⟨⟨⟨a, h.1⟩, ⟨b, h.2⟩⟩, rfl⟩
  decode_iff payload v := by
    refine Effects.eq_ok_iff_of_check (fun hlen => ?_)
      fun hlen => ⟨_, Effects.except_ensure_false hlen⟩
    refine (Effects.except_ensure_true hlen).trans ?_
    rw [client_slice_eq (by omega), client_slice_eq (by omega)]
    rfl
  sum_accepted := rfl
  sum_le n h := h.ge

theorem clientProof2_fixed : clientProof2.Fixed [32] (· = 32) (fun f => [f.val])
    (fun ls => ls.getD 0 []) where
  encode_eq f := by simp [clientProof2]
  view_eq f := rfl
  widths f := by simp [f.property]
  complete ls h := by
    rcases ls with _ | ⟨a, _ | ⟨b, ls⟩⟩ <;> simp at h
    exact ⟨⟨a, h⟩, rfl⟩
  decode_iff payload v := by
    refine Effects.eq_ok_iff_of_check (fun hlen => ?_)
      fun hlen => ⟨_, Effects.except_ensure_false hlen⟩
    refine (Effects.except_ensure_true hlen).trans ?_
    rw [Records.cut, List.getD_cons_zero, List.take_of_length_le hlen.le]
    rfl
  sum_accepted := rfl
  sum_le n h := h.ge

end Fixed

/-- Each receiver recovers what was sent, names up to the reach of the length field, and accepts
only what can be sent. -/
structure PayloadsExact : Prop where
  hello : (∀ f : HelloFields, f.username.length < 65536 → hello.Recovers f) ∧
    ∀ payload, hello.Covered payload
  serverChallenge : (∀ f, serverChallenge.Recovers f) ∧ ∀ payload, serverChallenge.Covered payload
  clientProof1 : (∀ f, clientProof1.Recovers f) ∧ ∀ payload, clientProof1.Covered payload
  serverProof1 : (∀ f, serverProof1.Recovers f) ∧ ∀ payload, serverProof1.Covered payload
  clientProof2 : (∀ f, clientProof2.Recovers f) ∧ ∀ payload, clientProof2.Covered payload

/-- What is read is what was sent, except that a HELLO or a SERVER_CHALLENGE may have more behind
it; and a name must fit the length field. -/
theorem payloads_exact_iff (payload : Bytes) (sentHello : HelloFields) (challenge : ChallengeFields)
    (proof₁ : ClientProof1Fields) (serverProof : ServerProof1Fields) (proof₂ : BytesN 32) :
    (hello.Recovers sentHello ↔ sentHello.username.length < 65536) ∧
    (hello.Covered payload ↔ payload.length ≤ 50 + beNat (slice payload 48 50)) ∧
    serverChallenge.Recovers challenge ∧
    (serverChallenge.Covered payload ↔ payload.length ≤ 112) ∧
    clientProof1.Recovers proof₁ ∧ clientProof1.Covered payload ∧
    serverProof1.Recovers serverProof ∧ serverProof1.Covered payload ∧
    clientProof2.Recovers proof₂ ∧ clientProof2.Covered payload := by
  have hchallenge : serverChallenge.Covered payload ↔ payload.length ≤ 112 := by
    rw [serverChallenge_fixed.covered_iff]
    change (112 ≤ payload.length → payload.length = 112) ↔ _
    omega
  exact ⟨hello_recovers_iff sentHello, hello_covered_iff payload,
    serverChallenge_fixed.recovers challenge, hchallenge, clientProof1_fixed.recovers proof₁,
    (clientProof1_fixed.covered_iff payload).mpr id, serverProof1_fixed.recovers serverProof,
    (serverProof1_fixed.covered_iff payload).mpr id, clientProof2_fixed.recovers proof₂,
    (clientProof2_fixed.covered_iff payload).mpr id⟩

def helloWithTail : Bytes := ByteCodec.zeros 48 ++ [0x00, 0x01, 0x61] ++ [0x58]

theorem payloads_exact_counterexample :
    parseHelloPayload helloWithTail = .ok (ByteCodec.zeros 32, ByteCodec.zeros 16, [0x61]) ∧
      ¬ hello.Covered helloWithTail ∧ ¬ serverChallenge.Covered (ByteCodec.zeros 113) ∧
      ¬ PayloadsExact := by
  have htail : ¬ hello.Covered helloWithTail := by
    rw [hello_covered_iff]
    decide
  refine ⟨parseHelloPayload_eq_ok.mpr (by decide), htail, ?_, fun h => htail (h.hello.2 _)⟩
  rw [serverChallenge_fixed.covered_iff]
  intro h
  exact absurd (h (by decide)) (by decide)

end RankGate.Wire.Payloads
