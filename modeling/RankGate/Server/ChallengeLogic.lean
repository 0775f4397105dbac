/- Module: RankGate/Server/ChallengeLogic
   source: server/app/challenge_logic.py
   digest: The three handlers, with the bytes they draw from the operating system as arguments. -/

import RankGate.Server.Protocol
import RankGate.Server.Sessions
import RankGate.Server.Verifier

set_option autoImplicit false
set_option relaxedAutoImplicit false

namespace RankGate.Server.ChallengeLogic

open ByteCodec (Bytes BytesN ascii zeros beNat)
open Effects (ensure)
open Protocol (Frame Transcript)
open RankGate.Crypto (Hashes Primitives)
open RankGate.Server.Config (Env Failure)
open Sessions (Keys Session SessionM SessionStore HandlerM onSession)
open Verifier (slice)
open VmReference (VMResult)

def bootstrapMacKey (H : Hashes) : Bytes := H.sha256 Config.bootstrapMacLabel

def deriveKeys (H : Hashes) (prk : Bytes) : Except Failure Keys := do
  let e := CryptoBox.hkdfExpand H prk
  return {
    c2s := ← e Config.hkdfC2s 32
    s2c := ← e Config.hkdfS2c 32
    mac := ← e Config.hkdfMac 32
    proof1 := ← e Config.hkdfProof1 32
    sproof1 := ← e Config.hkdfSproof1 32
    proof2 := ← e Config.hkdfProof2 32
    sealKey := ← e Config.hkdfSeal 32 }

def restoreTranscript (state : Bytes) : Transcript := ⟨state⟩

def plainSeal (H : Hashes) (t : Transcript) (macKey : Bytes) (mt : Nat) (sid : Bytes)
    (counter : Nat) (nonce payload : Bytes) : Except Failure (Frame × Transcript) :=
  t.sealFrame H macKey mt sid counter nonce payload (zeros Config.szAuthtag)

def plainOpen (H : Hashes) (t : Transcript) (macKey : Bytes) (frame : Frame) :
    Except Failure (Bytes × Transcript) := do
  let t ← t.openFrame H macKey frame
  return (frame.encryptedPayload, t)

def aeadSeal (P : Primitives) (t : Transcript) (macKey aeadKey : Bytes) (mt : Nat) (sid : Bytes)
    (counter : Nat) (nonce plaintext : Bytes) : Except Failure (Frame × Transcript) := do
  let aad ← Frame.header ⟨mt, sid, counter, nonce, zeros plaintext.length, [], []⟩
  let (ct, tag) := CryptoBox.aeadEncrypt P aeadKey nonce plaintext aad
  t.sealFrame P.toHashes macKey mt sid counter nonce ct tag

def aeadOpen (P : Primitives) (t : Transcript) (macKey aeadKey : Bytes) (frame : Frame) :
    Except Failure (Bytes × Transcript) := do
  let t ← t.openFrame P.toHashes macKey frame
  let aad ← frame.header
  match CryptoBox.aeadDecrypt P aeadKey frame.nonce frame.encryptedPayload frame.authTag aad with
  | .ok plaintext => return (plaintext, t)
  | .error exc => throw (.protocolError "aead" ("decrypt failed: " ++ exc))

def parseHelloPayload (payload : Bytes) : Except Failure (Bytes × Bytes × List Nat) := do
  ensure (32 + 16 + 2 ≤ payload.length) (.protocolError "hello" "short hello payload")
  let clientPub := slice payload 0 32
  let clientRandom := slice payload 32 48
  let ulen := beNat (slice payload 48 50)
  let unameRaw := slice payload 50 (50 + ulen)
  ensure (unameRaw.length = ulen) (.protocolError "hello" "bad username length")
  return (clientPub, clientRandom, unameRaw.map UInt8.toNat)

/-! `handle_hello`: HELLO to SERVER_CHALLENGE. -/

structure HelloDraws where
  serverPriv : BytesN 32
  serverRandom : BytesN 16
  nonce : BytesN 24

/-- From the opened frame to the normalised name: transcript, client key, name. -/
def openHello (P : Primitives) (frame : Frame) : Except Failure (Transcript × Bytes × Bytes) := do
  let t := Transcript.init P.toHashes
  let (payload, t) ← plainOpen P.toHashes t (bootstrapMacKey P.toHashes) frame
  let (clientPub, _, unameRaw) ← parseHelloPayload payload
  let usernameNorm ← Verifier.normalizeUsername P unameRaw
  return (t, clientPub, usernameNorm)

def x25519Shared (P : Primitives) (priv peerPub : Bytes) : Except Failure Bytes :=
  match P.x25519Shared priv peerPub with
  | some shared => .ok shared
  | none => .error .runtimeError

def challengePayload (P : Primitives) (env : Env) (t : Transcript)
    (serverPub serverRandom : Bytes) : Bytes :=
  let signed := Config.signContext ++ t.state ++ serverPub ++ serverRandom
  let signature := P.ed25519Sign (Config.serverSignSeed P env) signed
  serverPub ++ serverRandom ++ signature

def helloBody (P : Primitives) (env : Env) (d : HelloDraws) (frame : Frame) : SessionM Bytes := do
  Sessions.acceptClientCounter frame.counter
  let (t, clientPub, usernameNorm) ← openHello P frame
  modify fun s => { s with usernameNorm }
  modify fun s => { s with clientEphPub := clientPub }
  let serverPriv := d.serverPriv.val
  let serverPub := P.x25519Base serverPriv
  let serverRandom := d.serverRandom.val
  let shared ← x25519Shared P serverPriv clientPub
  let payload := challengePayload P env t serverPub serverRandom
  let counter ← Sessions.nextServerCounter
  let (out, t) ← plainSeal P.toHashes t (bootstrapMacKey P.toHashes) Config.mtServerChallenge
    frame.sessionId counter d.nonce.val payload
  let salt := t.state
  let prk := CryptoBox.hkdfExtract P.toHashes salt shared
  modify fun s => { s with prk }
  let keys ← deriveKeys P.toHashes prk
  modify fun s => { s with
    keys := some keys, transcriptState := t.state, salt, serverRandom, serverEphPub := serverPub }
  out.serialize

def handleHello (P : Primitives) (env : Env) (d : HelloDraws) (raw : Bytes) : HandlerM Bytes := do
  let frame ← Frame.parse raw
  ensure (frame.messageType = Config.mtHello) (.protocolError "hello" "unexpected message type")
  let sess ← SessionStore.create frame.sessionId
  onSession frame.sessionId sess (helloBody P env d frame)

/-! `handle_exchange`: CLIENT_PROOF_1 to SERVER_PROOF_1. -/

structure ExchangeDraws where
  serverChallenge2 : BytesN 16
  nonce : BytesN 24

/-- The session's keys. On the empty dict the first lookup is `mac`, and it raises. -/
def sessionKeys (sess : Session) : Except Failure Keys :=
  match sess.keys with
  | some keys => .ok keys
  | none => .error (.keyError "mac")

structure Proof1Payload where
  licenseStruct : Bytes
  vm : VMResult
  proof1 : Bytes
  deriving DecidableEq

def parseProof1 (payload : Bytes) : Except Failure Proof1Payload := do
  ensure (payload.length = 25 + 32 + 32 + 4 + 4 + 32)
    (.protocolError "exchange" "bad proof1 payload length")
  return {
    licenseStruct := slice payload 0 25
    vm := {
      vmDigest := slice payload 25 57
      vmStateHash := slice payload 57 89
      vmPathId := beNat (slice payload 89 93)
      vmHaltCode := beNat (slice payload 93 97) }
    proof1 := slice payload 97 129 }

/-- Stages 2, 4 and 3, on the fields the session holds. -/
def validateStages (P : Primitives) (env : Env) (sess : Session) (keys : Keys)
    (p : Proof1Payload) : Except Failure Unit := do
  let _ ← Verifier.validateLicense P env sess.usernameNorm p.licenseStruct
  Verifier.validateVm P env sess.usernameNorm p.licenseStruct sess.serverRandom sess.sessionId
    sess.salt sess.serverRandom p.vm
  Verifier.validateProof1 P.toHashes keys.proof1 p.proof1 sess.usernameNorm p.licenseStruct
    p.vm.vmDigest p.vm.vmStateHash p.vm.vmPathId p.vm.vmHaltCode sess.serverRandom sess.sessionId
    sess.salt

/-- The handler up to the last check: keys, transcript after the client's frame, proof payload. -/
def openProof1 (P : Primitives) (env : Env) (sess : Session) (frame : Frame) :
    Except Failure (Keys × Transcript × Proof1Payload) := do
  let t := restoreTranscript sess.transcriptState
  let keys ← sessionKeys sess
  let (payload, t) ← aeadOpen P t keys.mac keys.c2s frame
  let p ← parseProof1 payload
  validateStages P env sess keys p
  return (keys, t, p)

def serverProof1Payload (H : Hashes) (keys : Keys) (t : Transcript)
    (vmDigest serverChallenge2 : Bytes) : Bytes :=
  H.hmacSha256 keys.sproof1 (ascii "RG6-SPROOF1/v6" ++ t.state ++ vmDigest ++ serverChallenge2) ++
    serverChallenge2

def exchangeBody (P : Primitives) (env : Env) (d : ExchangeDraws) (frame : Frame) :
    SessionM Bytes := do
  Sessions.acceptClientCounter frame.counter
  let sess ← get
  let (keys, t, p) ← openProof1 P env sess frame
  let vmDigest := p.vm.vmDigest
  let serverChallenge2 := d.serverChallenge2.val
  let payload := serverProof1Payload P.toHashes keys t vmDigest serverChallenge2
  let counter ← Sessions.nextServerCounter
  let (out, t) ← aeadSeal P t keys.mac keys.s2c Config.mtServerProof1 sess.sessionId counter
    d.nonce.val payload
  modify fun s => { s with
    transcriptState := t.state, serverChallenge2, vmDigest, proof1Ok := true }
  out.serialize

def handleExchange (P : Primitives) (env : Env) (d : ExchangeDraws) (raw : Bytes) :
    HandlerM Bytes := do
  let frame ← Frame.parse raw
  ensure (frame.messageType = Config.mtClientProof1)
    (.protocolError "exchange" "unexpected message type")
  let sess ← SessionStore.get frame.sessionId
  onSession frame.sessionId sess (exchangeBody P env d frame)

/-! `handle_finalize`: CLIENT_PROOF_2 or FINALIZE to SEALED_FLAG. -/

structure FinalizeDraws where
  sealNonce : BytesN 24
  nonce : BytesN 24

def openProof2 (P : Primitives) (sess : Session) (frame : Frame) :
    Except Failure (Keys × Transcript) := do
  let t := restoreTranscript sess.transcriptState
  let keys ← sessionKeys sess
  let (proof2, t) ← aeadOpen P t keys.mac keys.c2s frame
  ensure (proof2.length = 32) (.protocolError "finalize" "bad proof2 payload length")
  Verifier.validateProof2 P.toHashes keys.proof2 proof2 sess.serverChallenge2 sess.serverRandom
    sess.serverEphPub sess.vmDigest sess.salt
  return (keys, t)

def innerBlob (P : Primitives) (keys : Keys) (finalTranscript sealNonce : Bytes) :
    Except Failure Bytes := do
  let kSeal ← CryptoBox.hkdf P.toHashes finalTranscript keys.sealKey (ascii "RG6 seal") 32
  let (innerCt, innerTag) :=
    CryptoBox.aeadEncrypt P kSeal sealNonce Config.flag finalTranscript
  return sealNonce ++ innerCt ++ innerTag

def finalizeBody (P : Primitives) (d : FinalizeDraws) (frame : Frame) : SessionM Bytes := do
  Sessions.acceptClientCounter frame.counter
  let sess ← get
  ensure (sess.proof1Ok = true) (.proofError "finalize" "proof1 not completed")
  let (keys, t) ← openProof2 P sess frame
  let blob ← innerBlob P keys t.state d.sealNonce.val
  let counter ← Sessions.nextServerCounter
  let (out, t) ← aeadSeal P t keys.mac keys.s2c Config.mtSealedFlag sess.sessionId counter
    d.nonce.val blob
  modify fun s => { s with transcriptState := t.state }
  out.serialize

def handleFinalize (P : Primitives) (d : FinalizeDraws) (raw : Bytes) : HandlerM Bytes := do
  let frame ← Frame.parse raw
  ensure (frame.messageType = Config.mtClientProof2 ∨ frame.messageType = Config.mtFinalize)
    (.protocolError "finalize" "unexpected message type")
  let sess ← SessionStore.get frame.sessionId
  onSession frame.sessionId sess (finalizeBody P d frame)

end RankGate.Server.ChallengeLogic
