/- Module: RankGate/Client/Protocol
   source: client/src/net/protocol.cpp
   digest: The client's session, from HELLO to the unwrapped flag, over whatever answers its frames. -/

import RankGate.Client.BinaryFrame
import RankGate.Client.ProofBuilder

set_option autoImplicit false
set_option relaxedAutoImplicit false

namespace RankGate.Client.Protocol

open BinaryFrame (Frame Transcript)
open ByteCodec (Bytes BytesN zeros)
open Constants (be16 be32 slice)
open Effects (ensure)
open RankGate.Crypto (Hashes Primitives)
open Vm (VMResult)

structure Keys where
  c2s : Bytes
  s2c : Bytes
  mac : Bytes
  proof1 : Bytes
  sproof1 : Bytes
  proof2 : Bytes
  /-- `seal` in the source -/
  sealKey : Bytes
  deriving DecidableEq

def deriveKeys (H : Hashes) (prk : Bytes) : Keys :=
  let e := fun info => CryptoBox.hkdfExpand H prk info 32
  ⟨e Constants.hkdfC2s, e Constants.hkdfS2c, e Constants.hkdfMac, e Constants.hkdfProof1,
    e Constants.hkdfSproof1, e Constants.hkdfProof2, e Constants.hkdfSeal⟩

def bootstrapMacKey (H : Hashes) : Bytes := H.sha256 Constants.bootstrapMacLabel

def plainSeal (H : Hashes) (t : Transcript) (macKey : Bytes) (mt : UInt8) (sid : Bytes)
    (counter : UInt64) (nonce payload : Bytes) : Frame × Transcript :=
  t.sealFrame H macKey mt sid counter nonce payload (zeros Constants.szAuthtag)

def plainOpen (H : Hashes) (t : Transcript) (macKey : Bytes) (f : Frame) :
    Except String (Bytes × Transcript) := do
  let t ← t.openFrame H macKey f
  return (f.encryptedPayload, t)

/-- The header needs only the length of the payload. -/
def aeadSeal (P : Primitives) (t : Transcript) (macKey aeadKey : Bytes) (mt : UInt8) (sid : Bytes)
    (counter : UInt64) (nonce plaintext : Bytes) : Frame × Transcript :=
  let aad := Frame.header ⟨mt, sid, counter, nonce, zeros plaintext.length, [], []⟩
  let (ct, tag) := CryptoBox.aeadEncrypt P aeadKey nonce plaintext aad
  t.sealFrame P.toHashes macKey mt sid counter nonce ct tag

def aeadOpen (P : Primitives) (t : Transcript) (macKey aeadKey : Bytes) (f : Frame) :
    Except String (Bytes × Transcript) := do
  let t ← t.openFrame P.toHashes macKey f
  let plaintext ← CryptoBox.aeadDecrypt P aeadKey f.nonce f.encryptedPayload f.authTag f.header
  return (plaintext, t)

/-- What one session draws, in the order of the calls. -/
structure Draws where
  priv : BytesN 32
  clientRandom : BytesN 16
  sessionId : BytesN 16
  helloNonce : BytesN 24
  proof1Nonce : BytesN 24
  proof2Nonce : BytesN 24

def helloPayload (P : Primitives) (d : Draws) (usernameNorm : Bytes) : Bytes :=
  P.x25519Base d.priv.val ++ d.clientRandom.val ++ be16 (UInt16.ofNat usernameNorm.length) ++
    usernameNorm

def hello (P : Primitives) (d : Draws) (usernameNorm : Bytes) : Frame × Transcript :=
  plainSeal P.toHashes (Transcript.init P.toHashes) (bootstrapMacKey P.toHashes) Constants.mtHello
    d.sessionId.val 1 d.helloNonce.val (helloPayload P d usernameNorm)

/-- What SERVER_CHALLENGE carries besides its signature. -/
structure Challenge where
  serverPub : Bytes
  serverRandom : Bytes
  deriving DecidableEq

def openChallenge (P : Primitives) (serverSignPk : Bytes) (t : Transcript) (resp : Bytes) :
    Except String (Challenge × Transcript) := do
  let t1 := t.state
  let chal ← Frame.parse resp
  let (chalPayload, t) ← plainOpen P.toHashes t (bootstrapMacKey P.toHashes) chal
  ensure (32 + 16 + 64 ≤ chalPayload.length) "server challenge too short"
  let serverPub ← slice chalPayload 0 32
  let serverRandom ← slice chalPayload 32 16
  let signature ← slice chalPayload 48 64
  let signedData := Constants.signContext ++ t1 ++ serverPub ++ serverRandom
  ensure (CryptoBox.ed25519Verify P serverSignPk signedData signature = true)
    "server challenge signature invalid"
  return (⟨serverPub, serverRandom⟩, t)

structure Session where
  salt : Bytes
  keys : Keys
  vmres : VMResult
  deriving DecidableEq

def establish (P : Primitives) (d : Draws) (usernameNorm licenseStruct : Bytes) (chal : Challenge)
    (t : Transcript) : Except String Session := do
  let salt := t.state
  let shared ← CryptoBox.x25519Shared P d.priv.val chal.serverPub
  let prk := CryptoBox.hkdfExtract P.toHashes salt shared
  let keys := deriveKeys P.toHashes prk
  let vmres ← Vm.runVm P.toHashes usernameNorm licenseStruct chal.serverRandom d.sessionId.val salt
    chal.serverRandom
  return ⟨salt, keys, vmres⟩

def proof1Payload (H : Hashes) (d : Draws) (usernameNorm licenseStruct : Bytes) (chal : Challenge)
    (s : Session) : Bytes :=
  let proof1 := ProofBuilder.computeProof1 H s.keys.proof1 usernameNorm licenseStruct s.vmres
    chal.serverRandom d.sessionId.val s.salt
  licenseStruct ++ s.vmres.vmDigest ++ s.vmres.vmStateHash ++ be32 s.vmres.vmPathId ++
    be32 s.vmres.vmHaltCode ++ proof1

def clientProof1 (P : Primitives) (d : Draws) (usernameNorm licenseStruct : Bytes)
    (chal : Challenge) (s : Session) (t : Transcript) : Frame × Transcript :=
  aeadSeal P t s.keys.mac s.keys.c2s Constants.mtClientProof1 d.sessionId.val 2 d.proof1Nonce.val
    (proof1Payload P.toHashes d usernameNorm licenseStruct chal s)

def openServerProof1 (P : Primitives) (s : Session) (t : Transcript) (resp : Bytes) :
    Except String (Bytes × Transcript) := do
  let t3 := t.state
  let sp ← Frame.parse resp
  let (spPayload, t) ← aeadOpen P t s.keys.mac s.keys.s2c sp
  ensure (spPayload.length = 48) "bad server proof1 length"
  let serverProof1 ← slice spPayload 0 32
  let serverChallenge2 ← slice spPayload 32 16
  let sp1In := Constants.sproof1Label ++ t3 ++ s.vmres.vmDigest ++ serverChallenge2
  ensure (CryptoBox.ctEqual serverProof1 (P.hmacSha256 s.keys.sproof1 sp1In) = true)
    "server proof1 invalid"
  return (serverChallenge2, t)

def clientProof2 (P : Primitives) (d : Draws) (chal : Challenge) (s : Session)
    (serverChallenge2 : Bytes) (t : Transcript) : Frame × Transcript :=
  let proof2 := ProofBuilder.computeProof2 P.toHashes s.keys.proof2 serverChallenge2
    chal.serverRandom chal.serverPub s.vmres.vmDigest s.salt
  aeadSeal P t s.keys.mac s.keys.c2s Constants.mtClientProof2 d.sessionId.val 3 d.proof2Nonce.val
    proof2

/-- Both layers of the sealed flag; the inner key and its additional data are T5. -/
def openSealedFlag (P : Primitives) (s : Session) (t : Transcript) (resp : Bytes) :
    Except String Bytes := do
  let t5 := t.state
  let sealedFrame ← Frame.parse resp
  let (innerBlob, _) ← aeadOpen P t s.keys.mac s.keys.s2c sealedFrame
  ensure (Constants.szNonce + Constants.szAuthtag ≤ innerBlob.length) "sealed blob too short"
  let sealNonce ← slice innerBlob 0 Constants.szNonce
  let ctLen := innerBlob.length - Constants.szNonce - Constants.szAuthtag
  let innerCt ← slice innerBlob Constants.szNonce ctLen
  let innerTag ← slice innerBlob (Constants.szNonce + ctLen) Constants.szAuthtag
  let kSeal := CryptoBox.hkdf P.toHashes t5 s.keys.sealKey Constants.sealInfo 32
  CryptoBox.aeadDecrypt P kSeal sealNonce innerCt innerTag t5

inductive Endpoint
  | hello
  | exchange
  | finalize
  deriving DecidableEq

/-- What the client asks of the network, behind HTTP, base64 and JSON. -/
structure Http (m : Type → Type) where
  /-- `parse_pubkey` of the key request -/
  publicKey : ExceptT String m Bytes
  /-- `decode_response` of the posted frame; throws on a rejection -/
  post : Endpoint → Bytes → ExceptT String m Bytes

def runSession {m : Type → Type} [Monad m] (P : Primitives) (http : Http m) (d : Draws)
    (usernameNorm licenseStruct : Bytes) : ExceptT String m Bytes := do
  let serverSignPk ← http.publicKey
  let (helloFrame, t) := hello P d usernameNorm
  let resp ← http.post .hello helloFrame.serialize
  let (chal, t) ← openChallenge P serverSignPk t resp
  let s ← establish P d usernameNorm licenseStruct chal t
  let (p1, t) := clientProof1 P d usernameNorm licenseStruct chal s t
  let resp ← http.post .exchange p1.serialize
  let (serverChallenge2, t) ← openServerProof1 P s t resp
  let (p2, t) := clientProof2 P d chal s serverChallenge2 t
  let resp ← http.post .finalize p2.serialize
  openSealedFlag P s t resp

end RankGate.Client.Protocol
