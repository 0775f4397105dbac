/- Module: RankGate/Tools/Solver
   source: tools/solve_full_challenge.py, server/app/crypto_box.py (ed25519_verify)
   digest: The reference solver: the client's part of the protocol on the server's own modules. -/

import RankGate.Client.Protocol
import RankGate.Server.Main

set_option autoImplicit false
set_option relaxedAutoImplicit false

namespace RankGate.Tools.Solver

open ByteCodec (Bytes ascii zeros)
open Effects (ensure)
open RankGate.Client.Protocol (Draws Endpoint)
open RankGate.Crypto (Hashes Primitives)
open RankGate.Server
open RankGate.Server.ChallengeLogic (aeadOpen aeadSeal bootstrapMacKey deriveKeys plainOpen plainSeal)
open RankGate.Server.Config (Env Failure toBytes)
open RankGate.Server.Protocol (Frame Transcript)
open RankGate.Server.Verifier (slice)
open RankGate.Server.VmReference (VMResult)

/-- What ends a solve: an exception of the server's modules, of a library, or the solver's own. -/
inductive Abort
  | raised (failure : Failure)
  | library (text : String)
  | runtimeError (text : String)
  deriving DecidableEq

def own {α : Type} (x : Except Failure α) : Except Abort α := x.mapError .raised

/-- `VerifyKey` and `verify` raise on a wrong length, and everything raised is a refusal. -/
def ed25519Verify (P : Primitives) (verifyPub message signature : Bytes) : Bool :=
  if verifyPub.length ≠ 32 ∨ signature.length ≠ 64 then false
  else P.ed25519Verify verifyPub message signature

def helloPayload (P : Primitives) (d : Draws) (usernameNorm : Bytes) : Except Failure Bytes := do
  let ulen ← toBytes 2 usernameNorm.length
  return P.x25519Base d.priv.val ++ d.clientRandom.val ++ ulen ++ usernameNorm

def hello (P : Primitives) (d : Draws) (usernameNorm : Bytes) :
    Except Failure (Frame × Transcript) := do
  let payload ← helloPayload P d usernameNorm
  plainSeal P.toHashes (Transcript.init P.toHashes) (bootstrapMacKey P.toHashes) Config.mtHello
    d.sessionId.val 1 d.helloNonce.val payload

def openChallenge (P : Primitives) (env : Env) (t : Transcript) (resp : Bytes) :
    Except Abort ((Bytes × Bytes) × Transcript) := do
  let t1 := t.state
  let chal ← own (Frame.parse resp)
  let (chalPayload, t) ← own (plainOpen P.toHashes t (bootstrapMacKey P.toHashes) chal)
  let serverPub := slice chalPayload 0 32
  let serverRandom := slice chalPayload 32 48
  let signature := slice chalPayload 48 112
  let signed := Config.signContext ++ t1 ++ serverPub ++ serverRandom
  ensure (ed25519Verify P (Config.serverSignPk P env) signed signature = true)
    (.runtimeError "server challenge signature invalid")
  return ((serverPub, serverRandom), t)

structure Session where
  salt : Bytes
  keys : Sessions.Keys
  vmres : VMResult
  deriving DecidableEq

def establish (P : Primitives) (env : Env) (d : Draws)
    (usernameNorm licenseStruct serverPub serverRandom : Bytes) (t : Transcript) :
    Except Failure Session := do
  let salt := t.state
  let shared ← ChallengeLogic.x25519Shared P d.priv.val serverPub
  let prk := CryptoBox.hkdfExtract P.toHashes salt shared
  let keys ← deriveKeys P.toHashes prk
  let vmres ← VmReference.runVm P env usernameNorm licenseStruct serverRandom d.sessionId.val salt
    serverRandom
  return ⟨salt, keys, vmres⟩

def proof1Payload (H : Hashes) (d : Draws) (usernameNorm licenseStruct serverRandom : Bytes)
    (s : Session) : Except Failure Bytes := do
  let proof1 ← Verifier.computeProof1 H s.keys.proof1 usernameNorm licenseStruct s.vmres.vmDigest
    s.vmres.vmStateHash s.vmres.vmPathId s.vmres.vmHaltCode serverRandom d.sessionId.val s.salt
  let pathId ← toBytes 4 s.vmres.vmPathId
  let haltCode ← toBytes 4 s.vmres.vmHaltCode
  return licenseStruct ++ s.vmres.vmDigest ++ s.vmres.vmStateHash ++ pathId ++ haltCode ++ proof1

def clientProof1 (P : Primitives) (d : Draws) (usernameNorm licenseStruct serverRandom : Bytes)
    (s : Session) (t : Transcript) : Except Failure (Frame × Transcript) := do
  let payload ← proof1Payload P.toHashes d usernameNorm licenseStruct serverRandom s
  aeadSeal P t s.keys.mac s.keys.c2s Config.mtClientProof1 d.sessionId.val 2 d.proof1Nonce.val
    payload

def openServerProof1 (P : Primitives) (s : Session) (t : Transcript) (resp : Bytes) :
    Except Abort (Bytes × Transcript) := do
  let t3 := t.state
  let sp ← own (Frame.parse resp)
  let (spPayload, t) ← own (aeadOpen P t s.keys.mac s.keys.s2c sp)
  let serverProof1 := slice spPayload 0 32
  let serverChallenge2 := slice spPayload 32 48
  let expectedSp1 := P.hmacSha256 s.keys.sproof1
    (ascii "RG6-SPROOF1/v6" ++ t3 ++ s.vmres.vmDigest ++ serverChallenge2)
  ensure (serverProof1 = expectedSp1) (.runtimeError "server proof1 invalid")
  return (serverChallenge2, t)

def clientProof2 (P : Primitives) (d : Draws) (serverPub serverRandom : Bytes) (s : Session)
    (serverChallenge2 : Bytes) (t : Transcript) : Except Failure (Frame × Transcript) :=
  let proof2 := Verifier.computeProof2 P.toHashes s.keys.proof2 serverChallenge2 serverRandom
    serverPub s.vmres.vmDigest s.salt
  aeadSeal P t s.keys.mac s.keys.c2s Config.mtClientProof2 d.sessionId.val 3 d.proof2Nonce.val proof2

/-- Both layers of the sealed flag. No length is checked: `[24:-16]` of a short blob is empty. -/
def openSealedFlag (P : Primitives) (s : Session) (t : Transcript) (resp : Bytes) :
    Except Abort Bytes := do
  let t5 := t.state
  let sealedFrame ← own (Frame.parse resp)
  let (innerBlob, _) ← own (aeadOpen P t s.keys.mac s.keys.s2c sealedFrame)
  let sealNonce := slice innerBlob 0 Config.szNonce
  let innerCt := slice innerBlob Config.szNonce (innerBlob.length - 16)
  let innerTag := innerBlob.drop (innerBlob.length - 16)
  let kSeal ← own (CryptoBox.hkdf P.toHashes t5 s.keys.sealKey (ascii "RG6 seal") 32)
  (CryptoBox.aeadDecrypt P kSeal sealNonce innerCt innerTag t5).mapError .library

/-- `transport.send` -/
abbrev Transport (m : Type → Type) := Endpoint → Bytes → ExceptT Abort m Bytes

section Solve

variable {m : Type → Type} [Monad m]

/-- `solve` from the session id on. -/
def session (P : Primitives) (env : Env) (send : Transport m) (d : Draws)
    (usernameNorm licenseStruct : Bytes) : ExceptT Abort m Bytes := do
  let (helloFrame, t) ← own (hello P d usernameNorm)
  let resp ← send .hello (← own helloFrame.serialize)
  let ((serverPub, serverRandom), t) ← openChallenge P env t resp
  let s ← own (establish P env d usernameNorm licenseStruct serverPub serverRandom t)
  let (p1, t) ← own (clientProof1 P d usernameNorm licenseStruct serverRandom s t)
  let resp ← send .exchange (← own p1.serialize)
  let (serverChallenge2, t) ← openServerProof1 P s t resp
  let (p2, t) ← own (clientProof2 P d serverPub serverRandom s serverChallenge2 t)
  let resp ← send .finalize (← own p2.serialize)
  openSealedFlag P s t resp

end Solve

def inProcTransport (P : Primitives) (env : Env) (helloDraws : ChallengeLogic.HelloDraws)
    (exchangeDraws : ChallengeLogic.ExchangeDraws) (finalizeDraws : ChallengeLogic.FinalizeDraws) :
    Transport (StateM Sessions.SessionStore)
  | .hello, frameBytes => (ChallengeLogic.handleHello P env helloDraws frameBytes).adapt .raised
  | .exchange, frameBytes =>
    (ChallengeLogic.handleExchange P env exchangeDraws frameBytes).adapt .raised
  | .finalize, frameBytes =>
    (ChallengeLogic.handleFinalize P finalizeDraws frameBytes).adapt .raised

def route : Endpoint → List Char
  | .hello => "hello".toList
  | .exchange => "exchange".toList
  | .finalize => "finalize".toList

end RankGate.Tools.Solver
