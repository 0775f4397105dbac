/- Module: RankGate/Session/Script
   source: server/app/challenge_logic.py, client/src/net/protocol.cpp
   digest: The six frames of an undisturbed session, and what makes both endpoints follow them. -/

import RankGate.Handlers.Requests
import RankGate.Session.ProofEncoding
import RankGate.Session.Username
import RankGate.Vm.EngineRefinement
import RankGate.Wire.ChannelLockstep

set_option autoImplicit false
set_option relaxedAutoImplicit false

namespace RankGate.Session.Script

open ByteCodec (Bytes ascii beBytes beNat zeros)
open RankGate.Client.Protocol (Challenge Draws)
open RankGate.Client.Vm (VMResult)
open RankGate.Crypto (Hashes Primitives)
open RankGate.Handlers.Specs
open RankGate.Server.ChallengeLogic (ExchangeDraws FinalizeDraws HelloDraws)
open RankGate.Server.Config (Env)
open RankGate.Server.Sessions (Keys)
open Wire.ChannelLockstep
open Wire.FrameAgreement

structure ServerDraws where
  hello : HelloDraws
  exchange : ExchangeDraws
  finalize : FinalizeDraws

/-- The choices of both parties, and the two values both compute. -/
structure Play where
  client : Draws
  server : ServerDraws
  name : Bytes
  license : Bytes
  shared : Bytes
  vm : VMResult

namespace Play

variable (P : Primitives) (env : Env) (x : Play)

def sid : Bytes := x.client.sessionId.val

def clientPub : Bytes := P.x25519Base x.client.priv.val

def serverPub : Bytes := P.x25519Base x.server.hello.serverPriv.val

def serverRandom : Bytes := x.server.hello.serverRandom.val

def hello : SFrame :=
  (Server.Protocol.Transcript.init P.toHashes).sealed P.toHashes
    (Server.ChallengeLogic.bootstrapMacKey P.toHashes) 1 x.sid 1 x.client.helloNonce.val
    (Client.Protocol.helloPayload P x.client x.name) (zeros 16)

def t1 : STranscript :=
  (Server.Protocol.Transcript.init P.toHashes).absorb P.toHashes (x.hello P).bytes

def challenge : SFrame := challengeFrame P env x.server.hello (x.hello P) (x.t1 P) 1

def t2 : STranscript := (x.t1 P).absorb P.toHashes (x.challenge P env).bytes

def prk : Bytes :=
  Server.CryptoBox.hkdfExtract P.toHashes (x.t2 P env).state x.shared

def keys : Keys := keysOf P.toHashes (x.prk P env)

def chal : Challenge := ⟨x.serverPub P, x.serverRandom⟩

def clientSession : Client.Protocol.Session :=
  ⟨(x.t2 P env).state, Client.Protocol.deriveKeys P.toHashes (x.prk P env), x.vm⟩

def proof1Payload : Bytes :=
  Client.Protocol.proof1Payload P.toHashes x.client x.name x.license (x.chal P)
    (x.clientSession P env)

def proof1 : SFrame :=
  aeadFrame P (x.t2 P env) (x.keys P env).mac (x.keys P env).c2s 3 x.sid 2 x.client.proof1Nonce.val
    (x.proof1Payload P env)

def t3 : STranscript := (x.t2 P env).absorb P.toHashes (x.proof1 P env).bytes

def serverChallenge2 : Bytes := x.server.exchange.serverChallenge2.val

def serverProof1Payload : Bytes :=
  Server.ChallengeLogic.serverProof1Payload P.toHashes (x.keys P env) (x.t3 P env) x.vm.vmDigest
    x.serverChallenge2

def serverProof1 : SFrame :=
  aeadFrame P (x.t3 P env) (x.keys P env).mac (x.keys P env).s2c 4 x.sid 2
    x.server.exchange.nonce.val (x.serverProof1Payload P env)

def t4 : STranscript := (x.t3 P env).absorb P.toHashes (x.serverProof1 P env).bytes

def proof2Payload : Bytes :=
  Server.Verifier.computeProof2 P.toHashes (x.keys P env).proof2 x.serverChallenge2 x.serverRandom
    (x.serverPub P) x.vm.vmDigest (x.t2 P env).state

def proof2 : SFrame :=
  aeadFrame P (x.t4 P env) (x.keys P env).mac (x.keys P env).c2s 5 x.sid 3 x.client.proof2Nonce.val
    (x.proof2Payload P env)

def t5 : STranscript := (x.t4 P env).absorb P.toHashes (x.proof2 P env).bytes

def sealedFlag : SFrame :=
  aeadFrame P (x.t5 P env) (x.keys P env).mac (x.keys P env).s2c 7 x.sid 3
    x.server.finalize.nonce.val (innerBytes P x.server.finalize (x.keys P env) (x.t5 P env).state)

/-- What the parties bring to the session, and what the libraries and the machines make of it. -/
structure Honest : Prop where
  canonical : Username.Canonical x.name
  length_license : x.license.length = 25
  validLicense : ∃ lic, Server.Verifier.validateLicense P env x.name x.license = .ok lic
  clientShared : P.x25519Shared x.client.priv.val (x.serverPub P) = some x.shared
  serverShared : P.x25519Shared x.server.hello.serverPriv.val (x.clientPub P) = some x.shared
  clientVm : Client.Vm.runVm P.toHashes x.name x.license x.serverRandom x.sid (x.t2 P env).state
    x.serverRandom = .ok x.vm
  serverVm : Server.VmReference.runVm P env x.name x.license x.serverRandom x.sid
    (x.t2 P env).state x.serverRandom = .ok (Vm.EngineRefinement.widen x.vm)
  length_vmDigest : x.vm.vmDigest.length = 32
  length_vmStateHash : x.vm.vmStateHash.length = 32
  signature : ∀ seed msg,
    P.ed25519Verify (P.ed25519PublicKey seed) msg (P.ed25519Sign seed msg) = true
  aead : AeadInverts P

end Play

section Agree

variable (H : Hashes)

theorem deriveKeys_eq (prk : Bytes) : Client.Protocol.deriveKeys H prk =
    ⟨(keysOf H prk).c2s, (keysOf H prk).s2c, (keysOf H prk).mac, (keysOf H prk).proof1,
      (keysOf H prk).sproof1, (keysOf H prk).proof2, (keysOf H prk).sealKey⟩ := by
  simp only [Client.Protocol.deriveKeys, Client.CryptoBox.hkdfExpand_32, keysOf,
    Client.Constants.hkdfC2s, Client.Constants.hkdfS2c, Client.Constants.hkdfMac,
    Client.Constants.hkdfProof1, Client.Constants.hkdfSproof1, Client.Constants.hkdfProof2,
    Client.Constants.hkdfSeal, Client.Constants.rgObf_eq]
  rfl

def widenKeys (k : Client.Protocol.Keys) : Keys :=
  ⟨k.c2s, k.s2c, k.mac, k.proof1, k.sproof1, k.proof2, k.sealKey⟩

theorem bootstrapMacKey_eq :
    Client.Protocol.bootstrapMacKey H = Server.ChallengeLogic.bootstrapMacKey H := by
  rw [Client.Protocol.bootstrapMacKey, Client.Constants.bootstrapMacLabel,
    Client.Constants.rgObf_eq]
  rfl

theorem computeProof1_eq {name : Bytes} (hname : name.length ≤ 64)
    (key license serverRandom sessionId salt : Bytes) (vm : VMResult) :
    Server.Verifier.computeProof1 H key name license vm.vmDigest vm.vmStateHash vm.vmPathId.toNat
        vm.vmHaltCode.toNat serverRandom sessionId salt =
      .ok (Client.ProofBuilder.computeProof1 H key name license vm serverRandom sessionId salt) :=
  Effects.except_bind_ok (ProofEncoding.proof1Input_eq license vm serverRandom sessionId salt
    (lt_of_le_of_lt hname (by decide)))

theorem computeProof2_eq (key serverChallenge2 serverRandom serverPub vmDigest salt : Bytes) :
    Client.ProofBuilder.computeProof2 H key serverChallenge2 serverRandom serverPub vmDigest salt =
      Server.Verifier.computeProof2 H key serverChallenge2 serverRandom serverPub vmDigest salt := by
  rw [ProofEncoding.computeProof2_mac, Server.Verifier.computeProof2, ProofEncoding.proof2Input_eq]

end Agree

end RankGate.Session.Script
