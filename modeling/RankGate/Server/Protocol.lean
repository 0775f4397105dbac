/- Module: RankGate/Server/Protocol
   source: server/app/protocol.py
   digest: The binary frame, its strict parser, and the rolling transcript with its framing MAC. -/

import RankGate.Foundation.Effects
import RankGate.Foundation.HashChain
import RankGate.Server.CryptoBox

set_option autoImplicit false
set_option relaxedAutoImplicit false

namespace RankGate.Server.Protocol

open ByteCodec (Bytes zeros beNat beBytes take)
open RankGate.Crypto (Hashes)
open RankGate.Server.Config (Failure toBytes)
open Effects (ensure)

structure Frame where
  messageType : Nat
  sessionId : Bytes
  counter : Nat
  nonce : Bytes
  encryptedPayload : Bytes
  authTag : Bytes
  transcriptMac : Bytes
  deriving DecidableEq

namespace Frame

/-- `bytes([v])`, which raises `ValueError` past 255. -/
def byte (v : Nat) : Except Failure Bytes :=
  if v < 256 then .ok [UInt8.ofNat v] else .error .valueError

def header (f : Frame) : Except Failure Bytes := do
  let version ← byte Config.protoVersion
  let mt ← byte f.messageType
  let counter ← toBytes Config.szCounter f.counter
  let paylen ← toBytes Config.szPaylen f.encryptedPayload.length
  return Config.magic ++ (version ++ mt) ++ f.sessionId ++ counter ++ f.nonce ++ paylen

def preMac (f : Frame) : Except Failure Bytes := do
  return (← f.header) ++ f.encryptedPayload ++ f.authTag

def serialize (f : Frame) : Except Failure Bytes := do
  return (← f.preMac) ++ f.transcriptMac

/-- The body of `parse`, on a cursor: `take` fails on a short chunk. -/
def parseFields : StateT Bytes (Except Failure) Frame := do
  let take := take (Failure.protocolError "parse" "truncated frame")
  let magic ← take Config.szMagic
  ensure (magic = Config.magic) (.protocolError "parse" "bad magic")
  let version ← take Config.szVersion
  ensure (beNat version = Config.protoVersion) (.protocolError "parse" "bad version")
  let msgtype ← take Config.szMsgtype
  let sessionId ← take Config.szSessionId
  let counter ← take Config.szCounter
  let nonce ← take Config.szNonce
  let paylen ← take Config.szPaylen
  ensure (beNat paylen ≤ 1 <<< 20) (.protocolError "parse" "payload too large")
  let payload ← take (beNat paylen)
  let tag ← take Config.szAuthtag
  let tmac ← take Config.szTranscriptMac
  return ⟨beNat msgtype, sessionId, beNat counter, nonce, payload, tag, tmac⟩

def parse (buf : Bytes) : Except Failure Frame := do
  ensure (Config.headerSize + Config.szAuthtag + Config.szTranscriptMac ≤ buf.length)
    (.protocolError "parse" "frame too short")
  let (f, rest) ← parseFields buf
  ensure (rest = []) (.protocolError "parse" "trailing bytes")
  return f

/-- The field sizes `parse` guarantees. -/
structure WellFormed (f : Frame) : Prop where
  messageType : f.messageType < 256
  sessionId : f.sessionId.length = 16
  counter : f.counter < 2 ^ 64
  nonce : f.nonce.length = 24
  encryptedPayload : f.encryptedPayload.length ≤ 2 ^ 20
  authTag : f.authTag.length = 16
  transcriptMac : f.transcriptMac.length = 32

end Frame

structure Transcript where
  state : Bytes
  deriving DecidableEq

namespace Transcript

def init (H : Hashes) : Transcript := ⟨H.sha256 Config.transcriptSeed⟩

def macFor (H : Hashes) (t : Transcript) (macKey framePreMac : Bytes) : Bytes :=
  H.hmacSha256 macKey (t.state ++ framePreMac)

def absorb (H : Hashes) (t : Transcript) (fullFrame : Bytes) : Transcript :=
  ⟨H.sha256 (t.state ++ fullFrame)⟩

def sealFrame (H : Hashes) (t : Transcript) (macKey : Bytes) (messageType : Nat)
    (sessionId : Bytes) (counter : Nat) (nonce encryptedPayload authTag : Bytes) :
    Except Failure (Frame × Transcript) := do
  let f : Frame := ⟨messageType, sessionId, counter, nonce, encryptedPayload, authTag,
    zeros Config.szTranscriptMac⟩
  let f := { f with transcriptMac := t.macFor H macKey (← f.preMac) }
  return (f, t.absorb H (← f.serialize))

def openFrame (H : Hashes) (t : Transcript) (macKey : Bytes) (frame : Frame) :
    Except Failure Transcript := do
  let expected := t.macFor H macKey (← frame.preMac)
  ensure (expected = frame.transcriptMac)
    (.protocolError "transcript_mac" "transcript MAC mismatch")
  return t.absorb H (← frame.serialize)

end Transcript

end RankGate.Server.Protocol
