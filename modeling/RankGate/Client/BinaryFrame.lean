/- Module: RankGate/Client/BinaryFrame
   source: client/src/net/binary_frame.cpp, client/src/challenge/transcript.cpp
   digest: The client's frame on fixed-width fields, its parser, and its rolling transcript. -/

import RankGate.Foundation.Effects
import RankGate.Client.CryptoBox

set_option autoImplicit false
set_option relaxedAutoImplicit false

namespace RankGate.Client.BinaryFrame

open ByteCodec (Bytes take)
open RankGate.Crypto (Hashes)
open Constants (be32 be64 rdBe32 rdBe64)
open CryptoBox (ctEqual)
open Effects (ensure)

structure Frame where
  messageType : UInt8
  sessionId : Bytes
  counter : UInt64
  nonce : Bytes
  encryptedPayload : Bytes
  authTag : Bytes
  transcriptMac : Bytes
  deriving DecidableEq

namespace Frame

def header (f : Frame) : Bytes :=
  Constants.magic ++ [Constants.protoVersion] ++ [f.messageType] ++ f.sessionId ++
    be64 f.counter ++ f.nonce ++ be32 (UInt32.ofNat f.encryptedPayload.length)

def preMac (f : Frame) : Bytes := f.header ++ f.encryptedPayload ++ f.authTag

def serialize (f : Frame) : Bytes := f.preMac ++ f.transcriptMac

/-- The body of `parse` behind the length check. -/
def parseFields : StateT Bytes (Except String) Frame := do
  let take := take "frame: truncated"
  let magic ← take Constants.szMagic
  ensure (magic = Constants.magic) "frame: bad magic"
  let version ← take Constants.szVersion
  ensure (version.getD 0 0 = Constants.protoVersion) "frame: bad version"
  let messageType ← take Constants.szMsgtype
  let sessionId ← take Constants.szSessionId
  let counter ← take Constants.szCounter
  let nonce ← take Constants.szNonce
  let paylen ← take Constants.szPaylen
  ensure (rdBe32 paylen ≤ (1 : UInt32) <<< 20) "frame: payload too large"
  let payload ← take (rdBe32 paylen).toNat
  let tag ← take Constants.szAuthtag
  let tmac ← take Constants.szTranscriptMac
  return ⟨messageType.getD 0 0, sessionId, rdBe64 counter, nonce, payload, tag, tmac⟩

def parse (buf : Bytes) : Except String Frame := do
  ensure (Constants.headerSize + Constants.szAuthtag + Constants.szTranscriptMac ≤ buf.length)
    "frame: too short"
  let (f, rest) ← parseFields buf
  ensure (rest = []) "frame: trailing bytes"
  return f

end Frame

structure Transcript where
  state : Bytes
  deriving DecidableEq

namespace Transcript

def init (H : Hashes) : Transcript := ⟨H.sha256 Constants.transcriptSeed⟩

def macFor (H : Hashes) (t : Transcript) (macKey framePreMac : Bytes) : Bytes :=
  H.hmacSha256 macKey (t.state ++ framePreMac)

def absorb (H : Hashes) (t : Transcript) (fullFrame : Bytes) : Transcript :=
  ⟨H.sha256 (t.state ++ fullFrame)⟩

def sealFrame (H : Hashes) (t : Transcript) (macKey : Bytes) (mt : UInt8) (sid : Bytes)
    (counter : UInt64) (nonce encryptedPayload authTag : Bytes) : Frame × Transcript :=
  let f : Frame := ⟨mt, sid, counter, nonce, encryptedPayload, authTag, []⟩
  let f := { f with transcriptMac := t.macFor H macKey f.preMac }
  (f, t.absorb H f.serialize)

def openFrame (H : Hashes) (t : Transcript) (macKey : Bytes) (frame : Frame) :
    Except String Transcript := do
  let expected := t.macFor H macKey frame.preMac
  ensure (ctEqual expected frame.transcriptMac = true) "transcript MAC mismatch"
  return t.absorb H frame.serialize

end Transcript

end RankGate.Client.BinaryFrame
