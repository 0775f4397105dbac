/- Module: RankGate/Server/Verifier
   source: server/app/verifier.py
   digest: Username normalisation, the license structure, and the checks of stages 1 to 6. -/

import RankGate.Foundation.Effects
import RankGate.Server.Base64
import RankGate.Server.VmReference

set_option autoImplicit false
set_option relaxedAutoImplicit false

namespace RankGate.Server.Verifier

open ByteCodec (Bytes ascii beBytes)
open Effects (ensure)
open RankGate.Crypto (Hashes Primitives)
open RankGate.Server.Config (Env Failure toBytes)
open RankGate.Server.VmReference (VMResult)

/-! Stage 1: usernames are sequences of code points until they are canonical bytes. -/

def isBlank (c : Nat) : Bool := c = 0x20 || c = 0x09 || c = 0x0D || c = 0x0A

/-- `s.strip(" \t\r\n")`. -/
def strip (s : List Nat) : List Nat :=
  ((s.dropWhile isBlank).reverse.dropWhile isBlank).reverse

def canonicalChar (o : Nat) : Except Failure UInt8 :=
  if o < 0x20 ∨ 0x7E < o then .error (.proofError "stage1" "non-printable-ASCII username char")
  else if 0x41 ≤ o ∧ o ≤ 0x5A then .ok (UInt8.ofNat (o + 0x20))
  else .ok (UInt8.ofNat o)

def normalizeUsername (P : Primitives) (raw : List Nat) : Except Failure Bytes := do
  let s := strip (P.nfc raw)
  ensure (1 ≤ s.length ∧ s.length ≤ Config.vmUsernameCap)
    (.proofError "stage1" "username length out of range")
  s.mapM canonicalChar

structure License where
  version : UInt8
  fragment : Bytes
  proofSeed : Bytes
  vmSeed : Bytes
  parity : UInt8
  timestamp : Bytes
  checksum : Bytes
  raw : Bytes
  deriving DecidableEq

def fragment (H : Hashes) (usernameNorm : Bytes) : Bytes :=
  H.blake2b usernameNorm Config.licenseFragmentDomain 4

def checksum (P : Primitives) (env : Env) (payload21 : Bytes) : Bytes :=
  P.blake2b (Config.licenseChecksumDomain ++ payload21) (Config.licenseSecret P env) 4

def parityOf (bytes : Bytes) : UInt8 := bytes.foldl (· ^^^ ·) 0

def buildLicenseStruct (P : Primitives) (env : Env) (usernameNorm : Bytes) : Bytes :=
  let version := [UInt8.ofNat Config.licenseVersion]
  let fragment := fragment P.toHashes usernameNorm
  let proofSeed := P.blake2b (ascii "proof-seed" ++ usernameNorm) (Config.licenseSecret P env) 8
  let vmSeed := P.blake2b (ascii "vm-seed" ++ usernameNorm) (Config.licenseSecret P env) 4
  let payload17 := version ++ fragment ++ proofSeed ++ vmSeed
  let timestamp := P.blake2b (ascii "ts" ++ usernameNorm) [] 3
  let payload21 := payload17 ++ [parityOf payload17] ++ timestamp
  payload21 ++ checksum P env payload21

def encodeLicense (struct : Bytes) : Except Failure (List Nat) := do
  ensure (struct.length = Config.licenseStructSize) .valueError
  return Config.licensePrefix ++ [0x2D] ++
    [0x2D].intercalate ((Text.slices 5 struct).map Base64.b32encode)

def isSpace (c : Nat) : Bool :=
  (0x09 ≤ c ∧ c ≤ 0x0D) ∨ (0x1C ≤ c ∧ c ≤ 0x20) ∨ (0x2000 ≤ c ∧ c ≤ 0x200A) ∨
    c ∈ [0x85, 0xA0, 0x1680, 0x2028, 0x2029, 0x202F, 0x205F, 0x3000]

def stripSpace (s : List Nat) : List Nat := Text.trim isSpace s

def decodeBlock (blk : List Nat) : Except Failure Bytes := do
  ensure (blk.length = 8) (.proofError "stage2" "bad license block length")
  match Base64.b32decode blk with
  | .ok b => .ok b
  | .error exc => .error (.proofError "stage2" ("base32 decode: " ++ exc))

def decodeLicense (licenseStr : List Nat) : Except Failure Bytes := do
  let parts := (stripSpace licenseStr).splitOn 0x2D
  ensure (parts.length = 6 ∧ parts.head? = some Config.licensePrefix)
    (.proofError "stage2" "bad license layout")
  let blocks ← parts.tail.mapM decodeBlock
  let struct := blocks.flatten
  ensure (struct.length = Config.licenseStructSize) (.proofError "stage2" "bad decoded length")
  return struct

def byteAt (b : Bytes) (i : Nat) : Except Failure UInt8 :=
  match b[i]? with
  | some v => .ok v
  | none => .error .indexError

def slice (b : Bytes) (i j : Nat) : Bytes := (b.drop i).take (j - i)

def parseLicense (struct : Bytes) : Except Failure License := do
  let version ← byteAt struct 0
  let parity ← byteAt struct 17
  return {
    version
    fragment := slice struct 1 5
    proofSeed := slice struct 5 13
    vmSeed := slice struct 13 17
    parity
    timestamp := slice struct 18 21
    checksum := slice struct 21 25
    raw := struct }

def validateLicense (P : Primitives) (env : Env) (usernameNorm struct : Bytes) :
    Except Failure License := do
  let lic ← parseLicense struct
  ensure (lic.version.toNat = Config.licenseVersion) (.proofError "stage2" "bad version")
  ensure (lic.fragment = fragment P.toHashes usernameNorm)
    (.proofError "stage2" "username fragment mismatch")
  ensure (parityOf (slice struct 0 17) = lic.parity) (.proofError "stage2" "parity mismatch")
  ensure (lic.checksum = checksum P env (slice struct 0 21))
    (.proofError "stage2" "checksum mismatch")
  return lic

def proof1Input (usernameNorm licenseStruct vmDigest vmStateHash : Bytes) (vmPathId vmHaltCode : Nat)
    (serverRandom sessionId transcriptPrefix : Bytes) : Except Failure Bytes := do
  let ulen ← toBytes 2 usernameNorm.length
  let pathId ← toBytes 4 vmPathId
  let haltCode ← toBytes 4 vmHaltCode
  return ascii "RG6-PROOF1/v6" ++ ulen ++ usernameNorm ++ licenseStruct ++ vmDigest ++
    vmStateHash ++ pathId ++ haltCode ++ serverRandom ++ sessionId ++ transcriptPrefix

def computeProof1 (H : Hashes) (kProof1 usernameNorm licenseStruct vmDigest vmStateHash : Bytes)
    (vmPathId vmHaltCode : Nat) (serverRandom sessionId transcriptPrefix : Bytes) :
    Except Failure Bytes := do
  return H.hmacSha256 kProof1 (← proof1Input usernameNorm licenseStruct vmDigest vmStateHash
    vmPathId vmHaltCode serverRandom sessionId transcriptPrefix)

def validateProof1 (H : Hashes) (kProof1 supplied usernameNorm licenseStruct vmDigest
    vmStateHash : Bytes) (vmPathId vmHaltCode : Nat)
    (serverRandom sessionId transcriptPrefix : Bytes) : Except Failure Unit := do
  let expected ← computeProof1 H kProof1 usernameNorm licenseStruct vmDigest vmStateHash vmPathId
    vmHaltCode serverRandom sessionId transcriptPrefix
  ensure (supplied = expected) (.proofError "stage3" "client proof1 mismatch")

def validateVm (P : Primitives) (env : Env) (usernameNorm licenseStruct serverRandom sessionId
    transcriptPrefix sessionNonce : Bytes) (supplied : VMResult) : Except Failure Unit := do
  let expected ← VmReference.runVm P env usernameNorm licenseStruct serverRandom sessionId
    transcriptPrefix sessionNonce
  ensure (expected = supplied) (.proofError "stage4" "vm result mismatch")

def proof2Input (serverChallenge2 serverRandom serverPub vmDigest transcriptPrefix : Bytes) :
    Bytes :=
  ascii "RG6-PROOF2/v6" ++ serverChallenge2 ++ serverRandom ++ serverPub ++ vmDigest ++
    transcriptPrefix

def computeProof2 (H : Hashes) (kProof2 serverChallenge2 serverRandom serverPub vmDigest
    transcriptPrefix : Bytes) : Bytes :=
  H.hmacSha256 kProof2
    (proof2Input serverChallenge2 serverRandom serverPub vmDigest transcriptPrefix)

def validateProof2 (H : Hashes) (kProof2 supplied serverChallenge2 serverRandom serverPub vmDigest
    transcriptPrefix : Bytes) : Except Failure Unit :=
  ensure (supplied = computeProof2 H kProof2 serverChallenge2 serverRandom serverPub vmDigest
    transcriptPrefix) (.proofError "stage6" "client proof2 mismatch")

end RankGate.Server.Verifier
