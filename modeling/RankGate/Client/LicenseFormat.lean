/- Module: RankGate/Client/LicenseFormat
   source: client/src/challenge/license_format.cpp
   digest: The client's canonical form of a username, and its reader of license texts, on raw bytes. -/

import RankGate.Client.Constants
import RankGate.Foundation.Effects

set_option autoImplicit false
set_option relaxedAutoImplicit false

namespace RankGate.Client.LicenseFormat

open ByteCodec (Bytes ascii)
open Effects (ensure)

def b32Alphabet : Bytes := ascii "ABCDEFGHIJKLMNOPQRSTUVWXYZ234567"

def makeB32Rev : Vector Int8 256 :=
  b32Alphabet.zipIdx.foldl (fun r p => r.setIfInBounds p.1.toNat (Int8.ofNat p.2))
    (Vector.replicate 256 (-1))

def kB32 : Vector Int8 256 := makeB32Rev

def b32Step (acc : UInt64) (c : UInt8) : Except String UInt64 :=
  let v := kB32.get ⟨c.toNat, c.toNat_lt⟩
  if v < 0 then .error "license: bad base32 char"
  else .ok ((acc <<< 5) ||| v.toInt64.toUInt64)

def b32decodeBlock (blk : Bytes) : Except String Bytes := do
  ensure (blk.length = 8) "license: bad block length"
  let acc ← blk.foldlM b32Step 0
  -- 8 * 5 = 40 bits = 5 bytes
  return (List.range 5).map fun i => (acc >>> UInt64.ofNat (32 - 8 * i)).toUInt8

def isWs (c : UInt8) : Bool := c = 0x20 || c = 0x09 || c = 0x0D || c = 0x0A

def trim (raw : Bytes) : Bytes := ((raw.dropWhile isWs).reverse.dropWhile isWs).reverse

/-- One pass of the loop: printable ASCII only, `A`-`Z` lowered. -/
def canonicalChar (ch : UInt8) : Except String UInt8 :=
  if ch < 0x20 ∨ 0x7E < ch then .error "non-printable username char"
  else if 0x41 ≤ ch ∧ ch ≤ 0x5A then .ok (ch + 0x20)
  else .ok ch

def normalizeUsername (raw : Bytes) : Except String Bytes := do
  let s := trim raw
  ensure (s ≠ [] ∧ s.length ≤ Constants.vmUsernameCap) "username length out of range"
  s.mapM canonicalChar

/-- The finished parts and the one being read; blanks are skipped wherever they stand. -/
def splitStep (s : List Bytes × Bytes) (c : UInt8) : List Bytes × Bytes :=
  if isWs c then s
  else if c = 0x2D then (s.1 ++ [s.2], [])
  else (s.1, s.2 ++ [c])

def splitParts (licenseStr : Bytes) : List Bytes :=
  let s := licenseStr.foldl splitStep ([], [])
  s.1 ++ [s.2]

def decodeLicense (licenseStr : Bytes) : Except String Bytes := do
  let parts := splitParts licenseStr
  ensure (parts.length = 6 ∧ parts.head? = some Constants.licensePrefix) "license: bad layout"
  let st := (← parts.tail.mapM b32decodeBlock).flatten
  ensure (st.length = Constants.licenseStructSize) "license: bad decoded length"
  ensure (st.head? = some Constants.licenseVersion) "license: bad version"
  return st

end RankGate.Client.LicenseFormat
