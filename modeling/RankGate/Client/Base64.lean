/- Module: RankGate/Client/Base64
   source: client/src/crypto/base64.cpp
   digest: The client's base 64, with the accumulator of its decoder left to wrap. -/

import RankGate.Foundation.ByteCodec

set_option autoImplicit false
set_option relaxedAutoImplicit false

namespace RankGate.Client.Base64

open ByteCodec (Bytes ascii)

def kAlpha : Bytes := ascii "ABCDEFGHIJKLMNOPQRSTUVWXYZabcdefghijklmnopqrstuvwxyz0123456789+/"

def makeRev : Vector Int8 256 :=
  kAlpha.zipIdx.foldl (fun r p => r.setIfInBounds p.1.toNat (Int8.ofNat p.2))
    (Vector.replicate 256 (-1))

def kRev : Vector Int8 256 := makeRev

/-- `kAlpha[(n >> s) & 63]`; the mask keeps the index in range. -/
def symbol (n s : UInt32) : UInt8 := kAlpha.getD ((n >>> s) &&& 63).toNat 0

def b64encode : Bytes → Bytes
  | b0 :: b1 :: b2 :: data =>
    let n := (b0.toUInt32 <<< 16) ||| (b1.toUInt32 <<< 8) ||| b2.toUInt32
    symbol n 18 :: symbol n 12 :: symbol n 6 :: symbol n 0 :: b64encode data
  | [b0, b1] =>
    let n := (b0.toUInt32 <<< 16) ||| (b1.toUInt32 <<< 8)
    [symbol n 18, symbol n 12, symbol n 6, 0x3D]
  | [b0] =>
    let n := b0.toUInt32 <<< 16
    [symbol n 18, symbol n 12, 0x3D, 0x3D]
  | [] => []

structure Decoder where
  buf : UInt32
  bits : Nat
  out : Bytes

def Decoder.push (s : Decoder) (v : Int8) : Decoder :=
  let buf := (s.buf <<< 6) ||| v.toInt32.toUInt32
  let bits := s.bits + 6
  if 8 ≤ bits then
    ⟨buf, bits - 8, s.out ++ [((buf >>> UInt32.ofNat (bits - 8)) &&& 0xFF).toUInt8]⟩
  else ⟨buf, bits, s.out⟩

def isBlank (c : UInt8) : Bool := c = 0x0A || c = 0x0D || c = 0x20 || c = 0x09

/-- The first `=` ends the loop, whatever follows it. -/
def decodeLoop : Bytes → Decoder → Except String Bytes
  | [], s => .ok s.out
  | c :: text, s =>
    if c = 0x3D then .ok s.out
    else if isBlank c then decodeLoop text s
    else
      let v := kRev.get ⟨c.toNat, c.toNat_lt⟩
      if v < 0 then .error "base64: invalid character" else decodeLoop text (s.push v)

def b64decode (text : Bytes) : Except String Bytes := decodeLoop text ⟨0, 0, []⟩

end RankGate.Client.Base64
