/- Module: RankGate/Client/CryptoBox
   source: client/src/crypto/kdf.cpp, client/src/crypto/crypto.cpp
   digest: HKDF, the split AEAD, and the keystream as the client computes them. -/

import RankGate.Client.Constants

set_option autoImplicit false
set_option relaxedAutoImplicit false

namespace RankGate.Client.CryptoBox

open ByteCodec (Bytes zeros)
open RankGate.Crypto (Hashes Primitives)
open Constants (be64)

/-- `vector::resize`: cut, or pad with zero bytes. -/
def resize (b : Bytes) (n : Nat) : Bytes := b.take n ++ zeros (n - b.length)

theorem resize_of_le {b : Bytes} {n : Nat} (h : n ≤ b.length) : resize b n = b.take n := by
  simp [resize, zeros, Nat.sub_eq_zero_of_le h]

def hkdfExtract (H : Hashes) (salt ikm : Bytes) : Bytes :=
  let s := if salt = [] then zeros 32 else salt
  H.hmacSha256 s ikm

/-- `while (out.size() < length)` with a one-byte counter; every pass appends 32 bytes. -/
def expandLoop (H : Hashes) (prk info : Bytes) (length : Nat) :
    Nat → Bytes → Bytes → UInt8 → Bytes
  | 0, _, out, _ => out
  | fuel + 1, t, out, counter =>
    if out.length < length then
      let t' := H.hmacSha256 prk (t ++ info ++ [counter])
      expandLoop H prk info length fuel t' (out ++ t') (counter + 1)
    else out

def hkdfExpand (H : Hashes) (prk info : Bytes) (length : Nat) : Bytes :=
  resize (expandLoop H prk info length length [] [] 1) length

def hkdf (H : Hashes) (salt ikm info : Bytes) (length : Nat) : Bytes :=
  hkdfExpand H (hkdfExtract H salt ikm) info length

theorem hkdfExpand_32 (H : Hashes) (prk info : Bytes) :
    hkdfExpand H prk info 32 = H.hmacSha256 prk (info ++ [1]) := by
  have hlen := H.length_hmacSha256 prk (info ++ [1])
  have hloop : expandLoop H prk info 32 32 [] [] 1 = H.hmacSha256 prk (info ++ [1]) := by
    simp [expandLoop, hlen]
  rw [hkdfExpand, hloop, resize_of_le (by omega), List.take_of_length_le (by omega)]

def aeadEncrypt (P : Primitives) (key nonce plaintext aad : Bytes) : Bytes × Bytes :=
  let combined := P.aeadSeal key nonce plaintext aad
  (combined.take (combined.length - 16), combined.drop (combined.length - 16))

def aeadDecrypt (P : Primitives) (key nonce ciphertext tag aad : Bytes) : Except String Bytes :=
  match P.aeadOpen key nonce (ciphertext ++ tag) aad with
  | .ok plaintext => .ok plaintext
  | .error _ => .error "aead decrypt: authentication failed"

def keystreamLoop (H : Hashes) (key domain : Bytes) (length : Nat) : Nat → UInt64 → Bytes → Bytes
  | 0, _, out => out
  | fuel + 1, counter, out =>
    if out.length < length then
      keystreamLoop H key domain length fuel (counter + 1)
        (out ++ H.blake2b (domain ++ be64 counter) key 64)
    else out

def blake2bCtrKeystream (H : Hashes) (key : Bytes) (length : Nat) (domain : Bytes) : Bytes :=
  resize (keystreamLoop H key domain length length 0 []) length

def streamXor (H : Hashes) (key data domain : Bytes) : Bytes :=
  let ks := blake2bCtrKeystream H key data.length domain
  (List.range data.length).map fun i => data.getD i 0 ^^^ ks.getD i 0

def x25519Shared (P : Primitives) (priv peerPub : Bytes) : Except String Bytes :=
  match P.x25519Shared priv peerPub with
  | some shared => .ok shared
  | none => .error "x25519 shared failed (low-order point?)"

def ed25519Verify (P : Primitives) (pub msg sig : Bytes) : Bool :=
  if pub.length ≠ 32 ∨ sig.length ≠ 64 then false else P.ed25519Verify pub msg sig

def ctEqual (a b : Bytes) : Bool := a == b

end RankGate.Client.CryptoBox
