/- Module: RankGate/Server/CryptoBox
   source: server/app/crypto_box.py
   digest: HKDF, the split AEAD, and the BLAKE2b counter keystream as the server computes them. -/

import RankGate.Foundation.BlockStream
import RankGate.Server.Config

set_option autoImplicit false
set_option relaxedAutoImplicit false

namespace RankGate.Server.CryptoBox

open ByteCodec (Bytes zeros beBytes)
open RankGate.Crypto (Hashes Primitives)
open RankGate.Server.Config (Failure)

def hkdfExtract (H : Hashes) (salt ikm : Bytes) : Bytes :=
  H.hmacSha256 (if salt = [] then zeros 32 else salt) ikm

/-- `while len(out) < length`. Every pass appends 32 bytes, so `length` passes are enough fuel;
`bytes([counter])` raises at the 256th pass. -/
def expandLoop (H : Hashes) (prk info : Bytes) (length : Nat) :
    Nat → Bytes → Bytes → Nat → Except Failure Bytes
  | 0, _, out, _ => .ok out
  | fuel + 1, t, out, counter =>
    if out.length < length then
      if 256 ≤ counter then .error .valueError
      else
        let t' := H.hmacSha256 prk (t ++ info ++ [UInt8.ofNat counter])
        expandLoop H prk info length fuel t' (out ++ t') (counter + 1)
    else .ok out

def hkdfExpand (H : Hashes) (prk info : Bytes) (length : Nat) : Except Failure Bytes := do
  let out ← expandLoop H prk info length length [] [] 1
  return out.take length

def hkdf (H : Hashes) (salt ikm info : Bytes) (length : Nat) : Except Failure Bytes :=
  hkdfExpand H (hkdfExtract H salt ikm) info length

theorem hkdfExpand_32 (H : Hashes) (prk info : Bytes) :
    hkdfExpand H prk info 32 = .ok (H.hmacSha256 prk (info ++ [1])) := by
  have hlen := H.length_hmacSha256 prk (info ++ [1])
  have hloop : expandLoop H prk info 32 32 [] [] 1 = .ok (H.hmacSha256 prk (info ++ [1])) := by
    simp [expandLoop, hlen]
  simp only [hkdfExpand, hloop]
  simp [bind, Except.bind, pure, Except.pure, List.take_of_length_le, hlen]

def aeadEncrypt (P : Primitives) (key nonce plaintext aad : Bytes) : Bytes × Bytes :=
  let combined := P.aeadSeal key nonce plaintext aad
  (combined.take (combined.length - 16), combined.drop (combined.length - 16))

def aeadDecrypt (P : Primitives) (key nonce ciphertext tag aad : Bytes) : Except String Bytes :=
  P.aeadOpen key nonce (ciphertext ++ tag) aad

theorem aeadEncrypt_append (P : Primitives) (key nonce plaintext aad : Bytes) :
    (aeadEncrypt P key nonce plaintext aad).1 ++ (aeadEncrypt P key nonce plaintext aad).2 =
      P.aeadSeal key nonce plaintext aad :=
  List.take_append_drop _ _

@[simp] theorem length_aeadEncrypt_fst (P : Primitives) (key nonce plaintext aad : Bytes) :
    (aeadEncrypt P key nonce plaintext aad).1.length = plaintext.length := by
  simp [aeadEncrypt]

@[simp] theorem length_aeadEncrypt_snd (P : Primitives) (key nonce plaintext aad : Bytes) :
    (aeadEncrypt P key nonce plaintext aad).2.length = 16 := by
  simp [aeadEncrypt]

/-- `while len(out) < length`, one 64-byte block a pass. -/
def keystreamLoop (H : Hashes) (key domain : Bytes) (length : Nat) : Nat → Nat → Bytes → Bytes
  | 0, _, out => out
  | fuel + 1, counter, out =>
    if out.length < length then
      keystreamLoop H key domain length fuel (counter + 1)
        (out ++ H.blake2b (domain ++ beBytes 8 counter) key 64)
    else out

def blake2bCtrKeystream (H : Hashes) (key : Bytes) (length : Nat) (domain : Bytes) : Bytes :=
  (keystreamLoop H key domain length length 0 []).take length

def xorBytes (a b : Bytes) : Bytes := List.zipWith (· ^^^ ·) a b

def streamXor (H : Hashes) (key data domain : Bytes) : Bytes :=
  xorBytes data (blake2bCtrKeystream H key data.length domain)

abbrev keystreamBlock (H : Hashes) (key domain : Bytes) (i : Nat) : Bytes :=
  H.blake2b (domain ++ beBytes 8 i) key 64

theorem keystreamLoop_eq_fill (H : Hashes) (key domain : Bytes) (length fuel counter : Nat)
    (out : Bytes) : keystreamLoop H key domain length fuel counter out =
      BlockStream.fill (keystreamBlock H key domain) length fuel counter out := by
  induction fuel generalizing counter out with
  | zero => rfl
  | succ fuel ih => rw [keystreamLoop, BlockStream.fill, ih]

section Keyed

variable (H : Hashes) {key : Bytes} (hk : key.length ≤ 64)

include hk

theorem length_keystreamBlock (domain : Bytes) (i : Nat) :
    (keystreamBlock H key domain i).length = 64 :=
  H.length_blake2b _ key 64 hk (by decide) (by decide)

theorem length_keystreamLoop (domain : Bytes) (length : Nat) :
    length ≤ (keystreamLoop H key domain length length 0 []).length := by
  rw [keystreamLoop_eq_fill]
  exact BlockStream.le_length_fill (by decide) (length_keystreamBlock H hk domain) (le_refl length)

theorem blake2bCtrKeystream_eq_stream (length : Nat) (domain : Bytes) :
    blake2bCtrKeystream H key length domain =
      BlockStream.stream (keystreamBlock H key domain) 64 length := by
  rw [blake2bCtrKeystream, keystreamLoop_eq_fill,
    BlockStream.take_fill (by decide) (length_keystreamBlock H hk domain) (le_refl length)]

theorem length_blake2bCtrKeystream (length : Nat) (domain : Bytes) :
    (blake2bCtrKeystream H key length domain).length = length := by
  rw [blake2bCtrKeystream_eq_stream H hk,
    BlockStream.length_stream (by decide) (length_keystreamBlock H hk domain)]

end Keyed

end RankGate.Server.CryptoBox
