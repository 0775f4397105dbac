/- Module: RankGate/Crypto/Primitives
   source: server/app/crypto_box.py (imports), client/src/crypto/crypto.hpp
   digest: The library primitives both programs call, as parameters with their documented lengths. -/

import RankGate.Foundation.ByteCodec

set_option autoImplicit false
set_option relaxedAutoImplicit false

namespace RankGate.Crypto

open ByteCodec (Bytes)

/-- The digests and MACs. Client and server call the same functions. -/
structure Hashes where
  sha256 : Bytes → Bytes
  hmacSha256 : (key data : Bytes) → Bytes
  blake2b : (data key : Bytes) → (size : Nat) → Bytes
  length_sha256 : ∀ data, (sha256 data).length = 32
  length_hmacSha256 : ∀ key data, (hmacSha256 key data).length = 32
  length_blake2b : ∀ data key size, key.length ≤ 64 → 1 ≤ size → size ≤ 64 →
    (blake2b data key size).length = size

/-- Key agreement, signatures, the AEAD in libsodium's combined mode, and Python's NFC. -/
structure Primitives extends Hashes where
  x25519Base : (priv : Bytes) → Bytes
  x25519Shared : (priv peerPub : Bytes) → Option Bytes
  ed25519PublicKey : (seed : Bytes) → Bytes
  ed25519Sign : (seed msg : Bytes) → Bytes
  ed25519Verify : (pub msg signature : Bytes) → Bool
  aeadSeal : (key nonce plaintext aad : Bytes) → Bytes
  /-- On the ciphertext followed by the tag; fails with the library's text. -/
  aeadOpen : (key nonce sealed aad : Bytes) → Except String Bytes
  nfc : (codePoints : List Nat) → List Nat
  length_x25519Base : ∀ priv, (x25519Base priv).length = 32
  length_ed25519PublicKey : ∀ seed, (ed25519PublicKey seed).length = 32
  length_ed25519Sign : ∀ seed msg, (ed25519Sign seed msg).length = 64
  length_aeadSeal : ∀ key nonce plaintext aad,
    (aeadSeal key nonce plaintext aad).length = plaintext.length + 16
  nfc_latin1 : ∀ s : List Nat, (∀ c ∈ s, c < 256) → nfc s = s

attribute [simp] Hashes.length_sha256 Hashes.length_hmacSha256 Primitives.length_x25519Base
  Primitives.length_ed25519PublicKey Primitives.length_ed25519Sign Primitives.length_aeadSeal

/-- What the libraries promise between an operation and its inverse. -/
structure Sound (P : Primitives) : Prop where
  aead : ∀ key nonce plaintext aad,
    P.aeadOpen key nonce (P.aeadSeal key nonce plaintext aad) aad = .ok plaintext
  agreement : ∀ a b : Bytes, a.length = 32 → b.length = 32 → ∃ shared,
    P.x25519Shared a (P.x25519Base b) = some shared ∧
      P.x25519Shared b (P.x25519Base a) = some shared
  signature : ∀ seed msg,
    P.ed25519Verify (P.ed25519PublicKey seed) msg (P.ed25519Sign seed msg) = true

/-- The laws are consistent: digests without content, and an AEAD that seals nothing. -/
def Primitives.transparent : Primitives where
  sha256 _ := List.replicate 32 0
  hmacSha256 _ _ := List.replicate 32 0
  blake2b _ _ size := List.replicate size 0xFF
  length_sha256 _ := List.length_replicate
  length_hmacSha256 _ _ := List.length_replicate
  length_blake2b _ _ _ _ _ _ := List.length_replicate
  x25519Base _ := List.replicate 32 0
  x25519Shared _ _ := some (List.replicate 32 0)
  ed25519PublicKey _ := List.replicate 32 0
  ed25519Sign _ _ := List.replicate 64 0
  ed25519Verify _ _ _ := true
  aeadSeal _ _ plaintext _ := plaintext ++ List.replicate 16 0
  aeadOpen _ _ sealed _ :=
    if sealed.length < 16 then .error "too short" else .ok (sealed.take (sealed.length - 16))
  nfc := id
  length_x25519Base _ := List.length_replicate
  length_ed25519PublicKey _ := List.length_replicate
  length_ed25519Sign _ _ := List.length_replicate
  length_aeadSeal _ _ plaintext _ := by simp
  nfc_latin1 _ _ := rfl

theorem Primitives.transparent_sound : Sound Primitives.transparent where
  aead _ _ plaintext _ := by simp [Primitives.transparent]
  agreement _ _ _ _ := ⟨_, rfl, rfl⟩
  signature _ _ := rfl

instance : Inhabited Primitives := ⟨Primitives.transparent⟩

instance : Inhabited Hashes := ⟨Primitives.transparent.toHashes⟩

end RankGate.Crypto
