/- Module: RankGate/Crypto/StreamCipher
   source: server/app/crypto_box.py, client/src/crypto/crypto.cpp (stream_xor)
   digest: The keystream is cut out of 64-byte digests of a counter; the cipher undoes itself. -/

import RankGate.Crypto.Keystream

set_option autoImplicit false
set_option relaxedAutoImplicit false

namespace RankGate.Crypto.StreamCipher

open ByteCodec (Bytes beBytes)
open RankGate.Crypto.Keystream (blake2bCtrKeystream_eq streamXor_eq)
open RankGate.Server.CryptoBox (keystreamBlock length_keystreamBlock blake2bCtrKeystream_eq_stream)

variable (H : Hashes)

section Keyed

variable {key : Bytes} (domain : Bytes) (hkey : key.length ≤ 64)

include hkey in
theorem take_keystream {n m : Nat} (h : n ≤ m) :
    (Server.CryptoBox.blake2bCtrKeystream H key m domain).take n =
      Server.CryptoBox.blake2bCtrKeystream H key n domain := by
  rw [blake2bCtrKeystream_eq_stream H hkey, blake2bCtrKeystream_eq_stream H hkey,
    BlockStream.take_stream (by decide) (length_keystreamBlock H hkey domain) h]

include hkey in
theorem keystream_block (i n : Nat) :
    ((Server.CryptoBox.blake2bCtrKeystream H key n domain).drop (i * 64)).take 64 =
      (keystreamBlock H key domain i).take (n - i * 64) := by
  rw [blake2bCtrKeystream_eq_stream H hkey,
    BlockStream.stream_piece (by decide) (length_keystreamBlock H hkey domain)]

theorem length_xorBytes {a b : Bytes} (h : a.length ≤ b.length) :
    (Server.CryptoBox.xorBytes a b).length = a.length := by
  rw [Server.CryptoBox.xorBytes, List.length_zipWith, Nat.min_eq_left h]

theorem xorBytes_xorBytes {a b : Bytes} (h : a.length ≤ b.length) :
    Server.CryptoBox.xorBytes (Server.CryptoBox.xorBytes a b) b = a := by
  induction a generalizing b with
  | nil => rfl
  | cons x a ih =>
    cases b with
    | nil => cases h
    | cons y b =>
      have hrest := ih (Nat.le_of_succ_le_succ h)
      simp only [Server.CryptoBox.xorBytes, List.zipWith_cons_cons] at hrest ⊢
      rw [hrest, UInt8.xor_assoc, UInt8.xor_self, UInt8.xor_zero]

include hkey in
theorem length_streamXor (data : Bytes) :
    (Server.CryptoBox.streamXor H key data domain).length = data.length := by
  have hlen := Server.CryptoBox.length_blake2bCtrKeystream H hkey data.length domain
  rw [Server.CryptoBox.streamXor, length_xorBytes (by rw [hlen])]

include hkey in
theorem streamXor_streamXor (data : Bytes) :
    Server.CryptoBox.streamXor H key (Server.CryptoBox.streamXor H key data domain) domain =
      data := by
  have hlen := Server.CryptoBox.length_blake2bCtrKeystream H hkey data.length domain
  rw [Server.CryptoBox.streamXor, length_streamXor H domain hkey, Server.CryptoBox.streamXor,
    xorBytes_xorBytes (by rw [hlen])]

end Keyed

/-- The stream cipher as a whole, for both languages. -/
theorem stream_xor_spec {key : Bytes} (hkey : key.length ≤ 64) (domain data : Bytes) :
    Client.CryptoBox.streamXor H key data domain = Server.CryptoBox.streamXor H key data domain ∧
      Server.CryptoBox.streamXor H key data domain = List.zipWith (· ^^^ ·) data
        (Server.CryptoBox.blake2bCtrKeystream H key data.length domain) ∧
      (Client.CryptoBox.streamXor H key data domain).length = data.length ∧
      Client.CryptoBox.streamXor H key (Client.CryptoBox.streamXor H key data domain) domain =
        data ∧
      Server.CryptoBox.streamXor H key (Server.CryptoBox.streamXor H key data domain) domain =
        data ∧
      (∀ n, Client.CryptoBox.blake2bCtrKeystream H key n domain =
        Server.CryptoBox.blake2bCtrKeystream H key n domain) ∧
      (∀ n m, n ≤ m → Server.CryptoBox.blake2bCtrKeystream H key n domain =
        (Server.CryptoBox.blake2bCtrKeystream H key m domain).take n) ∧
      ∀ i n, ((Server.CryptoBox.blake2bCtrKeystream H key n domain).drop (i * 64)).take 64 =
        (H.blake2b (domain ++ beBytes 8 i) key 64).take (n - i * 64) := by
  have hsame : ∀ data, Client.CryptoBox.streamXor H key data domain =
      Server.CryptoBox.streamXor H key data domain := streamXor_eq H hkey
  have htwice := streamXor_streamXor H domain hkey data
  refine ⟨hsame data, rfl, ?_, ?_, htwice, blake2bCtrKeystream_eq H hkey, ?_, ?_⟩
  · rw [hsame, length_streamXor H domain hkey]
  · rw [hsame, hsame, htwice]
  · intro n m hnm
    exact (take_keystream H domain hkey hnm).symm
  · exact keystream_block H domain hkey

/-- A key and a domain of three bytes each, with a digest of all ones. -/
theorem stream_xor_spec_ones :
    Client.CryptoBox.streamXor default [1, 2, 3] [0x00, 0x5A, 0xFF] [4, 5, 6] =
      [0xFF, 0xA5, 0x00] := by
  have hkey : ([1, 2, 3] : Bytes).length ≤ 64 := by decide
  obtain ⟨hsame, hxor, -⟩ := stream_xor_spec default hkey [4, 5, 6] [0x00, 0x5A, 0xFF]
  rw [hsame, hxor]
  rfl

end RankGate.Crypto.StreamCipher
