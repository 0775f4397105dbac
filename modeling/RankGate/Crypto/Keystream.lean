/- Module: RankGate/Crypto/Keystream
   source: server/app/crypto_box.py, client/src/crypto/crypto.cpp (stream_xor)
   digest: Both keystream loops run over the same blocks, and the two stream ciphers are one function. -/

import RankGate.Client.CryptoBox
import RankGate.Server.CryptoBox

set_option autoImplicit false
set_option relaxedAutoImplicit false

namespace RankGate.Crypto.Keystream

open ByteCodec (Bytes beBytes)
open RankGate.Client.Constants (be64 be64_eq)

variable (H : Hashes) {key domain : Bytes}

theorem be64_ofNat (n : Nat) : be64 (UInt64.ofNat n) = beBytes 8 n := by
  rw [be64_eq, UInt64.toNat_ofNat']
  exact ByteCodec.beBytes_mod 8 n

theorem keystreamLoop_eq (length fuel n : Nat) (out : Bytes) :
    Client.CryptoBox.keystreamLoop H key domain length fuel (UInt64.ofNat n) out =
      Server.CryptoBox.keystreamLoop H key domain length fuel n out := by
  induction fuel generalizing n out with
  | zero => rfl
  | succ fuel ih =>
    have hnext : UInt64.ofNat n + 1 = UInt64.ofNat (n + 1) := (UInt64.ofNat_add n 1).symm
    rw [Client.CryptoBox.keystreamLoop, Server.CryptoBox.keystreamLoop, be64_ofNat, hnext, ih]

theorem blake2bCtrKeystream_eq (hkey : key.length ≤ 64) (length : Nat) :
    Client.CryptoBox.blake2bCtrKeystream H key length domain =
      Server.CryptoBox.blake2bCtrKeystream H key length domain := by
  have hlen := Server.CryptoBox.length_keystreamLoop H hkey domain length
  rw [Client.CryptoBox.blake2bCtrKeystream, Server.CryptoBox.blake2bCtrKeystream,
    show (0 : UInt64) = UInt64.ofNat 0 from rfl, keystreamLoop_eq,
    Client.CryptoBox.resize_of_le hlen]

theorem streamXor_eq (hkey : key.length ≤ 64) (data : Bytes) :
    Client.CryptoBox.streamXor H key data domain = Server.CryptoBox.streamXor H key data domain := by
  have hlen := Server.CryptoBox.length_blake2bCtrKeystream H hkey data.length domain
  rw [Client.CryptoBox.streamXor, Server.CryptoBox.streamXor, blake2bCtrKeystream_eq H hkey,
    Server.CryptoBox.xorBytes]
  generalize Server.CryptoBox.blake2bCtrKeystream H key data.length domain = ks at hlen
  apply List.ext_getElem
  · rw [List.length_map, List.length_range, List.length_zipWith, hlen, min_self]
  · intro i hi _
    have hdata : i < data.length := by simpa using hi
    have hks : i < ks.length := by omega
    simp [List.getD, hdata, hks]

/-- The keystream asks only for 64-byte digests of the domain and a counter. -/
theorem keystreamLoop_congr {H H' : Hashes}
    (h : ∀ n, H.blake2b (domain ++ beBytes 8 n) key 64 = H'.blake2b (domain ++ beBytes 8 n) key 64)
    (length fuel n : Nat) (out : Bytes) :
    Server.CryptoBox.keystreamLoop H key domain length fuel n out =
      Server.CryptoBox.keystreamLoop H' key domain length fuel n out := by
  induction fuel generalizing n out with
  | zero => rfl
  | succ fuel ih => rw [Server.CryptoBox.keystreamLoop, Server.CryptoBox.keystreamLoop, h, ih]

theorem streamXor_congr {H H' : Hashes}
    (h : ∀ n, H.blake2b (domain ++ beBytes 8 n) key 64 = H'.blake2b (domain ++ beBytes 8 n) key 64)
    (data : Bytes) :
    Server.CryptoBox.streamXor H key data domain = Server.CryptoBox.streamXor H' key data domain := by
  rw [Server.CryptoBox.streamXor, Server.CryptoBox.streamXor,
    Server.CryptoBox.blake2bCtrKeystream, Server.CryptoBox.blake2bCtrKeystream,
    keystreamLoop_congr h]

end RankGate.Crypto.Keystream
