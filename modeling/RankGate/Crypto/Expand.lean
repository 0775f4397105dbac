/- Module: RankGate/Crypto/Expand
   source: server/app/crypto_box.py, client/src/crypto/kdf.cpp (hkdf_expand)
   digest: Both expand loops against RFC 5869: the same bytes up to 255 blocks, and no further. -/

import RankGate.Client.CryptoBox
import RankGate.Foundation.Rfc5869
import RankGate.Server.CryptoBox

set_option autoImplicit false
set_option relaxedAutoImplicit false

namespace RankGate.Crypto.Expand

open BlockStream (cover cover_step cover_zero cover_le_iff stream)
open ByteCodec (Bytes)
open Rfc5869 (derive octets octets_succ expand)

variable (H : Hashes) (prk info : Bytes)

/-- The counter bytes that the client's passes push, from a buffer of `size` bytes on. -/
def pushed (length : Nat) : Nat → Nat → UInt8 → List UInt8
  | 0, _, _ => []
  | fuel + 1, size, counter =>
    if size < length then counter :: pushed length fuel (size + 32) (counter + 1) else []

theorem expandLoop_pushed (length fuel : Nat) (t out : Bytes) (counter : UInt8) :
    Client.CryptoBox.expandLoop H prk info length fuel t out counter =
      out ++ derive (H.hmacSha256 prk) info t (pushed length fuel out.length counter) := by
  induction fuel generalizing t out counter with
  | zero => simp [Client.CryptoBox.expandLoop, pushed, derive]
  | succ fuel ih =>
    rw [Client.CryptoBox.expandLoop, pushed]
    split_ifs with hlt
    · have hlen : (out ++ H.hmacSha256 prk (t ++ info ++ [counter])).length = out.length + 32 := by
        rw [List.length_append, H.length_hmacSha256]
      rw [ih, hlen, derive, List.append_assoc]
    · rw [derive, List.append_nil]

theorem pushed_eq {length fuel size c : Nat} (hfuel : cover 32 (length - size) ≤ fuel) :
    pushed length fuel size (UInt8.ofNat c) = octets c (cover 32 (length - size)) := by
  induction fuel generalizing size c with
  | zero =>
    rw [Nat.le_zero.mp hfuel]
    rfl
  | succ fuel ih =>
    rw [pushed]
    split_ifs with hlt
    · have hcover := cover_step (by decide : 0 < 32) (length - size) (by omega)
      have hnext : UInt8.ofNat c + 1 = UInt8.ofNat (c + 1) := (UInt8.ofNat_add c 1).symm
      rw [Nat.sub_sub] at hcover
      rw [hnext, ih (by omega), hcover, octets_succ]
    · rw [Nat.sub_eq_zero_of_le (by omega), cover_zero (by decide)]
      rfl

theorem serverLoop_eq {length fuel c : Nat} (t out : Bytes)
    (hfuel : cover 32 (length - out.length) ≤ fuel) (hc : c ≤ 256) :
    Server.CryptoBox.expandLoop H prk info length fuel t out c =
      if c + cover 32 (length - out.length) ≤ 256 then
        .ok (out ++ derive (H.hmacSha256 prk) info t (octets c (cover 32 (length - out.length))))
      else .error .valueError := by
  induction fuel generalizing t out c with
  | zero =>
    rw [Nat.le_zero.mp hfuel, if_pos (by omega), Server.CryptoBox.expandLoop]
    simp [octets, derive]
  | succ fuel ih =>
    rw [Server.CryptoBox.expandLoop]
    by_cases hlt : out.length < length
    · have hcover := cover_step (by decide : 0 < 32) (length - out.length) (by omega)
      have hlen : length - (out ++ H.hmacSha256 prk (t ++ info ++ [UInt8.ofNat c])).length =
          length - out.length - 32 := by
        rw [List.length_append, H.length_hmacSha256]
        omega
      rw [if_pos hlt, hcover]
      by_cases hraise : 256 ≤ c
      · rw [if_pos hraise, if_neg (by omega)]
      · rw [if_neg hraise]
        show Server.CryptoBox.expandLoop H prk info length fuel _ _ (c + 1) = _
        rw [ih _ _ (by rw [hlen]; omega) (by omega), hlen, octets_succ, derive, List.append_assoc,
          Nat.add_right_comm, Nat.add_assoc]
    · rw [if_neg hlt, Nat.sub_eq_zero_of_le (by omega), cover_zero (by decide), if_pos (by omega)]
      simp [octets, derive]

abbrev block : Nat → Bytes := fun i => Rfc5869.t (H.hmacSha256 prk) info (i + 1)

theorem length_block (i : Nat) : (block H prk info i).length = 32 :=
  H.length_hmacSha256 prk _

theorem cover_le (length : Nat) : cover 32 length ≤ length :=
  (cover_le_iff (by decide)).mpr (by omega)

/-- The client's bytes at every length. -/
theorem client_hkdfExpand (length : Nat) :
    Client.CryptoBox.hkdfExpand H prk info length = stream (block H prk info) 32 length := by
  have hpushed : pushed length length 0 1 = octets 1 (cover 32 length) :=
    pushed_eq (cover_le length)
  have hderive := Rfc5869.derive_octets (H.hmacSha256 prk) info 0 (cover 32 length)
  have hlen := BlockStream.length_blocks (length_block H prk info) 0 (cover 32 length)
  have hle := BlockStream.le_cover_mul (by decide : 0 < 32) length
  have hloop : Client.CryptoBox.expandLoop H prk info length length [] [] 1 =
      BlockStream.blocks (block H prk info) 0 (cover 32 length) := by
    rw [expandLoop_pushed, List.nil_append, List.length_nil, hpushed]
    exact hderive
  rw [Client.CryptoBox.hkdfExpand, hloop, Client.CryptoBox.resize_of_le (by omega)]
  rfl

/-- The server's outcome at every length. -/
theorem server_hkdfExpand (length : Nat) :
    Server.CryptoBox.hkdfExpand H prk info length =
      if length ≤ 255 * 32 then .ok (stream (block H prk info) 32 length)
      else .error .valueError := by
  have hderive := Rfc5869.derive_octets (H.hmacSha256 prk) info 0 (cover 32 length)
  have hcover : cover 32 length ≤ 255 ↔ length ≤ 255 * 32 := cover_le_iff (by decide)
  have hloop := serverLoop_eq H prk info [] [] (cover_le length) (by decide : 1 ≤ 256)
  rw [List.length_nil, Nat.sub_zero, List.nil_append] at hloop
  rw [Server.CryptoBox.hkdfExpand, hloop]
  by_cases hlen : length ≤ 255 * 32
  · have hfit : 1 + cover 32 length ≤ 256 := by omega
    rw [if_pos hlen, if_pos hfit]
    exact congrArg (fun out => Except.ok (List.take length out)) hderive
  · rw [if_neg hlen, if_neg (by omega)]
    rfl

/-- Both languages give what RFC 5869 gives, a rejection included, and the client pushes the
numbers of the blocks. -/
def Agree (length : Nat) : Prop :=
  some (Client.CryptoBox.hkdfExpand H prk info length) =
      expand (H.hmacSha256 prk) info 32 length ∧
    (Server.CryptoBox.hkdfExpand H prk info length).toOption =
      expand (H.hmacSha256 prk) info 32 length ∧
    (pushed length length 0 1).map UInt8.toNat = List.range' 1 (cover 32 length)

theorem not_agree_of_lt {length : Nat} (h : 255 * 32 < length) : ¬Agree H prk info length := by
  rintro ⟨hclient, _, _⟩
  rw [expand, if_neg (by omega)] at hclient
  cases hclient

theorem hkdfExpand_agree_iff (length : Nat) : Agree H prk info length ↔ length ≤ 255 * 32 := by
  constructor
  · intro hagree
    by_contra hlt
    exact not_agree_of_lt H prk info (by omega) hagree
  · intro hle
    have hcover : cover 32 length ≤ 255 ↔ length ≤ 255 * 32 := cover_le_iff (by decide)
    have hpushed : pushed length length 0 1 = octets 1 (cover 32 length) :=
      pushed_eq (cover_le length)
    refine ⟨?_, ?_, ?_⟩
    · rw [client_hkdfExpand, expand, if_pos hle]
    · rw [server_hkdfExpand, expand, if_pos hle, if_pos hle]
      rfl
    · rw [hpushed]
      exact Rfc5869.octets_exact (by omega)

/-- One byte more than 255 blocks hold. -/
theorem hkdfExpand_8161 :
    ¬Agree default [] [] 8161 ∧
      Server.CryptoBox.hkdfExpand default [] [] 8161 = .error .valueError ∧
      (Client.CryptoBox.hkdfExpand default [] [] 8161).length = 8161 := by
  refine ⟨not_agree_of_lt default [] [] (by decide), ?_, ?_⟩
  · rw [server_hkdfExpand, if_neg (by decide)]
  · rw [client_hkdfExpand, BlockStream.length_stream (by decide) (length_block default [] [])]

end RankGate.Crypto.Expand
