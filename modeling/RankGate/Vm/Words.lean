/- Module: RankGate/Vm/Words
   source: client/src/vm/vm.cpp, server/app/vm_reference.py (64-bit helpers, input packing)
   digest: Wrap-around words and masked integers compute the same values. -/

import RankGate.Server.VmReference
import RankGate.Client.Vm

set_option autoImplicit false
set_option relaxedAutoImplicit false

namespace RankGate.Vm.Words

open ByteCodec (Bytes zeros beNat beBytes overwrite overwriteVec)
open RankGate.Crypto (Hashes)

@[simp] theorem land_m64 (x : Nat) : x &&& Server.VmReference.m64 = x % 2 ^ 64 :=
  Nat.and_two_pow_sub_one_eq_mod x 64

@[simp] theorem land_m32 (x : Nat) : x &&& Server.VmReference.m32 = x % 2 ^ 32 :=
  Nat.and_two_pow_sub_one_eq_mod x 32

theorem land_m64_lt (x : Nat) : x &&& Server.VmReference.m64 < 2 ^ 64 := by
  rw [land_m64]
  exact Nat.mod_lt _ (by decide)

theorem land_m32_lt (x : Nat) : x &&& Server.VmReference.m32 < 2 ^ 32 := by
  rw [land_m32]
  exact Nat.mod_lt _ (by decide)

theorem rotl64_lt (x n : Nat) : Server.VmReference.rotl64 x n < 2 ^ 64 := by
  rw [Server.VmReference.rotl64]
  split_ifs
  · exact land_m64_lt _
  · exact land_m64_lt _

theorem rotr64_lt (x n : Nat) : Server.VmReference.rotr64 x n < 2 ^ 64 := by
  rw [Server.VmReference.rotr64]
  split_ifs
  · exact land_m64_lt _
  · exact land_m64_lt _

theorem hashRound_lt (a b : Nat) : Server.VmReference.hashRound a b < 2 ^ 64 := land_m64_lt _

theorem mix_lt (acc val rd : Nat) : Server.VmReference.mix acc val rd < 2 ^ 64 := land_m64_lt _

theorem subM64_lt (a b : Nat) : Server.VmReference.subM64 a b < 2 ^ 64 := by
  rw [Server.VmReference.subM64]
  omega

theorem notM64_lt (a : Nat) : Server.VmReference.notM64 a < 2 ^ 64 := by
  rw [Server.VmReference.notM64]
  omega

theorem cmpFlags_le (a b : Nat) : Server.VmReference.cmpFlags a b ≤ 7 := by
  rw [Server.VmReference.cmpFlags]
  split_ifs <;> decide

theorem byte_pair_lt (hi lo : UInt8) : (hi.toNat <<< 8) ||| lo.toNat < 2 ^ 16 := by
  have hh : hi.toNat < 2 ^ 8 := hi.toNat_lt
  have hl : lo.toNat < 2 ^ 8 := lo.toNat_lt
  rw [← Nat.shiftLeft_add_eq_or_of_lt hl, Nat.shiftLeft_eq]
  omega

private theorem land_63_lt (n : UInt64) : n.toNat &&& 63 < 64 := by
  have h := Nat.and_two_pow_sub_one_eq_mod n.toNat 6
  norm_num at h
  omega

private theorem shift_amounts {n : UInt64} (h : n &&& 63 ≠ 0) :
    (n &&& 63).toNat % 64 = n.toNat &&& 63 ∧
      (64 - (n &&& 63)).toNat % 64 = 64 - (n.toNat &&& 63) ∧ n.toNat &&& 63 ≠ 0 := by
  have hlt := land_63_lt n
  have hval : (n &&& 63).toNat = n.toNat &&& 63 := UInt64.toNat_and n 63
  have hne : n.toNat &&& 63 ≠ 0 := fun he => h (UInt64.toNat_inj.mp (hval.trans he))
  have hsub : (64 - (n &&& 63)).toNat = 64 - (n.toNat &&& 63) := by
    rw [UInt64.toNat_sub, hval]
    have : (64 : UInt64).toNat = 64 := rfl
    omega
  exact ⟨by omega, by omega, hne⟩

theorem rotl64_toNat (x n : UInt64) :
    (Client.Vm.rotl64 x n).toNat = Server.VmReference.rotl64 x.toNat n.toNat := by
  have hx := x.toNat_lt
  unfold Client.Vm.rotl64 Server.VmReference.rotl64
  by_cases h : n &&& 63 = 0
  · have hz : n.toNat &&& 63 = 0 := (UInt64.toNat_and n 63).symm.trans (congrArg UInt64.toNat h)
    simp [h, hz, Nat.mod_eq_of_lt hx]
  · obtain ⟨hl, hr, hne⟩ := shift_amounts h
    simp only [h, ne_eq, not_false_eq_true, if_true, hne, UInt64.toNat_or,
      UInt64.toNat_shiftLeft, UInt64.toNat_shiftRight, hl, hr, land_m64, Nat.or_mod_two_pow]
    have hs : x.toNat >>> (64 - (n.toNat &&& 63)) < 2 ^ 64 :=
      lt_of_le_of_lt (Nat.shiftRight_le _ _) hx
    rw [Nat.mod_eq_of_lt hs]

theorem rotr64_toNat (x n : UInt64) :
    (Client.Vm.rotr64 x n).toNat = Server.VmReference.rotr64 x.toNat n.toNat := by
  have hx := x.toNat_lt
  unfold Client.Vm.rotr64 Server.VmReference.rotr64
  by_cases h : n &&& 63 = 0
  · have hz : n.toNat &&& 63 = 0 := (UInt64.toNat_and n 63).symm.trans (congrArg UInt64.toNat h)
    simp [h, hz, Nat.mod_eq_of_lt hx]
  · obtain ⟨hl, hr, hne⟩ := shift_amounts h
    simp only [h, ne_eq, not_false_eq_true, if_true, hne, UInt64.toNat_or,
      UInt64.toNat_shiftLeft, UInt64.toNat_shiftRight, hl, hr, land_m64, Nat.or_mod_two_pow]
    have hs : x.toNat >>> (n.toNat &&& 63) < 2 ^ 64 :=
      lt_of_le_of_lt (Nat.shiftRight_le _ _) hx
    rw [Nat.mod_eq_of_lt hs]

theorem hashRound_toNat (a b : UInt64) :
    (Client.Vm.hashRound a b).toNat = Server.VmReference.hashRound a.toNat b.toNat := by
  have hmask : ∀ x : UInt64, x.toNat % 2 ^ 64 = x.toNat := fun x => Nat.mod_eq_of_lt x.toNat_lt
  have h17 : (17 : UInt64).toNat = 17 := rfl
  have h13 : (13 : UInt64).toNat = 13 := rfl
  have h7 : (7 : UInt64).toNat = 7 := rfl
  have h31 : (31 : UInt64).toNat % 64 = 31 := rfl
  have hk : (0x9E3779B97F4A7C15 : UInt64).toNat = 0x9E3779B97F4A7C15 := rfl
  have hxor : ∀ x y : UInt64, (x.toNat ^^^ y.toNat) % 2 ^ 64 = x.toNat ^^^ y.toNat :=
    fun x y => by rw [← UInt64.toNat_xor, hmask]
  unfold Client.Vm.hashRound Server.VmReference.hashRound
  simp only [land_m64]
  rw [← h17, ← rotl64_toNat, hxor, ← UInt64.toNat_xor, ← hk, ← UInt64.toNat_mul]
  generalize (a ^^^ Client.Vm.rotl64 b 17) * 0x9E3779B97F4A7C15 = x
  have hsh : x.toNat >>> 31 = (x >>> 31).toNat := by rw [UInt64.toNat_shiftRight, h31]
  rw [hsh, ← UInt64.toNat_xor, ← h13, ← rotl64_toNat, ← UInt64.toNat_add, ← h7, ← rotr64_toNat,
    hxor, ← UInt64.toNat_xor]

theorem mix_toNat (acc val : UInt64) (rd : UInt8) :
    (Client.Vm.mix acc val rd.toUInt64).toNat =
      Server.VmReference.mix acc.toNat val.toNat rd.toNat := by
  have hrd : rd.toNat < 256 := rd.toNat_lt
  have hamount : ((rd.toUInt64 * 7 + 13) &&& 63).toNat = (rd.toNat * 7 + 13) &&& 63 := by
    rw [UInt64.toNat_and, UInt64.toNat_add, UInt64.toNat_mul, UInt8.toNat_toUInt64]
    have h7 : (7 : UInt64).toNat = 7 := rfl
    have h13 : (13 : UInt64).toNat = 13 := rfl
    have h63 : (63 : UInt64).toNat = 63 := rfl
    have hm : rd.toNat * 7 % 2 ^ 64 = rd.toNat * 7 := Nat.mod_eq_of_lt (by omega)
    rw [h7, h13, h63, hm, Nat.mod_eq_of_lt (by omega)]
  have hk : (0xD1B54A32D192ED03 : UInt64).toNat = 0xD1B54A32D192ED03 := rfl
  unfold Client.Vm.mix Server.VmReference.mix
  simp only [land_m64]
  rw [← hamount, ← rotl64_toNat, ← hk, ← UInt64.toNat_xor, ← UInt64.toNat_add]

theorem sub_toNat (a b : UInt64) :
    (a - b).toNat = Server.VmReference.subM64 a.toNat b.toNat := by
  have ha := a.toNat_lt
  have hb := b.toNat_lt
  rw [UInt64.toNat_sub, Server.VmReference.subM64]
  omega

theorem not_toNat (a : UInt64) : (~~~a).toNat = Server.VmReference.notM64 a.toNat := by
  have ha := a.toNat_lt
  rw [UInt64.toNat_not, Server.VmReference.notM64, UInt64.size]
  omega

theorem shl_toNat (a : UInt64) (imm : UInt8) :
    (if imm.toUInt64 &&& 63 ≠ 0 then a <<< (imm.toUInt64 &&& 63) else a).toNat =
      (a.toNat <<< (imm.toNat &&& 63)) &&& Server.VmReference.m64 := by
  have ha := a.toNat_lt
  have hval : (imm.toUInt64 &&& 63).toNat = imm.toNat &&& 63 := by
    rw [UInt64.toNat_and, UInt8.toNat_toUInt64]; rfl
  have hlt := land_63_lt imm.toUInt64
  rw [UInt8.toNat_toUInt64] at hlt
  by_cases h : imm.toUInt64 &&& 63 = 0
  · have hz : imm.toNat &&& 63 = 0 := hval.symm.trans (congrArg UInt64.toNat h)
    simp [h, hz, Nat.mod_eq_of_lt ha]
  · simp only [h, ne_eq, not_false_eq_true, if_true, UInt64.toNat_shiftLeft, hval, land_m64]
    rw [Nat.mod_eq_of_lt hlt]

theorem shr_toNat (a : UInt64) (imm : UInt8) :
    (if imm.toUInt64 &&& 63 ≠ 0 then a >>> (imm.toUInt64 &&& 63) else a).toNat =
      (a.toNat >>> (imm.toNat &&& 63)) &&& Server.VmReference.m64 := by
  have ha := a.toNat_lt
  have hval : (imm.toUInt64 &&& 63).toNat = imm.toNat &&& 63 := by
    rw [UInt64.toNat_and, UInt8.toNat_toUInt64]; rfl
  have hlt := land_63_lt imm.toUInt64
  rw [UInt8.toNat_toUInt64] at hlt
  by_cases h : imm.toUInt64 &&& 63 = 0
  · have hz : imm.toNat &&& 63 = 0 := hval.symm.trans (congrArg UInt64.toNat h)
    simp [h, hz, Nat.mod_eq_of_lt ha]
  · simp only [h, ne_eq, not_false_eq_true, if_true, UInt64.toNat_shiftRight, hval, land_m64]
    have hs : a.toNat >>> (imm.toNat &&& 63) < 2 ^ 64 :=
      lt_of_le_of_lt (Nat.shiftRight_le _ _) ha
    rw [Nat.mod_eq_of_lt hlt, Nat.mod_eq_of_lt hs]

theorem cmpFlags_toNat (a b : UInt64) :
    (Client.Vm.cmpFlags a b).toNat = Server.VmReference.cmpFlags a.toNat b.toNat := by
  have heq : a = b ↔ a.toNat = b.toNat := UInt64.toNat_inj.symm
  have hlt : a < b ↔ a.toNat < b.toNat := UInt64.lt_iff_toNat_lt
  have hsf : (a - b) >>> 63 = 0 ↔ Server.VmReference.subM64 a.toNat b.toNat >>> 63 = 0 := by
    rw [← sub_toNat, ← UInt64.toNat_inj, UInt64.toNat_shiftRight]
    rfl
  unfold Client.Vm.cmpFlags Server.VmReference.cmpFlags
  simp only [ne_eq, hsf, heq, hlt]
  split_ifs <;> rfl

private theorem words_slice (data : Bytes) {nwords i : Nat} (hi : i < nwords) :
    ((Client.CryptoBox.resize data (nwords * 8)).drop (i * 8)).take 8 =
      ((data ++ zeros (nwords * 8 - data.length)).drop (i * 8)).take 8 := by
  have hcut : Client.CryptoBox.resize data (nwords * 8) =
      (data ++ zeros (nwords * 8 - data.length)).take (nwords * 8) := by
    rw [Client.CryptoBox.resize, List.take_append]
    congr 1
    exact (List.take_of_length_le (by simp)).symm
  rw [hcut, List.drop_take, List.take_take]
  congr 1
  omega

theorem wordsFrom_toNat (data : Bytes) (nwords : Nat) :
    (Client.Vm.wordsFrom data nwords).map UInt64.toNat =
      Server.VmReference.wordsFrom data nwords := by
  simp only [Client.Vm.wordsFrom, Server.VmReference.wordsFrom, List.map_map]
  apply List.map_congr_left
  intro i hi
  rw [List.mem_range] at hi
  simp only [Function.comp_apply]
  rw [Client.Constants.rdBe64_toNat (List.length_take_le _ _), words_slice data hi]

theorem packInputs_toNat (H : Hashes) (usernameNorm licenseStruct serverRandom sessionId
    transcriptPrefix : Bytes) :
    (Client.Vm.packInputs H usernameNorm licenseStruct serverRandom sessionId
        transcriptPrefix).toList.map UInt64.toNat =
      Server.VmReference.packInputs H usernameNorm licenseStruct serverRandom sessionId
        transcriptPrefix := by
  have hname : (if Client.Constants.vmUsernameCap < usernameNorm.length then
      Client.CryptoBox.resize usernameNorm Client.Constants.vmUsernameCap else usernameNorm) =
      usernameNorm.take Server.Config.vmUsernameCap := by
    split_ifs with h
    · exact Client.CryptoBox.resize_of_le h.le
    · exact (List.take_of_length_le (not_lt.mp h)).symm
  have hlen : (usernameNorm.take Server.Config.vmUsernameCap).length < 2 ^ 64 :=
    lt_of_le_of_lt (List.length_take_le _ _) (by decide)
  have hdomain : (H.blake2b Server.Config.vmInputDomain [] 8).length ≤ 8 :=
    (H.length_blake2b _ [] 8 (by simp) (by omega) (by omega)).le
  unfold Client.Vm.packInputs Server.VmReference.packInputs
  simp only [hname, Vector.toList_setIfInBounds, ByteCodec.toList_overwriteVec, List.map_set,
    ByteCodec.map_overwrite, wordsFrom_toNat, Client.Constants.vmInputDomain,
    Client.Constants.rgObf_eq]
  rw [UInt64.toNat_ofNat_of_lt' hlen]
  have hword := Client.Constants.rdBe64_toNat hdomain
  rw [Server.Config.vmInputDomain] at hword
  rw [hword]
  rfl

end RankGate.Vm.Words
