/- Module: RankGate/Client/Constants
   source: client/src/constants.hpp, client/src/common.hpp, client/src/protection/encoded_strings.hpp
   digest: Client labels behind their compile-time encoding, and the fixed-width integer helpers. -/

import RankGate.Crypto.Primitives
import Mathlib.Data.Nat.Bitwise

set_option autoImplicit false
set_option relaxedAutoImplicit false

namespace RankGate.Client.Constants

open ByteCodec (Bytes ascii beNat beBytes)

/-! The labels are stored XORed with a position-dependent keystream. -/

def obfKs (s : UInt8) (i : Nat) : UInt8 :=
  s + (0x37 : UInt8) * UInt8.ofNat i + UInt8.ofNat (i <<< 1) + (0x5A : UInt8)

def obfXor (s : UInt8) (data : Bytes) : Bytes := data.mapIdx fun i b => b ^^^ obfKs s i

/-- `RG_OBF`: encrypted at compile time (`sizeof` counts the NUL), decoded at run time. -/
def rgObf (lit : String) : Bytes :=
  let seed : UInt8 := 0xB7 ^^^ UInt8.ofNat ((lit.toList.length + 1) * 5)
  obfXor seed (obfXor seed (ascii lit))

theorem obfXor_obfXor (s : UInt8) (data : Bytes) : obfXor s (obfXor s data) = data := by
  have h : ∀ i b, (b ^^^ obfKs s i) ^^^ obfKs s i = b := fun i b => by
    rw [UInt8.xor_assoc, UInt8.xor_self, UInt8.xor_zero]
  simp only [obfXor, List.mapIdx_mapIdx]
  apply List.ext_getElem <;> simp [h]

@[simp] theorem rgObf_eq (lit : String) : rgObf lit = ascii lit := obfXor_obfXor _ _

def magic : Bytes := ascii "RG6" ++ [0x00]
def protoVersion : UInt8 := 6

def mtHello : UInt8 := 0x01
def mtServerChallenge : UInt8 := 0x02
def mtClientProof1 : UInt8 := 0x03
def mtServerProof1 : UInt8 := 0x04
def mtClientProof2 : UInt8 := 0x05
def mtFinalize : UInt8 := 0x06
def mtSealedFlag : UInt8 := 0x07

def szMagic : Nat := 4
def szVersion : Nat := 1
def szMsgtype : Nat := 1
def szSessionId : Nat := 16
def szCounter : Nat := 8
def szNonce : Nat := 24
def szPaylen : Nat := 4
def szAuthtag : Nat := 16
def szTranscriptMac : Nat := 32

def headerSize : Nat :=
  szMagic + szVersion + szMsgtype + szSessionId + szCounter + szNonce + szPaylen

def transcriptSeed : Bytes := rgObf "RG6-TRANSCRIPT/v6"
def bootstrapMacLabel : Bytes := rgObf "RG6-BOOTSTRAP-MAC/v6"

def hkdfC2s : Bytes := rgObf "RG6 c2s aead"
def hkdfS2c : Bytes := rgObf "RG6 s2c aead"
def hkdfMac : Bytes := rgObf "RG6 transcript mac"
def hkdfProof1 : Bytes := rgObf "RG6 client proof1"
def hkdfSproof1 : Bytes := rgObf "RG6 server proof1"
def hkdfProof2 : Bytes := rgObf "RG6 client proof2"
def hkdfSeal : Bytes := rgObf "RG6 final seal"

def signContext : Bytes := rgObf "RG6-SERVER-CHALLENGE/v6"
def proof1Label : Bytes := rgObf "RG6-PROOF1/v6"
def proof2Label : Bytes := rgObf "RG6-PROOF2/v6"
def sproof1Label : Bytes := rgObf "RG6-SPROOF1/v6"
def sealInfo : Bytes := rgObf "RG6 seal"

def licensePrefix : Bytes := ascii "RG6"
def licenseVersion : UInt8 := 6
def licenseStructSize : Nat := 25

def vmInputDomain : Bytes := rgObf "RG6-VM-INPUT/v6"
def vmBlobDomain : Bytes := rgObf "RG6-VM-BLOB/v6"
abbrev vmMemWords : Nat := 64
abbrev vmNumRegs : Nat := 16
def vmUsernameCap : Nat := 64
def vmPermLabel : Bytes := rgObf "RG6-VM-PERM/v6"
def vmPermKsDomain : Bytes := rgObf "RG6-VM-PERM-KS/v6"
def vmBlobKeyLabel : Bytes := rgObf "rankgate-insane-vm-blob-obfuscation/v6"

def be16 (v : UInt16) : Bytes := [(v >>> 8).toUInt8, v.toUInt8]

def be32 (v : UInt32) : Bytes :=
  [(v >>> 24).toUInt8, (v >>> 16).toUInt8, (v >>> 8).toUInt8, v.toUInt8]

def be64 (v : UInt64) : Bytes :=
  (List.range 8).map fun i => (v >>> UInt64.ofNat (56 - 8 * i)).toUInt8

def rdBe32 (p : Bytes) : UInt32 :=
  ((p.getD 0 0).toUInt32 <<< 24) ||| ((p.getD 1 0).toUInt32 <<< 16) |||
    ((p.getD 2 0).toUInt32 <<< 8) ||| (p.getD 3 0).toUInt32

def rdBe64 (p : Bytes) : UInt64 :=
  (p.take 8).foldl (fun v b => (v <<< 8) ||| b.toUInt64) 0

/-- `len` bytes from `off` on; throws past the end. -/
def slice (b : Bytes) (off len : Nat) : Except String Bytes :=
  if b.length < off + len then .error "slice out of range" else .ok ((b.drop off).take len)

theorem be16_eq (v : UInt16) : be16 v = beBytes 2 v.toNat := by
  simp only [be16, beBytes, List.nil_append, List.cons_append, List.cons.injEq, and_true]
  constructor
  · apply UInt8.toNat_inj.mp
    simp [Nat.shiftRight_eq_div_pow]
  · apply UInt8.toNat_inj.mp
    simp

theorem be32_eq (v : UInt32) : be32 v = beBytes 4 v.toNat := by
  simp only [be32, beBytes, List.nil_append, List.cons_append, List.cons.injEq, and_true]
  refine ⟨?_, ?_, ?_, ?_⟩ <;>
  · apply UInt8.toNat_inj.mp
    simp [Nat.shiftRight_eq_div_pow, Nat.div_div_eq_div_mul]

theorem be64_eq (v : UInt64) : be64 v = beBytes 8 v.toNat := by
  simp only [be64, beBytes, List.range, List.range.loop, List.map_cons, List.map_nil,
    List.nil_append, List.cons_append, List.cons.injEq, and_true]
  refine ⟨?_, ?_, ?_, ?_, ?_, ?_, ?_, ?_⟩ <;>
  · apply UInt8.toNat_inj.mp
    simp [Nat.shiftRight_eq_div_pow, Nat.div_div_eq_div_mul]

theorem be32_injective : Function.Injective be32 := by
  intro v w h
  have hnat := congrArg beNat h
  rw [be32_eq, be32_eq, ByteCodec.beNat_beBytes v.toNat_lt, ByteCodec.beNat_beBytes w.toNat_lt]
    at hnat
  exact UInt32.toNat_inj.mp hnat

theorem be64_injective : Function.Injective be64 := by
  intro v w h
  have hnat := congrArg beNat h
  rw [be64_eq, be64_eq, ByteCodec.beNat_beBytes v.toNat_lt, ByteCodec.beNat_beBytes w.toNat_lt]
    at hnat
  exact UInt64.toNat_inj.mp hnat

private theorem shift_in_toNat {v : UInt64} (b : UInt8) (hv : v.toNat < 2 ^ 56) :
    ((v <<< 8) ||| b.toUInt64).toNat = v.toNat * 256 + b.toNat := by
  have hb : b.toNat < 2 ^ 8 := b.toNat_lt
  have hs : v.toNat <<< 8 = v.toNat * 256 := by rw [Nat.shiftLeft_eq]
  rw [UInt64.toNat_or, UInt64.toNat_shiftLeft, UInt8.toNat_toUInt64]
  have h8 : (8 : UInt64).toNat % 64 = 8 := rfl
  rw [h8, Nat.mod_eq_of_lt (by omega), ← Nat.shiftLeft_add_eq_or_of_lt hb, hs]

theorem rdBe64_toNat {p : Bytes} (hp : p.length ≤ 8) : (rdBe64 p).toNat = beNat p := by
  rw [rdBe64, List.take_of_length_le hp]
  induction p using List.reverseRecOn with
  | nil => rfl
  | append_singleton p b ih =>
    rw [List.length_append, List.length_singleton] at hp
    have hlt := ByteCodec.beNat_lt p
    have hpow : 256 ^ p.length ≤ 256 ^ 7 := Nat.pow_le_pow_right (by omega) (by omega)
    have hih := ih (by omega)
    rw [List.foldl_append, List.foldl_cons, List.foldl_nil, ByteCodec.beNat_append_singleton,
      shift_in_toNat b (by rw [hih]; omega), hih]

private theorem or_byte (x : Nat) (b : UInt8) : (x <<< 8) ||| b.toNat = x * 256 + b.toNat := by
  have hb : b.toNat < 2 ^ 8 := b.toNat_lt
  rw [← Nat.shiftLeft_add_eq_or_of_lt hb, Nat.shiftLeft_eq]

private theorem byte_shift_toNat (b : UInt8) {k : UInt32} (hk : k.toNat < 25) :
    (b.toUInt32 <<< k).toNat = b.toNat <<< k.toNat := by
  have hb := b.toNat_lt
  have hpow : 2 ^ k.toNat ≤ 2 ^ 24 := Nat.pow_le_pow_right (by decide) (by omega)
  have hlt : b.toNat * 2 ^ k.toNat < 2 ^ 32 :=
    lt_of_le_of_lt (Nat.mul_le_mul (Nat.le_of_lt_succ hb) hpow) (by decide)
  rw [UInt32.toNat_shiftLeft, UInt8.toNat_toUInt32, Nat.mod_eq_of_lt (by omega : k.toNat < 32),
    Nat.shiftLeft_eq, Nat.mod_eq_of_lt hlt]

theorem rdBe32_toNat {p : Bytes} (hp : p.length = 4) : (rdBe32 p).toNat = beNat p := by
  match p, hp with
  | [a, b, c, d], _ =>
    have hsplit : a.toNat <<< 24 ||| b.toNat <<< 16 ||| c.toNat <<< 8 ||| d.toNat =
        ((a.toNat <<< 8 ||| b.toNat) <<< 8 ||| c.toNat) <<< 8 ||| d.toNat := by
      simp only [Nat.shiftLeft_or_distrib, ← Nat.shiftLeft_add]
    simp only [rdBe32, List.getD_cons_zero, List.getD_cons_succ, UInt32.toNat_or,
      UInt8.toNat_toUInt32]
    rw [byte_shift_toNat a (by decide), byte_shift_toNat b (by decide),
      byte_shift_toNat c (by decide)]
    refine hsplit.trans ?_
    rw [or_byte, or_byte, or_byte]
    simp [beNat]

end RankGate.Client.Constants
