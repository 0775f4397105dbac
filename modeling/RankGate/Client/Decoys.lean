/- Module: RankGate/Client/Decoys
   source: client/src/protection/decoys.cpp, client/src/protection/obfuscation.hpp
   digest: The decoy checks that run before the session, and what is left of them in plain arithmetic. -/

import RankGate.Foundation.ByteCodec
import RankGate.Foundation.MixedArithmetic
import RankGate.Foundation.Text

set_option autoImplicit false
set_option relaxedAutoImplicit false

namespace RankGate.Client.Decoys

open ByteCodec (Bytes ascii beBytes)

def mbaAdd (a b : UInt64) : UInt64 := (a ^^^ b) + 2 * (a &&& b)

def mbaXor (a b : UInt64) : UInt64 := (a ||| b) - (a &&& b)

/-- The sum is formed in 64 bits and cut to 32. -/
def blinded32 (hiSplit loSplit blind : UInt32) : UInt32 :=
  (mbaAdd (hiSplit ^^^ blind).toUInt64 loSplit.toUInt64 ^^^ blind.toUInt64).toUInt32

@[simp] theorem mbaAdd_eq (a b : UInt64) : mbaAdd a b = a + b :=
  MixedArithmetic.word_xor_add_two_mul_and a b

@[simp] theorem mbaXor_eq (a b : UInt64) : mbaXor a b = a ^^^ b :=
  MixedArithmetic.word_or_sub_and a b

theorem blinded32_eq (hiSplit loSplit blind : UInt32) :
    blinded32 hiSplit loSplit blind = ((hiSplit ^^^ blind) + loSplit) ^^^ blind := by
  rw [blinded32, mbaAdd_eq, UInt64.toUInt32_xor, UInt64.toUInt32_add, UInt32.toUInt32_toUInt64,
    UInt32.toUInt32_toUInt64, UInt32.toUInt32_toUInt64]

def kDecoyBytecode : Bytes := [
  0x10, 0x00, 0x2a, 0x33, 0x01, 0x02, 0x60, 0x00, 0x18, 0x70, 0x0c, 0x0d, 0x0e, 0x40, 0x03, 0x11,
  0x50, 0x04, 0x05, 0x61, 0x00, 0x2c, 0x33, 0x06, 0x06, 0x71, 0x0c, 0x0c, 0x31, 0x07, 0x07, 0x08,
  0xf0, 0x99, 0x21, 0x09, 0x0a, 0x20, 0x0b, 0x0c, 0x33, 0x0d, 0x0e, 0x0f, 0x64, 0x42, 0x01, 0x02,
  0x03, 0x70, 0x0a, 0x0b, 0x0c, 0x36, 0x05, 0x06, 0xf0, 0x7e, 0x11, 0x22, 0x33, 0x44, 0x55, 0x66,
  0x77, 0x88, 0x99, 0xaa, 0xbb, 0xcc, 0xdd, 0xee]

def decoyFlag : Bytes := [
  0x1c, 0x16, 0x1b, 0x1d, 0x21, 0x3e, 0x3f, 0x39, 0x35, 0x23, 0x05, 0x2e, 0x32, 0x33, 0x39, 0x05,
  0x33, 0x29, 0x05, 0x34, 0x35, 0x2e, 0x05, 0x2e, 0x32, 0x3f, 0x05, 0x28, 0x3f, 0x3b, 0x36, 0x05,
  0x1c, 0x16, 0x1b, 0x1d, 0x27].map (· ^^^ 0x5A)

def fakeSerialCheck (username license : Bytes) : Bool :=
  let acc := license.foldl (fun acc c => blinded32 acc c.toUInt32 0x9E3779B9) 0x811C9DC5
  let ubind := username.foldl (fun u c => (mbaAdd u.toUInt64 c.toUInt64).toUInt32) 0
  (acc ^^^ ubind) &&& 0xFFFF = 0x1337

def fakeVmTrace : UInt32 :=
  kDecoyBytecode.foldl (fun cs b => (mbaAdd cs.toUInt64 b.toUInt64).toUInt32) 0

def hashStep (h : UInt32) (c : UInt8) : UInt32 :=
  (mbaAdd ((h ^^^ c.toUInt32) * 0x01000193).toUInt64 0).toUInt32

def inputHash (a b : Bytes) : UInt32 :=
  let h := a.foldl hashStep 0x811C9DC5
  b.foldl hashStep (h ^^^ 0x7C)

def decoyRoute : Bytes := ascii "/api/v1/redeem"

/-- `%08x` -/
def hex08 (n : UInt32) : Bytes :=
  ((beBytes 4 n.toNat).flatMap Text.hexByte).map fun c => UInt8.ofNat c.toNat

/-- What is printed, and the code that the caller drops. -/
def decoyPreflight (username license : Bytes) (verbose : Bool) : List Bytes × UInt32 :=
  let serialOk := fakeSerialCheck username license
  let code := fakeVmTrace ^^^ (if serialOk then 0xA5 else 0x5A)
  let (unlock, code) :=
    if inputHash username license = 0x5A1C9E37 then
      ([ascii "[unlock] " ++ decoyFlag ++ ascii " via " ++ decoyRoute ++ ascii "\n"],
        code ^^^ UInt32.ofNat decoyFlag.length)
    else ([], code)
  let report :=
    if verbose then [ascii "[*] preflight: local checks complete (code=" ++ hex08 code ++ ascii ")\n"]
    else []
  (unlock ++ report, code)

section Plain

def byteSum (b : Bytes) : UInt32 := b.foldr (fun c acc => c.toUInt32 + acc) 0

theorem foldl_add (b : Bytes) (start : UInt32) :
    b.foldl (fun u c => (mbaAdd u.toUInt64 c.toUInt64).toUInt32) start = start + byteSum b := by
  induction b generalizing start with
  | nil => simp [byteSum]
  | cons c b ih =>
    rw [List.foldl_cons, ih, mbaAdd_eq, UInt64.toUInt32_add, UInt32.toUInt32_toUInt64]
    simp [byteSum, UInt32.add_assoc]

theorem foldl_blinded (b : Bytes) (start blind : UInt32) :
    b.foldl (fun acc c => blinded32 acc c.toUInt32 blind) start =
      ((start ^^^ blind) + byteSum b) ^^^ blind := by
  induction b generalizing start with
  | nil =>
    have hsum : byteSum [] = 0 := rfl
    rw [List.foldl_nil, hsum, UInt32.add_zero, UInt32.xor_assoc, UInt32.xor_self, UInt32.xor_zero]
  | cons c b ih =>
    rw [List.foldl_cons, ih, blinded32_eq, UInt32.xor_assoc, UInt32.xor_self, UInt32.xor_zero]
    simp [byteSum, UInt32.add_assoc]

def fnvStep (h : UInt32) (c : UInt8) : UInt32 := (h ^^^ c.toUInt32) * 0x01000193

def fnv1a (b : Bytes) : UInt32 := b.foldl fnvStep 0x811C9DC5

theorem hashStep_eq (h : UInt32) (c : UInt8) : hashStep h c = fnvStep h c := by
  unfold hashStep fnvStep
  generalize (h ^^^ c.toUInt32) * 0x01000193 = x
  rw [mbaAdd_eq, UInt64.add_zero, UInt32.toUInt32_toUInt64]

theorem foldl_hashStep (b : Bytes) (h : UInt32) : b.foldl hashStep h = b.foldl fnvStep h := by
  induction b generalizing h with
  | nil => rw [List.foldl_nil, List.foldl_nil]
  | cons c b ih => rw [List.foldl_cons, List.foldl_cons, ih, hashStep_eq]

theorem inputHash_cons (a b : Bytes) (c : UInt8) :
    inputHash a (c :: b) = fnv1a (a ++ (0x7C ^^^ c) :: b) := by
  have hstep (h : UInt32) : fnvStep (h ^^^ 0x7C) c = fnvStep h (0x7C ^^^ c) := by
    rw [fnvStep, fnvStep, UInt8.toUInt32_xor, UInt32.xor_assoc]
    rfl
  rw [inputHash, foldl_hashStep, foldl_hashStep, List.foldl_cons, hstep, fnv1a, List.foldl_append,
    List.foldl_cons]

theorem fakeSerialCheck_eq (username license : Bytes) : fakeSerialCheck username license =
    decide (((((0x811C9DC5 ^^^ 0x9E3779B9) + byteSum license) ^^^ 0x9E3779B9) ^^^
      byteSum username) &&& 0xFFFF = 0x1337) := by
  rw [fakeSerialCheck, foldl_blinded, foldl_add, UInt32.zero_add]

end Plain

/-- The checks without their disguise: the serial check sees a username and a license through the
sums of their bytes alone, and the hash of the pair is FNV-1a of one text, the separator lost in it. -/
theorem decoys_in_plain :
    (∀ a b, mbaAdd a b = a + b ∧ mbaXor a b = a ^^^ b) ∧
      (∀ username username' license license' : Bytes, byteSum username = byteSum username' →
        byteSum license = byteSum license' →
        fakeSerialCheck username license = fakeSerialCheck username' license') ∧
      (∀ a b c, inputHash a (c :: b) = fnv1a (a ++ (0x7C ^^^ c) :: b)) ∧
      ∀ a a' b b' c c', a ++ (0x7C ^^^ c) :: b = a' ++ (0x7C ^^^ c') :: b' →
        inputHash a (c :: b) = inputHash a' (c' :: b') := by
  refine ⟨fun a b => ⟨mbaAdd_eq a b, mbaXor_eq a b⟩, ?_, inputHash_cons, ?_⟩
  · intro username username' license license' hname hlicense
    rw [fakeSerialCheck_eq, fakeSerialCheck_eq, hname, hlicense]
  · intro a a' b b' c c' h
    rw [inputHash_cons, inputHash_cons, h]

end RankGate.Client.Decoys
