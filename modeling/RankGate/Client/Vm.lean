/- Module: RankGate/Client/Vm
   source: client/src/vm/vm.cpp, client/src/vm/opcodes.hpp, client/src/vm/bytecode_blob.cpp
   digest: The client engine on wrap-around words, dispatched through the permuted handler table. -/

import RankGate.Foundation.Lockstep
import RankGate.Foundation.Shuffle
import RankGate.Client.CryptoBox

set_option autoImplicit false
set_option relaxedAutoImplicit false

namespace RankGate.Client.Vm

open ByteCodec (Bytes overwriteVec)
open RankGate.Crypto (Hashes Primitives)
open Constants (be16 be32 be64 rdBe64)
open CryptoBox (resize)
open Lockstep (Engine)

namespace Op

def nop : UInt8 := 0x00
def movRi : UInt8 := 0x10
def movRr : UInt8 := 0x11
def load : UInt8 := 0x20
def store : UInt8 := 0x21
def add : UInt8 := 0x30
def sub : UInt8 := 0x31
def mul : UInt8 := 0x32
def xor : UInt8 := 0x33
def and : UInt8 := 0x34
def or : UInt8 := 0x35
def not : UInt8 := 0x36
def rol : UInt8 := 0x40
def ror : UInt8 := 0x41
def shl : UInt8 := 0x42
def shr : UInt8 := 0x43
def cmp : UInt8 := 0x50
def cmov : UInt8 := 0x51
def jmp : UInt8 := 0x60
def jz : UInt8 := 0x61
def jnz : UInt8 := 0x62
def call : UInt8 := 0x63
def ret : UInt8 := 0x64
def hashRound : UInt8 := 0x70
def mix : UInt8 := 0x71
def halt : UInt8 := 0xF0

end Op

def flZf : UInt8 := 1
def flCf : UInt8 := 2
def flSf : UInt8 := 4

structure VMResult where
  vmDigest : Bytes
  vmStateHash : Bytes
  vmPathId : UInt32
  vmHaltCode : UInt32
  deriving DecidableEq

def rotl64 (x n : UInt64) : UInt64 :=
  let n := n &&& 63
  if n ≠ 0 then (x <<< n) ||| (x >>> (64 - n)) else x

def rotr64 (x n : UInt64) : UInt64 :=
  let n := n &&& 63
  if n ≠ 0 then (x >>> n) ||| (x <<< (64 - n)) else x

def hashRound (a b : UInt64) : UInt64 :=
  let x := a ^^^ rotl64 b 17
  let x := x * 0x9E3779B97F4A7C15
  let x := x ^^^ (x >>> 31)
  let x := x + rotl64 a 13
  x ^^^ rotr64 x 7

def mix (acc val rd : UInt64) : UInt64 :=
  let rotated := rotl64 val ((rd * 7 + 13) &&& 63)
  acc + (rotated ^^^ 0xD1B54A32D192ED03)

def wordsFrom (data : Bytes) (nwords : Nat) : List UInt64 :=
  let padded := resize data (nwords * 8)
  (List.range nwords).map fun i => rdBe64 ((padded.drop (i * 8)).take 8)

def packInputs (H : Hashes) (usernameNorm licenseStruct serverRandom sessionId
    transcriptPrefix : Bytes) : Vector UInt64 64 :=
  let mem : Vector UInt64 64 := Vector.replicate Constants.vmMemWords 0
  let uname := if Constants.vmUsernameCap < usernameNorm.length then
    resize usernameNorm Constants.vmUsernameCap else usernameNorm
  let mem := mem.setIfInBounds 0 (UInt64.ofNat uname.length)
  let mem := overwriteVec mem 1 (wordsFrom uname 8)
  let mem := overwriteVec mem 9 (wordsFrom licenseStruct 4)
  let mem := overwriteVec mem 13 (wordsFrom serverRandom 2)
  let mem := overwriteVec mem 15 (wordsFrom sessionId 2)
  let mem := overwriteVec mem 17 (wordsFrom transcriptPrefix 4)
  let vmin := H.blake2b Constants.vmInputDomain [] 8
  mem.setIfInBounds 21 (rdBe64 vmin)

def handlerPermutation (H : Hashes) (sessionNonce : Bytes) : Vector (Fin 256) 256 :=
  let seed := H.blake2b (Constants.vmPermLabel ++ sessionNonce) [] 32
  let ks := CryptoBox.blake2bCtrKeystream H seed (256 * 2) Constants.vmPermKsDomain
  Shuffle.swapAll (fun i => i)
    (fun i => (((ks.getD (2 * i) 0).toNat <<< 8) ||| (ks.getD (2 * i + 1) 0).toNat) % (i + 1))
    (List.range' 1 255).reverse (Vector.finRange 256)

/-- The member functions a dispatch slot can hold. -/
inductive Handler
  | hNop | hMovRi | hMovRr | hLoad | hStore | hAlu3 | hNot | hShift | hCmp | hCmov | hJmp | hJcc
  | hCall | hRet | hHash | hMix | hHalt | hUnknown
  deriving DecidableEq

def dispatchSets : List (UInt8 × Handler) :=
  [(Op.nop, .hNop), (Op.movRi, .hMovRi), (Op.movRr, .hMovRr), (Op.load, .hLoad),
   (Op.store, .hStore)] ++
  [Op.add, Op.sub, Op.mul, Op.xor, Op.and, Op.or].map (·, .hAlu3) ++
  [(Op.not, .hNot)] ++
  [Op.rol, Op.ror, Op.shl, Op.shr].map (·, .hShift) ++
  [(Op.cmp, .hCmp), (Op.cmov, .hCmov), (Op.jmp, .hJmp), (Op.jz, .hJcc), (Op.jnz, .hJcc),
   (Op.call, .hCall), (Op.ret, .hRet), (Op.hashRound, .hHash), (Op.mix, .hMix),
   (Op.halt, .hHalt)]

def buildDispatchTable (perm : Vector (Fin 256) 256) : Vector Handler 256 :=
  Shuffle.fillTable (fun op => perm[op]) .hUnknown (dispatchSets.map fun p => (p.1.toFin, p.2))

structure VM where
  code : Bytes
  mem : Vector UInt64 64
  reg : Vector UInt64 16
  stack : List UInt64
  perm : Vector (Fin 256) 256
  table : Vector Handler 256
  flags : UInt8
  ip : Nat
  path : UInt32
  halted : Bool
  haltOperand : UInt8

def VM.init (H : Hashes) (code : Bytes) (mem : Vector UInt64 64) (sessionNonce : Bytes) : VM where
  code := code
  mem := mem
  reg := Vector.replicate 16 0
  stack := []
  perm := handlerPermutation H sessionNonce
  table := buildDispatchTable (handlerPermutation H sessionNonce)
  flags := 0
  ip := 0
  path := 0x811C9DC5
  halted := false
  haltOperand := 0

abbrev VmM := StateT VM (Except String)

def u8 : VmM UInt8 := do
  let s ← get
  match s.code[s.ip]? with
  | none => throw "vm: ip out of range"
  | some v =>
    modify fun s => { s with ip := s.ip + 1 }
    return v

def u16 : VmM UInt16 := do
  let s ← get
  if s.ip + 2 > s.code.length then throw "vm: u16 oob"
  let v := UInt16.ofNat (((s.code.getD s.ip 0).toNat <<< 8) ||| (s.code.getD (s.ip + 1) 0).toNat)
  modify fun s => { s with ip := s.ip + 2 }
  return v

def u64 : VmM UInt64 := do
  let s ← get
  if s.ip + 8 > s.code.length then throw "vm: u64 oob"
  let v := rdBe64 ((s.code.drop s.ip).take 8)
  modify fun s => { s with ip := s.ip + 8 }
  return v

def getR (i : UInt8) : VmM UInt64 := do
  let s ← get
  if h : i.toNat < Constants.vmNumRegs then return s.reg[i.toNat] else throw "vm: register index oob"

def setR (i : UInt8) (v : UInt64) : VmM Unit := do
  if h : i.toNat < Constants.vmNumRegs then modify fun s => { s with reg := s.reg.set i.toNat v }
  else throw "vm: register index oob"

def getMem (r : UInt64) : VmM UInt64 := do
  let s ← get
  have h : r.toNat % Constants.vmMemWords < 64 := Nat.mod_lt _ (by decide)
  return s.mem[r.toNat % Constants.vmMemWords]

def setMem (r v : UInt64) : VmM Unit := modify fun s =>
  { s with mem := s.mem.set (r.toNat % Constants.vmMemWords) v (Nat.mod_lt _ (by decide)) }

def cmpFlags (a b : UInt64) : UInt8 :=
  let diff := a - b
  let flags := 0
  let flags := if a = b then flags ||| flZf else flags
  let flags := if a < b then flags ||| flCf else flags
  if diff >>> 63 ≠ 0 then flags ||| flSf else flags

def setCmpFlags (a b : UInt64) : VmM Unit := modify fun s => { s with flags := cmpFlags a b }

def cond (code : UInt8) : VmM Bool := do
  let s ← get
  let z := decide (s.flags &&& flZf ≠ 0)
  let c := decide (s.flags &&& flCf ≠ 0)
  let sf := decide (s.flags &&& flSf ≠ 0)
  match code.toNat with
  | 0 => return z
  | 1 => return !z
  | 2 => return c
  | 3 => return !c
  | 4 => return sf
  | 5 => return !sf
  | _ => throw "vm: bad cond"

def foldPath (taken : Bool) : VmM Unit := modify fun s =>
  { s with path := ((s.path.toUInt64 * 0x01000193) ^^^ UInt64.ofNat (s.ip &&& 0xFFFF) ^^^
      (if taken then 1 else 0)).toUInt32 }

def hMovRi : VmM Unit := do
  let rd ← u8; let imm ← u64
  setR rd imm

def hMovRr : VmM Unit := do
  let rd ← u8; let rs ← u8
  setR rd (← getR rs)

def hLoad : VmM Unit := do
  let rd ← u8; let areg ← u8
  setR rd (← getMem (← getR areg))

def hStore : VmM Unit := do
  let areg ← u8; let rs ← u8
  let v ← getR rs
  setMem (← getR areg) v

def hAlu3 (op : UInt8) : VmM Unit := do
  let rd ← u8; let ra ← u8; let rb ← u8
  let a ← getR ra; let b ← getR rb
  if op = Op.add then setR rd (a + b)
  else if op = Op.sub then setR rd (a - b)
  else if op = Op.mul then setR rd (a * b)
  else if op = Op.xor then setR rd (a ^^^ b)
  else if op = Op.and then setR rd (a &&& b)
  else setR rd (a ||| b)

def hNot : VmM Unit := do
  let rd ← u8; let ra ← u8
  setR rd (~~~(← getR ra))

def hShift (op : UInt8) : VmM Unit := do
  let rd ← u8; let ra ← u8; let imm ← u8
  let a ← getR ra
  let n := imm.toUInt64
  if op = Op.rol then setR rd (rotl64 a n)
  else if op = Op.ror then setR rd (rotr64 a n)
  else if op = Op.shl then setR rd (if n &&& 63 ≠ 0 then a <<< (n &&& 63) else a)
  else setR rd (if n &&& 63 ≠ 0 then a >>> (n &&& 63) else a)

def hCmp : VmM Unit := do
  let ra ← u8; let rb ← u8
  let a ← getR ra; let b ← getR rb
  setCmpFlags a b

def hCmov : VmM Unit := do
  let rd ← u8; let rs ← u8; let c ← u8
  if ← cond c then setR rd (← getR rs)

def hJmp : VmM Unit := do
  let addr ← u16
  modify fun s => { s with ip := addr.toNat }

def hJcc (op : UInt8) : VmM Unit := do
  let addr ← u16
  let zf := decide ((← get).flags &&& flZf ≠ 0)
  let taken := if op = Op.jz then zf else !zf
  foldPath taken
  if taken then modify fun s => { s with ip := addr.toNat }

def hCall : VmM Unit := do
  let addr ← u16
  modify fun s => { s with stack := s.stack ++ [UInt64.ofNat s.ip], ip := addr.toNat }

def hRet : VmM Unit := do
  match (← get).stack.getLast? with
  | none => throw "vm: RET underflow"
  | some addr => modify fun s => { s with ip := addr.toNat, stack := s.stack.dropLast }

def hHash : VmM Unit := do
  let rd ← u8; let ra ← u8; let rb ← u8
  let a ← getR ra; let b ← getR rb
  setR rd (hashRound a b)

def hMix : VmM Unit := do
  let rd ← u8; let ra ← u8
  let acc ← getR rd; let v ← getR ra
  setR rd (mix acc v rd.toUInt64)

def hHalt : VmM Unit := do
  let code ← u8
  modify fun s => { s with haltOperand := code, halted := true }

def hUnknown : VmM Unit := modify fun s => { s with haltOperand := 0xFD, halted := true }

def Handler.invoke : Handler → UInt8 → VmM Unit
  | .hNop, _ => pure ()
  | .hMovRi, _ => Vm.hMovRi
  | .hMovRr, _ => Vm.hMovRr
  | .hLoad, _ => Vm.hLoad
  | .hStore, _ => Vm.hStore
  | .hAlu3, op => Vm.hAlu3 op
  | .hNot, _ => Vm.hNot
  | .hShift, op => Vm.hShift op
  | .hCmp, _ => Vm.hCmp
  | .hCmov, _ => Vm.hCmov
  | .hJmp, _ => Vm.hJmp
  | .hJcc, op => Vm.hJcc op
  | .hCall, _ => Vm.hCall
  | .hRet, _ => Vm.hRet
  | .hHash, _ => Vm.hHash
  | .hMix, _ => Vm.hMix
  | .hHalt, _ => Vm.hHalt
  | .hUnknown, _ => Vm.hUnknown

def kMaxSteps : Nat := 200000

/-- Fetch, then dispatch through the slot that the session's permutation gives the opcode. -/
def engine : Engine VM String where
  halted := VM.halted
  step := do
    let op ← u8
    let s ← get
    (s.table[s.perm[op.toFin]]).invoke op
  runaway := fun s => { s with haltOperand := 0xEE }

def VM.finish (H : Hashes) (s : VM) : VMResult :=
  let digest := ((s.reg.toList.drop 12).take 4).flatMap be64
  let state := s.reg.toList.flatMap be64 ++ s.stack.flatMap be64 ++ [s.flags &&& 0xFF] ++
    be16 (UInt16.ofNat (s.ip &&& 0xFFFF)) ++ be32 s.path
  let stateHash := H.blake2b state [] 32
  let haltCode := (s.haltOperand.toUInt32 ^^^ (s.path &&& 0xFF)) &&& 0xFFFFFFFF
  ⟨digest, stateHash, s.path, haltCode⟩

def VM.run (H : Hashes) (s : VM) : Except String VMResult := do
  let (_, t) ← engine.run kMaxSteps s
  return t.finish H

def kEncryptedBlob : Bytes :=
  [0x30, 0x8f, 0xe8, 0xb5, 0x00, 0x21, 0xbc, 0xd8, 0xc0, 0x1b, 0x41, 0x41,
   0x39, 0x9c, 0xd7, 0x00, 0x08, 0x9e, 0x24, 0xf0, 0xfb, 0x4a, 0x4a, 0xed,
   0x04, 0xb9, 0xd9, 0xa5, 0x15, 0xc7, 0x61, 0x3c, 0x60, 0x86, 0xc6, 0x50,
   0xd0, 0x77, 0x21, 0x97, 0x2e, 0xdb, 0x1a, 0x77, 0x47, 0x15, 0xa9, 0x35,
   0xb4, 0x84, 0x4f, 0x93, 0x36, 0x62, 0x29, 0x4a, 0xa0, 0xda, 0xd9, 0x63,
   0x57, 0xe0, 0x48, 0xd6, 0x71, 0x1a, 0xc8, 0x86, 0x77, 0x2f, 0x2f, 0x39,
   0x2d, 0x9a, 0x75, 0x3c, 0x75, 0x25, 0xee, 0x02, 0xd6, 0x0a, 0xa8, 0x13,
   0xbc, 0x3a, 0x76, 0xd3, 0x30, 0xa4, 0xdc, 0xa9, 0x72, 0x26, 0xaa, 0x2e,
   0x8f, 0x05, 0x5b, 0x19, 0x8d, 0x72, 0x21, 0x09, 0xc6, 0xf7, 0xe8, 0x83,
   0x6e, 0x31, 0x8d, 0x70, 0x60, 0x29, 0xf0, 0x75, 0xd2, 0xcd, 0xbe, 0x48,
   0x10, 0xf6, 0x94, 0x50, 0xa0, 0x90, 0xea, 0x5c, 0xb8, 0x51, 0xfc, 0xfe,
   0xe7, 0xa0, 0x3b, 0xf1, 0xd7, 0x2a, 0xe8, 0xa2, 0x58, 0x70, 0xf3, 0x4b,
   0xe8, 0xd9, 0xfb, 0x2f, 0x1e, 0x52, 0xbe, 0xc2, 0x55, 0x85, 0x31, 0xcb,
   0x33, 0x26, 0x4a, 0x57, 0x35, 0x48, 0x5d, 0xe1, 0xdb, 0x87, 0x60, 0xa9,
   0xdb, 0xfa, 0x26, 0xe6, 0x61, 0xe3, 0x3a, 0x18, 0x56, 0x26, 0x88, 0x1f,
   0x93, 0x75, 0x83, 0x9a, 0xd0, 0xb9, 0x23, 0x14, 0xf1, 0x92, 0xcb, 0x25,
   0x65, 0x66, 0xf8, 0x47, 0xa4, 0xc9, 0x31, 0x77, 0x8a, 0xbc, 0x59, 0xa3,
   0x48, 0xdf, 0x08, 0x39, 0x93, 0x0a, 0xf3, 0xcc, 0xbf, 0xc0, 0x7e, 0xcf,
   0x9a, 0x21, 0x71, 0xc5, 0x11, 0x89, 0xce, 0x49, 0x4c, 0xf5, 0xaa, 0x4e,
   0x94, 0xc2, 0x5e, 0x6a, 0xfc, 0x7a, 0xd4, 0x20, 0x56, 0xfe, 0xc8, 0x34,
   0x22, 0x65]

def loadBytecode (H : Hashes) : Bytes :=
  let key := H.blake2b Constants.vmBlobKeyLabel [] 32
  CryptoBox.streamXor H key kEncryptedBlob Constants.vmBlobDomain

def runBytecode (H : Hashes) (code usernameNorm licenseStruct serverRandom sessionId
    transcriptPrefix sessionNonce : Bytes) : Except String VMResult :=
  (VM.init H code
    (packInputs H usernameNorm licenseStruct serverRandom sessionId transcriptPrefix)
    sessionNonce).run H

def runVm (H : Hashes) (usernameNorm licenseStruct serverRandom sessionId transcriptPrefix
    sessionNonce : Bytes) : Except String VMResult :=
  runBytecode H (loadBytecode H) usernameNorm licenseStruct serverRandom sessionId
    transcriptPrefix sessionNonce

end RankGate.Client.Vm
