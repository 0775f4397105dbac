/- Module: RankGate/Server/VmReference
   source: server/app/vm_reference.py, server/app/bytecode_blob.py
   digest: The reference engine on unbounded integers, masked exactly where the source masks. -/

import RankGate.Foundation.Lockstep
import RankGate.Server.CryptoBox

set_option autoImplicit false
set_option relaxedAutoImplicit false

namespace RankGate.Server.VmReference

open ByteCodec (Bytes ascii zeros beNat beBytes overwrite)
open RankGate.Crypto (Hashes Primitives)
open RankGate.Server.Config (Failure Env toBytes)
open Lockstep (Engine)

def m64 : Nat := (1 <<< 64) - 1
def m32 : Nat := (1 <<< 32) - 1

namespace Op

def nop : Nat := 0x00
def movRi : Nat := 0x10
def movRr : Nat := 0x11
def load : Nat := 0x20
def store : Nat := 0x21
def add : Nat := 0x30
def sub : Nat := 0x31
def mul : Nat := 0x32
def xor : Nat := 0x33
def and : Nat := 0x34
def or : Nat := 0x35
def not : Nat := 0x36
def rol : Nat := 0x40
def ror : Nat := 0x41
def shl : Nat := 0x42
def shr : Nat := 0x43
def cmp : Nat := 0x50
def cmov : Nat := 0x51
def jmp : Nat := 0x60
def jz : Nat := 0x61
def jnz : Nat := 0x62
def call : Nat := 0x63
def ret : Nat := 0x64
def hashRound : Nat := 0x70
def mix : Nat := 0x71
def halt : Nat := 0xF0

end Op

/-- Operand widths in bytes, the opcode byte excluded. -/
def operandLen : List (Nat × Nat) :=
  [(Op.nop, 0), (Op.movRi, 9), (Op.movRr, 2), (Op.load, 2), (Op.store, 2),
   (Op.add, 3), (Op.sub, 3), (Op.mul, 3), (Op.xor, 3), (Op.and, 3), (Op.or, 3), (Op.not, 2),
   (Op.rol, 3), (Op.ror, 3), (Op.shl, 3), (Op.shr, 3),
   (Op.cmp, 2), (Op.cmov, 3), (Op.jmp, 2), (Op.jz, 2), (Op.jnz, 2), (Op.call, 2), (Op.ret, 0),
   (Op.hashRound, 3), (Op.mix, 2), (Op.halt, 1)]

def condZf : Nat := 0
def condNzf : Nat := 1
def condCf : Nat := 2
def condNcf : Nat := 3
def condSf : Nat := 4
def condNsf : Nat := 5

def flZf : Nat := 1
def flCf : Nat := 2
def flSf : Nat := 4

structure VMResult where
  vmDigest : Bytes
  vmStateHash : Bytes
  vmPathId : Nat
  vmHaltCode : Nat
  deriving DecidableEq

def rotl64 (x n : Nat) : Nat :=
  let n := n &&& 63
  if n ≠ 0 then ((x <<< n) ||| (x >>> (64 - n))) &&& m64 else x &&& m64

def rotr64 (x n : Nat) : Nat :=
  let n := n &&& 63
  if n ≠ 0 then ((x >>> n) ||| (x <<< (64 - n))) &&& m64 else x &&& m64

def hashRound (a b : Nat) : Nat :=
  let x := (a ^^^ rotl64 b 17) &&& m64
  let x := (x * 0x9E3779B97F4A7C15) &&& m64
  let x := x ^^^ (x >>> 31)
  let x := (x + rotl64 a 13) &&& m64
  let x := x ^^^ rotr64 x 7
  x &&& m64

def mix (acc val rd : Nat) : Nat :=
  let rotated := rotl64 val ((rd * 7 + 13) &&& 63)
  (acc + (rotated ^^^ 0xD1B54A32D192ED03)) &&& m64

def subM64 (a b : Nat) : Nat := (((a : Int) - (b : Int)) % 2 ^ 64).toNat

def notM64 (a : Nat) : Nat := ((-(a : Int) - 1) % 2 ^ 64).toNat

def wordsFrom (data : Bytes) (nwords : Nat) : List Nat :=
  let padded := data ++ zeros (nwords * 8 - data.length)
  (List.range nwords).map fun i => beNat ((padded.drop (i * 8)).take 8)

def packInputs (H : Hashes) (usernameNorm licenseStruct serverRandom sessionId
    transcriptPrefix : Bytes) : List Nat :=
  let mem := List.replicate Config.vmMemWords 0
  let uname := usernameNorm.take Config.vmUsernameCap
  let mem := mem.set 0 uname.length
  let mem := overwrite mem 1 (wordsFrom uname 8)
  let mem := overwrite mem 9 (wordsFrom licenseStruct 4)
  let mem := overwrite mem 13 (wordsFrom serverRandom 2)
  let mem := overwrite mem 15 (wordsFrom sessionId 2)
  let mem := overwrite mem 17 (wordsFrom transcriptPrefix 4)
  mem.set 21 (beNat (H.blake2b Config.vmInputDomain [] 8))

/-- Fisher-Yates driven by two keystream bytes a draw. The keystream has 512 bytes, so every
index below is in range. -/
def handlerPermutation (H : Hashes) (sessionNonce : Bytes) : List Nat :=
  let seed := H.blake2b (ascii "RG6-VM-PERM/v6" ++ sessionNonce) [] 32
  let ks := CryptoBox.blake2bCtrKeystream H seed (256 * 2) (ascii "RG6-VM-PERM-KS/v6")
  (List.range' 1 255).reverse.foldl (fun perm i =>
    let j := (((ks.getD (2 * i) 0).toNat <<< 8) ||| (ks.getD (2 * i + 1) 0).toNat) % (i + 1)
    (perm.set i (perm.getD j 0)).set j (perm.getD i 0)) (List.range 256)

structure VM where
  code : Bytes
  mem : List Nat
  reg : List Nat
  stack : List Nat
  flags : Nat
  ip : Nat
  path : Nat
  halted : Bool
  haltOperand : Nat
  perm : List Nat

def VM.init (H : Hashes) (bytecode : Bytes) (mem : List Nat) (sessionNonce : Bytes) : VM where
  code := bytecode
  mem := mem
  reg := List.replicate Config.vmNumRegs 0
  stack := []
  flags := 0
  ip := 0
  path := 0x811C9DC5
  halted := false
  haltOperand := 0
  perm := handlerPermutation H sessionNonce

abbrev VmM := StateT VM (Except Failure)

/-- List indexing, with `IndexError` past the end. -/
def index {α : Type} (l : List α) (i : Nat) : VmM α :=
  match l[i]? with
  | some v => pure v
  | none => throw .indexError

def getReg (i : Nat) : VmM Nat := do index (← get).reg i

def setReg (i v : Nat) : VmM Unit := do
  let _ ← index (← get).reg i
  modify fun s => { s with reg := s.reg.set i v }

def getMem (i : Nat) : VmM Nat := do index (← get).mem i

def setMem (i v : Nat) : VmM Unit := do
  let _ ← index (← get).mem i
  modify fun s => { s with mem := s.mem.set i v }

def setIp (addr : Nat) : VmM Unit := modify fun s => { s with ip := addr }

def cmpFlags (a b : Nat) : Nat :=
  let diff := subM64 a b
  let flags := 0
  let flags := if a = b then flags ||| flZf else flags
  let flags := if a < b then flags ||| flCf else flags
  if diff >>> 63 ≠ 0 then flags ||| flSf else flags

def setCmpFlags (a b : Nat) : VmM Unit := modify fun s => { s with flags := cmpFlags a b }

def cond (code : Nat) : VmM Bool := do
  let s ← get
  let z := decide (s.flags &&& flZf ≠ 0)
  let c := decide (s.flags &&& flCf ≠ 0)
  let sf := decide (s.flags &&& flSf ≠ 0)
  index [z, !z, c, !c, sf, !sf] code

def foldPath (taken : Bool) : VmM Unit := modify fun s =>
  { s with path := ((s.path * 0x01000193) ^^^ (s.ip &&& 0xFFFF) ^^^ taken.toNat) &&& m32 }

def u8 : VmM Nat := do
  let s ← get
  let v ← index s.code s.ip
  setIp (s.ip + 1)
  return v.toNat

def u16 : VmM Nat := do
  let s ← get
  let hi ← index s.code s.ip
  let lo ← index s.code (s.ip + 1)
  setIp (s.ip + 2)
  return (hi.toNat <<< 8) ||| lo.toNat

/-- The slice may be short: past the end it holds fewer than eight bytes and nothing raises. -/
def u64 : VmM Nat := do
  let s ← get
  let v := beNat ((s.code.drop s.ip).take 8)
  setIp (s.ip + 8)
  return v

def exec (op : Nat) : VmM Unit :=
  if op = Op.nop then pure ()
  else if op = Op.movRi then do
    let rd ← u8; let imm ← u64
    setReg rd (imm &&& m64)
  else if op = Op.movRr then do
    let rd ← u8; let rs ← u8
    setReg rd (← getReg rs)
  else if op = Op.load then do
    let rd ← u8; let areg ← u8
    setReg rd (← getMem ((← getReg areg) % Config.vmMemWords))
  else if op = Op.store then do
    let areg ← u8; let rs ← u8
    let v ← getReg rs
    setMem ((← getReg areg) % Config.vmMemWords) v
  else if op ∈ [Op.add, Op.sub, Op.mul, Op.xor, Op.and, Op.or] then do
    let rd ← u8; let ra ← u8; let rb ← u8
    let a ← getReg ra; let b ← getReg rb
    if op = Op.add then setReg rd ((a + b) &&& m64)
    else if op = Op.sub then setReg rd (subM64 a b)
    else if op = Op.mul then setReg rd ((a * b) &&& m64)
    else if op = Op.xor then setReg rd (a ^^^ b)
    else if op = Op.and then setReg rd (a &&& b)
    else setReg rd (a ||| b)
  else if op = Op.not then do
    let rd ← u8; let ra ← u8
    setReg rd (notM64 (← getReg ra))
  else if op ∈ [Op.rol, Op.ror, Op.shl, Op.shr] then do
    let rd ← u8; let ra ← u8; let imm ← u8
    let a ← getReg ra
    if op = Op.rol then setReg rd (rotl64 a imm)
    else if op = Op.ror then setReg rd (rotr64 a imm)
    else if op = Op.shl then setReg rd ((a <<< (imm &&& 63)) &&& m64)
    else setReg rd ((a >>> (imm &&& 63)) &&& m64)
  else if op = Op.cmp then do
    let ra ← u8; let rb ← u8
    let a ← getReg ra; let b ← getReg rb
    setCmpFlags a b
  else if op = Op.cmov then do
    let rd ← u8; let rs ← u8; let c ← u8
    if ← cond c then setReg rd (← getReg rs)
  else if op = Op.jmp then do
    let addr ← u16
    setIp addr
  else if op ∈ [Op.jz, Op.jnz] then do
    let addr ← u16
    let zf := decide ((← get).flags &&& flZf ≠ 0)
    let taken := if op = Op.jz then zf else !zf
    foldPath taken
    if taken then setIp addr
  else if op = Op.call then do
    let addr ← u16
    modify fun s => { s with stack := s.stack ++ [s.ip], ip := addr }
  else if op = Op.ret then do
    match (← get).stack.getLast? with
    | some addr => modify fun s => { s with ip := addr, stack := s.stack.dropLast }
    | none => throw .indexError
  else if op = Op.hashRound then do
    let rd ← u8; let ra ← u8; let rb ← u8
    let a ← getReg ra; let b ← getReg rb
    setReg rd (hashRound a b)
  else if op = Op.mix then do
    let rd ← u8; let ra ← u8
    let acc ← getReg rd; let v ← getReg ra
    setReg rd (mix acc v rd)
  else if op = Op.halt then do
    let code ← u8
    modify fun s => { s with haltOperand := code, halted := true }
  else modify fun s => { s with haltOperand := 0xFD, halted := true }

def maxSteps : Nat := 200000

/-- The main loop: fetch and execute, with the structured 0xEE halt of a runaway. -/
def engine : Engine VM Failure where
  halted := VM.halted
  step := do exec (← u8)
  runaway := fun s => { s with haltOperand := 0xEE }

def VM.finish (H : Hashes) (s : VM) : Except Failure VMResult := do
  let digest ← ((s.reg.drop 12).take 4).mapM (toBytes 8)
  let regs ← s.reg.mapM (toBytes 8)
  let stack ← s.stack.mapM (toBytes 8)
  let state := regs.flatten ++ stack.flatten ++ [UInt8.ofNat (s.flags &&& 0xFF)] ++
    beBytes 2 (s.ip &&& 0xFFFF) ++ beBytes 4 (s.path &&& m32)
  let stateHash := H.blake2b state [] 32
  let haltCode := (s.haltOperand ^^^ (s.path &&& 0xFF)) &&& m32
  return ⟨digest.flatten, stateHash, s.path &&& m32, haltCode⟩

def VM.run (H : Hashes) (s : VM) : Except Failure VMResult := do
  let (_, t) ← engine.run maxSteps s
  t.finish H

private def hexPairs : List Char → Bytes
  | hi :: lo :: rest =>
    let digit (c : Char) : Nat := if c.toNat < 0x3A then c.toNat - 0x30 else c.toNat - 0x57
    UInt8.ofNat (digit hi * 16 + digit lo) :: hexPairs rest
  | _ => []

def fromHex (s : String) : Bytes := hexPairs s.toList

def encryptedBlob : Bytes :=
  fromHex "308fe8b50021bcd8c01b4141399cd700089e24f0fb4a4aed04b9d9a515c7613c" ++
  fromHex "6086c650d07721972edb1a774715a935b4844f933662294aa0dad96357e048d6" ++
  fromHex "711ac886772f2f392d9a753c7525ee02d60aa813bc3a76d330a4dca97226aa2e" ++
  fromHex "8f055b198d722109c6f7e8836e318d706029f075d2cdbe4810f69450a090ea5c" ++
  fromHex "b851fcfee7a03bf1d72ae8a25870f34be8d9fb2f1e52bec2558531cb33264a57" ++
  fromHex "35485de1db8760a9dbfa26e661e33a185626881f9375839ad0b92314f192cb25" ++
  fromHex "6566f847a4c931778abc59a348df0839930af3ccbfc07ecf9a2171c51189ce49" ++
  fromHex "4cf5aa4e94c25e6afc7ad42056fec8342265"

def loadBytecode (P : Primitives) (env : Env) : Bytes :=
  CryptoBox.streamXor P.toHashes (Config.vmBlobKey P env) encryptedBlob Config.vmBlobDomain

def runBytecode (H : Hashes) (code usernameNorm licenseStruct serverRandom sessionId
    transcriptPrefix sessionNonce : Bytes) : Except Failure VMResult :=
  (VM.init H code
    (packInputs H usernameNorm licenseStruct serverRandom sessionId transcriptPrefix)
    sessionNonce).run H

def runVm (P : Primitives) (env : Env) (usernameNorm licenseStruct serverRandom sessionId
    transcriptPrefix sessionNonce : Bytes) : Except Failure VMResult :=
  runBytecode P.toHashes (loadBytecode P env) usernameNorm licenseStruct serverRandom sessionId
    transcriptPrefix sessionNonce

end RankGate.Server.VmReference
