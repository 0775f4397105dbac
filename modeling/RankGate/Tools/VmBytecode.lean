/- Module: RankGate/Tools/VmBytecode
   source: tools/generate_vm_bytecode.py
   digest: The two-pass assembler and the canonical program it emits. -/

import RankGate.Server.VmReference

set_option autoImplicit false
set_option relaxedAutoImplicit false

namespace RankGate.Tools.VmBytecode

open ByteCodec (Bytes beBytes)
open RankGate.Server.VmReference (operandLen condNzf)
open RankGate.Server.VmReference.Op

/-- An operand is a number or a label reference `("lbl", name)`. -/
inductive Operand
  | num (v : Int)
  | lbl (name : String)
  deriving DecidableEq

instance (n : Nat) : OfNat Operand n := ⟨.num n⟩

inductive Item
  | label (name : String)
  | emit (op : Nat) (operands : List Operand)
  deriving DecidableEq

inductive AsmError
  | keyError
  | indexError
  | valueError
  | typeError
  | assertionError
  deriving DecidableEq

def instrSize (op : Nat) : Except AsmError Nat :=
  match operandLen.lookup op with
  | some n => .ok (1 + n)
  | none => .error .keyError

/-- Pass 1: byte offsets, and the label dictionary with the latest definition in front. -/
def recordLabels : List Item → Nat → List (String × Nat) → Except AsmError (List (String × Nat))
  | [], _, labels => .ok labels
  | .label name :: items, off, labels => recordLabels items off ((name, off) :: labels)
  | .emit op _ :: items, off, labels => do recordLabels items (off + (← instrSize op)) labels

/-- `x & (2^(8n) - 1)` as `n` big-endian bytes; Python masks negative numbers as two's complement. -/
def maskedBytes (n : Nat) : Operand → Except AsmError Bytes
  | .num v => .ok (beBytes n (v % 256 ^ n).toNat)
  | .lbl _ => .error .typeError

def branchOps : List Nat := [jmp, jz, jnz, call]

def branchAddr (labels : List (String × Nat)) : Operand → Except AsmError Bytes
  | .lbl name =>
    match labels.lookup name with
    | some addr => maskedBytes 2 (.num addr)
    | none => .error .keyError
  | .num addr => maskedBytes 2 (.num addr)

def operandBody (labels : List (String × Nat)) (op : Nat) (operands : List Operand) :
    Except AsmError Bytes :=
  if op = movRi then
    match operands with
    | [rd, imm] => do return (← maskedBytes 1 rd) ++ (← maskedBytes 8 imm)
    | _ => .error .valueError
  else if op ∈ branchOps then
    match operands with
    | ref :: _ => branchAddr labels ref
    | [] => .error .indexError
  else do return (← operands.mapM (maskedBytes 1)).flatten

def emitItem (labels : List (String × Nat)) : Item → Except AsmError Bytes
  | .label _ => .ok []
  | .emit op operands => do
    let need ← instrSize op
    let body ← operandBody labels op operands
    if 1 + body.length = need then return UInt8.ofNat op :: body else throw .assertionError

def assemble (items : List Item) : Except AsmError Bytes := do
  let labels ← recordLabels items 0 []
  return (← items.mapM (emitItem labels)).flatten

def c12 : Nat := 0x0123456789ABCDEF
def c13 : Nat := 0xDEADBEEFCAFEBABE
def c14 : Nat := 0xA5A5A5A55A5A5A5A
def c15 : Nat := 0xF0E1D2C3B4A59687

def prologue : List Item :=
  [.emit movRi [12, .num c12], .emit movRi [13, .num c13],
   .emit movRi [14, .num c14], .emit movRi [15, .num c15],
   .emit movRi [0, 0], .emit movRi [1, 22], .emit movRi [6, 1], .emit movRi [8, 0]]

def foldLoop : List Item :=
  [.label "loop",
   .emit cmp [0, 1], .emit jz [.lbl "end"],
   .emit movRr [7, 0], .emit load [2, 7],
   .emit hashRound [12, 12, 2], .emit mix [13, 2],
   .emit and [3, 2, 6], .emit cmp [3, 8], .emit jz [.lbl "even"],
   .emit hashRound [15, 15, 2], .emit rol [15, 15, 7], .emit jmp [.lbl "after"],
   .label "even",
   .emit hashRound [14, 14, 2], .emit ror [14, 14, 11],
   .label "after",
   .emit xor [12, 12, 14], .emit add [13, 13, 15], .emit add [0, 0, 6],
   .emit jmp [.lbl "loop"]]

def epilogue : List Item :=
  [.label "end",
   .emit hashRound [12, 12, 13], .emit hashRound [13, 13, 14],
   .emit hashRound [14, 14, 15], .emit hashRound [15, 15, 12],
   .emit call [.lbl "finalize"], .emit halt [0x42]]

def finalizeRoutine : List Item :=
  [.label "finalize",
   .emit nop [], .emit not [3, 12], .emit or [4, 13, 3], .emit sub [5, 14, 15],
   .emit mul [9, 5, 6], .emit shl [10, 4, 3], .emit shr [11, 4, 5], .emit xor [4, 10, 11],
   .emit movRi [0, 3],
   .label "inner",
   .emit hashRound [9, 9, 4], .emit cmp [9, 8], .emit cmov [5, 9, .num condNzf],
   .emit sub [0, 0, 6], .emit cmp [0, 8], .emit jnz [.lbl "inner"],
   .emit store [7, 9], .emit xor [12, 12, 9], .emit add [13, 13, 5], .emit xor [14, 14, 4],
   .emit mix [15, 3], .emit ret []]

def buildProgram : Except AsmError Bytes :=
  assemble (prologue ++ foldLoop ++ epilogue ++ finalizeRoutine)

end RankGate.Tools.VmBytecode
