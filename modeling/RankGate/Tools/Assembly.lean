/- Module: RankGate/Tools/Assembly
   source: tools/generate_vm_bytecode.py (Assembler), server/app/vm_reference.py (the opcode table)
   digest: The assembler's input as a language of its own: typed statements, labels, and what a program means. -/

import RankGate.Client.Vm
import RankGate.Tools.InstructionStream

set_option autoImplicit false
set_option relaxedAutoImplicit false

namespace RankGate.Tools.Assembly

open ByteCodec (Bytes)
open Client.Constants (be16 be32 be64)
open Client.Vm (rotl64 rotr64)
open InstructionStream
open Lockstep (Engine)
open RankGate.Crypto (Hashes)
open VmBytecode (Item Operand)

abbrev Reg := Fin 16

inductive Binary
  | add | sub | mul | xor | and | or | hashRound
  deriving DecidableEq

inductive Shift
  | rol | ror | shl | shr
  deriving DecidableEq

inductive Cond
  | zf | nzf | cf | ncf | sf | nsf
  deriving DecidableEq

inductive Stmt
  | nop
  | movRi (rd : Reg) (imm : UInt64)
  | movRr (rd rs : Reg)
  | load (rd areg : Reg)
  | store (areg rs : Reg)
  | binary (f : Binary) (rd ra rb : Reg)
  | not (rd ra : Reg)
  | shift (f : Shift) (rd ra : Reg) (imm : UInt8)
  | cmp (ra rb : Reg)
  | cmov (rd rs : Reg) (c : Cond)
  | jmp (label : String)
  | jz (label : String)
  | jnz (label : String)
  | call (label : String)
  | ret
  | mix (rd ra : Reg)
  | halt (code : UInt8)
  deriving DecidableEq

inductive Line
  | label (name : String)
  | stmt (s : Stmt)
  deriving DecidableEq

section Items

open RankGate.Server.VmReference

def Binary.op : Binary → Nat
  | .add => Op.add
  | .sub => Op.sub
  | .mul => Op.mul
  | .xor => Op.xor
  | .and => Op.and
  | .or => Op.or
  | .hashRound => Op.hashRound

def Shift.op : Shift → Nat
  | .rol => Op.rol
  | .ror => Op.ror
  | .shl => Op.shl
  | .shr => Op.shr

def Cond.code : Cond → Nat
  | .zf => condZf
  | .nzf => condNzf
  | .cf => condCf
  | .ncf => condNcf
  | .sf => condSf
  | .nsf => condNsf

def Stmt.op : Stmt → Nat
  | .nop => Op.nop
  | .movRi _ _ => Op.movRi
  | .movRr _ _ => Op.movRr
  | .load _ _ => Op.load
  | .store _ _ => Op.store
  | .binary f _ _ _ => f.op
  | .not _ _ => Op.not
  | .shift f _ _ _ => f.op
  | .cmp _ _ => Op.cmp
  | .cmov _ _ _ => Op.cmov
  | .jmp _ => Op.jmp
  | .jz _ => Op.jz
  | .jnz _ => Op.jnz
  | .call _ => Op.call
  | .ret => Op.ret
  | .mix _ _ => Op.mix
  | .halt _ => Op.halt

def ofReg (r : Reg) : Operand := .num r.val

def Stmt.operands : Stmt → List Operand
  | .nop => []
  | .movRi rd imm => [ofReg rd, .num imm.toNat]
  | .movRr rd rs => [ofReg rd, ofReg rs]
  | .load rd areg => [ofReg rd, ofReg areg]
  | .store areg rs => [ofReg areg, ofReg rs]
  | .binary _ rd ra rb => [ofReg rd, ofReg ra, ofReg rb]
  | .not rd ra => [ofReg rd, ofReg ra]
  | .shift _ rd ra imm => [ofReg rd, ofReg ra, .num imm.toNat]
  | .cmp ra rb => [ofReg ra, ofReg rb]
  | .cmov rd rs c => [ofReg rd, ofReg rs, .num c.code]
  | .jmp label => [.lbl label]
  | .jz label => [.lbl label]
  | .jnz label => [.lbl label]
  | .call label => [.lbl label]
  | .ret => []
  | .mix rd ra => [ofReg rd, ofReg ra]
  | .halt code => [.num code.toNat]

def Line.item : Line → Item
  | .label name => .label name
  | .stmt s => .emit s.op s.operands

end Items

def Stmt.target? : Stmt → Option String
  | .jmp label => some label
  | .jz label => some label
  | .jnz label => some label
  | .call label => some label
  | _ => none

def Line.target? : Line → Option String
  | .label _ => none
  | .stmt s => s.target?

def Line.stmt? : Line → Option Stmt
  | .label _ => none
  | .stmt s => some s

def Line.name? : Line → Option String
  | .label name => some name
  | .stmt _ => none

/-- Every label has one definition, every branch goes to one, and the code fits 16-bit addresses. -/
structure Program where
  lines : List Line
  once : (lines.filterMap Line.name?).Nodup
  defined : ∀ name ∈ lines.filterMap Line.target?, name ∈ lines.filterMap Line.name?
  small : totalSize (lines.map Line.item) < 65536

def position : List Line → String → Nat
  | [], _ => 0
  | .label name' :: lines, name => if name = name' then 0 else position lines name
  | .stmt _ :: lines, name => position lines name + 1

namespace Program

def items (p : Program) : List Item := p.lines.map Line.item

def stmts (p : Program) : List Stmt := p.lines.filterMap Line.stmt?

def target (p : Program) (name : String) : Nat := position p.lines name

/-- The address of a statement; past the last one, the end of the code. -/
def address (p : Program) (i : Nat) : Nat :=
  ((p.stmts.take i).map fun s => itemSize (.emit s.op s.operands)).sum

def code (p : Program) : Bytes := (emitted p.items p.items).flatMap Instr.bytes

end Program

/-! The meaning: a machine that counts statements, holds words, and knows labels. -/

structure Flags where
  zero : Bool
  carry : Bool
  sign : Bool
  deriving DecidableEq

namespace Flags

def compare (a b : UInt64) : Flags := ⟨a = b, a < b, (a - b) >>> 63 ≠ 0⟩

def holds (f : Flags) : Cond → Bool
  | .zf => f.zero
  | .nzf => !f.zero
  | .cf => f.carry
  | .ncf => !f.carry
  | .sf => f.sign
  | .nsf => !f.sign

def byte (f : Flags) : UInt8 :=
  (if f.zero then 1 else 0) ||| (if f.carry then 2 else 0) ||| (if f.sign then 4 else 0)

end Flags

def Binary.apply : Binary → UInt64 → UInt64 → UInt64
  | .add, a, b => a + b
  | .sub, a, b => a - b
  | .mul, a, b => a * b
  | .xor, a, b => a ^^^ b
  | .and, a, b => a &&& b
  | .or, a, b => a ||| b
  | .hashRound, a, b => Client.Vm.hashRound a b

def Shift.apply : Shift → UInt64 → UInt8 → UInt64
  | .rol, a, n => rotl64 a n.toUInt64
  | .ror, a, n => rotr64 a n.toUInt64
  | .shl, a, n => a <<< (n.toUInt64 &&& 63)
  | .shr, a, n => a >>> (n.toUInt64 &&& 63)

/-- `pc` and the stack count statements. -/
structure Machine where
  pc : Nat
  reg : Vector UInt64 16
  mem : Vector UInt64 64
  stack : List Nat
  flags : Flags
  path : UInt32
  halted : Bool
  haltOperand : UInt8

inductive Fault
  | fellOff
  | emptyStack
  deriving DecidableEq

namespace Machine

def start (mem : Vector UInt64 64) : Machine where
  pc := 0
  reg := Vector.replicate 16 0
  mem := mem
  stack := []
  flags := ⟨false, false, false⟩
  path := 0x811C9DC5
  halted := false
  haltOperand := 0

def write (m : Machine) (rd : Reg) (v : UInt64) : Machine := { m with reg := m.reg.set rd v }

theorem slot_lt (slot : Fin 64) : slot.val < 64 := slot.isLt

def put (m : Machine) (slot : Fin 64) (v : UInt64) : Machine :=
  { m with mem := m.mem.set slot v (slot_lt slot) }

def cell (m : Machine) (areg : Reg) : Fin 64 :=
  ⟨(m.reg.get areg).toNat % 64, Nat.mod_lt _ (by decide)⟩

/-- A conditional jump leaves its trace in the path id: where it stands, and whether it was taken. -/
def branch (p : Program) (label : String) (taken : Bool) (m : Machine) : Machine :=
  { m with
    pc := if taken then p.target label else m.pc
    path := (m.path * 0x01000193) ^^^ UInt32.ofNat (p.address m.pc) ^^^ (if taken then 1 else 0) }

def exec (p : Program) (m : Machine) : Stmt → Except Fault Machine
  | .nop => .ok m
  | .movRi rd imm => .ok (m.write rd imm)
  | .movRr rd rs => .ok (m.write rd (m.reg.get rs))
  | .load rd areg => .ok (m.write rd (m.mem.get (m.cell areg)))
  | .store areg rs => .ok (m.put (m.cell areg) (m.reg.get rs))
  | .binary f rd ra rb => .ok (m.write rd (f.apply (m.reg.get ra) (m.reg.get rb)))
  | .not rd ra => .ok (m.write rd (~~~(m.reg.get ra)))
  | .shift f rd ra imm => .ok (m.write rd (f.apply (m.reg.get ra) imm))
  | .cmp ra rb => .ok { m with flags := .compare (m.reg.get ra) (m.reg.get rb) }
  | .cmov rd rs c => .ok (if m.flags.holds c then m.write rd (m.reg.get rs) else m)
  | .jmp label => .ok { m with pc := p.target label }
  | .jz label => .ok (m.branch p label m.flags.zero)
  | .jnz label => .ok (m.branch p label (!m.flags.zero))
  | .call label => .ok { m with stack := m.stack ++ [m.pc], pc := p.target label }
  | .ret =>
    match m.stack.getLast? with
    | none => .error .emptyStack
    | some back => .ok { m with pc := back, stack := m.stack.dropLast }
  | .mix rd ra => .ok (m.write rd (Client.Vm.mix (m.reg.get rd) (m.reg.get ra) (UInt64.ofNat rd)))
  | .halt code => .ok { m with haltOperand := code, halted := true }

def step (p : Program) (m : Machine) : Except Fault Machine :=
  match p.stmts[m.pc]? with
  | none => .error .fellOff
  | some s => exec p { m with pc := m.pc + 1 } s

end Machine

/-- Statement by statement, up to the step limit of both engines. -/
def engine (p : Program) : Engine Machine Fault where
  halted := Machine.halted
  step := fun m => (m.step p).map fun m' => ((), m')
  runaway := fun m => { m with haltOperand := 0xEE }

def Program.run (p : Program) (mem : Vector UInt64 64) : Except Fault Machine :=
  ((engine p).run Client.Vm.kMaxSteps (Machine.start mem)).map Prod.snd

/-- The four results. Only here and in the path id do addresses show. -/
def Machine.finish (H : Hashes) (p : Program) (m : Machine) : Client.Vm.VMResult where
  vmDigest := ((m.reg.toList.drop 12).take 4).flatMap be64
  vmStateHash := H.blake2b (m.reg.toList.flatMap be64 ++
    m.stack.flatMap (fun i => be64 (UInt64.ofNat (p.address i))) ++ [m.flags.byte] ++
    be16 (UInt16.ofNat (p.address m.pc)) ++ be32 m.path) [] 32
  vmPathId := m.path
  vmHaltCode := m.haltOperand.toUInt32 ^^^ (m.path &&& 0xFF)

end RankGate.Tools.Assembly
