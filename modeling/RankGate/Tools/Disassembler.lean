/- Module: RankGate/Tools/Disassembler
   source: tools/disassemble_vm.py
   digest: The linear sweep over the bytecode, and how the operands of each opcode are read. -/

import RankGate.Server.VmReference

set_option autoImplicit false
set_option relaxedAutoImplicit false

namespace RankGate.Tools.Disassembler

open ByteCodec (Bytes beNat)
open RankGate.Server.VmReference (operandLen)
open RankGate.Server.VmReference.Op

inductive Kind
  | reg
  | imm64
  | imm8
  | cond
  | addr
  deriving DecidableEq

def reg3 : List Kind := [.reg, .reg, .reg]
def reg2 : List Kind := [.reg, .reg]

def layout : List (Nat × List Kind) :=
  [(nop, []), (ret, []),
   (movRi, [.reg, .imm64]), (movRr, reg2),
   (load, reg2), (store, reg2),
   (add, reg3), (sub, reg3), (mul, reg3), (xor, reg3),
   (and, reg3), (or, reg3), (not, reg2),
   (rol, [.reg, .reg, .imm8]), (ror, [.reg, .reg, .imm8]),
   (shl, [.reg, .reg, .imm8]), (shr, [.reg, .reg, .imm8]),
   (cmp, reg2), (cmov, [.reg, .reg, .cond]),
   (jmp, [.addr]), (jz, [.addr]), (jnz, [.addr]), (call, [.addr]),
   (hashRound, reg3), (mix, reg2), (halt, [.imm8])]

def width : Kind → Nat
  | .reg => 1
  | .imm64 => 8
  | .imm8 => 1
  | .cond => 1
  | .addr => 2

/-- The numbers `render` prints, in its order. -/
def readOperands : List Kind → Bytes → List Nat
  | [], _ => []
  | kind :: kinds, operands =>
    beNat (operands.take (width kind)) :: readOperands kinds (operands.drop (width kind))

/-- The generator from `ip` on: offset, opcode if it is one, operand bytes. -/
def decodeFrom (code : Bytes) (ip : Nat) : List (Nat × Option Nat × Bytes) :=
  match _h : code[ip]? with
  | none => []
  | some op =>
    match operandLen.lookup op.toNat with
    | none => (ip, none, [op]) :: decodeFrom code (ip + 1)
    | some n => (ip, some op.toNat, (code.drop (ip + 1)).take n) :: decodeFrom code (ip + 1 + n)
  termination_by code.length - ip
  decreasing_by
    all_goals
      obtain ⟨hlt, -⟩ := List.getElem?_eq_some_iff.mp _h
      omega

def decode (code : Bytes) : List (Nat × Option Nat × Bytes) := decodeFrom code 0

theorem decodeFrom_end {code : Bytes} {ip : Nat} (h : code[ip]? = none) : decodeFrom code ip = [] := by
  rw [decodeFrom]
  split <;> simp_all

theorem decodeFrom_some {code : Bytes} {ip n : Nat} {op : UInt8} (h : code[ip]? = some op)
    (hn : operandLen.lookup op.toNat = some n) :
    decodeFrom code ip =
      (ip, some op.toNat, (code.drop (ip + 1)).take n) :: decodeFrom code (ip + 1 + n) := by
  rw [decodeFrom]
  split <;> simp_all

theorem decodeFrom_piece {op : Nat} {body : Bytes} (hop : op < 256)
    (hn : operandLen.lookup op = some body.length) (pre rest : Bytes) :
    decodeFrom (pre ++ (UInt8.ofNat op :: body ++ rest)) pre.length =
      (pre.length, some op, body) ::
        decodeFrom ((pre ++ UInt8.ofNat op :: body) ++ rest)
          (pre ++ UInt8.ofNat op :: body).length := by
  have hval : (UInt8.ofNat op).toNat = op := UInt8.toNat_ofNat_of_lt' hop
  have hget : (pre ++ (UInt8.ofNat op :: body ++ rest))[pre.length]? = some (UInt8.ofNat op) := by
    rw [List.getElem?_append_right (Nat.le_refl _)]
    simp
  have hfetch : ((pre ++ (UInt8.ofNat op :: body ++ rest)).drop (pre.length + 1)).take body.length =
      body := by
    rw [show pre ++ (UInt8.ofNat op :: body ++ rest) = (pre ++ [UInt8.ofNat op]) ++ (body ++ rest) by
      simp, List.drop_left' (by simp), List.take_left' rfl]
  have hnext : (pre ++ UInt8.ofNat op :: body).length = pre.length + 1 + body.length := by
    rw [List.length_append, List.length_cons]
    omega
  rw [decodeFrom_some hget (by rw [hval]; exact hn), hfetch, hval, hnext, List.append_assoc]

end RankGate.Tools.Disassembler
