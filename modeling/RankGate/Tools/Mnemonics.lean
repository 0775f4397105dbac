/- Module: RankGate/Tools/Mnemonics
   source: tools/disassemble_vm.py (NAMES, main), tools/generate_vm_bytecode.py (Assembler)
   digest: The reflected mnemonic table is empty, so no listing line names its instruction. -/

import RankGate.Tools.Listing
import RankGate.Tools.Narrowing

set_option autoImplicit false
set_option relaxedAutoImplicit false

namespace RankGate.Tools.Mnemonics

open ByteCodec (Bytes)
open Disassembler
open Listing
open Narrowing (sited assemble_narrowed)
open RankGate.Server.VmReference (operandLen)
open RankGate.Server.VmReference.Op
open VmBytecode (Item Operand assemble)

def ownNames : List (Nat × String) :=
  [(nop, "NOP"), (movRi, "MOV_RI"), (movRr, "MOV_RR"), (load, "LOAD"), (store, "STORE"),
   (add, "ADD"), (sub, "SUB"), (mul, "MUL"), (xor, "XOR"), (and, "AND"), (or, "OR"), (not, "NOT"),
   (rol, "ROL"), (ror, "ROR"), (shl, "SHL"), (shr, "SHR"), (cmp, "CMP"), (cmov, "CMOV"),
   (jmp, "JMP"), (jz, "JZ"), (jnz, "JNZ"), (call, "CALL"), (ret, "RET"),
   (hashRound, "HASH_ROUND"), (mix, "MIX"), (halt, "HALT")]

/-- The line of every instruction carries the name of its opcode. -/
def Named (code : Bytes) : Prop :=
  ∀ e ∈ decode code, ∀ op, e.2.1 = some op → ∃ name text, ownNames.lookup op = some name ∧
    entryLine (findLabels code) e = .ok (instrLine e.1 name.toList text (raw op e.2.2))

def fallback (op : Nat) : Line := "OP_".toList ++ hex0x 2 op

/-- A name is never among the numbers that OPERAND_LEN has as keys. -/
theorem str_notMem_operandLenKeys (name : String) : Key.str name ∉ operandLenKeys := by
  rw [operandLenKeys, List.mem_map]
  rintro ⟨p, -, hp⟩
  cases hp

theorem names_eq_nil : names = [] := by
  rw [names, List.reverse_eq_nil_iff, List.map_eq_nil_iff, List.filter_eq_nil_iff]
  intro p _
  simp [str_notMem_operandLenKeys]

theorem mnemonic_eq_fallback (op : Nat) : mnemonic op = fallback op := by
  rw [mnemonic, names_eq_nil]
  rfl

theorem instrLine_mnemonic {off : Nat} {mnem mnem' text text' : Line} {b b' : Bytes}
    (h : instrLine off mnem text b = instrLine off mnem' text' b') (hlen : mnem.length ≤ 11)
    (hlen' : mnem'.length ≤ 11) : ljust 11 mnem = ljust 11 mnem' := by
  simp only [instrLine, List.append_assoc, List.append_cancel_left_eq] at h
  refine (List.append_inj h ?_).1
  simp only [ljust, List.length_append, List.length_replicate]
  omega

theorem fallback_ne : ∀ p ∈ ownNames, (fallback p.1).length ≤ 11 ∧ p.2.toList.length ≤ 11 ∧
    ljust 11 (fallback p.1) ≠ ljust 11 p.2.toList := by
  decide

theorem entryLine_ne {labels : List (Nat × Line)} {off op : Nat} {operands : Bytes} {name : String}
    {text : Line} (hname : ownNames.lookup op = some name) :
    entryLine labels (off, some op, operands) ≠
      .ok (instrLine off name.toList text (raw op operands)) := by
  intro h
  obtain ⟨text', -, hline⟩ := Effects.except_bind_eq_ok h
  obtain ⟨front, back, hsplit, -⟩ := List.lookup_eq_some_iff.mp hname
  obtain ⟨hlen, hlen', hne⟩ := fallback_ne (op, name) (by rw [hsplit]; simp)
  rw [mnemonic_eq_fallback] at hline
  exact hne (instrLine_mnemonic (Except.ok.inj hline) hlen hlen')

theorem not_named {code : Bytes} {off op : Nat} {operands : Bytes}
    (h : (off, some op, operands) ∈ decode code) : ¬Named code := by
  intro hnamed
  obtain ⟨name, text, hname, hline⟩ := hnamed _ h op rfl
  exact entryLine_ne hname hline

theorem sited_eq_nil_iff {items : List Item} (off : Nat) :
    sited items off = [] ↔ ∀ op operands, Item.emit op operands ∉ items := by
  induction items generalizing off with
  | nil => simp [sited]
  | cons item items ih =>
    cases item with
    | label name => simp [sited, ih off]
    | emit op operands =>
      constructor
      · intro h
        cases h
      · intro h
        exact absurd List.mem_cons_self (h op operands)

/-- The listing names what was assembled just when nothing was: the program is labels only. -/
theorem named_iff {items : List Item} {code : Bytes} (h : assemble items = .ok code) :
    Named code ↔ ∀ op operands, Item.emit op operands ∉ items := by
  have hnarrowed := assemble_narrowed h
  rw [← sited_eq_nil_iff 0]
  cases hsited : sited items 0 with
  | nil =>
    rw [hsited, List.forall₂_nil_left_iff] at hnarrowed
    rw [Named, hnarrowed]
    simp
  | cons s l =>
    rw [hsited] at hnarrowed
    obtain ⟨⟨off, op?, operands⟩, entries, ⟨-, hop, -⟩, -, hentries⟩ :=
      List.forall₂_cons_left_iff.mp hnarrowed
    cases hop
    have hmem : (off, some s.2.1, operands) ∈ decode code := by
      rw [hentries]
      exact List.mem_cons_self
    refine iff_of_false (not_named hmem) ?_
    intro hnil
    cases hnil

theorem named_iff_label : assemble [.label "end"] = .ok [] ∧ Named [] := by
  have hcode : assemble [.label "end"] = .ok [] := rfl
  exact ⟨hcode, (named_iff hcode).mpr (by simp)⟩

/-- A lone NOP is listed as OP_0x00. -/
theorem not_named_nop : assemble [.emit nop []] = .ok [0x00] ∧ ¬Named [0x00] ∧
    listing [0x00] = .ok [instrLine 0 "OP_0x00".toList [] [0x00]] := by
  have hdecode : decode [0x00] = [(0, some 0x00, [])] := by
    rw [decode, decodeFrom_some (n := 0) rfl rfl, decodeFrom_end rfl]
    rfl
  have hlabels : findLabels [0x00] = [] := by
    rw [findLabels, hdecode]
    rfl
  have hline : entryLine [] (0, some 0x00, []) = .ok (instrLine 0 "OP_0x00".toList [] [0x00]) := by
    rw [entryLine, mnemonic_eq_fallback]
    rfl
  have hmem : (0, some 0x00, []) ∈ decode [0x00] := by
    rw [hdecode]
    exact List.mem_cons_self
  refine ⟨rfl, not_named hmem, ?_⟩
  rw [listing, hlabels, hdecode, List.mapM_cons, hline]
  rfl

end RankGate.Tools.Mnemonics
