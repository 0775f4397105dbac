/- Module: RankGate/Tools/Listing
   source: tools/disassemble_vm.py (NAMES, find_labels, render, main), server/app/vm_reference.py
   digest: The printed listing: which inputs it survives, and that it shows every byte once. -/

import Mathlib.Data.List.Dedup
import Mathlib.Data.List.Sort
import RankGate.Foundation.Text
import RankGate.Tools.Disassembler

set_option autoImplicit false
set_option relaxedAutoImplicit false

namespace RankGate.Tools.Listing

open ByteCodec (Bytes beNat)
open Disassembler
open RankGate.Server.Config (Failure)
open RankGate.Server.VmReference (operandLen m64 m32 condZf condNzf condCf condNcf condSf condNsf
  flZf flCf flSf)
open RankGate.Server.VmReference.Op

abbrev Line := List Char

/-- Offset, opcode if it is one, operand bytes. -/
abbrev Entry := Nat × Option Nat × Bytes

/-- `f"{n:0wx}"` -/
def hex (w n : Nat) : Line :=
  let digits := Nat.toDigits 16 n
  List.replicate (w - digits.length) '0' ++ digits

/-- `f"{n:#0wx}"`, the prefix not counted in `w`. -/
def hex0x (w n : Nat) : Line := '0' :: 'x' :: hex w n

def decimal (n : Nat) : Line := Nat.toDigits 10 n

def ljust (w : Nat) (s : Line) : Line := s ++ List.replicate (w - s.length) ' '

def hexBytes (b : Bytes) : Line := b.flatMap Text.hexByte

def vmConstants : List (String × Nat) :=
  [("M64", m64), ("M32", m32),
   ("NOP", nop), ("MOV_RI", movRi), ("MOV_RR", movRr), ("LOAD", load), ("STORE", store),
   ("ADD", add), ("SUB", sub), ("MUL", mul), ("XOR", xor), ("AND", Server.VmReference.Op.and),
   ("OR", Server.VmReference.Op.or), ("NOT", Server.VmReference.Op.not), ("ROL", rol), ("ROR", ror),
   ("SHL", shl), ("SHR", shr), ("CMP", cmp), ("CMOV", cmov), ("JMP", jmp), ("JZ", jz), ("JNZ", jnz),
   ("CALL", call), ("RET", ret), ("HASH_ROUND", hashRound), ("MIX", mix), ("HALT", halt),
   ("COND_ZF", condZf), ("COND_NZF", condNzf), ("COND_CF", condCf), ("COND_NCF", condNcf),
   ("COND_SF", condSf), ("COND_NSF", condNsf), ("FL_ZF", flZf), ("FL_CF", flCf), ("FL_SF", flSf)]

/-- What can stand left of `in OPERAND_LEN`: a string equals no number. -/
inductive Key
  | int (v : Nat)
  | str (name : String)
  deriving DecidableEq

def operandLenKeys : List Key := operandLen.map fun p => .int p.1

def isUpper (name : String) : Bool :=
  name.toList.any Char.isUpper && !name.toList.any Char.isLower

/-- `NAMES`: the filter asks for the name among the opcodes. The latest entry is in front. -/
def names : List (Nat × String) :=
  ((vmConstants.filter fun p => isUpper p.1 && decide (Key.str p.1 ∈ operandLenKeys)).map fun p =>
    (p.2, p.1)).reverse

def conds : List (Nat × String) :=
  [(condZf, "ZF"), (condNzf, "!ZF"), (condCf, "CF"), (condNcf, "!CF"), (condSf, "SF"),
   (condNsf, "!SF")]

def branches : List Nat := [jmp, jz, jnz, call]

/-- The target of a branch; a missing address byte is not an error. -/
def target : Entry → Option Nat
  | (_, some op, operands) => if op ∈ branches then some (beNat (operands.take 2)) else none
  | (_, none, _) => none

def findLabels (code : Bytes) : List (Nat × Line) :=
  (((decode code).filterMap target).dedup.insertionSort (· ≤ ·)).map fun addr =>
    (addr, 'L' :: hex 4 addr)

def operandAt (operands : Bytes) (off : Nat) : Except Failure Nat :=
  match operands[off]? with
  | some b => .ok b.toNat
  | none => .error .indexError

def renderOperand (operands : Bytes) (labels : List (Nat × Line)) (off : Nat) :
    Kind → Except Failure Line
  | .reg => do return 'R' :: decimal (← operandAt operands off)
  | .imm8 => do return hex0x 2 (← operandAt operands off)
  | .imm64 => .ok (hex0x 16 (beNat ((operands.drop off).take 8)))
  | .cond => do
    let code ← operandAt operands off
    return ((conds.lookup code).map String.toList).getD (decimal code)
  | .addr =>
    let addr := beNat ((operands.drop off).take 2)
    .ok ((labels.lookup addr).getD (hex0x 4 addr))

def renderParts (operands : Bytes) (labels : List (Nat × Line)) :
    List Kind → Nat → Except Failure (List Line)
  | [], _ => .ok []
  | kind :: kinds, off => do
    let part ← renderOperand operands labels off kind
    return part :: (← renderParts operands labels kinds (off + width kind))

def render (op : Nat) (operands : Bytes) (labels : List (Nat × Line)) : Except Failure Line := do
  return ", ".toList.intercalate (← renderParts operands labels ((layout.lookup op).getD []) 0)

def raw (op : Nat) (operands : Bytes) : Bytes := UInt8.ofNat op :: operands

def instrLine (off : Nat) (mnem text : Line) (raw : Bytes) : Line :=
  "  ".toList ++ hex 4 off ++ ": ".toList ++ ljust 11 mnem ++ ljust 28 text ++ " ; ".toList ++
    hexBytes raw

/-- `NAMES.get(op, f"OP_{op:#04x}")` -/
def mnemonic (op : Nat) : Line :=
  ((names.lookup op).map String.toList).getD ("OP_".toList ++ hex0x 2 op)

def entryLine (labels : List (Nat × Line)) : Entry → Except Failure Line
  | (off, none, operands) => do
    let b ← operandAt operands 0
    return "  ".toList ++ hex 4 off ++ ": .byte ".toList ++ hex0x 2 b ++ "  ; unknown opcode".toList
  | (off, some op, operands) => do
    let text ← render op operands labels
    return instrLine off (mnemonic op) text (raw op operands)

def labelLine (labels : List (Nat × Line)) (off : Nat) : List Line :=
  match labels.lookup off with
  | some label => [label ++ [':']]
  | none => []

def listing (code : Bytes) : Except Failure (List Line) := do
  let labels := findLabels code
  let lines ← (decode code).mapM fun e => do return labelLine labels e.1 ++ [← entryLine labels e]
  return lines.flatten

def shown : Entry → Bytes
  | (_, none, operands) => operands.take 1
  | (_, some op, operands) => raw op operands

section Sweep

variable {code : Bytes}

theorem decodeFrom_unknown {ip : Nat} {op : UInt8} (h : code[ip]? = some op)
    (hn : operandLen.lookup op.toNat = none) :
    decodeFrom code ip = (ip, none, [op]) :: decodeFrom code (ip + 1) := by
  rw [decodeFrom]
  split
  · rename_i hnone
    rw [hnone] at h
    cases h
  · rename_i op' hsome
    rw [h] at hsome
    cases hsome
    rw [hn]

/-- Induction along the sweep: the end, a byte that is no opcode, an instruction. -/
theorem sweep_induction {P : Nat → List Entry → Prop}
    (hend : ∀ ip, code[ip]? = none → P ip [])
    (hunknown : ∀ ip op l, code[ip]? = some op → operandLen.lookup op.toNat = none →
      P (ip + 1) l → P ip ((ip, none, [op]) :: l))
    (hknown : ∀ ip op n l, code[ip]? = some op → operandLen.lookup op.toNat = some n →
      P (ip + 1 + n) l →
      P ip ((ip, some op.toNat, (code.drop (ip + 1)).take n) :: l)) (ip : Nat) :
    P ip (decodeFrom code ip) := by
  induction hleft : code.length - ip using Nat.strong_induction_on generalizing ip with
  | h left ih =>
    cases hget : code[ip]? with
    | none =>
      rw [decodeFrom_end hget]
      exact hend ip hget
    | some op =>
      obtain ⟨hlt, -⟩ := List.getElem?_eq_some_iff.mp hget
      cases hlookup : operandLen.lookup op.toNat with
      | none =>
        rw [decodeFrom_unknown hget hlookup]
        exact hunknown ip op _ hget hlookup (ih _ (by omega) (ip + 1) rfl)
      | some n =>
        rw [decodeFrom_some hget hlookup]
        exact hknown ip op n _ hget hlookup (ih _ (by omega) (ip + 1 + n) rfl)

theorem drop_of_getElem? {ip : Nat} {op : UInt8} (h : code[ip]? = some op) :
    code.drop ip = op :: code.drop (ip + 1) := by
  obtain ⟨hlt, rfl⟩ := List.getElem?_eq_some_iff.mp h
  exact List.drop_eq_getElem_cons hlt

theorem flatMap_shown (ip : Nat) : (decodeFrom code ip).flatMap shown = code.drop ip := by
  refine sweep_induction (P := fun ip l => l.flatMap shown = code.drop ip) ?_ ?_ ?_ ip
  · intro ip hget
    rw [List.drop_of_length_le (List.getElem?_eq_none_iff.mp hget)]
    rfl
  · intro ip op l hget _ ih
    rw [List.flatMap_cons, ih, drop_of_getElem? hget]
    rfl
  · intro ip op n l hget _ ih
    have hbehind : code.drop (ip + 1 + n) = (code.drop (ip + 1)).drop n := by rw [List.drop_drop]
    rw [List.flatMap_cons, ih, drop_of_getElem? hget, shown, raw, UInt8.ofNat_toNat,
      List.cons_append, hbehind, List.take_append_drop]

theorem starts_from {ip next : Nat} {l : List Nat} (hlt : ip < next) (h : ∀ off ∈ l, next ≤ off) :
    ∀ off ∈ ip :: l, ip ≤ off := by
  rintro off (_ | ⟨_, hoff⟩)
  · exact le_refl ip
  · exact le_trans hlt.le (h off hoff)

theorem offsets_increasing (ip : Nat) :
    (∀ off ∈ (decodeFrom code ip).map Prod.fst, ip ≤ off) ∧
      ((decodeFrom code ip).map Prod.fst).Pairwise (· < ·) := by
  refine sweep_induction (P := fun ip l =>
    (∀ off ∈ l.map Prod.fst, ip ≤ off) ∧ (l.map Prod.fst).Pairwise (· < ·)) ?_ ?_ ?_ ip
  · intro ip _
    exact ⟨fun off hoff => (List.not_mem_nil hoff).elim, .nil⟩
  · intro ip op l _ _ ih
    exact ⟨starts_from (Nat.lt_succ_self ip) ih.1, .cons ih.1 ih.2⟩
  · intro ip op n l _ _ ih
    have hlt : ip < ip + 1 + n := by omega
    exact ⟨starts_from hlt ih.1, .cons (fun off hoff => lt_of_lt_of_le hlt (ih.1 off hoff)) ih.2⟩

end Sweep

section Render

variable {operands : Bytes} {labels : List (Nat × Line)}

/-- The fields `render` indexes; the others are slices, which may be short. -/
def indexes : Kind → Bool
  | .reg | .imm8 | .cond => true
  | .imm64 | .addr => false

def needed : List Kind → Nat → Nat
  | [], _ => 0
  | kind :: kinds, off =>
    max (if indexes kind then off + 1 else 0) (needed kinds (off + width kind))

theorem operandAt_ok_iff {off : Nat} :
    (∃ n, operandAt operands off = .ok n) ↔ off + 1 ≤ operands.length := by
  rw [operandAt]
  cases hget : operands[off]? with
  | none =>
    have hle := List.getElem?_eq_none_iff.mp hget
    constructor
    · rintro ⟨n, hn⟩
      cases hn
    · intro hlt
      omega
  | some b =>
    obtain ⟨hlt, -⟩ := List.getElem?_eq_some_iff.mp hget
    exact ⟨fun _ => hlt, fun _ => ⟨_, rfl⟩⟩

theorem exists_ok_map {α β : Type} {m : Except Failure α} (f : α → β) :
    (∃ b, (m >>= fun a => (pure (f a) : Except Failure β)) = .ok b) ↔ ∃ a, m = .ok a := by
  constructor
  · rintro ⟨b, hb⟩
    obtain ⟨a, ha, -⟩ := Effects.except_bind_eq_ok hb
    exact ⟨a, ha⟩
  · rintro ⟨a, ha⟩
    exact ⟨f a, Effects.except_bind_ok ha⟩

theorem renderOperand_ok_iff (labels : List (Nat × Line)) {kind : Kind} {off : Nat} :
    (∃ part, renderOperand operands labels off kind = .ok part) ↔
      (if indexes kind then off + 1 else 0) ≤ operands.length := by
  cases kind with
  | reg => exact (exists_ok_map _).trans operandAt_ok_iff
  | imm8 => exact (exists_ok_map _).trans operandAt_ok_iff
  | cond => exact (exists_ok_map _).trans operandAt_ok_iff
  | imm64 => exact ⟨fun _ => Nat.zero_le _, fun _ => ⟨_, rfl⟩⟩
  | addr => exact ⟨fun _ => Nat.zero_le _, fun _ => ⟨_, rfl⟩⟩

theorem renderParts_ok_iff {kinds : List Kind} {off : Nat} :
    (∃ parts, renderParts operands labels kinds off = .ok parts) ↔
      needed kinds off ≤ operands.length := by
  induction kinds generalizing off with
  | nil => exact ⟨fun _ => Nat.zero_le _, fun _ => ⟨[], rfl⟩⟩
  | cons kind kinds ih =>
    rw [needed, max_le_iff, ← renderOperand_ok_iff labels, ← ih]
    constructor
    · rintro ⟨parts, h⟩
      obtain ⟨part, hpart, h⟩ := Effects.except_bind_eq_ok h
      obtain ⟨rest, hrest, -⟩ := Effects.except_bind_eq_ok h
      exact ⟨⟨part, hpart⟩, ⟨rest, hrest⟩⟩
    · rintro ⟨⟨part, hpart⟩, ⟨rest, hrest⟩⟩
      exact ⟨part :: rest, (Effects.except_bind_ok hpart).trans (Effects.except_bind_ok hrest)⟩

def neededBy (op : Nat) : Nat := needed ((layout.lookup op).getD []) 0

theorem render_ok_iff {op : Nat} :
    (∃ text, render op operands labels = .ok text) ↔ neededBy op ≤ operands.length :=
  (exists_ok_map _).trans renderParts_ok_iff

theorem neededBy_le : ∀ p ∈ operandLen, neededBy p.1 ≤ p.2 := by
  decide

end Render

/-- Byte strings that fall into whole pieces, an instruction cut off at the end at most: bytes that
are no opcode, instructions with all their operand bytes, and at the end perhaps one that still has
the operand bytes that are indexed. -/
inductive Readable : Bytes → Prop
  | nil : Readable []
  | unknown {op : UInt8} {rest : Bytes} (hop : operandLen.lookup op.toNat = none)
      (hrest : Readable rest) : Readable (op :: rest)
  | whole {op : UInt8} {body rest : Bytes} (hop : operandLen.lookup op.toNat = some body.length)
      (hrest : Readable rest) : Readable (op :: (body ++ rest))
  | cut {op : UInt8} {body : Bytes} {n : Nat} (hop : operandLen.lookup op.toNat = some n)
      (hshort : body.length < n) (hneeded : neededBy op.toNat ≤ body.length) : Readable (op :: body)

section Survives

variable {code : Bytes} {labels : List (Nat × Line)}

def Printable (labels : List (Nat × Line)) (l : List Entry) : Prop :=
  ∀ e ∈ l, ∃ line, entryLine labels e = .ok line

theorem entryLine_unknown_ok (off : Nat) (op : UInt8) :
    ∃ line, entryLine labels (off, none, [op]) = .ok line :=
  ⟨_, rfl⟩

theorem entryLine_known_ok_iff {off op : Nat} {operands : Bytes} :
    (∃ line, entryLine labels (off, some op, operands) = .ok line) ↔
      neededBy op ≤ operands.length :=
  (exists_ok_map _).trans render_ok_iff

theorem listing_ok_iff : (∃ lines, listing code = .ok lines) ↔
    Printable (findLabels code) (decode code) := by
  refine (exists_ok_map _).trans (Effects.exists_mapM_ok_iff.trans ?_)
  exact forall₂_congr fun e _ => exists_ok_map _

theorem readable_unknown_iff {op : UInt8} {tail : Bytes} (hop : operandLen.lookup op.toNat = none) :
    Readable (op :: tail) ↔ Readable tail := by
  constructor
  · intro h
    cases h with
    | unknown _ hrest => exact hrest
    | whole hop' hrest => rw [hop] at hop'; cases hop'
    | cut hop' _ _ => rw [hop] at hop'; cases hop'
  · exact .unknown hop

theorem neededBy_le_of_lookup {op n : Nat} (hop : operandLen.lookup op = some n) :
    neededBy op ≤ n := by
  obtain ⟨front, back, hsplit, -⟩ := List.lookup_eq_some_iff.mp hop
  refine neededBy_le (op, n) ?_
  rw [hsplit]
  simp

theorem readable_known_iff {op : UInt8} {n : Nat} {tail : Bytes}
    (hop : operandLen.lookup op.toNat = some n) :
    Readable (op :: tail) ↔ neededBy op.toNat ≤ (tail.take n).length ∧ Readable (tail.drop n) := by
  have hle := neededBy_le_of_lookup hop
  constructor
  · intro h
    cases h with
    | unknown hop' _ => rw [hop] at hop'; cases hop'
    | @whole _ body rest hop' hrest =>
      rw [hop, Option.some.injEq] at hop'
      rw [List.take_left' hop'.symm, List.drop_left' hop'.symm]
      exact ⟨by omega, hrest⟩
    | cut hop' hshort hneeded =>
      rw [hop, Option.some.injEq] at hop'
      rw [List.take_of_length_le (by omega), List.drop_of_length_le (by omega)]
      exact ⟨hneeded, .nil⟩
  · rintro ⟨hneeded, hrest⟩
    rcases Nat.lt_or_ge tail.length n with hshort | hlong
    · rw [List.take_of_length_le hshort.le] at hneeded
      exact .cut hop hshort hneeded
    · have hlen : (tail.take n).length = n := by rw [List.length_take, Nat.min_eq_left hlong]
      rw [← List.take_append_drop n tail]
      exact .whole (by rw [hlen]; exact hop) hrest

/-- From any offset on, the entries can be printed just when the rest of the code is readable. -/
theorem printable_iff (ip : Nat) :
    Printable labels (decodeFrom code ip) ↔ Readable (code.drop ip) := by
  refine sweep_induction (P := fun ip l => Printable labels l ↔ Readable (code.drop ip)) ?_ ?_ ?_ ip
  · intro ip hget
    rw [List.drop_of_length_le (List.getElem?_eq_none_iff.mp hget)]
    exact ⟨fun _ => .nil, fun _ e he => (List.not_mem_nil he).elim⟩
  · intro ip op l hget hop ih
    rw [drop_of_getElem? hget, readable_unknown_iff hop, ← ih, Printable, List.forall_mem_cons]
    exact and_iff_right (entryLine_unknown_ok ip op)
  · intro ip op n l hget hop ih
    have hbehind : code.drop (ip + 1 + n) = (code.drop (ip + 1)).drop n := by rw [List.drop_drop]
    rw [drop_of_getElem? hget, readable_known_iff hop, ← hbehind, ← ih, Printable,
      List.forall_mem_cons, entryLine_known_ok_iff]
    rfl

end Survives

/-! What is shown stands on the line: at its end, or in front of the remark on a byte that is no
opcode. -/

section Shown

variable {labels : List (Nat × Line)}

def remark : Line := "  ; unknown opcode".toList

/-- The line of an entry has the bytes that the entry shows in hexadecimal. -/
def Shows (labels : List (Nat × Line)) (e : Entry) : Prop :=
  ∀ line, entryLine labels e = .ok line →
    ∃ front, line = front ++ hexBytes (shown e) ++ if e.2.1.isSome then [] else remark

theorem hex_byte (b : UInt8) : hex 2 b.toNat = Text.hexByte b := by
  have hall : ∀ n < 256, hex 2 n = Text.hexByte (UInt8.ofNat n) := by decide +kernel
  rw [hall _ b.toNat_lt, UInt8.ofNat_toNat]

theorem entryLine_shows (labels : List (Nat × Line)) (e : Entry) : Shows labels e := by
  obtain ⟨off, op, operands⟩ := e
  intro line h
  cases op with
  | some op =>
    obtain ⟨text, -, h⟩ := Effects.except_bind_eq_ok h
    cases h
    exact ⟨_, (List.append_nil _).symm⟩
  | none =>
    cases operands with
    | nil => cases h
    | cons b rest =>
      have hline : entryLine labels (off, none, b :: rest) =
          .ok ("  ".toList ++ hex 4 off ++ ": .byte ".toList ++ hex0x 2 b.toNat ++ remark) := rfl
      have hshown : hexBytes (shown (off, none, b :: rest)) = hex 2 b.toNat := by
        rw [hex_byte]
        exact List.append_nil _
      rw [hshown, Except.ok.inj (h.symm.trans hline)]
      refine ⟨"  ".toList ++ hex 4 off ++ ": .byte ".toList ++ ['0', 'x'], ?_⟩
      rw [List.append_assoc _ ['0', 'x']]
      rfl

end Shown

/-- The listing is printed to its end, its offsets grow, and the bytes on its lines are the code. -/
def Lists (code : Bytes) : Prop :=
  (∃ lines, listing code = .ok lines) ∧ ((decode code).map Prod.fst).Pairwise (· < ·) ∧
    (decode code).flatMap shown = code ∧ ∀ e ∈ decode code, Shows (findLabels code) e

/-- Offsets and bytes are right for every code; the lines are lost in one case, an instruction cut
off before an operand byte that is indexed. -/
theorem lists_iff (code : Bytes) : Lists code ↔ Readable code := by
  rw [Lists, listing_ok_iff, decode, printable_iff, flatMap_shown, List.drop_zero]
  exact and_iff_left ⟨(offsets_increasing 0).2, rfl, fun e _ => entryLine_shows _ e⟩

/-- The opcode of ADD at the very end of the code. -/
theorem not_lists_add : listing [0x30] = .error .indexError ∧ ¬Lists [0x30] := by
  have hdecode : decode [0x30] = [(0, some 0x30, [])] := by
    rw [decode, decodeFrom_some (n := 3) rfl rfl, decodeFrom_end rfl]
    rfl
  have hraises : listing [0x30] = .error .indexError := by
    rw [listing, hdecode]
    rfl
  refine ⟨hraises, ?_⟩
  rintro ⟨⟨lines, hlines⟩, -, -⟩
  rw [hraises] at hlines
  cases hlines

end RankGate.Tools.Listing
