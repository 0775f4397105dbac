/- Module: RankGate/Vm/Assembled
   source: tools/generate_vm_bytecode.py (Assembler), server/app/vm_reference.py (VM.run), client/src/vm/vm.cpp (run)
   digest: The assembler preserves meaning: both engines run the bytes as the program runs its statements. -/

import RankGate.Foundation.Embedding
import RankGate.Tools.Assembly
import RankGate.Vm.Boundaries
import RankGate.Vm.EngineRefinement

set_option autoImplicit false
set_option relaxedAutoImplicit false

namespace RankGate.Vm.Assembled

open Boundaries (fetches_of_mem perform stream step_at_end)
open ByteCodec (Bytes)
open Client.Constants (be16 be32 be64)
open EngineRefinement
open HandlerSimulation
open Lockstep (Agree Engine carry)
open Lockstep.Engine (Embeds Path)
open ReferenceSteps (getReg_ok setReg_ok getMem_ok setMem_ok ret_some ret_none branch_ok)
open RankGate.Crypto (Hashes)
open RankGate.Server.Config (Failure)
open RankGate.Server.VmReference
open RankGate.Tools.Assembly
open RankGate.Tools.Disassembler (Kind)
open RankGate.Tools.InstructionStream
open RankGate.Tools.VmBytecode (Item Operand assemble prologue foldLoop epilogue finalizeRoutine
  buildProgram)

section Items

variable {all : List Item} {kind : Kind}

theorem labelNames_items (lines : List Line) :
    labelNames (lines.map Line.item) = lines.filterMap Line.name? := by
  induction lines with
  | nil => rfl
  | cons line lines ih =>
    cases line with
    | label name => exact congrArg (name :: ·) ih
    | stmt s => exact ih

theorem fits_num {n : Nat} (hkind : kind ≠ .addr) (h : n < 256 ^ Tools.Disassembler.width kind) :
    FitsField all kind (.num n) := by
  refine ⟨hkind, Int.natCast_nonneg n, ?_⟩
  exact_mod_cast h

theorem fits_reg (r : Reg) : FitsField all .reg (ofReg r) :=
  fits_num (by decide) (lt_trans r.isLt (by decide))

theorem fits_byte (hkind : kind ≠ .addr) (hwidth : Tools.Disassembler.width kind = 1) (n : UInt8) :
    FitsField all kind (.num n.toNat) := by
  refine fits_num hkind ?_
  rw [hwidth]
  exact n.toNat_lt

theorem fits_word (v : UInt64) : FitsField all .imm64 (.num v.toNat) :=
  fits_num (by decide) v.toNat_lt

theorem fits_cond (c : Cond) : FitsField all .cond (.num c.code) := by
  refine fits_num (by decide) ?_
  cases c <;> decide

theorem op_known (s : Stmt) : s.op ∈ operandLen.map Prod.fst := by
  have helem : (operandLen.map Prod.fst).elem s.op = true := by
    cases s with
    | binary f rd ra rb => cases f <;> rfl
    | shift f rd ra imm => cases f <;> rfl
    | _ => rfl
  exact List.elem_iff.mp helem

theorem fits_operands (s : Stmt) (h : ∀ name, s.target? = some name → name ∈ labelNames all) :
    List.Forall₂ (FitsField all) (kindsOf s.op) s.operands := by
  cases s with
  | nop => exact .nil
  | movRi rd imm => exact .cons (fits_reg rd) (.cons (fits_word imm) .nil)
  | movRr rd rs => exact .cons (fits_reg rd) (.cons (fits_reg rs) .nil)
  | load rd areg => exact .cons (fits_reg rd) (.cons (fits_reg areg) .nil)
  | store areg rs => exact .cons (fits_reg areg) (.cons (fits_reg rs) .nil)
  | binary f rd ra rb =>
    have hregs : List.Forall₂ (FitsField all) [.reg, .reg, .reg] [ofReg rd, ofReg ra, ofReg rb] :=
      .cons (fits_reg rd) (.cons (fits_reg ra) (.cons (fits_reg rb) .nil))
    cases f <;> exact hregs
  | not rd ra => exact .cons (fits_reg rd) (.cons (fits_reg ra) .nil)
  | shift f rd ra imm =>
    have hfields : List.Forall₂ (FitsField all) [.reg, .reg, .imm8]
        [ofReg rd, ofReg ra, .num imm.toNat] :=
      .cons (fits_reg rd) (.cons (fits_reg ra) (.cons (fits_byte (by decide) rfl imm) .nil))
    cases f <;> exact hfields
  | cmp ra rb => exact .cons (fits_reg ra) (.cons (fits_reg rb) .nil)
  | cmov rd rs c => exact .cons (fits_reg rd) (.cons (fits_reg rs) (.cons (fits_cond c) .nil))
  | jmp label => exact .cons ⟨rfl, h label rfl⟩ .nil
  | jz label => exact .cons ⟨rfl, h label rfl⟩ .nil
  | jnz label => exact .cons ⟨rfl, h label rfl⟩ .nil
  | call label => exact .cons ⟨rfl, h label rfl⟩ .nil
  | ret => exact .nil
  | mix rd ra => exact .cons (fits_reg rd) (.cons (fits_reg ra) .nil)
  | halt code => exact .cons (fits_byte (by decide) rfl code) .nil

theorem wellFormed (p : Program) : WellFormed p.items where
  fits := by
    intro item hitem
    obtain ⟨line, hline, rfl⟩ := List.mem_map.mp hitem
    cases line with
    | label name => trivial
    | stmt s =>
      refine ⟨op_known s, fits_operands s fun name hname => ?_⟩
      rw [Program.items, labelNames_items]
      exact p.defined name (List.mem_filterMap.mpr ⟨.stmt s, hline, hname⟩)
  once := by
    rw [Program.items, labelNames_items]
    exact p.once
  small := p.small

end Items

section Addresses

variable {all : List Item} {lines : List Line} {name : String} {s : Stmt} {p : Program} {i : Nat}

def size (s : Stmt) : Nat := itemSize (.emit s.op s.operands)

theorem labelOffset_position (off : Nat) (h : name ∈ lines.filterMap Line.name?) :
    labelOffset (lines.map Line.item) off name =
      some (off + (((lines.filterMap Line.stmt?).take (position lines name)).map size).sum) := by
  induction lines generalizing off with
  | nil => cases h
  | cons line lines ih =>
    cases line with
    | label name' =>
      change labelOffset (.label name' :: lines.map Line.item) off name = _
      rw [labelOffset, position]
      split_ifs with heq
      · rfl
      · rcases List.mem_cons.mp h with hname | hrest
        · exact absurd hname heq
        · exact ih off hrest
    | stmt s =>
      change labelOffset (.emit s.op s.operands :: lines.map Line.item) off name =
        some (off + (((s :: lines.filterMap Line.stmt?).take (position lines name + 1)).map size).sum)
      rw [labelOffset, ih _ h, List.take_succ_cons, List.map_cons, List.sum_cons, ← Nat.add_assoc]
      rfl

theorem mem_placed_lines (off : Nat) (h : (lines.filterMap Line.stmt?)[i]? = some s) :
    (off + (((lines.filterMap Line.stmt?).take i).map size).sum,
      Instr.mk s.op (s.operands.map (valueOf all))) ∈ placed all (lines.map Line.item) off := by
  induction lines generalizing off i with
  | nil => cases h
  | cons line lines ih =>
    cases line with
    | label name => exact ih off h
    | stmt s' =>
      cases i with
      | zero =>
        cases h
        exact List.mem_cons_self
      | succ i =>
        refine List.mem_cons_of_mem _ ?_
        have hrest := ih (off + size s') (i := i) h
        rw [Nat.add_assoc] at hrest
        exact hrest

theorem length_emitted (hsmall : totalSize all < 65536)
    (hfits : ∀ item ∈ lines.map Line.item, FitsItem all item) :
    ((emitted all (lines.map Line.item)).flatMap Instr.bytes).length =
      ((lines.filterMap Line.stmt?).map size).sum := by
  induction lines with
  | nil => rfl
  | cons line lines ih =>
    obtain ⟨hline, hrest⟩ := List.forall_mem_cons.mp hfits
    cases line with
    | label name => exact ih hrest
    | stmt s =>
      have hsize := itemSize_emit hsmall hline
      change ((Instr.mk s.op (s.operands.map (valueOf all))).bytes ++
        (emitted all (lines.map Line.item)).flatMap Instr.bytes).length =
          ((s :: lines.filterMap Line.stmt?).map size).sum
      rw [List.length_append, ih hrest, ← hsize, List.map_cons, List.sum_cons]
      rfl

theorem length_code (p : Program) : p.code.length = (p.stmts.map size).sum :=
  length_emitted (wellFormed p).small (wellFormed p).fits

theorem address_end (h : p.stmts.length ≤ i) : p.address i = p.code.length := by
  rw [Program.address, List.take_of_length_le h]
  exact (length_code p).symm

theorem address_le (p : Program) (i : Nat) : p.address i ≤ p.code.length := by
  have hsplit := List.sum_take_add_sum_drop (p.stmts.map size) i
  have htotal := length_code p
  have haddress : p.address i = ((p.stmts.map size).take i).sum := by
    rw [← List.map_take]
    rfl
  omega

theorem sum_sizes (lines : List Line) :
    ((lines.filterMap Line.stmt?).map size).sum = totalSize (lines.map Line.item) := by
  induction lines with
  | nil => rfl
  | cons line lines ih =>
    rw [List.map_cons, totalSize, List.map_cons, List.sum_cons, ← totalSize, ← ih]
    cases line with
    | label name => exact (Nat.zero_add _).symm
    | stmt s => rfl

theorem code_lt (p : Program) : p.code.length < 65536 := by
  rw [length_code, Program.stmts, sum_sizes]
  exact p.small

theorem address_lt (p : Program) (i : Nat) : p.address i < 65536 :=
  lt_of_le_of_lt (address_le p i) (code_lt p)

theorem address_target (h : name ∈ p.lines.filterMap Line.name?) :
    valueOf p.items (.lbl name) = p.address (p.target name) := by
  rw [valueOf, Program.items, labelOffset_position 0 h, Nat.zero_add]
  rfl

theorem mem_placed (h : p.stmts[i]? = some s) :
    (p.address i, Instr.mk s.op (s.operands.map (valueOf p.items))) ∈ placed p.items p.items 0 := by
  have hmem : (0 + p.address i, Instr.mk s.op (s.operands.map (valueOf p.items))) ∈
      placed p.items p.items 0 := mem_placed_lines 0 h
  rwa [Nat.zero_add] at hmem

theorem stmt_mem (h : p.stmts[i]? = some s) : Line.stmt s ∈ p.lines := by
  obtain ⟨line, hline, hs⟩ := List.mem_filterMap.mp (List.mem_of_getElem? h)
  cases line with
  | label name => cases hs
  | stmt s' => cases hs; exact hline

theorem address_succ (h : p.stmts[i]? = some s) : p.address (i + 1) =
    p.address i + (Instr.mk s.op (s.operands.map (valueOf p.items))).bytes.length := by
  have hfits := (wellFormed p).fits _ (List.mem_map_of_mem (f := Line.item) (stmt_mem h))
  have hsize := itemSize_emit (wellFormed p).small hfits
  rw [Program.address, List.take_add_one, h, Option.toList_some, List.map_append, List.sum_append,
    ← hsize]
  rfl

theorem opcode_at (h : p.stmts[i]? = some s) : p.code[p.address i]? = some (UInt8.ofNat s.op) := by
  obtain ⟨⟨pre, post, hsplit, hlen⟩, -⟩ :=
    Layout.mem_place ((Boundaries.mem_placed (wellFormed p)).mp (mem_placed h))
  have hpre : p.address i = pre.length := ((Nat.zero_add _).symm.trans hlen).symm
  rw [Program.code, hsplit, hpre, List.append_assoc,
    List.getElem?_append_right (Nat.le_refl _), Nat.sub_self]
  rfl

end Addresses

section Link

variable {p : Program} {perm : List Nat} {m : Machine}

/-- Statement numbers become addresses, words become integers. -/
def link (p : Program) (perm : List Nat) (m : Machine) : PVm where
  code := p.code
  mem := m.mem.toList.map UInt64.toNat
  reg := m.reg.toList.map UInt64.toNat
  stack := m.stack.map p.address
  flags := m.flags.byte.toNat
  ip := p.address m.pc
  path := m.path.toNat
  halted := m.halted
  haltOperand := m.haltOperand.toNat
  perm := perm

theorem getReg_link (r : Reg) : getReg r.val (link p perm m) =
    .ok ((m.reg.get r).toNat, link p perm m) := by
  refine getReg_ok ?_
  change (m.reg.toList.map UInt64.toNat)[r.val]? = some m.reg[r].toNat
  simp

theorem setReg_link (rd : Reg) (v : UInt64) :
    setReg rd.val v.toNat (link p perm m) = .ok ((), link p perm (m.write rd v)) := by
  rw [setReg_ok (by simp [link])]
  simp only [link, Machine.write, Vector.toList_set, List.map_set]

theorem getMem_link (i : Fin 64) :
    getMem i.val (link p perm m) = .ok ((m.mem.get i).toNat, link p perm m) := by
  refine getMem_ok ?_
  change (m.mem.toList.map UInt64.toNat)[i.val]? = some m.mem[i].toNat
  simp

theorem setMem_link (i : Fin 64) (v : UInt64) : setMem i.val v.toNat (link p perm m) =
    .ok ((), link p perm (m.put i v)) := by
  rw [setMem_ok (by simp [link])]
  simp only [link, Machine.put, Vector.toList_set, List.map_set]

theorem byte_flags (f : Flags) : decide (f.byte.toNat &&& flZf ≠ 0) = f.zero ∧
    decide (f.byte.toNat &&& flCf ≠ 0) = f.carry ∧
    decide (f.byte.toNat &&& flSf ≠ 0) = f.sign := by
  obtain ⟨zero, carry, sign⟩ := f
  cases zero <;> cases carry <;> cases sign <;> exact ⟨rfl, rfl, rfl⟩

theorem cond_link (c : Cond) : Server.VmReference.cond c.code (link p perm m) =
    .ok (m.flags.holds c, link p perm m) := by
  change index [decide (m.flags.byte.toNat &&& flZf ≠ 0), !decide (m.flags.byte.toNat &&& flZf ≠ 0),
    decide (m.flags.byte.toNat &&& flCf ≠ 0), !decide (m.flags.byte.toNat &&& flCf ≠ 0),
    decide (m.flags.byte.toNat &&& flSf ≠ 0), !decide (m.flags.byte.toNat &&& flSf ≠ 0)] c.code
    (link p perm m) = _
  obtain ⟨hzero, hcarry, hsign⟩ := byte_flags m.flags
  rw [hzero, hcarry, hsign]
  cases c <;> rfl

theorem flags_compare (a b : UInt64) :
    (Flags.compare a b).byte.toNat = cmpFlags a.toNat b.toNat := by
  rw [← Words.cmpFlags_toNat]
  simp only [Flags.compare, Flags.byte, Client.Vm.cmpFlags, decide_eq_true_eq]
  split_ifs <;> rfl

def masked : Binary → Nat → Nat → Nat
  | .add, a, b => (a + b) &&& m64
  | .sub, a, b => subM64 a b
  | .mul, a, b => (a * b) &&& m64
  | .xor, a, b => a ^^^ b
  | .and, a, b => a &&& b
  | .or, a, b => a ||| b
  | .hashRound, a, b => hashRound a b

theorem masked_toNat (f : Binary) (a b : UInt64) :
    (f.apply a b).toNat = masked f a.toNat b.toNat := by
  cases f with
  | add =>
    rw [masked, Words.land_m64]
    exact UInt64.toNat_add a b
  | sub => exact Words.sub_toNat a b
  | mul =>
    rw [masked, Words.land_m64]
    exact UInt64.toNat_mul a b
  | xor => exact UInt64.toNat_xor a b
  | and => exact UInt64.toNat_and a b
  | or => exact UInt64.toNat_or a b
  | hashRound => exact Words.hashRound_toNat a b

theorem perform_binary (f : Binary) (rd ra rb : Nat) : perform f.op [rd, ra, rb] = (do
    let a ← getReg ra; let b ← getReg rb
    setReg rd (masked f a b)) := by
  cases f <;> rfl

def shifted : Shift → Nat → Nat → Nat
  | .rol, a, n => rotl64 a n
  | .ror, a, n => rotr64 a n
  | .shl, a, n => (a <<< (n &&& 63)) &&& m64
  | .shr, a, n => (a >>> (n &&& 63)) &&& m64

theorem shift_masked (a n : UInt64) : (if n &&& 63 ≠ 0 then a <<< (n &&& 63) else a) = a <<< (n &&& 63) ∧
    (if n &&& 63 ≠ 0 then a >>> (n &&& 63) else a) = a >>> (n &&& 63) := by
  by_cases h : n &&& 63 = 0
  · rw [h]
    simp
  · simp [h]

theorem shifted_toNat (f : Shift) (a : UInt64) (n : UInt8) :
    (f.apply a n).toNat = shifted f a.toNat n.toNat := by
  cases f with
  | rol => rw [Shift.apply, Words.rotl64_toNat, UInt8.toNat_toUInt64, shifted]
  | ror => rw [Shift.apply, Words.rotr64_toNat, UInt8.toNat_toUInt64, shifted]
  | shl =>
    rw [Shift.apply, ← (shift_masked a n.toUInt64).1]
    exact Words.shl_toNat a n
  | shr =>
    rw [Shift.apply, ← (shift_masked a n.toUInt64).2]
    exact Words.shr_toNat a n

theorem perform_shift (f : Shift) (rd ra imm : Nat) : perform f.op [rd, ra, imm] = (do
    let a ← getReg ra
    setReg rd (shifted f a imm)) := by
  cases f <;> rfl

theorem path_toNat (path : UInt32) {a : Nat} (ha : a < 65536) (taken : Bool) :
    ((path * 0x01000193) ^^^ UInt32.ofNat a ^^^ (if taken then 1 else 0)).toNat =
      ReferenceSteps.pathAfter path.toNat a taken := by
  have hmask : a &&& 0xFFFF = a := by
    rw [show (0xFFFF : Nat) = 2 ^ 16 - 1 from rfl, Nat.and_two_pow_sub_one_eq_mod]
    exact Nat.mod_eq_of_lt ha
  have htaken : (if taken then 1 else 0 : UInt32).toNat = taken.toNat := by cases taken <;> rfl
  have hk : (0x01000193 : UInt32).toNat = 0x01000193 := rfl
  have hsmall : taken.toNat < 2 ^ 32 := lt_of_le_of_lt (Bool.toNat_le taken) (by decide)
  rw [ReferenceSteps.pathAfter, Words.land_m32, hmask, UInt32.toNat_xor, UInt32.toNat_xor,
    UInt32.toNat_mul, htaken, hk, UInt32.toNat_ofNat_of_lt' (lt_trans ha (by decide)),
    Nat.xor_mod_two_pow, Nat.xor_mod_two_pow, Nat.mod_eq_of_lt (lt_trans ha (by decide)),
    Nat.mod_eq_of_lt hsmall]

theorem branch_link (label : String) (taken : Bool) :
    (foldPath taken >>= fun _ => if taken then setIp (p.address (p.target label)) else pure ())
      (link p perm m) = .ok ((), link p perm (m.branch p label taken)) := by
  rw [branch_ok]
  simp only [link, Machine.branch, path_toNat m.path (address_lt p m.pc)]
  cases taken <;> rfl

def raised (_ : Fault) : Failure := .indexError

def packed (r : Except Fault Machine) : Except Fault (Unit × Machine) := r.map fun m => ((), m)

theorem value_reg (r : Reg) : valueOf p.items (ofReg r) = r.val := Int.toNat_natCast _

theorem value_nat (n : Nat) : valueOf p.items (.num n) = n := Int.toNat_natCast n

theorem mix_link (rd : Reg) (acc v : UInt64) :
    (Client.Vm.mix acc v (UInt64.ofNat rd)).toNat = mix acc.toNat v.toNat rd := by
  have hlt : rd.val < 256 := lt_trans rd.isLt (by decide)
  have hbyte : (UInt8.ofNat rd.val).toNat = rd.val := UInt8.toNat_ofNat_of_lt' hlt
  have hword : UInt64.ofNat rd.val = (UInt8.ofNat rd.val).toUInt64 := by
    rw [← UInt64.toNat_inj, UInt8.toNat_toUInt64, hbyte,
      UInt64.toNat_ofNat_of_lt' (lt_trans hlt (by decide))]
  have hmix := Words.mix_toNat acc v (UInt8.ofNat rd.val)
  rwa [← hword, hbyte] at hmix

theorem perform_link (s : Stmt)
    (h : ∀ name, s.target? = some name → name ∈ p.lines.filterMap Line.name?) :
    perform s.op (s.operands.map (valueOf p.items)) (link p perm m) =
      carry raised (link p perm) (packed (m.exec p s)) := by
  have hread {α : Type} (r : Reg) (k : Nat → VmM α) :
      (getReg r.val >>= k) (link p perm m) = k (m.reg.get r).toNat (link p perm m) :=
    Effects.bind_ok (getReg_link r)
  cases s with
  | nop => rfl
  | movRi rd imm =>
    have himm : imm.toNat &&& m64 = imm.toNat := by
      rw [Words.land_m64]
      exact Nat.mod_eq_of_lt imm.toNat_lt
    change perform Op.movRi [valueOf p.items (ofReg rd), valueOf p.items (.num imm.toNat)] _ = _
    rw [value_reg, value_nat]
    change setReg rd.val (imm.toNat &&& m64) _ = _
    rw [himm]
    exact setReg_link rd imm
  | movRr rd rs =>
    change perform Op.movRr [valueOf p.items (ofReg rd), valueOf p.items (ofReg rs)] _ = _
    rw [value_reg, value_reg]
    exact (hread rs _).trans (setReg_link rd (m.reg.get rs))
  | load rd areg =>
    change perform Op.load [valueOf p.items (ofReg rd), valueOf p.items (ofReg areg)] _ = _
    rw [value_reg, value_reg]
    exact (hread areg _).trans ((Effects.bind_ok (getMem_link (m.cell areg))).trans
      (setReg_link rd _))
  | store areg rs =>
    change perform Op.store [valueOf p.items (ofReg areg), valueOf p.items (ofReg rs)] _ = _
    rw [value_reg, value_reg]
    exact (hread rs _).trans ((hread areg _).trans (setMem_link (m.cell areg) (m.reg.get rs)))
  | binary f rd ra rb =>
    change perform f.op [valueOf p.items (ofReg rd), valueOf p.items (ofReg ra),
      valueOf p.items (ofReg rb)] _ = _
    rw [value_reg, value_reg, value_reg, perform_binary]
    refine (hread ra _).trans ((hread rb _).trans ?_)
    rw [← masked_toNat]
    exact setReg_link rd _
  | not rd ra =>
    change perform Op.not [valueOf p.items (ofReg rd), valueOf p.items (ofReg ra)] _ = _
    rw [value_reg, value_reg]
    refine (hread ra _).trans ?_
    rw [← Words.not_toNat]
    exact setReg_link rd _
  | shift f rd ra imm =>
    change perform f.op [valueOf p.items (ofReg rd), valueOf p.items (ofReg ra),
      valueOf p.items (.num imm.toNat)] _ = _
    rw [value_reg, value_reg, value_nat, perform_shift]
    refine (hread ra _).trans ?_
    rw [← shifted_toNat]
    exact setReg_link rd _
  | cmp ra rb =>
    change perform Op.cmp [valueOf p.items (ofReg ra), valueOf p.items (ofReg rb)] _ = _
    rw [value_reg, value_reg]
    refine (hread ra _).trans ((hread rb _).trans ?_)
    rw [setCmpFlags, ← flags_compare]
    rfl
  | cmov rd rs c =>
    change perform Op.cmov [valueOf p.items (ofReg rd), valueOf p.items (ofReg rs),
      valueOf p.items (.num c.code)] _ = _
    rw [value_reg, value_reg, value_nat]
    refine (Effects.bind_ok (cond_link c)).trans ?_
    cases hc : m.flags.holds c with
    | true =>
      simp only [Machine.exec, hc, if_true]
      exact (hread rs _).trans (setReg_link rd _)
    | false =>
      simp only [Machine.exec, hc, Bool.false_eq_true, if_false]
      rfl
  | jmp label =>
    change perform Op.jmp [valueOf p.items (.lbl label)] _ = _
    rw [address_target (h label rfl)]
    rfl
  | jz label =>
    change perform Op.jz [valueOf p.items (.lbl label)] _ = _
    rw [address_target (h label rfl)]
    change (foldPath (decide ((link p perm m).flags &&& flZf ≠ 0)) >>= fun _ =>
      if decide ((link p perm m).flags &&& flZf ≠ 0) then _ else _) _ = _
    rw [show decide ((link p perm m).flags &&& flZf ≠ 0) = m.flags.zero from (byte_flags m.flags).1]
    exact branch_link label m.flags.zero
  | jnz label =>
    change perform Op.jnz [valueOf p.items (.lbl label)] _ = _
    rw [address_target (h label rfl)]
    change (foldPath (!decide ((link p perm m).flags &&& flZf ≠ 0)) >>= fun _ =>
      if !decide ((link p perm m).flags &&& flZf ≠ 0) then _ else _) _ = _
    rw [show decide ((link p perm m).flags &&& flZf ≠ 0) = m.flags.zero from (byte_flags m.flags).1]
    exact branch_link label (!m.flags.zero)
  | call label =>
    change perform Op.call [valueOf p.items (.lbl label)] _ = _
    rw [address_target (h label rfl)]
    change Except.ok _ = Except.ok _
    simp only [link, List.map_append, List.map_cons, List.map_nil]
  | ret =>
    have hlast : (link p perm m).stack.getLast? = m.stack.getLast?.map p.address :=
      List.getLast?_map
    change Server.VmReference.exec Op.ret _ = _
    cases hm : m.stack.getLast? with
    | none =>
      rw [ret_none (hlast.trans (by rw [hm]; rfl))]
      simp only [Machine.exec, hm]
      rfl
    | some back =>
      rw [ret_some (p.address back) (hlast.trans (by rw [hm]; rfl))]
      simp only [Machine.exec, hm]
      change Except.ok _ = Except.ok _
      simp only [link, List.map_dropLast]
  | mix rd ra =>
    change perform Op.mix [valueOf p.items (ofReg rd), valueOf p.items (ofReg ra)] _ = _
    rw [value_reg, value_reg]
    refine (hread rd _).trans ((hread ra _).trans ?_)
    rw [← mix_link]
    exact setReg_link rd _
  | halt code =>
    change perform Op.halt [valueOf p.items (.num code.toNat)] _ = _
    rw [value_nat]
    rfl

/-- One step of the reference on a linked state. -/
theorem step_link (perm : List Nat) (m : Machine) :
    Server.VmReference.engine.step (link p perm m) =
      carry raised (link p perm) (packed (m.step p)) := by
  have hwell := wellFormed p
  cases hs : p.stmts[m.pc]? with
  | none =>
    have hend : (link p perm m).ip = (stream p.items).length :=
      address_end (List.getElem?_eq_none_iff.mp hs)
    rw [step_at_end rfl hend, Machine.step, hs]
    rfl
  | some s =>
    have hfetch := fetches_of_mem hwell (s := link p perm m) rfl (mem_placed hs) rfl
    have hnext : { link p perm m with
        ip := p.address m.pc + (Instr.mk s.op (s.operands.map (valueOf p.items))).bytes.length } =
        link p perm { m with pc := m.pc + 1 } := by
      rw [← address_succ hs]
      rfl
    rw [hfetch.performs]
    change perform s.op (s.operands.map (valueOf p.items)) { link p perm m with
      ip := p.address m.pc + (Instr.mk s.op (s.operands.map (valueOf p.items))).bytes.length } = _
    rw [hnext, perform_link s fun name hname =>
      p.defined name (List.mem_filterMap.mpr ⟨.stmt s, stmt_mem hs, hname⟩), Machine.step, hs]

theorem embeds (p : Program) (perm : List Nat) :
    Embeds (Tools.Assembly.engine p) Server.VmReference.engine raised (link p perm) where
  halted _ := rfl
  step := step_link perm
  runaway _ := rfl

theorem init_link (H : Hashes) (p : Program) (mem : Vector UInt64 64) (sessionNonce : Bytes) :
    Server.VmReference.VM.init H p.code (mem.toList.map UInt64.toNat) sessionNonce =
      link p (Server.VmReference.handlerPermutation H sessionNonce) (Machine.start mem) := by
  simp only [Server.VmReference.VM.init, link, Machine.start, Vector.toList_replicate,
    List.map_replicate]
  rfl

end Link

section Results

variable {p : Program} {H : Hashes} {m : Machine} {f : Fault}

theorem widen_injective : Function.Injective widen := by
  rintro ⟨d, h, path, halt⟩ ⟨d', h', path', halt'⟩ heq
  simp only [widen, Server.VmReference.VMResult.mk.injEq, UInt32.toNat_inj] at heq
  obtain ⟨rfl, rfl, rfl, rfl⟩ := heq
  rfl

theorem finish_link (H : Hashes) (p : Program) (perm : List Nat) (m : Machine) :
    (link p perm m).finish H = .ok (widen (m.finish H p)) := by
  have hreturn (i : Nat) : (UInt64.ofNat (p.address i)).toNat = p.address i :=
    UInt64.toNat_ofNat_of_lt' (lt_trans (address_lt p i) (by decide))
  have hstack : (link p perm m).stack.mapM (Server.Config.toBytes 8) =
      .ok (m.stack.map fun i => be64 (UInt64.ofNat (p.address i))) := by
    have hwords : m.stack.map p.address =
        (m.stack.map fun i => UInt64.ofNat (p.address i)).map UInt64.toNat := by
      rw [List.map_map]
      exact List.map_congr_left fun i _ => (hreturn i).symm
    change (m.stack.map p.address).mapM _ = _
    rw [hwords, mapM_toBytes_words, List.map_map]
    rfl
  have hdigest : ((link p perm m).reg.drop 12).take 4 =
      ((m.reg.toList.drop 12).take 4).map UInt64.toNat := by
    rw [List.map_take, List.map_drop]
    rfl
  have hreg : (link p perm m).reg = m.reg.toList.map UInt64.toNat := rfl
  have hflags : UInt8.ofNat ((link p perm m).flags &&& 0xFF) = m.flags.byte := by
    change UInt8.ofNat (m.flags.byte.toNat &&& 0xFF) = _
    rw [ofNat_and_0xFF]
    obtain ⟨zero, carry, sign⟩ := m.flags
    cases zero <;> cases carry <;> cases sign <;> rfl
  have hip : (link p perm m).ip &&& 0xFFFF = (UInt16.ofNat (p.address m.pc)).toNat := by
    rw [UInt16.toNat_ofNat_of_lt' (address_lt p m.pc), show (0xFFFF : Nat) = 2 ^ 16 - 1 from rfl,
      Nat.and_two_pow_sub_one_eq_mod]
    exact Nat.mod_eq_of_lt (address_lt p m.pc)
  have hpath : (link p perm m).path &&& m32 = m.path.toNat := by
    rw [Words.land_m32]
    exact toNat_mod_path m.path
  have hcode : ((link p perm m).haltOperand ^^^ ((link p perm m).path &&& 0xFF)) &&& m32 =
      (m.haltOperand.toUInt32 ^^^ (m.path &&& 0xFF)).toNat := by
    rw [Words.land_m32, ← toNat_mod_path (_ ^^^ _), UInt32.toNat_xor, UInt32.toNat_and]
    rfl
  rw [Server.VmReference.VM.finish, hdigest, hreg, hstack]
  simp only [mapM_toBytes_words, bind, Except.bind, pure, Except.pure, hflags, hip, hpath, hcode,
    widen, Machine.finish, List.flatMap_def, Client.Constants.be16_eq, Client.Constants.be32_eq]

def thrown : Fault → String
  | .fellOff => "vm: ip out of range"
  | .emptyStack => "vm: RET underflow"

theorem packed_error {r : Except Fault Machine} (h : packed r = .error f) : r = .error f := by
  cases r with
  | error f' => cases h; rfl
  | ok m' => cases h

theorem step_error (h : m.step p = .error f) : (f = .fellOff ∧ p.stmts[m.pc]? = none) ∨
    (f = .emptyStack ∧ p.stmts[m.pc]? = some .ret ∧ m.stack = []) := by
  rw [Machine.step] at h
  cases hs : p.stmts[m.pc]? with
  | none =>
    rw [hs] at h
    cases h
    exact .inl ⟨rfl, rfl⟩
  | some s =>
    rw [hs] at h
    cases s with
    | ret =>
      cases hlast : m.stack.getLast? with
      | none =>
        simp only [Machine.exec, hlast] at h
        cases h
        exact .inr ⟨rfl, rfl, List.getLast?_eq_none_iff.mp hlast⟩
      | some back =>
        simp only [Machine.exec, hlast] at h
        cases h
    | _ => cases h

theorem not_overrun (p : Program) (perm : List Nat) (m : Machine) : ¬ Overrun (link p perm m) :=
  fun h => absurd h.1 (not_lt.mpr (address_le p m.pc))

theorem client_step_error {B : Nat} {c : CVm} {perm : List Nat}
    (hr : Rel B false c (link p perm m)) (h : m.step p = .error f) :
    Client.Vm.engine.step c = .error (thrown f) := by
  have hcode : c.code = p.code := hr.code.symm
  have hip : c.ip = p.address m.pc := hr.ip.symm
  rcases step_error h with ⟨rfl, hs⟩ | ⟨rfl, hs, hstack⟩
  · refine Effects.bind_error (client_u8_none ?_)
    rw [hcode, hip, address_end (List.getElem?_eq_none_iff.mp hs)]
    exact List.getElem?_eq_none (Nat.le_refl _)
  · have hop : c.code[c.ip]? = some Client.Vm.Op.ret := by
      rw [hcode, hip]
      exact opcode_at hs
    have hempty : c.stack = [] := by
      have hmap : m.stack.map p.address = c.stack.map UInt64.toNat := hr.stack
      rw [hstack] at hmap
      exact List.map_eq_nil_iff.mp hmap.symm
    have hret : handlerOf Client.Vm.Op.ret = .hRet := by decide
    rw [client_step_some _ hop (hr.dispatch _), hret]
    exact client_ret_none (by rw [hempty]; rfl)

theorem client_run (H : Hashes) (p : Program) (mem : Vector UInt64 64) (sessionNonce : Bytes) :
    (Client.Vm.VM.init H p.code mem sessionNonce).run H =
      ((p.run mem).map fun m => m.finish H p).mapError thrown := by
  have hinit := init_rel H p.code mem sessionNonce
  rw [init_link] at hinit
  have hembeds := embeds p (Server.VmReference.handlerPermutation H sessionNonce)
  rw [Client.Vm.VM.run, Program.run]
  cases hrun : (Tools.Assembly.engine p).run Client.Vm.kMaxSteps (Machine.start mem) with
  | error f =>
    obtain ⟨k, t, hk, hpath, hlive, hstep⟩ := Engine.run_error hrun
    obtain ⟨c, hclient, halted, hr⟩ := path_agree hinit (Nat.le_of_lt hk) (hembeds.path hpath)
      (not_overrun p _ t)
    have hh : halted = false := hr.haltedRight.symm.trans hlive
    subst hh
    rw [Engine.run_of_error hk hclient hr.haltedLeft
      (client_step_error hr (packed_error hstep))]
    rfl
  | ok r =>
    obtain ⟨⟨⟩, m⟩ := r
    have href := hembeds.run Client.Vm.kMaxSteps (Machine.start mem)
    rw [hrun] at href
    have hagree := run_agree hinit
    rw [show Server.VmReference.maxSteps = Client.Vm.kMaxSteps from rfl, href] at hagree
    generalize Client.Vm.engine.run Client.Vm.kMaxSteps _ = x at hagree ⊢
    cases hagree with
    | @ok _ _ c _ _ hs =>
      obtain ⟨B, halted, hr⟩ := hs
      have hfinish := (finish_eq H hr).symm.trans (finish_link H p _ m)
      exact congrArg Except.ok (widen_injective (Except.ok.inj hfinish))
    | astray e ho =>
      obtain ⟨u, hu, heq⟩ := ho
      have hcode : p.code = u.code := congrArg Server.VmReference.VM.code heq
      have hip : p.address m.pc = u.ip := congrArg Server.VmReference.VM.ip heq
      have hle := address_le p m.pc
      rw [hcode, hip] at hle
      exact absurd hu.1 (not_lt.mpr hle)

theorem reference_run (H : Hashes) (p : Program) (mem : Vector UInt64 64) (sessionNonce : Bytes) :
    (Server.VmReference.VM.init H p.code (mem.toList.map UInt64.toNat) sessionNonce).run H =
      ((p.run mem).map fun m => widen (m.finish H p)).mapError raised := by
  have hembeds := embeds p (Server.VmReference.handlerPermutation H sessionNonce)
  have href := hembeds.run Client.Vm.kMaxSteps (Machine.start mem)
  rw [init_link, Server.VmReference.VM.run,
    show Server.VmReference.maxSteps = Client.Vm.kMaxSteps from rfl, href, Program.run]
  cases hrun : (Tools.Assembly.engine p).run Client.Vm.kMaxSteps (Machine.start mem) with
  | error f => rfl
  | ok r => exact finish_link H p _ r.2

end Results

/-- The assembler preserves meaning. Whatever program is written in it, and whatever memory and
nonce a session starts from, both engines do on the assembled bytes what the program does on its
statements: the same four results, or the same fault. -/
theorem assembler_preserves_meaning (p : Program) (H : Hashes) (mem : Vector UInt64 64)
    (sessionNonce : Bytes) :
    assemble p.items = .ok p.code ∧
      (Client.Vm.VM.init H p.code mem sessionNonce).run H =
        ((p.run mem).map fun m => m.finish H p).mapError thrown ∧
      (Server.VmReference.VM.init H p.code (mem.toList.map UInt64.toNat) sessionNonce).run H =
        ((p.run mem).map fun m => widen (m.finish H p)).mapError raised :=
  ⟨assemble_eq (wellFormed p), client_run H p mem sessionNonce, reference_run H p mem sessionNonce⟩

section Canonical

theorem sixteen_ne_zero : NeZero 16 := ⟨by decide⟩

attribute [local instance] sixteen_ne_zero

def canonicalLines : List Line :=
  [.stmt (.movRi 12 0x0123456789ABCDEF), .stmt (.movRi 13 0xDEADBEEFCAFEBABE),
   .stmt (.movRi 14 0xA5A5A5A55A5A5A5A), .stmt (.movRi 15 0xF0E1D2C3B4A59687),
   .stmt (.movRi 0 0), .stmt (.movRi 1 22), .stmt (.movRi 6 1), .stmt (.movRi 8 0),
   .label "loop",
   .stmt (.cmp 0 1), .stmt (.jz "end"),
   .stmt (.movRr 7 0), .stmt (.load 2 7),
   .stmt (.binary .hashRound 12 12 2), .stmt (.mix 13 2),
   .stmt (.binary .and 3 2 6), .stmt (.cmp 3 8), .stmt (.jz "even"),
   .stmt (.binary .hashRound 15 15 2), .stmt (.shift .rol 15 15 7), .stmt (.jmp "after"),
   .label "even",
   .stmt (.binary .hashRound 14 14 2), .stmt (.shift .ror 14 14 11),
   .label "after",
   .stmt (.binary .xor 12 12 14), .stmt (.binary .add 13 13 15), .stmt (.binary .add 0 0 6),
   .stmt (.jmp "loop"),
   .label "end",
   .stmt (.binary .hashRound 12 12 13), .stmt (.binary .hashRound 13 13 14),
   .stmt (.binary .hashRound 14 14 15), .stmt (.binary .hashRound 15 15 12),
   .stmt (.call "finalize"), .stmt (.halt 0x42),
   .label "finalize",
   .stmt .nop, .stmt (.not 3 12), .stmt (.binary .or 4 13 3), .stmt (.binary .sub 5 14 15),
   .stmt (.binary .mul 9 5 6), .stmt (.shift .shl 10 4 3), .stmt (.shift .shr 11 4 5),
   .stmt (.binary .xor 4 10 11), .stmt (.movRi 0 3),
   .label "inner",
   .stmt (.binary .hashRound 9 9 4), .stmt (.cmp 9 8), .stmt (.cmov 5 9 .nzf),
   .stmt (.binary .sub 0 0 6), .stmt (.cmp 0 8), .stmt (.jnz "inner"),
   .stmt (.store 7 9), .stmt (.binary .xor 12 12 9), .stmt (.binary .add 13 13 5),
   .stmt (.binary .xor 14 14 4), .stmt (.mix 15 3), .stmt .ret]

end Canonical

theorem canonicalLines_items : canonicalLines.map Line.item =
    prologue ++ foldLoop ++ epilogue ++ finalizeRoutine := by
  decide +kernel

def canonical : Program where
  lines := canonicalLines
  once := by decide +kernel
  defined := by decide +kernel
  small := by decide +kernel

/-- The shipped program means what its statements mean, on both sides. -/
theorem buildProgram_means (H : Hashes) (mem : Vector UInt64 64) (sessionNonce : Bytes) :
    ∃ code, buildProgram = .ok code ∧
      (Client.Vm.VM.init H code mem sessionNonce).run H =
        ((canonical.run mem).map fun m => m.finish H canonical).mapError thrown ∧
      (Server.VmReference.VM.init H code (mem.toList.map UInt64.toNat) sessionNonce).run H =
        ((canonical.run mem).map fun m => widen (m.finish H canonical)).mapError raised := by
  refine ⟨canonical.code, ?_, client_run H canonical mem sessionNonce,
    reference_run H canonical mem sessionNonce⟩
  have hassemble := assemble_eq (wellFormed canonical)
  rw [Program.items, show canonical.lines = canonicalLines from rfl, canonicalLines_items]
    at hassemble
  exact hassemble.trans (congrArg Except.ok (by rw [← canonicalLines_items]; rfl))

end RankGate.Vm.Assembled
