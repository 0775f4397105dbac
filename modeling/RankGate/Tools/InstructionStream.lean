/- Module: RankGate/Tools/InstructionStream
   source: tools/generate_vm_bytecode.py (Assembler), tools/disassemble_vm.py
   digest: What a well-formed item list assembles to, and that the linear sweep reads it back. -/

import RankGate.Foundation.Layout
import RankGate.Tools.Disassembler
import RankGate.Tools.VmBytecode

set_option autoImplicit false
set_option relaxedAutoImplicit false

namespace RankGate.Tools.InstructionStream

open ByteCodec (Bytes beBytes beNat)
open Disassembler
open Layout (Boundary place)
open RankGate.Server.VmReference (operandLen)
open RankGate.Server.VmReference.Op
open VmBytecode

structure Instr where
  op : Nat
  values : List Nat
  deriving DecidableEq

def kindsOf (op : Nat) : List Kind := (layout.lookup op).getD []

/-- Operand fields end to end, each big-endian in its own width. -/
def fields (kinds : List Kind) (values : List Nat) : Bytes :=
  (kinds.zip values).flatMap fun p => beBytes (width p.1) p.2

def Instr.operandBytes (i : Instr) : Bytes := fields (kindsOf i.op) i.values

def Instr.bytes (i : Instr) : Bytes := UInt8.ofNat i.op :: i.operandBytes

def itemSize : Item → Nat
  | .label _ => 0
  | .emit op _ => 1 + (operandLen.lookup op).getD 0

def totalSize (items : List Item) : Nat := (items.map itemSize).sum

def labelNames (items : List Item) : List String :=
  items.filterMap fun
    | .label name => some name
    | .emit _ _ => none

def labelOffset : List Item → Nat → String → Option Nat
  | [], _, _ => none
  | .label name' :: items, off, name =>
    if name = name' then some off else labelOffset items off name
  | .emit op operands :: items, off, name =>
    labelOffset items (off + itemSize (.emit op operands)) name

/-- The number an operand stands for: itself, or the offset of its label. -/
def valueOf (items : List Item) : Operand → Nat
  | .num v => v.toNat
  | .lbl name => (labelOffset items 0 name).getD 0

def emitted (all : List Item) : List Item → List Instr
  | [] => []
  | .label _ :: items => emitted all items
  | .emit op operands :: items => ⟨op, operands.map (valueOf all)⟩ :: emitted all items

def placed (all : List Item) : List Item → Nat → List (Nat × Instr)
  | [], _ => []
  | .label _ :: items, off => placed all items off
  | .emit op operands :: items, off =>
    (off, ⟨op, operands.map (valueOf all)⟩) ::
      placed all items (off + itemSize (.emit op operands))

/-- An address is a defined label; any other field holds a number of its width. -/
def FitsField (items : List Item) (kind : Kind) : Operand → Prop
  | .lbl name => kind = .addr ∧ name ∈ labelNames items
  | .num v => kind ≠ .addr ∧ 0 ≤ v ∧ v < 256 ^ width kind

instance (items : List Item) (kind : Kind) : (o : Operand) → Decidable (FitsField items kind o)
  | .lbl name => inferInstanceAs (Decidable (kind = .addr ∧ name ∈ labelNames items))
  | .num v => inferInstanceAs (Decidable (kind ≠ .addr ∧ 0 ≤ v ∧ v < 256 ^ width kind))

/-- A known opcode with the operands its fields call for. -/
def FitsItem (items : List Item) : Item → Prop
  | .label _ => True
  | .emit op operands =>
    op ∈ operandLen.map Prod.fst ∧ List.Forall₂ (FitsField items) (kindsOf op) operands

instance (items : List Item) : (item : Item) → Decidable (FitsItem items item)
  | .label _ => inferInstanceAs (Decidable True)
  | .emit op operands => inferInstanceAs (Decidable (op ∈ operandLen.map Prod.fst ∧
      List.Forall₂ (FitsField items) (kindsOf op) operands))

structure WellFormed (items : List Item) : Prop where
  fits : ∀ item ∈ items, FitsItem items item
  once : (labelNames items).Nodup
  small : totalSize items < 65536

section Tables

theorem table_agree : ∀ p ∈ operandLen, p.1 < 256 ∧ (p.1, kindsOf p.1) ∈ layout ∧
    operandLen.lookup p.1 = some ((kindsOf p.1).map width).sum := by
  decide

theorem table_known {op : Nat} (h : op ∈ operandLen.map Prod.fst) :
    op < 256 ∧ (op, kindsOf op) ∈ layout ∧
      operandLen.lookup op = some ((kindsOf op).map width).sum := by
  obtain ⟨p, hp, rfl⟩ := List.mem_map.mp h
  exact table_agree p hp

theorem table_shape : ∀ p ∈ layout, (p.1 = movRi ∧ p.2 = [.reg, .imm64]) ∨
    (p.1 ≠ movRi ∧ p.1 ∈ branchOps ∧ p.2 = [.addr]) ∨
    (p.1 ≠ movRi ∧ p.1 ∉ branchOps ∧ ∀ kind ∈ p.2, kind ≠ .addr ∧ width kind = 1) := by
  decide

theorem branch_kinds {op : Nat} (h : op ∈ operandLen.map Prod.fst) (hop : op ∈ branchOps) :
    kindsOf op = [.addr] := by
  rcases table_shape _ (table_known h).2.1 with ⟨hmov, -⟩ | ⟨-, -, hkinds⟩ | ⟨-, hnot, -⟩
  · simp only at hmov
    subst hmov
    exact absurd hop (by decide)
  · exact hkinds
  · exact absurd hop hnot

end Tables

section Fields

variable {kind : Kind} {kinds : List Kind} {values : List Nat} {v : Nat}

def InRange (kinds : List Kind) (values : List Nat) : Prop :=
  List.Forall₂ (fun kind v => v < 256 ^ width kind) kinds values

theorem fields_cons : fields (kind :: kinds) (v :: values) =
    beBytes (width kind) v ++ fields kinds values := rfl

theorem length_fields (h : InRange kinds values) :
    (fields kinds values).length = (kinds.map width).sum := by
  induction h with
  | nil => rfl
  | cons _ _ ih => rw [fields_cons, List.length_append, ByteCodec.length_beBytes, ih]; rfl

theorem readOperands_fields (h : InRange kinds values) :
    readOperands kinds (fields kinds values) = values := by
  induction h with
  | nil => rfl
  | @cons kind v kinds values hv _ ih =>
    have hlen : (beBytes (width kind) v).length = width kind := ByteCodec.length_beBytes _ _
    rw [fields_cons, readOperands, List.take_left' hlen, List.drop_left' hlen, ih,
      ByteCodec.beNat_beBytes hv]

end Fields

structure Instr.Valid (i : Instr) : Prop where
  known : i.op ∈ operandLen.map Prod.fst
  inRange : InRange (kindsOf i.op) i.values

section Sweep

variable {i : Instr} {instrs : List Instr} {pre : Bytes}

theorem Instr.Valid.operandLen (h : i.Valid) : operandLen.lookup i.op = some i.operandBytes.length := by
  rw [(table_known h.known).2.2, Instr.operandBytes, length_fields h.inRange]

theorem Instr.Valid.toNat_op (h : i.Valid) : (UInt8.ofNat i.op).toNat = i.op :=
  UInt8.toNat_ofNat_of_lt' (table_known h.known).1

/-- The sweep stays in step with the pieces. -/
theorem decodeFrom_placed (pre : Bytes) (h : ∀ i ∈ instrs, i.Valid) :
    decodeFrom (pre ++ instrs.flatMap Instr.bytes) pre.length =
      (place Instr.bytes instrs pre.length).map fun p => (p.1, some p.2.op, p.2.operandBytes) := by
  induction instrs generalizing pre with
  | nil => exact decodeFrom_end (by simp)
  | cons i instrs ih =>
    obtain ⟨hi, hrest⟩ := List.forall_mem_cons.mp h
    have hpiece := decodeFrom_piece (table_known hi.known).1 hi.operandLen pre
      (instrs.flatMap Instr.bytes)
    change decodeFrom (pre ++ (i.bytes ++ instrs.flatMap Instr.bytes)) pre.length =
      (pre.length, some i.op, i.operandBytes) ::
        decodeFrom ((pre ++ i.bytes) ++ instrs.flatMap Instr.bytes) (pre ++ i.bytes).length at hpiece
    rw [List.flatMap_cons, hpiece, ih _ hrest, List.length_append]
    rfl

end Sweep

section Labels

variable {items : List Item} {off a : Nat} {name : String}

theorem labelOffset_isSome (off : Nat) (h : name ∈ labelNames items) :
    ∃ a, labelOffset items off name = some a := by
  induction items generalizing off with
  | nil => cases h
  | cons item items ih =>
    cases item with
    | emit op operands => exact ih _ h
    | label name' =>
      rw [labelOffset]
      split_ifs with heq
      · exact ⟨off, rfl⟩
      · rcases List.mem_cons.mp h with hname | hrest
        · exact absurd hname heq
        · exact ih _ hrest

theorem labelOffset_none (h : name ∉ labelNames items) : labelOffset items off name = none := by
  induction items generalizing off with
  | nil => rfl
  | cons item items ih =>
    cases item with
    | emit op operands => exact ih h
    | label name' =>
      obtain ⟨hne, hrest⟩ := not_or.mp (fun hm => h (List.mem_cons.mpr hm))
      rw [labelOffset, if_neg hne]
      exact ih hrest

theorem labelOffset_le (h : labelOffset items off name = some a) : a ≤ off + totalSize items := by
  induction items generalizing off with
  | nil => cases h
  | cons item items ih =>
    have htotal : totalSize (item :: items) = itemSize item + totalSize items := List.sum_cons
    cases item with
    | emit op operands =>
      have hle := ih h
      omega
    | label name' =>
      rw [labelOffset] at h
      split_ifs at h with heq
      · cases h
        exact Nat.le_add_right _ _
      · have hle := ih h
        omega

/-- Pass 1 finds every label at its offset: a later definition would win, but there is none. -/
theorem recordLabels_eq {all : List Item} (off : Nat) (hfits : ∀ item ∈ items, FitsItem all item)
    (honce : (labelNames items).Nodup) (labels : List (String × Nat)) :
    ∃ found, recordLabels items off labels = .ok found ∧
      ∀ name, found.lookup name = (labelOffset items off name).or (labels.lookup name) := by
  induction items generalizing off labels with
  | nil => exact ⟨labels, rfl, fun name => rfl⟩
  | cons item items ih =>
    obtain ⟨hitem, hrest⟩ := List.forall_mem_cons.mp hfits
    cases item with
    | emit op operands =>
      obtain ⟨found, hfound, hlookup⟩ :=
        ih (off + itemSize (.emit op operands)) hrest honce labels
      refine ⟨found, ?_, hlookup⟩
      have hlen := (table_known hitem.1).2.2
      have hsize : instrSize op = .ok (itemSize (.emit op operands)) := by
        rw [instrSize, itemSize, hlen]
        rfl
      rw [recordLabels]
      exact (Effects.except_bind_ok hsize).trans hfound
    | label name' =>
      obtain ⟨hfresh, hnodup⟩ := List.nodup_cons.mp honce
      obtain ⟨found, hfound, hlookup⟩ := ih off hrest hnodup ((name', off) :: labels)
      refine ⟨found, hfound, fun name => ?_⟩
      rw [hlookup, labelOffset, List.lookup_cons]
      by_cases heq : name = name'
      · subst heq
        rw [labelOffset_none hfresh, if_pos rfl]
        simp
      · rw [if_neg heq, beq_false_of_ne heq]

end Labels

section Operands

variable {all : List Item} {labels : List (String × Nat)} {kind : Kind} {kinds : List Kind}
  {o : Operand} {operands : List Operand} {op : Nat}

theorem maskedBytes_num (n : Nat) {v : Int} (h : 0 ≤ v) :
    maskedBytes n (.num v) = .ok (beBytes n v.toNat) := by
  obtain ⟨w, rfl⟩ := Int.eq_ofNat_of_zero_le h
  have hmod : ((w : Int) % 256 ^ n).toNat = w % 256 ^ n := by
    have hcast : ((w : Int) % 256 ^ n) = ((w % 256 ^ n : Nat) : Int) := by push_cast; rfl
    rw [hcast, Int.toNat_natCast]
  rw [maskedBytes, hmod, ByteCodec.beBytes_mod, Int.toNat_natCast]

theorem maskedBytes_field (h : FitsField all kind o) (hkind : kind ≠ .addr) (n : Nat) :
    maskedBytes n o = .ok (beBytes n (valueOf all o)) := by
  cases o with
  | lbl name => exact absurd h.1 hkind
  | num v => exact maskedBytes_num n h.2.1

theorem branchAddr_field (hlabels : ∀ name ∈ labelNames all,
      labels.lookup name = labelOffset all 0 name) (h : FitsField all .addr o) :
    branchAddr labels o = .ok (beBytes 2 (valueOf all o)) := by
  cases o with
  | num v => exact absurd rfl h.1
  | lbl name =>
    obtain ⟨a, ha⟩ := labelOffset_isSome 0 h.2
    have hlookup := (hlabels name h.2).trans ha
    rw [branchAddr, hlookup, valueOf, ha]
    exact maskedBytes_num 2 (Int.natCast_nonneg a)

theorem mapM_maskedBytes (h : List.Forall₂ (FitsField all) kinds operands)
    (hkinds : ∀ kind ∈ kinds, kind ≠ .addr ∧ width kind = 1) :
    operands.mapM (maskedBytes 1) = .ok (operands.map fun o => beBytes 1 (valueOf all o)) ∧
      (operands.map fun o => beBytes 1 (valueOf all o)).flatten =
        fields kinds (operands.map (valueOf all)) := by
  induction h with
  | nil => exact ⟨rfl, rfl⟩
  | @cons kind o kinds operands ho _ ih =>
    obtain ⟨⟨hkind, hwidth⟩, hrest⟩ := List.forall_mem_cons.mp hkinds
    obtain ⟨hmap, hflat⟩ := ih hrest
    constructor
    · rw [List.mapM_cons, maskedBytes_field ho hkind, hmap]
      rfl
    · rw [List.map_cons, List.flatten_cons, hflat, List.map_cons, fields_cons, hwidth]

theorem operandBody_eq (hlabels : ∀ name ∈ labelNames all,
      labels.lookup name = labelOffset all 0 name) (h : FitsItem all (.emit op operands)) :
    operandBody labels op operands = .ok (fields (kindsOf op) (operands.map (valueOf all))) := by
  obtain ⟨hknown, hfields⟩ := h
  rcases table_shape _ (table_known hknown).2.1 with ⟨hop, hkinds⟩ | ⟨hne, hop, hkinds⟩ |
    ⟨hne, hop, hkinds⟩
  · -- MOV_RI: a register and a 64-bit immediate
    simp only at hop hkinds
    rw [hkinds] at hfields ⊢
    obtain ⟨rd, imms, hrd, himms, rfl⟩ := List.forall₂_cons_left_iff.mp hfields
    obtain ⟨imm, _, himm, hnil, rfl⟩ := List.forall₂_cons_left_iff.mp himms
    cases hnil
    rw [operandBody, if_pos hop, maskedBytes_field hrd (by decide),
      maskedBytes_field himm (by decide)]
    simp only [List.map_cons, List.map_nil, fields_cons, width]
    simp [fields, bind, Except.bind, pure, Except.pure]
  · simp only at hne hop hkinds
    rw [hkinds] at hfields ⊢
    obtain ⟨ref, _, href, hnil, rfl⟩ := List.forall₂_cons_left_iff.mp hfields
    cases hnil
    rw [operandBody.eq_def, if_neg hne, if_pos hop]
    simp only [branchAddr_field hlabels href, List.map_cons, List.map_nil, fields_cons, width]
    simp [fields]
  · simp only at hne hop hkinds
    obtain ⟨hmap, hflat⟩ := mapM_maskedBytes hfields hkinds
    rw [operandBody.eq_def, if_neg hne, if_neg hop, hmap, ← hflat]
    rfl

theorem inRange_of_fits (hsmall : totalSize all < 65536)
    (h : List.Forall₂ (FitsField all) kinds operands) :
    InRange kinds (operands.map (valueOf all)) := by
  induction h with
  | nil => exact .nil
  | @cons kind o kinds operands ho _ ih =>
    refine .cons ?_ ih
    cases o with
    | num v =>
      obtain ⟨-, hnonneg, hlt⟩ := ho
      change v.toNat < 256 ^ width kind
      rw [Int.toNat_lt hnonneg]
      push_cast
      exact hlt
    | lbl name =>
      obtain ⟨rfl, hdefined⟩ := ho
      obtain ⟨a, ha⟩ := labelOffset_isSome 0 hdefined
      have hle := labelOffset_le ha
      rw [valueOf, ha]
      change a < 256 ^ 2
      omega

theorem valid_of_fits (hsmall : totalSize all < 65536) (h : FitsItem all (.emit op operands)) :
    (Instr.mk op (operands.map (valueOf all))).Valid :=
  ⟨h.1, inRange_of_fits hsmall h.2⟩

theorem itemSize_emit (hsmall : totalSize all < 65536) (h : FitsItem all (.emit op operands)) :
    itemSize (.emit op operands) =
      (Instr.mk op (operands.map (valueOf all))).bytes.length := by
  rw [itemSize, (valid_of_fits hsmall h).operandLen, Instr.bytes, List.length_cons, Nat.add_comm]
  rfl

theorem emitItem_emit (hsmall : totalSize all < 65536) (hlabels : ∀ name ∈ labelNames all,
      labels.lookup name = labelOffset all 0 name) (h : FitsItem all (.emit op operands)) :
    emitItem labels (.emit op operands) =
      .ok (Instr.mk op (operands.map (valueOf all))).bytes := by
  have hsize : instrSize op = .ok (1 + (fields (kindsOf op) (operands.map (valueOf all))).length) := by
    rw [instrSize, (valid_of_fits hsmall h).operandLen]
    rfl
  rw [emitItem]
  refine (Effects.except_bind_ok hsize).trans
    ((Effects.except_bind_ok (operandBody_eq hlabels h)).trans ?_)
  rw [if_pos rfl]
  rfl

end Operands

section Assembled

variable {all items : List Item} {off a : Nat} {name : String}

theorem emitted_valid (hsmall : totalSize all < 65536) (hfits : ∀ item ∈ items, FitsItem all item) :
    ∀ i ∈ emitted all items, i.Valid := by
  induction items with
  | nil => exact fun i hi => (nomatch hi)
  | cons item items ih =>
    obtain ⟨hitem, hrest⟩ := List.forall_mem_cons.mp hfits
    cases item with
    | label name => exact ih hrest
    | emit op operands => exact List.forall_mem_cons.mpr ⟨valid_of_fits hsmall hitem, ih hrest⟩

theorem placed_eq (hsmall : totalSize all < 65536) (hfits : ∀ item ∈ items, FitsItem all item) :
    placed all items off = place Instr.bytes (emitted all items) off := by
  induction items generalizing off with
  | nil => rfl
  | cons item items ih =>
    obtain ⟨hitem, hrest⟩ := List.forall_mem_cons.mp hfits
    cases item with
    | label name => exact ih hrest
    | emit op operands =>
      rw [placed, emitted, place, ih hrest, itemSize_emit hsmall hitem]

theorem labelOffset_boundary (hsmall : totalSize all < 65536)
    (hfits : ∀ item ∈ items, FitsItem all item) (h : labelOffset items off name = some a) :
    Boundary Instr.bytes (emitted all items) off a := by
  induction items generalizing off with
  | nil => cases h
  | cons item items ih =>
    obtain ⟨hitem, hrest⟩ := List.forall_mem_cons.mp hfits
    cases item with
    | label name' =>
      rw [labelOffset] at h
      split_ifs at h with heq
      · cases h
        exact Layout.boundary_start _ _
      · exact ih hrest h
    | emit op operands =>
      rw [labelOffset, itemSize_emit hsmall hitem] at h
      exact (ih hrest h).cons

theorem mapM_emitItem (hsmall : totalSize all < 65536) {labels : List (String × Nat)}
    (hlabels : ∀ name ∈ labelNames all, labels.lookup name = labelOffset all 0 name)
    (hfits : ∀ item ∈ items, FitsItem all item) :
    ∃ pieces, items.mapM (emitItem labels) = .ok pieces ∧
      pieces.flatten = (emitted all items).flatMap Instr.bytes := by
  induction items with
  | nil => exact ⟨[], rfl, rfl⟩
  | cons item items ih =>
    obtain ⟨hitem, hrest⟩ := List.forall_mem_cons.mp hfits
    obtain ⟨pieces, hmap, hflat⟩ := ih hrest
    cases item with
    | label name =>
      refine ⟨[] :: pieces, ?_, hflat⟩
      rw [List.mapM_cons, hmap]
      rfl
    | emit op operands =>
      refine ⟨(Instr.mk op (operands.map (valueOf all))).bytes :: pieces, ?_, ?_⟩
      · rw [List.mapM_cons, emitItem_emit hsmall hlabels hitem, hmap]
        rfl
      · rw [List.flatten_cons, hflat, emitted, List.flatMap_cons]

/-- The assembler writes the instructions one behind the other. -/
theorem assemble_eq (h : WellFormed items) :
    assemble items = .ok ((emitted items items).flatMap Instr.bytes) := by
  obtain ⟨found, hfound, hlookup⟩ := recordLabels_eq 0 h.fits h.once []
  have hlabels : ∀ name ∈ labelNames items, found.lookup name = labelOffset items 0 name := by
    intro name _
    rw [hlookup, List.lookup_nil, Option.or_none]
  obtain ⟨pieces, hmap, hflat⟩ := mapM_emitItem h.small hlabels h.fits
  refine (Effects.except_bind_ok hfound).trans ((Effects.except_bind_ok hmap).trans ?_)
  rw [hflat]
  rfl

/-- The sweep yields them with their offsets and operand bytes. -/
theorem decode_eq (h : WellFormed items) :
    decode ((emitted items items).flatMap Instr.bytes) =
      (placed items items 0).map fun p => (p.1, some p.2.op, p.2.operandBytes) := by
  rw [placed_eq h.small h.fits]
  exact decodeFrom_placed [] (emitted_valid h.small h.fits)

theorem branch_target (hfits : ∀ item ∈ items, FitsItem all item) {i : Instr}
    (hi : i ∈ emitted all items) (hop : i.op ∈ branchOps) :
    ∃ name a, labelOffset all 0 name = some a ∧ i.values = [a] := by
  induction items with
  | nil => cases hi
  | cons item items ih =>
    obtain ⟨hitem, hrest⟩ := List.forall_mem_cons.mp hfits
    cases item with
    | label name => exact ih hrest hi
    | emit op operands =>
      rcases List.mem_cons.mp hi with rfl | htail
      · obtain ⟨hknown, hfields⟩ := hitem
        rw [branch_kinds hknown hop] at hfields
        obtain ⟨ref, _, href, hnil, rfl⟩ := List.forall₂_cons_left_iff.mp hfields
        cases hnil
        cases ref with
        | num v => exact absurd rfl href.1
        | lbl name =>
          obtain ⟨a, ha⟩ := labelOffset_isSome 0 href.2
          refine ⟨name, a, ha, ?_⟩
          change [valueOf all (.lbl name)] = [a]
          rw [valueOf, ha]
          rfl
      · exact ih hrest htail

theorem placed_valid (h : WellFormed items) : ∀ p ∈ placed items items 0, p.2.Valid := by
  intro p hp
  rw [placed_eq h.small h.fits] at hp
  exact emitted_valid h.small h.fits _ (Layout.mem_of_mem_place hp)

end Assembled

end RankGate.Tools.InstructionStream
