/- Module: RankGate/Tools/Narrowing
   source: tools/generate_vm_bytecode.py (Assembler), tools/disassemble_vm.py
   digest: What the fields keep of any operands the assembler takes, and when they keep all of it. -/

import RankGate.Tools.InstructionStream

set_option autoImplicit false
set_option relaxedAutoImplicit false

namespace RankGate.Tools.Narrowing

open ByteCodec (Bytes beBytes)
open Disassembler
open InstructionStream (kindsOf fields InRange branch_kinds itemSize table_known table_shape fields_cons
  length_fields readOperands_fields)
open RankGate.Server.VmReference (operandLen)
open RankGate.Server.VmReference.Op
open VmBytecode

def definitions : List Item → Nat → List (String × Nat)
  | [], _ => []
  | .label name :: items, off => (name, off) :: definitions items off
  | .emit op operands :: items, off => definitions items (off + itemSize (.emit op operands))

/-- The offset of a label; a later definition of the name replaces an earlier one. -/
def offsetOf (items : List Item) (name : String) : Option Nat :=
  (definitions items 0).reverse.lookup name

def sited : List Item → Nat → List (Nat × Nat × List Operand)
  | [], _ => []
  | .label _ :: items, off => sited items off
  | .emit op operands :: items, off =>
    (off, op, operands) :: sited items (off + itemSize (.emit op operands))

/-- What a field keeps of an operand: the number, or the offset of the label, modulo the width. -/
def kept (items : List Item) (kind : Kind) : Operand → Nat
  | .num v => (v % 256 ^ width kind).toNat
  | .lbl name => (offsetOf items name).getD 0 % 256 ^ width kind

def Means (items : List Item) : Operand → Nat → Prop
  | .num v, n => v = n
  | .lbl name, n => offsetOf items name = some n

def Fits (items : List Item) (kind : Kind) : Operand → Prop
  | .num v => 0 ≤ v ∧ v < 256 ^ width kind
  | .lbl name => ∃ a ∈ offsetOf items name, a < 256 ^ width kind

instance (items : List Item) (kind : Kind) : (o : Operand) → Decidable (Fits items kind o)
  | .num v => inferInstanceAs (Decidable (0 ≤ v ∧ v < 256 ^ width kind))
  | .lbl name => inferInstanceAs (Decidable (∃ a ∈ offsetOf items name, a < 256 ^ width kind))

/-- The assembler reads the first operand of a branch and counts those of other instructions. -/
def Counted (s : Nat × Nat × List Operand) : Prop := s.2.1 ∈ branchOps → s.2.2.length = 1

instance (s : Nat × Nat × List Operand) : Decidable (Counted s) :=
  inferInstanceAs (Decidable (s.2.1 ∈ branchOps → s.2.2.length = 1))

/-- The entry is the instruction with what its fields keep of the operands. -/
def Narrowed (items : List Item) (s : Nat × Nat × List Operand) (e : Nat × Option Nat × Bytes) :
    Prop :=
  e.1 = s.1 ∧ e.2.1 = some s.2.1 ∧ (Counted s →
    s.2.2.length = (kindsOf s.2.1).length ∧
    readOperands (kindsOf s.2.1) e.2.2 = List.zipWith (kept items) (kindsOf s.2.1) s.2.2)

def Same (items : List Item) (s : Nat × Nat × List Operand) (e : Nat × Option Nat × Bytes) :
    Prop :=
  e.1 = s.1 ∧ e.2.1 = some s.2.1 ∧
    List.Forall₂ (Means items) s.2.2 (readOperands (kindsOf s.2.1) e.2.2)

/-- Decoding gives back what was emitted. -/
def Exact (items : List Item) (code : Bytes) : Prop :=
  List.Forall₂ (Same items) (sited items 0) (decode code)

section Fields

variable {all : List Item} {labels : List (String × Nat)} {kind : Kind} {kinds : List Kind}
  {o : Operand} {operands : List Operand} {op : Nat} {b body : Bytes}

theorem kept_lt (items : List Item) (kind : Kind) (o : Operand) :
    kept items kind o < 256 ^ width kind := by
  have hpos : (0 : Int) < 256 ^ width kind := by positivity
  cases o with
  | num v =>
    have hlt := Int.emod_lt_of_pos v hpos
    have hnonneg := Int.emod_nonneg v (ne_of_gt hpos)
    rw [kept, Int.toNat_lt hnonneg]
    exact_mod_cast hlt
  | lbl name => exact Nat.mod_lt _ (by positivity)

theorem inRange_kept (h : operands.length = kinds.length) :
    InRange kinds (List.zipWith (kept all) kinds operands) := by
  induction kinds generalizing operands with
  | nil => exact .nil
  | cons kind kinds ih =>
    cases operands with
    | nil => cases h
    | cons o operands => exact .cons (kept_lt all kind o) (ih (Nat.succ.inj h))

theorem maskedBytes_kept (all : List Item) (kind : Kind) (h : maskedBytes (width kind) o = .ok b) :
    b = beBytes (width kind) (kept all kind o) := by
  cases o with
  | lbl name => cases h
  | num v =>
    cases h
    rfl

theorem branchAddr_kept (hlabels : labels = (definitions all 0).reverse)
    (h : branchAddr labels o = .ok b) : b = beBytes 2 (kept all .addr o) := by
  cases o with
  | num v => exact maskedBytes_kept all .addr h
  | lbl name =>
    rw [branchAddr] at h
    cases hlookup : labels.lookup name with
    | none =>
      rw [hlookup] at h
      cases h
    | some a =>
      rw [hlookup] at h
      have hmasked := maskedBytes_kept all .addr h
      have hoffset : offsetOf all name = some a := by rw [offsetOf, ← hlabels, hlookup]
      have hmod : ((a : Int) % 256 ^ 2).toNat = a % 256 ^ 2 := by omega
      rw [hmasked, kept, kept, hoffset]
      exact congrArg (beBytes 2) hmod

theorem mapM_kept (hkinds : ∀ kind ∈ kinds, kind ≠ .addr ∧ width kind = 1)
    (hlen : operands.length = kinds.length) {pieces : List Bytes}
    (h : operands.mapM (maskedBytes 1) = .ok pieces) :
    pieces.flatten = fields kinds (List.zipWith (kept all) kinds operands) := by
  rw [Effects.mapM_eq_ok_iff] at h
  induction h generalizing kinds with
  | nil =>
    cases kinds with
    | nil => rfl
    | cons kind kinds => cases hlen
  | @cons o b operands pieces hb _ ih =>
    cases kinds with
    | nil => cases hlen
    | cons kind kinds =>
      obtain ⟨⟨-, hwidth⟩, hrest⟩ := List.forall_mem_cons.mp hkinds
      rw [← hwidth] at hb
      rw [List.flatten_cons, ih hrest (Nat.succ.inj hlen), maskedBytes_kept all kind hb,
        List.zipWith_cons_cons, fields_cons]

theorem length_mapM_maskedBytes {pieces : List Bytes}
    (h : operands.mapM (maskedBytes 1) = .ok pieces) : pieces.flatten.length = operands.length := by
  rw [Effects.mapM_eq_ok_iff] at h
  induction h with
  | nil => rfl
  | @cons o b operands pieces hb _ ih =>
    have hone : b.length = 1 := by
      rw [maskedBytes_kept [] .reg hb, ByteCodec.length_beBytes]
      rfl
    rw [List.length_cons, List.flatten_cons, List.length_append, hone, ih, Nat.add_comm]

theorem length_operands (hknown : op ∈ operandLen.map Prod.fst)
    (hcounted : op ∈ branchOps → operands.length = 1)
    (h : operandBody labels op operands = .ok body)
    (hlen : body.length = ((kindsOf op).map width).sum) :
    operands.length = (kindsOf op).length := by
  rcases table_shape _ (table_known hknown).2.1 with ⟨hop, hkinds⟩ | ⟨hne, hop, hkinds⟩ |
    ⟨hne, hop, hkinds⟩
  · simp only at hop hkinds
    rw [operandBody.eq_def, if_pos hop] at h
    rw [hkinds]
    split at h
    · rfl
    · cases h
  · simp only at hop hkinds
    rw [hcounted hop, hkinds]
    rfl
  · simp only at hne hop hkinds
    rw [operandBody.eq_def, if_neg hne, if_neg hop] at h
    obtain ⟨pieces, hpieces, h⟩ := Effects.except_bind_eq_ok h
    cases h
    have hwidths : ((kindsOf op).map width).sum = (kindsOf op).length := by
      rw [List.map_congr_left fun kind hkind => (hkinds kind hkind).2]
      simp
    rw [← hwidths, ← hlen, length_mapM_maskedBytes hpieces]

theorem operandBody_kept (hlabels : labels = (definitions all 0).reverse)
    (hknown : op ∈ operandLen.map Prod.fst) (hlen : operands.length = (kindsOf op).length)
    (h : operandBody labels op operands = .ok body) :
    body = fields (kindsOf op) (List.zipWith (kept all) (kindsOf op) operands) := by
  rcases table_shape _ (table_known hknown).2.1 with ⟨hop, hkinds⟩ | ⟨hne, hop, hkinds⟩ |
    ⟨hne, hop, hkinds⟩
  · -- MOV_RI: a register and a 64-bit immediate
    simp only at hop hkinds
    rw [hkinds] at hlen ⊢
    obtain ⟨rd, imm, rfl⟩ := List.length_eq_two.mp hlen
    rw [operandBody, if_pos hop] at h
    obtain ⟨b, hb, h⟩ := Effects.except_bind_eq_ok h
    obtain ⟨b', hb', h⟩ := Effects.except_bind_eq_ok h
    cases h
    rw [maskedBytes_kept all .reg hb, maskedBytes_kept all .imm64 hb']
    simp [fields]
  · simp only at hne hop hkinds
    rw [hkinds] at hlen ⊢
    obtain ⟨ref, rfl⟩ := List.length_eq_one_iff.mp hlen
    rw [operandBody.eq_def, if_neg hne, if_pos hop] at h
    rw [branchAddr_kept hlabels h]
    simp [fields, width]
  · simp only at hne hop hkinds
    rw [operandBody.eq_def, if_neg hne, if_neg hop] at h
    obtain ⟨pieces, hpieces, h⟩ := Effects.except_bind_eq_ok h
    cases h
    exact mapM_kept hkinds hlen hpieces

theorem means_kept_iff : Means all o (kept all kind o) ↔ Fits all kind o := by
  have hpos : (0 : Int) < 256 ^ width kind := by positivity
  cases o with
  | num v =>
    have hnonneg := Int.emod_nonneg v (ne_of_gt hpos)
    have hlt := Int.emod_lt_of_pos v hpos
    rw [Means, kept, Fits, Int.toNat_of_nonneg hnonneg]
    constructor
    · intro heq
      omega
    · rintro ⟨h0, hv⟩
      exact (Int.emod_eq_of_lt h0 hv).symm
  | lbl name =>
    rw [Means, kept, Fits]
    cases hoffset : offsetOf all name with
    | none => simp
    | some a =>
      have hpos : 0 < 256 ^ width kind := by positivity
      have hlt := Nat.mod_lt a hpos
      simp only [Option.getD_some, Option.some.injEq, Option.mem_def, exists_eq_left']
      constructor
      · intro heq
        omega
      · intro hle
        exact (Nat.mod_eq_of_lt hle).symm

theorem means_zipWith_iff (h : operands.length = kinds.length) :
    List.Forall₂ (Means all) operands (List.zipWith (kept all) kinds operands) ↔
      List.Forall₂ (Fits all) kinds operands := by
  induction kinds generalizing operands with
  | nil =>
    rw [List.length_eq_zero_iff.mp h]
    simp
  | cons kind kinds ih =>
    cases operands with
    | nil => cases h
    | cons o operands =>
      rw [List.zipWith_cons_cons, List.forall₂_cons, List.forall₂_cons, means_kept_iff,
        ih (Nat.succ.inj h)]

end Fields

section Passes

variable {all items : List Item} {labels found : List (String × Nat)} {off : Nat}
  {op : Nat} {operands : List Operand} {piece code : Bytes}

theorem instrSize_ok (operands : List Operand) {size : Nat} (h : instrSize op = .ok size) :
    op ∈ operandLen.map Prod.fst ∧ size = itemSize (.emit op operands) := by
  rw [instrSize] at h
  rw [itemSize]
  cases hlookup : operandLen.lookup op with
  | none =>
    rw [hlookup] at h
    cases h
  | some n =>
    rw [hlookup] at h
    cases h
    obtain ⟨front, back, hsplit, -⟩ := List.lookup_eq_some_iff.mp hlookup
    refine ⟨?_, rfl⟩
    rw [hsplit]
    simp

theorem recordLabels_ok (h : recordLabels items off labels = .ok found) :
    found = (definitions items off).reverse ++ labels := by
  induction items generalizing off labels with
  | nil =>
    cases h
    rfl
  | cons item items ih =>
    cases item with
    | label name => rw [ih h, definitions, List.reverse_cons, List.append_assoc]; rfl
    | emit op operands =>
      obtain ⟨size, hsize, h⟩ := Effects.except_bind_eq_ok h
      rw [ih h, (instrSize_ok operands hsize).2, definitions]

theorem emitItem_ok (h : emitItem labels (.emit op operands) = .ok piece) :
    ∃ body, op ∈ operandLen.map Prod.fst ∧ operandBody labels op operands = .ok body ∧
      1 + body.length = itemSize (.emit op operands) ∧ piece = UInt8.ofNat op :: body := by
  obtain ⟨need, hneed, h⟩ := Effects.except_bind_eq_ok h
  obtain ⟨body, hbody, h⟩ := Effects.except_bind_eq_ok h
  obtain ⟨hknown, rfl⟩ := instrSize_ok operands hneed
  split_ifs at h with hlen
  cases h
  exact ⟨body, hknown, hbody, hlen, rfl⟩

theorem decodeFrom_narrowed (hlabels : labels = (definitions all 0).reverse)
    (pre : Bytes) {pieces : List Bytes} (h : items.mapM (emitItem labels) = .ok pieces) :
    List.Forall₂ (Narrowed all) (sited items pre.length)
      (decodeFrom (pre ++ pieces.flatten) pre.length) := by
  rw [Effects.mapM_eq_ok_iff] at h
  induction h generalizing pre with
  | nil =>
    rw [sited, decodeFrom_end (by simp)]
    exact .nil
  | @cons item piece items pieces hpiece _ ih =>
    cases item with
    | label name =>
      cases hpiece
      exact ih pre
    | emit op operands =>
      obtain ⟨body, hknown, hbody, hlen, rfl⟩ := emitItem_ok hpiece
      obtain ⟨hop, -, hlookup⟩ := table_known hknown
      have hbodylen : body.length = ((kindsOf op).map width).sum := by
        rw [itemSize, hlookup, Option.getD_some] at hlen
        omega
      have hnext : (pre ++ UInt8.ofNat op :: body).length =
          pre.length + itemSize (.emit op operands) := by
        rw [List.length_append, List.length_cons, ← hlen, Nat.add_comm 1]
      rw [sited, List.flatten_cons,
        decodeFrom_piece hop (by rw [hbodylen]; exact hlookup) pre pieces.flatten]
      have hrest := ih (pre ++ UInt8.ofNat op :: body)
      rw [hnext] at hrest ⊢
      refine .cons ⟨rfl, rfl, fun hcounted => ?_⟩ hrest
      have hoperands := length_operands hknown hcounted hbody hbodylen
      refine ⟨hoperands, ?_⟩
      show readOperands (kindsOf op) body = List.zipWith (kept all) (kindsOf op) operands
      rw [operandBody_kept hlabels hknown hoperands hbody,
        readOperands_fields (inRange_kept hoperands)]

theorem assemble_narrowed (h : assemble items = .ok code) :
    List.Forall₂ (Narrowed items) (sited items 0) (decode code) := by
  obtain ⟨labels, hlabels, h⟩ := Effects.except_bind_eq_ok h
  obtain ⟨pieces, hpieces, h⟩ := Effects.except_bind_eq_ok h
  cases h
  have hfound := recordLabels_ok hlabels
  rw [List.append_nil] at hfound
  exact decodeFrom_narrowed hfound [] hpieces

theorem branch_known : ∀ op ∈ branchOps, op ∈ operandLen.map Prod.fst := by
  decide

/-- The field of a branch holds one operand, so neither side of the equivalence takes more. -/
theorem same_iff_of_not_counted {s : Nat × Nat × List Operand} {e : Nat × Option Nat × Bytes}
    (h : ¬ Counted s) : Same all s e ↔ List.Forall₂ (Fits all) (kindsOf s.2.1) s.2.2 := by
  obtain ⟨hop, hlen⟩ := Classical.not_imp.mp h
  have hkinds : kindsOf s.2.1 = [.addr] := branch_kinds (branch_known _ hop) hop
  have hread : (readOperands (kindsOf s.2.1) e.2.2).length = 1 := by
    rw [hkinds]
    rfl
  constructor
  · rintro ⟨-, -, hmeans⟩
    exact absurd (hmeans.length_eq.trans hread) hlen
  · intro hfits
    rw [hkinds] at hfits
    exact absurd hfits.length_eq.symm hlen

theorem exact_iff (h : assemble items = .ok code) :
    Exact items code ↔
      ∀ s ∈ sited items 0, List.Forall₂ (Fits items) (kindsOf s.2.1) s.2.2 := by
  have hnarrowed := assemble_narrowed h
  rw [Exact]
  generalize decode code = entries at hnarrowed ⊢
  generalize sited items 0 = l at hnarrowed ⊢
  induction hnarrowed with
  | nil => simp
  | @cons s e l entries hse _ ih =>
    have hsame : Same items s e ↔ List.Forall₂ (Fits items) (kindsOf s.2.1) s.2.2 := by
      by_cases hs : Counted s
      · obtain ⟨hoff, hop, hoperands⟩ := hse
        obtain ⟨hlen, hread⟩ := hoperands hs
        rw [Same, hread, means_zipWith_iff hlen]
        simp only [hoff, hop, true_and]
      · exact same_iff_of_not_counted hs
    rw [List.forall₂_cons, hsame, List.forall_mem_cons]
    exact and_congr_right' ih

end Passes

/-- Decoding gives every instruction, each operand modulo the width of its field, a branch's label
as its offset modulo 2^16; where all of them fit, and only there, nothing is lost. -/
theorem assemble_decode {items : List Item} {code : Bytes} (h : assemble items = .ok code) :
    List.Forall₂ (Narrowed items) (sited items 0) (decode code) ∧
      (Exact items code ↔
        ∀ s ∈ sited items 0, List.Forall₂ (Fits items) (kindsOf s.2.1) s.2.2) :=
  ⟨assemble_narrowed h, exact_iff h⟩

/-- A loop around a copy into register 257, of which the field keeps 1. -/
theorem assemble_decode_loop :
    let items : List Item := [.label "again", .emit movRr [257, 2], .emit jmp [.lbl "again"]]
    ∃ code, assemble items = .ok code ∧
      List.Forall₂ (Narrowed items) (sited items 0) (decode code) ∧ ¬ Exact items code := by
  intro items
  have hcode : assemble items = .ok [0x11, 1, 2, 0x60, 0, 0] := by rfl
  obtain ⟨hnarrowed, hexact⟩ := assemble_decode hcode
  refine ⟨_, hcode, hnarrowed, fun h => ?_⟩
  have hfits := hexact.mp h
  revert hfits
  decide

/-- Register 256 assembles to register 0, address 65536 to address 0. -/
theorem not_assemble_exact : ¬ ∀ items code, assemble items = .ok code → Exact items code := by
  intro hall
  have hcode : assemble [.emit movRr [256, 0], .emit jmp [65536]] =
      .ok [0x11, 0, 0, 0x60, 0, 0] := by
    rfl
  have hfits := (exact_iff hcode).mp (hall _ _ hcode)
  revert hfits
  decide

end RankGate.Tools.Narrowing
