/- Module: RankGate/Vm/Boundaries
   source: server/app/vm_reference.py (VM._u8 .. VM._exec), tools/generate_vm_bytecode.py, tools/disassemble_vm.py
   digest: Assembler, disassembler and engine read the same instructions at the same offsets, along every run. -/

import RankGate.Tools.InstructionStream
import RankGate.Vm.ReferenceSteps

set_option autoImplicit false
set_option relaxedAutoImplicit false

namespace RankGate.Vm.Boundaries

open ByteCodec (Bytes beBytes)
open Layout (Boundary)
open Lockstep (Confined Engine)
open RankGate.Crypto (Hashes)
open RankGate.Server.VmReference
open RankGate.Tools.Disassembler (Kind layout width readOperands)
open RankGate.Tools.InstructionStream
open RankGate.Tools.VmBytecode (Item branchOps assemble prologue foldLoop epilogue finalizeRoutine
  buildProgram)
open ReferenceSteps

/-- How the engine fetches an operand field. -/
def fetch : Kind → VmM Nat
  | .reg => u8
  | .imm64 => u64
  | .imm8 => u8
  | .cond => u8
  | .addr => u16

def withOperands {α : Type} : List Kind → (List Nat → VmM α) → VmM α
  | [], k => k []
  | kind :: kinds, k => do
    let v ← fetch kind
    withOperands kinds fun vs => k (v :: vs)

/-- `_exec` behind its fetches. -/
def perform (op : Nat) : List Nat → VmM Unit
  | [] =>
    if op = Op.nop then pure ()
    else do
      match (← get).stack.getLast? with
      | some addr => modify fun s => { s with ip := addr, stack := s.stack.dropLast }
      | none => throw .indexError
  | [v] =>
    if op = Op.jmp then setIp v
    else if op ∈ [Op.jz, Op.jnz] then do
      let zf := decide ((← get).flags &&& flZf ≠ 0)
      let taken := if op = Op.jz then zf else !zf
      foldPath taken
      if taken then setIp v
    else if op = Op.call then modify fun s => { s with stack := s.stack ++ [s.ip], ip := v }
    else modify fun s => { s with haltOperand := v, halted := true }
  | [x, y] =>
    if op = Op.movRi then setReg x (y &&& m64)
    else if op = Op.movRr then do setReg x (← getReg y)
    else if op = Op.load then do setReg x (← getMem ((← getReg y) % Server.Config.vmMemWords))
    else if op = Op.store then do
      let v ← getReg y
      setMem ((← getReg x) % Server.Config.vmMemWords) v
    else if op = Op.not then do setReg x (notM64 (← getReg y))
    else if op = Op.cmp then do
      let a ← getReg x; let b ← getReg y
      setCmpFlags a b
    else do
      let acc ← getReg x; let v ← getReg y
      setReg x (mix acc v x)
  | [rd, x, y] =>
    if op ∈ [Op.add, Op.sub, Op.mul, Op.xor, Op.and, Op.or] then do
      let a ← getReg x; let b ← getReg y
      if op = Op.add then setReg rd ((a + b) &&& m64)
      else if op = Op.sub then setReg rd (subM64 a b)
      else if op = Op.mul then setReg rd ((a * b) &&& m64)
      else if op = Op.xor then setReg rd (a ^^^ b)
      else if op = Op.and then setReg rd (a &&& b)
      else setReg rd (a ||| b)
    else if op ∈ [Op.rol, Op.ror, Op.shl, Op.shr] then do
      let a ← getReg x
      if op = Op.rol then setReg rd (rotl64 a y)
      else if op = Op.ror then setReg rd (rotr64 a y)
      else if op = Op.shl then setReg rd ((a <<< (y &&& 63)) &&& m64)
      else setReg rd ((a >>> (y &&& 63)) &&& m64)
    else if op = Op.cmov then do
      if ← cond y then setReg rd (← getReg x)
    else do
      let a ← getReg x; let b ← getReg y
      setReg rd (hashRound a b)
  | _ => pure ()

/-- Every instruction fetches the operands LAYOUT lists, in that order, and then performs. -/
theorem exec_withOperands : ∀ p ∈ layout, exec p.1 = withOperands p.2 (perform p.1) := by
  simp only [layout, List.forall_mem_cons]
  repeat refine ⟨rfl, ?_⟩
  exact fun _ h => nomatch h

theorem withOperands_eq {α : Type} (kinds : List Kind) (k : List Nat → VmM α) :
    withOperands kinds k = kinds.mapM fetch >>= k := by
  induction kinds generalizing k with
  | nil => rfl
  | cons kind kinds ih =>
    rw [List.mapM_cons, bind_assoc, withOperands]
    refine congrArg (fetch kind >>= ·) (funext fun v => ?_)
    rw [ih, bind_assoc]
    exact congrArg (kinds.mapM fetch >>= ·) (funext fun vs => (pure_bind _ _).symm)

theorem exec_eq {op : Nat} (h : op ∈ operandLen.map Prod.fst) :
    exec op = (kindsOf op).mapM fetch >>= perform op :=
  (exec_withOperands _ (table_known h).2.1).trans (withOperands_eq _ _)

section Fetch

variable {s : VM} {kind : Kind} {kinds : List Kind} {values : List Nat} {v : Nat} {i : Instr}

theorem fetch_field (h : Ahead s.code s.ip (beBytes (width kind) v)) (hv : v < 256 ^ width kind) :
    fetch kind s = .ok (v, { s with ip := s.ip + width kind }) := by
  have hbyte : v < 256 → Ahead s.code s.ip [UInt8.ofNat v] →
      u8 s = .ok (v, { s with ip := s.ip + 1 }) := by
    intro hlt hahead
    rw [u8_some hahead.head, UInt8.toNat_ofNat_of_lt' hlt]
  cases kind with
  | reg => exact hbyte hv h
  | imm8 => exact hbyte hv h
  | cond => exact hbyte hv h
  | addr =>
    change Ahead s.code s.ip [UInt8.ofNat (v / 256), UInt8.ofNat v] at h
    have hlo : (UInt8.ofNat v).toNat = v % 256 := UInt8.toNat_ofNat'
    have hhi : (UInt8.ofNat (v / 256)).toNat = v / 256 :=
      UInt8.toNat_ofNat_of_lt' (Nat.div_lt_of_lt_mul hv)
    have hword : (v / 256) <<< 8 ||| v % 256 = v := by
      rw [← Nat.shiftLeft_add_eq_or_of_lt (i := 8) (Nat.mod_lt v (by decide)), Nat.shiftLeft_eq]
      omega
    change u16 s = _
    rw [u16_some _ _ h.head h.tail.head, hlo, hhi, hword]
    rfl
  | imm64 =>
    have hread : (s.code.drop s.ip).take 8 = beBytes 8 v := by
      have hahead := h
      rwa [Ahead, ByteCodec.length_beBytes] at hahead
    change u64 s = _
    rw [u64_eq, hread, ByteCodec.beNat_beBytes (n := 8) hv]
    rfl

theorem fetch_fields (h : Ahead s.code s.ip (fields kinds values)) (hv : InRange kinds values) :
    kinds.mapM fetch s = .ok (values, { s with ip := s.ip + (fields kinds values).length }) := by
  induction hv generalizing s with
  | nil => rfl
  | @cons kind v kinds values hv _ ih =>
    rw [fields_cons] at h
    obtain ⟨hfirst, hrest⟩ := h.append
    rw [ByteCodec.length_beBytes] at hrest
    rw [List.mapM_cons]
    refine (Effects.bind_ok (fetch_field hfirst hv)).trans
      ((Effects.bind_ok (ih (s := { s with ip := s.ip + width kind }) hrest)).trans ?_)
    rw [fields_cons, List.length_append, ByteCodec.length_beBytes, ← Nat.add_assoc]
    rfl

end Fetch

section Control

/-- Where control is after an instruction: behind it, at its address, or back behind a call. -/
inductive Moves (op : Nat) (values : List Nat) (s s' : VM) : Prop
  | on : s'.ip = s.ip → s'.stack = s.stack → Moves op values s s'
  | jump {addr : Nat} : op ∈ branchOps → values = [addr] → s'.ip = addr → s'.stack = s.stack →
      Moves op values s s'
  | call {addr : Nat} : op ∈ branchOps → values = [addr] → s'.ip = addr →
      s'.stack = s.stack ++ [s.ip] → Moves op values s s'
  | back : s.stack.getLast? = some s'.ip → s'.stack = s.stack.dropLast → Moves op values s s'

def Still (t s : VM) : Prop := s.code = t.code ∧ s.ip = t.ip ∧ s.stack = t.stack

variable {t : VM}

theorem index_still {α : Type} (l : List α) (i : Nat) : Confined (Still t) (index l i) := by
  rw [index]
  cases l[i]? with
  | some v => exact .pure v
  | none => exact .throw _

theorem getReg_still (i : Nat) : Confined (Still t) (getReg i) :=
  .get_bind fun s => index_still s.reg i

theorem getMem_still (i : Nat) : Confined (Still t) (getMem i) :=
  .get_bind fun s => index_still s.mem i

theorem setReg_still (i v : Nat) : Confined (Still t) (setReg i v) :=
  .get_bind fun s => .bind (index_still s.reg i) fun _ => .modify fun _ h => h

theorem setMem_still (i v : Nat) : Confined (Still t) (setMem i v) :=
  .get_bind fun s => .bind (index_still s.mem i) fun _ => .modify fun _ h => h

theorem cond_still (code : Nat) : Confined (Still t) (cond code) :=
  .get_bind fun _ => index_still _ code

theorem perform_one {op v : Nat} {s s' : VM} (h : perform op [v] s = .ok ((), s')) :
    s'.code = s.code ∧ Moves op [v] s s' := by
  rw [perform] at h
  by_cases hjmp : op = Op.jmp
  · rw [if_pos hjmp] at h
    cases h
    exact ⟨rfl, .jump (by subst hjmp; decide) rfl rfl rfl⟩
  rw [if_neg hjmp] at h
  by_cases hcond : op ∈ [Op.jz, Op.jnz]
  · have hbranch : op ∈ branchOps := by
      rcases List.mem_pair.mp hcond with rfl | rfl <;> decide
    rw [if_pos hcond] at h
    obtain ⟨_, _, hget, hrest⟩ := Effects.bind_eq_ok h
    cases hget
    rw [branch_ok] at hrest
    generalize (if op = Op.jz then decide (s.flags &&& flZf ≠ 0)
      else !decide (s.flags &&& flZf ≠ 0)) = taken at hrest
    cases taken with
    | true =>
      cases hrest
      exact ⟨rfl, .jump hbranch rfl rfl rfl⟩
    | false =>
      cases hrest
      exact ⟨rfl, .on rfl rfl⟩
  rw [if_neg hcond] at h
  by_cases hcall : op = Op.call
  · rw [if_pos hcall] at h
    cases h
    exact ⟨rfl, .call (by subst hcall; decide) rfl rfl rfl⟩
  · rw [if_neg hcall] at h
    cases h
    exact ⟨rfl, .on rfl rfl⟩

theorem perform_two (op x y : Nat) : Confined (Still t) (perform op [x, y]) :=
  .ite (setReg_still x _) <|
  .ite (.bind (getReg_still y) fun _ => setReg_still x _) <|
  .ite (.bind (getReg_still y) fun _ => .bind (getMem_still _) fun _ => setReg_still x _) <|
  .ite (.bind (getReg_still y) fun _ => .bind (getReg_still x) fun _ => setMem_still _ _) <|
  .ite (.bind (getReg_still y) fun _ => setReg_still x _) <|
  .ite (.bind (getReg_still x) fun _ => .bind (getReg_still y) fun _ => .modify fun _ h => h) <|
  .bind (getReg_still x) fun _ => .bind (getReg_still y) fun _ => setReg_still x _

theorem perform_three (op rd x y : Nat) : Confined (Still t) (perform op [rd, x, y]) := by
  have hbinary {k : Nat → Nat → VmM Unit} (hk : ∀ a b, Confined (Still t) (k a b)) :
      Confined (Still t) (do
        let a ← getReg x; let b ← getReg y
        k a b) :=
    .bind (getReg_still x) fun a => .bind (getReg_still y) fun b => hk a b
  refine .ite (hbinary fun a b => ?_) <| .ite (.bind (getReg_still x) fun a => ?_) <|
    .ite (.bind (cond_still y) fun taken => ?_) <| hbinary fun _ _ => setReg_still rd _
  · exact .ite (setReg_still rd _) <| .ite (setReg_still rd _) <| .ite (setReg_still rd _) <|
      .ite (setReg_still rd _) <| .ite (setReg_still rd _) (setReg_still rd _)
  · exact .ite (setReg_still rd _) <| .ite (setReg_still rd _) <|
      .ite (setReg_still rd _) (setReg_still rd _)
  · exact .ite (.bind (getReg_still x) fun _ => setReg_still rd _) (.pure _)

/-- All an instruction can do to the control state. -/
theorem perform_moves {op : Nat} {values : List Nat} {s s' : VM}
    (h : perform op values s = .ok ((), s')) : s'.code = s.code ∧ Moves op values s s' := by
  have hstill : Still s s' → s'.code = s.code ∧ Moves op values s s' :=
    fun h => ⟨h.1, .on h.2.1 h.2.2⟩
  have hself : Still s s := ⟨rfl, rfl, rfl⟩
  match values, h, hstill with
  | [], h, hstill =>
    rw [perform] at h
    by_cases hnop : op = Op.nop
    · rw [if_pos hnop] at h
      cases h
      exact hstill hself
    · rw [if_neg hnop] at h
      change (match s.stack.getLast? with
        | some addr => modify fun s => { s with ip := addr, stack := s.stack.dropLast }
        | none => throw .indexError : VmM Unit) s = _ at h
      cases hlast : s.stack.getLast? with
      | none =>
        rw [hlast] at h
        cases h
      | some addr =>
        rw [hlast] at h
        cases h
        exact ⟨rfl, .back hlast rfl⟩
  | [v], h, hstill => exact perform_one h
  | [x, y], h, hstill => exact hstill (perform_two op x y s () s' hself h)
  | [rd, x, y], h, hstill => exact hstill (perform_three op rd x y s () s' hself h)
  | _ :: _ :: _ :: _ :: _, h, hstill =>
    cases h
    exact hstill hself

end Control

section Run

variable {items : List Item} {s s' : VM} {p : Nat × Instr}

def stream (items : List Item) : Bytes := (emitted items items).flatMap Instr.bytes

/-- The start of an instruction, or the end of the code. -/
def Bound (items : List Item) (a : Nat) : Prop := Boundary Instr.bytes (emitted items items) 0 a

/-- The code is in place, and control and every return address are at boundaries. -/
structure Aligned (items : List Item) (s : VM) : Prop where
  code : s.code = stream items
  ip : Bound items s.ip
  stack : ∀ a ∈ s.stack, Bound items a

/-- The step from `s` fetches the opcode of `p` and then its operands. -/
structure Fetches (p : Nat × Instr) (s : VM) : Prop where
  offset : s.ip = p.1
  opcode : u8 s = .ok (p.2.op, { s with ip := p.1 + 1 })
  operands : (kindsOf p.2.op).mapM fetch { s with ip := p.1 + 1 } =
    .ok (p.2.values, { s with ip := p.1 + p.2.bytes.length })
  performs : engine.step s = perform p.2.op p.2.values { s with ip := p.1 + p.2.bytes.length }

theorem mem_placed (h : WellFormed items) : p ∈ placed items items 0 ↔
    (p.1, p.2) ∈ Layout.place Instr.bytes (emitted items items) 0 := by
  rw [placed_eq h.small h.fits]

theorem fetches_of_mem (h : WellFormed items) (hcode : s.code = stream items)
    (hp : p ∈ placed items items 0) (hip : s.ip = p.1) : Fetches p s := by
  have hvalid := placed_valid h p hp
  obtain ⟨⟨pre, post, hsplit, hlen⟩, -⟩ := Layout.mem_place ((mem_placed h).mp hp)
  have hahead : Ahead s.code s.ip p.2.bytes := by
    rw [ahead_iff, hcode, stream, hsplit, hip, ← hlen, Nat.zero_add, List.append_assoc,
      List.drop_left' rfl]
    exact List.prefix_append _ _
  have hop : u8 s = .ok (p.2.op, { s with ip := p.1 + 1 }) := by
    rw [u8_some hahead.head, hvalid.toNat_op, hip]
  have hlength : p.1 + p.2.bytes.length = p.1 + 1 + p.2.operandBytes.length := by
    rw [Instr.bytes, List.length_cons]
    omega
  have hoperands : (kindsOf p.2.op).mapM fetch { s with ip := p.1 + 1 } =
      .ok (p.2.values, { s with ip := p.1 + p.2.bytes.length }) := by
    rw [hlength]
    refine fetch_fields (s := { s with ip := p.1 + 1 }) ?_ hvalid.inRange
    rw [← hip]
    exact hahead.tail
  refine ⟨hip, hop, hoperands, ?_⟩
  refine (Effects.bind_ok hop).trans ?_
  rw [exec_eq hvalid.known]
  exact Effects.bind_ok hoperands

theorem step_at_end (hcode : s.code = stream items) (hip : s.ip = (stream items).length) :
    engine.step s = .error .indexError :=
  Effects.bind_error (u8_none (by rw [hcode, hip]; exact List.getElem?_eq_none (Nat.le_refl _)))

theorem bound_cases (h : WellFormed items) {a : Nat} (ha : Bound items a) :
    a = (stream items).length ∨ ∃ p ∈ placed items items 0, a = p.1 := by
  rcases ha with hend | ⟨i, hi⟩
  · exact .inl (hend.trans (Nat.zero_add _))
  · exact .inr ⟨(a, i), (mem_placed h).mpr hi, rfl⟩

/-- Jumps and calls go to labels, returns go behind calls, and everything else goes on. -/
theorem step_aligned (h : WellFormed items) : Confined (Aligned items) engine.step := by
  intro s _ s' hs hstep
  rcases bound_cases h hs.ip with hend | ⟨p, hp, hip⟩
  · rw [step_at_end hs.code hend] at hstep
    cases hstep
  have hi : p.2 ∈ emitted items items := Layout.mem_of_mem_place ((mem_placed h).mp hp)
  have hnext : Bound items (p.1 + p.2.bytes.length) :=
    (Layout.mem_place ((mem_placed h).mp hp)).2
  have htarget {addr : Nat} (hop : p.2.op ∈ branchOps) (hv : p.2.values = [addr]) :
      Bound items addr := by
    obtain ⟨name, a, ha, hvalues⟩ := branch_target h.fits hi hop
    rw [hvalues, List.singleton_inj] at hv
    exact hv ▸ labelOffset_boundary h.small h.fits ha
  rw [(fetches_of_mem h hs.code hp hip).performs] at hstep
  obtain ⟨hcode, hmoves⟩ := perform_moves hstep
  have hcode' : s'.code = stream items := hcode.trans hs.code
  cases hmoves with
  | on hto hstack => exact ⟨hcode', hto ▸ hnext, hstack ▸ hs.stack⟩
  | jump hop hv hto hstack => exact ⟨hcode', hto ▸ htarget hop hv, hstack ▸ hs.stack⟩
  | call hop hv hto hstack =>
    refine ⟨hcode', hto ▸ htarget hop hv, fun a ha => ?_⟩
    rw [hstack, List.mem_append, List.mem_singleton] at ha
    rcases ha with hold | rfl
    · exact hs.stack a hold
    · exact hnext
  | back hto hstack =>
    refine ⟨hcode', hs.stack _ (List.mem_of_getLast? hto), fun a ha => ?_⟩
    rw [hstack] at ha
    exact hs.stack a (List.mem_of_mem_dropLast ha)

theorem path_aligned (h : WellFormed items) (H : Hashes) (mem : List Nat) (sessionNonce : Bytes)
    {k : Nat} (hpath : Engine.Path engine k (VM.init H (stream items) mem sessionNonce) s) :
    Aligned items s :=
  hpath.confined (step_aligned h)
    ⟨rfl, Layout.boundary_start _ _, fun _ ha => nomatch ha⟩

end Run

/-- Assembler, disassembler and engine agree: the sweep finds the emitted instructions at their
pass-1 offsets, and whenever a run fetches an opcode it is at the end of the code or at one of
these offsets, and takes exactly the operands emitted there. -/
theorem instruction_stream {items : List Item} (h : WellFormed items) :
    ∃ code, assemble items = .ok code ∧
      Tools.Disassembler.decode code =
        (placed items items 0).map (fun p => (p.1, some p.2.op, p.2.operandBytes)) ∧
      (∀ p ∈ placed items items 0,
        readOperands (kindsOf p.2.op) p.2.operandBytes = p.2.values ∧
        exec p.2.op = (kindsOf p.2.op).mapM fetch >>= perform p.2.op) ∧
      ∀ (H : Hashes) (mem : List Nat) (sessionNonce : Bytes) (k : Nat) (s : VM),
        Engine.Path engine k (VM.init H code mem sessionNonce) s → s.halted = false →
          (s.ip = code.length ∧ engine.step s = .error .indexError) ∨
            ∃ p ∈ placed items items 0, Fetches p s := by
  refine ⟨stream items, assemble_eq h, decode_eq h, fun p hp => ?_, ?_⟩
  · have hvalid := placed_valid h p hp
    exact ⟨readOperands_fields hvalid.inRange, exec_eq hvalid.known⟩
  · intro H mem sessionNonce k s hpath _
    have hs := path_aligned h H mem sessionNonce hpath
    rcases bound_cases h hs.ip with hend | ⟨p, hp, hip⟩
    · exact .inl ⟨hend, step_at_end hs.code hend⟩
    · exact .inr ⟨p, hp, fetches_of_mem h hs.code hp hip⟩

theorem canonical_wellFormed :
    WellFormed (prologue ++ foldLoop ++ epilogue ++ finalizeRoutine) where
  fits := by decide +kernel
  once := by decide +kernel
  small := by decide +kernel

/-- Its tenth instruction is the exit of the main loop, at 83. -/
theorem instruction_stream_canonical : ∃ code, buildProgram = .ok code ∧
    (Tools.Disassembler.decode code)[9]? = some (83, some Op.jz, [0, 143]) := by
  obtain ⟨code, hcode, hdecode, -⟩ := instruction_stream canonical_wellFormed
  refine ⟨code, hcode, ?_⟩
  rw [hdecode]
  decide +kernel

end RankGate.Vm.Boundaries
