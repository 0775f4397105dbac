/- Module: RankGate/Vm/ReferenceSteps
   source: server/app/vm_reference.py (VM._u8 .. VM._exec)
   digest: What one step of the reference engine does, one lemma an instruction shape. -/

import RankGate.Server.VmReference

set_option autoImplicit false
set_option relaxedAutoImplicit false

namespace RankGate.Vm.ReferenceSteps

open ByteCodec (Bytes beNat)
open RankGate.Crypto (Hashes)
open RankGate.Server.VmReference

section Access

theorem u8_some {s : VM} {v : UInt8} (h : s.code[s.ip]? = some v) :
    u8 s = .ok (v.toNat, { s with ip := s.ip + 1 }) := by
  simp only [u8, index, bind, StateT.bind, get, getThe,
    MonadStateOf.get, StateT.get, Except.bind, pure, Except.pure, h]
  rfl

theorem u8_none {s : VM} (h : s.code[s.ip]? = none) :
    u8 s = .error .indexError := by
  simp only [u8, index, bind, StateT.bind, get, getThe,
    MonadStateOf.get, StateT.get, Except.bind, pure, Except.pure, h]
  rfl

theorem u16_some {s : VM} (hi lo : UInt8) (h : s.code[s.ip]? = some hi)
    (h' : s.code[s.ip + 1]? = some lo) :
    u16 s = .ok ((hi.toNat <<< 8) ||| lo.toNat, { s with ip := s.ip + 2 }) := by
  simp only [u16, index, bind, StateT.bind, get, getThe,
    MonadStateOf.get, StateT.get, Except.bind, pure, Except.pure, h, h']
  rfl

theorem u16_none {s : VM} (h : s.code.length < s.ip + 2) :
    u16 s = .error .indexError := by
  have h' : s.code[s.ip + 1]? = none := by
    rw [List.getElem?_eq_none_iff]
    omega
  cases hhi : s.code[s.ip]? with
  | none =>
    simp only [u16, index, bind, StateT.bind, get, getThe,
      MonadStateOf.get, StateT.get, Except.bind, pure, Except.pure, hhi]
    rfl
  | some hi =>
    simp only [u16, index, bind, StateT.bind, get, getThe,
      MonadStateOf.get, StateT.get, Except.bind, pure, Except.pure, hhi, h']
    rfl

theorem u64_eq (s : VM) : u64 s =
    .ok (beNat ((s.code.drop s.ip).take 8), { s with ip := s.ip + 8 }) := rfl

theorem getReg_ok {s : VM} {i v : Nat} (h : s.reg[i]? = some v) :
    getReg i s = .ok (v, s) := by
  simp only [getReg, index, bind, StateT.bind, get, getThe,
    MonadStateOf.get, StateT.get, Except.bind, pure, Except.pure, h]
  rfl

theorem getReg_error {s : VM} {i : Nat} (h : s.reg[i]? = none) :
    getReg i s = .error .indexError := by
  simp only [getReg, index, bind, StateT.bind, get, getThe,
    MonadStateOf.get, StateT.get, Except.bind, pure, Except.pure, h]
  rfl

theorem setReg_ok {s : VM} {i : Nat} (h : i < s.reg.length) (v : Nat) :
    setReg i v s = .ok ((), { s with reg := s.reg.set i v }) := by
  have hs : s.reg[i]? = some s.reg[i] := List.getElem?_eq_getElem h
  simp only [setReg, index, bind, StateT.bind, get, getThe,
    MonadStateOf.get, StateT.get, Except.bind, pure, Except.pure, hs]
  rfl

theorem setReg_error {s : VM} {i : Nat} (h : s.reg.length ≤ i) (v : Nat) :
    setReg i v s = .error .indexError := by
  have hs : s.reg[i]? = none := List.getElem?_eq_none h
  simp only [setReg, index, bind, StateT.bind, get, getThe,
    MonadStateOf.get, StateT.get, Except.bind, pure, Except.pure, hs]
  rfl

theorem getMem_ok {s : VM} {i v : Nat} (h : s.mem[i]? = some v) : getMem i s = .ok (v, s) := by
  simp only [getMem, index, bind, StateT.bind, get, getThe, MonadStateOf.get, StateT.get,
    Except.bind, pure, Except.pure, h]
  rfl

theorem setMem_ok {s : VM} {i : Nat} (h : i < s.mem.length) (v : Nat) :
    setMem i v s = .ok ((), { s with mem := s.mem.set i v }) := by
  have hs : s.mem[i]? = some s.mem[i] := List.getElem?_eq_getElem h
  simp only [setMem, index, bind, StateT.bind, get, getThe, MonadStateOf.get, StateT.get,
    Except.bind, pure, Except.pure, hs]
  rfl

theorem ret_some {s : VM} (addr : Nat) (h : s.stack.getLast? = some addr) :
    exec Op.ret s =
      .ok ((), { s with ip := addr, stack := s.stack.dropLast }) := by
  change (get >>= fun s : VM => _ : VmM Unit) s = _
  simp only [bind, StateT.bind, get, getThe, MonadStateOf.get, StateT.get,
    Except.bind, pure, Except.pure, h]
  rfl

theorem ret_none {s : VM} (h : s.stack.getLast? = none) :
    exec Op.ret s = .error .indexError := by
  change (get >>= fun s : VM => _ : VmM Unit) s = _
  simp only [bind, StateT.bind, get, getThe, MonadStateOf.get, StateT.get,
    Except.bind, pure, Except.pure, h]
  rfl

end Access

/-- The bytes at an instruction pointer. -/
def Ahead (code : Bytes) (ip : Nat) (bytes : Bytes) : Prop :=
  (code.drop ip).take bytes.length = bytes

section Fetch

variable {code : Bytes} {ip : Nat} {s : VM} {b : UInt8} {bs : Bytes}

theorem Ahead.head (h : Ahead code ip (b :: bs)) : code[ip]? = some b := by
  have hhead := congrArg List.head? h
  rw [List.length_cons, List.head?_take, List.head?_drop] at hhead
  simpa using hhead

theorem Ahead.tail (h : Ahead code ip (b :: bs)) : Ahead code (ip + 1) bs := by
  have hdrop : code.drop (ip + 1) = (code.drop ip).tail := by
    rw [List.tail_drop]
  rw [Ahead] at h
  rw [Ahead, hdrop]
  cases hc : code.drop ip with
  | nil => simp [hc] at h
  | cons c cs =>
    rw [hc, List.length_cons, List.take_succ_cons, List.cons.injEq] at h
    exact h.2

theorem ahead_iff {bytes : Bytes} : Ahead code ip bytes ↔ bytes <+: code.drop ip :=
  eq_comm.trans List.prefix_iff_eq_take.symm

theorem Ahead.append {bytes rest : Bytes} (h : Ahead code ip (bytes ++ rest)) :
    Ahead code ip bytes ∧ Ahead code (ip + bytes.length) rest := by
  obtain ⟨post, hpost⟩ := ahead_iff.mp h
  constructor
  · rw [ahead_iff, ← hpost, List.append_assoc]
    exact List.prefix_append _ _
  · rw [ahead_iff, ← List.drop_drop, ← hpost, List.append_assoc, List.drop_left' rfl]
    exact List.prefix_append _ _

theorem Ahead.u8 {α : Type} (h : Ahead s.code s.ip (b :: bs)) (k : Nat → VmM α) :
    (u8 >>= k) s = k b.toNat { s with ip := s.ip + 1 } :=
  Effects.bind_ok (u8_some h.head)

theorem Ahead.u16 {α : Type} {hi lo : UInt8} (h : Ahead s.code s.ip (hi :: lo :: bs))
    (k : Nat → VmM α) :
    (u16 >>= k) s = k ((hi.toNat <<< 8) ||| lo.toNat) { s with ip := s.ip + 2 } :=
  Effects.bind_ok (u16_some hi lo h.head h.tail.head)

theorem Ahead.u64 {α : Type} {imm : Bytes} (hl : imm.length = 8) (h : Ahead s.code s.ip imm)
    (k : Nat → VmM α) : (u64 >>= k) s = k (beNat imm) { s with ip := s.ip + 8 } := by
  rw [Ahead, hl] at h
  refine Effects.bind_ok ?_
  rw [u64_eq, h]

/-- A step fetches its opcode and executes it. -/
theorem Ahead.step (h : Ahead s.code s.ip (b :: bs)) :
    engine.step s = exec b.toNat { s with ip := s.ip + 1 } :=
  h.u8 exec

end Fetch

/-! One lemma an instruction shape. States are written out field by field, so that a chain of
steps stays flat. -/

section Instructions

variable {code : Bytes} {mem reg stack perm : List Nat} {flags ip path operand : Nat}
  {halted : Bool}

private theorem lt_of_isSome {l : List Nat} {i : Nat} (h : (l[i]?).isSome = true) :
    i < l.length := by
  rw [Option.isSome_iff_exists] at h
  obtain ⟨_, hv⟩ := h
  exact (List.getElem?_eq_some_iff.mp hv).1

private theorem bind_getReg {s : VM} {α : Type} {i v : Nat} {l : List Nat}
    (hs : s.reg = l) (h : l[i]? = some v) (k : Nat → VmM α) : (getReg i >>= k) s = k v s := by
  subst hs
  exact Effects.bind_ok (getReg_ok h)

private theorem set_reg {s : VM} {i : Nat} {l : List Nat} (hs : s.reg = l)
    (h : (l[i]?).isSome = true) (v : Nat) :
    setReg i v s = .ok ((), { s with reg := l.set i v }) := by
  subst hs
  exact setReg_ok (lt_of_isSome h) v

theorem step_nop (h : Ahead code ip [0x00]) :
    engine.step ⟨code, mem, reg, stack, flags, ip, path, halted, operand, perm⟩ =
      .ok ((), ⟨code, mem, reg, stack, flags, ip + 1, path, halted, operand, perm⟩) := by
  rw [h.step]
  rfl

theorem step_movRi (rd : UInt8) (imm : Bytes) (v : Nat) (hl : imm.length = 8)
    (h : Ahead code ip (0x10 :: rd :: imm)) (hv : beNat imm &&& m64 = v)
    (hd : (reg[rd.toNat]?).isSome = true) :
    engine.step ⟨code, mem, reg, stack, flags, ip, path, halted, operand, perm⟩ =
      .ok ((), ⟨code, mem, reg.set rd.toNat v, stack, flags, ip + 10, path, halted, operand,
        perm⟩) := by
  rw [h.step]
  refine (h.tail.u8 _).trans ((Ahead.u64 hl h.tail.tail _).trans ?_)
  subst hv
  exact set_reg rfl hd _

theorem step_movRr (rd rs : UInt8) {v : Nat} (h : Ahead code ip [0x11, rd, rs])
    (hv : reg[rs.toNat]? = some v) (hd : (reg[rd.toNat]?).isSome = true) :
    engine.step ⟨code, mem, reg, stack, flags, ip, path, halted, operand, perm⟩ =
      .ok ((), ⟨code, mem, reg.set rd.toNat v, stack, flags, ip + 3, path, halted, operand,
        perm⟩) := by
  rw [h.step]
  refine (h.tail.u8 _).trans ((h.tail.tail.u8 _).trans ((bind_getReg rfl hv _).trans ?_))
  exact set_reg rfl hd _

theorem step_load (rd areg : UInt8) {a v : Nat} (h : Ahead code ip [0x20, rd, areg])
    (ha : reg[areg.toNat]? = some a) (hv : mem[a % 64]? = some v)
    (hd : (reg[rd.toNat]?).isSome = true) :
    engine.step ⟨code, mem, reg, stack, flags, ip, path, halted, operand, perm⟩ =
      .ok ((), ⟨code, mem, reg.set rd.toNat v, stack, flags, ip + 3, path, halted, operand,
        perm⟩) := by
  rw [h.step]
  refine (h.tail.u8 _).trans ((h.tail.tail.u8 _).trans ((bind_getReg rfl ha _).trans
    ((Effects.bind_ok (getMem_ok (by exact hv))).trans ?_)))
  exact set_reg rfl hd _

theorem step_store (areg rs : UInt8) {a v : Nat} (h : Ahead code ip [0x21, areg, rs])
    (ha : reg[areg.toNat]? = some a) (hv : reg[rs.toNat]? = some v) (hm : a % 64 < mem.length) :
    engine.step ⟨code, mem, reg, stack, flags, ip, path, halted, operand, perm⟩ =
      .ok ((), ⟨code, mem.set (a % 64) v, reg, stack, flags, ip + 3, path, halted, operand,
        perm⟩) := by
  rw [h.step]
  refine (h.tail.u8 _).trans ((h.tail.tail.u8 _).trans ((bind_getReg rfl hv _).trans
    ((bind_getReg rfl ha _).trans ?_)))
  exact setMem_ok (by exact hm) v

theorem step_binary (op rd ra rb : UInt8) {f : Nat → Nat → Nat} {a b : Nat}
    (h : Ahead code ip [op, rd, ra, rb])
    (hop : exec op.toNat = do
      let rd ← u8; let ra ← u8; let rb ← u8
      let a ← getReg ra; let b ← getReg rb
      setReg rd (f a b))
    (ha : reg[ra.toNat]? = some a) (hb : reg[rb.toNat]? = some b)
    (hd : (reg[rd.toNat]?).isSome = true) :
    engine.step ⟨code, mem, reg, stack, flags, ip, path, halted, operand, perm⟩ =
      .ok ((), ⟨code, mem, reg.set rd.toNat (f a b), stack, flags, ip + 4, path, halted, operand,
        perm⟩) := by
  rw [h.step, hop]
  refine (h.tail.u8 _).trans ((h.tail.tail.u8 _).trans ((h.tail.tail.tail.u8 _).trans
    ((bind_getReg rfl ha _).trans ((bind_getReg rfl hb _).trans ?_))))
  exact set_reg rfl hd _

theorem step_shift (op rd ra imm : UInt8) {f : Nat → Nat → Nat} {a : Nat}
    (h : Ahead code ip [op, rd, ra, imm])
    (hop : exec op.toNat = do
      let rd ← u8; let ra ← u8; let imm ← u8
      let a ← getReg ra
      setReg rd (f a imm))
    (ha : reg[ra.toNat]? = some a) (hd : (reg[rd.toNat]?).isSome = true) :
    engine.step ⟨code, mem, reg, stack, flags, ip, path, halted, operand, perm⟩ =
      .ok ((), ⟨code, mem, reg.set rd.toNat (f a imm.toNat), stack, flags, ip + 4, path, halted,
        operand, perm⟩) := by
  rw [h.step, hop]
  refine (h.tail.u8 _).trans ((h.tail.tail.u8 _).trans ((h.tail.tail.tail.u8 _).trans
    ((bind_getReg rfl ha _).trans ?_)))
  exact set_reg rfl hd _

theorem step_not (rd ra : UInt8) {a : Nat} (h : Ahead code ip [0x36, rd, ra])
    (ha : reg[ra.toNat]? = some a) (hd : (reg[rd.toNat]?).isSome = true) :
    engine.step ⟨code, mem, reg, stack, flags, ip, path, halted, operand, perm⟩ =
      .ok ((), ⟨code, mem, reg.set rd.toNat (notM64 a), stack, flags, ip + 3, path, halted,
        operand, perm⟩) := by
  rw [h.step]
  refine (h.tail.u8 _).trans ((h.tail.tail.u8 _).trans ((bind_getReg rfl ha _).trans ?_))
  exact set_reg rfl hd _

theorem step_mix (rd ra : UInt8) {acc a : Nat} (h : Ahead code ip [0x71, rd, ra])
    (hacc : reg[rd.toNat]? = some acc) (ha : reg[ra.toNat]? = some a) :
    engine.step ⟨code, mem, reg, stack, flags, ip, path, halted, operand, perm⟩ =
      .ok ((), ⟨code, mem, reg.set rd.toNat (mix acc a rd.toNat), stack, flags, ip + 3, path,
        halted, operand, perm⟩) := by
  rw [h.step]
  refine (h.tail.u8 _).trans ((h.tail.tail.u8 _).trans ((bind_getReg rfl hacc _).trans
    ((bind_getReg rfl ha _).trans ?_)))
  exact set_reg rfl (by rw [hacc]; rfl) _

theorem step_cmp (ra rb : UInt8) {a b : Nat} (h : Ahead code ip [0x50, ra, rb])
    (ha : reg[ra.toNat]? = some a) (hb : reg[rb.toNat]? = some b) :
    engine.step ⟨code, mem, reg, stack, flags, ip, path, halted, operand, perm⟩ =
      .ok ((), ⟨code, mem, reg, stack, cmpFlags a b, ip + 3, path, halted, operand, perm⟩) := by
  rw [h.step]
  exact (h.tail.u8 _).trans ((h.tail.tail.u8 _).trans ((bind_getReg rfl ha _).trans
    ((bind_getReg rfl hb _).trans rfl)))

theorem step_cmov (rd rs c : UInt8) {old v : Nat} {taken : Bool} (h : Ahead code ip [0x51, rd, rs, c])
    (hc : Server.VmReference.cond c.toNat
      ⟨code, mem, reg, stack, flags, ip + 4, path, halted, operand, perm⟩ =
      .ok (taken, ⟨code, mem, reg, stack, flags, ip + 4, path, halted, operand, perm⟩))
    (hold : reg[rd.toNat]? = some old) (hv : reg[rs.toNat]? = some v) :
    engine.step ⟨code, mem, reg, stack, flags, ip, path, halted, operand, perm⟩ =
      .ok ((), ⟨code, mem, reg.set rd.toNat (if taken then v else old), stack, flags, ip + 4,
        path, halted, operand, perm⟩) := by
  rw [h.step]
  refine (h.tail.u8 _).trans ((h.tail.tail.u8 _).trans ((h.tail.tail.tail.u8 _).trans
    ((Effects.bind_ok hc).trans ?_)))
  cases taken with
  | true => exact (bind_getReg rfl hv _).trans (set_reg rfl (by rw [hold]; rfl) _)
  | false =>
    have hsame : reg.set rd.toNat old = reg := by
      obtain ⟨hlt, hget⟩ := List.getElem?_eq_some_iff.mp hold
      rw [← hget]
      exact List.set_getElem_self hlt
    simp only [Bool.false_eq_true, if_false, hsame]
    rfl

def address (hi lo : UInt8) : Nat := (hi.toNat <<< 8) ||| lo.toNat

theorem step_jmp (hi lo : UInt8) (h : Ahead code ip [0x60, hi, lo]) :
    engine.step ⟨code, mem, reg, stack, flags, ip, path, halted, operand, perm⟩ =
      .ok ((), ⟨code, mem, reg, stack, flags, address hi lo, path, halted, operand, perm⟩) := by
  rw [h.step]
  exact h.tail.u16 _

/-- The path after one conditional jump, `ip` being the address behind it. -/
def pathAfter (path ip : Nat) (taken : Bool) : Nat :=
  ((path * 0x01000193) ^^^ (ip &&& 0xFFFF) ^^^ taken.toNat) &&& m32

theorem branch_ok (s : VM) (addr : Nat) (taken : Bool) :
    (foldPath taken >>= fun _ => if taken then setIp addr else pure ()) s = .ok ((), { s with
      ip := if taken then addr else s.ip
      path := pathAfter s.path s.ip taken }) := by
  cases taken <;> rfl

theorem step_jz (hi lo : UInt8) {taken : Bool} (h : Ahead code ip [0x61, hi, lo])
    (ht : decide (flags &&& flZf ≠ 0) = taken) :
    engine.step ⟨code, mem, reg, stack, flags, ip, path, halted, operand, perm⟩ =
      .ok ((), ⟨code, mem, reg, stack, flags, if taken then address hi lo else ip + 3,
        pathAfter path (ip + 3) taken, halted, operand, perm⟩) := by
  rw [h.step]
  refine (h.tail.u16 _).trans ?_
  subst ht
  exact branch_ok _ _ _

theorem step_jnz (hi lo : UInt8) {taken : Bool} (h : Ahead code ip [0x62, hi, lo])
    (ht : (!decide (flags &&& flZf ≠ 0)) = taken) :
    engine.step ⟨code, mem, reg, stack, flags, ip, path, halted, operand, perm⟩ =
      .ok ((), ⟨code, mem, reg, stack, flags, if taken then address hi lo else ip + 3,
        pathAfter path (ip + 3) taken, halted, operand, perm⟩) := by
  rw [h.step]
  refine (h.tail.u16 _).trans ?_
  subst ht
  exact branch_ok _ _ _

theorem step_call (hi lo : UInt8) (h : Ahead code ip [0x63, hi, lo]) :
    engine.step ⟨code, mem, reg, stack, flags, ip, path, halted, operand, perm⟩ =
      .ok ((), ⟨code, mem, reg, stack ++ [ip + 3], flags, address hi lo, path, halted, operand,
        perm⟩) := by
  rw [h.step]
  exact h.tail.u16 _

theorem step_ret {addr : Nat} (h : Ahead code ip [0x64]) (ha : stack.getLast? = some addr) :
    engine.step ⟨code, mem, reg, stack, flags, ip, path, halted, operand, perm⟩ =
      .ok ((), ⟨code, mem, reg, stack.dropLast, flags, addr, path, halted, operand, perm⟩) := by
  rw [h.step]
  exact ret_some addr ha

theorem step_halt (c : UInt8) (h : Ahead code ip [0xF0, c]) :
    engine.step ⟨code, mem, reg, stack, flags, ip, path, halted, operand, perm⟩ =
      .ok ((), ⟨code, mem, reg, stack, flags, ip + 2, path, true, c.toNat, perm⟩) := by
  rw [h.step]
  exact h.tail.u8 _

end Instructions

theorem run_eq_finish (H : Hashes) {s t : VM} (h : engine.run maxSteps s = .ok ((), t)) :
    s.run H = t.finish H := by
  rw [VM.run, h]
  rfl

end RankGate.Vm.ReferenceSteps
