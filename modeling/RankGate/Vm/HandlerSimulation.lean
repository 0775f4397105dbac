/- Module: RankGate/Vm/HandlerSimulation
   source: client/src/vm/vm.cpp, server/app/vm_reference.py (fetch, access, handlers)
   digest: Every client handler simulates the reference branch of the same opcode. -/

import RankGate.Vm.ReferenceSteps
import RankGate.Vm.Words

set_option autoImplicit false
set_option relaxedAutoImplicit false

namespace RankGate.Vm.HandlerSimulation

open ByteCodec (Bytes beNat beBytes)
open RankGate.Crypto (Hashes)
open RankGate.Server.Config (Failure)
open Lockstep (Agree Simulates Never Confined)
open ReferenceSteps

abbrev CVm := Client.Vm.VM
abbrev PVm := Server.VmReference.VM

def handlerOf (op : UInt8) : Client.Vm.Handler :=
  Shuffle.lastSet .hUnknown (Client.Vm.dispatchSets.map fun p => (p.1.toFin, p.2)) op.toFin

/-- Related states. `B` bounds the instruction pointer and every stacked address; `h` is the
common halted flag. The dispatch table is direct once read through the permutation. -/
structure Rel (B : Nat) (h : Bool) (c : CVm) (p : PVm) : Prop where
  code : p.code = c.code
  mem : p.mem = c.mem.toList.map UInt64.toNat
  reg : p.reg = c.reg.toList.map UInt64.toNat
  stack : p.stack = c.stack.map UInt64.toNat
  flags : p.flags = c.flags.toNat
  ip : p.ip = c.ip
  path : p.path = c.path.toNat
  haltedLeft : c.halted = h
  haltedRight : p.halted = h
  haltOperand : p.haltOperand = c.haltOperand.toNat
  dispatch : ∀ op : UInt8, c.table[c.perm[op.toFin]] = handlerOf op
  ipLe : c.ip ≤ B
  stackLe : ∀ a ∈ c.stack, a.toNat ≤ B

theorem Rel.weaken {B B' : Nat} {h : Bool} {c : CVm} {p : PVm} (hr : Rel B h c p) (hB : B ≤ B') :
    Rel B' h c p :=
  { hr with ipLe := hr.ipLe.trans hB, stackLe := fun a ha => (hr.stackLe a ha).trans hB }

theorem Rel.next {B : Nat} {c : CVm} {p : PVm} (hr : Rel B false c p) :
    Rel (B + 1) false { c with ip := c.ip + 1 } { p with ip := p.ip + 1 } :=
  { hr with
    ip := by simp [hr.ip]
    ipLe := Nat.succ_le_succ hr.ipLe
    stackLe := fun a ha => (hr.stackLe a ha).trans (Nat.le_succ B) }

/-- The one divergence: a 64-bit immediate cut off by the end of the code. The client throws,
the reference goes on past the end, where nothing can be fetched. -/
def Overrun (p : PVm) : Prop := p.code.length < p.ip ∧ p.halted = false

def SameByte (a : UInt8) (b : Nat) : Prop := b = a.toNat
def SameHalf (a : UInt16) (b : Nat) : Prop := b = a.toNat
def SameWord (a : UInt64) (b : Nat) : Prop := b = a.toNat
def Any {α β : Type} (_ : α) (_ : β) : Prop := True

variable {B : Nat}

section Fetch

theorem client_u8_some {c : CVm} {v : UInt8} (h : c.code[c.ip]? = some v) :
    Client.Vm.u8 c = .ok (v, { c with ip := c.ip + 1 }) := by
  simp only [Client.Vm.u8, bind, StateT.bind, get, getThe, MonadStateOf.get, StateT.get,
    Except.bind, pure, Except.pure, h]
  rfl

theorem client_u8_none {c : CVm} (h : c.code[c.ip]? = none) :
    Client.Vm.u8 c = .error "vm: ip out of range" := by
  simp only [Client.Vm.u8, bind, StateT.bind, get, getThe, MonadStateOf.get, StateT.get,
    Except.bind, pure, Except.pure, h]
  rfl

theorem u8_sim : Simulates Never (Rel B false) Client.Vm.u8 Server.VmReference.u8 SameByte
    (Rel (B + 1) false) := by
  intro c p hr
  have hfetch : p.code[p.ip]? = c.code[c.ip]? := by rw [hr.code, hr.ip]
  cases hc : c.code[c.ip]? with
  | none =>
    rw [client_u8_none hc, u8_none (hfetch.trans hc)]
    exact .stop _ _
  | some v =>
    rw [client_u8_some hc, u8_some (hfetch.trans hc)]
    refine .ok rfl { hr with ip := by simp [hr.ip], ipLe := ?_, stackLe := ?_ }
    · exact Nat.succ_le_succ hr.ipLe
    · exact fun a ha => (hr.stackLe a ha).trans (Nat.le_succ B)

theorem client_u16_ok {c : CVm} (h : ¬ c.ip + 2 > c.code.length) :
    Client.Vm.u16 c = .ok (UInt16.ofNat (((c.code.getD c.ip 0).toNat <<< 8) |||
      (c.code.getD (c.ip + 1) 0).toNat), { c with ip := c.ip + 2 }) := by
  simp only [Client.Vm.u16, bind, StateT.bind, get, getThe, MonadStateOf.get, StateT.get,
    Except.bind, pure, Except.pure, h, if_false]
  rfl

theorem client_u16_error {c : CVm} (h : c.ip + 2 > c.code.length) :
    Client.Vm.u16 c = .error "vm: u16 oob" := by
  simp only [Client.Vm.u16, bind, StateT.bind, get, getThe, MonadStateOf.get, StateT.get,
    Except.bind, pure, Except.pure, h, if_true]
  rfl

theorem u16_sim : Simulates Never (Rel B false) Client.Vm.u16 Server.VmReference.u16 SameHalf
    (Rel (B + 2) false) := by
  intro c p hr
  by_cases h : c.ip + 2 > c.code.length
  · rw [client_u16_error h, u16_none (by rw [hr.code, hr.ip]; exact h)]
    exact .stop _ _
  · have hlt : c.ip < c.code.length := by omega
    have hlt' : c.ip + 1 < c.code.length := by omega
    rw [client_u16_ok h, u16_some (c.code.getD c.ip 0) (c.code.getD (c.ip + 1) 0)
      (by rw [hr.code, hr.ip]; simp [hlt]) (by rw [hr.code, hr.ip]; simp [hlt'])]
    refine .ok ?_ { hr with ip := by simp [hr.ip], ipLe := ?_, stackLe := ?_ }
    · exact (UInt16.toNat_ofNat_of_lt' (Words.byte_pair_lt _ _)).symm
    · exact Nat.add_le_add_right hr.ipLe 2
    · exact fun a ha => (hr.stackLe a ha).trans (Nat.le_add_right B 2)

theorem client_u64_ok {c : CVm} (h : ¬ c.ip + 8 > c.code.length) :
    Client.Vm.u64 c = .ok (Client.Constants.rdBe64 ((c.code.drop c.ip).take 8),
      { c with ip := c.ip + 8 }) := by
  simp only [Client.Vm.u64, bind, StateT.bind, get, getThe, MonadStateOf.get, StateT.get,
    Except.bind, pure, Except.pure, h, if_false]
  rfl

theorem client_u64_error {c : CVm} (h : c.ip + 8 > c.code.length) :
    Client.Vm.u64 c = .error "vm: u64 oob" := by
  simp only [Client.Vm.u64, bind, StateT.bind, get, getThe, MonadStateOf.get, StateT.get,
    Except.bind, pure, Except.pure, h, if_true]
  rfl

theorem u64_sim : Simulates Overrun (Rel B false) Client.Vm.u64 Server.VmReference.u64 SameWord
    (Rel (B + 8) false) := by
  intro c p hr
  rw [u64_eq]
  by_cases h : c.ip + 8 > c.code.length
  · rw [client_u64_error h]
    refine .astray _ ⟨?_, hr.haltedRight⟩
    rw [hr.code, hr.ip]
    exact h
  · rw [client_u64_ok h]
    refine .ok ?_ { hr with ip := by simp [hr.ip], ipLe := ?_, stackLe := ?_ }
    · rw [hr.code, hr.ip]
      exact (Client.Constants.rdBe64_toNat (List.length_take_le _ _)).symm
    · exact Nat.add_le_add_right hr.ipLe 8
    · exact fun a ha => (hr.stackLe a ha).trans (Nat.le_add_right B 8)

end Fetch

section Access

private theorem Rel.length_reg {h : Bool} {c : CVm} {p : PVm} (hr : Rel B h c p) :
    p.reg.length = 16 := by
  simp [hr.reg]

theorem getR_sim {i : UInt8} {j : Nat} (hij : SameByte i j) :
    Simulates Never (Rel B false) (Client.Vm.getR i) (Server.VmReference.getReg j) SameWord
      (Rel B false) := by
  intro c p hr
  subst hij
  by_cases h : i.toNat < 16
  · have hv : p.reg[i.toNat]? = some (c.reg[i.toNat]).toNat := by simp [hr.reg, h]
    have hc : Client.Vm.getR i c = .ok (c.reg[i.toNat], c) := by
      simp only [Client.Vm.getR, h, dif_pos]
      rfl
    rw [getReg_ok hv, hc]
    exact .ok rfl hr
  · have hc : Client.Vm.getR i c = .error "vm: register index oob" := by
      simp only [Client.Vm.getR, h, dif_neg, not_false_eq_true]
      rfl
    rw [getReg_error (List.getElem?_eq_none (by rw [hr.length_reg]; omega)), hc]
    exact .stop _ _

theorem setR_sim {i : UInt8} {j : Nat} (hij : SameByte i j) {v : UInt64} {w : Nat}
    (hvw : SameWord v w) :
    Simulates Never (Rel B false) (Client.Vm.setR i v) (Server.VmReference.setReg j w) Any
      (Rel B false) := by
  intro c p hr
  subst hij hvw
  by_cases h : i.toNat < 16
  · have hc : Client.Vm.setR i v c = .ok ((), { c with reg := c.reg.set i.toNat v }) := by
      simp only [Client.Vm.setR, h, dif_pos]
      rfl
    rw [setReg_ok (by rw [hr.length_reg]; exact h), hc]
    exact .ok trivial { hr with reg := by simp only [Vector.toList_set, List.map_set, hr.reg] }
  · have hc : Client.Vm.setR i v c = .error "vm: register index oob" := by
      simp only [Client.Vm.setR, h, dif_neg, not_false_eq_true]
      rfl
    rw [setReg_error (by rw [hr.length_reg]; omega), hc]
    exact .stop _ _

theorem getMem_sim {a : UInt64} {b : Nat} (hab : SameWord a b) :
    Simulates Never (Rel B false) (Client.Vm.getMem a)
      (Server.VmReference.getMem (b % Server.Config.vmMemWords)) SameWord (Rel B false) := by
  intro c p hr
  subst hab
  have hlt : a.toNat % 64 < 64 := Nat.mod_lt _ (by decide)
  have hv : p.mem[a.toNat % 64]? = some (c.mem[a.toNat % 64]).toNat := by simp [hr.mem, hlt]
  have hp : Server.VmReference.getMem (a.toNat % Server.Config.vmMemWords) p =
      .ok ((c.mem[a.toNat % 64]).toNat, p) := by
    simp only [Server.VmReference.getMem, Server.VmReference.index, Server.Config.vmMemWords, bind,
      StateT.bind, get, getThe, MonadStateOf.get, StateT.get, Except.bind, pure, Except.pure, hv]
    rfl
  rw [hp]
  exact .ok rfl hr

theorem setMem_sim {a v : UInt64} {b w : Nat} (hab : SameWord a b) (hvw : SameWord v w) :
    Simulates Never (Rel B false) (Client.Vm.setMem a v)
      (Server.VmReference.setMem (b % Server.Config.vmMemWords) w) Any (Rel B false) := by
  intro c p hr
  subst hab hvw
  have hlt : a.toNat % 64 < 64 := Nat.mod_lt _ (by decide)
  have hs : p.mem[a.toNat % 64]? = some (c.mem[a.toNat % 64]).toNat := by simp [hr.mem, hlt]
  have hp : Server.VmReference.setMem (a.toNat % Server.Config.vmMemWords) v.toNat p =
      .ok ((), { p with mem := p.mem.set (a.toNat % 64) v.toNat }) := by
    simp only [Server.VmReference.setMem, Server.VmReference.index, Server.Config.vmMemWords, bind,
      StateT.bind, get, getThe, MonadStateOf.get, StateT.get, Except.bind, pure, Except.pure, hs]
    rfl
  rw [hp]
  exact .ok trivial { hr with mem := by simp only [Vector.toList_set, List.map_set, hr.mem] }

theorem setIp_sim {a : UInt16} {b : Nat} (hab : SameHalf a b) (hB : 2 ^ 16 ≤ B) :
    Simulates Never (Rel B false) (modify fun c => { c with ip := a.toNat } : Client.Vm.VmM Unit)
      (Server.VmReference.setIp b) Any (Rel B false) := by
  intro c p hr
  subst hab
  have ha := a.toNat_lt
  exact .ok trivial { hr with ip := rfl, ipLe := by simp only; omega }

private theorem flag_test (c : CVm) (p : PVm) {h : Bool} (hr : Rel B h c p) (bit : UInt8) :
    decide (c.flags &&& bit ≠ 0) = decide (p.flags &&& bit.toNat ≠ 0) := by
  rw [hr.flags, ← UInt8.toNat_and]
  exact decide_eq_decide.mpr (not_congr UInt8.toNat_inj.symm)

theorem cond_sim {i : UInt8} {j : Nat} (hij : SameByte i j) :
    Simulates Never (Rel B false) (Client.Vm.cond i) (Server.VmReference.cond j) Eq
      (Rel B false) := by
  intro c p hr
  subst hij
  have hz := flag_test c p hr Client.Vm.flZf
  have hc := flag_test c p hr Client.Vm.flCf
  have hs := flag_test c p hr Client.Vm.flSf
  simp only [Client.Vm.cond, Server.VmReference.cond, bind, StateT.bind, get, getThe,
    MonadStateOf.get, StateT.get, Except.bind, pure, Except.pure]
  rw [hz, hc, hs]
  generalize i.toNat = n
  rcases n with _ | _ | _ | _ | _ | _ | n
  · exact .ok rfl hr
  · exact .ok rfl hr
  · exact .ok rfl hr
  · exact .ok rfl hr
  · exact .ok rfl hr
  · exact .ok rfl hr
  · exact .stop _ _

theorem foldPath_sim (taken : Bool) :
    Simulates Never (Rel B false) (Client.Vm.foldPath taken) (Server.VmReference.foldPath taken)
      Any (Rel B false) := by
  intro c p hr
  refine .ok trivial { hr with path := ?_ }
  have hpath := c.path.toNat_lt
  have hk : (0x01000193 : UInt64).toNat = 0x01000193 := rfl
  have hip : c.ip &&& 0xFFFF < 2 ^ 64 :=
    lt_of_le_of_lt Nat.and_le_right (by decide)
  have hbit : (if taken then 1 else 0 : UInt64).toNat = taken.toNat := by cases taken <;> rfl
  simp only [Words.land_m32, UInt64.toNat_toUInt32, UInt64.toNat_xor, UInt64.toNat_mul,
    UInt32.toNat_toUInt64, hk, UInt64.toNat_ofNat_of_lt' hip, hbit, hr.path, hr.ip]
  rw [Nat.mod_eq_of_lt (a := c.path.toNat * 0x01000193) (by omega)]

end Access

def Settled (B : Nat) (c : CVm) (p : PVm) : Prop := ∃ h, Rel B h c p

section Handlers

variable {O : PVm → Prop}

private theorem settle {m : Client.Vm.VmM Unit} {n : Server.VmReference.VmM Unit} {C : Nat}
    (h : Simulates Never (Rel B false) m n Any (Rel C false)) (hB : C ≤ B + 9) :
    Simulates O (Rel B false) m n Any (Settled (B + 9)) :=
  h.loosen.post fun _ _ hr => ⟨false, hr.weaken hB⟩

theorem nop_sim : Simulates O (Rel B false) (Client.Vm.Handler.invoke .hNop Client.Vm.Op.nop)
    (Server.VmReference.exec Server.VmReference.Op.nop) Any (Settled (B + 9)) :=
  settle (Simulates.pure trivial) (by omega)

/-- The immediate is the only operand whose fetch may leave the reference engine running. -/
theorem movRi_sim : Simulates Overrun (Rel B false) Client.Vm.hMovRi
    (Server.VmReference.exec Server.VmReference.Op.movRi) Any (Settled (B + 9)) := by
  refine u8_sim.bind fun rd rd' hrd => u64_sim.bind_astray (fun imm imm' himm => ?_) ?_
  · have hmask : SameWord imm (imm' &&& Server.VmReference.m64) := by
      rw [SameWord, Words.land_m64, himm, Nat.mod_eq_of_lt imm.toNat_lt]
    exact (setR_sim hrd hmask).loosen.post fun _ _ hr => ⟨false, hr.weaken (by omega)⟩
  · intro imm' t b t' ho ht
    by_cases hlt : rd' < t.reg.length
    · rw [setReg_ok hlt] at ht
      simp only [Except.ok.injEq, Prod.mk.injEq] at ht
      obtain ⟨-, rfl⟩ := ht
      exact ho
    · rw [setReg_error (not_lt.mp hlt)] at ht
      cases ht

theorem movRr_sim : Simulates O (Rel B false) Client.Vm.hMovRr
    (Server.VmReference.exec Server.VmReference.Op.movRr) Any (Settled (B + 9)) :=
  settle (u8_sim.bind fun _ _ hrd => u8_sim.bind fun _ _ hrs => (getR_sim hrs).bind fun _ _ hv =>
    setR_sim hrd hv) (by omega)

theorem load_sim : Simulates O (Rel B false) Client.Vm.hLoad
    (Server.VmReference.exec Server.VmReference.Op.load) Any (Settled (B + 9)) :=
  settle (u8_sim.bind fun _ _ hrd => u8_sim.bind fun _ _ harg => (getR_sim harg).bind
    fun _ _ ha => (getMem_sim ha).bind fun _ _ hv => setR_sim hrd hv) (by omega)

theorem store_sim : Simulates O (Rel B false) Client.Vm.hStore
    (Server.VmReference.exec Server.VmReference.Op.store) Any (Settled (B + 9)) :=
  settle (u8_sim.bind fun _ _ harg => u8_sim.bind fun _ _ hrs => (getR_sim hrs).bind
    fun _ _ hv => (getR_sim harg).bind fun _ _ ha => setMem_sim ha hv) (by omega)

private theorem binary_sim {f : UInt64 → UInt64 → UInt64} {g : Nat → Nat → Nat}
    (hfg : ∀ a b : UInt64, (f a b).toNat = g a.toNat b.toNat) :
    Simulates O (Rel B false)
      (do let rd ← Client.Vm.u8; let ra ← Client.Vm.u8; let rb ← Client.Vm.u8
          let a ← Client.Vm.getR ra; let b ← Client.Vm.getR rb
          Client.Vm.setR rd (f a b))
      (do let rd ← Server.VmReference.u8; let ra ← Server.VmReference.u8
          let rb ← Server.VmReference.u8
          let a ← Server.VmReference.getReg ra; let b ← Server.VmReference.getReg rb
          Server.VmReference.setReg rd (g a b)) Any (Settled (B + 9)) := by
  refine settle (u8_sim.bind fun _ _ hrd => u8_sim.bind fun _ _ hra => u8_sim.bind
    fun _ _ hrb => (getR_sim hra).bind fun a a' ha => (getR_sim hrb).bind fun b b' hb =>
    setR_sim hrd ?_) (by omega)
  subst ha hb
  exact (hfg a b).symm

theorem add_sim : Simulates O (Rel B false) (Client.Vm.hAlu3 Client.Vm.Op.add)
    (Server.VmReference.exec Server.VmReference.Op.add) Any (Settled (B + 9)) :=
  binary_sim (f := (· + ·)) (g := fun a b => (a + b) &&& Server.VmReference.m64) fun a b => by
    rw [Words.land_m64, UInt64.toNat_add]

theorem sub_sim : Simulates O (Rel B false) (Client.Vm.hAlu3 Client.Vm.Op.sub)
    (Server.VmReference.exec Server.VmReference.Op.sub) Any (Settled (B + 9)) :=
  binary_sim (f := (· - ·)) (g := Server.VmReference.subM64) Words.sub_toNat

theorem mul_sim : Simulates O (Rel B false) (Client.Vm.hAlu3 Client.Vm.Op.mul)
    (Server.VmReference.exec Server.VmReference.Op.mul) Any (Settled (B + 9)) :=
  binary_sim (f := (· * ·)) (g := fun a b => (a * b) &&& Server.VmReference.m64) fun a b => by
    rw [Words.land_m64, UInt64.toNat_mul]

theorem xor_sim : Simulates O (Rel B false) (Client.Vm.hAlu3 Client.Vm.Op.xor)
    (Server.VmReference.exec Server.VmReference.Op.xor) Any (Settled (B + 9)) :=
  binary_sim (f := (· ^^^ ·)) (g := (· ^^^ ·)) UInt64.toNat_xor

theorem and_sim : Simulates O (Rel B false) (Client.Vm.hAlu3 Client.Vm.Op.and)
    (Server.VmReference.exec Server.VmReference.Op.and) Any (Settled (B + 9)) :=
  binary_sim (f := (· &&& ·)) (g := (· &&& ·)) UInt64.toNat_and

theorem or_sim : Simulates O (Rel B false) (Client.Vm.hAlu3 Client.Vm.Op.or)
    (Server.VmReference.exec Server.VmReference.Op.or) Any (Settled (B + 9)) :=
  binary_sim (f := (· ||| ·)) (g := (· ||| ·)) UInt64.toNat_or

theorem hash_sim : Simulates O (Rel B false) Client.Vm.hHash
    (Server.VmReference.exec Server.VmReference.Op.hashRound) Any (Settled (B + 9)) :=
  binary_sim Words.hashRound_toNat

theorem not_sim : Simulates O (Rel B false) Client.Vm.hNot
    (Server.VmReference.exec Server.VmReference.Op.not) Any (Settled (B + 9)) := by
  refine settle (u8_sim.bind fun _ _ hrd => u8_sim.bind fun _ _ hra => (getR_sim hra).bind
    fun a a' ha => setR_sim hrd ?_) (by omega)
  subst ha
  exact (Words.not_toNat a).symm

private theorem shift_sim {f : UInt64 → UInt8 → UInt64} {g : Nat → Nat → Nat}
    (hfg : ∀ (a : UInt64) (n : UInt8), (f a n).toNat = g a.toNat n.toNat) :
    Simulates O (Rel B false)
      (do let rd ← Client.Vm.u8; let ra ← Client.Vm.u8; let imm ← Client.Vm.u8
          let a ← Client.Vm.getR ra
          Client.Vm.setR rd (f a imm))
      (do let rd ← Server.VmReference.u8; let ra ← Server.VmReference.u8
          let imm ← Server.VmReference.u8
          let a ← Server.VmReference.getReg ra
          Server.VmReference.setReg rd (g a imm)) Any (Settled (B + 9)) := by
  refine settle (u8_sim.bind fun _ _ hrd => u8_sim.bind fun _ _ hra => u8_sim.bind
    fun n n' hn => (getR_sim hra).bind fun a a' ha => setR_sim hrd ?_) (by omega)
  subst ha hn
  exact (hfg a n).symm

theorem rol_sim : Simulates O (Rel B false) (Client.Vm.hShift Client.Vm.Op.rol)
    (Server.VmReference.exec Server.VmReference.Op.rol) Any (Settled (B + 9)) :=
  shift_sim (f := fun a n => Client.Vm.rotl64 a n.toUInt64) fun a n => by
    rw [Words.rotl64_toNat, UInt8.toNat_toUInt64]

theorem ror_sim : Simulates O (Rel B false) (Client.Vm.hShift Client.Vm.Op.ror)
    (Server.VmReference.exec Server.VmReference.Op.ror) Any (Settled (B + 9)) :=
  shift_sim (f := fun a n => Client.Vm.rotr64 a n.toUInt64) fun a n => by
    rw [Words.rotr64_toNat, UInt8.toNat_toUInt64]

theorem shl_sim : Simulates O (Rel B false) (Client.Vm.hShift Client.Vm.Op.shl)
    (Server.VmReference.exec Server.VmReference.Op.shl) Any (Settled (B + 9)) :=
  shift_sim Words.shl_toNat

theorem shr_sim : Simulates O (Rel B false) (Client.Vm.hShift Client.Vm.Op.shr)
    (Server.VmReference.exec Server.VmReference.Op.shr) Any (Settled (B + 9)) :=
  shift_sim Words.shr_toNat

theorem cmp_sim : Simulates O (Rel B false) Client.Vm.hCmp
    (Server.VmReference.exec Server.VmReference.Op.cmp) Any (Settled (B + 9)) := by
  refine settle (C := B + 1 + 1) (u8_sim.bind fun _ _ hra => u8_sim.bind fun _ _ hrb =>
    (getR_sim hra).bind fun a a' ha => (getR_sim hrb).bind fun b b' hb => Simulates.modify ?_)
    (by omega)
  subst ha hb
  exact fun c p hr => { hr with flags := (Words.cmpFlags_toNat a b).symm }

theorem cmov_sim : Simulates O (Rel B false) Client.Vm.hCmov
    (Server.VmReference.exec Server.VmReference.Op.cmov) Any (Settled (B + 9)) := by
  refine settle (C := B + 1 + 1 + 1) (u8_sim.bind fun _ _ hrd => u8_sim.bind fun _ _ hrs =>
    u8_sim.bind fun _ _ hc => (cond_sim hc).bind fun b b' hb => Simulates.ite hb ?_ ?_) (by omega)
  · exact fun _ => (getR_sim hrs).bind fun _ _ hv => setR_sim hrd hv
  · exact fun _ => Simulates.pure trivial

theorem jmp_sim (hB : 2 ^ 16 ≤ B) : Simulates O (Rel B false) Client.Vm.hJmp
    (Server.VmReference.exec Server.VmReference.Op.jmp) Any (Settled (B + 9)) :=
  settle (u16_sim.bind fun _ _ ha => setIp_sim ha (by omega)) (by omega)

private theorem jcc_sim (test : Bool → Bool) (hB : 2 ^ 16 ≤ B) :
    Simulates O (Rel B false)
      (do let addr ← Client.Vm.u16
          let s ← get
          let taken := test (decide (s.flags &&& Client.Vm.flZf ≠ 0))
          Client.Vm.foldPath taken
          if taken then modify fun s => { s with ip := addr.toNat })
      (do let addr ← Server.VmReference.u16
          let s ← get
          let taken := test (decide (s.flags &&& Server.VmReference.flZf ≠ 0))
          Server.VmReference.foldPath taken
          if taken then Server.VmReference.setIp addr) Any (Settled (B + 9)) := by
  refine settle (C := B + 2) (u16_sim.bind fun addr addr' ha => Simulates.get.bind
    fun c p hr => ?_) (by omega)
  have htest : decide (c.flags &&& Client.Vm.flZf ≠ 0) =
      decide (p.flags &&& Server.VmReference.flZf ≠ 0) := flag_test c p hr Client.Vm.flZf
  simp only [htest]
  exact (foldPath_sim _).bind fun _ _ _ => Simulates.ite rfl
    (fun _ => setIp_sim ha (by omega)) (fun _ => Simulates.pure trivial)

theorem jz_sim (hB : 2 ^ 16 ≤ B) : Simulates O (Rel B false)
    (Client.Vm.hJcc Client.Vm.Op.jz) (Server.VmReference.exec Server.VmReference.Op.jz) Any
    (Settled (B + 9)) :=
  jcc_sim id hB

theorem jnz_sim (hB : 2 ^ 16 ≤ B) : Simulates O (Rel B false)
    (Client.Vm.hJcc Client.Vm.Op.jnz) (Server.VmReference.exec Server.VmReference.Op.jnz) Any
    (Settled (B + 9)) :=
  jcc_sim not hB

theorem call_sim (hB : 2 ^ 16 ≤ B) (hB' : B + 9 < 2 ^ 64) :
    Simulates O (Rel B false) Client.Vm.hCall
      (Server.VmReference.exec Server.VmReference.Op.call) Any (Settled (B + 9)) := by
  refine settle (C := B + 2) (u16_sim.bind fun addr addr' ha => Simulates.modify ?_) (by omega)
  subst ha
  intro c p hr
  have haddr := addr.toNat_lt
  have hip : (UInt64.ofNat c.ip).toNat = c.ip :=
    UInt64.toNat_ofNat_of_lt' (show c.ip < 2 ^ 64 by have := hr.ipLe; omega)
  refine { hr with stack := by simp [hr.stack, hr.ip, hip], ip := rfl, ipLe := ?_, stackLe := ?_ }
  · simp only
    omega
  · intro a ha
    rcases List.mem_append.mp ha with ha | ha
    · exact hr.stackLe a ha
    · rw [List.mem_singleton.mp ha, hip]
      exact hr.ipLe

theorem client_ret_some {c : CVm} {addr : UInt64} (h : c.stack.getLast? = some addr) :
    Client.Vm.hRet c = .ok ((), { c with ip := addr.toNat, stack := c.stack.dropLast }) := by
  simp only [Client.Vm.hRet, bind, StateT.bind, get, getThe, MonadStateOf.get, StateT.get,
    Except.bind, pure, Except.pure, h]
  rfl

theorem client_ret_none {c : CVm} (h : c.stack.getLast? = none) :
    Client.Vm.hRet c = .error "vm: RET underflow" := by
  simp only [Client.Vm.hRet, bind, StateT.bind, get, getThe, MonadStateOf.get, StateT.get,
    Except.bind, pure, Except.pure, h]
  rfl

theorem ret_sim : Simulates O (Rel B false) Client.Vm.hRet
    (Server.VmReference.exec Server.VmReference.Op.ret) Any (Settled (B + 9)) := by
  refine settle (C := B) (fun c p hr => ?_) (by omega)
  have hlast : p.stack.getLast? = c.stack.getLast?.map UInt64.toNat := by
    rw [hr.stack, List.getLast?_map]
  cases hc : c.stack.getLast? with
  | none =>
    rw [client_ret_none hc, ret_none (by rw [hlast, hc]; rfl)]
    exact .stop _ _
  | some addr =>
    rw [client_ret_some hc, ret_some addr.toNat (by rw [hlast, hc]; rfl)]
    refine .ok trivial { hr with stack := ?_, ip := rfl, ipLe := ?_, stackLe := ?_ }
    · simp only [hr.stack, List.map_dropLast]
    · exact hr.stackLe addr (List.mem_of_getLast? hc)
    · exact fun a ha => hr.stackLe a (List.mem_of_mem_dropLast ha)

theorem mix_sim : Simulates O (Rel B false) Client.Vm.hMix
    (Server.VmReference.exec Server.VmReference.Op.mix) Any (Settled (B + 9)) := by
  refine settle (C := B + 1 + 1) (u8_sim.bind fun rd rd' hrd => u8_sim.bind fun _ _ hra =>
    (getR_sim hrd).bind fun acc acc' hacc => (getR_sim hra).bind fun v v' hv =>
    setR_sim hrd ?_) (by omega)
  subst hrd hacc hv
  exact (Words.mix_toNat acc v rd).symm

theorem halt_sim : Simulates O (Rel B false) Client.Vm.hHalt
    (Server.VmReference.exec Server.VmReference.Op.halt) Any (Settled (B + 9)) := by
  refine u8_sim.bind fun code code' hcode => Simulates.modify fun c p hr => ?_
  subst hcode
  exact ⟨true, { hr.weaken (by omega : B + 1 ≤ B + 9) with
    haltedLeft := rfl, haltedRight := rfl, haltOperand := rfl }⟩

def opcodes : List UInt8 := Client.Vm.dispatchSets.map Prod.fst

theorem handlerOf_of_not_mem {op : UInt8} (h : op ∉ opcodes) : handlerOf op = .hUnknown := by
  refine Shuffle.lastSet_of_not_mem _ fun hmem => h ?_
  rw [List.map_map] at hmem
  obtain ⟨p, hp, he⟩ := List.mem_map.mp hmem
  exact List.mem_map.mpr ⟨p, hp, UInt8.toFin_inj.mp he⟩

theorem exec_of_not_mem {op : UInt8} (h : op ∉ opcodes) :
    Server.VmReference.exec op.toNat =
      modify fun s => { s with haltOperand := 0xFD, halted := true } := by
  have hne : op.toNat ∉ Server.VmReference.operandLen.map Prod.fst := by
    intro hmem
    obtain ⟨o, ho, he⟩ := List.mem_map.mp (show op.toNat ∈ opcodes.map UInt8.toNat from hmem)
    exact h (UInt8.toNat_inj.mp he ▸ ho)
  simp only [Server.VmReference.operandLen, List.map_cons, List.map_nil, List.mem_cons,
    not_or] at hne
  simp only [Server.VmReference.exec, List.mem_cons, hne, or_false, if_false]

theorem unknown_sim {op : UInt8} (h : op ∉ opcodes) :
    Simulates O (Rel B false) ((handlerOf op).invoke op)
      (Server.VmReference.exec op.toNat) Any (Settled (B + 9)) := by
  rw [handlerOf_of_not_mem h, exec_of_not_mem h]
  refine Simulates.modify fun c p hr => ?_
  exact ⟨true, { hr.weaken (by omega : B ≤ B + 9) with
    haltedLeft := rfl, haltedRight := rfl, haltOperand := rfl }⟩

/-- One case per opcode, and one for the rest; only MOV_RI can leave the reference astray. -/
theorem dispatch_sim_of_ne (hB : 2 ^ 16 ≤ B) (hB' : B + 9 < 2 ^ 64) {op : UInt8}
    (hne : op ≠ Client.Vm.Op.movRi) :
    Simulates O (Rel B false) ((handlerOf op).invoke op)
      (Server.VmReference.exec op.toNat) Any (Settled (B + 9)) := by
  by_cases hop : op ∈ opcodes
  · simp only [opcodes, Client.Vm.dispatchSets, List.map_append, List.map_cons, List.map_nil,
      List.mem_append, List.mem_cons, List.not_mem_nil, or_false] at hop
    rcases hop with (((((rfl | rfl | rfl | rfl | rfl) | rfl | rfl | rfl | rfl | rfl | rfl) | rfl) |
      rfl | rfl | rfl | rfl) | rfl | rfl | rfl | rfl | rfl | rfl | rfl | rfl | rfl | rfl)
    · exact nop_sim
    · exact absurd rfl hne
    · exact movRr_sim
    · exact load_sim
    · exact store_sim
    · exact add_sim
    · exact sub_sim
    · exact mul_sim
    · exact xor_sim
    · exact and_sim
    · exact or_sim
    · exact not_sim
    · exact rol_sim
    · exact ror_sim
    · exact shl_sim
    · exact shr_sim
    · exact cmp_sim
    · exact cmov_sim
    · exact jmp_sim hB
    · exact jz_sim hB
    · exact jnz_sim hB
    · exact call_sim hB hB'
    · exact ret_sim
    · exact hash_sim
    · exact mix_sim
    · exact halt_sim
  · exact unknown_sim hop

theorem dispatch_sim (hB : 2 ^ 16 ≤ B) (hB' : B + 9 < 2 ^ 64) (op : UInt8) :
    Simulates Overrun (Rel B false) ((handlerOf op).invoke op)
      (Server.VmReference.exec op.toNat) Any (Settled (B + 9)) := by
  by_cases hop : op = Client.Vm.Op.movRi
  · subst hop
    exact movRi_sim
  · exact dispatch_sim_of_ne hB hB' hop

end Handlers

end RankGate.Vm.HandlerSimulation
