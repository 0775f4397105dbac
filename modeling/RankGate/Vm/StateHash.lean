/- Module: RankGate/Vm/StateHash
   source: server/app/vm_reference.py (VM._finish), client/src/vm/vm.cpp (VM::finish)
   digest: What of a final machine state the bytes under the state hash determine, and what they leave out. -/

import RankGate.Vm.FaultAgreement

set_option autoImplicit false
set_option relaxedAutoImplicit false

namespace RankGate.Vm.StateHash

open ByteCodec (Bytes beBytes beNat)
open EngineRefinement
open FaultAgreement (cutOff_of_astray reference reference_steps)
open HandlerSimulation
open Lockstep (Confined Engine)
open RankGate.Client.Constants (be16 be32 be32_injective be64 be64_injective)
open RankGate.Crypto (Hashes)
open RankGate.Server.Config (Failure toBytes)

/-! On code shorter than 65536 bytes the client never leaves the range of a 16-bit address. -/

section Addresses

open Client.Vm

/-- Every address the machine holds fits in sixteen bits. -/
structure Short (c : CVm) : Prop where
  code : c.code.length < 65536
  ip : c.ip < 65536
  stack : ∀ a ∈ c.stack, a.toNat < 65536

theorem u8_short : Confined Short u8 := by
  intro c v c' hc h
  cases hop : c.code[c.ip]? with
  | none =>
    rw [client_u8_none hop] at h
    cases h
  | some op =>
    rw [client_u8_some hop] at h
    cases h
    obtain ⟨hlt, -⟩ := List.getElem?_eq_some_iff.mp hop
    have hcode := hc.code
    exact { hc with ip := by change c.ip + 1 < 65536; omega }

theorem u16_short : Confined Short u16 := by
  intro c v c' hc h
  by_cases hend : c.ip + 2 > c.code.length
  · rw [client_u16_error hend] at h
    cases h
  · rw [client_u16_ok hend] at h
    cases h
    have hcode := hc.code
    exact { hc with ip := by change c.ip + 2 < 65536; omega }

theorem u64_short : Confined Short u64 := by
  intro c v c' hc h
  by_cases hend : c.ip + 8 > c.code.length
  · rw [client_u64_error hend] at h
    cases h
  · rw [client_u64_ok hend] at h
    cases h
    have hcode := hc.code
    exact { hc with ip := by change c.ip + 8 < 65536; omega }

theorem getR_short (i : UInt8) : Confined Short (getR i) :=
  .get_bind fun _ => .dite (fun _ => .pure _) fun _ => .throw _

theorem setR_short (i : UInt8) (v : UInt64) : Confined Short (setR i v) :=
  .dite (fun _ => .modify fun _ hc => { hc with }) fun _ => .throw _

theorem getMem_short (r : UInt64) : Confined Short (getMem r) := .get_bind fun _ => .pure _

theorem setMem_short (r v : UInt64) : Confined Short (setMem r v) :=
  .modify fun _ hc => { hc with }

theorem cond_short (code : UInt8) : Confined Short (cond code) := by
  refine .get_bind fun s => ?_
  dsimp only
  split
  all_goals first | exact .pure _ | exact .throw _

theorem jump_short (addr : UInt16) :
    Confined Short (modify fun s => { s with ip := addr.toNat } : VmM Unit) :=
  .modify fun _ hc => { hc with ip := addr.toNat_lt }

private theorem operands3_short {k : UInt8 → UInt64 → UInt64 → VmM Unit}
    (hk : ∀ rd a b, Confined Short (k rd a b)) :
    Confined Short (do
      let rd ← u8; let ra ← u8; let rb ← u8
      let a ← getR ra; let b ← getR rb
      k rd a b) :=
  .bind u8_short fun rd => .bind u8_short fun ra => .bind u8_short fun rb =>
    .bind (getR_short ra) fun a => .bind (getR_short rb) fun b => hk rd a b

theorem hAlu3_short (op : UInt8) : Confined Short (hAlu3 op) :=
  operands3_short fun rd _ _ =>
    .ite (setR_short rd _) <| .ite (setR_short rd _) <| .ite (setR_short rd _) <|
      .ite (setR_short rd _) <| .ite (setR_short rd _) (setR_short rd _)

theorem hShift_short (op : UInt8) : Confined Short (hShift op) :=
  .bind u8_short fun rd => .bind u8_short fun ra => .bind u8_short fun _ =>
    .bind (getR_short ra) fun _ =>
      .ite (setR_short rd _) <| .ite (setR_short rd _) <| .ite (setR_short rd _) (setR_short rd _)

theorem hJcc_short (op : UInt8) : Confined Short (hJcc op) := by
  refine .bind u16_short fun addr => .get_bind fun s => ?_
  exact .bind (.modify fun _ hc => { hc with }) fun _ => .ite (jump_short addr) (.pure _)

theorem hCall_short : Confined Short hCall := by
  refine .bind u16_short fun addr => .modify fun c hc => ?_
  refine { hc with ip := addr.toNat_lt, stack := ?_ }
  intro a ha
  rcases List.mem_append.mp ha with ha | ha
  · exact hc.stack a ha
  · have hip := hc.ip
    rw [List.mem_singleton.mp ha, UInt64.toNat_ofNat_of_lt' (lt_trans hip (by decide))]
    exact hip

theorem hRet_short : Confined Short hRet := by
  intro c v c' hc h
  cases htop : c.stack.getLast? with
  | none =>
    rw [client_ret_none htop] at h
    cases h
  | some addr =>
    rw [client_ret_some htop] at h
    cases h
    exact { hc with
      ip := hc.stack addr (List.mem_of_getLast? htop)
      stack := fun a ha => hc.stack a (List.mem_of_mem_dropLast ha) }

theorem invoke_short (h : Handler) (op : UInt8) : Confined Short (h.invoke op) := by
  cases h with
  | hNop => exact .pure _
  | hMovRi => exact .bind u8_short fun rd => .bind u64_short fun imm => setR_short rd imm
  | hMovRr =>
    exact .bind u8_short fun rd => .bind u8_short fun rs => .bind (getR_short rs) (setR_short rd)
  | hLoad =>
    exact .bind u8_short fun rd => .bind u8_short fun areg => .bind (getR_short areg) fun r =>
      .bind (getMem_short r) (setR_short rd)
  | hStore =>
    exact .bind u8_short fun areg => .bind u8_short fun rs => .bind (getR_short rs) fun v =>
      .bind (getR_short areg) fun r => setMem_short r v
  | hAlu3 => exact hAlu3_short op
  | hNot =>
    exact .bind u8_short fun rd => .bind u8_short fun ra => .bind (getR_short ra) fun v =>
      setR_short rd _
  | hShift => exact hShift_short op
  | hCmp =>
    exact .bind u8_short fun ra => .bind u8_short fun rb => .bind (getR_short ra) fun a =>
      .bind (getR_short rb) fun b => .modify fun _ hc => { hc with }
  | hCmov =>
    exact .bind u8_short fun rd => .bind u8_short fun rs => .bind u8_short fun c =>
      .bind (cond_short c) fun _ => .ite (.bind (getR_short rs) (setR_short rd)) (.pure _)
  | hJmp => exact .bind u16_short jump_short
  | hJcc => exact hJcc_short op
  | hCall => exact hCall_short
  | hRet => exact hRet_short
  | hHash => exact operands3_short fun rd a b => setR_short rd _
  | hMix =>
    exact .bind u8_short fun rd => .bind u8_short fun ra => .bind (getR_short rd) fun acc =>
      .bind (getR_short ra) fun v => setR_short rd _
  | hHalt => exact .bind u8_short fun code => .modify fun _ hc => { hc with }
  | hUnknown => exact .modify fun _ hc => { hc with }

theorem step_short : Confined Short engine.step :=
  .bind u8_short fun op => .get_bind fun _ => invoke_short _ op

theorem run_short {n : Nat} {c c' : CVm} (hc : Short c) (h : engine.run n c = .ok ((), c')) :
    Short c' := by
  rcases Engine.run_ok h with ⟨k, -, hpath, -⟩ | ⟨u, hpath, -, rfl⟩
  · exact hpath.confined step_short hc
  · exact { hpath.confined step_short hc with }

end Addresses

section Bytes

/-- What `finish` hashes. -/
def clientState (c : CVm) : Bytes :=
  c.reg.toList.flatMap be64 ++ c.stack.flatMap be64 ++ [c.flags &&& 0xFF] ++
    be16 (UInt16.ofNat (c.ip &&& 0xFFFF)) ++ be32 c.path

theorem client_finish_hash (H : Hashes) (c : CVm) :
    (c.finish H).vmStateHash = H.blake2b (clientState c) [] 32 := rfl

/-- What `_finish` hashes; an integer that does not fit its field raises. -/
def serverState (p : PVm) : Except Failure Bytes := do
  let regs ← p.reg.mapM (toBytes 8)
  let stack ← p.stack.mapM (toBytes 8)
  return regs.flatten ++ stack.flatten ++ [UInt8.ofNat (p.flags &&& 0xFF)] ++
    beBytes 2 (p.ip &&& 0xFFFF) ++ beBytes 4 (p.path &&& Server.VmReference.m32)

theorem server_finish_hash {H : Hashes} {p : PVm} {r : Server.VmReference.VMResult}
    (h : p.finish H = .ok r) :
    ∃ state, serverState p = .ok state ∧ r.vmStateHash = H.blake2b state [] 32 := by
  obtain ⟨digest, -, h⟩ := Effects.except_bind_eq_ok h
  obtain ⟨regs, hregs, h⟩ := Effects.except_bind_eq_ok h
  obtain ⟨stack, hstack, h⟩ := Effects.except_bind_eq_ok h
  refine ⟨_, (Effects.except_bind_ok hregs).trans (Effects.except_bind_ok hstack), ?_⟩
  rw [← Except.ok.inj h]

@[simp] theorem length_be64 (v : UInt64) : (be64 v).length = 8 := rfl

@[simp] theorem length_flatMap_be64 (l : List UInt64) : (l.flatMap be64).length = l.length * 8 := by
  induction l with
  | nil => rfl
  | cons v l ih =>
    rw [List.flatMap_cons, List.length_append, ih, length_be64, List.length_cons]
    omega

theorem flatMap_be64_injective : Function.Injective fun l : List UInt64 => l.flatMap be64 := by
  intro l m h
  dsimp only at h
  induction l generalizing m with
  | nil =>
    have hlen := congrArg List.length h
    rw [length_flatMap_be64, length_flatMap_be64, List.length_nil] at hlen
    exact (List.length_eq_zero_iff.mp (by omega)).symm
  | cons v l ih =>
    cases m with
    | nil =>
      have hlen := congrArg List.length h
      simp at hlen
    | cons w m =>
      rw [List.flatMap_cons, List.flatMap_cons] at h
      obtain ⟨hv, hl⟩ := List.append_inj h rfl
      rw [be64_injective hv, ih hl]

end Bytes

structure Parts where
  mem : List Nat
  reg : List Nat
  stack : List Nat
  flags : Nat
  ip : Nat
  path : Nat

namespace Parts

/-- The memory left out, and of the instruction pointer all but sixteen bits. -/
def hashed (x : Parts) : Parts := { x with mem := [], ip := x.ip % 65536 }

theorem hashed_eq_iff {x y : Parts} : x.hashed = y.hashed ↔
    x.reg = y.reg ∧ x.stack = y.stack ∧ x.flags = y.flags ∧ x.ip % 65536 = y.ip % 65536 ∧
      x.path = y.path := by
  simp only [hashed, mk.injEq, true_and]

end Parts

def clientParts (c : CVm) : Parts where
  mem := c.mem.toList.map UInt64.toNat
  reg := c.reg.toList.map UInt64.toNat
  stack := c.stack.map UInt64.toNat
  flags := c.flags.toNat
  ip := c.ip
  path := c.path.toNat

def serverParts (p : PVm) : Parts := ⟨p.mem, p.reg, p.stack, p.flags, p.ip, p.path⟩

section Determined

private theorem words_inj {l m : List UInt64} : l.map UInt64.toNat = m.map UInt64.toNat ↔ l = m :=
  (List.map_injective_iff.mpr fun _ _ => UInt64.toNat_inj.mp).eq_iff

/-- The bytes are the same exactly when the hashed parts are. -/
theorem clientState_eq_iff (c d : CVm) :
    clientState c = clientState d ↔ (clientParts c).hashed = (clientParts d).hashed := by
  rw [Parts.hashed_eq_iff]
  simp only [clientParts, words_inj, UInt8.toNat_inj, UInt32.toNat_inj, Vector.toList_inj]
  have hflags (f : UInt8) : f &&& 0xFF = f := UInt8.and_neg_one
  have hip (n : Nat) : be16 (UInt16.ofNat (n &&& 0xFFFF)) = beBytes 2 (n % 65536) := by
    have hmask : n &&& 0xFFFF = n % 65536 := Nat.and_two_pow_sub_one_eq_mod n 16
    rw [Client.Constants.be16_eq, hmask, UInt16.toNat_ofNat_of_lt' (Nat.mod_lt _ (by decide))]
  simp only [clientState, hflags, hip]
  constructor
  · intro h
    obtain ⟨h, hpath⟩ := List.append_inj' h rfl
    obtain ⟨h, hip⟩ := List.append_inj' h (by simp)
    obtain ⟨h, hflags⟩ := List.append_inj' h rfl
    obtain ⟨hreg, hstack⟩ := List.append_inj h (by simp)
    refine ⟨?_, flatMap_be64_injective hstack, List.singleton_inj.mp hflags, ?_, ?_⟩
    · exact Vector.toList_inj.mp (flatMap_be64_injective hreg)
    · have hlow (n : Nat) : n % 65536 < 256 ^ 2 := Nat.mod_lt n (by decide)
      have hnat := congrArg beNat hip
      rwa [ByteCodec.beNat_beBytes (hlow c.ip), ByteCodec.beNat_beBytes (hlow d.ip)] at hnat
    · exact be32_injective hpath
  · rintro ⟨hreg, hstack, hflags, hip, hpath⟩
    rw [hreg, hstack, hflags, hip, hpath]

theorem parts_of_rel {B : Nat} {h : Bool} {c : CVm} {p : PVm} (hr : Rel B h c p) :
    serverParts p = clientParts c := by
  rw [serverParts, clientParts, hr.mem, hr.reg, hr.stack, hr.flags, hr.ip, hr.path]

theorem serverState_of_rel {B : Nat} {h : Bool} {c : CVm} {p : PVm} (hr : Rel B h c p) :
    serverState p = .ok (clientState c) := by
  rw [serverState, hr.reg, hr.stack]
  simp only [mapM_toBytes_words, bind, Except.bind, pure, Except.pure, Words.land_m32, hr.flags,
    hr.ip, hr.path, toNat_mod_path, ofNat_and_0xFF, clientState, List.flatMap_def,
    Client.Constants.be16_eq, Client.Constants.be32_eq, toNat_and_0xFFFF]

end Determined

section Final

variable {H : Hashes}

/-- A state in which the reference ends, within the step limit, on code a jump can reach all of. -/
def ServerFinal (H : Hashes) (p : PVm) : Prop :=
  ∃ (code : Bytes) (mem : Vector UInt64 64) (sessionNonce : Bytes), code.length < 65536 ∧
    Server.VmReference.engine.run Server.VmReference.maxSteps
      (reference H code mem sessionNonce) = .ok ((), p)

def ClientFinal (H : Hashes) (c : CVm) : Prop :=
  ∃ (code : Bytes) (mem : Vector UInt64 64) (sessionNonce : Bytes), code.length < 65536 ∧
    Client.Vm.engine.run Client.Vm.kMaxSteps (Client.Vm.VM.init H code mem sessionNonce) =
      .ok ((), c)

theorem clientFinal_ip {c : CVm} (h : ClientFinal H c) : c.ip < 65536 := by
  obtain ⟨code, mem, nonce, hcode, hrun⟩ := h
  have hinit : Short (Client.Vm.VM.init H code mem nonce) := by
    refine ⟨hcode, ?_, ?_⟩
    · change 0 < 65536
      decide
    · intro a ha
      cases ha
  exact (run_short hinit hrun).ip

theorem serverFinal_rel {p : PVm} (h : ServerFinal H p) :
    ∃ (B : Nat) (halted : Bool) (c : CVm), Rel B halted c p := by
  obtain ⟨code, mem, nonce, -, hrun⟩ := h
  have hinit := init_rel H code mem nonce
  rcases Engine.run_ok hrun with ⟨k, -, -, ht⟩ | ⟨u, hpath, hu, rfl⟩
  · obtain ⟨c, B, -, halted, hr⟩ := client_run_of_halted hinit hrun ht
    exact ⟨B, halted, c, hr⟩
  · have hmax : Server.VmReference.maxSteps = 199999 + 1 := by decide
    rw [hmax] at hpath
    obtain ⟨s, hfirst, hlive, hstep⟩ := hpath.split_last
    have hs : ¬ Overrun s := by
      intro ho
      obtain ⟨-, d, hd⟩ := overrun_stuck s ho
      rw [hd] at hstep
      cases hstep
    obtain ⟨c, -, halted, hr⟩ := path_agree hinit (by decide) hfirst hs
    have hh : halted = false := hr.haltedRight.symm.trans hlive
    subst hh
    have hagree := step_agree (by omega) (by decide) hr
    rw [hstep] at hagree
    cases hnext : Client.Vm.engine.step c with
    | error e =>
      -- only a cut-off immediate separates the two, and the state it leaves is related all the same
      have hcut := cutOff_of_astray (by omega) (by decide) hr hnext hstep
      obtain ⟨c', u', hu', hr'⟩ := reference_steps hr hcut
      rw [hstep, Except.ok.injEq, Prod.mk.injEq] at hu'
      obtain ⟨-, rfl⟩ := hu'
      exact ⟨_, _, _, runaway_rel hr'⟩
    | ok q =>
      rw [hnext] at hagree
      cases hagree with
      | ok _ hs' =>
        obtain ⟨halted, hr'⟩ := hs'
        exact ⟨_, _, _, runaway_rel hr'⟩

/-- Two final states of the reference have the same bytes exactly when their hashed parts agree. -/
theorem serverState_eq_iff {p q : PVm} (hp : ServerFinal H p) (hq : ServerFinal H q) :
    serverState p = serverState q ↔ (serverParts p).hashed = (serverParts q).hashed := by
  obtain ⟨_, _, c, hc⟩ := serverFinal_rel hp
  obtain ⟨_, _, d, hd⟩ := serverFinal_rel hq
  rw [serverState_of_rel hc, serverState_of_rel hd, Except.ok.injEq, parts_of_rel hc,
    parts_of_rel hd]
  exact clientState_eq_iff c d

end Final

namespace Parts

theorem eq_of_hashed {x y : Parts} (h : x.hashed = y.hashed) (hmem : x.mem = y.mem)
    (hip : x.ip = y.ip) : x = y := by
  obtain ⟨hreg, hstack, hflags, -, hpath⟩ := hashed_eq_iff.mp h
  cases x
  cases y
  simp only at hmem hreg hstack hflags hip hpath
  rw [hmem, hreg, hstack, hflags, hip, hpath]

/-- An encoding that determines the hashed parts and no more tells two states apart exactly when
what is left out agrees wherever the rest does. -/
theorem covered_iff {x y : Parts} {same : Prop} (h : same ↔ x.hashed = y.hashed) :
    (x ≠ y → ¬ same) ↔ (x.hashed = y.hashed → x.mem = y.mem ∧ x.ip = y.ip) := by
  constructor
  · intro hcover heq
    by_contra hne
    refine hcover ?_ (h.mpr heq)
    rintro rfl
    exact hne ⟨rfl, rfl⟩
  · intro hsame hne hbytes
    have heq := h.mp hbytes
    obtain ⟨hmem, hip⟩ := hsame heq
    exact hne (eq_of_hashed heq hmem hip)

end Parts

/-- Of two final states the bytes under the state hash tell every difference but these: memory is
not among them on either side, and of the reference's instruction pointer only sixteen bits are. -/
theorem stateHash_covers_iff (H : Hashes) :
    (∀ c : CVm, (c.finish H).vmStateHash = H.blake2b (clientState c) [] 32) ∧
    (∀ (p : PVm) r, p.finish H = .ok r →
      ∃ state, serverState p = .ok state ∧ r.vmStateHash = H.blake2b state [] 32) ∧
    (∀ p q, ServerFinal H p → ServerFinal H q →
      ((serverParts p ≠ serverParts q → serverState p ≠ serverState q) ↔
        ((serverParts p).hashed = (serverParts q).hashed → p.mem = q.mem ∧ p.ip = q.ip))) ∧
    (∀ c d, ClientFinal H c → ClientFinal H d →
      ((clientParts c ≠ clientParts d → clientState c ≠ clientState d) ↔
        ((clientParts c).hashed = (clientParts d).hashed → c.mem = d.mem))) := by
  refine ⟨client_finish_hash H, fun _ _ => server_finish_hash, ?_, ?_⟩
  · intro p q hp hq
    exact Parts.covered_iff (serverState_eq_iff hp hq)
  · intro c d hc hd
    refine (Parts.covered_iff (clientState_eq_iff c d)).trans ?_
    have hmem : (clientParts c).mem = (clientParts d).mem ↔ c.mem = d.mem := by
      simp only [clientParts, words_inj, Vector.toList_inj]
    rw [hmem]
    constructor
    · intro h heq
      exact (h heq).1
    · intro h heq
      obtain ⟨-, -, -, hip, -⟩ := Parts.hashed_eq_iff.mp heq
      have hc' : c.ip % 65536 = c.ip := Nat.mod_eq_of_lt (clientFinal_ip hc)
      have hd' : d.ip % 65536 = d.ip := Nat.mod_eq_of_lt (clientFinal_ip hd)
      refine ⟨h heq, ?_⟩
      calc
        c.ip = c.ip % 65536 := hc'.symm
        _ = d.ip % 65536 := hip
        _ = d.ip := hd'

section HaltAtOnce

private theorem step_halt {p : PVm} (hcode : p.code = [0xF0, 0]) (hip : p.ip = 0) :
    Server.VmReference.engine.step p =
      .ok ((), { p with ip := 2, haltOperand := 0, halted := true }) := by
  obtain ⟨code, mem, reg, stack, flags, ip, path, halted, operand, perm⟩ := p
  cases hcode
  cases hip
  exact ReferenceSteps.step_halt 0 rfl

private theorem run_halt (mem : Vector UInt64 64) :
    Server.VmReference.engine.run Server.VmReference.maxSteps (reference default [0xF0, 0] mem []) =
      .ok ((), { reference default [0xF0, 0] mem [] with
        ip := 2, haltOperand := 0, halted := true }) :=
  Engine.run_eq_of_path (.step rfl (step_halt rfl rfl) (.refl _)) (by decide) rfl

private theorem differ : (Vector.replicate 64 0 : Vector UInt64 64).toList.map UInt64.toNat ≠
    ((Vector.replicate 64 0).set 0 1).toList.map UInt64.toNat := by
  decide

end HaltAtOnce

/-- Two programs that halt at once, over memories that differ in the first word: the final states
differ and the bytes do not. -/
theorem stateHash_covers_counterexample :
    ¬ (∀ p q, ServerFinal default p → ServerFinal default q → serverParts p ≠ serverParts q →
        serverState p ≠ serverState q) ∧
      ¬ (∀ c d, ClientFinal default c → ClientFinal default d → clientParts c ≠ clientParts d →
        clientState c ≠ clientState d) := by
  constructor
  · intro h
    refine h _ _ ⟨_, Vector.replicate 64 0, [], by decide, run_halt _⟩
      ⟨_, (Vector.replicate 64 0).set 0 1, [], by decide, run_halt _⟩ ?_ rfl
    intro heq
    exact differ (congrArg Parts.mem heq)
  · intro h
    refine h _ _ ⟨_, Vector.replicate 64 0, [], by decide, client_run_halt default 0 _ []⟩
      ⟨_, (Vector.replicate 64 0).set 0 1, [], by decide, client_run_halt default 0 _ []⟩ ?_ rfl
    intro heq
    exact differ (congrArg Parts.mem heq)

end RankGate.Vm.StateHash
