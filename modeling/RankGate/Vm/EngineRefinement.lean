/- Module: RankGate/Vm/EngineRefinement
   source: client/src/vm/vm.cpp, server/app/vm_reference.py (dispatch, main loop, finish)
   digest: The client engine refines the reference engine: steps, runs, and the four results. -/

import RankGate.Vm.HandlerSimulation

set_option autoImplicit false
set_option relaxedAutoImplicit false

namespace RankGate.Vm.EngineRefinement

open ByteCodec (Bytes beBytes)
open RankGate.Crypto (Hashes)
open RankGate.Server.Config (Failure)
open Lockstep (Agree Engine)
open HandlerSimulation
open ReferenceSteps (u8_some u8_none)

variable {B : Nat}

section Step

theorem client_step_some {c : CVm} (op : UInt8) (h : c.code[c.ip]? = some op)
    (hd : c.table[c.perm[op.toFin]] = handlerOf op) :
    Client.Vm.engine.step c = (handlerOf op).invoke op { c with ip := c.ip + 1 } := by
  rw [← hd]
  exact Effects.bind_ok (client_u8_some h)

theorem step_some {p : PVm} {op : UInt8} (h : p.code[p.ip]? = some op) :
    Server.VmReference.engine.step p =
      Server.VmReference.exec op.toNat { p with ip := p.ip + 1 } :=
  Effects.bind_ok (u8_some h)

theorem step_none {p : PVm} (h : p.code[p.ip]? = none) :
    Server.VmReference.engine.step p = .error .indexError :=
  Effects.bind_error (u8_none h)

/-- One step: the permuted dispatch selects the handler of the fetched opcode. -/
theorem step_agree (hB : 2 ^ 16 ≤ B) (hB' : B + 10 < 2 ^ 64) {c : CVm} {p : PVm}
    (hr : Rel B false c p) :
    Agree Overrun Any (Settled (B + 10)) (Client.Vm.engine.step c)
      (Server.VmReference.engine.step p) := by
  have hfetch : p.code[p.ip]? = c.code[c.ip]? := by rw [hr.code, hr.ip]
  cases hc : c.code[c.ip]? with
  | none =>
    rw [step_none (hfetch.trans hc), show Client.Vm.engine.step c = .error "vm: ip out of range"
      from Effects.bind_error (client_u8_none hc)]
    exact .stop _ _
  | some op =>
    rw [client_step_some op hc (hr.dispatch op), step_some (hfetch.trans hc)]
    exact dispatch_sim (by omega) (by omega) op _ _ hr.next

theorem overrun_stuck (p : PVm) (h : Overrun p) :
    Server.VmReference.engine.halted p = false ∧
      ∃ e, Server.VmReference.engine.step p = .error e :=
  ⟨h.2, .indexError, step_none (List.getElem?_eq_none h.1.le)⟩

theorem runaway_rel {h : Bool} {c : CVm} {p : PVm} (hr : Rel B h c p) :
    Rel B h (Client.Vm.engine.runaway c) (Server.VmReference.engine.runaway p) :=
  { hr with haltOperand := rfl }

end Step

section Run

theorem handlerPermutation_injective (H : Hashes) (sessionNonce : Bytes) :
    Function.Injective (Client.Vm.handlerPermutation H sessionNonce).get := by
  rw [Client.Vm.handlerPermutation]
  exact Shuffle.swapAll_finRange_injective _ _ _

theorem dispatch_direct {perm : Vector (Fin 256) 256}
    (h : Function.Injective perm.get) (op : UInt8) :
    (Client.Vm.buildDispatchTable perm)[perm[op.toFin]] = handlerOf op := by
  rw [Client.Vm.buildDispatchTable, handlerOf]
  generalize (Client.Vm.dispatchSets.map fun p => (p.1.toFin, p.2)) = sets
  exact Shuffle.fillTable_get h .hUnknown sets op.toFin

theorem init_dispatch (H : Hashes) (code : Bytes) (mem : Vector UInt64 64) (sessionNonce : Bytes)
    (op : UInt8) :
    (Client.Vm.VM.init H code mem sessionNonce).table[
      (Client.Vm.VM.init H code mem sessionNonce).perm[op.toFin]] = handlerOf op := by
  simp only [Client.Vm.VM.init]
  exact dispatch_direct (handlerPermutation_injective H sessionNonce) op

theorem init_rel (H : Hashes) (code : Bytes) (mem : Vector UInt64 64) (sessionNonce : Bytes) :
    Rel 0 false (Client.Vm.VM.init H code mem sessionNonce)
      (Server.VmReference.VM.init H code (mem.toList.map UInt64.toNat) sessionNonce) where
  code := rfl
  mem := rfl
  reg := by simp [Client.Vm.VM.init, Server.VmReference.VM.init, Server.Config.vmNumRegs]
  stack := rfl
  flags := rfl
  ip := rfl
  path := rfl
  haltedLeft := rfl
  haltedRight := rfl
  haltOperand := rfl
  dispatch := init_dispatch H code mem sessionNonce
  ipLe := Nat.le_refl 0
  stackLe := by simp [Client.Vm.VM.init]

theorem settled_halted {c : CVm} {p : PVm} (h : Settled B c p) :
    Client.Vm.engine.halted c = Server.VmReference.engine.halted p := by
  obtain ⟨h, hr⟩ := h
  exact hr.haltedLeft.trans hr.haltedRight.symm

theorem settled_step {k : Nat} {c : CVm} {p : PVm} (hk : k < 200000)
    (h : Settled (2 ^ 16 + 10 * k) c p) (live : Client.Vm.engine.halted c = false) :
    Agree Overrun Any (Settled (2 ^ 16 + 10 * (k + 1))) (Client.Vm.engine.step c)
      (Server.VmReference.engine.step p) := by
  obtain ⟨h, hr⟩ := h
  have hh : h = false := hr.haltedLeft.symm.trans live
  subst hh
  exact step_agree (B := 2 ^ 16 + 10 * k) (by omega) (by omega) hr

/-- Runs from related states agree; the one exception is an overrun on the very last step. -/
theorem run_agree {c : CVm} {p : PVm} (hr : Rel 0 false c p) :
    Agree (fun t => ∃ u, Overrun u ∧ t = Server.VmReference.engine.runaway u) Any
      (fun c' p' => ∃ B, Settled B c' p')
      (Client.Vm.engine.run Client.Vm.kMaxSteps c)
      (Server.VmReference.engine.run Server.VmReference.maxSteps p) := by
  have hrun := Engine.run_agree 200000 (E := Client.Vm.engine) (F := Server.VmReference.engine)
    (S := fun k => Settled (2 ^ 16 + 10 * k)) (O := Overrun) (fun _ _ _ => settled_halted)
    (fun _ _ _ => settled_step) overrun_stuck (fun k c p ⟨h, hr⟩ => ⟨h, runaway_rel hr⟩) 200000 0 c
    p (Nat.le_refl _) ⟨false, hr.weaken (Nat.zero_le _)⟩
  exact hrun.mono (fun _ ho => ho) (fun _ _ _ => trivial) fun _ _ ⟨l, _, hs⟩ => ⟨_, hs⟩

theorem path_agree {c : CVm} {p t : PVm} (hr : Rel 0 false c p) {l : Nat} (hl : l ≤ 200000)
    (hpath : Engine.Path Server.VmReference.engine l p t) (ht : ¬ Overrun t) :
    ∃ c', Engine.Path Client.Vm.engine l c c' ∧ Settled (2 ^ 16 + 10 * l) c' t := by
  have h := Engine.path_agree 200000 (E := Client.Vm.engine) (F := Server.VmReference.engine)
    (S := fun k => Settled (2 ^ 16 + 10 * k)) (O := Overrun) (k := 0) (fun _ _ _ => settled_halted)
    (fun _ _ _ => settled_step) overrun_stuck (by omega) ⟨false, hr.weaken (Nat.zero_le _)⟩ hpath ht
  rwa [Nat.zero_add] at h

theorem client_run_of_halted {c : CVm} {p t : PVm} (hr : Rel 0 false c p)
    (hrun : Server.VmReference.engine.run Server.VmReference.maxSteps p = .ok ((), t))
    (ht : t.halted = true) :
    ∃ c' B, Client.Vm.engine.run Client.Vm.kMaxSteps c = .ok ((), c') ∧ Settled B c' t := by
  have h := run_agree hr
  rw [hrun] at h
  generalize hx : Client.Vm.engine.run Client.Vm.kMaxSteps c = x at h
  cases h with
  | @ok _ _ s _ _ hs =>
    obtain ⟨B, hs⟩ := hs
    exact ⟨s, B, rfl, hs⟩
  | astray e ho =>
    obtain ⟨u, hu, rfl⟩ := ho
    exact absurd ht (by simp [Server.VmReference.engine, hu.2])

end Run

section Finish

/-- A client result, read on unbounded integers. -/
def widen (r : Client.Vm.VMResult) : Server.VmReference.VMResult :=
  ⟨r.vmDigest, r.vmStateHash, r.vmPathId.toNat, r.vmHaltCode.toNat⟩

theorem toBytes_word (v : UInt64) :
    Server.Config.toBytes 8 v.toNat = .ok (Client.Constants.be64 v) := by
  rw [Server.Config.toBytes_eq v.toNat_lt, Client.Constants.be64_eq]

theorem mapM_toBytes_words (l : List UInt64) :
    (l.map UInt64.toNat).mapM (Server.Config.toBytes 8) =
      .ok (l.map Client.Constants.be64) := by
  rw [Effects.mapM_eq_ok_iff, List.forall₂_map_left_iff, List.forall₂_map_right_iff,
    List.forall₂_same]
  exact fun v _ => toBytes_word v

theorem ofNat_and_0xFF (f : UInt8) : UInt8.ofNat (f.toNat &&& 0xFF) = f &&& 0xFF := by
  rw [show (0xFF : Nat) = (0xFF : UInt8).toNat from rfl, ← UInt8.toNat_and, UInt8.ofNat_toNat]

theorem toNat_and_0xFFFF (n : Nat) : (UInt16.ofNat (n &&& 0xFFFF)).toNat = n &&& 0xFFFF :=
  UInt16.toNat_ofNat_of_lt' (lt_of_le_of_lt Nat.and_le_right (by decide))

theorem toNat_mod_path (v : UInt32) : v.toNat % 2 ^ 32 = v.toNat := Nat.mod_eq_of_lt v.toNat_lt

theorem finish_eq (H : Hashes) {h : Bool} {c : CVm} {p : PVm} (hr : Rel B h c p) :
    p.finish H = .ok (widen (c.finish H)) := by
  have hdigest : (p.reg.drop 12).take 4 = ((c.reg.toList.drop 12).take 4).map UInt64.toNat := by
    rw [hr.reg, List.map_take, List.map_drop]
  have hcode : (c.haltOperand.toNat ^^^ (c.path.toNat &&& 0xFF)) % 2 ^ 32 =
      ((c.haltOperand.toUInt32 ^^^ (c.path &&& 0xFF)) &&& 0xFFFFFFFF).toNat := by
    have hmask : (0xFFFFFFFF : UInt32).toNat = 2 ^ 32 - 1 := rfl
    rw [UInt32.toNat_and, hmask, Nat.and_two_pow_sub_one_eq_mod, UInt32.toNat_xor,
      UInt32.toNat_and, UInt8.toNat_toUInt32]
    rfl
  rw [Server.VmReference.VM.finish, hdigest, hr.reg, hr.stack]
  simp only [mapM_toBytes_words, bind, Except.bind, pure, Except.pure, Words.land_m32, hr.flags,
    hr.ip, hr.path, hr.haltOperand, toNat_mod_path, ofNat_and_0xFF, hcode, widen,
    Client.Vm.VM.finish, List.flatMap_def, Client.Constants.be16_eq, Client.Constants.be32_eq,
    toNat_and_0xFFFF]

end Finish

/-- Client and reference runs of one bytecode on one session: whatever the client returns, the
reference returns as well. -/
theorem client_run_refines_reference (H : Hashes) (code usernameNorm licenseStruct serverRandom
    sessionId transcriptPrefix sessionNonce : Bytes) (r : Client.Vm.VMResult)
    (h : Client.Vm.runBytecode H code usernameNorm licenseStruct serverRandom sessionId
      transcriptPrefix sessionNonce = .ok r) :
    ∃ r', Server.VmReference.runBytecode H code usernameNorm licenseStruct serverRandom sessionId
        transcriptPrefix sessionNonce = .ok r' ∧
      r'.vmDigest = r.vmDigest ∧ r'.vmStateHash = r.vmStateHash ∧
      r'.vmPathId = r.vmPathId.toNat ∧ r'.vmHaltCode = r.vmHaltCode.toNat := by
  rw [Client.Vm.runBytecode, Client.Vm.VM.run] at h
  rw [Server.VmReference.runBytecode, Server.VmReference.VM.run, ← Words.packInputs_toNat]
  have hrun := run_agree (init_rel H code (Client.Vm.packInputs H usernameNorm licenseStruct
    serverRandom sessionId transcriptPrefix) sessionNonce)
  generalize Client.Vm.engine.run _ _ = x at h hrun
  generalize Server.VmReference.engine.run _ _ = y at hrun ⊢
  cases hrun with
  | @ok _ _ s t _ hs =>
    obtain ⟨B, halted, hr⟩ := hs
    have hret : s.finish H = r := Except.ok.inj h
    refine ⟨widen r, ?_, rfl, rfl, rfl, rfl⟩
    rw [← hret]
    exact finish_eq H hr
  | stop e d => cases h
  | astray e ho => cases h

private theorem client_step_halt {c : CVm} {code : UInt8}
    (hcode : c.code = [Client.Vm.Op.halt, code]) (hip : c.ip = 0)
    (hd : ∀ op : UInt8, c.table[c.perm[op.toFin]] = handlerOf op) :
    Client.Vm.engine.step c =
      .ok ((), { c with ip := 2, haltOperand := code, halted := true }) := by
  rw [client_step_some Client.Vm.Op.halt (by rw [hcode, hip]; rfl) (hd _)]
  refine (Effects.bind_ok (client_u8_some (v := code) ?_)).trans ?_
  · simp [hcode, hip]
  · simp only [modify, modifyGet, MonadStateOf.modifyGet, StateT.modifyGet, pure, Except.pure, hip]

theorem client_run_halt (H : Hashes) (code : UInt8) (mem : Vector UInt64 64)
    (sessionNonce : Bytes) :
    Client.Vm.engine.run Client.Vm.kMaxSteps
        (Client.Vm.VM.init H [Client.Vm.Op.halt, code] mem sessionNonce) =
      .ok ((), { Client.Vm.VM.init H [Client.Vm.Op.halt, code] mem sessionNonce with
        ip := 2, haltOperand := code, halted := true }) :=
  Engine.run_eq_of_path (k := 1)
    (.step rfl (client_step_halt rfl rfl (init_dispatch H _ mem sessionNonce)) (.refl _))
    (by decide) rfl

end RankGate.Vm.EngineRefinement
