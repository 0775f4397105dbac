/- Module: RankGate/Vm/FaultAgreement
   source: client/src/vm/vm.cpp (VM::u64, VM::run), server/app/vm_reference.py (VM._u64, VM.run)
   digest: Where the client engine throws and the reference returns: a cut-off immediate on the last step. -/

import RankGate.Vm.EngineRefinement

set_option autoImplicit false
set_option relaxedAutoImplicit false

namespace RankGate.Vm.FaultAgreement

open ByteCodec (Bytes beNat zeros)
open EngineRefinement
open HandlerSimulation
open Lockstep (Agree Engine Never)
open RankGate.Crypto (Hashes)
open RankGate.Server.Config (Failure)
open ReferenceSteps

/-- The instruction at `ip` is a MOV_RI into an existing register, and the end of the code cuts
its immediate off. -/
def CutOff (s : PVm) : Prop :=
  s.code[s.ip]? = some Client.Vm.Op.movRi ∧
    (∃ rd : UInt8, s.code[s.ip + 1]? = some rd ∧ rd.toNat < 16) ∧ s.code.length < s.ip + 10

section Step

variable {B : Nat} {c : CVm} {p u : PVm} {rd : UInt8}

theorem step_movRi_eq (hop : p.code[p.ip]? = some Client.Vm.Op.movRi)
    (hrd : p.code[p.ip + 1]? = some rd) : Server.VmReference.engine.step p =
      Server.VmReference.setReg rd.toNat (beNat ((p.code.drop (p.ip + 2)).take 8) &&&
        Server.VmReference.m64) { p with ip := p.ip + 10 } := by
  rw [step_some hop]
  refine (Effects.bind_ok (u8_some (s := { p with ip := p.ip + 1 }) hrd)).trans ?_
  exact Effects.bind_ok (u64_eq _)

theorem client_step_movRi (hr : Rel B false c p) (hop : p.code[p.ip]? = some Client.Vm.Op.movRi)
    (hrd : p.code[p.ip + 1]? = some rd) : Client.Vm.engine.step c =
      (Client.Vm.u64 >>= Client.Vm.setR rd) { c with ip := c.ip + 2 } := by
  rw [hr.code, hr.ip] at hop hrd
  rw [client_step_some _ hop (hr.dispatch _)]
  exact Effects.bind_ok (client_u8_some (c := { c with ip := c.ip + 1 }) hrd)

theorem client_throws (hr : Rel B false c p) (h : CutOff p) :
    Client.Vm.engine.step c = .error "vm: u64 oob" := by
  obtain ⟨hop, ⟨rd, hrd, -⟩, hend⟩ := h
  rw [client_step_movRi hr hop hrd]
  rw [hr.code, hr.ip] at hend
  exact Effects.bind_error (client_u64_error hend)

theorem reference_steps (hr : Rel B false c p) (h : CutOff p) :
    ∃ c' p', Server.VmReference.engine.step p = .ok ((), p') ∧ Rel (B + 10) false c' p' := by
  obtain ⟨hop, ⟨rd, hrd, hlt⟩, -⟩ := h
  have hreg : p.reg.length = 16 := by simp [hr.reg]
  generalize hv : beNat ((p.code.drop (p.ip + 2)).take 8) &&& Server.VmReference.m64 = v
  have hword : (UInt64.ofNat v).toNat = v := by
    refine UInt64.toNat_ofNat_of_lt' (show v < 2 ^ 64 from ?_)
    rw [← hv, Words.land_m64]
    exact Nat.mod_lt _ (by decide)
  refine ⟨{ c with ip := c.ip + 10, reg := c.reg.set rd.toNat (UInt64.ofNat v) },
    { p with ip := p.ip + 10, reg := p.reg.set rd.toNat v }, ?_, ?_⟩
  · rw [step_movRi_eq hop hrd, hv]
    exact setReg_ok (by rw [hreg]; exact hlt) v
  · refine { hr with ip := by simp [hr.ip], reg := ?_, ipLe := ?_, stackLe := ?_ }
    · simp only [Vector.toList_set, List.map_set, hr.reg, hword]
    · exact Nat.add_le_add_right hr.ipLe 10
    · exact fun a ha => (hr.stackLe a ha).trans (Nat.le_add_right B 10)

/-- Only a cut-off immediate stops the client and not the reference. -/
theorem cutOff_of_astray (hB : 2 ^ 16 ≤ B) (hB' : B + 10 < 2 ^ 64) (hr : Rel B false c p)
    {e : String} (hc : Client.Vm.engine.step c = .error e)
    (hp : Server.VmReference.engine.step p = .ok ((), u)) : CutOff p := by
  have hfetch : p.code[p.ip]? = c.code[c.ip]? := by rw [hr.code, hr.ip]
  cases hop : c.code[c.ip]? with
  | none =>
    rw [step_none (hfetch.trans hop)] at hp
    cases hp
  | some op =>
    by_cases hmov : op = Client.Vm.Op.movRi
    · subst hmov
      have hopp := hfetch.trans hop
      cases hrd : p.code[p.ip + 1]? with
      | none =>
        rw [step_some hopp] at hp
        have hfail := u8_none (s := { p with ip := p.ip + 1 }) hrd
        obtain ⟨_, _, hu, -⟩ := Effects.bind_eq_ok hp
        rw [hfail] at hu
        cases hu
      | some rd =>
        have hreg : p.reg.length = 16 := by simp [hr.reg]
        have hlt : rd.toNat < 16 := by
          by_contra hge
          rw [step_movRi_eq hopp hrd, setReg_error (by simp only [hreg]; omega)] at hp
          cases hp
        refine ⟨hopp, ⟨rd, hrd, hlt⟩, ?_⟩
        by_contra hlong
        rw [hr.code, hr.ip] at hlong
        rw [client_step_movRi hr hopp hrd, Effects.bind_ok (client_u64_ok (by exact hlong)),
          Client.Vm.setR, dif_pos (by exact hlt)] at hc
        cases hc
    · -- every other opcode is simulated without exception
      rw [client_step_some op hop (hr.dispatch op)] at hc
      rw [step_some (hfetch.trans hop)] at hp
      have hsim := dispatch_sim_of_ne (O := Never) (by omega) (by omega) hmov _ _ hr.next
      rw [hc, hp] at hsim
      cases hsim with
      | astray _ ho => exact ho.elim

end Step

section Run

variable (H : Hashes) (code : Bytes) (mem : Vector UInt64 64) (sessionNonce : Bytes)

def reference : PVm :=
  Server.VmReference.VM.init H code (mem.toList.map UInt64.toNat) sessionNonce

/-- The run reaches a cut-off immediate just when its last step is due. -/
def LastStepCutOff : Prop :=
  ∃ s, Engine.Path Server.VmReference.engine (Server.VmReference.maxSteps - 1)
    (reference H code mem sessionNonce) s ∧ s.halted = false ∧ CutOff s

private theorem maxSteps_eq : Server.VmReference.maxSteps - 1 + 1 = Server.VmReference.maxSteps :=
  by decide

variable {H code mem sessionNonce}

theorem not_overrun {s : PVm} (h : CutOff s) : ¬ Overrun s := by
  rintro ⟨hip, -⟩
  obtain ⟨hlt, -⟩ := List.getElem?_eq_some_iff.mp h.1
  omega

theorem client_run_throws (h : LastStepCutOff H code mem sessionNonce) :
    (Client.Vm.VM.init H code mem sessionNonce).run H = .error "vm: u64 oob" := by
  obtain ⟨s, hpath, hlive, hcut⟩ := h
  obtain ⟨c, hclient, halted, hr⟩ := path_agree (init_rel H code mem sessionNonce) (by decide)
    hpath (not_overrun hcut)
  have hh : halted = false := hr.haltedRight.symm.trans hlive
  subst hh
  have hrun : Client.Vm.engine.run (Server.VmReference.maxSteps - 1 + 1)
      (Client.Vm.VM.init H code mem sessionNonce) = .error "vm: u64 oob" :=
    Engine.run_path_error hclient hr.haltedLeft (client_throws hr hcut)
  rw [maxSteps_eq] at hrun
  exact Effects.except_bind_error hrun

theorem reference_run_returns (h : LastStepCutOff H code mem sessionNonce) :
    ∃ r, (reference H code mem sessionNonce).run H = .ok r := by
  obtain ⟨s, hpath, hlive, hcut⟩ := h
  obtain ⟨c, -, halted, hr⟩ := path_agree (init_rel H code mem sessionNonce) (by decide) hpath
    (not_overrun hcut)
  have hh : halted = false := hr.haltedRight.symm.trans hlive
  subst hh
  obtain ⟨c', p', hstep, hr'⟩ := reference_steps hr hcut
  have hrun : Server.VmReference.engine.run (Server.VmReference.maxSteps - 1 + 1)
      (reference H code mem sessionNonce) = .ok ((), Server.VmReference.engine.runaway p') :=
    Engine.run_path_runaway (hpath.trans (.step hlive hstep (.refl p'))) hr'.haltedRight
  rw [maxSteps_eq] at hrun
  exact ⟨_, (run_eq_finish H hrun).trans (finish_eq H (runaway_rel hr'))⟩

/-- A fault of the client that the reference does not share comes from that one place. -/
theorem lastStepCutOff_of_astray {e : String} {r : Server.VmReference.VMResult}
    (hc : (Client.Vm.VM.init H code mem sessionNonce).run H = .error e)
    (hp : (reference H code mem sessionNonce).run H = .ok r) :
    LastStepCutOff H code mem sessionNonce := by
  have hclient : ∀ t, Client.Vm.engine.run Client.Vm.kMaxSteps
      (Client.Vm.VM.init H code mem sessionNonce) ≠ .ok ((), t) := by
    intro t ht
    rw [Client.Vm.VM.run, ht] at hc
    cases hc
  obtain ⟨⟨⟨⟩, t⟩, hrun, -⟩ := Effects.except_bind_eq_ok hp
  have hinit := init_rel H code mem sessionNonce
  rcases Engine.run_ok hrun with ⟨k, -, -, ht⟩ | ⟨u, hpath, hu, -⟩
  · obtain ⟨c', -, hrun', -⟩ := client_run_of_halted hinit hrun ht
    exact absurd hrun' (hclient c')
  · rw [← maxSteps_eq] at hpath
    obtain ⟨s, hfirst, hlive, hstep⟩ := hpath.split_last
    have hs : ¬ Overrun s := by
      intro ho
      obtain ⟨-, d, hd⟩ := overrun_stuck s ho
      rw [hd] at hstep
      cases hstep
    obtain ⟨c, hsteps, halted, hr⟩ := path_agree hinit (by decide) hfirst hs
    have hh : halted = false := hr.haltedRight.symm.trans hlive
    subst hh
    refine ⟨s, hfirst, hlive, ?_⟩
    cases hstep' : Client.Vm.engine.step c with
    | error d => exact cutOff_of_astray (by omega) (by decide) hr hstep' hstep
    | ok q =>
      obtain ⟨⟨⟩, c'⟩ := q
      have hlast : Client.Vm.engine.run (Server.VmReference.maxSteps - 1 + 1 + 0)
          (Client.Vm.VM.init H code mem sessionNonce) = Client.Vm.engine.run 0 c' :=
        Engine.run_path (hsteps.trans (.step hr.haltedLeft hstep' (.refl c'))) 0
      rw [Nat.add_zero, maxSteps_eq] at hlast
      exact absurd hlast (hclient _)

end Run

/-- Whenever the client engine throws, the reference raises: exactly unless the last step the
limit allows is a MOV_RI whose immediate the code cuts off. -/
theorem reference_faults_iff (H : Hashes) (code : Bytes) (mem : Vector UInt64 64)
    (sessionNonce : Bytes) :
    ((∃ e, (Client.Vm.VM.init H code mem sessionNonce).run H = .error e) →
        ∃ e, (reference H code mem sessionNonce).run H = .error e) ↔
      ¬ LastStepCutOff H code mem sessionNonce := by
  constructor
  · intro h hcut
    obtain ⟨e, he⟩ := h ⟨_, client_run_throws hcut⟩
    obtain ⟨r, hr⟩ := reference_run_returns hcut
    rw [he] at hr
    cases hr
  · rintro h ⟨e, he⟩
    cases hp : (reference H code mem sessionNonce).run H with
    | error d => exact ⟨d, rfl⟩
    | ok r => exact absurd (lastStepCutOff_of_astray he hp) h

section Nops

/-- No-operations, then a MOV_RI r0 without its immediate. -/
def nops (n : Nat) : Bytes := List.replicate n Client.Vm.Op.nop ++ [Client.Vm.Op.movRi, 0]

theorem nops_get {k n : Nat} (h : k < n) : (nops n)[k]? = some Client.Vm.Op.nop := by
  rw [nops, List.getElem?_append_left (by simpa using h), List.getElem?_replicate, if_pos h]

theorem nops_movRi (n : Nat) : (nops n)[n]? = some Client.Vm.Op.movRi ∧
    (nops n)[n + 1]? = some 0 := by
  constructor <;> rw [nops, List.getElem?_append_right (by simp)] <;> simp

theorem path_nops {p : PVm} {k n : Nat} (hcode : p.code = nops n) (hlive : p.halted = false)
    (hip : p.ip = 0) (hk : k ≤ n) :
    Engine.Path Server.VmReference.engine k p { p with ip := k } := by
  induction k with
  | zero =>
    have hstart : { p with ip := 0 } = p := by rw [← hip]
    rw [hstart]
    exact .refl p
  | succ k ih =>
    refine (ih (Nat.le_of_succ_le hk)).trans (.step hlive ?_ (.refl _))
    exact step_some (p := { p with ip := k }) (by rw [hcode]; exact nops_get hk)

theorem lastStepCutOff_nops (H : Hashes) (mem : Vector UInt64 64) (sessionNonce : Bytes) {n : Nat}
    (hn : n = Server.VmReference.maxSteps - 1) : LastStepCutOff H (nops n) mem sessionNonce := by
  have hcut : CutOff { reference H (nops n) mem sessionNonce with ip := n } := by
    obtain ⟨hop, hrd⟩ := nops_movRi n
    refine ⟨hop, ⟨0, hrd, by decide⟩, ?_⟩
    change (nops n).length < n + 10
    rw [nops, List.length_append, List.length_replicate]
    exact Nat.add_lt_add_left (by decide) n
  have hpath : Engine.Path Server.VmReference.engine n (reference H (nops n) mem sessionNonce)
      { reference H (nops n) mem sessionNonce with ip := n } := path_nops rfl rfl rfl (Nat.le_refl n)
  exact ⟨_, hn ▸ hpath, rfl, hcut⟩

end Nops

/-- There the client throws and the reference returns. -/
theorem reference_faults_counterexample :
    (Client.Vm.VM.init default (nops 199999) (Vector.replicate 64 0) []).run default =
        .error "vm: u64 oob" ∧
      ∃ r, (reference default (nops 199999) (Vector.replicate 64 0) []).run default = .ok r := by
  have hcut := lastStepCutOff_nops default (Vector.replicate 64 0) [] (n := 199999) (by decide)
  exact ⟨client_run_throws hcut, reference_run_returns hcut⟩

end RankGate.Vm.FaultAgreement
