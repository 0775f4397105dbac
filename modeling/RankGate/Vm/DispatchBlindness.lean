/- Module: RankGate/Vm/DispatchBlindness
   source: client/src/vm/vm.cpp (handler_permutation, build_dispatch_table, VM::run)
   digest: The session's permutation moves the handlers around and changes nothing they do. -/

import RankGate.Crypto.Keystream
import RankGate.Foundation.Blind
import RankGate.Vm.EngineRefinement

set_option autoImplicit false
set_option relaxedAutoImplicit false

namespace RankGate.Vm.DispatchBlindness

open ByteCodec (Bytes)
open Lockstep (Blind Engine)
open RankGate.Client.Vm
open RankGate.Crypto (Hashes)
open EngineRefinement
open HandlerSimulation (handlerOf)

/-- The machine with another permutation and the table built for it. -/
def redispatch (perm : Vector (Fin 256) 256) (s : VM) : VM :=
  { s with perm, table := buildDispatchTable perm }

section Handlers

variable {perm : Vector (Fin 256) 256}

theorem u8_blind : Blind (redispatch perm) u8 := by
  refine .get_bind (fun s => rfl) fun s => ?_
  cases s.code[s.ip]? with
  | none => exact .throw _
  | some v => exact .bind (.modify fun s => rfl) fun _ => .pure v

theorem u16_blind : Blind (redispatch perm) u16 := by
  refine .get_bind (fun s => rfl) fun s => .ite ?_ ?_
  · exact .bind (.throw _) fun _ => .bind (.modify fun s => rfl) fun _ => .pure _
  · exact .bind (.modify fun s => rfl) fun _ => .pure _

theorem u64_blind : Blind (redispatch perm) u64 := by
  refine .get_bind (fun s => rfl) fun s => .ite ?_ ?_
  · exact .bind (.throw _) fun _ => .bind (.modify fun s => rfl) fun _ => .pure _
  · exact .bind (.modify fun s => rfl) fun _ => .pure _

theorem getR_blind (i : UInt8) : Blind (redispatch perm) (getR i) :=
  .get_bind (fun _ => rfl) fun _ => .dite (fun _ => .pure _) fun _ => .throw _

theorem setR_blind (i : UInt8) (v : UInt64) : Blind (redispatch perm) (setR i v) :=
  .dite (fun _ => .modify fun _ => rfl) fun _ => .throw _

theorem getMem_blind (r : UInt64) : Blind (redispatch perm) (getMem r) :=
  .get_bind (fun _ => rfl) fun _ => .pure _

theorem setMem_blind (r v : UInt64) : Blind (redispatch perm) (setMem r v) := .modify fun _ => rfl

theorem cond_blind (code : UInt8) : Blind (redispatch perm) (cond code) := by
  refine .get_bind (fun s => rfl) fun s => ?_
  dsimp only
  split
  all_goals first | exact .pure _ | exact .throw _

theorem foldPath_blind (taken : Bool) : Blind (redispatch perm) (foldPath taken) :=
  .modify fun _ => rfl

private theorem operands3 {k : UInt8 → UInt64 → UInt64 → VmM Unit}
    (hk : ∀ rd a b, Blind (redispatch perm) (k rd a b)) :
    Blind (redispatch perm) (do
      let rd ← u8; let ra ← u8; let rb ← u8
      let a ← getR ra; let b ← getR rb
      k rd a b) :=
  .bind u8_blind fun rd => .bind u8_blind fun ra => .bind u8_blind fun rb =>
    .bind (getR_blind ra) fun a => .bind (getR_blind rb) fun b => hk rd a b

theorem hAlu3_blind (op : UInt8) : Blind (redispatch perm) (hAlu3 op) :=
  operands3 fun rd _ _ =>
    .ite (setR_blind rd _) <| .ite (setR_blind rd _) <| .ite (setR_blind rd _) <|
      .ite (setR_blind rd _) <| .ite (setR_blind rd _) (setR_blind rd _)

theorem hShift_blind (op : UInt8) : Blind (redispatch perm) (hShift op) :=
  .bind u8_blind fun rd => .bind u8_blind fun ra => .bind u8_blind fun _ =>
    .bind (getR_blind ra) fun _ =>
      .ite (setR_blind rd _) <| .ite (setR_blind rd _) <| .ite (setR_blind rd _) (setR_blind rd _)

theorem hJcc_blind (op : UInt8) : Blind (redispatch perm) (hJcc op) := by
  refine .bind u16_blind fun addr => .get_bind (fun _ => rfl) fun s => ?_
  exact .bind (foldPath_blind _) fun _ => .ite (.modify fun _ => rfl) (.pure _)

theorem hRet_blind : Blind (redispatch perm) hRet := by
  refine .get_bind (fun _ => rfl) fun s => ?_
  cases s.stack.getLast? with
  | none => exact .throw _
  | some addr => exact .modify fun _ => rfl

/-- No handler looks at the permutation or the table. -/
theorem invoke_blind (h : Handler) (op : UInt8) : Blind (redispatch perm) (h.invoke op) := by
  cases h with
  | hNop => exact .pure _
  | hMovRi => exact .bind u8_blind fun rd => .bind u64_blind fun imm => setR_blind rd imm
  | hMovRr =>
    exact .bind u8_blind fun rd => .bind u8_blind fun rs => .bind (getR_blind rs) (setR_blind rd)
  | hLoad =>
    exact .bind u8_blind fun rd => .bind u8_blind fun areg => .bind (getR_blind areg) fun r =>
      .bind (getMem_blind r) (setR_blind rd)
  | hStore =>
    exact .bind u8_blind fun areg => .bind u8_blind fun rs => .bind (getR_blind rs) fun v =>
      .bind (getR_blind areg) fun r => setMem_blind r v
  | hAlu3 => exact hAlu3_blind op
  | hNot =>
    exact .bind u8_blind fun rd => .bind u8_blind fun ra => .bind (getR_blind ra) fun v =>
      setR_blind rd _
  | hShift => exact hShift_blind op
  | hCmp =>
    exact .bind u8_blind fun ra => .bind u8_blind fun rb => .bind (getR_blind ra) fun a =>
      .bind (getR_blind rb) fun b => .modify fun _ => rfl
  | hCmov =>
    exact .bind u8_blind fun rd => .bind u8_blind fun rs => .bind u8_blind fun c =>
      .bind (cond_blind c) fun _ => .ite (.bind (getR_blind rs) (setR_blind rd)) (.pure _)
  | hJmp => exact .bind u16_blind fun addr => .modify fun _ => rfl
  | hJcc => exact hJcc_blind op
  | hCall => exact .bind u16_blind fun addr => .modify fun _ => rfl
  | hRet => exact hRet_blind
  | hHash => exact operands3 fun rd a b => setR_blind rd _
  | hMix =>
    exact .bind u8_blind fun rd => .bind u8_blind fun ra => .bind (getR_blind rd) fun acc =>
      .bind (getR_blind ra) fun v => setR_blind rd _
  | hHalt => exact .bind u8_blind fun code => .modify fun _ => rfl
  | hUnknown => exact .modify fun _ => rfl

end Handlers

section Permutation

variable (H : Hashes) (sessionNonce : Bytes)

theorem handlerPermutation_perm :
    (handlerPermutation H sessionNonce).toList.Perm (List.finRange 256) :=
  Shuffle.swapAll_finRange_perm _ _ _

theorem reference_permutation_eq : Server.VmReference.handlerPermutation H sessionNonce =
    (handlerPermutation H sessionNonce).toList.map Fin.val := by
  have hseed : (H.blake2b (ByteCodec.ascii "RG6-VM-PERM/v6" ++ sessionNonce) [] 32).length ≤ 64 := by
    rw [H.length_blake2b _ [] 32 (Nat.zero_le 64) (by decide) (by decide)]
    decide
  rw [handlerPermutation, Server.VmReference.handlerPermutation, Client.Constants.vmPermLabel,
    Client.Constants.vmPermKsDomain, Client.Constants.rgObf_eq, Client.Constants.rgObf_eq,
    Crypto.Keystream.blake2bCtrKeystream_eq H hseed]
  refine Eq.trans ?_ (Shuffle.map_swapAll Fin.val 0 _ _ ?_ _).symm
  · have hrange : (Vector.finRange 256).toList.map Fin.val = List.range 256 := by
      rw [Vector.finRange, Vector.toList_ofFn]
      exact (congrArg _ (List.ofFn_id 256)).trans List.map_coe_finRange_eq_range
    rw [hrange]
  · intro i hi
    rw [List.mem_reverse, List.mem_range'_1] at hi
    exact ⟨by omega, lt_of_lt_of_le (Nat.mod_lt _ (Nat.succ_pos i)) (by omega)⟩

end Permutation

section Run

/-- The engine with a direct switch in place of the table. -/
def direct : Engine VM String where
  halted := VM.halted
  step := do
    let op ← u8
    (handlerOf op).invoke op
  runaway := engine.runaway

variable {perm : Vector (Fin 256) 256}

theorem direct_blind : Blind (redispatch perm) direct.step :=
  .bind u8_blind fun op => invoke_blind (handlerOf op) op

/-- Under the table of any injective permutation the engine takes the direct switch's steps. -/
theorem engine_step (hperm : Function.Injective perm.get) {s : VM}
    (hs : redispatch perm s = s) : engine.step s = direct.step s := by
  cases hu : u8 s with
  | error e => exact (Effects.bind_error hu).trans (Effects.bind_error hu).symm
  | ok p =>
    obtain ⟨op, s'⟩ := p
    have hs' := u8_blind.fixed hs hu
    refine (Effects.bind_ok hu).trans (Eq.trans ?_ (Effects.bind_ok hu).symm)
    have hdispatch : s'.table[s'.perm[op.toFin]] = handlerOf op := by
      rw [← hs']
      exact dispatch_direct hperm op
    change (s'.table[s'.perm[op.toFin]]).invoke op s' = _
    rw [hdispatch]

theorem engine_run (hperm : Function.Injective perm.get) (n : Nat) (s : VM) :
    engine.run n (redispatch perm s) =
      (direct.run n s).map fun p => (p.1, redispatch perm p.2) := by
  have hcongr := Engine.run_congr (E := engine) (F := direct)
    (I := fun s => redispatch perm s = s) (fun _ => rfl) (fun _ => rfl)
    (fun _ hs => engine_step hperm hs) (fun _ _ hs h => direct_blind.fixed hs h) n
    (s := redispatch perm s) rfl
  rw [hcongr]
  exact Engine.run_blind (E := direct) (g := redispatch perm) (fun _ => rfl) direct_blind (fun _ => rfl) n s

theorem run_redispatch (H : Hashes) (hperm : Function.Injective perm.get)
    (s : VM) : (redispatch perm s).run H = (direct.run kMaxSteps s).map fun p => p.2.finish H := by
  rw [VM.run, engine_run hperm]
  cases direct.run kMaxSteps s with
  | error e => rfl
  | ok p => rfl

theorem run_nonce (H : Hashes) (code : Bytes) (mem : Vector UInt64 64) (nonce nonce' : Bytes) :
    (VM.init H code mem nonce).run H = (VM.init H code mem nonce').run H :=
  (run_redispatch H (handlerPermutation_injective H nonce) (VM.init H code mem nonce)).trans
    (run_redispatch H (handlerPermutation_injective H nonce') (VM.init H code mem nonce)).symm

end Run

/-- The handler permutation is a permutation, the same on both sides; the table built through it
sends every opcode to its direct handler; and no run can tell one session's nonce from another's. -/
theorem permuted_dispatch (H : Hashes) (sessionNonce : Bytes) :
    (handlerPermutation H sessionNonce).toList.Perm (List.finRange 256) ∧
      Server.VmReference.handlerPermutation H sessionNonce =
        (handlerPermutation H sessionNonce).toList.map Fin.val ∧
      (∀ op : UInt8, (buildDispatchTable (handlerPermutation H sessionNonce))[
        (handlerPermutation H sessionNonce)[op.toFin]] = handlerOf op) ∧
      ∀ code mem sessionNonce', (VM.init H code mem sessionNonce).run H =
        (VM.init H code mem sessionNonce').run H :=
  ⟨handlerPermutation_perm H sessionNonce, reference_permutation_eq H sessionNonce,
    dispatch_direct (handlerPermutation_injective H sessionNonce),
    fun code mem => run_nonce H code mem sessionNonce⟩

end RankGate.Vm.DispatchBlindness
