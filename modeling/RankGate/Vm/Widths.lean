/- Module: RankGate/Vm/Widths
   source: server/app/vm_reference.py (VM.run, VM._exec, VM._finish)
   digest: Every word of the reference machine stays in its width along every run, and finish serializes it. -/

import RankGate.Foundation.Hoare
import RankGate.Vm.Boundaries
import RankGate.Vm.Words

set_option autoImplicit false
set_option relaxedAutoImplicit false

namespace RankGate.Vm.Widths

open ByteCodec (Bytes beNat)
open Hoare (Triple)
open Lockstep (Engine)
open RankGate.Crypto (Hashes)
open RankGate.Server.Config (mapM_toBytes)
open RankGate.Server.VmReference
open RankGate.Tools.Disassembler (Kind layout width)
open RankGate.Tools.VmBytecode (branchOps)
open Boundaries (fetch withOperands perform exec_withOperands)
open ReferenceSteps (step_binary step_halt step_load step_store)
open Words (land_m64_lt land_m32_lt rotl64_lt rotr64_lt subM64_lt notM64_lt cmpFlags_le
  byte_pair_lt)

/-- Sixteen registers and 64 memory words below 2^64, three flags, a 32-bit path, a byte as halt
operand, and return addresses inside the code. -/
structure Fits (s : VM) : Prop where
  length_reg : s.reg.length = 16
  reg : ∀ v ∈ s.reg, v < 2 ^ 64
  length_mem : s.mem.length = 64
  mem : ∀ v ∈ s.mem, v < 2 ^ 64
  flags : s.flags ≤ 7
  path : s.path < 2 ^ 32
  haltOperand : s.haltOperand ≤ 255
  stack : ∀ a ∈ s.stack, a ≤ s.code.length

/-- The widths, and a bound on the addresses, however long the code is. -/
structure Bounded (n : Nat) (s : VM) : Prop extends Fits s where
  ip : s.ip ≤ n
  stack_le : ∀ a ∈ s.stack, a ≤ n

theorem Bounded.mono {n m : Nat} {s : VM} (h : Bounded n s) (hle : n ≤ m) : Bounded m s :=
  { h with
    ip := le_trans h.ip hle
    stack_le := fun a ha => le_trans (h.stack_le a ha) hle }

section Access

variable {n : Nat}

theorem index_triple {α : Type} {P : VM → Prop} (l : List α) (i : Nat) :
    Triple P (index l i) fun v s => v ∈ l ∧ P s := by
  rw [index]
  cases hget : l[i]? with
  | none => exact .throw _
  | some v => exact .pure fun s hs => ⟨List.mem_of_getElem? hget, hs⟩

theorem getReg_triple (i : Nat) :
    Triple (Bounded n) (getReg i) fun v s => v < 2 ^ 64 ∧ Bounded n s :=
  .get_bind fun s hs => (index_triple s.reg i).mono (fun _ h => h) fun _ _ h =>
    ⟨hs.reg _ h.1, h.2 ▸ hs⟩

theorem getMem_triple (i : Nat) :
    Triple (Bounded n) (getMem i) fun v s => v < 2 ^ 64 ∧ Bounded n s :=
  .get_bind fun s hs => (index_triple s.mem i).mono (fun _ h => h) fun _ _ h =>
    ⟨hs.mem _ h.1, h.2 ▸ hs⟩

theorem setReg_triple (i : Nat) {v : Nat} (hv : v < 2 ^ 64) :
    Triple (Bounded n) (setReg i v) fun _ => Bounded n := by
  refine .get_bind fun s hs => .bind (index_triple s.reg i) fun _ => .modify fun t ht => ?_
  obtain ⟨-, rfl⟩ := ht
  refine { hs with length_reg := ?_, reg := ?_ }
  · exact (List.length_set ..).trans hs.length_reg
  · intro w hw
    rcases List.mem_or_eq_of_mem_set hw with hw | rfl
    · exact hs.reg w hw
    · exact hv

theorem setMem_triple (i : Nat) {v : Nat} (hv : v < 2 ^ 64) :
    Triple (Bounded n) (setMem i v) fun _ => Bounded n := by
  refine .get_bind fun s hs => .bind (index_triple s.mem i) fun _ => .modify fun t ht => ?_
  obtain ⟨-, rfl⟩ := ht
  refine { hs with length_mem := ?_, mem := ?_ }
  · exact (List.length_set ..).trans hs.length_mem
  · intro w hw
    rcases List.mem_or_eq_of_mem_set hw with hw | rfl
    · exact hs.mem w hw
    · exact hv

theorem cond_triple (code : Nat) :
    Triple (Bounded n) (Server.VmReference.cond code) fun _ => Bounded n :=
  .get_bind fun _ hs => (index_triple _ code).mono (fun _ h => h) fun _ _ h => h.2 ▸ hs

theorem withReg {i : Nat} {k : Nat → VmM Unit}
    (hk : ∀ v, v < 2 ^ 64 → Triple (Bounded n) (k v) fun _ => Bounded n) :
    Triple (Bounded n) (getReg i >>= k) fun _ => Bounded n :=
  .bind (getReg_triple i) fun v => .of_and (hk v)

end Access

section Instructions

variable {n : Nat}

theorem perform_two (op x y : Nat) : Triple (Bounded n) (perform op [x, y]) fun _ => Bounded n := by
  refine .ite (fun _ => setReg_triple x (land_m64_lt _)) fun _ => ?_
  refine .ite (fun _ => withReg fun v hv => setReg_triple x hv) fun _ => ?_
  refine .ite (fun _ => withReg fun a _ =>
    .bind (getMem_triple _) fun v => .of_and fun hv => setReg_triple x hv) fun _ => ?_
  refine .ite (fun _ => withReg fun v hv => withReg fun a _ => setMem_triple _ hv) fun _ => ?_
  refine .ite (fun _ => withReg fun v _ => setReg_triple x (notM64_lt v)) fun _ => ?_
  refine .ite (fun _ => withReg fun a _ => withReg fun b _ => ?_) fun _ => ?_
  · exact .modify fun s hs => { hs with flags := cmpFlags_le a b }
  · exact withReg fun acc _ => withReg fun v _ => setReg_triple x (land_m64_lt _)

theorem alu_triple (op rd : Nat) {a b : Nat} (ha : a < 2 ^ 64) (hb : b < 2 ^ 64) :
    Triple (Bounded n)
      (if op = Op.add then setReg rd ((a + b) &&& m64)
        else if op = Op.sub then setReg rd (subM64 a b)
        else if op = Op.mul then setReg rd ((a * b) &&& m64)
        else if op = Op.xor then setReg rd (a ^^^ b)
        else if op = Op.and then setReg rd (a &&& b)
        else setReg rd (a ||| b)) fun _ => Bounded n := by
  refine .ite (fun _ => setReg_triple rd (land_m64_lt _)) fun _ => ?_
  refine .ite (fun _ => setReg_triple rd (subM64_lt a b)) fun _ => ?_
  refine .ite (fun _ => setReg_triple rd (land_m64_lt _)) fun _ => ?_
  refine .ite (fun _ => setReg_triple rd (Nat.xor_lt_two_pow ha hb)) fun _ => ?_
  refine .ite (fun _ => setReg_triple rd (Nat.and_lt_two_pow a hb)) fun _ => ?_
  exact setReg_triple rd (Nat.or_lt_two_pow ha hb)

theorem perform_three (op rd x y : Nat) :
    Triple (Bounded n) (perform op [rd, x, y]) fun _ => Bounded n := by
  refine .ite (fun _ => withReg fun a ha => withReg fun b hb => alu_triple op rd ha hb) fun _ => ?_
  refine .ite (fun _ => withReg fun a _ => ?_) fun _ => ?_
  · refine .ite (fun _ => setReg_triple rd (rotl64_lt a y)) fun _ => ?_
    refine .ite (fun _ => setReg_triple rd (rotr64_lt a y)) fun _ => ?_
    refine .ite (fun _ => setReg_triple rd (land_m64_lt _)) fun _ => ?_
    exact setReg_triple rd (land_m64_lt _)
  refine .ite (fun _ => .bind (cond_triple y) fun taken => ?_) fun _ => ?_
  · exact .ite (fun _ => withReg fun v hv => setReg_triple rd hv) fun _ => .pure fun _ hs => hs
  · exact withReg fun a _ => withReg fun b _ => setReg_triple rd (land_m64_lt _)

end Instructions

/-! Fetches move the instruction pointer; behind one that indexes it is still inside the code. -/

section Fetch

variable {n : Nat}

theorem u8_triple : Triple (Bounded n) u8 fun v s =>
    (v ≤ 255 ∧ s.ip ≤ s.code.length) ∧ Bounded (n + 1) s := by
  intro s v s' hs h
  cases hop : s.code[s.ip]? with
  | none =>
    rw [ReferenceSteps.u8_none hop] at h
    cases h
  | some op =>
    rw [ReferenceSteps.u8_some hop] at h
    cases h
    obtain ⟨hlt, -⟩ := List.getElem?_eq_some_iff.mp hop
    refine ⟨⟨Nat.le_of_lt_succ op.toNat_lt, hlt⟩, ?_⟩
    exact { hs.mono (Nat.le_succ n) with ip := Nat.succ_le_succ hs.ip }

theorem u16_triple : Triple (Bounded n) u16 fun v s =>
    (v < 2 ^ 16 ∧ s.ip ≤ s.code.length) ∧ Bounded (n + 2) s := by
  intro s v s' hs h
  rcases Nat.lt_or_ge s.code.length (s.ip + 2) with hend | hin
  · rw [ReferenceSteps.u16_none hend] at h
    cases h
  · have hhi : s.code[s.ip]? = some s.code[s.ip] := List.getElem?_eq_getElem (by omega)
    have hlo : s.code[s.ip + 1]? = some s.code[s.ip + 1] := List.getElem?_eq_getElem (by omega)
    rw [ReferenceSteps.u16_some _ _ hhi hlo] at h
    cases h
    refine ⟨⟨byte_pair_lt _ _, hin⟩, ?_⟩
    exact { hs.mono (Nat.le_add_right n 2) with ip := Nat.add_le_add_right hs.ip 2 }

theorem u64_triple : Triple (Bounded n) u64 fun _ => Bounded (n + 8) := by
  intro s v s' hs h
  cases h
  exact { hs.mono (Nat.le_add_right n 8) with ip := Nat.add_le_add_right hs.ip 8 }

theorem fetch_triple (kind : Kind) :
    Triple (Bounded n) (fetch kind) fun _ => Bounded (n + width kind) := by
  cases kind with
  | reg => exact u8_triple.mono (fun _ h => h) fun _ _ h => h.2
  | imm64 => exact u64_triple
  | imm8 => exact u8_triple.mono (fun _ h => h) fun _ _ h => h.2
  | cond => exact u8_triple.mono (fun _ h => h) fun _ _ h => h.2
  | addr => exact u16_triple.mono (fun _ h => h) fun _ _ h => h.2

theorem withOperands_triple {kinds : List Kind} {k : List Nat → VmM Unit} {m : Nat}
    (hk : ∀ vs, vs.length = kinds.length →
      Triple (Bounded (n + (kinds.map width).sum)) (k vs) fun _ => Bounded m) :
    Triple (Bounded n) (withOperands kinds k) fun _ => Bounded m := by
  induction kinds generalizing n k with
  | nil => exact hk [] rfl
  | cons kind kinds ih =>
    refine .bind (fetch_triple kind) fun v => ih fun vs hvs => ?_
    have h := hk (v :: vs) (congrArg Nat.succ hvs)
    rwa [List.map_cons, List.sum_cons, ← Nat.add_assoc] at h

end Fetch

section Control

variable {n : Nat}

theorem perform_none (op : Nat) : Triple (Bounded n) (perform op []) fun _ => Bounded n := by
  refine .ite (fun _ => .pure fun _ hs => hs) fun _ => .get_bind fun s hs => ?_
  cases hlast : s.stack.getLast? with
  | none => exact .throw _
  | some addr =>
    refine .modify fun t ht => ?_
    subst ht
    have hmem := List.mem_of_getLast? hlast
    exact { hs with
      ip := hs.stack_le addr hmem
      stack := fun a ha => hs.stack a (List.mem_of_mem_dropLast ha)
      stack_le := fun a ha => hs.stack_le a (List.mem_of_mem_dropLast ha) }

theorem foldPath_triple (taken : Bool) : Triple (Bounded n) (foldPath taken) fun _ => Bounded n :=
  .modify fun _ hs => { hs with path := land_m32_lt _ }

theorem setIp_triple {addr : Nat} (haddr : addr ≤ n) :
    Triple (Bounded n) (setIp addr) fun _ => Bounded n :=
  .modify fun _ hs => { hs with ip := haddr }

theorem perform_branch {op addr : Nat} (hop : op ∈ branchOps) (haddr : addr ≤ n) :
    Triple (fun s => s.ip ≤ s.code.length ∧ Bounded n s) (perform op [addr])
      fun _ => Bounded n := by
  refine .ite (fun _ => (setIp_triple haddr).mono (fun _ h => h.2) fun _ _ h => h) fun hjmp => ?_
  refine .ite (fun _ => .get_bind fun s hs => ?_) fun hcond => ?_
  · refine .bind ((foldPath_triple (n := n) _).mono (fun t ht => ht ▸ hs.2) fun _ _ h => h)
      fun _ => ?_
    exact .ite (fun _ => setIp_triple haddr) fun _ => .pure fun _ h => h
  refine .ite (fun _ => .modify fun s hs => ?_) fun hcall => ?_
  · obtain ⟨hin, hs⟩ := hs
    refine { hs with ip := haddr, stack := ?_, stack_le := ?_ }
    · intro a ha
      rcases List.mem_append.mp ha with ha | ha
      · exact hs.stack a ha
      · exact List.mem_singleton.mp ha ▸ hin
    · intro a ha
      rcases List.mem_append.mp ha with ha | ha
      · exact hs.stack_le a ha
      · exact List.mem_singleton.mp ha ▸ hs.ip
  · simp only [branchOps, List.mem_cons, List.not_mem_nil, or_false, not_or] at hop hcond
    rcases hop with rfl | rfl | rfl | rfl
    · exact absurd rfl hjmp
    · exact absurd rfl hcond.1
    · exact absurd rfl hcond.2
    · exact absurd rfl hcall

theorem perform_halt {v : Nat} (hv : v ≤ 255) :
    Triple (Bounded n) (perform Op.halt [v]) fun _ => Bounded n := by
  rw [perform, if_neg (by decide), if_neg (by decide), if_neg (by decide)]
  exact .modify fun s hs => { hs with haltOperand := hv }

theorem layout_one : ∀ p ∈ layout, (p.2 = [.addr] ∧ p.1 ∈ branchOps) ∨
    (p.2 = [.imm8] ∧ p.1 = Op.halt) ∨ p.2.length ≠ 1 := by
  decide

theorem layout_width : ∀ p ∈ layout, (p.2.map width).sum ≤ 9 := by
  decide

theorem exec_known {p : Nat × List Kind} (hp : p ∈ layout) (hn : 2 ^ 16 ≤ n) :
    Triple (Bounded n) (exec p.1) fun _ => Bounded (n + 9) := by
  have hwidth := layout_width p hp
  rw [exec_withOperands p hp]
  rcases layout_one p hp with ⟨hkinds, hop⟩ | ⟨hkinds, hop⟩ | hlen
  · rw [hkinds]
    refine .bind u16_triple fun addr s a s' hs h => ?_
    obtain ⟨⟨haddr, hin⟩, hs⟩ := hs
    exact (perform_branch hop (n := n + 2) (by omega) s a s' ⟨hin, hs⟩ h).mono (by omega)
  · rw [hkinds, hop]
    refine .bind u8_triple fun v s a s' hs h => ?_
    exact (perform_halt hs.1.1 s a s' hs.2 h).mono (by omega)
  · refine withOperands_triple fun vs hvs => ?_
    have hkept : Triple (Bounded (n + (p.2.map width).sum)) (perform p.1 vs)
        fun _ => Bounded (n + (p.2.map width).sum) := by
      rcases vs with _ | ⟨x, _ | ⟨y, _ | ⟨z, _ | ⟨w, vs⟩⟩⟩⟩
      · exact perform_none p.1
      · exact absurd hvs.symm hlen
      · exact perform_two p.1 x y
      · exact perform_three p.1 x y z
      · exact .pure fun _ hs => hs
    exact hkept.mono (fun _ h => h) fun _ _ h => h.mono (by omega)

theorem exec_unknown {op : Nat} (h : op ∉ layout.map Prod.fst) :
    exec op = modify fun s => { s with haltOperand := 0xFD, halted := true } := by
  simp only [layout, List.map_cons, List.map_nil, List.mem_cons, List.not_mem_nil, or_false,
    not_or] at h
  simp [exec, h]

/-- The bound grows by the longest instruction. -/
theorem step_triple (hn : 2 ^ 16 ≤ n) :
    Triple (Bounded n) engine.step fun _ => Bounded (n + 10) := by
  refine .bind u8_triple fun op => .mono (P := Bounded (n + 1)) ?_ (fun _ h => h.2) fun _ _ h => h
  by_cases hop : op ∈ layout.map Prod.fst
  · obtain ⟨p, hp, rfl⟩ := List.mem_map.mp hop
    exact exec_known hp (by omega)
  · rw [exec_unknown hop]
    exact .modify fun s hs => { hs.mono (by omega) with haltOperand := (by decide : 0xFD ≤ 255) }

end Control

section Runs

variable {code : Bytes} {mem : List Nat} {s t : VM} {k : Nat}

theorem init_bounded (H : Hashes) (code : Bytes) (sessionNonce : Bytes) (hlen : mem.length = 64)
    (hmem : ∀ v ∈ mem, v < 2 ^ 64) : Bounded (2 ^ 16) (VM.init H code mem sessionNonce) where
  length_reg := List.length_replicate
  reg := fun v hv => by
    rw [List.eq_of_mem_replicate hv]
    decide
  length_mem := hlen
  mem := hmem
  flags := Nat.zero_le 7
  path := by change 0x811C9DC5 < 2 ^ 32; decide
  haltOperand := Nat.zero_le 255
  stack := fun a ha => (List.not_mem_nil ha).elim
  ip := Nat.zero_le _
  stack_le := fun a ha => (List.not_mem_nil ha).elim

theorem path_bounded (hs : Bounded (2 ^ 16) s) (h : Engine.Path engine k s t) :
    Bounded (2 ^ 16 + 10 * k) t := by
  have hstep : ∀ n, Triple (Bounded (2 ^ 16 + 10 * n)) engine.step
      fun _ => Bounded (2 ^ 16 + 10 * (n + 1)) := by
    intro n
    exact step_triple (by omega)
  have hpath := Hoare.path_assertion hstep (n := 0) h hs
  rwa [Nat.zero_add] at hpath

/-- A run ends with every address below 2^64: it takes no more than its budget of steps. -/
theorem run_bounded (hs : Bounded (2 ^ 16) s) (h : engine.run maxSteps s = .ok ((), t)) :
    Bounded (2 ^ 16 + 10 * maxSteps) t := by
  rcases Engine.run_ok h with ⟨k, hk, hpath, -⟩ | ⟨u, hpath, -, rfl⟩
  · exact (path_bounded hs hpath).mono (by omega)
  · exact { path_bounded hs hpath with haltOperand := (by decide : 0xEE ≤ 255) }

/-- Serializing raises nothing, and the digest has its four words. -/
theorem finish_ok (H : Hashes) {n : Nat} (hn : n < 2 ^ 64) (hs : Bounded n s) :
    ∃ r, s.finish H = .ok r ∧ r.vmDigest.length = 32 := by
  have hreg := hs.length_reg
  have hdigest : ∀ v ∈ (s.reg.drop 12).take 4, v < 2 ^ 64 :=
    fun v hv => hs.reg v (List.mem_of_mem_drop (List.mem_of_mem_take hv))
  have hstack : ∀ a ∈ s.stack, a < 2 ^ 64 := fun a ha => lt_of_le_of_lt (hs.stack_le a ha) hn
  rw [VM.finish, mapM_toBytes (n := 8) hdigest, mapM_toBytes (n := 8) hs.reg,
    mapM_toBytes (n := 8) hstack]
  refine ⟨_, rfl, ?_⟩
  have hfour : ((s.reg.drop 12).take 4).length = 4 := by
    rw [List.length_take, List.length_drop, hreg]
    rfl
  show (List.flatten (((s.reg.drop 12).take 4).map (ByteCodec.beBytes 8))).length = 32
  rw [← List.flatMap_def, List.length_flatMap, List.map_congr_left fun v _ =>
    ByteCodec.length_beBytes 8 v, List.map_const', List.sum_replicate, hfour]
  rfl

end Runs

/-- Every state of every run is in its widths, and serializing the last one raises nothing. -/
theorem run_in_widths (H : Hashes) (code sessionNonce : Bytes) {mem : List Nat}
    (hlen : mem.length = 64) (hmem : ∀ v ∈ mem, v < 2 ^ 64) :
    (∀ k t, Engine.Path engine k (VM.init H code mem sessionNonce) t → Fits t) ∧
      ∀ t, engine.run maxSteps (VM.init H code mem sessionNonce) = .ok ((), t) →
        Fits t ∧ ∃ r, t.finish H = .ok r ∧ r.vmDigest.length = 32 := by
  have hinit := init_bounded H code sessionNonce hlen hmem
  refine ⟨fun k t hpath => (path_bounded hinit hpath).toFits, fun t hrun => ?_⟩
  have hbounded := run_bounded hinit hrun
  exact ⟨hbounded.toFits, finish_ok H (by decide) hbounded⟩

/-- Words of all ones are loaded, added and multiplied past their width, and stored. -/
theorem run_in_widths_ones :
    let code : Bytes := [0x20, 1, 0, 0x30, 2, 1, 1, 0x32, 3, 2, 1, 0x21, 0, 3, 0xF0, 0x42]
    let mem := List.replicate 64 (2 ^ 64 - 1)
    ∃ t, engine.run maxSteps (VM.init default code mem [7]) = .ok ((), t) ∧
      t.reg.take 4 = [0, 2 ^ 64 - 1, 2 ^ 64 - 2, 2] ∧ t.mem.take 2 = [2, 2 ^ 64 - 1] ∧ Fits t ∧
      ∃ r, t.finish default = .ok r ∧ r.vmDigest.length = 32 := by
  intro code mem
  have hmem : ∀ v ∈ mem, v < 2 ^ 64 := by
    intro v hv
    rw [List.eq_of_mem_replicate hv]
    decide
  have hpath : Engine.Path engine 5 (VM.init default code mem [7]) _ :=
    .step rfl (step_load 1 0 rfl rfl rfl rfl) <|
    .step rfl (step_binary 0x30 2 1 1 rfl rfl rfl rfl rfl) <|
    .step rfl (step_binary 0x32 3 2 1 rfl rfl rfl rfl rfl) <|
    .step rfl (step_store 0 3 rfl rfl rfl (by decide)) <|
    .step rfl (step_halt 0x42 rfl) (.refl _)
  have hrun := Engine.run_eq_of_path hpath (by decide : 5 ≤ maxSteps) rfl
  obtain ⟨hfits, hfinish⟩ := (run_in_widths default code [7] rfl hmem).2 _ hrun
  exact ⟨_, hrun, rfl, rfl, hfits, hfinish⟩

end RankGate.Vm.Widths
