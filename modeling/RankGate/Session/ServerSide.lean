/- Module: RankGate/Session/ServerSide
   source: server/app/challenge_logic.py
   digest: Given the client's frames of the script, the handlers accept them and answer with their own. -/

import RankGate.Session.ClientSide
import RankGate.Session.License
import RankGate.Session.Retention

set_option autoImplicit false
set_option relaxedAutoImplicit false

namespace RankGate.Session.Script.Play

open ByteCodec (Bytes)
open Effects (exec)
open OrderedDict (Dict)
open RankGate.Crypto (Hashes Primitives)
open RankGate.Handlers
open RankGate.Handlers.Requests
open RankGate.Handlers.Specs
open RankGate.Server.ChallengeLogic
open RankGate.Server.Config (Env)
open RankGate.Server.Sessions (Session SessionStore)
open RankGate.Session.Retention
open Wire.ChannelLockstep
open Wire.FrameAgreement

variable {P : Primitives} {env : Env} {x : Play}

def session1 (P : Primitives) (env : Env) (x : Play) : Session :=
  established P env x.server.hello (x.hello P) { sessionId := x.sid } (x.t1 P) (x.clientPub P)
    x.name x.shared

def session2 (P : Primitives) (env : Env) (x : Play) : Session :=
  exchanged P x.server.exchange (x.proof1 P env) (x.session1 P env) (x.keys P env) (x.t3 P env)
    x.vm.vmDigest

section Hello

variable (h : x.Honest P env)

include h

theorem parseHelloPayload_eq :
    parseHelloPayload (Client.Protocol.helloPayload P x.client x.name) =
      .ok (x.clientPub P, x.client.clientRandom.val, x.name.map UInt8.toNat) := by
  have hname : x.name.length < 65536 := lt_of_le_of_lt h.canonical.length_le (by decide)
  rw [Wire.Payloads.helloPayload_eq]
  exact (Wire.Payloads.hello_recovers_iff _).mpr hname

theorem openHello_eq : openHello P (x.hello P) = .ok (x.t1 P, x.clientPub P, x.name) := by
  have hopen := server_plainOpen (Server.Protocol.Transcript.init P.toHashes)
    (bootstrapMacKey P.toHashes) P.toHashes (hello_wellFormed h) rfl
  refine (Effects.except_bind_ok hopen).trans ?_
  refine (Effects.except_bind_ok (parseHelloPayload_eq h)).trans ?_
  exact Effects.except_bind_ok (Username.normalizeUsername_of_canonical P h.canonical)

theorem helloCheck_eq : helloCheck P x.server.hello (x.hello P) { sessionId := x.sid } =
    .ok (x.t1 P, x.clientPub P, x.name, x.shared) := by
  have hfresh : (0 : Nat) < 1 := Nat.one_pos
  have hshared : x25519Shared P x.server.hello.serverPriv.val (x.clientPub P) = .ok x.shared := by
    rw [x25519Shared, h.serverShared]
  refine (Effects.except_ensure_true (by exact hfresh)).trans ?_
  refine (Effects.except_bind_ok (openHello_eq h)).trans ?_
  exact Effects.except_bind_ok hshared

theorem hello_frame : (Request.hello x.server.hello (x.hello P).bytes).frame? =
    some (x.hello P) :=
  Request.frame?_eq_some_of (Server.Protocol.Frame.parse_bytes (hello_wellFormed h))
    (by exact List.mem_singleton.mpr rfl)

theorem exec_hello : exec (helloBody P env x.server.hello (x.hello P)) { sessionId := x.sid } =
    (.ok (x.challenge P env).bytes, x.session1 P env) := by
  have hexec := exec_helloBody P env x.server.hello (x.hello P) (s := { sessionId := x.sid })
    (fun _ => by exact (by decide : 0 + 1 < 2 ^ 64))
  rw [helloCheck_eq h] at hexec
  exact hexec

/-- HELLO meets any store, and leaves its session as the newest. -/
theorem server_hello (store : SessionStore) :
    (step P env store (.hello x.server.hello (x.hello P).bytes)).1 =
        .ok (x.challenge P env).bytes ∧
      (step P env store (.hello x.server.hello (x.hello P).bytes)).2.lookup x.sid =
        some (x.session1 P env) ∧
      Dict.newer (step P env store (.hello x.server.hello (x.hello P).bytes)).2 x.sid = [] := by
  have hf := hello_frame h
  have hexec := exec_hello h
  refine ⟨?_, ?_, newest_hello P env hf rfl⟩
  · rw [step_hello P env store hf rfl]
    exact congrArg Prod.fst hexec
  · refine (lookup_hello_self P env store hf rfl).trans ?_
    exact congrArg (fun r => some r.2) hexec

end Hello

section Exchange

variable (h : x.Honest P env)

include h

theorem parseProof1_eq : parseProof1 (x.proof1Payload P env) = .ok {
    licenseStruct := x.license
    vm := Vm.EngineRefinement.widen x.vm
    proof1 := Client.ProofBuilder.computeProof1 P.toHashes (x.keys P env).proof1 x.name x.license
      x.vm x.serverRandom x.sid (x.t2 P env).state } := by
  let proof1 := Client.ProofBuilder.computeProof1 P.toHashes (x.keys P env).proof1 x.name x.license
    x.vm x.serverRandom x.sid (x.t2 P env).state
  let c : Wire.Payloads.ClientProof1Fields := ⟨⟨x.license, h.length_license⟩,
    ⟨x.vm.vmDigest, h.length_vmDigest⟩, ⟨x.vm.vmStateHash, h.length_vmStateHash⟩, x.vm.vmPathId,
    x.vm.vmHaltCode, ⟨proof1, P.length_hmacSha256 _ _⟩⟩
  have hencode : x.proof1Payload P env = Wire.Payloads.clientProof1.encode c := by
    rw [proof1Payload, Client.Protocol.proof1Payload, clientSession_keys]
    rfl
  rw [hencode]
  exact Wire.Payloads.clientProof1_fixed.recovers c

theorem validateStages_eq : validateStages P env (x.session1 P env) (x.keys P env) {
    licenseStruct := x.license
    vm := Vm.EngineRefinement.widen x.vm
    proof1 := Client.ProofBuilder.computeProof1 P.toHashes (x.keys P env).proof1 x.name x.license
      x.vm x.serverRandom x.sid (x.t2 P env).state } = .ok () := by
  obtain ⟨lic, hlic⟩ := h.validLicense
  have hvm : Server.Verifier.validateVm P env x.name x.license x.serverRandom x.sid
      (x.t2 P env).state x.serverRandom (Vm.EngineRefinement.widen x.vm) = .ok () :=
    (Effects.except_bind_ok h.serverVm).trans (Effects.ensure_eq_ok_iff.mpr rfl)
  have hproof := computeProof1_eq P.toHashes h.canonical.length_le (x.keys P env).proof1 x.license
    x.serverRandom x.sid (x.t2 P env).state x.vm
  refine (Effects.except_bind_ok hlic).trans ?_
  refine (Effects.except_bind_ok hvm).trans ?_
  exact (Effects.except_bind_ok hproof).trans (Effects.ensure_eq_ok_iff.mpr rfl)

theorem exchangeCheck_eq : exchangeCheck P env (x.proof1 P env) (x.session1 P env) =
    .ok (x.keys P env, x.t3 P env, {
      licenseStruct := x.license
      vm := Vm.EngineRefinement.widen x.vm
      proof1 := Client.ProofBuilder.computeProof1 P.toHashes (x.keys P env).proof1 x.name x.license
        x.vm x.serverRandom x.sid (x.t2 P env).state }) := by
  have hfresh : (1 : Nat) < 2 := by decide
  have hopen := server_aeadOpen P (x.t2 P env) (x.keys P env).mac (x.keys P env).c2s
    (proof1_wellFormed h) rfl (aeadDecrypt_aeadFrame P _ _ _ _ _ _ h.aead)
  refine (Effects.except_ensure_true (by exact hfresh)).trans ?_
  refine (Effects.except_bind_ok (a := x.keys P env) rfl).trans ?_
  refine (Effects.except_bind_ok hopen).trans ?_
  refine (Effects.except_bind_ok (parseProof1_eq h)).trans ?_
  exact Effects.except_bind_ok (validateStages_eq h)

theorem proof1_frame : (Request.exchange x.server.exchange (x.proof1 P env).bytes).frame? =
    some (x.proof1 P env) :=
  Request.frame?_eq_some_of (Server.Protocol.Frame.parse_bytes (proof1_wellFormed h))
    (by exact List.mem_singleton.mpr rfl)

theorem exec_exchange :
    exec (exchangeBody P env x.server.exchange (x.proof1 P env)) (x.session1 P env) =
      (.ok (x.serverProof1 P env).bytes, x.session2 P env) := by
  have hexec := exec_exchangeBody P env x.server.exchange (x.proof1 P env)
    (s := x.session1 P env) (fun _ => by exact (by decide : 1 + 1 < 2 ^ 64))
  rw [exchangeCheck_eq h] at hexec
  exact hexec

theorem server_exchange {store : SessionStore}
    (hs : store.lookup x.sid = some (x.session1 P env)) :
    (step P env store (.exchange x.server.exchange (x.proof1 P env).bytes)).1 =
        .ok (x.serverProof1 P env).bytes ∧
      (step P env store (.exchange x.server.exchange (x.proof1 P env).bytes)).2.lookup x.sid =
        some (x.session2 P env) ∧
      Dict.newer (step P env store (.exchange x.server.exchange (x.proof1 P env).bytes)).2 x.sid =
        [] := by
  have hf := proof1_frame h
  have hexec := exec_exchange h
  refine ⟨?_, ?_, newest_known P env hf rfl hs⟩
  · rw [step_known P env hf rfl hs]
    exact congrArg Prod.fst hexec
  · refine (lookup_known_self P env hf rfl hs).trans ?_
    exact congrArg (fun r => some r.2) hexec

end Exchange

section Finalize

variable (h : x.Honest P env)

include h

theorem finalizeCheck_eq : finalizeCheck P (x.proof2 P env) (x.session2 P env) =
    .ok (x.keys P env, x.t5 P env) := by
  have hfresh : (2 : Nat) < 3 := by decide
  have hopen := server_aeadOpen P (x.t4 P env) (x.keys P env).mac (x.keys P env).c2s
    (proof2_wellFormed P env x) rfl (aeadDecrypt_aeadFrame P _ _ _ _ _ _ h.aead)
  have hlen : (x.proof2Payload P env).length = 32 := P.length_hmacSha256 _ _
  refine (Effects.except_ensure_true (by exact hfresh)).trans ?_
  refine (Effects.except_ensure_true (by rfl)).trans ?_
  refine (Effects.except_bind_ok (a := x.keys P env) rfl).trans ?_
  refine (Effects.except_bind_ok hopen).trans ?_
  refine (Effects.except_ensure_true hlen).trans ?_
  exact Effects.except_bind_ok (a := ()) (Effects.ensure_eq_ok_iff.mpr rfl)

omit h in
theorem proof2_frame : (Request.finalize x.server.finalize (x.proof2 P env).bytes).frame? =
    some (x.proof2 P env) :=
  Request.frame?_eq_some_of (Server.Protocol.Frame.parse_bytes (proof2_wellFormed P env x))
    (by exact List.mem_cons_self)

theorem server_finalize {store : SessionStore}
    (hs : store.lookup x.sid = some (x.session2 P env)) :
    (step P env store (.finalize x.server.finalize (x.proof2 P env).bytes)).1 =
      .ok (x.sealedFlag P env).bytes := by
  have hf : (Request.finalize x.server.finalize (x.proof2 P env).bytes).frame? =
    some (x.proof2 P env) := proof2_frame
  have hexec := exec_finalizeBody P x.server.finalize (x.proof2 P env)
    (s := x.session2 P env) (fun _ => by exact (by decide : 2 + 1 < 2 ^ 64))
  rw [finalizeCheck_eq h] at hexec
  rw [step_known P env hf rfl hs]
  exact congrArg Prod.fst hexec

end Finalize

end RankGate.Session.Script.Play
