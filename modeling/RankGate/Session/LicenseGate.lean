/- Module: RankGate/Session/LicenseGate
   source: client/src/net/protocol.cpp, server/app/challenge_logic.py, server/app/verifier.py
   digest: A session with any license ends with the flag or with a rejection, as stage 2 takes it. -/

import RankGate.Session.Completeness
import RankGate.Session.LicenseCodec
import RankGate.Session.LicenseTamper

set_option autoImplicit false
set_option relaxedAutoImplicit false

namespace RankGate.Session.LicenseGate

open ByteCodec (Bytes)
open Effects (exec)
open RankGate.Client (UsesBlake2b)
open RankGate.Client.Protocol (Draws runSession)
open RankGate.Crypto (Primitives Sound)
open RankGate.Handlers.Requests
open RankGate.Handlers.Specs
open RankGate.Server.Config (Env)
open RankGate.Server.Sessions (SessionStore)
open RankGate.Server.Verifier (buildLicenseStruct)
open RankGate.Session.Completeness
open RankGate.Session.LicenseTamper (Accepted)
open RankGate.Session.Retention
open RankGate.Session.Script
open RankGate.Wire.ChannelLockstep (aeadDecrypt_aeadFrame aeadFrame_wellFormed client_aeadSeal
  client_serialize narrowT server_aeadOpen)
open RankGate.Wire.FrameAgreement (narrow)

variable {P : Primitives} {env : Env}

theorem length_of_decodeLicense {license struct : Bytes}
    (h : Client.LicenseFormat.decodeLicense license = .ok struct) :
    struct.length = 25 := by
  obtain ⟨-, h⟩ := Effects.except_ensure_eq_ok h
  obtain ⟨blocks, -, h⟩ := Effects.except_bind_eq_ok h
  obtain ⟨hlen, h⟩ := Effects.except_ensure_eq_ok h
  obtain ⟨-, h⟩ := Effects.except_ensure_eq_ok h
  cases h
  exact hlen

/-- The client decodes what the author encodes. -/
theorem exists_license (P : Primitives) (env : Env) (name : Bytes) : ∃ license : Bytes,
    Server.Verifier.encodeLicense (buildLicenseStruct P env name) = .ok (license.map UInt8.toNat) ∧
      Client.LicenseFormat.decodeLicense license = .ok (buildLicenseStruct P env name) := by
  have hlen := License.length_buildLicenseStruct P env name
  have haccepted : Accepted P env name (buildLicenseStruct P env name) :=
    License.validateLicense_build P env name
  obtain ⟨license, hencode, -⟩ := LicenseCodec.exists_ascii_text hlen
  have hkeep : LicenseCodec.nonBlank license = license := by
    refine List.filter_eq_self.mpr fun c hc => ?_
    have hspace := (LicenseCodec.encodeLicense_chars hencode c.toNat (List.mem_map_of_mem hc)).2
    by_contra hblank
    have hws : Client.LicenseFormat.isWs c = true := by simpa using hblank
    exact Bool.noConfusion ((LicenseCodec.isSpace_of_isWs hws).symm.trans hspace)
  have hversion : (buildLicenseStruct P env name).head? =
      some Client.Constants.licenseVersion := by
    rw [List.head?_eq_getElem?]
    exact ((LicenseTamper.accepted_iff P env name hlen).mp haccepted).1
  refine ⟨license, hencode, ?_⟩
  rw [LicenseCodec.client_decodeLicense_iff, hkeep]
  exact ⟨hencode, hversion⟩

/-- The honest script with another license, and what both machines make of that. -/
structure Presents (P : Primitives) (env : Env) (x₀ x : Play) : Prop where
  honest : x₀.Honest P env
  client : x.client = x₀.client
  server : x.server = x₀.server
  name : x.name = x₀.name
  shared : x.shared = x₀.shared
  length_license : x.license.length = 25
  clientVm : Client.Vm.runVm P.toHashes x.name x.license x.serverRandom x.sid (x.t2 P env).state
    x.serverRandom = .ok x.vm
  serverVm : Server.VmReference.runVm P env x.name x.license x.serverRandom x.sid
    (x.t2 P env).state x.serverRandom = .ok (Vm.EngineRefinement.widen x.vm)
  length_vmDigest : x.vm.vmDigest.length = 32
  length_vmStateHash : x.vm.vmStateHash.length = 32

theorem exists_presents (hsound : Sound P) (hblake : UsesBlake2b P.toHashes)
    (henv : env.vmBlobKey = none) {raw usernameNorm : Bytes}
    (hname : Client.LicenseFormat.normalizeUsername raw = .ok usernameNorm) (d : Draws)
    (sd : ServerDraws) {license : Bytes} (hlicense : license.length = 25) :
    ∃ x₀ x, Presents P env x₀ x ∧ x.client = d ∧ x.server = sd ∧ x.name = usernameNorm ∧
      x.license = license := by
  obtain ⟨x₀, h₀, rfl, rfl, rfl, -⟩ := exists_honest hsound hblake henv hname d sd
  let x (vm : Client.Vm.VMResult) : Play := { x₀ with license, vm }
  obtain ⟨vm, hclientVm, hserverVm, hdigest, hstate⟩ := Vm.CommittedBlob.runVm_agree hblake henv
    x₀.name license x₀.serverRandom x₀.sid ((x ⟨[], [], 0, 0⟩).t2 P env).state x₀.serverRandom
  exact ⟨x₀, x vm, ⟨h₀, rfl, rfl, rfl, rfl, hlicense, hclientVm, hserverVm, hdigest, hstate⟩, rfl,
    rfl, rfl, rfl⟩

namespace Presents

variable {x₀ x : Play} (h : Presents P env x₀ x)

include h

theorem toHonest (hlicense : Accepted P env x.name x.license) : x.Honest P env := by
  obtain ⟨client, server, name, license, shared, vm⟩ := x
  obtain rfl : client = x₀.client := h.client
  obtain rfl : server = x₀.server := h.server
  obtain rfl : name = x₀.name := h.name
  obtain rfl : shared = x₀.shared := h.shared
  exact ⟨h.honest.canonical, h.length_license, hlicense, h.honest.clientShared,
    h.honest.serverShared, h.clientVm, h.serverVm, h.length_vmDigest, h.length_vmStateHash,
    h.honest.signature, h.honest.aead⟩

/-! Up to the session keys neither side looks at the license. -/

theorem hello_eq : x.hello P = x₀.hello P := by
  unfold Play.hello Play.sid
  rw [h.client, h.name]

theorem t1_eq : x.t1 P = x₀.t1 P := by
  rw [Play.t1, h.hello_eq]
  rfl

theorem challenge_eq : x.challenge P env = x₀.challenge P env := by
  unfold Play.challenge
  rw [h.server, h.hello_eq, h.t1_eq]

theorem t2_eq : x.t2 P env = x₀.t2 P env := by
  rw [Play.t2, h.challenge_eq, h.t1_eq]
  rfl

theorem chal_eq : x.chal P = x₀.chal P := by
  unfold Play.chal Play.serverPub Play.serverRandom
  rw [h.server]

theorem session1_eq : x.session1 P env = x₀.session1 P env := by
  unfold Play.session1 Play.sid Play.clientPub
  rw [h.server, h.hello_eq, h.client, h.t1_eq, h.name, h.shared]

theorem client_establish : Client.Protocol.establish P x.client x.name x.license (x.chal P)
    (narrowT (x.t2 P env)) = .ok (x.clientSession P env) := by
  have hshared : Client.CryptoBox.x25519Shared P x.client.priv.val (x.serverPub P) =
      .ok x.shared := by
    have hpub : x.serverPub P = x₀.serverPub P := by
      unfold Play.serverPub
      rw [h.server]
    rw [Client.CryptoBox.x25519Shared, hpub, h.client, h.shared, h.honest.clientShared]
  exact (Effects.except_bind_ok hshared).trans (Effects.except_bind_ok h.clientVm)

theorem length_proof1Payload : (x.proof1Payload P env).length = 129 := by
  simp [Play.proof1Payload, Client.Protocol.proof1Payload, h.length_license, Play.clientSession,
    h.length_vmDigest, h.length_vmStateHash, Client.Constants.be32_eq,
    Client.ProofBuilder.computeProof1]

theorem proof1_wellFormed : (x.proof1 P env).WellFormed := by
  refine aeadFrame_wellFormed P _ _ _ _ _ _ (by decide) (by decide)
    x.client.sessionId.property x.client.proof1Nonce.property ?_
  rw [h.length_proof1Payload]
  decide

theorem client_proof1 : Client.Protocol.clientProof1 P x.client x.name x.license (x.chal P)
    (x.clientSession P env) (narrowT (x.t2 P env)) =
      (narrow (x.proof1 P env), narrowT (x.t3 P env)) := by
  rw [Client.Protocol.clientProof1, Play.clientSession_keys]
  refine client_aeadSeal P _ _ _ _ _ _ _ _ ?_
  have hlen := h.length_proof1Payload
  change (x.proof1Payload P env).length < 2 ^ 32
  rw [hlen]
  decide

theorem parseProof1_license : ∃ p, Server.ChallengeLogic.parseProof1 (x.proof1Payload P env) =
    .ok p ∧ p.licenseStruct = x.license := by
  let proof1 := Client.ProofBuilder.computeProof1 P.toHashes (x.keys P env).proof1 x.name x.license
    x.vm x.serverRandom x.sid (x.t2 P env).state
  let c : Wire.Payloads.ClientProof1Fields := ⟨⟨x.license, h.length_license⟩,
    ⟨x.vm.vmDigest, h.length_vmDigest⟩, ⟨x.vm.vmStateHash, h.length_vmStateHash⟩, x.vm.vmPathId,
    x.vm.vmHaltCode, ⟨proof1, P.length_hmacSha256 _ _⟩⟩
  have hencode : x.proof1Payload P env = Wire.Payloads.clientProof1.encode c := by
    rw [Play.proof1Payload, Client.Protocol.proof1Payload, Play.clientSession_keys]
    rfl
  rw [hencode]
  exact ⟨_, Wire.Payloads.clientProof1_fixed.recovers c, rfl⟩

theorem exchangeCheck_error (hlicense : ¬ Accepted P env x.name x.license) :
    ∃ e, exchangeCheck P env (x.proof1 P env) (x.session1 P env) = .error e := by
  have hfresh : (1 : Nat) < 2 := by decide
  have hopen := server_aeadOpen P (x.t2 P env) (x.keys P env).mac (x.keys P env).c2s
    h.proof1_wellFormed rfl (aeadDecrypt_aeadFrame P _ _ _ _ _ _ h.honest.aead)
  obtain ⟨p, hparse, hstruct⟩ := h.parseProof1_license
  cases hstage : Server.Verifier.validateLicense P env x.name x.license with
  | ok lic => exact absurd ⟨lic, hstage⟩ hlicense
  | error e =>
    refine ⟨e, ?_⟩
    have hvalidate : Server.ChallengeLogic.validateStages P env (x.session1 P env) (x.keys P env) p =
        .error e := by
      rw [← hstruct] at hstage
      exact Effects.except_bind_error hstage
    refine (Effects.except_ensure_true (by exact hfresh)).trans ?_
    refine (Effects.except_bind_ok (a := x.keys P env) rfl).trans ?_
    refine (Effects.except_bind_ok hopen).trans ?_
    refine (Effects.except_bind_ok hparse).trans ?_
    exact Effects.except_bind_error hvalidate

theorem server_rejects (hlicense : ¬ Accepted P env x.name x.license) {store : SessionStore}
    (hs : store.lookup x.sid = some (x.session1 P env)) :
    ∃ e, (step P env store (.exchange x.server.exchange (x.proof1 P env).bytes)).1 = .error e := by
  obtain ⟨e, hcheck⟩ := h.exchangeCheck_error hlicense
  have hframe : (Request.exchange x.server.exchange (x.proof1 P env).bytes).frame? =
      some (x.proof1 P env) :=
    Request.frame?_eq_some_of (Server.Protocol.Frame.parse_bytes h.proof1_wellFormed)
      (by exact List.mem_singleton.mpr rfl)
  have hexec := exec_exchangeBody P env x.server.exchange (x.proof1 P env)
    (s := x.session1 P env) (fun _ => by exact (by decide : 1 + 1 < 2 ^ 64))
  rw [hcheck] at hexec
  refine ⟨e, ?_⟩
  rw [step_known P env hframe rfl hs]
  exact congrArg Prod.fst hexec

end Presents

theorem exec_post_error (sd : ServerDraws) (gap₁ gap₂ : List Request) (store : SessionStore)
    (e : Client.Protocol.Endpoint) {raw : Bytes} {err : Server.Config.Failure}
    (h : (step P env (Runs.final (step P env) store (Completeness.meanwhile gap₁ gap₂ e))
      (request sd e raw)).1 = .error err) :
    ∃ store', exec ((serverHttp P env sd gap₁ gap₂).post e raw) store =
      (.error rejection, store') := by
  refine ⟨(step P env (Runs.final (step P env) store (Completeness.meanwhile gap₁ gap₂ e))
    (request sd e raw)).2, ?_⟩
  change ((step P env _ _).1.mapError _, (step P env _ _).2) = _
  rw [h]
  rfl

/-- A session with a license that stage 2 refuses ends at the second request. -/
theorem runSession_refused {x₀ x : Play} (h : Presents P env x₀ x)
    (hlicense : ¬ Accepted P env x.name x.license) {gap₁ gap₂ : List Request}
    (h₁ : Elsewhere x.sid gap₁) (store : SessionStore) :
    (exec (runSession P (serverHttp P env x.server gap₁ gap₂) x.client x.name x.license)
      store).1 = .error rejection := by
  obtain ⟨hresp₁, hsess₁, hnewest₁⟩ := Play.server_hello h.honest store
  have hsid : x₀.sid = x.sid := congrArg (fun c : Draws => c.sessionId.val) h.client.symm
  rw [← h.server, ← h.hello_eq] at hresp₁ hsess₁ hnewest₁
  rw [← h.challenge_eq] at hresp₁
  rw [← h.session1_eq, hsid] at hsess₁
  rw [hsid] at hnewest₁
  generalize hstore₁ : (step P env store (.hello x.server.hello (x.hello P).bytes)).2 = store₁
    at hsess₁ hnewest₁
  have hkept₁ := run_keeps P env h₁ hsess₁ hnewest₁
  obtain ⟨e, hrefused⟩ := h.server_rejects hlicense hkept₁
  have hpost₁ : exec ((serverHttp P env x.server gap₁ gap₂).post .hello (x.hello P).bytes) store =
      (.ok (x.challenge P env).bytes, store₁) :=
    exec_post P env x.server gap₁ gap₂ (Prod.ext hresp₁ hstore₁)
  obtain ⟨store₂, hpost₂⟩ := exec_post_error x.server gap₁ gap₂ store₁ .exchange hrefused
  have hhello : Client.Protocol.hello P x.client x.name = (narrow (x.hello P), narrowT (x.t1 P)) := by
    rw [h.client, h.name, h.hello_eq, h.t1_eq]
    exact Play.client_hello h.honest
  have hserialize : (narrow (x.hello P)).serialize = (x.hello P).bytes := by
    rw [h.hello_eq]
    exact client_serialize (Play.hello_wellFormed h.honest)
  have hchallenge : Client.Protocol.openChallenge P (Server.Config.serverSignPk P env)
      (narrowT (x.t1 P)) (x.challenge P env).bytes = .ok (x.chal P, narrowT (x.t2 P env)) := by
    rw [h.t1_eq, h.challenge_eq, h.chal_eq, h.t2_eq]
    exact Play.client_challenge h.honest
  have hproof1 := client_serialize h.proof1_wellFormed
  -- each step hands its value on, and the second post throws
  have hrun : exec (runSession P (serverHttp P env x.server gap₁ gap₂) x.client x.name x.license)
      store = (.error rejection, store₂) := by
    refine (Effects.exec_bind_ok (a := Server.Config.serverSignPk P env) rfl).trans ?_
    simp only [hhello]
    refine (Effects.exec_bind_ok (by rw [hserialize]; exact hpost₁)).trans ?_
    refine (Effects.exec_bind_ok (by rw [hchallenge]; rfl)).trans ?_
    refine (Effects.exec_bind_ok (by rw [h.client_establish]; rfl)).trans ?_
    simp only [h.client_proof1]
    exact Effects.exec_bind_error (by rw [hproof1]; exact hpost₂)
  rw [hrun]

/-- Whatever 25 bytes the client presents as its license, the session returns the flag if stage 2
accepts them for the name, and the server's one rejection if not. -/
theorem runSession_by_license (hsound : Sound P) (hblake : UsesBlake2b P.toHashes)
    (henv : env.vmBlobKey = none) {raw usernameNorm : Bytes}
    (hname : Client.LicenseFormat.normalizeUsername raw = .ok usernameNorm) (d : Draws)
    (sd : ServerDraws) {license : Bytes} (hlength : license.length = 25) {gap₁ gap₂ : List Request}
    (h₁ : Elsewhere d.sessionId.val gap₁) (h₂ : Elsewhere d.sessionId.val gap₂)
    (store : SessionStore) :
    (Accepted P env usernameNorm license ∧
        (exec (runSession P (serverHttp P env sd gap₁ gap₂) d usernameNorm license) store).1 =
          .ok Server.Config.flag) ∨
      (¬ Accepted P env usernameNorm license ∧
        (exec (runSession P (serverHttp P env sd gap₁ gap₂) d usernameNorm license) store).1 =
          .error rejection) := by
  obtain ⟨x₀, x, h, rfl, rfl, rfl, rfl⟩ := exists_presents hsound hblake henv hname d sd hlength
  by_cases hlicense : Accepted P env x.name x.license
  · exact .inl ⟨hlicense, runSession_honest (h.toHonest hlicense) h₁ h₂ store⟩
  · exact .inr ⟨hlicense, runSession_refused h hlicense h₁ store⟩

end RankGate.Session.LicenseGate
