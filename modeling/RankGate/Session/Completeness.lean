/- Module: RankGate/Session/Completeness
   source: client/src/net/protocol.cpp (run_session), server/app/challenge_logic.py
   digest: The client's session against the three handlers, with other traffic in between, ends with the flag. -/

import RankGate.Session.ClientSteps
import RankGate.Session.ServerSide
import RankGate.Vm.CommittedBlob

set_option autoImplicit false
set_option relaxedAutoImplicit false

namespace RankGate.Session.Completeness

open ByteCodec (Bytes zeros)
open Effects (exec)
open RankGate.Client (Blake2b UsesBlake2b)
open RankGate.Client.Protocol (Draws Endpoint Http runSession)
open RankGate.Client.Vm (VMResult)
open RankGate.Crypto (Primitives Sound)
open RankGate.Handlers.Requests
open RankGate.Server.Config (Env)
open RankGate.Server.Sessions (SessionStore)
open RankGate.Server.Verifier (buildLicenseStruct)
open RankGate.Session.ClientSteps (Course runSession_eq_ok_iff)
open RankGate.Session.Retention
open RankGate.Session.Script
open RankGate.Wire.ChannelLockstep (client_serialize narrowT)

def request (sd : ServerDraws) : Endpoint → Bytes → Request
  | .hello, raw => .hello sd.hello raw
  | .exchange, raw => .exchange sd.exchange raw
  | .finalize, raw => .finalize sd.finalize raw

/-- What the server handles before a frame of the session reaches it. -/
def meanwhile (gap₁ gap₂ : List Request) : Endpoint → List Request
  | .hello => []
  | .exchange => gap₁
  | .finalize => gap₂

def rejection : String :=
  "server rejected: \x7b\"ok\":false,\"error\":\"invalid proof\"\x7d"

section Server

variable (P : Primitives) (env : Env) (sd : ServerDraws) (gap₁ gap₂ : List Request)

def serverHttp : Http (StateM SessionStore) where
  publicKey := pure (Server.Config.serverSignPk P env)
  post e raw := do
    modify fun store => Runs.final (step P env) store (meanwhile gap₁ gap₂ e)
    let (outcome, store) := step P env (← get) (request sd e raw)
    set store
    liftM (outcome.mapError fun _ => rejection)

theorem exec_post {store store' : SessionStore} {e : Endpoint} {raw resp : Bytes}
    (h : step P env (Runs.final (step P env) store (meanwhile gap₁ gap₂ e))
      (request sd e raw) = (.ok resp, store')) :
    exec ((serverHttp P env sd gap₁ gap₂).post e raw) store = (.ok resp, store') := by
  change ((step P env _ _).1.mapError _, (step P env _ _).2) = _
  rw [h]
  rfl

theorem step_of_post {store store' : SessionStore} {e : Endpoint} {raw resp : Bytes}
    (h : exec ((serverHttp P env sd gap₁ gap₂).post e raw) store = (.ok resp, store')) :
    step P env (Runs.final (step P env) store (meanwhile gap₁ gap₂ e)) (request sd e raw) =
      (.ok resp, store') := by
  change ((step P env _ _).1.mapError _, (step P env _ _).2) = _ at h
  obtain ⟨hout, hstore⟩ := Prod.mk.inj h
  refine Prod.ext ?_ hstore
  cases hstep : (step P env (Runs.final (step P env) store (meanwhile gap₁ gap₂ e))
    (request sd e raw)).1 with
  | ok response =>
    rw [hstep] at hout
    exact congrArg Except.ok (Except.ok.inj hout)
  | error failure =>
    rw [hstep] at hout
    cases hout

end Server

section Session

variable {P : Primitives} {env : Env}

/-- Both parties come to the session with what the script asks of them. -/
theorem exists_honest (hsound : Sound P) (hblake : UsesBlake2b P.toHashes)
    (henv : env.vmBlobKey = none) {raw usernameNorm : Bytes}
    (hname : Client.LicenseFormat.normalizeUsername raw = .ok usernameNorm) (d : Draws)
    (sd : ServerDraws) : ∃ x : Play, x.Honest P env ∧ x.client = d ∧ x.server = sd ∧
      x.name = usernameNorm ∧ x.license = buildLicenseStruct P env usernameNorm := by
  obtain ⟨shared, hclient, hserver⟩ := hsound.agreement d.priv.val sd.hello.serverPriv.val
    d.priv.property sd.hello.serverPriv.property
  -- the transcript up to T2 depends on neither the shared secret nor the machine's result
  let x (vm : VMResult) : Play :=
    ⟨d, sd, usernameNorm, buildLicenseStruct P env usernameNorm, shared, vm⟩
  obtain ⟨vm, hclientVm, hserverVm, hdigest, hstate⟩ := Vm.CommittedBlob.runVm_agree hblake henv
    usernameNorm (buildLicenseStruct P env usernameNorm) sd.hello.serverRandom.val d.sessionId.val
    ((x ⟨[], [], 0, 0⟩).t2 P env).state sd.hello.serverRandom.val
  refine ⟨x vm, ?_, rfl, rfl, rfl, rfl⟩
  constructor
  · exact Username.normalizeUsername_canonical hname
  · exact License.length_buildLicenseStruct P env usernameNorm
  · exact License.validateLicense_build P env usernameNorm
  · exact hclient
  · exact hserver
  · exact hclientVm
  · exact hserverVm
  · exact hdigest
  · exact hstate
  · exact hsound.signature
  · exact hsound.aead

theorem honest_course {x : Play} (h : x.Honest P env) {gap₁ gap₂ : List Request}
    (h₁ : Elsewhere x.sid gap₁) (h₂ : Elsewhere x.sid gap₂) (store : SessionStore) :
    ∃ y : Course SessionStore, y.Follows P x.client x.name x.license
      (serverHttp P env x.server gap₁ gap₂) store Server.Config.flag := by
  obtain ⟨hresp₁, hsess₁, hnewest₁⟩ := Play.server_hello h store
  generalize hstore₁ : (step P env store (.hello x.server.hello (x.hello P).bytes)).2 = store₁
    at hsess₁ hnewest₁
  have hkept₁ := run_keeps P env h₁ hsess₁ hnewest₁
  obtain ⟨hresp₂, hsess₂, hnewest₂⟩ := Play.server_exchange h hkept₁
  generalize hstore₂ : (step P env (Runs.final (step P env) store₁ gap₁)
    (.exchange x.server.exchange (x.proof1 P env).bytes)).2 = store₂ at hsess₂ hnewest₂
  have hkept₂ := run_keeps P env h₂ hsess₂ hnewest₂
  have hresp₃ := Play.server_finalize h hkept₂
  generalize hstore₃ : (step P env (Runs.final (step P env) store₂ gap₂)
    (.finalize x.server.finalize (x.proof2 P env).bytes)).2 = store₃
  have hpost₁ : exec ((serverHttp P env x.server gap₁ gap₂).post .hello (x.hello P).bytes) store =
      (.ok (x.challenge P env).bytes, store₁) :=
    exec_post P env x.server gap₁ gap₂ (Prod.ext hresp₁ hstore₁)
  have hpost₂ : exec ((serverHttp P env x.server gap₁ gap₂).post .exchange (x.proof1 P env).bytes)
      store₁ = (.ok (x.serverProof1 P env).bytes, store₂) :=
    exec_post P env x.server gap₁ gap₂ (Prod.ext hresp₂ hstore₂)
  have hpost₃ : exec ((serverHttp P env x.server gap₁ gap₂).post .finalize (x.proof2 P env).bytes)
      store₂ = (.ok (x.sealedFlag P env).bytes, store₃) :=
    exec_post P env x.server gap₁ gap₂ (Prod.ext hresp₃ hstore₃)
  -- frame by frame: what the client posts is the script's frame, and so is each answer
  have hhello := client_serialize (Play.hello_wellFormed h)
  have hproof1 := client_serialize (Play.proof1_wellFormed h)
  have hproof2 := client_serialize (Play.proof2_wellFormed P env x)
  refine ⟨⟨Server.Config.serverSignPk P env, store, (x.challenge P env).bytes, store₁, x.chal P,
    narrowT (x.t2 P env), x.clientSession P env, (x.serverProof1 P env).bytes, store₂,
    x.serverChallenge2, narrowT (x.t4 P env), (x.sealedFlag P env).bytes, store₃⟩, rfl, ?_, ?_, ?_, ?_,
    ?_, ?_, ?_⟩
  · rw [Course.hello, Play.client_hello h, hhello]
    exact hpost₁
  · rw [Course.hello, Play.client_hello h]
    exact Play.client_challenge h
  · exact Play.client_establish h
  · rw [Course.proof1, Play.client_proof1 h, hproof1]
    exact hpost₂
  · rw [Course.proof1, Play.client_proof1 h]
    exact Play.client_serverProof1 h
  · rw [Course.proof2, Play.client_proof2, hproof2]
    exact hpost₃
  · rw [Course.proof2, Play.client_proof2]
    exact Play.client_sealedFlag h

theorem runSession_honest {x : Play} (h : x.Honest P env) {gap₁ gap₂ : List Request}
    (h₁ : Elsewhere x.sid gap₁) (h₂ : Elsewhere x.sid gap₂) (store : SessionStore) :
    (exec (runSession P (serverHttp P env x.server gap₁ gap₂) x.client x.name x.license)
      store).1 = .ok Server.Config.flag := by
  obtain ⟨y, hy⟩ := honest_course h h₁ h₂ store
  rw [(runSession_eq_ok_iff P _ _ _ _).mpr ⟨y, hy, rfl⟩]

end Session

/-- An undisturbed session ends with the flag: every check on either side passes, from any store
the server can have reached, with any other traffic that does not crowd the session out. -/
theorem runSession_returns_flag (P : Primitives) (hsound : Sound P)
    (hblake : UsesBlake2b P.toHashes) (env : Env) (henv : env.vmBlobKey = none)
    (rs : List Request) {raw usernameNorm : Bytes}
    (hname : Client.LicenseFormat.normalizeUsername raw = .ok usernameNorm) (d : Draws)
    (sd : ServerDraws) {gap₁ gap₂ : List Request} (h₁ : Elsewhere d.sessionId.val gap₁)
    (h₂ : Elsewhere d.sessionId.val gap₂) :
    (exec (runSession P (serverHttp P env sd gap₁ gap₂) d usernameNorm
      (buildLicenseStruct P env usernameNorm)) (storeAfter P env rs)).1 = .ok Server.Config.flag := by
  obtain ⟨x, h, rfl, rfl, rfl, hlicense⟩ := exists_honest hsound hblake henv hname d sd
  rw [← hlicense]
  exact runSession_honest h h₁ h₂ _

/-- The transparent primitives with the client's BLAKE2b for the library's. -/
def hashing : Primitives := { Primitives.transparent with
  blake2b := fun data key size =>
    match Blake2b.blake2b data key size with
    | .ok digest => digest
    | .error _ => zeros size
  length_blake2b := fun data key size hkey hpos hsize => by
    cases h : Blake2b.blake2b data key size with
    | ok digest => exact Blake2b.length_blake2b h
    | error e => exact ByteCodec.length_zeros size }

theorem hashing_sound : Sound hashing where
  aead := Primitives.transparent_sound.aead
  agreement := Primitives.transparent_sound.agreement
  signature := Primitives.transparent_sound.signature

theorem hashing_usesBlake2b : UsesBlake2b hashing.toHashes := by
  intro data key size digest h
  change (match Blake2b.blake2b data key size with | .ok digest => digest | .error _ => _) = digest
  rw [h]

def sampleServerDraws : ServerDraws :=
  ⟨⟨sampleDraw 32, sampleDraw 16, sampleDraw 24⟩, ⟨sampleDraw 16, sampleDraw 24⟩,
    ⟨sampleDraw 24, sampleDraw 24⟩⟩

def sampleDraws : Draws :=
  ⟨sampleDraw 32, sampleDraw 16, sampleDraw 16, sampleDraw 24, sampleDraw 24, sampleDraw 24⟩

theorem runSession_sample :
    (exec (runSession hashing (serverHttp hashing sampleEnv sampleServerDraws [] []) sampleDraws
      [0x61] (buildLicenseStruct hashing sampleEnv [0x61])) ∅).1 = .ok Server.Config.flag := by
  have hname : Client.LicenseFormat.normalizeUsername [0x61] = .ok [0x61] := by rfl
  obtain ⟨x, hx, hclient, hserver, hxname, hxlicense⟩ := exists_honest hashing_sound
    hashing_usesBlake2b (show sampleEnv.vmBlobKey = none from rfl) hname sampleDraws
    sampleServerDraws
  have hflag := runSession_honest hx (elsewhere_nil _) (elsewhere_nil _) ∅
  rwa [hclient, hserver, hxname, hxlicense] at hflag

/-- A name that needs normalising, a session that another HELLO and a stray frame run into. -/
theorem runSession_returns_flag_sample :
    (exec (runSession hashing (serverHttp hashing sampleEnv
        ⟨⟨sampleDraw 32, sampleDraw 16, sampleDraw 24⟩, ⟨sampleDraw 16, sampleDraw 24⟩,
          ⟨sampleDraw 24, sampleDraw 24⟩⟩ [sampleHello 1] [.finalize ⟨sampleDraw 24, sampleDraw 24⟩ []])
        ⟨sampleDraw 32, sampleDraw 16, ⟨List.replicate 16 1, rfl⟩, sampleDraw 24, sampleDraw 24,
          sampleDraw 24⟩ [0x61] (buildLicenseStruct hashing sampleEnv [0x61]))
      (storeAfter hashing sampleEnv [sampleHello 1])).1 = .ok Server.Config.flag := by
  refine runSession_returns_flag hashing hashing_sound hashing_usesBlake2b sampleEnv rfl
    [sampleHello 1]
    (show Client.LicenseFormat.normalizeUsername [0x20, 0x41] = .ok [0x61] from by rfl) _ _
    ⟨?_, ?_⟩ ⟨?_, ?_⟩
  all_goals decide +kernel

end RankGate.Session.Completeness
