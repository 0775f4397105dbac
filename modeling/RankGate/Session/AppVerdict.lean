/- Module: RankGate/Session/AppVerdict
   source: client/src/app.cpp, client/src/net/protocol.cpp, server/app/main.py,
     tools/generate_license.py
   digest: What the two programs together make of a command line, and of the author's licenses. -/

import RankGate.Client.App
import RankGate.Session.HttpSession
import RankGate.Session.LicenseAgreement
import RankGate.Session.LicenseGate
import RankGate.Session.UsernameAgreement

set_option autoImplicit false
set_option relaxedAutoImplicit false

namespace RankGate.Session.AppVerdict

open ByteCodec (Bytes)
open Effects (exec)
open RankGate.Client (UsesBlake2b)
open RankGate.Client.App
open RankGate.Client.LicenseFormat (decodeLicense normalizeUsername)
open RankGate.Client.Protocol (Draws)
open RankGate.Client.Transport (HttpClient)
open RankGate.Crypto (Primitives Sound)
open RankGate.Handlers.HttpSurface (requests)
open RankGate.Server.Config (Env)
open RankGate.Server.Main (Call Compact Rendering compact compact_compact)
open RankGate.Server.Sessions (SessionStore)
open RankGate.Session.HttpSession
open RankGate.Session.Completeness (sampleDraws sampleServerDraws)
open RankGate.Session.LicenseTamper (Accepted)
open RankGate.Session.Retention
open RankGate.Session.Script (ServerDraws)

/-- The name is printable and short, the text decodes, and stage 2 takes the license for the name. -/
def Licensed (P : Primitives) (env : Env) (username license : Bytes) : Prop :=
  ∃ name struct, normalizeUsername username = .ok name ∧ decodeLicense license = .ok struct ∧
    Accepted P env name struct

/-- The line that `generate_license.py` prints. -/
def generateLicense (P : Primitives) (env : Env) (username : List Nat) :
    Except Server.Config.Failure (List Nat) := do
  let usernameNorm ← Server.Verifier.normalizeUsername P username
  let struct := Server.Verifier.buildLicenseStruct P env usernameNorm
  Server.Verifier.encodeLicense struct

/-- It licenses every name that the client takes. -/
theorem generateLicense_licensed (P : Primitives) (env : Env) {username name : Bytes}
    (hname : normalizeUsername username = .ok name) : ∃ license : Bytes,
    generateLicense P env (username.map UInt8.toNat) = .ok (license.map UInt8.toNat) ∧
      Licensed P env username license := by
  obtain ⟨license, hencode, hdecode⟩ := LicenseGate.exists_license P env name
  have hserver := (UsernameAgreement.normalizeUsername_agree P username name).mp hname
  exact ⟨license, (Effects.except_bind_ok hserver).trans hencode, name, _, hname, hdecode,
    License.validateLicense_build P env name⟩

section Verdict

variable {P : Primitives} {env : Env} {render : Rendering} (sd : ServerDraws) {gap₁ gap₂ : List Call}
  (json : Bytes → Except String (List Char)) (host : Bytes) (port : UInt16) {d : Draws}

theorem runSession_unreachable {serverUrl : Bytes} (h : ¬ Reaches serverUrl host port)
    (name struct : Bytes) (store : SessionStore) : ∃ e,
    (exec (Client.Transport.runSession P (serverNetwork P env render sd gap₁ gap₂ json host port) serverUrl
      d name struct) store).1 = .error e := by
  unfold Client.Transport.runSession
  rw [Effects.exec_lift_bind]
  cases hurl : HttpClient.ofUrl serverUrl with
  | error e => exact ⟨e, rfl⟩
  | ok http =>
    have haddress : ¬ (http.host = host ∧ UInt16.ofInt http.port = port) :=
      fun haddr => h ⟨http, hurl, haddr⟩
    dsimp only
    have hkey : exec (http.over (serverNetwork P env render sd gap₁ gap₂ json host port)).publicKey store =
        (.error "WinHttpSendRequest failed (is the server running?)", store) :=
      Effects.exec_bind_error (Effects.exec_ensure_false haddress)
    exact ⟨_, congrArg Prod.fst (Effects.exec_bind_error hkey)⟩

variable (hsound : Sound P) (hblake : UsesBlake2b P.toHashes) (henv : env.vmBlobKey = none)
  (hrender : Compact render)
  (h₁ : Elsewhere d.sessionId.val (requests gap₁)) (h₂ : Elsewhere d.sessionId.val (requests gap₂))

include hsound hblake henv hrender h₁ h₂

theorem attempt_verdict (server username license : Bytes) (store : SessionStore) :
    (Reaches server host port ∧ Licensed P env username license ∧
      (exec (attempt P (serverNetwork P env render sd gap₁ gap₂ json host port) d server username license)
        store).1 = .ok Server.Config.flag) ∨
    (¬ (Reaches server host port ∧ Licensed P env username license) ∧ ∃ e,
      (exec (attempt P (serverNetwork P env render sd gap₁ gap₂ json host port) d server username license)
        store).1 = .error e) := by
  unfold attempt
  rw [Effects.exec_lift_bind]
  cases hname : normalizeUsername username with
  | error e =>
    refine .inr ⟨?_, e, rfl⟩
    rintro ⟨-, name, struct, hok, -⟩
    rw [hname] at hok
    cases hok
  | ok name =>
    dsimp only
    rw [Effects.exec_lift_bind]
    cases hstruct : decodeLicense license with
    | error e =>
      refine .inr ⟨?_, e, rfl⟩
      rintro ⟨-, name, struct, -, hok, -⟩
      rw [hstruct] at hok
      cases hok
    | ok struct =>
      dsimp only
      by_cases hreach : Reaches server host port
      · rw [runSession_eq P env hrender sd gap₁ gap₂ json hreach]
        obtain ⟨haccepted, hflag⟩ | ⟨hrefused, herror⟩ := LicenseGate.runSession_by_license hsound
          hblake henv hname d sd (LicenseGate.length_of_decodeLicense hstruct) h₁ h₂ store
        · exact .inl ⟨hreach, ⟨name, struct, hname, hstruct, haccepted⟩, hflag⟩
        · refine .inr ⟨?_, _, herror⟩
          rintro ⟨-, name', struct', hname', hstruct', haccepted⟩
          rw [hname] at hname'
          rw [hstruct] at hstruct'
          cases hname'
          cases hstruct'
          exact hrefused haccepted
      · exact .inr ⟨fun h => hreach h.1, runSession_unreachable sd json host port hreach name struct
          store⟩

/-- The exit code and the last lines say whether the name is licensed, and nothing of why not. The
guards, the decoys and the traffic of others have no part in it. -/
theorem portal_verdict (w : Surroundings) (args : Args) (input : List Bytes)
    (store : SessionStore) :
    let net := serverNetwork P env render sd gap₁ gap₂ json host port
    let exit := ((portal P net d w args input).run store).1
    (exit.code = 0 ∧ granted Server.Config.flag <:+ exit.out ∧ Reaches args.server host port ∧
      Licensed P env (entered args input).1 (entered args input).2.1) ∨
    (exit.code = 1 ∧ denied <:+ exit.out ∧ ¬ (Reaches args.server host port ∧
      Licensed P env (entered args input).1 (entered args input).2.1)) := by
  intro net exit
  have hexit : exit = conclude args.verbose (preamble w args input)
      (exec (attempt P net d args.server (entered args input).1 (entered args input).2.1)
        store).1 := rfl
  obtain ⟨hreach, hlicensed, hflag⟩ | ⟨hnot, e, herror⟩ := attempt_verdict sd json host port hsound
    hblake henv hrender h₁ h₂ args.server (entered args input).1 (entered args input).2.1 store
  · rw [hexit, hflag]
    exact .inl ⟨rfl, List.suffix_append _ _, hreach, hlicensed⟩
  · rw [hexit, herror]
    exact .inr ⟨rfl, List.suffix_append _ _, hnot⟩

omit sd json host port hsound hblake henv hrender h₁ h₂ in
theorem runApp_eq_portal {m : Type → Type} [Monad m] (net : Client.Transport.Network m)
    (w : Surroundings) {argv : List Bytes} {args : Args} (hargs : parseArgs argv {} = .ok args)
    (hhelp : args.help = false) (input : List Bytes) :
    runApp P net d w argv input = portal P net d w args input := by
  unfold runApp
  rw [hargs]
  dsimp only
  rw [hhelp]
  rfl

end Verdict

section Sample

open RankGate.Handlers.Requests (sampleEnv)
open RankGate.Session.Completeness (hashing hashing_sound hashing_usesBlake2b)

def sampleSurroundings : Surroundings := ⟨true, false, false, false, false, 0, 0⟩

theorem elsewhere_sample : Elsewhere sampleDraws.sessionId.val (requests []) := elsewhere_nil _

end Sample

/-- With the printed license, the program as it is shipped ends with the flag. -/
theorem generated_license_grants_access {P : Primitives} {env : Env} (hsound : Sound P)
    (hblake : UsesBlake2b P.toHashes) (henv : env.vmBlobKey = none) {username name : Bytes}
    (hname : normalizeUsername username = .ok name) {render : Rendering}
    (hrender : Compact render) (sd : ServerDraws) (d : Draws)
    {gap₁ gap₂ : List Call} (h₁ : Elsewhere d.sessionId.val (requests gap₁))
    (h₂ : Elsewhere d.sessionId.val (requests gap₂))
    (json : Bytes → Except String (List Char)) :
    ∃ license : Bytes,
      generateLicense P env (username.map UInt8.toNat) = .ok (license.map UInt8.toNat) ∧
      ∀ w input store,
        let net := serverNetwork P env render sd gap₁ gap₂ json (ByteCodec.ascii "127.0.0.1") 31337
        let argv := [ByteCodec.ascii "-u", username, ByteCodec.ascii "-l", license]
        let exit := ((runApp P net d w argv input).run store).1
        exit.code = 0 ∧ granted Server.Config.flag <:+ exit.out := by
  obtain ⟨license, hgenerate, hlicensed⟩ := generateLicense_licensed P env hname
  refine ⟨license, hgenerate, fun w input store => ?_⟩
  have hargs : parseArgs [ByteCodec.ascii "-u", username, ByteCodec.ascii "-l", license] {} =
      .ok { username, license, haveUsername := true, haveLicense := true } := rfl
  have hreach : Reaches (ByteCodec.ascii "http://127.0.0.1:31337") (ByteCodec.ascii "127.0.0.1")
      31337 := ⟨⟨ByteCodec.ascii "127.0.0.1", 31337⟩, by decide +kernel, rfl, by decide⟩
  intro net argv exit
  have hexit : exit = ((portal P net d w
      { username, license, haveUsername := true, haveLicense := true } input).run store).1 := by
    rw [← runApp_eq_portal net w hargs rfl]
  obtain ⟨hcode, hout, -⟩ | ⟨-, -, hnot⟩ := portal_verdict sd json (ByteCodec.ascii "127.0.0.1")
    31337 hsound hblake henv hrender h₁ h₂ w
    { username, license, haveUsername := true, haveLicense := true } input store
  · rw [hexit]
    exact ⟨hcode, hout⟩
  · exact absurd ⟨hreach, hlicensed⟩ hnot

/-- A name that is normalised on the way. -/
theorem generated_license_grants_access_sample :
    ∃ license : Bytes,
      generateLicense Completeness.hashing Handlers.Requests.sampleEnv [0x20, 0x41] =
        .ok (license.map UInt8.toNat) ∧
      ((runApp Completeness.hashing
        (serverNetwork Completeness.hashing Handlers.Requests.sampleEnv compact sampleServerDraws [] []
          (fun _ => .error "") (ByteCodec.ascii "127.0.0.1") 31337) sampleDraws sampleSurroundings
        [ByteCodec.ascii "-u", [0x20, 0x41], ByteCodec.ascii "-l", license] []).run ∅).1.code = 0 := by
  obtain ⟨license, hgenerate, hall⟩ := generated_license_grants_access Completeness.hashing_sound
    Completeness.hashing_usesBlake2b (show Handlers.Requests.sampleEnv.vmBlobKey = none from rfl)
    (show normalizeUsername [0x20, 0x41] = .ok [0x61] from by rfl) compact_compact sampleServerDraws
    sampleDraws
    elsewhere_sample elsewhere_sample (fun _ => .error "")
  exact ⟨license, hgenerate, (hall sampleSurroundings [] ∅).1⟩

end RankGate.Session.AppVerdict
