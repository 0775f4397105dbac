/- Module: RankGate/Session/SolverVerdict
   source: tools/solve_full_challenge.py, server/app/main.py, server/app/challenge_logic.py
   digest: What the reference solver makes of a name and a license, in process and over HTTP. -/

import RankGate.Session.AppVerdict
import RankGate.Session.SolverAgreement

set_option autoImplicit false
set_option relaxedAutoImplicit false

namespace RankGate.Session.SolverVerdict

open ByteCodec (Bytes ascii)
open Effects (exec)
open RankGate.Client (UsesBlake2b)
open RankGate.Client.Protocol (Draws Endpoint runSession)
open RankGate.Crypto (Primitives Sound)
open RankGate.Handlers.HttpSurface (requests)
open RankGate.Handlers.Requests
open RankGate.Server.Config (Env Failure)
open RankGate.Server.Main (Call Rendering compact genericError)
open RankGate.Server.Sessions (SessionStore)
open RankGate.Session.Completeness (serverHttp)
open RankGate.Session.AppVerdict (elsewhere_sample)
open RankGate.Session.Completeness (sampleDraws sampleServerDraws)
open RankGate.Session.HttpSession (serverNetwork)
open RankGate.Session.LicenseTamper (Accepted)
open RankGate.Session.Retention
open RankGate.Session.Script (ServerDraws)
open RankGate.Session.SolverAgreement
open RankGate.Tools.Solver

/-- Whatever frames the client takes a flag from, the solver takes the same flag from, and leaves the
peer in the same state. Where the answers to the two proofs have their sizes, it takes no other. -/
theorem solver_matches_client {σ : Type} {P : Primitives} {env : Env}
    {http : Client.Protocol.Http (StateM σ)} {send : Transport (StateM σ)}
    (hblake : UsesBlake2b P.toHashes) (henv : env.vmBlobKey = none)
    (hpk : ∀ s, exec http.publicKey s = (.ok (Server.Config.serverSignPk P env), s))
    (hsend : Matches http send) (d : Draws) {name license : Bytes} (hname : name.length ≤ 64)
    (hlicense : license.length = 25) (s : σ) :
    (∀ flag s', exec (runSession P http d name license) s = (.ok flag, s') →
      exec (session P env send d name license) s = (.ok flag, s')) ∧
    (OpensToLength P → Sized http →
      (exec (runSession P http d name license) s).1.toOption =
        (exec (session P env send d name license) s).1.toOption ∧
      (exec (runSession P http d name license) s).2 =
        (exec (session P env send d name license) s).2) := by
  have hruns := session_runs hblake henv hpk hsend d hname hlicense
  refine ⟨fun flag s' h => ?_, fun hopens hsized => ?_⟩
  · rw [hruns.forward (congrArg Prod.fst h), h]
  · exact hruns.both (not_not.mpr ⟨hopens, hsized⟩) s

section Transports

variable (P : Primitives) (env : Env) (sd : ServerDraws)

private theorem toOption_mapError {ε δ α : Type} (x : Except ε α) (f : ε → δ) :
    (x.mapError f).toOption = x.toOption := by
  cases x <;> rfl

def inProc : Transport (StateM SessionStore) :=
  inProcTransport P env sd.hello sd.exchange sd.finalize

theorem matches_inProc : Matches (serverHttp P env sd [] []) (inProc P env sd) := by
  intro e raw store
  cases e with
  | hello => exact ⟨(toOption_mapError _ _).trans (toOption_mapError _ _).symm, rfl⟩
  | exchange => exact ⟨(toOption_mapError _ _).trans (toOption_mapError _ _).symm, rfl⟩
  | finalize => exact ⟨(toOption_mapError _ _).trans (toOption_mapError _ _).symm, rfl⟩

variable (render : Rendering) (gap₁ gap₂ : List Call) (json : Bytes → Except String (List Char))

end Transports

section Sample

open RankGate.Handlers.Requests (sampleEnv)
open RankGate.Server.Verifier (buildLicenseStruct)
open RankGate.Session.Completeness (hashing hashing_sound hashing_usesBlake2b)

/-- The client's session with an untouched server, taken over by the solver. -/
theorem solver_matches_client_sample :
    (exec (session hashing sampleEnv (inProc hashing sampleEnv sampleServerDraws) sampleDraws [0x61]
      (buildLicenseStruct hashing sampleEnv [0x61])) ∅).1 = .ok Server.Config.flag := by
  have hname : Client.LicenseFormat.normalizeUsername [0x61] = .ok [0x61] := rfl
  have hlen := License.length_buildLicenseStruct hashing sampleEnv [0x61]
  obtain ⟨-, hflag⟩ | ⟨hrefused, -⟩ := LicenseGate.runSession_by_license hashing_sound
    hashing_usesBlake2b (show sampleEnv.vmBlobKey = none from rfl) hname sampleDraws
    sampleServerDraws hlen (elsewhere_nil _) (elsewhere_nil _) ∅
  · have hsession := (solver_matches_client hashing_usesBlake2b
      (show sampleEnv.vmBlobKey = none from rfl) (fun _ => rfl)
      (matches_inProc hashing sampleEnv sampleServerDraws) sampleDraws
      (show ([0x61] : Bytes).length ≤ 64 by decide) hlen ∅).1 _ _ (Effects.exec_of_fst hflag)
    rw [hsession]
  · exact absurd (License.validateLicense_build hashing sampleEnv [0x61]) hrefused

end Sample

section Prepare

variable (P : Primitives) (env : Env)

/-- The license, if one is given, is one that the server takes for the name. -/
def Fits (name : Bytes) (licenseStr : Option (List Nat)) : Prop :=
  ∀ text, licenseStr = some text → text ≠ [] →
    ∃ struct, Server.Verifier.decodeLicense text = .ok struct ∧ Accepted P env name struct

theorem length_of_decodeLicense {text : List Nat} {struct : Bytes}
    (h : Server.Verifier.decodeLicense text = .ok struct) : struct.length = 25 := by
  obtain ⟨-, h⟩ := Effects.except_ensure_eq_ok h
  obtain ⟨blocks, -, h⟩ := Effects.except_bind_eq_ok h
  obtain ⟨hlen, h⟩ := Effects.except_ensure_eq_ok h
  cases h
  exact hlen

end Prepare

section Solve

variable {P : Primitives} {env : Env} (hsound : Sound P) (hblake : UsesBlake2b P.toHashes)
  (henv : env.vmBlobKey = none)

include hsound hblake henv

end Solve

section Sample

open RankGate.Handlers.Requests (sampleEnv)
open RankGate.Session.Completeness (hashing hashing_sound hashing_usesBlake2b)

end Sample

end RankGate.Session.SolverVerdict
