/- Module: RankGate/Session/UsernameAgreement
   source: client/src/challenge/license_format.cpp, server/app/verifier.py, server/app/challenge_logic.py
   digest: Both normalisations accept the same names with the same result, and leave a result alone. -/

import RankGate.Handlers.Requests
import RankGate.Session.Username
import RankGate.Wire.Payloads

set_option autoImplicit false
set_option relaxedAutoImplicit false

namespace RankGate.Session.UsernameAgreement

open ByteCodec (Bytes)
open Effects (exec)
open RankGate.Client
open RankGate.Crypto (Primitives)
open RankGate.Handlers.Requests
open RankGate.Server
open RankGate.Server.Sessions (SessionStore)
open RankGate.Session.Username
open RankGate.Wire.Payloads

/-- Two programs accept the same input with the same result, or both reject it. -/
def Agree {ε ε' α : Type} (x : Except ε α) (y : Except ε' α) : Prop :=
  ∀ a, x = .ok a ↔ y = .ok a

theorem strip_map (b : Bytes) :
    Verifier.strip (b.map UInt8.toNat) = (LicenseFormat.trim b).map UInt8.toNat := by
  have hblank : Verifier.isBlank ∘ UInt8.toNat = LicenseFormat.isWs := funext isBlank_toNat
  rw [Verifier.strip, LicenseFormat.trim, List.dropWhile_map, hblank, ← List.map_reverse,
    List.dropWhile_map, hblank, List.map_reverse]

theorem canonicalChar_agree (c : UInt8) :
    Agree (LicenseFormat.canonicalChar c) (Verifier.canonicalChar c.toNat) := by
  intro a
  unfold LicenseFormat.canonicalChar Verifier.canonicalChar
  simp only [UInt8.le_iff_toNat_le, UInt8.lt_iff_toNat_lt, UInt8.reduceToNat]
  split_ifs with hrange hupper
  · exact ⟨fun h => (nomatch h), fun h => (nomatch h)⟩
  · have hadd : UInt8.ofNat (c.toNat + 0x20) = c + 0x20 := by
      rw [UInt8.ofNat_add, UInt8.ofNat_toNat]
      rfl
    rw [hadd, Except.ok.injEq, Except.ok.injEq]
  · rw [UInt8.ofNat_toNat, Except.ok.injEq, Except.ok.injEq]

theorem normalizeUsername_agree (P : Primitives) (b : Bytes) :
    Agree (LicenseFormat.normalizeUsername b)
      (Verifier.normalizeUsername P (b.map UInt8.toNat)) := by
  have hnfc : P.nfc (b.map UInt8.toNat) = b.map UInt8.toNat := by
    refine P.nfc_latin1 _ fun c hc => ?_
    obtain ⟨x, -, rfl⟩ := List.mem_map.mp hc
    exact x.toNat_lt
  intro name
  rw [LicenseFormat.normalizeUsername, Verifier.normalizeUsername, hnfc, strip_map]
  generalize LicenseFormat.trim b = s
  have hlen : (1 ≤ (s.map UInt8.toNat).length ∧ (s.map UInt8.toNat).length ≤ Config.vmUsernameCap) ↔
      (s ≠ [] ∧ s.length ≤ Constants.vmUsernameCap) := by
    rw [List.length_map, Nat.succ_le_iff, List.length_pos_iff]
    rfl
  by_cases hs : s ≠ [] ∧ s.length ≤ Constants.vmUsernameCap
  · rw [Effects.except_ensure_true hs, Effects.except_ensure_true (hlen.mpr hs),
      Effects.mapM_eq_ok_iff, Effects.mapM_eq_ok_iff, List.forall₂_map_left_iff]
    have hstep : (fun (c : UInt8) x => LicenseFormat.canonicalChar c = .ok x) =
        fun c x => Verifier.canonicalChar c.toNat = .ok x :=
      funext fun c => funext fun x => propext (canonicalChar_agree c x)
    rw [hstep]
  · rw [Effects.except_ensure_false hs, Effects.except_ensure_false (mt hlen.mp hs)]
    constructor
    · intro h
      cases h
    · intro h
      cases h

section Stored

variable (P : Primitives)

theorem openHello_name {f : Server.Protocol.Frame} {t : Server.Protocol.Transcript}
    {pub stored name : Bytes} (d : Protocol.Draws) (hname : Canonical name)
    (hpayload : f.encryptedPayload = Protocol.helloPayload P d name)
    (h : ChallengeLogic.openHello P f = .ok (t, pub, stored)) : stored = name := by
  obtain ⟨⟨payload, t'⟩, hopen, h⟩ := Effects.except_bind_eq_ok h
  obtain ⟨t'', -, hopen⟩ := Effects.except_bind_eq_ok hopen
  cases hopen
  have hlen := hname.length_le
  have hparse := (hello_recovers_iff ⟨⟨P.x25519Base d.priv.val, P.length_x25519Base _⟩,
    d.clientRandom, name⟩).mpr (show name.length < 65536 by omega)
  rw [hpayload, helloPayload_eq] at h
  obtain ⟨stored', hnorm, h⟩ := Effects.except_bind_eq_ok ((Effects.except_bind_ok hparse).symm.trans h)
  cases h
  exact Except.ok.inj (hnorm.symm.trans (normalizeUsername_of_canonical P hname))

theorem stored_name (env : Config.Env) (sd : ChallengeLogic.HelloDraws) (store : SessionStore)
    {raw resp name : Bytes} {f : Server.Protocol.Frame} (d : Protocol.Draws)
    (hname : Canonical name) (hraw : Server.Protocol.Frame.parse raw = .ok f)
    (hpayload : f.encryptedPayload = Protocol.helloPayload P d name)
    (hresp : (exec (ChallengeLogic.handleHello P env sd raw) store).1 = .ok resp) :
    ∃ s, (exec (ChallengeLogic.handleHello P env sd raw) store).2.lookup f.sessionId = some s ∧
      s.usernameNorm = name := by
  change (step P env store (.hello sd raw)).1 = _ at hresp
  change ∃ s, (step P env store (.hello sd raw)).2.lookup f.sessionId = some s ∧ _
  obtain ⟨g, hf⟩ := frame_of_answered P env hresp
  obtain rfl : g = f := Except.ok.inj ((Request.frame?_eq_some hf).1.symm.trans hraw)
  rw [lookup_hello_self P env store hf rfl]
  rw [step_hello P env store hf rfl] at hresp
  obtain ⟨t, pub, stored, shared, hcheck, -, hafter⟩ := Handlers.Specs.helloBody_ok P env sd g
    (fun _ => by exact (by decide : 0 + 1 < 2 ^ 64)) (Prod.ext hresp rfl)
  have hopen := (Handlers.Specs.helloCheck_ok P sd g hcheck).2.1
  have hstored := openHello_name P d hname hpayload hopen
  exact ⟨_, rfl, (congrArg Sessions.Session.usernameNorm hafter).trans hstored⟩

end Stored

/-- Both sides bring every name into the same canonical form, or both refuse it; the form stays as
it is under either, and is what the server keeps of the client's HELLO. -/
theorem normalizeUsername_agrees (P : Primitives) (b : Bytes) :
    Agree (LicenseFormat.normalizeUsername b) (Verifier.normalizeUsername P (b.map UInt8.toNat)) ∧
      ∀ name, LicenseFormat.normalizeUsername b = .ok name →
        Canonical name ∧ LicenseFormat.normalizeUsername name = .ok name ∧
        Verifier.normalizeUsername P (name.map UInt8.toNat) = .ok name ∧
        ∀ (env : Config.Env) (sd : ChallengeLogic.HelloDraws) (store : SessionStore) raw resp f d,
          Server.Protocol.Frame.parse raw = .ok f →
          f.encryptedPayload = Protocol.helloPayload P d name →
          (exec (ChallengeLogic.handleHello P env sd raw) store).1 = .ok resp →
          ∃ s, (exec (ChallengeLogic.handleHello P env sd raw) store).2.lookup f.sessionId = some s ∧
            s.usernameNorm = name := by
  refine ⟨normalizeUsername_agree P b, fun name hname => ?_⟩
  have hcanonical := normalizeUsername_canonical hname
  have hserver := normalizeUsername_of_canonical P hcanonical
  refine ⟨hcanonical, (normalizeUsername_agree P name name).mpr hserver, hserver, ?_⟩
  intro env sd store raw resp f d hraw hpayload hresp
  exact stored_name P env sd store d hcanonical hraw hpayload hresp

end RankGate.Session.UsernameAgreement
