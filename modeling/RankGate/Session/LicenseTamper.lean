/- Module: RankGate/Session/LicenseTamper
   source: server/app/verifier.py (build_license_struct, validate_license)
   digest: Which check of stage 2 catches a changed byte of a valid license, position by position. -/

import RankGate.Session.License

set_option autoImplicit false
set_option relaxedAutoImplicit false

namespace RankGate.Session.LicenseTamper

open ByteCodec (Bytes)
open RankGate.Crypto (Primitives)
open RankGate.Server
open RankGate.Server.Config (Env)
open RankGate.Server.Verifier

section Bytes

variable {s : Bytes} {i : Nat} {v : UInt8}

theorem slice_set (a b : Nat) : slice (s.set i v) a b =
    if a ≤ i ∧ i < b then (slice s a b).set (i - a) v else slice s a b := by
  rw [slice, slice, List.drop_set]
  by_cases hlow : i < a
  · rw [if_pos hlow, if_neg (by omega)]
  · rw [if_neg hlow, List.take_set]
    split_ifs with hin
    · rfl
    · refine List.set_eq_of_length_le ?_
      rw [List.length_take]
      omega

theorem slice_set_of_not_mem {a b : Nat} (h : i < a ∨ b ≤ i) :
    slice (s.set i v) a b = slice s a b := by
  rw [slice_set, if_neg (by omega)]

theorem slice_set_ne {a b : Nat} (ha : a ≤ i) (hb : i < b) (hi : i < s.length)
    (hv : s[i]? ≠ some v) : slice (s.set i v) a b ≠ slice s a b := by
  intro heq
  rw [slice_set, if_pos ⟨ha, hb⟩] at heq
  have hget := congrArg (fun l => l[i - a]?) heq
  have hlen : i - a < (slice s a b).length := by
    rw [slice, List.length_take, List.length_drop]
    omega
  rw [List.getElem?_set_self hlen, slice, List.getElem?_take_of_lt (by omega), List.getElem?_drop,
    Nat.add_sub_cancel' ha] at hget
  exact hv hget.symm

theorem parityOf_append (a b : Bytes) : parityOf (a ++ b) = parityOf a ^^^ parityOf b := by
  induction b using List.reverseRecOn with
  | nil => simp [parityOf]
  | append_singleton b x ih =>
    rw [← List.append_assoc]
    simp only [parityOf, List.foldl_append, List.foldl_cons, List.foldl_nil] at ih ⊢
    rw [ih, UInt8.xor_assoc]

theorem parityOf_set (hi : i < s.length) :
    parityOf (s.set i v) = parityOf (s.take i) ^^^ (v ^^^ parityOf (s.drop (i + 1))) := by
  have hcons : v :: s.drop (i + 1) = [v] ++ s.drop (i + 1) := rfl
  have hsingle : parityOf [v] = v := UInt8.zero_xor
  rw [List.set_eq_take_append_cons_drop, if_pos hi, hcons, parityOf_append, parityOf_append,
    hsingle]

theorem parityOf_set_ne (hi : i < s.length) (hv : s[i]? ≠ some v) :
    parityOf (s.set i v) ≠ parityOf s := by
  intro heq
  have hself : s.set i s[i] = s := List.set_getElem_self hi
  have hold : parityOf s = parityOf (s.set i s[i]) := by rw [hself]
  rw [hold, parityOf_set hi, parityOf_set hi, UInt8.xor_right_inj, UInt8.xor_left_inj] at heq
  rw [List.getElem?_eq_getElem hi, heq] at hv
  exact hv rfl

end Bytes

section Stage2

variable (P : Primitives) (env : Env) (usernameNorm : Bytes)

def Accepted (struct : Bytes) : Prop :=
  ∃ lic, validateLicense P env usernameNorm struct = .ok lic

/-- The four checks of stage 2, on the bytes they read. -/
theorem accepted_iff {s : Bytes} (hs : s.length = 25) : Accepted P env usernameNorm s ↔
    s[0]? = some (UInt8.ofNat Config.licenseVersion) ∧
      slice s 1 5 = fragment P.toHashes usernameNorm ∧ s[17]? = some (parityOf (slice s 0 17)) ∧
      slice s 21 25 = checksum P env (slice s 0 21) := by
  have hversion : s[0]? = some s[0] := List.getElem?_eq_getElem (by omega)
  have hparity : s[17]? = some s[17] := List.getElem?_eq_getElem (by omega)
  have hversion' : byteAt s 0 = .ok s[0] := by rw [byteAt, hversion]
  have hparity' : byteAt s 17 = .ok s[17] := by rw [byteAt, hparity]
  have hsix : s[0].toNat = Config.licenseVersion ↔ s[0] = UInt8.ofNat Config.licenseVersion := by
    change _ = (UInt8.ofNat Config.licenseVersion).toNat ↔ _
    exact UInt8.toNat_inj
  rw [hversion, hparity, Option.some.injEq, Option.some.injEq, ← hsix, Accepted, validateLicense,
    parseLicense, Effects.except_bind_ok hversion', Effects.except_bind_ok hparity', pure_bind]
  constructor
  · rintro ⟨lic, h⟩
    obtain ⟨hv, h⟩ := Effects.except_ensure_eq_ok h
    obtain ⟨hf, h⟩ := Effects.except_ensure_eq_ok h
    obtain ⟨hp, h⟩ := Effects.except_ensure_eq_ok h
    obtain ⟨hc, -⟩ := Effects.except_ensure_eq_ok h
    exact ⟨hv, hf, hp.symm, hc⟩
  · rintro ⟨hv, hf, hp, hc⟩
    rw [Effects.except_ensure_true hv, Effects.except_ensure_true hf,
      Effects.except_ensure_true hp.symm, Effects.except_ensure_true hc]
    exact ⟨_, rfl⟩

variable {P env usernameNorm} {s : Bytes} {i : Nat} {v : UInt8}

theorem changed_of_accepted (hs : s.length = 25) (h : Accepted P env usernameNorm s) (hi : i < 25)
    (hv : s[i]? ≠ some v) (h' : Accepted P env usernameNorm (s.set i v)) :
    18 ≤ i ∧ i ≤ 20 ∧ checksum P env (slice (s.set i v) 0 21) = checksum P env (slice s 0 21) := by
  have hi' : i < s.length := hs ▸ hi
  obtain ⟨hversion, hfragment, hparity, hchecksum⟩ := (accepted_iff P env usernameNorm hs).mp h
  obtain ⟨hversion', hfragment', hparity', hchecksum'⟩ :=
    (accepted_iff P env usernameNorm (by rw [List.length_set, hs])).mp h'
  have hpos : 0 < i := by
    by_contra hzero
    obtain rfl : i = 0 := by omega
    rw [List.getElem?_set_self hi', ← hversion] at hversion'
    exact hv hversion'.symm
  have hbehind : 5 ≤ i := by
    by_contra hin
    exact slice_set_ne hpos (by omega) hi' hv (hfragment'.trans hfragment.symm)
  have hcovered : 17 ≤ i := by
    by_contra hin
    rw [List.getElem?_set_ne (by omega), hparity, Option.some.injEq, slice_set,
      if_pos (by omega), Nat.sub_zero] at hparity'
    refine parityOf_set_ne ?_ ?_ hparity'.symm
    · rw [slice, List.length_take, List.length_drop]
      omega
    · rwa [slice, List.drop_zero, List.getElem?_take_of_lt (by omega)]
  have hstored : 18 ≤ i := by
    by_contra hin
    obtain rfl : i = 17 := by omega
    rw [List.getElem?_set_self hi', slice_set_of_not_mem (by omega), ← hparity] at hparity'
    exact hv hparity'.symm
  have htimestamp : i ≤ 20 := by
    by_contra hin
    rw [slice_set_of_not_mem (a := 0) (by omega), ← hchecksum] at hchecksum'
    exact slice_set_ne (by omega) hi hi' hv hchecksum'
  refine ⟨hstored, htimestamp, ?_⟩
  rw [← hchecksum', ← hchecksum, slice_set_of_not_mem (by omega)]

/-- The decorative timestamp is bound by the checksum alone. -/
theorem accepted_of_collision (hs : s.length = 25) (h : Accepted P env usernameNorm s)
    (hlow : 18 ≤ i) (hhigh : i ≤ 20)
    (hsum : checksum P env (slice (s.set i v) 0 21) = checksum P env (slice s 0 21)) :
    Accepted P env usernameNorm (s.set i v) := by
  obtain ⟨hversion, hfragment, hparity, hchecksum⟩ := (accepted_iff P env usernameNorm hs).mp h
  refine (accepted_iff P env usernameNorm (by rw [List.length_set, hs])).mpr ⟨?_, ?_, ?_, ?_⟩
  · rwa [List.getElem?_set_ne (by omega)]
  · rwa [slice_set_of_not_mem (by omega)]
  · rwa [List.getElem?_set_ne (by omega), slice_set_of_not_mem (by omega)]
  · rwa [slice_set_of_not_mem (by omega), hsum]

end Stage2

/-- Stage 2 accepts what was built for the name, and no accepted license survives a changed byte,
unless it is one of the timestamp and the two payloads collide under the keyed checksum. -/
theorem tamper_detected (P : Primitives) (env : Env) (usernameNorm : Bytes) :
    Accepted P env usernameNorm (buildLicenseStruct P env usernameNorm) ∧
      ∀ s : Bytes, s.length = 25 → Accepted P env usernameNorm s →
        ∀ i < 25, ∀ v, s[i]? ≠ some v →
          (Accepted P env usernameNorm (s.set i v) ↔ 18 ≤ i ∧ i ≤ 20 ∧
            checksum P env (slice (s.set i v) 0 21) = checksum P env (slice s 0 21)) := by
  refine ⟨License.validateLicense_build P env usernameNorm, ?_⟩
  intro s hs h i hi v hv
  constructor
  · exact changed_of_accepted hs h hi hv
  · rintro ⟨hlow, hhigh, hsum⟩
    exact accepted_of_collision hs h hlow hhigh hsum

end RankGate.Session.LicenseTamper
