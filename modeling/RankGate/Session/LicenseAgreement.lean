/- Module: RankGate/Session/LicenseAgreement
   source: client/src/challenge/license_format.cpp, server/app/verifier.py (decode_license)
   digest: The texts on which the two readers of licenses part, and that they agree on all others. -/

import RankGate.Session.LicenseCodec
import RankGate.Session.Username

set_option autoImplicit false
set_option relaxedAutoImplicit false

namespace RankGate.Session.LicenseAgreement

open ByteCodec (Bytes)
open Text (codePoints utf8)
open RankGate.Client
open RankGate.Server
open RankGate.Session.Username (isBlank_toNat)

/-- The client reads from the UTF-8 of a string what the server reads from the string itself,
where that is of version 6. -/
def SameLicenses (x : String) : Prop :=
  ∀ struct, LicenseFormat.decodeLicense (utf8 x) = .ok struct ↔
    Verifier.decodeLicense (codePoints x) = .ok struct ∧ struct.head? = some 6

/-- A string without its spaces, tabs, carriage returns and line feeds. -/
def withoutBlanks (x : String) : List Nat := (codePoints x).filter fun c => !Verifier.isBlank c

def VersionSix (t : List Nat) : Prop :=
  ∃ struct, Verifier.encodeLicense struct = .ok t ∧ struct.head? = some 6

/-- A license text with one of the four blanks within it. -/
def BlankInside (x : String) : Prop :=
  VersionSix (withoutBlanks x) ∧
    ∃ c ∈ Verifier.stripSpace (codePoints x), Verifier.isBlank c = true

/-- A license text with white space around it that is none of the four blanks. -/
def OtherSpaceAround (x : String) : Prop :=
  VersionSix (Verifier.stripSpace (codePoints x)) ∧
    ∃ c ∈ codePoints x, Verifier.isSpace c = true ∧ Verifier.isBlank c = false

section Characters

variable {x : String} {struct : Bytes} {t : List Nat}

theorem isSpace_of_isBlank {c : Nat} (h : Verifier.isBlank c = true) :
    Verifier.isSpace c = true := by
  simp only [Verifier.isBlank, Bool.or_eq_true, decide_eq_true_eq] at h
  rcases h with ((rfl | rfl) | rfl) | rfl <;> rfl

theorem not_isBlank_of_high {c : Nat} (h : 0x80 ≤ c) : Verifier.isBlank c = false := by
  simp only [Verifier.isBlank, Bool.or_eq_false_iff, decide_eq_false_iff_not]
  omega

theorem nonBlank_utf8_iff (ht : ∀ c ∈ t, c < 0x80) :
    (LicenseCodec.nonBlank (utf8 x)).map UInt8.toNat = t ↔ withoutBlanks x = t := by
  by_cases hascii : ∀ c ∈ codePoints x, c < 0x80
  · rw [withoutBlanks, ← Text.map_toNat_utf8 hascii, List.filter_map, LicenseCodec.nonBlank]
    simp only [Function.comp_def, isBlank_toNat]
  · -- what is beyond ASCII stays, in either form
    simp only [not_forall, not_lt] at hascii
    obtain ⟨c, hc, hhigh⟩ := hascii
    obtain ⟨b, hb, hbyte⟩ := Text.exists_high_byte_utf8 hc hhigh
    constructor
    · rintro rfl
      have hkept : b ∈ LicenseCodec.nonBlank (utf8 x) := by
        rw [LicenseCodec.nonBlank, List.mem_filter, ← isBlank_toNat, not_isBlank_of_high hbyte]
        exact ⟨hb, rfl⟩
      exact absurd (ht _ (List.mem_map_of_mem hkept)) (by omega)
    · rintro rfl
      have hkept : c ∈ withoutBlanks x := by
        rw [withoutBlanks, List.mem_filter, not_isBlank_of_high hhigh]
        exact ⟨hc, rfl⟩
      exact absurd (ht c hkept) (by omega)

theorem client_iff : LicenseFormat.decodeLicense (utf8 x) = .ok struct ↔
    Verifier.encodeLicense struct = .ok (withoutBlanks x) ∧ struct.head? = some 6 := by
  rw [LicenseCodec.client_decodeLicense_iff]
  refine and_congr_left fun _ => ?_
  cases hencode : Verifier.encodeLicense struct with
  | error e => exact ⟨fun h => (nomatch h), fun h => (nomatch h)⟩
  | ok t =>
    have hascii := fun c hc => (LicenseCodec.encodeLicense_chars hencode c hc).1
    rw [Except.ok.injEq, Except.ok.injEq, eq_comm, nonBlank_utf8_iff hascii, eq_comm]

theorem not_space_of_encoded (h : Verifier.encodeLicense struct = .ok t) {c : Nat} (hc : c ∈ t) :
    ¬ Verifier.isSpace c = true :=
  Bool.eq_false_iff.mp (LicenseCodec.encodeLicense_chars h c hc).2

end Characters

section Agreement

variable {x : String}

/-- With no other white space than the four blanks, and these only around the text, it does not
matter which reader takes them away. -/
theorem withoutBlanks_eq_strip
    (hkind : ∀ c ∈ codePoints x, Verifier.isSpace c = true → Verifier.isBlank c = true)
    (hinside : ∀ c ∈ Verifier.stripSpace (codePoints x), Verifier.isBlank c = false) :
    withoutBlanks x = Verifier.stripSpace (codePoints x) := by
  obtain ⟨lead, trail, hsplit, hlead, htrail⟩ :=
    Text.trim_split Verifier.isSpace (codePoints x)
  have hgone (l : List Nat) (hl : ∀ c ∈ l, Verifier.isSpace c = true)
      (hsub : ∀ c ∈ l, c ∈ codePoints x) : l.filter (fun c => !Verifier.isBlank c) = [] := by
    refine List.filter_eq_nil_iff.mpr fun c hc => ?_
    simp [hkind c (hsub c hc) (hl c hc)]
  have hkept : (Verifier.stripSpace (codePoints x)).filter (fun c => !Verifier.isBlank c) =
      Verifier.stripSpace (codePoints x) :=
    List.filter_eq_self.mpr fun c hc => by simp [hinside c hc]
  calc withoutBlanks x
      = (lead ++ Verifier.stripSpace (codePoints x) ++ trail).filter
          (fun c => !Verifier.isBlank c) := congrArg (List.filter _) hsplit
    _ = Verifier.stripSpace (codePoints x) := by
      rw [List.filter_append, List.filter_append, hkept,
        hgone lead hlead fun c hc => hsplit ▸ List.mem_append_left _ (List.mem_append_left _ hc),
        hgone trail htrail fun c hc => hsplit ▸ List.mem_append_right _ hc, List.nil_append,
        List.append_nil]

/-- The readers part exactly where a blank stands within a license, or white space of another
kind around it. -/
theorem same_licenses_iff (x : String) :
    SameLicenses x ↔ ¬ BlankInside x ∧ ¬ OtherSpaceAround x := by
  unfold SameLicenses
  simp only [client_iff, LicenseCodec.server_decodeLicense_iff]
  constructor
  · intro h
    constructor
    · rintro ⟨⟨struct, hread, hversion⟩, c, hc, hblank⟩
      have hstrip := ((h struct).mp ⟨hread, hversion⟩).1
      exact not_space_of_encoded hstrip hc (isSpace_of_isBlank hblank)
    · rintro ⟨⟨struct, hread, hversion⟩, c, hc, hspace, hblank⟩
      have hfilter := ((h struct).mpr ⟨hread, hversion⟩).1
      have hkept : c ∈ withoutBlanks x := List.mem_filter.mpr ⟨hc, by rw [hblank]; rfl⟩
      exact not_space_of_encoded hfilter hkept hspace
  · rintro ⟨hinside, haround⟩ struct
    constructor
    · rintro ⟨hread, hversion⟩
      have hblank : ∀ c ∈ Verifier.stripSpace (codePoints x), Verifier.isBlank c = false :=
        fun c hc => Bool.eq_false_iff.mpr fun hb => hinside ⟨⟨struct, hread, hversion⟩, c, hc, hb⟩
      have hkind : ∀ c ∈ codePoints x, Verifier.isSpace c = true → Verifier.isBlank c = true := by
        intro c hc hspace
        by_contra hb
        have hkept : c ∈ withoutBlanks x := List.mem_filter.mpr ⟨hc, by simpa using hb⟩
        exact not_space_of_encoded hread hkept hspace
      rw [← withoutBlanks_eq_strip hkind hblank]
      exact ⟨hread, hversion⟩
    · rintro ⟨hread, hversion⟩
      have hblank : ∀ c ∈ Verifier.stripSpace (codePoints x), Verifier.isBlank c = false :=
        fun c hc => Bool.eq_false_iff.mpr fun hb =>
          not_space_of_encoded hread hc (isSpace_of_isBlank hb)
      have hkind : ∀ c ∈ codePoints x, Verifier.isSpace c = true → Verifier.isBlank c = true := by
        intro c hc hspace
        by_contra hb
        exact haround ⟨⟨struct, hread, hversion⟩, c, hc, hspace, by simpa using hb⟩
      rw [withoutBlanks_eq_strip hkind hblank]
      exact ⟨hread, hversion⟩

/-- A blank in the first block: the client reads the license, the server does not. -/
theorem same_licenses_counterexample : ¬ ∀ x, SameLicenses x := by
  intro h
  have hclient : LicenseFormat.decodeLicense
      (utf8 "RG6-AYAA AAAA-AAAAAAAA-AAAAAAAA-AAAAAAAA-AAAAAAAA") =
        .ok (6 :: ByteCodec.zeros 24) := by decide +kernel
  have hserver : Verifier.decodeLicense
      (codePoints "RG6-AYAA AAAA-AAAAAAAA-AAAAAAAA-AAAAAAAA-AAAAAAAA") ≠
        .ok (6 :: ByteCodec.zeros 24) := by decide +kernel
  exact hserver ((h _ _).mp hclient).1

end Agreement

end RankGate.Session.LicenseAgreement
