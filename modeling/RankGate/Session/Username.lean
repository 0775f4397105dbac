/- Module: RankGate/Session/Username
   source: client/src/challenge/license_format.cpp, server/app/verifier.py (normalize_username)
   digest: A name the client has normalised is one the server's normalisation leaves alone. -/

import RankGate.Client.LicenseFormat
import RankGate.Server.Verifier
import Mathlib.Data.List.DropRight

set_option autoImplicit false
set_option relaxedAutoImplicit false

namespace RankGate.Session.Username

open ByteCodec (Bytes)
open RankGate.Client
open RankGate.Crypto (Primitives)
open RankGate.Server

def CanonicalByte (b : UInt8) : Prop :=
  0x20 ≤ b.toNat ∧ b.toNat ≤ 0x7E ∧ ¬ (0x41 ≤ b.toNat ∧ b.toNat ≤ 0x5A)

/-- The canonical form: 1 to 64 canonical bytes, and no blank at either end. -/
structure Canonical (name : Bytes) : Prop where
  nonempty : name ≠ []
  length_le : name.length ≤ 64
  bytes : ∀ b ∈ name, CanonicalByte b
  head : ∀ b, name.head? = some b → b.toNat ≠ 0x20
  last : ∀ b, name.getLast? = some b → b.toNat ≠ 0x20

theorem isBlank_toNat (c : UInt8) : Verifier.isBlank c.toNat = LicenseFormat.isWs c := by
  have heq (k : Nat) (hk : k < 256) : decide (c.toNat = k) = decide (c = UInt8.ofNat k) := by
    rw [decide_eq_decide, ← UInt8.toNat_inj, UInt8.toNat_ofNat_of_lt' hk]
  rw [Verifier.isBlank, heq 0x20 (by decide), heq 0x09 (by decide), heq 0x0D (by decide),
    heq 0x0A (by decide)]
  rfl

section Client

theorem canonicalChar_ok {b c : UInt8} (h : LicenseFormat.canonicalChar b = .ok c) :
    CanonicalByte c ∧ (c.toNat = 0x20 → b.toNat = 0x20) := by
  unfold LicenseFormat.canonicalChar at h
  simp only [UInt8.le_iff_toNat_le, UInt8.lt_iff_toNat_lt, UInt8.reduceToNat] at h
  unfold CanonicalByte
  split_ifs at h with hrange hupper
  · cases h
    have hadd : (b + 0x20).toNat = b.toNat + 0x20 := by
      rw [UInt8.toNat_add]
      exact Nat.mod_eq_of_lt (by change b.toNat + 0x20 < 256; omega)
    rw [hadd]
    omega
  · cases h
    omega

theorem trim_eq (raw : Bytes) :
    LicenseFormat.trim raw = (raw.dropWhile LicenseFormat.isWs).rdropWhile LicenseFormat.isWs := rfl

theorem trim_head {raw : Bytes} {b : UInt8} (h : (LicenseFormat.trim raw).head? = some b) :
    LicenseFormat.isWs b = false := by
  obtain ⟨rest, hrest⟩ := List.rdropWhile_prefix LicenseFormat.isWs
    (raw.dropWhile LicenseFormat.isWs)
  have hhead : (raw.dropWhile LicenseFormat.isWs).head? = some b := by
    rw [← hrest, ← trim_eq, List.head?_append, h]
    rfl
  have hnot := List.head?_dropWhile_not LicenseFormat.isWs raw
  rwa [hhead] at hnot

theorem trim_last {raw : Bytes} {b : UInt8} (h : (LicenseFormat.trim raw).getLast? = some b) :
    LicenseFormat.isWs b = false := by
  rw [LicenseFormat.trim, List.getLast?_reverse] at h
  have hnot := List.head?_dropWhile_not LicenseFormat.isWs (raw.dropWhile LicenseFormat.isWs).reverse
  rwa [h] at hnot

private theorem not_space_of_not_ws {b : UInt8} (h : LicenseFormat.isWs b = false) :
    b.toNat ≠ 0x20 := by
  intro hb
  have hspace : b = 0x20 := UInt8.toNat_inj.mp hb
  subst hspace
  cases h

private theorem forall₂_head {α β : Type} {R : α → β → Prop} {l : List α} {r : List β}
    (h : List.Forall₂ R l r) {b : β} (hb : r.head? = some b) : ∃ a, l.head? = some a ∧ R a b := by
  cases h with
  | nil => cases hb
  | cons hab _ =>
    cases hb
    exact ⟨_, rfl, hab⟩

private theorem forall₂_last {α β : Type} {R : α → β → Prop} {l : List α} {r : List β}
    (h : List.Forall₂ R l r) {b : β} (hb : r.getLast? = some b) :
    ∃ a, l.getLast? = some a ∧ R a b := by
  rw [← List.head?_reverse] at hb
  obtain ⟨a, ha, hab⟩ := forall₂_head (List.rel_reverse h) hb
  exact ⟨a, List.head?_reverse ▸ ha, hab⟩

/-- Whatever the client's normalisation accepts it brings into canonical form. -/
theorem normalizeUsername_canonical {raw name : Bytes}
    (h : LicenseFormat.normalizeUsername raw = .ok name) : Canonical name := by
  unfold LicenseFormat.normalizeUsername at h
  obtain ⟨⟨hne, hlen⟩, h⟩ := Effects.except_ensure_eq_ok h
  have hrel := Effects.mapM_eq_ok_iff.mp h
  refine ⟨?_, hrel.length_eq ▸ hlen, ?_, ?_, ?_⟩
  · rintro rfl
    exact hne (List.forall₂_nil_right_iff.mp hrel)
  · intro b hb
    obtain ⟨i, hi, rfl⟩ := List.getElem_of_mem hb
    exact (canonicalChar_ok (hrel.get (by rw [hrel.length_eq]; exact hi) hi)).1
  · intro b hb hspace
    obtain ⟨a, ha, hab⟩ := forall₂_head hrel hb
    exact not_space_of_not_ws (trim_head ha) ((canonicalChar_ok hab).2 hspace)
  · intro b hb hspace
    obtain ⟨a, ha, hab⟩ := forall₂_last hrel hb
    exact not_space_of_not_ws (trim_last ha) ((canonicalChar_ok hab).2 hspace)

end Client

section Server

theorem strip_eq (s : List Nat) :
    Verifier.strip s = (s.dropWhile Verifier.isBlank).rdropWhile Verifier.isBlank := rfl

private theorem isBlank_of_canonical {b : UInt8} (hb : CanonicalByte b) (hne : b.toNat ≠ 0x20) :
    ¬ Verifier.isBlank b.toNat = true := by
  obtain ⟨hlow, -, -⟩ := hb
  simp only [Verifier.isBlank, Bool.or_eq_true, decide_eq_true_eq]
  omega

theorem strip_canonical {name : Bytes} (h : Canonical name) :
    Verifier.strip (name.map UInt8.toNat) = name.map UInt8.toNat := by
  have hfront : (name.map UInt8.toNat).dropWhile Verifier.isBlank = name.map UInt8.toNat := by
    cases name with
    | nil => rfl
    | cons b name =>
      rw [List.map_cons, List.dropWhile_cons_of_neg]
      exact isBlank_of_canonical (h.bytes b List.mem_cons_self) (h.head b rfl)
  rw [strip_eq, hfront, List.rdropWhile_eq_self_iff]
  intro hne
  rw [List.getLast_map (by simpa using hne)]
  exact isBlank_of_canonical (h.bytes _ (List.getLast_mem _))
    (h.last _ (List.getLast?_eq_some_getLast _))

theorem mapM_canonicalChar {name : Bytes} (h : ∀ b ∈ name, CanonicalByte b) :
    (name.map UInt8.toNat).mapM Verifier.canonicalChar = .ok name := by
  rw [Effects.mapM_eq_ok_iff, List.forall₂_map_left_iff, List.forall₂_same]
  intro b hb
  obtain ⟨hlow, hhigh, hupper⟩ := h b hb
  rw [Verifier.canonicalChar, if_neg (by omega), if_neg hupper, UInt8.ofNat_toNat]

theorem normalizeUsername_of_canonical (P : Primitives) {name : Bytes} (h : Canonical name) :
    Verifier.normalizeUsername P (name.map UInt8.toNat) = .ok name := by
  have hnfc : P.nfc (name.map UInt8.toNat) = name.map UInt8.toNat := by
    refine P.nfc_latin1 _ fun c hc => ?_
    obtain ⟨b, -, rfl⟩ := List.mem_map.mp hc
    exact b.toNat_lt
  have hlen : 1 ≤ (name.map UInt8.toNat).length ∧
      (name.map UInt8.toNat).length ≤ Config.vmUsernameCap := by
    rw [List.length_map]
    exact ⟨List.length_pos_iff.mpr h.nonempty, h.length_le⟩
  rw [Verifier.normalizeUsername, hnfc, strip_canonical h]
  exact (Effects.except_ensure_true hlen).trans (mapM_canonicalChar h.bytes)

end Server

end RankGate.Session.Username
