/- Module: RankGate/Server/Base64
   source: server/app/verifier.py (base64.b32encode, base64.b32decode), server/app/main.py
   (base64.b64decode)
   digest: The codecs of RFC 4648 as the server's standard library has them, padding included. -/

import RankGate.Foundation.Effects
import RankGate.Foundation.Rfc4648
import RankGate.Foundation.Text

set_option autoImplicit false
set_option relaxedAutoImplicit false

namespace RankGate.Server.Base64

open ByteCodec (Bytes beBytes zeros)
open Effects (ensure)

def base32 : Radix.Alphabet Nat where
  symbols := "ABCDEFGHIJKLMNOPQRSTUVWXYZ234567".toList.map Char.toNat
  nodup := by decide
  nonempty := by decide

def pad : Nat := 0x3D

def b32encode (s : Bytes) : List Nat :=
  let leftover := s.length % 5
  let s := if leftover = 0 then s else s ++ zeros (5 - leftover)
  let encoded := (Text.slices 5 s).flatMap (base32.encodeGroup 8)
  let padchars := [0, 6, 4, 3, 1].getD leftover 0
  encoded.take (encoded.length - padchars) ++ List.replicate padchars pad

def readQuantum (quanta : List Nat) : Except String Nat :=
  match base32.read quanta with
  | some acc => .ok acc
  | none => .error "Non-base32 digit found"

/-- `base64.b32decode(s)`, on the text of its exceptions. -/
def b32decode (s : List Nat) : Except String Bytes := do
  ensure (∀ c ∈ s, c < 0x80) "string argument should contain only ASCII characters"
  ensure (s.length % 8 = 0) "Incorrect padding"
  let digits := s.rdropWhile (· == pad)
  let padchars := s.length - digits.length
  let accs ← (Text.slices 8 digits).mapM readQuantum
  ensure (padchars ∈ [0, 1, 3, 4, 6]) "Incorrect padding"
  let decoded := accs.flatMap (beBytes 5)
  -- the last quantum is short by the padding, and yields that many bytes less
  if padchars ≠ 0 ∧ decoded ≠ [] then
    let last := beBytes 5 (accs.getLastD 0 <<< (5 * padchars))
    return decoded.take (decoded.length - 5) ++ last.take ((43 - 5 * padchars) / 8)
  else return decoded

/-- The variables of `binascii.a2b_base64`: the place in the current quad, the bits left over from
it, and the bytes written. -/
structure Quad where
  quadPos : Nat
  leftchar : Nat
  out : Bytes

def Quad.push (q : Quad) (d : Nat) : Quad :=
  match q.quadPos with
  | 0 => ⟨1, d, q.out⟩
  | 1 => ⟨2, d &&& 0x0F, q.out ++ [UInt8.ofNat ((q.leftchar <<< 2) ||| (d >>> 4))]⟩
  | 2 => ⟨3, d &&& 0x03, q.out ++ [UInt8.ofNat ((q.leftchar <<< 4) ||| (d >>> 2))]⟩
  | _ => ⟨0, 0, q.out ++ [UInt8.ofNat ((q.leftchar <<< 6) ||| d)]⟩

/-- Without `strict_mode` characters outside the alphabet are passed over, and padding that
completes a quad ends the input. -/
def a2bBase64 : Bytes → Quad → Nat → Except String Bytes
  | [], q, _ =>
    if q.quadPos = 0 then .ok q.out
    else if q.quadPos = 1 then
      let chars := q.out.length / 3 * 4 + 1
      .error (s!"Invalid base64-encoded string: number of data characters ({chars}) " ++
        "cannot be 1 more than a multiple of 4")
    else .error "Incorrect padding"
  | c :: s, q, pads =>
    if c = Rfc4648.pad then
      if 2 ≤ q.quadPos then
        if 4 ≤ q.quadPos + (pads + 1) then .ok q.out else a2bBase64 s q (pads + 1)
      else a2bBase64 s q pads
    else
      match Rfc4648.base64.digit? c with
      | none => a2bBase64 s q pads
      | some d => a2bBase64 s (q.push d) 0

/-- `base64.b64decode(s, validate=False)`. -/
def b64decode (s : Bytes) : Except String Bytes := a2bBase64 s ⟨0, 0, []⟩ 0

@[simp] theorem radix_base32 : base32.radix = 32 := by decide

theorem group_size : 256 ^ 5 = base32.radix ^ 8 := by
  rw [radix_base32]
  norm_num

theorem base32_symbols : ∀ c ∈ base32.symbols, c < 0x80 ∧ c ≠ pad := by decide

theorem b32encode_group {q : Bytes} (hq : q.length = 5) : b32encode q = base32.encodeGroup 8 q := by
  have hne : q ≠ [] := by
    rintro rfl
    cases hq
  unfold b32encode
  simp only [hq, Nat.mod_self, if_true, Text.slices_of_le hne hq.le, List.flatMap_cons,
    List.flatMap_nil, List.append_nil, List.getD_cons_zero, List.replicate_zero, Nat.sub_zero,
    List.take_length]

section Decoding

variable {s : List Nat} {q : Bytes}

theorem readQuantum_eq_ok {acc : Nat} : readQuantum s = .ok acc ↔ base32.read s = some acc := by
  unfold readQuantum
  cases base32.read s with
  | none => exact ⟨fun h => (nomatch h), fun h => (nomatch h)⟩
  | some v => exact ⟨fun h => congrArg some (Except.ok.inj h),
      fun h => congrArg Except.ok (Option.some.inj h)⟩

theorem b32decode_unpadded (hs : s.length = 8) (hascii : ∀ c ∈ s, c < 0x80)
    (hpad : s.rdropWhile (· == pad) = s) : b32decode s = (readQuantum s).map (beBytes 5) := by
  have hne : s ≠ [] := by
    rintro rfl
    cases hs
  unfold b32decode
  rw [Effects.except_ensure_true hascii, Effects.except_ensure_true (by rw [hs])]
  simp only [hpad, Text.slices_of_le hne hs.le, Nat.sub_self, List.mapM_cons, List.mapM_nil]
  cases readQuantum s with
  | error e => rfl
  | ok acc => exact congrArg Except.ok (List.append_nil _)

theorem length_lt_of_padded (hs : s.length = 8) (hpad : s.rdropWhile (· == pad) ≠ s)
    (h : b32decode s = .ok q) : q.length < 5 := by
  obtain ⟨-, h⟩ := Effects.except_ensure_eq_ok h
  obtain ⟨-, h⟩ := Effects.except_ensure_eq_ok h
  obtain ⟨accs, haccs, h⟩ := Effects.except_bind_eq_ok h
  obtain ⟨hmem, h⟩ := Effects.except_ensure_eq_ok h
  have hpre := List.rdropWhile_prefix (· == pad) s
  have hlt : (s.rdropWhile (· == pad)).length < s.length :=
    lt_of_le_of_ne hpre.length_le fun heq => hpad (hpre.eq_of_length heq)
  generalize s.rdropWhile (· == pad) = digits at haccs hmem h hlt
  by_cases hnil : digits = []
  · -- eight padding characters are refused
    rw [hnil, hs] at hmem
    exact absurd hmem (by decide)
  · rw [Text.slices_of_le hnil (by omega), List.mapM_cons] at haccs
    obtain ⟨acc, -, haccs⟩ := Effects.except_bind_eq_ok haccs
    have haccs : accs = [acc] := (Except.ok.inj haccs).symm
    subst haccs
    rw [if_pos ⟨by omega, by simp [beBytes]⟩] at h
    cases h
    simp only [List.flatMap_cons, List.flatMap_nil, List.append_nil, ByteCodec.length_beBytes,
      Nat.sub_self, List.take_zero, List.nil_append, List.length_take]
    omega

theorem ascii_of_read {acc : Nat} (h : base32.read s = some acc) : ∀ c ∈ s, c < 0x80 ∧ c ≠ pad := by
  intro c hc
  rw [← (Radix.Alphabet.read_eq_some h).2] at hc
  exact base32_symbols c (Radix.Alphabet.mem_of_mem_numeral hc)

theorem unpadded_of_read {acc : Nat} (h : base32.read s = some acc) :
    s.rdropWhile (· == pad) = s := by
  rw [List.rdropWhile_eq_self_iff]
  intro hne
  simpa using (ascii_of_read h _ (List.getLast_mem hne)).2

theorem b32decode_eq_ok (hs : s.length = 8) :
    b32decode s = .ok q ∧ q.length = 5 ↔ q.length = 5 ∧ base32.encodeGroup 8 q = s := by
  rw [← Radix.Alphabet.read_eq_some_iff_group group_size hs]
  constructor
  · rintro ⟨h, hq⟩
    by_cases hpad : s.rdropWhile (· == pad) = s
    · obtain ⟨hascii, -⟩ := Effects.except_ensure_eq_ok h
      rw [b32decode_unpadded hs hascii hpad] at h
      cases hread : base32.read s with
      | none => rw [readQuantum, hread] at h; cases h
      | some acc =>
        rw [readQuantum_eq_ok.mpr hread] at h
        exact congrArg some (Except.ok.inj h)
    · exact absurd (length_lt_of_padded hs hpad h) (by omega)
  · intro h
    obtain ⟨acc, hread, rfl⟩ := Option.map_eq_some_iff.mp h
    have hascii : ∀ c ∈ s, c < 0x80 := fun c hc => (ascii_of_read hread c hc).1
    rw [b32decode_unpadded hs hascii (unpadded_of_read hread), readQuantum_eq_ok.mpr hread]
    exact ⟨rfl, ByteCodec.length_beBytes 5 acc⟩

theorem length_b32decode_le (hs : s.length = 8) (h : b32decode s = .ok q) : q.length ≤ 5 := by
  by_cases hpad : s.rdropWhile (· == pad) = s
  · obtain ⟨hascii, -⟩ := Effects.except_ensure_eq_ok h
    rw [b32decode_unpadded hs hascii hpad] at h
    cases hread : readQuantum s with
    | error e => rw [hread] at h; cases h
    | ok acc =>
      rw [hread] at h
      cases h
      exact (ByteCodec.length_beBytes 5 acc).le
  · exact (length_lt_of_padded hs hpad h).le

end Decoding

end RankGate.Server.Base64
