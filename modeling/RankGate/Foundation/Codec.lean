/- Module: RankGate/Foundation/Codec
   layer: foundation
   digest: Parsers that accept exactly the encodings of good values, and when two of them agree. -/

import Mathlib.Tactic.Common

set_option autoImplicit false
set_option relaxedAutoImplicit false

namespace Codec

variable {α α' β : Type}

/-- Every good value survives its encoding, and whatever is decoded is good and encodes back. -/
structure Exact (encode : α → Option β) (decode : β → Option α) (Good : α → Prop) : Prop where
  roundtrip : ∀ a, Good a → ∃ b, encode a = some b ∧ decode b = some a
  canonical : ∀ b a, decode b = some a → Good a ∧ encode a = some b

namespace Exact

variable {encode : α → Option β} {decode : β → Option α} {Good : α → Prop}

theorem decode_iff (h : Exact encode decode Good) {b : β} {a : α} :
    decode b = some a ↔ Good a ∧ encode a = some b := by
  constructor
  · exact h.canonical b a
  · rintro ⟨hgood, henc⟩
    obtain ⟨b', hb', hdec⟩ := h.roundtrip a hgood
    rw [henc, Option.some.injEq] at hb'
    rwa [hb']

/-- Two exact parsers agree once their encoders do, along a map of one's good values onto the
other's. -/
theorem agree {encode' : α' → Option β} {decode' : β → Option α'} {Good' : α' → Prop}
    (h : Exact encode decode Good) (h' : Exact encode' decode' Good') (f : α → α')
    (hgood : ∀ a, Good a → Good' (f a)) (henc : ∀ a, Good a → encode' (f a) = encode a)
    (hsurj : ∀ a', Good' a' → ∃ a, Good a ∧ f a = a') (b : β) :
    decode' b = (decode b).map f := by
  cases hd : decode b with
  | some a =>
    obtain ⟨ha, hb⟩ := h.canonical b a hd
    exact h'.decode_iff.mpr ⟨hgood a ha, (henc a ha).trans hb⟩
  | none =>
    cases hd' : decode' b with
    | none => rfl
    | some a' =>
      obtain ⟨ha', hb'⟩ := h'.canonical b a' hd'
      obtain ⟨a, ha, rfl⟩ := hsurj a' ha'
      rw [h.decode_iff.mpr ⟨ha, (henc a ha).symm.trans hb'⟩] at hd
      cases hd

end Exact

end Codec
