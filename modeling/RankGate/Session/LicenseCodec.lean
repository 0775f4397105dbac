/- Module: RankGate/Session/LicenseCodec
   source: client/src/challenge/license_format.cpp (b32decode_block, decode_license),
     server/app/verifier.py (encode_license, decode_license)
   digest: Each reader of license texts inverts the writer, up to the blanks it drops. -/

import RankGate.Client.LicenseFormat
import RankGate.Server.Verifier

set_option autoImplicit false
set_option relaxedAutoImplicit false

namespace RankGate.Session.LicenseCodec

open ByteCodec (Bytes BytesN beBytes)
open RankGate.Client
open RankGate.Server
open RankGate.Server.Base64 (base32)

abbrev dash : Nat := 0x2D

structure Blocks (blocks : List Bytes) : Prop where
  count : blocks.length = 5
  size : ∀ b ∈ blocks, b.length = 5

def text (blocks : List Bytes) : List Nat :=
  [dash].intercalate (Config.licensePrefix :: blocks.map (base32.encodeGroup 8))

section Text

variable {blocks : List Bytes}

theorem dash_notMem_parts :
    ∀ p ∈ Config.licensePrefix :: blocks.map (base32.encodeGroup 8), dash ∉ p := by
  intro p hp hdash
  rcases List.mem_cons.mp hp with rfl | hp
  · exact absurd hdash (by decide)
  · obtain ⟨b, -, rfl⟩ := List.mem_map.mp hp
    exact absurd (Radix.Alphabet.mem_of_mem_numeral hdash) (by decide)

theorem splitOn_eq_iff {t : List Nat} :
    t.splitOn dash = Config.licensePrefix :: blocks.map (base32.encodeGroup 8) ↔ t = text blocks :=
  Text.splitOn_eq_iff (List.cons_ne_nil _ _) dash_notMem_parts

theorem text_chars {c : Nat} (h : c ∈ text blocks) : c < 0x80 ∧ Verifier.isSpace c = false := by
  have hall : ∀ c ∈ [dash] ++ Config.licensePrefix ++ base32.symbols,
      c < 0x80 ∧ Verifier.isSpace c = false := by decide
  refine hall c ?_
  rw [List.mem_append, List.mem_append]
  obtain hdash | ⟨p, hp, hc⟩ := Text.mem_intercalate h
  · exact .inl (.inl hdash)
  · rcases List.mem_cons.mp hp with rfl | hp
    · exact .inl (.inr hc)
    · obtain ⟨b, -, rfl⟩ := List.mem_map.mp hp
      exact .inr (Radix.Alphabet.mem_of_mem_numeral hc)

theorem blocks_slices {struct : Bytes} (h : struct.length = 25) :
    Blocks (Text.slices 5 struct) := by
  obtain ⟨hcount, hsize⟩ := Text.slices_of_length_eq_mul (n := 5) (k := 5) (by decide) h
  exact ⟨hcount, hsize⟩

theorem Blocks.length_flatten (h : Blocks blocks) :
    blocks.flatten.length = Config.licenseStructSize := by
  rw [List.length_flatten, List.map_congr_left h.size, List.map_const', h.count]
  rfl

theorem Blocks.slices_flatten (h : Blocks blocks) : Text.slices 5 blocks.flatten = blocks :=
  Text.slices_flatten (by decide) h.size

theorem Blocks.of_length (hcount : blocks.length = 5) (hle : ∀ b ∈ blocks, b.length ≤ 5)
    (htotal : blocks.flatten.length = 25) : Blocks blocks :=
  ⟨hcount, Text.full_of_length_flatten hle (by rw [htotal, hcount])⟩

theorem text_eq (h : Blocks blocks) : text blocks =
    Config.licensePrefix ++ [dash] ++ [dash].intercalate (blocks.map Base64.b32encode) := by
  have hcodes : blocks.map Base64.b32encode = blocks.map (base32.encodeGroup 8) :=
    List.map_congr_left fun b hb => Base64.b32encode_group (h.size b hb)
  have hne : blocks.map (base32.encodeGroup 8) ≠ [] := by
    rw [← List.length_pos_iff, List.length_map, h.count]
    decide
  rw [hcodes, text, List.intercalate_cons_of_ne_nil hne]

theorem encodeLicense_eq_ok {struct : Bytes} {t : List Nat} :
    Verifier.encodeLicense struct = .ok t ↔
      ∃ blocks, Blocks blocks ∧ blocks.flatten = struct ∧ text blocks = t := by
  constructor
  · intro h
    obtain ⟨hlen, h⟩ := Effects.except_ensure_eq_ok h
    have hblocks := blocks_slices hlen
    exact ⟨_, hblocks, Text.flatten_slices (by decide) struct,
      (text_eq hblocks).trans (Except.ok.inj h)⟩
  · rintro ⟨blocks, hblocks, rfl, rfl⟩
    rw [text_eq hblocks, Verifier.encodeLicense,
      Effects.except_ensure_true hblocks.length_flatten, hblocks.slices_flatten]
    rfl

theorem encodeLicense_chars {struct : Bytes} {t : List Nat}
    (h : Verifier.encodeLicense struct = .ok t) :
    ∀ c ∈ t, c < 0x80 ∧ Verifier.isSpace c = false := by
  obtain ⟨blocks, -, -, rfl⟩ := encodeLicense_eq_ok.mp h
  exact fun c hc => text_chars hc

end Text

section Readers

variable {π ε : Type}

/-- A reader of blocks, on parts that stand for code points: at most five bytes each, and five
only for their own code. -/
structure ReadsBlocks (points : π → List Nat) (read : π → Except ε Bytes) : Prop where
  length_le : ∀ {p b}, read p = .ok b → b.length ≤ 5
  exact : ∀ {p b}, b.length = 5 → (read p = .ok b ↔ base32.encodeGroup 8 b = points p)

variable {points : π → List Nat} {read : π → Except ε Bytes} {parts : List π} {blocks : List Bytes}

theorem ReadsBlocks.forall₂_iff (h : ReadsBlocks points read) (hsize : ∀ b ∈ blocks, b.length = 5) :
    List.Forall₂ (fun p b => read p = .ok b) parts blocks ↔
      parts.map points = blocks.map (base32.encodeGroup 8) := by
  rw [← List.forall₂_eq_eq_eq, List.forall₂_map_left_iff, List.forall₂_map_right_iff]
  constructor
  · intro hread
    have hboth := (List.forall₂_and_left blocks parts).mpr ⟨hsize, hread.flip⟩
    exact (hboth.imp fun b p hb => ((h.exact hb.1).mp hb.2).symm).flip
  · intro hcodes
    have hboth := (List.forall₂_and_left blocks parts).mpr ⟨hsize, hcodes.flip⟩
    exact (hboth.imp fun b p hb => (h.exact hb.1).mpr hb.2.symm).flip

theorem ReadsBlocks.mapM_eq_ok (h : ReadsBlocks points read) (hparts : parts.length = 5) :
    parts.mapM read = .ok blocks ∧ blocks.flatten.length = 25 ↔
      Blocks blocks ∧ parts.map points = blocks.map (base32.encodeGroup 8) := by
  rw [Effects.mapM_eq_ok_iff]
  constructor
  · rintro ⟨hread, htotal⟩
    have hcount : blocks.length = 5 := hread.length_eq.symm.trans hparts
    have hle : ∀ b ∈ blocks, b.length ≤ 5 := by
      intro b hb
      obtain ⟨i, hi, rfl⟩ := List.getElem_of_mem hb
      exact h.length_le (hread.get (by rw [hread.length_eq]; exact hi) hi)
    have hblocks := Blocks.of_length hcount hle htotal
    exact ⟨hblocks, (h.forall₂_iff hblocks.size).mp hread⟩
  · rintro ⟨hblocks, hcodes⟩
    exact ⟨(h.forall₂_iff hblocks.size).mpr hcodes, hblocks.length_flatten⟩

theorem ReadsBlocks.layout_iff (h : ReadsBlocks points read) {t : List Nat}
    (hparts : parts.map points = t.splitOn dash) {first : π}
    (hfirst : ∀ p, p = first ↔ points p = Config.licensePrefix) (blocks : List Bytes) :
    (parts.length = 6 ∧ parts.head? = some first) ∧ parts.tail.mapM read = .ok blocks ∧
      blocks.flatten.length = 25 ↔ Blocks blocks ∧ text blocks = t := by
  have hsplit : text blocks = t ↔
      parts.map points = Config.licensePrefix :: blocks.map (base32.encodeGroup 8) := by
    rw [hparts, splitOn_eq_iff, eq_comm]
  rw [hsplit]
  cases parts with
  | nil => exact ⟨fun hc => (nomatch hc.1.1), fun hc => (nomatch hc.2)⟩
  | cons p rest =>
    rw [List.tail_cons, List.map_cons, List.cons.injEq, List.head?_cons, Option.some.injEq,
      hfirst, List.length_cons]
    constructor
    · rintro ⟨⟨hlen, hp⟩, hrest⟩
      obtain ⟨hblocks, hcodes⟩ := (h.mapM_eq_ok (by omega)).mp hrest
      exact ⟨hblocks, hp, hcodes⟩
    · rintro ⟨hblocks, hp, hcodes⟩
      have hlen : rest.length = 5 := by
        rw [← List.length_map points, hcodes, List.length_map, hblocks.count]
      exact ⟨⟨by rw [hlen], hp⟩, (h.mapM_eq_ok hlen).mpr ⟨hblocks, hcodes⟩⟩

end Readers

section Server

variable {x p : List Nat} {b struct : Bytes}

theorem decodeBlock_eq_ok :
    Verifier.decodeBlock p = .ok b ↔ p.length = 8 ∧ Base64.b32decode p = .ok b := by
  constructor
  · intro h
    obtain ⟨hlen, h⟩ := Effects.except_ensure_eq_ok h
    refine ⟨hlen, ?_⟩
    cases hb : Base64.b32decode p with
    | error exc => rw [hb] at h; cases h
    | ok b' => rw [hb] at h; exact congrArg Except.ok (Except.ok.inj h)
  · rintro ⟨hlen, hb⟩
    rw [Verifier.decodeBlock, Effects.except_ensure_true hlen, hb]

theorem server_readsBlocks : ReadsBlocks id Verifier.decodeBlock where
  length_le h := by
    obtain ⟨hlen, h⟩ := decodeBlock_eq_ok.mp h
    exact Base64.length_b32decode_le hlen h
  exact := by
    intro p b hb
    rw [decodeBlock_eq_ok]
    constructor
    · rintro ⟨hlen, h⟩
      exact ((Base64.b32decode_eq_ok hlen).mp ⟨h, hb⟩).2
    · intro hcode
      have hlen : p.length = 8 := by
        rw [← id_eq p, ← hcode, Radix.Alphabet.encodeGroup, Radix.Alphabet.length_numeral]
      exact ⟨hlen, ((Base64.b32decode_eq_ok hlen).mpr ⟨hb, hcode⟩).1⟩

/-- The server reads exactly the texts that the writer writes, with white space around them. -/
theorem server_decodeLicense_iff : Verifier.decodeLicense x = .ok struct ↔
    Verifier.encodeLicense struct = .ok (Verifier.stripSpace x) := by
  have hlayout := server_readsBlocks.layout_iff (t := Verifier.stripSpace x) (List.map_id _)
    fun _ => Iff.rfl
  rw [encodeLicense_eq_ok]
  constructor
  · intro h
    obtain ⟨hparts, h⟩ := Effects.except_ensure_eq_ok h
    obtain ⟨blocks, hblocks, h⟩ := Effects.except_bind_eq_ok h
    obtain ⟨htotal, h⟩ := Effects.except_ensure_eq_ok h
    cases h
    obtain ⟨hfive, htext⟩ := (hlayout blocks).mp ⟨hparts, hblocks, htotal⟩
    exact ⟨blocks, hfive, rfl, htext⟩
  · rintro ⟨blocks, hfive, rfl, htext⟩
    obtain ⟨hparts, hblocks, htotal⟩ := (hlayout blocks).mpr ⟨hfive, htext⟩
    rw [Verifier.decodeLicense, Effects.except_ensure_true hparts, Effects.except_bind_ok hblocks]
    exact Effects.except_ensure_true htotal

end Server

section Client

def entry (c : Nat) : Int8 :=
  match base32.digit? c with
  | some d => Int8.ofNat d
  | none => -1

theorem kB32_toList : LicenseFormat.kB32.toList = (List.range 256).map entry := by
  decide +kernel

theorem kB32_get (c : Fin 256) : LicenseFormat.kB32.get c = entry c.val := by
  have hget : LicenseFormat.kB32.toList[c.val]? = some (entry c.val) := by
    rw [kB32_toList, List.getElem?_map, List.getElem?_range c.isLt, Option.map_some]
  obtain ⟨_, hget⟩ := List.getElem?_eq_some_iff.mp hget
  exact (Vector.getElem_toList _).symm.trans hget

theorem digit_of_int8 :
    ∀ d < 32, ¬ Int8.ofNat d < 0 ∧ (Int8.ofNat d).toInt64.toUInt64.toNat = d := by
  decide

theorem b32Step_eq_ok {acc v : UInt64} {c : UInt8} (hacc : acc.toNat < 2 ^ 59) :
    LicenseFormat.b32Step acc c = .ok v ↔ base32.push acc.toNat c.toNat = some v.toNat := by
  have hget := kB32_get ⟨c.toNat, c.toNat_lt⟩
  unfold LicenseFormat.b32Step Radix.Alphabet.push
  simp only [hget, entry, Base64.radix_base32]
  cases hd : base32.digit? c.toNat with
  | none =>
    rw [if_pos (by decide)]
    exact ⟨fun h => (nomatch h), fun h => (nomatch h)⟩
  | some d =>
    have hlt : d < 32 := (Radix.Alphabet.digit?_eq_some.mp hd).1
    obtain ⟨hpos, hnat⟩ := digit_of_int8 d hlt
    have hshift : (acc <<< 5 ||| (Int8.ofNat d).toInt64.toUInt64).toNat = acc.toNat * 32 + d := by
      rw [UInt64.toNat_or, UInt64.toNat_shiftLeft, hnat]
      change acc.toNat <<< 5 % 2 ^ 64 ||| d = _
      rw [Nat.mod_eq_of_lt (by rw [Nat.shiftLeft_eq]; omega), Nat.shiftLeft_eq, Nat.mul_comm,
        ← Nat.two_pow_add_eq_or_of_lt (i := 5) hlt]
    rw [if_neg hpos, Option.map_some, Option.some.injEq, Except.ok.injEq, ← hshift,
      UInt64.toNat_inj]

theorem foldlM_b32Step {acc v : UInt64} {k : Nat} {cs : Bytes} (hacc : acc.toNat < 32 ^ k)
    (hfit : k + cs.length ≤ 8) : cs.foldlM LicenseFormat.b32Step acc = .ok v ↔
      (cs.map UInt8.toNat).foldlM base32.push acc.toNat = some v.toNat := by
  induction cs generalizing acc k with
  | nil =>
    rw [List.map_nil, List.foldlM_nil, List.foldlM_nil]
    constructor
    · intro h
      cases h
      rfl
    · intro h
      rw [UInt64.toNat_inj.mp (Option.some.inj h)]
      rfl
  | cons c cs ih =>
    rw [List.length_cons] at hfit
    have hsmall : acc.toNat < 2 ^ 59 := hacc.trans_le
      ((Nat.pow_le_pow_right (by decide) (show k ≤ 8 by omega)).trans (by decide))
    rw [List.map_cons, List.foldlM_cons, List.foldlM_cons]
    cases hpush : base32.push acc.toNat c.toNat with
    | none =>
      cases hstep : LicenseFormat.b32Step acc c with
      | error e => exact ⟨fun h => (nomatch h), fun h => (nomatch h)⟩
      | ok w =>
        rw [(b32Step_eq_ok hsmall).mp hstep] at hpush
        cases hpush
    | some w =>
      have hw : w < 32 ^ (k + 1) := by
        have hbound := (Radix.Alphabet.push_eq_some hpush).2.2
        rw [Base64.radix_base32] at hbound
        rw [pow_succ]
        exact hbound.trans_le (Nat.mul_le_mul_right 32 hacc)
      have hword : (UInt64.ofNat w).toNat = w := UInt64.toNat_ofNat_of_lt' (hw.trans_le
        ((Nat.pow_le_pow_right (by decide) (show k + 1 ≤ 8 by omega)).trans (by decide)))
      have hstep : LicenseFormat.b32Step acc c = .ok (UInt64.ofNat w) :=
        (b32Step_eq_ok hsmall).mpr (by rw [hword, hpush])
      rw [Effects.except_bind_ok hstep, Option.bind_eq_bind, Option.bind_some,
        ih (hword.symm ▸ hw) (by omega), hword]

theorem shift_byte (acc : UInt64) {k : Nat} (hk : k < 64) :
    (acc >>> UInt64.ofNat k).toUInt8 = UInt8.ofNat (acc.toNat / 2 ^ k) := by
  have hword : (UInt64.ofNat k).toNat = k := UInt64.toNat_ofNat_of_lt' (hk.trans (by decide))
  apply UInt8.toNat_inj.mp
  rw [UInt64.toNat_toUInt8, UInt64.toNat_shiftRight, hword, Nat.mod_eq_of_lt hk,
    Nat.shiftRight_eq_div_pow, UInt8.toNat_ofNat']

theorem shifts_eq (acc : UInt64) :
    ((List.range 5).map fun i => (acc >>> UInt64.ofNat (32 - 8 * i)).toUInt8) =
      beBytes 5 acc.toNat := by
  have hshift : ∀ i ∈ List.range 5, (acc >>> UInt64.ofNat (32 - 8 * i)).toUInt8 =
      UInt8.ofNat (acc.toNat / 2 ^ (32 - 8 * i)) := fun i _ => shift_byte acc (by omega)
  rw [List.map_congr_left hshift]
  simp only [beBytes, List.range_succ, List.range_zero, List.map_append, List.map_cons,
    List.map_nil, Nat.div_div_eq_div_mul]
  norm_num

theorem b32decodeBlock_eq_ok {p b : Bytes} : LicenseFormat.b32decodeBlock p = .ok b ↔
    b.length = 5 ∧ base32.encodeGroup 8 b = p.map UInt8.toNat := by
  have hrun {acc : UInt64} (hlen : p.length = 8) : p.foldlM LicenseFormat.b32Step 0 = .ok acc ↔
      base32.read (p.map UInt8.toNat) = some acc.toNat :=
    foldlM_b32Step (k := 0) (by decide) (by omega)
  constructor
  · intro h
    obtain ⟨hlen, h⟩ := Effects.except_ensure_eq_ok h
    obtain ⟨acc, hacc, h⟩ := Effects.except_bind_eq_ok h
    have hb : beBytes 5 acc.toNat = b := (shifts_eq acc).symm.trans (Except.ok.inj h)
    have hread : base32.read (p.map UInt8.toNat) = some acc.toNat := (hrun hlen).mp hacc
    refine (Radix.Alphabet.read_eq_some_iff_group Base64.group_size (by simpa using hlen)).mp ?_
    rw [hread, Option.map_some, hb]
  · rintro ⟨hb, hcode⟩
    have hlen : p.length = 8 := by
      rw [← List.length_map UInt8.toNat, ← hcode, Radix.Alphabet.encodeGroup,
        Radix.Alphabet.length_numeral]
    have hgroup := (Radix.Alphabet.read_eq_some_iff_group Base64.group_size
      (by simpa using hlen)).mpr ⟨hb, hcode⟩
    obtain ⟨v, hread, hv⟩ := Option.map_eq_some_iff.mp hgroup
    have hlt := (Radix.Alphabet.read_eq_some hread).1
    rw [List.length_map, hlen, Base64.radix_base32] at hlt
    have hword : (UInt64.ofNat v).toNat = v :=
      UInt64.toNat_ofNat_of_lt' (hlt.trans_le (by decide))
    have hacc : p.foldlM LicenseFormat.b32Step 0 = .ok (UInt64.ofNat v) :=
      (hrun hlen).mpr (by rw [hword]; exact hread)
    rw [LicenseFormat.b32decodeBlock, Effects.except_ensure_true hlen,
      Effects.except_bind_ok hacc, shifts_eq, hword, hv]
    rfl

theorem client_readsBlocks : ReadsBlocks (List.map UInt8.toNat) LicenseFormat.b32decodeBlock where
  length_le h := (b32decodeBlock_eq_ok.mp h).1.le
  exact hb := ⟨fun h => (b32decodeBlock_eq_ok.mp h).2, fun h => b32decodeBlock_eq_ok.mpr ⟨hb, h⟩⟩

def nonBlank (x : Bytes) : Bytes := x.filter fun c => !LicenseFormat.isWs c

/-- The streaming split is the split of the text without its blanks. -/
theorem foldl_splitStep (x : Bytes) (parts : List Bytes) (cur : Bytes) :
    (x.foldl LicenseFormat.splitStep (parts, cur)).1 ++
        [(x.foldl LicenseFormat.splitStep (parts, cur)).2] =
      parts ++ ((nonBlank x).splitOn 0x2D).modifyHead (cur ++ ·) := by
  induction x generalizing parts cur with
  | nil => simp [nonBlank]
  | cons c x ih =>
    rw [List.foldl_cons, LicenseFormat.splitStep]
    by_cases hws : LicenseFormat.isWs c = true
    · rw [if_pos hws, ih, nonBlank, nonBlank, List.filter_cons_of_neg (by simp [hws])]
    · have hkeep : nonBlank (c :: x) = c :: nonBlank x := List.filter_cons_of_pos (by simp [hws])
      rw [if_neg hws, hkeep, List.splitOn_cons_eq_if_modifyHead]
      by_cases hdash : c = 0x2D
      · rw [if_pos hdash, ih, if_pos (beq_iff_eq.mpr hdash)]
        cases (nonBlank x).splitOn 0x2D <;> simp
      · rw [if_neg hdash, ih, if_neg (by simpa using hdash)]
        cases (nonBlank x).splitOn 0x2D <;> simp

theorem splitParts_eq (x : Bytes) : (LicenseFormat.splitParts x).map (List.map UInt8.toNat) =
    ((nonBlank x).map UInt8.toNat).splitOn dash := by
  have hsplit : LicenseFormat.splitParts x = (nonBlank x).splitOn 0x2D := by
    refine (foldl_splitStep x [] []).trans ?_
    cases (nonBlank x).splitOn 0x2D <;> rfl
  have hinj : Function.Injective UInt8.toNat := fun _ _ => UInt8.toNat_inj.mp
  exact hsplit ▸ (Text.splitOn_map hinj 0x2D (nonBlank x)).symm

/-- The client reads exactly the texts of version 6, with blanks anywhere in them. -/
theorem client_decodeLicense_iff {x struct : Bytes} : LicenseFormat.decodeLicense x = .ok struct ↔
    Verifier.encodeLicense struct = .ok ((nonBlank x).map UInt8.toNat) ∧
      struct.head? = some Constants.licenseVersion := by
  have hfirst : ∀ p : Bytes, p = Constants.licensePrefix ↔
      p.map UInt8.toNat = Config.licensePrefix := by
    intro p
    have hcodes : Constants.licensePrefix.map UInt8.toNat = Config.licensePrefix := by decide
    rw [← hcodes]
    exact (List.map_injective_iff.mpr fun _ _ => UInt8.toNat_inj.mp).eq_iff.symm
  have hlayout := client_readsBlocks.layout_iff (splitParts_eq x) hfirst
  rw [encodeLicense_eq_ok]
  constructor
  · intro h
    obtain ⟨hparts, h⟩ := Effects.except_ensure_eq_ok h
    obtain ⟨blocks, hblocks, h⟩ := Effects.except_bind_eq_ok h
    obtain ⟨htotal, h⟩ := Effects.except_ensure_eq_ok h
    obtain ⟨hversion, h⟩ := Effects.except_ensure_eq_ok h
    cases h
    obtain ⟨hfive, htext⟩ := (hlayout blocks).mp ⟨hparts, hblocks, htotal⟩
    exact ⟨⟨blocks, hfive, rfl, htext⟩, hversion⟩
  · rintro ⟨⟨blocks, hfive, rfl, htext⟩, hversion⟩
    obtain ⟨hparts, hblocks, htotal⟩ := (hlayout blocks).mpr ⟨hfive, htext⟩
    rw [LicenseFormat.decodeLicense, Effects.except_ensure_true hparts,
      Effects.except_bind_ok hblocks]
    exact (Effects.except_ensure_true htotal).trans (Effects.except_ensure_true hversion)

end Client

theorem isSpace_of_isWs {c : UInt8} (h : LicenseFormat.isWs c = true) :
    Verifier.isSpace c.toNat = true := by
  simp only [LicenseFormat.isWs, Bool.or_eq_true, decide_eq_true_eq] at h
  rcases h with ((rfl | rfl) | rfl) | rfl <;> rfl

theorem exists_ascii_text {struct : Bytes} (h : struct.length = 25) : ∃ t : Bytes,
    Verifier.encodeLicense struct = .ok (t.map UInt8.toNat) ∧ ∀ c ∈ t, c.toNat < 0x80 := by
  have hencode := encodeLicense_eq_ok.mpr
    ⟨_, blocks_slices h, Text.flatten_slices (by decide) struct, rfl⟩
  have hbytes : ((text (Text.slices 5 struct)).map UInt8.ofNat).map UInt8.toNat =
      text (Text.slices 5 struct) := by
    rw [List.map_map]
    refine (List.map_congr_left fun c hc => ?_).trans (List.map_id _)
    exact UInt8.toNat_ofNat_of_lt' ((text_chars hc).1.trans (by decide))
  refine ⟨_, hencode.trans (congrArg Except.ok hbytes.symm), fun c hc => ?_⟩
  exact (text_chars (hbytes ▸ List.mem_map_of_mem hc)).1

/-- Reading inverts writing, and each reader accepts the written texts only: the server with
white space around them, the client with blanks anywhere and under version 6. -/
theorem license_codec :
    (∀ struct : BytesN 25, ∃ t : Bytes, (∀ c ∈ t, c.toNat < 0x80) ∧
      Verifier.encodeLicense struct.val = .ok (t.map UInt8.toNat) ∧
      Verifier.decodeLicense (t.map UInt8.toNat) = .ok struct.val ∧
      (struct.val.head? = some 6 → LicenseFormat.decodeLicense t = .ok struct.val)) ∧
    (∀ x struct, Verifier.decodeLicense x = .ok struct ↔
      Verifier.encodeLicense struct = .ok (Verifier.stripSpace x)) ∧
    ∀ x struct, LicenseFormat.decodeLicense x = .ok struct ↔
      Verifier.encodeLicense struct = .ok ((nonBlank x).map UInt8.toNat) ∧
        struct.head? = some 6 := by
  refine ⟨?_, fun _ _ => server_decodeLicense_iff, fun _ _ => client_decodeLicense_iff⟩
  intro struct
  obtain ⟨t, hencode, hascii⟩ := exists_ascii_text struct.property
  have hspace : ∀ c ∈ t, Verifier.isSpace c.toNat = false :=
    fun c hc => (encodeLicense_chars hencode c.toNat (List.mem_map_of_mem hc)).2
  refine ⟨t, hascii, hencode, ?_, ?_⟩
  · have hstrip : Verifier.stripSpace (t.map UInt8.toNat) = t.map UInt8.toNat :=
      Text.trim_eq_self (List.forall_mem_map.mpr hspace)
    rw [server_decodeLicense_iff, hstrip, hencode]
  · intro hversion
    have hkeep : nonBlank t = t := by
      refine List.filter_eq_self.mpr fun c hc => ?_
      by_contra hblank
      have hws : LicenseFormat.isWs c = true := by simpa using hblank
      exact Bool.noConfusion ((isSpace_of_isWs hws).symm.trans (hspace c hc))
    rw [client_decodeLicense_iff, hkeep, hencode]
    exact ⟨rfl, hversion⟩

/-- The struct of version 6 with nothing else in it. -/
theorem license_codec_blank : ∃ t : Bytes,
    Verifier.decodeLicense (t.map UInt8.toNat) = .ok (6 :: ByteCodec.zeros 24) ∧
      LicenseFormat.decodeLicense t = .ok (6 :: ByteCodec.zeros 24) := by
  obtain ⟨t, -, -, hserver, hclient⟩ := license_codec.1 ⟨6 :: ByteCodec.zeros 24, rfl⟩
  exact ⟨t, hserver, hclient rfl⟩

end RankGate.Session.LicenseCodec
