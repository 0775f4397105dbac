/- Module: RankGate/Foundation/Text
   layer: foundation
   digest: Slices, hexadecimal digits, and readers that take a text piece by piece. -/

import Mathlib.Data.List.DropRight
import RankGate.Foundation.ByteCodec

set_option autoImplicit false
set_option relaxedAutoImplicit false

namespace Text

open ByteCodec (Bytes)

section Slices

variable {α : Type}

/-- The slices that start at 0, n, 2n and so on; only the last may be short. -/
def slices (n : Nat) (l : List α) : List (List α) :=
  (List.range ((l.length + n - 1) / n)).map fun i => (l.drop (i * n)).take n

theorem flatten_slices {n : Nat} (hn : 0 < n) (l : List α) : (slices n l).flatten = l := by
  have htake (k : Nat) : ((List.range k).map fun i => (l.drop (i * n)).take n).flatten =
      l.take (k * n) := by
    induction k with
    | zero => simp
    | succ k ih =>
      rw [List.range_succ, List.map_append, List.flatten_append, ih, Nat.succ_mul, List.take_add]
      simp
  rw [slices, htake, List.take_of_length_le]
  have hdiv := Nat.div_add_mod (l.length + n - 1) n
  have hmod := Nat.mod_lt (l.length + n - 1) hn
  rw [Nat.mul_comm] at hdiv
  omega

theorem ne_nil_of_mem_slices {n : Nat} (hn : 0 < n) {l s : List α} (h : s ∈ slices n l) :
    s ≠ [] := by
  obtain ⟨i, hi, rfl⟩ := List.mem_map.mp h
  rw [List.mem_range, Nat.lt_div_iff_mul_lt hn] at hi
  rw [← List.length_pos_iff, List.length_take, List.length_drop]
  omega

theorem slices_nil {n : Nat} (hn : 0 < n) : slices n ([] : List α) = [] := by
  have hcount : (0 + n - 1) / n = 0 := Nat.div_eq_of_lt (by omega)
  rw [slices, List.length_nil, hcount]
  rfl

theorem slices_append {n : Nat} (hn : 0 < n) {a : List α} (ha : a.length = n) (r : List α) :
    slices n (a ++ r) = a :: slices n r := by
  have hcount : ((a ++ r).length + n - 1) / n = (r.length + n - 1) / n + 1 := by
    rw [List.length_append, ha, show n + r.length + n - 1 = r.length + n - 1 + n by omega,
      Nat.add_div_right _ hn]
  rw [slices, slices, hcount, List.range_succ_eq_map, List.map_cons, List.map_map]
  congr 1
  · rw [Nat.zero_mul, List.drop_zero, List.take_left' ha]
  · refine List.map_congr_left fun i _ => ?_
    have hdrop : (a ++ r).drop ((i + 1) * n) = r.drop (i * n) := by
      rw [Nat.succ_mul, Nat.add_comm, ← List.drop_drop, List.drop_left' ha]
    exact congrArg (List.take n) hdrop

theorem slices_flatten {n : Nat} (hn : 0 < n) {ls : List (List α)} (h : ∀ l ∈ ls, l.length = n) :
    slices n ls.flatten = ls := by
  induction ls with
  | nil => exact slices_nil hn
  | cons l ls ih =>
    rw [List.flatten_cons, slices_append hn (h l List.mem_cons_self),
      ih fun m hm => h m (List.mem_cons_of_mem l hm)]

theorem slices_of_length_eq_mul {n k : Nat} (hn : 0 < n) {l : List α} (h : l.length = k * n) :
    (slices n l).length = k ∧ ∀ s ∈ slices n l, s.length = n := by
  have hcount : (l.length + n - 1) / n = k := by
    rw [h, Nat.add_sub_assoc hn, Nat.mul_comm, Nat.mul_add_div hn,
      Nat.div_eq_of_lt (Nat.sub_one_lt hn.ne'), Nat.add_zero]
  constructor
  · rw [slices, List.length_map, List.length_range, hcount]
  · intro s hs
    obtain ⟨i, hi, rfl⟩ := List.mem_map.mp hs
    rw [List.mem_range, hcount] at hi
    have hfull : (i + 1) * n ≤ k * n := Nat.mul_le_mul_right n hi
    rw [Nat.succ_mul] at hfull
    rw [List.length_take, List.length_drop]
    omega

theorem length_flatten_le {n : Nat} {ls : List (List α)} (h : ∀ l ∈ ls, l.length ≤ n) :
    ls.flatten.length ≤ ls.length * n := by
  induction ls with
  | nil => exact Nat.zero_le _
  | cons l ls ih =>
    have hl := h l List.mem_cons_self
    have hls := ih fun m hm => h m (List.mem_cons_of_mem l hm)
    rw [List.flatten_cons, List.length_append, List.length_cons, Nat.succ_mul]
    omega

theorem full_of_length_flatten {n : Nat} {ls : List (List α)} (h : ∀ l ∈ ls, l.length ≤ n)
    (htotal : ls.flatten.length = ls.length * n) : ∀ l ∈ ls, l.length = n := by
  induction ls with
  | nil => exact fun _ hm => (nomatch hm)
  | cons l ls ih =>
    have hl := h l List.mem_cons_self
    have hle := fun m hm => h m (List.mem_cons_of_mem l hm)
    have hls := length_flatten_le hle
    rw [List.flatten_cons, List.length_append, List.length_cons, Nat.succ_mul] at htotal
    intro m hm
    rcases List.mem_cons.mp hm with rfl | hm
    · omega
    · exact ih hle (by omega) m hm

theorem slices_of_le {n : Nat} {l : List α} (hne : l ≠ []) (h : l.length ≤ n) :
    slices n l = [l] := by
  have hpos := List.length_pos_iff.mpr hne
  have hcount : (l.length + n - 1) / n = 1 := by
    rw [Nat.div_eq_iff (by omega)]
    omega
  rw [slices, hcount]
  simp [List.take_of_length_le h]

/-- Cutting slices off the front, until what is left fits one. -/
theorem slices_induction {n : Nat} (hn : 0 < n) {P : List α → Prop}
    (short : ∀ l, l.length ≤ n → P l)
    (long : ∀ a r, a.length = n → r ≠ [] → P r → P (a ++ r)) (l : List α) : P l := by
  by_cases h : l.length ≤ n
  · exact short l h
  · have hrest : l.drop n ≠ [] := by
      rw [← List.length_pos_iff, List.length_drop]
      omega
    rw [← List.take_append_drop n l]
    refine long _ _ (List.length_take_of_le (by omega)) hrest ?_
    exact slices_induction hn short long (l.drop n)
  termination_by l.length
  decreasing_by
    rw [List.length_drop]
    omega

end Slices

section Characters

def codePoints (x : String) : List Nat := x.toList.map Char.toNat

def utf8 (x : String) : Bytes := x.toList.flatMap String.utf8EncodeChar

theorem utf8EncodeChar_ascii {c : Char} (h : c.toNat < 0x80) :
    String.utf8EncodeChar c = [UInt8.ofNat c.toNat] :=
  if_pos (Nat.le_of_lt_succ h)

theorem exists_high_byte {c : Char} (h : 0x80 ≤ c.toNat) :
    ∃ b ∈ String.utf8EncodeChar c, 0x80 ≤ b.toNat := by
  have hne : ¬ c.val.toNat ≤ 0x7f := Nat.not_le.mpr h
  unfold String.utf8EncodeChar
  rw [if_neg hne]
  split_ifs
  all_goals
    refine ⟨_, List.mem_cons_self, ?_⟩
    rw [UInt8.toNat_ofNat']
    omega

theorem map_toNat_utf8 {x : String} (h : ∀ c ∈ codePoints x, c < 0x80) :
    (utf8 x).map UInt8.toNat = codePoints x := by
  unfold codePoints at h
  unfold utf8 codePoints
  generalize x.toList = l at h
  induction l with
  | nil => rfl
  | cons c l ih =>
    have hc : c.toNat < 0x80 := h _ List.mem_cons_self
    rw [List.flatMap_cons, List.map_append, utf8EncodeChar_ascii hc, List.map_cons,
      ih fun d hd => h d (List.mem_cons_of_mem _ hd)]
    simp only [List.map_cons, List.map_nil, List.cons_append, List.nil_append]
    rw [UInt8.toNat_ofNat_of_lt' (hc.trans (by decide))]

theorem exists_high_byte_utf8 {x : String} {c : Nat} (hc : c ∈ codePoints x) (h : 0x80 ≤ c) :
    ∃ b ∈ utf8 x, 0x80 ≤ b.toNat := by
  obtain ⟨d, hd, rfl⟩ := List.mem_map.mp hc
  obtain ⟨b, hb, hhigh⟩ := exists_high_byte h
  exact ⟨b, List.mem_flatMap.mpr ⟨d, hd, hb⟩, hhigh⟩

end Characters

section Trimming

variable {α : Type} {p : α → Bool} {l : List α}

def trim (p : α → Bool) (l : List α) : List α := (l.dropWhile p).rdropWhile p

theorem trim_eq_self (h : ∀ c ∈ l, p c = false) : trim p l = l := by
  have hfront : l.dropWhile p = l := by
    cases l with
    | nil => rfl
    | cons c l => exact List.dropWhile_cons_of_neg (by simp [h c List.mem_cons_self])
  rw [trim, hfront, List.rdropWhile_eq_self_iff]
  intro hne
  simp [h _ (List.getLast_mem hne)]

theorem trim_split (p : α → Bool) (l : List α) : ∃ lead trail, l = lead ++ trim p l ++ trail ∧
    (∀ c ∈ lead, p c = true) ∧ ∀ c ∈ trail, p c = true := by
  refine ⟨l.takeWhile p, (l.dropWhile p).rtakeWhile p, ?_, ?_, ?_⟩
  · rw [List.append_assoc, trim, List.rdropWhile_append_rtakeWhile,
      List.takeWhile_append_dropWhile]
  · exact fun c hc => List.mem_takeWhile_imp hc
  · exact fun c hc => List.mem_rtakeWhile_imp hc

theorem trim_append {lead trail : List α} (hlead : ∀ c ∈ lead, p c = true)
    (htrail : ∀ c ∈ trail, p c = true) : trim p (lead ++ (l ++ trail)) = trim p l := by
  have hback (m : List α) : (m ++ trail).rdropWhile p = m.rdropWhile p := by
    rw [List.rdropWhile, List.reverse_append, List.dropWhile_append_of_pos
      fun c hc => htrail c (List.mem_reverse.mp hc)]
    rfl
  rw [trim, trim, List.dropWhile_append_of_pos hlead, List.dropWhile_append]
  split_ifs with h
  · rw [List.isEmpty_iff.mp h, List.dropWhile_eq_nil_iff.mpr htrail]
  · exact hback _

theorem trim_padded {lead trail : List α} (hlead : ∀ c ∈ lead, p c = true)
    (h : ∀ c ∈ l, p c = false) (htrail : ∀ c ∈ trail, p c = true) :
    trim p (lead ++ (l ++ trail)) = l := (trim_append hlead htrail).trans (trim_eq_self h)

end Trimming

section Splitting

variable {α β : Type} [DecidableEq α] [DecidableEq β]

theorem splitOn_map {f : α → β} (hf : Function.Injective f) (a : α) (l : List α) :
    (l.map f).splitOn (f a) = (l.splitOn a).map (List.map f) := by
  induction l with
  | nil => rfl
  | cons c l ih =>
    rw [List.map_cons, List.splitOn_cons_eq_if_modifyHead, List.splitOn_cons_eq_if_modifyHead, ih]
    by_cases hc : c = a
    · simp [hc]
    · have hfc : f c ≠ f a := fun heq => hc (hf heq)
      simp only [beq_iff_eq, hc, hfc, if_false]
      cases l.splitOn a <;> rfl

omit [DecidableEq α] in
theorem mem_intercalate {sep : List α} {ls : List (List α)} {c : α}
    (h : c ∈ sep.intercalate ls) : c ∈ sep ∨ ∃ l ∈ ls, c ∈ l := by
  induction ls with
  | nil => cases h
  | cons l ls ih =>
    cases ls with
    | nil =>
      rw [List.intercalate_singleton] at h
      exact .inr ⟨l, List.mem_cons_self, h⟩
    | cons m ls =>
      rw [List.intercalate_cons_cons, List.mem_append, List.mem_append] at h
      rcases h with (hl | hsep) | htail
      · exact .inr ⟨l, List.mem_cons_self, hl⟩
      · exact .inl hsep
      · obtain hsep | ⟨k, hk, hc⟩ := ih htail
        · exact .inl hsep
        · exact .inr ⟨k, List.mem_cons_of_mem l hk, hc⟩

/-- Splitting undoes joining, and conversely. -/
theorem splitOn_eq_iff {a : α} {l : List α} {parts : List (List α)} (hne : parts ≠ [])
    (h : ∀ p ∈ parts, a ∉ p) : l.splitOn a = parts ↔ l = [a].intercalate parts := by
  constructor
  · rintro rfl
    exact (List.intercalate_splitOn a).symm
  · rintro rfl
    exact List.splitOn_intercalate a h hne

end Splitting

section Hex

def hexDigit (n : Nat) : Char :=
  ['0', '1', '2', '3', '4', '5', '6', '7', '8', '9', 'a', 'b', 'c', 'd', 'e', 'f'].getD n '0'

def hexByte (b : UInt8) : List Char := [hexDigit (b.toNat / 16), hexDigit (b.toNat % 16)]

def hexValue (c : Char) : Option Nat :=
  if '0' ≤ c ∧ c ≤ '9' then some (c.toNat - '0'.toNat)
  else if 'a' ≤ c ∧ c ≤ 'f' then some (c.toNat - 'a'.toNat + 10)
  else if 'A' ≤ c ∧ c ≤ 'F' then some (c.toNat - 'A'.toNat + 10)
  else none

theorem hexValue_hexDigit : ∀ n < 16, hexValue (hexDigit n) = some n := by decide

theorem hexDigits_of_byte (b : UInt8) : hexValue (hexDigit (b.toNat / 16)) = some (b.toNat / 16) ∧
    hexValue (hexDigit (b.toNat % 16)) = some (b.toNat % 16) :=
  ⟨hexValue_hexDigit _ (Nat.div_lt_of_lt_mul b.toNat_lt), hexValue_hexDigit _ (Nat.mod_lt _ (by decide))⟩

def marks : List Char := [' ', '\t', '\n', '\r', '"', '\\', ',', ')', '\x7d']

theorem hexDigit_notMem_marks : ∀ n < 16, hexDigit n ∉ marks := by decide

theorem hexByte_notMem_marks {b : UInt8} {c : Char} (hc : c ∈ hexByte b) : c ∉ marks := by
  rcases List.mem_pair.mp hc with rfl | rfl
  · exact hexDigit_notMem_marks _ (Nat.div_lt_of_lt_mul b.toNat_lt)
  · exact hexDigit_notMem_marks _ (Nat.mod_lt _ (by decide))

end Hex

section Reads

variable {τ β γ : Type}

/-- Whatever follows, the reader takes `text` off the front and yields `out` for it. -/
def Reads (read : List τ → Option (List β × List τ)) (text : List τ) (out : List β) : Prop :=
  ∀ rest, read (text ++ rest) = (read rest).map fun p => (out ++ p.1, p.2)

variable {read : List τ → Option (List β × List τ)} {text text' sep : List τ} {out out' : List β}

theorem Reads.nil : Reads read [] [] := by
  intro rest
  cases h : read rest with
  | none => rw [List.nil_append, h]; rfl
  | some p => rw [List.nil_append, h]; rfl

theorem Reads.append (h : Reads read text out) (h' : Reads read text' out') :
    Reads read (text ++ text') (out ++ out') := by
  intro rest
  rw [List.append_assoc, h, h', Option.map_map]
  congr 1
  funext p
  simp

theorem Reads.intercalate (hsep : Reads read sep []) {l : List γ} {f : γ → List τ} {g : γ → List β}
    (h : ∀ x ∈ l, Reads read (f x) (g x)) :
    Reads read (sep.intercalate (l.map f)) (l.flatMap g) := by
  induction l with
  | nil => exact .nil
  | cons x l ih =>
    have hx := h x List.mem_cons_self
    have hl := ih fun y hy => h y (List.mem_cons_of_mem x hy)
    cases l with
    | nil => simpa using hx
    | cons y l =>
      have hall := (hx.append hsep).append hl
      rw [List.append_nil] at hall
      rw [List.map_cons, List.map_cons, List.intercalate_cons_cons, List.flatMap_cons]
      exact hall

theorem intercalate_append_mark (mark sep : List τ) (f : γ → List τ) {l : List γ} (h : l ≠ []) :
    (mark ++ sep).intercalate (l.map f) ++ mark = sep.intercalate (l.map fun x => f x ++ mark) := by
  induction l with
  | nil => exact absurd rfl h
  | cons x l ih =>
    cases l with
    | nil => simp
    | cons y l =>
      have hl := ih (List.cons_ne_nil y l)
      simp only [List.map_cons, List.intercalate_cons_cons, List.append_assoc] at hl ⊢
      rw [hl]

end Reads

theorem dropInfix?_append {τ : Type} [BEq τ] {head pat p s : List τ}
    (h : head.dropInfix? pat = some (p, s)) (rest : List τ) :
    (head ++ rest).dropInfix? pat = some (p, s ++ rest) := by
  obtain ⟨⟨i, hi, heq⟩, hmin⟩ := List.dropInfix?_eq_some_iff.mp h
  refine List.dropInfix?_eq_some_iff.mpr ⟨⟨i, by rw [hi, List.append_assoc _ s], heq⟩, ?_⟩
  intro p' i' s' hsplit heq'
  by_contra hshort
  have hlen : (p' ++ i').length ≤ head.length := by
    have hi' : i'.length = i.length :=
      (List.length_eq_of_beq heq').trans (List.length_eq_of_beq heq).symm
    rw [hi, List.length_append, List.length_append, List.length_append, hi']
    omega
  -- an earlier match would lie within the head
  obtain ⟨s'', hs⟩ : p' ++ i' <+: head :=
    List.prefix_of_prefix_length_le ⟨s', hsplit.symm⟩ ⟨rest, rfl⟩ hlen
  exact hshort (hmin p' i' s'' hs.symm heq')

end Text
