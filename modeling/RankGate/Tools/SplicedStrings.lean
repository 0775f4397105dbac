/- Module: RankGate/Tools/SplicedStrings
   source: tools/generate_string_splices.py
   digest: Every string is read back from the tables, whatever is drawn, and decoys stay out of all of them. -/

import RankGate.Foundation.Tiling
import RankGate.Tools.StringSplices

set_option autoImplicit false
set_option relaxedAutoImplicit false

namespace RankGate.Tools.SplicedStrings

open ByteCodec (Bytes)
open StringSplices
open Text (utf8)
open Tiling (Apart Tiles)

section Rotation

theorem land_0xFF (x : Nat) : x &&& 0xFF = x % 2 ^ 8 := Nat.and_two_pow_sub_one_eq_mod x 8

theorem land_7 {r : Nat} (hr : r < 8) : r &&& 7 = r := by
  rw [show (7 : Nat) = 2 ^ 3 - 1 from rfl, Nat.and_two_pow_sub_one_eq_mod, Nat.mod_eq_of_lt hr]

theorem rol8_eq {v r : Nat} (hv : v < 256) (h0 : 0 < r) (hr : r < 8) :
    rol8 v r = v % 2 ^ (8 - r) * 2 ^ r + v / 2 ^ (8 - r) := by
  have hsplit : 2 ^ (8 - r) * 2 ^ r = 2 ^ 8 := by
    rw [← Nat.pow_add]
    congr 1
    omega
  have hhigh : v / 2 ^ (8 - r) < 2 ^ r := by
    rw [Nat.div_lt_iff_lt_mul (by positivity), Nat.mul_comm, hsplit]
    exact hv
  have hbyte : v / 2 ^ (8 - r) < 2 ^ 8 := lt_of_le_of_lt (Nat.div_le_self _ _) hv
  simp only [rol8]
  rw [land_7 hr, if_pos (by omega), land_0xFF, Nat.or_mod_two_pow, Nat.shiftLeft_eq,
    Nat.shiftRight_eq_div_pow, Nat.mod_eq_of_lt hbyte, ← hsplit, Nat.mul_mod_mul_right,
    ← Nat.shiftLeft_eq, Nat.shiftLeft_add_eq_or_of_lt hhigh]

theorem ror8_eq_rol8 {r : Nat} (v : Nat) (h0 : 0 < r) (hr : r < 8) :
    ror8 v r = rol8 v (8 - r) := by
  have hcomplement : 8 - (8 - r) = r := by omega
  simp only [ror8, rol8]
  rw [land_7 hr, land_7 (by omega : 8 - r < 8), if_pos (by omega), if_pos (by omega), hcomplement,
    Nat.or_comm]

theorem rol8_lt (v r : Nat) : rol8 v r < 256 := by
  simp only [rol8]
  split_ifs
  · exact Nat.lt_succ_of_le Nat.and_le_right
  · exact Nat.lt_succ_of_le Nat.and_le_right

theorem ror8_rol8 {v r : Nat} (hv : v < 256) (hr : r < 8) : ror8 (rol8 v r) r = v := by
  rcases Nat.eq_zero_or_pos r with rfl | h0
  · have hid : ∀ w < 256, rol8 w 0 = w ∧ ror8 w 0 = w := by
      intro w hw
      have hmask : w &&& 0xFF = w := (land_0xFF w).trans (Nat.mod_eq_of_lt hw)
      exact ⟨hmask, hmask⟩
    rw [(hid v hv).1, (hid v hv).2]
  · have hhigh : v / 2 ^ (8 - r) < 2 ^ r := by
      rw [Nat.div_lt_iff_lt_mul (by positivity), ← Nat.pow_add, Nat.add_sub_cancel' hr.le]
      exact hv
    rw [ror8_eq_rol8 _ h0 hr, rol8_eq (rol8_lt v r) (by omega) (by omega), rol8_eq hv h0 hr,
      Nat.sub_sub_self hr.le, Nat.mul_comm (v % 2 ^ (8 - r)), Nat.mul_add_mod,
      Nat.mod_eq_of_lt hhigh, Nat.mul_add_div (by positivity), Nat.div_eq_of_lt hhigh, Nat.add_zero,
      Nat.mul_comm, Nat.div_add_mod]

end Rotation

theorem decodeByte_encodeByte {f : Frag} (hxr : f.xr ≤ 255) (hro : f.ro ≤ 7) (c : UInt8) :
    decodeByte f (encodeByte f.xr f.ad f.ro c) = c := by
  have hsum : (c.toNat + f.ad) &&& 0xFF < 256 := Nat.lt_succ_of_le Nat.and_le_right
  have hmixed : (((c.toNat + f.ad) &&& 0xFF) ^^^ f.xr) < 256 :=
    Nat.xor_lt_two_pow (n := 8) hsum (Nat.lt_succ_of_le hxr)
  rw [decodeByte, encodeByte, UInt8.toNat_ofNat_of_lt' (rol8_lt _ _),
    ror8_rol8 hmixed (Nat.lt_succ_of_le hro), Nat.xor_assoc, Nat.xor_self, Nat.xor_zero, land_0xFF]
  have hwrap : UInt8.ofNat ((c.toNat + f.ad) % 2 ^ 8) = c + UInt8.ofNat f.ad := by
    rw [UInt8.ofNat_mod_size, UInt8.ofNat_add, UInt8.ofNat_toNat]
  rw [hwrap, UInt8.add_sub_cancel]

def Parts (pool : Bytes) (frags : List Frag) (parts : List Bytes) : Prop :=
  List.Forall₂ (fun f part => readFrag pool f = some part) frags parts

abbrev Fill (a : Nat) (frags : List Frag) (b : Nat) : Prop := Tiles Frag.off Frag.len a frags b

/-- The pool has grown by these fragments, which hold these parts. -/
structure Writes (pool pool' : Bytes) (frags : List Frag) (parts : List Bytes) : Prop where
  grows : pool <+: pool'
  fills : Fill pool.length frags pool'.length
  holds : Parts pool' frags parts

section Pool

variable {pool pool' pool'' : Bytes} {f : Frag} {part chunk : Bytes} {n : Nat}
  {frags frags' : List Frag} {parts parts' : List Bytes}

theorem readFrag_mono (h : pool <+: pool') (hread : readFrag pool f = some part) :
    readFrag pool' f = some part := by
  rw [readFrag] at hread
  split_ifs at hread with hin
  have hlen := h.length_le
  rw [readFrag, if_pos (by omega), Tiling.slice_of_prefix h hin]
  exact hread

theorem Parts.mono (h : pool <+: pool') (hparts : Parts pool frags parts) :
    Parts pool' frags parts :=
  List.Forall₂.imp (fun _ _ hread => readFrag_mono h hread) hparts

theorem Writes.nil (pool : Bytes) : Writes pool pool [] [] :=
  ⟨List.prefix_refl _, rfl, .nil⟩

theorem Writes.trans (h : Writes pool pool' frags parts) (h' : Writes pool' pool'' frags' parts') :
    Writes pool pool'' (frags ++ frags') (parts ++ parts') where
  grows := h.grows.trans h'.grows
  fills := h.fills.append h'.fills
  holds := List.rel_append (h.holds.mono h'.grows) h'.holds

theorem readFrag_append (hoff : f.off = pool.length) (hlen : f.len = chunk.length)
    (hxr : f.xr ≤ 255) (hro : f.ro ≤ 7) :
    readFrag (pool ++ chunk.map (encodeByte f.xr f.ad f.ro)) f = some chunk := by
  have hin : f.off + f.len ≤ (pool ++ chunk.map (encodeByte f.xr f.ad f.ro)).length := by
    rw [List.length_append, List.length_map, hoff, hlen]
  have hdecode : ∀ c ∈ chunk, (decodeByte f ∘ encodeByte f.xr f.ad f.ro) c = id c :=
    fun c _ => decodeByte_encodeByte hxr hro c
  rw [readFrag, if_pos hin, List.drop_left' hoff.symm,
    List.take_of_length_le (by rw [List.length_map, hlen]), List.map_map,
    List.map_congr_left hdecode, List.map_id]

theorem appendChunk_writes (rng : Rng) (s : Gen) (hlen : chunk.length = n) (hn : 0 < n) :
    Writes s.pool (appendChunk rng n chunk s).2.pool [(appendChunk rng n chunk s).1] [chunk] where
  grows := List.prefix_append _ _
  fills := by
    refine ⟨rfl, hn, ?_⟩
    change s.pool.length + n = (s.pool ++ chunk.map _).length
    rw [List.length_append, List.length_map, hlen]
  holds := by
    refine .cons ?_ .nil
    exact readFrag_append rfl hlen.symm (rng.randint_mem s.draws 0 255 (by decide)).2
      (rng.randint_mem (s.draws + 2) 0 7 (by decide)).2

end Pool

structure Rows (name : String) (first : Nat) (rows : List Pending) : Prop where
  named : ∀ p ∈ rows, p.name = name
  numbered : rows.map Pending.order = List.range' first rows.length

theorem Rows.nil (name : String) (first : Nat) : Rows name first [] :=
  ⟨fun _ hp => (List.not_mem_nil hp).elim, rfl⟩

theorem Rows.cons {name : String} {first : Nat} {rows : List Pending} (f : Frag)
    (h : Rows name (first + 1) rows) : Rows name first (⟨name, first, f⟩ :: rows) where
  named := List.forall_mem_cons.mpr ⟨rfl, h.named⟩
  numbered := by rw [List.map_cons, h.numbered, List.length_cons, List.range'_succ]

section Strings

theorem splitLoop_writes (rng : Rng) (name : String) (data : Bytes) {fuel : Nat} (i order : Nat)
    (s : Gen) (hfuel : data.length - i ≤ fuel) :
    ∃ rows parts, Rows name order rows ∧ parts.flatten = data.drop i ∧
      Writes s.pool (splitLoop rng name data fuel i order s).pool (rows.map Pending.frag) parts ∧
      (splitLoop rng name data fuel i order s).pending = s.pending ++ rows ∧
      (splitLoop rng name data fuel i order s).frags = s.frags := by
  have hdone : data.length ≤ i → data.drop i = [] := List.drop_of_length_le
  induction fuel generalizing i order s with
  | zero =>
    exact ⟨[], [], .nil name order, (hdone (by omega)).symm, .nil _, (List.append_nil _).symm, rfl⟩
  | succ fuel ih =>
    rw [splitLoop]
    split_ifs with hlt
    · have hdraw := (rng.randint_mem s.draws 2 5 (by decide)).1
      generalize hn : min (data.length - i) (rng.randint s.draws 2 5) = n
      have hpos : 0 < n := by omega
      have hchunk : ((data.drop i).take n).length = n := by
        rw [List.length_take, List.length_drop]
        omega
      have hwrites := appendChunk_writes rng { s with draws := s.draws + 1 } hchunk hpos
      obtain ⟨rows, parts, hrows, hflat, hrest, hpending, hfrags⟩ := ih (i + n) (order + 1)
        { (appendChunk rng n ((data.drop i).take n) { s with draws := s.draws + 1 }).2 with
          pending := s.pending ++ [⟨name, order,
            (appendChunk rng n ((data.drop i).take n) { s with draws := s.draws + 1 }).1⟩] }
        (by omega) List.drop_of_length_le
      refine ⟨_ :: rows, _ :: parts, hrows.cons _, ?_, hwrites.trans hrest, ?_, hfrags⟩
      · rw [List.flatten_cons, hflat, ← List.drop_drop, List.take_append_drop]
      · rw [← List.append_cons] at hpending
        exact hpending
    · exact ⟨[], [], .nil name order, (hdone (by omega)).symm, .nil _,
        (List.append_nil _).symm, rfl⟩

/-- What the pool and the rows hold of each string. -/
structure Spliced (pool : Bytes) (entry : String × String) (rows : List Pending) : Prop where
  inOrder : Rows entry.1 0 rows
  holds : ∃ parts, Parts pool (rows.map Pending.frag) parts ∧ parts.flatten = utf8 entry.2

theorem Spliced.mono {pool pool' : Bytes} {entry : String × String} {rows : List Pending}
    (h : Spliced pool entry rows) (hgrows : pool <+: pool') : Spliced pool' entry rows where
  inOrder := h.inOrder
  holds := by
    obtain ⟨parts, hparts, hflat⟩ := h.holds
    exact ⟨parts, hparts.mono hgrows, hflat⟩

theorem splitStrings_writes (rng : Rng) (entries : List (String × String)) (s : Gen) :
    ∃ blocks parts, List.Forall₂ (Spliced (entries.foldl (splitString rng) s).pool) entries blocks ∧
      Writes s.pool (entries.foldl (splitString rng) s).pool (blocks.flatten.map Pending.frag)
        parts ∧
      (entries.foldl (splitString rng) s).pending = s.pending ++ blocks.flatten ∧
      (entries.foldl (splitString rng) s).frags = s.frags := by
  induction entries generalizing s with
  | nil => exact ⟨[], [], .nil, .nil _, (List.append_nil _).symm, rfl⟩
  | cons entry entries ih =>
    obtain ⟨rows, parts, hrows, hflat, hwrites, hpending, hfrags⟩ :=
      splitLoop_writes rng entry.1 (utf8 entry.2) 0 0 s (le_refl _)
    obtain ⟨blocks, parts', hblocks, hrest, hpending', hfrags'⟩ := ih (splitString rng s entry)
    refine ⟨rows :: blocks, parts ++ parts', .cons ?_ hblocks, ?_, ?_, hfrags'.trans hfrags⟩
    · exact ⟨hrows, parts, hwrites.holds.mono hrest.grows, hflat⟩
    · rw [List.flatten_cons, List.map_append]
      exact hwrites.trans hrest
    · rw [List.foldl_cons, hpending', List.flatten_cons, ← List.append_assoc]
      exact congrArg (· ++ blocks.flatten) hpending

theorem emitDecoys_writes (rng : Rng) (count : Nat) (s : Gen) :
    ∃ decoys parts, Writes s.pool (emitDecoys rng count s).pool decoys parts ∧
      (emitDecoys rng count s).frags = s.frags ++ decoys ∧
      (emitDecoys rng count s).pending = s.pending := by
  induction count generalizing s with
  | zero => exact ⟨[], [], .nil _, (List.append_nil _).symm, rfl⟩
  | succ count ih =>
    have hdraw := (rng.randint_mem s.draws 2 5 (by decide)).1
    have hpos : 0 < (junk rng s).1.length := by
      rw [junk, List.length_map, List.length_range]
      omega
    have hwrites := appendChunk_writes rng (junk rng s).2 rfl hpos
    obtain ⟨decoys, parts, hrest, hfrags, hpending⟩ :=
      ih (emitFragment rng (junk rng s).1 (junk rng s).2)
    refine ⟨_ :: decoys, _ :: parts, hwrites.trans hrest, ?_, hpending⟩
    rw [emitDecoys, hfrags, List.append_cons]
    rfl

end Strings

/-- `main` up to the shuffle: rows for every string, and the pool filled by them and the decoys. -/
theorem generate_spec (rng : Rng) (strings : Strings) :
    ∃ blocks middle, List.Forall₂ (Spliced (generate rng strings).pool) strings.entries blocks ∧
      (generate rng strings).pending = blocks.flatten ∧
      Fill 0 ((generate rng strings).pending.map Pending.frag) middle ∧
      Fill middle (generate rng strings).frags (generate rng strings).pool.length := by
  obtain ⟨blocks, parts, hblocks, hwrites, hpending, hfrags⟩ :=
    splitStrings_writes rng strings.entries ⟨0, [], [], []⟩
  rw [List.nil_append] at hpending
  rw [generate]
  generalize strings.entries.foldl (splitString rng) ⟨0, [], [], []⟩ = s at *
  obtain ⟨decoys, parts', hdecoys, hfrags', hpending'⟩ :=
    emitDecoys_writes rng (max 8 (s.pending.length / 3)) s
  refine ⟨blocks, s.pool.length, ?_, hpending'.trans hpending, ?_, ?_⟩
  · exact hblocks.imp fun _ _ h => h.mono hdecoys.grows
  · rw [hpending', hpending]
    exact hwrites.fills
  · rw [hfrags', hfrags, List.nil_append]
    exact hdecoys.fills

section Table

variable {rng : Rng} {s : Gen} {p : Pending}

theorem length_newIndex (rng : Rng) (s : Gen) :
    (newIndex rng s).length = (fragTable s).length := by
  rw [newIndex, (rng.shuffle_perm _).length_eq, List.length_range]

theorem newIndex_perm (rng : Rng) (s : Gen) :
    (newIndex rng s).Perm (List.range (newIndex rng s).length) := by
  rw [length_newIndex]
  exact rng.shuffle_perm _

theorem map_getD_range {α : Type} (l : List α) (d : α) :
    (List.range l.length).map (fun i => l.getD i d) = l := by
  apply List.ext_getElem
  · rw [List.length_map, List.length_range]
  · intro i hi _
    rw [List.length_map, List.length_range] at hi
    simp [hi]

theorem shuffled_perm (rng : Rng) (s : Gen) : (shuffled rng s).Perm (fragTable s) := by
  have hperm := (rng.shuffle_perm (List.range (fragTable s).length)).map fun old =>
    (fragTable s).getD old default
  rw [map_getD_range] at hperm
  exact hperm

def idOf (rng : Rng) (s : Gen) (p : Pending) : Nat :=
  (Shuffle.inverse (newIndex rng s)).getD (s.frags.length + s.pending.idxOf p) 0

/-- Behind the id of a row stands its fragment, wherever the shuffle has put it. -/
theorem shuffled_idOf (hp : p ∈ s.pending) : (shuffled rng s)[idOf rng s p]? = some p.frag := by
  have hidx : s.pending.idxOf p < s.pending.length := List.idxOf_lt_length_iff.mpr hp
  have hrow : (fragTable s)[s.frags.length + s.pending.idxOf p]? = some p.frag := by
    rw [fragTable, List.getElem?_append_right (Nat.le_add_right _ _), Nat.add_sub_cancel_left,
      List.getElem?_map, List.getElem?_eq_getElem hidx, List.getElem_idxOf hidx]
    rfl
  have hold : s.frags.length + s.pending.idxOf p < (newIndex rng s).length := by
    rw [length_newIndex]
    exact (List.getElem?_eq_some_iff.mp hrow).1
  obtain ⟨new, hinv, hnew⟩ := Shuffle.exists_inverse (newIndex_perm rng s) hold
  have hid : idOf rng s p = new := by
    rw [idOf, List.getD_eq_getElem?_getD, hinv]
    rfl
  rw [hid, shuffled, List.getElem?_map, hnew, Option.map_some, List.getD_eq_getElem?_getD, hrow]
  rfl

end Table

section Ids

variable {pool : Bytes} {name : String} {rows : List Pending} {first : Nat}

theorem Rows.sorted (h : Rows name first rows) :
    (rows.mergeSort fun p q => p.order ≤ q.order) = rows := by
  apply List.mergeSort_of_pairwise
  have hrange : (rows.map Pending.order).Pairwise (· ≤ ·) := by
    rw [h.numbered]
    exact List.pairwise_le_range'
  exact (List.pairwise_map.mp hrange).imp fun hle => decide_eq_true hle

theorem Rows.filter_self (h : Rows name first rows) : rows.filter (fun p => p.name = name) = rows :=
  List.filter_eq_self.mpr fun p hp => decide_eq_true (h.named p hp)

theorem filter_other {l : List Pending} (h : ∀ p ∈ l, p.name ≠ name) :
    l.filter (fun p => p.name = name) = [] := by
  rw [List.filter_eq_nil_iff]
  intro p hp
  simpa using h p hp

theorem name_mem {entries : List (String × String)} {blocks : List (List Pending)}
    (h : List.Forall₂ (Spliced pool) entries blocks) :
    ∀ p ∈ blocks.flatten, p.name ∈ entries.map Prod.fst := by
  induction h with
  | nil => exact fun p hp => (List.not_mem_nil hp).elim
  | cons hrows _ ih =>
    intro p hp
    rw [List.flatten_cons] at hp
    rcases List.mem_append.mp hp with hp | hp
    · exact List.mem_cons.mpr (.inl (hrows.inOrder.named p hp))
    · exact List.mem_cons_of_mem _ (ih p hp)

theorem filter_blocks {entries : List (String × String)} {blocks : List (List Pending)}
    (h : List.Forall₂ (Spliced pool) entries blocks) (hnodup : (entries.map Prod.fst).Nodup)
    (before : List Pending) (hbefore : ∀ p ∈ before, p.name ∉ entries.map Prod.fst) :
    List.Forall₂ (fun e rows => Spliced pool e rows ∧
      (before ++ blocks.flatten).filter (fun p => p.name = e.1) = rows) entries blocks := by
  induction h generalizing before with
  | nil => exact .nil
  | @cons e rows entries blocks hrows hblocks ih =>
    obtain ⟨hfresh, hrest⟩ := List.nodup_cons.mp hnodup
    have hother : ∀ p ∈ before, p.name ≠ e.1 := by
      intro p hp heq
      exact hbefore p hp (List.mem_cons.mpr (.inl heq))
    have hlater : ∀ p ∈ blocks.flatten, p.name ≠ e.1 := by
      intro p hp heq
      exact hfresh (heq ▸ name_mem hblocks p hp)
    refine .cons ⟨hrows, ?_⟩ ?_
    · rw [List.flatten_cons, List.filter_append, List.filter_append, filter_other hother,
        hrows.inOrder.filter_self, filter_other hlater, List.nil_append, List.append_nil]
    · rw [List.flatten_cons, ← List.append_assoc]
      refine ih hrest _ fun p hp => ?_
      rcases List.mem_append.mp hp with hp | hp
      · exact fun hmem => hbefore p hp (List.mem_cons_of_mem _ hmem)
      · rw [hrows.inOrder.named p hp]
        exact hfresh

theorem stringIds_eq {rng : Rng} {s : Gen} (h : Rows name first rows)
    (hfilter : s.pending.filter (fun p => p.name = name) = rows) :
    stringIds s (Shuffle.inverse (newIndex rng s)) name = rows.map (idOf rng s) := by
  rw [stringIds, hfilter, h.sorted]
  rfl

end Ids

section References

theorem lookup_map {f : String → List Nat} {names : List String} {name : String}
    (h : name ∈ names) : (names.map fun n => (n, f n)).lookup name = some (f name) := by
  induction names with
  | nil => cases h
  | cons n names ih =>
    rw [List.map_cons, List.lookup_cons]
    by_cases heq : name = n
    · subst heq
      simp
    · rw [beq_false_of_ne heq]
      exact ih ((List.mem_cons.mp h).resolve_left heq)

def Refers (flat : List Nat) (l : List Nat) (ref : Nat × Nat) : Prop :=
  ref.1 + ref.2 ≤ flat.length ∧ (flat.drop ref.1).take ref.2 = l

theorem layRefs_from (ids : String → List Nat) (names : List String) (refs : List (Nat × Nat))
    (flat : List Nat) :
    ∃ refs' flat', names.foldl (fun acc name =>
        (acc.1 ++ [(acc.2.length, (ids name).length)], acc.2 ++ ids name)) (refs, flat) =
          (refs ++ refs', flat ++ flat') ∧ flat' = names.flatMap ids ∧
      List.Forall₂ (fun name ref => Refers (flat ++ flat') (ids name) ref) names refs' := by
  induction names generalizing refs flat with
  | nil => exact ⟨[], [], by simp, rfl, .nil⟩
  | cons name names ih =>
    obtain ⟨refs', flat', hfold, hflat, hrefs⟩ :=
      ih (refs ++ [(flat.length, (ids name).length)]) (flat ++ ids name)
    refine ⟨(flat.length, (ids name).length) :: refs', ids name ++ flat', ?_, ?_, .cons ?_ ?_⟩
    · rw [List.foldl_cons, hfold, List.append_assoc, List.append_assoc]
      rfl
    · rw [List.flatMap_cons, hflat]
    · refine ⟨?_, ?_⟩
      · simp only [List.length_append]
        omega
      · rw [List.drop_left' rfl, List.take_left' rfl]
    · rw [← List.append_assoc]
      exact hrefs

end References

section Header

variable {rng : Rng} {strings : Strings}

theorem mapM_eq_some {α β : Type} {f : α → Option β} {l : List α} {r : List β}
    (h : List.Forall₂ (fun a b => f a = some b) l r) : l.mapM f = some r := by
  induction h with
  | nil => rfl
  | cons hab _ ih =>
    rw [List.mapM_cons, hab, ih]
    rfl

def idsOf (rng : Rng) (strings : Strings) (name : String) : List Nat :=
  ((strFragIds (generate rng strings) (Shuffle.inverse (newIndex rng (generate rng strings)))
    (strings.entries.map Prod.fst)).lookup name).getD []

theorem idsOf_eq (rng : Rng) {name : String} (h : name ∈ strings.entries.map Prod.fst) :
    idsOf rng strings name = stringIds (generate rng strings)
      (Shuffle.inverse (newIndex rng (generate rng strings))) name := by
  rw [idsOf, strFragIds, lookup_map h]
  rfl

theorem rows_of_entry (rng : Rng) (strings : Strings) : ∀ e ∈ strings.entries, ∃ rows,
    Spliced (generate rng strings).pool e rows ∧
      (generate rng strings).pending.filter (fun p => p.name = e.1) = rows := by
  obtain ⟨blocks, -, hblocks, hpending, -, -⟩ := generate_spec rng strings
  have hrows := filter_blocks hblocks strings.nodup []
    fun p hp => (List.not_mem_nil hp).elim
  rw [List.nil_append, ← hpending] at hrows
  intro e he
  clear hblocks hpending
  generalize strings.entries = entries at hrows he
  induction hrows with
  | nil => cases he
  | @cons e' rows entries blocks hrows _ ih =>
    rcases List.mem_cons.mp he with rfl | htail
    · exact ⟨rows, hrows⟩
    · exact ih htail

/-- References and index of the header. -/
theorem header_refs (rng : Rng) (strings : Strings) :
    (header rng strings).flatIdx = (strings.entries.map Prod.fst).flatMap (idsOf rng strings) ∧
      List.Forall₂ (fun e ref => Refers (header rng strings).flatIdx (idsOf rng strings e.1) ref)
        strings.entries (header rng strings).refs := by
  obtain ⟨refs, flat, hfold, hflat, hrefs⟩ := layRefs_from (idsOf rng strings)
    (strings.entries.map Prod.fst) [] []
  rw [List.nil_append, List.nil_append] at hfold
  rw [List.nil_append] at hrefs
  have hlaid : layRefs (strFragIds (generate rng strings)
      (Shuffle.inverse (newIndex rng (generate rng strings))) (strings.entries.map Prod.fst))
      (strings.entries.map Prod.fst) = (refs, flat) := hfold
  have hheader : header rng strings = ⟨(generate rng strings).pool,
      shuffled rng (generate rng strings), flat, refs⟩ := by
    rw [header, hlaid]
  rw [hheader]
  rw [List.forall₂_map_left_iff] at hrefs
  exact ⟨hflat, hrefs⟩

theorem readString_eq {e : String × String} (he : e ∈ strings.entries) {ref : Nat × Nat}
    (href : Refers (header rng strings).flatIdx (idsOf rng strings e.1) ref) :
    readString (header rng strings) ref = some (utf8 e.2) := by
  obtain ⟨rows, hspliced, hfilter⟩ := rows_of_entry rng strings e he
  obtain ⟨parts, hparts, hflat⟩ := hspliced.holds
  have hids := idsOf_eq rng (List.mem_map_of_mem (f := Prod.fst) he)
  rw [stringIds_eq hspliced.inOrder hfilter] at hids
  have hpending : ∀ p ∈ rows, p ∈ (generate rng strings).pending := by
    rw [← hfilter]
    exact fun p hp => List.mem_of_mem_filter hp
  have hreads : List.Forall₂ (fun p part => (do
      readFrag (header rng strings).pool
        (← (header rng strings).frags[idOf rng (generate rng strings) p]?)) = some part)
      rows parts := by
    refine ((List.forall₂_and_left _ _).mpr ⟨hpending, List.forall₂_map_left_iff.mp hparts⟩).imp ?_
    rintro p part ⟨hp, hread⟩
    have hfrag : (header rng strings).frags[idOf rng (generate rng strings) p]? = some p.frag :=
      shuffled_idOf hp
    rw [hfrag]
    exact hread
  rw [readString, if_pos href.1, href.2, hids,
    mapM_eq_some (List.forall₂_map_left_iff.mpr hreads), ← hflat]
  rfl

theorem not_decoy {id : Nat} (hid : id ∈ (header rng strings).flatIdx) {f : Frag}
    (hf : (header rng strings).frags[id]? = some f) : f ∉ (generate rng strings).frags := by
  rw [(header_refs rng strings).1, List.mem_flatMap] at hid
  obtain ⟨name, hname, hid⟩ := hid
  obtain ⟨e, he, rfl⟩ := List.mem_map.mp hname
  obtain ⟨rows, hspliced, hfilter⟩ := rows_of_entry rng strings e he
  rw [idsOf_eq rng hname, stringIds_eq hspliced.inOrder hfilter, List.mem_map] at hid
  obtain ⟨p, hp, rfl⟩ := hid
  have hpending : p ∈ (generate rng strings).pending := by
    rw [← hfilter] at hp
    exact List.mem_of_mem_filter hp
  have hfrag : (header rng strings).frags[idOf rng (generate rng strings) p]? = some p.frag :=
    shuffled_idOf hpending
  rw [hfrag, Option.some.injEq] at hf
  subst hf
  obtain ⟨-, middle, -, -, hreal, hdecoys⟩ := generate_spec rng strings
  exact hreal.disjoint hdecoys (List.mem_map_of_mem hpending)

theorem fill_pool (rng : Rng) (strings : Strings) :
    Fill 0 ((generate rng strings).pending.map Pending.frag ++ (generate rng strings).frags)
      (generate rng strings).pool.length := by
  obtain ⟨-, middle, -, -, hreal, hdecoys⟩ := generate_spec rng strings
  exact hreal.append hdecoys

theorem frags_perm (rng : Rng) (strings : Strings) : (header rng strings).frags.Perm
    ((generate rng strings).pending.map Pending.frag ++ (generate rng strings).frags) :=
  (shuffled_perm rng (generate rng strings)).trans List.perm_append_comm

end Header

/-- Every string is read back from its reference; the fragments are those of the strings and the
decoys, in ranges of the pool that never meet; and the index never names a decoy. -/
theorem splicing_lossless (rng : Rng) (strings : Strings) :
    List.Forall₂ (fun e ref => readString (header rng strings) ref = some (utf8 e.2))
        strings.entries (header rng strings).refs ∧
      (header rng strings).frags.Perm
        ((generate rng strings).pending.map Pending.frag ++ (generate rng strings).frags) ∧
      (header rng strings).frags.Pairwise (Apart Frag.off Frag.len) ∧
      (∀ f ∈ (header rng strings).frags, f.off + f.len ≤ (header rng strings).pool.length) ∧
      ∀ id ∈ (header rng strings).flatIdx, ∀ f, (header rng strings).frags[id]? = some f →
        f ∉ (generate rng strings).frags := by
  have hperm := frags_perm rng strings
  have hfill := fill_pool rng strings
  refine ⟨?_, hperm, Tiling.pairwise_of_perm hperm.symm hfill.pairwise, ?_, ?_⟩
  · refine ((List.forall₂_and_left _ _).mpr ⟨fun e he => he, (header_refs rng strings).2⟩).imp ?_
    rintro e ref ⟨he, href⟩
    exact readString_eq he href
  · intro f hf
    exact (hfill.mem f (hperm.mem_iff.mp hf)).2.2
  · intro id hid f hf
    exact not_decoy hid hf

end RankGate.Tools.SplicedStrings
