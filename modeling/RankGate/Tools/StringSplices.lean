/- Module: RankGate/Tools/StringSplices
   source: tools/generate_string_splices.py
   digest: The splicer: fragments drawn, encoded and pooled, decoys, the shuffled table, index and references. -/

import RankGate.Foundation.Shuffle
import RankGate.Foundation.Text

set_option autoImplicit false
set_option relaxedAutoImplicit false

namespace RankGate.Tools.StringSplices

open ByteCodec (Bytes)
open Text (utf8)

/-- A dict of texts: its names are distinct. -/
structure Strings where
  entries : List (String × String)
  nodup : (entries.map Prod.fst).Nodup

/-- `random.Random`: the results of its draws, numbered, and of its shuffle. -/
structure Rng where
  randint : Nat → Nat → Nat → Nat
  shuffle : List Nat → List Nat
  randint_mem : ∀ k lo hi, lo ≤ hi → lo ≤ randint k lo hi ∧ randint k lo hi ≤ hi
  shuffle_perm : ∀ l, (shuffle l).Perm l

instance : Inhabited Rng :=
  ⟨⟨fun _ lo _ => lo, id, fun _ _ _ h => ⟨Nat.le_refl _, h⟩, List.Perm.refl⟩⟩

def strings : Strings where
  entries :=
    [("Banner", "== RankGate Insane 6 :: Standalone Edition =="),
     ("Prompt", "Enter access password: "),
     ("Granted", "ACCESS GRANTED"),
     ("Denied", "ACCESS DENIED"),
     ("FlagPrefix", "Recovered flag: "),
     ("ErrInput", "input rejected: empty password"),
     ("Hint", "hint: the password is not stored here -- derive the key"),
     ("DevMode", "[dev] protection layers disabled (--no-protection)"),
     ("FakePassword", "letmein-rankgate-admin-2026"),
     ("FakeFlag", "FLAG\x7bn0t_the_real_flag_keep_reversing_the_kdf\x7d")]
  nodup := by decide

structure Frag where
  off : Nat
  len : Nat
  xr : Nat
  ad : Nat
  ro : Nat
  deriving DecidableEq, Inhabited

/-- A row of `pending`: name, order index, and the fragment. -/
structure Pending where
  name : String
  order : Nat
  frag : Frag
  deriving DecidableEq

structure Gen where
  draws : Nat
  pool : Bytes
  frags : List Frag
  pending : List Pending

def rol8 (v r : Nat) : Nat :=
  let r := r &&& 7
  if r ≠ 0 then ((v <<< r) ||| (v >>> (8 - r))) &&& 0xFF else v &&& 0xFF

/-- `rol8(((c + ad) & 0xFF) ^ xr, ro)` -/
def encodeByte (xr ad ro : Nat) (c : UInt8) : UInt8 :=
  UInt8.ofNat (rol8 (((c.toNat + ad) &&& 0xFF) ^^^ xr) ro)

def appendChunk (rng : Rng) (n : Nat) (chunk : Bytes) (s : Gen) : Frag × Gen :=
  let xr := rng.randint s.draws 0 255
  let ad := rng.randint (s.draws + 1) 0 255
  let ro := rng.randint (s.draws + 2) 0 7
  (⟨s.pool.length, n, xr, ad, ro⟩,
    { s with draws := s.draws + 3, pool := s.pool ++ chunk.map (encodeByte xr ad ro) })

/-- `while i < len(data)`; a pass takes at least one byte. -/
def splitLoop (rng : Rng) (name : String) (data : Bytes) : Nat → Nat → Nat → Gen → Gen
  | 0, _, _, s => s
  | fuel + 1, i, order, s =>
    if i < data.length then
      let n := min (data.length - i) (rng.randint s.draws 2 5)
      let (frag, s) := appendChunk rng n ((data.drop i).take n) { s with draws := s.draws + 1 }
      splitLoop rng name data fuel (i + n) (order + 1)
        { s with pending := s.pending ++ [⟨name, order, frag⟩] }
    else s

def splitString (rng : Rng) (s : Gen) (entry : String × String) : Gen :=
  splitLoop rng entry.1 (utf8 entry.2) (utf8 entry.2).length 0 0 s

def emitFragment (rng : Rng) (chunk : Bytes) (s : Gen) : Gen :=
  let (frag, s) := appendChunk rng chunk.length chunk s
  { s with frags := s.frags ++ [frag] }

def junk (rng : Rng) (s : Gen) : Bytes × Gen :=
  let n := rng.randint s.draws 2 5
  ((List.range n).map fun k => UInt8.ofNat (rng.randint (s.draws + 1 + k) 32 126),
    { s with draws := s.draws + 1 + n })

def emitDecoys (rng : Rng) : Nat → Gen → Gen
  | 0, s => s
  | count + 1, s =>
    let (chunk, s) := junk rng s
    emitDecoys rng count (emitFragment rng chunk s)

/-- `main` up to the shuffle. -/
def generate (rng : Rng) (strings : Strings) : Gen :=
  let s := strings.entries.foldl (splitString rng) ⟨0, [], [], []⟩
  emitDecoys rng (max 8 (s.pending.length / 3)) s

def fragTable (s : Gen) : List Frag := s.frags ++ s.pending.map Pending.frag

def newIndex (rng : Rng) (s : Gen) : List Nat := rng.shuffle (List.range (fragTable s).length)

/-- `[frags[old] for old in new_index]`; every index is one of the table's. -/
def shuffled (rng : Rng) (s : Gen) : List Frag :=
  (newIndex rng s).map fun old => (fragTable s).getD old default

/-- The ids of one string: its rows in order, each found again by value in `pending`. -/
def stringIds (s : Gen) (inv : List Nat) (name : String) : List Nat :=
  let items := (s.pending.filter fun p => p.name = name).mergeSort fun p q => p.order ≤ q.order
  items.map fun p => inv.getD (s.frags.length + s.pending.idxOf p) 0

def strFragIds (s : Gen) (inv : List Nat) (names : List String) : List (String × List Nat) :=
  names.map fun name => (name, stringIds s inv name)

/-- What `write_header` makes of the ids: a reference for each name, and the flat index. -/
def layRefs (ids : List (String × List Nat)) (names : List String) :
    List (Nat × Nat) × List Nat :=
  names.foldl (fun acc name =>
    let nameIds := (ids.lookup name).getD []
    (acc.1 ++ [(acc.2.length, nameIds.length)], acc.2 ++ nameIds)) ([], [])

structure Header where
  pool : Bytes
  frags : List Frag
  flatIdx : List Nat
  refs : List (Nat × Nat)

def header (rng : Rng) (strings : Strings) : Header :=
  let s := generate rng strings
  let names := strings.entries.map Prod.fst
  let inv := Shuffle.inverse (newIndex rng s)
  let (refs, flatIdx) := layRefs (strFragIds s inv names) names
  ⟨s.pool, shuffled rng s, flatIdx, refs⟩

/-! How the tables are read: rotate right, xor, subtract. -/

def ror8 (v r : Nat) : Nat :=
  let r := r &&& 7
  if r ≠ 0 then ((v >>> r) ||| (v <<< (8 - r))) &&& 0xFF else v &&& 0xFF

def decodeByte (f : Frag) (b : UInt8) : UInt8 :=
  UInt8.ofNat (ror8 b.toNat f.ro ^^^ f.xr) - UInt8.ofNat f.ad

def readFrag (pool : Bytes) (f : Frag) : Option Bytes :=
  if f.off + f.len ≤ pool.length then some (((pool.drop f.off).take f.len).map (decodeByte f))
  else none

def readString (h : Header) (ref : Nat × Nat) : Option Bytes :=
  if ref.1 + ref.2 ≤ h.flatIdx.length then do
    let parts ← ((h.flatIdx.drop ref.1).take ref.2).mapM fun id => do
      readFrag h.pool (← h.frags[id]?)
    return parts.flatten
  else none

end RankGate.Tools.StringSplices
