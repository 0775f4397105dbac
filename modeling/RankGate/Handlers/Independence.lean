/- Module: RankGate/Handlers/Independence
   source: server/app/challenge_logic.py, server/app/sessions.py
   digest: Sessions the store has room for do not feel each other: only the LRU order sees who came when. -/

import RankGate.Foundation.Interleaving
import RankGate.Handlers.Requests
import Mathlib.Data.Finmap

set_option autoImplicit false
set_option relaxedAutoImplicit false

namespace RankGate.Handlers.Independence

open ByteCodec (Bytes zeros)
open Interleaving (Interleaves Separate after outcomes proj)
open OrderedDict (Dict)
open RankGate.Crypto (Primitives)
open RankGate.Handlers.Requests
open RankGate.Server.Config (Env Failure)
open RankGate.Server.Sessions (Session SessionStore)

def alone (id : Bytes) : Option Session → SessionStore
  | none => ∅
  | some s => AList.singleton id s

@[simp] theorem lookup_alone (id : Bytes) (s : Option Session) : (alone id s).lookup id = s := by
  cases s with
  | none => rfl
  | some s => simp [alone, AList.singleton, AList.lookup, List.dlookup_cons_eq]

/-- A session as a system of its own: the server with nothing else in its store. -/
def stepAlone (P : Primitives) (env : Env) (id : Bytes) (s : Option Session) (r : Request) :
    Except Failure Bytes × Option Session :=
  ((step P env (alone id s) r).1, (step P env (alone id s) r).2.lookup id)

def Within (family : Finset Bytes) (store : SessionStore) : Prop := ∀ id ∈ store, id ∈ family

/-- A request of a member of the family: its frame, if it has one, names that member. -/
def Names (family : Finset Bytes) (id : Bytes) (r : Request) : Prop :=
  id ∈ family ∧ ∀ named ∈ r.sessionId?, named = id

instance (family : Finset Bytes) (id : Bytes) (r : Request) : Decidable (Names family id r) :=
  inferInstanceAs (Decidable (_ ∧ _))

section Step

variable (P : Primitives) (env : Env) {family : Finset Bytes} {store : SessionStore}
  {r : Request} {f : Server.Protocol.Frame}

theorem Within.insert (h : Within family store) {id : Bytes} (hid : id ∈ family) (s : Session) :
    Within family (store.insert id s) := by
  intro i hi
  rcases (AList.mem_insert store).mp hi with rfl | hi
  · exact hid
  · exact h i hi

theorem Within.replace (h : Within family store) (id : Bytes) (s : Session) :
    Within family (store.replace id s) := fun i hi => h i ((AList.mem_replace).mp hi)

omit P env in
theorem named_eq {id : Bytes} (hf : r.frame? = some f)
    (hid : ∀ named ∈ r.sessionId?, named = id) : f.sessionId = id := by
  refine hid _ ?_
  rw [Request.sessionId?, hf]
  rfl

theorem Within.shrink (h : Within family store) (hfamily : family.card ≤ SessionStore.maxSessions) :
    Dict.shrink SessionStore.maxSessions store = store := by
  refine Dict.shrink_of_le (d := store) ?_
  rw [← Dict.length_keys, ← List.toFinset_card_of_nodup store.keys_nodup]
  refine le_trans (Finset.card_le_card fun i hi => ?_) hfamily
  exact h i (AList.mem_keys.mpr (List.mem_toFinset.mp hi))

/-- What is answered, and what becomes of the session, depends on that session alone. -/
theorem step_eq_stepAlone (store : SessionStore) {id : Bytes}
    (hid : ∀ named ∈ r.sessionId?, named = id) : stepAlone P env id (store.lookup id) r =
      ((step P env store r).1, (step P env store r).2.lookup id) := by
  have hsame : (alone id (store.lookup id)).lookup id = store.lookup id := lookup_alone id _
  unfold stepAlone
  cases hf : r.frame? with
  | none =>
    obtain ⟨e, he⟩ := step_malformed P env hf
    rw [he, he, hsame]
  | some f =>
    have hnamed : f.sessionId = id := named_eq hf hid
    subst hnamed
    cases hr : r.isHello with
    | true =>
      rw [lookup_hello_self P env _ hf hr, lookup_hello_self P env _ hf hr,
        step_hello P env _ hf hr, step_hello P env _ hf hr]
    | false =>
      cases hs : store.lookup f.sessionId with
      | none =>
        rw [hs] at hsame
        rw [step_unknown P env hf hr hs, step_unknown P env hf hr hsame, hs, hsame]
      | some s =>
        rw [hs] at hsame
        rw [lookup_known_self P env hf hr hs, lookup_known_self P env hf hr hsame,
          step_known P env hf hr hs, step_known P env hf hr hsame]

theorem step_within (hfamily : family.card ≤ SessionStore.maxSessions)
    (h : Within family store) {id : Bytes} (hr : Names family id r) :
    Within family (step P env store r).2 := by
  obtain ⟨hid, hnames⟩ := hr
  cases hf : r.frame? with
  | none =>
    obtain ⟨e, he⟩ := step_malformed P env hf
    rw [he]
    exact h
  | some f =>
    have hnamed : f.sessionId = id := named_eq hf hnames
    subst hnamed
    cases hr : r.isHello with
    | true =>
      have hins := h.insert hid { sessionId := f.sessionId }
      rw [step_hello P env _ hf hr, hins.shrink hfamily]
      exact hins.replace _ _
    | false =>
      cases hs : store.lookup f.sessionId with
      | none =>
        rw [step_unknown P env hf hr hs]
        exact h
      | some s =>
        rw [step_known P env hf hr hs]
        exact (h.insert hid s).replace _ _

theorem step_frame (hfamily : family.card ≤ SessionStore.maxSessions) (h : Within family store)
    {id other : Bytes} (hr : Names family id r) (hne : other ≠ id) :
    (step P env store r).2.lookup other = store.lookup other := by
  obtain ⟨hid, hnames⟩ := hr
  cases hf : r.frame? with
  | none =>
    obtain ⟨e, he⟩ := step_malformed P env hf
    rw [he]
  | some f =>
    have hnamed : f.sessionId = id := named_eq hf hnames
    subst hnamed
    cases hr : r.isHello with
    | true =>
      rw [step_hello P env _ hf hr, (h.insert hid _).shrink hfamily, Dict.lookup_replace_ne _ hne,
        AList.lookup_insert_ne hne]
    | false => exact lookup_known_ne P env hf hr hne

theorem separate (hfamily : family.card ≤ SessionStore.maxSessions) :
    Separate (step P env) (fun id store => store.lookup id) (stepAlone P env) (Within family)
      (Names family) where
  preserve h hr := step_within P env hfamily h hr
  answer {store} {_ _} _ hr := step_eq_stepAlone P env store hr.2
  frame h hr hne := step_frame P env hfamily h hr hne

end Step

/-- For at most 1024 session ids, any two orders that agree on every session's own requests
answer each of them alike and leave every session with the same fields. -/
theorem session_independence (P : Primitives) (env : Env) (family : Finset Bytes)
    (hfamily : family.card ≤ SessionStore.maxSessions) (store : SessionStore)
    (hstore : Within family store) (seqs : Bytes → List Request)
    (hseqs : ∀ id, ∀ r ∈ seqs id, Names family id r) {rs ts : List (Bytes × Request)}
    (hrs : Interleaves seqs rs) (hts : Interleaves seqs ts) (id : Bytes) :
    proj id (outcomes (step P env) store rs) = proj id (outcomes (step P env) store ts) ∧
      (after (step P env) store rs).lookup id = (after (step P env) store ts).lookup id :=
  Interleaving.independent (separate P env hfamily) hstore hseqs hrs hts id

def sampleOrder (early : Bool) : List (Bytes × Request) :=
  let other : Bytes := List.replicate 16 1
  let hello : Request := .hello ⟨sampleDraw 32, sampleDraw 16, sampleDraw 24⟩
    (Server.Protocol.Frame.bytes ⟨1, other, 1, zeros 24, zeros 48 ++ [0, 1, 0x62], zeros 16, zeros 32⟩)
  if early then [(other, hello), (zeros 16, sampleHello 1), (zeros 16, sampleFinalize 2)]
  else [(zeros 16, sampleHello 1), (other, hello), (zeros 16, sampleFinalize 2)]

theorem session_independence_sample :
    proj (zeros 16) (outcomes (step Primitives.transparent sampleEnv) ∅ (sampleOrder true)) =
        proj (zeros 16) (outcomes (step Primitives.transparent sampleEnv) ∅ (sampleOrder false)) ∧
      (after (step Primitives.transparent sampleEnv) ∅ (sampleOrder true)).lookup (zeros 16) =
        (after (step Primitives.transparent sampleEnv) ∅ (sampleOrder false)).lookup (zeros 16) := by
  refine session_independence Primitives.transparent sampleEnv {zeros 16, List.replicate 16 1}
    (by decide) ∅ (fun id h => absurd h (AList.notMem_empty id)) (fun id => proj id (sampleOrder true))
    ?_ (fun id => rfl) ?_ (zeros 16)
  · intro id r hr
    have hall : ∀ p ∈ sampleOrder true,
        Names {zeros 16, List.replicate 16 1} p.1 p.2 := by decide +kernel
    exact hall (id, r) (Interleaving.mem_proj.mp hr)
  · intro id
    by_cases h : zeros 16 = id
    · subst h
      rfl
    · simp only [sampleOrder, if_true, Bool.false_eq_true, if_false]
      rw [Interleaving.proj_cons_ne h]
      by_cases hother : List.replicate 16 1 = id
      · subst hother
        rfl
      · simp only [Interleaving.proj, if_neg h, if_neg hother]

end RankGate.Handlers.Independence
