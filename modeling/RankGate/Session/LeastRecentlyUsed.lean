/- Module: RankGate/Session/LeastRecentlyUsed
   source: server/app/sessions.py (SessionStore)
   digest: Over any calls the store holds the 1024 ids created or fetched last, each with its object. -/

import RankGate.Foundation.Runs
import RankGate.Server.SessionObjects

set_option autoImplicit false
set_option relaxedAutoImplicit false

namespace RankGate.Session.LeastRecentlyUsed

open ByteCodec (Bytes)
open Effects (exec)
open OrderedDict (Dict)
open Recency (UsedAfter recency touch)
open RankGate.Server.Config (Failure)
open RankGate.Server.SessionObjects (Heap Ref created)
open RankGate.Server.Sessions (Session SessionStore)
open Runs (Event final trace)

inductive Call
  | create (sessionId : Bytes)
  | get (sessionId : Bytes)

namespace Call

def sessionId : Call → Bytes
  | create sessionId => sessionId
  | get sessionId => sessionId

end Call

def step (h : Heap) : Call → Except Failure Ref × Heap
  | .create sessionId => exec (Server.SessionObjects.create sessionId) h
  | .get sessionId => exec (Server.SessionObjects.get sessionId) h

abbrev Done := Event Heap Call (Except Failure Ref)

/-- The id a call created or fetched; a call that raises does neither. -/
def used (e : Done) : Option Bytes :=
  match e.outcome with
  | .ok _ => some e.request.sessionId
  | .error _ => none

def uses (tr : List Done) : List Bytes := tr.filterMap used

/-- The latest `create` for the id returned this object. -/
def Latest (tr : List Done) (sessionId : Bytes) (r : Ref) : Prop :=
  ∃ pre e post, tr = pre ++ e :: post ∧ e.request = .create sessionId ∧ e.outcome = .ok r ∧
    ∀ a ∈ post, a.request ≠ .create sessionId

/-- What holds after every call. -/
structure Inv (tr : List Done) (h : Heap) : Prop where
  keys : h.store.keys = (recency (uses tr)).take SessionStore.maxSessions
  owned : h.Owned
  latest : ∀ sessionId r, h.store.lookup sessionId = some r → Latest tr sessionId r
  returned : ∀ e ∈ tr, ∀ r, e.outcome = .ok r → r < h.objects.length

section Step

variable {tr : List Done} {h : Heap} {e : Done} {sessionId : Bytes} {r : Ref}

theorem uses_concat (hu : used e = some sessionId) : uses (tr ++ [e]) = uses tr ++ [sessionId] := by
  rw [uses, List.filterMap_append, List.filterMap_cons_some hu, List.filterMap_nil, uses]

theorem uses_concat_none (hu : used e = none) : uses (tr ++ [e]) = uses tr := by
  rw [uses, List.filterMap_append, List.filterMap_cons_none hu, List.filterMap_nil, uses,
    List.append_nil]

theorem Latest.concat (hl : Latest tr sessionId r) (hne : e.request ≠ .create sessionId) :
    Latest (tr ++ [e]) sessionId r := by
  obtain ⟨pre, a, post, rfl, hreq, hout, hpost⟩ := hl
  refine ⟨pre, a, post ++ [e], by simp, hreq, hout, ?_⟩
  intro b hb
  rcases List.mem_append.mp hb with hb | hb
  · exact hpost b hb
  · rwa [List.mem_singleton.mp hb]

theorem step_create : step h (.create sessionId) = (.ok h.objects.length, created h sessionId) :=
  Server.SessionObjects.exec_create

theorem step_get_none (hr : h.store.lookup sessionId = none) :
    step h (.get sessionId) = (.error (.protocolError "session" "unknown session"), h) :=
  Server.SessionObjects.exec_get_none hr

theorem step_get_some (hr : h.store.lookup sessionId = some r) :
    step h (.get sessionId) = (.ok r, { h with store := h.store.insert sessionId r }) :=
  Server.SessionObjects.exec_get_some hr

theorem keys_created : (created h sessionId).store.keys =
    (touch h.store.keys sessionId).take SessionStore.maxSessions := by
  rw [created, Dict.keys_shrink, AList.keys_insert, touch]

theorem keys_fetched (hi : Inv tr h) (hr : h.store.lookup sessionId = some r) :
    (h.store.insert sessionId r).keys =
      (touch h.store.keys sessionId).take SessionStore.maxSessions := by
  have hmem : sessionId ∈ h.store.keys := by
    rw [AList.mem_keys.symm, ← AList.lookup_isSome, hr]
    rfl
  have hlen : (touch h.store.keys sessionId).length ≤ SessionStore.maxSessions := by
    rw [Recency.length_touch_of_mem hmem, hi.keys, List.length_take]
    exact Nat.min_le_left _ _
  rw [List.take_of_length_le hlen, AList.keys_insert, touch]

/-- The order of the dict follows the order of uses. -/
theorem Inv.touch_keys (hi : Inv tr h) (hu : used e = some sessionId) :
    (touch h.store.keys sessionId).take SessionStore.maxSessions =
      (recency (uses (tr ++ [e]))).take SessionStore.maxSessions := by
  rw [uses_concat hu, Recency.recency_concat, hi.keys, ← Recency.take_touch]

theorem Inv.create (hi : Inv tr h) (sessionId : Bytes) :
    Inv (tr ++ [Runs.event step h (.create sessionId)]) (created h sessionId) where
  keys := by
    rw [keys_created]
    exact hi.touch_keys (by rw [used, Runs.event, step_create]; rfl)
  owned := Server.SessionObjects.owned_created hi.owned
  latest := by
    intro k r hr
    have hins := Dict.lookup_shrink _ hr
    by_cases hk : k = sessionId
    · subst hk
      rw [AList.lookup_insert, Option.some.injEq] at hins
      subst hins
      refine ⟨tr, _, [], rfl, rfl, ?_, fun a ha => nomatch ha⟩
      rw [Runs.event, step_create]
    · rw [AList.lookup_insert_ne hk] at hins
      refine (hi.latest k r hins).concat ?_
      intro heq
      exact hk (Call.create.inj heq).symm
  returned := by
    intro a ha r hr
    rw [created, List.length_append, List.length_singleton]
    rcases List.mem_append.mp ha with ha | ha
    · exact Nat.lt_succ_of_lt (hi.returned a ha r hr)
    · rw [List.mem_singleton.mp ha, Runs.event, step_create] at hr
      cases hr
      exact Nat.lt_succ_self _

theorem Inv.get (hi : Inv tr h) (sessionId : Bytes) :
    Inv (tr ++ [Runs.event step h (.get sessionId)]) (step h (.get sessionId)).2 := by
  have hother (k : Bytes) : (Runs.event step h (.get sessionId)).request ≠ .create k := by
    intro heq
    cases heq
  cases hr : h.store.lookup sessionId with
  | none =>
    have hu : used (Runs.event step h (.get sessionId)) = none := by
      rw [used, Runs.event, step_get_none hr]
    have hreturned : ∀ a ∈ tr ++ [Runs.event step h (.get sessionId)], ∀ r, a.outcome = .ok r →
        r < h.objects.length := by
      intro a ha r hout
      rcases List.mem_append.mp ha with ha | ha
      · exact hi.returned a ha r hout
      · rw [List.mem_singleton.mp ha, Runs.event, step_get_none hr] at hout
        cases hout
    rw [step_get_none hr]
    refine ⟨?_, hi.owned, fun k r hk => (hi.latest k r hk).concat (hother k), hreturned⟩
    rw [uses_concat_none hu, hi.keys]
  | some r =>
    have hu : used (Runs.event step h (.get sessionId)) = some sessionId := by
      rw [used, Runs.event, step_get_some hr]
      rfl
    have hsame := Server.SessionObjects.lookup_insert_same hr
    have hreturned : ∀ a ∈ tr ++ [Runs.event step h (.get sessionId)], ∀ q, a.outcome = .ok q →
        q < h.objects.length := by
      intro a ha q hout
      rcases List.mem_append.mp ha with ha | ha
      · exact hi.returned a ha q hout
      · rw [List.mem_singleton.mp ha, Runs.event, step_get_some hr] at hout
        cases hout
        obtain ⟨s, hs, -⟩ := hi.owned sessionId r hr
        exact (List.getElem?_eq_some_iff.mp hs).1
    rw [step_get_some hr]
    refine ⟨(keys_fetched hi hr).trans (hi.touch_keys hu), ?_, ?_, hreturned⟩
    · intro k q hq
      rw [hsame k] at hq
      exact hi.owned k q hq
    · intro k q hq
      rw [hsame k] at hq
      exact (hi.latest k q hq).concat (hother k)

end Step

section Create

variable {tr : List Done} {h : Heap} {sessionId k : Bytes}

theorem lookup_created (hk : k ≠ sessionId)
    (hkeep : k ∈ h.store → k ∈ (created h sessionId).store.keys) :
    (created h sessionId).store.lookup k = h.store.lookup k := by
  by_cases hmem : k ∈ h.store
  · have htake := hkeep hmem
    rw [created, Dict.keys_shrink] at htake
    rw [created, Dict.lookup_shrink_of_mem _ htake, AList.lookup_insert_ne hk]
  · have hnone := AList.lookup_eq_none.mpr hmem
    rw [hnone, AList.lookup_eq_none, AList.mem_keys, keys_created]
    intro htake
    exact (Recency.mem_touch.mp (List.mem_of_mem_take htake)).elim hk hmem

/-- With room for the id, or the id already there, `create` drops nothing. -/
theorem create_keeps (hroom : sessionId ∈ h.store ∨
    h.store.entries.length < SessionStore.maxSessions)
    (hsize : h.store.entries.length ≤ SessionStore.maxSessions) (hk : k ≠ sessionId) :
    (created h sessionId).store.lookup k = h.store.lookup k := by
  rw [← Dict.length_keys] at hroom hsize
  have hlen : (touch h.store.keys sessionId).length ≤ SessionStore.maxSessions := by
    by_cases hmem : sessionId ∈ h.store
    · rwa [Recency.length_touch_of_mem (AList.mem_keys.mp hmem)]
    · rw [Recency.touch_of_not_mem (mt AList.mem_keys.mpr hmem), List.length_cons]
      exact hroom.resolve_left hmem
  refine lookup_created hk ?_
  intro hmem
  rw [keys_created, List.take_of_length_le hlen, Recency.mem_touch]
  exact .inr (AList.mem_keys.mp hmem)

/-- A new id in a full store takes the place of the one used least recently, and of no other. -/
theorem create_evicts (hi : Inv tr h) (hnew : sessionId ∉ h.store)
    (hfull : h.store.entries.length = SessionStore.maxSessions) :
    ∃ old, old ∈ h.store ∧ (∀ k ∈ h.store, k ≠ old → UsedAfter (uses tr) k old) ∧
      old ∉ (created h sessionId).store ∧
      ∀ k, k ≠ sessionId → k ≠ old →
        (created h sessionId).store.lookup k = h.store.lookup k := by
  rw [← Dict.length_keys] at hfull
  have horder : h.store.keys.Pairwise (UsedAfter (uses tr)) := by
    rw [hi.keys]
    exact (Recency.recency_pairwise (uses tr)).sublist (List.take_sublist _ _)
  have hnodup := h.store.keys_nodup
  have hafter : (created h sessionId).store.keys =
      (sessionId :: h.store.keys).take SessionStore.maxSessions := by
    rw [keys_created, Recency.touch_of_not_mem (mt AList.mem_keys.mpr hnew)]
  rcases List.eq_nil_or_concat' h.store.keys with hnil | ⟨front, old, hsplit⟩
  · rw [hnil] at hfull
    cases hfull
  · have hfront : front.length + 1 = SessionStore.maxSessions := by
      rw [← hfull, hsplit, List.length_append, List.length_singleton]
    have hold : old ∈ h.store := by
      rw [AList.mem_keys, hsplit]
      exact List.mem_append_right _ (List.mem_singleton.mpr rfl)
    have hkeys : (created h sessionId).store.keys = sessionId :: front := by
      rw [hafter, hsplit, ← hfront, List.take_succ_cons, List.take_left' rfl]
    rw [hsplit] at horder hnodup
    obtain ⟨-, -, hlast⟩ := List.pairwise_append.mp horder
    refine ⟨old, hold, ?_, ?_, ?_⟩
    · intro k hk hne
      rw [AList.mem_keys, hsplit, List.mem_append, List.mem_singleton] at hk
      exact hlast k (hk.resolve_right hne) old (List.mem_singleton.mpr rfl)
    · rw [AList.mem_keys, hkeys, List.mem_cons, not_or]
      constructor
      · rintro rfl
        exact hnew hold
      · intro hmem
        exact (List.disjoint_of_nodup_append hnodup) hmem (List.mem_singleton.mpr rfl)
    · intro k hk hne
      refine lookup_created hk ?_
      intro hmem
      rw [AList.mem_keys, hsplit, List.mem_append, List.mem_singleton] at hmem
      rw [hkeys]
      exact List.mem_cons_of_mem _ (hmem.resolve_right hne)

end Create

structure Lru (tr : List Done) (h : Heap) : Prop where
  bounded : h.store.entries.length ≤ 1024
  ownId : ∀ sessionId r, h.store.lookup sessionId = some r →
    ∃ s, h.objects[r]? = some s ∧ s.sessionId = sessionId
  /-- `create` returns an object that no call has returned before. -/
  createNew : ∀ sessionId, ∃ r, (step h (.create sessionId)).1 = .ok r ∧
    (step h (.create sessionId)).2.store.lookup sessionId = some r ∧
    ∀ e ∈ tr, e.outcome ≠ .ok r
  createKeeps : ∀ sessionId, sessionId ∈ h.store ∨ h.store.entries.length < 1024 →
    ∀ k, k ≠ sessionId → (step h (.create sessionId)).2.store.lookup k = h.store.lookup k
  createEvicts : ∀ sessionId, sessionId ∉ h.store → h.store.entries.length = 1024 →
    ∃ old, old ∈ h.store ∧ (∀ k ∈ h.store, k ≠ old → UsedAfter (uses tr) k old) ∧
      old ∉ (step h (.create sessionId)).2.store ∧
      ∀ k, k ≠ sessionId → k ≠ old →
        (step h (.create sessionId)).2.store.lookup k = h.store.lookup k
  getKnown : ∀ sessionId, sessionId ∈ h.store →
    ∃ r, (step h (.get sessionId)).1 = .ok r ∧ Latest tr sessionId r ∧
      ∀ k, (step h (.get sessionId)).2.store.lookup k = h.store.lookup k
  getUnknown : ∀ sessionId, sessionId ∉ h.store → step h (.get sessionId) =
    (.error (.protocolError "session" "unknown session"), h)
  /-- A use is remembered until 1024 other ids have been used. -/
  survives : ∀ pre post sessionId, uses tr = pre ++ sessionId :: post →
    (post.toFinset.erase sessionId).card < 1024 → sessionId ∈ h.store

section Run

theorem inv_run (calls : List Call) : Inv (trace step .init calls) (final step .init calls) := by
  induction calls using List.reverseRecOn with
  | nil =>
    refine ⟨rfl, ?_, ?_, ?_⟩
    · intro k r hr
      cases hr
    · intro k r hr
      cases hr
    · intro e he
      cases he
  | append_singleton calls call ih =>
    rw [Runs.trace_concat, Runs.final_concat]
    cases call with
    | create sessionId =>
      rw [step_create]
      exact ih.create sessionId
    | get sessionId => exact ih.get sessionId

/-- The same calls on the store of field values, which the handlers are modelled on. -/
def valueStep (store : SessionStore) : Call → Except Failure Session × SessionStore
  | .create sessionId => exec (SessionStore.create sessionId) store
  | .get sessionId => exec (SessionStore.get sessionId) store

/-- That store is at all times what the dict of objects shows. -/
theorem values_final (calls : List Call) :
    final valueStep ∅ calls = (final step .init calls).view := by
  induction calls using List.reverseRecOn with
  | nil => rfl
  | append_singleton calls call ih =>
    have howned := (inv_run calls).owned
    rw [Runs.final_concat, Runs.final_concat, ih]
    cases call with
    | create sessionId =>
      rw [valueStep, Server.SessionObjects.create_refines howned, step_create]
    | get sessionId => rw [valueStep, Server.SessionObjects.get_refines, step]

end Run

/-- After every sequence of calls on a fresh store. -/
theorem sessionStore_lru (calls : List Call) :
    Lru (trace step .init calls) (final step .init calls) := by
  have hi := inv_run calls
  generalize trace step .init calls = tr at hi
  generalize final step .init calls = h at hi
  have hbounded : h.store.entries.length ≤ SessionStore.maxSessions := by
    rw [← Dict.length_keys, hi.keys, List.length_take]
    exact Nat.min_le_left _ _
  refine ⟨hbounded, hi.owned, ?_, ?_, ?_, ?_, ?_, ?_⟩
  · intro sessionId
    rw [step_create]
    refine ⟨_, rfl, ?_, ?_⟩
    · have htake : sessionId ∈
          (h.store.insert sessionId h.objects.length).keys.take SessionStore.maxSessions := by
        rw [AList.keys_insert]
        exact List.mem_cons_self
      exact (Dict.lookup_shrink_of_mem _ htake).trans (AList.lookup_insert _)
    · intro e he hout
      exact absurd (hi.returned e he _ hout) (Nat.lt_irrefl _)
  · intro sessionId hroom k hk
    rw [step_create]
    exact create_keeps hroom hbounded hk
  · intro sessionId hnew hfull
    rw [step_create]
    exact create_evicts hi hnew hfull
  · intro sessionId hmem
    obtain ⟨r, hr⟩ := Option.isSome_iff_exists.mp (AList.lookup_isSome.mpr hmem)
    rw [step_get_some hr]
    exact ⟨r, rfl, hi.latest sessionId r hr, Server.SessionObjects.lookup_insert_same hr⟩
  · intro sessionId hnew
    exact step_get_none (AList.lookup_eq_none.mpr hnew)
  · intro pre post sessionId huses hfew
    rw [AList.mem_keys, hi.keys, huses]
    exact Recency.mem_take_recency hfew

end RankGate.Session.LeastRecentlyUsed
