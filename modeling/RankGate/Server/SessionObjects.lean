/- Module: RankGate/Server/SessionObjects
   source: server/app/sessions.py (SessionStore)
   digest: The store as the interpreter holds it, with references to session objects, and the view
   on their fields that the handlers work on. -/

import RankGate.Server.Sessions

set_option autoImplicit false
set_option relaxedAutoImplicit false

namespace RankGate.Server.SessionObjects

open ByteCodec (Bytes)
open Effects (exec)
open OrderedDict (Dict)
open OrderedDict.Dict (mapValues)
open RankGate.Server.Config (Failure)
open RankGate.Server.Sessions (Session SessionStore)

/-- A session object, by its place in the order of construction. -/
abbrev Ref := Nat

/-- The objects constructed so far, and the dict from id to object. -/
structure Heap where
  objects : List Session
  store : Dict Bytes Ref

namespace Heap

def init : Heap := ⟨[], ∅⟩

def fields (h : Heap) (r : Ref) : Session := h.objects.getD r { sessionId := [] }

/-- The dict with every reference replaced by the object's fields. -/
def view (h : Heap) : SessionStore := mapValues h.fields h.store

/-- Every reference in the dict is to an object that carries the key as its id. -/
def Owned (h : Heap) : Prop :=
  ∀ sessionId r, h.store.lookup sessionId = some r →
    ∃ s, h.objects[r]? = some s ∧ s.sessionId = sessionId

end Heap

abbrev HeapM := ExceptT Failure (StateM Heap)

def create (sessionId : Bytes) : HeapM Ref := do
  let s := (← MonadState.get).objects.length
  modify fun h => { h with objects := h.objects ++ [{ sessionId }] }
  modify fun h => { h with store := h.store.assign sessionId s }
  match (← MonadState.get).store.moveToEnd sessionId with
  | some store => modify fun h => { h with store }
  | none => throw (.keyError "session_id")
  modify fun h => { h with store := h.store.shrink SessionStore.maxSessions }
  return s

def get (sessionId : Bytes) : HeapM Ref := do
  let h ← MonadState.get
  match h.store.lookup sessionId with
  | none => throw (.protocolError "session" "unknown session")
  | some s =>
    match h.store.moveToEnd sessionId with
    | some store => modify fun h => { h with store }
    | none => throw (.keyError "session_id")
    return s

section Specs

variable {h : Heap} {sessionId : Bytes} {r : Ref}

def created (h : Heap) (sessionId : Bytes) : Heap where
  objects := h.objects ++ [{ sessionId }]
  store := Dict.shrink SessionStore.maxSessions (h.store.insert sessionId h.objects.length)

theorem exec_create : exec (create sessionId) h = (.ok h.objects.length, created h sessionId) := by
  have hmove : (h.store.assign sessionId h.objects.length).moveToEnd sessionId =
      some (h.store.insert sessionId h.objects.length) := Dict.moveToEnd_assign h.store
  refine (Effects.exec_bind_ok rfl).trans ?_
  refine (Effects.exec_bind_ok rfl).trans ?_
  refine (Effects.exec_bind_ok rfl).trans ?_
  refine (Effects.exec_bind_ok rfl).trans ?_
  simp only [hmove]
  rfl

theorem exec_get_none (hr : h.store.lookup sessionId = none) :
    exec (get sessionId) h = (.error (.protocolError "session" "unknown session"), h) := by
  refine (Effects.exec_bind_ok rfl).trans ?_
  simp only [hr]
  rfl

theorem exec_get_some (hr : h.store.lookup sessionId = some r) :
    exec (get sessionId) h = (.ok r, { h with store := h.store.insert sessionId r }) := by
  have hmove : h.store.moveToEnd sessionId = some (h.store.insert sessionId r) := by
    rw [Dict.moveToEnd, hr, Option.map_some]
  refine (Effects.exec_bind_ok rfl).trans ?_
  simp only [hr, hmove]
  rfl

theorem owned_created (hown : h.Owned) : (created h sessionId).Owned := by
  intro k r hr
  have hins := Dict.lookup_shrink _ hr
  by_cases hk : k = sessionId
  · subst hk
    rw [AList.lookup_insert, Option.some.injEq] at hins
    subst hins
    exact ⟨{ sessionId := k }, by simp [created], rfl⟩
  · rw [AList.lookup_insert_ne hk] at hins
    obtain ⟨s, hs, hid⟩ := hown k r hins
    obtain ⟨hlt, -⟩ := List.getElem?_eq_some_iff.mp hs
    refine ⟨s, ?_, hid⟩
    rw [created, List.getElem?_append_left hlt, hs]

theorem lookup_insert_same (hr : h.store.lookup sessionId = some r) (k : Bytes) :
    (h.store.insert sessionId r).lookup k = h.store.lookup k := by
  by_cases hk : k = sessionId
  · rw [hk, AList.lookup_insert, hr]
  · rw [AList.lookup_insert_ne hk]

end Specs

/-! On the fields, `create` and `get` are those of the store of values. -/

section View

variable {h : Heap} {sessionId : Bytes}

theorem fields_eq {r : Ref} {s : Session} (hr : h.objects[r]? = some s) : h.fields r = s := by
  rw [Heap.fields, List.getD_eq_getElem?_getD, hr, Option.getD_some]

theorem fields_new : (created h sessionId).fields h.objects.length = { sessionId } :=
  fields_eq (by simp [created])

theorem view_created (hown : h.Owned) : (created h sessionId).view =
    Dict.shrink SessionStore.maxSessions (h.view.insert sessionId { sessionId }) := by
  have hold : mapValues (created h sessionId).fields h.store = h.view := by
    refine Dict.mapValues_congr _ _ ?_
    intro k r hr
    obtain ⟨s, hs, -⟩ := hown k r hr
    obtain ⟨hlt, -⟩ := List.getElem?_eq_some_iff.mp hs
    rw [fields_eq hs]
    refine fields_eq ?_
    rw [created, List.getElem?_append_left hlt, hs]
  calc
    (created h sessionId).view = mapValues (created h sessionId).fields
        (Dict.shrink SessionStore.maxSessions (h.store.insert sessionId h.objects.length)) := rfl
    _ = Dict.shrink SessionStore.maxSessions
        (h.view.insert sessionId { sessionId }) := by
      rw [Dict.mapValues_shrink, Dict.mapValues_insert, hold, fields_new]

theorem create_refines (hown : h.Owned) :
    exec (SessionStore.create sessionId) h.view =
      (.ok ((created h sessionId).fields h.objects.length), (created h sessionId).view) := by
  rw [Sessions.exec_create, view_created hown, fields_new]

theorem get_refines : exec (SessionStore.get sessionId) h.view =
    ((exec (get sessionId) h).1.map h.fields, (exec (get sessionId) h).2.view) := by
  cases hr : h.store.lookup sessionId with
  | none =>
    have hview : h.view.lookup sessionId = none := by
      rw [Heap.view, Dict.lookup_mapValues, hr, Option.map_none]
    rw [Sessions.exec_get_none hview, exec_get_none hr]
    rfl
  | some r =>
    have hview : h.view.lookup sessionId = some (h.fields r) := by
      rw [Heap.view, Dict.lookup_mapValues, hr, Option.map_some]
    have hins : ({ h with store := h.store.insert sessionId r } : Heap).view =
        h.view.insert sessionId (h.fields r) := Dict.mapValues_insert _ _
    rw [Sessions.exec_get_some hview, exec_get_some hr, hins]
    rfl

end View

end RankGate.Server.SessionObjects
