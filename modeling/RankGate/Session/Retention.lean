/- Module: RankGate/Session/Retention
   source: server/app/sessions.py, server/app/challenge_logic.py
   digest: Requests for fewer than 1024 other ids leave a session where it is, field for field. -/

import RankGate.Handlers.Requests

set_option autoImplicit false
set_option relaxedAutoImplicit false

namespace RankGate.Session.Retention

open ByteCodec (Bytes)
open OrderedDict (Dict)
open RankGate.Crypto (Primitives)
open RankGate.Handlers
open RankGate.Handlers.Requests
open RankGate.Server.Config (Env)
open RankGate.Server.Sessions (Session SessionStore)

def touched (rs : List Request) : List Bytes := rs.filterMap Request.sessionId?

/-- Requests for other ids, and for fewer of them than the store holds. -/
structure Elsewhere (sid : Bytes) (rs : List Request) : Prop where
  other : ∀ r ∈ rs, r.sessionId? ≠ some sid
  few : (touched rs).toFinset.card < SessionStore.maxSessions

theorem elsewhere_nil (sid : Bytes) : Elsewhere sid [] :=
  ⟨fun _ h => absurd h List.not_mem_nil, by decide⟩

variable (P : Primitives) (env : Env) {store : SessionStore} {sid : Bytes} {s : Session}

private theorem newer_insert {T : List Bytes} {j : Bytes} {v : Session} (hne : j ≠ sid)
    (hnewer : ∀ x ∈ Dict.newer store sid, x ∈ T) :
    ∀ x ∈ Dict.newer (store.insert j v) sid, x ∈ T ++ [j] := by
  intro x hx
  rcases Dict.newer_insert_ne store hne x hx with rfl | hx
  · exact List.mem_append_right _ List.mem_cons_self
  · exact List.mem_append_left _ (hnewer x hx)

theorem step_keeps {r : Request} {T : List Bytes} (h : r.sessionId? ≠ some sid)
    (hs : store.lookup sid = some s) (hnewer : ∀ x ∈ Dict.newer store sid, x ∈ T)
    (hfew : (T ++ r.sessionId?.toList).toFinset.card < SessionStore.maxSessions) :
    (step P env store r).2.lookup sid = some s ∧
      ∀ x ∈ Dict.newer (step P env store r).2 sid, x ∈ T ++ r.sessionId?.toList := by
  cases hf : r.frame? with
  | none =>
    obtain ⟨e, he⟩ := step_malformed P env hf
    rw [he]
    exact ⟨hs, fun x hx => List.mem_append_left _ (hnewer x hx)⟩
  | some f =>
    have hid : r.sessionId? = some f.sessionId := by
      rw [Request.sessionId?, hf, Option.map_some]
    have hne : f.sessionId ≠ sid := fun heq => h (heq ▸ hid)
    rw [hid, Option.toList_some] at hfew ⊢
    cases hr : r.isHello with
    | true =>
      -- the eviction after the insertion spares `sid`, which few enough ids have overtaken
      have hins := newer_insert (v := { sessionId := f.sessionId }) hne hnewer
      have hmem : sid ∈ store.insert f.sessionId { sessionId := f.sessionId } := by
        rw [← AList.lookup_isSome, AList.lookup_insert_ne hne.symm, hs]
        rfl
      obtain ⟨hlookup, hsame⟩ := Dict.shrink_keeps _ hmem (Dict.length_newer_lt _ hins hfew)
      rw [step_hello P env store hf hr]
      constructor
      · rw [Dict.lookup_replace_ne _ hne.symm, hlookup, AList.lookup_insert_ne hne.symm, hs]
      · rw [Dict.newer_replace, hsame]
        exact hins
    | false =>
      cases hlookup : store.lookup f.sessionId with
      | none =>
        rw [step_unknown P env hf hr hlookup]
        exact ⟨hs, fun x hx => List.mem_append_left _ (hnewer x hx)⟩
      | some other =>
        rw [step_known P env hf hr hlookup]
        constructor
        · rw [Dict.lookup_replace_ne _ hne.symm, AList.lookup_insert_ne hne.symm, hs]
        · rw [Dict.newer_replace]
          exact newer_insert hne hnewer

theorem newest_hello {r : Request} {f : Server.Protocol.Frame} (h : r.frame? = some f)
    (hr : r.isHello = true) : Dict.newer (step P env store r).2 f.sessionId = [] := by
  have hmem : f.sessionId ∈ store.insert f.sessionId { sessionId := f.sessionId } :=
    (AList.mem_insert store).mpr (.inl rfl)
  have hfew : (Dict.newer (store.insert f.sessionId { sessionId := f.sessionId })
      f.sessionId).length < SessionStore.maxSessions := by
    rw [Dict.newer_insert_self]
    decide
  rw [step_hello P env store h hr, Dict.newer_replace, (Dict.shrink_keeps _ hmem hfew).2,
    Dict.newer_insert_self]

theorem newest_known {r : Request} {f : Server.Protocol.Frame} (h : r.frame? = some f)
    (hr : r.isHello = false) (hs : store.lookup f.sessionId = some s) :
    Dict.newer (step P env store r).2 f.sessionId = [] := by
  rw [step_known P env h hr hs, Dict.newer_replace, Dict.newer_insert_self]

/-- A whole run elsewhere leaves the newest session as it was. -/
theorem run_keeps {rs : List Request} (h : Elsewhere sid rs) (hs : store.lookup sid = some s)
    (hnewest : Dict.newer store sid = []) :
    (Runs.final (step P env) store rs).lookup sid = some s := by
  suffices hrun : (Runs.final (step P env) store rs).lookup sid = some s ∧
      ∀ x ∈ Dict.newer (Runs.final (step P env) store rs) sid, x ∈ touched rs from hrun.1
  obtain ⟨hother, hfew⟩ := h
  induction rs using List.reverseRecOn with
  | nil =>
    refine ⟨hs, fun x hx => ?_⟩
    rw [Runs.final_nil, hnewest] at hx
    exact hx
  | append_singleton rs r ih =>
    have hsplit : touched (rs ++ [r]) = touched rs ++ r.sessionId?.toList := by
      rw [touched, List.filterMap_append, touched]
      cases hid : r.sessionId? with
      | none => rw [List.filterMap_cons_none hid]; rfl
      | some x => rw [List.filterMap_cons_some hid]; rfl
    rw [hsplit] at hfew ⊢
    have hle : (touched rs).toFinset.card ≤ (touched rs ++ r.sessionId?.toList).toFinset.card := by
      refine Finset.card_le_card fun x hx => ?_
      rw [List.mem_toFinset] at hx ⊢
      exact List.mem_append_left _ hx
    obtain ⟨hlookup, hnewer⟩ := ih (fun q hq => hother q (List.mem_append_left _ hq))
      (lt_of_le_of_lt hle hfew)
    rw [Runs.final_concat]
    exact step_keeps P env (hother r (List.mem_append_right _ List.mem_cons_self)) hlookup hnewer
      hfew

end RankGate.Session.Retention
