/- Module: RankGate/Handlers/Requests
   source: server/app/challenge_logic.py, server/app/sessions.py
   digest: The server as one system: requests, the store they meet and leave, and the record of a session. -/

import RankGate.Foundation.Runs
import RankGate.Handlers.Specs

set_option autoImplicit false
set_option relaxedAutoImplicit false

namespace RankGate.Handlers.Requests

open ByteCodec (Bytes BytesN zeros)
open Effects (exec)
open OrderedDict (Dict)
open RankGate.Crypto (Primitives)
open RankGate.Server
open RankGate.Server.Config (Env Failure)
open RankGate.Server.Protocol (Frame)
open RankGate.Server.Sessions (Session SessionM SessionStore HandlerM)
open RankGate.Server.ChallengeLogic

/-- A raw request at one of the three endpoints, with what the handler will draw. -/
inductive Request
  | hello (draws : HelloDraws) (raw : Bytes)
  | exchange (draws : ExchangeDraws) (raw : Bytes)
  | finalize (draws : FinalizeDraws) (raw : Bytes)

namespace Request

def raw : Request → Bytes
  | .hello _ raw => raw
  | .exchange _ raw => raw
  | .finalize _ raw => raw

def isHello : Request → Bool
  | .hello _ _ => true
  | _ => false

def isExchange : Request → Bool
  | .exchange _ _ => true
  | _ => false

def isFinalize : Request → Bool
  | .finalize _ _ => true
  | _ => false

def admits : Request → List Nat
  | .hello _ _ => [Config.mtHello]
  | .exchange _ _ => [Config.mtClientProof1]
  | .finalize _ _ => [Config.mtClientProof2, Config.mtFinalize]

/-- The frame the endpoint reads out of the request, if it gets that far. -/
def frame? (r : Request) : Option Frame :=
  match Frame.parse r.raw with
  | .ok f => if f.messageType ∈ r.admits then some f else none
  | .error _ => none

theorem frame?_eq_some {r : Request} {f : Frame} (h : r.frame? = some f) :
    Frame.parse r.raw = .ok f ∧ f.messageType ∈ r.admits := by
  unfold frame? at h
  split at h
  · rename_i g hg
    split_ifs at h with hm
    cases h
    exact ⟨hg, hm⟩
  · cases h

theorem frame?_eq_some_of {r : Request} {f : Frame} (h : Frame.parse r.raw = .ok f)
    (hm : f.messageType ∈ r.admits) : r.frame? = some f := by
  rw [frame?, h]
  exact if_pos hm

theorem wellFormed {r : Request} {f : Frame} (h : r.frame? = some f) : f.WellFormed :=
  (Frame.parse_ok (frame?_eq_some h).1).1

theorem raw_eq {r : Request} {f : Frame} (h : r.frame? = some f) : r.raw = f.bytes :=
  (Frame.parse_ok (frame?_eq_some h).1).2

end Request

section Steps

variable (P : Primitives) (env : Env)

def serve : Request → HandlerM Bytes
  | .hello d raw => handleHello P env d raw
  | .exchange d raw => handleExchange P env d raw
  | .finalize d raw => handleFinalize P d raw

/-- The part of the handler that runs on the session object. -/
def body (f : Frame) : Request → SessionM Bytes
  | .hello d _ => helloBody P env d f
  | .exchange d _ => exchangeBody P env d f
  | .finalize d _ => finalizeBody P d f

/-- One request: the response or the exception, and the store afterwards. -/
def step (store : SessionStore) (r : Request) : Except Failure Bytes × SessionStore :=
  exec (serve P env r) store

variable {store : SessionStore} {f : Frame}

private theorem step_unread {r : Request} {e : Failure} (h : Frame.parse r.raw = .error e)
    (store : SessionStore) : step P env store r = (.error e, store) := by
  cases r with
  | hello d raw => exact Effects.exec_bind_error (by rw [show Frame.parse raw = _ from h]; rfl)
  | exchange d raw => exact Effects.exec_bind_error (by rw [show Frame.parse raw = _ from h]; rfl)
  | finalize d raw => exact Effects.exec_bind_error (by rw [show Frame.parse raw = _ from h]; rfl)

private theorem step_misdirected {r : Request} (h : Frame.parse r.raw = .ok f)
    (hm : f.messageType ∉ r.admits) : ∃ e, ∀ store, step P env store r = (.error e, store) := by
  cases r with
  | hello d raw =>
    have hm : ¬ f.messageType = Config.mtHello := by simpa [Request.admits] using hm
    exact ⟨_, fun store => (Effects.exec_bind_ok (by rw [show Frame.parse raw = _ from h]; rfl)).trans
      (Effects.exec_ensure_false hm)⟩
  | exchange d raw =>
    have hm : ¬ f.messageType = Config.mtClientProof1 := by simpa [Request.admits] using hm
    exact ⟨_, fun store => (Effects.exec_bind_ok (by rw [show Frame.parse raw = _ from h]; rfl)).trans
      (Effects.exec_ensure_false hm)⟩
  | finalize d raw =>
    have hm : ¬ (f.messageType = Config.mtClientProof2 ∨ f.messageType = Config.mtFinalize) := by
      simpa [Request.admits] using hm
    exact ⟨_, fun store => (Effects.exec_bind_ok (by rw [show Frame.parse raw = _ from h]; rfl)).trans
      (Effects.exec_ensure_false hm)⟩

/-- A request that is not a frame for its endpoint stops before the store. -/
theorem step_malformed {r : Request} (h : r.frame? = none) :
    ∃ e, ∀ store, step P env store r = (.error e, store) := by
  unfold Request.frame? at h
  cases hparse : Frame.parse r.raw with
  | error e => exact ⟨e, step_unread P env hparse⟩
  | ok f =>
    rw [hparse] at h
    refine step_misdirected P env hparse fun hm => ?_
    simp only [if_pos hm] at h
    cases h

theorem frame_of_answered {r : Request} {response : Bytes}
    (h : (step P env store r).1 = .ok response) : ∃ f, r.frame? = some f := by
  cases hf : r.frame? with
  | none =>
    obtain ⟨e, he⟩ := step_malformed P env hf
    rw [he] at h
    cases h
  | some f => exact ⟨f, rfl⟩

/-- A HELLO frame meets a fresh session, whatever the store held under its id. -/
theorem step_hello (store : SessionStore) {r : Request} (h : r.frame? = some f) (hr : r.isHello = true) :
    step P env store r =
      ((exec (body P env f r) { sessionId := f.sessionId }).1,
        (Dict.shrink SessionStore.maxSessions
          (store.insert f.sessionId { sessionId := f.sessionId })).replace f.sessionId
          (exec (body P env f r) { sessionId := f.sessionId }).2) := by
  cases r with
  | hello d raw =>
    obtain ⟨hparse, hm⟩ := Request.frame?_eq_some h
    have hm : f.messageType = Config.mtHello := by simpa [Request.admits] using hm
    refine (Effects.exec_bind_ok (by rw [show Frame.parse raw = _ from hparse]; rfl)).trans ?_
    refine (Effects.exec_ensure_true hm).trans ?_
    exact (Effects.exec_bind_ok Sessions.exec_create).trans (Sessions.exec_onSession _ _)
  | exchange d raw => cases hr
  | finalize d raw => cases hr

private theorem step_get {r : Request} (h : r.frame? = some f) (hr : r.isHello = false) :
    step P env store r = exec (SessionStore.get f.sessionId >>= fun sess =>
      Sessions.onSession f.sessionId sess (body P env f r)) store := by
  obtain ⟨hparse, hm⟩ := Request.frame?_eq_some h
  cases r with
  | hello d raw => cases hr
  | exchange d raw =>
    have hm : f.messageType = Config.mtClientProof1 := by simpa [Request.admits] using hm
    refine (Effects.exec_bind_ok (by rw [show Frame.parse raw = _ from hparse]; rfl)).trans ?_
    exact Effects.exec_ensure_true hm
  | finalize d raw =>
    have hm : f.messageType = Config.mtClientProof2 ∨ f.messageType = Config.mtFinalize := by
      simpa [Request.admits] using hm
    refine (Effects.exec_bind_ok (by rw [show Frame.parse raw = _ from hparse]; rfl)).trans ?_
    exact Effects.exec_ensure_true hm

theorem step_unknown {r : Request} (h : r.frame? = some f) (hr : r.isHello = false)
    (hs : store.lookup f.sessionId = none) :
    step P env store r = (.error (.protocolError "session" "unknown session"), store) := by
  rw [step_get P env h hr]
  exact Effects.exec_bind_error (Sessions.exec_get_none hs)

theorem step_known {r : Request} {s : Session} (h : r.frame? = some f) (hr : r.isHello = false)
    (hs : store.lookup f.sessionId = some s) :
    step P env store r = ((exec (body P env f r) s).1,
      (store.insert f.sessionId s).replace f.sessionId (exec (body P env f r) s).2) := by
  rw [step_get P env h hr]
  exact (Effects.exec_bind_ok (Sessions.exec_get_some hs)).trans (Sessions.exec_onSession _ _)

end Steps

section Lookup

variable (P : Primitives) (env : Env) {store : SessionStore} {r : Request} {f : Frame}

private theorem mem_shrink_insert (s : Session) :
    (Dict.shrink SessionStore.maxSessions (store.insert f.sessionId s)).lookup f.sessionId =
      some s := by
  have hmem : f.sessionId ∈ store.insert f.sessionId s := (AList.mem_insert store).mpr (.inl rfl)
  have hnewer : (Dict.newer (store.insert f.sessionId s) f.sessionId).length <
      SessionStore.maxSessions := by
    rw [Dict.newer_insert_self]
    decide
  rw [(Dict.shrink_keeps _ hmem hnewer).1, AList.lookup_insert]

theorem lookup_hello_self (store : SessionStore) (h : r.frame? = some f)
    (hr : r.isHello = true) :
    (step P env store r).2.lookup f.sessionId =
      some (exec (body P env f r) { sessionId := f.sessionId }).2 := by
  rw [step_hello P env store h hr]
  refine Dict.lookup_replace_self _ ?_
  rw [← AList.lookup_isSome, mem_shrink_insert]
  rfl

theorem lookup_hello_ne (h : r.frame? = some f) (hr : r.isHello = true) {sid : Bytes}
    (hne : sid ≠ f.sessionId) {s : Session}
    (hs : (step P env store r).2.lookup sid = some s) : store.lookup sid = some s := by
  rw [step_hello P env store h hr, Dict.lookup_replace_ne _ hne] at hs
  have hinsert := Dict.lookup_shrink _ hs
  rwa [AList.lookup_insert_ne hne] at hinsert

theorem lookup_known_self (h : r.frame? = some f) (hr : r.isHello = false) {s : Session}
    (hs : store.lookup f.sessionId = some s) :
    (step P env store r).2.lookup f.sessionId = some (exec (body P env f r) s).2 := by
  rw [step_known P env h hr hs]
  exact Dict.lookup_replace_self _ ((AList.mem_insert store).mpr (.inl rfl))

theorem lookup_known_ne (h : r.frame? = some f) (hr : r.isHello = false) {sid : Bytes}
    (hne : sid ≠ f.sessionId) : (step P env store r).2.lookup sid = store.lookup sid := by
  cases hs : store.lookup f.sessionId with
  | none => rw [step_unknown P env h hr hs]
  | some s => rw [step_known P env h hr hs, Dict.lookup_replace_ne _ hne,
      AList.lookup_insert_ne hne]

theorem length_step (hlen : store.entries.length ≤ SessionStore.maxSessions) (r : Request) :
    (step P env store r).2.entries.length ≤ SessionStore.maxSessions := by
  cases hf : r.frame? with
  | none =>
    obtain ⟨e, he⟩ := step_malformed P env hf
    rw [he]
    exact hlen
  | some f =>
    cases hr : r.isHello with
    | true =>
      rw [step_hello P env store hf hr, Dict.length_replace]
      exact Dict.length_shrink _ _
    | false =>
      cases hs : store.lookup f.sessionId with
      | none =>
        rw [step_unknown P env hf hr hs]
        exact hlen
      | some s =>
        have hmem : f.sessionId ∈ store := by
          rw [← AList.lookup_isSome, hs]
          rfl
        rw [step_known P env hf hr hs, Dict.length_replace, Dict.length_insert_of_mem _ _ hmem]
        exact hlen

end Lookup

section Record

variable (P : Primitives) (env : Env)

abbrev Event := Runs.Event SessionStore Request (Except Failure Bytes)

abbrev storeAfter (rs : List Request) : SessionStore := Runs.final (step P env) ∅ rs

abbrev trace (rs : List Request) : List Event := Runs.trace (step P env) ∅ rs

theorem storeAfter_concat (rs : List Request) (r : Request) :
    storeAfter P env (rs ++ [r]) = (step P env (storeAfter P env rs) r).2 :=
  Runs.final_concat (step P env) ∅ rs r

theorem trace_concat (rs : List Request) (r : Request) :
    trace P env (rs ++ [r]) =
      trace P env rs ++ [Runs.event (step P env) (storeAfter P env rs) r] :=
  Runs.trace_concat (step P env) ∅ rs r

theorem length_storeAfter (rs : List Request) :
    (storeAfter P env rs).entries.length ≤ SessionStore.maxSessions :=
  Runs.final_invariant (step P env) (fun store => store.entries.length ≤ SessionStore.maxSessions)
    (Nat.zero_le _) (fun _ r h => length_step P env h r) rs

def Request.sessionId? (r : Request) : Option Bytes := r.frame?.map Frame.sessionId

/-- The event ran `STORE.create` for this id. -/
def creates (sid : Bytes) (e : Event) : Bool :=
  e.request.isHello && decide (e.request.sessionId? = some sid)

/-- The event is an accepted frame of this id. -/
def answers (sid : Bytes) (e : Event) : Bool :=
  e.outcome.isOk && decide (e.request.sessionId? = some sid)

/-- The accepted events of an id since its latest creation, oldest first. -/
def life (sid : Bytes) (tr : List Event) : List Event :=
  (Runs.sinceReset (creates sid) tr).filter (answers sid)

/-- The full frames an accepted event adds to the transcript: the client's, then the server's. -/
def frames (e : Event) : List Bytes :=
  match e.outcome with
  | .ok response => [e.request.raw, response]
  | .error _ => []

theorem life_concat (sid : Bytes) (tr : List Event) (e : Event) :
    life sid (tr ++ [e]) =
      (if creates sid e then [] else life sid tr) ++ [e].filter (answers sid) := by
  unfold life
  rw [Runs.sinceReset_concat]
  split_ifs with h
  · rfl
  · rw [List.filter_append]

theorem life_concat_silent {sid : Bytes} {e : Event} (tr : List Event)
    (hc : creates sid e = false) (ha : answers sid e = false) :
    life sid (tr ++ [e]) = life sid tr := by
  rw [life_concat, hc, if_neg Bool.false_ne_true, List.filter_singleton, ha,
    cond_false, List.append_nil]

theorem life_concat_create {sid : Bytes} {e : Event} (tr : List Event)
    (hc : creates sid e = true) : life sid (tr ++ [e]) = [e].filter (answers sid) := by
  rw [life_concat, if_pos hc, List.nil_append]

end Record

/-! Requests that the transparent primitives accept, for one session id; they show below that the
hypotheses of results about runs can be met. -/

section Sample

def sampleEnv : Env := ⟨none, none, none⟩

def sampleDraw (n : Nat) : BytesN n := ⟨zeros n, ByteCodec.length_zeros n⟩

def sampleFrame (messageType counter : Nat) (payload mac : Bytes) : Bytes :=
  Frame.bytes ⟨messageType, zeros 16, counter, zeros 24, payload, zeros 16, mac⟩

def sampleHello (counter : Nat) : Request :=
  .hello ⟨sampleDraw 32, sampleDraw 16, sampleDraw 24⟩
    (sampleFrame 1 counter (zeros 48 ++ [0, 1, 0x61]) (zeros 32))

def samplePayload : Bytes :=
  [6] ++ List.replicate 16 0xFF ++ [6] ++ zeros 3 ++ List.replicate 4 0xFF ++ zeros 32 ++
    List.replicate 32 0xFF ++ [0x81, 0x1C, 0x9D, 0xC5] ++ [0, 0, 0, 0x38] ++ zeros 32

def sampleExchange (counter : Nat) (mac : Bytes) : Request :=
  .exchange ⟨sampleDraw 16, sampleDraw 24⟩ (sampleFrame 3 counter samplePayload mac)

def sampleFinalize (counter : Nat) : Request :=
  .finalize ⟨sampleDraw 24, sampleDraw 24⟩ (sampleFrame 5 counter (zeros 32) (zeros 32))

abbrev sampleTrace (rs : List Request) : List Event := trace Primitives.transparent sampleEnv rs

abbrev sampleStore (rs : List Request) : SessionStore :=
  storeAfter Primitives.transparent sampleEnv rs

end Sample

end RankGate.Handlers.Requests
