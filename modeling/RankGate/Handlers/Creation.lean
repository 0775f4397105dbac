/- Module: RankGate/Handlers/Creation
   source: server/app/challenge_logic.py (handle_hello), server/app/sessions.py (SessionStore.create)
   digest: A HELLO creates its session before it is checked: what that costs the store, and when replays
   stay out. -/

import RankGate.Handlers.Bookkeeping

set_option autoImplicit false
set_option relaxedAutoImplicit false

namespace RankGate.Handlers.Creation

open ByteCodec (Bytes zeros)
open Effects (exec)
open OrderedDict (Dict)
open RankGate.Crypto (Primitives)
open RankGate.Server
open RankGate.Server.Config (Env Failure)
open RankGate.Server.Protocol (Frame)
open RankGate.Server.Sessions (Session SessionStore)
open RankGate.Server.ChallengeLogic
open Specs
open Requests
open Ledger
open Bookkeeping (counterOf counterOf_eq)

section Rejected

variable (P : Primitives) (env : Env)

/-- The request leaves exactly the sessions it met, each as it was. -/
def Traceless (store : SessionStore) (r : Request) : Prop :=
  ∀ sid, (step P env store r).2.lookup sid = store.lookup sid

variable {P env} {store : SessionStore} {d : HelloDraws} {raw : Bytes} {e : Failure}

theorem lookup_rejected_hello {f : Frame} (hf : (Request.hello d raw).frame? = some f)
    (h : (step P env store (.hello d raw)).1 = .error e) :
    (step P env store (.hello d raw)).2.lookup f.sessionId =
      some (halfOpen P f { sessionId := f.sessionId }) := by
  have hexec := exec_helloBody P env d f (s := { sessionId := f.sessionId })
    (fun _ => by exact (by decide : 0 + 1 < 2 ^ 64))
  change exec (body P env f (.hello d raw)) { sessionId := f.sessionId } = _ at hexec
  rw [step_hello P env _ hf rfl, hexec] at h
  rw [lookup_hello_self P env _ hf rfl, hexec]
  cases hcheck : helloCheck P d f { sessionId := f.sessionId } with
  | error e => rfl
  | ok q =>
    rw [hcheck] at h
    cases h

theorem lookup_hello_mem {f : Frame} (hf : (Request.hello d raw).frame? = some f)
    (hlen : store.entries.length ≤ SessionStore.maxSessions) (hmem : f.sessionId ∈ store)
    {sid : Bytes} (hne : sid ≠ f.sessionId) :
    (step P env store (.hello d raw)).2.lookup sid = store.lookup sid := by
  have hshrink : Dict.shrink SessionStore.maxSessions
      (store.insert f.sessionId { sessionId := f.sessionId }) =
      store.insert f.sessionId { sessionId := f.sessionId } :=
    Dict.shrink_of_le _ (by rw [Dict.length_insert_of_mem _ _ hmem]; exact hlen)
  rw [step_hello P env _ hf rfl, hshrink, Dict.lookup_replace_ne _ hne, AList.lookup_insert_ne hne]

/-- A rejected HELLO is without trace exactly when it was no HELLO frame at all, or the store held
under its id just the session this HELLO leaves: no keys, its counter, and its key and name where
these were read. -/
theorem rejected_hello_traceless_iff (P : Primitives) (env : Env) (rs : List Request)
    (d : HelloDraws) (raw : Bytes) (e : Failure)
    (h : (step P env (storeAfter P env rs) (.hello d raw)).1 = .error e) :
    Traceless P env (storeAfter P env rs) (.hello d raw) ↔
      ∀ f, (Request.hello d raw).frame? = some f →
        (storeAfter P env rs).lookup f.sessionId = some {
          sessionId := f.sessionId
          clientCounter := f.counter
          clientEphPub := ((opened P f).map Prod.fst).getD []
          usernameNorm := ((opened P f).map Prod.snd).getD [] } := by
  simp only [← halfOpen_fresh]
  constructor
  · intro htrace f hf
    rw [← htrace f.sessionId]
    exact lookup_rejected_hello hf h
  · intro hheld sid
    cases hf : (Request.hello d raw).frame? with
    | none =>
      obtain ⟨e, he⟩ := step_malformed P env hf
      rw [he]
    | some f =>
      have hlookup := hheld f hf
      by_cases hid : sid = f.sessionId
      · rw [hid, hlookup]
        exact lookup_rejected_hello hf h
      · have hmem : f.sessionId ∈ storeAfter P env rs := by
          rw [← AList.lookup_isSome, hlookup]
          rfl
        exact lookup_hello_mem hf (length_storeAfter P env rs) hmem hid

/-- A HELLO with counter zero, over a session in progress. -/
theorem rejected_hello_resets_session :
    (step Primitives.transparent sampleEnv (sampleStore [sampleHello 1]) (sampleHello 0)).1.isOk =
        false ∧
      ¬ Traceless Primitives.transparent sampleEnv (sampleStore [sampleHello 1]) (sampleHello 0) := by
  constructor
  · decide +kernel
  · intro h
    have hkeys := congrArg (Option.map fun s : Session => s.keys.isSome) (h (zeros 16))
    exact absurd hkeys (by decide +kernel)

/-- The same HELLO twice: the second time it leaves what it found. -/
theorem rejected_hello_traceless_again :
    Traceless Primitives.transparent sampleEnv (sampleStore [sampleHello 0]) (sampleHello 0) := by
  have herror : ∃ e, (step Primitives.transparent sampleEnv (sampleStore [sampleHello 0])
      (sampleHello 0)).1 = .error e := by
    have hok : (step Primitives.transparent sampleEnv (sampleStore [sampleHello 0])
        (sampleHello 0)).1.isOk = false := by decide +kernel
    cases hout : (step Primitives.transparent sampleEnv (sampleStore [sampleHello 0])
        (sampleHello 0)).1 with
    | error e => exact ⟨e, rfl⟩
    | ok response =>
      rw [hout] at hok
      cases hok
  obtain ⟨e, he⟩ := herror
  refine (rejected_hello_traceless_iff Primitives.transparent sampleEnv [sampleHello 0] _ _ e he).mpr
    fun f hf => ?_
  rw [← halfOpen_fresh]
  have hframe : ((sampleHello 0).frame?.map fun f => decide ((sampleStore [sampleHello 0]).lookup
      f.sessionId = some (halfOpen Primitives.transparent f { sessionId := f.sessionId }))) =
      some true := by decide +kernel
  rw [show (sampleHello 0).frame? = some f from hf, Option.map_some] at hframe
  exact of_decide_eq_true (Option.some.inj hframe)

end Rejected

section Replay

variable (P : Primitives) (env : Env)

/-- Two events of the trace bring the same raw request, and its id stays in the store from the first
to the second. -/
structure Resent (tr pre mid post : List Event) (e₁ e₂ : Event) (f : Frame) : Prop where
  split : tr = pre ++ e₁ :: mid ++ e₂ :: post
  frame : e₁.request.frame? = some f
  same : e₂.request.raw = e₁.request.raw
  kept : ∀ e ∈ mid ++ [e₂], f.sessionId ∈ e.before

def NoneAcceptedTwice (tr : List Event) : Prop :=
  ∀ pre mid post e₁ e₂ f, Resent tr pre mid post e₁ e₂ f → e₁.outcome.isOk = true →
    e₂.outcome.isOk = false

/-- No client frame is sent again across a HELLO for its id. -/
def NoneAcrossHello (tr : List Event) : Prop :=
  ∀ pre mid post e₁ e₂ f, Resent tr pre mid post e₁ e₂ f →
    ∀ e ∈ mid ++ [e₂], creates f.sessionId e = false

variable {P env} {store : SessionStore}

/-- What is accepted for a session brings a counter above the session's. -/
theorem answered_fresh {r : Request} {f : Frame} (hf : r.frame? = some f) (hr : r.isHello = false)
    (hok : (step P env store r).1.isOk = true) :
    ∃ s, store.lookup f.sessionId = some s ∧ s.clientCounter < f.counter := by
  cases hlookup : store.lookup f.sessionId with
  | none =>
    rw [step_unknown P env hf hr hlookup] at hok
    cases hok
  | some s =>
    refine ⟨s, rfl, ?_⟩
    by_contra hstale
    rw [step_known P env hf hr hlookup, Bookkeeping.body_stale hr hstale] at hok
    cases hok

/-- In a run without replays across a HELLO, no client frame is accepted twice while its id stays in
the store. -/
theorem none_accepted_twice (P : Primitives) (env : Env) (rs : List Request)
    (h : NoneAcrossHello (trace P env rs)) : NoneAcceptedTwice (trace P env rs) := by
  intro pre mid post e₁ e₂ f hresent hok₁
  have hcreates := h pre mid post e₁ e₂ f hresent
  obtain ⟨rs₁, r, rs₂, -, hpre, rfl, -⟩ := Runs.trace_split _ hresent.split
  have hpre' : trace P env rs₁ = pre ++ e₁ :: mid := hpre.symm
  rw [← Bool.not_eq_true]
  intro hok₂
  -- The first event is still on the record of the session that the second one meets.
  have hmem : e₁ ∈ life f.sessionId (trace P env rs₁) := by
    rw [hpre', life, List.mem_filter]
    refine ⟨Runs.mem_sinceReset _ fun e he => hcreates e (List.mem_append_left _ he), ?_⟩
    rw [answers, hok₁, Request.sessionId?, hresent.frame]
    simp
  have hparse := (Request.frame?_eq_some hresent.frame).1
  cases hf : r.frame? with
  | none =>
    obtain ⟨err, herr⟩ := step_malformed P env hf
    change (step P env (storeAfter P env rs₁) r).1.isOk = true at hok₂
    rw [herr] at hok₂
    cases hok₂
  | some g =>
    have hg : g = f := by
      have hparse' := (Request.frame?_eq_some hf).1
      rw [show r.raw = e₁.request.raw from hresent.same, hparse] at hparse'
      exact (Except.ok.inj hparse').symm
    subst hg
    have hhello : r.isHello = false := by
      have hlast := hcreates _ (List.mem_append_right _ (List.mem_singleton.mpr rfl))
      exact (creates_event P env _ hf rfl).symm.trans hlast
    obtain ⟨s, hlookup, hfresh⟩ := answered_fresh hf hhello hok₂
    have hbound := (Bookkeeping.Lived.counters (lived_storeAfter rs₁ hlookup)).2 (counterOf e₁)
      (List.mem_map_of_mem hmem)
    rw [counterOf_eq hresent.frame] at hbound
    exact absurd hfresh (not_lt.mpr hbound)

private theorem accepted_twice {r : Request} {f : Frame} (hf : r.frame? = some f)
    (hok₁ : (step P env ∅ r).1.isOk = true)
    (hok₂ : (step P env (step P env ∅ r).2 r).1.isOk = true)
    (hmem : f.sessionId ∈ (step P env ∅ r).2) : ¬ NoneAcceptedTwice (trace P env [r, r]) := by
  intro h
  have hresent : Resent (trace P env [r, r]) [] [] [] (Runs.event (step P env) ∅ r)
      (Runs.event (step P env) (step P env ∅ r).2 r) f := by
    refine ⟨rfl, hf, rfl, fun e he => ?_⟩
    rw [List.nil_append, List.mem_singleton] at he
    rw [he]
    exact hmem
  have hrejected : (step P env (step P env ∅ r).2 r).1.isOk = false := h _ _ _ _ _ _ hresent hok₁
  rw [hok₂] at hrejected
  cases hrejected

/-- A HELLO sent again over its own session is accepted again. -/
theorem hello_accepted_twice : ¬ NoneAcceptedTwice (sampleTrace [sampleHello 1, sampleHello 1]) := by
  have hkept : ((sampleHello 1).frame?.map fun f => decide (f.sessionId ∈
      (step Primitives.transparent sampleEnv ∅ (sampleHello 1)).2)) = some true := by
    decide +kernel
  obtain ⟨f, hf, hmem⟩ := Option.map_eq_some_iff.mp hkept
  exact accepted_twice hf (by decide +kernel) (by decide +kernel) (of_decide_eq_true hmem)

theorem noneAcrossHello_of_tail {e₀ : Event} {tl : List Event}
    (h : ∀ e ∈ tl, e.request.isHello = false) : NoneAcrossHello (e₀ :: tl) := by
  intro pre mid post e₁ e₂ f hresent e he
  have htail : e ∈ tl := by
    have hsplit := hresent.split
    have hin : e ∈ mid ++ e₂ :: post := by
      rcases List.mem_append.mp he with he | he
      · exact List.mem_append_left _ he
      · exact List.mem_append_right _ (List.mem_singleton.mp he ▸ List.mem_cons_self)
    cases pre with
    | nil =>
      rw [List.nil_append, List.cons_append, List.cons.injEq] at hsplit
      exact hsplit.2 ▸ hin
    | cons a pre =>
      rw [List.cons_append, List.cons_append, List.cons.injEq, List.append_assoc] at hsplit
      exact hsplit.2 ▸ List.mem_append_right _ (List.mem_cons_of_mem _ hin)
  rw [creates, h e htail, Bool.false_and]

/-- An honest start with its CLIENT_PROOF_1 replayed. -/
theorem none_accepted_twice_run : NoneAcceptedTwice (sampleTrace
    [sampleHello 1, sampleExchange 2 (zeros 32), sampleExchange 2 (zeros 32)]) := by
  refine none_accepted_twice Primitives.transparent sampleEnv _ (noneAcrossHello_of_tail ?_)
  intro e he
  rcases List.mem_cons.mp he with rfl | he
  · rfl
  · rw [List.mem_singleton.mp he]
    rfl

end Replay

end RankGate.Handlers.Creation
