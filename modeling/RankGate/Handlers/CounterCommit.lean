/- Module: RankGate/Handlers/CounterCommit
   source: server/app/challenge_logic.py (handle_exchange, handle_finalize), server/app/sessions.py
   digest: The counter is taken in before the MAC is checked: which hostile frames lock the client out. -/

import RankGate.Handlers.Bookkeeping

set_option autoImplicit false
set_option relaxedAutoImplicit false

namespace RankGate.Handlers.CounterCommit

open ByteCodec (Bytes zeros)
open Effects (exec)
open RankGate.Crypto (Primitives)
open RankGate.Server
open RankGate.Server.Config (Env Failure)
open RankGate.Server.Protocol (Frame)
open RankGate.Server.Sessions (Keys Session SessionStore)
open RankGate.Server.ChallengeLogic
open Specs
open Requests
open Ledger

/-- A well-formed frame of the session, at /exchange or /finalize, whose MAC does not verify. -/
structure Hostile (P : Primitives) (sid : Bytes) (s : Session) (keys : Keys) (q : Request) (g : Frame) :
    Prop where
  endpoint : q.isHello = false
  parse : Frame.parse q.raw = .ok g
  sessionId : g.sessionId = sid
  mac : (restoreTranscript s.transcriptState).macFor P.toHashes keys.mac g.preMacBytes ≠
    g.transcriptMac

section Hostile

variable {P : Primitives} {env : Env} {store : SessionStore} {sid : Bytes} {s : Session}
  {keys : Keys}

def withCounter (s : Session) (counter : Nat) : Session := { s with clientCounter := counter }

theorem body_hostile (env : Env) {q : Request} {g : Frame} {c : Nat} (hq : Hostile P sid s keys q g)
    (hkeys : s.keys = some keys) (hwf : g.WellFormed)
    (hs : c < g.counter → s.serverCounter + 1 < 2 ^ 64) :
    (∃ e, (exec (body P env g q) (withCounter s c)).1 = .error e) ∧
      (exec (body P env g q) (withCounter s c)).2 = withCounter s (max c g.counter) := by
  have herror : ∃ e, (exec (body P env g q) (withCounter s c)).1 = .error e := by
    cases q with
    | hello d raw => cases hq.endpoint
    | exchange d raw =>
      change ∃ e, (exec (exchangeBody P env d g) (withCounter s c)).1 = .error e
      rw [exec_exchangeBody P env d g (s := withCounter s c) hs]
      cases hcheck : exchangeCheck P env g (withCounter s c) with
      | error e => exact ⟨e, rfl⟩
      | ok r =>
        obtain ⟨k, t, p⟩ := r
        have hpassed := exchangeCheck_ok P env g hwf hcheck
        have hk : k = keys := Option.some.inj (hpassed.hasKeys.symm.trans hkeys)
        exact absurd hpassed.mac (hk ▸ hq.mac)
    | finalize d raw =>
      change ∃ e, (exec (finalizeBody P d g) (withCounter s c)).1 = .error e
      rw [exec_finalizeBody P d g (s := withCounter s c) hs]
      cases hcheck : finalizeCheck P g (withCounter s c) with
      | error e => exact ⟨e, rfl⟩
      | ok r =>
        obtain ⟨k, t⟩ := r
        have hpassed := finalizeCheck_ok P g hwf hcheck
        have hk : k = keys := Option.some.inj (hpassed.hasKeys.symm.trans hkeys)
        exact absurd hpassed.mac (hk ▸ hq.mac)
  obtain ⟨e, he⟩ := herror
  exact ⟨⟨e, he⟩, Bookkeeping.body_refused (s := withCounter s c) hq.endpoint hs he⟩

/-- The counter the session stands at after the hostile frames that got as far as their endpoint. -/
def raised (c : Nat) (qs : List Request) : Nat :=
  qs.foldl (fun c q => match q.frame? with
    | some g => max c g.counter
    | none => c) c

theorem raised_lt_iff {c bound : Nat} {qs : List Request} :
    raised c qs < bound ↔ c < bound ∧ ∀ q ∈ qs, ∀ g, q.frame? = some g → g.counter < bound := by
  induction qs generalizing c with
  | nil => simp [raised]
  | cons q qs ih =>
    rw [raised, List.foldl_cons, ← raised, ih, List.forall_mem_cons]
    cases hf : q.frame? with
    | none => simp
    | some g =>
      simp only [max_lt_iff, Option.some.injEq, forall_eq']
      exact and_assoc

/-- A run of hostile frames: all refused, and nothing moved but the counter. -/
theorem hostile_run (env : Env) {qs : List Request} {c : Nat} (hkeys : s.keys = some keys)
    (hle : s.serverCounter ≤ c) (hlookup : store.lookup sid = some (withCounter s c))
    (hqs : ∀ q ∈ qs, ∃ g, Hostile P sid s keys q g) :
    (∀ e ∈ Runs.trace (step P env) store qs, e.outcome.isOk = false) ∧
      (Runs.final (step P env) store qs).lookup sid = some (withCounter s (raised c qs)) := by
  induction qs generalizing store c with
  | nil => exact ⟨fun e he => (nomatch he), hlookup⟩
  | cons q qs ih =>
    obtain ⟨g, hq⟩ := hqs q List.mem_cons_self
    have hrest := fun p hp => hqs p (List.mem_cons_of_mem _ hp)
    have hwf := (Frame.parse_ok hq.parse).1
    cases hf : q.frame? with
    | none =>
      obtain ⟨e, he⟩ := step_malformed P env hf
      have hsame : (step P env store q).2 = store := by rw [he]
      obtain ⟨hall, hfinal⟩ := ih hle (hsame.symm ▸ hlookup) hrest
      rw [Runs.trace, List.forall_mem_cons, raised, List.foldl_cons, hf]
      refine ⟨⟨?_, hall⟩, hfinal⟩
      change (step P env store q).1.isOk = false
      rw [he]
      rfl
    | some g' =>
      have hg : g' = g := Except.ok.inj ((Request.frame?_eq_some hf).1.symm.trans hq.parse)
      subst hg
      obtain rfl := hq.sessionId
      have hcounter := hwf.counter
      obtain ⟨⟨e, he⟩, hafter⟩ := body_hostile env (c := c) hq hkeys hwf (by omega)
      have hself := lookup_known_self P env hf hq.endpoint hlookup
      rw [hafter] at hself
      obtain ⟨hall, hfinal⟩ := ih (hle.trans (le_max_left _ _)) hself hrest
      rw [Runs.trace, List.forall_mem_cons, raised, List.foldl_cons, hf]
      refine ⟨⟨?_, hall⟩, hfinal⟩
      change (step P env store q).1.isOk = false
      rw [step_known P env hf hq.endpoint hlookup, he]
      rfl

theorem body_withCounter (P : Primitives) (env : Env) {r : Request} {f : Frame} {c : Nat}
    (hr : r.isHello = false) (hs : s.clientCounter < f.counter) (hc : c < f.counter) :
    exec (body P env f r) (withCounter s c) = exec (body P env f r) s := by
  cases r with
  | hello d raw => cases hr
  | exchange d raw =>
    change exec (exchangeBody P env d f) (withCounter s c) = exec (exchangeBody P env d f) s
    unfold exchangeBody
    rw [Sessions.exec_accept_fresh (s := withCounter s c) hc, Sessions.exec_accept_fresh hs]
    rfl
  | finalize d raw =>
    change exec (finalizeBody P d f) (withCounter s c) = exec (finalizeBody P d f) s
    unfold finalizeBody
    rw [Sessions.exec_accept_fresh (s := withCounter s c) hc, Sessions.exec_accept_fresh hs]
    rfl

end Hostile

/-- The hostile frames are refused one by one, and then the honest request gets the response, and
leaves the session, it would have without them. -/
def Harmless (P : Primitives) (env : Env) (store : SessionStore) (sid : Bytes) (qs : List Request)
    (r : Request) : Prop :=
  (∀ e ∈ Runs.trace (step P env) store qs, e.outcome.isOk = false) ∧
    (step P env (Runs.final (step P env) store qs) r).1 = (step P env store r).1 ∧
    (step P env (Runs.final (step P env) store qs) r).2.lookup sid =
      (step P env store r).2.lookup sid

/-- Frames with a failing MAC are harmless to an honest request exactly when every one of them that
fits its endpoint has a smaller counter than the honest frame. -/
theorem hostile_harmless_iff (P : Primitives) (env : Env) (rs : List Request) (sid : Bytes)
    (s : Session) (keys : Keys) (qs : List Request) (r : Request) (f : Frame) (response : Bytes)
    (hlookup : (storeAfter P env rs).lookup sid = some s) (hkeys : s.keys = some keys)
    (hqs : ∀ q ∈ qs, ∃ g, Hostile P sid s keys q g)
    (hr : r.isHello = false) (hf : r.frame? = some f) (hid : f.sessionId = sid)
    (hok : (step P env (storeAfter P env rs) r).1 = .ok response) :
    Harmless P env (storeAfter P env rs) sid qs r ↔
      ∀ q ∈ qs, ∀ g, q.frame? = some g → g.counter < f.counter := by
  subst hid
  have hlived := lived_storeAfter rs hlookup
  have hstep := step_known P env hf hr hlookup
  have hfresh : s.clientCounter < f.counter := by
    by_contra hstale
    rw [hstep, Bookkeeping.body_stale hr hstale] at hok
    cases hok
  obtain ⟨hall, hfinal⟩ := hostile_run env (c := s.clientCounter) hkeys
    hlived.serverCounter_le hlookup hqs
  have hstep' := step_known P env hf hr hfinal
  have hself' := lookup_known_self P env hf hr hfinal
  have hraised : raised s.clientCounter qs < f.counter ↔
      ∀ q ∈ qs, ∀ g, q.frame? = some g → g.counter < f.counter :=
    raised_lt_iff.trans (and_iff_right hfresh)
  rw [← hraised]
  constructor
  · rintro ⟨-, hsame, -⟩
    by_contra hstale
    rw [hok, hstep', Bookkeeping.body_stale hr hstale] at hsame
    cases hsame
  · intro hlt
    have hbody := body_withCounter P env hr hfresh hlt
    refine ⟨hall, ?_, ?_⟩
    · rw [hstep', hbody, hstep]
    · rw [hself', hbody, lookup_known_self P env hf hr hlookup]

section Sample

private def hostileIn (P : Primitives) (store : SessionStore) (sid : Bytes) (q : Request) : Bool :=
  (store.lookup sid).any fun s => s.keys.any fun keys =>
    match Frame.parse q.raw with
    | .ok g => decide (g.sessionId = sid ∧
        (restoreTranscript s.transcriptState).macFor P.toHashes keys.mac g.preMacBytes ≠
          g.transcriptMac)
    | .error _ => false

private theorem exists_hostile (P : Primitives) (store : SessionStore) (sid : Bytes) {q : Request}
    (hq : q.isHello = false) (h : hostileIn P store sid q = true) :
    ∃ s keys, store.lookup sid = some s ∧ s.keys = some keys ∧ ∃ g, Hostile P sid s keys q g := by
  unfold hostileIn at h
  obtain ⟨s, hs, h⟩ := (Option.any_eq_true _ _).mp h
  obtain ⟨keys, hkeys, h⟩ := (Option.any_eq_true _ _).mp h
  split at h
  · rename_i g hg
    obtain ⟨hid, hmac⟩ := of_decide_eq_true h
    exact ⟨s, keys, hs, hkeys, g, hq, hg, hid, hmac⟩
  · cases h

private theorem honest_isOk : (step Primitives.transparent sampleEnv (sampleStore [sampleHello 1])
    (sampleExchange 2 (zeros 32))).1.isOk = true := by decide +kernel

/-- One unauthenticated frame with the largest counter, and CLIENT_PROOF_1 is refused. -/
theorem hostile_locks_out :
    (∃ s keys, (sampleStore [sampleHello 1]).lookup (zeros 16) = some s ∧ s.keys = some keys ∧
      ∃ g, Hostile Primitives.transparent (zeros 16) s keys
        (sampleExchange (2 ^ 64 - 1) (1 :: zeros 31)) g) ∧
    (step Primitives.transparent sampleEnv (sampleStore [sampleHello 1])
      (sampleExchange 2 (zeros 32))).1.isOk = true ∧
    ¬ Harmless Primitives.transparent sampleEnv (sampleStore [sampleHello 1]) (zeros 16)
      [sampleExchange (2 ^ 64 - 1) (1 :: zeros 31)] (sampleExchange 2 (zeros 32)) := by
  refine ⟨exists_hostile _ _ _ rfl (by decide +kernel), honest_isOk, ?_⟩
  rintro ⟨-, hsame, -⟩
  have hok := congrArg Except.isOk hsame
  rw [honest_isOk] at hok
  exact absurd hok (by decide +kernel)

/-- With a counter that the session has already passed, the same frame does no harm. -/
theorem hostile_harmless_run :
    Harmless Primitives.transparent sampleEnv (sampleStore [sampleHello 1]) (zeros 16)
      [sampleExchange 1 (1 :: zeros 31)] (sampleExchange 2 (zeros 32)) := by
  have hok := honest_isOk
  have hframe : ((sampleExchange 2 (zeros 32)).frame?.map fun f =>
      decide (f.sessionId = zeros 16 ∧ f.counter = 2)) = some true := by decide +kernel
  have hcounter : ((sampleExchange 1 (1 :: zeros 31)).frame?.map fun g => g.counter) = some 1 := by
    decide +kernel
  obtain ⟨s, keys, hlookup, hkeys, hhostile⟩ := exists_hostile Primitives.transparent
    (sampleStore [sampleHello 1]) (zeros 16)
    (q := sampleExchange 1 (1 :: zeros 31)) rfl (by decide +kernel)
  obtain ⟨f, hf, hdecide⟩ := Option.map_eq_some_iff.mp hframe
  obtain ⟨hid, hf2⟩ := of_decide_eq_true hdecide
  cases hresponse : (step Primitives.transparent sampleEnv (sampleStore [sampleHello 1])
      (sampleExchange 2 (zeros 32))).1 with
  | error e =>
    rw [hresponse] at hok
    cases hok
  | ok response =>
    refine (hostile_harmless_iff Primitives.transparent sampleEnv [sampleHello 1] (zeros 16) s keys
      _ _ f response hlookup hkeys (fun q hq => List.mem_singleton.mp hq ▸ hhostile) rfl hf hid
      hresponse).mpr ?_
    intro q hq g hg
    rw [List.mem_singleton.mp hq] at hg
    rw [hg] at hcounter
    have hg1 : g.counter = 1 := Option.some.inj hcounter
    rw [hf2, hg1]
    decide

end Sample

end RankGate.Handlers.CounterCommit
