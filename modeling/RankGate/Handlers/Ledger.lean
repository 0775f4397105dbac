/- Module: RankGate/Handlers/Ledger
   source: server/app/challenge_logic.py, server/app/sessions.py
   digest: Every session of every run is the product of the accepted events since its creation. -/

import RankGate.Handlers.Requests

set_option autoImplicit false
set_option relaxedAutoImplicit false

namespace RankGate.Handlers.Ledger

open ByteCodec (Bytes)
open Effects (exec)
open RankGate.Crypto (Primitives)
open RankGate.Server
open RankGate.Server.Config (Env)
open RankGate.Server.Protocol (Frame Transcript)
open RankGate.Server.Sessions (Keys Session SessionStore)
open RankGate.Server.ChallengeLogic
open Specs
open Requests

variable (P : Primitives) (env : Env)

/-- The session came about through these accepted events; every event carries the session it met
and the one it left, and refused frames in between have moved nothing but the client counter. -/
inductive Lived (sid : Bytes) : List Event → Session → Prop
  | halfOpen {s : Session} (hid : s.sessionId = sid) (hkeys : s.keys = none)
      (hproof : s.proof1Ok = false) (hserver : s.serverCounter = 0)
      (hcounter : s.clientCounter < 2 ^ 64) : Lived sid [] s
  | hello {e : Event} {d : HelloDraws} {raw : Bytes} {f : Frame} {t : Transcript}
      {clientPub usernameNorm shared : Bytes} (hreq : e.request = .hello d raw)
      (hframe : e.request.frame? = some f) (hid : f.sessionId = sid)
      (hcheck : helloCheck P d f { sessionId := sid } = .ok (t, clientPub, usernameNorm, shared))
      (houtcome : e.outcome = .ok (challengeFrame P env d f t 1).bytes)
      (hafter : e.after.lookup sid = some
        (established P env d f { sessionId := sid } t clientPub usernameNorm shared)) :
      Lived sid [e] (established P env d f { sessionId := sid } t clientPub usernameNorm shared)
  | exchange {es : List Event} {s : Session} {e : Event} {d : ExchangeDraws} {raw : Bytes}
      {f : Frame} {keys : Keys} {t : Transcript} {p : Proof1Payload} (h : Lived sid es s)
      (hreq : e.request = .exchange d raw) (hframe : e.request.frame? = some f)
      (hid : f.sessionId = sid) (hbefore : e.before.lookup sid = some s)
      (hpassed : Proof1Passed P env f s keys t p)
      (houtcome : e.outcome = .ok (serverProofFrame P d s keys t p.vm.vmDigest).bytes)
      (hafter : e.after.lookup sid = some (exchanged P d f s keys t p.vm.vmDigest)) :
      Lived sid (es ++ [e]) (exchanged P d f s keys t p.vm.vmDigest)
  | finalize {es : List Event} {s : Session} {e : Event} {d : FinalizeDraws} {raw : Bytes}
      {f : Frame} {keys : Keys} {t : Transcript} (h : Lived sid es s)
      (hreq : e.request = .finalize d raw) (hframe : e.request.frame? = some f)
      (hid : f.sessionId = sid) (hbefore : e.before.lookup sid = some s)
      (hpassed : Proof2Passed P f s keys t)
      (houtcome : e.outcome = .ok (sealedFlagFrame P d s keys t).bytes)
      (hafter : e.after.lookup sid = some (finalized P d f s keys t)) :
      Lived sid (es ++ [e]) (finalized P d f s keys t)
  | refused {es : List Event} {s : Session} {counter : Nat} (hcounter : counter < 2 ^ 64)
      (h : Lived sid es s) : Lived sid es (bump s counter)

variable {P env} {sid : Bytes} {es : List Event} {s : Session}

theorem Lived.sessionId (h : Lived P env sid es s) : s.sessionId = sid := by
  induction h with
  | halfOpen hid => exact hid
  | hello => rfl
  | exchange _ _ _ _ _ _ _ _ ih => exact ih
  | finalize _ _ _ _ _ _ _ _ ih => exact ih
  | refused _ _ ih => exact ih

theorem Lived.serverCounter (h : Lived P env sid es s) : s.serverCounter = es.length := by
  induction h with
  | halfOpen _ _ _ hserver _ => exact hserver
  | hello => rfl
  | exchange _ _ _ _ _ _ _ _ ih => exact (congrArg (· + 1) ih).trans (by rw [List.length_append]; rfl)
  | finalize _ _ _ _ _ _ _ _ ih => exact (congrArg (· + 1) ih).trans (by rw [List.length_append]; rfl)
  | refused _ _ ih => exact ih

theorem Lived.serverCounter_le (h : Lived P env sid es s) :
    s.serverCounter ≤ s.clientCounter := by
  induction h with
  | halfOpen _ _ _ hserver _ => exact hserver.symm ▸ Nat.zero_le _
  | hello _ _ _ hcheck => exact (helloCheck_ok _ _ _ hcheck).1
  | exchange _ _ _ _ _ hpassed _ _ ih =>
    have hfresh := hpassed.fresh
    change _ + 1 ≤ Frame.counter _
    omega
  | finalize _ _ _ _ _ hpassed _ _ ih =>
    have hfresh := hpassed.fresh
    change _ + 1 ≤ Frame.counter _
    omega
  | refused _ _ ih => exact ih.trans (le_max_left _ _)

theorem Lived.clientCounter_lt (h : Lived P env sid es s) : s.clientCounter < 2 ^ 64 := by
  induction h with
  | halfOpen _ _ _ _ hcounter => exact hcounter
  | hello _ hframe => exact (Request.wellFormed hframe).counter
  | exchange _ _ hframe => exact (Request.wellFormed hframe).counter
  | finalize _ _ hframe => exact (Request.wellFormed hframe).counter
  | refused hcounter _ ih => exact max_lt ih hcounter

/-- The next server counter always fits its eight bytes. -/
theorem Lived.serverCounter_lt (h : Lived P env sid es s) {f : Frame} (hf : f.WellFormed)
    (hfresh : s.clientCounter < f.counter) : s.serverCounter + 1 < 2 ^ 64 := by
  have hle := h.serverCounter_le
  have hcounter := hf.counter
  omega

section Step

variable {store : SessionStore} {r : Request} {f : Frame}

theorem answers_event_ok {response : Bytes} (hf : r.frame? = some f) (hid : f.sessionId = sid)
    (hout : (step P env store r).1 = .ok response) :
    answers sid (Runs.event (step P env) store r) = true := by
  have hsid : r.sessionId? = some sid := by rw [Request.sessionId?, hf, Option.map_some, hid]
  change ((step P env store r).1.isOk && decide (r.sessionId? = some sid)) = true
  rw [hout, hsid, decide_eq_true rfl]
  rfl

theorem answers_event_error {e : Config.Failure} (hout : (step P env store r).1 = .error e) :
    answers sid (Runs.event (step P env) store r) = false := by
  change ((step P env store r).1.isOk && _) = false
  rw [hout]
  rfl

theorem silent_event (P : Primitives) (env : Env) (store : SessionStore)
    (h : r.sessionId? ≠ some sid) :
    creates sid (Runs.event (step P env) store r) = false ∧
      answers sid (Runs.event (step P env) store r) = false := by
  have hsid : decide (r.sessionId? = some sid) = false := decide_eq_false h
  constructor
  · change (r.isHello && decide (r.sessionId? = some sid)) = false
    rw [hsid, Bool.and_false]
  · change (_ && decide (r.sessionId? = some sid)) = false
    rw [hsid, Bool.and_false]

theorem creates_event (P : Primitives) (env : Env) (store : SessionStore)
    (hf : r.frame? = some f) (hid : f.sessionId = sid) :
    creates sid (Runs.event (step P env) store r) = r.isHello := by
  have hsid : r.sessionId? = some sid := by rw [Request.sessionId?, hf, Option.map_some, hid]
  change (r.isHello && decide (r.sessionId? = some sid)) = r.isHello
  rw [hsid, decide_eq_true rfl, Bool.and_true]

theorem lived_hello (hf : r.frame? = some f) (hr : r.isHello = true) (hid : f.sessionId = sid)
    (hs : (step P env store r).2.lookup sid = some s) :
    Lived P env sid ([Runs.event (step P env) store r].filter (answers sid)) s := by
  subst hid
  cases r with
  | hello d raw =>
    have hself := lookup_hello_self P env store hf hr
    have hstep := congrArg Prod.fst (step_hello P env store hf hr)
    have hexec := exec_helloBody P env d f (s := { sessionId := f.sessionId })
      (fun _ => by exact (by decide : 0 + 1 < 2 ^ 64))
    change exec (body P env f (.hello d raw)) { sessionId := f.sessionId } = _ at hexec
    rw [hs] at hself
    rw [hexec] at hself hstep
    cases hcheck : helloCheck P d f { sessionId := f.sessionId } with
    | error e =>
      rw [hcheck] at hself hstep
      rw [List.filter_singleton, answers_event_error hstep, cond_false, Option.some.inj hself]
      obtain ⟨hid, hkeys, hproof, hserver, hcounter⟩ :=
        halfOpen_fields P f { sessionId := f.sessionId }
      refine .halfOpen hid hkeys hproof hserver ?_
      rw [hcounter]
      exact max_lt (by exact (by decide : 0 < 2 ^ 64)) (Request.wellFormed hf).counter
    | ok q =>
      obtain ⟨t, clientPub, usernameNorm, shared⟩ := q
      rw [hcheck] at hself hstep
      rw [List.filter_singleton, answers_event_ok hf rfl hstep, cond_true, Option.some.inj hself]
      exact .hello rfl hf rfl hcheck hstep (hs.trans (congrArg some (Option.some.inj hself)))
  | exchange d raw => cases hr
  | finalize d raw => cases hr

theorem lived_known (hlived : Lived P env sid es s) (hf : r.frame? = some f)
    (hr : r.isHello = false) (hid : f.sessionId = sid) (hbefore : store.lookup sid = some s)
    {s' : Session} (hs : (step P env store r).2.lookup sid = some s') :
    Lived P env sid (es ++ [Runs.event (step P env) store r].filter (answers sid)) s' := by
  subst hid
  have hwf := Request.wellFormed hf
  have hself := lookup_known_self P env hf hr hbefore
  have hstep := congrArg Prod.fst (step_known P env hf hr hbefore)
  rw [hs] at hself
  cases r with
  | hello d raw => cases hr
  | exchange d raw =>
    have hexec := exec_exchangeBody P env d f (hlived.serverCounter_lt hwf)
    change exec (body P env f (.exchange d raw)) s = _ at hexec
    rw [hexec] at hself hstep
    cases hcheck : exchangeCheck P env f s with
    | error e =>
      rw [hcheck] at hself hstep
      rw [List.filter_singleton, answers_event_error hstep, cond_false, List.append_nil,
        Option.some.inj hself]
      exact .refused hwf.counter hlived
    | ok q =>
      obtain ⟨keys, t, p⟩ := q
      rw [hcheck] at hself hstep
      rw [List.filter_singleton, answers_event_ok hf rfl hstep, cond_true, Option.some.inj hself]
      exact .exchange hlived rfl hf rfl hbefore (exchangeCheck_ok P env f hwf hcheck) hstep
        (hs.trans (congrArg some (Option.some.inj hself)))
  | finalize d raw =>
    have hexec := exec_finalizeBody P d f (hlived.serverCounter_lt hwf)
    change exec (body P env f (.finalize d raw)) s = _ at hexec
    rw [hexec] at hself hstep
    cases hcheck : finalizeCheck P f s with
    | error e =>
      rw [hcheck] at hself hstep
      rw [List.filter_singleton, answers_event_error hstep, cond_false, List.append_nil,
        Option.some.inj hself]
      exact .refused hwf.counter hlived
    | ok q =>
      obtain ⟨keys, t⟩ := q
      rw [hcheck] at hself hstep
      rw [List.filter_singleton, answers_event_ok hf rfl hstep, cond_true, Option.some.inj hself]
      exact .finalize hlived rfl hf rfl hbefore (finalizeCheck_ok P f hwf hcheck) hstep
        (hs.trans (congrArg some (Option.some.inj hself)))

end Step

theorem lookup_other {store : SessionStore} {r : Request} (h : r.sessionId? ≠ some sid)
    (hs : (step P env store r).2.lookup sid = some s) : store.lookup sid = some s := by
  cases hf : r.frame? with
  | none =>
    obtain ⟨e, he⟩ := step_malformed P env hf
    rwa [he] at hs
  | some f =>
    have hne : sid ≠ f.sessionId := by
      rintro rfl
      exact h (by rw [Request.sessionId?, hf, Option.map_some])
    cases hr : r.isHello with
    | true => exact lookup_hello_ne P env hf hr hne hs
    | false => rwa [lookup_known_ne P env hf hr hne] at hs

/-- The invariant of all runs. -/
theorem lived_storeAfter (rs : List Request) (hs : (storeAfter P env rs).lookup sid = some s) :
    Lived P env sid (life sid (trace P env rs)) s := by
  induction rs using List.reverseRecOn generalizing s with
  | nil => cases hs
  | append_singleton rs r ih =>
    rw [storeAfter_concat] at hs
    rw [trace_concat]
    by_cases hsid : r.sessionId? = some sid
    · obtain ⟨f, hf, hid⟩ := Option.map_eq_some_iff.mp hsid
      have hcreates := creates_event P env (storeAfter P env rs) hf hid
      cases hr : r.isHello with
      | true =>
        rw [life_concat_create _ (hcreates.trans hr)]
        exact lived_hello hf hr hid hs
      | false =>
        rw [life_concat, hcreates, hr, if_neg Bool.false_ne_true]
        cases hbefore : (storeAfter P env rs).lookup sid with
        | none =>
          rw [step_unknown P env hf hr (hid ▸ hbefore), hbefore] at hs
          cases hs
        | some s₀ => exact lived_known (ih hbefore) hf hr hid hbefore hs
    · obtain ⟨hc, ha⟩ := silent_event P env (storeAfter P env rs) hsid
      rw [life_concat_silent _ hc ha]
      exact ih (lookup_other hsid hs)

theorem answered_finalize {rs : List Request} {d : FinalizeDraws} {raw response : Bytes}
    (hout : (step P env (storeAfter P env rs) (.finalize d raw)).1 = .ok response) :
    ∃ f s keys t, (Request.finalize d raw).frame? = some f ∧
      (storeAfter P env rs).lookup f.sessionId = some s ∧ Proof2Passed P f s keys t ∧
      response = (sealedFlagFrame P d s keys t).bytes := by
  obtain ⟨f, hf⟩ := frame_of_answered P env hout
  have hwf := Request.wellFormed hf
  cases hlookup : (storeAfter P env rs).lookup f.sessionId with
  | none =>
    rw [step_unknown P env hf rfl hlookup] at hout
    cases hout
  | some s =>
    rw [step_known P env hf rfl hlookup] at hout
    obtain ⟨keys, t, hcheck, hresponse, -⟩ := finalizeBody_ok P d f
      ((lived_storeAfter rs hlookup).serverCounter_lt hwf) (Prod.ext hout rfl)
    exact ⟨f, s, keys, t, hf, hlookup, finalizeCheck_ok P f hwf hcheck, hresponse⟩

theorem life_of_lookup_none {rs : List Request} {r : Request}
    (h : (storeAfter P env (rs ++ [r])).lookup sid = none) :
    life sid (trace P env (rs ++ [r])) = life sid (trace P env rs) := by
  rw [storeAfter_concat] at h
  rw [trace_concat]
  by_cases hsid : r.sessionId? = some sid
  · obtain ⟨f, hf, hid⟩ := Option.map_eq_some_iff.mp hsid
    subst hid
    have hcreates := creates_event P env (storeAfter P env rs) hf rfl
    cases hr : r.isHello with
    | true =>
      rw [lookup_hello_self P env _ hf hr] at h
      cases h
    | false =>
      cases hbefore : (storeAfter P env rs).lookup f.sessionId with
      | none =>
        have hout := congrArg Prod.fst (step_unknown P env hf hr hbefore)
        exact life_concat_silent _ (hcreates.trans hr) (answers_event_error hout)
      | some s =>
        rw [lookup_known_self P env hf hr hbefore] at h
        cases h
  · obtain ⟨hc, ha⟩ := silent_event P env (storeAfter P env rs) hsid
    exact life_concat_silent _ hc ha

/-- Also of a session that was evicted, or never created, the record is a session's. -/
theorem exists_lived (P : Primitives) (env : Env) (rs : List Request) (sid : Bytes) :
    ∃ s, Lived P env sid (life sid (trace P env rs)) s := by
  induction rs using List.reverseRecOn with
  | nil => exact ⟨{ sessionId := sid }, .halfOpen rfl rfl rfl rfl (by exact (by decide : 0 < 2 ^ 64))⟩
  | append_singleton rs r ih =>
    cases h : (storeAfter P env (rs ++ [r])).lookup sid with
    | none =>
      rw [life_of_lookup_none h]
      exact ih
    | some s => exact ⟨s, lived_storeAfter _ h⟩

end RankGate.Handlers.Ledger
