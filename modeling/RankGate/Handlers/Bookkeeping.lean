/- Module: RankGate/Handlers/Bookkeeping
   source: server/app/challenge_logic.py, server/app/sessions.py
   digest: A session's fields against the record of its accepted frames, and what stands behind a flag. -/

import RankGate.Handlers.Ledger
import RankGate.Wire.TranscriptBinding

set_option autoImplicit false
set_option relaxedAutoImplicit false

namespace RankGate.Handlers.Bookkeeping

open ByteCodec (Bytes)
open Effects (exec)
open RankGate.Crypto (Primitives)
open RankGate.Server
open RankGate.Server.Config (Env)
open RankGate.Server.Protocol (Frame Transcript)
open RankGate.Server.Sessions (Keys Session SessionStore)
open RankGate.Server.ChallengeLogic
open RankGate.Wire.TranscriptBinding (chain)
open Specs
open Requests
open Ledger

/-- The fields only a HELLO writes. -/
structure Handshake where
  sessionId : Bytes
  usernameNorm : Bytes
  clientEphPub : Bytes
  serverEphPub : Bytes
  serverRandom : Bytes
  prk : Bytes
  keys : Option Keys
  salt : Bytes

def handshake (s : Session) : Handshake where
  sessionId := s.sessionId
  usernameNorm := s.usernameNorm
  clientEphPub := s.clientEphPub
  serverEphPub := s.serverEphPub
  serverRandom := s.serverRandom
  prk := s.prk
  keys := s.keys
  salt := s.salt

/-- What went into an accepted HELLO, and what was made of it. -/
structure Opening where
  draws : HelloDraws
  raw : Bytes
  frame : Frame
  transcript : Transcript
  clientPub : Bytes
  usernameNorm : Bytes
  shared : Bytes

section Sessions

variable (P : Primitives) (env : Env) (sid : Bytes)

def Opening.session (o : Opening) : Session :=
  established P env o.draws o.frame { sessionId := sid } o.transcript o.clientPub o.usernameNorm
    o.shared

structure Opening.At (o : Opening) (e : Event) : Prop where
  request : e.request = .hello o.draws o.raw
  frame : e.request.frame? = some o.frame
  sessionId : o.frame.sessionId = sid
  check : helloCheck P o.draws o.frame { sessionId := sid } =
    .ok (o.transcript, o.clientPub, o.usernameNorm, o.shared)
  outcome : e.outcome = .ok (challengeFrame P env o.draws o.frame o.transcript 1).bytes
  after : e.after.lookup sid = some (o.session P env sid)

variable {P env sid} {es : List Event} {s : Session}

theorem Lived.opening (h : Lived P env sid es s) {keys : Keys} (hkeys : s.keys = some keys) :
    ∃ o e rest, es = e :: rest ∧ Opening.At P env sid o e ∧
      handshake s = handshake (o.session P env sid) := by
  induction h with
  | halfOpen _ hnone =>
    rw [hnone] at hkeys
    cases hkeys
  | @hello e d raw f t clientPub usernameNorm shared hreq hframe hid hcheck houtcome hafter =>
    exact ⟨⟨d, raw, f, t, clientPub, usernameNorm, shared⟩, e, [], rfl,
      ⟨hreq, hframe, hid, hcheck, houtcome, hafter⟩, rfl⟩
  | exchange _ _ _ _ _ hpassed _ _ ih =>
    obtain ⟨o, e, rest, rfl, hat, hshake⟩ := ih hkeys
    exact ⟨o, e, _, List.cons_append, hat, hshake⟩
  | finalize _ _ _ _ _ hpassed _ _ ih =>
    obtain ⟨o, e, rest, rfl, hat, hshake⟩ := ih hkeys
    exact ⟨o, e, _, List.cons_append, hat, hshake⟩
  | refused _ _ ih => exact ih hkeys

end Sessions

section Transcript

variable {P : Primitives} {env : Env} {sid : Bytes} {es : List Event} {s : Session}

theorem frames_eq {e : Event} {f : Frame} {response : Bytes} (hframe : e.request.frame? = some f)
    (houtcome : e.outcome = .ok response) : frames e = [f.bytes, response] := by
  rw [frames, houtcome, Request.raw_eq hframe]

theorem flatMap_frames_concat {e : Event} {f : Frame} {response : Bytes}
    (hframe : e.request.frame? = some f) (houtcome : e.outcome = .ok response) :
    (es ++ [e]).flatMap frames = es.flatMap frames ++ [f.bytes] ++ [response] := by
  rw [List.flatMap_append, List.flatMap_singleton, frames_eq hframe houtcome, List.append_assoc]
  rfl

theorem Opening.At.transcript {o : Opening} {e : Event} (h : Opening.At P env sid o e) :
    (o.session P env sid).transcriptState = (chain P.toHashes).state (frames e) := by
  obtain ⟨-, hopen, -⟩ := helloCheck_ok _ _ _ h.check
  obtain ⟨ht, -⟩ := openHello_ok P o.frame (Request.wellFormed h.frame) hopen
  rw [frames_eq h.frame h.outcome, Opening.session, established]
  simp only [ht]
  rfl

theorem Opening.salt (o : Opening) :
    (o.session P env sid).salt = (o.session P env sid).transcriptState := rfl

/-- The transcript is the chain over the frames of the accepted events. -/
theorem Lived.transcript (h : Lived P env sid es s) {keys : Keys} (hkeys : s.keys = some keys) :
    s.transcriptState = (chain P.toHashes).state (es.flatMap frames) := by
  induction h with
  | halfOpen _ hnone =>
    rw [hnone] at hkeys
    cases hkeys
  | @hello e d raw f t clientPub usernameNorm shared hreq hframe hid hcheck houtcome hafter =>
    have hat : Opening.At P env sid ⟨d, raw, f, t, clientPub, usernameNorm, shared⟩ e :=
      ⟨hreq, hframe, hid, hcheck, houtcome, hafter⟩
    rw [List.flatMap_singleton, ← hat.transcript]
    rfl
  | exchange _ _ hframe _ _ hpassed houtcome _ ih =>
    rw [flatMap_frames_concat hframe houtcome, (chain P.toHashes).state_concat,
      (chain P.toHashes).state_concat, ← ih hkeys, exchanged]
    simp only [hpassed.transcript]
    rfl
  | finalize _ _ hframe _ _ hpassed houtcome _ ih =>
    rw [flatMap_frames_concat hframe houtcome, (chain P.toHashes).state_concat,
      (chain P.toHashes).state_concat, ← ih hkeys, finalized]
    simp only [hpassed.transcript]
    rfl
  | refused _ _ ih => exact ih hkeys

end Transcript

section Counters

variable {P : Primitives} {env : Env} {sid : Bytes} {es : List Event} {s : Session}

def counterOf (e : Event) : Nat :=
  match e.request.frame? with
  | some f => f.counter
  | none => 0

theorem counterOf_eq {e : Event} {f : Frame} (h : e.request.frame? = some f) :
    counterOf e = f.counter := by
  rw [counterOf, h]

private theorem pairwise_concat {cs : List Nat} {bound counter : Nat}
    (h : cs.Pairwise (· < ·) ∧ ∀ c ∈ cs, c ≤ bound) (hfresh : bound < counter) :
    (cs ++ [counter]).Pairwise (· < ·) ∧ ∀ c ∈ cs ++ [counter], c ≤ counter := by
  obtain ⟨hsorted, hbound⟩ := h
  constructor
  · rw [List.pairwise_append]
    refine ⟨hsorted, List.pairwise_singleton _ _, ?_⟩
    intro c hc c' hc'
    rw [List.mem_singleton.mp hc']
    exact lt_of_le_of_lt (hbound c hc) hfresh
  · intro c hc
    rcases List.mem_append.mp hc with hc | hc
    · exact (hbound c hc).trans hfresh.le
    · exact (List.mem_singleton.mp hc).le

/-- Accepted counters strictly increase, up to the last one accepted or merely taken in. -/
theorem Lived.counters (h : Lived P env sid es s) :
    (es.map counterOf).Pairwise (· < ·) ∧ ∀ c ∈ es.map counterOf, c ≤ s.clientCounter := by
  induction h with
  | halfOpen => exact ⟨.nil, fun c hc => nomatch hc⟩
  | hello _ hframe =>
    refine ⟨List.pairwise_singleton _ _, fun c hc => ?_⟩
    rw [List.mem_singleton.mp hc, counterOf_eq hframe]
    exact le_rfl
  | exchange _ _ hframe _ _ hpassed _ _ ih =>
    rw [List.map_append, List.map_singleton, counterOf_eq hframe]
    exact pairwise_concat ih hpassed.fresh
  | finalize _ _ hframe _ _ hpassed _ _ ih =>
    rw [List.map_append, List.map_singleton, counterOf_eq hframe]
    exact pairwise_concat ih hpassed.fresh
  | refused _ _ ih => exact ⟨ih.1, fun c hc => (ih.2 c hc).trans (le_max_left _ _)⟩

theorem Lived.proof1 (h : Lived P env sid es s) (hproof : s.proof1Ok = true) :
    ∃ raw ∈ es.flatMap frames, ∃ f, Frame.parse raw = .ok f ∧
      f.messageType = Config.mtClientProof1 := by
  induction h with
  | halfOpen _ _ hfalse =>
    rw [hfalse] at hproof
    cases hproof
  | hello => cases hproof
  | exchange _ hreq hframe _ _ _ houtcome =>
    obtain ⟨hparse, hadmits⟩ := Request.frame?_eq_some hframe
    rw [hreq] at hadmits
    refine ⟨_, ?_, _, hparse, List.mem_singleton.mp hadmits⟩
    rw [flatMap_frames_concat hframe houtcome, Request.raw_eq hframe]
    simp
  | finalize _ _ hframe _ _ hpassed houtcome _ ih =>
    obtain ⟨raw, hmem, f, hf⟩ := ih hpassed.proof1Ok
    refine ⟨raw, ?_, f, hf⟩
    rw [flatMap_frames_concat hframe houtcome]
    exact List.mem_append_left _ (List.mem_append_left _ hmem)
  | refused _ _ ih => exact ih hproof

end Counters

section Rejection

variable {P : Primitives} {env : Env} {store : SessionStore} {sid : Bytes} {s : Session}

theorem body_stale {r : Request} {f : Frame} (hr : r.isHello = false)
    (hstale : ¬ s.clientCounter < f.counter) :
    (exec (body P env f r) s).1 =
      .error (.protocolError "replay" "non-monotonic client counter") := by
  cases r with
  | hello d raw => cases hr
  | exchange d raw => exact congrArg Prod.fst (Sessions.exec_accept_stale hstale)
  | finalize d raw => exact congrArg Prod.fst (Sessions.exec_accept_stale hstale)

theorem body_refused {r : Request} {f : Frame} (hr : r.isHello = false)
    (hs : s.clientCounter < f.counter → s.serverCounter + 1 < 2 ^ 64) {e : Config.Failure}
    (h : (exec (body P env f r) s).1 = .error e) :
    (exec (body P env f r) s).2 = bump s f.counter := by
  cases r with
  | hello d raw => cases hr
  | exchange d raw =>
    change (exec (exchangeBody P env d f) s).1 = _ at h
    change (exec (exchangeBody P env d f) s).2 = _
    rw [exec_exchangeBody P env d f hs] at h ⊢
    cases hcheck : exchangeCheck P env f s with
    | error e => rfl
    | ok q => rw [hcheck] at h; cases h
  | finalize d raw =>
    change (exec (finalizeBody P d f) s).1 = _ at h
    change (exec (finalizeBody P d f) s).2 = _
    rw [exec_finalizeBody P d f hs] at h ⊢
    cases hcheck : finalizeCheck P f s with
    | error e => rfl
    | ok q => rw [hcheck] at h; cases h

theorem lookup_refused {r : Request} (hr : r.isHello = false) {e : Config.Failure}
    (h : (step P env store r).1 = .error e)
    (hs : ∀ f, r.frame? = some f → store.lookup f.sessionId = some s →
      s.clientCounter < f.counter → s.serverCounter + 1 < 2 ^ 64)
    (hlookup : store.lookup sid = some s) :
    ∃ c, (step P env store r).2.lookup sid = some { s with clientCounter := c } ∧
      (r.sessionId? ≠ some sid → c = s.clientCounter) := by
  cases hf : r.frame? with
  | none =>
    obtain ⟨e, he⟩ := step_malformed P env hf
    rw [he]
    exact ⟨s.clientCounter, hlookup, fun _ => rfl⟩
  | some f =>
    by_cases hid : sid = f.sessionId
    · subst hid
      have hself := lookup_known_self P env hf hr hlookup
      rw [step_known P env hf hr hlookup] at h
      rw [hself, body_refused hr (hs f hf hlookup) h]
      exact ⟨_, rfl, fun hne => absurd (by rw [Request.sessionId?, hf]; rfl) hne⟩
    · exact ⟨s.clientCounter, (lookup_known_ne P env hf hr hid).trans hlookup, fun _ => rfl⟩

theorem lookup_refused_none {r : Request} (hr : r.isHello = false)
    (hlookup : store.lookup sid = none) : (step P env store r).2.lookup sid = none := by
  cases hf : r.frame? with
  | none =>
    obtain ⟨e, he⟩ := step_malformed P env hf
    rwa [he]
  | some f =>
    by_cases hid : sid = f.sessionId
    · rwa [step_unknown P env hf hr (hid ▸ hlookup)]
    · exact (lookup_known_ne P env hf hr hid).trans hlookup

end Rejection

/-- In every store a run reaches, every session with keys is the summary of its accepted frames; and
a refused exchange or finalize changes at most the client counter of the session it names. -/
theorem session_bookkeeping (P : Primitives) (env : Env) (rs : List Request) :
    (∀ sid s keys, (storeAfter P env rs).lookup sid = some s → s.keys = some keys →
      s.transcriptState =
        (chain P.toHashes).state ((life sid (trace P env rs)).flatMap frames) ∧
      s.salt = (chain P.toHashes).state (((life sid (trace P env rs)).flatMap frames).take 2) ∧
      (∃ d raw shared rest, (life sid (trace P env rs)).map Runs.Event.request =
          .hello d raw :: rest ∧
        P.x25519Shared d.serverPriv.val s.clientEphPub = some shared ∧
        deriveKeys P.toHashes (CryptoBox.hkdfExtract P.toHashes s.salt shared) = .ok keys) ∧
      s.serverCounter = (life sid (trace P env rs)).length ∧
      s.serverCounter ≤ s.clientCounter ∧ s.clientCounter < 2 ^ 64 ∧
      ((life sid (trace P env rs)).map counterOf).Pairwise (· < ·) ∧
      (∀ c ∈ (life sid (trace P env rs)).map counterOf, c ≤ s.clientCounter) ∧
      (s.proof1Ok = true → ∃ raw ∈ (life sid (trace P env rs)).flatMap frames,
        ∃ f, Frame.parse raw = .ok f ∧ f.messageType = Config.mtClientProof1)) ∧
    (∀ r e, r.isHello = false → (step P env (storeAfter P env rs) r).1 = .error e →
      ∀ sid, ((storeAfter P env rs).lookup sid = none →
          (step P env (storeAfter P env rs) r).2.lookup sid = none) ∧
        ∀ s, (storeAfter P env rs).lookup sid = some s →
          ∃ c, (step P env (storeAfter P env rs) r).2.lookup sid =
              some { s with clientCounter := c } ∧
            (r.sessionId? ≠ some sid → c = s.clientCounter)) := by
  constructor
  · intro sid s keys hlookup hkeys
    have hlived := lived_storeAfter rs hlookup
    obtain ⟨o, e, rest, hlife, hat, hshake⟩ := Lived.opening hlived hkeys
    have hsalt : s.salt = (chain P.toHashes).state (frames e) := by
      rw [← hat.transcript, ← Opening.salt]
      exact congrArg Handshake.salt hshake
    have htake : ((life sid (trace P env rs)).flatMap frames).take 2 = frames e := by
      rw [hlife, List.flatMap_cons, frames_eq hat.frame hat.outcome]
      rfl
    obtain ⟨-, -, hshared⟩ := helloCheck_ok _ _ _ hat.check
    refine ⟨Lived.transcript hlived hkeys, htake.symm ▸ hsalt, ?_, hlived.serverCounter,
      hlived.serverCounter_le, hlived.clientCounter_lt, (Lived.counters hlived).1,
      (Lived.counters hlived).2, Lived.proof1 hlived⟩
    refine ⟨o.draws, o.raw, o.shared, rest.map Runs.Event.request, ?_, ?_, ?_⟩
    · rw [hlife, List.map_cons, hat.request]
    · rw [show s.clientEphPub = o.clientPub from congrArg Handshake.clientEphPub hshake]
      exact hshared
    · have hkeysOf : some keys = (o.session P env sid).keys :=
        hkeys.symm.trans (congrArg Handshake.keys hshake)
      rw [deriveKeys_eq, show s.salt = (o.session P env sid).salt from
        congrArg Handshake.salt hshake]
      exact congrArg Except.ok (Option.some.inj hkeysOf).symm
  · intro r e hr h sid
    refine ⟨lookup_refused_none hr, fun s hlookup => ?_⟩
    refine lookup_refused hr h (fun f hf hsame => ?_) hlookup
    exact (lived_storeAfter rs hsame).serverCounter_lt (Request.wellFormed hf)

end RankGate.Handlers.Bookkeeping
