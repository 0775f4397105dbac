/- Module: RankGate/Handlers/FlagGate
   source: server/app/challenge_logic.py, server/app/verifier.py
   digest: No flag leaves the server without a HELLO, a full proof of stages 2 to 4, and a second proof. -/

import RankGate.Handlers.Bookkeeping

set_option autoImplicit false
set_option relaxedAutoImplicit false

namespace RankGate.Handlers.FlagGate

open ByteCodec (Bytes BytesN zeros)
open Effects (exec)
open RankGate.Crypto (Primitives)
open RankGate.Server
open RankGate.Server.Config (Env)
open RankGate.Server.Protocol (Frame Transcript)
open RankGate.Server.Sessions (Keys Session SessionStore)
open RankGate.Server.ChallengeLogic
open Specs
open Requests
open Ledger
open Bookkeeping (Opening handshake)

/-- What went into an accepted CLIENT_PROOF_1: the session it met and what was read off the frame. -/
structure Exchange where
  draws : ExchangeDraws
  raw : Bytes
  frame : Frame
  met : Session
  keys : Keys
  transcript : Transcript
  payload : Proof1Payload

section Latest

variable (P : Primitives) (env : Env) (sid : Bytes)

def Exchange.session (x : Exchange) : Session :=
  exchanged P x.draws x.frame x.met x.keys x.transcript x.payload.vm.vmDigest

/-- The event is this exchange, and the session it met passed it through stages 2 to 4. -/
structure Exchange.At (x : Exchange) (e : Event) : Prop where
  request : e.request = .exchange x.draws x.raw
  frame : e.request.frame? = some x.frame
  sessionId : x.frame.sessionId = sid
  before : e.before.lookup sid = some x.met
  passed : Proof1Passed P env x.frame x.met x.keys x.transcript x.payload
  outcome : e.outcome.isOk = true
  after : e.after.lookup sid = some (x.session P)

def challenge (s : Session) : Bytes × Bytes := (s.serverChallenge2, s.vmDigest)

variable {P env sid} {es : List Event} {s : Session}

/-- Behind the flag for stage 1 stands an exchange, and the latest one wrote what stage 6 reads. -/
theorem latest_exchange (h : Lived P env sid es s) (hproof : s.proof1Ok = true) :
    ∃ x e early late, es = early ++ e :: late ∧ Exchange.At P env sid x e ∧
      Lived P env sid early x.met ∧ (∀ a ∈ late, a.request.isExchange = false) ∧
      challenge s = challenge (x.session P) := by
  induction h with
  | halfOpen _ _ hfalse =>
    rw [hfalse] at hproof
    cases hproof
  | hello => cases hproof
  | @exchange es s e d raw f keys t p h hreq hframe hid hbefore hpassed houtcome hafter =>
    refine ⟨⟨d, raw, f, s, keys, t, p⟩, e, es, [], rfl, ?_, h, (fun a ha => nomatch ha), rfl⟩
    exact ⟨hreq, hframe, hid, hbefore, hpassed, by rw [houtcome]; rfl, hafter⟩
  | @finalize es s e d raw f keys t h hreq hframe hid hbefore hpassed houtcome hafter ih =>
    obtain ⟨x, a, early, late, rfl, hat, hearly, hlate, hsame⟩ := ih hpassed.proof1Ok
    refine ⟨x, a, early, late ++ [e], by rw [List.append_assoc]; rfl, hat, hearly, ?_, hsame⟩
    intro b hb
    rcases List.mem_append.mp hb with hb | hb
    · exact hlate b hb
    · rw [List.mem_singleton.mp hb, hreq]
      rfl
  | refused _ _ ih => exact ih hproof

end Latest

/-- What has to stand behind an answer to CLIENT_PROOF_2: since the id was created, an accepted HELLO
and after it an exchange that met the session of that HELLO and passed stages 2, 4 and 3 on its
fields; and a second proof over what that HELLO and the latest exchange recorded. -/
def Backed (P : Primitives) (env : Env) (past : List Event) (e : Event) : Prop :=
  ∃ (f : Frame) (o : Opening) (x : Exchange) (hello exchange : Event) (mid late : List Event),
    e.request.frame? = some f ∧
    life f.sessionId past = hello :: (mid ++ exchange :: late) ∧
    o.At P env f.sessionId hello ∧
    x.At P env f.sessionId exchange ∧
    (∀ a ∈ late, a.request.isExchange = false) ∧
    handshake x.met = handshake (o.session P env f.sessionId) ∧
    CryptoBox.aeadDecrypt P x.keys.c2s f.nonce f.encryptedPayload f.authTag f.headerBytes =
      .ok (Verifier.computeProof2 P.toHashes x.keys.proof2 (x.session P).serverChallenge2
        (o.session P env f.sessionId).serverRandom (o.session P env f.sessionId).serverEphPub
        (x.session P).vmDigest (o.session P env f.sessionId).salt)

theorem flag_gate (P : Primitives) (env : Env) (rs : List Request) (pre post : List Event)
    (e : Event) (d : FinalizeDraws) (raw response : Bytes)
    (htrace : trace P env rs = pre ++ e :: post) (hrequest : e.request = .finalize d raw)
    (hresponse : e.outcome = .ok response) : Backed P env pre e := by
  obtain ⟨rs₁, r, rs₂, -, rfl, rfl, -⟩ := Runs.trace_split _ htrace
  obtain rfl : r = .finalize d raw := hrequest
  obtain ⟨f, s, keys, t, hf, hlookup, hpassed, -⟩ := answered_finalize hresponse
  have hlived := lived_storeAfter rs₁ hlookup
  obtain ⟨o, hello, rest, hlife, hat, hshake⟩ :=
    Bookkeeping.Lived.opening hlived hpassed.hasKeys
  obtain ⟨x, exchange, early, late, hsplit, hxat, hearly, hlate, hchallenge⟩ :=
    latest_exchange hlived hpassed.proof1Ok
  obtain ⟨o', hello', mid, rfl, hat', hshake'⟩ :=
    Bookkeeping.Lived.opening hearly hxat.passed.hasKeys
  -- The HELLO behind the exchange and the HELLO behind the session are one event.
  have hsame := hsplit
  rw [hlife, List.cons_append, List.cons.injEq] at hsame
  obtain ⟨rfl, rfl⟩ := hsame
  have hopened : o'.session P env f.sessionId = o.session P env f.sessionId :=
    Option.some.inj (hat'.after.symm.trans hat.after)
  rw [hopened] at hshake'
  have hkeys : keys = x.keys := by
    have hk : x.met.keys = s.keys :=
      (congrArg Bookkeeping.Handshake.keys hshake').trans
        (congrArg Bookkeeping.Handshake.keys hshake).symm
    rw [hxat.passed.hasKeys, hpassed.hasKeys] at hk
    exact (Option.some.inj hk).symm
  have hproof2 := hpassed.proof2
  rw [hkeys, show s.serverChallenge2 = (x.session P).serverChallenge2 from
      congrArg Prod.fst hchallenge,
    show s.vmDigest = (x.session P).vmDigest from congrArg Prod.snd hchallenge,
    show s.serverRandom = (o.session P env f.sessionId).serverRandom from
      congrArg Bookkeeping.Handshake.serverRandom hshake,
    show s.serverEphPub = (o.session P env f.sessionId).serverEphPub from
      congrArg Bookkeeping.Handshake.serverEphPub hshake,
    show s.salt = (o.session P env f.sessionId).salt from
      congrArg Bookkeeping.Handshake.salt hshake] at hproof2
  exact ⟨f, o, x, hello, exchange, mid, late, hf, hlife, hat, hxat, hlate, hshake', hproof2⟩

/-- The three steps of an honest session, in which the third is answered. -/
theorem flag_gate_run : ∃ pre e, sampleTrace [sampleHello 1, sampleExchange 2 (zeros 32),
      sampleFinalize 3] = pre ++ [e] ∧ e.outcome.isOk = true ∧
    Backed Primitives.transparent sampleEnv pre e := by
  have hok : ((sampleTrace [sampleHello 1, sampleExchange 2 (zeros 32), sampleFinalize 3]).map
      fun e => e.outcome.isOk) = [true, true, true] := by decide +kernel
  obtain ⟨e₁, e₂, e₃, htrace, hrequest⟩ : ∃ e₁ e₂ e₃, sampleTrace [sampleHello 1,
      sampleExchange 2 (zeros 32), sampleFinalize 3] = [e₁, e₂] ++ e₃ :: [] ∧
      e₃.request = sampleFinalize 3 := ⟨_, _, _, rfl, rfl⟩
  rw [htrace] at hok
  have hlast : e₃.outcome.isOk = true := by
    simp only [List.cons_append, List.nil_append, List.map_cons, List.cons.injEq] at hok
    exact hok.2.2.1
  cases houtcome : e₃.outcome with
  | error err =>
    rw [houtcome] at hlast
    cases hlast
  | ok response =>
    exact ⟨[e₁, e₂], e₃, htrace, hlast, flag_gate Primitives.transparent sampleEnv _ [e₁, e₂] [] e₃
      _ _ response htrace hrequest houtcome⟩

end RankGate.Handlers.FlagGate
