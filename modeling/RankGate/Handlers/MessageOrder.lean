/- Module: RankGate/Handlers/MessageOrder
   source: server/app/challenge_logic.py (transcript progression, handle_exchange, handle_finalize)
   digest: Nothing stops a key holder from repeating a step; without repetition the documented order holds. -/

import RankGate.Handlers.Bookkeeping

set_option autoImplicit false
set_option relaxedAutoImplicit false

namespace RankGate.Handlers.MessageOrder

open ByteCodec (Bytes zeros)
open Effects (exec)
open RankGate.Crypto (Primitives)
open RankGate.Server
open RankGate.Server.Config (Env)
open RankGate.Server.Protocol (Frame Transcript)
open RankGate.Server.Sessions (Keys Session SessionStore)
open RankGate.Server.ChallengeLogic
open RankGate.Wire.TranscriptBinding (chain)
open Specs
open Requests
open Ledger
open Bookkeeping (frames_eq)

inductive Kind
  | hello
  | exchange
  | finalize
  deriving DecidableEq

def kind (e : Event) : Kind :=
  match e.request with
  | .hello _ _ => .hello
  | .exchange _ _ => .exchange
  | .finalize _ _ => .finalize

def progression : List Kind := [.hello, .exchange, .finalize]

section Order

variable (P : Primitives) (env : Env)

/-- A step the session has been through, sealed once more: a CLIENT_PROOF_1 after stage 1 was passed,
or a CLIENT_PROOF_2 after the third frame was sent. Its counter is fresh and its MAC verifies. -/
def Repeats (e : Event) : Prop :=
  ∃ f s keys, e.request.frame? = some f ∧ e.before.lookup f.sessionId = some s ∧
    s.keys = some keys ∧ s.clientCounter < f.counter ∧
    (restoreTranscript s.transcriptState).macFor P.toHashes keys.mac f.preMacBytes =
      f.transcriptMac ∧
    ((e.request.isExchange = true ∧ s.proof1Ok = true) ∨
      (e.request.isFinalize = true ∧ 3 ≤ s.serverCounter))

variable {P env} {sid : Bytes} {es : List Event} {s : Session}

/-- Without repetition a session is at one of three stages. -/
theorem stages (h : Lived P env sid es s) (hno : ∀ e ∈ es, ¬ Repeats P e) :
    (es = [] ∧ s.keys = none) ∨
      (es.map kind = [.hello] ∧ s.proof1Ok = false) ∨
      (es.map kind = [.hello, .exchange] ∧ s.proof1Ok = true) ∨
      (es.map kind = [.hello, .exchange, .finalize] ∧ s.proof1Ok = true) := by
  induction h with
  | halfOpen _ hkeys => exact .inl ⟨rfl, hkeys⟩
  | hello hreq =>
    refine .inr (.inl ⟨?_, rfl⟩)
    rw [List.map_singleton, kind, hreq]
  | @exchange es s e d raw f keys t p h hreq hframe hid hbefore hpassed houtcome hafter ih =>
    have hkind : kind e = .exchange := by rw [kind, hreq]
    have hnot := hno e (List.mem_append_right _ (List.mem_singleton.mpr rfl))
    have hfirst : s.proof1Ok ≠ true := fun hproof => hnot ⟨f, s, keys, hframe, hid ▸ hbefore,
      hpassed.hasKeys, hpassed.fresh, hpassed.mac, .inl ⟨by rw [hreq]; rfl, hproof⟩⟩
    have hkeys : s.keys ≠ none := by
      rw [hpassed.hasKeys]
      exact Option.some_ne_none keys
    rcases ih fun a ha => hno a (List.mem_append_left _ ha) with
      ⟨-, hnone⟩ | ⟨hkinds, -⟩ | ⟨-, hproof⟩ | ⟨-, hproof⟩
    · exact absurd hnone hkeys
    · refine .inr (.inr (.inl ⟨?_, rfl⟩))
      rw [List.map_append, hkinds, List.map_singleton, hkind]
      rfl
    · exact absurd hproof hfirst
    · exact absurd hproof hfirst
  | @finalize es s e d raw f keys t h hreq hframe hid hbefore hpassed houtcome hafter ih =>
    have hkind : kind e = .finalize := by rw [kind, hreq]
    have hnot := hno e (List.mem_append_right _ (List.mem_singleton.mpr rfl))
    have hfirst : ¬ 3 ≤ s.serverCounter := fun hsent => hnot ⟨f, s, keys, hframe, hid ▸ hbefore,
      hpassed.hasKeys, hpassed.fresh, hpassed.mac, .inr ⟨by rw [hreq]; rfl, hsent⟩⟩
    have hkeys : s.keys ≠ none := by
      rw [hpassed.hasKeys]
      exact Option.some_ne_none keys
    have hproof := hpassed.proof1Ok
    rcases ih fun a ha => hno a (List.mem_append_left _ ha) with
      ⟨-, hnone⟩ | ⟨-, hfalse⟩ | ⟨hkinds, -⟩ | ⟨hkinds, -⟩
    · exact absurd hnone hkeys
    · rw [hfalse] at hproof
      cases hproof
    · refine .inr (.inr (.inr ⟨?_, hproof⟩))
      rw [List.map_append, hkinds, List.map_singleton, hkind]
      rfl
    · have hlen := congrArg List.length hkinds
      rw [List.length_map, ← h.serverCounter] at hlen
      exact absurd hlen.ge hfirst
  | refused _ _ ih => exact ih hno

theorem mem_of_mem_life {tr : List Event} {e : Event} (h : e ∈ life sid tr) : e ∈ tr := by
  obtain ⟨pre, hpre⟩ := Runs.exists_sinceReset (creates sid) tr
  rw [hpre]
  exact List.mem_append_right _ (List.mem_filter.mp h).1

end Order

/-- What the documentation says of a run: at every point of it the accepted frames of a session follow
the progression, each at most once, so that they do in every incarnation; and a flag is sealed under
the chain over exactly HELLO, SERVER_CHALLENGE, CLIENT_PROOF_1, SERVER_PROOF_1 and CLIENT_PROOF_2. -/
structure InOrder (P : Primitives) (env : Env) (rs : List Request) : Prop where
  order : ∀ rs₁, rs₁ <+: rs → ∀ sid, (life sid (trace P env rs₁)).map kind <+: progression
  sealed : ∀ pre e post d raw response, trace P env rs = pre ++ e :: post →
    e.request = .finalize d raw → e.outcome = .ok response →
    ∃ f s keys t h x, e.request.frame? = some f ∧
      life f.sessionId pre = [h, x] ∧ kind h = .hello ∧ kind x = .exchange ∧
      e.before.lookup f.sessionId = some s ∧
      t.state = (chain P.toHashes).state (frames h ++ frames x ++ [raw]) ∧
      response = (sealedFlagFrame P d s keys t).bytes

section Order

variable {P : Primitives} {env : Env}

private theorem order_of_stages {sid : Bytes} {es : List Event} {s : Session}
    (h : Lived P env sid es s) (hno : ∀ e ∈ es, ¬ Repeats P e) :
    es.map kind <+: progression := by
  rcases stages h hno with ⟨rfl, -⟩ | ⟨hkinds, -⟩ | ⟨hkinds, -⟩ | ⟨hkinds, -⟩
  · exact List.nil_prefix
  · rw [hkinds]
    exact ⟨_, rfl⟩
  · rw [hkinds]
    exact ⟨_, rfl⟩
  · rw [hkinds]
    exact List.prefix_rfl

private theorem two_of_stages {sid : Bytes} {es : List Event} {s : Session}
    (h : Lived P env sid es s) (hno : ∀ e ∈ es, ¬ Repeats P e) (hproof : s.proof1Ok = true)
    (hshort : ¬ 3 ≤ s.serverCounter) :
    ∃ a b, es = [a, b] ∧ kind a = .hello ∧ kind b = .exchange := by
  rcases stages h hno with ⟨rfl, -⟩ | ⟨-, hfalse⟩ | ⟨hkinds, -⟩ | ⟨hkinds, -⟩
  · obtain ⟨raw, hmem, -⟩ := Bookkeeping.Lived.proof1 h hproof
    cases hmem
  · rw [hfalse] at hproof
    cases hproof
  · obtain ⟨a, rest, rfl, ha, hrest⟩ := List.map_eq_cons_iff.mp hkinds
    obtain ⟨b, tail, rfl, hb, htail⟩ := List.map_eq_cons_iff.mp hrest
    obtain rfl := List.map_eq_nil_iff.mp htail
    exact ⟨a, b, rfl, ha, hb⟩
  · have hlen := congrArg List.length hkinds
    rw [List.length_map, ← h.serverCounter] at hlen
    exact absurd hlen.ge hshort

/-- In a run without repeated steps the documented order holds. -/
theorem message_order (P : Primitives) (env : Env) (rs : List Request)
    (hno : ∀ e ∈ trace P env rs, ¬ Repeats P e) : InOrder P env rs := by
  constructor
  · rintro rs₁ ⟨rs₂, rfl⟩ sid
    obtain ⟨s, hlived⟩ := exists_lived P env rs₁ sid
    have hpart : ∀ e ∈ trace P env rs₁, e ∈ trace P env (rs₁ ++ rs₂) := by
      intro e he
      rw [trace, Runs.trace_append]
      exact List.mem_append_left _ he
    exact order_of_stages hlived fun e he => hno e (hpart e (mem_of_mem_life he))
  · intro pre e post d raw response htrace hrequest houtcome
    have hpast : ∀ a ∈ pre, ¬ Repeats P a := fun a ha =>
      hno a (htrace.symm ▸ List.mem_append_left _ ha)
    have hlast : ¬ Repeats P e := hno e (htrace.symm ▸ List.mem_append_right _ List.mem_cons_self)
    obtain ⟨rs₁, r, rs₂, -, rfl, rfl, -⟩ := Runs.trace_split _ htrace
    obtain rfl : r = .finalize d raw := hrequest
    obtain ⟨f, s, keys, t, hf, hlookup, hpassed, hresponse⟩ := answered_finalize houtcome
    have hlived := lived_storeAfter rs₁ hlookup
    have hshort : ¬ 3 ≤ s.serverCounter := fun hsent => hlast ⟨f, s, keys, hf, hlookup,
      hpassed.hasKeys, hpassed.fresh, hpassed.mac, .inr ⟨rfl, hsent⟩⟩
    have htwo := two_of_stages hlived (fun a ha => hpast a (mem_of_mem_life ha)) hpassed.proof1Ok
      hshort
    obtain ⟨h, x, hlife, hh, hx⟩ := htwo
    refine ⟨f, s, keys, t, h, x, hf, hlife, hh, hx, hlookup, ?_, hresponse⟩
    have hstate := Bookkeeping.Lived.transcript hlived hpassed.hasKeys
    rw [hlife, List.flatMap_cons, List.flatMap_singleton] at hstate
    rw [(chain P.toHashes).state_concat, ← hstate, hpassed.transcript]
    exact congrArg (fun b => P.sha256 (s.transcriptState ++ b)) (Request.raw_eq hf).symm

private def passedBefore (e : Event) : Bool :=
  match e.request.frame? with
  | some f => (e.before.lookup f.sessionId).any fun s =>
      (e.request.isExchange && s.proof1Ok) || (e.request.isFinalize && decide (3 ≤ s.serverCounter))
  | none => false

private theorem not_repeats {e : Event} (h : passedBefore e = false) : ¬ Repeats P e := by
  rintro ⟨f, s, keys, hf, hlookup, -, -, -, hstep⟩
  rw [passedBefore, hf] at h
  simp only [hlookup, Option.any_some, Bool.or_eq_false_iff, Bool.and_eq_false_imp] at h
  obtain ⟨hx, hz⟩ := h
  rcases hstep with ⟨hexchange, hproof⟩ | ⟨hfinalize, hsent⟩
  · rw [hx hexchange] at hproof
    cases hproof
  · exact of_decide_eq_false (hz hfinalize) hsent

/-- The three steps of an honest session. -/
theorem message_order_run : InOrder Primitives.transparent sampleEnv
    [sampleHello 1, sampleExchange 2 (zeros 32), sampleFinalize 3] := by
  refine message_order Primitives.transparent sampleEnv _ fun e he => not_repeats ?_
  have hall : ((sampleTrace [sampleHello 1, sampleExchange 2 (zeros 32), sampleFinalize 3]).all
      fun e => !passedBefore e) = true := by decide +kernel
  have hfalse := List.all_eq_true.mp hall e he
  simpa using hfalse

/-- CLIENT_PROOF_1 twice, under fresh counters: both are accepted. -/
theorem exchange_accepted_twice : ¬ InOrder Primitives.transparent sampleEnv
    [sampleHello 1, sampleExchange 2 (zeros 32), sampleExchange 3 (zeros 32)] := by
  intro h
  have horder := h.order _ List.prefix_rfl (zeros 16)
  exact absurd horder (by decide +kernel)

end Order

end RankGate.Handlers.MessageOrder
