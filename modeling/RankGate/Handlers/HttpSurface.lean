/- Module: RankGate/Handlers/HttpSurface
   source: server/app/main.py, server/app/challenge_logic.py
   digest: A run over HTTP is a run of the handlers, and what its replies can be. -/

import RankGate.Handlers.Creation
import RankGate.Server.Main
import RankGate.Session.Answers

set_option autoImplicit false
set_option relaxedAutoImplicit false

namespace RankGate.Handlers.HttpSurface

open ByteCodec (Bytes)
open Effects (exec)
open RankGate.Crypto (Primitives)
open RankGate.Handlers.Requests
open RankGate.Server
open RankGate.Server.Config (Env Failure)
open RankGate.Server.Main
open RankGate.Server.Protocol (Frame)
open RankGate.Server.Sessions (SessionStore)
open RankGate.Session.Answers (AnswerTo body_answers)

def request? : Call → Option Request
  | .hello d body => (Main.b64decode body).toOption.map (.hello d)
  | .exchange d body => (Main.b64decode body).toOption.map (.exchange d)
  | .finalize d body => (Main.b64decode body).toOption.map (.finalize d)
  | _ => none

def replyTo (render : Rendering) : Except Failure Bytes → Reply
  | .ok frame => plainTextResponse (Rfc4648.encode frame)
  | .error _ => genericError render

def document (P : Primitives) (env : Env) (render : Rendering) : Call → Reply
  | .health => jsonResponse render healthFields
  | .publicKey => jsonResponse render (publicKeyFields P env)
  | _ => genericError render

section Steps

variable (P : Primitives) (env : Env) (render : Rendering)

/-- One call, with the diagnostics switched off. -/
def httpStep (store : SessionStore) (c : Call) : Reply × SessionStore :=
  (respond P env render false c).run store

variable {store : SessionStore} {c : Call} {r : Request}

private theorem run_replies {handler : Bytes → Sessions.HandlerM Bytes} {body raw : Bytes}
    (h : Main.b64decode body = .ok raw) (store : SessionStore) :
    (run render handler body).run store =
      (replyTo render (exec (handler raw) store).1, (exec (handler raw) store).2) := by
  rw [run_decoded h]
  rcases exec (handler raw) store with ⟨outcome, store'⟩
  cases outcome <;> rfl

private theorem decoded {body : Bytes} {f : Bytes → Request}
    (h : (Main.b64decode body).toOption.map f = some r) :
    ∃ raw, Main.b64decode body = .ok raw ∧ r = f raw := by
  obtain ⟨raw, hraw, hr⟩ := Option.map_eq_some_iff.mp h
  exact ⟨raw, Effects.toOption_eq_some.mp hraw, hr.symm⟩

private theorem undecoded {body : Bytes} {f : Bytes → Request}
    (h : (Main.b64decode body).toOption.map f = none) : ∃ e, Main.b64decode body = .error e := by
  cases hbody : Main.b64decode body with
  | error e => exact ⟨e, rfl⟩
  | ok raw =>
    rw [hbody] at h
    cases h

theorem step_request (store : SessionStore) (h : request? c = some r) : httpStep P env render store c =
    (replyTo render (step P env store r).1, (step P env store r).2) := by
  cases c with
  | hello d body =>
    obtain ⟨raw, hraw, rfl⟩ := decoded h
    exact run_replies render hraw store
  | exchange d body =>
    obtain ⟨raw, hraw, rfl⟩ := decoded h
    exact run_replies render hraw store
  | finalize d body =>
    obtain ⟨raw, hraw, rfl⟩ := decoded h
    exact run_replies render hraw store
  | health => cases h
  | publicKey => cases h
  | debugTranscript payload => cases h

theorem step_document (store : SessionStore) (h : request? c = none) :
    httpStep P env render store c = (document P env render c, store) := by
  cases c with
  | hello d body => exact run_undecoded (undecoded h).choose_spec
  | exchange d body => exact run_undecoded (undecoded h).choose_spec
  | finalize d body => exact run_undecoded (undecoded h).choose_spec
  | health => rfl
  | publicKey => rfl
  | debugTranscript payload => rfl

end Steps

section Runs

variable (P : Primitives) (env : Env) (render : Rendering)

def requests (cs : List Call) : List Request := cs.filterMap request?

private theorem requests_cons_none {c : Call} {cs : List Call} (h : request? c = none) :
    requests (c :: cs) = requests cs := List.filterMap_cons_none h

private theorem requests_cons_some {c : Call} {cs : List Call} {r : Request}
    (h : request? c = some r) : requests (c :: cs) = r :: requests cs :=
  List.filterMap_cons_some h

theorem requests_concat (cs : List Call) (c : Call) :
    requests (cs ++ [c]) = requests cs ++ (request? c).toList := by
  rw [requests, List.filterMap_append]
  cases h : request? c with
  | none => rw [List.filterMap_cons_none h]; rfl
  | some r => rw [List.filterMap_cons_some h]; rfl

theorem final_eq (store : SessionStore) (cs : List Call) :
    Runs.final (httpStep P env render) store cs = Runs.final (step P env) store (requests cs) := by
  induction cs generalizing store with
  | nil => rfl
  | cons c cs ih =>
    have hcons : Runs.final (httpStep P env render) store (c :: cs) =
        Runs.final (httpStep P env render) (httpStep P env render store c).2 cs := rfl
    cases hr : request? c with
    | none => rw [hcons, ih, step_document P env render store hr, requests_cons_none hr]
    | some r =>
      rw [hcons, ih, step_request P env render store hr, requests_cons_some hr]
      rfl

def handled (e : Runs.Event SessionStore Call Reply) : Option (Request × Reply) :=
  (request? e.request).map fun r => (r, e.outcome)

theorem trace_eq (store : SessionStore) (cs : List Call) :
    (Runs.trace (httpStep P env render) store cs).filterMap handled =
      (Runs.trace (step P env) store (requests cs)).map fun e =>
        (e.request, replyTo render e.outcome) := by
  induction cs generalizing store with
  | nil => rfl
  | cons c cs ih =>
    have hcons : Runs.trace (httpStep P env render) store (c :: cs) =
        Runs.event (httpStep P env render) store c ::
          Runs.trace (httpStep P env render) (httpStep P env render store c).2 cs := rfl
    cases hr : request? c with
    | none =>
      have hsilent : handled (Runs.event (httpStep P env render) store c) = none := by
        change (request? c).map _ = none
        rw [hr]
        rfl
      rw [hcons, List.filterMap_cons_none hsilent, ih, step_document P env render store hr,
        requests_cons_none hr]
    | some r =>
      have hshown : handled (Runs.event (httpStep P env render) store c) =
          some (r, replyTo render (step P env store r).1) := by
        change (request? c).map (fun r => (r, (httpStep P env render store c).1)) = _
        rw [hr, step_request P env render store hr]
        rfl
      rw [hcons, List.filterMap_cons_some hshown, ih, step_request P env render store hr,
        requests_cons_some hr]
      rfl

variable {P env} {rs : List Request} {r : Request} {response : Bytes}

/-- An answer in a run is a frame of the session asked for, numbered by the frames it has accepted
since its creation. -/
theorem answered (h : (step P env (storeAfter P env rs) r).1 = .ok response) :
    ∃ f g, r.frame? = some f ∧
      AnswerTo r f.sessionId (life f.sessionId (trace P env (rs ++ [r]))).length g response := by
  obtain ⟨f, hf⟩ := frame_of_answered P env h
  have hwf := Request.wellFormed hf
  -- the session the request leaves has lived through one accepted frame more
  have hlived {s' : Sessions.Session}
      (hs' : (step P env (storeAfter P env rs) r).2.lookup f.sessionId = some s') :
      s'.serverCounter = (life f.sessionId (trace P env (rs ++ [r]))).length := by
    rw [← storeAfter_concat] at hs'
    exact (Ledger.lived_storeAfter _ hs').serverCounter
  cases hr : r.isHello with
  | true =>
    have hself := lookup_hello_self P env (storeAfter P env rs) hf hr
    rw [step_hello P env _ hf hr] at h
    obtain ⟨⟨g, hg⟩, -, hcount⟩ := body_answers P env (s := { sessionId := f.sessionId }) hwf rfl
      (by exact (by decide : 0 + 1 < 2 ^ 64)) (Prod.ext h rfl)
    exact ⟨f, g, hf, (hlived hself).symm.trans hcount ▸ hg⟩
  | false =>
    cases hlookup : (storeAfter P env rs).lookup f.sessionId with
    | none =>
      rw [step_unknown P env hf hr hlookup] at h
      cases h
    | some s =>
      have hbefore := Ledger.lived_storeAfter rs hlookup
      obtain ⟨_, hs, hfresh⟩ := Creation.answered_fresh hf hr (by rw [h]; rfl)
      obtain rfl := Option.some.inj (hlookup.symm.trans hs)
      have hself := lookup_known_self P env hf hr hlookup
      rw [step_known P env hf hr hlookup] at h
      obtain ⟨⟨g, hg⟩, -, hcount⟩ := body_answers P env hwf hbefore.sessionId
        (hbefore.serverCounter_lt hwf hfresh) (Prod.ext h rfl)
      exact ⟨f, g, hf, (hlived hself).symm.trans hcount ▸ hg⟩

end Runs

/-- A run over HTTP is the run of the handlers on the bodies that decode: the same store, and each
request answered as its handler answered it. No reply is anything but a fixed document, the one error
body, or a frame of the session asked for under its next number. -/
theorem http_refines_handlers (P : Primitives) (env : Env) (render : Rendering) (cs : List Call) :
    Runs.final (httpStep P env render) ∅ cs = storeAfter P env (requests cs) ∧
      (Runs.trace (httpStep P env render) ∅ cs).filterMap handled =
        (trace P env (requests cs)).map (fun e => (e.request, replyTo render e.outcome)) ∧
      ∀ c, (httpStep P env render (Runs.final (httpStep P env render) ∅ cs) c).1 = document P env render c ∨
        ∃ r f g response, request? c = some r ∧ r.frame? = some f ∧
          AnswerTo r f.sessionId (life f.sessionId (trace P env (requests (cs ++ [c])))).length g
            response ∧
          (httpStep P env render (Runs.final (httpStep P env render) ∅ cs) c).1 =
            ⟨200, Rfc4648.encode g.bytes⟩ := by
  refine ⟨final_eq P env render ∅ cs, trace_eq P env render ∅ cs, fun c => ?_⟩
  rw [final_eq, requests_concat]
  cases hr : request? c with
  | none =>
    rw [step_document P env render _ hr]
    exact .inl rfl
  | some r =>
    rw [step_request P env render _ hr]
    cases hout : (step P env (storeAfter P env (requests cs)) r).1 with
    | error e =>
      left
      cases c with
      | health => cases hr
      | publicKey => cases hr
      | debugTranscript payload => cases hr
      | hello d body => rfl
      | exchange d body => rfl
      | finalize d body => rfl
    | ok response =>
      obtain ⟨f, g, hf, hg⟩ := answered hout
      refine .inr ⟨r, f, g, response, rfl, hf, hg, ?_⟩
      rw [← hg.bytes]
      rfl

section Diagnostics

variable (render : Rendering) (payload : Except String (List Char)) (store : SessionStore)

private theorem lookup_readTranscript (sid : Bytes) :
    (exec (readTranscript render payload) store).2.lookup sid = store.lookup sid := by
  cases hid : payload.bind fromHex with
  | error text =>
    rw [readTranscript, hid]
    rfl
  | ok id =>
    have hget : exec (ExceptT.mk (Functor.map (Except.mapError showFailure)
        (SessionStore.get id).run) : ExceptT String (StateM SessionStore) _) store =
        ((exec (SessionStore.get id) store).1.mapError showFailure,
          (exec (SessionStore.get id) store).2) := rfl
    rw [readTranscript, hid, Effects.exec_lift_bind]
    dsimp only
    cases hlookup : store.lookup id with
    | none =>
      rw [Sessions.exec_get_none hlookup] at hget
      rw [Effects.exec_bind_error hget]
    | some s =>
      rw [Sessions.exec_get_some hlookup] at hget
      rw [Effects.exec_bind_ok hget, Effects.exec_pure]
      by_cases hsid : sid = id
      · rw [hsid, AList.lookup_insert, hlookup]
      · exact AList.lookup_insert_ne hsid

/-- They read a session and leave every session as it was. -/
theorem lookup_debugTranscript (serverDebug : Bool) (sid : Bytes) :
    ((debugTranscript render serverDebug payload).run store).2.lookup sid = store.lookup sid := by
  cases serverDebug with
  | false => rfl
  | true =>
    refine Eq.trans ?_ (lookup_readTranscript render payload store sid)
    rw [Server.Main.debugTranscript_eq]
    rcases exec (readTranscript render payload) store with ⟨outcome, store'⟩
    cases outcome <;> rfl

end Diagnostics

end RankGate.Handlers.HttpSurface
