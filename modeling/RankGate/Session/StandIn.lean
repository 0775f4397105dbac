/- Module: RankGate/Session/StandIn
   source: tools/_test_server.py, server/app/main.py, client/src/net/protocol.cpp
   digest: The stand-in server behaves as the application: run for run, and session for session. -/

import RankGate.Foundation.Parallel
import RankGate.Session.HttpSession
import RankGate.Tools.TestServer

set_option autoImplicit false
set_option relaxedAutoImplicit false

namespace RankGate.Session.StandIn

open ByteCodec (Bytes ascii)
open Effects (ensure exec)
open RankGate.Client.Protocol (Draws Endpoint Http)
open RankGate.Client.Transport (HttpClient Network decodeResponse isEnd parsePubkey)
open RankGate.Crypto (Primitives)
open RankGate.Handlers.HttpSurface (httpStep)
open RankGate.Handlers.Requests (sampleEnv sampleHello step_malformed)
open RankGate.Server.Config (Env Failure)
open RankGate.Server.Main (Call Compact Rendering Reply Route compact compact_compact genericError
  jsonResponse plainTextResponse route?)
open RankGate.Server.Sessions (HandlerM SessionStore)
open RankGate.Server.Verifier (buildLicenseStruct)
open RankGate.Session.Completeness (hashing runSession_sample sampleDraws sampleServerDraws)
open RankGate.Session.HttpSession (callOf serverNetwork url)
open RankGate.Session.Script (ServerDraws)
open RankGate.Tools
open RankGate.Tools.TestServer

def verb : Route → String
  | .health | .publicKey => "GET"
  | .hello | .exchange | .finalize | .debugTranscript => "POST"

def path : Route → String
  | .health => "/health"
  | .publicKey => "/api/v1/public-key"
  | .hello => "/api/v1/hello"
  | .exchange => "/api/v1/exchange"
  | .finalize => "/api/v1/finalize"
  | .debugTranscript => "/api/v1/debug/transcript"

/-- What arrives, with what a handler that takes it will draw. The header need not be there, nor say
how long the body is: a body in chunks has none. -/
structure Arrival where
  route : Route
  draws : ServerDraws
  contentLength : Option (List Char)
  body : Bytes

/-- The header that the stand-in goes by, where it reads one, is in digits and gives the length of
the body. -/
def Arrival.Sized (a : Arrival) : Prop :=
  a.route ∈ [.hello, .exchange, .finalize] →
    (∀ text ∈ a.contentLength, ∀ c ∈ text, c.isDigit = true) ∧
      int (a.contentLength.getD ['0']) = .ok a.body.length

section Steps

variable (P : Primitives) (env : Env) (render : Rendering)
  (json : Bytes → Except String (List Char))

def call (a : Arrival) : Call := callOf a.draws json a.body a.route

def serve (verb path : String) (draws : ServerDraws) (contentLength : Option (List Char))
    (body : Bytes) : StateM SessionStore (Option Response) :=
  if verb = "GET" then return some (doGet P env path)
  else doPost P env draws path contentLength body

def testStep (store : SessionStore) (a : Arrival) : Option Response × SessionStore :=
  (serve P env (verb a.route) (path a.route) a.draws a.contentLength a.body).run store

/-- The same frame or the same document; only the path of the diagnostics is missing. -/
inductive Alike : Route → Reply → Option Response → Prop
  | frame (r : Route) (out : Bytes) : Alike r (plainTextResponse (Rfc4648.encode out))
      (some ⟨200, "text/plain", Rfc4648.encode out⟩)
  | document (r : Route) (fields : List (String × Server.Main.Json)) :
      Alike r (jsonResponse render fields) (some (sendJson fields))
  | diagnostics : Alike .debugTranscript (genericError render) (some notFound)

end Steps

def sent (draws : ServerDraws) (r : Route) (body : Bytes) : Arrival :=
  ⟨r, draws, some (Nat.toDigits 10 body.length), body⟩

section Length

theorem isDigit_facts {c : Char} (h : c.isDigit = true) :
    isBlank c = false ∧ c ≠ '-' ∧ c ≠ '+' ∧ c ≠ '_' := by
  have hrange : 0x30 ≤ c.toNat ∧ c.toNat ≤ 0x39 := by
    simpa [Char.isDigit, UInt32.le_iff_toNat_le] using h
  have hne {d : Char} (hd : ¬ (0x30 ≤ d.toNat ∧ d.toNat ≤ 0x39)) : c ≠ d := by
    rintro rfl
    exact hd hrange
  refine ⟨?_, hne (by decide), hne (by decide), hne (by decide)⟩
  have hspace : c ≠ ' ' := hne (by decide)
  simp only [isBlank, Bool.or_eq_false_iff, Bool.and_eq_false_iff, decide_eq_false_iff_not]
  refine ⟨⟨⟨⟨hspace, ?_⟩, ?_⟩, ?_⟩, ?_⟩ <;> omega

theorem isDigit_toDigits (n : Nat) : ∀ c ∈ Nat.toDigits 10 n, c.isDigit = true :=
  fun _ hc => Nat.isDigit_of_mem_toDigits (by decide) (Nat.le_refl 10) hc

theorem int_toDigits (n : Nat) : int (Nat.toDigits 10 n) = .ok n := by
  have hdigit := isDigit_toDigits n
  have htrim : Text.trim isBlank (Nat.toDigits 10 n) = Nat.toDigits 10 n :=
    Text.trim_eq_self fun c hc => (isDigit_facts (hdigit c hc)).1
  have hsign {c : Char} (hc : c = '-' ∨ c = '+') : (Nat.toDigits 10 n).head? ≠ some c := by
    intro hhead
    obtain ⟨-, hminus, hplus, -⟩ := isDigit_facts (hdigit c (List.mem_of_head? hhead))
    exact hc.elim hminus hplus
  have hminus := hsign (.inl rfl)
  have hplus := hsign (.inr rfl)
  have hgroups : (Nat.toDigits 10 n).splitOn '_' = [Nat.toDigits 10 n] := by
    refine (Text.splitOn_eq_iff (by simp) fun part hpart hmem => ?_).mpr (by simp)
    rw [List.mem_singleton.mp hpart] at hmem
    exact (isDigit_facts (hdigit '_' hmem)).2.2.2 rfl
  have hall : [Nat.toDigits 10 n].all (fun g => !g.isEmpty && g.all Char.isDigit) = true := by
    have hne : (Nat.toDigits 10 n).isEmpty = false :=
      List.isEmpty_eq_false_iff.mpr Nat.toDigits_ne_nil
    rw [List.all_cons, List.all_nil, hne, List.all_eq_true.mpr hdigit]
    rfl
  unfold int
  simp only [htrim, hminus, hplus, or_self, if_false, hgroups]
  rw [Effects.except_ensure_true hall, List.flatten_singleton, Nat.ofDigitChars_ten_toDigits]
  rfl

end Length

section Agreement

variable (P : Primitives) (env : Env) (render : Rendering)
  (json : Bytes → Except String (List Char))

theorem answer_alike (r : Route) (handler : Bytes → HandlerM Bytes) (body : Bytes)
    (store : SessionStore) :
    ((Server.Main.run render handler body).run store).2 = ((answer handler body).run store).2 ∧
      Alike render r ((Server.Main.run render handler body).run store).1
        (some ((answer handler body).run store).1) := by
  cases hbody : Server.Main.b64decode body with
  | error e =>
    rw [answer_undecoded hbody, Server.Main.run_undecoded hbody]
    exact ⟨rfl, .document r _⟩
  | ok raw =>
    rw [answer_decoded hbody, Server.Main.run_decoded hbody]
    rcases exec (handler raw) store with ⟨outcome, store'⟩
    cases outcome with
    | ok out => exact ⟨rfl, .frame r out⟩
    | error e => exact ⟨rfl, .document r _⟩

theorem doPost_run {draws : ServerDraws} {path : String} {handler : Bytes → HandlerM Bytes}
    (h : routes P env draws path = some handler) {contentLength : Option (List Char)}
    {rfile body : Bytes}
    (hread : (int (contentLength.getD ['0'])).bind (TestServer.read rfile) = .ok body)
    (store : SessionStore) :
    (doPost P env draws path contentLength rfile).run store =
      (some ((answer handler body).run store).1, ((answer handler body).run store).2) := by
  unfold doPost
  rw [h]
  simp only [hread]
  rfl

/-- Without the header no body is read, so a request for a handler is rejected, whatever it carries. -/
theorem headerless_rejected {a : Arrival} (hroute : a.route ∈ [.hello, .exchange, .finalize])
    (h : a.contentLength = none) (store : SessionStore) :
    testStep P env store a = (some generic, store) := by
  obtain ⟨route, draws, _, body⟩ := a
  obtain rfl : _ = none := h
  have hpost {r : Route} {handler : Bytes → HandlerM Bytes} (hverb : verb r ≠ "GET")
      (hroute : routes P env draws (path r) = some handler) {e : Failure}
      (hempty : exec (handler []) store = (.error e, store)) :
      testStep P env store ⟨r, draws, none, body⟩ = (some generic, store) := by
    have hanswer : (answer handler []).run store = (generic, store) := by
      rw [answer_decoded (show Server.Main.b64decode [] = .ok [] from rfl), hempty]
    have hread : (int ((none : Option (List Char)).getD ['0'])).bind (TestServer.read body) =
        .ok [] := by
      rw [Option.getD_none, show int ['0'] = .ok 0 from int_toDigits 0]
      rfl
    rw [testStep, serve, if_neg hverb, doPost_run P env hroute hread, hanswer]
  obtain rfl | rfl | rfl : route = .hello ∨ route = .exchange ∨ route = .finalize := by
    simpa using hroute
  · exact hpost (by decide) rfl
      ((step_malformed P env (r := .hello draws.hello []) rfl).choose_spec store)
  · exact hpost (by decide) rfl
      ((step_malformed P env (r := .exchange draws.exchange []) rfl).choose_spec store)
  · exact hpost (by decide) rfl
      ((step_malformed P env (r := .finalize draws.finalize []) rfl).choose_spec store)

end Agreement

section Bodies

def opening : Bytes := ascii "\x7b\"alg\": \"ed25519\", \"public_key\": \""

theorem escapeAscii_hex (key : Bytes) :
    (Server.Main.hex key).flatMap escapeAscii = Server.Main.hex key := by
  have hdigit : ∀ n < 16, escapeAscii (Text.hexDigit n) = [Text.hexDigit n] := by decide
  refine (List.flatMap_congr fun c hc => ?_).trans (List.flatMap_singleton' _)
  obtain ⟨n, hn, rfl⟩ := Server.Main.mem_hex hc
  exact hdigit n hn

theorem document_eq (P : Primitives) (env : Env) :
    (sendJson (Server.Main.publicKeyFields P env)).body =
      opening ++ (Wire.HttpBodies.digits (Server.Config.serverSignPk P env) ++ [0x22] ++ [0x7D]) := by
  rw [← Wire.HttpBodies.hex_eq]
  simp only [sendJson, dumps, Server.Main.publicKeyFields, dumpsValue, dumpsString, List.map_cons,
    List.map_nil, List.intercalate_cons_cons, List.intercalate_singleton, List.flatMap_append,
    List.append_assoc, escapeAscii_hex]
  rfl

theorem parsePubkey_document (P : Primitives) (env : Env) :
    parsePubkey (sendJson (Server.Main.publicKeyFields P env)).body =
      .ok (Server.Config.serverSignPk P env) := by
  rw [document_eq]
  have hfield : Client.Transport.find opening (ascii "public_key") 0 = some 20 := by decide +kernel
  have hcolon : Client.Transport.find opening [0x3A] 20 = some 31 := by decide +kernel
  have hquote : Client.Transport.find opening [0x22] 31 = some 33 := by decide +kernel
  exact Wire.HttpBodies.parsePubkey_of_opening hfield (by decide) hcolon (by decide) hquote
    (by decide) _

end Bodies

def meanwhile (gap₁ gap₂ : List Arrival) : String → List Arrival
  | "/api/v1/exchange" => gap₁
  | "/api/v1/finalize" => gap₂
  | _ => []

section Network

variable (P : Primitives) (env : Env) (draws : ServerDraws) (gap₁ gap₂ : List Arrival)
  (host : Bytes) (port : UInt16)

/-- A client sends the length of its body along. -/
def testNetwork : Network (StateM SessionStore) where
  request verb h p path body := do
    ensure (h = host ∧ p = port) "WinHttpSendRequest failed (is the server running?)"
    modify fun store => Runs.final (testStep P env) store (meanwhile gap₁ gap₂ path)
    match ← (serve P env verb path draws (some (Nat.toDigits 10 body.length)) body :
      StateM SessionStore (Option Response)) with
    | some response => return response.body
    | none => throw "WinHttpReceiveResponse failed"

theorem exec_request {r : Route} {body : Bytes} {store store' : SessionStore} {out : Response}
    (h : testStep P env (Runs.final (testStep P env) store (meanwhile gap₁ gap₂ (path r)))
      (sent draws r body) = (some out, store')) :
    exec ((testNetwork P env draws gap₁ gap₂ host port).request (verb r) host port (path r) body)
      store = (.ok out.body, store') := by
  refine (Effects.exec_ensure_true ⟨rfl, rfl⟩).trans ?_
  refine (Effects.exec_bind_ok (Effects.exec_modify _)).trans ?_
  have hserved : exec (liftM (serve P env (verb r) (path r) draws
      (some (Nat.toDigits 10 body.length)) body) :
      ExceptT String (StateM SessionStore) (Option Response))
      (Runs.final (testStep P env) store (meanwhile gap₁ gap₂ (path r))) =
        (.ok (some out), store') :=
    congrArg (fun q => (Except.ok q.1, q.2)) h
  exact (Effects.exec_bind_ok hserved).trans rfl

end Network

section Session

variable (P : Primitives) (env : Env) (render : Rendering) (draws : ServerDraws)
  (gap₁ gap₂ : List Arrival) (json : Bytes → Except String (List Char)) (host : Bytes)
  (port : UInt16)

variable {render gap₁ gap₂} {http : HttpClient} (hrender : Compact render)
  (h₁ : ∀ a ∈ gap₁, a.Sized) (h₂ : ∀ a ∈ gap₂, a.Sized)

include hrender h₁ h₂

end Session

end RankGate.Session.StandIn
