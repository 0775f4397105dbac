/- Module: RankGate/Tools/TestServer
   source: tools/_test_server.py
   digest: The stand-in server on the standard library: json.dumps, Content-Length and a table of routes. -/

import RankGate.Server.Main
import RankGate.Session.Script

set_option autoImplicit false
set_option relaxedAutoImplicit false

namespace RankGate.Tools.TestServer

open ByteCodec (Bytes ascii)
open Effects (ensure exec)
open RankGate.Crypto (Primitives)
open RankGate.Server.ChallengeLogic
open RankGate.Server.Config (Env Failure)
open RankGate.Server.Main (Json healthFields publicKeyFields genericErrorFields)
open RankGate.Server.Sessions (HandlerM SessionStore)
open RankGate.Session.Script (ServerDraws)

/-! `json.dumps`: a blank behind every comma and colon, and nothing beyond ASCII. -/

def escape (c : Char) : List Char :=
  if c = '"' then ['\\', '"']
  else if c = '\\' then ['\\', '\\']
  else if c.toNat = 0x08 then ['\\', 'b']
  else if c.toNat = 0x09 then ['\\', 't']
  else if c.toNat = 0x0A then ['\\', 'n']
  else if c.toNat = 0x0C then ['\\', 'f']
  else if c.toNat = 0x0D then ['\\', 'r']
  else if c.toNat < 0x20 then ['\\', 'u', '0', '0'] ++ Text.hexByte (UInt8.ofNat c.toNat)
  else [c]

def escapeUnit (n : Nat) : List Char :=
  ['\\', 'u'] ++ Text.hexByte (UInt8.ofNat (n / 256)) ++ Text.hexByte (UInt8.ofNat n)

/-- Characters beyond the first plane are written as two surrogates. -/
def escapeAscii (c : Char) : List Char :=
  if c.toNat < 0x7F then escape c
  else if c.toNat < 0x10000 then escapeUnit c.toNat
  else escapeUnit (0xD800 + (c.toNat - 0x10000) / 0x400) ++
    escapeUnit (0xDC00 + (c.toNat - 0x10000) % 0x400)

def dumpsString (s : List Char) : List Char := ['"'] ++ s.flatMap escapeAscii ++ ['"']

def dumpsValue : Json → List Char
  | .bool true => "true".toList
  | .bool false => "false".toList
  | .int n => (Nat.repr n).toList
  | .str s => dumpsString s

def dumps (fields : List (String × Json)) : List Char :=
  ['\x7b'] ++ ", ".toList.intercalate
    (fields.map fun p => dumpsString p.1.toList ++ ": ".toList ++ dumpsValue p.2) ++ ['\x7d']

/-- `_send`: the status, the type and the body; the length of the body goes with it. -/
structure Response where
  code : Nat
  contentType : String
  body : Bytes
  deriving DecidableEq

def sendJson (fields : List (String × Json)) : Response :=
  ⟨200, "application/json", (dumps fields).flatMap String.utf8EncodeChar⟩

def notFound : Response := ⟨404, "text/plain", ascii "not found"⟩

def generic : Response := sendJson genericErrorFields

/-- The blanks `int` takes off, among the characters a header can hold. -/
def isBlank (c : Char) : Bool :=
  c = ' ' || 0x09 ≤ c.toNat && c.toNat ≤ 0x0D || 0x1C ≤ c.toNat && c.toNat ≤ 0x1F ||
    c.toNat = 0x85 || c.toNat = 0xA0

/-- `int` of a header: a sign, then digits in groups with one underscore between two of them. -/
def int (text : List Char) : Except Failure Int := do
  let s := Text.trim isBlank text
  let negative := s.head? = some '-'
  let groups := (if s.head? = some '-' ∨ s.head? = some '+' then s.tail else s).splitOn '_'
  ensure (groups.all fun g => !g.isEmpty && g.all Char.isDigit) Failure.valueError
  let value := Nat.ofDigitChars 10 groups.flatten 0
  return if negative then -value else value

/-- `rfile.read(n)` on what the client sends before it stops. -/
def read (rfile : Bytes) (n : Int) : Except Failure Bytes :=
  if 0 ≤ n then .ok (rfile.take n.toNat)
  else if n = -1 then .ok rfile
  else .error .valueError

section Handler

variable (P : Primitives) (env : Env)

def routes (draws : ServerDraws) : String → Option (Bytes → HandlerM Bytes)
  | "/api/v1/hello" => some (handleHello P env draws.hello)
  | "/api/v1/exchange" => some (handleExchange P env draws.exchange)
  | "/api/v1/finalize" => some (handleFinalize P draws.finalize)
  | _ => none

def doGet (path : String) : Response :=
  if path = "/health" then sendJson healthFields
  else if path = "/api/v1/public-key" then sendJson (publicKeyFields P env)
  else notFound

def attempt (handler : Bytes → HandlerM Bytes) (body : Bytes) : HandlerM Response := do
  let raw ← Server.Main.b64decode body
  let out ← handler raw
  return ⟨200, "text/plain", Rfc4648.encode out⟩

def answer (handler : Bytes → HandlerM Bytes) (body : Bytes) : StateM SessionStore Response := do
  match ← (attempt handler body).run with
  | .ok response => return response
  | .error _ => return generic

/-- A header that is no number leaves the client without a response. -/
def doPost (draws : ServerDraws) (path : String) (contentLength : Option (List Char))
    (rfile : Bytes) : StateM SessionStore (Option Response) := do
  match routes P env draws path with
  | none => return some notFound
  | some handler =>
    match (int (contentLength.getD ['0'])).bind (read rfile) with
    | .error _ => return none
    | .ok body => return some (← answer handler body)

end Handler

section Answer

variable {handler : Bytes → HandlerM Bytes} {body raw : Bytes} {store : SessionStore}

theorem answer_eq (handler : Bytes → HandlerM Bytes) (body : Bytes) (store : SessionStore) :
    (answer handler body).run store =
      match exec (attempt handler body) store with
      | (.ok response, store) => (response, store)
      | (.error _, store) => (generic, store) := by
  change (match (exec (attempt handler body) store).1 with
    | .ok response => (pure response : StateM SessionStore Response)
    | .error _ => pure generic) (exec (attempt handler body) store).2 = _
  rcases exec (attempt handler body) store with ⟨outcome, store'⟩
  cases outcome <;> rfl

theorem answer_undecoded {e : Failure} (h : Server.Main.b64decode body = .error e) :
    (answer handler body).run store = (generic, store) := by
  have hattempt : exec (attempt handler body) store = (.error e, store) :=
    Effects.exec_bind_error (by rw [h]; rfl)
  rw [answer_eq, hattempt]

theorem answer_decoded (h : Server.Main.b64decode body = .ok raw) :
    (answer handler body).run store =
      match exec (handler raw) store with
      | (.ok out, store) => (⟨200, "text/plain", Rfc4648.encode out⟩, store)
      | (.error _, store) => (generic, store) := by
  have hattempt : exec (attempt handler body) store = exec (handler raw >>= fun out =>
      return ⟨200, "text/plain", Rfc4648.encode out⟩) store :=
    Effects.exec_bind_ok (by rw [h]; rfl)
  rw [answer_eq, hattempt]
  rcases hexec : exec (handler raw) store with ⟨outcome, store'⟩
  cases outcome with
  | ok out => rw [Effects.exec_bind_ok hexec, Effects.exec_pure]
  | error e => rw [Effects.exec_bind_error hexec]

end Answer

end RankGate.Tools.TestServer
