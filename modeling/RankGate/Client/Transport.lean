/- Module: RankGate/Client/Transport
   source: client/src/net/http_client.cpp, client/src/net/protocol.cpp (decode_response,
     parse_pubkey, run_session)
   digest: The server's address, and the texts the client reads out of HTTP bodies. -/

import RankGate.Client.Base64
import RankGate.Client.Protocol
import RankGate.Foundation.Text

set_option autoImplicit false
set_option relaxedAutoImplicit false

namespace RankGate.Client.Transport

open ByteCodec (Bytes ascii)
open Effects (ensure)
open Protocol (Draws Endpoint Http)
open RankGate.Crypto (Primitives)

/-- A request by verb, host, port, path and body. -/
structure Network (m : Type → Type) where
  request : String → Bytes → UInt16 → String → Bytes → ExceptT String m Bytes

structure HttpClient where
  host : Bytes
  port : Int
  deriving DecidableEq

def isSpace (c : UInt8) : Bool := c = 0x20 || 0x09 ≤ c && c ≤ 0x0D

def isDigit (c : UInt8) : Bool := 0x30 ≤ c && c ≤ 0x39

/-- `std::stoi`: blanks, a sign, then digits up to the first other character. -/
def stoi (s : Bytes) : Except String Int := do
  let s := s.dropWhile isSpace
  let negative := s.head? = some 0x2D
  let s := if s.head? = some 0x2D ∨ s.head? = some 0x2B then s.tail else s
  let digits := s.takeWhile isDigit
  ensure (digits ≠ []) "invalid stoi argument"
  let value : Nat := digits.foldl (fun acc c => acc * 10 + (c.toNat - 0x30)) 0
  let n : Int := if negative then -value else value
  ensure (-2 ^ 31 ≤ n ∧ n < 2 ^ 31) "stoi argument out of range"
  return n

def scheme : Bytes := ascii "http://"

/-- Scheme off the front, path off the end, and the port behind a colon. -/
def HttpClient.ofUrl (baseUrl : Bytes) : Except String HttpClient := do
  let u := if scheme <+: baseUrl then baseUrl.drop scheme.length else baseUrl
  let u := u.takeWhile (· ≠ 0x2F)
  match u.idxOf? 0x3A with
  | some colon => return ⟨u.take colon, ← stoi (u.drop (colon + 1))⟩
  | none => return ⟨u, 80⟩

section Requests

variable {m : Type → Type} (net : Network m) (http : HttpClient)

/-- The port is cast to `INTERNET_PORT`. -/
def HttpClient.request (verb path : String) (body : Bytes) : ExceptT String m Bytes :=
  net.request verb http.host (UInt16.ofInt http.port) path body

def HttpClient.post (path : String) (body : Bytes) : ExceptT String m Bytes :=
  http.request net "POST" path body

def HttpClient.get (path : String) : ExceptT String m Bytes := http.request net "GET" path []

end Requests

def chars (b : Bytes) : String := String.ofList (b.map fun c => Char.ofNat c.toNat)

def isEnd (c : UInt8) : Bool := c = 0x20 || c = 0x0A || c = 0x0D

def decodeResponse (text : Bytes) : Except String Bytes := do
  let s := Text.trim isEnd text
  ensure (s ≠ []) "empty server response"
  ensure (s.head? ≠ some 0x7B) ("server rejected: " ++ chars s)
  Base64.b64decode s

def find (text pat : Bytes) (pos : Nat) : Option Nat :=
  ((text.drop pos).dropInfix? pat).map fun p => pos + p.1.length

def nyb (c : UInt8) : Except String Nat :=
  match Text.hexValue (Char.ofNat c.toNat) with
  | some v => .ok v
  | none => .error "public-key: bad hex digit"

def readHex : Bytes → Except String Bytes
  | hi :: lo :: hex => do
    let b := UInt8.ofNat (((← nyb hi) <<< 4) ||| (← nyb lo))
    return b :: (← readHex hex)
  | _ => return []

/-- `find` from `npos` finds nothing, so a missing colon is a missing quotation mark. -/
def parsePubkey (json : Bytes) : Except String Bytes :=
  match find json (ascii "public_key") 0 with
  | none => .error "public-key: missing field"
  | some k =>
    let q1 := (find json [0x3A] k).bind fun colon => find json [0x22] colon
    let q2 := q1.bind fun q1 => find json [0x22] (q1 + 1)
    match q1, q2 with
    | some q1, some q2 => do
      let hex := (json.drop (q1 + 1)).take (q2 - q1 - 1)
      ensure (hex.length % 2 = 0) "public-key: bad hex"
      readHex hex
    | _, _ => .error "public-key: malformed"

def path : Endpoint → String
  | .hello => "/api/v1/hello"
  | .exchange => "/api/v1/exchange"
  | .finalize => "/api/v1/finalize"

section Session

variable {m : Type → Type} [Monad m]

/-- The frames travel as base 64, and the key as a field of a document. -/
def HttpClient.over (net : Network m) (http : HttpClient) : Http m where
  publicKey := do
    let text ← http.get net "/api/v1/public-key"
    parsePubkey text
  post e raw := do
    let text ← http.post net (path e) (Base64.b64encode raw)
    decodeResponse text

def runSession (P : Primitives) (net : Network m) (serverUrl : Bytes) (d : Draws)
    (usernameNorm licenseStruct : Bytes) : ExceptT String m Bytes := do
  let http ← HttpClient.ofUrl serverUrl
  Protocol.runSession P (http.over net) d usernameNorm licenseStruct

end Session

end RankGate.Client.Transport
