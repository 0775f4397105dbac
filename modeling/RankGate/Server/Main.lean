/- Module: RankGate/Server/Main
   source: server/app/main.py, server/app/errors.py
   digest: The HTTP surface: bodies in base 64, and one constant body for every failure. -/

import RankGate.Server.Base64
import RankGate.Server.ChallengeLogic

set_option autoImplicit false
set_option relaxedAutoImplicit false

namespace RankGate.Server.Main

open ByteCodec (Bytes)
open Effects (exec)
open RankGate.Crypto (Primitives)
open RankGate.Server.ChallengeLogic
open RankGate.Server.Config (Env Failure)
open RankGate.Server.Sessions (HandlerM Session SessionStore)

inductive Json
  | bool (b : Bool)
  | int (n : Nat)
  | str (s : List Char)
  deriving DecidableEq

/-- The body `JSONResponse` makes of a dict. -/
abbrev Rendering := List (String × Json) → Bytes

def Plain (s : List Char) : Prop :=
  ∀ c ∈ s, 0x20 ≤ c.toNat ∧ c.toNat < 0x7F ∧ c ≠ '"' ∧ c ≠ '\\'

instance : DecidablePred Plain := fun s => List.decidableBAll _ s

def Json.Plain : Json → Prop
  | .str s => Main.Plain s
  | _ => True

instance : DecidablePred Json.Plain
  | .str s => inferInstanceAs (Decidable (Main.Plain s))
  | .bool _ | .int _ => instDecidableTrue

def quoted (s : List Char) : List Char := ['"'] ++ s ++ ['"']

def Json.text : Json → List Char
  | .bool true => "true".toList
  | .bool false => "false".toList
  | .int n => (Nat.repr n).toList
  | .str s => quoted s

/-- A dict of plain texts in the order of its fields, without blanks. -/
def compact (fields : List (String × Json)) : Bytes :=
  (['\x7b'] ++ [','].intercalate (fields.map fun p => quoted p.1.toList ++ [':'] ++ p.2.text) ++
    ['\x7d']).flatMap String.utf8EncodeChar

/-- What is documented of `JSONResponse`: an object, in `json.dumps` with the separators `,`, `:`. -/
structure Compact (render : Rendering) : Prop where
  brace : ∀ fields, (render fields).head? = some 0x7B
  plain : ∀ fields, (∀ p ∈ fields, Plain p.1.toList ∧ p.2.Plain) → render fields = compact fields

theorem compact_compact : Compact compact := ⟨fun _ => rfl, fun _ _ => rfl⟩

structure Reply where
  status : Nat
  body : Bytes
  deriving DecidableEq

def jsonResponse (render : Rendering) (fields : List (String × Json)) : Reply := ⟨200, render fields⟩

def plainTextResponse (body : Bytes) : Reply := ⟨200, body⟩

/-- `GENERIC_ERROR` -/
def genericErrorFields : List (String × Json) :=
  [("ok", .bool false), ("error", .str "invalid proof".toList)]

def genericError (render : Rendering) : Reply := jsonResponse render genericErrorFields

/-- What `bytes.strip()` takes away. -/
def isSpace (c : UInt8) : Bool := c = 0x20 || 0x09 ≤ c && c ≤ 0x0D

def b64decode (body : Bytes) : Except Failure Bytes :=
  (Base64.b64decode (Text.trim isSpace body)).mapError fun _ => .valueError

/-- The `try` block of `_run`. -/
def attempt (handler : Bytes → HandlerM Bytes) (body : Bytes) : HandlerM Reply := do
  let raw ← b64decode body
  let responseFrame ← handler raw
  return plainTextResponse (Rfc4648.encode responseFrame)

/-- Whatever the body or the handler raises, the reply is the same. -/
def run (render : Rendering) (handler : Bytes → HandlerM Bytes) (body : Bytes) :
    StateM SessionStore Reply := do
  match ← (attempt handler body).run with
  | .ok reply => return reply
  | .error _ => return genericError render

def hex (b : Bytes) : List Char := b.flatMap Text.hexByte

def isHexSpace (c : Char) : Bool := c = ' ' || 0x09 ≤ c.toNat && c.toNat ≤ 0x0D

/-- The loop of `bytes.fromhex`; `pos` is where the rest of the text begins. -/
def fromHexLoop : List Char → Nat → Except Nat Bytes
  | [], _ => .ok []
  | c :: s, pos =>
    if isHexSpace c then fromHexLoop s (pos + 1)
    else
      match Text.hexValue c, s with
      | none, _ => .error pos
      | some _, [] => .error (pos + 1)
      | some top, d :: s =>
        match Text.hexValue d with
        | none => .error (pos + 1)
        | some bot => (fromHexLoop s (pos + 2)).map (UInt8.ofNat (top * 16 + bot) :: ·)

/-- A character beyond ASCII is reported before any other. -/
def fromHex (s : List Char) : Except String Bytes :=
  let result : Except Nat Bytes :=
    match s.findIdx? (fun c => 0x80 ≤ c.toNat) with
    | some pos => .error pos
    | none => fromHexLoop s 0
  result.mapError fun pos => s!"non-hexadecimal number found in fromhex() arg at position {pos}"

/-- `str(exc)` of what `STORE.get` raises. -/
def showFailure : Failure → String
  | .proofError stage detail | .protocolError stage detail =>
    "ProofError(stage='" ++ stage ++ "', detail='" ++ detail ++ "')"
  | .keyError key => "'" ++ key ++ "'"
  | _ => ""

def transcriptFields (sid : Bytes) (sess : Session) : List (String × Json) :=
  [("ok", .bool true), ("session_id", .str (hex sid)),
    ("username_norm", .str (sess.usernameNorm.map fun c => Char.ofNat c.toNat)),
    ("transcript_state", .str (hex sess.transcriptState)), ("salt", .str (hex sess.salt)),
    ("client_counter", .int sess.clientCounter), ("server_counter", .int sess.serverCounter),
    ("proof1_ok", .bool sess.proof1Ok)]

/-- The `try` block; `payload` is the `session_id` of the body's JSON, or the text of the exception
that reading it raised. -/
def readTranscript (render : Rendering) (payload : Except String (List Char)) :
    ExceptT String (StateM SessionStore) Reply := do
  let sid ← payload.bind fromHex
  let sess ← ExceptT.mk (Functor.map (Except.mapError showFailure) (SessionStore.get sid).run)
  return jsonResponse render (transcriptFields sid sess)

def debugTranscript (render : Rendering) (serverDebug : Bool)
    (payload : Except String (List Char)) : StateM SessionStore Reply := do
  if serverDebug = false then return genericError render
  match ← (readTranscript render payload).run with
  | .ok reply => return reply
  | .error text => return jsonResponse render [("ok", .bool false), ("error", .str text.toList)]

inductive Call
  | health
  | publicKey
  | hello (draws : HelloDraws) (body : Bytes)
  | exchange (draws : ExchangeDraws) (body : Bytes)
  | finalize (draws : FinalizeDraws) (body : Bytes)
  | debugTranscript (payload : Except String (List Char))

def healthFields : List (String × Json) :=
  [("status", .str "ok".toList), ("service", .str "rankgate-insane".toList), ("version", .int 6)]

def publicKeyFields (P : Primitives) (env : Env) : List (String × Json) :=
  [("alg", .str "ed25519".toList), ("public_key", .str (hex (Config.serverSignPk P env)))]

inductive Route
  | health
  | publicKey
  | hello
  | exchange
  | finalize
  | debugTranscript
  deriving DecidableEq

def route? : String → String → Option Route
  | "GET", "/health" => some .health
  | "GET", "/api/v1/public-key" => some .publicKey
  | "POST", "/api/v1/hello" => some .hello
  | "POST", "/api/v1/exchange" => some .exchange
  | "POST", "/api/v1/finalize" => some .finalize
  | "POST", "/api/v1/debug/transcript" => some .debugTranscript
  | _, _ => none

def respond (P : Primitives) (env : Env) (render : Rendering) (serverDebug : Bool) :
    Call → StateM SessionStore Reply
  | .health => return jsonResponse render healthFields
  | .publicKey => return jsonResponse render (publicKeyFields P env)
  | .hello d body => run render (handleHello P env d) body
  | .exchange d body => run render (handleExchange P env d) body
  | .finalize d body => run render (handleFinalize P d) body
  | .debugTranscript payload => debugTranscript render serverDebug payload

section Run

variable {render : Rendering} {handler : Bytes → HandlerM Bytes} {body raw : Bytes}
  {store : SessionStore}

theorem run_eq (render : Rendering) (handler : Bytes → HandlerM Bytes) (body : Bytes)
    (store : SessionStore) :
    (run render handler body).run store =
      match exec (attempt handler body) store with
      | (.ok reply, store) => (reply, store)
      | (.error _, store) => (genericError render, store) := by
  change (match (exec (attempt handler body) store).1 with
    | .ok reply => (pure reply : StateM SessionStore Reply)
    | .error _ => pure (genericError render)) (exec (attempt handler body) store).2 = _
  rcases exec (attempt handler body) store with ⟨outcome, store'⟩
  cases outcome <;> rfl

theorem run_undecoded {e : Failure} (h : b64decode body = .error e) :
    (run render handler body).run store = (genericError render, store) := by
  have hattempt : exec (attempt handler body) store = (.error e, store) :=
    Effects.exec_bind_error (by rw [h]; rfl)
  rw [run_eq, hattempt]

theorem run_decoded (h : b64decode body = .ok raw) :
    (run render handler body).run store =
      match exec (handler raw) store with
      | (.ok frame, store) => (plainTextResponse (Rfc4648.encode frame), store)
      | (.error _, store) => (genericError render, store) := by
  have hattempt : exec (attempt handler body) store =
      exec (handler raw >>= fun responseFrame =>
        return plainTextResponse (Rfc4648.encode responseFrame)) store :=
    Effects.exec_bind_ok (by rw [h]; rfl)
  rw [run_eq, hattempt]
  rcases hexec : exec (handler raw) store with ⟨outcome, store'⟩
  cases outcome with
  | ok frame => rw [Effects.exec_bind_ok hexec, Effects.exec_pure]
  | error e => rw [Effects.exec_bind_error hexec]

theorem debugTranscript_eq (render : Rendering) (payload : Except String (List Char))
    (store : SessionStore) :
    (debugTranscript render true payload).run store =
      match exec (readTranscript render payload) store with
      | (.ok reply, store) => (reply, store)
      | (.error text, store) =>
        (jsonResponse render [("ok", .bool false), ("error", .str text.toList)], store) := by
  change (match (exec (readTranscript render payload) store).1 with
    | .ok reply => (pure reply : StateM SessionStore Reply)
    | .error text => pure (jsonResponse render [("ok", .bool false), ("error", .str text.toList)]))
      (exec (readTranscript render payload) store).2 = _
  rcases exec (readTranscript render payload) store with ⟨outcome, store'⟩
  cases outcome <;> rfl

end Run

section Hex

theorem mem_hex {b : Bytes} {c : Char} (h : c ∈ hex b) : ∃ n < 16, c = Text.hexDigit n := by
  obtain ⟨b, -, hb⟩ := List.mem_flatMap.mp h
  rcases List.mem_pair.mp hb with rfl | rfl
  · exact ⟨_, Nat.div_lt_of_lt_mul b.toNat_lt, rfl⟩
  · exact ⟨_, Nat.mod_lt _ (by decide), rfl⟩

theorem plain_hex (b : Bytes) : Plain (hex b) := by
  have hdigit : ∀ n < 16, 0x20 ≤ (Text.hexDigit n).toNat ∧ (Text.hexDigit n).toNat < 0x7F ∧
      Text.hexDigit n ≠ '"' ∧ Text.hexDigit n ≠ '\\' := by decide
  intro c hc
  obtain ⟨n, hn, rfl⟩ := mem_hex hc
  exact hdigit n hn

theorem fromHexLoop_hex (b : Bytes) (pos : Nat) :
    fromHexLoop (hex b) pos = .ok b := by
  induction b generalizing pos with
  | nil => rfl
  | cons b rest ih =>
    obtain ⟨hhigh, hlow⟩ := Text.hexDigits_of_byte b
    have hspace : isHexSpace (Text.hexDigit (b.toNat / 16)) = false := by
      have hall : ∀ n < 16, isHexSpace (Text.hexDigit n) = false := by decide
      exact hall _ (Nat.div_lt_of_lt_mul b.toNat_lt)
    have hvalue : UInt8.ofNat (b.toNat / 16 * 16 + b.toNat % 16) = b := by
      rw [Nat.div_add_mod' b.toNat 16, UInt8.ofNat_toNat]
    change fromHexLoop (_ :: _ :: hex rest) pos = _
    rw [fromHexLoop.eq_def]
    simp only [hspace, Bool.false_eq_true, if_false, hhigh, hlow, ih]
    exact congrArg (fun b => Except.ok (b :: rest)) hvalue

theorem fromHex_hex (b : Bytes) : fromHex (hex b) = .ok b := by
  have hascii : (hex b).findIdx? (fun c => 0x80 ≤ c.toNat) = none := by
    rw [List.findIdx?_eq_none_iff]
    intro c hc
    obtain ⟨n, hn, rfl⟩ := mem_hex hc
    have hall : ∀ n < 16, decide (0x80 ≤ (Text.hexDigit n).toNat) = false := by decide
    exact hall n hn
  unfold fromHex
  rw [hascii]
  exact congrArg (Except.mapError _) (fromHexLoop_hex b 0)

theorem fromHex_error {c : Char} (hspace : isHexSpace c = false)
    (hvalue : Text.hexValue c = none) (text : List Char) : ∃ e, fromHex (c :: text) = .error e := by
  unfold fromHex
  cases (c :: text).findIdx? fun c => 0x80 ≤ c.toNat with
  | some pos => exact ⟨_, rfl⟩
  | none =>
    refine ⟨_, congrArg (Except.mapError _) (?_ : _ = Except.error 0)⟩
    rw [fromHexLoop.eq_def]
    simp only [hspace, Bool.false_eq_true, if_false, hvalue]

end Hex

end RankGate.Server.Main
