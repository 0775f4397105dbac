/- Module: RankGate/Tools/TranscriptParser
   source: tools/parse_transcript.py
   digest: Captured frames, line by line: hexadecimal or base 64, headers always, payloads under a key. -/

import RankGate.Server.Main
import RankGate.Server.Verifier

set_option autoImplicit false
set_option relaxedAutoImplicit false

namespace RankGate.Tools.TranscriptParser

open ByteCodec (Bytes)
open Effects (ensure exec)
open RankGate.Crypto (Primitives)
open RankGate.Server.Main (fromHex hex showFailure)
open RankGate.Server.Protocol (Frame)

def mtError : Nat := 0xFF

def mtNames : List (Nat × String) :=
  [(Server.Config.mtHello, "HELLO"), (Server.Config.mtServerChallenge, "SERVER_CHALLENGE"),
    (Server.Config.mtClientProof1, "CLIENT_PROOF_1"),
    (Server.Config.mtServerProof1, "SERVER_PROOF_1"),
    (Server.Config.mtClientProof2, "CLIENT_PROOF_2"), (Server.Config.mtFinalize, "FINALIZE"),
    (Server.Config.mtSealedFlag, "SEALED_FLAG"), (mtError, "ERROR")]

inductive Direction
  | c2s
  | s2c
  deriving DecidableEq

def Direction.name : Direction → String
  | .c2s => "c2s"
  | .s2c => "s2c"

def directions : List (Nat × Direction) :=
  [(Server.Config.mtClientProof1, .c2s), (Server.Config.mtClientProof2, .c2s),
    (Server.Config.mtFinalize, .c2s), (Server.Config.mtServerProof1, .s2c),
    (Server.Config.mtSealedFlag, .s2c)]

def isBreak (c : Char) : Bool :=
  0x0A ≤ c.toNat && c.toNat ≤ 0x0D || 0x1C ≤ c.toNat && c.toNat ≤ 0x1E || c.toNat = 0x85 ||
    c.toNat = 0x2028 || c.toNat = 0x2029

/-- The lines of a text, of which `line` has begun; a carriage return and a line feed are one
break. -/
def splitLoop : List Char → List Char → List (List Char)
  | [], line => if line = [] then [] else [line]
  | '\r' :: '\n' :: text, line => line :: splitLoop text []
  | c :: text, line => if isBreak c then line :: splitLoop text [] else splitLoop text (line ++ [c])

def splitLines (text : List Char) : List (List Char) := splitLoop text []

def b64decode (text : List Char) : Except String Bytes := do
  ensure (text.all fun c => c.toNat < 0x80) "string argument should contain only ASCII characters"
  Server.Base64.b64decode (text.map fun c => UInt8.ofNat c.toNat)

def decodeLine (line : List Char) : Except String Bytes :=
  let line := Text.trim (fun c => Server.Verifier.isSpace c.toNat) line
  if line = [] then .ok []
  else
    match fromHex line with
    | .ok raw => .ok raw
    | .error _ => b64decode line

section Dump

variable (P : Primitives) (keys : Direction → Option Bytes)

def hexText (b : Bytes) : String := String.ofList (hex b)

/-- An empty key counts as none. -/
def payloadLine (frame : Frame) : String :=
  match directions.lookup frame.messageType with
  | none => "  payload     : " ++ hexText frame.encryptedPayload
  | some direction =>
    match keys direction with
    | none | some [] =>
      "  payload     : <encrypted; supply --" ++ direction.name ++ "-key to decrypt>"
    | some key =>
      let attempt : Except String Bytes := do
        let aad ← frame.header.mapError showFailure
        Server.CryptoBox.aeadDecrypt P key frame.nonce frame.encryptedPayload frame.authTag aad
      match attempt with
      | .ok pt => "  decrypted   : " ++ hexText pt
      | .error exc => "  decrypt     : FAILED (" ++ exc ++ ")"

def dump (frame : Frame) : List String :=
  let name := (mtNames.lookup frame.messageType).getD
    ("0x" ++ String.ofList (Text.hexByte (UInt8.ofNat frame.messageType)))
  ["== " ++ name ++ " ==",
    "  session_id  : " ++ hexText frame.sessionId,
    "  counter     : " ++ toString frame.counter,
    "  nonce       : " ++ hexText frame.nonce,
    "  payload_len : " ++ toString frame.encryptedPayload.length,
    "  auth_tag    : " ++ hexText frame.authTag,
    "  transcript  : " ++ hexText frame.transcriptMac,
    payloadLine P keys frame]

end Dump

section Main

variable (P : Primitives)

/-- What is printed stays printed when an exception ends the tool. -/
abbrev Tool := ExceptT String (StateM (List String))

def print (lines : List String) : Tool Unit := modify (· ++ lines)

def parseLines (keys : Direction → Option Bytes) : List (List Char) → Tool Unit
  | [] => return
  | line :: lines => do
    let raw ← (decodeLine line : Except String Bytes)
    if raw ≠ [] then
      match Frame.parse raw with
      | .error exc => print ["!! unparseable frame: " ++ showFailure exc]
      | .ok frame => print (dump P keys frame ++ [""])
    parseLines keys lines

def parseKey : Option (List Char) → Except String (Option Bytes)
  | none | some [] => .ok none
  | some text => (fromHex text).map some

def main (c2sKey s2cKey : Option (List Char)) (text : List Char) : Tool Unit := do
  let c2s ← (parseKey c2sKey : Except String (Option Bytes))
  let s2c ← (parseKey s2cKey : Except String (Option Bytes))
  parseLines P (fun d => if d = .c2s then c2s else s2c) (splitLines text)

end Main

section Payload

variable {P : Primitives} {keys : Direction → Option Bytes} {frame : Frame} {d : Direction}

theorem payloadLine_plain (h : directions.lookup frame.messageType = none) :
    payloadLine P keys frame = "  payload     : " ++ hexText frame.encryptedPayload := by
  rw [payloadLine, h]

theorem payloadLine_withheld (h : directions.lookup frame.messageType = some d)
    (hkey : keys d = none) : payloadLine P keys frame =
      "  payload     : <encrypted; supply --" ++ d.name ++ "-key to decrypt>" := by
  rw [payloadLine, h]
  simp only [hkey]

theorem payloadLine_opened {key aad pt : Bytes}
    (h : directions.lookup frame.messageType = some d) (hkey : keys d = some key) (hne : key ≠ [])
    (haad : frame.header = .ok aad)
    (hpt : Server.CryptoBox.aeadDecrypt P key frame.nonce frame.encryptedPayload frame.authTag aad =
      .ok pt) :
    payloadLine P keys frame = "  decrypted   : " ++ hexText pt := by
  obtain ⟨c, rest, rfl⟩ := List.exists_cons_of_ne_nil hne
  have hattempt : (do
      let aad ← frame.header.mapError showFailure
      Server.CryptoBox.aeadDecrypt P (c :: rest) frame.nonce frame.encryptedPayload frame.authTag
        aad) = .ok pt := by
    rw [haad]
    exact hpt
  rw [payloadLine, h]
  simp only [hkey, hattempt]

end Payload

section Lines

theorem splitLoop_line {l : List Char} (h : ∀ c ∈ l, isBreak c = false) (text line : List Char) :
    splitLoop (l ++ '\n' :: text) line = (line ++ l) :: splitLoop text [] := by
  induction l generalizing line with
  | nil =>
    rw [List.nil_append, List.append_nil, splitLoop.eq_def]
    rfl
  | cons c l ih =>
    have hc := h c List.mem_cons_self
    have hreturn : c ≠ '\r' := by
      rintro rfl
      exact absurd hc (by decide)
    rw [List.cons_append, splitLoop, if_neg (ne_true_of_eq_false hc),
      ih fun d hd => h d (List.mem_cons_of_mem c hd), List.append_assoc]
    · rfl
    · exact fun _ hr => absurd hr hreturn

theorem splitLines_flatMap {lines : List (List Char)} (h : ∀ l ∈ lines, ∀ c ∈ l, isBreak c = false) :
    splitLines (lines.flatMap (· ++ ['\n'])) = lines := by
  induction lines with
  | nil => rfl
  | cons l lines ih =>
    have htail := ih fun k hk => h k (List.mem_cons_of_mem l hk)
    rw [List.flatMap_cons, List.append_assoc, splitLines]
    refine (splitLoop_line (h l List.mem_cons_self) _ []).trans ?_
    exact congrArg (l :: ·) htail

end Lines

section Decoding

variable {line text : List Char} {raw : Bytes}

theorem decodeLine_blank (h : Text.trim (fun c => Server.Verifier.isSpace c.toNat) line = []) :
    decodeLine line = .ok [] := by
  unfold decodeLine
  exact if_pos h

theorem decodeLine_hex (h : Text.trim (fun c => Server.Verifier.isSpace c.toNat) line = text)
    (hne : text ≠ []) (hraw : fromHex text = .ok raw) : decodeLine line = .ok raw := by
  simp only [decodeLine, h, hne, if_false, hraw]

theorem decodeLine_base64 (h : Text.trim (fun c => Server.Verifier.isSpace c.toNat) line = text)
    (hne : text ≠ []) (hraw : ∃ e, fromHex text = .error e) : decodeLine line = b64decode text := by
  obtain ⟨e, he⟩ := hraw
  simp only [decodeLine, h, hne, if_false, he]

end Decoding

section Run

variable (P : Primitives) (keys : Direction → Option Bytes)

def output (raw : Bytes) : List String :=
  if raw = [] then []
  else
    match Frame.parse raw with
    | .error exc => ["!! unparseable frame: " ++ showFailure exc]
    | .ok frame => dump P keys frame ++ [""]

variable {P keys}

theorem output_garbled {raw : Bytes} {exc : Server.Config.Failure} (hne : raw ≠ [])
    (h : Frame.parse raw = .error exc) :
    output P keys raw = ["!! unparseable frame: " ++ showFailure exc] := by
  rw [output, if_neg hne, h]

theorem output_frame {raw : Bytes} {frame : Frame} (hne : raw ≠ [])
    (h : Frame.parse raw = .ok frame) : output P keys raw = dump P keys frame ++ [""] := by
  rw [output, if_neg hne, h]

variable (P keys)

theorem exec_parseLines_cons {line : List Char} {raw : Bytes} (h : decodeLine line = .ok raw)
    (lines : List (List Char)) (out : List String) :
    exec (parseLines P keys (line :: lines)) out =
      exec (parseLines P keys lines) (out ++ output P keys raw) := by
  rw [parseLines]
  have hread : exec (liftM (decodeLine line) : Tool Bytes) out = (.ok raw, out) := by
    rw [h]
    rfl
  refine (Effects.exec_bind_ok hread).trans ?_
  unfold output
  by_cases hraw : raw = []
  · rw [if_pos hraw, if_neg (not_not.mpr hraw), List.append_nil]
  · rw [if_neg hraw, if_pos hraw]
    cases Frame.parse raw with
    | error exc => rfl
    | ok frame => rfl

theorem exec_parseLines {lines : List (List Char)} {raws : List Bytes}
    (h : List.Forall₂ (fun line raw => decodeLine line = .ok raw) lines raws) (out : List String) :
    exec (parseLines P keys lines) out = (.ok (), out ++ raws.flatMap (output P keys)) := by
  induction h generalizing out with
  | nil => exact congrArg (Prod.mk _) (List.append_nil out).symm
  | cons hline _ ih =>
    rw [exec_parseLines_cons P keys hline, ih, List.flatMap_cons, List.append_assoc]

/-- The tool, on options that are keys and a file whose every line is read. -/
theorem exec_main {c2sKey s2cKey : Option (List Char)} {text : List Char} {raws : List Bytes}
    (hc2s : parseKey c2sKey = .ok (keys .c2s)) (hs2c : parseKey s2cKey = .ok (keys .s2c))
    (h : List.Forall₂ (fun line raw => decodeLine line = .ok raw) (splitLines text) raws) :
    exec (main P c2sKey s2cKey text) [] = (.ok (), raws.flatMap (output P keys)) := by
  have hkeys : (fun d => if d = Direction.c2s then keys .c2s else keys .s2c) = keys := by
    funext d
    cases d <;> rfl
  rw [main, hc2s, hs2c]
  refine (Effects.exec_bind_ok (Effects.exec_lift (.ok (keys .c2s)))).trans ?_
  refine (Effects.exec_bind_ok (Effects.exec_lift (.ok (keys .s2c)))).trans ?_
  rw [hkeys]
  exact exec_parseLines P keys h []

end Run

end RankGate.Tools.TranscriptParser
