/- Module: RankGate/Session/Captured
   source: tools/parse_transcript.py, client/src/net/protocol.cpp (run_session),
     server/app/challenge_logic.py
   digest: A session's frames, captured in either notation and any order, are shown for what they are. -/

import RankGate.Session.Completeness
import RankGate.Tools.TranscriptParser
import RankGate.Wire.HttpBodies

set_option autoImplicit false
set_option relaxedAutoImplicit false

namespace RankGate.Session.Captured

open ByteCodec (Bytes ascii)
open Effects (exec)
open RankGate.Crypto (Primitives)
open RankGate.Handlers.Requests (sampleDraw sampleEnv)
open RankGate.Handlers.Specs (innerBytes)
open RankGate.Server.Config (Env Failure)
open RankGate.Server.Main (fromHex hex showFailure fromHex_error fromHex_hex mem_hex)
open RankGate.Server.Protocol (Frame)
open RankGate.Session.Script (Play)
open RankGate.Tools.TranscriptParser
open RankGate.Wire.ChannelLockstep (AeadInverts aeadDecrypt_aeadFrame)

inductive Writing
  | hex
  | base64
  deriving DecidableEq

def chars (b : Bytes) : List Char := b.map fun c => Char.ofNat c.toNat

def Writing.text : Writing → Bytes → List Char
  | .hex, b => Server.Main.hex b
  | .base64, b => chars (Rfc4648.encode b)

abbrev Blanks := {pad : List Char // ∀ c ∈ pad, c = ' ' ∨ c = '\t'}

section Characters

/-- Neither a blank, for `strip`, nor the end of a line. -/
def Plain (c : Char) : Prop := Server.Verifier.isSpace c.toNat = false ∧ isBreak c = false

theorem plain_hex {b : Bytes} {c : Char} (h : c ∈ hex b) : Plain c := by
  obtain ⟨n, hn, rfl⟩ := mem_hex h
  have hall : ∀ n < 16, Server.Verifier.isSpace (Text.hexDigit n).toNat = false ∧
      isBreak (Text.hexDigit n) = false := by decide
  exact hall n hn

theorem base64_char {b : Bytes} {c : UInt8} (h : c ∈ Rfc4648.encode b) :
    Plain (Char.ofNat c.toNat) ∧ (Char.ofNat c.toNat).toNat < 0x80 ∧
      UInt8.ofNat (Char.ofNat c.toNat).toNat = c := by
  have hall : ∀ c ∈ Rfc4648.base64.symbols ++ [Rfc4648.pad],
      (Server.Verifier.isSpace (Char.ofNat c.toNat).toNat = false ∧
        isBreak (Char.ofNat c.toNat) = false) ∧ (Char.ofNat c.toNat).toNat < 0x80 ∧
      UInt8.ofNat (Char.ofNat c.toNat).toNat = c := by decide +kernel
  exact hall c (Wire.HttpBodies.mem_encode h)

theorem plain_text {w : Writing} {b : Bytes} {c : Char} (h : c ∈ w.text b) : Plain c := by
  cases w with
  | hex => exact plain_hex h
  | base64 =>
    obtain ⟨d, hd, rfl⟩ := List.mem_map.mp h
    exact (base64_char hd).1

theorem blank_facts {pad : Blanks} {c : Char} (h : c ∈ pad.val) :
    Server.Verifier.isSpace c.toNat = true ∧ isBreak c = false := by
  rcases pad.property c h with rfl | rfl
  · decide
  · decide

end Characters

section Reading

variable {lead trail : Blanks} {b : Bytes}

theorem trim_written {text : List Char} (h : ∀ c ∈ text, Plain c) :
    Text.trim (fun c => Server.Verifier.isSpace c.toNat) (lead.val ++ (text ++ trail.val)) = text :=
  Text.trim_padded (fun _ hc => (blank_facts hc).1) (fun c hc => (h c hc).1)
    fun _ hc => (blank_facts hc).1

theorem decode_blank (pad : Blanks) : decodeLine pad.val = .ok [] := by
  have htrim := @trim_written pad ⟨[], fun _ hc => nomatch hc⟩ [] fun _ hc => nomatch hc
  rw [List.append_nil, List.append_nil] at htrim
  exact decodeLine_blank htrim

theorem decode_hex (hb : b ≠ []) : decodeLine (lead.val ++ (hex b ++ trail.val)) = .ok b := by
  obtain ⟨c, b, rfl⟩ := List.exists_cons_of_ne_nil hb
  have hne : hex (c :: b) ≠ [] := List.cons_ne_nil _ _
  exact decodeLine_hex (trim_written fun c hc => plain_hex hc) hne (fromHex_hex _)

theorem b64decode_chars (b : Bytes) : b64decode (chars (Rfc4648.encode b)) = .ok b := by
  have hascii : (chars (Rfc4648.encode b)).all (fun c => c.toNat < 0x80) = true := by
    refine List.all_eq_true.mpr fun c hc => decide_eq_true ?_
    obtain ⟨d, hd, rfl⟩ := List.mem_map.mp hc
    exact (base64_char hd).2.1
  have hbytes : (chars (Rfc4648.encode b)).map (fun c => UInt8.ofNat c.toNat) =
      Rfc4648.encode b := by
    rw [chars, List.map_map]
    exact (List.map_congr_left fun c hc => (base64_char hc).2.2).trans (List.map_id _)
  unfold b64decode
  rw [Effects.except_ensure_true hascii, hbytes]
  exact Wire.TransportBase64.server_b64decode_encode b

theorem decode_base64 (hb : b ≠ []) (hraw : ∃ e, fromHex (chars (Rfc4648.encode b)) = .error e) :
    decodeLine (lead.val ++ (chars (Rfc4648.encode b) ++ trail.val)) = .ok b := by
  have hplain : ∀ c ∈ chars (Rfc4648.encode b), Plain c :=
    fun c hc => plain_text (w := .base64) hc
  have hne : chars (Rfc4648.encode b) ≠ [] :=
    fun h => Wire.HttpBodies.encode_ne_nil hb (List.map_eq_nil_iff.mp h)
  exact (decodeLine_base64 (trim_written hplain) hne hraw).trans (b64decode_chars _)

theorem decode_written {w : Writing} (hb : b ≠ [])
    (hraw : w = .base64 → ∃ e, fromHex (chars (Rfc4648.encode b)) = .error e) :
    decodeLine (lead.val ++ (w.text b ++ trail.val)) = .ok b := by
  cases w with
  | hex => exact decode_hex hb
  | base64 => exact decode_base64 hb (hraw rfl)

/-- A frame in base 64 begins with a letter that is no hexadecimal digit. -/
theorem fromHex_frame (hb : Server.Config.magic <+: b) :
    ∃ e, fromHex (chars (Rfc4648.encode b)) = .error e := by
  obtain ⟨rest, rfl⟩ := hb
  have hopening : Rfc4648.base64.numeral 4 (ByteCodec.beNat [0x52, 0x47, 0x36]) =
      0x55 :: ascii "kc2" := by decide
  have htext : chars (Rfc4648.encode (Server.Config.magic ++ rest)) =
      'U' :: (chars (ascii "kc2") ++ chars (Rfc4648.encode (0x00 :: rest))) := by
    have hsplit : Server.Config.magic ++ rest = [0x52, 0x47, 0x36] ++ 0x00 :: rest := rfl
    rw [hsplit, Rfc4648.encode_append rfl, hopening, chars, List.map_append]
    rfl
  rw [htext]
  exact fromHex_error (by decide) (by decide) _

end Reading

inductive Stage
  | hello
  | serverChallenge
  | clientProof1
  | serverProof1
  | clientProof2
  | sealedFlag
  deriving DecidableEq

section Stages

variable (P : Primitives) (env : Env) (x : Play)

def Stage.frame : Stage → Frame
  | .hello => x.hello P
  | .serverChallenge => x.challenge P env
  | .clientProof1 => x.proof1 P env
  | .serverProof1 => x.serverProof1 P env
  | .clientProof2 => x.proof2 P env
  | .sealedFlag => x.sealedFlag P env

def Stage.name : Stage → String
  | .hello => "HELLO"
  | .serverChallenge => "SERVER_CHALLENGE"
  | .clientProof1 => "CLIENT_PROOF_1"
  | .serverProof1 => "SERVER_PROOF_1"
  | .clientProof2 => "CLIENT_PROOF_2"
  | .sealedFlag => "SEALED_FLAG"

def Stage.direction : Stage → Option Direction
  | .hello | .serverChallenge => none
  | .clientProof1 | .clientProof2 => some .c2s
  | .serverProof1 | .sealedFlag => some .s2c

def Stage.plaintext : Stage → Bytes
  | .hello => Client.Protocol.helloPayload P x.client x.name
  | .serverChallenge => Server.ChallengeLogic.challengePayload P env (x.t1 P) (x.serverPub P)
      x.serverRandom
  | .clientProof1 => x.proof1Payload P env
  | .serverProof1 => x.serverProof1Payload P env
  | .clientProof2 => x.proof2Payload P env
  | .sealedFlag => innerBytes P x.server.finalize (x.keys P env) (x.t5 P env).state

def sessionKey : Direction → Bytes
  | .c2s => (x.keys P env).c2s
  | .s2c => (x.keys P env).s2c

variable (given : Direction → Bool)

def Stage.content (s : Stage) : String :=
  match s.direction with
  | none => "  payload     : " ++ hexText (s.plaintext P env x)
  | some d =>
    if given d then "  decrypted   : " ++ hexText (s.plaintext P env x)
    else "  payload     : <encrypted; supply --" ++ d.name ++ "-key to decrypt>"

def Stage.report (s : Stage) : List String :=
  let f := s.frame P env x
  ["== " ++ s.name ++ " ==",
    "  session_id  : " ++ hexText x.sid,
    "  counter     : " ++ toString f.counter,
    "  nonce       : " ++ hexText f.nonce,
    "  payload_len : " ++ toString (s.plaintext P env x).length,
    "  auth_tag    : " ++ hexText f.authTag,
    "  transcript  : " ++ hexText f.transcriptMac,
    s.content P env x given,
    ""]

end Stages

/-- Bytes that are no frame, and what is wrong with them. -/
structure Garbled where
  raw : Bytes
  writing : Writing
  failure : Failure
  ne_nil : raw ≠ []
  parse_eq : Frame.parse raw = .error failure
  /-- Base 64 that is also hexadecimal would be read as that. -/
  read : writing = .base64 → ∃ e, fromHex (chars (Rfc4648.encode raw)) = .error e

inductive Entry
  | blank (pad : Blanks)
  | frame (lead : Blanks) (w : Writing) (s : Stage) (trail : Blanks)
  | garbled (lead : Blanks) (g : Garbled) (trail : Blanks)

section Capture

variable (P : Primitives) (env : Env) (x : Play) (given : Direction → Bool)

def Entry.line : Entry → List Char
  | .blank pad => pad.val
  | .frame lead w s trail => lead.val ++ (w.text (s.frame P env x).bytes ++ trail.val)
  | .garbled lead g trail => lead.val ++ (g.writing.text g.raw ++ trail.val)

def Entry.raw : Entry → Bytes
  | .blank _ => []
  | .frame _ _ s _ => (s.frame P env x).bytes
  | .garbled _ g _ => g.raw

def Entry.report : Entry → List String
  | .blank _ => []
  | .frame _ _ s _ => s.report P env x given
  | .garbled _ g _ => ["!! unparseable frame: " ++ showFailure g.failure]

def capture (entries : List Entry) : List Char :=
  entries.flatMap fun e => e.line P env x ++ ['\n']

def keyOption (d : Direction) : Option (List Char) :=
  if given d then some (hex (sessionKey P env x d)) else none

def held (d : Direction) : Option Bytes :=
  if given d then some (sessionKey P env x d) else none

end Capture

section Shown

variable {P : Primitives} {env : Env} {x : Play}

theorem bytes_magic (f : Frame) : Server.Config.magic <+: f.bytes := by
  simp only [Frame.bytes, Frame.preMacBytes, Frame.headerBytes, List.append_assoc]
  exact List.prefix_append _ _

theorem bytes_ne_nil (f : Frame) : f.bytes ≠ [] := by
  intro h
  exact absurd (List.prefix_nil.mp (h ▸ bytes_magic f)) (List.cons_ne_nil _ _)

theorem sessionKey_ne_nil (d : Direction) : sessionKey P env x d ≠ [] := by
  have hlength : (sessionKey P env x d).length = 32 := by
    cases d with
    | c2s => exact P.length_hmacSha256 _ _
    | s2c => exact P.length_hmacSha256 _ _
  rintro h
  rw [h] at hlength
  cases hlength

theorem parseKey_option (given : Direction → Bool) (d : Direction) :
    parseKey (keyOption P env x given d) = .ok (held P env x given d) := by
  unfold keyOption held
  cases given d with
  | false => rfl
  | true =>
    obtain ⟨c, rest, hkey⟩ := List.exists_cons_of_ne_nil (@sessionKey_ne_nil P env x d)
    have hread := fromHex_hex (c :: rest)
    rw [if_pos rfl, if_pos rfl, hkey]
    change (fromHex (hex (c :: rest))).map some = _
    rw [hread]
    rfl

theorem decode_line (e : Entry) : decodeLine (e.line P env x) = .ok (e.raw P env x) := by
  cases e with
  | blank pad => exact decode_blank pad
  | garbled lead g trail => exact decode_written g.ne_nil g.read
  | frame lead w s trail => exact decode_written (bytes_ne_nil _) fun _ => fromHex_frame (bytes_magic _)

theorem line_unbroken (e : Entry) : ∀ c ∈ e.line P env x, isBreak c = false := by
  have hpadded {lead trail : Blanks} {text : List Char} (h : ∀ c ∈ text, Plain c) :
      ∀ c ∈ lead.val ++ (text ++ trail.val), isBreak c = false := by
    intro c hc
    rcases List.mem_append.mp hc with hc | hc
    · exact (blank_facts hc).2
    · rcases List.mem_append.mp hc with hc | hc
      · exact (h c hc).2
      · exact (blank_facts hc).2
  cases e with
  | blank pad => exact fun c hc => (blank_facts hc).2
  | garbled lead g trail => exact hpadded fun c hc => plain_text hc
  | frame lead w s trail => exact hpadded fun c hc => plain_text hc

theorem lookup_direction (s : Stage) :
    directions.lookup (s.frame P env x).messageType = s.direction := by cases s <;> rfl

theorem length_encryptedPayload (s : Stage) :
    (s.frame P env x).encryptedPayload.length = (s.plaintext P env x).length := by
  cases s with
  | hello => rfl
  | serverChallenge => rfl
  | clientProof1 => exact Server.CryptoBox.length_aeadEncrypt_fst P _ _ _ _
  | serverProof1 => exact Server.CryptoBox.length_aeadEncrypt_fst P _ _ _ _
  | clientProof2 => exact Server.CryptoBox.length_aeadEncrypt_fst P _ _ _ _
  | sealedFlag => exact Server.CryptoBox.length_aeadEncrypt_fst P _ _ _ _

section Honest

variable (h : x.Honest P env)

include h

theorem frame_wellFormed (s : Stage) : (s.frame P env x).WellFormed := by
  cases s with
  | hello => exact Play.hello_wellFormed h
  | serverChallenge => exact Play.challenge_wellFormed P env x
  | clientProof1 => exact Play.proof1_wellFormed h
  | serverProof1 => exact Play.serverProof1_wellFormed P env x
  | clientProof2 => exact Play.proof2_wellFormed P env x
  | sealedFlag => exact Play.sealedFlag_wellFormed P env x

theorem opens (s : Stage) {d : Direction} (hd : s.direction = some d) :
    Server.CryptoBox.aeadDecrypt P (sessionKey P env x d) (s.frame P env x).nonce
      (s.frame P env x).encryptedPayload (s.frame P env x).authTag (s.frame P env x).headerBytes =
        .ok (s.plaintext P env x) := by
  cases s with
  | hello => cases hd
  | serverChallenge => cases hd
  | clientProof1 =>
    cases hd
    exact aeadDecrypt_aeadFrame P _ _ _ _ _ _ h.aead
  | serverProof1 =>
    cases hd
    exact aeadDecrypt_aeadFrame P _ _ _ _ _ _ h.aead
  | clientProof2 =>
    cases hd
    exact aeadDecrypt_aeadFrame P _ _ _ _ _ _ h.aead
  | sealedFlag =>
    cases hd
    exact aeadDecrypt_aeadFrame P _ _ _ _ _ _ h.aead

theorem payloadLine_frame (given : Direction → Bool) (s : Stage) :
    payloadLine P (held P env x given) (s.frame P env x) = s.content P env x given := by
  have hlookup := @lookup_direction P env x s
  unfold Stage.content
  cases hd : s.direction with
  | none =>
    rw [hd] at hlookup
    rw [payloadLine_plain hlookup]
    cases s with
    | hello => rfl
    | serverChallenge => rfl
    | clientProof1 => cases hd
    | serverProof1 => cases hd
    | clientProof2 => cases hd
    | sealedFlag => cases hd
  | some d =>
    rw [hd] at hlookup
    cases hgiven : given d with
    | false =>
      have hheld : held P env x given d = none := if_neg (ne_true_of_eq_false hgiven)
      exact (payloadLine_withheld hlookup hheld).trans (if_neg (ne_true_of_eq_false hgiven)).symm
    | true =>
      have hheld : held P env x given d = some (sessionKey P env x d) := if_pos hgiven
      have hopened := payloadLine_opened hlookup hheld (sessionKey_ne_nil d)
        (frame_wellFormed h s).header_eq (opens h s hd)
      exact hopened.trans (if_pos hgiven).symm

theorem dump_frame (given : Direction → Bool) (s : Stage) :
    dump P (held P env x given) (s.frame P env x) ++ [""] = s.report P env x given := by
  have hname : (mtNames.lookup (s.frame P env x).messageType).getD ("0x" ++ String.ofList
      (Text.hexByte (UInt8.ofNat (s.frame P env x).messageType))) = s.name := by cases s <;> rfl
  have hsid : (s.frame P env x).sessionId = x.sid := by cases s <;> rfl
  rw [dump, Stage.report, payloadLine_frame h, hname, hsid, length_encryptedPayload]
  rfl

theorem output_raw (given : Direction → Bool) (e : Entry) :
    output P (held P env x given) (e.raw P env x) = e.report P env x given := by
  cases e with
  | blank pad => exact if_pos rfl
  | garbled lead g trail => exact output_garbled g.ne_nil g.parse_eq
  | frame lead w s trail =>
    exact (output_frame (bytes_ne_nil _) (Frame.parse_bytes (frame_wellFormed h s))).trans
      (dump_frame h given s)

end Honest

end Shown

/-- Whatever is captured of a session, in whichever notation and order, between blank lines and bytes
that are no frames: the tool shows each frame for what it is, with the plaintext of every frame that
travelled in the clear or under a key that was given, and it reaches the end of the file. -/
theorem capture_is_shown {P : Primitives} {env : Env} {x : Play} (h : x.Honest P env)
    (given : Direction → Bool) (entries : List Entry) :
    exec (main P (keyOption P env x given .c2s) (keyOption P env x given .s2c)
      (capture P env x entries)) [] = (.ok (), entries.flatMap (Entry.report P env x given)) := by
  have hlines : splitLines (capture P env x entries) = entries.map (Entry.line P env x) := by
    have hbreak : ∀ l ∈ entries.map (Entry.line P env x), ∀ c ∈ l, isBreak c = false := by
      intro l hl
      obtain ⟨e, -, rfl⟩ := List.mem_map.mp hl
      exact line_unbroken e
    rw [← splitLines_flatMap hbreak, List.flatMap_map]
    rfl
  have hdecoded : List.Forall₂ (fun line raw => decodeLine line = .ok raw)
      (entries.map (Entry.line P env x)) (entries.map (Entry.raw P env x)) := by
    rw [List.forall₂_map_left_iff, List.forall₂_map_right_iff, List.forall₂_same]
    exact fun e _ => decode_line e
  have hshown : (entries.map (Entry.raw P env x)).flatMap (output P (held P env x given)) =
      entries.flatMap (Entry.report P env x given) := by
    rw [List.flatMap_map]
    exact List.flatMap_congr fun e _ => output_raw h given e
  rw [← hlines] at hdecoded
  rw [exec_main P (held P env x given) (parseKey_option given .c2s) (parseKey_option given .s2c)
    hdecoded, hshown]

def noBlanks : Blanks := ⟨[], fun _ hc => nomatch hc⟩

/-- The last frame ahead of the first, with an empty line and a stray byte in each notation between
them. -/
def sampleEntries : List Entry :=
  [.frame ⟨[' '], by simp⟩ .base64 .sealedFlag noBlanks, .blank noBlanks,
    .garbled noBlanks ⟨[0], .hex, .protocolError "parse" "frame too short", by decide, rfl,
      fun h => nomatch h⟩ noBlanks,
    .garbled noBlanks ⟨[0], .base64, .protocolError "parse" "frame too short", by decide, rfl,
      fun _ => ⟨_, rfl⟩⟩ noBlanks,
    .frame noBlanks .hex .hello noBlanks]

/-- With the server's key alone. -/
theorem capture_is_shown_sample : ∃ x : Play, x.name = [0x61] ∧
    exec (main Completeness.hashing none (some (hex (x.keys Completeness.hashing sampleEnv).s2c))
      (capture Completeness.hashing sampleEnv x sampleEntries)) [] =
      (.ok (), sampleEntries.flatMap (Entry.report Completeness.hashing sampleEnv x (· = .s2c))) := by
  have henv : sampleEnv.vmBlobKey = none := rfl
  have hname : Client.LicenseFormat.normalizeUsername [0x20, 0x41] = .ok [0x61] := rfl
  obtain ⟨x, h, -, -, hx, -⟩ := Completeness.exists_honest Completeness.hashing_sound
    Completeness.hashing_usesBlake2b henv hname
    ⟨sampleDraw 32, sampleDraw 16, sampleDraw 16, sampleDraw 24, sampleDraw 24, sampleDraw 24⟩
    ⟨⟨sampleDraw 32, sampleDraw 16, sampleDraw 24⟩, ⟨sampleDraw 16, sampleDraw 24⟩,
      ⟨sampleDraw 24, sampleDraw 24⟩⟩
  exact ⟨x, hx, capture_is_shown h (· = .s2c) sampleEntries⟩

end RankGate.Session.Captured
