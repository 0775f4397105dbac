/- Module: RankGate/Wire/HttpBodies
   source: client/src/net/protocol.cpp (decode_response, parse_pubkey), server/app/main.py
   digest: Every body one side writes, the other reads: frames as base 64, the key as hexadecimal. -/

import RankGate.Client.Transport
import RankGate.Server.Main
import RankGate.Wire.TransportBase64

set_option autoImplicit false
set_option relaxedAutoImplicit false

namespace RankGate.Wire.HttpBodies

open ByteCodec (Bytes ascii)
open RankGate.Client.Transport
open RankGate.Crypto (Primitives)
open RankGate.Server (Config.Env)
open RankGate.Server.Main (Compact Rendering)

section Frames

variable {b : Bytes} {c : UInt8}

theorem mem_encode (h : c ∈ Rfc4648.encode b) : c ∈ Rfc4648.base64.symbols ++ [Rfc4648.pad] := by
  rcases List.mem_append.mp h with h | h
  · exact List.mem_append_left _ (Radix.Alphabet.mem_of_mem_numeral h)
  · exact List.mem_append_right _ (List.mem_singleton.mpr (List.eq_of_mem_replicate h))

theorem encode_char (h : c ∈ Rfc4648.encode b) :
    isEnd c = false ∧ Server.Main.isSpace c = false ∧ c ≠ 0x7B := by
  have hall : ∀ c ∈ Rfc4648.base64.symbols ++ [Rfc4648.pad],
      isEnd c = false ∧ Server.Main.isSpace c = false ∧ c ≠ 0x7B := by decide +kernel
  exact hall c (mem_encode h)

theorem encode_ne_nil (h : b ≠ []) : Rfc4648.encode b ≠ [] := by
  have hpos := List.length_pos_iff.mpr h
  rw [← List.length_pos_iff, Rfc4648.encode, List.length_append, Rfc4648.length_digits,
    Rfc4648.symbolCount]
  omega

/-- The client takes an answer for what the server encoded. -/
theorem decodeResponse_encode (h : b ≠ []) : decodeResponse (Rfc4648.encode b) = .ok b := by
  have htrim : Text.trim isEnd (Rfc4648.encode b) = Rfc4648.encode b :=
    Text.trim_eq_self fun c hc => (encode_char hc).1
  have hhead : (Rfc4648.encode b).head? ≠ some 0x7B := by
    intro hbrace
    exact (encode_char (List.mem_of_head? hbrace)).2.2 rfl
  unfold decodeResponse
  simp only [htrim]
  rw [Effects.except_ensure_true (encode_ne_nil h), Effects.except_ensure_true hhead]
  exact TransportBase64.b64decode_encode b

/-- The server takes a body for what the client encoded. -/
theorem b64decode_body (b : Bytes) :
    Server.Main.b64decode (Client.Base64.b64encode b) = .ok b := by
  rw [TransportBase64.b64encode_eq, Server.Main.b64decode,
    Text.trim_eq_self fun c hc => (encode_char hc).2.1, TransportBase64.server_b64decode_encode]
  rfl

theorem decodeResponse_generic {render : Rendering} (h : Compact render) :
    decodeResponse (Server.Main.genericError render).body =
      .error "server rejected: \x7b\"ok\":false,\"error\":\"invalid proof\"\x7d" := by
  have hbody : (Server.Main.genericError render).body =
      Server.Main.compact Server.Main.genericErrorFields := h.plain _ (by decide)
  rw [hbody]
  decide +kernel

end Frames

section Key

theorem find_append {head pat : Bytes} {pos i : Nat} (hpos : pos ≤ head.length)
    (h : find head pat pos = some i) (rest : Bytes) : find (head ++ rest) pat pos = some i := by
  obtain ⟨⟨p, s⟩, hfound, rfl⟩ := Option.map_eq_some_iff.mp h
  rw [find, List.drop_append_of_le_length hpos, Text.dropInfix?_append hfound]
  rfl

theorem find_mark {head part : Bytes} {c : UInt8} (h : c ∉ part) (rest : Bytes) :
    find (head ++ (part ++ [c] ++ rest)) [c] head.length = some (head.length + part.length) := by
  have hfound : (part ++ [c] ++ rest).dropInfix? [c] = some (part, rest) := by
    refine List.dropInfix?_eq_some_iff.mpr ⟨⟨[c], rfl, by simp⟩, ?_⟩
    intro p i s hsplit hi
    by_contra hlt
    have hi : i = [c] := by simpa using hi
    subst hi
    -- a match in front of the mark would lie in the part
    have hget : (part ++ [c] ++ rest)[p.length]? = some c := by
      rw [hsplit, List.append_assoc, List.getElem?_append_right (le_refl _), Nat.sub_self]
      rfl
    rw [List.append_assoc, List.getElem?_append_left (not_le.mp hlt)] at hget
    exact h (List.mem_of_getElem? hget)
  rw [find, List.drop_left, hfound]
  rfl

def digits (key : Bytes) : Bytes := key.flatMap fun b =>
  [UInt8.ofNat (Text.hexDigit (b.toNat / 16)).toNat, UInt8.ofNat (Text.hexDigit (b.toNat % 16)).toNat]

theorem length_digits (key : Bytes) : (digits key).length = 2 * key.length := by
  simp [digits, List.length_flatMap, Nat.mul_comm]

private theorem digit_facts : ∀ n < 16,
    String.utf8EncodeChar (Text.hexDigit n) = [UInt8.ofNat (Text.hexDigit n).toNat] ∧
    nyb (UInt8.ofNat (Text.hexDigit n).toNat) = .ok n ∧
    UInt8.ofNat (Text.hexDigit n).toNat ≠ 0x22 := by decide +kernel

private theorem high_lt (b : UInt8) : b.toNat / 16 < 16 := Nat.div_lt_of_lt_mul b.toNat_lt

private theorem low_lt (b : UInt8) : b.toNat % 16 < 16 := Nat.mod_lt _ (by decide)

theorem quote_notMem_digits (key : Bytes) : 0x22 ∉ digits key := by
  intro h
  obtain ⟨b, -, hb⟩ := List.mem_flatMap.mp h
  rcases List.mem_pair.mp hb with hb | hb
  · exact (digit_facts _ (high_lt b)).2.2 hb.symm
  · exact (digit_facts _ (low_lt b)).2.2 hb.symm

theorem readHex_digits (key : Bytes) : readHex (digits key) = .ok key := by
  induction key with
  | nil => rfl
  | cons b key ih =>
    have hvalue : UInt8.ofNat (((b.toNat / 16) <<< 4) ||| (b.toNat % 16)) = b := by
      have hsplit : b.toNat / 16 * 16 + b.toNat % 16 = b.toNat := by omega
      rw [← Nat.shiftLeft_add_eq_or_of_lt (low_lt b), Nat.shiftLeft_eq]
      exact (congrArg UInt8.ofNat hsplit).trans (UInt8.ofNat_toNat)
    change readHex (_ :: _ :: digits key) = _
    rw [readHex, Effects.except_bind_ok (digit_facts _ (high_lt b)).2.1,
      Effects.except_bind_ok (digit_facts _ (low_lt b)).2.1, hvalue,
      Effects.except_bind_ok ih]
    rfl

def opening : Bytes := ascii "\x7b\"alg\":\"ed25519\",\"public_key\":\""

theorem hex_eq (key : Bytes) :
    (Server.Main.hex key).flatMap String.utf8EncodeChar = digits key := by
  induction key with
  | nil => rfl
  | cons b key ih =>
    obtain ⟨henc, -⟩ := digit_facts _ (high_lt b)
    obtain ⟨henc', -⟩ := digit_facts _ (low_lt b)
    have hcons : Server.Main.hex (b :: key) = Text.hexDigit (b.toNat / 16) ::
      Text.hexDigit (b.toNat % 16) :: Server.Main.hex key := rfl
    simp only [hcons, List.flatMap_cons, henc, henc', ih]
    rfl

theorem document_eq (P : Primitives) (env : Config.Env) {render : Rendering} (h : Compact render) :
    (Server.Main.jsonResponse render (Server.Main.publicKeyFields P env)).body =
      opening ++ (digits (Server.Config.serverSignPk P env) ++ [0x22] ++ [0x7D]) := by
  have hplain : ∀ p ∈ Server.Main.publicKeyFields P env,
      Server.Main.Plain p.1.toList ∧ p.2.Plain := by
    have hname : Server.Main.Plain "public_key".toList := by decide
    exact List.forall_mem_cons.mpr ⟨by decide, List.forall_mem_singleton.mpr
      ⟨hname, Server.Main.plain_hex _⟩⟩
  rw [Server.Main.jsonResponse, h.plain _ hplain, ← hex_eq]
  simp only [Server.Main.compact, Server.Main.publicKeyFields, Server.Main.Json.text,
    Server.Main.quoted, List.map_cons, List.map_nil, List.intercalate_cons_cons,
    List.intercalate_singleton, List.flatMap_append, List.append_assoc]
  rfl

theorem parsePubkey_of_opening {front : Bytes} {k colon q : Nat}
    (hfield : find front (ascii "public_key") 0 = some k) (hk : k ≤ front.length)
    (hcolon : find front [0x3A] k = some colon) (hcolonle : colon ≤ front.length)
    (hquote : find front [0x22] colon = some q) (hq : front.length = q + 1) (key : Bytes) :
    parsePubkey (front ++ (digits key ++ [0x22] ++ [0x7D])) = .ok key := by
  have hclose : find (front ++ (digits key ++ [0x22] ++ [0x7D])) [0x22] (q + 1) =
      some (q + 1 + (digits key).length) := by
    rw [← hq]
    exact find_mark (quote_notMem_digits key) _
  have hpart : ((front ++ (digits key ++ [0x22] ++ [0x7D])).drop (q + 1)).take
      (q + 1 + (digits key).length - q - 1) = digits key := by
    rw [← hq, List.drop_left, List.append_assoc, List.take_append_of_le_length (by omega),
      List.take_of_length_le (by omega)]
  have heven : (digits key).length % 2 = 0 := by
    rw [length_digits]
    omega
  unfold parsePubkey
  simp only [find_append (Nat.zero_le _) hfield, find_append hk hcolon,
    find_append hcolonle hquote, hclose, Option.bind_some, hpart]
  rw [Effects.except_ensure_true heven, readHex_digits]

/-- The client reads the key out of the document. -/
theorem parsePubkey_document (P : Primitives) (env : Config.Env) {render : Rendering}
    (h : Compact render) :
    parsePubkey (Server.Main.jsonResponse render (Server.Main.publicKeyFields P env)).body =
      .ok (Server.Config.serverSignPk P env) := by
  rw [document_eq P env h]
  have hfield : find opening (ascii "public_key") 0 = some 18 := by decide +kernel
  have hcolon : find opening [0x3A] 18 = some 29 := by decide +kernel
  have hquote : find opening [0x22] 29 = some 30 := by decide +kernel
  exact parsePubkey_of_opening hfield (by decide) hcolon (by decide) hquote (by decide) _

end Key

end RankGate.Wire.HttpBodies
