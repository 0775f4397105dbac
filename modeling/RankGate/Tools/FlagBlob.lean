/- Module: RankGate/Tools/FlagBlob
   source: tools/generate_flag_blob.py
   digest: The sealed flag of the standalone binary: its key from a password, and the header it is in. -/

import RankGate.Vm.BlobPipeline
import RankGate.Wire.ChannelLockstep

set_option autoImplicit false
set_option relaxedAutoImplicit false

namespace RankGate.Tools.FlagBlob

open ByteCodec (Bytes BytesN ascii zeros)
open RankGate.Crypto (Hashes Primitives)
open RankGate.Server.Config (Failure)
open RankGate.Tools.BlobArtifacts (cpparray initializers lengthLiteral lines)
open RankGate.Wire.ChannelLockstep (AeadInverts)

def pwNormKey : Bytes := ascii "RG6-pwd-norm-v1"
def domainSeparator : Bytes := ascii "RG6|standalone|final-flag-seal|v2"
def hkdfSalt : Bytes := ascii "RG6-final-seal-salt-phaseA-v2"
def hkdfInfo : Bytes := ascii "RG6 final flag seal v2"
def flagAad : Bytes := ascii "RG6-flag-aad-v2"

def ws : Bytes := ascii " \t\r\n" ++ [0x0B, 0x0C]

def encodeUtf8 (s : List Char) : Bytes := s.flatMap String.utf8EncodeChar

def normalizePassword (raw : List Char) : Bytes := Text.trim (· ∈ ws) (encodeUtf8 raw)

/-- The loop is that of `hkdf_expand`. -/
def hkdfSha256 (H : Hashes) (salt ikm info : Bytes) (length : Nat) : Except Failure Bytes := do
  let prk := H.hmacSha256 salt ikm
  let okm ← Server.CryptoBox.expandLoop H prk info length length [] [] 1
  return okm.take length

def deriveFinalKey (H : Hashes) (normalizedPassword : Bytes) : Except Failure Bytes :=
  let npwHash := H.blake2b normalizedPassword pwNormKey 32
  let ikm := H.blake2b (npwHash ++ domainSeparator) [] 64
  hkdfSha256 H hkdfSalt ikm hkdfInfo 32

def hppHead : List Char := lines
  ["// path: crackme/protection/encrypted_flag.hpp",
   "//",
   "// GENERATED by tools/generate_flag_blob.py -- do not edit by hand.",
   "// Layout: nonce(24) || ciphertext || Poly1305 tag(16).",
   "// Decrypts only under the correct password-derived key (see keyschedule.cpp).",
   "#pragma once",
   "",
   "#include <cstddef>",
   "#include <cstdint>",
   "",
   "namespace rg6 \x7b",
   ""] ++ "inline constexpr std::size_t kFlagBlobLen = ".toList

def hppMid : List Char :=
  lines [";", "inline constexpr unsigned char kFlagBlob[kFlagBlobLen] = \x7b"]

def hppTail : List Char := lines ["", "\x7d;", "", "\x7d  // namespace rg6"]

def emitHeader (blob : Bytes) : List Char :=
  hppHead ++ (Nat.toDigits 10 blob.length ++ (hppMid ++ (cpparray blob ++ hppTail)))

/-- The file `main` writes with a nonce from `os.urandom`. -/
def main (P : Primitives) (password flag : List Char) (nonce : BytesN 24) :
    Except Failure (List Char) := do
  let key ← deriveFinalKey P.toHashes (normalizePassword password)
  let combined := P.aeadSeal key nonce.val (encodeUtf8 flag) flagAad
  return emitHeader (nonce.val ++ combined)

/-- An array of the declared length: the rest is zeros, and more initializers are ill-formed. -/
def readHeader (file : List Char) : Option Bytes := do
  let (_, value) ← file.dropInfix? "kFlagBlobLen = ".toList
  let len ← lengthLiteral value
  let (_, body) ← (value.dropWhile Char.isDigit).dropInfix? "kFlagBlob[kFlagBlobLen] = \x7b".toList
  let (blob, _) ← initializers [] body
  if 0 < len ∧ blob.length ≤ len then some (blob ++ zeros (len - blob.length)) else none

def openBlob (P : Primitives) (key blob : Bytes) : Except String Bytes :=
  P.aeadOpen key (blob.take 24) (blob.drop 24) flagAad

section Header

theorem takeWhile_digits (n : Nat) {c : Char} (hc : c.isDigit = false) (rest : List Char) :
    (Nat.toDigits 10 n ++ c :: rest).takeWhile Char.isDigit = Nat.toDigits 10 n := by
  rw [List.takeWhile_append_of_pos fun d hd => Nat.isDigit_of_mem_toDigits (by decide)
    (Nat.le_refl 10) hd, List.takeWhile_cons_of_neg (ne_true_of_eq_false hc), List.append_nil]

theorem dropWhile_digits (n : Nat) {c : Char} (hc : c.isDigit = false) (rest : List Char) :
    (Nat.toDigits 10 n ++ c :: rest).dropWhile Char.isDigit = c :: rest := by
  rw [List.dropWhile_append_of_pos fun d hd => Nat.isDigit_of_mem_toDigits (by decide)
    (Nat.le_refl 10) hd, List.dropWhile_cons_of_neg (ne_true_of_eq_false hc)]

theorem lengthLiteral_digits (n : Nat) (rest : List Char) :
    lengthLiteral (Nat.toDigits 10 n ++ ';' :: rest) = some n := by
  rw [lengthLiteral]
  simp only [takeWhile_digits n (by decide : ';'.isDigit = false)]
  rw [List.drop_left, if_pos ⟨Nat.toDigits_ne_nil, rfl⟩, Nat.ofDigitChars_ten_toDigits]

/-- Every blob that is written is read. -/
theorem readHeader_emitHeader {blob : Bytes} (h : blob ≠ []) :
    readHeader (emitHeader blob) = some blob := by
  have hfound : (hppHead.dropInfix? "kFlagBlobLen = ".toList).map Prod.snd = some [] := by
    decide +kernel
  obtain ⟨⟨p, _⟩, hhead, rfl⟩ := Option.map_eq_some_iff.mp hfound
  have hfound' : (hppMid.dropInfix? "kFlagBlob[kFlagBlobLen] = \x7b".toList).map Prod.snd =
      some ['\n'] := by
    decide +kernel
  obtain ⟨⟨q, _⟩, hmid, rfl⟩ := Option.map_eq_some_iff.mp hfound'
  have hsemicolon : hppMid = ';' :: hppMid.tail := rfl
  have hbody : initializers [] (['\n'] ++ (cpparray blob ++ hppTail)) =
      some (blob ++ [], hppTail.drop 2) := by
    rw [Vm.BlobPipeline.reads_blank (by decide), Vm.BlobPipeline.reads_cpparray]
    rfl
  have hlen : lengthLiteral (Nat.toDigits 10 blob.length ++ (hppMid ++ (cpparray blob ++ hppTail))) =
      some blob.length := by
    rw [hsemicolon, List.cons_append]
    exact lengthLiteral_digits _ _
  have hrest : (Nat.toDigits 10 blob.length ++ (hppMid ++ (cpparray blob ++ hppTail))).dropWhile
      Char.isDigit = hppMid ++ (cpparray blob ++ hppTail) := by
    rw [hsemicolon, List.cons_append]
    exact dropWhile_digits _ (by decide) _
  rw [readHeader, emitHeader, Text.dropInfix?_append hhead]
  simp only [Option.bind_eq_bind, Option.bind_some, List.nil_append, hlen, hrest,
    Text.dropInfix?_append hmid, hbody, List.append_nil]
  rw [if_pos ⟨List.length_pos_iff.mpr h, Nat.le_refl _⟩, Nat.sub_self]
  exact congrArg some (List.append_nil blob)

end Header

section Password

def blanks : List Char := [' ', '\t', '\r', '\n', Char.ofNat 0x0B, Char.ofNat 0x0C]

theorem utf8_blanks {pad : List Char} (h : ∀ c ∈ pad, c ∈ blanks) :
    ∀ b ∈ encodeUtf8 pad, decide (b ∈ ws) = true := by
  intro b hb
  obtain ⟨c, hc, hcb⟩ := List.mem_flatMap.mp hb
  have hall : (blanks.all fun c => (String.utf8EncodeChar c).all fun b => decide (b ∈ ws)) =
      true := by decide
  exact List.all_eq_true.mp (List.all_eq_true.mp hall c (h c hc)) b hcb

theorem normalizePassword_padded {lead trail : List Char}
    (hlead : ∀ c ∈ lead, c ∈ blanks) (htrail : ∀ c ∈ trail, c ∈ blanks) (password : List Char) :
    normalizePassword (lead ++ (password ++ trail)) = normalizePassword password := by
  have hsplit : encodeUtf8 (lead ++ (password ++ trail)) =
      encodeUtf8 lead ++ (encodeUtf8 password ++ encodeUtf8 trail) := by
    simp only [encodeUtf8, List.flatMap_append]
  rw [normalizePassword, normalizePassword, hsplit]
  exact Text.trim_append (utf8_blanks hlead) (utf8_blanks htrail)

theorem deriveFinalKey_eq_ok (H : Hashes) (normalizedPassword : Bytes) :
    ∃ key, deriveFinalKey H normalizedPassword = .ok key ∧ key.length = 32 := by
  have hexpand := Server.CryptoBox.hkdfExpand_32 H (H.hmacSha256 hkdfSalt (H.blake2b
    (H.blake2b normalizedPassword pwNormKey 32 ++ domainSeparator) [] 64)) hkdfInfo
  exact ⟨_, hexpand, H.length_hmacSha256 _ _⟩

end Password

/-- Any flag under any password: the header compiles to an array of the declared length, and it opens
to the flag under the key of that password, with or without blanks around it. -/
theorem flag_blob_opens {P : Primitives} (haead : AeadInverts P) (password flag : List Char)
    (nonce : BytesN 24) {lead trail : List Char}
    (hlead : ∀ c ∈ lead, c ∈ blanks)
    (htrail : ∀ c ∈ trail, c ∈ blanks) :
    ∃ file key blob, main P password flag nonce = .ok file ∧
      deriveFinalKey P.toHashes (normalizePassword (lead ++ (password ++ trail))) = .ok key ∧
      readHeader file = some blob ∧ blob.length = 24 + (encodeUtf8 flag).length + 16 ∧
      openBlob P key blob = .ok (encodeUtf8 flag) := by
  obtain ⟨key, hkey, -⟩ := deriveFinalKey_eq_ok P.toHashes (normalizePassword password)
  generalize hcombined : P.aeadSeal key nonce.val (encodeUtf8 flag) flagAad = combined
  have hlength : (nonce.val ++ combined).length = 24 + (encodeUtf8 flag).length + 16 := by
    rw [List.length_append, nonce.property, ← hcombined, P.length_aeadSeal, Nat.add_assoc]
  have hne : nonce.val ++ combined ≠ [] := by
    rw [← List.length_pos_iff, hlength]
    omega
  refine ⟨emitHeader (nonce.val ++ combined), key, nonce.val ++ combined, ?_, ?_,
    readHeader_emitHeader hne, hlength, ?_⟩
  · rw [← hcombined]
    exact Effects.except_bind_ok hkey
  · rw [normalizePassword_padded hlead htrail, hkey]
  · rw [openBlob, List.take_left' nonce.property, List.drop_left' nonce.property, ← hcombined]
    exact haead key nonce.val (encodeUtf8 flag) flagAad

/-- A blank and a line feed after the password. -/
theorem flag_blob_opens_typed : ∃ file key blob,
    main Primitives.transparent ['p', 'w'] ['f', 'l', 'a', 'g'] ⟨zeros 24, ByteCodec.length_zeros 24⟩ =
      .ok file ∧
      deriveFinalKey Primitives.transparent.toHashes
        (normalizePassword ([] ++ (['p', 'w'] ++ [' ', '\n']))) = .ok key ∧
      readHeader file = some blob ∧
      blob.length = 24 + (encodeUtf8 ['f', 'l', 'a', 'g']).length + 16 ∧
      openBlob Primitives.transparent key blob = .ok (encodeUtf8 ['f', 'l', 'a', 'g']) :=
  flag_blob_opens Crypto.Primitives.transparent_sound.aead _ _ _ (by simp) (by simp [blanks])

end RankGate.Tools.FlagBlob
