/- Module: RankGate/Tools/BlobArtifacts
   source: tools/generate_vm_bytecode.py (PY_TEMPLATE .. main), server/app/vm_reference.py, client/src/vm/vm.cpp (load_bytecode)
   digest: The two source files the generator writes, and what Python and C++ load from them. -/

import RankGate.Client.Vm
import RankGate.Foundation.Text
import RankGate.Server.VmReference

set_option autoImplicit false
set_option relaxedAutoImplicit false

namespace RankGate.Tools.BlobArtifacts

open ByteCodec (Bytes)
open RankGate.Crypto (Hashes Primitives)
open RankGate.Server.Config (Env vmBlobKey vmBlobDomain)
open Text

def lines (l : List String) : List Char := l.flatMap fun s => s.toList ++ ['\n']

def pyHead : List Char := lines
  ["\"\"\"GENERATED by tools/generate_vm_bytecode.py -- do not edit by hand.",
   "",
   "ENCRYPTED_BLOB is the canonical VM bytecode XOR-obfuscated with a BLAKE2b-CTR",
   "keystream derived from config.VM_BLOB_KEY (domain config.VM_BLOB_DOMAIN). The",
   "reference VM decrypts it in vm_reference.load_bytecode().",
   "\"\"\"",
   "",
   "ENCRYPTED_BLOB = bytes.fromhex("]

def pyTail : List Char := lines ["", ")"]

def cppHead : List Char := lines
  ["// GENERATED by tools/generate_vm_bytecode.py -- do not edit by hand.",
   "// path: RankGateInsane/client/src/vm/bytecode_blob.cpp",
   "//",
   "// Encrypted VM bytecode blob (XOR with BLAKE2b-CTR keystream of VM_BLOB_KEY).",
   "// Decrypted at runtime in vm.cpp before execution.",
   "",
   "#include \"bytecode.hpp\"",
   "",
   "namespace rg::vm \x7b",
   "",
   "const unsigned char kEncryptedBlob[] = \x7b"]

def cppMid : List Char := lines ["", "\x7d;"] ++ "const unsigned long kEncryptedBlobLen = ".toList

def cppTail : List Char := lines [";", "", "\x7d // namespace rg::vm"]

def hexlines (blob : Bytes) : List Char :=
  let h := blob.flatMap hexByte
  ['\n'].intercalate ((slices 64 h).map fun c => "    \"".toList ++ c ++ ['"'])

def cpprow (row : Bytes) : List Char :=
  "    ".toList ++ (", ".toList.intercalate (row.map fun b => "0x".toList ++ hexByte b) ++ [','])

def cpparray (blob : Bytes) : List Char := ['\n'].intercalate ((slices 12 blob).map cpprow)

def pyFile (encrypted : Bytes) : List Char := pyHead ++ (hexlines encrypted ++ pyTail)

def cppFile (encrypted : Bytes) : List Char :=
  cppHead ++ (cpparray encrypted ++ (cppMid ++ (Nat.toDigits 10 encrypted.length ++ cppTail)))

/-- `main` on a program: the encrypted blob both files are written from. -/
def encryptProgram (P : Primitives) (env : Env) (plain : Bytes) : Bytes :=
  Server.CryptoBox.streamXor P.toHashes (vmBlobKey P env) plain vmBlobDomain

def isBlank (c : Char) : Bool := c ∈ [' ', '\t', '\n', '\r']

/-- Adjacent string literals up to the closing parenthesis; their contents are joined. -/
def stringLiterals : Bool → List Char → Option (List Char × List Char)
  | _, [] => none
  | false, c :: cs =>
    if c = '"' then stringLiterals true cs
    else if c = ')' then some ([], cs)
    else if isBlank c then stringLiterals false cs
    else none
  | true, c :: cs =>
    if c = '"' then stringLiterals false cs
    else if c = '\\' ∨ c = '\n' then none
    else (stringLiterals true cs).map fun p => (c :: p.1, p.2)

def fromhex : List Char → Option Bytes
  | [] => some []
  | [c] => if isBlank c then some [] else none
  | hi :: lo :: cs =>
    if isBlank hi then fromhex (lo :: cs)
    else do
      let h ← hexValue hi
      let l ← hexValue lo
      return UInt8.ofNat (h * 16 + l) :: (← fromhex cs)

/-- The value `bytecode_blob.py` gives to ENCRYPTED_BLOB. -/
def readPy (file : List Char) : Option Bytes := do
  let (_, args) ← file.dropInfix? "ENCRYPTED_BLOB = bytes.fromhex(".toList
  let (h, _) ← stringLiterals false args
  fromhex h

def serverLoad (P : Primitives) (env : Env) (file : List Char) : Option Bytes := do
  let blob ← readPy file
  return Server.CryptoBox.streamXor P.toHashes (vmBlobKey P env) blob vmBlobDomain

def byteLiteral : List Char → Option UInt8
  | '0' :: 'x' :: digits => do
    let values ← digits.mapM hexValue
    let v := values.foldl (fun acc d => acc * 16 + d) 0
    if values ≠ [] ∧ v < 256 then some (UInt8.ofNat v) else none
  | _ => none

/-- Literals separated by commas up to the closing brace, a comma before the brace allowed;
`word` is the literal being read. -/
def initializers : List Char → List Char → Option (Bytes × List Char)
  | _, [] => none
  | word, c :: cs =>
    if c = ',' then do
      let b ← byteLiteral word
      let (bs, rest) ← initializers [] cs
      return (b :: bs, rest)
    else if c = '\x7d' then
      if word = [] then some ([], cs) else do return ([← byteLiteral word], cs)
    else if isBlank c then
      if word = [] then initializers [] cs else none
    else initializers (word ++ [c]) cs

def lengthLiteral (cs : List Char) : Option Nat :=
  let digits := cs.takeWhile Char.isDigit
  if digits ≠ [] ∧ (cs.drop digits.length).head? = some ';' then
    some (Nat.ofDigitChars 10 digits 0)
  else none

/-- The bytes from `kEncryptedBlob` on, `kEncryptedBlobLen` of them. An array without elements is
ill-formed, and one shorter than the length is read past its end. -/
def readCpp (file : List Char) : Option Bytes := do
  let (_, body) ← file.dropInfix? "kEncryptedBlob[] = \x7b".toList
  let (blob, rest) ← initializers [] body
  let (_, value) ← rest.dropInfix? "kEncryptedBlobLen = ".toList
  let len ← lengthLiteral value
  if blob ≠ [] ∧ len ≤ blob.length then some (blob.take len) else none

/-- C++ `load_bytecode` with a given `bytecode_blob.cpp`: the key is always derived from the label. -/
def clientLoad (H : Hashes) (file : List Char) : Option Bytes := do
  let blob ← readCpp file
  let key := H.blake2b Client.Constants.vmBlobKeyLabel [] 32
  return Client.CryptoBox.streamXor H key blob Client.Constants.vmBlobDomain

end RankGate.Tools.BlobArtifacts
