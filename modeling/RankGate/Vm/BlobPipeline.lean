/- Module: RankGate/Vm/BlobPipeline
   source: tools/generate_vm_bytecode.py (main), server/app/vm_reference.py, client/src/vm/vm.cpp (load_bytecode)
   digest: Both files carry the encrypted program whole; only Python decrypts it with the configured key. -/

import RankGate.Tools.BlobArtifacts
import RankGate.Vm.CommittedBlob

set_option autoImplicit false
set_option relaxedAutoImplicit false

namespace RankGate.Vm.BlobPipeline

open ByteCodec (Bytes)
open RankGate.Crypto (Hashes Primitives)
open RankGate.Server.Config (Env vmBlobKey vmBlobDomain)
open RankGate.Server.CryptoBox (blake2bCtrKeystream streamXor xorBytes)
open RankGate.Tools.BlobArtifacts
open RankGate.Tools.VmBytecode (assemble)
open CommittedBlob (shortHashes)
open Text

section Python

theorem isBlank_hexDigit {n : Nat} (h : n < 16) : isBlank (hexDigit n) = false := by
  have hsub : [' ', '\t', '\n', '\r'] ⊆ marks := by decide
  rw [isBlank, decide_eq_false_iff_not]
  exact fun hm => hexDigit_notMem_marks n h (hsub hm)

theorem fromhex_hex (blob : Bytes) : fromhex (blob.flatMap hexByte) = some blob := by
  induction blob with
  | nil => rfl
  | cons b blob ih =>
    obtain ⟨hhi, hlo⟩ := hexDigits_of_byte b
    have hblank := isBlank_hexDigit (Nat.div_lt_of_lt_mul b.toNat_lt : b.toNat / 16 < 16)
    rw [List.flatMap_cons, hexByte, List.cons_append, List.cons_append, List.nil_append, fromhex,
      hblank, hhi, hlo, ih]
    change some (UInt8.ofNat (b.toNat / 16 * 16 + b.toNat % 16) :: blob) = _
    rw [Nat.div_add_mod', UInt8.ofNat_toNat]

theorem literal_contents {c : List Char} (hc : ∀ x ∈ c, x ∉ marks) (rest : List Char) :
    stringLiterals true (c ++ '"' :: rest) =
      (stringLiterals false rest).map fun p => (c ++ p.1, p.2) := by
  induction c with
  | nil => cases h : stringLiterals false rest <;> simp [stringLiterals, h]
  | cons x c ih =>
    obtain ⟨hx, hrest⟩ := List.forall_mem_cons.mp hc
    have hne {m : Char} (hm : m ∈ marks) : x ≠ m := fun h => hx (h ▸ hm)
    have hescape : ¬ (x = '\\' ∨ x = '\n') :=
      not_or.mpr ⟨hne (by decide), hne (by decide)⟩
    rw [List.cons_append, stringLiterals, if_neg (hne (by decide)), if_neg hescape, ih hrest,
      Option.map_map]
    rfl

theorem reads_line {c : List Char} (hc : ∀ x ∈ c, x ∉ marks) :
    Reads (stringLiterals false) ("    \"".toList ++ c ++ ['"']) c := by
  intro rest
  rw [List.append_assoc, List.append_assoc]
  exact literal_contents hc rest

theorem reads_newline : Reads (stringLiterals false) ['\n'] [] := by
  intro rest
  change stringLiterals false rest = _
  cases stringLiterals false rest <;> rfl

theorem reads_hexlines (blob : Bytes) :
    Reads (stringLiterals false) (hexlines blob) (blob.flatMap hexByte) := by
  have hflat := flatten_slices (by decide : 0 < 64) (blob.flatMap hexByte)
  have hall : Reads (stringLiterals false) (hexlines blob)
      ((slices 64 (blob.flatMap hexByte)).flatMap fun c => c) := by
    refine .intercalate reads_newline fun c hc => reads_line fun x hx => ?_
    have hmem := List.mem_flatten_of_mem hc hx
    rw [hflat] at hmem
    obtain ⟨b, -, hb⟩ := List.mem_flatMap.mp hmem
    exact hexByte_notMem_marks hb
  rwa [List.flatMap_id', hflat] at hall

theorem readPy_pyFile (blob : Bytes) : readPy (pyFile blob) = some blob := by
  have hfound : (pyHead.dropInfix? "ENCRYPTED_BLOB = bytes.fromhex(".toList).map Prod.snd =
      some ['\n'] := by
    decide +kernel
  obtain ⟨⟨p, _⟩, hhead, rfl⟩ := Option.map_eq_some_iff.mp hfound
  have hargs : stringLiterals false (['\n'] ++ (hexlines blob ++ pyTail)) =
      some (blob.flatMap hexByte ++ [], ['\n']) := by
    rw [reads_newline, reads_hexlines]
    rfl
  rw [readPy, pyFile, dropInfix?_append hhead]
  simp only [Option.bind_eq_bind, Option.bind_some, hargs, List.append_nil, fromhex_hex]

end Python

section Cpp

theorem byteLiteral_hexByte (b : UInt8) : byteLiteral ("0x".toList ++ hexByte b) = some b := by
  obtain ⟨hhi, hlo⟩ := hexDigits_of_byte b
  have hvalues : (hexByte b).mapM hexValue = some [b.toNat / 16, b.toNat % 16] := by
    rw [hexByte, List.mapM_cons, List.mapM_cons, hhi, hlo]
    rfl
  have hfold : [b.toNat / 16, b.toNat % 16].foldl (fun acc d => acc * 16 + d) 0 = b.toNat := by
    simp only [List.foldl_cons, List.foldl_nil]
    omega
  change (do
    let values ← (hexByte b).mapM hexValue
    let v := values.foldl (fun acc d => acc * 16 + d) 0
    if values ≠ [] ∧ v < 256 then some (UInt8.ofNat v) else none) = _
  rw [hvalues, Option.bind_eq_bind, Option.bind_some, hfold, if_pos ⟨by simp, b.toNat_lt⟩,
    UInt8.ofNat_toNat]

theorem initializers_word {c word : List Char} (hc : ∀ x ∈ c, x ∉ marks) (rest : List Char) :
    initializers word (c ++ rest) = initializers (word ++ c) rest := by
  induction c generalizing word with
  | nil => rw [List.nil_append, List.append_nil]
  | cons x c ih =>
    obtain ⟨hx, hrest⟩ := List.forall_mem_cons.mp hc
    have hne {m : Char} (hm : m ∈ marks) : x ≠ m := fun h => hx (h ▸ hm)
    have hblank : isBlank x = false := by
      have hsub : [' ', '\t', '\n', '\r'] ⊆ marks := by decide
      rw [isBlank, decide_eq_false_iff_not]
      exact fun hm => hx (hsub hm)
    rw [List.cons_append, initializers, if_neg (hne (by decide)), if_neg (hne (by decide)), hblank,
      if_neg Bool.false_ne_true, ih hrest, List.append_assoc]
    rfl

theorem reads_literal (b : UInt8) :
    Reads (initializers []) ("0x".toList ++ hexByte b ++ [',']) [b] := by
  have hplain : ∀ x ∈ "0x".toList ++ hexByte b, x ∉ marks := by
    intro x hx
    rcases List.mem_append.mp hx with hhead | hdigit
    · exact (by simp [marks] : ∀ x ∈ "0x".toList, x ∉ marks) x hhead
    · exact hexByte_notMem_marks hdigit
  intro rest
  rw [List.append_assoc, initializers_word hplain, List.nil_append, List.cons_append,
    List.nil_append, initializers, if_pos rfl, byteLiteral_hexByte]
  cases initializers [] rest <;> rfl

theorem reads_blank {c : Char} (hc : c ∈ [' ', '\n']) : Reads (initializers []) [c] [] := by
  intro rest
  have hskip : initializers [] ([c] ++ rest) = initializers [] rest := by
    rcases List.mem_pair.mp hc with rfl | rfl <;> rfl
  rw [hskip]
  cases initializers [] rest <;> rfl

theorem reads_cpprow {row : Bytes} (h : row ≠ []) : Reads (initializers []) (cpprow row) row := by
  have hindent : Reads (initializers []) "    ".toList [] := by
    have hspace := reads_blank (c := ' ') (by decide)
    exact hspace.append (hspace.append (hspace.append hspace))
  have hbytes : Reads (initializers []) ([' '].intercalate
      (row.map fun b => "0x".toList ++ hexByte b ++ [','])) (row.flatMap fun b => [b]) :=
    .intercalate (reads_blank (by decide)) fun b _ => reads_literal b
  have hrow : (", ".toList.intercalate (row.map fun b => "0x".toList ++ hexByte b) ++ [',']) =
      [' '].intercalate (row.map fun b => "0x".toList ++ hexByte b ++ [',']) :=
    intercalate_append_mark [','] [' '] _ h
  rw [List.flatMap_singleton'] at hbytes
  rw [cpprow, hrow]
  exact hindent.append hbytes

theorem reads_cpparray (blob : Bytes) : Reads (initializers []) (cpparray blob) blob := by
  have hall : Reads (initializers []) (cpparray blob) ((slices 12 blob).flatMap fun row => row) :=
    .intercalate (reads_blank (by decide)) fun row hrow =>
      reads_cpprow (ne_nil_of_mem_slices (by decide) hrow)
  rwa [List.flatMap_id', flatten_slices (by decide)] at hall

theorem lengthLiteral_toDigits (n : Nat) :
    lengthLiteral (Nat.toDigits 10 n ++ cppTail) = some n := by
  have hdigits : (Nat.toDigits 10 n ++ cppTail).takeWhile Char.isDigit = Nat.toDigits 10 n := by
    rw [List.takeWhile_append_of_pos fun c hc => Nat.isDigit_of_mem_toDigits (by decide)
      (Nat.le_refl 10) hc]
    exact List.append_nil _
  rw [lengthLiteral]
  simp only [hdigits]
  rw [List.drop_left' rfl, if_pos ⟨Nat.toDigits_ne_nil, rfl⟩, Nat.ofDigitChars_ten_toDigits]

theorem readCpp_cppFile {blob : Bytes} (h : blob ≠ []) : readCpp (cppFile blob) = some blob := by
  have hfound : (cppHead.dropInfix? "kEncryptedBlob[] = \x7b".toList).map Prod.snd =
      some ['\n'] := by
    decide +kernel
  obtain ⟨⟨p, _⟩, hhead, rfl⟩ := Option.map_eq_some_iff.mp hfound
  have hfound' : ((cppMid.drop 2).dropInfix? "kEncryptedBlobLen = ".toList).map Prod.snd =
      some [] := by
    decide +kernel
  obtain ⟨⟨q, _⟩, hlen, rfl⟩ := Option.map_eq_some_iff.mp hfound'
  have hbody (rest : List Char) : initializers [] (['\n'] ++ (cpparray blob ++ (cppMid ++ rest))) =
      some (blob ++ [], cppMid.drop 2 ++ rest) := by
    rw [reads_blank (by decide), reads_cpparray]
    rfl
  rw [readCpp, cppFile, dropInfix?_append hhead]
  simp only [Option.bind_eq_bind, Option.bind_some, hbody, dropInfix?_append hlen, List.nil_append,
    lengthLiteral_toDigits, List.append_nil]
  rw [if_pos ⟨h, Nat.le_refl _⟩, List.take_length]

end Cpp

section Cipher

theorem xorBytes_cancel {a k : Bytes} (h : a.length ≤ k.length) : xorBytes (xorBytes a k) k = a := by
  induction a generalizing k with
  | nil => rfl
  | cons x a ih =>
    cases k with
    | nil => cases h
    | cons y k =>
      have hx : x ^^^ y ^^^ y = x := by rw [UInt8.xor_assoc, UInt8.xor_self, UInt8.xor_zero]
      change (x ^^^ y ^^^ y) :: xorBytes (xorBytes a k) k = _
      rw [hx, ih (Nat.le_of_succ_le_succ h)]

/-- Another keystream undoes the cipher only if it is the same. -/
theorem xorBytes_cancel_iff {a k l : Bytes} (hk : k.length = a.length) (hl : l.length = a.length) :
    xorBytes (xorBytes a k) l = a ↔ k = l := by
  constructor
  · intro h
    have hsame : xorBytes a k = xorBytes a l := by
      have hxor : (xorBytes a k).length = a.length := by
        rw [xorBytes, List.length_zipWith, hk, Nat.min_self]
      rw [← xorBytes_cancel (a := xorBytes a k) (k := l) (by omega), h]
    have hcancel (m : Bytes) (hm : m.length = a.length) : xorBytes (xorBytes a m) a = m := by
      have hcomm : xorBytes a m = xorBytes m a :=
        List.zipWith_comm_of_comm fun x y => UInt8.xor_comm x y
      rw [hcomm, xorBytes_cancel (Nat.le_of_eq hm)]
    rw [← hcancel k hk, hsame, hcancel l hl]
  · rintro rfl
    exact xorBytes_cancel (Nat.le_of_eq hk.symm)

variable (P : Primitives) (env : Env)

def labelKey : Bytes := vmBlobKey P { env with vmBlobKey := none }

theorem length_vmBlobKey : (vmBlobKey P env).length = 32 := Server.Config.length_seed32 _ _ _

theorem client_key : P.blake2b Client.Constants.vmBlobKeyLabel [] 32 = labelKey P env := by
  have hlabel : Client.Constants.vmBlobKeyLabel =
      ByteCodec.ascii "rankgate-insane-vm-blob-obfuscation/v6" := Client.Constants.rgObf_eq _
  rw [hlabel]
  rfl

/-- The stream under which `key` hides `n` bytes of program. -/
def blobStream (key : Bytes) (n : Nat) : Bytes :=
  blake2bCtrKeystream P.toHashes key n vmBlobDomain

theorem length_blobStream (env : Env) (n : Nat) :
    (blobStream P (vmBlobKey P env) n).length = n :=
  Server.CryptoBox.length_blake2bCtrKeystream P.toHashes
    (by rw [length_vmBlobKey]; decide) n vmBlobDomain

variable {plain : Bytes}

theorem length_encryptProgram : (encryptProgram P env plain).length = plain.length := by
  have hlen := length_blobStream P env plain.length
  rw [blobStream] at hlen
  rw [encryptProgram, streamXor, xorBytes, List.length_zipWith, hlen, Nat.min_self]

/-- Python gets the program back under every key. -/
theorem serverLoad_pyFile :
    serverLoad P env (pyFile (encryptProgram P env plain)) = some plain := by
  have hlen := length_blobStream P env plain.length
  have hplain : streamXor P.toHashes (vmBlobKey P env) (encryptProgram P env plain) vmBlobDomain =
      plain := by
    rw [streamXor, length_encryptProgram, encryptProgram, streamXor]
    exact xorBytes_cancel (Nat.le_of_eq hlen.symm)
  rw [serverLoad, readPy_pyFile, Option.bind_eq_bind, Option.bind_some, hplain]
  rfl

/-- C++ decrypts with the key of the label whatever key the blob was written under. -/
theorem clientLoad_cppFile (hne : plain ≠ []) :
    clientLoad P.toHashes (cppFile (encryptProgram P env plain)) =
      some (xorBytes (xorBytes plain (blobStream P (vmBlobKey P env) plain.length))
        (blobStream P (labelKey P env) plain.length)) := by
  have hcipher : encryptProgram P env plain ≠ [] := by
    rw [← List.length_pos_iff, length_encryptProgram]
    exact List.length_pos_iff.mpr hne
  have hdomain : Client.Constants.vmBlobDomain = vmBlobDomain := Client.Constants.rgObf_eq _
  have hkey : (labelKey P env).length ≤ 64 := by
    rw [labelKey, length_vmBlobKey]
    decide
  rw [clientLoad, readCpp_cppFile hcipher, Option.bind_eq_bind, Option.bind_some, client_key P env,
    hdomain]
  simp only [Crypto.Keystream.streamXor_eq P.toHashes hkey]
  rw [streamXor, length_encryptProgram]
  rfl

end Cipher

/-- Both programs load what was assembled, exactly when the configured key and the key of the
label give one stream on the program's length. -/
theorem blob_pipeline_iff (P : Primitives) (env : Env) {plain : Bytes} (hne : plain ≠ []) :
    (serverLoad P env (pyFile (encryptProgram P env plain)) = some plain ∧
        clientLoad P.toHashes (cppFile (encryptProgram P env plain)) = some plain) ↔
      blobStream P (vmBlobKey P env) plain.length = blobStream P (labelKey P env) plain.length := by
  have hlabel : (blobStream P (labelKey P env) plain.length).length = plain.length :=
    length_blobStream P _ _
  rw [clientLoad_cppFile P env hne, Option.some_inj,
    xorBytes_cancel_iff (length_blobStream P env plain.length) hlabel]
  exact and_iff_right (serverLoad_pyFile P env)

/-- The client's BLAKE2b for the library's, on single blocks. -/
def samplePrimitives : Primitives := { Primitives.transparent with toHashes := shortHashes }

def sampleOverride : Env where
  signSeed := none
  licenseSecret := none
  vmBlobKey := some ⟨ByteCodec.zeros 32, rfl⟩

def haltProgram : Bytes := [0xF0, 0x42]

theorem blob_pipeline_default :
    serverLoad samplePrimitives ⟨none, none, none⟩
        (pyFile (encryptProgram samplePrimitives ⟨none, none, none⟩ haltProgram)) =
        some haltProgram ∧
      clientLoad samplePrimitives.toHashes
        (cppFile (encryptProgram samplePrimitives ⟨none, none, none⟩ haltProgram)) =
        some haltProgram :=
  (blob_pipeline_iff samplePrimitives ⟨none, none, none⟩ (by decide)).mpr rfl

/-- Under that override Python loads a single HALT as it was assembled, and C++ something else. -/
theorem blob_pipeline_counterexample :
    assemble [.emit Server.VmReference.Op.halt [0x42]] = .ok haltProgram ∧
      serverLoad samplePrimitives sampleOverride
        (pyFile (encryptProgram samplePrimitives sampleOverride haltProgram)) =
        some haltProgram ∧
      clientLoad samplePrimitives.toHashes
        (cppFile (encryptProgram samplePrimitives sampleOverride haltProgram)) ≠
        some haltProgram := by
  refine ⟨by decide, serverLoad_pyFile _ _, ?_⟩
  rw [clientLoad_cppFile _ _ (by decide)]
  decide +kernel

end RankGate.Vm.BlobPipeline
