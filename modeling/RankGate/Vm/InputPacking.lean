/- Module: RankGate/Vm/InputPacking
   source: server/app/vm_reference.py, client/src/vm/vm.cpp (words_from, pack_inputs)
   digest: Where each input byte lies in the machine's initial memory, and that none is lost. -/

import RankGate.Foundation.Text
import RankGate.Vm.Words

set_option autoImplicit false
set_option relaxedAutoImplicit false

namespace RankGate.Vm.InputPacking

open ByteCodec (Bytes BytesN beBytes beNat overwrite zeros)
open RankGate.Crypto (Hashes)
open RankGate.Server
open RankGate.Server.VmReference (packInputs wordsFrom)

def bytesOf (ws : List Nat) : Bytes := ws.flatMap (beBytes 8)

theorem bytesOf_append (a b : List Nat) : bytesOf (a ++ b) = bytesOf a ++ bytesOf b :=
  List.flatMap_append

@[simp] theorem length_wordsFrom (data : Bytes) (nwords : Nat) :
    (wordsFrom data nwords).length = nwords := by
  rw [wordsFrom, List.length_map, List.length_range]

theorem bytesOf_wordsFrom {data : Bytes} {nwords : Nat} (h : data.length ≤ nwords * 8) :
    bytesOf (wordsFrom data nwords) = data ++ zeros (nwords * 8 - data.length) := by
  have hlen : (data ++ zeros (nwords * 8 - data.length)).length = nwords * 8 := by
    rw [List.length_append, ByteCodec.length_zeros]
    omega
  generalize hpadded : data ++ zeros (nwords * 8 - data.length) = padded at hlen
  have hslices : Text.slices 8 padded =
      (List.range nwords).map fun i => (padded.drop (i * 8)).take 8 := by
    rw [Text.slices, hlen, show (nwords * 8 + 8 - 1) / 8 = nwords by omega]
  have hwords : wordsFrom data nwords = (Text.slices 8 padded).map beNat := by
    rw [wordsFrom, hpadded, hslices, List.map_map]
    rfl
  have hwide := (Text.slices_of_length_eq_mul (by decide : 0 < 8) hlen).2
  rw [bytesOf, hwords, List.flatMap_map, List.flatMap_def,
    List.map_congr_left fun s hs => ByteCodec.beBytes_beNat_of_length (hwide s hs), List.map_id',
    Text.flatten_slices (by decide)]

theorem bytesOf_wordsFrom_full {data : Bytes} {nwords : Nat} (h : data.length = nwords * 8) :
    bytesOf (wordsFrom data nwords) = data := by
  rw [bytesOf_wordsFrom h.le, h, Nat.sub_self]
  exact List.append_nil data

theorem overwrite_zeros {a ws : List Nat} {k m n : Nat} (ha : a.length = k)
    (hm : m = ws.length + n) :
    overwrite (a ++ List.replicate m 0) k ws = (a ++ ws) ++ List.replicate n 0 := by
  rw [hm, ← List.replicate_append_replicate, ByteCodec.overwrite_middle ha List.length_replicate,
    List.append_assoc]

section Layout

variable (H : Hashes) (usernameNorm licenseStruct serverRandom sessionId transcriptPrefix : Bytes)

def domainWord : Nat := beNat (H.blake2b Config.vmInputDomain [] 8)

/-- The memory image, range after range. -/
theorem packInputs_eq : packInputs H usernameNorm licenseStruct serverRandom sessionId
    transcriptPrefix =
      ([(usernameNorm.take 64).length] ++ wordsFrom (usernameNorm.take 64) 8 ++
        wordsFrom licenseStruct 4 ++ wordsFrom serverRandom 2 ++ wordsFrom sessionId 2 ++
        wordsFrom transcriptPrefix 4) ++ [domainWord H] ++ List.replicate 42 0 := by
  have hcap : Config.vmUsernameCap = 64 := rfl
  have hfirst (n : Nat) : (List.replicate Config.vmMemWords 0).set 0 n =
      [n] ++ List.replicate 63 0 := rfl
  simp only [packInputs, hcap, hfirst, domainWord]
  rw [overwrite_zeros (k := 1) rfl (show 63 = _ + 55 by rw [length_wordsFrom]),
    overwrite_zeros (by simp) (show 55 = _ + 51 by rw [length_wordsFrom]),
    overwrite_zeros (by simp) (show 51 = _ + 49 by rw [length_wordsFrom]),
    overwrite_zeros (by simp) (show 49 = _ + 47 by rw [length_wordsFrom]),
    overwrite_zeros (by simp) (show 47 = _ + 43 by rw [length_wordsFrom]),
    List.set_append_right _ _ (by simp), List.append_assoc _ [_]]
  congr 1

end Layout

/-- Inputs of the sizes the protocol admits. -/
structure Inputs where
  usernameNorm : Bytes
  licenseStruct : BytesN 25
  serverRandom : BytesN 16
  sessionId : BytesN 16
  transcriptPrefix : BytesN 32
  length_usernameNorm : usernameNorm.length ≤ 64

namespace Inputs

variable (H : Hashes) (x : Inputs)

def serverMem : List Nat :=
  packInputs H x.usernameNorm x.licenseStruct.val x.serverRandom.val x.sessionId.val
    x.transcriptPrefix.val

def clientMem : Vector UInt64 64 :=
  Client.Vm.packInputs H x.usernameNorm x.licenseStruct.val x.serverRandom.val x.sessionId.val
    x.transcriptPrefix.val

/-- The input bytes in their order, behind the length of the name and with zeros up to whole
words. -/
def bytes : Bytes :=
  beBytes 8 x.usernameNorm.length ++ (x.usernameNorm ++ zeros (64 - x.usernameNorm.length)) ++
    (x.licenseStruct.val ++ zeros 7) ++ x.serverRandom.val ++ x.sessionId.val ++
    x.transcriptPrefix.val

theorem clientMem_toNat : (x.clientMem H).toList.map UInt64.toNat = x.serverMem H :=
  Words.packInputs_toNat H _ _ _ _ _

/-- Every byte of every input is in words 0 to 20. -/
theorem bytesOf_serverMem : bytesOf ((x.serverMem H).take 21) = x.bytes := by
  have hname : x.usernameNorm.take 64 = x.usernameNorm :=
    List.take_of_length_le x.length_usernameNorm
  have hlicense : bytesOf (wordsFrom x.licenseStruct.val 4) = x.licenseStruct.val ++ zeros 7 := by
    have hlen := x.licenseStruct.property
    rw [bytesOf_wordsFrom (by omega), hlen]
  have hlength : bytesOf [x.usernameNorm.length] = beBytes 8 x.usernameNorm.length :=
    List.append_nil _
  rw [serverMem, packInputs_eq, hname, List.append_assoc, List.take_left' (by simp), bytes]
  simp only [bytesOf_append]
  rw [hlength, bytesOf_wordsFrom x.length_usernameNorm, hlicense,
    bytesOf_wordsFrom_full x.serverRandom.property, bytesOf_wordsFrom_full x.sessionId.property,
    bytesOf_wordsFrom_full x.transcriptPrefix.property]

theorem eq_of_bytes_eq {x y : Inputs} (h : x.bytes = y.bytes) : x = y := by
  obtain ⟨u, l, r, sid, t, hu⟩ := x
  obtain ⟨u', l', r', sid', t', hu'⟩ := y
  simp only [bytes] at h
  obtain ⟨h, ht⟩ := List.append_inj' h (by rw [t.property, t'.property])
  obtain ⟨h, hsid⟩ := List.append_inj' h (by rw [sid.property, sid'.property])
  obtain ⟨h, hr⟩ := List.append_inj' h (by rw [r.property, r'.property])
  obtain ⟨h, hl⟩ := List.append_inj' h (by simp [l.property, l'.property])
  obtain ⟨hlen, hname⟩ := List.append_inj h (by simp)
  have hlen : u.length = u'.length := by
    have hnat := congrArg beNat hlen
    rwa [ByteCodec.beNat_beBytes (by omega), ByteCodec.beNat_beBytes (by omega)] at hnat
  have hname := List.append_inj_left hname hlen
  have hl := List.append_inj_left hl (by rw [l.property, l'.property])
  simp only [mk.injEq]
  exact ⟨hname, Subtype.ext hl, Subtype.ext hr, Subtype.ext hsid, Subtype.ext ht⟩

theorem drop_serverMem : (x.serverMem H).drop 22 = List.replicate 42 0 := by
  rw [serverMem, packInputs_eq]
  exact List.drop_left' (by simp)

end Inputs

/-- Equal memory images come from equal inputs, on either side: every input byte is in words 0 to
20, and the words after the domain word are zero. -/
theorem packInputs_injective (H : Hashes) :
    (∀ x y : Inputs, x.serverMem H = y.serverMem H → x = y) ∧
      (∀ x y : Inputs, x.clientMem H = y.clientMem H → x = y) ∧
      ∀ x : Inputs, bytesOf ((x.serverMem H).take 21) = x.bytes ∧
        bytesOf (((x.clientMem H).toList.map UInt64.toNat).take 21) = x.bytes ∧
        (x.serverMem H).drop 22 = List.replicate 42 0 ∧
        (x.clientMem H).toList.drop 22 = List.replicate 42 0 := by
  have hserver (x y : Inputs) (h : x.serverMem H = y.serverMem H) : x = y := by
    refine Inputs.eq_of_bytes_eq ?_
    rw [← x.bytesOf_serverMem H, ← y.bytesOf_serverMem H, h]
  refine ⟨hserver, fun x y h => hserver x y ?_, fun x => ⟨x.bytesOf_serverMem H, ?_,
    x.drop_serverMem H, ?_⟩⟩
  · rw [← x.clientMem_toNat H, ← y.clientMem_toNat H, h]
  · rw [x.clientMem_toNat H, x.bytesOf_serverMem H]
  · have h := x.drop_serverMem H
    rw [← x.clientMem_toNat H, ← List.map_drop] at h
    refine List.map_injective_iff.mpr (fun _ _ => UInt64.toNat_inj.mp) (h.trans ?_)
    rw [List.map_replicate]
    rfl

end RankGate.Vm.InputPacking
