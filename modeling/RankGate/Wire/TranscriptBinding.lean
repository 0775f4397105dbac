/- Module: RankGate/Wire/TranscriptBinding
   source: server/app/protocol.py, client/src/challenge/transcript.cpp
   digest: An accepted MAC commits the receiver to the sender's whole history and to the frame itself,
   up to a collision among the digests and MACs the two of them computed. -/

import RankGate.Foundation.HashChain
import RankGate.Wire.FrameAgreement

set_option autoImplicit false
set_option relaxedAutoImplicit false

namespace RankGate.Wire.TranscriptBinding

open ByteCodec (Bytes zeros)
open HashChain (Chain Collides)
open RankGate.Crypto (Hashes Primitives)
open FrameAgreement (SFrame STranscript CFrame CTranscript widen widenT)
open Server.Protocol.Frame (WellFormed)

section Chain

variable (H : Hashes)

/-- The rolling transcript as a chain: the seed text, then digest and frame side by side. -/
def chain : Chain Bytes Bytes Bytes := ⟨H.sha256, Server.Config.transcriptSeed, (· ++ ·)⟩

theorem seed_ne (x b : Bytes) : Server.Config.transcriptSeed ≠ H.sha256 x ++ b := by
  intro h
  have hlen := congrArg List.length h
  rw [List.length_append, H.length_sha256] at hlen
  have hseed : Server.Config.transcriptSeed.length = 17 := by decide
  omega

/-- Digests have 32 bytes and the seed has 17, so no two inputs are confused. -/
theorem chain_separated : (chain H).Separated where
  split x y _ _ h :=
    List.append_inj h ((H.length_sha256 x).trans (H.length_sha256 y).symm)
  seed_ne := seed_ne H

def serverAfter (frames : List Bytes) : STranscript :=
  frames.foldl (Server.Protocol.Transcript.absorb H) (Server.Protocol.Transcript.init H)

def clientAfter (frames : List Bytes) : CTranscript :=
  frames.foldl (Client.BinaryFrame.Transcript.absorb H) (Client.BinaryFrame.Transcript.init H)

theorem foldl_absorb_state (t : STranscript) (frames : List Bytes) :
    (frames.foldl (Server.Protocol.Transcript.absorb H) t).state =
      frames.foldl (chain H).absorb t.state := by
  induction frames generalizing t with
  | nil => rfl
  | cons frame frames ih =>
    rw [List.foldl_cons, List.foldl_cons, ih]
    rfl

theorem serverAfter_state (frames : List Bytes) :
    (serverAfter H frames).state = (chain H).state frames :=
  foldl_absorb_state H _ frames

theorem widenT_clientAfter (frames : List Bytes) :
    widenT (clientAfter H frames) = serverAfter H frames := by
  have hstep : ∀ t : CTranscript, widenT (frames.foldl (Client.BinaryFrame.Transcript.absorb H) t) =
      frames.foldl (Server.Protocol.Transcript.absorb H) (widenT t) := by
    induction frames with
    | nil => exact fun _ => rfl
    | cons frame frames ih => exact fun t => ih (t.absorb H frame)
  rw [clientAfter, hstep, FrameAgreement.init_eq]
  rfl

theorem length_state (frames : List Bytes) : ((chain H).state frames).length = 32 := by
  obtain ⟨x, hx⟩ := (chain H).exists_hash frames
  rw [hx]
  exact H.length_sha256 x

end Chain

section Binding

variable (H : Hashes)

/-- Which of the two programs is at an end of the channel. -/
inductive Endpoint
  | client
  | server

/-- The endpoint, with this history behind it, can seal `f` under `macKey`. -/
def Seals (history : List Bytes) (macKey : Bytes) (f : SFrame) : Endpoint → Prop
  | .client => ∃ mt sid counter nonce payload tag,
      f = widen ((clientAfter H history).sealFrame H macKey mt sid counter nonce payload tag).1
  | .server => ∃ mt sid counter nonce payload tag t,
      (serverAfter H history).sealFrame H macKey mt sid counter nonce payload tag = .ok (f, t)

/-- The endpoint, with this history behind it, opens `f` under `macKey`. -/
def Accepts (history : List Bytes) (macKey : Bytes) (f : SFrame) : Endpoint → Prop
  | .client => ∃ frame t, widen frame = f ∧
      (clientAfter H history).openFrame H macKey frame = .ok t
  | .server => ∃ t, (serverAfter H history).openFrame H macKey f = .ok t

def macInput (history : List Bytes) (f : SFrame) : Bytes :=
  (chain H).state history ++ f.preMacBytes

theorem Seals.server {history : List Bytes} {macKey : Bytes} {f : SFrame} {e : Endpoint}
    (hf : f.WellFormed) (h : Seals H history macKey f e) : Seals H history macKey f .server := by
  cases e with
  | client =>
    obtain ⟨mt, sid, counter, nonce, payload, tag, rfl⟩ := h
    have hsealed := FrameAgreement.sealFrame_eq H (clientAfter H history) macKey sid nonce payload
      tag mt counter hf.payload_lt
    rw [widenT_clientAfter] at hsealed
    exact ⟨mt.toNat, sid, counter.toNat, nonce, payload, tag, _, hsealed⟩
  | server => exact h

theorem Accepts.server {history : List Bytes} {macKey : Bytes} {f : SFrame} {e : Endpoint}
    (hf : f.WellFormed) (h : Accepts H history macKey f e) :
    Accepts H history macKey f .server := by
  cases e with
  | client =>
    obtain ⟨frame, t, rfl, h⟩ := h
    have hopened := (FrameAgreement.openFrame_ok H hf.payload_lt).mp h
    rw [widenT_clientAfter] at hopened
    exact ⟨widenT t, hopened⟩
  | server => exact h

theorem Seals.transcriptMac {history : List Bytes} {macKey : Bytes} {f : SFrame} {e : Endpoint}
    (hf : f.WellFormed) (h : Seals H history macKey f e) :
    f.transcriptMac = H.hmacSha256 macKey (macInput H history f) := by
  obtain ⟨mt, sid, counter, nonce, payload, tag, t, hsealed⟩ := h.server H hf
  unfold Server.Protocol.Transcript.sealFrame at hsealed
  obtain ⟨pre, hpre, hsealed⟩ := Effects.except_bind_eq_ok hsealed
  obtain ⟨full, -, hsealed⟩ := Effects.except_bind_eq_ok hsealed
  cases hsealed
  have hbytes := Except.ok.inj (hpre.symm.trans hf.preMac_eq)
  rw [macInput, ← serverAfter_state]
  exact congrArg (fun b => H.hmacSha256 macKey ((serverAfter H history).state ++ b)) hbytes

theorem Accepts.transcriptMac {history : List Bytes} {macKey : Bytes} {f : SFrame} {e : Endpoint}
    (hf : f.WellFormed) (h : Accepts H history macKey f e) :
    H.hmacSha256 macKey (macInput H history f) = f.transcriptMac := by
  obtain ⟨t, hopened⟩ := h.server H hf
  obtain ⟨hmac, -⟩ := (Server.Protocol.Transcript.openFrame_eq_ok H hf.messageType hf.counter
    hf.payload_lt).mp hopened
  rw [← hmac, macInput, ← serverAfter_state]
  rfl

/-- A frame with the sender's MAC that the receiver opens is the sender's frame behind the sender's
history, unless the two runs exhibit two SHA-256 inputs, or two messages under the MAC key, that
differ and have one image. -/
theorem transcript_binding (sender receiver : Endpoint) (L₁ L₂ : List Bytes) (macKey : Bytes)
    (f f' : SFrame) (hf : f.WellFormed) (hf' : f'.WellFormed)
    (hseal : Seals H L₁ macKey f sender) (hmac : f'.transcriptMac = f.transcriptMac)
    (haccept : Accepts H L₂ macKey f' receiver) :
    (L₁ = L₂ ∧ f' = f) ∨
      Collides H.sha256 ((chain H).inputs L₁) ((chain H).inputs L₂) ∨
      (macInput H L₁ f ≠ macInput H L₂ f' ∧
        H.hmacSha256 macKey (macInput H L₁ f) = H.hmacSha256 macKey (macInput H L₂ f')) := by
  have hmacs : H.hmacSha256 macKey (macInput H L₁ f) = H.hmacSha256 macKey (macInput H L₂ f') := by
    rw [← hseal.transcriptMac H hf, haccept.transcriptMac H hf', hmac]
  by_cases hinput : macInput H L₁ f = macInput H L₂ f'
  · obtain ⟨hstate, hpre⟩ := List.append_inj hinput
      ((length_state H L₁).trans (length_state H L₂).symm)
    have hframe : f' = f := by
      have hinj := Server.Protocol.Frame.preMacBytes_inj hf hf' hpre
      rw [hmac] at hinj
      exact hinj.symm
    rcases (chain_separated H).binding L₁ L₂ hstate with hL | hcol
    · exact .inl ⟨hL, hframe⟩
    · exact .inr (.inl hcol)
  · exact .inr (.inr ⟨hinput, hmacs⟩)

/-- A client frame sealed and opened behind one frame of history. -/
theorem transcript_binding_opened :
    let H := Primitives.transparent.toHashes
    let f := widen ((clientAfter H [[1]]).sealFrame H [] 3 (zeros 16) 2 (zeros 24) [7] (zeros 16)).1
    (([[1]] : List Bytes) = [[1]] ∧ f = f) ∨
      Collides H.sha256 ((chain H).inputs [[1]]) ((chain H).inputs [[1]]) ∨
      (macInput H [[1]] f ≠ macInput H [[1]] f ∧
        H.hmacSha256 [] (macInput H [[1]] f) = H.hmacSha256 [] (macInput H [[1]] f)) := by
  intro H f
  have hf : f.WellFormed := ⟨by decide, rfl, by decide, rfl, by decide, rfl, rfl⟩
  exact transcript_binding H .client .server [[1]] [[1]] [] f f hf hf
    ⟨3, zeros 16, 2, zeros 24, [7], zeros 16, rfl⟩ rfl
    ⟨_, (Server.Protocol.Transcript.openFrame_eq_ok H hf.messageType hf.counter
      hf.payload_lt).mpr ⟨rfl, rfl⟩⟩

end Binding

end RankGate.Wire.TranscriptBinding
