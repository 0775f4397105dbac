/- Module: RankGate/Session/Answers
   source: server/app/challenge_logic.py
   digest: Each answer goes out under the type of its endpoint, the id asked for and the next counter. -/

import RankGate.Session.Retention
import RankGate.Wire.ChannelLockstep

set_option autoImplicit false
set_option relaxedAutoImplicit false

namespace RankGate.Session.Answers

open ByteCodec (Bytes zeros)
open Effects (exec)
open OrderedDict (Dict)
open RankGate.Crypto (Primitives)
open RankGate.Handlers.Requests
open RankGate.Handlers.Specs
open RankGate.Server
open RankGate.Server.Config (Env)
open RankGate.Server.Protocol (Frame Transcript)
open RankGate.Server.Sessions (Keys Session SessionStore)
open RankGate.Session.Retention
open RankGate.Wire.ChannelLockstep (aeadFrame_wellFormed sealed_wellFormed)

def answerType : Request → Nat
  | .hello _ _ => Config.mtServerChallenge
  | .exchange _ _ => Config.mtServerProof1
  | .finalize _ _ => Config.mtSealedFlag

/-- The bytes are a frame that answers this request. -/
structure AnswerTo (r : Request) (sid : Bytes) (counter : Nat) (g : Frame) (response : Bytes) :
    Prop where
  wellFormed : g.WellFormed
  bytes : response = g.bytes
  messageType : g.messageType = answerType r
  sessionId : g.sessionId = sid
  counter : g.counter = counter

section Bodies

variable (P : Primitives) (env : Env) {f : Frame} {s s' : Session} {response : Bytes}

theorem challengeFrame_wellFormed (d : ChallengeLogic.HelloDraws) (hf : f.WellFormed)
    (t : Transcript) {counter : Nat} (hc : counter < 2 ^ 64) :
    (challengeFrame P env d f t counter).WellFormed := by
  refine sealed_wellFormed _ _ _ _ _ P.toHashes _ (by decide) hc hf.sessionId d.nonce.property ?_
    (ByteCodec.length_zeros 16)
  rw [length_challengePayload]
  decide

theorem serverProofFrame_wellFormed (d : ChallengeLogic.ExchangeDraws)
    (hsid : s.sessionId.length = 16) (hs : s.serverCounter + 1 < 2 ^ 64) (keys : Keys)
    (t : Transcript) (vmDigest : Bytes) : (serverProofFrame P d s keys t vmDigest).WellFormed := by
  refine aeadFrame_wellFormed P _ _ _ _ _ _ (by decide) hs hsid d.nonce.property ?_
  rw [length_serverProof1Payload]
  decide

theorem sealedFlagFrame_wellFormed (d : ChallengeLogic.FinalizeDraws)
    (hsid : s.sessionId.length = 16) (hs : s.serverCounter + 1 < 2 ^ 64) (keys : Keys)
    (t : Transcript) : (sealedFlagFrame P d s keys t).WellFormed := by
  refine aeadFrame_wellFormed P _ _ _ _ _ _ (by decide) hs hsid d.nonce.property ?_
  have hflag : Config.flag.length = 48 := by decide
  simp [innerBytes, d.sealNonce.property, hflag]

/-- Whatever a handler makes of the session, it counts once and answers under its own type. -/
theorem body_answers {r : Request} (hf : f.WellFormed) (hsid : s.sessionId = f.sessionId)
    (hs : s.serverCounter + 1 < 2 ^ 64) (h : exec (body P env f r) s = (.ok response, s')) :
    (∃ g, AnswerTo r f.sessionId (s.serverCounter + 1) g response) ∧
      s'.sessionId = s.sessionId ∧ s'.serverCounter = s.serverCounter + 1 := by
  cases r with
  | hello d raw =>
    obtain ⟨t, clientPub, usernameNorm, shared, -, rfl, rfl⟩ := helloBody_ok P env d f (fun _ => hs) h
    exact ⟨⟨_, challengeFrame_wellFormed P env d hf t hs, rfl, rfl, rfl, rfl⟩, rfl, rfl⟩
  | exchange d raw =>
    obtain ⟨keys, t, p, -, rfl, rfl⟩ := exchangeBody_ok P env d f (fun _ => hs) h
    have hwf := serverProofFrame_wellFormed P d (hsid ▸ hf.sessionId) hs keys t p.vm.vmDigest
    exact ⟨⟨_, hwf, rfl, rfl, hsid, rfl⟩, rfl, rfl⟩
  | finalize d raw =>
    obtain ⟨keys, t, -, rfl, rfl⟩ := finalizeBody_ok P d f (fun _ => hs) h
    have hwf := sealedFlagFrame_wellFormed P d (hsid ▸ hf.sessionId) hs keys t
    exact ⟨⟨_, hwf, rfl, rfl, hsid, rfl⟩, rfl, rfl⟩

end Bodies

section Steps

variable (P : Primitives) (env : Env) {store store' : SessionStore} {r : Request} {response : Bytes}

/-- The store holds a session under the id, and it has answered `n` times. -/
structure Counted (store : SessionStore) (sid : Bytes) (n : Nat) (s : Session) : Prop where
  lookup : store.lookup sid = some s
  sessionId : s.sessionId = sid
  serverCounter : s.serverCounter = n

theorem hello_answers {f : Frame} (hf : r.frame? = some f) (hr : r.isHello = true)
    (h : step P env store r = (.ok response, store')) :
    (∃ g, AnswerTo r f.sessionId 1 g response) ∧ (∃ s, Counted store' f.sessionId 1 s) ∧
      Dict.newer store' f.sessionId = [] := by
  have hstep := step_hello P env store hf hr
  have hself := lookup_hello_self P env store hf hr
  have hnewest : Dict.newer (step P env store r).2 f.sessionId = [] := newest_hello P env hf hr
  rcases hexec : exec (body P env f r) { sessionId := f.sessionId } with ⟨outcome, s'⟩
  rw [hexec] at hstep hself
  rw [h] at hstep hself hnewest
  obtain ⟨rfl, -⟩ := Prod.mk.inj hstep
  obtain ⟨hanswers, hid, hcounter⟩ := body_answers P env (Request.wellFormed hf) rfl
    (by exact (by decide : 0 + 1 < 2 ^ 64)) hexec
  exact ⟨hanswers, ⟨s', hself, hid, hcounter⟩, hnewest⟩

theorem known_answers {f : Frame} {n : Nat} {s : Session} (hf : r.frame? = some f)
    (hr : r.isHello = false) (hs : Counted store f.sessionId n s) (hn : n + 1 < 2 ^ 64)
    (h : step P env store r = (.ok response, store')) :
    (∃ g, AnswerTo r f.sessionId (n + 1) g response) ∧
      (∃ s', Counted store' f.sessionId (n + 1) s') ∧ Dict.newer store' f.sessionId = [] := by
  obtain ⟨hlookup, hsid, rfl⟩ := hs
  have hstep := step_known P env hf hr hlookup
  have hself := lookup_known_self P env hf hr hlookup
  have hnewest := newest_known P env hf hr hlookup
  rcases hexec : exec (body P env f r) s with ⟨outcome, s'⟩
  rw [hexec] at hstep hself
  rw [h] at hstep hself hnewest
  obtain ⟨rfl, -⟩ := Prod.mk.inj hstep
  obtain ⟨hanswers, hid, hcounter⟩ := body_answers P env (Request.wellFormed hf) hsid hn hexec
  exact ⟨hanswers, ⟨s', hself, hid.trans hsid, hcounter⟩, hnewest⟩

theorem Counted.run {sid : Bytes} {n : Nat} {s : Session} (hs : Counted store sid n s)
    (hnewest : Dict.newer store sid = []) {rs : List Request} (h : Elsewhere sid rs) :
    Counted (Runs.final (step P env) store rs) sid n s :=
  ⟨run_keeps P env h hs.lookup hnewest, hs.sessionId, hs.serverCounter⟩

end Steps

end RankGate.Session.Answers
