/- Module: RankGate/Server/Sessions
   source: server/app/sessions.py
   digest: One session's mutable fields, and the bounded store that holds the sessions. -/

import RankGate.Foundation.Effects
import RankGate.Foundation.OrderedDict
import RankGate.Server.Config

set_option autoImplicit false
set_option relaxedAutoImplicit false

namespace RankGate.Server.Sessions

open ByteCodec (Bytes)
open Effects (ensure exec)
open OrderedDict (Dict)
open RankGate.Server.Config (Failure)

structure Keys where
  c2s : Bytes
  s2c : Bytes
  mac : Bytes
  proof1 : Bytes
  sproof1 : Bytes
  proof2 : Bytes
  /-- the dict key is `seal` -/
  sealKey : Bytes
  deriving DecidableEq

structure Session where
  sessionId : Bytes
  usernameNorm : Bytes := []
  clientEphPub : Bytes := []
  serverEphPub : Bytes := []
  serverRandom : Bytes := []
  prk : Bytes := []
  /-- `none` is the empty dict of a session whose key schedule has not run. -/
  keys : Option Keys := none
  /-- rolling transcript snapshot -/
  transcriptState : Bytes := []
  /-- T2 -/
  salt : Bytes := []
  /-- last accepted client counter -/
  clientCounter : Nat := 0
  /-- next server outbound counter -/
  serverCounter : Nat := 0
  serverChallenge2 : Bytes := []
  vmDigest : Bytes := []
  proof1Ok : Bool := false
  deriving DecidableEq

/-- Code that runs on one session object; its assignments stay when it raises. -/
abbrev SessionM := ExceptT Failure (StateM Session)

def nextServerCounter : SessionM Nat := do
  modify fun s => { s with serverCounter := s.serverCounter + 1 }
  return (← get).serverCounter

def acceptClientCounter (counter : Nat) : SessionM Unit := do
  ensure ((← get).clientCounter < counter) (.protocolError "replay" "non-monotonic client counter")
  modify fun s => { s with clientCounter := counter }

/-- The singleton of the module: an ordered dict from session id to session. -/
abbrev SessionStore := Dict Bytes Session

abbrev HandlerM := ExceptT Failure (StateM SessionStore)

namespace SessionStore

def maxSessions : Nat := 1024

def create (sessionId : Bytes) : HandlerM Session := do
  let s : Session := { sessionId }
  modify fun store => store.assign sessionId s
  match (← get).moveToEnd sessionId with
  | some store => set store
  | none => throw (.keyError "session_id")
  modify fun store => store.shrink maxSessions
  return s

def get (sessionId : Bytes) : HandlerM Session := do
  let store ← MonadState.get
  match store.lookup sessionId with
  | none => throw (.protocolError "session" "unknown session")
  | some s =>
    match store.moveToEnd sessionId with
    | some store => set store
    | none => throw (.keyError "session_id")
    return s

end SessionStore

/-- Run code on the object `sess`, which the store holds under `sessionId`. -/
def onSession {α : Type} (sessionId : Bytes) (sess : Session) (m : SessionM α) : HandlerM α :=
  fun store =>
    let (outcome, sess) := exec m sess
    (outcome, store.replace sessionId sess)

section Store

variable {store : SessionStore} {sessionId : Bytes}

theorem exec_create : exec (SessionStore.create sessionId) store =
    (.ok { sessionId }, Dict.shrink SessionStore.maxSessions (store.insert sessionId { sessionId })) := by
  have hmove : (store.assign sessionId { sessionId }).moveToEnd sessionId =
      some (store.insert sessionId { sessionId }) := Dict.moveToEnd_assign store
  refine (Effects.exec_bind_ok rfl).trans ?_
  refine (Effects.exec_bind_ok rfl).trans ?_
  simp only [hmove]
  rfl

theorem exec_get_none (h : store.lookup sessionId = none) :
    exec (SessionStore.get sessionId) store =
      (.error (.protocolError "session" "unknown session"), store) := by
  refine (Effects.exec_bind_ok rfl).trans ?_
  simp only [h]
  rfl

theorem exec_get_some {s : Session} (h : store.lookup sessionId = some s) :
    exec (SessionStore.get sessionId) store = (.ok s, store.insert sessionId s) := by
  have hmove : store.moveToEnd sessionId = some (store.insert sessionId s) := by
    rw [Dict.moveToEnd, h, Option.map_some]
  refine (Effects.exec_bind_ok rfl).trans ?_
  simp only [h, hmove]
  rfl

theorem exec_onSession {α : Type} (sess : Session) (m : SessionM α) :
    exec (onSession sessionId sess m) store =
      ((exec m sess).1, store.replace sessionId (exec m sess).2) := rfl

end Store

section Counters

variable {s : Session} {counter : Nat} {α : Type} {k : Unit → SessionM α}

theorem exec_accept_fresh (h : s.clientCounter < counter) :
    exec (acceptClientCounter counter >>= k) s = exec (k ()) { s with clientCounter := counter } := by
  refine Effects.exec_bind_ok ?_
  refine (Effects.exec_bind_ok rfl).trans ?_
  exact Effects.exec_ensure_true h

theorem exec_accept_stale (h : ¬ s.clientCounter < counter) :
    exec (acceptClientCounter counter >>= k) s =
      (.error (.protocolError "replay" "non-monotonic client counter"), s) := by
  refine Effects.exec_bind_error ?_
  refine (Effects.exec_bind_ok rfl).trans ?_
  exact Effects.exec_ensure_false h

end Counters

end RankGate.Server.Sessions
