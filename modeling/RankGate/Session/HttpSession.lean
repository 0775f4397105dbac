/- Module: RankGate/Session/HttpSession
   source: client/src/net/protocol.cpp, client/src/net/http_client.cpp, server/app/main.py
   digest: Base 64, JSON and routes between the two programs carry frames and rejections exactly. -/

import RankGate.Handlers.HttpSurface
import RankGate.Session.Completeness
import RankGate.Wire.HttpBodies

set_option autoImplicit false
set_option relaxedAutoImplicit false

namespace RankGate.Session.HttpSession

open ByteCodec (Bytes ascii)
open Effects (Yields ensure exec)
open RankGate.Client.Protocol (Draws Endpoint Http)
open RankGate.Client.Transport (HttpClient Network decodeResponse parsePubkey)
open RankGate.Crypto (Primitives)
open RankGate.Handlers.HttpSurface
open RankGate.Handlers.Requests
open RankGate.Server.Config (Env)
open RankGate.Server.Main (Call Compact Rendering Route compact compact_compact route?)
open RankGate.Server.Sessions (SessionM SessionStore)
open RankGate.Server.Verifier (buildLicenseStruct)
open RankGate.Session.Completeness (hashing rejection runSession_sample sampleDraws
  sampleServerDraws serverHttp)
open RankGate.Session.Script (ServerDraws)

/-- The call that a routed body makes; `json` reads the `session_id` out of a JSON body. -/
def callOf (sd : ServerDraws) (json : Bytes → Except String (List Char)) (body : Bytes) :
    Route → Call
  | .health => .health
  | .publicKey => .publicKey
  | .hello => .hello sd.hello body
  | .exchange => .exchange sd.exchange body
  | .finalize => .finalize sd.finalize body
  | .debugTranscript => .debugTranscript (json body)

def meanwhile (gap₁ gap₂ : List Call) : Route → List Call
  | .exchange => gap₁
  | .finalize => gap₂
  | _ => []

section Network

variable (P : Primitives) (env : Env) (render : Rendering) (sd : ServerDraws) (gap₁ gap₂ : List Call)
  (json : Bytes → Except String (List Char)) (host : Bytes) (port : UInt16)

def serverNetwork : Network (StateM SessionStore) where
  request verb h p path body := do
    ensure (h = host ∧ p = port) "WinHttpSendRequest failed (is the server running?)"
    match route? verb path with
    | none => return render [("detail", .str "Not Found".toList)]
    | some r => do
      modify fun store => Runs.final (httpStep P env render) store (meanwhile gap₁ gap₂ r)
      let (reply, store) := httpStep P env render (← get) (callOf sd json body r)
      set store
      return reply.body

theorem exec_request {verb path : String} {r : Route} (h : route? verb path = some r)
    (body : Bytes) (store : SessionStore) :
    exec ((serverNetwork P env render sd gap₁ gap₂ json host port).request verb host port path
      body) store =
      (let before := Runs.final (httpStep P env render) store (meanwhile gap₁ gap₂ r)
      (.ok (httpStep P env render before (callOf sd json body r)).1.body,
        (httpStep P env render before (callOf sd json body r)).2)) := by
  refine (Effects.exec_ensure_true ⟨rfl, rfl⟩).trans ?_
  rw [h]
  rfl

end Network

/-! Every answer begins like a frame, so none is empty or looks like a document. -/

section Answers

theorem serialize_magic {f : Server.Protocol.Frame} {b : Bytes} (h : f.serialize = .ok b) :
    Server.Config.magic <+: b := by
  obtain ⟨pre, hpre, h⟩ := Effects.except_bind_eq_ok h
  obtain ⟨hdr, hhdr, hpre⟩ := Effects.except_bind_eq_ok hpre
  obtain ⟨version, -, hhdr⟩ := Effects.except_bind_eq_ok hhdr
  obtain ⟨mt, -, hhdr⟩ := Effects.except_bind_eq_ok hhdr
  obtain ⟨counter, -, hhdr⟩ := Effects.except_bind_eq_ok hhdr
  obtain ⟨paylen, -, hhdr⟩ := Effects.except_bind_eq_ok hhdr
  cases hhdr
  cases hpre
  cases h
  simp only [List.append_assoc]
  exact List.prefix_append _ _

variable (P : Primitives) (env : Env)

theorem body_yields (f : Server.Protocol.Frame) (r : Request) :
    Yields (Server.Config.magic <+: ·) (body P env f r) := by
  have hlast (out : Server.Protocol.Frame) :
      Yields (Server.Config.magic <+: ·) (liftM out.serialize : SessionM Bytes) :=
    .lift fun _ => serialize_magic
  cases r with
  | hello d raw =>
    refine .bind fun _ => .bind fun ⟨_, _, _⟩ => .bind fun _ => .bind fun _ => .bind fun _ =>
      .bind fun _ => .bind fun ⟨out, _⟩ => .bind fun _ => .bind fun _ => .bind fun _ => ?_
    exact hlast out
  | exchange d raw =>
    refine .bind fun _ => .bind fun _ => .bind fun ⟨_, _, _⟩ => .bind fun _ =>
      .bind fun ⟨out, _⟩ => .bind fun _ => ?_
    exact hlast out
  | finalize d raw =>
    refine .bind fun _ => .bind fun _ => .bind fun _ => .bind fun ⟨_, _⟩ => .bind fun _ =>
      .bind fun _ => .bind fun ⟨out, _⟩ => .bind fun _ => ?_
    exact hlast out

theorem answer_magic {store : SessionStore} {r : Request} {response : Bytes}
    (h : (step P env store r).1 = .ok response) : Server.Config.magic <+: response := by
  obtain ⟨f, hf⟩ := frame_of_answered P env h
  have hbody {s : Server.Sessions.Session} (hout : (exec (body P env f r) s).1 = .ok response) :
      Server.Config.magic <+: response := body_yields P env f r s response _ (Prod.ext hout rfl)
  cases hr : r.isHello with
  | true =>
    rw [step_hello P env store hf hr] at h
    exact hbody h
  | false =>
    cases hlookup : store.lookup f.sessionId with
    | none =>
      rw [step_unknown P env hf hr hlookup] at h
      cases h
    | some s =>
      rw [step_known P env hf hr hlookup] at h
      exact hbody h

theorem answer_ne_nil {store : SessionStore} {r : Request} {response : Bytes}
    (h : (step P env store r).1 = .ok response) : response ≠ [] := by
  rintro rfl
  exact absurd (List.prefix_nil.mp (answer_magic P env h)) (List.cons_ne_nil _ _)

theorem decodeResponse_replyTo {render : Rendering} (hrender : Compact render)
    (store : SessionStore) (r : Request) :
    decodeResponse (replyTo render (step P env store r).1).body =
      (step P env store r).1.mapError fun _ => rejection := by
  cases h : (step P env store r).1 with
  | ok response => exact Wire.HttpBodies.decodeResponse_encode (answer_ne_nil P env h)
  | error e => exact Wire.HttpBodies.decodeResponse_generic hrender

end Answers

section Transport

variable (P : Primitives) (env : Env) {render : Rendering} (sd : ServerDraws) (gap₁ gap₂ : List Call)
  (json : Bytes → Except String (List Char)) (host : Bytes) (port : UInt16) {http : HttpClient}

theorem request_decoded (e : Endpoint) (raw : Bytes) : ∃ r,
    route? "POST" (Client.Transport.path e) = some r ∧
      request? (callOf sd json (Client.Base64.b64encode raw) r) =
        some (Completeness.request sd e raw) ∧
      requests (meanwhile gap₁ gap₂ r) =
        Completeness.meanwhile (requests gap₁) (requests gap₂) e := by
  have hbody := Effects.toOption_eq_some.mpr (Wire.HttpBodies.b64decode_body raw)
  cases e with
  | hello => exact ⟨.hello, rfl, congrArg (Option.map _) hbody, rfl⟩
  | exchange => exact ⟨.exchange, rfl, congrArg (Option.map _) hbody, rfl⟩
  | finalize => exact ⟨.finalize, rfl, congrArg (Option.map _) hbody, rfl⟩

/-- Text and routes come to nothing: the client talks to the handlers frame by frame, and learns of
a rejection what the handlers' transport says of it. -/
theorem over_serverNetwork (hrender : Compact render) (hhost : http.host = host)
    (hport : UInt16.ofInt http.port = port) :
    http.over (serverNetwork P env render sd gap₁ gap₂ json host port) =
      serverHttp P env sd (requests gap₁) (requests gap₂) := by
  subst hhost hport
  unfold HttpClient.over serverHttp
  congr 1
  · refine Effects.exec_ext fun store => ?_
    refine (Effects.exec_bind_ok (exec_request P env render sd gap₁ gap₂ json _ _ rfl [] store)).trans ?_
    refine (Effects.exec_lift _).trans ?_
    exact congrArg (·, store) (Wire.HttpBodies.parsePubkey_document P env hrender)
  · funext e raw
    obtain ⟨r, hroute, hcall, hgap⟩ := request_decoded sd gap₁ gap₂ json e raw
    refine Effects.exec_ext fun store => ?_
    have hsent := exec_request P env render sd gap₁ gap₂ json http.host (UInt16.ofInt http.port)
      hroute (Client.Base64.b64encode raw) store
    refine (Effects.exec_bind_ok hsent).trans ?_
    refine (Effects.exec_lift _).trans ?_
    dsimp only
    rw [step_request P env render _ hcall, final_eq, hgap, decodeResponse_replyTo P env hrender]
    rfl

end Transport

section Address

/-- The URL names the server's address. -/
def Reaches (serverUrl host : Bytes) (port : UInt16) : Prop :=
  ∃ http, HttpClient.ofUrl serverUrl = .ok http ∧ http.host = host ∧ UInt16.ofInt http.port = port

def decimal (n : Nat) : Bytes := (Nat.digits 10 n).reverse.map fun d => UInt8.ofNat (0x30 + d)

private theorem decimal_digit_facts : ∀ d < 10, Client.Transport.isDigit (UInt8.ofNat (0x30 + d)) = true ∧
    Client.Transport.isSpace (UInt8.ofNat (0x30 + d)) = false ∧
    UInt8.ofNat (0x30 + d) ≠ 0x2D ∧ UInt8.ofNat (0x30 + d) ≠ 0x2B ∧
    UInt8.ofNat (0x30 + d) ≠ 0x2F ∧ (UInt8.ofNat (0x30 + d)).toNat - 0x30 = d := by decide

theorem mem_decimal {n : Nat} {c : UInt8} (h : c ∈ decimal n) :
    ∃ d < 10, c = UInt8.ofNat (0x30 + d) := by
  obtain ⟨d, hd, rfl⟩ := List.mem_map.mp h
  exact ⟨d, Nat.digits_lt_base (by decide) (List.mem_reverse.mp hd), rfl⟩

private theorem foldl_decimal (n : Nat) :
    (decimal n).foldl (fun acc c => acc * 10 + (c.toNat - 0x30)) 0 = n := by
  have hdigits : ∀ d ∈ Nat.digits 10 n, d < 10 :=
    fun d hd => Nat.digits_lt_base (by decide) hd
  have hfold : (decimal n).foldl (fun acc c => acc * 10 + (c.toNat - 0x30)) 0 =
      Nat.ofDigits 10 (Nat.digits 10 n) := by
    unfold decimal
    rw [List.foldl_map, List.foldl_reverse]
    generalize Nat.digits 10 n = ds at hdigits
    induction ds with
    | nil => rfl
    | cons d ds ih =>
      rw [List.foldr_cons, ih fun e he => hdigits e (List.mem_cons_of_mem d he),
        (decimal_digit_facts d (hdigits d List.mem_cons_self)).2.2.2.2.2, Nat.ofDigits_cons]
      omega
  rw [hfold, Nat.ofDigits_digits]

theorem stoi_decimal {n : Nat} (hpos : 0 < n) (hn : n < 2 ^ 31) :
    Client.Transport.stoi (decimal n) = .ok (n : Int) := by
  have hne : decimal n ≠ [] := by
    unfold decimal
    rw [ne_eq, List.map_eq_nil_iff, List.reverse_eq_nil_iff]
    exact Nat.digits_ne_nil_iff_ne_zero.mpr (by omega)
  obtain ⟨c, cs, hcons⟩ := List.exists_cons_of_ne_nil hne
  obtain ⟨d, hd, rfl⟩ := mem_decimal (hcons ▸ List.mem_cons_self : c ∈ decimal n)
  obtain ⟨-, hspace, hminus, hplus, -, -⟩ := decimal_digit_facts d hd
  have hdrop : (decimal n).dropWhile Client.Transport.isSpace = decimal n := by
    rw [hcons]
    exact List.dropWhile_cons_of_neg (by rw [hspace]; exact Bool.false_ne_true)
  have htake : (decimal n).takeWhile Client.Transport.isDigit = decimal n := by
    refine List.takeWhile_eq_self_iff.mpr fun c hc => ?_
    obtain ⟨e, he, rfl⟩ := mem_decimal hc
    exact (decimal_digit_facts e he).1
  have hsign : ¬ ((decimal n).head? = some 0x2D ∨ (decimal n).head? = some 0x2B) := by
    rw [hcons, List.head?_cons, Option.some.injEq, Option.some.injEq]
    exact not_or.mpr ⟨hminus, hplus⟩
  have hunsigned : ¬ (decimal n).head? = some 0x2D := fun h => hsign (.inl h)
  unfold Client.Transport.stoi
  simp only [hdrop, if_neg hsign, if_neg hunsigned, htake, foldl_decimal]
  rw [Effects.except_ensure_true hne]
  exact Effects.except_ensure_true ⟨by omega, by exact_mod_cast hn⟩

/-- `http://host:port` and anything from a slash on. -/
def url (host : Bytes) (port : UInt16) (rest : Bytes) : Bytes :=
  Client.Transport.scheme ++ (host ++ 0x3A :: decimal port.toNat ++ rest)

theorem reaches_url {host rest : Bytes} {port : UInt16} (hcolon : 0x3A ∉ host)
    (hslash : 0x2F ∉ host) (hport : port ≠ 0) (hrest : rest = [] ∨ rest.head? = some 0x2F) :
    Reaches (url host port rest) host port := by
  have hpos : 0 < port.toNat := by
    rw [Nat.pos_iff_ne_zero]
    exact fun h => hport (UInt16.toNat_inj.mp h)
  have hlt : port.toNat < 2 ^ 31 := lt_trans port.toNat_lt (by decide)
  have hscheme : Client.Transport.scheme <+: url host port rest := List.prefix_append _ _
  have hdrop : (url host port rest).drop Client.Transport.scheme.length =
      host ++ 0x3A :: decimal port.toNat ++ rest := List.drop_left
  have hpart : (host ++ 0x3A :: decimal port.toNat ++ rest).takeWhile (· ≠ 0x2F) =
      host ++ 0x3A :: decimal port.toNat := by
    have hall : ∀ c ∈ host ++ 0x3A :: decimal port.toNat, decide (c ≠ 0x2F) = true := by
      intro c hc
      rw [decide_eq_true_eq]
      rcases List.mem_append.mp hc with hc | hc
      · exact fun h => hslash (h ▸ hc)
      · rcases List.mem_cons.mp hc with rfl | hc
        · decide
        · obtain ⟨d, hd, rfl⟩ := mem_decimal hc
          exact (decimal_digit_facts d hd).2.2.2.2.1
    rw [List.takeWhile_append_of_pos hall]
    rcases hrest with rfl | hrest
    · rw [List.takeWhile_nil, List.append_nil]
    · obtain ⟨tail, rfl⟩ := List.head?_eq_some_iff.mp hrest
      rw [List.takeWhile_cons_of_neg (by decide), List.append_nil]
  have hidx : (host ++ 0x3A :: decimal port.toNat).idxOf? 0x3A = some host.length := by
    rw [List.idxOf?_eq_some_iff]
    refine ⟨by simp, by simp, fun j hj heq => ?_⟩
    rw [List.getElem_append_left hj] at heq
    exact hcolon (heq ▸ List.getElem_mem hj)
  have hafter : (host ++ 0x3A :: decimal port.toNat).drop (host.length + 1) = decimal port.toNat := by
    rw [← List.drop_drop, List.drop_left, List.drop_succ_cons, List.drop_zero]
  refine ⟨⟨host, port.toNat⟩, ?_, rfl, ?_⟩
  · unfold HttpClient.ofUrl
    simp only [if_pos hscheme, hdrop, hpart, hidx, List.take_left, hafter]
    rw [Effects.except_bind_ok (stoi_decimal hpos hlt)]
    rfl
  · have hmod : ((port.toNat : Int) % 2 ^ 16).toNat = port.toNat := by
      have hport := port.toNat_lt
      omega
    rw [UInt16.ofInt, hmod, UInt16.ofNat_toNat]

section Session

variable (P : Primitives) (env : Env) {render : Rendering} (hrender : Compact render)
  (sd : ServerDraws) (gap₁ gap₂ : List Call) (json : Bytes → Except String (List Char))

include hrender

theorem runSession_eq {serverUrl host : Bytes} {port : UInt16} (h : Reaches serverUrl host port)
    (d : Draws) (name struct : Bytes) :
    Client.Transport.runSession P (serverNetwork P env render sd gap₁ gap₂ json host port) serverUrl d
        name struct =
      Client.Protocol.runSession P (serverHttp P env sd (requests gap₁) (requests gap₂)) d name
        struct := by
  obtain ⟨http, hurl, hhost, hport⟩ := h
  rw [Client.Transport.runSession, hurl]
  refine Effects.exec_ext fun s => (Effects.exec_bind_ok rfl).trans ?_
  rw [over_serverNetwork P env sd gap₁ gap₂ json host port hrender hhost hport]

/-- At any URL of the server's address a session over HTTP is the session over the handlers: the same
flag or the same exception, and the same store afterwards, for every name, license and other traffic,
whatever the primitives are. -/
theorem session_over_http {host rest : Bytes} {port : UInt16} (hcolon : 0x3A ∉ host)
    (hslash : 0x2F ∉ host) (hport : port ≠ 0) (hrest : rest = [] ∨ rest.head? = some 0x2F)
    (d : Draws) (name struct : Bytes) (store : SessionStore) :
    exec (Client.Transport.runSession P (serverNetwork P env render sd gap₁ gap₂ json host port)
        (url host port rest) d name struct) store =
      exec (Client.Protocol.runSession P (serverHttp P env sd (requests gap₁) (requests gap₂)) d name
        struct) store := by
  rw [runSession_eq P env hrender sd gap₁ gap₂ json (reaches_url hcolon hslash hport hrest)]

omit hrender in
/-- A name for the host, a path after the port, and a request for the key before the exchange. -/
theorem session_over_http_localhost :
    (exec (Client.Transport.runSession hashing
      (serverNetwork hashing sampleEnv compact sampleServerDraws [.publicKey] [] (fun _ => .error "")
        (ascii "localhost") 8080)
      (url (ascii "localhost") 8080 (ascii "/portal")) sampleDraws [0x61]
      (buildLicenseStruct hashing sampleEnv [0x61])) ∅).1 = .ok Server.Config.flag := by
  rw [session_over_http hashing sampleEnv compact_compact sampleServerDraws [.publicKey] []
    (fun _ => .error "") (by decide) (by decide) (by decide) (.inr (by decide))]
  exact runSession_sample

end Session

end Address

end RankGate.Session.HttpSession
