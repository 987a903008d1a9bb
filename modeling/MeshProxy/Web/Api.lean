/-
The requests of the dashboard (`internal/web`: handlers_mesh.go, helpers.go; server.go: handleAPIChatSend,
handleAPIFavorite, handleAPIConfigRefresh; `internal/node/connection.go`: Send, requestConfig).

A handler turns a request into a response and, if it accepts it, into one frame for the node, a change of the directory or a
new config request. The state is what the connection's loops read and write (Node.ReadLoop) and, for the statements, `sent`:
what the handlers have handed to sendToNodeFn. Parameters are the JSON decoder, on the bytes that MaxBytesReader lets
through, and what proto.Marshal makes of the two constant payloads. `rest` of a packet holds its want_ack and want_response.

A request, a frame and a client's send are one step each: they come one after the other. For what reaches the node this is
no restriction, as a handler calls Send once and Send queues at once. The chat log is another matter: after it has queued a
text, Send records it and then publishes it, and calls of several goroutines can overtake each other in between.

- `handle_cases`: what a handler can do;
- `requests_bounded`: whatever is posted, only well-formed requests of the dashboard's kinds reach the node;
- `texts_come_back`: where the calls come one after the other, a text that is accepted shows up in the chat as it was
  written, once.
-/
import MeshProxy.Metrics.Sampler
import MeshProxy.Node.ReadLoop

namespace MeshProxy.Api

open MeshProxy.Decode MeshProxy.Proto MeshProxy.ReadLoop MeshProxy.Store MeshProxy.Trace MeshProxy.Window
open MeshProxy.Frame (Bytes)

/-! ## Requests and responses -/

structure Request where
  method : String
  body : Bytes

structure Response where
  status : ℕ
  body : String
deriving DecidableEq, Repr

structure ChatSendRequest where
  text : Bytes
  to_ : UInt32
  channel : UInt32

structure FavoriteRequest where
  nodeNum : UInt32
  isFavorite : Bool

/-- `json.Decoder` on a body that was cut off or not; its error as text -/
structure Decoders where
  nodeAction : Bytes → Bool → Except String UInt32
  chatSend : Bytes → Bool → Except String ChatSendRequest
  favorite : Bytes → Bool → Except String FavoriteRequest

/-- what the server is built with: the options given, and the marshalled `RouteDiscovery` and `StoreAndForward` -/
structure Env where
  pb : Codec
  grow : ℕ → ℕ
  json : Decoders
  chatSupport : Bool
  configRefresh : Bool
  routeDiscovery : Option Bytes
  storeAndForward : Option Bytes

def maxTextPayload : ℕ := 237
def maxRequestBody : ℕ := 4096

/-- `http.Error` -/
def httpError (msg : String) (code : ℕ) : Response := ⟨code, msg ++ "\n"⟩

def jsonOK : Response := ⟨200, "\x7b\"ok\":true\x7d\n"⟩

def refreshAccepted : Response := ⟨202, "\x7b\"ok\":true,\"message\":\"config refresh requested\"\x7d\n"⟩

/-- a body behind `http.MaxBytesReader` -/
def decodeBody {α : Type} (decode : Bytes → Bool → Except String α) (body : Bytes) : Except Response α :=
  match decode (body.take maxRequestBody) (maxRequestBody < body.length) with
  | .error err => .error (httpError ("invalid JSON: " ++ err) 400)
  | .ok req => .ok req

/-- the response of `requirePost` when the method is another -/
def requirePost (r : Request) : Except Response Unit :=
  if r.method ≠ "POST" then .error (httpError "method not allowed" 405) else .ok ()

/-! ## Handlers -/

structure Server where
  conn : Conn
  sent : List Bytes

inductive Endpoint where
  | traceroute | requestPosition | requestNodeInfo | storeForward | chatSend | favorite | configRefresh
deriving DecidableEq, Repr

/-- field 10 of MeshPacket and field 3 of Data, both true -/
def wantAck : Bytes := [0x50, 1]
def wantResponse : Bytes := [0x18, 1]

def storeForwardApp : ℤ := 65

section Handlers

variable (e : Env)

/-- `sendToNodeFn`, which is Connection.Send -/
def Server.sendToNode (room : Bool) (data : Bytes) (s : Server) : Server :=
  { conn := s.conn.send e.pb room data, sent := s.sent ++ [data] }

/-- marshal a ToRadio message and send it -/
def sendToRadio (room : Bool) (pkt : MeshPacket) (s : Server) : Server × Response :=
  match e.pb.marshalToRadio { variant := .packet pkt } with
  | none => (s, httpError "internal error" 500)
  | some data => (s.sendToNode e room data, jsonOK)

/-- the packet of `sendMeshPacket` -/
def actionPacket (target : UInt32) (portnum : ℤ) (payload : Bytes) : MeshPacket :=
  { to_ := target, variant := .decoded { portnum := portnum, payload := payload, rest := wantResponse }, rest := wantAck }

def sendMeshPacket (room : Bool) (target : UInt32) (portnum : ℤ) (payload : Bytes) (s : Server) : Server × Response :=
  sendToRadio e room (actionPacket target portnum payload) s

def requireNodeAction (r : Request) : Except Response UInt32 :=
  match requirePost r with
  | .error resp => .error resp
  | .ok () =>
    if e.chatSupport = false then .error (httpError "not available" 503)
    else
      match decodeBody e.json.nodeAction r.body with
      | .error resp => .error resp
      | .ok target => if target = 0 then .error (httpError "target is required" 400) else .ok target

/-- the four node actions; a payload may fail to marshal -/
def nodeAction (portnum : ℤ) (payload : Option Bytes) (room : Bool) (r : Request) (s : Server) : Server × Response :=
  match requireNodeAction e r with
  | .error resp => (s, resp)
  | .ok target =>
    match payload with
    | none => (s, httpError "internal error" 500)
    | some payload => sendMeshPacket e room target portnum payload s

def handleAPITraceroute := nodeAction e PortNum.tracerouteApp e.routeDiscovery

def handleAPIRequestPosition := nodeAction e PortNum.positionApp (some [])

def handleAPIRequestNodeInfo := nodeAction e PortNum.nodeinfoApp (some [])

def handleAPIStoreForward := nodeAction e storeForwardApp e.storeAndForward

/-- 0 stands for everybody -/
def destination (to_ : UInt32) : UInt32 := if to_ = 0 then 0xFFFFFFFF else to_

def textPacket (req : ChatSendRequest) : MeshPacket :=
  { to_ := destination req.to_, channel := req.channel,
    variant := .decoded { portnum := PortNum.textMessageApp, payload := req.text }, rest := wantAck }

/-- the checks of `handleAPIChatSend` -/
def requireText (r : Request) : Except Response ChatSendRequest :=
  match requirePost r with
  | .error resp => .error resp
  | .ok () =>
    if e.chatSupport = false then .error (httpError "chat not available" 503)
    else
      match decodeBody e.json.chatSend r.body with
      | .error resp => .error resp
      | .ok req =>
        if req.text = [] then .error (httpError "text is required" 400)
        else if maxTextPayload < req.text.length then
          .error (httpError ("text too long (max " ++ toString maxTextPayload ++ " bytes)") 400)
        else .ok req

def handleAPIChatSend (room : Bool) (r : Request) (s : Server) : Server × Response :=
  match requireText e r with
  | .error resp => (s, resp)
  | .ok req => sendToRadio e room (textPacket req) s

def handleAPIFavorite (r : Request) (s : Server) : Server × Response :=
  match requirePost r with
  | .error resp => (s, resp)
  | .ok () =>
    match decodeBody e.json.favorite r.body with
    | .error resp => (s, resp)
    | .ok req =>
      if req.nodeNum = 0 then (s, httpError "node_num is required" 400)
      else
        let (metrics, found) := s.conn.metrics.setFavorite req.nodeNum req.isFavorite
        if found then ({ s with conn := { s.conn with metrics := metrics } }, jsonOK)
        else (s, httpError "node not found" 404)

/-- `refreshConfigFn` is Connection.RequestConfigRefresh -/
def Server.requestConfig (room : Bool) (nonce : UInt32) (s : Server) : Server :=
  match e.pb.marshalToRadio { variant := .wantConfigId nonce } with
  | none => s
  | some data => { s with conn := s.conn.send e.pb room data }

def handleAPIConfigRefresh (room : Bool) (nonce : UInt32) (r : Request) (s : Server) : Server × Response :=
  match requirePost r with
  | .error resp => (s, resp)
  | .ok () =>
    if e.configRefresh = false then (s, httpError "config refresh not available" 503)
    else (s.requestConfig e room nonce, refreshAccepted)

/-- the routes of `buildMux` that take a POST; whether toNode has room, and the clock's nonce -/
def handle (room : Bool) (nonce : UInt32) (r : Request) (s : Server) : Endpoint → Server × Response
  | .traceroute => handleAPITraceroute e room r s
  | .requestPosition => handleAPIRequestPosition e room r s
  | .requestNodeInfo => handleAPIRequestNodeInfo e room r s
  | .storeForward => handleAPIStoreForward e room r s
  | .chatSend => handleAPIChatSend e room r s
  | .favorite => handleAPIFavorite e r s
  | .configRefresh => handleAPIConfigRefresh e room nonce r s

/-- a request, or anything else that happens on the node's side: its frames, those of clients, a reconnect -/
inductive Act where
  | post (ep : Endpoint) (room : Bool) (nonce : UInt32) (r : Request)
  | node (a : ReadLoop.Act)

def step (s : Server) : Act → Server
  | .post ep room nonce r => (handle e room nonce r s ep).1
  | .node a => { s with conn := ReadLoop.step e.pb e.grow s.conn a }

def init (maxMessages : ℤ) : Server := ⟨.new maxMessages, []⟩

end Handlers

/-! ## What a handler can do -/

section Cases

variable (e : Env)

/-- port and payload of the node actions -/
def actions : List (ℤ × Option Bytes) :=
  [(PortNum.tracerouteApp, e.routeDiscovery), (PortNum.positionApp, some []), (PortNum.nodeinfoApp, some []),
    (storeForwardApp, e.storeAndForward)]

/-- the packets the dashboard can ask for -/
inductive Asked : MeshPacket → Prop
  | action (target : UInt32) (portnum : ℤ) (payload : Bytes) (htarget : target ≠ 0)
      (haction : (portnum, some payload) ∈ actions e) : Asked (actionPacket target portnum payload)
  | text (req : ChatSendRequest) (hne : req.text ≠ []) (hlen : req.text.length ≤ maxTextPayload) : Asked (textPacket req)

/-- the packet a request asks for, if it passes its checks -/
def packetOf (r : Request) : Endpoint → Option MeshPacket
  | .chatSend => (requireText e r).toOption.map textPacket
  | .traceroute => actionOf PortNum.tracerouteApp e.routeDiscovery
  | .requestPosition => actionOf PortNum.positionApp (some [])
  | .requestNodeInfo => actionOf PortNum.nodeinfoApp (some [])
  | .storeForward => actionOf storeForwardApp e.storeAndForward
  | .favorite | .configRefresh => none
where
  actionOf (portnum : ℤ) (payload : Option Bytes) : Option MeshPacket :=
    match (requireNodeAction e r).toOption, payload with
    | some target, some payload => some (actionPacket target portnum payload)
    | _, _ => none

/-- the outcomes of a handler -/
inductive Handled (room : Bool) (nonce : UInt32) (r : Request) (s : Server) : Endpoint → Server × Response → Prop
  | refused (ep : Endpoint) (resp : Response) (hstatus : 400 ≤ resp.status) : Handled room nonce r s ep (s, resp)
  | sent (ep : Endpoint) (pkt : MeshPacket) (data : Bytes) (hpkt : packetOf e r ep = some pkt)
      (hm : e.pb.marshalToRadio { variant := .packet pkt } = some data) :
    Handled room nonce r s ep (s.sendToNode e room data, jsonOK)
  | favored (req : FavoriteRequest) (metrics : Metrics) (hnum : req.nodeNum ≠ 0)
      (hset : s.conn.metrics.setFavorite req.nodeNum req.isFavorite = (metrics, true)) :
    Handled room nonce r s .favorite ({ s with conn := { s.conn with metrics := metrics } }, jsonOK)
  | refreshed : Handled room nonce r s .configRefresh (s.requestConfig e room nonce, refreshAccepted)

variable {e} {room : Bool} {nonce : UInt32} {r : Request} {s : Server}

theorem requirePost_error {resp : Response} (h : requirePost r = .error resp) : 400 ≤ resp.status := by
  unfold requirePost at h
  split_ifs at h
  cases h
  decide

theorem decodeBody_error {α : Type} {decode : Bytes → Bool → Except String α} {body : Bytes} {resp : Response}
    (h : decodeBody decode body = .error resp) : 400 ≤ resp.status := by
  unfold decodeBody at h
  split at h
  · cases h
    exact le_rfl
  · cases h

theorem requireNodeAction_error {resp : Response} (h : requireNodeAction e r = .error resp) : 400 ≤ resp.status := by
  unfold requireNodeAction at h
  split at h
  · rename_i hpost
    cases h
    exact requirePost_error hpost
  · split_ifs at h
    · cases h
      show 400 ≤ 503
      norm_num
    · split at h
      · rename_i hdecode
        cases h
        exact decodeBody_error hdecode
      · split_ifs at h
        cases h
        exact le_rfl

theorem requireNodeAction_ok {target : UInt32} (h : requireNodeAction e r = .ok target) : target ≠ 0 := by
  unfold requireNodeAction at h
  split at h
  · cases h
  · split_ifs at h
    split at h
    · cases h
    · split_ifs at h with h0
      cases h
      exact h0

theorem requireText_error {resp : Response} (h : requireText e r = .error resp) : 400 ≤ resp.status := by
  unfold requireText at h
  split at h
  · rename_i hpost
    cases h
    exact requirePost_error hpost
  · split_ifs at h
    · cases h
      show 400 ≤ 503
      norm_num
    · split at h
      · rename_i hdecode
        cases h
        exact decodeBody_error hdecode
      · split_ifs at h
        · cases h
          exact le_rfl
        · cases h
          exact le_rfl

theorem requireText_ok {req : ChatSendRequest} (h : requireText e r = .ok req) :
    req.text ≠ [] ∧ req.text.length ≤ maxTextPayload := by
  unfold requireText at h
  split at h
  · cases h
  · split_ifs at h
    split at h
    · cases h
    · split_ifs at h with hne hlen
      cases h
      exact ⟨hne, not_lt.1 hlen⟩

theorem actionOf_some {portnum : ℤ} {payload : Option Bytes} {pkt : MeshPacket}
    (h : packetOf.actionOf e r portnum payload = some pkt) :
    ∃ target p, payload = some p ∧ target ≠ 0 ∧ pkt = actionPacket target portnum p := by
  unfold packetOf.actionOf at h
  split at h
  · rename_i target p htarget
    cases h
    cases hrequire : requireNodeAction e r with
    | error resp => simp [hrequire, Except.toOption] at htarget
    | ok t =>
      obtain rfl : t = target := by simpa [hrequire, Except.toOption] using htarget
      exact ⟨t, p, rfl, requireNodeAction_ok hrequire, rfl⟩
  · cases h

/-- what is not a text is a node action -/
theorem packetOf_action {ep : Endpoint} {pkt : MeshPacket} (hep : ep ≠ .chatSend) (h : packetOf e r ep = some pkt) :
    ∃ target portnum p, target ≠ 0 ∧ (portnum, some p) ∈ actions e ∧ pkt = actionPacket target portnum p := by
  have haction : ∀ portnum payload, (portnum, payload) ∈ actions e → packetOf.actionOf e r portnum payload = some pkt →
      ∃ target portnum p, target ≠ 0 ∧ (portnum, some p) ∈ actions e ∧ pkt = actionPacket target portnum p := by
    intro portnum payload hmem hpkt
    obtain ⟨target, p, rfl, htarget, hp⟩ := actionOf_some hpkt
    exact ⟨target, portnum, p, htarget, hmem, hp⟩
  cases ep with
  | chatSend => exact absurd rfl hep
  | favorite => cases h
  | configRefresh => cases h
  | _ => exact haction _ _ (by simp [actions]) h

theorem packetOf_asked {ep : Endpoint} {pkt : MeshPacket} (h : packetOf e r ep = some pkt) : Asked e pkt := by
  by_cases hep : ep = .chatSend
  · subst hep
    obtain ⟨req, hreq, rfl⟩ := Option.map_eq_some_iff.1 h
    cases hrequire : requireText e r with
    | error resp => simp [hrequire, Except.toOption] at hreq
    | ok req' =>
      obtain rfl : req' = req := by simpa [hrequire, Except.toOption] using hreq
      exact .text _ (requireText_ok hrequire).1 (requireText_ok hrequire).2
  · obtain ⟨target, portnum, p, htarget, hmem, rfl⟩ := packetOf_action hep h
    exact .action target portnum p htarget hmem

theorem sendToRadio_cases {ep : Endpoint} {pkt : MeshPacket} (hpkt : packetOf e r ep = some pkt) :
    Handled e room nonce r s ep (sendToRadio e room pkt s) := by
  unfold sendToRadio
  split
  · exact .refused ep _ (by show 400 ≤ 500; norm_num)
  · rename_i data hm
    exact .sent ep pkt data hpkt hm

theorem nodeAction_cases (ep : Endpoint) (portnum : ℤ) (payload : Option Bytes)
    (hep : packetOf e r ep = packetOf.actionOf e r portnum payload) :
    Handled e room nonce r s ep (nodeAction e portnum payload room r s) := by
  unfold nodeAction
  split
  · rename_i resp hrequire
    exact .refused ep resp (requireNodeAction_error hrequire)
  · rename_i target hrequire
    cases payload with
    | none => exact .refused ep _ (by show 400 ≤ 500; norm_num)
    | some payload =>
      have hpkt : packetOf e r ep = some (actionPacket target portnum payload) := by
        rw [hep]
        simp only [packetOf.actionOf, hrequire, Except.toOption]
      exact sendToRadio_cases hpkt

variable (e room nonce r s) in
theorem handle_cases (ep : Endpoint) : Handled e room nonce r s ep (handle e room nonce r s ep) := by
  cases ep with
  | chatSend =>
    simp only [handle, handleAPIChatSend]
    split
    · rename_i resp hrequire
      exact .refused _ resp (requireText_error hrequire)
    · rename_i req hrequire
      apply sendToRadio_cases
      rw [packetOf, hrequire]
      rfl
  | favorite =>
    simp only [handle, handleAPIFavorite]
    split
    · rename_i resp hpost
      exact .refused _ resp (requirePost_error hpost)
    · split
      · rename_i resp hdecode
        exact .refused _ resp (decodeBody_error hdecode)
      · rename_i req hdecode
        split_ifs with h0 hfound
        · exact .refused _ _ le_rfl
        · exact .favored req _ h0 (Prod.ext rfl hfound)
        · exact .refused _ _ (by show 400 ≤ 404; norm_num)
  | configRefresh =>
    simp only [handle, handleAPIConfigRefresh]
    split
    · rename_i resp hpost
      exact .refused _ resp (requirePost_error hpost)
    · split_ifs
      · exact .refused _ _ (by show 400 ≤ 503; norm_num)
      · exact .refreshed
  | traceroute => exact nodeAction_cases .traceroute _ _ rfl
  | requestPosition => exact nodeAction_cases .requestPosition _ _ rfl
  | requestNodeInfo => exact nodeAction_cases .requestNodeInfo _ _ rfl
  | storeForward => exact nodeAction_cases .storeForward _ _ rfl

end Cases

/-! ## What reaches the node -/

section Sent

variable (e : Env)

/-- the packet of a request that is answered with ok -/
def accepted (s : Server) : Act → List MeshPacket
  | .post ep room nonce r => if (handle e room nonce r s ep).2 = jsonOK then (packetOf e r ep).toList else []
  | .node _ => []

/-- what the node makes of what was sent -/
def decoded (s : Server) : List (Option ToRadio) := s.sent.map e.pb.unmarshalToRadio

/-- what happens on the node's side alone -/
def nodeActs (as : List Act) : List ReadLoop.Act :=
  as.filterMap fun a =>
    match a with
    | .post .. => none
    | .node b => some b

variable {e} {s : Server}

theorem jsonOK_not_error {resp : Response} (h : 400 ≤ resp.status) : resp ≠ jsonOK := by
  rintro rfl
  exact absurd h (by decide)

theorem accepted_asked (a : Act) : ∀ pkt ∈ accepted e s a, Asked e pkt := by
  intro pkt hpkt
  cases a with
  | node b => cases hpkt
  | post ep room nonce r =>
    simp only [accepted] at hpkt
    split_ifs at hpkt
    · exact packetOf_asked (Option.mem_toList.1 hpkt)
    · cases hpkt

/-- a step adds the frames of the packets it accepts, and those decode to them -/
theorem step_sent (hto : e.pb.ToRoundTrip) (a : Act) :
    decoded e (step e s a) = decoded e s ++ (accepted e s a).map fun pkt => some ⟨.packet pkt, []⟩ := by
  unfold decoded
  cases a with
  | node b => simp [step, accepted]
  | post ep room nonce r =>
    have hcases := handle_cases e room nonce r s ep
    simp only [step, accepted]
    generalize handle e room nonce r s ep = out at hcases
    cases hcases with
    | refused ep resp hstatus => simp [jsonOK_not_error hstatus]
    | sent ep pkt data hpkt hm => simp [Server.sendToNode, hpkt, hto _ _ hm]
    | favored req metrics hnum hset => simp [packetOf]
    | refreshed =>
      have hsame : (s.requestConfig e room nonce).sent = s.sent := by
        unfold Server.requestConfig
        split <;> rfl
      simp [hsame, packetOf]

end Sent

/-! ## What stays as it is -/

section Frame

variable {e : Env} {s : Server}

theorem send_nodeDir {pb : Codec} (room : Bool) (data : Bytes) (c : Conn) :
    (c.send pb room data).metrics.nodeDir = c.metrics.nodeDir := by
  unfold Conn.send
  split_ifs
  · simp only
    split <;> rfl
  · rfl

theorem requestConfig_conn (room : Bool) (nonce : UInt32) :
    (s.requestConfig e room nonce).conn.cache = s.conn.cache ∧
      (s.requestConfig e room nonce).conn.metrics.nodeDir = s.conn.metrics.nodeDir := by
  unfold Server.requestConfig
  split
  · exact ⟨rfl, rfl⟩
  · exact ⟨send_cache e.pb room _, send_nodeDir room _ _⟩

theorem setFavorite_nodeDir {m m' : Metrics} {n : UInt32} {fav : Bool} (h : m.setFavorite n fav = (m', true)) :
    ∃ entry, m.nodeDir.get? n = some entry ∧ m'.nodeDir = m.nodeDir.set n { entry with isFavorite := fav } := by
  unfold Metrics.setFavorite at h
  split at h
  · cases h
  · rename_i entry hentry
    cases h
    exact ⟨entry, hentry, rfl⟩

/-- what a request may change besides the logs -/
def Harmless (s s' : Server) : Prop :=
  s'.conn.cache = s.conn.cache ∧
  (s'.conn.metrics.nodeDir = s.conn.metrics.nodeDir ∨
    ∃ n entry fav, n ≠ 0 ∧ s.conn.metrics.nodeDir.get? n = some entry ∧
      s'.conn.metrics.nodeDir = s.conn.metrics.nodeDir.set n { entry with isFavorite := fav })

theorem handle_harmless (room : Bool) (nonce : UInt32) (r : Request) (ep : Endpoint) :
    Harmless s (handle e room nonce r s ep).1 := by
  have hcases := handle_cases e room nonce r s ep
  generalize handle e room nonce r s ep = out at hcases
  cases hcases with
  | refused ep resp hstatus => exact ⟨rfl, .inl rfl⟩
  | sent ep pkt data hpkt hm => exact ⟨send_cache e.pb room data, .inl (send_nodeDir room data _)⟩
  | favored req metrics hnum hset =>
    obtain ⟨entry, hentry, hdir⟩ := setFavorite_nodeDir hset
    exact ⟨rfl, .inr ⟨_, entry, _, hnum, hentry, hdir⟩⟩
  | refreshed => exact ⟨(requestConfig_conn room nonce).1, .inl (requestConfig_conn room nonce).2⟩

/-- the cache's next state depends on the cache alone -/
theorem node_cache {pb : Codec} {grow : ℕ → ℕ} {c c' : Conn} (h : c.cache = c'.cache) (b : ReadLoop.Act) :
    (ReadLoop.step pb grow c b).cache = (ReadLoop.step pb grow c' b).cache := by
  cases b with
  | frame now room payload => rw [ReadLoop.step, ReadLoop.step, onFrame_cache, onFrame_cache, h]
  | send room payload => rw [ReadLoop.step, ReadLoop.step, send_cache, send_cache, h]
  | reconnect => rw [ReadLoop.step, ReadLoop.step, h]

/-- requests leave no trace in the config cache -/
theorem run_cache (as : List Act) {c : Conn} (h : s.conn.cache = c.cache) :
    (run (step e) s as).conn.cache = (run (ReadLoop.step e.pb e.grow) c (nodeActs as)).cache := by
  induction as generalizing s c with
  | nil => exact h
  | cons a as ih =>
    cases a with
    | post ep room nonce r =>
      have hkept : (handle e room nonce r s ep).1.conn.cache = s.conn.cache := (handle_harmless room nonce r ep).1
      exact ih (hkept.trans h)
    | node b =>
      have hnext : (ReadLoop.step e.pb e.grow s.conn b).cache = (ReadLoop.step e.pb e.grow c b).cache := node_cache h b
      exact ih hnext

end Frame

/-- **Only well-formed requests reach the node.** Whatever is posted, and whatever happens on the node's side meanwhile:
- the frames that the handlers have handed to Send are, in order, one for each request that was answered with ok by an
  endpoint that sends, and each decodes to the packet the request asked for: a node action for a node other than 0, or a
  text of 1 to 237 bytes;
- the config cache is as if there had been no requests;
- a request that is answered with an error changes nothing, and any other one changes the directory at most by the flag of
  a node that is in it. -/
theorem requests_bounded (e : Env) (hto : e.pb.ToRoundTrip) (maxMessages : ℤ) (as : List Act) :
    let s := run (step e) (init maxMessages) as
    let packets := emitted (step e) (accepted e) (init maxMessages) as
    decoded e s = packets.map (fun pkt => some ⟨.packet pkt, []⟩) ∧ (∀ pkt ∈ packets, Asked e pkt) ∧
    s.conn.cache = (run (ReadLoop.step e.pb e.grow) (.new maxMessages) (nodeActs as)).cache ∧
    ∀ room nonce r ep, (400 ≤ (handle e room nonce r s ep).2.status → (handle e room nonce r s ep).1 = s) ∧
      Harmless s (handle e room nonce r s ep).1 := by
  intro s packets
  refine ⟨?_, fun pkt hpkt => ?_, run_cache as rfl, fun room nonce r ep => ⟨fun hstatus => ?_, handle_harmless room nonce r ep⟩⟩
  · have hlog := emitted_log (fun _ a => step_sent hto a) (init maxMessages) as
    rw [emitted_map] at hlog
    exact hlog
  · exact forall_mem_emitted (fun _ a => accepted_asked a) _ _ pkt hpkt
  · have hcases := handle_cases e room nonce r s ep
    generalize handle e room nonce r s ep = out at hcases hstatus
    cases hcases with
    | refused ep resp h => rfl
    | sent ep pkt data hpkt hm => exact absurd hstatus (by simp [jsonOK])
    | favored req metrics hnum hset => exact absurd hstatus (by simp [jsonOK])
    | refreshed => exact absurd hstatus (by simp [refreshAccepted])

/-! ## The chat -/

def chatOf : Event → Option ChatMessage
  | .chatMessage c => some c
  | _ => none

/-- the chat messages that were ever published, and those that went out -/
def chats (m : Metrics) : List ChatMessage := m.events.filterMap chatOf

def outgoing (m : Metrics) : List ChatMessage := (chats m).filter fun c => c.direction = .outgoing

/-- how a text from the dashboard is to be shown -/
def shownText (c : Conn) (req : ChatSendRequest) : ChatMessage where
  from_ := c.cache.myNodeNum
  to_ := destination req.to_
  channel := req.channel
  text := req.text
  fromName := Conn.shortNameOf c.metrics.nodeDir c.cache.myNodeNum
  toName :=
    if destination req.to_ = 0xFFFFFFFF then "Broadcast" else Conn.shortNameOf c.metrics.nodeDir (destination req.to_)
  direction := .outgoing
  viaMqtt := false
  rxRssi := 0
  rxSnr := Binary32.F32.zero

/-- the message that recordChatMessage records -/
def recorded (c : Conn) (chat : ChatMessageData) (direction : Direction) : ChatMessage where
  from_ := chat.from_
  to_ := chat.to_
  channel := chat.channel
  text := chat.text
  fromName := Conn.shortNameOf c.metrics.nodeDir chat.from_
  toName := if chat.to_ = 0xFFFFFFFF then "Broadcast" else Conn.shortNameOf c.metrics.nodeDir chat.to_
  direction := direction
  viaMqtt := chat.viaMqtt
  rxRssi := chat.rxRssi
  rxSnr := chat.rxSnr

/-- a client's text -/
def clientText (c : Conn) (chat : ChatMessageData) : ChatMessage :=
  recorded c { chat with from_ := if chat.from_ = 0 then c.cache.myNodeNum else chat.from_ } .outgoing

/-- the texts that a step queues for the node -/
def said (e : Env) (s : Server) : Act → List ChatMessage
  | .post .chatSend room _ r =>
    match requireText e r with
    | .error _ => []
    | .ok req =>
      if room = true ∧ (e.pb.marshalToRadio { variant := .packet (textPacket req) }).isSome then [shownText s.conn req] else []
  | .node (.send room payload) =>
    if room then (extractChatMessageFromToRadio e.pb payload).toList.map (clientText s.conn) else []
  | _ => []

/-- the chat log of the metrics, with what has gone out -/
structure Log (out : List ChatMessage) (m : Metrics) : Prop where
  out : outgoing m = out
  ring : m.chatMessages = (chats m).rtake defaultMaxChatMessages

section Chat

variable {e : Env} {s : Server} {out : List ChatMessage} {m m' : Metrics}

/-- an event that is no chat message -/
theorem Log.other (h : Log out m) {ev : Event} (hev : chatOf ev = none) (hevents : m'.events = m.events ++ [ev])
    (hring : m'.chatMessages = m.chatMessages) : Log out m' := by
  have hchats : chats m' = chats m := by simp [chats, hevents, hev]
  exact ⟨by rw [outgoing, hchats]; exact h.out, by rw [hring, hchats, h.ring]⟩

theorem Log.record (h : Log out m) (c : ChatMessage) :
    Log (out ++ if c.direction = .outgoing then [c] else []) (m.recordChatMessage c) := by
  have hchats : chats (m.recordChatMessage c) = chats m ++ [c] := by
    simp [chats, Metrics.recordChatMessage, Metrics.publish, chatOf]
  have hshort : m.chatMessages.length ≤ defaultMaxChatMessages := by
    rw [h.ring, length_rtake]
    exact Nat.min_le_left _ _
  constructor
  · rw [outgoing, hchats, List.filter_append, ← h.out, outgoing]
    by_cases hc : c.direction = .outgoing <;> simp [hc]
  · calc (m.recordChatMessage c).chatMessages
        = push defaultMaxChatMessages m.chatMessages c := Sampler.ringAppend_eq_push (by decide) hshort
      _ = (chats (m.recordChatMessage c)).rtake defaultMaxChatMessages := by rw [h.ring, push_rtake, hchats]

theorem Log.goesOut (h : Log out m) {c : ChatMessage} (hc : c.direction = .outgoing) :
    Log (out ++ [c]) (m.recordChatMessage c) := by
  simpa [hc] using h.record c

theorem Log.comesIn (h : Log out m) {c : ChatMessage} (hc : c.direction = .incoming) :
    Log out (m.recordChatMessage c) := by
  simpa [hc] using h.record c

/-- Send, for a frame that is no text and for one that is -/
theorem send_log (pb : Codec) {c : Conn} (h : Log out c.metrics) (room : Bool) (payload : Bytes) :
    Log (out ++ if room then (extractChatMessageFromToRadio pb payload).toList.map (clientText c) else [])
      (c.send pb room payload).metrics := by
  unfold Conn.send
  cases room with
  | false => simpa using h
  | true =>
    have hrecorded : Log out (c.metrics.recordMessage (decodeToRadio pb payload)) := h.other rfl rfl rfl
    cases hchat : extractChatMessageFromToRadio pb payload with
    | none => simpa using hrecorded
    | some chat =>
      have hlog : Log (out ++ [clientText c chat]) _ := hrecorded.goesOut rfl
      exact hlog

theorem send_log_other {pb : Codec} {c : Conn} (h : Log out c.metrics) (room : Bool) {payload : Bytes}
    (hnone : extractChatMessageFromToRadio pb payload = none) : Log out (c.send pb room payload).metrics := by
  have hsend := send_log pb h room payload
  rw [hnone] at hsend
  simpa using hsend

/-- a frame from the node brings no outgoing message -/
theorem frame_log (hto : e.pb.ToRoundTrip) {c : Conn} (h : Log out c.metrics) (now : UInt32) (room : Bool)
    (payload : Bytes) : Log out (c.onFrame e.pb e.grow now room payload).metrics := by
  have hkept : KeptByCalls e.pb now payload (Log out) :=
    { position := fun m u hm _ => hm.other rfl rfl rfl
      telemetry := fun m u hm _ => hm.other rfl rfl rfl
      signal := fun m u hm _ => hm.other rfl rfl rfl
      chat := fun s chat hm _ => hm.comesIn rfl
      nodeInfo := fun m ni hm _ => hm.other rfl rfl rfl
      traceroute := fun m tr hm _ => hm.other rfl rfl rfl }
  have hupdates := hkept.onUpdates e.grow (s := c) (h.other rfl rfl rfl)
  unfold Conn.onFrame Conn.onConfig
  simp only
  split_ifs
  · unfold Conn.sendPostConfigHeartbeat
    split
    · exact hupdates.other rfl rfl rfl
    · rename_i data hm
      apply send_log_other
      · exact hupdates.other rfl rfl rfl
      · rw [extractChatMessageFromToRadio, hto _ _ hm]
  · exact hupdates

/-- of the handlers' packets only a text is one to Send -/
theorem extract_text (hto : e.pb.ToRoundTrip) {req : ChatSendRequest} {data : Bytes}
    (hm : e.pb.marshalToRadio { variant := .packet (textPacket req) } = some data) :
    extractChatMessageFromToRadio e.pb data =
      some { from_ := 0, to_ := destination req.to_, channel := req.channel, text := req.text, viaMqtt := false } := by
  rw [extractChatMessageFromToRadio, hto _ _ hm]
  rfl

theorem extract_action (hto : e.pb.ToRoundTrip) {target : UInt32} {portnum : ℤ} {p data : Bytes}
    (hmem : (portnum, some p) ∈ actions e)
    (hm : e.pb.marshalToRadio { variant := .packet (actionPacket target portnum p) } = some data) :
    extractChatMessageFromToRadio e.pb data = none := by
  have hport : portnum ≠ PortNum.textMessageApp := by
    rintro rfl
    simp [actions, PortNum.textMessageApp, PortNum.tracerouteApp, PortNum.positionApp, PortNum.nodeinfoApp,
      storeForwardApp] at hmem
  rw [extractChatMessageFromToRadio, hto _ _ hm]
  exact if_pos hport

theorem chatSend_log (hto : e.pb.ToRoundTrip) (h : Log out s.conn.metrics) (room : Bool) (nonce : UInt32) (r : Request) :
    Log (out ++ said e s (.post .chatSend room nonce r)) (handleAPIChatSend e room r s).1.conn.metrics := by
  simp only [said, handleAPIChatSend]
  cases hrequire : requireText e r with
  | error resp => simpa using h
  | ok req =>
    simp only [sendToRadio]
    cases hm : e.pb.marshalToRadio { variant := .packet (textPacket req) } with
    | none => simpa using h
    | some data =>
      have hsend := send_log e.pb h room data
      rw [extract_text hto hm] at hsend
      cases room with
      | false =>
        rw [if_neg Bool.false_ne_true, List.append_nil] at hsend
        have hdropped : Log out (s.sendToNode e false data).conn.metrics := hsend
        simpa using hdropped
      | true => exact hsend

/-- the other requests say nothing -/
theorem other_log (hto : e.pb.ToRoundTrip) (h : Log out s.conn.metrics) {ep : Endpoint} (hep : ep ≠ .chatSend)
    (room : Bool) (nonce : UInt32) (r : Request) : Log out (handle e room nonce r s ep).1.conn.metrics := by
  have hcases := handle_cases e room nonce r s ep
  generalize handle e room nonce r s ep = res at hcases
  cases hcases with
  | refused ep resp hstatus => exact h
  | sent ep pkt data hpkt hm =>
    obtain ⟨target, portnum, p, -, hmem, rfl⟩ := packetOf_action hep hpkt
    exact send_log_other h room (extract_action hto hmem hm)
  | favored req metrics hnum hset =>
    unfold Metrics.setFavorite at hset
    split at hset
    · cases hset
    · cases hset
      exact h.other rfl rfl rfl
  | refreshed =>
    show Log out (s.requestConfig e room nonce).conn.metrics
    unfold Server.requestConfig
    split
    · exact h
    · rename_i data hm
      apply send_log_other h
      rw [extractChatMessageFromToRadio, hto _ _ hm]

theorem step_log (hto : e.pb.ToRoundTrip) (h : Log out s.conn.metrics) (a : Act) :
    Log (out ++ said e s a) (step e s a).conn.metrics := by
  cases a with
  | node b =>
    cases b with
    | frame now room payload =>
      have hframe := frame_log hto h now room payload
      exact (List.append_nil out).symm ▸ hframe
    | send room payload => exact send_log e.pb h room payload
    | reconnect => exact (List.append_nil out).symm ▸ h
  | post ep room nonce r =>
    by_cases hep : ep = .chatSend
    · subst hep
      exact chatSend_log hto h room nonce r
    · have hsaid : said e s (.post ep room nonce r) = [] := by
        cases ep <;> first | rfl | exact absurd rfl hep
      rw [hsaid, List.append_nil]
      exact other_log hto h hep room nonce r

theorem run_log (hto : e.pb.ToRoundTrip) (maxMessages : ℤ) (as : List Act) :
    Log (emitted (step e) (said e) (init maxMessages) as) (run (step e) (init maxMessages) as).conn.metrics := by
  induction as using List.reverseRecOn with
  | nil => exact ⟨rfl, by simp [init, Conn.new, Store.new, chats, List.rtake_nil]⟩
  | append_singleton as a ih =>
    rw [run_snoc, emitted_snoc]
    exact step_log hto ih a

end Chat

/-- **What is said comes back.** Requests, frames from the node and sends of clients come in any order, each after the one
before has been handled. Then the chat messages that were published as outgoing are, in order and once each, the texts that
were queued for the node: those the dashboard posted,
with the text, the channel and the destination of the request and the node itself as the sender, and those of clients; and
the history shows the last 500 of all chat messages. -/
theorem texts_come_back (e : Env) (hto : e.pb.ToRoundTrip) (maxMessages : ℤ) (as : List Act) :
    let s := run (step e) (init maxMessages) as
    outgoing s.conn.metrics = emitted (step e) (said e) (init maxMessages) as ∧
    s.conn.metrics.chatMessages = (chats s.conn.metrics).rtake defaultMaxChatMessages := by
  have hlog := run_log hto maxMessages as
  exact ⟨hlog.out, hlog.ring⟩

/-! ### A text and a position request -/

def hello : ChatSendRequest := ⟨[0x68, 0x69], 0, 0⟩

/-- every chat body is hello, every node action is for node 7 -/
def demoEnv : Env where
  pb := tableCodec [] [([1], { variant := .packet (textPacket hello) }),
    ([2], { variant := .packet (actionPacket 7 PortNum.positionApp []) })] []
  grow := id
  json := ⟨fun _ _ => .ok 7, fun _ _ => .ok hello, fun _ _ => .error "unexpected end of JSON input"⟩
  chatSupport := true
  configRefresh := true
  routeDiscovery := some []
  storeAndForward := none

theorem demoEnv_roundTrip : demoEnv.pb.ToRoundTrip := tableCodec_toRoundTrip _ _ _ (by decide)

/-- a text, a GET, a position request and a favourite without a body -/
def demoRequests : List Act :=
  [.post .chatSend true 0 ⟨"POST", []⟩, .post .chatSend true 0 ⟨"GET", []⟩, .post .requestPosition true 0 ⟨"POST", []⟩,
    .post .favorite true 0 ⟨"POST", []⟩]

theorem requests_bounded_demo :
    decoded demoEnv (run (step demoEnv) (init 0) demoRequests) =
      [some ⟨.packet (textPacket hello), []⟩, some ⟨.packet (actionPacket 7 PortNum.positionApp []), []⟩] :=
  (requests_bounded demoEnv demoEnv_roundTrip 0 demoRequests).1.trans (by rfl)

theorem texts_come_back_demo :
    outgoing (run (step demoEnv) (init 0) demoRequests).conn.metrics = [shownText (.new 0) hello] :=
  (texts_come_back demoEnv demoEnv_roundTrip 0 demoRequests).1.trans (by rfl)

end MeshProxy.Api
