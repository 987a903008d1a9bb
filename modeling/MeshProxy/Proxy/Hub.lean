/-
Text messages through the hub (`internal/proxy`: broadcastLoop, the onMessage handler of handleNewConnection, the client
map, the chat cache and replayCachedConfig side by side).

One action is one step of one party. broadcastLoop receives a frame, caches it, broadcasts it; the handler of a client
receives a frame, echoes it to the others, caches it, sends it to the node; a client is registered, asks for its config
and is answered by the program of ConfigReplay, which reads the chat cache when it gets there. A broadcast runs under the
read lock and a registration under the write lock, so each is one step. The send channels never fill here: what is put
into them is kept for ever, since the messages this machine is about are those whose processing is complete, put into the
channel of a client that is not disconnected. Bounded channels, and a broadcast that does not return, are in HubTraffic.

Every frame that is being processed is a message with a number of its own (`Msg`), and what is put into a channel or the
chat cache for a message carries that number. The numbers are for the proof only, as are `stage` and `answered`.
What becomes of the text messages is in HubDelivery.
-/
import MeshProxy.Proxy.ConfigReplay

namespace MeshProxy.Hub

open MeshProxy.Proto MeshProxy.Decode MeshProxy.ChatCache MeshProxy.ConfigReplay MeshProxy.Trace
open MeshProxy.Frame (Bytes)

/-! ## The machine -/

/-- a frame being processed: from the node, or from a client's onMessage -/
structure Msg where
  id : ℕ
  sender : Option ℕ
  payload : Bytes
deriving DecidableEq, Repr

/-- where `broadcastLoop` stands -/
inductive Loop where
  | idle
  | received (m : Msg)
  | cached (m : Msg)
deriving DecidableEq, Repr

/-- where a client's onMessage handler stands -/
inductive Handler where
  | idle
  | received (m : Msg)
  | echoed (m : Msg)
  | cached (m : Msg)
deriving DecidableEq, Repr

/-- how far a client has got with the chat history -/
inductive Stage where
  | unread | reading | replayed
deriving DecidableEq, Repr

structure Client where
  joined : Bool := false
  registered : Bool := false
  handler : Handler := .idle
  requests : List UInt32 := []
  replay : Replay := .returned
  phase : UInt32 := 0
  put : List (Option ℕ × Bytes) := []
  nonce : UInt32 := 0
  tags : List ℕ := []
  stage : Stage := .unread
  answered : List UInt32 := []
deriving DecidableEq, Repr

structure State where
  loop : Loop
  client : ℕ → Client
  chat : List ChatEntry
  chatTags : List ℕ
  toNode : List Bytes
  fresh : ℕ
  completed : List Msg

/-- what the parties read -/
structure Env where
  pb : Codec
  opts : Opts
  cache : List Bytes

inductive Act where
  | loopReceive (f : Bytes)
  | loopCache
  | loopBroadcast
  | register (c : ℕ)
  | close (c : ℕ)
  | receive (c : ℕ) (f : Bytes)
  | echo (c : ℕ) (nodeNum now : UInt32)
  | cache (c : ℕ) (nodeNum now : UInt32)
  | forward (c : ℕ)
  | beginReplay (c : ℕ) (nonce : UInt32)
  | replay (c : ℕ)
deriving DecidableEq, Repr

def init : State := ⟨.idle, fun _ => {}, [], [], [], 0, []⟩

variable (e : Env)

namespace State

def setClient (c : ℕ) (cl : Client) (s : State) : State := { s with client := Function.update s.client c cl }

/-- `cacheTextMessage`; the numbers of dropped entries are dropped with them -/
def cacheText (m : Msg) (f : Bytes) (s : State) : State :=
  let chat := cacheTextMessage e.pb e.opts.maxChatCache s.chat f
  { s with chat := chat, chatTags := (s.chatTags ++ [m.id]).drop ((s.chatTags ++ [m.id]).length - chat.length) }

/-- `broadcast`, `broadcastToOthers`: into the channel of every registered client but the sender -/
def broadcast (m : Msg) (f : Bytes) (s : State) : State :=
  { s with
    client := fun c =>
      if (s.client c).registered = true ∧ some c ≠ m.sender then
        { s.client c with put := (s.client c).put ++ [(some m.id, f)] }
      else s.client c }

/-- `broadcastLoop` receives a frame; a config frame is suppressed -/
def loopReceive (f : Bytes) (s : State) : State :=
  match s.loop with
  | .idle => if isConfigFrame e.pb f then s else { s with loop := .received ⟨s.fresh, none, f⟩, fresh := s.fresh + 1 }
  | _ => s

def loopCache (s : State) : State :=
  match s.loop with
  | .received m =>
    if isTextMessageFrame e.pb m.payload then { s.cacheText e m m.payload with loop := .cached m }
    else
      match isRoutingACKFrame e.pb m.payload with
      | some packetID =>
        { s with chat := cacheACK e.opts.maxChatCache s.chat packetID m.payload, loop := .cached m }
      | none => { s with loop := .cached m }
  | _ => s

def loopBroadcast (s : State) : State :=
  match s.loop with
  | .cached m => { s.broadcast m m.payload with loop := .idle, completed := s.completed ++ [m] }
  | _ => s

/-- `handleNewConnection`, for a connection of its own each time -/
def register (c : ℕ) (s : State) : State :=
  if (s.client c).joined then s else s.setClient c { s.client c with joined := true, registered := true }

/-- `unregisterClient` -/
def close (c : ℕ) (s : State) : State := s.setClient c { s.client c with registered := false }

/-- onMessage is called: a want_config_id starts a replay, a disconnect closes the client, anything else is processed -/
def receive (c : ℕ) (f : Bytes) (s : State) : State :=
  if (s.client c).joined = true ∧ (s.client c).handler = .idle then
    match e.pb.unmarshalToRadio f with
    | some ⟨.wantConfigId nonce, _⟩ =>
      s.setClient c { s.client c with requests := (s.client c).requests ++ [nonce] }
    | some ⟨.disconnect _, _⟩ => s.close c
    | _ => { s with fresh := s.fresh + 1 }.setClient c { s.client c with handler := .received ⟨s.fresh, some c, f⟩ }
  else s

/-- `echoToOtherClients` -/
def echo (c : ℕ) (nodeNum now : UInt32) (s : State) : State :=
  match (s.client c).handler with
  | .received m =>
    let s := s.setClient c { s.client c with handler := .echoed m }
    match echoFrame e.pb nodeNum now m.payload with
    | some f => s.broadcast m f
    | none => s
  | _ => s

def cache (c : ℕ) (nodeNum now : UInt32) (s : State) : State :=
  match (s.client c).handler with
  | .echoed m =>
    let s := s.setClient c { s.client c with handler := .cached m }
    match toRadioToFromRadio e.pb nodeNum now m.payload with
    | some f => if isTextMessageFrame e.pb f then s.cacheText e m f else s
    | none => s
  | _ => s

/-- `nodeConn.Send` -/
def forward (c : ℕ) (s : State) : State :=
  match (s.client c).handler with
  | .cached m =>
    { s with toNode := s.toNode ++ [m.payload], completed := s.completed ++ [m] }.setClient c
      { s.client c with handler := .idle }
  | _ => s

/-- a replay takes replayMu -/
def beginReplay (c : ℕ) (nonce : UInt32) (s : State) : State :=
  if nonce ∈ (s.client c).requests ∧ (s.client c).replay = .returned then
    s.setClient c
      { s.client c with
        requests := (s.client c).requests.erase nonce
        replay := .start nonce
        nonce := nonce }
  else s

end State

/-- an internal step of the replay: at `chat` it has just copied the chat cache, at `returned` it is over -/
def Client.move (chatTags : List ℕ) (r : Replay) (phase : UInt32) (cl : Client) : Client :=
  match r with
  | .chat _ =>
    { cl with replay := r, phase := phase, tags := chatTags, stage := if cl.stage = .unread then .reading else cl.stage }
  | .returned =>
    { cl with
      replay := r
      phase := phase
      stage := if cl.stage = .reading then .replayed else cl.stage
      answered := cl.answered ++ [cl.nonce] }
  | _ => { cl with replay := r, phase := phase }

/-- a Send of the replay -/
def Client.send (f : Bytes) (r : Replay) (cl : Client) : Client :=
  match cl.replay with
  | .chat _ => { cl with replay := r, put := cl.put ++ [(cl.tags.head?, f)], tags := cl.tags.tail }
  | _ => { cl with replay := r, put := cl.put ++ [(none, f)] }

/-- `replayCachedConfig` -/
def State.replay (c : ℕ) (s : State) : State :=
  match (s.client c).replay.next e.pb e.opts e.cache s.chat (s.client c).phase with
  | .halt => s
  | .tau r phase => s.setClient c ((s.client c).move s.chatTags r phase)
  | .send f r => s.setClient c ((s.client c).send f r)

def step (s : State) : Act → State
  | .loopReceive f => s.loopReceive e f
  | .loopCache => s.loopCache e
  | .loopBroadcast => s.loopBroadcast
  | .register c => s.register c
  | .close c => s.close c
  | .receive c f => s.receive e c f
  | .echo c nodeNum now => s.echo e c nodeNum now
  | .cache c nodeNum now => s.cache e c nodeNum now
  | .forward c => s.forward c
  | .beginReplay c nonce => s.beginReplay c nonce
  | .replay c => s.replay e c

/-! ## Messages and where they are -/

/-- the frames onMessage keeps from the node -/
def intercepted (pb : Codec) (payload : Bytes) : Bool :=
  match pb.unmarshalToRadio payload with
  | some ⟨.wantConfigId _, _⟩ => true
  | some ⟨.disconnect _, _⟩ => true
  | _ => false

/-- a client's packet with a text payload -/
def isTextPacket (pb : Codec) (payload : Bytes) : Bool :=
  match pb.unmarshalToRadio payload with
  | some ⟨.packet pkt, _⟩ =>
    match pkt.variant with
    | .decoded d => d.portnum = PortNum.textMessageApp
    | _ => false
  | _ => false

def Msg.isText (pb : Codec) (m : Msg) : Bool :=
  match m.sender with
  | none => isTextMessageFrame pb m.payload
  | some _ => isTextPacket pb m.payload

/-- the frames that stand for a message: a node's frame itself, or a client's packet as the hub passes it on -/
def FrameOf (pb : Codec) (m : Msg) (f : Bytes) : Prop :=
  match m.sender with
  | none => f = m.payload
  | some _ => ∃ nodeNum now, meshPacketFrame pb nodeNum now m.payload = some f

/-- the chat entries a replay has still to send -/
def todo : Replay → List ChatEntry
  | .chat es => es
  | .chatAck _ es => es
  | _ => []

def Client.pending (cl : Client) : List (ℕ × Bytes) := cl.tags.zip ((todo cl.replay).map ChatEntry.message)

def State.entries (s : State) : List (ℕ × Bytes) := s.chatTags.zip (s.chat.map ChatEntry.message)

/-- the message has been put into the client's channel -/
def Got (pb : Codec) (cl : Client) (m : Msg) : Prop := ∃ f, FrameOf pb m f ∧ (some m.id, f) ∈ cl.put

/-- the replay that is going on will put it there -/
def Awaits (pb : Codec) (cl : Client) (m : Msg) : Prop :=
  cl.stage = .reading ∧ ∃ f, FrameOf pb m f ∧ (m.id, f) ∈ cl.pending

def Cached (pb : Codec) (s : State) (m : Msg) : Prop := ∃ f, FrameOf pb m f ∧ (m.id, f) ∈ s.entries

/-- B has the message, or will have it from the chat history -/
def Safe (pb : Codec) (b : ℕ) (s : State) (m : Msg) : Prop :=
  Got pb (s.client b) m ∨ Awaits pb (s.client b) m ∨ ((s.client b).stage = .unread ∧ Cached pb s m)

/-! ## The conditions -/

/-- the step drops a chat entry -/
def Evicts (s : State) : Act → Prop
  | .loopCache =>
    match s.loop with
    | .received m => isTextMessageFrame e.pb m.payload = true ∧ e.opts.maxChatCache < ((s.chat.length + 1 : ℕ) : ℤ)
    | _ => False
  | .cache c nodeNum now =>
    match (s.client c).handler with
    | .echoed m =>
      match toRadioToFromRadio e.pb nodeNum now m.payload with
      | some f => isTextMessageFrame e.pb f = true ∧ e.opts.maxChatCache < ((s.chat.length + 1 : ℕ) : ℤ)
      | none => False
    | _ => False
  | _ => False

/-- no chat entry is dropped, and B is not disconnected -/
def Proviso (b : ℕ) (s : State) (a : Act) : Prop :=
  ¬Evicts e s a ∧ ((s.client b).registered = true → ((step e s a).client b).registered = true)

/-- the step is the one in which B's replay copies the chat cache -/
def Snapshots (b : ℕ) (s : State) (a : Act) : Prop :=
  a = .replay b ∧
    match (s.client b).replay with
    | .config nonce [] => shouldReplayChat e.opts nonce (s.client b).phase = true
    | _ => False

instance (s : State) (a : Act) : Decidable (Evicts e s a) := by
  unfold Evicts
  repeat' split
  all_goals infer_instance

instance (b : ℕ) (s : State) (a : Act) : Decidable (Proviso e b s a) := inferInstanceAs (Decidable (_ ∧ _))

instance (b : ℕ) (s : State) (a : Act) : Decidable (Snapshots e b s a) := by
  unfold Snapshots
  split <;> infer_instance

/-- the condition: at B's snapshot no other client's text message has been echoed without B and is not yet cached -/
def NoEarlySnapshot (b : ℕ) (s : State) (a : Act) : Prop :=
  Snapshots e b s a → ∀ i ≠ b, ∀ m, (s.client i).handler = .echoed m → m.isText e.pb = true → Got e.pb (s.client b) m

end MeshProxy.Hub
