/-
The hub's chat cache and the frame tests around it (`internal/proxy/proxy.go`: cacheTextMessage, cacheACK,
chatCacheSnapshot, extractPacketID, isTextMessageFrame, isRoutingACKFrame, toRadioToFromRadio, echoToOtherClients).

The cache is a list of entries, oldest first. An entry is a FromRadio text message with its packet id and, once it has
arrived, the routing ACK. Only copies of the cache leave it, so a snapshot is the list itself. `echoToOtherClients` and
`toRadioToFromRadio` build the same frame from a client's packet (`meshPacketFrame`), each with its own reading of the
node number and the clock.

- `cacheTextMessage_append`: below the limit a message is appended;
- `cacheACK_messages`: an ACK never changes which messages are cached, or their order.
-/
import MeshProxy.Node.Decode

namespace MeshProxy.ChatCache

open MeshProxy.Proto MeshProxy.Decode
open MeshProxy.Frame (Bytes)

/-- `chatEntry` -/
structure ChatEntry where
  message : Bytes
  packetID : UInt32
  ack : Option Bytes
deriving DecidableEq, Repr

variable (pb : Codec)

/-! ## Frame tests -/

/-- `isTextMessageFrame` -/
def isTextMessageFrame (payload : Bytes) : Bool := (extractDecodedPacket pb payload PortNum.textMessageApp).isSome

/-- `extractPacketID` -/
def extractPacketID (payload : Bytes) : UInt32 :=
  match pb.unmarshalFromRadio payload with
  | some ⟨_, .packet pkt, _⟩ => pkt.id
  | _ => 0

/-- `isRoutingACKFrame`: the id of the acknowledged packet; a NACK is none -/
def isRoutingACKFrame (payload : Bytes) : Option UInt32 :=
  match extractDecodedPacket pb payload PortNum.routingApp with
  | none => none
  | some (_, d) =>
    if d.requestId = 0 then none
    else
      match pb.unmarshalRouting d.payload with
      | some (.errorReason e) => if e ≠ 0 then none else some d.requestId
      | _ => none

/-- the FromRadio frame of a client's packet: sender and receive time are filled in where the client left them 0 -/
def meshPacketFrame (nodeNum now : UInt32) (payload : Bytes) : Option Bytes :=
  match pb.unmarshalToRadio payload with
  | some ⟨.packet pkt, _⟩ =>
    let from_ := if pkt.from_ = 0 ∧ nodeNum ≠ 0 then nodeNum else pkt.from_
    let rxTime := if pkt.rxTime = 0 then now else pkt.rxTime
    pb.marshalFromRadio { variant := .packet { pkt with from_ := from_, rxTime := rxTime } }
  | _ => none

/-- the frame `echoToOtherClients` broadcasts -/
def echoFrame (nodeNum now : UInt32) (payload : Bytes) : Option Bytes := meshPacketFrame pb nodeNum now payload

/-- `toRadioToFromRadio` -/
def toRadioToFromRadio (nodeNum now : UInt32) (payload : Bytes) : Option Bytes := meshPacketFrame pb nodeNum now payload

/-! ## The cache -/

/-- `cacheTextMessage`: beyond the limit the oldest entries are dropped -/
def cacheTextMessage (maxChatCache : ℤ) (cache : List ChatEntry) (payload : Bytes) : List ChatEntry :=
  if maxChatCache ≤ 0 then cache
  else
    let cache := cache ++ [⟨payload, extractPacketID pb payload, none⟩]
    if (cache.length : ℤ) > maxChatCache then cache.drop (cache.length - maxChatCache.toNat) else cache

/-- the search of `cacheACK`, over the entries newest first -/
def ackNewest (packetID : UInt32) (payload : Bytes) : List ChatEntry → List ChatEntry
  | [] => []
  | e :: es =>
    if e.packetID = packetID ∧ e.ack = none then { e with ack := some payload } :: es
    else e :: ackNewest packetID payload es

/-- `cacheACK` -/
def cacheACK (maxChatCache : ℤ) (cache : List ChatEntry) (packetID : UInt32) (payload : Bytes) : List ChatEntry :=
  if maxChatCache ≤ 0 ∨ packetID = 0 then cache else (ackNewest packetID payload cache.reverse).reverse

theorem cacheTextMessage_append {maxChatCache : ℤ} {cache : List ChatEntry} {payload : Bytes}
    (h : ((cache.length + 1 : ℕ) : ℤ) ≤ maxChatCache) :
    cacheTextMessage pb maxChatCache cache payload = cache ++ [⟨payload, extractPacketID pb payload, none⟩] := by
  have hpos : ¬ maxChatCache ≤ 0 := by
    have : (0 : ℤ) < ((cache.length + 1 : ℕ) : ℤ) := by positivity
    exact not_le.2 (lt_of_lt_of_le this h)
  unfold cacheTextMessage
  rw [if_neg hpos]
  simp only [List.length_append, List.length_singleton]
  rw [if_neg (not_lt.2 h)]

theorem ackNewest_messages (packetID : UInt32) (payload : Bytes) (es : List ChatEntry) :
    (ackNewest packetID payload es).map ChatEntry.message = es.map ChatEntry.message := by
  induction es with
  | nil => rfl
  | cons e es ih =>
    unfold ackNewest
    split_ifs
    · rfl
    · rw [List.map_cons, ih, List.map_cons]

/-- an ACK changes neither the cached messages nor their order -/
theorem cacheACK_messages (maxChatCache : ℤ) (cache : List ChatEntry) (packetID : UInt32) (payload : Bytes) :
    (cacheACK maxChatCache cache packetID payload).map ChatEntry.message = cache.map ChatEntry.message := by
  unfold cacheACK
  split_ifs
  · rfl
  · rw [List.map_reverse, ackNewest_messages, ← List.map_reverse, List.reverse_reverse]

/-! ### A text message -/

/-- "hi", with sender and receive time left to the hub -/
def textPacket : MeshPacket := { id := 7, variant := .decoded { portnum := 1, payload := [104, 105] } }

/-- its ToRadio frame -/
def textToRadio : Bytes := [0x0A, 13, 0x22, 6, 8, 1, 0x12, 2, 104, 105, 0x35, 7, 0, 0, 0]

/-- the frame the hub passes on, from node 9 at time 100 -/
def textFromRadio : Bytes :=
  [0x12, 23, 0x0D, 9, 0, 0, 0, 0x22, 6, 8, 1, 0x12, 2, 104, 105, 0x35, 7, 0, 0, 0, 0x3D, 100, 0, 0, 0]

end MeshProxy.ChatCache
