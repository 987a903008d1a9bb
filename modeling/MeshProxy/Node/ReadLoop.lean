/-
One round of `readLoop` in full (`internal/node/connection.go`): the message record, the position, telemetry, signal, chat,
identity and traceroute updates of the metrics store, and the config caching switch with the directory rebuild and the
post-config heartbeat. `send` is Connection.Send as far as the store sees it; whether the toNode channel has room is an
argument, and so is the clock.

- `onFrame_cache`: on the cache, a round is the cache's own step;
- `KeptByCalls.onUpdates`: what every store call of a round keeps, the updates of the round keep;
- `dashboard_serialisable`: in every run whose frames carry no float that the guards let through unchecked, everything
  the dashboard serialises is finite; such a float in a packet breaks that at once.
Premises: marshalled messages unmarshal to themselves (`RoundTrip`, `ToRoundTrip`).
-/
import MeshProxy.Node.ConfigCache
import MeshProxy.Metrics.Store

namespace MeshProxy.ReadLoop

open MeshProxy.Proto MeshProxy.Decode MeshProxy.ConfigCache MeshProxy.Store MeshProxy.Trace MeshProxy.GoSlice
open MeshProxy.Binary32
open MeshProxy.Frame (Bytes)

/-- what a connection's loops read and write besides the channels -/
structure Conn where
  cache : Cache
  metrics : Metrics

variable (pb : Codec) (grow : ℕ → ℕ)

namespace Conn

def new (maxMessages : ℤ) : Conn := ⟨.new, Store.new maxMessages⟩

/-- `shortName` of a directory node, empty if it has none -/
def shortNameOf (dir : Directory) (num : UInt32) : String := ((dir.get? num).map NodeEntry.shortName).getD ""

/-- `recordChatMessage` -/
def recordChatMessage (chat : ChatMessageData) (direction : Direction) (s : Conn) : Conn :=
  let dir := s.metrics.nodeDir
  let toName := if chat.to_ = 0xFFFFFFFF then "Broadcast" else shortNameOf dir chat.to_
  let msg : ChatMessage :=
    { from_ := chat.from_, to_ := chat.to_, channel := chat.channel, text := chat.text,
      fromName := shortNameOf dir chat.from_, toName := toName, direction := direction, viaMqtt := chat.viaMqtt,
      rxRssi := chat.rxRssi, rxSnr := chat.rxSnr }
  { s with metrics := s.metrics.recordChatMessage msg }

/-- `Send`: dropped without a trace when toNode is full -/
def send (room : Bool) (payload : Bytes) (s : Conn) : Conn :=
  if room then
    let s := { s with metrics := s.metrics.recordMessage (decodeToRadio pb payload) }
    match extractChatMessageFromToRadio pb payload with
    | none => s
    | some chat =>
      let from_ := if chat.from_ = 0 then s.cache.myNodeNum else chat.from_
      s.recordChatMessage { chat with from_ := from_ } .outgoing
  else s

/-- `sendPostConfigHeartbeat` -/
def sendPostConfigHeartbeat (room : Bool) (s : Conn) : Conn :=
  match pb.marshalToRadio { variant := .heartbeat [] } with
  | none => s
  | some payload => s.send pb room payload

def onRecord (payload : Bytes) (s : Conn) : Conn :=
  { s with metrics := s.metrics.recordMessage (decodeFromRadio pb payload) }

def onPosition (now : UInt32) (payload : Bytes) (s : Conn) : Conn :=
  match extractPosition pb payload with
  | none => s
  | some pos => { s with metrics := s.metrics.updateNodePosition now pos }

def onTelemetry (now : UInt32) (payload : Bytes) (s : Conn) : Conn :=
  match extractTelemetry pb payload with
  | none => s
  | some tel => { s with metrics := s.metrics.updateNodeTelemetry now tel }

def onSignal (now : UInt32) (payload : Bytes) (s : Conn) : Conn :=
  match extractSignal pb payload with
  | none => s
  | some sig => { s with metrics := s.metrics.updateNodeSignal now sig }

def onChat (payload : Bytes) (s : Conn) : Conn :=
  match extractChatMessage pb payload with
  | none => s
  | some chat => s.recordChatMessage chat .incoming

/-- the directory's view of a NODEINFO_APP broadcast -/
def nodeInfoUpdate (ni : NodeInfoData) : NodeInfoUpdate :=
  { nodeNum := ni.nodeNum, shortName := ni.shortName, longName := ni.longName, userID := ni.userID,
    hwModel := ni.hwModel, role := ni.role, isLicensed := ni.isLicensed }

def onNodeInfo (now : UInt32) (payload : Bytes) (s : Conn) : Conn :=
  match extractNodeInfo pb payload with
  | none => s
  | some ni =>
    { cache := s.cache.upsertCachedNodeInfo pb grow now ni, metrics := s.metrics.upsertNode now (nodeInfoUpdate ni) }

def onTraceroute (payload : Bytes) (s : Conn) : Conn :=
  match extractTraceroute pb payload with
  | none => s
  | some tr => { s with metrics := s.metrics.publishTraceroute tr }

/-- the config caching switch; the directory is rebuilt when a collection is published -/
def onConfig (room : Bool) (payload : Bytes) (s : Conn) : Conn :=
  let cache := s.cache.configSwitch pb grow payload
  if (decodeFromRadio pb payload).type = .configCompleteId ∧ s.cache.collectingConfig = true then
    let frames := cache.configFrames
    let metrics := (s.metrics.setConfigCacheUpdated frames.length).setNodeDirectory (extractNodeDirectory pb frames)
    sendPostConfigHeartbeat pb room { cache := cache, metrics := metrics }
  else { s with cache := cache }

/-- the updates of a round, in the source's order -/
def onUpdates (now : UInt32) (payload : Bytes) (s : Conn) : Conn :=
  s.onRecord pb payload |>.onPosition pb now payload |>.onTelemetry pb now payload |>.onSignal pb now payload
    |>.onChat pb payload |>.onNodeInfo pb grow now payload |>.onTraceroute pb payload

/-- one round of `readLoop`, up to the hand-over to the hub -/
def onFrame (now : UInt32) (room : Bool) (payload : Bytes) (s : Conn) : Conn :=
  (s.onUpdates pb grow now payload).onConfig pb grow room payload

end Conn

inductive Act where
  | frame (now : UInt32) (room : Bool) (payload : Bytes)
  | send (room : Bool) (payload : Bytes)
  | reconnect
deriving DecidableEq, Repr

def step (s : Conn) : Act → Conn
  | .frame now room payload => s.onFrame pb grow now room payload
  | .send room payload => s.send pb room payload
  | .reconnect => { s with cache := s.cache.connect }

/-! ## The cache's share of a round -/

section Cache

variable {s : Conn}

theorem send_cache (room : Bool) (payload : Bytes) : (s.send pb room payload).cache = s.cache := by
  unfold Conn.send
  split_ifs
  · simp only
    split <;> rfl
  · rfl

theorem sendPostConfigHeartbeat_cache (room : Bool) : (s.sendPostConfigHeartbeat pb room).cache = s.cache := by
  unfold Conn.sendPostConfigHeartbeat
  split
  · rfl
  · exact send_cache pb room _

theorem onConfig_cache (room : Bool) (payload : Bytes) :
    (s.onConfig pb grow room payload).cache = s.cache.configSwitch pb grow payload := by
  unfold Conn.onConfig
  simp only
  split_ifs
  · exact sendPostConfigHeartbeat_cache pb room
  · rfl

theorem onNodeInfo_cache (now : UInt32) (payload : Bytes) :
    (s.onNodeInfo pb grow now payload).cache = s.cache.onNodeInfo pb grow now payload := by
  unfold Conn.onNodeInfo Cache.onNodeInfo
  cases extractNodeInfo pb payload <;> rfl

theorem onPosition_cache (now : UInt32) (payload : Bytes) : (s.onPosition pb now payload).cache = s.cache := by
  unfold Conn.onPosition; split <;> rfl

theorem onTelemetry_cache (now : UInt32) (payload : Bytes) : (s.onTelemetry pb now payload).cache = s.cache := by
  unfold Conn.onTelemetry; split <;> rfl

theorem onSignal_cache (now : UInt32) (payload : Bytes) : (s.onSignal pb now payload).cache = s.cache := by
  unfold Conn.onSignal; split <;> rfl

theorem onChat_cache (payload : Bytes) : (s.onChat pb payload).cache = s.cache := by
  unfold Conn.onChat; split <;> rfl

theorem onTraceroute_cache (payload : Bytes) : (s.onTraceroute pb payload).cache = s.cache := by
  unfold Conn.onTraceroute; split <;> rfl

theorem onUpdates_cache (now : UInt32) (payload : Bytes) :
    (s.onUpdates pb grow now payload).cache = s.cache.onNodeInfo pb grow now payload := by
  unfold Conn.onUpdates
  rw [onTraceroute_cache, onNodeInfo_cache, onChat_cache, onSignal_cache, onTelemetry_cache, onPosition_cache]
  rfl

/-- on the cache, a round of `readLoop` is the cache's own step -/
theorem onFrame_cache (now : UInt32) (room : Bool) (payload : Bytes) :
    (s.onFrame pb grow now room payload).cache = s.cache.onFrame pb grow now payload := by
  rw [Conn.onFrame, onConfig_cache, onUpdates_cache, Cache.onFrame]

end Cache

/-! ## The store's share of a round -/

section Rules

variable {pb} {s : Conn} {payload : Bytes} {I : Metrics → Prop}

theorem onPosition_rule (h : I s.metrics) {now : UInt32}
    (hcall : ∀ u, extractPosition pb payload = some u → I (s.metrics.updateNodePosition now u)) :
    I (s.onPosition pb now payload).metrics := by
  unfold Conn.onPosition
  split
  · exact h
  · rename_i u hu
    exact hcall u hu

theorem onTelemetry_rule (h : I s.metrics) {now : UInt32}
    (hcall : ∀ u, extractTelemetry pb payload = some u → I (s.metrics.updateNodeTelemetry now u)) :
    I (s.onTelemetry pb now payload).metrics := by
  unfold Conn.onTelemetry
  split
  · exact h
  · rename_i u hu
    exact hcall u hu

theorem onSignal_rule (h : I s.metrics) {now : UInt32}
    (hcall : ∀ u, extractSignal pb payload = some u → I (s.metrics.updateNodeSignal now u)) :
    I (s.onSignal pb now payload).metrics := by
  unfold Conn.onSignal
  split
  · exact h
  · rename_i u hu
    exact hcall u hu

theorem onChat_rule (h : I s.metrics)
    (hcall : ∀ chat, extractChatMessage pb payload = some chat → I (s.recordChatMessage chat .incoming).metrics) :
    I (s.onChat pb payload).metrics := by
  unfold Conn.onChat
  split
  · exact h
  · rename_i chat hchat
    exact hcall chat hchat

theorem onNodeInfo_rule (h : I s.metrics) {now : UInt32}
    (hcall : ∀ ni, extractNodeInfo pb payload = some ni → I (s.metrics.upsertNode now (Conn.nodeInfoUpdate ni))) :
    I (s.onNodeInfo pb grow now payload).metrics := by
  unfold Conn.onNodeInfo
  split
  · exact h
  · rename_i ni hni
    exact hcall ni hni

theorem onTraceroute_rule (h : I s.metrics)
    (hcall : ∀ tr, extractTraceroute pb payload = some tr → I (s.metrics.publishTraceroute tr)) :
    I (s.onTraceroute pb payload).metrics := by
  unfold Conn.onTraceroute
  split
  · exact h
  · rename_i tr htr
    exact hcall tr htr

variable (pb) in
/-- every store call that a round makes for the frame after its record keeps `I` -/
structure KeptByCalls (now : UInt32) (payload : Bytes) (I : Metrics → Prop) : Prop where
  position : ∀ m u, I m → extractPosition pb payload = some u → I (m.updateNodePosition now u)
  telemetry : ∀ m u, I m → extractTelemetry pb payload = some u → I (m.updateNodeTelemetry now u)
  signal : ∀ m u, I m → extractSignal pb payload = some u → I (m.updateNodeSignal now u)
  chat : ∀ s chat, I s.metrics → extractChatMessage pb payload = some chat →
    I (Conn.recordChatMessage chat .incoming s).metrics
  nodeInfo : ∀ m ni, I m → extractNodeInfo pb payload = some ni → I (m.upsertNode now (Conn.nodeInfoUpdate ni))
  traceroute : ∀ m tr, I m → extractTraceroute pb payload = some tr → I (m.publishTraceroute tr)

/-- **The rule for the updates of a round.** -/
theorem KeptByCalls.onUpdates {now : UInt32} (hkept : KeptByCalls pb now payload I)
    (hrecord : I (s.onRecord pb payload).metrics) : I (s.onUpdates pb grow now payload).metrics := by
  unfold Conn.onUpdates
  have hposition := onPosition_rule hrecord fun u hu => hkept.position _ u hrecord hu
  have htelemetry := onTelemetry_rule hposition fun u hu => hkept.telemetry _ u hposition hu
  have hsignal := onSignal_rule htelemetry fun u hu => hkept.signal _ u htelemetry hu
  have hchat := onChat_rule hsignal fun chat hc => hkept.chat _ chat hsignal hc
  have hnodeInfo := onNodeInfo_rule grow hchat fun ni hni => hkept.nodeInfo _ ni hchat hni
  exact onTraceroute_rule hnodeInfo fun tr htr => hkept.traceroute _ tr hnodeInfo htr

end Rules

/-! ## Floats that reach the store -/

/-- the packet's signal-to-noise ratio is stored as it is: in the message log, the chat log and, unless zero, the
directory -/
def PacketFinite (payload : Bytes) : Prop :=
  ∀ id pkt rest, pb.unmarshalFromRadio payload = some ⟨id, .packet pkt, rest⟩ → pkt.rxSnr.isFinite = true

def ToPacketFinite (payload : Bytes) : Prop :=
  ∀ pkt rest, pb.unmarshalToRadio payload = some ⟨.packet pkt, rest⟩ → pkt.rxSnr.isFinite = true

def NodeInfoFinite (ni : NodeInfo) : Prop :=
  ni.snr.isFinite = true ∧ ∀ dm, ni.deviceMetrics = some dm →
    dm.voltage.isFinite = true ∧ dm.channelUtilization.isFinite = true ∧ dm.airUtilTx.isFinite = true

/-- the node info in the frame, unless it is for node 0, has finite floats -/
def FrameNodeFinite (frame : Bytes) : Prop := ∀ ni, nodeInfoOf pb frame = some ni → ni.num ≠ 0 → NodeInfoFinite ni

/-- what a frame must not carry, given whether a collection is open -/
structure FrameFinite (c : Cache) (payload : Bytes) : Prop where
  packet : PacketFinite pb payload
  telemetry : ∀ u, extractTelemetry pb payload = some u → Metrics.TelemetryFinite u
  nodeInfo : c.collectingConfig = true → FrameNodeFinite pb payload

/-- the run's condition, step by step -/
def StepFinite (s : Conn) : Act → Prop
  | .frame _ _ payload => FrameFinite pb s.cache payload
  | .send room payload => room = true → ToPacketFinite pb payload
  | .reconnect => True

section Decoders

variable {pb} {payload : Bytes}

theorem decodeMeshPacket_rxSnr (p : MeshPacket) (r : MessageRecord) : (decodeMeshPacket pb p r).rxSnr = p.rxSnr := by
  unfold decodeMeshPacket
  split <;> rfl

theorem decodeFromRadio_finite (h : PacketFinite pb payload) : (decodeFromRadio pb payload).rxSnr.isFinite = true := by
  unfold decodeFromRadio
  split
  · exact F32.zero_isFinite
  · rename_i msg hmsg
    obtain ⟨id, variant, rest⟩ := msg
    cases variant with
    | packet p =>
      simp only [decodeMeshPacket_rxSnr]
      exact h id p rest hmsg
    | _ => exact F32.zero_isFinite

theorem decodeToRadio_finite (h : ToPacketFinite pb payload) : (decodeToRadio pb payload).rxSnr.isFinite = true := by
  unfold decodeToRadio
  split
  · exact F32.zero_isFinite
  · rename_i msg hmsg
    obtain ⟨variant, rest⟩ := msg
    cases variant with
    | packet p =>
      simp only [decodeMeshPacket_rxSnr]
      exact h p rest hmsg
    | _ => exact F32.zero_isFinite

theorem extractSignal_finite (h : PacketFinite pb payload) {u : SignalUpdate} (hu : extractSignal pb payload = some u) :
    u.rxSnr.isFinite = true := by
  unfold extractSignal at hu
  split at hu
  · rename_i id pkt rest hmsg
    split_ifs at hu
    cases hu
    exact h id pkt rest hmsg
  · cases hu

theorem extractChatMessage_finite (h : PacketFinite pb payload) {chat : ChatMessageData}
    (hc : extractChatMessage pb payload = some chat) : chat.rxSnr.isFinite = true := by
  unfold extractChatMessage at hc
  split at hc
  · cases hc
  · rename_i pkt data hp
    obtain ⟨id, rest, hu, -, -⟩ := extractDecodedPacket_some pb hp
    cases hc
    exact h id pkt rest hu

theorem extractChatMessageFromToRadio_rxSnr {chat : ChatMessageData}
    (hc : extractChatMessageFromToRadio pb payload = some chat) : chat.rxSnr = F32.zero := by
  unfold extractChatMessageFromToRadio at hc
  split at hc
  · split at hc
    · split_ifs at hc
      cases hc
      rfl
    · cases hc
  · cases hc

/-- the floats of a rebuilt entry: identity and position hold none -/
theorem nodeInfoEntry_floats (ni : NodeInfo) :
    (nodeInfoEntry pb ni).floats =
      let dm := ni.deviceMetrics.getD {}
      [ni.snr, dm.voltage, dm.channelUtilization, dm.airUtilTx, F32.zero, F32.zero, F32.zero, F32.zero] := by
  unfold nodeInfoEntry
  cases ni.deviceMetrics <;> cases ni.user <;> cases ni.position <;> first | rfl | (simp only; split_ifs <;> rfl)

theorem nodeInfoEntry_finite_iff {ni : NodeInfo} : (nodeInfoEntry pb ni).Finite ↔ NodeInfoFinite ni := by
  unfold NodeEntry.Finite NodeInfoFinite
  rw [nodeInfoEntry_floats]
  cases ni.deviceMetrics <;> simp

theorem directoryStep_finite {dir : Directory} (h : ∀ n e, dir.get? n = some e → e.Finite) {frame : Bytes}
    (hf : FrameNodeFinite pb frame) : ∀ n e, (directoryStep pb dir frame).get? n = some e → e.Finite := by
  unfold directoryStep
  split
  · exact h
  · rename_i ni hni
    split_ifs with h0
    · exact h
    · intro n e he
      rw [GoMap.get?_set] at he
      split_ifs at he
      · cases he
        exact nodeInfoEntry_finite_iff.2 (hf ni hni h0)
      · exact h n e he

/-- a directory built from finite node infos is finite -/
theorem extractNodeDirectory_finite {frames : List Bytes} (h : ∀ f ∈ frames, FrameNodeFinite pb f) :
    ∀ n e, (extractNodeDirectory pb frames).get? n = some e → e.Finite := by
  unfold extractNodeDirectory
  have h0 : ∀ n e, (GoMap.empty : Directory).get? n = some e → e.Finite := by simp
  generalize (GoMap.empty : Directory) = dir at h0
  induction frames generalizing dir with
  | nil => exact h0
  | cons f fs ih =>
    apply ih (fun g hg => h g (List.mem_cons_of_mem f hg))
    exact directoryStep_finite h0 (h f List.mem_cons_self)

/-- built frames hold no float, merged frames keep those of the cached one -/
theorem upsertClosed_frameNodeFinite (hrt : pb.RoundTrip) : UpsertClosed pb (FrameNodeFinite pb) where
  build := by
    intro now ni f hf ni' hni' _
    simp only [nodeInfoOf, hrt _ _ hf, Option.some.injEq] at hni'
    rw [← hni']
    exact ⟨F32.zero_isFinite, by simp⟩
  merge := by
    intro now raw ni f hraw hf ni' hni' hnum
    unfold mergeNodeInfoUser at hf
    split at hf
    · rename_i id old rest hold
      simp only [nodeInfoOf, hrt _ _ hf, Option.some.injEq] at hni'
      have hfin := hraw old (by simp only [nodeInfoOf, hold])
      rw [← hni'] at hnum ⊢
      exact hfin hnum
    · cases hf

end Decoders

/-! ## The invariant -/

structure Inv (s : Conn) : Prop where
  metrics : s.metrics.Finite
  ok : s.cache.Ok
  nodes : s.cache.All (FrameNodeFinite pb)

theorem inv_new (maxMessages : ℤ) : Inv pb (.new maxMessages) where
  metrics := Metrics.new_finite maxMessages
  ok := new_ok
  nodes := ⟨by simp [Conn.new, Cache.configCache, Cache.new, read_nil],
    by simp [Conn.new, Cache.configFrames, Cache.new, read_nil]⟩

section Step

variable {pb} {s : Conn}

theorem recordChatMessage_finite (h : s.metrics.Finite) {chat : ChatMessageData} (hc : chat.rxSnr.isFinite = true)
    (direction : Direction) : (s.recordChatMessage chat direction).metrics.Finite :=
  Metrics.recordChatMessage_finite h hc

theorem send_finite (h : s.metrics.Finite) {room : Bool} {payload : Bytes}
    (hp : room = true → ToPacketFinite pb payload) : (s.send pb room payload).metrics.Finite := by
  unfold Conn.send
  split_ifs with hr
  · have h1 := Metrics.recordMessage_finite h (decodeToRadio_finite (hp hr))
    simp only
    split
    · exact h1
    · rename_i chat hchat
      apply recordChatMessage_finite h1
      change chat.rxSnr.isFinite = true
      rw [extractChatMessageFromToRadio_rxSnr hchat, F32.zero_isFinite]
  · exact h

theorem sendPostConfigHeartbeat_finite (hto : pb.ToRoundTrip) (h : s.metrics.Finite) (room : Bool) :
    (s.sendPostConfigHeartbeat pb room).metrics.Finite := by
  unfold Conn.sendPostConfigHeartbeat
  split
  · exact h
  · rename_i payload hm
    apply send_finite h
    intro _ pkt rest hu
    rw [hto _ _ hm] at hu
    cases hu

theorem onConfig_finite (hto : pb.ToRoundTrip) (h : s.metrics.Finite) (room : Bool) {payload : Bytes}
    (hdir : ∀ f ∈ (s.cache.configSwitch pb grow payload).configFrames, FrameNodeFinite pb f) :
    (s.onConfig pb grow room payload).metrics.Finite := by
  unfold Conn.onConfig
  simp only
  split_ifs
  · apply sendPostConfigHeartbeat_finite hto
    exact Metrics.setNodeDirectory_finite (Metrics.setConfigCacheUpdated_finite h _) (extractNodeDirectory_finite hdir)
  · exact h

theorem onUpdates_finite (h : s.metrics.Finite) (now : UInt32) {payload : Bytes} (hp : PacketFinite pb payload)
    (ht : ∀ u, extractTelemetry pb payload = some u → Metrics.TelemetryFinite u) :
    (s.onUpdates pb grow now payload).metrics.Finite := by
  have hkept : KeptByCalls pb now payload Metrics.Finite :=
    { position := fun m u hm _ => Metrics.updateNodePosition_finite hm now u
      telemetry := fun m u hm hu => Metrics.updateNodeTelemetry_finite hm now (ht u hu)
      signal := fun m u hm hu => Metrics.updateNodeSignal_finite hm now (extractSignal_finite hp hu)
      chat := fun s chat hm hchat => recordChatMessage_finite hm (extractChatMessage_finite hp hchat) .incoming
      nodeInfo := fun m ni hm _ => Metrics.upsertNode_finite hm now _
      traceroute := fun m tr hm _ => Metrics.publishTraceroute_finite hm tr }
  exact hkept.onUpdates grow (Metrics.recordMessage_finite h (decodeFromRadio_finite hp))

theorem nodeInfoOf_of_type {frame : Bytes} (h : (decodeFromRadio pb frame).type ≠ .nodeInfo) :
    nodeInfoOf pb frame = none := by
  rw [decodeFromRadio_type] at h
  unfold nodeInfoOf
  split
  · rename_i hm
    exact absurd (by rw [hm]; rfl) h
  · rfl

/-- a frame that is collected meets the node-info condition -/
theorem collected_finite {c : Cache} {payload : Bytes} (h : FrameFinite pb c payload) (hc : Collects pb c payload) :
    FrameNodeFinite pb payload := by
  rcases hc with ht | ht | hcol
  · intro ni hni
    rw [nodeInfoOf_of_type (by rw [ht]; decide)] at hni
    cases hni
  · intro ni hni
    rw [nodeInfoOf_of_type (by rw [ht]; decide)] at hni
    cases hni
  · exact h.nodeInfo hcol

theorem step_inv (hrt : pb.RoundTrip) (hto : pb.ToRoundTrip) {a : Act} (h : Inv pb s) (ha : StepFinite pb s a) :
    Inv pb (step pb grow s a) := by
  cases a with
  | frame now room payload =>
    have hok := ConfigCache.step_ok pb grow h.ok (.frame now payload)
    have hall : (s.cache.onFrame pb grow now payload).All (FrameNodeFinite pb) := by
      apply step_all grow (upsertClosed_frameNodeFinite hrt) h.ok h.nodes (.frame now payload)
      rintro now' payload' ⟨⟩ hc
      exact collected_finite ha hc
    refine ⟨?_, ?_, ?_⟩
    · apply onConfig_finite grow hto (onUpdates_finite grow h.metrics now ha.packet ha.telemetry)
      rw [onUpdates_cache]
      exact hall.frames
    · rw [step, onFrame_cache]; exact hok
    · rw [step, onFrame_cache]; exact hall
  | send room payload =>
    refine ⟨send_finite h.metrics ha, ?_, ?_⟩
    · rw [step, send_cache]; exact h.ok
    · rw [step, send_cache]; exact h.nodes
  | reconnect => exact ⟨h.metrics, connect_ok h.ok, connect_all h.nodes⟩

end Step

/-! ## A bad float is stored -/

section Breaks

variable {pb} {s : Conn} {payload : Bytes}

/-- only the frame that closes a collection makes the config switch touch the metrics -/
theorem onConfig_metrics (room : Bool) (ht : (decodeFromRadio pb payload).type ≠ .configCompleteId) :
    (s.onConfig pb grow room payload).metrics = s.metrics := by
  unfold Conn.onConfig
  simp only
  rw [if_neg (fun h => ht h.1)]

/-- after the record, the rest of a round leaves the message log alone -/
theorem onUpdates_messages (now : UInt32) :
    (s.onUpdates pb grow now payload).metrics.messages = (s.onRecord pb payload).metrics.messages := by
  have hkept : KeptByCalls pb now payload fun m => m.messages = (s.onRecord pb payload).metrics.messages :=
    { position := fun _ _ hm _ => hm
      telemetry := fun _ _ hm _ => hm
      signal := fun _ _ hm _ => hm
      chat := fun _ _ hm _ => hm
      nodeInfo := fun _ _ hm _ => hm
      traceroute := fun _ _ hm _ => hm }
  exact hkept.onUpdates grow rfl

theorem packet_type {id : UInt32} {pkt : MeshPacket} {rest : Bytes}
    (hu : pb.unmarshalFromRadio payload = some ⟨id, .packet pkt, rest⟩) : (decodeFromRadio pb payload).type = .packet := by
  rw [decodeFromRadio_type, hu]; rfl

/-- a packet whose signal-to-noise ratio is not finite breaks the message log at once -/
theorem packet_breaks (h : ¬ PacketFinite pb payload) (now : UInt32) (room : Bool) :
    ¬ (s.onFrame pb grow now room payload).metrics.Finite := by
  unfold PacketFinite at h
  push Not at h
  obtain ⟨id, pkt, rest, hu, hbad⟩ := h
  have hsnr : (decodeFromRadio pb payload).rxSnr = pkt.rxSnr := by
    simp only [decodeFromRadio, hu, decodeMeshPacket_rxSnr]
  intro hfin
  rw [Conn.onFrame, onConfig_metrics grow room (by rw [packet_type hu]; decide)] at hfin
  have hmem : decodeFromRadio pb payload ∈ (s.onUpdates pb grow now payload).metrics.messages := by
    rw [onUpdates_messages]
    exact List.mem_append_right _ (List.mem_singleton_self _)
  exact hbad (by rw [← hsnr]; exact hfin.messages _ hmem)

/-- the floats of an entry that signal and identity updates leave alone -/
def telemetryFloats (e : NodeEntry) : List F32 :=
  [e.voltage, e.channelUtilization, e.airUtilTx, e.temperature, e.relativeHumidity, e.barometricPressure]

/-- some directory entry holds a telemetry value that is not finite -/
def TelemetryBroken (m : Metrics) : Prop :=
  ∃ n e, m.nodeDir.get? n = some e ∧ ∃ x ∈ telemetryFloats e, x.isFinite = false

theorem TelemetryBroken.not_finite {m : Metrics} (h : TelemetryBroken m) : ¬ m.Finite := by
  obtain ⟨n, e, he, x, hx, hbad⟩ := h
  intro hfin
  have hmem : x ∈ e.floats := by
    simp only [telemetryFloats, NodeEntry.floats, List.mem_cons, List.not_mem_nil, or_false] at hx ⊢
    tauto
  rw [hfin.directory n e he x hmem] at hbad
  cases hbad

theorem updateNodeEntry_broken {m : Metrics} (h : TelemetryBroken m) (now nodeNum : UInt32) {f : NodeEntry → NodeEntry}
    (hf : ∀ e, telemetryFloats (f e) = telemetryFloats e) : TelemetryBroken (m.updateNodeEntry now nodeNum f).1 := by
  obtain ⟨n, e, he, hx⟩ := h
  by_cases hn : n = nodeNum
  · refine ⟨n, _, by simp only [Metrics.updateNodeEntry, GoMap.get?_set]; rw [if_pos hn], ?_⟩
    rw [hf, ← hn, he]
    exact hx
  · refine ⟨n, e, ?_, hx⟩
    simp only [Metrics.updateNodeEntry, GoMap.get?_set]
    rw [if_neg hn, he]

/-- a value that passes its guard without being finite ends up in the entry -/
theorem applyTelemetry_broken {u : TelemetryUpdate} (h : ¬ Metrics.TelemetryFinite u) (e : NodeEntry) :
    ∃ x ∈ telemetryFloats (Metrics.applyTelemetry u e), x.isFinite = false := by
  have hinf : F32.posInf.gtZero = true ∧ F32.posInf.isFinite = false := by decide
  by_contra hall
  push Not at hall
  simp only [telemetryFloats, Metrics.applyTelemetry, List.forall_mem_cons] at hall
  obtain ⟨h1, h2, h3, h4, h5, h6, -⟩ := hall
  apply h
  refine ⟨fun e => ?_, fun e => ?_, fun e => ?_, ?_, ?_, ?_⟩
  · rw [e, if_pos hinf.1] at h1; exact h1 hinf.2
  · rw [e, if_pos hinf.1] at h2; exact h2 hinf.2
  · rw [e, if_pos hinf.1] at h3; exact h3 hinf.2
  all_goals
    by_contra hbad
    have hbad := Bool.eq_false_iff.2 hbad
  · rw [if_pos (F32.neZero_nonfinite hbad)] at h4; exact h4 hbad
  · rw [if_pos (F32.neZero_nonfinite hbad)] at h5; exact h5 hbad
  · rw [if_pos (F32.neZero_nonfinite hbad)] at h6; exact h6 hbad

theorem updateNodeTelemetry_broken {u : TelemetryUpdate} (h : ¬ Metrics.TelemetryFinite u) (m : Metrics) (now : UInt32) :
    TelemetryBroken (m.updateNodeTelemetry now u) := by
  refine ⟨u.nodeNum, (m.updateNodeEntry now u.nodeNum (Metrics.applyTelemetry u)).2, ?_, applyTelemetry_broken h _⟩
  exact if_pos rfl

/-- a telemetry packet with such a value breaks the directory at once -/
theorem telemetry_breaks {u : TelemetryUpdate} (hu : extractTelemetry pb payload = some u)
    (h : ¬ Metrics.TelemetryFinite u) (now : UInt32) (room : Bool) :
    ¬ (s.onFrame pb grow now room payload).metrics.Finite := by
  have ht : (decodeFromRadio pb payload).type = .packet := by
    unfold extractTelemetry at hu
    split at hu
    · cases hu
    · rename_i pkt data hp
      obtain ⟨id, rest, hm, -, -⟩ := extractDecodedPacket_some pb hp
      exact packet_type hm
  rw [Conn.onFrame, onConfig_metrics grow room (by rw [ht]; decide)]
  apply TelemetryBroken.not_finite
  unfold Conn.onUpdates
  generalize (s.onRecord pb payload).onPosition pb now payload = s2
  have htelemetry : TelemetryBroken (s2.onTelemetry pb now payload).metrics := by
    unfold Conn.onTelemetry
    rw [hu]
    exact updateNodeTelemetry_broken h _ now
  have hsignal := onSignal_rule htelemetry fun sig (_ : extractSignal pb payload = some sig) =>
    updateNodeEntry_broken (f := Metrics.applySignal sig) htelemetry now sig.nodeNum fun _ => rfl
  have hchat := onChat_rule hsignal fun chat (_ : extractChatMessage pb payload = some chat) => hsignal
  have hnodeInfo := onNodeInfo_rule grow hchat fun ni (_ : extractNodeInfo pb payload = some ni) =>
    updateNodeEntry_broken (f := Metrics.applyNodeInfo (Conn.nodeInfoUpdate ni)) hchat now ni.nodeNum fun _ => rfl
  exact onTraceroute_rule hnodeInfo fun tr _ => hnodeInfo

theorem send_nodeDir (room : Bool) (payload : Bytes) : (s.send pb room payload).metrics.nodeDir = s.metrics.nodeDir := by
  unfold Conn.send
  split_ifs
  · simp only
    split <;> rfl
  · rfl

theorem sendPostConfigHeartbeat_nodeDir (room : Bool) :
    (s.sendPostConfigHeartbeat pb room).metrics.nodeDir = s.metrics.nodeDir := by
  unfold Conn.sendPostConfigHeartbeat
  split
  · rfl
  · exact send_nodeDir room _

theorem onFrame_collects (hcol : s.cache.collectingConfig = true) (ht : (decodeFromRadio pb payload).type = .nodeInfo)
    (now : UInt32) (room : Bool) :
    (s.onFrame pb grow now room payload).cache = s.cache.collect grow payload := by
  have hsame : s.cache.onNodeInfo pb grow now payload = s.cache := onNodeInfo_of_type pb grow (by rw [ht]; decide) now
  rw [onFrame_cache, Cache.onFrame, hsame, configSwitch_runtime pb grow (by rw [ht]; decide) (by rw [ht]; decide),
    if_pos hcol]

/-- closing a collection rebuilds the directory from the collected frames -/
theorem onFrame_publishes (hok : s.cache.Ok) (hcol : s.cache.collectingConfig = true)
    (ht : (decodeFromRadio pb payload).type = .configCompleteId) (now : UInt32) (room : Bool) :
    ∃ old : UInt32 → Option NodeEntry, (s.onFrame pb grow now room payload).metrics.nodeDir =
      (extractNodeDirectory pb (s.cache.configFrames ++ [payload])).mapVal fun n e => Metrics.keepRuntime (old n) e := by
  have hsame : (s.onUpdates pb grow now payload).cache = s.cache := by
    rw [onUpdates_cache]
    exact onNodeInfo_of_type pb grow (by rw [ht]; decide) now
  have hframes : (s.cache.configSwitch pb grow payload).configFrames = s.cache.configFrames ++ [payload] := by
    simp only [Cache.configSwitch, ht, Cache.completeCollection]
    have hcol' : (s.cache.collect grow payload).collectingConfig = true := hcol
    rw [if_pos hcol']
    exact read_append_self [] grow hok.frames payload
  refine ⟨(s.onUpdates pb grow now payload).metrics.nodeDir.get?, ?_⟩
  rw [Conn.onFrame, Conn.onConfig]
  simp only [hsame]
  rw [if_pos ⟨ht, hcol⟩, sendPostConfigHeartbeat_nodeDir, hframes]
  rfl

/-- a node info with a float that is not finite breaks the directory when its collection is closed -/
theorem nodeInfo_breaks (hok : s.cache.Ok) (hcol : s.cache.collectingConfig = true) {p q : Bytes}
    (hp : ¬ FrameNodeFinite pb p) (hq : (decodeFromRadio pb q).type = .configCompleteId) (now now' : UInt32)
    (room room' : Bool) :
    ¬ ((s.onFrame pb grow now room p).onFrame pb grow now' room' q).metrics.Finite := by
  unfold FrameNodeFinite at hp
  push Not at hp
  obtain ⟨ni, hni, hnum, hbad⟩ := hp
  have ht : (decodeFromRadio pb p).type = .nodeInfo := by
    by_contra ht
    rw [nodeInfoOf_of_type ht] at hni
    cases hni
  have hqn : nodeInfoOf pb q = none := nodeInfoOf_of_type (by rw [hq]; decide)
  have hcache := onFrame_collects grow hcol ht now room
  generalize s.onFrame pb grow now room p = s1 at hcache ⊢
  have hframes : s1.cache.configFrames = s.cache.configFrames ++ [p] := by
    rw [hcache]; exact read_append_self [] grow hok.frames p
  obtain ⟨old, hdir⟩ := onFrame_publishes grow (s := s1) (by rw [hcache]; exact collect_ok grow hok p)
    (by rw [hcache]; exact hcol) hq now' room'
  intro hfin
  have hget : ((s1.onFrame pb grow now' room' q).metrics.nodeDir).get? ni.num =
      some (Metrics.keepRuntime (old ni.num) (nodeInfoEntry pb ni)) := by
    rw [hdir, hframes]
    simp [extractNodeDirectory, directoryStep, hqn, hni, hnum, GoMap.get?_set]
  have hent := hfin.directory _ _ hget
  rw [NodeEntry.Finite, Metrics.keepRuntime_floats] at hent
  exact hbad (nodeInfoEntry_finite_iff.1 hent)

end Breaks

/-! ## Main result -/

/-- **The dashboard state is serialisable.** In every run of `readLoop` (over any number of connections, with any
messages sent to the node in between) whose steps carry no packet with a non-finite signal-to-noise ratio, no telemetry
with an infinity that passes `> 0` or a non-finite environment value, and no collected node info with a non-finite
float, `json.Marshal` of Snapshot, NodeDirectory and ChatMessages succeeds. A packet outside the condition makes it
fail at once, a collected node info as soon as its collection is closed. -/
theorem dashboard_serialisable (hrt : pb.RoundTrip) (hto : pb.ToRoundTrip) (maxMessages : ℤ) (as : List Act)
    (h : Along (step pb grow) (StepFinite pb) (.new maxMessages) as) :
    (run (step pb grow) (.new maxMessages) as).metrics.Serialisable ∧
    (∀ now room payload,
      (¬ PacketFinite pb payload ∨ ∃ u, extractTelemetry pb payload = some u ∧ ¬ Metrics.TelemetryFinite u) →
      ¬ (run (step pb grow) (.new maxMessages) (as ++ [.frame now room payload])).metrics.Serialisable) ∧
    ((run (step pb grow) (.new maxMessages) as).cache.collectingConfig = true → ∀ now room p now' room' q,
      ¬ FrameNodeFinite pb p → (decodeFromRadio pb q).type = .configCompleteId →
      ¬ (run (step pb grow) (.new maxMessages)
          (as ++ [.frame now room p, .frame now' room' q])).metrics.Serialisable) := by
  have hinv := run_inv (I := Inv pb) (fun _ _ hs ha => step_inv grow hrt hto hs ha) (inv_new pb maxMessages) h
  refine ⟨Metrics.serialisable_iff.2 hinv.metrics, ?_, ?_⟩
  · intro now room payload hbad hser
    rw [run_snoc, Metrics.serialisable_iff] at hser
    rcases hbad with hp | ⟨u, hu, ht⟩
    · exact packet_breaks grow hp now room hser
    · exact telemetry_breaks grow hu ht now room hser
  · intro hcol now room p now' room' q hp hq hser
    rw [run_append, Metrics.serialisable_iff] at hser
    exact nodeInfo_breaks grow hinv.ok hcol hp hq now now' room room' hser

/-! ### Voltages on the wire

A TELEMETRY_APP packet from node 1 whose device metrics hold one voltage, given by its little-endian bytes. -/

def telemetryPayload (v : Bytes) : Bytes := [0x12, 5, 0x15] ++ v

def voltageFrame (v : Bytes) : Bytes := [0x12, 0x12, 0x0D, 1, 0, 0, 0, 0x22, 0x0B, 8, 0x43, 0x12, 7] ++ telemetryPayload v

def voltageMsg (v : Bytes) : FromRadio :=
  { variant := .packet
      { from_ := 1, variant := .decoded { portnum := PortNum.telemetryApp, payload := telemetryPayload v } } }

def fourVolts : Bytes := [0, 0, 0x80, 0x40]
def nanVolts : Bytes := [0, 0, 0xC0, 0x7F]
def infVolts : Bytes := [0, 0, 0x80, 0x7F]

def heartbeatFrame : Bytes := [0x3A, 0]

def voltageCodec : Codec :=
  tableCodec
    [(voltageFrame fourVolts, voltageMsg fourVolts), (voltageFrame nanVolts, voltageMsg nanVolts),
      (voltageFrame infVolts, voltageMsg infVolts)]
    [(heartbeatFrame, { variant := .heartbeat [] })]
    [(telemetryPayload fourVolts, .deviceMetrics { voltage := ⟨0x40800000#32⟩ }),
      (telemetryPayload nanVolts, .deviceMetrics { voltage := .nan }),
      (telemetryPayload infVolts, .deviceMetrics { voltage := .posInf })]

theorem voltageFrame_finite {v : Bytes} {x : F32} (c : Cache)
    (hm : voltageCodec.unmarshalFromRadio (voltageFrame v) = some (voltageMsg v))
    (hu : extractTelemetry voltageCodec (voltageFrame v) = some { nodeNum := 1, voltage := x }) (hx : x ≠ .posInf) :
    FrameFinite voltageCodec c (voltageFrame v) where
  packet := by
    intro id pkt rest h
    rw [hm] at h
    cases h
    exact F32.zero_isFinite
  telemetry := by
    intro u h
    rw [hu] at h
    cases h
    have hz : F32.zero ≠ .posInf := by decide
    exact ⟨hx, hz, hz, F32.zero_isFinite, F32.zero_isFinite, F32.zero_isFinite⟩
  nodeInfo := by
    intro _ ni h
    simp only [nodeInfoOf, hm, voltageMsg] at h
    cases h

/-- a NaN voltage does no harm: it never passes `> 0` -/
theorem dashboard_serialisable_nan :
    (run (step voltageCodec doubling) (.new 0)
      [.frame 1 true (voltageFrame fourVolts), .frame 2 true (voltageFrame nanVolts)]).metrics.Serialisable := by
  refine (dashboard_serialisable voltageCodec doubling (tableCodec_roundTrip _ _ _ (by decide +kernel))
    (tableCodec_toRoundTrip _ _ _ (by decide +kernel)) 0
    [.frame 1 true (voltageFrame fourVolts), .frame 2 true (voltageFrame nanVolts)] ⟨?_, ?_, trivial⟩).1
  · exact voltageFrame_finite (x := ⟨0x40800000#32⟩) _ (by decide +kernel) (by decide +kernel) (by decide)
  · exact voltageFrame_finite (x := .nan) _ (by decide +kernel) (by decide +kernel) (by decide)

/-- one packet with an infinite voltage, and the snapshot can no longer be serialised -/
theorem dashboard_broken_by_infinite_voltage :
    ¬ (run (step voltageCodec doubling) (.new 0) [.frame 1 true (voltageFrame infVolts)]).metrics.Serialisable := by
  have hu : extractTelemetry voltageCodec (voltageFrame infVolts) = some { nodeNum := 1, voltage := .posInf } := by
    decide +kernel
  rw [Metrics.serialisable_iff]
  exact telemetry_breaks doubling hu (fun h => h.voltage rfl) 1 true

end MeshProxy.ReadLoop
