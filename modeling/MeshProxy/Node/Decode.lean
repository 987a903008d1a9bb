/-
Decoding what the node sends (`internal/node`: decode.go, extract.go), over a protobuf codec `pb`.

`decodeFromRadio` and `decodeToRadio` classify a payload and copy the packet's radio metadata into a message record. The
`extract` functions pull one kind of data out of a FromRadio payload, or nothing; each goes through
`extractDecodedPacket`, which accepts only a decoded packet on its port. `isConfigFrame` is the hub's classification
(`internal/proxy/proxy.go`); `typeName` and `decodeFromRadio` are the node's.

- `decodeFromRadio_type`: the type a payload is recorded under depends on its decoded variant alone;
- `extractNodeInfo_packet`: only a packet frame carries node identity.
-/
import MeshProxy.Proto.Messages
import MeshProxy.Metrics.Store

namespace MeshProxy.Decode

open MeshProxy.Proto MeshProxy.Store MeshProxy.Binary32
open MeshProxy.Frame (Bytes)

variable (pb : Codec)

/-! ## Message records -/

/-- `decodeMeshPacket`: radio metadata and port of a packet -/
def decodeMeshPacket (pkt : MeshPacket) (r : MessageRecord) : MessageRecord :=
  let r := { r with
    from_ := pkt.from_, to_ := pkt.to_, channel := pkt.channel, hopLimit := pkt.hopLimit, hopStart := pkt.hopStart,
    rxRssi := pkt.rxRssi, rxSnr := pkt.rxSnr, viaMqtt := pkt.viaMqtt, relayNode := pkt.relayNode }
  match pkt.variant with
  | .decoded d => { r with portNum := pb.portNumString d.portnum }
  | .encrypted _ => { r with portNum := "ENCRYPTED" }
  | .none => r

/-- the type `decodeFromRadio` records for a decoded variant -/
def variantType : Variant → TypeName
  | .packet _ => .packet
  | .myInfo _ _ => .myInfo
  | .nodeInfo _ => .nodeInfo
  | .config _ => .config
  | .logRecord _ => .logRecord
  | .configCompleteId _ => .configCompleteId
  | .rebooted _ => .rebooted
  | .moduleConfig _ => .moduleConfig
  | .channel _ => .channel
  | .queueStatus _ => .queueStatus
  | .metadata _ => .metadata
  | _ => .other

def decodeFromRadio (payload : Bytes) : MessageRecord :=
  let r : MessageRecord := { direction := .fromNode, type := .unknown, size := payload.length }
  match pb.unmarshalFromRadio payload with
  | none => r
  | some msg =>
    let r := { r with type := variantType msg.variant }
    match msg.variant with
    | .packet p => decodeMeshPacket pb p r
    | _ => r

def decodeToRadio (payload : Bytes) : MessageRecord :=
  let r : MessageRecord := { direction := .toNode, type := .unknown, size := payload.length }
  match pb.unmarshalToRadio payload with
  | none => r
  | some msg =>
    match msg.variant with
    | .packet p => decodeMeshPacket pb p { r with type := .packet }
    | .wantConfigId _ => { r with type := .wantConfigId }
    | .disconnect _ => { r with type := .disconnect }
    | .heartbeat _ => { r with type := .heartbeat }
    | _ => { r with type := .other }

/-- `FromRadioTypeName` -/
def fromRadioTypeName (msg : FromRadio) : TypeName :=
  match msg.variant with
  | .myInfo _ _ => .myInfo
  | .nodeInfo _ => .nodeInfo
  | .config _ => .config
  | .moduleConfig _ => .moduleConfig
  | .channel _ => .channel
  | .configCompleteId _ => .configCompleteId
  | .metadata _ => .metadata
  | .deviceuiConfig _ => .deviceuiConfig
  | .fileInfo _ => .fileInfo
  | .packet _ => .packet
  | .queueStatus _ => .queueStatus
  | .logRecord _ => .logRecord
  | .rebooted _ => .rebooted
  | _ => .unknown

/-- the variants that are configuration -/
def isConfigVariant : Variant → Bool
  | .myInfo _ _ | .nodeInfo _ | .config _ | .moduleConfig _ | .channel _ | .configCompleteId _ | .metadata _
  | .deviceuiConfig _ | .fileInfo _ => true
  | _ => false

/-- `isConfigFrame`: an unparseable payload is runtime traffic -/
def isConfigFrame (payload : Bytes) : Bool :=
  match pb.unmarshalFromRadio payload with
  | none => false
  | some msg => isConfigVariant msg.variant

/-- `extractMyNodeNum` -/
def extractMyNodeNum (payload : Bytes) : UInt32 :=
  match pb.unmarshalFromRadio payload with
  | some ⟨_, .myInfo num _, _⟩ => num
  | _ => 0

/-! ## Extractors -/

/-- `extractDecodedPacket` -/
def extractDecodedPacket (payload : Bytes) (portnum : ℤ) : Option (MeshPacket × Data) :=
  match pb.unmarshalFromRadio payload with
  | some ⟨_, .packet pkt, _⟩ =>
    match pkt.variant with
    | .decoded d => if d.portnum ≠ portnum then none else some (pkt, d)
    | _ => none
  | _ => none

def extractPosition (payload : Bytes) : Option PositionUpdate :=
  match extractDecodedPacket pb payload PortNum.positionApp with
  | none => none
  | some (pkt, data) =>
    match pb.unmarshalPosition data.payload with
    | none => none
    | some pos =>
      if pos.latitudeI = 0 ∧ pos.longitudeI = 0 then none
      else some {
        nodeNum := pkt.from_, latitude := pos.latitudeI, longitude := pos.longitudeI, altitude := pos.altitude,
        groundSpeed := pos.groundSpeed, groundTrack := pos.groundTrack, satsInView := pos.satsInView,
        positionTime := pos.time }

def extractSignal (payload : Bytes) : Option SignalUpdate :=
  match pb.unmarshalFromRadio payload with
  | some ⟨_, .packet pkt, _⟩ =>
    if pkt.from_ = 0 ∨ pkt.rxRssi = 0 then none
    else some { nodeNum := pkt.from_, rxRssi := pkt.rxRssi, rxSnr := pkt.rxSnr }
  | _ => none

def extractTelemetry (payload : Bytes) : Option TelemetryUpdate :=
  match extractDecodedPacket pb payload PortNum.telemetryApp with
  | none => none
  | some (pkt, data) =>
    match pb.unmarshalTelemetry data.payload with
    | some (.deviceMetrics dm) => some {
        nodeNum := pkt.from_, batteryLevel := dm.batteryLevel, voltage := dm.voltage,
        channelUtilization := dm.channelUtilization, airUtilTx := dm.airUtilTx, uptimeSeconds := dm.uptimeSeconds }
    | some (.environmentMetrics em) => some {
        nodeNum := pkt.from_, temperature := em.temperature, relativeHumidity := em.relativeHumidity,
        barometricPressure := em.barometricPressure }
    | some .other => none
    | none => none

/-- `NodeInfoData`: the identity a NODEINFO_APP broadcast carries, enums as strings -/
structure NodeInfoData where
  nodeNum : UInt32
  shortName : String
  longName : String
  userID : String
  hwModel : String
  role : String
  isLicensed : Bool
  publicKey : Bytes
  macaddr : Bytes
  isUnmessagable : Option Bool
deriving DecidableEq, Repr

def extractNodeInfo (payload : Bytes) : Option NodeInfoData :=
  match extractDecodedPacket pb payload PortNum.nodeinfoApp with
  | none => none
  | some (pkt, data) =>
    match pb.unmarshalUser data.payload with
    | none => none
    | some user =>
      if pkt.from_ = 0 then none
      else some {
        nodeNum := pkt.from_, shortName := user.shortName, longName := user.longName, userID := user.id,
        hwModel := pb.hwModelString user.hwModel, role := pb.roleString user.role, isLicensed := user.isLicensed,
        publicKey := user.publicKey, macaddr := user.macaddr, isUnmessagable := user.isUnmessagable }

def extractTraceroute (payload : Bytes) : Option TracerouteUpdate :=
  match extractDecodedPacket pb payload PortNum.tracerouteApp with
  | none => none
  | some (pkt, data) =>
    match pb.unmarshalRouteDiscovery data.payload with
    | none => none
    | some route => some {
        from_ := pkt.from_, to_ := pkt.to_, route := route.route, routeBack := route.routeBack,
        snrTowards := route.snrTowards, snrBack := route.snrBack }

/-- `ChatMessageData` -/
structure ChatMessageData where
  from_ : UInt32
  to_ : UInt32
  channel : UInt32
  text : Bytes
  viaMqtt : Bool
  rxRssi : ℤ := 0
  rxSnr : F32 := F32.zero
deriving DecidableEq, Repr

def extractChatMessage (payload : Bytes) : Option ChatMessageData :=
  match extractDecodedPacket pb payload PortNum.textMessageApp with
  | none => none
  | some (pkt, data) => some {
      from_ := pkt.from_, to_ := pkt.to_, channel := pkt.channel, text := data.payload, viaMqtt := pkt.viaMqtt,
      rxRssi := pkt.rxRssi, rxSnr := pkt.rxSnr }

def extractChatMessageFromToRadio (payload : Bytes) : Option ChatMessageData :=
  match pb.unmarshalToRadio payload with
  | some ⟨.packet pkt, _⟩ =>
    match pkt.variant with
    | .decoded d =>
      if d.portnum ≠ PortNum.textMessageApp then none
      else some { from_ := pkt.from_, to_ := pkt.to_, channel := pkt.channel, text := d.payload, viaMqtt := pkt.viaMqtt }
    | _ => none
  | _ => none

/-- the directory entry of a NodeInfo message -/
def nodeInfoEntry (ni : NodeInfo) : NodeEntry :=
  let entry : NodeEntry :=
    { snr := ni.snr, lastHeard := ni.lastHeard, hopsAway := ni.hopsAway, viaMqtt := ni.viaMqtt,
      isFavorite := ni.isFavorite, channel := ni.channel }
  let entry := match ni.user with
    | none => entry
    | some u => { entry with
        shortName := u.shortName, longName := u.longName, userID := u.id, hwModel := pb.hwModelString u.hwModel,
        role := pb.roleString u.role, isLicensed := u.isLicensed }
  let entry := match ni.position with
    | none => entry
    | some pos =>
      if pos.latitudeI ≠ 0 ∨ pos.longitudeI ≠ 0 then
        { entry with
          latitude := pos.latitudeI, longitude := pos.longitudeI, altitude := pos.altitude,
          satsInView := pos.satsInView, groundSpeed := pos.groundSpeed, groundTrack := pos.groundTrack,
          positionTime := pos.time }
      else entry
  match ni.deviceMetrics with
  | none => entry
  | some dm => { entry with
      batteryLevel := dm.batteryLevel, voltage := dm.voltage, channelUtilization := dm.channelUtilization,
      airUtilTx := dm.airUtilTx, uptimeSeconds := dm.uptimeSeconds }

/-- the NodeInfo of a frame that carries one -/
def nodeInfoOf (frame : Bytes) : Option NodeInfo :=
  match pb.unmarshalFromRadio frame with
  | some ⟨_, .nodeInfo ni, _⟩ => some ni
  | _ => none

/-- one round of `ExtractNodeDirectory`'s loop: node 0 is skipped, a later frame for a node replaces an earlier one -/
def directoryStep (dir : Directory) (frame : Bytes) : Directory :=
  match nodeInfoOf pb frame with
  | none => dir
  | some ni => if ni.num = 0 then dir else dir.set ni.num (nodeInfoEntry pb ni)

/-- `ExtractNodeDirectory` -/
def extractNodeDirectory (frames : List Bytes) : Directory := frames.foldl (directoryStep pb) .empty

/-! ## What the extractors agree on -/

theorem decodeMeshPacket_type (p : MeshPacket) (r : MessageRecord) : (decodeMeshPacket pb p r).type = r.type := by
  unfold decodeMeshPacket
  split <;> rfl

/-- the recorded type of a payload is decided by its variant -/
theorem decodeFromRadio_type (payload : Bytes) :
    (decodeFromRadio pb payload).type =
      match pb.unmarshalFromRadio payload with
      | none => .unknown
      | some msg => variantType msg.variant := by
  unfold decodeFromRadio
  cases pb.unmarshalFromRadio payload with
  | none => rfl
  | some msg =>
    simp only
    split
    · rename_i p hp; rw [decodeMeshPacket_type]
    · rfl

theorem extractDecodedPacket_some {payload : Bytes} {portnum : ℤ} {r : MeshPacket × Data}
    (h : extractDecodedPacket pb payload portnum = some r) :
    ∃ id rest, pb.unmarshalFromRadio payload = some ⟨id, .packet r.1, rest⟩ ∧ r.1.variant = .decoded r.2 ∧
      r.2.portnum = portnum := by
  unfold extractDecodedPacket at h
  split at h
  · rename_i id pkt rest hu
    split at h
    · rename_i d hd
      split_ifs at h with hp
      cases h
      exact ⟨id, rest, hu, hd, not_not.1 hp⟩
    · cases h
  · cases h

/-- only a packet frame carries the identity of a node -/
theorem extractNodeInfo_packet {payload : Bytes} {ni : NodeInfoData} (h : extractNodeInfo pb payload = some ni) :
    (decodeFromRadio pb payload).type = .packet := by
  unfold extractNodeInfo at h
  cases hp : extractDecodedPacket pb payload PortNum.nodeinfoApp with
  | none => rw [hp] at h; simp at h
  | some r =>
    obtain ⟨id, rest, hu, -, -⟩ := extractDecodedPacket_some pb hp
    rw [decodeFromRadio_type, hu]
    rfl

end MeshProxy.Decode
