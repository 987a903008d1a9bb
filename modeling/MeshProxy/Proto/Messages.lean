/-
The protobuf messages the proxy reads and builds, and the protobuf library as a parameter.

The message types are generated code outside the repository, so each is a record of the fields the program touches;
`rest` stands for everything else in the message (other fields, presence of optional scalars, unknown fields), which the
program only ever copies. Enumerations are open in proto3 and stay integers; a `float` is its bit pattern.

`Codec` is `proto.Unmarshal`, `proto.Marshal` and the enum name tables. The facts about it that proofs use are named:
- `Codec.RoundTrip`, `Codec.ToRoundTrip`: what was marshalled unmarshals to the same message;
- `Codec.NonceLaw`: a decoded `config_complete_id` message can be marshalled again under any nonce;
- `Codec.PacketLaw`: so can a client's packet, as a FromRadio message with any sender and receive time.
`tableCodec` is a codec on the wire bytes of given messages, with every `config_complete_id` frame in real varint form;
witnesses instantiate `Codec` with it.
-/
import MeshProxy.Core.Binary32
import MeshProxy.Core.Varint
import MeshProxy.Protocol.Frame

namespace MeshProxy.Proto

open MeshProxy.Binary32 MeshProxy.Varint
open MeshProxy.Frame (Bytes)

/-! ## Messages -/

structure Data where
  portnum : ℤ := 0
  payload : Bytes := []
  requestId : UInt32 := 0
  rest : Bytes := []
deriving DecidableEq, Repr

namespace PortNum

def textMessageApp : ℤ := 1
def positionApp : ℤ := 3
def nodeinfoApp : ℤ := 4
def routingApp : ℤ := 5
def telemetryApp : ℤ := 67
def tracerouteApp : ℤ := 70

end PortNum

/-- `MeshPacket.payload_variant` -/
inductive PacketVariant where
  | decoded (d : Data)
  | encrypted (b : Bytes)
  | none
deriving DecidableEq, Repr

structure MeshPacket where
  from_ : UInt32 := 0
  to_ : UInt32 := 0
  channel : UInt32 := 0
  id : UInt32 := 0
  rxTime : UInt32 := 0
  rxSnr : F32 := F32.zero
  rxRssi : ℤ := 0
  hopLimit : UInt32 := 0
  hopStart : UInt32 := 0
  viaMqtt : Bool := false
  relayNode : UInt32 := 0
  variant : PacketVariant := .none
  rest : Bytes := []
deriving DecidableEq, Repr

structure User where
  id : String := ""
  longName : String := ""
  shortName : String := ""
  macaddr : Bytes := []
  hwModel : ℤ := 0
  isLicensed : Bool := false
  role : ℤ := 0
  publicKey : Bytes := []
  isUnmessagable : Option Bool := none
  rest : Bytes := []
deriving DecidableEq, Repr

structure Position where
  latitudeI : ℤ := 0
  longitudeI : ℤ := 0
  altitude : ℤ := 0
  time : UInt32 := 0
  groundSpeed : UInt32 := 0
  groundTrack : UInt32 := 0
  satsInView : UInt32 := 0
  rest : Bytes := []
deriving DecidableEq, Repr

structure DeviceMetrics where
  batteryLevel : UInt32 := 0
  voltage : F32 := F32.zero
  channelUtilization : F32 := F32.zero
  airUtilTx : F32 := F32.zero
  uptimeSeconds : UInt32 := 0
  rest : Bytes := []
deriving DecidableEq, Repr

structure EnvironmentMetrics where
  temperature : F32 := F32.zero
  relativeHumidity : F32 := F32.zero
  barometricPressure : F32 := F32.zero
  rest : Bytes := []
deriving DecidableEq, Repr

/-- `Telemetry.variant`; power metrics and later variants are `other` -/
inductive Telemetry where
  | deviceMetrics (dm : DeviceMetrics)
  | environmentMetrics (em : EnvironmentMetrics)
  | other
deriving DecidableEq, Repr

structure NodeInfo where
  num : UInt32 := 0
  user : Option User := none
  position : Option Position := none
  snr : F32 := F32.zero
  lastHeard : UInt32 := 0
  deviceMetrics : Option DeviceMetrics := none
  channel : UInt32 := 0
  viaMqtt : Bool := false
  hopsAway : UInt32 := 0
  isFavorite : Bool := false
  rest : Bytes := []
deriving DecidableEq, Repr

/-- `Routing.variant` -/
inductive Routing where
  | routeRequest
  | routeReply
  | errorReason (e : ℤ)
  | none
deriving DecidableEq, Repr

structure RouteDiscovery where
  route : List UInt32 := []
  snrTowards : List ℤ := []
  routeBack : List UInt32 := []
  snrBack : List ℤ := []
deriving DecidableEq, Repr

/-- `FromRadio.payload_variant`; variants whose content the proxy never looks into carry their bytes -/
inductive Variant where
  | packet (p : MeshPacket)
  | myInfo (myNodeNum : UInt32) (rest : Bytes)
  | nodeInfo (ni : NodeInfo)
  | config (b : Bytes)
  | logRecord (b : Bytes)
  | configCompleteId (nonce : UInt32)
  | rebooted (b : Bool)
  | moduleConfig (b : Bytes)
  | channel (b : Bytes)
  | queueStatus (b : Bytes)
  | xmodemPacket (b : Bytes)
  | metadata (b : Bytes)
  | mqttClientProxyMessage (b : Bytes)
  | fileInfo (b : Bytes)
  | clientNotification (b : Bytes)
  | deviceuiConfig (b : Bytes)
  | none
deriving DecidableEq, Repr

structure FromRadio where
  id : UInt32 := 0
  variant : Variant := .none
  rest : Bytes := []
deriving DecidableEq, Repr

/-- `ToRadio.payload_variant` -/
inductive ToVariant where
  | packet (p : MeshPacket)
  | wantConfigId (nonce : UInt32)
  | disconnect (b : Bool)
  | xmodemPacket (b : Bytes)
  | mqttClientProxyMessage (b : Bytes)
  | heartbeat (b : Bytes)
  | none
deriving DecidableEq, Repr

structure ToRadio where
  variant : ToVariant := .none
  rest : Bytes := []
deriving DecidableEq, Repr

/-! ## The protobuf library -/

structure Codec where
  unmarshalFromRadio : Bytes → Option FromRadio
  marshalFromRadio : FromRadio → Option Bytes
  unmarshalToRadio : Bytes → Option ToRadio
  marshalToRadio : ToRadio → Option Bytes
  unmarshalUser : Bytes → Option User
  unmarshalPosition : Bytes → Option Position
  unmarshalTelemetry : Bytes → Option Telemetry
  unmarshalRouting : Bytes → Option Routing
  unmarshalRouteDiscovery : Bytes → Option RouteDiscovery
  /-- the enum `String` methods -/
  portNumString : ℤ → String
  hwModelString : ℤ → String
  roleString : ℤ → String
  /-- lookups in the generated `_value` maps, 0 for a name they do not hold -/
  hwModelValue : String → ℤ
  roleValue : String → ℤ

/-- `proto.Unmarshal` gives back what `proto.Marshal` encoded -/
def Codec.RoundTrip (pb : Codec) : Prop :=
  ∀ m b, pb.marshalFromRadio m = some b → pb.unmarshalFromRadio b = some m

def Codec.ToRoundTrip (pb : Codec) : Prop :=
  ∀ m b, pb.marshalToRadio m = some b → pb.unmarshalToRadio b = some m

/-- a decoded `config_complete_id` message with another nonce can be encoded, and decodes to itself -/
def Codec.NonceLaw (pb : Codec) : Prop :=
  ∀ raw m k n, pb.unmarshalFromRadio raw = some m → m.variant = .configCompleteId k →
    ∃ b, pb.marshalFromRadio { m with variant := .configCompleteId n } = some b ∧
      pb.unmarshalFromRadio b = some { m with variant := .configCompleteId n }

/-- a packet decoded from a client's frame can be encoded as a FromRadio message, and decodes to itself -/
def Codec.PacketLaw (pb : Codec) : Prop :=
  ∀ raw pkt rest sender rxTime, pb.unmarshalToRadio raw = some ⟨.packet pkt, rest⟩ →
    ∃ b, pb.marshalFromRadio { variant := .packet { pkt with from_ := sender, rxTime := rxTime } } = some b ∧
      pb.unmarshalFromRadio b = some { variant := .packet { pkt with from_ := sender, rxTime := rxTime } }

/-! ## A codec on given wire bytes -/

/-- field 7 of FromRadio, a varint -/
def configCompleteBytes (nonce : UInt32) : Bytes := 0x38 :: varint nonce.toNat

/-- the wire bytes of a FromRadio message: a `config_complete_id` in varint form, any other by the table -/
def tableUnmarshal (table : List (Bytes × FromRadio)) : Bytes → Option FromRadio
  | 0x38 :: bs =>
    match decodeVarint bs with
    | some (n, []) => some { variant := .configCompleteId (UInt32.ofNat n) }
    | _ => none
  | b => table.lookup b

def tableMarshal (table : List (Bytes × FromRadio)) (m : FromRadio) : Option Bytes :=
  match m.variant with
  | .configCompleteId n => if m = { variant := .configCompleteId n } then some (configCompleteBytes n) else none
  | _ => (table.find? fun e => e.2 = m).map Prod.fst

/-- a codec that knows the given frames and telemetry payloads, and empty submessages -/
def tableCodec (fromRadio : List (Bytes × FromRadio)) (toRadio : List (Bytes × ToRadio))
    (telemetry : List (Bytes × Telemetry)) : Codec where
  unmarshalFromRadio := tableUnmarshal fromRadio
  marshalFromRadio := tableMarshal fromRadio
  unmarshalToRadio := fun b => toRadio.lookup b
  marshalToRadio := fun m => (toRadio.find? fun e => e.2 = m).map Prod.fst
  unmarshalUser := fun b => if b = [] then some {} else none
  unmarshalPosition := fun b => if b = [] then some {} else none
  unmarshalTelemetry := fun b => telemetry.lookup b
  unmarshalRouting := fun b => if b = [] then some .none else none
  unmarshalRouteDiscovery := fun b => if b = [] then some {} else none
  portNumString := fun n => toString n
  hwModelString := fun n => if n = 0 then "UNSET" else toString n
  roleString := fun n => if n = 0 then "CLIENT" else toString n
  hwModelValue := fun _ => 0
  roleValue := fun _ => 0

theorem tableUnmarshal_configComplete (table : List (Bytes × FromRadio)) (n : UInt32) :
    tableUnmarshal table (configCompleteBytes n) = some { variant := .configCompleteId n } := by
  have h := decodeVarint_varint n.toNat (lt_trans n.toNat_lt (by norm_num)) []
  rw [List.append_nil] at h
  simp [tableUnmarshal, configCompleteBytes, h]

/-- the table codec decodes what it encoded as soon as its table gives each of its frames one meaning -/
theorem tableCodec_roundTrip (fr : List (Bytes × FromRadio)) (tr : List (Bytes × ToRadio))
    (tel : List (Bytes × Telemetry)) (h : ∀ e ∈ fr, tableUnmarshal fr e.1 = some e.2) :
    (tableCodec fr tr tel).RoundTrip := by
  intro m b hb
  simp only [tableCodec, tableMarshal] at hb ⊢
  split at hb
  · rename_i n _
    split_ifs at hb with hm
    cases hb
    rw [hm, tableUnmarshal_configComplete]
  · obtain ⟨e, he, rfl⟩ := Option.map_eq_some_iff.1 hb
    have hm : e.2 = m := by simpa using List.find?_some he
    rw [h e (List.mem_of_find?_eq_some he), hm]

theorem tableCodec_toRoundTrip (fr : List (Bytes × FromRadio)) (tr : List (Bytes × ToRadio))
    (tel : List (Bytes × Telemetry)) (h : ∀ e ∈ tr, tr.lookup e.1 = some e.2) :
    (tableCodec fr tr tel).ToRoundTrip := by
  intro m b hb
  obtain ⟨e, he, rfl⟩ := Option.map_eq_some_iff.1 hb
  have hm : e.2 = m := by simpa using List.find?_some he
  rw [← hm]
  exact h e (List.mem_of_find?_eq_some he)

/-- the table codec obeys the nonce law as soon as its table lists no `config_complete_id` message of its own -/
theorem tableCodec_nonceLaw (fr : List (Bytes × FromRadio)) (tr : List (Bytes × ToRadio))
    (tel : List (Bytes × Telemetry)) (h : ∀ e ∈ fr, ∀ k, e.2.variant ≠ .configCompleteId k) :
    (tableCodec fr tr tel).NonceLaw := by
  intro raw m k n hraw hm
  have hbare : m = { variant := .configCompleteId k } := by
    simp only [tableCodec] at hraw
    unfold tableUnmarshal at hraw
    split at hraw
    · split at hraw
      · cases hraw; simp_all
      · cases hraw
    · obtain ⟨l₁, l₂, hfr, -⟩ := List.lookup_eq_some_iff.1 hraw
      exact absurd hm (h (raw, m) (by simp [hfr]) k)
  subst hbare
  exact ⟨configCompleteBytes n, by simp [tableCodec, tableMarshal], tableUnmarshal_configComplete fr n⟩

end MeshProxy.Proto
