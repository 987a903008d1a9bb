/-
The metrics store (`internal/metrics`: types.go, ring_buffer.go, metrics.go, node_directory.go).

State: the message log and the chat log (ring buffers), the node directory with its relay index, the traceroute history,
the cache-size gauge, and the events published to subscribers, oldest first. Each operation is the source's function on
that state; a clock reading is an argument (`now`). Timestamps, traffic samples and the rendered payload text of a
message record are left out: nothing modelled reads them.

A latitude or longitude is kept as the int32 numerator that the source divides by 1e7: the quotient is finite, and zero
exactly when the numerator is.

`json.Marshal` fails exactly on a non-finite float; `snapshotFloats`, `directoryFloats` and `chatFloats` are the floats
it meets in Snapshot, NodeDirectory and ChatMessages. `Finite` says that of the stored data, record by record:
- `serialisable_iff`: the two agree;
- `recordMessage_finite` and its siblings: what each operation needs of its argument to keep the store finite.
-/
import MeshProxy.Core.GoMap
import MeshProxy.Core.Binary32
import MeshProxy.Protocol.Frame

namespace MeshProxy.Store

open MeshProxy.Binary32
open MeshProxy.Frame (Bytes)

/-! ## Records -/

/-- the type names of decoded messages, one constructor for each string of the source -/
inductive TypeName where
  | packet | myInfo | nodeInfo | config | logRecord | configCompleteId | rebooted | moduleConfig | channel
  | queueStatus | metadata | deviceuiConfig | fileInfo | wantConfigId | disconnect | heartbeat | clientFrame
  | other | unknown | unparseable
deriving DecidableEq, Repr

inductive Direction where
  | fromNode | toNode | incoming | outgoing
deriving DecidableEq, Repr

structure MessageRecord where
  direction : Direction
  type : TypeName
  size : ℕ
  client : String := ""
  portNum : String := ""
  from_ : UInt32 := 0
  to_ : UInt32 := 0
  channel : UInt32 := 0
  hopLimit : UInt32 := 0
  hopStart : UInt32 := 0
  rxRssi : ℤ := 0
  rxSnr : F32 := F32.zero
  viaMqtt : Bool := false
  relayNode : UInt32 := 0
deriving DecidableEq, Repr

structure ChatMessage where
  from_ : UInt32
  to_ : UInt32
  channel : UInt32
  text : Bytes
  fromName : String
  toName : String
  direction : Direction
  viaMqtt : Bool
  rxRssi : ℤ
  rxSnr : F32
deriving DecidableEq, Repr

structure NodeEntry where
  shortName : String := ""
  longName : String := ""
  userID : String := ""
  hwModel : String := ""
  role : String := ""
  isLicensed : Bool := false
  snr : F32 := F32.zero
  lastHeard : UInt32 := 0
  hopsAway : UInt32 := 0
  viaMqtt : Bool := false
  isFavorite : Bool := false
  channel : UInt32 := 0
  latitude : ℤ := 0
  longitude : ℤ := 0
  altitude : ℤ := 0
  groundSpeed : UInt32 := 0
  groundTrack : UInt32 := 0
  satsInView : UInt32 := 0
  positionTime : UInt32 := 0
  batteryLevel : UInt32 := 0
  voltage : F32 := F32.zero
  channelUtilization : F32 := F32.zero
  airUtilTx : F32 := F32.zero
  uptimeSeconds : UInt32 := 0
  temperature : F32 := F32.zero
  relativeHumidity : F32 := F32.zero
  barometricPressure : F32 := F32.zero
  rxRssi : ℤ := 0
  rxSnr : F32 := F32.zero
  seenRealtime : Bool := false
deriving DecidableEq, Repr

structure PositionUpdate where
  nodeNum : UInt32
  shortName : String := ""
  longName : String := ""
  latitude : ℤ
  longitude : ℤ
  altitude : ℤ
  groundSpeed : UInt32
  groundTrack : UInt32
  satsInView : UInt32
  positionTime : UInt32
deriving DecidableEq, Repr

structure TelemetryUpdate where
  nodeNum : UInt32
  shortName : String := ""
  longName : String := ""
  batteryLevel : UInt32 := 0
  voltage : F32 := F32.zero
  channelUtilization : F32 := F32.zero
  airUtilTx : F32 := F32.zero
  uptimeSeconds : UInt32 := 0
  temperature : F32 := F32.zero
  relativeHumidity : F32 := F32.zero
  barometricPressure : F32 := F32.zero
deriving DecidableEq, Repr

structure SignalUpdate where
  nodeNum : UInt32
  shortName : String := ""
  longName : String := ""
  rxRssi : ℤ
  rxSnr : F32
deriving DecidableEq, Repr

structure NodeInfoUpdate where
  nodeNum : UInt32
  shortName : String
  longName : String
  userID : String
  hwModel : String
  role : String
  isLicensed : Bool
  isNew : Bool := false
deriving DecidableEq, Repr

structure TracerouteUpdate where
  from_ : UInt32
  to_ : UInt32
  route : List UInt32
  routeBack : List UInt32
  snrTowards : List ℤ
  snrBack : List ℤ
deriving DecidableEq, Repr

abbrev Directory := GoMap UInt32 NodeEntry

inductive Event where
  | message (r : MessageRecord)
  | chatMessage (c : ChatMessage)
  | nodeDirectory (dir : Directory)
  | nodePositionUpdate (u : PositionUpdate)
  | nodeTelemetryUpdate (u : TelemetryUpdate)
  | nodeSignalUpdate (u : SignalUpdate)
  | nodeUpdate (u : NodeInfoUpdate)
  | nodeFavorite (nodeNum : UInt32) (fav : Bool)
  | tracerouteResult (u : TracerouteUpdate)

structure Metrics where
  messages : List MessageRecord
  maxMessages : ℕ
  chatMessages : List ChatMessage
  traceHistory : List TracerouteUpdate
  nodeDir : Directory
  relayDir : UInt8 → List UInt32
  configCacheFrames : ℕ
  events : List Event

def defaultMaxMessages : ℕ := 100
def defaultMaxChatMessages : ℕ := 500
def defaultMaxTraceHistory : ℕ := 100

/-- `New` -/
def new (maxMessages : ℤ) : Metrics where
  messages := []
  maxMessages := if maxMessages ≤ 0 then defaultMaxMessages else maxMessages.toNat
  chatMessages := []
  traceHistory := []
  nodeDir := .empty
  relayDir := fun _ => []
  configCacheFrames := 0
  events := []

/-! ## Operations -/

/-- `ringAppend`: at the limit the oldest entry makes room -/
def ringAppend {T : Type} (buf : List T) (max : ℕ) (item : T) : List T :=
  (if max ≤ buf.length then buf.drop 1 else buf) ++ [item]

namespace Metrics

def publish (m : Metrics) (e : Event) : Metrics := { m with events := m.events ++ [e] }

def recordMessage (m : Metrics) (r : MessageRecord) : Metrics :=
  { m with messages := ringAppend m.messages m.maxMessages r }.publish (.message r)

def recordChatMessage (m : Metrics) (c : ChatMessage) : Metrics :=
  { m with chatMessages := ringAppend m.chatMessages defaultMaxChatMessages c }.publish (.chatMessage c)

def publishTraceroute (m : Metrics) (u : TracerouteUpdate) : Metrics :=
  { m with traceHistory := ringAppend m.traceHistory defaultMaxTraceHistory u }.publish (.tracerouteResult u)

def setConfigCacheUpdated (m : Metrics) (frames : ℕ) : Metrics := { m with configCacheFrames := frames }

/-- the relay key of a node: the last byte of its number -/
def relayKey (num : UInt32) : UInt8 := (num &&& 0xFF).toUInt8

/-- what a directory entry keeps from the one it replaces -/
def keepRuntime (old : Option NodeEntry) (e : NodeEntry) : NodeEntry :=
  match old with
  | none => e
  | some o => { e with seenRealtime := o.seenRealtime || e.seenRealtime, isFavorite := o.isFavorite || e.isFavorite }

def setNodeDirectory (m : Metrics) (dir : Directory) : Metrics :=
  let dir' := dir.mapVal fun num e => keepRuntime (m.nodeDir.get? num) e
  { m with nodeDir := dir', relayDir := fun key => dir.keys.filter fun num => relayKey num = key }.publish
    (.nodeDirectory dir')

/-- `updateNodeEntry`: the entry (a fresh one if there is none) marked as seen, then changed by `fn` -/
def updateNodeEntry (m : Metrics) (now : UInt32) (nodeNum : UInt32) (fn : NodeEntry → NodeEntry) : Metrics × NodeEntry :=
  let entry := fn { (m.nodeDir.get? nodeNum).getD {} with seenRealtime := true, lastHeard := now }
  ({ m with nodeDir := m.nodeDir.set nodeNum entry }, entry)

def applyPosition (u : PositionUpdate) (e : NodeEntry) : NodeEntry :=
  { e with
    latitude := u.latitude
    longitude := u.longitude
    altitude := u.altitude
    groundSpeed := if u.groundSpeed > 0 then u.groundSpeed else e.groundSpeed
    groundTrack := if u.groundTrack > 0 then u.groundTrack else e.groundTrack
    satsInView := if u.satsInView > 0 then u.satsInView else e.satsInView
    positionTime := if u.positionTime > 0 then u.positionTime else e.positionTime }

def updateNodePosition (m : Metrics) (now : UInt32) (u : PositionUpdate) : Metrics :=
  let (m', entry) := m.updateNodeEntry now u.nodeNum (applyPosition u)
  m'.publish (.nodePositionUpdate { u with shortName := entry.shortName, longName := entry.longName })

/-- device metrics are guarded by `> 0`, environment metrics by `!= 0` -/
def applyTelemetry (u : TelemetryUpdate) (e : NodeEntry) : NodeEntry :=
  { e with
    batteryLevel := if u.batteryLevel > 0 then u.batteryLevel else e.batteryLevel
    voltage := if u.voltage.gtZero then u.voltage else e.voltage
    channelUtilization := if u.channelUtilization.gtZero then u.channelUtilization else e.channelUtilization
    airUtilTx := if u.airUtilTx.gtZero then u.airUtilTx else e.airUtilTx
    uptimeSeconds := if u.uptimeSeconds > 0 then u.uptimeSeconds else e.uptimeSeconds
    temperature := if u.temperature.neZero then u.temperature else e.temperature
    relativeHumidity := if u.relativeHumidity.neZero then u.relativeHumidity else e.relativeHumidity
    barometricPressure := if u.barometricPressure.neZero then u.barometricPressure else e.barometricPressure }

def updateNodeTelemetry (m : Metrics) (now : UInt32) (u : TelemetryUpdate) : Metrics :=
  let (m', entry) := m.updateNodeEntry now u.nodeNum (applyTelemetry u)
  m'.publish (.nodeTelemetryUpdate { u with shortName := entry.shortName, longName := entry.longName })

def applySignal (u : SignalUpdate) (e : NodeEntry) : NodeEntry :=
  { e with
    rxRssi := if u.rxRssi ≠ 0 then u.rxRssi else e.rxRssi
    rxSnr := if u.rxSnr.neZero then u.rxSnr else e.rxSnr }

def updateNodeSignal (m : Metrics) (now : UInt32) (u : SignalUpdate) : Metrics :=
  let (m', entry) := m.updateNodeEntry now u.nodeNum (applySignal u)
  m'.publish (.nodeSignalUpdate { u with shortName := entry.shortName, longName := entry.longName })

/-- identity fields are taken over when not empty, the licence flag always -/
def applyNodeInfo (u : NodeInfoUpdate) (e : NodeEntry) : NodeEntry :=
  { e with
    shortName := if u.shortName ≠ "" then u.shortName else e.shortName
    longName := if u.longName ≠ "" then u.longName else e.longName
    userID := if u.userID ≠ "" then u.userID else e.userID
    hwModel := if u.hwModel ≠ "" then u.hwModel else e.hwModel
    role := if u.role ≠ "" then u.role else e.role
    isLicensed := u.isLicensed }

def upsertNode (m : Metrics) (now : UInt32) (u : NodeInfoUpdate) : Metrics :=
  let isNew := (m.nodeDir.get? u.nodeNum).isNone
  let m' := (m.updateNodeEntry now u.nodeNum (applyNodeInfo u)).1
  let key := relayKey u.nodeNum
  let relay := if isNew then Function.update m'.relayDir key (m'.relayDir key ++ [u.nodeNum]) else m'.relayDir
  { m' with relayDir := relay }.publish (.nodeUpdate { u with isNew := isNew })

def setFavorite (m : Metrics) (nodeNum : UInt32) (fav : Bool) : Metrics × Bool :=
  match m.nodeDir.get? nodeNum with
  | none => (m, false)
  | some entry =>
    ({ m with nodeDir := m.nodeDir.set nodeNum { entry with isFavorite := fav } }.publish (.nodeFavorite nodeNum fav),
      true)

end Metrics

/-! ## What the dashboard serialises -/

/-- the floats of a directory entry -/
def NodeEntry.floats (e : NodeEntry) : List F32 :=
  [e.snr, e.voltage, e.channelUtilization, e.airUtilTx, e.temperature, e.relativeHumidity, e.barometricPressure,
    e.rxSnr]

namespace Metrics

/-- floats in NodeDirectory -/
def directoryFloats (m : Metrics) : Set F32 := {x | ∃ n e, m.nodeDir.get? n = some e ∧ x ∈ e.floats}

/-- floats in Snapshot: the message log and the directory -/
def snapshotFloats (m : Metrics) : Set F32 := {x | ∃ r ∈ m.messages, x = r.rxSnr} ∪ m.directoryFloats

/-- floats in ChatMessages -/
def chatFloats (m : Metrics) : Set F32 := {x | ∃ c ∈ m.chatMessages, x = c.rxSnr}

/-- `json.Marshal` of a value with these floats succeeds -/
def MarshalOk (fs : Set F32) : Prop := ∀ x ∈ fs, x.isFinite = true

/-- everything the dashboard serialises can be serialised -/
structure Serialisable (m : Metrics) : Prop where
  snapshot : MarshalOk m.snapshotFloats
  directory : MarshalOk m.directoryFloats
  chat : MarshalOk m.chatFloats

end Metrics

/-! ## Operations that keep the store finite -/

def NodeEntry.Finite (e : NodeEntry) : Prop := ∀ x ∈ e.floats, x.isFinite = true

theorem nodeEntry_default_finite : ({} : NodeEntry).Finite := by
  intro x hx
  simp only [NodeEntry.floats, List.mem_cons, List.not_mem_nil, or_false, or_self] at hx
  rw [hx, F32.zero_isFinite]

theorem mem_ringAppend {T : Type} {buf : List T} {max : ℕ} {item x : T} (h : x ∈ ringAppend buf max item) :
    x ∈ buf ∨ x = item := by
  unfold ringAppend at h
  rcases List.mem_append.1 h with h | h
  · left
    split_ifs at h
    · exact List.mem_of_mem_drop h
    · exact h
  · exact Or.inr (List.mem_singleton.1 h)

/-- a guard `x > 0` keeps a finite value finite unless x is +∞ -/
theorem guardPos_finite {x y : F32} (hx : x ≠ .posInf) (hy : y.isFinite = true) :
    (if x.gtZero then x else y).isFinite = true := by
  split_ifs with hg
  · by_contra hf
    exact hx ((F32.gtZero_nonfinite (Bool.eq_false_iff.2 hf)).1 hg)
  · exact hy

/-- a guard `x != 0` only keeps a finite value finite when x is -/
theorem guardNe_finite {x y : F32} (hx : x.isFinite = true) (hy : y.isFinite = true) :
    (if x.neZero then x else y).isFinite = true := by
  split_ifs
  · exact hx
  · exact hy

namespace Metrics

structure Finite (m : Metrics) : Prop where
  messages : ∀ r ∈ m.messages, r.rxSnr.isFinite = true
  directory : ∀ n e, m.nodeDir.get? n = some e → e.Finite
  chat : ∀ c ∈ m.chatMessages, c.rxSnr.isFinite = true

theorem serialisable_iff {m : Metrics} : m.Serialisable ↔ m.Finite := by
  constructor
  · intro h
    refine ⟨fun r hr => ?_, fun n e he x hx => ?_, fun c hc => ?_⟩
    · exact h.snapshot _ (Or.inl ⟨r, hr, rfl⟩)
    · exact h.directory x ⟨n, e, he, hx⟩
    · exact h.chat _ ⟨c, hc, rfl⟩
  · intro h
    have hdir : MarshalOk m.directoryFloats := by
      rintro x ⟨n, e, he, hx⟩
      exact h.directory n e he x hx
    refine ⟨?_, hdir, ?_⟩
    · rintro x (⟨r, hr, rfl⟩ | hx)
      · exact h.messages r hr
      · exact hdir x hx
    · rintro x ⟨c, hc, rfl⟩
      exact h.chat c hc

variable {m : Metrics}

theorem new_finite (maxMessages : ℤ) : (new maxMessages).Finite := by
  refine ⟨?_, ?_, ?_⟩ <;> simp [new]

theorem publish_finite (h : m.Finite) (e : Event) : (m.publish e).Finite := ⟨h.messages, h.directory, h.chat⟩

theorem recordMessage_finite (h : m.Finite) {r : MessageRecord} (hr : r.rxSnr.isFinite = true) :
    (m.recordMessage r).Finite := by
  refine ⟨?_, h.directory, h.chat⟩
  intro r' hr'
  rcases mem_ringAppend hr' with hr' | rfl
  · exact h.messages r' hr'
  · exact hr

theorem recordChatMessage_finite (h : m.Finite) {c : ChatMessage} (hc : c.rxSnr.isFinite = true) :
    (m.recordChatMessage c).Finite := by
  refine ⟨h.messages, h.directory, ?_⟩
  intro c' hc'
  rcases mem_ringAppend hc' with hc' | rfl
  · exact h.chat c' hc'
  · exact hc

theorem publishTraceroute_finite (h : m.Finite) (u : TracerouteUpdate) : (m.publishTraceroute u).Finite :=
  ⟨h.messages, h.directory, h.chat⟩

theorem setConfigCacheUpdated_finite (h : m.Finite) (n : ℕ) : (m.setConfigCacheUpdated n).Finite :=
  ⟨h.messages, h.directory, h.chat⟩

theorem keepRuntime_floats (old : Option NodeEntry) (e : NodeEntry) : (keepRuntime old e).floats = e.floats := by
  cases old <;> rfl

theorem setNodeDirectory_finite (h : m.Finite) {dir : Directory} (hdir : ∀ n e, dir.get? n = some e → e.Finite) :
    (m.setNodeDirectory dir).Finite := by
  refine ⟨h.messages, ?_, h.chat⟩
  intro n e he
  obtain ⟨e', he', rfl⟩ := Option.map_eq_some_iff.1 he
  rw [NodeEntry.Finite, keepRuntime_floats]
  exact hdir n e' he'

theorem updateNodeEntry_finite (h : m.Finite) (now nodeNum : UInt32) {f : NodeEntry → NodeEntry}
    (hf : ∀ e, e.Finite → (f e).Finite) : (m.updateNodeEntry now nodeNum f).1.Finite := by
  have hold : ((m.nodeDir.get? nodeNum).getD {}).Finite := by
    cases he : m.nodeDir.get? nodeNum with
    | none => exact nodeEntry_default_finite
    | some e => exact h.directory nodeNum e he
  refine ⟨h.messages, fun n e he => ?_, h.chat⟩
  simp only [updateNodeEntry, GoMap.get?_set] at he
  split_ifs at he
  · cases he
    exact hf _ hold
  · exact h.directory n e he

theorem updateNodePosition_finite (h : m.Finite) (now : UInt32) (u : PositionUpdate) :
    (m.updateNodePosition now u).Finite :=
  publish_finite (updateNodeEntry_finite (f := applyPosition u) h now u.nodeNum fun _ he => he) _

theorem upsertNode_finite (h : m.Finite) (now : UInt32) (u : NodeInfoUpdate) : (m.upsertNode now u).Finite := by
  have he := updateNodeEntry_finite (f := applyNodeInfo u) h now u.nodeNum fun _ he => he
  exact ⟨he.messages, he.directory, he.chat⟩

theorem updateNodeSignal_finite (h : m.Finite) (now : UInt32) {u : SignalUpdate} (hu : u.rxSnr.isFinite = true) :
    (m.updateNodeSignal now u).Finite := by
  refine publish_finite (updateNodeEntry_finite h now u.nodeNum ?_) _
  intro e he
  simp only [NodeEntry.Finite, NodeEntry.floats, List.forall_mem_cons, applySignal] at he ⊢
  obtain ⟨h1, h2, h3, h4, h5, h6, h7, h8, h9⟩ := he
  exact ⟨h1, h2, h3, h4, h5, h6, h7, guardNe_finite hu h8, h9⟩

/-- what a telemetry update may hold: +∞ is the only value that passes a `> 0` guard without being finite -/
structure TelemetryFinite (u : TelemetryUpdate) : Prop where
  voltage : u.voltage ≠ .posInf
  channelUtilization : u.channelUtilization ≠ .posInf
  airUtilTx : u.airUtilTx ≠ .posInf
  temperature : u.temperature.isFinite = true
  relativeHumidity : u.relativeHumidity.isFinite = true
  barometricPressure : u.barometricPressure.isFinite = true

theorem updateNodeTelemetry_finite (h : m.Finite) (now : UInt32) {u : TelemetryUpdate} (hu : TelemetryFinite u) :
    (m.updateNodeTelemetry now u).Finite := by
  refine publish_finite (updateNodeEntry_finite h now u.nodeNum ?_) _
  intro e he
  simp only [NodeEntry.Finite, NodeEntry.floats, List.forall_mem_cons, applyTelemetry] at he ⊢
  obtain ⟨h1, h2, h3, h4, h5, h6, h7, h8, h9⟩ := he
  exact ⟨h1, guardPos_finite hu.voltage h2, guardPos_finite hu.channelUtilization h3, guardPos_finite hu.airUtilTx h4,
    guardNe_finite hu.temperature h5, guardNe_finite hu.relativeHumidity h6, guardNe_finite hu.barometricPressure h7,
    h8, h9⟩

end Metrics

end MeshProxy.Store
