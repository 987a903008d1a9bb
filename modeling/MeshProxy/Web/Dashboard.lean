/-
The dashboard's copy of the node directory (`internal/web/templates/static/app.js`: the SSE handlers, updateMapNode,
updateNodeTelemetry, updateNodeSignal, updateNodeInfo; `internal/metrics/types.go`: the JSON tags).

The page holds a JavaScript object for each node; a field is present or not. The server's calls emit events; marshalled to
JSON, where omitempty leaves out a zero value, they reach the page, whose handlers repeat the update on the page's copy.
`Mirrors` compares the two through the JSON of the server's directory, an absent field read as its zero value, last_heard
left out (both sides take it from their own clock).

- `receive_mirrors`: one event keeps the mirror;
- `dashboard_mirrors_iff`: the mirror holds all along a run exactly when no telemetry update carries a negative device
  metric that the entry does not have already (the server asks for `> 0`, the page for a truthy value) and SetFavorite
  changes nothing for node number 0 (which the handler takes for a missing one).

A JSON number stands for the binary32 value it was printed from; node numbers are the keys of the object. The directory
that a page is served with and the metrics event that opens a stream, which also set `nodeDir`, are in Totality.
-/
import MeshProxy.Metrics.Directory

namespace MeshProxy.Dashboard

open MeshProxy.Binary32 MeshProxy.Store MeshProxy.Trace

/-! ## JSON fields -/

/-- the values omitempty leaves out, which are also the falsy ones of JavaScript (JSON has no NaN) -/
class JsonValue (α : Type) where
  zero : α
  isEmpty : α → Bool
  zero_isEmpty : isEmpty zero = true

instance : JsonValue String := ⟨"", fun s => s = "", by simp⟩
instance : JsonValue UInt32 := ⟨0, fun n => n = 0, by simp⟩
instance : JsonValue ℤ := ⟨0, fun n => n = 0, by simp⟩
instance : JsonValue Bool := ⟨false, fun b => !b, rfl⟩
instance : JsonValue F32 := ⟨F32.zero, F32.isZero, by decide⟩

section Fields

variable {α : Type} [JsonValue α]

open JsonValue

/-- a field with omitempty -/
def omitempty (x : α) : Option α := if isEmpty x then none else some x

/-- a field as a truth value -/
def truthy (x : Option α) : Bool := x.any fun v => !isEmpty v

/-- `if (x) y = x` -/
def assignIf (x y : Option α) : Option α := if truthy x then x else y

/-- `x || v` -/
def orElse (x : Option α) (v : α) : Option α := if truthy x then x else some v

/-- a field read with its zero value as the default -/
def readField (x : Option α) : α := x.getD zero

/-- a value after its way through a JSON field with omitempty; for a float, -0 becomes 0 -/
def norm (x : α) : α := readField (omitempty x)

end Fields

/-! ## Objects -/

/-- a node of the page's `nodeDir` -/
structure JsNode where
  shortName : Option String := none
  longName : Option String := none
  userID : Option String := none
  hwModel : Option String := none
  role : Option String := none
  isLicensed : Option Bool := none
  snr : Option F32 := none
  lastHeard : Option UInt32 := none
  hopsAway : Option UInt32 := none
  viaMqtt : Option Bool := none
  isFavorite : Option Bool := none
  channel : Option UInt32 := none
  latitude : Option ℤ := none
  longitude : Option ℤ := none
  altitude : Option ℤ := none
  groundSpeed : Option UInt32 := none
  groundTrack : Option UInt32 := none
  satsInView : Option UInt32 := none
  positionTime : Option UInt32 := none
  batteryLevel : Option UInt32 := none
  voltage : Option F32 := none
  channelUtilization : Option F32 := none
  airUtilTx : Option F32 := none
  uptimeSeconds : Option UInt32 := none
  temperature : Option F32 := none
  relativeHumidity : Option F32 := none
  barometricPressure : Option F32 := none
  rxRssi : Option ℤ := none
  rxSnr : Option F32 := none
  seenRealtime : Option Bool := none

/-- the JSON of a directory entry -/
def nodeJson (e : NodeEntry) : JsNode where
  shortName := some e.shortName
  longName := some e.longName
  userID := omitempty e.userID
  hwModel := omitempty e.hwModel
  role := omitempty e.role
  isLicensed := omitempty e.isLicensed
  snr := omitempty e.snr
  lastHeard := omitempty e.lastHeard
  hopsAway := omitempty e.hopsAway
  viaMqtt := omitempty e.viaMqtt
  isFavorite := omitempty e.isFavorite
  channel := omitempty e.channel
  latitude := omitempty e.latitude
  longitude := omitempty e.longitude
  altitude := omitempty e.altitude
  groundSpeed := omitempty e.groundSpeed
  groundTrack := omitempty e.groundTrack
  satsInView := omitempty e.satsInView
  positionTime := omitempty e.positionTime
  batteryLevel := omitempty e.batteryLevel
  voltage := omitempty e.voltage
  channelUtilization := omitempty e.channelUtilization
  airUtilTx := omitempty e.airUtilTx
  uptimeSeconds := omitempty e.uptimeSeconds
  temperature := omitempty e.temperature
  relativeHumidity := omitempty e.relativeHumidity
  barometricPressure := omitempty e.barometricPressure
  rxRssi := omitempty e.rxRssi
  rxSnr := omitempty e.rxSnr
  seenRealtime := some e.seenRealtime

/-- an object with each absent field read as its zero value, last_heard left out -/
def view (js : JsNode) : NodeEntry where
  shortName := readField js.shortName
  longName := readField js.longName
  userID := readField js.userID
  hwModel := readField js.hwModel
  role := readField js.role
  isLicensed := readField js.isLicensed
  snr := readField js.snr
  hopsAway := readField js.hopsAway
  viaMqtt := readField js.viaMqtt
  isFavorite := readField js.isFavorite
  channel := readField js.channel
  latitude := readField js.latitude
  longitude := readField js.longitude
  altitude := readField js.altitude
  groundSpeed := readField js.groundSpeed
  groundTrack := readField js.groundTrack
  satsInView := readField js.satsInView
  positionTime := readField js.positionTime
  batteryLevel := readField js.batteryLevel
  voltage := readField js.voltage
  channelUtilization := readField js.channelUtilization
  airUtilTx := readField js.airUtilTx
  uptimeSeconds := readField js.uptimeSeconds
  temperature := readField js.temperature
  relativeHumidity := readField js.relativeHumidity
  barometricPressure := readField js.barometricPressure
  rxRssi := readField js.rxRssi
  rxSnr := readField js.rxSnr
  seenRealtime := readField js.seenRealtime

structure JsPosition where
  nodeNum : UInt32
  shortName : Option String
  longName : Option String
  latitude : Option ℤ
  longitude : Option ℤ
  altitude : Option ℤ
  groundSpeed : Option UInt32
  groundTrack : Option UInt32
  satsInView : Option UInt32
  positionTime : Option UInt32

structure JsTelemetry where
  nodeNum : UInt32
  shortName : Option String
  longName : Option String
  batteryLevel : Option UInt32
  voltage : Option F32
  channelUtilization : Option F32
  airUtilTx : Option F32
  uptimeSeconds : Option UInt32
  temperature : Option F32
  relativeHumidity : Option F32
  barometricPressure : Option F32

structure JsSignal where
  nodeNum : UInt32
  shortName : Option String
  longName : Option String
  rxRssi : Option ℤ
  rxSnr : Option F32

structure JsInfo where
  nodeNum : UInt32
  shortName : Option String
  longName : Option String
  userID : Option String
  hwModel : Option String
  role : Option String
  isLicensed : Option Bool

/-- the JSON of the events that the page applies to its directory -/
def positionJson (u : PositionUpdate) : JsPosition where
  nodeNum := u.nodeNum
  shortName := some u.shortName
  longName := some u.longName
  latitude := some u.latitude
  longitude := some u.longitude
  altitude := some u.altitude
  groundSpeed := omitempty u.groundSpeed
  groundTrack := omitempty u.groundTrack
  satsInView := omitempty u.satsInView
  positionTime := omitempty u.positionTime

def telemetryJson (u : TelemetryUpdate) : JsTelemetry where
  nodeNum := u.nodeNum
  shortName := some u.shortName
  longName := some u.longName
  batteryLevel := omitempty u.batteryLevel
  voltage := omitempty u.voltage
  channelUtilization := omitempty u.channelUtilization
  airUtilTx := omitempty u.airUtilTx
  uptimeSeconds := omitempty u.uptimeSeconds
  temperature := omitempty u.temperature
  relativeHumidity := omitempty u.relativeHumidity
  barometricPressure := omitempty u.barometricPressure

def signalJson (u : SignalUpdate) : JsSignal where
  nodeNum := u.nodeNum
  shortName := some u.shortName
  longName := some u.longName
  rxRssi := some u.rxRssi
  rxSnr := some u.rxSnr

def infoJson (u : NodeInfoUpdate) : JsInfo where
  nodeNum := u.nodeNum
  shortName := some u.shortName
  longName := some u.longName
  userID := omitempty u.userID
  hwModel := omitempty u.hwModel
  role := omitempty u.role
  isLicensed := omitempty u.isLicensed

/-! ## Events -/

/-- an event as the page parses it -/
inductive JsEvent where
  | nodeDirectory (dir : GoMap UInt32 JsNode)
  | nodePositionUpdate (pos : JsPosition)
  | nodeTelemetryUpdate (tel : JsTelemetry)
  | nodeSignalUpdate (sig : JsSignal)
  | nodeUpdate (info : JsInfo)
  | nodeFavorite (nodeNum : UInt32) (isFavorite : Bool)

/-- the floats of a telemetry update -/
def telemetryFloats (u : TelemetryUpdate) : List F32 :=
  [u.voltage, u.channelUtilization, u.airUtilTx, u.temperature, u.relativeHumidity, u.barometricPressure]

/-- `json.Marshal` of the events about the directory: it fails on a float that is not finite, and handleSSE then skips
the event -/
def marshal : Event → Option JsEvent
  | .nodeDirectory dir =>
    if dir.keys.all fun n => (dir.get? n).all fun e => e.floats.all F32.isFinite then
      some (.nodeDirectory (dir.map nodeJson))
    else none
  | .nodePositionUpdate u => some (.nodePositionUpdate (positionJson u))
  | .nodeTelemetryUpdate u =>
    if (telemetryFloats u).all F32.isFinite then some (.nodeTelemetryUpdate (telemetryJson u)) else none
  | .nodeSignalUpdate u => if u.rxSnr.isFinite then some (.nodeSignalUpdate (signalJson u)) else none
  | .nodeUpdate u => some (.nodeUpdate (infoJson u))
  | .nodeFavorite nodeNum fav => some (.nodeFavorite nodeNum fav)
  | _ => none

/-! ## The page -/

/-- the page: `nodeDir` (null before the first snapshot) and the readings of its clock -/
structure Page where
  nodeDir : Option (GoMap UInt32 JsNode)
  clock : ℕ → UInt32
  reads : ℕ

namespace Page

/-- `Math.floor(Date.now() / 1000)` -/
def now (p : Page) : Option UInt32 := some (p.clock p.reads)

/-- replace the object of a node, after a reading of the clock -/
def put (p : Page) (dir : GoMap UInt32 JsNode) (nodeNum : UInt32) (js : JsNode) : Page :=
  { p with nodeDir := some (dir.set nodeNum js), reads := p.reads + 1 }

/-- the object updateMapNode leaves: the old one changed, or a new one -/
def movedNode (p : Page) (pos : JsPosition) : Option JsNode → JsNode
  | some entry => { entry with
      latitude := pos.latitude
      longitude := pos.longitude
      altitude := pos.altitude
      groundSpeed := assignIf pos.groundSpeed entry.groundSpeed
      groundTrack := assignIf pos.groundTrack entry.groundTrack
      satsInView := assignIf pos.satsInView entry.satsInView
      positionTime := assignIf pos.positionTime entry.positionTime
      seenRealtime := some true
      lastHeard := p.now }
  | none =>
    { shortName := pos.shortName
      longName := pos.longName
      latitude := pos.latitude
      longitude := pos.longitude
      altitude := pos.altitude
      groundSpeed := orElse pos.groundSpeed 0
      groundTrack := orElse pos.groundTrack 0
      satsInView := orElse pos.satsInView 0
      positionTime := orElse pos.positionTime 0
      seenRealtime := some true
      lastHeard := p.now }

def updateMapNode (p : Page) (pos : JsPosition) : Page :=
  match p.nodeDir with
  | none => p
  | some dir => p.put dir pos.nodeNum (p.movedNode pos (dir.get? pos.nodeNum))

def measuredNode (p : Page) (tel : JsTelemetry) (entry : JsNode) : JsNode :=
  { entry with
    seenRealtime := some true
    lastHeard := p.now
    batteryLevel := assignIf tel.batteryLevel entry.batteryLevel
    voltage := assignIf tel.voltage entry.voltage
    channelUtilization := assignIf tel.channelUtilization entry.channelUtilization
    airUtilTx := assignIf tel.airUtilTx entry.airUtilTx
    uptimeSeconds := assignIf tel.uptimeSeconds entry.uptimeSeconds
    temperature := assignIf tel.temperature entry.temperature
    relativeHumidity := assignIf tel.relativeHumidity entry.relativeHumidity
    barometricPressure := assignIf tel.barometricPressure entry.barometricPressure }

def updateNodeTelemetry (p : Page) (tel : JsTelemetry) : Page :=
  match p.nodeDir with
  | none => p
  | some dir =>
    p.put dir tel.nodeNum
      (p.measuredNode tel ((dir.get? tel.nodeNum).getD { shortName := tel.shortName, longName := tel.longName }))

def heardNode (p : Page) (sig : JsSignal) (entry : JsNode) : JsNode :=
  { entry with
    seenRealtime := some true
    lastHeard := p.now
    rxRssi := assignIf sig.rxRssi entry.rxRssi
    rxSnr := assignIf sig.rxSnr entry.rxSnr }

def updateNodeSignal (p : Page) (sig : JsSignal) : Page :=
  match p.nodeDir with
  | none => p
  | some dir =>
    p.put dir sig.nodeNum
      (p.heardNode sig ((dir.get? sig.nodeNum).getD { shortName := sig.shortName, longName := sig.longName }))

def namedNode (p : Page) (info : JsInfo) (entry : JsNode) : JsNode :=
  { entry with
    seenRealtime := some true
    lastHeard := p.now
    shortName := assignIf info.shortName entry.shortName
    longName := assignIf info.longName entry.longName
    userID := assignIf info.userID entry.userID
    hwModel := assignIf info.hwModel entry.hwModel
    role := assignIf info.role entry.role
    isLicensed := orElse info.isLicensed false }

/-- the only handler that works without a snapshot -/
def updateNodeInfo (p : Page) (info : JsInfo) : Page :=
  let dir := p.nodeDir.getD .empty
  p.put dir info.nodeNum (p.namedNode info ((dir.get? info.nodeNum).getD {}))

/-- the node_favorite handler: `if (nodeDir && data.node_num)`, then only for a node the page has -/
def onNodeFavorite (p : Page) (nodeNum : UInt32) (isFavorite : Bool) : Page :=
  match p.nodeDir with
  | none => p
  | some dir =>
    if nodeNum = 0 then p
    else match dir.get? nodeNum with
      | none => p
      | some entry => { p with nodeDir := some (dir.set nodeNum { entry with isFavorite := some isFavorite }) }

/-- the SSE handlers of a page that is not paused -/
def onEvent (p : Page) : JsEvent → Page
  | .nodeDirectory dir => { p with nodeDir := some dir }
  | .nodePositionUpdate pos => p.updateMapNode pos
  | .nodeTelemetryUpdate tel => p.updateNodeTelemetry tel
  | .nodeSignalUpdate sig => p.updateNodeSignal sig
  | .nodeUpdate info => p.updateNodeInfo info
  | .nodeFavorite nodeNum isFavorite => p.onNodeFavorite nodeNum isFavorite

/-- an event on its way from the channel to the page -/
def receive (p : Page) (e : Event) : Page :=
  match marshal e with
  | none => p
  | some js => p.onEvent js

end Page

/-- the page's directory equals the server's: the same nodes, and each with the fields the JSON of its entry has -/
def Mirrors (dir : Directory) (p : Page) : Prop :=
  ∃ js, p.nodeDir = some js ∧ ∀ n, (js.get? n).map view = (dir.get? n).map fun e => view (nodeJson e)

/-! ## Fields on both sides -/

section Fields

variable {α : Type} [JsonValue α]

open JsonValue

theorem omitempty_of_isEmpty {x : α} (h : isEmpty x = true) : omitempty x = none := if_pos h

theorem omitempty_of_not_isEmpty {x : α} (h : isEmpty x = false) : omitempty x = some x := by
  rw [omitempty, if_neg (by simp [h])]

theorem norm_of_isEmpty {x : α} (h : isEmpty x = true) : norm x = zero := by
  rw [norm, omitempty_of_isEmpty h]
  rfl

theorem norm_of_not_isEmpty {x : α} (h : isEmpty x = false) : norm x = x := by
  rw [norm, omitempty_of_not_isEmpty h]
  rfl

/-- **An update of a field**, from a field with omitempty: the page keeps its value when the new one is empty -/
theorem readField_assignIf {x y : α} {o : Option α} (h : readField o = norm y) :
    readField (assignIf (omitempty x) o) = norm (if isEmpty x then y else x) := by
  cases hx : isEmpty x with
  | true => simpa [omitempty_of_isEmpty hx, assignIf, truthy] using h
  | false => simp [omitempty_of_not_isEmpty hx, norm_of_not_isEmpty hx, assignIf, truthy, hx, readField]

/-- the same from a field that is always there -/
theorem readField_assignIf_some {x y : α} {o : Option α} (h : readField o = norm y) :
    readField (assignIf (some x) o) = norm (if isEmpty x then y else x) := by
  cases hx : isEmpty x with
  | true => simpa [assignIf, truthy, hx] using h
  | false => simp [norm_of_not_isEmpty hx, assignIf, truthy, hx, readField]

/-- in a new object the default is the zero value -/
theorem readField_orElse (x : Option α) : readField (orElse x zero) = readField (assignIf x none) := by
  unfold orElse assignIf
  split_ifs <;> rfl

end Fields

theorem norm_string (x : String) : norm x = x := by
  by_cases h : x = "" <;> simp [norm, omitempty, readField, JsonValue.isEmpty, JsonValue.zero, h]

theorem norm_int (x : ℤ) : norm x = x := by
  by_cases h : x = 0 <;> simp [norm, omitempty, readField, JsonValue.isEmpty, JsonValue.zero, h]

theorem norm_bool (x : Bool) : norm x = x := by cases x <;> rfl

/-- the server's guards on strings, integers and environment readings are the page's -/
theorem guard_string (x y : String) : (if JsonValue.isEmpty x then y else x) = if x ≠ "" then x else y := by
  by_cases h : x = "" <;> simp [JsonValue.isEmpty, h]

theorem guard_uint32 (x y : UInt32) : (if JsonValue.isEmpty x then y else x) = if x > 0 then x else y := by
  by_cases h : x = 0
  · simp [JsonValue.isEmpty, h]
  · have hpos : x > 0 := UInt32.pos_iff_ne_zero.2 h
    simp [JsonValue.isEmpty, h, hpos]

theorem guard_int (x y : ℤ) : (if JsonValue.isEmpty x then y else x) = if x ≠ 0 then x else y := by
  by_cases h : x = 0 <;> simp [JsonValue.isEmpty, h]

theorem guard_environment (x y : F32) : (if JsonValue.isEmpty x then y else x) = if x.neZero then x else y := by
  cases h : x.isZero <;> simp [JsonValue.isEmpty, F32.neZero, h]

/-- **The guard on a device metric** is the page's exactly when a negative value is one the entry has already -/
theorem guard_device_iff {x : F32} (hx : x.isFinite = true) (y : F32) :
    norm (if JsonValue.isEmpty x then y else x) = norm (if x.gtZero then x else y) ↔ (x.ltZero = true → y = x) := by
  rw [F32.ltZero_iff hx]
  cases hz : x.isZero with
  | true =>
    have hg : x.gtZero = false := by simp [F32.gtZero, hz]
    simp [JsonValue.isEmpty, hz, hg]
  | false =>
    have hnorm : norm x = x := norm_of_not_isEmpty hz
    cases hg : x.gtZero with
    | true => simp [JsonValue.isEmpty, hz]
    | false =>
      simp only [JsonValue.isEmpty, hz, Bool.false_eq_true, if_false, hnorm, and_self, forall_const]
      constructor
      · intro h
        cases hy : y.isZero with
        | true =>
          rw [norm_of_isEmpty (x := y) hy] at h
          rw [h] at hz
          exact absurd hz (by decide)
        | false => exact (h.trans (norm_of_not_isEmpty hy)).symm
      · intro h
        rw [h, hnorm]

/-! ## Entries on both sides -/

/-- a page's object shows what the JSON of a directory entry shows -/
def Same (js : JsNode) (e : NodeEntry) : Prop := view js = view (nodeJson e)

/-- the objects the page starts from when it does not have the node -/
theorem same_empty : Same {} {} := rfl

theorem same_unnamed : Same { shortName := some "", longName := some "" } {} := rfl

/-- the entry a real-time update starts from -/
def seen (now : UInt32) (e : NodeEntry) : NodeEntry := { e with seenRealtime := true, lastHeard := now }

section Updates

variable {js : JsNode} {e : NodeEntry} (p : Page) (now : UInt32)

theorem moved_same (u : PositionUpdate) (h : Same js e) :
    Same (p.movedNode (positionJson u) (some js)) (Metrics.applyPosition u (seen now e)) := by
  have hleft : view (p.movedNode (positionJson u) (some js)) =
      { view js with
        seenRealtime := true
        latitude := u.latitude
        longitude := u.longitude
        altitude := u.altitude
        groundSpeed := readField (assignIf (omitempty u.groundSpeed) js.groundSpeed)
        groundTrack := readField (assignIf (omitempty u.groundTrack) js.groundTrack)
        satsInView := readField (assignIf (omitempty u.satsInView) js.satsInView)
        positionTime := readField (assignIf (omitempty u.positionTime) js.positionTime) } := rfl
  have hright : view (nodeJson (Metrics.applyPosition u (seen now e))) =
      { view (nodeJson e) with
        seenRealtime := true
        latitude := norm u.latitude
        longitude := norm u.longitude
        altitude := norm u.altitude
        groundSpeed := norm (if u.groundSpeed > 0 then u.groundSpeed else e.groundSpeed)
        groundTrack := norm (if u.groundTrack > 0 then u.groundTrack else e.groundTrack)
        satsInView := norm (if u.satsInView > 0 then u.satsInView else e.satsInView)
        positionTime := norm (if u.positionTime > 0 then u.positionTime else e.positionTime) } := rfl
  rw [Same, hleft, hright, ← h]
  simp only [norm_int, ← guard_uint32]
  rw [readField_assignIf (congrArg NodeEntry.groundSpeed h), readField_assignIf (congrArg NodeEntry.groundTrack h),
    readField_assignIf (congrArg NodeEntry.satsInView h), readField_assignIf (congrArg NodeEntry.positionTime h)]

/-- a node the page does not have is treated as one of which it has the names only -/
theorem moved_base (pos : JsPosition) (old : Option JsNode) :
    view (p.movedNode pos old) =
      view (p.movedNode pos (some (old.getD { shortName := pos.shortName, longName := pos.longName }))) := by
  cases old with
  | some js => rfl
  | none =>
    have hzero (x : Option UInt32) : readField (orElse x 0) = readField (assignIf x none) := readField_orElse x
    simp only [view, Page.movedNode, hzero, Option.getD_none]

/-- a device metric that is negative is the one the entry has -/
structure DeviceAgrees (u : TelemetryUpdate) (e : NodeEntry) : Prop where
  voltage : u.voltage.ltZero = true → e.voltage = u.voltage
  channelUtilization : u.channelUtilization.ltZero = true → e.channelUtilization = u.channelUtilization
  airUtilTx : u.airUtilTx.ltZero = true → e.airUtilTx = u.airUtilTx

theorem measured_same_iff (u : TelemetryUpdate) (hu : (telemetryFloats u).all F32.isFinite = true) (h : Same js e) :
    Same (p.measuredNode (telemetryJson u) js) (Metrics.applyTelemetry u (seen now e)) ↔ DeviceAgrees u e := by
  simp only [telemetryFloats, List.all_cons, List.all_nil, Bool.and_true, Bool.and_eq_true] at hu
  obtain ⟨hv, hc, ha, -⟩ := hu
  have hleft : view (p.measuredNode (telemetryJson u) js) =
      { view js with
        seenRealtime := true
        batteryLevel := readField (assignIf (omitempty u.batteryLevel) js.batteryLevel)
        voltage := readField (assignIf (omitempty u.voltage) js.voltage)
        channelUtilization := readField (assignIf (omitempty u.channelUtilization) js.channelUtilization)
        airUtilTx := readField (assignIf (omitempty u.airUtilTx) js.airUtilTx)
        uptimeSeconds := readField (assignIf (omitempty u.uptimeSeconds) js.uptimeSeconds)
        temperature := readField (assignIf (omitempty u.temperature) js.temperature)
        relativeHumidity := readField (assignIf (omitempty u.relativeHumidity) js.relativeHumidity)
        barometricPressure := readField (assignIf (omitempty u.barometricPressure) js.barometricPressure) } := rfl
  have hright : view (nodeJson (Metrics.applyTelemetry u (seen now e))) =
      { view (nodeJson e) with
        seenRealtime := true
        batteryLevel := norm (if u.batteryLevel > 0 then u.batteryLevel else e.batteryLevel)
        voltage := norm (if u.voltage.gtZero then u.voltage else e.voltage)
        channelUtilization := norm (if u.channelUtilization.gtZero then u.channelUtilization else e.channelUtilization)
        airUtilTx := norm (if u.airUtilTx.gtZero then u.airUtilTx else e.airUtilTx)
        uptimeSeconds := norm (if u.uptimeSeconds > 0 then u.uptimeSeconds else e.uptimeSeconds)
        temperature := norm (if u.temperature.neZero then u.temperature else e.temperature)
        relativeHumidity := norm (if u.relativeHumidity.neZero then u.relativeHumidity else e.relativeHumidity)
        barometricPressure :=
          norm (if u.barometricPressure.neZero then u.barometricPressure else e.barometricPressure) } := rfl
  rw [Same, hleft, hright, ← h]
  simp only [← guard_uint32, ← guard_environment]
  rw [readField_assignIf (congrArg NodeEntry.batteryLevel h), readField_assignIf (congrArg NodeEntry.voltage h),
    readField_assignIf (congrArg NodeEntry.channelUtilization h), readField_assignIf (congrArg NodeEntry.airUtilTx h),
    readField_assignIf (congrArg NodeEntry.uptimeSeconds h), readField_assignIf (congrArg NodeEntry.temperature h),
    readField_assignIf (congrArg NodeEntry.relativeHumidity h),
    readField_assignIf (congrArg NodeEntry.barometricPressure h)]
  simp only [NodeEntry.mk.injEq, true_and, and_true, guard_device_iff hv, guard_device_iff hc, guard_device_iff ha]
  constructor
  · intro hd
    exact ⟨hd.1, hd.2.1, hd.2.2⟩
  · intro hd
    exact ⟨hd.voltage, hd.channelUtilization, hd.airUtilTx⟩

theorem heard_same (u : SignalUpdate) (h : Same js e) :
    Same (p.heardNode (signalJson u) js) (Metrics.applySignal u (seen now e)) := by
  have hleft : view (p.heardNode (signalJson u) js) =
      { view js with
        seenRealtime := true
        rxRssi := readField (assignIf (some u.rxRssi) js.rxRssi)
        rxSnr := readField (assignIf (some u.rxSnr) js.rxSnr) } := rfl
  have hright : view (nodeJson (Metrics.applySignal u (seen now e))) =
      { view (nodeJson e) with
        seenRealtime := true
        rxRssi := norm (if u.rxRssi ≠ 0 then u.rxRssi else e.rxRssi)
        rxSnr := norm (if u.rxSnr.neZero then u.rxSnr else e.rxSnr) } := rfl
  rw [Same, hleft, hright, ← h]
  simp only [← guard_int, ← guard_environment]
  rw [readField_assignIf_some (congrArg NodeEntry.rxRssi h), readField_assignIf_some (congrArg NodeEntry.rxSnr h)]

theorem named_same (u : NodeInfoUpdate) (h : Same js e) :
    Same (p.namedNode (infoJson u) js) (Metrics.applyNodeInfo u (seen now e)) := by
  have hleft : view (p.namedNode (infoJson u) js) =
      { view js with
        seenRealtime := true
        shortName := readField (assignIf (some u.shortName) js.shortName)
        longName := readField (assignIf (some u.longName) js.longName)
        userID := readField (assignIf (omitempty u.userID) js.userID)
        hwModel := readField (assignIf (omitempty u.hwModel) js.hwModel)
        role := readField (assignIf (omitempty u.role) js.role)
        isLicensed := readField (orElse (omitempty u.isLicensed) false) } := rfl
  have hright : view (nodeJson (Metrics.applyNodeInfo u (seen now e))) =
      { view (nodeJson e) with
        seenRealtime := true
        shortName := if u.shortName ≠ "" then u.shortName else e.shortName
        longName := if u.longName ≠ "" then u.longName else e.longName
        userID := norm (if u.userID ≠ "" then u.userID else e.userID)
        hwModel := norm (if u.hwModel ≠ "" then u.hwModel else e.hwModel)
        role := norm (if u.role ≠ "" then u.role else e.role)
        isLicensed := norm u.isLicensed } := rfl
  have hlicensed : readField (orElse (omitempty u.isLicensed) false) = norm u.isLicensed := by cases u.isLicensed <;> rfl
  have hs : readField js.shortName = norm e.shortName := (congrArg NodeEntry.shortName h).trans (norm_string _).symm
  have hl : readField js.longName = norm e.longName := (congrArg NodeEntry.longName h).trans (norm_string _).symm
  rw [Same, hleft, hright, ← h, hlicensed, readField_assignIf_some hs, readField_assignIf_some hl,
    readField_assignIf (congrArg NodeEntry.userID h), readField_assignIf (congrArg NodeEntry.hwModel h),
    readField_assignIf (congrArg NodeEntry.role h)]
  simp only [norm_string, ← guard_string]

theorem favorite_same (fav : Bool) (h : Same js e) :
    Same { js with isFavorite := some fav } { e with isFavorite := fav } := by
  have hleft : view { js with isFavorite := some fav } = { view js with isFavorite := fav } := rfl
  have hright : view (nodeJson { e with isFavorite := fav }) = { view (nodeJson e) with isFavorite := norm fav } := rfl
  rw [Same, hleft, hright, h, norm_bool]

end Updates

/-! ## One call -/

/-- the events a call publishes -/
def emits (m : Metrics) (c : Call) : List Event := (call m c).events.drop m.events.length

/-- the page after a list of events, in order -/
def Page.receiveAll (p : Page) (es : List Event) : Page := es.foldl Page.receive p

/-- the float arguments are finite -/
def FiniteValues : Call → Prop
  | .updateNodeTelemetry _ u => (telemetryFloats u).all F32.isFinite = true
  | .updateNodeSignal _ u => u.rxSnr.isFinite = true
  | _ => True

/-- what the two sides need to agree on a call: no negative device metric that the entry does not have, and no change of
the flag of node 0 -/
def Agreeing (m : Metrics) : Call → Prop
  | .updateNodeTelemetry _ u => DeviceAgrees u ((m.nodeDir.get? u.nodeNum).getD {})
  | .setFavorite nodeNum fav => nodeNum = 0 → ∀ e, m.nodeDir.get? nodeNum = some e → e.isFavorite = fav
  | _ => True

theorem mirrors_set_iff {dir : Directory} {js : GoMap UInt32 JsNode}
    (h : ∀ n, (js.get? n).map view = (dir.get? n).map fun e => view (nodeJson e)) {p : Page} {n : UInt32} {js' : JsNode}
    (hp : p.nodeDir = some (js.set n js')) (e' : NodeEntry) : Mirrors (dir.set n e') p ↔ Same js' e' := by
  constructor
  · intro hm
    obtain ⟨d, hd, hget⟩ := hm
    rw [hp] at hd
    cases hd
    simpa [GoMap.get?_set, Same] using hget n
  · intro hs
    refine ⟨_, hp, fun k => ?_⟩
    rw [GoMap.get?_set, GoMap.get?_set]
    split_ifs
    · exact congrArg some hs
    · exact h k

/-- what the two sides start from, when the names the page falls back on are empty -/
theorem base_same {dir : Directory} {js : GoMap UInt32 JsNode} {n : UInt32}
    (h : (js.get? n).map view = (dir.get? n).map fun e => view (nodeJson e)) {fallback : JsNode}
    (hf : dir.get? n = none → Same fallback {}) : Same ((js.get? n).getD fallback) ((dir.get? n).getD {}) := by
  cases hd : dir.get? n with
  | none =>
    cases hj : js.get? n with
    | none => exact hf hd
    | some j => simp [hd, hj] at h
  | some e =>
    cases hj : js.get? n with
    | none => simp [hd, hj] at h
    | some j => simpa [hd, hj, Same] using h

/-- a node without an entry has no names -/
theorem unnamed_same {dir : Directory} {n : UInt32} (hd : dir.get? n = none) (now : UInt32) :
    Same { shortName := some (touched dir now n).shortName, longName := some (touched dir now n).longName } {} := by
  have ht : touched dir now n = seen now {} := by simp [touched, seen, hd]
  rw [ht]
  exact same_unnamed

variable {m : Metrics} {p : Page} {js : GoMap UInt32 JsNode}

theorem position_mirrors (hp : p.nodeDir = some js)
    (h : ∀ n, (js.get? n).map view = (m.nodeDir.get? n).map fun e => view (nodeJson e)) (now : UInt32)
    (u : PositionUpdate) :
    Mirrors (m.updateNodePosition now u).nodeDir (p.receiveAll (emits m (.updateNodePosition now u))) := by
  have hemit : emits m (.updateNodePosition now u) = [.nodePositionUpdate { u with
      shortName := (touched m.nodeDir now u.nodeNum).shortName
      longName := (touched m.nodeDir now u.nodeNum).longName }] := List.drop_left
  simp only [hemit, Page.receiveAll, List.foldl_cons, List.foldl_nil, Page.receive, marshal, Page.onEvent,
    Page.updateMapNode, hp]
  refine (mirrors_set_iff h rfl _).2 ((moved_base p _ _).trans ?_)
  exact moved_same p now u (base_same (h u.nodeNum) fun hd => unnamed_same hd now)

theorem telemetry_mirrors_iff (hp : p.nodeDir = some js)
    (h : ∀ n, (js.get? n).map view = (m.nodeDir.get? n).map fun e => view (nodeJson e)) (now : UInt32)
    {u : TelemetryUpdate} (hu : (telemetryFloats u).all F32.isFinite = true) :
    Mirrors (m.updateNodeTelemetry now u).nodeDir (p.receiveAll (emits m (.updateNodeTelemetry now u))) ↔
      DeviceAgrees u ((m.nodeDir.get? u.nodeNum).getD {}) := by
  have hemit : emits m (.updateNodeTelemetry now u) = [.nodeTelemetryUpdate { u with
      shortName := (touched m.nodeDir now u.nodeNum).shortName
      longName := (touched m.nodeDir now u.nodeNum).longName }] := List.drop_left
  simp only [hemit, Page.receiveAll, List.foldl_cons, List.foldl_nil, Page.receive, marshal]
  have hu' : (telemetryFloats { u with
      shortName := (touched m.nodeDir now u.nodeNum).shortName
      longName := (touched m.nodeDir now u.nodeNum).longName }).all F32.isFinite = true := hu
  rw [if_pos hu']
  simp only [Page.onEvent, Page.updateNodeTelemetry, hp]
  exact (mirrors_set_iff h rfl _).trans
    (measured_same_iff p now u hu (base_same (h u.nodeNum) fun hd => unnamed_same hd now))

theorem signal_mirrors (hp : p.nodeDir = some js)
    (h : ∀ n, (js.get? n).map view = (m.nodeDir.get? n).map fun e => view (nodeJson e)) (now : UInt32)
    {u : SignalUpdate} (hu : u.rxSnr.isFinite = true) :
    Mirrors (m.updateNodeSignal now u).nodeDir (p.receiveAll (emits m (.updateNodeSignal now u))) := by
  have hemit : emits m (.updateNodeSignal now u) = [.nodeSignalUpdate { u with
      shortName := (touched m.nodeDir now u.nodeNum).shortName
      longName := (touched m.nodeDir now u.nodeNum).longName }] := List.drop_left
  simp only [hemit, Page.receiveAll, List.foldl_cons, List.foldl_nil, Page.receive, marshal, hu, if_true, Page.onEvent,
    Page.updateNodeSignal, hp]
  exact (mirrors_set_iff h rfl _).2 (heard_same p now u (base_same (h u.nodeNum) fun hd => unnamed_same hd now))

theorem info_mirrors (hp : p.nodeDir = some js)
    (h : ∀ n, (js.get? n).map view = (m.nodeDir.get? n).map fun e => view (nodeJson e)) (now : UInt32)
    (u : NodeInfoUpdate) :
    Mirrors (m.upsertNode now u).nodeDir (p.receiveAll (emits m (.upsertNode now u))) := by
  have hemit : emits m (.upsertNode now u) =
      [.nodeUpdate { u with isNew := (m.nodeDir.get? u.nodeNum).isNone }] := List.drop_left
  simp only [hemit, Page.receiveAll, List.foldl_cons, List.foldl_nil, Page.receive, marshal, Page.onEvent,
    Page.updateNodeInfo, hp, Option.getD_some]
  exact (mirrors_set_iff h rfl _).2 (named_same p now u (base_same (h u.nodeNum) fun _ => same_empty))

/-- a change of a flag that the page does not hear of -/
theorem unheard_favorite_iff (h : ∀ n, (js.get? n).map view = (m.nodeDir.get? n).map fun e => view (nodeJson e))
    (hp : p.nodeDir = some js) {n : UInt32} {e : NodeEntry} (he : m.nodeDir.get? n = some e) (fav : Bool) :
    Mirrors (m.nodeDir.set n { e with isFavorite := fav }) p ↔ e.isFavorite = fav := by
  have hn := h n
  rw [he, Option.map_some] at hn
  obtain ⟨j, hj, hview⟩ := Option.map_eq_some_iff.1 hn
  constructor
  · intro hm
    obtain ⟨d, hd, hget⟩ := hm
    rw [hp] at hd
    cases hd
    have hfav := hget n
    rw [GoMap.get?_set, if_pos rfl, hj, Option.map_some, Option.map_some, hview] at hfav
    have hnorm : norm e.isFavorite = norm fav := congrArg NodeEntry.isFavorite (Option.some.inj hfav)
    rwa [norm_bool, norm_bool] at hnorm
  · intro hfav
    refine ⟨js, hp, fun k => ?_⟩
    rw [GoMap.get?_set]
    split_ifs with hk
    · rw [hk, hn, ← hfav]
      rfl
    · exact h k

theorem favorite_mirrors_iff (hp : p.nodeDir = some js)
    (h : ∀ n, (js.get? n).map view = (m.nodeDir.get? n).map fun e => view (nodeJson e)) (n : UInt32) (fav : Bool) :
    Mirrors (m.setFavorite n fav).1.nodeDir (p.receiveAll (emits m (.setFavorite n fav))) ↔
      (n = 0 → ∀ e, m.nodeDir.get? n = some e → e.isFavorite = fav) := by
  cases he : m.nodeDir.get? n with
  | none =>
    have hset : (m.setFavorite n fav).1 = m := by simp [Metrics.setFavorite, he]
    have hemit : emits m (.setFavorite n fav) = [] := by simp [emits, call, hset]
    rw [hset, hemit]
    have hm : Mirrors m.nodeDir (p.receiveAll []) := ⟨js, hp, h⟩
    exact iff_of_true hm (by simp)
  | some e =>
    have hset : (m.setFavorite n fav).1.nodeDir = m.nodeDir.set n { e with isFavorite := fav } := by
      simp [Metrics.setFavorite, he, Metrics.publish]
    have hemit : emits m (.setFavorite n fav) = [.nodeFavorite n fav] := by
      simp [emits, call, Metrics.setFavorite, he, Metrics.publish]
    rw [hset, hemit]
    simp only [Page.receiveAll, List.foldl_cons, List.foldl_nil, Page.receive, marshal, Page.onEvent, Page.onNodeFavorite,
      hp, Option.some.injEq, forall_eq']
    by_cases h0 : n = 0
    · simp only [if_pos h0]
      rw [unheard_favorite_iff h hp he]
      simp [h0]
    · obtain ⟨j, hj, hview⟩ : ∃ j, js.get? n = some j ∧ Same j e := by
        have hn := h n
        rw [he, Option.map_some] at hn
        exact Option.map_eq_some_iff.1 hn
      simp only [hj, h0, if_false, false_imp_iff, iff_true]
      exact (mirrors_set_iff h rfl _).2 (favorite_same fav hview)

/-- a call other than SetNodeDirectory, with finite arguments -/
def Update (c : Call) : Prop := (∀ dir, c ≠ .setNodeDirectory dir) ∧ FiniteValues c

/-- **One call**: after its events the page mirrors the server exactly when the two agree on the call -/
theorem receive_mirrors {c : Call} (hc : Update c) (h : Mirrors m.nodeDir p) :
    Mirrors (call m c).nodeDir (p.receiveAll (emits m c)) ↔ Agreeing m c := by
  obtain ⟨js, hp, hget⟩ := h
  cases c with
  | setNodeDirectory dir => exact absurd rfl (hc.1 dir)
  | updateNodePosition now u => exact iff_of_true (position_mirrors hp hget now u) trivial
  | updateNodeTelemetry now u => exact telemetry_mirrors_iff hp hget now hc.2
  | updateNodeSignal now u => exact iff_of_true (signal_mirrors hp hget now hc.2) trivial
  | upsertNode now u => exact iff_of_true (info_mirrors hp hget now u) trivial
  | setFavorite n fav => exact favorite_mirrors_iff hp hget n fav

/-- what handleSSE sends first makes the page a mirror -/
theorem nodeDirectory_mirrors {dir : Directory} (hdir : ∀ n e, dir.get? n = some e → e.Finite) (p : Page) :
    Mirrors dir (p.receive (.nodeDirectory dir)) := by
  have hfin : dir.keys.all (fun n => (dir.get? n).all fun e => e.floats.all F32.isFinite) = true := by
    rw [List.all_eq_true]
    intro n _
    cases he : dir.get? n with
    | none => rfl
    | some e => exact List.all_eq_true.2 (hdir n e he)
  refine ⟨dir.map nodeJson, ?_, ?_⟩
  · simp [Page.receive, marshal, hfin, Page.onEvent]
  · intro n
    rw [GoMap.get?_map, Option.map_map]
    rfl

/-! ## Runs -/

theorem call_events (m : Metrics) (c : Call) : (call m c).events = m.events ++ emits m c := by
  have hone (m' : Metrics) (e : Event) (he : m'.events = m.events ++ [e]) :
      m'.events = m.events ++ m'.events.drop m.events.length := by
    rw [he, List.drop_left]
  cases c with
  | setFavorite n fav =>
    cases hd : m.nodeDir.get? n with
    | none => simp [emits, call, Metrics.setFavorite, hd]
    | some e => exact hone _ (.nodeFavorite n fav) (by simp [call, Metrics.setFavorite, hd, Metrics.publish])
  | _ => exact hone _ _ rfl

/-- the server and a page that gets each call's events at once -/
def sync (s : Metrics × Page) (c : Call) : Metrics × Page := (call s.1 c, s.2.receiveAll (emits s.1 c))

/-- it ends as a page that gets all the events at the end -/
theorem run_sync (m : Metrics) (p : Page) (cs : List Call) :
    run sync (m, p) cs = (run call m cs, p.receiveAll (emitted call emits m cs)) := by
  induction cs generalizing m p with
  | nil => rfl
  | cons c cs ih =>
    rw [run_cons, run_cons, emitted, Page.receiveAll, List.foldl_append]
    exact ih _ _

theorem along_sync {P : Metrics → Call → Prop} (m : Metrics) (p : Page) (cs : List Call) :
    Along sync (fun s c => P s.1 c) (m, p) cs ↔ Along call P m cs := by
  induction cs generalizing m p with
  | nil => exact Iff.rfl
  | cons c cs ih => exact and_congr_right fun _ => ih _ _

/-- **The dashboard mirrors the server.** From equal directories, for every sequence of updates with finite values whose
events reach an unpaused page in order: the page's directory equals the server's after every prefix exactly when the
two sides agree on every call. -/
theorem dashboard_mirrors_iff (m : Metrics) (p : Page) (cs : List Call) (h0 : Mirrors m.nodeDir p)
    (hcs : ∀ c ∈ cs, Update c) :
    (∀ bs, bs <+: cs →
      Mirrors (run call m bs).nodeDir (p.receiveAll ((run call m bs).events.drop m.events.length))) ↔
      Along call Agreeing m cs := by
  have hevents (bs : List Call) : (run call m bs).events.drop m.events.length = emitted call emits m bs := by
    rw [emitted_log call_events, List.drop_left]
  have hrule : (∀ bs, bs <+: cs → Mirrors (run sync (m, p) bs).1.nodeDir (run sync (m, p) bs).2) ↔
      Along sync (fun s c => Agreeing s.1 c) (m, p) cs :=
    prefixes_iff_along_of (A := Update) (I := fun s : Metrics × Page => Mirrors s.1.nodeDir s.2)
      (H := fun s : Metrics × Page => Mirrors s.1.nodeDir s.2) (fun _ h => h)
      (fun s c hc h ha => (receive_mirrors hc h).2 ha)
      (fun s c hc h ha hm => ha ((receive_mirrors hc h).1 hm)) hcs h0
  rw [along_sync] at hrule
  rw [← hrule]
  simp only [run_sync, hevents]

/-! ### A first node -/

/-- a page with an empty directory -/
def blankPage : Page := ⟨some .empty, fun _ => 0, 0⟩

theorem blank_mirrors : Mirrors (new 100).nodeDir blankPage := ⟨.empty, rfl, fun _ => rfl⟩

/-- node 0x11 gives its name and is made a favourite -/
theorem dashboard_mirrors_eleven :
    Mirrors (run call (new 100) [.upsertNode 1 elevenInfo, .setFavorite 0x11 true]).nodeDir
      (blankPage.receiveAll
        ((run call (new 100) [.upsertNode 1 elevenInfo, .setFavorite 0x11 true]).events.drop (new 100).events.length)) := by
  refine (dashboard_mirrors_iff (new 100) blankPage [.upsertNode 1 elevenInfo, .setFavorite 0x11 true] blank_mirrors
    ?_).2 ?_ _ (List.prefix_refl _)
  · intro c hc
    simp only [List.mem_cons, List.not_mem_nil, or_false] at hc
    rcases hc with rfl | rfl
    · exact ⟨by simp, trivial⟩
    · exact ⟨by simp, trivial⟩
  · refine ⟨trivial, ?_, trivial⟩
    intro h
    exact absurd h (by decide)

/-- the value -1 -/
def minusOne : F32 := ⟨0xBF800000#32⟩

/-- telemetry of node 0x11 with a voltage of -1: the page shows it, the server keeps 0 -/
theorem dashboard_shows_negative_voltage :
    Update (.updateNodeTelemetry 1 { nodeNum := 0x11, voltage := minusOne }) ∧ Mirrors (new 100).nodeDir blankPage ∧
    ¬Mirrors (run call (new 100) [.updateNodeTelemetry 1 { nodeNum := 0x11, voltage := minusOne }]).nodeDir
      (blankPage.receiveAll ((run call (new 100)
        [.updateNodeTelemetry 1 { nodeNum := 0x11, voltage := minusOne }]).events.drop (new 100).events.length)) := by
  refine ⟨⟨by simp, ?_⟩, blank_mirrors, ?_⟩
  · simp only [FiniteValues]
    decide +kernel
  intro hm
  obtain ⟨d, hd, hget⟩ := hm
  have hpage : ((blankPage.receiveAll ((run call (new 100)
      [.updateNodeTelemetry 1 { nodeNum := 0x11, voltage := minusOne }]).events.drop (new 100).events.length)).nodeDir.bind
        fun d => (d.get? 0x11).map fun j => (view j).voltage) = some minusOne := by
    decide +kernel
  rw [hd] at hpage
  have hfield := congrArg (Option.map NodeEntry.voltage) (hget 0x11)
  rw [Option.map_map] at hfield
  have hserver := hpage.symm.trans hfield
  exact absurd hserver (by decide +kernel)

end MeshProxy.Dashboard
