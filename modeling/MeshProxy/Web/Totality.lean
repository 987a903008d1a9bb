/-
The method calls of the row and popup builders (`internal/web/templates/static/nodes.js`: buildNodeRow; `app.js`:
nodePopupHTML). A field that the JSON leaves out is undefined, and a method call on it throws.

`rowCalls` and `popupCalls` list the calls on fields, each with the guard under which it is reached and whether its field
is there. Every guard tests the field of its call, but for the coordinates: there it is a disjunction, and both are
called.

- `total_iff_located`: no call is made on an absent field exactly when the coordinates are both there or neither counts;
- `total_iff_isSome`: which is when the builders, as modelled in Markup, have a result;
- `step_drawable_iff`: whatever a dashboard hears or does, its nodes stay so unless it takes over a directory in which some
  node has exactly one coordinate zero;
- `builders_total_iff`: the builders are total on every node in every state of a dashboard exactly when neither the
  directory it was served with nor one it takes over has such a node.

A directory reaches the page in three ways: in the page itself (`handleDashboard`), in the `metrics` event with which
handleSSE starts a stream, and in a `node_directory` event.
-/
import MeshProxy.Web.Markup

namespace MeshProxy.Markup

open MeshProxy.Binary32 MeshProxy.Store MeshProxy.Dashboard MeshProxy.Trace

/-! ## The calls -/

/-- a method call on a field -/
structure MethodCall where
  field : String
  reached : Bool
  present : Bool

/-- it does not throw -/
def MethodCall.Ok (c : MethodCall) : Prop := c.reached = true → c.present = true

section Calls

variable (entry : JsNode)

def hasPosition : Bool := truthy entry.latitude || truthy entry.longitude

def hasRadio : Bool :=
  truthy entry.snr || truthy entry.rxRssi || truthy entry.rxSnr || truthy entry.lastHeard || truthy entry.hopsAway ||
    truthy entry.channel

def hasIdentity : Bool := truthy entry.hwModel || truthy entry.role || truthy entry.userID

def hasDevice : Bool :=
  truthy entry.batteryLevel || truthy entry.voltage || truthy entry.uptimeSeconds || truthy entry.channelUtilization ||
    truthy entry.airUtilTx

def hasEnvironment : Bool :=
  truthy entry.temperature || truthy entry.relativeHumidity || truthy entry.barometricPressure

/-- the calls of `buildNodeRow`; `replace` is formatHwModel's and `charAt` formatRole's -/
def rowCalls : List MethodCall :=
  [⟨"hw_model.replace", truthy entry.hwModel, entry.hwModel.isSome⟩,
   ⟨"role.charAt", truthy entry.role, entry.role.isSome⟩,
   ⟨"snrVal.toFixed", truthy (snrVal entry), (snrVal entry).isSome⟩,
   ⟨"voltage.toFixed", truthy entry.batteryLevel && truthy entry.voltage, entry.voltage.isSome⟩,
   ⟨"latitude.toFixed", hasPosition entry, entry.latitude.isSome⟩,
   ⟨"longitude.toFixed", hasPosition entry, entry.longitude.isSome⟩]

/-- the calls of `nodePopupHTML` -/
def popupCalls : List MethodCall :=
  [⟨"hw_model.replace", hasIdentity entry && truthy entry.hwModel, entry.hwModel.isSome⟩,
   ⟨"role.charAt", hasIdentity entry && truthy entry.role, entry.role.isSome⟩,
   ⟨"rx_snr.toFixed", hasRadio entry && truthy entry.rxSnr, entry.rxSnr.isSome⟩,
   ⟨"snr.toFixed", hasRadio entry && (truthy entry.snr && !truthy entry.rxSnr), entry.snr.isSome⟩,
   -- `entry.hops_away !== undefined && entry.hops_away > 0`
   ⟨"hops_away.toString", hasRadio entry && truthy entry.hopsAway, entry.hopsAway.isSome⟩,
   ⟨"channel.toString", hasRadio entry && truthy entry.channel, entry.channel.isSome⟩,
   ⟨"latitude.toFixed", hasPosition entry, entry.latitude.isSome⟩,
   ⟨"longitude.toFixed", hasPosition entry, entry.longitude.isSome⟩,
   ⟨"sats_in_view.toString", hasPosition entry && truthy entry.satsInView, entry.satsInView.isSome⟩,
   ⟨"voltage.toFixed", hasDevice entry && truthy entry.voltage, entry.voltage.isSome⟩,
   ⟨"channel_utilization.toFixed", hasDevice entry && truthy entry.channelUtilization,
    entry.channelUtilization.isSome⟩,
   ⟨"air_util_tx.toFixed", hasDevice entry && truthy entry.airUtilTx, entry.airUtilTx.isSome⟩,
   ⟨"temperature.toFixed", hasEnvironment entry && truthy entry.temperature, entry.temperature.isSome⟩,
   ⟨"relative_humidity.toFixed", hasEnvironment entry && truthy entry.relativeHumidity,
    entry.relativeHumidity.isSome⟩,
   ⟨"barometric_pressure.toFixed", hasEnvironment entry && truthy entry.barometricPressure,
    entry.barometricPressure.isSome⟩]

/-- neither builder calls a method on an absent field -/
def Total : Prop := ∀ c ∈ rowCalls entry ++ popupCalls entry, c.Ok

/-- a node's coordinates are both there when one of them counts -/
def Located (entry : JsNode) : Prop :=
  truthy entry.latitude || truthy entry.longitude → entry.latitude.isSome ∧ entry.longitude.isSome

end Calls

variable {e : JsNode}

theorem truthy_isSome {α : Type} [JsonValue α] {x : Option α} (h : truthy x = true) : x.isSome = true := by
  cases x with
  | none => cases h
  | some v => rfl

/-- a call behind a guard that tests its field does not throw -/
theorem guarded_ok {α : Type} [JsonValue α] (field : String) {reached : Bool} {x : Option α}
    (h : reached = true → truthy x = true) : MethodCall.Ok ⟨field, reached, x.isSome⟩ :=
  fun hreached => truthy_isSome (h hreached)

/-- **Only the coordinates matter.** -/
theorem total_iff_located : Total e ↔ Located e := by
  constructor
  · intro h hpos
    have hcall := fun c hc => h c (List.mem_append_left _ hc)
    simp only [rowCalls, List.forall_mem_cons] at hcall
    obtain ⟨-, -, -, -, hlat, hlon, -⟩ := hcall
    exact ⟨hlat hpos, hlon hpos⟩
  · intro h
    have hlat : hasPosition e = true → e.latitude.isSome = true := fun hpos => (h hpos).1
    have hlon : hasPosition e = true → e.longitude.isSome = true := fun hpos => (h hpos).2
    simp only [Total, rowCalls, popupCalls, List.forall_mem_append, List.forall_mem_cons, List.not_mem_nil,
      false_implies, implies_true, and_true]
    refine ⟨⟨guarded_ok _ id, guarded_ok _ id, guarded_ok _ id, guarded_ok _ ?_, hlat, hlon⟩, guarded_ok _ ?_,
      guarded_ok _ ?_, guarded_ok _ ?_, guarded_ok _ ?_, guarded_ok _ ?_, guarded_ok _ ?_, hlat, hlon, guarded_ok _ ?_,
      guarded_ok _ ?_, guarded_ok _ ?_, guarded_ok _ ?_, guarded_ok _ ?_, guarded_ok _ ?_, guarded_ok _ ?_⟩
    all_goals
      simp only [Bool.and_eq_true]
      tauto

/-! ## The builders -/

theorem coordinates_isSome {f : ℤ → ℤ → String} {other : String} :
    (if truthy e.latitude || truthy e.longitude then do
        let latitude ← e.latitude
        let longitude ← e.longitude
        some (f latitude longitude)
      else some other).isSome ↔ Located e := by
  unfold Located
  split_ifs with hpos
  · simp only [hpos, forall_const]
    cases e.latitude with
    | none => simp
    | some latitude => cases e.longitude <;> simp
  · simp [hpos]

theorem buildNodeRow_isSome (b : Browser) (ts : Trace) (num : UInt32) :
    (buildNodeRow b ts num e).isSome ↔ Located e := by
  have hcoords : (coordCell b e).isSome ↔ Located e := coordinates_isSome
  rw [← hcoords]
  unfold buildNodeRow
  cases coordCell b e <;> simp

theorem nodePopupHTML_isSome (b : Browser) (ts : Trace) (num : UInt32) :
    (nodePopupHTML b ts num e).isSome ↔ Located e := by
  have hposition : (positionSection b e).isSome ↔ Located e := coordinates_isSome
  rw [← hposition]
  unfold nodePopupHTML
  cases positionSection b e <;> simp

/-- **The builders have a result exactly when no call is made on an absent field.** -/
theorem total_iff_isSome (b : Browser) (ts : Trace) (num : UInt32) :
    Total e ↔ (buildNodeRow b ts num e).isSome ∧ (nodePopupHTML b ts num e).isSome := by
  rw [total_iff_located, buildNodeRow_isSome, nodePopupHTML_isSome, and_self]

/-! ## The page -/

/-- the builders are total on every node of the page -/
def Drawable (p : Page) : Prop := ∀ dir n e, p.nodeDir = some dir → dir.get? n = some e → Total e

/-- a stored node has a position or none, not half of one -/
def Paired (e : NodeEntry) : Prop := e.latitude = 0 ↔ e.longitude = 0

/-- no node has half a position -/
def AllPaired (dir : Directory) : Prop := ∀ n e, dir.get? n = some e → Paired e

/-- a snapshot that the page is sent, and can parse, has no node with half a position -/
def ServesPaired : Event → Prop
  | .nodeDirectory dir => (marshal (.nodeDirectory dir)).isSome → ∀ n e, dir.get? n = some e → Paired e
  | _ => True

theorem located_nodeJson (e : NodeEntry) : Located (nodeJson e) ↔ Paired e := by
  unfold Located Paired nodeJson
  by_cases hlat : e.latitude = 0 <;> by_cases hlon : e.longitude = 0 <;>
    simp [omitempty, truthy, JsonValue.isEmpty, hlat, hlon]

section Handlers

variable {p : Page}

theorem Drawable.located (h : Drawable p) {dir : GoMap UInt32 JsNode} (hdir : p.nodeDir = some dir) {n : UInt32}
    {js : JsNode} (hjs : dir.get? n = some js) : Located js :=
  total_iff_located.1 (h dir n js hdir hjs)

/-- a node the page does not have starts from an object without coordinates -/
theorem Drawable.located_getD (h : Drawable p) {dir : GoMap UInt32 JsNode} (hdir : p.nodeDir = some dir) (n : UInt32)
    {js : JsNode} (hjs : Located js) : Located ((dir.get? n).getD js) := by
  cases hget : dir.get? n with
  | none => exact hjs
  | some old => exact h.located hdir hget

/-- a page that has one object changed -/
theorem set_drawable {q : Page} {dir : GoMap UInt32 JsNode} (hdir : ∀ n js, dir.get? n = some js → Located js)
    (n : UInt32) {js : JsNode} (hjs : Located js) (hq : q.nodeDir = some (dir.set n js)) : Drawable q := by
  intro dir' m e hdir' hget
  have hdirs : dir.set n js = dir' := Option.some.inj (hq.symm.trans hdir')
  rw [← hdirs, GoMap.get?_set] at hget
  split_ifs at hget
  · cases hget
    exact total_iff_located.2 hjs
  · exact total_iff_located.2 (hdir m e hget)

theorem put_drawable {dir : GoMap UInt32 JsNode} (hdir : ∀ n js, dir.get? n = some js → Located js) (n : UInt32)
    {js : JsNode} (hjs : Located js) : Drawable (p.put dir n js) :=
  set_drawable hdir n hjs rfl

theorem located_empty : Located {} := fun h => absurd h (by decide)

theorem located_named (shortName longName : Option String) :
    Located { shortName := shortName, longName := longName } := fun h => absurd h (by simp [truthy])

/-- a position update brings both coordinates -/
theorem updateMapNode_drawable (h : Drawable p) (u : PositionUpdate) : Drawable (p.updateMapNode (positionJson u)) := by
  unfold Page.updateMapNode
  cases hdir : p.nodeDir with
  | none => exact h
  | some dir =>
    refine put_drawable (fun m js => h.located hdir) _ fun _ => ?_
    cases dir.get? (positionJson u).nodeNum <;> exact ⟨rfl, rfl⟩

/-- the other updates leave the coordinates alone -/
theorem updateNodeTelemetry_drawable (h : Drawable p) (tel : JsTelemetry) : Drawable (p.updateNodeTelemetry tel) := by
  unfold Page.updateNodeTelemetry
  cases hdir : p.nodeDir with
  | none => exact h
  | some dir =>
    exact put_drawable (fun m js => h.located hdir) _ (h.located_getD hdir tel.nodeNum (located_named _ _))

theorem updateNodeSignal_drawable (h : Drawable p) (sig : JsSignal) : Drawable (p.updateNodeSignal sig) := by
  unfold Page.updateNodeSignal
  cases hdir : p.nodeDir with
  | none => exact h
  | some dir =>
    exact put_drawable (fun m js => h.located hdir) _ (h.located_getD hdir sig.nodeNum (located_named _ _))

theorem updateNodeInfo_drawable (h : Drawable p) (info : JsInfo) : Drawable (p.updateNodeInfo info) := by
  unfold Page.updateNodeInfo
  cases hdir : p.nodeDir with
  | none => exact put_drawable (fun m js hjs => by cases hjs) _ located_empty
  | some dir => exact put_drawable (fun m js => h.located hdir) _ (h.located_getD hdir info.nodeNum located_empty)

theorem onNodeFavorite_drawable (h : Drawable p) (n : UInt32) (isFavorite : Bool) :
    Drawable (p.onNodeFavorite n isFavorite) := by
  unfold Page.onNodeFavorite
  cases hdir : p.nodeDir with
  | none => exact h
  | some dir =>
    simp only
    split_ifs
    · exact h
    · cases hget : dir.get? n with
      | none => exact h
      | some e =>
        have hloc : Located e := h.located hdir hget
        exact set_drawable (fun m js => h.located hdir) n (show Located { e with isFavorite := some isFavorite } from hloc)
          rfl

/-- a directory of the server is drawable exactly when its nodes have a position or none -/
theorem drawable_map_iff {dir : Directory} (hdir : p.nodeDir = some (dir.map nodeJson)) :
    Drawable p ↔ AllPaired dir := by
  constructor
  · intro hdraw n e he
    have hget : (dir.map nodeJson).get? n = some (nodeJson e) := by rw [GoMap.get?_map, he, Option.map_some]
    exact (located_nodeJson e).1 (total_iff_located.1 (hdraw _ n _ hdir hget))
  · intro hpaired dir' n js hdir' hget
    cases hdir.symm.trans hdir'
    rw [GoMap.get?_map] at hget
    obtain ⟨e, he, rfl⟩ := Option.map_eq_some_iff.1 hget
    exact total_iff_located.2 ((located_nodeJson e).2 (hpaired n e he))

theorem receive_nodeDirectory_iff (h : Drawable p) (dir : Directory) :
    Drawable (p.receive (.nodeDirectory dir)) ↔ ServesPaired (.nodeDirectory dir) := by
  simp only [Page.receive, ServesPaired]
  cases hm : marshal (.nodeDirectory dir) with
  | none => simpa using h
  | some js =>
    have hjs : js = .nodeDirectory (dir.map nodeJson) := by
      simp only [marshal] at hm
      split_ifs at hm
      exact (Option.some.inj hm).symm
    subst hjs
    simp only [Option.isSome_some, forall_const]
    exact drawable_map_iff rfl

theorem receive_drawable_iff (h : Drawable p) (e : Event) : Drawable (p.receive e) ↔ ServesPaired e := by
  cases e with
  | nodeDirectory dir => exact receive_nodeDirectory_iff h dir
  | nodePositionUpdate u => exact iff_of_true (updateMapNode_drawable h u) trivial
  | nodeTelemetryUpdate u =>
    refine iff_of_true ?_ trivial
    simp only [Page.receive, marshal]
    split_ifs
    · exact updateNodeTelemetry_drawable h _
    · exact h
  | nodeSignalUpdate u =>
    refine iff_of_true ?_ trivial
    simp only [Page.receive, marshal]
    split_ifs
    · exact updateNodeSignal_drawable h _
    · exact h
  | nodeUpdate u => exact iff_of_true (updateNodeInfo_drawable h _) trivial
  | nodeFavorite n fav => exact iff_of_true (onNodeFavorite_drawable h n fav) trivial
  | message r => exact iff_of_true h trivial
  | chatMessage c => exact iff_of_true h trivial
  | tracerouteResult u => exact iff_of_true h trivial

end Handlers

/-! ## The dashboard -/

/-- what the JSON of a `Snapshot` can fail on; the messages are read before the directory -/
structure Snapshot where
  messages : List MessageRecord
  nodeDir : Directory

/-- a directory through `json.Marshal` and JSON.parse -/
def dirJson (dir : Directory) : Option (GoMap UInt32 JsNode) :=
  match marshal (.nodeDirectory dir) with
  | some (.nodeDirectory js) => some js
  | _ => none

/-- `snap.node_dir`, for a snapshot that can be marshalled -/
def Snapshot.nodeDirJson (snap : Snapshot) : Option (GoMap UInt32 JsNode) :=
  if snap.messages.all fun r => r.rxSnr.isFinite then dirJson snap.nodeDir else none

/-- a page in a browser, and its pause button -/
structure Board where
  page : Page
  paused : Bool

/-- handleDashboard sets `nodeDir` to the JSON of the directory, in an inline script. Where json.Marshal fails the script is a
syntax error, and app.js stops at the first name that it declares: there is no page. -/
def served (clock : ℕ → UInt32) (dir : Directory) : Option Board :=
  (dirJson dir).map fun js => ⟨⟨some js, clock, 0⟩, false⟩

inductive Input where
  /-- the full snapshot with which handleSSE starts a stream -/
  | metrics (snap : Snapshot)
  /-- the sampler's metrics event: it has no `node_dir` -/
  | delta
  | event (e : Event)
  /-- a click on the pause button -/
  | pause
  /-- the request of nodeAction('favorite') has been answered -/
  | favored (nodeNum : UInt32) (newFav : Bool)

/-- the handlers that do not ask for `paused` -/
def heardPaused : Event → Bool
  | .nodeDirectory _ | .nodeFavorite _ _ | .tracerouteResult _ => true
  | _ => false

/-- `nodeDir[numStr].is_favorite = newFav`, for a node that the page has -/
def favored (p : Page) (nodeNum : UInt32) (newFav : Bool) : Page :=
  match p.nodeDir with
  | none => p
  | some dir =>
    match dir.get? nodeNum with
    | none => p
    | some entry => { p with nodeDir := some (dir.set nodeNum { entry with isFavorite := some newFav }) }

namespace Board

/-- the metrics handler; JSON.parse throws on the empty data of a snapshot that cannot be marshalled -/
def updateMetricsUI (b : Board) (snap : Snapshot) : Board :=
  match snap.nodeDirJson with
  | none => b
  | some js => { b with page := { b.page with nodeDir := some js } }

def step (b : Board) : Input → Board
  | .metrics snap => if b.paused then b else b.updateMetricsUI snap
  | .delta => b
  | .event e => if b.paused && !heardPaused e then b else { b with page := b.page.receive e }
  | .pause => { b with paused := !b.paused }
  | .favored nodeNum newFav => { b with page := favored b.page nodeNum newFav }

end Board

/-- the input does not bring the page a directory with half a position -/
def Serves (b : Board) : Input → Prop
  | .metrics snap => b.paused = false → snap.nodeDirJson.isSome → AllPaired snap.nodeDir
  | .event e => ServesPaired e
  | _ => True

theorem dirJson_eq {dir : Directory} {js : GoMap UInt32 JsNode} (h : dirJson dir = some js) : js = dir.map nodeJson := by
  unfold dirJson at h
  simp only [marshal] at h
  split_ifs at h
  exact (Option.some.inj h).symm

theorem Snapshot.dirJson_of_nodeDirJson {snap : Snapshot} {js : GoMap UInt32 JsNode} (h : snap.nodeDirJson = some js) :
    dirJson snap.nodeDir = some js := by
  unfold Snapshot.nodeDirJson at h
  split_ifs at h
  exact h

theorem favored_drawable {p : Page} (h : Drawable p) (n : UInt32) (newFav : Bool) : Drawable (favored p n newFav) := by
  unfold favored
  cases hdir : p.nodeDir with
  | none => exact h
  | some dir =>
    simp only
    cases hget : dir.get? n with
    | none => exact h
    | some e =>
      have hloc : Located e := h.located hdir hget
      exact set_drawable (fun m js => h.located hdir) n (show Located { e with isFavorite := some newFav } from hloc) rfl

section Board

variable {b : Board}

theorem updateMetricsUI_drawable_iff (h : Drawable b.page) (snap : Snapshot) :
    Drawable (b.updateMetricsUI snap).page ↔ (snap.nodeDirJson.isSome → AllPaired snap.nodeDir) := by
  unfold Board.updateMetricsUI
  cases hjs : snap.nodeDirJson with
  | none => exact iff_of_true h fun hsome => absurd hsome (by decide)
  | some js =>
    have hmap : some js = some (snap.nodeDir.map nodeJson) := congrArg some (dirJson_eq (snap.dirJson_of_nodeDirJson hjs))
    simp only [Option.isSome_some, forall_const]
    exact drawable_map_iff hmap

/-- an event that a pause keeps from the page has no directory -/
theorem unheard_serves {e : Event} (h : heardPaused e = false) : ServesPaired e := by
  cases e with
  | nodeDirectory dir => cases h
  | _ => trivial

/-- **One input.** From a drawable page, exactly a directory with half a position leads to one that is not. -/
theorem step_drawable_iff (h : Drawable b.page) (i : Input) : Drawable (b.step i).page ↔ Serves b i := by
  cases i with
  | metrics snap =>
    simp only [Board.step, Serves]
    split_ifs with hpaused
    · exact iff_of_true h fun hlive => absurd (hpaused.symm.trans hlive) (by decide)
    · rw [updateMetricsUI_drawable_iff h snap]
      simp [hpaused]
  | delta => exact iff_of_true h trivial
  | event e =>
    simp only [Board.step, Serves]
    split_ifs with hdrop
    · rw [Bool.and_eq_true, Bool.not_eq_true'] at hdrop
      exact iff_of_true h (unheard_serves hdrop.2)
    · exact receive_drawable_iff h e
  | pause => exact iff_of_true h trivial
  | favored n newFav => exact iff_of_true (favored_drawable h n newFav) trivial

end Board

/-- the nodes are drawable all along exactly when every input leaves them so -/
theorem drawable_iff_along {b : Board} (h : Drawable b.page) (is : List Input) :
    (∀ js, js <+: is → Drawable (run Board.step b js).page) ↔ Along Board.step Serves b is := by
  refine prefixes_iff_along (I := fun b : Board => Drawable b.page) (fun _ h => h) ?_ ?_ h
  · intro b i h hi
    exact (step_drawable_iff h i).2 hi
  · intro b i h hne hdraw
    exact hne ((step_drawable_iff h i).1 hdraw)

/-- a served page has the nodes of its directory -/
theorem served_drawable_iff {clock : ℕ → UInt32} {dir : Directory} {b : Board} (hb : served clock dir = some b) :
    Drawable b.page ↔ AllPaired dir := by
  obtain ⟨js, hjs, rfl⟩ := Option.map_eq_some_iff.1 hb
  exact drawable_map_iff (congrArg some (dirJson_eq hjs))

/-- **The builders on server data.** A dashboard is served with a directory and then hears any events and metrics, is
paused and resumed, and toggles favourites. In every one of its states both builders are total on every node exactly
when neither the directory served nor one that the page takes over later has a node with exactly one coordinate zero. -/
theorem builders_total_iff (clock : ℕ → UInt32) (dir : Directory) {b : Board} (hb : served clock dir = some b)
    (is : List Input) :
    (∀ js, js <+: is → Drawable (run Board.step b js).page) ↔ AllPaired dir ∧ Along Board.step Serves b is := by
  constructor
  · intro h
    have hdraw : Drawable b.page := h [] List.nil_prefix
    exact ⟨(served_drawable_iff hb).1 hdraw, (drawable_iff_along hdraw is).1 h⟩
  · rintro ⟨hpaired, hserves⟩
    exact (drawable_iff_along ((served_drawable_iff hb).2 hpaired) is).2 hserves

/-- node 5 in the middle of the page, at one degree north and one degree east -/
def placed : Directory := GoMap.empty.set 5 { latitude := 10000000, longitude := 10000000 }

/-- the page of node 5 -/
def placedBoard : Board := ⟨⟨some (placed.map nodeJson), fun _ => 1, 0⟩, false⟩

theorem placed_paired : AllPaired placed := by
  intro n e he
  rw [placed, GoMap.get?_set] at he
  split_ifs at he
  · cases he
    exact iff_of_false (by decide) (by decide)
  · cases he

/-- a stream starts, the page is paused, and a second stream starts with a position on the equator, unheard -/
def placedInputs : List Input :=
  [.metrics ⟨[], placed⟩, .event (.nodeDirectory placed), .pause,
    .metrics ⟨[], GoMap.empty.set 5 { latitude := 0, longitude := 90000000 }⟩]

theorem builders_total_placed : Drawable (run Board.step placedBoard placedInputs).page := by
  have hserves : Along Board.step Serves placedBoard placedInputs := by
    refine ⟨?_, ?_, trivial, ?_, trivial⟩
    · exact fun _ _ => placed_paired
    · exact fun _ => placed_paired
    · exact fun hlive => absurd hlive (by decide)
  exact (builders_total_iff (fun _ => 1) placed rfl placedInputs).2 ⟨placed_paired, hserves⟩ _ (List.prefix_refl _)

/-- the store after a position on the equator, at nine degrees east, from node 5 -/
def onEquator : Metrics :=
  (Store.new 100).updateNodePosition 1
    { nodeNum := 5, latitude := 0, longitude := 90000000, altitude := 0, groundSpeed := 0, groundTrack := 0,
      satsInView := 0, positionTime := 0 }

/-- node 5 in the page that is then served has a longitude only, and neither builder has a result -/
theorem equator_undrawable :
    ∃ board e, served (fun _ => 1) onEquator.nodeDir = some board ∧ board.page.nodeDir.bind (·.get? 5) = some e ∧
      e.latitude = none ∧ e.longitude = some 90000000 ∧ ¬Total e ∧
      ∀ b ts, buildNodeRow b ts 5 e = none ∧ nodePopupHTML b ts 5 e = none := by
  have hlat : (nodeJson ((onEquator.nodeDir.get? 5).getD {})).latitude = none := rfl
  have hlon : (nodeJson ((onEquator.nodeDir.get? 5).getD {})).longitude = some 90000000 := rfl
  have hnot : ¬Located (nodeJson ((onEquator.nodeDir.get? 5).getD {})) := by
    intro h
    have hpos := h (by rw [hlon]; rfl)
    rw [hlat] at hpos
    cases hpos.1
  refine ⟨_, _, rfl, rfl, hlat, hlon, fun h => hnot (total_iff_located.1 h), fun b ts => ⟨?_, ?_⟩⟩
  · rw [← Option.not_isSome_iff_eq_none, buildNodeRow_isSome]
    exact hnot
  · rw [← Option.not_isSome_iff_eq_none, nodePopupHTML_isSome]
    exact hnot

end MeshProxy.Markup
