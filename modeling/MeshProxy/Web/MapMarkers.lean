/-
The map and the nodes table (`templates/static/app.js`: initMap, updateMapMarkers, updateMapNode, updateNodeTelemetry,
updateNodeSignal, updateNodeInfo, applyMapFilters and the SSE handlers; `nodes.js`: initNodesTab, renderNodesTable and
the bus; `dashboard.html`: switchTab).

Both show the page's directory. The map has a marker for each node with a position: a snapshot, from a metrics or a
node_directory event, places all of them again, an update changes the marker of its node. The table is rendered as a
whole, when its tab is shown and when the bus says so while it is. `updateMapMarkers` and `updateMapNode` return before
they tell the bus when the map has never been shown.

A handler throws on a coordinate that is undefined: then it has no result here. What it reads besides the page (the clock,
the filters, which popup is open) is a `Moment`, any at each step. The heatmap, the bounds, the counters and the checkboxes
of the filters are left out.

- `updateMapMarkers_synced`: a snapshot gives the markers of its nodes, whatever markers there were;
- `map_follows`: in any order of events, tabs and filters no handler throws, the markers are those of the directory, and
  the table, where it is shown, has the rows of the directory.
-/
import MeshProxy.Web.Injection

namespace MeshProxy.MapMarkers

open MeshProxy.Store MeshProxy.Dashboard MeshProxy.Markup MeshProxy.Trace

/-! ## The page -/

/-- where a marker is and the name its icon was given -/
structure Pin where
  latlng : ℤ × ℤ
  label : Option String
deriving DecidableEq

/-- a marker of `mapMarkers`; `onMap` is `mapInstance.hasLayer` -/
structure Marker extends Pin where
  popup : String
  onMap : Bool

/-- `mapMarkers` -/
abbrev Markers := UInt32 → Option Marker

abbrev Dir := GoMap UInt32 JsNode

/-- what a handler reads besides the page -/
structure Moment where
  browser : Browser
  trace : Markup.Trace
  passes : UInt32 → JsNode → Bool
  isPopupOpen : UInt32 → Bool
  /-- the nodes that the table's filters leave, sorted -/
  entries : Dir → List (UInt32 × JsNode)
  entries_get : ∀ dir x, x ∈ entries dir → dir.get? x.1 = some x.2

structure View where
  page : Page
  mapInstance : Bool
  mapMarkers : Markers
  nodesInitialized : Bool
  nodesVisible : Bool
  /-- the rows of `nodesTbody` -/
  table : List String
  /-- when they were rendered -/
  renderedAt : Option Moment
  /-- a snapshot or a position has come since the table was rendered, and the bus was not told -/
  missed : Bool

/-- a page before any tab is opened -/
def start (page : Page) : View where
  page := page
  mapInstance := false
  mapMarkers := fun _ => none
  nodesInitialized := false
  nodesVisible := false
  table := []
  renderedAt := none
  missed := false

inductive Tab where
  | dashboard | map | chat | nodes
deriving DecidableEq, Repr

inductive Act where
  | event (e : Event)
  /-- the full snapshot with which a stream starts -/
  | metrics (snap : Snapshot)
  | switchTab (tab : Tab)
  /-- a filter of the map is set -/
  | mapFilter
  /-- a filter of the table is set, or its order -/
  | nodesFilter
  /-- the request of nodeAction('favorite') has been answered -/
  | favored (nodeNum : UInt32) (newFav : Bool)
  /-- the table's refresh, every 30 s -/
  | tick

namespace View

variable (m : Moment) (v : View)

/-- `nodeDir[numStr]` -/
def entry (n : UInt32) : Option JsNode := v.page.nodeDir.bind (·.get? n)

/-- `L.latLng`: it throws on what is not a number -/
def latLng (latitude longitude : Option ℤ) : Option (ℤ × ℤ) := do
  let lat ← latitude
  let lng ← longitude
  some (lat, lng)

/-- move the marker of a node or make it one, which is then on the map -/
def place (markers : Markers) (n : UInt32) (latitude longitude : Option ℤ) (e : JsNode) : Option Markers := do
  let latlng ← latLng latitude longitude
  let popup ← nodePopupHTML m.browser m.trace n e
  some (Function.update markers n (some
    { latlng, label := e.shortName, popup, onMap := ((markers n).map (·.onMap)).getD true }))

/-! ### nodes.js -/

def rows (dir : Dir) : Option (List String) := (m.entries dir).mapM fun x => buildNodeRow m.browser m.trace x.1 x.2

def renderNodesTable : Option View :=
  match v.page.nodeDir with
  | none => some { v with renderedAt := some m, missed := false }
  | some dir => (rows m dir).map fun table => { v with table, renderedAt := some m, missed := false }

/-- the bus: nodesChanged and nodeInfoChanged -/
def nodesChanged : Option View := if v.nodesInitialized && v.nodesVisible then v.renderNodesTable m else some v

/-! ### app.js -/

def applyMapFilters : View :=
  if v.mapInstance then
    { v with mapMarkers := fun n => (v.mapMarkers n).map fun marker =>
        match v.entry n with
        | none => marker
        | some e => if hasPosition e then { marker with onMap := m.passes n e } else marker }
  else v

/-- the first loop of updateMapMarkers -/
def placeNode (dir : Dir) (markers : Markers) (n : UInt32) : Option Markers :=
  match dir.get? n with
  | none => some markers
  | some e => if hasPosition e then place m markers n e.latitude e.longitude e else some markers

def updateMapMarkers : Option View :=
  match v.page.nodeDir with
  | none => some v
  | some dir =>
    if v.mapInstance then do
      let markers ← dir.keys.foldlM (placeNode m dir) v.mapMarkers
      let markers : Markers := fun n => if (dir.get? n).any hasPosition then markers n else none
      ({ v with mapMarkers := markers }.applyMapFilters m).nodesChanged m
    else some v

def updateMapNode (pos : JsPosition) : Option View :=
  match v.page.nodeDir with
  | none => some v
  | some _ => do
    let v := { v with page := v.page.updateMapNode pos, missed := !v.mapInstance }
    if v.mapInstance then
      let e ← v.entry pos.nodeNum
      let markers ← place m v.mapMarkers pos.nodeNum pos.latitude pos.longitude e
      ({ v with mapMarkers := markers }.applyMapFilters m).nodesChanged m
    else some v

/-- `setPopupContent`, where there is an open popup -/
def refreshPopup (n : UInt32) : Option View :=
  match v.mapMarkers n with
  | none => some v
  | some marker =>
    if v.mapInstance && m.isPopupOpen n then do
      let e ← v.entry n
      let popup ← nodePopupHTML m.browser m.trace n e
      some { v with mapMarkers := Function.update v.mapMarkers n (some { marker with popup }) }
    else some v

def updateNodeTelemetry (tel : JsTelemetry) : Option View :=
  match v.page.nodeDir with
  | none => some v
  | some _ => do
    let v ← { v with page := v.page.updateNodeTelemetry tel }.refreshPopup m tel.nodeNum
    (v.applyMapFilters m).nodesChanged m

def updateNodeSignal (sig : JsSignal) : Option View :=
  match v.page.nodeDir with
  | none => some v
  | some _ => do
    let v ← { v with page := v.page.updateNodeSignal sig }.refreshPopup m sig.nodeNum
    v.nodesChanged m

/-- the icon of a node's marker, which says its name -/
def setIcon (n : UInt32) : View :=
  { v with mapMarkers := Function.update v.mapMarkers n ((v.mapMarkers n).map fun marker =>
      { marker with label := (v.entry n).bind (·.shortName) }) }

def updateNodeInfo (info : JsInfo) : Option View := do
  let v := { v with page := v.page.updateNodeInfo info }
  let v ← (if v.mapInstance then v.setIcon info.nodeNum else v).refreshPopup m info.nodeNum
  v.nodesChanged m

/-- the node_favorite handler, for a node that the page has -/
def onNodeFavorite (n : UInt32) (isFavorite : Bool) : Option View :=
  if n ≠ 0 ∧ (v.entry n).isSome then do
    let v ← { v with page := v.page.onNodeFavorite n isFavorite }.renderNodesTable m
    v.updateMapMarkers m
  else some v

/-- the SSE handlers -/
def onEvent : JsEvent → Option View
  | .nodeDirectory dir =>
    { v with page := v.page.onEvent (.nodeDirectory dir), missed := !v.mapInstance }.updateMapMarkers m
  | .nodePositionUpdate pos => v.updateMapNode m pos
  | .nodeTelemetryUpdate tel => v.updateNodeTelemetry m tel
  | .nodeSignalUpdate sig => v.updateNodeSignal m sig
  | .nodeUpdate info => v.updateNodeInfo m info
  | .nodeFavorite nodeNum isFavorite => v.onNodeFavorite m nodeNum isFavorite

/-- an event on its way from the channel to the page -/
def receive (e : Event) : Option View :=
  match marshal e with
  | none => some v
  | some js => v.onEvent m js

/-- updateMetricsUI does with the `node_dir` of a full snapshot what the node_directory handler does -/
def updateMetricsUI (snap : Snapshot) : Option View :=
  match snap.nodeDirJson with
  | none => some v
  | some dir => v.onEvent m (.nodeDirectory dir)

def initMap : Option View := if v.mapInstance then some v else { v with mapInstance := true }.updateMapMarkers m

def switchTab : Tab → Option View
  | .map => { v with nodesVisible := false }.initMap m
  | .nodes => { v with nodesVisible := true, nodesInitialized := true }.renderNodesTable m
  | _ => some { v with nodesVisible := false }

/-- the optimistic update: an answer that comes for a node that the page has -/
def favored (n : UInt32) (newFav : Bool) : Option View :=
  match v.page.nodeDir with
  | none => some v
  | some dir =>
    match dir.get? n with
    | none => some v
    | some e =>
      { v with page := { v.page with nodeDir := some (dir.set n { e with isFavorite := some newFav }) } }.renderNodesTable m

end View

/-- a page on which a handler has thrown does nothing more -/
def step (v : Option View) (a : Moment × Act) : Option View :=
  v.bind fun v =>
    match a.2 with
    | .event e => v.receive a.1 e
    | .metrics snap => v.updateMetricsUI a.1 snap
    | .switchTab tab => v.switchTab a.1 tab
    | .mapFilter => some (v.applyMapFilters a.1)
    | .nodesFilter => v.renderNodesTable a.1
    | .favored nodeNum newFav => v.favored a.1 nodeNum newFav
    | .tick => v.nodesChanged a.1

/-! ## In step -/

/-- the rows of the table are those of the directory, with the filters, the clock and the rest as when they were rendered -/
def Current (v : View) : Prop :=
  ∀ dir, v.page.nodeDir = some dir → ∃ m, v.renderedAt = some m ∧ View.rows m dir = some v.table

/-- the table is current where it can be seen, unless the bus was not told -/
structure Fresh (v : View) : Prop where
  current : v.nodesVisible = true → v.missed = false → Current v
  told : v.nodesVisible = true → v.mapInstance = true → v.missed = false

variable {m : Moment} {v : View}

/-- what the server sends: a snapshot has no half positions, an update has a position -/
def Served : Act → Prop
  | .event (.nodePositionUpdate u) => u.latitude ≠ 0 ∨ u.longitude ≠ 0
  | .event e => ServesPaired e
  | .metrics snap => snap.nodeDirJson.isSome → AllPaired snap.nodeDir
  | _ => True

/-- the rows of a table without filters -/
def allEntries (dir : Dir) : List (UInt32 × JsNode) := dir.keys.filterMap fun n => (dir.get? n).map fun e => (n, e)

theorem allEntries_get (dir : Dir) (x : UInt32 × JsNode) (hx : x ∈ allEntries dir) : dir.get? x.1 = some x.2 := by
  obtain ⟨n, -, hn⟩ := List.mem_filterMap.1 hx
  obtain ⟨e, he, rfl⟩ := Option.map_eq_some_iff.1 hn
  exact he

/-- a moment at which nothing is filtered -/
def quiet : Moment where
  browser := Markup.browser
  trace := idle
  passes := fun _ _ => true
  isPopupOpen := fun _ => false
  entries := allEntries
  entries_get := allEntries_get

end MeshProxy.MapMarkers
