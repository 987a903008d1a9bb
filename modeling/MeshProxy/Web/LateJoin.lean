/-
A dashboard that is opened while the directory changes (`internal/web/server.go`: handleSSE; `internal/metrics`:
node_directory.go, pubsub.go; `templates/static/app.js`: the SSE handlers).

handleSSE subscribes first and reads the directory afterwards, so an update in between is in what it reads and once more in
the channel. A "node_directory" event carries the live map, so what is written for it may be ahead of the events behind it.
Either way the page is given some updates twice. Calls that change the directory come one after the other here, the change
and the publication as two steps, with events of other kinds in between, and the handler's steps fall anywhere. The page is
not paused and reads what is written in order. `replaced` are the maps that were the directory before. `lost` notes that the
channel was full when an event about the directory came; it is for the statements only.

The page's side of an event is an edit of its directory (Core.Replay), by the fields that the event brings.
- `onEvent_shown`, `call_held`: an event edits the page's directory as its call edits the server's;
- `step_inv`: what is on its way leads the page to the server's directory;
- `late_page_mirrors`: so the page mirrors the server once it is up to date, whenever it joined.
-/
import MeshProxy.Core.Replay
import MeshProxy.Web.Dashboard

namespace MeshProxy.LateJoin

open MeshProxy.Store MeshProxy.Dashboard MeshProxy.Replay MeshProxy.Trace MeshProxy.Binary32

/-! ## Events as edits -/

/-- the fields that an object has, over an entry; last_heard stays -/
def patch (j : JsNode) (w : NodeEntry) : NodeEntry where
  shortName := j.shortName.getD w.shortName
  longName := j.longName.getD w.longName
  userID := j.userID.getD w.userID
  hwModel := j.hwModel.getD w.hwModel
  role := j.role.getD w.role
  isLicensed := j.isLicensed.getD w.isLicensed
  snr := j.snr.getD w.snr
  lastHeard := w.lastHeard
  hopsAway := j.hopsAway.getD w.hopsAway
  viaMqtt := j.viaMqtt.getD w.viaMqtt
  isFavorite := j.isFavorite.getD w.isFavorite
  channel := j.channel.getD w.channel
  latitude := j.latitude.getD w.latitude
  longitude := j.longitude.getD w.longitude
  altitude := j.altitude.getD w.altitude
  groundSpeed := j.groundSpeed.getD w.groundSpeed
  groundTrack := j.groundTrack.getD w.groundTrack
  satsInView := j.satsInView.getD w.satsInView
  positionTime := j.positionTime.getD w.positionTime
  batteryLevel := j.batteryLevel.getD w.batteryLevel
  voltage := j.voltage.getD w.voltage
  channelUtilization := j.channelUtilization.getD w.channelUtilization
  airUtilTx := j.airUtilTx.getD w.airUtilTx
  uptimeSeconds := j.uptimeSeconds.getD w.uptimeSeconds
  temperature := j.temperature.getD w.temperature
  relativeHumidity := j.relativeHumidity.getD w.relativeHumidity
  barometricPressure := j.barometricPressure.getD w.barometricPressure
  rxRssi := j.rxRssi.getD w.rxRssi
  rxSnr := j.rxSnr.getD w.rxSnr
  seenRealtime := j.seenRealtime.getD w.seenRealtime

theorem getD_twice {α : Type} (o : Option α) (x : α) : o.getD (o.getD x) = o.getD x := by cases o <;> rfl

theorem getD_again {α : Type} (o p : Option α) (x : α) : o.getD (p.getD (o.getD x)) = o.getD (p.getD x) := by
  cases o <;> rfl

theorem patch_overwrites : Overwrites patch where
  twice := fun f x => by simp only [patch, getD_twice]
  again := fun f g x => by simp only [patch, getD_again]

section Fields

variable {α : Type} [JsonValue α]

/-- a field that is assigned if it is truthy -/
def written (x : Option α) : Option α := if truthy x then x else none

theorem readField_assignIf_written (x y : Option α) : readField (assignIf x y) = (written x).getD (readField y) := by
  unfold assignIf written
  split_ifs with hx
  · cases x with
    | none => cases hx
    | some v => rfl
  · rfl

end Fields

/-- the fields that each handler assigns -/
def movedFields (pos : JsPosition) : JsNode where
  latitude := some (readField pos.latitude)
  longitude := some (readField pos.longitude)
  altitude := some (readField pos.altitude)
  groundSpeed := written pos.groundSpeed
  groundTrack := written pos.groundTrack
  satsInView := written pos.satsInView
  positionTime := written pos.positionTime
  seenRealtime := some true

def measuredFields (tel : JsTelemetry) : JsNode where
  batteryLevel := written tel.batteryLevel
  voltage := written tel.voltage
  channelUtilization := written tel.channelUtilization
  airUtilTx := written tel.airUtilTx
  uptimeSeconds := written tel.uptimeSeconds
  temperature := written tel.temperature
  relativeHumidity := written tel.relativeHumidity
  barometricPressure := written tel.barometricPressure
  seenRealtime := some true

def heardFields (sig : JsSignal) : JsNode where
  rxRssi := written sig.rxRssi
  rxSnr := written sig.rxSnr
  seenRealtime := some true

def namedFields (info : JsInfo) : JsNode where
  shortName := written info.shortName
  longName := written info.longName
  userID := written info.userID
  hwModel := written info.hwModel
  role := written info.role
  isLicensed := some (readField (orElse info.isLicensed false))
  seenRealtime := some true

theorem view_movedNode (p : Page) (pos : JsPosition) (js : JsNode) :
    view (p.movedNode pos (some js)) = patch (movedFields pos) (view js) := by
  simp only [view, Page.movedNode, patch, movedFields, readField_assignIf_written, Option.getD_some, Option.getD_none]
  rfl

theorem view_measuredNode (p : Page) (tel : JsTelemetry) (js : JsNode) :
    view (p.measuredNode tel js) = patch (measuredFields tel) (view js) := by
  simp only [view, Page.measuredNode, patch, measuredFields, readField_assignIf_written, Option.getD_some,
    Option.getD_none]
  rfl

theorem view_heardNode (p : Page) (sig : JsSignal) (js : JsNode) :
    view (p.heardNode sig js) = patch (heardFields sig) (view js) := by
  simp only [view, Page.heardNode, patch, heardFields, readField_assignIf_written, Option.getD_some, Option.getD_none]
  rfl

theorem view_namedNode (p : Page) (info : JsInfo) (js : JsNode) :
    view (p.namedNode info js) = patch (namedFields info) (view js) := by
  simp only [view, Page.namedNode, patch, namedFields, readField_assignIf_written, Option.getD_some, Option.getD_none]
  rfl

/-- a node that the page does not have is made of the names in the event, or of nothing; a favourite is not made -/
def editOf : JsEvent → Option (Edit UInt32 NodeEntry JsNode)
  | .nodeDirectory _ => none
  | .nodePositionUpdate pos =>
    some (.touch pos.nodeNum (view { shortName := pos.shortName, longName := pos.longName }) (movedFields pos))
  | .nodeTelemetryUpdate tel =>
    some (.touch tel.nodeNum (view { shortName := tel.shortName, longName := tel.longName }) (measuredFields tel))
  | .nodeSignalUpdate sig =>
    some (.touch sig.nodeNum (view { shortName := sig.shortName, longName := sig.longName }) (heardFields sig))
  | .nodeUpdate info => some (.touch info.nodeNum (view {}) (namedFields info))
  | .nodeFavorite nodeNum isFavorite =>
    some (.amend nodeNum (if nodeNum = 0 then {} else { isFavorite := some isFavorite }))

/-! ## Both sides -/

/-- the page's directory, and the server's as JSON shows it -/
def shown (p : Page) (n : UInt32) : Option NodeEntry := (p.nodeDir.bind fun js => js.get? n).map view

def held (dir : Directory) (n : UInt32) : Option NodeEntry := (dir.get? n).map fun e => view (nodeJson e)

theorem mirrors_iff {dir : Directory} {p : Page} : Mirrors dir p ↔ p.nodeDir.isSome ∧ shown p = held dir := by
  constructor
  · intro hm
    obtain ⟨js, hjs, hget⟩ := hm
    refine ⟨by rw [hjs]; rfl, funext fun n => ?_⟩
    rw [shown, hjs]
    exact hget n
  · intro hm
    obtain ⟨hsome, hall⟩ := hm
    obtain ⟨js, hjs⟩ := Option.isSome_iff_exists.1 hsome
    refine ⟨js, hjs, fun n => ?_⟩
    have hn := congrFun hall n
    rw [shown, hjs] at hn
    exact hn

/-- a page that puts an object into its directory -/
theorem shown_put {p : Page} {dir : GoMap UInt32 JsNode} (hp : p.nodeDir = some dir) (n : UInt32) (js : JsNode) :
    shown (p.put dir n js) = Function.update (shown p) n (some (view js)) := by
  funext k
  simp only [shown, Page.put, hp, Option.bind_some, GoMap.get?_set, Function.update_apply]
  split_ifs <;> rfl

/-- what the page has of a node, or what it falls back on -/
theorem view_getD {p : Page} {dir : GoMap UInt32 JsNode} (hp : p.nodeDir = some dir) (n : UInt32) (base : JsNode) :
    view ((dir.get? n).getD base) = (shown p n).getD (view base) := by
  rw [shown, hp, Option.bind_some]
  cases dir.get? n <;> rfl

/-- the favourite of a node that the page has, and whose number is not 0 -/
theorem onNodeFavorite_shown {p : Page} {dir : GoMap UInt32 JsNode} (hp : p.nodeDir = some dir) (n : UInt32) (fav : Bool) :
    (p.onNodeFavorite n fav).nodeDir.isSome ∧ shown (p.onNodeFavorite n fav) =
      edit patch (shown p) (.amend n (if n = 0 then {} else { isFavorite := some fav })) := by
  have hsame : Function.update (shown p) n (shown p n) = shown p := Function.update_eq_self n (shown p)
  simp only [Page.onNodeFavorite, hp, edit]
  split_ifs with hn
  · have hid : patch {} = id := rfl
    rw [hid, Option.map_id_fun, id, hsame]
    exact ⟨by rw [hp]; rfl, rfl⟩
  · cases hget : dir.get? n with
    | none =>
      have hnone : shown p n = none := by rw [shown, hp, Option.bind_some, hget]; rfl
      rw [hnone, Option.map_none, ← hnone, hsame]
      exact ⟨by rw [hp]; rfl, rfl⟩
    | some entry =>
      have hsome : shown p n = some (view entry) := by rw [shown, hp, Option.bind_some, hget]; rfl
      refine ⟨rfl, funext fun k => ?_⟩
      rw [hsome]
      simp only [shown, hp, Option.bind_some, GoMap.get?_set, Function.update_apply, Option.map_some]
      split_ifs <;> rfl

/-- **An event is an edit** of a directory that the page has. -/
theorem onEvent_shown {p : Page} (hp : p.nodeDir.isSome) {js : JsEvent} {a : Edit UInt32 NodeEntry JsNode}
    (ha : editOf js = some a) : (p.onEvent js).nodeDir.isSome ∧ shown (p.onEvent js) = edit patch (shown p) a := by
  obtain ⟨dir, hdir⟩ := Option.isSome_iff_exists.1 hp
  cases js with
  | nodeDirectory d => cases ha
  | nodePositionUpdate pos =>
    cases ha
    simp only [Page.onEvent, Page.updateMapNode, hdir]
    refine ⟨rfl, ?_⟩
    rw [shown_put hdir, moved_base, view_movedNode, view_getD hdir]
    rfl
  | nodeTelemetryUpdate tel =>
    cases ha
    simp only [Page.onEvent, Page.updateNodeTelemetry, hdir]
    refine ⟨rfl, ?_⟩
    rw [shown_put hdir, view_measuredNode, view_getD hdir]
    rfl
  | nodeSignalUpdate sig =>
    cases ha
    simp only [Page.onEvent, Page.updateNodeSignal, hdir]
    refine ⟨rfl, ?_⟩
    rw [shown_put hdir, view_heardNode, view_getD hdir]
    rfl
  | nodeUpdate info =>
    cases ha
    simp only [Page.onEvent, Page.updateNodeInfo, hdir, Option.getD_some]
    refine ⟨rfl, ?_⟩
    rw [shown_put hdir, view_namedNode, view_getD hdir]
    rfl
  | nodeFavorite n fav =>
    cases ha
    exact onNodeFavorite_shown hdir n fav

/-- a new directory -/
theorem onEvent_directory {dir : Directory} (hdir : ∀ n e, dir.get? n = some e → e.Finite) :
    ∃ js, marshal (.nodeDirectory dir) = some js ∧
      ∀ p : Page, (p.onEvent js).nodeDir.isSome ∧ shown (p.onEvent js) = held dir := by
  cases hjs : marshal (.nodeDirectory dir) with
  | none =>
    have hm := (mirrors_iff.1 (nodeDirectory_mirrors hdir ⟨none, fun _ => 0, 0⟩)).1
    simp [Page.receive, hjs] at hm
  | some js =>
    refine ⟨js, rfl, fun p => ?_⟩
    have hm := mirrors_iff.1 (nodeDirectory_mirrors hdir p)
    simpa only [Page.receive, hjs] using hm

/-- what an update publishes: nothing, if it changes nothing, or one event, which is an edit -/
theorem emits_cases (m : Metrics) {c : Call} (hc : Update c) :
    emits m c = [] ∧ (call m c).nodeDir = m.nodeDir ∨
      ∃ e js a, emits m c = [e] ∧ marshal e = some js ∧ editOf js = some a ∧ Grounded (held m.nodeDir) a := by
  cases c with
  | setNodeDirectory dir => exact absurd rfl (hc.1 dir)
  | updateNodePosition now u => exact .inr ⟨_, _, _, List.drop_left, rfl, rfl, trivial⟩
  | updateNodeTelemetry now u => exact .inr ⟨_, _, _, List.drop_left, if_pos hc.2, rfl, trivial⟩
  | updateNodeSignal now u => exact .inr ⟨_, _, _, List.drop_left, if_pos hc.2, rfl, trivial⟩
  | upsertNode now u => exact .inr ⟨_, _, _, List.drop_left, rfl, rfl, trivial⟩
  | setFavorite n fav =>
    cases he : m.nodeDir.get? n with
    | none =>
      have hset : (m.setFavorite n fav).1 = m := by simp [Metrics.setFavorite, he]
      exact .inl ⟨by simp [emits, call, hset], by rw [call, hset]⟩
    | some e =>
      have hemit : emits m (.setFavorite n fav) = [.nodeFavorite n fav] := by
        simp [emits, call, Metrics.setFavorite, he, Metrics.publish]
      exact .inr ⟨_, _, _, hemit, rfl, rfl, by simp [Grounded, held, he]⟩

/-- **An update is the edit that it publishes**, where the two sides agree on it. -/
theorem call_held {m : Metrics} {c : Call} (hc : Update c) (hagree : Agreeing m c) :
    emits m c = [] ∧ (call m c).nodeDir = m.nodeDir ∨
      ∃ e js a, emits m c = [e] ∧ marshal e = some js ∧ editOf js = some a ∧ Grounded (held m.nodeDir) a ∧
        held (call m c).nodeDir = edit patch (held m.nodeDir) a := by
  rcases emits_cases m hc with hnone | ⟨e, js, a, hemit, hjs, ha, hground⟩
  · exact .inl hnone
  · refine .inr ⟨e, js, a, hemit, hjs, ha, hground, ?_⟩
    -- a page that mirrors the server still does after the event
    let p : Page := ⟨some (m.nodeDir.map nodeJson), fun _ => 0, 0⟩
    have hp : Mirrors m.nodeDir p := ⟨_, rfl, fun n => by rw [GoMap.get?_map, Option.map_map]; rfl⟩
    have hafter := (receive_mirrors hc hp).2 hagree
    rw [hemit] at hafter
    have hevent : p.receiveAll [e] = p.onEvent js := by simp [Page.receiveAll, Page.receive, hjs]
    rw [hevent] at hafter
    calc held (call m c).nodeDir
        = shown (p.onEvent js) := (mirrors_iff.1 hafter).2.symm
      _ = edit patch (shown p) a := (onEvent_shown (mirrors_iff.1 hp).1 ha).2
      _ = edit patch (held m.nodeDir) a := by rw [(mirrors_iff.1 hp).2]

/-! ## The machine -/

/-- an event in the channel; a directory event carries its map, and some events are not about the directory -/
inductive Queued where
  | directory (map : ℕ)
  | update (e : Event)
  | other

@[simp] def Queued.ours : Queued → Bool
  | .directory _ => true
  | .update _ => true
  | .other => false

def sseBufferSize : ℕ := 64

structure St where
  metrics : Metrics
  /-- the map that is the directory, and what the earlier ones hold -/
  map : ℕ
  replaced : ℕ → Directory
  /-- what the call under way has still to publish -/
  pending : Option Queued
  /-- the handler's channel, none before Subscribe, and the event it has taken -/
  channel : Option (List Queued)
  taken : Option Queued
  /-- the handler has written the opening directory -/
  opened : Bool
  /-- the events about the directory that it has written -/
  written : List JsEvent
  lost : Bool

/-- a page that is not there yet -/
def start (m : Metrics) : St := ⟨m, 0, fun _ => .empty, none, none, none, false, [], false⟩

/-- `other` is the publication of an event of another kind -/
inductive Act where
  | call (c : Call)
  | publish
  | other
  | subscribe
  | open_
  | take
  | marshal

namespace St

/-- the JSON of an event when it is marshalled -/
def json (s : St) : Queued → Option JsEvent
  | .directory k => Dashboard.marshal (.nodeDirectory (if k = s.map then s.metrics.nodeDir else s.replaced k))
  | .update e => Dashboard.marshal e
  | .other => none

def write (s : St) (js : Option JsEvent) : St := { s with written := s.written ++ js.toList }

/-- the directory under its lock; SetNodeDirectory makes another map the directory -/
def call (s : St) (c : Call) : St :=
  let s' := { s with metrics := Store.call s.metrics c }
  match c with
  | .setNodeDirectory _ =>
    { s' with
      map := s.map + 1
      replaced := Function.update s.replaced s.map s.metrics.nodeDir
      pending := some (.directory (s.map + 1)) }
  | _ => { s' with pending := (emits s.metrics c).head?.map .update }

/-- the event of the call, to a channel that may be full or not there -/
def publish (s : St) : St :=
  match s.pending, s.channel with
  | some q, some qs =>
    if qs.length < sseBufferSize then { s with channel := some (qs ++ [q]), pending := none }
    else { s with pending := none, lost := true }
  | _, _ => { s with pending := none }

/-- an event of another kind takes a place in the channel, if there is one -/
def publishOther (s : St) : St :=
  { s with channel := s.channel.map fun qs => if qs.length < sseBufferSize then qs ++ [.other] else qs }

/-- the events about the directory that are on their way -/
def queue (s : St) : List Queued := (s.taken.toList ++ s.channel.getD [] ++ s.pending.toList).filter Queued.ours

/-- a page that was there before, with what has been written to it -/
def page (s : St) (p : Page) : Page := s.written.foldl Page.onEvent p

/-- the events on their way, as they would be marshalled now -/
def coming (s : St) : List JsEvent := s.queue.filterMap s.json

end St

/-- a call begins when the one before has published -/
def step (s : St) : Act → St
  | .call c => if s.pending.isSome then s else s.call c
  | .publish => s.publish
  | .other => s.publishOther
  | .subscribe => if s.channel.isSome then s else { s with channel := some [] }
  | .open_ =>
    if s.channel.isSome ∧ s.opened = false then { s.write (s.json (.directory s.map)) with opened := true } else s
  | .take =>
    match s.opened, s.taken, s.channel with
    | true, none, some (q :: qs) => { s with taken := some q, channel := some qs }
    | _, _, _ => s
  | .marshal =>
    match s.taken with
    | none => s
    | some q => { s.write (s.json q) with taken := none }

/-- what is asked of a call: finite values, and that the page can follow it -/
def Served (s : St) : Act → Prop
  | .call c =>
    s.pending = none →
      match c with
      | .setNodeDirectory dir => ∀ n e, dir.get? n = some e → e.Finite
      | c => FiniteValues c ∧ Agreeing s.metrics c
  | _ => True

/-! ## The invariant -/

theorem call_finite {m : Metrics} (h : m.Finite) {c : Call} (hc : Update c) : (Store.call m c).Finite := by
  cases c with
  | setNodeDirectory dir => exact absurd rfl (hc.1 dir)
  | updateNodePosition now u => exact Metrics.updateNodePosition_finite h now u
  | updateNodeTelemetry now u =>
    have hu := hc.2
    simp only [FiniteValues, telemetryFloats, List.all_cons, List.all_nil, Bool.and_true, Bool.and_eq_true] at hu
    obtain ⟨hv, hch, ha, ht, hr, hb⟩ := hu
    have hinf {x : F32} (hx : x.isFinite = true) : x ≠ .posInf := by
      rintro rfl
      exact absurd hx (by decide)
    exact Metrics.updateNodeTelemetry_finite h now ⟨hinf hv, hinf hch, hinf ha, ht, hr, hb⟩
  | updateNodeSignal now u => exact Metrics.updateNodeSignal_finite h now hc.2
  | upsertNode now u => exact Metrics.upsertNode_finite h now u
  | setFavorite n fav =>
    cases he : m.nodeDir.get? n with
    | none => simpa [Store.call, Metrics.setFavorite, he] using h
    | some e =>
      simp only [Store.call, Metrics.setFavorite, he]
      apply Metrics.publish_finite
      refine ⟨h.messages, fun k e' hk => ?_, h.chat⟩
      simp only [GoMap.get?_set] at hk
      split_ifs at hk
      · cases hk
        exact h.directory n e he
      · exact h.directory k e' hk

abbrev Edits := List (Edit UInt32 NodeEntry JsNode)

/-- a waiting event that is an edit -/
def Carries (q : Queued) (a : Edit UInt32 NodeEntry JsNode) : Prop :=
  ∃ e js, q = .update e ∧ Dashboard.marshal e = some js ∧ editOf js = some a

/-- the events on their way: up to the last directory, which is the live map, and the updates after it. Since `d` these
updates have made the directory what it is, and they will do so to the page if no directory comes before them. -/
structure Way (p : Page) (s : St) (head tail : List Queued) (l : Edits) (d : UInt32 → Option NodeEntry) : Prop where
  queue : s.queue = head ++ tail
  last : head = [] ∨ ∃ earlier, head = earlier ++ [.directory s.map]
  carries : List.Forall₂ Carries tail l
  grounded : Along (edit patch) Grounded d l
  live : run (edit patch) d l = held s.metrics.nodeDir
  page : s.opened = true → head = [] →
    (s.page p).nodeDir.isSome ∧ run (edit patch) (shown (s.page p)) l = held s.metrics.nodeDir

structure Inv (p : Page) (s : St) : Prop where
  finite : s.metrics.Finite
  closed : s.channel = none → s.opened = false
  idle : s.opened = false → s.taken = none
  way : s.lost = false → ∃ head tail l d, Way p s head tail l d

section Steps

variable {p : Page} {s : St}

/-- the updates on their way change nothing on a page that shows the live directory already -/
theorem Way.again {head tail : List Queued} {l : Edits} {d : UInt32 → Option NodeEntry} (h : Way p s head tail l d)
    {p' : Page} (hp : shown p' = held s.metrics.nodeDir) : run (edit patch) (shown p') l = held s.metrics.nodeDir := by
  calc run (edit patch) (shown p') l
      = run (edit patch) (run (edit patch) d l) l := by rw [hp, h.live]
    _ = run (edit patch) d l := replay patch_overwrites h.grounded
    _ = held s.metrics.nodeDir := h.live

/-- the page goes through what is written -/
theorem page_write (p : Page) (s : St) (js : JsEvent) : (s.write (some js)).page p = (s.page p).onEvent js := by
  rw [St.page, St.write, Option.toList_some, List.foldl_append]
  rfl

theorem start_inv {m : Metrics} (hm : m.Finite) (p : Page) : Inv p (start m) where
  finite := hm
  closed := fun _ => rfl
  idle := fun _ => rfl
  way := fun _ => ⟨[], [], [], held m.nodeDir, rfl, .inl rfl, .nil, trivial, rfl, nofun⟩

/-- a step that leaves the store, what is on its way and what is written as they are -/
theorem Inv.frame {s' : St} (h : Inv p s) (hmetrics : s'.metrics = s.metrics) (hmap : s'.map = s.map)
    (hqueue : s'.queue = s.queue) (hwritten : s'.written = s.written) (hopened : s'.opened = s.opened)
    (hlost : s'.lost = false → s.lost = false) (hclosed : s'.channel = none → s.channel = none)
    (hidle : s'.opened = false → s'.taken = none) : Inv p s' := by
  refine ⟨by rw [hmetrics]; exact h.finite, fun hc => by rw [hopened]; exact h.closed (hclosed hc), hidle, fun hl => ?_⟩
  obtain ⟨head, tail, l, d, hway⟩ := h.way (hlost hl)
  have hpage : s'.page p = s.page p := by rw [St.page, St.page, hwritten]
  refine ⟨head, tail, l, d, hqueue.trans hway.queue, ?_, hway.carries, hway.grounded, ?_, ?_⟩
  · rw [hmap]
    exact hway.last
  · rw [hmetrics]
    exact hway.live
  · rw [hopened, hpage, hmetrics]
    exact hway.page

/-- SetNodeDirectory: the new map is the last directory on its way -/
theorem replace_inv (h : Inv p s) (hpending : s.pending = none) {dir : Directory}
    (hdir : ∀ n e, dir.get? n = some e → e.Finite) : Inv p (s.call (.setNodeDirectory dir)) where
  finite := Metrics.setNodeDirectory_finite h.finite hdir
  closed := h.closed
  idle := h.idle
  way := by
    intro _
    refine ⟨s.queue ++ [.directory (s.map + 1)], [], [], _, ?_, .inr ⟨s.queue, rfl⟩, .nil, trivial, rfl, ?_⟩
    · simp [St.queue, St.call, hpending]
    · intro _ hnone
      simp at hnone

/-- an update: one more edit, or nothing -/
theorem update_inv (h : Inv p s) (hpending : s.pending = none) {c : Call} (hc : Update c) (hagree : Agreeing s.metrics c) :
    Inv p (s.call c) := by
  have hcall : s.call c =
      { s with metrics := Store.call s.metrics c, pending := (emits s.metrics c).head?.map .update } := by
    cases c with
    | setNodeDirectory dir => exact absurd rfl (hc.1 dir)
    | _ => rfl
  rw [hcall]
  refine ⟨call_finite h.finite hc, h.closed, h.idle, fun hlost => ?_⟩
  obtain ⟨head, tail, l, d, hway⟩ := h.way hlost
  rcases call_held hc hagree with ⟨hnone, hsame⟩ | ⟨e, js, a, hemit, hjs, ha, hground, hheld⟩
  · refine ⟨head, tail, l, d, ?_, hway.last, hway.carries, hway.grounded, ?_, ?_⟩
    · simpa [St.queue, hnone, hpending] using hway.queue
    · exact hway.live.trans (by rw [hsame])
    · rw [hsame]
      exact hway.page
  · refine ⟨head, tail ++ [.update e], l ++ [a], d, ?_, hway.last, ?_, ?_, ?_, ?_⟩
    · have hqueue := hway.queue
      rw [St.queue, hpending, Option.toList_none, List.append_nil] at hqueue
      rw [St.queue, hemit, List.filter_append, hqueue, List.append_assoc]
      rfl
    · exact List.rel_append hway.carries (.cons ⟨e, js, rfl, hjs, ha⟩ .nil)
    · exact hway.grounded.snoc (by rw [hway.live]; exact hground)
    · rw [run_snoc, hway.live]
      exact hheld.symm
    · intro hopened hhead
      obtain ⟨hsome, hall⟩ := hway.page hopened hhead
      refine ⟨hsome, ?_⟩
      rw [run_snoc]
      exact (congrArg (edit patch · a) hall).trans hheld.symm

/-- the channel takes what the call has published, or has no room, or is not there -/
theorem publish_inv (h : Inv p s) : Inv p s.publish := by
  unfold St.publish
  split
  · rename_i q qs hpending hchannel
    split_ifs with hroom
    · refine h.frame rfl rfl ?_ rfl rfl id (fun hc => ?_) h.idle
      · simp [St.queue, hpending, hchannel]
      · cases hc
    · exact ⟨h.finite, h.closed, h.idle, nofun⟩
  · rename_i hnot
    refine ⟨h.finite, h.closed, h.idle, fun hlost => ?_⟩
    cases hpending : s.pending with
    | none =>
      obtain ⟨head, tail, l, d, hway⟩ := h.way hlost
      have hqueue := hway.queue
      rw [St.queue, hpending] at hqueue
      exact ⟨head, tail, l, d, hqueue, hway.last, hway.carries, hway.grounded, hway.live, hway.page⟩
    | some q =>
      have hchannel : s.channel = none := by
        cases hc : s.channel with
        | none => rfl
        | some qs => exact absurd hc (hnot q qs hpending)
      have hopened := h.closed hchannel
      refine ⟨[], [], [], held s.metrics.nodeDir, ?_, .inl rfl, .nil, trivial, rfl, fun ho => ?_⟩
      · simp [St.queue, h.idle hopened, hchannel]
      · exact absurd (hopened.symm.trans ho) Bool.false_ne_true

theorem other_inv (h : Inv p s) : Inv p s.publishOther := by
  refine h.frame rfl rfl ?_ rfl rfl id (fun hc => ?_) h.idle
  · simp only [St.queue, St.publishOther]
    cases s.channel with
    | none => rfl
    | some qs =>
      simp only [Option.map_some, Option.getD_some]
      split_ifs <;> simp
  · cases hchannel : s.channel with
    | none => rfl
    | some qs =>
      simp only [St.publishOther, hchannel] at hc
      cases hc

theorem subscribe_inv (h : Inv p s) : Inv p (step s .subscribe) := by
  simp only [step]
  split_ifs with hchannel
  · exact h
  · have hnone : s.channel = none := by simpa using hchannel
    refine h.frame rfl rfl ?_ rfl rfl id (fun hc => ?_) h.idle
    · simp [St.queue, hnone]
    · cases hc

theorem take_inv (h : Inv p s) : Inv p (step s .take) := by
  simp only [step]
  split
  · rename_i q qs hopened htaken hchannel
    refine h.frame rfl rfl ?_ rfl rfl id (fun hc => ?_) (fun ho => ?_)
    · simp [St.queue, htaken, hchannel]
    · cases hc
    · exact absurd (ho.symm.trans hopened) Bool.false_ne_true
  · exact h

/-- the directory is written, and the page has it -/
theorem write_live (h : s.metrics.Finite) :
    ((s.write (s.json (.directory s.map))).page p).nodeDir.isSome ∧
      shown ((s.write (s.json (.directory s.map))).page p) = held s.metrics.nodeDir := by
  obtain ⟨js, hjs, hpage⟩ := onEvent_directory h.directory
  have hjson : s.json (.directory s.map) = some js := by simpa [St.json] using hjs
  rw [hjson, page_write]
  exact hpage _

theorem open_inv (h : Inv p s) : Inv p (step s .open_) := by
  simp only [step]
  split_ifs with hopen
  · obtain ⟨hchannel, hclosed⟩ := hopen
    refine ⟨h.finite, fun hc => ?_, nofun, fun hlost => ?_⟩
    · rw [show s.channel = none from hc] at hchannel
      cases hchannel
    · obtain ⟨head, tail, l, d, hway⟩ := h.way hlost
      obtain ⟨hsome, hshown⟩ := write_live (p := p) h.finite
      exact ⟨head, tail, l, d, hway.queue, hway.last, hway.carries, hway.grounded, hway.live,
        fun _ _ => ⟨hsome, hway.again hshown⟩⟩
  · exact h

/-- the event that was taken is written: it was the first on its way -/
theorem written_inv (h : Inv p s) {q : Queued} (htaken : s.taken = some q) (hours : q.ours = true) :
    Inv p { s.write (s.json q) with taken := none } := by
  refine ⟨h.finite, h.closed, fun _ => rfl, fun hlost => ?_⟩
  obtain ⟨head, tail, l, d, hway⟩ := h.way hlost
  have hqueue : head ++ tail = q :: (s.channel.getD [] ++ s.pending.toList).filter Queued.ours := by
    rw [← hway.queue, St.queue, htaken]
    exact List.filter_cons_of_pos hours
  have hafter : St.queue { s.write (s.json q) with taken := none } =
      (s.channel.getD [] ++ s.pending.toList).filter Queued.ours := rfl
  rcases hway.last with rfl | ⟨earlier, rfl⟩
  · -- an update, which edits the page
    obtain rfl : tail = _ := hqueue
    cases hway.carries with
    | @cons _ a _ l hfirst hcarries =>
      obtain ⟨e, js, rfl, hjs, ha⟩ := hfirst
      refine ⟨[], _, l, edit patch d a, hafter, .inl rfl, hcarries, hway.grounded.2, hway.live, fun hopened _ => ?_⟩
      obtain ⟨hsome, hall⟩ := hway.page hopened rfl
      have hjson : s.json (.update e) = some js := hjs
      have hpage : St.page { s.write (s.json (.update e)) with taken := none } p = (s.page p).onEvent js := by
        rw [hjson]
        exact page_write p s js
      obtain ⟨hsome', hshown⟩ := onEvent_shown hsome ha
      rw [hpage, hshown]
      exact ⟨hsome', hall⟩
  · cases earlier with
    | nil =>
      -- the live directory
      obtain ⟨rfl, rfl⟩ : .directory s.map = q ∧ tail = _ := List.cons.inj hqueue
      obtain ⟨hsome, hshown⟩ := write_live (p := p) h.finite
      exact ⟨[], _, l, d, hafter, .inl rfl, hway.carries, hway.grounded, hway.live,
        fun _ _ => ⟨hsome, hway.again hshown⟩⟩
    | cons q' earlier =>
      -- the live directory is still to come
      obtain ⟨rfl, hrest⟩ : q' = q ∧ _ := List.cons.inj hqueue
      refine ⟨earlier ++ [.directory s.map], tail, l, d, hafter.trans hrest.symm, .inr ⟨earlier, rfl⟩, hway.carries,
        hway.grounded, hway.live, fun _ hnone => ?_⟩
      simp at hnone

/-- an event of another kind is written -/
theorem otherWritten_inv (h : Inv p s) (htaken : s.taken = some .other) :
    Inv p { s.write (s.json .other) with taken := none } := by
  refine h.frame rfl rfl ?_ ?_ rfl id id fun _ => rfl
  · simp [St.queue, St.write, htaken]
  · exact List.append_nil s.written

theorem step_inv (h : Inv p s) {a : Act} (ha : Served s a) : Inv p (step s a) := by
  cases a with
  | call c =>
    simp only [step]
    split_ifs with hbusy
    · exact h
    · have hpending : s.pending = none := by simpa using hbusy
      have hserved := ha hpending
      cases c with
      | setNodeDirectory dir => exact replace_inv h hpending hserved
      | _ => exact update_inv h hpending ⟨nofun, hserved.1⟩ hserved.2
  | publish => exact publish_inv h
  | other => exact other_inv h
  | subscribe => exact subscribe_inv h
  | open_ => exact open_inv h
  | take => exact take_inv h
  | marshal =>
    simp only [step]
    cases htaken : s.taken with
    | none => exact h
    | some q =>
      cases q with
      | other => exact otherWritten_inv h htaken
      | _ => exact written_inv h htaken rfl

end Steps

/-! ## Result -/

/-- the updates on their way edit a page that has a directory -/
theorem onEvents_shown {p : Page} (hp : p.nodeDir.isSome) (s : St) {qs : List Queued} {l : Edits}
    (hcarries : List.Forall₂ Carries qs l) :
    ((qs.filterMap s.json).foldl Page.onEvent p).nodeDir.isSome ∧
      shown ((qs.filterMap s.json).foldl Page.onEvent p) = run (edit patch) (shown p) l := by
  induction hcarries generalizing p with
  | nil => exact ⟨hp, rfl⟩
  | cons hfirst _ ih =>
    obtain ⟨e, js, rfl, hjs, ha⟩ := hfirst
    obtain ⟨hsome, hshown⟩ := onEvent_shown hp ha
    rw [List.filterMap_cons_some (show s.json (.update e) = some js from hjs), List.foldl_cons, run_cons, ← hshown]
    exact ih hsome

/-- **A dashboard may join at any moment.** The calls that change the directory come one after the other, with finite values
and such that the page can follow each of them; the handler subscribes, writes the directory and then streams, with its steps
anywhere between theirs. As long as no event has met the channel full, once the opening directory is written any page that
has read the stream mirrors the server after the events that are still on their way, whatever it showed before. -/
theorem late_page_mirrors {m : Metrics} (hm : m.Finite) (p : Page) (as : List Act)
    (hserved : Along step Served (start m) as) (hopened : (run step (start m) as).opened = true)
    (hkept : (run step (start m) as).lost = false) :
    Mirrors (run step (start m) as).metrics.nodeDir
      ((run step (start m) as).coming.foldl Page.onEvent ((run step (start m) as).page p)) := by
  have hinv : Inv p (run step (start m) as) := run_inv (I := Inv p) (fun s a h ha => step_inv h ha) (start_inv hm p) hserved
  generalize run step (start m) as = s at hinv hopened hkept
  obtain ⟨head, tail, l, d, hway⟩ := hinv.way hkept
  rw [mirrors_iff, St.coming, hway.queue, List.filterMap_append, List.foldl_append]
  rcases hway.last with rfl | ⟨earlier, rfl⟩
  · obtain ⟨hsome, hall⟩ := hway.page hopened rfl
    obtain ⟨hsome', hshown⟩ := onEvents_shown hsome s hway.carries
    exact ⟨hsome', hshown.trans hall⟩
  · -- the last directory on its way is the live one
    obtain ⟨js, hjs, hpage⟩ := onEvent_directory hinv.finite.directory
    have hjson : s.json (.directory s.map) = some js := by simpa [St.json] using hjs
    rw [List.filterMap_append, List.foldl_append, List.filterMap_cons_some hjson, List.filterMap_nil, List.foldl_cons,
      List.foldl_nil]
    obtain ⟨hsome, hshown⟩ := hpage ((earlier.filterMap s.json).foldl Page.onEvent (s.page p))
    obtain ⟨hsome', hrun⟩ := onEvents_shown hsome s hway.carries
    exact ⟨hsome', hrun.trans (hway.again hshown)⟩

/-- a node gives its name between Subscribe and the opening directory, and its event comes after it -/
def joins : List Act := [.subscribe, .call (.upsertNode 1 elevenInfo), .open_, .other, .publish, .take, .marshal]

theorem late_page_mirrors_joins :
    Mirrors (run step (start (new 100)) joins).metrics.nodeDir
      ((run step (start (new 100)) joins).coming.foldl Page.onEvent ((run step (start (new 100)) joins).page blankPage)) := by
  refine late_page_mirrors (Metrics.new_finite 100) blankPage joins ?_ rfl rfl
  exact ⟨trivial, fun _ => ⟨trivial, trivial⟩, trivial, trivial, trivial, trivial, trivial, trivial⟩

end MeshProxy.LateJoin
