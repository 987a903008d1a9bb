/-
The traffic chart (`templates/static/app.js`: the chart's data, connectSSE, updateMetricsUI; `internal/web/server.go`:
handleDashboard, handleSSE; `internal/metrics/pubsub.go`).

The page is rendered with the traffic series of the moment and then connects. The handler subscribes, reads a snapshot, and
writes it; from then on it writes the deltas it takes from its channel, which holds 64 events of any type and drops what
comes while it is full. The page replaces its points at a snapshot and appends one at a delta, and it ignores both while it
is paused. After an error it connects again and keeps its points. The sampler runs on all the while (Metrics.Sampler). A
publish is one step: it is a single send to this channel, under subMu. The text of a clock reading and the page's number
for an int64 are parameters.

`applied` are the deltas that the page has applied since it last connected, `subscribedAt` the number of deltas published
before Subscribe, `snapshotAt` the number of samples in the snapshot's time, `synced` says that the page has applied the
snapshot, and `lost` that a delta met a full channel or a paused page. They are for the statements only.
- `draw_delta`: a delta's point comes in at the end of the window of the others;
- `step_inv`: the invariant, step by step;
- `chart_follows`: what the chart shows, in any interleaving.
-/
import MeshProxy.Core.Window
import MeshProxy.Metrics.PubSub
import MeshProxy.Metrics.Sampler

namespace MeshProxy.TrafficChart

open MeshProxy.PubSub (sseBufferSize)
open MeshProxy.Sampler (SnapshotDelta TrafficSample)
open MeshProxy.Trace MeshProxy.Window

variable {L N : Type}

/-! ## The page -/

/-- trafficData and maxTrafficPoints -/
structure Chart (L N : Type) where
  labels : List L
  framesIn : List N
  framesOut : List N
  maxTrafficPoints : ℕ

/-- the data of a metrics event, as far as the chart reads it -/
inductive Snap where
  | snapshot (trafficSeries : List TrafficSample) (maxTrafficSamples : ℕ)
  | delta (latestSample : TrafficSample)

section Page

variable (label : ℤ → L) (number : ℤ → N)

/-- the points of some samples -/
def draw (series : List TrafficSample) (limit : ℕ) : Chart L N where
  labels := series.map fun s => label s.timestamp
  framesIn := series.map fun s => number s.framesIn
  framesOut := series.map fun s => number s.framesOut
  maxTrafficPoints := limit

/-- `initialTrafficSeries.length || 300` -/
def initialPoints (series : List TrafficSample) : ℕ := if series.length ≠ 0 then series.length else 300

/-- the page as it is rendered -/
def openPage (initialTrafficSeries : List TrafficSample) : Chart L N :=
  draw label number initialTrafficSeries (initialPoints initialTrafficSeries)

/-- the loop of shifts, which goes by the labels -/
def shiftOver (limit : ℕ) : List L → List N → List N → Chart L N
  | [], fi, fo => ⟨[], fi, fo, limit⟩
  | l :: labels, fi, fo =>
    if (l :: labels).length > limit then shiftOver limit labels fi.tail fo.tail else ⟨l :: labels, fi, fo, limit⟩

def updateMetricsUI (c : Chart L N) : Snap → Chart L N
  | .snapshot series maxTrafficSamples =>
    if series.length > 0 then
      draw label number series (if maxTrafficSamples ≠ 0 then maxTrafficSamples else c.maxTrafficPoints)
    else c
  | .delta s =>
    shiftOver c.maxTrafficPoints (c.labels ++ [label s.timestamp]) (c.framesIn ++ [number s.framesIn])
      (c.framesOut ++ [number s.framesOut])

end Page

/-! ## The system -/

/-- what the channel holds: the deltas, and everything else that is published -/
inductive Event where
  | metrics (d : SnapshotDelta)
  | other

inductive Pc where
  | loading
  | connecting
  | subscribed
  | streaming
deriving DecidableEq

structure System (L N : Type) where
  metrics : Sampler.Metrics
  pc : Pc
  ch : List Event
  wire : List Snap
  paused : Bool
  page : Chart L N
  subscribedAt : ℕ
  snapshotAt : ℕ
  applied : List TrafficSample
  synced : Bool
  lost : Bool

def init (maxTrafficSamples : ℤ) : System L N where
  metrics := Sampler.init maxTrafficSamples
  pc := .loading
  ch := []
  wire := []
  paused := false
  page := ⟨[], [], [], 300⟩
  subscribedAt := 0
  snapshotAt := 0
  applied := []
  synced := false
  lost := false

inductive Act where
  /-- a step of the sampler or of somebody who adds to a counter -/
  | server (a : Sampler.Act)
  /-- another event is published -/
  | other
  /-- the page is rendered and opened -/
  | load
  | subscribe
  | snapshot
  /-- the handler takes an event and writes it -/
  | send
  /-- the page gets the next metrics event -/
  | receive
  | pause
  /-- `onerror` -/
  | error

namespace System

/-- the handler's channel is in the map -/
def connected (s : System L N) : Bool :=
  match s.pc with
  | .subscribed | .streaming => true
  | _ => false

/-- publish, as far as this handler's channel goes -/
def publish (s : System L N) (e : Event) : System L N :=
  if s.connected then
    if s.ch.length < sseBufferSize then { s with ch := s.ch ++ [e] }
    else
      match e with
      | .metrics _ => { s with lost := true }
      | .other => s
  else s

/-- a step of the server; a delta is published when the sampler publishes one -/
def server (s : System L N) (a : Sampler.Act) : System L N :=
  let s' := { s with metrics := Sampler.step s.metrics a }
  match s.metrics.pc, a with
  | .publishing d, .sampler _ => s'.publish (.metrics d)
  | _, _ => s'

/-- `<-ch`, and the write -/
def send (s : System L N) : System L N :=
  match s.ch with
  | [] => s
  | .metrics d :: rest => { s with ch := rest, wire := s.wire ++ [.delta d.latestSample] }
  | .other :: rest => { s with ch := rest }

/-- the listener of the metrics events -/
def receive (label : ℤ → L) (number : ℤ → N) (s : System L N) : System L N :=
  match s.wire with
  | [] => s
  | .snapshot series max :: rest =>
    if s.paused then { s with wire := rest }
    else { s with wire := rest, page := updateMetricsUI label number s.page (.snapshot series max), synced := true }
  | .delta x :: rest =>
    if s.paused then { s with wire := rest, lost := true }
    else { s with wire := rest, page := updateMetricsUI label number s.page (.delta x), applied := s.applied ++ [x] }

end System

def step (label : ℤ → L) (number : ℤ → N) (s : System L N) : Act → System L N
  | .server a => s.server a
  | .other => s.publish .other
  | .load =>
    match s.pc with
    | .loading => { s with page := openPage label number s.metrics.trafficSamples, pc := .connecting }
    | _ => s
  | .subscribe =>
    match s.pc with
    | .connecting =>
      { s with
        pc := .subscribed
        ch := []
        subscribedAt := s.metrics.events.length
        applied := []
        lost := false }
    | _ => s
  | .snapshot =>
    match s.pc with
    | .subscribed =>
      { s with
        pc := .streaming
        snapshotAt := s.metrics.history.length
        wire := s.wire ++ [.snapshot s.metrics.trafficSamples s.metrics.maxSamples] }
    | _ => s
  | .send =>
    match s.pc with
    | .streaming => s.send
    | _ => s
  | .receive => s.receive label number
  | .pause => { s with paused := !s.paused }
  | .error =>
    match s.pc with
    | .loading => s
    | _ => { s with pc := .connecting, ch := [], wire := [], synced := false }

/-! ## A delta on the chart -/

section Page

variable (label : ℤ → L) (number : ℤ → N)

/-- the shifts leave the window -/
theorem shiftOver_draw (limit : ℕ) (xs : List TrafficSample) :
    shiftOver limit (xs.map fun s => label s.timestamp) (xs.map fun s => number s.framesIn)
      (xs.map fun s => number s.framesOut) = draw label number (xs.rtake limit) limit := by
  induction xs with
  | nil => simp [shiftOver, draw, List.rtake]
  | cons x xs ih =>
    simp only [List.map_cons, shiftOver, List.tail_cons, List.length_cons, List.length_map]
    by_cases hover : xs.length + 1 > limit
    · have hdrop : ([x] ++ xs).rtake limit = xs.rtake limit := rtake_append_of_le (by omega)
      rw [if_pos hover, ih, ← hdrop, List.singleton_append]
    · rw [if_neg hover, rtake_of_length_le (by simpa using hover)]
      rfl

/-- a delta's point comes in at the end of the window of the others -/
theorem draw_delta (xs : List TrafficSample) (limit : ℕ) (x : TrafficSample) :
    updateMetricsUI label number (draw label number xs limit) (.delta x) = draw label number (push limit xs x) limit := by
  rw [push, ← shiftOver_draw]
  simp [updateMetricsUI, draw]

theorem draw_snapshot {series : List TrafficSample} {limit : ℕ} (hseries : 0 < series.length) (hlimit : 1 ≤ limit)
    (c : Chart L N) : updateMetricsUI label number c (.snapshot series limit) = draw label number series limit := by
  have hne : limit ≠ 0 := by omega
  rw [updateMetricsUI, if_pos hseries, if_pos hne]

end Page

/-! ## The invariant -/

/-- the samples that have been published -/
def published (m : Sampler.Metrics) : List TrafficSample := m.events.map (·.latestSample)

def Event.sample? : Event → Option TrafficSample
  | .metrics d => some d.latestSample
  | .other => none

def Snap.sample? : Snap → Option TrafficSample
  | .snapshot _ _ => none
  | .delta x => some x

namespace System

/-- the samples on their way to the page -/
def inflight (s : System L N) : List TrafficSample := s.wire.filterMap Snap.sample? ++ s.ch.filterMap Event.sample?

/-- how many points the page keeps; an empty snapshot does not tell it -/
def limit (s : System L N) : ℕ := if s.snapshotAt = 0 then 300 else s.metrics.maxSamples

/-- what the chart has been made from -/
def shown (s : System L N) : List TrafficSample := s.metrics.history.take s.snapshotAt ++ s.applied

end System

/-- what was published since Subscribe, against what has come in -/
structure Books (m : Sampler.Metrics) (subscribedAt : ℕ) (lost : Bool) (came : List TrafficSample) : Prop where
  subscribed : subscribedAt ≤ m.events.length
  sublist : came.Sublist ((published m).drop subscribedAt)
  all : lost = false → came = (published m).drop subscribedAt

section Invariant

variable (label : ℤ → L) (number : ℤ → N)

/-- the snapshot is still to come to the page -/
structure Waiting (s : System L N) : Prop where
  wire : ∃ deltas : List TrafficSample, s.wire =
    .snapshot ((s.metrics.history.take s.snapshotAt).rtake s.metrics.maxSamples) s.metrics.maxSamples :: deltas.map .delta
  applied : s.applied = []
  synced : s.synced = false
  blank : s.snapshotAt = 0 → s.page = draw label number [] 300

/-- the snapshot has come to the page -/
structure Live (s : System L N) : Prop where
  wire : ∃ deltas : List TrafficSample, s.wire = deltas.map .delta
  page : s.synced = true → s.page = draw label number (s.shown.rtake s.limit) s.limit

/-- what the page has seen of its connection -/
def Phase (s : System L N) : Prop :=
  match s.pc with
  | .loading | .connecting => s.wire = [] ∧ s.synced = false
  | .subscribed => s.wire = [] ∧ s.applied = [] ∧ s.synced = false
  | .streaming => s.subscribedAt ≤ s.snapshotAt ∧ s.snapshotAt ≤ s.metrics.history.length ∧
      (Waiting label number s ∨ Live label number s)

/-- the points are those of some samples; before the first sample there are none -/
def Drawn (m : Sampler.Metrics) (c : Chart L N) : Prop :=
  ∃ series limit, c = draw label number series limit ∧ series.length ≤ limit ∧ (m.history = [] → series = [] ∧ limit = 300)

structure Inv (s : System L N) : Prop where
  sampler : Sampler.Inv s.metrics
  page : Drawn label number s.metrics s.page
  books : s.connected = true → Books s.metrics s.subscribedAt s.lost (s.applied ++ s.inflight)
  phase : Phase label number s

variable {label number} {s : System L N}

theorem init_inv (maxTrafficSamples : ℤ) : Inv label number (init maxTrafficSamples : System L N) where
  sampler := Sampler.init_inv maxTrafficSamples
  page := ⟨[], 300, rfl, by simp, fun _ => ⟨rfl, rfl⟩⟩
  books := fun h => by cases h
  phase := ⟨rfl, rfl⟩

theorem Inv.published_prefix (h : Inv label number s) : published s.metrics <+: s.metrics.history := by
  have hpub : published s.metrics = s.metrics.history.take s.metrics.events.length := h.sampler.published
  rw [hpub]
  exact List.take_prefix _ _

/-! ## The steps -/

/-- the server's books, from a state to a later one in which no delta has been published -/
structure Later (m m' : Sampler.Metrics) : Prop where
  events : m'.events = m.events
  history : m.history <+: m'.history
  maxSamples : m'.maxSamples = m.maxSamples

theorem server_cases (s : System L N) (a : Sampler.Act) :
    (∃ d, s.server a = { s with metrics := Sampler.step s.metrics a }.publish (.metrics d) ∧
      (Sampler.step s.metrics a).events = s.metrics.events ++ [d] ∧
      (Sampler.step s.metrics a).history = s.metrics.history ∧
      (Sampler.step s.metrics a).maxSamples = s.metrics.maxSamples) ∨
    s.server a = { s with metrics := Sampler.step s.metrics a } ∧ Later s.metrics (Sampler.step s.metrics a) := by
  cases a with
  | add c n => exact .inr ⟨by simp [System.server], ⟨rfl, List.prefix_refl _, rfl⟩⟩
  | done =>
    refine .inr ⟨by simp [System.server], ?_⟩
    simp only [Sampler.step]
    split <;> exact ⟨rfl, List.prefix_refl _, rfl⟩
  | sampler now =>
    by_cases hpc : ∃ d, s.metrics.pc = .publishing d
    · obtain ⟨d, hpc⟩ := hpc
      refine .inl ⟨d, by simp only [System.server, hpc], ?_⟩
      simp only [Sampler.step, Sampler.Metrics.exec, hpc, and_self]
    · refine .inr ⟨?_, ?_⟩
      · unfold System.server
        split
        · rename_i hd _
          exact absurd ⟨_, hd⟩ hpc
        · rfl
      · simp only [Sampler.step, Sampler.Metrics.exec]
        split
        case h_6 => exact ⟨rfl, List.prefix_append _ _, rfl⟩
        case h_9 d hd => exact absurd ⟨d, hd⟩ hpc
        all_goals exact ⟨rfl, List.prefix_refl _, rfl⟩

theorem Drawn.later {m m' : Sampler.Metrics} {c : Chart L N} (h : Drawn label number m c)
    (hpre : m.history <+: m'.history) : Drawn label number m' c := by
  obtain ⟨series, limit, hc, hlen, hempty⟩ := h
  refine ⟨series, limit, hc, hlen, fun hm => hempty ?_⟩
  rw [hm] at hpre
  exact List.prefix_nil.1 hpre

theorem Books.later {m m' : Sampler.Metrics} {k : ℕ} {lost : Bool} {came : List TrafficSample}
    (h : Books m k lost came) (hevents : m'.events = m.events) : Books m' k lost came := by
  have hpub : published m' = published m := by rw [published, hevents, published]
  exact ⟨hevents ▸ h.subscribed, hpub ▸ h.sublist, hpub ▸ h.all⟩

/-- a delta is published: it comes in, or it is lost -/
theorem Books.publish {m m' : Sampler.Metrics} {k : ℕ} {lost : Bool} {came : List TrafficSample} (h : Books m k lost came)
    {d : SnapshotDelta} (hevents : m'.events = m.events ++ [d]) :
    Books m' k lost (came ++ [d.latestSample]) ∧ Books m' k true came := by
  have hk : k ≤ m'.events.length := by
    have hold := h.subscribed
    rw [hevents, List.length_append]
    omega
  have hpub : (published m').drop k = (published m).drop k ++ [d.latestSample] := by
    rw [published, hevents, List.map_append, List.drop_append_of_le_length (by simpa using h.subscribed)]
    rfl
  refine ⟨⟨hk, ?_, fun hlost => ?_⟩, ⟨hk, ?_, fun hlost => by cases hlost⟩⟩
  · rw [hpub]
    exact h.sublist.append_right _
  · rw [hpub, h.all hlost]
  · rw [hpub]
    exact h.sublist.trans (List.sublist_append_left _ _)

/-- less has come in, and that is noted -/
theorem Books.lose {m : Sampler.Metrics} {k : ℕ} {lost : Bool} {came came' : List TrafficSample} (h : Books m k lost came)
    (hless : came'.Sublist came) : Books m k true came' :=
  ⟨h.subscribed, hless.trans h.sublist, fun hlost => by cases hlost⟩

/-- the server goes on, and the channel fills -/
theorem Phase.later {m' : Sampler.Metrics} (h : Phase label number s) (hpre : s.metrics.history <+: m'.history)
    (hmax : m'.maxSamples = s.metrics.maxSamples) (ch : List Event) (lost paused : Bool) :
    Phase label number { s with metrics := m', ch, lost, paused } := by
  have htake : s.snapshotAt ≤ s.metrics.history.length →
      m'.history.take s.snapshotAt = s.metrics.history.take s.snapshotAt := by
    intro hle
    obtain ⟨more, hmore⟩ := hpre
    rw [← hmore, List.take_append_of_le_length hle]
  unfold Phase at h ⊢
  simp only
  split <;> rename_i hpc <;> simp only [hpc] at h
  · exact h
  · exact h
  · exact h
  · obtain ⟨hk, hle, hphase⟩ := h
    refine ⟨hk, hle.trans hpre.length_le, ?_⟩
    rcases hphase with hwait | hlive
    · refine .inl ⟨?_, hwait.applied, hwait.synced, hwait.blank⟩
      simpa only [htake hle, hmax] using hwait.wire
    · refine .inr ⟨hlive.wire, fun hsynced => ?_⟩
      simpa only [System.shown, System.limit, htake hle, hmax] using hlive.page hsynced

theorem publish_phase (h : Phase label number s) (e : Event) : Phase label number (s.publish e) := by
  have hsame : ∀ ch lost, Phase label number { s with ch, lost } := fun ch lost =>
    h.later (List.prefix_refl _) rfl ch lost s.paused
  unfold System.publish
  split_ifs
  · exact hsame (s.ch ++ [e]) s.lost
  · split
    · exact hsame s.ch true
    · exact h
  · exact h

/-- the sampler publishes a delta -/
theorem publish_inv (h : Inv label number s) {m' : Sampler.Metrics} (hm' : Sampler.Inv m') {d : SnapshotDelta}
    (hevents : m'.events = s.metrics.events ++ [d]) (hhistory : m'.history = s.metrics.history)
    (hmax : m'.maxSamples = s.metrics.maxSamples) :
    Inv label number ({ s with metrics := m' }.publish (.metrics d)) := by
  have hpre : s.metrics.history <+: m'.history := by rw [hhistory]
  have hphase := publish_phase (h.phase.later hpre hmax s.ch s.lost s.paused) (.metrics d)
  unfold System.publish at hphase ⊢
  split_ifs at hphase ⊢ with hconn hroom
  · obtain ⟨hin, -⟩ := (h.books hconn).publish hevents
    refine ⟨hm', h.page.later hpre, fun _ => ?_, hphase⟩
    simpa [System.inflight, Event.sample?] using hin
  · obtain ⟨-, hout⟩ := (h.books hconn).publish hevents
    exact ⟨hm', h.page.later hpre, fun _ => hout, hphase⟩
  · exact ⟨hm', h.page.later hpre, fun hc => absurd hc hconn, hphase⟩

theorem other_inv (h : Inv label number s) : Inv label number (s.publish .other) := by
  have hphase := publish_phase h.phase .other
  unfold System.publish at hphase ⊢
  split_ifs at hphase ⊢ with hconn hroom
  · refine ⟨h.sampler, h.page, fun _ => ?_, hphase⟩
    simpa [System.inflight, Event.sample?, List.filterMap_cons] using h.books hconn
  · exact h
  · exact h

theorem server_inv (h : Inv label number s) (a : Sampler.Act) : Inv label number (s.server a) := by
  have hm' := Sampler.step_inv h.sampler a
  rcases server_cases s a with ⟨d, hserver, hevents, hhistory, hmax⟩ | ⟨hserver, hlater⟩
  · rw [hserver]
    exact publish_inv h hm' hevents hhistory hmax
  · rw [hserver]
    exact ⟨hm', h.page.later hlater.history, fun hc => (h.books hc).later hlater.events,
      h.phase.later hlater.history hlater.maxSamples s.ch s.lost s.paused⟩

/-- the page is rendered with what the ring holds -/
theorem load_inv (h : Inv label number s) (hpc : s.pc = .loading) :
    Inv label number { s with page := openPage label number s.metrics.trafficSamples, pc := .connecting } := by
  have hphase := h.phase
  simp only [Phase, hpc] at hphase
  refine ⟨h.sampler, ⟨_, _, rfl, ?_, fun hm => ?_⟩, fun hc => by simp [System.connected] at hc, hphase⟩
  · unfold initialPoints
    split_ifs <;> omega
  · have hring : s.metrics.trafficSamples = [] := by rw [h.sampler.ring, hm, List.rtake_nil]
    exact ⟨hring, by rw [hring]; rfl⟩

theorem subscribe_inv (h : Inv label number s) (hpc : s.pc = .connecting) :
    Inv label number { s with
      pc := .subscribed
      ch := []
      subscribedAt := s.metrics.events.length
      applied := []
      lost := false } := by
  have hphase := h.phase
  simp only [Phase, hpc] at hphase
  have hdrop : (published s.metrics).drop s.metrics.events.length = [] := List.drop_of_length_le (by simp [published])
  refine ⟨h.sampler, h.page, fun _ => ⟨le_rfl, ?_, fun _ => ?_⟩, ⟨hphase.1, rfl, hphase.2⟩⟩
  · simp [System.inflight, hphase.1]
  · simpa [System.inflight, hphase.1] using hdrop.symm

theorem snapshot_inv (h : Inv label number s) (hpc : s.pc = .subscribed) :
    Inv label number { s with
      pc := .streaming
      snapshotAt := s.metrics.history.length
      wire := s.wire ++ [.snapshot s.metrics.trafficSamples s.metrics.maxSamples] } := by
  have hphase := h.phase
  simp only [Phase, hpc] at hphase
  obtain ⟨hwire, happlied, hsynced⟩ := hphase
  have hbooks := h.books (by simp [System.connected, hpc])
  refine ⟨h.sampler, h.page, fun _ => ?_, ⟨?_, le_rfl, .inl ⟨⟨[], ?_⟩, happlied, hsynced, fun hzero => ?_⟩⟩⟩
  · simpa [System.inflight, Snap.sample?, List.filterMap_cons] using hbooks
  · exact hbooks.subscribed.trans h.sampler.events_le
  · simp [hwire, h.sampler.ring]
  · obtain ⟨series, limit, hpage, -, hempty⟩ := h.page
    obtain ⟨rfl, rfl⟩ := hempty (List.eq_nil_of_length_eq_zero hzero)
    exact hpage

theorem send_inv (h : Inv label number s) (hpc : s.pc = .streaming) : Inv label number s.send := by
  have hbooks := h.books (by simp [System.connected, hpc])
  have hphase := h.phase
  simp only [Phase, hpc] at hphase
  obtain ⟨hk, hle, hphase⟩ := hphase
  unfold System.send
  split <;> rename_i hch
  · exact h
  · rename_i d rest
    have hcame : s.inflight =
        (s.wire ++ [Snap.delta d.latestSample]).filterMap Snap.sample? ++ rest.filterMap Event.sample? := by
      simp [System.inflight, hch, Event.sample?, Snap.sample?]
    refine ⟨h.sampler, h.page, fun _ => ?_, ?_⟩
    · rwa [hcame] at hbooks
    · simp only [Phase, hpc]
      refine ⟨hk, hle, ?_⟩
      rcases hphase with hwait | hlive
      · obtain ⟨deltas, hwire⟩ := hwait.wire
        exact .inl ⟨⟨deltas ++ [d.latestSample], by simp [hwire]⟩, hwait.applied, hwait.synced, hwait.blank⟩
      · obtain ⟨deltas, hwire⟩ := hlive.wire
        exact .inr ⟨⟨deltas ++ [d.latestSample], by simp [hwire]⟩, hlive.page⟩
  · rename_i rest
    have hcame : s.inflight = s.wire.filterMap Snap.sample? ++ rest.filterMap Event.sample? := by
      simp [System.inflight, hch, Event.sample?, List.filterMap_cons]
    refine ⟨h.sampler, h.page, fun _ => ?_, ?_⟩
    · rwa [hcame] at hbooks
    · simp only [Phase, hpc]
      refine ⟨hk, hle, ?_⟩
      rcases hphase with hwait | hlive
      · exact .inl ⟨hwait.wire, hwait.applied, hwait.synced, hwait.blank⟩
      · exact .inr ⟨hlive.wire, hlive.page⟩

/-- something is on its way only while the handler streams -/
theorem Phase.streaming (h : Phase label number s) (hwire : s.wire ≠ []) : s.pc = .streaming := by
  unfold Phase at h
  split at h <;> rename_i hpc
  · exact absurd h.1 hwire
  · exact absurd h.1 hwire
  · exact absurd h.1 hwire
  · exact hpc

/-- the snapshot comes to the page -/
theorem receive_snapshot_inv (h : Inv label number s) {series : List TrafficSample} {max : ℕ} {rest : List Snap}
    (hwire : s.wire = .snapshot series max :: rest) : Inv label number (s.receive label number) := by
  have hpc : s.pc = .streaming := h.phase.streaming (by simp [hwire])
  have hbooks := h.books (by simp [System.connected, hpc])
  have hphase := h.phase
  simp only [Phase, hpc] at hphase
  obtain ⟨hk, hle, hphase⟩ := hphase
  have hwait : Waiting label number s := by
    rcases hphase with hwait | hlive
    · exact hwait
    · obtain ⟨deltas, hdeltas⟩ := hlive.wire
      rw [hwire] at hdeltas
      cases deltas <;> simp at hdeltas
  obtain ⟨deltas, hdeltas⟩ := hwait.wire
  rw [hwire, List.cons.injEq, Snap.snapshot.injEq] at hdeltas
  obtain ⟨⟨rfl, rfl⟩, rfl⟩ := hdeltas
  have hcame : s.inflight = (deltas.map Snap.delta).filterMap Snap.sample? ++ s.ch.filterMap Event.sample? := by
    simp [System.inflight, hwire, Snap.sample?, List.filterMap_cons]
  rw [hcame] at hbooks
  simp only [System.receive, hwire]
  split_ifs with hpaused
  · refine ⟨h.sampler, h.page, fun _ => hbooks, ?_⟩
    simp only [Phase, hpc]
    exact ⟨hk, hle, .inr ⟨⟨deltas, rfl⟩, fun hsynced => by simp [hwait.synced] at hsynced⟩⟩
  · have hpage : updateMetricsUI label number s.page
        (.snapshot ((s.metrics.history.take s.snapshotAt).rtake s.metrics.maxSamples) s.metrics.maxSamples) =
        draw label number (s.shown.rtake s.limit) s.limit := by
      rw [System.shown, hwait.applied, List.append_nil, System.limit]
      by_cases hzero : s.snapshotAt = 0
      · simp [hzero, hwait.blank hzero, updateMetricsUI, List.rtake_nil]
      · rw [if_neg hzero]
        have hpos := h.sampler.limit
        apply draw_snapshot
        · rw [length_rtake, List.length_take]
          omega
        · exact hpos
    refine ⟨h.sampler, ⟨_, _, hpage, ?_, fun hm => ?_⟩, fun _ => hbooks, ?_⟩
    · rw [length_rtake]
      exact Nat.min_le_left _ _
    · have hzero : s.snapshotAt = 0 := by
        rw [hm, List.length_nil] at hle
        omega
      simp [System.shown, System.limit, hzero, hwait.applied, List.rtake_nil]
    · simp only [Phase, hpc]
      exact ⟨hk, hle, .inr ⟨⟨deltas, rfl⟩, fun _ => hpage⟩⟩

/-- a delta comes to the page -/
theorem receive_delta_inv (h : Inv label number s) {x : TrafficSample} {rest : List Snap}
    (hwire : s.wire = .delta x :: rest) : Inv label number (s.receive label number) := by
  have hpc : s.pc = .streaming := h.phase.streaming (by simp [hwire])
  have hbooks := h.books (by simp [System.connected, hpc])
  have hphase := h.phase
  simp only [Phase, hpc] at hphase
  obtain ⟨hk, hle, hphase⟩ := hphase
  have hlive : Live label number s := by
    rcases hphase with hwait | hlive
    · obtain ⟨deltas, hdeltas⟩ := hwait.wire
      rw [hwire] at hdeltas
      simp at hdeltas
    · exact hlive
  obtain ⟨deltas, hdeltas⟩ := hlive.wire
  rw [hwire] at hdeltas
  obtain ⟨deltas, rfl⟩ : ∃ more : List TrafficSample, rest = more.map .delta := by
    cases deltas with
    | nil => simp at hdeltas
    | cons y more =>
      rw [List.map_cons, List.cons.injEq] at hdeltas
      exact ⟨more, hdeltas.2⟩
  have hcame : s.applied ++ s.inflight =
      s.applied ++ x :: ((deltas.map Snap.delta).filterMap Snap.sample? ++ s.ch.filterMap Event.sample?) := by
    simp [System.inflight, hwire, Snap.sample?]
  rw [hcame] at hbooks
  simp only [System.receive, hwire]
  split_ifs with hpaused
  · refine ⟨h.sampler, h.page, fun _ => hbooks.lose ?_, ?_⟩
    · exact (List.sublist_cons_self _ _).append_left _
    · simp only [Phase, hpc]
      exact ⟨hk, hle, .inr ⟨⟨deltas, rfl⟩, hlive.page⟩⟩
  · refine ⟨h.sampler, ?_, fun _ => ?_, ?_⟩
    · obtain ⟨series, limit, hpage, -, -⟩ := h.page
      refine ⟨_, limit, by rw [hpage, draw_delta], ?_, fun hm => ?_⟩
      · rw [push, length_rtake]
        exact Nat.min_le_left _ _
      · have hmem : x ∈ published s.metrics := List.mem_of_mem_drop (hbooks.sublist.subset (by simp))
        have hsome := h.published_prefix.subset hmem
        exact absurd hsome (by simp [show s.metrics.history = [] from hm])
    · simpa [System.inflight] using hbooks
    · simp only [Phase, hpc]
      refine ⟨hk, hle, .inr ⟨⟨deltas, rfl⟩, fun hsynced => ?_⟩⟩
      show updateMetricsUI label number s.page (.delta x) = _
      rw [hlive.page hsynced, draw_delta, push_rtake, System.shown, List.append_assoc]
      rfl

theorem step_inv (h : Inv label number s) (a : Act) : Inv label number (step label number s a) := by
  cases a with
  | server a => exact server_inv h a
  | other => exact other_inv h
  | load =>
    simp only [step]
    split
    · exact load_inv h ‹_›
    · exact h
  | subscribe =>
    simp only [step]
    split
    · exact subscribe_inv h ‹_›
    · exact h
  | snapshot =>
    simp only [step]
    split
    · exact snapshot_inv h ‹_›
    · exact h
  | send =>
    simp only [step]
    split
    · exact send_inv h ‹_›
    · exact h
  | receive =>
    simp only [step]
    cases hwire : s.wire with
    | nil => simpa only [System.receive, hwire] using h
    | cons p rest =>
      cases p with
      | snapshot series max => exact receive_snapshot_inv h hwire
      | delta x => exact receive_delta_inv h hwire
  | pause => exact ⟨h.sampler, h.page, h.books, h.phase.later (List.prefix_refl _) rfl s.ch s.lost (!s.paused)⟩
  | error =>
    simp only [step]
    split
    · exact h
    · exact ⟨h.sampler, h.page, fun hc => by simp [System.connected] at hc, ⟨rfl, rfl⟩⟩

end Invariant

/-! ## Results -/

theorem reachable_inv (label : ℤ → L) (number : ℤ → N) (maxTrafficSamples : ℤ) (as : List Act) :
    Inv label number (run (step label number) (init maxTrafficSamples) as) :=
  run_inv_all (I := Inv label number) (fun _ a hs => step_inv hs a) as (init_inv maxTrafficSamples)

/-- **The chart follows the sampler.** In every interleaving, at every moment, the chart has one label and one point on each
curve for each of at most maxTrafficPoints samples. Once the page has applied the snapshot of its connection:
- these are the last samples of the snapshot and of the deltas applied since, as many as the server keeps, or 300 if there
  was no sample yet at the snapshot;
- the deltas applied, and those on their way, are samples published since Subscribe, in order, and if none was lost all
  of them; so from the snapshot on nothing is left out, and what came between Subscribe and the snapshot is there twice;
- with none lost, this is over when as many deltas have been applied as the chart has points: it then shows the last
  samples up to that of the last delta. -/
theorem chart_follows (label : ℤ → L) (number : ℤ → N) (maxTrafficSamples : ℤ) (as : List Act) :
    let s := run (step label number) (init maxTrafficSamples) as
    let history := s.metrics.history
    (∃ series, s.page = draw label number series s.page.maxTrafficPoints ∧ series.length ≤ s.page.maxTrafficPoints) ∧
    published s.metrics <+: history ∧
    (s.synced = true →
      s.page = draw label number ((history.take s.snapshotAt ++ s.applied).rtake s.limit) s.limit ∧
      s.subscribedAt ≤ s.snapshotAt ∧ s.snapshotAt ≤ history.length ∧
      (s.applied ++ s.inflight).Sublist ((published s.metrics).drop s.subscribedAt) ∧
      (s.lost = false → s.applied ++ s.inflight = (published s.metrics).drop s.subscribedAt ∧
        (s.limit ≤ s.applied.length →
          s.page = draw label number ((history.take (s.subscribedAt + s.applied.length)).rtake s.limit) s.limit))) := by
  intro s history
  have h : Inv label number s := reachable_inv label number maxTrafficSamples as
  refine ⟨?_, h.published_prefix, fun hsynced => ?_⟩
  · obtain ⟨series, limit, hpage, hlen, -⟩ := h.page
    rw [hpage]
    exact ⟨series, rfl, hlen⟩
  have hphase := h.phase
  unfold Phase at hphase
  split at hphase <;> rename_i hpc
  · simp [hphase.2] at hsynced
  · simp [hphase.2] at hsynced
  · simp [hphase.2.2] at hsynced
  obtain ⟨hk, hle, hphase⟩ := hphase
  have hbooks := h.books (by simp [System.connected, hpc])
  have hlive : Live label number s := by
    rcases hphase with hwait | hlive
    · simp [hwait.synced] at hsynced
    · exact hlive
  refine ⟨hlive.page hsynced, hk, hle, hbooks.sublist, fun hlost => ⟨hbooks.all hlost, fun hmany => ?_⟩⟩
  have happlied : history.take (s.subscribedAt + s.applied.length) =
      (published s.metrics).take s.subscribedAt ++ s.applied := by
    obtain ⟨late, hlate⟩ := h.published_prefix
    have hsplit : published s.metrics = (published s.metrics).take s.subscribedAt ++ (s.applied ++ s.inflight) := by
      rw [hbooks.all hlost, List.take_append_drop]
    have hlen : ((published s.metrics).take s.subscribedAt).length = s.subscribedAt := by
      rw [List.length_take, published, List.length_map]
      exact Nat.min_eq_left hbooks.subscribed
    calc history.take (s.subscribedAt + s.applied.length)
        = ((published s.metrics).take s.subscribedAt ++ (s.applied ++ (s.inflight ++ late))).take
            (s.subscribedAt + s.applied.length) := by
          rw [← List.append_assoc s.applied, ← List.append_assoc, ← hsplit, hlate]
      _ = (published s.metrics).take s.subscribedAt ++ s.applied := by
          rw [List.take_append, hlen, List.take_of_length_le (by omega), Nat.add_sub_cancel_left, List.take_left']
          rfl
  calc s.page
      = draw label number (s.shown.rtake s.limit) s.limit := hlive.page hsynced
    _ = draw label number (s.applied.rtake s.limit) s.limit := by rw [System.shown, rtake_append_of_le hmany]
    _ = draw label number ((history.take (s.subscribedAt + s.applied.length)).rtake s.limit) s.limit := by
        rw [happlied, rtake_append_of_le hmany]

/-- the steps of the sampler from its start to the end of a sample, and through another one -/
def firstSample : List Act := List.replicate 18 (.server (.sampler 1))
def nextSample : List Act := List.replicate 13 (.server (.sampler 2))

/-- a page with room for one sample: one before the snapshot and one after -/
def twoSamples : List Act :=
  firstSample ++ [.load, .subscribe, .snapshot, .receive] ++ nextSample ++ [.send, .receive]

theorem chart_follows_two_samples :
    let s := run (step id id) (init 1) twoSamples
    s.synced = true ∧ s.lost = false ∧ s.applied.length = 1 ∧
      s.page = draw id id ((s.metrics.history.take (s.subscribedAt + s.applied.length)).rtake s.limit) s.limit := by
  intro s
  have hsynced : s.synced = true := rfl
  have hlost : s.lost = false := rfl
  have hmany : s.limit ≤ s.applied.length := le_of_eq rfl
  exact ⟨hsynced, hlost, rfl, (((chart_follows id id 1 twoSamples).2.2 hsynced).2.2.2.2 hlost).2 hmany⟩

end MeshProxy.TrafficChart
