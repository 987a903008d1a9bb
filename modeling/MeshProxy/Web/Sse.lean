/-
The stream of events to a browser (`internal/web/server.go`: handleSSE; `templates/static/app.js`: the listeners).

The handler is one goroutine among the publishers and subscribers (Metrics.Subscriber). It subscribes, writes five opening
events with what it reads of the metrics, then each event it takes from its channel, and unsubscribes when the request is
over. A write is `event: …`, `data: …` and an empty line, with the JSON of the data; a write to a broken connection goes
nowhere, and its error is dropped. The data of an event is the JSON it has when the handler marshals it, or none where
json.Marshal fails; of the opening data that error is dropped as well. `messages` is what has been handed to Fprintf, and
`opening` the part before the loop; they are for the statements only.

- `step_inv`: the connection carries the frames of the messages, and these are the opening events and what was taken;
- `stream_read_back`: whatever part of the stream a browser has read, it has dispatched just these events, in order;
- `stream_loses_nothing`: an event that can be marshalled is written, on its way, or met the handler's channel full.
-/
import MeshProxy.Core.EventStream
import MeshProxy.Core.Json
import MeshProxy.Metrics.Subscriber

namespace MeshProxy.Sse

open MeshProxy.EventStream (Message OneLine frame received)
open MeshProxy.PubSub (Stamped delivered sentTo)
open MeshProxy.Subscriber MeshProxy.Trace

/-! ## Events -/

/-- the types that are published, and those of the opening events -/
inductive EventType where
  | metrics | message | clients | nodeDirectory | nodePositionUpdate | nodeTelemetryUpdate | nodeSignalUpdate
  | nodeUpdate | nodeFavorite | tracerouteResult | chatMessage | chatHistory | traceHistory
deriving DecidableEq, Repr

def EventType.name : EventType → String
  | .metrics => "metrics"
  | .message => "message"
  | .clients => "clients"
  | .nodeDirectory => "node_directory"
  | .nodePositionUpdate => "node_position_update"
  | .nodeTelemetryUpdate => "node_telemetry_update"
  | .nodeSignalUpdate => "node_signal_update"
  | .nodeUpdate => "node_update"
  | .nodeFavorite => "node_favorite"
  | .tracerouteResult => "traceroute_result"
  | .chatMessage => "chat_message"
  | .chatHistory => "chat_history"
  | .traceHistory => "trace_history"

/-- the events app.js listens to -/
def listeners : List String :=
  ["metrics", "message", "clients", "node_directory", "node_position_update", "node_telemetry_update",
    "node_signal_update", "node_update", "traceroute_result", "trace_history", "node_favorite", "chat_history",
    "chat_message"]

structure Event where
  type : EventType
  data : Option Json.Value

/-- the message of an event, unless it is passed over because it cannot be marshalled -/
def toMessage (evt : Event) : Option Message := evt.data.map fun v => ⟨evt.type.name.toList, v.encode⟩

/-- `snapJSON, _ := json.Marshal(snap)` and so on: without its error, a failure gives no text -/
def openingMessage (type : EventType) (data : Option Json.Value) : Message :=
  ⟨type.name.toList, (data.map Json.Value.encode).getD []⟩

/-- the opening events -/
def openingTypes : List EventType := [.metrics, .clients, .nodeDirectory, .chatHistory, .traceHistory]

/-! ## The handler -/

/-- the goroutine of the request, and the channel Subscribe makes for it -/
def self : ℕ := 0
def ch : ℕ := 0

inductive Pc where
  | start
  | refused
  | subscribing
  | opening (todo : List EventType)
  | selecting
  | unsubscribing
  | returned

structure Handler where
  pc : Pc
  sub : PubSub.Metrics Event
  cancelled : Bool
  broken : Bool
  wire : List Char
  opening : List Message
  messages : List Message

def init : Handler := ⟨.start, PubSub.init, false, false, [], [], []⟩

inductive Act where
  | other (a : PubSub.Act Event)
  /-- the request is over, and its connection is gone -/
  | cancel
  | breaks
  /-- the handler is called; whether its writer can be flushed -/
  | call (flusher : Bool)
  /-- a step of Subscribe or Unsubscribe -/
  | exec (order : List ℕ)
  /-- the next of the opening events, with what is read for it -/
  | snapshot (data : Option Json.Value)
  /-- the select takes `<-ch`, or `<-ctx.Done()` -/
  | receive
  | done

namespace Handler

/-- `fmt.Fprintf(w, "event: %s\ndata: %s\n\n", …)` -/
def write (s : Handler) (m : Message) : Handler :=
  { s with wire := if s.broken then s.wire else s.wire ++ frame m, messages := s.messages ++ [m] }

/-- the handler returns: the deferred Unsubscribe begins -/
def leave (s : Handler) : Handler := { s with sub := s.sub.call self (.unsubscribe ch), pc := .unsubscribing }

/-- a step of Subscribe or Unsubscribe, and where the handler goes on once the call is over -/
def exec (s : Handler) (order : List ℕ) (next : Pc) : Handler :=
  let sub := s.sub.exec self order
  { s with sub, pc := continue_ self sub s.pc next }

end Handler

def step (s : Handler) : Act → Handler
  | .other a => if Foreign self ch a then { s with sub := PubSub.step s.sub a } else s
  | .cancel => { s with cancelled := true }
  | .breaks => { s with broken := true }
  | .call flusher =>
    match s.pc with
    | .start =>
      if flusher then { s with sub := s.sub.call self (.subscribe ch), pc := .subscribing } else { s with pc := .refused }
    | _ => s
  | .exec order =>
    match s.pc with
    | .subscribing => s.exec order (.opening openingTypes)
    | .unsubscribing => s.exec order .returned
    | _ => s
  | .snapshot data =>
    match s.pc with
    | .opening (t :: todo) =>
      let m := openingMessage t data
      { s.write m with opening := s.opening ++ [m], pc := .opening todo }
    | .opening [] => { s with pc := .selecting } -- flusher.Flush()
    | _ => s
  | .receive =>
    match s.pc, (s.sub.chan ch).queue with
    | .selecting, [] => if (s.sub.chan ch).closed then s.leave else s
    | .selecting, x :: _ =>
      let s := { s with sub := s.sub.take ch }
      match toMessage x.evt with
      | none => s
      | some m => s.write m
    | _, _ => s
  | .done =>
    match s.pc with
    | .selecting => if s.cancelled then s.leave else s
    | _ => s

/-- the steps the publishing machine makes meanwhile -/
def subActs (s : Handler) : Act → List (PubSub.Act Event)
  | .other a => if Foreign self ch a then [a] else []
  | .call flusher =>
    match s.pc with
    | .start => if flusher then [.call self (.subscribe ch)] else []
    | _ => []
  | .exec order =>
    match s.pc with
    | .subscribing | .unsubscribing => [.exec self order]
    | _ => []
  | .receive =>
    match s.pc, (s.sub.chan ch).queue with
    | .selecting, [] => if (s.sub.chan ch).closed then [.call self (.unsubscribe ch)] else []
    | .selecting, _ :: _ => [.take ch]
    | _, _ => []
  | .done =>
    match s.pc with
    | .selecting => if s.cancelled then [.call self (.unsubscribe ch)] else []
    | _ => []
  | .cancel | .breaks | .snapshot _ => []

variable {s : Handler}

theorem step_sub (s : Handler) (a : Act) : (step s a).sub = run PubSub.step s.sub (subActs s a) := by
  cases a with
  | receive =>
    simp only [step, subActs]
    split
    · split_ifs <;> rfl
    · split <;> rfl
    · rfl
  | _ =>
    simp only [step, subActs]
    repeat' (first | split | split_ifs)
    all_goals rfl

theorem subActs_length (s : Handler) (a : Act) : (subActs s a).length ≤ 1 := by
  cases a <;> simp only [subActs] <;> (repeat' (first | split | split_ifs)) <;> simp

/-! ## What is written -/

theorem name_plain (t : EventType) : OneLine t.name.toList ∧ t.name.toList ≠ [] := by cases t <;> decide

/-- every event that is written has a listener -/
theorem name_listened (t : EventType) : t.name ∈ listeners := by cases t <;> decide

theorem oneLine_of_printable {text : List Char} (h : Json.Printable text) : OneLine text :=
  ⟨fun hlf => absurd (h _ hlf) (by decide), fun hcr => absurd (h _ hcr) (by decide)⟩

theorem toMessage_plain {evt : Event} {m : Message} (h : toMessage evt = some m) : m.Plain := by
  obtain ⟨v, -, rfl⟩ := Option.map_eq_some_iff.1 h
  exact ⟨(name_plain _).1, (name_plain _).2, oneLine_of_printable (Json.encode_printable v)⟩

theorem openingMessage_plain (t : EventType) (data : Option Json.Value) : (openingMessage t data).Plain := by
  refine ⟨(name_plain t).1, (name_plain t).2, ?_⟩
  cases data with
  | none => exact ⟨List.not_mem_nil, List.not_mem_nil⟩
  | some v => exact oneLine_of_printable (Json.encode_printable v)

/-! ## The invariant -/

/-- how far the handler is with its channel -/
def Pc.phase : Pc → Phase
  | .start => .before
  | .refused => .gone
  | .subscribing => .joining
  | .opening _ | .selecting => .listening
  | .unsubscribing => .leaving
  | .returned => .gone

/-- the opening events still to write -/
def Pc.remaining : Pc → List EventType
  | .start | .refused | .subscribing => openingTypes
  | .opening todo => todo
  | .selecting | .unsubscribing | .returned => []

/-- nothing is taken before the loop -/
def Pc.early : Pc → Bool
  | .selecting | .unsubscribing | .returned => false
  | _ => true

structure Inv (s : Handler) : Prop where
  sub : PubSub.Inv s.sub
  stands : Stands self ch s.sub s.pc.phase
  opening : s.opening.map (·.type) ++ s.pc.remaining.map (·.name.toList) = openingTypes.map (·.name.toList)
  early : s.pc.early = true → (s.sub.chan ch).received = []
  messages : s.messages = s.opening ++ (s.sub.chan ch).received.filterMap fun x => toMessage x.evt
  plain : ∀ m ∈ s.messages, m.Plain
  wire : s.wire <+: s.messages.flatMap frame
  whole : s.broken = false → s.wire = s.messages.flatMap frame

theorem init_inv : Inv init where
  sub := PubSub.init_inv
  stands := ⟨rfl, rfl⟩
  opening := rfl
  early := fun _ => rfl
  messages := rfl
  plain := fun _ h => absurd h List.not_mem_nil
  wire := List.prefix_refl _
  whole := fun _ => rfl

/-- the handler goes on, and writes nothing -/
theorem Inv.goto (h : Inv s) {sub : PubSub.Metrics Event} {k : Pc} (hsub : PubSub.Inv sub)
    (hstands : Stands self ch sub k.phase) (hremaining : k.remaining = s.pc.remaining)
    (hearly : k.early = true → s.pc.early = true) (hreceived : (sub.chan ch).received = (s.sub.chan ch).received) :
    Inv { s with sub := sub, pc := k } where
  sub := hsub
  stands := hstands
  opening := by
    rw [hremaining]
    exact h.opening
  early := fun hk => hreceived.trans (h.early (hearly hk))
  messages := by
    rw [hreceived]
    exact h.messages
  plain := h.plain
  wire := h.wire
  whole := h.whole

theorem leave_inv (h : Inv s) (hpc : s.pc = .selecting) : Inv s.leave := by
  have hstands := h.stands
  rw [hpc] at hstands
  refine h.goto (k := .unsubscribing) (PubSub.step_inv h.sub (.call self (.unsubscribe ch))) hstands.unsubscribe ?_ nofun ?_
  · rw [hpc]
    rfl
  · rw [call_chan]

/-- a step inside Subscribe or Unsubscribe -/
theorem exec_inv (h : Inv s) (hk : s.pc.phase = .joining ∨ s.pc.phase = .leaving) {next : Pc}
    (hnext : next.phase = s.pc.phase.next) (hremaining : next.remaining = s.pc.remaining)
    (hearly : next.early = true → s.pc.early = true) (order : List ℕ) : Inv (s.exec order next) := by
  have hsub : PubSub.Inv (s.sub.exec self order) := PubSub.step_inv h.sub (.exec self order)
  have hreceived := exec_received (s := s.sub) self order ch
  rcases Stands.exec h.sub.registry hk h.stands order s.pc next with ⟨hstands, hpc⟩ | ⟨hstands, hpc⟩
  · simp only [Handler.exec, hpc]
    exact h.goto hsub hstands rfl id hreceived
  · simp only [Handler.exec, hpc]
    rw [← hnext] at hstands
    exact h.goto hsub hstands hremaining hearly hreceived

/-- what is written is a frame more, or nothing if the connection is broken -/
theorem write_wire (h : Inv s) (m : Message) :
    (s.write m).wire <+: (s.write m).messages.flatMap frame ∧
      (s.broken = false → (s.write m).wire = (s.write m).messages.flatMap frame) := by
  have hgrown : (s.write m).messages.flatMap frame = s.messages.flatMap frame ++ frame m := by
    simp [Handler.write, List.flatMap_append]
  rw [hgrown]
  cases hb : s.broken with
  | false =>
    have hwire : (s.write m).wire = s.messages.flatMap frame ++ frame m := by simp [Handler.write, hb, h.whole hb]
    rw [hwire]
    exact ⟨List.prefix_refl _, fun _ => rfl⟩
  | true =>
    have hwire : (s.write m).wire = s.wire := by simp [Handler.write, hb]
    rw [hwire]
    exact ⟨h.wire.trans (List.prefix_append _ _), nofun⟩

theorem write_plain (h : Inv s) {m : Message} (hm : m.Plain) : ∀ m' ∈ (s.write m).messages, m'.Plain := by
  intro m' hm'
  rcases List.mem_append.1 hm' with hm' | hm'
  · exact h.plain m' hm'
  · rwa [List.mem_singleton.1 hm']

/-- an opening event is written: nothing has been taken yet -/
theorem snapshot_inv (h : Inv s) {t : EventType} {todo : List EventType} (hpc : s.pc = .opening (t :: todo))
    (data : Option Json.Value) :
    Inv { s.write (openingMessage t data) with opening := s.opening ++ [openingMessage t data], pc := .opening todo } := by
  have hstands := h.stands
  have hopening := h.opening
  rw [hpc] at hstands hopening
  have hempty : (s.sub.chan ch).received = [] := h.early (by rw [hpc]; rfl)
  have hmessages := h.messages
  rw [hempty, List.filterMap_nil, List.append_nil] at hmessages
  refine ⟨h.sub, hstands, ?_, fun _ => hempty, ?_, write_plain h (openingMessage_plain t data), (write_wire h _).1,
    (write_wire h _).2⟩
  · rw [← hopening]
    simp [Pc.remaining, openingMessage]
  · simp [Handler.write, hmessages, hempty]

/-- the handler takes an event: it writes it, or passes it over -/
theorem receive_inv (h : Inv s) (hpc : s.pc = .selecting) {x : Stamped Event} {queue : List (Stamped Event)}
    (hq : (s.sub.chan ch).queue = x :: queue) : Inv (step s .receive) := by
  have hsub : PubSub.Inv (s.sub.take ch) := PubSub.step_inv h.sub (.take ch)
  have hstands := h.stands
  have hmessages := h.messages
  rw [hpc] at hstands
  simp only [step, hpc, hq]
  cases hm : toMessage x.evt with
  | none =>
    refine ⟨hsub, hstands.take, hpc ▸ h.opening, nofun, ?_, h.plain, h.wire, h.whole⟩
    simp [take_received hq, List.filterMap_append, hm, hmessages]
  | some m =>
    refine ⟨hsub, hstands.take, hpc ▸ h.opening, nofun, ?_, write_plain h (toMessage_plain hm), (write_wire h m).1,
      (write_wire h m).2⟩
    simp [Handler.write, take_received hq, List.filterMap_append, hm, hmessages]

theorem step_inv (h : Inv s) (a : Act) : Inv (step s a) := by
  have hstands := h.stands
  cases a with
  | other a =>
    simp only [step]
    split_ifs with ha
    · exact h.goto (PubSub.step_inv h.sub a) (h.stands.foreign h.sub.registry ha) rfl id (foreign_received ha)
    · exact h
  | cancel => exact ⟨h.sub, h.stands, h.opening, h.early, h.messages, h.plain, h.wire, h.whole⟩
  | breaks => exact ⟨h.sub, h.stands, h.opening, h.early, h.messages, h.plain, h.wire, nofun⟩
  | call flusher =>
    simp only [step]
    split <;> rename_i hpc <;> try exact h
    rw [hpc] at hstands
    split_ifs
    · refine h.goto (k := .subscribing) (PubSub.step_inv h.sub (.call self (.subscribe ch))) hstands.subscribe ?_ ?_ ?_
      · rw [hpc]
        rfl
      · intro _
        rw [hpc]
        rfl
      · rw [call_chan]
    · refine h.goto (k := .refused) h.sub trivial ?_ ?_ rfl
      · rw [hpc]
        rfl
      · intro _
        rw [hpc]
        rfl
  | exec order =>
    simp only [step]
    split <;> rename_i hpc <;> try exact h
    · exact exec_inv h (by rw [hpc]; exact .inl rfl) (by rw [hpc]; rfl) (by rw [hpc]; rfl) (by rw [hpc]; exact id) order
    · exact exec_inv h (by rw [hpc]; exact .inr rfl) (by rw [hpc]; rfl) (by rw [hpc]; rfl) (fun he => by cases he) order
  | snapshot data =>
    simp only [step]
    split <;> rename_i hpc <;> try exact h
    · exact snapshot_inv h hpc data
    · rw [hpc] at hstands
      exact h.goto h.sub hstands (by rw [hpc]; rfl) nofun rfl
  | receive =>
    by_cases hpc : s.pc = .selecting
    · cases hq : (s.sub.chan ch).queue with
      | nil =>
        simp only [step, hpc, hq]
        split_ifs
        · exact leave_inv h hpc
        · exact h
      | cons x queue => exact receive_inv h hpc hq
    · have hstay : step s .receive = s := by
        simp only [step]
        split <;> simp_all
      rwa [hstay]
  | done =>
    simp only [step]
    split <;> rename_i hpc <;> try exact h
    split_ifs
    · exact leave_inv h hpc
    · exact h

/-! ## Whole runs -/

theorem reachable_inv (as : List Act) : Inv (run step init as) :=
  run_inv_all (I := Inv) (fun _ a h => step_inv h a) as init_inv

/-- **The stream is read back.** After any steps of the handler and of everybody else, and however much of the stream has
reached the browser:
- what the browser has dispatched is a prefix of the opening events followed by the events that the handler has taken, less
  those it could not marshal; it is all of these once the whole stream has arrived over an unbroken connection;
- the opening events come in their order, and all of them before the handler takes anything;
- the events taken from one publisher come in the order in which it published them, and none is taken twice;
- every type of an event that is written has a listener. -/
theorem stream_read_back (as : List Act) :
    let s := run step init as
    let shown := s.opening ++ (s.sub.chan ch).received.filterMap fun x => toMessage x.evt
    (∀ n, received {} (s.wire.take n) <+: shown) ∧ (s.broken = false → received {} s.wire = shown) ∧
    (s.opening.map (·.type) <+: openingTypes.map (·.name.toList) ∧
      ((s.sub.chan ch).received ≠ [] → s.opening.map (·.type) = openingTypes.map (·.name.toList))) ∧
    ((s.sub.chan ch).received.Nodup ∧
      ∀ g, ((s.sub.chan ch).received.filter fun x => x.by_ = g).Sublist (sentTo s.sub ch g)) ∧
    ∀ m ∈ shown, ∃ name ∈ listeners, m.type = name.toList := by
  intro s shown
  have h : Inv s := reachable_inv as
  have hshown : shown = s.messages := h.messages.symm
  have htaken : ((s.sub.chan ch).received).Sublist (delivered s.sub ch) := List.sublist_append_left _ _
  refine ⟨fun n => ?_, fun hb => ?_, ⟨⟨_, h.opening⟩, fun hne => ?_⟩, ⟨(delivered_nodup h.sub ch).sublist htaken, fun g => ?_⟩,
    fun m hm => ?_⟩
  · rw [hshown]
    exact EventStream.received_prefix h.plain ((List.take_prefix n s.wire).trans h.wire)
  · rw [hshown, h.whole hb]
    exact EventStream.received_frames h.plain
  · have hlate : s.pc.early = false := by
      by_contra hearly
      exact hne (h.early (by simpa using hearly))
    have hopening := h.opening
    have hnone : s.pc.remaining = [] := by
      cases hpc : s.pc <;> rw [hpc] at hlate <;> first | rfl | cases hlate
    rwa [hnone, List.map_nil, List.append_nil] at hopening
  · exact (htaken.filter _).trans (h.sub.delivery.sublist ch g)
  · rcases List.mem_append.1 hm with hm | hm
    · have htype : m.type ∈ openingTypes.map (·.name.toList) := by
        rw [← h.opening]
        exact List.mem_append_left _ (List.mem_map_of_mem hm)
      obtain ⟨t, -, ht⟩ := List.mem_map.1 htype
      exact ⟨t.name, name_listened t, ht.symm⟩
    · obtain ⟨x, -, hx⟩ := List.mem_filterMap.1 hm
      obtain ⟨v, -, rfl⟩ := Option.map_eq_some_iff.1 hx
      exact ⟨x.evt.type.name, name_listened _, rfl⟩

/-- **The stream loses nothing without cause.** An event that can be marshalled, published while the handler's channel is in
the map, has been written, waits in the channel, is still to be sent to it, or came to a full channel at one step of the
run. -/
theorem stream_loses_nothing (as : List Act) :
    let s := run step init as
    ∀ p ∈ s.sub.published, ch ∈ p.targets → ∀ m, toMessage p.event.evt = some m →
      (p.event ∈ (s.sub.chan ch).received ∧ m ∈ s.messages) ∨ p.event ∈ (s.sub.chan ch).queue ∨
      PubSub.StillToSend s.sub ch p.event ∨
      ∃ bs a cs, as = bs ++ a :: cs ∧
        ∃ b ∈ subActs (run step init bs) a, PubSub.SendsToFull (run step init bs).sub ch p.event b := by
  intro s p hp hch m hm
  have h : Inv s := reachable_inv as
  rcases accounted step_sub subActs_length rfl as p hp ch hch with hdelivered | hstill | hfull
  · rcases List.mem_append.1 hdelivered with hreceived | hqueue
    · refine .inl ⟨hreceived, ?_⟩
      rw [h.messages]
      exact List.mem_append_right _ (List.mem_filterMap.2 ⟨p.event, hreceived, hm⟩)
    · exact .inr (.inl hqueue)
  · exact .inr (.inr (.inl hstill))
  · exact .inr (.inr (.inr hfull))

end MeshProxy.Sse
