/-
The chat on a freshly opened dashboard (`internal/metrics`: RecordChatMessage, ChatMessages, Subscribe, publish;
`internal/web/server.go`: the start of handleSSE; `internal/web/templates/static/chat.js`: loadChatHistory,
appendChatMessage).

RecordChatMessage appends to the ring and then publishes, two steps. handleSSE subscribes, sends the history and then
streams the channel, so that no message is missed. Any number of RecordChatMessage calls run interleaved with it. A message
is named by the number of the call that records it; `msg i` is what call i records. json.Marshal fails on a message whose
rx_snr is not finite: in the history its error is dropped and the event has no data, so that JSON.parse throws and the
page keeps its list; in the stream such a message is skipped. The page is not paused, and other events do not touch the
chat.

`early i`: message i was in the ring when the history was read. `live i`: it was published to the new subscriber.
- `record_alone`, `history_marshals`: a call that is not interrupted is the store's RecordChatMessage, and the history can
  be marshalled when the store's chat can;
- `Core.exactly`: how often a message has been shown or waits, from `early` and `live`, while every message is finite;
- `chat_exactly_once_iff`: every recorded message is on the page exactly once, exactly when all of them are finite and
  none was both.
-/
import MeshProxy.Core.Trace
import MeshProxy.Metrics.Store

namespace MeshProxy.ChatHistory

open MeshProxy.Store MeshProxy.Trace

/-! ## The machine -/

/-- where a RecordChatMessage call is -/
inductive Pc where
  | start | appended | published
deriving DecidableEq, Repr

/-- where handleSSE is -/
inductive Sse where
  | start | subscribed | streaming
deriving DecidableEq, Repr

structure St where
  ring : List ℕ
  pc : ℕ → Pc
  sse : Sse
  channel : List ℕ
  /-- `allChatMessages` -/
  page : List ℕ
  /-- what has been recorded, and what has ever been put on the page -/
  recorded : List ℕ
  shown : List ℕ
  early : ℕ → Bool
  live : ℕ → Bool

inductive Act where
  | append (i : ℕ)
  | publish (i : ℕ)
  | subscribe
  | history
  | deliver

def St.init : St where
  ring := []
  pc := fun _ => .start
  sse := .start
  channel := []
  page := []
  recorded := []
  shown := []
  early := fun _ => false
  live := fun _ => false

variable (msg : ℕ → ChatMessage)

def sseBufferSize : ℕ := 64

/-- the page keeps as many messages as the ring -/
def pageLimit : ℕ := 500

/-- `json.Marshal` of a chat message succeeds -/
def marshals (i : ℕ) : Bool := (msg i).rxSnr.isFinite

/-- the data of the `chat_history` event: nothing, when json.Marshal fails -/
def historyData (ring : List ℕ) : Option (List ℕ) := if ring.all (marshals msg) then some ring else none

def loadChatHistory (page messages : List ℕ) : List ℕ := if messages = [] then page else messages

/-- the page's `chat_history` listener: JSON.parse of no data throws -/
def onChatHistory (page : List ℕ) : Option (List ℕ) → List ℕ
  | some messages => loadChatHistory page messages
  | none => page

def appendChatMessage (page : List ℕ) (msg : ℕ) : List ℕ :=
  if pageLimit < (page ++ [msg]).length then (page ++ [msg]).drop 1 else page ++ [msg]

/-- the ring append, under chatMu -/
def St.append (s : St) (i : ℕ) : St :=
  { s with
    ring := ringAppend s.ring defaultMaxChatMessages i
    pc := Function.update s.pc i .appended
    recorded := s.recorded ++ [i]
    early := Function.update s.early i (s.sse ≠ .streaming) }

/-- the publish: nothing for a page that has not subscribed, a drop when its channel is full -/
def St.publish (s : St) (i : ℕ) : St :=
  let s := { s with pc := Function.update s.pc i .published }
  if s.sse = .start then s
  else if s.channel.length < sseBufferSize then
    { s with channel := s.channel ++ [i], live := Function.update s.live i true }
  else s

def step (s : St) : Act → St
  | .append i => if s.pc i = .start then s.append i else s
  | .publish i => if s.pc i = .appended then s.publish i else s
  | .subscribe => if s.sse = .start then { s with sse := .subscribed } else s
  | .history =>
    if s.sse = .subscribed then
      { s with
        sse := .streaming
        page := onChatHistory s.page (historyData msg s.ring)
        shown := (historyData msg s.ring).getD [] }
    else s
  | .deliver =>
    match s.sse, s.channel with
    | .streaming, i :: is =>
      if marshals msg i then { s with channel := is, page := appendChatMessage s.page i, shown := s.shown ++ [i] }
      else { s with channel := is }
    | _, _ => s

/-- the subscriber's buffer does not overflow -/
def Room (s : St) : Act → Prop
  | .publish _ => s.sse ≠ .start → s.channel.length < sseBufferSize
  | _ => True

instance (s : St) : ∀ a, Decidable (Room s a)
  | .publish _ => inferInstanceAs (Decidable (s.sse ≠ .start → _))
  | .append _ | .subscribe | .history | .deliver => inferInstanceAs (Decidable True)

/-- handleSSE streams, every queued event is delivered, and no call is between its two steps -/
structure Done (s : St) : Prop where
  streaming : s.sse = .streaming
  delivered : s.channel = []
  returned : ∀ i, s.pc i ≠ .appended

/-- a call that is not interrupted is the store's RecordChatMessage: the same ring, the same event for a subscriber -/
theorem record_alone (m : Metrics) (s : St) (hring : s.ring.map msg = m.chatMessages) {i : ℕ}
    (hpc : s.pc i = .start) (hsse : s.sse ≠ .start) (hroom : s.channel.length < sseBufferSize) :
    (run (step msg) s [.append i, .publish i]).ring.map msg = (m.recordChatMessage (msg i)).chatMessages ∧
      m.events ++ ((run (step msg) s [.append i, .publish i]).channel.drop s.channel.length).map (fun k => .chatMessage (msg k)) =
        (m.recordChatMessage (msg i)).events := by
  have hlen : m.chatMessages.length = s.ring.length := by rw [← hring, List.length_map]
  simp only [run_cons, run_nil, step, hpc, if_true, St.append, Function.update_self, St.publish, hsse, if_false, hroom,
    Metrics.recordChatMessage, Metrics.publish, List.drop_left, List.map_cons, List.map_nil, and_true]
  simp only [ringAppend, List.map_append, List.map_cons, List.map_nil, hlen]
  split_ifs
  · rw [List.map_drop, hring]
  · rw [hring]

/-- the history can be marshalled exactly when the store's chat can -/
theorem history_marshals (m : Metrics) (s : St) (hring : s.ring.map msg = m.chatMessages) :
    historyData msg s.ring = some s.ring ↔ Metrics.MarshalOk m.chatFloats := by
  have hall : (s.ring.all (marshals msg) = true) ↔ Metrics.MarshalOk m.chatFloats := by
    rw [List.all_eq_true]
    constructor
    · rintro h x ⟨c, hc, rfl⟩
      rw [← hring] at hc
      obtain ⟨i, hi, rfl⟩ := List.mem_map.1 hc
      exact h i hi
    · exact fun h i hi => h _ ⟨msg i, hring ▸ List.mem_map_of_mem hi, rfl⟩
  rw [← hall]
  unfold historyData
  split_ifs with h <;> simp [h]

/-! ## The invariant -/

/-- while nothing is evicted, and every message can be marshalled -/
structure Core (s : St) : Prop where
  ring : s.ring = s.recorded
  mem : ∀ i, i ∈ s.recorded ↔ s.pc i ≠ .start
  nodup : s.recorded.Nodup
  early_pc : ∀ i, s.early i = true → s.pc i ≠ .start
  late : ∀ i, s.pc i ≠ .start → s.early i = false → s.sse = .streaming
  live_pc : ∀ i, s.live i = true → s.pc i = .published
  /-- a message the history does not have is published to the subscriber -/
  heard : ∀ i, s.pc i = .published → s.early i = false → s.live i = true
  blank : s.sse ≠ .streaming → s.shown = [] ∧ s.page = []
  /-- a message is shown or waits once from the history and once from the channel -/
  exactly : ∀ i, s.shown.count i + s.channel.count i =
    (if s.sse = .streaming ∧ s.early i = true then 1 else 0) + if s.live i = true then 1 else 0
  page : s.page = s.shown.drop (s.shown.length - pageLimit)

theorem init_core : Core .init := by
  constructor <;> simp [St.init]

theorem appendChatMessage_drop (shown : List ℕ) (i : ℕ) :
    appendChatMessage (shown.drop (shown.length - pageLimit)) i =
      (shown ++ [i]).drop ((shown ++ [i]).length - pageLimit) := by
  have hlen : (shown.drop (shown.length - pageLimit) ++ [i]).length = min shown.length pageLimit + 1 := by
    simp only [List.length_append, List.length_drop, List.length_singleton]
    omega
  unfold appendChatMessage
  rw [hlen]
  have happ : shown.drop (shown.length - pageLimit) ++ [i] = (shown ++ [i]).drop (shown.length - pageLimit) := by
    rw [List.drop_append_of_le_length (Nat.sub_le _ _)]
  rw [happ, List.length_append, List.length_singleton]
  split_ifs with h
  · have hone : shown.length - pageLimit + 1 = shown.length + 1 - pageLimit := by omega
    rw [List.drop_drop, hone]
  · have hsame : shown.length - pageLimit = shown.length + 1 - pageLimit := by omega
    rw [hsame]

/-- only a published message has been sent to the channel -/
theorem Core.not_live {s : St} (h : Core s) {i : ℕ} (hpc : s.pc i ≠ .published) : s.live i = false := by
  by_contra hl
  exact hpc (h.live_pc i (by simpa using hl))

theorem append_core {s : St} (h : Core s) {i : ℕ} (hpc : s.pc i = .start) (hlen : s.recorded.length < pageLimit) :
    Core (s.append i) := by
  have hnot : i ∉ s.recorded := fun hi => (h.mem i).1 hi hpc
  have hearly : s.early i = false := by
    by_contra he
    exact h.early_pc i (by simpa using he) hpc
  have hlive : s.live i = false := h.not_live (by simp [hpc])
  have hring : ¬defaultMaxChatMessages ≤ s.recorded.length := by
    simp only [pageLimit, defaultMaxChatMessages] at hlen ⊢
    omega
  refine ⟨?_, ?_, ?_, ?_, ?_, ?_, ?_, h.blank, ?_, h.page⟩
  · simp [St.append, ringAppend, h.ring, hring]
  · intro k
    by_cases hk : k = i
    · subst hk
      simp [St.append]
    · simp [St.append, hk, h.mem k]
  · exact List.nodup_append_comm.1 (List.nodup_cons.2 ⟨hnot, h.nodup⟩)
  · intro k hk
    by_cases hki : k = i
    · subst hki
      simp [St.append]
    · simp only [St.append, Function.update_of_ne hki] at hk ⊢
      exact h.early_pc k hk
  · intro k hk he
    by_cases hki : k = i
    · subst hki
      simpa [St.append] using he
    · simp only [St.append, Function.update_of_ne hki] at hk he ⊢
      exact h.late k hk he
  · intro k hk
    have hki : k ≠ i := by
      intro hki
      subst hki
      simp only [St.append] at hk
      rw [hlive] at hk
      cases hk
    simp only [St.append, Function.update_of_ne hki]
    exact h.live_pc k hk
  · intro k hk he
    by_cases hki : k = i
    · subst hki
      simp [St.append] at hk
    · simp only [St.append, Function.update_of_ne hki] at hk he ⊢
      exact h.heard k hk he
  · intro k
    have hold := h.exactly k
    by_cases hki : k = i
    · subst hki
      simp only [hearly, Bool.false_eq_true, and_false, if_false] at hold
      simp only [St.append, Function.update_self, decide_eq_true_eq]
      rw [hold]
      by_cases hs : s.sse = .streaming <;> simp [hs, hlive]
    · simp only [St.append, Function.update_of_ne hki]
      exact hold

theorem publish_core {s : St} (h : Core s) {i : ℕ} (hpc : s.pc i = .appended)
    (hroom : s.sse ≠ .start → s.channel.length < sseBufferSize) : Core (s.publish i) := by
  have hlive : s.live i = false := h.not_live (by simp [hpc])
  have hne : s.pc i ≠ .start := by simp [hpc]
  have hmem (k : ℕ) : k ∈ s.recorded ↔ Function.update s.pc i Pc.published k ≠ .start := by
    by_cases hki : k = i
    · subst hki
      simp [h.mem k, hne]
    · simp [hki, h.mem k]
  have hearly (k : ℕ) (hk : s.early k = true) : Function.update s.pc i Pc.published k ≠ .start :=
    (hmem k).1 ((h.mem k).2 (h.early_pc k hk))
  have hlate (k : ℕ) (hk : Function.update s.pc i Pc.published k ≠ .start) : s.early k = false → s.sse = .streaming :=
    h.late k ((h.mem k).1 ((hmem k).2 hk))
  by_cases hs : s.sse = .start
  · -- nobody listens yet: the message is in the ring before the history is read
    have hpub : s.publish i = { s with pc := Function.update s.pc i .published } := by simp [St.publish, hs]
    rw [hpub]
    refine ⟨h.ring, hmem, h.nodup, hearly, hlate, ?_, ?_, h.blank, h.exactly, h.page⟩
    · intro k hk
      by_cases hki : k = i
      · subst hki
        simp
      · simpa [hki] using h.live_pc k hk
    · intro k hk he
      by_cases hki : k = i
      · subst hki
        have hstream := h.late k hne he
        rw [hs] at hstream
        cases hstream
      · exact h.heard k (by simpa [hki] using hk) he
  · have hpub : s.publish i = { s with
        pc := Function.update s.pc i .published
        channel := s.channel ++ [i]
        live := Function.update s.live i true } := by simp [St.publish, hs, hroom hs]
    rw [hpub]
    refine ⟨h.ring, hmem, h.nodup, hearly, hlate, ?_, ?_, h.blank, ?_, h.page⟩
    · intro k hk
      by_cases hki : k = i
      · subst hki
        simp
      · simp only [Function.update_of_ne hki] at hk ⊢
        exact h.live_pc k hk
    · intro k hk he
      by_cases hki : k = i
      · subst hki
        simp
      · simp only [Function.update_of_ne hki] at hk ⊢
        exact h.heard k hk he
    · intro k
      have hold := h.exactly k
      by_cases hki : k = i
      · subst hki
        simp only [hlive, Bool.false_eq_true, if_false] at hold
        simp only [List.count_append, List.count_singleton_self, Function.update_self, if_true]
        omega
      · have hzero : List.count k [i] = 0 := by simp [Ne.symm hki]
        simp only [List.count_append, hzero, Function.update_of_ne hki]
        omega

theorem history_core {s : St} (h : Core s) (hs : s.sse = .subscribed) (hlen : s.recorded.length < pageLimit)
    (hfin : ∀ i ∈ s.recorded, marshals msg i = true) :
    Core { s with
      sse := .streaming
      page := onChatHistory s.page (historyData msg s.ring)
      shown := (historyData msg s.ring).getD [] } := by
  have hdata : historyData msg s.ring = some s.ring := by
    have hall : s.ring.all (marshals msg) = true := by
      rw [h.ring, List.all_eq_true]
      exact hfin
    rw [historyData, if_pos hall]
  rw [hdata]
  simp only [onChatHistory, Option.getD_some]
  have hnot : s.sse ≠ .streaming := by simp [hs]
  obtain ⟨hshown, hpage⟩ := h.blank hnot
  have hload : loadChatHistory s.page s.ring = s.ring := by
    unfold loadChatHistory
    split_ifs with hnil
    · rw [hpage, hnil]
    · rfl
  -- before the history is read, what is recorded is early
  have hearly (i : ℕ) : s.early i = true ↔ i ∈ s.recorded := by
    rw [h.mem i]
    constructor
    · exact h.early_pc i
    · intro hpc
      by_contra he
      exact hnot (h.late i hpc (by simpa using he))
  refine ⟨h.ring, h.mem, h.nodup, h.early_pc, fun _ _ _ => rfl, h.live_pc, h.heard, fun hc => absurd rfl hc, ?_, ?_⟩
  · intro i
    have hold := h.exactly i
    simp only [hshown, hnot, false_and, if_false, List.count_nil] at hold
    have hcount : s.ring.count i = if s.early i = true then 1 else 0 := by
      rw [h.ring]
      split_ifs with he
      · exact List.count_eq_one_of_mem h.nodup ((hearly i).1 he)
      · exact List.count_eq_zero.2 fun hi => he ((hearly i).2 hi)
    simp only [true_and, hcount]
    omega
  · rw [hload, h.ring, Nat.sub_eq_zero_of_le hlen.le, List.drop_zero]

theorem deliver_core {s : St} (h : Core s) (hs : s.sse = .streaming) {i : ℕ} {is : List ℕ} (hch : s.channel = i :: is) :
    Core { s with channel := is, page := appendChatMessage s.page i, shown := s.shown ++ [i] } := by
  refine ⟨h.ring, h.mem, h.nodup, h.early_pc, h.late, h.live_pc, h.heard, fun hc => absurd hs hc, ?_, ?_⟩
  · intro k
    have hold := h.exactly k
    rw [hch, List.count_cons] at hold
    simp only [List.count_append, List.count_singleton]
    omega
  · have hdrop := appendChatMessage_drop s.shown i
    rw [← h.page] at hdrop
    exact hdrop

/-- what is shown, or waits to be shown, has been recorded -/
theorem Core.mem_recorded {s : St} (h : Core s) {i : ℕ} (hi : i ∈ s.shown ∨ i ∈ s.channel) : i ∈ s.recorded := by
  have hpos : 0 < s.shown.count i + s.channel.count i := by
    rcases hi with hi | hi
    · exact Nat.add_pos_left (List.count_pos_iff.2 hi) _
    · exact Nat.add_pos_right _ (List.count_pos_iff.2 hi)
  have hcount := h.exactly i
  rw [h.mem i]
  by_cases he : s.early i = true
  · exact h.early_pc i he
  · have hl : s.live i = true := by
      by_contra hl
      simp [he, hl] at hcount
      omega
    simp [h.live_pc i hl]

/-- one step of a run that has recorded fewer than 500 messages, all of which can be marshalled -/
theorem step_core {s : St} {a : Act} (h : Core s) (hroom : Room s a)
    (hlen : (step msg s a).recorded.length < pageLimit)
    (hfin : ∀ i ∈ (step msg s a).recorded, marshals msg i = true) : Core (step msg s a) := by
  cases a with
  | append i =>
    simp only [step] at hlen ⊢
    split_ifs at hlen ⊢ with hpc
    · refine append_core h hpc ?_
      simp only [St.append, List.length_append, List.length_singleton] at hlen
      omega
    · exact h
  | publish i =>
    simp only [step]
    split_ifs with hpc
    · exact publish_core h hpc hroom
    · exact h
  | subscribe =>
    simp only [step]
    split_ifs with hs
    · have hnot : s.sse ≠ .streaming := by simp [hs]
      refine ⟨h.ring, h.mem, h.nodup, h.early_pc, ?_, h.live_pc, h.heard, fun _ => h.blank hnot, ?_, h.page⟩
      · intro i hpc he
        exact absurd (h.late i hpc he) hnot
      · intro i
        simpa [hs] using h.exactly i
    · exact h
  | history =>
    simp only [step] at hlen hfin ⊢
    split_ifs at hlen hfin ⊢ with hs
    · exact history_core msg h hs hlen hfin
    · exact h
  | deliver =>
    simp only [step]
    split
    · rename_i i is hs hch
      have hi : marshals msg i = true := by
        apply hfin
        simp only [step, hs, hch]
        have hmem := h.mem_recorded (i := i) (Or.inr (by rw [hch]; exact List.mem_cons_self))
        split_ifs <;> exact hmem
      rw [if_pos hi]
      exact deliver_core h hs hch
    · exact h

theorem recorded_prefix (s : St) (a : Act) : s.recorded <+: (step msg s a).recorded := by
  cases a with
  | append i =>
    simp only [step]
    split_ifs
    · exact List.prefix_append _ _
    · exact List.prefix_rfl
  | publish i =>
    simp only [step]
    split_ifs
    · unfold St.publish
      simp only
      split_ifs <;> exact List.prefix_rfl
    · exact List.prefix_rfl
  | deliver =>
    simp only [step]
    split
    · split_ifs <;> exact List.prefix_rfl
    · exact List.prefix_rfl
  | subscribe =>
    simp only [step]
    split_ifs <;> exact List.prefix_rfl
  | history =>
    simp only [step]
    split_ifs <;> exact List.prefix_rfl

theorem run_core {as : List Act} (hroom : Along (step msg) Room .init as)
    (hlen : (run (step msg) .init as).recorded.length < pageLimit)
    (hfin : ∀ i ∈ (run (step msg) .init as).recorded, marshals msg i = true) : Core (run (step msg) .init as) := by
  refine run_inv (I := fun s => s.recorded.length < pageLimit → (∀ i ∈ s.recorded, marshals msg i = true) → Core s) ?_
    (fun _ _ => init_core) hroom hlen hfin
  intro s a h ha hl hf
  have hpre := recorded_prefix msg s a
  exact step_core msg (h (hpre.length_le.trans_lt hl) fun i hi => hf i (hpre.subset hi)) ha hl hf

/-! ## Exactly once -/

variable {s : St}

/-- when all is done, a recorded message has been shown once, or twice if it was both early and live -/
theorem Core.count_shown (h : Core s) (hdone : Done s) {i : ℕ} (hi : i ∈ s.recorded) :
    s.shown.count i = 1 + if s.early i = true ∧ s.live i = true then 1 else 0 := by
  have hpub : s.pc i = .published := by
    have hne := (h.mem i).1 hi
    have hret := hdone.returned i
    cases hpc : s.pc i with
    | start => exact absurd hpc hne
    | appended => exact absurd hpc hret
    | published => rfl
  have hcount := h.exactly i
  rw [hdone.delivered] at hcount
  cases he : s.early i with
  | true => simpa [he, hdone.streaming] using hcount
  | false =>
    have hl := h.heard i hpub he
    simpa [he, hl] using hcount

/-- without repetitions the page holds all that was shown -/
theorem Core.page_eq_shown (h : Core s) (hlen : s.recorded.length < pageLimit) (hnodup : s.shown.Nodup) :
    s.page = s.shown := by
  have hle : s.shown.length ≤ s.recorded.length :=
    (hnodup.subperm fun i hi => h.mem_recorded (Or.inl hi)).length_le
  rw [h.page, Nat.sub_eq_zero_of_le (hle.trans hlen.le), List.drop_zero]

/-- a message on the page has come through json.Marshal -/
theorem step_page (h : ∀ i ∈ s.page, marshals msg i = true) (a : Act) : ∀ i ∈ (step msg s a).page, marshals msg i = true := by
  cases a with
  | append i =>
    simp only [step]
    split_ifs <;> exact h
  | publish i =>
    simp only [step]
    split_ifs
    · unfold St.publish
      simp only
      split_ifs <;> exact h
    · exact h
  | subscribe =>
    simp only [step]
    split_ifs <;> exact h
  | history =>
    simp only [step]
    split_ifs
    · unfold historyData
      split_ifs with hall
      · simp only [onChatHistory, loadChatHistory]
        split_ifs
        · exact h
        · exact List.all_eq_true.1 hall
      · exact h
    · exact h
  | deliver =>
    simp only [step]
    split
    · rename_i i is hs hch
      split_ifs with hi
      · have hnew : ∀ k ∈ s.page ++ [i], marshals msg k = true := by
          intro k hk
          rcases List.mem_append.1 hk with hk | hk
          · exact h k hk
          · rw [List.mem_singleton.1 hk]
            exact hi
        unfold appendChatMessage
        split_ifs
        · exact fun k hk => hnew k (List.mem_of_mem_drop hk)
        · exact hnew
      · exact h
    · exact h

theorem run_page (as : List Act) : ∀ i ∈ (run (step msg) .init as).page, marshals msg i = true :=
  run_inv_all (I := fun s : St => ∀ i ∈ s.page, marshals msg i = true) (fun _ a h => step_page msg h a) as
    (by simp [St.init])

/-- when every message can be marshalled, each is on the page exactly once if none was both early and live -/
theorem Core.once_iff (h : Core s) (hlen : s.recorded.length < pageLimit) (hdone : Done s) :
    (∀ i ∈ s.recorded, s.page.count i = 1) ↔ ∀ i ∈ s.recorded, ¬(s.early i = true ∧ s.live i = true) := by
  constructor
  · intro hpage i hi hboth
    have htwo := h.count_shown hdone hi
    rw [if_pos hboth] at htwo
    -- the page has no repetition, so it is shorter than the limit and nothing was trimmed
    have hsub : ∀ k ∈ s.page, k ∈ s.recorded := by
      intro k hk
      rw [h.page] at hk
      exact h.mem_recorded (Or.inl (List.mem_of_mem_drop hk))
    have hnodup : s.page.Nodup := by
      rw [List.nodup_iff_count_le_one]
      intro k
      by_cases hk : k ∈ s.page
      · exact (hpage k (hsub k hk)).le
      · rw [List.count_eq_zero.2 hk]
        exact Nat.zero_le 1
    have hle : s.page.length ≤ s.recorded.length := (hnodup.subperm hsub).length_le
    have hall : s.page = s.shown := by
      have hdrop := h.page
      have hsize := congrArg List.length hdrop
      rw [List.length_drop] at hsize
      have hzero : s.shown.length - pageLimit = 0 := by
        simp only [pageLimit] at hlen hsize ⊢
        omega
      rw [hdrop, hzero, List.drop_zero]
    have hone := hpage i hi
    rw [hall] at hone
    omega
  · intro hnone i hi
    have hnodup : s.shown.Nodup := by
      rw [List.nodup_iff_count_le_one]
      intro k
      by_cases hk : k ∈ s.shown
      · have hrec := h.mem_recorded (Or.inl hk)
        rw [h.count_shown hdone hrec, if_neg (hnone k hrec)]
      · rw [List.count_eq_zero.2 hk]
        exact Nat.zero_le 1
    rw [h.page_eq_shown hlen hnodup, h.count_shown hdone hi, if_neg (hnone i hi)]

/-- **Chat messages on a fresh dashboard.** For every interleaving of RecordChatMessage calls with the start of handleSSE
in which the subscriber's buffer never overflows and fewer than 500 messages are recorded: once every queued event is
delivered, each recorded message is on the page exactly once, exactly when each has a finite rx_snr and none was both
appended before the history was read and published after the Subscribe. -/
theorem chat_exactly_once_iff (as : List Act) (hroom : Along (step msg) Room .init as)
    (hlen : (run (step msg) .init as).recorded.length < 500) (hdone : Done (run (step msg) .init as)) :
    (∀ i ∈ (run (step msg) .init as).recorded, (run (step msg) .init as).page.count i = 1) ↔
      (∀ i ∈ (run (step msg) .init as).recorded, (msg i).rxSnr.isFinite = true) ∧
        ∀ i ∈ (run (step msg) .init as).recorded,
          ¬((run (step msg) .init as).early i = true ∧ (run (step msg) .init as).live i = true) := by
  constructor
  · intro hpage
    have hfin : ∀ i ∈ (run (step msg) .init as).recorded, marshals msg i = true := by
      intro i hi
      apply run_page msg as
      exact List.count_pos_iff.1 (by rw [hpage i hi]; exact Nat.one_pos)
    exact ⟨hfin, ((run_core msg hroom hlen hfin).once_iff hlen hdone).1 hpage⟩
  · rintro ⟨hfin, hnone⟩
    exact ((run_core msg hroom hlen hfin).once_iff hlen hdone).2 hnone

/-! ### Two messages -/

/-- one message before the page is opened, one while it streams -/
def apart : List Act := [.append 0, .publish 0, .subscribe, .history, .append 1, .publish 1, .deliver]

/-- a message appended before the history is read and published after -/
def overlap : List Act := [.append 0, .subscribe, .history, .publish 0, .deliver]

/-- a message of the web chat to everybody -/
def hello (_ : ℕ) : ChatMessage :=
  { from_ := 9, to_ := 4294967295, channel := 0, text := [104, 105], fromName := "", toName := "Broadcast",
    direction := .outgoing, viaMqtt := false, rxRssi := 0, rxSnr := .zero }

theorem apart_done : Done (run (step hello) .init apart) := by
  refine ⟨rfl, rfl, fun i => ?_⟩
  by_cases h0 : i = 0
  · subst h0
    decide
  · by_cases h1 : i = 1
    · subst h1
      decide
    · simp [apart, step, St.init, St.append, St.publish, sseBufferSize, marshals, hello, h0, h1]

theorem overlap_done : Done (run (step hello) .init overlap) := by
  refine ⟨rfl, rfl, fun i => ?_⟩
  by_cases h0 : i = 0
  · subst h0
    decide
  · simp [overlap, step, St.init, St.append, St.publish, sseBufferSize, marshals, hello, h0]

theorem chat_exactly_once_apart :
    (run (step hello) .init apart).recorded = [0, 1] ∧
      ∀ i ∈ (run (step hello) .init apart).recorded, (run (step hello) .init apart).page.count i = 1 :=
  ⟨by decide, (chat_exactly_once_iff hello apart (by decide) (by decide) apart_done).2 ⟨by decide, by decide⟩⟩

/-- the page has the message twice -/
theorem chat_message_twice :
    Along (step hello) Room .init overlap ∧ (run (step hello) .init overlap).recorded = [0] ∧
      Done (run (step hello) .init overlap) ∧ (run (step hello) .init overlap).page = [0, 0] :=
  ⟨by decide, by decide, overlap_done, by decide⟩

end MeshProxy.ChatHistory
