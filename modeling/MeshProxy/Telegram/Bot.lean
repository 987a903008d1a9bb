/-
The Telegram bot (`internal/telegram/bot.go`: New, Run, handleChatMessage; the texts are Format's).

The bot is one goroutine of the publishing machine (Metrics.Subscriber): it validates its token, subscribes, takes events from
its channel, formats the incoming chat messages of its mesh channels with the node directory of the moment and sends them
one at a time, until its context is cancelled; then Unsubscribe runs. Between any two of its steps the other goroutines
subscribe, publish and take, and the directory changes. What Telegram answers comes from outside.

- `step_sub`: the publishing machine under the bot moves by its own steps only;
- `bot_forwards`: what is sent is what was taken and passes the filter, in order, at most once, with its text;
- `bot_loses_nothing`: a message that passes the filter is sent, on its way, or met the bot's channel full.
-/
import MeshProxy.Metrics.Subscriber
import MeshProxy.Telegram.Format

namespace MeshProxy.Bridge

open MeshProxy.Frame (Bytes)
open MeshProxy.PubSub (Stamped delivered sentTo)
open MeshProxy.Subscriber MeshProxy.Telegram MeshProxy.Trace

/-! ## The filter -/

/-- the data of an event, as far as the bot can tell it apart -/
inductive Data where
  | chatMessage (direction : String) (msg : ChatMessage)
  | other

structure Event where
  type : String
  data : Data

/-- the allowed mesh channels, as `New` makes them -/
def newChannels (channels : List ℤ) : GoMap UInt32 Bool :=
  if channels.length = 0 then GoMap.empty.set 0 true
  else channels.foldl (fun m ch => if 0 ≤ ch ∧ ch ≤ 7 then m.set (UInt32.ofNat ch.toNat) true else m) .empty

/-- `b.channels[ch]` -/
def allowed (channels : GoMap UInt32 Bool) (ch : UInt32) : Bool := (channels.get? ch).getD false

/-- the message to forward, if Run's loop does not pass the event over -/
def accept (channels : GoMap UInt32 Bool) (evt : Event) : Option ChatMessage :=
  if evt.type ≠ "chat_message" then none
  else
    match evt.data with
    | .other => none
    | .chatMessage direction msg =>
      if direction ≠ "incoming" then none
      else if !allowed channels msg.channel then none
      else some msg

/-- an event the bot has taken, with the message in it -/
def taken (channels : GoMap UInt32 Bool) (x : Stamped Event) : Option (Stamped Event × ChatMessage) :=
  (accept channels x.evt).map fun msg => (x, msg)

/-! ## The machine -/

/-- the goroutine the bot runs in, and the channel Subscribe makes for it -/
def self : ℕ := 0
def ch : ℕ := 0

/-- where Run is -/
inductive Pc where
  | validating
  | subscribing
  | selecting
  | handling (x : Stamped Event) (msg : ChatMessage)
  | sending (x : Stamped Event) (msg : ChatMessage) (text : Bytes)
  | unsubscribing
  | returned

/-- a call of sendMessage, with what came of it; which event it is for is noted for the statements only -/
structure Sent where
  event : Stamped Event
  msg : ChatMessage
  text : Bytes
  ok : Bool

structure Bot where
  channels : GoMap UInt32 Bool
  pc : Pc
  sub : PubSub.Metrics Event
  nodeDir : GoMap UInt32 NodeEntry
  cancelled : Bool
  sent : List Sent

/-- `New`, before Run -/
def init (channels : List ℤ) : Bot := ⟨newChannels channels, .validating, PubSub.init, .empty, false, []⟩

inductive Act where
  | other (a : PubSub.Act Event)
  | setNodeDir (dir : GoMap UInt32 NodeEntry)
  | cancel
  /-- getMe has answered -/
  | validated (ok : Bool)
  /-- a step of Subscribe or Unsubscribe -/
  | exec (order : List ℕ)
  /-- the select takes `<-ch`, or `<-ctx.Done()` -/
  | receive
  | done
  | format
  /-- sendMessage has returned -/
  | answered (ok : Bool)

namespace Bot

/-- Run returns: the deferred Unsubscribe begins -/
def leave (s : Bot) : Bot := { s with sub := s.sub.call self (.unsubscribe ch), pc := .unsubscribing }

/-- a step of Subscribe or Unsubscribe, and where Run goes on once the call is over -/
def exec (s : Bot) (order : List ℕ) (next : Pc) : Bot :=
  let sub := s.sub.exec self order
  { s with sub, pc := continue_ self sub s.pc next }

end Bot

def step (s : Bot) : Act → Bot
  | .other a => if Foreign self ch a then { s with sub := PubSub.step s.sub a } else s
  | .setNodeDir dir => { s with nodeDir := dir }
  | .cancel => { s with cancelled := true }
  | .validated ok =>
    match s.pc with
    | .validating =>
      if ok then { s with sub := s.sub.call self (.subscribe ch), pc := .subscribing } else { s with pc := .returned }
    | _ => s
  | .exec order =>
    match s.pc with
    | .subscribing => s.exec order .selecting
    | .unsubscribing => s.exec order .returned
    | _ => s
  | .receive =>
    match s.pc, (s.sub.chan ch).queue with
    | .selecting, [] => if (s.sub.chan ch).closed then s.leave else s
    | .selecting, x :: _ =>
      let pc :=
        match accept s.channels x.evt with
        | none => .selecting
        | some msg => .handling x msg
      { s with sub := s.sub.take ch, pc }
    | _, _ => s
  | .done =>
    match s.pc with
    | .selecting => if s.cancelled then s.leave else s
    | _ => s
  | .format =>
    match s.pc with
    | .handling x msg => { s with pc := .sending x msg (formatChatMessage msg s.nodeDir) }
    | _ => s
  | .answered ok =>
    match s.pc with
    | .sending x msg text => { s with sent := s.sent ++ [⟨x, msg, text, ok⟩], pc := .selecting }
    | _ => s

/-- the steps the publishing machine makes meanwhile -/
def subActs (s : Bot) : Act → List (PubSub.Act Event)
  | .other a => if Foreign self ch a then [a] else []
  | .validated ok =>
    match s.pc with
    | .validating => if ok then [.call self (.subscribe ch)] else []
    | _ => []
  | .exec order =>
    match s.pc with
    | .subscribing | .unsubscribing => [.exec self order]
    | _ => []
  | .receive =>
    match s.pc, (s.sub.chan ch).queue with
    | .selecting, [] => if (s.sub.chan ch).closed then [.call self (.unsubscribe ch)] else []
    | .selecting, _ :: _ => [.take ch]
    | _, _ => []
  | .done =>
    match s.pc with
    | .selecting => if s.cancelled then [.call self (.unsubscribe ch)] else []
    | _ => []
  | .setNodeDir _ | .cancel | .format | .answered _ => []

variable {s : Bot}

/-- the publishing machine under the bot moves by its own steps only -/
theorem step_sub (s : Bot) (a : Act) : (step s a).sub = run PubSub.step s.sub (subActs s a) := by
  cases a <;> simp only [step, subActs] <;> (repeat' (first | split | split_ifs)) <;> rfl

theorem subActs_length (s : Bot) (a : Act) : (subActs s a).length ≤ 1 := by
  cases a <;> simp only [subActs] <;> (repeat' (first | split | split_ifs)) <;> simp

/-! ## The channels -/

theorem fold_allowed (channels : List ℤ) (m : GoMap UInt32 Bool) (c : UInt32) :
    allowed (channels.foldl (fun m ch => if 0 ≤ ch ∧ ch ≤ 7 then m.set (UInt32.ofNat ch.toNat) true else m) m) c = true ↔
      allowed m c = true ∨ (c.toNat ≤ 7 ∧ (c.toNat : ℤ) ∈ channels) := by
  induction channels generalizing m with
  | nil => simp
  | cons z channels ih =>
    rw [List.foldl_cons, ih, List.mem_cons]
    by_cases hz : 0 ≤ z ∧ z ≤ 7
    · have hnum : (UInt32.ofNat z.toNat).toNat = z.toNat := by
        rw [UInt32.toNat_ofNat']
        omega
      have hset : allowed (m.set (UInt32.ofNat z.toNat) true) c = true ↔
          c = UInt32.ofNat z.toNat ∨ allowed m c = true := by
        rw [allowed, GoMap.get?_set]
        split_ifs with hc
        · simp [hc]
        · simp [hc, allowed]
      have hc : c = UInt32.ofNat z.toNat ↔ (c.toNat : ℤ) = z := by
        rw [← UInt32.toNat_inj, hnum]
        omega
      rw [if_pos hz, hset, hc]
      constructor
      · rintro ((h | h) | h)
        · exact .inr ⟨by omega, .inl h⟩
        · exact .inl h
        · exact .inr ⟨h.1, .inr h.2⟩
      · rintro (h | ⟨hle, h | h⟩)
        · exact .inl (.inr h)
        · exact .inl (.inl h)
        · exact .inr ⟨hle, h⟩
    · rw [if_neg hz]
      constructor
      · rintro (h | h)
        · exact .inl h
        · exact .inr ⟨h.1, .inr h.2⟩
      · rintro (h | ⟨hle, h | h⟩)
        · exact .inl h
        · omega
        · exact .inr ⟨hle, h⟩

/-- the channels of the configuration that are mesh channels, or the primary one when it has none -/
theorem newChannels_allowed (channels : List ℤ) (c : UInt32) :
    allowed (newChannels channels) c = true ↔
      (channels = [] ∧ c = 0) ∨ (c.toNat ≤ 7 ∧ (c.toNat : ℤ) ∈ channels) := by
  unfold newChannels
  split_ifs with hnil
  · rw [List.length_eq_zero_iff] at hnil
    subst hnil
    rw [allowed, GoMap.get?_set]
    split_ifs with hc
    · simp [hc]
    · simp [hc]
  · have hne : channels ≠ [] := fun h => hnil (by rw [h, List.length_nil])
    rw [fold_allowed]
    simp [allowed, hne]

/-! ## The invariant -/

/-- how far the bot is with its channel -/
def Pc.phase : Pc → Phase
  | .validating => .before
  | .subscribing => .joining
  | .selecting | .handling _ _ | .sending _ _ _ => .listening
  | .unsubscribing => .leaving
  | .returned => .gone

/-- the event in hand -/
def Pc.inHand : Pc → List (Stamped Event × ChatMessage)
  | .handling x msg | .sending x msg _ => [(x, msg)]
  | _ => []

structure Inv (s : Bot) : Prop where
  sub : PubSub.Inv s.sub
  stands : Stands self ch s.sub s.pc.phase
  taken : s.sent.map (fun r => (r.event, r.msg)) ++ s.pc.inHand = (s.sub.chan ch).received.filterMap (taken s.channels)

theorem init_inv (channels : List ℤ) : Inv (init channels) := ⟨PubSub.init_inv, ⟨rfl, rfl⟩, rfl⟩

theorem leave_inv (h : Inv s) (hpc : s.pc = .selecting) : Inv s.leave := by
  have hstands := h.stands
  have htaken := h.taken
  rw [hpc] at hstands htaken
  refine ⟨PubSub.step_inv h.sub (.call self (.unsubscribe ch)), hstands.unsubscribe, ?_⟩
  simpa [Bot.leave, call_chan, Pc.inHand] using htaken

/-- a step inside Subscribe or Unsubscribe -/
theorem exec_inv (h : Inv s) (hk : s.pc.phase = .joining ∨ s.pc.phase = .leaving) {next : Pc}
    (hnext : next.phase = s.pc.phase.next) (hhand : s.pc.inHand = [] ∧ next.inHand = []) (order : List ℕ) :
    Inv (s.exec order next) := by
  have hsub : PubSub.Inv (s.sub.exec self order) := PubSub.step_inv h.sub (.exec self order)
  have htaken := h.taken
  rw [hhand.1, ← exec_received self order ch] at htaken
  rcases Stands.exec h.sub.registry hk h.stands order s.pc next with ⟨hstands, hpc⟩ | ⟨hstands, hpc⟩
  · refine ⟨hsub, ?_, ?_⟩ <;> simp only [Bot.exec, hpc]
    · exact hstands
    · rwa [hhand.1]
  · refine ⟨hsub, ?_, ?_⟩ <;> simp only [Bot.exec, hpc]
    · rwa [hnext]
    · rwa [hhand.2]

/-- the bot takes an event: it passes it over, or has a message in hand -/
theorem receive_inv (h : Inv s) (hpc : s.pc = .selecting) {x : Stamped Event} {queue : List (Stamped Event)}
    (hq : (s.sub.chan ch).queue = x :: queue) : Inv (step s .receive) := by
  have hsub : PubSub.Inv (s.sub.take ch) := PubSub.step_inv h.sub (.take ch)
  have hstands := h.stands
  have htaken := h.taken
  rw [hpc] at hstands htaken
  simp only [Pc.inHand, List.append_nil] at htaken
  simp only [step, hpc, hq]
  cases haccept : accept s.channels x.evt with
  | none =>
    refine ⟨hsub, hstands.take, ?_⟩
    simp [Pc.inHand, take_received hq, List.filterMap_append, htaken, taken, haccept]
  | some msg =>
    refine ⟨hsub, hstands.take, ?_⟩
    simp [Pc.inHand, take_received hq, List.filterMap_append, htaken, taken, haccept]

theorem step_inv (h : Inv s) (a : Act) : Inv (step s a) := by
  have hstands := h.stands
  have htaken := h.taken
  cases a with
  | other a =>
    simp only [step]
    split_ifs with ha
    · refine ⟨PubSub.step_inv h.sub a, h.stands.foreign h.sub.registry ha, ?_⟩
      rw [foreign_received ha]
      exact h.taken
    · exact h
  | setNodeDir dir => exact ⟨h.sub, h.stands, h.taken⟩
  | cancel => exact ⟨h.sub, h.stands, h.taken⟩
  | validated ok =>
    simp only [step]
    split <;> rename_i hpc <;> try exact h
    rw [hpc] at hstands htaken
    split_ifs
    · refine ⟨PubSub.step_inv h.sub (.call self (.subscribe ch)), hstands.subscribe, ?_⟩
      simpa [call_chan, Pc.inHand] using htaken
    · exact ⟨h.sub, trivial, htaken⟩
  | exec order =>
    simp only [step]
    split <;> rename_i hpc <;> try exact h
    · exact exec_inv h (by rw [hpc]; exact .inl rfl) (by rw [hpc]; rfl) (by rw [hpc]; exact ⟨rfl, rfl⟩) order
    · exact exec_inv h (by rw [hpc]; exact .inr rfl) (by rw [hpc]; rfl) (by rw [hpc]; exact ⟨rfl, rfl⟩) order
  | receive =>
    by_cases hpc : s.pc = .selecting
    · cases hq : (s.sub.chan ch).queue with
      | nil =>
        simp only [step, hpc, hq]
        split_ifs
        · exact leave_inv h hpc
        · exact h
      | cons x queue => exact receive_inv h hpc hq
    · have hstay : step s .receive = s := by
        simp only [step]
        split <;> simp_all
      rwa [hstay]
  | done =>
    simp only [step]
    split <;> rename_i hpc <;> try exact h
    split_ifs
    · exact leave_inv h hpc
    · exact h
  | format =>
    simp only [step]
    split <;> rename_i hpc <;> try exact h
    rw [hpc] at hstands htaken
    exact ⟨h.sub, hstands, htaken⟩
  | answered ok =>
    simp only [step]
    split <;> rename_i hpc <;> try exact h
    rw [hpc] at hstands htaken
    refine ⟨h.sub, hstands, ?_⟩
    simpa [Pc.inHand] using htaken

/-! ## Whole runs -/

theorem reachable_inv (channels : List ℤ) (as : List Act) : Inv (run step (init channels) as) :=
  run_inv_all (I := Inv) (fun _ a h => step_inv h a) as (init_inv channels)

theorem run_channels (channels : List ℤ) (as : List Act) :
    (run step (init channels) as).channels = newChannels channels := by
  have hstep : ∀ (s : Bot) (a : Act), s.channels = newChannels channels → (step s a).channels = newChannels channels := by
    intro s a h
    cases a <;> simp only [step] <;> (repeat' (first | split | split_ifs)) <;> exact h
  exact run_inv_all (I := fun s : Bot => s.channels = newChannels channels) hstep as rfl

theorem accept_eq_some {channels : GoMap UInt32 Bool} {evt : Event} {msg : ChatMessage} :
    accept channels evt = some msg ↔
      evt.type = "chat_message" ∧ evt.data = .chatMessage "incoming" msg ∧ allowed channels msg.channel = true := by
  obtain ⟨type, data⟩ := evt
  cases data with
  | other => simp [accept]
  | chatMessage direction msg' =>
    simp only [accept]
    constructor
    · intro h
      split_ifs at h with htype hdirection hallowed
      cases h
      exact ⟨by simpa using htype, by simpa using hdirection, by simpa using hallowed⟩
    · rintro ⟨htype, hdata, hallowed⟩
      cases hdata
      simp [htype, hallowed]

/-- a text comes into being in one step, and another notes it -/
theorem sending_of_step {a : Act} {x : Stamped Event} {msg : ChatMessage} {text : Bytes}
    (h : (step s a).pc = .sending x msg text) :
    s.pc = .sending x msg text ∨ text = formatChatMessage msg s.nodeDir := by
  cases a with
  | format =>
    simp only [step] at h
    split at h
    · cases h
      exact .inr rfl
    · exact .inl h
  | exec order =>
    have hexec : ∀ next, (s.exec order next).pc = .sending x msg text → s.pc = .sending x msg text ∨ next = .sending x msg text := by
      intro next h
      rcases continue_cases self (s.sub.exec self order) s.pc next with hc | hc
      · exact .inl (hc.symm.trans h)
      · exact .inr (hc.symm.trans h)
    simp only [step] at h
    split at h
    · exact .inl ((hexec _ h).resolve_right nofun)
    · exact .inl ((hexec _ h).resolve_right nofun)
    · exact .inl h
  | _ =>
    simp only [step, Bot.leave] at h
    repeat' (first | split at h | split_ifs at h)
    all_goals first | exact .inl h | cases h

theorem sent_of_step {a : Act} {r : Sent} (h : r ∈ (step s a).sent) :
    r ∈ s.sent ∨ s.pc = .sending r.event r.msg r.text := by
  cases a with
  | answered ok =>
    simp only [step] at h
    split at h
    · rename_i hpc
      rcases List.mem_append.1 h with h | h
      · exact .inl h
      · rw [List.mem_singleton.1 h]
        exact .inr hpc
    · exact .inl h
  | _ =>
    simp only [step] at h
    repeat' (first | split at h | split_ifs at h)
    all_goals exact .inl h

/-- a text is made from the message and the directory of some moment of the run -/
theorem run_texts (channels : List ℤ) (as : List Act) :
    (∀ r ∈ (run step (init channels) as).sent, ∃ bs, bs <+: as ∧
      r.text = formatChatMessage r.msg (run step (init channels) bs).nodeDir) ∧
    ∀ x msg text, (run step (init channels) as).pc = .sending x msg text → ∃ bs, bs <+: as ∧
      text = formatChatMessage msg (run step (init channels) bs).nodeDir := by
  induction as using List.reverseRecOn with
  | nil => exact ⟨fun _ h => absurd h List.not_mem_nil, fun _ _ _ h => by cases h⟩
  | append_singleton as a ih =>
    obtain ⟨hsent, hsending⟩ := ih
    have longer : ∀ {msg text}, (∃ bs, bs <+: as ∧ text = formatChatMessage msg (run step (init channels) bs).nodeDir) →
        ∃ bs, bs <+: as ++ [a] ∧ text = formatChatMessage msg (run step (init channels) bs).nodeDir :=
      fun ⟨bs, hbs, htext⟩ => ⟨bs, hbs.trans (List.prefix_append as [a]), htext⟩
    rw [run_snoc]
    refine ⟨fun r hr => ?_, fun x msg text hpc => ?_⟩
    · rcases sent_of_step hr with hr | hpc
      · exact longer (hsent r hr)
      · exact longer (hsending _ _ _ hpc)
    · rcases sending_of_step hpc with hpc | htext
      · exact longer (hsending x msg text hpc)
      · exact ⟨as, List.prefix_append as [a], htext⟩

/-- the events in a filtered list of takings are a sublist of the takings -/
theorem taken_sublist (channels : GoMap UInt32 Bool) (xs : List (Stamped Event)) :
    ((xs.filterMap (taken channels)).map Prod.fst).Sublist xs := by
  induction xs with
  | nil => exact List.Sublist.slnil
  | cons x xs ih =>
    rw [List.filterMap_cons]
    cases h : taken channels x with
    | none => exact ih.cons x
    | some y =>
      obtain ⟨msg, -, rfl⟩ := Option.map_eq_some_iff.1 h
      exact ih.cons_cons x

/-- **What the bot sends.** After any steps of the bot and of everybody else:
- the messages it has sent, and the one in hand, are the events it has taken less those that Run passes over, in order;
- each is an incoming chat message of a configured mesh channel, and its text is made with the directory of some moment;
- no event is sent twice, and those of one publisher are sent in the order in which it published them;
- as long as the bot takes events its channel is in the map and open. -/
theorem bot_forwards (channels : List ℤ) (as : List Act) :
    let s := run step (init channels) as
    (s.sent.map (fun r => (r.event, r.msg)) ++ s.pc.inHand =
      (s.sub.chan ch).received.filterMap (taken (newChannels channels))) ∧
    (∀ r ∈ s.sent, (r.event.evt.type = "chat_message" ∧ r.event.evt.data = .chatMessage "incoming" r.msg) ∧
      ((channels = [] ∧ r.msg.channel = 0) ∨ (r.msg.channel.toNat ≤ 7 ∧ (r.msg.channel.toNat : ℤ) ∈ channels)) ∧
      ∃ bs, bs <+: as ∧ r.text = formatChatMessage r.msg (run step (init channels) bs).nodeDir) ∧
    ((s.sent.map (·.event)).Nodup ∧
      ∀ g, ((s.sent.map (·.event)).filter fun x => x.by_ = g).Sublist (sentTo s.sub ch g)) ∧
    (s.pc = .selecting → ch ∈ s.sub.subscribers ∧ (s.sub.chan ch).closed = false) := by
  intro s
  have h : Inv s := reachable_inv channels as
  have htaken : s.sent.map (fun r => (r.event, r.msg)) ++ s.pc.inHand =
      (s.sub.chan ch).received.filterMap (taken (newChannels channels)) := by
    rw [h.taken, run_channels]
  have hsub : (s.sent.map (·.event)).Sublist (delivered s.sub ch) := by
    have hfst : (s.sent.map fun r => (r.event, r.msg)).map Prod.fst = s.sent.map (·.event) := by
      rw [List.map_map]
      rfl
    have hpart : (s.sent.map (·.event)).Sublist
        (((s.sub.chan ch).received.filterMap (taken (newChannels channels))).map Prod.fst) := by
      rw [← htaken, List.map_append, hfst]
      exact List.sublist_append_left _ _
    exact (hpart.trans (taken_sublist _ _)).trans (List.sublist_append_left _ _)
  refine ⟨htaken, fun r hr => ?_, ⟨(delivered_nodup h.sub ch).sublist hsub, fun g => ?_⟩, fun hpc => ?_⟩
  · have hin : (r.event, r.msg) ∈ (s.sub.chan ch).received.filterMap (taken (newChannels channels)) := by
      rw [← htaken]
      exact List.mem_append_left _ (List.mem_map_of_mem hr)
    obtain ⟨x, -, hx⟩ := List.mem_filterMap.1 hin
    obtain ⟨msg, haccept, hpair⟩ := Option.map_eq_some_iff.1 hx
    cases hpair
    obtain ⟨htype, hdata, hallowed⟩ := accept_eq_some.1 haccept
    exact ⟨⟨htype, hdata⟩, (newChannels_allowed channels _).1 hallowed, (run_texts channels as).1 r hr⟩
  · exact (hsub.filter _).trans (h.sub.delivery.sublist ch g)
  · have hstands := h.stands
    rw [hpc] at hstands
    exact hstands.open h.sub.registry

/-- **The bot loses nothing without cause.** Of every event that is published while the bot's channel is in the map and
that the bot would forward, the message has been sent or is in hand, waits in the channel, is still to be sent to it, or
came to a full channel at one step of the run. -/
theorem bot_loses_nothing (channels : List ℤ) (as : List Act) :
    let s := run step (init channels) as
    ∀ p ∈ s.sub.published, ch ∈ p.targets → ∀ msg, accept (newChannels channels) p.event.evt = some msg →
      (p.event, msg) ∈ s.sent.map (fun r => (r.event, r.msg)) ++ s.pc.inHand ∨ p.event ∈ (s.sub.chan ch).queue ∨
      PubSub.StillToSend s.sub ch p.event ∨
      ∃ bs a cs, as = bs ++ a :: cs ∧
        ∃ b ∈ subActs (run step (init channels) bs) a, PubSub.SendsToFull (run step (init channels) bs).sub ch p.event b := by
  intro s p hp hch msg hmsg
  have h : Inv s := reachable_inv channels as
  rcases accounted step_sub subActs_length rfl as p hp ch hch with hdelivered | hstill | hfull
  · rcases List.mem_append.1 hdelivered with hreceived | hqueue
    · left
      rw [h.taken, run_channels]
      exact List.mem_filterMap.2 ⟨p.event, hreceived, by rw [taken, hmsg, Option.map_some]⟩
    · exact .inr (.inl hqueue)
  · exact .inr (.inr (.inl hstill))
  · exact .inr (.inr (.inr hfull))

end MeshProxy.Bridge
