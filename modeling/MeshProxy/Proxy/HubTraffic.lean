/-
Traffic through the hub (`internal/proxy`: broadcastLoop towards the clients, the onMessage handlers towards the node),
over the lock machine of HubLocks.

The lock machine has the goroutines' stacks, p.mu, the client map and the bounded send channels. Here goroutine 0 is
broadcastLoop, goroutine `reader c` is the readLoop of client c with its handler, and the even ones are the others: Run
and its registrations, the replays, which may put anything into a channel, and whoever calls Close. broadcastLoop and a
handler work on one frame at a time. Between two calls their stack is empty and they take a step of their own; the calls
of broadcast, broadcastToOthers and Close run in the lock machine, one Send after the other.

- `step_sim`: a step is one step of the lock machine, so its invariant holds here too;
- `reachable_parties`: inside the condition broadcastLoop and the handlers call nothing that does not return
  (`loop_returns`, `handler_returns`);
- `step_stuck`: a goroutine that waits for its own read lock waits for ever.
What passes through is in HubUpstream and HubDownstream.
-/
import MeshProxy.Proxy.Hub
import MeshProxy.Proxy.HubProgress

namespace MeshProxy.HubTraffic

open MeshProxy.Proto MeshProxy.Decode MeshProxy.ChatCache MeshProxy.ConfigReplay MeshProxy.Trace
open MeshProxy.HubLocks (Params Instr InBroadcast)
open MeshProxy.Hub (Env)
open MeshProxy.Frame (Bytes)

/-! ## The machine -/

/-- where `broadcastLoop` stands -/
inductive Loop where
  | idle
  | received (payload : Bytes)
  | cached (payload : Bytes)
deriving DecidableEq, Repr

/-- where a client's onMessage handler stands -/
inductive Handler where
  | idle
  | received (payload : Bytes)
  | echoed (payload : Bytes)
  | cached (payload : Bytes)
deriving DecidableEq, Repr

/-- `toNode` has what nodeConn.Send was called with, each frame with the client it was called for -/
structure State where
  hub : HubLocks.Hub
  loop : Loop
  handler : ℕ → Handler
  chat : List ChatEntry
  toNode : List (ℕ × Bytes)

def init : State := ⟨HubLocks.init, .idle, fun _ => .idle, [], []⟩

/-- the goroutine of a client's readLoop; broadcastLoop is goroutine 0 -/
def reader (c : ℕ) : ℕ := 2 * c + 1

inductive Routine where
  | loop
  | reader (c : ℕ)
  | other
deriving DecidableEq, Repr

def routine (g : ℕ) : Routine := if g = 0 then .loop else if g % 2 = 1 then .reader (g / 2) else .other

/-- a goroutine goes on (the node's number and the time are what it reads, if it does), broadcastLoop receives a frame
from FromNode(), a readLoop reads a frame, another goroutine makes a call, a writeLoop takes a frame -/
inductive Act where
  | exec (g : ℕ) (order : List ℕ) (nodeNum now : UInt32)
  | receive (f : Bytes)
  | read (c : ℕ) (f : Bytes)
  | call (g : ℕ) (f : HubLocks.Call)
  | take (c : ℕ)
deriving DecidableEq, Repr

variable (p : Params) (e : Env)

/-- only broadcastLoop and the handlers broadcast -/
def callable : HubLocks.Call → Bool
  | .broadcast _ | .broadcastToOthers _ _ => false
  | _ => true

namespace State

def setHandler (c : ℕ) (h : Handler) (s : State) : State := { s with handler := Function.update s.handler c h }

/-- `broadcastLoop` between receiving a frame and broadcasting it -/
def loopNext (s : State) : State :=
  match s.loop with
  | .idle => s
  | .received f =>
    if isTextMessageFrame e.pb f then
      { s with chat := cacheTextMessage e.pb e.opts.maxChatCache s.chat f, loop := .cached f }
    else
      match isRoutingACKFrame e.pb f with
      | some packetID => { s with chat := cacheACK e.opts.maxChatCache s.chat packetID f, loop := .cached f }
      | none => { s with loop := .cached f }
  | .cached f => { s with hub := s.hub.call 0 (.broadcast f), loop := .idle }

/-- onMessage: `echoToOtherClients`, the chat cache, nodeConn.Send -/
def handlerNext (c : ℕ) (nodeNum now : UInt32) (s : State) : State :=
  match s.handler c with
  | .idle => s
  | .received f =>
    let s := s.setHandler c (.echoed f)
    match echoFrame e.pb nodeNum now f with
    | some out => { s with hub := s.hub.call (reader c) (.broadcastToOthers out c) }
    | none => s
  | .echoed f =>
    let s := s.setHandler c (.cached f)
    match toRadioToFromRadio e.pb nodeNum now f with
    | some out =>
      if isTextMessageFrame e.pb out then { s with chat := cacheTextMessage e.pb e.opts.maxChatCache s.chat out } else s
    | none => s
  | .cached f => { s.setHandler c .idle with toNode := s.toNode ++ [(c, f)] }

/-- a goroutine executes its next instruction, or goes on where it stands between two calls -/
def exec (g : ℕ) (order : List ℕ) (nodeNum now : UInt32) (s : State) : State :=
  if s.hub.stack g = [] then
    match routine g with
    | .loop => s.loopNext e
    | .reader c => s.handlerNext e c nodeNum now
    | .other => s
  else { s with hub := s.hub.exec p g order }

/-- `broadcastLoop` receives a frame; a config frame is suppressed -/
def receive (f : Bytes) (s : State) : State :=
  if s.loop = .idle ∧ s.hub.stack 0 = [] ∧ isConfigFrame e.pb f = false then { s with loop := .received f } else s

/-- onMessage is called: a want_config_id starts a replay, one of the other goroutines from then on, a disconnect closes
the client, anything else is processed -/
def read (c : ℕ) (f : Bytes) (s : State) : State :=
  if c ∈ s.hub.started ∧ s.handler c = .idle ∧ s.hub.stack (reader c) = [] then
    match e.pb.unmarshalToRadio f with
    | some ⟨.wantConfigId _, _⟩ => s
    | some ⟨.disconnect _, _⟩ => { s with hub := s.hub.call (reader c) (.close c) }
    | _ => s.setHandler c (.received f)
  else s

def call (g : ℕ) (f : HubLocks.Call) (s : State) : State :=
  if routine g = .other ∧ callable f = true then { s with hub := s.hub.call g f } else s

end State

def step (s : State) : Act → State
  | .exec g order nodeNum now => s.exec p e g order nodeNum now
  | .receive f => s.receive e f
  | .read c f => s.read e c f
  | .call g f => s.call g f
  | .take c => { s with hub := s.hub.take c }

/-- the condition: a Send of a broadcast or an echo, that is, under the read lock, finds room -/
def NoFullBroadcast (s : State) : Act → Prop
  | .exec g order _ _ => HubLocks.NoFullBroadcast p s.hub (.exec g order)
  | _ => True

instance (s : State) (a : Act) : Decidable (NoFullBroadcast p s a) := by
  unfold NoFullBroadcast
  split <;> infer_instance

/-- action `a` is a step of goroutine g -/
def Acts (g : ℕ) (a : Act) : Prop := ∃ order nodeNum now, a = .exec g order nodeNum now

/-- every goroutine is scheduled again and again -/
def Fair (as : ℕ → Act) : Prop := ∀ g n, ∃ m, n ≤ m ∧ Acts g (as m)

@[simp] theorem routine_zero : routine 0 = .loop := rfl

@[simp] theorem routine_reader (c : ℕ) : routine (reader c) = .reader c := by
  have hodd : (2 * c + 1) % 2 = 1 := by omega
  have hhalf : (2 * c + 1) / 2 = c := by omega
  simp [routine, reader, hodd, hhalf]

theorem reader_ne_zero (c : ℕ) : reader c ≠ 0 := by simp [reader]

theorem reader_inj {c d : ℕ} (h : reader c = reader d) : c = d := by simpa [reader] using h

theorem eq_zero_of_routine {g : ℕ} (h : routine g = .loop) : g = 0 := by
  unfold routine at h
  split_ifs at h with h0
  exact h0

theorem eq_reader_of_routine {g c : ℕ} (h : routine g = .reader c) : g = reader c := by
  unfold routine at h
  split_ifs at h with h0 h1
  cases h
  simp only [reader]
  omega

variable {p e} {s : State}

/-! ## A step of a party is a step of the lock machine -/

/-- between two calls broadcastLoop changes nothing for the locks, or calls broadcast -/
theorem loopNext_hub :
    (s.loopNext e).hub = s.hub ∨
      ∃ f, s.loop = .cached f ∧ s.loopNext e = { s with hub := s.hub.call 0 (.broadcast f), loop := .idle } := by
  unfold State.loopNext
  split
  · exact Or.inl rfl
  · left
    split_ifs
    · rfl
    · split <;> rfl
  · rename_i f hf
    exact Or.inr ⟨f, hf, rfl⟩

/-- so does a handler, which may call broadcastToOthers -/
theorem handlerNext_hub (c : ℕ) (nodeNum now : UInt32) :
    (s.handlerNext e c nodeNum now).hub = s.hub ∨
      ∃ f out, s.handler c = .received f ∧ s.handlerNext e c nodeNum now =
        { s.setHandler c (.echoed f) with hub := s.hub.call (reader c) (.broadcastToOthers out c) } := by
  unfold State.handlerNext
  split
  · exact Or.inl rfl
  · rename_i f hf
    dsimp only
    split
    · rename_i out _
      exact Or.inr ⟨f, out, hf, rfl⟩
    · exact Or.inl rfl
  · left
    dsimp only
    split
    · split_ifs <;> rfl
    · rfl
  · exact Or.inl rfl

/-- a busy goroutine is one of the lock machine -/
theorem exec_busy {g : ℕ} (hs : s.hub.stack g ≠ []) (order : List ℕ) (nodeNum now : UInt32) :
    s.exec p e g order nodeNum now = { s with hub := s.hub.exec p g order } := if_neg hs

theorem exec_loop (hs : s.hub.stack 0 = []) (order : List ℕ) (nodeNum now : UInt32) :
    s.exec p e 0 order nodeNum now = s.loopNext e := by simp [State.exec, hs]

theorem exec_reader {c : ℕ} (hs : s.hub.stack (reader c) = []) (order : List ℕ) (nodeNum now : UInt32) :
    s.exec p e (reader c) order nodeNum now = s.handlerNext e c nodeNum now := by simp [State.exec, hs]

theorem broadcast_busy {g : ℕ} (hs : s.hub.stack g = []) (f : Bytes) :
    (s.hub.call g (.broadcast f)).stack g = HubLocks.broadcast f := by simp [HubLocks.Hub.call, hs, HubLocks.Hub.goto]

theorem echo_busy {g : ℕ} (hs : s.hub.stack g = []) (f : Bytes) (c : ℕ) :
    (s.hub.call g (.broadcastToOthers f c)).stack g = HubLocks.broadcastToOthers f c := by
  simp [HubLocks.Hub.call, hs, HubLocks.Hub.goto]

/-- what an idle goroutine does to the locks when it goes on -/
theorem exec_idle {g : ℕ} (hs : s.hub.stack g = []) (order : List ℕ) (nodeNum now : UInt32) :
    (s.exec p e g order nodeNum now).hub = s.hub ∨
      ∃ f, (s.exec p e g order nodeNum now).hub = s.hub.call g f ∧ (s.hub.call g f).stack g ≠ [] := by
  cases hr : routine g with
  | loop =>
    obtain rfl := eq_zero_of_routine hr
    rw [exec_loop hs]
    rcases loopNext_hub (e := e) (s := s) with h | ⟨f, -, h⟩
    · exact Or.inl h
    · refine Or.inr ⟨.broadcast f, congrArg State.hub h, ?_⟩
      rw [broadcast_busy hs]
      exact List.cons_ne_nil _ _
  | reader c =>
    obtain rfl := eq_reader_of_routine hr
    rw [exec_reader hs]
    rcases handlerNext_hub (e := e) (s := s) c nodeNum now with h | ⟨f, out, -, h⟩
    · exact Or.inl h
    · refine Or.inr ⟨.broadcastToOthers out c, congrArg State.hub h, ?_⟩
      rw [echo_busy hs]
      exact List.cons_ne_nil _ _
  | other =>
    left
    simp only [State.exec, hs, hr, if_true]

/-- an action that leaves the lock machine as it is: Close of a client that does not exist -/
def pause (h : HubLocks.Hub) : HubLocks.Act := .call 0 (.close (h.started.sum + 1))

theorem step_pause (h : HubLocks.Hub) : HubLocks.step p h (pause h) = h := by
  have hnone : h.started.sum + 1 ∉ h.started := by
    intro hmem
    have := List.single_le_sum (fun x _ => Nat.zero_le x) _ hmem
    omega
  simp [HubLocks.step, pause, HubLocks.Hub.call, hnone]

/-- **A step is a step of the lock machine.** A scheduled goroutine is scheduled there too, or has just made a call. -/
theorem step_sim (a : Act) :
    ∃ b, (step p e s a).hub = HubLocks.step p s.hub b ∧
      (NoFullBroadcast p s a → HubLocks.NoFullBroadcast p s.hub b) ∧
      ∀ g, Acts g a → HubLocks.Acts g b ∨ (s.hub.stack g = [] ∧ (step p e s a).hub.stack g ≠ []) := by
  cases a with
  | exec g order nodeNum now =>
    by_cases hs : s.hub.stack g = []
    · rcases exec_idle (p := p) (e := e) hs order nodeNum now with h | ⟨f, h, hbusy⟩
      · refine ⟨.exec g order, ?_, id, ?_⟩
        · simp only [step, h, HubLocks.step, HubLocks.Hub.exec, hs]
        · rintro g' ⟨_, _, _, hact⟩
          cases hact
          exact Or.inl ⟨order, rfl⟩
      · refine ⟨.call g f, h, fun _ => trivial, ?_⟩
        rintro g' ⟨_, _, _, hact⟩
        cases hact
        exact Or.inr ⟨hs, by rwa [step, h]⟩
    · refine ⟨.exec g order, congrArg State.hub (exec_busy hs order nodeNum now), id, ?_⟩
      rintro g' ⟨_, _, _, hact⟩
      cases hact
      exact Or.inl ⟨order, rfl⟩
  | receive f =>
    refine ⟨pause s.hub, ?_, fun _ => trivial, by rintro g ⟨_, _, _, hact⟩; cases hact⟩
    rw [step_pause]
    simp only [step, State.receive]
    split_ifs <;> rfl
  | read c f =>
    have hpause (s' : State) (h : s'.hub = s.hub) : ∃ b, s'.hub = HubLocks.step p s.hub b ∧
        (True → HubLocks.NoFullBroadcast p s.hub b) ∧ ∀ g, Acts g (.read c f) → HubLocks.Acts g b ∨
          (s.hub.stack g = [] ∧ s'.hub.stack g ≠ []) :=
      ⟨pause s.hub, by rw [step_pause, h], fun _ => trivial, by rintro g ⟨_, _, _, hact⟩; cases hact⟩
    simp only [step, State.read]
    split_ifs
    · split
      · exact hpause s rfl
      · exact ⟨.call (reader c) (.close c), rfl, fun _ => trivial, by rintro g ⟨_, _, _, hact⟩; cases hact⟩
      · exact hpause _ rfl
    · exact hpause s rfl
  | call g f =>
    simp only [step, State.call]
    split_ifs
    · exact ⟨.call g f, rfl, fun _ => trivial, by rintro g ⟨_, _, _, hact⟩; cases hact⟩
    · exact ⟨pause s.hub, (step_pause _).symm, fun _ => trivial, by rintro g ⟨_, _, _, hact⟩; cases hact⟩
  | take c => exact ⟨.take c, rfl, fun _ => trivial, by rintro g ⟨_, _, _, hact⟩; cases hact⟩

/-! ## Nothing is called that does not return -/

/-- broadcastLoop is between two calls or in a broadcast, a handler is between two calls or in its echo; a readLoop whose
handler is idle may be closing its client -/
structure Parties (s : State) : Prop where
  loop : s.hub.stack 0 = [] ∨ (s.loop = .idle ∧ InBroadcast (s.hub.stack 0))
  handler : ∀ c, s.hub.stack (reader c) = [] ∨ s.handler c = .idle ∨
    ∃ f, s.handler c = .echoed f ∧ InBroadcast (s.hub.stack (reader c))

theorem init_parties : Parties init where
  loop := Or.inl rfl
  handler := fun _ => Or.inl rfl

/-- a goroutine that is not scheduled keeps its stack, unless it is idle and calls something -/
theorem step_stack {g : ℕ} {a : Act} (ha : ¬Acts g a) :
    (step p e s a).hub.stack g = s.hub.stack g ∨ (s.hub.stack g = [] ∧
      ((∃ c f, a = .read c f ∧ g = reader c) ∨ (routine g = .other ∧ ∃ f, a = .call g f))) := by
  cases a with
  | exec x order nodeNum now =>
    have hx : g ≠ x := by
      rintro rfl
      exact ha ⟨order, nodeNum, now, rfl⟩
    left
    by_cases hs : s.hub.stack x = []
    · rcases exec_idle (p := p) (e := e) hs order nodeNum now with h | ⟨f, h, -⟩
      · rw [step, h]
      · rw [step, h, HubLocks.call_stack_of_ne hx]
    · rw [step, exec_busy hs]
      exact HubLocks.exec_stack_of_ne hx order
  | receive f =>
    left
    simp only [step, State.receive]
    split_ifs <;> rfl
  | read c f =>
    by_cases hx : g = reader c
    · by_cases hs : s.hub.stack g = []
      · exact Or.inr ⟨hs, Or.inl ⟨c, f, rfl, hx⟩⟩
      · left
        simp only [step, State.read]
        rw [if_neg fun hg => hs (hx ▸ hg.2.2)]
    · left
      simp only [step, State.read]
      split_ifs
      · split
        · rfl
        · exact HubLocks.call_stack_of_ne hx _
        · rfl
      · rfl
  | call x f =>
    simp only [step, State.call]
    split_ifs with hg
    · by_cases hx : g = x
      · subst hx
        by_cases hs : s.hub.stack g = []
        · exact Or.inr ⟨hs, Or.inr ⟨hg.1, f, rfl⟩⟩
        · exact Or.inl (congrArg (fun h : HubLocks.Hub => h.stack g) (HubLocks.call_busy hs f))
      · exact Or.inl (HubLocks.call_stack_of_ne hx f)
    · exact Or.inl rfl
  | take c => exact Or.inl rfl

theorem step_stack_busy {g : ℕ} (hne : s.hub.stack g ≠ []) {a : Act} (ha : ¬Acts g a) :
    (step p e s a).hub.stack g = s.hub.stack g := (step_stack ha).resolve_right fun h => hne h.1

theorem step_stack_loop {a : Act} (ha : ¬Acts 0 a) : (step p e s a).hub.stack 0 = s.hub.stack 0 := by
  refine (step_stack ha).resolve_right ?_
  rintro ⟨-, ⟨c, f, -, h⟩ | ⟨h, -⟩⟩
  · exact reader_ne_zero c h.symm
  · rw [routine_zero] at h
    cases h

theorem step_stack_reader {c : ℕ} {a : Act} (ha : ¬Acts (reader c) a) (hread : ∀ f, a ≠ .read c f) :
    (step p e s a).hub.stack (reader c) = s.hub.stack (reader c) := by
  refine (step_stack ha).resolve_right ?_
  rintro ⟨-, ⟨d, f, rfl, h⟩ | ⟨h, -⟩⟩
  · rw [reader_inj h] at hread
    exact hread f rfl
  · rw [routine_reader] at h
    cases h

/-! ### Where the parties stand -/

theorem handlerNext_loop (c : ℕ) (nodeNum now : UInt32) : (s.handlerNext e c nodeNum now).loop = s.loop := by
  unfold State.handlerNext
  split
  · rfl
  · dsimp only
    split <;> rfl
  · dsimp only
    split
    · split_ifs <;> rfl
    · rfl
  · rfl

theorem loopNext_handler : (s.loopNext e).handler = s.handler := by
  unfold State.loopNext
  split
  · rfl
  · split_ifs
    · rfl
    · split <;> rfl
  · rfl

theorem handlerNext_other {c d : ℕ} (hd : d ≠ c) (nodeNum now : UInt32) :
    (s.handlerNext e c nodeNum now).handler d = s.handler d := by
  have hset (h : Handler) : (s.setHandler c h).handler d = s.handler d := Function.update_of_ne hd _ _
  unfold State.handlerNext
  split
  · rfl
  · dsimp only
    split
    · exact hset _
    · exact hset _
  · dsimp only
    split
    · split_ifs
      · exact hset _
      · exact hset _
    · exact hset _
  · exact hset _

/-- only broadcastLoop moves its place -/
theorem step_loop {a : Act} (ha : ¬Acts 0 a) (hrecv : ∀ f, a ≠ .receive f) : (step p e s a).loop = s.loop := by
  cases a with
  | exec x order nodeNum now =>
    simp only [step, State.exec]
    split_ifs
    · cases hr : routine x with
      | loop =>
        obtain rfl := eq_zero_of_routine hr
        exact absurd ⟨order, nodeNum, now, rfl⟩ ha
      | reader c => exact handlerNext_loop c nodeNum now
      | other => rfl
    · rfl
  | receive f => exact absurd rfl (hrecv f)
  | read c f =>
    simp only [step, State.read]
    split_ifs
    · split <;> rfl
    · rfl
  | call x f =>
    simp only [step, State.call]
    split_ifs <;> rfl
  | take c => rfl

/-- only a client's readLoop moves the place of its handler -/
theorem step_handler {c : ℕ} {a : Act} (ha : ¬Acts (reader c) a) (hread : ∀ f, a ≠ .read c f) :
    (step p e s a).handler c = s.handler c := by
  cases a with
  | exec x order nodeNum now =>
    simp only [step, State.exec]
    split_ifs
    · cases hr : routine x with
      | loop => exact congrFun loopNext_handler c
      | reader d =>
        obtain rfl := eq_reader_of_routine hr
        refine handlerNext_other ?_ nodeNum now
        rintro rfl
        exact ha ⟨order, nodeNum, now, rfl⟩
      | other => rfl
    · rfl
  | receive f =>
    simp only [step, State.receive]
    split_ifs <;> rfl
  | read d f =>
    have hd : c ≠ d := by
      rintro rfl
      exact hread f rfl
    simp only [step, State.read]
    split_ifs
    · split
      · rfl
      · rfl
      · exact Function.update_of_ne hd _ _
    · rfl
  | call x f =>
    simp only [step, State.call]
    split_ifs <;> rfl
  | take c => rfl

theorem step_parties_loop (hlock : HubLocks.Inv p s.hub) (h : Parties s) (a : Act) (hcond : NoFullBroadcast p s a) :
    (step p e s a).hub.stack 0 = [] ∨
      ((step p e s a).loop = .idle ∧ InBroadcast ((step p e s a).hub.stack 0)) := by
  by_cases ha : Acts 0 a
  · obtain ⟨order, nodeNum, now, rfl⟩ := ha
    by_cases hs : s.hub.stack 0 = []
    · rw [step, exec_loop hs]
      rcases loopNext_hub (e := e) (s := s) with hh | ⟨f, -, hh⟩
      · rw [hh]
        exact Or.inl hs
      · rw [hh]
        exact Or.inr ⟨rfl, broadcast_busy hs f ▸ .start f none⟩
    · obtain ⟨hidle, hb⟩ := h.loop.resolve_left hs
      rw [step, exec_busy hs]
      exact (HubLocks.exec_inBroadcast hlock hcond hb).imp_right fun hb' => ⟨hidle, hb'⟩
  · rw [step_stack_loop ha]
    by_cases hrecv : ∃ f, a = .receive f
    · obtain ⟨f, rfl⟩ := hrecv
      simp only [step, State.receive]
      split_ifs with hg
      · exact Or.inl hg.2.1
      · exact h.loop
    · rw [step_loop ha (not_exists.1 hrecv)]
      exact h.loop

theorem step_parties_handler (hlock : HubLocks.Inv p s.hub) (h : Parties s) (a : Act) (hcond : NoFullBroadcast p s a)
    (c : ℕ) : (step p e s a).hub.stack (reader c) = [] ∨ (step p e s a).handler c = .idle ∨
      ∃ f, (step p e s a).handler c = .echoed f ∧ InBroadcast ((step p e s a).hub.stack (reader c)) := by
  by_cases ha : Acts (reader c) a
  · obtain ⟨order, nodeNum, now, rfl⟩ := ha
    by_cases hs : s.hub.stack (reader c) = []
    · rw [step, exec_reader hs]
      rcases handlerNext_hub (e := e) (s := s) c nodeNum now with hh | ⟨f, out, -, hh⟩
      · rw [hh]
        exact Or.inl hs
      · rw [hh]
        refine Or.inr (Or.inr ⟨f, Function.update_self _ _ _, ?_⟩)
        exact echo_busy hs out c ▸ .start out (some c)
    · rw [step, exec_busy hs]
      rcases (h.handler c).resolve_left hs with hidle | ⟨f, hf, hb⟩
      · exact Or.inr (Or.inl hidle)
      · exact (HubLocks.exec_inBroadcast hlock hcond hb).imp_right fun hb' => Or.inr ⟨f, hf, hb'⟩
  · by_cases hread : ∃ f, a = .read c f
    · obtain ⟨f, rfl⟩ := hread
      simp only [step, State.read]
      split_ifs with hg
      · split
        · exact Or.inl hg.2.2
        · exact Or.inr (Or.inl hg.2.1)
        · exact Or.inl hg.2.2
      · exact h.handler c
    · rw [step_stack_reader ha (not_exists.1 hread), step_handler ha (not_exists.1 hread)]
      exact h.handler c

theorem step_parties (hlock : HubLocks.Inv p s.hub) (h : Parties s) (a : Act) (hcond : NoFullBroadcast p s a) :
    Parties (step p e s a) :=
  ⟨step_parties_loop hlock h a hcond, step_parties_handler hlock h a hcond⟩

theorem reachable_parties {as : List Act} (h : Along (step p e) (NoFullBroadcast p) init as) :
    HubLocks.Inv p (run (step p e) init as).hub ∧ Parties (run (step p e) init as) := by
  refine run_inv (I := fun s : State => HubLocks.Inv p s.hub ∧ Parties s) ?_ ⟨HubLocks.init_inv p, init_parties⟩ h
  rintro s a ⟨hlock, hs⟩ hcond
  obtain ⟨b, hb, hcond', -⟩ := step_sim (p := p) (e := e) (s := s) a
  exact ⟨hb ▸ HubLocks.step_inv hlock b (hcond' hcond), step_parties hlock hs a hcond⟩

/-! ## Fair runs -/

/-- a handler that is at work is moved by its own readLoop only -/
theorem step_handler_busy {c : ℕ} (hne : s.handler c ≠ .idle) {a : Act} (ha : ¬Acts (reader c) a) :
    (step p e s a).handler c = s.handler c ∧ (step p e s a).hub.stack (reader c) = s.hub.stack (reader c) := by
  by_cases hread : ∃ f, a = .read c f
  · obtain ⟨f, rfl⟩ := hread
    simp only [step, State.read]
    rw [if_neg fun hg => hne hg.2.1]
    exact ⟨rfl, rfl⟩
  · exact ⟨step_handler ha (not_exists.1 hread), step_stack_reader ha (not_exists.1 hread)⟩

/-- so is broadcastLoop -/
theorem step_loop_busy (hne : s.loop ≠ .idle) {a : Act} (ha : ¬Acts 0 a) : (step p e s a).loop = s.loop := by
  by_cases hrecv : ∃ f, a = .receive f
  · obtain ⟨f, rfl⟩ := hrecv
    simp only [step, State.receive]
    rw [if_neg fun hg => hne hg.1]
  · exact step_loop ha (not_exists.1 hrecv)

section Fair

variable {as : ℕ → Act} (hfair : Fair as)
  (hin : ∀ n, NoFullBroadcast p (states (step p e) init as n) (as n))

include hin in
theorem states_parties (n : ℕ) :
    HubLocks.Inv p (states (step p e) init as n).hub ∧ Parties (states (step p e) init as n) := by
  rw [states_eq_run]
  exact reachable_parties (along_states _ _ _ hin n)

include hfair hin

/-- a broadcast or an echo returns, as it does in the lock machine -/
theorem call_returns (g n : ℕ) (hb : InBroadcast ((states (step p e) init as n).hub.stack g)) :
    ∃ m, n ≤ m ∧ (states (step p e) init as m).hub.stack g = [] := by
  choose b hstep hcond hsched using fun n => step_sim (p := p) (e := e) (s := states (step p e) init as n) (as n)
  have hstates (n : ℕ) : (states (step p e) init as n).hub = states (HubLocks.step p) HubLocks.init b n := by
    induction n with
    | zero => rfl
    | succ n ih => rw [states, hstep, ih, states]
  have hfair' : HubLocks.Fair b := by
    intro g n
    obtain ⟨m, hm, hact⟩ := hfair g n
    rcases hsched m g hact with h | ⟨-, hbusy⟩
    · exact ⟨m, hm, h⟩
    · -- it has just made a call, and is still busy when it is scheduled next
      obtain ⟨k, hk, hbusy', hact'⟩ := eventually_and (x := fun n => (states (step p e) init as n, as n))
        (fun x => x.1.hub.stack g ≠ []) (fun x => Acts g x.2)
        (fun n hbusy hact => by rw [states, step_stack_busy hbusy hact]; exact hbusy) (n := m + 1) hbusy (hfair g (m + 1))
      exact ⟨k, by omega, (hsched k g hact').resolve_right fun h => hbusy' h.1⟩
  have hin' (n : ℕ) : HubLocks.NoFullBroadcast p (states (HubLocks.step p) HubLocks.init b n) (b n) :=
    hstates n ▸ hcond n (hin n)
  obtain ⟨m, hm, hret⟩ := HubLocks.broadcast_returns hfair' hin' g n (hstates n ▸ hb)
  exact ⟨m, hm, by rw [hstates m]; exact hret⟩

omit hin in
/-- a handler between two calls takes its next step -/
theorem handler_goes_on (c : ℕ) (h h' : Handler) (hne : h ≠ .idle)
    (hnext : ∀ (s : State) (nodeNum now : UInt32), s.handler c = h → (s.handlerNext e c nodeNum now).handler c = h')
    (n : ℕ) (hh : (states (step p e) init as n).handler c = h)
    (hs : (states (step p e) init as n).hub.stack (reader c) = []) :
    ∃ m, n ≤ m ∧ (states (step p e) init as m).handler c = h' := by
  refine eventually_of_thread Acts (fun s : State => s.handler c = h ∧ s.hub.stack (reader c) = [])
    (fun s => s.handler c = h') (reader c) hfair ?_ ?_ n ⟨hh, hs⟩
  · rintro n ⟨hh, hs⟩ hact
    obtain ⟨hsame, hstack⟩ := step_handler_busy (p := p) (e := e) (hh ▸ hne) hact
    exact ⟨hsame.trans hh, hstack.trans hs⟩
  · rintro n ⟨hh, hs⟩ ⟨order, nodeNum, now, hact⟩
    simp only [states, hact, step]
    rw [exec_reader hs]
    exact hnext _ nodeNum now hh

/-- **A handler returns.** -/
theorem handler_returns (c n : ℕ) : ∃ m, n ≤ m ∧ (states (step p e) init as m).handler c = .idle := by
  have cached (n : ℕ) (f : Bytes) (hh : (states (step p e) init as n).handler c = .cached f) :
      ∃ m, n ≤ m ∧ (states (step p e) init as m).handler c = .idle := by
    refine handler_goes_on hfair c (.cached f) .idle (by simp) ?_ n hh ?_
    · intro s nodeNum now hs
      simp [State.handlerNext, State.setHandler, hs]
    · simpa [hh] using (states_parties hin n).2.handler c
  have echoed (n : ℕ) (f : Bytes) (hh : (states (step p e) init as n).handler c = .echoed f) :
      ∃ m, n ≤ m ∧ (states (step p e) init as m).handler c = .idle := by
    have hret : ∃ m, n ≤ m ∧ (states (step p e) init as m).hub.stack (reader c) = [] := by
      rcases (states_parties hin n).2.handler c with hs | hidle | ⟨f', -, hb⟩
      · exact ⟨n, le_rfl, hs⟩
      · rw [hh] at hidle
        cases hidle
      · exact call_returns hfair hin (reader c) n hb
    obtain ⟨m, hm, hh', hs⟩ := eventually_and (fun s : State => s.handler c = .echoed f)
      (fun s => s.hub.stack (reader c) = []) (fun n hh hs => by
        by_cases hact : Acts (reader c) (as n)
        · obtain ⟨order, nodeNum, now, hact⟩ := hact
          rw [states, hact, step, exec_busy hs]
          exact hh
        · rw [states, (step_handler_busy (by rw [hh]; simp) hact).1]
          exact hh) hh hret
    obtain ⟨m', hm', hc⟩ := handler_goes_on hfair c (.echoed f) (.cached f) (by simp) (by
      intro s nodeNum now hs
      simp only [State.handlerNext, State.setHandler, hs]
      split
      · split_ifs <;> simp
      · simp) m hh' hs
    obtain ⟨k, hk, hidle⟩ := cached m' f hc
    exact ⟨k, by omega, hidle⟩
  cases hh : (states (step p e) init as n).handler c with
  | idle => exact ⟨n, le_rfl, hh⟩
  | received f =>
    obtain ⟨m, hm, hc⟩ := handler_goes_on hfair c (.received f) (.echoed f) (by simp) (by
      intro s nodeNum now hs
      simp only [State.handlerNext, State.setHandler, hs]
      split <;> simp) n hh (by simpa [hh] using (states_parties hin n).2.handler c)
    obtain ⟨k, hk, hidle⟩ := echoed m f hc
    exact ⟨k, by omega, hidle⟩
  | echoed f => exact echoed n f hh
  | cached f => exact cached n f hh

/-- broadcastLoop takes its next step -/
theorem loop_goes_on (l l' : Loop) (hne : l ≠ .idle) (hnext : ∀ s : State, s.loop = l → (s.loopNext e).loop = l') (n : ℕ)
    (hl : (states (step p e) init as n).loop = l) : ∃ m, n ≤ m ∧ (states (step p e) init as m).loop = l' := by
  refine eventually_of_thread Acts (fun s : State => s.loop = l) (fun s => s.loop = l') 0 hfair ?_ ?_ n hl
  · intro n hl hact
    exact (step_loop_busy (hl ▸ hne) hact).trans hl
  · rintro n hl ⟨order, nodeNum, now, hact⟩
    have hs : (states (step p e) init as n).hub.stack 0 = [] :=
      (states_parties hin n).2.loop.resolve_right fun h => hne (hl.symm.trans h.1)
    simp only [states, hact, step]
    rw [exec_loop hs]
    exact hnext _ hl

/-- **broadcastLoop returns to FromNode().** -/
theorem loop_returns (n : ℕ) :
    ∃ m, n ≤ m ∧ (states (step p e) init as m).loop = .idle ∧ (states (step p e) init as m).hub.stack 0 = [] := by
  have idle (n : ℕ) (hl : (states (step p e) init as n).loop = .idle) :
      ∃ m, n ≤ m ∧ (states (step p e) init as m).loop = .idle ∧ (states (step p e) init as m).hub.stack 0 = [] := by
    have hret : ∃ m, n ≤ m ∧ (states (step p e) init as m).hub.stack 0 = [] := by
      rcases (states_parties hin n).2.loop with hs | ⟨-, hb⟩
      · exact ⟨n, le_rfl, hs⟩
      · exact call_returns hfair hin 0 n hb
    refine eventually_and (fun s : State => s.loop = .idle) (fun s => s.hub.stack 0 = []) ?_ hl hret
    intro n hl hs
    by_cases hact : Acts 0 (as n)
    · obtain ⟨order, nodeNum, now, hact⟩ := hact
      rw [states, hact, step, exec_busy hs]
      exact hl
    · by_cases hrecv : ∃ f, as n = .receive f
      · obtain ⟨f, hf⟩ := hrecv
        simp only [states, hf, step, State.receive]
        rw [if_neg fun hg => hs hg.2.1]
        exact hl
      · rw [states, step_loop hact (not_exists.1 hrecv)]
        exact hl
  have cached (n : ℕ) (f : Bytes) (hl : (states (step p e) init as n).loop = .cached f) :
      ∃ m, n ≤ m ∧ (states (step p e) init as m).loop = .idle ∧ (states (step p e) init as m).hub.stack 0 = [] := by
    obtain ⟨m, hm, hi⟩ := loop_goes_on hfair hin (.cached f) .idle (by simp) (by
      intro s hs
      simp [State.loopNext, hs]) n hl
    obtain ⟨k, hk, h⟩ := idle m hi
    exact ⟨k, hm.trans hk, h⟩
  cases hl : (states (step p e) init as n).loop with
  | idle => exact idle n hl
  | received f =>
    obtain ⟨m, hm, hc⟩ := loop_goes_on hfair hin (.received f) (.cached f) (by simp) (by
      intro s hs
      simp only [State.loopNext, hs]
      split_ifs
      · rfl
      · split <;> rfl) n hl
    obtain ⟨k, hk, h⟩ := cached m f hc
    exact ⟨k, hm.trans hk, h⟩
  | cached f => exact cached n f hl

end Fair

end MeshProxy.HubTraffic
