/-
The connection manager (`internal/node/connection.go`: Run, runConnection, writeLoop, readLoop's hand-over, heartbeatLoop,
Send, requestConfig, close, drainChannels) as a step machine.

`Run` has a program counter; every connection it establishes has a number (`gen`) and its own writer, reader and
heartbeat goroutine, which may outlive it: they end only when they are scheduled after their context was cancelled. The
channels toNode and fromNode belong to the manager and outlive connections. One action is one step of one party: `run`
is Run's own next step (with what the outside decides: whether the dial succeeds, the nonce, which ready case a select
takes), the others are the goroutines, the hub's receive and `Send` by anyone. drainChannels' length test and its
receive are separate steps. A frame in toNode carries as a ghost the connection whose requestConfig produced it.

- `step_move`: what a step of another party does, and what it takes;
- `step_env`: the other parties never move Run's program counter, its connection number or what it has closed;
- `drain_never_blocks`: drainChannels' receives find a frame, and Run gets to its next dial, in every run in which no
  other consumer takes the last frame of a channel between the length test and the receive;
- `hung_forever`: after such a theft from fromNode, with no reader left, Run never dials again.
-/
import MeshProxy.Core.Trace
import MeshProxy.Proto.Messages

namespace MeshProxy.Link

open MeshProxy.Proto MeshProxy.Trace
open MeshProxy.Frame (Bytes maxFrameSize)

/-! ## The machine -/

/-- the settings Config.Validate accepts -/
structure Params where
  fromBuffer : ℕ
  toBuffer : ℕ
  reconnectInterval : ℤ
  maxReconnectInterval : ℤ
  heartbeat : Bool
  fromBuffer_pos : 1 ≤ fromBuffer
  toBuffer_pos : 1 ≤ toBuffer

/-- who queued a frame for the node -/
inductive Src where
  | handshake (gen : ℕ)
  | sent
deriving DecidableEq, Repr

structure Queued where
  src : Src
  payload : Bytes
deriving DecidableEq, Repr

/-- where `Run` stands -/
inductive Pc where
  | top | dialing | dialFailed | stored | requested | running | returned
  | drainTo | drainToRecv | drainFrom | drainFromRecv | backoff | stopped
deriving DecidableEq, Repr

/-- a `writeLoop`: at its select, inside WriteFrame, or over -/
inductive Writer where
  | absent | select | writing (f : Queued) | done
deriving DecidableEq, Repr

/-- a `readLoop`: at its context check, inside ReadFrame, at the hand-over, or over -/
inductive Reader where
  | absent | top | reading | handing (f : Bytes) | done
deriving DecidableEq, Repr

inductive Heart where
  | absent | select | done
deriving DecidableEq, Repr

structure Manager where
  pc : Pc
  toNode : List Queued
  fromNode : List Bytes
  gen : ℕ
  writer : ℕ → Writer
  reader : ℕ → Reader
  heart : ℕ → Heart
  ctxDone : ℕ → Bool
  closed : ℕ → Bool
  written : ℕ → List Queued
  backoff : ℤ
  cancelled : Bool

/-- what the outside decides about a step of `Run` -/
structure Outcome where
  dialOk : Bool := true
  nonce : UInt32 := 0
  ctxFirst : Bool := true
deriving DecidableEq, Repr

inductive Act where
  | run (o : Outcome)
  | cancel
  | send (payload : Bytes)
  | hubRecv
  | writerTake (k : ℕ)
  | writerWrite (k : ℕ) (ok : Bool)
  | writerStop (k : ℕ)
  | readerCheck (k : ℕ)
  | readerRead (k : ℕ) (frame : Option Bytes)
  | readerPush (k : ℕ)
  | readerStop (k : ℕ)
  | heartTick (k : ℕ) (payload : Bytes)
  | heartStop (k : ℕ)
deriving DecidableEq, Repr

def Act.isRun : Act → Bool
  | .run _ => true
  | _ => false

variable (pb : Codec) (p : Params)

namespace Manager

/-- `NewConnection`, then `Run` -/
def init : Manager where
  pc := .top
  toNode := []
  fromNode := []
  gen := 0
  writer := fun _ => .absent
  reader := fun _ => .absent
  heart := fun _ => .absent
  ctxDone := fun _ => false
  closed := fun _ => false
  written := fun _ => []
  backoff := p.reconnectInterval
  cancelled := false

/-- `Send`: a frame that finds the channel full is dropped -/
def send (f : Queued) (s : Manager) : Manager :=
  if s.toNode.length < p.toBuffer then { s with toNode := s.toNode ++ [f] } else s

/-- `requestConfig` -/
def requestConfig (nonce : UInt32) (s : Manager) : Manager :=
  match pb.marshalToRadio { variant := .wantConfigId nonce } with
  | none => s
  | some data => s.send p ⟨.handshake s.gen, data⟩

/-- the goroutines of `runConnection` -/
def spawn (s : Manager) : Manager :=
  { s with
    writer := Function.update s.writer s.gen .select
    reader := Function.update s.reader s.gen .top
    heart := if p.heartbeat then Function.update s.heart s.gen .select else s.heart }

/-- errCh has an error, or the context is done -/
def failed (s : Manager) : Bool :=
  s.writer s.gen = .done ∨ s.reader s.gen = .done ∨ s.heart s.gen = .done ∨ s.cancelled = true

/-- int64 arithmetic -/
def wrap64 (x : ℤ) : ℤ := x.bmod (2 ^ 64)

/-- the wait of `backoff`, then its doubling -/
def wait (o : Outcome) (s : Manager) : Manager :=
  if s.cancelled = true ∧ o.ctxFirst = true then { s with pc := .stopped }
  else { s with pc := .top, backoff := min (wrap64 (s.backoff * 2)) p.maxReconnectInterval }

/-- the next step of `Run`; a step that has to wait leaves the state as it is -/
def runStep (o : Outcome) (s : Manager) : Manager :=
  match s.pc with
  | .top => if s.cancelled then { s with pc := .stopped } else { s with pc := .dialing }
  | .dialing =>
    if o.dialOk then { s with pc := .stored, gen := s.gen + 1, backoff := p.reconnectInterval }
    else { s with pc := .dialFailed }
  | .dialFailed => s.wait p o
  | .stored => { s.requestConfig pb p o.nonce with pc := .requested }
  | .requested => { s.spawn p with pc := .running }
  | .running => if s.failed then { s with pc := .returned, ctxDone := Function.update s.ctxDone s.gen true } else s
  | .returned => { s with pc := .drainTo, closed := Function.update s.closed s.gen true }
  | .drainTo => if 0 < s.toNode.length then { s with pc := .drainToRecv } else { s with pc := .drainFrom }
  | .drainToRecv =>
    match s.toNode with
    | [] => s
    | _ :: rest => { s with pc := .drainTo, toNode := rest }
  | .drainFrom => if 0 < s.fromNode.length then { s with pc := .drainFromRecv } else { s with pc := .backoff }
  | .drainFromRecv =>
    match s.fromNode with
    | [] => s
    | _ :: rest => { s with pc := .drainFrom, fromNode := rest }
  | .backoff => s.wait p o
  | .stopped => s

/-- the context of connection k is done -/
def ctxOver (s : Manager) (k : ℕ) : Bool := s.ctxDone k || s.cancelled

/-- `writeLoop` takes the next frame -/
def writerTake (k : ℕ) (s : Manager) : Manager :=
  match s.writer k, s.toNode with
  | .select, f :: rest => { s with writer := Function.update s.writer k (.writing f), toNode := rest }
  | _, _ => s

/-- `WriteFrame` refuses a payload over the frame size and fails on a closed connection; any other write may fail too -/
def writerWrite (k : ℕ) (ok : Bool) (s : Manager) : Manager :=
  match s.writer k with
  | .writing f =>
    if ok = true ∧ s.closed k = false ∧ f.payload.length ≤ maxFrameSize then
      { s with
        writer := Function.update s.writer k .select
        written := Function.update s.written k (s.written k ++ [f]) }
    else { s with writer := Function.update s.writer k .done }
  | _ => s

def readerRead (k : ℕ) (frame : Option Bytes) (s : Manager) : Manager :=
  match s.reader k with
  | .reading =>
    { s with reader := Function.update s.reader k (match frame with | some f => .handing f | none => .done) }
  | _ => s

def readerPush (k : ℕ) (s : Manager) : Manager :=
  match s.reader k with
  | .handing f =>
    if s.fromNode.length < p.fromBuffer then
      { s with fromNode := s.fromNode ++ [f], reader := Function.update s.reader k .top }
    else s
  | _ => s

/-- the context cases of `readLoop`: before ReadFrame, and while the hand-over waits -/
def readerStop (k : ℕ) (s : Manager) : Manager :=
  match s.reader k with
  | .top | .handing _ => if s.ctxOver k then { s with reader := Function.update s.reader k .done } else s
  | _ => s

end Manager

def step (s : Manager) : Act → Manager
  | .run o => s.runStep pb p o
  | .cancel => { s with cancelled := true }
  | .send payload => s.send p ⟨.sent, payload⟩
  | .hubRecv => { s with fromNode := s.fromNode.tail }
  | .writerTake k => s.writerTake k
  | .writerWrite k ok => s.writerWrite k ok
  | .writerStop k =>
    if s.writer k = .select ∧ s.ctxOver k = true then { s with writer := Function.update s.writer k .done } else s
  | .readerCheck k =>
    if s.reader k = .top ∧ s.ctxOver k = false then { s with reader := Function.update s.reader k .reading } else s
  | .readerRead k frame => s.readerRead k frame
  | .readerPush k => s.readerPush p k
  | .readerStop k => s.readerStop k
  | .heartTick k payload => if s.heart k = .select then s.send p ⟨.sent, payload⟩ else s
  | .heartStop k =>
    if s.heart k = .select ∧ s.ctxOver k = true then { s with heart := Function.update s.heart k .done } else s

/-! ## What the other parties can do -/

/-- the actions that may put a frame into toNode -/
def Act.queuesTo : Act → Bool
  | .send _ | .heartTick _ _ => true
  | _ => false

/-- the actions that may put a frame into fromNode -/
def Act.queuesFrom : Act → Bool
  | .readerPush _ => true
  | _ => false

def Act.enqueues (a : Act) : Bool := a.queuesTo || a.queuesFrom

theorem queuesFrom_of_queuesTo {a : Act} (h : a.queuesTo = true) : a.queuesFrom = false := by
  cases a <;> first | rfl | cases h

/-- the steps of the other parties, each with what it takes; `idle` is the step of an action that cannot happen -/
inductive Move (s : Manager) : Act → Manager → Prop
  | idle (a : Act) : Move s a s
  | cancel : Move s .cancel { s with cancelled := true }
  | hubRecv : Move s .hubRecv { s with fromNode := s.fromNode.tail }
  | send (b : Bytes) (hroom : s.toNode.length < p.toBuffer) :
    Move s (.send b) { s with toNode := s.toNode ++ [⟨.sent, b⟩] }
  | beat {k : ℕ} (b : Bytes) (hh : s.heart k = .select) (hroom : s.toNode.length < p.toBuffer) :
    Move s (.heartTick k b) { s with toNode := s.toNode ++ [⟨.sent, b⟩] }
  | take {k : ℕ} {f : Queued} {rest : List Queued} (hw : s.writer k = .select) (hq : s.toNode = f :: rest) :
    Move s (.writerTake k) { s with writer := Function.update s.writer k (.writing f), toNode := rest }
  | write {k : ℕ} {f : Queued} (ok : Bool) (hw : s.writer k = .writing f) (hopen : s.closed k = false)
      (hsize : f.payload.length ≤ maxFrameSize) :
    Move s (.writerWrite k ok)
      { s with
        writer := Function.update s.writer k .select
        written := Function.update s.written k (s.written k ++ [f]) }
  | writeFails {k : ℕ} {f : Queued} (ok : Bool) (hw : s.writer k = .writing f) :
    Move s (.writerWrite k ok) { s with writer := Function.update s.writer k .done }
  | writerStop {k : ℕ} (hw : s.writer k = .select) (hover : s.ctxOver k = true) :
    Move s (.writerStop k) { s with writer := Function.update s.writer k .done }
  | check {k : ℕ} (hr : s.reader k = .top) (hgoes : s.ctxOver k = false) :
    Move s (.readerCheck k) { s with reader := Function.update s.reader k .reading }
  | read {k : ℕ} (frame : Option Bytes) (hr : s.reader k = .reading) :
    Move s (.readerRead k frame)
      { s with reader := Function.update s.reader k (match frame with | some f => .handing f | none => .done) }
  | push {k : ℕ} {f : Bytes} (hr : s.reader k = .handing f) (hroom : s.fromNode.length < p.fromBuffer) :
    Move s (.readerPush k) { s with fromNode := s.fromNode ++ [f], reader := Function.update s.reader k .top }
  | readerStop {k : ℕ} (hr : s.reader k = .top ∨ ∃ f, s.reader k = .handing f) (hover : s.ctxOver k = true) :
    Move s (.readerStop k) { s with reader := Function.update s.reader k .done }
  | heartStop {k : ℕ} (hh : s.heart k = .select) (hover : s.ctxOver k = true) :
    Move s (.heartStop k) { s with heart := Function.update s.heart k .done }

variable {s : Manager}

theorem step_move {a : Act} (ha : a.isRun = false) : Move p s a (step pb p s a) := by
  cases a with
  | run o => cases ha
  | cancel => exact .cancel
  | hubRecv => exact .hubRecv
  | send payload =>
    simp only [step, Manager.send]
    split_ifs with hroom
    · exact .send payload hroom
    · exact .idle _
  | writerTake k =>
    simp only [step, Manager.writerTake]
    split
    · rename_i f rest hw hq
      exact .take hw hq
    · exact .idle _
  | writerWrite k ok =>
    simp only [step, Manager.writerWrite]
    split
    · rename_i f hw
      split_ifs with hg
      · exact .write ok hw hg.2.1 hg.2.2
      · exact .writeFails ok hw
    · exact .idle _
  | writerStop k =>
    simp only [step]
    split_ifs with hg
    · exact .writerStop hg.1 hg.2
    · exact .idle _
  | readerCheck k =>
    simp only [step]
    split_ifs with hg
    · exact .check hg.1 hg.2
    · exact .idle _
  | readerRead k frame =>
    simp only [step, Manager.readerRead]
    split
    · rename_i hr
      exact .read frame hr
    · exact .idle _
  | readerPush k =>
    simp only [step, Manager.readerPush]
    split
    · rename_i f hr
      split_ifs with hroom
      · exact .push hr hroom
      · exact .idle _
    · exact .idle _
  | readerStop k =>
    simp only [step, Manager.readerStop]
    split
    · rename_i hr
      split_ifs with hover
      · exact .readerStop (Or.inl hr) hover
      · exact .idle _
    · rename_i f hr
      split_ifs with hover
      · exact .readerStop (Or.inr ⟨f, hr⟩) hover
      · exact .idle _
    · exact .idle _
  | heartTick k payload =>
    simp only [step, Manager.send]
    split_ifs with hh hroom
    · exact .beat payload hh hroom
    · exact .idle _
    · exact .idle _
  | heartStop k =>
    simp only [step]
    split_ifs with hg
    · exact .heartStop hg.1 hg.2
    · exact .idle _

/-- the other parties leave Run's position, its connection number, its contexts and its closed connections alone -/
theorem step_env {a : Act} (ha : a.isRun = false) :
    (step pb p s a).pc = s.pc ∧ (step pb p s a).gen = s.gen ∧ (step pb p s a).closed = s.closed ∧
      (step pb p s a).ctxDone = s.ctxDone := by
  have hmove := step_move pb p (s := s) ha
  generalize step pb p s a = s' at hmove
  cases hmove <;> exact ⟨rfl, rfl, rfl, rfl⟩

theorem send_toNode (f : Queued) : (s.send p f).toNode = s.toNode ∨ (s.send p f).toNode = s.toNode ++ [f] := by
  unfold Manager.send
  split_ifs
  · exact Or.inr rfl
  · exact Or.inl rfl

/-- toNode after a step of another party: unchanged, one frame longer, or without the frame a writer took -/
theorem env_toNode {a : Act} (ha : a.isRun = false) :
    (step pb p s a).toNode = s.toNode ∨
    (a.queuesTo = true ∧ ∃ b, (step pb p s a).toNode = s.toNode ++ [⟨.sent, b⟩]) ∨
    (∃ k f, a = .writerTake k ∧ s.writer k = .select ∧ s.toNode = f :: (step pb p s a).toNode) := by
  have hmove := step_move pb p (s := s) ha
  generalize step pb p s a = s' at hmove
  cases hmove with
  | send b => exact Or.inr (Or.inl ⟨rfl, b, rfl⟩)
  | beat b => exact Or.inr (Or.inl ⟨rfl, b, rfl⟩)
  | @take k f rest hw hq => exact Or.inr (Or.inr ⟨k, f, rfl, hw, hq⟩)
  | _ => exact Or.inl rfl

/-- fromNode after a step of another party: unchanged, one frame longer, or without the frame the hub received -/
theorem env_fromNode {a : Act} (ha : a.isRun = false) :
    (step pb p s a).fromNode = s.fromNode ∨
    (a.queuesFrom = true ∧ ∃ b, (step pb p s a).fromNode = s.fromNode ++ [b]) ∨
    (a = .hubRecv ∧ (step pb p s a).fromNode = s.fromNode.tail) := by
  have hmove := step_move pb p (s := s) ha
  generalize step pb p s a = s' at hmove
  cases hmove with
  | hubRecv => exact Or.inr (Or.inr ⟨rfl, rfl⟩)
  | @push k f hr => exact Or.inr (Or.inl ⟨rfl, f, rfl⟩)
  | _ => exact Or.inl rfl

/-! ## Draining -/

/-- at a receive of drainChannels the channel holds a frame -/
structure DrainInv (s : Manager) : Prop where
  toNode : s.pc = .drainToRecv → s.toNode ≠ []
  fromNode : s.pc = .drainFromRecv → s.fromNode ≠ []

/-- no other consumer takes the last frame of the channel that drainChannels is about to receive from -/
def NoTheft (s : Manager) : Act → Prop
  | .writerTake k => s.pc = .drainToRecv → s.writer k = .select → s.toNode.length ≠ 1
  | .hubRecv => s.pc = .drainFromRecv → s.fromNode.length ≠ 1
  | _ => True

instance (s : Manager) : ∀ a, Decidable (NoTheft s a)
  | .writerTake k => inferInstanceAs (Decidable (s.pc = .drainToRecv → s.writer k = .select → s.toNode.length ≠ 1))
  | .hubRecv => inferInstanceAs (Decidable (s.pc = .drainFromRecv → s.fromNode.length ≠ 1))
  | .run _ | .cancel | .send _ | .writerWrite _ _ | .writerStop _ | .readerCheck _ | .readerRead _ _ | .readerPush _
  | .readerStop _ | .heartTick _ _ | .heartStop _ => inferInstanceAs (Decidable True)

theorem runStep_drainInv (h : DrainInv s) (o : Outcome) : DrainInv (s.runStep pb p o) := by
  unfold Manager.runStep
  split
  · split_ifs <;> exact ⟨by simp, by simp⟩
  · split_ifs <;> exact ⟨by simp, by simp⟩
  · unfold Manager.wait; split_ifs <;> exact ⟨by simp, by simp⟩
  · exact ⟨by simp, by simp⟩
  · exact ⟨by simp, by simp⟩
  · split_ifs
    · exact ⟨by simp, by simp⟩
    · exact h
  · exact ⟨by simp, by simp⟩
  · split_ifs with hlen
    · exact ⟨fun _ => List.ne_nil_of_length_pos hlen, by simp⟩
    · exact ⟨by simp, by simp⟩
  · split
    · exact h
    · exact ⟨by simp, by simp⟩
  · split_ifs with hlen
    · exact ⟨by simp, fun _ => List.ne_nil_of_length_pos hlen⟩
    · exact ⟨by simp, by simp⟩
  · split
    · exact h
    · exact ⟨by simp, by simp⟩
  · unfold Manager.wait; split_ifs <;> exact ⟨by simp, by simp⟩
  · exact h

theorem step_drainInv {a : Act} (h : DrainInv s) (ha : NoTheft s a) : DrainInv (step pb p s a) := by
  cases hr : a.isRun with
  | true =>
    cases a <;> cases hr
    exact runStep_drainInv pb p h _
  | false =>
    obtain ⟨hpc, -, -, -⟩ := step_env pb p (s := s) hr
    constructor
    · intro hat
      rw [hpc] at hat
      have hne := h.toNode hat
      rcases env_toNode pb p (s := s) hr with e | ⟨-, b, e⟩ | ⟨k, f, rfl, hw, e⟩
      · rw [e]; exact hne
      · rw [e]; simp
      · intro hnil
        apply ha hat hw
        rw [e, hnil]
        rfl
    · intro hat
      rw [hpc] at hat
      have hne := h.fromNode hat
      rcases env_fromNode pb p (s := s) hr with e | ⟨-, b, e⟩ | ⟨rfl, e⟩
      · rw [e]; exact hne
      · rw [e]; simp
      · intro hnil
        apply ha hat
        rw [e] at hnil
        obtain ⟨f, fs, hfs⟩ := List.exists_cons_of_ne_nil hne
        rw [hfs] at hnil ⊢
        rw [List.tail_cons] at hnil
        rw [hnil]
        rfl

/-! ## The way to the next dial -/

/-- the positions between a disconnect and the next dial -/
def Pc.onPath : Pc → Bool
  | .returned | .drainTo | .drainToRecv | .drainFrom | .drainFromRecv | .backoff | .top => true
  | _ => false

/-- steps left on the way, apart from the frames to drain -/
def Pc.rank : Pc → ℕ
  | .returned => 6
  | .drainTo => 5
  | .drainToRecv => 4
  | .drainFrom => 3
  | .drainFromRecv => 2
  | .backoff => 1
  | _ => 0

/-- an upper bound on Run's own steps to the next dial: two for each frame still queued -/
def work (s : Manager) : ℕ := 2 * (s.toNode.length + s.fromNode.length) + s.pc.rank

def ownSteps (as : List Act) : ℕ := as.countP Act.isRun

def enqueued (as : List Act) : ℕ := as.countP Act.enqueues

/-- Run dials, or has stopped because its context is done -/
def Dials (s : Manager) : Prop := s.pc = .dialing ∨ (s.pc = .stopped ∧ s.cancelled = true)

theorem wait_path (o : Outcome) (hp : s.pc = .backoff) :
    Dials (s.wait p o) ∨ ((s.wait p o).pc.onPath = true ∧ work (s.wait p o) + 1 ≤ work s) := by
  unfold Manager.wait
  split_ifs with hc
  · exact Or.inl (Or.inr ⟨rfl, hc.1⟩)
  · refine Or.inr ⟨rfl, ?_⟩
    simp [work, hp, Pc.rank]

/-- Run's own step on the way takes it to the dial or closer to it -/
theorem runStep_path (h : DrainInv s) (hp : s.pc.onPath = true) (o : Outcome) :
    Dials (s.runStep pb p o) ∨ ((s.runStep pb p o).pc.onPath = true ∧ work (s.runStep pb p o) + 1 ≤ work s) := by
  unfold Manager.runStep
  split <;> rename_i hpc
  · left
    split_ifs with hc
    · exact Or.inr ⟨rfl, hc⟩
    · exact Or.inl rfl
  · rw [hpc] at hp; cases hp
  · rw [hpc] at hp; cases hp
  · rw [hpc] at hp; cases hp
  · rw [hpc] at hp; cases hp
  · rw [hpc] at hp; cases hp
  · exact Or.inr ⟨rfl, by simp [work, hpc, Pc.rank]⟩
  · right
    split_ifs
    · exact ⟨rfl, by simp [work, hpc, Pc.rank]⟩
    · exact ⟨rfl, by simp only [work, hpc, Pc.rank]; omega⟩
  · right
    split
    · rename_i hnil; exact absurd hnil (h.toNode hpc)
    · rename_i f rest hq
      exact ⟨rfl, by simp only [work, hpc, Pc.rank, hq, List.length_cons]; omega⟩
  · right
    split_ifs
    · exact ⟨rfl, by simp [work, hpc, Pc.rank]⟩
    · exact ⟨rfl, by simp only [work, hpc, Pc.rank]; omega⟩
  · right
    split
    · rename_i hnil; exact absurd hnil (h.fromNode hpc)
    · rename_i f rest hq
      exact ⟨rfl, by simp only [work, hpc, Pc.rank, hq, List.length_cons]; omega⟩
  · exact wait_path p o hpc
  · rw [hpc] at hp; cases hp

/-- the other parties add at most two units of work, and only by enqueueing -/
theorem env_work {a : Act} (ha : a.isRun = false) :
    work (step pb p s a) ≤ work s + 2 * (if a.enqueues then 1 else 0) := by
  obtain ⟨hpc, -, -, -⟩ := step_env pb p (s := s) ha
  have hto := env_toNode pb p (s := s) ha
  have hfrom := env_fromNode pb p (s := s) ha
  simp only [work, hpc]
  rcases hto with e | ⟨ht, b, e⟩ | ⟨k, f, rfl, hw, e⟩
  · rcases hfrom with e' | ⟨hf, b', e'⟩ | ⟨rfl, e'⟩
    · rw [e, e']; omega
    · rw [e, e', if_pos (by simp [Act.enqueues, hf]), List.length_append, List.length_singleton]; omega
    · rw [e, e', List.length_tail]; omega
  · rcases hfrom with e' | ⟨hf, b', e'⟩ | ⟨rfl, e'⟩
    · rw [e, e', if_pos (by simp [Act.enqueues, ht]), List.length_append, List.length_singleton]; omega
    · rw [queuesFrom_of_queuesTo ht] at hf; cases hf
    · cases ht
  · rcases hfrom with e' | ⟨hf, b', e'⟩ | ⟨h0, e'⟩
    · rw [e', e, List.length_cons]; omega
    · cases hf
    · cases h0

/-- **Run gets to its dial.** On the way, inside the condition, any interleaving that gives Run more steps than its work
and the frames enqueued meanwhile ask for passes the next dial. -/
theorem reaches_dial (bs : List Act) (h : DrainInv s) (hp : s.pc.onPath = true)
    (hbs : Along (step pb p) NoTheft s bs) (hown : work s + 2 * enqueued bs < ownSteps bs) :
    ∃ pre post, bs = pre ++ post ∧ Dials (run (step pb p) s pre) := by
  induction bs generalizing s with
  | nil => simp [ownSteps] at hown
  | cons a bs ih =>
    have h' := step_drainInv pb p h hbs.1
    -- either the first step already dials, or the rest of the run still has steps to spare
    by_cases hd : Dials (step pb p s a)
    · exact ⟨[a], bs, rfl, hd⟩
    have hnext : (step pb p s a).pc.onPath = true ∧ work (step pb p s a) + 2 * enqueued bs < ownSteps bs := by
      simp only [enqueued, ownSteps, List.countP_cons] at hown ⊢
      cases hr : a.isRun with
      | true =>
        cases a <;> cases hr
        rename_i o
        rcases runStep_path pb p h hp o with hdial | ⟨hpath, hwork⟩
        · exact absurd hdial hd
        · refine ⟨hpath, ?_⟩
          simp only [Act.isRun, if_true] at hown
          have hwork' : work (step pb p s (.run o)) + 1 ≤ work s := hwork
          omega
      | false =>
        have hwork := env_work pb p (s := s) hr
        refine ⟨by rw [(step_env pb p hr).1]; exact hp, ?_⟩
        rw [hr] at hown
        simp only [Bool.false_eq_true, if_false] at hown
        omega
    obtain ⟨pre, post, rfl, hpre⟩ := ih h' hnext.1 hbs.2 hnext.2
    exact ⟨a :: pre, post, rfl, hpre⟩

/-- outside the condition Run waits at its receive, whatever the outside decides -/
theorem theft_blocks {a : Act} (ha : ¬ NoTheft s a) (o : Outcome) :
    (step pb p s a).runStep pb p o = step pb p s a := by
  cases a <;> first | exact absurd trivial ha | skip
  · simp only [NoTheft, not_forall, not_not] at ha
    obtain ⟨hpc, hlen⟩ := ha
    have hnil : s.fromNode.tail = [] := List.eq_nil_of_length_eq_zero (by rw [List.length_tail, hlen])
    simp only [step, Manager.runStep, hpc, hnil]
  · rename_i k
    simp only [NoTheft, not_forall, not_not] at ha
    obtain ⟨hpc, hw, hlen⟩ := ha
    obtain ⟨f, hf⟩ := List.length_eq_one_iff.1 hlen
    simp only [step, Manager.writerTake, hw, hf, Manager.runStep, hpc]

/-- Run waits at its receive from fromNode and nobody is left to send -/
structure Hung (s : Manager) : Prop where
  pc : s.pc = .drainFromRecv
  empty : s.fromNode = []
  readers : ∀ k, s.reader k = .absent ∨ s.reader k = .done

/-- with no reader left the readers stay as they are, and nothing comes into fromNode -/
theorem env_reader {a : Act} (ha : a.isRun = false) (h : ∀ k, s.reader k = .absent ∨ s.reader k = .done) :
    (step pb p s a).reader = s.reader ∧ (s.fromNode = [] → (step pb p s a).fromNode = []) := by
  have hgone : ∀ k, s.reader k ≠ .top ∧ s.reader k ≠ .reading ∧ ∀ f, s.reader k ≠ .handing f := by
    intro k
    rcases h k with hk | hk <;> rw [hk] <;> simp
  have hmove := step_move pb p (s := s) ha
  generalize step pb p s a = s' at hmove
  cases hmove with
  | @check k hr => exact absurd hr (hgone k).1
  | @read k frame hr => exact absurd hr (hgone k).2.1
  | @push k f hr => exact absurd hr ((hgone k).2.2 f)
  | @readerStop k hr =>
    rcases hr with hr | ⟨f, hr⟩
    · exact absurd hr (hgone k).1
    · exact absurd hr ((hgone k).2.2 f)
  | hubRecv => exact ⟨rfl, fun he => by rw [he]; rfl⟩
  | _ => exact ⟨rfl, id⟩

/-- **The hang.** Once Run waits there with no reader left, no interleaving of any length gets it away. -/
theorem hung_forever (h : Hung s) (bs : List Act) : Hung (run (step pb p) s bs) := by
  refine run_inv_all (I := Hung) (fun s a h => ?_) bs h
  cases hr : a.isRun with
  | true =>
    cases a <;> cases hr
    have hsame : s.runStep pb p ‹_› = s := by simp only [Manager.runStep, h.pc, h.empty]
    rw [step, hsame]
    exact h
  | false =>
    obtain ⟨hreader, hempty⟩ := env_reader pb p hr h.readers
    exact ⟨by rw [(step_env pb p hr).1, h.pc], hempty h.empty, by rw [hreader]; exact h.readers⟩

theorem init_drainInv : DrainInv (.init p) := ⟨fun h => (by cases h), fun h => (by cases h)⟩

/-- **drainChannels never blocks.** In every run in which no other consumer takes the last frame of a channel between
drainChannels' length test and its receive, the channel holds a frame whenever drainChannels receives; and from every
state between a disconnect and the next dial, every continuation of that kind that gives Run enough steps passes the
dial. A step outside the condition leaves Run waiting at the receive. -/
theorem drain_never_blocks (as : List Act) (h : Along (step pb p) NoTheft (.init p) as) :
    let s := run (step pb p) (.init p) as
    (s.pc = .drainToRecv → s.toNode ≠ []) ∧ (s.pc = .drainFromRecv → s.fromNode ≠ []) ∧
    (s.pc.onPath = true → ∀ bs, Along (step pb p) NoTheft s bs → work s + 2 * enqueued bs < ownSteps bs →
      ∃ pre post, bs = pre ++ post ∧ Dials (run (step pb p) s pre)) ∧
    (∀ a, ¬ NoTheft s a → ∀ o, (step pb p s a).runStep pb p o = step pb p s a) := by
  have hinv : DrainInv (run (step pb p) (.init p) as) :=
    run_inv (fun _ _ hs ha => step_drainInv pb p hs ha) (init_drainInv p) h
  exact ⟨hinv.toNode, hinv.fromNode, fun hp bs hbs hown => reaches_dial pb p bs hinv hp hbs hown,
    fun a ha o => theft_blocks pb p ha o⟩

/-! ### A frame that the hub takes first -/

/-- a codec that knows the want_config_id message with nonce 5 -/
def linkCodec : Codec := tableCodec [] [([0x18, 5], { variant := .wantConfigId 5 })] []

/-- the default settings -/
def defaultParams : Params where
  fromBuffer := 256
  toBuffer := 64
  reconnectInterval := 1000000000
  maxReconnectInterval := 30000000000
  heartbeat := true
  fromBuffer_pos := by decide
  toBuffer_pos := by decide

def connectSteps : List Act := [.run {}, .run {}, .run { nonce := 5 }, .run {}]

/-- one frame is read, then the connection breaks before the writer was scheduled; drainChannels discards the handshake
and finds the frame in fromNode -/
def disconnectTrace : List Act :=
  connectSteps ++ [.readerCheck 1, .readerRead 1 (some [1]), .readerPush 1, .readerCheck 1, .readerRead 1 none] ++
    [.run {}, .run {}, .run {}, .run {}, .run {}, .run {}]

theorem drain_finds_frame :
    (run (step linkCodec defaultParams) (.init defaultParams) disconnectTrace).pc = .drainFromRecv ∧
      (run (step linkCodec defaultParams) (.init defaultParams) disconnectTrace).fromNode ≠ [] :=
  ⟨by decide +kernel,
    (drain_never_blocks linkCodec defaultParams disconnectTrace (by decide +kernel)).2.1 (by decide +kernel)⟩

/-- the hub receives between the length test and drainChannels' receive, and no reader is left to send another frame -/
theorem drain_receives_from_empty :
    (run (step linkCodec defaultParams) (.init defaultParams) (disconnectTrace ++ [.hubRecv])).pc = .drainFromRecv ∧
      (run (step linkCodec defaultParams) (.init defaultParams) (disconnectTrace ++ [.hubRecv])).fromNode = [] ∧
      (run (step linkCodec defaultParams) (.init defaultParams) (disconnectTrace ++ [.hubRecv])).reader 1 = .done := by
  decide +kernel

end MeshProxy.Link
