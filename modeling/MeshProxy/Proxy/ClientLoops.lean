/-
The life of one client (`internal/proxy`: Client.Start, Wait, readLoop, writeLoop, Send and Close, the onMessage handler
of handleNewConnection, unregisterClient).

The parties are the readLoop with the handler it calls, the writeLoop, the goroutine in Wait, and whoever is inside a
call of Send or Close on this client: a broadcast or an echo, which holds p.mu for reading all the while, or a replay, the
shutdown and others, which do not. A call to Close runs the body once, or waits until it has been run: the connection is
closed, p.mu is requested for writing, and when no reader is left the client is deleted from p.clients. A pending request
keeps new readers of p.mu out, the handler's echo too.

`buf` is what the readLoop's bufio.Reader has read and ReadFrame has not returned yet; ReadFrame reads on from the
connection only when no whole frame is left there. `effects` is the log of what the handler has done with the client's
frames. What happens on other clients' connections, log lines and metrics are left out.

- `dead_writer_closes_iff`: when the writeLoop has failed and no party can go on by itself, the client is closed and
  unregistered exactly if the readLoop is not inside ReadFrame and no holder of p.mu is inside Close;
- `nothing_after_disconnect_iff`: after a Disconnect nothing more is done for the client exactly if its context is
  cancelled or no whole frame is left in the buffer but Disconnects.
-/
import MeshProxy.Core.Trace
import MeshProxy.Proxy.ChatCache

namespace MeshProxy.ClientLoops

open MeshProxy.Proto MeshProxy.ChatCache MeshProxy.Trace
open MeshProxy.Frame (Bytes readFrame readAll readAll_ok readFrame_rest_lt writeFrame)

/-! ## The machine -/

/-- what the handler does with a frame of the client -/
inductive Effect where
  | replayed (nonce : UInt32)
  | echoed (f : Bytes)
  | cached (f : Bytes)
  | forwarded (f : Bytes)
deriving DecidableEq, Repr

/-- where the readLoop stands; `received` to `disconnected` are inside onMessage, `returned` is before `cancel` -/
inductive Reader where
  | check
  | reading
  | received (f : Bytes)
  | echo (f : Bytes)
  | cache (f : Bytes)
  | forward (f : Bytes)
  | closing
  | disconnected
  | returned
  | done
deriving DecidableEq, Repr

/-- where the writeLoop stands; whether WriteFrame has failed -/
inductive Writer where
  | select
  | writing (f : Bytes)
  | returned (failed : Bool)
  | done (failed : Bool)
deriving DecidableEq, Repr

/-- where Wait stands -/
inductive Waiter where
  | waiting
  | closing
  | done
deriving DecidableEq, Repr

inductive CallPc where
  | send (f : Bytes)
  | close
deriving DecidableEq, Repr

/-- somebody inside Send or Close; a broadcast or an echo is so from its RLock on, and holds p.mu -/
structure Caller where
  holdsMu : Bool
  pc : CallPc
deriving DecidableEq, Repr

/-- how far the body of Close is: the connection closed, p.mu requested, the client deleted -/
inductive Once where
  | fresh
  | running
  | locking
  | done
deriving DecidableEq, Repr

structure St where
  reader : Reader
  writer : Writer
  waiter : Waiter
  callers : List Caller
  buf : Bytes
  chan : List Bytes
  ctxDone : Bool
  closed : Bool
  once : Once
  registered : Bool
  effects : List Effect
deriving DecidableEq, Repr

/-- registered and started -/
def init : St := ⟨.check, .select, .waiting, [], [], [], false, false, .fresh, true, []⟩

structure Env where
  pb : Codec
  clientSendBuffer : ℕ

/-- `send` and `close` are new calls, `fill` and `readFails` data, a close or a timeout of the peer, `cancel` the shutdown -/
inductive Act where
  | reader (nodeNum now : UInt32)
  | take
  | stop
  | write (ok : Bool)
  | writer
  | waiter
  | caller (i : ℕ)
  | closeConn
  | lock
  | unregister
  | send (holdsMu : Bool) (f : Bytes)
  | close
  | fill (bs : Bytes)
  | readFails
  | cancel
deriving DecidableEq, Repr

/-- the steps that need no event from outside -/
def Act.internal : Act → Bool
  | .send _ _ | .close | .fill _ | .readFails | .cancel => false
  | _ => true

/-- the size of the readLoop's bufio.Reader -/
def readerSize : ℕ := 4096

variable (e : Env)

/-- the handler's switch over the message type -/
def onMessage (f : Bytes) (s : St) : St :=
  match e.pb.unmarshalToRadio f with
  | some ⟨.wantConfigId nonce, _⟩ => { s with reader := .check, effects := s.effects ++ [.replayed nonce] }
  | some ⟨.disconnect _, _⟩ => { s with reader := .closing }
  | _ => { s with reader := .echo f }

namespace St

/-- somebody has called Close and waits for its body -/
def inClose (s : St) : Bool := s.reader = .closing ∨ s.waiter = .closing ∨ s.callers.any fun c => c.pc = .close

/-- the next step of the readLoop; in ReadFrame, at a pending request for p.mu and in Close it may have to wait -/
def stepReader (nodeNum now : UInt32) (s : St) : St :=
  match s.reader with
  | .check => { s with reader := if s.ctxDone then .returned else .reading }
  | .reading =>
    match readFrame s.buf with
    | (.ok f, rest) => { s with reader := .received f, buf := rest }
    | (.error _, _) => if s.closed then { s with reader := .returned } else s
  | .received f => onMessage e f s
  | .echo f =>
    match echoFrame e.pb nodeNum now f with
    | none => { s with reader := .cache f }
    | some g => if s.once = .locking then s else { s with reader := .cache f, effects := s.effects ++ [.echoed g] }
  | .cache f =>
    match toRadioToFromRadio e.pb nodeNum now f with
    | none => { s with reader := .forward f }
    | some g =>
      if isTextMessageFrame e.pb g then { s with reader := .forward f, effects := s.effects ++ [.cached g] }
      else { s with reader := .forward f }
  | .forward f => { s with reader := .check, effects := s.effects ++ [.forwarded f] }
  | .closing => if s.once = .done then { s with reader := .disconnected } else s
  | .disconnected => { s with reader := .check }
  | .returned => { s with reader := .done, ctxDone := true }
  | .done => s

/-- the writeLoop receives a frame -/
def take (s : St) : St :=
  match s.writer, s.chan with
  | .select, f :: rest => { s with writer := .writing f, chan := rest }
  | _, _ => s

/-- the writeLoop sees that the context is cancelled -/
def stop (s : St) : St :=
  if s.writer = .select ∧ s.ctxDone = true then { s with writer := .returned false } else s

/-- WriteFrame; a Write fails on a closed connection, and may fail on any -/
def write (ok : Bool) (s : St) : St :=
  match s.writer with
  | .writing f =>
    match (writeFrame ⟨[], s.closed || !ok⟩ f).1 with
    | .ok _ => { s with writer := .select }
    | .error _ => { s with writer := .returned true }
  | _ => s

/-- the writeLoop's goroutine cancels and is done -/
def stepWriter (s : St) : St :=
  match s.writer with
  | .returned failed => { s with writer := .done failed, ctxDone := true }
  | _ => s

def bothDone (s : St) : Bool :=
  match s.reader, s.writer with
  | .done, .done _ => true
  | _, _ => false

def stepWaiter (s : St) : St :=
  match s.waiter with
  | .waiting => if s.bothDone then { s with waiter := .closing } else s
  | .closing => if s.once = .done then { s with waiter := .done } else s
  | .done => s

/-- a Send puts its frame into the channel, or calls Close; a Close returns when its body has been run -/
def stepCaller (i : ℕ) (s : St) : St :=
  match s.callers[i]? with
  | none => s
  | some ⟨holdsMu, .send f⟩ =>
    if s.chan.length < e.clientSendBuffer then { s with chan := s.chan ++ [f], callers := s.callers.eraseIdx i }
    else { s with callers := s.callers.set i ⟨holdsMu, .close⟩ }
  | some ⟨_, .close⟩ => if s.once = .done then { s with callers := s.callers.eraseIdx i } else s

/-- the body of Close begins, and closes the connection -/
def closeConn (s : St) : St :=
  if s.once = .fresh ∧ s.inClose = true then { s with once := .running, closed := true } else s

def lock (s : St) : St := if s.once = .running then { s with once := .locking } else s

/-- p.mu is granted when nobody holds it for reading -/
def unregister (s : St) : St :=
  if s.once = .locking ∧ s.callers.all (fun c => !c.holdsMu) then { s with once := .done, registered := false } else s

/-- a broadcast or an echo reaches registered clients only, and gets p.mu only while no request for writing is pending -/
def call (c : Caller) (s : St) : St :=
  if c.holdsMu = true ∧ (s.registered = false ∨ s.once = .locking) then s else { s with callers := s.callers ++ [c] }

/-- ReadFrame waits for bytes from the connection -/
def awaitsData (s : St) : Bool :=
  match s.reader, readFrame s.buf with
  | .reading, (.error _, _) => true
  | _, _ => false

def fill (bs : Bytes) (s : St) : St :=
  if s.awaitsData = true ∧ s.closed = false ∧ bs.length ≤ readerSize then { s with buf := s.buf ++ bs } else s

def readFails (s : St) : St := if s.awaitsData then { s with reader := .returned } else s

end St

def step (s : St) : Act → St
  | .reader nodeNum now => s.stepReader e nodeNum now
  | .take => s.take
  | .stop => s.stop
  | .write ok => s.write ok
  | .writer => s.stepWriter
  | .waiter => s.stepWaiter
  | .caller i => s.stepCaller e i
  | .closeConn => s.closeConn
  | .lock => s.lock
  | .unregister => s.unregister
  | .send holdsMu f => s.call ⟨holdsMu, .send f⟩
  | .close => s.call ⟨false, .close⟩
  | .fill bs => s.fill bs
  | .readFails => s.readFails
  | .cancel => { s with ctxDone := true }

/-- no party can go on without an event from outside -/
def Quiescent (s : St) : Prop := ∀ a : Act, a.internal = true → step e s a = s

/-- the writeLoop has returned because WriteFrame failed -/
def Failed (s : St) : Prop := s.writer = .returned true ∨ s.writer = .done true

/-- a broadcast or an echo is inside Close, with p.mu held -/
def HolderInClose (s : St) : Prop := ∃ c ∈ s.callers, c.holdsMu = true ∧ c.pc = .close

/-! ## The invariant -/

/-- what the body of Close has done, and who can only stand where they do after it -/
structure Inv (s : St) : Prop where
  closed : s.closed = true ↔ s.once ≠ .fresh
  registered : s.registered = false ↔ s.once = .done
  waiter : s.waiter = .done → s.once = .done
  disconnected : s.reader = .disconnected → s.once = .done
  ctx : ∀ failed, s.writer = .done failed → s.ctxDone = true

variable {e} {s : St}

theorem inv_init : Inv init := by
  constructor <;> simp [init]

/-- a step of the readLoop keeps everybody else's places -/
theorem Inv.setReader (h : Inv s) {r : Reader} (hr : r = .disconnected → s.once = .done) (buf : Bytes)
    (effects : List Effect) : Inv { s with reader := r, buf := buf, effects := effects } :=
  ⟨h.closed, h.registered, h.waiter, hr, h.ctx⟩

theorem stepReader_inv (h : Inv s) (nodeNum now : UInt32) : Inv (s.stepReader e nodeNum now) := by
  unfold St.stepReader
  split
  · split_ifs <;> exact h.setReader (by simp) _ _
  · split
    · exact h.setReader (by simp) _ _
    · split_ifs
      · exact h.setReader (by simp) _ _
      · exact h
  · unfold onMessage
    split <;> exact h.setReader (by simp) _ _
  · split
    · exact h.setReader (by simp) _ _
    · split_ifs
      · exact h
      · exact h.setReader (by simp) _ _
  · split
    · exact h.setReader (by simp) _ _
    · split_ifs <;> exact h.setReader (by simp) _ _
  · exact h.setReader (by simp) _ _
  · split_ifs with hdone
    · exact h.setReader (fun _ => hdone) _ _
    · exact h
  · exact h.setReader (by simp) _ _
  · exact ⟨h.closed, h.registered, h.waiter, nofun, fun _ _ => rfl⟩
  · exact h

theorem stepCaller_inv (h : Inv s) (i : ℕ) : Inv (s.stepCaller e i) := by
  unfold St.stepCaller
  split
  · exact h
  · split_ifs <;> exact ⟨h.closed, h.registered, h.waiter, h.disconnected, h.ctx⟩
  · split_ifs
    · exact ⟨h.closed, h.registered, h.waiter, h.disconnected, h.ctx⟩
    · exact h

theorem call_inv (h : Inv s) (c : Caller) : Inv (s.call c) := by
  unfold St.call
  split_ifs
  · exact h
  · exact ⟨h.closed, h.registered, h.waiter, h.disconnected, h.ctx⟩

/-- the body of Close goes on, not yet to its end -/
theorem Inv.setOnce (h : Inv s) (hdone : s.once ≠ .done) {o : Once} (ho : o ≠ .fresh) (ho' : o ≠ .done) :
    Inv { s with once := o, closed := true } :=
  ⟨iff_of_true rfl ho, iff_of_false (fun hr => hdone (h.registered.1 hr)) ho', fun hw => absurd (h.waiter hw) hdone,
    fun hr => absurd (h.disconnected hr) hdone, h.ctx⟩

theorem step_inv (h : Inv s) (a : Act) : Inv (step e s a) := by
  cases a with
  | reader nodeNum now => exact stepReader_inv h nodeNum now
  | take =>
    simp only [step, St.take]
    split
    · exact ⟨h.closed, h.registered, h.waiter, h.disconnected, nofun⟩
    · exact h
  | stop =>
    simp only [step, St.stop]
    split_ifs
    · exact ⟨h.closed, h.registered, h.waiter, h.disconnected, nofun⟩
    · exact h
  | write ok =>
    simp only [step, St.write]
    split
    · split <;> exact ⟨h.closed, h.registered, h.waiter, h.disconnected, nofun⟩
    · exact h
  | writer =>
    simp only [step, St.stepWriter]
    split
    · exact ⟨h.closed, h.registered, h.waiter, h.disconnected, fun _ _ => rfl⟩
    · exact h
  | waiter =>
    simp only [step, St.stepWaiter]
    split
    · split_ifs
      · exact ⟨h.closed, h.registered, nofun, h.disconnected, h.ctx⟩
      · exact h
    · split_ifs with hdone
      · exact ⟨h.closed, h.registered, fun _ => hdone, h.disconnected, h.ctx⟩
      · exact h
    · exact h
  | caller i => exact stepCaller_inv h i
  | closeConn =>
    simp only [step, St.closeConn]
    split_ifs with hc
    · exact h.setOnce (by simp [hc.1]) (by simp) (by simp)
    · exact h
  | lock =>
    simp only [step, St.lock]
    split_ifs with hrun
    · have hclosed := h.closed.2 (by simp [hrun])
      have hnext := h.setOnce (o := .locking) (by simp [hrun]) (by simp) (by simp)
      rwa [← hclosed] at hnext
    · exact h
  | unregister =>
    simp only [step, St.unregister]
    split_ifs with hlock
    · have hclosed := h.closed.2 (by simp [hlock.1])
      exact ⟨iff_of_true hclosed nofun, iff_of_true rfl rfl, fun _ => rfl, fun _ => rfl, h.ctx⟩
    · exact h
  | send holdsMu f => exact call_inv h _
  | close => exact call_inv h _
  | fill bs =>
    simp only [step, St.fill]
    split_ifs
    · exact h.setReader h.disconnected _ _
    · exact h
  | readFails =>
    simp only [step, St.readFails]
    split_ifs
    · exact h.setReader (by simp) _ _
    · exact h
  | cancel => exact ⟨h.closed, h.registered, h.waiter, h.disconnected, fun _ _ => rfl⟩

theorem reachable_inv (as : List Act) : Inv (run (step e) init as) :=
  run_inv_all (I := Inv) (fun _ a h => step_inv h a) as inv_init

/-! ## Quiescent states -/

/-- whoever is still inside a call waits in Close -/
theorem Quiescent.callers (h : Quiescent e s) : ∀ c ∈ s.callers, c.pc = .close ∧ s.once ≠ .done := by
  intro c hc
  obtain ⟨i, hi⟩ := List.mem_iff_getElem?.1 hc
  obtain ⟨hlt, -⟩ := List.getElem?_eq_some_iff.1 hi
  have hstep := h (.caller i) rfl
  have herase : s.callers.eraseIdx i ≠ s.callers := by
    intro heq
    have hlen := congrArg List.length heq
    rw [List.length_eraseIdx_of_lt hlt] at hlen
    omega
  obtain ⟨holdsMu, pc⟩ := c
  cases pc with
  | send f =>
    simp only [step, St.stepCaller, hi] at hstep
    split_ifs at hstep
    · exact absurd (congrArg St.callers hstep) herase
    · have hset : s.callers.set i ⟨holdsMu, .close⟩ = s.callers := congrArg St.callers hstep
      have hget := congrArg (fun l => l[i]?) hset
      rw [List.getElem?_set_self hlt, hi] at hget
      cases hget
  | close =>
    simp only [step, St.stepCaller, hi] at hstep
    split_ifs at hstep with hdone
    · exact absurd (congrArg St.callers hstep) herase
    · exact ⟨rfl, hdone⟩

/-- p.mu is not granted only because of a holder that is itself inside Close -/
theorem Quiescent.holder (h : Quiescent e s) (hlock : s.once = .locking) : HolderInClose s := by
  have hstep := h .unregister rfl
  simp only [step, St.unregister] at hstep
  split_ifs at hstep with hfree
  · have honce : Once.done = s.once := congrArg St.once hstep
    rw [hlock] at honce
    cases honce
  · have hsome : ¬ s.callers.all (fun c => !c.holdsMu) = true := fun hall => hfree ⟨hlock, hall⟩
    obtain ⟨c, hc, hmu⟩ : ∃ c ∈ s.callers, c.holdsMu = true := by simpa using hsome
    exact ⟨c, hc, hmu, (h.callers c hc).1⟩

/-- a call of Close is stuck only so -/
theorem Quiescent.close (h : Quiescent e s) (hin : s.inClose = true) : s.once = .done ∨ HolderInClose s := by
  cases honce : s.once with
  | fresh =>
    have hstep := h .closeConn rfl
    simp only [step, St.closeConn] at hstep
    rw [if_pos ⟨honce, hin⟩] at hstep
    have honce' : Once.running = s.once := congrArg St.once hstep
    rw [honce] at honce'
    cases honce'
  | running =>
    have hstep := h .lock rfl
    simp only [step, St.lock] at hstep
    rw [if_pos honce] at hstep
    have honce' : Once.locking = s.once := congrArg St.once hstep
    rw [honce] at honce'
    cases honce'
  | locking => exact Or.inr (h.holder honce)
  | done => exact Or.inl rfl

/-- with its context cancelled the readLoop is over, or it waits for the peer, for p.mu or in Close -/
theorem Quiescent.reader (h : Quiescent e s) (hctx : s.ctxDone = true) :
    (s.reader = .reading ∧ s.closed = false) ∨ (∃ f, s.reader = .echo f ∧ s.once = .locking) ∨
      (s.reader = .closing ∧ s.once ≠ .done) ∨ s.reader = .done := by
  have hstep := congrArg St.reader (h (.reader 0 0) rfl)
  simp only [step, St.stepReader] at hstep
  cases hr : s.reader with
  | check =>
    simp only [hr, hctx, if_true] at hstep
    cases hstep
  | reading =>
    refine Or.inl ⟨rfl, ?_⟩
    simp only [hr] at hstep
    split at hstep
    · cases hstep
    · cases hcl : s.closed with
      | false => rfl
      | true =>
        rw [hcl, if_pos rfl] at hstep
        cases hstep
  | received f =>
    simp only [hr, onMessage] at hstep
    split at hstep <;> cases hstep
  | echo f =>
    simp only [hr] at hstep
    split at hstep
    · cases hstep
    · split_ifs at hstep with hlock
      · exact Or.inr (Or.inl ⟨f, rfl, hlock⟩)
  | cache f =>
    simp only [hr] at hstep
    split at hstep
    · cases hstep
    · split_ifs at hstep
  | forward f =>
    simp only [hr] at hstep
    cases hstep
  | closing =>
    simp only [hr] at hstep
    split_ifs at hstep with hdone
    exact Or.inr (Or.inr (Or.inl ⟨rfl, hdone⟩))
  | disconnected =>
    simp only [hr] at hstep
    cases hstep
  | returned =>
    simp only [hr] at hstep
    cases hstep
  | done => exact Or.inr (Or.inr (Or.inr rfl))

/-- when both loops are over, Wait closes the client -/
theorem Quiescent.waited (h : Quiescent e s) (hinv : Inv s) {failed : Bool} (hr : s.reader = .done)
    (hw : s.writer = .done failed) : s.once = .done ∨ HolderInClose s := by
  have hstep := h .waiter rfl
  cases hwait : s.waiter with
  | waiting =>
    have hboth : s.bothDone = true := by simp [St.bothDone, hr, hw]
    simp only [step, St.stepWaiter, hwait, hboth, if_true] at hstep
    have hwait' : Waiter.closing = s.waiter := congrArg St.waiter hstep
    rw [hwait] at hwait'
    cases hwait'
  | closing => exact h.close (by simp [St.inClose, hwait])
  | done => exact Or.inl (hinv.waiter hwait)

theorem Quiescent.writer (h : Quiescent e s) (hfailed : Failed s) : s.writer = .done true := by
  rcases hfailed with hw | hw
  · have hstep := congrArg St.writer (h .writer rfl)
    simp only [step, St.stepWriter, hw] at hstep
    cases hstep
  · exact hw

variable (e)

/-- **A dead writer and its client.** In every reachable state in which the writeLoop has returned because WriteFrame
failed and no party can go on without an event from outside, the connection is closed and the client deleted from
p.clients exactly if the readLoop is not inside ReadFrame and no broadcast or echo is inside Close with p.mu held. -/
theorem dead_writer_closes_iff (as : List Act) (hfailed : Failed (run (step e) init as))
    (hquiet : Quiescent e (run (step e) init as)) :
    ((run (step e) init as).closed = true ∧ (run (step e) init as).registered = false) ↔
      ((run (step e) init as).reader ≠ .reading ∧ ¬HolderInClose (run (step e) init as)) := by
  have hinv := reachable_inv (e := e) as
  generalize run (step e) init as = s at hfailed hquiet hinv
  have hw := hquiet.writer hfailed
  constructor
  · rintro ⟨hclosed, hreg⟩
    have honce := hinv.registered.1 hreg
    refine ⟨?_, ?_⟩
    · intro hr
      rcases hquiet.reader (hinv.ctx true hw) with h | ⟨f, h, -⟩ | ⟨h, -⟩ | h
      · rw [hclosed] at h
        cases h.2
      all_goals
        rw [hr] at h
        cases h
    · rintro ⟨c, hc, -⟩
      exact (hquiet.callers c hc).2 honce
  · rintro ⟨hr, hholder⟩
    have honce : s.once = .done := by
      rcases hquiet.reader (hinv.ctx true hw) with h | ⟨f, -, hlock⟩ | ⟨h, -⟩ | h
      · exact absurd h.1 hr
      · exact absurd (hquiet.holder hlock) hholder
      · exact (hquiet.close (by simp [St.inClose, h])).resolve_right hholder
      · exact (hquiet.waited hinv h hw).resolve_right hholder
    exact ⟨hinv.closed.2 (by simp [honce]), hinv.registered.2 honce⟩

/-! ### A payload that is too long -/

/-- an echo longer than a frame may be -/
def longPayload : Bytes := List.replicate 600 0

def noMessages : Env := ⟨tableCodec [] [] [], 4⟩

/-- the writeLoop is sent the long payload, and fails -/
def writerFails : List Act := [.send true longPayload, .caller 0, .take, .write true, .writer]

/-- the readLoop comes to its check afterwards, returns, and Wait closes the client -/
def readerSees : List Act :=
  writerFails ++ [.reader 0 0, .reader 0 0, .waiter, .closeConn, .lock, .unregister, .waiter]

theorem run_readerSees : run (step noMessages) init readerSees =
    ⟨.done, .done true, .done, [], [], [], true, true, .done, false, []⟩ := by decide +kernel

theorem dead_writer_closes_at_check :
    (run (step noMessages) init readerSees).closed = true ∧
      (run (step noMessages) init readerSees).registered = false := by
  refine (dead_writer_closes_iff noMessages readerSees ?_ ?_).2 ⟨?_, ?_⟩
  all_goals rw [run_readerSees]
  · exact Or.inr rfl
  · intro a ha
    cases a <;> first | rfl | cases ha
  · nofun
  · rintro ⟨c, hc, -⟩
    cases hc

/-- the readLoop is inside ReadFrame when the writeLoop fails: nobody closes the client, and it stays registered -/
theorem dead_writer_keeps_client :
    let s := run (step noMessages) init (.reader 0 0 :: writerFails)
    Failed s ∧ Quiescent noMessages s ∧ s.closed = false ∧ s.registered = true := by
  have hrun : run (step noMessages) init (.reader 0 0 :: writerFails) =
      ⟨.reading, .done true, .waiting, [], [], [], true, false, .fresh, true, []⟩ := by decide +kernel
  rw [hrun]
  refine ⟨Or.inr rfl, ?_, rfl, rfl⟩
  intro a ha
  cases a with
  | reader nodeNum now => simp [step, St.stepReader, readFrame]
  | _ => first | rfl | cases ha

/-! ## After a Disconnect -/

/-- a ToRadio Disconnect -/
def isDisconnect (pb : Codec) (f : Bytes) : Bool :=
  match pb.unmarshalToRadio f with
  | some ⟨.disconnect _, _⟩ => true
  | _ => false

variable {e}

theorem onMessage_disconnect {f : Bytes} (h : isDisconnect e.pb f = true) :
    onMessage e f s = { s with reader := .closing } := by
  unfold isDisconnect at h
  unfold onMessage
  split at h
  · rename_i hu
    rw [hu]
  · cases h

/-- any other frame has an effect at once, or goes to the node in the end -/
theorem onMessage_other {f : Bytes} (h : isDisconnect e.pb f = false) :
    (∃ nonce, onMessage e f s = { s with reader := .check, effects := s.effects ++ [.replayed nonce] }) ∨
      onMessage e f s = { s with reader := .echo f } := by
  unfold isDisconnect at h
  unfold onMessage
  split
  · exact Or.inl ⟨_, rfl⟩
  · rename_i hu
    rw [hu] at h
    cases h
  · exact Or.inr rfl

/-- what a step leaves alone: the connection stays closed, the buffer and the log as they are, the context cancelled -/
structure Untouched (s s' : St) : Prop where
  closed : s'.closed = true
  buf : s'.buf = s.buf
  effects : s'.effects = s.effects
  ctx : s.ctxDone = true → s'.ctxDone = true
  reader : s'.reader = s.reader ∨ s'.reader = .returned

/-- the steps of everybody but the readLoop, once the connection is closed -/
theorem step_untouched {a : Act} (hclosed : s.closed = true) (ha : ∀ nodeNum now, a ≠ .reader nodeNum now) :
    Untouched s (step e s a) := by
  cases a with
  | reader nodeNum now => exact absurd rfl (ha nodeNum now)
  | take =>
    simp only [step, St.take]
    split <;> exact ⟨hclosed, rfl, rfl, id, Or.inl rfl⟩
  | stop =>
    simp only [step, St.stop]
    split_ifs <;> exact ⟨hclosed, rfl, rfl, id, Or.inl rfl⟩
  | write ok =>
    simp only [step, St.write]
    split
    · split <;> exact ⟨hclosed, rfl, rfl, id, Or.inl rfl⟩
    · exact ⟨hclosed, rfl, rfl, id, Or.inl rfl⟩
  | writer =>
    simp only [step, St.stepWriter]
    split
    · exact ⟨hclosed, rfl, rfl, fun _ => rfl, Or.inl rfl⟩
    · exact ⟨hclosed, rfl, rfl, id, Or.inl rfl⟩
  | waiter =>
    simp only [step, St.stepWaiter]
    split
    · split_ifs <;> exact ⟨hclosed, rfl, rfl, id, Or.inl rfl⟩
    · split_ifs <;> exact ⟨hclosed, rfl, rfl, id, Or.inl rfl⟩
    · exact ⟨hclosed, rfl, rfl, id, Or.inl rfl⟩
  | caller i =>
    simp only [step, St.stepCaller]
    split
    · exact ⟨hclosed, rfl, rfl, id, Or.inl rfl⟩
    · split_ifs <;> exact ⟨hclosed, rfl, rfl, id, Or.inl rfl⟩
    · split_ifs <;> exact ⟨hclosed, rfl, rfl, id, Or.inl rfl⟩
  | closeConn =>
    simp only [step, St.closeConn]
    split_ifs
    · exact ⟨rfl, rfl, rfl, id, Or.inl rfl⟩
    · exact ⟨hclosed, rfl, rfl, id, Or.inl rfl⟩
  | lock =>
    simp only [step, St.lock]
    split_ifs <;> exact ⟨hclosed, rfl, rfl, id, Or.inl rfl⟩
  | unregister =>
    simp only [step, St.unregister]
    split_ifs <;> exact ⟨hclosed, rfl, rfl, id, Or.inl rfl⟩
  | send holdsMu f =>
    simp only [step, St.call]
    split_ifs <;> exact ⟨hclosed, rfl, rfl, id, Or.inl rfl⟩
  | close =>
    simp only [step, St.call]
    split_ifs <;> exact ⟨hclosed, rfl, rfl, id, Or.inl rfl⟩
  | fill bs =>
    have hno : s.fill bs = s := by simp [St.fill, hclosed]
    rw [step, hno]
    exact ⟨hclosed, rfl, rfl, id, Or.inl rfl⟩
  | readFails =>
    simp only [step, St.readFails]
    split_ifs
    · exact ⟨hclosed, rfl, rfl, id, Or.inr rfl⟩
    · exact ⟨hclosed, rfl, rfl, id, Or.inl rfl⟩
  | cancel => exact ⟨hclosed, rfl, rfl, fun _ => rfl, Or.inl rfl⟩

/-- nothing is left to do for the client: its readLoop will see the cancelled context, or has no whole frame left but
Disconnects -/
def Over (pb : Codec) (s : St) : Prop :=
  (s.ctxDone = true ∧
    (s.reader = .disconnected ∨ s.reader = .check ∨ s.reader = .returned ∨ s.reader = .done)) ∨
  ((∀ f ∈ (readAll s.buf).1, isDisconnect pb f = true) ∧
    match s.reader with
    | .received f => isDisconnect pb f = true
    | .echo _ | .cache _ | .forward _ => False
    | _ => True)

theorem Over.reader (h : Over e.pb s) (hclosed : s.closed = true) (nodeNum now : UInt32) :
    Over e.pb (s.stepReader e nodeNum now) ∧ (s.stepReader e nodeNum now).closed = true ∧
      (s.stepReader e nodeNum now).effects = s.effects := by
  unfold St.stepReader
  rcases h with ⟨hctx, hr | hr | hr | hr⟩ | ⟨hall, hr⟩
  · rw [hr]
    exact ⟨Or.inl ⟨hctx, by simp⟩, hclosed, rfl⟩
  · rw [hr]
    exact ⟨Or.inl ⟨hctx, by simp [hctx]⟩, hclosed, rfl⟩
  · rw [hr]
    exact ⟨Or.inl ⟨rfl, by simp⟩, hclosed, rfl⟩
  · rw [hr]
    exact ⟨Or.inl ⟨hctx, by simp [hr]⟩, hclosed, rfl⟩
  · split at hr
    · rename_i f hrecv
      rw [hrecv]
      change Over e.pb (onMessage e f s) ∧ (onMessage e f s).closed = true ∧ (onMessage e f s).effects = s.effects
      rw [onMessage_disconnect hr]
      exact ⟨Or.inr ⟨hall, trivial⟩, hclosed, rfl⟩
    · exact hr.elim
    · exact hr.elim
    · exact hr.elim
    · cases hrd : s.reader with
      | check =>
        refine ⟨Or.inr ⟨hall, ?_⟩, hclosed, rfl⟩
        cases s.ctxDone <;> trivial
      | reading =>
        simp only
        split
        · rename_i f rest hframe
          rw [readAll_ok hframe] at hall
          refine ⟨Or.inr ⟨fun g hg => hall g (List.mem_cons_of_mem f hg), hall f List.mem_cons_self⟩, hclosed, rfl⟩
        · rw [if_pos hclosed]
          exact ⟨Or.inr ⟨hall, trivial⟩, hclosed, rfl⟩
      | closing =>
        simp only
        split_ifs
        · exact ⟨Or.inr ⟨hall, trivial⟩, hclosed, rfl⟩
        · exact ⟨Or.inr ⟨hall, by rw [hrd]; trivial⟩, hclosed, rfl⟩
      | disconnected => exact ⟨Or.inr ⟨hall, trivial⟩, hclosed, rfl⟩
      | returned => exact ⟨Or.inr ⟨hall, trivial⟩, hclosed, rfl⟩
      | done => exact ⟨Or.inr ⟨hall, by rw [hrd]; trivial⟩, hclosed, rfl⟩
      | received f => simp_all
      | echo f => simp_all
      | cache f => simp_all
      | forward f => simp_all

theorem Over.others {a : Act} (h : Over e.pb s) (hclosed : s.closed = true) (ha : ∀ nodeNum now, a ≠ .reader nodeNum now) :
    Over e.pb (step e s a) := by
  have hstep := step_untouched (e := e) hclosed ha
  rcases h with ⟨hdone, hpos⟩ | ⟨hall, hpos⟩
  · refine Or.inl ⟨hstep.ctx hdone, ?_⟩
    rcases hstep.reader with hr | hr <;> rw [hr]
    · exact hpos
    · simp
  · refine Or.inr ⟨hstep.buf ▸ hall, ?_⟩
    rcases hstep.reader with hr | hr <;> rw [hr]
    · exact hpos
    · trivial

/-- once nothing is left to do, nothing is done -/
theorem Over.run (h : Over e.pb s) (hclosed : s.closed = true) (bs : List Act) :
    (Trace.run (step e) s bs).effects = s.effects := by
  have hstep : ∀ t a, Over e.pb t ∧ t.closed = true ∧ t.effects = s.effects →
      Over e.pb (step e t a) ∧ (step e t a).closed = true ∧ (step e t a).effects = s.effects := by
    rintro t a ⟨hover, hcl, heff⟩
    by_cases ha : ∃ nodeNum now, a = .reader nodeNum now
    · obtain ⟨nodeNum, now, rfl⟩ := ha
      obtain ⟨h1, h2, h3⟩ := hover.reader hcl nodeNum now
      exact ⟨h1, h2, h3.trans heff⟩
    · push Not at ha
      have hkept := step_untouched (e := e) hcl ha
      exact ⟨hover.others hcl ha, hkept.closed, hkept.effects.trans heff⟩
  have hinv := run_inv_all (I := fun t => Over e.pb t ∧ t.closed = true ∧ t.effects = s.effects) hstep bs
    ⟨h, hclosed, rfl⟩
  exact hinv.2.2

/-- a frame that is no Disconnect has an effect within four steps -/
theorem handled {f : Bytes} (hr : s.reader = .received f) (honce : s.once = .done) (hf : isDisconnect e.pb f = false) :
    ∃ bs, (Trace.run (step e) s bs).effects ≠ s.effects := by
  rcases onMessage_other (s := s) hf with ⟨nonce, hmsg⟩ | hmsg
  · refine ⟨[.reader 0 0], ?_⟩
    simp [step, St.stepReader, hr, hmsg]
  · refine ⟨List.replicate 4 (.reader 0 0), ?_⟩
    have hrecv : step e s (.reader 0 0) = { s with reader := .echo f } := by
      simp only [step, St.stepReader, hr, hmsg]
    obtain ⟨es, hecho⟩ : ∃ es, step e { s with reader := .echo f } (.reader 0 0) =
        { s with reader := .cache f, effects := s.effects ++ es } := by
      cases hg : echoFrame e.pb 0 0 f with
      | none => exact ⟨[], by simp [step, St.stepReader, hg]⟩
      | some g => exact ⟨[.echoed g], by simp [step, St.stepReader, hg, honce]⟩
    obtain ⟨es', hcache⟩ : ∃ es', step e { s with reader := .cache f, effects := s.effects ++ es } (.reader 0 0) =
        { s with reader := .forward f, effects := s.effects ++ es ++ es' } := by
      cases hg : toRadioToFromRadio e.pb 0 0 f with
      | none => exact ⟨[], by simp [step, St.stepReader, hg]⟩
      | some g =>
        by_cases htext : isTextMessageFrame e.pb g = true
        · exact ⟨[.cached g], by simp [step, St.stepReader, hg, htext]⟩
        · exact ⟨[], by simp [step, St.stepReader, hg, htext]⟩
    simp only [List.replicate, run_cons, run_nil, hrecv, hecho, hcache]
    simp [step, St.stepReader]

/-- a whole frame that is left in the buffer is handled, if the context is not cancelled meanwhile -/
theorem buffered_handled (n : ℕ) (hn : s.buf.length ≤ n) (hr : s.reader = .check) (honce : s.once = .done)
    (hctx : s.ctxDone = false) {f : Bytes} (hmem : f ∈ (readAll s.buf).1) (hf : isDisconnect e.pb f = false) :
    ∃ bs, (Trace.run (step e) s bs).effects ≠ s.effects := by
  -- on the length of the buffer: the Disconnects before the frame are read one after the other
  induction n generalizing s with
  | zero =>
    have hnil : s.buf = [] := List.eq_nil_of_length_eq_zero (Nat.le_zero.1 hn)
    rw [hnil, Frame.readAll_nil] at hmem
    cases hmem
  | succ n ih =>
    have hcheck : step e s (.reader 0 0) = { s with reader := .reading } := by
      simp only [step, St.stepReader, hr, hctx, Bool.false_eq_true, if_false]
    cases hframe : readFrame s.buf with
    | mk res rest =>
      cases res with
      | error err =>
        have hnone : (readAll s.buf).1 = [] := by
          rw [readAll]
          split
          · rfl
          · rename_i hok
            rw [hframe] at hok
            cases hok
        rw [hnone] at hmem
        cases hmem
      | ok p =>
        have hread : step e { s with reader := .reading } (.reader 0 0) =
            { s with reader := .received p, buf := rest } := by
          simp only [step, St.stepReader, hframe]
        have hlt := readFrame_rest_lt hframe
        rw [readAll_ok hframe] at hmem
        cases hp : isDisconnect e.pb p with
        | false =>
          obtain ⟨bs, hbs⟩ := handled (e := e) (s := { s with reader := .received p, buf := rest }) rfl honce hp
          refine ⟨.reader 0 0 :: .reader 0 0 :: bs, ?_⟩
          rw [run_cons, run_cons, hcheck, hread]
          exact hbs
        | true =>
          have hrest : f ∈ (readAll rest).1 := by
            rcases List.mem_cons.1 hmem with rfl | hmem
            · rw [hf] at hp
              cases hp
            · exact hmem
          have hclose : step e { s with reader := .received p, buf := rest } (.reader 0 0) =
              { s with reader := .closing, buf := rest } := by
            simp only [step, St.stepReader, onMessage_disconnect hp]
          have hdone : step e { s with reader := .closing, buf := rest } (.reader 0 0) =
              { s with reader := .disconnected, buf := rest } := by
            simp only [step, St.stepReader, honce, if_true]
          have hback : step e { s with reader := .disconnected, buf := rest } (.reader 0 0) =
              { s with reader := .check, buf := rest } := by
            simp only [step, St.stepReader]
          obtain ⟨bs, hbs⟩ := ih (s := { s with reader := .check, buf := rest }) (by simp only; omega) rfl honce hctx hrest
          refine ⟨List.replicate 5 (.reader 0 0) ++ bs, ?_⟩
          simp only [List.replicate, List.cons_append, List.nil_append, run_cons, hcheck, hread, hclose, hdone, hback]
          exact hbs

variable (e)

/-- **After a Disconnect.** In every reachable state in which the onMessage handler has processed a Disconnect (its Close
has returned), no continuation does anything more for the client (no replay, no echo, no cache entry, no Send to the
node) exactly if the client's context is cancelled by then, or every whole frame left in the readLoop's buffer is a
Disconnect too. -/
theorem nothing_after_disconnect_iff (as : List Act) (h : (run (step e) init as).reader = .disconnected) :
    (∀ bs, (run (step e) init (as ++ bs)).effects = (run (step e) init as).effects) ↔
      ((run (step e) init as).ctxDone = true ∨
        ∀ f ∈ (readAll (run (step e) init as).buf).1, isDisconnect e.pb f = true) := by
  have hinv := reachable_inv (e := e) as
  simp only [run_append]
  generalize run (step e) init as = s at h hinv
  have honce := hinv.disconnected h
  have hclosed := hinv.closed.2 (by simp [honce])
  constructor
  · intro hsilent
    by_contra hno
    push Not at hno
    obtain ⟨hctx, f, hmem, hf⟩ := hno
    have hback : step e s (.reader 0 0) = { s with reader := .check } := by simp only [step, St.stepReader, h]
    obtain ⟨bs, hbs⟩ := buffered_handled (e := e) (s := { s with reader := .check }) s.buf.length le_rfl rfl honce
      (by simpa using hctx) hmem (by simpa using hf)
    have hrun := hsilent (.reader 0 0 :: bs)
    rw [run_cons, hback] at hrun
    exact hbs hrun
  · rintro (hctx | hall) bs
    · exact Over.run (Or.inl ⟨hctx, Or.inl h⟩) hclosed bs
    · exact Over.run (Or.inr ⟨hall, by rw [h]; trivial⟩) hclosed bs

/-! ### A Disconnect in one segment with another frame -/

def disconnectFrame : Bytes := [0x20, 1]

def textEnv : Env :=
  ⟨tableCodec [(textFromRadio, { variant := .packet { textPacket with from_ := 9, rxTime := 100 } })]
    [(disconnectFrame, { variant := .disconnect true }), (textToRadio, { variant := .packet textPacket })] [], 4⟩

/-- the readLoop reads a segment whose first frame is a Disconnect, and processes that -/
def disconnects (segment : Bytes) : List Act :=
  [.reader 9 100, .fill segment, .reader 9 100, .reader 9 100, .closeConn, .lock, .unregister, .reader 9 100]

/-- the Disconnect, and the start of another frame -/
def loneDisconnect : Bytes := Frame.frameOf disconnectFrame ++ [0x94, 0xC3]

/-- with nothing behind the Disconnect but the start of a frame, nothing happens any more -/
theorem nothing_after_lone_disconnect :
    (run (step textEnv) init (disconnects loneDisconnect)).ctxDone = false ∧
      ∀ bs, (run (step textEnv) init (disconnects loneDisconnect ++ bs)).effects = [] := by
  have hquiet := nothing_after_disconnect_iff textEnv (disconnects loneDisconnect) (by decide +kernel)
  have hnone : (run (step textEnv) init (disconnects loneDisconnect)).effects = [] := by decide +kernel
  have hbuf : (readAll (run (step textEnv) init (disconnects loneDisconnect)).buf).1 = [] := by decide +kernel
  refine ⟨by decide +kernel, fun bs => ?_⟩
  rw [hquiet.2 (Or.inr (by rw [hbuf]; nofun)) bs, hnone]

/-- a text packet behind the Disconnect is echoed, cached and sent to the node -/
theorem text_after_disconnect :
    let s := run (step textEnv) init (disconnects (Frame.frameOf disconnectFrame ++ Frame.frameOf textToRadio))
    s.reader = .disconnected ∧ s.closed = true ∧ s.registered = false ∧ s.effects = [] ∧
      (run (step textEnv) s (List.replicate 7 (.reader 9 100))).effects =
        [.echoed textFromRadio, .cached textFromRadio, .forwarded textToRadio] := by
  decide +kernel

end MeshProxy.ClientLoops
