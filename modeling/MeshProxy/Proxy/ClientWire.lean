/-
The bytes between the proxy and a client (`internal/proxy/client.go`: Send, readLoop, writeLoop; `internal/protocol/frame.go`).

The client is that of ClientLoops, with everybody who is inside Send or Close on it. What a run takes in and passes on is
read off its steps: the frames Send accepts and the writeLoop takes and writes, the bytes that come in and the frames the
readLoop gets and forwards. A Write that fails may have sent any part of its frame, which each step brings as a number;
bytes come in in pieces of any size, and ReadFrame may fail at any moment.

- `step_outLog`, `step_inLog`: what a step of any party adds to either stream;
- `client_reads_accepted`: wherever the client is in its stream, it has got the first frames that Send accepted;
- `proxy_reads_client`: what is offered to the node for the client are the payloads in its bytes, without the intercepted
  ones.
-/
import MeshProxy.Protocol.Stream
import MeshProxy.Proxy.ClientLoops
import MeshProxy.Proxy.Hub

namespace MeshProxy.ClientWire

open MeshProxy.ClientLoops MeshProxy.Frame MeshProxy.Trace
open MeshProxy.Hub (intercepted)

variable (e : Env)

/-! ## The streams -/

/-- an action, and how much of its frame a failing Write sends -/
abbrev Input := ClientLoops.Act × ℕ

def step (s : St) (x : Input) : St := ClientLoops.step e s x.1

/-- a Send that finds room in the channel -/
def accepted (s : St) (x : Input) : List Bytes :=
  match x.1 with
  | .caller i =>
    match s.callers[i]? with
    | some ⟨_, .send f⟩ => if s.chan.length < e.clientSendBuffer then [f] else []
    | _ => []
  | _ => []

def taken (s : St) (x : Input) : List Bytes :=
  match x.1, s.writer, s.chan with
  | .take, .select, f :: _ => [f]
  | _, _, _ => []

/-- a WriteFrame that succeeds -/
def written (s : St) (x : Input) : List Bytes :=
  match x.1, s.writer with
  | .write ok, .writing f =>
    match (writeFrame ⟨[], s.closed || !ok⟩ f).1 with
    | .ok _ => [f]
    | .error _ => []
  | _, _ => []

/-- the bytes of a WriteFrame -/
def sent (s : St) (x : Input) : Bytes :=
  match x.1, s.writer with
  | .write ok, .writing f =>
    if f.length > maxFrameSize then []
    else if s.closed then []
    else if ok then frameOf f
    else (frameOf f).take x.2
  | _, _ => []

/-- the bytes that a read of the connection brings -/
def arrived (s : St) (x : Input) : Bytes :=
  match x.1 with
  | .fill bs => if s.awaitsData = true ∧ s.closed = false ∧ bs.length ≤ readerSize then bs else []
  | _ => []

/-- a ReadFrame that returns -/
def got (s : St) (x : Input) : List Bytes :=
  match x.1, s.reader, readFrame s.buf with
  | .reader _ _, .reading, (.ok f, _) => [f]
  | _, _, _ => []

/-- the call of nodeConn.Send -/
def forwarded (s : St) (x : Input) : List Bytes :=
  match x.1, s.reader with
  | .reader _ _, .forward f => [f]
  | _, _ => []

/-! ## To the client -/

variable {e} {s : St}

/-- the steps of the writeLoop, and of a Send -/
def toClient : ClientLoops.Act → Bool
  | .take | .stop | .write _ | .writer | .caller _ => true
  | _ => false

theorem stepReader_out (nodeNum now : UInt32) :
    (s.stepReader e nodeNum now).writer = s.writer ∧ (s.stepReader e nodeNum now).chan = s.chan := by
  unfold St.stepReader
  split
  · split_ifs <;> exact ⟨rfl, rfl⟩
  · split
    · exact ⟨rfl, rfl⟩
    · split_ifs <;> exact ⟨rfl, rfl⟩
  · unfold onMessage
    split <;> exact ⟨rfl, rfl⟩
  · split
    · exact ⟨rfl, rfl⟩
    · split_ifs <;> exact ⟨rfl, rfl⟩
  · split
    · exact ⟨rfl, rfl⟩
    · split_ifs <;> exact ⟨rfl, rfl⟩
  · exact ⟨rfl, rfl⟩
  · split_ifs <;> exact ⟨rfl, rfl⟩
  · exact ⟨rfl, rfl⟩
  · exact ⟨rfl, rfl⟩
  · exact ⟨rfl, rfl⟩

/-- nobody else touches the writeLoop and the channel -/
theorem step_out {a : ClientLoops.Act} (ha : toClient a = false) :
    (ClientLoops.step e s a).writer = s.writer ∧ (ClientLoops.step e s a).chan = s.chan := by
  cases a with
  | take | stop | write | writer | caller => cases ha
  | reader nodeNum now => exact stepReader_out nodeNum now
  | waiter =>
    simp only [ClientLoops.step, St.stepWaiter]
    split
    · split_ifs <;> exact ⟨rfl, rfl⟩
    · split_ifs <;> exact ⟨rfl, rfl⟩
    · exact ⟨rfl, rfl⟩
  | closeConn =>
    simp only [ClientLoops.step, St.closeConn]
    split_ifs <;> exact ⟨rfl, rfl⟩
  | lock =>
    simp only [ClientLoops.step, St.lock]
    split_ifs <;> exact ⟨rfl, rfl⟩
  | unregister =>
    simp only [ClientLoops.step, St.unregister]
    split_ifs <;> exact ⟨rfl, rfl⟩
  | send holdsMu f =>
    simp only [ClientLoops.step, St.call]
    split_ifs <;> exact ⟨rfl, rfl⟩
  | close =>
    simp only [ClientLoops.step, St.call]
    split_ifs <;> exact ⟨rfl, rfl⟩
  | fill bs =>
    simp only [ClientLoops.step, St.fill]
    split_ifs <;> exact ⟨rfl, rfl⟩
  | readFails =>
    simp only [ClientLoops.step, St.readFails]
    split_ifs <;> exact ⟨rfl, rfl⟩
  | cancel => exact ⟨rfl, rfl⟩

theorem silent {x : Input} (hx : toClient x.1 = false) :
    accepted e s x = [] ∧ taken s x = [] ∧ written s x = [] ∧ sent s x = [] := by
  obtain ⟨a, cut⟩ := x
  cases a with
  | take | stop | write | writer | caller => cases hx
  | _ => exact ⟨rfl, rfl, rfl, rfl⟩

/-- what Send accepts goes into the channel, and the writeLoop takes from it -/
theorem step_chan (s : St) (x : Input) : taken s x ++ (step e s x).chan = s.chan ++ accepted e s x := by
  obtain ⟨a, cut⟩ := x
  by_cases hx : toClient a
  · cases a with
    | take =>
      simp only [taken, step, accepted, ClientLoops.step, St.take, List.append_nil]
      split <;> simp_all
    | caller i =>
      simp only [taken, step, accepted, ClientLoops.step, St.stepCaller, List.nil_append]
      cases s.callers[i]? with
      | none => simp
      | some c =>
        obtain ⟨holdsMu, pc⟩ := c
        cases pc with
        | send f => by_cases hroom : s.chan.length < e.clientSendBuffer <;> simp [hroom]
        | close => by_cases hdone : s.once = .done <;> simp [hdone]
    | stop =>
      simp only [taken, step, accepted, ClientLoops.step, St.stop, List.nil_append, List.append_nil]
      split_ifs <;> rfl
    | write ok =>
      simp only [taken, step, accepted, ClientLoops.step, St.write, List.nil_append, List.append_nil]
      split
      · split <;> rfl
      · rfl
    | writer =>
      simp only [taken, step, accepted, ClientLoops.step, St.stepWriter, List.nil_append, List.append_nil]
      split <;> rfl
    | _ => cases hx
  · rw [Bool.not_eq_true] at hx
    obtain ⟨haccepted, htaken, -, -⟩ := silent (e := e) (s := s) (x := (a, cut)) hx
    rw [haccepted, htaken, List.nil_append, List.append_nil]
    exact (step_out hx).2

/-- what has gone out: the frames written, and from a writeLoop that has failed maybe the beginning of its last one -/
structure OutLog (s : St) (took wrote : List Bytes) (out : Bytes) : Prop where
  small : ∀ f ∈ wrote, f.length ≤ maxFrameSize
  out : match s.writer with
    | .select => took = wrote ∧ out = frames wrote
    | .writing f => took = wrote ++ [f] ∧ out = frames wrote
    | .returned _ | .done _ => took = wrote ∧ out = frames wrote ∨
        ∃ f cut, took = wrote ++ [f] ∧ out = frames wrote ++ cut ∧ cut <+: frameOf f ∧ (cut = [] ∨ f.length ≤ maxFrameSize)

/-- WriteFrame succeeds on a frame that is small enough, unless the Write fails -/
theorem writeFrame_cases (f : Bytes) (broken : Bool) :
    (writeFrame ⟨[], broken⟩ f).1 = .ok () ∧ f.length ≤ maxFrameSize ∧ broken = false ∨
      ∃ err, (writeFrame ⟨[], broken⟩ f).1 = .error err ∧ (f.length ≤ maxFrameSize → broken = true) := by
  unfold writeFrame
  split_ifs with hbig hbroken
  · exact .inr ⟨_, rfl, fun hsmall => absurd hbig (Nat.not_lt.2 hsmall)⟩
  · exact .inr ⟨_, rfl, fun _ => hbroken⟩
  · exact .inl ⟨rfl, Nat.not_lt.1 hbig, by simpa using hbroken⟩

/-- WriteFrame -/
theorem write_outLog {took wrote : List Bytes} {out : Bytes} (h : OutLog s took wrote out) (ok : Bool) (cut : ℕ) :
    OutLog (s.write ok) took (wrote ++ written s (.write ok, cut)) (out ++ sent s (.write ok, cut)) := by
  obtain ⟨hsmall, hout⟩ := h
  unfold St.write written sent
  cases hw : s.writer with
  | writing f =>
    rw [hw] at hout
    obtain ⟨htook, hout⟩ := hout
    rcases writeFrame_cases f (s.closed || !ok) with ⟨hok, hf, hopen⟩ | ⟨err, herr, hbroken⟩
    · obtain ⟨hclosed, hfine⟩ := Bool.or_eq_false_iff.1 hopen
      have hyes : ok = true := by simpa using hfine
      simp only [hok]
      simp only [gt_iff_lt, Nat.not_lt.2 hf, hclosed, hyes, if_false, if_true, Bool.false_eq_true]
      refine ⟨?_, htook, by rw [hout, frames_snoc]⟩
      intro g hg
      rcases List.mem_append.1 hg with hg | hg
      · exact hsmall g hg
      · rwa [List.mem_singleton.1 hg]
    · simp only [herr, List.append_nil]
      refine ⟨hsmall, .inr ⟨f, _, htook, by rw [hout], ?_⟩⟩
      split_ifs with hbig hclosed hfine
      · exact ⟨List.nil_prefix, .inl rfl⟩
      · exact ⟨List.nil_prefix, .inl rfl⟩
      · have hfails := hbroken (Nat.not_lt.1 hbig)
        simp [hclosed, hfine] at hfails
      · exact ⟨List.take_prefix _ _, .inr (Nat.not_lt.1 hbig)⟩
  | _ =>
    rw [hw] at hout
    simp only [List.append_nil]
    exact ⟨hsmall, by rw [hw]; exact hout⟩

/-- the writeLoop takes a frame -/
theorem take_outLog {took wrote : List Bytes} {out : Bytes} (h : OutLog s took wrote out) (cut : ℕ) :
    OutLog s.take (took ++ taken s (.take, cut)) wrote out := by
  have hout := h.out
  unfold St.take taken
  cases hw : s.writer with
  | select =>
    rw [hw] at hout
    cases hchan : s.chan with
    | nil => exact ⟨h.small, by rw [hw, List.append_nil]; exact hout⟩
    | cons f rest => exact ⟨h.small, by rw [hout.1], hout.2⟩
  | _ =>
    rw [hw] at hout
    exact ⟨h.small, by rw [hw, List.append_nil]; exact hout⟩

theorem step_outLog {took wrote : List Bytes} {out : Bytes} (h : OutLog s took wrote out) (x : Input) :
    OutLog (step e s x) (took ++ taken s x) (wrote ++ written s x) (out ++ sent s x) := by
  obtain ⟨a, cut⟩ := x
  -- the same frames and bytes, with the writeLoop as it was
  have hsame : ∀ {s' : St}, s'.writer = s.writer → OutLog s' took wrote out :=
    fun hw => ⟨h.small, by rw [hw]; exact h.out⟩
  by_cases hx : toClient a
  · cases a with
    | take =>
      rw [show written s (.take, cut) = [] from rfl, show sent s (.take, cut) = [] from rfl, List.append_nil,
        List.append_nil]
      exact take_outLog h cut
    | stop =>
      simp only [taken, written, sent, step, ClientLoops.step, St.stop, List.append_nil]
      split_ifs with hstop
      · have hout := h.out
        rw [hstop.1] at hout
        exact ⟨h.small, .inl hout⟩
      · exact hsame rfl
    | write ok => exact (List.append_nil took).symm ▸ write_outLog h ok cut
    | writer =>
      simp only [taken, written, sent, step, ClientLoops.step, St.stepWriter, List.append_nil]
      cases hw : s.writer with
      | returned failed =>
        have hout := h.out
        rw [hw] at hout
        exact ⟨h.small, hout⟩
      | _ => exact hsame rfl
    | caller i =>
      simp only [taken, written, sent, step, ClientLoops.step, List.append_nil]
      apply hsame
      unfold St.stepCaller
      split
      · rfl
      · split_ifs <;> rfl
      · split_ifs <;> rfl
    | _ => cases hx
  · rw [Bool.not_eq_true] at hx
    obtain ⟨-, htaken, hwritten, hsent⟩ := silent (e := e) (s := s) (x := (a, cut)) hx
    rw [htaken, hwritten, hsent, List.append_nil, List.append_nil, List.append_nil]
    exact hsame (step_out hx).1

/-! ## From the client -/

/-- the frame onMessage works on, if it is to go to the node -/
def inHand (pb : Proto.Codec) (s : St) : List Bytes :=
  match s.reader with
  | .received f => if intercepted pb f then [] else [f]
  | .echo f | .cache f | .forward f => [f]
  | _ => []

/-- the steps of the readLoop, and of the connection towards it -/
def fromClient : ClientLoops.Act → Bool
  | .reader _ _ | .fill _ | .readFails => true
  | _ => false

/-- nobody else touches the readLoop and its buffer -/
theorem step_in {a : ClientLoops.Act} (ha : fromClient a = false) :
    (ClientLoops.step e s a).reader = s.reader ∧ (ClientLoops.step e s a).buf = s.buf := by
  cases a with
  | reader | fill | readFails => cases ha
  | take =>
    simp only [ClientLoops.step, St.take]
    split <;> exact ⟨rfl, rfl⟩
  | stop =>
    simp only [ClientLoops.step, St.stop]
    split_ifs <;> exact ⟨rfl, rfl⟩
  | write ok =>
    simp only [ClientLoops.step, St.write]
    split
    · split <;> exact ⟨rfl, rfl⟩
    · exact ⟨rfl, rfl⟩
  | writer =>
    simp only [ClientLoops.step, St.stepWriter]
    split <;> exact ⟨rfl, rfl⟩
  | waiter =>
    simp only [ClientLoops.step, St.stepWaiter]
    split
    · split_ifs <;> exact ⟨rfl, rfl⟩
    · split_ifs <;> exact ⟨rfl, rfl⟩
    · exact ⟨rfl, rfl⟩
  | caller i =>
    simp only [ClientLoops.step, St.stepCaller]
    split
    · exact ⟨rfl, rfl⟩
    · split_ifs <;> exact ⟨rfl, rfl⟩
    · split_ifs <;> exact ⟨rfl, rfl⟩
  | closeConn =>
    simp only [ClientLoops.step, St.closeConn]
    split_ifs <;> exact ⟨rfl, rfl⟩
  | lock =>
    simp only [ClientLoops.step, St.lock]
    split_ifs <;> exact ⟨rfl, rfl⟩
  | unregister =>
    simp only [ClientLoops.step, St.unregister]
    split_ifs <;> exact ⟨rfl, rfl⟩
  | send holdsMu f =>
    simp only [ClientLoops.step, St.call]
    split_ifs <;> exact ⟨rfl, rfl⟩
  | close =>
    simp only [ClientLoops.step, St.call]
    split_ifs <;> exact ⟨rfl, rfl⟩
  | cancel => exact ⟨rfl, rfl⟩

theorem deaf {x : Input} (hx : fromClient x.1 = false) : arrived s x = [] ∧ got s x = [] ∧ forwarded s x = [] := by
  obtain ⟨a, cut⟩ := x
  cases a with
  | reader | fill | readFails => cases hx
  | _ => exact ⟨rfl, rfl, rfl⟩

/-- onMessage keeps an intercepted frame, and works on any other -/
theorem onMessage_inHand (f : Bytes) :
    inHand e.pb (onMessage e f s) = (if intercepted e.pb f then [] else [f]) ∧ (onMessage e f s).buf = s.buf := by
  unfold onMessage intercepted
  cases e.pb.unmarshalToRadio f with
  | none => exact ⟨rfl, rfl⟩
  | some m =>
    obtain ⟨variant, rest⟩ := m
    cases variant <;> exact ⟨rfl, rfl⟩

/-- the readLoop: only ReadFrame takes from the buffer, and only a frame that is not intercepted goes on to the node -/
theorem stepReader_in (nodeNum now : UInt32) :
    (got s (.reader nodeNum now, 0) = [] ∧ (s.stepReader e nodeNum now).buf = s.buf ∧
      forwarded s (.reader nodeNum now, 0) ++ inHand e.pb (s.stepReader e nodeNum now) = inHand e.pb s) ∨
    ∃ f rest, readFrame s.buf = (.ok f, rest) ∧ got s (.reader nodeNum now, 0) = [f] ∧
      (s.stepReader e nodeNum now).buf = rest ∧ forwarded s (.reader nodeNum now, 0) = [] ∧ inHand e.pb s = [] ∧
      inHand e.pb (s.stepReader e nodeNum now) = if intercepted e.pb f then [] else [f] := by
  unfold St.stepReader
  cases hr : s.reader with
  | check =>
    left
    simp only [got, forwarded, hr]
    split_ifs <;> simp [inHand, hr]
  | reading =>
    cases hread : readFrame s.buf with
    | mk res rest =>
      cases res with
      | ok f => exact .inr ⟨f, rest, rfl, by simp [got, hr, hread], rfl, by simp [forwarded, hr], by simp [inHand, hr], rfl⟩
      | error err =>
        left
        simp only [got, forwarded, hr, hread]
        split_ifs <;> simp [inHand, hr]
  | received f =>
    left
    obtain ⟨hhand, hbuf⟩ := onMessage_inHand (e := e) (s := s) f
    refine ⟨by simp [got, hr], hbuf, ?_⟩
    simp only [forwarded, hr, List.nil_append]
    rw [hhand]
    simp [inHand, hr]
  | echo f =>
    left
    refine ⟨by simp [got, hr], ?_, ?_⟩
    · simp only
      split
      · rfl
      · split_ifs <;> rfl
    · simp only [forwarded, hr, List.nil_append]
      split
      · simp [inHand, hr]
      · split_ifs <;> simp [inHand, hr]
  | cache f =>
    left
    refine ⟨by simp [got, hr], ?_, ?_⟩
    · simp only
      split
      · rfl
      · split_ifs <;> rfl
    · simp only [forwarded, hr, List.nil_append]
      split
      · simp [inHand, hr]
      · split_ifs <;> simp [inHand, hr]
  | forward f => exact .inl ⟨by simp [got, hr], rfl, by simp [forwarded, inHand, hr]⟩
  | closing =>
    left
    simp only [got, forwarded, hr]
    split_ifs <;> simp [inHand, hr]
  | disconnected => exact .inl ⟨by simp [got, hr], rfl, by simp [forwarded, inHand, hr]⟩
  | returned => exact .inl ⟨by simp [got, hr], rfl, by simp [forwarded, inHand, hr]⟩
  | done => exact .inl ⟨by simp [got, hr], rfl, by simp [forwarded, inHand, hr]⟩

/-- the readLoop of a client, all along a run: its stream so far, what it has got and what it has forwarded -/
structure InLog (pb : Proto.Codec) (s : St) (stream : Bytes) (gotten forward : List Bytes) : Prop where
  reads : Reads stream gotten s.buf
  forward : forward ++ inHand pb s = gotten.filter fun f => !intercepted pb f

variable {stream : Bytes} {gotten forward : List Bytes}

/-- a step of the readLoop -/
theorem reader_inLog (h : InLog e.pb s stream gotten forward) (nodeNum now : UInt32) :
    InLog e.pb (s.stepReader e nodeNum now) stream (gotten ++ got s (.reader nodeNum now, 0))
      (forward ++ forwarded s (.reader nodeNum now, 0)) := by
  rcases stepReader_in (e := e) (s := s) nodeNum now with ⟨hgot, hbuf, hforward⟩ |
      ⟨f, rest, hread, hgot, hbuf, hforward, hbefore, hafter⟩
  · rw [hgot, List.append_nil]
    refine ⟨?_, ?_⟩
    · rw [hbuf]
      exact h.reads
    · rw [List.append_assoc, hforward]
      exact h.forward
  · rw [hgot, hforward, List.append_nil]
    refine ⟨?_, ?_⟩
    · rw [hbuf]
      exact h.reads.next hread
    · have hall : forward = gotten.filter fun f => !intercepted e.pb f := by
        simpa [hbefore] using h.forward
      rw [hafter, List.filter_append, hall]
      cases hf : intercepted e.pb f <;> simp [hf]

/-- bytes come in -/
theorem fill_inLog (h : InLog e.pb s stream gotten forward) (bs : Bytes) (cut : ℕ) :
    InLog e.pb (s.fill bs) (stream ++ arrived s (.fill bs, cut)) gotten forward := by
  simp only [arrived, St.fill]
  split_ifs
  · exact ⟨h.reads.arrive bs, h.forward⟩
  · simpa using h

/-- ReadFrame fails: the readLoop has nothing in its hands -/
theorem readFails_inLog (h : InLog e.pb s stream gotten forward) : InLog e.pb s.readFails stream gotten forward := by
  unfold St.readFails
  split_ifs with hwait
  · have hreading : s.reader = .reading := by
      unfold St.awaitsData at hwait
      split at hwait
      · assumption
      · cases hwait
    have hforward := h.forward
    rw [show inHand e.pb s = [] by simp [inHand, hreading]] at hforward
    exact ⟨h.reads, hforward⟩
  · exact h

theorem step_inLog (h : InLog e.pb s stream gotten forward) (x : Input) :
    InLog e.pb (step e s x) (stream ++ arrived s x) (gotten ++ got s x) (forward ++ forwarded s x) := by
  obtain ⟨a, cut⟩ := x
  by_cases hx : fromClient a
  · cases a with
    | reader nodeNum now => exact (List.append_nil stream).symm ▸ reader_inLog h nodeNum now
    | fill bs =>
      rw [show got s (.fill bs, cut) = [] by simp [got], show forwarded s (.fill bs, cut) = [] from rfl, List.append_nil,
        List.append_nil]
      exact fill_inLog h bs cut
    | readFails =>
      rw [show got s (.readFails, cut) = [] by simp [got], show forwarded s (.readFails, cut) = [] from rfl,
        show arrived s (.readFails, cut) = [] from rfl, List.append_nil, List.append_nil, List.append_nil]
      exact readFails_inLog h
    | _ => cases hx
  · rw [Bool.not_eq_true] at hx
    obtain ⟨harrived, hgot, hforward⟩ := deaf (s := s) (x := (a, cut)) hx
    obtain ⟨hreader, hbuf⟩ := step_in (e := e) (s := s) hx
    rw [harrived, hgot, hforward, List.append_nil, List.append_nil, List.append_nil]
    refine ⟨?_, ?_⟩
    · rw [show (step e s (a, cut)).buf = s.buf from hbuf]
      exact h.reads
    · have hhand : inHand e.pb (step e s (a, cut)) = inHand e.pb s := by
        unfold inHand
        rw [show (step e s (a, cut)).reader = s.reader from hreader]
      rw [hhand]
      exact h.forward

/-! ## Results -/

section Runs

variable (e) (xs : List Input)

/-- the frames Send has accepted, those the writeLoop has taken and those it has written, and the bytes on the connection -/
def runAccepted : List Bytes := emitted (step e) (accepted e) init xs
def runTaken : List Bytes := emitted (step e) taken init xs
def runWritten : List Bytes := emitted (step e) written init xs
def runSent : Bytes := emitted (step e) sent init xs

/-- the bytes that have come in, the frames the readLoop has got and those given to the node -/
def runArrived : Bytes := emitted (step e) arrived init xs
def runGot : List Bytes := emitted (step e) got init xs
def runForwarded : List Bytes := emitted (step e) forwarded init xs

theorem run_chan : runTaken e xs ++ (run (step e) init xs).chan = runAccepted e xs := by
  have hall : Along (step e) (fun _ _ => True) init xs := along_of_forall (fun _ _ => trivial) init xs
  exact emitted_fifo (q := St.chan) (fun s x _ => step_chan s x) hall

theorem run_outLog : OutLog (run (step e) init xs) (runTaken e xs) (runWritten e xs) (runSent e xs) := by
  induction xs using List.reverseRecOn with
  | nil => exact ⟨fun f hf => absurd hf List.not_mem_nil, rfl, rfl⟩
  | append_singleton xs x ih =>
    rw [run_snoc, runTaken, runWritten, runSent, emitted_snoc, emitted_snoc, emitted_snoc]
    exact step_outLog ih x

theorem run_inLog : InLog e.pb (run (step e) init xs) (runArrived e xs) (runGot e xs) (runForwarded e xs) := by
  induction xs using List.reverseRecOn with
  | nil => exact ⟨.start [], rfl⟩
  | append_singleton xs x ih =>
    rw [run_snoc, runArrived, runGot, runForwarded, emitted_snoc, emitted_snoc, emitted_snoc]
    exact step_inLog ih x

/-- what has been taken is what has been written and at most one more frame, and so are the bytes -/
theorem sent_prefix : ∃ last : List Bytes, runTaken e xs = runWritten e xs ++ last ∧ last.length ≤ 1 ∧
    ∃ cut, runSent e xs = frames (runWritten e xs) ++ cut ∧
      (cut = [] ∨ ∃ f, last = [f] ∧ f.length ≤ maxFrameSize ∧ cut <+: frameOf f) := by
  obtain ⟨-, hout⟩ := run_outLog e xs
  generalize (run (step e) init xs).writer = w at hout
  have hnone : runTaken e xs = runWritten e xs ∧ runSent e xs = frames (runWritten e xs) →
      ∃ last : List Bytes, runTaken e xs = runWritten e xs ++ last ∧ last.length ≤ 1 ∧
        ∃ cut, runSent e xs = frames (runWritten e xs) ++ cut ∧
          (cut = [] ∨ ∃ f, last = [f] ∧ f.length ≤ maxFrameSize ∧ cut <+: frameOf f) :=
    fun ⟨htook, hout⟩ => ⟨[], by rw [htook, List.append_nil], Nat.zero_le _, [], by rw [hout, List.append_nil], .inl rfl⟩
  cases w with
  | select => exact hnone hout
  | writing f => exact ⟨[f], hout.1, le_refl 1, [], by rw [hout.2, List.append_nil], .inl rfl⟩
  | returned failed =>
    rcases hout with hout | ⟨f, cut, htook, hout, hcut, hsmall⟩
    · exact hnone hout
    · exact ⟨[f], htook, le_refl 1, cut, hout, hsmall.imp id fun hf => ⟨f, rfl, hf, hcut⟩⟩
  | done failed =>
    rcases hout with hout | ⟨f, cut, htook, hout, hcut, hsmall⟩
    · exact hnone hout
    · exact ⟨[f], htook, le_refl 1, cut, hout, hsmall.imp id fun hf => ⟨f, rfl, hf, hcut⟩⟩

/-- **The client reads what was accepted.** In every interleaving, with any loss and cutting of the bytes: at every point of
its stream ReadFrame has given the client the first of the frames that Send has accepted (those a reader takes, of 1 to 512
bytes), whole and unchanged; once it has all the bytes it has every frame whose WriteFrame has succeeded; and what Send
has accepted is, in order, what was written, at most one frame in the writeLoop's hands or lost by it, and what waits in the
channel. -/
theorem client_reads_accepted (n : ℕ) :
    (readAll ((runSent e xs).take n)).1 <+: acceptedOf (runAccepted e xs) ∧
    acceptedOf (runWritten e xs) <+: (readAll (runSent e xs)).1 ∧
    ∃ last : List Bytes, last.length ≤ 1 ∧
      runAccepted e xs = runWritten e xs ++ last ++ (run (step e) init xs).chan := by
  have hsmall := (run_outLog e xs).small
  obtain ⟨last, htook, hlast, cut, hout, hcut⟩ := sent_prefix e xs
  have haccepted : runAccepted e xs = runWritten e xs ++ last ++ (run (step e) init xs).chan := by
    rw [← htook, run_chan]
  have hpart : (runSent e xs).take n <+: runSent e xs := List.take_prefix n _
  refine ⟨?_, ?_, last, hlast, haccepted⟩
  · rw [haccepted, acceptedOf, List.filter_append, List.filter_append]
    rcases hcut with rfl | ⟨f, rfl, hf, hcut⟩
    · rw [List.append_nil] at hout
      rw [List.append_assoc]
      exact (readAll_cut hsmall (hout ▸ hpart)).trans (List.prefix_append _ _)
    · have hall : ∀ g ∈ runWritten e xs ++ [f], g.length ≤ maxFrameSize := by
        intro g hg
        rcases List.mem_append.1 hg with hg | hg
        · exact hsmall g hg
        · rwa [List.mem_singleton.1 hg]
      have hread : (readAll ((runSent e xs).take n)).1 <+: acceptedOf (runWritten e xs ++ [f]) := by
        apply readAll_cut hall
        rw [frames_snoc]
        exact hpart.trans (hout ▸ (List.prefix_append_right_inj _).2 hcut)
      rw [acceptedOf, List.filter_append] at hread
      exact hread.trans (List.prefix_append _ _)
  · rw [← readAll_whole hsmall, hout]
    exact readAll_prefix _ cut

/-- **The proxy reads what the client sent.** In every interleaving, and however the client's bytes arrive: of the payloads
that ReadFrame finds in them the readLoop has got the first ones, the others being in what it has not read; and what it has
got is what was offered to the node, in order, without the intercepted payloads and up to the one in its hands. -/
theorem proxy_reads_client :
    (readAll (runArrived e xs)).1 = runGot e xs ++ (readAll (run (step e) init xs).buf).1 ∧
    runForwarded e xs ++ inHand e.pb (run (step e) init xs) = (runGot e xs).filter (fun f => !intercepted e.pb f) ∧
    (inHand e.pb (run (step e) init xs)).length ≤ 1 := by
  obtain ⟨hreads, hforward⟩ := run_inLog e xs
  refine ⟨hreads.got_eq, hforward, ?_⟩
  unfold inHand
  split
  · split_ifs <;> simp
  all_goals simp

end Runs

end MeshProxy.ClientWire
