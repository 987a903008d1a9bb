/-
Where frames go between the proxy and the node (`internal/node/connection.go`: Send, requestConfig, heartbeatLoop,
writeLoop, readLoop, drainChannels).

Both channels outlive connections, and so may the goroutines that use them; a frame may be written by the writer of an
older connection, be dropped by drainChannels, or be lost with the writer or reader that holds it. This module counts the
frames of a run of the connection manager (Node.Link): what its steps put into a channel and what they take out, in order,
with the taker's name.

- `step_toNode`, `step_fromNode`: one step takes from the front of a channel and adds at its end;
- `frames_to_node`: no frame is written twice or out of order, and one that is accepted goes missing in two ways only;
- `frames_from_node`: the same for the way back.
-/
import Mathlib.Algebra.BigOperators.Group.Finset.Basic
import MeshProxy.Core.Tagged
import MeshProxy.Node.Link

namespace MeshProxy.Accounting

open MeshProxy.Link MeshProxy.Proto MeshProxy.Tagged MeshProxy.Trace
open MeshProxy.Frame (Bytes)

variable (pb : Codec) (p : Params)

/-! ## What a step does to the channels -/

/-- who takes a frame out of a channel -/
inductive Taker where
  | writer (k : ℕ)
  | hub
  | drain
deriving DecidableEq, Repr

/-- a frame is put into toNode as long as there is room -/
def offer (s : Manager) (f : Queued) : List Queued := if s.toNode.length < p.toBuffer then [f] else []

/-- what a step puts into toNode -/
def accepted (s : Manager) : Act → List Queued
  | .send payload => offer p s ⟨.sent, payload⟩
  | .heartTick k payload => if s.heart k = .select then offer p s ⟨.sent, payload⟩ else []
  | .run o =>
    match s.pc, pb.marshalToRadio { variant := .wantConfigId o.nonce } with
    | .stored, some data => offer p s ⟨.handshake s.gen, data⟩
    | _, _ => []
  | _ => []

/-- what a step takes out of toNode -/
def takenTo (s : Manager) : Act → List (Taker × Queued)
  | .writerTake k =>
    match s.writer k, s.toNode with
    | .select, f :: _ => [(.writer k, f)]
    | _, _ => []
  | .run _ =>
    match s.pc, s.toNode with
    | .drainToRecv, f :: _ => [(.drain, f)]
    | _, _ => []
  | _ => []

/-- what a reader puts into fromNode -/
def pushed (s : Manager) : Act → List (ℕ × Bytes)
  | .readerPush k =>
    match s.reader k with
    | .handing f => if s.fromNode.length < p.fromBuffer then [(k, f)] else []
    | _ => []
  | _ => []

/-- what a step takes out of fromNode -/
def takenFrom (s : Manager) : Act → List (Taker × Bytes)
  | .hubRecv =>
    match s.fromNode with
    | f :: _ => [(.hub, f)]
    | [] => []
  | .run _ =>
    match s.pc, s.fromNode with
    | .drainFromRecv, f :: _ => [(.drain, f)]
    | _, _ => []
  | _ => []

/-- the frames ReadFrame returns -/
def read (s : Manager) : Act → List (ℕ × Bytes)
  | .readerRead k (some f) => if s.reader k = .reading then [(k, f)] else []
  | _ => []

/-- the frame inside WriteFrame -/
def inWriter : Writer → List Queued
  | .writing f => [f]
  | _ => []

/-- the frame at the hand-over -/
def inReader : Reader → List Bytes
  | .handing f => [f]
  | _ => []

variable {s : Manager}

theorem send_toNode_offer (f : Queued) : (s.send p f).toNode = s.toNode ++ offer p s f := by
  unfold Manager.send offer
  split_ifs
  · rfl
  · rw [List.append_nil]

theorem wait_channels (o : Outcome) :
    (s.wait p o).toNode = s.toNode ∧ (s.wait p o).fromNode = s.fromNode ∧ (s.wait p o).writer = s.writer ∧
      (s.wait p o).reader = s.reader ∧ (s.wait p o).written = s.written := by
  unfold Manager.wait
  split_ifs <;> exact ⟨rfl, rfl, rfl, rfl, rfl⟩

/-! ## The channels -/

/-- a step takes from the front of a channel, or adds at its end -/
def Flow (s s' : Manager) (a : Act) : Prop :=
  (takenTo s a).map Prod.snd ++ s'.toNode = s.toNode ++ accepted pb p s a ∧
    (takenFrom s a).map Prod.snd ++ s'.fromNode = s.fromNode ++ (pushed p s a).map Prod.snd

theorem runStep_flow (o : Outcome) : Flow pb p s (s.runStep pb p o) (.run o) := by
  unfold Flow
  cases hpc : s.pc with
  | stored =>
    simp only [Manager.runStep, takenTo, accepted, takenFrom, pushed, hpc, Manager.requestConfig]
    cases hm : pb.marshalToRadio { variant := .wantConfigId o.nonce } with
    | none => simp
    | some data =>
      refine ⟨send_toNode_offer p _, ?_⟩
      simp only [Manager.send]
      split_ifs <;> simp
  | drainToRecv =>
    simp only [Manager.runStep, takenTo, accepted, takenFrom, pushed, hpc]
    cases hq : s.toNode with
    | nil => simp [hq]
    | cons f rest => simp
  | drainFromRecv =>
    simp only [Manager.runStep, takenTo, accepted, takenFrom, pushed, hpc]
    cases hq : s.fromNode with
    | nil => simp [hq]
    | cons f rest => simp
  | dialFailed => simp [Manager.runStep, takenTo, accepted, takenFrom, pushed, hpc, wait_channels]
  | backoff => simp [Manager.runStep, takenTo, accepted, takenFrom, pushed, hpc, wait_channels]
  | requested => simp [Manager.runStep, takenTo, accepted, takenFrom, pushed, hpc, Manager.spawn]
  | returned => simp [Manager.runStep, takenTo, accepted, takenFrom, pushed, hpc]
  | stopped => simp [Manager.runStep, takenTo, accepted, takenFrom, pushed, hpc]
  | _ =>
    simp only [Manager.runStep, takenTo, accepted, takenFrom, pushed, hpc]
    split_ifs <;> simp

theorem step_flow (a : Act) : Flow pb p s (step pb p s a) a := by
  cases a with
  | run o => exact runStep_flow pb p o
  | send payload =>
    refine ⟨send_toNode_offer p _, ?_⟩
    simp only [takenFrom, pushed, step, Manager.send]
    split_ifs <;> simp
  | heartTick k payload =>
    simp only [Flow, takenTo, accepted, takenFrom, pushed, step]
    split_ifs with hh
    · refine ⟨send_toNode_offer p _, ?_⟩
      simp only [Manager.send]
      split_ifs <;> simp
    · simp
  | writerTake k =>
    simp only [Flow, takenTo, accepted, takenFrom, pushed, step, Manager.writerTake]
    cases hw : s.writer k <;> cases hq : s.toNode <;> simp [hq]
  | hubRecv =>
    simp only [Flow, takenTo, accepted, takenFrom, pushed, step]
    cases hq : s.fromNode <;> simp
  | readerPush k =>
    simp only [Flow, takenTo, accepted, takenFrom, pushed, step, Manager.readerPush]
    cases hr : s.reader k with
    | handing f => split_ifs <;> simp
    | _ => simp
  | writerWrite k ok =>
    simp only [Flow, takenTo, accepted, takenFrom, pushed, step, Manager.writerWrite]
    cases hw : s.writer k with
    | writing f =>
      dsimp only
      split_ifs <;> simp
    | _ => simp
  | readerRead k frame =>
    simp only [Flow, takenTo, accepted, takenFrom, pushed, step, Manager.readerRead]
    cases hr : s.reader k <;> simp
  | readerStop k =>
    simp only [Flow, takenTo, accepted, takenFrom, pushed, step, Manager.readerStop]
    cases hr : s.reader k with
    | top =>
      dsimp only
      split_ifs <;> simp
    | handing f =>
      dsimp only
      split_ifs <;> simp
    | _ => simp
  | cancel => simp [Flow, takenTo, accepted, takenFrom, pushed, step]
  | _ =>
    simp only [Flow, takenTo, accepted, takenFrom, pushed, step]
    split_ifs <;> simp

/-! ## The goroutines -/

/-- a connection's goroutines are started once -/
structure Fresh (s : Manager) : Prop where
  later : ∀ k, s.gen < k → s.writer k = .absent ∧ s.reader k = .absent
  now : s.pc = .stored ∨ s.pc = .requested → s.writer s.gen = .absent ∧ s.reader s.gen = .absent

/-- what a connection's writer took has been written, is being written, or is the frame on which it gave up -/
def WriterLog (s : Manager) (k : ℕ) (took : List Queued) : Prop :=
  ∃ lost, took = s.written k ++ inWriter (s.writer k) ++ lost ∧ lost.length ≤ 1 ∧ (lost ≠ [] → s.writer k = .done)

/-- what a connection's reader read has been handed over, is at the hand-over, or is the frame with which it stopped -/
def ReaderLog (s : Manager) (k : ℕ) (readFrames handed : List Bytes) : Prop :=
  ∃ lost, readFrames = handed ++ inReader (s.reader k) ++ lost ∧ lost.length ≤ 1 ∧ (lost ≠ [] → s.reader k = .done)

/-- of the goroutines Run only starts the new connection's -/
theorem runStep_parties (o : Outcome) :
    (s.runStep pb p o).written = s.written ∧
    (((s.runStep pb p o).writer = s.writer ∧ (s.runStep pb p o).reader = s.reader) ∨
      (s.pc = .requested ∧ (s.runStep pb p o).writer = Function.update s.writer s.gen .select ∧
        (s.runStep pb p o).reader = Function.update s.reader s.gen .top)) := by
  cases hpc : s.pc with
  | requested => simp [Manager.runStep, hpc, Manager.spawn]
  | stored =>
    simp only [Manager.runStep, hpc, Manager.requestConfig, Manager.send]
    split
    · simp
    · split_ifs <;> simp
  | dialFailed => simp [Manager.runStep, hpc, wait_channels]
  | backoff => simp [Manager.runStep, hpc, wait_channels]
  | drainToRecv =>
    simp only [Manager.runStep, hpc]
    split <;> simp
  | drainFromRecv =>
    simp only [Manager.runStep, hpc]
    split <;> simp
  | returned => simp [Manager.runStep, hpc]
  | stopped => simp [Manager.runStep, hpc]
  | _ =>
    simp only [Manager.runStep, hpc]
    split_ifs <;> simp

/-- the other parties start no goroutine -/
theorem env_absent {a : Act} (ha : a.isRun = false) (k : ℕ) :
    (s.writer k = .absent → (step pb p s a).writer k = .absent) ∧
      (s.reader k = .absent → (step pb p s a).reader k = .absent) := by
  have hw : ∀ j x, s.writer j ≠ .absent → s.writer k = .absent → Function.update s.writer j x k = .absent := by
    intro j x hj hk
    have hne : k ≠ j := fun e => hj (e ▸ hk)
    rwa [Function.update_of_ne hne]
  have hr : ∀ j x, s.reader j ≠ .absent → s.reader k = .absent → Function.update s.reader j x k = .absent := by
    intro j x hj hk
    have hne : k ≠ j := fun e => hj (e ▸ hk)
    rwa [Function.update_of_ne hne]
  have hmove := step_move pb p (s := s) ha
  generalize step pb p s a = s' at hmove
  cases hmove with
  | take hsel => exact ⟨hw _ _ (by simp [hsel]), id⟩
  | write _ hwriting => exact ⟨hw _ _ (by simp [hwriting]), id⟩
  | writeFails _ hwriting => exact ⟨hw _ _ (by simp [hwriting]), id⟩
  | writerStop hsel => exact ⟨hw _ _ (by simp [hsel]), id⟩
  | check htop => exact ⟨id, hr _ _ (by simp [htop])⟩
  | read _ hreading => exact ⟨id, hr _ _ (by simp [hreading])⟩
  | push hhanding => exact ⟨id, hr _ _ (by simp [hhanding])⟩
  | readerStop hat =>
    refine ⟨id, hr _ _ ?_⟩
    rcases hat with htop | ⟨f, hhanding⟩
    · simp [htop]
    · simp [hhanding]
  | _ => exact ⟨id, id⟩

theorem init_fresh : Fresh (.init p) where
  later := fun _ _ => ⟨rfl, rfl⟩
  now := fun _ => ⟨rfl, rfl⟩

theorem runStep_fresh (h : Fresh s) (o : Outcome) : Fresh (s.runStep pb p o) := by
  cases hpc : s.pc with
  | dialing =>
    simp only [Manager.runStep, hpc]
    split_ifs
    · exact ⟨fun k hk => h.later k (Nat.lt_of_succ_lt hk), fun _ => h.later _ (Nat.lt_succ_self _)⟩
    · exact ⟨h.later, by simp⟩
  | stored =>
    have hnow := h.now (.inl hpc)
    simp only [Manager.runStep, hpc, Manager.requestConfig, Manager.send]
    split
    · exact ⟨h.later, fun _ => hnow⟩
    · split_ifs <;> exact ⟨h.later, fun _ => hnow⟩
  | requested =>
    refine ⟨fun k hk => ?_, by simp [Manager.runStep, hpc]⟩
    have hgen : s.gen < k := by simpa [Manager.runStep, hpc, Manager.spawn] using hk
    have hne : k ≠ s.gen := by omega
    simpa [Manager.runStep, hpc, Manager.spawn, hne] using h.later k hgen
  | drainToRecv =>
    simp only [Manager.runStep, hpc]
    split
    · exact h
    · exact ⟨h.later, by simp⟩
  | drainFromRecv =>
    simp only [Manager.runStep, hpc]
    split
    · exact h
    · exact ⟨h.later, by simp⟩
  | dialFailed =>
    simp only [Manager.runStep, hpc, Manager.wait]
    split_ifs <;> exact ⟨h.later, by simp⟩
  | backoff =>
    simp only [Manager.runStep, hpc, Manager.wait]
    split_ifs <;> exact ⟨h.later, by simp⟩
  | running =>
    simp only [Manager.runStep, hpc]
    split_ifs
    · exact ⟨h.later, by simp⟩
    · exact h
  | returned => exact ⟨by simpa [Manager.runStep, hpc] using h.later, by simp [Manager.runStep, hpc]⟩
  | stopped => simpa only [Manager.runStep, hpc] using h
  | _ =>
    simp only [Manager.runStep, hpc]
    split_ifs <;> exact ⟨h.later, by simp⟩

theorem step_fresh (h : Fresh s) (a : Act) : Fresh (step pb p s a) := by
  cases hr : a.isRun with
  | true =>
    cases a with
    | run o => exact runStep_fresh pb p h o
    | _ => cases hr
  | false =>
    obtain ⟨hpc, hgen, -, -⟩ := step_env pb p (s := s) hr
    refine ⟨fun k hk => ?_, fun hat => ?_⟩
    · rw [hgen] at hk
      exact ⟨(env_absent pb p hr k).1 (h.later k hk).1, (env_absent pb p hr k).2 (h.later k hk).2⟩
    · rw [hpc] at hat
      rw [hgen]
      exact ⟨(env_absent pb p hr _).1 (h.now hat).1, (env_absent pb p hr _).2 (h.now hat).2⟩

/-- what a step does to the writer of a connection -/
inductive WriterMove (k : ℕ) (s s' : Manager) (took : List Queued) : Prop
  | none (hwriter : s'.writer k = s.writer k) (hwritten : s'.written k = s.written k) (htook : took = [])
  | start (hw : s.writer k = .absent) (hwriter : s'.writer k = .select) (hwritten : s'.written k = s.written k)
      (htook : took = [])
  | take (f : Queued) (hw : s.writer k = .select) (hwriter : s'.writer k = .writing f)
      (hwritten : s'.written k = s.written k) (htook : took = [f])
  | write (f : Queued) (hw : s.writer k = .writing f) (hwriter : s'.writer k = .select)
      (hwritten : s'.written k = s.written k ++ [f]) (htook : took = [])
  | stop (hw : s.writer k = .select ∨ ∃ f, s.writer k = .writing f) (hwriter : s'.writer k = .done)
      (hwritten : s'.written k = s.written k) (htook : took = [])

theorem of_drained (k : ℕ) (o : Outcome) : of (.writer k) (takenTo s (.run o)) = [] := by
  simp only [takenTo]
  split <;> simp [of_singleton]

/-- the actions of a connection's writer, and of its reader -/
def writerOf : Act → Option ℕ
  | .writerTake k | .writerWrite k _ | .writerStop k => some k
  | _ => none

def readerOf : Act → Option ℕ
  | .readerCheck k | .readerRead k _ | .readerPush k | .readerStop k => some k
  | _ => none

theorem other_writer {a : Act} (ha : a.isRun = false) {k : ℕ} (hk : writerOf a ≠ some k) :
    (step pb p s a).writer k = s.writer k ∧ (step pb p s a).written k = s.written k := by
  have hne : ∀ j, writerOf a = some j → k ≠ j := fun j hj e => hk (by rw [hj, e])
  have hmove := step_move pb p (s := s) ha
  generalize step pb p s a = s' at hmove
  cases hmove with
  | @take j _ _ _ _ => exact ⟨Function.update_of_ne (hne _ rfl) _ _, rfl⟩
  | @write j _ _ _ _ _ =>
    exact ⟨Function.update_of_ne (hne _ rfl) _ _, Function.update_of_ne (hne _ rfl) _ _⟩
  | @writeFails j _ _ _ => exact ⟨Function.update_of_ne (hne _ rfl) _ _, rfl⟩
  | @writerStop j _ _ => exact ⟨Function.update_of_ne (hne _ rfl) _ _, rfl⟩
  | _ => exact ⟨rfl, rfl⟩

theorem other_reader {a : Act} (ha : a.isRun = false) {k : ℕ} (hk : readerOf a ≠ some k) :
    (step pb p s a).reader k = s.reader k := by
  have hne : ∀ j, readerOf a = some j → k ≠ j := fun j hj e => hk (by rw [hj, e])
  have hmove := step_move pb p (s := s) ha
  generalize step pb p s a = s' at hmove
  cases hmove with
  | @check j _ _ => exact Function.update_of_ne (hne _ rfl) _ _
  | @read j _ _ => exact Function.update_of_ne (hne _ rfl) _ _
  | @push j _ _ _ => exact Function.update_of_ne (hne _ rfl) _ _
  | @readerStop j _ _ => exact Function.update_of_ne (hne _ rfl) _ _
  | _ => rfl

theorem other_took {a : Act} {k : ℕ} (hk : writerOf a ≠ some k) : of (.writer k) (takenTo s a) = [] := by
  cases a with
  | run o => exact of_drained k o
  | writerTake j =>
    have hne : ¬(Taker.writer j = .writer k) := fun e => hk (by cases e; rfl)
    simp only [takenTo]
    split
    · rw [of_singleton, if_neg hne]
    · rfl
  | _ => rfl

theorem step_writer (hfresh : Fresh s) (k : ℕ) (a : Act) :
    WriterMove k s (step pb p s a) (of (.writer k) (takenTo s a)) := by
  by_cases hk : writerOf a = some k
  · cases a with
    | writerTake j =>
      obtain rfl : j = k := Option.some.inj hk
      cases hw : s.writer j with
      | select =>
        cases hq : s.toNode with
        | nil => apply WriterMove.none <;> simp [step, Manager.writerTake, takenTo, hw, hq]
        | cons f rest =>
          apply WriterMove.take f hw <;> simp [step, Manager.writerTake, takenTo, hw, hq, of_singleton]
      | _ => apply WriterMove.none <;> simp [step, Manager.writerTake, takenTo, hw]
    | writerWrite j ok =>
      obtain rfl : j = k := Option.some.inj hk
      cases hw : s.writer j with
      | writing f =>
        by_cases hok : ok = true ∧ s.closed j = false ∧ f.payload.length ≤ Frame.maxFrameSize
        · apply WriterMove.write f hw <;> simp [step, Manager.writerWrite, takenTo, hw, hok]
        · refine .stop (.inr ⟨f, hw⟩) ?_ ?_ rfl <;> simp [step, Manager.writerWrite, hw, if_neg hok]
      | _ => apply WriterMove.none <;> simp [step, Manager.writerWrite, takenTo, hw]
    | writerStop j =>
      obtain rfl : j = k := Option.some.inj hk
      by_cases hstop : s.writer j = .select ∧ s.ctxOver j = true
      · apply WriterMove.stop (.inl hstop.1) <;> simp [step, takenTo, hstop]
      · apply WriterMove.none <;> first | rfl | simp only [step, if_neg hstop]
    | _ => cases hk
  · cases a with
    | run o =>
      obtain ⟨hwritten, ⟨hwriter, -⟩ | ⟨hpc, hwriter, -⟩⟩ := runStep_parties pb p (s := s) o
      · exact .none (congrFun hwriter k) (congrFun hwritten k) (of_drained k o)
      · by_cases hgen : k = s.gen
        · subst hgen
          refine .start (hfresh.now (.inr hpc)).1 ?_ (congrFun hwritten _) (of_drained _ o)
          rw [step, hwriter, Function.update_self]
        · refine .none ?_ (congrFun hwritten k) (of_drained k o)
          rw [step, hwriter, Function.update_of_ne hgen]
    | _ =>
      obtain ⟨hwriter, hwritten⟩ := other_writer pb p (s := s) rfl hk
      exact .none hwriter hwritten (other_took hk)

theorem writerLog_step {k : ℕ} {s' : Manager} {l took : List Queued} (h : WriterLog s k l) (hmove : WriterMove k s s' took) :
    WriterLog s' k (l ++ took) := by
  obtain ⟨lost, rfl, hlen, hlost⟩ := h
  have hnil : s.writer k ≠ .done → lost = [] := fun hne => by
    by_contra hl
    exact hne (hlost hl)
  cases hmove with
  | none hwriter hwritten htook => exact ⟨lost, by rw [hwriter, hwritten, htook, List.append_nil], hlen, by rwa [hwriter]⟩
  | start hw hwriter hwritten htook =>
    rw [hnil (by simp [hw])]
    exact ⟨[], by simp [hw, hwriter, hwritten, htook, inWriter], Nat.zero_le 1, fun hne => absurd rfl hne⟩
  | take f hw hwriter hwritten htook =>
    rw [hnil (by simp [hw])]
    exact ⟨[], by simp [hw, hwriter, hwritten, htook, inWriter], Nat.zero_le 1, fun hne => absurd rfl hne⟩
  | write f hw hwriter hwritten htook =>
    rw [hnil (by simp [hw])]
    exact ⟨[], by simp [hw, hwriter, hwritten, htook, inWriter], Nat.zero_le 1, fun hne => absurd rfl hne⟩
  | stop hw hwriter hwritten htook =>
    -- the frame in hand, if there is one, is lost
    have hl : lost = [] := hnil (by rcases hw with hw | ⟨f, hw⟩ <;> simp [hw])
    refine ⟨inWriter (s.writer k), by simp [hl, hwriter, hwritten, htook, inWriter], ?_, fun _ => hwriter⟩
    rcases hw with hw | ⟨f, hw⟩ <;> simp [hw, inWriter]

/-- what a step does to the reader of a connection -/
inductive ReaderMove (k : ℕ) (s s' : Manager) (got handed : List Bytes) : Prop
  | same (hreader : s'.reader k = s.reader k) (hgot : got = []) (hhanded : handed = [])
  /-- started, checked, failed or stopped, with no frame in hand -/
  | empty (hr : s.reader k ≠ .done) (hin : inReader (s.reader k) = []) (hout : inReader (s'.reader k) = [])
      (hgot : got = []) (hhanded : handed = [])
  | read (f : Bytes) (hr : s.reader k = .reading) (hreader : s'.reader k = .handing f) (hgot : got = [f])
      (hhanded : handed = [])
  | push (f : Bytes) (hr : s.reader k = .handing f) (hreader : s'.reader k = .top) (hgot : got = []) (hhanded : handed = [f])
  | stop (f : Bytes) (hr : s.reader k = .handing f) (hreader : s'.reader k = .done) (hgot : got = [])
      (hhanded : handed = [])

theorem other_read {a : Act} {k : ℕ} (hk : readerOf a ≠ some k) : of k (read s a) = [] ∧ of k (pushed p s a) = [] := by
  cases a with
  | readerRead j frame =>
    have hne : ¬(j = k) := fun e => hk (by cases e; rfl)
    refine ⟨?_, rfl⟩
    cases frame with
    | none => rfl
    | some f =>
      simp only [read]
      split_ifs
      · rw [of_singleton, if_neg hne]
      · rfl
  | readerPush j =>
    have hne : ¬(j = k) := fun e => hk (by cases e; rfl)
    refine ⟨rfl, ?_⟩
    simp only [pushed]
    split
    · split_ifs
      · rw [of_singleton, if_neg hne]
      · rfl
    · rfl
  | _ => exact ⟨rfl, rfl⟩

theorem step_reader (hfresh : Fresh s) (k : ℕ) (a : Act) :
    ReaderMove k s (step pb p s a) (of k (read s a)) (of k (pushed p s a)) := by
  by_cases hk : readerOf a = some k
  · cases a with
    | readerCheck j =>
      obtain rfl : j = k := Option.some.inj hk
      by_cases hcheck : s.reader j = .top ∧ s.ctxOver j = false
      · apply ReaderMove.empty <;> simp [step, hcheck, inReader, read, pushed]
      · apply ReaderMove.same <;> first | rfl | simp only [step, if_neg hcheck]
    | readerRead j frame =>
      obtain rfl : j = k := Option.some.inj hk
      cases hr : s.reader j with
      | reading =>
        cases frame with
        | none => apply ReaderMove.empty <;> simp [step, Manager.readerRead, hr, inReader, read, pushed]
        | some f => apply ReaderMove.read f hr <;> simp [step, Manager.readerRead, hr, read, pushed, of_singleton]
      | _ =>
        cases frame <;> apply ReaderMove.same <;> simp [step, Manager.readerRead, hr, read, pushed]
    | readerPush j =>
      obtain rfl : j = k := Option.some.inj hk
      cases hr : s.reader j with
      | handing f =>
        by_cases hroom : s.fromNode.length < p.fromBuffer
        · apply ReaderMove.push f hr <;> simp [step, Manager.readerPush, hr, hroom, read, pushed, of_singleton]
        · apply ReaderMove.same <;> simp [step, Manager.readerPush, hr, hroom, read, pushed]
      | _ => apply ReaderMove.same <;> simp [step, Manager.readerPush, hr, read, pushed]
    | readerStop j =>
      obtain rfl : j = k := Option.some.inj hk
      by_cases hover : s.ctxOver j = true
      · cases hr : s.reader j with
        | top => apply ReaderMove.empty <;> simp [step, Manager.readerStop, hr, hover, inReader, read, pushed]
        | handing f => apply ReaderMove.stop f hr <;> simp [step, Manager.readerStop, hr, hover, read, pushed]
        | _ => apply ReaderMove.same <;> simp [step, Manager.readerStop, hr, read, pushed]
      · cases hr : s.reader j <;> apply ReaderMove.same <;> simp [step, Manager.readerStop, hr, hover, read, pushed]
    | _ => cases hk
  · obtain ⟨hgot, hhanded⟩ := other_read p (s := s) hk
    cases a with
    | run o =>
      obtain ⟨-, ⟨-, hreader⟩ | ⟨hpc, -, hreader⟩⟩ := runStep_parties pb p (s := s) o
      · exact .same (congrFun hreader k) hgot hhanded
      · by_cases hgen : k = s.gen
        · subst hgen
          have habsent := (hfresh.now (.inr hpc)).2
          refine .empty (by simp [habsent]) (by simp [habsent, inReader]) ?_ hgot hhanded
          rw [step, hreader, Function.update_self]
          rfl
        · refine .same ?_ hgot hhanded
          rw [step, hreader, Function.update_of_ne hgen]
    | _ => exact .same (other_reader pb p (s := s) rfl hk) hgot hhanded

theorem readerLog_step {k : ℕ} {s' : Manager} {l l' got handed : List Bytes} (h : ReaderLog s k l l')
    (hmove : ReaderMove k s s' got handed) : ReaderLog s' k (l ++ got) (l' ++ handed) := by
  obtain ⟨lost, rfl, hlen, hlost⟩ := h
  have hnil : s.reader k ≠ .done → lost = [] := fun hne => by
    by_contra hl
    exact hne (hlost hl)
  cases hmove with
  | same hreader hgot hhanded => exact ⟨lost, by rw [hreader, hgot, hhanded, List.append_nil, List.append_nil], hlen, by rwa [hreader]⟩
  | empty hr hin hout hgot hhanded =>
    rw [hnil hr]
    exact ⟨[], by simp [hin, hout, hgot, hhanded], Nat.zero_le 1, fun hne => absurd rfl hne⟩
  | read f hr hreader hgot hhanded =>
    rw [hnil (by simp [hr])]
    exact ⟨[], by simp [hr, hreader, hgot, hhanded, inReader], Nat.zero_le 1, fun hne => absurd rfl hne⟩
  | push f hr hreader hgot hhanded =>
    rw [hnil (by simp [hr])]
    exact ⟨[], by simp [hr, hreader, hgot, hhanded, inReader], Nat.zero_le 1, fun hne => absurd rfl hne⟩
  | stop f hr hreader hgot hhanded =>
    rw [hnil (by simp [hr])]
    exact ⟨[f], by simp [hr, hreader, hgot, hhanded, inReader], le_rfl, fun _ => hreader⟩

/-! ## Whole runs -/

theorem reachable_fresh (as : List Act) : Fresh (run (step pb p) (.init p) as) :=
  run_inv_all (I := Fresh) (fun _ a h => step_fresh pb p h a) as (init_fresh p)

/-- what the steps of a run took out of toNode, and so on -/
def runAccepted (as : List Act) : List Queued := emitted (step pb p) (accepted pb p) (.init p) as
def runTakenTo (as : List Act) : List (Taker × Queued) := emitted (step pb p) takenTo (.init p) as
def runRead (as : List Act) : List (ℕ × Bytes) := emitted (step pb p) read (.init p) as
def runPushed (as : List Act) : List (ℕ × Bytes) := emitted (step pb p) (pushed p) (.init p) as
def runTakenFrom (as : List Act) : List (Taker × Bytes) := emitted (step pb p) takenFrom (.init p) as

theorem run_writerLog (k : ℕ) (as : List Act) :
    WriterLog (run (step pb p) (.init p) as) k (of (.writer k) (runTakenTo pb p as)) := by
  induction as using List.reverseRecOn with
  | nil => exact ⟨[], rfl, Nat.zero_le 1, fun hne => absurd rfl hne⟩
  | append_singleton as a ih =>
    rw [run_snoc, runTakenTo, emitted_snoc, of_append]
    exact writerLog_step ih (step_writer pb p (reachable_fresh pb p as) k a)

theorem run_readerLog (k : ℕ) (as : List Act) :
    ReaderLog (run (step pb p) (.init p) as) k (of k (runRead pb p as)) (of k (runPushed pb p as)) := by
  induction as using List.reverseRecOn with
  | nil => exact ⟨[], rfl, Nat.zero_le 1, fun hne => absurd rfl hne⟩
  | append_singleton as a ih =>
    rw [run_snoc, runRead, runPushed, emitted_snoc, emitted_snoc, of_append, of_append]
    exact readerLog_step ih (step_reader pb p (reachable_fresh pb p as) k a)

/-- frames that several writers took were put into toNode as often -/
theorem count_of_le (l : List (Taker × Queued)) (K : Finset ℕ) (f : Queued) :
    ∑ k ∈ K, (of (.writer k) l).count f ≤ (l.map Prod.snd).count f := by
  induction l with
  | nil => simp
  | cons x l ih =>
    obtain ⟨t, g⟩ := x
    have hcons : ∀ k, (of (.writer k) ((t, g) :: l)).count f =
        (of (.writer k) l).count f + if t = .writer k ∧ g = f then 1 else 0 := by
      intro k
      by_cases ht : t = .writer k <;> by_cases hg : g = f <;> simp [of, ht, hg]
    have hone : ∑ k ∈ K, (if t = .writer k ∧ g = f then 1 else 0) ≤ if g = f then 1 else 0 := by
      by_cases hg : g = f
      · cases t with
        | writer j =>
          simp only [hg, Taker.writer.injEq, and_true, Finset.sum_ite_eq, if_true]
          split_ifs <;> simp
        | _ => simp
      · simp [hg]
    calc ∑ k ∈ K, (of (.writer k) ((t, g) :: l)).count f
        = ∑ k ∈ K, (of (.writer k) l).count f + ∑ k ∈ K, (if t = .writer k ∧ g = f then 1 else 0) := by
          rw [← Finset.sum_add_distrib]
          exact Finset.sum_congr rfl fun k _ => hcons k
      _ ≤ (l.map Prod.snd).count f + if g = f then 1 else 0 := Nat.add_le_add ih hone
      _ = (((t, g) :: l).map Prod.snd).count f := by by_cases hg : g = f <;> simp [hg]

/-- the channels keep to their size -/
theorem accepted_room (h : s.toNode.length ≤ p.toBuffer) (a : Act) :
    s.toNode.length + (accepted pb p s a).length ≤ p.toBuffer := by
  have hoffer : ∀ f, s.toNode.length + (offer p s f).length ≤ p.toBuffer := by
    intro f
    unfold offer
    split_ifs with hroom
    · exact hroom
    · exact h
  cases a with
  | send payload => exact hoffer _
  | heartTick k payload =>
    simp only [accepted]
    split_ifs
    · exact hoffer _
    · exact h
  | run o =>
    simp only [accepted]
    split
    · exact hoffer _
    · exact h
  | _ => exact h

theorem pushed_room (h : s.fromNode.length ≤ p.fromBuffer) (a : Act) :
    s.fromNode.length + (pushed p s a).length ≤ p.fromBuffer := by
  cases a with
  | readerPush k =>
    simp only [pushed]
    split
    · split_ifs with hroom
      · exact hroom
      · exact h
    · exact h
  | _ => exact h

theorem step_room (h : s.toNode.length ≤ p.toBuffer ∧ s.fromNode.length ≤ p.fromBuffer) (a : Act) :
    (step pb p s a).toNode.length ≤ p.toBuffer ∧ (step pb p s a).fromNode.length ≤ p.fromBuffer := by
  obtain ⟨hto, hfrom⟩ := step_flow pb p (s := s) a
  have hroomTo := accepted_room pb p h.1 a
  have hroomFrom := pushed_room p h.2 a
  have hlenTo := congrArg List.length hto
  have hlenFrom := congrArg List.length hfrom
  simp only [List.length_append, List.length_map] at hlenTo hlenFrom
  exact ⟨by omega, by omega⟩

theorem reachable_room (as : List Act) :
    (run (step pb p) (.init p) as).toNode.length ≤ p.toBuffer ∧
      (run (step pb p) (.init p) as).fromNode.length ≤ p.fromBuffer :=
  run_inv_all (I := fun s : Manager => s.toNode.length ≤ p.toBuffer ∧ s.fromNode.length ≤ p.fromBuffer)
    (fun _ a h => step_room pb p h a) as ⟨Nat.zero_le _, Nat.zero_le _⟩

/-- toNode passes on what was put into it -/
theorem run_toNode (as : List Act) :
    runAccepted pb p as = (runTakenTo pb p as).map Prod.snd ++ (run (step pb p) (.init p) as).toNode := by
  have hfifo := emitted_fifo (q := Manager.toNode)
    (fun s a _ => (step_flow pb p (s := s) a).1) (along_of_forall (P := fun _ _ => True) (fun _ _ => trivial) (.init p) as)
  rw [emitted_map] at hfifo
  exact hfifo.symm

theorem run_fromNode (as : List Act) :
    (runPushed pb p as).map Prod.snd = (runTakenFrom pb p as).map Prod.snd ++ (run (step pb p) (.init p) as).fromNode := by
  have hfifo := emitted_fifo (q := Manager.fromNode)
    (fun s a _ => (step_flow pb p (s := s) a).2)
    (along_of_forall (P := fun _ _ => True) (fun _ _ => trivial) (.init p) as)
  rw [emitted_map, emitted_map] at hfifo
  exact hfifo.symm

/-- **To the node.** In every interleaving of the connection manager, its goroutines, and whoever calls Send:
- the frames accepted into toNode are, in order, those taken out of it, by the writers and by drainChannels, and those still
  in it, which never exceed its size;
- what a connection's writer took it has written, in that order, up to the frame it is writing; it loses one frame at most,
  and then it has ended;
- so every connection writes accepted frames in the order in which they were accepted, and all connections together write
  none more often than it was accepted. -/
theorem frames_to_node (as : List Act) :
    let s := run (step pb p) (.init p) as
    runAccepted pb p as = (runTakenTo pb p as).map Prod.snd ++ s.toNode ∧ s.toNode.length ≤ p.toBuffer ∧
    (∀ k, WriterLog s k (of (.writer k) (runTakenTo pb p as))) ∧
    (∀ k, (s.written k).Sublist (runAccepted pb p as)) ∧
    ∀ (K : Finset ℕ) (f : Queued), ∑ k ∈ K, (s.written k).count f ≤ (runAccepted pb p as).count f := by
  intro s
  have hfifo := run_toNode pb p as
  have hlog := fun k => run_writerLog pb p k as
  have hwritten : ∀ k, (s.written k).Sublist (of (.writer k) (runTakenTo pb p as)) := by
    intro k
    obtain ⟨lost, htook, -, -⟩ := hlog k
    rw [htook, List.append_assoc]
    exact List.sublist_append_left _ _
  have htaken : ((runTakenTo pb p as).map Prod.snd).Sublist (runAccepted pb p as) := by
    rw [hfifo]
    exact List.sublist_append_left _ _
  refine ⟨hfifo, (reachable_room pb p as).1, hlog, fun k => ?_, fun K f => ?_⟩
  · exact (hwritten k).trans ((of_sublist _ _).trans htaken)
  · calc ∑ k ∈ K, (s.written k).count f
        ≤ ∑ k ∈ K, (of (.writer k) (runTakenTo pb p as)).count f :=
          Finset.sum_le_sum fun k _ => (hwritten k).count_le f
      _ ≤ ((runTakenTo pb p as).map Prod.snd).count f := count_of_le _ K f
      _ ≤ (runAccepted pb p as).count f := htaken.count_le f

/-- **From the node.** In every interleaving:
- the frames put into fromNode are, in order, those taken out of it, by the hub and by drainChannels, and those still in it,
  which never exceed its size;
- what a connection's reader read it has handed over, in that order, up to the frame at the hand-over; it loses one frame at
  most, and then it has ended;
- so the hub receives no frame more often than it was read. -/
theorem frames_from_node (as : List Act) :
    let s := run (step pb p) (.init p) as
    (runPushed pb p as).map Prod.snd = (runTakenFrom pb p as).map Prod.snd ++ s.fromNode ∧
    s.fromNode.length ≤ p.fromBuffer ∧
    (∀ k, ReaderLog s k (of k (runRead pb p as)) (of k (runPushed pb p as))) ∧
    (runPushed pb p as).Subperm (runRead pb p as) ∧
    (of .hub (runTakenFrom pb p as)).Subperm ((runRead pb p as).map Prod.snd) := by
  intro s
  have hfifo := run_fromNode pb p as
  have hlog := fun k => run_readerLog pb p k as
  have hpushed : (runPushed pb p as).Subperm (runRead pb p as) := by
    refine subperm_of fun k => ?_
    obtain ⟨lost, hread, -, -⟩ := hlog k
    rw [hread, List.append_assoc]
    exact List.sublist_append_left _ _
  refine ⟨hfifo, (reachable_room pb p as).2, hlog, hpushed, ?_⟩
  have hhub : (of .hub (runTakenFrom pb p as)).Sublist ((runPushed pb p as).map Prod.snd) := by
    rw [hfifo]
    exact (of_sublist _ _).trans (List.sublist_append_left _ _)
  obtain ⟨l, hperm, hsub⟩ := hpushed
  exact hhub.subperm.trans ⟨l.map Prod.snd, hperm.map _, hsub.map _⟩

end MeshProxy.Accounting
