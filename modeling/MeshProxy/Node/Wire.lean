/-
The bytes between the proxy and the node (`internal/node/connection.go`: writeLoop, readLoop; `internal/protocol/frame.go`).

Each connection of the manager (Node.Link) has a stream of bytes either way. WriteFrame hands one frame to a single Write; a
Write that fails may have sent any part of it. The reader's ReadFrame returns once a whole frame is there, or fails at any
moment; what the node sends is arbitrary and arrives in pieces of any size. Frames are those of Node.Accounting.

- `step_inv`: what has gone out on a connection are the frames its writer took, whole up to the last;
- `node_reads_accepted`: whatever the node has read of a connection, it has the payloads that were accepted, in order;
- `proxy_reads_node`: whatever the node has sent, the reader hands over the first payloads that are in it.
-/
import MeshProxy.Node.Accounting
import MeshProxy.Protocol.Stream

namespace MeshProxy.Wire

open MeshProxy.Accounting MeshProxy.Frame MeshProxy.Link MeshProxy.Proto MeshProxy.Tagged MeshProxy.Trace

variable (pb : Codec) (p : Params)

/-! ## The machine -/

/-- the manager, and of each connection the bytes written, the bytes that have come in and those not read yet -/
structure Wired where
  m : Manager
  out : ℕ → Bytes
  arrived : ℕ → Bytes
  unread : ℕ → Bytes

def init : Wired := ⟨.init p, fun _ => [], fun _ => [], fun _ => []⟩

inductive Act where
  /-- a step of the manager other than WriteFrame and ReadFrame -/
  | other (a : Link.Act)
  /-- WriteFrame; how much of the frame a failing Write sends -/
  | write (k : ℕ) (ok : Bool) (cut : ℕ)
  | arrive (k : ℕ) (x : Bytes)
  /-- ReadFrame returns a frame, or fails -/
  | read (k : ℕ)
  | readFails (k : ℕ)

def isIO : Link.Act → Bool
  | .writerWrite _ _ | .readerRead _ _ => true
  | _ => false

/-- the bytes of a WriteFrame -/
def sent (s : Manager) (k : ℕ) (ok : Bool) (cut : ℕ) : Bytes :=
  match s.writer k with
  | .writing f =>
    if f.payload.length > maxFrameSize then []
    else if s.closed k then []
    else if ok then frameOf f.payload
    else (frameOf f.payload).take cut
  | _ => []

/-- the manager's action -/
def linkAct (s : Wired) : Act → List Link.Act
  | .other a => if isIO a then [] else [a]
  | .write k ok _ => [.writerWrite k ok]
  | .arrive _ _ => []
  | .read k =>
    match s.m.reader k, readFrame (s.unread k) with
    | .reading, (.ok f, _) => [.readerRead k (some f)]
    | _, _ => []
  | .readFails k => [.readerRead k none]

def step (s : Wired) (a : Act) : Wired :=
  let m := run (Link.step pb p) s.m (linkAct s a)
  match a with
  | .write k ok cut => { s with m, out := Function.update s.out k (s.out k ++ sent s.m k ok cut) }
  | .arrive k x =>
    { s with
      m
      arrived := Function.update s.arrived k (s.arrived k ++ x)
      unread := Function.update s.unread k (s.unread k ++ x) }
  | .read k =>
    match s.m.reader k, readFrame (s.unread k) with
    | .reading, (.ok _, rest) => { s with m, unread := Function.update s.unread k rest }
    | _, _ => { s with m }
  | _ => { s with m }

/-- the manager's part of a run -/
def linkActs (as : List Act) : List Link.Act := emitted (step pb p) linkAct (init p) as

theorem step_m (s : Wired) (a : Act) : (step pb p s a).m = run (Link.step pb p) s.m (linkAct s a) := by
  cases a with
  | read k =>
    simp only [step]
    split <;> rfl
  | _ => rfl

theorem run_m (as : List Act) : (run (step pb p) (init p) as).m = run (Link.step pb p) (.init p) (linkActs pb p as) :=
  run_emitted (f := Wired.m) (step_m pb p) (init p) as

/-! ## What goes out -/

/-- the frames of a list, whole -/
def frames (l : List Queued) : Bytes := l.flatMap fun f => frameOf f.payload

/-- what has gone out on connection k: the frames written, and maybe the beginning of the one with which the writer ended -/
structure OutLog (s : Wired) (k : ℕ) (took : List Queued) : Prop where
  small : ∀ f ∈ s.m.written k, f.payload.length ≤ maxFrameSize
  out : ∃ cut, s.out k = frames (s.m.written k) ++ cut ∧ (cut = [] ∨ s.m.writer k = .done ∧
    ∃ f, took = s.m.written k ++ [f] ∧ f.payload.length ≤ maxFrameSize ∧ cut <+: frameOf f.payload)

/-- what has come in on connection k, and the frames read from it -/
def InLog (s : Wired) (k : ℕ) (got : List Bytes) : Prop := Reads (s.arrived k) got (s.unread k)

variable {s : Wired} {k : ℕ}

/-- of the manager's steps only the writer's WriteFrame writes -/
theorem written_of_ne {m : Manager} {a : Link.Act} (ha : ∀ ok, a ≠ .writerWrite k ok) :
    (Link.step pb p m a).written k = m.written k := by
  cases hrun : a.isRun with
  | true =>
    cases a with
    | run o => exact congrFun (runStep_parties pb p (s := m) o).1 k
    | _ => cases hrun
  | false =>
    have hmove := step_move pb p (s := m) hrun
    generalize Link.step pb p m a = m' at hmove
    cases hmove with
    | @write j f ok hw hopen hsize =>
      have hne : k ≠ j := fun e => ha ok (e ▸ rfl)
      exact Function.update_of_ne hne _ _
    | _ => rfl

/-- a step that is not WriteFrame on connection k -/
theorem step_quiet (a : Act) (ha : ∀ ok cut, a ≠ .write k ok cut) :
    (step pb p s a).out k = s.out k ∧
      (linkAct s a = [] ∨ ∃ la, linkAct s a = [la] ∧ ∀ ok, la ≠ .writerWrite k ok) := by
  cases a with
  | other la =>
    refine ⟨rfl, ?_⟩
    simp only [linkAct]
    split_ifs with hio
    · exact .inl rfl
    · exact .inr ⟨la, rfl, fun ok e => hio (by rw [e]; rfl)⟩
  | write j ok cut =>
    have hne : k ≠ j := fun e => ha ok cut (e ▸ rfl)
    exact ⟨Function.update_of_ne hne _ _, .inr ⟨_, rfl, fun ok' e => hne (by cases e; rfl)⟩⟩
  | arrive j x => exact ⟨rfl, .inl rfl⟩
  | read j =>
    simp only [step, linkAct]
    split
    · exact ⟨rfl, .inr ⟨_, rfl, by simp⟩⟩
    · exact ⟨rfl, .inl rfl⟩
  | readFails j => exact ⟨rfl, .inr ⟨_, rfl, by simp⟩⟩

theorem OutLog.quiet {took new : List Queued} (h : OutLog s k took) {s' : Wired} (hout : s'.out k = s.out k)
    (hwritten : s'.m.written k = s.m.written k) (hmove : WriterMove k s.m s'.m new) : OutLog s' k (took ++ new) := by
  obtain ⟨hsmall, cut, hcut, hend⟩ := h
  refine ⟨by rwa [hwritten], cut, by rw [hout, hcut, hwritten], ?_⟩
  rcases hend with rfl | ⟨hdone, hlost⟩
  · exact .inl rfl
  · -- a writer that has ended takes nothing and does not come back
    cases hmove with
    | none hwriter _ hnew =>
      rw [hwriter, hwritten, hnew, List.append_nil]
      exact .inr ⟨hdone, hlost⟩
    | start hw => simp [hw] at hdone
    | take f hw => simp [hw] at hdone
    | write f hw => simp [hw] at hdone
    | stop hw => rcases hw with hw | ⟨f, hw⟩ <;> simp [hw] at hdone

theorem frames_concat (l : List Queued) (f : Queued) : frames (l ++ [f]) = frames l ++ frameOf f.payload := by
  simp [frames]

/-- WriteFrame -/
theorem OutLog.write {took : List Queued} (h : OutLog s k took) (hlog : WriterLog s.m k took) (ok : Bool) (cut : ℕ) :
    OutLog (step pb p s (.write k ok cut)) k took := by
  obtain ⟨hsmall, before, hbefore, hend⟩ := h
  have hout : (step pb p s (.write k ok cut)).out k = s.out k ++ sent s.m k ok cut := Function.update_self k _ s.out
  have hm : (step pb p s (.write k ok cut)).m = s.m.writerWrite k ok := rfl
  cases hw : s.m.writer k with
  | writing f =>
    have hcut : before = [] := by
      rcases hend with hnil | ⟨hdone, -⟩
      · exact hnil
      · simp [hw] at hdone
    subst hcut
    have htook : took = s.m.written k ++ [f] := by
      obtain ⟨lost, hl, -, hlost⟩ := hlog
      have hnone : lost = [] := by
        by_contra hne
        simpa [hw] using hlost hne
      simpa [hnone, hw, inWriter] using hl
    rw [List.append_nil] at hbefore
    by_cases hok : ok = true ∧ s.m.closed k = false ∧ f.payload.length ≤ maxFrameSize
    · have hwritten : (step pb p s (.write k ok cut)).m.written k = s.m.written k ++ [f] := by
        rw [hm]
        simp only [Manager.writerWrite, hw, if_pos hok, Function.update_self]
      have hsent : sent s.m k ok cut = frameOf f.payload := by
        simp [sent, hw, hok.1, hok.2.1, Nat.not_lt.2 hok.2.2]
      refine ⟨?_, [], ?_, .inl rfl⟩
      · rw [hwritten]
        intro g hg
        rcases List.mem_append.1 hg with hg | hg
        · exact hsmall g hg
        · rw [List.mem_singleton.1 hg]
          exact hok.2.2
      · rw [hout, hwritten, hsent, hbefore, frames_concat, List.append_nil]
    · have hwritten : (step pb p s (.write k ok cut)).m.written k = s.m.written k := by
        simp [hm, Manager.writerWrite, hw, if_neg hok]
      have hdone : (step pb p s (.write k ok cut)).m.writer k = .done := by
        simp [hm, Manager.writerWrite, hw, if_neg hok]
      refine ⟨by rwa [hwritten], sent s.m k ok cut, by rw [hout, hwritten, hbefore], ?_⟩
      rw [hwritten]
      simp only [sent, hw]
      split_ifs with hbig hclosed hfine
      · exact .inl rfl
      · exact .inl rfl
      · exact absurd ⟨hfine, by simpa using hclosed, Nat.not_lt.1 hbig⟩ hok
      · exact .inr ⟨hdone, f, htook, Nat.not_lt.1 hbig, List.take_prefix _ _⟩
  | _ =>
    have hsame : s.m.writerWrite k ok = s.m := by simp [Manager.writerWrite, hw]
    have hsent : sent s.m k ok cut = [] := by simp [sent, hw]
    refine ⟨?_, before, ?_, ?_⟩
    · rwa [hm, hsame]
    · rw [hout, hm, hsame, hsent, List.append_nil, hbefore]
    · rwa [hm, hsame]

/-! ## What comes in -/

theorem InLog.step {got : List Bytes} (h : InLog s k got) (a : Act) :
    InLog (step pb p s a) k (got ++ of k (emitted (Link.step pb p) Accounting.read s.m (linkAct s a))) := by
  unfold InLog at h ⊢
  cases a with
  | other la =>
    have hread : of k (emitted (Link.step pb p) Accounting.read s.m (linkAct s (.other la))) = [] := by
      simp only [linkAct]
      split_ifs with hio
      · rfl
      · cases la <;> simp_all [emitted, Accounting.read, isIO]
    rw [hread, List.append_nil]
    exact h
  | write j ok cut => simpa [Wire.step, linkAct, emitted, Accounting.read] using h
  | readFails j => simpa [Wire.step, linkAct, emitted, Accounting.read] using h
  | arrive j x =>
    rw [linkAct, emitted, of_nil, List.append_nil]
    by_cases hj : k = j
    · subst hj
      simpa [Wire.step] using h.arrive x
    · simpa [Wire.step, Function.update_of_ne hj] using h
  | read j =>
    simp only [Wire.step, linkAct]
    split
    · rename_i f rest hreading hframe
      by_cases hj : k = j
      · subst hj
        simpa [emitted, Accounting.read, hreading] using h.next hframe
      · have hj' : ¬(j = k) := fun e => hj e.symm
        simpa [emitted, Accounting.read, hreading, Function.update_of_ne hj, of_singleton, hj'] using h
    · simpa [emitted] using h

/-! ## Results -/

theorem linkActs_snoc (as : List Act) (a : Act) :
    linkActs pb p (as ++ [a]) = linkActs pb p as ++ linkAct (run (step pb p) (init p) as) a :=
  emitted_snoc linkAct (init p) as a

/-- the frames that connection k's writer took in a run, and those its reader read -/
def took (as : List Act) (k : ℕ) : List Queued := of (.writer k) (runTakenTo pb p (linkActs pb p as))
def got (as : List Act) (k : ℕ) : List Bytes := of k (runRead pb p (linkActs pb p as))

theorem run_outLog (as : List Act) : OutLog (run (step pb p) (init p) as) k (took pb p as k) := by
  induction as using List.reverseRecOn with
  | nil => exact ⟨fun f hf => absurd hf List.not_mem_nil, [], rfl, .inl rfl⟩
  | append_singleton as a ih =>
    have hm := run_m pb p as
    have hfresh : Fresh (run (step pb p) (init p) as).m := hm ▸ reachable_fresh pb p _
    have hlog : WriterLog (run (step pb p) (init p) as).m k (took pb p as k) := hm ▸ run_writerLog pb p k _
    rw [run_snoc, took, linkActs_snoc, runTakenTo, emitted_append, of_append, ← hm]
    change OutLog _ k (took pb p as k ++ _)
    generalize run (step pb p) (init p) as = s at ih hfresh hlog
    by_cases hwrite : ∃ ok cut, a = .write k ok cut
    · obtain ⟨ok, cut, rfl⟩ := hwrite
      simpa [linkAct, emitted, takenTo] using ih.write pb p hlog ok cut
    · obtain ⟨hout, hacts | ⟨la, hacts, hla⟩⟩ := step_quiet pb p a fun ok cut e => hwrite ⟨ok, cut, e⟩
      · have hsame : (step pb p s a).m = s.m := by rw [step_m, hacts, run_nil]
        refine ih.quiet hout (by rw [hsame]) (.none (by rw [hsame]) (by rw [hsame]) ?_)
        rw [hacts]
        rfl
      · have hstep : (step pb p s a).m = Link.step pb p s.m la := by rw [step_m, hacts, run_cons, run_nil]
        have hmove := step_writer pb p hfresh k la
        refine ih.quiet hout ?_ ?_
        · rw [hstep, written_of_ne pb p hla]
        · simpa [hstep, hacts, emitted] using hmove

theorem run_inLog (as : List Act) : InLog (run (step pb p) (init p) as) k (got pb p as k) := by
  induction as using List.reverseRecOn with
  | nil => exact .start []
  | append_singleton as a ih =>
    rw [run_snoc, got, linkActs_snoc, runRead, emitted_append, of_append, ← run_m pb p as]
    exact InLog.step pb p ih a

/-- the payloads of a list of frames that a reader returns -/
def payloads (l : List Queued) : List Bytes := (l.map (·.payload)).filter fun q => decide (Accepted q)

theorem frames_eq (l : List Queued) : frames l = Frame.frames (l.map (·.payload)) := by
  rw [frames, Frame.frames, List.flatMap_map]

theorem payload_small {l : List Queued} (hl : ∀ f ∈ l, f.payload.length ≤ maxFrameSize) :
    ∀ q ∈ l.map (·.payload), q.length ≤ maxFrameSize := by
  intro q hq
  obtain ⟨f, hf, rfl⟩ := List.mem_map.1 hq
  exact hl f hf

/-- the frames of a list, whole and cut off, as the stream library has them -/
theorem readAll_written {l : List Queued} (hl : ∀ f ∈ l, f.payload.length ≤ maxFrameSize) :
    (readAll (frames l)).1 = payloads l := by
  rw [frames_eq, readAll_whole (payload_small hl)]
  rfl

theorem readAll_sent {l : List Queued} (hl : ∀ f ∈ l, f.payload.length ≤ maxFrameSize) {x : Bytes}
    (hx : x <+: frames l) : (readAll x).1 <+: payloads l :=
  readAll_cut (payload_small hl) (frames_eq l ▸ hx)

/-- **The node reads what was accepted.** In every interleaving, with any splitting and loss of the bytes, and at every point
of a connection's stream: ReadFrame there has given the node the first of the payloads that the connection's writer took,
whole and unchanged, whatever bytes they hold; those are, in order, payloads accepted into toNode; and once the node has
all the bytes it has every frame whose WriteFrame has succeeded. -/
theorem node_reads_accepted (as : List Act) (k n : ℕ) :
    let w := run (step pb p) (init p) as
    (readAll ((w.out k).take n)).1 <+: payloads (took pb p as k) ∧
    (took pb p as k).Sublist (runAccepted pb p (linkActs pb p as)) ∧
    payloads (w.m.written k) <+: (readAll (w.out k)).1 := by
  intro w
  obtain ⟨hsmall, cut, hout, hend⟩ : OutLog w k (took pb p as k) := run_outLog pb p as
  have htaken : (took pb p as k).Sublist (runAccepted pb p (linkActs pb p as)) := by
    have hfifo := run_toNode pb p (linkActs pb p as)
    rw [hfifo]
    exact (of_sublist _ _).trans (List.sublist_append_left _ _)
  refine ⟨?_, htaken, ?_⟩
  · have hpart : (w.out k).take n <+: w.out k := List.take_prefix n _
    rcases hend with rfl | ⟨-, f, htook, hf, hcut⟩
    · rw [List.append_nil] at hout
      have hlog : WriterLog w.m k (took pb p as k) := by
        rw [show w.m = _ from run_m pb p as]
        exact run_writerLog pb p k _
      obtain ⟨lost, htook, -, -⟩ := hlog
      rw [htook, payloads, List.map_append, List.map_append, List.filter_append, List.filter_append, List.append_assoc]
      exact (readAll_sent hsmall (hpart.trans (by rw [hout]))).trans (List.prefix_append _ _)
    · rw [htook]
      apply readAll_sent
      · intro g hg
        rcases List.mem_append.1 hg with hg | hg
        · exact hsmall g hg
        · rwa [List.mem_singleton.1 hg]
      · rw [frames_concat]
        exact hpart.trans (hout ▸ (List.prefix_append_right_inj _).2 hcut)
  · rw [← readAll_written hsmall, hout]
    exact readAll_prefix _ cut

/-- **The proxy reads what the node sent.** In every interleaving, and however the node's bytes arrive: of the payloads that
ReadFrame finds in them, a connection's reader has got the first ones, the others being whole or in part in what it has not
read; and it puts into fromNode what it has got, in order, up to the last. -/
theorem proxy_reads_node (as : List Act) (k : ℕ) :
    let w := run (step pb p) (init p) as
    let handed := of k (runPushed pb p (linkActs pb p as))
    (readAll (w.arrived k)).1 = got pb p as k ++ (readAll (w.unread k)).1 ∧
    handed <+: got pb p as k ∧ (got pb p as k).length ≤ handed.length + 1 := by
  intro w handed
  have hlog : ReaderLog w.m k (got pb p as k) handed := by
    rw [show w.m = _ from run_m pb p as]
    exact run_readerLog pb p k _
  obtain ⟨lost, hgot, hlen, hlost⟩ := hlog
  refine ⟨(run_inLog pb p as).got_eq, ?_, ?_⟩
  · rw [hgot, List.append_assoc]
    exact List.prefix_append _ _
  · rw [hgot]
    cases hr : w.m.reader k with
    | handing f =>
      have hnone : lost = [] := by
        by_contra hne
        simpa [hr] using hlost hne
      simp [hnone, inReader]
    | _ =>
      simp only [inReader, List.append_nil, List.length_append]
      omega

end MeshProxy.Wire
