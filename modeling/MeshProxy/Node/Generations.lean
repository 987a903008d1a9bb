/-
Loops of earlier connections (`internal/node/connection.go`: Run, runConnection, readLoop, writeLoop, heartbeatLoop).

runConnection returns on the first error of a loop and does not wait for the other two, so a loop of connection k may
still run when connection k+1 is stored. `World` is the machine of Link with what the readers of several connections
share: the config cache. Every readLoop has its own `collectingConfig` and `configFrames`; a frame it reads goes through
the round of ConfigCache over the shared cache, and a published collection is followed by the post-config heartbeat.

- `quiet_inert`: a loop that is past its last select or read has no effect any more;
- `generations_do_not_overlap`: if every earlier loop is past that point whenever a connection is stored, frames are taken
  and written for the stored connection only, and no earlier loop touches the channels or the cache.
-/
import MeshProxy.Node.ConfigCache
import MeshProxy.Node.Link

namespace MeshProxy.Generations

open MeshProxy.Proto MeshProxy.Decode MeshProxy.Trace MeshProxy.GoSlice MeshProxy.Link
open MeshProxy.ConfigCache (Cache)
open MeshProxy.Frame (Bytes)

/-! ## The machine -/

/-- the manager, the shared cache and the locals of the readLoops -/
structure World where
  link : Manager
  heap : Heap Bytes
  configCacheHdr : Slice
  myNodeNum : UInt32
  collectingConfig : ℕ → Bool
  configFramesHdr : ℕ → Slice

variable (pb : Codec) (p : Params) (grow : ℕ → ℕ)

namespace World

def init : World where
  link := .init p
  heap := []
  configCacheHdr := .nil
  myNodeNum := 0
  collectingConfig := fun _ => false
  configFramesHdr := fun _ => .nil

/-- the cache as the readLoop of connection k sees it -/
def cacheOf (k : ℕ) (w : World) : Cache :=
  ⟨w.heap, w.configCacheHdr, w.collectingConfig k, w.configFramesHdr k, w.myNodeNum⟩

def setCache (k : ℕ) (c : Cache) (w : World) : World :=
  { w with
    heap := c.heap
    configCacheHdr := c.configCacheHdr
    myNodeNum := c.myNodeNum
    collectingConfig := Function.update w.collectingConfig k c.collectingConfig
    configFramesHdr := Function.update w.configFramesHdr k c.configFramesHdr }

/-- `ConfigCache` -/
def configCache (w : World) : List Bytes := read w.heap w.configCacheHdr

/-- `sendPostConfigHeartbeat` -/
def sendPostConfigHeartbeat (w : World) : World :=
  match pb.marshalToRadio { variant := .heartbeat [] } with
  | none => w
  | some data => { w with link := w.link.send p ⟨.sent, data⟩ }

/-- what the readLoop of connection k does with a frame before the hand-over -/
def process (k : ℕ) (now : UInt32) (payload : Bytes) (w : World) : World :=
  let w' := w.setCache k ((w.cacheOf k).onFrame pb grow now payload)
  if (decodeFromRadio pb payload).type = .configCompleteId ∧ w.collectingConfig k = true then
    w'.sendPostConfigHeartbeat pb p
  else w'

end World

/-- a step of Link with the clock's reading; a reader that has read a frame works on it -/
def step (w : World) (a : Act × UInt32) : World :=
  let w' := { w with link := Link.step pb p w.link a.1 }
  match a.1 with
  | .readerRead k (some f) => if w.link.reader k = .reading then w'.process pb p grow k a.2 f else w'
  | _ => w'

/-! ## The property and the condition -/

/-- the connection whose readLoop or heartbeatLoop takes the step -/
def loopOf : Act → Option ℕ
  | .readerCheck k | .readerRead k _ | .readerPush k | .readerStop k | .heartTick k _ | .heartStop k => some k
  | _ => none

/-- the step keeps to the stored connection: a frame is taken by its writeLoop and written to it only, and a readLoop or
heartbeatLoop of an earlier connection leaves the channels and the cache alone -/
structure Clean (w : World) (a : Act × UInt32) : Prop where
  takes : ∀ k, a.1 = .writerTake k → (step pb p grow w a).link.toNode ≠ w.link.toNode → k = w.link.gen
  writes : ∀ k, k ≠ w.link.gen → (step pb p grow w a).link.written k = w.link.written k
  loops : ∀ k, loopOf a.1 = some k → k ≠ w.link.gen →
    (step pb p grow w a).link.toNode = w.link.toNode ∧ (step pb p grow w a).link.fromNode = w.link.fromNode ∧
      (step pb p grow w a).configCache = w.configCache

/-- no loop of connection k is where it can still do something: a writeLoop at its select, a readLoop inside ReadFrame or
at the hand-over, a heartbeatLoop at its select -/
def Over (s : Manager) (k : ℕ) : Prop :=
  s.writer k ≠ .select ∧ (s.reader k = .absent ∨ s.reader k = .top ∨ s.reader k = .done) ∧ s.heart k ≠ .select

/-- the step stores a new connection -/
def stores (w : World) (a : Act × UInt32) : Bool :=
  match a.1 with
  | .run o => w.link.pc = .dialing ∧ o.dialOk = true
  | _ => false

/-- the condition: when a connection is stored, the loops of the earlier ones are over -/
def Joined (w : World) (a : Act × UInt32) : Prop := stores w a = true → ∀ k ≤ w.link.gen, Over w.link k

instance (s : Manager) (k : ℕ) : Decidable (Over s k) := inferInstanceAs (Decidable (_ ∧ _))

instance (w : World) (a : Act × UInt32) : Decidable (Joined w a) := inferInstanceAs (Decidable (_ = true → _))

/-! ## Loops that are over stay over -/

/-- a loop that is over, with what makes its last steps fail: its connection is closed and its context done -/
structure Quiet (s : Manager) (k : ℕ) : Prop where
  writer : s.writer k = .absent ∨ s.writer k = .done ∨ ∃ f, s.writer k = .writing f ∧ s.closed k = true
  reader : s.reader k = .absent ∨ s.reader k = .done ∨ (s.reader k = .top ∧ s.ctxDone k = true)
  heart : s.heart k = .absent ∨ s.heart k = .done

variable {s : Manager} {k : ℕ}

theorem Quiet.not_select (h : Quiet s k) : s.writer k ≠ .select := by
  rcases h.writer with e | e | ⟨f, e, -⟩ <;> rw [e] <;> simp

/-- the connection of a loop that is over is closed, so it does not write -/
theorem Quiet.not_writing (h : Quiet s k) (hopen : s.closed k = false) (f : Queued) : s.writer k ≠ .writing f := by
  intro hw
  rcases h.writer with e | e | ⟨f', -, hclosed⟩
  · rw [e] at hw; cases hw
  · rw [e] at hw; cases hw
  · rw [hclosed] at hopen; cases hopen

/-- its context is done, so it does not go on to read -/
theorem Quiet.not_top (h : Quiet s k) (hgoes : s.ctxOver k = false) : s.reader k ≠ .top := by
  intro hr
  rcases h.reader with e | e | ⟨-, hdone⟩
  · rw [e] at hr; cases hr
  · rw [e] at hr; cases hr
  · simp [Manager.ctxOver, hdone] at hgoes

theorem Quiet.not_reading (h : Quiet s k) : s.reader k ≠ .reading ∧ ∀ f, s.reader k ≠ .handing f := by
  rcases h.reader with e | e | ⟨e, -⟩ <;> rw [e] <;> simp

theorem Quiet.not_beating (h : Quiet s k) : s.heart k ≠ .select := by
  rcases h.heart with e | e <;> rw [e] <;> simp

theorem Quiet.congr {s' : Manager} (h : Quiet s k) (hw : s'.writer k = s.writer k) (hr : s'.reader k = s.reader k)
    (hh : s'.heart k = s.heart k) (hc : s'.closed k = s.closed k) (hd : s'.ctxDone k = s.ctxDone k) : Quiet s' k :=
  ⟨by rw [hw, hc]; exact h.writer, by rw [hr, hd]; exact h.reader, by rw [hh]; exact h.heart⟩

theorem Quiet.setWriter (h : Quiet s k) {j : ℕ} {x : Writer} (hj : j = k → x = .done) :
    Quiet { s with writer := Function.update s.writer j x } k := by
  refine ⟨?_, h.reader, h.heart⟩
  by_cases hjk : k = j
  · subst hjk
    right; left
    simp [hj rfl]
  · simpa [Function.update_of_ne hjk] using h.writer

theorem Quiet.setReader (h : Quiet s k) {j : ℕ} {x : Reader} (hj : j = k → x = .done) :
    Quiet { s with reader := Function.update s.reader j x } k := by
  refine ⟨h.writer, ?_, h.heart⟩
  by_cases hjk : k = j
  · subst hjk
    right; left
    simp [hj rfl]
  · simpa [Function.update_of_ne hjk] using h.reader

theorem Quiet.setHeart (h : Quiet s k) {j : ℕ} {x : Heart} (hj : j = k → x = .done) :
    Quiet { s with heart := Function.update s.heart j x } k := by
  refine ⟨h.writer, h.reader, ?_⟩
  by_cases hjk : k = j
  · subst hjk
    right
    simp [hj rfl]
  · simpa [Function.update_of_ne hjk] using h.heart

theorem Quiet.send (h : Quiet s k) (f : Queued) : Quiet (s.send p f) k := by
  unfold Manager.send
  split_ifs
  · exact h.congr rfl rfl rfl rfl rfl
  · exact h

/-- the steps of the loops keep a loop over -/
theorem Quiet.env (h : Quiet s k) {a : Act} (ha : a.isRun = false) : Quiet (Link.step pb p s a) k := by
  have hmove := step_move pb p (s := s) ha
  generalize Link.step pb p s a = s' at hmove
  cases hmove with
  | idle => exact h
  | cancel => exact h.congr rfl rfl rfl rfl rfl
  | hubRecv => exact h.congr rfl rfl rfl rfl rfl
  | send b hroom => exact h.congr rfl rfl rfl rfl rfl
  | beat b hh hroom => exact h.congr rfl rfl rfl rfl rfl
  | @take j f rest hw hq =>
    refine (h.setWriter (j := j) (x := .writing f) ?_).congr rfl rfl rfl rfl rfl
    rintro rfl
    exact absurd hw h.not_select
  | @write j f ok hw hopen hsize =>
    refine (h.setWriter (j := j) (x := .select) ?_).congr rfl rfl rfl rfl rfl
    rintro rfl
    exact absurd hw (h.not_writing hopen f)
  | writeFails ok hw => exact h.setWriter fun _ => rfl
  | writerStop hw hover => exact h.setWriter fun _ => rfl
  | @check j hr hgoes =>
    apply h.setReader
    rintro rfl
    exact absurd hr (h.not_top hgoes)
  | @read j frame hr =>
    apply h.setReader
    rintro rfl
    exact absurd hr h.not_reading.1
  | @push j f hr hroom =>
    refine (h.setReader (j := j) (x := .top) ?_).congr rfl rfl rfl rfl rfl
    rintro rfl
    exact absurd hr (h.not_reading.2 f)
  | readerStop hr hover => exact h.setReader fun _ => rfl
  | heartStop hh hover => exact h.setHeart fun _ => rfl

/-- the only loops Run starts, cancels or closes are those of the stored connection -/
theorem Quiet.run (h : Quiet s k) (hk : k ≠ s.gen) (o : Outcome) : Quiet (s.runStep pb p o) k := by
  have hwait : Quiet (s.wait p o) k := by
    unfold Manager.wait
    split_ifs <;> exact h.congr rfl rfl rfl rfl rfl
  unfold Manager.runStep
  split
  · split_ifs <;> exact h.congr rfl rfl rfl rfl rfl
  · split_ifs <;> exact h.congr rfl rfl rfl rfl rfl
  · exact hwait
  · unfold Manager.requestConfig
    split
    · exact h.congr rfl rfl rfl rfl rfl
    · exact (h.send p _).congr rfl rfl rfl rfl rfl
  · refine h.congr ?_ ?_ ?_ rfl rfl
    · simp [Manager.spawn, Function.update_of_ne hk]
    · simp [Manager.spawn, Function.update_of_ne hk]
    · simp only [Manager.spawn]
      split_ifs
      · simp [Function.update_of_ne hk]
      · rfl
  · split_ifs
    · exact h.congr rfl rfl rfl rfl (by simp [Function.update_of_ne hk])
    · exact h
  · exact h.congr rfl rfl rfl (by simp [Function.update_of_ne hk]) rfl
  · split_ifs <;> exact h.congr rfl rfl rfl rfl rfl
  · split
    · exact h
    · exact h.congr rfl rfl rfl rfl rfl
  · split_ifs <;> exact h.congr rfl rfl rfl rfl rfl
  · split
    · exact h
    · exact h.congr rfl rfl rfl rfl rfl
  · exact hwait
  · exact h

/-! ## The invariant -/

/-- the positions of Run between closing a connection and storing the next -/
def between : Pc → Bool
  | .drainTo | .drainToRecv | .drainFrom | .drainFromRecv | .backoff | .top | .dialing | .dialFailed => true
  | _ => false

structure Inv (s : Manager) : Prop where
  others : ∀ k, k ≠ s.gen → Quiet s k
  returned : s.pc = .returned → s.ctxDone s.gen = true
  offline : between s.pc = true → (s.closed s.gen = true ∧ s.ctxDone s.gen = true) ∨ Quiet s s.gen

theorem inv_init : Inv (.init p) where
  others := fun _ _ => ⟨Or.inl rfl, Or.inl rfl, Or.inl rfl⟩
  returned := fun h => by cases h
  offline := fun _ => Or.inr ⟨Or.inl rfl, Or.inl rfl, Or.inl rfl⟩

/-- on a closed connection with a done context, a loop that is over is quiet -/
theorem quiet_of_over (h : Over s k) (hc : s.closed k = true) (hd : s.ctxDone k = true) : Quiet s k := by
  obtain ⟨hw, hr, hh⟩ := h
  constructor
  · cases hwk : s.writer k with
    | absent => exact Or.inl rfl
    | select => exact absurd hwk hw
    | writing f => exact Or.inr (Or.inr ⟨f, rfl, hc⟩)
    | done => exact Or.inr (Or.inl rfl)
  · rcases hr with e | e | e
    · exact Or.inl e
    · exact Or.inr (Or.inr ⟨e, hd⟩)
    · exact Or.inr (Or.inl e)
  · cases hhk : s.heart k with
    | absent => exact Or.inl rfl
    | select => exact absurd hhk hh
    | done => exact Or.inr rfl

theorem Inv.env (h : Inv s) {a : Act} (ha : a.isRun = false) : Inv (Link.step pb p s a) := by
  obtain ⟨hpc, hgen, hclosed, hdone⟩ := step_env pb p (s := s) ha
  refine ⟨?_, ?_, ?_⟩
  · intro k hk
    exact (h.others k (hgen ▸ hk)).env pb p ha
  · rw [hpc, hdone, hgen]
    exact h.returned
  · rw [hpc, hgen, hclosed, hdone]
    intro hoff
    rcases h.offline hoff with hq | hq
    · exact Or.inl hq
    · exact Or.inr (hq.env pb p ha)

/-- a step of Run to a position where nothing is asked, with the connections as they are -/
theorem Inv.online {s' : Manager} (h : Inv s) (hgen : s'.gen = s.gen) (hothers : ∀ k, k ≠ s.gen → Quiet s k → Quiet s' k)
    (hret : s'.pc ≠ .returned) (hoff : between s'.pc = false) : Inv s' := by
  refine ⟨?_, fun hr => absurd hr hret, fun ho => by rw [hoff] at ho; cases ho⟩
  intro k hk
  rw [hgen] at hk
  exact hothers k hk (h.others k hk)

/-- a step of Run from one offline position to another, with the connections as they are -/
theorem Inv.stays_offline (h : Inv s) (hpc : between s.pc = true) {pc : Pc} (hret : pc ≠ .returned) (toNode : List Queued)
    (fromNode : List Bytes) (backoff : ℤ) :
    Inv { s with pc := pc, toNode := toNode, fromNode := fromNode, backoff := backoff } := by
  have hquiet (k : ℕ) (hq : Quiet s k) :
      Quiet { s with pc := pc, toNode := toNode, fromNode := fromNode, backoff := backoff } k :=
    hq.congr rfl rfl rfl rfl rfl
  refine ⟨fun k hk => hquiet k (h.others k hk), fun hr => absurd hr hret, fun _ => ?_⟩
  rcases h.offline hpc with hq | hq
  · exact Or.inl hq
  · exact Or.inr (hquiet _ hq)

theorem Inv.wait (h : Inv s) (hpc : between s.pc = true) (o : Outcome) : Inv (s.wait p o) := by
  unfold Manager.wait
  split_ifs
  · exact h.stays_offline hpc (by simp) _ _ _
  · exact h.stays_offline hpc (by simp) _ _ _

/-- storing a connection when the earlier loops are over -/
theorem Inv.dial (h : Inv s) (hpc : s.pc = .dialing) (hover : Over s s.gen) :
    Inv { s with pc := .stored, gen := s.gen + 1, backoff := p.reconnectInterval } := by
  refine ⟨?_, fun hr => by simp at hr, fun ho => by simp [between] at ho⟩
  intro k _
  have hk : Quiet s k := by
    by_cases hgen : k = s.gen
    · rw [hgen]
      rcases h.offline (by rw [hpc]; rfl) with ⟨hc, hd⟩ | hq
      · exact quiet_of_over hover hc hd
      · exact hq
    · exact h.others k hgen
  exact hk.congr rfl rfl rfl rfl rfl

theorem Inv.run (h : Inv s) (o : Outcome) (hjoin : s.pc = .dialing → o.dialOk = true → Over s s.gen) :
    Inv (s.runStep pb p o) := by
  have hquiet (k : ℕ) (hk : k ≠ s.gen) (hq : Quiet s k) : Quiet (s.runStep pb p o) k := hq.run pb p hk o
  unfold Manager.runStep at hquiet ⊢
  split at hquiet <;> rename_i hpc
  · split_ifs
    · exact h.stays_offline (by rw [hpc]; rfl) (by simp) _ _ _
    · exact h.stays_offline (by rw [hpc]; rfl) (by simp) _ _ _
  · split_ifs with hok
    · exact h.dial p hpc (hjoin hpc hok)
    · exact h.stays_offline (by rw [hpc]; rfl) (by simp) _ _ _
  · exact h.wait p (by rw [hpc]; rfl) o
  · refine h.online ?_ hquiet (by simp) rfl
    unfold Manager.requestConfig Manager.send
    split
    · rfl
    · split_ifs <;> rfl
  · exact h.online rfl hquiet (by simp) rfl
  · split_ifs at hquiet ⊢
    · refine ⟨fun k hk => hquiet k hk (h.others k hk), fun _ => by simp, fun ho => by simp [between] at ho⟩
    · exact h
  · refine ⟨fun k hk => hquiet k hk (h.others k hk), fun hr => by simp at hr, fun _ => Or.inl ⟨by simp, h.returned hpc⟩⟩
  · split_ifs
    · exact h.stays_offline (by rw [hpc]; rfl) (by simp) _ _ _
    · exact h.stays_offline (by rw [hpc]; rfl) (by simp) _ _ _
  · split
    · exact h
    · exact h.stays_offline (by rw [hpc]; rfl) (by simp) _ _ _
  · split_ifs
    · exact h.stays_offline (by rw [hpc]; rfl) (by simp) _ _ _
    · exact h.stays_offline (by rw [hpc]; rfl) (by simp) _ _ _
  · split
    · exact h
    · exact h.stays_offline (by rw [hpc]; rfl) (by simp) _ _ _
  · exact h.wait p (by rw [hpc]; rfl) o
  · exact h

/-! ## Steps of the world -/

/-- **A loop that is over leaves the channels alone.** -/
theorem quiet_channels (h : Quiet s k) {a : Act} (ha : a = .writerTake k ∨ loopOf a = some k) :
    (Link.step pb p s a).toNode = s.toNode ∧ (Link.step pb p s a).fromNode = s.fromNode := by
  have hother : a.isRun = false := by
    rcases ha with rfl | ha
    · rfl
    · cases a <;> first | rfl | cases ha
  have hmove := step_move pb p (s := s) hother
  generalize Link.step pb p s a = s' at hmove
  cases hmove with
  | hubRecv => simp [loopOf] at ha
  | send b hroom => simp [loopOf] at ha
  | @beat j b hh hroom =>
    obtain rfl : j = k := by simpa [loopOf] using ha
    exact absurd hh h.not_beating
  | @take j f rest hw hq =>
    obtain rfl : j = k := by simpa [loopOf] using ha
    exact absurd hw h.not_select
  | @push j f hr hroom =>
    obtain rfl : j = k := by simpa [loopOf] using ha
    exact absurd hr (h.not_reading.2 f)
  | _ => exact ⟨rfl, rfl⟩

theorem send_written (f : Queued) : (s.send p f).written = s.written := by
  unfold Manager.send
  split_ifs <;> rfl

theorem runStep_written (o : Outcome) : (s.runStep pb p o).written = s.written := by
  have hwait : (s.wait p o).written = s.written := by
    unfold Manager.wait
    split_ifs <;> rfl
  unfold Manager.runStep
  split
  · split_ifs <;> rfl
  · split_ifs <;> rfl
  · exact hwait
  · unfold Manager.requestConfig
    split
    · rfl
    · exact send_written p _
  · rfl
  · split_ifs <;> rfl
  · rfl
  · split_ifs <;> rfl
  · split <;> rfl
  · split_ifs <;> rfl
  · split <;> rfl
  · exact hwait
  · rfl

/-- nothing is written to a connection whose loops are over -/
theorem quiet_written (h : Quiet s k) (a : Act) : (Link.step pb p s a).written k = s.written k := by
  cases hr : a.isRun with
  | true =>
    cases a <;> cases hr
    exact congrFun (runStep_written pb p _) k
  | false =>
    have hmove := step_move pb p (s := s) hr
    generalize Link.step pb p s a = s' at hmove
    cases hmove with
    | @write j f ok hw hopen hsize =>
      have hjk : k ≠ j := by
        rintro rfl
        exact absurd hw (h.not_writing hopen f)
      exact Function.update_of_ne hjk _ _
    | _ => rfl

variable {w : World}

/-- the manager after a step: Link's own step, at most with a heartbeat queued after it -/
theorem step_link (a : Act × UInt32) :
    (step pb p grow w a).link = Link.step pb p w.link a.1 ∨
      ((∃ k f, a.1 = .readerRead k (some f)) ∧
        ∃ data, (step pb p grow w a).link = (Link.step pb p w.link a.1).send p ⟨.sent, data⟩) := by
  obtain ⟨a, now⟩ := a
  simp only [step]
  split
  · rename_i k f
    split_ifs
    · unfold World.process
      simp only
      split_ifs
      · unfold World.sendPostConfigHeartbeat
        split
        · exact Or.inl rfl
        · rename_i data _
          exact Or.inr ⟨⟨k, f, rfl⟩, data, rfl⟩
      · exact Or.inl rfl
    · exact Or.inl rfl
  · exact Or.inl rfl

theorem step_inv (h : Inv w.link) {a : Act × UInt32} (ha : Joined w a) : Inv (step pb p grow w a).link := by
  have hlink : Inv (Link.step pb p w.link a.1) := by
    cases hr : a.1.isRun with
    | true =>
      obtain ⟨a, now⟩ := a
      cases a <;> cases hr
      rename_i o
      refine h.run pb p o ?_
      intro hpc hok
      exact ha (by simp [stores, hpc, hok]) _ le_rfl
    | false => exact h.env pb p hr
  rcases step_link pb p grow (w := w) a with e | ⟨-, data, e⟩
  · rw [e]
    exact hlink
  · rw [e]
    exact hlink.env pb p (a := .send data) rfl

/-- a readLoop that is over has no frame to work on: the step is Link's own -/
theorem step_quiet (h : Quiet w.link k) {a : Act} (ha : a = .writerTake k ∨ loopOf a = some k) (now : UInt32) :
    step pb p grow w (a, now) = { w with link := Link.step pb p w.link a } := by
  simp only [step]
  split
  · rename_i j f
    obtain rfl : j = k := by simpa [loopOf] using ha
    rw [if_neg h.not_reading.1]
  · rfl

theorem step_clean (h : Inv w.link) (a : Act × UInt32) : Clean pb p grow w a := by
  obtain ⟨a, now⟩ := a
  refine ⟨?_, ?_, ?_⟩
  · rintro k rfl htake
    by_contra hk
    apply htake
    rw [step_quiet pb p grow (h.others k hk) (Or.inl rfl)]
    exact (quiet_channels pb p (h.others k hk) (Or.inl rfl)).1
  · intro k hk
    have hw := quiet_written pb p (h.others k hk) a
    rcases step_link pb p grow (w := w) (a, now) with e | ⟨-, data, e⟩
    · rw [e]
      exact hw
    · rw [e, send_written]
      exact hw
  · intro k hloop hk
    obtain ⟨hto, hfrom⟩ := quiet_channels pb p (h.others k hk) (Or.inr hloop)
    rw [step_quiet pb p grow (h.others k hk) (Or.inr hloop)]
    exact ⟨hto, hfrom, rfl⟩

/-- **Connection generations do not overlap**, in every run in which the loops of the earlier connections are over
whenever a connection is stored: every step of the run keeps to the stored connection. -/
theorem generations_do_not_overlap (as : List (Act × UInt32))
    (h : Along (step pb p grow) Joined (.init p) as) : Along (step pb p grow) (Clean pb p grow) (.init p) as := by
  have hinv := h.and_inv (I := fun w : World => Inv w.link) (fun _ _ hw ha => step_inv pb p grow hw ha) (inv_init p)
  exact hinv.imp fun _ a hw => step_clean pb p grow hw.2 a

/-! ### Two connections -/

/-- the first connection is established, and its reader fails -/
def firstFails : List Act := connectSteps ++ [.writerTake 1, .writerWrite 1 true, .readerCheck 1, .readerRead 1 none]

/-- Run notices, closes, drains the empty channels, waits and dials again -/
def redials : List Act := [.run {}, .run {}, .run {}, .run {}, .run {}, .run {}, .run {}]

def clocked (as : List Act) : List (Act × UInt32) := as.map fun a => (a, 1)

/-- the writer and the heartbeat of connection 1 have seen their context before connection 2 is stored -/
def joinedTrace : List Act :=
  firstFails ++ [.run {}, .writerStop 1, .heartStop 1] ++ redials.drop 1 ++ [.run { nonce := 5 }, .run {}, .writerTake 2]

theorem generations_joined :
    (run (step linkCodec defaultParams id) (.init defaultParams) (clocked joinedTrace)).link.gen = 2 ∧
      Along (step linkCodec defaultParams id) (Clean linkCodec defaultParams id) (.init defaultParams)
        (clocked joinedTrace) :=
  ⟨by decide +kernel, generations_do_not_overlap linkCodec defaultParams id (clocked joinedTrace) (by decide +kernel)⟩

/-- the writer of connection 1 is still at its select when connection 2 has queued its handshake: it takes the handshake,
and its write fails on the closed connection -/
theorem old_writer_takes_handshake :
    (run (step linkCodec defaultParams id) (.init defaultParams)
      (clocked (firstFails ++ redials ++ [.run { nonce := 5 }]))).link.gen = 2 ∧
    ¬ Clean linkCodec defaultParams id (run (step linkCodec defaultParams id) (.init defaultParams)
      (clocked (firstFails ++ redials ++ [.run { nonce := 5 }]))) (.writerTake 1, 1) ∧
    (run (step linkCodec defaultParams id) (.init defaultParams)
      (clocked (firstFails ++ redials ++ [.run { nonce := 5 }, .writerTake 1]))).link.writer 1 =
        .writing ⟨.handshake 2, [0x18, 5]⟩ := by
  refine ⟨by decide +kernel, ?_, by decide +kernel⟩
  intro h
  exact absurd (h.takes 1 rfl (by decide +kernel)) (by decide +kernel)

end MeshProxy.Generations
