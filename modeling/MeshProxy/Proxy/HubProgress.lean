/-
Broadcasts return (`internal/proxy`: broadcast, broadcastToOthers over the machine of HubLocks).

`work` bounds what is left of a goroutine's instructions; an instruction that is not waiting lowers it. A broadcast goes
through three phases: it asks for the read lock, it is queued behind a writer, it reads. A queued one is brought nearer by
every reader that the writer waits for and then by the writer itself, and no later caller gets in between.

- `exec_work`, `exec_waits`: an instruction lowers the work of its goroutine exactly if the goroutine waits for nobody;
- `Inv.progress`: if a goroutine is not idle, some goroutine can go on;
- `broadcast_returns`: in a fair run inside the condition every broadcast returns;
- `hub_lock_discipline`: no request of a held lock, no deadlock, every broadcast returns, as long as no broadcast meets a
  full channel;
- `step_stuck`: a goroutine that waits for its own read lock waits for ever;
- `broadcast_requests_held_lock`: outside it a slow consumer is enough for a goroutine to wait for itself.
-/
import MeshProxy.Proxy.HubLocks

namespace MeshProxy.HubLocks

open MeshProxy.Locks MeshProxy.Trace
open MeshProxy.Frame (Bytes)

variable (p : Params)

/-! ## Work -/

/-- a bound on the instructions that an instruction turns into -/
def cost : Instr → ℕ
  | .sendAll _ _ => 7 * p.maxClients + 1
  | .closeAll => 6 * p.maxClients + 2
  | .send _ _ => 7
  | .close _ => 6
  | _ => 1

def work (k : List Instr) : ℕ := (k.map (cost p)).sum

@[simp] theorem work_nil : work p [] = 0 := rfl

@[simp] theorem work_cons (i : Instr) (k : List Instr) : work p (i :: k) = cost p i + work p k := by simp [work]

@[simp] theorem work_append (k k' : List Instr) : work p (k ++ k') = work p k + work p k' := by simp [work]

theorem cost_pos (i : Instr) : 0 < cost p i := by cases i <;> simp [cost]

theorem work_sends (cs : List ℕ) (payload : Bytes) : work p (cs.map fun c => .send c payload) = 7 * cs.length := by
  induction cs with
  | nil => rfl
  | cons c cs ih => simp only [List.map_cons, work_cons, ih, cost, List.length_cons]; omega

theorem work_closes (cs : List ℕ) : work p (cs.map .close) = 6 * cs.length := by
  induction cs with
  | nil => rfl
  | cons c cs ih => simp only [List.map_cons, work_cons, ih, cost, List.length_cons]; omega

theorem length_iteration (s : Hub) (order : List ℕ) : (s.iteration order).length = s.clients.length := by
  unfold Hub.iteration
  split_ifs with h
  · exact (List.isPerm_iff.1 h).length_eq
  · rfl

variable {p} {s : Hub}

/-- a goroutine that waits stays where it is -/
theorem exec_waits {g g' : ℕ} (hw : WaitsFor s g g') (order : List ℕ) : s.exec p g order = s := by
  unfold WaitsFor at hw
  split at hw
  · rename_i k hs
    simp only [Hub.exec, hs, if_pos hw.1]
  · rename_i k hs
    simp only [Hub.exec, hs, hw, reduceCtorEq, if_false]
  · rename_i k hs
    simp only [Hub.exec, hs, if_neg (List.ne_nil_of_mem hw)]
  · rename_i c k hs
    simp only [Hub.exec, hs, hw]
  · exact absurd hw id

/-- a goroutine that waits for nobody gets on -/
theorem exec_work (h : Inv p s) {g : ℕ} (hne : s.stack g ≠ []) (hfree : ∀ g', ¬WaitsFor s g g') (order : List ℕ) :
    work p ((s.exec p g order).stack g) < work p (s.stack g) := by
  have hlen := length_iteration s order
  have hroom := h.room
  cases hs : s.stack g with
  | nil => exact absurd hs hne
  | cons i k =>
    simp only [WaitsFor, hs] at hfree
    have pop : work p k < work p (i :: k) := by
      have := cost_pos p i
      rw [work_cons]
      omega
    cases i with
    | rwait =>
      have hq : g ∉ s.mu.waiting := by
        intro hq
        obtain ⟨w, hw⟩ := Option.ne_none_iff_exists'.1 (h.mu.queue g hq)
        exact hfree w ⟨hq, hw⟩
      simpa only [Hub.exec, hs, if_neg hq, Hub.goto, Function.update_self] using pop
    | lock =>
      have hn : s.mu.writer = none := by
        by_contra hn
        obtain ⟨w, hw⟩ := Option.ne_none_iff_exists'.1 hn
        exact hfree w hw
      simpa only [Hub.exec, hs, if_pos hn, Hub.goto, Function.update_self] using pop
    | lockWait =>
      have hr : s.mu.readers = [] := List.eq_nil_iff_forall_not_mem.2 hfree
      simpa only [Hub.exec, hs, if_pos hr, Hub.goto, Function.update_self] using pop
    | close c =>
      simp only [Hub.exec, hs]
      split
      · simp only [Hub.goto, Function.update_self, closeBody, unregisterClient, List.cons_append, List.nil_append,
          work_cons, cost]
        omega
      · rename_i g' hrun
        exact absurd hrun (hfree g')
      · simpa only [Hub.goto, Function.update_self] using pop
    | send c payload =>
      simp only [Hub.exec, hs]
      split_ifs
      · simpa only [Hub.goto, Function.update_self] using pop
      · simp only [Hub.goto, Function.update_self, work_cons, cost]
        omega
    | sendAll payload sender =>
      have hle := List.length_filter_le (fun c => decide (some c ≠ sender)) (s.iteration order)
      simp only [Hub.exec, hs, Hub.goto, Function.update_self, work_append, work_sends, work_cons, cost]
      omega
    | closeAll =>
      simp only [Hub.exec, hs, Hub.goto, Function.update_self, work_append, work_closes, work_cons, cost]
      omega
    | register c =>
      simp only [Hub.exec, hs]
      split_ifs <;> simpa only [Hub.goto, Function.update_self] using pop
    | rlock | runlock | unlock | onceDone c | delete c =>
      simpa only [Hub.exec, hs, Hub.goto, Function.update_self] using pop

/-- no instruction adds work to a goroutine that has some -/
theorem exec_work_le (h : Inv p s) (g : ℕ) (order : List ℕ) (x : ℕ) :
    work p ((s.exec p g order).stack x) ≤ work p (s.stack x) := by
  by_cases hx : x = g
  · subst hx
    by_cases hne : s.stack x = []
    · have hsame : s.exec p x order = s := by simp only [Hub.exec, hne]
      rw [hsame]
    · by_cases hw : ∃ g', WaitsFor s x g'
      · obtain ⟨g', hw⟩ := hw
        rw [exec_waits hw]
      · exact (exec_work h hne (not_exists.1 hw) order).le
  · rw [exec_stack_of_ne hx]

/-- **Progress.** If a goroutine is not idle, some goroutine can go on. -/
theorem Inv.progress (h : Inv p s) (hbusy : ∃ g, s.stack g ≠ []) :
    ∃ g, s.stack g ≠ [] ∧ ∀ g', ¬WaitsFor s g g' := by
  by_contra hall
  push Not at hall
  refine h.no_deadlock ⟨{g | s.stack g ≠ []}, hbusy, ?_⟩
  intro g hg
  obtain ⟨g', hw⟩ := hall g hg
  exact ⟨g', (h.waits_rank hw).2, hw⟩

theorem Inv.reader_free (h : Inv p s) {g : ℕ} (hr : g ∈ s.mu.readers) (g' : ℕ) : ¬WaitsFor s g g' := by
  intro hw
  have hlt := (h.waits_rank hw).1
  rw [(h.rank_reader hr).1] at hlt
  exact absurd hlt (Nat.not_lt_zero _)

/-! ## The phases of a broadcast -/

/-- what is left of a broadcast or a broadcastToOthers -/
inductive InBroadcast : List Instr → Prop where
  | start (payload : Bytes) (sender : Option ℕ) : InBroadcast [.rlock, .rwait, .sendAll payload sender, .runlock]
  | wait (payload : Bytes) (sender : Option ℕ) : InBroadcast [.rwait, .sendAll payload sender, .runlock]
  | all (payload : Bytes) (sender : Option ℕ) : InBroadcast [.sendAll payload sender, .runlock]
  | sending (cs : List ℕ) (payload : Bytes) : InBroadcast (cs.map (fun c => .send c payload) ++ [.runlock])

theorem InBroadcast.ne_nil {k : List Instr} (h : InBroadcast k) : k ≠ [] := by
  cases h <;> simp

def Asking (g : ℕ) (s : Hub) : Prop := InBroadcast (s.stack g) ∧ s.mu.mode g = .free

def Queued (g : ℕ) (s : Hub) : Prop := InBroadcast (s.stack g) ∧ g ∈ s.mu.waiting

def Reading (g : ℕ) (s : Hub) : Prop := InBroadcast (s.stack g) ∧ g ∈ s.mu.readers

/-- a broadcast holds no write lock -/
theorem Inv.phases (h : Inv p s) {g : ℕ} (hb : InBroadcast (s.stack g)) : Asking g s ∨ Queued g s ∨ Reading g s := by
  have huses := h.uses g
  have hm : s.mu.mode g = .free ∨ s.mu.mode g = .queued ∨ s.mu.mode g = .reading := by
    generalize s.stack g = k at hb huses
    cases hb with
    | start payload sender => exact Or.inl huses.1
    | wait payload sender => exact Or.inr huses.1
    | all payload sender => exact Or.inr (Or.inr huses.1)
    | sending cs payload =>
      cases cs with
      | nil => exact Or.inr (Or.inr huses.1)
      | cons c cs => exact huses.1.imp_right Or.inr
  rcases hm with hm | hm | hm
  · exact Or.inl ⟨hb, hm⟩
  · exact Or.inr (Or.inl ⟨hb, h.mu.mode_queued.1 hm⟩)
  · exact Or.inr (Or.inr ⟨hb, h.mu.mode_reading.1 hm⟩)

/-- a goroutine that is still free is at the start of its broadcast -/
theorem Inv.asking_start (h : Inv p s) {g : ℕ} (ha : Asking g s) :
    ∃ payload sender, s.stack g = [.rlock, .rwait, .sendAll payload sender, .runlock] := by
  obtain ⟨hb, hm⟩ := ha
  have huses := h.uses g
  rw [hm] at huses
  generalize s.stack g = k at hb huses
  cases hb with
  | start payload sender => exact ⟨payload, sender, rfl⟩
  | wait payload sender => rcases huses.1 with h | h <;> cases h
  | all payload sender => cases huses.1
  | sending cs payload =>
    exfalso
    induction cs with
    | nil => cases huses.1
    | cons c cs ih => exact ih huses.2

/-- a queued broadcast waits for the writer -/
theorem Inv.queued_waits (h : Inv p s) {g w : ℕ} (hq : Queued g s) (hw : s.mu.writer = some w) : WaitsFor s g w := by
  obtain ⟨hb, hwait⟩ := hq
  unfold WaitsFor
  have huses := h.uses g
  rw [h.mu.mode_queued.2 hwait] at huses
  generalize s.stack g = k at hb huses
  cases hb with
  | start payload sender => cases huses.1
  | wait payload sender => exact ⟨hwait, hw⟩
  | all payload sender => cases huses.1
  | sending cs payload =>
    cases cs with
    | nil => cases huses.1
    | cons c cs => rcases huses.1 with e | e <;> cases e

/-- a broadcast that sends has the read lock -/
theorem Inv.sending_reads (h : Inv p s) {g c : ℕ} {payload : Bytes} {k : List Instr} (hb : InBroadcast (s.stack g))
    (hs : s.stack g = .send c payload :: k) : g ∈ s.mu.readers := by
  rcases h.phases hb with ha | hq | hr
  · obtain ⟨payload', sender, hs'⟩ := h.asking_start ha
    rw [hs] at hs'
    cases hs'
  · have huses := h.uses g
    rw [h.mu.mode_queued.2 hq.2, hs] at huses
    rcases huses.1 with e | e <;> cases e
  · exact hr.2

/-- action `a` is a step of goroutine g -/
def Acts (g : ℕ) (a : Act) : Prop := ∃ order, a = .exec g order

/-- every goroutine is scheduled again and again -/
def Fair (as : ℕ → Act) : Prop := ∀ g n, ∃ m, n ≤ m ∧ Acts g (as m)

/-- a call changes what the caller has to do, if it was idle -/
theorem call_stack_of_ne {g x : ℕ} (hx : g ≠ x) (f : Call) : (s.call x f).stack g = s.stack g := by
  unfold Hub.call
  split_ifs
  · cases f with
    | send c payload | close c => dsimp only; split_ifs <;> simp [Hub.goto, hx]
    | _ => simp [Hub.goto, hx]
  · rfl

theorem call_busy {g : ℕ} (hne : s.stack g ≠ []) (f : Call) : s.call g f = s := if_neg hne

/-- nobody else changes what a busy goroutine has to do -/
theorem step_stack {g : ℕ} (hne : s.stack g ≠ []) {a : Act} (ha : ¬Acts g a) : (step p s a).stack g = s.stack g := by
  cases a with
  | exec x order =>
    have hx : g ≠ x := by
      rintro rfl
      exact ha ⟨order, rfl⟩
    exact exec_stack_of_ne hx order
  | take c => rfl
  | call x f =>
    by_cases hx : g = x
    · subst hx
      rw [step, call_busy hne]
    · exact call_stack_of_ne hx f

/-- nor its mode, except by letting it in -/
theorem step_mode (h : Inv p s) {g : ℕ} {a : Act} (ha : ¬Acts g a) :
    (step p s a).mu.mode g = s.mu.mode g ∨ (s.mu.mode g = .queued ∧ (step p s a).mu.mode g = .reading) := by
  cases a with
  | exec x order =>
    have hx : g ≠ x := by
      rintro rfl
      exact ha ⟨order, rfl⟩
    exact (exec_mutex h x order).2 g hx
  | take c => exact Or.inl rfl
  | call x f =>
    left
    simp only [step, call_mu]

/-- the broadcast goes on under the read lock -/
theorem exec_reading (h : Inv p s) {g : ℕ} {order : List ℕ} (hcond : NoFullBroadcast p s (.exec g order))
    (hr : Reading g s) : (s.exec p g order).stack g = [] ∨ Reading g (s.exec p g order) := by
  obtain ⟨hb, hin⟩ := hr
  have huses := h.uses g
  rw [h.mu.mode_reading.2 hin] at huses
  generalize hs : s.stack g = k at hb huses
  cases hb with
  | start payload sender => cases huses.1
  | wait payload sender =>
    have hq : g ∉ s.mu.waiting := fun hq => h.mu.disjoint g hq hin
    right
    simp only [Reading, Hub.exec, hs, if_neg hq, Hub.goto, Function.update_self]
    exact ⟨.all payload sender, hin⟩
  | all payload sender =>
    right
    simp only [Reading, Hub.exec, hs, Hub.goto, Function.update_self]
    exact ⟨.sending _ payload, hin⟩
  | sending cs payload =>
    cases cs with
    | nil =>
      left
      have hs' : s.stack g = [.runlock] := hs
      simp only [Hub.exec, hs', Hub.goto, Function.update_self]
    | cons c cs =>
      right
      have hs' : s.stack g = .send c payload :: (cs.map (fun c => Instr.send c payload) ++ [Instr.runlock]) := hs
      simp only [NoFullBroadcast, hs'] at hcond
      simp only [Reading, Hub.exec, hs', if_pos (hcond hin), Hub.goto, Function.update_self]
      exact ⟨.sending cs payload, hin⟩

/-- inside the condition a broadcast goes on until it has returned -/
theorem exec_inBroadcast (h : Inv p s) {g : ℕ} {order : List ℕ} (hcond : NoFullBroadcast p s (.exec g order))
    (hb : InBroadcast (s.stack g)) :
    (s.exec p g order).stack g = [] ∨ InBroadcast ((s.exec p g order).stack g) := by
  rcases h.phases hb with ha | hq | hr
  · obtain ⟨payload, sender, hs⟩ := h.asking_start ha
    right
    simp only [Hub.exec, hs, Hub.goto, Function.update_self]
    exact .wait payload sender
  · obtain ⟨w, hw⟩ := Option.ne_none_iff_exists'.1 (h.mu.queue g hq.2)
    rw [exec_waits (h.queued_waits hq hw)]
    exact Or.inr hb
  · exact (exec_reading h hcond hr).imp_right And.left

/-! ## Behind a writer -/

/-- while a writer has announced itself, the readers it waits for can only become fewer, until it has let the queue in -/
theorem exec_behind (h : Inv p s) {w : ℕ} (hw : s.mu.writer = some w) (x : ℕ) (order : List ℕ) :
    ((s.exec p x order).mu.writer = some w ∧ (s.exec p x order).mu.readers = s.mu.readers ∧
      s.mu.waiting ⊆ (s.exec p x order).mu.waiting) ∨
    (x ∈ s.mu.readers ∧ (s.exec p x order).mu.writer = some w ∧
      (s.exec p x order).mu.readers = s.mu.readers.erase x ∧ s.mu.waiting ⊆ (s.exec p x order).mu.waiting) ∨
    (x = w ∧ s.mu.waiting ⊆ (s.exec p x order).mu.readers) := by
  have huses := h.uses x
  have same : (s.mu.writer = some w ∧ s.mu.readers = s.mu.readers ∧ s.mu.waiting ⊆ s.mu.waiting) :=
    ⟨hw, rfl, List.Subset.refl _⟩
  cases hs : s.stack x with
  | nil =>
    left
    simpa [Hub.exec, hs] using hw
  | cons i k =>
    rw [hs] at huses
    cases i with
    | rlock =>
      left
      simp [Hub.exec, hs, Hub.goto, RWMutex.rlock, hw]
    | runlock =>
      right; left
      simp only [Hub.exec, hs, Hub.goto, RWMutex.runlock]
      exact ⟨h.mu.mode_reading.1 huses.1, hw, trivial, List.Subset.refl _⟩
    | lock =>
      left
      simp only [Hub.exec, hs, hw, reduceCtorEq, if_false]
      exact ⟨trivial, trivial, List.Subset.refl _⟩
    | lockWait =>
      left
      simp only [Hub.exec, hs]
      split_ifs
      · exact same
      · exact same
    | unlock =>
      right; right
      have hx := (RWMutex.mode_writing.1 huses.1).1
      rw [hw] at hx
      refine ⟨(Option.some.inj hx).symm, ?_⟩
      simp only [Hub.exec, hs, Hub.goto, RWMutex.unlock]
      exact List.subset_append_left _ _
    | rwait | send c payload | register c =>
      left
      simp only [Hub.exec, hs]
      split_ifs <;> exact same
    | close c =>
      left
      simp only [Hub.exec, hs]
      split <;> exact same
    | sendAll payload sender | closeAll | onceDone c | delete c =>
      left
      simp only [Hub.exec, hs]
      exact same

variable (p) in
/-- the work in front of the queue: the readers', then the writer's -/
def backlog (s : Hub) : ℕ :=
  (s.mu.readers.map fun r => work p (s.stack r)).sum + s.mu.writer.elim 0 fun w => work p (s.stack w)

/-- a goroutine whose next step shortens the backlog -/
def Helps (x : ℕ) (s : Hub) : Prop := x ∈ s.mu.readers ∨ (s.mu.readers = [] ∧ s.mu.writer = some x)

theorem Inv.helps_free (h : Inv p s) {x : ℕ} (hx : Helps x s) (g' : ℕ) : ¬WaitsFor s x g' := by
  rcases hx with hr | ⟨hnil, hw⟩
  · exact h.reader_free hr g'
  · intro hwait
    have hlt := h.waits_rank hwait
    have hone := (h.rank_writer hw).1
    -- a writer at rank one waits for a reader, and there is none
    unfold WaitsFor at hwait
    split at hwait
    · rename_i k hs
      exact (h.mu.writer x hw).2 hwait.1
    · rename_i k hs
      simp [rank, hs] at hone
    · rw [hnil] at hwait
      cases hwait
    · rename_i c k hs
      simp [rank, hs] at hone
    · exact hwait

theorem Inv.helps_busy (h : Inv p s) {x : ℕ} (hx : Helps x s) : s.stack x ≠ [] := by
  rcases hx with hr | ⟨-, hw⟩
  · exact (h.rank_reader hr).2
  · exact (h.rank_writer hw).2

theorem exec_backlog_le (h : Inv p s) {w x : ℕ} {order : List ℕ} (hw : s.mu.writer = some w)
    (hw' : (s.exec p x order).mu.writer = some w) (hr' : (s.exec p x order).mu.readers = s.mu.readers) :
    backlog p (s.exec p x order) ≤ backlog p s := by
  unfold backlog
  rw [hr', hw', hw]
  exact Nat.add_le_add (List.sum_le_sum fun r _ => exec_work_le h x order r) (exec_work_le h x order w)

/-- a helper's step shortens the backlog -/
theorem exec_backlog_lt (h : Inv p s) {w x : ℕ} {order : List ℕ} (hw : s.mu.writer = some w) (hx : Helps x s)
    (hw' : (s.exec p x order).mu.writer = some w) (hr' : (s.exec p x order).mu.readers = s.mu.readers) :
    backlog p (s.exec p x order) < backlog p s := by
  have hlt := exec_work h (h.helps_busy hx) (h.helps_free hx) order
  unfold backlog
  rw [hr', hw', hw]
  rcases hx with hr | ⟨-, hx⟩
  · exact Nat.add_lt_add_of_lt_of_le (List.sum_lt_sum _ _ (fun r _ => exec_work_le h x order r) ⟨x, hr, hlt⟩)
      (exec_work_le h x order w)
  · rw [hw] at hx
    cases hx
    exact Nat.add_lt_add_of_le_of_lt (List.sum_le_sum fun r _ => exec_work_le h w order r) hlt

/-- so does a reader that leaves -/
theorem exec_backlog_erase (h : Inv p s) {w x : ℕ} {order : List ℕ} (hw : s.mu.writer = some w) (hx : x ∈ s.mu.readers)
    (hw' : (s.exec p x order).mu.writer = some w) (hr' : (s.exec p x order).mu.readers = s.mu.readers.erase x) :
    backlog p (s.exec p x order) < backlog p s := by
  have hpos : 0 < work p (s.stack x) :=
    lt_of_le_of_lt (Nat.zero_le _) (exec_work h (h.rank_reader hx).2 (h.reader_free hx) order)
  have hsum : ((s.mu.readers.erase x).map fun r => work p ((s.exec p x order).stack r)).sum ≤
      ((s.mu.readers.erase x).map fun r => work p (s.stack r)).sum :=
    List.sum_le_sum fun r _ => exec_work_le h x order r
  have herase : work p (s.stack x) + ((s.mu.readers.erase x).map fun r => work p (s.stack r)).sum =
      (s.mu.readers.map fun r => work p (s.stack r)).sum := List.sum_map_erase (f := fun r => work p (s.stack r)) hx
  calc backlog p (s.exec p x order)
      = ((s.mu.readers.erase x).map fun r => work p ((s.exec p x order).stack r)).sum +
          work p ((s.exec p x order).stack w) := by rw [backlog, hr', hw']; rfl
    _ ≤ ((s.mu.readers.erase x).map fun r => work p (s.stack r)).sum + work p (s.stack w) :=
        Nat.add_le_add hsum (exec_work_le h x order w)
    _ < work p (s.stack x) + ((s.mu.readers.erase x).map fun r => work p (s.stack r)).sum + work p (s.stack w) := by
        omega
    _ = backlog p s := by rw [herase, backlog, hw]; rfl

/-- a call and a writeLoop change nothing for the queue -/
theorem idle_step_backlog (h : Inv p s) {a : Act} (ha : ∀ x, ¬Acts x a) :
    (step p s a).mu = s.mu ∧ backlog p (step p s a) = backlog p s := by
  have hmu : (step p s a).mu = s.mu := by
    cases a with
    | exec x order => exact absurd ⟨order, rfl⟩ (ha x)
    | take c => rfl
    | call x f => exact call_mu x f
  refine ⟨hmu, ?_⟩
  have hreaders : (s.mu.readers.map fun r => work p ((step p s a).stack r)) =
      s.mu.readers.map fun r => work p (s.stack r) :=
    List.map_congr_left fun r hr => by rw [step_stack (h.rank_reader hr).2 (ha r)]
  unfold backlog
  rw [hmu, hreaders]
  cases hw : s.mu.writer with
  | none => rfl
  | some w =>
    simp only [Option.elim_some]
    rw [step_stack (h.rank_writer hw).2 (ha w)]

/-- what a step does to a queued broadcast, while t helps it -/
theorem queued_step (h : Inv p s) {g t : ℕ} (hq : Queued g s) (ht : Helps t s) (a : Act) :
    Reading g (step p s a) ∨ (Queued g (step p s a) ∧ (backlog p (step p s a) < backlog p s ∨
      (¬Acts t a ∧ Helps t (step p s a) ∧ backlog p (step p s a) ≤ backlog p s))) := by
  obtain ⟨hb, hwait⟩ := hq
  obtain ⟨w, hw⟩ := Option.ne_none_iff_exists'.1 (h.mu.queue g hwait)
  by_cases ha : ∀ x, ¬Acts x a
  · obtain ⟨hmu, hlog⟩ := idle_step_backlog h ha
    right
    refine ⟨⟨?_, by rwa [hmu]⟩, Or.inr ⟨ha t, by rwa [Helps, hmu], hlog.le⟩⟩
    rwa [step_stack hb.ne_nil (ha g)]
  push Not at ha
  obtain ⟨x, order, rfl⟩ := ha
  by_cases hx : x = g
  · -- the queued goroutine itself is not let in yet
    subst hx
    have hwaits : WaitsFor s x w := h.queued_waits ⟨hb, hwait⟩ hw
    have hsame : step p s (.exec x order) = s := exec_waits hwaits order
    rw [hsame]
    refine Or.inr ⟨⟨hb, hwait⟩, Or.inr ⟨?_, ht, le_rfl⟩⟩
    rintro ⟨order', e⟩
    cases e
    exact h.helps_free ht w hwaits
  have hstack : (step p s (.exec x order)).stack g = s.stack g := exec_stack_of_ne (Ne.symm hx) order
  rcases exec_behind h hw x order with ⟨hw', hr', hsub⟩ | ⟨hin, hw', hr', hsub⟩ | ⟨-, hsub⟩
  · right
    refine ⟨⟨by rwa [hstack], hsub hwait⟩, ?_⟩
    by_cases htx : t = x
    · subst htx
      exact Or.inl (exec_backlog_lt h hw ht hw' hr')
    · refine Or.inr ⟨?_, ?_, exec_backlog_le h hw hw' hr'⟩
      · rintro ⟨order', e⟩
        cases e
        exact htx rfl
      · simp only [Helps, step, hr', hw', ← hw]
        exact ht
  · right
    exact ⟨⟨by rwa [hstack], hsub hwait⟩, Or.inl (exec_backlog_erase h hw hin hw' hr')⟩
  · exact Or.inl ⟨by rwa [hstack], hsub hwait⟩

/-! ## Fair runs -/

section Fair

variable {as : ℕ → Act} (hfair : Fair as) (hin : ∀ n, NoFullBroadcast p (states (step p) init as n) (as n))

include hin in
theorem states_inv (n : ℕ) : Inv p (states (step p) init as n) := by
  rw [states_eq_run]
  exact reachable_inv (along_states _ _ _ hin n)

include hfair hin

theorem asking_leads_on (g n : ℕ) (ha : Asking g (states (step p) init as n)) :
    ∃ m, n ≤ m ∧ (Queued g (states (step p) init as m) ∨ Reading g (states (step p) init as m)) := by
  refine eventually_of_thread Acts (Asking g) (fun s => Queued g s ∨ Reading g s) g hfair ?_ ?_ n ha
  · intro n ha hact
    have hinv := states_inv hin n
    simp only [states]
    refine ⟨?_, ?_⟩
    · rw [step_stack ha.1.ne_nil hact]
      exact ha.1
    · rcases step_mode hinv hact with hm | ⟨hq, -⟩
      · rw [hm]; exact ha.2
      · rw [ha.2] at hq; cases hq
  · rintro n ha ⟨order, hact⟩
    have hinv := states_inv hin n
    have hinv' : Inv p (step p (states (step p) init as n) (as n)) := states_inv hin (n + 1)
    simp only [states]
    rw [hact] at hinv' ⊢
    obtain ⟨payload, sender, hs⟩ := hinv.asking_start ha
    have hs' : (step p (states (step p) init as n) (.exec g order)).stack g =
        [.rwait, .sendAll payload sender, .runlock] := by
      simp only [step, Hub.exec, hs, Hub.goto, Function.update_self]
    have hb : InBroadcast ((step p (states (step p) init as n) (.exec g order)).stack g) := hs' ▸ .wait payload sender
    rcases hinv'.phases hb with hask | hrest
    · obtain ⟨payload', sender', hstart⟩ := hinv'.asking_start hask
      rw [hs'] at hstart
      cases hstart
    · exact hrest

theorem queued_leads_to_reading (g n : ℕ) (hq : Queued g (states (step p) init as n)) :
    ∃ m, n ≤ m ∧ Reading g (states (step p) init as m) := by
  refine eventually_of_rank Acts (Queued g) (Reading g) Helps (backlog p) hfair ?_ ?_ n hq
  · intro n hq
    have hinv := states_inv hin n
    cases hr : (states (step p) init as n).mu.readers with
    | nil =>
      obtain ⟨w, hw⟩ := Option.ne_none_iff_exists'.1 (hinv.mu.queue g hq.2)
      exact ⟨w, Or.inr ⟨hr, hw⟩⟩
    | cons r rs => exact ⟨r, Or.inl (hr ▸ List.mem_cons_self)⟩
  · intro n t hq ht
    exact queued_step (states_inv hin n) hq ht (as n)

theorem reading_leads_to_return (g n : ℕ) (hr : Reading g (states (step p) init as n)) :
    ∃ m, n ≤ m ∧ (states (step p) init as m).stack g = [] := by
  refine eventually_of_rank Acts (Reading g) (fun s => s.stack g = []) (fun t _ => t = g) (fun s => work p (s.stack g))
    hfair (fun _ _ => ⟨g, rfl⟩) ?_ n hr
  rintro n t hr rfl
  have hinv := states_inv hin n
  have hcond := hin n
  simp only [states]
  generalize states (step p) init as n = s at hr hinv hcond ⊢
  generalize as n = a at hcond ⊢
  by_cases hact : Acts t a
  · obtain ⟨order, rfl⟩ := hact
    refine (exec_reading hinv hcond hr).imp_right fun hr' => ⟨hr', Or.inl ?_⟩
    exact exec_work hinv hr.1.ne_nil (hinv.reader_free hr.2) order
  · have hstack : (step p s a).stack t = s.stack t := step_stack hr.1.ne_nil hact
    have hm := hinv.mu.mode_reading.2 hr.2
    right
    refine ⟨⟨?_, ?_⟩, Or.inr ⟨hact, trivial, by rw [hstack]⟩⟩
    · rw [hstack]
      exact hr.1
    · rcases step_mode hinv hact with hsame | ⟨hq, -⟩
      · exact (step_inv hinv a hcond).mu.mode_reading.1 (hsame.trans hm)
      · rw [hm] at hq; cases hq

/-- **A broadcast returns**, in every fair run inside the condition. -/
theorem broadcast_returns (g n : ℕ) (hb : InBroadcast ((states (step p) init as n).stack g)) :
    ∃ m, n ≤ m ∧ (states (step p) init as m).stack g = [] := by
  have queued (n : ℕ) (hq : Queued g (states (step p) init as n)) :
      ∃ m, n ≤ m ∧ (states (step p) init as m).stack g = [] := by
    obtain ⟨m, hm, hr⟩ := queued_leads_to_reading hfair hin g n hq
    obtain ⟨m', hm', hret⟩ := reading_leads_to_return hfair hin g m hr
    exact ⟨m', hm.trans hm', hret⟩
  rcases (states_inv hin n).phases hb with ha | hq | hr
  · obtain ⟨m, hm, hq | hr⟩ := asking_leads_on hfair hin g n ha
    · obtain ⟨m', hm', hret⟩ := queued m hq
      exact ⟨m', hm.trans hm', hret⟩
    · obtain ⟨m', hm', hret⟩ := reading_leads_to_return hfair hin g m hr
      exact ⟨m', hm.trans hm', hret⟩
  · exact queued n hq
  · exact reading_leads_to_return hfair hin g n hr

end Fair

/-! ## A goroutine that waits for itself -/

/-- before it asks for the lock, the goroutine neither waits for it nor gives it back -/
def Calm (k : List Instr) : Prop := ∀ i ∈ k.takeWhile (· ≠ .lock), i ≠ .unlock ∧ i ≠ .lockWait

/-- an instruction that does nothing with the write lock, in front -/
theorem Calm.cons {i : Instr} {k : List Instr} (hlock : i ≠ .lock) (hi : i ≠ .unlock ∧ i ≠ .lockWait) (h : Calm k) :
    Calm (i :: k) := by
  intro j hj
  rw [List.takeWhile_cons_of_pos (by simpa using hlock)] at hj
  rcases List.mem_cons.1 hj with rfl | hj
  · exact hi
  · exact h j hj

theorem Calm.tail {i : Instr} {k : List Instr} (h : Calm (i :: k)) (hlock : i ≠ .lock) : Calm k := by
  intro j hj
  apply h j
  rw [List.takeWhile_cons_of_pos (by simpa using hlock)]
  exact List.mem_cons_of_mem i hj

/-- asking for the lock comes before anything else -/
theorem calm_lock (k : List Instr) : Calm (.lock :: k) := by
  intro j hj
  simp at hj

theorem Calm.map_append {k : List Instr} (h : Calm k) {f : ℕ → Instr}
    (hf : ∀ c, f c ≠ .lock ∧ f c ≠ .unlock ∧ f c ≠ .lockWait) (cs : List ℕ) : Calm (cs.map f ++ k) := by
  induction cs with
  | nil => exact h
  | cons c cs ih => exact ih.cons (hf c).1 (hf c).2

/-- the goroutine has announced itself as a writer under its own read lock; no other one is about to unlock -/
structure Stuck (g : ℕ) (k : List Instr) (s : Hub) : Prop where
  stack : s.stack g = .lockWait :: k
  writer : s.mu.writer = some g
  reader : g ∈ s.mu.readers
  others : ∀ x ≠ g, Calm (s.stack x)

/-- another goroutine goes on, and leaves the mutex to the two -/
theorem Stuck.goto {g x : ℕ} {k k' : List Instr} {s' : Hub} (h : Stuck g k s) (hx : x ≠ g)
    (hwriter : s'.mu.writer = some g) (hreader : g ∈ s'.mu.readers) (hs' : s'.stack = Function.update s.stack x k')
    (hk : Calm k') : Stuck g k s' := by
  refine ⟨by rw [hs', Function.update_of_ne (Ne.symm hx)]; exact h.stack, hwriter, hreader, ?_⟩
  intro y hy
  rw [hs']
  by_cases hyx : y = x
  · rw [hyx, Function.update_self]
    exact hk
  · rw [Function.update_of_ne hyx]
    exact h.others y hy

theorem exec_stuck {g : ℕ} {k : List Instr} (h : Stuck g k s) (x : ℕ) (order : List ℕ) : Stuck g k (s.exec p x order) := by
  by_cases hx : x = g
  · subst hx
    have hsame : s.exec p x order = s := by simp only [Hub.exec, h.stack, if_neg (List.ne_nil_of_mem h.reader)]
    rwa [hsame]
  cases hs : s.stack x with
  | nil =>
    have hsame : s.exec p x order = s := by simp only [Hub.exec, hs]
    rwa [hsame]
  | cons i k' =>
    have hcalm := h.others x hx
    rw [hs] at hcalm
    cases i with
    | rlock =>
      simp only [Hub.exec, hs]
      refine h.goto hx ?_ ?_ rfl (hcalm.tail (by simp)) <;> simp [Hub.goto, RWMutex.rlock, h.writer, h.reader]
    | runlock =>
      simp only [Hub.exec, hs]
      exact h.goto hx h.writer ((List.mem_erase_of_ne (Ne.symm hx)).2 h.reader) rfl (hcalm.tail (by simp))
    | lock =>
      have hsame : s.exec p x order = s := by simp [Hub.exec, hs, h.writer]
      rwa [hsame]
    | lockWait => exact absurd rfl (hcalm _ (by simp)).2
    | unlock => exact absurd rfl (hcalm _ (by simp)).1
    | rwait =>
      simp only [Hub.exec, hs]
      split_ifs
      · exact h
      · exact h.goto hx h.writer h.reader rfl (hcalm.tail (by simp))
    | sendAll payload sender =>
      simp only [Hub.exec, hs]
      exact h.goto hx h.writer h.reader rfl ((hcalm.tail (by simp)).map_append (by simp) _)
    | closeAll =>
      simp only [Hub.exec, hs]
      exact h.goto hx h.writer h.reader rfl
        (((hcalm.tail (by simp)).map_append (by simp) _).cons (by simp) (by simp))
    | send c payload =>
      simp only [Hub.exec, hs]
      split_ifs
      · exact h.goto hx h.writer h.reader rfl (hcalm.tail (by simp))
      · exact h.goto hx h.writer h.reader rfl ((hcalm.tail (by simp)).cons (by simp) (by simp))
    | close c =>
      simp only [Hub.exec, hs]
      split
      · exact h.goto hx h.writer h.reader rfl (calm_lock _)
      · exact h
      · exact h.goto hx h.writer h.reader rfl (hcalm.tail (by simp))
    | register c =>
      simp only [Hub.exec, hs]
      split_ifs
      · exact h.goto hx h.writer h.reader rfl (hcalm.tail (by simp))
      · exact h.goto hx h.writer h.reader rfl (hcalm.tail (by simp))
    | onceDone c | delete c =>
      simp only [Hub.exec, hs]
      exact h.goto hx h.writer h.reader rfl (hcalm.tail (by simp))

/-- no call begins with the write lock in hand -/
theorem call_calm {x : ℕ} (h : Calm (s.stack x)) (f : Call) : Calm ((s.call x f).stack x) := by
  simp only [Hub.call]
  split_ifs
  · cases f with
    | send c payload | close c =>
      dsimp only
      split_ifs
      · simp [Hub.goto, Calm]
      · exact h
    | _ =>
      simp [Hub.goto, Calm, HubLocks.broadcast, HubLocks.broadcastToOthers, HubLocks.closeAllClients,
        HubLocks.handleNewConnection]
  · exact h

/-- no step of anybody helps it -/
theorem step_stuck {g : ℕ} {k : List Instr} (h : Stuck g k s) (a : Act) : Stuck g k (step p s a) := by
  cases a with
  | exec x order => exact exec_stuck h x order
  | take c => exact ⟨h.stack, h.writer, h.reader, h.others⟩
  | call x f =>
    have hmu : (s.call x f).mu = s.mu := call_mu x f
    refine ⟨?_, hmu ▸ h.writer, hmu ▸ h.reader, fun y hy => ?_⟩
    · by_cases hgx : g = x
      · rw [step, ← hgx, call_busy (by rw [h.stack]; simp)]
        exact h.stack
      · rw [step, call_stack_of_ne hgx]
        exact h.stack
    · by_cases hyx : y = x
      · rw [hyx]
        exact call_calm (hyx ▸ h.others y hy) f
      · rw [step, call_stack_of_ne hyx]
        exact h.others y hy

/-- **The lock discipline.** For every run inside the condition, in every state it reaches: no goroutine requests p.mu
while it holds it, no set of goroutines waits for itself, and if a goroutine is not idle then some goroutine can execute
its next instruction. In every fair infinite run inside the condition, every broadcast and broadcastToOthers returns. -/
theorem hub_lock_discipline (p : Params) :
    (∀ as : List Act, Along (step p) (NoFullBroadcast p) init as →
      (∀ g, Requests (run (step p) init as) g → ¬(run (step p) init as).mu.Holds g) ∧
      ¬Deadlock (WaitsFor (run (step p) init as)) ∧
      ((∃ g, (run (step p) init as).stack g ≠ []) →
        ∃ g, ∀ order, ((run (step p) init as).exec p g order).stack g ≠ (run (step p) init as).stack g)) ∧
    ∀ as : ℕ → Act, Fair as → (∀ n, NoFullBroadcast p (states (step p) init as n) (as n)) →
      ∀ g n, InBroadcast ((states (step p) init as n).stack g) →
        ∃ m, n ≤ m ∧ (states (step p) init as m).stack g = [] := by
  refine ⟨?_, fun as hfair hin => broadcast_returns hfair hin⟩
  intro as h
  have hinv := reachable_inv h
  refine ⟨fun g hg => RWMutex.not_holds_of_free (hinv.requests_free hg), hinv.no_deadlock, ?_⟩
  intro hbusy
  obtain ⟨g, hne, hfree⟩ := hinv.progress hbusy
  refine ⟨g, ?_⟩
  intro order hsame
  have hlt := exec_work hinv hne hfree order
  rw [hsame] at hlt
  exact absurd hlt (lt_irrefl _)

/-! ### One client, one frame -/

/-- a buffer of one frame -/
def smallParams : Params := ⟨1, 4, by decide, by decide⟩

/-- goroutine 0 accepts a client, goroutine 1 broadcasts a frame -/
def oneFrame : List Act :=
  [.call 0 .handleNewConnection, .exec 0 [], .exec 0 [], .exec 0 [], .exec 0 [],
    .call 1 (.broadcast [1]), .exec 1 [], .exec 1 [], .exec 1 [], .exec 1 [], .exec 1 []]

/-- the same, then every goroutine is scheduled for ever -/
def oneFrameFair (n : ℕ) : Act := (oneFrame[n]?).getD (.exec n.unpair.1 [])

theorem oneFrameFair_fair : Fair oneFrameFair := by
  intro g n
  refine ⟨Nat.pair g (n + 11), ?_, [], ?_⟩
  · exact (Nat.le_add_right n 11).trans (Nat.right_le_pair g (n + 11))
  · have hlen : oneFrame.length ≤ Nat.pair g (n + 11) :=
      (Nat.le_add_left 11 n).trans (Nat.right_le_pair g (n + 11))
    simp [oneFrameFair, List.getElem?_eq_none hlen]

theorem oneFrame_idle (g : ℕ) : (run (step smallParams) init oneFrame).stack g = [] := by
  match g with
  | 0 => rfl
  | 1 => rfl
  | g + 2 => rfl

theorem states_oneFrame (n : ℕ) :
    states (step smallParams) init oneFrameFair (n + 11) = run (step smallParams) init oneFrame := by
  induction n with
  | zero => rfl
  | succ n ih =>
    have hlen : oneFrame.length ≤ n + 11 := Nat.le_add_left 11 n
    rw [Nat.add_right_comm, states, ih]
    simp only [oneFrameFair, List.getElem?_eq_none hlen, Option.getD_none, step, Hub.exec, oneFrame_idle]

theorem oneFrame_inside (n : ℕ) :
    NoFullBroadcast smallParams (states (step smallParams) init oneFrameFair n) (oneFrameFair n) := by
  by_cases hn : n < 11
  · interval_cases n <;> decide +kernel
  · obtain ⟨k, rfl⟩ := Nat.exists_eq_add_of_le' (not_lt.1 hn)
    have hlen : oneFrame.length ≤ k + 11 := Nat.le_add_left 11 k
    rw [states_oneFrame]
    simp only [oneFrameFair, List.getElem?_eq_none hlen, Option.getD_none, NoFullBroadcast, oneFrame_idle]

/-- the broadcast that has just been called returns -/
theorem hub_lock_discipline_oneFrame :
    (states (step smallParams) init oneFrameFair 6).stack 1 = broadcast [1] ∧
      ∃ m, 6 ≤ m ∧ (states (step smallParams) init oneFrameFair m).stack 1 = [] :=
  ⟨rfl, (hub_lock_discipline smallParams).2 oneFrameFair oneFrameFair_fair oneFrame_inside 1 6 (.start [1] none)⟩

/-- goroutine 1 broadcasts a second frame before the client's writeLoop has taken the first -/
def slowConsumer : List Act :=
  oneFrame ++ [.call 1 (.broadcast [2]), .exec 1 [], .exec 1 [], .exec 1 [], .exec 1 [], .exec 1 []]

/-- Send disconnects the slow consumer: its Close asks for p.mu, which the broadcast holds, and waits for itself -/
theorem broadcast_requests_held_lock :
    Requests (run (step smallParams) init slowConsumer) 1 ∧ (run (step smallParams) init slowConsumer).mu.Holds 1 ∧
      Deadlock (WaitsFor (run (step smallParams) init (slowConsumer ++ [.exec 1 []]))) := by
  refine ⟨by decide +kernel, by decide +kernel, {1}, Set.singleton_nonempty 1, fun g hg => ⟨1, rfl, ?_⟩⟩
  rw [Set.mem_singleton_iff.1 hg]
  decide +kernel

end MeshProxy.HubLocks
