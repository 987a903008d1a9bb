/-
Subscribers of the metrics events (`internal/metrics/pubsub.go`: Subscribe, Unsubscribe, publish).

Any number of goroutines call the three functions, step by step: a lock request, getting in, the map operation, each
channel send, the unlock and the close are separate steps. subMu is a writer-preferring mutex (Core.RWMutex); a publisher
holds it for reading through its loop, in any iteration order, and drops an event for a channel that is full; Unsubscribe
closes the channel after it has released the lock. A channel is unsubscribed by whoever Subscribe returned it to, at most
once. Subscribers take events at any time, also after the close.

- `exec_locked`, `exec_registry`: every goroutine stands to the lock as its place in the code says, and the channels a
  publisher has still to send to stay in the map while it holds the lock;
- `exec_delivery`: per publisher, what a channel has accepted is a sublist of what was published to it;
- `pubsub_safe`: no run panics, and an event is missing from a channel only if the channel was full at its send.
-/
import MeshProxy.Core.RWMutex
import MeshProxy.Core.Trace

namespace MeshProxy.PubSub

open MeshProxy.Locks MeshProxy.Trace

variable {E : Type}

/-! ## The machine -/

def sseBufferSize : ℕ := 64

/-- an event as published: by which goroutine, and the how manieth of all; the stamp is for the statements only -/
structure Stamped (E : Type) where
  by_ : ℕ
  seq : ℕ
  evt : E
deriving DecidableEq, Repr

structure Chan (E : Type) where
  queue : List (Stamped E) := []
  closed : Bool := false
  /-- what the subscriber has taken, for the statements only -/
  received : List (Stamped E) := []
deriving DecidableEq, Repr

/-- Subscribe and Unsubscribe have one shape: Lock, a map operation, Unlock, and a last step without the lock -/
inductive Op where
  | subscribe | unsubscribe
deriving DecidableEq, Repr

inductive WriterAt where
  | lock | lockWait | map | unlock | last
deriving DecidableEq, Repr

/-- where a goroutine is: idle, in Subscribe or Unsubscribe of a channel, or in publish -/
inductive Pc (E : Type) where
  | idle
  | writer (op : Op) (ch : ℕ) (at_ : WriterAt)
  | rlock (evt : E)
  | rwait (evt : E)
  | range (evt : E)
  | send (evt : Stamped E) (todo : List ℕ)
deriving DecidableEq, Repr

/-- what has become of a channel: Subscribe runs in a goroutine, has returned, Unsubscribe runs, has closed it -/
inductive Life where
  | fresh
  | joining (g : ℕ)
  | opened
  | leaving (g : ℕ)
  | closed
deriving DecidableEq, Repr

/-- a publication: the event, and the channels in the map when its loop began -/
structure Publication (E : Type) where
  event : Stamped E
  targets : List ℕ
deriving DecidableEq, Repr

structure Metrics (E : Type) where
  subMu : RWMutex ℕ
  subscribers : List ℕ
  chan : ℕ → Chan E
  pc : ℕ → Pc E
  life : ℕ → Life
  panicked : Bool
  /-- the publications so far, in the order in which their loops began, for the statements only -/
  published : List (Publication E)
  /-- the events each goroutine has called publish with, for the statements only -/
  called : ℕ → List E

def init : Metrics E :=
  ⟨{}, [], fun _ => {}, fun _ => .idle, fun _ => .fresh, false, [], fun _ => []⟩

/-- the calls a goroutine can make; the channel Subscribe makes is one that has not been used -/
inductive Call (E : Type) where
  | subscribe (ch : ℕ)
  | unsubscribe (ch : ℕ)
  | publish (evt : E)
deriving DecidableEq, Repr

inductive Act (E : Type) where
  | exec (g : ℕ) (order : List ℕ)
  | call (g : ℕ) (f : Call E)
  | take (ch : ℕ)
deriving DecidableEq, Repr

/-- the map operation -/
def Op.onMap (ch : ℕ) (subscribers : List ℕ) : Op → List ℕ
  | .subscribe => if ch ∈ subscribers then subscribers else subscribers ++ [ch]
  | .unsubscribe => subscribers.filter (· ≠ ch)

/-- the life of a channel while the operation runs on it -/
def Op.life (g : ℕ) : Op → Life
  | .subscribe => .joining g
  | .unsubscribe => .leaving g

/-- and once it is over -/
def Op.result : Op → Life
  | .subscribe => .opened
  | .unsubscribe => .closed

namespace Metrics

def goto (g : ℕ) (k : Pc E) (s : Metrics E) : Metrics E := { s with pc := Function.update s.pc g k }

/-- the order in which a loop goes through the map: any permutation -/
def iteration (s : Metrics E) (order : List ℕ) : List ℕ := if order.isPerm s.subscribers then order else s.subscribers

/-- a goroutine takes its next step; one that has to wait leaves the state as it is -/
def exec (g : ℕ) (order : List ℕ) (s : Metrics E) : Metrics E :=
  match s.pc g with
  | .idle => s
  | .writer op ch .lock =>
    if s.subMu.writer = none then { s with subMu := s.subMu.lock g }.goto g (.writer op ch .lockWait) else s
  | .writer op ch .lockWait =>
    if s.subMu.readers = [] then { s with subMu := s.subMu.acquire }.goto g (.writer op ch .map) else s
  | .writer op ch .map => { s with subscribers := op.onMap ch s.subscribers }.goto g (.writer op ch .unlock)
  | .writer op ch .unlock => { s with subMu := s.subMu.unlock }.goto g (.writer op ch .last)
  | .writer .subscribe ch .last => { s with life := Function.update s.life ch Op.subscribe.result }.goto g .idle
  | .writer .unsubscribe ch .last =>
    -- close(ch)
    if (s.chan ch).closed then { s with panicked := true }
    else
      { s with
        chan := Function.update s.chan ch { s.chan ch with closed := true }
        life := Function.update s.life ch Op.unsubscribe.result }.goto g .idle
  | .rlock evt => { s with subMu := s.subMu.rlock g }.goto g (.rwait evt)
  | .rwait evt => if g ∈ s.subMu.waiting then s else s.goto g (.range evt)
  | .range evt =>
    let event : Stamped E := ⟨g, s.published.length, evt⟩
    { s with published := s.published ++ [Publication.mk event s.subscribers] }.goto g (.send event (s.iteration order))
  | .send _ [] => { s with subMu := s.subMu.runlock g }.goto g .idle
  | .send event (ch :: todo) =>
    if (s.chan ch).closed then { s with panicked := true }
    else if (s.chan ch).queue.length < sseBufferSize then
      { s with chan := Function.update s.chan ch { s.chan ch with queue := (s.chan ch).queue ++ [event] } }.goto g
        (.send event todo)
    else s.goto g (.send event todo)

/-- an idle goroutine calls a function; Unsubscribe is called on a channel that Subscribe has returned, once -/
def call (g : ℕ) (f : Call E) (s : Metrics E) : Metrics E :=
  match s.pc g, f with
  | .idle, .subscribe ch =>
    if s.life ch = .fresh then
      { s with life := Function.update s.life ch (.joining g) }.goto g (.writer .subscribe ch .lock)
    else s
  | .idle, .unsubscribe ch =>
    if s.life ch = .opened then
      { s with life := Function.update s.life ch (.leaving g) }.goto g (.writer .unsubscribe ch .lock)
    else s
  | .idle, .publish evt => { s with called := Function.update s.called g (s.called g ++ [evt]) }.goto g (.rlock evt)
  | _, _ => s

/-- `evt := <-ch` -/
def take (ch : ℕ) (s : Metrics E) : Metrics E :=
  match (s.chan ch).queue with
  | [] => s
  | x :: queue =>
    { s with chan := Function.update s.chan ch { s.chan ch with queue, received := (s.chan ch).received ++ [x] } }

end Metrics

def step (s : Metrics E) : Act E → Metrics E
  | .exec g order => s.exec g order
  | .call g f => s.call g f
  | .take ch => s.take ch

/-! ## The lock -/

/-- how a goroutine at this place stands to subMu -/
def Pc.Fits (m : Mode) : Pc E → Prop
  | .idle => m = .free
  | .writer _ _ .lock => m = .free
  | .writer _ _ .lockWait => m = .announced
  | .writer _ _ .map => m = .writing
  | .writer _ _ .unlock => m = .writing
  | .writer _ _ .last => m = .free
  | .rlock _ => m = .free
  | .rwait _ => m = .queued ∨ m = .reading
  | .range _ => m = .reading
  | .send _ _ => m = .reading

structure Locked (subMu : RWMutex ℕ) (pc : ℕ → Pc E) : Prop where
  mutex : subMu.WF
  fits : ∀ g, (pc g).Fits (subMu.mode g)

variable {s : Metrics E} {mu : RWMutex ℕ} {pc : ℕ → Pc E} {g : ℕ}

theorem init_locked : Locked (init : Metrics E).subMu (init : Metrics E).pc where
  mutex := ⟨List.nodup_nil, List.nodup_nil, by simp [init], by simp [init], by simp [init], by simp [init]⟩
  fits := fun _ => rfl

/-- a reader that is let in was in RLock -/
theorem Pc.Fits.let_in {k : Pc E} (h : k.Fits .queued) : k.Fits .reading := by
  cases k with
  | writer op ch a => cases a <;> cases h
  | rwait evt => exact .inr rfl
  | _ => cases h

/-- a change of the mutex by one goroutine that goes to a fitting place -/
theorem Locked.goto (h : Locked mu pc) {m : RWMutex ℕ} {k : Pc E} (hm : m.WF) (hk : k.Fits (m.mode g))
    (hothers : ∀ x ≠ g, m.mode x = mu.mode x ∨ (mu.mode x = .queued ∧ m.mode x = .reading)) :
    Locked m (Function.update pc g k) where
  mutex := hm
  fits := by
    intro x
    by_cases hx : x = g
    · subst hx
      rwa [Function.update_self]
    · have hfit := h.fits x
      rw [Function.update_of_ne hx]
      rcases hothers x hx with hsame | ⟨hq, hr⟩
      · rwa [hsame]
      · rw [hq] at hfit
        rw [hr]
        exact hfit.let_in

/-- a step that leaves the mutex alone -/
theorem Locked.stay (h : Locked mu pc) {k : Pc E} (hk : k.Fits (mu.mode g)) : Locked mu (Function.update pc g k) :=
  h.goto h.mutex hk fun _ _ => .inl rfl

theorem exec_locked (h : Locked s.subMu s.pc) (g : ℕ) (order : List ℕ) :
    Locked (s.exec g order).subMu (s.exec g order).pc := by
  have hfit := h.fits g
  unfold Metrics.exec
  split <;> rename_i hpc <;> rw [hpc] at hfit
  · exact h
  · split_ifs with hn
    · have hmode := RWMutex.mode_lock (g := g) hn
      exact h.goto (RWMutex.lock_wf h.mutex hfit) hmode.1 fun x hx => .inl (hmode.2 x hx)
    · exact h
  · split_ifs with hr
    · have hmode := RWMutex.mode_acquire hfit
      exact h.goto (RWMutex.acquire_wf h.mutex hfit hr) hmode.1 fun x hx => .inl (hmode.2 x hx)
    · exact h
  · exact h.stay (k := .writer _ _ .unlock) hfit
  · have hmode := RWMutex.mode_unlock h.mutex hfit
    exact h.goto (RWMutex.unlock_wf h.mutex) hmode.1 hmode.2
  · exact h.stay (k := .idle) hfit
  · split_ifs
    · exact h
    · exact h.stay (k := .idle) hfit
  · have hmode := RWMutex.mode_rlock hfit
    exact h.goto (RWMutex.rlock_wf h.mutex hfit) hmode.1.symm fun x hx => .inl (hmode.2 x hx)
  · split_ifs with hq
    · exact h
    · exact h.stay (k := .range _) (hfit.resolve_left fun hm => hq (h.mutex.mode_queued.1 hm))
  · exact h.stay (k := .send _ _) hfit
  · have hmode := RWMutex.mode_runlock h.mutex hfit
    exact h.goto (RWMutex.runlock_wf h.mutex) hmode.1 fun x hx => .inl (hmode.2 x hx)
  · split_ifs
    · exact h
    · exact h.stay (k := .send _ _) hfit
    · exact h.stay (k := .send _ _) hfit

theorem call_locked (h : Locked s.subMu s.pc) (g : ℕ) (f : Call E) : Locked (s.call g f).subMu (s.call g f).pc := by
  have hfit := h.fits g
  unfold Metrics.call
  split <;> rename_i hpc
  · rw [hpc] at hfit
    split_ifs
    · exact h.stay (k := .writer _ _ .lock) hfit
    · exact h
  · rw [hpc] at hfit
    split_ifs
    · exact h.stay (k := .writer _ _ .lock) hfit
    · exact h
  · rw [hpc] at hfit
    exact h.stay (k := .rlock _) hfit
  · exact h

/-- a publisher in its loop and a goroutine in a map operation exclude each other -/
theorem Locked.no_send_of_map (h : Locked mu pc) {op : Op} {ch : ℕ} (hg : pc g = .writer op ch .map) (x : ℕ)
    (event : Stamped E) (todo : List ℕ) : pc x ≠ .send event todo := by
  intro hx
  have hwriting := h.fits g
  have hreading := h.fits x
  rw [hg] at hwriting
  rw [hx] at hreading
  have hnone := (h.mutex.writing (RWMutex.mode_writing.1 hwriting).2).1
  have hin := h.mutex.mode_reading.1 hreading
  rw [hnone] at hin
  cases hin

/-! ## The map -/

/-- who may be where, given the map and the life of every channel -/
structure Registry (s : Metrics E) : Prop where
  writer : ∀ g op ch a, s.pc g = .writer op ch a → s.life ch = op.life g
  after : ∀ g op ch a, s.pc g = .writer op ch a → a = .unlock ∨ a = .last → (ch ∈ s.subscribers ↔ op = .subscribe)
  opened : ∀ ch, s.life ch = .opened → ch ∈ s.subscribers
  live : ∀ ch ∈ s.subscribers, s.life ch ≠ .closed
  closed : ∀ ch, (s.chan ch).closed = true → s.life ch = .closed
  sends : ∀ g event todo, s.pc g = .send event todo → todo ⊆ s.subscribers
  nodup : s.subscribers.Nodup
  safe : s.panicked = false

theorem init_registry : Registry (init : Metrics E) where
  writer := fun _ _ _ _ h => by cases h
  after := fun _ _ _ _ h => by cases h
  opened := fun _ h => by cases h
  live := fun _ h => by cases h
  closed := fun _ h => by cases h
  sends := fun _ _ _ h => by cases h
  nodup := List.nodup_nil
  safe := rfl

/-- a channel is in the hands of one goroutine at most -/
theorem Registry.one_writer (h : Registry s) {x : ℕ} {op op' : Op} {ch : ℕ} {a a' : WriterAt}
    (hg : s.pc g = .writer op ch a) (hx : s.pc x = .writer op' ch a') : x = g ∧ op' = op := by
  have hlife := (h.writer g op ch a hg).symm.trans (h.writer x op' ch a' hx)
  cases op <;> cases op' <;> cases hlife <;> exact ⟨rfl, rfl⟩

/-- a goroutine goes to a place that fits the map and the lives as they are -/
theorem Registry.goto (h : Registry s) {k : Pc E} (hwriter : ∀ op ch a, k = .writer op ch a → s.life ch = op.life g)
    (hafter : ∀ op ch a, k = .writer op ch a → a = .unlock ∨ a = .last → (ch ∈ s.subscribers ↔ op = .subscribe))
    (hsends : ∀ event todo, k = .send event todo → todo ⊆ s.subscribers) : Registry (s.goto g k) := by
  refine { h with writer := ?_, after := ?_, sends := ?_ }
  · intro x op ch a hx
    by_cases hxg : x = g
    · subst hxg
      simp only [Metrics.goto, Function.update_self] at hx
      exact hwriter op ch a hx
    · simp only [Metrics.goto, Function.update_of_ne hxg] at hx
      exact h.writer x op ch a hx
  · intro x op ch a hx ha
    by_cases hxg : x = g
    · subst hxg
      simp only [Metrics.goto, Function.update_self] at hx
      exact hafter op ch a hx ha
    · simp only [Metrics.goto, Function.update_of_ne hxg] at hx
      exact h.after x op ch a hx ha
  · intro x event todo hx
    by_cases hxg : x = g
    · subst hxg
      simp only [Metrics.goto, Function.update_self] at hx
      exact hsends event todo hx
    · simp only [Metrics.goto, Function.update_of_ne hxg] at hx
      exact h.sends x event todo hx

/-- a place outside the three functions and their loops asks for nothing -/
theorem Registry.leave (h : Registry s) (g : ℕ) {k : Pc E} (hk : ∀ op ch a, k ≠ .writer op ch a)
    (hk' : ∀ event todo, k ≠ .send event todo) : Registry (s.goto g k) :=
  h.goto (fun op ch a he => absurd he (hk op ch a)) (fun op ch a he => absurd he (hk op ch a))
    (fun event todo he => absurd he (hk' event todo))

/-- the writer goes on inside its operation, before the map operation or past the Unlock -/
theorem Registry.writer_goto (h : Registry s) {op : Op} {ch : ℕ} {a a' : WriterAt} (hg : s.pc g = .writer op ch a)
    (ha : (a = .unlock ∧ a' = .last) ∨ a' = .lockWait ∨ a' = .map) : Registry (s.goto g (.writer op ch a')) := by
  apply h.goto
  · intro op' ch' a'' he
    cases he
    exact h.writer g op ch a hg
  · intro op' ch' a'' he hlast
    cases he
    rcases ha with ⟨rfl, -⟩ | rfl | rfl
    · exact h.after g op ch _ hg (.inl rfl)
    · rcases hlast with h' | h' <;> cases h'
    · rcases hlast with h' | h' <;> cases h'
  · intro event todo he
    cases he

theorem mem_onMap {op : Op} {ch x : ℕ} {subscribers : List ℕ} :
    x ∈ op.onMap ch subscribers ↔ (x = ch ∧ op = .subscribe) ∨ (x ≠ ch ∧ x ∈ subscribers) := by
  by_cases hx : x = ch
  · subst hx
    cases op with
    | subscribe => by_cases hin : x ∈ subscribers <;> simp [Op.onMap, hin]
    | unsubscribe => simp [Op.onMap]
  · cases op with
    | subscribe => by_cases hin : ch ∈ subscribers <;> simp [Op.onMap, hin, hx]
    | unsubscribe => simp [Op.onMap, hx]

theorem onMap_nodup {op : Op} {ch : ℕ} {subscribers : List ℕ} (h : subscribers.Nodup) :
    (op.onMap ch subscribers).Nodup := by
  cases op with
  | subscribe =>
    simp only [Op.onMap]
    split_ifs with hin
    · exact h
    · exact h.append (List.nodup_singleton ch) (by simpa using hin)
  | unsubscribe => exact h.filter _

/-- the map operation: no publisher is in its loop, so nobody's channels are taken away -/
theorem Registry.map (h : Registry s) (hl : Locked s.subMu s.pc) {op : Op} {ch : ℕ} (hg : s.pc g = .writer op ch .map) :
    Registry ({ s with subscribers := op.onMap ch s.subscribers }.goto g (.writer op ch .unlock)) := by
  have hlife := h.writer g op ch _ hg
  refine { h with writer := ?_, after := ?_, opened := ?_, live := ?_, sends := ?_, nodup := onMap_nodup h.nodup }
  · intro x op' ch' a hx
    by_cases hxg : x = g
    · subst hxg
      simp only [Metrics.goto, Function.update_self] at hx
      cases hx
      exact hlife
    · simp only [Metrics.goto, Function.update_of_ne hxg] at hx
      exact h.writer x op' ch' a hx
  · intro x op' ch' a hx ha
    change ch' ∈ op.onMap ch s.subscribers ↔ _
    by_cases hxg : x = g
    · subst hxg
      simp only [Metrics.goto, Function.update_self] at hx
      cases hx
      rw [mem_onMap]
      simp
    · simp only [Metrics.goto, Function.update_of_ne hxg] at hx
      have hne : ch' ≠ ch := by
        rintro rfl
        exact hxg (h.one_writer hg hx).1
      rw [mem_onMap, ← h.after x op' ch' a hx ha]
      simp [hne]
  · intro x hx
    have hne : x ≠ ch := by
      rintro rfl
      change s.life x = _ at hx
      rw [hlife] at hx
      cases op <;> cases hx
    exact mem_onMap.2 (.inr ⟨hne, h.opened x hx⟩)
  · intro x hx
    rcases mem_onMap.1 hx with ⟨rfl, -⟩ | ⟨-, hx⟩
    · change s.life x ≠ _
      rw [hlife]
      cases op <;> simp [Op.life]
    · exact h.live x hx
  · intro x event todo hx
    by_cases hxg : x = g
    · subst hxg
      simp only [Metrics.goto, Function.update_self] at hx
      cases hx
    · simp only [Metrics.goto, Function.update_of_ne hxg] at hx
      exact absurd hx (hl.no_send_of_map hg x event todo)

/-- a channel's life changes while no other goroutine has it in hand -/
theorem Registry.relife (h : Registry s) {ch : ℕ} {l : Life} {k : Pc E}
    (hmine : ∀ x op a, x ≠ g → s.pc x ≠ .writer op ch a)
    (hwriter : ∀ op ch' a, k = .writer op ch' a → ch' = ch ∧ a = .lock ∧ l = op.life g)
    (hsends : ∀ event todo, k ≠ .send event todo) (hopened : l = .opened → ch ∈ s.subscribers)
    (hlive : ch ∈ s.subscribers → l ≠ .closed) (hclosed : (s.chan ch).closed = true → l = .closed) :
    Registry ({ s with life := Function.update s.life ch l }.goto g k) := by
  refine { h with writer := ?_, after := ?_, opened := ?_, live := ?_, closed := ?_, sends := ?_ }
  · intro x op ch' a hx
    by_cases hxg : x = g
    · subst hxg
      simp only [Metrics.goto, Function.update_self] at hx
      obtain ⟨rfl, -, hl⟩ := hwriter op ch' a hx
      simpa only [Metrics.goto, Function.update_self] using hl
    · simp only [Metrics.goto, Function.update_of_ne hxg] at hx
      have hne : ch' ≠ ch := by
        rintro rfl
        exact hmine x op a hxg hx
      simpa only [Metrics.goto, Function.update_of_ne hne] using h.writer x op ch' a hx
  · intro x op ch' a hx ha
    by_cases hxg : x = g
    · subst hxg
      simp only [Metrics.goto, Function.update_self] at hx
      obtain ⟨-, rfl, -⟩ := hwriter op ch' a hx
      rcases ha with ha | ha <;> cases ha
    · simp only [Metrics.goto, Function.update_of_ne hxg] at hx
      exact h.after x op ch' a hx ha
  · intro x hx
    by_cases hxc : x = ch
    · subst hxc
      exact hopened (by simpa only [Metrics.goto, Function.update_self] using hx)
    · exact h.opened x (by simpa only [Metrics.goto, Function.update_of_ne hxc] using hx)
  · intro x hx
    by_cases hxc : x = ch
    · subst hxc
      simpa only [Metrics.goto, Function.update_self] using hlive hx
    · simpa only [Metrics.goto, Function.update_of_ne hxc] using h.live x hx
  · intro x hx
    by_cases hxc : x = ch
    · subst hxc
      simpa only [Metrics.goto, Function.update_self] using hclosed hx
    · simpa only [Metrics.goto, Function.update_of_ne hxc] using h.closed x hx
  · intro x event todo hx
    by_cases hxg : x = g
    · subst hxg
      simp only [Metrics.goto, Function.update_self] at hx
      exact absurd hx (hsends event todo)
    · simp only [Metrics.goto, Function.update_of_ne hxg] at hx
      exact h.sends x event todo hx

/-- a channel changes, and is closed only if it was or its life says so -/
theorem Registry.setChan (h : Registry s) {ch : ℕ} {c : Chan E}
    (hc : c.closed = true → (s.chan ch).closed = true ∨ s.life ch = .closed) :
    Registry { s with chan := Function.update s.chan ch c } := by
  refine { h with closed := ?_ }
  intro x hx
  by_cases hxc : x = ch
  · subst hxc
    simp only [Function.update_self] at hx
    rcases hc hx with hx | hx
    · exact h.closed x hx
    · exact hx
  · simp only [Function.update_of_ne hxc] at hx
    exact h.closed x hx

/-- the last step of both: the channel is returned, or closed -/
theorem Registry.last (h : Registry s) {op : Op} {ch : ℕ} (hg : s.pc g = .writer op ch .last) :
    Registry ({ s with life := Function.update s.life ch op.result }.goto g .idle) ∧ (s.chan ch).closed = false := by
  have hin := h.after g op ch _ hg (.inr rfl)
  have hnot : (s.chan ch).closed = false := by
    by_contra hc
    have hclosed := h.closed ch (by simpa using hc)
    rw [h.writer g op ch _ hg] at hclosed
    cases op <;> cases hclosed
  refine ⟨h.relife ?_ ?_ ?_ ?_ ?_ ?_, hnot⟩
  · intro x op' a hxg hx
    exact hxg (h.one_writer hg hx).1
  · intro op' ch' a he
    cases he
  · intro event todo he
    cases he
  · intro ho
    cases op with
    | subscribe => exact hin.2 rfl
    | unsubscribe => cases ho
  · intro hsub
    rw [hin.1 hsub]
    simp [Op.result]
  · intro hc
    rw [hnot] at hc
    cases hc

/-- the channel a publisher sends to next is open -/
theorem Registry.open_of_send (h : Registry s) {event : Stamped E} {ch : ℕ} {todo : List ℕ}
    (hg : s.pc g = .send event (ch :: todo)) : (s.chan ch).closed = false := by
  by_contra hc
  have hin := h.sends g event _ hg List.mem_cons_self
  exact h.live ch hin (h.closed ch (by simpa using hc))

theorem iteration_perm (order : List ℕ) : (s.iteration order).Perm s.subscribers := by
  unfold Metrics.iteration
  split_ifs with hp
  · exact List.isPerm_iff.1 hp
  · exact List.Perm.refl _

/-- a publisher goes on with fewer channels to send to -/
theorem Registry.send_goto (h : Registry s) {event : Stamped E} {todo : List ℕ} (htodo : todo ⊆ s.subscribers) :
    Registry (s.goto g (.send event todo)) := by
  apply h.goto
  · intro op ch a he
    cases he
  · intro op ch a he
    cases he
  · intro event' todo' he
    cases he
    exact htodo

/-- the mutex and the books are of no matter to the map -/
theorem Registry.set (h : Registry s) (mu : RWMutex ℕ) (published : List (Publication E)) (called : ℕ → List E) :
    Registry { s with
      subMu := mu
      published := published
      called := called } :=
  { h with }

theorem exec_registry (h : Registry s) (hl : Locked s.subMu s.pc) (g : ℕ) (order : List ℕ) :
    Registry (s.exec g order) := by
  unfold Metrics.exec
  split <;> rename_i hpc
  · exact h
  · split_ifs
    · exact (h.set (s.subMu.lock g) s.published s.called).writer_goto hpc (.inr (.inl rfl))
    · exact h
  · split_ifs
    · exact (h.set s.subMu.acquire s.published s.called).writer_goto hpc (.inr (.inr rfl))
    · exact h
  · exact h.map hl hpc
  · exact (h.set s.subMu.unlock s.published s.called).writer_goto hpc (.inl ⟨rfl, rfl⟩)
  · exact (h.last hpc).1
  · rename_i ch
    obtain ⟨hreg, hopen⟩ := h.last hpc
    rw [if_neg (by rw [hopen]; simp)]
    exact hreg.setChan fun _ => .inr (by simp [Metrics.goto, Op.result])
  · exact (h.set (s.subMu.rlock g) s.published s.called).leave g (by simp) (by simp)
  · split_ifs
    · exact h
    · exact h.leave g (by simp) (by simp)
  · exact (h.set s.subMu _ s.called).send_goto (iteration_perm order).subset
  · exact (h.set (s.subMu.runlock g) s.published s.called).leave g (by simp) (by simp)
  · rename_i event ch todo
    have hopen := h.open_of_send hpc
    have htodo : todo ⊆ s.subscribers := fun x hx => h.sends g event _ hpc (List.mem_cons_of_mem _ hx)
    rw [if_neg (by rw [hopen]; simp)]
    split_ifs
    · have hset : Registry { s with
          chan := Function.update s.chan ch { s.chan ch with queue := (s.chan ch).queue ++ [event] } } :=
        h.setChan fun hc => .inl hc
      exact hset.send_goto htodo
    · exact h.send_goto htodo

theorem call_registry (h : Registry s) (g : ℕ) (f : Call E) : Registry (s.call g f) := by
  -- a channel that is not in anyone's hands
  have hfree : ∀ ch, s.life ch = .fresh ∨ s.life ch = .opened → ∀ x op a, x ≠ g → s.pc x ≠ .writer op ch a := by
    intro ch hlife x op a _ hx
    rw [h.writer x op ch a hx] at hlife
    rcases hlife with hl | hl <;> cases op <;> cases hl
  have hnotClosed : ∀ ch, s.life ch ≠ .closed → ∀ l : Life, (s.chan ch).closed = true → l = .closed :=
    fun ch hlife l hc => absurd (h.closed ch hc) hlife
  unfold Metrics.call
  split
  · rename_i ch hpc
    split_ifs with hlife
    · refine h.relife (hfree ch (.inl hlife)) ?_ (by simp) (by simp) (by simp) (hnotClosed ch (by simp [hlife]) _)
      intro op ch' a he
      cases he
      exact ⟨rfl, rfl, rfl⟩
    · exact h
  · rename_i ch hpc
    split_ifs with hlife
    · refine h.relife (hfree ch (.inr hlife)) ?_ (by simp) (by simp) (by simp) (hnotClosed ch (by simp [hlife]) _)
      intro op ch' a he
      cases he
      exact ⟨rfl, rfl, rfl⟩
    · exact h
  · exact (h.set s.subMu s.published _).leave g (by simp) (by simp)
  · exact h

theorem take_registry (h : Registry s) (ch : ℕ) : Registry (s.take ch) := by
  unfold Metrics.take
  split
  · exact h
  · exact h.setChan fun hc => .inl hc

/-! ## What a channel accepts -/

/-- everything the channel has accepted, taken or still waiting -/
def delivered (s : Metrics E) (ch : ℕ) : List (Stamped E) := (s.chan ch).received ++ (s.chan ch).queue

/-- of that, what came from one publisher -/
def deliveredBy (s : Metrics E) (ch g : ℕ) : List (Stamped E) := (delivered s ch).filter fun x => x.by_ = g

/-- what one publisher has published while the channel was in the map -/
def sentTo (s : Metrics E) (ch g : ℕ) : List (Stamped E) :=
  (s.published.filter fun p => p.event.by_ = g ∧ ch ∈ p.targets).map Publication.event

/-- the event of a call of publish whose loop has not begun -/
def Pc.pending : Pc E → List E
  | .rlock evt | .rwait evt | .range evt => [evt]
  | _ => []

structure Delivery (s : Metrics E) : Prop where
  sublist : ∀ ch g, (deliveredBy s ch g).Sublist (sentTo s ch g)
  /-- a channel still to be sent to has accepted earlier publications only -/
  current : ∀ g event todo, s.pc g = .send event todo → event.by_ = g ∧ todo.Nodup ∧
    ∀ ch ∈ todo, ∃ earlier, sentTo s ch g = earlier ++ [event] ∧ (deliveredBy s ch g).Sublist earlier
  calls : ∀ g, (s.published.filter fun p => p.event.by_ = g).map (·.event.evt) ++ (s.pc g).pending = s.called g
  seqs : s.published.map (·.event.seq) = List.range s.published.length
  bounded : ∀ ch, (s.chan ch).queue.length ≤ sseBufferSize

theorem init_delivery : Delivery (init : Metrics E) where
  sublist := fun _ _ => List.Sublist.refl _
  current := fun _ _ _ h => by cases h
  calls := fun _ => rfl
  seqs := rfl
  bounded := fun _ => Nat.zero_le _

/-- a step that publishes and delivers nothing; a loop may drop channels it had still to send to -/
theorem Delivery.move (h : Delivery s) {s' : Metrics E} {k : Pc E} (hpc : s'.pc = Function.update s.pc g k)
    (hchan : ∀ ch, (s'.chan ch).received = (s.chan ch).received ∧ (s'.chan ch).queue = (s.chan ch).queue)
    (hpub : s'.published = s.published) (hcalled : s'.called = s.called)
    (hk : ∀ event todo, k = .send event todo → ∃ todo', s.pc g = .send event todo' ∧ todo.Sublist todo')
    (hpending : k.pending = (s.pc g).pending) : Delivery s' := by
  have hdel : ∀ ch x, deliveredBy s' ch x = deliveredBy s ch x := by
    intro ch x
    rw [deliveredBy, delivered, (hchan ch).1, (hchan ch).2]
    rfl
  have hsent : ∀ ch x, sentTo s' ch x = sentTo s ch x := by
    intro ch x
    rw [sentTo, hpub]
    rfl
  refine ⟨fun ch x => ?_, fun x event todo hx => ?_, fun x => ?_, ?_, fun ch => ?_⟩
  · rw [hdel, hsent]
    exact h.sublist ch x
  · rw [hpc] at hx
    have hold : ∃ todo', s.pc x = .send event todo' ∧ todo.Sublist todo' := by
      by_cases hxg : x = g
      · subst hxg
        rw [Function.update_self] at hx
        exact hk event todo hx
      · rw [Function.update_of_ne hxg] at hx
        exact ⟨todo, hx, List.Sublist.refl _⟩
    obtain ⟨todo', hx', hsub⟩ := hold
    obtain ⟨hby, hnodup, hcur⟩ := h.current x event todo' hx'
    refine ⟨hby, hnodup.sublist hsub, fun ch hch => ?_⟩
    rw [hdel, hsent]
    exact hcur ch (hsub.subset hch)
  · rw [hpub, hcalled, hpc, ← h.calls x]
    by_cases hxg : x = g
    · subst hxg
      rw [Function.update_self, hpending]
    · rw [Function.update_of_ne hxg]
  · rw [hpub]
    exact h.seqs
  · rw [(hchan ch).2]
    exact h.bounded ch

theorem sentTo_snoc (s : Metrics E) (p : Publication E) (ch g : ℕ) :
    sentTo { s with published := s.published ++ [p] } ch g =
      sentTo s ch g ++ if p.event.by_ = g ∧ ch ∈ p.targets then [p.event] else [] := by
  unfold sentTo
  rw [List.filter_append, List.map_append]
  by_cases hp : p.event.by_ = g ∧ ch ∈ p.targets
  · simp [hp]
  · simp [hp]

/-- the loop of a publication begins -/
theorem Delivery.publishes (h : Delivery s) (hr : Registry s) {evt : E} {order : List ℕ} (hg : s.pc g = .range evt) :
    Delivery ({ s with published := s.published ++ [Publication.mk ⟨g, s.published.length, evt⟩ s.subscribers] }.goto g
      (.send ⟨g, s.published.length, evt⟩ (s.iteration order))) := by
  set p : Publication E := ⟨⟨g, s.published.length, evt⟩, s.subscribers⟩
  refine ⟨fun ch x => ?_, fun x event todo hx => ?_, fun x => ?_, ?_, h.bounded⟩
  · change (deliveredBy s ch x).Sublist (sentTo { s with published := s.published ++ [p] } ch x)
    rw [sentTo_snoc]
    exact (h.sublist ch x).trans (List.sublist_append_left _ _)
  · change event.by_ = x ∧ todo.Nodup ∧ ∀ ch ∈ todo, ∃ earlier,
      sentTo { s with published := s.published ++ [p] } ch x = earlier ++ [event] ∧ (deliveredBy s ch x).Sublist earlier
    by_cases hxg : x = g
    · subst hxg
      simp only [Metrics.goto, Function.update_self] at hx
      cases hx
      refine ⟨rfl, (iteration_perm order).nodup_iff.2 hr.nodup, fun ch hch => ⟨sentTo s ch x, ?_, h.sublist ch x⟩⟩
      have hin : ch ∈ s.subscribers := (iteration_perm order).subset hch
      rw [sentTo_snoc, if_pos ⟨rfl, hin⟩]
    · simp only [Metrics.goto, Function.update_of_ne hxg] at hx
      obtain ⟨hby, hnodup, hcur⟩ := h.current x event todo hx
      refine ⟨hby, hnodup, fun ch hch => ?_⟩
      rw [sentTo_snoc, if_neg fun hp => hxg hp.1.symm, List.append_nil]
      exact hcur ch hch
  · change ((s.published ++ [p]).filter fun q => q.event.by_ = x).map (·.event.evt) ++ _ = s.called x
    rw [← h.calls x, List.filter_append, List.map_append]
    by_cases hxg : x = g
    · subst hxg
      simp [Metrics.goto, hg, p, Pc.pending]
    · have hne : ¬ p.event.by_ = x := fun he => hxg he.symm
      simp [Metrics.goto, Function.update_of_ne hxg, hne]
  · change (s.published ++ [p]).map (·.event.seq) = List.range (s.published ++ [p]).length
    rw [List.map_append, h.seqs, List.length_append, List.length_singleton, List.range_succ]
    rfl

/-- a channel with room accepts the event -/
theorem Delivery.accepts (h : Delivery s) {event : Stamped E} {ch : ℕ} {todo : List ℕ}
    (hg : s.pc g = .send event (ch :: todo)) (hroom : (s.chan ch).queue.length < sseBufferSize) :
    Delivery ({ s with
      chan := Function.update s.chan ch { s.chan ch with queue := (s.chan ch).queue ++ [event] } }.goto g
        (.send event todo)) := by
  obtain ⟨hby, hnodup, hcur⟩ := h.current g event _ hg
  obtain ⟨hnotin, hnodup'⟩ := List.nodup_cons.1 hnodup
  set s' := { s with chan := Function.update s.chan ch { s.chan ch with queue := (s.chan ch).queue ++ [event] } }
  have hsame : ∀ c x, c ≠ ch ∨ x ≠ g → deliveredBy s' c x = deliveredBy s c x := by
    intro c x hc
    by_cases hcc : c = ch
    · subst hcc
      have hne : ¬ event.by_ = x := fun he => hc.resolve_left (fun hn => hn rfl) (he.symm.trans hby)
      simp [deliveredBy, delivered, s', hne]
    · simp [deliveredBy, delivered, s', Function.update_of_ne hcc]
  have hgrown : deliveredBy s' ch g = deliveredBy s ch g ++ [event] := by
    simp [deliveredBy, delivered, s', hby]
  refine ⟨fun c x => ?_, fun x event' todo' hx => ?_, fun x => ?_, h.seqs, fun c => ?_⟩
  · change (deliveredBy s' c x).Sublist (sentTo s c x)
    by_cases hc : c = ch ∧ x = g
    · obtain ⟨rfl, rfl⟩ := hc
      obtain ⟨earlier, hsent, hsub⟩ := hcur c List.mem_cons_self
      rw [hgrown, hsent]
      exact hsub.append (List.Sublist.refl _)
    · rw [hsame c x (not_and_or.1 hc)]
      exact h.sublist c x
  · change event'.by_ = x ∧ todo'.Nodup ∧ ∀ c ∈ todo', ∃ earlier, sentTo s c x = earlier ++ [event'] ∧
      (deliveredBy s' c x).Sublist earlier
    by_cases hxg : x = g
    · subst hxg
      simp only [Metrics.goto, Function.update_self] at hx
      cases hx
      refine ⟨hby, hnodup', fun c hc => ?_⟩
      have hne : c ≠ ch := by
        rintro rfl
        exact hnotin hc
      rw [hsame c x (.inl hne)]
      exact hcur c (List.mem_cons_of_mem _ hc)
    · simp only [Metrics.goto, Function.update_of_ne hxg] at hx
      obtain ⟨hby', hnodup'', hcur'⟩ := h.current x event' todo' hx
      refine ⟨hby', hnodup'', fun c hc => ?_⟩
      rw [hsame c x (.inr hxg)]
      exact hcur' c hc
  · have hcalls := h.calls x
    by_cases hxg : x = g
    · subst hxg
      rw [hg] at hcalls
      simpa [Metrics.goto, Pc.pending, s'] using hcalls
    · simpa [Metrics.goto, Function.update_of_ne hxg, s'] using hcalls
  · by_cases hc : c = ch
    · subst hc
      simpa [Metrics.goto, s'] using hroom
    · simpa [Metrics.goto, s', Function.update_of_ne hc] using h.bounded c

theorem exec_delivery (h : Delivery s) (hr : Registry s) (g : ℕ) (order : List ℕ) : Delivery (s.exec g order) := by
  have hsame : ∀ ch, (s.chan ch).received = (s.chan ch).received ∧ (s.chan ch).queue = (s.chan ch).queue :=
    fun _ => ⟨rfl, rfl⟩
  unfold Metrics.exec
  split <;> rename_i hpc
  · exact h
  · split_ifs
    · exact h.move rfl hsame rfl rfl (by simp) (by rw [hpc]; rfl)
    · exact h
  · split_ifs
    · exact h.move rfl hsame rfl rfl (by simp) (by rw [hpc]; rfl)
    · exact h
  · exact h.move rfl hsame rfl rfl (by simp) (by rw [hpc]; rfl)
  · exact h.move rfl hsame rfl rfl (by simp) (by rw [hpc]; rfl)
  · exact h.move rfl hsame rfl rfl (by simp) (by rw [hpc]; rfl)
  · rename_i ch
    rw [if_neg (by rw [(hr.last hpc).2]; simp)]
    refine h.move rfl (fun c => ?_) rfl rfl (by simp) (by rw [hpc]; rfl)
    by_cases hc : c = ch
    · subst hc
      simp [Metrics.goto]
    · simp [Metrics.goto, Function.update_of_ne hc]
  · exact h.move rfl hsame rfl rfl (by simp) (by rw [hpc]; rfl)
  · split_ifs
    · exact h
    · exact h.move rfl hsame rfl rfl (by simp) (by rw [hpc]; rfl)
  · exact h.publishes hr hpc
  · exact h.move rfl hsame rfl rfl (by simp) (by rw [hpc]; rfl)
  · rename_i event ch todo
    rw [if_neg (by rw [hr.open_of_send hpc]; simp)]
    split_ifs with hroom
    · exact h.accepts hpc hroom
    · refine h.move rfl hsame rfl rfl ?_ (by rw [hpc]; rfl)
      intro event' todo' he
      cases he
      exact ⟨_, hpc, List.sublist_cons_self _ _⟩

theorem call_delivery (h : Delivery s) (g : ℕ) (f : Call E) : Delivery (s.call g f) := by
  have hsame : ∀ ch, (s.chan ch).received = (s.chan ch).received ∧ (s.chan ch).queue = (s.chan ch).queue :=
    fun _ => ⟨rfl, rfl⟩
  unfold Metrics.call
  split
  · rename_i ch hpc
    split_ifs
    · exact h.move rfl hsame rfl rfl (by simp) (by rw [hpc]; rfl)
    · exact h
  · rename_i ch hpc
    split_ifs
    · exact h.move rfl hsame rfl rfl (by simp) (by rw [hpc]; rfl)
    · exact h
  · rename_i evt hpc
    refine { h with current := ?_, calls := ?_ }
    · intro x event todo hx
      have hxg : x ≠ g := by
        rintro rfl
        simp [Metrics.goto] at hx
      simp only [Metrics.goto, Function.update_of_ne hxg] at hx
      exact h.current x event todo hx
    · intro x
      by_cases hxg : x = g
      · subst hxg
        have hcalls := h.calls x
        rw [hpc] at hcalls
        simp only [Metrics.goto, Function.update_self, ← hcalls, Pc.pending, List.append_nil]
      · simpa [Metrics.goto, Function.update_of_ne hxg] using h.calls x
  · exact h

theorem take_delivered (ch c : ℕ) : delivered (s.take ch) c = delivered s c := by
  unfold Metrics.take
  split
  · rfl
  · rename_i x queue hq
    by_cases hc : c = ch
    · subst hc
      simp [delivered, hq]
    · simp [delivered, Function.update_of_ne hc]

theorem take_delivery (h : Delivery s) (ch : ℕ) : Delivery (s.take ch) := by
  have hdel : ∀ c x, deliveredBy (s.take ch) c x = deliveredBy s c x := by
    intro c x
    rw [deliveredBy, take_delivered]
    rfl
  have hrest : (s.take ch).pc = s.pc ∧ (s.take ch).published = s.published ∧ (s.take ch).called = s.called := by
    unfold Metrics.take
    split <;> exact ⟨rfl, rfl, rfl⟩
  obtain ⟨hpc, hpub, hcalled⟩ := hrest
  refine ⟨fun c x => ?_, fun x event todo hx => ?_, fun x => ?_, ?_, fun c => ?_⟩
  · rw [hdel, sentTo, hpub]
    exact h.sublist c x
  · rw [hpc] at hx
    simp only [hdel, sentTo, hpub]
    exact h.current x event todo hx
  · rw [hpub, hpc, hcalled]
    exact h.calls x
  · rw [hpub]
    exact h.seqs
  · have hb := h.bounded c
    unfold Metrics.take
    split
    · exact hb
    · rename_i x queue hq
      by_cases hc : c = ch
      · subst hc
        rw [hq] at hb
        simp only [Function.update_self, List.length_cons] at hb ⊢
        omega
      · simpa [Function.update_of_ne hc] using hb

/-! ## Whole runs -/

structure Inv (s : Metrics E) : Prop where
  locked : Locked s.subMu s.pc
  registry : Registry s
  delivery : Delivery s

theorem init_inv : Inv (init : Metrics E) := ⟨init_locked, init_registry, init_delivery⟩

theorem step_inv (h : Inv s) (a : Act E) : Inv (step s a) := by
  cases a with
  | exec g order =>
    exact ⟨exec_locked h.locked g order, exec_registry h.registry h.locked g order,
      exec_delivery h.delivery h.registry g order⟩
  | call g f => exact ⟨call_locked h.locked g f, call_registry h.registry g f, call_delivery h.delivery g f⟩
  | take ch =>
    refine ⟨?_, take_registry h.registry ch, take_delivery h.delivery ch⟩
    have hrest : (s.take ch).subMu = s.subMu ∧ (s.take ch).pc = s.pc := by
      unfold Metrics.take
      split <;> exact ⟨rfl, rfl⟩
    change Locked (s.take ch).subMu (s.take ch).pc
    rw [hrest.1, hrest.2]
    exact h.locked

theorem run_inv (as : List (Act E)) : Inv (run step init as) :=
  run_inv_all (I := Inv) (fun _ a h => step_inv h a) as init_inv

/-- the publisher has still to send the event to the channel -/
def StillToSend (s : Metrics E) (ch : ℕ) (event : Stamped E) : Prop :=
  ∃ g todo, s.pc g = .send event todo ∧ ch ∈ todo

/-- the publisher is at the send of the event to the channel, and the channel is full -/
def SendsToFull (s : Metrics E) (ch : ℕ) (event : Stamped E) : Act E → Prop
  | .exec g _ => ∃ todo, s.pc g = .send event (ch :: todo) ∧ (s.chan ch).queue.length = sseBufferSize
  | _ => False

theorem mem_delivered_exec (h : Registry s) (g : ℕ) (order : List ℕ) {ch : ℕ} {event : Stamped E}
    (hin : event ∈ delivered s ch) : event ∈ delivered (s.exec g order) ch := by
  unfold Metrics.exec
  split <;> rename_i hpc <;> try exact hin
  · split_ifs <;> exact hin
  · split_ifs <;> exact hin
  · rename_i c
    rw [if_neg (by rw [(h.last hpc).2]; simp)]
    by_cases hc : ch = c
    · subst hc
      simpa [delivered, Metrics.goto] using hin
    · simpa [delivered, Metrics.goto, Function.update_of_ne hc] using hin
  · split_ifs <;> exact hin
  · rename_i event' c todo
    rw [if_neg (by rw [h.open_of_send hpc]; simp)]
    split_ifs
    · by_cases hc : ch = c
      · subst hc
        have hgrown : delivered (({ s with
            chan := Function.update s.chan ch { s.chan ch with queue := (s.chan ch).queue ++ [event'] } }.goto g
              (.send event' todo))) ch = delivered s ch ++ [event'] := by
          simp [delivered, Metrics.goto]
        rw [hgrown]
        exact List.mem_append_left _ hin
      · simpa [delivered, Metrics.goto, Function.update_of_ne hc] using hin
    · exact hin

theorem exec_pc_of_ne {x : ℕ} (hx : x ≠ g) (order : List ℕ) : (s.exec g order).pc x = s.pc x := by
  unfold Metrics.exec
  split <;> (try split_ifs) <;> simp [Metrics.goto, hx]

/-- an event still to be sent is delivered, dropped at a full channel, or still to be sent -/
theorem exec_stillToSend (h : Inv s) (g : ℕ) (order : List ℕ) {ch : ℕ} {event : Stamped E}
    (hstill : StillToSend s ch event) :
    event ∈ delivered (s.exec g order) ch ∨ StillToSend (s.exec g order) ch event ∨
      SendsToFull s ch event (.exec g order) := by
  obtain ⟨x, todo, hx, hch⟩ := hstill
  by_cases hxg : x = g
  · subst hxg
    match todo, hch with
    | c :: todo, hch =>
      have hexec : s.exec x order = if (s.chan c).queue.length < sseBufferSize then
          { s with chan := Function.update s.chan c { s.chan c with queue := (s.chan c).queue ++ [event] } }.goto x
            (.send event todo)
        else s.goto x (.send event todo) := by
        unfold Metrics.exec
        simp only [hx]
        rw [if_neg (by rw [h.registry.open_of_send hx]; simp)]
      rcases List.mem_cons.1 hch with rfl | hch
      · by_cases hroom : (s.chan ch).queue.length < sseBufferSize
        · left
          rw [hexec, if_pos hroom]
          simp [delivered, Metrics.goto]
        · exact .inr (.inr ⟨todo, hx, le_antisymm (h.delivery.bounded ch) (not_lt.1 hroom)⟩)
      · right; left
        refine ⟨x, todo, ?_, hch⟩
        rw [hexec]
        split_ifs <;> simp [Metrics.goto]
  · exact .inr (.inl ⟨x, todo, by rw [exec_pc_of_ne hxg, hx], hch⟩)

theorem exec_published (s : Metrics E) (g : ℕ) (order : List ℕ) {p : Publication E}
    (hp : p ∈ (s.exec g order).published) :
    p ∈ s.published ∨ ∀ ch ∈ p.targets, StillToSend (s.exec g order) ch p.event := by
  unfold Metrics.exec at hp ⊢
  split at hp <;> try exact .inl hp
  · split_ifs at hp <;> exact .inl hp
  · split_ifs at hp <;> exact .inl hp
  · split_ifs at hp <;> exact .inl hp
  · split_ifs at hp <;> exact .inl hp
  · rename_i evt hpc
    rcases List.mem_append.1 hp with hp | hp
    · exact .inl hp
    · right
      rw [List.mem_singleton.1 hp]
      intro ch hch
      exact ⟨g, s.iteration order, by simp [Metrics.goto], (iteration_perm order).mem_iff.2 hch⟩
  · split_ifs at hp <;> exact .inl hp

/-- every event published while a channel was in the map is in the channel, on its way, or was dropped at a full one -/
theorem run_accounted (as : List (Act E)) : ∀ p ∈ (run step init as).published, ∀ ch ∈ p.targets,
    p.event ∈ delivered (run step init as) ch ∨ StillToSend (run step init as) ch p.event ∨
      ∃ pre a post, as = pre ++ a :: post ∧ SendsToFull (run step init pre) ch p.event a := by
  induction as using List.reverseRecOn with
  | nil => intro p hp; cases hp
  | append_singleton as a ih =>
    intro p hp ch hch
    have hinv := run_inv as
    have keep : (∃ pre b post, as = pre ++ b :: post ∧ SendsToFull (run step init pre) ch p.event b) →
        ∃ pre b post, as ++ [a] = pre ++ b :: post ∧ SendsToFull (run step init pre) ch p.event b := by
      rintro ⟨pre, b, post, rfl, hfull⟩
      exact ⟨pre, b, post ++ [a], by simp, hfull⟩
    rw [run_snoc] at hp ⊢
    cases a with
    | exec g order =>
      rcases exec_published _ g order hp with hp | hnew
      · rcases ih p hp ch hch with hin | hstill | hfull
        · exact .inl (mem_delivered_exec hinv.registry g order hin)
        · rcases exec_stillToSend hinv g order hstill with hin | hstill | hfull
          · exact .inl hin
          · exact .inr (.inl hstill)
          · exact .inr (.inr ⟨as, _, [], rfl, hfull⟩)
        · exact .inr (.inr (keep hfull))
      · exact .inr (.inl (hnew ch hch))
    | call g f =>
      have hsame : delivered (step (run step init as) (.call g f)) ch = delivered (run step init as) ch ∧
          (step (run step init as) (.call g f)).published = (run step init as).published := by
        simp only [step, Metrics.call]
        split <;> (try split_ifs) <;> exact ⟨rfl, rfl⟩
      have hidle : ∀ x event todo, (run step init as).pc x = .send event todo →
          (step (run step init as) (.call g f)).pc x = .send event todo := by
        intro x event todo hx
        simp only [step, Metrics.call]
        split <;> rename_i hpc <;> (try split_ifs) <;> try exact hx
        all_goals
          have hxg : x ≠ g := by
            rintro rfl
            rw [hx] at hpc
            cases hpc
          simpa [Metrics.goto, Function.update_of_ne hxg] using hx
      rw [hsame.2] at hp
      rcases ih p hp ch hch with hin | ⟨x, todo, hx, htodo⟩ | hfull
      · exact .inl (hsame.1 ▸ hin)
      · exact .inr (.inl ⟨x, todo, hidle x _ todo hx, htodo⟩)
      · exact .inr (.inr (keep hfull))
    | take c =>
      have hsame : (step (run step init as) (.take c)).published = (run step init as).published ∧
          (step (run step init as) (.take c)).pc = (run step init as).pc := by
        simp only [step, Metrics.take]
        split <;> exact ⟨rfl, rfl⟩
      rw [hsame.1] at hp
      rcases ih p hp ch hch with hin | ⟨x, todo, hx, htodo⟩ | hfull
      · refine .inl ?_
        change p.event ∈ delivered ((run step init as).take c) ch
        rwa [take_delivered]
      · exact .inr (.inl ⟨x, todo, by rw [hsame.2, hx], htodo⟩)
      · exact .inr (.inr (keep hfull))

/-- **No send on a closed channel, and no event lost without cause.** After any steps of any goroutines:
- nothing has panicked, and the channel a publisher sends to next is open;
- what a channel has accepted from one publisher is a sublist of what this publisher published while the channel was in
  the map, in the order of its calls; a channel that Subscribe has returned and nobody unsubscribes is in the map;
- what has been published while a channel was in the map has been accepted by it, is still to be sent to it, or met a
  full channel when it was sent. -/
theorem pubsub_safe (as : List (Act E)) :
    ((run step init as).panicked = false ∧
      ∀ g event ch todo, (run step init as).pc g = .send event (ch :: todo) → ((run step init as).chan ch).closed = false) ∧
    (∀ ch g, (((run step init as).chan ch).received.filter fun x => x.by_ = g).Sublist (sentTo (run step init as) ch g) ∧
      (deliveredBy (run step init as) ch g).Sublist (sentTo (run step init as) ch g)) ∧
    (∀ g, (((run step init as).published.filter fun p => p.event.by_ = g).map (·.event.evt)) <+:
      (run step init as).called g) ∧
    (run step init as).published.map (·.event.seq) = List.range (run step init as).published.length ∧
    (∀ ch, (run step init as).life ch = .opened → ch ∈ (run step init as).subscribers) ∧
    ∀ p ∈ (run step init as).published, ∀ ch ∈ p.targets,
      p.event ∈ delivered (run step init as) ch ∨ StillToSend (run step init as) ch p.event ∨
        ∃ pre a post, as = pre ++ a :: post ∧ SendsToFull (run step init pre) ch p.event a := by
  have hinv := run_inv as
  refine ⟨⟨hinv.registry.safe, fun g event ch todo hg => hinv.registry.open_of_send hg⟩, fun ch g => ⟨?_, ?_⟩,
    fun g => ?_, hinv.delivery.seqs, hinv.registry.opened, run_accounted as⟩
  · have htaken : (((run step init as).chan ch).received.filter fun x => x.by_ = g).Sublist
        (deliveredBy (run step init as) ch g) := (List.sublist_append_left _ _).filter _
    exact htaken.trans (hinv.delivery.sublist ch g)
  · exact hinv.delivery.sublist ch g
  · exact ⟨_, hinv.delivery.calls g⟩

end MeshProxy.PubSub
