/-
The traceroute button (`internal/web/templates/static/app.js`: startTraceroute, handleTracerouteResult, startCooldown).

One global is the pending trace, another the cooldown after it. Callbacks run later and act on these globals: the 30-second
timer of a start, the rejection of its request, the result event, the ticks of a cooldown. The browser's part of the
state is the timeouts and intervals that are live, with what their callbacks close over, and the requests that are not
settled. A start is known by the id of its timer. Any clock reading may come with any event.

- `Inv`: the live timeout is the pending trace's own, the running interval the cooldown's, and not both are there;
- `step_spares_iff`: an event of an earlier start leaves the pending trace alone exactly when it is `OnTime`;
- `traceroute_iff`: that is the only way in which a run can go wrong.
The result event carries no start; which one it answers is a ghost argument of the step.
-/
import MeshProxy.Core.Trace

namespace MeshProxy.Traceroute

open MeshProxy.Trace

/-! ## The page and the browser -/

/-- `pendingTraceroute` -/
structure Pending where
  target : UInt32
  timer : ℕ
  startedAt : ℤ
deriving DecidableEq, Repr

/-- `traceCooldown` -/
structure Cooldown where
  target : UInt32
  interval : ℕ
  remaining : ℤ
deriving DecidableEq, Repr

/-- a live timeout, with the node that its callback closes over -/
structure Timer where
  id : ℕ
  nodeNum : UInt32
deriving DecidableEq, Repr

/-- a running interval, with the node and the counter that its callback closes over -/
structure Interval where
  id : ℕ
  nodeNum : UInt32
  remaining : ℤ
deriving DecidableEq, Repr

/-- a request that is not settled, with its start and the node that its `catch` closes over -/
structure Request where
  start : ℕ
  nodeNum : UInt32
deriving DecidableEq, Repr

/-- what the trace buttons of a node show -/
inductive Button where
  | idle
  | loading
  | cooling (remaining : ℤ)
deriving DecidableEq, Repr

structure St where
  pendingTraceroute : Option Pending
  traceCooldown : Option Cooldown
  timers : List Timer
  intervals : List Interval
  requests : List Request
  /-- the browser's next timeout or interval id -/
  nextId : ℕ
  buttons : UInt32 → Button
  /-- the nodes of the "no response" entries of the trace history -/
  noResponse : List UInt32

namespace St

def init : St := ⟨none, none, [], [], [], 1, fun _ => .idle, []⟩

def clearTimeout (id : ℕ) (s : St) : St := { s with timers := s.timers.filter fun t => t.id ≠ id }

def clearInterval (id : ℕ) (s : St) : St := { s with intervals := s.intervals.filter fun i => i.id ≠ id }

def showBtn (nodeNum : UInt32) (b : Button) (s : St) : St := { s with buttons := Function.update s.buttons nodeNum b }

def resetTraceBtn (nodeNum : UInt32) (s : St) : St := s.showBtn nodeNum .idle

/-- the seconds since the start; none is known when it is null or 0 -/
def elapsed (startedAt : Option ℤ) (now : ℤ) : ℤ :=
  match startedAt with
  | none => 0
  | some t => if t = 0 then 0 else (now - t) / 1000

def startCooldown (nodeNum : UInt32) (startedAt : Option ℤ) (now : ℤ) (s : St) : St :=
  let remaining := max (30 - elapsed startedAt now) 0
  if remaining ≤ 0 then s.resetTraceBtn nodeNum
  else
    { s.showBtn nodeNum (.cooling remaining) with
      traceCooldown := some ⟨nodeNum, s.nextId, remaining⟩
      intervals := s.intervals ++ [⟨s.nextId, nodeNum, remaining⟩]
      nextId := s.nextId + 1 }

def startTraceroute (nodeNum : UInt32) (now : ℤ) (s : St) : St :=
  if s.pendingTraceroute.isSome then s
  else if s.traceCooldown.isSome then s
  else
    { s.showBtn nodeNum .loading with
      timers := s.timers ++ [⟨s.nextId, nodeNum⟩]
      pendingTraceroute := some ⟨nodeNum, s.nextId, now⟩
      requests := s.requests ++ [⟨s.nextId, nodeNum⟩]
      nextId := s.nextId + 1 }

/-- the callback of the timeout -/
def onTimer (t : Timer) (now : ℤ) (s : St) : St :=
  let sa := s.pendingTraceroute.map Pending.startedAt
  { s.clearTimeout t.id with
    noResponse := s.noResponse ++ [(s.pendingTraceroute.map Pending.target).getD t.nodeNum]
    pendingTraceroute := none }.startCooldown t.nodeNum sa now

/-- the `catch` of the request: whatever is pending is cleared -/
def onRejected (r : Request) (s : St) : St :=
  let s := { s with requests := s.requests.erase r }
  match s.pendingTraceroute with
  | some p => { s.clearTimeout p.timer with pendingTraceroute := none }.resetTraceBtn r.nodeNum
  | none => s.resetTraceBtn r.nodeNum

def handleTracerouteResult (from_ : UInt32) (now : ℤ) (s : St) : St :=
  match s.pendingTraceroute with
  | none => s
  | some p =>
    if p.target ≠ from_ then s
    else { s.clearTimeout p.timer with pendingTraceroute := none }.startCooldown p.target (some p.startedAt) now

/-- the counter that the callback of an interval closes over -/
def setRemaining (id : ℕ) (remaining : ℤ) (s : St) : St :=
  { s with intervals := s.intervals.map fun (i : Interval) => if i.id = id then { i with remaining := remaining } else i }

/-- the callback of the interval; without a cooldown it throws after it has counted -/
def onTick (i : Interval) (s : St) : St :=
  let remaining := i.remaining - 1
  let s := s.setRemaining i.id remaining
  match s.traceCooldown with
  | none => s
  | some c =>
    let s := { s with traceCooldown := some { c with remaining := remaining } }.showBtn i.nodeNum (.cooling remaining)
    if remaining ≤ 0 then { s.clearInterval c.interval with traceCooldown := none }.resetTraceBtn i.nodeNum else s

end St

inductive Act where
  | start (nodeNum : UInt32) (now : ℤ)
  | reject (start : ℕ)
  | fulfil (start : ℕ)
  | timer (id : ℕ) (now : ℤ)
  | result (owner : Option ℕ) (from_ : UInt32) (now : ℤ)
  | tick (id : ℕ)
deriving DecidableEq, Repr

/-- an event of a timeout, interval or request that is not live does not happen -/
def step (s : St) : Act → St
  | .start nodeNum now => s.startTraceroute nodeNum now
  | .reject k =>
    match s.requests.find? fun r => r.start = k with
    | some r => s.onRejected r
    | none => s
  | .fulfil k => { s with requests := s.requests.filter fun r => r.start ≠ k }
  | .timer id now =>
    match s.timers.find? fun t => t.id = id with
    | some t => s.onTimer t now
    | none => s
  | .result _ from_ now => s.handleTracerouteResult from_ now
  | .tick id =>
    match s.intervals.find? fun i => i.id = id with
    | some i => s.onTick i
    | none => s

/-- the start whose trace the event belongs to -/
def Act.startOf : Act → Option ℕ
  | .reject k => some k
  | .timer k _ => some k
  | .result owner _ _ => owner
  | _ => none

/-- not both a pending trace and a cooldown, and not two running intervals -/
structure Exclusive (s : St) : Prop where
  one : s.pendingTraceroute = none ∨ s.traceCooldown = none
  interval : s.intervals.length ≤ 1

/-- the event, if it belongs to an earlier start than the pending trace, leaves that as it is -/
def Spares (s : St) (a : Act) : Prop :=
  ∀ k p, a.startOf = some k → s.pendingTraceroute = some p → k < p.timer → (step s a).pendingTraceroute = some p

/-- no later trace is pending when a request is rejected, nor, with the node it comes from as its target, when a result
is received -/
def OnTime (s : St) : Act → Prop
  | .reject k => ∀ r ∈ s.requests, r.start = k → ∀ p, s.pendingTraceroute = some p → ¬k < p.timer
  | .result (some k) from_ _ => ∀ p, s.pendingTraceroute = some p → k < p.timer → p.target ≠ from_
  | _ => True

/-! ## What is live -/

structure Inv (s : St) : Prop where
  timers : s.timers = s.pendingTraceroute.toList.map fun p => ⟨p.timer, p.target⟩
  intervals : s.intervals = s.traceCooldown.toList.map fun c => ⟨c.interval, c.target, c.remaining⟩
  one : s.pendingTraceroute = none ∨ s.traceCooldown = none

theorem inv_init : Inv .init := ⟨rfl, rfl, .inl rfl⟩

variable {s : St}

theorem Inv.exclusive (h : Inv s) : Exclusive s where
  one := h.one
  interval := by
    rw [h.intervals]
    cases s.traceCooldown <;> simp

theorem startCooldown_pending (nodeNum : UInt32) (startedAt : Option ℤ) (now : ℤ) :
    (s.startCooldown nodeNum startedAt now).pendingTraceroute = s.pendingTraceroute := by
  unfold St.startCooldown
  simp only
  split_ifs <;> rfl

/-- a cooldown starts when nothing is pending and no other runs -/
theorem startCooldown_inv (h : Inv s) (hp : s.pendingTraceroute = none) (hc : s.traceCooldown = none) (nodeNum : UInt32)
    (startedAt : Option ℤ) (now : ℤ) : Inv (s.startCooldown nodeNum startedAt now) := by
  have ht := h.timers
  have hi := h.intervals
  rw [hp] at ht
  rw [hc] at hi
  unfold St.startCooldown
  simp only
  split_ifs
  · exact ⟨h.timers, h.intervals, h.one⟩
  · refine ⟨?_, ?_, Or.inl hp⟩
    · simp [St.showBtn, ht, hp]
    · simp [hi]

/-- what clears the pending trace clears its timeout -/
theorem clear_inv (h : Inv s) {p : Pending} (hp : s.pendingTraceroute = some p) {t : St}
    (hp' : t.pendingTraceroute = none) (ht' : t.timers = (s.clearTimeout p.timer).timers)
    (hc' : t.traceCooldown = s.traceCooldown) (hi' : t.intervals = s.intervals) :
    Inv t ∧ t.traceCooldown = none := by
  have hc : s.traceCooldown = none := h.one.resolve_left (by simp [hp])
  have ht := h.timers
  have hi := h.intervals
  rw [hp] at ht
  refine ⟨⟨?_, ?_, Or.inl hp'⟩, hc'.trans hc⟩
  · simp [ht', St.clearTimeout, ht, hp']
  · rw [hi', hc', hi]

theorem startTraceroute_inv (h : Inv s) (nodeNum : UInt32) (now : ℤ) : Inv (s.startTraceroute nodeNum now) := by
  unfold St.startTraceroute
  split_ifs with hp hc
  · exact h
  · exact h
  · have hp : s.pendingTraceroute = none := by simpa using hp
    have hc : s.traceCooldown = none := by simpa using hc
    have ht := h.timers
    rw [hp] at ht
    refine ⟨?_, h.intervals, Or.inr hc⟩
    simp [ht]

theorem onTimer_inv (h : Inv s) {t : Timer} (ht : t ∈ s.timers) (now : ℤ) : Inv (s.onTimer t now) := by
  -- the timeout is the pending trace's own
  obtain ⟨p, hp, rfl⟩ : ∃ p, s.pendingTraceroute = some p ∧ ⟨p.timer, p.target⟩ = t := by
    rw [h.timers] at ht
    simpa using ht
  unfold St.onTimer
  obtain ⟨hinv, hc⟩ := clear_inv h hp (t := { s.clearTimeout p.timer with
    noResponse := s.noResponse ++ [(s.pendingTraceroute.map Pending.target).getD p.target]
    pendingTraceroute := none }) rfl rfl rfl rfl
  exact startCooldown_inv hinv rfl hc _ _ now

theorem onRejected_inv (h : Inv s) (r : Request) : Inv (s.onRejected r) := by
  unfold St.onRejected
  simp only
  split
  · rename_i p hp
    obtain ⟨hinv, -⟩ := clear_inv h hp (t := { St.clearTimeout p.timer { s with requests := s.requests.erase r } with
      pendingTraceroute := none }) rfl rfl rfl rfl
    exact ⟨hinv.timers, hinv.intervals, hinv.one⟩
  · exact ⟨h.timers, h.intervals, h.one⟩

theorem handleTracerouteResult_inv (h : Inv s) (from_ : UInt32) (now : ℤ) : Inv (s.handleTracerouteResult from_ now) := by
  unfold St.handleTracerouteResult
  split
  · exact h
  · rename_i p hp
    split_ifs
    · exact h
    · obtain ⟨hinv, hc⟩ := clear_inv h hp (t := { s.clearTimeout p.timer with pendingTraceroute := none }) rfl rfl rfl rfl
      exact startCooldown_inv hinv rfl hc _ _ now

theorem onTick_inv (h : Inv s) {i : Interval} (hi : i ∈ s.intervals) : Inv (s.onTick i) := by
  -- the interval is the cooldown's
  obtain ⟨c, hc, rfl⟩ : ∃ c, s.traceCooldown = some c ∧ ⟨c.interval, c.target, c.remaining⟩ = i := by
    rw [h.intervals] at hi
    simpa using hi
  have hp : s.pendingTraceroute = none := h.one.resolve_right (by simp [hc])
  have hints := h.intervals
  have ht := h.timers
  rw [hc] at hints
  rw [hp] at ht
  unfold St.onTick
  simp only [St.setRemaining, hc]
  split_ifs
  · refine ⟨?_, ?_, Or.inl hp⟩
    · simp [St.resetTraceBtn, St.showBtn, St.clearInterval, ht, hp]
    · simp [St.resetTraceBtn, St.showBtn, St.clearInterval, hints]
  · refine ⟨?_, ?_, Or.inl hp⟩
    · simp [St.showBtn, ht, hp]
    · simp [St.showBtn, hints]

theorem step_inv (h : Inv s) (a : Act) : Inv (step s a) := by
  cases a with
  | start nodeNum now => exact startTraceroute_inv h nodeNum now
  | reject start =>
    simp only [step]
    split
    · exact onRejected_inv h _
    · exact h
  | fulfil start => exact ⟨h.timers, h.intervals, h.one⟩
  | timer id now =>
    simp only [step]
    split
    · rename_i t ht
      exact onTimer_inv h (List.mem_of_find?_eq_some ht) now
    · exact h
  | result owner from_ now => exact handleTracerouteResult_inv h from_ now
  | tick id =>
    simp only [step]
    split
    · rename_i i hi
      exact onTick_inv h (List.mem_of_find?_eq_some hi)
    · exact h

/-! ## Events of an earlier start -/

theorem onRejected_pending (r : Request) : (s.onRejected r).pendingTraceroute = none := by
  unfold St.onRejected
  simp only
  split
  · rfl
  · assumption

/-- a rejection clears whatever is pending -/
theorem reject_spares_iff (k : ℕ) : Spares s (.reject k) ↔ OnTime s (.reject k) := by
  constructor
  · intro h r hr hk p hp hlt
    have hfound : ∃ r', s.requests.find? (fun r => r.start = k) = some r' :=
      Option.isSome_iff_exists.1 (List.find?_isSome.2 ⟨r, hr, by simpa using hk⟩)
    obtain ⟨r', hr'⟩ := hfound
    have hspared := h k p rfl hp hlt
    rw [step, hr', onRejected_pending] at hspared
    cases hspared
  · intro h k' p hk hp hlt
    cases hk
    simp only [step]
    split
    · rename_i r hr
      have hstart : r.start = k := by simpa using List.find?_some hr
      exact absurd hlt (h r (List.mem_of_find?_eq_some hr) hstart p hp)
    · exact hp

/-- a result ends the pending trace when it comes from its target -/
theorem result_spares_iff (owner : Option ℕ) (from_ : UInt32) (now : ℤ) :
    Spares s (.result owner from_ now) ↔ OnTime s (.result owner from_ now) := by
  cases owner with
  | none => exact iff_of_true nofun trivial
  | some k =>
    constructor
    · intro h p hp hlt htarget
      have hspared := h k p rfl hp hlt
      simp only [step, St.handleTracerouteResult, hp, htarget, ne_eq, not_true_eq_false, ↓reduceIte,
        startCooldown_pending] at hspared
      cases hspared
    · intro h k' p hk hp hlt
      cases hk
      simp only [step, St.handleTracerouteResult, hp, if_pos (h p hp hlt)]

/-- the timer of an earlier start is not live -/
theorem timer_spares (h : Inv s) (k : ℕ) (now : ℤ) : Spares s (.timer k now) := by
  intro k' p hk hp hlt
  cases hk
  have hnone : s.timers.find? (fun t => t.id = k) = none := by
    apply List.find?_eq_none.2
    intro t ht
    rw [h.timers, hp] at ht
    simp only [Option.toList_some, List.map_cons, List.map_nil, List.mem_singleton] at ht
    simp [ht, hlt.ne']
  rw [step, hnone]
  exact hp

theorem step_spares_iff (h : Inv s) (a : Act) : Spares s a ↔ OnTime s a := by
  cases a with
  | reject k => exact reject_spares_iff k
  | result owner from_ now => exact result_spares_iff owner from_ now
  | timer k now => exact iff_of_true (timer_spares h k now) trivial
  | start nodeNum now => exact iff_of_true nofun trivial
  | fulfil k => exact iff_of_true nofun trivial
  | tick id => exact iff_of_true nofun trivial

/-! ## Every run -/

theorem along_spares_iff (h : Inv s) (as : List Act) : Along step Spares s as ↔ Along step OnTime s as := by
  induction as generalizing s with
  | nil => exact Iff.rfl
  | cons a as ih => exact and_congr (step_spares_iff h a) (ih (step_inv h a))

/-- **The traceroute button.** In every run of starts, rejections, results, timers and ticks there is not both a pending
trace and a cooldown, nor a second running interval; and every event of an earlier start leaves the pending trace of a
later one alone exactly when every rejection and every result is on time. -/
theorem traceroute_iff (as : List Act) :
    (∀ bs, bs <+: as → Exclusive (run step .init bs)) ∧
      (Along step Spares .init as ↔ Along step OnTime .init as) := by
  refine ⟨fun bs _ => ?_, along_spares_iff inv_init as⟩
  exact (run_inv_all (I := Inv) (fun _ a h => step_inv h a) bs inv_init).exclusive

/-- node 7 is traced, without an answer for thirty seconds; then node 9 is traced, and the first request fails -/
def lateRejection : List Act :=
  [.start 7 1000000, .timer 1 1030000, .start 9 1031000, .reject 1]

/-- the trace of node 9 is not pending any more, and its timeout is gone -/
theorem late_rejection_clears :
    (run step .init lateRejection.dropLast).pendingTraceroute = some ⟨9, 2, 1031000⟩ ∧
      (run step .init lateRejection).pendingTraceroute = none ∧ (run step .init lateRejection).timers = [] ∧
      ¬Along step Spares .init lateRejection := by
  refine ⟨by decide, by decide, by decide, ?_⟩
  intro h
  have hlast := h.2.2.2.1 1 ⟨9, 2, 1031000⟩ rfl (by decide) (by decide)
  revert hlast
  decide

/-- the other way: the first trace's late result is taken for the second one's, which has the same target -/
example :
    (run step .init [.start 7 1000000, .timer 1 1030000, .start 7 1031000]).pendingTraceroute = some ⟨7, 2, 1031000⟩ ∧
      (run step .init [.start 7 1000000, .timer 1 1030000, .start 7 1031000, .result (some 1) 7 1032000]).pendingTraceroute =
        none := by
  decide

end MeshProxy.Traceroute
