/-
The loop of `Connection.Run` (`internal/node/connection.go`): dial, run the connection, wait, try again. `backoff` is an
int64, doubled in 64-bit arithmetic before the cap is applied. `waits` is a ghost field: the argument of every
`time.After` of the run.

`Schedule` says what the loop is for: it knows no durations, only which attempt since the start, or since the last
successful dial, each wait belongs to; the wait for attempt k should be `ideal c k`, the interval doubled k times and
capped.

- `run_simulates`: the code follows the schedule, and waits `next` iterated k times in attempt k;
- `next_ideal_iff`: a doubling is right exactly when the wait before it is below 2^62 ns;
- `backoff_law_iff`: a run keeps the law exactly when no wait of its schedule comes after such a long one.
-/
import MeshProxy.Config.Validate
import MeshProxy.Core.Trace

namespace MeshProxy.Backoff

open MeshProxy.Configuration MeshProxy.Trace

/-- where `Run` is: about to dial, in `runConnection`, in a wait, or back at its caller -/
inductive Phase where
  | dialing
  | connected
  | waiting
  | returned
  deriving DecidableEq

/-- what happens to `Run` -/
inductive Event where
  | dialFails
  | dialSucceeds
  | disconnected
  | timer
  | cancelled
  deriving DecidableEq

structure RunState where
  phase : Phase
  backoff : Duration
  firstConnect : Bool
  nodeConnected : Bool
  nodeConnectionErrors : ℕ
  nodeReconnects : ℕ
  /-- ghost: the waits so far -/
  waits : List Duration

variable (c : NodeConfig)

namespace RunState

def start : RunState := ⟨.dialing, c.reconnectInterval, true, false, 0, 0, []⟩

/-- `time.After(backoff)` -/
def wait (s : RunState) : RunState := { s with phase := .waiting, waits := s.waits ++ [s.backoff] }

end RunState

/-- `backoff = min(backoff*2, c.maxReconnectInterval)` -/
def next (backoff : Duration) : Duration := min (backoff * 2) c.maxReconnectInterval

/-- one event of `Run` -/
def step (s : RunState) (e : Event) : RunState :=
  match s.phase, e with
  | .dialing, .dialFails =>
    { s with nodeConnected := false, nodeConnectionErrors := s.nodeConnectionErrors + 1 }.wait
  | .dialing, .dialSucceeds =>
    { s with
      phase := .connected
      nodeConnected := true
      nodeReconnects := if s.firstConnect then s.nodeReconnects else s.nodeReconnects + 1
      firstConnect := false
      backoff := c.reconnectInterval }
  | .connected, .disconnected => { s with nodeConnected := false }.wait
  | .waiting, .timer => { s with phase := .dialing, backoff := next c s.backoff }
  -- a cancellation in a dial or on a connection is a failed dial or a disconnect, and then ends the wait
  | .dialing, .cancelled => { s with phase := .returned }
  | .waiting, .cancelled => { s with phase := .returned }
  | _, _ => s

/-! ## The schedule -/

structure Schedule where
  phase : Phase
  /-- the waits that ended since the start or the last successful dial -/
  attempt : ℕ
  /-- the attempt that each wait belongs to -/
  waits : List ℕ

namespace Schedule

def start : Schedule := ⟨.dialing, 0, []⟩

def wait (a : Schedule) : Schedule := { a with phase := .waiting, waits := a.waits ++ [a.attempt] }

def step (a : Schedule) (e : Event) : Schedule :=
  match a.phase, e with
  | .dialing, .dialFails => a.wait
  | .dialing, .dialSucceeds => { a with phase := .connected, attempt := 0 }
  | .connected, .disconnected => a.wait
  | .waiting, .timer => { a with phase := .dialing, attempt := a.attempt + 1 }
  | .dialing, .cancelled => { a with phase := .returned }
  | .waiting, .cancelled => { a with phase := .returned }
  | _, _ => a

/-- an attempt is not the first only if the one before it waited -/
structure Ok (a : Schedule) : Prop where
  closed : ∀ k, k + 1 ∈ a.waits → k ∈ a.waits
  dialing : a.phase = .dialing → ∀ k, a.attempt = k + 1 → k ∈ a.waits
  connected : a.phase = .connected → a.attempt = 0
  waiting : a.phase = .waiting → a.attempt ∈ a.waits

theorem Ok.wait {a : Schedule} (h : a.Ok) (hprev : ∀ k, a.attempt = k + 1 → k ∈ a.waits) : a.wait.Ok where
  closed k hk := by
    simp only [Schedule.wait, List.mem_append, List.mem_singleton] at hk ⊢
    rcases hk with hk | hk
    · exact Or.inl (h.closed k hk)
    · exact Or.inl (hprev k hk.symm)
  dialing := nofun
  connected := nofun
  waiting _ := by simp [Schedule.wait]

theorem Ok.step {a : Schedule} (h : a.Ok) (e : Event) : (a.step e).Ok := by
  unfold Schedule.step
  split
  · rename_i hphase
    exact h.wait (h.dialing hphase)
  · exact ⟨h.closed, nofun, fun _ => rfl, nofun⟩
  · rename_i hphase
    have h0 := h.connected hphase
    exact h.wait fun k hk => by omega
  · rename_i hphase
    refine ⟨h.closed, fun _ k hk => ?_, nofun, nofun⟩
    cases hk
    exact h.waiting hphase
  · exact ⟨h.closed, nofun, nofun, nofun⟩
  · exact ⟨h.closed, nofun, nofun, nofun⟩
  · exact h

theorem run_ok (es : List Event) : (run step start es).Ok :=
  run_inv_all (fun _ e h => h.step e) es ⟨by simp [start], by simp [start], by simp [start], by simp [start]⟩

end Schedule

/-! ## The code follows the schedule -/

/-- the code in the state `s` is where the schedule `a` says, with `next` iterated as often as `a` has attempts -/
structure Simulates (s : RunState) (a : Schedule) : Prop where
  phase : s.phase = a.phase
  backoff : s.backoff = (next c)^[a.attempt] c.reconnectInterval
  waits : s.waits = a.waits.map fun k => (next c)^[k] c.reconnectInterval

variable {c}

theorem Simulates.wait {s : RunState} {a : Schedule} (h : Simulates c s a) : Simulates c s.wait a.wait where
  phase := rfl
  backoff := h.backoff
  waits := by simp [RunState.wait, Schedule.wait, h.waits, h.backoff]

theorem step_simulates {s : RunState} {a : Schedule} (h : Simulates c s a) (e : Event) :
    Simulates c (step c s e) (Schedule.step a e) := by
  obtain ⟨phase, backoff, firstConnect, connected, errors, reconnects, waits⟩ := s
  obtain ⟨_, attempt, indices⟩ := a
  obtain ⟨rfl, hbackoff, hwaits⟩ := h
  cases phase with
  | dialing =>
    cases e with
    | dialFails => exact Simulates.wait ⟨rfl, hbackoff, hwaits⟩
    | dialSucceeds => exact ⟨rfl, rfl, hwaits⟩
    | disconnected | timer | cancelled => exact ⟨rfl, hbackoff, hwaits⟩
  | connected =>
    cases e with
    | disconnected => exact Simulates.wait ⟨rfl, hbackoff, hwaits⟩
    | dialFails | dialSucceeds | timer | cancelled => exact ⟨rfl, hbackoff, hwaits⟩
  | waiting =>
    cases e with
    | timer =>
      refine ⟨rfl, ?_, hwaits⟩
      calc next c backoff = next c ((next c)^[attempt] c.reconnectInterval) := congrArg (next c) hbackoff
        _ = (next c)^[attempt + 1] c.reconnectInterval := (Function.iterate_succ_apply' ..).symm
    | dialFails | dialSucceeds | disconnected | cancelled => exact ⟨rfl, hbackoff, hwaits⟩
  | returned => exact ⟨rfl, hbackoff, hwaits⟩

theorem run_simulates (c : NodeConfig) (es : List Event) :
    Simulates c (run (step c) (.start c) es) (run Schedule.step .start es) := by
  induction es using List.reverseRecOn with
  | nil => exact ⟨rfl, rfl, rfl⟩
  | append_singleton es e ih =>
    rw [run_snoc, run_snoc]
    exact step_simulates ih e

/-! ## The doubling -/

variable (c)

/-- the k-th wait, computed without overflow -/
def ideal (k : ℕ) : ℤ := min (c.reconnectInterval.toInt * 2 ^ k) c.maxReconnectInterval.toInt

/-- the wait for attempt k does not come out of a doubling that overflows -/
def InRange (k : ℕ) : Prop :=
  k = 0 ∨ c.reconnectInterval.toInt * 2 ^ (k - 1) < 2 ^ 62 ∨ c.maxReconnectInterval.toInt < 2 ^ 62

instance : DecidablePred (InRange c) := fun _ => inferInstanceAs (Decidable (_ ∨ _ ∨ _))

variable {c}

theorem inRange_succ {k : ℕ} : InRange c (k + 1) ↔ ideal c k < 2 ^ 62 := by
  simp [InRange, ideal]

theorem toInt_min (x y : Duration) : (min x y).toInt = min x.toInt y.toInt := by
  change (if x ≤ y then x else y).toInt = _
  split_ifs with h
  · exact (min_eq_left (Int64.le_iff_toInt_le.1 h)).symm
  · exact (min_eq_right (Int64.lt_iff_toInt_lt.1 (Int64.not_le.1 h)).le).symm

theorem toInt_next (backoff : Duration) :
    (next c backoff).toInt = min ((backoff.toInt * 2).bmod (2 ^ 64)) c.maxReconnectInterval.toInt := by
  rw [next, toInt_min, Int64.toInt_mul]
  rfl

section Intervals

variable (hmin : 0 < c.reconnectInterval.toInt) (hmax : c.reconnectInterval.toInt ≤ c.maxReconnectInterval.toInt)
include hmax

theorem ideal_zero : ideal c 0 = c.reconnectInterval.toInt := by
  simp [ideal, hmax]

include hmin

theorem ideal_bounds (k : ℕ) : c.reconnectInterval.toInt ≤ ideal c k ∧ ideal c k ≤ c.maxReconnectInterval.toInt := by
  refine ⟨le_min ?_ hmax, min_le_right _ _⟩
  calc c.reconnectInterval.toInt = c.reconnectInterval.toInt * 1 := (mul_one _).symm
    _ ≤ c.reconnectInterval.toInt * 2 ^ k := by gcongr; exact one_le_pow₀ (by norm_num)

theorem ideal_succ (k : ℕ) : ideal c (k + 1) = min (ideal c k * 2) c.maxReconnectInterval.toInt := by
  have hpow : c.reconnectInterval.toInt * 2 ^ (k + 1) = c.reconnectInterval.toInt * 2 ^ k * 2 := by ring
  rw [ideal, ideal, hpow]
  omega

/-- after a wait as it should be, the doubling is right exactly when it does not overflow -/
theorem next_ideal_iff {k : ℕ} {backoff : Duration} (h : backoff.toInt = ideal c k) :
    (next c backoff).toInt = ideal c (k + 1) ↔ ideal c k < 2 ^ 62 := by
  have hpos := (ideal_bounds hmin hmax k).1
  have hlt : ideal c k < 2 ^ 63 := h ▸ backoff.toInt_lt
  rw [toInt_next, h, ideal_succ hmin hmax, Int.bmod_def]
  constructor
  · intro heq
    by_contra hlong
    -- twice the wait is at least 2^63: it wraps to a negative number
    omega
  · intro hshort
    congr 1
    omega

/-- **The waits of one run of attempts.** All of 0, …, k are as they should be exactly when they are in range. -/
theorem iterate_next {idx : List ℕ} (hclosed : ∀ k, k + 1 ∈ idx → k ∈ idx) :
    (∀ k ∈ idx, ((next c)^[k] c.reconnectInterval).toInt = ideal c k) ↔ ∀ k ∈ idx, InRange c k := by
  constructor
  · intro h k hk
    cases k with
    | zero => exact Or.inl rfl
    | succ k =>
      have hnext := h (k + 1) hk
      rw [Function.iterate_succ_apply'] at hnext
      exact inRange_succ.2 ((next_ideal_iff hmin hmax (h k (hclosed k hk))).1 hnext)
  · intro h k hk
    induction k with
    | zero => exact (ideal_zero hmax).symm
    | succ k ih =>
      rw [Function.iterate_succ_apply']
      exact (next_ideal_iff hmin hmax (ih (hclosed k hk))).2 (inRange_succ.1 (h (k + 1) hk))

end Intervals

/-- **The back-off law.** For an accepted configuration and every run, the waits are the ideal ones, and so lie between
the two intervals, exactly when every attempt that the run waits for is in range. -/
theorem backoff_law_iff {quote : String → String} {c : Config} (hvalid : validate quote c = .ok ())
    (es : List Event) :
    ((run (step c.node) (.start c.node) es).waits.map Int64.toInt =
        (run Schedule.step .start es).waits.map (ideal c.node) ∧
      ∀ wait ∈ (run (step c.node) (.start c.node) es).waits,
        c.node.reconnectInterval ≤ wait ∧ wait ≤ c.node.maxReconnectInterval) ↔
    ∀ k ∈ (run Schedule.step .start es).waits, InRange c.node k := by
  obtain ⟨hlow, hhigh⟩ := validate_intervals hvalid
  rw [Int64.le_iff_toInt_le] at hhigh
  have hmin : 0 < c.node.reconnectInterval.toInt := lt_of_lt_of_le (by decide) (Int64.le_iff_toInt_le.1 hlow)
  have hwaits := (run_simulates c.node es).waits
  have hlaw := iterate_next hmin hhigh (Schedule.run_ok es).closed
  rw [hwaits, List.map_map, List.map_inj_left, ← hlaw]
  refine ⟨fun h => h.1, fun h => ⟨h, fun wait hwait => ?_⟩⟩
  obtain ⟨k, hk, rfl⟩ := List.mem_map.1 hwait
  rw [Int64.le_iff_toInt_le, Int64.le_iff_toInt_le, h k hk]
  exact ideal_bounds hmin hhigh k

/-- a reconnect interval and a maximum of 2^62 ns, a little over 146 years -/
def longWait : Config :=
  { defaultConfig with
    node := { defaultConfig.node with
      reconnectInterval := 4611686018427387904, maxReconnectInterval := 4611686018427387904 } }

/-- the law holds in a run of the defaults with a reconnect between the failures -/
theorem backoff_law_defaults :
    (run (step defaultConfig.node) (.start defaultConfig.node)
        [.dialFails, .timer, .dialFails, .timer, .dialSucceeds, .disconnected]).waits.map Int64.toInt =
      (run Schedule.step .start [.dialFails, .timer, .dialFails, .timer, .dialSucceeds, .disconnected]).waits.map
        (ideal defaultConfig.node) := by
  have hvalid : validate id defaultConfig = .ok () := validate_defaultConfig
  exact ((backoff_law_iff hvalid _).2 (by decide)).1

/-- `longWait` is accepted, and after the second failed dial the loop waits for -2^63 ns -/
theorem second_wait_negative :
    validate id longWait = .ok () ∧
      (run (step longWait.node) (.start longWait.node) [.dialFails, .timer, .dialFails]).waits.map Int64.toInt =
        [2 ^ 62, -2 ^ 63] ∧
      (run (step longWait.node) (.start longWait.node) [.dialFails, .timer, .dialFails]).waits.map Int64.toInt ≠
        (run Schedule.step .start [.dialFails, .timer, .dialFails]).waits.map (ideal longWait.node) :=
  ⟨rfl, by decide, by decide⟩

end MeshProxy.Backoff
