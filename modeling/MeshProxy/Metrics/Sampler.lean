/-
The traffic sampler (`internal/metrics/metrics.go`: StartSampler, sampleTraffic, and what SnapshotDelta reads of the traffic
counters).

Four atomic int64 counters are added to by any goroutine at any moment. The sampler loads them one after the other, into
`last` when it starts and then once a second; a sample is the difference to the load before. It goes into the ring under
trafficMu, and a delta with the sample and the totals, loaded once more, is published. Every load is a step of its own, so
additions fall between them. A step of the sampler brings the clock reading; the other counters of a delta are left out.

Of each counter, `before`, `sampled` and `rest` keep what was added up to StartSampler's load, between the loads of the
sampler, and since the last; `history` is every sample ever taken. They are for the statements only.
- `step_inv`: the invariant, step by step of the sampler and of everybody else;
- `samples_partition`: every addition is in exactly one sample, and the ring holds the last samples;
- `totals_cover_samples`: a delta's total is never behind what its sample and the ones before it have counted.
-/
import MeshProxy.Core.Trace
import MeshProxy.Core.Window
import MeshProxy.Metrics.Store

namespace MeshProxy.Sampler

open MeshProxy.Store (ringAppend)
open MeshProxy.Trace MeshProxy.Window

/-! ## The machine -/

inductive Counter where
  | framesFromNode | framesToNode | bytesFromNode | bytesToNode
deriving DecidableEq, Repr

/-- int64 arithmetic -/
def wrap64 (x : ℤ) : ℤ := x.bmod (2 ^ 64)

structure TrafficSample where
  timestamp : ℤ
  framesIn : ℤ
  framesOut : ℤ
  bytesIn : ℤ
  bytesOut : ℤ
deriving DecidableEq, Repr

def TrafficSample.get (s : TrafficSample) : Counter → ℤ
  | .framesFromNode => s.framesIn
  | .framesToNode => s.framesOut
  | .bytesFromNode => s.bytesIn
  | .bytesToNode => s.bytesOut

/-- what a SnapshotDelta says of the traffic -/
structure SnapshotDelta where
  bytesFromNode : ℤ
  bytesToNode : ℤ
  framesFromNode : ℤ
  framesToNode : ℤ
  latestSample : TrafficSample
deriving DecidableEq, Repr

def SnapshotDelta.get (d : SnapshotDelta) : Counter → ℤ
  | .framesFromNode => d.framesFromNode
  | .framesToNode => d.framesToNode
  | .bytesFromNode => d.bytesFromNode
  | .bytesToNode => d.bytesToNode

/-- the order of the loads in StartSampler and sampleTraffic, and in readCounters -/
def sampleOrder : List Counter := [.framesFromNode, .framesToNode, .bytesFromNode, .bytesToNode]
def snapshotOrder : List Counter := [.bytesFromNode, .bytesToNode, .framesFromNode, .framesToNode]

/-- where the sampler is, with the loads still to do and the values loaded -/
inductive Pc where
  | starting (todo : List Counter)
  | waiting
  | loading (todo : List Counter) (loaded : Counter → ℤ)
  | appending (sample : TrafficSample)
  | reading (todo : List Counter) (read : Counter → ℤ) (sample : TrafficSample)
  | publishing (delta : SnapshotDelta)
  | stopped

structure Metrics where
  counter : Counter → ℤ
  last : Counter → ℤ
  trafficSamples : List TrafficSample
  maxSamples : ℕ
  pc : Pc
  events : List SnapshotDelta
  before : Counter → List ℕ
  sampled : Counter → List (List ℕ)
  rest : Counter → List ℕ
  history : List TrafficSample

def defaultMaxTrafficSamples : ℕ := 300

/-- `New`, then StartSampler -/
def init (maxTrafficSamples : ℤ) : Metrics where
  counter := fun _ => 0
  last := fun _ => 0
  trafficSamples := []
  maxSamples := if maxTrafficSamples ≤ 0 then defaultMaxTrafficSamples else maxTrafficSamples.toNat
  pc := .starting sampleOrder
  events := []
  before := fun _ => []
  sampled := fun _ => []
  rest := fun _ => []
  history := []

inductive Act where
  | add (c : Counter) (n : ℕ)
  | sampler (now : ℤ)
  | done
deriving DecidableEq, Repr

namespace Metrics

/-- `Add` -/
def add (s : Metrics) (c : Counter) (n : ℕ) : Metrics :=
  { s with
    counter := Function.update s.counter c (wrap64 (s.counter c + n))
    rest := Function.update s.rest c (s.rest c ++ [n]) }

/-- the next step of the sampler; in `waiting` the ticker fires -/
def exec (s : Metrics) (now : ℤ) : Metrics :=
  match s.pc with
  | .starting [] => { s with pc := .waiting }
  | .starting (c :: todo) =>
    { s with
      last := Function.update s.last c (s.counter c)
      before := Function.update s.before c (s.rest c)
      rest := Function.update s.rest c []
      pc := .starting todo }
  | .waiting => { s with pc := .loading sampleOrder fun _ => 0 }
  | .loading [] loaded =>
    let sample : TrafficSample :=
      { timestamp := now
        framesIn := wrap64 (loaded .framesFromNode - s.last .framesFromNode)
        framesOut := wrap64 (loaded .framesToNode - s.last .framesToNode)
        bytesIn := wrap64 (loaded .bytesFromNode - s.last .bytesFromNode)
        bytesOut := wrap64 (loaded .bytesToNode - s.last .bytesToNode) }
    { s with last := loaded, pc := .appending sample }
  | .loading (c :: todo) loaded =>
    { s with
      sampled := Function.update s.sampled c (s.sampled c ++ [s.rest c])
      rest := Function.update s.rest c []
      pc := .loading todo (Function.update loaded c (s.counter c)) }
  | .appending sample =>
    { s with
      trafficSamples := ringAppend s.trafficSamples s.maxSamples sample
      history := s.history ++ [sample]
      pc := .reading snapshotOrder (fun _ => 0) sample }
  | .reading [] read sample =>
    let delta : SnapshotDelta :=
      { bytesFromNode := read .bytesFromNode, bytesToNode := read .bytesToNode
        framesFromNode := read .framesFromNode, framesToNode := read .framesToNode, latestSample := sample }
    { s with pc := .publishing delta }
  | .reading (c :: todo) read sample => { s with pc := .reading todo (Function.update read c (s.counter c)) sample }
  | .publishing delta => { s with events := s.events ++ [delta], pc := .waiting }
  | .stopped => s

end Metrics

/-- `done` is the cancellation of the context, seen at the select -/
def step (s : Metrics) : Act → Metrics
  | .add c n => s.add c n
  | .sampler now => s.exec now
  | .done =>
    match s.pc with
    | .waiting => { s with pc := .stopped }
    | _ => s

/-- the ring below its limit keeps the end of what was appended -/
theorem ringAppend_eq_push {T : Type} {buf : List T} {max : ℕ} {item : T} (hmax : 1 ≤ max) (hbuf : buf.length ≤ max) :
    ringAppend buf max item = push max buf item := by
  unfold ringAppend push
  split_ifs with hfull
  · have hone : (buf ++ [item]).length - max = 1 := by
      rw [List.length_append, List.length_singleton]
      omega
    rw [List.rtake, hone, List.drop_append_of_le_length (by omega)]
  · rw [rtake_of_length_le]
    rw [List.length_append, List.length_singleton]
    omega

/-! ## Sums that wrap -/

def sum64 (ns : List ℕ) : ℤ := wrap64 (ns.sum : ℤ)

theorem sum64_snoc (ns : List ℕ) (n : ℕ) : sum64 (ns ++ [n]) = wrap64 (sum64 ns + n) := by
  simp [sum64, wrap64, Int.bmod_add_bmod]

/-- the difference of two totals counts what came between them -/
theorem sum64_sub (xs ys : List ℕ) : wrap64 (sum64 (xs ++ ys) - sum64 xs) = sum64 ys := by
  calc wrap64 (sum64 (xs ++ ys) - sum64 xs)
      = wrap64 (((xs ++ ys).sum : ℤ) - (xs.sum : ℤ)) := by simp only [sum64, wrap64, Int.bmod_sub_bmod, Int.sub_bmod_bmod]
    _ = sum64 ys := by simp [sum64]

theorem sum64_of_lt {ns : List ℕ} (h : ns.sum < 2 ^ 63) : sum64 ns = ns.sum := by
  rw [sum64, wrap64, Int.bmod_eq_of_le_mul_two] <;> omega

/-! ## The invariant -/

namespace Metrics

variable (s : Metrics) (c : Counter)

/-- everything added so far -/
def added : List ℕ := s.before c ++ (s.sampled c).flatten ++ s.rest c

/-- what the next difference is taken to -/
def reference : ℤ :=
  match s.pc with
  | .loading todo loaded => if c ∈ todo then s.last c else loaded c
  | _ => s.last c

/-- the sample that is not in the ring yet -/
def pending : List ℤ :=
  match s.pc with
  | .loading todo loaded => if c ∈ todo then [] else [wrap64 (loaded c - s.last c)]
  | .appending sample => [sample.get c]
  | _ => []

/-- a total that covers the samples up to the i-th and nothing that is not added yet -/
def Covers (i : ℕ) (v : ℤ) : Prop :=
  i < (s.sampled c).length ∧
    ∃ late, (s.before c ++ ((s.sampled c).take (i + 1)).flatten ++ late) <+: s.added c ∧
      v = sum64 (s.before c ++ ((s.sampled c).take (i + 1)).flatten ++ late)

end Metrics

/-- the loads still to do are different ones, and before StartSampler is over nothing has been sampled -/
def PcOk (s : Metrics) : Prop :=
  match s.pc with
  | .starting todo => todo.Nodup ∧ s.history = [] ∧ s.events = [] ∧
      ∀ c, s.sampled c = [] ∧ (c ∈ todo → s.before c = [])
  | .loading todo _ => todo.Nodup ∧ s.events.length = s.history.length
  | .reading todo read sample => s.history[s.events.length]? = some sample ∧ s.history.length = s.events.length + 1 ∧
      ∀ c ∉ todo, s.Covers c s.events.length (read c)
  | .publishing delta => s.history[s.events.length]? = some delta.latestSample ∧
      s.history.length = s.events.length + 1 ∧ ∀ c, s.Covers c s.events.length (delta.get c)
  | _ => s.events.length = s.history.length

structure Inv (s : Metrics) : Prop where
  pc : PcOk s
  counter : ∀ c, s.counter c = sum64 (s.added c)
  reference : ∀ c, (∀ todo, s.pc = .starting todo → c ∉ todo) →
    s.reference c = sum64 (s.before c ++ (s.sampled c).flatten)
  samples : ∀ c, (s.history.map (·.get c)) ++ s.pending c = (s.sampled c).map sum64
  limit : 1 ≤ s.maxSamples
  ring : s.trafficSamples = s.history.rtake s.maxSamples
  events : ∀ (i : ℕ) (d : SnapshotDelta), s.events[i]? = some d →
    s.history[i]? = some d.latestSample ∧ ∀ c, s.Covers c i (d.get c)

variable {s : Metrics}

theorem init_inv (maxTrafficSamples : ℤ) : Inv (init maxTrafficSamples) where
  pc := ⟨by decide, rfl, rfl, fun _ => ⟨rfl, fun _ => rfl⟩⟩
  counter := fun _ => by simp [init, Metrics.added, sum64, wrap64]
  reference := by
    intro c hc
    have hmem : c ∈ sampleOrder := by cases c <;> decide
    exact absurd hmem (hc sampleOrder rfl)
  samples := fun _ => rfl
  limit := by
    show 1 ≤ if maxTrafficSamples ≤ 0 then defaultMaxTrafficSamples else maxTrafficSamples.toNat
    split_ifs
    · decide
    · omega
  ring := by simp [init]
  events := by simp [init]

/-- a total stays covered while the books only grow -/
theorem Metrics.Covers.grow {s' : Metrics} {c : Counter} {i : ℕ} {v : ℤ} (h : s.Covers c i v) (hbefore : s'.before c = s.before c)
    (hsampled : s.sampled c <+: s'.sampled c) (hadded : s.added c <+: s'.added c) : s'.Covers c i v := by
  obtain ⟨hi, late, hpre, hv⟩ := h
  have htake : (s'.sampled c).take (i + 1) = (s.sampled c).take (i + 1) := by
    obtain ⟨more, hmore⟩ := hsampled
    rw [← hmore, List.take_append_of_le_length (by omega)]
  refine ⟨lt_of_lt_of_le hi hsampled.length_le, late, ?_, ?_⟩
  · rw [hbefore, htake]
    exact hpre.trans hadded
  · rwa [hbefore, htake]

/-- the counter, read now, covers the samples so far -/
theorem Inv.covers_now (h : Inv s) {c : Counter} {i : ℕ} (hi : (s.sampled c).length = i + 1) :
    s.Covers c i (s.counter c) := by
  have hall : (s.sampled c).take (i + 1) = s.sampled c := by rw [← hi, List.take_length]
  refine ⟨by omega, s.rest c, ?_, ?_⟩
  · rw [hall]
    exact List.prefix_refl _
  · rw [hall, h.counter c, Metrics.added]

theorem samples_length (h : Inv s) (c : Counter) :
    (s.sampled c).length = s.history.length + (s.pending c).length := by
  simpa using (congrArg List.length (h.samples c)).symm

/-- the sampler goes on and nothing else changes -/
theorem Inv.goto (h : Inv s) {k : Pc} (hok : PcOk { s with pc := k })
    (hreference : ∀ c, Metrics.reference { s with pc := k } c = s.reference c)
    (hstart : ∀ c, (∀ todo, k = .starting todo → c ∉ todo) → ∀ todo, s.pc = .starting todo → c ∉ todo)
    (hpending : ∀ c, Metrics.pending { s with pc := k } c = s.pending c) : Inv { s with pc := k } where
  pc := hok
  counter := h.counter
  reference := fun c hc => (hreference c).trans (h.reference c (hstart c hc))
  samples := fun c => by
    rw [hpending c]
    exact h.samples c
  limit := h.limit
  ring := h.ring
  events := h.events

/-! ## The steps -/

theorem added_add (c : Counter) (n : ℕ) (c' : Counter) :
    (s.add c n).added c' = if c' = c then s.added c ++ [n] else s.added c' := by
  by_cases hc : c' = c
  · subst hc
    simp [Metrics.added, Metrics.add]
  · simp [Metrics.added, Metrics.add, hc]

theorem add_inv (h : Inv s) (c : Counter) (n : ℕ) : Inv (s.add c n) := by
  have hgrow : ∀ c' i v, s.Covers c' i v → (s.add c n).Covers c' i v := by
    intro c' i v hv
    refine hv.grow rfl (List.prefix_refl _) ?_
    rw [added_add]
    split_ifs with hc
    · subst hc
      exact List.prefix_append _ _
    · exact List.prefix_refl _
  refine ⟨?_, fun c' => ?_, h.reference, h.samples, h.limit, h.ring, fun i d hd => ?_⟩
  · have hok := h.pc
    unfold PcOk at hok ⊢
    rw [show (s.add c n).pc = s.pc from rfl]
    split <;> rename_i hpc <;> simp only [hpc] at hok
    · exact hok
    · exact hok
    · exact ⟨hok.1, hok.2.1, fun c' hc' => hgrow _ _ _ (hok.2.2 c' hc')⟩
    · exact ⟨hok.1, hok.2.1, fun c' => hgrow _ _ _ (hok.2.2 c')⟩
    · exact hok
  · rw [added_add]
    by_cases hc : c' = c
    · subst hc
      rw [if_pos rfl, sum64_snoc, ← h.counter c']
      simp [Metrics.add]
    · rw [if_neg hc, ← h.counter c']
      simp [Metrics.add, hc]
  · exact ⟨(h.events i d hd).1, fun c' => hgrow _ _ _ ((h.events i d hd).2 c')⟩

/-- a load of StartSampler -/
theorem start_inv (h : Inv s) {c : Counter} {todo : List Counter} (hpc : s.pc = .starting (c :: todo)) :
    Inv { s with
      last := Function.update s.last c (s.counter c)
      before := Function.update s.before c (s.rest c)
      rest := Function.update s.rest c []
      pc := .starting todo } := by
  have hok := h.pc
  simp only [PcOk, hpc, List.nodup_cons] at hok
  obtain ⟨⟨hnew, hnodup⟩, hhistory, hevents, hempty⟩ := hok
  have hsampled : ∀ c, s.sampled c = [] := fun c => (hempty c).1
  have hrest : s.added c = s.rest c := by simp [Metrics.added, hsampled, (hempty c).2 List.mem_cons_self]
  have hadded : ∀ c', Metrics.added { s with
      last := Function.update s.last c (s.counter c)
      before := Function.update s.before c (s.rest c)
      rest := Function.update s.rest c []
      pc := .starting todo } c' = s.added c' := by
    intro c'
    by_cases hc : c' = c
    · subst hc
      rw [hrest]
      simp [Metrics.added, hsampled]
    · simp [Metrics.added, hc]
  refine ⟨⟨hnodup, hhistory, hevents, fun c' => ⟨hsampled c', fun hc' => ?_⟩⟩, fun c' => ?_, fun c' hc' => ?_, fun c' => ?_,
    h.limit, h.ring, fun i d hd => ?_⟩
  · have hne : c' ≠ c := fun e => hnew (e ▸ hc')
    simpa [hne] using (hempty c').2 (List.mem_cons_of_mem c hc')
  · rw [hadded]
    exact h.counter c'
  · by_cases hc : c' = c
    · subst hc
      simpa [Metrics.reference, hsampled, hrest] using h.counter c'
    · have hold := h.reference c' fun todo' htodo' => by
        rw [hpc, Pc.starting.injEq] at htodo'
        rw [← htodo', List.mem_cons, not_or]
        exact ⟨hc, hc' todo rfl⟩
      simpa [Metrics.reference, hpc, hsampled, hc] using hold
  · simp [Metrics.pending, hhistory, hsampled]
  · simp [hevents] at hd

/-- a load of sampleTraffic: what has been added since the load before is sampled -/
theorem load_inv (h : Inv s) {c : Counter} {todo : List Counter} {loaded : Counter → ℤ}
    (hpc : s.pc = .loading (c :: todo) loaded) :
    Inv { s with
      sampled := Function.update s.sampled c (s.sampled c ++ [s.rest c])
      rest := Function.update s.rest c []
      pc := .loading todo (Function.update loaded c (s.counter c)) } := by
  have hok := h.pc
  simp only [PcOk, hpc, List.nodup_cons] at hok
  obtain ⟨⟨hnew, hnodup⟩, hlength⟩ := hok
  have hadded : ∀ c', Metrics.added { s with
      sampled := Function.update s.sampled c (s.sampled c ++ [s.rest c])
      rest := Function.update s.rest c []
      pc := .loading todo (Function.update loaded c (s.counter c)) } c' = s.added c' := by
    intro c'
    by_cases hc : c' = c
    · subst hc
      simp [Metrics.added]
    · simp [Metrics.added, hc]
  have hlast : s.last c = sum64 (s.before c ++ (s.sampled c).flatten) := by
    have href := h.reference c fun todo' htodo' => by rw [hpc] at htodo'; cases htodo'
    simpa [Metrics.reference, hpc] using href
  refine ⟨⟨hnodup, hlength⟩, fun c' => ?_, fun c' _ => ?_, fun c' => ?_, h.limit, h.ring, fun i d hd => ?_⟩
  · rw [hadded]
    exact h.counter c'
  · by_cases hc : c' = c
    · subst hc
      simpa [Metrics.reference, hnew, Metrics.added] using h.counter c'
    · have hold := h.reference c' fun todo' htodo' => by rw [hpc] at htodo'; cases htodo'
      simpa [Metrics.reference, hpc, hc] using hold
  · have hold := h.samples c'
    by_cases hc : c' = c
    · subst hc
      have hdiff : wrap64 (s.counter c' - s.last c') = sum64 (s.rest c') := by
        rw [h.counter c', hlast, Metrics.added, sum64_sub]
      have hnone : s.pending c' = [] := by simp [Metrics.pending, hpc]
      rw [hnone, List.append_nil] at hold
      simp [Metrics.pending, hnew, hold, hdiff]
    · simpa [Metrics.pending, hpc, hc] using hold
  · refine ⟨(h.events i d hd).1, fun c' => ((h.events i d hd).2 c').grow rfl ?_ ?_⟩
    · by_cases hc : c' = c
      · subst hc
        simp
      · simp [hc]
    · rw [hadded]

/-- all counters are loaded: the sample is the difference to the loads before -/
theorem sample_inv (h : Inv s) {loaded : Counter → ℤ} (hpc : s.pc = .loading [] loaded) {sample : TrafficSample}
    (hsample : ∀ c, sample.get c = wrap64 (loaded c - s.last c)) :
    Inv { s with last := loaded, pc := .appending sample } := by
  have hok := h.pc
  simp only [PcOk, hpc] at hok
  refine ⟨hok.2, h.counter, fun c _ => ?_, fun c => ?_, h.limit, h.ring, h.events⟩
  · have hold := h.reference c fun todo htodo => by rw [hpc] at htodo; cases htodo
    simpa [Metrics.reference, hpc] using hold
  · simpa [Metrics.pending, hpc, hsample c] using h.samples c

/-- the sample goes into the ring -/
theorem append_inv (h : Inv s) {sample : TrafficSample} (hpc : s.pc = .appending sample) :
    Inv { s with
      trafficSamples := ringAppend s.trafficSamples s.maxSamples sample
      history := s.history ++ [sample]
      pc := .reading snapshotOrder (fun _ => 0) sample } := by
  have hok := h.pc
  simp only [PcOk, hpc] at hok
  refine ⟨⟨?_, ?_, fun c hc => ?_⟩, h.counter, fun c _ => ?_, fun c => ?_, h.limit, ?_, fun i d hd => ?_⟩
  · rw [hok, List.getElem?_concat_length]
  · rw [List.length_append, List.length_singleton, hok]
  · have hmem : c ∈ snapshotOrder := by cases c <;> decide
    exact absurd hmem hc
  · have hold := h.reference c fun todo htodo => by rw [hpc] at htodo; cases htodo
    simpa [Metrics.reference, hpc] using hold
  · simpa [Metrics.pending, hpc] using h.samples c
  · have hshort : s.trafficSamples.length ≤ s.maxSamples := by
      rw [h.ring, length_rtake]
      exact Nat.min_le_left _ _
    calc ringAppend s.trafficSamples s.maxSamples sample
        = push s.maxSamples s.trafficSamples sample := ringAppend_eq_push h.limit hshort
      _ = (s.history ++ [sample]).rtake s.maxSamples := by rw [h.ring, push_rtake]
  · have hi : i < s.history.length := by
      rw [← hok]
      exact (List.getElem?_eq_some_iff.1 hd).1
    refine ⟨?_, (h.events i d hd).2⟩
    rw [List.getElem?_append_left hi]
    exact (h.events i d hd).1

/-- a load of readCounters, after the sample is in the ring -/
theorem read_inv (h : Inv s) {c : Counter} {todo : List Counter} {read : Counter → ℤ} {sample : TrafficSample}
    (hpc : s.pc = .reading (c :: todo) read sample) :
    Inv { s with pc := .reading todo (Function.update read c (s.counter c)) sample } := by
  have hok := h.pc
  simp only [PcOk, hpc] at hok
  refine h.goto ⟨hok.1, hok.2.1, fun c' hc' => ?_⟩ (fun c' => ?_) (fun c' _ => ?_) fun c' => ?_
  · by_cases hc : c' = c
    · subst hc
      rw [Function.update_self]
      apply h.covers_now
      rw [samples_length h c', hok.2.1]
      simp [Metrics.pending, hpc]
    · rw [Function.update_of_ne hc]
      exact hok.2.2 c' (by simpa [hc] using hc')
  · simp only [Metrics.reference, hpc]
  · intro todo' htodo'
    rw [hpc] at htodo'
    cases htodo'
  · simp only [Metrics.pending, hpc]

/-- the delta is published -/
theorem publish_inv (h : Inv s) {delta : SnapshotDelta} (hpc : s.pc = .publishing delta) :
    Inv { s with events := s.events ++ [delta], pc := .waiting } := by
  have hok := h.pc
  simp only [PcOk, hpc] at hok
  refine ⟨?_, h.counter, fun c _ => ?_, fun c => ?_, h.limit, h.ring, fun i d hd => ?_⟩
  · show (s.events ++ [delta]).length = s.history.length
    rw [List.length_append, List.length_singleton, hok.2.1]
  · have hold := h.reference c fun todo htodo => by rw [hpc] at htodo; cases htodo
    simpa [Metrics.reference, hpc] using hold
  · simpa [Metrics.pending, hpc] using h.samples c
  · by_cases hi : i < s.events.length
    · rw [List.getElem?_append_left hi] at hd
      exact h.events i d hd
    · have hlast : i = s.events.length := by
        have hlt := (List.getElem?_eq_some_iff.1 hd).1
        rw [List.length_append, List.length_singleton] at hlt
        omega
      subst hlast
      rw [List.getElem?_concat_length] at hd
      cases hd
      exact ⟨hok.1, hok.2.2⟩

theorem exec_inv (h : Inv s) (now : ℤ) : Inv (s.exec now) := by
  have hok := h.pc
  unfold Metrics.exec
  split <;> rename_i hpc <;> simp only [PcOk, hpc] at hok
  · refine h.goto ?_ (fun c => ?_) (fun c _ todo htodo => ?_) fun c => ?_
    · show s.events.length = s.history.length
      rw [hok.2.1, hok.2.2.1]
      rfl
    · simp only [Metrics.reference, hpc]
    · rw [hpc] at htodo
      cases htodo
      exact List.not_mem_nil
    · simp only [Metrics.pending, hpc]
  · exact start_inv h hpc
  · have hmem : ∀ c, c ∈ sampleOrder := by intro c; cases c <;> decide
    refine h.goto ⟨by decide, hok⟩ (fun c => ?_) (fun c _ todo htodo => ?_) fun c => ?_
    · simp only [Metrics.reference, hpc, hmem c, if_true]
    · rw [hpc] at htodo
      cases htodo
    · simp only [Metrics.pending, hpc, hmem c, if_true]
  · exact sample_inv h hpc fun c => by cases c <;> rfl
  · exact load_inv h hpc
  · exact append_inv h hpc
  · rename_i read sample
    refine h.goto ⟨hok.1, hok.2.1, fun c => ?_⟩ (fun c => ?_) (fun c _ todo htodo => ?_) fun c => ?_
    · have hread := hok.2.2 c List.not_mem_nil
      cases c <;> exact hread
    · simp only [Metrics.reference, hpc]
    · rw [hpc] at htodo
      cases htodo
    · simp only [Metrics.pending, hpc]
  · exact read_inv h hpc
  · exact publish_inv h hpc
  · exact h

theorem step_inv (h : Inv s) (a : Act) : Inv (step s a) := by
  cases a with
  | add c n => exact add_inv h c n
  | sampler now => exact exec_inv h now
  | done =>
    have hok := h.pc
    simp only [step]
    split <;> rename_i hpc
    · simp only [PcOk, hpc] at hok
      refine h.goto hok (fun c => ?_) (fun c _ todo htodo => ?_) fun c => ?_
      · simp only [Metrics.reference, hpc]
      · rw [hpc] at htodo
        cases htodo
      · simp only [Metrics.pending, hpc]
    · exact h

theorem reachable_inv (maxTrafficSamples : ℤ) (as : List Act) : Inv (run step (init maxTrafficSamples) as) :=
  run_inv_all (I := Inv) (fun _ a hs => step_inv hs a) as (init_inv maxTrafficSamples)

/-- a delta is published for each sample, and for the last one maybe not yet -/
theorem Inv.events_le (h : Inv s) : s.events.length ≤ s.history.length := by
  have hok := h.pc
  unfold PcOk at hok
  split at hok
  · rw [hok.2.1, hok.2.2.1]
    rfl
  · exact hok.2.le
  · omega
  · omega
  · exact le_of_eq hok

theorem Inv.published (h : Inv s) : s.events.map (·.latestSample) = s.history.take s.events.length := by
  apply List.ext_getElem?
  intro i
  rw [List.getElem?_map, List.getElem?_take]
  split_ifs with hi
  · rw [List.getElem?_eq_getElem hi, Option.map_some, (h.events i _ (List.getElem?_eq_getElem hi)).1]
  · rw [List.getElem?_eq_none (by omega), Option.map_none]

/-! ## Results -/

/-- the amounts a run adds to a counter, in order -/
def additions (c : Counter) (as : List Act) : List ℕ :=
  as.filterMap fun
    | .add c' n => if c' = c then some n else none
    | _ => none

theorem exec_added (s : Metrics) (now : ℤ) (c : Counter) (hstart : ∀ todo, s.pc = .starting todo → todo.Nodup ∧
    ∀ c, s.sampled c = [] ∧ (c ∈ todo → s.before c = [])) : (s.exec now).added c = s.added c := by
  unfold Metrics.exec
  split <;> rename_i hpc <;> try rfl
  · rename_i c' todo
    have hempty := (hstart _ hpc).2 c'
    by_cases hc : c = c'
    · subst hc
      simp [Metrics.added, hempty.1, hempty.2 List.mem_cons_self]
    · simp [Metrics.added, hc]
  · rename_i c' todo loaded
    by_cases hc : c = c'
    · subst hc
      simp [Metrics.added]
    · simp [Metrics.added, hc]

/-- the books are those of the run -/
theorem run_added (maxTrafficSamples : ℤ) (c : Counter) (as : List Act) :
    (run step (init maxTrafficSamples) as).added c = additions c as := by
  induction as using List.reverseRecOn with
  | nil => rfl
  | append_singleton as a ih =>
    have hinv := reachable_inv maxTrafficSamples as
    rw [run_snoc, additions, List.filterMap_append, ← additions, ← ih]
    generalize run step (init maxTrafficSamples) as = s at hinv
    cases a with
    | add c' n =>
      rw [step, added_add]
      by_cases hc : c = c'
      · subst hc
        simp
      · have hc' : ¬c' = c := fun e => hc e.symm
        simp [hc, hc']
    | sampler now =>
      rw [step, exec_added]
      · simp
      · intro todo hpc
        have hok := hinv.pc
        simp only [PcOk, hpc] at hok
        exact ⟨hok.1, hok.2.2.2⟩
    | done =>
      simp only [step]
      split <;> simp [Metrics.added]

/-- **Every addition is in exactly one sample.** After any run of the sampler and of anybody who adds to the counters, for
each counter: what the run added is, in order, what StartSampler's load found, then what each load of the sampler found
since the load before, then what it has not seen; a sample holds the sum of its share, as int64 arithmetic has it, and that
sum itself while fewer than 2^63 were added. The ring holds the last of the samples. -/
theorem samples_partition (maxTrafficSamples : ℤ) (as : List Act) :
    let s := run step (init maxTrafficSamples) as
    (∀ c, additions c as = s.before c ++ (s.sampled c).flatten ++ s.rest c ∧
      s.counter c = sum64 (additions c as) ∧
      (s.sampled c).length ≤ s.history.length + 1 ∧
      s.history.map (·.get c) = ((s.sampled c).take s.history.length).map sum64 ∧
      ((additions c as).sum < 2 ^ 63 →
        s.history.map (·.get c) = ((s.sampled c).take s.history.length).map fun share => (share.sum : ℤ))) ∧
    s.trafficSamples = s.history.rtake s.maxSamples := by
  intro s
  have hinv : Inv s := reachable_inv maxTrafficSamples as
  refine ⟨fun c => ?_, hinv.ring⟩
  have hadded : additions c as = s.added c := (run_added maxTrafficSamples c as).symm
  have hlength := samples_length hinv c
  have hpending : (s.pending c).length ≤ 1 := by
    unfold Metrics.pending
    split
    · split_ifs <;> simp
    · simp
    · simp
  have hsamples : s.history.map (·.get c) = ((s.sampled c).take s.history.length).map sum64 := by
    have htake := congrArg (List.take s.history.length) (hinv.samples c)
    rwa [List.take_append_of_le_length (by simp), List.take_of_length_le (by simp), ← List.map_take] at htake
  refine ⟨hadded, ?_, by omega, hsamples, fun hlt => ?_⟩
  · rw [hinv.counter c, hadded]
  · rw [hsamples]
    apply List.map_congr_left
    intro share hshare
    apply sum64_of_lt
    have hpart : share.Sublist (s.added c) := by
      have hflat : share.Sublist (s.sampled c).flatten := List.sublist_flatten_of_mem (List.mem_of_mem_take hshare)
      exact (hflat.trans (List.sublist_append_right _ _)).trans (List.sublist_append_left _ _)
    have hsum : share.sum ≤ (s.added c).sum := hpart.sum_le_sum fun n _ => Nat.zero_le n
    rw [hadded] at hlt
    omega

/-- **A total is never behind the chart.** In any run, the i-th published delta carries the i-th sample, and each of its
totals counts an initial part of the additions that has everything the samples up to this one have counted; so, while
fewer than 2^63 were added, no total is below the sum of these samples. -/
theorem totals_cover_samples (maxTrafficSamples : ℤ) (as : List Act) :
    let s := run step (init maxTrafficSamples) as
    s.events.length ≤ s.history.length ∧
    ∀ (i : ℕ) (d : SnapshotDelta), s.events[i]? = some d → s.history[i]? = some d.latestSample ∧ ∀ c,
      (∃ late, s.before c ++ ((s.sampled c).take (i + 1)).flatten ++ late <+: additions c as ∧
        d.get c = sum64 (s.before c ++ ((s.sampled c).take (i + 1)).flatten ++ late)) ∧
      ((additions c as).sum < 2 ^ 63 → ((s.history.take (i + 1)).map (·.get c)).sum ≤ d.get c) := by
  intro s
  have hinv : Inv s := reachable_inv maxTrafficSamples as
  refine ⟨?_, fun i d hd => ⟨(hinv.events i d hd).1, fun c => ?_⟩⟩
  · exact hinv.events_le
  · obtain ⟨hhistory, hcovers⟩ := hinv.events i d hd
    obtain ⟨hi, late, hpre, hv⟩ := hcovers c
    have hadded : additions c as = s.added c := (run_added maxTrafficSamples c as).symm
    rw [hadded]
    refine ⟨⟨late, hpre, hv⟩, fun hlt => ?_⟩
    have hcounted : (s.before c ++ ((s.sampled c).take (i + 1)).flatten ++ late).sum < 2 ^ 63 := by
      have hsum := hpre.sublist.sum_le_sum fun n _ => Nat.zero_le n
      omega
    have hshares : (s.history.take (i + 1)).map (·.get c) =
        ((s.sampled c).take (i + 1)).map fun share => (share.sum : ℤ) := by
      have hlen : i + 1 ≤ s.history.length := (List.getElem?_eq_some_iff.1 hhistory).1
      have htake := congrArg (List.take (i + 1)) (hinv.samples c)
      rw [List.take_append_of_le_length (by simpa using hlen), ← List.map_take, ← List.map_take] at htake
      rw [htake]
      apply List.map_congr_left
      intro share hshare
      apply sum64_of_lt
      have hpart : share.Sublist ((s.sampled c).take (i + 1)).flatten := List.sublist_flatten_of_mem hshare
      have hsum := hpart.sum_le_sum fun n _ => Nat.zero_le n
      simp only [List.sum_append] at hcounted
      omega
    calc ((s.history.take (i + 1)).map (·.get c)).sum
        = (((s.sampled c).take (i + 1)).flatten.sum : ℤ) := by
          rw [hshares, List.sum_flatten, Nat.cast_list_sum, List.map_map]
          rfl
      _ ≤ ((s.before c ++ ((s.sampled c).take (i + 1)).flatten ++ late).sum : ℤ) := by
          simp only [List.sum_append, Nat.cast_add]
          omega
      _ = d.get c := by rw [hv, sum64_of_lt hcounted]

end MeshProxy.Sampler
