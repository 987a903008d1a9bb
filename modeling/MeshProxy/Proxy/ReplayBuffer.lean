/-
A replay over the client's bounded send channel (`internal/proxy`: replayCachedConfig against Client.Send and writeLoop).

The replay goroutine and the client's writeLoop interleave freely: `replay` is the next step of the program of
ConfigReplay, whose Send finds the channel full or not; `write` takes the oldest frame out of the channel and writes it
to a connection that accepts it. A Send that finds the channel full closes the client as a slow consumer and the replay
returns (`cut`).

- `replay_fits_iff`: no interleaving cuts the replay short exactly when what is queued at its start and all its frames
  together fit the channel; otherwise a writeLoop that is not scheduled in time is enough to lose the client.
Premise: `Codec.NonceLaw`.
-/
import MeshProxy.Proxy.ConfigReplay

namespace MeshProxy.ReplayBuffer

open MeshProxy.Proto MeshProxy.ChatCache MeshProxy.ConfigReplay MeshProxy.Trace
open MeshProxy.Frame (Bytes)

structure St where
  replay : Replay
  phase : UInt32
  chan : List Bytes
  enqueued : List Bytes
  written : List Bytes
  cut : Bool
deriving DecidableEq, Repr

inductive Act where
  | replay
  | write
deriving DecidableEq, Repr

/-- what the parties read while the replay runs; Config.Validate wants a buffer of at least one frame -/
structure Env where
  pb : Codec
  opts : Opts
  cache : List Bytes
  chat : List ChatEntry
  clientSendBuffer : ℕ
  valid : 1 ≤ clientSendBuffer

variable (e : Env)

/-- a started client with frames already in its channel, and a replay that holds replayMu -/
def init (nonce phase : UInt32) (queued : List Bytes) : St := ⟨.start nonce, phase, queued, [], [], false⟩

/-- `Client.Send`, then where the replay goes on -/
def sendStep (f : Bytes) (r : Replay) (s : St) : St :=
  if s.chan.length < e.clientSendBuffer then
    { s with replay := r, chan := s.chan ++ [f], enqueued := s.enqueued ++ [f] }
  else { s with replay := .returned, cut := true }

def step (s : St) : Act → St
  | .replay =>
    match s.replay.next e.pb e.opts e.cache e.chat s.phase with
    | .halt => s
    | .tau r phase => { s with replay := r, phase := phase }
    | .send f r => sendStep e f r s
  | .write =>
    match s.chan with
    | [] => s
    | f :: rest => { s with chan := rest, written := s.written ++ [f] }

/-- the frames still to be sent -/
def St.sends (s : St) : List Bytes := s.replay.sends e.pb e.opts e.cache e.chat s.phase

/-- everything the replay has to enqueue -/
def total (nonce phase : UInt32) : List Bytes := (Replay.start nonce).sends e.pb e.opts e.cache e.chat phase

/-- its size: the filtered config cache and, when chat is replayed, every chat entry and ACK -/
def replaySize (nonce phase : UInt32) : ℕ :=
  if e.cache = [] then 0
  else (filterConfigCache e.pb e.cache nonce).frames.length +
    if shouldReplayChat e.opts nonce (markPhase nonce phase) then (chatFrames e.chat).length else 0

/-- a frame of the cache is never skipped -/
theorem outFrame_isSome {pb : Codec} (hn : pb.NonceLaw) (nonce : UInt32) (f : Bytes) :
    (outFrame pb nonce (parseFrame pb f)).isSome = true := by
  unfold outFrame parseFrame
  split
  · rename_i id k rest hu
    obtain ⟨b, hb, -⟩ := hn f _ k nonce hu rfl
    rw [hb]
    rfl
  · rfl

theorem length_filterMap_of_isSome {α β : Type} {g : α → Option β} {l : List α} (h : ∀ x ∈ l, (g x).isSome = true) :
    (l.filterMap g).length = l.length := by
  induction l with
  | nil => rfl
  | cons x l ih =>
    obtain ⟨y, hy⟩ := Option.isSome_iff_exists.1 (h x List.mem_cons_self)
    rw [List.filterMap_cons, hy]
    simp [ih fun z hz => h z (List.mem_cons_of_mem x hz)]

theorem length_total (hn : e.pb.NonceLaw) (nonce phase : UInt32) :
    (total e nonce phase).length = replaySize e nonce phase := by
  have hframes : ((filterConfigCache e.pb e.cache nonce).frames.filterMap (outFrame e.pb nonce)).length =
      (filterConfigCache e.pb e.cache nonce).frames.length := by
    apply length_filterMap_of_isSome
    intro pf hpf
    rw [filterConfigCache_frames] at hpf
    obtain ⟨f, -, rfl⟩ := List.mem_map.1 hpf
    exact outFrame_isSome hn nonce f
  unfold total replaySize
  simp only [Replay.sends, replayFrames]
  split_ifs <;> simp [hframes]

/-! ## Enough room -/

structure Inv (all queued : List Bytes) (s : St) : Prop where
  cut : s.cut = false
  todo : s.enqueued ++ s.sends e = all
  chan : s.chan.length ≤ queued.length + s.enqueued.length

variable {e} {all queued : List Bytes} {s : St}

theorem step_inv (hroom : queued.length + all.length ≤ e.clientSendBuffer) (h : Inv e all queued s) (a : Act) :
    Inv e all queued (step e s a) := by
  cases a with
  | write =>
    simp only [step]
    split
    · exact h
    · rename_i f rest hc
      refine ⟨h.cut, h.todo, ?_⟩
      have := h.chan
      rw [hc, List.length_cons] at this
      exact Nat.le_of_succ_le this
  | replay =>
    simp only [step]
    split
    · exact h
    · rename_i r phase hnext
      refine ⟨h.cut, ?_, h.chan⟩
      rw [← h.todo]
      exact congrArg _ (next_tau hnext).1
    · rename_i f r hnext
      have hsends : s.sends e = f :: r.sends e.pb e.opts e.cache e.chat s.phase := (next_send hnext).1
      have htodo := h.todo
      rw [hsends] at htodo
      have hlen : s.enqueued.length < all.length := by
        rw [← htodo, List.length_append, List.length_cons]; omega
      have hfree : s.chan.length < e.clientSendBuffer := lt_of_le_of_lt h.chan (by omega)
      rw [sendStep, if_pos hfree]
      refine ⟨h.cut, ?_, ?_⟩
      · rw [← htodo]
        exact List.append_assoc s.enqueued [f] _
      · simp only [List.length_append, List.length_singleton]
        have := h.chan
        omega

/-! ## A writeLoop that is not scheduled -/

/-- while only the replay runs, the channel holds all it has enqueued -/
structure Alone (all queued : List Bytes) (s : St) : Prop where
  chan : s.chan = queued ++ s.enqueued
  fits : s.chan.length ≤ e.clientSendBuffer
  todo : s.cut = false → s.enqueued ++ s.sends e = all

theorem step_alone (h : Alone (e := e) all queued s) : Alone (e := e) all queued (step e s .replay) := by
  simp only [step]
  split
  · exact h
  · rename_i r phase hnext
    refine ⟨h.chan, h.fits, ?_⟩
    intro hcut
    rw [← h.todo hcut]
    exact congrArg _ (next_tau hnext).1
  · rename_i f r hnext
    have hsends : s.sends e = f :: r.sends e.pb e.opts e.cache e.chat s.phase := (next_send hnext).1
    unfold sendStep
    split_ifs with hfree
    · refine ⟨?_, ?_, ?_⟩
      · simp only [h.chan, List.append_assoc]
      · simp only [List.length_append, List.length_singleton]; omega
      · intro hcut
        rw [← h.todo hcut, hsends]
        exact List.append_assoc s.enqueued [f] _
    · exact ⟨h.chan, h.fits, fun hcut => by cases hcut⟩

theorem step_work : (step e s .replay).replay = .returned ∨
    (step e s .replay).replay.work e.pb e.cache e.chat + 1 ≤ s.replay.work e.pb e.cache e.chat := by
  simp only [step]
  split
  · rename_i hnext
    exact Or.inl (next_halt hnext)
  · rename_i r phase hnext
    exact Or.inr (next_tau hnext).2
  · rename_i f r hnext
    unfold sendStep
    split_ifs
    · exact Or.inr (next_send hnext).2
    · exact Or.inl rfl

theorem returned_stays (h : s.replay = .returned) (n : ℕ) : run (step e) s (List.replicate n .replay) = s := by
  induction n with
  | zero => rfl
  | succ n ih =>
    have hs : step e s .replay = s := by simp only [step, h, Replay.next]
    rw [List.replicate_succ, run_cons, hs, ih]

/-- given its steps, the replay returns -/
theorem replay_returns (n : ℕ) (hn : s.replay.work e.pb e.cache e.chat ≤ n) :
    (run (step e) s (List.replicate n .replay)).replay = .returned := by
  induction n generalizing s with
  | zero =>
    have h0 : s.replay = .returned := by
      cases hr : s.replay <;> rw [hr] at hn <;> simp [Replay.work] at hn
    simpa using h0
  | succ n ih =>
    rw [List.replicate_succ, run_cons]
    rcases step_work (e := e) (s := s) with h | h
    · rw [returned_stays h]; exact h
    · exact ih (by omega)

variable (e)

/-- **Every replay fits**, whatever the interleaving with the writeLoop, exactly when the frames in the channel at its
start, the filtered config cache and (when chat is replayed) every chat entry and ACK together fit the channel. -/
theorem replay_fits_iff (hn : e.pb.NonceLaw) (nonce phase : UInt32) (queued : List Bytes)
    (hq : queued.length ≤ e.clientSendBuffer) :
    (∀ as : List Act,
      (run (step e) (init nonce phase queued) as).cut = false ∧
      ((run (step e) (init nonce phase queued) as).replay = .returned →
        (run (step e) (init nonce phase queued) as).enqueued = total e nonce phase)) ↔
    queued.length + replaySize e nonce phase ≤ e.clientSendBuffer := by
  rw [← length_total e hn]
  constructor
  · intro h
    -- the writeLoop is never scheduled
    obtain ⟨n, hwork⟩ : ∃ n, (Replay.start nonce).work e.pb e.cache e.chat = n := ⟨_, rfl⟩
    obtain ⟨hcut, hall⟩ := h (List.replicate n .replay)
    have hret : (run (step e) (init nonce phase queued) (List.replicate n .replay)).replay = .returned :=
      replay_returns n (le_of_eq hwork)
    have halone : Alone (e := e) (total e nonce phase) queued
        (run (step e) (init nonce phase queued) (List.replicate n .replay)) := by
      have h0 : Alone (e := e) (total e nonce phase) queued (init nonce phase queued) :=
        ⟨by simp [init], hq, fun _ => rfl⟩
      generalize init nonce phase queued = s at h0
      clear hcut hall hret hwork
      induction n generalizing s with
      | zero => exact h0
      | succ n ih =>
        rw [List.replicate_succ, run_cons]
        exact ih _ (step_alone h0)
    have hfits := halone.fits
    rw [halone.chan, hall hret, List.length_append] at hfits
    exact hfits
  · intro hroom as
    have h0 : Inv e (total e nonce phase) queued (init nonce phase queued) := ⟨rfl, rfl, by simp [init]⟩
    have hinv : Inv e (total e nonce phase) queued (run (step e) (init nonce phase queued) as) :=
      run_inv_all (I := Inv e (total e nonce phase) queued) (fun s a hs => step_inv hroom hs a) as h0
    refine ⟨hinv.cut, ?_⟩
    intro hret
    have htodo := hinv.todo
    rw [St.sends, hret, Replay.sends, List.append_nil] at htodo
    exact htodo

/-! ### A four-frame cache over three buffers -/

/-- the cache of ConfigReplay over a channel of some capacity -/
def smallEnv (clientSendBuffer : ℕ) (valid : 1 ≤ clientSendBuffer) : Env :=
  ⟨replayCodec, ⟨true, 10⟩, replayShape.cache, [⟨[1], 7, some [2]⟩], clientSendBuffer, valid⟩

/-- six frames fit a buffer of eight that already holds one, even if the writeLoop is never scheduled -/
theorem replay_fits_small :
    (run (step (smallEnv 8 (by decide))) (init 42 0 [[9]]) (List.replicate 9 .replay)).cut = false ∧
      (run (step (smallEnv 8 (by decide))) (init 42 0 [[9]]) (List.replicate 9 .replay)).enqueued =
        total (smallEnv 8 (by decide)) 42 0 := by
  have hfits := (replay_fits_iff (smallEnv 8 (by decide)) replayCodec_nonceLaw 42 0 [[9]] (by decide)).2
    (by decide +kernel) (List.replicate 9 .replay)
  exact ⟨hfits.1, hfits.2 (by decide +kernel)⟩

/-- a buffer of four with the writeLoop scheduled once: the replay ends before the ACK, and the client is closed -/
theorem replay_cut_short :
    let s := run (step (smallEnv 4 (by decide))) (init 42 0 [])
      [.replay, .replay, .write, .replay, .replay, .replay, .replay, .replay, .replay]
    s.replay = .returned ∧ s.cut = true ∧
      s.enqueued = [myInfoFrame, nodeFrame 1, nodeFrame 2, configCompleteBytes 42, [1]] ∧
      total (smallEnv 4 (by decide)) 42 0 = s.enqueued ++ [[2]] := by
  decide +kernel

end MeshProxy.ReplayBuffer
