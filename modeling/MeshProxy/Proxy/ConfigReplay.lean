/-
Replaying the cached config to a client (`internal/proxy/config_replay.go`).

`filterConfigCache` selects frames by the client's nonce in two passes; `replayCachedConfig` is a program of small steps
(`Replay`), each either internal or one call of `Client.Send`: a failed Send ends it. The same program is run here over
a channel that never fills, in ReplayBuffer over a bounded one, and in Hub beside the other parties. Log lines and the
pause after the own NodeInfo are left out.

- `clientPhase_config_iff`: the config bit of a client's phase is set exactly when an earlier replay had nonce 69420 and
  a non-empty cache;
- `filterConfigCache_frames`: the two passes select what `Selected` says, in cache order;
- `replay_sequence`: what a replay enqueues, for every cache from one my_info to one config_complete_id.
Premise: a config_complete_id message can be encoded again under any nonce (`Codec.NonceLaw`).
-/
import MeshProxy.Core.Trace
import MeshProxy.Proxy.ChatCache

namespace MeshProxy.ConfigReplay

open MeshProxy.Proto MeshProxy.Decode MeshProxy.ChatCache MeshProxy.Trace
open MeshProxy.Frame (Bytes)
open MeshProxy.Store (TypeName)

/-! ## Nonces and phases -/

/-- config, channels and modules; no node database -/
def nonceOnlyConfig : UInt32 := 69420

/-- the node database only -/
def nonceOnlyNodes : UInt32 := 69421

def configPhaseConfig : UInt32 := 1
def configPhaseNodes : UInt32 := 2

/-- the phase bits after a replay has read a non-empty cache -/
def markPhase (nonce phase : UInt32) : UInt32 :=
  if nonce = nonceOnlyConfig then phase ||| configPhaseConfig
  else if nonce = nonceOnlyNodes then phase ||| configPhaseNodes
  else phase

/-! ## Filtering -/

/-- `parsedFrame` -/
structure ParsedFrame where
  raw : Bytes
  msg : Option FromRadio
deriving DecidableEq, Repr

/-- `filterStats`, its counts as a list with one name for each counted frame -/
structure FilterStats where
  myNodeNum : UInt32 := 0
  ownNodeFound : Bool := false
  frameCounts : List TypeName := []
deriving DecidableEq, Repr

structure FilterResult where
  frames : List ParsedFrame
  stats : FilterStats
deriving DecidableEq, Repr

variable (pb : Codec)

def parseFrame (frame : Bytes) : ParsedFrame := ⟨frame, pb.unmarshalFromRadio frame⟩

/-- the name a frame is counted under -/
def ParsedFrame.typeName (pf : ParsedFrame) : TypeName :=
  match pf.msg with
  | none => .unparseable
  | some msg => fromRadioTypeName msg

/-- first pass: the node number of the first my_info -/
def findMyNodeNum : List ParsedFrame → UInt32
  | [] => 0
  | pf :: rest =>
    match pf.msg with
    | some ⟨_, .myInfo num _, _⟩ => num
    | _ => findMyNodeNum rest

/-- append a frame and count it -/
def FilterResult.keep (pf : ParsedFrame) (r : FilterResult) : FilterResult :=
  ⟨r.frames ++ [pf], { r.stats with frameCounts := r.stats.frameCounts ++ [pf.typeName] }⟩

/-- one round of the second pass -/
def filterStep (nonce : UInt32) (r : FilterResult) (pf : ParsedFrame) : FilterResult :=
  match pf.msg with
  | none => r.keep pf
  | some msg =>
    match msg.variant with
    | .configCompleteId _ => r.keep pf
    | .nodeInfo ni =>
      if nonce = nonceOnlyConfig then
        if ni.num = r.stats.myNodeNum then
          let r := r.keep pf
          { r with stats := { r.stats with ownNodeFound := true } }
        else r
      else r.keep pf
    | _ => if nonce = nonceOnlyConfig then r.keep pf else r

def filterConfigCache (frames : List Bytes) (nonce : UInt32) : FilterResult :=
  let parsed := frames.map (parseFrame pb)
  if nonce ≠ nonceOnlyConfig ∧ nonce ≠ nonceOnlyNodes then
    ⟨parsed, { frameCounts := parsed.map ParsedFrame.typeName }⟩
  else parsed.foldl (filterStep nonce) ⟨[], { myNodeNum := findMyNodeNum parsed }⟩

/-- the frame sent for a selected one: a config_complete_id under the client's nonce, skipped if that cannot be
encoded; any other as it is -/
def outFrame (nonce : UInt32) (pf : ParsedFrame) : Option Bytes :=
  match pf.msg with
  | some ⟨id, .configCompleteId _, rest⟩ => pb.marshalFromRadio ⟨id, .configCompleteId nonce, rest⟩
  | _ => some pf.raw

/-! ## The program -/

structure Opts where
  replayChatEnabled : Bool
  maxChatCache : ℤ
deriving DecidableEq, Repr

/-- `shouldReplayChat` -/
def shouldReplayChat (o : Opts) (nonce phase : UInt32) : Bool :=
  if o.replayChatEnabled = false ∨ o.maxChatCache ≤ 0 then false
  else if nonce = nonceOnlyConfig then false
  else if nonce = nonceOnlyNodes then phase &&& configPhaseConfig ≠ 0
  else true

/-- where a `replayCachedConfig` stands, with replayMu held -/
inductive Replay where
  | start (nonce : UInt32)
  | config (nonce : UInt32) (todo : List ParsedFrame)
  | chat (todo : List ChatEntry)
  | chatAck (ack : Bytes) (todo : List ChatEntry)
  | returned
deriving DecidableEq, Repr

/-- its next step: internal, or a Send and where it goes on if that succeeds (it returns if not) -/
inductive Next where
  | halt
  | tau (r : Replay) (phase : UInt32)
  | send (f : Bytes) (r : Replay)
deriving DecidableEq, Repr

/-- the next step, given what the program reads: the config cache, the chat cache and the client's phase -/
def Replay.next (o : Opts) (cache : List Bytes) (chat : List ChatEntry) (phase : UInt32) : Replay → Next
  | .start nonce =>
    if cache = [] then .tau .returned phase
    else .tau (.config nonce (filterConfigCache pb cache nonce).frames) (markPhase nonce phase)
  | .config nonce (pf :: todo) =>
    match outFrame pb nonce pf with
    | none => .tau (.config nonce todo) phase
    | some f => .send f (.config nonce todo)
  | .config nonce [] => if shouldReplayChat o nonce phase then .tau (.chat chat) phase else .tau .returned phase
  | .chat (e :: todo) =>
    match e.ack with
    | none => .send e.message (.chat todo)
    | some ack => .send e.message (.chatAck ack todo)
  | .chatAck ack todo => .send ack (.chat todo)
  | .chat [] => .tau .returned phase
  | .returned => .halt

/-! ## What is left to send -/

/-- the frames of a chat history: each message, then its ACK if it has one -/
def chatFrames (chat : List ChatEntry) : List Bytes := chat.flatMap fun e => e.message :: e.ack.toList

/-- the frames a replay sends for a non-empty cache, if every Send succeeds -/
def replayFrames (o : Opts) (cache : List Bytes) (chat : List ChatEntry) (nonce phase : UInt32) : List Bytes :=
  (filterConfigCache pb cache nonce).frames.filterMap (outFrame pb nonce) ++
    if shouldReplayChat o nonce phase then chatFrames chat else []

/-- the frames still to be sent from a position -/
def Replay.sends (o : Opts) (cache : List Bytes) (chat : List ChatEntry) (phase : UInt32) : Replay → List Bytes
  | .start nonce => if cache = [] then [] else replayFrames pb o cache chat nonce (markPhase nonce phase)
  | .config nonce todo =>
    todo.filterMap (outFrame pb nonce) ++ if shouldReplayChat o nonce phase then chatFrames chat else []
  | .chat todo => chatFrames todo
  | .chatAck ack todo => ack :: chatFrames todo
  | .returned => []

/-- a bound on the steps still to be taken -/
def Replay.work (cache : List Bytes) (chat : List ChatEntry) : Replay → ℕ
  | .start nonce => (filterConfigCache pb cache nonce).frames.length + 2 * chat.length + 4
  | .config _ todo => todo.length + 2 * chat.length + 3
  | .chat todo => 2 * todo.length + 1
  | .chatAck _ todo => 2 * todo.length + 2
  | .returned => 0

section Program

variable {pb} {o : Opts} {cache : List Bytes} {chat : List ChatEntry} {phase : UInt32} {r : Replay}

theorem next_halt (h : r.next pb o cache chat phase = .halt) : r = .returned := by
  unfold Replay.next at h
  split at h <;> first | rfl | (split at h <;> cases h) | cases h

/-- an internal step leaves the frames to send alone -/
theorem next_tau {r' : Replay} {phase' : UInt32} (h : r.next pb o cache chat phase = .tau r' phase') :
    r'.sends pb o cache chat phase' = r.sends pb o cache chat phase ∧ r'.work pb cache chat + 1 ≤ r.work pb cache chat := by
  unfold Replay.next at h
  split at h
  · rename_i nonce
    split_ifs at h with hc
    · cases h
      refine ⟨?_, by simp [Replay.work]⟩
      simp only [Replay.sends, if_pos hc]
    · cases h
      refine ⟨?_, by simp only [Replay.work]; omega⟩
      simp only [Replay.sends, if_neg hc, replayFrames]
  · rename_i nonce pf todo
    split at h
    · rename_i hnone
      cases h
      refine ⟨?_, by simp only [Replay.work, List.length_cons]; omega⟩
      simp only [Replay.sends, List.filterMap_cons, hnone]
    · cases h
  · rename_i nonce
    split_ifs at h with hc
    · cases h
      refine ⟨?_, by simp only [Replay.work, List.length_nil]; omega⟩
      simp only [Replay.sends, List.filterMap_nil, List.nil_append, if_pos hc]
    · cases h
      refine ⟨?_, by simp [Replay.work]⟩
      simp only [Replay.sends, List.filterMap_nil, List.nil_append, if_neg hc]
  · split at h <;> cases h
  · cases h
  · cases h
    exact ⟨rfl, by simp [Replay.work]⟩
  · cases h

/-- a Send sends the first of them -/
theorem next_send {r' : Replay} {f : Bytes} (h : r.next pb o cache chat phase = .send f r') :
    r.sends pb o cache chat phase = f :: r'.sends pb o cache chat phase ∧
      r'.work pb cache chat + 1 ≤ r.work pb cache chat := by
  unfold Replay.next at h
  split at h
  · split_ifs at h
  · rename_i nonce pf todo
    split at h
    · cases h
    · rename_i hsome
      cases h
      refine ⟨?_, by simp only [Replay.work, List.length_cons]; omega⟩
      simp only [Replay.sends, List.filterMap_cons, hsome, List.cons_append]
  · split_ifs at h
  · rename_i e todo
    split at h
    · rename_i hack
      cases h
      refine ⟨?_, by simp only [Replay.work, List.length_cons]; omega⟩
      simp [Replay.sends, chatFrames, hack]
    · rename_i ack hack
      cases h
      refine ⟨?_, by simp only [Replay.work, List.length_cons]; omega⟩
      simp [Replay.sends, chatFrames, hack]
  · cases h
    exact ⟨rfl, by simp only [Replay.work]; omega⟩
  · cases h
  · cases h

/-- what an internal step does, one case for each place -/
theorem next_tau_cases {r' : Replay} {phase' : UInt32} (h : r.next pb o cache chat phase = .tau r' phase') :
    (∃ n, r = .start n ∧ ((cache = [] ∧ r' = .returned) ∨ ∃ pfs, r' = .config n pfs)) ∨
    (∃ n pfs, r = .config n pfs ∧ ((∃ pfs', r' = .config n pfs') ∨
      (pfs = [] ∧ shouldReplayChat o n phase = true ∧ r' = .chat chat) ∨
      (pfs = [] ∧ shouldReplayChat o n phase = false ∧ r' = .returned))) ∨
    (r = .chat [] ∧ r' = .returned) := by
  unfold Replay.next at h
  split at h
  · rename_i n
    left
    split_ifs at h with hc <;> cases h
    · exact ⟨n, rfl, Or.inl ⟨hc, rfl⟩⟩
    · exact ⟨n, rfl, Or.inr ⟨_, rfl⟩⟩
  · rename_i n pf todo
    right; left
    split at h <;> cases h
    exact ⟨n, _, rfl, Or.inl ⟨todo, rfl⟩⟩
  · rename_i n
    right; left
    split_ifs at h with hc <;> cases h
    · exact ⟨n, [], rfl, Or.inr (Or.inl ⟨rfl, hc, rfl⟩)⟩
    · exact ⟨n, [], rfl, Or.inr (Or.inr ⟨rfl, by simpa using hc, rfl⟩)⟩
  · split at h <;> cases h
  · cases h
  · cases h
    exact Or.inr (Or.inr ⟨rfl, rfl⟩)
  · cases h

theorem next_send_cases {r' : Replay} {f : Bytes} (h : r.next pb o cache chat phase = .send f r') :
    (∃ n pfs pfs', r = .config n pfs ∧ r' = .config n pfs') ∨
    (∃ ent es, r = .chat (ent :: es) ∧ f = ent.message ∧ (r' = .chat es ∨ ∃ ack, r' = .chatAck ack es)) ∨
    (∃ ack es, r = .chatAck ack es ∧ r' = .chat es) := by
  unfold Replay.next at h
  split at h
  · split_ifs at h
  · rename_i n pf todo
    split at h <;> cases h
    exact Or.inl ⟨n, _, todo, rfl, rfl⟩
  · split_ifs at h
  · rename_i ent todo
    right; left
    split at h <;> cases h
    · exact ⟨ent, todo, rfl, rfl, Or.inl rfl⟩
    · exact ⟨ent, todo, rfl, rfl, Or.inr ⟨_, rfl⟩⟩
  · rename_i _ todo
    cases h
    exact Or.inr (Or.inr ⟨_, todo, rfl, rfl⟩)
  · cases h
  · cases h

/-! ## A channel that never fills -/

/-- a replay with its client's phase and what it has enqueued -/
structure Session where
  replay : Replay
  phase : UInt32
  out : List Bytes
deriving DecidableEq, Repr

variable (pb o cache chat)

/-- one step with a Send that succeeds -/
def Session.step (s : Session) : Session :=
  match s.replay.next pb o cache chat s.phase with
  | .halt => s
  | .tau r phase => { s with replay := r, phase := phase }
  | .send f r => { s with replay := r, out := s.out ++ [f] }

/-- with enough steps the program returns, having sent everything -/
theorem session_runs (n : ℕ) (s : Session) (hn : s.replay.work pb cache chat ≤ n) :
    ((Session.step pb o cache chat)^[n] s).replay = .returned ∧
      ((Session.step pb o cache chat)^[n] s).out = s.out ++ s.replay.sends pb o cache chat s.phase := by
  induction n generalizing s with
  | zero =>
    have h0 : s.replay = .returned := by
      cases hr : s.replay <;> rw [hr] at hn <;> simp [Replay.work] at hn
    simp [h0, Replay.sends]
  | succ n ih =>
    rw [Function.iterate_succ_apply]
    cases hnext : s.replay.next pb o cache chat s.phase with
    | halt =>
      have hr := next_halt hnext
      have hs : Session.step pb o cache chat s = s := by simp only [Session.step, hnext]
      rw [hs]
      exact ih s (by rw [hr]; exact Nat.zero_le n)
    | tau r phase =>
      have hs : Session.step pb o cache chat s = { s with replay := r, phase := phase } := by
        simp only [Session.step, hnext]
      obtain ⟨hsends, hwork⟩ := next_tau hnext
      rw [hs, ← hsends]
      exact ih { s with replay := r, phase := phase } (by simp only; omega)
    | send f r =>
      have hs : Session.step pb o cache chat s = { s with replay := r, out := s.out ++ [f] } := by
        simp only [Session.step, hnext]
      obtain ⟨hsends, hwork⟩ := next_send hnext
      rw [hs, hsends]
      have hrun := ih { s with replay := r, out := s.out ++ [f] } (by simp only; omega)
      exact ⟨hrun.1, by rw [hrun.2, List.append_assoc, List.singleton_append]⟩

end Program

/-! ## The client's phase -/

/-- the phase of a client after its earlier replays, each with its nonce and the cache it read -/
def clientPhase (hist : List (UInt32 × List Bytes)) : UInt32 :=
  hist.foldl (fun phase h => if h.2 = [] then phase else markPhase h.1 phase) 0

theorem markPhase_config (nonce phase : UInt32) :
    markPhase nonce phase &&& configPhaseConfig ≠ 0 ↔ nonce = nonceOnlyConfig ∨ phase &&& configPhaseConfig ≠ 0 := by
  unfold markPhase
  split_ifs with h1 h2
  · refine iff_of_true ?_ (Or.inl h1)
    simp only [configPhaseConfig]
    intro h
    have hb := congrArg UInt32.toBitVec h
    simp only [UInt32.toBitVec_and, UInt32.toBitVec_or] at hb
    have h0 := congrArg (fun b : BitVec 32 => b.getLsbD 0) hb
    simp at h0
  · have hsame : (phase ||| configPhaseNodes) &&& configPhaseConfig = phase &&& configPhaseConfig := by
      apply UInt32.toBitVec_inj.1
      simp only [configPhaseNodes, configPhaseConfig, UInt32.toBitVec_and, UInt32.toBitVec_or]
      ext i hi
      by_cases h0 : i = 0
      · subst h0; simp
      · simp [h0]
    rw [hsame]
    simp [h1]
  · simp [h1]

/-- the config bit tells whether an earlier replay had nonce 69420 and a non-empty cache -/
theorem clientPhase_config_iff (hist : List (UInt32 × List Bytes)) :
    clientPhase hist &&& configPhaseConfig ≠ 0 ↔ ∃ h ∈ hist, h.1 = nonceOnlyConfig ∧ h.2 ≠ [] := by
  induction hist using List.reverseRecOn with
  | nil => simp [clientPhase]
  | append_singleton hist h ih =>
    have hstep : clientPhase (hist ++ [h]) =
        if h.2 = [] then clientPhase hist else markPhase h.1 (clientPhase hist) := by
      simp [clientPhase, List.foldl_append]
    rw [hstep]
    split_ifs with hc
    · rw [ih]; simp [hc]
    · rw [markPhase_config, ih]
      simp only [List.mem_append, List.mem_singleton, or_and_right, exists_or, exists_eq_left, hc, ne_eq,
        not_false_eq_true, and_true]
      exact or_comm

/-! ## What the filter selects -/

/-- the messages a request is answered with, given the node's own number: all of them for an ordinary nonce; without the
NodeInfo of other nodes for 69420; only NodeInfo and config_complete_id for 69421. Unparseable frames always. -/
def selectedMsg (nonce own : UInt32) : Option FromRadio → Bool
  | none => true
  | some msg =>
    if nonce = nonceOnlyConfig then
      match msg.variant with
      | .nodeInfo ni => ni.num = own
      | _ => true
    else if nonce = nonceOnlyNodes then
      match msg.variant with
      | .nodeInfo _ | .configCompleteId _ => true
      | _ => false
    else true

def Selected (nonce own : UInt32) (frame : Bytes) : Bool := selectedMsg nonce own (pb.unmarshalFromRadio frame)

theorem filterStep_frames {nonce : UInt32} (hn : nonce = nonceOnlyConfig ∨ nonce = nonceOnlyNodes) (r : FilterResult)
    (pf : ParsedFrame) :
    (filterStep nonce r pf).frames = r.frames ++ (if selectedMsg nonce r.stats.myNodeNum pf.msg then [pf] else []) ∧
      (filterStep nonce r pf).stats.myNodeNum = r.stats.myNodeNum := by
  have hne : nonceOnlyNodes ≠ nonceOnlyConfig := by decide
  obtain ⟨raw, msg⟩ := pf
  cases msg with
  | none => exact ⟨by simp [filterStep, selectedMsg, FilterResult.keep], rfl⟩
  | some msg =>
    obtain ⟨id, variant, rest⟩ := msg
    rcases hn with rfl | rfl
    · cases variant with
      | nodeInfo ni =>
        by_cases hown : ni.num = r.stats.myNodeNum <;> simp [filterStep, selectedMsg, FilterResult.keep, hown]
      | _ => exact ⟨by simp [filterStep, selectedMsg, FilterResult.keep], rfl⟩
    · cases variant <;> simp [filterStep, selectedMsg, FilterResult.keep, hne]

/-- the second pass is a filter by the node number of the first -/
theorem filterLoop_frames {nonce : UInt32} (hn : nonce = nonceOnlyConfig ∨ nonce = nonceOnlyNodes) (cache : List Bytes)
    (r : FilterResult) :
    ((cache.map (parseFrame pb)).foldl (filterStep nonce) r).frames =
      r.frames ++ (cache.filter (Selected pb nonce r.stats.myNodeNum)).map (parseFrame pb) := by
  induction cache generalizing r with
  | nil => simp
  | cons frame cache ih =>
    obtain ⟨hf, hnum⟩ := filterStep_frames hn r (parseFrame pb frame)
    rw [List.map_cons, List.foldl_cons, ih, hf, hnum, List.filter_cons]
    change r.frames ++ (if Selected pb nonce r.stats.myNodeNum frame then _ else _) ++ _ = _
    split_ifs <;> simp

/-- **The filter.** The frames kept for a nonce are the selected ones, in cache order. -/
theorem filterConfigCache_frames (cache : List Bytes) (nonce : UInt32) :
    (filterConfigCache pb cache nonce).frames =
      (cache.filter (Selected pb nonce (findMyNodeNum (cache.map (parseFrame pb))))).map (parseFrame pb) := by
  unfold filterConfigCache
  simp only
  split_ifs with h
  · have hall : ∀ frame, Selected pb nonce (findMyNodeNum (cache.map (parseFrame pb))) frame = true := by
      intro frame
      unfold Selected selectedMsg
      split
      · rfl
      · rw [if_neg h.1, if_neg h.2]
    rw [List.filter_eq_self.2 fun frame _ => hall frame]
  · have hn : nonce = nonceOnlyConfig ∨ nonce = nonceOnlyNodes := by
      by_contra hc
      exact h (not_or.1 hc)
    rw [filterLoop_frames pb hn]
    simp

/-! ## The replay of a whole cache -/

/-- a cache that starts with its only my_info and ends with its only config_complete_id -/
structure Shape where
  first : Bytes
  mid : List Bytes
  last : Bytes
  own : UInt32
  msgId : UInt32
  cachedNonce : UInt32
  rest : Bytes
  isMyInfo : ∃ id info rest, pb.unmarshalFromRadio first = some ⟨id, .myInfo own info, rest⟩
  isComplete : pb.unmarshalFromRadio last = some ⟨msgId, .configCompleteId cachedNonce, rest⟩
  noOther : ∀ f ∈ mid, ∀ m, pb.unmarshalFromRadio f = some m →
    (∀ k, m.variant ≠ .configCompleteId k) ∧ ∀ num info, m.variant ≠ .myInfo num info

def Shape.cache (sh : Shape pb) : List Bytes := sh.first :: sh.mid ++ [sh.last]

variable {pb} (sh : Shape pb)

theorem Shape.myNodeNum : findMyNodeNum (sh.cache.map (parseFrame pb)) = sh.own := by
  obtain ⟨id, info, rest, hu⟩ := sh.isMyInfo
  simp [Shape.cache, findMyNodeNum, parseFrame, hu]

/-- a frame that is no config_complete_id is sent as it is -/
theorem outFrame_raw {nonce : UInt32} {f : Bytes}
    (h : ∀ m, pb.unmarshalFromRadio f = some m → ∀ k, m.variant ≠ .configCompleteId k) :
    outFrame pb nonce (parseFrame pb f) = some f := by
  unfold outFrame parseFrame
  split
  · rename_i id k rest hu
    exact absurd rfl (h _ hu k)
  · rfl

theorem Shape.outFrame_raw {nonce : UInt32} {f : Bytes} (hf : f ∈ sh.first :: sh.mid) :
    outFrame pb nonce (parseFrame pb f) = some f := by
  apply ConfigReplay.outFrame_raw
  intro m hm k
  rcases List.mem_cons.1 hf with rfl | hf
  · obtain ⟨id, info, rest, hfirst⟩ := sh.isMyInfo
    rw [hfirst] at hm
    cases hm
    simp
  · exact (sh.noOther f hf m hm).1 k

/-- the config frames of a replay: the selected ones as they are, then the config_complete_id under the client's nonce -/
theorem Shape.outFrames (hn : pb.NonceLaw) (nonce : UInt32) :
    ∃ patched, pb.unmarshalFromRadio patched = some ⟨sh.msgId, .configCompleteId nonce, sh.rest⟩ ∧
      (filterConfigCache pb sh.cache nonce).frames.filterMap (outFrame pb nonce) =
        (sh.first :: sh.mid).filter (Selected pb nonce sh.own) ++ [patched] := by
  obtain ⟨patched, hm, hp⟩ := hn sh.last _ sh.cachedNonce nonce sh.isComplete rfl
  refine ⟨patched, hp, ?_⟩
  have hsel : Selected pb nonce sh.own sh.last = true := by
    simp only [Selected, selectedMsg, sh.isComplete]
    split_ifs <;> rfl
  have hlast : outFrame pb nonce (parseFrame pb sh.last) = some patched := by
    simp only [outFrame, parseFrame, sh.isComplete]
    exact hm
  rw [filterConfigCache_frames, sh.myNodeNum, Shape.cache, List.filter_append, List.map_append, List.filterMap_append,
    List.filter_singleton, hsel]
  simp only [cond_true, List.map_cons, List.map_nil, List.filterMap_cons, hlast, List.filterMap_nil]
  congr 1
  rw [List.filterMap_map]
  calc ((sh.first :: sh.mid).filter (Selected pb nonce sh.own)).filterMap (outFrame pb nonce ∘ parseFrame pb)
      = ((sh.first :: sh.mid).filter (Selected pb nonce sh.own)).filterMap some :=
        List.filterMap_congr fun f hf => sh.outFrame_raw (List.mem_of_mem_filter hf)
    _ = _ := List.filterMap_some

/-- chat replay is due: enabled with a cache, and the nonce is ordinary, or it is 69421 after a 69420 replay of a
non-empty cache -/
def ChatDue (o : Opts) (hist : List (UInt32 × List Bytes)) (nonce : UInt32) : Prop :=
  o.replayChatEnabled = true ∧ 0 < o.maxChatCache ∧
    ((nonce ≠ nonceOnlyConfig ∧ nonce ≠ nonceOnlyNodes) ∨
      (nonce = nonceOnlyNodes ∧ ∃ h ∈ hist, h.1 = nonceOnlyConfig ∧ h.2 ≠ []))

instance (o : Opts) (hist : List (UInt32 × List Bytes)) (nonce : UInt32) : Decidable (ChatDue o hist nonce) :=
  inferInstanceAs (Decidable (_ ∧ _ ∧ _))

theorem shouldReplayChat_iff (o : Opts) (hist : List (UInt32 × List Bytes)) (nonce : UInt32) :
    shouldReplayChat o nonce (markPhase nonce (clientPhase hist)) = true ↔ ChatDue o hist nonce := by
  have hne : nonceOnlyNodes ≠ nonceOnlyConfig := by decide
  unfold shouldReplayChat ChatDue
  by_cases hen : o.replayChatEnabled = false ∨ o.maxChatCache ≤ 0
  · rw [if_pos hen]
    refine iff_of_false Bool.false_ne_true ?_
    rintro ⟨h1, h2, -⟩
    rcases hen with h | h
    · rw [h] at h1; cases h1
    · exact absurd h2 (not_lt.2 h)
  · rw [if_neg hen]
    push Not at hen
    have h1 : o.replayChatEnabled = true := by simpa using hen.1
    by_cases hc : nonce = nonceOnlyConfig
    · rw [if_pos hc]
      simp [hc, hne.symm]
    · rw [if_neg hc]
      by_cases hd : nonce = nonceOnlyNodes
      · rw [if_pos hd, decide_eq_true_iff, markPhase_config, clientPhase_config_iff]
        simp [hd, hne, h1, hen.2]
      · rw [if_neg hd]
        simp [hc, hd, h1, hen.2]

/-- **What a replay sends.** For every cache from its only my_info to its only config_complete_id, every chat cache,
every nonce and every history of the client's earlier replays, a replay over a channel that never fills returns, and
what it has enqueued is exactly: the selected frames in cache order and unchanged, the config_complete_id under the
client's nonce, and, exactly if chat replay is due, each chat message followed by its ACK if it has one. -/
theorem replay_sequence (hn : pb.NonceLaw) (o : Opts) (chat : List ChatEntry) (hist : List (UInt32 × List Bytes))
    (nonce : UInt32) (out : List Bytes) (n : ℕ) (hsteps : (Replay.start nonce).work pb sh.cache chat ≤ n) :
    ∃ patched, pb.unmarshalFromRadio patched = some ⟨sh.msgId, .configCompleteId nonce, sh.rest⟩ ∧
      ((Session.step pb o sh.cache chat)^[n] ⟨.start nonce, clientPhase hist, out⟩).replay = .returned ∧
      ((Session.step pb o sh.cache chat)^[n] ⟨.start nonce, clientPhase hist, out⟩).out =
        out ++ ((sh.first :: sh.mid).filter (Selected pb nonce sh.own) ++ [patched] ++
          if ChatDue o hist nonce then chatFrames chat else []) := by
  obtain ⟨patched, hp, hframes⟩ := sh.outFrames hn nonce
  obtain ⟨hret, hout⟩ := session_runs pb o sh.cache chat n ⟨.start nonce, clientPhase hist, out⟩ hsteps
  refine ⟨patched, hp, hret, ?_⟩
  have hne : sh.cache ≠ [] := by simp [Shape.cache]
  rw [hout]
  simp only [Replay.sends, if_neg hne, replayFrames, hframes, shouldReplayChat_iff]

/-! ### The second phase of an iOS client -/

def myInfoFrame : Bytes := [0x1A, 2, 8, 1]

/-- the NodeInfo frame of a node -/
def nodeFrame (num : UInt8) : Bytes := [0x22, 2, 8, num]

def replayCodec : Codec :=
  tableCodec
    [(myInfoFrame, { variant := .myInfo 1 [] }), (nodeFrame 1, { variant := .nodeInfo { num := 1 } }),
      (nodeFrame 2, { variant := .nodeInfo { num := 2 } })] [] []

/-- [my_info, NodeInfo 1, NodeInfo 2, config_complete_id 5] -/
def replayShape : Shape replayCodec where
  first := myInfoFrame
  mid := [nodeFrame 1, nodeFrame 2]
  last := configCompleteBytes 5
  own := 1
  msgId := 0
  cachedNonce := 5
  rest := []
  isMyInfo := ⟨0, [], [], by decide +kernel⟩
  isComplete := by decide +kernel
  noOther := by
    intro f hf m hm
    have h1 : replayCodec.unmarshalFromRadio (nodeFrame 1) = some { variant := .nodeInfo { num := 1 } } := by
      decide +kernel
    have h2 : replayCodec.unmarshalFromRadio (nodeFrame 2) = some { variant := .nodeInfo { num := 2 } } := by
      decide +kernel
    rcases List.mem_cons.1 hf with rfl | hf
    · rw [h1] at hm; cases hm; simp
    · rw [List.mem_singleton.1 hf, h2] at hm; cases hm; simp

theorem replayCodec_nonceLaw : replayCodec.NonceLaw := tableCodec_nonceLaw _ _ _ (by simp)

/-- after a 69420 replay, nonce 69421 brings the node database, the completion and the chat history -/
theorem replay_sequence_nodes_phase :
    ∃ patched, replayCodec.unmarshalFromRadio patched = some ⟨0, .configCompleteId nonceOnlyNodes, []⟩ ∧
      ((Session.step replayCodec ⟨true, 10⟩ replayShape.cache [⟨[1], 7, some [2]⟩])^[20]
        ⟨.start nonceOnlyNodes, clientPhase [(nonceOnlyConfig, replayShape.cache)], []⟩).out =
        [nodeFrame 1, nodeFrame 2, patched, [1], [2]] := by
  obtain ⟨patched, hp, -, hout⟩ := replay_sequence replayShape replayCodec_nonceLaw ⟨true, 10⟩ [⟨[1], 7, some [2]⟩]
    [(nonceOnlyConfig, replayShape.cache)] nonceOnlyNodes [] 20 (by decide +kernel)
  refine ⟨patched, hp, hout.trans ?_⟩
  have hsel : (replayShape.first :: replayShape.mid).filter (Selected replayCodec nonceOnlyNodes replayShape.own) =
      [nodeFrame 1, nodeFrame 2] := by decide +kernel
  have hdue : ChatDue ⟨true, 10⟩ [(nonceOnlyConfig, replayShape.cache)] nonceOnlyNodes := by decide +kernel
  rw [hsel, if_pos hdue]
  rfl

end MeshProxy.ConfigReplay
