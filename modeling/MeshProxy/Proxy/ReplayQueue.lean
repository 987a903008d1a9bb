/-
The replays of one client (`internal/proxy`: the `go replayCachedConfig` of onMessage, replayMu, Client.Send).

Every want_config_id starts a goroutine of its own; the goroutines wait for replayMu and take it in any order. The one that
holds it runs the program of ConfigReplay over the caches as they are when it reads them; a Send that finds the channel
full closes the client and ends the replay. Broadcasts and echoes put their own frames into the channel meanwhile, the
writeLoop takes frames out, and the config and chat caches change.

`put` is the log of what was put into the channel, a replay's frames with the number of its request. A `Turn` is a
replay with what it has read; it is for the statements only.

`replays_do_not_interleave`: the frames of the replays are one block for each turn, in the order of the turns, each the
whole of what the replay has to send or, after a failed Send, a prefix of it.
-/
import MeshProxy.Proxy.ConfigReplay

namespace MeshProxy.ReplayQueue

open MeshProxy.Proto MeshProxy.Decode MeshProxy.ChatCache MeshProxy.ConfigReplay MeshProxy.Trace
open MeshProxy.Frame (Bytes)

/-! ## The machine -/

/-- a replay that has taken replayMu: its request, and the caches and phase it has read so far -/
structure Turn where
  id : ℕ
  nonce : UInt32
  cache : List Bytes := []
  chat : List ChatEntry := []
  phase : UInt32 := 0
  cut : Bool := false
deriving DecidableEq, Repr

/-- who holds replayMu, and where it stands -/
structure Holder where
  turn : Turn
  replay : Replay
deriving DecidableEq, Repr

structure St where
  requests : List UInt32
  waiting : List ℕ
  holder : Option Holder
  past : List Turn
  phase : UInt32
  cache : List Bytes
  chat : List ChatEntry
  chan : List Bytes
  written : List Bytes
  put : List (Option ℕ × Bytes)
  closed : Bool
deriving DecidableEq, Repr

structure Env where
  pb : Codec
  opts : Opts
  clientSendBuffer : ℕ

inductive Act where
  | request (nonce : UInt32)
  | lock (i : ℕ)
  | replay
  | other (f : Bytes)
  | write
  | setCache (cache : List Bytes)
  | setChat (chat : List ChatEntry)
deriving DecidableEq, Repr

/-- a client that has just connected, with the caches as they are then -/
def init (cache : List Bytes) (chat : List ChatEntry) : St := ⟨[], [], none, [], 0, cache, chat, [], [], [], false⟩

variable (e : Env)

/-- what the turn records at an internal step: the caches it reads -/
def Turn.note (s : St) (r' : Replay) (r : Replay) (t : Turn) : Turn :=
  match r, r' with
  | .start _, .config _ _ => { t with cache := s.cache, phase := s.phase }
  | .config _ _, .chat _ => { t with chat := s.chat }
  | _, _ => t

namespace St

/-- the goroutine of request i takes replayMu -/
def lock (i : ℕ) (s : St) : St :=
  if s.holder = none ∧ i ∈ s.waiting then
    let nonce := s.requests.getD i 0
    { s with waiting := s.waiting.erase i, holder := some ⟨{ id := i, nonce := nonce }, .start nonce⟩ }
  else s

/-- the next step of the replay that holds replayMu; when it has returned, the deferred Unlock -/
def replay (s : St) : St :=
  match s.holder with
  | none => s
  | some h =>
    match h.replay.next e.pb e.opts s.cache s.chat s.phase with
    | .halt => { s with holder := none, past := s.past ++ [h.turn] }
    | .tau r phase => { s with holder := some ⟨h.turn.note s r h.replay, r⟩, phase := phase }
    | .send f r =>
      if s.chan.length < e.clientSendBuffer then
        { s with holder := some ⟨h.turn, r⟩, chan := s.chan ++ [f], put := s.put ++ [(some h.turn.id, f)] }
      else { s with holder := some ⟨{ h.turn with cut := true }, .returned⟩, closed := true }

/-- a Send of a broadcast or an echo -/
def other (f : Bytes) (s : St) : St :=
  if s.chan.length < e.clientSendBuffer then { s with chan := s.chan ++ [f], put := s.put ++ [(none, f)] }
  else { s with closed := true }

def write (s : St) : St :=
  match s.chan with
  | [] => s
  | f :: rest => { s with chan := rest, written := s.written ++ [f] }

/-- the replays that have taken replayMu, in that order -/
def turns (s : St) : List Turn := s.past ++ s.holder.toList.map Holder.turn

end St

def step (s : St) : Act → St
  | .request nonce => { s with requests := s.requests ++ [nonce], waiting := s.waiting ++ [s.requests.length] }
  | .lock i => s.lock i
  | .replay => s.replay e
  | .other f => s.other e f
  | .write => s.write
  | .setCache cache => { s with cache := cache }
  | .setChat chat => { s with chat := chat }

/-! ## Blocks -/

/-- the frames a replay has put into the channel -/
def framesOf (i : ℕ) (put : List (Option ℕ × Bytes)) : List Bytes :=
  (put.filter fun x => x.1 = some i).map Prod.snd

/-- the frames of all replays, each with its request -/
def tagged (put : List (Option ℕ × Bytes)) : List (ℕ × Bytes) := put.filterMap fun x => x.1.map fun i => (i, x.2)

/-- the config part of what a replay has to send -/
def Turn.config (t : Turn) : List Bytes :=
  (filterConfigCache e.pb t.cache t.nonce).frames.filterMap (outFrame e.pb t.nonce)

/-- everything a replay has to send, given what it has read -/
def Turn.whole (t : Turn) : List Bytes := (Replay.start t.nonce).sends e.pb e.opts t.cache t.chat t.phase

@[simp] theorem framesOf_snoc_self (i : ℕ) (f : Bytes) (put : List (Option ℕ × Bytes)) :
    framesOf i (put ++ [(some i, f)]) = framesOf i put ++ [f] := by simp [framesOf]

theorem framesOf_snoc_of_ne {i : ℕ} {x : Option ℕ × Bytes} (h : x.1 ≠ some i) (put : List (Option ℕ × Bytes)) :
    framesOf i (put ++ [x]) = framesOf i put := by simp [framesOf, h]

@[simp] theorem tagged_snoc_some (i : ℕ) (f : Bytes) (put : List (Option ℕ × Bytes)) :
    tagged (put ++ [(some i, f)]) = tagged put ++ [(i, f)] := by simp [tagged]

@[simp] theorem tagged_snoc_none (f : Bytes) (put : List (Option ℕ × Bytes)) :
    tagged (put ++ [(none, f)]) = tagged put := by simp [tagged]

theorem mem_tagged {i : ℕ} {f : Bytes} {put : List (Option ℕ × Bytes)} : (i, f) ∈ tagged put ↔ (some i, f) ∈ put := by
  unfold tagged
  rw [List.mem_filterMap]
  constructor
  · rintro ⟨⟨t, g⟩, hmem, heq⟩
    cases t with
    | none => cases heq
    | some j => cases heq; exact hmem
  · intro hmem
    exact ⟨(some i, f), hmem, rfl⟩

theorem mem_framesOf {i : ℕ} {f : Bytes} {put : List (Option ℕ × Bytes)} : f ∈ framesOf i put ↔ (some i, f) ∈ put := by
  unfold framesOf
  constructor
  · intro h
    obtain ⟨⟨t, g⟩, hmem, rfl⟩ := List.mem_map.1 h
    obtain ⟨hmem, ht⟩ := List.mem_filter.1 hmem
    have ht : t = some i := by simpa using ht
    rwa [ht] at hmem
  · intro h
    exact List.mem_map.2 ⟨(some i, f), List.mem_filter.2 ⟨h, by simp⟩, rfl⟩

/-- the frames of some replays, one replay after the other -/
def blocks (put : List (Option ℕ × Bytes)) (ids : List ℕ) : List (ℕ × Bytes) :=
  ids.flatMap fun i => (framesOf i put).map fun f => (i, f)

theorem blocks_append (put : List (Option ℕ × Bytes)) (ids ids' : List ℕ) :
    blocks put (ids ++ ids') = blocks put ids ++ blocks put ids' := by simp [blocks]

theorem blocks_snoc_of_notMem {x : Option ℕ × Bytes} {ids : List ℕ} (h : ∀ i ∈ ids, x.1 ≠ some i)
    (put : List (Option ℕ × Bytes)) : blocks (put ++ [x]) ids = blocks put ids := by
  induction ids with
  | nil => rfl
  | cons i ids ih =>
    have hi := framesOf_snoc_of_ne (h i List.mem_cons_self) put
    have hrest := ih fun j hj => h j (List.mem_cons_of_mem i hj)
    simp only [blocks, List.flatMap_cons] at hrest ⊢
    rw [hi, hrest]

/-! ## The invariant -/

/-- a replay that has returned: it has sent everything, or a Send has failed and the client is closed -/
structure Ended (sent : List Bytes) (closed : Bool) (t : Turn) : Prop where
  isPrefix : sent <+: t.whole e
  whole : t.cut = false → sent = t.whole e
  closes : t.cut = true → closed = true

/-- what the holder of replayMu has sent, by its position -/
def Held (sent : List Bytes) (phase : UInt32) (closed : Bool) (t : Turn) : Replay → Prop
  | .start n => n = t.nonce ∧ t = { id := t.id, nonce := t.nonce } ∧ sent = []
  | .config n todo =>
    n = t.nonce ∧ t.cut = false ∧ t.cache ≠ [] ∧ t.chat = [] ∧ phase = markPhase t.nonce t.phase ∧
      sent ++ todo.filterMap (outFrame e.pb n) = t.config e
  | .chat todo => t.cut = false ∧ sent ++ chatFrames todo = t.whole e
  | .chatAck ack todo => t.cut = false ∧ sent ++ ack :: chatFrames todo = t.whole e
  | .returned => Ended e sent closed t

structure Inv (s : St) : Prop where
  carried : s.put.map Prod.snd = s.written ++ s.chan
  ids : (s.turns.map Turn.id ++ s.waiting).Perm (List.range s.requests.length)
  nonces : ∀ t ∈ s.turns, s.requests[t.id]? = some t.nonce
  blocks : tagged s.put = blocks s.put (s.turns.map Turn.id)
  past : ∀ t ∈ s.past, Ended e (framesOf t.id s.put) s.closed t
  held : ∀ h, s.holder = some h → Held e (framesOf h.turn.id s.put) s.phase s.closed h.turn h.replay

theorem inv_init (cache : List Bytes) (chat : List ChatEntry) : Inv e (init cache chat) where
  carried := rfl
  ids := List.Perm.refl _
  nonces := by simp [init, St.turns]
  blocks := rfl
  past := by simp [init]
  held := by simp [init]

variable {e} {s : St}

theorem Ended.close {sent : List Bytes} {closed : Bool} {t : Turn} (h : Ended e sent closed t) : Ended e sent true t :=
  ⟨h.isPrefix, h.whole, fun _ => rfl⟩

theorem Held.close {sent : List Bytes} {phase : UInt32} {closed : Bool} {t : Turn} {r : Replay}
    (h : Held e sent phase closed t r) : Held e sent phase true t r := by
  cases r with
  | returned => exact Ended.close h
  | _ => exact h

theorem Inv.nodup (h : Inv e s) : (s.turns.map Turn.id ++ s.waiting).Nodup := h.ids.nodup_iff.2 List.nodup_range

/-- a replay that waits has put nothing into the channel -/
theorem Inv.framesOf_waiting (h : Inv e s) {i : ℕ} (hi : i ∈ s.waiting) : framesOf i s.put = [] := by
  by_contra hne
  obtain ⟨f, hf⟩ := List.exists_mem_of_ne_nil _ hne
  have hmem := mem_tagged.2 (mem_framesOf.1 hf)
  rw [h.blocks, ReplayQueue.blocks, List.mem_flatMap] at hmem
  obtain ⟨j, hj, hjf⟩ := hmem
  obtain ⟨g, -, hg⟩ := List.mem_map.1 hjf
  cases hg
  exact (List.nodup_append.1 h.nodup).2.2 _ hj _ hi rfl

theorem request_inv (h : Inv e s) (nonce : UInt32) : Inv e (step e s (.request nonce)) := by
  refine ⟨h.carried, ?_, ?_, h.blocks, h.past, h.held⟩
  · change (s.turns.map Turn.id ++ (s.waiting ++ [s.requests.length])).Perm _
    simp only [step, List.length_append, List.length_singleton]
    rw [List.range_succ, ← List.append_assoc]
    exact h.ids.append_right _
  · intro t ht
    have hn := h.nonces t ht
    obtain ⟨hlt, -⟩ := List.getElem?_eq_some_iff.1 hn
    simp only [step]
    rw [List.getElem?_append_left hlt]
    exact hn

theorem lock_inv (h : Inv e s) (i : ℕ) : Inv e (s.lock i) := by
  unfold St.lock
  split_ifs with hg
  · obtain ⟨hnone, hi⟩ := hg
    have hturns : s.turns = s.past := by simp [St.turns, hnone]
    have hlt : i < s.requests.length := by
      have hmem := h.ids.mem_iff.1 (List.mem_append_right _ hi)
      simpa using hmem
    have hempty := h.framesOf_waiting hi
    have hids := h.ids
    have hblocks := h.blocks
    have hnonces := h.nonces
    rw [hturns] at hids hblocks hnonces
    refine ⟨h.carried, ?_, ?_, ?_, h.past, ?_⟩
    · simp only [St.turns, Option.toList_some, List.map_append, List.map_cons, List.map_nil, List.append_assoc,
        List.singleton_append]
      exact ((List.perm_cons_erase hi).symm.append_left _).trans hids
    · intro t ht
      simp only [St.turns, Option.toList_some, List.map_cons, List.map_nil] at ht
      rcases List.mem_append.1 ht with ht | ht
      · exact hnonces t ht
      · rw [List.mem_singleton.1 ht]
        simp [List.getD_eq_getElem?_getD, List.getElem?_eq_getElem hlt]
    · simp only [St.turns, Option.toList_some, List.map_append, List.map_cons, List.map_nil]
      rw [blocks_append, ← hblocks]
      simp [ReplayQueue.blocks, hempty]
    · rintro _ ⟨⟩
      exact ⟨rfl, rfl, hempty⟩
  · exact h

theorem other_inv (h : Inv e s) (f : Bytes) : Inv e (s.other e f) := by
  unfold St.other
  split_ifs
  · have hframes (i : ℕ) : framesOf i (s.put ++ [(none, f)]) = framesOf i s.put :=
      framesOf_snoc_of_ne (by simp) s.put
    refine ⟨?_, h.ids, h.nonces, ?_, ?_, ?_⟩
    · simp [h.carried]
    · rw [tagged_snoc_none, h.blocks]
      exact (blocks_snoc_of_notMem (by simp) s.put).symm
    · intro t ht
      simp only [hframes]
      exact h.past t ht
    · intro hd hhd
      simp only [hframes]
      exact h.held hd hhd
  · exact ⟨h.carried, h.ids, h.nonces, h.blocks, fun t ht => (h.past t ht).close, fun hd hhd => (h.held hd hhd).close⟩

theorem write_inv (h : Inv e s) : Inv e s.write := by
  unfold St.write
  split
  · exact h
  · rename_i f rest hc
    refine ⟨?_, h.ids, h.nonces, h.blocks, h.past, h.held⟩
    rw [h.carried, hc]
    simp

/-! ## The holder's steps -/

variable {t : Turn} {sent : List Bytes} {phase : UInt32} {closed : Bool} {r r' : Replay}

theorem note_id (s : St) (r' r : Replay) (t : Turn) : (t.note s r' r).id = t.id := by
  unfold Turn.note
  split <;> rfl

theorem note_nonce (s : St) (r' r : Replay) (t : Turn) : (t.note s r' r).nonce = t.nonce := by
  unfold Turn.note
  split <;> rfl

theorem whole_eq (h : t.cache ≠ []) : t.whole e = t.config e ++
    if shouldReplayChat e.opts t.nonce (markPhase t.nonce t.phase) then chatFrames t.chat else [] := by
  simp only [Turn.whole, Replay.sends, if_neg h, replayFrames, Turn.config]

theorem Ended.of_whole (hcut : t.cut = false) (hsent : sent = t.whole e) : Ended e sent closed t :=
  ⟨hsent ▸ List.prefix_rfl, fun _ => hsent, fun h => by rw [hcut] at h; cases h⟩

theorem Held.tau {phase' : UInt32} (h : Held e sent s.phase closed t r)
    (hnext : r.next e.pb e.opts s.cache s.chat s.phase = .tau r' phase') :
    Held e sent phase' closed (t.note s r' r) r' := by
  cases r with
  | start n =>
    obtain ⟨rfl, ht, rfl⟩ := h
    simp only [Replay.next] at hnext
    split_ifs at hnext with hc <;> cases hnext
    · refine Ended.of_whole (by rw [ht]; rfl) ?_
      rw [ht]
      rfl
    · refine ⟨rfl, by rw [ht]; rfl, hc, by rw [ht]; rfl, rfl, rfl⟩
  | config n todo =>
    obtain ⟨rfl, hcut, hcache, hchat, hphase, hsent⟩ := h
    cases todo with
    | cons pf todo =>
      simp only [Replay.next] at hnext
      split at hnext
      · rename_i hnone
        cases hnext
        refine ⟨rfl, hcut, hcache, hchat, hphase, ?_⟩
        rwa [List.filterMap_cons, hnone] at hsent
      · cases hnext
    | nil =>
      rw [List.filterMap_nil, List.append_nil] at hsent
      simp only [Replay.next] at hnext
      split_ifs at hnext with hshould
      · cases hnext
        refine ⟨hcut, ?_⟩
        rw [hphase] at hshould
        have hwhole : Turn.whole e { t with chat := s.chat } = t.config e ++ chatFrames s.chat := by
          rw [whole_eq (t := { t with chat := s.chat }) hcache]
          exact congrArg _ (if_pos hshould)
        rw [hsent]
        exact hwhole.symm
      · cases hnext
        refine Ended.of_whole hcut ?_
        rw [hphase] at hshould
        change sent = t.whole e
        rw [whole_eq hcache, hsent, if_neg hshould, List.append_nil]
  | chat todo =>
    cases todo with
    | cons ent todo =>
      simp only [Replay.next] at hnext
      split at hnext <;> cases hnext
    | nil =>
      simp only [Replay.next] at hnext
      cases hnext
      refine Ended.of_whole h.1 ?_
      change sent = t.whole e
      simpa [chatFrames] using h.2
  | chatAck ack todo => cases hnext
  | returned => cases hnext

theorem Held.send {f : Bytes} {cache : List Bytes} {chat : List ChatEntry} (h : Held e sent phase closed t r)
    (hnext : r.next e.pb e.opts cache chat phase = .send f r') : Held e (sent ++ [f]) phase closed t r' := by
  cases r with
  | start n =>
    simp only [Replay.next] at hnext
    split_ifs at hnext
  | config n todo =>
    obtain ⟨rfl, hcut, hcache, hchat, hphase, hsent⟩ := h
    cases todo with
    | cons pf todo =>
      simp only [Replay.next] at hnext
      split at hnext
      · cases hnext
      · rename_i hsome
        cases hnext
        refine ⟨rfl, hcut, hcache, hchat, hphase, ?_⟩
        rw [List.filterMap_cons, hsome] at hsent
        rwa [List.append_assoc, List.singleton_append]
    | nil =>
      simp only [Replay.next] at hnext
      split_ifs at hnext
  | chat todo =>
    cases todo with
    | cons ent todo =>
      obtain ⟨hcut, hsent⟩ := h
      simp only [Replay.next] at hnext
      split at hnext
      · rename_i hack
        cases hnext
        refine ⟨hcut, ?_⟩
        simpa [chatFrames, hack] using hsent
      · rename_i ack hack
        cases hnext
        refine ⟨hcut, ?_⟩
        simpa [chatFrames, hack] using hsent
    | nil => cases hnext
  | chatAck ack todo =>
    cases hnext
    exact ⟨h.1, by rw [List.append_assoc, List.singleton_append]; exact h.2⟩
  | returned => cases hnext

/-- what has been sent is a prefix of the whole, wherever the replay is cut -/
theorem Held.isPrefix (h : Held e sent phase closed t r) : sent <+: t.whole e := by
  cases r with
  | start n =>
    rw [h.2.2]
    exact List.nil_prefix
  | config n todo =>
    obtain ⟨-, -, hcache, -, -, hsent⟩ := h
    rw [whole_eq hcache, ← hsent, List.append_assoc]
    exact List.prefix_append _ _
  | chat todo => exact h.2 ▸ List.prefix_append _ _
  | chatAck ack todo => exact h.2 ▸ List.prefix_append _ _
  | returned => exact h.isPrefix

theorem turns_of_holder {hd : Holder} (hh : s.holder = some hd) : s.turns = s.past ++ [hd.turn] := by
  simp [St.turns, hh]

/-- the holder goes on, and puts nothing into the channel -/
theorem Inv.goOn {hd : Holder} (h : Inv e s) (hh : s.holder = some hd) (hid : t.id = hd.turn.id)
    (hnonce : t.nonce = hd.turn.nonce) (hpast : ∀ t ∈ s.past, Ended e (framesOf t.id s.put) closed t)
    (hheld : Held e (framesOf hd.turn.id s.put) phase closed t r) :
    Inv e { s with holder := some ⟨t, r⟩, phase := phase, closed := closed } := by
  have hids := h.ids
  have hblocks := h.blocks
  have hnonces := h.nonces
  rw [turns_of_holder hh] at hids hblocks hnonces
  refine ⟨h.carried, ?_, ?_, ?_, hpast, ?_⟩
  · simpa [St.turns, hid] using hids
  · intro t' ht'
    simp only [St.turns, Option.toList_some, List.map_cons, List.map_nil] at ht'
    rcases List.mem_append.1 ht' with ht' | ht'
    · exact hnonces t' (List.mem_append_left _ ht')
    · rw [List.mem_singleton.1 ht', hid, hnonce]
      exact hnonces _ (List.mem_append_right _ (List.mem_singleton_self _))
  · simpa [St.turns, hid] using hblocks
  · rintro _ ⟨⟩
    simp only [hid]
    exact hheld

/-- the holder puts a frame into the channel -/
theorem Inv.put {hd : Holder} {f : Bytes} (h : Inv e s) (hh : s.holder = some hd)
    (hheld : Held e (framesOf hd.turn.id s.put ++ [f]) s.phase s.closed hd.turn r) :
    Inv e { s with
      holder := some ⟨hd.turn, r⟩, chan := s.chan ++ [f], put := s.put ++ [(some hd.turn.id, f)] } := by
  have hids := h.ids
  have hblocks := h.blocks
  have hnonces := h.nonces
  have hnodup := (List.nodup_append.1 h.nodup).1
  rw [turns_of_holder hh] at hids hblocks hnonces
  rw [turns_of_holder hh, List.map_append, List.map_singleton] at hnodup
  have hne : ∀ i ∈ s.past.map Turn.id, (some hd.turn.id, f).1 ≠ some i := by
    intro i hi heq
    cases heq
    exact (List.nodup_append.1 hnodup).2.2 _ hi _ (List.mem_singleton_self _) rfl
  refine ⟨?_, ?_, ?_, ?_, ?_, ?_⟩
  · simp [h.carried]
  · simpa [St.turns] using hids
  · simpa [St.turns] using hnonces
  · simp only [St.turns, Option.toList_some, List.map_append, List.map_cons, List.map_nil]
    rw [tagged_snoc_some, hblocks, List.map_append, blocks_append, blocks_append, blocks_snoc_of_notMem hne]
    simp [ReplayQueue.blocks]
  · intro t ht
    have htne : t.id ∈ s.past.map Turn.id := List.mem_map_of_mem ht
    rw [framesOf_snoc_of_ne (hne _ htne)]
    exact h.past t ht
  · rintro _ ⟨⟩
    simp only [framesOf_snoc_self]
    exact hheld

/-- the holder returns, and unlocks replayMu -/
theorem Inv.unlock {hd : Holder} (h : Inv e s) (hh : s.holder = some hd)
    (hend : Ended e (framesOf hd.turn.id s.put) s.closed hd.turn) :
    Inv e { s with holder := none, past := s.past ++ [hd.turn] } := by
  have hids := h.ids
  have hblocks := h.blocks
  have hnonces := h.nonces
  rw [turns_of_holder hh] at hids hblocks hnonces
  refine ⟨h.carried, ?_, ?_, ?_, ?_, by simp⟩
  · simpa [St.turns] using hids
  · simpa [St.turns] using hnonces
  · simpa [St.turns] using hblocks
  · intro t ht
    rcases List.mem_append.1 ht with ht | ht
    · exact h.past t ht
    · rw [List.mem_singleton.1 ht]
      exact hend

theorem replay_inv (h : Inv e s) : Inv e (s.replay e) := by
  unfold St.replay
  split
  · exact h
  · rename_i hd hh
    have hheld := h.held hd hh
    split
    · rename_i hnext
      rw [next_halt hnext] at hheld
      exact h.unlock hh hheld
    · rename_i r phase hnext
      exact h.goOn hh (note_id _ _ _ _) (note_nonce _ _ _ _) h.past (hheld.tau hnext)
    · rename_i f r hnext
      split_ifs
      · exact h.put hh (hheld.send hnext)
      · have hcut : Held e (framesOf hd.turn.id s.put) s.phase true { hd.turn with cut := true } .returned :=
          Ended.mk hheld.isPrefix (fun hcut => nomatch hcut) (fun _ => rfl)
        exact h.goOn hh rfl rfl (fun t ht => (h.past t ht).close) hcut

theorem step_inv (h : Inv e s) (a : Act) : Inv e (step e s a) := by
  cases a with
  | request nonce => exact request_inv h nonce
  | lock i => exact lock_inv h i
  | replay => exact replay_inv h
  | other f => exact other_inv h f
  | write => exact write_inv h
  | setCache cache => exact ⟨h.carried, h.ids, h.nonces, h.blocks, h.past, h.held⟩
  | setChat chat => exact ⟨h.carried, h.ids, h.nonces, h.blocks, h.past, h.held⟩

variable (e)

theorem reachable_inv (cache : List Bytes) (chat : List ChatEntry) (as : List Act) :
    Inv e (run (step e) (init cache chat) as) :=
  run_inv_all (I := Inv e) (fun _ a h => step_inv h a) as (inv_init e cache chat)

/-- **Replays do not interleave.** In every run, with any number of requests, any order of the goroutines, any broadcasts,
echoes and changes of the caches: what has gone through the client's channel is `put`, and the frames the replays have
put there are, in that order, one block for each turn, for different requests. The block of a replay that has returned is
everything it had to send for the caches it read, or a prefix of that after a failed Send, which has closed the client;
the block of the one that holds replayMu is a prefix. -/
theorem replays_do_not_interleave (cache : List Bytes) (chat : List ChatEntry) (as : List Act) :
    let s := run (step e) (init cache chat) as
    s.put.map Prod.snd = s.written ++ s.chan ∧ (s.turns.map Turn.id).Nodup ∧
    tagged s.put = s.turns.flatMap (fun t => (framesOf t.id s.put).map fun f => (t.id, f)) ∧
    (∀ t ∈ s.turns, framesOf t.id s.put <+: t.whole e) ∧
    ∀ t ∈ s.past, (t.cut = false ∧ framesOf t.id s.put = t.whole e) ∨ (t.cut = true ∧ s.closed = true) := by
  have h := reachable_inv e cache chat as
  generalize run (step e) (init cache chat) as = s at h
  refine ⟨h.carried, (List.nodup_append.1 h.nodup).1, ?_, ?_, ?_⟩
  · rw [h.blocks, blocks, List.flatMap_map]
  · intro t ht
    rcases List.mem_append.1 ht with ht | ht
    · exact (h.past t ht).isPrefix
    · cases hh : s.holder with
      | none => rw [hh] at ht; cases ht
      | some hd =>
        rw [hh] at ht
        rw [List.mem_singleton.1 ht]
        exact (h.held hd hh).isPrefix
  · intro t ht
    have hend := h.past t ht
    cases hcut : t.cut with
    | false => exact Or.inl ⟨rfl, hend.whole hcut⟩
    | true => exact Or.inr ⟨rfl, hend.closes hcut⟩

end MeshProxy.ReplayQueue
