/-
In which order the requests of one client are answered, over the machine of ReplayQueue.

replayMu serialises the replays and fixes no order. Where it goes to the oldest request that waits, and no Send of a
replay finds the channel full (`InTurn`), the turns are the requests in their order (`Ordered`), so the blocks are sorted
by request, and a replay of 69421 finds the bit that an earlier request of 69420 has set. The config caches are those the
connection can show (`FromNode`): a published one holds a config_complete_id.

- `requests_answered_in_order`: inside `InTurn` every config_complete_id comes after those of the earlier requests, and
  after 69420 the replay of 69421 ends with the chat history;
- `second_request_answered_first`: a run of the two goroutines in the other order.
Premises: `Codec.RoundTrip` and `Codec.NonceLaw`.
-/
import MeshProxy.Node.Publication
import MeshProxy.Proxy.ReplayQueue

namespace MeshProxy.ReplayQueue

open MeshProxy.Proto MeshProxy.Decode MeshProxy.ChatCache MeshProxy.ConfigReplay MeshProxy.Trace
open MeshProxy.Frame (Bytes)

variable (e : Env) {s : St} {t : Turn} {sent : List Bytes} {phase : UInt32} {closed : Bool} {r r' : Replay}

/-! ## Goroutines that take replayMu in turn -/

/-- the frame is a config_complete_id that carries the nonce -/
def Completes (pb : Codec) (f : Bytes) (nonce : UInt32) : Prop :=
  ∃ m, pb.unmarshalFromRadio f = some m ∧ m.variant = .configCompleteId nonce

/-- a non-empty cache that the connection can have, after whatever it has read -/
def FromNode (grow : ℕ → ℕ) (cache : List Bytes) : Prop :=
  cache ≠ [] ∧ ∃ frames, cache = (run (ConfigCache.step e.pb grow) .new frames).configCache

/-- the connection only ever shows non-empty caches -/
def KeepsCache (grow : ℕ → ℕ) : Act → Prop
  | .setCache cache => FromNode e grow cache
  | _ => True

/-- the next step of the replay that holds replayMu is a Send -/
def St.atSend (s : St) : Bool :=
  match s.holder with
  | none => false
  | some h =>
    match h.replay.next e.pb e.opts s.cache s.chat s.phase with
    | .send _ _ => true
    | _ => false

/-- replayMu goes to the oldest request that waits, and the Send of a replay finds room -/
def InTurn (s : St) : Act → Prop
  | .lock i => s.holder = none → i ∈ s.waiting → s.waiting.head? = some i
  | .replay => s.atSend e = true → s.chan.length < e.clientSendBuffer
  | _ => True

instance (s : St) : (a : Act) → Decidable (InTurn e s a)
  | .lock i => inferInstanceAs (Decidable (s.holder = none → i ∈ s.waiting → s.waiting.head? = some i))
  | .replay => inferInstanceAs (Decidable (s.atSend e = true → s.chan.length < e.clientSendBuffer))
  | .request _ | .other _ | .write | .setCache _ | .setChat _ => inferInstanceAs (Decidable True)

/-- the replays that have read the cache -/
def St.started (s : St) : List Turn :=
  s.past ++ s.holder.toList.filterMap fun h =>
    match h.replay with
    | .start _ => none
    | _ => some h.turn

/-- a cache that the connection has published -/
def Filled (cache : List Bytes) : Prop := ∃ f ∈ cache, ConfigCache.isConfigCompleteFrame e.pb f = true

/-- replayMu was taken in the order of the requests, no Send has failed, every replay has read a filled cache, and a
replay knows of the 69420 replays before it -/
structure Ordered (s : St) : Prop where
  inv : Inv e s
  order : s.turns.map Turn.id ++ s.waiting = List.range s.requests.length
  cache : Filled e s.cache
  uncut : ∀ t ∈ s.turns, t.cut = false
  filled : ∀ t ∈ s.started, Filled e t.cache
  marked : ∀ t ∈ s.started, t.nonce = nonceOnlyConfig → s.phase &&& configPhaseConfig ≠ 0
  seen : ∀ t ∈ s.started, ∀ t' ∈ s.past, t'.id < t.id → t'.nonce = nonceOnlyConfig → t.phase &&& configPhaseConfig ≠ 0

variable {e}

theorem FromNode.filled {grow : ℕ → ℕ} {cache : List Bytes} (hrt : e.pb.RoundTrip) (h : FromNode e grow cache) :
    Filled e cache := by
  obtain ⟨hne, frames, rfl⟩ := h
  exact (ConfigCache.configCache_complete e.pb grow hrt frames).resolve_left hne

theorem Filled.ne_nil {cache : List Bytes} (h : Filled e cache) : cache ≠ [] := by
  rintro rfl
  obtain ⟨f, hf, -⟩ := h
  cases hf

/-- a replay of a filled cache sends a config_complete_id under its nonce -/
theorem Filled.completes (hn : e.pb.NonceLaw) (h : Filled e t.cache) : ∃ f ∈ t.config e, Completes e.pb f t.nonce := by
  obtain ⟨raw, hraw, hcc⟩ := h
  unfold ConfigCache.isConfigCompleteFrame at hcc
  split at hcc
  · rename_i id k rest hu
    obtain ⟨patched, hm, hp⟩ := hn raw _ k t.nonce hu rfl
    refine ⟨patched, ?_, _, hp, rfl⟩
    rw [Turn.config, filterConfigCache_frames]
    refine List.mem_filterMap.2 ⟨parseFrame e.pb raw, List.mem_map_of_mem (List.mem_filter.2 ⟨hraw, ?_⟩), ?_⟩
    · simp only [Selected, selectedMsg, hu]
      split_ifs <;> rfl
    · simp only [outFrame, parseFrame, hu]
      exact hm
  · cases hcc

theorem ordered_init {cache : List Bytes} (h : Filled e cache) (chat : List ChatEntry) : Ordered e (init cache chat) where
  inv := inv_init e cache chat
  order := rfl
  cache := h
  uncut := by simp [init, St.turns]
  filled := by simp [init, St.started]
  marked := by simp [init, St.started]
  seen := by simp [init, St.started]

/-- a step that leaves the replays and the requests alone -/
theorem Ordered.frame {s' : St} (h : Ordered e s) (hinv : Inv e s') (hrequests : s'.requests = s.requests)
    (hwaiting : s'.waiting = s.waiting) (hholder : s'.holder = s.holder) (hpast : s'.past = s.past)
    (hphase : s'.phase = s.phase) (hcache : Filled e s'.cache) : Ordered e s' := by
  have hturns : s'.turns = s.turns := by simp only [St.turns, hholder, hpast]
  have hstarted : s'.started = s.started := by simp only [St.started, hholder, hpast]
  refine ⟨hinv, ?_, hcache, ?_, ?_, ?_, ?_⟩
  · rw [hturns, hwaiting, hrequests]
    exact h.order
  · rw [hturns]
    exact h.uncut
  · rw [hstarted]
    exact h.filled
  · rw [hstarted, hphase]
    exact h.marked
  · rw [hstarted, hpast]
    exact h.seen

theorem request_ordered (h : Ordered e s) (nonce : UInt32) : Ordered e (step e s (.request nonce)) := by
  refine ⟨step_inv h.inv _, ?_, h.cache, h.uncut, h.filled, h.marked, h.seen⟩
  change s.turns.map Turn.id ++ (s.waiting ++ [s.requests.length]) = _
  simp only [step, List.length_append, List.length_singleton]
  rw [List.range_succ, ← List.append_assoc, h.order]

theorem lock_ordered (h : Ordered e s) {i : ℕ} (hturn : InTurn e s (.lock i)) : Ordered e (s.lock i) := by
  have hinv := lock_inv h.inv i
  unfold St.lock at hinv ⊢
  split_ifs at hinv ⊢ with hg
  · obtain ⟨hnone, hi⟩ := hg
    have hturns : s.turns = s.past := by simp [St.turns, hnone]
    have hstarted : s.started = s.past := by simp [St.started, hnone]
    obtain ⟨rest, hw⟩ : ∃ rest, s.waiting = i :: rest := List.head?_eq_some_iff.1 (hturn hnone hi)
    have horder := h.order
    rw [hturns, hw] at horder
    refine ⟨hinv, ?_, h.cache, ?_, ?_, ?_, ?_⟩
    · simp only [St.turns, hw, Option.toList_some, List.map_append, List.map_cons, List.map_nil, List.erase_cons_head,
        List.append_assoc, List.singleton_append]
      exact horder
    · intro t ht
      rcases List.mem_append.1 ht with ht | ht
      · exact h.uncut t (hturns ▸ ht)
      · rw [List.mem_singleton.1 ht]
    · simpa [St.started] using hstarted ▸ h.filled
    · simpa [St.started] using hstarted ▸ h.marked
    · simpa [St.started] using hstarted ▸ h.seen
  · exact h

/-- ids grow along the turns -/
theorem Ordered.past_lt (h : Ordered e s) {hd : Holder} (hh : s.holder = some hd) :
    ∀ t ∈ s.past, t.id < hd.turn.id := by
  intro t ht
  have hlt : (List.range s.requests.length).Pairwise (· < ·) := List.pairwise_lt_range
  rw [← h.order, turns_of_holder hh, List.map_append, List.append_assoc, List.pairwise_append] at hlt
  exact hlt.2.2 _ (List.mem_map_of_mem ht) _ (by simp)

theorem started_of_holder {hd : Holder} (hh : s.holder = some hd) (hr : ∀ n, hd.replay ≠ .start n) :
    s.started = s.past ++ [hd.turn] := by
  obtain ⟨t, r⟩ := hd
  cases r with
  | start n => exact absurd rfl (hr n)
  | _ => simp [St.started, hh]

/-- the holder goes on, having read the cache before -/
theorem Ordered.goOn {s' : St} {hd hd' : Holder} (h : Ordered e s) (hinv : Inv e s') (hh : s.holder = some hd)
    (hr : ∀ n, hd.replay ≠ .start n) (hh' : s'.holder = some hd') (hr' : ∀ n, hd'.replay ≠ .start n)
    (hturn : hd'.turn = { hd.turn with chat := hd'.turn.chat }) (hrequests : s'.requests = s.requests)
    (hwaiting : s'.waiting = s.waiting) (hpast : s'.past = s.past) (hphase : s'.phase = s.phase)
    (hcache : s'.cache = s.cache) : Ordered e s' := by
  have hstarted := started_of_holder hh hr
  have hstarted' := started_of_holder hh' hr'
  have hturns := turns_of_holder hh
  have hturns' := turns_of_holder hh'
  rw [hpast] at hstarted' hturns'
  have hid : hd'.turn.id = hd.turn.id := by rw [hturn]
  have hmem : hd.turn ∈ s.started := hstarted ▸ List.mem_append_right _ (List.mem_singleton_self _)
  have hmemPast : ∀ t ∈ s.past, t ∈ s.started := fun t ht => hstarted ▸ List.mem_append_left _ ht
  refine ⟨hinv, ?_, hcache ▸ h.cache, ?_, ?_, ?_, ?_⟩
  · rw [hturns', hwaiting, hrequests, ← h.order, hturns, List.map_append, List.map_append, List.map_singleton,
      List.map_singleton, hid]
  · intro t ht
    rw [hturns'] at ht
    rcases List.mem_append.1 ht with ht | ht
    · exact h.uncut t (hturns ▸ List.mem_append_left _ ht)
    · rw [List.mem_singleton.1 ht, hturn]
      exact h.uncut hd.turn (hturns ▸ List.mem_append_right _ (List.mem_singleton_self _))
  · intro t ht
    rw [hstarted'] at ht
    rcases List.mem_append.1 ht with ht | ht
    · exact h.filled t (hmemPast t ht)
    · rw [List.mem_singleton.1 ht, hturn]
      exact h.filled hd.turn hmem
  · intro t ht hnonce
    rw [hphase]
    rw [hstarted'] at ht
    rcases List.mem_append.1 ht with ht | ht
    · exact h.marked t (hmemPast t ht) hnonce
    · rw [List.mem_singleton.1 ht, hturn] at hnonce
      exact h.marked _ hmem hnonce
  · intro t ht t' ht' hlt hnonce
    rw [hpast] at ht'
    rw [hstarted'] at ht
    rcases List.mem_append.1 ht with ht | ht
    · exact h.seen t (hmemPast t ht) t' ht' hlt hnonce
    · rw [List.mem_singleton.1 ht] at hlt ⊢
      rw [hid] at hlt
      rw [hturn]
      exact h.seen hd.turn hmem t' ht' hlt hnonce

/-- past its start a replay no longer touches the client's phase -/
theorem next_tau_started {o : Opts} {cache : List Bytes} {chat : List ChatEntry} {phase phase' : UInt32}
    (hr : ∀ n, r ≠ .start n) (h : r.next e.pb o cache chat phase = .tau r' phase') :
    phase' = phase ∧ ∀ n, r' ≠ .start n := by
  cases r with
  | start n => exact absurd rfl (hr n)
  | config n todo =>
    cases todo with
    | cons pf todo =>
      simp only [Replay.next] at h
      split at h <;> cases h
      exact ⟨rfl, by simp⟩
    | nil =>
      simp only [Replay.next] at h
      split_ifs at h <;> cases h <;> exact ⟨rfl, by simp⟩
  | chat todo =>
    cases todo with
    | cons ent todo =>
      simp only [Replay.next] at h
      split at h <;> cases h
    | nil =>
      cases h
      exact ⟨rfl, by simp⟩
  | chatAck ack todo => cases h
  | returned => cases h

theorem note_started (hr : ∀ n, r ≠ .start n) : t.note s r' r = { t with chat := (t.note s r' r).chat } := by
  unfold Turn.note
  split
  · exact absurd rfl (hr _)
  · rfl
  · rfl

theorem atSend_of_next {hd : Holder} {f : Bytes} (hh : s.holder = some hd)
    (hnext : hd.replay.next e.pb e.opts s.cache s.chat s.phase = .send f r) : s.atSend e = true := by
  simp only [St.atSend, hh, hnext]

theorem next_send_started {o : Opts} {cache : List Bytes} {chat : List ChatEntry} {f : Bytes}
    (h : r.next e.pb o cache chat phase = .send f r') : (∀ n, r ≠ .start n) ∧ ∀ n, r' ≠ .start n := by
  rcases next_send_cases h with ⟨n, pfs, pfs', rfl, rfl⟩ | ⟨ent, es, rfl, -, rfl | ⟨ack, rfl⟩⟩ | ⟨ack, es, rfl, rfl⟩ <;>
    exact ⟨by simp, by simp⟩

/-- a replay reads the cache, and marks its phase -/
theorem start_ordered {hd : Holder} {n : UInt32} (h : Ordered e s) (hh : s.holder = some hd)
    (hr : hd.replay = .start n) : Ordered e (s.replay e) := by
  have hinv := replay_inv h.inv
  have hheld := h.inv.held hd hh
  rw [hr] at hheld
  obtain ⟨rfl, ht, -⟩ := hheld
  have hnext : hd.replay.next e.pb e.opts s.cache s.chat s.phase =
      .tau (.config hd.turn.nonce (filterConfigCache e.pb s.cache hd.turn.nonce).frames)
        (markPhase hd.turn.nonce s.phase) := by
    rw [hr, Replay.next, if_neg h.cache.ne_nil]
  have hstep : s.replay e = { s with
      holder := some ⟨{ hd.turn with cache := s.cache, phase := s.phase },
        .config hd.turn.nonce (filterConfigCache e.pb s.cache hd.turn.nonce).frames⟩
      phase := markPhase hd.turn.nonce s.phase } := by
    simp only [St.replay, hh, hnext]
    rw [hr]
    rfl
  have hstarted : s.started = s.past := by simp [St.started, hh, hr]
  have hfilled := h.filled
  have hmarked := h.marked
  have hseen := h.seen
  rw [hstarted] at hfilled hmarked hseen
  have hturns := turns_of_holder hh
  rw [hstep] at hinv ⊢
  refine ⟨hinv, ?_, h.cache, ?_, ?_, ?_, ?_⟩
  · have horder := h.order
    rw [hturns] at horder
    simpa [St.turns] using horder
  · intro t ht
    simp only [St.turns, Option.toList_some, List.map_cons, List.map_nil] at ht
    rcases List.mem_append.1 ht with ht | ht
    · exact h.uncut t (hturns ▸ List.mem_append_left _ ht)
    · rw [List.mem_singleton.1 ht]
      exact h.uncut hd.turn (hturns ▸ List.mem_append_right _ (List.mem_singleton_self _))
  · intro t ht
    rcases List.mem_append.1 ht with ht | ht
    · exact hfilled t ht
    · rw [List.mem_singleton.1 ht]
      exact h.cache
  · intro t ht hnonce
    apply (markPhase_config _ _).2
    rcases List.mem_append.1 ht with ht | ht
    · exact Or.inr (hmarked t ht hnonce)
    · rw [List.mem_singleton.1 ht] at hnonce
      exact Or.inl hnonce
  · intro t ht t' ht' hlt hnonce
    rcases List.mem_append.1 ht with ht | ht
    · exact hseen t ht t' ht' hlt hnonce
    · rw [List.mem_singleton.1 ht]
      exact hmarked t' ht' hnonce

theorem replay_ordered (h : Ordered e s) (hturn : InTurn e s .replay) : Ordered e (s.replay e) := by
  cases hh : s.holder with
  | none =>
    have hstep : s.replay e = s := by simp only [St.replay, hh]
    rwa [hstep]
  | some hd =>
    have hinv := replay_inv h.inv
    cases hnext : hd.replay.next e.pb e.opts s.cache s.chat s.phase with
    | halt =>
      have hstep : s.replay e = { s with holder := none, past := s.past ++ [hd.turn] } := by
        simp only [St.replay, hh, hnext]
      have hr := next_halt hnext
      have hstarted := started_of_holder hh (by simp [hr])
      have hlt := h.past_lt hh
      have hfilled := h.filled
      have hmarked := h.marked
      have hseen := h.seen
      have huncut := h.uncut
      have horder := h.order
      rw [hstarted] at hfilled hmarked hseen
      rw [turns_of_holder hh] at huncut horder
      rw [hstep] at hinv ⊢
      refine ⟨hinv, by simpa [St.turns] using horder, h.cache, by simpa [St.turns] using huncut, ?_, ?_, ?_⟩
      · simpa [St.started] using hfilled
      · simpa [St.started] using hmarked
      · intro t ht t' ht' hid hnonce
        have ht : t ∈ s.past ++ [hd.turn] := by simpa [St.started] using ht
        rcases List.mem_append.1 ht' with ht' | ht'
        · exact hseen t ht t' ht' hid hnonce
        · -- no turn comes after the holder's
          rw [List.mem_singleton.1 ht'] at hid
          rcases List.mem_append.1 ht with ht | ht
          · exact absurd hid (not_lt.2 (hlt t ht).le)
          · rw [List.mem_singleton.1 ht] at hid
            exact absurd hid (lt_irrefl _)
    | tau r phase =>
      by_cases hr : ∃ n, hd.replay = .start n
      · obtain ⟨n, hr⟩ := hr
        exact start_ordered h hh hr
      · push Not at hr
        obtain ⟨rfl, hr'⟩ := next_tau_started hr hnext
        have hstep : s.replay e = { s with holder := some ⟨hd.turn.note s r hd.replay, r⟩ } := by
          simp only [St.replay, hh, hnext]
        rw [hstep] at hinv ⊢
        exact h.goOn hinv hh hr rfl hr' (note_started hr) rfl rfl rfl rfl rfl
    | send f r =>
      obtain ⟨hr, hr'⟩ := next_send_started hnext
      have hstep : s.replay e = { s with
          holder := some ⟨hd.turn, r⟩, chan := s.chan ++ [f], put := s.put ++ [(some hd.turn.id, f)] } := by
        simp only [St.replay, hh, hnext, if_pos (hturn (atSend_of_next hh hnext))]
      rw [hstep] at hinv ⊢
      exact h.goOn hinv hh hr rfl hr' rfl rfl rfl rfl rfl rfl

theorem step_ordered (hrt : e.pb.RoundTrip) {grow : ℕ → ℕ} {a : Act} (h : Ordered e s)
    (ha : KeepsCache e grow a ∧ InTurn e s a) : Ordered e (step e s a) := by
  have hinv := step_inv h.inv a
  cases a with
  | request nonce => exact request_ordered h nonce
  | lock i => exact lock_ordered h ha.2
  | replay => exact replay_ordered h ha.2
  | other f =>
    have hframe : (s.other e f).requests = s.requests ∧ (s.other e f).waiting = s.waiting ∧
        (s.other e f).holder = s.holder ∧ (s.other e f).past = s.past ∧ (s.other e f).phase = s.phase ∧
        (s.other e f).cache = s.cache := by
      unfold St.other
      split_ifs <;> exact ⟨rfl, rfl, rfl, rfl, rfl, rfl⟩
    obtain ⟨h1, h2, h3, h4, h5, h6⟩ := hframe
    exact h.frame hinv h1 h2 h3 h4 h5 (h6 ▸ h.cache)
  | write =>
    have hframe : s.write.requests = s.requests ∧ s.write.waiting = s.waiting ∧ s.write.holder = s.holder ∧
        s.write.past = s.past ∧ s.write.phase = s.phase ∧ s.write.cache = s.cache := by
      unfold St.write
      split <;> exact ⟨rfl, rfl, rfl, rfl, rfl, rfl⟩
    obtain ⟨h1, h2, h3, h4, h5, h6⟩ := hframe
    exact h.frame hinv h1 h2 h3 h4 h5 (h6 ▸ h.cache)
  | setCache cache => exact h.frame hinv rfl rfl rfl rfl rfl (FromNode.filled hrt ha.1)
  | setChat chat => exact h.frame hinv rfl rfl rfl rfl rfl h.cache

/-! ## Answers in order -/

/-- every replay that has returned has sent its config_complete_id -/
theorem Ordered.answered (hn : e.pb.NonceLaw) (h : Ordered e s) (ht : t ∈ s.past) :
    framesOf t.id s.put = t.whole e ∧ ∃ f, (some t.id, f) ∈ s.put ∧ Completes e.pb f t.nonce := by
  have hstarted : t ∈ s.started := List.mem_append_left _ ht
  have hfilled := h.filled t hstarted
  have hwhole := (h.inv.past t ht).whole (h.uncut t (List.mem_append_left _ ht))
  obtain ⟨f, hf, hc⟩ := hfilled.completes hn
  refine ⟨hwhole, f, ?_, hc⟩
  rw [← mem_framesOf, hwhole, whole_eq hfilled.ne_nil]
  exact List.mem_append_left _ hf

/-- a request before one that has sent a frame has had its whole turn -/
theorem Ordered.earlier (h : Ordered e s) {i j : ℕ} (hij : i < j) (hj : j ∈ s.turns.map Turn.id) :
    ∃ t ∈ s.past, t.id = i := by
  have hlt : (List.range s.requests.length).Pairwise (· < ·) := List.pairwise_lt_range
  have hi : i ∈ s.turns.map Turn.id ++ s.waiting := by
    have hjlt : j ∈ List.range s.requests.length := h.order ▸ List.mem_append_left _ hj
    rw [h.order, List.mem_range]
    exact hij.trans (List.mem_range.1 hjlt)
  rw [← h.order, List.pairwise_append] at hlt
  rcases List.mem_append.1 hi with hi | hi
  · obtain ⟨t, ht, rfl⟩ := List.mem_map.1 hi
    rcases List.mem_append.1 ht with ht | ht
    · exact ⟨t, ht, rfl⟩
    · -- the holder has the last turn
      cases hh : s.holder with
      | none => rw [hh] at ht; cases ht
      | some hd =>
        rw [hh] at ht
        rw [List.mem_singleton.1 ht] at hij
        rw [turns_of_holder hh, List.map_append, List.map_singleton] at hj
        rcases List.mem_append.1 hj with hj | hj
        · obtain ⟨t', ht', rfl⟩ := List.mem_map.1 hj
          exact absurd hij (not_lt.2 (h.past_lt hh t' ht').le)
        · rw [List.mem_singleton.1 hj] at hij
          exact absurd hij (lt_irrefl _)
  · exact absurd hij (not_lt.2 (hlt.2.2 j hj i hi).le)

theorem pairwise_blocks (put : List (Option ℕ × Bytes)) {ids : List ℕ} (h : ids.Pairwise (· < ·)) :
    (blocks put ids).Pairwise fun x y => x.1 ≤ y.1 := by
  induction ids with
  | nil => exact List.Pairwise.nil
  | cons i ids ih =>
    obtain ⟨hi, hrest⟩ := List.pairwise_cons.1 h
    rw [← List.singleton_append, blocks_append]
    refine List.pairwise_append.2 ⟨?_, ih hrest, ?_⟩
    · simp only [blocks, List.flatMap_singleton, List.pairwise_map]
      exact List.pairwise_of_forall fun _ _ => le_rfl
    · intro x hx y hy
      simp only [blocks, List.flatMap_singleton, List.mem_map] at hx
      obtain ⟨f, -, rfl⟩ := hx
      simp only [blocks, List.mem_flatMap, List.mem_map] at hy
      obtain ⟨j, hj, g, -, rfl⟩ := hy
      exact (hi j hj).le

/-- the frames of earlier requests come first -/
theorem Ordered.before (h : Ordered e s) {i j : ℕ} {f f' : Bytes} {a c : List (Option ℕ × Bytes)} (hij : i < j)
    (hput : s.put = a ++ (some j, f) :: c) (hf' : (some i, f') ∈ s.put) : (some i, f') ∈ a := by
  have hids : (s.turns.map Turn.id).Pairwise (· < ·) := by
    have hlt : (List.range s.requests.length).Pairwise (· < ·) := List.pairwise_lt_range
    rw [← h.order, List.pairwise_append] at hlt
    exact hlt.1
  have hsorted := pairwise_blocks s.put hids
  rw [← h.inv.blocks, hput] at hsorted
  have htag : tagged (a ++ (some j, f) :: c) = tagged a ++ (j, f) :: tagged c := by simp [tagged]
  rw [htag, List.pairwise_append, List.pairwise_cons] at hsorted
  rw [hput] at hf'
  rcases List.mem_append.1 hf' with hf' | hf'
  · exact hf'
  · rcases List.mem_cons.1 hf' with heq | hf'
    · cases heq
      exact absurd hij (lt_irrefl _)
    · have hle : j ≤ i := hsorted.2.1.1 (i, f') (mem_tagged.2 hf')
      exact absurd hij (not_lt.2 hle)

/-! ## The chat history -/

/-- the replay has to send the chat history -/
def Turn.chatDue (e : Env) (t : Turn) : Bool := shouldReplayChat e.opts t.nonce (markPhase t.nonce t.phase)

/-- a replay past its config frames has read a chat cache of the kind `P`, if it had to -/
def ChatRead (e : Env) (P : List ChatEntry → Prop) (h : Holder) : Prop :=
  match h.replay with
  | .start _ | .config _ _ => True
  | _ => h.turn.chatDue e = true → P h.turn.chat

/-- what every value of the chat cache meets holds of the histories that were sent -/
structure ChatsRead (e : Env) (P : List ChatEntry → Prop) (s : St) : Prop where
  now : P s.chat
  past : ∀ t ∈ s.past, t.chatDue e = true → P t.chat
  held : ∀ h, s.holder = some h → ChatRead e P h

variable {P : List ChatEntry → Prop}

theorem ChatRead.tau {phase' : UInt32} {t : Turn} (hheld : Held e sent s.phase closed t r) (hcache : Filled e s.cache)
    (hP : P s.chat) (h : ChatRead e P ⟨t, r⟩) (hnext : r.next e.pb e.opts s.cache s.chat s.phase = .tau r' phase') :
    ChatRead e P ⟨t.note s r' r, r'⟩ := by
  cases r with
  | start n =>
    rw [Replay.next, if_neg hcache.ne_nil] at hnext
    cases hnext
    trivial
  | config n todo =>
    obtain ⟨rfl, -, -, -, hphase, -⟩ := hheld
    cases todo with
    | cons pf todo =>
      simp only [Replay.next] at hnext
      split at hnext <;> cases hnext
      trivial
    | nil =>
      simp only [Replay.next, hphase] at hnext
      split_ifs at hnext with hdue <;> cases hnext
      · exact fun _ => hP
      · intro h'
        exact absurd h' hdue
  | chat todo =>
    cases todo with
    | cons ent todo =>
      simp only [Replay.next] at hnext
      split at hnext <;> cases hnext
    | nil =>
      cases hnext
      exact h
  | chatAck ack todo => cases hnext
  | returned => cases hnext

theorem ChatRead.send {f : Bytes} {cache : List Bytes} {chat : List ChatEntry} (h : ChatRead e P ⟨t, r⟩)
    (hnext : r.next e.pb e.opts cache chat phase = .send f r') : ChatRead e P ⟨t, r'⟩ := by
  rcases next_send_cases hnext with ⟨n, pfs, pfs', rfl, rfl⟩ | ⟨ent, es, rfl, -, rfl | ⟨ack, rfl⟩⟩ | ⟨ack, es, rfl, rfl⟩
  · trivial
  · exact h
  · exact h
  · exact h

theorem replay_chats (ho : Ordered e s) (hturn : InTurn e s .replay) (h : ChatsRead e P s) :
    ChatsRead e P (s.replay e) := by
  cases hh : s.holder with
  | none =>
    have hstep : s.replay e = s := by simp only [St.replay, hh]
    rwa [hstep]
  | some hd =>
    have hread := h.held hd hh
    cases hnext : hd.replay.next e.pb e.opts s.cache s.chat s.phase with
    | halt =>
      simp only [St.replay, hh, hnext]
      refine ⟨h.now, ?_, nofun⟩
      intro t ht hdue
      rcases List.mem_append.1 ht with ht | ht
      · exact h.past t ht hdue
      · rw [List.mem_singleton.1 ht] at hdue ⊢
        simp only [ChatRead, next_halt hnext] at hread
        exact hread hdue
    | tau r phase =>
      simp only [St.replay, hh, hnext]
      refine ⟨h.now, h.past, ?_⟩
      rintro _ ⟨⟩
      exact ChatRead.tau (ho.inv.held hd hh) ho.cache h.now hread hnext
    | send f r =>
      simp only [St.replay, hh, hnext, if_pos (hturn (atSend_of_next hh hnext))]
      refine ⟨h.now, h.past, ?_⟩
      rintro _ ⟨⟩
      exact ChatRead.send hread hnext

theorem step_chats {a : Act} (ho : Ordered e s) (hturn : InTurn e s a) (hP : ∀ chat, a = .setChat chat → P chat)
    (h : ChatsRead e P s) : ChatsRead e P (step e s a) := by
  cases a with
  | request nonce => exact ⟨h.now, h.past, h.held⟩
  | lock i =>
    simp only [step, St.lock]
    split_ifs
    · refine ⟨h.now, h.past, ?_⟩
      rintro _ ⟨⟩
      trivial
    · exact h
  | replay => exact replay_chats ho hturn h
  | other f =>
    simp only [step, St.other]
    split_ifs <;> exact ⟨h.now, h.past, h.held⟩
  | write =>
    simp only [step, St.write]
    split <;> exact ⟨h.now, h.past, h.held⟩
  | setCache cache => exact ⟨h.now, h.past, h.held⟩
  | setChat chat => exact ⟨hP chat rfl, h.past, h.held⟩

/-! ## Requests are answered in order -/

variable (e)

/-- **Requests are answered in order**, in every run in which replayMu goes to the oldest waiting request and no Send of a
replay finds the channel full, while the config cache is not empty: before the config_complete_id of a request is put into
the channel, those of all earlier requests have been; a replay that has returned has put its own there; and a replay of
69421 after a request of 69420 has ended with a chat history, one that the chat cache held during the run. -/
theorem requests_answered_in_order (hrt : e.pb.RoundTrip) (hn : e.pb.NonceLaw) (grow : ℕ → ℕ) (cache : List Bytes)
    (hcache : FromNode e grow cache) (chat : List ChatEntry) (as : List Act)
    (has : Along (step e) (fun s a => KeepsCache e grow a ∧ InTurn e s a) (init cache chat) as) :
    let s := run (step e) (init cache chat) as
    (∀ i j n m, i < j → s.requests[i]? = some n → s.requests[j]? = some m →
      ∀ a f c, s.put = a ++ (some j, f) :: c → Completes e.pb f m → ∃ f', (some i, f') ∈ a ∧ Completes e.pb f' n) ∧
    (∀ t ∈ s.past, s.requests[t.id]? = some t.nonce ∧ ∃ f, (some t.id, f) ∈ s.put ∧ Completes e.pb f t.nonce) ∧
    (e.opts.replayChatEnabled = true → 0 < e.opts.maxChatCache → ∀ i, s.requests[i]? = some nonceOnlyConfig →
      ∀ t ∈ s.past, i < t.id → t.nonce = nonceOnlyNodes →
        ∃ chat', (chat' = chat ∨ .setChat chat' ∈ as) ∧ framesOf t.id s.put = t.config e ++ chatFrames chat') := by
  have h : Ordered e (run (step e) (init cache chat) as) ∧
      ChatsRead e (fun c => c = chat ∨ .setChat c ∈ as) (run (step e) (init cache chat) as) := by
    refine run_inv (I := fun s => Ordered e s ∧ ChatsRead e (fun c => c = chat ∨ .setChat c ∈ as) s) ?_ ?_ has.mem
    · intro s a ⟨ho, hc⟩ ⟨ha, hmem⟩
      refine ⟨step_ordered hrt ho ha, step_chats ho ha.2 ?_ hc⟩
      rintro c rfl
      exact Or.inr hmem
    · exact ⟨ordered_init (FromNode.filled hrt hcache) chat, Or.inl rfl, nofun, nofun⟩
  generalize run (step e) (init cache chat) as = s at h
  obtain ⟨h, hchats⟩ := h
  refine ⟨?_, ?_, ?_⟩
  · intro i j n m hij hi hj a f c hput hf
    have hturn : j ∈ s.turns.map Turn.id := by
      have hmem : (j, f) ∈ tagged s.put := mem_tagged.2 (hput ▸ List.mem_append_right _ List.mem_cons_self)
      rw [h.inv.blocks, blocks, List.mem_flatMap] at hmem
      obtain ⟨k, hk, hkf⟩ := hmem
      obtain ⟨g, -, hg⟩ := List.mem_map.1 hkf
      cases hg
      exact hk
    obtain ⟨t, ht, rfl⟩ := h.earlier hij hturn
    obtain ⟨-, f', hf', hc'⟩ := h.answered hn ht
    have hnonce := h.inv.nonces t (List.mem_append_left _ ht)
    rw [hi] at hnonce
    cases hnonce
    exact ⟨f', h.before hij hput hf', hc'⟩
  · intro t ht
    exact ⟨h.inv.nonces t (List.mem_append_left _ ht), (h.answered hn ht).2⟩
  · intro henabled hmax i hi t ht hid hnonce
    obtain ⟨t', ht', rfl⟩ := h.earlier hid (List.mem_map_of_mem (List.mem_append_left _ ht))
    have hnonce' := h.inv.nonces t' (List.mem_append_left _ ht')
    rw [hi] at hnonce'
    have hseen := h.seen t (List.mem_append_left _ ht) t' ht' hid (Option.some.inj hnonce').symm
    have hdue : t.chatDue e = true := by
      have hne : nonceOnlyNodes ≠ nonceOnlyConfig := by decide
      have hphase := (markPhase_config t.nonce t.phase).2 (Or.inr hseen)
      rw [hnonce] at hphase
      simp [Turn.chatDue, shouldReplayChat, hnonce, hne, henabled, not_le.2 hmax, hphase]
    refine ⟨t.chat, hchats.past t ht hdue, ?_⟩
    rw [(h.answered hn ht).1, whole_eq (h.filled t (List.mem_append_left _ ht)).ne_nil]
    exact congrArg _ (if_pos hdue)

/-! ### An iOS client's two requests -/

def phoneEnv : Env := ⟨ConfigCache.wireCodec, ⟨true, 10⟩, 16⟩

/-- the cache after a handshake -/
def phoneCache : List Bytes :=
  [ConfigCache.myInfoFrame, ConfigCache.configFrame, ConfigCache.channelFrame, ConfigCache.metadataFrame,
    configCompleteBytes 5]

def phoneChat : List ChatEntry := [⟨[1], 7, some [2]⟩]

/-- the two requests, and the replays in the given order -/
def twoPhases (i j : ℕ) : List Act :=
  .request nonceOnlyConfig :: .request nonceOnlyNodes :: .lock i ::
    (List.replicate 8 Act.replay ++ .lock j :: List.replicate 8 Act.replay)

theorem phoneCache_fromNode : FromNode phoneEnv ConfigCache.doubling phoneCache :=
  ⟨by decide, ConfigCache.handshake, by decide +kernel⟩

theorem wireCodec_nonceLaw : ConfigCache.wireCodec.NonceLaw :=
  tableCodec_nonceLaw _ _ _ (by simp [ConfigCache.nodeInfoPacketMsg, ConfigCache.nodeInfoFrameMsg])

theorem twoPhases_keepsCache (i j : ℕ) : ∀ a ∈ twoPhases i j, KeepsCache phoneEnv ConfigCache.doubling a := by
  simp [twoPhases, KeepsCache, or_imp, forall_and]

/-- in turn: both are answered in order, and the chat history comes last -/
theorem requests_answered_in_order_phone :
    let s := run (step phoneEnv) (init phoneCache phoneChat) (twoPhases 0 1)
    (∀ a f c, s.put = a ++ (some 1, f) :: c → Completes phoneEnv.pb f nonceOnlyNodes →
      ∃ f', (some 0, f') ∈ a ∧ Completes phoneEnv.pb f' nonceOnlyConfig) ∧
    (∃ t ∈ s.past, t.id = 1 ∧ ∃ f, (some t.id, f) ∈ s.put ∧ Completes phoneEnv.pb f t.nonce) ∧
    framesOf 1 s.put = [configCompleteBytes nonceOnlyNodes, [1], [2]] := by
  have has : Along (step phoneEnv) (InTurn phoneEnv) (init phoneCache phoneChat) (twoPhases 0 1) := by decide +kernel
  have h := requests_answered_in_order phoneEnv ConfigCache.wireCodec_roundTrip
    wireCodec_nonceLaw ConfigCache.doubling phoneCache phoneCache_fromNode phoneChat (twoPhases 0 1)
    (has.mem.imp fun s a ha => ⟨twoPhases_keepsCache 0 1 a ha.2, ha.1⟩)
  have hpast : (run (step phoneEnv) (init phoneCache phoneChat) (twoPhases 0 1)).past.map Turn.id = [0, 1] := by
    decide +kernel
  obtain ⟨t, ht, hid⟩ := List.mem_map.1 (hpast ▸ by simp : 1 ∈ List.map Turn.id
    (run (step phoneEnv) (init phoneCache phoneChat) (twoPhases 0 1)).past)
  refine ⟨?_, ⟨t, ht, hid, (h.2.1 t ht).2⟩, by decide +kernel⟩
  exact h.1 0 1 nonceOnlyConfig nonceOnlyNodes (by decide) (by decide +kernel) (by decide +kernel)

/-- the goroutine of the second request takes replayMu first: 69421 is answered before 69420, and the chat history is not
replayed -/
theorem second_request_answered_first :
    let s := run (step phoneEnv) (init phoneCache phoneChat) (twoPhases 1 0)
    s.requests = [nonceOnlyConfig, nonceOnlyNodes] ∧ s.waiting = [] ∧ s.holder = none ∧
    s.put = [(some 1, configCompleteBytes nonceOnlyNodes), (some 0, ConfigCache.myInfoFrame),
      (some 0, ConfigCache.configFrame), (some 0, ConfigCache.channelFrame), (some 0, ConfigCache.metadataFrame),
      (some 0, configCompleteBytes nonceOnlyConfig)] := by
  decide +kernel

end MeshProxy.ReplayQueue
