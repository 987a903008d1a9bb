/-
No text message is lost to a joining client (over the machine of Hub).

broadcastLoop caches a text message before it broadcasts it, so whoever registers after the broadcast finds it in the
chat cache. A client's handler echoes first and caches afterwards: between the two the message is in no channel of a
client that registers then, and not in the cache either.

- `Inv`: what is past its live delivery is in B's channel, or pending in B's replay, or (before B's chat snapshot) cached;
- `snapshot_inv`, `chatSend_inv`, `return_inv`: the chat part of a replay keeps it, the first under the condition;
- `no_message_lost`: every text message of others is put into B's channel, if B's chat snapshot is never taken between
  the echo and the caching of a message that was echoed before B was registered;
- `message_lost_between_echo_and_cache`: otherwise it may be lost.
Premise: `Codec.PacketLaw`.
-/
import MeshProxy.Proxy.Hub

namespace MeshProxy.Hub

open MeshProxy.Proto MeshProxy.Decode MeshProxy.ChatCache MeshProxy.ConfigReplay MeshProxy.Trace
open MeshProxy.Frame (Bytes)

variable (e : Env)

/-! ## The invariant -/

def inChat : Replay → Bool
  | .chat _ => true
  | .chatAck _ _ => true
  | _ => false

def nonceOf : Replay → Option UInt32
  | .start n => some n
  | .config n _ => some n
  | _ => none

/-- B's replay by itself: the chat stage, the nonce it runs under, and what it means to have returned -/
structure Replays (cl : Client) : Prop where
  reading : cl.stage = .reading → inChat cl.replay = true
  chat : inChat cl.replay = true → cl.stage ≠ .unread
  nonce : ∀ n, nonceOf cl.replay = some n → n = cl.nonce
  answered : ∀ n ∈ cl.answered, n ≠ nonceOnlyConfig → n ≠ nonceOnlyNodes → e.cache ≠ [] →
    e.opts.replayChatEnabled = true → 0 < e.opts.maxChatCache → cl.stage = .replayed
  joined : cl.joined = true → cl.registered = true
  active : cl.requests ≠ [] ∨ cl.replay ≠ .returned ∨ cl.stage ≠ .unread → cl.joined = true

/-- broadcastLoop caches a text message before it broadcasts it -/
def LoopInv (s : State) : Loop → Prop
  | .idle => True
  | .received m => m.sender = none
  | .cached m => m.sender = none ∧ (m.isText e.pb = true → Cached e.pb s m)

/-- a handler echoes before it caches -/
def HandlerInv (b : ℕ) (s : State) (i : ℕ) : Handler → Prop
  | .idle => True
  | .received m => m.sender = some i
  | .echoed m => m.sender = some i ∧ (i ≠ b → m.isText e.pb = true →
      Got e.pb (s.client b) m ∨ Awaits e.pb (s.client b) m ∨ (s.client b).stage = .unread)
  | .cached m => m.sender = some i ∧ (i ≠ b → m.isText e.pb = true → Safe e.pb b s m)

structure Inv (b : ℕ) (s : State) : Prop where
  tags : s.chatTags.length = s.chat.length
  replays : Replays e (s.client b)
  loop : LoopInv e s s.loop
  handler : ∀ i, HandlerInv e b s i (s.client i).handler
  completed : ∀ m ∈ s.completed, m.isText e.pb = true → m.sender ≠ some b → Safe e.pb b s m

theorem inv_init (b : ℕ) : Inv e b init where
  tags := rfl
  replays := ⟨by simp [init], by simp [init, inChat], by simp [init, nonceOf], by simp [init], by simp [init], by simp [init]⟩
  loop := trivial
  handler := fun i => trivial
  completed := by simp [init]

variable {e} {b : ℕ} {s s' : State}

/-- B's channel and the chat cache only grow, and the replay stays where it is with the chat history -/
structure Grows (b : ℕ) (s s' : State) : Prop where
  put : (s.client b).put ⊆ (s'.client b).put
  entries : s.entries ⊆ s'.entries
  pending : (s'.client b).pending = (s.client b).pending
  stage : (s'.client b).stage = (s.client b).stage

theorem Grows.trans {s'' : State} (hg : Grows b s s') (hg' : Grows b s' s'') : Grows b s s'' :=
  ⟨List.Subset.trans hg.put hg'.put, List.Subset.trans hg.entries hg'.entries, hg'.pending.trans hg.pending,
    hg'.stage.trans hg.stage⟩

theorem Grows.got (hg : Grows b s s') {pb : Codec} {m : Msg} (h : Got pb (s.client b) m) : Got pb (s'.client b) m := by
  obtain ⟨f, hf, hput⟩ := h
  exact ⟨f, hf, hg.put hput⟩

theorem Grows.awaits (hg : Grows b s s') {pb : Codec} {m : Msg} (h : Awaits pb (s.client b) m) :
    Awaits pb (s'.client b) m := by
  obtain ⟨hstage, f, hf, hpending⟩ := h
  exact ⟨hg.stage.trans hstage, f, hf, hg.pending ▸ hpending⟩

theorem Grows.cached (hg : Grows b s s') {pb : Codec} {m : Msg} (h : Cached pb s m) : Cached pb s' m := by
  obtain ⟨f, hf, hin⟩ := h
  exact ⟨f, hf, hg.entries hin⟩

theorem Grows.safe (hg : Grows b s s') {pb : Codec} {m : Msg} (h : Safe pb b s m) : Safe pb b s' m := by
  rcases h with h | h | ⟨hstage, h⟩
  · exact Or.inl (hg.got h)
  · exact Or.inr (Or.inl (hg.awaits h))
  · exact Or.inr (Or.inr ⟨hg.stage.trans hstage, hg.cached h⟩)

theorem Grows.loop (hg : Grows b s s') {l : Loop} (h : LoopInv e s l) : LoopInv e s' l := by
  cases l with
  | idle => trivial
  | received m => exact h
  | cached m => exact ⟨h.1, fun ht => hg.cached (h.2 ht)⟩

theorem Grows.handler (hg : Grows b s s') {i : ℕ} {hd : Handler} (h : HandlerInv e b s i hd) :
    HandlerInv e b s' i hd := by
  cases hd with
  | idle => trivial
  | received m => exact h
  | echoed m =>
    refine ⟨h.1, ?_⟩
    intro hi ht
    rcases h.2 hi ht with h | h | h
    · exact Or.inl (hg.got h)
    · exact Or.inr (Or.inl (hg.awaits h))
    · exact Or.inr (Or.inr (hg.stage.trans h))
  | cached m => exact ⟨h.1, fun hi ht => hg.safe (h.2 hi ht)⟩

/-- a step under which B's channel and the chat cache grow -/
theorem Inv.grow (h : Inv e b s) (hg : Grows b s s') (htags : s'.chatTags.length = s'.chat.length)
    (hreplays : Replays e (s'.client b)) (hloop : s'.loop = s.loop ∨ LoopInv e s' s'.loop)
    (hhandler : ∀ i, (s'.client i).handler = (s.client i).handler ∨ HandlerInv e b s' i (s'.client i).handler)
    (hcompleted : ∀ m ∈ s'.completed, m ∈ s.completed ∨
      (m.isText e.pb = true → m.sender ≠ some b → Safe e.pb b s' m)) : Inv e b s' where
  tags := htags
  replays := hreplays
  loop := by
    rcases hloop with hl | hl
    · rw [hl]; exact hg.loop h.loop
    · exact hl
  handler := by
    intro i
    rcases hhandler i with hh | hh
    · rw [hh]; exact hg.handler (h.handler i)
    · exact hh
  completed := by
    intro m hm ht hs
    rcases hcompleted m hm with hm | hm
    · exact hg.safe (h.completed m hm ht hs)
    · exact hm ht hs

/-! ## Steps of the other parties -/

@[simp] theorem setClient_self (c : ℕ) (cl : Client) : (s.setClient c cl).client c = cl := Function.update_self _ _ _

@[simp] theorem setClient_of_ne {c i : ℕ} (hi : i ≠ c) (cl : Client) : (s.setClient c cl).client i = s.client i :=
  Function.update_of_ne hi _ _

theorem grows_of_client (hc : s'.client b = s.client b) (he : s.entries ⊆ s'.entries) : Grows b s s' where
  put := by rw [hc]; exact List.Subset.refl _
  entries := he
  pending := by rw [hc]
  stage := by rw [hc]

/-- a client's record changes, but not where it stands with the chat history -/
theorem grows_setClient {c : ℕ} {cl : Client} (hput : (s.client c).put ⊆ cl.put)
    (hpending : cl.pending = (s.client c).pending) (hstage : cl.stage = (s.client c).stage) :
    Grows b s (s.setClient c cl) := by
  by_cases hb : b = c
  · subst hb
    exact ⟨by simpa using hput, List.Subset.refl _, by simpa using hpending, by simpa using hstage⟩
  · exact grows_of_client (setClient_of_ne hb cl) (List.Subset.refl _)

theorem Inv.setClient (h : Inv e b s) {c : ℕ} {cl : Client} (hput : (s.client c).put ⊆ cl.put)
    (hpending : cl.pending = (s.client c).pending) (hstage : cl.stage = (s.client c).stage)
    (hreplays : c = b → Replays e cl) (hhandler : cl.handler = (s.client c).handler ∨ HandlerInv e b s c cl.handler) :
    Inv e b (s.setClient c cl) := by
  have hg : Grows b s (s.setClient c cl) := grows_setClient hput hpending hstage
  refine h.grow hg h.tags ?_ (Or.inl rfl) ?_ (fun m hm => Or.inl hm)
  · by_cases hb : b = c
    · subst hb
      simpa using hreplays rfl
    · rw [setClient_of_ne hb]
      exact h.replays
  · intro i
    by_cases hi : i = c
    · subst hi
      rw [setClient_self]
      exact hhandler.imp_right hg.handler
    · rw [setClient_of_ne hi]
      exact Or.inl rfl

/-- the client fields that a broadcast leaves alone -/
theorem broadcast_client (m : Msg) (f : Bytes) (c : ℕ) :
    ∃ put, (s.client c).put ⊆ put ∧ (s.broadcast m f).client c = { s.client c with put := put } := by
  simp only [State.broadcast]
  split_ifs
  · exact ⟨_, List.subset_append_left _ _, rfl⟩
  · exact ⟨(s.client c).put, List.Subset.refl _, rfl⟩

theorem broadcast_grows (m : Msg) (f : Bytes) : Grows b s (s.broadcast m f) := by
  obtain ⟨put, hput, hc⟩ := broadcast_client (s := s) m f b
  refine ⟨?_, List.Subset.refl _, ?_, ?_⟩ <;> rw [hc]
  · exact hput
  · rfl

theorem broadcast_handler (m : Msg) (f : Bytes) (c : ℕ) :
    ((s.broadcast m f).client c).handler = (s.client c).handler := by
  obtain ⟨put, -, hc⟩ := broadcast_client (s := s) m f c
  rw [hc]

theorem broadcast_replays (h : Replays e (s.client b)) (m : Msg) (f : Bytes) :
    Replays e ((s.broadcast m f).client b) := by
  obtain ⟨put, -, hc⟩ := broadcast_client (s := s) m f b
  rw [hc]
  exact ⟨h.reading, h.chat, h.nonce, h.answered, h.joined, h.active⟩

/-- a registered client gets what others broadcast -/
theorem broadcast_got {m : Msg} {f : Bytes} (hf : FrameOf e.pb m f) (hreg : (s.client b).registered = true)
    (hsender : m.sender ≠ some b) : Got e.pb ((s.broadcast m f).client b) m := by
  refine ⟨f, hf, ?_⟩
  simp [State.broadcast, hreg, hsender.symm]

/-- a client that is not registered has read no chat history -/
theorem Replays.unread {cl : Client} (h : Replays e cl) (hreg : cl.registered ≠ true) : cl.stage = .unread := by
  by_contra hstage
  exact hreg (h.joined (h.active (Or.inr (Or.inr hstage))))

/-- below the limit the cache and its numbers grow by one -/
theorem cacheText_eq (htags : s.chatTags.length = s.chat.length) {m : Msg} {f : Bytes}
    (hroom : ((s.chat.length + 1 : ℕ) : ℤ) ≤ e.opts.maxChatCache) :
    s.cacheText e m f =
      { s with chat := s.chat ++ [⟨f, extractPacketID e.pb f, none⟩], chatTags := s.chatTags ++ [m.id] } := by
  simp [State.cacheText, cacheTextMessage_append e.pb hroom, htags]

theorem entries_append (htags : s.chatTags.length = s.chat.length) (k : ℕ) (ent : ChatEntry) :
    (s.chatTags ++ [k]).zip ((s.chat ++ [ent]).map ChatEntry.message) = s.entries ++ [(k, ent.message)] := by
  rw [List.map_append, List.zip_append (by simpa using htags)]
  rfl

/-- what a text packet is -/
theorem isTextPacket_decoded {pb : Codec} {payload : Bytes} (ht : isTextPacket pb payload = true) :
    ∃ pkt rest d, pb.unmarshalToRadio payload = some ⟨.packet pkt, rest⟩ ∧ pkt.variant = .decoded d ∧
      d.portnum = PortNum.textMessageApp := by
  unfold isTextPacket at ht
  split at ht
  · rename_i pkt rest hu
    split at ht
    · rename_i d hd
      exact ⟨pkt, rest, d, hu, hd, by simpa using ht⟩
    · cases ht
  · cases ht

/-- **The frame of a client's text message**: it can be built, and it is a text message -/
theorem meshPacketFrame_text {pb : Codec} (hlaw : pb.PacketLaw) (nodeNum now : UInt32) {payload : Bytes}
    (ht : isTextPacket pb payload = true) :
    ∃ f, meshPacketFrame pb nodeNum now payload = some f ∧ isTextMessageFrame pb f = true := by
  obtain ⟨pkt, rest, d, hu, hd, hport⟩ := isTextPacket_decoded ht
  obtain ⟨f, hm, hf⟩ := hlaw payload pkt rest (if pkt.from_ = 0 ∧ nodeNum ≠ 0 then nodeNum else pkt.from_)
    (if pkt.rxTime = 0 then now else pkt.rxTime) hu
  refine ⟨f, ?_, ?_⟩
  · simp only [meshPacketFrame, hu]
    exact hm
  · simp [isTextMessageFrame, extractDecodedPacket, hf, hd, hport]

theorem loopReceive_inv (h : Inv e b s) (f : Bytes) : Inv e b (s.loopReceive e f) := by
  unfold State.loopReceive
  split
  · split_ifs
    · exact h
    · exact h.grow (grows_of_client rfl (List.Subset.refl _)) h.tags h.replays (Or.inr rfl) (fun i => Or.inl rfl)
        (fun m hm => Or.inl hm)
  · exact h

/-- an entry is appended to the cache -/
theorem cacheText_grows (htags : s.chatTags.length = s.chat.length) {m : Msg} {f : Bytes}
    (hroom : ((s.chat.length + 1 : ℕ) : ℤ) ≤ e.opts.maxChatCache) :
    Grows b s (s.cacheText e m f) ∧ (s.cacheText e m f).chatTags.length = (s.cacheText e m f).chat.length ∧
      (m.id, f) ∈ (s.cacheText e m f).entries := by
  rw [cacheText_eq htags hroom]
  have hent := entries_append htags m.id ⟨f, extractPacketID e.pb f, none⟩
  refine ⟨grows_of_client rfl ?_, by simp [htags], ?_⟩
  · change s.entries ⊆ (s.chatTags ++ [m.id]).zip _
    rw [hent]
    exact List.subset_append_left _ _
  · change (m.id, f) ∈ (s.chatTags ++ [m.id]).zip _
    rw [hent]
    exact List.mem_append_right _ (List.mem_singleton.2 rfl)

theorem loopCache_inv (h : Inv e b s) (hev : ¬Evicts e s .loopCache) : Inv e b (s.loopCache e) := by
  unfold State.loopCache
  split
  · rename_i m hl
    have hsender : m.sender = none := by
      have := h.loop
      rwa [hl] at this
    split_ifs with ht
    · have hroom : ((s.chat.length + 1 : ℕ) : ℤ) ≤ e.opts.maxChatCache := by
        simp only [Evicts, hl, ht, true_and, not_lt] at hev
        exact hev
      obtain ⟨hg, htags, hin⟩ := cacheText_grows (b := b) (f := m.payload) (m := m) h.tags hroom
      have hg' : Grows b s { s.cacheText e m m.payload with loop := .cached m } :=
        ⟨hg.put, hg.entries, hg.pending, hg.stage⟩
      refine h.grow hg' htags h.replays (Or.inr ⟨hsender, fun _ => ⟨m.payload, ?_, hin⟩⟩) (fun i => Or.inl rfl)
        (fun m hm => Or.inl hm)
      simp only [FrameOf, hsender]
    · have hcached (s' : State) (hl' : s'.loop = .cached m) : LoopInv e s' s'.loop := by
        rw [hl']
        refine ⟨hsender, ?_⟩
        intro hm
        simp only [Msg.isText, hsender] at hm
        exact absurd hm ht
      split
      · rename_i packetID _
        have hmsgs := cacheACK_messages e.opts.maxChatCache s.chat packetID m.payload
        refine h.grow (grows_of_client rfl ?_) ?_ h.replays (Or.inr (hcached _ rfl)) (fun i => Or.inl rfl)
          (fun m hm => Or.inl hm)
        · simp only [State.entries, hmsgs]
          exact List.Subset.refl _
        · have hlen := congrArg List.length hmsgs
          simp only [List.length_map] at hlen
          exact h.tags.trans hlen.symm
      · exact h.grow (grows_of_client rfl (List.Subset.refl _)) h.tags h.replays (Or.inr (hcached _ rfl))
          (fun i => Or.inl rfl) (fun m hm => Or.inl hm)
  · exact h

theorem loopBroadcast_inv (h : Inv e b s) : Inv e b s.loopBroadcast := by
  unfold State.loopBroadcast
  split
  · rename_i m hl
    have hloop := h.loop
    rw [hl] at hloop
    obtain ⟨hsender, hcached⟩ := hloop
    have hg : Grows b s (s.broadcast m m.payload) := broadcast_grows m m.payload
    have hg' : Grows b s { s.broadcast m m.payload with loop := .idle, completed := s.completed ++ [m] } :=
      ⟨hg.put, hg.entries, hg.pending, hg.stage⟩
    refine h.grow hg' h.tags (broadcast_replays h.replays m m.payload) (Or.inr trivial)
      (fun i => Or.inl (broadcast_handler m m.payload i)) ?_
    intro m' hm'
    rcases List.mem_append.1 hm' with hm' | hm'
    · exact Or.inl hm'
    · rw [List.mem_singleton.1 hm']
      refine Or.inr ?_
      intro ht _
      -- B gets it live, or finds it in the cache
      by_cases hreg : (s.client b).registered = true
      · exact Or.inl (broadcast_got (by simp only [FrameOf, hsender]) hreg (by simp [hsender]))
      · exact hg'.safe (Or.inr (Or.inr ⟨h.replays.unread hreg, hcached ht⟩))
  · exact h

theorem register_inv (h : Inv e b s) (c : ℕ) : Inv e b (s.register c) := by
  unfold State.register
  split_ifs
  · exact h
  · refine h.setClient (List.Subset.refl _) rfl rfl ?_ (Or.inl rfl)
    rintro rfl
    have hr := h.replays
    exact ⟨hr.reading, hr.chat, hr.nonce, hr.answered, fun _ => rfl, fun _ => rfl⟩

theorem close_inv (h : Inv e b s) (c : ℕ)
    (hstay : (s.client b).registered = true → ((s.close c).client b).registered = true) : Inv e b (s.close c) := by
  refine h.setClient (List.Subset.refl _) rfl rfl ?_ (Or.inl rfl)
  rintro rfl
  have hr := h.replays
  refine ⟨hr.reading, hr.chat, hr.nonce, hr.answered, ?_, hr.active⟩
  intro hj
  have hreg := hstay (hr.joined hj)
  simp [State.close] at hreg

theorem receive_inv (h : Inv e b s) (c : ℕ) (f : Bytes)
    (hstay : (s.client b).registered = true → ((s.receive e c f).client b).registered = true) :
    Inv e b (s.receive e c f) := by
  unfold State.receive at hstay ⊢
  split_ifs with hjoined
  · rw [if_pos hjoined] at hstay
    split
    · refine h.setClient (List.Subset.refl _) rfl rfl ?_ (Or.inl rfl)
      rintro rfl
      have hr := h.replays
      exact ⟨hr.reading, hr.chat, hr.nonce, hr.answered, hr.joined, fun _ => hjoined.1⟩
    · rename_i hu
      rw [hu] at hstay
      exact close_inv h c hstay
    · have h' : Inv e b { s with fresh := s.fresh + 1 } :=
        h.grow (grows_of_client rfl (List.Subset.refl _)) h.tags h.replays (Or.inl rfl) (fun i => Or.inl rfl)
          (fun m hm => Or.inl hm)
      refine h'.setClient (List.Subset.refl _) rfl rfl ?_ (Or.inr rfl)
      rintro rfl
      have hr := h.replays
      exact ⟨hr.reading, hr.chat, hr.nonce, hr.answered, hr.joined, hr.active⟩
  · exact h

/-- the handler's own record -/
theorem Replays.handler {cl : Client} (h : Replays e cl) (hd : Handler) : Replays e { cl with handler := hd } :=
  ⟨h.reading, h.chat, h.nonce, h.answered, h.joined, h.active⟩

theorem setHandler_replays (h : Replays e (s.client b)) (c : ℕ) (hd : Handler) :
    Replays e ((s.setClient c { s.client c with handler := hd }).client b) := by
  by_cases hb : b = c
  · subst hb
    rw [setClient_self]
    exact h.handler hd
  · rwa [setClient_of_ne hb]

theorem setHandler_handler (c : ℕ) (hd : Handler) (i : ℕ) (hi : i ≠ c) :
    ((s.setClient c { s.client c with handler := hd }).client i).handler = (s.client i).handler := by
  rw [setClient_of_ne hi]

theorem echo_inv (hlaw : e.pb.PacketLaw) (h : Inv e b s) (c : ℕ) (nodeNum now : UInt32) :
    Inv e b (s.echo e c nodeNum now) := by
  unfold State.echo
  split
  · rename_i m hhd
    have hsender : m.sender = some c := by
      have := h.handler c
      rwa [hhd] at this
    have hg : Grows b s (s.setClient c { s.client c with handler := .echoed m }) := grows_setClient (List.Subset.refl _) rfl rfl
    have hreplays := setHandler_replays h.replays c (.echoed m)
    dsimp only
    split
    · rename_i f hf
      have hg' := broadcast_grows (b := b) (s := s.setClient c { s.client c with handler := .echoed m }) m f
      refine h.grow (hg.trans hg') h.tags (broadcast_replays hreplays m f) (Or.inl rfl) ?_ (fun m hm => Or.inl hm)
      intro i
      rw [broadcast_handler]
      by_cases hi : i = c
      · subst hi
        rw [setClient_self]
        refine Or.inr ⟨hsender, ?_⟩
        intro hib ht
        -- B gets it live, or is not registered yet
        by_cases hreg : ((s.setClient i { s.client i with handler := .echoed m }).client b).registered = true
        · left
          refine broadcast_got ?_ hreg (by rw [hsender]; exact fun he => hib (Option.some.inj he))
          simp only [FrameOf, hsender]
          exact ⟨nodeNum, now, hf⟩
        · exact Or.inr (Or.inr (hg'.stage.trans (hreplays.unread hreg)))
      · exact Or.inl (setHandler_handler c _ i hi)
    · rename_i hf
      refine h.grow hg h.tags hreplays (Or.inl rfl) ?_ (fun m hm => Or.inl hm)
      intro i
      by_cases hi : i = c
      · subst hi
        rw [setClient_self]
        refine Or.inr ⟨hsender, ?_⟩
        intro _ ht
        simp only [Msg.isText, hsender] at ht
        obtain ⟨f, hf', -⟩ := meshPacketFrame_text hlaw nodeNum now ht
        rw [echoFrame, hf'] at hf
        cases hf
      · exact Or.inl (setHandler_handler c _ i hi)
  · exact h

theorem cache_inv (hlaw : e.pb.PacketLaw) (h : Inv e b s) {c : ℕ} {nodeNum now : UInt32}
    (hev : ¬Evicts e s (.cache c nodeNum now)) : Inv e b (s.cache e c nodeNum now) := by
  unfold State.cache
  split
  · rename_i m hhd
    have hold := h.handler c
    rw [hhd] at hold
    obtain ⟨hsender, hlive⟩ := hold
    have hg : Grows b s (s.setClient c { s.client c with handler := .cached m }) := grows_setClient (List.Subset.refl _) rfl rfl
    have hreplays := setHandler_replays h.replays c (.cached m)
    have htext (ht : m.isText e.pb = true) : ∃ f, toRadioToFromRadio e.pb nodeNum now m.payload = some f ∧
        isTextMessageFrame e.pb f = true := by
      simp only [Msg.isText, hsender] at ht
      exact meshPacketFrame_text hlaw nodeNum now ht
    -- a message that is not text needs nothing
    have hother (hnt : m.isText e.pb ≠ true) : Inv e b (s.setClient c { s.client c with handler := .cached m }) := by
      refine h.grow hg h.tags hreplays (Or.inl rfl) ?_ (fun m hm => Or.inl hm)
      intro i
      by_cases hi : i = c
      · subst hi
        rw [setClient_self]
        exact Or.inr ⟨hsender, fun _ ht => absurd ht hnt⟩
      · exact Or.inl (setHandler_handler c _ i hi)
    dsimp only
    split
    · rename_i f hf
      split_ifs with ht
      · have hroom : ((s.chat.length + 1 : ℕ) : ℤ) ≤ e.opts.maxChatCache := by
          simp only [Evicts, hhd, hf, ht, true_and, not_lt] at hev
          exact hev
        obtain ⟨hg', htags, hin⟩ := cacheText_grows (b := b) (f := f) (m := m)
          (s := s.setClient c { s.client c with handler := .cached m }) h.tags hroom
        have hgg : Grows b s ((s.setClient c { s.client c with handler := .cached m }).cacheText e m f) := hg.trans hg'
        refine h.grow hgg htags hreplays (Or.inl rfl) ?_ (fun m hm => Or.inl hm)
        intro i
        by_cases hi : i = c
        · subst hi
          have hself : (((s.setClient i { s.client i with handler := .cached m }).cacheText e m f).client i).handler =
              .cached m := by
            change ((s.setClient i _).client i).handler = _
            rw [setClient_self]
          rw [hself]
          refine Or.inr ⟨hsender, ?_⟩
          intro hib ht
          rcases hlive hib ht with hgot | hawaits | hstage
          · exact Or.inl (hgg.got hgot)
          · exact Or.inr (Or.inl (hgg.awaits hawaits))
          · refine Or.inr (Or.inr ⟨hgg.stage.trans hstage, f, ?_, hin⟩)
            simp only [FrameOf, hsender]
            exact ⟨nodeNum, now, hf⟩
        · exact Or.inl (setHandler_handler c _ i hi)
      · refine hother ?_
        intro htm
        obtain ⟨f', hf', ht'⟩ := htext htm
        rw [hf'] at hf
        cases hf
        exact ht ht'
    · rename_i hf
      refine hother ?_
      intro htm
      obtain ⟨f', hf', -⟩ := htext htm
      rw [hf'] at hf
      cases hf
  · exact h

theorem forward_inv (h : Inv e b s) (c : ℕ) : Inv e b (s.forward c) := by
  unfold State.forward
  split
  · rename_i m hhd
    have hold := h.handler c
    rw [hhd] at hold
    obtain ⟨hsender, hsafe⟩ := hold
    have hg : Grows b s (s.setClient c { s.client c with handler := .idle }) := grows_setClient (List.Subset.refl _) rfl rfl
    have hg' : Grows b s ({ s with toNode := s.toNode ++ [m.payload], completed := s.completed ++ [m] }.setClient c
        { s.client c with handler := .idle }) := ⟨hg.put, hg.entries, hg.pending, hg.stage⟩
    refine h.grow hg' h.tags (setHandler_replays h.replays c .idle) (Or.inl rfl) ?_ ?_
    · intro i
      by_cases hi : i = c
      · subst hi
        rw [setClient_self]
        exact Or.inr trivial
      · exact Or.inl (by rw [setClient_of_ne hi])
    · intro m' hm'
      rcases List.mem_append.1 hm' with hm' | hm'
      · exact Or.inl hm'
      · rw [List.mem_singleton.1 hm']
        refine Or.inr fun ht hs => hg'.safe (hsafe ?_ ht)
        rintro rfl
        exact hs hsender
  · exact h

/-! ## Steps of a replay -/

theorem beginReplay_inv (h : Inv e b s) (c : ℕ) (nonce : UInt32) : Inv e b (s.beginReplay c nonce) := by
  unfold State.beginReplay
  split_ifs with hreq
  · obtain ⟨hmem, hret⟩ := hreq
    refine h.setClient (List.Subset.refl _) (by simp [Client.pending, todo, hret]) rfl ?_ (Or.inl rfl)
    rintro rfl
    have hr := h.replays
    have hjoined := hr.active (Or.inl (List.ne_nil_of_mem hmem))
    refine ⟨?_, by simp [inChat], by simp [nonceOf], hr.answered, hr.joined, fun _ => hjoined⟩
    intro hstage
    have hin := hr.reading hstage
    rw [hret] at hin
    cases hin
  · exact h

@[simp] theorem move_handler (cl : Client) (tags : List ℕ) (r : Replay) (phase : UInt32) :
    (cl.move tags r phase).handler = cl.handler := by
  cases r <;> rfl

@[simp] theorem send_handler (cl : Client) (f : Bytes) (r : Replay) : (cl.send f r).handler = cl.handler := by
  unfold Client.send
  split <;> rfl

/-- another client's replay -/
theorem Inv.other (h : Inv e b s) {c : ℕ} (hc : b ≠ c) {cl : Client} (hhandler : cl.handler = (s.client c).handler) :
    Inv e b (s.setClient c cl) := by
  refine h.grow (grows_of_client (setClient_of_ne hc cl) (List.Subset.refl _)) h.tags ?_ (Or.inl rfl) (fun i => Or.inl ?_)
    (fun m hm => Or.inl hm)
  · rw [setClient_of_ne hc]
    exact h.replays
  · by_cases hi : i = c
    · subst hi
      rw [setClient_self, hhandler]
    · rw [setClient_of_ne hi]

/-- a step of B's replay that gets on with the chat history -/
theorem Inv.own (h : Inv e b s) {cl : Client} (hhandler : cl.handler = (s.client b).handler) (hreplays : Replays e cl)
    (hsafe : ∀ m, Safe e.pb b s m → Safe e.pb b (s.setClient b cl) m)
    (hechoed : ∀ i ≠ b, ∀ m, (s.client i).handler = .echoed m → m.isText e.pb = true →
      Got e.pb cl m ∨ Awaits e.pb cl m ∨ cl.stage = .unread) : Inv e b (s.setClient b cl) where
  tags := h.tags
  replays := by rwa [setClient_self]
  loop := by
    have hloop := h.loop
    change LoopInv e _ s.loop
    cases hl : s.loop with
    | idle => trivial
    | received m => rw [hl] at hloop; exact hloop
    | cached m => rw [hl] at hloop; exact hloop
  handler := by
    intro i
    have hsame : ((s.setClient b cl).client i).handler = (s.client i).handler := by
      by_cases hi : i = b
      · subst hi
        rw [setClient_self, hhandler]
      · rw [setClient_of_ne hi]
    have hold := h.handler i
    rw [hsame]
    cases hhd : (s.client i).handler with
    | idle => trivial
    | received m => rw [hhd] at hold; exact hold
    | echoed m =>
      rw [hhd] at hold
      refine ⟨hold.1, ?_⟩
      intro hi ht
      rw [setClient_self]
      exact hechoed i hi m hhd ht
    | cached m =>
      rw [hhd] at hold
      exact ⟨hold.1, fun hi ht => hsafe m (hold.2 hi ht)⟩
  completed := fun m hm ht hs => hsafe m (h.completed m hm ht hs)

/-- where a replay is not in the chat history, nothing is pending -/
theorem not_awaits {pb : Codec} {cl : Client} (htodo : todo cl.replay = []) (m : Msg) : ¬Awaits pb cl m := by
  rintro ⟨-, f, -, hin⟩
  simp [Client.pending, htodo] at hin

/-- **The snapshot.** Everything cached is now pending; what is echoed but not cached has to be in the channel already. -/
theorem snapshot_inv (h : Inv e b s) {nonce phase : UInt32} (hr : (s.client b).replay = .config nonce [])
    (hcond : ∀ i ≠ b, ∀ m, (s.client i).handler = .echoed m → m.isText e.pb = true → Got e.pb (s.client b) m) :
    Inv e b (s.setClient b ((s.client b).move s.chatTags (.chat s.chat) phase)) := by
  have hrep := h.replays
  have hstage : (s.client b).stage ≠ .reading := by
    intro hreading
    have hin := hrep.reading hreading
    rw [hr] at hin
    cases hin
  have hjoined := hrep.active (Or.inr (Or.inl (by simp [hr])))
  refine h.own (move_handler _ _ _ _) ?_ ?_ (fun i hi m hhd ht => Or.inl (hcond i hi m hhd ht))
  · refine ⟨fun _ => rfl, ?_, by simp [Client.move, nonceOf], ?_, hrep.joined, fun _ => hjoined⟩
    · intro _
      simp only [Client.move]
      split_ifs with hun
      · simp
      · exact hun
    · intro n hn h1 h2 h3 h4 h5
      have hdone := hrep.answered n hn h1 h2 h3 h4 h5
      simp [Client.move, hdone]
  · intro m hm
    rcases hm with hgot | hawaits | ⟨hunread, f, hf, hin⟩
    · rw [Safe, setClient_self]
      exact Or.inl hgot
    · exact absurd hawaits (not_awaits (by simp [hr, todo]) m)
    · rw [Safe, setClient_self]
      refine Or.inr (Or.inl ⟨by simp [Client.move, hunread], f, hf, ?_⟩)
      exact hin

/-- **The return.** Nothing is pending any more. -/
theorem return_inv (h : Inv e b s) {phase : UInt32} (htodo : todo (s.client b).replay = [])
    (hrunning : (s.client b).replay ≠ .returned)
    (hanswer : (s.client b).nonce ≠ nonceOnlyConfig → (s.client b).nonce ≠ nonceOnlyNodes → e.cache ≠ [] →
      e.opts.replayChatEnabled = true → 0 < e.opts.maxChatCache → inChat (s.client b).replay = true) :
    Inv e b (s.setClient b ((s.client b).move s.chatTags .returned phase)) := by
  have hrep := h.replays
  have hjoined := hrep.active (Or.inr (Or.inl hrunning))
  have hunread (hu : (s.client b).stage = .unread) :
      ((s.client b).move s.chatTags .returned phase).stage = .unread := by simp [Client.move, hu]
  refine h.own (move_handler _ _ _ _) ?_ ?_ ?_
  · refine ⟨?_, by simp [Client.move, inChat], by simp [Client.move, nonceOf], ?_, hrep.joined, fun _ => hjoined⟩
    · intro hstage
      simp only [Client.move] at hstage
      split_ifs at hstage with hreading
      exact absurd hstage hreading
    · intro n hn h1 h2 h3 h4 h5
      simp only [Client.move] at hn ⊢
      rcases List.mem_append.1 hn with hn | hn
      · have hdone := hrep.answered n hn h1 h2 h3 h4 h5
        simp [hdone]
      · rw [List.mem_singleton.1 hn] at h1 h2
        have hread := hrep.chat (hanswer h1 h2 h3 h4 h5)
        cases hs : (s.client b).stage with
        | unread => exact absurd hs hread
        | reading => simp
        | replayed => simp
  · intro m hm
    rw [Safe, setClient_self]
    rcases hm with hgot | hawaits | ⟨hu, hcached⟩
    · exact Or.inl hgot
    · exact absurd hawaits (not_awaits htodo m)
    · exact Or.inr (Or.inr ⟨hunread hu, hcached⟩)
  · intro i hi m hhd ht
    have hold := h.handler i
    rw [hhd] at hold
    rcases hold.2 hi ht with hgot | hawaits | hu
    · exact Or.inl hgot
    · exact absurd hawaits (not_awaits htodo m)
    · exact Or.inr (Or.inr (hunread hu))

/-- **A chat message is sent.** It moves from the pending ones into the channel. -/
theorem chatSend_inv (h : Inv e b s) {ent : ChatEntry} {es : List ChatEntry} {r : Replay}
    (hr : (s.client b).replay = .chat (ent :: es)) (htodo : todo r = es) (hin : inChat r = true) :
    Inv e b (s.setClient b ((s.client b).send ent.message r)) := by
  have hrep := h.replays
  have hcl : (s.client b).send ent.message r = { s.client b with
      replay := r, put := (s.client b).put ++ [((s.client b).tags.head?, ent.message)], tags := (s.client b).tags.tail } := by
    simp only [Client.send, hr]
  have hjoined := hrep.active (Or.inr (Or.inl (by simp [hr])))
  have hgot {m : Msg} (hm : Got e.pb (s.client b) m) : Got e.pb ((s.client b).send ent.message r) m := by
    obtain ⟨f, hf, hput⟩ := hm
    rw [hcl]
    exact ⟨f, hf, List.mem_append_left _ hput⟩
  have hawaits {m : Msg} (hm : Awaits e.pb (s.client b) m) :
      Got e.pb ((s.client b).send ent.message r) m ∨ Awaits e.pb ((s.client b).send ent.message r) m := by
    obtain ⟨hstage, f, hf, hpend⟩ := hm
    rw [hcl]
    simp only [Client.pending, hr, todo, List.map_cons] at hpend
    cases htags : (s.client b).tags with
    | nil => simp [htags] at hpend
    | cons k tags =>
      rw [htags, List.zip_cons_cons] at hpend
      rcases List.mem_cons.1 hpend with heq | hpend
      · cases heq
        exact Or.inl ⟨_, hf, by simp⟩
      · refine Or.inr ⟨hstage, f, hf, ?_⟩
        simp only [Client.pending, htodo, List.tail_cons]
        exact hpend
  have hnc : nonceOf r = none := by cases r <;> first | rfl | cases hin
  have hne : (s.client b).stage ≠ .unread := hrep.chat (by rw [hr]; rfl)
  refine h.own (send_handler _ _ _) ?_ ?_ ?_
  · rw [hcl]
    exact ⟨fun _ => hin, fun _ => hne, by simp [hnc], hrep.answered, hrep.joined, fun _ => hjoined⟩
  · intro m hm
    rw [Safe, setClient_self]
    rcases hm with hm | hm | ⟨hu, -⟩
    · exact Or.inl (hgot hm)
    · exact (hawaits hm).imp_right Or.inl
    · exact absurd hu hne
  · intro i hi m hhd ht
    have hold := h.handler i
    rw [hhd] at hold
    rcases hold.2 hi ht with hm | hm | hu
    · exact Or.inl (hgot hm)
    · exact (hawaits hm).imp_right Or.inl
    · exact absurd hu hne

/-- a step in the same part of the replay -/
theorem Replays.advance {cl : Client} (h : Replays e cl) (hrunning : cl.replay ≠ .returned) {r : Replay}
    (hchat : inChat r = inChat cl.replay) (hnonce : nonceOf r = nonceOf cl.replay) (phase : UInt32)
    (put : List (Option ℕ × Bytes)) : Replays e { cl with replay := r, phase := phase, put := put } where
  reading := fun hstage => hchat.trans (h.reading hstage)
  chat := fun hin => h.chat (hchat ▸ hin)
  nonce := fun n hn => h.nonce n (hnonce ▸ hn)
  answered := h.answered
  joined := h.joined
  active := fun _ => h.active (Or.inr (Or.inl hrunning))

/-- such a step outside the chat entries -/
theorem Inv.advance (h : Inv e b s) {r : Replay} (hrunning : (s.client b).replay ≠ .returned)
    (htodo : todo r = todo (s.client b).replay) (hchat : inChat r = inChat (s.client b).replay)
    (hnonce : nonceOf r = nonceOf (s.client b).replay) (phase : UInt32) (new : List (Option ℕ × Bytes)) :
    Inv e b (s.setClient b { s.client b with replay := r, phase := phase, put := (s.client b).put ++ new }) := by
  refine h.setClient (List.subset_append_left _ _) ?_ rfl (fun _ => h.replays.advance hrunning hchat hnonce _ _)
    (Or.inl rfl)
  simp only [Client.pending, htodo]

/-- under an ordinary nonce and with chat replay enabled, chat is replayed -/
theorem shouldReplayChat_ordinary {o : Opts} {nonce : UInt32} (hen : o.replayChatEnabled = true)
    (hmax : 0 < o.maxChatCache) (h1 : nonce ≠ nonceOnlyConfig) (h2 : nonce ≠ nonceOnlyNodes) (phase : UInt32) :
    shouldReplayChat o nonce phase = true := by
  have hnot : ¬(o.replayChatEnabled = false ∨ o.maxChatCache ≤ 0) := by
    rintro (h | h)
    · rw [hen] at h; cases h
    · exact absurd hmax (not_lt.2 h)
  rw [shouldReplayChat, if_neg hnot, if_neg h1, if_neg h2]

theorem tau_inv (h : Inv e b s) (hcond : NoEarlySnapshot e b s (.replay b)) {r : Replay} {phase : UInt32}
    (hnext : (s.client b).replay.next e.pb e.opts e.cache s.chat (s.client b).phase = .tau r phase) :
    Inv e b (s.setClient b ((s.client b).move s.chatTags r phase)) := by
  rcases next_tau_cases hnext with ⟨n, hr, ⟨hcache, rfl⟩ | ⟨pfs, rfl⟩⟩ | ⟨n, pfs, hr, hcase⟩ | ⟨hr, rfl⟩
  · exact return_inv h (by rw [hr]; rfl) (by simp [hr]) fun _ _ hne => absurd hcache hne
  · have hadv := h.advance (r := .config n pfs) (by simp [hr]) (by rw [hr]; rfl) (by rw [hr]; rfl) (by rw [hr]; rfl) phase []
    rwa [List.append_nil] at hadv
  · rcases hcase with ⟨pfs', rfl⟩ | ⟨rfl, hchat, rfl⟩ | ⟨rfl, hchat, rfl⟩
    · have hadv := h.advance (r := .config n pfs') (by simp [hr]) (by rw [hr]; rfl) (by rw [hr]; rfl) (by rw [hr]; rfl)
        phase []
      rwa [List.append_nil] at hadv
    · exact snapshot_inv h hr (hcond ⟨rfl, by rw [hr]; exact hchat⟩)
    · refine return_inv h (by rw [hr]; rfl) (by simp [hr]) ?_
      intro h1 h2 _ hen hmax
      have hn : n = (s.client b).nonce := h.replays.nonce n (by rw [hr]; rfl)
      rw [← hn] at h1 h2
      rw [shouldReplayChat_ordinary hen hmax h1 h2] at hchat
      cases hchat
  · exact return_inv h (by rw [hr]; rfl) (by simp [hr]) fun _ _ _ _ _ => by rw [hr]; rfl

theorem send_inv (h : Inv e b s) {f : Bytes} {r : Replay}
    (hnext : (s.client b).replay.next e.pb e.opts e.cache s.chat (s.client b).phase = .send f r) :
    Inv e b (s.setClient b ((s.client b).send f r)) := by
  rcases next_send_cases hnext with ⟨n, pfs, pfs', hr, rfl⟩ | ⟨ent, es, hr, rfl, hr'⟩ | ⟨ack, es, hr, rfl⟩
  · have hadv := h.advance (r := .config n pfs') (by simp [hr]) (by rw [hr]; rfl) (by rw [hr]; rfl) (by rw [hr]; rfl)
      (s.client b).phase [(none, f)]
    simpa only [Client.send, hr] using hadv
  · rcases hr' with rfl | ⟨ack, rfl⟩
    · exact chatSend_inv h hr rfl rfl
    · exact chatSend_inv h hr rfl rfl
  · have hadv := h.advance (r := .chat es) (by simp [hr]) (by rw [hr]; rfl) (by rw [hr]; rfl) (by rw [hr]; rfl)
      (s.client b).phase [(none, f)]
    simpa only [Client.send, hr] using hadv

theorem replay_inv (h : Inv e b s) (c : ℕ) (hcond : NoEarlySnapshot e b s (.replay c)) : Inv e b (s.replay e c) := by
  unfold State.replay
  split
  · exact h
  · rename_i r phase hnext
    by_cases hc : b = c
    · subst hc
      exact tau_inv h hcond hnext
    · exact h.other hc (move_handler _ _ _ _)
  · rename_i f r hnext
    by_cases hc : b = c
    · subst hc
      exact send_inv h hnext
    · exact h.other hc (send_handler _ _ _)

/-! ## Runs -/

theorem step_inv (hlaw : e.pb.PacketLaw) (h : Inv e b s) (a : Act) (hprov : Proviso e b s a)
    (hcond : NoEarlySnapshot e b s a) : Inv e b (step e s a) := by
  cases a with
  | loopReceive f => exact loopReceive_inv h f
  | loopCache => exact loopCache_inv h hprov.1
  | loopBroadcast => exact loopBroadcast_inv h
  | register c => exact register_inv h c
  | close c => exact close_inv h c hprov.2
  | receive c f => exact receive_inv h c f hprov.2
  | echo c nodeNum now => exact echo_inv hlaw h c nodeNum now
  | cache c nodeNum now => exact cache_inv hlaw h hprov.1
  | forward c => exact forward_inv h c
  | beginReplay c nonce => exact beginReplay_inv h c nonce
  | replay c => exact replay_inv h c hcond

variable (e) in
/-- **No text message is lost to a joining client B.** In every run in which no chat entry is dropped, B is not
disconnected and B's chat snapshot never falls between the echo and the caching of a message whose echo B did not get:
once B has been answered under an ordinary nonce, over a non-empty config cache and with chat replay enabled, every text
message of others whose processing is complete has been put into B's channel. -/
theorem no_message_lost (hlaw : e.pb.PacketLaw) (b : ℕ) (as : List Act)
    (hrun : Along (step e) (fun s a => Proviso e b s a ∧ NoEarlySnapshot e b s a) init as)
    (nonce : UInt32) (h1 : nonce ≠ nonceOnlyConfig) (h2 : nonce ≠ nonceOnlyNodes) (hcache : e.cache ≠ [])
    (hen : e.opts.replayChatEnabled = true) (hmax : 0 < e.opts.maxChatCache)
    (hanswered : nonce ∈ ((run (step e) init as).client b).answered) :
    ∀ m ∈ (run (step e) init as).completed, m.isText e.pb = true → m.sender ≠ some b →
      Got e.pb ((run (step e) init as).client b) m := by
  have hinv : Inv e b (run (step e) init as) :=
    run_inv (I := Inv e b) (fun s a hs ha => step_inv hlaw hs a ha.1 ha.2) (inv_init e b) hrun
  have hstage := hinv.replays.answered nonce hanswered h1 h2 hcache hen hmax
  intro m hm ht hs
  rcases hinv.completed m hm ht hs with hgot | ⟨hreading, -⟩ | ⟨hunread, -⟩
  · exact hgot
  · rw [hstage] at hreading; cases hreading
  · rw [hstage] at hunread; cases hunread

/-! ### A text message "hi" -/

/-- a fixed32 field -/
def le32 (x : UInt32) : Bytes :=
  [UInt8.ofNat x.toNat, UInt8.ofNat (x.toNat / 256), UInt8.ofNat (x.toNat / 65536), UInt8.ofNat (x.toNat / 16777216)]

def un32 (x y z w : UInt8) : UInt32 :=
  UInt32.ofNat (x.toNat + 256 * y.toNat + 65536 * z.toNat + 16777216 * w.toNat)

theorem un32_le32 (x : UInt32) :
    un32 (UInt8.ofNat x.toNat) (UInt8.ofNat (x.toNat / 256)) (UInt8.ofNat (x.toNat / 65536))
      (UInt8.ofNat (x.toNat / 16777216)) = x := by
  have hx := x.toNat_lt
  apply UInt32.toNat_inj.1
  simp only [un32, UInt32.toNat_ofNat', UInt8.toNat_ofNat']
  omega

def hiPacket : MeshPacket := { id := 7, variant := .decoded { portnum := 1, payload := [104, 105] } }

/-- its ToRadio frame, without sender and receive time -/
def hiToRadio : Bytes := [0x0A, 13, 0x22, 6, 8, 1, 0x12, 2, 104, 105, 0x35, 7, 0, 0, 0]

/-- its FromRadio frame -/
def hiFromRadio (sender rxTime : UInt32) : Bytes :=
  [0x12, 23, 0x0D] ++ le32 sender ++ [0x22, 6, 8, 1, 0x12, 2, 104, 105, 0x35, 7, 0, 0, 0, 0x3D] ++ le32 rxTime

def wantConfig42 : Bytes := [0x18, 42]

def hiUnmarshal : Bytes → Option FromRadio
  | [0x12, 23, 0x0D, x, y, z, w, 0x22, 6, 8, 1, 0x12, 2, 104, 105, 0x35, 7, 0, 0, 0, 0x3D, x', y', z', w'] =>
    some { variant := .packet { hiPacket with from_ := un32 x y z w, rxTime := un32 x' y' z' w' } }
  | f => tableUnmarshal [] f

def hiMarshal (m : FromRadio) : Option Bytes :=
  match m.variant with
  | .packet pkt =>
    if m = { variant := .packet { hiPacket with from_ := pkt.from_, rxTime := pkt.rxTime } } then
      some (hiFromRadio pkt.from_ pkt.rxTime)
    else none
  | _ => tableMarshal [] m

def hiCodec : Codec :=
  { tableCodec [] [(hiToRadio, { variant := .packet hiPacket }), (wantConfig42, { variant := .wantConfigId 42 })] [] with
    unmarshalFromRadio := hiUnmarshal
    marshalFromRadio := hiMarshal }

theorem hiCodec_packetLaw : hiCodec.PacketLaw := by
  intro raw pkt rest sender rxTime hu
  have hpkt : pkt = hiPacket := by
    simp only [hiCodec, tableCodec] at hu
    obtain ⟨l₁, l₂, hl, -⟩ := List.lookup_eq_some_iff.1 hu
    have hmem : (raw, (⟨.packet pkt, rest⟩ : ToRadio)) ∈
        [(hiToRadio, ({ variant := .packet hiPacket } : ToRadio)), (wantConfig42, { variant := .wantConfigId 42 })] := by
      rw [hl]
      simp
    have heq : raw = hiToRadio ∧ pkt = hiPacket ∧ rest = [] := by simpa using hmem
    exact heq.2.1
  subst hpkt
  refine ⟨hiFromRadio sender rxTime, by simp [hiCodec, hiMarshal], ?_⟩
  simp only [hiCodec, hiUnmarshal, hiFromRadio, le32, List.cons_append, List.nil_append, un32_le32]

/-- a config cache of one frame -/
def hiEnv : Env := ⟨hiCodec, ⟨true, 10⟩, [configCompleteBytes 5]⟩

/-- client 1 has its message echoed and cached; then B (client 0) joins and asks for its config -/
def joinLate : List Act :=
  [.register 1, .receive 1 hiToRadio, .echo 1 9 100, .cache 1 9 101, .forward 1,
    .register 0, .receive 0 wantConfig42, .beginReplay 0 42, .replay 0, .replay 0]

theorem joinLate_echoes (i : ℕ) (m : Msg) : ((run (step hiEnv) init joinLate).client i).handler ≠ .echoed m := by
  match i with
  | 0 => exact fun h => nomatch h
  | 1 => exact fun h => nomatch h
  | i + 2 => exact fun h => nomatch h

theorem joinLate_inside :
    Along (step hiEnv) (fun s a => Proviso hiEnv 0 s a ∧ NoEarlySnapshot hiEnv 0 s a) init
      (joinLate ++ [.replay 0, .replay 0, .replay 0]) := by
  have hquiet (s : State) (a : Act) (h : Proviso hiEnv 0 s a ∧ ¬Snapshots hiEnv 0 s a) :
      Proviso hiEnv 0 s a ∧ NoEarlySnapshot hiEnv 0 s a := ⟨h.1, fun hs => absurd hs h.2⟩
  have hbefore : Along (step hiEnv) (fun s a => Proviso hiEnv 0 s a ∧ ¬Snapshots hiEnv 0 s a) init joinLate := by
    decide +kernel
  have hafter : Along (step hiEnv) (fun s a => Proviso hiEnv 0 s a ∧ ¬Snapshots hiEnv 0 s a)
      (step hiEnv (run (step hiEnv) init joinLate) (.replay 0)) [.replay 0, .replay 0] := by
    decide +kernel
  refine along_append.2 ⟨hbefore.imp hquiet, ⟨by decide +kernel, ?_⟩, hafter.imp hquiet⟩
  exact fun _ i _ m hm _ => absurd hm (joinLate_echoes i m)

/-- B gets the message from the chat history -/
theorem no_message_lost_late :
    Got hiEnv.pb ((run (step hiEnv) init (joinLate ++ [.replay 0, .replay 0, .replay 0])).client 0)
      ⟨0, some 1, hiToRadio⟩ := by
  have hanswered :
      42 ∈ ((run (step hiEnv) init (joinLate ++ [Act.replay 0, Act.replay 0, Act.replay 0])).client 0).answered := by
    decide +kernel
  have hdone : ⟨0, some 1, hiToRadio⟩ ∈
      (run (step hiEnv) init (joinLate ++ [Act.replay 0, Act.replay 0, Act.replay 0])).completed := by decide +kernel
  have htext : Msg.isText hiEnv.pb ⟨0, some 1, hiToRadio⟩ = true := by decide +kernel
  exact no_message_lost hiEnv hiCodec_packetLaw 0 _ joinLate_inside 42 (by decide) (by decide) (by simp [hiEnv]) rfl
    (by simp [hiEnv]) hanswered _ hdone htext (by simp)

/-- B joins after the echo, and its replay is over before the message is cached -/
def joinBetween : List Act :=
  [.register 1, .receive 1 hiToRadio, .echo 1 9 100,
    .register 0, .receive 0 wantConfig42, .beginReplay 0 42, .replay 0, .replay 0, .replay 0, .replay 0,
    .cache 1 9 101, .forward 1]

/-- the message is completely processed, B has been answered, and only the config is in B's channel -/
theorem message_lost_between_echo_and_cache :
    Along (step hiEnv) (Proviso hiEnv 0) init joinBetween ∧
      42 ∈ ((run (step hiEnv) init joinBetween).client 0).answered ∧
      (run (step hiEnv) init joinBetween).completed = [⟨0, some 1, hiToRadio⟩] ∧
      Msg.isText hiEnv.pb ⟨0, some 1, hiToRadio⟩ = true ∧
      ((run (step hiEnv) init joinBetween).client 0).put = [(none, configCompleteBytes 42)] := by
  decide +kernel

end MeshProxy.Hub
