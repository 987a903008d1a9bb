/-
What the program shows of outgoing messages, and what becomes of them (`internal/proxy/proxy.go`: the tail of onMessage;
`internal/node/connection.go`: Send, writeLoop's receive, drainChannels' receive).

A client's handler echoes a packet to the other clients, caches it if it is a text message, and only then calls
Connection.Send; the web chat, the heartbeats and requestConfig call Send directly. Send puts the frame into toNode and
records a text message as outgoing, or drops the frame if toNode is full, and tells nobody. A writeLoop takes frames out
of toNode at any time; so does drainChannels, at any time here, and it discards them. An echo that meets a full channel and
does not return (HubProgress) is one after which its handler takes no further step.

Every payload is a message with a number of its own. The logs `echoes`, `cached` and `recorded` are what has been shown,
`taken` what a writeLoop has taken, `lost` what Send has dropped or drainChannels discarded; they are for the statements.

- `step_inv`: every message that was handed to Send is in exactly one of toNode, taken and lost, and a message is shown
  by its handler exactly if there was somebody to show it to;
- `step_clean`, `clean_breaks`: a step keeps what is lost unseen exactly if it is inside the condition;
- `shown_as_sent`: nothing lost is shown all along a run exactly if Send finds room for every text message that had an
  audience and drainChannels discards none; then one that is shown is in toNode or taken unless its handler is still on
  its way to Send.
-/
import MeshProxy.Proxy.HubDelivery

namespace MeshProxy.Outgoing

open MeshProxy.Proto MeshProxy.Decode MeshProxy.ChatCache MeshProxy.Trace
open MeshProxy.Frame (Bytes)
open MeshProxy.Hub (Msg isTextPacket isTextPacket_decoded meshPacketFrame_text)

/-! ## The machine -/

/-- who calls Send: the handler of a client, or another goroutine -/
inductive Who where
  | client (c : ℕ)
  | other (g : ℕ)
deriving DecidableEq, Repr

/-- where it stands: before the echo, before the cache, before Send, before the record -/
inductive Worker where
  | idle
  | received (m : Msg)
  | echoed (m : Msg)
  | cached (m : Msg)
  | accepted (m : Msg)
deriving DecidableEq, Repr

/-- the message it has not yet handed to Send -/
def Worker.holds : Worker → Option Msg
  | .received m | .echoed m | .cached m => some m
  | _ => none

/-- `peers` are the clients that a handler found registered, but for its own, when it last went through
`echoToOtherClients` -/
structure St where
  clients : List ℕ
  worker : Who → Worker
  peers : ℕ → List ℕ
  toNode : List Msg
  taken : List Msg
  lost : List Msg
  echoes : List (ℕ × Msg × Bytes)
  chat : List ChatEntry
  cached : List (Msg × Bytes)
  recorded : List (Msg × ChatMessageData)
  fresh : ℕ

def init : St := ⟨[], fun _ => .idle, fun _ => [], [], [], [], [], [], [], [], 0⟩

structure Env where
  pb : Codec
  maxChatCache : ℤ
  toBuffer : ℕ

inductive Act where
  | register (c : ℕ)
  | close (c : ℕ)
  | receive (c : ℕ) (f : Bytes)
  | call (g : ℕ) (f : Bytes)
  | echo (c : ℕ) (nodeNum now : UInt32)
  | cache (c : ℕ) (nodeNum now : UInt32)
  | send (w : Who)
  | record (w : Who) (nodeNum : UInt32)
  | take
  | drain
deriving DecidableEq, Repr

variable (e : Env)

namespace St

def setWorker (w : Who) (p : Worker) (s : St) : St := { s with worker := Function.update s.worker w p }

/-- a goroutine has a new payload -/
def newMessage (w : Who) (pc : Msg → Worker) (sender : Option ℕ) (f : Bytes) (s : St) : St :=
  { s with fresh := s.fresh + 1 }.setWorker w (pc ⟨s.fresh, sender, f⟩)

/-- onMessage: a want_config_id is answered and a Disconnect closes the client; any other frame goes to the node -/
def receive (c : ℕ) (f : Bytes) (s : St) : St :=
  match s.worker (.client c) with
  | .idle =>
    match e.pb.unmarshalToRadio f with
    | some ⟨.wantConfigId _, _⟩ => s
    | some ⟨.disconnect _, _⟩ => { s with clients := s.clients.erase c }
    | _ => s.newMessage (.client c) .received (some c) f
  | _ => s

/-- `SendToNode`, a heartbeat, `requestConfig`: straight to Send -/
def call (g : ℕ) (f : Bytes) (s : St) : St :=
  match s.worker (.other g) with
  | .idle => s.newMessage (.other g) .cached none f
  | _ => s

/-- `echoToOtherClients` -/
def echo (c : ℕ) (nodeNum now : UInt32) (s : St) : St :=
  match s.worker (.client c) with
  | .received m =>
    let peers := s.clients.filter (· ≠ c)
    let s := { s with peers := Function.update s.peers c peers }.setWorker (.client c) (.echoed m)
    match echoFrame e.pb nodeNum now m.payload with
    | none => s
    | some g => { s with echoes := s.echoes ++ peers.map fun c' => (c', m, g) }
  | _ => s

/-- the handler's call of `cacheTextMessage`; nothing is appended when the cache is disabled -/
def cache (c : ℕ) (nodeNum now : UInt32) (s : St) : St :=
  match s.worker (.client c) with
  | .echoed m =>
    let s := s.setWorker (.client c) (.cached m)
    match toRadioToFromRadio e.pb nodeNum now m.payload with
    | none => s
    | some g =>
      if isTextMessageFrame e.pb g then
        { s with
          chat := cacheTextMessage e.pb e.maxChatCache s.chat g
          cached := if e.maxChatCache ≤ 0 then s.cached else s.cached ++ [(m, g)] }
      else s
  | _ => s

/-- the select of `Connection.Send` -/
def send (w : Who) (s : St) : St :=
  match s.worker w with
  | .cached m =>
    if s.toNode.length < e.toBuffer then { s with toNode := s.toNode ++ [m] }.setWorker w (.accepted m)
    else { s with lost := s.lost ++ [m] }.setWorker w .idle
  | _ => s

/-- what `Connection.Send` does for an accepted frame -/
def record (w : Who) (nodeNum : UInt32) (s : St) : St :=
  match s.worker w with
  | .accepted m =>
    let s := s.setWorker w .idle
    match extractChatMessageFromToRadio e.pb m.payload with
    | none => s
    | some chat =>
      { s with recorded := s.recorded ++ [(m, { chat with from_ := if chat.from_ = 0 then nodeNum else chat.from_ })] }
  | _ => s

/-- a writeLoop receives from toNode -/
def take (s : St) : St :=
  match s.toNode with
  | [] => s
  | m :: rest => { s with toNode := rest, taken := s.taken ++ [m] }

/-- `drainChannels` receives from toNode -/
def drain (s : St) : St :=
  match s.toNode with
  | [] => s
  | m :: rest => { s with toNode := rest, lost := s.lost ++ [m] }

end St

def step (s : St) : Act → St
  | .register c => if c ∈ s.clients then s else { s with clients := s.clients ++ [c] }
  | .close c => { s with clients := s.clients.erase c }
  | .receive c f => s.receive e c f
  | .call g f => s.call g f
  | .echo c nodeNum now => s.echo e c nodeNum now
  | .cache c nodeNum now => s.cache e c nodeNum now
  | .send w => s.send e w
  | .record w nodeNum => s.record e w nodeNum
  | .take => s.take
  | .drain => s.drain

/-! ## Shown, and sent -/

/-- the message has been echoed to a client, appended to the chat cache or recorded as outgoing -/
def Shown (s : St) (m : Msg) : Prop :=
  (∃ c f, (c, m, f) ∈ s.echoes) ∨ (∃ f, (m, f) ∈ s.cached) ∨ ∃ r, (m, r) ∈ s.recorded

/-- the messages that were handed to Send -/
def St.sent (s : St) : List Msg := s.toNode ++ s.taken ++ s.lost

/-- no lost text message has been shown, or is about to be recorded -/
def Clean (s : St) : Prop :=
  ∀ m ∈ s.lost, isTextPacket e.pb m.payload = true → ¬Shown s m ∧ ∀ w, s.worker w ≠ .accepted m

/-- a text message that stands before Send has been met by nobody: no other client was registered at its echo, and the
chat cache is off -/
def NoAudience (s : St) (c : ℕ) : Prop := s.peers c = [] ∧ e.maxChatCache ≤ 0

/-- the condition: Send finds room for a client's text message, unless nobody was there to see it, and drainChannels
finds no text message in toNode -/
def NoLoss (s : St) : Act → Prop
  | .send (.client c) => ∀ m, s.worker (.client c) = .cached m → isTextPacket e.pb m.payload = true →
      s.toNode.length < e.toBuffer ∨ NoAudience e s c
  | .drain => ∀ m rest, s.toNode = m :: rest → isTextPacket e.pb m.payload = false
  | _ => True

/-- the handler of a client stands between showing a message and its Send -/
def Between (s : St) (c : ℕ) (m : Msg) : Prop :=
  (s.worker (.client c) = .echoed m ∧ s.peers c ≠ []) ∨ (s.worker (.client c) = .cached m ∧ ¬NoAudience e s c)

/-- the message has been recorded as outgoing, or its Send is about to record it -/
def Recorded (s : St) (m : Msg) : Prop := (∃ r, (m, r) ∈ s.recorded) ∨ ∃ w, s.worker w = .accepted m

/-- each message is in one place: with the goroutine that has not handed it to Send yet, in toNode, taken or lost; and it
is shown where there was somebody to show it to -/
structure Inv (s : St) : Prop where
  nodup : (s.sent.map Msg.id).Nodup
  bound : ∀ m ∈ s.sent, m.id < s.fresh
  held : ∀ w m, (s.worker w).holds = some m → m.id < s.fresh ∧ ∀ m' ∈ s.sent, m'.id ≠ m.id
  apart : ∀ w w' m m', w ≠ w' → (s.worker w).holds = some m → (s.worker w').holds = some m' → m.id ≠ m'.id
  accepted : ∀ w m, s.worker w = .accepted m → m ∈ s.sent
  shown : ∀ m, Shown s m → m ∈ s.sent ∨ ∃ c, Between e s c m
  seen : ∀ c m, isTextPacket e.pb m.payload = true → Between e s c m → Shown s m
  kept : ∀ m ∈ s.toNode ++ s.taken, isTextPacket e.pb m.payload = true → Recorded s m

theorem inv_init : Inv e init where
  nodup := List.nodup_nil
  bound := by simp [init, St.sent]
  held := by simp [init, Worker.holds]
  apart := by simp [init, Worker.holds]
  accepted := by simp [init]
  shown := by simp [init, Shown]
  seen := by simp [init, Between]
  kept := by simp [init]

variable {e} {s s' : St} {w : Who} {m : Msg}

theorem Between.holds {c : ℕ} (h : Between e s c m) : (s.worker (.client c)).holds = some m := by
  rcases h with ⟨h, -⟩ | ⟨h, -⟩ <;> rw [h] <;> rfl

theorem Between.congr {c : ℕ} (h : Between e s c m) (hworker : s'.worker (.client c) = s.worker (.client c))
    (hpeers : s'.peers c = s.peers c) : Between e s' c m := by
  simp only [Between, NoAudience, hworker, hpeers]
  exact h

/-- a message that somebody holds is shown only if that is its handler, and stands behind its echo -/
theorem Inv.between_of_shown (h : Inv e s) (hheld : (s.worker w).holds = some m) (hm : Shown s m) :
    ∃ c, w = .client c ∧ Between e s c m := by
  rcases h.shown m hm with hin | ⟨c, hc⟩
  · exact absurd rfl ((h.held w m hheld).2 m hin)
  · by_cases heq : Who.client c = w
    · exact ⟨c, heq.symm, hc⟩
    · exact absurd rfl (h.apart (.client c) w m m heq hc.holds hheld)

/-! ## Steps that hand nothing to Send -/

/-- the messages stay where they are, as far as Send is concerned -/
theorem Inv.congr (h : Inv e s) (hsent : s'.sent.Perm s.sent) (hfresh : s'.fresh = s.fresh)
    (hholds : ∀ w, (s'.worker w).holds = (s.worker w).holds)
    (haccepted : ∀ w m, s'.worker w = .accepted m → s.worker w = .accepted m)
    (hshown : ∀ m, Shown s' m → m ∈ s.sent ∨ ∃ c, Between e s' c m)
    (hseen : ∀ c m, isTextPacket e.pb m.payload = true → Between e s' c m → Shown s' m)
    (hkept : ∀ m ∈ s'.toNode ++ s'.taken, isTextPacket e.pb m.payload = true → Recorded s' m) : Inv e s' := by
  refine ⟨?_, ?_, ?_, ?_, ?_, ?_, hseen, hkept⟩
  · exact ((hsent.map Msg.id).nodup_iff).2 h.nodup
  · intro m hm
    rw [hfresh]
    exact h.bound m (hsent.mem_iff.1 hm)
  · intro w m hw
    rw [hholds] at hw
    obtain ⟨hlt, hne⟩ := h.held w m hw
    exact ⟨hfresh ▸ hlt, fun m' hm' => hne m' (hsent.mem_iff.1 hm')⟩
  · intro w w' m m' hww hw hw'
    rw [hholds] at hw hw'
    exact h.apart w w' m m' hww hw hw'
  · intro w m hw
    exact hsent.mem_iff.2 (h.accepted w m (haccepted w m hw))
  · intro m hm
    exact (hshown m hm).imp_left hsent.mem_iff.2

theorem holds_setWorker {p : Worker} (hp : p.holds = (s.worker w).holds) (w' : Who) :
    ((s.setWorker w p).worker w').holds = (s.worker w').holds := by
  by_cases hw : w' = w
  · subst hw
    simpa [St.setWorker] using hp
  · simp [St.setWorker, hw]

theorem accepted_setWorker {p : Worker} (hp : ∀ m, p ≠ .accepted m) (w' : Who) (m : Msg)
    (h : (s.setWorker w p).worker w' = .accepted m) : s.worker w' = .accepted m := by
  by_cases hw : w' = w
  · subst hw
    simp only [St.setWorker, Function.update_self] at h
    exact absurd h (hp m)
  · simpa [St.setWorker, hw] using h

/-- a frame leaves toNode, for a writeLoop or for drainChannels -/
theorem Inv.pop (h : Inv e s) {toNode taken lost : List Msg} (hperm : (toNode ++ taken ++ lost).Perm s.sent)
    (hsub : ∀ m ∈ toNode ++ taken, m ∈ s.toNode ++ s.taken) :
    Inv e { s with toNode := toNode, taken := taken, lost := lost } :=
  h.congr hperm rfl (fun _ => rfl) (fun _ _ hw => hw) h.shown h.seen (fun m hm => h.kept m (hsub m hm))

theorem take_inv (h : Inv e s) : Inv e s.take := by
  unfold St.take
  split
  · exact h
  · rename_i m rest hto
    have hmove : (s.taken ++ [m] ++ s.lost).Perm (m :: (s.taken ++ s.lost)) := by
      rw [List.append_assoc, List.singleton_append]
      exact List.perm_middle
    apply h.pop
    · calc rest ++ (s.taken ++ [m]) ++ s.lost
          = rest ++ (s.taken ++ [m] ++ s.lost) := by simp only [List.append_assoc]
        List.Perm _ (rest ++ m :: (s.taken ++ s.lost)) := hmove.append_left rest
        List.Perm _ (m :: (rest ++ (s.taken ++ s.lost))) := List.perm_middle
        _ = s.sent := by simp only [St.sent, hto, List.cons_append, List.append_assoc]
    · intro m' hm'
      rw [hto]
      simp only [List.mem_append, List.mem_cons, List.not_mem_nil, or_false] at hm' ⊢
      tauto

theorem drain_inv (h : Inv e s) : Inv e s.drain := by
  unfold St.drain
  split
  · exact h
  · rename_i m rest hto
    apply h.pop
    · rw [← List.append_assoc]
      calc (rest ++ s.taken ++ s.lost ++ [m]).Perm (m :: (rest ++ s.taken ++ s.lost)) := List.perm_append_singleton m _
        _ = s.sent := by simp only [St.sent, hto, List.cons_append]
    · intro m' hm'
      rw [hto]
      exact List.mem_cons_of_mem m hm'

/-- a handler echoes or caches its message, and goes on towards Send -/
theorem Inv.shows {c : ℕ} {p : Worker} (h : Inv e s) (hholds : (s.worker (.client c)).holds = some m)
    (hp : p = .echoed m ∨ p = .cached m) (hworker : s'.worker = Function.update s.worker (.client c) p)
    (hpeers : ∀ d ≠ c, s'.peers d = s.peers d) (hto : s'.toNode = s.toNode) (htaken : s'.taken = s.taken)
    (hlost : s'.lost = s.lost) (hfresh : s'.fresh = s.fresh) (hrecorded : s'.recorded = s.recorded)
    (hmono : ∀ m', Shown s m' → Shown s' m') (hnew : ∀ m', Shown s' m' → Shown s m' ∨ m' = m)
    (hown : isTextPacket e.pb m.payload = true → Between e s' c m → Shown s' m)
    (hback : Shown s' m → Between e s' c m) : Inv e s' := by
  have hother {w : Who} (hw : w ≠ .client c) : s'.worker w = s.worker w := by rw [hworker, Function.update_of_ne hw]
  have hself : s'.worker (.client c) = p := by rw [hworker, Function.update_self]
  have hpholds : p.holds = some m := by rcases hp with rfl | rfl <;> rfl
  have hpaccepted (m' : Msg) : p ≠ .accepted m' := by
    rintro rfl
    rcases hp with hp | hp <;> cases hp
  have hsent : s'.sent = s.sent := by rw [St.sent, hto, htaken, hlost]; rfl
  have hmine {m' : Msg} (hb : Between e s' c m') : m' = m := by
    have := hb.holds
    rw [hself, hpholds] at this
    exact (Option.some.inj this).symm
  refine h.congr (by rw [hsent]) hfresh ?_ ?_ ?_ ?_ ?_
  · intro w
    by_cases hw : w = .client c
    · rw [hw, hself, hpholds, hholds]
    · rw [hother hw]
  · intro w m' hw'
    by_cases hw : w = .client c
    · rw [hw, hself] at hw'
      exact absurd hw' (hpaccepted m')
    · rwa [hother hw] at hw'
  · intro m' hm'
    rcases hnew m' hm' with hold | rfl
    · rcases h.shown m' hold with hin | ⟨d, hd⟩
      · exact Or.inl hin
      · by_cases hdc : d = c
        · subst hdc
          have := hd.holds
          rw [hholds] at this
          cases this
          exact Or.inr ⟨d, hback hm'⟩
        · exact Or.inr ⟨d, hd.congr (hother (by simpa using hdc)) (hpeers d hdc)⟩
    · exact Or.inr ⟨c, hback hm'⟩
  · intro d m' htext hb
    by_cases hdc : d = c
    · subst hdc
      obtain rfl := hmine hb
      exact hown htext hb
    · exact hmono m' (h.seen d m' htext (hb.congr (hother (by simpa using hdc)).symm (hpeers d hdc).symm))
  · intro m' hm' htext
    rw [hto, htaken] at hm'
    rcases h.kept m' hm' htext with hr | ⟨w, hw⟩
    · exact Or.inl (hrecorded ▸ hr)
    · refine Or.inr ⟨w, ?_⟩
      have hne : w ≠ .client c := by
        rintro rfl
        rw [hw] at hholds
        cases hholds
      rwa [hother hne]

/-- a message that its handler has just received is not shown -/
theorem Inv.unseen {c : ℕ} (h : Inv e s) (hw : s.worker (.client c) = .received m) : ¬Shown s m := by
  intro hm
  obtain ⟨d, hd, hb⟩ := h.between_of_shown (w := .client c) (by rw [hw]; rfl) hm
  cases hd
  rcases hb with ⟨hb, -⟩ | ⟨hb, -⟩ <;> rw [hw] at hb <;> cases hb

/-- one that it has echoed is shown only if there was a peer -/
theorem Inv.had_peers {c : ℕ} (h : Inv e s) (hw : s.worker (.client c) = .echoed m) (hm : Shown s m) :
    s.peers c ≠ [] := by
  obtain ⟨d, hd, hb⟩ := h.between_of_shown (w := .client c) (by rw [hw]; rfl) hm
  cases hd
  rcases hb with ⟨-, hne⟩ | ⟨hb, -⟩
  · exact hne
  · rw [hw] at hb
    cases hb

theorem echo_inv (hlaw : e.pb.PacketLaw) (h : Inv e s) (c : ℕ) (nodeNum now : UInt32) :
    Inv e (s.echo e c nodeNum now) := by
  unfold St.echo
  split
  · rename_i m hw
    have hholds : (s.worker (.client c)).holds = some m := by rw [hw]; rfl
    have hunseen := h.unseen hw
    have hpeers (d : ℕ) (hd : d ≠ c) : Function.update s.peers c (s.clients.filter (· ≠ c)) d = s.peers d :=
      Function.update_of_ne hd _ _
    simp only
    split
    · rename_i hnone
      refine h.shows hholds (Or.inl rfl) rfl hpeers rfl rfl rfl rfl rfl (fun _ hm => hm) (fun _ hm => Or.inl hm) ?_ ?_
      · intro htext
        obtain ⟨g, hg, -⟩ := meshPacketFrame_text hlaw nodeNum now htext
        rw [echoFrame, hg] at hnone
        cases hnone
      · exact fun hm => absurd hm hunseen
    · rename_i g hg
      refine h.shows hholds (Or.inl rfl) rfl hpeers rfl rfl rfl rfl rfl ?_ ?_ ?_ ?_
      · rintro m' (⟨c', f, hm⟩ | hm)
        · exact Or.inl ⟨c', f, List.mem_append_left _ hm⟩
        · exact Or.inr hm
      · rintro m' (⟨c', f, hm⟩ | hm)
        · rcases List.mem_append.1 hm with hm | hm
          · exact Or.inl (Or.inl ⟨c', f, hm⟩)
          · obtain ⟨c'', -, heq⟩ := List.mem_map.1 hm
            cases heq
            exact Or.inr rfl
        · exact Or.inl (Or.inr hm)
      · rintro - (⟨-, hne⟩ | ⟨hc, -⟩)
        · simp only [St.setWorker, Function.update_self] at hne
          obtain ⟨c', hc'⟩ := List.exists_mem_of_ne_nil _ hne
          exact Or.inl ⟨c', g, List.mem_append_right _ (List.mem_map.2 ⟨c', hc', rfl⟩)⟩
        · simp [St.setWorker] at hc
      · rintro (⟨c', f, hm⟩ | hm)
        · rcases List.mem_append.1 hm with hm | hm
          · exact absurd (Or.inl ⟨c', f, hm⟩) hunseen
          · obtain ⟨c'', hc'', -⟩ := List.mem_map.1 hm
            refine Or.inl ⟨by simp [St.setWorker], ?_⟩
            simp only [St.setWorker, Function.update_self]
            exact List.ne_nil_of_mem hc''
        · exact absurd (Or.inr hm) hunseen
  · exact h

theorem cache_inv (hlaw : e.pb.PacketLaw) (h : Inv e s) (c : ℕ) (nodeNum now : UInt32) :
    Inv e (s.cache e c nodeNum now) := by
  unfold St.cache
  split
  · rename_i m hw
    have hholds : (s.worker (.client c)).holds = some m := by rw [hw]; rfl
    have hseen (htext : isTextPacket e.pb m.payload = true) (hne : s.peers c ≠ []) : Shown s m :=
      h.seen c m htext (Or.inl ⟨hw, hne⟩)
    have hbetween {s' : St} (hs' : s'.worker (.client c) = .cached m) (hpeers : s'.peers c = s.peers c)
        (hsome : s.peers c ≠ [] ∨ 0 < e.maxChatCache) : Between e s' c m := by
      refine Or.inr ⟨hs', ?_⟩
      rintro ⟨hnil, hle⟩
      rw [hpeers] at hnil
      rcases hsome with hne | hlt
      · exact hne hnil
      · exact absurd hle (not_le.2 hlt)
    have hback {s' : St} (hs' : s'.worker (.client c) = .cached m) (hpeers : s'.peers c = s.peers c)
        (hm : Shown s m) : Between e s' c m := hbetween hs' hpeers (Or.inl (h.had_peers hw hm))
    have hself : (s.setWorker (.client c) (.cached m)).worker (.client c) = .cached m := by simp [St.setWorker]
    -- nothing has been appended: the cache is off, or the frame is no text message
    have quiet {s' : St} (hs' : s'.worker = (s.setWorker (.client c) (.cached m)).worker) (hpeers : s'.peers = s.peers)
        (hto : s'.toNode = s.toNode) (htaken : s'.taken = s.taken) (hlost : s'.lost = s.lost)
        (hfresh : s'.fresh = s.fresh) (hrecorded : s'.recorded = s.recorded) (hsame : ∀ m', Shown s' m' ↔ Shown s m')
        (hoff : isTextPacket e.pb m.payload = true → e.maxChatCache ≤ 0) : Inv e s' := by
      refine h.shows hholds (Or.inr rfl) hs' (fun d _ => by rw [hpeers]) hto htaken hlost hfresh hrecorded
        (fun m' hm => (hsame m').2 hm) (fun m' hm => Or.inl ((hsame m').1 hm)) ?_ ?_
      · rintro htext (⟨hc, -⟩ | ⟨-, hno⟩)
        · rw [hs', hself] at hc
          cases hc
        · refine (hsame m).2 (hseen htext fun hnil => hno ⟨?_, hoff htext⟩)
          rw [hpeers]
          exact hnil
      · intro hm
        exact hback (by rw [hs', hself]) (by rw [hpeers]) ((hsame m).1 hm)
    simp only
    split
    · rename_i hnone
      refine quiet rfl rfl rfl rfl rfl rfl rfl (fun _ => Iff.rfl) fun htext => ?_
      obtain ⟨g, hg, -⟩ := meshPacketFrame_text hlaw nodeNum now htext
      rw [toRadioToFromRadio, hg] at hnone
      cases hnone
    · rename_i g hg
      split_ifs with hgt hoff
      · exact quiet rfl rfl rfl rfl rfl rfl rfl (fun _ => Iff.rfl) fun _ => hoff
      · refine h.shows hholds (Or.inr rfl) rfl (fun d _ => rfl) rfl rfl rfl rfl rfl ?_ ?_ ?_ ?_
        · rintro m' (hm | ⟨f, hm⟩ | hm)
          · exact Or.inl hm
          · exact Or.inr (Or.inl ⟨f, List.mem_append_left _ hm⟩)
          · exact Or.inr (Or.inr hm)
        · rintro m' (hm | ⟨f, hm⟩ | hm)
          · exact Or.inl (Or.inl hm)
          · rcases List.mem_append.1 hm with hm | hm
            · exact Or.inl (Or.inr (Or.inl ⟨f, hm⟩))
            · cases List.mem_singleton.1 hm
              exact Or.inr rfl
          · exact Or.inl (Or.inr (Or.inr hm))
        · exact fun _ _ => Or.inr (Or.inl ⟨g, List.mem_append_right _ (List.mem_singleton_self _)⟩)
        · exact fun _ => hbetween hself rfl (Or.inr (not_le.1 hoff))
      · refine quiet rfl rfl rfl rfl rfl rfl rfl (fun _ => Iff.rfl) fun htext => ?_
        obtain ⟨g', hg', htrue⟩ := meshPacketFrame_text hlaw nodeNum now htext
        rw [toRadioToFromRadio, hg'] at hg
        cases hg
        exact absurd htrue hgt
  · exact h

/-- a text packet is a chat message for Send -/
theorem extractChatMessage_text {pb : Codec} {payload : Bytes} (htext : isTextPacket pb payload = true) :
    extractChatMessageFromToRadio pb payload ≠ none := by
  obtain ⟨pkt, rest, d, hu, hd, hport⟩ := isTextPacket_decoded htext
  simp [extractChatMessageFromToRadio, hu, hd, hport]

theorem record_inv (h : Inv e s) (w : Who) (nodeNum : UInt32) : Inv e (s.record e w nodeNum) := by
  unfold St.record
  split
  · rename_i m hw
    have hholds := holds_setWorker (s := s) (w := w) (p := .idle) (by rw [hw]; rfl)
    have haccepted := accepted_setWorker (s := s) (w := w) (p := .idle) nofun
    have hbetween (c : ℕ) (m' : Msg) : Between e (s.setWorker w .idle) c m' ↔ Between e s c m' := by
      by_cases hc : Who.client c = w
      · subst hc
        simp [Between, St.setWorker, hw]
      · simp [Between, NoAudience, St.setWorker, hc]
    have hshown (m' : Msg) (hm' : Shown s m') : m' ∈ s.sent ∨ ∃ c, Between e (s.setWorker w .idle) c m' :=
      (h.shown m' hm').imp_right fun ⟨c, hc⟩ => ⟨c, (hbetween c m').2 hc⟩
    have hother {m' : Msg} (hr : Recorded s m') : Recorded (s.setWorker w .idle) m' ∨ m' = m := by
      rcases hr with hr | ⟨w', hw'⟩
      · exact Or.inl (Or.inl hr)
      · by_cases hww : w' = w
        · rw [hww, hw] at hw'
          cases hw'
          exact Or.inr rfl
        · exact Or.inl (Or.inr ⟨w', by simpa [St.setWorker, hww] using hw'⟩)
    simp only
    split
    · rename_i hnone
      refine h.congr (List.Perm.refl _) rfl hholds haccepted hshown
        (fun c m' htext hb => h.seen c m' htext ((hbetween c m').1 hb)) fun m' hm' htext => ?_
      refine (hother (h.kept m' hm' htext)).resolve_right ?_
      rintro rfl
      exact extractChatMessage_text htext hnone
    · rename_i chat _
      have hmono {m' : Msg} (hm' : Shown s m') (r : ChatMessageData) : Shown { s.setWorker w .idle with
          recorded := s.recorded ++ [(m, r)] } m' := by
        rcases hm' with hm' | hm' | ⟨r', hm'⟩
        · exact Or.inl hm'
        · exact Or.inr (Or.inl hm')
        · exact Or.inr (Or.inr ⟨r', List.mem_append_left _ hm'⟩)
      refine h.congr (List.Perm.refl _) rfl hholds haccepted ?_
        (fun c m' htext hb => hmono (h.seen c m' htext ((hbetween c m').1 hb)) _) ?_
      · rintro m' (hm' | hm' | ⟨r, hm'⟩)
        · exact hshown m' (Or.inl hm')
        · exact hshown m' (Or.inr (Or.inl hm'))
        · rcases List.mem_append.1 hm' with hm' | hm'
          · exact hshown m' (Or.inr (Or.inr ⟨r, hm'⟩))
          · cases List.mem_singleton.1 hm'
            exact Or.inl (h.accepted w m hw)
      · intro m' hm' htext
        rcases hother (h.kept m' hm' htext) with (⟨r, hr⟩ | hr) | rfl
        · exact Or.inl ⟨r, List.mem_append_left _ hr⟩
        · exact Or.inr hr
        · exact Or.inl ⟨_, List.mem_append_right _ (List.mem_singleton_self _)⟩
  · exact h

/-! ## New messages, and Send -/

theorem newMessage_inv {pc : Msg → Worker} (h : Inv e s) (hidle : s.worker w = .idle) (hpc : ∀ m, (pc m).holds = some m)
    (hstart : ∀ c m, w = .client c → pc m = .received m) (sender : Option ℕ) (f : Bytes) :
    Inv e (s.newMessage w pc sender f) := by
  have hworker (w' : Who) : (s.newMessage w pc sender f).worker w' =
      if w' = w then pc ⟨s.fresh, sender, f⟩ else s.worker w' := by
    simp [St.newMessage, St.setWorker, Function.update_apply]
  have hbetween (c : ℕ) (m : Msg) : Between e (s.newMessage w pc sender f) c m ↔ Between e s c m := by
    have hpeers : (s.newMessage w pc sender f).peers = s.peers := rfl
    by_cases hc : Who.client c = w
    · simp only [Between, NoAudience, hworker, hpeers, hstart c _ hc.symm, hc, hidle]
      simp
    · simp only [Between, NoAudience, hworker, if_neg hc, hpeers]
  refine ⟨h.nodup, ?_, ?_, ?_, ?_, ?_, ?_, ?_⟩
  · intro m hm
    exact (h.bound m hm).trans (Nat.lt_succ_self _)
  · intro w' m hw'
    rw [hworker] at hw'
    split_ifs at hw' with heq
    · rw [hpc] at hw'
      cases hw'
      exact ⟨Nat.lt_succ_self _, fun m' hm' => (h.bound m' hm').ne⟩
    · obtain ⟨hlt, hne⟩ := h.held w' m hw'
      exact ⟨hlt.trans (Nat.lt_succ_self _), hne⟩
  · -- the new number is above all that are held
    intro w₁ w₂ m₁ m₂ hne hw₁ hw₂
    rw [hworker] at hw₁ hw₂
    split_ifs at hw₁ hw₂ with h₁ h₂ h₂
    · exact absurd (h₁.trans h₂.symm) hne
    · rw [hpc] at hw₁
      cases hw₁
      exact (h.held w₂ m₂ hw₂).1.ne'
    · rw [hpc] at hw₂
      cases hw₂
      exact (h.held w₁ m₁ hw₁).1.ne
    · exact h.apart w₁ w₂ m₁ m₂ hne hw₁ hw₂
  · intro w' m hw'
    rw [hworker] at hw'
    split_ifs at hw' with heq
    · have hno := hpc ⟨s.fresh, sender, f⟩
      rw [hw'] at hno
      cases hno
    · exact h.accepted w' m hw'
  · intro m hm
    exact (h.shown m hm).imp_right fun ⟨c, hc⟩ => ⟨c, (hbetween c m).2 hc⟩
  · exact fun c m htext hb => h.seen c m htext ((hbetween c m).1 hb)
  · intro m hm htext
    rcases h.kept m hm htext with hr | ⟨w', hw'⟩
    · exact Or.inl hr
    · refine Or.inr ⟨w', ?_⟩
      have hne : w' ≠ w := by
        rintro rfl
        rw [hidle] at hw'
        cases hw'
      rwa [hworker, if_neg hne]

/-- Send has the message now, in toNode or lost -/
theorem Inv.handOver {p : Worker} (h : Inv e s) (hw : s.worker w = .cached m) (hp : p = .accepted m ∨ p = .idle)
    (hsent : s'.sent.Perm (m :: s.sent)) (hfresh : s'.fresh = s.fresh) (hworker : s'.worker = Function.update s.worker w p)
    (hpeers : s'.peers = s.peers) (hshown : ∀ m', Shown s' m' ↔ Shown s m') (hrecorded : s'.recorded = s.recorded)
    (hto : ∀ m' ∈ s'.toNode ++ s'.taken, m' ∈ s.toNode ++ s.taken ∨ (m' = m ∧ p = .accepted m)) : Inv e s' := by
  have hheld : (s.worker w).holds = some m := by rw [hw]; rfl
  have hnone : p.holds = none := by rcases hp with rfl | rfl <;> rfl
  obtain ⟨hlt, hfree⟩ := h.held w m hheld
  have hother {w' : Who} (hne : w' ≠ w) : s'.worker w' = s.worker w' := by
    rw [hworker, Function.update_of_ne hne]
  have hne_of_holds {w' : Who} {m' : Msg} (hw' : (s'.worker w').holds = some m') : w' ≠ w := by
    rintro rfl
    rw [hworker, Function.update_self, hnone] at hw'
    cases hw'
  refine ⟨?_, ?_, ?_, ?_, ?_, ?_, ?_, ?_⟩
  · rw [(hsent.map Msg.id).nodup_iff, List.map_cons, List.nodup_cons]
    refine ⟨?_, h.nodup⟩
    intro hmem
    obtain ⟨m', hm', hid⟩ := List.mem_map.1 hmem
    exact hfree m' hm' hid
  · intro m' hm'
    rw [hfresh]
    rcases List.mem_cons.1 (hsent.mem_iff.1 hm') with rfl | hm'
    · exact hlt
    · exact h.bound m' hm'
  · intro w' m' hw'
    have hne := hne_of_holds hw'
    rw [hother hne] at hw'
    obtain ⟨hlt', hfree'⟩ := h.held w' m' hw'
    refine ⟨hfresh ▸ hlt', fun x hx => ?_⟩
    rcases List.mem_cons.1 (hsent.mem_iff.1 hx) with rfl | hx
    · exact h.apart w w' x m' hne.symm hheld hw'
    · exact hfree' x hx
  · intro w₁ w₂ m₁ m₂ hne hw₁ hw₂
    rw [hother (hne_of_holds hw₁)] at hw₁
    rw [hother (hne_of_holds hw₂)] at hw₂
    exact h.apart w₁ w₂ m₁ m₂ hne hw₁ hw₂
  · intro w' m' hw'
    apply hsent.mem_iff.2
    by_cases heq : w' = w
    · rw [heq, hworker, Function.update_self] at hw'
      rcases hp with rfl | rfl <;> cases hw'
      exact List.mem_cons_self
    · rw [hother heq] at hw'
      exact List.mem_cons_of_mem m (h.accepted w' m' hw')
  · intro m' hm'
    rcases h.shown m' ((hshown m').1 hm') with hin | ⟨c, hc⟩
    · exact Or.inl (hsent.mem_iff.2 (List.mem_cons_of_mem m hin))
    · by_cases heq : Who.client c = w
      · have hmine := hc.holds
        rw [heq, hheld] at hmine
        cases hmine
        exact Or.inl (hsent.mem_iff.2 List.mem_cons_self)
      · exact Or.inr ⟨c, hc.congr (hother heq) (by rw [hpeers])⟩
  · intro c m' htext hb
    have hne : Who.client c ≠ w := hne_of_holds hb.holds
    exact (hshown m').2 (h.seen c m' htext (hb.congr (hother hne).symm (by rw [hpeers])))
  · intro m' hm' htext
    rcases hto m' hm' with hold | ⟨rfl, rfl⟩
    · rcases h.kept m' hold htext with hr | ⟨w', hw'⟩
      · exact Or.inl (hrecorded ▸ hr)
      · refine Or.inr ⟨w', ?_⟩
        have hne : w' ≠ w := by
          rintro rfl
          rw [hw] at hw'
          cases hw'
        rwa [hother hne]
    · exact Or.inr ⟨w, by rw [hworker, Function.update_self]⟩

theorem send_inv (h : Inv e s) (w : Who) : Inv e (s.send e w) := by
  unfold St.send
  split
  · rename_i m hw
    split_ifs
    · refine h.handOver hw (Or.inl rfl) ?_ rfl rfl rfl (fun _ => Iff.rfl) rfl ?_
      · simp only [St.sent, St.setWorker, List.append_assoc, List.singleton_append]
        exact List.perm_middle
      · intro m' hm'
        simp only [St.setWorker, List.mem_append, List.mem_singleton] at hm' ⊢
        tauto
    · refine h.handOver hw (Or.inr rfl) ?_ rfl rfl rfl (fun _ => Iff.rfl) rfl (fun m' hm' => Or.inl hm')
      simp only [St.sent, St.setWorker]
      rw [← List.append_assoc]
      exact List.perm_append_singleton m _
  · exact h

theorem receive_inv (h : Inv e s) (c : ℕ) (f : Bytes) : Inv e (s.receive e c f) := by
  unfold St.receive
  split
  · rename_i hidle
    split
    · exact h
    · exact ⟨h.nodup, h.bound, h.held, h.apart, h.accepted, h.shown, h.seen, h.kept⟩
    · exact newMessage_inv h hidle (fun _ => rfl) (fun _ _ _ => rfl) _ f
  · exact h

theorem call_inv (h : Inv e s) (g : ℕ) (f : Bytes) : Inv e (s.call g f) := by
  unfold St.call
  split
  · rename_i hidle
    exact newMessage_inv h hidle (fun _ => rfl) (fun _ _ hc => nomatch hc) _ f
  · exact h

theorem step_inv (hlaw : e.pb.PacketLaw) (h : Inv e s) (a : Act) : Inv e (step e s a) := by
  cases a with
  | register c =>
    simp only [step]
    split_ifs
    · exact h
    · exact ⟨h.nodup, h.bound, h.held, h.apart, h.accepted, h.shown, h.seen, h.kept⟩
  | close c => exact ⟨h.nodup, h.bound, h.held, h.apart, h.accepted, h.shown, h.seen, h.kept⟩
  | receive c f => exact receive_inv h c f
  | call g f => exact call_inv h g f
  | echo c nodeNum now => exact echo_inv hlaw h c nodeNum now
  | cache c nodeNum now => exact cache_inv hlaw h c nodeNum now
  | send w => exact send_inv h w
  | record w nodeNum => exact record_inv h w nodeNum
  | take => exact take_inv h
  | drain => exact drain_inv h

/-! ## Nothing lost is shown -/

theorem Inv.notMem_lost (h : Inv e s) (hw : (s.worker w).holds = some m) : m ∉ s.lost := by
  intro hm
  exact (h.held w m hw).2 m (List.mem_append_right _ hm) rfl

theorem Clean.mono (h : Clean e s) (hlost : s'.lost = s.lost)
    (hshown : ∀ m ∈ s.lost, isTextPacket e.pb m.payload = true → Shown s' m → Shown s m)
    (haccepted : ∀ m ∈ s.lost, ∀ w, s'.worker w = .accepted m → s.worker w = .accepted m) : Clean e s' := by
  intro m hm htext
  rw [hlost] at hm
  obtain ⟨h1, h2⟩ := h m hm htext
  exact ⟨fun hs => h1 (hshown m hm htext hs), fun w hw => h2 w (haccepted m hm w hw)⟩

theorem echo_clean (hinv : Inv e s) (h : Clean e s) (c : ℕ) (nodeNum now : UInt32) : Clean e (s.echo e c nodeNum now) := by
  unfold St.echo
  split
  · rename_i m hw
    have hlost : m ∉ s.lost := hinv.notMem_lost (w := .client c) (by rw [hw]; rfl)
    have haccepted := accepted_setWorker (s := s) (w := .client c) (p := .echoed m) nofun
    simp only
    split
    · exact h.mono rfl (fun _ _ _ hs => hs) (fun m' _ w => haccepted w m')
    · refine h.mono rfl ?_ (fun m' _ w => haccepted w m')
      rintro m' hm' - (⟨c', f, hx⟩ | hs)
      · rcases List.mem_append.1 hx with hx | hx
        · exact Or.inl ⟨c', f, hx⟩
        · obtain ⟨c'', -, heq⟩ := List.mem_map.1 hx
          cases heq
          exact absurd hm' hlost
      · exact Or.inr hs
  · exact h

theorem cache_clean (hinv : Inv e s) (h : Clean e s) (c : ℕ) (nodeNum now : UInt32) : Clean e (s.cache e c nodeNum now) := by
  unfold St.cache
  split
  · rename_i m hw
    have hlost : m ∉ s.lost := hinv.notMem_lost (w := .client c) (by rw [hw]; rfl)
    have haccepted := accepted_setWorker (s := s) (w := .client c) (p := .cached m) nofun
    simp only
    split
    · exact h.mono rfl (fun _ _ _ hs => hs) (fun m' _ w => haccepted w m')
    · split_ifs
      · exact h.mono rfl (fun _ _ _ hs => hs) (fun m' _ w => haccepted w m')
      · refine h.mono rfl ?_ (fun m' _ w => haccepted w m')
        rintro m' hm' - (hs | ⟨f, hx⟩ | hs)
        · exact Or.inl hs
        · rcases List.mem_append.1 hx with hx | hx
          · exact Or.inr (Or.inl ⟨f, hx⟩)
          · cases List.mem_singleton.1 hx
            exact absurd hm' hlost
        · exact Or.inr (Or.inr hs)
      · exact h.mono rfl (fun _ _ _ hs => hs) (fun m' _ w => haccepted w m')
  · exact h

theorem record_clean (h : Clean e s) (w : Who) (nodeNum : UInt32) : Clean e (s.record e w nodeNum) := by
  unfold St.record
  split
  · rename_i m hw
    have haccepted := accepted_setWorker (s := s) (w := w) (p := .idle) nofun
    simp only
    split
    · exact h.mono rfl (fun _ _ _ hs => hs) (fun m' _ w' => haccepted w' m')
    · refine h.mono rfl ?_ (fun m' _ w' => haccepted w' m')
      rintro m' hm' htext (hs | hs | ⟨r, hx⟩)
      · exact Or.inl hs
      · exact Or.inr (Or.inl hs)
      · rcases List.mem_append.1 hx with hx | hx
        · exact Or.inr (Or.inr ⟨r, hx⟩)
        · cases List.mem_singleton.1 hx
          exact absurd hw ((h _ hm' htext).2 w)
  · exact h

/-- a message before Send has been shown only by its handler, to an audience -/
theorem Inv.shown_before_send (hinv : Inv e s) (hw : s.worker w = .cached m) (hm : Shown s m) :
    ∃ c, w = .client c ∧ ¬NoAudience e s c := by
  obtain ⟨c, rfl, hb⟩ := hinv.between_of_shown (by rw [hw]; rfl) hm
  refine ⟨c, rfl, ?_⟩
  rcases hb with ⟨hb, -⟩ | ⟨-, hno⟩
  · rw [hw] at hb
    cases hb
  · exact hno

theorem send_clean (hinv : Inv e s) (h : Clean e s) (hloss : NoLoss e s (.send w)) : Clean e (s.send e w) := by
  unfold St.send
  split
  · rename_i m hw
    have hheld : (s.worker w).holds = some m := by rw [hw]; rfl
    split_ifs with hroom
    · refine h.mono rfl (fun _ _ _ hs => hs) ?_
      intro m' hm' w' hw'
      by_cases heq : w' = w
      · subst heq
        simp only [St.setWorker, Function.update_self] at hw'
        cases hw'
        exact absurd hm' (hinv.notMem_lost hheld)
      · simpa [St.setWorker, heq] using hw'
    · intro m' hm' htext
      have haccepted := accepted_setWorker (s := s) (w := w) (p := .idle) nofun
      rcases List.mem_append.1 hm' with hm' | hm'
      · obtain ⟨h1, h2⟩ := h m' hm' htext
        exact ⟨h1, fun w' hw' => h2 w' (haccepted w' m' hw')⟩
      · rw [List.mem_singleton.1 hm'] at htext ⊢
        refine ⟨fun hs => ?_, fun w' hw' => ?_⟩
        · obtain ⟨c, rfl, hno⟩ := hinv.shown_before_send hw hs
          exact hno ((hloss m hw htext).resolve_left hroom)
        · have hin := hinv.accepted w' m (haccepted w' m hw')
          exact (hinv.held w m hheld).2 m hin rfl
  · exact h

theorem drain_clean (h : Clean e s) (hloss : NoLoss e s .drain) : Clean e s.drain := by
  unfold St.drain
  split
  · exact h
  · rename_i m rest hto
    intro m' hm' htext
    rcases List.mem_append.1 hm' with hm' | hm'
    · exact h m' hm' htext
    · rw [List.mem_singleton.1 hm', hloss m rest hto] at htext
      cases htext

theorem step_clean {a : Act} (hinv : Inv e s) (h : Clean e s) (hloss : NoLoss e s a) : Clean e (step e s a) := by
  cases a with
  | register c =>
    simp only [step]
    split_ifs <;> exact h
  | close c => exact h
  | receive c f =>
    simp only [step, St.receive]
    split
    · split
      · exact h
      · exact h
      · exact h.mono rfl (fun _ _ _ hs => hs) (fun m _ w => accepted_setWorker (by intro m'; nofun) w m)
    · exact h
  | call g f =>
    simp only [step, St.call]
    split
    · exact h.mono rfl (fun _ _ _ hs => hs) (fun m _ w => accepted_setWorker (by intro m'; nofun) w m)
    · exact h
  | echo c nodeNum now => exact echo_clean hinv h c nodeNum now
  | cache c nodeNum now => exact cache_clean hinv h c nodeNum now
  | send w => exact send_clean hinv h hloss
  | record w nodeNum => exact record_clean h w nodeNum
  | take =>
    simp only [step, St.take]
    split <;> exact h
  | drain => exact drain_clean h hloss

/-- **Outside the condition** a text message is lost that has been shown, or is about to be recorded. -/
theorem clean_breaks {a : Act} (hinv : Inv e s) (hloss : ¬NoLoss e s a) : ¬Clean e (step e s a) := by
  cases a with
  | send w =>
    cases w with
    | other g => exact absurd trivial hloss
    | client c =>
      simp only [NoLoss, not_forall, not_or] at hloss
      obtain ⟨m, hw, htext, hfull, hno⟩ := hloss
      have hshown : Shown s m := hinv.seen c m htext (Or.inr ⟨hw, hno⟩)
      intro h
      simp only [step, St.send, hw, if_neg hfull] at h
      exact (h m (List.mem_append_right _ (List.mem_singleton_self m)) htext).1 hshown
  | drain =>
    simp only [NoLoss, not_forall] at hloss
    obtain ⟨m, rest, hto, htext⟩ := hloss
    have hrecorded : Recorded s m :=
      hinv.kept m (List.mem_append_left _ (by rw [hto]; exact List.mem_cons_self)) (by simpa using htext)
    intro h
    simp only [step, St.drain, hto] at h
    obtain ⟨h1, h2⟩ := h m (List.mem_append_right _ (List.mem_singleton_self m)) (by simpa using htext)
    rcases hrecorded with hr | ⟨w, hw⟩
    · exact h1 (Or.inr (Or.inr hr))
    · exact h2 w hw
  | _ => exact absurd trivial hloss

/-! ## Shown as sent -/

variable (e)

/-- **Shown as sent.** Nothing lost is shown in any state of a run, or is about to be, exactly if in every step of it Send
finds room for a client's text message that had an audience, and drainChannels discards no text message. Then every text
message that has been echoed, cached or recorded is in toNode or was taken by a writeLoop, exactly if no handler stands
between showing a text message and its Send. -/
theorem shown_as_sent (hlaw : e.pb.PacketLaw) (as : List Act) :
    ((∀ bs, bs <+: as → Clean e (run (step e) init bs)) ↔ Along (step e) (NoLoss e) init as) ∧
    (Along (step e) (NoLoss e) init as →
      ((∀ m, isTextPacket e.pb m.payload = true → Shown (run (step e) init as) m →
          m ∈ (run (step e) init as).toNode ∨ m ∈ (run (step e) init as).taken) ↔
        ∀ c m, isTextPacket e.pb m.payload = true → ¬Between e (run (step e) init as) c m)) := by
  have hstep : ∀ s a, Inv e s ∧ Clean e s → NoLoss e s a → Inv e (step e s a) ∧ Clean e (step e s a) :=
    fun s a hs ha => ⟨step_inv hlaw hs.1 a, step_clean hs.1 hs.2 ha⟩
  have hstart : Inv e init ∧ Clean e init := ⟨inv_init e, nofun⟩
  refine ⟨prefixes_iff_along (fun s hs => hs.2) hstep (fun s a hs ha => clean_breaks hs.1 ha) hstart, fun h => ?_⟩
  obtain ⟨hinv, hclean⟩ := run_inv (I := fun s => Inv e s ∧ Clean e s) hstep hstart h
  generalize run (step e) init as = s at hinv hclean
  constructor
  · intro hall c m htext hb
    have hin : m ∈ s.sent := by
      rcases hall m htext (hinv.seen c m htext hb) with hm | hm
      · exact List.mem_append_left _ (List.mem_append_left _ hm)
      · exact List.mem_append_left _ (List.mem_append_right _ hm)
    exact (hinv.held _ m hb.holds).2 m hin rfl
  · intro hnone m htext hshown
    rcases hinv.shown m hshown with hin | ⟨c, hc⟩
    · rcases List.mem_append.1 hin with hin | hlost
      · exact List.mem_append.1 hin
      · exact absurd hshown (hclean m hlost htext).1
    · exact absurd hc (hnone c m htext)

/-! ### A text message for a full channel -/

def heartbeat : Bytes := [0x3A, 0]

/-- room for one frame in toNode -/
def textEnv : Env := ⟨Hub.hiCodec, 10, 1⟩

/-- clients 1 and 2 are connected, and client 1 sends a text message -/
def textSent : List Act :=
  [.register 1, .register 2, .receive 1 Hub.hiToRadio, .echo 1 9 100, .cache 1 9 100, .send (.client 1)]

theorem textSent_noLoss : Along (step textEnv) (NoLoss textEnv) init textSent := by
  refine ⟨trivial, trivial, trivial, trivial, trivial, ?_, trivial⟩
  exact fun m _ _ => Or.inl (by decide +kernel)

/-- afterwards nobody stands between showing and Send -/
theorem textSent_worker (c : ℕ) (m : Msg) : ¬Between textEnv (run (step textEnv) init textSent) c m := by
  have hidle : ∀ w, ((run (step textEnv) init textSent).worker w).holds = none := by
    intro w
    match w with
    | .other g => rfl
    | .client 0 => rfl
    | .client 1 => rfl
    | .client (c + 2) => rfl
  intro h
  have := h.holds
  rw [hidle] at this
  cases this

/-- with room in toNode the message is echoed to client 2, cached, and queued -/
theorem shown_as_sent_with_room :
    Shown (run (step textEnv) init textSent) ⟨0, some 1, Hub.hiToRadio⟩ ∧
      (⟨0, some 1, Hub.hiToRadio⟩ ∈ (run (step textEnv) init textSent).toNode ∨
        ⟨0, some 1, Hub.hiToRadio⟩ ∈ (run (step textEnv) init textSent).taken) := by
  have hshown : Shown (run (step textEnv) init textSent) ⟨0, some 1, Hub.hiToRadio⟩ :=
    Or.inl ⟨2, Hub.hiFromRadio 9 100, by decide +kernel⟩
  have h := (shown_as_sent textEnv Hub.hiCodec_packetLaw textSent).2 textSent_noLoss
  exact ⟨hshown, h.2 (fun c m _ => textSent_worker c m) _ (by decide +kernel) hshown⟩

/-- a heartbeat fills toNode: the message is echoed to client 2 and cached, and Send drops it -/
theorem shown_and_dropped :
    let s := run (step textEnv) init ([.call 0 heartbeat, .send (.other 0), .record (.other 0) 9] ++ textSent)
    s.echoes = [(2, ⟨1, some 1, Hub.hiToRadio⟩, Hub.hiFromRadio 9 100)] ∧
    s.cached = [(⟨1, some 1, Hub.hiToRadio⟩, Hub.hiFromRadio 9 100)] ∧
    s.chat.map ChatEntry.message = [Hub.hiFromRadio 9 100] ∧ s.lost = [⟨1, some 1, Hub.hiToRadio⟩] ∧
    s.toNode = [⟨0, none, heartbeat⟩] ∧ s.taken = [] := by
  decide +kernel

end MeshProxy.Outgoing
