/-
From the clients to the node (`internal/proxy`: readLoop, the onMessage handler), over the machine of HubTraffic.

A readLoop takes in one frame at a time, its handler works on it and passes it to nodeConn.Send. The handler holds at
most one frame back, so what has been offered to nodeConn.Send for a client, and then the frame in its handler's hands,
is what its readLoop has read without the intercepted frames. Whether the frame in its hands is ever offered is a matter
of the echo, which runs under the read lock of p.mu.

- `upstream_multiplexing`: the equation in every run; in a fair run in which no broadcast or echo meets a full channel the
  handler's hands are empty again and again;
- `read_and_never_offered`: outside it, an echo to a slow consumer does not return, and its frame is never offered.
-/
import MeshProxy.Proxy.HubDelivery
import MeshProxy.Proxy.HubTraffic

namespace MeshProxy.HubTraffic

open MeshProxy.Proto MeshProxy.ChatCache MeshProxy.ConfigReplay MeshProxy.Trace
open MeshProxy.HubLocks (Params Stuck smallParams)
open MeshProxy.Hub (Env intercepted hiEnv hiToRadio)
open MeshProxy.Frame (Bytes)

/-- the payload a handler is working on -/
def Handler.payload : Handler → List Bytes
  | .idle => []
  | .received f | .echoed f | .cached f => [f]

/-- the step in which a client's readLoop calls onMessage, with the payload it read -/
def reads (s : State) : Act → List (ℕ × Bytes)
  | .read c f => if c ∈ s.hub.started ∧ s.handler c = .idle ∧ s.hub.stack (reader c) = [] then [(c, f)] else []
  | _ => []

/-- the frames of one client -/
def ofClient (c : ℕ) (l : List (ℕ × Bytes)) : List Bytes := (l.filter fun x => x.1 = c).map Prod.snd

@[simp] theorem ofClient_nil (c : ℕ) : ofClient c [] = [] := rfl

@[simp] theorem ofClient_append (c : ℕ) (l l' : List (ℕ × Bytes)) : ofClient c (l ++ l') = ofClient c l ++ ofClient c l' := by
  simp [ofClient]

@[simp] theorem ofClient_own (c : ℕ) (f : Bytes) : ofClient c [(c, f)] = [f] := by simp [ofClient]

theorem ofClient_other {c d : ℕ} (h : d ≠ c) (f : Bytes) : ofClient c [(d, f)] = [] := by simp [ofClient, h]

theorem mem_ofClient {c : ℕ} {f : Bytes} {l : List (ℕ × Bytes)} : f ∈ ofClient c l ↔ (c, f) ∈ l := by simp [ofClient]

variable (p : Params) (e : Env)

/-- the payloads a client's readLoop has read in a run, without the intercepted ones -/
def toForward (c : ℕ) (as : List Act) : List Bytes :=
  (ofClient c (emitted (step p e) reads init as)).filter fun f => !intercepted e.pb f

/-! ## One step -/

variable {p e} {s : State}

theorem setHandler_payload (c d : ℕ) (h : Handler) (hsame : h.payload = (s.handler d).payload) :
    ((s.setHandler d h).handler c).payload = (s.handler c).payload := by
  by_cases hd : c = d
  · subst hd
    simpa [State.setHandler] using hsame
  · simp [State.setHandler, hd]

/-- a handler that goes on holds its frame, or offers it -/
theorem handlerNext_frames (c d : ℕ) (nodeNum now : UInt32) :
    ofClient c (s.handlerNext e d nodeNum now).toNode ++ ((s.handlerNext e d nodeNum now).handler c).payload =
      ofClient c s.toNode ++ (s.handler c).payload := by
  unfold State.handlerNext
  split
  · rfl
  · rename_i f hf
    have hsame := setHandler_payload (s := s) c d (.echoed f) (by rw [hf]; rfl)
    dsimp only
    split
    · exact congrArg (ofClient c s.toNode ++ ·) hsame
    · exact congrArg (ofClient c s.toNode ++ ·) hsame
  · rename_i f hf
    have hsame := setHandler_payload (s := s) c d (.cached f) (by rw [hf]; rfl)
    dsimp only
    split
    · split_ifs
      · exact congrArg (ofClient c s.toNode ++ ·) hsame
      · exact congrArg (ofClient c s.toNode ++ ·) hsame
    · exact congrArg (ofClient c s.toNode ++ ·) hsame
  · rename_i f hf
    by_cases hd : d = c
    · subst hd
      simp [State.setHandler, hf, Handler.payload]
    · simp [State.setHandler, Ne.symm hd, ofClient_other hd]

theorem loopNext_toNode : (s.loopNext e).toNode = s.toNode := by
  unfold State.loopNext
  split
  · rfl
  · split_ifs
    · rfl
    · split <;> rfl
  · rfl

theorem read_frames (c d : ℕ) (f : Bytes) :
    ofClient c (s.read e d f).toNode ++ ((s.read e d f).handler c).payload =
      ofClient c s.toNode ++ (s.handler c).payload ++
        (ofClient c (reads s (.read d f))).filter fun f => !intercepted e.pb f := by
  simp only [State.read, reads]
  by_cases hg : d ∈ s.hub.started ∧ s.handler d = .idle ∧ s.hub.stack (reader d) = []
  · rw [if_pos hg, if_pos hg]
    split
    · rename_i hu
      by_cases hd : d = c
      · subst hd
        simp [intercepted, hu]
      · simp [ofClient_other hd]
    · rename_i hu
      by_cases hd : d = c
      · subst hd
        simp [intercepted, hu]
      · simp [ofClient_other hd]
    · rename_i hw hdis
      have hint : intercepted e.pb f = false := by
        unfold intercepted
        split
        · rename_i hu; exact absurd hu (hw _ _)
        · rename_i hu; exact absurd hu (hdis _ _)
        · rfl
      by_cases hd : d = c
      · subst hd
        simp [State.setHandler, Handler.payload, hg.2.1, hint]
      · simp [State.setHandler, Ne.symm hd, ofClient_other hd]
  · rw [if_neg hg, if_neg hg]
    simp

/-- **One step.** What is read and not intercepted is held by the handler, and what it passes on is offered. -/
theorem step_frames (a : Act) (c : ℕ) :
    ofClient c (step p e s a).toNode ++ ((step p e s a).handler c).payload =
      ofClient c s.toNode ++ (s.handler c).payload ++ (ofClient c (reads s a)).filter fun f => !intercepted e.pb f := by
  cases a with
  | exec g order nodeNum now =>
    simp only [reads, ofClient_nil, List.filter_nil, List.append_nil, step, State.exec]
    split_ifs
    · cases routine g with
      | loop =>
        dsimp only
        rw [loopNext_toNode, loopNext_handler]
      | reader d => exact handlerNext_frames c d nodeNum now
      | other => rfl
    · rfl
  | receive f =>
    simp only [reads, ofClient_nil, List.filter_nil, List.append_nil, step, State.receive]
    split_ifs <;> rfl
  | read d f => exact read_frames c d f
  | call g f =>
    simp only [reads, ofClient_nil, List.filter_nil, List.append_nil, step, State.call]
    split_ifs <;> rfl
  | take d => simp [reads, step]

theorem ofClient_emitted (c : ℕ) (out : State → Act → List (ℕ × Bytes)) (s : State) (as : List Act) :
    emitted (step p e) (fun s a => ofClient c (out s a)) s as = ofClient c (emitted (step p e) out s as) := by
  simp only [ofClient]
  rw [emitted_map, emitted_filter]

theorem run_frames (as : List Act) (c : ℕ) :
    ofClient c (run (step p e) init as).toNode ++ ((run (step p e) init as).handler c).payload = toForward p e c as := by
  have h := @emitted_log State Act (step p e) Bytes
    (fun s a => (ofClient c (reads s a)).filter fun f => !intercepted e.pb f)
    (fun s => ofClient c s.toNode ++ (s.handler c).payload) (fun s a => step_frames a c) init as
  rwa [emitted_filter, ofClient_emitted] at h

theorem intercepted_of_mem_toForward {c : ℕ} {as : List Act} {f : Bytes} (hf : f ∈ toForward p e c as) :
    intercepted e.pb f = false := by
  simpa using (List.mem_filter.1 hf).2

/-! ## A handler that waits for itself -/

/-- the echo of a frame holds the read lock and waits for it: nothing changes for this client any more -/
structure Waiting (c : ℕ) (f : Bytes) (sent : List Bytes) (s : State) : Prop where
  lock : ∃ k, Stuck (reader c) k s.hub
  handler : s.handler c = .echoed f
  sent : ofClient c s.toNode = sent

theorem step_waiting {c : ℕ} {f : Bytes} {sent : List Bytes} (h : Waiting c f sent s) (a : Act) :
    Waiting c f sent (step p e s a) := by
  obtain ⟨k, hk⟩ := h.lock
  have hhandler : (step p e s a).handler c = .echoed f := by
    by_cases hact : Acts (reader c) a
    · obtain ⟨order, nodeNum, now, rfl⟩ := hact
      rw [step, exec_busy (by rw [hk.stack]; simp)]
      exact h.handler
    · rw [(step_handler_busy (by rw [h.handler]; simp) hact).1]
      exact h.handler
  have hreads : ofClient c (reads s a) = [] := by
    cases a with
    | read d f' =>
      simp only [reads]
      split_ifs with hg
      · refine ofClient_other ?_ f'
        rintro rfl
        rw [h.handler] at hg
        cases hg.2.1
      · rfl
    | _ => rfl
  refine ⟨⟨k, ?_⟩, hhandler, ?_⟩
  · obtain ⟨b, hb, -⟩ := step_sim (p := p) (e := e) (s := s) a
    rw [hb]
    exact HubLocks.step_stuck hk b
  · have heq := step_frames (p := p) (e := e) (s := s) a c
    rw [hhandler, h.handler, hreads, List.filter_nil, List.append_nil] at heq
    exact (List.append_cancel_right heq).trans h.sent

theorem run_waiting {c : ℕ} {f : Bytes} {sent : List Bytes} (h : Waiting c f sent s) (as : List Act) :
    Waiting c f sent (run (step p e) s as) :=
  run_inv_all (I := Waiting c f sent) (fun _ a hs => step_waiting hs a) as h

variable (p e)

/-- **Upstream multiplexing.** In every run, for every client, the payloads offered to nodeConn.Send for it, with the one
its handler is still working on, are the payloads its readLoop has read, in order, without the want_config_id and
disconnect frames; no such frame reaches the node. In every fair run in which no broadcast or echo meets a full channel,
whatever has been read and not intercepted has been offered, again and again. -/
theorem upstream_multiplexing :
    (∀ (as : List Act) (c : ℕ), ofClient c (run (step p e) init as).toNode ++
      ((run (step p e) init as).handler c).payload = toForward p e c as) ∧
    (∀ as : List Act, ∀ x ∈ (run (step p e) init as).toNode, intercepted e.pb x.2 = false) ∧
    ∀ as : ℕ → Act, Fair as → (∀ n, NoFullBroadcast p (states (step p e) init as n) (as n)) → ∀ c n,
      ∃ m, n ≤ m ∧ ofClient c (states (step p e) init as m).toNode = toForward p e c ((List.range m).map as) := by
  refine ⟨run_frames, ?_, ?_⟩
  · rintro as ⟨c, f⟩ hx
    have hmem : f ∈ toForward p e c as := by
      rw [← run_frames as c]
      exact List.mem_append_left _ (mem_ofClient.2 hx)
    exact intercepted_of_mem_toForward hmem
  · intro as hfair hin c n
    obtain ⟨m, hm, hidle⟩ := handler_returns hfair hin c n
    refine ⟨m, hm, ?_⟩
    rw [states_eq_run] at hidle ⊢
    have h := run_frames (p := p) (e := e) ((List.range m).map as) c
    rwa [hidle, Handler.payload, List.append_nil] at h

/-! ### Two clients -/

/-- goroutine g accepts a client -/
def accept (g : ℕ) : List Act := .call g .handleNewConnection :: List.replicate 4 (.exec g [] 0 0)

/-- client 0 sends a text message; its readLoop takes k steps -/
def message (k : ℕ) : List Act := .read 0 hiToRadio :: List.replicate k (.exec (reader 0) [] 9 100)

/-- clients 0 and 1 are accepted, and a message of client 0 is echoed to client 1 and offered to the node -/
def oneMessage : List Act := accept 2 ++ accept 2 ++ message 8

/-- the same, then every goroutine is scheduled for ever -/
def oneMessageFair (n : ℕ) : Act := (oneMessage[n]?).getD (.exec n.unpair.1 [] 0 0)

theorem oneMessageFair_fair : Fair oneMessageFair := by
  intro g n
  have hlen : oneMessage.length ≤ Nat.pair g (n + 19) := (Nat.le_add_left 19 n).trans (Nat.right_le_pair g (n + 19))
  refine ⟨Nat.pair g (n + 19), (Nat.le_add_right n 19).trans (Nat.right_le_pair g (n + 19)), [], 0, 0, ?_⟩
  simp [oneMessageFair, List.getElem?_eq_none hlen]

theorem oneMessage_idle (g : ℕ) : (run (step smallParams hiEnv) init oneMessage).hub.stack g = [] := by
  match g with
  | 0 => rfl
  | 1 => rfl
  | 2 => rfl
  | g + 3 => rfl

theorem oneMessage_handler (c : ℕ) : (run (step smallParams hiEnv) init oneMessage).handler c = .idle := by
  match c with
  | 0 => rfl
  | c + 1 => rfl

/-- when nobody has anything to do, nothing happens -/
theorem exec_rest {s : State} (hstack : ∀ g, s.hub.stack g = []) (hloop : s.loop = .idle)
    (hhandler : ∀ c, s.handler c = .idle) (g : ℕ) (order : List ℕ) (nodeNum now : UInt32) :
    step p e s (.exec g order nodeNum now) = s := by
  simp only [step, State.exec, hstack, if_true]
  split
  · simp only [State.loopNext, hloop]
  · simp only [State.handlerNext, hhandler]
  · rfl

theorem states_oneMessage (n : ℕ) : states (step smallParams hiEnv) init oneMessageFair (n + 19) =
    run (step smallParams hiEnv) init oneMessage := by
  induction n with
  | zero => rfl
  | succ n ih =>
    have hlen : oneMessage.length ≤ n + 19 := Nat.le_add_left 19 n
    rw [Nat.add_right_comm, states, ih]
    simp only [oneMessageFair, List.getElem?_eq_none hlen, Option.getD_none]
    exact exec_rest _ _ oneMessage_idle rfl oneMessage_handler _ _ _ _

theorem oneMessage_inside (n : ℕ) :
    NoFullBroadcast smallParams (states (step smallParams hiEnv) init oneMessageFair n) (oneMessageFair n) := by
  by_cases hn : n < 19
  · interval_cases n <;> decide +kernel
  · obtain ⟨k, rfl⟩ := Nat.exists_eq_add_of_le' (not_lt.1 hn)
    have hlen : oneMessage.length ≤ k + 19 := Nat.le_add_left 19 k
    rw [states_oneMessage]
    simp only [oneMessageFair, List.getElem?_eq_none hlen, Option.getD_none, NoFullBroadcast, HubLocks.NoFullBroadcast,
      oneMessage_idle]

/-- the message has been read and not yet offered; it will be -/
theorem upstream_multiplexing_message :
    toForward smallParams hiEnv 0 ((List.range 11).map oneMessageFair) = [hiToRadio] ∧
      (states (step smallParams hiEnv) init oneMessageFair 11).toNode = [] ∧
      ∃ m, 11 ≤ m ∧ ofClient 0 (states (step smallParams hiEnv) init oneMessageFair m).toNode =
        toForward smallParams hiEnv 0 ((List.range m).map oneMessageFair) :=
  ⟨by decide +kernel, by decide +kernel,
    (upstream_multiplexing smallParams hiEnv).2.2 oneMessageFair oneMessageFair_fair oneMessage_inside 0 11⟩

/-- client 0 sends a second message before the writeLoop of client 1 has taken the echo of the first -/
def slowPeer : List Act := oneMessage ++ message 7

theorem slowPeer_waiting : Waiting 0 hiToRadio [hiToRadio] (run (step smallParams hiEnv) init slowPeer) where
  lock := by
    refine ⟨_, rfl, rfl, by decide +kernel, ?_⟩
    intro x hx
    match x with
    | 0 => exact fun i hi => absurd hi List.not_mem_nil
    | 1 => exact absurd rfl hx
    | 2 => exact fun i hi => absurd hi List.not_mem_nil
    | x + 3 => exact fun i hi => absurd hi List.not_mem_nil
  handler := rfl
  sent := by decide +kernel

/-- the echo closes the slow consumer under its own read lock and does not return: the second message has been read and
is never offered, whatever happens -/
theorem read_and_never_offered :
    toForward smallParams hiEnv 0 slowPeer = [hiToRadio, hiToRadio] ∧
      ∀ bs : List Act, ofClient 0 (run (step smallParams hiEnv) init (slowPeer ++ bs)).toNode = [hiToRadio] := by
  constructor
  · rw [← run_frames, slowPeer_waiting.sent, slowPeer_waiting.handler]
    rfl
  · intro bs
    rw [run_append]
    exact (run_waiting slowPeer_waiting bs).sent

end MeshProxy.HubTraffic
