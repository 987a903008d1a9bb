/-
From the node to the clients (`internal/proxy`: broadcastLoop, broadcast), over the machine of HubTraffic.

broadcastLoop takes in one frame at a time from FromNode() and puts it into the channels of the registered clients, one
Send after the other. `pending c` is what it still has to put into the channel of client c: the frame it works on, or
that of the broadcast it is in, until the Send to c is over. Over any stretch in which c stays registered, what is put
into its channel and then the pending frame is the frame that was pending and then what has been received, without the
config frames.

- `registered_once`: a client is in the map at most once;
- `downstream_broadcast`: the equation in every stretch of every run in which no broadcast or echo meets a full channel,
  and in the fair ones broadcastLoop is back at FromNode(), with nothing pending, again and again.
-/
import MeshProxy.Proxy.HubDelivery
import MeshProxy.Proxy.HubTraffic

namespace MeshProxy.HubTraffic

open MeshProxy.Proto MeshProxy.Decode MeshProxy.ChatCache MeshProxy.ConfigReplay MeshProxy.Trace
open MeshProxy.HubLocks (Params Instr InBroadcast Hub smallParams)
open MeshProxy.Hub (Env hiEnv hiFromRadio)
open MeshProxy.Frame (Bytes)

/-! ## The client map -/

/-- the clients that a goroutine has still to put into the map -/
def registers (k : List Instr) : List ℕ :=
  k.filterMap fun i =>
    match i with
    | .register c => some c
    | _ => none

/-- every client is put into the map by one goroutine, once -/
structure Registered (h : Hub) : Prop where
  clients : h.clients.Nodup
  known : ∀ c ∈ h.clients, c < h.created
  fresh : ∀ g, ∀ c ∈ registers (h.stack g), c < h.created ∧ c ∉ h.clients
  once : ∀ g, (registers (h.stack g)).Nodup
  one : ∀ g g' c, c ∈ registers (h.stack g) → c ∈ registers (h.stack g') → g = g'

@[simp] theorem registers_append (k k' : List Instr) : registers (k ++ k') = registers k ++ registers k' := by
  simp [registers]

@[simp] theorem registers_sends (cs : List ℕ) (f : Bytes) : registers (cs.map fun c => .send c f) = [] := by
  induction cs with
  | nil => rfl
  | cons c cs ih => exact ih

@[simp] theorem registers_closes (cs : List ℕ) : registers (cs.map .close) = [] := by
  induction cs with
  | nil => rfl
  | cons c cs ih => exact ih

/-- an instruction registers a client, or leaves what has to be registered as it is and the map no larger -/
theorem exec_registers {h : Hub} (p : Params) (g : ℕ) (order : List ℕ) :
    (h.exec p g order).created = h.created ∧
    ((registers ((h.exec p g order).stack g) = registers (h.stack g) ∧ (h.exec p g order).clients.Sublist h.clients) ∨
      ∃ c, registers (h.stack g) = c :: registers ((h.exec p g order).stack g) ∧
        (h.exec p g order).clients.Sublist (h.clients ++ [c])) := by
  cases hs : h.stack g with
  | nil => simp only [Hub.exec, hs]; exact ⟨trivial, Or.inl ⟨trivial, List.Sublist.refl _⟩⟩
  | cons i k =>
    cases i with
    | register c =>
      simp only [Hub.exec, hs]
      split_ifs
      · exact ⟨rfl, Or.inr ⟨c, by simp [Hub.goto, registers], List.Sublist.refl _⟩⟩
      · exact ⟨rfl, Or.inr ⟨c, by simp [Hub.goto, registers], List.sublist_append_left _ _⟩⟩
    | delete c =>
      simp only [Hub.exec, hs]
      exact ⟨rfl, Or.inl ⟨by simp [Hub.goto, registers], List.erase_sublist⟩⟩
    | close c =>
      simp only [Hub.exec, hs]
      split
      · exact ⟨rfl, Or.inl ⟨by simp [Hub.goto, HubLocks.closeBody, HubLocks.unregisterClient, registers], List.Sublist.refl _⟩⟩
      · exact ⟨rfl, Or.inl ⟨by rw [hs], List.Sublist.refl _⟩⟩
      · exact ⟨rfl, Or.inl ⟨by simp [Hub.goto, registers], List.Sublist.refl _⟩⟩
    | sendAll f sender =>
      simp only [Hub.exec, hs]
      refine ⟨rfl, Or.inl ⟨?_, List.Sublist.refl _⟩⟩
      simp only [Hub.goto, Function.update_self, registers_append, registers_sends, List.nil_append]
      rfl
    | closeAll =>
      simp only [Hub.exec, hs]
      refine ⟨rfl, Or.inl ⟨?_, List.Sublist.refl _⟩⟩
      have hcons (l : List Instr) : registers (.runlock :: l) = registers l := rfl
      simp only [Hub.goto, Function.update_self, hcons, registers_append, registers_closes, List.nil_append]
      rfl
    | rwait | lock | lockWait | send c f =>
      simp only [Hub.exec, hs]
      split_ifs
      · exact ⟨rfl, Or.inl ⟨by simp [Hub.goto, registers, hs], List.Sublist.refl _⟩⟩
      · exact ⟨rfl, Or.inl ⟨by simp [Hub.goto, registers, hs], List.Sublist.refl _⟩⟩
    | rlock | runlock | unlock | onceDone c =>
      simp only [Hub.exec, hs]
      exact ⟨rfl, Or.inl ⟨by simp [Hub.goto, registers], List.Sublist.refl _⟩⟩

theorem exec_registered {h : Hub} (hreg : Registered h) (p : Params) (g : ℕ) (order : List ℕ) :
    Registered (h.exec p g order) := by
  obtain ⟨hcreated, hcase⟩ := exec_registers (h := h) p g order
  have hother (x : ℕ) (hx : x ≠ g) : (h.exec p g order).stack x = h.stack x := HubLocks.exec_stack_of_ne hx order
  -- a goroutine has no more to register than before
  have hsub (x : ℕ) : (registers ((h.exec p g order).stack x)).Sublist (registers (h.stack x)) := by
    by_cases hx : x = g
    · subst hx
      rcases hcase with ⟨hsame, -⟩ | ⟨c, hc, -⟩
      · rw [hsame]
      · rw [hc]
        exact List.sublist_cons_self _ _
    · rw [hother x hx]
  have hclients (c : ℕ) (hc : c ∈ (h.exec p g order).clients) :
      c < h.created ∧ ∀ x, c ∉ registers ((h.exec p g order).stack x) := by
    rcases hcase with ⟨-, hle⟩ | ⟨d, hd, hle⟩
    · have hmem := hle.subset hc
      exact ⟨hreg.known c hmem, fun x hx => (hreg.fresh x c ((hsub x).subset hx)).2 hmem⟩
    · rcases List.mem_append.1 (hle.subset hc) with hmem | hmem
      · exact ⟨hreg.known c hmem, fun x hx => (hreg.fresh x c ((hsub x).subset hx)).2 hmem⟩
      · obtain rfl := List.mem_singleton.1 hmem
        have hin : c ∈ registers (h.stack g) := hd ▸ List.mem_cons_self
        refine ⟨(hreg.fresh g c hin).1, fun x hx => ?_⟩
        obtain rfl := hreg.one x g c ((hsub x).subset hx) hin
        have hnodup := hreg.once x
        rw [hd] at hnodup
        exact (List.nodup_cons.1 hnodup).1 hx
  refine ⟨?_, fun c hc => hcreated ▸ (hclients c hc).1, ?_, fun x => (hreg.once x).sublist (hsub x), ?_⟩
  · rcases hcase with ⟨-, hle⟩ | ⟨c, hc, hle⟩
    · exact hreg.clients.sublist hle
    · refine List.Nodup.sublist hle (List.nodup_append.2 ⟨hreg.clients, List.nodup_singleton c, ?_⟩)
      rintro d hd d' hd' rfl
      obtain rfl := List.mem_singleton.1 hd'
      exact (hreg.fresh g d (hc ▸ List.mem_cons_self)).2 hd
  · intro x c hc
    exact ⟨hcreated ▸ (hreg.fresh x c ((hsub x).subset hc)).1, fun hmem => (hclients c hmem).2 x hc⟩
  · intro x x' c hc hc'
    exact hreg.one x x' c ((hsub x).subset hc) ((hsub x').subset hc')

/-- a call has a client to register only if it is handleNewConnection -/
theorem call_registered {h : Hub} (hreg : Registered h) (g : ℕ) (f : HubLocks.Call) : Registered (h.call g f) := by
  have goto (n : ℕ) (hn : h.created ≤ n) (k : List Instr) (hk : ∀ c ∈ registers k, h.created ≤ c ∧ c < n)
      (hnodup : (registers k).Nodup) : Registered (Hub.goto g k { h with created := n }) := by
    have hstack (x c : ℕ) (hc : c ∈ registers (Function.update h.stack g k x)) :
        (x = g ∧ c ∈ registers k) ∨ (x ≠ g ∧ c ∈ registers (h.stack x)) := by
      by_cases hx : x = g
      · subst hx
        rw [Function.update_self] at hc
        exact Or.inl ⟨rfl, hc⟩
      · rw [Function.update_of_ne hx] at hc
        exact Or.inr ⟨hx, hc⟩
    refine ⟨hreg.clients, fun c hc => (hreg.known c hc).trans_le hn, ?_, ?_, ?_⟩
    · intro x c hc
      rcases hstack x c hc with ⟨-, hc⟩ | ⟨-, hc⟩
      · exact ⟨(hk c hc).2, fun hmem => absurd (hreg.known c hmem) (not_lt.2 (hk c hc).1)⟩
      · exact ⟨(hreg.fresh x c hc).1.trans_le hn, (hreg.fresh x c hc).2⟩
    · intro x
      by_cases hx : x = g
      · subst hx
        simpa [Hub.goto] using hnodup
      · simpa [Hub.goto, hx] using hreg.once x
    · intro x x' c hc hc'
      rcases hstack x c hc with ⟨hx, hnew⟩ | ⟨-, hold⟩ <;> rcases hstack x' c hc' with ⟨hx', hnew'⟩ | ⟨-, hold'⟩
      · rw [hx, hx']
      · exact absurd (hreg.fresh x' c hold').1 (not_lt.2 (hk c hnew).1)
      · exact absurd (hreg.fresh x c hold).1 (not_lt.2 (hk c hnew').1)
      · exact hreg.one x x' c hold hold'
  unfold Hub.call
  split_ifs
  · cases f with
    | handleNewConnection =>
      refine goto (h.created + 1) (Nat.le_succ _) (HubLocks.handleNewConnection h.created) ?_ (List.nodup_singleton _)
      intro c hc
      obtain rfl : c = h.created := by simpa [registers, HubLocks.handleNewConnection] using hc
      exact ⟨le_rfl, Nat.lt_succ_self _⟩
    | send c f | close c =>
      dsimp only
      split_ifs
      · exact goto h.created le_rfl _ (by simp [registers]) List.nodup_nil
      · exact hreg
    | broadcast f => exact goto h.created le_rfl _ (by simp [registers, HubLocks.broadcast]) List.nodup_nil
    | broadcastToOthers f c =>
      exact goto h.created le_rfl _ (by simp [registers, HubLocks.broadcastToOthers]) List.nodup_nil
    | closeAllClients =>
      exact goto h.created le_rfl _ (by simp [registers, HubLocks.closeAllClients]) List.nodup_nil
  · exact hreg

/-- **A client is in the map at most once.** -/
theorem registered_once {h : Hub} (hreg : Registered h) (p : Params) (a : HubLocks.Act) :
    Registered (HubLocks.step p h a) := by
  cases a with
  | exec g order => exact exec_registered hreg p g order
  | call g f => exact call_registered hreg g f
  | take c => exact ⟨hreg.clients, hreg.known, hreg.fresh, hreg.once, hreg.one⟩

/-! ## What is pending -/

/-- the frame broadcastLoop is working on -/
def Loop.payload : Loop → List Bytes
  | .idle => []
  | .received f | .cached f => [f]

/-- what the instructions of a goroutine have still to put into a client's channel -/
def toClient (c : ℕ) : Instr → List Bytes
  | .sendAll f sender => if some c = sender then [] else [f]
  | .send d f => if d = c then [f] else []
  | _ => []

/-- what broadcastLoop has received and has still to put into a client's channel -/
def pending (c : ℕ) (s : State) : List Bytes := (s.hub.stack 0).flatMap (toClient c) ++ s.loop.payload

variable (p : Params) (e : Env)

/-- the step in which broadcastLoop takes a frame from FromNode() -/
def received (s : State) : Act → List Bytes
  | .receive f => if s.loop = .idle ∧ s.hub.stack 0 = [] then [f] else []
  | _ => []

/-- what a step of broadcastLoop puts into a client's channel -/
def broadcasts (c : ℕ) (s : State) : Act → List Bytes
  | .exec 0 order nodeNum now =>
    ((step p e s (.exec 0 order nodeNum now)).hub.chan c).drop (s.hub.chan c).length
  | _ => []

/-- broadcastLoop is not halfway through the clients -/
def Between (s : State) : Prop := ∀ c f, .send c f ∉ s.hub.stack 0

variable {p e} {s : State}

theorem toClient_sends {cs : List ℕ} (hcs : cs.Nodup) (c : ℕ) (f : Bytes) :
    (cs.map fun d => Instr.send d f).flatMap (toClient c) = if c ∈ cs then [f] else [] := by
  induction cs with
  | nil => rfl
  | cons d cs ih =>
    obtain ⟨hd, hnodup⟩ := List.nodup_cons.1 hcs
    rw [List.map_cons, List.flatMap_cons, ih hnodup]
    by_cases hdc : d = c
    · subst hdc
      simp [toClient, hd]
    · simp [toClient, hdc, Ne.symm hdc]

theorem nodup_iteration {h : Hub} (hreg : Registered h) (order : List ℕ) :
    (h.iteration order).Nodup ∧ ∀ c, c ∈ h.iteration order ↔ c ∈ h.clients := by
  unfold Hub.iteration
  split_ifs with hperm
  · have hp := List.isPerm_iff.1 hperm
    exact ⟨hp.nodup_iff.2 hreg.clients, fun c => hp.mem_iff⟩
  · exact ⟨hreg.clients, fun c => Iff.rfl⟩

/-- one instruction of a broadcast: it takes or leaves the read lock, goes through the clients, or puts its frame into
the channel of one, which has room -/
theorem exec_broadcast_cases {h : Hub} (hlock : HubLocks.Inv p h) {g : ℕ} {order : List ℕ}
    (hcond : HubLocks.NoFullBroadcast p h (.exec g order)) (hb : InBroadcast (h.stack g)) :
    ((h.exec p g order).chan = h.chan ∧ ((h.exec p g order).stack g = h.stack g ∨
      ∃ i, (i = .rlock ∨ i = .rwait ∨ i = .runlock) ∧ h.stack g = i :: (h.exec p g order).stack g)) ∨
    (∃ f sender k, h.stack g = .sendAll f sender :: k ∧ (h.exec p g order).chan = h.chan ∧
      (h.exec p g order).stack g = ((h.iteration order).filter fun d => some d ≠ sender).map (fun d => .send d f) ++ k) ∨
    ∃ d f, h.stack g = .send d f :: (h.exec p g order).stack g ∧
      (h.exec p g order).chan = Function.update h.chan d (h.chan d ++ [f]) := by
  have hroom (d : ℕ) (f : Bytes) (k : List Instr) (hs : h.stack g = .send d f :: k) :
      (h.chan d).length < p.clientSendBuffer := by
    have hreads := hlock.sending_reads hb hs
    simp only [HubLocks.NoFullBroadcast, hs] at hcond
    exact hcond hreads
  generalize hs : h.stack g = k at hb
  cases hb with
  | start f sender =>
    left
    simp only [Hub.exec, hs, Hub.goto, Function.update_self]
    exact ⟨trivial, Or.inr ⟨.rlock, Or.inl rfl, rfl⟩⟩
  | wait f sender =>
    left
    simp only [Hub.exec, hs]
    split_ifs
    · exact ⟨rfl, Or.inl hs⟩
    · simp only [Hub.goto, Function.update_self]
      exact ⟨trivial, Or.inr ⟨.rwait, Or.inr (Or.inl rfl), rfl⟩⟩
  | all f sender =>
    right; left
    simp only [Hub.exec, hs, Hub.goto, Function.update_self]
    exact ⟨f, sender, [.runlock], rfl, trivial, rfl⟩
  | sending cs f =>
    cases cs with
    | nil =>
      left
      have hs' : h.stack g = [.runlock] := hs
      simp only [Hub.exec, hs', Hub.goto, Function.update_self]
      exact ⟨trivial, Or.inr ⟨.runlock, Or.inr (Or.inr rfl), rfl⟩⟩
    | cons d cs =>
      right; right
      have hs' : h.stack g = .send d f :: (cs.map (fun d => Instr.send d f) ++ [.runlock]) := hs
      simp only [Hub.exec, hs', if_pos (hroom d f _ hs'), Hub.goto, Function.update_self]
      exact ⟨d, f, rfl, rfl⟩

/-- what it puts into the channel of a registered client was to be put there -/
theorem exec_toClient {h : Hub} {g : ℕ} (order : List ℕ) (hlock : HubLocks.Inv p h) (hreg : Registered h)
    (hcond : HubLocks.NoFullBroadcast p h (.exec g order)) (hb : InBroadcast (h.stack g)) (c : ℕ) :
    (c ∈ h.clients → ((h.exec p g order).chan c).drop (h.chan c).length ++
      ((h.exec p g order).stack g).flatMap (toClient c) = (h.stack g).flatMap (toClient c)) ∧
    (((h.exec p g order).stack g).flatMap (toClient c)).length ≤ ((h.stack g).flatMap (toClient c)).length := by
  rcases exec_broadcast_cases hlock hcond hb with ⟨hchan, hsame | ⟨i, hi, hs⟩⟩ | ⟨f, sender, k, hs, hchan, hs'⟩ |
    ⟨d, f, hs, hchan⟩
  · simp [hchan, hsame]
  · rw [hs, hchan]
    have hnone : toClient c i = [] := by
      rcases hi with rfl | rfl | rfl <;> rfl
    simp [hnone]
  · obtain ⟨hnodup, hmem⟩ := nodup_iteration hreg order
    rw [hs, hs', hchan, List.flatMap_append, toClient_sends (hnodup.filter _), List.flatMap_cons]
    have hin : c ∈ (h.iteration order).filter (fun d => decide (some d ≠ sender)) ↔ c ∈ h.clients ∧ some c ≠ sender := by
      simp [hmem]
    by_cases hsender : some c = sender
    · rw [if_neg fun hc => (hin.1 hc).2 hsender]
      simp [toClient, hsender]
    · by_cases hc : c ∈ h.clients
      · rw [if_pos (hin.2 ⟨hc, hsender⟩)]
        simp [toClient, hsender]
      · rw [if_neg fun hin' => hc (hin.1 hin').1]
        simp [toClient, hc]
  · rw [hchan, hs, List.flatMap_cons]
    by_cases hdc : d = c
    · subst hdc
      simp [toClient]
    · simp [toClient, hdc, Ne.symm hdc]

/-! ### Frames of the node -/

/-- an instruction of a broadcast of a runtime frame of the node -/
def OfNode (pb : Codec) : Instr → Prop
  | .sendAll f sender => sender = none ∧ isConfigFrame pb f = false
  | .send _ f => isConfigFrame pb f = false
  | _ => True

/-- what broadcastLoop has in its hands is the node's, and no config frame -/
structure NodeFrames (pb : Codec) (s : State) : Prop where
  loop : ∀ f ∈ s.loop.payload, isConfigFrame pb f = false
  stack : ∀ i ∈ s.hub.stack 0, OfNode pb i

theorem exec_ofNode {h : Hub} {pb : Codec} {g : ℕ} {order : List ℕ} (hb : InBroadcast (h.stack g))
    (hlock : HubLocks.Inv p h) (hcond : HubLocks.NoFullBroadcast p h (.exec g order))
    (hnode : ∀ i ∈ h.stack g, OfNode pb i) : ∀ i ∈ (h.exec p g order).stack g, OfNode pb i := by
  rcases exec_broadcast_cases hlock hcond hb with ⟨-, hsame | ⟨i, -, hs⟩⟩ | ⟨f, sender, k, hs, -, hs'⟩ | ⟨d, f, hs, -⟩
  · rwa [hsame]
  · rw [hs] at hnode
    exact fun j hj => hnode j (List.mem_cons_of_mem i hj)
  · rw [hs] at hnode
    rw [hs']
    intro j hj
    rcases List.mem_append.1 hj with hj | hj
    · obtain ⟨d, -, rfl⟩ := List.mem_map.1 hj
      exact (hnode _ List.mem_cons_self).2
    · exact hnode j (List.mem_cons_of_mem _ hj)
  · rw [hs] at hnode
    exact fun j hj => hnode j (List.mem_cons_of_mem _ hj)

theorem loopNext_payload : (s.loopNext e).loop.payload = s.loop.payload ∧ (s.loopNext e).hub = s.hub ∨
    ∃ f, s.loop = .cached f ∧ s.loopNext e = { s with hub := s.hub.call 0 (.broadcast f), loop := .idle } := by
  unfold State.loopNext
  split
  · exact Or.inl ⟨rfl, rfl⟩
  · rename_i f hf
    left
    split_ifs
    · exact ⟨by rw [hf]; rfl, rfl⟩
    · split
      · exact ⟨by rw [hf]; rfl, rfl⟩
      · exact ⟨by rw [hf]; rfl, rfl⟩
  · rename_i f hf
    exact Or.inr ⟨f, hf, rfl⟩

theorem step_nodeFrames (hlock : HubLocks.Inv p s.hub) (hpar : Parties s) (hnode : NodeFrames e.pb s) (a : Act)
    (hcond : NoFullBroadcast p s a) : NodeFrames e.pb (step p e s a) := by
  by_cases ha : Acts 0 a
  · obtain ⟨order, nodeNum, now, rfl⟩ := ha
    by_cases hs : s.hub.stack 0 = []
    · rw [step, exec_loop hs]
      rcases loopNext_payload (e := e) (s := s) with ⟨hl, hh⟩ | ⟨f, hf, hh⟩
      · exact ⟨by rw [hl]; exact hnode.loop, by rw [hh]; exact hnode.stack⟩
      · have hruntime : isConfigFrame e.pb f = false := hnode.loop f (by rw [hf]; exact List.mem_singleton_self f)
        rw [hh]
        refine ⟨by simp [Loop.payload], ?_⟩
        simp only
        rw [broadcast_busy hs]
        simp [HubLocks.broadcast, OfNode, hruntime]
    · obtain ⟨-, hb⟩ := hpar.loop.resolve_left hs
      rw [step, exec_busy hs]
      exact ⟨hnode.loop, exec_ofNode hb hlock hcond hnode.stack⟩
  · refine ⟨?_, by rw [step_stack_loop ha]; exact hnode.stack⟩
    by_cases hrecv : ∃ f, a = .receive f
    · obtain ⟨f, rfl⟩ := hrecv
      simp only [step, State.receive]
      split_ifs with hg
      · intro f' hf'
        obtain rfl := List.mem_singleton.1 hf'
        exact hg.2.2
      · exact hnode.loop
    · rw [step_loop ha (not_exists.1 hrecv)]
      exact hnode.loop

theorem pending_runtime (hnode : NodeFrames e.pb s) {c : ℕ} {f : Bytes} (hf : f ∈ pending c s) :
    isConfigFrame e.pb f = false := by
  rcases List.mem_append.1 hf with hf | hf
  · obtain ⟨i, hi, hfi⟩ := List.mem_flatMap.1 hf
    have hof := hnode.stack i hi
    cases i with
    | sendAll f' sender =>
      simp only [toClient] at hfi
      split_ifs at hfi
      · cases hfi
      · rw [List.mem_singleton.1 hfi]
        exact hof.2
    | send d f' =>
      simp only [toClient] at hfi
      split_ifs at hfi
      · rw [List.mem_singleton.1 hfi]
        exact hof
      · cases hfi
    | _ => cases hfi
  · exact hnode.loop f hf

/-- not halfway through the clients, the same is pending for all of them -/
theorem pending_between (hnode : NodeFrames e.pb s) (hbetween : Between s) (c d : ℕ) : pending c s = pending d s := by
  unfold pending
  congr 1
  apply List.flatMap_congr
  intro i hi
  have hof := hnode.stack i hi
  cases i with
  | sendAll f sender => simp [toClient, hof.1]
  | send c' f => exact absurd hi (hbetween c' f)
  | _ => rfl

/-! ## One step -/

/-- everything that a step of broadcastLoop relies on -/
structure Inv (p : Params) (e : Env) (s : State) : Prop where
  lock : HubLocks.Inv p s.hub
  parties : Parties s
  registered : Registered s.hub
  node : NodeFrames e.pb s
  one : ∀ c, (pending c s).length ≤ 1

theorem init_inv : Inv p e init where
  lock := HubLocks.init_inv p
  parties := init_parties
  registered := ⟨List.nodup_nil, by simp [init, HubLocks.init], by simp [init, HubLocks.init, registers],
    by simp [init, HubLocks.init, registers], by simp [init, HubLocks.init, registers]⟩
  node := ⟨by simp [init, Loop.payload], by simp [init, HubLocks.init]⟩
  one := by simp [init, HubLocks.init, pending, Loop.payload]

/-- broadcastLoop goes on: between two frames, with the frame it has taken in, or in its broadcast -/
theorem exec_pending (h : Inv p e s) (order : List ℕ) (nodeNum now : UInt32)
    (hcond : NoFullBroadcast p s (.exec 0 order nodeNum now)) (c : ℕ) :
    (c ∈ s.hub.clients → broadcasts p e c s (.exec 0 order nodeNum now) ++
      pending c (step p e s (.exec 0 order nodeNum now)) = pending c s) ∧
    (pending c (step p e s (.exec 0 order nodeNum now))).length ≤ (pending c s).length := by
  by_cases hs : s.hub.stack 0 = []
  · simp only [broadcasts]
    rw [step, exec_loop hs]
    rcases loopNext_payload (e := e) (s := s) with ⟨hl, hh⟩ | ⟨f, hf, hh⟩
    · simp [pending, hl, hh]
    · have hchan : (s.hub.call 0 (.broadcast f)).chan = s.hub.chan := by
        simp [Hub.call, hs, Hub.goto]
      rw [hh]
      simp [pending, Loop.payload, hchan, broadcast_busy hs, hs, hf, HubLocks.broadcast, toClient]
  · obtain ⟨hidle, hb⟩ := h.parties.loop.resolve_left hs
    have hto := exec_toClient order h.lock h.registered hcond hb c
    simp only [broadcasts]
    rw [step, exec_busy hs]
    simp only [pending, hidle, Loop.payload, List.append_nil]
    exact hto

/-- **One step.** For a registered client, what is put into its channel was pending, and what is received and no config
frame is pending from then on. -/
theorem step_pending (h : Inv p e s) (a : Act) (hcond : NoFullBroadcast p s a) (c : ℕ) :
    (c ∈ s.hub.clients → broadcasts p e c s a ++ pending c (step p e s a) =
      pending c s ++ (received s a).filter fun f => !isConfigFrame e.pb f) ∧
    (pending c (step p e s a)).length ≤ 1 := by
  by_cases ha : Acts 0 a
  · obtain ⟨order, nodeNum, now, rfl⟩ := ha
    obtain ⟨heq, hle⟩ := exec_pending h order nodeNum now hcond c
    refine ⟨fun hc => ?_, hle.trans (h.one c)⟩
    rw [heq hc]
    simp [received]
  · have hnone : broadcasts p e c s a = [] := by
      cases a with
      | exec g order nodeNum now =>
        cases g with
        | zero => exact absurd ⟨order, nodeNum, now, rfl⟩ ha
        | succ g => rfl
      | _ => rfl
    rw [hnone, List.nil_append]
    by_cases hrecv : ∃ f, a = .receive f
    · obtain ⟨f, rfl⟩ := hrecv
      simp only [received, step, State.receive]
      by_cases hg : s.loop = .idle ∧ s.hub.stack 0 = []
      · have hnil : pending c s = [] := by simp [pending, hg.1, hg.2, Loop.payload]
        rw [if_pos hg, hnil]
        by_cases hcfg : isConfigFrame e.pb f = false
        · rw [if_pos ⟨hg.1, hg.2, hcfg⟩]
          simp [pending, hg.2, Loop.payload, hcfg]
        · rw [if_neg fun hg' => hcfg hg'.2.2, hnil]
          simp [hcfg]
      · rw [if_neg hg, if_neg fun hg' => hg ⟨hg'.1, hg'.2.1⟩]
        exact ⟨fun _ => by simp, h.one c⟩
    · have hsame : pending c (step p e s a) = pending c s := by
        unfold pending
        rw [step_stack_loop ha, step_loop ha (not_exists.1 hrecv)]
      have hrec : received s a = [] := by
        cases a with
        | receive f => exact absurd ⟨f, rfl⟩ hrecv
        | _ => rfl
      rw [hsame, hrec]
      exact ⟨fun _ => by simp, h.one c⟩

theorem step_inv (h : Inv p e s) (a : Act) (hcond : NoFullBroadcast p s a) : Inv p e (step p e s a) := by
  obtain ⟨b, hb, hcond', -⟩ := step_sim (p := p) (e := e) (s := s) a
  exact {
    lock := hb ▸ HubLocks.step_inv h.lock b (hcond' hcond)
    parties := step_parties h.lock h.parties a hcond
    registered := hb ▸ registered_once h.registered p b
    node := step_nodeFrames h.lock h.parties h.node a hcond
    one := fun c => (step_pending h a hcond c).2 }

theorem reachable_inv {as : List Act} (h : Along (step p e) (NoFullBroadcast p) init as) :
    Inv p e (run (step p e) init as) := run_inv (I := Inv p e) (fun _ a hs ha => step_inv hs a ha) init_inv h

/-- a stretch in which the client stays registered -/
theorem stretch_pending (h : Inv p e s) {bs : List Act} (hin : Along (step p e) (NoFullBroadcast p) s bs) {c : ℕ}
    (hreg : Along (step p e) (fun s _ => c ∈ s.hub.clients) s bs) :
    emitted (step p e) (broadcasts p e c) s bs ++ pending c (run (step p e) s bs) =
      pending c s ++ (emitted (step p e) received s bs).filter fun f => !isConfigFrame e.pb f := by
  have hall := (hin.and_inv (I := Inv p e) (fun s a hs ha => step_inv hs a ha) h).and hreg
  have hfifo := emitted_fifo (q := pending c)
    (fun s a (hs : (NoFullBroadcast p s a ∧ Inv p e s) ∧ c ∈ s.hub.clients) =>
      (step_pending hs.1.2 a hs.1.1 c).1 hs.2) hall
  rwa [emitted_filter] at hfifo

variable (p e)

/-- **Downstream broadcast.** In every run in which no broadcast or echo meets a full channel, over any stretch in which a
client stays registered: what broadcastLoop puts into its channel, followed by the frame that is pending for it at the
end, is the frame that was pending at the start followed by the frames received in the stretch that are not config
frames, in order; at most one frame is pending, no config frame is broadcast, and two clients registered throughout are
sent the same frames in the same order if neither end is halfway through the clients. In every such run that is fair
broadcastLoop is back at FromNode(), with nothing pending, again and again. -/
theorem downstream_broadcast :
    (∀ as bs : List Act, Along (step p e) (NoFullBroadcast p) init (as ++ bs) → ∀ c,
      Along (step p e) (fun s _ => c ∈ s.hub.clients) (run (step p e) init as) bs →
      emitted (step p e) (broadcasts p e c) (run (step p e) init as) bs ++ pending c (run (step p e) init (as ++ bs)) =
        pending c (run (step p e) init as) ++
          (emitted (step p e) received (run (step p e) init as) bs).filter (fun f => !isConfigFrame e.pb f) ∧
      (pending c (run (step p e) init as)).length ≤ 1 ∧ (pending c (run (step p e) init (as ++ bs))).length ≤ 1 ∧
      (∀ f ∈ emitted (step p e) (broadcasts p e c) (run (step p e) init as) bs, isConfigFrame e.pb f = false) ∧
      ∀ d, Along (step p e) (fun s _ => d ∈ s.hub.clients) (run (step p e) init as) bs →
        Between (run (step p e) init as) → Between (run (step p e) init (as ++ bs)) →
          emitted (step p e) (broadcasts p e d) (run (step p e) init as) bs =
            emitted (step p e) (broadcasts p e c) (run (step p e) init as) bs) ∧
    ∀ as : ℕ → Act, Fair as → (∀ n, NoFullBroadcast p (states (step p e) init as n) (as n)) → ∀ n,
      ∃ m, n ≤ m ∧ ∀ c, pending c (states (step p e) init as m) = [] := by
  refine ⟨?_, ?_⟩
  · intro as bs hrun c hc
    obtain ⟨has, hbs⟩ := along_append.1 hrun
    have hinv := reachable_inv has
    have hend := reachable_inv hrun
    have hseq (d : ℕ) (hd : Along (step p e) (fun s _ => d ∈ s.hub.clients) (run (step p e) init as) bs) :
        emitted (step p e) (broadcasts p e d) (run (step p e) init as) bs ++ pending d (run (step p e) init (as ++ bs)) =
          pending d (run (step p e) init as) ++
            (emitted (step p e) received (run (step p e) init as) bs).filter (fun f => !isConfigFrame e.pb f) := by
      rw [run_append]
      exact stretch_pending hinv hbs hd
    refine ⟨hseq c hc, hinv.one c, hend.one c, ?_, ?_⟩
    · intro f hf
      have hmem := List.mem_append_left (pending c (run (step p e) init (as ++ bs))) hf
      rw [hseq c hc] at hmem
      rcases List.mem_append.1 hmem with hmem | hmem
      · exact pending_runtime hinv.node hmem
      · simpa using (List.mem_filter.1 hmem).2
    · intro d hd hstart hstop
      have h := (hseq d hd).trans (pending_between hinv.node hstart d c ▸ (hseq c hc).symm)
      rw [pending_between hend.node hstop d c] at h
      exact List.append_cancel_right h
  · intro as hfair hin n
    obtain ⟨m, hm, hidle, hs⟩ := loop_returns hfair hin n
    exact ⟨m, hm, fun c => by simp [pending, hidle, hs, Loop.payload]⟩

/-! ### A client that is registered while a frame is in the loop's hands -/

/-- a runtime frame of the node -/
def nodeText : Bytes := hiFromRadio 3 4

/-- broadcastLoop takes a frame and caches it; then a client is accepted -/
def registeredLate : List Act := [.receive nodeText, .exec 0 [] 0 0, .call 2 .handleNewConnection] ++
  List.replicate 4 (.exec 2 [] 0 0)

/-- broadcastLoop takes k steps -/
def loopSteps (k : ℕ) : List Act := List.replicate k (.exec 0 [] 0 0)

/-- two frames later: the frame taken before the registration is broadcast to the client too -/
theorem downstream_broadcast_late :
    emitted (step smallParams hiEnv) (broadcasts smallParams hiEnv 0) (run (step smallParams hiEnv) init registeredLate)
      (loopSteps 6 ++ [.receive (configCompleteBytes 5), .receive [7], .exec 0 [] 0 0]) ++ [[7]] = [nodeText] ++ [[7]] :=
  ((downstream_broadcast smallParams hiEnv).1 registeredLate
    (loopSteps 6 ++ [.receive (configCompleteBytes 5), .receive [7], .exec 0 [] 0 0])
    (by decide +kernel) 0 (by decide +kernel)).1

/-- in the stretch from its registration on, the client gets a frame that was received before it -/
theorem broadcast_of_earlier_frame :
    Along (step smallParams hiEnv) (NoFullBroadcast smallParams) init (registeredLate ++ loopSteps 6) ∧
    Along (step smallParams hiEnv) (fun s _ => 0 ∈ s.hub.clients) (run (step smallParams hiEnv) init registeredLate)
      (loopSteps 6) ∧
    emitted (step smallParams hiEnv) (broadcasts smallParams hiEnv 0) (run (step smallParams hiEnv) init registeredLate)
      (loopSteps 6) = [nodeText] ∧
    emitted (step smallParams hiEnv) received (run (step smallParams hiEnv) init registeredLate) (loopSteps 6) = [] := by
  decide +kernel

end MeshProxy.HubTraffic
