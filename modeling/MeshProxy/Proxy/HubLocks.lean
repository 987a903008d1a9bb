/-
The lock discipline of the client hub (`internal/proxy`: broadcast, broadcastToOthers, closeAllClients,
handleNewConnection, unregisterClient, Client.Send, Client.Close).

Every goroutine has the list of the instructions it still has to execute: a call puts the body of the function there, and
an instruction that calls on (Send's slow-consumer branch, closeOnce.Do, a loop over the clients) puts what it expands to
in front. p.mu is a writer-preferring mutex (Core.RWMutex), closeOnce makes a second caller wait for the first, the send
channels are bounded and their writeLoops take frames at any time. Any goroutine that is idle may call anything.

- `exec_inv`, `step_inv`: inside `NoFullBroadcast` every goroutine goes on using p.mu as `Disciplined` says;
- `Inv.requests_free`: a goroutine that requests p.mu does not hold it;
- `Inv.waits_rank`, `Inv.no_deadlock`: waiting goes down in rank, so no set of goroutines waits for itself.
That broadcasts return, and what a slow consumer does outside the condition, is in HubProgress.
-/
import MeshProxy.Core.RWMutex
import MeshProxy.Core.Trace
import MeshProxy.Protocol.Frame

namespace MeshProxy.HubLocks

open MeshProxy.Locks MeshProxy.Trace
open MeshProxy.Frame (Bytes)

/-! ## The machine -/

/-- the settings Config.Validate accepts -/
structure Params where
  clientSendBuffer : ℕ
  maxClients : ℕ
  clientSendBuffer_pos : 1 ≤ clientSendBuffer
  maxClients_pos : 1 ≤ maxClients

/-- clients are numbered in the order in which they are created -/
inductive Instr where
  | rlock | rwait | runlock
  | lock | lockWait | unlock
  | sendAll (payload : Bytes) (sender : Option ℕ)
  | closeAll
  | send (c : ℕ) (payload : Bytes)
  | close (c : ℕ)
  | onceDone (c : ℕ)
  | register (c : ℕ)
  | delete (c : ℕ)
deriving DecidableEq, Repr

def broadcast (payload : Bytes) : List Instr := [.rlock, .rwait, .sendAll payload none, .runlock]

def broadcastToOthers (payload : Bytes) (sender : ℕ) : List Instr :=
  [.rlock, .rwait, .sendAll payload (some sender), .runlock]

/-- it closes the clients it has copied, after its RUnlock -/
def closeAllClients : List Instr := [.rlock, .rwait, .closeAll]

/-- it closes the connection, of no matter here, when there is no room -/
def handleNewConnection (c : ℕ) : List Instr := [.lock, .lockWait, .register c, .unlock]

def unregisterClient (c : ℕ) : List Instr := [.lock, .lockWait, .delete c, .unlock]

/-- what `Close` does once: onClose is unregisterClient -/
def closeBody (c : ℕ) : List Instr := unregisterClient c ++ [.onceDone c]

inductive Once where
  | fresh
  | running (g : ℕ)
  | done
deriving DecidableEq, Repr

structure Hub where
  mu : RWMutex ℕ
  clients : List ℕ
  created : ℕ
  started : List ℕ
  chan : ℕ → List Bytes
  once : ℕ → Once
  stack : ℕ → List Instr

/-- `New` -/
def init : Hub := ⟨{}, [], 0, [], fun _ => [], fun _ => .fresh, fun _ => []⟩

/-- the functions a goroutine may call -/
inductive Call where
  | broadcast (payload : Bytes)
  | broadcastToOthers (payload : Bytes) (sender : ℕ)
  | closeAllClients
  | handleNewConnection
  | send (c : ℕ) (payload : Bytes)
  | close (c : ℕ)
deriving DecidableEq, Repr

inductive Act where
  | exec (g : ℕ) (order : List ℕ)
  | call (g : ℕ) (f : Call)
  | take (c : ℕ)
deriving DecidableEq, Repr

variable (p : Params)

namespace Hub

def goto (g : ℕ) (k : List Instr) (s : Hub) : Hub := { s with stack := Function.update s.stack g k }

/-- the order in which a loop goes through the client map: any permutation -/
def iteration (s : Hub) (order : List ℕ) : List ℕ := if order.isPerm s.clients then order else s.clients

/-- a goroutine executes its next instruction; one that has to wait leaves the state as it is -/
def exec (g : ℕ) (order : List ℕ) (s : Hub) : Hub :=
  match s.stack g with
  | [] => s
  | .rlock :: k => { s with mu := s.mu.rlock g }.goto g k
  | .rwait :: k => if g ∈ s.mu.waiting then s else s.goto g k
  | .runlock :: k => { s with mu := s.mu.runlock g }.goto g k
  | .lock :: k => if s.mu.writer = none then { s with mu := s.mu.lock g }.goto g k else s
  | .lockWait :: k => if s.mu.readers = [] then { s with mu := s.mu.acquire }.goto g k else s
  | .unlock :: k => { s with mu := s.mu.unlock }.goto g k
  | .sendAll payload sender :: k =>
    s.goto g (((s.iteration order).filter fun c => some c ≠ sender).map (fun c => .send c payload) ++ k)
  | .closeAll :: k => s.goto g (.runlock :: ((s.iteration order).map .close ++ k))
  | .send c payload :: k =>
    if (s.chan c).length < p.clientSendBuffer then
      { s with chan := Function.update s.chan c (s.chan c ++ [payload]) }.goto g k
    else s.goto g (.close c :: k)
  | .close c :: k =>
    match s.once c with
    | .fresh => { s with once := Function.update s.once c (.running g) }.goto g (closeBody c ++ k)
    | .running _ => s
    | .done => s.goto g k
  | .onceDone c :: k => { s with once := Function.update s.once c .done }.goto g k
  | .register c :: k =>
    if s.clients.length < p.maxClients then
      { s with clients := s.clients ++ [c], started := s.started ++ [c] }.goto g k
    else s.goto g k
  | .delete c :: k => { s with clients := s.clients.erase c }.goto g k

/-- an idle goroutine calls a function; a client's own goroutines exist once it has been registered -/
def call (g : ℕ) (f : Call) (s : Hub) : Hub :=
  if s.stack g = [] then
    match f with
    | .broadcast payload => s.goto g (HubLocks.broadcast payload)
    | .broadcastToOthers payload sender => s.goto g (HubLocks.broadcastToOthers payload sender)
    | .closeAllClients => s.goto g HubLocks.closeAllClients
    | .handleNewConnection => { s with created := s.created + 1 }.goto g (HubLocks.handleNewConnection s.created)
    | .send c payload => if c ∈ s.started then s.goto g [.send c payload] else s
    | .close c => if c ∈ s.started then s.goto g [.close c] else s
  else s

/-- the client's writeLoop takes the oldest frame -/
def take (c : ℕ) (s : Hub) : Hub := { s with chan := Function.update s.chan c (s.chan c).tail }

end Hub

def step (s : Hub) : Act → Hub
  | .exec g order => s.exec p g order
  | .call g f => s.call g f
  | .take c => s.take c

/-! ## Requests and waiting -/

/-- the goroutine is about to call RLock or Lock of p.mu -/
def Requests (s : Hub) (g : ℕ) : Prop := (s.stack g).head? = some .rlock ∨ (s.stack g).head? = some .lock

/-- the goroutine cannot go on before another one has: a queued reader before the writer, a writer before the one that
announced itself first and then before the readers, a second caller of Close before the first -/
def WaitsFor (s : Hub) (g g' : ℕ) : Prop :=
  match s.stack g with
  | .rwait :: _ => g ∈ s.mu.waiting ∧ s.mu.writer = some g'
  | .lock :: _ => s.mu.writer = some g'
  | .lockWait :: _ => g' ∈ s.mu.readers
  | .close c :: _ => s.once c = .running g'
  | _ => False

instance (s : Hub) (g : ℕ) : Decidable (Requests s g) := inferInstanceAs (Decidable (_ ∨ _))

instance (s : Hub) (g g' : ℕ) : Decidable (WaitsFor s g g') := by
  unfold WaitsFor
  split <;> infer_instance

/-- the condition: a Send of a broadcast, that is, under the read lock, finds room -/
def NoFullBroadcast (s : Hub) : Act → Prop
  | .exec g _ =>
    match s.stack g with
    | .send c _ :: _ => g ∈ s.mu.readers → (s.chan c).length < p.clientSendBuffer
    | _ => True
  | _ => True

instance (s : Hub) (a : Act) : Decidable (NoFullBroadcast p s a) := by
  unfold NoFullBroadcast
  split
  · split <;> infer_instance
  · infer_instance

/-! ## The discipline -/

/-- the instructions use p.mu properly, starting in a mode: one lock at a time, sends and closes outside the write lock,
closes outside the read lock too -/
def Disciplined : Mode → List Instr → Prop
  | m, [] => m = .free
  | m, .rlock :: k => m = .free ∧ Disciplined .queued k
  | m, .rwait :: k => (m = .queued ∨ m = .reading) ∧ Disciplined .reading k
  | m, .runlock :: k => m = .reading ∧ Disciplined .free k
  | m, .lock :: k => m = .free ∧ Disciplined .announced k
  | m, .lockWait :: k => m = .announced ∧ Disciplined .writing k
  | m, .unlock :: k => m = .writing ∧ Disciplined .free k
  | m, .sendAll _ _ :: k => m = .reading ∧ Disciplined .reading k
  | m, .closeAll :: k => m = .reading ∧ Disciplined .free k
  | m, .send _ _ :: k => (m = .free ∨ m = .reading) ∧ Disciplined m k
  | m, .close _ :: k => m = .free ∧ Disciplined .free k
  | m, .onceDone _ :: k => m = .free ∧ Disciplined .free k
  | m, .register _ :: k => m = .writing ∧ Disciplined .writing k
  | m, .delete _ :: k => m = .writing ∧ Disciplined .writing k

theorem disciplined_sends {k : List Instr} (h : Disciplined .reading k) (cs : List ℕ) (payload : Bytes) :
    Disciplined .reading (cs.map (fun c => .send c payload) ++ k) := by
  induction cs with
  | nil => exact h
  | cons c cs ih => exact ⟨Or.inr rfl, ih⟩

theorem disciplined_closes {k : List Instr} (h : Disciplined .free k) (cs : List ℕ) :
    Disciplined .free (cs.map .close ++ k) := by
  induction cs with
  | nil => exact h
  | cons c cs ih => exact ⟨rfl, ih⟩

/-- a reader that is let in goes on as it would have -/
theorem disciplined_let_in {k : List Instr} (h : Disciplined .queued k) : Disciplined .reading k := by
  cases k with
  | nil => cases h
  | cons i k =>
    cases i with
    | rwait => exact ⟨Or.inr rfl, h.2⟩
    | send c payload => rcases h.1 with h | h <;> cases h
    | _ => cases h.1

/-- a goroutine inside closeOnce.Do is inside its body -/
def InBody (c : ℕ) (k : List Instr) : Prop := ∃ b, b ≠ [] ∧ b <:+ closeBody c ∧ b <+: k

structure Inv (s : Hub) : Prop where
  mu : s.mu.WF
  uses : ∀ g, Disciplined (s.mu.mode g) (s.stack g)
  once : ∀ c g, s.once c = .running g → InBody c (s.stack g)
  room : s.clients.length ≤ p.maxClients

theorem init_inv : Inv p init where
  mu := ⟨List.nodup_nil, List.nodup_nil, by simp [init], by simp [init], by simp [init], by simp [init]⟩
  uses := fun g => rfl
  once := fun c g h => by cases h
  room := Nat.zero_le _

theorem InBody.mem {c : ℕ} {i : Instr} {k : List Instr} (h : InBody c (i :: k)) : i ∈ closeBody c := by
  obtain ⟨b, hne, hsuf, hpre⟩ := h
  cases b with
  | nil => exact absurd rfl hne
  | cons j b =>
    obtain ⟨rfl, -⟩ := List.cons_prefix_cons.1 hpre
    exact hsuf.subset List.mem_cons_self

/-- the body goes on until its last instruction -/
theorem InBody.pop {c : ℕ} {i : Instr} {k : List Instr} (h : InBody c (i :: k)) : i = .onceDone c ∨ InBody c k := by
  obtain ⟨b, hne, hsuf, hpre⟩ := h
  cases b with
  | nil => exact absurd rfl hne
  | cons j b =>
    obtain ⟨rfl, hrest⟩ := List.cons_prefix_cons.1 hpre
    by_cases hb : b = []
    · left
      subst hb
      have hlast : [j] <:+ unregisterClient c ++ [.onceDone c] := hsuf
      obtain ⟨t, ht⟩ := hlast
      exact (List.append_inj' ht rfl).2 |> List.singleton_inj.1
    · exact Or.inr ⟨b, hb, (List.suffix_cons j b).trans hsuf, hrest⟩

variable {p} {s : Hub}

/-! ## One instruction -/

theorem exec_stack_of_ne {g x : ℕ} (hx : x ≠ g) (order : List ℕ) : (s.exec p g order).stack x = s.stack x := by
  unfold Hub.exec
  split <;> (repeat' split) <;> simp [Hub.goto, hx]

/-- the mutex stays well formed, and the others keep their mode or are let in -/
theorem exec_mutex (h : Inv p s) (g : ℕ) (order : List ℕ) :
    (s.exec p g order).mu.WF ∧
      ∀ x ≠ g, (s.exec p g order).mu.mode x = s.mu.mode x ∨
        (s.mu.mode x = .queued ∧ (s.exec p g order).mu.mode x = .reading) := by
  have same : s.mu.WF ∧ ∀ x ≠ g, s.mu.mode x = s.mu.mode x ∨ (s.mu.mode x = .queued ∧ s.mu.mode x = .reading) :=
    ⟨h.mu, fun x _ => Or.inl rfl⟩
  have huses := h.uses g
  cases hs : s.stack g with
  | nil => simpa only [Hub.exec, hs] using same
  | cons i k =>
    rw [hs] at huses
    cases i with
    | rlock =>
      have hm := huses.1
      simp only [Hub.exec, hs]
      exact ⟨RWMutex.rlock_wf h.mu hm, fun x hx => Or.inl ((RWMutex.mode_rlock hm).2 x hx)⟩
    | runlock =>
      simp only [Hub.exec, hs]
      exact ⟨RWMutex.runlock_wf h.mu, fun x hx => Or.inl ((RWMutex.mode_runlock h.mu huses.1).2 x hx)⟩
    | lock =>
      simp only [Hub.exec, hs]
      split_ifs with hn
      · exact ⟨RWMutex.lock_wf h.mu huses.1, fun x hx => Or.inl ((RWMutex.mode_lock hn).2 x hx)⟩
      · exact same
    | lockWait =>
      simp only [Hub.exec, hs]
      split_ifs with hr
      · exact ⟨RWMutex.acquire_wf h.mu huses.1 hr, fun x hx => Or.inl ((RWMutex.mode_acquire huses.1).2 x hx)⟩
      · exact same
    | unlock =>
      simp only [Hub.exec, hs]
      exact ⟨RWMutex.unlock_wf h.mu, (RWMutex.mode_unlock h.mu huses.1).2⟩
    | rwait | send c payload | register c =>
      simp only [Hub.exec, hs]
      split_ifs <;> exact same
    | close c =>
      simp only [Hub.exec, hs]
      split <;> exact same
    | sendAll payload sender | closeAll | onceDone c | delete c =>
      simp only [Hub.exec, hs]
      exact same

/-- inside the condition the goroutine itself keeps the discipline -/
theorem exec_uses (h : Inv p s) {g : ℕ} {order : List ℕ} (hcond : NoFullBroadcast p s (.exec g order)) :
    Disciplined ((s.exec p g order).mu.mode g) ((s.exec p g order).stack g) := by
  have huses := h.uses g
  cases hs : s.stack g with
  | nil =>
    simpa only [Hub.exec, hs] using huses
  | cons i k =>
    rw [hs] at huses
    cases i with
    | rlock =>
      obtain ⟨hm, hk⟩ := huses
      simp only [Hub.exec, hs, Hub.goto, Function.update_self]
      rcases (RWMutex.mode_rlock hm).1 with hmine | hmine <;> rw [hmine]
      · exact disciplined_let_in hk
      · exact hk
    | rwait =>
      simp only [Hub.exec, hs]
      split_ifs with hq
      · rw [hs]; exact huses
      · have hm : s.mu.mode g = .reading := huses.1.resolve_left fun hm => hq (h.mu.mode_queued.1 hm)
        simp only [Hub.goto, Function.update_self, hm]
        exact huses.2
    | runlock =>
      simp only [Hub.exec, hs, Hub.goto, Function.update_self, (RWMutex.mode_runlock h.mu huses.1).1]
      exact huses.2
    | lock =>
      simp only [Hub.exec, hs]
      split_ifs with hn
      · simp only [Hub.goto, Function.update_self, (RWMutex.mode_lock (g := g) hn).1]
        exact huses.2
      · rw [hs]; exact huses
    | lockWait =>
      simp only [Hub.exec, hs]
      split_ifs with hr
      · simp only [Hub.goto, Function.update_self, (RWMutex.mode_acquire huses.1).1]
        exact huses.2
      · rw [hs]; exact huses
    | unlock =>
      simp only [Hub.exec, hs, Hub.goto, Function.update_self, (RWMutex.mode_unlock h.mu huses.1).1]
      exact huses.2
    | sendAll payload sender =>
      simp only [Hub.exec, hs, Hub.goto, Function.update_self, huses.1]
      exact disciplined_sends huses.2 _ payload
    | closeAll =>
      simp only [Hub.exec, hs, Hub.goto, Function.update_self]
      exact ⟨huses.1, disciplined_closes huses.2 _⟩
    | send c payload =>
      simp only [Hub.exec, hs]
      split_ifs with hroom
      · simp only [Hub.goto, Function.update_self]
        exact huses.2
      · -- a full channel is only met outside the read lock
        have hm : s.mu.mode g = .free := by
          rcases huses.1 with hm | hm
          · exact hm
          · simp only [NoFullBroadcast, hs] at hcond
            exact absurd (hcond (h.mu.mode_reading.1 hm)) hroom
        rw [hm] at huses
        simp only [Hub.goto, Function.update_self]
        exact ⟨hm, huses.2⟩
    | close c =>
      obtain ⟨hm, hk⟩ := huses
      simp only [Hub.exec, hs]
      split
      · simpa [Hub.goto, hm, closeBody, unregisterClient, Disciplined] using hk
      · rw [hs]; exact ⟨hm, hk⟩
      · simpa [Hub.goto, hm] using hk
    | register c =>
      simp only [Hub.exec, hs]
      split_ifs <;> simpa [Hub.goto, huses.1] using huses.2
    | onceDone c | delete c =>
      simp only [Hub.exec, hs, Hub.goto, Function.update_self, huses.1]
      exact huses.2

/-- before an instruction that the body does not have, not inside closeOnce.Do -/
theorem Inv.not_running (h : Inv p s) {g : ℕ} {i : Instr} {k : List Instr} (hs : s.stack g = i :: k)
    (hi : ∀ c, i ∉ closeBody c) (c : ℕ) : s.once c ≠ .running g := by
  intro hc
  have hb := h.once c g hc
  rw [hs] at hb
  exact hi c hb.mem

/-- whoever is inside closeOnce.Do is inside its body -/
theorem exec_once (h : Inv p s) (g : ℕ) (order : List ℕ) (c x : ℕ) (hc : (s.exec p g order).once c = .running x) :
    InBody c ((s.exec p g order).stack x) := by
  cases hs : s.stack g with
  | nil =>
    simp only [Hub.exec, hs] at hc ⊢
    exact h.once c x hc
  | cons i k =>
    -- an instruction that leaves closeOnce alone and is popped or expanded
    have pop (hsame : s.once c = .running x) (hi : i ≠ .onceDone c) (k' : List Instr)
        (hk : k' = k ∨ ∀ c, i ∉ closeBody c) : InBody c (Function.update s.stack g k' x) := by
      have hb := h.once c x hsame
      by_cases hx : x = g
      · subst hx
        rw [Function.update_self]
        rcases hk with rfl | hi'
        · rw [hs] at hb
          exact hb.pop.resolve_left hi
        · exact absurd hsame (h.not_running hs hi' c)
      · rwa [Function.update_of_ne hx]
    cases i with
    | close c' =>
      have hnot : ∀ c, Instr.close c' ∉ closeBody c := by simp [closeBody, unregisterClient]
      simp only [Hub.exec, hs] at hc ⊢
      split at hc
      · by_cases hcc : c = c'
        · subst hcc
          simp only [Hub.goto, Function.update_self, Once.running.injEq] at hc ⊢
          subst hc
          rw [Function.update_self]
          exact ⟨closeBody c, by simp [closeBody], List.suffix_rfl, List.prefix_append _ _⟩
        · simp only [Hub.goto, Function.update_of_ne hcc] at hc
          exact pop hc (by simp) _ (Or.inr hnot)
      · exact h.once c x hc
      · exact pop hc (by simp) _ (Or.inr hnot)
    | onceDone c' =>
      simp only [Hub.exec, hs, Hub.goto] at hc ⊢
      by_cases hcc : c = c'
      · subst hcc
        simp at hc
      · rw [Function.update_of_ne hcc] at hc
        exact pop hc (fun e => hcc (Instr.onceDone.inj e).symm) _ (Or.inl rfl)
    | send c' payload =>
      simp only [Hub.exec, hs] at hc ⊢
      split_ifs at hc ⊢
      · exact pop hc (by simp) _ (Or.inl rfl)
      · exact pop hc (by simp) _ (Or.inr (by simp [closeBody, unregisterClient]))
    | sendAll payload sender | closeAll =>
      simp only [Hub.exec, hs] at hc ⊢
      exact pop hc (by simp) _ (Or.inr (by simp [closeBody, unregisterClient]))
    | rwait | lock | lockWait | register c' =>
      simp only [Hub.exec, hs] at hc ⊢
      split_ifs at hc ⊢ <;> first | exact h.once c x hc | exact pop hc (by simp) _ (Or.inl rfl)
    | rlock | runlock | unlock | delete c' =>
      simp only [Hub.exec, hs] at hc ⊢
      exact pop hc (by simp) _ (Or.inl rfl)

theorem exec_room (h : Inv p s) (g : ℕ) (order : List ℕ) : (s.exec p g order).clients.length ≤ p.maxClients := by
  have hroom := h.room
  unfold Hub.exec
  split
  case h_13 c k hs =>
    split_ifs with hlt
    · simpa [Hub.goto] using hlt
    · exact hroom
  case h_14 c k hs => exact List.length_erase_le.trans hroom
  all_goals repeat' split
  all_goals exact hroom

/-- **One instruction.** Inside the condition an instruction keeps the discipline of every goroutine. -/
theorem exec_inv (h : Inv p s) {g : ℕ} {order : List ℕ} (hcond : NoFullBroadcast p s (.exec g order)) :
    Inv p (s.exec p g order) where
  mu := (exec_mutex h g order).1
  uses := by
    intro x
    by_cases hx : x = g
    · rw [hx]
      exact exec_uses h hcond
    · rw [exec_stack_of_ne hx]
      rcases (exec_mutex h g order).2 x hx with hm | ⟨hq, hr⟩
      · rw [hm]
        exact h.uses x
      · rw [hr]
        exact disciplined_let_in (hq ▸ h.uses x)
  once := exec_once h g order
  room := exec_room h g order

/-! ## Runs -/

/-- a goroutine that starts with disciplined instructions -/
theorem Inv.start (h : Inv p s) {g : ℕ} (hidle : s.stack g = []) {k : List Instr} (hk : Disciplined .free k) :
    Inv p (s.goto g k) where
  mu := h.mu
  uses := by
    intro x
    by_cases hx : x = g
    · subst hx
      have hm : s.mu.mode x = .free := by
        have := h.uses x
        rwa [hidle] at this
      simpa [Hub.goto, hm] using hk
    · simpa [Hub.goto, hx] using h.uses x
  once := by
    intro c x hc
    have hb := h.once c x hc
    by_cases hx : x = g
    · subst hx
      rw [hidle] at hb
      obtain ⟨b, hne, -, hpre⟩ := hb
      exact absurd (List.prefix_nil.1 hpre) hne
    · simpa [Hub.goto, hx] using hb
  room := h.room

/-- a call takes no lock yet -/
theorem call_mu (g : ℕ) (f : Call) : (s.call g f).mu = s.mu := by
  unfold Hub.call
  split_ifs
  · cases f with
    | send c payload | close c => dsimp only; split_ifs <;> rfl
    | _ => rfl
  · rfl

theorem call_inv (h : Inv p s) (g : ℕ) (f : Call) : Inv p (s.call g f) := by
  unfold Hub.call
  split_ifs with hidle
  · cases f with
    | handleNewConnection =>
      have h' : Inv p { s with created := s.created + 1 } := ⟨h.mu, h.uses, h.once, h.room⟩
      exact h'.start hidle (by simp [HubLocks.handleNewConnection, Disciplined])
    | send c payload | close c =>
      dsimp only
      split_ifs
      · exact h.start hidle (by simp [Disciplined])
      · exact h
    | broadcast payload => exact h.start hidle (by simp [HubLocks.broadcast, Disciplined])
    | broadcastToOthers payload sender => exact h.start hidle (by simp [HubLocks.broadcastToOthers, Disciplined])
    | closeAllClients => exact h.start hidle (by simp [HubLocks.closeAllClients, Disciplined])
  · exact h

theorem step_inv (h : Inv p s) (a : Act) (hcond : NoFullBroadcast p s a) : Inv p (step p s a) := by
  cases a with
  | exec g order => exact exec_inv h hcond
  | call g f => exact call_inv h g f
  | take c => exact ⟨h.mu, h.uses, h.once, h.room⟩

theorem reachable_inv {as : List Act} (h : Along (step p) (NoFullBroadcast p) init as) : Inv p (run (step p) init as) :=
  run_inv (I := Inv p) (fun _ a hs ha => step_inv hs a ha) (init_inv p) h

/-! ## No goroutine waits for itself -/

theorem Inv.requests_free (h : Inv p s) {g : ℕ} (hr : Requests s g) : s.mu.mode g = .free := by
  have huses := h.uses g
  cases hs : s.stack g with
  | nil =>
    rw [hs] at huses
    exact huses
  | cons i k =>
    rw [hs] at huses
    rcases hr with hr | hr <;> rw [hs] at hr <;> cases hr <;> exact huses.1

/-- how far a goroutine is from going on: a second caller of Close waits for the first, which waits for p.mu, whose
writer waits for the readers -/
def rank (s : Hub) (g : ℕ) : ℕ :=
  match s.stack g with
  | .close _ :: _ => 3
  | .lock :: _ => 2
  | .rwait :: _ => if g ∈ s.mu.waiting then 2 else 0
  | .lockWait :: _ => 1
  | _ => 0

theorem Inv.rank_writer (h : Inv p s) {g : ℕ} (hw : s.mu.writer = some g) : rank s g ≤ 1 ∧ s.stack g ≠ [] := by
  have huses := h.uses g
  have hm : s.mu.mode g = .writing ∨ s.mu.mode g = .announced := by
    rw [RWMutex.mode_of_writer hw]
    cases s.mu.writing <;> simp
  unfold rank
  cases hs : s.stack g with
  | nil =>
    rw [hs] at huses
    rcases hm with hm | hm <;> rw [hm] at huses <;> cases huses
  | cons i k =>
    rw [hs] at huses
    refine ⟨?_, List.cons_ne_nil i k⟩
    cases i with
    | close c | lock =>
      rcases hm with hm | hm <;> rw [hm] at huses <;> cases huses.1
    | rwait =>
      rcases hm with hm | hm <;> rw [hm] at huses <;> rcases huses.1 with hq | hq <;> cases hq
    | _ => simp

theorem Inv.rank_reader (h : Inv p s) {g : ℕ} (hr : g ∈ s.mu.readers) : rank s g = 0 ∧ s.stack g ≠ [] := by
  have huses := h.uses g
  rw [h.mu.mode_reading.2 hr] at huses
  unfold rank
  cases hs : s.stack g with
  | nil =>
    rw [hs] at huses
    cases huses
  | cons i k =>
    rw [hs] at huses
    refine ⟨?_, List.cons_ne_nil i k⟩
    cases i with
    | close c | lock | lockWait => cases huses.1
    | rwait => exact if_neg fun hq => h.mu.disjoint g hq hr
    | _ => rfl

theorem Inv.rank_running (h : Inv p s) {c g : ℕ} (hc : s.once c = .running g) : rank s g ≤ 2 ∧ s.stack g ≠ [] := by
  have hb := h.once c g hc
  unfold rank
  cases hs : s.stack g with
  | nil =>
    rw [hs] at hb
    obtain ⟨b, hne, -, hpre⟩ := hb
    exact absurd (List.prefix_nil.1 hpre) hne
  | cons i k =>
    rw [hs] at hb
    refine ⟨?_, List.cons_ne_nil i k⟩
    have hmem := hb.mem
    simp only [closeBody, unregisterClient, List.cons_append, List.nil_append, List.mem_cons, List.not_mem_nil,
      or_false] at hmem
    rcases hmem with rfl | rfl | rfl | rfl | rfl <;> simp

/-- **Waiting goes down in rank**, and only to goroutines that are not idle. -/
theorem Inv.waits_rank (h : Inv p s) {g g' : ℕ} (hw : WaitsFor s g g') : rank s g' < rank s g ∧ s.stack g' ≠ [] := by
  unfold WaitsFor at hw
  split at hw
  · rename_i k hs
    obtain ⟨hr, hne⟩ := h.rank_writer hw.2
    refine ⟨?_, hne⟩
    have hg : rank s g = 2 := by simp only [rank, hs, if_pos hw.1]
    omega
  · rename_i k hs
    obtain ⟨hr, hne⟩ := h.rank_writer hw
    refine ⟨?_, hne⟩
    have hg : rank s g = 2 := by simp only [rank, hs]
    omega
  · rename_i k hs
    obtain ⟨hr, hne⟩ := h.rank_reader hw
    refine ⟨?_, hne⟩
    have hg : rank s g = 1 := by simp only [rank, hs]
    omega
  · rename_i c k hs
    obtain ⟨hr, hne⟩ := h.rank_running hw
    refine ⟨?_, hne⟩
    have hg : rank s g = 3 := by simp only [rank, hs]
    omega
  · exact absurd hw id

theorem Inv.no_deadlock (h : Inv p s) : ¬Deadlock (WaitsFor s) :=
  no_deadlock_of_rank (rank s) fun _ _ hw => (h.waits_rank hw).1

end MeshProxy.HubLocks
