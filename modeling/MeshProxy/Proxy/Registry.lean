/-
The registry of clients (`internal/proxy/proxy.go`: Run, handleNewConnection, unregisterClient, closeAllClients;
`client.go`: Start, Wait, Run, Close).

The goroutine of Proxy.Run accepts connections one after the other and, once its context is cancelled, shuts down: it takes
a snapshot of the clients, closes each of them, waits for their goroutines and returns. Each registered client has a
goroutine in Client.Run. Anybody who finds a client in the registry may call Close, at any moment: the first call runs the
body of closeOnce (close the connection, unregister), the others wait until it has been run.

A critical section of p.mu is one step. The updates of the map are numbered (`version`), and the count and the addresses
a call has taken under the lock (`Note`) are stored and published in later steps of that call. The order of a range over
the map is not modelled.

- `client_lifecycle`: the limit, one unregisterClient for each client, what a finished Client.Run and a finished Proxy.Run
  leave behind;
- `gauge_agrees`: between calls the gauge and the last "clients" event are those of the registry, in every run in which no
  call stores or publishes after a call that changed the map later has done so.
-/
import MeshProxy.Core.Trace

namespace MeshProxy.Registry

open MeshProxy.Trace

/-! ## The machine -/

/-- what a call takes under the lock: the number of its update of the map, and the count and addresses after it -/
structure Note where
  version : ℕ
  count : ℕ
  addrs : List String
deriving DecidableEq, Repr

/-- closeOnce, and how far its body is: the connection is closed in `closing`, the map updated in `unregistering`, then the
gauge is stored and the event published -/
inductive Once where
  | fresh
  | closing
  | unregistering
  | storing (n : Note)
  | publishing (n : Note)
  | done
deriving DecidableEq, Repr

/-- the goroutine of Client.Run: its loops, then the Close of Wait -/
inductive RunPc where
  | absent
  | loops
  | closing
  | returned
deriving DecidableEq, Repr

structure Client where
  addr : String := ""
  once : Once := .fresh
  run : RunPc := .absent
  connClosed : Bool := false
  /-- whether it has been put into the map, and how often unregisterClient has been run for it -/
  registered : Bool := false
  unregistered : ℕ := 0
deriving DecidableEq, Repr

/-- where Proxy.Run is; `handling` to `spawning` are inside handleNewConnection, `shutdown` and `closing` inside
closeAllClients -/
inductive Main where
  | accepting
  | handling (c : ℕ)
  | storing (c : ℕ) (n : Note)
  | publishing (c : ℕ) (n : Note)
  | spawning (c : ℕ)
  | shutdown
  | closing (rest : List ℕ)
  | waiting
  | returned
deriving DecidableEq, Repr

structure St where
  maxClients : ℕ
  main : Main
  cancelled : Bool
  /-- accepted connections, by number: `client c` for c < `accepted` -/
  accepted : ℕ
  client : ℕ → Client
  /-- `p.clients` -/
  clients : List ℕ
  version : ℕ
  activeClients : ℕ
  storedVersion : ℕ
  clientsEvent : Option (List String)
  publishedVersion : ℕ

inductive Act where
  | cancel
  | accept (addr : String)
  | acceptFails
  | main
  | close (c : ℕ)
  | body (c : ℕ)
  | loopsEnd (c : ℕ)
  | run (c : ℕ)

/-- before the first Accept -/
def St.init (maxClients : ℕ) : St where
  maxClients := maxClients
  main := .accepting
  cancelled := false
  accepted := 0
  client := fun _ => {}
  clients := []
  version := 0
  activeClients := 0
  storedVersion := 0
  clientsEvent := none
  publishedVersion := 0

namespace St

def setClient (s : St) (c : ℕ) (x : Client) : St := { s with client := Function.update s.client c x }

/-- `clientAddrsLocked` -/
def clientAddrs (s : St) : List String := s.clients.map fun c => (s.client c).addr

/-- the map after an update, which gets the next number -/
def updateMap (s : St) (clients : List ℕ) : St := { s with clients := clients, version := s.version + 1 }

/-- count and addresses, read under the lock of the update -/
def note (s : St) : Note := ⟨s.version, s.clients.length, s.clientAddrs⟩

/-- `ActiveClients.Store(count)` -/
def storeCount (s : St) (n : Note) : St := { s with activeClients := n.count, storedVersion := n.version }

/-- `PublishClients(addrs)` -/
def publishClients (s : St) (n : Note) : St := { s with clientsEvent := some n.addrs, publishedVersion := n.version }

/-- a call of Close that finds closeOnce unused starts its body -/
def startClose (s : St) (c : ℕ) : St :=
  if (s.client c).once = .fresh then s.setClient c { s.client c with once := .closing } else s

/-- the part of handleNewConnection under p.mu -/
def register (s : St) (c : ℕ) : St :=
  if s.maxClients ≤ s.clients.length then
    { s.setClient c { s.client c with connClosed := true } with main := .accepting }
  else
    let s := (s.setClient c { s.client c with registered := true }).updateMap (s.clients ++ [c])
    { s with main := .storing c s.note }

/-- the goroutines p.wg counts have returned -/
def RunsOver (s : St) : Prop := ∀ c < s.accepted, (s.client c).run ≠ .loops ∧ (s.client c).run ≠ .closing

instance (s : St) : Decidable s.RunsOver := Nat.decidableBallLT _ _

/-- the next step of Proxy.Run -/
def mainStep (s : St) : St :=
  match s.main with
  | .accepting => s
  | .handling c => s.register c
  | .storing c n => { s.storeCount n with main := .publishing c n }
  | .publishing c n => { s.publishClients n with main := .spawning c }
  | .spawning c => { s.setClient c { s.client c with run := .loops } with main := .accepting }
  | .shutdown => { s with main := .closing s.clients }
  | .closing [] => { s with main := .waiting }
  | .closing (c :: rest) => if (s.client c).once = .done then { s with main := .closing rest } else s.startClose c
  | .waiting => if s.RunsOver then { s with main := .returned } else s
  | .returned => s

/-- the next step of the body of closeOnce -/
def bodyStep (s : St) (c : ℕ) : St :=
  match (s.client c).once with
  | .fresh => s
  | .closing => s.setClient c { s.client c with once := .unregistering, connClosed := true }
  | .unregistering =>
    let s := s.updateMap (s.clients.erase c)
    s.setClient c { s.client c with once := .storing s.note, unregistered := (s.client c).unregistered + 1 }
  | .storing n => (s.storeCount n).setClient c { s.client c with once := .publishing n }
  | .publishing n => (s.publishClients n).setClient c { s.client c with once := .done }
  | .done => s

end St

/-- `close` comes from whoever has found the client in the registry: a broadcast or a replay with a full channel, the
handler of a Disconnect; `loopsEnd` is the end of both loops, for whatever reason -/
def step (s : St) : Act → St
  | .cancel => { s with cancelled := true }
  | .accept addr =>
    if s.main = .accepting then
      { s.setClient s.accepted { addr := addr } with accepted := s.accepted + 1, main := .handling s.accepted }
    else s
  | .acceptFails => if s.main = .accepting ∧ s.cancelled then { s with main := .shutdown } else s
  | .main => s.mainStep
  | .close c => if c ∈ s.clients then s.startClose c else s
  | .body c => s.bodyStep c
  | .loopsEnd c =>
    if (s.client c).run = .loops then s.setClient c { s.client c with run := .closing } else s
  | .run c =>
    if (s.client c).run = .closing then
      if (s.client c).once = .done then s.setClient c { s.client c with run := .returned } else s.startClose c
    else s

/-! ## The life of a client -/

/-- the body has closed the connection -/
def Once.shut : Once → Bool
  | .fresh | .closing => false
  | _ => true

/-- the body has deleted the client from the map -/
def Once.deleted : Once → Bool
  | .fresh | .closing | .unregistering => false
  | _ => true

/-- the connection that handleNewConnection is busy with -/
def Main.about : Main → Option ℕ
  | .handling c | .storing c _ | .publishing c _ | .spawning c => some c
  | _ => none

/-- what holds of a client, in or out of the registry, while Proxy.Run is at `main` -/
structure Good (main : Main) (listed : Prop) (c : ℕ) (x : Client) : Prop where
  listed_iff : listed ↔ x.registered = true ∧ x.once.deleted = false
  fresh : x.registered = false → x.once = .fresh ∧ x.run = .absent ∧ (x.connClosed = true ∨ main = .handling c)
  absent : x.registered = true → x.run = .absent → main.about = some c
  count : x.unregistered = if x.once.deleted = true then 1 else 0
  shut : x.once.shut = true → x.connClosed = true
  returned : x.run = .returned → x.once = .done

structure Inv (s : St) : Prop where
  limit : s.clients.length ≤ s.maxClients
  nodup : s.clients.Nodup
  lt : ∀ c ∈ s.clients, c < s.accepted
  good : ∀ c < s.accepted, Good s.main (c ∈ s.clients) c (s.client c)
  unused : ∀ c, s.accepted ≤ c → s.client c = {}
  about : ∀ c, s.main.about = some c → c < s.accepted ∧ ((s.client c).registered = true ↔ s.main ≠ .handling c)
  snapshot : ∀ rest, s.main = .closing rest → ∀ c ∈ rest, c < s.accepted ∧ (s.client c).registered = true
  ended : s.main = .returned → s.RunsOver

theorem init_inv (maxClients : ℕ) : Inv (.init maxClients) := by
  constructor <;> simp [St.init, Main.about]

/-- a client that handleNewConnection is not busy with does not depend on where Proxy.Run is -/
theorem Good.main {m : Main} {listed : Prop} {c : ℕ} {x : Client} (h : Good m listed c x) (hm : m.about ≠ some c)
    (m' : Main) : Good m' listed c x := by
  refine ⟨h.listed_iff, ?_, ?_, h.count, h.shut, h.returned⟩
  · intro hreg
    obtain ⟨honce, hrun, hclosed | hc⟩ := h.fresh hreg
    · exact ⟨honce, hrun, Or.inl hclosed⟩
    · rw [hc] at hm
      exact absurd rfl hm
  · intro hreg hrun
    exact absurd (h.absent hreg hrun) hm

theorem Good.congr {m : Main} {listed listed' : Prop} {c : ℕ} {x : Client} (h : Good m listed c x)
    (hl : listed' ↔ listed) : Good m listed' c x :=
  ⟨hl.trans h.listed_iff, h.fresh, h.absent, h.count, h.shut, h.returned⟩

variable {s : St}

@[simp] theorem setClient_main (c : ℕ) (x : Client) : (s.setClient c x).main = s.main := rfl
@[simp] theorem setClient_clients (c : ℕ) (x : Client) : (s.setClient c x).clients = s.clients := rfl
@[simp] theorem setClient_accepted (c : ℕ) (x : Client) : (s.setClient c x).accepted = s.accepted := rfl
@[simp] theorem setClient_self (c : ℕ) (x : Client) : (s.setClient c x).client c = x := by simp [St.setClient]

theorem setClient_ne {c k : ℕ} (hk : k ≠ c) (x : Client) : (s.setClient c x).client k = s.client k := by
  simp [St.setClient, hk]

/-- a step about an accepted connection does not touch those to come -/
theorem Inv.unused_of_other {s' : St} (h : Inv s) {c : ℕ} (hc : c < s.accepted) (hacc : s'.accepted = s.accepted)
    (hother : ∀ k, k ≠ c → s'.client k = s.client k) (k : ℕ) (hk : s'.accepted ≤ k) : s'.client k = {} := by
  rw [hacc] at hk
  have hkc : k ≠ c := fun hkc => absurd (hkc ▸ hk) (Nat.not_le.2 hc)
  rw [hother k hkc]
  exact h.unused k hk

/-- a step of one client, which may also take it out of the map; Proxy.Run stays where it is -/
theorem Inv.change {s' : St} (h : Inv s) {c : ℕ} (hc : c < s.accepted) (hmax : s'.maxClients = s.maxClients)
    (hacc : s'.accepted = s.accepted) (hmain : s'.main = s.main) (hother : ∀ k, k ≠ c → s'.client k = s.client k)
    (hmap : s'.clients.Sublist s.clients) (hmem : ∀ k, k ≠ c → (k ∈ s'.clients ↔ k ∈ s.clients))
    (hgood : Good s.main (c ∈ s'.clients) c (s'.client c))
    (hreg : (s'.client c).registered = (s.client c).registered)
    (hrun : s.main = .returned → (s'.client c).run ≠ .loops ∧ (s'.client c).run ≠ .closing) : Inv s' := by
  have hsame (k : ℕ) : (s'.client k).registered = (s.client k).registered := by
    by_cases hk : k = c
    · rw [hk, hreg]
    · rw [hother k hk]
  refine ⟨?_, h.nodup.sublist hmap, ?_, ?_, ?_, ?_, ?_, ?_⟩
  · rw [hmax]
    exact hmap.length_le.trans h.limit
  · intro k hk
    rw [hacc]
    exact h.lt k (hmap.subset hk)
  · intro k hk
    rw [hacc] at hk
    rw [hmain]
    by_cases hkc : k = c
    · subst hkc
      exact hgood
    · rw [hother k hkc]
      exact (h.good k hk).congr (hmem k hkc)
  · exact h.unused_of_other hc hacc hother
  · intro k hk
    rw [hmain] at hk ⊢
    rw [hacc, hsame k]
    exact h.about k hk
  · intro rest hrest k hk
    rw [hmain] at hrest
    rw [hacc, hsame k]
    exact h.snapshot rest hrest k hk
  · intro hm k hk
    rw [hmain] at hm
    rw [hacc] at hk
    by_cases hkc : k = c
    · subst hkc
      exact hrun hm
    · rw [hother k hkc]
      exact h.ended hm k hk

/-- one that does not touch the map -/
theorem Inv.setClient (h : Inv s) {c : ℕ} (hc : c < s.accepted) {x : Client}
    (hgood : Good s.main (c ∈ s.clients) c x) (hreg : x.registered = (s.client c).registered)
    (hrun : s.main = .returned → x.run ≠ .loops ∧ x.run ≠ .closing) : Inv (s.setClient c x) := by
  refine h.change hc rfl rfl rfl (fun k hk => setClient_ne hk x) (List.Sublist.refl _) (fun _ _ => Iff.rfl) ?_ ?_ ?_
  · rw [setClient_self]
    exact hgood
  · rw [setClient_self, hreg]
  · rw [setClient_self]
    exact hrun

theorem Inv.client_lt (h : Inv s) {c : ℕ} (hc : s.client c ≠ {}) : c < s.accepted := by
  by_contra hn
  exact hc (h.unused c (Nat.not_lt.1 hn))

theorem Inv.ended_run (h : Inv s) {c : ℕ} (hc : c < s.accepted) (hm : s.main = .returned) :
    (s.client c).run ≠ .loops ∧ (s.client c).run ≠ .closing := h.ended hm c hc

/-- closeOnce of a registered client goes on, without touching the map -/
theorem Good.advance {m : Main} {listed : Prop} {c : ℕ} {x : Client} (h : Good m listed c x)
    (hreg : x.registered = true) {o : Once} {closed : Bool} (hdel : o.deleted = x.once.deleted)
    (hshut : o.shut = true → closed = true) (hdone : x.once ≠ .done) :
    Good m listed c { x with once := o, connClosed := closed } := by
  refine ⟨?_, ?_, h.absent, ?_, hshut, ?_⟩
  · rw [h.listed_iff, hdel]
  · intro hr
    rw [hreg] at hr
    cases hr
  · rw [h.count, hdel]
  · intro hr
    exact absurd (h.returned hr) hdone

/-- the goroutine of a registered client goes on, wherever Proxy.Run is -/
theorem Good.setRun {m : Main} {listed : Prop} {c : ℕ} {x : Client} (h : Good m listed c x)
    (hreg : x.registered = true) {r : RunPc} (hr : r ≠ .absent) (hdone : r = .returned → x.once = .done) (m' : Main) :
    Good m' listed c { x with run := r } := by
  refine ⟨h.listed_iff, ?_, fun _ habsent => absurd habsent hr, h.count, h.shut, hdone⟩
  intro hn
  rw [hreg] at hn
  cases hn

/-- Close of a client that has been registered -/
theorem startClose_inv (h : Inv s) {c : ℕ} (hc : c < s.accepted) (hreg : (s.client c).registered = true) :
    Inv (s.startClose c) := by
  unfold St.startClose
  split_ifs with hfresh
  · refine h.setClient hc ?_ rfl (h.ended_run hc)
    exact (h.good c hc).advance hreg (by rw [hfresh]; rfl) (fun hs => by cases hs) (by simp [hfresh])
  · exact h

/-- a client with a goroutine or a Close under way has been registered -/
theorem Inv.registered (h : Inv s) {c : ℕ} (hc : c < s.accepted)
    (hx : (s.client c).once ≠ .fresh ∨ (s.client c).run ≠ .absent) : (s.client c).registered = true := by
  by_contra hreg
  obtain ⟨honce, hrun, -⟩ := (h.good c hc).fresh (by simpa using hreg)
  rcases hx with hx | hx
  · exact hx honce
  · exact hx hrun

/-- a client whose goroutine has started -/
theorem Inv.running (h : Inv s) {c : ℕ} (hr : (s.client c).run ≠ .absent) :
    c < s.accepted ∧ (s.client c).registered = true := by
  have hc : c < s.accepted := h.client_lt fun he => hr (by rw [he])
  exact ⟨hc, h.registered hc (Or.inr hr)⟩

/-- the gauge and the event are no part of it -/
theorem Inv.storeCount (h : Inv s) (n : Note) : Inv (s.storeCount n) :=
  ⟨h.limit, h.nodup, h.lt, h.good, h.unused, h.about, h.snapshot, h.ended⟩

theorem Inv.publishClients (h : Inv s) (n : Note) : Inv (s.publishClients n) :=
  ⟨h.limit, h.nodup, h.lt, h.good, h.unused, h.about, h.snapshot, h.ended⟩

/-- unregisterClient, under the lock -/
theorem unregister_inv (h : Inv s) {c : ℕ} (hc : c < s.accepted) (honce : (s.client c).once = .unregistering) (n : Note) :
    Inv ((s.updateMap (s.clients.erase c)).setClient c
      { s.client c with once := .storing n, unregistered := (s.client c).unregistered + 1 }) := by
  have hg := h.good c hc
  have hreg : (s.client c).registered = true := h.registered hc (Or.inl (by simp [honce]))
  refine h.change hc rfl rfl rfl (fun k hk => setClient_ne hk _) List.erase_sublist
    (fun k hk => List.mem_erase_of_ne hk) ?_ ?_ ?_
  · rw [setClient_self]
    refine ⟨?_, ?_, hg.absent, ?_, ?_, ?_⟩
    · simp [St.updateMap, h.nodup.mem_erase_iff, Once.deleted]
    · intro hr
      rw [hreg] at hr
      cases hr
    · simp [hg.count, honce, Once.deleted]
    · intro _
      exact hg.shut (by simp [honce, Once.shut])
    · intro hr
      have hdone := hg.returned hr
      rw [honce] at hdone
      cases hdone
  · rw [setClient_self]
  · rw [setClient_self]
    exact h.ended_run hc

theorem bodyStep_inv (h : Inv s) (c : ℕ) : Inv (s.bodyStep c) := by
  by_cases hfresh : (s.client c).once = .fresh
  · simpa [St.bodyStep, hfresh] using h
  · have hc : c < s.accepted := h.client_lt fun he => hfresh (by rw [he])
    have hreg := h.registered hc (Or.inl hfresh)
    have hg := h.good c hc
    unfold St.bodyStep
    split
    · exact h
    · rename_i ho
      refine h.setClient hc ?_ rfl (h.ended_run hc)
      exact hg.advance hreg (by rw [ho]; rfl) (fun _ => rfl) (by simp [ho])
    · rename_i ho
      exact unregister_inv h hc ho _
    · rename_i n ho
      refine (h.storeCount n).setClient hc ?_ rfl (h.ended_run hc)
      exact hg.advance hreg (by rw [ho]; rfl) (fun _ => hg.shut (by rw [ho]; rfl)) (by simp [ho])
    · rename_i n ho
      refine (h.publishClients n).setClient hc ?_ rfl (h.ended_run hc)
      exact hg.advance hreg (by rw [ho]; rfl) (fun _ => hg.shut (by rw [ho]; rfl)) (by simp [ho])
    · exact h

/-- Proxy.Run moves on from a place where it is not busy with a connection -/
theorem Inv.setMain (h : Inv s) (hidle : s.main.about = none) {m : Main} (hm : m.about = none)
    (hsnap : ∀ rest, m = .closing rest → ∀ c ∈ rest, c < s.accepted ∧ (s.client c).registered = true)
    (hended : m = .returned → s.RunsOver) : Inv { s with main := m } := by
  refine ⟨h.limit, h.nodup, h.lt, ?_, h.unused, ?_, hsnap, hended⟩
  · intro c hc
    exact (h.good c hc).main (by simp [hidle]) m
  · intro c hc
    rw [hm] at hc
    cases hc

theorem Inv.listed_registered (h : Inv s) {c : ℕ} (hc : c ∈ s.clients) : (s.client c).registered = true :=
  ((h.good c (h.lt c hc)).listed_iff.1 hc).1

/-- a step of handleNewConnection, which leaves all other connections alone and does not end Proxy.Run -/
theorem Inv.handle {s' : St} (h : Inv s) {c : ℕ} (habout : s.main.about = some c) (hacc : s'.accepted = s.accepted)
    (hother : ∀ k, k ≠ c → s'.client k = s.client k) (hmem : ∀ k, k ≠ c → (k ∈ s'.clients ↔ k ∈ s.clients))
    (hlimit : s'.clients.length ≤ s'.maxClients) (hnodup : s'.clients.Nodup)
    (hgood : Good s'.main (c ∈ s'.clients) c (s'.client c))
    (hnext : ∀ k, s'.main.about = some k → k = c ∧ ((s'.client c).registered = true ↔ s'.main ≠ .handling c))
    (hclosing : ∀ rest, s'.main ≠ .closing rest) (hreturned : s'.main ≠ .returned) : Inv s' := by
  have hc : c < s.accepted := (h.about c habout).1
  refine ⟨hlimit, hnodup, ?_, ?_, ?_, ?_, fun rest hrest => absurd hrest (hclosing rest),
    fun hend => absurd hend hreturned⟩
  · intro k hk
    rw [hacc]
    by_cases hkc : k = c
    · rw [hkc]
      exact hc
    · exact h.lt k ((hmem k hkc).1 hk)
  · intro k hk
    rw [hacc] at hk
    by_cases hkc : k = c
    · rw [hkc]
      exact hgood
    · have hidle : s.main.about ≠ some k := by
        rw [habout]
        exact fun he => hkc (Option.some.inj he).symm
      rw [hother k hkc]
      exact ((h.good k hk).main hidle s'.main).congr (hmem k hkc)
  · exact h.unused_of_other hc hacc hother
  · intro k hk
    obtain ⟨rfl, hreg⟩ := hnext k hk
    rw [hacc]
    exact ⟨hc, hreg⟩

/-- handleNewConnection, under the lock -/
theorem register_inv (h : Inv s) {c : ℕ} (hm : s.main = .handling c) : Inv (s.register c) := by
  have habout : s.main.about = some c := by rw [hm]; rfl
  obtain ⟨hc, hreg⟩ := h.about c habout
  have hnew : (s.client c).registered = false := by
    by_contra hr
    exact hreg.1 (by simpa using hr) hm
  have hg := h.good c hc
  obtain ⟨honce, hrun, -⟩ := hg.fresh hnew
  have hnot : c ∉ s.clients := fun hin => by
    rw [h.listed_registered hin] at hnew
    cases hnew
  unfold St.register
  split_ifs with hfull
  · -- rejected: its connection is closed and it is never heard of again
    refine h.handle habout rfl (fun k hk => setClient_ne hk _) (fun _ _ => Iff.rfl) h.limit h.nodup ?_
      (fun k hk => by cases hk) (by simp) (by simp)
    simp only [setClient_self]
    refine ⟨hg.listed_iff, fun _ => ⟨honce, hrun, Or.inl rfl⟩, ?_, hg.count, fun _ => rfl, hg.returned⟩
    intro hr
    rw [hnew] at hr
    cases hr
  · have hroom : (s.clients ++ [c]).length ≤ s.maxClients := by
      rw [List.length_append, List.length_singleton]
      omega
    have hnodup : (s.clients ++ [c]).Nodup := List.nodup_append_comm.1 (List.nodup_cons.2 ⟨hnot, h.nodup⟩)
    refine h.handle habout rfl (fun k hk => setClient_ne hk _) (fun k hk => ?_) hroom hnodup ?_ ?_ (by simp) (by simp)
    · simp [St.updateMap, hk]
    · simp only [St.updateMap, setClient_self]
      refine ⟨?_, ?_, fun _ _ => rfl, hg.count, hg.shut, hg.returned⟩
      · simp [honce, Once.deleted]
      · intro hr
        cases hr
    · intro k hk
      cases hk
      refine ⟨rfl, ?_⟩
      simp [St.updateMap]

/-- inside handleNewConnection, after the registration -/
theorem Inv.setBusy (h : Inv s) {c : ℕ} (habout : s.main.about = some c) (hnot : s.main ≠ .handling c) {m : Main}
    (hm : m.about = some c) (hm' : m ≠ .handling c) : Inv { s with main := m } := by
  obtain ⟨hc, hreg⟩ := h.about c habout
  have hg := h.good c hc
  refine h.handle habout rfl (fun _ _ => rfl) (fun _ _ => Iff.rfl) h.limit h.nodup ?_ ?_ ?_ ?_
  · refine ⟨hg.listed_iff, ?_, fun _ _ => hm, hg.count, hg.shut, hg.returned⟩
    intro hr
    rw [hreg.2 hnot] at hr
    cases hr
  · intro k hk
    rw [hm] at hk
    exact ⟨(Option.some.inj hk).symm, iff_of_true (hreg.2 hnot) hm'⟩
  · intro rest hrest
    have hrest' : m = .closing rest := hrest
    rw [hrest'] at hm
    cases hm
  · intro hend
    have hend' : m = .returned := hend
    rw [hend'] at hm
    cases hm

/-- the goroutine of Client.Run starts, and Proxy.Run goes back to Accept -/
theorem spawn_inv (h : Inv s) {c : ℕ} (hm : s.main = .spawning c) :
    Inv { s.setClient c { s.client c with run := .loops } with main := .accepting } := by
  have habout : s.main.about = some c := by rw [hm]; rfl
  obtain ⟨hc, hreg⟩ := h.about c habout
  have hreg : (s.client c).registered = true := hreg.2 (by simp [hm])
  have hg := h.good c hc
  refine h.handle habout rfl (fun k hk => setClient_ne hk _) (fun _ _ => Iff.rfl) h.limit h.nodup ?_
    (fun k hk => by cases hk) (by simp) (by simp)
  simp only [setClient_self]
  exact hg.setRun hreg (by simp) (fun hr => by cases hr) _

theorem mainStep_inv (h : Inv s) : Inv s.mainStep := by
  unfold St.mainStep
  split
  · exact h
  · rename_i c hm
    exact register_inv h hm
  · rename_i c n hm
    exact (h.storeCount n).setBusy (c := c) (by simp [St.storeCount, hm, Main.about]) (by simp [St.storeCount, hm]) rfl
      (by simp)
  · rename_i c n hm
    exact (h.publishClients n).setBusy (c := c) (by simp [St.publishClients, hm, Main.about])
      (by simp [St.publishClients, hm]) rfl (by simp)
  · rename_i c hm
    exact spawn_inv h hm
  · rename_i hm
    refine h.setMain (by rw [hm]; rfl) rfl ?_ (fun hend => by cases hend)
    intro rest hrest c hc
    cases hrest
    exact ⟨h.lt c hc, h.listed_registered hc⟩
  · rename_i hm
    exact h.setMain (by rw [hm]; rfl) rfl (fun rest hrest => by cases hrest) (fun hend => by cases hend)
  · rename_i c rest hm
    have hsnap := h.snapshot (c :: rest) hm
    split_ifs with hdone
    · refine h.setMain (by rw [hm]; rfl) rfl ?_ (fun hend => by cases hend)
      intro rest' hrest k hk
      cases hrest
      exact hsnap k (List.mem_cons_of_mem c hk)
    · obtain ⟨hc, hreg⟩ := hsnap c List.mem_cons_self
      exact startClose_inv h hc hreg
  · rename_i hm
    split_ifs with hover
    · exact h.setMain (by rw [hm]; rfl) rfl (fun rest hrest => by cases hrest) (fun _ => hover)
    · exact h
  · exact h

theorem accept_inv (h : Inv s) (hm : s.main = .accepting) (addr : String) :
    Inv { s.setClient s.accepted { addr := addr } with accepted := s.accepted + 1, main := .handling s.accepted } := by
  have hidle : s.main.about = none := by rw [hm]; rfl
  have hne (k : ℕ) (hk : k < s.accepted) : k ≠ s.accepted := Nat.ne_of_lt hk
  refine ⟨h.limit, h.nodup, fun k hk => Nat.lt_succ_of_lt (h.lt k hk), ?_, ?_, ?_, ?_, ?_⟩
  · intro k hk
    rcases Nat.lt_succ_iff_lt_or_eq.1 hk with hk | hk
    · simp only [setClient_ne (hne k hk)]
      exact (h.good k hk).main (by simp [hidle]) _
    · subst hk
      simp only [setClient_self]
      refine ⟨?_, fun _ => ⟨rfl, rfl, Or.inr rfl⟩, ?_, rfl, ?_, ?_⟩
      · have hnot : s.accepted ∉ s.clients := fun hin => absurd (h.lt _ hin) (lt_irrefl _)
        exact iff_of_false hnot (by simp)
      · intro hr
        cases hr
      · intro hr
        cases hr
      · intro hr
        cases hr
  · intro k hk
    have hk' : s.accepted + 1 ≤ k := hk
    have hkc : k ≠ s.accepted := by omega
    simp only [setClient_ne hkc]
    exact h.unused k (by omega)
  · intro k hk
    cases hk
    refine ⟨Nat.lt_succ_self _, ?_⟩
    simp
  · intro rest hrest
    cases hrest
  · intro hend
    cases hend

theorem step_inv (s : St) (a : Act) (h : Inv s) : Inv (step s a) := by
  cases a with
  | cancel => exact ⟨h.limit, h.nodup, h.lt, h.good, h.unused, h.about, h.snapshot, h.ended⟩
  | accept addr =>
    simp only [step]
    split_ifs with hm
    · exact accept_inv h hm addr
    · exact h
  | acceptFails =>
    simp only [step]
    split_ifs with hm
    · exact h.setMain (by rw [hm.1]; rfl) rfl (fun rest hrest => by cases hrest) (fun hend => by cases hend)
    · exact h
  | main => exact mainStep_inv h
  | close c =>
    simp only [step]
    split_ifs with hc
    · exact startClose_inv h (h.lt c hc) (h.listed_registered hc)
    · exact h
  | body c => exact bodyStep_inv h c
  | loopsEnd c =>
    simp only [step]
    split_ifs with hr
    · obtain ⟨hc, hreg⟩ := h.running (c := c) (by simp [hr])
      refine h.setClient hc ?_ rfl fun hm => absurd hr (h.ended_run hc hm).1
      exact (h.good c hc).setRun hreg (by simp) (fun hn => by cases hn) _
    · exact h
  | run c =>
    simp only [step]
    split_ifs with hr hdone
    · obtain ⟨hc, hreg⟩ := h.running (c := c) (by simp [hr])
      refine h.setClient hc ?_ rfl fun _ => ⟨by simp, by simp⟩
      exact (h.good c hc).setRun hreg (by simp) (fun _ => hdone) _
    · obtain ⟨hc, hreg⟩ := h.running (c := c) (by simp [hr])
      exact startClose_inv h hc hreg
    · exact h

theorem Inv.unregistered_le (h : Inv s) (c : ℕ) : (s.client c).unregistered ≤ 1 := by
  by_cases hc : c < s.accepted
  · rw [(h.good c hc).count]
    split_ifs <;> simp
  · rw [h.unused c (Nat.not_lt.1 hc)]
    exact Nat.zero_le 1

theorem Inv.run_returned (h : Inv s) (c : ℕ) (hr : (s.client c).run = .returned) :
    c ∉ s.clients ∧ (s.client c).connClosed = true := by
  have hc : c < s.accepted := h.client_lt fun he => by rw [he] at hr; cases hr
  have hg := h.good c hc
  have hdone := hg.returned hr
  refine ⟨fun hin => ?_, hg.shut (by rw [hdone]; rfl)⟩
  have hdel := (hg.listed_iff.1 hin).2
  rw [hdone] at hdel
  cases hdel

/-- once Proxy.Run has returned, so has the goroutine of every client that was registered -/
theorem Inv.returned (h : Inv s) (hm : s.main = .returned) {c : ℕ} (hc : c < s.accepted)
    (hreg : (s.client c).registered = true) : (s.client c).run = .returned := by
  obtain ⟨hloops, hclosing⟩ := h.ended hm c hc
  cases hr : (s.client c).run with
  | absent =>
    have hbusy := (h.good c hc).absent hreg hr
    rw [hm] at hbusy
    cases hbusy
  | loops => exact absurd hr hloops
  | closing => exact absurd hr hclosing
  | returned => rfl

theorem startClose_maxClients (s : St) (c : ℕ) : (s.startClose c).maxClients = s.maxClients := by
  unfold St.startClose
  split_ifs <;> rfl

theorem step_maxClients (s : St) (a : Act) : (step s a).maxClients = s.maxClients := by
  cases a with
  | cancel => rfl
  | accept addr => simp only [step]; split_ifs <;> rfl
  | acceptFails => simp only [step]; split_ifs <;> rfl
  | main =>
    simp only [step, St.mainStep]
    split
    case h_2 => unfold St.register; split_ifs <;> rfl
    case h_8 => split_ifs; rfl; exact startClose_maxClients s _
    case h_9 => split_ifs <;> rfl
    all_goals rfl
  | close c => simp only [step]; split_ifs; exact startClose_maxClients s c; rfl
  | body c =>
    simp only [step, St.bodyStep]
    split <;> rfl
  | loopsEnd c => simp only [step]; split_ifs <;> rfl
  | run c => simp only [step]; split_ifs; rfl; exact startClose_maxClients s c; rfl

/-- **The life of a client.** For every interleaving of accepted connections, calls of Close, the goroutines of Client.Run
and the shutdown: the registry never holds more than maxClients clients; unregisterClient is run at most once for each
client; a client whose Run has returned is not in the registry and its connection is closed; and when Proxy.Run has
returned the registry is empty and every connection it ever accepted is closed. -/
theorem client_lifecycle (maxClients : ℕ) (as : List Act) :
    (run step (.init maxClients) as).clients.length ≤ maxClients ∧
    (∀ c, ((run step (.init maxClients) as).client c).unregistered ≤ 1) ∧
    (∀ c, ((run step (.init maxClients) as).client c).run = .returned →
      c ∉ (run step (.init maxClients) as).clients ∧ ((run step (.init maxClients) as).client c).connClosed = true) ∧
    ((run step (.init maxClients) as).main = .returned →
      (run step (.init maxClients) as).clients = [] ∧
      ∀ c < (run step (.init maxClients) as).accepted, ((run step (.init maxClients) as).client c).connClosed = true) := by
  have h : Inv (run step (.init maxClients) as) := run_inv_all step_inv as (init_inv maxClients)
  have hmax : (run step (.init maxClients) as).maxClients = maxClients :=
    run_inv_all (I := fun s => s.maxClients = maxClients) (fun s a hs => (step_maxClients s a).trans hs) as rfl
  generalize run step (.init maxClients) as = s at h hmax ⊢
  refine ⟨hmax ▸ h.limit, h.unregistered_le, h.run_returned, ?_⟩
  intro hm
  constructor
  · rw [List.eq_nil_iff_forall_not_mem]
    intro c hc
    -- a registered client has a goroutine, which has returned and so is not in the registry
    have hr := h.returned hm (h.lt c hc) (h.listed_registered hc)
    exact (h.run_returned c hr).1 hc
  · intro c hc
    by_cases hreg : (s.client c).registered = true
    · exact (h.run_returned c (h.returned hm hc hreg)).2
    · -- never registered: handleNewConnection has rejected it
      obtain ⟨-, -, hclosed | hbusy⟩ := (h.good c hc).fresh (by simpa using hreg)
      · exact hclosed
      · rw [hm] at hbusy
        cases hbusy

/-- one client at a limit of one: a second is rejected, the shutdown closes the first, and Run returns -/
example :
    (run step (.init 1) [.accept "a", .main, .main, .main, .main, .accept "b", .main, .cancel, .acceptFails, .main, .main,
      .body 0, .body 0, .body 0, .body 0, .main, .main, .loopsEnd 0, .run 0, .main]).main = .returned := by
  decide +kernel

/-! ## The gauge and the event -/

/-- who is between an update of the map and the end of its call: Proxy.Run, or the body of a client's Close -/
inductive Who where
  | main
  | client (c : ℕ)
deriving DecidableEq, Repr

def Main.toStore : Main → Option Note
  | .storing _ n => some n
  | _ => none

def Main.toPublish : Main → Option Note
  | .publishing _ n => some n
  | _ => none

def Once.toStore : Once → Option Note
  | .storing n => some n
  | _ => none

def Once.toPublish : Once → Option Note
  | .publishing n => some n
  | _ => none

namespace St

/-- the count that `w` is about to store -/
def toStore (s : St) : Who → Option Note
  | .main => s.main.toStore
  | .client c => (s.client c).once.toStore

/-- the addresses that `w` is about to publish -/
def toPublish (s : St) : Who → Option Note
  | .main => s.main.toPublish
  | .client c => (s.client c).once.toPublish

/-- no call is between its update of the map and its publish; so it is in particular when no call is in progress -/
def Settled (s : St) : Prop := ∀ w, s.toStore w = none ∧ s.toPublish w = none

end St

def actor : Act → Option Who
  | .main => some .main
  | .body c => some (.client c)
  | _ => none

/-- a call does not store or publish after a call that updated the map later has done so -/
def InOrder (s : St) (a : Act) : Prop :=
  ∀ w ∈ actor a, (∀ n ∈ s.toStore w, s.storedVersion < n.version) ∧ ∀ n ∈ s.toPublish w, s.publishedVersion < n.version

instance (s : St) (a : Act) : Decidable (InOrder s a) :=
  inferInstanceAs (Decidable (∀ w ∈ actor a, (∀ n ∈ s.toStore w, _) ∧ ∀ n ∈ s.toPublish w, _))

/-- a step that touches neither the map nor what has been and will be announced of it -/
structure Silent (s s' : St) : Prop where
  note : s'.note = s.note
  toStore : ∀ w, s'.toStore w = s.toStore w
  toPublish : ∀ w, s'.toPublish w = s.toPublish w
  gauge : s'.activeClients = s.activeClients ∧ s'.storedVersion = s.storedVersion
  event : s'.clientsEvent = s.clientsEvent ∧ s'.publishedVersion = s.publishedVersion

/-- an update of the map: its note is the newest, and waits to be stored -/
structure Updates (w : Who) (s s' : St) : Prop where
  version : s'.version = s.version + 1
  note : s'.toStore w = some s'.note
  toPublish : s'.toPublish w = none
  others : ∀ v, v ≠ w → s'.toStore v = s.toStore v ∧ s'.toPublish v = s.toPublish v

structure Stores (w : Who) (n : Note) (s s' : St) : Prop where
  held : s.toStore w = some n
  note : s'.note = s.note
  toStore : s'.toStore w = none
  toPublish : s'.toPublish w = some n
  others : ∀ v, v ≠ w → s'.toStore v = s.toStore v ∧ s'.toPublish v = s.toPublish v
  gauge : s'.activeClients = n.count ∧ s'.storedVersion = n.version
  event : s'.clientsEvent = s.clientsEvent ∧ s'.publishedVersion = s.publishedVersion

structure Publishes (w : Who) (n : Note) (s s' : St) : Prop where
  held : s.toPublish w = some n
  note : s'.note = s.note
  toStore : ∀ v, s'.toStore v = s.toStore v
  toPublish : s'.toPublish w = none
  others : ∀ v, v ≠ w → s'.toPublish v = s.toPublish v
  gauge : s'.activeClients = s.activeClients ∧ s'.storedVersion = s.storedVersion
  event : s'.clientsEvent = some n.addrs ∧ s'.publishedVersion = n.version

/-- what is announced once all that waits has been: the newest note -/
structure Fresh (s : St) : Prop where
  newest : ∀ w n, s.toStore w = some n ∨ s.toPublish w = some n → n.version ≤ s.version ∧ (n.version = s.version → n = s.note)
  gauge : (s.storedVersion = s.version ∧ s.activeClients = s.clients.length) ∨
    ∃ w n, s.toStore w = some n ∧ n.version = s.version
  event : (s.publishedVersion = s.version ∧ ∀ addrs, s.clientsEvent = some addrs → addrs = s.clientAddrs) ∨
    ∃ w n, (s.toStore w = some n ∨ s.toPublish w = some n) ∧ n.version = s.version

theorem note_version {s s' : St} (h : s'.note = s.note) : s'.version = s.version := congrArg Note.version h
theorem note_count {s s' : St} (h : s'.note = s.note) : s'.clients.length = s.clients.length := congrArg Note.count h
theorem note_addrs {s s' : St} (h : s'.note = s.note) : s'.clientAddrs = s.clientAddrs := congrArg Note.addrs h

/-- as long as the map is the same, notes that have been waiting before are no news -/
theorem Fresh.still_newest {s' : St} (h : Fresh s) (hnote : s'.note = s.note) {w : Who} {n : Note}
    (hw : s.toStore w = some n ∨ s.toPublish w = some n) :
    n.version ≤ s'.version ∧ (n.version = s'.version → n = s'.note) := by
  rw [note_version hnote, hnote]
  exact h.newest w n hw

theorem Fresh.silent {s' : St} (h : Fresh s) (hs : Silent s s') : Fresh s' := by
  refine ⟨?_, ?_, ?_⟩
  · intro w n hw
    rw [hs.toStore, hs.toPublish] at hw
    exact h.still_newest hs.note hw
  · rw [note_version hs.note, note_count hs.note, hs.gauge.1, hs.gauge.2]
    rcases h.gauge with hg | ⟨w, n, hw, hn⟩
    · exact Or.inl hg
    · exact Or.inr ⟨w, n, by rw [hs.toStore, hw], hn⟩
  · rw [note_version hs.note, note_addrs hs.note, hs.event.1, hs.event.2]
    rcases h.event with he | ⟨w, n, hw, hn⟩
    · exact Or.inl he
    · exact Or.inr ⟨w, n, by rw [hs.toStore, hs.toPublish]; exact hw, hn⟩

theorem Fresh.updates {s' : St} (h : Fresh s) {w : Who} (hu : Updates w s s') : Fresh s' := by
  refine ⟨?_, Or.inr ⟨w, _, hu.note, rfl⟩, Or.inr ⟨w, _, Or.inl hu.note, rfl⟩⟩
  intro v n hv
  by_cases hvw : v = w
  · subst hvw
    rw [hu.note, hu.toPublish] at hv
    rcases hv with hv | hv
    · cases hv
      exact ⟨le_rfl, fun _ => rfl⟩
    · cases hv
  · rw [(hu.others v hvw).1, (hu.others v hvw).2] at hv
    have hold := (h.newest v n hv).1
    rw [hu.version]
    exact ⟨by omega, fun heq => by omega⟩

/-- a call has stored its count before it publishes -/
theorem toPublish_of_toStore {w : Who} {n : Note} (h : s.toStore w = some n) : s.toPublish w = none := by
  cases w with
  | main =>
    simp only [St.toStore, St.toPublish] at h ⊢
    cases hm : s.main with
    | publishing c k => rw [hm] at h; cases h
    | _ => rfl
  | client c =>
    simp only [St.toStore, St.toPublish] at h ⊢
    cases ho : (s.client c).once with
    | publishing k => rw [ho] at h; cases h
    | _ => rfl

/-- an old note stored in order leaves the newest one waiting -/
theorem Fresh.stores {s' : St} (h : Fresh s) {w : Who} {n : Note} (hw : Stores w n s s')
    (horder : s.storedVersion < n.version) : Fresh s' := by
  have hnew := h.newest w n (Or.inl hw.held)
  refine ⟨?_, ?_, ?_⟩
  · intro v k hv
    by_cases hvw : v = w
    · subst hvw
      rw [hw.toStore, hw.toPublish] at hv
      rcases hv with hv | hv
      · cases hv
      · cases hv
        exact h.still_newest hw.note (Or.inl hw.held)
    · rw [(hw.others v hvw).1, (hw.others v hvw).2] at hv
      exact h.still_newest hw.note hv
  · rw [note_version hw.note, note_count hw.note, hw.gauge.1, hw.gauge.2]
    by_cases hcur : n.version = s.version
    · rw [hnew.2 hcur]
      exact Or.inl ⟨rfl, rfl⟩
    · right
      rcases h.gauge with ⟨hg, -⟩ | ⟨v, k, hv, hk⟩
      · omega
      · have hvw : v ≠ w := by
          intro hvw
          subst hvw
          rw [hw.held] at hv
          cases hv
          exact hcur hk
        exact ⟨v, k, by rw [(hw.others v hvw).1, hv], hk⟩
  · rw [note_version hw.note, note_addrs hw.note, hw.event.1, hw.event.2]
    rcases h.event with he | ⟨v, k, hv, hk⟩
    · exact Or.inl he
    · right
      by_cases hvw : v = w
      · subst hvw
        rcases hv with hv | hv
        · rw [hw.held] at hv
          cases hv
          exact ⟨v, n, Or.inr hw.toPublish, hk⟩
        · rw [toPublish_of_toStore hw.held] at hv
          cases hv
      · exact ⟨v, k, by rw [(hw.others v hvw).1, (hw.others v hvw).2]; exact hv, hk⟩

theorem Fresh.publishes {s' : St} (h : Fresh s) {w : Who} {n : Note} (hw : Publishes w n s s')
    (horder : s.publishedVersion < n.version) : Fresh s' := by
  have hnew := h.newest w n (Or.inr hw.held)
  refine ⟨?_, ?_, ?_⟩
  · intro v k hv
    rw [hw.toStore] at hv
    by_cases hvw : v = w
    · subst hvw
      rw [hw.toPublish] at hv
      rcases hv with hv | hv
      · exact h.still_newest hw.note (Or.inl hv)
      · cases hv
    · rw [hw.others v hvw] at hv
      exact h.still_newest hw.note hv
  · rw [note_version hw.note, note_count hw.note, hw.gauge.1, hw.gauge.2]
    rcases h.gauge with hg | ⟨v, k, hv, hk⟩
    · exact Or.inl hg
    · exact Or.inr ⟨v, k, by rw [hw.toStore, hv], hk⟩
  · rw [note_version hw.note, note_addrs hw.note, hw.event.1, hw.event.2]
    by_cases hcur : n.version = s.version
    · rw [hnew.2 hcur]
      refine Or.inl ⟨rfl, ?_⟩
      intro addrs haddrs
      exact (Option.some.inj haddrs).symm
    · right
      rcases h.event with ⟨he, -⟩ | ⟨v, k, hv, hk⟩
      · omega
      · by_cases hvw : v = w
        · subst hvw
          rcases hv with hv | hv
          · have hnone := toPublish_of_toStore hv
            rw [hw.held] at hnone
            cases hnone
          · rw [hw.held] at hv
            cases hv
            exact absurd hk hcur
        · exact ⟨v, k, by rw [hw.toStore, hw.others v hvw]; exact hv, hk⟩

/-! ### What a step does to them -/

theorem Silent.refl (s : St) : Silent s s := ⟨rfl, fun _ => rfl, fun _ => rfl, ⟨rfl, rfl⟩, ⟨rfl, rfl⟩⟩

theorem Silent.trans {s₁ s₂ s₃ : St} (h : Silent s₁ s₂) (h' : Silent s₂ s₃) : Silent s₁ s₃ :=
  ⟨h'.note.trans h.note, fun w => (h'.toStore w).trans (h.toStore w), fun w => (h'.toPublish w).trans (h.toPublish w),
    ⟨h'.gauge.1.trans h.gauge.1, h'.gauge.2.trans h.gauge.2⟩, ⟨h'.event.1.trans h.event.1, h'.event.2.trans h.event.2⟩⟩

/-- a new state of a client whose address is the same, or does not matter yet -/
theorem clientAddrs_setClient {c : ℕ} {x : Client} (hx : c ∈ s.clients → x.addr = (s.client c).addr) :
    (s.setClient c x).clientAddrs = s.clientAddrs := by
  refine List.map_congr_left fun k hk => ?_
  by_cases hkc : k = c
  · subst hkc
    rw [setClient_self, hx hk]
  · rw [setClient_ne hkc]

theorem note_setClient {c : ℕ} {x : Client} (hx : c ∈ s.clients → x.addr = (s.client c).addr) :
    (s.setClient c x).note = s.note := by
  have haddrs := clientAddrs_setClient hx
  simp only [St.note, haddrs]
  rfl

theorem toStore_setClient (c : ℕ) (x : Client) (w : Who) :
    (s.setClient c x).toStore w = if w = .client c then x.once.toStore else s.toStore w := by
  cases w with
  | main => rfl
  | client k =>
    by_cases hk : k = c
    · subst hk
      simp [St.toStore]
    · simp [St.toStore, hk, setClient_ne hk]

theorem toPublish_setClient (c : ℕ) (x : Client) (w : Who) :
    (s.setClient c x).toPublish w = if w = .client c then x.once.toPublish else s.toPublish w := by
  cases w with
  | main => rfl
  | client k =>
    by_cases hk : k = c
    · subst hk
      simp [St.toPublish]
    · simp [St.toPublish, hk, setClient_ne hk]

theorem silent_setClient {c : ℕ} {x : Client} (hx : c ∈ s.clients → x.addr = (s.client c).addr)
    (hs : x.once.toStore = (s.client c).once.toStore) (hp : x.once.toPublish = (s.client c).once.toPublish) :
    Silent s (s.setClient c x) := by
  refine ⟨note_setClient hx, ?_, ?_, ⟨rfl, rfl⟩, ⟨rfl, rfl⟩⟩
  · intro w
    rw [toStore_setClient]
    split_ifs with hw
    · rw [hw, hs]
      rfl
    · rfl
  · intro w
    rw [toPublish_setClient]
    split_ifs with hw
    · rw [hw, hp]
      rfl
    · rfl

theorem silent_main {m : Main} (hs : m.toStore = s.main.toStore) (hp : m.toPublish = s.main.toPublish) :
    Silent s { s with main := m } := by
  refine ⟨rfl, ?_, ?_, ⟨rfl, rfl⟩, ⟨rfl, rfl⟩⟩
  · intro w
    cases w with
    | main => exact hs
    | client c => rfl
  · intro w
    cases w with
    | main => exact hp
    | client c => rfl

/-- both at once -/
theorem silent_move {c : ℕ} {x : Client} {m : Main} (hx : c ∈ s.clients → x.addr = (s.client c).addr)
    (hs : x.once.toStore = (s.client c).once.toStore) (hp : x.once.toPublish = (s.client c).once.toPublish)
    (hms : m.toStore = s.main.toStore) (hmp : m.toPublish = s.main.toPublish) :
    Silent s { s.setClient c x with main := m } :=
  (silent_setClient hx hs hp).trans (silent_main hms hmp)

theorem silent_startClose (s : St) (c : ℕ) : Silent s (s.startClose c) := by
  unfold St.startClose
  split_ifs with hfresh
  · exact silent_setClient (fun _ => rfl) (by rw [hfresh]; rfl) (by rw [hfresh]; rfl)
  · exact Silent.refl s

/-- **What a step announces** -/
inductive Announces (a : Act) (s s' : St) : Prop
  | silent (h : Silent s s')
  | updates (w : Who) (h : Updates w s s')
  | stores (w : Who) (n : Note) (ha : actor a = some w) (h : Stores w n s s')
  | publishes (w : Who) (n : Note) (ha : actor a = some w) (h : Publishes w n s s')

theorem register_announces {c : ℕ} (hm : s.main = .handling c) : Announces .main s (s.register c) := by
  unfold St.register
  split_ifs with hfull
  · exact .silent (silent_move (fun _ => rfl) rfl rfl (by rw [hm]; rfl) (by rw [hm]; rfl))
  · refine .updates .main ⟨rfl, rfl, rfl, ?_⟩
    intro v hv
    cases v with
    | main => exact absurd rfl hv
    | client k =>
      by_cases hk : k = c
      · subst hk
        simp [St.toStore, St.toPublish, St.updateMap]
      · simp [St.toStore, St.toPublish, St.updateMap, setClient_ne hk]

theorem mainStep_announces (s : St) : Announces .main s s.mainStep := by
  unfold St.mainStep
  split
  · exact .silent (Silent.refl s)
  · rename_i c hm
    exact register_announces hm
  · rename_i c n hm
    refine .stores .main n rfl ⟨by simp [St.toStore, hm, Main.toStore], rfl, rfl, rfl, ?_, ⟨rfl, rfl⟩, ⟨rfl, rfl⟩⟩
    intro v hv
    cases v with
    | main => exact absurd rfl hv
    | client k => exact ⟨rfl, rfl⟩
  · rename_i c n hm
    refine .publishes .main n rfl
      ⟨by simp [St.toPublish, hm, Main.toPublish], rfl, ?_, rfl, ?_, ⟨rfl, rfl⟩, ⟨rfl, rfl⟩⟩
    · intro v
      cases v with
      | main => simp [St.toStore, hm, Main.toStore]
      | client k => rfl
    · intro v hv
      cases v with
      | main => exact absurd rfl hv
      | client k => rfl
  · rename_i c hm
    exact .silent (silent_move (fun _ => rfl) rfl rfl (by rw [hm]; rfl) (by rw [hm]; rfl))
  · rename_i hm
    exact .silent (silent_main (by rw [hm]; rfl) (by rw [hm]; rfl))
  · rename_i hm
    exact .silent (silent_main (by rw [hm]; rfl) (by rw [hm]; rfl))
  · rename_i c rest hm
    split_ifs
    · exact .silent (silent_main (by rw [hm]; rfl) (by rw [hm]; rfl))
    · exact .silent (silent_startClose s c)
  · rename_i hm
    split_ifs
    · exact .silent (silent_main (by rw [hm]; rfl) (by rw [hm]; rfl))
    · exact .silent (Silent.refl s)
  · exact .silent (Silent.refl s)

theorem bodyStep_announces (s : St) (c : ℕ) : Announces (.body c) s (s.bodyStep c) := by
  have hne (v : Who) (hv : v ≠ .client c) (x : Client) (s : St) :
      (s.setClient c x).toStore v = s.toStore v ∧ (s.setClient c x).toPublish v = s.toPublish v := by
    rw [toStore_setClient, toPublish_setClient, if_neg hv, if_neg hv]
    exact ⟨rfl, rfl⟩
  unfold St.bodyStep
  split
  · exact .silent (Silent.refl s)
  · rename_i ho
    exact .silent (silent_setClient (fun _ => rfl) (by rw [ho]; rfl) (by rw [ho]; rfl))
  · have hnote (x : Client) (hx : x.addr = (s.client c).addr) : ((s.updateMap (s.clients.erase c)).setClient c x).note =
        (s.updateMap (s.clients.erase c)).note := note_setClient fun _ => hx
    refine .updates (.client c) ⟨rfl, ?_, ?_, fun v hv => hne v hv _ _⟩
    · rw [toStore_setClient, if_pos rfl]
      refine (congrArg some (hnote _ ?_)).symm
      rfl
    · rw [toPublish_setClient, if_pos rfl]
      rfl
  · rename_i n ho
    refine .stores (.client c) n rfl ⟨?_, ?_, ?_, ?_, fun v hv => hne v hv _ _, ⟨rfl, rfl⟩, ⟨rfl, rfl⟩⟩
    · simp [St.toStore, ho, Once.toStore]
    · exact note_setClient fun _ => rfl
    · rw [toStore_setClient, if_pos rfl]
      rfl
    · rw [toPublish_setClient, if_pos rfl]
      rfl
  · rename_i n ho
    refine .publishes (.client c) n rfl ⟨?_, ?_, ?_, ?_, fun v hv => (hne v hv _ _).2, ⟨rfl, rfl⟩, ⟨rfl, rfl⟩⟩
    · simp [St.toPublish, ho, Once.toPublish]
    · exact note_setClient fun _ => rfl
    · intro v
      rw [toStore_setClient]
      split_ifs with hv
      · rw [hv]
        simp [St.toStore, ho, Once.toStore]
      · rfl
    · rw [toPublish_setClient, if_pos rfl]
      rfl
  · exact .silent (Silent.refl s)

theorem step_announces (h : Inv s) (a : Act) : Announces a s (step s a) := by
  cases a with
  | cancel => exact .silent ⟨rfl, fun w => by cases w <;> rfl, fun w => by cases w <;> rfl, ⟨rfl, rfl⟩, ⟨rfl, rfl⟩⟩
  | accept addr =>
    simp only [step]
    split_ifs with hm
    · have hfree : s.client s.accepted = {} := h.unused _ le_rfl
      have hnot : s.accepted ∉ s.clients := fun hin => absurd (h.lt _ hin) (lt_irrefl _)
      have hnew : Silent s { s.setClient s.accepted { addr := addr } with main := .handling s.accepted } :=
        silent_move (fun hin => absurd hin hnot) (by rw [hfree]) (by rw [hfree]) (by rw [hm]; rfl) (by rw [hm]; rfl)
      exact .silent ⟨hnew.note, hnew.toStore, hnew.toPublish, hnew.gauge, hnew.event⟩
    · exact .silent (Silent.refl s)
  | acceptFails =>
    simp only [step]
    split_ifs with hm
    · exact .silent (silent_main (by rw [hm.1]; rfl) (by rw [hm.1]; rfl))
    · exact .silent (Silent.refl s)
  | main => exact mainStep_announces s
  | close c =>
    simp only [step]
    split_ifs
    · exact .silent (silent_startClose s c)
    · exact .silent (Silent.refl s)
  | body c => exact bodyStep_announces s c
  | loopsEnd c =>
    simp only [step]
    split_ifs
    · exact .silent (silent_setClient (fun _ => rfl) rfl rfl)
    · exact .silent (Silent.refl s)
  | run c =>
    simp only [step]
    split_ifs
    · exact .silent (silent_setClient (fun _ => rfl) rfl rfl)
    · exact .silent (silent_startClose s c)
    · exact .silent (Silent.refl s)

theorem step_fresh {a : Act} (h : Inv s) (hf : Fresh s) (ha : InOrder s a) : Fresh (step s a) := by
  cases step_announces h a with
  | silent hs => exact hf.silent hs
  | updates w hu => exact hf.updates hu
  | stores w n hw hs => exact hf.stores hs ((ha w hw).1 n hs.held)
  | publishes w n hw hp => exact hf.publishes hp ((ha w hw).2 n hp.held)

theorem init_fresh (maxClients : ℕ) : Fresh (.init maxClients) := by
  refine ⟨?_, Or.inl ⟨rfl, rfl⟩, Or.inl ⟨rfl, ?_⟩⟩
  · intro w n hw
    cases w <;> rcases hw with hw | hw <;> cases hw
  · intro addrs haddrs
    cases haddrs

/-- **The gauge and the registry.** In every run in which no call stores or publishes after a call that updated the map
later has done so: whenever no call is between its update of the map and its publish, ActiveClients is the number of
registered clients and the last "clients" event, if there is one, carries their addresses. -/
theorem gauge_agrees (maxClients : ℕ) (as : List Act) (horder : Along step InOrder (.init maxClients) as)
    (hsettled : (run step (.init maxClients) as).Settled) :
    (run step (.init maxClients) as).activeClients = (run step (.init maxClients) as).clients.length ∧
    ∀ addrs, (run step (.init maxClients) as).clientsEvent = some addrs →
      addrs.Perm (run step (.init maxClients) as).clientAddrs := by
  have hinv : Inv (run step (.init maxClients) as) ∧ Fresh (run step (.init maxClients) as) := by
    refine run_inv (I := fun s => Inv s ∧ Fresh s) ?_ ⟨init_inv maxClients, init_fresh maxClients⟩ horder
    intro s a h ha
    exact ⟨step_inv s a h.1, step_fresh h.1 h.2 ha⟩
  generalize run step (.init maxClients) as = s at hsettled hinv ⊢
  obtain ⟨-, hf⟩ := hinv
  constructor
  · rcases hf.gauge with hg | ⟨w, n, hw, -⟩
    · exact hg.2
    · rw [(hsettled w).1] at hw
      cases hw
  · intro addrs haddrs
    rcases hf.event with he | ⟨w, n, hw, -⟩
    · rw [he.2 addrs haddrs]
    · rw [(hsettled w).1, (hsettled w).2] at hw
      rcases hw with hw | hw <;> cases hw

/-! ### Two clients leave -/

/-- two clients connect -/
def twoConnect : List Act :=
  [.accept "a", .main, .main, .main, .main, .accept "b", .main, .main, .main, .main]

/-- both close; the first to leave the map is the first to store and to publish -/
def leaveInOrder : List Act :=
  twoConnect ++ ([.close 0, .close 1, .body 0, .body 1, .body 0, .body 1, .body 0, .body 1, .body 0, .body 1] : List Act)

/-- the second to leave the map stores and publishes first -/
def leaveCrossed : List Act :=
  twoConnect ++ ([.close 0, .close 1, .body 0, .body 1, .body 0, .body 1, .body 1, .body 1, .body 0, .body 0] : List Act)

/-- only accepted clients can be between the two -/
theorem settled_of_accepted (maxClients : ℕ) (as : List Act)
    (hmain : (run step (.init maxClients) as).main.toStore = none ∧ (run step (.init maxClients) as).main.toPublish = none)
    (hclients : ∀ c < (run step (.init maxClients) as).accepted,
      ((run step (.init maxClients) as).client c).once.toStore = none ∧
      ((run step (.init maxClients) as).client c).once.toPublish = none) :
    (run step (.init maxClients) as).Settled := by
  have h : Inv (run step (.init maxClients) as) := run_inv_all step_inv as (init_inv maxClients)
  intro w
  cases w with
  | main => exact hmain
  | client c =>
    by_cases hc : c < (run step (.init maxClients) as).accepted
    · exact hclients c hc
    · simp only [St.toStore, St.toPublish, h.unused c (Nat.not_lt.1 hc)]
      exact ⟨rfl, rfl⟩

theorem gauge_agrees_in_order :
    (run step (.init 2) leaveInOrder).clients = [] ∧ (run step (.init 2) leaveInOrder).activeClients = 0 := by
  have hgauge := gauge_agrees 2 leaveInOrder (by decide +kernel)
    (settled_of_accepted 2 leaveInOrder (by decide +kernel) (by decide +kernel))
  have hnil : (run step (.init 2) leaveInOrder).clients = [] := by decide +kernel
  rw [hnil] at hgauge
  exact ⟨hnil, hgauge.1⟩

/-- crossed, the registry is empty while the gauge says 1 and the last event names the second client -/
theorem gauge_stays_wrong :
    (run step (.init 2) leaveCrossed).Settled ∧ (run step (.init 2) leaveCrossed).clients = [] ∧
    (run step (.init 2) leaveCrossed).activeClients = 1 ∧
    (run step (.init 2) leaveCrossed).clientsEvent = some ["b"] :=
  ⟨settled_of_accepted 2 leaveCrossed (by decide +kernel) (by decide +kernel), by decide +kernel, by decide +kernel,
    by decide +kernel⟩

end MeshProxy.Registry
