/-
The map behind a "node_directory" event (`internal/metrics`: node_directory.go, pubsub.go; `internal/web/server.go`:
the stream loop of handleSSE).

A Go map is a reference. SetNodeDirectory installs the map it is given and publishes the same map; the updates then write
into it, under the directory's lock, while the event waits in the channels of the subscribers, and handleSSE serialises
what it takes from its channel without that lock. The machine here keeps the map objects in a heap: `maps`, by number.
Subscribers come and go, take an event and marshal it as separate steps, and lose events when their channel is full.

- `step_live`: seen through `nodeDir`, the machine does what the calls do to the store's directory;
- `published_directory_iff`: at every moment of a run every waiting event still shows the directory as it was installed,
  exactly when no call changes an entry of a map that a waiting event carries.
-/
import MeshProxy.Metrics.Directory

namespace MeshProxy.PublishedDirectory

open MeshProxy.Store MeshProxy.Trace MeshProxy.Binary32

/-! ## The machine -/

/-- an event in a channel: a directory event carries its map object; what that object held when SetNodeDirectory
installed it is remembered for the statements only -/
inductive Queued where
  | nodeDirectory (map : ℕ) (installed : Directory)
  | other

def sseBufferSize : ℕ := 64

/-- a subscriber: the event it has taken and not yet marshalled, and its channel -/
structure Subscriber where
  taken : Option Queued := none
  channel : List Queued := []

namespace Subscriber

/-- the events the subscriber has not marshalled yet -/
def waiting (b : Subscriber) : List Queued := b.taken.toList ++ b.channel

/-- a send that gives up when the channel is full -/
def offer (e : Queued) (b : Subscriber) : Subscriber :=
  if b.channel.length < sseBufferSize then { b with channel := b.channel ++ [e] } else b

/-- `evt := <-ch` -/
def take (b : Subscriber) : Subscriber :=
  match b.taken, b.channel with
  | none, e :: es => { taken := some e, channel := es }
  | _, _ => b

/-- `json.Marshal(evt.Data)`, after which the event is gone -/
def marshal (b : Subscriber) : Subscriber := { b with taken := none }

end Subscriber

structure St where
  maps : List Directory
  nodeDir : ℕ
  subscribers : List Subscriber

inductive Act where
  /-- a call of the store; SetNodeDirectory gets a map that was made for it, as readLoop's does -/
  | call (c : Call)
  /-- SetNodeDirectory with a map object that exists already -/
  | reinstall (map : ℕ)
  | subscribe
  | unsubscribe (i : ℕ)
  | take (i : ℕ)
  | marshal (i : ℕ)

namespace St

def init : St := ⟨[.empty], 0, []⟩

/-- what a map object holds -/
def map (s : St) (r : ℕ) : Directory := s.maps.getD r .empty

/-- the live directory -/
def live (s : St) : Directory := s.map s.nodeDir

def publish (s : St) (e : Queued) : St := { s with subscribers := s.subscribers.map (·.offer e) }

/-- `SetNodeDirectory(dir)`: the runtime fields are merged into the map it is given, which becomes the directory and the
event's data -/
def install (s : St) (r : ℕ) : St :=
  let dir := merged s.live (s.map r)
  { s with maps := s.maps.set r dir, nodeDir := r }.publish (.nodeDirectory r dir)

/-- `m.nodeDir[n] = e`, and the event of the update -/
def write (s : St) (n : UInt32) (e : NodeEntry) : St :=
  { s with maps := s.maps.set s.nodeDir (s.live.set n e) }.publish .other

/-- the events some subscriber has yet to marshal -/
def waiting (s : St) : List Queued := s.subscribers.flatMap (·.waiting)

end St

def step (s : St) : Act → St
  | .call (.setNodeDirectory dir) => { s with maps := s.maps ++ [dir] }.install s.maps.length
  | .call c =>
    match c.assigns s.live with
    | none => s
    | some (n, e) => s.write n e
  | .reinstall r => if r < s.maps.length then s.install r else s
  | .subscribe => { s with subscribers := s.subscribers ++ [{}] }
  | .unsubscribe i => { s with subscribers := s.subscribers.eraseIdx i }
  | .take i => { s with subscribers := s.subscribers.modify i Subscriber.take }
  | .marshal i => { s with subscribers := s.subscribers.modify i Subscriber.marshal }

/-! ## The property -/

/-- the JSON object of a map: its keys come out sorted, so it is decided by the lookups -/
def serialised (dir : Directory) : UInt32 → Option NodeEntry := dir.get?

/-- whichever waiting directory event is serialised now, it shows what was installed -/
def Snapshots (s : St) : Prop :=
  ∀ r dir, .nodeDirectory r dir ∈ s.waiting → serialised (s.map r) = serialised dir

/-- a waiting event carries the map object -/
def Carried (s : St) (r : ℕ) : Prop := ∃ dir, .nodeDirectory r dir ∈ s.waiting

/-- the step changes no entry of a map object that a waiting event carries -/
def Quiet (s : St) : Act → Prop
  | .call c => ∀ n e, c.assigns s.live = some (n, e) → Carried s s.nodeDir → s.live.get? n = some e
  | .reinstall r => r < s.maps.length → Carried s r →
      ∀ n old e, s.live.get? n = some old → (s.map r).get? n = some e → Metrics.keepRuntime (some old) e = e
  | _ => True

/-! ## What a step does -/

@[simp] theorem publish_maps (s : St) (e : Queued) : (s.publish e).maps = s.maps := rfl

@[simp] theorem publish_nodeDir (s : St) (e : Queued) : (s.publish e).nodeDir = s.nodeDir := rfl

@[simp] theorem publish_map (s : St) (e : Queued) (r : ℕ) : (s.publish e).map r = s.map r := rfl

theorem map_set {s : St} {r : ℕ} (hr : r < s.maps.length) (dir : Directory) (k j : ℕ) (subs : List Subscriber) :
    (St.mk (s.maps.set r dir) k subs).map j = if j = r then dir else s.map j := by
  simp only [St.map, List.getD_eq_getElem?_getD, List.getElem?_set]
  by_cases hj : j = r
  · simp [hj, hr]
  · have hj' : ¬r = j := fun h => hj h.symm
    simp [hj, hj']

/-- a new map object leaves the others as they are -/
theorem map_alloc {s : St} {r : ℕ} (hr : r < s.maps.length) (dir : Directory) (k : ℕ) (subs : List Subscriber) :
    (St.mk (s.maps ++ [dir]) k subs).map r = s.map r := by
  simp [St.map, List.getD_eq_getElem?_getD, List.getElem?_append_left hr]

theorem map_alloc_self (s : St) (dir : Directory) (k : ℕ) (subs : List Subscriber) :
    (St.mk (s.maps ++ [dir]) k subs).map s.maps.length = dir := by
  simp [St.map, List.getD_eq_getElem?_getD]

theorem mem_waiting {s : St} {q : Queued} : q ∈ s.waiting ↔ ∃ b ∈ s.subscribers, q ∈ b.waiting := List.mem_flatMap

theorem waiting_subset_publish {s : St} {e q : Queued} (h : q ∈ s.waiting) : q ∈ (s.publish e).waiting := by
  obtain ⟨b, hb, hq⟩ := mem_waiting.1 h
  refine mem_waiting.2 ⟨b.offer e, List.mem_map_of_mem hb, ?_⟩
  unfold Subscriber.offer
  split_ifs
  · rw [Subscriber.waiting, ← List.append_assoc]
    exact List.mem_append_left _ hq
  · exact hq

theorem mem_waiting_publish {s : St} {e q : Queued} (h : q ∈ (s.publish e).waiting) : q ∈ s.waiting ∨ q = e := by
  obtain ⟨b', hb', hq⟩ := mem_waiting.1 h
  obtain ⟨b, hb, rfl⟩ := List.mem_map.1 hb'
  unfold Subscriber.offer at hq
  split_ifs at hq
  · rw [Subscriber.waiting, ← List.append_assoc] at hq
    rcases List.mem_append.1 hq with hq | hq
    · exact Or.inl (mem_waiting.2 ⟨b, hb, hq⟩)
    · exact Or.inr (List.mem_singleton.1 hq)
  · exact Or.inl (mem_waiting.2 ⟨b, hb, hq⟩)

theorem take_waiting (b : Subscriber) : b.take.waiting = b.waiting := by
  unfold Subscriber.take
  split
  · rename_i e es ht hc
    simp [Subscriber.waiting, ht, hc]
  · rfl

theorem marshal_waiting {b : Subscriber} {q : Queued} (h : q ∈ b.marshal.waiting) : q ∈ b.waiting :=
  List.mem_append_right _ (by simpa [Subscriber.marshal, Subscriber.waiting] using h)

/-- a subscriber's own step leaves no event waiting that was not -/
theorem mem_waiting_modify {s : St} {f : Subscriber → Subscriber} (hf : ∀ b q, q ∈ (f b).waiting → q ∈ b.waiting) {i : ℕ}
    {q : Queued} (h : q ∈ ({ s with subscribers := s.subscribers.modify i f } : St).waiting) : q ∈ s.waiting := by
  obtain ⟨b, hb, hq⟩ := mem_waiting.1 h
  obtain ⟨j, hj⟩ := List.mem_iff_getElem?.1 hb
  rw [List.getElem?_modify] at hj
  obtain ⟨b₀, hb₀, rfl⟩ := Option.map_eq_some_iff.1 hj
  refine mem_waiting.2 ⟨b₀, List.mem_of_getElem? hb₀, ?_⟩
  split_ifs at hq
  · exact hf b₀ q hq
  · exact hq

/-- the merge leaves a map as it is when it changes none of its entries -/
theorem merged_eq_iff (old dir : Directory) :
    serialised (merged old dir) = serialised dir ↔
      ∀ n o e, old.get? n = some o → dir.get? n = some e → Metrics.keepRuntime (some o) e = e := by
  constructor
  · intro h n o e ho he
    have hn := congrFun h n
    simpa [serialised, merged, ho, he] using hn
  · intro h
    funext n
    cases ho : old.get? n with
    | none => cases he : dir.get? n <;> simp [serialised, merged, ho, he, Metrics.keepRuntime]
    | some o =>
      cases he : dir.get? n with
      | none => simp [serialised, merged, he]
      | some e => simp [serialised, merged, ho, he, h n o e ho he]

theorem step_update {c : Call} (hc : ∀ dir, c ≠ .setNodeDirectory dir) (s : St) :
    step s (.call c) = match c.assigns s.live with
      | none => s
      | some (n, e) => s.write n e := by
  cases c with
  | setNodeDirectory dir => exact absurd rfl (hc dir)
  | _ => rfl

/-- **The machine refines the store**: its live directory goes through the calls as the store's does -/
theorem step_live {s : St} (hlive : s.nodeDir < s.maps.length) {m : Metrics} (hm : m.nodeDir = s.live) (c : Call) :
    (step s (.call c)).live = (call m c).nodeDir := by
  by_cases hset : ∃ dir, c = .setNodeDirectory dir
  · obtain ⟨dir, rfl⟩ := hset
    have hlen : s.maps.length < ({ s with maps := s.maps ++ [dir] } : St).maps.length := by simp
    rw [call_nodeDir_replace, hm]
    simp only [step, St.install, St.live, publish_map, publish_nodeDir, map_set hlen, if_true, map_alloc_self]
    rw [map_alloc hlive]
  · have hc : ∀ dir, c ≠ .setNodeDirectory dir := fun dir h => hset ⟨dir, h⟩
    rw [call_nodeDir_update hc, hm, step_update hc]
    cases c.assigns s.live with
    | none => rfl
    | some p => simp only [St.write, assign, St.live, publish_map, publish_nodeDir, map_set hlive, if_true]

/-! ## The invariant -/

structure Inv (s : St) : Prop where
  live_lt : s.nodeDir < s.maps.length
  carried_lt : ∀ r, Carried s r → r < s.maps.length
  snapshots : Snapshots s

/-- nothing new waits, and the maps that are carried hold what they held -/
theorem Inv.frame {s s' : St} (h : Inv s) (hwait : ∀ q, q ∈ s'.waiting → q ∈ s.waiting ∨ q = .other)
    (hlive : s'.nodeDir < s'.maps.length) (hlen : s.maps.length ≤ s'.maps.length)
    (hmap : ∀ r, Carried s r → serialised (s'.map r) = serialised (s.map r)) : Inv s' := by
  have hold : ∀ r dir, .nodeDirectory r dir ∈ s'.waiting → .nodeDirectory r dir ∈ s.waiting := by
    intro r dir hq
    rcases hwait _ hq with hq | hq
    · exact hq
    · cases hq
  refine ⟨hlive, ?_, ?_⟩
  · intro r hr
    obtain ⟨dir, hq⟩ := hr
    exact (h.carried_lt r ⟨dir, hold r dir hq⟩).trans_le hlen
  · intro r dir hq
    have hq' := hold r dir hq
    rw [hmap r ⟨dir, hq'⟩, h.snapshots r dir hq']

/-- SetNodeDirectory, when merging changes nothing that a waiting event carries -/
theorem Inv.install {s : St} (h : Inv s) {r : ℕ} (hr : r < s.maps.length)
    (hquiet : Carried s r → serialised (merged s.live (s.map r)) = serialised (s.map r)) : Inv (s.install r) := by
  have hmap (j : ℕ) : (s.install r).map j = if j = r then merged s.live (s.map r) else s.map j := by
    rw [St.install, publish_map, map_set hr]
  have hlen : (s.install r).maps.length = s.maps.length := by simp [St.install]
  refine ⟨by rw [hlen]; exact hr, ?_, ?_⟩
  · intro j hj
    obtain ⟨dir, hq⟩ := hj
    rw [hlen]
    rcases mem_waiting_publish hq with hq | hq
    · exact h.carried_lt j ⟨dir, hq⟩
    · cases hq
      exact hr
  · intro j dir hq
    rw [hmap]
    rcases mem_waiting_publish hq with hq | hq
    · have hj := h.snapshots j dir hq
      split_ifs with hjr
      · subst hjr
        rw [hquiet ⟨dir, hq⟩, hj]
      · exact hj
    · cases hq
      rw [if_pos rfl]

theorem Inv.write {s : St} (h : Inv s) {n : UInt32} {e : NodeEntry} (hquiet : Carried s s.nodeDir → s.live.get? n = some e) :
    Inv (s.write n e) := by
  have hlen : (s.write n e).maps.length = s.maps.length := by simp [St.write]
  refine h.frame (fun q hq => mem_waiting_publish hq) (by rw [hlen]; exact h.live_lt) hlen.ge fun r hr => ?_
  rw [St.write, publish_map, map_set h.live_lt]
  split_ifs with hrn
  · subst hrn
    funext k
    rw [serialised, GoMap.get?_set]
    split_ifs with hk
    · subst hk
      exact (hquiet hr).symm
    · rfl
  · rfl

/-- a new map object is carried by no waiting event -/
theorem Inv.alloc {s : St} (h : Inv s) (dir : Directory) :
    Inv { s with maps := s.maps ++ [dir] } ∧ ¬Carried { s with maps := s.maps ++ [dir] } s.maps.length := by
  constructor
  · refine h.frame (fun q hq => Or.inl hq) ?_ ?_ fun r hr => ?_
    · simpa using Nat.lt_succ_of_lt h.live_lt
    · simp
    · rw [map_alloc (h.carried_lt r hr)]
  · intro hc
    exact absurd (h.carried_lt _ hc) (lt_irrefl _)

theorem step_inv (s : St) (a : Act) (h : Inv s) (ha : Quiet s a) : Inv (step s a) := by
  cases a with
  | call c =>
    by_cases hset : ∃ dir, c = .setNodeDirectory dir
    · obtain ⟨dir, rfl⟩ := hset
      obtain ⟨hinv, hnew⟩ := h.alloc dir
      exact hinv.install (by simp) fun hc => absurd hc hnew
    · rw [step_update fun dir hd => hset ⟨dir, hd⟩]
      cases hc : c.assigns s.live with
      | none => exact h
      | some p => exact h.write (ha p.1 p.2 hc)
  | reinstall r =>
    simp only [step]
    split_ifs with hr
    · exact h.install hr fun hc => (merged_eq_iff _ _).2 (ha hr hc)
    · exact h
  | subscribe =>
    refine h.frame (fun q hq => Or.inl ?_) h.live_lt le_rfl fun _ _ => rfl
    simpa [step, St.waiting, Subscriber.waiting] using hq
  | unsubscribe i =>
    refine h.frame (fun q hq => Or.inl ?_) h.live_lt le_rfl fun _ _ => rfl
    obtain ⟨b, hb, hq⟩ := mem_waiting.1 hq
    exact mem_waiting.2 ⟨b, List.mem_of_mem_eraseIdx hb, hq⟩
  | take i =>
    refine h.frame (fun q hq => Or.inl ?_) h.live_lt le_rfl fun _ _ => rfl
    exact mem_waiting_modify (fun b q hq => by rwa [take_waiting] at hq) hq
  | marshal i =>
    refine h.frame (fun q hq => Or.inl ?_) h.live_lt le_rfl fun _ _ => rfl
    exact mem_waiting_modify (fun b q hq => marshal_waiting hq) hq

/-! ## The other steps break it -/

/-- a map that a waiting event carries is changed, and the event still waits -/
theorem Inv.break {s s' : St} (h : Inv s) {r : ℕ} (hr : Carried s r) (hwait : ∀ q ∈ s.waiting, q ∈ s'.waiting)
    (hmap : serialised (s'.map r) ≠ serialised (s.map r)) : ¬Snapshots s' := by
  intro hs
  obtain ⟨dir, hq⟩ := hr
  exact hmap ((hs r dir (hwait _ hq)).trans (h.snapshots r dir hq).symm)

theorem step_break (s : St) (a : Act) (h : Inv s) (ha : ¬Quiet s a) : ¬Snapshots (step s a) := by
  cases a with
  | call c =>
    simp only [Quiet] at ha
    push Not at ha
    obtain ⟨n, e, hc, hcarried, hne⟩ := ha
    have hupd : ∀ dir, c ≠ .setNodeDirectory dir := by
      intro dir hd
      rw [hd] at hc
      cases hc
    rw [step_update hupd, hc]
    refine h.break hcarried (fun q hq => waiting_subset_publish hq) fun heq => hne ?_
    have hn : serialised ((s.write n e).map s.nodeDir) n = s.live.get? n := congrFun heq n
    rw [St.write, publish_map, map_set h.live_lt, if_pos rfl, serialised, GoMap.get?_set, if_pos rfl] at hn
    exact hn.symm
  | reinstall r =>
    simp only [Quiet] at ha
    rw [Classical.not_imp, Classical.not_imp] at ha
    obtain ⟨hr, hcarried, hne⟩ := ha
    rw [step, if_pos hr]
    refine h.break hcarried (fun q hq => waiting_subset_publish hq) fun heq => hne ?_
    rw [St.install, publish_map, map_set hr, if_pos rfl] at heq
    exact (merged_eq_iff _ _).1 heq
  | _ => exact absurd trivial ha

theorem init_inv : Inv .init := by
  refine ⟨by simp [St.init], ?_, ?_⟩
  · intro r hr
    obtain ⟨dir, hq⟩ := hr
    simp [St.init, St.waiting] at hq
  · intro r dir hq
    simp [St.init, St.waiting] at hq

/-- **A published directory is a snapshot** at every moment of a run, for every subscriber and every directory event it
has not marshalled yet, exactly when no step of the run changes an entry of a map object that such an event carries. -/
theorem published_directory_iff (as : List Act) :
    (∀ bs, bs <+: as → Snapshots (run step .init bs)) ↔ Along step Quiet .init as :=
  prefixes_iff_along (fun _ h => h.snapshots) step_inv step_break init_inv

/-- the event of a directory with node 0x11 waits; a signal update of -80 dBm is in the JSON -/
theorem published_directory_changes :
    ¬Snapshots (run step .init [.subscribe, .call (.setNodeDirectory (elevenDir false)),
      .call (.updateNodeSignal 1 { nodeNum := 0x11, rxRssi := -80, rxSnr := F32.zero })]) := by
  intro h
  have hq : Queued.nodeDirectory 1 (merged .empty (elevenDir false)) ∈ (run step .init [.subscribe,
      .call (.setNodeDirectory (elevenDir false)),
      .call (.updateNodeSignal 1 { nodeNum := 0x11, rxRssi := -80, rxSnr := F32.zero })]).waiting := by
    simp only [run_cons, run_nil]
    exact List.mem_cons_self
  have h11 := congrArg (Option.map (·.rxRssi)) (congrFun (h 1 _ hq) 0x11)
  exact absurd h11 (by decide +kernel)

end MeshProxy.PublishedDirectory
