/-
Two records of who a node is (`internal/node/connection.go`: UpsertCachedNodeInfo in readLoop; `internal/metrics`:
UpsertNode). The directory is what the dashboard shows, the NodeInfo frames of the config cache are what a newly
connected client is given; readLoop updates both for a NODEINFO_APP packet and replaces both when a collection is
published.

UpsertNode takes over the fields that are not empty and keeps the others. UpsertCachedNodeInfo writes every field, the
hardware model and the role by the number their text has in the generated tables, and into the first NodeInfo frame of
the node, where ExtractNodeDirectory reads the last.

- `upsertFrames_upserted`: all that an update can do to the list of cached frames;
- `step_tail`: a config_complete_id outside a collection can only overwrite the one NodeInfo frame of a node, so it
  hides no identity behind an older one;
- `step_agree_iff`: of all steps, only a NODEINFO_APP packet can make the two disagree, and exactly when it does;
- `identity_agrees_iff`: the same over whole runs.
Premise: marshalled messages unmarshal to themselves (`RoundTrip`).
-/
import MeshProxy.Node.IdentityUpdate

namespace MeshProxy.ReadLoop

open MeshProxy.Proto MeshProxy.Decode MeshProxy.ConfigCache MeshProxy.Store MeshProxy.Trace MeshProxy.GoSlice
open MeshProxy.Frame (Bytes)

variable (pb : Codec) (grow : ℕ → ℕ)

/-! ## Two views of a node -/

/-- the fields that say who a node is -/
structure Identity where
  shortName : String := ""
  longName : String := ""
  userID : String := ""
  hwModel : String := ""
  role : String := ""
  isLicensed : Bool := false
deriving DecidableEq, Repr

def identity (e : NodeEntry) : Identity := ⟨e.shortName, e.longName, e.userID, e.hwModel, e.role, e.isLicensed⟩

/-- the identity a directory has for a node -/
def shown (dir : Directory) (n : UInt32) : Option Identity := (dir.get? n).map identity

/-- every node with a NodeInfo frame in `ConfigCache` is in the directory, with the identity ExtractNodeDirectory reads
from the cache -/
def Agree (s : Conn) : Prop :=
  ∀ n, n ≠ 0 → (∃ f ∈ s.cache.configCache, isNodeInfoFor pb n f = true) →
    ∃ i, shown s.metrics.nodeDir n = some i ∧ shown (extractNodeDirectory pb s.cache.configCache) n = some i

/-- the identity in the last NodeInfo frame of a node -/
def lastIdentity (n : UInt32) (frames : List Bytes) : Option Identity :=
  (nodeInfosOf pb n frames).getLast?.map fun v => identity (nodeInfoEntry pb v)

theorem shown_extract {n : UInt32} (h0 : n ≠ 0) (frames : List Bytes) :
    shown (extractNodeDirectory pb frames) n = lastIdentity pb n frames := by
  rw [shown, directory_get? pb h0, lastIdentity, Option.map_map]
  rfl

theorem nodeInfosOf_single {n : UInt32} {f : Bytes} (h : isNodeInfoFor pb n f = true) :
    ∃ v, nodeInfoOf pb f = some v ∧ v.num = n ∧ nodeInfosOf pb n [f] = [v] := by
  unfold isNodeInfoFor at h
  cases hv : nodeInfoOf pb f with
  | none => rw [hv] at h; cases h
  | some v =>
    rw [hv] at h
    have hn : v.num = n := by simpa using h
    exact ⟨v, rfl, hn, by simp [nodeInfosOf, hv, hn]⟩

theorem nodeInfosOf_single_other {n : UInt32} {f : Bytes} (h : isNodeInfoFor pb n f ≠ true) :
    nodeInfosOf pb n [f] = [] := by
  apply nodeInfosOf_eq_nil
  intro g hg v hv hn
  rw [List.mem_singleton.1 hg] at hv
  exact h (by simp [isNodeInfoFor, hv, hn])

theorem nodeInfosOf_cons (n : UInt32) (f : Bytes) (l : List Bytes) :
    nodeInfosOf pb n (f :: l) = nodeInfosOf pb n [f] ++ nodeInfosOf pb n l := nodeInfosOf_append pb n [f] l

theorem nodeInfosOf_eq_nil_iff (n : UInt32) (l : List Bytes) :
    nodeInfosOf pb n l = [] ↔ ∀ f ∈ l, isNodeInfoFor pb n f ≠ true := by
  induction l with
  | nil => simp [nodeInfosOf]
  | cons f l ih =>
    rw [nodeInfosOf_cons, List.append_eq_nil_iff, ih, List.forall_mem_cons]
    apply and_congr_left
    intro _
    constructor
    · intro h hf
      obtain ⟨v, -, -, hv⟩ := nodeInfosOf_single pb hf
      rw [hv] at h
      cases h
    · exact nodeInfosOf_single_other pb

/-- agreement, read off the lists -/
theorem agree_iff {s : Conn} : Agree pb s ↔
    ∀ n, n ≠ 0 → ∀ i, lastIdentity pb n s.cache.configCache = some i → shown s.metrics.nodeDir n = some i := by
  have hmem (n : UInt32) : (∃ f ∈ s.cache.configCache, isNodeInfoFor pb n f = true) ↔
      ∃ i, lastIdentity pb n s.cache.configCache = some i := by
    rw [← not_iff_not]
    push Not
    rw [← nodeInfosOf_eq_nil_iff, ← Option.eq_none_iff_forall_ne_some, lastIdentity, Option.map_eq_none_iff,
      List.getLast?_eq_none_iff]
  unfold Agree
  refine forall₂_congr fun n h0 => ?_
  rw [hmem, shown_extract pb h0]
  constructor
  · intro h i hi
    obtain ⟨j, hshown, hj⟩ := h ⟨i, hi⟩
    rwa [← hi, hj]
  · intro h hex
    obtain ⟨i, hi⟩ := hex
    exact ⟨i, h i hi, hi⟩

/-! ## The directory's side of a round -/

/-- no node's identity changes, except that nodes may enter without one -/
def Keeps (m m' : Metrics) : Prop :=
  ∀ n, shown m'.nodeDir n = shown m.nodeDir n ∨ (shown m.nodeDir n = none ∧ shown m'.nodeDir n = some {})

section Keeps

variable {m m' m'' : Metrics}

theorem Keeps.of_nodeDir (h : m'.nodeDir = m.nodeDir) : Keeps m m' := by
  intro n
  rw [h]
  exact Or.inl rfl

theorem Keeps.trans (h : Keeps m m') (h' : Keeps m' m'') : Keeps m m'' := by
  intro n
  rcases h' n with e' | ⟨hnone, e'⟩
  · rw [e']
    exact h n
  · rcases h n with e | ⟨-, e⟩
    · exact Or.inr ⟨e ▸ hnone, e'⟩
    · rw [e] at hnone
      cases hnone

theorem Keeps.some (h : Keeps m m') {n : UInt32} {i : Identity} (hi : shown m.nodeDir n = some i) :
    shown m'.nodeDir n = some i := by
  rcases h n with e | ⟨hnone, -⟩
  · rw [e, hi]
  · rw [hi] at hnone
    cases hnone

theorem Keeps.getD (h : Keeps m m') (n : UInt32) : (shown m'.nodeDir n).getD {} = (shown m.nodeDir n).getD {} := by
  rcases h n with e | ⟨hnone, e⟩
  · rw [e]
  · rw [hnone, e]
    rfl

theorem identity_getD (dir : Directory) (n : UInt32) : identity ((dir.get? n).getD {}) = (shown dir n).getD {} := by
  unfold shown
  cases dir.get? n <;> rfl

/-- what an update of one entry shows, `g` being what it does to the identity -/
theorem shown_updateNodeEntry (m : Metrics) (now nodeNum : UInt32) {f : NodeEntry → NodeEntry}
    {g : Identity → Identity} (hf : ∀ e, identity (f e) = g (identity e)) (n : UInt32) :
    shown (m.updateNodeEntry now nodeNum f).1.nodeDir n =
      if n = nodeNum then some (g ((shown m.nodeDir n).getD {})) else shown m.nodeDir n := by
  simp only [Metrics.updateNodeEntry, shown, GoMap.get?_set]
  split_ifs with hn
  · have hold : identity { (m.nodeDir.get? nodeNum).getD {} with seenRealtime := true, lastHeard := now } =
        identity ((m.nodeDir.get? nodeNum).getD {}) := rfl
    rw [Option.map_some, hf, hold, identity_getD, hn]
    rfl
  · rfl

theorem updateNodeEntry_keeps (now nodeNum : UInt32) {f : NodeEntry → NodeEntry}
    (hf : ∀ e, identity (f e) = identity e) : Keeps m (m.updateNodeEntry now nodeNum f).1 := by
  intro n
  rw [shown_updateNodeEntry m now nodeNum (g := id) hf]
  split_ifs
  · cases shown m.nodeDir n with
    | none => exact Or.inr ⟨rfl, rfl⟩
    | some i => exact Or.inl rfl
  · exact Or.inl rfl

end Keeps

/-- what UpsertNode makes of an identity -/
def overlay (ni : NodeInfoData) (old : Identity) : Identity where
  shortName := if ni.shortName ≠ "" then ni.shortName else old.shortName
  longName := if ni.longName ≠ "" then ni.longName else old.longName
  userID := if ni.userID ≠ "" then ni.userID else old.userID
  hwModel := if ni.hwModel ≠ "" then ni.hwModel else old.hwModel
  role := if ni.role ≠ "" then ni.role else old.role
  isLicensed := ni.isLicensed

section Rounds

variable {s : Conn} {payload : Bytes}

theorem shown_upsertNode (m : Metrics) (now : UInt32) (ni : NodeInfoData) (n : UInt32) :
    shown (m.upsertNode now (Conn.nodeInfoUpdate ni)).nodeDir n =
      if n = ni.nodeNum then some (overlay ni ((shown m.nodeDir n).getD {})) else shown m.nodeDir n :=
  shown_updateNodeEntry m now ni.nodeNum (g := overlay ni) (fun _ => rfl) n

theorem onPosition_keeps (now : UInt32) (payload : Bytes) : Keeps s.metrics (s.onPosition pb now payload).metrics :=
  onPosition_rule (.of_nodeDir rfl) fun u _ =>
    updateNodeEntry_keeps (f := Metrics.applyPosition u) now u.nodeNum fun _ => rfl

theorem onTelemetry_keeps (now : UInt32) (payload : Bytes) : Keeps s.metrics (s.onTelemetry pb now payload).metrics :=
  onTelemetry_rule (.of_nodeDir rfl) fun u _ =>
    updateNodeEntry_keeps (f := Metrics.applyTelemetry u) now u.nodeNum fun _ => rfl

theorem onSignal_keeps (now : UInt32) (payload : Bytes) : Keeps s.metrics (s.onSignal pb now payload).metrics :=
  onSignal_rule (.of_nodeDir rfl) fun u _ =>
    updateNodeEntry_keeps (f := Metrics.applySignal u) now u.nodeNum fun _ => rfl

theorem onChat_nodeDir : (s.onChat pb payload).metrics.nodeDir = s.metrics.nodeDir := by
  unfold Conn.onChat
  split <;> rfl

theorem onTraceroute_nodeDir : (s.onTraceroute pb payload).metrics.nodeDir = s.metrics.nodeDir := by
  unfold Conn.onTraceroute
  split <;> rfl

/-- the updates of a round: UpsertNode, if the frame is a NODEINFO_APP packet, on a store with the same identities -/
theorem onUpdates_nodeDir (s : Conn) (now : UInt32) (payload : Bytes) :
    ∃ m, Keeps s.metrics m ∧ (s.onUpdates pb grow now payload).metrics.nodeDir =
      match extractNodeInfo pb payload with
      | none => m.nodeDir
      | some ni => (m.upsertNode now (Conn.nodeInfoUpdate ni)).nodeDir := by
  unfold Conn.onUpdates
  rw [onTraceroute_nodeDir]
  have hkeeps : Keeps s.metrics ((((s.onRecord pb payload).onPosition pb now payload).onTelemetry pb now
      payload).onSignal pb now payload |>.onChat pb payload).metrics := by
    have hrecord : Keeps s.metrics (s.onRecord pb payload).metrics := .of_nodeDir rfl
    have hposition := hrecord.trans (onPosition_keeps pb now payload)
    have htelemetry := hposition.trans (onTelemetry_keeps pb now payload)
    have hsignal := htelemetry.trans (onSignal_keeps pb now payload)
    exact hsignal.trans (.of_nodeDir (onChat_nodeDir pb))
  refine ⟨_, hkeeps, ?_⟩
  unfold Conn.onNodeInfo
  cases extractNodeInfo pb payload <;> rfl

/-- outside NODEINFO_APP packets the updates keep every identity -/
theorem onUpdates_keeps (hni : extractNodeInfo pb payload = none) (now : UInt32) :
    Keeps s.metrics (s.onUpdates pb grow now payload).metrics := by
  obtain ⟨m, hm, hdir⟩ := onUpdates_nodeDir pb grow s now payload
  rw [hni] at hdir
  exact hm.trans (.of_nodeDir hdir)

theorem shown_onUpdates {ni : NodeInfoData} (hni : extractNodeInfo pb payload = some ni) (now : UInt32) :
    shown (s.onUpdates pb grow now payload).metrics.nodeDir ni.nodeNum =
      some (overlay ni ((shown s.metrics.nodeDir ni.nodeNum).getD {})) := by
  obtain ⟨m, hm, hdir⟩ := onUpdates_nodeDir pb grow s now payload
  rw [hni] at hdir
  rw [hdir, shown_upsertNode, if_pos rfl, hm.getD]

theorem shown_onUpdates_other {ni : NodeInfoData} (hni : extractNodeInfo pb payload = some ni) (now : UInt32)
    {n : UInt32} (hn : n ≠ ni.nodeNum) {i : Identity} (hi : shown s.metrics.nodeDir n = some i) :
    shown (s.onUpdates pb grow now payload).metrics.nodeDir n = some i := by
  obtain ⟨m, hm, hdir⟩ := onUpdates_nodeDir pb grow s now payload
  rw [hni] at hdir
  rw [hdir, shown_upsertNode, if_neg hn, hm.some hi]

end Rounds

/-! ## The cache's side of an update -/

/-- the identity UpsertCachedNodeInfo writes, read back: the enum texts go through their numbers -/
def written (ni : NodeInfoData) : Identity where
  shortName := ni.shortName
  longName := ni.longName
  userID := ni.userID
  hwModel := pb.hwModelString (pb.hwModelValue ni.hwModel)
  role := pb.roleString (pb.roleValue ni.role)
  isLicensed := ni.isLicensed

/-- the frame is a NodeInfo frame with that identity -/
def Writes (ni : NodeInfoData) (f : Bytes) : Prop :=
  ∃ v, nodeInfoOf pb f = some v ∧ v.num = ni.nodeNum ∧ identity (nodeInfoEntry pb v) = written pb ni

theorem identity_nodeInfoEntry {v : NodeInfo} {u : User} (hu : v.user = some u) :
    identity (nodeInfoEntry pb v) =
      ⟨u.shortName, u.longName, u.id, pb.hwModelString u.hwModel, pb.roleString u.role, u.isLicensed⟩ := by
  unfold nodeInfoEntry
  rw [hu]
  cases v.position with
  | none => cases v.deviceMetrics <;> rfl
  | some pos =>
    simp only
    split_ifs <;> cases v.deviceMetrics <;> rfl

theorem buildNodeInfoFrame_writes (hrt : pb.RoundTrip) {now : UInt32} {ni : NodeInfoData} {f : Bytes}
    (hf : buildNodeInfoFrame pb now ni = some f) : Writes pb ni f := by
  have hu := hrt _ _ hf
  refine ⟨_, by rw [nodeInfoOf, hu], rfl, ?_⟩
  rw [identity_nodeInfoEntry pb rfl]
  rfl

theorem mergeNodeInfoUser_writes (hrt : pb.RoundTrip) {now : UInt32} {ni : NodeInfoData} {raw f : Bytes}
    (hraw : isNodeInfoFor pb ni.nodeNum raw = true) (hf : mergeNodeInfoUser pb now raw ni = some f) :
    Writes pb ni f := by
  unfold mergeNodeInfoUser at hf
  split at hf
  · rename_i id old rest hold
    have hnum : old.num = ni.nodeNum := by simpa [isNodeInfoFor, nodeInfoOf, hold] using hraw
    have hu := hrt _ _ hf
    refine ⟨{ old with user := some (mergeUser pb ni (old.user.getD {})), lastHeard := now }, ?_, hnum, ?_⟩
    · rw [nodeInfoOf, hu]
    · rw [identity_nodeInfoEntry pb rfl]
      rfl
  · cases hf

/-- an update writes over the first NodeInfo frame of the node, or, when there is none, inserts one with nothing but a
config_complete_id after it -/
inductive Upserted (ni : NodeInfoData) : List Bytes → List Bytes → Prop where
  | replace {l₁ l₂ : List Bytes} {old new : Bytes} (hfirst : nodeInfosOf pb ni.nodeNum l₁ = [])
      (hold : isNodeInfoFor pb ni.nodeNum old = true) (hnew : Writes pb ni new) :
      Upserted ni (l₁ ++ old :: l₂) (l₁ ++ new :: l₂)
  | insert {l₁ l₂ : List Bytes} {new : Bytes} (hnone : nodeInfosOf pb ni.nodeNum (l₁ ++ l₂) = [])
      (hlast : ∀ f ∈ l₂, isConfigCompleteFrame pb f = true) (hnew : Writes pb ni new) :
      Upserted ni (l₁ ++ l₂) (l₁ ++ new :: l₂)

/-- **All that an update can do to the cached frames.** -/
theorem upsertFrames_upserted (hrt : pb.RoundTrip) {now : UInt32} {ni : NodeInfoData} (h0 : ni.nodeNum ≠ 0)
    {frame : Bytes} (hb : buildNodeInfoFrame pb now ni = some frame) {cache : List Bytes} (hne : cache ≠ []) :
    Upserted pb ni cache (upsertFrames pb now ni cache) := by
  have hframe := buildNodeInfoFrame_writes pb hrt hb
  rcases split_nodeInfoFor pb ni.nodeNum hne with
    ⟨before, raw, after, rfl, hfirst, hraw⟩ | ⟨before, last, rfl, hnone⟩
  · have hnew : Writes pb ni ((mergeNodeInfoUser pb now raw ni).getD frame) := by
      cases hm : mergeNodeInfoUser pb now raw ni with
      | none => exact hframe
      | some m => exact mergeNodeInfoUser_writes pb hrt hraw hm
    rw [upsertFrames_found h0 hb hfirst hraw]
    exact .replace ((nodeInfosOf_eq_nil_iff pb _ _).2 fun f hf => by simp [hfirst f hf]) hraw hnew
  · have hinfos : nodeInfosOf pb ni.nodeNum (before ++ [last]) = [] :=
      (nodeInfosOf_eq_nil_iff pb _ _).2 fun f hf => by simp [hnone f hf]
    rw [upsertFrames_absent h0 hb hnone]
    split_ifs with hcc
    · exact .insert hinfos (by simpa using hcc) hframe
    · have hins : Upserted pb ni (before ++ [last] ++ []) (before ++ [last] ++ [frame]) :=
        .insert (by simpa using hinfos) (by simp) hframe
      rwa [List.append_nil] at hins

section Upserted

variable {pb} {ni : NodeInfoData} {l l' : List Bytes}

theorem Writes.isNodeInfoFor {f : Bytes} (h : Writes pb ni f) : isNodeInfoFor pb ni.nodeNum f = true := by
  obtain ⟨v, hv, hnum, -⟩ := h
  simp [ConfigCache.isNodeInfoFor, hv, hnum]

theorem Writes.single {f : Bytes} (h : Writes pb ni f) :
    ∃ v, identity (nodeInfoEntry pb v) = written pb ni ∧ nodeInfosOf pb ni.nodeNum [f] = [v] := by
  obtain ⟨v, hv, hnum, hid⟩ := h
  exact ⟨v, hid, by simp [nodeInfosOf, hv, hnum]⟩

theorem isNodeInfoFor_num {n n' : UInt32} {f : Bytes} (h : isNodeInfoFor pb n f = true)
    (h' : isNodeInfoFor pb n' f = true) : n = n' := by
  obtain ⟨v, hv, hn, -⟩ := nodeInfosOf_single pb h
  obtain ⟨v', hv', hn', -⟩ := nodeInfosOf_single pb h'
  rw [hv] at hv'
  cases hv'
  rw [← hn, hn']

/-- of the node's NodeInfo messages the first is replaced, the others stay -/
theorem Upserted.infos (h : Upserted pb ni l l') : ∃ v, identity (nodeInfoEntry pb v) = written pb ni ∧
    nodeInfosOf pb ni.nodeNum l' = v :: (nodeInfosOf pb ni.nodeNum l).tail := by
  cases h with
  | @replace l₁ l₂ old new hfirst hold hnew =>
    obtain ⟨w, -, -, hw⟩ := nodeInfosOf_single pb hold
    obtain ⟨v, hid, hnewInfo⟩ := hnew.single
    refine ⟨v, hid, ?_⟩
    rw [nodeInfosOf_append, nodeInfosOf_append, nodeInfosOf_cons, nodeInfosOf_cons pb _ old, hfirst, hw, hnewInfo]
    rfl
  | @insert l₁ l₂ new hnone hlast hnew =>
    obtain ⟨v, hid, hnewInfo⟩ := hnew.single
    refine ⟨v, hid, ?_⟩
    rw [hnone]
    rw [nodeInfosOf_append, List.append_eq_nil_iff] at hnone
    rw [nodeInfosOf_append, nodeInfosOf_cons, hnone.1, hnone.2, hnewInfo]
    rfl

theorem Upserted.infos_other (h : Upserted pb ni l l') {n : UInt32} (hn : n ≠ ni.nodeNum) :
    nodeInfosOf pb n l' = nodeInfosOf pb n l := by
  have hnot {f : Bytes} (hf : isNodeInfoFor pb ni.nodeNum f = true) : nodeInfosOf pb n [f] = [] :=
    nodeInfosOf_single_other pb fun h => hn (isNodeInfoFor_num h hf)
  cases h with
  | @replace l₁ l₂ old new hfirst hold hnew =>
    rw [nodeInfosOf_append, nodeInfosOf_append, nodeInfosOf_cons, nodeInfosOf_cons pb n old, hnot hold,
      hnot hnew.isNodeInfoFor]
  | @insert l₁ l₂ new hnone hlast hnew =>
    rw [nodeInfosOf_append, nodeInfosOf_append, nodeInfosOf_cons, hnot hnew.isNodeInfoFor, List.nil_append]

end Upserted

/-! ## What a stray config_complete_id can overwrite -/

/-- from place k on, a NodeInfo frame is the only one of its node -/
def Fresh (k : ℕ) (l : List Bytes) : Prop :=
  ∀ f ∈ l.drop k, ∀ n, isNodeInfoFor pb n f = true → (nodeInfosOf pb n l).length ≤ 1

/-- appending to `configFrames` writes into the array of `configCache` -/
def Shares (c : Cache) : Prop :=
  c.configFramesHdr.arr = c.configCacheHdr.arr ∧ c.configFramesHdr.len < c.configFramesHdr.cap

/-- an open collection is apart from the cache, and past the end of a published one the cache has only the NodeInfo
frames that updates have inserted -/
structure Tail (c : Cache) : Prop where
  ok : c.Ok
  opened : c.collectingConfig = true → ∃ frames, Collection c frames
  fresh : Shares c → Fresh pb c.configFramesHdr.len c.configCache

theorem tail_new : Tail pb .new where
  ok := new_ok
  opened := fun h => nomatch h
  fresh := fun h => absurd h.2 (lt_irrefl 0)

section Tail

variable {pb} {c : Cache} {k : ℕ} {l l' : List Bytes}

theorem mem_drop_cons {f x : Bytes} : f ∈ (x :: l).drop k ↔ (k = 0 ∧ f = x) ∨ f ∈ l.drop (k - 1) := by
  cases k <;> simp

theorem fresh_of_length_le (h : l.length ≤ k) : Fresh pb k l := by
  intro f hf
  rw [List.drop_eq_nil_of_le h] at hf
  cases hf

/-- an update leaves at most one NodeInfo frame where there was at most one -/
theorem Upserted.length_le {ni : NodeInfoData} (h : Upserted pb ni l l') {n : UInt32} (hn : (nodeInfosOf pb n l).length ≤ 1) :
    (nodeInfosOf pb n l').length ≤ 1 := by
  by_cases hnum : n = ni.nodeNum
  · obtain ⟨v, -, hinfos⟩ := h.infos
    rw [hnum, hinfos, List.length_cons, List.length_tail, ← hnum]
    omega
  · rwa [h.infos_other hnum]

theorem Upserted.fresh {ni : NodeInfoData} (h : Upserted pb ni l l') (hl : Fresh pb k l) : Fresh pb k l' := by
  intro f hf n hn
  have hkeep {g : Bytes} (hmem : g ∈ l.drop k) (hg : isNodeInfoFor pb n g = true) :
      (nodeInfosOf pb n l').length ≤ 1 := h.length_le (hl g hmem n hg)
  have hnum : isNodeInfoFor pb ni.nodeNum f = true → n = ni.nodeNum := isNodeInfoFor_num hn
  obtain ⟨v, -, hinfos⟩ := h.infos
  cases h with
  | @replace l₁ l₂ old new hfirst hold hnew =>
    rw [List.drop_append, List.mem_append, mem_drop_cons] at hf
    rcases hf with hf | ⟨hk, rfl⟩ | hf
    · exact hkeep (by rw [List.drop_append]; exact List.mem_append_left _ hf) hn
    · refine hkeep (g := old) ?_ (hnum hnew.isNodeInfoFor ▸ hold)
      rw [List.drop_append, List.mem_append, mem_drop_cons]
      exact Or.inr (Or.inl ⟨hk, rfl⟩)
    · refine hkeep ?_ hn
      rw [List.drop_append, List.mem_append, mem_drop_cons]
      exact Or.inr (Or.inr hf)
  | @insert l₁ l₂ new hnone hlast hnew =>
    rw [List.drop_append, List.mem_append, mem_drop_cons] at hf
    rcases hf with hf | ⟨-, rfl⟩ | hf
    · exact hkeep (by rw [List.drop_append]; exact List.mem_append_left _ hf) hn
    · rw [hnum hnew.isNodeInfoFor, hinfos, hnone]
      exact le_rfl
    · -- the frame that moved up closes the cache: it names no node
      have hcc := hlast f (List.mem_of_mem_drop hf)
      rw [isConfigCompleteFrame_of_isNodeInfoFor pb hn] at hcc
      cases hcc

theorem collection_fresh {frames : List Bytes} (h : Collection c frames) (hshares : Shares c) :
    Fresh pb c.configFramesHdr.len c.configCache := by
  rcases h.apart with harr | hlen
  · exact absurd hshares.1 harr
  · rw [(configCache_eq_nil_iff h.ok).2 hlen]
    exact fresh_of_length_le (Nat.zero_le _)

/-- what an update does to the headers: the cache may move to a new array, the collection stays where it is -/
theorem upsert_shares (hok : c.Ok) (now : UInt32) (ni : NodeInfoData)
    (h : Shares (c.upsertCachedNodeInfo pb grow now ni)) :
    Shares c ∧ (c.upsertCachedNodeInfo pb grow now ni).configFramesHdr = c.configFramesHdr := by
  have happend (hdr : Slice) (x : Bytes) (hhdr : (append [] grow c.heap c.configCacheHdr x).2 = hdr)
      (harr : c.configFramesHdr.arr = hdr.arr) (hroom : c.configFramesHdr.len < c.configFramesHdr.cap) : Shares c := by
    refine ⟨?_, hroom⟩
    subst hhdr
    rcases append_arr grow c.heap c.configCacheHdr x with e | e
    · rw [harr, e]
    · -- a header with spare capacity lies over an old array
      have hcap := hok.frames.cap_le
      rw [harr, e, cells_of_ge c.heap le_rfl, List.length_nil] at hcap
      omega
  rcases upsertCachedNodeInfo_cases pb grow now ni c with e | ⟨i, raw, f, -, -, e⟩ | ⟨f, -, -, e | e⟩ <;> rw [e] at h ⊢
  · exact ⟨h, rfl⟩
  · exact ⟨h, rfl⟩
  · exact ⟨happend _ _ rfl h.1 h.2, rfl⟩
  · exact ⟨happend _ _ rfl h.1 h.2, rfl⟩

theorem onNodeInfo_fresh (hrt : pb.RoundTrip) (hok : c.Ok) (h : Shares c → Fresh pb c.configFramesHdr.len c.configCache)
    (now : UInt32) (payload : Bytes) (hshares : Shares (c.onNodeInfo pb grow now payload)) :
    Fresh pb (c.onNodeInfo pb grow now payload).configFramesHdr.len
      (c.onNodeInfo pb grow now payload).configCache := by
  unfold Cache.onNodeInfo at hshares ⊢
  cases hni : extractNodeInfo pb payload with
  | none =>
    rw [hni] at hshares
    exact h hshares
  | some ni =>
    rw [hni] at hshares
    simp only at hshares ⊢
    obtain ⟨hbefore, hhdr⟩ := upsert_shares grow hok now ni hshares
    rw [hhdr, configCache_upsert pb grow hok now ni]
    by_cases hne : c.configCache = []
    · rw [upsertFrames_same (Or.inl hne)]
      exact h hbefore
    · cases hb : buildNodeInfoFrame pb now ni with
      | none =>
        rw [upsertFrames_same (Or.inr hb)]
        exact h hbefore
      | some frame =>
        exact (upsertFrames_upserted pb hrt (extractNodeInfo_num pb hni) hb hne).fresh (h hbefore)

/-- a stray config_complete_id overwrites the cell past the end of the collection, or none that the cache has -/
theorem configCache_collect (hok : c.Ok) (p : Bytes) :
    (c.collect grow p).configCache = c.configCache ∨
      Shares c ∧ (c.collect grow p).configCache = c.configCache.set c.configFramesHdr.len p := by
  simp only [Cache.collect, Cache.configCache, read_append [] grow c.heap c.configFramesHdr p hok.cache]
  split_ifs with hc
  · rw [hok.framesOff, hok.cacheOff, Nat.zero_add, Nat.sub_zero]
    exact Or.inr ⟨⟨hc.2.1.symm, hc.1⟩, rfl⟩
  · exact Or.inl rfl

/-- a frame without a NodeInfo at place k -/
theorem nodeInfosOf_set {p : Bytes} (hp : nodeInfoOf pb p = none) (n : UInt32) (hk : k < l.length) :
    nodeInfosOf pb n l =
        nodeInfosOf pb n (l.take k) ++ (nodeInfosOf pb n [l[k]] ++ nodeInfosOf pb n (l.drop (k + 1))) ∧
      nodeInfosOf pb n (l.set k p) = nodeInfosOf pb n (l.take k) ++ nodeInfosOf pb n (l.drop (k + 1)) := by
  have hsplit : l = l.take k ++ l[k] :: l.drop (k + 1) := by rw [List.getElem_cons_drop, List.take_append_drop]
  have hnone : nodeInfosOf pb n [p] = [] := by simp [nodeInfosOf, hp]
  constructor
  · rw [← nodeInfosOf_cons, ← nodeInfosOf_append, ← hsplit]
  · rw [List.set_eq_take_append_cons_drop, if_pos hk, nodeInfosOf_append, nodeInfosOf_cons, hnone, List.nil_append]

theorem Fresh.set (h : Fresh pb k l) {p : Bytes} (hp : nodeInfoOf pb p = none) : Fresh pb (k + 1) (l.set k p) := by
  by_cases hk : k < l.length
  · intro f hf n hn
    rw [List.drop_set_of_lt (Nat.lt_succ_self k)] at hf
    have hle := h f (List.drop_subset_drop_left l (Nat.le_succ k) hf) n hn
    obtain ⟨hold, hnew⟩ := nodeInfosOf_set hp n hk
    rw [hold] at hle
    rw [hnew]
    simp only [List.length_append] at hle ⊢
    omega
  · exact fresh_of_length_le (by rw [List.length_set]; omega)

theorem Fresh.succ (h : Fresh pb k l) : Fresh pb (k + 1) l := by
  intro f hf n hn
  exact h f (List.drop_subset_drop_left l (Nat.le_succ k) hf) n hn

theorem collect_fresh (hok : c.Ok) (h : Shares c → Fresh pb c.configFramesHdr.len c.configCache) {p : Bytes}
    (hp : nodeInfoOf pb p = none) (hshares : Shares (c.collect grow p)) :
    Fresh pb (c.collect grow p).configFramesHdr.len (c.collect grow p).configCache := by
  have hlen : (c.collect grow p).configFramesHdr.len = c.configFramesHdr.len + 1 := append_len grow _ _ _
  rw [hlen]
  by_cases hroom : c.configFramesHdr.len < c.configFramesHdr.cap
  · have harr : (c.collect grow p).configFramesHdr.arr = c.configFramesHdr.arr := by
      simp [Cache.collect, append, hroom]
    have hbefore : Shares c := ⟨harr ▸ hshares.1, hroom⟩
    rcases configCache_collect grow hok p with e | ⟨-, e⟩ <;> rw [e]
    · exact (h hbefore).succ
    · exact (h hbefore).set hp
  · -- the collection has moved to a new array
    have harr : (c.collect grow p).configFramesHdr.arr = c.heap.length := by simp [Cache.collect, append, hroom]
    have hempty : c.configCacheHdr.len = 0 := by
      by_contra hne
      have hlt := arr_lt hok.cache hne
      have hcache : (c.collect grow p).configCacheHdr.arr = c.configCacheHdr.arr := rfl
      have hsame := hshares.1
      omega
    have hnil : (c.collect grow p).configCache = [] :=
      (configCache_eq_nil_iff (collect_ok grow hok p)).2 hempty
    rw [hnil]
    exact fresh_of_length_le (Nat.zero_le _)

theorem step_tail (hrt : pb.RoundTrip) (h : Tail pb c) (a : ConfigCache.Act) : Tail pb (ConfigCache.step pb grow c a) := by
  have hok := ConfigCache.step_ok pb grow h.ok a
  refine ⟨hok, step_opened pb grow h.ok h.opened a, ?_⟩
  cases a with
  | reconnect => exact fun hs => absurd hs.2 (lt_irrefl 0)
  | frame now p =>
    by_cases hmy : (decodeFromRadio pb p).type = .myInfo
    · exact collection_fresh (step_myInfo pb grow h.ok hmy now).1
    by_cases hcc : (decodeFromRadio pb p).type = .configCompleteId
    · by_cases hcol : c.collectingConfig = true
      · -- right after a publication the two headers are one
        have hopen : (c.collect grow p).collectingConfig = true := hcol
        rw [step_configComplete pb grow hcc, Cache.completeCollection, if_pos hopen] at hok ⊢
        exact fun _ => fresh_of_length_le (le_of_eq (length_read hok.cache))
      · rw [step_stray pb grow hcc hcol]
        exact collect_fresh grow h.ok h.fresh (nodeInfoOf_of_type (by rw [hcc]; decide))
    by_cases hcol : c.collectingConfig = true
    · obtain ⟨frames, hopen⟩ := h.opened hcol
      exact collection_fresh (hopen.inside pb grow ⟨hmy, hcc⟩ now).1
    · have hclosed : (c.onNodeInfo pb grow now p).collectingConfig ≠ true := by rwa [onNodeInfo_collectingConfig]
      rw [ConfigCache.step, Cache.onFrame, configSwitch_runtime pb grow hmy hcc, if_neg hclosed]
      exact onNodeInfo_fresh grow hrt h.ok h.fresh now p

/-- what a stray config_complete_id leaves of a node's identity: all of it or nothing -/
theorem lastIdentity_stray (h : Tail pb c) {p : Bytes} (hp : nodeInfoOf pb p = none) {n : UInt32} {i : Identity}
    (hi : lastIdentity pb n (c.collect grow p).configCache = some i) : lastIdentity pb n c.configCache = some i := by
  rcases configCache_collect grow h.ok p with e | ⟨hshares, e⟩
  · rwa [← e]
  rw [e] at hi
  have hfresh := h.fresh hshares
  generalize c.configFramesHdr.len = k at hi hfresh
  by_cases hk : k < c.configCache.length
  · obtain ⟨hold, hnew⟩ := nodeInfosOf_set hp n hk
    by_cases hn : isNodeInfoFor pb n c.configCache[k] = true
    · -- the frame that is lost was the node's only one
      have hle := hfresh _ (by rw [← List.getElem_cons_drop hk]; exact List.mem_cons_self) n hn
      obtain ⟨v, -, -, hv⟩ := nodeInfosOf_single pb hn
      rw [hold, hv] at hle
      have hnil : nodeInfosOf pb n (c.configCache.take k) ++ nodeInfosOf pb n (c.configCache.drop (k + 1)) = [] := by
        rw [← List.length_eq_zero_iff]
        simp only [List.length_append, List.length_singleton] at hle ⊢
        omega
      rw [lastIdentity, hnew, hnil] at hi
      cases hi
    · rw [nodeInfosOf_single_other pb hn, List.nil_append] at hold
      rwa [lastIdentity, hold, ← hnew]
  · rwa [List.set_eq_of_length_le (not_lt.1 hk)] at hi

end Tail

/-! ## When an update keeps the two in step -/

/-- the packet says nothing that the directory does not show already -/
def Repeats (ni : NodeInfoData) (old : Identity) : Prop :=
  (ni.shortName = "" ∨ ni.shortName = old.shortName) ∧ (ni.longName = "" ∨ ni.longName = old.longName) ∧
    (ni.userID = "" ∨ ni.userID = old.userID) ∧ (ni.hwModel = "" ∨ ni.hwModel = old.hwModel) ∧
      (ni.role = "" ∨ ni.role = old.role) ∧ ni.isLicensed = old.isLicensed

/-- a name or id is empty only where the directory has none, and the texts of the enums survive the way through their
numbers -/
def Settles (ni : NodeInfoData) (old : Identity) : Prop :=
  (ni.shortName = "" → old.shortName = "") ∧ (ni.longName = "" → old.longName = "") ∧
    (ni.userID = "" → old.userID = "") ∧
      pb.hwModelString (pb.hwModelValue ni.hwModel) = (if ni.hwModel = "" then old.hwModel else ni.hwModel) ∧
        pb.roleString (pb.roleValue ni.role) = if ni.role = "" then old.role else ni.role

theorem field_kept_iff (new old : String) : (if new ≠ "" then new else old) = old ↔ new = "" ∨ new = old := by
  by_cases h : new = "" <;> simp [h]

theorem field_written_iff (new old : String) : (if new ≠ "" then new else old) = new ↔ (new = "" → old = "") := by
  by_cases h : new = "" <;> simp [h]

theorem overlay_eq_self_iff (ni : NodeInfoData) (old : Identity) : overlay ni old = old ↔ Repeats ni old := by
  obtain ⟨shortName, longName, userID, hwModel, role, isLicensed⟩ := old
  simp only [overlay, Identity.mk.injEq, field_kept_iff, Repeats]

theorem overlay_eq_written_iff (ni : NodeInfoData) (old : Identity) :
    overlay ni old = written pb ni ↔ Settles pb ni old := by
  have henum (new old text : String) : (if new ≠ "" then new else old) = text ↔ text = if new = "" then old else new := by
    rw [ite_not]
    exact eq_comm
  simp only [overlay, written, Identity.mk.injEq, Settles]
  rw [field_written_iff, field_written_iff, field_written_iff, henum, henum]
  simp only [and_true]

/-- what a NODEINFO_APP packet must be like, given the state it meets: nothing before the first publication; if the
node has at most one cached NodeInfo frame, the update must settle the identity; if it has several, the packet must
bring nothing new, and so too if the node has one and the new one cannot be marshalled -/
def UpdateAgrees (now : UInt32) (ni : NodeInfoData) (s : Conn) : Prop :=
  let old := (shown s.metrics.nodeDir ni.nodeNum).getD {}
  let cached := (nodeInfosOf pb ni.nodeNum s.cache.configCache).length
  if s.cache.configCache = [] then True
  else if buildNodeInfoFrame pb now ni = none then cached = 0 ∨ Repeats ni old
  else if cached ≤ 1 then Settles pb ni old
  else Repeats ni old

/-- the run's condition, step by step -/
def StepAgrees (s : Conn) : Act → Prop
  | .frame now _ payload => ∀ ni, extractNodeInfo pb payload = some ni → UpdateAgrees pb now ni s
  | .send _ _ => True
  | .reconnect => True

section Steps

variable {pb} {s : Conn}

theorem exists_lastIdentity {n : UInt32} {l : List Bytes} (h : (nodeInfosOf pb n l).length ≠ 0) :
    ∃ i, lastIdentity pb n l = some i := by
  have hne : nodeInfosOf pb n l ≠ [] := fun hnil => h (by rw [hnil]; rfl)
  exact ⟨_, by rw [lastIdentity, List.getLast?_eq_some_getLast hne]; rfl⟩

/-- the last of several messages is not the first -/
theorem getLast?_cons_tail {α : Type} {l : List α} (hl : 2 ≤ l.length) (v : α) : (v :: l.tail).getLast? = l.getLast? := by
  cases l with
  | nil => cases hl
  | cons w rest =>
    have hne : rest ≠ [] := by
      intro hrest
      rw [hrest] at hl
      exact absurd hl (by simp)
    rw [List.tail_cons, List.getLast?_cons_of_ne_nil hne, List.getLast?_cons_of_ne_nil hne]

theorem Agree.known (h : Agree pb s) {n : UInt32} (h0 : n ≠ 0) {i : Identity}
    (hi : lastIdentity pb n s.cache.configCache = some i) : (shown s.metrics.nodeDir n).getD {} = i := by
  rw [(agree_iff pb).1 h n h0 i hi]
  rfl

/-- for the packet's own node, the cache afterwards says what the directory says exactly under the condition -/
theorem update_agrees_iff (hrt : pb.RoundTrip) (h : Agree pb s) {ni : NodeInfoData} (h0 : ni.nodeNum ≠ 0) (now : UInt32) :
    (∀ i, lastIdentity pb ni.nodeNum (upsertFrames pb now ni s.cache.configCache) = some i →
      overlay ni ((shown s.metrics.nodeDir ni.nodeNum).getD {}) = i) ↔ UpdateAgrees pb now ni s := by
  have hknown := fun i => h.known h0 (i := i)
  unfold UpdateAgrees
  simp only
  generalize (shown s.metrics.nodeDir ni.nodeNum).getD {} = old at hknown
  generalize s.cache.configCache = l at hknown
  -- where the last NodeInfo frame of the node stays, the packet must not change what the directory shows
  have hstays (hlen : (nodeInfosOf pb ni.nodeNum l).length ≠ 0) :
      (∀ i, lastIdentity pb ni.nodeNum l = some i → overlay ni old = i) ↔ Repeats ni old := by
    obtain ⟨i, hi⟩ := exists_lastIdentity hlen
    rw [← overlay_eq_self_iff, hi, hknown i hi]
    simp
  split_ifs with hnil hb hlen
  · rw [upsertFrames_same (Or.inl hnil), hnil]
    simp [lastIdentity, nodeInfosOf]
  · rw [upsertFrames_same (Or.inr hb)]
    by_cases hlen : (nodeInfosOf pb ni.nodeNum l).length = 0
    · have hnone : lastIdentity pb ni.nodeNum l = none := by
        rw [lastIdentity, List.length_eq_zero_iff.1 hlen]
        rfl
      simp [hnone, hlen]
    · rw [hstays hlen]
      simp [hlen]
  all_goals
    obtain ⟨frame, hframe⟩ := Option.ne_none_iff_exists'.1 hb
    obtain ⟨v, hid, hinfos⟩ := (upsertFrames_upserted pb hrt h0 hframe hnil).infos
  · have htail : (nodeInfosOf pb ni.nodeNum l).tail = [] := by
      rw [← List.length_eq_zero_iff, List.length_tail]
      omega
    rw [lastIdentity, hinfos, htail, ← overlay_eq_written_iff, ← hid]
    simp
  · rw [← hstays (by omega)]
    rw [lastIdentity, hinfos, getLast?_cons_tail (by omega), lastIdentity]

/-- a config_complete_id leaves the two in agreement: inside a collection both are made from it, outside it the cache
can only lose a node -/
theorem configComplete_agree (h : Tail pb s.cache) (hagree : Agree pb s) {p : Bytes}
    (hcc : (decodeFromRadio pb p).type = .configCompleteId) (now : UInt32) (room : Bool) :
    Agree pb (step pb grow s (.frame now room p)) := by
  have hnone : extractNodeInfo pb p = none := by
    cases hni : extractNodeInfo pb p with
    | none => rfl
    | some ni =>
      rw [extractNodeInfo_packet pb hni] at hcc
      cases hcc
  have hcache : (step pb grow s (.frame now room p)).cache = ConfigCache.step pb grow s.cache (.frame now p) :=
    onFrame_cache pb grow now room p
  rw [agree_iff]
  intro n h0 i hi
  rw [hcache] at hi
  by_cases hcol : s.cache.collectingConfig = true
  · obtain ⟨frames, hopen⟩ := h.opened hcol
    obtain ⟨old, hdir⟩ := onFrame_publishes grow h.ok hcol hcc now room
    rw [hopen.frames] at hdir
    rw [hopen.publish pb grow hcc] at hi
    have hkeep (e : NodeEntry) : identity (Metrics.keepRuntime (old n) e) = identity e := by
      cases old n <;> rfl
    rw [step, hdir, shown, GoMap.get?_mapVal, Option.map_map, Function.comp_def]
    simp only [hkeep]
    rw [← hi, ← shown_extract pb h0]
    rfl
  · rw [step_stray pb grow hcc hcol] at hi
    have hbefore := lastIdentity_stray grow h (nodeInfoOf_of_type (by rw [hcc]; decide)) hi
    have hshown := (agree_iff pb).1 hagree n h0 i hbefore
    have hcol' : (s.onUpdates pb grow now p).cache.collectingConfig ≠ true := by
      rwa [onUpdates_cache, onNodeInfo_collectingConfig]
    rw [step, Conn.onFrame, Conn.onConfig]
    simp only
    rw [if_neg fun h => hcol' h.2]
    exact (onUpdates_keeps pb grow hnone now).some hshown

theorem lastIdentity_upsert_other (hrt : pb.RoundTrip) {ni : NodeInfoData} (h0 : ni.nodeNum ≠ 0) (now : UInt32)
    (cache : List Bytes) {n : UInt32} (hn : n ≠ ni.nodeNum) :
    lastIdentity pb n (upsertFrames pb now ni cache) = lastIdentity pb n cache := by
  by_cases hnil : cache = []
  · rw [upsertFrames_same (Or.inl hnil)]
  cases hb : buildNodeInfoFrame pb now ni with
  | none => rw [upsertFrames_same (Or.inr hb)]
  | some frame => rw [lastIdentity, (upsertFrames_upserted pb hrt h0 hb hnil).infos_other hn, lastIdentity]

/-- a NODEINFO_APP packet leaves the two in agreement exactly under its condition -/
theorem packet_agree_iff (hrt : pb.RoundTrip) (h : Tail pb s.cache) (hagree : Agree pb s) {payload : Bytes}
    {ni : NodeInfoData} (hni : extractNodeInfo pb payload = some ni) (now : UInt32) (room : Bool) :
    Agree pb (step pb grow s (.frame now room payload)) ↔ UpdateAgrees pb now ni s := by
  have hcc : (decodeFromRadio pb payload).type ≠ .configCompleteId := by
    rw [extractNodeInfo_packet pb hni]
    decide
  have h0 := extractNodeInfo_num pb hni
  have hcache : (step pb grow s (.frame now room payload)).cache.configCache =
      upsertFrames pb now ni s.cache.configCache := by
    have hframe := configCache_frame pb grow h.ok h.opened hcc now
    rw [updateCached, hni] at hframe
    rw [step, onFrame_cache]
    exact hframe
  have hmetrics : (step pb grow s (.frame now room payload)).metrics = (s.onUpdates pb grow now payload).metrics :=
    onConfig_metrics grow room hcc
  have hshown := shown_onUpdates (s := s) pb grow hni now
  rw [← update_agrees_iff hrt hagree h0 now, agree_iff, hcache, hmetrics]
  constructor
  · intro hall i hi
    have hnode := hall ni.nodeNum h0 i hi
    rw [hshown] at hnode
    exact Option.some.inj hnode
  · intro hnode n hn0 i hi
    by_cases hn : n = ni.nodeNum
    · rw [hn] at hi ⊢
      rw [hshown, hnode i hi]
    · rw [lastIdentity_upsert_other hrt h0 now _ hn] at hi
      exact shown_onUpdates_other pb grow hni now hn ((agree_iff pb).1 hagree n hn0 i hi)

/-- **One step.** From a state in which the two agree, they agree afterwards exactly if the step meets its condition. -/
theorem step_agree_iff (hrt : pb.RoundTrip) (h : Tail pb s.cache) (hagree : Agree pb s) (a : Act) :
    Agree pb (step pb grow s a) ↔ StepAgrees pb s a := by
  cases a with
  | send room payload =>
    refine iff_of_true ?_ trivial
    unfold Agree
    rw [step, send_cache, send_nodeDir]
    exact hagree
  | reconnect => exact iff_of_true hagree trivial
  | frame now room payload =>
    cases hni : extractNodeInfo pb payload with
    | some ni =>
      rw [packet_agree_iff grow hrt h hagree hni now room]
      simp [StepAgrees, hni]
    | none =>
      refine iff_of_true ?_ (by simp [StepAgrees, hni])
      by_cases hcc : (decodeFromRadio pb payload).type = .configCompleteId
      · exact configComplete_agree grow h hagree hcc now room
      have hframe : (s.cache.onFrame pb grow now payload).configCache = s.cache.configCache := by
        have hupdate := configCache_frame pb grow h.ok h.opened hcc now
        rwa [updateCached, hni] at hupdate
      rw [agree_iff, step, onFrame_cache, hframe, Conn.onFrame, onConfig_metrics grow room hcc]
      intro n h0 i hi
      exact (onUpdates_keeps pb grow hni now).some ((agree_iff pb).1 hagree n h0 i hi)

end Steps

/-! ## Main result -/

theorem step_cache_tail (hrt : pb.RoundTrip) {s : Conn} (h : Tail pb s.cache) (a : Act) :
    Tail pb (step pb grow s a).cache := by
  cases a with
  | frame now room payload =>
    rw [step, onFrame_cache]
    exact step_tail grow hrt h (.frame now payload)
  | send room payload =>
    rw [step, send_cache]
    exact h
  | reconnect => exact step_tail grow hrt h .reconnect

/-- **The directory and the config cache agree on identity.** In every run of `readLoop`, over any number of
connections: after every step, every node with a NodeInfo frame in `ConfigCache` is in the directory with the names, id,
hardware model, role and licence flag that ExtractNodeDirectory reads from the cache, exactly when every NODEINFO_APP
packet met a state in which it kept them so. -/
theorem identity_agrees_iff (hrt : pb.RoundTrip) (maxMessages : ℤ) (as : List Act) :
    (∀ bs, bs <+: as → Agree pb (run (step pb grow) (.new maxMessages) bs)) ↔
      Along (step pb grow) (StepAgrees pb) (.new maxMessages) as := by
  have hnew : Agree pb (.new maxMessages) := by
    rintro n - ⟨f, hf, -⟩
    cases hf
  apply prefixes_iff_along (I := fun s => Tail pb s.cache ∧ Agree pb s)
  · intro s h
    exact h.2
  · intro s a h ha
    exact ⟨step_cache_tail pb grow hrt h.1 a, (step_agree_iff grow hrt h.1 h.2 a).2 ha⟩
  · intro s a h ha hagree
    exact ha ((step_agree_iff grow hrt h.1 h.2 a).1 hagree)
  · exact ⟨tail_new pb, hnew⟩

/-! ### Node 9 broadcasts its identity after the download -/

instance (ni : NodeInfoData) (old : Identity) : Decidable (Repeats ni old) := inferInstanceAs (Decidable (_ ∧ _))

instance (ni : NodeInfoData) (old : Identity) : Decidable (Settles pb ni old) := inferInstanceAs (Decidable (_ ∧ _))

/-- the codec of node 9, which also knows its packet with an empty User and the frame made from it -/
def renamedCodec : Codec :=
  { tableCodec (nineFrames ++ [(nodeInfoPacket 9, nodeInfoPacketMsg 9), (nodeInfoFrame 9, nodeInfoFrameMsg 9)])
      [(heartbeatFrame, { variant := .heartbeat [] })] [] with
    unmarshalUser := nineCodec.unmarshalUser }

theorem renamedCodec_roundTrip : renamedCodec.RoundTrip :=
  tableCodec_roundTrip (nineFrames ++ [(nodeInfoPacket 9, nodeInfoPacketMsg 9), (nodeInfoFrame 9, nodeInfoFrameMsg 9)])
    [] [] (by decide +kernel)

/-- a download with the NodeInfo frame of node 9 -/
def nineDownload : List Act := [atOne myInfoFrame, atOne nineFrame, atOne (configCompleteBytes 5)].map readAct

/-- with the same names the two stay in step -/
theorem identity_agrees_nine :
    Agree renamedCodec (run (step renamedCodec doubling) (.new 100) (nineDownload ++ [readAct (atOne ninePacket)])) := by
  have hquiet {s : Conn} {p : Bytes} (hp : extractNodeInfo renamedCodec p = none) :
      StepAgrees renamedCodec s (readAct (atOne p)) := by
    intro ni hni
    exact absurd (hp.symm.trans hni) (by simp)
  have hpacket : UpdateAgrees renamedCodec 1 nineData (run (step renamedCodec doubling) (.new 100) nineDownload) := by
    simp only [UpdateAgrees]
    decide +kernel
  refine (identity_agrees_iff renamedCodec doubling renamedCodec_roundTrip 100
    (nineDownload ++ [readAct (atOne ninePacket)])).2 ⟨?_, ?_, ?_, ?_, trivial⟩ _ List.prefix_rfl
  · exact hquiet (by decide +kernel)
  · exact hquiet (by decide +kernel)
  · exact hquiet (by decide +kernel)
  · intro ni hni
    have hdata : extractNodeInfo renamedCodec ninePacket = some nineData := by decide +kernel
    obtain rfl := Option.some.inj (hdata.symm.trans hni)
    exact hpacket

/-- the state after the download and a packet without names -/
def emptied : Conn :=
  run (step renamedCodec doubling) (.new 100) (nineDownload ++ [readAct (atOne (nodeInfoPacket 9))])

/-- the directory keeps the names, the cache loses them -/
theorem identities_disagree :
    shown emptied.metrics.nodeDir 9 = some ⟨"N9", "Node9", "!9", "UNSET", "CLIENT", false⟩ ∧
    shown (extractNodeDirectory renamedCodec emptied.cache.configCache) 9 =
      some ⟨"", "", "", "UNSET", "CLIENT", false⟩ ∧
    ¬ Agree renamedCodec emptied := by
  have hdir : shown emptied.metrics.nodeDir 9 = some ⟨"N9", "Node9", "!9", "UNSET", "CLIENT", false⟩ := by
    decide +kernel
  have hcache : shown (extractNodeDirectory renamedCodec emptied.cache.configCache) 9 =
      some ⟨"", "", "", "UNSET", "CLIENT", false⟩ := by
    decide +kernel
  refine ⟨hdir, hcache, ?_⟩
  intro hagree
  obtain ⟨i, hi, hi'⟩ := hagree 9 (by decide) ⟨nodeInfoFrame 9, by decide +kernel, by decide +kernel⟩
  rw [hdir] at hi
  rw [hcache, ← hi] at hi'
  exact absurd hi' (by decide)

end MeshProxy.ReadLoop
