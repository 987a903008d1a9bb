/-
A NODEINFO_APP packet inside a config download (`internal/node/connection.go`: readLoop; `internal/metrics`: UpsertNode,
SetNodeDirectory).

The packet updates the cache and the directory that are in use; the config_complete_id then replaces both by what was
collected, and the collection holds the packet itself but no NodeInfo frame made from it. So what becomes of the update
is decided by the NodeInfo frames of that node which the download itself brought.

- `directory_get?`: the directory built from frames has, for a node, the entry of its last NodeInfo frame;
- `identity_update_kept_iff`: the update survives exactly when the download brought the same identity.
-/
import MeshProxy.Node.Publication
import MeshProxy.Node.ReadLoop

namespace MeshProxy.ReadLoop

open MeshProxy.Proto MeshProxy.Decode MeshProxy.ConfigCache MeshProxy.Store MeshProxy.Trace MeshProxy.GoSlice
open MeshProxy.Frame (Bytes)

variable (pb : Codec) (grow : ℕ → ℕ)

/-! ## The directory of a list of frames -/

/-- the NodeInfo messages of a node, in the order of their frames -/
def nodeInfosOf (num : UInt32) (frames : List Bytes) : List NodeInfo :=
  (frames.filterMap (nodeInfoOf pb)).filter fun v => v.num = num

theorem nodeInfosOf_append (num : UInt32) (l l' : List Bytes) :
    nodeInfosOf pb num (l ++ l') = nodeInfosOf pb num l ++ nodeInfosOf pb num l' := by
  simp [nodeInfosOf]

/-- frames without a NodeInfo of the node -/
theorem nodeInfosOf_eq_nil {num : UInt32} {l : List Bytes} (h : ∀ f ∈ l, ∀ v, nodeInfoOf pb f = some v → v.num ≠ num) :
    nodeInfosOf pb num l = [] := by
  rw [nodeInfosOf, List.filter_eq_nil_iff]
  intro v hv
  obtain ⟨f, hf, hfv⟩ := List.mem_filterMap.1 hv
  simpa using h f hf v hfv

theorem directory_get? {num : UInt32} (h0 : num ≠ 0) (frames : List Bytes) :
    (extractNodeDirectory pb frames).get? num = (nodeInfosOf pb num frames).getLast?.map (nodeInfoEntry pb) := by
  induction frames using List.reverseRecOn with
  | nil => rfl
  | append_singleton frames f ih =>
    have hfold : extractNodeDirectory pb (frames ++ [f]) = directoryStep pb (extractNodeDirectory pb frames) f := by
      simp [extractNodeDirectory]
    rw [hfold, nodeInfosOf_append, directoryStep]
    cases hf : nodeInfoOf pb f with
    | none => simpa [nodeInfosOf, hf] using ih
    | some v =>
      simp only
      by_cases hv : v.num = num
      · have hv0 : v.num ≠ 0 := hv ▸ h0
        rw [if_neg hv0, GoMap.get?_set, if_pos hv.symm]
        simp [nodeInfosOf, hf, hv]
      · have hother : nodeInfosOf pb num [f] = [] := by simp [nodeInfosOf, hf, hv]
        rw [hother, List.append_nil, ← ih]
        split_ifs
        · rfl
        · rw [GoMap.get?_set, if_neg (fun e => hv e.symm)]

/-! ## Identities -/

/-- the NodeInfo has the packet's id, short name and long name -/
def Carries (ni : NodeInfoData) (v : NodeInfo) : Prop :=
  v.num = ni.nodeNum ∧ (v.user.getD {}).id = ni.userID ∧ (v.user.getD {}).shortName = ni.shortName ∧
    (v.user.getD {}).longName = ni.longName

/-- the directory entry has those of them that are not empty -/
def Shows (ni : NodeInfoData) (entry : NodeEntry) : Prop :=
  (ni.userID ≠ "" → entry.userID = ni.userID) ∧ (ni.shortName ≠ "" → entry.shortName = ni.shortName) ∧
    (ni.longName ≠ "" → entry.longName = ni.longName)

instance (ni : NodeInfoData) (v : NodeInfo) : Decidable (Carries ni v) := inferInstanceAs (Decidable (_ ∧ _))

instance (ni : NodeInfoData) (entry : NodeEntry) : Decidable (Shows ni entry) := inferInstanceAs (Decidable (_ ∧ _))

theorem shows_keepRuntime (ni : NodeInfoData) (old : Option NodeEntry) (entry : NodeEntry) :
    Shows ni (Metrics.keepRuntime old entry) ↔ Shows ni entry := by
  cases old <;> exact Iff.rfl

/-- the update is in the cache and in the directory -/
def Kept (ni : NodeInfoData) (s : Conn) : Prop :=
  (∃ f ∈ s.cache.configCache, ∃ v, nodeInfoOf pb f = some v ∧ Carries ni v) ∧
    ∃ entry, s.metrics.nodeDir.get? ni.nodeNum = some entry ∧ Shows ni entry

/-! ## Runs -/

/-- reading a frame, with the clock's reading and whether toNode has room for a heartbeat -/
def readAct (f : UInt32 × Bool × Bytes) : Act := .frame f.1 f.2.1 f.2.2

/-- what an action is to the cache -/
def Act.onCache : Act → Option ConfigCache.Act
  | .frame now _ payload => some (.frame now payload)
  | .send _ _ => none
  | .reconnect => some .reconnect

/-- the cache's share of a run is a run of the cache -/
theorem run_cache (s : Conn) (as : List Act) :
    (run (step pb grow) s as).cache = run (ConfigCache.step pb grow) s.cache (as.filterMap Act.onCache) := by
  induction as generalizing s with
  | nil => rfl
  | cons a as ih =>
    rw [run_cons, ih]
    cases a with
    | frame now room payload => simp only [List.filterMap_cons, Act.onCache, run_cons, step, ConfigCache.step, onFrame_cache]
    | send room payload => simp only [List.filterMap_cons, Act.onCache, step, send_cache]
    | reconnect => simp only [List.filterMap_cons, Act.onCache, run_cons, step, ConfigCache.step]

theorem filterMap_readAct (fs : List (UInt32 × Bool × Bytes)) :
    (fs.map readAct).filterMap Act.onCache = (fs.map fun f => (f.1, f.2.2)).map ConfigCache.readAct := by
  induction fs with
  | nil => rfl
  | cons f fs ih => simp [ih, readAct, Act.onCache, ConfigCache.readAct]

/-- the frames of a list of readings -/
def payloads (fs : List (UInt32 × Bool × Bytes)) : List Bytes := fs.map fun f => f.2.2

/-- after a my_info and frames inside its collection, the collection holds them -/
theorem collected (n : ℤ) (pre : List Act) (my : UInt32 × Bool × Bytes) (mid : List (UInt32 × Bool × Bytes))
    (hmy : (decodeFromRadio pb my.2.2).type = .myInfo) (hmid : ∀ f ∈ mid, Inside pb f.2.2) :
    Collection (run (step pb grow) (.new n) (pre ++ readAct my :: mid.map readAct)).cache (my.2.2 :: payloads mid) := by
  have hpre : (run (step pb grow) (.new n) pre).cache.Ok := by
    rw [run_cache]
    exact run_ok pb grow _
  have hopen := (step_myInfo pb grow hpre hmy my.1).1
  have hrun := collection_run pb grow hopen (mid.map fun f => (f.1, f.2.2)) (by
    intro f hf
    obtain ⟨g, hg, rfl⟩ := List.mem_map.1 hf
    exact hmid g hg)
  have hacts : (readAct my :: mid.map readAct).filterMap Act.onCache =
      .frame my.1 my.2.2 :: (mid.map fun f => (f.1, f.2.2)).map ConfigCache.readAct := by
    rw [← filterMap_readAct]
    rfl
  rw [run_append, run_cache, hacts, run_cons]
  simpa [payloads, Function.comp_def] using hrun

theorem extractNodeInfo_num {payload : Bytes} {ni : NodeInfoData} (h : extractNodeInfo pb payload = some ni) :
    ni.nodeNum ≠ 0 := by
  unfold extractNodeInfo at h
  split at h
  · cases h
  · split at h
    · cases h
    · split_ifs at h with h0
      cases h
      exact h0

theorem exists_carries_iff (ni : NodeInfoData) (l : List Bytes) :
    (∃ f ∈ l, ∃ v, nodeInfoOf pb f = some v ∧ Carries ni v) ↔ ∃ v ∈ nodeInfosOf pb ni.nodeNum l, Carries ni v := by
  constructor
  · rintro ⟨f, hf, v, hfv, hv⟩
    exact ⟨v, List.mem_filter.2 ⟨List.mem_filterMap.2 ⟨f, hf, hfv⟩, by simpa using hv.1⟩, hv⟩
  · rintro ⟨v, hv, hc⟩
    obtain ⟨f, hf, hfv⟩ := List.mem_filterMap.1 (List.mem_filter.1 hv).1
    exact ⟨f, hf, v, hfv, hc⟩

/-- only the frames read before the packet bring NodeInfo messages of its node -/
theorem nodeInfosOf_collection {num : UInt32} {my pk cc : Bytes} (before : List Bytes) {after : List Bytes}
    (hmy : (decodeFromRadio pb my).type = .myInfo) (hpk : (decodeFromRadio pb pk).type = .packet)
    (hcc : (decodeFromRadio pb cc).type = .configCompleteId)
    (hafter : ∀ f ∈ after, ∀ v, nodeInfoOf pb f = some v → v.num ≠ num) :
    nodeInfosOf pb num (my :: (before ++ pk :: after) ++ [cc]) = nodeInfosOf pb num before := by
  have hnone {f : Bytes} (ht : (decodeFromRadio pb f).type ≠ .nodeInfo) : nodeInfosOf pb num [f] = [] := by
    simp [nodeInfosOf, nodeInfoOf_of_type ht]
  have hsplit : my :: (before ++ pk :: after) ++ [cc] = [my] ++ (before ++ ([pk] ++ (after ++ [cc]))) := by simp
  rw [hsplit]
  simp only [nodeInfosOf_append]
  rw [hnone (by rw [hmy]; decide), hnone (by rw [hpk]; decide), hnone (by rw [hcc]; decide),
    nodeInfosOf_eq_nil pb hafter]
  simp

/-- **An identity update inside a config download.** For every run and every NODEINFO_APP packet read inside a
collection, with no NodeInfo frame of that node after it: right after the config_complete_id the update is in
`ConfigCache` and in the directory exactly when the collection brought, before the packet, a NodeInfo frame of the node
with the same id and names, and the last NodeInfo frame of the node has those of them that are not empty. -/
theorem identity_update_kept_iff (n : ℤ) (pre : List Act) (my pk cc : UInt32 × Bool × Bytes)
    (before after : List (UInt32 × Bool × Bytes)) (ni : NodeInfoData)
    (hmy : (decodeFromRadio pb my.2.2).type = .myInfo) (hbefore : ∀ f ∈ before, Inside pb f.2.2)
    (hpk : extractNodeInfo pb pk.2.2 = some ni) (hafter : ∀ f ∈ after, Inside pb f.2.2)
    (hlast : ∀ f ∈ payloads after, ∀ v, nodeInfoOf pb f = some v → v.num ≠ ni.nodeNum)
    (hcc : (decodeFromRadio pb cc.2.2).type = .configCompleteId) :
    Kept pb ni (run (step pb grow) (.new n)
        (pre ++ readAct my :: (before ++ pk :: after).map readAct ++ [readAct cc])) ↔
      (∃ f ∈ payloads before, ∃ v, nodeInfoOf pb f = some v ∧ Carries ni v) ∧
        ∃ v, (nodeInfosOf pb ni.nodeNum (payloads before)).getLast? = some v ∧ Shows ni (nodeInfoEntry pb v) := by
  have htype := extractNodeInfo_packet pb hpk
  have hmid : ∀ f ∈ before ++ pk :: after, Inside pb f.2.2 := by
    intro f hf
    rcases List.mem_append.1 hf with hf | hf
    · exact hbefore f hf
    · rcases List.mem_cons.1 hf with rfl | hf
      · exact ⟨by rw [htype]; decide, by rw [htype]; decide⟩
      · exact hafter f hf
  have hcoll := collected pb grow n pre my (before ++ pk :: after) hmy hmid
  rw [run_snoc]
  generalize run (step pb grow) (.new n) (pre ++ readAct my :: (before ++ pk :: after).map readAct) = s at hcoll ⊢
  have hpay : payloads (before ++ pk :: after) = payloads before ++ pk.2.2 :: payloads after := by simp [payloads]
  rw [hpay] at hcoll
  have hinfos := nodeInfosOf_collection pb (payloads before) hmy htype hcc hlast
  have hcache : (step pb grow s (readAct cc)).cache.configCache =
      my.2.2 :: (payloads before ++ pk.2.2 :: payloads after) ++ [cc.2.2] := by
    have hpub := hcoll.publish pb grow hcc cc.1
    simpa [step, readAct, onFrame_cache, ConfigCache.step] using hpub
  obtain ⟨old, hdir⟩ := onFrame_publishes (s := s) grow hcoll.ok hcoll.collecting hcc cc.1 cc.2.1
  rw [hcoll.frames] at hdir
  have hentry : (step pb grow s (readAct cc)).metrics.nodeDir.get? ni.nodeNum =
      (nodeInfosOf pb ni.nodeNum (payloads before)).getLast?.map
        fun v => Metrics.keepRuntime (old ni.nodeNum) (nodeInfoEntry pb v) := by
    simp only [step, readAct]
    rw [hdir, GoMap.get?_mapVal, directory_get? pb (extractNodeInfo_num pb hpk), hinfos, Option.map_map]
    rfl
  unfold Kept
  rw [hcache, hentry, exists_carries_iff, exists_carries_iff, hinfos]
  apply and_congr_right
  intro _
  constructor
  · rintro ⟨entry, he, hs⟩
    obtain ⟨v, hv, rfl⟩ := Option.map_eq_some_iff.1 he
    exact ⟨v, hv, (shows_keepRuntime ni _ _).1 hs⟩
  · rintro ⟨v, hv, hs⟩
    exact ⟨_, by rw [hv]; rfl, (shows_keepRuntime ni _ _).2 hs⟩

/-! ### Node 9 gives its name during a download -/

def nineUser : User := { id := "!9", longName := "Node9", shortName := "N9" }

def nineBytes : Bytes := [0x0A, 2, 33, 57, 0x12, 5, 78, 111, 100, 101, 57, 0x1A, 2, 78, 57]

/-- the NODEINFO_APP packet of node 9 -/
def ninePacket : Bytes := [0x12, 26, 0x0D, 9, 0, 0, 0, 0x22, 19, 8, 4, 0x12, 15] ++ nineBytes

/-- the NodeInfo frame of node 9 in a node's database -/
def nineFrame : Bytes := [0x22, 19, 8, 9, 0x12, 15] ++ nineBytes

/-- the one UpsertCachedNodeInfo builds at time 1 -/
def nineBuilt : Bytes := [0x22, 24, 8, 9, 0x12, 15] ++ nineBytes ++ [0x2D, 1, 0, 0, 0]

def ninePacketMsg : MeshPacket :=
  { from_ := 9, variant := .decoded { portnum := PortNum.nodeinfoApp, payload := nineBytes } }

def nineFrames : List (Bytes × FromRadio) :=
  [(myInfoFrame, { variant := .myInfo 1 [] }), (ninePacket, { variant := .packet ninePacketMsg }),
    (nineFrame, { variant := .nodeInfo { num := 9, user := some nineUser } }),
    (nineBuilt, { variant := .nodeInfo { num := 9, user := some nineUser, lastHeard := 1 } })]

def nineCodec : Codec :=
  { tableCodec nineFrames [(heartbeatFrame, { variant := .heartbeat [] })] [] with
    unmarshalUser := fun b => if b = nineBytes then some nineUser else if b = [] then some {} else none }

/-- reading a frame at time 1, with room in toNode -/
def atOne (payload : Bytes) : UInt32 × Bool × Bytes := (1, true, payload)

def nineData : NodeInfoData where
  nodeNum := 9
  shortName := "N9"
  longName := "Node9"
  userID := "!9"
  hwModel := "UNSET"
  role := "CLIENT"
  isLicensed := false
  publicKey := []
  macaddr := []
  isUnmessagable := none

/-- the node's database has it already: the update is there after the download -/
theorem identity_update_kept_nine :
    Kept nineCodec nineData (run (step nineCodec doubling) (.new 100)
      ([] ++ readAct (atOne myInfoFrame) ::
        ([atOne nineFrame] ++ atOne ninePacket :: []).map readAct ++
          [readAct (atOne (configCompleteBytes 5))])) := by
  have hcarries : ∃ f ∈ payloads [atOne nineFrame], ∃ v, nodeInfoOf nineCodec f = some v ∧ Carries nineData v :=
    ⟨nineFrame, by simp [payloads, atOne], { num := 9, user := some nineUser }, by decide +kernel, by decide +kernel⟩
  exact (identity_update_kept_iff nineCodec doubling 100 [] (atOne myInfoFrame) (atOne ninePacket)
    (atOne (configCompleteBytes 5)) [atOne nineFrame] [] nineData (by decide +kernel) (by decide +kernel)
    (by decide +kernel) (by simp) (by simp [payloads]) (by decide +kernel)).2
    ⟨hcarries, { num := 9, user := some nineUser }, by decide +kernel, by decide +kernel⟩

/-- it has not: the directory shows the node until the config_complete_id, and no longer after it -/
theorem identity_update_lost :
    extractNodeInfo nineCodec ninePacket = some nineData ∧
    ((run (step nineCodec doubling) (.new 100)
      [readAct (atOne myInfoFrame), readAct (atOne ninePacket)]).metrics.nodeDir.get? 9).isSome = true ∧
    ¬ Kept nineCodec nineData (run (step nineCodec doubling) (.new 100)
      [readAct (atOne myInfoFrame), readAct (atOne ninePacket), readAct (atOne (configCompleteBytes 5))]) := by
  refine ⟨by decide +kernel, by decide +kernel, ?_⟩
  have hgone : (run (step nineCodec doubling) (.new 100) [readAct (atOne myInfoFrame),
      readAct (atOne ninePacket), readAct (atOne (configCompleteBytes 5))]).metrics.nodeDir.get? nineData.nodeNum =
        none := by
    decide +kernel
  rintro ⟨-, entry, he, -⟩
  rw [hgone] at he
  cases he

end MeshProxy.ReadLoop
