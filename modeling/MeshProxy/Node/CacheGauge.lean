/-
The cache-size gauge (`metrics.ConfigCacheFrames`) against the cache it counts (`internal/node/connection.go`). The gauge
is stored when a collection is published; UpsertCachedNodeInfo changes the cache without it.

- `length_updateCached`: an identity update makes the cache longer exactly when it inserts, that is, when the node has no
  NodeInfo frame in a cache that is not empty;
- `onFrame_inStep_iff`: a round keeps the gauge in step exactly when its update does not insert;
- `gauge_exact_iff`: a run over any number of connections has the gauge in step in every state between two frames
  exactly when none of its frames inserts.
-/
import MeshProxy.Node.Publication
import MeshProxy.Node.ReadLoop

namespace MeshProxy.CacheGauge

open MeshProxy.Proto MeshProxy.Decode MeshProxy.ConfigCache MeshProxy.ReadLoop MeshProxy.Store MeshProxy.Trace
open MeshProxy.GoSlice
open MeshProxy.Frame (Bytes)

variable (pb : Codec) (grow : ℕ → ℕ)

/-- UpsertCachedNodeInfo adds a frame: it has one to add, to a cache that is not empty and has none for the node -/
def insertsNode (now : UInt32) (ni : NodeInfoData) (cache : List Bytes) : Bool :=
  ni.nodeNum != 0 && (buildNodeInfoFrame pb now ni).isSome && !cache.isEmpty && !cache.any (isNodeInfoFor pb ni.nodeNum)

/-- reading the frame adds one to the cached frames -/
def inserts (cache : List Bytes) (f : UInt32 × Bytes) : Bool :=
  match extractNodeInfo pb f.2 with
  | none => false
  | some ni => insertsNode pb f.1 ni cache

/-- `ConfigCacheFrames` is `len(ConfigCache())` -/
def InStep (s : Conn) : Prop := s.metrics.configCacheFrames = s.cache.configCache.length

instance : DecidablePred InStep := fun _ => inferInstanceAs (Decidable (_ = _))

/-- the frame of a step does not insert -/
def NoInsert (s : Conn) : ReadLoop.Act → Prop
  | .frame now _ payload => inserts pb s.cache.configCache (now, payload) = false
  | .send _ _ => True
  | .reconnect => True

instance (s : Conn) (a : ReadLoop.Act) : Decidable (NoInsert pb s a) := by
  cases a <;> unfold NoInsert <;> infer_instance

/-! ## The length of the cache -/

section Length

variable {pb}

theorem length_upsertFrames (now : UInt32) (ni : NodeInfoData) (cache : List Bytes) :
    (upsertFrames pb now ni cache).length = if insertsNode pb now ni cache then cache.length + 1 else cache.length := by
  by_cases h0 : ni.nodeNum = 0
  · simp [upsertFrames, insertsNode, h0]
  cases hb : buildNodeInfoFrame pb now ni with
  | none => simp [upsertFrames_same (.inr hb), insertsNode, hb]
  | some frame =>
    by_cases hnil : cache = []
    · subst hnil
      simp [upsertFrames_same (.inl rfl), insertsNode]
    rcases split_nodeInfoFor pb ni.nodeNum hnil with
      ⟨before, raw, after, rfl, hfirst, hraw⟩ | ⟨before, last, rfl, hnone⟩
    · rw [upsertFrames_found h0 hb hfirst hraw]
      simp [insertsNode, hraw]
    · have hany : (before ++ [last]).any (isNodeInfoFor pb ni.nodeNum) = false :=
        List.any_eq_false.2 fun f hf => by simp [hnone f hf]
      have hins : insertsNode pb now ni (before ++ [last]) = true := by simp [insertsNode, h0, hb, hany]
      rw [upsertFrames_absent h0 hb hnone, if_pos hins]
      split_ifs <;> simp

theorem length_updateCached (cache : List Bytes) (f : UInt32 × Bytes) :
    (updateCached pb cache f).length = if inserts pb cache f then cache.length + 1 else cache.length := by
  unfold updateCached inserts
  cases extractNodeInfo pb f.2 with
  | none => rfl
  | some ni => exact length_upsertFrames f.1 ni cache

/-- only an identity packet inserts -/
theorem inserts_packet {cache : List Bytes} {f : UInt32 × Bytes} (h : inserts pb cache f = true) :
    (decodeFromRadio pb f.2).type = .packet := by
  unfold inserts at h
  split at h
  · cases h
  · rename_i ni hni
    exact extractNodeInfo_packet pb hni

end Length

/-- the frame publishes the collection that is open -/
def Closes (c : Cache) (payload : Bytes) : Prop :=
  (decodeFromRadio pb payload).type = .configCompleteId ∧ c.collectingConfig = true

theorem configSwitch_header {c : Cache} {payload : Bytes} (h : ¬Closes pb c payload) :
    (c.configSwitch pb grow payload).configCacheHdr = c.configCacheHdr := by
  unfold Cache.configSwitch
  split
  · unfold Cache.openCollection
    simp only
    split_ifs <;> rfl
  · rename_i ht
    have hopen : (c.collect grow payload).collectingConfig ≠ true := fun hopen => h ⟨ht, hopen⟩
    simp only [Cache.completeCollection, if_neg hopen]
    rfl
  · split_ifs <;> rfl

theorem configSwitch_closes {c : Cache} {payload : Bytes} (h : Closes pb c payload) :
    (c.configSwitch pb grow payload).configCache = (c.configSwitch pb grow payload).configFrames := by
  have hopen : (c.collect grow payload).collectingConfig = true := h.2
  simp only [Cache.configSwitch, h.1, Cache.completeCollection, if_pos hopen]
  rfl

/-! ## One round -/

section Round

variable {s : Conn}

theorem onUpdates_gauge (now : UInt32) (payload : Bytes) :
    (s.onUpdates pb grow now payload).metrics.configCacheFrames = s.metrics.configCacheFrames := by
  have hkept : KeptByCalls pb now payload fun m => m.configCacheFrames = s.metrics.configCacheFrames :=
    { position := fun _ _ hm _ => hm
      telemetry := fun _ _ hm _ => hm
      signal := fun _ _ hm _ => hm
      chat := fun _ _ hm _ => hm
      nodeInfo := fun _ _ hm _ => hm
      traceroute := fun _ _ hm _ => hm }
  exact hkept.onUpdates grow rfl

theorem send_gauge (room : Bool) (payload : Bytes) :
    (s.send pb room payload).metrics.configCacheFrames = s.metrics.configCacheFrames := by
  unfold Conn.send
  split_ifs
  · simp only
    split <;> rfl
  · rfl

theorem sendPostConfigHeartbeat_gauge (room : Bool) :
    (s.sendPostConfigHeartbeat pb room).metrics.configCacheFrames = s.metrics.configCacheFrames := by
  unfold Conn.sendPostConfigHeartbeat
  split
  · rfl
  · exact send_gauge pb room _

/-- a publication brings the gauge in step, whatever it was -/
theorem onConfig_closes (room : Bool) {payload : Bytes} (h : Closes pb s.cache payload) :
    InStep (s.onConfig pb grow room payload) := by
  have hcache := configSwitch_closes pb grow h
  unfold InStep
  rw [onConfig_cache, hcache]
  obtain ⟨ht, hopen⟩ := h
  simp only [Conn.onConfig]
  rw [if_pos ⟨ht, hopen⟩, sendPostConfigHeartbeat_gauge]
  rfl

/-- any other frame leaves the gauge and the length of the cache to the updates -/
theorem onConfig_inStep_iff (hok : s.cache.Ok) (room : Bool) {payload : Bytes} (h : ¬Closes pb s.cache payload) :
    InStep (s.onConfig pb grow room payload) ↔ InStep s := by
  have hlen : (s.onConfig pb grow room payload).cache.configCache.length = s.cache.configCache.length := by
    rw [onConfig_cache, Cache.configCache, Cache.configCache, length_read (configSwitch_ok pb grow hok payload).cache,
      length_read hok.cache, configSwitch_header pb grow h]
  have hgauge : (s.onConfig pb grow room payload).metrics.configCacheFrames = s.metrics.configCacheFrames := by
    simp only [Conn.onConfig]
    rw [if_neg fun hc => h ⟨hc.1, hc.2⟩]
  rw [InStep, InStep, hlen, hgauge]

/-- **A round keeps the gauge in step exactly when its update does not insert.** -/
theorem onFrame_inStep_iff (hok : s.cache.Ok) (h : InStep s) (now : UInt32) (room : Bool) (payload : Bytes) :
    InStep (s.onFrame pb grow now room payload) ↔ inserts pb s.cache.configCache (now, payload) = false := by
  have hcache : (s.onUpdates pb grow now payload).cache = s.cache.onNodeInfo pb grow now payload :=
    onUpdates_cache pb grow now payload
  unfold Conn.onFrame
  by_cases hcloses : Closes pb (s.onUpdates pb grow now payload).cache payload
  · refine iff_of_true (onConfig_closes pb grow room hcloses) (Bool.eq_false_iff.2 fun hins => ?_)
    have hpacket := inserts_packet hins
    rw [hcloses.1] at hpacket
    cases hpacket
  · have hok' : (s.onUpdates pb grow now payload).cache.Ok := hcache ▸ onNodeInfo_ok pb grow hok now payload
    rw [onConfig_inStep_iff pb grow hok' room hcloses, InStep, onUpdates_gauge, hcache,
      configCache_onNodeInfo pb grow hok, length_updateCached, h]
    cases inserts pb s.cache.configCache (now, payload) <;> simp

theorem step_cache_ok (hok : s.cache.Ok) (a : ReadLoop.Act) : (ReadLoop.step pb grow s a).cache.Ok := by
  cases a with
  | frame now room payload =>
    rw [ReadLoop.step, onFrame_cache]
    exact ConfigCache.step_ok pb grow hok (.frame now payload)
  | send room payload =>
    rw [ReadLoop.step, send_cache]
    exact hok
  | reconnect => exact connect_ok hok

theorem step_inStep_iff (hok : s.cache.Ok) (h : InStep s) (a : ReadLoop.Act) :
    InStep (ReadLoop.step pb grow s a) ↔ NoInsert pb s a := by
  cases a with
  | frame now room payload => exact onFrame_inStep_iff pb grow hok h now room payload
  | send room payload =>
    refine iff_of_true ?_ trivial
    rw [InStep, ReadLoop.step, send_gauge, send_cache]
    exact h
  | reconnect => exact iff_of_true h trivial

end Round

/-! ## Every run -/

/-- **The cache-size gauge.** Over any run of frames, sends and reconnects from the start, the gauge is the length of the
cache in every state between two steps exactly when no frame of the run inserts. -/
theorem gauge_exact_iff (maxMessages : ℤ) (as : List ReadLoop.Act) :
    (∀ bs, bs <+: as → InStep (run (ReadLoop.step pb grow) (.new maxMessages) bs)) ↔
      Along (ReadLoop.step pb grow) (NoInsert pb) (.new maxMessages) as :=
  prefixes_iff_along (I := fun s => s.cache.Ok ∧ InStep s) (fun _ h => h.2)
    (fun _ a h ha => ⟨step_cache_ok pb grow h.1 a, (step_inStep_iff pb grow h.1 h.2 a).2 ha⟩)
    (fun _ a h hna hs => hna ((step_inStep_iff pb grow h.1 h.2 a).1 hs)) ⟨new_ok, rfl⟩

/-- a handshake of five frames, and then node 9 broadcasts its identity -/
def joins : List ReadLoop.Act :=
  [.frame 1 true myInfoFrame, .frame 1 true configFrame, .frame 1 true channelFrame, .frame 1 true metadataFrame,
    .frame 1 true (configCompleteBytes 5), .frame 1 true (nodeInfoPacket 9)]

/-- the node's frame is inserted, and the gauge still says five -/
theorem joined_node_uncounted :
    (run (ReadLoop.step wireCodec doubling) (.new 100) joins).metrics.configCacheFrames = 5 ∧
      (run (ReadLoop.step wireCodec doubling) (.new 100) joins).cache.configCache.length = 6 ∧
      ¬InStep (run (ReadLoop.step wireCodec doubling) (.new 100) joins) := by
  decide +kernel

/-- up to the broadcast the gauge is in step -/
example : Along (ReadLoop.step wireCodec doubling) (NoInsert wireCodec) (.new 100) joins.dropLast := by
  decide +kernel

end MeshProxy.CacheGauge
