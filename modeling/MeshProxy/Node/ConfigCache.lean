/-
The config cache of a node connection (`internal/node/connection.go`: ConfigCache, UpsertCachedNodeInfo and the config
caching switch of readLoop), with Go's slices explicit.

`Cache` holds the heap, the header `c.configCache`, and `readLoop`'s two locals `collectingConfig` and `configFrames`.
Publishing a collection copies the header and not the elements, so afterwards `configFrames` and `configCache` share one
backing array and its spare capacity. A step is one frame read from the node (with the clock's reading) or a new
connection, whose `readLoop` starts with fresh locals while the cache stays.

- `step_ok`: both headers stay inside their arrays and start at the first cell;
- `step_all`: a property of frames that the collected frames have and that node-info upserts keep, holds of every cached
  frame;
- `stray_config_complete_iff`: exactly when a config_complete_id outside a collection leaves the cache alone;
- `configCache_config_only`: the cache holds config frames only, as long as no runtime frame is read inside a collection.
-/
import Mathlib.Data.List.GetD
import MeshProxy.Core.Slice
import MeshProxy.Core.Trace
import MeshProxy.Node.Decode

namespace MeshProxy.ConfigCache

open MeshProxy.Proto MeshProxy.Decode MeshProxy.GoSlice MeshProxy.Trace
open MeshProxy.Frame (Bytes)
open MeshProxy.Store (TypeName)

/-- the connection's cache and the locals of its `readLoop` -/
structure Cache where
  heap : Heap Bytes
  configCacheHdr : Slice
  collectingConfig : Bool
  configFramesHdr : Slice
  myNodeNum : UInt32
deriving DecidableEq, Repr

namespace Cache

/-- `NewConnection` -/
def new : Cache := ⟨[], .nil, false, .nil, 0⟩

/-- `ConfigCache` -/
def configCache (c : Cache) : List Bytes := read c.heap c.configCacheHdr

/-- the frames collected so far -/
def configFrames (c : Cache) : List Bytes := read c.heap c.configFramesHdr

/-- a new connection's `readLoop` -/
def connect (c : Cache) : Cache := { c with collectingConfig := false, configFramesHdr := .nil }

end Cache

variable (pb : Codec) (grow : ℕ → ℕ)

/-! ## Node-info frames -/

/-- `isConfigCompleteFrame` -/
def isConfigCompleteFrame (raw : Bytes) : Bool :=
  match pb.unmarshalFromRadio raw with
  | some ⟨_, .configCompleteId _, _⟩ => true
  | _ => false

/-- `buildNodeInfoFrame` -/
def buildNodeInfoFrame (now : UInt32) (ni : NodeInfoData) : Option Bytes :=
  let user : User :=
    { id := ni.userID, shortName := ni.shortName, longName := ni.longName, hwModel := pb.hwModelValue ni.hwModel,
      role := pb.roleValue ni.role, isLicensed := ni.isLicensed, publicKey := ni.publicKey, macaddr := ni.macaddr,
      isUnmessagable := ni.isUnmessagable }
  pb.marshalFromRadio { variant := .nodeInfo { num := ni.nodeNum, user := some user, lastHeard := now } }

/-- the user `mergeNodeInfoUser` writes: the broadcast's fields, with an absent `is_unmessagable` kept as cached -/
def mergeUser (ni : NodeInfoData) (user : User) : User :=
  { user with
    id := ni.userID, shortName := ni.shortName, longName := ni.longName, hwModel := pb.hwModelValue ni.hwModel,
    role := pb.roleValue ni.role, isLicensed := ni.isLicensed, publicKey := ni.publicKey, macaddr := ni.macaddr,
    isUnmessagable := if ni.isUnmessagable.isSome then ni.isUnmessagable else user.isUnmessagable }

/-- `mergeNodeInfoUser` -/
def mergeNodeInfoUser (now : UInt32) (existingRaw : Bytes) (ni : NodeInfoData) : Option Bytes :=
  match pb.unmarshalFromRadio existingRaw with
  | some ⟨id, .nodeInfo old, rest⟩ =>
    let info := { old with user := some (mergeUser pb ni (old.user.getD {})), lastHeard := now }
    pb.marshalFromRadio ⟨id, .nodeInfo info, rest⟩
  | _ => none

/-- the search test of `UpsertCachedNodeInfo` -/
def isNodeInfoFor (num : UInt32) (raw : Bytes) : Bool :=
  match nodeInfoOf pb raw with
  | some v => v.num == num
  | none => false

/-! ## Cache operations -/

namespace Cache

/-- `c.configCache = append(c.configCache, frame)` -/
def appendCached (frame : Bytes) (c : Cache) : Cache :=
  let r := append [] grow c.heap c.configCacheHdr frame
  { c with heap := r.1, configCacheHdr := r.2 }

/-- grow by one, shift the last frame right, put the new frame where it was -/
def insertBeforeLast (frame : Bytes) (c : Cache) : Cache :=
  let lastIdx := c.configCacheHdr.len - 1
  let r := append [] grow c.heap c.configCacheHdr []
  let shifted := set r.1 r.2 (lastIdx + 1) ((read r.1 r.2).getD lastIdx [])
  { c with heap := set shifted r.2 lastIdx frame, configCacheHdr := r.2 }

/-- `UpsertCachedNodeInfo`. The clock is read once for the built frame and once for a merged one; only one of the two is
ever stored. -/
def upsertCachedNodeInfo (now : UInt32) (ni : NodeInfoData) (c : Cache) : Cache :=
  if ni.nodeNum = 0 then c
  else
    match buildNodeInfoFrame pb now ni with
    | none => c
    | some frame =>
      if c.configCacheHdr.len = 0 then c
      else
        match c.configCache.findIdx? (isNodeInfoFor pb ni.nodeNum) with
        | some i =>
          let merged := mergeNodeInfoUser pb now (c.configCache.getD i []) ni
          { c with heap := set c.heap c.configCacheHdr i (merged.getD frame) }
        | none =>
          if isConfigCompleteFrame pb (c.configCache.getD (c.configCacheHdr.len - 1) []) then
            c.insertBeforeLast grow frame
          else c.appendCached grow frame

/-- `configFrames = append(configFrames, copyBytes(payload))` -/
def collect (payload : Bytes) (c : Cache) : Cache :=
  let r := append [] grow c.heap c.configFramesHdr payload
  { c with heap := r.1, configFramesHdr := r.2 }

/-- `my_info`: a fresh collection -/
def openCollection (payload : Bytes) (c : Cache) : Cache :=
  let c := collect grow payload { c with collectingConfig := true, configFramesHdr := .nil }
  if extractMyNodeNum pb payload ≠ 0 then { c with myNodeNum := extractMyNodeNum pb payload } else c

/-- `config_complete_id`: always appended, published when a collection is open -/
def completeCollection (payload : Bytes) (c : Cache) : Cache :=
  let c := c.collect grow payload
  if c.collectingConfig then { c with configCacheHdr := c.configFramesHdr, collectingConfig := false } else c

/-- the config caching switch of `readLoop` -/
def configSwitch (payload : Bytes) (c : Cache) : Cache :=
  match (decodeFromRadio pb payload).type with
  | .myInfo => c.openCollection pb grow payload
  | .configCompleteId => c.completeCollection grow payload
  | _ => if c.collectingConfig then c.collect grow payload else c

/-- a NODEINFO_APP packet updates the cache -/
def onNodeInfo (now : UInt32) (payload : Bytes) (c : Cache) : Cache :=
  match extractNodeInfo pb payload with
  | none => c
  | some ni => c.upsertCachedNodeInfo pb grow now ni

/-- what one round of `readLoop` does to the cache -/
def onFrame (now : UInt32) (payload : Bytes) (c : Cache) : Cache :=
  (c.onNodeInfo pb grow now payload).configSwitch pb grow payload

end Cache

inductive Act where
  | frame (now : UInt32) (payload : Bytes)
  | reconnect
deriving DecidableEq, Repr

def step (c : Cache) : Act → Cache
  | .frame now payload => c.onFrame pb grow now payload
  | .reconnect => c.connect

/-! ## Headers stay well formed -/

/-- both headers lie inside their arrays and start at their first cell -/
structure Cache.Ok (c : Cache) : Prop where
  cache : c.configCacheHdr.Ok c.heap
  frames : c.configFramesHdr.Ok c.heap
  cacheOff : c.configCacheHdr.off = 0
  framesOff : c.configFramesHdr.off = 0

theorem new_ok : Cache.new.Ok := ⟨Slice.nil_ok _, Slice.nil_ok _, rfl, rfl⟩

theorem append_off {h : Heap Bytes} {s : Slice} (hs : s.off = 0) (x : Bytes) : (append [] grow h s x).2.off = 0 := by
  unfold append
  split_ifs
  · exact hs
  · rfl

variable {c : Cache}

theorem connect_ok (h : c.Ok) : c.connect.Ok := { h with frames := Slice.nil_ok _, framesOff := rfl }

theorem collect_ok (h : c.Ok) (payload : Bytes) : (c.collect grow payload).Ok where
  cache := h.cache.append [] grow c.configFramesHdr payload
  frames := append_ok [] grow h.frames payload
  cacheOff := h.cacheOff
  framesOff := append_off grow h.framesOff payload

theorem appendCached_ok (h : c.Ok) (frame : Bytes) : (c.appendCached grow frame).Ok where
  cache := append_ok [] grow h.cache frame
  frames := h.frames.append [] grow c.configCacheHdr frame
  cacheOff := append_off grow h.cacheOff frame
  framesOff := h.framesOff

theorem set_ok (h : c.Ok) (s : Slice) (i : ℕ) (x : Bytes) : ({ c with heap := set c.heap s i x } : Cache).Ok :=
  { h with cache := h.cache.set s i x, frames := h.frames.set s i x }

/-- inserting before the last frame is appending that frame again and overwriting its old place -/
theorem insertBeforeLast_eq (h : c.Ok) (hlen : c.configCacheHdr.len ≠ 0) (frame : Bytes) :
    c.insertBeforeLast grow frame =
      let d := c.appendCached grow (c.configCache.getD (c.configCacheHdr.len - 1) [])
      { d with heap := set d.heap d.configCacheHdr (c.configCacheHdr.len - 1) frame } := by
  have hlast : c.configCacheHdr.len - 1 + 1 = c.configCacheHdr.len := Nat.succ_pred_eq_of_ne_zero hlen
  have hold : (c.configCache ++ [([] : Bytes)]).getD (c.configCacheHdr.len - 1) [] =
      c.configCache.getD (c.configCacheHdr.len - 1) [] := by
    have hlt : c.configCacheHdr.len - 1 < c.configCache.length := by
      rw [Cache.configCache, length_read h.cache]; omega
    rw [List.getD_append _ _ _ _ hlt]
  simp only [Cache.insertBeforeLast, Cache.appendCached]
  rw [read_append_self [] grow h.cache, ← Cache.configCache, hold, hlast, set_append_last [] grow h.cache,
    append_header [] grow c.heap c.configCacheHdr [] (c.configCache.getD (c.configCacheHdr.len - 1) [])]

theorem insertBeforeLast_ok (h : c.Ok) (hlen : c.configCacheHdr.len ≠ 0) (frame : Bytes) :
    (c.insertBeforeLast grow frame).Ok := by
  rw [insertBeforeLast_eq grow h hlen]
  exact set_ok (appendCached_ok grow h _) _ _ _

/-- everything an upsert can do: nothing, overwrite one cached frame, or add one frame to a non-empty cache -/
theorem upsertCachedNodeInfo_cases (now : UInt32) (ni : NodeInfoData) (c : Cache) :
    c.upsertCachedNodeInfo pb grow now ni = c ∨
    (∃ i raw f, raw ∈ c.configCache ∧
      (buildNodeInfoFrame pb now ni = some f ∨ mergeNodeInfoUser pb now raw ni = some f) ∧
      c.upsertCachedNodeInfo pb grow now ni = { c with heap := set c.heap c.configCacheHdr i f }) ∨
    (∃ f, buildNodeInfoFrame pb now ni = some f ∧ c.configCacheHdr.len ≠ 0 ∧
      (c.upsertCachedNodeInfo pb grow now ni = c.insertBeforeLast grow f ∨
        c.upsertCachedNodeInfo pb grow now ni = c.appendCached grow f)) := by
  unfold Cache.upsertCachedNodeInfo
  by_cases h0 : ni.nodeNum = 0
  · simp [h0]
  rw [if_neg h0]
  cases hb : buildNodeInfoFrame pb now ni with
  | none => exact Or.inl rfl
  | some frame =>
    by_cases hlen : c.configCacheHdr.len = 0
    · exact Or.inl (if_pos hlen)
    simp only [if_neg hlen]
    cases hi : c.configCache.findIdx? (isNodeInfoFor pb ni.nodeNum) with
    | some i =>
      obtain ⟨hlt, -, -⟩ := List.findIdx?_eq_some_iff_getElem.1 hi
      have hraw : c.configCache.getD i [] ∈ c.configCache := by
        rw [List.getD_eq_getElem _ _ hlt]; exact List.getElem_mem hlt
      refine Or.inr (Or.inl ⟨i, _, _, hraw, ?_, rfl⟩)
      cases mergeNodeInfoUser pb now (c.configCache.getD i []) ni with
      | none => exact Or.inl rfl
      | some m => exact Or.inr rfl
    | none =>
      refine Or.inr (Or.inr ⟨frame, rfl, hlen, ?_⟩)
      simp only
      split_ifs
      · exact Or.inl rfl
      · exact Or.inr rfl

theorem upsertCachedNodeInfo_ok (h : c.Ok) (now : UInt32) (ni : NodeInfoData) :
    (c.upsertCachedNodeInfo pb grow now ni).Ok := by
  rcases upsertCachedNodeInfo_cases pb grow now ni c with e | ⟨i, raw, f, -, -, e⟩ | ⟨f, -, hlen, e | e⟩ <;> rw [e]
  · exact h
  · exact set_ok h _ _ _
  · exact insertBeforeLast_ok grow h hlen _
  · exact appendCached_ok grow h _

theorem onNodeInfo_ok (h : c.Ok) (now : UInt32) (payload : Bytes) : (c.onNodeInfo pb grow now payload).Ok := by
  unfold Cache.onNodeInfo
  split
  · exact h
  · exact upsertCachedNodeInfo_ok pb grow h now _

theorem openCollection_ok (h : c.Ok) (payload : Bytes) : (c.openCollection pb grow payload).Ok := by
  have h0 : ({ c with collectingConfig := true, configFramesHdr := .nil } : Cache).Ok :=
    ⟨h.cache, Slice.nil_ok _, h.cacheOff, rfl⟩
  have hc := collect_ok grow h0 payload
  unfold Cache.openCollection
  simp only
  split_ifs
  · exact { hc with }
  · exact hc

theorem completeCollection_ok (h : c.Ok) (payload : Bytes) : (c.completeCollection grow payload).Ok := by
  have hc := collect_ok grow h payload
  unfold Cache.completeCollection
  simp only
  split_ifs
  · exact { hc with cache := hc.frames, cacheOff := hc.framesOff }
  · exact hc

theorem configSwitch_ok (h : c.Ok) (payload : Bytes) : (c.configSwitch pb grow payload).Ok := by
  unfold Cache.configSwitch
  split
  · exact openCollection_ok pb grow h payload
  · exact completeCollection_ok grow h payload
  · split_ifs
    · exact collect_ok grow h payload
    · exact h

theorem step_ok (h : c.Ok) (a : Act) : (step pb grow c a).Ok := by
  cases a with
  | frame now payload => exact configSwitch_ok pb grow (onNodeInfo_ok pb grow h now payload) payload
  | reconnect => exact connect_ok h

/-! ## A stray config_complete_id -/

theorem onNodeInfo_of_type {payload : Bytes} (ht : (decodeFromRadio pb payload).type ≠ .packet) (now : UInt32) :
    c.onNodeInfo pb grow now payload = c := by
  unfold Cache.onNodeInfo
  cases hni : extractNodeInfo pb payload with
  | none => rfl
  | some ni => exact absurd (extractNodeInfo_packet pb hni) ht

/-- the append of a stray frame does not overwrite a different frame of the cache: the two headers are over different
arrays, or there is no spare capacity, or the cell it writes lies past the cache's end or already holds these bytes -/
def Isolated (c : Cache) (payload : Bytes) : Prop :=
  c.configFramesHdr.arr ≠ c.configCacheHdr.arr ∨ c.configFramesHdr.len = c.configFramesHdr.cap ∨
    c.configCacheHdr.len ≤ c.configFramesHdr.len ∨ c.configCache[c.configFramesHdr.len]? = some payload

theorem list_set_eq_self_iff {α : Type} (l : List α) (n : ℕ) (x : α) :
    l.set n x = l ↔ l.length ≤ n ∨ l[n]? = some x := by
  constructor
  · intro h
    by_cases hn : n < l.length
    · right
      rw [← h, List.getElem?_set_self hn]
    · exact Or.inl (not_lt.1 hn)
  · rintro (h | h)
    · exact List.set_eq_of_length_le h
    · obtain ⟨hn, rfl⟩ := List.getElem?_eq_some_iff.1 h
      exact List.set_getElem_self hn

/-- what collecting a frame shows through the cache's header -/
theorem configCache_collect_iff (h : c.Ok) (payload : Bytes) :
    (c.collect grow payload).configCache = c.configCache ↔ Isolated c payload := by
  have hle := h.frames.len_le
  have hlen : c.configCache.length = c.configCacheHdr.len := length_read h.cache
  simp only [Cache.collect, Cache.configCache, read_append [] grow c.heap c.configFramesHdr payload h.cache]
  rw [h.cacheOff, h.framesOff, Nat.zero_add, Nat.sub_zero]
  unfold Isolated
  split_ifs with hc
  · rw [list_set_eq_self_iff, ← Cache.configCache, hlen]
    have h1 : c.configFramesHdr.arr = c.configCacheHdr.arr := hc.2.1.symm
    have h2 : c.configFramesHdr.len ≠ c.configFramesHdr.cap := hc.1.ne
    simp [h1, h2]
  · refine iff_of_true rfl ?_
    by_contra hno
    push Not at hno
    exact hc ⟨lt_of_le_of_ne hle hno.2.1, hno.1.symm, Nat.zero_le _⟩

theorem run_ok (as : List Act) : (run (step pb grow) .new as).Ok :=
  run_inv_all (I := Cache.Ok) (fun _ a h => step_ok pb grow h a) as new_ok

/-- **A config_complete_id outside a collection.** After any run, over any number of connections, a config_complete_id
read while no collection is open leaves the list `ConfigCache` returns unchanged exactly when the append of that frame
does not land on a different frame of the cache. -/
theorem stray_config_complete_iff (as : List Act) (now : UInt32) (payload : Bytes)
    (htype : (decodeFromRadio pb payload).type = .configCompleteId)
    (hstray : (run (step pb grow) .new as).collectingConfig = false) :
    (run (step pb grow) .new (as ++ [.frame now payload])).configCache = (run (step pb grow) .new as).configCache ↔
      Isolated (run (step pb grow) .new as) payload := by
  rw [run_snoc]
  have hok := run_ok pb grow as
  generalize run (step pb grow) .new as = c at hok hstray ⊢
  have hnone : c.onNodeInfo pb grow now payload = c := onNodeInfo_of_type pb grow (by rw [htype]; decide) now
  have hstep : step pb grow c (.frame now payload) = c.collect grow payload := by
    simp only [step, Cache.onFrame, hnone, Cache.configSwitch, htype, Cache.completeCollection]
    rw [if_neg (by simpa [Cache.collect] using hstray)]
  rw [hstep]
  exact configCache_collect_iff grow hok payload

/-! ### A run that loses a node

The wire bytes of a handshake of five frames and of two NODEINFO_APP packets, under a runtime that doubles capacities. -/

def myInfoFrame : Bytes := [0x1A, 2, 8, 1]
def configFrame : Bytes := [0x2A, 0]
def channelFrame : Bytes := [0x52, 0]
def metadataFrame : Bytes := [0x6A, 0]
def queueStatusFrame : Bytes := [0x5A, 0]

/-- a NODEINFO_APP packet with an empty User -/
def nodeInfoPacket (num : UInt8) : Bytes := [0x12, 9, 0x0D, num, 0, 0, 0, 0x22, 2, 8, 4]

/-- the NodeInfo frame built from it at time 1 -/
def nodeInfoFrame (num : UInt8) : Bytes := [0x22, 9, 8, num, 0x12, 0, 0x2D, 1, 0, 0, 0]

def nodeInfoPacketMsg (num : UInt32) : FromRadio :=
  { variant := .packet { from_ := num, variant := .decoded { portnum := PortNum.nodeinfoApp } } }

def nodeInfoFrameMsg (num : UInt32) : FromRadio :=
  { variant := .nodeInfo { num := num, user := some {}, lastHeard := 1 } }

def wireCodec : Codec :=
  tableCodec
    [(myInfoFrame, { variant := .myInfo 1 [] }), (configFrame, { variant := .config [] }),
      (channelFrame, { variant := .channel [] }), (metadataFrame, { variant := .metadata [] }),
      (queueStatusFrame, { variant := .queueStatus [] }),
      (nodeInfoPacket 9, nodeInfoPacketMsg 9), (nodeInfoPacket 10, nodeInfoPacketMsg 10),
      (nodeInfoFrame 9, nodeInfoFrameMsg 9), (nodeInfoFrame 10, nodeInfoFrameMsg 10)] [] []

def doubling (cap : ℕ) : ℕ := if cap = 0 then 1 else 2 * cap

def handshake : List Act :=
  [.frame 1 myInfoFrame, .frame 1 configFrame, .frame 1 channelFrame, .frame 1 metadataFrame,
    .frame 1 (configCompleteBytes 5)]

/-- two nodes join the mesh after the handshake -/
def joinTrace : List Act := handshake ++ [.frame 1 (nodeInfoPacket 9), .frame 1 (nodeInfoPacket 10)]

/-- right after the handshake the stray frame's cell lies past the cache's end -/
theorem stray_config_complete_after_handshake :
    (run (step wireCodec doubling) .new (handshake ++ [.frame 1 (configCompleteBytes 7)])).configCache =
      (run (step wireCodec doubling) .new handshake).configCache :=
  (stray_config_complete_iff wireCodec doubling handshake 1 (configCompleteBytes 7) (by decide +kernel)
    (by decide +kernel)).2 (Or.inr (Or.inr (Or.inl (by decide +kernel))))

/-- after the two upserts a second config_complete_id overwrites the frame of node 10 -/
theorem stray_config_complete_loses_node :
    (decodeFromRadio wireCodec (configCompleteBytes 7)).type = .configCompleteId ∧
    (run (step wireCodec doubling) .new joinTrace).collectingConfig = false ∧
    (run (step wireCodec doubling) .new joinTrace).configCache =
      [myInfoFrame, configFrame, channelFrame, metadataFrame, nodeInfoFrame 9, nodeInfoFrame 10,
        configCompleteBytes 5] ∧
    (run (step wireCodec doubling) .new (joinTrace ++ [.frame 1 (configCompleteBytes 7)])).configCache =
      [myInfoFrame, configFrame, channelFrame, metadataFrame, nodeInfoFrame 9, configCompleteBytes 7,
        configCompleteBytes 5] ∧
    (run (step wireCodec doubling) .new (joinTrace ++ [.frame 1 (configCompleteBytes 7)])).configCache ≠
      (run (step wireCodec doubling) .new joinTrace).configCache := by
  decide +kernel

/-! ## What the cache is made of -/

/-- a property that built frames have and merging keeps -/
structure UpsertClosed (P : Bytes → Prop) : Prop where
  build : ∀ now ni f, buildNodeInfoFrame pb now ni = some f → P f
  merge : ∀ now raw ni f, P raw → mergeNodeInfoUser pb now raw ni = some f → P f

/-- every cached and every collected frame has the property -/
structure Cache.All (P : Bytes → Prop) (c : Cache) : Prop where
  cache : ∀ f ∈ c.configCache, P f
  frames : ∀ f ∈ c.configFrames, P f

variable {P : Bytes → Prop}

theorem connect_all (h : c.All P) : c.connect.All P := by
  refine ⟨h.cache, ?_⟩
  simp [Cache.configFrames, Cache.connect, read_nil]

theorem collect_all (hok : c.Ok) (h : c.All P) {payload : Bytes} (hp : P payload) : (c.collect grow payload).All P := by
  constructor
  · intro f hf
    rcases mem_read_append hok.cache hf with hf | rfl
    · exact h.cache f hf
    · exact hp
  · intro f hf
    rw [Cache.configFrames, Cache.collect, read_append_self [] grow hok.frames, List.mem_append,
      List.mem_singleton] at hf
    rcases hf with hf | rfl
    · exact h.frames f hf
    · exact hp

theorem appendCached_all (hok : c.Ok) (h : c.All P) {frame : Bytes} (hp : P frame) :
    (c.appendCached grow frame).All P := by
  constructor
  · intro f hf
    rw [Cache.configCache, Cache.appendCached, read_append_self [] grow hok.cache, List.mem_append,
      List.mem_singleton] at hf
    rcases hf with hf | rfl
    · exact h.cache f hf
    · exact hp
  · intro f hf
    rcases mem_read_append hok.frames hf with hf | rfl
    · exact h.frames f hf
    · exact hp

theorem set_all (h : c.All P) (s : Slice) (i : ℕ) {frame : Bytes} (hp : P frame) :
    ({ c with heap := set c.heap s i frame } : Cache).All P := by
  constructor
  · intro f hf
    rcases mem_read_set hf with hf | rfl
    · exact h.cache f hf
    · exact hp
  · intro f hf
    rcases mem_read_set hf with hf | rfl
    · exact h.frames f hf
    · exact hp

theorem insertBeforeLast_all (hok : c.Ok) (h : c.All P) (hlen : c.configCacheHdr.len ≠ 0) {frame : Bytes}
    (hp : P frame) : (c.insertBeforeLast grow frame).All P := by
  -- the placeholder is never seen: it holds the old last frame before anyone can read it
  have hlt : c.configCacheHdr.len - 1 < c.configCache.length := by
    rw [Cache.configCache, length_read hok.cache]; omega
  have hlast : P (c.configCache.getD (c.configCacheHdr.len - 1) []) := by
    rw [List.getD_eq_getElem _ _ hlt]
    exact h.cache _ (List.getElem_mem hlt)
  rw [insertBeforeLast_eq grow hok hlen]
  exact set_all (appendCached_all grow hok h hlast) _ _ hp

variable {pb}

theorem upsertCachedNodeInfo_all (hP : UpsertClosed pb P) (hok : c.Ok) (h : c.All P) (now : UInt32)
    (ni : NodeInfoData) : (c.upsertCachedNodeInfo pb grow now ni).All P := by
  rcases upsertCachedNodeInfo_cases pb grow now ni c with e | ⟨i, raw, f, hraw, hf, e⟩ | ⟨f, hf, hlen, e | e⟩ <;> rw [e]
  · exact h
  · apply set_all h
    rcases hf with hf | hf
    · exact hP.build now ni f hf
    · exact hP.merge now raw ni f (h.cache raw hraw) hf
  · exact insertBeforeLast_all grow hok h hlen (hP.build now ni f hf)
  · exact appendCached_all grow hok h (hP.build now ni f hf)

theorem onNodeInfo_all (hP : UpsertClosed pb P) (hok : c.Ok) (h : c.All P) (now : UInt32) (payload : Bytes) :
    (c.onNodeInfo pb grow now payload).All P := by
  unfold Cache.onNodeInfo
  split
  · exact h
  · exact upsertCachedNodeInfo_all grow hP hok h now _

variable (pb)

/-- upserts leave the collecting flag alone -/
theorem onNodeInfo_collectingConfig (now : UInt32) (payload : Bytes) :
    (c.onNodeInfo pb grow now payload).collectingConfig = c.collectingConfig := by
  unfold Cache.onNodeInfo
  split
  · rfl
  · rename_i ni _
    rcases upsertCachedNodeInfo_cases pb grow now ni c with e | ⟨i, raw, f, -, -, e⟩ | ⟨f, -, -, e | e⟩ <;> rw [e] <;> rfl

/-- the frame is put into the collection when read -/
def Collects (c : Cache) (payload : Bytes) : Prop :=
  (decodeFromRadio pb payload).type = .myInfo ∨ (decodeFromRadio pb payload).type = .configCompleteId ∨
    c.collectingConfig = true

theorem openCollection_all (hok : c.Ok) (h : c.All P) {payload : Bytes} (hp : P payload) :
    (c.openCollection pb grow payload).All P := by
  have hok0 : ({ c with collectingConfig := true, configFramesHdr := .nil } : Cache).Ok :=
    ⟨hok.cache, Slice.nil_ok _, hok.cacheOff, rfl⟩
  have h0 : ({ c with collectingConfig := true, configFramesHdr := .nil } : Cache).All P :=
    ⟨h.cache, by simp [Cache.configFrames, read_nil]⟩
  have hc := collect_all grow hok0 h0 hp
  unfold Cache.openCollection
  simp only
  split_ifs
  · exact ⟨hc.cache, hc.frames⟩
  · exact hc

theorem completeCollection_all (hok : c.Ok) (h : c.All P) {payload : Bytes} (hp : P payload) :
    (c.completeCollection grow payload).All P := by
  have hc := collect_all grow hok h hp
  unfold Cache.completeCollection
  simp only
  split_ifs
  · exact ⟨hc.frames, hc.frames⟩
  · exact hc

theorem configSwitch_all (hok : c.Ok) (h : c.All P) {payload : Bytes} (hp : Collects pb c payload → P payload) :
    (c.configSwitch pb grow payload).All P := by
  unfold Cache.configSwitch
  split
  · rename_i ht
    exact openCollection_all pb grow hok h (hp (Or.inl ht))
  · rename_i ht
    exact completeCollection_all grow hok h (hp (Or.inr (Or.inl ht)))
  · split_ifs with hcol
    · exact collect_all grow hok h (hp (Or.inr (Or.inr hcol)))
    · exact h

variable {pb}

/-- one step keeps a property of every frame that upserts keep and collected frames have -/
theorem step_all (hP : UpsertClosed pb P) (hok : c.Ok) (h : c.All P) (a : Act)
    (hp : ∀ now payload, a = .frame now payload → Collects pb c payload → P payload) : (step pb grow c a).All P := by
  cases a with
  | frame now payload =>
    apply configSwitch_all pb grow (onNodeInfo_ok pb grow hok now payload) (onNodeInfo_all grow hP hok h now payload)
    intro hcol
    apply hp now payload rfl
    rwa [Collects, onNodeInfo_collectingConfig] at hcol
  | reconnect => exact connect_all h

/-! ## Config and runtime traffic -/

variable (pb)

/-- the hub would not broadcast the frame, or cannot parse it -/
def ConfigOrOpaque (frame : Bytes) : Prop := (pb.unmarshalFromRadio frame).isSome = true → isConfigFrame pb frame = true

instance (frame : Bytes) : Decidable (ConfigOrOpaque pb frame) :=
  inferInstanceAs (Decidable (_ = true → _ = true))

theorem configOrOpaque_of_variant {frame : Bytes} {m : FromRadio} (hm : pb.unmarshalFromRadio frame = some m)
    (hv : isConfigVariant m.variant = true) : ConfigOrOpaque pb frame := by
  intro _
  simp only [isConfigFrame, hm, hv]

/-- the frames that open and close a collection are config frames -/
theorem configOrOpaque_of_type {frame : Bytes} (ht : (decodeFromRadio pb frame).type = .myInfo ∨
    (decodeFromRadio pb frame).type = .configCompleteId) : ConfigOrOpaque pb frame := by
  rw [decodeFromRadio_type] at ht
  intro hsome
  obtain ⟨m, hm⟩ := Option.isSome_iff_exists.1 hsome
  simp only [hm] at ht
  apply configOrOpaque_of_variant pb hm _ hsome
  cases hv : m.variant <;> simp_all [variantType, isConfigVariant]

theorem upsertClosed_configOrOpaque (hrt : pb.RoundTrip) : UpsertClosed pb (ConfigOrOpaque pb) where
  build := by
    intro now ni f hf
    exact configOrOpaque_of_variant pb (hrt _ _ hf) rfl
  merge := by
    intro now raw ni f _ hf
    unfold mergeNodeInfoUser at hf
    split at hf
    · exact configOrOpaque_of_variant pb (hrt _ _ hf) rfl
    · cases hf

/-- no parseable runtime frame is read while a collection is open -/
def NoRuntimeCollected (c : Cache) : Act → Prop
  | .frame _ payload => c.collectingConfig = true → ConfigOrOpaque pb payload
  | .reconnect => True

instance (c : Cache) : ∀ a, Decidable (NoRuntimeCollected pb c a)
  | .frame _ payload => inferInstanceAs (Decidable (_ = true → ConfigOrOpaque pb payload))
  | .reconnect => inferInstanceAs (Decidable True)

theorem step_configOnly (hrt : pb.RoundTrip) {a : Act} (h : c.Ok ∧ c.All (ConfigOrOpaque pb))
    (ha : NoRuntimeCollected pb c a) : (step pb grow c a).Ok ∧ (step pb grow c a).All (ConfigOrOpaque pb) := by
  refine ⟨step_ok pb grow h.1 a, step_all grow (upsertClosed_configOrOpaque pb hrt) h.1 h.2 a ?_⟩
  rintro now payload rfl (ht | ht | hcol)
  · exact configOrOpaque_of_type pb (Or.inl ht)
  · exact configOrOpaque_of_type pb (Or.inr ht)
  · exact ha hcol

theorem configSwitch_runtime {payload : Bytes} (h1 : (decodeFromRadio pb payload).type ≠ .myInfo)
    (h2 : (decodeFromRadio pb payload).type ≠ .configCompleteId) :
    c.configSwitch pb grow payload = if c.collectingConfig then c.collect grow payload else c := by
  unfold Cache.configSwitch
  split
  · rename_i ht; exact absurd ht h1
  · rename_i ht; exact absurd ht h2
  · rfl

/-- a runtime frame read inside a collection is cached by the config_complete_id that follows -/
theorem runtime_frame_published (hok : c.Ok) (hcol : c.collectingConfig = true) {p q : Bytes} (hp : ¬ ConfigOrOpaque pb p)
    (hq : (decodeFromRadio pb q).type = .configCompleteId) (now now' : UInt32) :
    p ∈ (step pb grow (step pb grow c (.frame now p)) (.frame now' q)).configCache := by
  have h1 := fun ht => hp (configOrOpaque_of_type pb (Or.inl ht))
  have h2 := fun ht => hp (configOrOpaque_of_type pb (Or.inr ht))
  have hok1 := onNodeInfo_ok pb grow hok now p
  have hcol1 : (c.onNodeInfo pb grow now p).collectingConfig = true := by rw [onNodeInfo_collectingConfig, hcol]
  have hstep : step pb grow c (.frame now p) = (c.onNodeInfo pb grow now p).collect grow p := by
    rw [step, Cache.onFrame, configSwitch_runtime pb grow h1 h2, if_pos hcol1]
  have hnone : ∀ d : Cache, d.onNodeInfo pb grow now' q = d :=
    fun d => onNodeInfo_of_type pb grow (by rw [hq]; decide) now'
  rw [hstep]
  generalize c.onNodeInfo pb grow now p = d at hok1 hcol1 ⊢
  have hcol2 : ((d.collect grow p).collect grow q).collectingConfig = true := hcol1
  simp only [step, Cache.onFrame, hnone, Cache.configSwitch, hq, Cache.completeCollection]
  rw [if_pos hcol2]
  change p ∈ ((d.collect grow p).collect grow q).configFrames
  rw [Cache.configFrames, Cache.collect, read_append_self [] grow (collect_ok grow hok1 p).frames]
  apply List.mem_append_left
  change p ∈ GoSlice.read (append [] grow d.heap d.configFramesHdr p).1 (append [] grow d.heap d.configFramesHdr p).2
  rw [read_append_self [] grow hok1.frames]
  exact List.mem_append_right _ (List.mem_singleton_self p)

/-- **The cache holds config frames.** In every run, over any number of connections, in which no parseable runtime frame
is read while a collection is open, every parseable frame of `ConfigCache` is one the hub classifies as configuration.
One such frame is enough to break this: read inside a collection, it is in the cache after the next
config_complete_id. -/
theorem configCache_config_only (hrt : pb.RoundTrip) (as : List Act)
    (h : Along (step pb grow) (NoRuntimeCollected pb) .new as) :
    (∀ f ∈ (run (step pb grow) .new as).configCache, ConfigOrOpaque pb f) ∧
    ((run (step pb grow) .new as).collectingConfig = true →
      ∀ now p now' q, ¬ ConfigOrOpaque pb p → (decodeFromRadio pb q).type = .configCompleteId →
        p ∈ (run (step pb grow) .new (as ++ [.frame now p, .frame now' q])).configCache) := by
  have h0 : Cache.new.Ok ∧ Cache.new.All (ConfigOrOpaque pb) :=
    ⟨new_ok, by simp [Cache.configCache, Cache.new, read_nil], by simp [Cache.configFrames, Cache.new, read_nil]⟩
  obtain ⟨hok, hall⟩ := run_inv (I := fun c => c.Ok ∧ c.All (ConfigOrOpaque pb))
    (fun _ _ hc ha => step_configOnly pb grow hrt hc ha) h0 h
  refine ⟨hall.cache, fun hcol now p now' q hp hq => ?_⟩
  rw [run_append]
  exact runtime_frame_published pb grow hok hcol hp hq now now'

theorem wireCodec_roundTrip : wireCodec.RoundTrip :=
  tableCodec_roundTrip _ _ _ (by decide +kernel)

/-- a handshake and two joining nodes -/
theorem configCache_config_only_joinTrace :
    (run (step wireCodec doubling) .new joinTrace).configCache.length = 7 ∧
      ∀ f ∈ (run (step wireCodec doubling) .new joinTrace).configCache, ConfigOrOpaque wireCodec f :=
  ⟨by decide +kernel, (configCache_config_only wireCodec doubling wireCodec_roundTrip joinTrace (by decide +kernel)).1⟩

/-- a queue status that arrives inside the handshake is cached -/
theorem configCache_holds_queueStatus :
    queueStatusFrame ∈ (run (step wireCodec doubling) .new
      [.frame 1 myInfoFrame, .frame 1 queueStatusFrame, .frame 1 (configCompleteBytes 5)]).configCache ∧
    ¬ ConfigOrOpaque wireCodec queueStatusFrame := by
  decide +kernel

end MeshProxy.ConfigCache
