/-
What a collection publishes (`internal/node/connection.go`: the config caching switch of readLoop, UpsertCachedNodeInfo),
over the machine of ConfigCache.

A my_info starts a new slice, so from then on `configFrames` lies in an array of its own: appending to it does not show
in `ConfigCache`, and updating the cache for a NODEINFO_APP packet does not show in it (`Collection`). What the packet
does to the list `ConfigCache` returns is `upsertFrames`.

- `configCache_upsert`: on lists, an update is `upsertFrames`;
- `collection_run`: after a my_info and any frames that are neither my_info nor config_complete_id, the collection holds
  exactly these frames, and the cache has only seen the updates;
- `cache_publication`: every published value is one whole collection, and an interrupted one leaves nothing behind but
  the updates;
- `configCache_complete`: a cache that has been published holds a config_complete_id from then on.
Premise: marshalled messages unmarshal to themselves (`RoundTrip`), for the shape of an update.
-/
import Mathlib.Logic.Relation
import MeshProxy.Node.ConfigCache

namespace MeshProxy.ConfigCache

open MeshProxy.Proto MeshProxy.Decode MeshProxy.GoSlice MeshProxy.Trace
open MeshProxy.Frame (Bytes)
open MeshProxy.Store (TypeName)

variable (pb : Codec) (grow : ℕ → ℕ)

/-! ## An update, on lists -/

/-- `UpsertCachedNodeInfo`, on the list of cached frames -/
def upsertFrames (now : UInt32) (ni : NodeInfoData) (cache : List Bytes) : List Bytes :=
  if ni.nodeNum = 0 then cache
  else
    match buildNodeInfoFrame pb now ni with
    | none => cache
    | some frame =>
      if cache = [] then cache
      else
        match cache.findIdx? (isNodeInfoFor pb ni.nodeNum) with
        | some i => cache.set i ((mergeNodeInfoUser pb now (cache.getD i []) ni).getD frame)
        | none =>
          if isConfigCompleteFrame pb (cache.getD (cache.length - 1) []) then
            cache.dropLast ++ [frame, cache.getD (cache.length - 1) []]
          else cache ++ [frame]

/-- what a frame that is read does to the list of cached frames, as long as no collection is published -/
def updateCached (cache : List Bytes) (f : UInt32 × Bytes) : List Bytes :=
  match extractNodeInfo pb f.2 with
  | none => cache
  | some ni => upsertFrames pb f.1 ni cache

variable {c : Cache}

theorem configCache_eq_nil_iff (h : c.Ok) : c.configCache = [] ↔ c.configCacheHdr.len = 0 := by
  rw [← length_read h.cache, ← Cache.configCache]
  exact List.length_eq_zero_iff.symm

theorem configCache_appendCached (h : c.Ok) (frame : Bytes) :
    (c.appendCached grow frame).configCache = c.configCache ++ [frame] := read_append_self [] grow h.cache frame

theorem set_last_append {l : List Bytes} (hl : l ≠ []) (x frame : Bytes) :
    (l ++ [x]).set (l.length - 1) frame = l.dropLast ++ [frame, x] := by
  obtain ⟨y, hy⟩ : ∃ y, l = l.dropLast ++ [y] := ⟨l.getLast hl, (List.dropLast_append_getLast hl).symm⟩
  rw [hy]
  simp

theorem configCache_insertBeforeLast (h : c.Ok) (hlen : c.configCacheHdr.len ≠ 0) (frame : Bytes) :
    (c.insertBeforeLast grow frame).configCache =
      c.configCache.dropLast ++ [frame, c.configCache.getD (c.configCache.length - 1) []] := by
  have hne : c.configCache ≠ [] := fun h0 => hlen ((configCache_eq_nil_iff h).1 h0)
  have hl : c.configCache.length = c.configCacheHdr.len := length_read h.cache
  rw [insertBeforeLast_eq grow h hlen]
  have hok := appendCached_ok grow h (c.configCache.getD (c.configCacheHdr.len - 1) [])
  have hread := configCache_appendCached grow h (c.configCache.getD (c.configCacheHdr.len - 1) [])
  generalize c.appendCached grow (c.configCache.getD (c.configCacheHdr.len - 1) []) = d at hok hread ⊢
  change read (set d.heap d.configCacheHdr (c.configCacheHdr.len - 1) frame) d.configCacheHdr = _
  rw [read_set, if_pos ⟨rfl, Nat.le_add_right _ _⟩, Nat.add_sub_cancel_left, ← Cache.configCache, hread, ← hl,
    set_last_append hne]

/-- **On lists an update is `upsertFrames`.** -/
theorem configCache_upsert (h : c.Ok) (now : UInt32) (ni : NodeInfoData) :
    (c.upsertCachedNodeInfo pb grow now ni).configCache = upsertFrames pb now ni c.configCache := by
  have hl : c.configCache.length = c.configCacheHdr.len := length_read h.cache
  unfold Cache.upsertCachedNodeInfo upsertFrames
  by_cases h0 : ni.nodeNum = 0
  · rw [if_pos h0, if_pos h0]
  rw [if_neg h0, if_neg h0]
  cases hb : buildNodeInfoFrame pb now ni with
  | none => rfl
  | some frame =>
    simp only
    by_cases hlen : c.configCacheHdr.len = 0
    · rw [if_pos hlen, if_pos ((configCache_eq_nil_iff h).2 hlen)]
    rw [if_neg hlen, if_neg (fun hn => hlen ((configCache_eq_nil_iff h).1 hn)), hl]
    cases c.configCache.findIdx? (isNodeInfoFor pb ni.nodeNum) with
    | some i =>
      simp only [Cache.configCache]
      rw [read_set, if_pos ⟨rfl, Nat.le_add_right _ _⟩, Nat.add_sub_cancel_left]
    | none =>
      simp only
      split_ifs
      · rw [configCache_insertBeforeLast grow h hlen, hl]
      · exact configCache_appendCached grow h frame

theorem configCache_onNodeInfo (h : c.Ok) (now : UInt32) (payload : Bytes) :
    (c.onNodeInfo pb grow now payload).configCache = updateCached pb c.configCache (now, payload) := by
  unfold Cache.onNodeInfo updateCached
  cases extractNodeInfo pb payload with
  | none => rfl
  | some ni => exact configCache_upsert pb grow h now ni

/-- a published cache split at its first NodeInfo frame of a node, or else at its last frame -/
theorem split_nodeInfoFor (num : UInt32) {cache : List Bytes} (hne : cache ≠ []) :
    (∃ before raw after, cache = before ++ raw :: after ∧ (∀ f ∈ before, isNodeInfoFor pb num f = false) ∧
      isNodeInfoFor pb num raw = true) ∨
    ∃ before last, cache = before ++ [last] ∧ ∀ f ∈ before ++ [last], isNodeInfoFor pb num f = false := by
  by_cases hany : ∃ raw ∈ cache, isNodeInfoFor pb num raw = true
  · obtain ⟨raw, hmem, hraw⟩ := hany
    obtain ⟨first, hfind⟩ := Option.isSome_iff_exists.1 (List.find?_isSome.2 ⟨raw, hmem, hraw⟩)
    obtain ⟨hfirst, before, after, rfl, hbefore⟩ := List.find?_eq_some_iff_append.1 hfind
    exact Or.inl ⟨before, first, after, rfl, by simpa using hbefore, hfirst⟩
  · obtain ⟨before, last, rfl⟩ : ∃ before last, cache = before ++ [last] :=
      ⟨cache.dropLast, cache.getLast hne, (List.dropLast_append_getLast hne).symm⟩
    refine Or.inr ⟨before, last, rfl, fun f hf => ?_⟩
    by_contra hf'
    exact hany ⟨f, hf, by simpa using hf'⟩

section Cases

variable {pb} {now : UInt32} {ni : NodeInfoData} {frame : Bytes} {cache : List Bytes}

/-- an update does nothing before the first publication, or when its frame cannot be marshalled -/
theorem upsertFrames_same (h : cache = [] ∨ buildNodeInfoFrame pb now ni = none) :
    upsertFrames pb now ni cache = cache := by
  unfold upsertFrames
  by_cases h0 : ni.nodeNum = 0
  · rw [if_pos h0]
  rw [if_neg h0]
  rcases h with rfl | hb
  · cases buildNodeInfoFrame pb now ni <;> rfl
  · rw [hb]

/-- an upsert of a node that has a NodeInfo frame, on lists -/
theorem upsertFrames_found (h0 : ni.nodeNum ≠ 0) (hb : buildNodeInfoFrame pb now ni = some frame)
    {before after : List Bytes} {raw : Bytes} (hfirst : ∀ f ∈ before, isNodeInfoFor pb ni.nodeNum f = false)
    (hraw : isNodeInfoFor pb ni.nodeNum raw = true) :
    upsertFrames pb now ni (before ++ raw :: after) =
      before ++ (mergeNodeInfoUser pb now raw ni).getD frame :: after := by
  have hidx : (before ++ raw :: after).findIdx? (isNodeInfoFor pb ni.nodeNum) = some before.length := by
    rw [List.findIdx?_append, List.findIdx?_eq_none_iff.2 hfirst]
    simp [List.findIdx?_cons, hraw]
  have hne : before ++ raw :: after ≠ [] := by simp
  unfold upsertFrames
  rw [if_neg h0, hb]
  simp only [if_neg hne, hidx]
  simp [List.getD_eq_getElem?_getD]

/-- an upsert of a node that has none, on lists -/
theorem upsertFrames_absent (h0 : ni.nodeNum ≠ 0) (hb : buildNodeInfoFrame pb now ni = some frame)
    {before : List Bytes} {last : Bytes} (hnone : ∀ f ∈ before ++ [last], isNodeInfoFor pb ni.nodeNum f = false) :
    upsertFrames pb now ni (before ++ [last]) =
      if isConfigCompleteFrame pb last = true then before ++ [frame, last] else before ++ [last] ++ [frame] := by
  have hne : before ++ [last] ≠ [] := by simp
  have hlast : (before ++ [last]).getD ((before ++ [last]).length - 1) [] = last := by simp
  unfold upsertFrames
  rw [if_neg h0, hb]
  simp only [if_neg hne, List.findIdx?_eq_none_iff.2 hnone, hlast, List.dropLast_concat]

end Cases

/-! ## A collection in an array of its own -/

theorem append_arr (h : Heap Bytes) (s : Slice) (x : Bytes) :
    (append [] grow h s x).2.arr = s.arr ∨ (append [] grow h s x).2.arr = h.length := by
  unfold append
  split_ifs
  · exact Or.inl rfl
  · exact Or.inr rfl

/-- a header that shows something is over an existing array -/
theorem arr_lt {h : Heap Bytes} {s : Slice} (hs : s.Ok h) (hlen : s.len ≠ 0) : s.arr < h.length := by
  by_contra hge
  have h1 := hs.cap_le
  have h2 := hs.len_le
  rw [cells_of_ge h (not_lt.1 hge), List.length_nil] at h1
  omega

/-- an open collection with the frames it holds: they lie in an array the cache does not use -/
structure Collection (c : Cache) (frames : List Bytes) : Prop where
  ok : c.Ok
  collecting : c.collectingConfig = true
  frames : c.configFrames = frames
  len : c.configFramesHdr.len ≠ 0
  apart : c.configFramesHdr.arr ≠ c.configCacheHdr.arr ∨ c.configCacheHdr.len = 0

variable {frames : List Bytes}

theorem append_len (h : Heap Bytes) (s : Slice) (x : Bytes) : (append [] grow h s x).2.len = s.len + 1 := by
  unfold append
  split_ifs <;> rfl

theorem Collection.isolated (h : Collection c frames) (payload : Bytes) : Isolated c payload := by
  rcases h.apart with ha | h0
  · exact Or.inl ha
  · exact Or.inr (Or.inr (Or.inl (by rw [h0]; exact Nat.zero_le _)))

/-- collecting one more frame -/
theorem Collection.collect (h : Collection c frames) (payload : Bytes) :
    Collection (c.collect grow payload) (frames ++ [payload]) where
  ok := collect_ok grow h.ok payload
  collecting := h.collecting
  frames := by rw [← h.frames]; exact read_append_self [] grow h.ok.frames payload
  len := by simp [Cache.collect, append_len]
  apart := by
    by_cases h0 : c.configCacheHdr.len = 0
    · exact Or.inr h0
    left
    have harr := arr_lt h.ok.cache h0
    have hne := h.apart.resolve_right h0
    rcases append_arr grow c.heap c.configFramesHdr payload with e | e
    · simpa [Cache.collect, e] using hne
    · simp only [Cache.collect, e]
      omega

theorem Collection.configCache_collect (h : Collection c frames) (payload : Bytes) :
    (c.collect grow payload).configCache = c.configCache :=
  (configCache_collect_iff grow h.ok payload).2 (h.isolated payload)

/-- a my_info opens a collection and leaves the cache alone -/
theorem openCollection_collection (h : c.Ok) (payload : Bytes) :
    Collection (c.openCollection pb grow payload) [payload] ∧
      (c.openCollection pb grow payload).configCache = c.configCache := by
  have hok : ({ c with collectingConfig := true, configFramesHdr := .nil } : Cache).Ok :=
    ⟨h.cache, Slice.nil_ok _, h.cacheOff, rfl⟩
  have hcoll : Collection (Cache.collect grow payload { c with collectingConfig := true, configFramesHdr := .nil })
      [payload] := by
    refine ⟨collect_ok grow hok payload, rfl, ?_, by simp [Cache.collect, append_len], ?_⟩
    · have hread := read_append_self [] grow hok.frames payload
      simpa [Cache.collect, Cache.configFrames, read_nil] using hread
    · by_cases h0 : c.configCacheHdr.len = 0
      · exact Or.inr h0
      · have harr := arr_lt h.cache h0
        left
        simp only [Cache.collect, append, Slice.nil, lt_irrefl, if_false]
        omega
  have hcache : (Cache.collect grow payload { c with collectingConfig := true, configFramesHdr := .nil }).configCache =
      c.configCache := (configCache_collect_iff grow hok payload).2 (Or.inr (Or.inl rfl))
  unfold Cache.openCollection
  simp only
  split_ifs
  · exact ⟨⟨{ hcoll.ok with }, hcoll.collecting, hcoll.frames, hcoll.len, hcoll.apart⟩, hcache⟩
  · exact ⟨hcoll, hcache⟩

/-- growing the cache leaves the collection alone -/
theorem Collection.appendCached (h : Collection c frames) (h0 : c.configCacheHdr.len ≠ 0) (frame : Bytes) :
    Collection (c.appendCached grow frame) frames ∧ (c.appendCached grow frame).configCacheHdr.len ≠ 0 := by
  have hne := h.apart.resolve_right h0
  refine ⟨⟨appendCached_ok grow h.ok frame, h.collecting, ?_, h.len, Or.inl ?_⟩, ?_⟩
  · rw [← h.frames]
    simp only [Cache.configFrames, Cache.appendCached]
    rw [read_append [] grow c.heap c.configCacheHdr frame h.ok.frames, if_neg (fun hc => hne hc.2.1)]
  · have harr := arr_lt h.ok.frames h.len
    rcases append_arr grow c.heap c.configCacheHdr frame with e | e
    · simpa [Cache.appendCached, e] using hne
    · simp only [Cache.appendCached, e]
      omega
  · simp [Cache.appendCached, append_len]

/-- so does overwriting a cached frame -/
theorem Collection.set (h : Collection c frames) (h0 : c.configCacheHdr.len ≠ 0) (i : ℕ) (frame : Bytes) :
    Collection { c with heap := GoSlice.set c.heap c.configCacheHdr i frame } frames := by
  have hne := h.apart.resolve_right h0
  refine ⟨set_ok h.ok _ _ _, h.collecting, ?_, h.len, h.apart⟩
  rw [← h.frames]
  simp only [Cache.configFrames]
  rw [read_set, if_neg (fun hc => hne hc.1)]

theorem Collection.upsert (h : Collection c frames) (now : UInt32) (ni : NodeInfoData) :
    Collection (c.upsertCachedNodeInfo pb grow now ni) frames := by
  rcases upsertCachedNodeInfo_cases pb grow now ni c with e | ⟨i, raw, f, hraw, -, e⟩ | ⟨f, -, hlen, e | e⟩ <;> rw [e]
  · exact h
  · apply h.set
    intro h0
    rw [(configCache_eq_nil_iff h.ok).2 h0] at hraw
    cases hraw
  · rw [insertBeforeLast_eq grow h.ok hlen]
    obtain ⟨hd, hd0⟩ := h.appendCached grow hlen (c.configCache.getD (c.configCacheHdr.len - 1) [])
    exact hd.set hd0 _ _
  · exact (h.appendCached grow hlen f).1

theorem Collection.onNodeInfo (h : Collection c frames) (now : UInt32) (payload : Bytes) :
    Collection (c.onNodeInfo pb grow now payload) frames := by
  unfold Cache.onNodeInfo
  split
  · exact h
  · exact h.upsert pb grow now _

/-! ## Runs of a collection -/

/-- reading a frame, with the clock's reading -/
def readAct (f : UInt32 × Bytes) : Act := .frame f.1 f.2

/-- a frame that neither opens nor closes a collection -/
def Inside (payload : Bytes) : Prop :=
  (decodeFromRadio pb payload).type ≠ .myInfo ∧ (decodeFromRadio pb payload).type ≠ .configCompleteId

instance (payload : Bytes) : Decidable (Inside pb payload) := inferInstanceAs (Decidable (_ ∧ _))

theorem updateCached_of_type {payload : Bytes} (ht : (decodeFromRadio pb payload).type ≠ .packet) (now : UInt32)
    (cache : List Bytes) : updateCached pb cache (now, payload) = cache := by
  unfold updateCached
  cases hni : extractNodeInfo pb payload with
  | none => rfl
  | some ni => exact absurd (extractNodeInfo_packet pb hni) ht

theorem step_myInfo (h : c.Ok) {my : Bytes} (hmy : (decodeFromRadio pb my).type = .myInfo) (now : UInt32) :
    Collection (step pb grow c (.frame now my)) [my] ∧ (step pb grow c (.frame now my)).configCache = c.configCache := by
  have hnone : c.onNodeInfo pb grow now my = c := onNodeInfo_of_type pb grow (by rw [hmy]; decide) now
  simp only [step, Cache.onFrame, hnone, Cache.configSwitch, hmy]
  exact openCollection_collection pb grow h my

theorem Collection.inside (h : Collection c frames) {payload : Bytes} (hp : Inside pb payload) (now : UInt32) :
    Collection (step pb grow c (.frame now payload)) (frames ++ [payload]) ∧
      (step pb grow c (.frame now payload)).configCache = updateCached pb c.configCache (now, payload) := by
  have hni := h.onNodeInfo pb grow now payload
  rw [step, Cache.onFrame, configSwitch_runtime pb grow hp.1 hp.2, if_pos hni.collecting]
  refine ⟨hni.collect grow payload, ?_⟩
  rw [hni.configCache_collect grow payload]
  exact configCache_onNodeInfo pb grow h.ok now payload

/-- **A collection holds what was read.** -/
theorem collection_run (h : Collection c frames) (mid : List (UInt32 × Bytes)) (hmid : ∀ f ∈ mid, Inside pb f.2) :
    Collection (run (step pb grow) c (mid.map readAct)) (frames ++ mid.map Prod.snd) := by
  induction mid generalizing c frames with
  | nil => simpa using h
  | cons f mid ih =>
    have hf := (h.inside pb grow (hmid f List.mem_cons_self) f.1).1
    have hrest := ih hf (fun g hg => hmid g (List.mem_cons_of_mem f hg))
    simpa [readAct] using hrest

/-- while a collection is open the cache only sees the updates, also when another my_info starts it anew -/
theorem open_run (h : Collection c frames) (mid : List (UInt32 × Bytes))
    (hmid : ∀ f ∈ mid, (decodeFromRadio pb f.2).type ≠ .configCompleteId) :
    (run (step pb grow) c (mid.map readAct)).configCache = mid.foldl (updateCached pb) c.configCache := by
  induction mid generalizing c frames with
  | nil => rfl
  | cons f mid ih =>
    have hrest := fun g hg => hmid g (List.mem_cons_of_mem f hg)
    rw [List.map_cons, run_cons, List.foldl_cons]
    by_cases hmy : (decodeFromRadio pb f.2).type = .myInfo
    · obtain ⟨hopen, hcache⟩ := step_myInfo pb grow h.ok hmy f.1
      have htype : (decodeFromRadio pb f.2).type ≠ .packet := by rw [hmy]; decide
      have hsame := updateCached_of_type pb htype f.1 c.configCache
      rw [readAct, ih hopen hrest, hcache, hsame]
    · obtain ⟨hopen, hcache⟩ := h.inside pb grow ⟨hmy, hmid f List.mem_cons_self⟩ f.1
      rw [readAct, ih hopen hrest, hcache]

/-- a config_complete_id is collected, and published when a collection is open -/
theorem step_configComplete {p : Bytes} (hp : (decodeFromRadio pb p).type = .configCompleteId) (now : UInt32) :
    step pb grow c (.frame now p) = c.completeCollection grow p := by
  have hnone : c.onNodeInfo pb grow now p = c := onNodeInfo_of_type pb grow (by rw [hp]; decide) now
  simp only [step, Cache.onFrame, hnone, Cache.configSwitch, hp]

theorem Collection.publish (h : Collection c frames) {p : Bytes} (hp : (decodeFromRadio pb p).type = .configCompleteId)
    (now : UInt32) : (step pb grow c (.frame now p)).configCache = frames ++ [p] := by
  have hcoll := h.collect grow p
  rw [step_configComplete pb grow hp, Cache.completeCollection, if_pos hcoll.collecting]
  exact hcoll.frames

/-- a config_complete_id read outside a collection -/
theorem step_stray {p : Bytes} (hp : (decodeFromRadio pb p).type = .configCompleteId)
    (hstray : c.collectingConfig ≠ true) (now : UInt32) : step pb grow c (.frame now p) = c.collect grow p := by
  rw [step_configComplete pb grow hp, Cache.completeCollection, if_neg (by simpa [Cache.collect] using hstray)]

/-- outside a collection nothing is published: the cache's header stays -/
theorem stray_header {p : Bytes} (hp : (decodeFromRadio pb p).type = .configCompleteId)
    (hstray : c.collectingConfig = false) (now : UInt32) :
    (step pb grow c (.frame now p)).configCacheHdr = c.configCacheHdr := by
  rw [step_stray pb grow hp (by simp [hstray])]
  rfl

theorem configComplete_closes {p : Bytes} (hp : (decodeFromRadio pb p).type = .configCompleteId) (now : UInt32) :
    (step pb grow c (.frame now p)).collectingConfig = false := by
  rw [step_configComplete pb grow hp, Cache.completeCollection]
  split_ifs with hopen
  · rfl
  · simpa using hopen

/-- an open collection was opened by the latest my_info, on this connection, and nothing has closed it since -/
theorem collecting_history (as : List Act) (h : (run (step pb grow) .new as).collectingConfig = true) :
    ∃ (pre : List Act) (t : UInt32) (my : Bytes) (mid : List (UInt32 × Bytes)),
      as = pre ++ .frame t my :: mid.map readAct ∧ (decodeFromRadio pb my).type = .myInfo ∧
        ∀ f ∈ mid, Inside pb f.2 := by
  induction as using List.reverseRecOn with
  | nil => cases h
  | append_singleton as a ih =>
    rw [run_snoc] at h
    cases a with
    | reconnect => cases h
    | frame now p =>
      by_cases hmy : (decodeFromRadio pb p).type = .myInfo
      · exact ⟨as, now, p, [], rfl, hmy, by simp⟩
      by_cases hcc : (decodeFromRadio pb p).type = .configCompleteId
      · rw [configComplete_closes pb grow hcc] at h
        cases h
      · have hbefore : (run (step pb grow) .new as).collectingConfig = true := by
          rw [step, Cache.onFrame, configSwitch_runtime pb grow hmy hcc] at h
          split_ifs at h with hopen
          · rwa [onNodeInfo_collectingConfig] at hopen
          · rwa [onNodeInfo_collectingConfig] at h
        obtain ⟨pre, t, my, mid, rfl, hopen, hmid⟩ := ih hbefore
        refine ⟨pre, t, my, mid ++ [(now, p)], by simp [readAct], hopen, ?_⟩
        intro f hf
        rcases List.mem_append.1 hf with hf | hf
        · exact hmid f hf
        · rw [List.mem_singleton.1 hf]
          exact ⟨hmy, hcc⟩

/-! ## What an update changes -/

/-- a NodeInfo frame replaced by one of the same node, or a new one inserted -/
inductive NodeInfoEdit : List Bytes → List Bytes → Prop where
  | replace {l : List Bytes} {i : ℕ} {num : UInt32} {old new : Bytes} (hold : l[i]? = some old)
      (holdNum : isNodeInfoFor pb num old = true) (hnewNum : isNodeInfoFor pb num new = true) :
      NodeInfoEdit l (l.set i new)
  | insert {l₁ l₂ : List Bytes} {num : UInt32} {new : Bytes} (hnewNum : isNodeInfoFor pb num new = true) :
      NodeInfoEdit (l₁ ++ l₂) (l₁ ++ new :: l₂)

theorem buildNodeInfoFrame_num (hrt : pb.RoundTrip) {now : UInt32} {ni : NodeInfoData} {f : Bytes}
    (hf : buildNodeInfoFrame pb now ni = some f) : isNodeInfoFor pb ni.nodeNum f = true := by
  simp [isNodeInfoFor, nodeInfoOf, hrt _ _ hf]

theorem mergeNodeInfoUser_num (hrt : pb.RoundTrip) {now num : UInt32} {raw : Bytes} {ni : NodeInfoData} {f : Bytes}
    (hraw : isNodeInfoFor pb num raw = true) (hf : mergeNodeInfoUser pb now raw ni = some f) :
    isNodeInfoFor pb num f = true := by
  unfold mergeNodeInfoUser at hf
  split at hf
  · rename_i id old rest hu
    simp only [isNodeInfoFor, nodeInfoOf, hu] at hraw
    simpa [isNodeInfoFor, nodeInfoOf, hrt _ _ hf] using hraw
  · cases hf

theorem upsertFrames_edit (hrt : pb.RoundTrip) (now : UInt32) (ni : NodeInfoData) (cache : List Bytes) :
    upsertFrames pb now ni cache = cache ∨ NodeInfoEdit pb cache (upsertFrames pb now ni cache) := by
  by_cases h0 : ni.nodeNum = 0
  · exact Or.inl (if_pos h0)
  cases hb : buildNodeInfoFrame pb now ni with
  | none => exact Or.inl (upsertFrames_same (.inr hb))
  | some frame =>
    have hframe := buildNodeInfoFrame_num pb hrt hb
    by_cases hnil : cache = []
    · exact Or.inl (upsertFrames_same (.inl hnil))
    right
    rcases split_nodeInfoFor pb ni.nodeNum hnil with
      ⟨before, raw, after, rfl, hfirst, hraw⟩ | ⟨before, last, rfl, hnone⟩
    · have hnew : isNodeInfoFor pb ni.nodeNum ((mergeNodeInfoUser pb now raw ni).getD frame) = true := by
        cases hm : mergeNodeInfoUser pb now raw ni with
        | none => exact hframe
        | some m => exact mergeNodeInfoUser_num pb hrt hraw hm
      have hedit := NodeInfoEdit.replace (l := before ++ raw :: after) (i := before.length) (by simp) hraw hnew
      rw [upsertFrames_found h0 hb hfirst hraw]
      simpa using hedit
    · rw [upsertFrames_absent h0 hb hnone]
      split_ifs
      · exact NodeInfoEdit.insert hframe
      · have hins : NodeInfoEdit pb (before ++ [last] ++ []) (before ++ [last] ++ [frame]) := NodeInfoEdit.insert hframe
        rwa [List.append_nil] at hins

theorem updateCached_edit (hrt : pb.RoundTrip) (cache : List Bytes) (f : UInt32 × Bytes) :
    updateCached pb cache f = cache ∨ NodeInfoEdit pb cache (updateCached pb cache f) := by
  unfold updateCached
  cases extractNodeInfo pb f.2 with
  | none => exact Or.inl rfl
  | some ni => exact upsertFrames_edit pb hrt f.1 ni cache

/-- reading frames changes the cache by such edits only, as long as no collection is published -/
theorem updates_edit (hrt : pb.RoundTrip) (mid : List (UInt32 × Bytes)) (cache : List Bytes) :
    Relation.ReflTransGen (NodeInfoEdit pb) cache (mid.foldl (updateCached pb) cache) := by
  induction mid generalizing cache with
  | nil => exact Relation.ReflTransGen.refl
  | cons f mid ih =>
    rw [List.foldl_cons]
    rcases updateCached_edit pb hrt cache f with hsame | hedit
    · rw [hsame]
      exact ih cache
    · exact Relation.ReflTransGen.head hedit (ih _)

/-! ## A published cache has its config_complete_id -/

/-- a cache is empty or holds a config_complete_id -/
def Complete (cache : List Bytes) : Prop := cache = [] ∨ ∃ f ∈ cache, isConfigCompleteFrame pb f = true

theorem isConfigCompleteFrame_of_type {f : Bytes} (h : (decodeFromRadio pb f).type = .configCompleteId) :
    isConfigCompleteFrame pb f = true := by
  rw [decodeFromRadio_type] at h
  unfold isConfigCompleteFrame
  cases hu : pb.unmarshalFromRadio f with
  | none => rw [hu] at h; cases h
  | some m =>
    obtain ⟨id, variant, rest⟩ := m
    rw [hu] at h
    cases variant <;> first | rfl | cases h

theorem isConfigCompleteFrame_of_isNodeInfoFor {num : UInt32} {f : Bytes} (h : isNodeInfoFor pb num f = true) :
    isConfigCompleteFrame pb f = false := by
  unfold isNodeInfoFor nodeInfoOf at h
  unfold isConfigCompleteFrame
  cases hu : pb.unmarshalFromRadio f with
  | none => rfl
  | some m =>
    obtain ⟨id, variant, rest⟩ := m
    rw [hu] at h
    cases variant <;> first | rfl | cases h

theorem Complete.edit {l l' : List Bytes} (h : Complete pb l) (hne : l ≠ []) (hedit : NodeInfoEdit pb l l') :
    Complete pb l' := by
  obtain ⟨f, hf, hcc⟩ := h.resolve_left hne
  right
  cases hedit with
  | replace hold holdNum hnewNum =>
    rename_i i num old new
    obtain ⟨j, hj⟩ := List.mem_iff_getElem?.1 hf
    have hij : i ≠ j := by
      rintro rfl
      rw [hold] at hj
      cases hj
      rw [isConfigCompleteFrame_of_isNodeInfoFor pb holdNum] at hcc
      cases hcc
    refine ⟨f, List.mem_iff_getElem?.2 ⟨j, ?_⟩, hcc⟩
    rwa [List.getElem?_set_ne hij]
  | insert hnewNum =>
    refine ⟨f, ?_, hcc⟩
    rcases List.mem_append.1 hf with hf | hf
    · exact List.mem_append_left _ hf
    · exact List.mem_append_right _ (List.mem_cons_of_mem _ hf)

theorem Complete.updateCached (hrt : pb.RoundTrip) {cache : List Bytes} (h : Complete pb cache) (f : UInt32 × Bytes) :
    Complete pb (updateCached pb cache f) := by
  rcases updateCached_edit pb hrt cache f with hsame | hedit
  · rwa [hsame]
  · by_cases hne : cache = []
    · left
      subst hne
      unfold ConfigCache.updateCached upsertFrames
      cases extractNodeInfo pb f.2 with
      | none => rfl
      | some ni =>
        simp only [if_true]
        split_ifs
        · rfl
        · cases buildNodeInfoFrame pb f.1 ni <;> rfl
    · exact h.edit pb hne hedit

/-- the append of a config_complete_id may overwrite a frame of the cache, with itself -/
theorem Complete.collect (hok : c.Ok) (h : Complete pb c.configCache) {p : Bytes}
    (hp : (decodeFromRadio pb p).type = .configCompleteId) : Complete pb (c.collect grow p).configCache := by
  simp only [Cache.collect, Cache.configCache, read_append [] grow c.heap c.configFramesHdr p hok.cache]
  split_ifs
  · rw [← Cache.configCache]
    generalize c.configFramesHdr.off + c.configFramesHdr.len - c.configCacheHdr.off = n
    by_cases hn : n < c.configCache.length
    · exact Or.inr ⟨p, List.mem_set hn p, isConfigCompleteFrame_of_type pb hp⟩
    · rwa [List.set_eq_of_length_le (not_lt.1 hn)]
  · exact h

/-- while a collection is open it lies apart from the cache -/
theorem step_opened (hok : c.Ok) (hopen : c.collectingConfig = true → ∃ frames, Collection c frames) (a : Act) :
    (step pb grow c a).collectingConfig = true → ∃ frames, Collection (step pb grow c a) frames := by
  intro hc
  cases a with
  | reconnect => cases hc
  | frame now p =>
    by_cases hmy : (decodeFromRadio pb p).type = .myInfo
    · exact ⟨_, (step_myInfo pb grow hok hmy now).1⟩
    by_cases hcc : (decodeFromRadio pb p).type = .configCompleteId
    · rw [configComplete_closes pb grow hcc] at hc
      cases hc
    by_cases hcol : c.collectingConfig = true
    · obtain ⟨frames, hcoll⟩ := hopen hcol
      exact ⟨_, (hcoll.inside pb grow ⟨hmy, hcc⟩ now).1⟩
    · have hclosed : (c.onNodeInfo pb grow now p).collectingConfig ≠ true := by rwa [onNodeInfo_collectingConfig]
      rw [step, Cache.onFrame, configSwitch_runtime pb grow hmy hcc, if_neg hclosed] at hc
      exact absurd hc hclosed

/-- outside a config_complete_id the list of cached frames sees the update only -/
theorem configCache_frame (hok : c.Ok) (hopen : c.collectingConfig = true → ∃ frames, Collection c frames) {p : Bytes}
    (hcc : (decodeFromRadio pb p).type ≠ .configCompleteId) (now : UInt32) :
    (step pb grow c (.frame now p)).configCache = updateCached pb c.configCache (now, p) := by
  by_cases hmy : (decodeFromRadio pb p).type = .myInfo
  · rw [(step_myInfo pb grow hok hmy now).2, updateCached_of_type pb (by rw [hmy]; decide)]
  by_cases hcol : c.collectingConfig = true
  · obtain ⟨frames, hcoll⟩ := hopen hcol
    exact (hcoll.inside pb grow ⟨hmy, hcc⟩ now).2
  · rw [step, Cache.onFrame, configSwitch_runtime pb grow hmy hcc, if_neg (by rwa [onNodeInfo_collectingConfig])]
    exact configCache_onNodeInfo pb grow hok now p

theorem step_complete (hrt : pb.RoundTrip) (hok : c.Ok)
    (hopen : c.collectingConfig = true → ∃ frames, Collection c frames) (h : Complete pb c.configCache) (a : Act) :
    Complete pb (step pb grow c a).configCache := by
  cases a with
  | reconnect => exact h
  | frame now p =>
    by_cases hcc : (decodeFromRadio pb p).type = .configCompleteId
    · by_cases hcol : c.collectingConfig = true
      · obtain ⟨frames, hcoll⟩ := hopen hcol
        rw [hcoll.publish pb grow hcc]
        exact Or.inr ⟨p, by simp, isConfigCompleteFrame_of_type pb hcc⟩
      · rw [step_stray pb grow hcc hcol]
        exact h.collect pb grow hok hcc
    · rw [configCache_frame pb grow hok hopen hcc now]
      exact h.updateCached pb hrt (now, p)

/-- **A published cache has its config_complete_id**, whatever later packets and stray frames do to it. -/
theorem configCache_complete (hrt : pb.RoundTrip) (as : List Act) :
    Complete pb (run (step pb grow) .new as).configCache := by
  have hinit : Cache.new.Ok ∧ (Cache.new.collectingConfig = true → ∃ frames, Collection Cache.new frames) ∧
      Complete pb Cache.new.configCache := ⟨new_ok, (fun hc => nomatch hc), Or.inl rfl⟩
  have hinv := run_inv_all
    (I := fun c => c.Ok ∧ (c.collectingConfig = true → ∃ frames, Collection c frames) ∧ Complete pb c.configCache)
    (fun c a h => ⟨step_ok pb grow h.1 a, step_opened pb grow h.1 h.2.1 a, step_complete pb grow hrt h.1 h.2.1 h.2.2 a⟩)
    as hinit
  exact hinv.2.2

/-- **Cache publication is exact and atomic.** After any run, over any number of connections: a config_complete_id read
inside a collection publishes the latest my_info of the connection, every frame read since (none of them a my_info or a
config_complete_id) and itself, in order; read outside a collection it publishes nothing. And a connection that ends
after a my_info and before a config_complete_id leaves the cache as it was before that my_info, except for what
UpsertCachedNodeInfo made of the NODEINFO_APP packets in between: NodeInfo frames replaced in place or inserted. -/
theorem cache_publication (hrt : pb.RoundTrip) (as : List Act) :
    (∀ now p, (decodeFromRadio pb p).type = .configCompleteId →
      ((run (step pb grow) .new as).collectingConfig = true →
        ∃ (pre : List Act) (t : UInt32) (my : Bytes) (mid : List (UInt32 × Bytes)),
          as = pre ++ .frame t my :: mid.map readAct ∧ (decodeFromRadio pb my).type = .myInfo ∧
          (∀ f ∈ mid, Inside pb f.2) ∧
          (run (step pb grow) .new (as ++ [.frame now p])).configCache = my :: mid.map Prod.snd ++ [p]) ∧
      ((run (step pb grow) .new as).collectingConfig = false →
        (run (step pb grow) .new (as ++ [.frame now p])).configCacheHdr =
          (run (step pb grow) .new as).configCacheHdr)) ∧
    ∀ t my (mid : List (UInt32 × Bytes)), (decodeFromRadio pb my).type = .myInfo →
      (∀ f ∈ mid, (decodeFromRadio pb f.2).type ≠ .configCompleteId) →
      (run (step pb grow) .new (as ++ .frame t my :: mid.map readAct ++ [.reconnect])).configCache =
        mid.foldl (updateCached pb) (run (step pb grow) .new as).configCache ∧
      Relation.ReflTransGen (NodeInfoEdit pb) (run (step pb grow) .new as).configCache
        (run (step pb grow) .new (as ++ .frame t my :: mid.map readAct ++ [.reconnect])).configCache := by
  refine ⟨?_, ?_⟩
  · intro now p hp
    constructor
    · intro hopen
      obtain ⟨pre, t, my, mid, rfl, hmy, hmid⟩ := collecting_history pb grow as hopen
      refine ⟨pre, t, my, mid, rfl, hmy, hmid, ?_⟩
      have hstart := (step_myInfo pb grow (run_ok pb grow pre) hmy t).1
      have hcoll := collection_run pb grow hstart mid hmid
      rw [run_snoc, run_append, run_cons]
      exact hcoll.publish pb grow hp now
    · intro hstray
      rw [run_snoc]
      exact stray_header pb grow hp hstray now
  · intro t my mid hmy hmid
    obtain ⟨hstart, hcache⟩ := step_myInfo pb grow (run_ok pb grow as) hmy t
    have hrun : (run (step pb grow) .new (as ++ .frame t my :: mid.map readAct ++ [.reconnect])).configCache =
        mid.foldl (updateCached pb) (run (step pb grow) .new as).configCache := by
      rw [run_snoc, run_append, run_cons, ← hcache, ← open_run pb grow hstart mid hmid]
      rfl
    refine ⟨hrun, ?_⟩
    rw [hrun]
    exact updates_edit pb hrt mid _

/-! ### A handshake, and a second one that is cut short -/

/-- the collection is published; of the second one, node 9's packet is all that is left; and outside a collection a
config_complete_id publishes nothing -/
theorem cache_publication_handshake :
    (∃ (my : Bytes) (mid : List (UInt32 × Bytes)), (decodeFromRadio wireCodec my).type = .myInfo ∧
      (run (step wireCodec doubling) .new
        ([.frame 1 myInfoFrame, .frame 1 configFrame] ++ [.frame 1 (configCompleteBytes 5)])).configCache =
          my :: mid.map Prod.snd ++ [configCompleteBytes 5]) ∧
    Relation.ReflTransGen (NodeInfoEdit wireCodec) (run (step wireCodec doubling) .new handshake).configCache
      (run (step wireCodec doubling) .new (handshake ++ .frame 1 myInfoFrame ::
        [(1, configFrame), (1, nodeInfoPacket 9), (1, channelFrame)].map readAct ++ [.reconnect])).configCache ∧
    (run (step wireCodec doubling) .new (handshake ++ [.frame 1 (configCompleteBytes 7)])).configCacheHdr =
      (run (step wireCodec doubling) .new handshake).configCacheHdr := by
  refine ⟨?_, ?_, ?_⟩
  · obtain ⟨-, -, my, mid, -, hmy, -, hcache⟩ := ((cache_publication wireCodec doubling wireCodec_roundTrip
      [.frame 1 myInfoFrame, .frame 1 configFrame]).1 1 (configCompleteBytes 5) (by decide +kernel)).1 (by decide +kernel)
    exact ⟨my, mid, hmy, hcache⟩
  · exact ((cache_publication wireCodec doubling wireCodec_roundTrip handshake).2 1 myInfoFrame
      [(1, configFrame), (1, nodeInfoPacket 9), (1, channelFrame)] (by decide +kernel) (by decide +kernel)).2
  · exact ((cache_publication wireCodec doubling wireCodec_roundTrip handshake).1 1 (configCompleteBytes 7)
      (by decide +kernel)).2 (by decide +kernel)

end MeshProxy.ConfigCache
