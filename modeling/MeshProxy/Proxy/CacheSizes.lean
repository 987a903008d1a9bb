/-
Whether the cached frames can be sent (`internal/node/connection.go`: readLoop, UpsertCachedNodeInfo,
buildNodeInfoFrame, mergeNodeInfoUser; `internal/proxy/config_replay.go`: the nonce patch of replayCachedConfig).

What is read has 1 to 512 bytes. Two things in the cache are not what was read: a NodeInfo frame that was built or merged,
whose size comes from the broadcast and from what the cached message had beside the user, and a config_complete_id, which
is sent under a nonce that may be longer than its own. `StepFits` says, of a frame and the state it is read in, that
neither gets too long.

- `step_cache_iff`: a step that starts with a sendable cache ends with one exactly when it fits;
- `cache_sendable_iff`: so along every run.
Premises: `Codec.RoundTrip`, `Codec.NonceLaw`, `Codec.UserLaw`, `Codec.EncodesUsers`, `NodeInfoSize`.
-/
import MeshProxy.Node.UpsertSpec
import MeshProxy.Proxy.ConfigReplay

namespace MeshProxy.CacheSizes

open MeshProxy.Proto MeshProxy.Decode MeshProxy.GoSlice MeshProxy.Trace MeshProxy.Varint MeshProxy.ConfigCache
open MeshProxy.ConfigReplay (outFrame parseFrame outFrame_raw)
open MeshProxy.Frame (Bytes Accepted maxFrameSize)

variable (pb : Codec) (sz : NodeSizes)

/-! ## Sizes -/

/-- `WriteFrame` accepts the frame and `ReadFrame` does not skip it, and so for what a replay sends in its place -/
def Sendable (f : Bytes) : Prop := Accepted f ∧ ∀ nonce b, outFrame pb nonce (parseFrame pb f) = some b → Accepted b

/-- the user with the fields that a broadcast gives, `is_unmessagable` apart -/
def dataUser (ni : NodeInfoData) : User :=
  { id := ni.userID, shortName := ni.shortName, longName := ni.longName, hwModel := pb.hwModelValue ni.hwModel,
    role := pb.roleValue ni.role, isLicensed := ni.isLicensed, publicKey := ni.publicKey, macaddr := ni.macaddr }

/-- the size of the user that is written over `user` -/
def writtenUserSize (ni : NodeInfoData) (user : User) : ℕ :=
  sz.user (dataUser pb ni) + (if ni.isUnmessagable.isSome ∨ user.isUnmessagable.isSome then 2 else 0) + user.rest.length

/-- the size of the frame that is written over a NodeInfo message -/
def writtenSize (now : UInt32) (ni : NodeInfoData) (id : UInt32) (old : NodeInfo) (rest : Bytes) : ℕ :=
  sz.envelope id rest + fieldSize (sz.info { old with user := none, lastHeard := 0 } +
    fieldSize (writtenUserSize pb sz ni (old.user.getD {})) + fixed32Size now)

/-- the size of the frame an upsert writes, 0 for none -/
def upsertSize (now : UInt32) (ni : NodeInfoData) (cache : List Bytes) : ℕ :=
  match cache.find? (isNodeInfoFor pb ni.nodeNum) with
  | some raw =>
    match pb.unmarshalFromRadio raw with
    | some ⟨id, .nodeInfo old, rest⟩ => writtenSize pb sz now ni id old rest
    | _ => 0
  | none => if cache = [] then 0 else writtenSize pb sz now ni 0 { num := ni.nodeNum } []

/-- the size of a config_complete_id under the longest nonce, 0 for any other frame -/
def completeSize (payload : Bytes) : ℕ :=
  match pb.unmarshalFromRadio payload with
  | some ⟨id, .configCompleteId _, rest⟩ => sz.envelope id rest + 6
  | _ => 0

/-- a config_complete_id read now comes into the cache: it closes a collection, or lands on a cached frame -/
def Enters (c : Cache) (payload : Bytes) : Prop := c.collectingConfig = true ∨ ¬Isolated c payload

/-- nothing too long comes into the cache: neither the NodeInfo frame written for a NODEINFO_APP packet, nor a
config_complete_id -/
def StepFits (c : Cache) : Act → Prop
  | .frame now payload =>
    (extractNodeInfo pb payload).elim 0 (fun ni => upsertSize pb sz now ni c.configCache) ≤ maxFrameSize ∧
      (Enters c payload → completeSize pb sz payload ≤ maxFrameSize)
  | .reconnect => True

/-- what `ReadFrame` delivers -/
def Delivered : Act → Prop
  | .frame _ payload => Accepted payload
  | .reconnect => True

variable {pb sz} {f raw frame : Bytes} {now : UInt32} {ni : NodeInfoData} {cache : List Bytes}

theorem userSize_mergeUser (ni : NodeInfoData) (u : User) :
    sz.userSize (mergeUser pb ni u) = writtenUserSize pb sz ni u := by
  unfold NodeSizes.userSize writtenUserSize
  cases h : ni.isUnmessagable <;> simp [mergeUser, dataUser, h]

theorem mergeNodeInfoUser_length (hsz : NodeInfoSize pb sz) {id : UInt32} {old : NodeInfo} {rest : Bytes}
    (hold : pb.unmarshalFromRadio raw = some ⟨id, .nodeInfo old, rest⟩) (h : mergeNodeInfoUser pb now raw ni = some f) :
    f.length = writtenSize pb sz now ni id old rest := by
  unfold mergeNodeInfoUser at h
  simp only [hold] at h
  rw [hsz.nodeInfo _ _ _ _ h, writtenSize, NodeSizes.infoSize, Option.elim_some, userSize_mergeUser]

theorem buildNodeInfoFrame_length (hsz : NodeInfoSize pb sz) (h : buildNodeInfoFrame pb now ni = some f) :
    f.length = writtenSize pb sz now ni 0 { num := ni.nodeNum } [] := by
  have huser : mergeUser pb ni {} = { dataUser pb ni with isUnmessagable := ni.isUnmessagable } := by
    cases h : ni.isUnmessagable <;> simp [mergeUser, dataUser, h]
  let info : NodeInfo := { num := ni.nodeNum, user := some (mergeUser pb ni {}), lastHeard := now }
  have hbuilt : pb.marshalFromRadio { variant := .nodeInfo info } = some f := by
    simp only [info, huser]
    exact h
  rw [hsz.nodeInfo _ _ _ _ hbuilt, writtenSize, NodeSizes.infoSize, Option.elim_some, userSize_mergeUser]
  rfl

theorem varintSize_nonce (nonce : UInt32) : varintSize nonce.toNat ≤ 5 :=
  varintF_length_of_lt (by norm_num) 10 (lt_trans nonce.toNat_lt (by norm_num))

theorem sendable_raw (h : ∀ m, pb.unmarshalFromRadio f = some m → ∀ k, m.variant ≠ .configCompleteId k) :
    Sendable pb f ↔ Accepted f := by
  constructor
  · exact fun hs => hs.1
  · intro ha
    refine ⟨ha, fun nonce b hb => ?_⟩
    rw [outFrame_raw h] at hb
    cases hb
    exact ha

/-- a frame that was read is sendable unless a longer nonce makes it too long -/
theorem sendable_iff (hnl : pb.NonceLaw) (hsz : NodeInfoSize pb sz) (ha : Accepted f) :
    Sendable pb f ↔ completeSize pb sz f ≤ maxFrameSize := by
  unfold completeSize
  split
  · rename_i id k rest hu
    have hout (nonce : UInt32) : outFrame pb nonce (parseFrame pb f) =
        pb.marshalFromRadio ⟨id, .configCompleteId nonce, rest⟩ := by simp only [outFrame, parseFrame, hu]
    constructor
    · intro hs
      obtain ⟨b, hb, -⟩ := hnl f _ k 0xFFFFFFFF hu rfl
      have hlen := hsz.complete id 0xFFFFFFFF rest b hb
      have hfive : varintSize (0xFFFFFFFF : UInt32).toNat = 5 := by decide
      have hle := (hs.2 0xFFFFFFFF b ((hout _).trans hb)).2
      omega
    · intro hle
      refine ⟨ha, fun nonce b hb => ?_⟩
      have hlen := hsz.complete id nonce rest b ((hout nonce).symm.trans hb)
      have hfive := varintSize_nonce nonce
      exact ⟨by omega, by omega⟩
  · rename_i hne
    rw [sendable_raw (fun m hm k hk => ?_)]
    · exact iff_of_true ha (Nat.zero_le _)
    · obtain ⟨id, variant, rest⟩ := m
      cases hk
      exact hne id k rest hm

/-- a NodeInfo frame that was written is sendable unless it is too long -/
theorem sendable_written {id id' : UInt32} {v old : NodeInfo} {rest rest' : Bytes}
    (hu : pb.unmarshalFromRadio f = some ⟨id', .nodeInfo v, rest'⟩)
    (hlen : f.length = writtenSize pb sz now ni id old rest) :
    Sendable pb f ↔ writtenSize pb sz now ni id old rest ≤ maxFrameSize := by
  have hpos : 1 ≤ writtenSize pb sz now ni id old rest := by
    unfold writtenSize fieldSize
    omega
  rw [← hlen] at hpos ⊢
  rw [sendable_raw (fun m hm k hk => ?_)]
  · exact and_iff_right hpos
  · rw [hu] at hm
    cases hm
    cases hk

/-! ## An upsert -/

theorem forall_mem_middle {P : Bytes → Prop} {before after : List Bytes} (h : ∀ f ∈ before ++ raw :: after, P f)
    (f : Bytes) : (∀ g ∈ before ++ f :: after, P g) ↔ P f := by
  simp only [List.forall_mem_append, List.forall_mem_cons] at h ⊢
  tauto

theorem forall_mem_insert {P : Bytes → Prop} {before after : List Bytes} (h : ∀ f ∈ before ++ after, P f)
    (f : Bytes) : (∀ g ∈ before ++ f :: after, P g) ↔ P f := by
  simp only [List.forall_mem_append, List.forall_mem_cons] at h ⊢
  tauto

/-- an upsert keeps the cache sendable exactly when the frame it writes is not too long -/
theorem upsertFrames_sendable_iff (hrt : pb.RoundTrip) (hul : pb.UserLaw) (hsz : NodeInfoSize pb sz)
    (h0 : ni.nodeNum ≠ 0) (hb : buildNodeInfoFrame pb now ni = some frame) (hcache : ∀ f ∈ cache, Sendable pb f) :
    (∀ f ∈ upsertFrames pb now ni cache, Sendable pb f) ↔ upsertSize pb sz now ni cache ≤ maxFrameSize := by
  by_cases hne : cache = []
  · subst hne
    rw [upsertFrames_same (.inl rfl)]
    simp [upsertSize]
  obtain ⟨w, hdec, -⟩ := buildNodeInfoFrame_built hrt hb
  have hbuilt := sendable_written hdec (buildNodeInfoFrame_length hsz hb)
  rcases split_nodeInfoFor pb ni.nodeNum hne with
    ⟨before, raw, after, rfl, hfirst, hraw⟩ | ⟨before, last, rfl, hnone⟩
  · obtain ⟨raw', hm⟩ := mergeNodeInfoUser_some hul hb hraw
    obtain ⟨id, old, rest, w, hold, hdec', -⟩ := mergeNodeInfoUser_merged hrt hm
    have hfind : (before ++ raw :: after).find? (isNodeInfoFor pb ni.nodeNum) = some raw := by
      rw [List.find?_append, List.find?_eq_none.2 (by simpa using hfirst)]
      simp [hraw]
    rw [upsertFrames_found h0 hb hfirst hraw, hm, Option.getD_some, forall_mem_middle hcache, upsertSize]
    simp only [hfind, hold]
    exact sendable_written hdec' (mergeNodeInfoUser_length hsz hold hm)
  · have hfind : (before ++ [last]).find? (isNodeInfoFor pb ni.nodeNum) = none :=
      List.find?_eq_none.2 (by simpa using hnone)
    have hsize : upsertSize pb sz now ni (before ++ [last]) = writtenSize pb sz now ni 0 { num := ni.nodeNum } [] := by
      simp only [upsertSize, hfind, if_neg hne]
    rw [upsertFrames_absent h0 hb hnone, hsize, ← hbuilt]
    split_ifs
    · exact forall_mem_insert hcache frame
    · exact forall_mem_insert (by simpa using hcache) frame

theorem updateCached_sendable_iff (hrt : pb.RoundTrip) (hul : pb.UserLaw) (henc : pb.EncodesUsers)
    (hsz : NodeInfoSize pb sz) (hcache : ∀ f ∈ cache, Sendable pb f) (now : UInt32) (payload : Bytes) :
    (∀ f ∈ updateCached pb cache (now, payload), Sendable pb f) ↔
      (extractNodeInfo pb payload).elim 0 (fun ni => upsertSize pb sz now ni cache) ≤ maxFrameSize := by
  unfold updateCached
  cases hni : extractNodeInfo pb payload with
  | none => exact iff_of_true hcache (Nat.zero_le _)
  | some ni =>
    obtain ⟨frame, hb⟩ := buildNodeInfoFrame_some henc hni now
    exact upsertFrames_sendable_iff hrt hul hsz (extractNodeInfo_broadcast hni).1 hb hcache

/-! ## A run of readLoop -/

/-- what every state of a run has as long as all its steps fit -/
structure Inv (pb : Codec) (c : Cache) : Prop where
  ok : c.Ok
  cache : ∀ f ∈ c.configCache, Sendable pb f
  frames : c.collectingConfig = true → ∃ frames, Collection c frames ∧ ∀ f ∈ frames, Sendable pb f

variable {grow : ℕ → ℕ} {c : Cache} {payload : Bytes}

/-- a config_complete_id aside, the step does to the cache what the packet's data does -/
theorem step_updateCached (h : Inv pb c) (hcc : (decodeFromRadio pb payload).type ≠ .configCompleteId) (now : UInt32) :
    (step pb grow c (.frame now payload)).configCache = updateCached pb c.configCache (now, payload) := by
  by_cases hmy : (decodeFromRadio pb payload).type = .myInfo
  · rw [(step_myInfo pb grow h.ok hmy now).2, updateCached_of_type pb (by rw [hmy]; decide)]
  by_cases hcol : c.collectingConfig = true
  · obtain ⟨frames, hcoll, -⟩ := h.frames hcol
    exact (hcoll.inside pb grow ⟨hmy, hcc⟩ now).2
  · rw [step, Cache.onFrame, configSwitch_runtime pb grow hmy hcc, onNodeInfo_collectingConfig, if_neg hcol]
    exact configCache_onNodeInfo pb grow h.ok now payload

/-- a frame that is appended outside a collection lands on a cached frame or does not show -/
theorem collect_sendable_iff (h : Inv pb c) :
    (∀ f ∈ (c.collect grow payload).configCache, Sendable pb f) ↔ (¬Isolated c payload → Sendable pb payload) := by
  by_cases hiso : Isolated c payload
  · rw [(configCache_collect_iff grow h.ok payload).2 hiso]
    exact iff_of_true h.cache fun hn => absurd hiso hn
  · have hset : ∃ n < c.configCache.length, (c.collect grow payload).configCache = c.configCache.set n payload := by
      have hchanged := mt (configCache_collect_iff grow h.ok payload).1 hiso
      have hread := read_append [] grow c.heap c.configFramesHdr payload h.ok.cache
      rw [← Cache.configCache] at hread
      change (c.collect grow payload).configCache = _ at hread
      split_ifs at hread
      · refine ⟨_, ?_, hread⟩
        by_contra hge
        exact hchanged (hread.trans (List.set_eq_of_length_le (not_lt.1 hge)))
      · exact absurd hread hchanged
    obtain ⟨n, hn, hread⟩ := hset
    rw [hread]
    constructor
    · exact fun hall _ => hall payload (List.mem_set hn payload)
    · intro hp f hf
      rcases List.mem_or_eq_of_mem_set hf with hf | rfl
      · exact h.cache f hf
      · exact hp hiso

/-- **One step.** A step that starts in a state of such a run ends with a sendable cache exactly when it fits. -/
theorem step_cache_iff (hrt : pb.RoundTrip) (hnl : pb.NonceLaw) (hul : pb.UserLaw) (henc : pb.EncodesUsers)
    (hsz : NodeInfoSize pb sz) (h : Inv pb c) {a : Act} (ha : Delivered a) :
    (∀ f ∈ (step pb grow c a).configCache, Sendable pb f) ↔ StepFits pb sz c a := by
  cases a with
  | reconnect => exact iff_of_true h.cache trivial
  | frame now payload =>
    have hsend := sendable_iff hnl hsz ha
    by_cases hcc : (decodeFromRadio pb payload).type = .configCompleteId
    · have hquiet : extractNodeInfo pb payload = none := by
        cases hni : extractNodeInfo pb payload with
        | none => rfl
        | some ni =>
          rw [extractNodeInfo_packet pb hni] at hcc
          cases hcc
      have hfits : StepFits pb sz c (.frame now payload) ↔ (Enters c payload → Sendable pb payload) := by
        rw [StepFits, hquiet, Option.elim_none, hsend]
        exact and_iff_right (Nat.zero_le _)
      rw [hfits]
      by_cases hcol : c.collectingConfig = true
      · obtain ⟨frames, hcoll, hframes⟩ := h.frames hcol
        rw [hcoll.publish pb grow hcc now]
        constructor
        · exact fun hall _ => hall payload (by simp)
        · intro hp f hf
          rcases List.mem_append.1 hf with hf | hf
          · exact hframes f hf
          · rw [List.mem_singleton.1 hf]
            exact hp (.inl hcol)
      · rw [step_stray pb grow hcc hcol now, collect_sendable_iff h]
        constructor
        · rintro hp (henter | henter)
          · exact absurd henter hcol
          · exact hp henter
        · exact fun hp hn => hp (.inr hn)
    · have hzero : completeSize pb sz payload = 0 := by
        unfold completeSize
        split
        · rename_i hu
          rw [decodeFromRadio_type, hu] at hcc
          exact absurd rfl hcc
        · rfl
      rw [step_updateCached h hcc, updateCached_sendable_iff hrt hul henc hsz h.cache, StepFits, hzero]
      exact (and_iff_left fun _ => Nat.zero_le _).symm

/-- a step that fits keeps the invariant -/
theorem step_inv (hrt : pb.RoundTrip) (hnl : pb.NonceLaw) (hul : pb.UserLaw) (henc : pb.EncodesUsers)
    (hsz : NodeInfoSize pb sz) (h : Inv pb c) {a : Act} (ha : Delivered a) (hfits : StepFits pb sz c a) :
    Inv pb (step pb grow c a) := by
  refine ⟨step_ok pb grow h.ok a, (step_cache_iff hrt hnl hul henc hsz h ha).2 hfits, fun hcol => ?_⟩
  cases a with
  | reconnect => cases hcol
  | frame now payload =>
    have hraw (hcc : (decodeFromRadio pb payload).type ≠ .configCompleteId) : Sendable pb payload := by
      refine (sendable_raw fun m hm k hk => hcc ?_).2 ha
      rw [decodeFromRadio_type, hm]
      simp [hk, variantType]
    by_cases hcc : (decodeFromRadio pb payload).type = .configCompleteId
    · rw [configComplete_closes pb grow hcc] at hcol
      cases hcol
    by_cases hmy : (decodeFromRadio pb payload).type = .myInfo
    · exact ⟨_, (step_myInfo pb grow h.ok hmy now).1, by simpa using hraw hcc⟩
    have hopen : c.collectingConfig = true := by
      rw [step, Cache.onFrame, configSwitch_runtime pb grow hmy hcc] at hcol
      split_ifs at hcol with hopen
      · rwa [onNodeInfo_collectingConfig] at hopen
      · rwa [onNodeInfo_collectingConfig] at hcol
    obtain ⟨frames, hcoll, hframes⟩ := h.frames hopen
    refine ⟨_, (hcoll.inside pb grow ⟨hmy, hcc⟩ now).1, fun f hf => ?_⟩
    rcases List.mem_append.1 hf with hf | hf
    · exact hframes f hf
    · rw [List.mem_singleton.1 hf]
      exact hraw hcc

/-- **Cached frames stay sendable.** Along every run of frames that `ReadFrame` delivers, over any number of connections,
the cache holds only frames that can be sent, under every nonce, exactly when every step fits. -/
theorem cache_sendable_iff (pb : Codec) (hrt : pb.RoundTrip) (hnl : pb.NonceLaw) (hul : pb.UserLaw)
    (henc : pb.EncodesUsers) {sz : NodeSizes} (hsz : NodeInfoSize pb sz) (grow : ℕ → ℕ) (as : List Act)
    (has : ∀ a ∈ as, Delivered a) :
    (∀ bs, bs <+: as → ∀ f ∈ (run (step pb grow) .new bs).configCache, Sendable pb f) ↔
      Along (step pb grow) (StepFits pb sz) .new as := by
  have h0 : Inv pb Cache.new := by
    refine ⟨new_ok, ?_, fun hcol => ?_⟩
    · simp [Cache.configCache, Cache.new, read_nil]
    · cases hcol
  exact prefixes_iff_along_of (A := Delivered) (I := Inv pb) (H := fun c => ∀ f ∈ c.configCache, Sendable pb f)
    (fun c h => h.cache) (fun c a ha h hfits => step_inv hrt hnl hul henc hsz h ha hfits)
    (fun c a ha h hn => mt (step_cache_iff hrt hnl hul henc hsz h ha).1 hn) has h0

/-! ### Node 9 changes its key -/

instance (c : Cache) (payload : Bytes) : Decidable (Isolated c payload) :=
  inferInstanceAs (Decidable (_ ∨ _))

instance (c : Cache) (payload : Bytes) : Decidable (Enters c payload) := inferInstanceAs (Decidable (_ ∨ _))

instance (pb : Codec) (sz : NodeSizes) (c : Cache) : ∀ a, Decidable (StepFits pb sz c a)
  | .frame _ _ => inferInstanceAs (Decidable (_ ∧ (_ → _)))
  | .reconnect => inferInstanceAs (Decidable True)

instance : ∀ a, Decidable (Delivered a)
  | .frame _ payload => inferInstanceAs (Decidable (Accepted payload))
  | .reconnect => inferInstanceAs (Decidable True)

/-- a download with the NodeInfo frame of node 9, and a NODEINFO_APP packet of it -/
def keyRun : List Act :=
  [.frame 1 myInfoFrame, .frame 1 keyFrame, .frame 1 (configCompleteBytes 5),
    .frame 1 (identityPacket 9 (keyUserBytes 0 [1, 2])).1]

theorem cache_sendable_nine :
    (run (step keyCodec doubling) .new keyRun).configCache =
      [myInfoFrame, field 0x22 (keyInfoBytes 9 0 [1, 2] 1), configCompleteBytes 5] ∧
    ∀ bs, bs <+: keyRun → ∀ f ∈ (run (step keyCodec doubling) .new bs).configCache, Sendable keyCodec f :=
  ⟨by decide +kernel, (cache_sendable_iff keyCodec (identityCodec_roundTrip keyPackets)
    (identityCodec_nonceLaw keyPackets (by simp [keyPackets, identityPacket]))
    (identityCodec_userLaw keyPackets (by simp [keyPackets, identityPacket])) (identityCodec_encodesUsers keyPackets)
    (identityCodec_nodeInfoSize keyPackets) doubling keyRun (by decide +kernel)).2 (by decide +kernel)⟩

/-- a NODEINFO_APP packet of 512 bytes with a public key of 493 -/
def longPackets : List (Bytes × FromRadio) :=
  [(myInfoFrame, { variant := .myInfo 1 [] }), identityPacket 0x80000001 (keyUserBytes 0 (List.replicate 493 7))]

def longRun : List Act :=
  [.frame 1 myInfoFrame, .frame 1 (configCompleteBytes 5),
    .frame 1 (identityPacket 0x80000001 (keyUserBytes 0 (List.replicate 493 7))).1]

/-- the NodeInfo frame built from it has 513 -/
theorem cache_not_sendable :
    (∀ a ∈ longRun, Delivered a) ∧
    ¬∀ f ∈ (run (step (identityCodec longPackets) doubling) .new longRun).configCache,
      Sendable (identityCodec longPackets) f := by
  refine ⟨by decide +kernel, fun h => ?_⟩
  have hmem : field 0x22 (keyInfoBytes 0x80000001 0 (List.replicate 493 7) 1) ∈
      (run (step (identityCodec longPackets) doubling) .new longRun).configCache := by
    decide +kernel
  have hlen : (field 0x22 (keyInfoBytes 0x80000001 0 (List.replicate 493 7) 1)).length = 513 := by decide +kernel
  have hle := (h _ hmem).1.2
  rw [hlen] at hle
  exact absurd hle (by decide)

end MeshProxy.CacheSizes
