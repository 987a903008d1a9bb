/-
What UpsertCachedNodeInfo does to the cache, and what becomes of a node's identity on its way through it
(`internal/node/connection.go`: UpsertCachedNodeInfo, buildNodeInfoFrame, mergeNodeInfoUser; `extract.go`:
ExtractNodeInfo).

An identity travels as a User message, as a NodeInfoData whose enums are texts, and as a User again, on one of two
paths: into a frame that exists (merged over its NodeInfo) or into a new one. `Carried` says which fields of the data a
user has; both paths write a user that carries all of them.

- `upsert_spec`: the one change an upsert makes, on every non-empty cache;
- `identity_through_cache_iff`: the user that arrives is the user that was sent exactly when its hw_model and role are
  numbers the generated code declares.
Premises: `Codec.RoundTrip`; for the first result `Codec.UserLaw`, for the second `Codec.EncodesUsers` and `EnumTable`.
-/
import MeshProxy.Node.IdentityAgreement
import MeshProxy.Proto.IdentityCodec

namespace MeshProxy.ConfigCache

open MeshProxy.Proto MeshProxy.Decode MeshProxy.GoSlice MeshProxy.Trace MeshProxy.Varint
open MeshProxy.Frame (Bytes)
open MeshProxy.ReadLoop (nodeInfosOf nodeInfosOf_append nodeInfosOf_cons nodeInfosOf_eq_nil_iff)

variable (pb : Codec) (grow : ℕ → ℕ)

/-- `UpsertCachedNodeInfo` on its pointer argument -/
def Cache.upsertNodeInfo (now : UInt32) (ni : Option NodeInfoData) (c : Cache) : Cache :=
  match ni with
  | none => c
  | some ni => c.upsertCachedNodeInfo pb grow now ni

/-! ## The frame that is written -/

/-- the user has every field that the data carries -/
structure Carried (ni : NodeInfoData) (w : User) : Prop where
  id : w.id = ni.userID
  shortName : w.shortName = ni.shortName
  longName : w.longName = ni.longName
  hwModel : w.hwModel = pb.hwModelValue ni.hwModel
  role : w.role = pb.roleValue ni.role
  isLicensed : w.isLicensed = ni.isLicensed
  publicKey : w.publicKey = ni.publicKey
  macaddr : w.macaddr = ni.macaddr
  isUnmessagable : ∀ b, ni.isUnmessagable = some b → w.isUnmessagable = some b

/-- the frame is a NodeInfo message of the node, heard now, with nothing else in it but a user that carries the data -/
def Built (now : UInt32) (ni : NodeInfoData) (frame : Bytes) : Prop :=
  ∃ w, pb.unmarshalFromRadio frame =
      some { variant := .nodeInfo { num := ni.nodeNum, user := some w, lastHeard := now } } ∧ Carried pb ni w

/-- the frame is the old NodeInfo message with another user, heard now; the user carries the data and has kept what the
data does not give -/
def Merged (now : UInt32) (ni : NodeInfoData) (raw raw' : Bytes) : Prop :=
  ∃ id old rest w, pb.unmarshalFromRadio raw = some ⟨id, .nodeInfo old, rest⟩ ∧
    pb.unmarshalFromRadio raw' = some ⟨id, .nodeInfo { old with user := some w, lastHeard := now }, rest⟩ ∧
    Carried pb ni w ∧ w.rest = (old.user.getD {}).rest ∧
    (ni.isUnmessagable = none → w.isUnmessagable = (old.user.getD {}).isUnmessagable)

variable {pb} {now : UInt32} {ni : NodeInfoData} {raw frame : Bytes}

theorem buildNodeInfoFrame_built (hrt : pb.RoundTrip) (h : buildNodeInfoFrame pb now ni = some frame) :
    Built pb now ni frame := by
  refine ⟨_, hrt _ _ h, ?_⟩
  exact ⟨rfl, rfl, rfl, rfl, rfl, rfl, rfl, rfl, fun _ hb => hb⟩

theorem mergeUser_carried (ni : NodeInfoData) (u : User) : Carried pb ni (mergeUser pb ni u) := by
  refine ⟨rfl, rfl, rfl, rfl, rfl, rfl, rfl, rfl, fun b hb => ?_⟩
  simp [mergeUser, hb]

theorem mergeNodeInfoUser_merged (hrt : pb.RoundTrip) {raw' : Bytes} (h : mergeNodeInfoUser pb now raw ni = some raw') :
    Merged pb now ni raw raw' := by
  unfold mergeNodeInfoUser at h
  split at h
  · rename_i id old rest hold
    refine ⟨id, old, rest, _, hold, hrt _ _ h, mergeUser_carried ni _, rfl, fun hnone => ?_⟩
    simp [mergeUser, hnone]
  · cases h

/-- merging does not fail on a frame of the node -/
theorem mergeNodeInfoUser_some (hul : pb.UserLaw) (hb : buildNodeInfoFrame pb now ni = some frame)
    (hraw : isNodeInfoFor pb ni.nodeNum raw = true) : ∃ raw', mergeNodeInfoUser pb now raw ni = some raw' := by
  have hdec : ∃ id old rest, pb.unmarshalFromRadio raw = some ⟨id, .nodeInfo old, rest⟩ := by
    unfold isNodeInfoFor nodeInfoOf at hraw
    split at hraw
    · rename_i v hv
      split at hv
      · rename_i id old rest hold
        exact ⟨id, old, rest, hold⟩
      · cases hv
    · cases hraw
  obtain ⟨id, old, rest, hold⟩ := hdec
  unfold mergeNodeInfoUser
  simp only [hold]
  refine hul raw _ old _ _ now frame (mergeUser pb ni (old.user.getD {})) hold rfl hb rfl ?_ rfl
  cases hu : ni.isUnmessagable with
  | none => exact .inr (by simp [mergeUser, hu])
  | some b => exact .inl (by simp [mergeUser, hu])

/-! ## The change to the cache -/

variable (pb)

/-- the change an upsert makes: the first NodeInfo frame of the node is merged over; or, when there is none, one frame
is added, before the last frame if that is a config_complete_id and after it if not -/
inductive UpsertEffect (now : UInt32) (ni : NodeInfoData) : List Bytes → List Bytes → Prop where
  | merge {before after : List Bytes} {raw raw' : Bytes}
      (hfirst : ∀ f ∈ before, isNodeInfoFor pb ni.nodeNum f = false) (hraw : isNodeInfoFor pb ni.nodeNum raw = true)
      (hmerged : Merged pb now ni raw raw') :
      UpsertEffect now ni (before ++ raw :: after) (before ++ raw' :: after)
  | insert {before : List Bytes} {last frame : Bytes}
      (hnone : ∀ f ∈ before ++ [last], isNodeInfoFor pb ni.nodeNum f = false)
      (hlast : isConfigCompleteFrame pb last = true) (hframe : Built pb now ni frame) :
      UpsertEffect now ni (before ++ [last]) (before ++ [frame, last])
  | append {before : List Bytes} {last frame : Bytes}
      (hnone : ∀ f ∈ before ++ [last], isNodeInfoFor pb ni.nodeNum f = false)
      (hlast : isConfigCompleteFrame pb last = false) (hframe : Built pb now ni frame) :
      UpsertEffect now ni (before ++ [last]) (before ++ [last, frame])

variable {pb} {cache : List Bytes}

theorem upsertFrames_effect (hrt : pb.RoundTrip) (hul : pb.UserLaw) (h0 : ni.nodeNum ≠ 0)
    (hb : buildNodeInfoFrame pb now ni = some frame) (hne : cache ≠ []) :
    UpsertEffect pb now ni cache (upsertFrames pb now ni cache) := by
  have hbuilt := buildNodeInfoFrame_built hrt hb
  rcases split_nodeInfoFor pb ni.nodeNum hne with
    ⟨before, raw, after, rfl, hfirst, hraw⟩ | ⟨before, last, rfl, hnone⟩
  · obtain ⟨raw', hm⟩ := mergeNodeInfoUser_some hul hb hraw
    rw [upsertFrames_found h0 hb hfirst hraw, hm]
    exact .merge hfirst hraw (mergeNodeInfoUser_merged hrt hm)
  · rw [upsertFrames_absent h0 hb hnone]
    by_cases hlast : isConfigCompleteFrame pb last = true
    · rw [if_pos hlast]
      exact .insert hnone hlast hbuilt
    · rw [if_neg hlast, List.append_assoc]
      exact .append hnone (by simpa using hlast) hbuilt

variable {c : Cache}

theorem upsertCachedNodeInfo_empty (hc : c.Ok) (hempty : c.configCache = []) (now : UInt32) (ni : NodeInfoData) :
    c.upsertCachedNodeInfo pb grow now ni = c := by
  have hlen := (configCache_eq_nil_iff hc).1 hempty
  unfold Cache.upsertCachedNodeInfo
  split_ifs
  · rfl
  · split
    · rfl
    · rfl

/-- **The upsert.** On every non-empty cache, whatever its frames are, and for every node number other than 0 whose data
can be marshalled, `UpsertCachedNodeInfo` changes the cache in exactly one way: the first NodeInfo frame of the node is
merged over, or one frame is added in front of a final config_complete_id or else at the end. Nil data, number 0 and an
empty cache change nothing. -/
theorem upsert_spec (pb : Codec) (hrt : pb.RoundTrip) (hul : pb.UserLaw) (grow : ℕ → ℕ) (now : UInt32) (c : Cache)
    (hc : c.Ok) :
    (∀ ni frame, ni.nodeNum ≠ 0 → buildNodeInfoFrame pb now ni = some frame → c.configCache ≠ [] →
      UpsertEffect pb now ni c.configCache (c.upsertNodeInfo pb grow now (some ni)).configCache) ∧
    c.upsertNodeInfo pb grow now none = c ∧
    (∀ ni : NodeInfoData, ni.nodeNum = 0 → c.upsertNodeInfo pb grow now (some ni) = c) ∧
    (c.configCache = [] → ∀ ni, c.upsertNodeInfo pb grow now ni = c) := by
  refine ⟨fun ni frame h0 hb hne => ?_, rfl, fun ni h0 => if_pos h0, fun hempty ni => ?_⟩
  · rw [Cache.upsertNodeInfo, configCache_upsert pb grow hc]
    exact upsertFrames_effect hrt hul h0 hb hne
  · cases ni with
    | none => rfl
    | some ni => exact upsertCachedNodeInfo_empty grow hc hempty now ni

/-! ### Node 9 in the cache -/

/-- a my_info, and two NODEINFO_APP packets of node 9: with hw_model 0 and with one the generated code does not declare -/
def keyPackets : List (Bytes × FromRadio) :=
  [(myInfoFrame, { variant := .myInfo 1 [] }), identityPacket 9 (keyUserBytes 0 [1, 2]),
    identityPacket 9 (keyUserBytes 250 [1, 2])]

abbrev keyCodec : Codec := identityCodec keyPackets

/-- the NodeInfo frame of node 9 in the node's database -/
def keyFrame : Bytes := field 0x22 (keyInfoBytes 9 0 [3] 5)

/-- a download with it -/
def keyCache : Cache :=
  run (step keyCodec doubling) .new [.frame 1 myInfoFrame, .frame 1 keyFrame, .frame 1 (configCompleteBytes 5)]

def keyData : NodeInfoData :=
  { nodeNum := 9, shortName := "", longName := "", userID := "", hwModel := "UNSET", role := "CLIENT",
    isLicensed := false, publicKey := [1, 2], macaddr := [], isUnmessagable := none }

/-- the frame of node 9 is the one that is merged over -/
theorem upsert_spec_nine :
    (keyCache.upsertNodeInfo keyCodec doubling 1 (some keyData)).configCache =
      [myInfoFrame, field 0x22 (keyInfoBytes 9 0 [1, 2] 1), configCompleteBytes 5] ∧
    UpsertEffect keyCodec 1 keyData keyCache.configCache
      (keyCache.upsertNodeInfo keyCodec doubling 1 (some keyData)).configCache :=
  ⟨by decide +kernel, (upsert_spec keyCodec (identityCodec_roundTrip keyPackets)
    (identityCodec_userLaw keyPackets (by simp [keyPackets, identityPacket])) doubling 1 keyCache
    (run_ok keyCodec doubling _)).1 keyData (field 0x22 (keyInfoBytes 9 0 [1, 2] 1)) (by decide) (by decide +kernel)
    (by decide +kernel)⟩

/-! ## A node's identity through the cache -/

/-- the user that arrives is the one that was sent -/
structure SameIdentity (u w : User) : Prop where
  id : w.id = u.id
  shortName : w.shortName = u.shortName
  longName : w.longName = u.longName
  hwModel : w.hwModel = u.hwModel
  role : w.role = u.role
  isLicensed : w.isLicensed = u.isLicensed
  publicKey : w.publicKey = u.publicKey
  macaddr : w.macaddr = u.macaddr
  isUnmessagable : ∀ b, u.isUnmessagable = some b → w.isUnmessagable = some b

variable (pb)

/-- the user in the first NodeInfo frame of a node -/
def firstUser (num : UInt32) (frames : List Bytes) : Option User :=
  (nodeInfosOf pb num frames).head?.bind fun v => v.user

/-- what `ExtractNodeInfo` makes of a node's User -/
def broadcastData (num : UInt32) (user : User) : NodeInfoData :=
  { nodeNum := num, shortName := user.shortName, longName := user.longName, userID := user.id,
    hwModel := pb.hwModelString user.hwModel, role := pb.roleString user.role, isLicensed := user.isLicensed,
    publicKey := user.publicKey, macaddr := user.macaddr, isUnmessagable := user.isUnmessagable }

variable {pb}

theorem extractNodeInfo_user {payload : Bytes} {pkt : MeshPacket} {d : Data} {u : User}
    (hp : extractDecodedPacket pb payload PortNum.nodeinfoApp = some (pkt, d)) (hu : pb.unmarshalUser d.payload = some u)
    (h0 : pkt.from_ ≠ 0) : extractNodeInfo pb payload = some (broadcastData pb pkt.from_ u) := by
  unfold extractNodeInfo
  simp only [hp, hu, if_neg h0]
  rfl

/-- the data of a packet is some user's, and the node is not 0 -/
theorem extractNodeInfo_broadcast {payload : Bytes} (h : extractNodeInfo pb payload = some ni) :
    ni.nodeNum ≠ 0 ∧ ∃ bs u, pb.unmarshalUser bs = some u ∧ ni = broadcastData pb ni.nodeNum u := by
  unfold extractNodeInfo at h
  split at h
  · cases h
  · split at h
    · cases h
    · rename_i u hu
      split_ifs at h with h0
      cases h
      exact ⟨h0, _, u, hu, rfl⟩

/-- and can be marshalled -/
theorem buildNodeInfoFrame_some (henc : pb.EncodesUsers) {payload : Bytes} (h : extractNodeInfo pb payload = some ni)
    (now : UInt32) : ∃ frame, buildNodeInfoFrame pb now ni = some frame := by
  obtain ⟨-, bs, u, hu, hni⟩ := extractNodeInfo_broadcast h
  rw [hni]
  exact henc bs u hu ni.nodeNum now (pb.hwModelString u.hwModel) (pb.roleString u.role)

/-- the user is the first of the node's when no frame before its frame is the node's -/
theorem firstUser_append_cons {num : UInt32} {before after : List Bytes} {v : NodeInfo}
    (hfirst : ∀ f ∈ before, isNodeInfoFor pb num f = false) (hv : nodeInfoOf pb frame = some v) (hnum : v.num = num) :
    firstUser pb num (before ++ frame :: after) = v.user := by
  have hbefore : nodeInfosOf pb num before = [] := by
    rw [nodeInfosOf_eq_nil_iff]
    intro f hf
    simp [hfirst f hf]
  have hframe : nodeInfosOf pb num [frame] = [v] := by simp [nodeInfosOf, hv, hnum]
  rw [firstUser, nodeInfosOf_append, nodeInfosOf_cons, hbefore, hframe]
  rfl

theorem Built.user (h : Built pb now ni frame) :
    ∃ v w, nodeInfoOf pb frame = some v ∧ v.num = ni.nodeNum ∧ v.user = some w ∧ Carried pb ni w := by
  obtain ⟨w, hdec, hw⟩ := h
  exact ⟨_, w, by rw [nodeInfoOf, hdec], rfl, rfl, hw⟩

theorem Merged.user {raw' : Bytes} (hraw : isNodeInfoFor pb ni.nodeNum raw = true) (h : Merged pb now ni raw raw') :
    ∃ v w, nodeInfoOf pb raw' = some v ∧ v.num = ni.nodeNum ∧ v.user = some w ∧ Carried pb ni w := by
  obtain ⟨id, old, rest, w, hold, hdec, hw, -, -⟩ := h
  have hnum : old.num = ni.nodeNum := by simpa [isNodeInfoFor, nodeInfoOf, hold] using hraw
  exact ⟨{ old with user := some w, lastHeard := now }, w, by rw [nodeInfoOf, hdec], hnum, rfl, hw⟩

/-- both write paths leave a first frame whose user carries the data -/
theorem upsertFrames_firstUser (hrt : pb.RoundTrip) (h0 : ni.nodeNum ≠ 0)
    (hb : buildNodeInfoFrame pb now ni = some frame) (hne : cache ≠ []) :
    ∃ w, firstUser pb ni.nodeNum (upsertFrames pb now ni cache) = some w ∧ Carried pb ni w := by
  have hbuilt := buildNodeInfoFrame_built hrt hb
  rcases split_nodeInfoFor pb ni.nodeNum hne with
    ⟨before, raw, after, rfl, hfirst, hraw⟩ | ⟨before, last, rfl, hnone⟩
  · have hwritten : ∃ v w, nodeInfoOf pb ((mergeNodeInfoUser pb now raw ni).getD frame) = some v ∧
        v.num = ni.nodeNum ∧ v.user = some w ∧ Carried pb ni w := by
      cases hm : mergeNodeInfoUser pb now raw ni with
      | none => exact hbuilt.user
      | some raw' => exact (mergeNodeInfoUser_merged hrt hm).user hraw
    obtain ⟨v, w, hv, hnum, hw, hcarried⟩ := hwritten
    refine ⟨w, ?_, hcarried⟩
    rw [upsertFrames_found h0 hb hfirst hraw, firstUser_append_cons hfirst hv hnum, hw]
  · obtain ⟨v, w, hv, hnum, hw, hcarried⟩ := hbuilt.user
    refine ⟨w, ?_, hcarried⟩
    rw [upsertFrames_absent h0 hb hnone]
    split_ifs
    · rw [firstUser_append_cons (fun f hf => hnone f (List.mem_append_left _ hf)) hv hnum, hw]
    · rw [firstUser_append_cons hnone hv hnum, hw]

/-- a user that carries a broadcast is the broadcast's user when the enum numbers survive their texts -/
theorem Carried.sameIdentity_iff {num : UInt32} {u w : User} (h : Carried pb (broadcastData pb num u) w) :
    SameIdentity u w ↔
      pb.hwModelValue (pb.hwModelString u.hwModel) = u.hwModel ∧ pb.roleValue (pb.roleString u.role) = u.role := by
  constructor
  · intro hs
    exact ⟨h.hwModel.symm.trans hs.hwModel, h.role.symm.trans hs.role⟩
  · rintro ⟨hhw, hrole⟩
    exact ⟨h.id, h.shortName, h.longName, h.hwModel.trans hhw, h.role.trans hrole, h.isLicensed, h.publicKey,
      h.macaddr, h.isUnmessagable⟩

/-- **Identity through the cache.** After a NODEINFO_APP packet of a node other than 0, on a non-empty cache, the first
NodeInfo frame of the node has the packet's user exactly when the generated code declares the user's hw_model and
role. -/
theorem identity_through_cache_iff (pb : Codec) (hrt : pb.RoundTrip) (henc : pb.EncodesUsers)
    {hwNames roleNames : ℤ → Option String} (hhw : EnumTable pb.hwModelString pb.hwModelValue hwNames)
    (hrole : EnumTable pb.roleString pb.roleValue roleNames) (grow : ℕ → ℕ) (now : UInt32) (c : Cache) (hc : c.Ok)
    (hne : c.configCache ≠ []) (payload : Bytes) (pkt : MeshPacket) (d : Data) (u : User)
    (hp : extractDecodedPacket pb payload PortNum.nodeinfoApp = some (pkt, d)) (hu : pb.unmarshalUser d.payload = some u)
    (h0 : pkt.from_ ≠ 0) :
    (∃ w, firstUser pb pkt.from_ (c.onNodeInfo pb grow now payload).configCache = some w ∧ SameIdentity u w) ↔
      (hwNames u.hwModel).isSome ∧ (roleNames u.role).isSome := by
  have hdata := extractNodeInfo_user hp hu h0
  have hnum : (broadcastData pb pkt.from_ u).nodeNum ≠ 0 := h0
  obtain ⟨frame, hb⟩ := buildNodeInfoFrame_some henc hdata now
  obtain ⟨w, hfirst, hcarried⟩ := upsertFrames_firstUser hrt hnum hb hne
  have hcache : (c.onNodeInfo pb grow now payload).configCache =
      upsertFrames pb now (broadcastData pb pkt.from_ u) c.configCache := by
    rw [Cache.onNodeInfo, hdata]
    exact configCache_upsert pb grow hc now _
  rw [hcache, ← hhw.value_string, ← hrole.value_string, ← hcarried.sameIdentity_iff]
  constructor
  · rintro ⟨w', hw', hsame⟩
    obtain rfl : w = w' := Option.some.inj (hfirst.symm.trans hw')
    exact hsame
  · exact fun hsame => ⟨w, hfirst, hsame⟩

/-! ### Node 9 on hardware 250 -/

def packetOf (user : Bytes) : MeshPacket :=
  { from_ := 9, variant := .decoded { portnum := PortNum.nodeinfoApp, payload := user } }

/-- with known numbers the user arrives -/
theorem identity_through_cache_known :
    ∃ w, firstUser keyCodec 9 (keyCache.onNodeInfo keyCodec doubling 1
        (identityPacket 9 (keyUserBytes 0 [1, 2])).1).configCache = some w ∧
      SameIdentity (keyUser 0 [1, 2]) w :=
  (identity_through_cache_iff keyCodec (identityCodec_roundTrip keyPackets) (identityCodec_encodesUsers keyPackets)
    (identityCodec_hwModel keyPackets) (identityCodec_role keyPackets) doubling 1 keyCache (run_ok keyCodec doubling _)
    (by decide +kernel) (identityPacket 9 (keyUserBytes 0 [1, 2])).1 (packetOf (keyUserBytes 0 [1, 2]))
    { portnum := PortNum.nodeinfoApp, payload := keyUserBytes 0 [1, 2] } (keyUser 0 [1, 2]) (by decide +kernel)
    (by decide +kernel) (by decide)).2 (by decide)

/-- an undeclared hw_model arrives as 0 -/
theorem identity_lost_through_cache :
    keyCache.configCache ≠ [] ∧
    extractDecodedPacket keyCodec (identityPacket 9 (keyUserBytes 250 [1, 2])).1 PortNum.nodeinfoApp =
      some (packetOf (keyUserBytes 250 [1, 2]),
        { portnum := PortNum.nodeinfoApp, payload := keyUserBytes 250 [1, 2] }) ∧
    (packetOf (keyUserBytes 250 [1, 2])).from_ ≠ 0 ∧
    keyCodec.unmarshalUser (keyUserBytes 250 [1, 2]) = some (keyUser 250 [1, 2]) ∧
    ¬ ∃ w, firstUser keyCodec 9 (keyCache.onNodeInfo keyCodec doubling 1
        (identityPacket 9 (keyUserBytes 250 [1, 2])).1).configCache = some w ∧
      SameIdentity (keyUser 250 [1, 2]) w := by
  refine ⟨by decide +kernel, by decide +kernel, by decide, by decide +kernel, ?_⟩
  have harrives : firstUser keyCodec 9 (keyCache.onNodeInfo keyCodec doubling 1
      (identityPacket 9 (keyUserBytes 250 [1, 2])).1).configCache = some (keyUser 0 [1, 2]) := by
    decide +kernel
  rintro ⟨w, hw, hsame⟩
  rw [harrives] at hw
  cases hw
  exact absurd hsame.hwModel (by decide)

end MeshProxy.ConfigCache
