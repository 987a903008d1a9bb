/-
Node 0 in the directory. A packet whose From is 0 has an unknown sender; signal, identity and directory extraction leave
it out, position and telemetry extraction do not (`internal/node/extract.go`), and updateNodeEntry creates an entry for
whatever number it gets.

- `extractSignal_known`, `extractNodeInfo_known`, `extractNodeDirectory_known`: the three paths with a check;
- `extractPosition_unknown_iff`, `extractTelemetry_unknown_iff`: the two without;
- `onFrame_noUnknown_iff`: a round keeps node 0 out exactly when its frame is not `Unchecked`;
- `node_zero_iff`: a run has no node 0 in any state exactly when none of its frames is.
-/
import MeshProxy.Node.ReadLoop

namespace MeshProxy.UnknownSender

open MeshProxy.Proto MeshProxy.Decode MeshProxy.ReadLoop MeshProxy.Store MeshProxy.Trace
open MeshProxy.ConfigCache (doubling)
open MeshProxy.Frame (Bytes)

variable (pb : Codec) (grow : ℕ → ℕ)

/-- the directory has no entry for node 0 -/
def NoUnknown (s : Conn) : Prop := s.metrics.nodeDir.get? 0 = none

/-- a Position with a coordinate other than zero -/
def isPosition (data : Data) : Prop :=
  ∃ pos, pb.unmarshalPosition data.payload = some pos ∧ ¬(pos.latitudeI = 0 ∧ pos.longitudeI = 0)

/-- device or environment metrics -/
def isTelemetry (data : Data) : Prop :=
  (∃ dm, pb.unmarshalTelemetry data.payload = some (.deviceMetrics dm)) ∨
    ∃ em, pb.unmarshalTelemetry data.payload = some (.environmentMetrics em)

/-- a position or telemetry packet of an unknown sender -/
def Unchecked (payload : Bytes) : Prop :=
  ∃ pkt data, pkt.from_ = 0 ∧
    (extractDecodedPacket pb payload PortNum.positionApp = some (pkt, data) ∧ isPosition pb data ∨
      extractDecodedPacket pb payload PortNum.telemetryApp = some (pkt, data) ∧ isTelemetry pb data)

/-- the frame of a step is not one -/
def Checked : Act → Prop
  | .frame _ _ payload => ¬Unchecked pb payload
  | .send _ _ => True
  | .reconnect => True

/-! ## The extraction paths -/

section Paths

variable {pb} {payload : Bytes}

theorem extractSignal_known {u : SignalUpdate} (h : extractSignal pb payload = some u) : u.nodeNum ≠ 0 := by
  unfold extractSignal at h
  split at h
  · split_ifs at h with hbad
    cases h
    exact fun h0 => hbad (.inl h0)
  · cases h

theorem extractNodeInfo_known {ni : NodeInfoData} (h : extractNodeInfo pb payload = some ni) : ni.nodeNum ≠ 0 := by
  unfold extractNodeInfo at h
  split at h
  · cases h
  · split at h
    · cases h
    · split_ifs at h with h0
      cases h
      exact h0

theorem directoryStep_known {dir : Directory} (h : dir.get? 0 = none) (frame : Bytes) :
    (directoryStep pb dir frame).get? 0 = none := by
  unfold directoryStep
  split
  · exact h
  · rename_i ni _
    split_ifs with h0
    · exact h
    · rw [GoMap.get?_set, if_neg fun he => h0 he.symm, h]

theorem extractNodeDirectory_known (frames : List Bytes) : (extractNodeDirectory pb frames).get? 0 = none := by
  unfold extractNodeDirectory
  induction frames using List.reverseRecOn with
  | nil => rfl
  | append_singleton frames frame ih =>
    rw [List.foldl_append]
    exact directoryStep_known ih frame

theorem extractPosition_unknown_iff :
    (∃ u, extractPosition pb payload = some u ∧ u.nodeNum = 0) ↔
      ∃ pkt data, extractDecodedPacket pb payload PortNum.positionApp = some (pkt, data) ∧ isPosition pb data ∧
        pkt.from_ = 0 := by
  unfold extractPosition isPosition
  cases extractDecodedPacket pb payload PortNum.positionApp with
  | none => simp
  | some r =>
    obtain ⟨pkt, data⟩ := r
    cases hpos : pb.unmarshalPosition data.payload with
    | none => simp [hpos]
    | some pos =>
      by_cases hzero : pos.latitudeI = 0 ∧ pos.longitudeI = 0
      · simp [hpos, hzero]
      · simp only [hpos, if_neg hzero, Option.some.injEq, exists_eq_left', Prod.mk.injEq]
        exact ⟨fun h0 => ⟨pkt, data, ⟨rfl, rfl⟩, ⟨pos, hpos, hzero⟩, h0⟩, fun ⟨_, _, ⟨h, _⟩, _, h0⟩ => h ▸ h0⟩

theorem extractTelemetry_unknown_iff :
    (∃ u, extractTelemetry pb payload = some u ∧ u.nodeNum = 0) ↔
      ∃ pkt data, extractDecodedPacket pb payload PortNum.telemetryApp = some (pkt, data) ∧ isTelemetry pb data ∧
        pkt.from_ = 0 := by
  unfold extractTelemetry isTelemetry
  cases extractDecodedPacket pb payload PortNum.telemetryApp with
  | none => simp
  | some r =>
    obtain ⟨pkt, data⟩ := r
    cases htel : pb.unmarshalTelemetry data.payload with
    | none => simp [htel]
    | some tel => cases tel <;> simp [htel]

/-- an unchecked frame is one that an extraction takes for an update of node 0 -/
theorem unchecked_iff :
    Unchecked pb payload ↔ (∃ u, extractPosition pb payload = some u ∧ u.nodeNum = 0) ∨
      ∃ u, extractTelemetry pb payload = some u ∧ u.nodeNum = 0 := by
  rw [extractPosition_unknown_iff, extractTelemetry_unknown_iff]
  constructor
  · rintro ⟨pkt, data, h0, ⟨hp, hpos⟩ | ⟨hp, htel⟩⟩
    · exact Or.inl ⟨pkt, data, hp, hpos, h0⟩
    · exact Or.inr ⟨pkt, data, hp, htel, h0⟩
  · rintro (⟨pkt, data, hp, hpos, h0⟩ | ⟨pkt, data, hp, htel, h0⟩)
    · exact ⟨pkt, data, h0, Or.inl ⟨hp, hpos⟩⟩
    · exact ⟨pkt, data, h0, Or.inr ⟨hp, htel⟩⟩

theorem Unchecked.packet (h : Unchecked pb payload) : (decodeFromRadio pb payload).type = .packet := by
  obtain ⟨pkt, data, -, ⟨hp, -⟩ | ⟨hp, -⟩⟩ := h
  · obtain ⟨id, rest, hu, -, -⟩ := extractDecodedPacket_some pb hp
    exact packet_type hu
  · obtain ⟨id, rest, hu, -, -⟩ := extractDecodedPacket_some pb hp
    exact packet_type hu

end Paths

/-! ## One round -/

section Round

variable {pb} {s : Conn} {payload : Bytes}

theorem updateNodeEntry_absent (m : Metrics) (now num : UInt32) (f : NodeEntry → NodeEntry) (k : UInt32) :
    (m.updateNodeEntry now num f).1.nodeDir.get? k = none ↔ num ≠ k ∧ m.nodeDir.get? k = none := by
  simp only [Metrics.updateNodeEntry, GoMap.get?_set]
  by_cases hk : k = num
  · simp [hk]
  · simp [hk, Ne.symm hk]

/-- a position update lets node 0 in exactly when it is one of node 0 -/
theorem onPosition_noUnknown_iff (now : UInt32) :
    NoUnknown (s.onPosition pb now payload) ↔
      (¬∃ u, extractPosition pb payload = some u ∧ u.nodeNum = 0) ∧ NoUnknown s := by
  unfold Conn.onPosition
  cases extractPosition pb payload with
  | none => simp
  | some u =>
    have hdir := updateNodeEntry_absent s.metrics now u.nodeNum (Metrics.applyPosition u) 0
    simpa [NoUnknown, Metrics.updateNodePosition, Metrics.publish] using hdir

theorem onTelemetry_noUnknown_iff (now : UInt32) :
    NoUnknown (s.onTelemetry pb now payload) ↔
      (¬∃ u, extractTelemetry pb payload = some u ∧ u.nodeNum = 0) ∧ NoUnknown s := by
  unfold Conn.onTelemetry
  cases extractTelemetry pb payload with
  | none => simp
  | some u =>
    have hdir := updateNodeEntry_absent s.metrics now u.nodeNum (Metrics.applyTelemetry u) 0
    simpa [NoUnknown, Metrics.updateNodeTelemetry, Metrics.publish] using hdir

theorem onSignal_noUnknown (now : UInt32) : NoUnknown (s.onSignal pb now payload) ↔ NoUnknown s := by
  unfold Conn.onSignal
  cases h : extractSignal pb payload with
  | none => rfl
  | some u =>
    have hdir := updateNodeEntry_absent s.metrics now u.nodeNum (Metrics.applySignal u) 0
    simpa [NoUnknown, Metrics.updateNodeSignal, Metrics.publish, extractSignal_known h] using hdir

theorem onNodeInfo_noUnknown (now : UInt32) : NoUnknown (s.onNodeInfo pb grow now payload) ↔ NoUnknown s := by
  unfold Conn.onNodeInfo
  cases h : extractNodeInfo pb payload with
  | none => rfl
  | some ni =>
    have hdir := updateNodeEntry_absent s.metrics now ni.nodeNum (Metrics.applyNodeInfo (Conn.nodeInfoUpdate ni)) 0
    simpa [NoUnknown, Metrics.upsertNode, Metrics.publish, Conn.nodeInfoUpdate, extractNodeInfo_known h] using hdir

theorem onChat_noUnknown : NoUnknown (s.onChat pb payload) ↔ NoUnknown s := by
  unfold Conn.onChat
  split <;> rfl

theorem onTraceroute_noUnknown : NoUnknown (s.onTraceroute pb payload) ↔ NoUnknown s := by
  unfold Conn.onTraceroute
  split <;> rfl

theorem onUpdates_noUnknown_iff (now : UInt32) :
    NoUnknown (s.onUpdates pb grow now payload) ↔ ¬Unchecked pb payload ∧ NoUnknown s := by
  unfold Conn.onUpdates
  rw [onTraceroute_noUnknown, onNodeInfo_noUnknown, onChat_noUnknown, onSignal_noUnknown, onTelemetry_noUnknown_iff,
    onPosition_noUnknown_iff, unchecked_iff, not_or]
  tauto

/-- the config switch keeps the directory, or replaces it by one without node 0 -/
theorem onConfig_noUnknown (room : Bool) (h : NoUnknown s) : NoUnknown (s.onConfig pb grow room payload) := by
  unfold Conn.onConfig
  simp only
  split_ifs
  · rw [NoUnknown, sendPostConfigHeartbeat_nodeDir]
    simp [Metrics.setNodeDirectory, Metrics.publish, extractNodeDirectory_known]
  · exact h

/-- **A round keeps node 0 out exactly when its frame has a known sender, or is no position or telemetry.** -/
theorem onFrame_noUnknown_iff (h : NoUnknown s) (now : UInt32) (room : Bool) :
    NoUnknown (s.onFrame pb grow now room payload) ↔ ¬Unchecked pb payload := by
  constructor
  · intro hafter hbad
    have ht : (decodeFromRadio pb payload).type ≠ .configCompleteId := by
      rw [hbad.packet]
      decide
    rw [Conn.onFrame, NoUnknown, onConfig_metrics grow room ht] at hafter
    exact ((onUpdates_noUnknown_iff grow now).1 hafter).1 hbad
  · intro hok
    exact onConfig_noUnknown grow room ((onUpdates_noUnknown_iff grow now).2 ⟨hok, h⟩)

theorem step_noUnknown_iff (h : NoUnknown s) (a : Act) : NoUnknown (step pb grow s a) ↔ Checked pb a := by
  cases a with
  | frame now room payload => exact onFrame_noUnknown_iff grow h now room
  | send room payload =>
    refine iff_of_true ?_ trivial
    rw [NoUnknown, step, send_nodeDir]
    exact h
  | reconnect => exact iff_of_true h trivial

end Round

/-! ## Every run -/

/-- **Node 0.** Over any run of frames, sends and reconnects from the start, the directory never has an entry for node 0
exactly when no frame of the run is a position or telemetry packet of an unknown sender. -/
theorem node_zero_iff (maxMessages : ℤ) (as : List Act) :
    (∀ bs, bs <+: as → NoUnknown (run (step pb grow) (.new maxMessages) bs)) ↔ ∀ a ∈ as, Checked pb a := by
  refine Iff.trans (prefixes_iff_along (I := NoUnknown) (P := fun _ a => Checked pb a) (fun _ h => h) ?_ ?_ rfl)
    along_iff_forall_mem
  · intro s a h ha
    exact (step_noUnknown_iff grow h a).2 ha
  · intro s a h hna hs
    exact hna ((step_noUnknown_iff grow h a).1 hs)

/-- the telemetry packet of `fourVolts` without a From -/
def unknownFrame : Bytes := [0x12, 0x0D, 0x22, 0x0B, 8, 0x43, 0x12, 7] ++ telemetryPayload fourVolts

def unknownMsg : FromRadio :=
  { variant := .packet
      { from_ := 0, variant := .decoded { portnum := PortNum.telemetryApp, payload := telemetryPayload fourVolts } } }

def unknownCodec : Codec :=
  tableCodec [(unknownFrame, unknownMsg)] [] [(telemetryPayload fourVolts, .deviceMetrics { voltage := ⟨0x40800000#32⟩ })]

/-- one such packet, and the directory lists node 0 -/
theorem unknown_sender_listed :
    (run (step unknownCodec doubling) (.new 100) [.frame 1 true unknownFrame]).metrics.nodeDir.keys = [0] ∧
      ¬NoUnknown (run (step unknownCodec doubling) (.new 100) [.frame 1 true unknownFrame]) := by
  unfold NoUnknown
  decide +kernel

end MeshProxy.UnknownSender
