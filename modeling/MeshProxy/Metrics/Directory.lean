/-
Runs of the calls that change the node directory (`internal/metrics/node_directory.go`).

A call is one of SetNodeDirectory, UpdateNodePosition, UpdateNodeTelemetry, UpdateNodeSignal, UpsertNode and SetFavorite;
`call` is its effect on the store. Three things are kept by hand across such calls:
- the relay index. `relay_index_iff`: it agrees with the directory all along a run exactly when every position, telemetry
  or signal update is about a node the directory already has (these updates create an entry and do not index it, and
  UpsertNode then takes the node for a known one);
- the fields that only real-time packets provide. `observed_data_survive_iff`: a replacement keeps them exactly when
  there is nothing to keep but SeenRealtime;
- the user's favourite. `favorite_choice_survives_iff`: it stays unless it was "no" and a replacement reports "yes".
-/
import MeshProxy.Core.Trace
import MeshProxy.Node.Decode

namespace MeshProxy.Store

open MeshProxy.Binary32 MeshProxy.Trace MeshProxy.Proto MeshProxy.Decode
open MeshProxy.Frame (Bytes)

/-! ## Calls -/

inductive Call where
  | setNodeDirectory (dir : Directory)
  | updateNodePosition (now : UInt32) (u : PositionUpdate)
  | updateNodeTelemetry (now : UInt32) (u : TelemetryUpdate)
  | updateNodeSignal (now : UInt32) (u : SignalUpdate)
  | upsertNode (now : UInt32) (u : NodeInfoUpdate)
  | setFavorite (nodeNum : UInt32) (fav : Bool)

def call (m : Metrics) : Call → Metrics
  | .setNodeDirectory dir => m.setNodeDirectory dir
  | .updateNodePosition now u => m.updateNodePosition now u
  | .updateNodeTelemetry now u => m.updateNodeTelemetry now u
  | .updateNodeSignal now u => m.updateNodeSignal now u
  | .upsertNode now u => m.upsertNode now u
  | .setFavorite nodeNum fav => (m.setFavorite nodeNum fav).1

/-- the entry a real-time update starts from: the node's, or a fresh one, marked as seen -/
def touched (dir : Directory) (now nodeNum : UInt32) : NodeEntry :=
  { (dir.get? nodeNum).getD {} with seenRealtime := true, lastHeard := now }

/-- the one entry a call assigns; a replacement assigns all of them, SetFavorite none when the node is missing -/
def Call.assigns (dir : Directory) : Call → Option (UInt32 × NodeEntry)
  | .setNodeDirectory _ => none
  | .updateNodePosition now u => some (u.nodeNum, Metrics.applyPosition u (touched dir now u.nodeNum))
  | .updateNodeTelemetry now u => some (u.nodeNum, Metrics.applyTelemetry u (touched dir now u.nodeNum))
  | .updateNodeSignal now u => some (u.nodeNum, Metrics.applySignal u (touched dir now u.nodeNum))
  | .upsertNode now u => some (u.nodeNum, Metrics.applyNodeInfo u (touched dir now u.nodeNum))
  | .setFavorite nodeNum fav => (dir.get? nodeNum).map fun entry => (nodeNum, { entry with isFavorite := fav })

/-- the directory after an assignment -/
def assign (dir : Directory) : Option (UInt32 × NodeEntry) → Directory
  | none => dir
  | some (nodeNum, entry) => dir.set nodeNum entry

/-- the directory a replacement installs -/
def merged (old dir : Directory) : Directory := dir.mapVal fun num e => Metrics.keepRuntime (old.get? num) e

theorem call_nodeDir_replace (m : Metrics) (dir : Directory) :
    (call m (.setNodeDirectory dir)).nodeDir = merged m.nodeDir dir := rfl

/-- any other call assigns one entry -/
theorem call_nodeDir_update {c : Call} (hc : ∀ dir, c ≠ .setNodeDirectory dir) (m : Metrics) :
    (call m c).nodeDir = assign m.nodeDir (c.assigns m.nodeDir) := by
  cases c with
  | setNodeDirectory dir => exact absurd rfl (hc dir)
  | setFavorite nodeNum fav =>
    simp only [call, Metrics.setFavorite, Call.assigns]
    cases m.nodeDir.get? nodeNum <;> rfl
  | _ => rfl

/-- the node of a position, telemetry or signal update -/
def Call.observes : Call → Option UInt32
  | .updateNodePosition _ u => some u.nodeNum
  | .updateNodeTelemetry _ u => some u.nodeNum
  | .updateNodeSignal _ u => some u.nodeNum
  | _ => none

/-! ## The relay index -/

namespace Metrics

/-- `NodeDirectory`: a copy of the live directory -/
def nodeDirectory (m : Metrics) : Directory := m.nodeDir

/-- `ResolveRelay` -/
def resolveRelay (m : Metrics) (relayByte : UInt8) : List NodeEntry := (m.relayDir relayByte).filterMap m.nodeDir.get?

/-- ResolveRelay gives, up to order, the entries of NodeDirectory with that last byte, each once -/
def RelayAgrees (m : Metrics) : Prop :=
  ∀ b : UInt8, (m.resolveRelay b).Perm
    ((m.nodeDirectory.keys.filter fun n => n.toNat % 256 = b.toNat).filterMap m.nodeDirectory.get?)

/-- the index lists, for each byte, the directory's nodes with that last byte -/
def Indexed (m : Metrics) : Prop := ∀ b, (m.relayDir b).Perm (m.nodeDir.keys.filter fun n => relayKey n = b)

theorem relayKey_eq_iff (n : UInt32) (b : UInt8) : relayKey n = b ↔ n.toNat % 256 = b.toNat := by
  have hand : n.toNat % 256 &&& 255 = n.toNat % 256 % 256 := Nat.and_two_pow_sub_one_eq_mod (n.toNat % 256) 8
  rw [← UInt8.toNat_inj]
  simp [relayKey, hand]

theorem Indexed.agrees {m : Metrics} (h : m.Indexed) : m.RelayAgrees := by
  intro b
  have hb := (h b).filterMap m.nodeDir.get?
  simpa only [relayKey_eq_iff, resolveRelay, nodeDirectory] using hb

/-- the entries of a list of known nodes -/
theorem length_filterMap_get? {dir : Directory} {l : List UInt32} (h : ∀ n ∈ l, n ∈ dir.keys) :
    (l.filterMap dir.get?).length = l.length := by
  induction l with
  | nil => rfl
  | cons n l ih =>
    obtain ⟨e, he⟩ := Option.isSome_iff_exists.1 ((dir.mem_keys n).1 (h n List.mem_cons_self))
    rw [List.filterMap_cons_some he, List.length_cons, List.length_cons, ih fun k hk => h k (List.mem_cons_of_mem n hk)]

/-- an entry that is not indexed is missing from ResolveRelay -/
theorem Indexed.not_agrees {m m' : Metrics} (h : m.Indexed) {n : UInt32} (hn : n ∉ m.nodeDir.keys) {e : NodeEntry}
    (hdir : m'.nodeDir = m.nodeDir.set n e) (hrel : m'.relayDir = m.relayDir) : ¬m'.RelayAgrees := by
  intro hagree
  have hlen := (hagree (relayKey n)).length_eq
  have hkeys : m'.nodeDirectory.keys = m.nodeDir.keys ++ [n] := by simp [nodeDirectory, hdir, GoMap.set, hn]
  rw [length_filterMap_get? fun k hk => (List.mem_filter.1 hk).1, hkeys, List.filter_append, List.length_append] at hlen
  simp only [← relayKey_eq_iff] at hlen
  have hindex := (h (relayKey n)).length_eq
  have hle : (m'.resolveRelay (relayKey n)).length ≤ (m.relayDir (relayKey n)).length := by
    rw [resolveRelay, hrel]
    exact List.length_filterMap_le _ _
  simp at hlen
  omega

/-- an assignment to a node the directory has -/
theorem Indexed.set {m m' : Metrics} (h : m.Indexed) {n : UInt32} (hn : n ∈ m.nodeDir.keys) {e : NodeEntry}
    (hdir : m'.nodeDir = m.nodeDir.set n e) (hrel : m'.relayDir = m.relayDir) : m'.Indexed := by
  intro b
  have hkeys : m'.nodeDir.keys = m.nodeDir.keys := by simp [hdir, GoMap.set, hn]
  rw [hrel, hkeys]
  exact h b

theorem setNodeDirectory_indexed (m : Metrics) (dir : Directory) : (m.setNodeDirectory dir).Indexed :=
  fun _ => List.Perm.refl _

theorem upsertNode_indexed {m : Metrics} (h : m.Indexed) (now : UInt32) (u : NodeInfoUpdate) :
    (m.upsertNode now u).Indexed := by
  by_cases hn : u.nodeNum ∈ m.nodeDir.keys
  · obtain ⟨e, he⟩ := Option.isSome_iff_exists.1 ((m.nodeDir.mem_keys _).1 hn)
    refine h.set hn rfl ?_
    simp [upsertNode, updateNodeEntry, publish, he]
  · -- the new node goes to the end of the key list and to the end of its index line
    have he : m.nodeDir.get? u.nodeNum = none := by simpa using mt (m.nodeDir.mem_keys _).2 hn
    intro b
    have hkeys : (m.upsertNode now u).nodeDir.keys = m.nodeDir.keys ++ [u.nodeNum] := by
      simp [upsertNode, updateNodeEntry, publish, GoMap.set, hn]
    have hrel : (m.upsertNode now u).relayDir b =
        m.relayDir b ++ [u.nodeNum].filter fun n => relayKey n = b := by
      by_cases hb : relayKey u.nodeNum = b
      · subst hb
        simp [upsertNode, updateNodeEntry, publish, he]
      · have hb' : ¬b = relayKey u.nodeNum := fun hc => hb hc.symm
        simp [upsertNode, updateNodeEntry, publish, he, hb, Function.update_of_ne hb']
    rw [hkeys, hrel, List.filter_append]
    exact (h b).append_right _

theorem setFavorite_indexed {m : Metrics} (h : m.Indexed) (n : UInt32) (fav : Bool) :
    (m.setFavorite n fav).1.Indexed := by
  cases he : m.nodeDir.get? n with
  | none => simpa [setFavorite, he] using h
  | some e =>
    have hn : n ∈ m.nodeDir.keys := (m.nodeDir.mem_keys n).2 (by simp [he])
    have hset : (m.setFavorite n fav).1.nodeDir = m.nodeDir.set n { e with isFavorite := fav } := by
      simp [setFavorite, he, publish]
    exact h.set hn hset (by simp [setFavorite, he, publish])

end Metrics

/-- a position, telemetry or signal update is about a node the directory has -/
def Known (m : Metrics) (c : Call) : Prop := ∀ n, c.observes = some n → n ∈ m.nodeDir.keys

instance (m : Metrics) (c : Call) : Decidable (Known m c) :=
  match h : c.observes with
  | none => isTrue fun n hn => by rw [h] at hn; cases hn
  | some k => decidable_of_iff (k ∈ m.nodeDir.keys)
      ⟨fun hk n hn => by rw [h] at hn; cases hn; exact hk, fun hc => hc k h⟩

/-- such an update assigns one entry and leaves the index as it is -/
theorem call_observes {c : Call} {n : UInt32} (hc : c.observes = some n) (m : Metrics) :
    (∃ e, (call m c).nodeDir = m.nodeDir.set n e) ∧ (call m c).relayDir = m.relayDir := by
  cases c with
  | updateNodePosition now u => cases hc; exact ⟨⟨_, rfl⟩, rfl⟩
  | updateNodeTelemetry now u => cases hc; exact ⟨⟨_, rfl⟩, rfl⟩
  | updateNodeSignal now u => cases hc; exact ⟨⟨_, rfl⟩, rfl⟩
  | _ => cases hc

theorem call_indexed (m : Metrics) (c : Call) (h : m.Indexed) (hc : Known m c) : (call m c).Indexed := by
  cases ho : c.observes with
  | some n =>
    obtain ⟨⟨e, hdir⟩, hrel⟩ := call_observes ho m
    exact h.set (hc n ho) hdir hrel
  | none =>
    cases c with
    | setNodeDirectory dir => exact m.setNodeDirectory_indexed dir
    | upsertNode now u => exact Metrics.upsertNode_indexed h now u
    | setFavorite n fav => exact Metrics.setFavorite_indexed h n fav
    | _ => cases ho

theorem call_not_agrees (m : Metrics) (c : Call) (h : m.Indexed) (hc : ¬Known m c) : ¬(call m c).RelayAgrees := by
  unfold Known at hc
  push Not at hc
  obtain ⟨n, ho, hn⟩ := hc
  obtain ⟨⟨e, hdir⟩, hrel⟩ := call_observes ho m
  exact h.not_agrees hn hdir hrel

/-- **The relay index agrees with the directory** after every prefix of a run of calls from `New`, for every byte,
exactly when each position, telemetry and signal update is about a node that is in the directory at that moment. -/
theorem relay_index_iff (maxMessages : ℤ) (cs : List Call) :
    (∀ bs, bs <+: cs → (run call (new maxMessages) bs).RelayAgrees) ↔ Along call Known (new maxMessages) cs := by
  have h0 : (new maxMessages).Indexed := fun _ => List.Perm.refl _
  exact prefixes_iff_along (fun _ h => h.agrees) call_indexed call_not_agrees h0

/-- a NODEINFO_APP update of node 0x11 -/
def elevenInfo : NodeInfoUpdate where
  nodeNum := 0x11
  shortName := "A"
  longName := "Node A"
  userID := "!11"
  hwModel := "UNSET"
  role := "CLIENT"
  isLicensed := false

/-- a signal update for node 0x11, which then gives its name: the directory has the node, ResolveRelay(0x11) is empty -/
theorem relay_index_misses_node :
    ¬(run call (new 100) [.updateNodeSignal 1 { nodeNum := 0x11, rxRssi := -80, rxSnr := F32.zero },
      .upsertNode 2 elevenInfo]).RelayAgrees := by
  intro h
  exact absurd (h 0x11).length_eq (by decide +kernel)

/-! ## What real-time packets provide -/

/-- the fields ExtractNodeDirectory never sets -/
structure Observed where
  seenRealtime : Bool
  rxRssi : ℤ
  rxSnr : F32
  temperature : F32
  relativeHumidity : F32
  barometricPressure : F32
deriving DecidableEq, Repr

def NodeEntry.observed (e : NodeEntry) : Observed where
  seenRealtime := e.seenRealtime
  rxRssi := e.rxRssi
  rxSnr := e.rxSnr
  temperature := e.temperature
  relativeHumidity := e.relativeHumidity
  barometricPressure := e.barometricPressure

/-- no signal and no environment reading -/
structure NodeEntry.NoReadings (e : NodeEntry) : Prop where
  rxRssi : e.rxRssi = 0
  rxSnr : e.rxSnr = F32.zero
  temperature : e.temperature = F32.zero
  relativeHumidity : e.relativeHumidity = F32.zero
  barometricPressure : e.barometricPressure = F32.zero

theorem nodeInfoEntry_observed (pb : Codec) (ni : NodeInfo) :
    (nodeInfoEntry pb ni).observed = ({} : NodeEntry).observed := by
  unfold nodeInfoEntry
  cases ni.user <;> cases ni.deviceMetrics <;> cases ni.position with
  | none => rfl
  | some pos =>
    simp only
    split_ifs <;> rfl

theorem extractNodeDirectory_observed (pb : Codec) (frames : List Bytes) :
    ∀ n e, (extractNodeDirectory pb frames).get? n = some e → e.observed = ({} : NodeEntry).observed := by
  induction frames using List.reverseRecOn with
  | nil =>
    intro n e he
    cases he
  | append_singleton frames f ih =>
    intro n e he
    rw [extractNodeDirectory, List.foldl_append, List.foldl_cons, List.foldl_nil] at he
    change (directoryStep pb (extractNodeDirectory pb frames) f).get? n = some e at he
    unfold directoryStep at he
    split at he
    · exact ih n e he
    · split_ifs at he with h0
      · exact ih n e he
      · rw [GoMap.get?_set] at he
        split_ifs at he
        · cases he
          exact nodeInfoEntry_observed pb _
        · exact ih n e he

/-- after a replacement by `dir`, each node present before and after has what was observed of it -/
def ObservedKept (m : Metrics) (dir : Directory) : Prop :=
  ∀ n old e, m.nodeDir.get? n = some old → (m.setNodeDirectory dir).nodeDir.get? n = some e → e.observed = old.observed

/-- merged into what a download brings, an entry keeps SeenRealtime and loses the rest -/
theorem keepRuntime_observed {e : NodeEntry} (he : e.observed = ({} : NodeEntry).observed) (old : NodeEntry) :
    (Metrics.keepRuntime (some old) e).observed = old.observed ↔ old.NoReadings := by
  simp only [NodeEntry.observed, Observed.mk.injEq] at he
  obtain ⟨h1, h2, h3, h4, h5, h6⟩ := he
  simp only [Metrics.keepRuntime, NodeEntry.observed, h1, h2, h3, h4, h5, h6, Bool.or_false, Observed.mk.injEq, true_and]
  constructor
  · intro h
    obtain ⟨g2, g3, g4, g5, g6⟩ := h
    exact ⟨g2.symm, g3.symm, g4.symm, g5.symm, g6.symm⟩
  · intro h
    exact ⟨h.rxRssi.symm, h.rxSnr.symm, h.temperature.symm, h.relativeHumidity.symm, h.barometricPressure.symm⟩

/-- **Observed data across a reconnect.** For every reachable directory and every directory ExtractNodeDirectory
produces, SetNodeDirectory leaves the observed fields of the nodes present in both unchanged exactly when none of them
had a signal or environment reading. -/
theorem observed_data_survive_iff (pb : Codec) (maxMessages : ℤ) (cs : List Call) (frames : List Bytes) :
    ObservedKept (run call (new maxMessages) cs) (extractNodeDirectory pb frames) ↔
      ∀ n old, (run call (new maxMessages) cs).nodeDir.get? n = some old →
        n ∈ (extractNodeDirectory pb frames).keys → old.NoReadings := by
  generalize run call (new maxMessages) cs = m
  have hnew := extractNodeDirectory_observed pb frames
  generalize extractNodeDirectory pb frames = dir at hnew
  have hmerged (n : UInt32) : (m.setNodeDirectory dir).nodeDir.get? n =
      (dir.get? n).map fun e => Metrics.keepRuntime (m.nodeDir.get? n) e := rfl
  constructor
  · intro h n old hold hn
    obtain ⟨e, he⟩ := Option.isSome_iff_exists.1 ((dir.mem_keys n).1 hn)
    refine (keepRuntime_observed (hnew n e he) old).1 (h n old _ hold ?_)
    rw [hmerged, he, hold]
    rfl
  · intro h n old e' hold he'
    rw [hmerged, hold] at he'
    obtain ⟨e, he, rfl⟩ := Option.map_eq_some_iff.1 he'
    exact (keepRuntime_observed (hnew n e he) old).2 (h n old hold ((dir.mem_keys n).2 (by simp [he])))

/-- the NodeInfo frame of node 9, without a User -/
def nineOnly : Bytes := [0x22, 2, 8, 9]

def nineOnlyCodec : Codec := tableCodec [(nineOnly, { variant := .nodeInfo { num := 9 } })] [] []

/-- node 9 is heard at -80 dBm between two downloads; after the second its RSSI is 0 -/
theorem observed_data_lost :
    ¬ObservedKept (run call (new 100) [.setNodeDirectory (extractNodeDirectory nineOnlyCodec [nineOnly]),
        .updateNodeSignal 1 { nodeNum := 9, rxRssi := -80, rxSnr := F32.zero }])
      (extractNodeDirectory nineOnlyCodec [nineOnly]) := by
  intro h
  have hrssi := congrArg Observed.rxRssi
    (h 9 { rxRssi := -80, seenRealtime := true, lastHeard := 1 } { seenRealtime := true } (by decide +kernel)
      (by decide +kernel))
  exact absurd hrssi (by decide)

/-! ## The user's favourite -/

/-- a replacement reports the node as a favourite -/
def Call.reports (n : UInt32) : Call → Bool
  | .setNodeDirectory dir => (dir.get? n).any (·.isFavorite)
  | _ => false

/-- an assignment that is not the user's choice for the node keeps the flag -/
theorem assigns_isFavorite {dir : Directory} {c : Call} {k : UInt32} {e e' : NodeEntry}
    (hc : ∀ fav, c ≠ .setFavorite k fav) (hk : c.assigns dir = some (k, e')) (he : dir.get? k = some e) :
    e'.isFavorite = e.isFavorite := by
  cases c with
  | setNodeDirectory dir' => cases hk
  | setFavorite n fav =>
    obtain ⟨entry, -, hpair⟩ := Option.map_eq_some_iff.1 hk
    cases hpair
    exact absurd rfl (hc fav)
  | _ =>
    cases hk
    simp [Metrics.applyPosition, Metrics.applyTelemetry, Metrics.applySignal, Metrics.applyNodeInfo, touched, he]

/-- one call: the flag of a known node becomes the old one or what a replacement reports -/
theorem call_isFavorite {m : Metrics} {c : Call} {n : UInt32} {e : NodeEntry} (he : m.nodeDir.get? n = some e)
    (hc : ∀ fav, c ≠ .setFavorite n fav) (hin : ∀ dir, c = .setNodeDirectory dir → n ∈ dir.keys) :
    ∃ e', (call m c).nodeDir.get? n = some e' ∧ e'.isFavorite = (e.isFavorite || c.reports n) := by
  by_cases hset : ∃ dir, c = .setNodeDirectory dir
  · obtain ⟨dir, rfl⟩ := hset
    obtain ⟨e', he'⟩ := Option.isSome_iff_exists.1 ((dir.mem_keys n).1 (hin dir rfl))
    refine ⟨Metrics.keepRuntime (some e) e', ?_, ?_⟩
    · rw [call_nodeDir_replace]
      simp [merged, he, he']
    · simp [Metrics.keepRuntime, Call.reports, he']
  · have hrep : c.reports n = false := by
      cases c with
      | setNodeDirectory dir => exact absurd ⟨dir, rfl⟩ hset
      | _ => rfl
    rw [call_nodeDir_update fun dir h => hset ⟨dir, h⟩, hrep]
    cases ha : c.assigns m.nodeDir with
    | none => exact ⟨e, he, by simp⟩
    | some p =>
      obtain ⟨k, e'⟩ := p
      by_cases hk : n = k
      · subst hk
        exact ⟨e', by simp [assign, GoMap.get?_set], by simp [assigns_isFavorite hc ha he]⟩
      · exact ⟨e, by simp [assign, GoMap.get?_set, hk, he], by simp⟩

/-- a run without a choice of the user for the node: the flag becomes the old one or what some replacement reports -/
theorem run_isFavorite {cs : List Call} {n : UInt32} (hcs : ∀ fav, .setFavorite n fav ∉ cs)
    (hin : ∀ dir, .setNodeDirectory dir ∈ cs → n ∈ dir.keys) {m : Metrics} {e : NodeEntry}
    (he : m.nodeDir.get? n = some e) :
    ∃ e', (run call m cs).nodeDir.get? n = some e' ∧ e'.isFavorite = (e.isFavorite || cs.any (Call.reports n)) := by
  induction cs generalizing m e with
  | nil => exact ⟨e, he, by simp⟩
  | cons c cs ih =>
    have hc : ∀ fav, c ≠ .setFavorite n fav := fun fav h => hcs fav (by simp [h])
    have hcin : ∀ dir, c = .setNodeDirectory dir → n ∈ dir.keys := fun dir h => hin dir (by simp [h])
    obtain ⟨e₁, he₁, hf₁⟩ := call_isFavorite he hc hcin
    obtain ⟨e₂, he₂, hf₂⟩ := ih (fun fav h => hcs fav (List.mem_cons_of_mem c h))
      (fun dir h => hin dir (List.mem_cons_of_mem c h)) he₁
    refine ⟨e₂, he₂, ?_⟩
    rw [hf₂, hf₁, List.any_cons, Bool.or_assoc]

/-- **The user's choice across reconnects.** After the last SetFavorite(n, v), which returned true, and any calls with
n in every directory installed, the entry of n has IsFavorite = v exactly when v is "yes" or no directory installed since
reports n as a favourite. -/
theorem favorite_choice_survives_iff (maxMessages : ℤ) (before after : List Call) (n : UInt32) (v : Bool)
    (hret : ((run call (new maxMessages) before).setFavorite n v).2 = true)
    (hlast : ∀ fav, .setFavorite n fav ∉ after) (hin : ∀ dir, .setNodeDirectory dir ∈ after → n ∈ dir.keys) :
    (∃ e, (run call (new maxMessages) (before ++ .setFavorite n v :: after)).nodeDir.get? n = some e ∧
        e.isFavorite = v) ↔
      v = true ∨ ∀ dir e, .setNodeDirectory dir ∈ after → dir.get? n = some e → e.isFavorite = false := by
  rw [run_append, run_cons]
  generalize run call (new maxMessages) before = m at hret ⊢
  have hset : ∃ e, (call m (.setFavorite n v)).nodeDir.get? n = some e ∧ e.isFavorite = v := by
    unfold Metrics.setFavorite at hret
    cases he : m.nodeDir.get? n with
    | none => simp [he] at hret
    | some e => exact ⟨{ e with isFavorite := v }, by simp [call, Metrics.setFavorite, he, Metrics.publish, GoMap.get?_set],
        rfl⟩
  obtain ⟨e, he, rfl⟩ := hset
  obtain ⟨e', he', hf⟩ := run_isFavorite hlast hin he
  have hany : after.any (Call.reports n) = false ↔
      ∀ dir e, .setNodeDirectory dir ∈ after → dir.get? n = some e → e.isFavorite = false := by
    rw [List.any_eq_false]
    constructor
    · intro h dir e hmem hget
      simpa [Call.reports, hget] using h _ hmem
    · intro h c hmem
      cases c with
      | setNodeDirectory dir =>
        cases hget : dir.get? n with
        | none => simp [Call.reports, hget]
        | some e => simp [Call.reports, hget, h dir e hmem hget]
      | _ => simp [Call.reports]
  rw [he', ← hany]
  simp only [Option.some.injEq, exists_eq_left', hf]
  cases e.isFavorite <;> simp

/-- a directory with the one node 0x11 -/
def elevenDir (isFavorite : Bool) : Directory :=
  (GoMap.empty : Directory).set 0x11 { shortName := "A", isFavorite := isFavorite }

/-- marked as a favourite, the node stays one although a replacement does not report it -/
theorem favorite_choice_survives_yes :
    ∃ e, (run call (new 100) ([.setNodeDirectory (elevenDir false)] ++
      .setFavorite 0x11 true :: [.setNodeDirectory (elevenDir false)])).nodeDir.get? 0x11 = some e ∧
        e.isFavorite = true :=
  (favorite_choice_survives_iff 100 [.setNodeDirectory (elevenDir false)] [.setNodeDirectory (elevenDir false)] 0x11 true
    (by decide +kernel) (by simp) (by
      intro dir hdir
      simp only [List.mem_singleton, Call.setNodeDirectory.injEq] at hdir
      rw [hdir]
      decide +kernel)).2 (Or.inl rfl)

/-- unmarked by the user, the node is a favourite again after a replacement that reports it -/
theorem favorite_choice_undone :
    ((run call (new 100) [.setNodeDirectory (elevenDir true)]).setFavorite 0x11 false).2 = true ∧
    ((run call (new 100) [.setNodeDirectory (elevenDir true), .setFavorite 0x11 false,
      .setNodeDirectory (elevenDir true)]).nodeDir.get? 0x11).map (·.isFavorite) = some true := by
  decide +kernel

end MeshProxy.Store
