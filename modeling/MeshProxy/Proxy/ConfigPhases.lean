/-
The two phases of an iOS client's configuration (`internal/proxy/config_replay.go`: filterConfigCache).

A client that asks with 69420 and then with 69421 gets two selections of one cache. Both are filters of the cache by a
test of the single frame, given the node number of the first my_info; `InBoth` names the frames that pass both tests.

- `filterConfigCache_counts`: the counters of a selection name each of its frames once, for every nonce;
- `phases_cover`: together the two selections hold every frame, and what they share is exactly `InBoth`.
-/
import Mathlib.Algebra.BigOperators.Group.Finset.Basic
import MeshProxy.Proxy.ConfigReplay

namespace MeshProxy.ConfigPhases

open MeshProxy.Proto MeshProxy.ConfigReplay
open MeshProxy.Frame (Bytes)

variable (pb : Codec)

/-- the node number of the first my_info, 0 if there is none -/
def firstMyInfoNum (frames : List Bytes) : UInt32 :=
  (frames.findSome? fun f =>
    match pb.unmarshalFromRadio f with
    | some ⟨_, .myInfo num _, _⟩ => some num
    | _ => none).getD 0

/-- the frames both phases send: unparseable ones, config_complete_id, and the NodeInfo of the node `own` -/
def InBoth (own : UInt32) (f : Bytes) : Prop :=
  match pb.unmarshalFromRadio f with
  | none => True
  | some ⟨_, .configCompleteId _, _⟩ => True
  | some ⟨_, .nodeInfo ni, _⟩ => ni.num = own
  | some _ => False

theorem findMyNodeNum_eq (frames : List Bytes) :
    findMyNodeNum (frames.map (parseFrame pb)) = firstMyInfoNum pb frames := by
  induction frames with
  | nil => rfl
  | cons f frames ih =>
    rw [List.map_cons, findMyNodeNum, firstMyInfoNum, List.findSome?_cons]
    simp only [parseFrame] at ih ⊢
    rcases pb.unmarshalFromRadio f with _ | ⟨id, variant, rest⟩
    · exact ih
    · cases variant with
      | myInfo num info => rfl
      | _ => exact ih

/-! ## The tests of a single frame -/

variable {pb} {own : UInt32} {f : Bytes}

/-- a NodeInfo of another node is left to the second phase, any other frame is in the first -/
theorem selected_cover (f : Bytes) : Selected pb nonceOnlyConfig own f = true ∨ Selected pb nonceOnlyNodes own f = true := by
  have hne : nonceOnlyNodes ≠ nonceOnlyConfig := by decide
  unfold Selected
  rcases pb.unmarshalFromRadio f with _ | ⟨id, variant, rest⟩
  · exact .inl rfl
  · cases variant with
    | nodeInfo ni => exact .inr (by simp [selectedMsg, hne])
    | _ => exact .inl (by simp [selectedMsg])

theorem selected_both (f : Bytes) :
    (Selected pb nonceOnlyConfig own f = true ∧ Selected pb nonceOnlyNodes own f = true) ↔ InBoth pb own f := by
  have hne : nonceOnlyNodes ≠ nonceOnlyConfig := by decide
  unfold Selected InBoth
  rcases pb.unmarshalFromRadio f with _ | ⟨id, variant, rest⟩
  · simp [selectedMsg]
  · cases variant <;> simp [selectedMsg, hne]

/-! ## The counters -/

/-- a round of the second pass counts what it keeps -/
theorem filterStep_counts (nonce : UInt32) {r : FilterResult} (pf : ParsedFrame)
    (h : r.stats.frameCounts = r.frames.map ParsedFrame.typeName) :
    (filterStep nonce r pf).stats.frameCounts = (filterStep nonce r pf).frames.map ParsedFrame.typeName := by
  have hkeep : (r.keep pf).stats.frameCounts = (r.keep pf).frames.map ParsedFrame.typeName := by
    simp [FilterResult.keep, h]
  unfold filterStep
  split
  · exact hkeep
  · split
    · exact hkeep
    · split_ifs
      · exact hkeep
      · exact h
      · exact hkeep
    · split_ifs
      · exact hkeep
      · exact h

/-- the counters name each selected frame once -/
theorem filterConfigCache_counts (frames : List Bytes) (nonce : UInt32) :
    (filterConfigCache pb frames nonce).stats.frameCounts =
      (filterConfigCache pb frames nonce).frames.map ParsedFrame.typeName := by
  have hloop : ∀ (pfs : List ParsedFrame) (r : FilterResult), r.stats.frameCounts = r.frames.map ParsedFrame.typeName →
      (pfs.foldl (filterStep nonce) r).stats.frameCounts =
        (pfs.foldl (filterStep nonce) r).frames.map ParsedFrame.typeName := by
    intro pfs
    induction pfs with
    | nil => exact fun r h => h
    | cons pf pfs ih => exact fun r h => ih _ (filterStep_counts nonce pf h)
  unfold filterConfigCache
  dsimp only
  split_ifs
  · rfl
  · exact hloop _ _ rfl

/-! ## The two phases -/

/-- **The two iOS phases make up the full config.** For every list of frames, the selections for 69420 and 69421 are
filters of it by a test of the frame, so sublists with unchanged bytes. Every frame passes one of the tests, and both
exactly when it is a config_complete_id, unparseable, or a NodeInfo of the node the first my_info names. For every nonce
the counters add up to the number of selected frames. -/
theorem phases_cover (pb : Codec) (frames : List Bytes) :
    (∃ inConfig inNodes : Bytes → Bool,
      (filterConfigCache pb frames nonceOnlyConfig).frames = (frames.filter inConfig).map (parseFrame pb) ∧
      (filterConfigCache pb frames nonceOnlyNodes).frames = (frames.filter inNodes).map (parseFrame pb) ∧
      ∀ f, (inConfig f = true ∨ inNodes f = true) ∧
        ((inConfig f = true ∧ inNodes f = true) ↔ InBoth pb (firstMyInfoNum pb frames) f)) ∧
    ((filterConfigCache pb frames nonceOnlyConfig).frames.map ParsedFrame.raw).Sublist frames ∧
    ((filterConfigCache pb frames nonceOnlyNodes).frames.map ParsedFrame.raw).Sublist frames ∧
    ∀ nonce, ∑ name ∈ (filterConfigCache pb frames nonce).stats.frameCounts.toFinset,
      (filterConfigCache pb frames nonce).stats.frameCounts.count name = (filterConfigCache pb frames nonce).frames.length := by
  have hraw : ∀ l : List Bytes, (l.map (parseFrame pb)).map ParsedFrame.raw = l := by
    intro l
    rw [List.map_map]
    exact List.map_id l
  have hframes : ∀ nonce, (filterConfigCache pb frames nonce).frames =
      (frames.filter (Selected pb nonce (firstMyInfoNum pb frames))).map (parseFrame pb) := by
    intro nonce
    rw [filterConfigCache_frames, findMyNodeNum_eq]
  refine ⟨⟨_, _, hframes _, hframes _, fun f => ⟨selected_cover f, selected_both f⟩⟩, ?_, ?_, fun nonce => ?_⟩
  · rw [hframes, hraw]
    exact List.filter_sublist
  · rw [hframes, hraw]
    exact List.filter_sublist
  · rw [List.sum_toFinset_count_eq_length, filterConfigCache_counts, List.length_map]

end MeshProxy.ConfigPhases
