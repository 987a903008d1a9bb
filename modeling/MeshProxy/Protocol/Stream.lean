/-
`ReadFrame` on a stream that is still coming in, or was cut off (`internal/protocol/frame.go`).

- `readFrame_append`: what a read returns does not depend on the bytes after its frame;
- `readAll_prefix`: a stream that goes on gives the same payloads first, and then more;
- `readAll_cut`: a stream of frames that is cut off anywhere gives the first of their payloads;
- `Reads`: a reader that is somewhere in a stream, with what it has got and what it has not read.
-/
import MeshProxy.Protocol.Grammar

namespace MeshProxy.Frame

variable {s p r x : Bytes}

/-- what follows the frame plays no part -/
theorem readFrame_append (h : readFrame s = (.ok p, r)) (x : Bytes) : readFrame (s ++ x) = (.ok p, r ++ x) := by
  obtain ⟨items, hi, lo, hsplit⟩ := readFrame_split h
  have hlonger : Split (s ++ x) items hi lo p (r ++ x) :=
    { items_skip := hsplit.items_skip
      length_pos := hsplit.length_pos
      length_eq := hsplit.length_eq
      length_le := hsplit.length_le
      stream_eq := by rw [hsplit.stream_eq]; simp only [List.append_assoc] }
  exact hlonger.readFrame_eq

theorem readAll_error {e : FrameErr} (h : readFrame s = (.error e, r)) : (readAll s).1 = [] := by
  rw [readAll]
  split <;> rename_i hs
  · rfl
  · rw [h] at hs
    cases hs

/-- **A stream that goes on.** -/
theorem readAll_prefix (s x : Bytes) : (readAll s).1 <+: (readAll (s ++ x)).1 := by
  induction hn : s.length using Nat.strong_induction_on generalizing s with
  | h n ih =>
    cases hread : readFrame s with
    | mk res r =>
      cases res with
      | error e =>
        rw [readAll_error hread]
        exact List.nil_prefix
      | ok p =>
        rw [readAll_ok hread, readAll_ok (readFrame_append hread x)]
        apply List.cons_prefix_cons.2
        exact ⟨rfl, ih r.length (hn ▸ readFrame_rest_lt hread) r rfl⟩

/-- frames one after the other -/
def frames (ps : List Bytes) : Bytes := ps.flatMap frameOf

/-- the payloads that ReadFrame returns -/
def acceptedOf (ps : List Bytes) : List Bytes := ps.filter fun p => decide (Accepted p)

theorem frames_snoc (ps : List Bytes) (p : Bytes) : frames (ps ++ [p]) = frames ps ++ frameOf p := by
  simp [frames]

variable {ps : List Bytes}

theorem readAll_whole (h : ∀ p ∈ ps, p.length ≤ maxFrameSize) : (readAll (frames ps)).1 = acceptedOf ps := by
  rw [frames, readAll_frames ps fun p hp => (h p hp).trans (by decide)]
  rfl

/-- **A stream that is cut off.** -/
theorem readAll_cut (h : ∀ p ∈ ps, p.length ≤ maxFrameSize) (hs : s <+: frames ps) : (readAll s).1 <+: acceptedOf ps := by
  obtain ⟨late, hlate⟩ := hs
  rw [← readAll_whole h, ← hlate]
  exact readAll_prefix s late

/-- a reader that has got these payloads from a stream and has these bytes of it before it -/
def Reads (stream : Bytes) (got : List Bytes) (unread : Bytes) : Prop :=
  ∀ x, (readAll (stream ++ x)).1 = got ++ (readAll (unread ++ x)).1

namespace Reads

variable {stream unread : Bytes} {got : List Bytes}

theorem start (s : Bytes) : Reads s [] s := fun _ => rfl

theorem arrive (h : Reads stream got unread) (x : Bytes) : Reads (stream ++ x) got (unread ++ x) := by
  intro y
  rw [List.append_assoc, List.append_assoc]
  exact h (x ++ y)

theorem next (h : Reads stream got unread) (hread : readFrame unread = (.ok p, r)) : Reads stream (got ++ [p]) r := by
  intro x
  calc (readAll (stream ++ x)).1
      = got ++ (readAll (unread ++ x)).1 := h x
    _ = got ++ p :: (readAll (r ++ x)).1 := by rw [readAll_ok (readFrame_append hread x)]
    _ = got ++ [p] ++ (readAll (r ++ x)).1 := by rw [List.append_assoc, List.singleton_append]

/-- what it has got comes first -/
theorem got_eq (h : Reads stream got unread) : (readAll stream).1 = got ++ (readAll unread).1 := by
  simpa using h []

end Reads

end MeshProxy.Frame
