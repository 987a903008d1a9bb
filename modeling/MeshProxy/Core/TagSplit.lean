/-
Splitting a text at its tags. A tag starts at a delimiter `lt` and ends at the next `gt`; what is between two tags is a
piece of text, possibly empty. Texts are lists over any alphabet.

- `tokens_piece`: a piece without `lt` and a tag without `gt` are read as they were put together, whatever follows;
- `tokens_text`: a text without `lt` is one piece.
Nothing here names the program under verification.
-/
import Mathlib.Tactic

namespace MeshProxy.TagSplit

variable {α : Type*} [DecidableEq α]

inductive Token (α : Type*) where
  | text (s : List α)
  | tag (name : List α)
  | unclosed (s : List α)
deriving DecidableEq, Repr

variable (lt gt : α)

/-- read on, inside a tag or not, with what was read of the current token -/
def scan : Bool → List α → List α → List (Token α)
  | false, acc, [] => [.text acc]
  | true, acc, [] => [.unclosed acc]
  | false, acc, c :: cs => if c = lt then .text acc :: scan true [] cs else scan false (acc ++ [c]) cs
  | true, acc, c :: cs => if c = gt then .tag acc :: scan false [] cs else scan true (acc ++ [c]) cs

/-- the text split at its tags -/
def tokens (s : List α) : List (Token α) := scan lt gt false [] s

/-- the names of the tags, in order -/
def tagNames : List (Token α) → List (List α)
  | [] => []
  | .tag name :: ts => name :: tagNames ts
  | _ :: ts => tagNames ts

/-- a tag as it is written -/
def tag (name : List α) : List α := lt :: name ++ [gt]

variable {lt gt}

theorem scan_text {s : List α} (h : lt ∉ s) (acc rest : List α) :
    scan lt gt false acc (s ++ rest) = scan lt gt false (acc ++ s) rest := by
  induction s generalizing acc with
  | nil => simp
  | cons c s ih =>
    obtain ⟨hc, hs⟩ := not_or.1 (mt List.mem_cons.2 h)
    rw [List.cons_append, scan, if_neg (Ne.symm hc), ih hs, List.append_assoc, List.singleton_append]

theorem scan_name {name : List α} (h : gt ∉ name) (acc rest : List α) :
    scan lt gt true acc (name ++ gt :: rest) = .tag (acc ++ name) :: tokens lt gt rest := by
  induction name generalizing acc with
  | nil => simp [scan, tokens]
  | cons c name ih =>
    obtain ⟨hc, hname⟩ := not_or.1 (mt List.mem_cons.2 h)
    rw [List.cons_append, scan, if_neg (Ne.symm hc), ih hname, List.append_assoc, List.singleton_append]

/-- **A piece and the tag behind it are read as they were put together.** -/
theorem tokens_piece {s name : List α} (hs : lt ∉ s) (hname : gt ∉ name) (rest : List α) :
    tokens lt gt (s ++ (tag lt gt name ++ rest)) = .text s :: .tag name :: tokens lt gt rest := by
  rw [tokens, scan_text hs, List.nil_append, tag, List.append_assoc, List.cons_append, scan, if_pos rfl,
    List.singleton_append, scan_name hname, List.nil_append]

theorem tokens_text {s : List α} (hs : lt ∉ s) : tokens lt gt s = [.text s] := by
  have h : scan lt gt false [] (s ++ []) = scan lt gt false ([] ++ s) [] := scan_text hs [] []
  rwa [List.append_nil] at h

end MeshProxy.TagSplit
