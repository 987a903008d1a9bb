/-
Prefix codes, and readers that skip code words.

A set of words is a prefix code when two of its words that start one string are equal. Splitting a string into words of
a code is then unambiguous, also when the words are of two kinds (skipped and final) and anything may follow the final
one.

- `PrefixFree.of_length`: a code whose word lengths can be read off any string they start is a prefix code;
- `PrefixFree.split_unique`: skipped words, a final word and a rest are determined by their concatenation;
- `skip_flatten`: a reader that ignores each skipped word ignores any list of them.
-/
import Mathlib.Tactic

namespace MeshProxy.PrefixCode

variable {α β : Type*}

/-- words that start a common string are equal -/
def PrefixFree (C : Set (List α)) : Prop :=
  ∀ a ∈ C, ∀ b ∈ C, ∀ x y, a ++ x = b ++ y → a = b

theorem PrefixFree.of_length {C : Set (List α)} (len : List α → ℕ)
    (h : ∀ a ∈ C, ∀ x, len (a ++ x) = a.length) : PrefixFree C := by
  intro a ha b hb x y heq
  have hlen : a.length = b.length := by rw [← h a ha x, heq, h b hb y]
  exact (List.append_inj heq hlen).1

/-- **Unique splitting.** If skipped words and final words together form a prefix code and no word is both, a string is
a list of skipped words, one final word and a rest in at most one way. -/
theorem PrefixFree.split_unique {K T : Set (List α)} (hc : PrefixFree (K ∪ T)) (hd : ∀ w ∈ K, w ∉ T)
    {items items' : List (List α)} {t t' r r' : List α} (hi : ∀ i ∈ items, i ∈ K) (hi' : ∀ i ∈ items', i ∈ K)
    (ht : t ∈ T) (ht' : t' ∈ T) (heq : items.flatten ++ (t ++ r) = items'.flatten ++ (t' ++ r')) :
    items = items' ∧ t = t' ∧ r = r' := by
  induction items generalizing items' with
  | nil =>
    cases items' with
    | nil =>
      have htt := hc t (.inr ht) t' (.inr ht') r r' heq
      subst htt
      exact ⟨rfl, rfl, List.append_cancel_left heq⟩
    | cons j js =>
      rw [List.flatten_cons, List.append_assoc] at heq
      have hj := hi' j List.mem_cons_self
      have htj := hc t (.inr ht) j (.inl hj) _ _ heq
      exact absurd (htj ▸ ht) (hd j hj)
  | cons i is ih =>
    have hik := hi i List.mem_cons_self
    cases items' with
    | nil =>
      rw [List.flatten_cons, List.append_assoc] at heq
      have hit := hc i (.inl hik) t' (.inr ht') _ _ heq
      exact absurd (hit ▸ ht') (hd i hik)
    | cons j js =>
      rw [List.flatten_cons, List.flatten_cons, List.append_assoc, List.append_assoc] at heq
      have hij := hc i (.inl hik) j (.inl (hi' j List.mem_cons_self)) _ _ heq
      subst hij
      obtain ⟨his, htr⟩ := ih (fun k hk => hi k (List.mem_cons_of_mem _ hk))
        (fun k hk => hi' k (List.mem_cons_of_mem _ hk)) (List.append_cancel_left heq)
      exact ⟨congrArg _ his, htr⟩

theorem skip_flatten {K : Set (List α)} {f : List α → β} (hf : ∀ i ∈ K, ∀ s, f (i ++ s) = f s)
    {items : List (List α)} (hi : ∀ i ∈ items, i ∈ K) (s : List α) : f (items.flatten ++ s) = f s := by
  induction items with
  | nil => rfl
  | cons i is ih =>
    rw [List.flatten_cons, List.append_assoc, hf i (hi i List.mem_cons_self)]
    exact ih fun j hj => hi j (List.mem_cons_of_mem _ hj)

end MeshProxy.PrefixCode
