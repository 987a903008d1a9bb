/-
Edits that overwrite parts of keyed records, and what becomes of them when they are applied a second time.

A store maps keys to records. A patch acts on a record; it overwrites (`Overwrites`) if between two uses of it what another
patch did is either covered by it or still there. An edit patches one record: `touch` creates a missing one from a base,
`amend` leaves a missing one missing. A list of edits is grounded in a store if each amend in it finds its record.

- `overlay_overlay`: a sequence of patches, applied twice, does what it does once;
- `replay`: so does a grounded list of edits, on the store it has led to.
Nothing here names the program under verification.
-/
import MeshProxy.Core.Trace

namespace MeshProxy.Replay

open MeshProxy.Trace

variable {κ α π : Type} [DecidableEq κ] {act : π → α → α}

/-! ## Patches -/

structure Overwrites (act : π → α → α) : Prop where
  twice : ∀ f x, act f (act f x) = act f x
  again : ∀ f g x, act f (act g (act f x)) = act f (act g x)

/-- one patch after the other -/
def overlay (act : π → α → α) (fs : List π) (x : α) : α := fs.foldl (fun x f => act f x) x

theorem overlay_append (fs gs : List π) (x : α) : overlay act (fs ++ gs) x = overlay act gs (overlay act fs x) :=
  List.foldl_append

/-- whatever comes in between, only the last use of a patch counts -/
theorem act_overlay_act (h : Overwrites act) (f : π) (gs : List π) (x : α) :
    act f (overlay act gs (act f x)) = act f (overlay act gs x) := by
  induction gs using List.reverseRecOn with
  | nil => exact h.twice f x
  | append_singleton gs g ih =>
    calc act f (overlay act (gs ++ [g]) (act f x))
        = act f (act g (overlay act gs (act f x))) := by rw [overlay_append]; rfl
      _ = act f (act g (act f (overlay act gs (act f x)))) := (h.again f g _).symm
      _ = act f (act g (act f (overlay act gs x))) := by rw [ih]
      _ = act f (act g (overlay act gs x)) := h.again f g _
      _ = act f (overlay act (gs ++ [g]) x) := by rw [overlay_append]; rfl

/-- a patch that comes in a sequence makes no difference before it -/
theorem overlay_act (h : Overwrites act) {f : π} {fs : List π} (hf : f ∈ fs) (x : α) :
    overlay act fs (act f x) = overlay act fs x := by
  obtain ⟨as, bs, rfl⟩ := List.append_of_mem hf
  rw [overlay_append, overlay_append]
  exact congrArg (overlay act bs) (act_overlay_act h f as x)

theorem overlay_overlay (h : Overwrites act) (fs : List π) (x : α) : overlay act fs (overlay act fs x) = overlay act fs x := by
  have hpart : ∀ gs : List π, (∀ g ∈ gs, g ∈ fs) → overlay act fs (overlay act gs x) = overlay act fs x := by
    intro gs
    induction gs using List.reverseRecOn with
    | nil => intro _; rfl
    | append_singleton gs g ih =>
      intro hgs
      have hg : g ∈ fs := hgs g (List.mem_append_right gs List.mem_cons_self)
      rw [overlay_append]
      exact (overlay_act h hg _).trans (ih fun g' hg' => hgs g' (List.mem_append_left _ hg'))
  exact hpart fs fun _ hg => hg

/-! ## Edits -/

inductive Edit (κ α π : Type) where
  | touch (k : κ) (base : α) (f : π)
  | amend (k : κ) (f : π)

namespace Edit

def key : Edit κ α π → κ
  | touch k _ _ => k
  | amend k _ => k

def patch : Edit κ α π → π
  | touch _ _ f => f
  | amend _ f => f

end Edit

/-- an edit of a store -/
def edit (act : π → α → α) (s : κ → Option α) : Edit κ α π → κ → Option α
  | .touch k base f => Function.update s k (some (act f ((s k).getD base)))
  | .amend k f => Function.update s k ((s k).map (act f))

/-- an amend finds its record -/
def Grounded (s : κ → Option α) : Edit κ α π → Prop
  | .touch _ _ _ => True
  | .amend k _ => (s k).isSome

variable {s : κ → Option α} {k : κ}

theorem edit_other {a : Edit κ α π} (hk : a.key ≠ k) : edit act s a k = s k := by
  cases a <;> exact Function.update_of_ne (Ne.symm hk) _ _

theorem edit_some {a : Edit κ α π} (hk : a.key = k) {x : α} (hx : s k = some x) : edit act s a k = some (act a.patch x) := by
  subst hk
  cases a with
  | touch k base f => simpa [edit, Edit.key, Edit.patch] using congrArg (fun y : Option α => act f (y.getD base)) hx
  | amend k f => simpa [edit, Edit.key, Edit.patch] using ⟨x, hx, rfl⟩

/-- a record that an edit makes -/
theorem edit_none {a : Edit κ α π} (hk : a.key = k) (hs : s k = none) (ha : Grounded s a) :
    ∃ base, edit act s a k = some (act a.patch base) := by
  subst hk
  cases a with
  | touch k base f =>
    have hbase : (s k).getD base = base := congrArg (Option.getD · base) hs
    exact ⟨base, by simp [edit, Edit.key, Edit.patch, hbase]⟩
  | amend k f =>
    have hfound : (s k).isSome = true := ha
    rw [show s k = none from hs] at hfound
    cases hfound

/-- the patches of one record -/
def patches (k : κ) (l : List (Edit κ α π)) : List π := (l.filter fun a => a.key = k).map Edit.patch

theorem patches_here {a : Edit κ α π} (hk : a.key = k) (l : List (Edit κ α π)) :
    patches k (a :: l) = a.patch :: patches k l := by simp [patches, hk]

theorem patches_other {a : Edit κ α π} (hk : a.key ≠ k) (l : List (Edit κ α π)) :
    patches k (a :: l) = patches k l := by simp [patches, hk]

/-- a record that is there gets its patches -/
theorem run_some {x : α} (hx : s k = some x) (l : List (Edit κ α π)) :
    run (edit act) s l k = some (overlay act (patches k l) x) := by
  induction l generalizing s x with
  | nil => exact hx
  | cons a l ih =>
    by_cases hk : a.key = k
    · rw [run_cons, ih (edit_some hk hx), patches_here hk]
      rfl
    · rw [run_cons, ih ((edit_other hk).trans hx), patches_other hk]

/-- a record that is not there stays so, or is made by the first of its edits -/
theorem run_none (hs : s k = none) {l : List (Edit κ α π)} (hl : Along (edit act) Grounded s l) :
    patches k l = [] ∨ ∃ base, run (edit act) s l k = some (overlay act (patches k l) base) := by
  induction l generalizing s with
  | nil => exact .inl rfl
  | cons a l ih =>
    obtain ⟨ha, hrest⟩ := hl
    by_cases hk : a.key = k
    · right
      obtain ⟨base, hmade⟩ : ∃ base, edit act s a k = some (act a.patch base) := edit_none hk hs ha
      rw [patches_here hk]
      exact ⟨base, run_some hmade l⟩
    · rw [patches_other hk]
      exact ih ((edit_other hk).trans hs) hrest

theorem run_untouched {l : List (Edit κ α π)} (hl : patches k l = []) : run (edit act) s l k = s k := by
  induction l generalizing s with
  | nil => rfl
  | cons a l ih =>
    by_cases hk : a.key = k
    · rw [patches_here hk] at hl
      cases hl
    · rw [patches_other hk] at hl
      exact (ih hl).trans (edit_other hk)

/-- **Replay.** Edits that have been made once change nothing when they are made again in the same order. -/
theorem replay (h : Overwrites act) {l : List (Edit κ α π)} (hl : Along (edit act) Grounded s l) :
    run (edit act) (run (edit act) s l) l = run (edit act) s l := by
  funext k
  -- a record that comes out patched is not changed by the same patches
  have hsome : ∀ x, run (edit act) s l k = some (overlay act (patches k l) x) →
      run (edit act) (run (edit act) s l) l k = run (edit act) s l k := by
    intro x hx
    rw [run_some hx, hx, overlay_overlay h]
  cases hk : s k with
  | some x => exact hsome x (run_some hk l)
  | none =>
    rcases run_none hk hl with hnone | ⟨base, hmade⟩
    · exact run_untouched hnone
    · exact hsome base hmade

end MeshProxy.Replay
