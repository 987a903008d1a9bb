/-
Calls that pass through a fixed number of stages, any number of them at the same time.

Each thread works on one item at a time: it enters the item into log 0 and then passes it on to log 1, 2, up to the last
stage, with the steps of other threads in between. The rules:
- `behind`: what a thread has brought to a later stage is a prefix of what it has brought to an earlier one;
- `subperm`: a later log, as a collection, is part of an earlier one;
- `idle_perm`: while no thread is under way, all logs hold the same items.
Nothing here names the program under verification.
-/
import Mathlib.Tactic
import MeshProxy.Core.Tagged
import MeshProxy.Core.Trace

namespace MeshProxy.Stages

open MeshProxy.Tagged MeshProxy.Trace

variable {R : Type}

/-- `at_ g` is the item thread g works on, and the last stage it has been brought to -/
structure St (R : Type) where
  at_ : ℕ → Option (R × ℕ)
  log : ℕ → List (ℕ × R)

def init : St R := ⟨fun _ => none, fun _ => []⟩

inductive Act (R : Type) where
  | enter (g : ℕ) (r : R)
  | advance (g : ℕ)

/-- thread g brings r to stage k -/
def St.bring (n g : ℕ) (r : R) (k : ℕ) (s : St R) : St R where
  at_ := Function.update s.at_ g (if k < n then some (r, k) else none)
  log := Function.update s.log k (s.log k ++ [(g, r)])

/-- the last stage is number n -/
def step (n : ℕ) (s : St R) : Act R → St R
  | .enter g r => if s.at_ g = none then s.bring n g r 0 else s
  | .advance g =>
    match s.at_ g with
    | none => s
    | some (r, k) => s.bring n g r (k + 1)

/-- what thread g holds between stage k and the next -/
def St.held (s : St R) (g k : ℕ) : List R := ((s.at_ g).toList.filter fun x => x.2 = k).map Prod.fst

structure Inv (n : ℕ) (s : St R) : Prop where
  under : ∀ g r k, s.at_ g = some (r, k) → k < n
  stage : ∀ g k, k < n → of g (s.log k) = of g (s.log (k + 1)) ++ s.held g k

variable {n : ℕ} {s : St R}

theorem init_inv : Inv n (init : St R) where
  under := fun _ _ _ h => by cases h
  stage := fun _ _ _ => rfl

theorem held_bring (g g' : ℕ) (r : R) (k j : ℕ) :
    (s.bring n g r k).held g' j = if g' = g then (if k < n ∧ k = j then [r] else []) else s.held g' j := by
  by_cases hg : g' = g
  · subst hg
    by_cases hk : k < n
    · by_cases hj : k = j
      · subst hj
        simp [St.held, St.bring, hk]
      · simp [St.held, St.bring, hk, hj]
    · simp [St.held, St.bring, hk]
  · simp [St.held, St.bring, hg]

/-- an item comes from the stage before, or, for stage 0, from a thread that has none -/
theorem bring_inv (h : Inv n s) {g : ℕ} {r : R} {k : ℕ} (hk : k ≤ n)
    (hfrom : ∀ j, s.held g j = if k = j + 1 then [r] else []) : Inv n (s.bring n g r k) where
  under := by
    intro g' r' k' hat
    simp only [St.bring, Function.update_apply] at hat
    split_ifs at hat with hg hlt
    · cases hat
      exact hlt
    · exact h.under g' r' k' hat
  stage := by
    intro g' j hj
    have hold := h.stage g' j hj
    rw [held_bring]
    simp only [St.bring, Function.update_apply]
    by_cases hg : g' = g
    · subst hg
      rw [hfrom j] at hold
      by_cases hkj : j = k
      · subst hkj
        have hne : ¬j + 1 = j := by omega
        simp_all
      · by_cases hkj' : j + 1 = k
        · subst hkj'
          have hne : ¬j + 1 = j := by omega
          simp_all
        · have hne : ¬k = j + 1 := fun e => hkj' e.symm
          have hne' : ¬k = j := fun e => hkj e.symm
          simp_all
    · have hg' : ¬g = g' := fun e => hg e.symm
      split_ifs <;> simp_all

theorem step_inv (h : Inv n s) (a : Act R) : Inv n (step n s a) := by
  cases a with
  | enter g r =>
    simp only [step]
    split_ifs with hidle
    · exact bring_inv h (Nat.zero_le n) fun j => by simp [St.held, hidle]
    · exact h
  | advance g =>
    simp only [step]
    split
    · exact h
    · rename_i r k hat
      refine bring_inv h (h.under g r k hat) fun j => ?_
      by_cases hkj : k = j <;> simp [St.held, hat, hkj]

theorem reachable_inv (n : ℕ) (as : List (Act R)) : Inv n (run (step n) init as) :=
  run_inv_all (I := Inv n) (fun _ a hs => step_inv hs a) as init_inv

/-- **A later log is behind.** -/
theorem Inv.behind (h : Inv n s) (g : ℕ) {j k : ℕ} (hjk : j ≤ k) (hk : k ≤ n) :
    of g (s.log k) <+: of g (s.log j) := by
  induction k, hjk using Nat.le_induction with
  | base => exact List.prefix_refl _
  | succ k _ ih =>
    have hstage := h.stage g k (by omega)
    exact (hstage ▸ List.prefix_append _ _).trans (ih (by omega))

/-- as collections, too -/
theorem Inv.subperm (h : Inv n s) {j k : ℕ} (hjk : j ≤ k) (hk : k ≤ n) : (s.log k).Subperm (s.log j) :=
  subperm_of fun g => (h.behind g hjk hk).sublist

/-- while no thread is under way, nothing is missing -/
theorem Inv.idle_perm (h : Inv n s) (hidle : ∀ g, s.at_ g = none) {j k : ℕ} (hjk : j ≤ k) (hk : k ≤ n) :
    (s.log k).Perm (s.log j) := by
  have hsame : ∀ g k, k < n → of g (s.log k) = of g (s.log (k + 1)) := by
    intro g k hk
    simpa [St.held, hidle g] using h.stage g k hk
  refine perm_of fun g => ?_
  induction k, hjk using Nat.le_induction with
  | base => rfl
  | succ k _ ih => rw [← hsame g k (by omega), ih (by omega)]

end MeshProxy.Stages
