/-
Runs of a machine given by a total step function, and the induction rules every development of this project uses.

A machine is `step : σ → α → σ`; an action that is not enabled leaves the state as it is, so a list of actions is an
arbitrary interleaving. `run` folds the step; `Along P s as` says that every action of `as`, taken from the state it
meets, satisfies `P` (the run "stays inside" P). The rules:
- `run_inv`: what holds at the start and is kept by every step inside P holds at the end of every run inside P;
- `prefixes_iff_along`: a property holds all along a run exactly when the run stays inside P;
- `along_append`, `Along.snoc`: runs compose;
- `run_emitted`: a machine whose steps emit actions of another simulates it;
- `emitted_fifo`: a party that holds back what it takes in and passes it on in order passes on exactly that;
- `eventually_of_rank`: in an infinite run in which every thread is scheduled again and again, a goal that some thread
  brings nearer at every moment is reached; `eventually_of_thread` is the case of one thread and one step.
Nothing here names the program under verification.
-/
import Mathlib.Tactic

namespace MeshProxy.Trace

variable {σ α : Type} (step : σ → α → σ)

/-- run a list of actions -/
def run (s : σ) (as : List α) : σ := as.foldl step s

/-- every action of the run meets `P` in the state in which it is taken -/
def Along (P : σ → α → Prop) : σ → List α → Prop
  | _, [] => True
  | s, a :: as => P s a ∧ Along P (step s a) as

instance decidableAlong (P : σ → α → Prop) [∀ s a, Decidable (P s a)] : ∀ s as, Decidable (Along step P s as)
  | _, [] => inferInstanceAs (Decidable True)
  | s, a :: as =>
    have := decidableAlong P (step s a) as
    inferInstanceAs (Decidable (P s a ∧ Along step P (step s a) as))

@[simp] theorem run_nil (s : σ) : run step s [] = s := rfl

@[simp] theorem run_cons (s : σ) (a : α) (as : List α) : run step s (a :: as) = run step (step s a) as := rfl

theorem run_append (s : σ) (as bs : List α) : run step s (as ++ bs) = run step (run step s as) bs := by
  simp [run, List.foldl_append]

theorem run_snoc (s : σ) (as : List α) (a : α) : run step s (as ++ [a]) = step (run step s as) a := by
  simp [run_append]

variable {step} {P Q : σ → α → Prop}

theorem along_append {s : σ} {as bs : List α} :
    Along step P s (as ++ bs) ↔ Along step P s as ∧ Along step P (run step s as) bs := by
  induction as generalizing s with
  | nil => simp [Along]
  | cons a as ih => simp [Along, ih, and_assoc]

theorem Along.snoc {s : σ} {as : List α} {a : α} (h : Along step P s as) (ha : P (run step s as) a) :
    Along step P s (as ++ [a]) :=
  along_append.2 ⟨h, ha, trivial⟩

theorem Along.imp {s : σ} {as : List α} (h : Along step P s as) (himp : ∀ s a, P s a → Q s a) : Along step Q s as := by
  induction as generalizing s with
  | nil => trivial
  | cons a as ih => exact ⟨himp s a h.1, ih h.2⟩

theorem Along.and {s : σ} {as : List α} (h : Along step P s as) (h' : Along step Q s as) :
    Along step (fun s a => P s a ∧ Q s a) s as := by
  induction as generalizing s with
  | nil => trivial
  | cons a as ih => exact ⟨⟨h.1, h'.1⟩, ih h.2 h'.2⟩

/-- an action of a run is one of its actions -/
theorem Along.mem {s : σ} {as : List α} (h : Along step P s as) : Along step (fun s a => P s a ∧ a ∈ as) s as := by
  induction as generalizing s with
  | nil => trivial
  | cons a as ih =>
    refine ⟨⟨h.1, List.mem_cons_self⟩, (ih h.2).imp ?_⟩
    intro s b hb
    exact ⟨hb.1, List.mem_cons_of_mem a hb.2⟩

/-- **The invariant rule.** What holds at the start and is kept by every step inside `P` holds at the end of every
run inside `P`. -/
theorem run_inv {I : σ → Prop} (hstep : ∀ s a, I s → P s a → I (step s a)) {s : σ} {as : List α} (h0 : I s)
    (h : Along step P s as) : I (run step s as) := by
  induction as generalizing s with
  | nil => exact h0
  | cons a as ih => exact ih (hstep s a h0 h.1) h.2

/-- the rule for an invariant that every step keeps -/
theorem run_inv_all {I : σ → Prop} (hstep : ∀ s a, I s → I (step s a)) {s : σ} (as : List α) (h0 : I s) :
    I (run step s as) := by
  induction as generalizing s with
  | nil => exact h0
  | cons a as ih => exact ih (hstep s a h0)

/-- a run inside `P` stays inside an invariant that its steps keep -/
theorem Along.and_inv {I : σ → Prop} (hstep : ∀ s a, I s → P s a → I (step s a)) {s : σ} {as : List α} (h0 : I s)
    (h : Along step P s as) : Along step (fun s a => P s a ∧ I s) s as := by
  induction as generalizing s with
  | nil => trivial
  | cons a as ih => exact ⟨⟨h.1, h0⟩, ih (hstep s a h0 h.1) h.2⟩

/-- a condition that every step meets holds along every run -/
theorem along_of_forall (h : ∀ s a, P s a) (s : σ) (as : List α) : Along step P s as := by
  induction as generalizing s with
  | nil => trivial
  | cons a as ih => exact ⟨h s a, ih (step s a)⟩

/-- a condition on the actions alone -/
theorem along_iff_forall_mem {A : α → Prop} {s : σ} {as : List α} : Along step (fun _ a => A a) s as ↔ ∀ a ∈ as, A a := by
  induction as generalizing s with
  | nil => simp [Along]
  | cons a as ih => simp [Along, ih]

/-- **The exact rule.** Inside `I` the property `H` holds; of the actions in `A`, a step inside `P` keeps `I`, and a step
outside `P` breaks `H`. Then `H` holds after every prefix of a run of such actions exactly when all its steps are inside
`P`. -/
theorem prefixes_iff_along_of {A : α → Prop} {I H : σ → Prop} (hI : ∀ s, I s → H s)
    (hstep : ∀ s a, A a → I s → P s a → I (step s a)) (hbreak : ∀ s a, A a → I s → ¬P s a → ¬H (step s a)) {s : σ}
    {as : List α} (hA : ∀ a ∈ as, A a) (h0 : I s) :
    (∀ bs, bs <+: as → H (run step s bs)) ↔ Along step P s as := by
  induction as generalizing s with
  | nil =>
    refine ⟨fun _ => trivial, fun _ bs hbs => ?_⟩
    rw [List.prefix_nil.1 hbs]
    exact hI s h0
  | cons a as ih =>
    have ha := hA a List.mem_cons_self
    have hrest : ∀ b ∈ as, A b := fun b hb => hA b (List.mem_cons_of_mem a hb)
    constructor
    · intro h
      have hP : P s a := by
        by_contra hn
        exact hbreak s a ha h0 hn (h [a] (List.prefix_append [a] as))
      refine ⟨hP, (ih hrest (hstep s a ha h0 hP)).1 fun bs hbs => ?_⟩
      exact h (a :: bs) (List.cons_prefix_cons.2 ⟨rfl, hbs⟩)
    · intro h bs hbs
      cases bs with
      | nil => exact hI s h0
      | cons b bs =>
        obtain ⟨rfl, hrec⟩ := List.cons_prefix_cons.1 hbs
        exact (ih hrest (hstep s b ha h0 h.1)).2 h.2 bs hrec

/-- the rule for arbitrary actions -/
theorem prefixes_iff_along {I H : σ → Prop} (hI : ∀ s, I s → H s) (hstep : ∀ s a, I s → P s a → I (step s a))
    (hbreak : ∀ s a, I s → ¬P s a → ¬H (step s a)) {s : σ} {as : List α} (h0 : I s) :
    (∀ bs, bs <+: as → H (run step s bs)) ↔ Along step P s as :=
  prefixes_iff_along_of (A := fun _ => True) hI (fun s a _ => hstep s a) (fun s a _ => hbreak s a) (by simp) h0

/-! ## What a run emits -/

section Emitted

variable {β : Type} (step)

/-- the outputs of the steps of a run, in order -/
def emitted (out : σ → α → List β) : σ → List α → List β
  | _, [] => []
  | s, a :: as => out s a ++ emitted out (step s a) as

theorem emitted_filter (p : β → Bool) (out : σ → α → List β) (s : σ) (as : List α) :
    emitted step (fun s a => (out s a).filter p) s as = (emitted step out s as).filter p := by
  induction as generalizing s with
  | nil => rfl
  | cons a as ih => simp only [emitted, ih, List.filter_append]

theorem emitted_map {γ : Type} (f : β → γ) (out : σ → α → List β) (s : σ) (as : List α) :
    emitted step (fun s a => (out s a).map f) s as = (emitted step out s as).map f := by
  induction as generalizing s with
  | nil => rfl
  | cons a as ih => simp only [emitted, ih, List.map_append]

variable {step}

theorem emitted_append (out : σ → α → List β) (s : σ) (as bs : List α) :
    emitted step out s (as ++ bs) = emitted step out s as ++ emitted step out (run step s as) bs := by
  induction as generalizing s with
  | nil => rfl
  | cons a as ih => simp only [emitted, run_cons, List.cons_append, ih, List.append_assoc]

theorem emitted_snoc (out : σ → α → List β) (s : σ) (as : List α) (a : α) :
    emitted step out s (as ++ [a]) = emitted step out s as ++ out (run step s as) a := by
  rw [emitted_append, emitted, emitted, List.append_nil]

/-- a log to which every step appends what it emits -/
theorem emitted_log {out : σ → α → List β} {log : σ → List β} (hstep : ∀ s a, log (step s a) = log s ++ out s a) (s : σ)
    (as : List α) : log (run step s as) = log s ++ emitted step out s as := by
  induction as generalizing s with
  | nil => simp [emitted]
  | cons a as ih => rw [run_cons, ih, hstep, emitted, List.append_assoc]

/-- what every step emits -/
theorem forall_mem_emitted {Q : β → Prop} {out : σ → α → List β} (h : ∀ s a, ∀ x ∈ out s a, Q x) (s : σ) (as : List α) :
    ∀ x ∈ emitted step out s as, Q x := by
  induction as generalizing s with
  | nil => exact fun x hx => absurd hx List.not_mem_nil
  | cons a as ih =>
    intro x hx
    rcases List.mem_append.1 hx with hx | hx
    · exact h s a x hx
    · exact ih _ x hx

/-- **The queue rule.** `q` is what a party has taken in and not yet passed on. If every step inside `P` passes on
from the front of it and takes in at its end, then a run passes on what was held at first and then what it took in, up
to what is still held. -/
theorem emitted_fifo {inp out : σ → α → List β} {q : σ → List β}
    (hstep : ∀ s a, P s a → out s a ++ q (step s a) = q s ++ inp s a) {s : σ} {as : List α}
    (h : Along step P s as) :
    emitted step out s as ++ q (run step s as) = q s ++ emitted step inp s as := by
  induction as generalizing s with
  | nil => simp [emitted]
  | cons a as ih =>
    calc emitted step out s (a :: as) ++ q (run step s (a :: as))
        = out s a ++ (emitted step out (step s a) as ++ q (run step (step s a) as)) := by
          simp only [emitted, run_cons, List.append_assoc]
      _ = out s a ++ q (step s a) ++ emitted step inp (step s a) as := by rw [ih h.2, List.append_assoc]
      _ = q s ++ emitted step inp s (a :: as) := by rw [hstep s a h.1, emitted, List.append_assoc]

/-- **The simulation rule.** If every step does to `f` what the actions it emits do in another machine, a whole run does
what all the actions it emits do there. -/
theorem run_emitted {τ : Type} {step' : τ → β → τ} {f : σ → τ} {out : σ → α → List β}
    (h : ∀ s a, f (step s a) = run step' (f s) (out s a)) (s : σ) (as : List α) :
    f (run step s as) = run step' (f s) (emitted step out s as) := by
  induction as generalizing s with
  | nil => rfl
  | cons a as ih => rw [run_cons, ih, h, emitted, run_append]

/-- an action that a run emits is emitted by one of its steps -/
theorem emitted_eq_append_cons {out : σ → α → List β} {s : σ} {as : List α} {pre post : List β} {b : β}
    (h : emitted step out s as = pre ++ b :: post) :
    ∃ bs a cs pre' post', as = bs ++ a :: cs ∧ out (run step s bs) a = pre' ++ b :: post' ∧
      pre = emitted step out s bs ++ pre' := by
  induction as generalizing s pre with
  | nil => simp [emitted] at h
  | cons a as ih =>
    rw [emitted, List.append_eq_append_iff] at h
    rcases h with ⟨rest, rfl, hrest⟩ | ⟨rest, hout, hrest⟩
    · obtain ⟨bs, c, cs, pre', post', rfl, hemit, rfl⟩ := ih hrest
      exact ⟨a :: bs, c, cs, pre', post', rfl, hemit, by rw [emitted, List.append_assoc]⟩
    · cases rest with
      | nil =>
        rw [List.append_nil] at hout
        have hlater : emitted step out (step s a) as = [] ++ b :: post := hrest.symm
        obtain ⟨bs, c, cs, pre', post', rfl, hemit, hpre⟩ := ih hlater
        exact ⟨a :: bs, c, cs, pre', post', rfl, hemit, by rw [emitted, List.append_assoc, ← hpre, hout, List.append_nil]⟩
      | cons d rest =>
        obtain ⟨rfl, hpost⟩ := List.cons.inj hrest
        exact ⟨[], a, as, pre, rest, rfl, hout, rfl⟩

end Emitted

/-! ## Infinite runs -/

section Infinite

variable (step) (s : σ) (as : ℕ → α)

/-- the states of an infinite run -/
def states : ℕ → σ
  | 0 => s
  | n + 1 => step (states n) (as n)

theorem states_eq_run (n : ℕ) : states step s as n = run step s ((List.range n).map as) := by
  induction n with
  | zero => rfl
  | succ n ih => rw [states, ih, List.range_succ, List.map_append, List.map_singleton, run_snoc]

/-- a prefix of an infinite run inside `P` is inside `P` -/
theorem along_states (h : ∀ n, P (states step s as n) (as n)) (n : ℕ) : Along step P s ((List.range n).map as) := by
  induction n with
  | zero => trivial
  | succ n ih =>
    rw [List.range_succ, List.map_append, List.map_singleton]
    exact ih.snoc (states_eq_run step s as n ▸ h n)

variable {step s as} {γ : Type}

/-- **The ranking rule.** `acts t a` says that action `a` is a step of thread `t`. In a pending state some thread helps:
until it is scheduled it goes on helping and the rank does not grow, its step lowers the rank, and so may any other step;
the state stays pending until the goal is reached. If every thread is scheduled again and again, the goal is reached. -/
theorem eventually_of_rank {x : ℕ → σ} (acts : γ → α → Prop) (pending goal : σ → Prop) (helps : γ → σ → Prop)
    (rank : σ → ℕ) (hfair : ∀ t n, ∃ m, n ≤ m ∧ acts t (as m))
    (hhelp : ∀ n, pending (x n) → ∃ t, helps t (x n))
    (hstep : ∀ n t, pending (x n) → helps t (x n) → goal (x (n + 1)) ∨ (pending (x (n + 1)) ∧
      (rank (x (n + 1)) < rank (x n) ∨ (¬acts t (as n) ∧ helps t (x (n + 1)) ∧ rank (x (n + 1)) ≤ rank (x n)))))
    (n : ℕ) (hn : pending (x n)) : ∃ m, n ≤ m ∧ goal (x m) := by
  -- on the rank, and inside on the time until the helping thread is scheduled
  obtain ⟨r, hr⟩ : ∃ r, rank (x n) ≤ r := ⟨_, le_rfl⟩
  induction r using Nat.strong_induction_on generalizing n with
  | _ r ih =>
    obtain ⟨t, ht⟩ := hhelp n hn
    obtain ⟨m, hm, hact⟩ := hfair t n
    obtain ⟨d, rfl⟩ := Nat.exists_eq_add_of_le hm
    clear hm
    induction d generalizing n with
    | zero =>
      rcases hstep n t hn ht with h | ⟨hp, h | ⟨h, -⟩⟩
      · exact ⟨n + 1, Nat.le_succ n, h⟩
      · obtain ⟨k, hk, hgoal⟩ := ih (rank (x (n + 1))) (lt_of_lt_of_le h hr) (n + 1) hp le_rfl
        exact ⟨k, by omega, hgoal⟩
      · exact absurd hact h
    | succ d ihd =>
      rcases hstep n t hn ht with h | ⟨hp, h | ⟨-, hkeep, hle⟩⟩
      · exact ⟨n + 1, Nat.le_succ n, h⟩
      · obtain ⟨k, hk, hgoal⟩ := ih (rank (x (n + 1))) (lt_of_lt_of_le h hr) (n + 1) hp le_rfl
        exact ⟨k, by omega, hgoal⟩
      · obtain ⟨k, hk, hgoal⟩ := ihd (n + 1) hp (hle.trans hr) hkeep (by rwa [Nat.succ_add_eq_add_succ])
        exact ⟨k, by omega, hgoal⟩

/-- the rule for one thread: nobody else ends the pending state, and a step of the thread reaches the goal -/
theorem eventually_of_thread {x : ℕ → σ} (acts : γ → α → Prop) (pending goal : σ → Prop) (t : γ)
    (hfair : ∀ t n, ∃ m, n ≤ m ∧ acts t (as m))
    (hkeep : ∀ n, pending (x n) → ¬acts t (as n) → pending (x (n + 1)))
    (hgoal : ∀ n, pending (x n) → acts t (as n) → goal (x (n + 1))) (n : ℕ) (hn : pending (x n)) :
    ∃ m, n ≤ m ∧ goal (x m) := by
  refine eventually_of_rank acts pending goal (fun t' _ => t' = t) (fun _ => 0) hfair (fun _ _ => ⟨t, rfl⟩) ?_ n hn
  rintro n t' hp rfl
  by_cases hact : acts t' (as n)
  · exact Or.inl (hgoal n hp hact)
  · exact Or.inr ⟨hkeep n hp hact, Or.inr ⟨hact, rfl, le_rfl⟩⟩

/-- what lasts until an event is still there at the first time of it -/
theorem eventually_and {x : ℕ → σ} (pending goal : σ → Prop)
    (hkeep : ∀ n, pending (x n) → ¬goal (x n) → pending (x (n + 1))) {n : ℕ} (hn : pending (x n))
    (h : ∃ m, n ≤ m ∧ goal (x m)) : ∃ m, n ≤ m ∧ pending (x m) ∧ goal (x m) := by
  obtain ⟨m, hm, hg⟩ := h
  obtain ⟨d, rfl⟩ := Nat.exists_eq_add_of_le hm
  clear hm
  induction d generalizing n with
  | zero => exact ⟨n, le_rfl, hn, hg⟩
  | succ d ih =>
    by_cases hnow : goal (x n)
    · exact ⟨n, le_rfl, hn, hnow⟩
    · rw [← Nat.succ_add_eq_add_succ] at hg
      obtain ⟨m, hm, hboth⟩ := ih (hkeep n hn hnow) hg
      exact ⟨m, Nat.le_of_succ_le hm, hboth⟩

end Infinite

end MeshProxy.Trace
