/-
**Machines with labelled steps, their runs, and invariants along them.**

A machine is a start state and a partial step function: the label carries every choice the
environment makes (which process moves, what it is told, what the clock reads), so a step is a
function of the state and the label, and a label that is not enabled has no successor.  Nothing
here depends on what the states are.

Main definitions:

* `Machine.runWhile`, `Machine.run` — the state a list of labels leads to, every step meeting a
  decidable condition, or none;
* `Machine.Reach` — the states reached by a run *all of whose steps meet a condition*, the
  condition being on the state a step leaves and on its label;
* `Machine.Reachable` — the same with no condition;
* `Machine.Leads` — a run from one state to another, all of whose steps meet a condition.

Main results:

* `Machine.Reach.invariant` — an inductive invariant holds in every state reached;
* `Machine.Reachable.part` — what a machine does to a part of its state;
* `Machine.Leads.of_decreasing` — a goal that can always be come nearer to can be reached;
* `Machine.Reach.mono`, `Machine.Reach.of_runWhile` — weakening the condition, and running a list
  of labels;
* `Machine.holds_throughout_iff` — a property that *exactly* the steps meeting a condition keep
  holds throughout a run exactly when all steps of the run meet it;
* `Machine.forall_steps_iff` — the same for a property of steps, when every label is enabled.
-/

import Mathlib.Logic.Relation
import Mathlib.Data.List.Basic

set_option relaxedAutoImplicit false
set_option autoImplicit false

universe u v

/-- A start state and a partial step function. -/
structure Machine (σ : Type u) (α : Type v) where
  /-- The state before any step. -/
  start : σ
  /-- The successor of a state under a label, when the label is enabled. -/
  next : σ → α → Option σ

namespace Machine

variable {σ : Type u} {α : Type v} {M : Machine σ α}

/-! ### Runs -/

/-- The state a list of labels leads to, when each in its turn is enabled and meets `P`. -/
def runWhile (M : Machine σ α) (P : σ → α → Prop) [∀ s a, Decidable (P s a)] :
    σ → List α → Option σ
  | s, [] => some s
  | s, a :: as => if P s a then (M.next s a).bind fun s' => M.runWhile P s' as else none

/-- The state a list of labels leads to, when each is enabled in its turn. -/
def run (M : Machine σ α) : σ → List α → Option σ := M.runWhile fun _ _ => True

variable {P : σ → α → Prop} [∀ s a, Decidable (P s a)]

/-- A step that meets the condition goes first. -/
theorem runWhile_cons_of_pos {s s' : σ} {a : α} {as : List α} (hp : P s a)
    (hn : M.next s a = some s') : M.runWhile P s (a :: as) = M.runWhile P s' as := by
  rw [runWhile, if_pos hp, hn, Option.bind_some]

/-- A step that does not meet it ends the run. -/
theorem runWhile_cons_of_neg {s : σ} {a : α} {as : List α} (hp : ¬ P s a) :
    M.runWhile P s (a :: as) = none := by
  rw [runWhile, if_neg hp]

omit [∀ s a, Decidable (P s a)] in
theorem run_cons_eq_some_iff {s s' : σ} {a : α} {as : List α} :
    M.run s (a :: as) = some s' ↔ ∃ t, M.next s a = some t ∧ M.run t as = some s' := by
  rw [run, runWhile, if_pos trivial, Option.bind_eq_some_iff]

omit [∀ s a, Decidable (P s a)] in
/-- A run is cut in two. -/
theorem run_append_eq_some_iff {s s' : σ} {as bs : List α} :
    M.run s (as ++ bs) = some s' ↔ ∃ t, M.run s as = some t ∧ M.run t bs = some s' := by
  induction as generalizing s with
  | nil =>
      constructor
      · exact fun h => ⟨s, rfl, h⟩
      · rintro ⟨t, ht, h⟩
        cases ht
        exact h
  | cons a as ih =>
      simp only [List.cons_append, run_cons_eq_some_iff, ih]
      constructor
      · rintro ⟨u, hu, t, ht, h⟩
        exact ⟨t, ⟨u, hu, ht⟩, h⟩
      · rintro ⟨t, ⟨u, hu, ht⟩, h⟩
        exact ⟨u, hu, t, ht, h⟩

/-- A run under a condition is a run. -/
theorem run_of_runWhile {s s' : σ} {as : List α} (h : M.runWhile P s as = some s') :
    M.run s as = some s' := by
  induction as generalizing s with
  | nil => exact h
  | cons a as ih =>
      rw [runWhile] at h
      split at h
      · obtain ⟨t, ht, hrest⟩ := Option.bind_eq_some_iff.1 h
        exact run_cons_eq_some_iff.2 ⟨t, ht, ih hrest⟩
      · cases h

/-! ### Reachable states -/

/-- **The states reached by a run all of whose steps meet `P`**, a condition on the state a step
leaves and on its label. -/
inductive Reach (M : Machine σ α) (P : σ → α → Prop) : σ → Prop
  | start : Reach M P M.start
  | step {s s' : σ} {a : α} : Reach M P s → P s a → M.next s a = some s' → Reach M P s'

/-- The states reached by any run. -/
def Reachable (M : Machine σ α) : σ → Prop := M.Reach fun _ _ => True

namespace Reach

variable {P Q : σ → α → Prop}

/-- **The invariant rule**: what holds at the start and is kept by every admitted step out of a
reached state holds in every state reached. -/
theorem invariant {I : σ → Prop} (hstart : I M.start)
    (hstep : ∀ s a s', M.Reach P s → I s → P s a → M.next s a = some s' → I s') {s : σ}
    (h : M.Reach P s) : I s := by
  induction h with
  | start => exact hstart
  | step hs hp hn ih => exact hstep _ _ _ hs ih hp hn

/-- A weaker condition reaches more states. -/
theorem mono (hpq : ∀ s a, P s a → Q s a) {s : σ} (h : M.Reach P s) : M.Reach Q s := by
  induction h with
  | start => exact start
  | step _ hp hn ih => exact ih.step (hpq _ _ hp) hn

theorem reachable {s : σ} (h : M.Reach P s) : M.Reachable s := h.mono fun _ _ _ => trivial

/-- A list of labels run under a condition stays among the states reached. -/
theorem of_runWhile [∀ s a, Decidable (P s a)] {s s' : σ} (hs : M.Reach P s) (as : List α)
    (hr : M.runWhile P s as = some s') : M.Reach P s' := by
  induction as generalizing s with
  | nil => exact Option.some_inj.1 hr ▸ hs
  | cons a as ih =>
      rw [runWhile] at hr
      split at hr
      · next hp =>
          obtain ⟨t, ht, hr⟩ := Option.bind_eq_some_iff.1 hr
          exact ih (hs.step hp ht) hr
      · simp at hr

end Reach

namespace Reachable

theorem start : M.Reachable M.start := Reach.start

theorem step {s s' : σ} {a : α} (h : M.Reachable s) (hn : M.next s a = some s') :
    M.Reachable s' := Reach.step h trivial hn

/-- The invariant rule for unconditional reachability. -/
theorem invariant {I : σ → Prop} (hstart : I M.start)
    (hstep : ∀ s a s', M.Reachable s → I s → M.next s a = some s' → I s') {s : σ}
    (h : M.Reachable s) : I s :=
  Reach.invariant hstart (fun s a s' hs hi _ hn => hstep s a s' hs hi hn) h

/-- A list of labels run from a reachable state ends in one. -/
theorem of_run {s s' : σ} (h : M.Reachable s) (as : List α) (hr : M.run s as = some s') :
    M.Reachable s' :=
  Reach.of_runWhile h as hr

end Reachable

/-! ### Parts of a machine -/

section Parts

variable {τ : Type*} {β : Type*} {N : Machine τ β}

/-- **A part of a machine**: when every step of the whole is a run of the part, the part is in a
state it can reach on its own. -/
theorem Reachable.part (f : σ → τ) (hstart : N.Reachable (f M.start))
    (hstep : ∀ s a s', M.Reachable s → N.Reachable (f s) → M.next s a = some s' →
      ∃ bs, N.run (f s) bs = some (f s')) {s : σ} (h : M.Reachable s) : N.Reachable (f s) :=
  h.invariant hstart fun s a s' hs hpart hn => by
    obtain ⟨bs, hrun⟩ := hstep s a s' hs hpart hn
    exact hpart.of_run bs hrun

end Parts

/-! ### Runs that get there -/

/-- A run from one state to the other, all of whose steps meet `P`. -/
inductive Leads (M : Machine σ α) (P : σ → α → Prop) (s : σ) : σ → Prop
  | refl : Leads M P s s
  | next {t u : σ} {a : α} : Leads M P s t → P t a → M.next t a = some u → Leads M P s u

namespace Leads

variable {P Q : σ → α → Prop} {s s' s'' : σ}

theorem trans (h : M.Leads P s s') (h' : M.Leads P s' s'') : M.Leads P s s'' := by
  induction h' with
  | refl => exact h
  | next _ hp hn ih => exact ih.next hp hn

theorem step {a : α} (hp : P s a) (hn : M.next s a = some s') : M.Leads P s s' :=
  refl.next hp hn

theorem mono (h : M.Leads P s s') (hpq : ∀ s a, P s a → Q s a) : M.Leads Q s s' := by
  induction h with
  | refl => exact refl
  | next _ hp hn ih => exact ih.next (hpq _ _ hp) hn

/-- A run that goes on from a reachable state. -/
theorem reachable (h : M.Leads P s s') (hs : M.Reachable s) : M.Reachable s' := by
  induction h with
  | refl => exact hs
  | next _ _ hn ih => exact ih.step hn

/-- **The invariant rule** for a run from a reachable state. -/
theorem invariant {I : σ → Prop} (hs : M.Reachable s) (hstart : I s)
    (hstep : ∀ t a u, M.Reachable t → I t → P t a → M.next t a = some u → I u)
    (h : M.Leads P s s') : I s' := by
  induction h with
  | refl => exact hstart
  | next ht hp hn ih => exact hstep _ _ _ (ht.reachable hs) ih hp hn

/-- **Getting there**: when every state on the way can come nearer to the goal, it can be
reached. -/
theorem of_decreasing {I goal : σ → Prop} (μ : σ → ℕ)
    (hnear : ∀ s, I s → ¬ goal s → ∃ s', M.Leads P s s' ∧ I s' ∧ μ s' < μ s) {s : σ} (hs : I s) :
    ∃ s', M.Leads P s s' ∧ I s' ∧ goal s' := by
  induction hμ : μ s using Nat.strongRecOn generalizing s with
  | _ n ih =>
      by_cases hgoal : goal s
      · exact ⟨s, refl, hs, hgoal⟩
      · obtain ⟨t, hst, ht, hlt⟩ := hnear s hs hgoal
        obtain ⟨u, htu, hu, hgoal'⟩ := ih (μ t) (hμ ▸ hlt) ht rfl
        exact ⟨u, hst.trans htu, hu, hgoal'⟩

end Leads

/-! ### Exact conditions -/

section Throughout

variable {I : σ → Prop} {P : σ → α → Prop} [∀ s a, Decidable (P s a)]

/-- What holds of every state a run passes through holds of the first, and of those it passes
through from the second on. -/
theorem forall_passed_cons_iff {s t : σ} {a : α} {as : List α} (hn : M.next s a = some t) :
    (∀ before v, before <+: a :: as → M.run s before = some v → I v) ↔
      I s ∧ ∀ before v, before <+: as → M.run t before = some v → I v := by
  constructor
  · intro hall
    refine ⟨hall [] s List.nil_prefix rfl, fun before v hinit hrun => ?_⟩
    exact hall (a :: before) v (List.cons_prefix_cons.2 ⟨rfl, hinit⟩)
      (run_cons_eq_some_iff.2 ⟨t, hn, hrun⟩)
  · rintro ⟨hs, hrest⟩ before v hinit hrun
    cases before with
    | nil => exact Option.some_inj.1 hrun ▸ hs
    | cons b before =>
        obtain ⟨rfl, htail⟩ := List.cons_prefix_cons.1 hinit
        obtain ⟨t', ht', hlater⟩ := run_cons_eq_some_iff.1 hrun
        obtain rfl := Option.some_inj.1 (hn.symm.trans ht')
        exact hrest before v htail hlater

/-- **Throughout a run**: when exactly the steps that meet `P` keep `I`, then `I` holds of every
state a run passes through exactly when all its steps meet `P`. -/
theorem holds_throughout_iff
    (hstep : ∀ s a t, M.Reachable s → I s → M.next s a = some t → (I t ↔ P s a))
    {s w : σ} {as : List α} (hs : M.Reachable s) (hI : I s) (hrun : M.run s as = some w) :
    (∀ before v, before <+: as → M.run s before = some v → I v) ↔
      M.runWhile P s as = some w := by
  induction as generalizing s with
  | nil =>
      refine iff_of_true (fun before v hinit hv => ?_) hrun
      obtain rfl := List.prefix_nil.1 hinit
      exact Option.some_inj.1 hv ▸ hI
  | cons a as ih =>
      obtain ⟨t, hn, hrest⟩ := run_cons_eq_some_iff.1 hrun
      rw [forall_passed_cons_iff hn]
      by_cases hp : P s a
      · rw [runWhile_cons_of_pos hp hn,
          ← ih (hs.step hn) ((hstep s a t hs hI hn).2 hp) hrest]
        exact and_iff_right hI
      · rw [runWhile_cons_of_neg hp]
        refine iff_of_false (fun hall => hp ?_) (by nofun)
        exact (hstep s a t hs hI hn).1 (hall.2 [] t List.nil_prefix rfl)

end Throughout

/-! ### Total steps -/

section Steps

variable {f : σ → α → σ}

/-- What holds of every step of a run holds of its first step, and of those of the rest. -/
theorem forall_steps_cons_iff {R : σ → α → Prop} {s : σ} {a : α} {as : List α} :
    (∀ before b, before ++ [b] <+: a :: as → R (before.foldl f s) b) ↔
      R s a ∧ ∀ before b, before ++ [b] <+: as → R (before.foldl f (f s a)) b := by
  constructor
  · intro hall
    refine ⟨hall [] a (List.prefix_append [a] as), fun before b hinit => ?_⟩
    exact hall (a :: before) b (List.cons_prefix_cons.2 ⟨rfl, hinit⟩)
  · rintro ⟨hfirst, hrest⟩ before b hinit
    cases before with
    | nil =>
        obtain ⟨rfl, -⟩ := List.cons_prefix_cons.1 hinit
        exact hfirst
    | cons c before =>
        obtain ⟨rfl, htail⟩ := List.cons_prefix_cons.1 hinit
        exact hrest before b htail

/-- **Steps that are what they should be**: when, under an invariant, exactly the steps that meet
`C` are as `Q` says, and these keep the invariant, then all steps of a run are as `Q` says exactly
when all of them meet `C`. -/
theorem forall_steps_iff {I : σ → Prop} {Q C : σ → α → Prop}
    (hstep : ∀ s a, I s → (Q s a ↔ C s a)) (hkeep : ∀ s a, I s → C s a → I (f s a)) {s : σ}
    (hs : I s) (as : List α) :
    (∀ before b, before ++ [b] <+: as → Q (before.foldl f s) b) ↔
      ∀ before b, before ++ [b] <+: as → C (before.foldl f s) b := by
  induction as generalizing s with
  | nil =>
      have hnot : ∀ (before : List α) (b : α), ¬ before ++ [b] <+: [] := by simp
      exact iff_of_true (fun before b h => absurd h (hnot before b))
        fun before b h => absurd h (hnot before b)
  | cons a as ih =>
      rw [forall_steps_cons_iff, forall_steps_cons_iff, hstep s a hs]
      exact and_congr_right fun hc => ih (hkeep s a hs hc)

end Steps

end Machine
