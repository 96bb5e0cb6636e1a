/-
**The outcome of an attempt: the first one delivered.**

The first outcome that is reported for an attempt should be the one the projection shows, whatever
is delivered afterwards.  The handlers guard the two halves of this separately.  An outcome that
contradicts the status of the *job* is turned away although the attempt has none yet; a start is
backfilled only when attempt and job failed together, so it reopens a failed attempt of a job that
has moved on; and a retrieval moves the job whatever became of the attempt.  The theorem says that
these are the only three ways.

Main definitions:

* `JobVisibility.outcome`, `firstOutcome` — the outcome shown, and the first one delivered;
* `OutcomesFinal` — what is promised of a sequence of events;
* `KeepsOutcomes` — **the events that keep to it**.

Main results:

* `Lifecycle.reports_next_iff` — one event;
* `outcomesFinal_iff` — **outcomes are final along a sequence of events exactly when each of its
  events keeps them**.
-/

import ScheduledJobs.AttemptMap
import ScheduledJobs.BudgetAgreement
import ScheduledJobs.RetryAdvertisement

set_option relaxedAutoImplicit false
set_option autoImplicit false

namespace ScheduledJobs

open JobVisibility

/-! ### What is delivered -/

/-- The outcome an event reports for an attempt. -/
def Event.outcomeOf (n : ℕ) (event : Event) : Option Outcome :=
  if event.number = n then
    match event.eventType with
    | .jobExecutionSucceeded => some .succeeded
    | .jobExecutionFailed => some .failed
    | _ => none
  else none

/-- The first outcome delivered for an attempt. -/
def firstOutcome (n : ℕ) (events : List Event) : Option Outcome :=
  events.findSome? (Event.outcomeOf n)

theorem firstOutcome_concat (n : ℕ) (before : List Event) (event : Event) :
    firstOutcome n (before ++ [event]) = (firstOutcome n before).or (event.outcomeOf n) := by
  simp only [firstOutcome, List.findSome?_append, List.findSome?_cons, List.findSome?_nil]
  cases event.outcomeOf n <;> rfl

/-! ### What is shown -/

/-- The outcome shown for an attempt. -/
def JobVisibility.outcome (job : JobVisibility) (n : ℕ) : Option Outcome :=
  (job.attempts.get? n).bind fun attempt => attempt.status.outcome

namespace Lifecycle

/-- The outcome of an attempt. -/
def outcome (l : Lifecycle) (n : ℕ) : Option Outcome := (l.attemptStatus n).outcome

@[simp] theorem outcome_moveTo (l : Lifecycle) (s : Status) (m : ℕ) :
    (l.moveTo s).outcome m = l.outcome m := rfl

theorem outcome_eq_succeeded_iff {l : Lifecycle} {n : ℕ} :
    l.outcome n = some .succeeded ↔ l.attemptStatus n = .succeeded := by
  unfold outcome
  cases l.attemptStatus n <;> decide

theorem outcome_eq_failed_iff {l : Lifecycle} {n : ℕ} :
    l.outcome n = some .failed ↔ l.attemptStatus n = .failed := by
  unfold outcome
  cases l.attemptStatus n <;> decide

theorem outcome_put (l : Lifecycle) (n : ℕ) (s : AttemptStatus) (m : ℕ) :
    (l.put n s).outcome m = if m = n then s.outcome else l.outcome m := by
  unfold outcome
  split
  · next h => rw [h, attemptStatus_put_self]
  · next h => rw [attemptStatus_put_ne l h]

/-- The outcome of an attempt that is put back stays. -/
theorem outcome_put_self (l : Lifecycle) (n m : ℕ) :
    (l.put n (l.attemptStatus n)).outcome m = l.outcome m := by
  rw [outcome_put]
  split
  · next h => rw [h, outcome]
  · rfl

end Lifecycle

theorem outcome_lifecycle (job : JobVisibility) (n : ℕ) :
    job.lifecycle.outcome n = job.outcome n := by
  simp only [Lifecycle.outcome, Lifecycle.attemptStatus, lifecycle, outcome]
  cases job.attempts.get? n <;> rfl

/-! ### One event -/

/-- The event leaves the outcomes as they should be: an outcome finds the attempt decided or the
job not finished otherwise, a start of a failed attempt finds the job failed or succeeded, and a
retrieval of a decided attempt finds the job finished, running or awaiting execution. -/
def KeepsOutcomes (l : Lifecycle) (event : Event) : Prop :=
  match event.eventType with
  | .jobExecutionSucceeded =>
      (l.outcome event.number).isSome ∨ l.status ∉ [.failed, .retriesExhausted]
  | .jobExecutionFailed =>
      (l.outcome event.number).isSome ∨ l.status ∉ [.succeeded, .failed, .retriesExhausted]
  | .jobExecutionStarted =>
      l.outcome event.number = some .failed → l.status ∈ [.succeeded, .failed]
  | .jobSchedulerItemRetrieved =>
      (l.outcome event.number).isSome →
        l.status.isTerminal ∨ l.status ∈ [.running, .awaitingExecution]
  | _ => True

/-- Evidence about the execution of a decided attempt that moves neither the attempt nor the job. -/
def Lifecycle.Unmoved (l : Lifecycle) (event : Event) : Prop :=
  event.eventType ∈ [.jobExecutionStarted, .jobSchedulerItemRetrieved] →
    (l.outcome event.number).isSome →
    (l.next event).attemptStatus event.number = l.attemptStatus event.number ∧
      (l.next event).status = l.status

theorem Event.outcomeOf_ne {event : Event} {m : ℕ} (h : m ≠ event.number) :
    event.outcomeOf m = none := if_neg h.symm

theorem Event.outcomeOf_number (event : Event) :
    event.outcomeOf event.number =
      match event.eventType with
      | .jobExecutionSucceeded => some .succeeded
      | .jobExecutionFailed => some .failed
      | _ => none := if_pos rfl

namespace Lifecycle

variable {l : Lifecycle} {event : Event}

/-- The outcomes are the ones they should be after an event. -/
def Reports (l : Lifecycle) (event : Event) (after : Lifecycle) : Prop :=
  ∀ n, after.outcome n = (l.outcome n).or (event.outcomeOf n)

/-- Only the attempt the event is about can be wrong. -/
theorem reports_put_iff {s : AttemptStatus} {t : Status} :
    l.Reports event ((l.put event.number s).moveTo t) ↔
      s.outcome = (l.outcome event.number).or (event.outcomeOf event.number) := by
  constructor
  · intro h
    have hnumber := h event.number
    rwa [outcome_moveTo, outcome_put, if_pos rfl] at hnumber
  · intro h n
    rw [outcome_moveTo, outcome_put]
    split
    · next hn => rw [hn, h]
    · next hn => rw [Event.outcomeOf_ne hn, Option.or_none]

/-- The outcomes stay when they are decided already, or when none is reported. -/
theorem reports_same_iff {after : Lifecycle} (hafter : ∀ n, after.outcome n = l.outcome n) :
    l.Reports event after ↔
      (l.outcome event.number).isSome ∨ event.outcomeOf event.number = none := by
  constructor
  · intro h
    have hnumber := h event.number
    rw [hafter] at hnumber
    cases hout : l.outcome event.number with
    | none =>
        rw [hout, Option.none_or] at hnumber
        exact Or.inr hnumber.symm
    | some outcome => exact Or.inl rfl
  · intro h n
    rw [hafter]
    by_cases hn : n = event.number
    · subst hn
      rcases h with hsome | hnone
      · obtain ⟨outcome, hout⟩ := Option.isSome_iff_exists.1 hsome
        rw [hout, Option.some_or]
      · rw [hnone, Option.or_none]
    · rw [Event.outcomeOf_ne hn, Option.or_none]

/-- A retrieval decides nothing, and moves a decided job that awaits nothing. -/
theorem reports_retrieved_iff (ht : event.eventType = .jobSchedulerItemRetrieved) :
    l.Reports event (l.next event) ∧ l.Unmoved event ↔ KeepsOutcomes l event := by
  have hnext : l.next event = l.retrieved event.number := by rw [Lifecycle.next, ht]
  have hattempt : (l.retrieved event.number).attemptStatus event.number =
      if l.attemptStatus event.number = .unknown then .retrieved
      else l.attemptStatus event.number := by
    rw [retrieved, attemptStatus_submit, attemptStatus_put_self]
  have houtcome : ∀ n, (l.next event).outcome n = l.outcome n := by
    intro n
    rw [hnext, outcome]
    by_cases hn : n = event.number
    · subst hn
      rw [hattempt, outcome]
      split
      · next h => rw [h]; rfl
      · rfl
    · rw [retrieved, attemptStatus_submit, attemptStatus_put_ne l hn, outcome]
  have hnone : event.outcomeOf event.number = none := by rw [Event.outcomeOf_number, ht]
  rw [reports_same_iff houtcome, and_iff_right (Or.inr hnone)]
  simp only [Unmoved, KeepsOutcomes, ht, hnext, List.mem_cons, List.not_mem_nil, or_false, or_true,
    true_implies]
  refine imp_congr_right fun hdecided => ?_
  have hknown : l.attemptStatus event.number ≠ .unknown := by
    intro h
    rw [outcome, h] at hdecided
    cases hdecided
  rw [hattempt, if_neg hknown, and_iff_right rfl, retrieved, status_submit, status_put]
  cases l.status <;> decide

/-- A start decides nothing, and reopens a failed attempt unless the start is backfilled. -/
theorem reports_started_iff (ht : event.eventType = .jobExecutionStarted) :
    l.Reports event (l.next event) ∧ l.Unmoved event ↔ KeepsOutcomes l event := by
  have hnext : l.next event = l.started event.number := by rw [Lifecycle.next, ht]
  have hnone : event.outcomeOf event.number = none := by rw [Event.outcomeOf_number, ht]
  simp only [Unmoved, KeepsOutcomes, ht, hnext, List.mem_cons, List.not_mem_nil, or_false,
    true_or, true_implies]
  by_cases hset : l.Settled event.number
  · have hput : l.started event.number =
        l.put event.number (l.attemptStatus event.number) := if_pos hset
    rw [hput, reports_same_iff (outcome_put_self l event.number), attemptStatus_put_self,
      status_put]
    refine iff_of_true ⟨Or.inr hnone, fun _ => ⟨rfl, rfl⟩⟩ fun hfailed => ?_
    rw [outcome_eq_failed_iff] at hfailed
    rcases hset with (h | h) | h
    · rw [h] at hfailed
      cases hfailed
    · exact Or.inl h
    · exact Or.inr h.2
  · have hput : l.started event.number =
        (l.put event.number .running).moveTo .running := if_neg hset
    rw [hput, reports_put_iff, hnone, Option.or_none]
    constructor
    · rintro ⟨hopen, -⟩ hfailed
      cases hopen.trans hfailed
    · intro hkeeps
      have hopen : l.outcome event.number = none := by
        cases hout : l.outcome event.number with
        | none => rfl
        | some outcome =>
            cases outcome with
            | succeeded => exact absurd (Or.inl (Or.inl (outcome_eq_succeeded_iff.1 hout))) hset
            | failed =>
                rcases hkeeps hout with h | h
                · exact absurd (Or.inl (Or.inr h)) hset
                · exact absurd (Or.inr ⟨outcome_eq_failed_iff.1 hout, h⟩) hset
      exact ⟨hopen.symm, fun hdecided => by rw [hopen] at hdecided; cases hdecided⟩

/-- An outcome that is recorded is the first of its attempt. -/
theorem reports_recorded {s : AttemptStatus} {t : Status} (hopen : l.outcome event.number = none)
    (hreported : event.outcomeOf event.number = s.outcome) :
    l.Reports event ((l.put event.number s).moveTo t) := by
  rw [reports_put_iff, hopen, Option.none_or, hreported]

/-- An outcome that is delivered is recorded for an open attempt unless the job has ended
otherwise. -/
theorem reports_outcome_iff {s other : AttemptStatus} {t : Status} {con ended : Prop}
    [Decidable con] (hreported : event.outcomeOf event.number = s.outcome)
    (hs : s.outcome.isSome) (hother : other.outcome.isSome)
    (hdecided : ∀ a : AttemptStatus, a.outcome.isSome → a = s ∨ a = other)
    (hcon : con ↔ l.attemptStatus event.number = other ∨ ended) :
    l.Reports event
        (if l.attemptStatus event.number = s then l
        else if con then l.put event.number (l.attemptStatus event.number)
        else (l.put event.number s).moveTo t) ↔
      (l.outcome event.number).isSome ∨ ¬ ended := by
  by_cases hdup : l.attemptStatus event.number = s
  · have hsome : (l.outcome event.number).isSome := by rwa [outcome, hdup]
    rw [if_pos hdup, reports_same_iff fun _ => rfl]
    exact iff_of_true (Or.inl hsome) (Or.inl hsome)
  by_cases hturned : con
  · have hnot : ¬ s.outcome = none := Option.isSome_iff_ne_none.1 hs
    rw [if_neg hdup, if_pos hturned, reports_same_iff (outcome_put_self l event.number), hreported,
      or_iff_left hnot]
    rcases hcon.1 hturned with hstatus | hended
    · have hsome : (l.outcome event.number).isSome := by rwa [outcome, hstatus]
      exact iff_of_true hsome (Or.inl hsome)
    · exact (or_iff_left (not_not.2 hended)).symm
  · obtain ⟨hnot, hfree⟩ := not_or.1 fun h => hturned (hcon.2 h)
    have hopen : l.outcome event.number = none := by
      rw [← Option.not_isSome_iff_eq_none]
      exact fun hsome => (hdecided _ hsome).elim hdup hnot
    rw [if_neg hdup, if_neg hturned]
    exact iff_of_true (reports_recorded hopen hreported) (Or.inr hfree)

/-- A success is the outcome of an open attempt unless the job failed. -/
theorem reports_succeeded_iff (ht : event.eventType = .jobExecutionSucceeded) :
    l.Reports event (l.next event) ↔ KeepsOutcomes l event := by
  have hnext : l.next event = l.succeeded event.number := by rw [Lifecycle.next, ht]
  have hreported : event.outcomeOf event.number = some .succeeded := by
    rw [Event.outcomeOf_number, ht]
  simp only [KeepsOutcomes, ht, hnext, succeeded]
  exact reports_outcome_iff hreported rfl rfl (by intro a; cases a <;> decide)
    contradictsSuccess_iff

/-- A failure is the outcome of an open attempt unless the job is finished. -/
theorem reports_failed_iff (ht : event.eventType = .jobExecutionFailed) :
    l.Reports event (l.next event) ↔ KeepsOutcomes l event := by
  have hnext : l.next event = l.failed event.number (event.retryable.getD false) := by
    rw [Lifecycle.next, ht]
  have hreported : event.outcomeOf event.number = some .failed := by
    rw [Event.outcomeOf_number, ht]
  simp only [KeepsOutcomes, ht, hnext, failed]
  exact reports_outcome_iff hreported rfl rfl (by intro a; cases a <;> decide)
    contradictsFailure_iff

/-- **One event** reports what it should and moves no decided attempt exactly when it keeps the
outcomes. -/
theorem reports_next_iff :
    l.Reports event (l.next event) ∧ l.Unmoved event ↔ KeepsOutcomes l event := by
  have hunmoved : event.eventType ∉ [.jobExecutionStarted, .jobSchedulerItemRetrieved] →
      l.Unmoved event := fun hnot hmem => absurd hmem hnot
  cases ht : event.eventType with
  | jobSchedulerItemRetrieved => exact reports_retrieved_iff ht
  | jobExecutionStarted => exact reports_started_iff ht
  | jobExecutionSucceeded =>
      rw [and_iff_left (hunmoved (by rw [ht]; decide))]
      exact reports_succeeded_iff ht
  | jobExecutionFailed =>
      rw [and_iff_left (hunmoved (by rw [ht]; decide))]
      exact reports_failed_iff ht
  | _ =>
      -- the other events report no outcome and leave the attempts alone
      have hattempts : (l.next event).attempts = l.attempts :=
        attempts_next_of_not_opensAttempt (by rw [ht]; rfl) l
      have houtcome : ∀ n, (l.next event).outcome n = l.outcome n := fun n => by
        rw [outcome, attemptStatus, hattempts, outcome, attemptStatus]
      have hnone : event.outcomeOf event.number = none := by rw [Event.outcomeOf_number, ht]
      have hkeeps : KeepsOutcomes l event := by simp only [KeepsOutcomes, ht]
      exact iff_of_true
        ⟨(reports_same_iff houtcome).2 (Or.inr hnone), hunmoved (by rw [ht]; decide)⟩ hkeeps

end Lifecycle

/-! ### Sequences of events -/

/-- **Outcomes are final along a sequence of events**: at each point the outcome shown for an
attempt is the first one delivered for it; a start or a retrieval of a decided attempt moves neither
the attempt nor the job; and the number of decided attempts does not decrease. -/
structure OutcomesFinal (events : List Event) : Prop where
  first : ∀ before, before <+: events → ∀ job,
    reduceVisibilityAll none before = .ok (some job) →
    ∀ n, job.outcome n = firstOutcome n before
  unmoved : ∀ before event, before ++ [event] <+: events → ∀ job result,
    reduceVisibilityAll none before = .ok (some job) →
    reduceVisibility (some job) event = .ok result →
    event.eventType ∈ [.jobExecutionStarted, .jobSchedulerItemRetrieved] →
    (job.outcome event.number).isSome →
    (result.job.attemptAt event.number).status = (job.attemptAt event.number).status ∧
      result.job.recordedStatus = job.recordedStatus
  completed : ∀ before event, before ++ [event] <+: events → ∀ job result,
    reduceVisibilityAll none before = .ok (some job) →
    reduceVisibility (some job) event = .ok result →
    job.completedAttempts ≤ result.job.completedAttempts

/-- Every event of the sequence that is reduced keeps the outcomes. -/
def AllKeepOutcomes (events : List Event) : Prop :=
  ∀ before event, before ++ [event] <+: events → ∀ current result,
    reduceVisibilityAll none before = .ok current →
    reduceVisibility current event = .ok result →
    KeepsOutcomes (currentOrBlank current event).lifecycle event

/-- What a start or a retrieval of a decided attempt leaves, in the words of the automaton. -/
theorem unmoved_lifecycle_iff (current : Option JobVisibility) (event : Event) :
    (currentOrBlank current event).lifecycle.Unmoved event ↔
      (event.eventType ∈ [.jobExecutionStarted, .jobSchedulerItemRetrieved] →
        ((currentOrBlank current event).outcome event.number).isSome →
        ((reduceEvent current event).job.attemptAt event.number).status =
            ((currentOrBlank current event).attemptAt event.number).status ∧
          (reduceEvent current event).job.recordedStatus =
            (currentOrBlank current event).recordedStatus) := by
  have hafter := lifecycle_reduceEvent current event
  rw [← lifecycle_currentOrBlank current event] at hafter
  rw [Lifecycle.Unmoved, ← hafter, outcome_lifecycle, attemptStatus_lifecycle,
    attemptStatus_lifecycle]
  exact Iff.rfl

/-- More attempts are decided, and none is forgotten. -/
theorem completedAttempts_le {job after : JobVisibility}
    (h : ∀ n, (job.outcome n).isSome → (after.outcome n).isSome) :
    job.completedAttempts ≤ after.completedAttempts := by
  rw [← length_completedNumbers, ← length_completedNumbers]
  refine (job.nodup_completedNumbers.subperm fun n hn => ?_).length_le
  exact mem_completedNumbers.2 (h n (mem_completedNumbers.1 hn))

/-- The first outcome stays the first. -/
theorem firstOutcome_isSome_concat {n : ℕ} {before : List Event} (event : Event)
    (h : (firstOutcome n before).isSome) : (firstOutcome n (before ++ [event])).isSome := by
  rw [firstOutcome_concat, Option.isSome_or, h, Bool.true_or]

/-- **Outcomes are final along a sequence of events exactly when each of its events keeps them.** -/
theorem outcomesFinal_iff (events : List Event) :
    OutcomesFinal events ↔ AllKeepOutcomes events := by
  have hrun := forall_prefix_step_iff
    (P := fun before job => ∀ n, job.outcome n = firstOutcome n before)
    (Q := fun _ job event => job.lifecycle.Unmoved event)
    (C := fun _ job event => KeepsOutcomes job.lifecycle event)
    (fun _ _ => rfl) ?_ events
  · refine Iff.trans ?_ hrun
    constructor
    · rintro ⟨hfirst, hunmoved, -⟩
      refine ⟨hfirst, fun before event hinit current result hbefore hresult => ?_⟩
      rw [unmoved_lifecycle_iff]
      cases current with
      | none => exact fun _ hdecided => by cases hdecided
      | some job =>
          obtain rfl := eq_reduceEvent_of_reduceVisibility hresult
          exact hunmoved before event hinit job _ hbefore hresult
    · rintro ⟨hfirst, hunmoved⟩
      refine ⟨hfirst, fun before event hinit job result hbefore hresult => ?_,
        fun before event hinit job result hbefore hresult => ?_⟩
      · have hstays := hunmoved before event hinit (some job) result hbefore hresult
        rw [unmoved_lifecycle_iff] at hstays
        obtain rfl := eq_reduceEvent_of_reduceVisibility hresult
        exact hstays
      · refine completedAttempts_le fun n hdecided => ?_
        obtain rfl := eq_reduceEvent_of_reduceVisibility hresult
        have hafter := reduceVisibilityAll_concat_eq_ok_iff.2 ⟨_, hbefore, hresult, rfl⟩
        rw [hfirst before ((List.prefix_append ..).trans hinit) job hbefore] at hdecided
        rw [hfirst _ hinit _ hafter]
        exact firstOutcome_isSome_concat event hdecided
  · intro before event current _ hcurrent
    rw [← Lifecycle.reports_next_iff]
    refine and_congr_left fun _ => ?_
    have hnext := lifecycle_reduceEvent current event
    rw [← lifecycle_currentOrBlank current event] at hnext
    simp only [Lifecycle.Reports, ← hnext, outcome_lifecycle, hcurrent, firstOutcome_concat]

/-- A retryable failure of the first attempt, and its start, delivered late. -/
def lateStartEvents : List Event :=
  [retryEvent 1 .jobExecutionFailed 1, retryEvent 2 .jobExecutionStarted 1]

/-- **The failed attempt runs again, and is no longer counted.** -/
theorem not_outcomesFinal_lateStartEvents :
    ((reduceAll none (lateStartEvents.take 1)).map fun job =>
        (job.outcome 1, job.completedAttempts)) = some (some .failed, 1) ∧
      ((reduceAll none lateStartEvents).map fun job =>
        (job.outcome 1, job.completedAttempts)) = some (none, 0) ∧
      ¬ OutcomesFinal lateStartEvents := by
  have hlast : ((reduceAll none lateStartEvents).map fun job =>
      (job.outcome 1, job.completedAttempts)) = some (none, 0) := by decide
  refine ⟨by decide, hlast, fun hfinal => ?_⟩
  obtain ⟨job, hjob, hshown⟩ := Option.map_eq_some_iff.1 hlast
  have hreduced : reduceVisibilityAll none lateStartEvents = .ok (some job) :=
    (reduceVisibilityAll_eq_ok "job-1" _ (by decide) none (by simp)).trans (by rw [hjob])
  have hfirst := hfinal.first lateStartEvents (List.prefix_refl _) job hreduced 1
  rw [(Prod.mk.inj hshown).1] at hfirst
  revert hfirst
  decide

end ScheduledJobs
