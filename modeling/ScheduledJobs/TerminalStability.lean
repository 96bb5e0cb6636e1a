/-
**Terminal statuses under further events.**

A job that succeeded, failed, was cancelled or ran out of retries is finished, and late evidence
must not reopen it.  Read off the automaton, an event moves a finished job in four ways only: a
start that is not backfilled, an outcome that is not contradicted, and exhausted retries.  The
first of these reopens a job that failed before an attempt of that number did, such as a job whose
submission failed; the theorem says that this is the only way out.

Main definitions:

* `TerminalStable` — what may become of a finished job;
* `StartsUnfinishedAttempt` — the event that reopens a failed job.

Main results:

* `next_status_of_isTerminal` — where an event takes a finished job;
* `terminalStable_iff` — **a finished job is stable under an event exactly when the event does not
  start an unfinished attempt of a failed job**.
-/

import ScheduledJobs.Lifecycle

set_option relaxedAutoImplicit false
set_option autoImplicit false

namespace ScheduledJobs

/-! ### The automaton on finished jobs -/

namespace Lifecycle

/-- Submission evidence does not move a finished job. -/
theorem submit_of_isTerminal {l : Lifecycle} (h : l.status.isTerminal) (later : List Status)
    (target : Status) : l.submit later target = l := by
  have hguard : ¬ (¬ l.status.isTerminal ∧ l.status ∉ later) := fun hg => hg.1 h
  rw [submit, if_neg hguard]

theorem conclude_of_isTerminal {l : Lifecycle} (h : l.status.isTerminal) (target : Status) :
    l.conclude target = l := by
  rw [conclude, if_pos h]

theorem created_of_isTerminal {l : Lifecycle} (h : l.status.isTerminal) : l.created = l := by
  have hknown : l.status ≠ .unknown := by
    intro hu
    rw [hu] at h
    cases h
  rw [created, if_neg hknown]

/-- Retrieval evidence does not move a finished job. -/
theorem status_retrieved_of_isTerminal {l : Lifecycle} (h : l.status.isTerminal) (n : ℕ) :
    (l.retrieved n).status = l.status := by
  rw [retrieved, submit_of_isTerminal]
  · rfl
  · exact h

/-- **Where an event takes a finished job.** -/
theorem next_status_of_isTerminal {l : Lifecycle} (h : l.status.isTerminal) (event : Event) :
    (l.next event).status = l.status ∨
      (event.eventType = .jobExecutionStarted ∧ ¬ l.Settled event.number ∧
        (l.next event).status = .running) ∨
      (event.eventType = .jobExecutionSucceeded ∧ ¬ l.ContradictsSuccess event.number ∧
        (l.next event).status = .succeeded) ∨
      (event.eventType = .jobExecutionFailed ∧ ¬ l.ContradictsFailure event.number ∧
        (l.next event).status =
          if event.retryable.getD false then .retryPending else .failed) ∨
      (event.eventType = .jobRetriesExhausted ∧ l.status ≠ .succeeded ∧
        (l.next event).status = .retriesExhausted) := by
  cases ht : event.eventType with
  | jobCreated =>
      left
      simp only [next, ht, created_of_isTerminal h]
  | jobSchedulerSubmissionRequested =>
      left
      simp only [next, ht, submit_of_isTerminal h]
  | jobSchedulerSubmissionAcknowledged =>
      left
      simp only [next, ht, submit_of_isTerminal h]
  | jobRetryAcknowledged =>
      left
      simp only [next, ht, submit_of_isTerminal h]
  | jobSchedulerSubmissionFailed =>
      left
      simp only [next, ht, conclude_of_isTerminal h]
  | jobRetryRequested =>
      left
      simp only [next, ht, conclude_of_isTerminal h]
  | jobRetryRejected =>
      left
      simp only [next, ht, conclude_of_isTerminal h]
  | jobCancelled =>
      left
      simp only [next, ht, conclude_of_isTerminal h]
  | jobSchedulerItemRetrieved =>
      left
      simp only [next, ht, status_retrieved_of_isTerminal h]
  | jobExecutionStarted =>
      by_cases hset : l.Settled event.number
      · left
        simp only [next, ht, started, if_pos hset, status_put]
      · right; left
        refine ⟨rfl, hset, ?_⟩
        simp only [next, ht, started, if_neg hset, status_moveTo]
  | jobExecutionSucceeded =>
      by_cases hdup : l.attemptStatus event.number = .succeeded
      · left
        simp only [next, ht, succeeded, if_pos hdup]
      by_cases hcon : l.ContradictsSuccess event.number
      · left
        simp only [next, ht, succeeded, if_neg hdup, if_pos hcon, status_put]
      · right; right; left
        refine ⟨rfl, hcon, ?_⟩
        simp only [next, ht, succeeded, if_neg hdup, if_neg hcon, status_moveTo]
  | jobExecutionFailed =>
      by_cases hdup : l.attemptStatus event.number = .failed
      · left
        simp only [next, ht, failed, if_pos hdup]
      by_cases hcon : l.ContradictsFailure event.number
      · left
        simp only [next, ht, failed, if_neg hdup, if_pos hcon, status_put]
      · right; right; right; left
        refine ⟨rfl, hcon, ?_⟩
        simp only [next, ht, failed, if_neg hdup, if_neg hcon, status_moveTo]
  | jobRetriesExhausted =>
      by_cases hs : l.status = .succeeded
      · left
        simp only [next, ht, exhausted, if_pos hs]
      · right; right; right; right
        refine ⟨rfl, hs, ?_⟩
        simp only [next, ht, exhausted, if_neg hs, status_moveTo]

end Lifecycle

/-! ### What may become of a finished job -/

/-- What may become of a finished job when an event is reduced into it: a job that succeeded stays
so, a job that failed stays finished, and a job that was cancelled or ran out of retries is
reopened by execution evidence only. -/
structure TerminalStable (job : JobVisibility) (event : Event) (after : JobVisibility) : Prop where
  succeeded : job.recordedStatus = .succeeded → after.recordedStatus = .succeeded
  failed : job.recordedStatus = .failed → after.recordedStatus.isTerminal
  cancelled : job.recordedStatus = .cancelled → after.recordedStatus.isTerminal ∨
    event.eventType = .jobExecutionStarted ∨
      event.eventType = .jobExecutionFailed ∧ event.retryable = some true
  retriesExhausted : job.recordedStatus = .retriesExhausted → after.recordedStatus.isTerminal ∨
    event.eventType = .jobExecutionStarted

/-- The event starts an attempt of a failed job that has itself neither failed nor succeeded. -/
def StartsUnfinishedAttempt (job : JobVisibility) (event : Event) : Prop :=
  job.recordedStatus = .failed ∧ event.eventType = .jobExecutionStarted ∧
    (job.attemptAt event.number).status ∉ [.failed, .succeeded]

/-- A start of a failed job is backfilled exactly when the attempt is finished. -/
theorem Lifecycle.settled_of_failed {l : Lifecycle} (h : l.status = .failed) (n : ℕ) :
    l.Settled n ↔ l.attemptStatus n ∈ [.failed, .succeeded] := by
  simp [Settled, h, or_comm]

/-- **A finished job is stable under an event exactly when the event does not start an unfinished
attempt of a failed job.**  The projection is any, so the events that led to it do not matter. -/
theorem terminalStable_iff (job : JobVisibility) (event : Event) (result : ReductionResult)
    (hreduce : reduceVisibility (some job) event = .ok result) :
    TerminalStable job event result.job ↔ ¬ StartsUnfinishedAttempt job event := by
  have hjob : (currentOrBlank (some job) event).jobId = event.jobId := by
    by_contra hne
    simp [reduceVisibility, hne] at hreduce
  rw [reduceVisibility_eq_ok hjob] at hreduce
  obtain rfl : reduceEvent (some job) event = result := by injection hreduce
  have hafter : (reduceEvent (some job) event).job.recordedStatus =
      (job.lifecycle.next event).status :=
    congrArg Lifecycle.status (lifecycle_reduceEvent (some job) event)
  have hstatus : job.lifecycle.status = job.recordedStatus := rfl
  constructor
  · -- a start that is not backfilled runs the job
    rintro hstable ⟨hfailed, hstarted, hopen⟩
    have hnot : ¬ job.lifecycle.Settled event.number := by
      rw [Lifecycle.settled_of_failed hfailed, attemptStatus_lifecycle]
      exact hopen
    have hterminal := hstable.failed hfailed
    rw [hafter, Lifecycle.next, hstarted] at hterminal
    simp only [Lifecycle.started, if_neg hnot, Lifecycle.status_moveTo] at hterminal
    cases hterminal
  · intro hno
    constructor
    · intro hs
      have hcase := Lifecycle.next_status_of_isTerminal (l := job.lifecycle)
        (by rw [hstatus, hs]; rfl) event
      rw [hafter, ← hs, ← hstatus]
      rcases hcase with h | ⟨-, hset, -⟩ | ⟨-, -, h⟩ | ⟨-, hcon, -⟩ | ⟨-, hne, -⟩
      · exact h
      · exact absurd (Or.inl (Or.inr hs)) hset
      · rw [h, hstatus, hs]
      · exact absurd (Or.inr ⟨by rw [hstatus, hs]; rfl, by rw [hstatus, hs]; decide⟩) hcon
      · exact absurd hs hne
    · intro hs
      have hcase := Lifecycle.next_status_of_isTerminal (l := job.lifecycle)
        (by rw [hstatus, hs]; rfl) event
      rw [hafter]
      rcases hcase with h | ⟨ht, hset, -⟩ | ⟨-, -, h⟩ | ⟨-, hcon, -⟩ | ⟨-, -, h⟩
      · rw [h, hstatus, hs]
        rfl
      · rw [Lifecycle.settled_of_failed hs, attemptStatus_lifecycle] at hset
        exact absurd ⟨hs, ht, hset⟩ hno
      · rw [h]
        rfl
      · exact absurd (Or.inr ⟨by rw [hstatus, hs]; rfl, by rw [hstatus, hs]; decide⟩) hcon
      · rw [h]
        rfl
    · intro hs
      have hcase := Lifecycle.next_status_of_isTerminal (l := job.lifecycle)
        (by rw [hstatus, hs]; rfl) event
      rw [hafter]
      rcases hcase with h | ⟨ht, -, -⟩ | ⟨-, -, h⟩ | ⟨ht, -, h⟩ | ⟨-, -, h⟩
      · left
        rw [h, hstatus, hs]
        rfl
      · exact Or.inr (Or.inl ht)
      · left
        rw [h]
        rfl
      · by_cases hretry : event.retryable = some true
        · exact Or.inr (Or.inr ⟨ht, hretry⟩)
        · left
          have hfalse : event.retryable.getD false = false := by
            cases hr : event.retryable with
            | none => rfl
            | some b => cases b <;> simp_all
          rw [h, hfalse]
          rfl
      · left
        rw [h]
        rfl
    · intro hs
      have hcase := Lifecycle.next_status_of_isTerminal (l := job.lifecycle)
        (by rw [hstatus, hs]; rfl) event
      rw [hafter]
      rcases hcase with h | ⟨ht, -, -⟩ | ⟨-, -, h⟩ | ⟨-, hcon, -⟩ | ⟨-, -, h⟩
      · left
        rw [h, hstatus, hs]
        rfl
      · exact Or.inr ht
      · left
        rw [h]
        rfl
      · exact absurd (Or.inr ⟨by rw [hstatus, hs]; rfl, by rw [hstatus, hs]; decide⟩) hcon
      · left
        rw [h]
        rfl

/-! ### A failed submission -/

namespace FailedSubmission

/-- The scheduler rejects the submission of a job. -/
def rejected : Event where
  eventId := "e1"
  eventType := .jobSchedulerSubmissionFailed
  eventTime := 0
  ingestionTime := 0
  jobId := "job-1"

/-- Its first attempt starts all the same. -/
def start : Event where
  eventId := "e2"
  eventType := .jobExecutionStarted
  eventTime := seconds 1
  ingestionTime := seconds 1
  jobId := "job-1"
  attemptNumber := 1

end FailedSubmission

open FailedSubmission

/-- Exhausted retries do not reopen a job whose submission failed. -/
theorem terminalStable_failedSubmission_exhausted :
    TerminalStable (reduceEvent none rejected).job
      { start with eventType := .jobRetriesExhausted }
      (reduceEvent (some (reduceEvent none rejected).job)
        { start with eventType := .jobRetriesExhausted }).job :=
  (terminalStable_iff _ _ _ (by decide)).2 (fun h => absurd h.2.1 (by decide))

/-- A job whose submission failed is `RUNNING` again after a start, so finished jobs are not
stable. -/
theorem not_terminalStable_failedSubmission :
    ¬ ∀ (events : List Event) (job : JobVisibility) (event : Event) (result : ReductionResult),
      reduceVisibilityAll none events = .ok (some job) →
      reduceVisibility (some job) event = .ok result → TerminalStable job event result.job := by
  intro h
  have hstable := h [rejected] (reduceEvent none rejected).job start
    (reduceEvent (some (reduceEvent none rejected).job) start) rfl rfl
  exact absurd (hstable.failed (by decide)) (by decide)

end ScheduledJobs
