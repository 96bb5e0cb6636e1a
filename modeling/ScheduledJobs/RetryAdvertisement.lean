/-
**Retries that are advertised for finished jobs.**

A projection carries five fields about a retry: whether the last failure was retryable, whether a
retry was requested and acknowledged, when it is due, and the attempt number it would have.  The
handlers that finish a job clear different subsets of them.  A rejection, a final failure and an
exhaustion clear what is advertised; a cancellation and a failed submission clear nothing; a success
leaves the acknowledged request of the retry that succeeded; and the acknowledgement of a retry is
recorded on a finished job as on any other.

Main definitions:

* `JobVisibility.RetryCleared` — nothing is advertised for a finished job;
* `JobVisibility.Unadvertised`, `FinishesCleared` — **the events that finish a job without
  advertising a retry**.

Main results:

* `retryCleared_reduceEvent_iff` — one event;
* `retrySafe_iff` — **no retry is advertised for a finished job, at any point of a sequence of
  events, exactly when every event of it finishes cleared**.
-/

import ScheduledJobs.Lifecycle

set_option relaxedAutoImplicit false
set_option autoImplicit false

namespace ScheduledJobs

open JobVisibility

/-- **No retry is advertised for a finished job.** -/
def JobVisibility.RetryCleared (job : JobVisibility) : Prop :=
  job.recordedStatus.isTerminal →
    job.nextRetryAt = none ∧ job.retryEligible = false ∧ job.nextAttemptNumber = none

/-- No retry is acknowledged, due or possible. -/
def JobVisibility.Unadvertised (job : JobVisibility) : Prop :=
  job.nextRetryAt = none ∧ job.retryEligible = false ∧
    ¬ (job.retryAcknowledged ∧ job.retryRequested)

/-- The event does not finish the job with a retry advertised: a cancellation or a failed submission
finds none advertised, a success finds no acknowledged request, and the acknowledgement of a retry
finds the job unfinished. -/
def FinishesCleared (job : JobVisibility) (event : Event) : Prop :=
  match event.eventType with
  | .jobSchedulerSubmissionFailed | .jobCancelled =>
      job.recordedStatus.isTerminal ∨ job.Unadvertised
  | .jobExecutionSucceeded =>
      job.recordedStatus.isTerminal ∨
        job.lifecycle.attemptStatus event.number ∈ [.succeeded, .failed] ∨
        ¬ (job.retryAcknowledged ∧ job.retryRequested)
  | .jobRetryAcknowledged => ¬ job.recordedStatus.isTerminal
  | _ => True

variable {job after : JobVisibility} {event : Event}

/-- An attempt number is advertised for an acknowledged request or a time that is due. -/
theorem retryCleared_iff_unadvertised :
    job.RetryCleared ↔ (job.recordedStatus.isTerminal → job.Unadvertised) := by
  refine imp_congr_right fun hterminal => ?_
  simp only [Unadvertised, nextAttemptNumber, hterminal]
  cases job.nextRetryAt <;> cases job.retryAcknowledged <;> cases job.retryRequested <;> simp

/-! ### The handlers -/

/-- The same is advertised for both. -/
structure JobVisibility.SameRetry (job after : JobVisibility) : Prop where
  nextRetryAt : after.nextRetryAt = job.nextRetryAt := by rfl
  retryEligible : after.retryEligible = job.retryEligible := by rfl
  retryAcknowledged : after.retryAcknowledged = job.retryAcknowledged := by rfl
  retryRequested : after.retryRequested = job.retryRequested := by rfl

namespace JobVisibility

theorem SameRetry.unadvertised_iff (hsame : job.SameRetry after) :
    after.Unadvertised ↔ job.Unadvertised := by
  rw [Unadvertised, hsame.nextRetryAt, hsame.retryEligible, hsame.retryAcknowledged,
    hsame.retryRequested, Unadvertised]

/-- The job is not finished by the event, and the same is advertised for it. -/
theorem RetryCleared.keep (h : job.RetryCleared) (hsame : job.SameRetry after)
    (hterminal : after.recordedStatus.isTerminal → job.recordedStatus.isTerminal) :
    after.RetryCleared := by
  rw [retryCleared_iff_unadvertised] at h ⊢
  exact fun hafter => hsame.unadvertised_iff.2 (h (hterminal hafter))

/-- The status stays, or moves to one that is not terminal. -/
theorem RetryCleared.move_or_keep (h : job.RetryCleared) (hsame : job.SameRetry after) {p : Prop}
    [Decidable p] {s : Status}
    (hstatus : after.recordedStatus = if p then s else job.recordedStatus)
    (hs : s.isTerminal = false) : after.RetryCleared := by
  refine h.keep hsame ?_
  rw [hstatus]
  split
  · simp [hs]
  · exact id

/-- What is left when nothing is advertised. -/
theorem RetryCleared.of_cleared (hnext : after.nextRetryAt = none)
    (heligible : after.retryEligible = false) (hacknowledged : after.retryAcknowledged = false) :
    after.RetryCleared :=
  retryCleared_iff_unadvertised.2 fun _ => ⟨hnext, heligible, by simp [hacknowledged]⟩

/-- A job that was not finished is finished, and the same is advertised for it. -/
theorem retryCleared_iff_of_finished (hsame : job.SameRetry after)
    (hafter : after.recordedStatus.isTerminal) : after.RetryCleared ↔ job.Unadvertised := by
  rw [retryCleared_iff_unadvertised, ← hsame.unadvertised_iff]
  exact ⟨fun h => h hafter, fun h _ => h⟩

end JobVisibility

theorem retryCleared_onJobSchedulerSubmissionFailed_iff (h : job.RetryCleared) :
    (onJobSchedulerSubmissionFailed job event).1.RetryCleared ↔
      job.recordedStatus.isTerminal ∨ job.Unadvertised := by
  unfold onJobSchedulerSubmissionFailed
  split
  · next hs => exact iff_of_true h (Or.inl hs)
  · next hs =>
      rw [or_iff_right hs]
      exact retryCleared_iff_of_finished {} rfl

theorem retryCleared_onJobCancelled_iff (h : job.RetryCleared) :
    (onJobCancelled job event).1.RetryCleared ↔
      job.recordedStatus.isTerminal ∨ job.Unadvertised := by
  unfold onJobCancelled
  split
  · next hs => exact iff_of_true h (Or.inl hs)
  · next hs =>
      rw [or_iff_right hs]
      exact retryCleared_iff_of_finished {} rfl

theorem retryCleared_onJobExecutionSucceeded_iff (h : job.RetryCleared)
    (hnew : job.lifecycle.attemptStatus event.number ≠ .succeeded) :
    (onJobExecutionSucceeded job event).1.RetryCleared ↔
      job.recordedStatus.isTerminal ∨
        job.lifecycle.attemptStatus event.number ∈ [.succeeded, .failed] ∨
        ¬ (job.retryAcknowledged ∧ job.retryRequested) := by
  have hattempt : ((job.openAttempt event).attemptAt event.number).status =
      job.lifecycle.attemptStatus event.number := by
    rw [attemptAt_openAttempt, attemptStatus_lifecycle]
  simp only [onJobExecutionSucceeded, hattempt]
  split
  · next hs =>
      refine iff_of_true (h.keep {} id) ?_
      rcases hs with hfailed | hterminal
      · exact Or.inr (Or.inl (by simp [hfailed]))
      · exact Or.inl hterminal.1
  · next hs =>
      have hopen : job.lifecycle.attemptStatus event.number ∉ [.succeeded, .failed] := by
        simp only [List.mem_cons, List.not_mem_nil, or_false, not_or]
        exact ⟨hnew, fun hfailed => hs (Or.inl hfailed)⟩
      -- a success clears the time and the eligibility, and keeps the request
      rw [retryCleared_iff_unadvertised, or_iff_right hopen]
      have hrequest : job.recordedStatus.isTerminal →
          ¬ (job.retryAcknowledged ∧ job.retryRequested) :=
        fun hterminal => (retryCleared_iff_unadvertised.1 h hterminal).2.2
      rw [or_iff_right_of_imp hrequest]
      constructor
      · exact fun hafter => (hafter rfl).2.2
      · exact fun hnot _ => ⟨rfl, rfl, hnot⟩

theorem retryCleared_onJobExecutionFailed (h : job.RetryCleared) :
    (onJobExecutionFailed job event).1.RetryCleared := by
  simp only [onJobExecutionFailed]
  split
  · exact h.keep {} id
  · split
    · exact h.keep {} id
    · -- a failure is final when it is not retryable, and then no retry is possible
      rw [retryCleared_iff_unadvertised]
      cases event.retryable.getD false with
      | true => exact fun hterminal => by cases hterminal
      | false => exact fun _ => ⟨rfl, rfl, by simp⟩

theorem retryCleared_onJobExecutionStarted (h : job.RetryCleared) :
    (onJobExecutionStarted job event).1.RetryCleared := by
  simp only [onJobExecutionStarted]
  split
  · exact h.keep {} id
  · split
    · exact h.keep {} id
    · exact retryCleared_iff_unadvertised.2 fun hterminal => by cases hterminal

/-- The acknowledgement of a retry advertises it, whatever the status. -/
theorem retryCleared_onJobRetryAcknowledged_iff :
    (onJobRetryAcknowledged job event).1.RetryCleared ↔ ¬ job.recordedStatus.isTerminal := by
  have hterminal : (onJobRetryAcknowledged job event).1.recordedStatus.isTerminal =
      job.recordedStatus.isTerminal := by
    simp only [onJobRetryAcknowledged]
    split
    · next hs =>
        rw [Bool.not_eq_true] at hs
        exact hs.1.symm
    · rfl
  rw [retryCleared_iff_unadvertised, hterminal]
  constructor
  · exact fun hafter hs => (hafter hs).2.2 ⟨rfl, rfl⟩
  · exact fun hnot hs => absurd hs hnot

/-- **One handler.** -/
theorem retryCleared_handler_iff (h : job.RetryCleared)
    (hdup : isSemanticDuplicate job event = false) :
    (handler event.eventType job event).1.RetryCleared ↔ FinishesCleared job event := by
  unfold FinishesCleared
  cases ht : event.eventType with
  | jobCreated => exact iff_of_true (h.move_or_keep {} rfl rfl) trivial
  | jobSchedulerSubmissionRequested => exact iff_of_true (h.move_or_keep {} rfl rfl) trivial
  | jobSchedulerSubmissionAcknowledged => exact iff_of_true (h.move_or_keep {} rfl rfl) trivial
  | jobSchedulerSubmissionFailed => exact retryCleared_onJobSchedulerSubmissionFailed_iff h
  | jobSchedulerItemRetrieved => exact iff_of_true (h.move_or_keep {} rfl rfl) trivial
  | jobExecutionStarted => exact iff_of_true (retryCleared_onJobExecutionStarted h) trivial
  | jobExecutionSucceeded =>
      have hnew : job.lifecycle.attemptStatus event.number ≠ .succeeded := by
        intro hs
        rw [isSemanticDuplicate_iff.2 (Or.inl ⟨ht, hs⟩)] at hdup
        cases hdup
      exact retryCleared_onJobExecutionSucceeded_iff h hnew
  | jobExecutionFailed => exact iff_of_true (retryCleared_onJobExecutionFailed h) trivial
  | jobRetryRequested =>
      refine iff_of_true ?_ trivial
      simp only [handler, onJobRetryRequested]
      split
      · exact h
      · exact retryCleared_iff_unadvertised.2 fun hterminal => by cases hterminal
  | jobRetryAcknowledged => exact retryCleared_onJobRetryAcknowledged_iff
  | jobRetryRejected =>
      refine iff_of_true ?_ trivial
      simp only [handler, onJobRetryRejected]
      split
      · exact h
      · exact .of_cleared rfl rfl rfl
  | jobRetriesExhausted =>
      refine iff_of_true ?_ trivial
      simp only [handler, onJobRetriesExhausted]
      split
      · exact h
      · exact .of_cleared rfl rfl rfl
  | jobCancelled => exact retryCleared_onJobCancelled_iff h

/-! ### Events -/

theorem retryCleared_mergeCommon_iff :
    (mergeCommon job event).RetryCleared ↔ job.RetryCleared := by
  rw [retryCleared_iff_unadvertised, retryCleared_iff_unadvertised]
  rfl

/-- A repeated outcome finishes nothing. -/
theorem finishesCleared_of_isSemanticDuplicate (hdup : isSemanticDuplicate job event = true) :
    FinishesCleared job event := by
  unfold FinishesCleared
  rcases isSemanticDuplicate_iff.1 hdup with ⟨ht, hs⟩ | ⟨ht, -⟩
  · rw [ht]
    exact Or.inr (Or.inl (by simp [hs]))
  · rw [ht]
    trivial

/-- **One event**: from a projection that advertises nothing for a finished job, it leaves one
exactly when it finishes cleared. -/
theorem retryCleared_reduceEvent_iff {current : Option JobVisibility}
    (h : (currentOrBlank current event).RetryCleared) :
    (reduceEvent current event).job.RetryCleared ↔
      FinishesCleared (currentOrBlank current event) event := by
  obtain ⟨version, decisions, hjob⟩ := exists_reduceEvent_eq current event
  have hprojected : (reduceEvent current event).job.RetryCleared ↔
      (projectedBy (currentOrBlank current event) event).RetryCleared := by
    rw [retryCleared_iff_unadvertised, retryCleared_iff_unadvertised, hjob]
    rfl
  rw [hprojected, projectedBy]
  split
  · next hdup => exact iff_of_true h (finishesCleared_of_isSemanticDuplicate hdup)
  · next hdup =>
      have hmerged : isSemanticDuplicate (mergeCommon (currentOrBlank current event) event) event =
          false := by simpa [isSemanticDuplicate, mergeCommon] using hdup
      exact retryCleared_handler_iff (retryCleared_mergeCommon_iff.2 h) hmerged

/-! ### Sequences of events -/

/-- Nothing is advertised for a finished job at any point of a sequence of events. -/
def RetrySafe (events : List Event) : Prop :=
  ∀ before, before <+: events → ∀ job,
    reduceVisibilityAll none before = .ok (some job) → job.RetryCleared

/-- Every event of the sequence that is reduced finishes cleared. -/
def AllFinishCleared (events : List Event) : Prop :=
  ∀ before event, before ++ [event] <+: events → ∀ current result,
    reduceVisibilityAll none before = .ok current →
    reduceVisibility current event = .ok result →
    FinishesCleared (currentOrBlank current event) event

/-- **No retry is advertised for a finished job exactly when every event finishes cleared.** -/
theorem retrySafe_iff (events : List Event) : RetrySafe events ↔ AllFinishCleared events := by
  refine forall_prefix_iff (P := fun _ job => job.RetryCleared) ?_ ?_ events
  · intro jobId hterminal
    cases hterminal
  · intro before event current _ hcurrent
    exact retryCleared_reduceEvent_iff hcurrent

/-- An event of one job, five seconds after the last. -/
def retryEvent (n : ℕ) (eventType : EventType) (attemptNumber : ℕ) : Event where
  eventId := s!"edr-{n}"
  eventType := eventType
  eventTime := seconds (5 * n)
  ingestionTime := seconds (5 * n + 1)
  jobId := "job-1"
  attemptNumber := attemptNumber
  retryable := if eventType = .jobExecutionFailed then some true else none
  nextRetryAt := if eventType = .jobRetryAcknowledged then some (seconds 15) else none

/-- A first attempt that fails, and a retry that succeeds. -/
def retriedEvents : List Event :=
  [retryEvent 1 .jobExecutionFailed 1, retryEvent 2 .jobRetryAcknowledged 1,
    retryEvent 3 .jobExecutionStarted 2, retryEvent 4 .jobExecutionSucceeded 2]

/-- **A third attempt is advertised after the second has succeeded.** -/
theorem not_retrySafe_retriedEvents :
    ((reduceAll none retriedEvents).map fun job => (job.recordedStatus, job.nextAttemptNumber)) =
        some (.succeeded, some 3) ∧
      ¬ RetrySafe retriedEvents := by
  have hlast : ((reduceAll none retriedEvents).map fun job =>
      (job.recordedStatus, job.nextAttemptNumber)) = some (.succeeded, some 3) := by decide
  refine ⟨hlast, fun hsafe => ?_⟩
  obtain ⟨job, hjob, hshown⟩ := Option.map_eq_some_iff.1 hlast
  obtain ⟨hstatus, hnumber⟩ := Prod.mk.inj hshown
  have hreduced : reduceVisibilityAll none retriedEvents = .ok (some job) :=
    (reduceVisibilityAll_eq_ok "job-1" _ (by decide) none (by simp)).trans (by rw [hjob])
  have hcleared := hsafe retriedEvents (List.prefix_refl _) job hreduced (by rw [hstatus]; rfl)
  rw [hcleared.2.2] at hnumber
  cases hnumber

end ScheduledJobs
