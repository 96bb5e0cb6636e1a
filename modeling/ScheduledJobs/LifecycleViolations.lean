/-
**Leaving a cancellation or an exhaustion.**

A job that was cancelled, or whose retries were exhausted, can be reopened by evidence of an
execution, and then the violation should be flagged, by a boolean of the projection and by an active
finding, for good.  The handlers of a start and of a success do so on the branches that move the
job.  The handler of a failure moves a cancelled job as well, and flags nothing.

Main definitions:

* `JobVisibility.CancellationFlagged`, `JobVisibility.ExhaustionFlagged` — a flag with its finding;
* `ViolationsFlagged` — what is promised of an event that reopens a job;
* `UnflaggedFailure` — **the event that breaks it**.

Main results:

* `cancellationFlagged_reduceEvent_iff`, `exhaustionFlagged_reduceEvent_iff` — a violation is
  flagged where it is raised, and stays so;
* `violationsFlagged_iff` — **a violation is flagged for good exactly when the event is not a
  failure that reopens a cancelled job unflagged**.
-/

import ScheduledJobs.RaisedFindings
import ScheduledJobs.RetryAdvertisement
import ScheduledJobs.TerminalStability

set_option relaxedAutoImplicit false
set_option autoImplicit false

namespace ScheduledJobs

open JobVisibility

namespace JobVisibility

/-- The projection holds an active finding under a code. -/
def activeFinding (job : JobVisibility) (code : FindingCode) : Bool :=
  (job.findings.get? code).any Finding.active

/-- An execution of the cancelled job is flagged. -/
def CancellationFlagged (job : JobVisibility) : Prop :=
  job.cancellationViolation ∧ job.activeFinding .executedAfterCancel

/-- An execution after the retries were exhausted is flagged. -/
def ExhaustionFlagged (job : JobVisibility) : Prop :=
  job.retriesExhaustedViolation ∧ job.activeFinding .executionAfterRetryExhaustion

end JobVisibility

/-- **What is promised of an event that reopens a job**: when execution evidence moves a cancelled
job, or any event one whose retries were exhausted, the violation is flagged after it and after any
further events. -/
structure ViolationsFlagged (job : JobVisibility) (event : Event) (after : JobVisibility) :
    Prop where
  cancelled : job.recordedStatus = .cancelled →
    event.eventType ∈ [.jobExecutionStarted, .jobExecutionSucceeded, .jobExecutionFailed] →
    after.recordedStatus ≠ .cancelled →
    ∀ more later, reduceVisibilityAll (some after) more = .ok (some later) →
      later.CancellationFlagged
  exhausted : job.recordedStatus = .retriesExhausted →
    after.recordedStatus ≠ .retriesExhausted →
    ∀ more later, reduceVisibilityAll (some after) more = .ok (some later) →
      later.ExhaustionFlagged

/-- The event is the failure of an open attempt of a cancelled job, and no execution of it is
flagged. -/
def UnflaggedFailure (job : JobVisibility) (event : Event) : Prop :=
  job.recordedStatus = .cancelled ∧ event.eventType = .jobExecutionFailed ∧
    (job.attemptAt event.number).status ∉ [.failed, .succeeded] ∧ ¬ job.CancellationFlagged

/-! ### Flags are for good -/

section

variable (current : Option JobVisibility) (event : Event)

/-- A finding is active once it is raised, and stays so. -/
theorem activeFinding_reduceEvent_iff {code : FindingCode} (hack : code ≠ .schedulerAckTimeout)
    (hretry : code ≠ .retryAckTimeout) :
    (reduceEvent current event).job.activeFinding code ↔
      (currentOrBlank current event).activeFinding code ∨
        (currentOrBlank current event).RaisedBy event code := by
  have hshown : ∀ job : JobVisibility,
      job.activeFinding code = (Findings.shown job.findings code).any Prod.snd := by
    intro job
    rw [activeFinding, Findings.shown]
    cases job.findings.get? code <;> rfl
  rw [hshown, hshown, shown_reduceEvent current event hack hretry]
  split
  · next hraised => exact iff_of_true rfl (Or.inr hraised)
  · next hraised => exact (or_iff_left hraised).symm

theorem cancellationFlagged_reduceEvent_iff :
    (reduceEvent current event).job.CancellationFlagged ↔
      (currentOrBlank current event).CancellationFlagged ∨
        (currentOrBlank current event).RaisedBy event .executedAfterCancel := by
  rw [CancellationFlagged, (violations_reduceEvent current event).1,
    activeFinding_reduceEvent_iff current event (by decide) (by decide), ← and_or_right,
    CancellationFlagged]

theorem exhaustionFlagged_reduceEvent_iff :
    (reduceEvent current event).job.ExhaustionFlagged ↔
      (currentOrBlank current event).ExhaustionFlagged ∨
        (currentOrBlank current event).RaisedBy event .executionAfterRetryExhaustion := by
  rw [ExhaustionFlagged, (violations_reduceEvent current event).2,
    activeFinding_reduceEvent_iff current event (by decide) (by decide), ← and_or_right,
    ExhaustionFlagged]

end

/-- What every event keeps, further events keep. -/
theorem forall_later {P : JobVisibility → Prop}
    (hkeep : ∀ job event, P job → P (reduceEvent (some job) event).job) {more : List Event}
    {after later : JobVisibility} (h : P after)
    (hlater : reduceVisibilityAll (some after) more = .ok (some later)) : P later := by
  have hfold := reduceAll_of_reduceVisibilityAll hlater
  clear hlater
  induction more generalizing after with
  | nil =>
      obtain rfl := Option.some_inj.1 hfold
      exact h
  | cons event more ih => exact ih (hkeep after event h) hfold

theorem CancellationFlagged.later {after later : JobVisibility} {more : List Event}
    (h : after.CancellationFlagged)
    (hlater : reduceVisibilityAll (some after) more = .ok (some later)) :
    later.CancellationFlagged :=
  forall_later (fun job event hjob =>
    (cancellationFlagged_reduceEvent_iff (some job) event).2 (Or.inl hjob)) h hlater

theorem ExhaustionFlagged.later {after later : JobVisibility} {more : List Event}
    (h : after.ExhaustionFlagged)
    (hlater : reduceVisibilityAll (some after) more = .ok (some later)) :
    later.ExhaustionFlagged :=
  forall_later (fun job event hjob =>
    (exhaustionFlagged_reduceEvent_iff (some job) event).2 (Or.inl hjob)) h hlater

/-! ### The events that reopen a job -/

variable {job : JobVisibility} {event : Event}

/-- A repeated outcome moves nothing. -/
theorem isSemanticDuplicate_of_moved (h : (job.lifecycle.next event).status ≠ job.recordedStatus) :
    isSemanticDuplicate job event = false := by
  rw [← Bool.not_eq_true]
  intro hdup
  rw [next_of_isSemanticDuplicate hdup] at h
  exact h rfl

/-- **A start or a success that reopens a cancelled job raises the violation.** -/
theorem raisedBy_of_reopened_cancelled (hs : job.recordedStatus = .cancelled)
    (hmoved : (job.lifecycle.next event).status ≠ .cancelled)
    (ht : event.eventType ∈ [.jobExecutionStarted, .jobExecutionSucceeded]) :
    job.RaisedBy event .executedAfterCancel := by
  have hstatus : job.lifecycle.status = .cancelled := hs
  refine ⟨isSemanticDuplicate_of_moved (hs ▸ hmoved), hs, ?_⟩
  rcases Lifecycle.next_status_of_isTerminal (l := job.lifecycle) (by rw [hstatus]; rfl) event with
    hsame | ⟨hstarted, hset, -⟩ | ⟨hsucceeded, hcon, -⟩ | ⟨hfailed, -⟩ | ⟨hexhausted, -⟩
  · exact absurd (hsame.trans hstatus) hmoved
  · exact Or.inl ⟨hstarted, hset⟩
  · exact Or.inr ⟨hsucceeded, hcon⟩
  · rw [hfailed] at ht
    simp at ht
  · rw [hexhausted] at ht
    simp at ht

/-- **What reopens a job whose retries were exhausted raises the violation.** -/
theorem raisedBy_of_reopened_exhausted (hs : job.recordedStatus = .retriesExhausted)
    (hmoved : (job.lifecycle.next event).status ≠ .retriesExhausted) :
    job.RaisedBy event .executionAfterRetryExhaustion := by
  have hstatus : job.lifecycle.status = .retriesExhausted := hs
  refine ⟨isSemanticDuplicate_of_moved (hs ▸ hmoved), hs, ?_⟩
  rcases Lifecycle.next_status_of_isTerminal (l := job.lifecycle) (by rw [hstatus]; rfl) event with
    hsame | ⟨hstarted, hset, -⟩ | ⟨-, hcon, -⟩ | ⟨-, hcon, -⟩ | ⟨-, -, hsame⟩
  · exact absurd (hsame.trans hstatus) hmoved
  · exact ⟨hstarted, hset⟩
  · exact absurd (Lifecycle.contradictsSuccess_iff.2 (Or.inr (by simp [hstatus]))) hcon
  · exact absurd (Lifecycle.contradictsFailure_iff.2 (Or.inr (by simp [hstatus]))) hcon
  · exact absurd hsame hmoved

/-- A failure raises no violation of a cancellation, and reopens the job when its attempt is
open. -/
theorem failure_of_cancelled (hs : job.recordedStatus = .cancelled)
    (ht : event.eventType = .jobExecutionFailed) :
    ¬ job.RaisedBy event .executedAfterCancel ∧
      ((job.lifecycle.next event).status ≠ .cancelled ↔
        (job.attemptAt event.number).status ∉ [.failed, .succeeded]) := by
  have hstatus : job.lifecycle.status = .cancelled := hs
  refine ⟨fun hraised => ?_, ?_⟩
  · rcases hraised.2.2 with ⟨hne, -⟩ | ⟨hne, -⟩
    · cases hne.symm.trans ht
    · cases hne.symm.trans ht
  · rw [← attemptStatus_lifecycle, Lifecycle.next, ht]
    simp only [Lifecycle.failed, Lifecycle.contradictsFailure_iff, hstatus]
    by_cases hfailed : job.lifecycle.attemptStatus event.number = .failed
    · simp [hfailed, hstatus]
    by_cases hsucceeded : job.lifecycle.attemptStatus event.number = .succeeded
    · simp [hsucceeded, hstatus]
    · cases event.retryable.getD false <;> simp [hfailed, hsucceeded]

/-- **A violation is flagged for good exactly when the event is not a failure that reopens a
cancelled job unflagged.**  The projection is any, so the events that led to it do not matter. -/
theorem violationsFlagged_iff (job : JobVisibility) (event : Event) (result : ReductionResult)
    (hreduce : reduceVisibility (some job) event = .ok result) :
    ViolationsFlagged job event result.job ↔ ¬ UnflaggedFailure job event := by
  obtain rfl := eq_reduceEvent_of_reduceVisibility hreduce
  have hafter : (reduceEvent (some job) event).job.recordedStatus =
      (job.lifecycle.next event).status :=
    congrArg Lifecycle.status (lifecycle_reduceEvent (some job) event)
  constructor
  · rintro hflags ⟨hs, ht, hopen, hunflagged⟩
    obtain ⟨hnot, hreopens⟩ := failure_of_cancelled hs ht
    have hmoved : (reduceEvent (some job) event).job.recordedStatus ≠ .cancelled := by
      rw [hafter]
      exact hreopens.2 hopen
    have hflagged := hflags.cancelled hs (by simp [ht]) hmoved [] _ rfl
    rcases (cancellationFlagged_reduceEvent_iff (some job) event).1 hflagged with h | h
    · exact hunflagged h
    · exact hnot h
  · intro hnot
    refine ⟨fun hs hmem hmoved more later hlater => ?_, fun hs hmoved more later hlater => ?_⟩
    · refine CancellationFlagged.later
        ((cancellationFlagged_reduceEvent_iff (some job) event).2 ?_) hlater
      rw [hafter] at hmoved
      by_cases ht : event.eventType = .jobExecutionFailed
      · -- only a failure may leave it to an earlier event
        refine Or.inl (by_contra fun hunflagged => hnot ⟨hs, ht, ?_, hunflagged⟩)
        exact (failure_of_cancelled hs ht).2.1 hmoved
      · refine Or.inr (raisedBy_of_reopened_cancelled hs hmoved ?_)
        simpa [ht] using hmem
    · refine ExhaustionFlagged.later
        ((exhaustionFlagged_reduceEvent_iff (some job) event).2 (Or.inr ?_)) hlater
      rw [hafter] at hmoved
      exact raisedBy_of_reopened_exhausted hs hmoved

/-- A start that reopens a cancelled job is flagged. -/
theorem violationsFlagged_start :
    ViolationsFlagged (reduceEvent none (retryEvent 1 .jobCancelled 0)).job
      (retryEvent 2 .jobExecutionStarted 1)
      (reduceEvent (some (reduceEvent none (retryEvent 1 .jobCancelled 0)).job)
        (retryEvent 2 .jobExecutionStarted 1)).job :=
  (violationsFlagged_iff _ _ _ rfl).2 (fun h => absurd h.2.1 (by decide))

/-- **A failure that reopens a cancelled job is not.** -/
theorem not_violationsFlagged_failure :
    ¬ ∀ (events : List Event) (job : JobVisibility) (event : Event) (result : ReductionResult),
      reduceVisibilityAll none events = .ok (some job) →
      reduceVisibility (some job) event = .ok result →
      ViolationsFlagged job event result.job := by
  intro h
  have hflags := h [retryEvent 1 .jobCancelled 0]
    (reduceEvent none (retryEvent 1 .jobCancelled 0)).job (retryEvent 2 .jobExecutionFailed 1)
    (reduceEvent (some (reduceEvent none (retryEvent 1 .jobCancelled 0)).job)
      (retryEvent 2 .jobExecutionFailed 1)) rfl rfl
  have hflagged := hflags.cancelled (by decide) (by decide) (by decide) [] _ rfl
  exact absurd hflagged.1 (by decide)

end ScheduledJobs
