/-
**Refused events and the content of a projection.**

The version of a projection counts the events that changed it: an event that repeats an outcome is
a semantic duplicate, and one that a handler refuses is ignored, and neither is counted.  A
semantic duplicate is recognised before anything is merged.  A refused event is not: the fields
every event carries are merged before its handler is asked, so the content changes under the same
version whenever the event brings something for one of them.

Main definitions:

* `JobVisibility.content` — a projection without the fields in which every event is logged;
* `Status.refuses` — the events that are refused in a status;
* `Event.AddsNothingTo` — the event brings nothing for the fields merged in advance.

Main results:

* `handler_of_refuses`, `handler_changed` — **what the five refusing handlers have in common**;
* `content_mergeCommon_iff` — when the merge in advance changes nothing;
* `content_unchanged_iff` — **an event that is not counted leaves the content alone exactly when it
  adds nothing or is not refused**.
-/

import ScheduledJobs.RetryAdvertisement

set_option relaxedAutoImplicit false
set_option autoImplicit false

namespace ScheduledJobs

/-- The projection without the fields in which every event is logged. -/
def JobVisibility.content (job : JobVisibility) : JobVisibility :=
  { job with decisions := [], lastEventTime := none, dataAsOf := none }

/-! ### Refused events -/

/-- The events a handler refuses in a status.  The retries of a job that succeeded are refused by a
guard of their own. -/
def Status.refuses (status : Status) : EventType → Bool
  | .jobSchedulerSubmissionFailed | .jobRetryRequested | .jobRetryRejected | .jobCancelled =>
      status.isTerminal
  | .jobRetriesExhausted => status = .succeeded
  | _ => false

/-- A refused event is left at the projection its handler was given. -/
theorem handler_of_refuses {t : EventType} {job : JobVisibility} (event : Event)
    (h : job.recordedStatus.refuses t) : (handler t job event).1 = job := by
  cases t with
  | jobSchedulerSubmissionFailed =>
      have hterminal : job.recordedStatus.isTerminal := h
      rw [handler, onJobSchedulerSubmissionFailed, if_pos hterminal]
  | jobRetryRequested =>
      have hterminal : job.recordedStatus.isTerminal := h
      rw [handler, onJobRetryRequested, if_pos hterminal]
  | jobRetryRejected =>
      have hterminal : job.recordedStatus.isTerminal := h
      rw [handler, onJobRetryRejected, if_pos hterminal]
  | jobCancelled =>
      have hterminal : job.recordedStatus.isTerminal := h
      rw [handler, onJobCancelled, if_pos hterminal]
  | jobRetriesExhausted =>
      have hsucceeded : job.recordedStatus = .succeeded := of_decide_eq_true h
      rw [handler, onJobRetriesExhausted, if_pos hsucceeded]
  | jobCreated => cases h
  | jobSchedulerSubmissionRequested => cases h
  | jobSchedulerSubmissionAcknowledged => cases h
  | jobSchedulerItemRetrieved => cases h
  | jobExecutionStarted => cases h
  | jobExecutionSucceeded => cases h
  | jobExecutionFailed => cases h
  | jobRetryAcknowledged => cases h

/-- **A handler reports no change exactly when it refuses the event.** -/
theorem handler_changed (t : EventType) (job : JobVisibility) (event : Event) :
    (handler t job event).2.1 = !job.recordedStatus.refuses t := by
  cases t with
  | jobSchedulerSubmissionFailed =>
      simp only [handler, onJobSchedulerSubmissionFailed, Status.refuses]
      split <;> simp_all
  | jobRetryRequested =>
      simp only [handler, onJobRetryRequested, Status.refuses]
      split <;> simp_all
  | jobRetryRejected =>
      simp only [handler, onJobRetryRejected, Status.refuses]
      split <;> simp_all
  | jobCancelled =>
      simp only [handler, onJobCancelled, Status.refuses]
      split <;> simp_all
  | jobRetriesExhausted =>
      simp only [handler, onJobRetriesExhausted, Status.refuses]
      split <;> simp_all
  | jobExecutionStarted =>
      simp only [handler, onJobExecutionStarted, Status.refuses]
      split
      · rfl
      · split <;> rfl
  | jobExecutionSucceeded =>
      simp only [handler, onJobExecutionSucceeded, Status.refuses]
      split <;> rfl
  | jobExecutionFailed =>
      simp only [handler, onJobExecutionFailed, Status.refuses]
      split
      · rfl
      · split <;> rfl
  | jobCreated => rfl
  | jobSchedulerSubmissionRequested => rfl
  | jobSchedulerSubmissionAcknowledged => rfl
  | jobSchedulerItemRetrieved => rfl
  | jobRetryAcknowledged => rfl

/-- An outcome is never refused. -/
theorem not_refuses_of_isSemanticDuplicate {job : JobVisibility} {event : Event}
    (h : isSemanticDuplicate job event) (status : Status) : ¬ status.refuses event.eventType := by
  intro hrefuses
  unfold isSemanticDuplicate at h
  split at h
  · cases h
  · rcases (Bool.or_eq_true ..).mp h with hs | hf
    · have ht := of_decide_eq_true (Bool.and_eq_true_iff.mp hs).1
      rw [ht] at hrefuses
      cases hrefuses
    · have ht := of_decide_eq_true (Bool.and_eq_true_iff.mp hf).1
      rw [ht] at hrefuses
      cases hrefuses

/-! ### What is merged in advance -/

/-- **The event brings nothing for the fields that are merged before its handler runs.** -/
structure Event.AddsNothingTo (event : Event) (job : JobVisibility) : Prop where
  correlationId : job.correlationId ≠ "" ∨ event.correlationId = ""
  jobType : event.jobType = "" ∨ event.jobType = job.jobType
  maxAttempts : event.maxAttempts ≤ job.maxAttempts
  scheduledAt : job.scheduledAt.isSome ∨ event.scheduledAt = none
  schedulerReference : event.schedulerReference = none ∨ event.schedulerReference = some "" ∨
    event.schedulerReference = job.schedulerReference

theorem orElseText_eq_left_iff {left right : String} :
    orElseText left right = left ↔ left ≠ "" ∨ right = "" := by
  unfold orElseText
  by_cases h : left = ""
  · simp [h]
  · simp [h]

theorem orElseText_eq_right_iff {left right : String} :
    orElseText left right = right ↔ left = "" ∨ left = right := by
  unfold orElseText
  by_cases h : left = ""
  · simp [h]
  · simp [h]

theorem or_eq_left_iff {α : Type*} {left right : Option α} :
    left.or right = left ↔ left.isSome ∨ right = none := by
  cases left <;> simp

/-- The scheduler reference is kept when the event has none, or the same. -/
theorem schedulerReference_mergeCommon_iff {job : JobVisibility} {event : Event} :
    (mergeCommon job event).schedulerReference = job.schedulerReference ↔
      event.schedulerReference = none ∨ event.schedulerReference = some "" ∨
        event.schedulerReference = job.schedulerReference := by
  cases hreference : event.schedulerReference with
  | none => simp [mergeCommon, hreference]
  | some reference =>
      by_cases h : reference = ""
      · simp [mergeCommon, hreference, h]
      · simp [mergeCommon, hreference, h]

theorem mergeCommon_of_addsNothingTo {job : JobVisibility} {event : Event}
    (h : event.AddsNothingTo job) : mergeCommon job event = job :=
  JobVisibility.ext rfl (orElseText_eq_left_iff.mpr h.correlationId)
    (orElseText_eq_right_iff.mpr h.jobType) rfl rfl rfl rfl
    (or_eq_left_iff.mpr h.scheduledAt) rfl rfl rfl
    (schedulerReference_mergeCommon_iff.mpr h.schedulerReference) (Nat.max_eq_left h.maxAttempts)
    rfl rfl rfl rfl rfl rfl rfl rfl rfl rfl rfl rfl rfl rfl rfl rfl

/-- When the merge in advance changes nothing: the fields it writes are part of the content. -/
theorem content_mergeCommon_iff {job : JobVisibility} {event : Event} :
    (mergeCommon job event).content = job.content ↔ event.AddsNothingTo job := by
  constructor
  · intro h
    have hcorrelation : (mergeCommon job event).correlationId = job.correlationId :=
      (congrArg JobVisibility.correlationId h :)
    have htype : (mergeCommon job event).jobType = job.jobType :=
      (congrArg JobVisibility.jobType h :)
    have hmax : (mergeCommon job event).maxAttempts = job.maxAttempts :=
      (congrArg JobVisibility.maxAttempts h :)
    have hscheduled : (mergeCommon job event).scheduledAt = job.scheduledAt :=
      (congrArg JobVisibility.scheduledAt h :)
    have hreference : (mergeCommon job event).schedulerReference = job.schedulerReference :=
      (congrArg JobVisibility.schedulerReference h :)
    exact
      { correlationId := orElseText_eq_left_iff.mp hcorrelation
        jobType := orElseText_eq_right_iff.mp htype
        maxAttempts := Nat.le_trans (Nat.le_max_right ..) (Nat.le_of_eq hmax)
        scheduledAt := or_eq_left_iff.mp hscheduled
        schedulerReference := schedulerReference_mergeCommon_iff.mp hreference }
  · intro h
    rw [mergeCommon_of_addsNothingTo h]

/-! ### Events that are not counted -/

/-- What a refused event leaves. -/
theorem content_reduceEvent_of_refuses {current : Option JobVisibility} {event : Event}
    (h : (currentOrBlank current event).recordedStatus.refuses event.eventType) :
    (reduceEvent current event).decision.decision = .ignored ∧
      (reduceEvent current event).job.content =
        (mergeCommon (currentOrBlank current event) event).content := by
  have hdup : ¬ isSemanticDuplicate (currentOrBlank current event) event :=
    fun hdup => not_refuses_of_isSemanticDuplicate hdup _ h
  have hrefuses : (mergeCommon (currentOrBlank current event) event).recordedStatus.refuses
      event.eventType := h
  have hchanged := handler_changed event.eventType
    (mergeCommon (currentOrBlank current event) event) event
  rw [hrefuses] at hchanged
  simp [reduceEvent, decideEvent, hdup, project, hchanged, handler_of_refuses event hrefuses,
    JobVisibility.content]

/-- An event that is neither refused nor a semantic duplicate is counted. -/
theorem decision_reduceEvent_of_not_refuses {current : Option JobVisibility} {event : Event}
    (hdup : ¬ isSemanticDuplicate (currentOrBlank current event) event)
    (h : ¬ (currentOrBlank current event).recordedStatus.refuses event.eventType) :
    (reduceEvent current event).decision.decision = .applied := by
  have hrefuses : (mergeCommon (currentOrBlank current event) event).recordedStatus.refuses
      event.eventType = false := eq_false_of_ne_true h
  have hchanged := handler_changed event.eventType
    (mergeCommon (currentOrBlank current event) event) event
  rw [hrefuses] at hchanged
  simp [reduceEvent, decideEvent, hdup, project, hchanged]

/-- **An event that is not counted leaves the content of the projection alone exactly when it adds
nothing or is not refused.**  The projection is any, so the events that led to it do not matter. -/
theorem content_unchanged_iff (current : Option JobVisibility) (event : Event)
    (result : ReductionResult) (hreduce : reduceVisibility current event = .ok result) :
    (result.decision.decision ∈ [.ignored, .semanticDuplicate] →
        result.job.content = (currentOrBlank current event).content) ↔
      ((currentOrBlank current event).recordedStatus.refuses event.eventType →
        event.AddsNothingTo (currentOrBlank current event)) := by
  obtain rfl := eq_reduceEvent_of_reduceVisibility hreduce
  by_cases hrefuses : (currentOrBlank current event).recordedStatus.refuses event.eventType
  · obtain ⟨hdecision, hcontent⟩ := content_reduceEvent_of_refuses hrefuses
    rw [hdecision, hcontent, content_mergeCommon_iff]
    simp [hrefuses]
  · refine iff_of_true (fun hdecision => ?_) (fun h => absurd h hrefuses)
    by_cases hdup : isSemanticDuplicate (currentOrBlank current event) event
    · -- the duplicate is recognised before anything is merged
      simp only [reduceEvent, decideEvent, if_pos hdup]
      rfl
    · rw [decision_reduceEvent_of_not_refuses hdup hrefuses] at hdecision
      exact absurd hdecision (by decide)

/-! ### A cancellation that brings a schedule -/

namespace RefusedCancellation

/-- A job succeeds. -/
def succeeded : Event := retryEvent 1 .jobExecutionSucceeded 1

/-- It is cancelled afterwards. -/
def cancelled : Event := retryEvent 2 .jobCancelled 0

/-- The cancellation names the scheduled time, which nothing did before. -/
def cancelledWithSchedule : Event := { cancelled with scheduledAt := some 0 }

end RefusedCancellation

open RefusedCancellation

/-- A cancellation that brings nothing leaves the content alone. -/
theorem content_unchanged_lateCancellation :
    (reduceEvent (reduceAll none [succeeded]) cancelled).job.content =
      (reduceEvent none succeeded).job.content :=
  (content_unchanged_iff (reduceAll none [succeeded]) cancelled _ rfl).mpr
    (fun _ => ⟨by decide, by decide, by decide, by decide, by decide⟩) (by decide)

/-- **A cancellation that is ignored gives the job a scheduled time under the same version.** -/
theorem not_content_unchanged_schedule :
    ¬ ∀ (events : List Event) (job : JobVisibility) (event : Event) (result : ReductionResult),
      reduceVisibilityAll none events = .ok (some job) →
      reduceVisibility (some job) event = .ok result →
      result.decision.decision ∈ [.ignored, .semanticDuplicate] →
      result.job.content = job.content := by
  intro h
  have hcontent := h [succeeded] (reduceEvent none succeeded).job cancelledWithSchedule
    (reduceEvent (some (reduceEvent none succeeded).job) cancelledWithSchedule) rfl rfl (by decide)
  have hscheduled := congrArg JobVisibility.scheduledAt hcontent
  cases hscheduled

end ScheduledJobs
