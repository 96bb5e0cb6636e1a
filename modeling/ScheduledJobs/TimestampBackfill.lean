/-
**Timestamps in any order.**

Each time a projection shows is merged from the events of one type, or of all, whatever branch their
handlers take: a start backfills the time it is observed at before it is decided whether the job
runs, and a repeated outcome has no time of its own to merge.  So the times of a projection are the
earliest and latest ones delivered, and the order of delivery does not matter.

Main definitions:

* `JobTimes`, `JobVisibility.times` — the times a projection shows;
* `Event.times` — **the times one event observes**;
* `deliveredTimes` — the earliest and latest times of a list of events.

Main results:

* `times_reduceEvent` — **an event merges its times into those of the projection**;
* `times_reduceVisibilityAll` — **the times of a projection are those delivered**, in any order.
-/

import ScheduledJobs.AttemptMap
import ScheduledJobs.RetryAdvertisement

set_option relaxedAutoImplicit false
set_option autoImplicit false

namespace ScheduledJobs

open JobVisibility

/-! ### Merging -/

@[simp] theorem earliest_none (left : Option Datetime) : earliest left none = left := by
  cases left <;> rfl

/-- The least of a list with one more time. -/
theorem min?_concat (times : List Datetime) (t : Datetime) :
    (times ++ [t]).min? = earliest times.min? (some t) := by
  cases times with
  | nil => rfl
  | cons first rest =>
      rw [List.cons_append, List.min?_cons', List.foldl_append, List.min?_cons']
      rfl

/-- The greatest of a list with one more time. -/
theorem max?_concat (times : List Datetime) (t : Datetime) :
    (times ++ [t]).max? = latest times.max? (some t) := by
  cases times with
  | nil => rfl
  | cons first rest =>
      rw [List.cons_append, List.max?_cons', List.foldl_append, List.max?_cons']
      rfl

theorem min?_filterMap_concat (f : Event → Option Datetime) (before : List Event) (event : Event) :
    ((before ++ [event]).filterMap f).min? = earliest (before.filterMap f).min? (f event) := by
  cases hf : f event with
  | none => simp [hf]
  | some t => simp only [List.filterMap_append, List.filterMap_cons, hf, List.filterMap_nil,
      min?_concat]

/-- The least and the greatest do not depend on the order. -/
theorem min?_of_perm {times times' : List Datetime} (h : times.Perm times') :
    times.min? = times'.min? := by
  ext t
  simp only [List.min?_eq_some_iff, h.mem_iff]

theorem max?_of_perm {times times' : List Datetime} (h : times.Perm times') :
    times.max? = times'.max? := by
  ext t
  simp only [List.max?_eq_some_iff, h.mem_iff]

/-! ### Times -/

/-- The times of a job: when each stage was first observed, for the job and for its attempts, and
when it was last heard of. -/
@[ext] structure JobTimes where
  createdAt : Option Datetime := none
  submissionRequestedAt : Option Datetime := none
  schedulerAcknowledgedAt : Option Datetime := none
  schedulerRetrievedAt : Option Datetime := none
  startedAt : Option Datetime := none
  attemptRetrievedAt : ℕ → Option Datetime := fun _ => none
  attemptStartedAt : ℕ → Option Datetime := fun _ => none
  lastEventTime : Option Datetime := none
  dataAsOf : Option Datetime := none

/-- The times a projection shows. -/
def JobVisibility.times (job : JobVisibility) : JobTimes where
  createdAt := job.createdAt
  submissionRequestedAt := job.submissionRequestedAt
  schedulerAcknowledgedAt := job.schedulerAcknowledgedAt
  schedulerRetrievedAt := job.schedulerRetrievedAt
  startedAt := job.startedAt
  attemptRetrievedAt := job.attemptRetrievedAt
  attemptStartedAt := job.attemptStartedAt
  lastEventTime := job.lastEventTime
  dataAsOf := job.dataAsOf

/-- A time that is observed by the events of one type. -/
def Event.timeOf (event : Event) (eventType : EventType) (time : Datetime) : Option Datetime :=
  if event.eventType = eventType then some time else none

/-- **The times an event observes.** -/
def Event.times (event : Event) : JobTimes where
  createdAt := event.timeOf .jobCreated event.eventTime
  submissionRequestedAt := event.timeOf .jobSchedulerSubmissionRequested event.eventTime
  schedulerAcknowledgedAt := event.timeOf .jobSchedulerSubmissionAcknowledged event.eventTime
  schedulerRetrievedAt := event.timeOf .jobSchedulerItemRetrieved event.retrievalTime
  startedAt := event.timeOf .jobExecutionStarted event.eventTime
  attemptRetrievedAt := fun n =>
    if event.number = n then event.timeOf .jobSchedulerItemRetrieved event.retrievalTime else none
  attemptStartedAt := fun n =>
    if event.number = n then event.timeOf .jobExecutionStarted event.eventTime else none
  lastEventTime := event.eventTime
  dataAsOf := event.ingestionTime

/-- The earliest of the times, and the latest of the last two. -/
def JobTimes.merge (times other : JobTimes) : JobTimes where
  createdAt := earliest times.createdAt other.createdAt
  submissionRequestedAt := earliest times.submissionRequestedAt other.submissionRequestedAt
  schedulerAcknowledgedAt := earliest times.schedulerAcknowledgedAt other.schedulerAcknowledgedAt
  schedulerRetrievedAt := earliest times.schedulerRetrievedAt other.schedulerRetrievedAt
  startedAt := earliest times.startedAt other.startedAt
  attemptRetrievedAt := fun n =>
    earliest (times.attemptRetrievedAt n) (other.attemptRetrievedAt n)
  attemptStartedAt := fun n => earliest (times.attemptStartedAt n) (other.attemptStartedAt n)
  lastEventTime := latest times.lastEventTime other.lastEventTime
  dataAsOf := latest times.dataAsOf other.dataAsOf

/-- **The times that are delivered**: of each the earliest, but the latest of all events. -/
def deliveredTimes (events : List Event) : JobTimes where
  createdAt := (events.filterMap fun event => event.times.createdAt).min?
  submissionRequestedAt := (events.filterMap fun event => event.times.submissionRequestedAt).min?
  schedulerAcknowledgedAt :=
    (events.filterMap fun event => event.times.schedulerAcknowledgedAt).min?
  schedulerRetrievedAt := (events.filterMap fun event => event.times.schedulerRetrievedAt).min?
  startedAt := (events.filterMap fun event => event.times.startedAt).min?
  attemptRetrievedAt := fun n =>
    (events.filterMap fun event => event.times.attemptRetrievedAt n).min?
  attemptStartedAt := fun n => (events.filterMap fun event => event.times.attemptStartedAt n).min?
  lastEventTime := (events.map Event.eventTime).max?
  dataAsOf := (events.map Event.ingestionTime).max?

theorem deliveredTimes_concat (before : List Event) (event : Event) :
    deliveredTimes (before ++ [event]) = (deliveredTimes before).merge event.times := by
  have hmax : ∀ time : Event → Datetime, ((before ++ [event]).map time).max? =
      latest (before.map time).max? (some (time event)) := fun time => by
    rw [List.map_append, List.map_singleton, max?_concat]
  simp only [deliveredTimes, JobTimes.merge, min?_filterMap_concat, hmax]
  rfl

theorem deliveredTimes_of_perm {events delivered : List Event} (h : delivered.Perm events) :
    deliveredTimes delivered = deliveredTimes events := by
  simp only [deliveredTimes, min?_of_perm (h.filterMap _), max?_of_perm (h.map _)]

/-! ### Handlers -/

/-- The times of a job that its handlers merge. -/
structure JobVisibility.Backfilled (job : JobVisibility) (times : JobTimes)
    (after : JobVisibility) : Prop where
  createdAt : after.createdAt = earliest job.createdAt times.createdAt
  submissionRequestedAt : after.submissionRequestedAt =
    earliest job.submissionRequestedAt times.submissionRequestedAt
  schedulerAcknowledgedAt : after.schedulerAcknowledgedAt =
    earliest job.schedulerAcknowledgedAt times.schedulerAcknowledgedAt
  schedulerRetrievedAt : after.schedulerRetrievedAt =
    earliest job.schedulerRetrievedAt times.schedulerRetrievedAt
  startedAt : after.startedAt = earliest job.startedAt times.startedAt

/-- A handler that writes none of the times, of an event that observes none. -/
theorem JobVisibility.Backfilled.unchanged {job after : JobVisibility} {event : Event}
    (ht : event.eventType ∉ [.jobCreated, .jobSchedulerSubmissionRequested,
      .jobSchedulerSubmissionAcknowledged, .jobSchedulerItemRetrieved, .jobExecutionStarted])
    (hcreated : after.createdAt = job.createdAt := by rfl)
    (hrequested : after.submissionRequestedAt = job.submissionRequestedAt := by rfl)
    (hacknowledged : after.schedulerAcknowledgedAt = job.schedulerAcknowledgedAt := by rfl)
    (hretrieved : after.schedulerRetrievedAt = job.schedulerRetrievedAt := by rfl)
    (hstarted : after.startedAt = job.startedAt := by rfl) :
    job.Backfilled event.times after := by
  simp only [List.mem_cons, List.not_mem_nil, or_false, not_or] at ht
  constructor <;> simp [Event.times, Event.timeOf, *]

/-- **A handler merges the time it is told of, on every branch.** -/
theorem backfilled_handler (job : JobVisibility) (event : Event) :
    job.Backfilled event.times (handler event.eventType job event).1 := by
  cases ht : event.eventType with
  | jobCreated => constructor <;> simp [handler, onJobCreated, Event.times, Event.timeOf, ht]
  | jobSchedulerSubmissionRequested =>
      constructor <;>
        simp [handler, onJobSchedulerSubmissionRequested, Event.times, Event.timeOf, ht]
  | jobSchedulerSubmissionAcknowledged =>
      constructor <;>
        simp [handler, onJobSchedulerSubmissionAcknowledged, Event.times, Event.timeOf, ht]
  | jobSchedulerItemRetrieved =>
      constructor <;>
        simp [handler, onJobSchedulerItemRetrieved, openAttempt, Event.times, Event.timeOf, ht,
          Event.retrievalTime]
  | jobExecutionStarted =>
      -- the start is merged before the branches part
      simp only [handler, onJobExecutionStarted]
      split
      · constructor <;> simp [openAttempt, Event.times, Event.timeOf, ht]
      · split
        · constructor <;> simp [openAttempt, Event.times, Event.timeOf, ht]
        · constructor <;> simp [openAttempt, Event.times, Event.timeOf, ht]
  | jobExecutionSucceeded =>
      simp only [handler, onJobExecutionSucceeded]
      split
      · exact .unchanged (by rw [ht]; decide)
      · exact .unchanged (by rw [ht]; decide)
  | jobExecutionFailed =>
      simp only [handler, onJobExecutionFailed]
      split
      · exact .unchanged (by rw [ht]; decide)
      · split
        · exact .unchanged (by rw [ht]; decide)
        · exact .unchanged (by rw [ht]; decide)
  | jobRetryAcknowledged => exact .unchanged (by rw [ht]; decide)
  | jobSchedulerSubmissionFailed =>
      simp only [handler, onJobSchedulerSubmissionFailed]
      split <;> exact .unchanged (by rw [ht]; decide)
  | jobRetryRequested =>
      simp only [handler, onJobRetryRequested]
      split <;> exact .unchanged (by rw [ht]; decide)
  | jobRetryRejected =>
      simp only [handler, onJobRetryRejected]
      split <;> exact .unchanged (by rw [ht]; decide)
  | jobRetriesExhausted =>
      simp only [handler, onJobRetriesExhausted]
      split <;> exact .unchanged (by rw [ht]; decide)
  | jobCancelled =>
      simp only [handler, onJobCancelled]
      split <;> exact .unchanged (by rw [ht]; decide)

/-! ### Events -/

theorem backfilled_projectedBy (job : JobVisibility) (event : Event) :
    job.Backfilled event.times (projectedBy job event) := by
  unfold projectedBy
  split
  · next hdup =>
      -- a repeated outcome has no time to merge
      obtain ⟨ht | ht, -⟩ := opensAttempt_of_isSemanticDuplicate hdup
      · exact .unchanged (by rw [ht]; decide)
      · exact .unchanged (by rw [ht]; decide)
  · obtain ⟨h₁, h₂, h₃, h₄, h₅⟩ := backfilled_handler (mergeCommon job event) event
    exact ⟨h₁, h₂, h₃, h₄, h₅⟩

/-- **An event merges its times into those of the projection.** -/
theorem times_reduceEvent (current : Option JobVisibility) (event : Event) :
    (reduceEvent current event).job.times =
      (currentOrBlank current event).times.merge event.times := by
  obtain ⟨version, decisions, hjob⟩ := exists_reduceEvent_eq current event
  have hback := backfilled_projectedBy (currentOrBlank current event) event
  rw [hjob]
  ext1
  · exact hback.createdAt
  · exact hback.submissionRequestedAt
  · exact hback.schedulerAcknowledgedAt
  · exact hback.schedulerRetrievedAt
  · exact hback.startedAt
  · funext n
    refine (attemptRetrievedAt_projectedBy (currentOrBlank current event) event n).trans ?_
    by_cases hn : event.number = n
    · by_cases ht : event.eventType = .jobSchedulerItemRetrieved <;>
        simp [JobTimes.merge, Event.times, Event.timeOf, JobVisibility.times, hn, ht]
    · simp [JobTimes.merge, Event.times, JobVisibility.times, hn]
  · funext n
    refine (attemptStartedAt_projectedBy (currentOrBlank current event) event n).trans ?_
    by_cases hn : event.number = n
    · by_cases ht : event.eventType = .jobExecutionStarted <;>
        simp [JobTimes.merge, Event.times, Event.timeOf, JobVisibility.times, hn, ht]
    · simp [JobTimes.merge, Event.times, JobVisibility.times, hn]
  · rfl
  · rfl

/-- The times of a projection are those of the events it was reduced from. -/
theorem times_eq_deliveredTimes {events : List Event} {job : JobVisibility}
    (h : reduceVisibilityAll none events = .ok (some job)) : job.times = deliveredTimes events := by
  refine invariant_of_reduceVisibilityAll_some
    (P := fun before job => job.times = deliveredTimes before) (fun _ => rfl) ?_ h
  intro before event current hcurrent
  rw [times_reduceEvent, hcurrent, deliveredTimes_concat]

/-- **The times of a projection are those delivered, in any order**: every permutation of the events
of a job is reduced to a projection with the same times, the least of each and the greatest of
all. -/
theorem times_reduceVisibilityAll (jobId : String) (events delivered : List Event)
    (hevents : ∀ event ∈ events, event.jobId = jobId) (hperm : delivered.Perm events) :
    ∃ current, reduceVisibilityAll none delivered = .ok current ∧
      (current = none ↔ events = []) ∧ ∀ job ∈ current, job.times = deliveredTimes events := by
  have hreduced := reduceVisibilityAll_eq_ok jobId delivered
    (fun event hmem => hevents event (hperm.mem_iff.1 hmem)) none (by simp)
  refine ⟨_, hreduced, ⟨fun hnone => ?_, ?_⟩, fun job hjob => ?_⟩
  · rw [hnone] at hreduced
    have hnil := eq_nil_of_reduceVisibilityAll hreduced
    rw [hnil] at hperm
    exact hperm.symm.eq_nil
  · rintro rfl
    rw [hperm.eq_nil, reduceAll_nil]
  · rw [Option.mem_def.1 hjob] at hreduced
    rw [times_eq_deliveredTimes hreduced, deliveredTimes_of_perm hperm]

/-- A success that is delivered before its start, its retrieval and the creation of its job. -/
theorem times_reduceVisibilityAll_reversed :
    ∃ current, reduceVisibilityAll none [retryEvent 4 .jobExecutionSucceeded 1,
        retryEvent 3 .jobExecutionStarted 1, retryEvent 2 .jobSchedulerItemRetrieved 1,
        retryEvent 1 .jobCreated 0] = .ok current ∧
      (current = none ↔ [retryEvent 1 .jobCreated 0, retryEvent 2 .jobSchedulerItemRetrieved 1,
        retryEvent 3 .jobExecutionStarted 1, retryEvent 4 .jobExecutionSucceeded 1] = []) ∧
      ∀ job ∈ current, job.times = deliveredTimes
        [retryEvent 1 .jobCreated 0, retryEvent 2 .jobSchedulerItemRetrieved 1,
          retryEvent 3 .jobExecutionStarted 1, retryEvent 4 .jobExecutionSucceeded 1] :=
  times_reduceVisibilityAll "job-1" _ _ (by decide) (List.reverse_perm
    [retryEvent 1 .jobCreated 0, retryEvent 2 .jobSchedulerItemRetrieved 1,
      retryEvent 3 .jobExecutionStarted 1, retryEvent 4 .jobExecutionSucceeded 1])

end ScheduledJobs
