/-
**The timestamps of a projection are those of its events.**

A reduction computes no timestamp: it keeps the earlier or the later of two, or the one that an
event brings.  So whatever holds of the timestamps of all events of a job holds of those of its
projection: that they have offsets, that they are in UTC, that they leave room in the calendar.

Main definitions:

* `Event.Holding`, `JobVisibility.Holding`, `VisibilityEngine.Holding` — all timestamps have a
  property.

Main results:

* `earliest_holding`, `latest_holding` — merging keeps one of the two timestamps;
* `handler_holding`, `reduceVisibility_holding` — **what a reduction preserves**;
* `VisibilityEngine.Holding.apply` — and what an event that is applied does.
-/

import ScheduledJobs.AtomicApply

set_option relaxedAutoImplicit false
set_option autoImplicit false

namespace ScheduledJobs.Mixed

/-! ### Records -/

section Records

variable (P : Timestamp → Prop)

/-- The timestamps of an event have a property. -/
structure Event.Holding (event : Event) : Prop where
  eventTime : P event.eventTime
  ingestionTime : P event.ingestionTime
  scheduledAt : ∀ t ∈ event.scheduledAt, P t
  nextRetryAt : ∀ t ∈ event.nextRetryAt, P t
  pollTime : ∀ t ∈ event.pollTime, P t

/-- Those of an attempt. -/
structure Attempt.Holding (attempt : Attempt) : Prop where
  retrievedAt : ∀ t ∈ attempt.retrievedAt, P t
  startedAt : ∀ t ∈ attempt.startedAt, P t
  completedAt : ∀ t ∈ attempt.completedAt, P t

/-- Those of a finding. -/
structure Finding.Holding (finding : Finding) : Prop where
  firstObservedAt : P finding.firstObservedAt
  resolvedAt : ∀ t ∈ finding.resolvedAt, P t

/-- Those of findings by code. -/
def Findings.Holding (findings : Findings) : Prop :=
  ∀ code, ∀ finding ∈ findings.get? code, finding.Holding P

/-- **The timestamps of a projection have a property.** -/
structure JobVisibility.Holding (job : JobVisibility) : Prop where
  createdAt : ∀ t ∈ job.createdAt, P t
  submissionRequestedAt : ∀ t ∈ job.submissionRequestedAt, P t
  schedulerAcknowledgedAt : ∀ t ∈ job.schedulerAcknowledgedAt, P t
  scheduledAt : ∀ t ∈ job.scheduledAt, P t
  schedulerRetrievedAt : ∀ t ∈ job.schedulerRetrievedAt, P t
  startedAt : ∀ t ∈ job.startedAt, P t
  completedAt : ∀ t ∈ job.completedAt, P t
  nextRetryAt : ∀ t ∈ job.nextRetryAt, P t
  lastFailureAt : ∀ t ∈ job.lastFailureAt, P t
  retryRequestedAt : ∀ t ∈ job.retryRequestedAt, P t
  lastEventTime : ∀ t ∈ job.lastEventTime, P t
  dataAsOf : ∀ t ∈ job.dataAsOf, P t
  attempts : ∀ number, ∀ attempt ∈ job.attempts.get? number, attempt.Holding P
  findings : Findings.Holding P job.findings

/-- A blank projection has no timestamps. -/
theorem holding_blank (jobId : String) : JobVisibility.Holding P { jobId := jobId } := by
  constructor <;> intros <;> simp_all [Findings.Holding]

end Records

section Holding

variable {P : Timestamp → Prop} {left : Option Timestamp} {right : Timestamp}
  {job : JobVisibility} {event : Event}

/-! ### Merging -/

/-- **Merging keeps one of the two timestamps.** -/
theorem earliest_holding (hleft : ∀ t ∈ left, P t) (hright : P right) :
    (earliest left right).Meets (fun m => ∀ t ∈ m, P t) fun _ => True := by
  cases left with
  | none =>
      rintro t ht
      obtain rfl := Option.some_inj.1 ht
      exact hright
  | some l =>
      refine Except.Meets.any.bind fun before _ _ => ?_
      rintro t ht
      obtain rfl := Option.some_inj.1 ht
      split
      · exact hright
      · exact hleft l rfl

theorem latest_holding (hleft : ∀ t ∈ left, P t) (hright : P right) :
    (latest left right).Meets (fun m => ∀ t ∈ m, P t) fun _ => True := by
  cases left with
  | none =>
      rintro t ht
      obtain rfl := Option.some_inj.1 ht
      exact hright
  | some l =>
      refine Except.Meets.any.bind fun after _ _ => ?_
      rintro t ht
      obtain rfl := Option.some_inj.1 ht
      split
      · exact hright
      · exact hleft l rfl

theorem Event.Holding.imp {Q : Timestamp → Prop} (h : event.Holding P) (hpq : ∀ t, P t → Q t) :
    event.Holding Q where
  eventTime := hpq _ h.eventTime
  ingestionTime := hpq _ h.ingestionTime
  scheduledAt := fun t ht => hpq t (h.scheduledAt t ht)
  nextRetryAt := fun t ht => hpq t (h.nextRetryAt t ht)
  pollTime := fun t ht => hpq t (h.pollTime t ht)

theorem Event.Holding.retrievedAt (h : event.Holding P) : P event.retrievedAt := by
  unfold Event.retrievedAt
  cases hpoll : event.pollTime with
  | none => exact h.eventTime
  | some t => exact h.pollTime t hpoll

theorem mem_or {first second : Option Timestamp} (hfirst : ∀ t ∈ first, P t)
    (hsecond : ∀ t ∈ second, P t) : ∀ t ∈ first.or second, P t := by
  cases first with
  | none => exact hsecond
  | some t => exact hfirst

/-! ### Findings -/

namespace Findings.Holding

variable {findings : Findings}

theorem observe (h : Findings.Holding P findings) (code : FindingCode) {observedAt : Timestamp}
    (htime : P observedAt) (message : String) :
    Findings.Holding P (findings.observe code observedAt message) := by
  refine Dict.forall_get?_set h ?_ code
  unfold Findings.observation
  split
  · next finding hfinding => exact ⟨(h code finding hfinding).firstObservedAt, by simp⟩
  · exact ⟨htime, by simp⟩

theorem resolve (h : Findings.Holding P findings) (code : FindingCode) {resolvedAt : Timestamp}
    (htime : P resolvedAt) : Findings.Holding P (findings.resolve code resolvedAt) := by
  unfold Findings.resolve
  split
  · next finding hfinding =>
      split
      · have hresolved : Finding.Holding P
            { finding with active := false, resolvedAt := some resolvedAt } := by
          refine ⟨(h code finding hfinding).firstObservedAt, ?_⟩
          rintro t ht
          obtain rfl := Option.some_inj.1 ht
          exact htime
        exact Dict.forall_get?_set h hresolved code
      · exact h
  · exact h

theorem ite {p : Prop} [Decidable p] {other : Findings} (h : Findings.Holding P findings)
    (h' : Findings.Holding P other) : Findings.Holding P (if p then findings else other) := by
  split
  · exact h
  · exact h'

end Findings.Holding

/-! ### Projections -/

namespace JobVisibility.Holding

theorem attempt (h : job.Holding P) : ∀ attempt ∈ job.attempts.values, attempt.Holding P := by
  intro attempt hattempt
  obtain ⟨number, hnumber⟩ := Dict.mem_values_iff.1 hattempt
  exact h.attempts number attempt hnumber

theorem finding (h : job.Holding P) : ∀ finding ∈ job.findings.values, finding.Holding P := by
  intro finding hfinding
  obtain ⟨code, hcode⟩ := Dict.mem_values_iff.1 hfinding
  exact h.findings code finding hcode

/-- A weaker property. -/
theorem imp {Q : Timestamp → Prop} (h : job.Holding P)
    (hpq : ∀ t, P t → Q t) : job.Holding Q where
  createdAt := fun t ht => hpq t (h.createdAt t ht)
  submissionRequestedAt := fun t ht => hpq t (h.submissionRequestedAt t ht)
  schedulerAcknowledgedAt := fun t ht => hpq t (h.schedulerAcknowledgedAt t ht)
  scheduledAt := fun t ht => hpq t (h.scheduledAt t ht)
  schedulerRetrievedAt := fun t ht => hpq t (h.schedulerRetrievedAt t ht)
  startedAt := fun t ht => hpq t (h.startedAt t ht)
  completedAt := fun t ht => hpq t (h.completedAt t ht)
  nextRetryAt := fun t ht => hpq t (h.nextRetryAt t ht)
  lastFailureAt := fun t ht => hpq t (h.lastFailureAt t ht)
  retryRequestedAt := fun t ht => hpq t (h.retryRequestedAt t ht)
  lastEventTime := fun t ht => hpq t (h.lastEventTime t ht)
  dataAsOf := fun t ht => hpq t (h.dataAsOf t ht)
  attempts := fun number attempt hattempt =>
    { retrievedAt := fun t ht => hpq t ((h.attempts number attempt hattempt).retrievedAt t ht)
      startedAt := fun t ht => hpq t ((h.attempts number attempt hattempt).startedAt t ht)
      completedAt := fun t ht => hpq t ((h.attempts number attempt hattempt).completedAt t ht) }
  findings := fun code finding hfinding =>
    { firstObservedAt := hpq _ (h.findings code finding hfinding).firstObservedAt
      resolvedAt := fun t ht => hpq t ((h.findings code finding hfinding).resolvedAt t ht) }

theorem attemptAt (h : job.Holding P) (number : ℕ) : (job.attemptAt number).Holding P := by
  unfold JobVisibility.attemptAt
  cases hattempt : job.attempts.get? number with
  | none => exact ⟨by simp, by simp, by simp⟩
  | some attempt => exact h.attempts _ _ hattempt

theorem attempts_set (h : job.Holding P) (number : ℕ) {attempt : Attempt}
    (hattempt : attempt.Holding P) :
    ∀ number', ∀ attempt' ∈ (job.attempts.set number attempt).get? number',
      attempt'.Holding P := Dict.forall_get?_set h.attempts hattempt number

theorem openAttempt (h : job.Holding P) (hevent : event.Holding P) :
    (job.openAttempt event).Holding P :=
  { h with
    attempts := h.attempts_set _ (h.attemptAt event.number)
    findings := (h.findings.observe _ hevent.ingestionTime _).ite h.findings }

theorem terminalConflict (h : job.Holding P) (hevent : event.Holding P) :
    (job.terminalConflict event).Holding P :=
  { h with findings := h.findings.observe _ hevent.ingestionTime _ }

theorem mergeCommon (h : job.Holding P) (hevent : event.Holding P) :
    (mergeCommon job event).Holding P :=
  { h with scheduledAt := mem_or h.scheduledAt hevent.scheduledAt }

end JobVisibility.Holding

/-! ### The handlers -/

theorem onJobSchedulerItemRetrieved_holding (h : job.Holding P) (hevent : event.Holding P) :
    (onJobSchedulerItemRetrieved job event).Meets (fun h => h.1.Holding P) fun _ => True := by
  have hopened := h.openAttempt hevent
  have hattempt := hopened.attemptAt event.number
  refine (earliest_holding hattempt.retrievedAt hevent.retrievedAt).bind fun _ _ hkept => ?_
  refine (earliest_holding hopened.schedulerRetrievedAt hevent.retrievedAt).bind
    fun _ _ hkept' => ?_
  exact { hopened with
    schedulerRetrievedAt := hkept'
    attempts := hopened.attempts_set _ { hattempt with retrievedAt := hkept } }

theorem executionStarted_holding {attempt : Attempt} (h : job.Holding P)
    (hattempt : attempt.Holding P) (hevent : event.Holding P) :
    (executionStarted job attempt event).1.Holding P := by
  simp only [executionStarted]
  split
  · exact h
  · split
    · exact h
    · have hfindings := (h.findings.observe .executedAfterCancel hevent.ingestionTime
        "Execution was observed after cancellation.").ite (p := job.recordedStatus = .cancelled)
          h.findings
      exact { h with
        attempts := h.attempts_set _ { hattempt with }
        findings := (hfindings.observe _ hevent.ingestionTime _).ite hfindings }

theorem onJobExecutionStarted_holding (h : job.Holding P) (hevent : event.Holding P) :
    (onJobExecutionStarted job event).Meets (fun h => h.1.Holding P) fun _ => True := by
  have hopened := h.openAttempt hevent
  have hattempt := hopened.attemptAt event.number
  refine (earliest_holding hattempt.startedAt hevent.eventTime).bind fun _ _ hkept => ?_
  refine (earliest_holding hopened.startedAt hevent.eventTime).bind fun _ _ hkept' => ?_
  refine executionStarted_holding ?_ { hattempt with startedAt := hkept } hevent
  exact { hopened with
    startedAt := hkept'
    attempts := hopened.attempts_set _ { hattempt with startedAt := hkept } }

theorem onJobExecutionSucceeded_holding (h : job.Holding P) (hevent : event.Holding P) :
    (onJobExecutionSucceeded job event).Meets (fun h => h.1.Holding P) fun _ => True := by
  have hopened := h.openAttempt hevent
  have hattempt := hopened.attemptAt event.number
  simp only [onJobExecutionSucceeded]
  split
  · exact hopened.terminalConflict hevent
  · refine (latest_holding hattempt.completedAt hevent.eventTime).bind fun _ _ hkept => ?_
    refine (latest_holding hopened.completedAt hevent.eventTime).bind fun _ _ hkept' => ?_
    exact { hopened with
      completedAt := hkept'
      nextRetryAt := by simp
      findings := (hopened.findings.observe _ hevent.ingestionTime _).ite hopened.findings
      attempts := hopened.attempts_set _ { hattempt with completedAt := hkept } }

theorem onJobExecutionFailed_holding (h : job.Holding P) (hevent : event.Holding P) :
    (onJobExecutionFailed job event).Meets (fun h => h.1.Holding P) fun _ => True := by
  have hopened := h.openAttempt hevent
  have hattempt := hopened.attemptAt event.number
  simp only [onJobExecutionFailed]
  split
  · exact hopened.terminalConflict hevent
  split
  · exact hopened.terminalConflict hevent
  · refine (latest_holding hattempt.completedAt hevent.eventTime).bind fun _ _ hkept => ?_
    refine (latest_holding hopened.completedAt hevent.eventTime).bind fun _ _ hkept' => ?_
    refine (latest_holding hopened.lastFailureAt hevent.eventTime).bind fun _ _ hfailure => ?_
    exact { hopened with
      completedAt := hkept'
      lastFailureAt := hfailure
      nextRetryAt := by simp
      attempts := hopened.attempts_set _ { hattempt with completedAt := hkept } }

/-- **A handler keeps timestamps of the projection, or takes those of the event.** -/
theorem handler_holding (t : EventType) (h : job.Holding P) (hevent : event.Holding P) :
    (handler t job event).Meets (fun h => h.1.Holding P) fun _ => True := by
  cases t with
  | jobCreated =>
      refine (earliest_holding h.createdAt hevent.eventTime).bind fun _ _ hkept => ?_
      exact { h with createdAt := hkept }
  | jobSchedulerSubmissionRequested =>
      refine (earliest_holding h.submissionRequestedAt hevent.eventTime).bind fun _ _ hkept => ?_
      exact { h with submissionRequestedAt := hkept }
  | jobSchedulerSubmissionAcknowledged =>
      refine (earliest_holding h.schedulerAcknowledgedAt hevent.eventTime).bind
        fun _ _ hkept => ?_
      exact { h with
        schedulerAcknowledgedAt := hkept
        findings := h.findings.resolve _ hevent.ingestionTime }
  | jobSchedulerSubmissionFailed =>
      simp only [handler, onJobSchedulerSubmissionFailed]
      split
      · exact h
      · refine (latest_holding h.completedAt hevent.eventTime).bind fun _ _ hkept => ?_
        exact { h with completedAt := hkept }
  | jobSchedulerItemRetrieved => exact onJobSchedulerItemRetrieved_holding h hevent
  | jobExecutionStarted => exact onJobExecutionStarted_holding h hevent
  | jobExecutionSucceeded => exact onJobExecutionSucceeded_holding h hevent
  | jobExecutionFailed => exact onJobExecutionFailed_holding h hevent
  | jobRetryRequested =>
      simp only [handler, onJobRetryRequested]
      split
      · exact h
      · refine (latest_holding h.retryRequestedAt hevent.eventTime).bind fun _ _ hkept => ?_
        exact { h with retryRequestedAt := hkept, nextRetryAt := by simp }
  | jobRetryAcknowledged =>
      exact { h with
        nextRetryAt := mem_or hevent.nextRetryAt h.nextRetryAt
        findings := h.findings.resolve _ hevent.ingestionTime }
  | jobRetryRejected =>
      simp only [handler, onJobRetryRejected]
      split
      · exact h
      · exact { h with nextRetryAt := by simp }
  | jobRetriesExhausted =>
      simp only [handler, onJobRetriesExhausted]
      split
      · exact h
      · refine (latest_holding h.completedAt hevent.eventTime).bind fun _ _ hkept => ?_
        exact { h with completedAt := hkept, nextRetryAt := by simp }
  | jobCancelled =>
      simp only [handler, onJobCancelled]
      split
      · exact h
      · refine (latest_holding h.completedAt hevent.eventTime).bind fun _ _ hkept => ?_
        exact { h with completedAt := hkept }

/-! ### One event -/

theorem decideEvent_holding (h : job.Holding P) (hevent : event.Holding P) :
    (decideEvent job event).Meets (fun decided => decided.1.Holding P) fun _ => True := by
  simp only [decideEvent]
  split
  · exact h
  · have hhandler := handler_holding event.eventType (h.mergeCommon hevent) hevent
    refine Except.Meets.bind (P := fun projected : JobVisibility × ProjectionDecision =>
      projected.1.Holding P) (hhandler.bind fun handled _ hhandled => hhandled)
        fun projected _ hprojected => ?_
    split
    · exact { hprojected with }
    · exact hprojected

/-- **What a reduction preserves.** -/
theorem reduceVisibility_holding {current : Option JobVisibility} {result : ReductionResult}
    (hcurrent : ∀ job ∈ current, job.Holding P) (hevent : event.Holding P)
    (h : reduceVisibility current event = .ok result) : result.job.Holding P := by
  obtain ⟨decided, hdecided, hlast, hdata, -, hresult⟩ := exists_merges_of_reduceVisibility h
  have hblank : (currentOrBlank current event).Holding P := by
    cases current with
    | none => exact holding_blank P _
    | some job => exact hcurrent job rfl
  have hkept := (decideEvent_holding hblank hevent).of_ok hdecided
  rw [hresult]
  exact { hkept with
    lastEventTime := (latest_holding hblank.lastEventTime hevent.eventTime).of_ok hlast
    dataAsOf := (latest_holding hblank.dataAsOf hevent.ingestionTime).of_ok hdata }

end Holding

/-! ### Engines -/

namespace VisibilityEngine

variable {P : Timestamp → Prop} {engine after : VisibilityEngine} {event : Event}

/-- The timestamps of all projections have a property. -/
def Holding (P : Timestamp → Prop) (engine : VisibilityEngine) : Prop :=
  ∀ jobId, ∀ job ∈ engine.jobs.find? jobId, job.Holding P

theorem holding_new (config : VisibilityConfig) :
    VisibilityEngine.Holding P { config := config } := by
  intro jobId job hjob
  cases hjob

/-- **What an event that is applied preserves.** -/
theorem Holding.apply {expectedVersion : Option ℕ} {decision : ProjectionDecision}
    (hengine : engine.Holding P) (hevent : event.Holding P)
    (h : engine.apply event expectedVersion = (after, .ok decision)) : after.Holding P := by
  rcases engine.apply_cases event expectedVersion with
    ⟨-, happly⟩ | ⟨-, -, e, happly⟩ | ⟨-, -, ⟨e, -, happly⟩ | ⟨result, hresult, happly⟩⟩
  · rw [happly] at h
    cases h
    intro jobId job' hjob'
    obtain ⟨job, hjob, decisions, rfl⟩ := exists_of_mem_logged jobId job' hjob'
    exact { hengine jobId job hjob with }
  · rw [happly] at h
    cases h
  · rw [happly] at h
    cases h
  · rw [happly] at h
    cases h
    have hnext := reduceVisibility_holding (hengine event.jobId) hevent hresult
    intro jobId job' hjob'
    rw [Option.mem_def, Table.find?_upsert] at hjob'
    split at hjob'
    · exact Option.some_inj.1 hjob' ▸ hnext
    · exact hengine jobId job' hjob'

end VisibilityEngine

end ScheduledJobs.Mixed
