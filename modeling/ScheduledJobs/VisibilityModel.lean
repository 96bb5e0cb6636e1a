/-
**Events and projections of scheduled jobs.**

The data model of `job_visibility.model`: the canonical lifecycle event (EDR) and the projection
that is reduced from the events of one job.  Enumerations of the source are inductive types here,
with the text of each member beside it; an event carries the fact its constructor checks.

Timestamps are timezone-aware throughout this module.  Two aware timestamps are compared as
instants, so a timestamp is the number of microseconds since `0001-01-01T00:00:00Z`.

Main definitions:

* `EventType`, `Status`, `AttemptStatus`, `FindingCode`, `Decision` — the enumerations;
* `Event` — an EDR, with the constructor's check on `max_attempts`;
* `Attempt`, `Finding`, `ProjectionDecision`, `JobVisibility` — the projection of a job;
* `VisibilityConfig` — the intervals the time-derived view is computed from.
-/

import ScheduledJobs.Dict
import Mathlib.Data.Int.Notation
import Mathlib.Data.Nat.Notation

set_option relaxedAutoImplicit false
set_option autoImplicit false

namespace ScheduledJobs

/-- A timezone-aware timestamp: microseconds since `0001-01-01T00:00:00Z`. -/
abbrev Datetime := ℤ

/-- A difference of timestamps, in microseconds. -/
abbrev Timedelta := ℤ

/-- `timedelta(seconds=n)`. -/
def seconds (n : ℤ) : Timedelta := n * 1000000

/-! ### Enumerations -/

inductive EventType
  | jobCreated
  | jobSchedulerSubmissionRequested
  | jobSchedulerSubmissionAcknowledged
  | jobSchedulerSubmissionFailed
  | jobSchedulerItemRetrieved
  | jobExecutionStarted
  | jobExecutionSucceeded
  | jobExecutionFailed
  | jobRetryRequested
  | jobRetryAcknowledged
  | jobRetryRejected
  | jobRetriesExhausted
  | jobCancelled
  deriving DecidableEq, Repr

/-- The member of the source's enumeration with this text. -/
def EventType.value : EventType → String
  | jobCreated => "JOB_CREATED"
  | jobSchedulerSubmissionRequested => "JOB_SCHEDULER_SUBMISSION_REQUESTED"
  | jobSchedulerSubmissionAcknowledged => "JOB_SCHEDULER_SUBMISSION_ACKNOWLEDGED"
  | jobSchedulerSubmissionFailed => "JOB_SCHEDULER_SUBMISSION_FAILED"
  | jobSchedulerItemRetrieved => "JOB_SCHEDULER_ITEM_RETRIEVED"
  | jobExecutionStarted => "JOB_EXECUTION_STARTED"
  | jobExecutionSucceeded => "JOB_EXECUTION_SUCCEEDED"
  | jobExecutionFailed => "JOB_EXECUTION_FAILED"
  | jobRetryRequested => "JOB_RETRY_REQUESTED"
  | jobRetryAcknowledged => "JOB_RETRY_ACKNOWLEDGED"
  | jobRetryRejected => "JOB_RETRY_REJECTED"
  | jobRetriesExhausted => "JOB_RETRIES_EXHAUSTED"
  | jobCancelled => "JOB_CANCELLED"

inductive Status
  | created
  | pendingSubmission
  | scheduled
  | awaitingExecution
  | running
  | retryPending
  | retryScheduled
  | succeeded
  | failed
  | retriesExhausted
  | overdue
  | cancelled
  | unknown
  deriving DecidableEq, Repr

def Status.value : Status → String
  | created => "CREATED"
  | pendingSubmission => "PENDING_SUBMISSION"
  | scheduled => "SCHEDULED"
  | awaitingExecution => "AWAITING_EXECUTION"
  | running => "RUNNING"
  | retryPending => "RETRY_PENDING"
  | retryScheduled => "RETRY_SCHEDULED"
  | succeeded => "SUCCEEDED"
  | failed => "FAILED"
  | retriesExhausted => "RETRIES_EXHAUSTED"
  | overdue => "OVERDUE"
  | cancelled => "CANCELLED"
  | unknown => "UNKNOWN"

theorem Status.value_injective : Function.Injective Status.value := by
  intro a b h
  cases a <;> cases b <;> first | rfl | exact absurd h (by decide)

/-- `TERMINAL_STATUSES`. -/
def Status.isTerminal : Status → Bool
  | succeeded | failed | retriesExhausted | cancelled => true
  | _ => false

/-- The texts an `Attempt` uses for its status. -/
inductive AttemptStatus
  | unknown
  | retrieved
  | running
  | succeeded
  | failed
  deriving DecidableEq, Repr

def AttemptStatus.value : AttemptStatus → String
  | unknown => "UNKNOWN"
  | retrieved => "RETRIEVED"
  | running => "RUNNING"
  | succeeded => "SUCCEEDED"
  | failed => "FAILED"

/-- The codes of the findings the engine records. -/
inductive FindingCode
  | schedulerAckTimeout
  | runningTimeout
  | retryAckTimeout
  | executionStartOverdue
  | attemptSequenceGap
  | conflictingTerminalOutcome
  | executedAfterCancel
  | executionAfterRetryExhaustion
  deriving DecidableEq, Repr

def FindingCode.value : FindingCode → String
  | schedulerAckTimeout => "SCHEDULER_ACK_TIMEOUT"
  | runningTimeout => "RUNNING_TIMEOUT"
  | retryAckTimeout => "RETRY_ACK_TIMEOUT"
  | executionStartOverdue => "EXECUTION_START_OVERDUE"
  | attemptSequenceGap => "ATTEMPT_SEQUENCE_GAP"
  | conflictingTerminalOutcome => "CONFLICTING_TERMINAL_OUTCOME"
  | executedAfterCancel => "EXECUTED_AFTER_CANCEL"
  | executionAfterRetryExhaustion => "EXECUTION_AFTER_RETRY_EXHAUSTION"

theorem FindingCode.value_injective : Function.Injective FindingCode.value := by
  intro a b h
  cases a <;> cases b <;> first | rfl | exact absurd h (by decide)

/-- What became of an event. -/
inductive Decision
  | applied
  | ignored
  | semanticDuplicate
  | exactDuplicate
  deriving DecidableEq, Repr

def Decision.value : Decision → String
  | applied => "APPLIED"
  | ignored => "IGNORED"
  | semanticDuplicate => "SEMANTIC_DUPLICATE"
  | exactDuplicate => "EXACT_DUPLICATE"

/-! ### Events -/

theorem defaultMaxAttempts_pos : 0 < 3 := Nat.zero_lt_succ _

/-- A canonical lifecycle event.  `__post_init__` rejects a negative attempt number and a budget
of attempts below one. -/
structure Event where
  eventId : String
  eventType : EventType
  eventTime : Datetime
  ingestionTime : Datetime
  jobId : String
  correlationId : String := ""
  jobType : String := "GENERIC"
  schedulerReference : Option String := none
  scheduledAt : Option Datetime := none
  attemptNumber : ℕ := 0
  retryable : Option Bool := none
  maxAttempts : ℕ := 3
  nextRetryAt : Option Datetime := none
  resultCode : Option String := none
  errorCode : Option String := none
  pollTime : Option Datetime := none
  /-- `max_attempts must be positive`. -/
  maxAttempts_pos : 0 < maxAttempts := by first | exact defaultMaxAttempts_pos | decide
  deriving DecidableEq, Repr

/-- `event.attempt_number or 1`: the attempt an event is about. -/
def Event.number (event : Event) : ℕ := if event.attemptNumber = 0 then 1 else event.attemptNumber

/-! ### Projections -/

structure Attempt where
  attemptNumber : ℕ
  status : AttemptStatus := .unknown
  retrievedAt : Option Datetime := none
  startedAt : Option Datetime := none
  completedAt : Option Datetime := none
  retryable : Option Bool := none
  errorCode : Option String := none
  resultCode : Option String := none
  deriving DecidableEq, Repr

structure Finding where
  code : FindingCode
  firstObservedAt : Datetime
  message : String
  active : Bool := true
  resolvedAt : Option Datetime := none
  deriving DecidableEq, Repr

structure ProjectionDecision where
  eventId : String
  decision : Decision
  reason : Option String := none
  deriving DecidableEq, Repr

/-- The projection of a job. -/
@[ext] structure JobVisibility where
  jobId : String
  correlationId : String := ""
  jobType : String := "GENERIC"
  recordedStatus : Status := .unknown
  createdAt : Option Datetime := none
  submissionRequestedAt : Option Datetime := none
  schedulerAcknowledgedAt : Option Datetime := none
  scheduledAt : Option Datetime := none
  schedulerRetrievedAt : Option Datetime := none
  startedAt : Option Datetime := none
  completedAt : Option Datetime := none
  schedulerReference : Option String := none
  maxAttempts : ℕ := 3
  nextRetryAt : Option Datetime := none
  lastFailureAt : Option Datetime := none
  lastErrorCode : Option String := none
  retryRequested : Bool := false
  retryAcknowledged : Bool := false
  retryEligible : Bool := false
  retryRequestedAt : Option Datetime := none
  cancellationViolation : Bool := false
  retriesExhaustedViolation : Bool := false
  incompleteLifecycle : Bool := false
  lastEventTime : Option Datetime := none
  dataAsOf : Option Datetime := none
  version : ℕ := 0
  attempts : Dict ℕ Attempt := .empty
  findings : Dict FindingCode Finding := .empty
  decisions : List ProjectionDecision := []
  deriving DecidableEq

/-- The property `completed_attempts`. -/
def JobVisibility.completedAttempts (job : JobVisibility) : ℕ :=
  job.attempts.values.countP fun attempt =>
    attempt.status = .succeeded || attempt.status = .failed

/-- The property `next_attempt_number`. -/
def JobVisibility.nextAttemptNumber (job : JobVisibility) : Option ℕ :=
  if job.recordedStatus.isTerminal && !job.retryAcknowledged then none
  else if job.nextRetryAt.isSome || job.retryRequested then
    some (job.attempts.keys.foldl max 0 + 1)
  else none

/-- `VisibilityConfig`, in seconds, with the fields the engine reads. -/
structure VisibilityConfig where
  pollIntervalSeconds : ℤ := 60
  gracePeriodSeconds : ℤ := 600
  runningTimeoutSeconds : ℤ := 1800
  retryAcknowledgementTimeoutSeconds : ℤ := 120
  submissionAcknowledgementTimeoutSeconds : ℤ := 120
  eventualConsistencyTargetSeconds : ℤ := 10
  deriving DecidableEq, Repr

end ScheduledJobs
