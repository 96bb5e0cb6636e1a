/-
**`reduce_visibility` on timestamps of both kinds.**

The reducer of `job_visibility.engine` once more, now with timestamps that may lack an offset, so
that every merge of two timestamps may raise.  A handler raises in the middle of its work, and what
it has done to its copy of the projection is lost with the exception.

Which merges an event makes depends on its type and on the state of its job, but all times of the
events of a job are merged into its last event time as well, and all times of its retrievals into
one retrieval time.  So the kinds of a few timestamps decide: as long as nothing raises, what is
observed of a job is of one kind, and so are its retrievals.

Main definitions:

* `Event`, `Attempt`, `Finding`, `JobVisibility` — the records that hold timestamps;
* `onJobCreated` to `onJobCancelled` — **the thirteen handlers**;
* `project`, `reduceVisibility` — the reduction of one event;
* `JobVisibility.instants`, `Event.instants` — the records with instants for timestamps;
* `JobVisibility.Timed` — **the kinds of the timestamps of a projection**;
* `Event.AgreesWith` — the event is of the kinds of the projection.

Main results:

* `handler_follows`, `reduceVisibility_instants` — **a reduction that returns is that of the
  instants**;
* `handler_timed`, `reduceVisibility_coherent` — an event of the kinds of a projection does not
  raise, and keeps them;
* `returns_reduceVisibility_iff` — **any other event raises**.
-/

import ScheduledJobs.MixedTimestamps

set_option relaxedAutoImplicit false
set_option autoImplicit false

namespace ScheduledJobs.Mixed

/-! ### Records -/

/-- The event `EventInput.to_event` builds: `__post_init__` rejects a negative attempt number and a
budget of attempts below one, and nothing is asked of the timestamps. -/
structure Event where
  eventId : String
  eventType : EventType
  eventTime : Timestamp
  ingestionTime : Timestamp
  jobId : String
  correlationId : String := ""
  jobType : String := "GENERIC"
  schedulerReference : Option String := none
  scheduledAt : Option Timestamp := none
  attemptNumber : ℕ := 0
  retryable : Option Bool := none
  maxAttempts : ℕ := 3
  nextRetryAt : Option Timestamp := none
  resultCode : Option String := none
  errorCode : Option String := none
  pollTime : Option Timestamp := none
  /-- `max_attempts must be positive`. -/
  maxAttempts_pos : 0 < maxAttempts := by first | exact defaultMaxAttempts_pos | decide

namespace Event

/-- `event.attempt_number or 1`: the attempt an event is about. -/
def number (event : Event) : ℕ := if event.attemptNumber = 0 then 1 else event.attemptNumber

/-- `event.poll_time or event.event_time`. -/
def retrievedAt (event : Event) : Timestamp := event.pollTime.getD event.eventTime

end Event

structure Attempt where
  attemptNumber : ℕ
  status : AttemptStatus := .unknown
  retrievedAt : Option Timestamp := none
  startedAt : Option Timestamp := none
  completedAt : Option Timestamp := none
  retryable : Option Bool := none
  errorCode : Option String := none
  resultCode : Option String := none
  deriving DecidableEq

structure Finding where
  code : FindingCode
  firstObservedAt : Timestamp
  message : String
  active : Bool := true
  resolvedAt : Option Timestamp := none
  deriving DecidableEq

/-- The projection of a job. -/
structure JobVisibility where
  jobId : String
  correlationId : String := ""
  jobType : String := "GENERIC"
  recordedStatus : Status := .unknown
  createdAt : Option Timestamp := none
  submissionRequestedAt : Option Timestamp := none
  schedulerAcknowledgedAt : Option Timestamp := none
  scheduledAt : Option Timestamp := none
  schedulerRetrievedAt : Option Timestamp := none
  startedAt : Option Timestamp := none
  completedAt : Option Timestamp := none
  schedulerReference : Option String := none
  maxAttempts : ℕ := 3
  nextRetryAt : Option Timestamp := none
  lastFailureAt : Option Timestamp := none
  lastErrorCode : Option String := none
  retryRequested : Bool := false
  retryAcknowledged : Bool := false
  retryEligible : Bool := false
  retryRequestedAt : Option Timestamp := none
  cancellationViolation : Bool := false
  retriesExhaustedViolation : Bool := false
  incompleteLifecycle : Bool := false
  lastEventTime : Option Timestamp := none
  dataAsOf : Option Timestamp := none
  version : ℕ := 0
  attempts : Dict ℕ Attempt := .empty
  findings : Dict FindingCode Finding := .empty
  decisions : List ProjectionDecision := []
  deriving DecidableEq

/-! ### Findings and attempts -/

/-- The findings of a job, by code. -/
abbrev Findings := Dict FindingCode Finding

/-- The finding `_finding` returns: an existing finding becomes active again, a new one is made. -/
def Findings.observation (findings : Findings) (code : FindingCode) (observedAt : Timestamp)
    (message : String) : Finding :=
  match findings.get? code with
  | some existing => { existing with active := true, resolvedAt := none }
  | none => { code := code, firstObservedAt := observedAt, message := message }

/-- `_finding`. -/
def Findings.observe (findings : Findings) (code : FindingCode) (observedAt : Timestamp)
    (message : String) : Findings :=
  findings.set code (findings.observation code observedAt message)

/-- `_resolve`. -/
def Findings.resolve (findings : Findings) (code : FindingCode) (resolvedAt : Timestamp) :
    Findings :=
  match findings.get? code with
  | some finding =>
      if finding.active then
        findings.set code { finding with active := false, resolvedAt := some resolvedAt }
      else findings
  | none => findings

namespace JobVisibility

/-- `_terminal_conflict`. -/
def terminalConflict (job : JobVisibility) (event : Event) : JobVisibility :=
  { job with
    incompleteLifecycle := true
    findings := Findings.observe job.findings .conflictingTerminalOutcome event.ingestionTime
      "Conflicting terminal execution outcomes were observed." }

/-- Some attempt before the given one is missing. -/
def hasGapBefore (job : JobVisibility) (number : ℕ) : Bool :=
  number > 1 && (List.range' 1 (number - 1)).any fun missing =>
    (job.attempts.get? missing).isNone

/-- The attempt of a number, as `setdefault` would create it. -/
def attemptAt (job : JobVisibility) (number : ℕ) : Attempt :=
  (job.attempts.get? number).getD { attemptNumber := number }

/-- `_attempt`. -/
def openAttempt (job : JobVisibility) (event : Event) : JobVisibility :=
  { job with
    incompleteLifecycle := job.incompleteLifecycle || job.hasGapBefore event.number
    findings :=
      if job.hasGapBefore event.number then
        Findings.observe job.findings .attemptSequenceGap event.ingestionTime
          "Observed attempt number has no complete preceding sequence."
      else job.findings
    attempts := job.attempts.set event.number (job.attemptAt event.number) }

end JobVisibility

/-! ### The handlers -/

/-- What a handler returns: the projection, whether the event changed it, and why. -/
abbrev Handled := JobVisibility × Bool × Option String

def onJobCreated (job : JobVisibility) (event : Event) : Except EngineError Handled := do
  let createdAt ← earliest job.createdAt event.eventTime
  return ({ job with
      createdAt := createdAt
      recordedStatus := if job.recordedStatus = .unknown then .created else job.recordedStatus },
    true, none)

def onJobSchedulerSubmissionRequested (job : JobVisibility) (event : Event) :
    Except EngineError Handled := do
  let submissionRequestedAt ← earliest job.submissionRequestedAt event.eventTime
  return ({ job with
      submissionRequestedAt := submissionRequestedAt
      recordedStatus :=
        if ¬ job.recordedStatus.isTerminal ∧
            job.recordedStatus ∉ [.running, .retryPending, .retryScheduled] then
          .pendingSubmission
        else job.recordedStatus },
    true, none)

def onJobSchedulerSubmissionAcknowledged (job : JobVisibility) (event : Event) :
    Except EngineError Handled := do
  let schedulerAcknowledgedAt ← earliest job.schedulerAcknowledgedAt event.eventTime
  return ({ job with
      schedulerAcknowledgedAt := schedulerAcknowledgedAt
      recordedStatus :=
        if ¬ job.recordedStatus.isTerminal ∧
            job.recordedStatus ∉
              [.running, .retryPending, .retryScheduled, .awaitingExecution] then
          .scheduled
        else job.recordedStatus
      findings := Findings.resolve job.findings .schedulerAckTimeout event.ingestionTime },
    true, none)

def onJobSchedulerSubmissionFailed (job : JobVisibility) (event : Event) :
    Except EngineError Handled :=
  if job.recordedStatus.isTerminal then return (job, false, some "terminal state preserved")
  else do
    let completedAt ← latest job.completedAt event.eventTime
    return ({ job with recordedStatus := .failed, completedAt := completedAt }, true, none)

def onJobSchedulerItemRetrieved (job : JobVisibility) (event : Event) :
    Except EngineError Handled := do
  let job := job.openAttempt event
  let attempt := job.attemptAt event.number
  let retrievedAt ← earliest attempt.retrievedAt event.retrievedAt
  let schedulerRetrievedAt ← earliest job.schedulerRetrievedAt event.retrievedAt
  return ({ job with
      attempts := job.attempts.set event.number
        { attempt with
          retrievedAt := retrievedAt
          status := if attempt.status = .unknown then .retrieved else attempt.status }
      schedulerRetrievedAt := schedulerRetrievedAt
      recordedStatus :=
        if ¬ job.recordedStatus.isTerminal ∧ job.recordedStatus ≠ .running then
          .awaitingExecution
        else job.recordedStatus },
    true, none)

/-- What `_on_job_execution_started` does once the start is recorded. -/
def executionStarted (job : JobVisibility) (attempt : Attempt) (event : Event) : Handled :=
  if attempt.status = .succeeded ∨ job.recordedStatus = .succeeded then
    (job, true, some "startedAt backfilled; successful terminal state preserved")
  else if attempt.status = .failed ∧ job.recordedStatus = .failed then
    (job, true, some "startedAt backfilled; failed terminal state preserved")
  else
    let findings :=
      if job.recordedStatus = .cancelled then
        Findings.observe job.findings .executedAfterCancel event.ingestionTime
          "Execution was observed after cancellation."
      else job.findings
    let findings :=
      if job.recordedStatus = .retriesExhausted then
        Findings.observe findings .executionAfterRetryExhaustion event.ingestionTime
          "Execution was observed after retries were exhausted."
      else findings
    ({ job with
        attempts := job.attempts.set event.number { attempt with status := .running }
        cancellationViolation :=
          job.cancellationViolation || decide (job.recordedStatus = .cancelled)
        retriesExhaustedViolation :=
          job.retriesExhaustedViolation || decide (job.recordedStatus = .retriesExhausted)
        findings := findings
        recordedStatus := .running },
      true, none)

def onJobExecutionStarted (job : JobVisibility) (event : Event) : Except EngineError Handled := do
  let job := job.openAttempt event
  let attempt := job.attemptAt event.number
  let incomplete := job.incompleteLifecycle || attempt.retrievedAt.isNone
  let attemptStartedAt ← earliest attempt.startedAt event.eventTime
  let attempt := { attempt with startedAt := attemptStartedAt }
  let startedAt ← earliest job.startedAt event.eventTime
  return executionStarted
    { job with
      incompleteLifecycle := incomplete
      attempts := job.attempts.set event.number attempt
      startedAt := startedAt }
    attempt event

def onJobExecutionSucceeded (job : JobVisibility) (event : Event) : Except EngineError Handled :=
  let job := job.openAttempt event
  let attempt := job.attemptAt event.number
  if attempt.status = .failed ∨
      (job.recordedStatus.isTerminal ∧ job.recordedStatus ∉ [.succeeded, .cancelled]) then
    return (job.terminalConflict event, true,
      some "conflicting terminal outcome retained; prior terminal state preserved")
  else do
    let attemptCompletedAt ← latest attempt.completedAt event.eventTime
    let completedAt ← latest job.completedAt event.eventTime
    return ({ job with
        incompleteLifecycle := job.incompleteLifecycle || attempt.startedAt.isNone
        cancellationViolation :=
          job.cancellationViolation || decide (job.recordedStatus = .cancelled)
        findings :=
          if job.recordedStatus = .cancelled then
            Findings.observe job.findings .executedAfterCancel event.ingestionTime
              "Successful execution was observed after cancellation."
          else job.findings
        attempts := job.attempts.set event.number
          { attempt with
            status := .succeeded
            completedAt := attemptCompletedAt
            resultCode := some (orText event.resultCode "SUCCESS") }
        completedAt := completedAt
        recordedStatus := .succeeded
        retryEligible := false
        nextRetryAt := none },
      true, none)

def onJobExecutionFailed (job : JobVisibility) (event : Event) : Except EngineError Handled :=
  let job := job.openAttempt event
  let attempt := job.attemptAt event.number
  if attempt.status = .succeeded ∨ job.recordedStatus = .succeeded then
    return (job.terminalConflict event, true,
      some "conflicting late failure retained; success preserved")
  else if job.recordedStatus.isTerminal ∧ job.recordedStatus ∉ [.cancelled] then
    return (job.terminalConflict event, true, some "terminal state preserved")
  else do
    let attemptCompletedAt ← latest attempt.completedAt event.eventTime
    let completedAt ← latest job.completedAt event.eventTime
    let lastFailureAt ← latest job.lastFailureAt event.eventTime
    return ({ job with
        incompleteLifecycle := job.incompleteLifecycle || attempt.startedAt.isNone
        attempts := job.attempts.set event.number
          { attempt with
            status := .failed
            completedAt := attemptCompletedAt
            retryable := event.retryable
            errorCode := event.errorCode }
        completedAt := completedAt
        lastFailureAt := lastFailureAt
        lastErrorCode := event.errorCode
        retryEligible := event.retryable.getD false
        retryRequested := false
        retryAcknowledged := false
        nextRetryAt := none
        recordedStatus := if event.retryable.getD false then .retryPending else .failed },
      true, none)

def onJobRetryRequested (job : JobVisibility) (event : Event) : Except EngineError Handled :=
  if job.recordedStatus.isTerminal then return (job, false, some "terminal state preserved")
  else do
    let retryRequestedAt ← latest job.retryRequestedAt event.eventTime
    return ({ job with
        retryRequested := true
        retryAcknowledged := false
        retryRequestedAt := retryRequestedAt
        nextRetryAt := none
        recordedStatus := .retryPending },
      true, none)

def onJobRetryAcknowledged (job : JobVisibility) (event : Event) : Except EngineError Handled :=
  return ({ job with
      retryRequested := true
      retryAcknowledged := true
      nextRetryAt := event.nextRetryAt.or job.nextRetryAt
      findings := Findings.resolve job.findings .retryAckTimeout event.ingestionTime
      recordedStatus :=
        if ¬ job.recordedStatus.isTerminal ∧ job.recordedStatus ≠ .running then .retryScheduled
        else job.recordedStatus },
    true, none)

def onJobRetryRejected (job : JobVisibility) (_event : Event) : Except EngineError Handled :=
  if job.recordedStatus.isTerminal then return (job, false, some "terminal state preserved")
  else
    return ({ job with
        retryRequested := true
        retryAcknowledged := false
        retryEligible := false
        nextRetryAt := none
        recordedStatus := .failed },
      true, none)

def onJobRetriesExhausted (job : JobVisibility) (event : Event) : Except EngineError Handled :=
  if job.recordedStatus = .succeeded then
    return (job, false, some "successful terminal state preserved")
  else do
    let completedAt ← latest job.completedAt event.eventTime
    return ({ job with
        recordedStatus := .retriesExhausted
        retryEligible := false
        retryAcknowledged := false
        nextRetryAt := none
        completedAt := completedAt },
      true, none)

def onJobCancelled (job : JobVisibility) (event : Event) : Except EngineError Handled :=
  if job.recordedStatus.isTerminal then
    return (job, false, some "existing terminal state preserved")
  else do
    let completedAt ← latest job.completedAt event.eventTime
    return ({ job with recordedStatus := .cancelled, completedAt := completedAt }, true, none)

/-- The handler of an event type, `_on_<event_type>`. -/
def handler : EventType → JobVisibility → Event → Except EngineError Handled
  | .jobCreated => onJobCreated
  | .jobSchedulerSubmissionRequested => onJobSchedulerSubmissionRequested
  | .jobSchedulerSubmissionAcknowledged => onJobSchedulerSubmissionAcknowledged
  | .jobSchedulerSubmissionFailed => onJobSchedulerSubmissionFailed
  | .jobSchedulerItemRetrieved => onJobSchedulerItemRetrieved
  | .jobExecutionStarted => onJobExecutionStarted
  | .jobExecutionSucceeded => onJobExecutionSucceeded
  | .jobExecutionFailed => onJobExecutionFailed
  | .jobRetryRequested => onJobRetryRequested
  | .jobRetryAcknowledged => onJobRetryAcknowledged
  | .jobRetryRejected => onJobRetryRejected
  | .jobRetriesExhausted => onJobRetriesExhausted
  | .jobCancelled => onJobCancelled

/-! ### One event -/

/-- The fields every event is merged into before its handler runs. -/
def mergeCommon (job : JobVisibility) (event : Event) : JobVisibility :=
  { job with
    correlationId := orElseText job.correlationId event.correlationId
    jobType := orElseText event.jobType job.jobType
    maxAttempts := max job.maxAttempts event.maxAttempts
    scheduledAt := job.scheduledAt.or event.scheduledAt
    schedulerReference :=
      match event.schedulerReference with
      | some reference => if reference = "" then job.schedulerReference else some reference
      | none => job.schedulerReference }

/-- `_project`. -/
def project (job : JobVisibility) (event : Event) :
    Except EngineError (JobVisibility × ProjectionDecision) := do
  let handled ← handler event.eventType (mergeCommon job event) event
  return (handled.1, ⟨event.eventId, if handled.2.1 then .applied else .ignored, handled.2.2⟩)

/-- `_is_semantic_duplicate`. -/
def isSemanticDuplicate (job : JobVisibility) (event : Event) : Bool :=
  match job.attempts.get? event.number with
  | none => false
  | some attempt =>
      (event.eventType = .jobExecutionSucceeded && attempt.status = .succeeded) ||
      (event.eventType = .jobExecutionFailed && attempt.status = .failed)

/-- `ReductionResult`. -/
structure ReductionResult where
  job : JobVisibility
  decision : ProjectionDecision

/-- The projection an event is reduced into: the current one, or a blank one for a new job. -/
def currentOrBlank (current : Option JobVisibility) (event : Event) : JobVisibility :=
  current.getD { jobId := event.jobId }

/-- The projection and the decision before the event is logged. -/
def decideEvent (job : JobVisibility) (event : Event) :
    Except EngineError (JobVisibility × ProjectionDecision) :=
  if isSemanticDuplicate job event then
    return (job, ⟨event.eventId, .semanticDuplicate,
      some "same outcome already observed for job attempt"⟩)
  else do
    let projected ← project job event
    if projected.2.decision ≠ .ignored then
      return ({ projected.1 with version := projected.1.version + 1 }, projected.2)
    else return projected

/-- **`reduce_visibility`.** -/
def reduceVisibility (current : Option JobVisibility) (event : Event) :
    Except EngineError ReductionResult :=
  let job := currentOrBlank current event
  if job.jobId ≠ event.jobId then
    .error (.valueError "current projection and event must have the same job_id")
  else do
    let decided ← decideEvent job event
    let lastEventTime ← latest decided.1.lastEventTime event.eventTime
    let dataAsOf ← latest decided.1.dataAsOf event.ingestionTime
    return {
      job :=
        { decided.1 with
          decisions := decided.1.decisions ++ [decided.2]
          lastEventTime := lastEventTime
          dataAsOf := dataAsOf }
      decision := decided.2 }

/-! ### Instants -/

/-- The event with instants for timestamps. -/
def Event.instants (event : Event) : ScheduledJobs.Event where
  eventId := event.eventId
  eventType := event.eventType
  eventTime := event.eventTime.instant
  ingestionTime := event.ingestionTime.instant
  jobId := event.jobId
  correlationId := event.correlationId
  jobType := event.jobType
  schedulerReference := event.schedulerReference
  scheduledAt := event.scheduledAt.map Timestamp.instant
  attemptNumber := event.attemptNumber
  retryable := event.retryable
  maxAttempts := event.maxAttempts
  nextRetryAt := event.nextRetryAt.map Timestamp.instant
  resultCode := event.resultCode
  errorCode := event.errorCode
  pollTime := event.pollTime.map Timestamp.instant
  maxAttempts_pos := event.maxAttempts_pos

def Attempt.instants (attempt : Attempt) : ScheduledJobs.Attempt where
  attemptNumber := attempt.attemptNumber
  status := attempt.status
  retrievedAt := attempt.retrievedAt.map Timestamp.instant
  startedAt := attempt.startedAt.map Timestamp.instant
  completedAt := attempt.completedAt.map Timestamp.instant
  retryable := attempt.retryable
  errorCode := attempt.errorCode
  resultCode := attempt.resultCode

def Finding.instants (finding : Finding) : ScheduledJobs.Finding where
  code := finding.code
  firstObservedAt := finding.firstObservedAt.instant
  message := finding.message
  active := finding.active
  resolvedAt := finding.resolvedAt.map Timestamp.instant

/-- The projection with instants for timestamps. -/
def JobVisibility.instants (job : JobVisibility) : ScheduledJobs.JobVisibility where
  jobId := job.jobId
  correlationId := job.correlationId
  jobType := job.jobType
  recordedStatus := job.recordedStatus
  createdAt := job.createdAt.map Timestamp.instant
  submissionRequestedAt := job.submissionRequestedAt.map Timestamp.instant
  schedulerAcknowledgedAt := job.schedulerAcknowledgedAt.map Timestamp.instant
  scheduledAt := job.scheduledAt.map Timestamp.instant
  schedulerRetrievedAt := job.schedulerRetrievedAt.map Timestamp.instant
  startedAt := job.startedAt.map Timestamp.instant
  completedAt := job.completedAt.map Timestamp.instant
  schedulerReference := job.schedulerReference
  maxAttempts := job.maxAttempts
  nextRetryAt := job.nextRetryAt.map Timestamp.instant
  lastFailureAt := job.lastFailureAt.map Timestamp.instant
  lastErrorCode := job.lastErrorCode
  retryRequested := job.retryRequested
  retryAcknowledged := job.retryAcknowledged
  retryEligible := job.retryEligible
  retryRequestedAt := job.retryRequestedAt.map Timestamp.instant
  cancellationViolation := job.cancellationViolation
  retriesExhaustedViolation := job.retriesExhaustedViolation
  incompleteLifecycle := job.incompleteLifecycle
  lastEventTime := job.lastEventTime.map Timestamp.instant
  dataAsOf := job.dataAsOf.map Timestamp.instant
  version := job.version
  attempts := job.attempts.mapValues Attempt.instants
  findings := job.findings.mapValues Finding.instants
  decisions := job.decisions

def Handled.instants (handled : Handled) : ScheduledJobs.Handled :=
  (handled.1.instants, handled.2)

theorem Attempt.status_instants (attempt : Attempt) : attempt.instants.status = attempt.status :=
  rfl

theorem JobVisibility.recordedStatus_instants (job : JobVisibility) :
    job.instants.recordedStatus = job.recordedStatus := rfl

theorem number_instants (event : Event) : event.instants.number = event.number := rfl

theorem retrievedAt_instants (event : Event) :
    event.instants.pollTime.getD event.instants.eventTime = event.retrievedAt.instant := by
  simp only [Event.instants, Event.retrievedAt]
  cases event.pollTime <;> rfl

theorem observe_instants (findings : Findings) (code : FindingCode) (observedAt : Timestamp)
    (message : String) :
    (findings.observe code observedAt message).mapValues Finding.instants =
      ScheduledJobs.Findings.observe (findings.mapValues Finding.instants) code
        observedAt.instant message := by
  simp only [Findings.observe, Findings.observation, ScheduledJobs.Findings.observe,
    Dict.mapValues_set, Dict.get?_mapValues]
  cases findings.get? code <;> rfl

theorem resolve_instants (findings : Findings) (code : FindingCode) (resolvedAt : Timestamp) :
    (findings.resolve code resolvedAt).mapValues Finding.instants =
      ScheduledJobs.Findings.resolve (findings.mapValues Finding.instants) code
        resolvedAt.instant := by
  simp only [Findings.resolve, ScheduledJobs.Findings.resolve, Dict.get?_mapValues]
  cases findings.get? code with
  | none => rfl
  | some finding =>
      simp only [Option.map_some, Finding.instants]
      split
      · exact Dict.mapValues_set _ _ _ _
      · rfl

namespace JobVisibility

variable (job : JobVisibility) (event : Event)

theorem terminalConflict_instants :
    (job.terminalConflict event).instants = job.instants.terminalConflict event.instants := by
  simp only [terminalConflict, instants, observe_instants]
  rfl

theorem hasGapBefore_instants (number : ℕ) :
    job.instants.hasGapBefore number = job.hasGapBefore number := by
  simp only [hasGapBefore, ScheduledJobs.JobVisibility.hasGapBefore, instants,
    Dict.get?_mapValues, Option.isNone_map]

theorem attemptAt_instants (number : ℕ) :
    job.instants.attemptAt number = (job.attemptAt number).instants := by
  simp only [attemptAt, ScheduledJobs.JobVisibility.attemptAt, instants, Dict.get?_mapValues]
  cases job.attempts.get? number <;> rfl

theorem openAttempt_instants :
    (job.openAttempt event).instants = job.instants.openAttempt event.instants := by
  simp only [ScheduledJobs.JobVisibility.openAttempt, number_instants, hasGapBefore_instants,
    attemptAt_instants]
  simp only [openAttempt, instants, Dict.mapValues_set, apply_ite (Dict.mapValues Finding.instants),
    observe_instants]
  rfl

end JobVisibility

/-- **A handler that returns does to the instants what it does to the timestamps**, and it leaves
the last timestamps alone. -/
structure Handled.Follows (handled : Handled) (t : EventType) (job : JobVisibility)
    (event : Event) : Prop where
  instants : handled.instants = ScheduledJobs.handler t job.instants event.instants
  lastEventTime : handled.1.lastEventTime = job.lastEventTime
  dataAsOf : handled.1.dataAsOf = job.dataAsOf

section Follows

variable (job : JobVisibility) (event : Event)

theorem onJobSchedulerItemRetrieved_follows :
    (onJobSchedulerItemRetrieved job event).Meets
      (Handled.Follows · .jobSchedulerItemRetrieved job event) fun _ => True := by
  refine Except.Meets.any.bind fun retrievedAt hretrieved _ => ?_
  refine Except.Meets.any.bind fun schedulerRetrievedAt hscheduler _ => ⟨?_, rfl, rfl⟩
  have hretrieved' := earliest_instants hretrieved
  have hscheduler' := earliest_instants hscheduler
  simp only [ScheduledJobs.handler, ScheduledJobs.onJobSchedulerItemRetrieved,
    ← job.openAttempt_instants, retrievedAt_instants, number_instants,
    JobVisibility.attemptAt_instants]
  simp only [Handled.instants, JobVisibility.instants, Attempt.instants, Dict.mapValues_set,
    hretrieved', hscheduler']
  rfl

/-- What is done once the start is recorded. -/
theorem executionStarted_instants (attempt : Attempt) :
    (executionStarted job attempt event).instants =
      if attempt.status = .succeeded ∨ job.recordedStatus = .succeeded then
        (job.instants, true, some "startedAt backfilled; successful terminal state preserved")
      else if attempt.status = .failed ∧ job.recordedStatus = .failed then
        (job.instants, true, some "startedAt backfilled; failed terminal state preserved")
      else
        let findings :=
          if job.recordedStatus = .cancelled then
            ScheduledJobs.Findings.observe job.instants.findings .executedAfterCancel
              event.ingestionTime.instant "Execution was observed after cancellation."
          else job.instants.findings
        let findings :=
          if job.recordedStatus = .retriesExhausted then
            ScheduledJobs.Findings.observe findings .executionAfterRetryExhaustion
              event.ingestionTime.instant "Execution was observed after retries were exhausted."
          else findings
        ({ job.instants with
            attempts := job.instants.attempts.set event.number
              { attempt.instants with status := .running }
            cancellationViolation :=
              job.cancellationViolation || decide (job.recordedStatus = .cancelled)
            retriesExhaustedViolation :=
              job.retriesExhaustedViolation || decide (job.recordedStatus = .retriesExhausted)
            findings := findings
            recordedStatus := .running },
          true, none) := by
  simp only [executionStarted, apply_ite Handled.instants]
  simp only [Handled.instants, JobVisibility.instants, Dict.mapValues_set,
    apply_ite (Dict.mapValues Finding.instants), observe_instants]
  rfl

theorem onJobExecutionStarted_follows :
    (onJobExecutionStarted job event).Meets
      (Handled.Follows · .jobExecutionStarted job event) fun _ => True := by
  refine Except.Meets.any.bind fun attemptStartedAt hattempt _ => ?_
  refine Except.Meets.any.bind fun startedAt hstarted _ => ⟨?_, ?_, ?_⟩
  · have hattempt' := earliest_instants hattempt
    have hstarted' := earliest_instants hstarted
    rw [executionStarted_instants]
    simp only [ScheduledJobs.handler, ScheduledJobs.onJobExecutionStarted,
      ← job.openAttempt_instants, number_instants, JobVisibility.attemptAt_instants]
    simp only [JobVisibility.instants, Attempt.instants, Dict.mapValues_set, hattempt', hstarted',
      Option.isNone_map]
    rfl
  · simp only [executionStarted]
    split
    · rfl
    · split <;> rfl
  · simp only [executionStarted]
    split
    · rfl
    · split <;> rfl

theorem onJobExecutionSucceeded_follows :
    (onJobExecutionSucceeded job event).Meets
      (Handled.Follows · .jobExecutionSucceeded job event) fun _ => True := by
  simp only [onJobExecutionSucceeded]
  split
  · next hconflict =>
      refine ⟨?_, rfl, rfl⟩
      simp only [ScheduledJobs.handler, ScheduledJobs.onJobExecutionSucceeded,
        ← job.openAttempt_instants, number_instants, JobVisibility.attemptAt_instants,
        Attempt.status_instants, JobVisibility.recordedStatus_instants]
      rw [if_pos hconflict, ← JobVisibility.terminalConflict_instants]
      rfl
  · next hconflict =>
      refine Except.Meets.any.bind fun attemptCompletedAt hattempt _ => ?_
      refine Except.Meets.any.bind fun completedAt hcompleted _ => ⟨?_, rfl, rfl⟩
      have hattempt' := latest_instants hattempt
      have hcompleted' := latest_instants hcompleted
      simp only [ScheduledJobs.handler, ScheduledJobs.onJobExecutionSucceeded,
        ← job.openAttempt_instants, number_instants, JobVisibility.attemptAt_instants,
        Attempt.status_instants, JobVisibility.recordedStatus_instants]
      rw [if_neg hconflict]
      simp only [Handled.instants, JobVisibility.instants, Attempt.instants, Dict.mapValues_set,
        apply_ite (Dict.mapValues Finding.instants), observe_instants, hattempt', hcompleted',
        Option.isNone_map]
      rfl

theorem onJobExecutionFailed_follows :
    (onJobExecutionFailed job event).Meets
      (Handled.Follows · .jobExecutionFailed job event) fun _ => True := by
  simp only [onJobExecutionFailed]
  split
  · next hsucceeded =>
      refine ⟨?_, rfl, rfl⟩
      simp only [ScheduledJobs.handler, ScheduledJobs.onJobExecutionFailed,
        ← job.openAttempt_instants, number_instants, JobVisibility.attemptAt_instants,
        Attempt.status_instants, JobVisibility.recordedStatus_instants]
      rw [if_pos hsucceeded, ← JobVisibility.terminalConflict_instants]
      rfl
  · next hsucceeded =>
      split
      · next hterminal =>
          refine ⟨?_, rfl, rfl⟩
          simp only [ScheduledJobs.handler, ScheduledJobs.onJobExecutionFailed,
            ← job.openAttempt_instants, number_instants, JobVisibility.attemptAt_instants,
            Attempt.status_instants, JobVisibility.recordedStatus_instants]
          rw [if_neg hsucceeded, if_pos hterminal, ← JobVisibility.terminalConflict_instants]
          rfl
      · next hterminal =>
          refine Except.Meets.any.bind fun attemptCompletedAt hattempt _ => ?_
          refine Except.Meets.any.bind fun completedAt hcompleted _ => ?_
          refine Except.Meets.any.bind fun lastFailureAt hfailure _ => ⟨?_, rfl, rfl⟩
          have hattempt' := latest_instants hattempt
          have hcompleted' := latest_instants hcompleted
          have hfailure' := latest_instants hfailure
          simp only [ScheduledJobs.handler, ScheduledJobs.onJobExecutionFailed,
            ← job.openAttempt_instants, number_instants, JobVisibility.attemptAt_instants,
            Attempt.status_instants, JobVisibility.recordedStatus_instants]
          rw [if_neg hsucceeded, if_neg hterminal]
          simp only [Handled.instants, JobVisibility.instants, Attempt.instants,
            Dict.mapValues_set, hattempt', hcompleted', hfailure', Option.isNone_map]
          rfl

/-- **What a handler returns, and what it leaves alone.** -/
theorem handler_follows (t : EventType) :
    (handler t job event).Meets (Handled.Follows · t job event) fun _ => True := by
  cases t with
  | jobCreated =>
      refine Except.Meets.any.bind fun createdAt hcreated _ => ⟨?_, rfl, rfl⟩
      have hinstants := earliest_instants hcreated
      simp only [Handled.instants, JobVisibility.instants, hinstants]
      rfl
  | jobSchedulerSubmissionRequested =>
      refine Except.Meets.any.bind fun requestedAt hrequested _ => ⟨?_, rfl, rfl⟩
      have hinstants := earliest_instants hrequested
      simp only [Handled.instants, JobVisibility.instants, hinstants]
      rfl
  | jobSchedulerSubmissionAcknowledged =>
      refine Except.Meets.any.bind fun acknowledgedAt hacknowledged _ => ⟨?_, rfl, rfl⟩
      have hinstants := earliest_instants hacknowledged
      simp only [Handled.instants, JobVisibility.instants, hinstants, resolve_instants]
      rfl
  | jobSchedulerItemRetrieved => exact onJobSchedulerItemRetrieved_follows job event
  | jobExecutionStarted => exact onJobExecutionStarted_follows job event
  | jobExecutionSucceeded => exact onJobExecutionSucceeded_follows job event
  | jobExecutionFailed => exact onJobExecutionFailed_follows job event
  | jobRetryAcknowledged =>
      refine ⟨?_, rfl, rfl⟩
      simp only [ScheduledJobs.handler, ScheduledJobs.onJobRetryAcknowledged, Handled.instants,
        JobVisibility.instants, resolve_instants, Option.map_or]
      rfl
  | jobSchedulerSubmissionFailed =>
      simp only [handler, onJobSchedulerSubmissionFailed]
      split
      · next hterminal => exact ⟨(if_pos hterminal).symm, rfl, rfl⟩
      · next hterminal =>
          refine Except.Meets.any.bind fun completedAt hcompleted _ => ⟨?_, rfl, rfl⟩
          have hinstants := latest_instants hcompleted
          simp only [Handled.instants, JobVisibility.instants, hinstants]
          exact (if_neg hterminal).symm
  | jobRetryRequested =>
      simp only [handler, onJobRetryRequested]
      split
      · next hterminal => exact ⟨(if_pos hterminal).symm, rfl, rfl⟩
      · next hterminal =>
          refine Except.Meets.any.bind fun requestedAt hrequested _ => ⟨?_, rfl, rfl⟩
          have hinstants := latest_instants hrequested
          simp only [Handled.instants, JobVisibility.instants, hinstants]
          exact (if_neg hterminal).symm
  | jobRetryRejected =>
      simp only [handler, onJobRetryRejected]
      split
      · next hterminal => exact ⟨(if_pos hterminal).symm, rfl, rfl⟩
      · next hterminal => exact ⟨(if_neg hterminal).symm, rfl, rfl⟩
  | jobRetriesExhausted =>
      simp only [handler, onJobRetriesExhausted]
      split
      · next hsucceeded => exact ⟨(if_pos hsucceeded).symm, rfl, rfl⟩
      · next hsucceeded =>
          refine Except.Meets.any.bind fun completedAt hcompleted _ => ⟨?_, rfl, rfl⟩
          have hinstants := latest_instants hcompleted
          simp only [Handled.instants, JobVisibility.instants, hinstants]
          exact (if_neg hsucceeded).symm
  | jobCancelled =>
      simp only [handler, onJobCancelled]
      split
      · next hterminal => exact ⟨(if_pos hterminal).symm, rfl, rfl⟩
      · next hterminal =>
          refine Except.Meets.any.bind fun completedAt hcompleted _ => ⟨?_, rfl, rfl⟩
          have hinstants := latest_instants hcompleted
          simp only [Handled.instants, JobVisibility.instants, hinstants]
          exact (if_neg hterminal).symm

end Follows
/-- The same of the two branches of `_project` and of an event that repeats an outcome. -/
theorem decideEvent_follows (job : JobVisibility) (event : Event) :
    (decideEvent job event).Meets (fun decided =>
      ScheduledJobs.decideEvent job.instants event.instants = (decided.1.instants, decided.2) ∧
        decided.1.lastEventTime = job.lastEventTime ∧ decided.1.dataAsOf = job.dataAsOf)
      fun _ => True := by
  have hduplicate : ScheduledJobs.isSemanticDuplicate job.instants event.instants =
      isSemanticDuplicate job event := by
    simp only [isSemanticDuplicate, ScheduledJobs.isSemanticDuplicate, JobVisibility.instants,
      number_instants, Dict.get?_mapValues]
    cases job.attempts.get? event.number <;> rfl
  have hmerge : (mergeCommon job event).instants =
      ScheduledJobs.mergeCommon job.instants event.instants := by
    simp only [mergeCommon, JobVisibility.instants, Option.map_or]
    rfl
  simp only [decideEvent, ScheduledJobs.decideEvent, hduplicate]
  split
  · exact ⟨rfl, rfl, rfl⟩
  · have hhandler := handler_follows (mergeCommon job event) event event.eventType
    refine Except.Meets.bind (P := fun projected =>
      ScheduledJobs.project job.instants event.instants = (projected.1.instants, projected.2) ∧
        projected.1.lastEventTime = job.lastEventTime ∧ projected.1.dataAsOf = job.dataAsOf)
      (hhandler.bind fun handled _ hfollows => ?_) fun projected _ hprojected => ?_
    · refine ⟨?_, hfollows.lastEventTime, hfollows.dataAsOf⟩
      have hinstants := hfollows.instants
      rw [hmerge] at hinstants
      exact congrArg (fun h : ScheduledJobs.Handled =>
        (h.1, (⟨event.eventId, if h.2.1 then .applied else .ignored, h.2.2⟩ :
          ProjectionDecision))) hinstants.symm
    · obtain ⟨hproject, hlast, hdata⟩ := hprojected
      rw [hproject]
      split
      · exact ⟨rfl, hlast, hdata⟩
      · exact ⟨rfl, hlast, hdata⟩

/-- What a reduction that returns has merged last. -/
theorem exists_merges_of_reduceVisibility {current : Option JobVisibility} {event : Event}
    {result : ReductionResult} (h : reduceVisibility current event = .ok result) :
    ∃ decided, decideEvent (currentOrBlank current event) event = .ok decided ∧
      latest (currentOrBlank current event).lastEventTime event.eventTime =
        .ok result.job.lastEventTime ∧
      latest (currentOrBlank current event).dataAsOf event.ingestionTime =
        .ok result.job.dataAsOf ∧
      (currentOrBlank current event).jobId = event.jobId ∧
      result = ⟨{ decided.1 with
        decisions := decided.1.decisions ++ [decided.2]
        lastEventTime := result.job.lastEventTime
        dataAsOf := result.job.dataAsOf }, decided.2⟩ := by
  rw [reduceVisibility] at h
  split at h
  · cases h
  · next hid =>
      obtain ⟨decided, hdecided, hrest⟩ := Except.bind_eq_ok_iff.1 h
      obtain ⟨last, hlast, hrest⟩ := Except.bind_eq_ok_iff.1 hrest
      obtain ⟨data, hdata, hresult⟩ := Except.bind_eq_ok_iff.1 hrest
      cases hresult
      obtain ⟨-, hkept, hkept'⟩ := (decideEvent_follows _ event).of_ok hdecided
      rw [hkept] at hlast
      rw [hkept'] at hdata
      exact ⟨decided, hdecided, hlast, hdata, not_not.1 hid, rfl⟩

/-- **A reduction that returns is the reduction of the instants.** -/
theorem reduceVisibility_instants {current : Option JobVisibility} {event : Event}
    {result : ReductionResult} (h : reduceVisibility current event = .ok result) :
    ScheduledJobs.reduceVisibility (current.map JobVisibility.instants) event.instants =
      .ok ⟨result.job.instants, result.decision⟩ := by
  have hblank : ScheduledJobs.currentOrBlank (current.map JobVisibility.instants) event.instants =
      (currentOrBlank current event).instants := by
    cases current <;> rfl
  obtain ⟨decided, hdecided, hlast, hdata, hid, hresult⟩ := exists_merges_of_reduceVisibility h
  obtain ⟨hdecide, hkept, hkept'⟩ := (decideEvent_follows _ event).of_ok hdecided
  rw [← hkept] at hlast
  rw [← hkept'] at hdata
  have hlast' := latest_instants hlast
  have hdata' := latest_instants hdata
  have hid' : (ScheduledJobs.currentOrBlank (current.map JobVisibility.instants)
      event.instants).jobId = event.instants.jobId := by
    rw [hblank]
    exact hid
  rw [ScheduledJobs.reduceVisibility_eq_ok hid']
  refine congrArg Except.ok ?_
  simp only [ScheduledJobs.reduceEvent, hblank, hdecide]
  rw [hresult]
  simp only [JobVisibility.instants, hlast', hdata']
  rfl

/-! ### Kinds -/

/-- The kinds of the timestamps of an attempt: of what was observed, and of its retrieval. -/
structure Attempt.Timed (observed retrieved : Bool) (attempt : Attempt) : Prop where
  startedAt : ∀ t ∈ attempt.startedAt, t.isAware = observed
  completedAt : ∀ t ∈ attempt.completedAt, t.isAware = observed
  retrievedAt : ∀ t ∈ attempt.retrievedAt, t.isAware = retrieved

/-- **The kinds of the timestamps of a projection**: all that are merged from event times are of one
kind, and all that are merged from retrieval times of one kind. -/
structure JobVisibility.Timed (observed retrieved : Bool) (job : JobVisibility) : Prop where
  createdAt : ∀ t ∈ job.createdAt, t.isAware = observed
  submissionRequestedAt : ∀ t ∈ job.submissionRequestedAt, t.isAware = observed
  schedulerAcknowledgedAt : ∀ t ∈ job.schedulerAcknowledgedAt, t.isAware = observed
  startedAt : ∀ t ∈ job.startedAt, t.isAware = observed
  completedAt : ∀ t ∈ job.completedAt, t.isAware = observed
  lastFailureAt : ∀ t ∈ job.lastFailureAt, t.isAware = observed
  retryRequestedAt : ∀ t ∈ job.retryRequestedAt, t.isAware = observed
  lastEventTime : ∀ t ∈ job.lastEventTime, t.isAware = observed
  schedulerRetrievedAt : ∀ t ∈ job.schedulerRetrievedAt, t.isAware = retrieved
  attempts : ∀ number, ∀ attempt ∈ job.attempts.get? number, attempt.Timed observed retrieved
  /-- A retrieval of an attempt is one of the job. -/
  retrievals : ∀ number, ∀ attempt ∈ job.attempts.get? number,
    attempt.retrievedAt.isSome → job.schedulerRetrievedAt.isSome

/-- A blank projection has timestamps of any kinds. -/
theorem timed_blank (observed retrieved : Bool) (jobId : String) :
    JobVisibility.Timed observed retrieved { jobId := jobId } := by
  constructor <;> intros <;> simp_all

section Timed

variable {observed retrieved : Bool} {job : JobVisibility} {event : Event}

namespace JobVisibility.Timed

/-- A job that was not retrieved has retrieval times of any kind. -/
theorem of_not_retrieved (h : job.Timed observed retrieved)
    (hnone : job.schedulerRetrievedAt = none) (retrieved' : Bool) :
    job.Timed observed retrieved' where
  createdAt := h.createdAt
  submissionRequestedAt := h.submissionRequestedAt
  schedulerAcknowledgedAt := h.schedulerAcknowledgedAt
  startedAt := h.startedAt
  completedAt := h.completedAt
  lastFailureAt := h.lastFailureAt
  retryRequestedAt := h.retryRequestedAt
  lastEventTime := h.lastEventTime
  schedulerRetrievedAt := by simp [hnone]
  attempts := fun number attempt hattempt =>
    { startedAt := (h.attempts number attempt hattempt).startedAt
      completedAt := (h.attempts number attempt hattempt).completedAt
      retrievedAt := fun t ht => by
        have hsome := h.retrievals number attempt hattempt (Option.isSome_of_mem ht)
        rw [hnone] at hsome
        cases hsome }
  retrievals := h.retrievals

/-- The attempt of a number. -/
theorem attemptAt (h : job.Timed observed retrieved) (number : ℕ) :
    (job.attemptAt number).Timed observed retrieved ∧
      ((job.attemptAt number).retrievedAt.isSome → job.schedulerRetrievedAt.isSome) := by
  unfold JobVisibility.attemptAt
  cases hattempt : job.attempts.get? number with
  | none => exact ⟨⟨by simp, by simp, by simp⟩, by simp⟩
  | some attempt => exact ⟨h.attempts _ _ hattempt, h.retrievals _ _ hattempt⟩

/-- An attempt is written. -/
theorem attempts_set (h : job.Timed observed retrieved) (number : ℕ) {attempt : Attempt}
    (hattempt : attempt.Timed observed retrieved) :
    ∀ number', ∀ attempt' ∈ (job.attempts.set number attempt).get? number',
      attempt'.Timed observed retrieved := Dict.forall_get?_set h.attempts hattempt number

theorem retrievals_set (h : job.Timed observed retrieved) (number : ℕ) {attempt : Attempt}
    (hretrieval : attempt.retrievedAt.isSome → job.schedulerRetrievedAt.isSome) :
    ∀ number', ∀ attempt' ∈ (job.attempts.set number attempt).get? number',
      attempt'.retrievedAt.isSome → job.schedulerRetrievedAt.isSome :=
  Dict.forall_get?_set (P := fun attempt : Attempt =>
    attempt.retrievedAt.isSome → job.schedulerRetrievedAt.isSome) h.retrievals hretrieval number

theorem openAttempt (h : job.Timed observed retrieved) (event : Event) :
    (job.openAttempt event).Timed observed retrieved :=
  { h with
    attempts := h.attempts_set _ (h.attemptAt event.number).1
    retrievals := h.retrievals_set _ (h.attemptAt event.number).2 }

theorem terminalConflict (h : job.Timed observed retrieved) (event : Event) :
    (job.terminalConflict event).Timed observed retrieved := { h with }

theorem mergeCommon (h : job.Timed observed retrieved) (event : Event) :
    (mergeCommon job event).Timed observed retrieved := { h with }

end JobVisibility.Timed

theorem onJobSchedulerItemRetrieved_timed (h : job.Timed observed retrieved)
    (hretrieved : event.retrievedAt.isAware = retrieved) :
    (onJobSchedulerItemRetrieved job event).Meets (fun h => h.1.Timed observed retrieved)
      fun _ => False := by
  have hopened := h.openAttempt event
  have hattempt := (hopened.attemptAt event.number).1
  refine (earliest_kept hattempt.retrievedAt hretrieved).bind fun retrievedAt _ hkept => ?_
  refine (earliest_kept hopened.schedulerRetrievedAt hretrieved).bind
    fun schedulerAt hs hkept' => ?_
  have hsome : schedulerAt.isSome := earliest_isSome hs
  exact { hopened with
    schedulerRetrievedAt := hkept'
    attempts := hopened.attempts_set _ { hattempt with retrievedAt := hkept }
    retrievals := fun _ _ _ _ => hsome }

theorem executionStarted_timed {attempt : Attempt} (h : job.Timed observed retrieved)
    (hattempt : attempt.Timed observed retrieved)
    (hretrieval : attempt.retrievedAt.isSome → job.schedulerRetrievedAt.isSome) :
    (executionStarted job attempt event).1.Timed observed retrieved := by
  simp only [executionStarted]
  split
  · exact h
  · split
    · exact h
    · exact { h with
        attempts := h.attempts_set _ { hattempt with }
        retrievals := h.retrievals_set _ hretrieval }

theorem onJobExecutionStarted_timed (h : job.Timed observed retrieved)
    (hobserved : event.eventTime.isAware = observed) :
    (onJobExecutionStarted job event).Meets (fun h => h.1.Timed observed retrieved)
      fun _ => False := by
  have hopened := h.openAttempt event
  obtain ⟨hattempt, hretrieval⟩ := hopened.attemptAt event.number
  refine (earliest_kept hattempt.startedAt hobserved).bind fun attemptStartedAt _ hkept => ?_
  refine (earliest_kept hopened.startedAt hobserved).bind fun startedAt _ hkept' => ?_
  refine executionStarted_timed ?_ { hattempt with startedAt := hkept } hretrieval
  exact { hopened with
    startedAt := hkept'
    attempts := hopened.attempts_set _ { hattempt with startedAt := hkept }
    retrievals := hopened.retrievals_set _ hretrieval }

theorem onJobExecutionSucceeded_timed (h : job.Timed observed retrieved)
    (hobserved : event.eventTime.isAware = observed) :
    (onJobExecutionSucceeded job event).Meets (fun h => h.1.Timed observed retrieved)
      fun _ => False := by
  have hopened := h.openAttempt event
  obtain ⟨hattempt, hretrieval⟩ := hopened.attemptAt event.number
  simp only [onJobExecutionSucceeded]
  split
  · exact hopened.terminalConflict event
  · refine (latest_kept hattempt.completedAt hobserved).bind fun attemptCompletedAt _ hkept => ?_
    refine (latest_kept hopened.completedAt hobserved).bind fun completedAt _ hkept' => ?_
    exact { hopened with
      completedAt := hkept'
      attempts := hopened.attempts_set _ { hattempt with completedAt := hkept }
      retrievals := hopened.retrievals_set _ hretrieval }

theorem onJobExecutionFailed_timed (h : job.Timed observed retrieved)
    (hobserved : event.eventTime.isAware = observed) :
    (onJobExecutionFailed job event).Meets (fun h => h.1.Timed observed retrieved)
      fun _ => False := by
  have hopened := h.openAttempt event
  obtain ⟨hattempt, hretrieval⟩ := hopened.attemptAt event.number
  simp only [onJobExecutionFailed]
  split
  · exact hopened.terminalConflict event
  split
  · exact hopened.terminalConflict event
  · refine (latest_kept hattempt.completedAt hobserved).bind fun attemptCompletedAt _ hkept => ?_
    refine (latest_kept hopened.completedAt hobserved).bind fun completedAt _ hkept' => ?_
    refine (latest_kept hopened.lastFailureAt hobserved).bind fun lastFailureAt _ hfailure => ?_
    exact { hopened with
      completedAt := hkept'
      lastFailureAt := hfailure
      attempts := hopened.attempts_set _ { hattempt with completedAt := hkept }
      retrievals := hopened.retrievals_set _ hretrieval }

/-- **No handler raises on an event of the kinds of the projection**, and it keeps them. -/
theorem handler_timed {t : EventType} (h : job.Timed observed retrieved)
    (hobserved : event.eventTime.isAware = observed)
    (hretrieved : t = .jobSchedulerItemRetrieved → event.retrievedAt.isAware = retrieved) :
    (handler t job event).Meets (fun h => h.1.Timed observed retrieved) fun _ => False := by
  cases t with
  | jobCreated =>
      refine (earliest_kept h.createdAt hobserved).bind fun createdAt _ hkept => ?_
      exact { h with createdAt := hkept }
  | jobSchedulerSubmissionRequested =>
      refine (earliest_kept h.submissionRequestedAt hobserved).bind fun requestedAt _ hkept => ?_
      exact { h with submissionRequestedAt := hkept }
  | jobSchedulerSubmissionAcknowledged =>
      refine (earliest_kept h.schedulerAcknowledgedAt hobserved).bind
        fun acknowledgedAt _ hkept => ?_
      exact { h with schedulerAcknowledgedAt := hkept }
  | jobSchedulerSubmissionFailed =>
      simp only [handler, onJobSchedulerSubmissionFailed]
      split
      · exact h
      · refine (latest_kept h.completedAt hobserved).bind fun completedAt _ hkept => ?_
        exact { h with completedAt := hkept }
  | jobSchedulerItemRetrieved => exact onJobSchedulerItemRetrieved_timed h (hretrieved rfl)
  | jobExecutionStarted => exact onJobExecutionStarted_timed h hobserved
  | jobExecutionSucceeded => exact onJobExecutionSucceeded_timed h hobserved
  | jobExecutionFailed => exact onJobExecutionFailed_timed h hobserved
  | jobRetryRequested =>
      simp only [handler, onJobRetryRequested]
      split
      · exact h
      · refine (latest_kept h.retryRequestedAt hobserved).bind fun requestedAt _ hkept => ?_
        exact { h with retryRequestedAt := hkept }
  | jobRetryAcknowledged => exact { h with }
  | jobRetryRejected =>
      simp only [handler, onJobRetryRejected]
      split
      · exact h
      · exact { h with }
  | jobRetriesExhausted =>
      simp only [handler, onJobRetriesExhausted]
      split
      · exact h
      · refine (latest_kept h.completedAt hobserved).bind fun completedAt _ hkept => ?_
        exact { h with completedAt := hkept }
  | jobCancelled =>
      simp only [handler, onJobCancelled]
      split
      · exact h
      · refine (latest_kept h.completedAt hobserved).bind fun completedAt _ hkept => ?_
        exact { h with completedAt := hkept }

end Timed

/-! ### Which events raise -/

/-- **The event is of the kinds of the projection**, as far as something was observed, ingested and
retrieved before. -/
structure Event.AgreesWith (event : Event) (job : JobVisibility) : Prop where
  eventTime : ∀ t ∈ job.lastEventTime, t.isAware = event.eventTime.isAware
  ingestionTime : ∀ t ∈ job.dataAsOf, t.isAware = event.ingestionTime.isAware
  retrievedAt : event.eventType = .jobSchedulerItemRetrieved →
    ∀ t ∈ job.schedulerRetrievedAt, t.isAware = event.retrievedAt.isAware

/-- What is reduced from events without raising: something was observed, and all of it is of the
same kinds. -/
structure JobVisibility.Coherent (job : JobVisibility) : Prop where
  lastEventTime : job.lastEventTime.isSome
  dataAsOf : job.dataAsOf.isSome
  timed : ∃ observed retrieved, job.Timed observed retrieved

section Raising

variable {current : Option JobVisibility} {event : Event} {result : ReductionResult}

/-- The kinds of a projection and of an event that agrees with it. -/
theorem exists_timed_of_agreesWith (hcurrent : ∀ job ∈ current, job.Coherent)
    (h : event.AgreesWith (currentOrBlank current event)) :
    ∃ retrieved, (currentOrBlank current event).Timed event.eventTime.isAware retrieved ∧
      (event.eventType = .jobSchedulerItemRetrieved →
        event.retrievedAt.isAware = retrieved) := by
  cases current with
  | none => exact ⟨event.retrievedAt.isAware, timed_blank _ _ _, fun _ => rfl⟩
  | some job =>
      obtain ⟨hsome, -, observed, retrieved, htimed⟩ := hcurrent job rfl
      obtain ⟨last, hlast⟩ := Option.isSome_iff_exists.1 hsome
      have hobserved : observed = event.eventTime.isAware :=
        (htimed.lastEventTime last hlast).symm.trans (h.eventTime last hlast)
      subst hobserved
      cases hretrieved : job.schedulerRetrievedAt with
      | none => exact ⟨_, htimed.of_not_retrieved hretrieved _, fun _ => rfl⟩
      | some t =>
          refine ⟨retrieved, htimed, fun htype => ?_⟩
          exact (h.retrievedAt htype t hretrieved).symm.trans
            (htimed.schedulerRetrievedAt t hretrieved)

theorem decideEvent_timed {job : JobVisibility} {retrieved : Bool}
    (h : job.Timed event.eventTime.isAware retrieved)
    (hretrieved : event.eventType = .jobSchedulerItemRetrieved →
      event.retrievedAt.isAware = retrieved) :
    (decideEvent job event).Meets
      (fun decided => decided.1.Timed event.eventTime.isAware retrieved) fun _ => False := by
  simp only [decideEvent]
  split
  · exact h
  · have hhandler := handler_timed (h.mergeCommon event) rfl hretrieved
    refine Except.Meets.bind (P := fun projected : JobVisibility × ProjectionDecision =>
      projected.1.Timed event.eventTime.isAware retrieved)
      (hhandler.bind fun handled _ hhandled => hhandled) fun projected _ hprojected => ?_
    split
    · exact { hprojected with }
    · exact hprojected

/-- **An event that agrees with the projection is reduced into it**, and what is left is
coherent. -/
theorem reduceVisibility_coherent (hcurrent : ∀ job ∈ current, job.Coherent)
    (hid : (currentOrBlank current event).jobId = event.jobId)
    (h : event.AgreesWith (currentOrBlank current event)) :
    (reduceVisibility current event).Meets (fun result => result.job.Coherent)
      fun _ => False := by
  obtain ⟨retrieved, htimed, hretrieved⟩ := exists_timed_of_agreesWith hcurrent h
  rw [reduceVisibility, if_neg (not_not.2 hid)]
  refine (decideEvent_timed htimed hretrieved).bind fun decided hdecided hkinds => ?_
  obtain ⟨-, -, hdata⟩ := (decideEvent_follows _ event).of_ok hdecided
  refine (latest_kept hkinds.lastEventTime rfl).bind fun last hlast hlast' => ?_
  refine (latest_kept (hdata ▸ h.ingestionTime) rfl).bind fun data hdata' _ => ?_
  exact
    { lastEventTime := latest_isSome hlast
      dataAsOf := latest_isSome hdata'
      timed := ⟨_, retrieved, { hkinds with lastEventTime := hlast' }⟩ }

/-- **Any other event raises**, in one of the last merges if not in its handler. -/
theorem agreesWith_of_reduceVisibility (h : reduceVisibility current event = .ok result) :
    event.AgreesWith (currentOrBlank current event) := by
  obtain ⟨decided, hdecided, hlast, hdata, -, -⟩ := exists_merges_of_reduceVisibility h
  refine ⟨same_of_latest hlast, same_of_latest hdata, fun htype => ?_⟩
  have hduplicate : isSemanticDuplicate (currentOrBlank current event) event = false := by
    unfold isSemanticDuplicate
    rw [htype]
    split <;> rfl
  simp only [decideEvent, hduplicate, project, htype, handler] at hdecided
  obtain ⟨projected, hprojected, -⟩ := Except.bind_eq_ok_iff.1 hdecided
  obtain ⟨handled, hhandled, -⟩ := Except.bind_eq_ok_iff.1 hprojected
  obtain ⟨retrievedAt, -, hrest⟩ := Except.bind_eq_ok_iff.1 hhandled
  obtain ⟨schedulerAt, hscheduler, -⟩ := Except.bind_eq_ok_iff.1 hrest
  exact same_of_earliest hscheduler

/-- **Exactly the events that agree with the projection are reduced into it.** -/
theorem returns_reduceVisibility_iff (hcurrent : ∀ job ∈ current, job.Coherent)
    (hid : (currentOrBlank current event).jobId = event.jobId) :
    (reduceVisibility current event).Returns ↔
      event.AgreesWith (currentOrBlank current event) := by
  constructor
  · rintro ⟨result, hresult⟩
    exact agreesWith_of_reduceVisibility hresult
  · exact fun h => (reduceVisibility_coherent hcurrent hid h).returns

end Raising

end ScheduledJobs.Mixed
