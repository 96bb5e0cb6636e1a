/-
**`reduce_visibility`: one event into the projection of a job.**

The reducer of `job_visibility.engine`, handler by handler.  A handler of the source mutates the
projection it is given and reports whether the event changed it, with a reason; here it returns the
new projection with the same two answers.

Main definitions:

* `earliest`, `latest` — merging a timestamp into an optional one;
* `Findings.observe`, `Findings.resolve`, `JobVisibility.terminalConflict` — findings;
* `JobVisibility.openAttempt`, `JobVisibility.attemptAt` — the attempt an event is about;
* `onJobCreated` to `onJobCancelled` — **the thirteen handlers**;
* `project`, `isSemanticDuplicate`, `reduceEvent` — the reduction of one event;
* `reduceVisibility` — the same with the check that the projection is of the event's job;
* `reduceVisibilityAll`, `reduceAll` — the reduction of a list of events, with and without the
  check;
* `eventsOf` — the events of one job.

Main results:

* `exists_reduceEvent_eq` — **what one event makes of a projection**;
* `reduceEvent_unlabelled` — the job type of an event decides nothing but that of the projection;
* `reduceEvent_jobId`, `reduceVisibilityAll_eq_ok` — the check never fails along the events of one
  job, so folding `reduce_visibility` over them is `reduceAll`;
* `invariant_of_reduceVisibilityAll`, `forall_prefix_step_iff`, `forall_prefix_iff` — **from one
  event to sequences of events**.
-/

import ScheduledJobs.Fallible
import ScheduledJobs.VisibilityModel
import Mathlib.Data.List.Induction

set_option relaxedAutoImplicit false
set_option autoImplicit false

namespace ScheduledJobs

/-! ### Merging -/

/-- `_earliest`. -/
def earliest : Option Datetime → Option Datetime → Option Datetime
  | none, right => right
  | left, none => left
  | some left, some right => some (min left right)

/-- `_latest`. -/
def latest : Option Datetime → Option Datetime → Option Datetime
  | none, right => right
  | left, none => left
  | some left, some right => some (max left right)

theorem earliest_isSome_left {left right : Option Datetime} (h : left.isSome) :
    (earliest left right).isSome := by
  cases left with
  | none => cases h
  | some l => cases right <;> rfl

@[simp] theorem earliest_some_isSome (left : Option Datetime) (right : Datetime) :
    (earliest left (some right)).isSome := by
  cases left <;> rfl

@[simp] theorem latest_some_isSome (left : Option Datetime) (right : Datetime) :
    (latest left (some right)).isSome := by
  cases left <;> rfl

/-- Python's `left or right` on texts. -/
def orElseText (left right : String) : String := if left = "" then right else left

/-- Python's `left or right` for an optional text on the left. -/
def orText (left : Option String) (right : String) : String :=
  match left with
  | none => right
  | some left => orElseText left right

/-! ### Findings -/

/-- The findings of a job, by code. -/
abbrev Findings := Dict FindingCode Finding

/-- `_finding`: an existing finding becomes active again, a new one is recorded. -/
def Findings.observe (findings : Findings) (code : FindingCode) (observedAt : Datetime)
    (message : String) : Findings :=
  findings.set code <|
    match findings.get? code with
    | some existing => { existing with active := true, resolvedAt := none }
    | none => { code := code, firstObservedAt := observedAt, message := message }

/-- `_resolve`. -/
def Findings.resolve (findings : Findings) (code : FindingCode) (resolvedAt : Datetime) :
    Findings :=
  match findings.get? code with
  | some finding =>
      if finding.active then
        findings.set code { finding with active := false, resolvedAt := some resolvedAt }
      else findings
  | none => findings

namespace JobVisibility

/-- `_terminal_conflict`. -/
def terminalConflict (job : JobVisibility) (event : Event) : JobVisibility :=
  { job with
    incompleteLifecycle := true
    findings := Findings.observe job.findings .conflictingTerminalOutcome event.ingestionTime
      "Conflicting terminal execution outcomes were observed." }

/-! ### Attempts -/

/-- Some attempt before the given one is missing. -/
def hasGapBefore (job : JobVisibility) (number : ℕ) : Bool :=
  number > 1 && (List.range' 1 (number - 1)).any fun missing =>
    (job.attempts.get? missing).isNone

/-- The attempt of a number, as `setdefault` would create it. -/
def attemptAt (job : JobVisibility) (number : ℕ) : Attempt :=
  (job.attempts.get? number).getD { attemptNumber := number }

/-- `_attempt`: flags a gap before the attempt the event is about, and creates the attempt when it
is new. -/
def openAttempt (job : JobVisibility) (event : Event) : JobVisibility :=
  { job with
    incompleteLifecycle := job.incompleteLifecycle || job.hasGapBefore event.number
    findings :=
      if job.hasGapBefore event.number then
        Findings.observe job.findings .attemptSequenceGap event.ingestionTime
          "Observed attempt number has no complete preceding sequence."
      else job.findings
    attempts := job.attempts.set event.number (job.attemptAt event.number) }

end JobVisibility

open JobVisibility

/-! ### The handlers -/

/-- What a handler returns: the projection, whether the event changed it, and why. -/
abbrev Handled := JobVisibility × Bool × Option String

def onJobCreated (job : JobVisibility) (event : Event) : Handled :=
  ({ job with
      createdAt := earliest job.createdAt event.eventTime
      recordedStatus := if job.recordedStatus = .unknown then .created else job.recordedStatus },
    true, none)

def onJobSchedulerSubmissionRequested (job : JobVisibility) (event : Event) : Handled :=
  ({ job with
      submissionRequestedAt := earliest job.submissionRequestedAt event.eventTime
      recordedStatus :=
        if ¬ job.recordedStatus.isTerminal ∧
            job.recordedStatus ∉ [.running, .retryPending, .retryScheduled] then
          .pendingSubmission
        else job.recordedStatus },
    true, none)

def onJobSchedulerSubmissionAcknowledged (job : JobVisibility) (event : Event) : Handled :=
  ({ job with
      schedulerAcknowledgedAt := earliest job.schedulerAcknowledgedAt event.eventTime
      recordedStatus :=
        if ¬ job.recordedStatus.isTerminal ∧
            job.recordedStatus ∉
              [.running, .retryPending, .retryScheduled, .awaitingExecution] then
          .scheduled
        else job.recordedStatus
      findings := Findings.resolve job.findings .schedulerAckTimeout event.ingestionTime },
    true, none)

def onJobSchedulerSubmissionFailed (job : JobVisibility) (event : Event) : Handled :=
  if job.recordedStatus.isTerminal then (job, false, some "terminal state preserved")
  else
    ({ job with
        recordedStatus := .failed
        completedAt := latest job.completedAt event.eventTime },
      true, none)

def onJobSchedulerItemRetrieved (job : JobVisibility) (event : Event) : Handled :=
  let job := job.openAttempt event
  let attempt := job.attemptAt event.number
  let retrievedAt := event.pollTime.getD event.eventTime
  ({ job with
      attempts := job.attempts.set event.number
        { attempt with
          retrievedAt := earliest attempt.retrievedAt retrievedAt
          status := if attempt.status = .unknown then .retrieved else attempt.status }
      schedulerRetrievedAt := earliest job.schedulerRetrievedAt retrievedAt
      recordedStatus :=
        if ¬ job.recordedStatus.isTerminal ∧ job.recordedStatus ≠ .running then
          .awaitingExecution
        else job.recordedStatus },
    true, none)

def onJobExecutionStarted (job : JobVisibility) (event : Event) : Handled :=
  let job := job.openAttempt event
  let attempt := job.attemptAt event.number
  let incomplete := job.incompleteLifecycle || attempt.retrievedAt.isNone
  let attempt := { attempt with startedAt := earliest attempt.startedAt event.eventTime }
  let job :=
    { job with
      incompleteLifecycle := incomplete
      attempts := job.attempts.set event.number attempt
      startedAt := earliest job.startedAt event.eventTime }
  if attempt.status = .succeeded ∨ job.recordedStatus = .succeeded then
    (job, true, some "startedAt backfilled; successful terminal state preserved")
  else if attempt.status = .failed ∧ job.recordedStatus = .failed then
    (job, true, some "startedAt backfilled; failed terminal state preserved")
  else
    let findings :=
      if job.recordedStatus = .cancelled then
        Findings.observe job.findings .executedAfterCancel event.ingestionTime
          "Execution was observed after cancellation."
      else job.findings
    let findings :=
      if job.recordedStatus = .retriesExhausted then
        Findings.observe findings .executionAfterRetryExhaustion event.ingestionTime
          "Execution was observed after retries were exhausted."
      else findings
    ({ job with
        attempts := job.attempts.set event.number { attempt with status := .running }
        cancellationViolation :=
          job.cancellationViolation || decide (job.recordedStatus = .cancelled)
        retriesExhaustedViolation :=
          job.retriesExhaustedViolation || decide (job.recordedStatus = .retriesExhausted)
        findings := findings
        recordedStatus := .running },
      true, none)

def onJobExecutionSucceeded (job : JobVisibility) (event : Event) : Handled :=
  let job := job.openAttempt event
  let attempt := job.attemptAt event.number
  if attempt.status = .failed ∨
      (job.recordedStatus.isTerminal ∧ job.recordedStatus ∉ [.succeeded, .cancelled]) then
    (job.terminalConflict event, true,
      some "conflicting terminal outcome retained; prior terminal state preserved")
  else
    ({ job with
        incompleteLifecycle := job.incompleteLifecycle || attempt.startedAt.isNone
        cancellationViolation :=
          job.cancellationViolation || decide (job.recordedStatus = .cancelled)
        findings :=
          if job.recordedStatus = .cancelled then
            Findings.observe job.findings .executedAfterCancel event.ingestionTime
              "Successful execution was observed after cancellation."
          else job.findings
        attempts := job.attempts.set event.number
          { attempt with
            status := .succeeded
            completedAt := latest attempt.completedAt event.eventTime
            resultCode := some (orText event.resultCode "SUCCESS") }
        completedAt := latest job.completedAt event.eventTime
        recordedStatus := .succeeded
        retryEligible := false
        nextRetryAt := none },
      true, none)

def onJobExecutionFailed (job : JobVisibility) (event : Event) : Handled :=
  let job := job.openAttempt event
  let attempt := job.attemptAt event.number
  if attempt.status = .succeeded ∨ job.recordedStatus = .succeeded then
    (job.terminalConflict event, true, some "conflicting late failure retained; success preserved")
  else if job.recordedStatus.isTerminal ∧ job.recordedStatus ∉ [.cancelled] then
    (job.terminalConflict event, true, some "terminal state preserved")
  else
    ({ job with
        incompleteLifecycle := job.incompleteLifecycle || attempt.startedAt.isNone
        attempts := job.attempts.set event.number
          { attempt with
            status := .failed
            completedAt := latest attempt.completedAt event.eventTime
            retryable := event.retryable
            errorCode := event.errorCode }
        completedAt := latest job.completedAt event.eventTime
        lastFailureAt := latest job.lastFailureAt event.eventTime
        lastErrorCode := event.errorCode
        retryEligible := event.retryable.getD false
        retryRequested := false
        retryAcknowledged := false
        nextRetryAt := none
        recordedStatus := if event.retryable.getD false then .retryPending else .failed },
      true, none)

def onJobRetryRequested (job : JobVisibility) (event : Event) : Handled :=
  if job.recordedStatus.isTerminal then (job, false, some "terminal state preserved")
  else
    ({ job with
        retryRequested := true
        retryAcknowledged := false
        retryRequestedAt := latest job.retryRequestedAt event.eventTime
        nextRetryAt := none
        recordedStatus := .retryPending },
      true, none)

def onJobRetryAcknowledged (job : JobVisibility) (event : Event) : Handled :=
  ({ job with
      retryRequested := true
      retryAcknowledged := true
      nextRetryAt := event.nextRetryAt.or job.nextRetryAt
      findings := Findings.resolve job.findings .retryAckTimeout event.ingestionTime
      recordedStatus :=
        if ¬ job.recordedStatus.isTerminal ∧ job.recordedStatus ≠ .running then .retryScheduled
        else job.recordedStatus },
    true, none)

def onJobRetryRejected (job : JobVisibility) (_event : Event) : Handled :=
  if job.recordedStatus.isTerminal then (job, false, some "terminal state preserved")
  else
    ({ job with
        retryRequested := true
        retryAcknowledged := false
        retryEligible := false
        nextRetryAt := none
        recordedStatus := .failed },
      true, none)

def onJobRetriesExhausted (job : JobVisibility) (event : Event) : Handled :=
  if job.recordedStatus = .succeeded then
    (job, false, some "successful terminal state preserved")
  else
    ({ job with
        recordedStatus := .retriesExhausted
        retryEligible := false
        retryAcknowledged := false
        nextRetryAt := none
        completedAt := latest job.completedAt event.eventTime },
      true, none)

def onJobCancelled (job : JobVisibility) (event : Event) : Handled :=
  if job.recordedStatus.isTerminal then (job, false, some "existing terminal state preserved")
  else
    ({ job with
        recordedStatus := .cancelled
        completedAt := latest job.completedAt event.eventTime },
      true, none)

/-- The handler of an event type, `_on_<event_type>`. -/
def handler : EventType → JobVisibility → Event → Handled
  | .jobCreated => onJobCreated
  | .jobSchedulerSubmissionRequested => onJobSchedulerSubmissionRequested
  | .jobSchedulerSubmissionAcknowledged => onJobSchedulerSubmissionAcknowledged
  | .jobSchedulerSubmissionFailed => onJobSchedulerSubmissionFailed
  | .jobSchedulerItemRetrieved => onJobSchedulerItemRetrieved
  | .jobExecutionStarted => onJobExecutionStarted
  | .jobExecutionSucceeded => onJobExecutionSucceeded
  | .jobExecutionFailed => onJobExecutionFailed
  | .jobRetryRequested => onJobRetryRequested
  | .jobRetryAcknowledged => onJobRetryAcknowledged
  | .jobRetryRejected => onJobRetryRejected
  | .jobRetriesExhausted => onJobRetriesExhausted
  | .jobCancelled => onJobCancelled

/-! ### One event -/

/-- The fields every event is merged into before its handler runs. -/
def mergeCommon (job : JobVisibility) (event : Event) : JobVisibility :=
  { job with
    correlationId := orElseText job.correlationId event.correlationId
    jobType := orElseText event.jobType job.jobType
    maxAttempts := max job.maxAttempts event.maxAttempts
    scheduledAt := job.scheduledAt.or event.scheduledAt
    schedulerReference :=
      match event.schedulerReference with
      | some reference => if reference = "" then job.schedulerReference else some reference
      | none => job.schedulerReference }

/-- `_project`. -/
def project (job : JobVisibility) (event : Event) : JobVisibility × ProjectionDecision :=
  let handled := handler event.eventType (mergeCommon job event) event
  (handled.1, ⟨event.eventId, if handled.2.1 then .applied else .ignored, handled.2.2⟩)

/-- `_is_semantic_duplicate`. -/
def isSemanticDuplicate (job : JobVisibility) (event : Event) : Bool :=
  match job.attempts.get? event.number with
  | none => false
  | some attempt =>
      (event.eventType = .jobExecutionSucceeded && attempt.status = .succeeded) ||
      (event.eventType = .jobExecutionFailed && attempt.status = .failed)

/-- `ReductionResult`. -/
structure ReductionResult where
  job : JobVisibility
  decision : ProjectionDecision
  deriving DecidableEq

/-- The projection an event is reduced into: the current one, or a blank one for a new job. -/
def currentOrBlank (current : Option JobVisibility) (event : Event) : JobVisibility :=
  current.getD { jobId := event.jobId }

/-- The projection and the decision before the event is logged. -/
def decideEvent (job : JobVisibility) (event : Event) : JobVisibility × ProjectionDecision :=
  if isSemanticDuplicate job event then
    (job, ⟨event.eventId, .semanticDuplicate,
      some "same outcome already observed for job attempt"⟩)
  else
    let projected := project job event
    if projected.2.decision ≠ .ignored then
      ({ projected.1 with version := projected.1.version + 1 }, projected.2)
    else projected

/-- The reduction proper: what `reduce_visibility` returns once the job ids agree. -/
def reduceEvent (current : Option JobVisibility) (event : Event) : ReductionResult :=
  let decided := decideEvent (currentOrBlank current event) event
  { job :=
      { decided.1 with
        decisions := decided.1.decisions ++ [decided.2]
        lastEventTime := latest decided.1.lastEventTime event.eventTime
        dataAsOf := latest decided.1.dataAsOf event.ingestionTime }
    decision := decided.2 }

/-- The exception of a projection that is reduced with an event of another job. -/
inductive ReductionError
  | jobMismatch
  deriving DecidableEq, Repr

/-- **`reduce_visibility`.** -/
def reduceVisibility (current : Option JobVisibility) (event : Event) :
    Except ReductionError ReductionResult :=
  if (currentOrBlank current event).jobId ≠ event.jobId then .error .jobMismatch
  else .ok (reduceEvent current event)

/-- The fold of `reduce_visibility` over a list of events, from a projection or from none. -/
def reduceAll (current : Option JobVisibility) (events : List Event) : Option JobVisibility :=
  events.foldl (fun job event => some (reduceEvent job event).job) current

/-- The fold of `reduce_visibility` with its check on job ids. -/
def reduceVisibilityAll (current : Option JobVisibility) (events : List Event) :
    Except ReductionError (Option JobVisibility) :=
  events.foldlM (fun job event => (reduceVisibility job event).map fun r => some r.job) current

/-- The events of a job, in their order. -/
def eventsOf (jobId : String) (events : List Event) : List Event :=
  events.filter fun event => event.jobId = jobId

@[simp] theorem reduceAll_nil (current : Option JobVisibility) : reduceAll current [] = current :=
  rfl

@[simp] theorem reduceAll_cons (current : Option JobVisibility) (event : Event)
    (events : List Event) :
    reduceAll current (event :: events) = reduceAll (some (reduceEvent current event).job) events :=
  rfl

theorem reduceAll_append (current : Option JobVisibility) (events more : List Event) :
    reduceAll current (events ++ more) = reduceAll (reduceAll current events) more :=
  List.foldl_append

/-! ### What the handlers leave alone -/

/-- The fields no handler writes: the job id, the fields merged before the handler runs, and those
`reduce_visibility` maintains itself. -/
structure JobHeader where
  jobId : String
  correlationId : String
  jobType : String
  scheduledAt : Option Datetime
  schedulerReference : Option String
  maxAttempts : ℕ
  version : ℕ
  decisions : List ProjectionDecision
  lastEventTime : Option Datetime
  dataAsOf : Option Datetime
  deriving DecidableEq

namespace JobVisibility

/-- The header of a projection. -/
def header (job : JobVisibility) : JobHeader where
  jobId := job.jobId
  correlationId := job.correlationId
  jobType := job.jobType
  scheduledAt := job.scheduledAt
  schedulerReference := job.schedulerReference
  maxAttempts := job.maxAttempts
  version := job.version
  decisions := job.decisions
  lastEventTime := job.lastEventTime
  dataAsOf := job.dataAsOf

end JobVisibility

/-- **No handler writes the header.** -/
theorem handler_header (t : EventType) (job : JobVisibility) (event : Event) :
    (handler t job event).1.header = job.header := by
  cases t with
  | jobCreated => rfl
  | jobSchedulerSubmissionRequested => rfl
  | jobSchedulerSubmissionAcknowledged => rfl
  | jobSchedulerItemRetrieved => rfl
  | jobRetryAcknowledged => rfl
  | jobExecutionStarted =>
      simp only [handler, onJobExecutionStarted]
      split
      · rfl
      · split <;> rfl
  | jobExecutionSucceeded =>
      simp only [handler, onJobExecutionSucceeded]
      split <;> rfl
  | jobExecutionFailed =>
      simp only [handler, onJobExecutionFailed]
      split
      · rfl
      · split <;> rfl
  | jobSchedulerSubmissionFailed =>
      simp only [handler, onJobSchedulerSubmissionFailed]
      split <;> rfl
  | jobRetryRequested =>
      simp only [handler, onJobRetryRequested]
      split <;> rfl
  | jobRetryRejected =>
      simp only [handler, onJobRetryRejected]
      split <;> rfl
  | jobRetriesExhausted =>
      simp only [handler, onJobRetriesExhausted]
      split <;> rfl
  | jobCancelled =>
      simp only [handler, onJobCancelled]
      split <;> rfl

/-- The projection an event leaves, but for the fields `reduce_visibility` maintains itself: a
repeated outcome leaves it as it was, and any other event what its handler makes of it. -/
def projectedBy (job : JobVisibility) (event : Event) : JobVisibility :=
  if isSemanticDuplicate job event then job
  else (handler event.eventType (mergeCommon job event) event).1

/-- **What one event makes of a projection.** -/
theorem exists_reduceEvent_eq (current : Option JobVisibility) (event : Event) :
    ∃ version decisions, (reduceEvent current event).job =
      { projectedBy (currentOrBlank current event) event with
        version := version
        decisions := decisions
        lastEventTime := latest (currentOrBlank current event).lastEventTime event.eventTime
        dataAsOf := latest (currentOrBlank current event).dataAsOf event.ingestionTime } := by
  generalize hjob : currentOrBlank current event = job
  have hheader := handler_header event.eventType (mergeCommon job event) event
  have hlast : (project job event).1.lastEventTime = job.lastEventTime :=
    congrArg JobHeader.lastEventTime hheader
  have hdata : (project job event).1.dataAsOf = job.dataAsOf := congrArg JobHeader.dataAsOf hheader
  simp only [reduceEvent, hjob, decideEvent, projectedBy]
  split
  · exact ⟨_, _, rfl⟩
  · split
    · simp only [hlast, hdata]
      exact ⟨_, _, rfl⟩
    · simp only [hlast, hdata]
      exact ⟨_, _, rfl⟩

/-! ### What the reduction does not read -/

/-- The projection under another job type and with another decision log. -/
def JobVisibility.relabel (jobType : String) (decisions : List ProjectionDecision)
    (job : JobVisibility) : JobVisibility :=
  { job with jobType := jobType, decisions := decisions }

/-- The same of what a handler returns. -/
def Handled.relabel (jobType : String) (decisions : List ProjectionDecision)
    (handled : Handled) : Handled :=
  (handled.1.relabel jobType decisions, handled.2)

/-- **No handler reads the job type or the decision log.** -/
theorem handler_relabel (jobType : String) (decisions : List ProjectionDecision) (t : EventType)
    (job : JobVisibility) (event : Event) :
    handler t (job.relabel jobType decisions) event =
      (handler t job event).relabel jobType decisions := by
  cases t with
  | jobCreated => rfl
  | jobSchedulerSubmissionRequested => rfl
  | jobSchedulerSubmissionAcknowledged => rfl
  | jobSchedulerItemRetrieved => rfl
  | jobRetryAcknowledged => rfl
  | jobExecutionStarted =>
      simp only [handler, onJobExecutionStarted, apply_ite (Handled.relabel jobType decisions)]
      rfl
  | jobExecutionSucceeded =>
      simp only [handler, onJobExecutionSucceeded, apply_ite (Handled.relabel jobType decisions)]
      rfl
  | jobExecutionFailed =>
      simp only [handler, onJobExecutionFailed, apply_ite (Handled.relabel jobType decisions)]
      rfl
  | jobSchedulerSubmissionFailed =>
      simp only [handler, onJobSchedulerSubmissionFailed,
        apply_ite (Handled.relabel jobType decisions)]
      rfl
  | jobRetryRequested =>
      simp only [handler, onJobRetryRequested, apply_ite (Handled.relabel jobType decisions)]
      rfl
  | jobRetryRejected =>
      simp only [handler, onJobRetryRejected, apply_ite (Handled.relabel jobType decisions)]
      rfl
  | jobRetriesExhausted =>
      simp only [handler, onJobRetriesExhausted, apply_ite (Handled.relabel jobType decisions)]
      rfl
  | jobCancelled =>
      simp only [handler, onJobCancelled, apply_ite (Handled.relabel jobType decisions)]
      rfl

/-- The projection without its job type and its decision log. -/
def JobVisibility.unlabelled (job : JobVisibility) : JobVisibility := job.relabel "" []

/-- A projection that agrees with another one, but for its labels. -/
theorem JobVisibility.eq_relabel {job job' : JobVisibility} (h : job'.unlabelled = job.unlabelled) :
    job' = job.relabel job'.jobType job'.decisions :=
  (congrArg (JobVisibility.relabel job'.jobType job'.decisions) h :
    job'.unlabelled.relabel job'.jobType job'.decisions =
      job.unlabelled.relabel job'.jobType job'.decisions)

theorem decideEvent_relabel (job : JobVisibility) (event : Event) (jobType jobType' : String)
    (decisions : List ProjectionDecision) :
    (decideEvent (job.relabel jobType decisions)
        { event with jobType := jobType' }).1.unlabelled =
      (decideEvent job event).1.unlabelled := by
  have hproject :
      project (job.relabel jobType decisions) { event with jobType := jobType' } =
        ((project job event).1.relabel (orElseText jobType' jobType) decisions,
          (project job event).2) := by
    have hmerge :
        mergeCommon (job.relabel jobType decisions) { event with jobType := jobType' } =
          (mergeCommon job event).relabel (orElseText jobType' jobType) decisions := rfl
    have hevent : ∀ job, handler event.eventType job { event with jobType := jobType' } =
        handler event.eventType job event := by
      intro job
      cases event.eventType <;> rfl
    simp only [project, hmerge, hevent, handler_relabel, Handled.relabel]
  have hduplicate :
      isSemanticDuplicate (job.relabel jobType decisions) { event with jobType := jobType' } =
        isSemanticDuplicate job event := rfl
  simp only [decideEvent, hproject, hduplicate]
  split
  · rfl
  · split <;> rfl

/-- **The job type of an event decides nothing but that of the projection.** -/
theorem reduceEvent_unlabelled {current current' : Option JobVisibility}
    (h : current'.map JobVisibility.unlabelled = current.map JobVisibility.unlabelled)
    (event : Event) (jobType : String) :
    (reduceEvent current' { event with jobType := jobType }).job.unlabelled =
      (reduceEvent current event).job.unlabelled := by
  have hcurrent : ∃ jobType' decisions,
      currentOrBlank current' { event with jobType := jobType } =
        (currentOrBlank current event).relabel jobType' decisions := by
    cases current with
    | none =>
        obtain rfl := Option.map_eq_none_iff.1 h
        exact ⟨"GENERIC", [], rfl⟩
    | some job =>
        obtain ⟨job', rfl, hjob⟩ := Option.map_eq_some_iff.1 h
        exact ⟨job'.jobType, job'.decisions, JobVisibility.eq_relabel hjob⟩
  obtain ⟨jobType', decisions, hcurrent⟩ := hcurrent
  have hdecided := decideEvent_relabel (currentOrBlank current event) event jobType' jobType
    decisions
  -- the last timestamps are merged into what agrees already
  exact (congrArg (fun decided : JobVisibility =>
    { decided with
      lastEventTime := latest decided.lastEventTime event.eventTime
      dataAsOf := latest decided.dataAsOf event.ingestionTime }) (hcurrent ▸ hdecided) :)

/-- Nor do the job types of all the events. -/
theorem reduceAll_unlabelled (jobType : Event → String) {events : List Event}
    {current current' : Option JobVisibility}
    (h : current'.map JobVisibility.unlabelled = current.map JobVisibility.unlabelled) :
    (reduceAll current' (events.map fun event => { event with jobType := jobType event })).map
        JobVisibility.unlabelled =
      (reduceAll current events).map JobVisibility.unlabelled := by
  induction events generalizing current current' with
  | nil => exact h
  | cons event events ih =>
      rw [List.map_cons, reduceAll_cons, reduceAll_cons]
      exact ih (congrArg some (reduceEvent_unlabelled h event (jobType event)))

/-! ### The job-id check along the events of one job -/

@[simp] theorem project_jobId (job : JobVisibility) (event : Event) :
    (project job event).1.jobId = job.jobId :=
  congrArg JobHeader.jobId (handler_header event.eventType (mergeCommon job event) event)

@[simp] theorem decideEvent_jobId (job : JobVisibility) (event : Event) :
    (decideEvent job event).1.jobId = job.jobId := by
  simp only [decideEvent]
  split
  · rfl
  · split <;> simp

/-- The decision log is written once the event is decided. -/
@[simp] theorem decideEvent_decisions (job : JobVisibility) (event : Event) :
    (decideEvent job event).1.decisions = job.decisions := by
  have hproject : (project job event).1.decisions = job.decisions :=
    congrArg JobHeader.decisions (handler_header event.eventType (mergeCommon job event) event)
  simp only [decideEvent]
  split
  · rfl
  · split <;> exact hproject

/-- Reducing an event logs one decision. -/
theorem reduceEvent_decisions (current : Option JobVisibility) (event : Event) :
    (reduceEvent current event).job.decisions =
      (currentOrBlank current event).decisions ++ [(reduceEvent current event).decision] := by
  simp [reduceEvent]

/-- Reducing an event keeps the job id. -/
@[simp] theorem reduceEvent_jobId (current : Option JobVisibility) (event : Event) :
    (reduceEvent current event).job.jobId = (currentOrBlank current event).jobId := by
  simp [reduceEvent]

/-- An event of the projection's own job passes the check. -/
theorem reduceVisibility_eq_ok {current : Option JobVisibility} {event : Event}
    (h : (currentOrBlank current event).jobId = event.jobId) :
    reduceVisibility current event = .ok (reduceEvent current event) := by
  simp [reduceVisibility, h]

/-- **Folding `reduce_visibility` over the events of one job is `reduceAll`**: the check on the job
id never fails on the way. -/
theorem reduceVisibilityAll_eq_ok (jobId : String) (events : List Event)
    (hevents : ∀ event ∈ events, event.jobId = jobId) (current : Option JobVisibility)
    (hcurrent : ∀ job ∈ current, job.jobId = jobId) :
    reduceVisibilityAll current events = .ok (reduceAll current events) := by
  induction events generalizing current with
  | nil => rfl
  | cons event events ih =>
      have hjob : event.jobId = jobId := hevents event (List.mem_cons_self ..)
      have hid : (currentOrBlank current event).jobId = event.jobId := by
        cases current with
        | none => rfl
        | some job => exact (hcurrent job rfl).trans hjob.symm
      rw [reduceVisibilityAll, List.foldlM_cons, reduceVisibility_eq_ok hid, reduceAll_cons]
      refine ih (fun e he => hevents e (List.mem_cons_of_mem _ he)) _ ?_
      intro job hmem
      obtain rfl : (reduceEvent current event).job = job := Option.some_inj.1 hmem
      rw [reduceEvent_jobId, hid, hjob]

/-- **What each reduction preserves, the reduction of a list preserves.** -/
theorem forall_reduceAll {P : JobVisibility → Prop} {events : List Event}
    (hstep : ∀ event ∈ events, ∀ current : Option JobVisibility, (∀ job ∈ current, P job) →
      P (reduceEvent current event).job)
    {current : Option JobVisibility} (hcurrent : ∀ job ∈ current, P job) :
    ∀ job ∈ reduceAll current events, P job := by
  induction events generalizing current with
  | nil => exact hcurrent
  | cons event events ih =>
      rw [List.forall_mem_cons] at hstep
      rw [reduceAll_cons]
      refine ih hstep.2 fun job hjob => ?_
      obtain rfl := Option.some_inj.1 hjob
      exact hstep.1 current hcurrent

/-- The scheduled time of a projection is that of an event. -/
theorem scheduledAt_reduceEvent {current : Option JobVisibility} {event : Event} {t : Datetime}
    (h : t ∈ (reduceEvent current event).job.scheduledAt) :
    t ∈ (currentOrBlank current event).scheduledAt ∨ t ∈ event.scheduledAt := by
  have hmerged : (handler event.eventType (mergeCommon (currentOrBlank current event) event)
      event).1.scheduledAt = (currentOrBlank current event).scheduledAt.or event.scheduledAt :=
    congrArg JobHeader.scheduledAt (handler_header event.eventType _ event)
  obtain ⟨version, decisions, hjob⟩ := exists_reduceEvent_eq current event
  rw [hjob] at h
  simp only [projectedBy] at h
  split at h
  · exact Or.inl h
  · rw [hmerged] at h
    exact (Option.or_eq_some_iff.1 h).imp id And.right

/-- A fold of `reduce_visibility` that returns, returns `reduceAll`. -/
theorem reduceAll_of_reduceVisibilityAll {events : List Event}
    {current after : Option JobVisibility}
    (h : reduceVisibilityAll current events = .ok after) : after = reduceAll current events := by
  induction events generalizing current with
  | nil => exact (Except.ok.inj h).symm
  | cons event events ih =>
      rw [reduceVisibilityAll, List.foldlM_cons] at h
      by_cases hid : (currentOrBlank current event).jobId = event.jobId
      · rw [reduceVisibility_eq_ok hid] at h
        exact ih h
      · rw [reduceVisibility, if_pos hid] at h
        cases h

/-- What `reduce_visibility` returns, when it returns. -/
theorem eq_reduceEvent_of_reduceVisibility {current : Option JobVisibility} {event : Event}
    {result : ReductionResult} (h : reduceVisibility current event = .ok result) :
    result = reduceEvent current event := by
  unfold reduceVisibility at h
  split at h
  · cases h
  · exact (Except.ok.inj h).symm

/-- A fold over one more event. -/
theorem reduceVisibilityAll_concat_eq_ok_iff {start after : Option JobVisibility}
    {before : List Event} {event : Event} :
    reduceVisibilityAll start (before ++ [event]) = .ok after ↔
      ∃ current, reduceVisibilityAll start before = .ok current ∧
        reduceVisibility current event = .ok (reduceEvent current event) ∧
        after = some (reduceEvent current event).job := by
  simp only [reduceVisibilityAll, List.foldlM_append, Except.bind_eq_ok_iff, List.foldlM_cons,
    List.foldlM_nil]
  refine exists_congr fun current => and_congr_right fun _ => ?_
  constructor
  · rintro ⟨reduced, hmap, hafter⟩
    cases hr : reduceVisibility current event with
    | error e =>
        rw [hr] at hmap
        cases hmap
    | ok result =>
        obtain rfl := eq_reduceEvent_of_reduceVisibility hr
        rw [hr] at hmap
        cases hmap
        exact ⟨rfl, (Except.ok.inj hafter).symm⟩
  · rintro ⟨hr, rfl⟩
    exact ⟨_, by rw [hr]; rfl, rfl⟩

/-! ### Along a sequence of events -/

/-- Only the empty sequence leaves no projection. -/
theorem eq_nil_of_reduceVisibilityAll {events : List Event}
    (h : reduceVisibilityAll none events = .ok none) : events = [] := by
  induction events using List.reverseRecOn with
  | nil => rfl
  | append_singleton before event _ =>
      obtain ⟨current, -, -, hsome⟩ := reduceVisibilityAll_concat_eq_ok_iff.1 h
      cases hsome

/-- **What one event preserves, a sequence of events preserves**, with what was delivered so far. -/
theorem invariant_of_reduceVisibilityAll {P : List Event → JobVisibility → Prop}
    (hblank : ∀ jobId, P [] { jobId := jobId })
    (hstep : ∀ before event current, P before (currentOrBlank current event) →
      P (before ++ [event]) (reduceEvent current event).job)
    {events : List Event} {current : Option JobVisibility}
    (h : reduceVisibilityAll none events = .ok current) (next : Event) :
    P events (currentOrBlank current next) := by
  induction events using List.reverseRecOn generalizing current next with
  | nil =>
      obtain rfl : none = current := Except.ok.inj h
      exact hblank next.jobId
  | append_singleton before event ih =>
      obtain ⟨earlier, hbefore, -, rfl⟩ := reduceVisibilityAll_concat_eq_ok_iff.1 h
      exact hstep before event earlier (ih hbefore event)

/-- The same, for the projection that is left. -/
theorem invariant_of_reduceVisibilityAll_some {P : List Event → JobVisibility → Prop}
    (hblank : ∀ jobId, P [] { jobId := jobId })
    (hstep : ∀ before event current, P before (currentOrBlank current event) →
      P (before ++ [event]) (reduceEvent current event).job)
    {events : List Event} {job : JobVisibility}
    (h : reduceVisibilityAll none events = .ok (some job)) : P events job := by
  cases events with
  | nil => cases h
  | cons event events => exact invariant_of_reduceVisibilityAll hblank hstep h event

/-- **A sequence of events has a property at every point and another at every event exactly when
each of its events meets a condition**, if that is what one event decides. -/
theorem forall_prefix_step_iff {P : List Event → JobVisibility → Prop}
    {Q C : List Event → JobVisibility → Event → Prop} (hblank : ∀ jobId, P [] { jobId := jobId })
    (hstep : ∀ before event current, reduceVisibilityAll none before = .ok current →
      P before (currentOrBlank current event) →
      (P (before ++ [event]) (reduceEvent current event).job ∧
          Q before (currentOrBlank current event) event ↔
        C before (currentOrBlank current event) event))
    (events : List Event) :
    ((∀ before, before <+: events → ∀ job,
          reduceVisibilityAll none before = .ok (some job) → P before job) ∧
        ∀ before event, before ++ [event] <+: events → ∀ current result,
          reduceVisibilityAll none before = .ok current →
          reduceVisibility current event = .ok result →
          Q before (currentOrBlank current event) event) ↔
      ∀ before event, before ++ [event] <+: events → ∀ current result,
        reduceVisibilityAll none before = .ok current →
        reduceVisibility current event = .ok result →
        C before (currentOrBlank current event) event := by
  constructor
  · rintro ⟨hall, hevery⟩ before event hinit current result hbefore hresult
    obtain rfl := eq_reduceEvent_of_reduceVisibility hresult
    have hcurrent : P before (currentOrBlank current event) := by
      cases current with
      | some job => exact hall before ((List.prefix_append ..).trans hinit) job hbefore
      | none =>
          obtain rfl := eq_nil_of_reduceVisibilityAll hbefore
          exact hblank event.jobId
    refine (hstep before event current hbefore hcurrent).1 ⟨?_, ?_⟩
    · exact hall _ hinit _
        (reduceVisibilityAll_concat_eq_ok_iff.2 ⟨current, hbefore, hresult, rfl⟩)
    · exact hevery before event hinit current _ hbefore hresult
  · intro hall
    have hpoint : ∀ before, before <+: events → ∀ current,
        reduceVisibilityAll none before = .ok current →
        ∀ next, P before (currentOrBlank current next) := by
      intro before
      -- from one prefix to the next: the event between them meets the condition
      induction before using List.reverseRecOn with
      | nil =>
          intro _ current hcurrent next
          obtain rfl : none = current := Except.ok.inj hcurrent
          exact hblank next.jobId
      | append_singleton before event ih =>
          intro hinit after hafter next
          obtain ⟨current, hbefore, hresult, rfl⟩ := reduceVisibilityAll_concat_eq_ok_iff.1 hafter
          have hearlier := ih ((List.prefix_append ..).trans hinit) current hbefore event
          exact ((hstep before event current hbefore hearlier).2
            (hall before event hinit current _ hbefore hresult)).1
    refine ⟨fun before hinit job hbefore => ?_,
      fun before event hinit current result hbefore hresult => ?_⟩
    · cases before using List.reverseRecOn with
      | nil => cases hbefore
      | append_singleton _ event => exact hpoint _ hinit (some job) hbefore event
    · have hearlier :=
        hpoint before ((List.prefix_append ..).trans hinit) current hbefore event
      exact ((hstep before event current hbefore hearlier).2
        (hall before event hinit current result hbefore hresult)).2

/-- The same for a property at every point only. -/
theorem forall_prefix_iff {P : List Event → JobVisibility → Prop}
    {C : List Event → JobVisibility → Event → Prop} (hblank : ∀ jobId, P [] { jobId := jobId })
    (hstep : ∀ before event current, reduceVisibilityAll none before = .ok current →
      P before (currentOrBlank current event) →
      (P (before ++ [event]) (reduceEvent current event).job ↔
        C before (currentOrBlank current event) event))
    (events : List Event) :
    (∀ before, before <+: events → ∀ job,
        reduceVisibilityAll none before = .ok (some job) → P before job) ↔
      ∀ before event, before ++ [event] <+: events → ∀ current result,
        reduceVisibilityAll none before = .ok current →
        reduceVisibility current event = .ok result →
        C before (currentOrBlank current event) event := by
  have hboth := forall_prefix_step_iff (Q := fun _ _ _ => True) (C := C) hblank
    (fun before event current hbefore hcurrent =>
      (and_iff_left trivial).trans (hstep before event current hbefore hcurrent)) events
  simpa only [implies_true, and_true] using hboth

end ScheduledJobs
