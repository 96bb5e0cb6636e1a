/-
**The engine on timestamps of both kinds.**

`apply` notes the id of an event and appends the event to the journal before it reduces it, so an
exception of the reduction leaves both.  The queries compare what is stored with the reader's clock,
add configured intervals to it and display it, and each of these may raise: a single timestamp of a
single job is enough for a search to raise.

What a call returns and what it leaves are two things here: the state is left also when it raises.

Main definitions:

* `VisibilityEngine`, `VisibilityEngine.apply`, `VisibilityEngine.applyAll` — the engine;
* `isOverdue`, `derivedStatus`, `delayClassification`, `delaySince`, `response` — what a reader is
  given, **where every comparison may raise**;
* `VisibilityEngine.get`, `VisibilityEngine.search`, `VisibilityEngine.reconcile` — the queries.

Main results:

* `VisibilityEngine.apply_of_mem`, `VisibilityEngine.apply_of_conflict`,
  `VisibilityEngine.apply_of_reduce_error`, `VisibilityEngine.apply_of_reduce_ok` — **what a call of
  `apply` does**.
-/

import ScheduledJobs.MixedProjection
import ScheduledJobs.VisibilityEngine

set_option relaxedAutoImplicit false
set_option autoImplicit false

namespace ScheduledJobs.Mixed

/-! ### The time-derived view -/

section View

variable (runtime : Runtime) (config : VisibilityConfig) (job : JobVisibility) (now : Timestamp)

/-- `_is_overdue`. -/
def isOverdue : Except EngineError Bool :=
  match job.scheduledAt with
  | some scheduledAt =>
      if job.startedAt.isNone ∧ job.recordedStatus ∈ [.scheduled, .awaitingExecution] then do
        let gracePeriod ← timedelta config.gracePeriodSeconds
        let threshold ← scheduledAt.add gracePeriod
        threshold.lt now
      else return false
  | none => return false

/-- `_derived_status`. -/
def derivedStatus : Except EngineError Status :=
  if job.recordedStatus.isTerminal ∨
      job.recordedStatus ∈ [.running, .retryPending, .retryScheduled] then
    return job.recordedStatus
  else
    match job.scheduledAt with
    | some scheduledAt =>
        if job.recordedStatus ∈ [.scheduled, .awaitingExecution] then do
          let overdue ← isOverdue config job now
          if overdue then return .overdue
          else do
            let due ← scheduledAt.le now
            return if due then .awaitingExecution else job.recordedStatus
        else return job.recordedStatus
    | none => return job.recordedStatus

/-- `_delay_classification`. -/
def delayClassification (status : Status) : Except EngineError (Option DelayClassification) :=
  match job.scheduledAt, job.startedAt with
  | some scheduledAt, none => do
      let early ← now.lt scheduledAt
      if early then return some .notYetEligible
      else if status = .overdue then return some .executionOverdue
      else if job.schedulerRetrievedAt.isSome then return some .retrievedAwaitingWorker
      else do
        let pollInterval ← timedelta config.pollIntervalSeconds
        let firstPoll ← scheduledAt.add pollInterval
        let waiting ← now.lt firstPoll
        return if waiting then some .awaitingPollWindow else some .possibleBatchBacklog
  | _, _ => return none

/-- The delay from a time to the start of the job, or to the reader's clock. -/
def delaySince : Option Timestamp → Except EngineError (Option ℕ)
  | some since => do
      let difference ← (job.startedAt.getD now).sub since
      return some (wholeSeconds difference)
  | none => return none

/-- `possiblyStale`. -/
def possiblyStale : Except EngineError Bool :=
  match job.dataAsOf with
  | some dataAsOf => do
      let age ← now.sub dataAsOf
      let target ← timedelta config.eventualConsistencyTargetSeconds
      return decide (target < age)
  | none => return false

/-- `processingDelaySeconds`. -/
def processingDelay : Except EngineError (Option ℕ) :=
  match job.dataAsOf, job.lastEventTime with
  | some dataAsOf, some lastEventTime => do
      let difference ← dataAsOf.sub lastEventTime
      return some (wholeSeconds difference)
  | _, _ => return none

/-- `_overdue_duration`. -/
def overdueDuration : Except EngineError ℕ := do
  let overdue ← isOverdue config job now
  match job.scheduledAt with
  | some scheduledAt =>
      if overdue then do
        let gracePeriod ← timedelta config.gracePeriodSeconds
        let threshold ← scheduledAt.add gracePeriod
        let difference ← now.sub threshold
        return wholeSeconds difference
      else return 0
  | none => return 0

/-- `Finding.to_dict`. -/
def Finding.toDict (finding : Finding) : Except EngineError FindingView := do
  let firstObservedAt ← finding.firstObservedAt.iso runtime
  let resolvedAt ← iso runtime finding.resolvedAt
  return {
    code := finding.code.value
    message := finding.message
    firstObservedAt := firstObservedAt
    active := finding.active
    resolvedAt := resolvedAt }

/-- `_response`. -/
def response : Except EngineError JobResponse := do
  let status ← derivedStatus config job now
  let classification ← delayClassification config job now status
  let startDelay ← delaySince job now job.scheduledAt
  let postRetrieval ← delaySince job now job.schedulerRetrievedAt
  let stale ← possiblyStale config job now
  let processing ← processingDelay job
  let createdAt ← iso runtime job.createdAt
  let submissionRequestedAt ← iso runtime job.submissionRequestedAt
  let schedulerAcknowledgedAt ← iso runtime job.schedulerAcknowledgedAt
  let scheduledAt ← iso runtime job.scheduledAt
  let schedulerRetrievedAt ← iso runtime job.schedulerRetrievedAt
  let startedAt ← iso runtime job.startedAt
  let completedAt ← iso runtime job.completedAt
  let lastFailureAt ← iso runtime job.lastFailureAt
  let nextRetryAt ← iso runtime job.nextRetryAt
  let overdue ← overdueDuration config job now
  let dataAsOf ← iso runtime job.dataAsOf
  let findings ← job.findings.values.mapM (Finding.toDict runtime)
  return {
    jobId := job.jobId
    correlationId := job.correlationId
    jobType := job.jobType
    status := status.value
    recordedStatus := job.recordedStatus.value
    createdAt := createdAt
    submissionRequestedAt := submissionRequestedAt
    schedulerAcknowledgedAt := schedulerAcknowledgedAt
    scheduledAt := scheduledAt
    schedulerRetrievedAt := schedulerRetrievedAt
    startedAt := startedAt
    completedAt := completedAt
    schedulerReference := job.schedulerReference
    retry :=
      { completedAttempts := job.instants.completedAttempts
        nextAttemptNumber := job.instants.nextAttemptNumber
        maxAttempts := job.maxAttempts
        eligible := job.retryEligible
        requested := job.retryRequested
        schedulerAcknowledged := job.retryAcknowledged
        lastFailureAt := lastFailureAt
        lastErrorCode := job.lastErrorCode
        nextRetryAt := nextRetryAt }
    delay :=
      { classification := classification.map DelayClassification.value
        startDelaySeconds := startDelay
        postRetrievalDelaySeconds := postRetrieval
        overdueDurationSeconds := overdue }
    incompleteLifecycle := job.incompleteLifecycle
    cancellationViolation := job.cancellationViolation
    retriesExhaustedViolation := job.retriesExhaustedViolation
    freshness :=
      { dataAsOf := dataAsOf
        processingDelaySeconds := processing
        possiblyStale := stale }
    dataAsOf := dataAsOf
    version := job.version
    reconciliationFindings := findings }

/-! ### What is found overdue -/

/-- `now - since > timedelta(seconds=timeout)`, for a time that may be absent. -/
def elapsed (since : Option Timestamp) (timeout : ℤ) : Except EngineError Bool :=
  match since with
  | some t => do
      let age ← now.sub t
      let limit ← timedelta timeout
      return decide (limit < age)
  | none => return false

/-- `list(range(1, stop + 1))`. -/
def numbersUpTo (stop : ℕ) : Except EngineError (List ℕ) :=
  if stop ≤ runtime.listLimit then .ok (List.range' 1 stop) else .error .memoryError

/-- `attempts != list(range(1, max(attempts) + 1))`, for the sorted attempt numbers. -/
def hasSequenceGap : Except EngineError Bool :=
  let numbers := job.attempts.keys.insertionSort (· ≤ ·)
  if numbers.isEmpty then return false
  else do
    let all ← numbersUpTo runtime (numbers.foldr max 0)
    return decide (numbers ≠ all)

/-- The checks of `reconcile` on a job, in their order, each with the finding it records.  No check
reads a finding, and a check is made only if none before it has raised. -/
def checks : List (Except EngineError Bool × FindingCode × String) :=
  [(if job.recordedStatus = .pendingSubmission then
      elapsed now job.submissionRequestedAt config.submissionAcknowledgementTimeoutSeconds
    else return false,
    .schedulerAckTimeout, "No scheduler acknowledgement was observed before the timeout."),
   (if job.recordedStatus = .running then
      elapsed now job.startedAt config.runningTimeoutSeconds
    else return false,
    .runningTimeout, "Execution has remained running beyond the configured timeout."),
   (if job.retryRequested ∧ ¬ job.retryAcknowledged then
      elapsed now job.retryRequestedAt config.retryAcknowledgementTimeoutSeconds
    else return false,
    .retryAckTimeout, "No retry acknowledgement was observed before the timeout."),
   (isOverdue config job now, .executionStartOverdue,
    "No execution start was observed before the business grace period expired."),
   (hasSequenceGap runtime job, .attemptSequenceGap,
    "Observed attempt numbers contain a gap; missing attempts were not inferred.")]

/-- The findings after the checks, and what `_finding` returned, up to the first check that
raises. -/
def observeAll (findings : Findings) :
    List (Except EngineError Bool × FindingCode × String) →
      Findings × Except EngineError (List Finding)
  | [] => (findings, .ok [])
  | (.error e, _) :: _ => (findings, .error e)
  | (.ok false, _) :: rest => observeAll findings rest
  | (.ok true, code, message) :: rest =>
      let later := observeAll (findings.observe code now message) rest
      (later.1, (findings.observation code now message :: ·) <$> later.2)

/-- The body of the loop of `reconcile`. -/
def reconcileJob : JobVisibility × Except EngineError (List Finding) :=
  let observed := observeAll now job.findings (checks runtime config job now)
  ({ job with findings := observed.1 }, observed.2)

/-- The loop of `reconcile`: the jobs that are left when it ends or raises, and what it observed. -/
def reconcileRows : List JobVisibility → List JobVisibility × Except EngineError (List Finding)
  | [] => ([], .ok [])
  | job :: jobs =>
      match reconcileJob runtime config job now with
      | (job', .error e) => (job' :: jobs, .error e)
      | (job', .ok observed) =>
          let later := reconcileRows jobs
          (job' :: later.1, (observed ++ ·) <$> later.2)

/-- No job comes or goes. -/
theorem reconcileRows_jobIds (jobs : List JobVisibility) :
    (reconcileRows runtime config now jobs).1.map JobVisibility.jobId =
      jobs.map JobVisibility.jobId := by
  induction jobs with
  | nil => rfl
  | cons job jobs ih =>
      rw [reconcileRows]
      split
      · next job' e hjob =>
          obtain rfl := congrArg Prod.fst hjob
          rfl
      · next job' observed hjob =>
          obtain rfl := congrArg Prod.fst hjob
          rw [List.map_cons, List.map_cons, ih]
          rfl

/-- Nothing but their findings changes. -/
theorem exists_of_mem_reconcileRows {jobs : List JobVisibility} :
    ∀ job' ∈ (reconcileRows runtime config now jobs).1,
      ∃ job ∈ jobs, ∃ findings, job' = { job with findings := findings } := by
  induction jobs with
  | nil => simp [reconcileRows]
  | cons job jobs ih =>
      rw [reconcileRows]
      split
      · next e hjob =>
          obtain rfl := congrArg Prod.fst hjob
          intro job' hjob'
          rcases List.mem_cons.1 hjob' with rfl | hmem
          · exact ⟨job, List.mem_cons_self .., _, rfl⟩
          · exact ⟨job', List.mem_cons_of_mem _ hmem, job'.findings, rfl⟩
      · next observed hjob =>
          obtain rfl := congrArg Prod.fst hjob
          intro job' hjob'
          rcases List.mem_cons.1 hjob' with rfl | hmem
          · exact ⟨job, List.mem_cons_self .., _, rfl⟩
          · obtain ⟨old, hold, hfindings⟩ := ih job' hmem
            exact ⟨old, List.mem_cons_of_mem _ hold, hfindings⟩

end View

/-! ### The engine -/

/-- The projections, one for each job, the ids of the events seen, and the events in the order in
which they were noted. -/
structure VisibilityEngine where
  config : VisibilityConfig := {}
  jobs : Table JobVisibility.jobId := .empty
  eventIds : List String := []
  events : List Event := []

/-- The filters of a search. -/
structure SearchFilters where
  status : Option Status := none
  correlationId : Option String := none
  scheduledFrom : Option Timestamp := none
  scheduledTo : Option Timestamp := none

/-- `if correlation_id`: an empty text is no filter. -/
def SearchFilters.correlation? (filters : SearchFilters) : Option String :=
  filters.correlationId.filter fun text => text ≠ ""

namespace VisibilityEngine

/-- The version an expected one is compared with. -/
def versionOf (engine : VisibilityEngine) (jobId : String) : ℕ :=
  ((engine.jobs.find? jobId).map JobVisibility.version).getD 0

/-- The check of `apply` on an expected version. -/
def checkVersion (engine : VisibilityEngine) (jobId : String) : Option ℕ → Except EngineError Unit
  | none => .ok ()
  | some expected =>
      let actual := engine.versionOf jobId
      if expected ≠ actual then
        .error (.versionConflict s!"job {jobId}: expected version {expected}, actual {actual}")
      else .ok ()

/-- The engine once an event is noted. -/
def note (engine : VisibilityEngine) (event : Event) : VisibilityEngine :=
  { engine with
    eventIds := engine.eventIds ++ [event.eventId]
    events := engine.events ++ [event] }

/-- The projections once a decision is logged in that of its job, if there is one. -/
def logged (engine : VisibilityEngine) (jobId : String) (decision : ProjectionDecision) :
    Table JobVisibility.jobId :=
  match engine.jobs.find? jobId with
  | some job => engine.jobs.replace { job with decisions := job.decisions ++ [decision] }
  | none => engine.jobs

/-- **`apply`**: the engine it leaves, and the decision it returns or the exception it raises. -/
def apply (engine : VisibilityEngine) (event : Event) (expectedVersion : Option ℕ := none) :
    VisibilityEngine × Except EngineError ProjectionDecision :=
  let current := engine.jobs.find? event.jobId
  if event.eventId ∈ engine.eventIds then
    let decision : ProjectionDecision := ⟨event.eventId, .exactDuplicate, some "eventId seen"⟩
    ({ engine with jobs := engine.logged event.jobId decision }, .ok decision)
  else
    match engine.checkVersion event.jobId expectedVersion with
    | .error e => (engine, .error e)
    | .ok _ =>
        -- the id and the event are noted before the event is reduced
        match reduceVisibility current event with
        | .error e => (engine.note event, .error e)
        | .ok result =>
            ({ engine.note event with jobs := engine.jobs.upsert result.job },
              .ok result.decision)

/-- The events in their order, each of which is accepted. -/
def applyAll (engine : VisibilityEngine) : List Event → Except EngineError VisibilityEngine
  | [] => .ok engine
  | event :: events =>
      match engine.apply event with
      | (_, .error e) => .error e
      | (after, .ok _) => after.applyAll events

variable (runtime : Runtime)

/-- `get`. -/
def get (engine : VisibilityEngine) (jobId : String) (now : Timestamp) :
    Except EngineError JobResponse :=
  match engine.jobs.find? jobId with
  | some job => response runtime engine.config job now
  | none => .error (.jobNotFound jobId)

/-- `job_ids`. -/
def jobIds (engine : VisibilityEngine) : List String :=
  (engine.jobs.rows.map JobVisibility.jobId).insertionSort (· ≤ ·)

/-- `self._jobs[job_id].scheduled_at`. -/
def scheduledAt (engine : VisibilityEngine) (jobId : String) : Option Timestamp :=
  (engine.jobs.find? jobId).bind JobVisibility.scheduledAt

/-- A filter on the scheduled time, if it has a bound. -/
def keepWithin (engine : VisibilityEngine) (bound : Option Timestamp)
    (test : Timestamp → Timestamp → Except EngineError Bool) (items : List JobResponse) :
    Except EngineError (List JobResponse) :=
  match bound with
  | some t =>
      Except.keep (fun item =>
        match engine.scheduledAt item.jobId with
        | some s => test t s
        | none => return false) items
  | none => return items

/-- **`search`**. -/
def search (engine : VisibilityEngine) (now : Timestamp) (filters : SearchFilters) :
    Except EngineError (List JobResponse) := do
  let responses ← engine.jobIds.mapM fun jobId => engine.get runtime jobId now
  let responses := responses.filter fun item =>
    filters.status.all fun status => item.status = status.value
  let responses := responses.filter fun item =>
    filters.correlation?.all fun text => item.correlationId = text
  let responses ← engine.keepWithin filters.scheduledFrom (fun t s => t.le s) responses
  engine.keepWithin filters.scheduledTo (fun t s => s.le t) responses

/-- **`reconcile`**: the engine it leaves, and the findings it returns or the exception it
raises. -/
def reconcile (engine : VisibilityEngine) (now : Timestamp) :
    VisibilityEngine × Except EngineError (List Finding) :=
  let reconciled := reconcileRows runtime engine.config now engine.jobs.rows
  ({ engine with
      jobs := ⟨reconciled.1, by rw [reconcileRows_jobIds]; exact engine.jobs.nodup⟩ },
    reconciled.2)

/-! ### What a call of `apply` does -/

section Apply

variable {engine : VisibilityEngine} {event : Event} {expectedVersion : Option ℕ}

theorem checkVersion_eq_ok_iff {jobId : String} :
    engine.checkVersion jobId expectedVersion = .ok () ↔
      ∀ expected ∈ expectedVersion, expected = engine.versionOf jobId := by
  cases expectedVersion with
  | none => simp [checkVersion]
  | some expected =>
      simp only [checkVersion, Option.mem_def, Option.some.injEq, forall_eq']
      split
      · next h => exact iff_of_false (by nofun) h
      · next h => exact iff_of_true rfl (not_not.1 h)

/-- Logging a decision changes nothing but the log. -/
theorem exists_of_mem_logged {jobId : String} {decision : ProjectionDecision} :
    ∀ jobId', ∀ job' ∈ (engine.logged jobId decision).find? jobId',
      ∃ job ∈ engine.jobs.find? jobId', ∃ decisions,
        job' = { job with decisions := decisions } := by
  intro jobId' job' hjob'
  unfold logged at hjob'
  split at hjob'
  · next job hjob =>
      obtain rfl : job.jobId = jobId := Table.key_of_find? hjob
      rw [Option.mem_def, Table.find?_replace] at hjob'
      split at hjob'
      · next hid =>
          obtain ⟨old, -, rfl⟩ := Option.map_eq_some_iff.1 hjob'
          exact ⟨job, hid ▸ hjob, _, rfl⟩
      · exact ⟨job', hjob', job'.decisions, rfl⟩
  · exact ⟨job', hjob', job'.decisions, rfl⟩

/-- An event that was seen is logged. -/
theorem apply_of_mem (h : event.eventId ∈ engine.eventIds) :
    engine.apply event expectedVersion =
      ({ engine with
          jobs := engine.logged event.jobId ⟨event.eventId, .exactDuplicate, some "eventId seen"⟩ },
        .ok ⟨event.eventId, .exactDuplicate, some "eventId seen"⟩) := if_pos h

/-- An unexpected version leaves everything as it was. -/
theorem apply_of_conflict {e : EngineError} (hnew : event.eventId ∉ engine.eventIds)
    (h : engine.checkVersion event.jobId expectedVersion = .error e) :
    engine.apply event expectedVersion = (engine, .error e) := by
  rw [apply, if_neg hnew, h]

/-- **An exception of the reduction leaves the id and the event noted.** -/
theorem apply_of_reduce_error {e : EngineError} (hnew : event.eventId ∉ engine.eventIds)
    (hversion : engine.checkVersion event.jobId expectedVersion = .ok ())
    (h : reduceVisibility (engine.jobs.find? event.jobId) event = .error e) :
    engine.apply event expectedVersion = (engine.note event, .error e) := by
  rw [apply, if_neg hnew, hversion]
  simp only [h]

/-- An event that is reduced. -/
theorem apply_of_reduce_ok {result : ReductionResult} (hnew : event.eventId ∉ engine.eventIds)
    (hversion : engine.checkVersion event.jobId expectedVersion = .ok ())
    (h : reduceVisibility (engine.jobs.find? event.jobId) event = .ok result) :
    engine.apply event expectedVersion =
      ({ engine.note event with jobs := engine.jobs.upsert result.job }, .ok result.decision) := by
  rw [apply, if_neg hnew, hversion]
  simp only [h]

/-- An event of the job is reduced into a projection of the job. -/
theorem currentOrBlank_jobId (engine : VisibilityEngine) (event : Event) :
    (currentOrBlank (engine.jobs.find? event.jobId) event).jobId = event.jobId := by
  cases hjob : engine.jobs.find? event.jobId with
  | none => rfl
  | some job => exact Table.key_of_find? hjob

end Apply

end VisibilityEngine

end ScheduledJobs.Mixed
