/-
**`VisibilityEngine`: the projections in memory, and what is read from them.**

The engine keeps one projection for each job and the ids of the events it has seen; an event is
reduced into the projection of its job once.  A reader is given a response, in which the status is
derived from the recorded one and the reader's clock: a job that waits for its scheduled time is
awaiting execution from that time on, and overdue once the grace period has passed without a
start.

The sums of a timestamp with a configured interval are taken on instants, which do not overflow;
`MixedEngine` follows the timestamps as they are held, with the exceptions of their arithmetic.

Main definitions:

* `VisibilityEngine`, `VisibilityEngine.apply`, `VisibilityEngine.applyAll` — the engine and its
  reduction of events;
* `VisibilityConfig.isOverdue`, `VisibilityConfig.derivedStatus` — **the time-derived status**;
* `JobResponse`, `VisibilityConfig.response` — what a reader is given;
* `VisibilityEngine.get`, `VisibilityEngine.search` — the queries;
* `VisibilityEngine.reconcile` — the findings that are due at a time.

Main results:

* `VisibilityEngine.applyAll_ok` — **the projection of a job is the reduction of its events**, when
  no event id occurs twice.
-/

import ScheduledJobs.BinaryRounding
import ScheduledJobs.Fallible
import ScheduledJobs.ReduceVisibility
import ScheduledJobs.Table
import ScheduledJobs.WireCodec

set_option relaxedAutoImplicit false
set_option autoImplicit false

namespace ScheduledJobs

/-! ### What a reader is given -/

inductive DelayClassification
  | notYetEligible
  | awaitingPollWindow
  | possibleBatchBacklog
  | retrievedAwaitingWorker
  | executionOverdue
  | edrDeliveryDelay
  | causeUnknown
  deriving DecidableEq, Repr

def DelayClassification.value : DelayClassification → String
  | notYetEligible => "NOT_YET_ELIGIBLE"
  | awaitingPollWindow => "AWAITING_POLL_WINDOW"
  | possibleBatchBacklog => "POSSIBLE_BATCH_BACKLOG"
  | retrievedAwaitingWorker => "RETRIEVED_AWAITING_WORKER"
  | executionOverdue => "EXECUTION_OVERDUE"
  | edrDeliveryDelay => "EDR_DELIVERY_DELAY"
  | causeUnknown => "CAUSE_UNKNOWN"

/-- `Attempt.to_dict`. -/
structure AttemptView where
  attemptNumber : ℕ
  status : String
  retrievedAt : Option String
  startedAt : Option String
  completedAt : Option String
  retryable : Option Bool
  errorCode : Option String
  resultCode : Option String
  deriving DecidableEq, Repr

def Attempt.toDict (attempt : Attempt) : AttemptView where
  attemptNumber := attempt.attemptNumber
  status := attempt.status.value
  retrievedAt := attempt.retrievedAt.map iso
  startedAt := attempt.startedAt.map iso
  completedAt := attempt.completedAt.map iso
  retryable := attempt.retryable
  errorCode := attempt.errorCode
  resultCode := attempt.resultCode

/-- `Finding.to_dict`. -/
structure FindingView where
  code : String
  message : String
  firstObservedAt : String
  active : Bool
  resolvedAt : Option String
  deriving DecidableEq, Repr

def Finding.toDict (finding : Finding) : FindingView where
  code := finding.code.value
  message := finding.message
  firstObservedAt := iso finding.firstObservedAt
  active := finding.active
  resolvedAt := finding.resolvedAt.map iso

/-- The `retry` part of a response. -/
structure RetryView where
  completedAttempts : ℕ
  nextAttemptNumber : Option ℕ
  maxAttempts : ℕ
  eligible : Bool
  requested : Bool
  schedulerAcknowledged : Bool
  lastFailureAt : Option String
  lastErrorCode : Option String
  nextRetryAt : Option String
  deriving DecidableEq, Repr

/-- The `delay` part of a response. -/
structure DelayView where
  classification : Option String
  startDelaySeconds : Option ℕ
  postRetrievalDelaySeconds : Option ℕ
  overdueDurationSeconds : ℕ
  deriving DecidableEq, Repr

/-- The `freshness` part of a response. -/
structure FreshnessView where
  dataAsOf : Option String
  processingDelaySeconds : Option ℕ
  possiblyStale : Bool
  deriving DecidableEq, Repr

/-- The response about a job. -/
structure JobResponse where
  jobId : String
  correlationId : String
  jobType : String
  status : String
  recordedStatus : String
  createdAt : Option String
  submissionRequestedAt : Option String
  schedulerAcknowledgedAt : Option String
  scheduledAt : Option String
  schedulerRetrievedAt : Option String
  startedAt : Option String
  completedAt : Option String
  schedulerReference : Option String
  retry : RetryView
  delay : DelayView
  incompleteLifecycle : Bool
  cancellationViolation : Bool
  retriesExhaustedViolation : Bool
  freshness : FreshnessView
  dataAsOf : Option String
  version : ℕ
  reconciliationFindings : List FindingView
  deriving DecidableEq, Repr

/-! ### The time-derived view -/

/-- `difference.total_seconds()`: the quotient of two integers, rounded to a float. -/
def totalSeconds (difference : Timedelta) : ℚ :=
  if difference < 0 then -Binary.binary64.round (-difference / 1000000)
  else Binary.binary64.round (difference / 1000000)

/-- `int` of a float: rounding towards zero. -/
def truncate (q : ℚ) : ℤ := if q < 0 then ⌈q⌉ else ⌊q⌋

/-- `max(0, int(difference.total_seconds()))`. -/
def wholeSeconds (difference : Timedelta) : ℕ := (truncate (totalSeconds difference)).toNat

theorem wholeSeconds_of_nonpos {difference : Timedelta} (h : difference ≤ 0) :
    wholeSeconds difference = 0 := by
  have hrounded : totalSeconds difference ≤ 0 := by
    rcases h.lt_or_eq with hneg | rfl
    · rw [totalSeconds, if_pos hneg, neg_nonpos]
      refine Binary.Format.round_nonneg (div_nonneg ?_ (by norm_num))
      exact_mod_cast Int.neg_nonneg_of_nonpos h
    · rw [totalSeconds, if_neg (lt_irrefl _), Int.cast_zero, zero_div, Binary.Format.round_zero]
  have hwhole : truncate (totalSeconds difference) ≤ 0 := by
    unfold truncate
    split
    · exact Int.ceil_le.mpr (by exact_mod_cast hrounded)
    · exact (Int.floor_mono hrounded).trans_eq Int.floor_zero
  exact Int.toNat_of_nonpos hwhole

theorem wholeSeconds_of_nonneg {difference : Timedelta} (h : 0 ≤ difference) :
    wholeSeconds difference = ⌊Binary.binary64.round (difference / 1000000)⌋.toNat := by
  have hquotient : (0 : ℚ) ≤ (difference : ℚ) / 1000000 :=
    div_nonneg (by exact_mod_cast h) (by norm_num)
  have hrounded := Binary.Format.round_nonneg (f := Binary.binary64) hquotient
  rw [wholeSeconds, totalSeconds, if_neg h.not_gt, truncate, if_neg hrounded.not_gt]

/-- **A longer time has no fewer whole seconds**, as rounding is monotone. -/
theorem wholeSeconds_mono {d d' : Timedelta} (h : d ≤ d') : wholeSeconds d ≤ wholeSeconds d' := by
  rcases le_total d 0 with hd | hd
  · rw [wholeSeconds_of_nonpos hd]
    exact Nat.zero_le _
  · rw [wholeSeconds_of_nonneg hd, wholeSeconds_of_nonneg (hd.trans h)]
    have hcast : (d : ℚ) ≤ d' := by exact_mod_cast h
    have hnonneg : (0 : ℚ) ≤ d := by exact_mod_cast hd
    refine Int.toNat_le_toNat (Int.floor_mono (Binary.Format.round_mono ?_ ?_))
    · exact div_nonneg hnonneg (by norm_num)
    · exact div_le_div_of_nonneg_right hcast (by norm_num)

/-- A number of seconds that is a float is measured as it is. -/
theorem wholeSeconds_seconds {n : ℕ} (h : Binary.binary64.Represents n) :
    wholeSeconds (seconds n) = n := by
  have hnonneg : 0 ≤ seconds n := Int.mul_nonneg (Int.natCast_nonneg n) (by decide)
  have hquotient : ((seconds n : ℤ) : ℚ) / 1000000 = n := by
    rw [seconds, Int.cast_mul, Int.cast_natCast]
    exact mul_div_cancel_right₀ _ (by norm_num)
  rw [wholeSeconds_of_nonneg hnonneg, hquotient, Binary.Format.round_of_represents h,
    Int.floor_natCast, Int.toNat_natCast]

/-- Between the two ends of the calendar there are more whole seconds than have passed. -/
example : wholeSeconds 315537897599999999 = 315537897600 := by decide +kernel

namespace VisibilityConfig

variable (config : VisibilityConfig) (job : JobVisibility) (now : Datetime)

/-- `_is_overdue`. -/
def isOverdue : Bool :=
  match job.scheduledAt with
  | some scheduledAt =>
      job.startedAt.isNone && decide (job.recordedStatus ∈ [.scheduled, .awaitingExecution]) &&
        decide (scheduledAt + seconds config.gracePeriodSeconds < now)
  | none => false

/-- **`_derived_status`.** -/
def derivedStatus : Status :=
  if job.recordedStatus.isTerminal ∨
      job.recordedStatus ∈ [.running, .retryPending, .retryScheduled] then job.recordedStatus
  else
    match job.scheduledAt with
    | some scheduledAt =>
        if job.recordedStatus ∈ [.scheduled, .awaitingExecution] then
          if config.isOverdue job now then .overdue
          else if scheduledAt ≤ now then .awaitingExecution
          else job.recordedStatus
        else job.recordedStatus
    | none => job.recordedStatus

/-- `_delay_classification`. -/
def delayClassification (status : Status) : Option DelayClassification :=
  match job.scheduledAt, job.startedAt with
  | some scheduledAt, none =>
      if now < scheduledAt then some .notYetEligible
      else if status = .overdue then some .executionOverdue
      else if job.schedulerRetrievedAt.isSome then some .retrievedAwaitingWorker
      else if now < scheduledAt + seconds config.pollIntervalSeconds then some .awaitingPollWindow
      else some .possibleBatchBacklog
  | _, _ => none

/-- `_overdue_duration`. -/
def overdueDuration : ℕ :=
  match job.scheduledAt with
  | some scheduledAt =>
      if config.isOverdue job now then
        wholeSeconds (now - (scheduledAt + seconds config.gracePeriodSeconds))
      else 0
  | none => 0

/-- `_response`. -/
def response : JobResponse :=
  let status := config.derivedStatus job now
  { jobId := job.jobId
    correlationId := job.correlationId
    jobType := job.jobType
    status := status.value
    recordedStatus := job.recordedStatus.value
    createdAt := job.createdAt.map iso
    submissionRequestedAt := job.submissionRequestedAt.map iso
    schedulerAcknowledgedAt := job.schedulerAcknowledgedAt.map iso
    scheduledAt := job.scheduledAt.map iso
    schedulerRetrievedAt := job.schedulerRetrievedAt.map iso
    startedAt := job.startedAt.map iso
    completedAt := job.completedAt.map iso
    schedulerReference := job.schedulerReference
    retry :=
      { completedAttempts := job.completedAttempts
        nextAttemptNumber := job.nextAttemptNumber
        maxAttempts := job.maxAttempts
        eligible := job.retryEligible
        requested := job.retryRequested
        schedulerAcknowledged := job.retryAcknowledged
        lastFailureAt := job.lastFailureAt.map iso
        lastErrorCode := job.lastErrorCode
        nextRetryAt := job.nextRetryAt.map iso }
    delay :=
      { classification :=
          (config.delayClassification job now status).map DelayClassification.value
        startDelaySeconds :=
          job.scheduledAt.map fun scheduledAt =>
            wholeSeconds (job.startedAt.getD now - scheduledAt)
        postRetrievalDelaySeconds :=
          job.schedulerRetrievedAt.map fun retrievedAt =>
            wholeSeconds (job.startedAt.getD now - retrievedAt)
        overdueDurationSeconds := config.overdueDuration job now }
    incompleteLifecycle := job.incompleteLifecycle
    cancellationViolation := job.cancellationViolation
    retriesExhaustedViolation := job.retriesExhaustedViolation
    freshness :=
      { dataAsOf := job.dataAsOf.map iso
        processingDelaySeconds :=
          match job.dataAsOf, job.lastEventTime with
          | some dataAsOf, some lastEventTime => some (wholeSeconds (dataAsOf - lastEventTime))
          | _, _ => none
        possiblyStale :=
          job.dataAsOf.any fun dataAsOf =>
            decide (seconds config.eventualConsistencyTargetSeconds < now - dataAsOf) }
    dataAsOf := job.dataAsOf.map iso
    version := job.version
    reconciliationFindings := job.findings.values.map Finding.toDict }

@[simp] theorem response_jobId : (config.response job now).jobId = job.jobId := rfl

@[simp] theorem response_correlationId :
    (config.response job now).correlationId = job.correlationId := rfl

@[simp] theorem response_status :
    (config.response job now).status = (config.derivedStatus job now).value := rfl

@[simp] theorem response_scheduledAt :
    (config.response job now).scheduledAt = job.scheduledAt.map iso := rfl

end VisibilityConfig

/-! ### What is found overdue -/

/-- The finding `_finding` returns. -/
def Findings.observation (findings : Findings) (code : FindingCode) (observedAt : Datetime)
    (message : String) : Finding :=
  match findings.get? code with
  | some existing => { existing with active := true, resolvedAt := none }
  | none => { code := code, firstObservedAt := observedAt, message := message }

theorem Findings.observe_eq (findings : Findings) (code : FindingCode) (observedAt : Datetime)
    (message : String) : findings.observe code observedAt message =
      findings.set code (findings.observation code observedAt message) := rfl

/-- Several findings recorded one after the other, and what `_finding` returned for each. -/
def Findings.observeAll (findings : Findings) (observedAt : Datetime) :
    List (FindingCode × String) → Findings × List Finding
  | [] => (findings, [])
  | (code, message) :: rest =>
      let later := Findings.observeAll (findings.observe code observedAt message) observedAt rest
      (later.1, findings.observation code observedAt message :: later.2)

namespace VisibilityConfig

/-- The checks of `reconcile` on a job, in their order, each with the finding it records.  No check
reads a finding, so the findings recorded by one do not disturb the next. -/
def checks (config : VisibilityConfig) (job : JobVisibility) (now : Datetime) :
    List (Bool × FindingCode × String) :=
  let elapsed (since : Option Datetime) (timeout : ℤ) : Bool :=
    since.any fun t => decide (seconds timeout < now - t)
  let numbers := job.attempts.keys.insertionSort (· ≤ ·)
  [(job.recordedStatus = .pendingSubmission &&
      elapsed job.submissionRequestedAt config.submissionAcknowledgementTimeoutSeconds,
    .schedulerAckTimeout, "No scheduler acknowledgement was observed before the timeout."),
   (job.recordedStatus = .running && elapsed job.startedAt config.runningTimeoutSeconds,
    .runningTimeout, "Execution has remained running beyond the configured timeout."),
   (job.retryRequested && !job.retryAcknowledged &&
      elapsed job.retryRequestedAt config.retryAcknowledgementTimeoutSeconds,
    .retryAckTimeout, "No retry acknowledgement was observed before the timeout."),
   (config.isOverdue job now, .executionStartOverdue,
    "No execution start was observed before the business grace period expired."),
   (!numbers.isEmpty && numbers ≠ List.range' 1 (numbers.foldr max 0), .attemptSequenceGap,
    "Observed attempt numbers contain a gap; missing attempts were not inferred.")]

/-- The findings that are due about a job. -/
def due (config : VisibilityConfig) (job : JobVisibility) (now : Datetime) :
    List (FindingCode × String) :=
  ((config.checks job now).filter Prod.fst).map Prod.snd

/-- The body of the loop of `reconcile`: the job with its findings, and those observed. -/
def reconcileJob (config : VisibilityConfig) (now : Datetime) (job : JobVisibility) :
    JobVisibility × List Finding :=
  let observed := Findings.observeAll job.findings now (config.due job now)
  ({ job with findings := observed.1 }, observed.2)

end VisibilityConfig

/-! ### The engine -/

/-- The exceptions of the engine. -/
inductive EngineError
  | jobNotFound (jobId : String)
  | versionConflict (message : String)
  | reduction (error : ReductionError)
  deriving DecidableEq, Repr

/-- The filters of a search. -/
structure SearchFilters where
  status : Option Status := none
  correlationId : Option String := none
  scheduledFrom : Option Datetime := none
  scheduledTo : Option Datetime := none
  deriving DecidableEq, Repr

/-- `if correlation_id`: an empty text is no filter. -/
def SearchFilters.correlation? (filters : SearchFilters) : Option String :=
  filters.correlationId.filter fun text => text ≠ ""

/-- The projections, one for each job, the ids of the events seen, and the events in the order in
which they were applied. -/
structure VisibilityEngine where
  config : VisibilityConfig := {}
  jobs : Table JobVisibility.jobId := .empty
  eventIds : List String := []
  events : List Event := []

namespace VisibilityEngine

/-- The check of `apply` on an expected version. -/
def checkVersion (jobId : String) (current : Option JobVisibility) :
    Option ℕ → Except EngineError Unit
  | none => .ok ()
  | some expected =>
      let actual := (current.map JobVisibility.version).getD 0
      if expected ≠ actual then
        .error (.versionConflict s!"job {jobId}: expected version {expected}, actual {actual}")
      else .ok ()

/-- `apply`: an event that was seen is logged again, any other is reduced. -/
def apply (engine : VisibilityEngine) (event : Event) (expectedVersion : Option ℕ := none) :
    Except EngineError (VisibilityEngine × ProjectionDecision) :=
  let current := engine.jobs.find? event.jobId
  if event.eventId ∈ engine.eventIds then
    let decision : ProjectionDecision := ⟨event.eventId, .exactDuplicate, some "eventId seen"⟩
    let jobs :=
      match current with
      | some job => engine.jobs.replace { job with decisions := job.decisions ++ [decision] }
      | none => engine.jobs
    .ok ({ engine with jobs := jobs }, decision)
  else do
    checkVersion event.jobId current expectedVersion
    let result ← (reduceVisibility current event).mapError .reduction
    return ({ engine with
      eventIds := engine.eventIds ++ [event.eventId]
      events := engine.events ++ [event]
      jobs := engine.jobs.upsert result.job }, result.decision)

/-- A list of events, applied one after the other. -/
def applyAll (engine : VisibilityEngine) (events : List Event) :
    Except EngineError VisibilityEngine :=
  events.foldlM (fun engine event => Prod.fst <$> engine.apply event) engine

/-- `snapshot`. -/
def snapshot (engine : VisibilityEngine) (jobId : String) : Except EngineError JobVisibility :=
  match engine.jobs.find? jobId with
  | some job => .ok job
  | none => .error (.jobNotFound jobId)

/-- `get`. -/
def get (engine : VisibilityEngine) (jobId : String) (now : Datetime) :
    Except EngineError JobResponse := do
  let job ← engine.snapshot jobId
  return engine.config.response job now

/-- `job_ids`. -/
def jobIds (engine : VisibilityEngine) : List String :=
  (engine.jobs.rows.map JobVisibility.jobId).insertionSort (· ≤ ·)

/-- `self._jobs[job_id].scheduled_at`. -/
def scheduledAt (engine : VisibilityEngine) (jobId : String) : Option Datetime :=
  (engine.jobs.find? jobId).bind JobVisibility.scheduledAt

/-- `search`, with the filters in their order. -/
def search (engine : VisibilityEngine) (now : Datetime) (filters : SearchFilters) :
    List JobResponse :=
  let responses := engine.jobIds.filterMap fun jobId => (engine.get jobId now).toOption
  let responses := responses.filter fun item =>
    filters.status.all fun status => item.status = status.value
  let responses := responses.filter fun item =>
    filters.correlation?.all fun text => item.correlationId = text
  let responses := responses.filter fun item =>
    filters.scheduledFrom.all fun t => (engine.scheduledAt item.jobId).any fun s => t ≤ s
  responses.filter fun item =>
    filters.scheduledTo.all fun t => (engine.scheduledAt item.jobId).any fun s => s ≤ t

/-- `reconcile`: the findings that are due, job by job in the order in which the jobs came in. -/
def reconcile (engine : VisibilityEngine) (now : Datetime) : VisibilityEngine × List Finding :=
  ({ engine with
      jobs := engine.jobs.mapRows (fun job => (engine.config.reconcileJob now job).1)
        fun _ => rfl },
    engine.jobs.rows.flatMap fun job => (engine.config.reconcileJob now job).2)

end VisibilityEngine

/-- The job passes the filters on the correlation id and on the scheduled time. -/
def SearchFilters.Admits (filters : SearchFilters) (job : JobVisibility) : Prop :=
  (∀ text ∈ filters.correlation?, job.correlationId = text) ∧
    (∀ t ∈ filters.scheduledFrom, ∃ s ∈ job.scheduledAt, t ≤ s) ∧
    ∀ t ∈ filters.scheduledTo, ∃ s ∈ job.scheduledAt, s ≤ t

namespace VisibilityEngine

variable {engine : VisibilityEngine}

theorem snapshot_eq_ok_iff {jobId : String} {job : JobVisibility} :
    engine.snapshot jobId = .ok job ↔ engine.jobs.find? jobId = some job := by
  unfold snapshot
  cases engine.jobs.find? jobId <;> simp

theorem get_eq_ok_iff {jobId : String} {now : Datetime} {item : JobResponse} :
    engine.get jobId now = .ok item ↔
      ∃ job, engine.jobs.find? jobId = some job ∧ engine.config.response job now = item := by
  simp only [get, Except.bind_eq_ok_iff, snapshot_eq_ok_iff, pure, Except.pure, Except.ok.injEq]

theorem mem_jobIds_iff {jobId : String} :
    jobId ∈ engine.jobIds ↔ ∃ job, engine.jobs.find? jobId = some job := by
  simp only [jobIds, List.mem_insertionSort, List.mem_map, Table.find?_eq_some_iff]

/-- The responses that are filtered. -/
theorem mem_responses_iff {now : Datetime} {item : JobResponse} :
    item ∈ engine.jobIds.filterMap (fun jobId => (engine.get jobId now).toOption) ↔
      ∃ job, engine.jobs.find? item.jobId = some job ∧ engine.config.response job now = item := by
  rw [List.mem_filterMap]
  constructor
  · rintro ⟨jobId, -, hget⟩
    cases hitem : engine.get jobId now with
    | error e => simp [hitem, Except.toOption] at hget
    | ok found =>
        obtain rfl : found = item := by simpa [hitem, Except.toOption] using hget
        obtain ⟨job, hjob, hresponse⟩ := get_eq_ok_iff.1 hitem
        have hkey : job.jobId = jobId := Table.key_of_find? hjob
        have hid : found.jobId = jobId := by
          rw [← hresponse, VisibilityConfig.response_jobId, hkey]
        exact ⟨job, hid ▸ hjob, hresponse⟩
  · rintro ⟨job, hjob, hresponse⟩
    refine ⟨item.jobId, mem_jobIds_iff.2 ⟨job, hjob⟩, ?_⟩
    rw [get_eq_ok_iff.2 ⟨job, hjob, hresponse⟩]
    rfl

/-- **What a search finds.** -/
theorem mem_search_iff {now : Datetime} {filters : SearchFilters} {item : JobResponse} :
    item ∈ engine.search now filters ↔
      ∃ job, engine.jobs.find? item.jobId = some job ∧
        engine.config.response job now = item ∧ filters.Admits job ∧
        ∀ status ∈ filters.status, engine.config.derivedStatus job now = status := by
  have hscheduled : ∀ job, engine.jobs.find? item.jobId = some job →
      engine.scheduledAt item.jobId = job.scheduledAt := by
    intro job hjob
    rw [scheduledAt, hjob]
    rfl
  simp only [search, List.mem_filter, mem_responses_iff, Option.all_eq_true, Option.any_eq_true,
    decide_eq_true_eq]
  constructor
  · rintro ⟨⟨⟨⟨⟨job, hjob, hresponse⟩, hstatus⟩, hcorrelation⟩, hfrom⟩, hto⟩
    rw [hscheduled job hjob] at hfrom hto
    subst hresponse
    exact ⟨job, hjob, rfl, ⟨hcorrelation, hfrom, hto⟩, fun status hfilter =>
      Status.value_injective (hstatus status hfilter)⟩
  · rintro ⟨job, hjob, hresponse, ⟨hcorrelation, hfrom, hto⟩, hstatus⟩
    rw [hscheduled job hjob]
    subst hresponse
    exact ⟨⟨⟨⟨⟨job, hjob, rfl⟩, fun status hfilter =>
      congrArg Status.value (hstatus status hfilter)⟩, hcorrelation⟩, hfrom⟩, hto⟩

/-! ### Applying events -/

/-- An event that was not seen is reduced into the projection of its job. -/
theorem apply_of_notMem {event : Event} (h : event.eventId ∉ engine.eventIds) :
    engine.apply event = .ok ({ engine with
      eventIds := engine.eventIds ++ [event.eventId]
      events := engine.events ++ [event]
      jobs := engine.jobs.upsert (reduceEvent (engine.jobs.find? event.jobId) event).job },
        (reduceEvent (engine.jobs.find? event.jobId) event).decision) := by
  have hid : (currentOrBlank (engine.jobs.find? event.jobId) event).jobId = event.jobId := by
    cases hf : engine.jobs.find? event.jobId with
    | none => rfl
    | some job => exact Table.key_of_find? hf
  simp only [apply, if_neg h, checkVersion, reduceVisibility_eq_ok hid]
  rfl

/-- Without an expected version, a call goes through. -/
theorem exists_apply_eq_ok (engine : VisibilityEngine) (event : Event) :
    ∃ after decision, engine.apply event = .ok (after, decision) := by
  by_cases h : event.eventId ∈ engine.eventIds
  · rw [apply, if_pos h]
    exact ⟨_, _, rfl⟩
  · exact ⟨_, _, apply_of_notMem h⟩

/-- The projection an event is reduced into is that of its job. -/
theorem jobId_reduceEvent_find? (event : Event) :
    (reduceEvent (engine.jobs.find? event.jobId) event).job.jobId = event.jobId := by
  rw [reduceEvent_jobId]
  cases hf : engine.jobs.find? event.jobId with
  | none => rfl
  | some job => exact Table.key_of_find? hf

/-- **The projection of a job is the reduction of its events**, when no event id occurs twice. -/
theorem applyAll_ok {events : List Event}
    (hnodup : (events.map Event.eventId).Nodup)
    (hfresh : ∀ event ∈ events, event.eventId ∉ engine.eventIds) :
    ∃ engine', engine.applyAll events = .ok engine' ∧ engine'.config = engine.config ∧
      ∀ jobId, engine'.jobs.find? jobId =
        reduceAll (engine.jobs.find? jobId) (eventsOf jobId events) := by
  induction events generalizing engine with
  | nil => exact ⟨engine, rfl, rfl, fun _ => rfl⟩
  | cons event events ih =>
      rw [List.map_cons, List.nodup_cons] at hnodup
      have happly := apply_of_notMem (hfresh event (List.mem_cons_self ..))
      have hrest : ∀ later ∈ events, later.eventId ∉ engine.eventIds ++ [event.eventId] := by
        intro later hlater hmem
        rcases List.mem_append.1 hmem with hold | hnew
        · exact hfresh later (List.mem_cons_of_mem _ hlater) hold
        · rw [List.mem_singleton] at hnew
          exact hnodup.1 (hnew ▸ List.mem_map_of_mem hlater)
      obtain ⟨engine', hall, hconfig, hjobs⟩ := @ih { engine with
        eventIds := engine.eventIds ++ [event.eventId]
        events := engine.events ++ [event]
        jobs := engine.jobs.upsert (reduceEvent (engine.jobs.find? event.jobId) event).job }
        hnodup.2 hrest
      refine ⟨engine', ?_, hconfig, fun jobId => ?_⟩
      · rw [applyAll, List.foldlM_cons, happly]
        exact hall
      · rw [hjobs, Table.find?_upsert, jobId_reduceEvent_find?]
        by_cases hid : event.jobId = jobId
        · subst hid
          simp [eventsOf]
        · have hne : jobId ≠ event.jobId := Ne.symm hid
          simp [eventsOf, hid, hne]

end VisibilityEngine

end ScheduledJobs
