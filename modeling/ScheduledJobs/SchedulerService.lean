/-
**`SchedulerService`: the durable queue.**

The operations of the scheduler, each as one transaction: a function of the database, of its
arguments and of the clock readings the transaction makes, which returns the new database or the
exception it is rolled back with.  `FOR UPDATE SKIP LOCKED` appears as the set of jobs whose rows
other transactions hold at the time.

Main definitions:

* `Db.updateJobs`, `Db.insertAttempt`, `Db.modifyAttempt`, `SchedulerService.addEvent` — the
  statements;
* `ClaimedJob.IsCurrent`, `Db.fencedUpdate` — **the fence**: owner, token, attempt and expiry are
  checked by the statement that writes;
* `submitChecked`, `claimDue`, `start`, `heartbeat`, `succeed`, `fail`, `recoverExpiredClaims` —
  **the operations**.
-/

import ScheduledJobs.Machine
import ScheduledJobs.SchedulerModel
import Mathlib.Data.List.Sort

set_option relaxedAutoImplicit false
set_option autoImplicit false

namespace ScheduledJobs

variable {Payload : Type}

/-! ### Statements -/

/-- An `UPDATE` that leaves these rows in place of those of the same jobs. -/
def Db.updateJobs (db : Db Payload) (rows : List (JobRow Payload)) :
    Except SchedulerError (Db Payload) :=
  if rows.all JobRow.checks then .ok { db with jobs := db.jobs.replaceAll rows }
  else .error .checkViolation

/-- `INSERT INTO scheduler_attempts`. -/
def Db.insertAttempt (db : Db Payload) (row : AttemptRow Payload) :
    Except SchedulerError (Db Payload) :=
  if row.checks then
    match db.attempts.insert? row with
    | some attempts => .ok { db with attempts := attempts }
    | none => .error .uniqueViolation
  else .error .checkViolation

/-- `UPDATE scheduler_attempts … WHERE job_id = … AND attempt_number = …`. -/
def Db.modifyAttempt (db : Db Payload) (key : String × ℕ)
    (assign : AttemptRow Payload → AttemptRow Payload) : Db Payload :=
  match db.attempts.find? key with
  | some row => { db with attempts := db.attempts.replace (assign row) }
  | none => db

/-- `_add_event`: the event gets a fresh id, is encoded, and enters the outbox. -/
def SchedulerService.addEvent (service : SchedulerService) (db : Db Payload)
    (draft : String → Event) : Except SchedulerError (Db Payload) :=
  if encodable : (draft (service.uuid db.draws)).Encodable then
    match db.outbox.insert? ⟨service.topic, draft (service.uuid db.draws), encodable⟩ with
    | some outbox => .ok { db with outbox := outbox, draws := db.draws + 1 }
    | none => .error .uniqueViolation
  else .error .overflow

/-- Several events, one after the other. -/
def SchedulerService.addEvents (service : SchedulerService) (db : Db Payload)
    (drafts : List (String → Event)) : Except SchedulerError (Db Payload) :=
  drafts.foldlM service.addEvent db

/-! ### `submit_checked` -/

/-- The row `submit_checked` inserts. -/
def JobSubmission.row (value : JobSubmission Payload) (createdAt : Datetime) : JobRow Payload where
  jobId := value.jobId
  correlationId := value.correlationId
  jobType := value.jobType
  payload := value.payload
  payloadReference := value.payloadReference
  scheduledAt := value.scheduledAt
  availableAt := value.scheduledAt
  status := .pending
  maxAttempts := value.maxAttempts
  createdAt := createdAt
  updatedAt := createdAt
  maxAttempts_pos := value.maxAttempts_pos

/-- `_event_values`, as an event of a type. -/
def JobSubmission.event (value : JobSubmission Payload) (eventType : EventType)
    (timestamp : Datetime) (eventId : String) : Event where
  eventId := eventId
  eventType := eventType
  eventTime := timestamp
  ingestionTime := timestamp
  jobId := value.jobId
  correlationId := value.correlationId
  jobType := value.jobType
  scheduledAt := some value.scheduledAt
  attemptNumber := 0
  maxAttempts := value.maxAttempts
  maxAttempts_pos := value.maxAttempts_pos

/-- The stored job is the one submitted again. -/
def JobSubmission.IdenticalTo (value : JobSubmission Payload) (existing : JobRow Payload) : Prop :=
  existing.correlationId = value.correlationId ∧ existing.jobType = value.jobType ∧
    existing.payload = value.payload ∧ existing.payloadReference = value.payloadReference ∧
    existing.scheduledAt = value.scheduledAt ∧ existing.maxAttempts = value.maxAttempts

instance [DecidableEq Payload] (value : JobSubmission Payload) (existing : JobRow Payload) :
    Decidable (value.IdenticalTo existing) := inferInstanceAs (Decidable (_ ∧ _))

/-- `submit_checked`. -/
def SchedulerService.submitChecked [DecidableEq Payload] (service : SchedulerService)
    (db : Db Payload) (value : JobSubmission Payload) (clock : ClockReads) :
    Except SchedulerError (Db Payload × SubmissionDecision) :=
  if (value.row clock.written).checks then
    match db.jobs.find? value.jobId, db.jobs.insert? (value.row clock.written) with
    | some existing, _ =>
        .ok (db, if value.IdenticalTo existing then .identical else .conflict)
    | none, none => .error .uniqueViolation
    | none, some jobs => do
        let db ← service.addEvents { db with jobs := jobs }
          [value.event .jobCreated clock.written,
            value.event .jobSchedulerSubmissionRequested clock.written]
        return (db, .created)
  else .error .checkViolation

/-! ### `claim_due` -/

/-- The rows a claim may take: due at `now`, not held by another transaction, the longest due
first. -/
def Db.due (db : Db Payload) (locked : List String) (now : Datetime) : List (JobRow Payload) :=
  (db.jobs.rows.filter fun row =>
    (row.status = .pending || row.status = .retryWait) && decide (row.availableAt ≤ now) &&
      decide (row.jobId ∉ locked)).insertionSort fun a b =>
    a.availableAt < b.availableAt ∨ a.availableAt = b.availableAt ∧ a.jobId ≤ b.jobId

/-- The row after it was claimed. -/
def JobRow.claim (row : JobRow Payload) (owner token : String) (lease : Timedelta)
    (written : Datetime) : JobRow Payload :=
  { row with
    status := .claimed
    attemptNumber := row.attemptNumber + 1
    claimedBy := some owner
    claimToken := some token
    claimedAt := some written
    claimExpiresAt := some (written + lease)
    updatedAt := written
    version := row.version + 1 }

/-- `_claimed`: the claim a row records. -/
def JobRow.claimed? (row : JobRow Payload) : Option (ClaimedJob Payload) :=
  match row.claimedBy, row.claimToken, row.claimExpiresAt with
  | some claimedBy, some claimToken, some claimExpiresAt =>
      some
        { jobId := row.jobId
          correlationId := row.correlationId
          jobType := row.jobType
          payload := row.payload
          payloadReference := row.payloadReference
          scheduledAt := row.scheduledAt
          attemptNumber := row.attemptNumber
          maxAttempts := row.maxAttempts
          claimedBy := claimedBy
          claimToken := claimToken
          claimExpiresAt := claimExpiresAt
          maxAttempts_pos := row.maxAttempts_pos }
  | _, _, _ => none

/-- `_add_job_event`: an event about a claimed job. -/
def ClaimedJob.event (job : ClaimedJob Payload) (eventType : EventType) (eventTime : Datetime)
    (eventId : String) : Event where
  eventId := eventId
  eventType := eventType
  eventTime := eventTime
  ingestionTime := eventTime
  jobId := job.jobId
  correlationId := job.correlationId
  jobType := job.jobType
  scheduledAt := some job.scheduledAt
  attemptNumber := job.attemptNumber
  maxAttempts := job.maxAttempts
  maxAttempts_pos := job.maxAttempts_pos

/-- The lease as a time difference. -/
def SchedulerService.lease (service : SchedulerService) : Timedelta :=
  seconds service.claimLeaseSeconds

/-- The attempt of a claim, and the event of its retrieval. -/
def SchedulerService.recordClaim (service : SchedulerService) (owner : String)
    (written : Datetime) (db : Db Payload) (job : ClaimedJob Payload) :
    Except SchedulerError (Db Payload) := do
  let db ← db.insertAttempt
    { jobId := job.jobId
      attemptNumber := job.attemptNumber
      claimToken := some job.claimToken
      claimedBy := some owner
      claimedAt := some written }
  service.addEvent db
    (job.event .jobSchedulerItemRetrieved (job.claimExpiresAt - service.lease))

/-- The rows a claim writes: those that were selected, each with a token of its own. -/
def SchedulerService.claimRows (service : SchedulerService) (draws : ℕ) (owner : String)
    (written : Datetime) (due : List (JobRow Payload)) : List (JobRow Payload) :=
  due.zipIdx.map fun p => p.1.claim owner (service.uuid (draws + p.2)) service.lease written

/-- `claim_due`. -/
def SchedulerService.claimDue (service : SchedulerService) (db : Db Payload) (owner : String)
    (limit : ℤ) (locked : List String) (clock : ClockReads) :
    Except SchedulerError (Db Payload × List (ClaimedJob Payload)) :=
  if limit < 1 then .ok (db, [])
  else do
    let due := (db.due locked clock.checked).take limit.toNat
    let rows := service.claimRows db.draws owner clock.written due
    let claimed := rows.filterMap JobRow.claimed?
    let db ← { db with draws := db.draws + due.length }.updateJobs rows
    let db ← claimed.foldlM (service.recordClaim owner clock.written) db
    return (db, claimed)

/-! ### The fence -/

/-- The claim is the one its row records, and its lease has not expired. -/
def ClaimedJob.IsCurrent (job : ClaimedJob Payload) (row : JobRow Payload) (now : Datetime) :
    Prop :=
  row.attemptNumber = job.attemptNumber ∧ row.claimedBy = some job.claimedBy ∧
    row.claimToken = some job.claimToken ∧
    row.claimExpiresAt.any (fun expires => now ≤ expires) = true

instance (job : ClaimedJob Payload) (row : JobRow Payload) (now : Datetime) :
    Decidable (job.IsCurrent row now) := inferInstanceAs (Decidable (_ ∧ _))

/-- `_fenced_update`. -/
def Db.fencedUpdate (db : Db Payload) (job : ClaimedJob Payload) (now : Datetime)
    (assign : JobRow Payload → JobRow Payload) : Except SchedulerError (Db Payload) :=
  match db.jobs.find? job.jobId with
  | some row =>
      if job.IsCurrent row now then db.updateJobs [assign row]
      else .error (.staleClaim job.jobId)
  | none => .error (.staleClaim job.jobId)

/-- The row without its claim, in a status. -/
def JobRow.release (row : JobRow Payload) (status : JobStatus) (availableAt written : Datetime) :
    JobRow Payload :=
  { row with
    status := status
    availableAt := availableAt
    claimedBy := none
    claimToken := none
    claimedAt := none
    claimExpiresAt := none
    updatedAt := written
    version := row.version + 1 }

/-! ### `start`, `heartbeat`, `succeed`, `fail` -/

/-- The row after its claim was started. -/
def JobRow.start (row : JobRow Payload) (written : Datetime) : JobRow Payload :=
  { row with status := .running, updatedAt := written, version := row.version + 1 }

/-- The attempt after it was started. -/
def AttemptRow.start (attempt : AttemptRow Payload) (written : Datetime) : AttemptRow Payload :=
  { attempt with startedAt := some written }

/-- `start`. -/
def SchedulerService.start (service : SchedulerService) (db : Db Payload)
    (job : ClaimedJob Payload) (clock : ClockReads) : Except SchedulerError (Db Payload) := do
  let db ← db.fencedUpdate job clock.checked fun row => row.start clock.written
  let db := db.modifyAttempt (job.jobId, job.attemptNumber) fun attempt =>
    attempt.start clock.written
  service.addEvent db (job.event .jobExecutionStarted clock.written)

/-- The row with a renewed lease. -/
def JobRow.renew (row : JobRow Payload) (lease : Timedelta) (written : Datetime) :
    JobRow Payload :=
  { row with claimExpiresAt := some (written + lease), updatedAt := written }

/-- `heartbeat`. -/
def SchedulerService.heartbeat (service : SchedulerService) (db : Db Payload)
    (job : ClaimedJob Payload) (clock : ClockReads) : Except SchedulerError (Db Payload) :=
  db.fencedUpdate job clock.checked fun row => row.renew service.lease clock.written

/-- The attempt after it succeeded. -/
def AttemptRow.succeed (attempt : AttemptRow Payload) (summary : Payload) (written : Datetime) :
    AttemptRow Payload :=
  { attempt with
    completedAt := some written
    outcome := some .succeeded
    resultSummary := some summary }

/-- `succeed`. -/
def SchedulerService.succeed (service : SchedulerService) (db : Db Payload)
    (job : ClaimedJob Payload) (summary : Payload) (clock : ClockReads) :
    Except SchedulerError (Db Payload) := do
  let db ← db.fencedUpdate job clock.checked fun row =>
    row.release .succeeded row.availableAt clock.written
  let db := db.modifyAttempt (job.jobId, job.attemptNumber) fun attempt =>
    attempt.succeed summary clock.written
  service.addEvent db fun eventId =>
    { job.event .jobExecutionSucceeded clock.written eventId with resultCode := some "SUCCESS" }

/-- A failure is retried while it is retryable and attempts are left. -/
def ClaimedJob.retries (job : ClaimedJob Payload) (failure : HandlerError) : Bool :=
  failure.retryable && decide (job.attemptNumber < job.maxAttempts)

/-- The status a failure leaves. -/
def ClaimedJob.failureStatus (job : ClaimedJob Payload) (failure : HandlerError) : JobStatus :=
  if job.retries failure then .retryWait
  else if failure.retryable then .retriesExhausted else .failed

/-- When the job is available again after a failure. -/
def SchedulerService.availableAfter (service : SchedulerService) (job : ClaimedJob Payload)
    (failure : HandlerError) (clock : ClockReads) : Datetime :=
  if job.retries failure then clock.now + service.retryDelay job.attemptNumber else clock.now

/-- The events of a failure. -/
def SchedulerService.failureEvents (service : SchedulerService) (job : ClaimedJob Payload)
    (failure : HandlerError) (clock : ClockReads) : List (String → Event) :=
  (fun eventId => { job.event .jobExecutionFailed clock.written eventId with
    retryable := some failure.retryable, errorCode := some failure.code }) ::
  if job.retries failure then
    [fun eventId => { job.event .jobRetryRequested clock.written eventId with
      retryable := some true },
    fun eventId => { job.event .jobRetryAcknowledged clock.written eventId with
      retryable := some true
      nextRetryAt := some (service.availableAfter job failure clock) }]
  else if failure.retryable then
    [fun eventId => { job.event .jobRetriesExhausted clock.written eventId with
      retryable := some false }]
  else []

/-- The attempt after it failed. -/
def AttemptRow.fail (attempt : AttemptRow Payload) (failure : HandlerError)
    (nextRetryAt : Option Datetime) (written : Datetime) : AttemptRow Payload :=
  { attempt with
    completedAt := some written
    outcome := some .failed
    retryable := some failure.retryable
    errorCode := some failure.code
    nextRetryAt := nextRetryAt }

/-- `fail`. -/
def SchedulerService.fail (service : SchedulerService) (db : Db Payload)
    (job : ClaimedJob Payload) (failure : HandlerError) (clock : ClockReads) :
    Except SchedulerError (Db Payload) := do
  let available := service.availableAfter job failure clock
  let db ← db.fencedUpdate job clock.checked fun row =>
    row.release (job.failureStatus failure) available clock.written
  let db := db.modifyAttempt (job.jobId, job.attemptNumber) fun attempt =>
    attempt.fail failure (if job.retries failure then some available else none) clock.written
  service.addEvents db (service.failureEvents job failure clock)

/-! ### `recover_expired_claims` -/

/-- The rows whose lease has expired and that no other transaction holds, the longest expired
first. -/
def Db.expired (db : Db Payload) (locked : List String) (now : Datetime) : List (JobRow Payload) :=
  (db.jobs.rows.filter fun row =>
    (row.status = .claimed || row.status = .running) &&
      row.claimExpiresAt.any (fun expires => expires < now) &&
      decide (row.jobId ∉ locked)).insertionSort fun a b => a.claimExpiresAt.getD 0 ≤
        b.claimExpiresAt.getD 0

/-- The row after its claim was recovered. -/
def JobRow.recover (row : JobRow Payload) (written : Datetime) : JobRow Payload :=
  row.release (if row.attemptNumber < row.maxAttempts then .retryWait else .retriesExhausted)
    written written

/-- `recover_expired_claims`. -/
def Db.recoverExpiredClaims (db : Db Payload) (limit : ℤ) (locked : List String)
    (clock : ClockReads) : Except SchedulerError (Db Payload × List (JobRow Payload)) :=
  if limit < 0 then .error .negativeLimit
  else do
    let expired := (db.expired locked clock.checked).take limit.toNat
    let db ← db.updateJobs (expired.map fun row => row.recover clock.written)
    return (db, expired)

end ScheduledJobs
