/-
**The scheduler's tables.**

The rows of `scheduler_jobs`, `scheduler_attempts` and `scheduler_outbox`, the values
`SchedulerService` is called with, and what a transaction can fail with.  Documents (`jsonb`
columns) are opaque to the scheduler and are a type variable here.

Primary keys are carried by the tables themselves, and `CHECK (max_attempts > 0)` by the rows; the
remaining constraints are `JobRow.checks` and `AttemptRow.checks`, which every write of a row tests.

Main definitions:

* `JobStatus`, `JobRow`, `AttemptRow`, `OutboxRow`, `Db` — the schema;
* `JobSubmission`, `ClaimedJob`, `HandlerError` — the values the service exchanges with workers;
* `ClockReads` — the readings of `clock_timestamp()` in one transaction;
* `SchedulerError` — why a transaction is rolled back;
* `SchedulerService` — the parameters of the service;
* `uuidText`, `defaultService` — a supply of UUIDs, and the service with its defaults.
-/

import ScheduledJobs.Table
import ScheduledJobs.WireCodec
import Mathlib.Data.Nat.Digits.Defs

set_option relaxedAutoImplicit false
set_option autoImplicit false

namespace ScheduledJobs

/-! ### `scheduler_jobs` -/

/-- The texts of the column `status`. -/
inductive JobStatus
  | pending
  | claimed
  | running
  | retryWait
  | succeeded
  | failed
  | retriesExhausted
  deriving DecidableEq, Repr

def JobStatus.value : JobStatus → String
  | pending => "PENDING"
  | claimed => "CLAIMED"
  | running => "RUNNING"
  | retryWait => "RETRY_WAIT"
  | succeeded => "SUCCEEDED"
  | failed => "FAILED"
  | retriesExhausted => "RETRIES_EXHAUSTED"

/-- The job is finished. -/
def JobStatus.isFinal : JobStatus → Bool
  | succeeded | failed | retriesExhausted => true
  | _ => false

/-- A row of `scheduler_jobs`. -/
structure JobRow (Payload : Type) where
  jobId : String
  correlationId : String
  jobType : String
  payload : Option Payload
  payloadReference : Option String
  scheduledAt : Datetime
  availableAt : Datetime
  status : JobStatus
  attemptNumber : ℕ := 0
  maxAttempts : ℕ
  claimedBy : Option String := none
  claimToken : Option String := none
  claimedAt : Option Datetime := none
  claimExpiresAt : Option Datetime := none
  createdAt : Datetime
  updatedAt : Datetime
  version : ℕ := 0
  /-- `CHECK (max_attempts > 0)`. -/
  maxAttempts_pos : 0 < maxAttempts

/-- The other constraints of the table. -/
def JobRow.checks {Payload : Type} (row : JobRow Payload) : Bool :=
  (row.payload.isNone != row.payloadReference.isNone) &&
    (row.claimToken.isNone == row.claimedBy.isNone) &&
    decide (row.scheduledAt ≤ row.availableAt) &&
    (row.claimToken.isNone == row.claimExpiresAt.isNone)

/-! ### `scheduler_attempts` -/

/-- The texts of the column `outcome`. -/
inductive Outcome
  | succeeded
  | failed
  deriving DecidableEq, Repr

def Outcome.value : Outcome → String
  | succeeded => "SUCCEEDED"
  | failed => "FAILED"

/-- A row of `scheduler_attempts`. -/
structure AttemptRow (Payload : Type) where
  jobId : String
  attemptNumber : ℕ
  claimToken : Option String := none
  claimedBy : Option String := none
  claimedAt : Option Datetime := none
  startedAt : Option Datetime := none
  completedAt : Option Datetime := none
  outcome : Option Outcome := none
  retryable : Option Bool := none
  errorCode : Option String := none
  resultSummary : Option Payload := none
  nextRetryAt : Option Datetime := none

/-- `PRIMARY KEY (job_id, attempt_number)`. -/
def AttemptRow.key {Payload : Type} (row : AttemptRow Payload) : String × ℕ :=
  (row.jobId, row.attemptNumber)

/-- `CHECK (attempt_number > 0)`. -/
def AttemptRow.checks {Payload : Type} (row : AttemptRow Payload) : Bool :=
  decide (0 < row.attemptNumber)

/-! ### `scheduler_outbox` -/

/-- A row of `scheduler_outbox`, as the scheduler inserts it.  The columns `canonical_payload` and
`payload_hash` are what `canonical_edr` makes of the event. -/
structure OutboxRow where
  topic : String
  event : Event
  /-- The event has a canonical payload. -/
  encodable : event.Encodable
  deriving DecidableEq

/-- `PRIMARY KEY` of the table. -/
def OutboxRow.eventId (row : OutboxRow) : String := row.event.eventId

/-- The column `message_key`. -/
def OutboxRow.messageKey (row : OutboxRow) : String := row.event.jobId

/-- The scheduler's database.  `draws` counts the UUIDs that were drawn so far. -/
structure Db (Payload : Type) where
  jobs : Table (JobRow.jobId : JobRow Payload → String) := .empty
  attempts : Table (AttemptRow.key : AttemptRow Payload → String × ℕ) := .empty
  outbox : Table OutboxRow.eventId := .empty
  draws : ℕ := 0

/-! ### Values exchanged with workers -/

/-- A submission, with what its constructor checks. -/
structure JobSubmission (Payload : Type) where
  jobId : String
  correlationId : String
  jobType : String
  scheduledAt : Datetime
  payload : Option Payload
  payloadReference : Option String := none
  maxAttempts : ℕ := 3
  /-- `job_id, correlation_id, and job_type are required`. -/
  required : jobId ≠ "" ∧ correlationId ≠ "" ∧ jobType ≠ "" := by decide
  /-- `max_attempts must be positive`. -/
  maxAttempts_pos : 0 < maxAttempts := by first | exact defaultMaxAttempts_pos | decide
  /-- `exactly one of payload and payload_reference is required`. -/
  payload_xor : payload.isNone ≠ payloadReference.isNone := by decide

/-- A claim, as a worker holds it. -/
@[ext] structure ClaimedJob (Payload : Type) where
  jobId : String
  correlationId : String
  jobType : String
  payload : Option Payload
  payloadReference : Option String
  scheduledAt : Datetime
  attemptNumber : ℕ
  maxAttempts : ℕ
  claimedBy : String
  claimToken : String
  claimExpiresAt : Datetime
  maxAttempts_pos : 0 < maxAttempts

instance {Payload : Type} [DecidableEq Payload] : DecidableEq (ClaimedJob Payload) := fun _ _ =>
  decidable_of_iff _ ClaimedJob.ext_iff.symm

/-- The exception a handler raises, with the fields the scheduler records. -/
structure HandlerError where
  code : String
  retryable : Bool
  deriving DecidableEq, Repr

/-! ### Transactions -/

/-- The readings of `clock_timestamp()` in one transaction: the first one, those that rows are
selected by, and those that are written. -/
structure ClockReads where
  now : Datetime
  checked : Datetime
  written : Datetime
  now_le_checked : now ≤ checked := by decide
  checked_le_written : checked ≤ written := by decide
  deriving DecidableEq, Repr

theorem ClockReads.now_le_written (clock : ClockReads) : clock.now ≤ clock.written :=
  Int.le_trans clock.now_le_checked clock.checked_le_written

/-- A transaction during which the clock stands still. -/
def ClockReads.instant (t : Datetime) : ClockReads where
  now := t
  checked := t
  written := t
  now_le_checked := Int.le_refl t
  checked_le_written := Int.le_refl t

/-- Why a transaction is rolled back. -/
inductive SchedulerError
  /-- `StaleClaimError`. -/
  | staleClaim (jobId : String)
  /-- A primary key is taken. -/
  | uniqueViolation
  /-- A `CHECK` constraint fails. -/
  | checkViolation
  /-- `LIMIT must not be negative`. -/
  | negativeLimit
  /-- `canonical_edr` raises `OverflowError`. -/
  | overflow
  deriving DecidableEq, Repr

inductive SubmissionDecision
  | created
  | identical
  | conflict
  deriving DecidableEq, Repr

def SubmissionDecision.value : SubmissionDecision → String
  | created => "CREATED"
  | identical => "IDENTICAL"
  | conflict => "CONFLICT"

/-- The default `retry_delay`: `timedelta(seconds=min(300, 2**attempt))`. -/
def defaultRetryDelay (attempt : ℕ) : Timedelta := seconds (min 300 (2 ^ attempt))

/-- The parameters of the service, and the supply that `uuid4()` and `gen_random_uuid()` draw
from, in which no value occurs twice. -/
structure SchedulerService where
  topic : String := "job-lifecycle-edr.v1"
  claimLeaseSeconds : ℤ := 60
  retryDelay : ℕ → Timedelta := defaultRetryDelay
  uuid : ℕ → String
  uuid_injective : Function.Injective uuid

/-! ### A supply of UUIDs -/

/-- The last twelve hexadecimal digits of the text of a UUID, the lowest one first; there are more
of them once the supply has outgrown twelve. -/
def uuidDigits (n : ℕ) : List ℕ :=
  Nat.digits 16 n ++ List.replicate (12 - (Nat.digits 16 n).length) 0

/-- The fixed part of the texts of the supply. -/
def uuidPrefix : String := "00000000-0000-4000-8000-"

/-- The text of the `n`-th UUID of a supply that counts. -/
def uuidText (n : ℕ) : String :=
  uuidPrefix ++ String.ofList ((uuidDigits n).map Nat.digitChar).reverse

theorem ofDigits_uuidDigits (n : ℕ) : Nat.ofDigits 16 (uuidDigits n) = n := by
  rw [uuidDigits, Nat.ofDigits_append, Nat.ofDigits_digits]
  simp [Nat.ofDigits_replicate_zero]

theorem uuidDigits_lt {n d : ℕ} (h : d ∈ uuidDigits n) : d < 16 := by
  rcases List.mem_append.1 h with h | h
  · exact Nat.digits_lt_base (by decide) h
  · rw [List.eq_of_mem_replicate h]
    decide

/-- The digits are read back from their characters. -/
theorem filterMap_hexValue? (n : ℕ) :
    ((uuidDigits n).map Nat.digitChar).filterMap Numerals.hexValue? = uuidDigits n := by
  rw [List.filterMap_map]
  conv_rhs => rw [← List.filterMap_some (l := uuidDigits n)]
  refine List.filterMap_congr fun d hd => ?_
  exact Numerals.hexValue?_digitChar d (uuidDigits_lt hd)

theorem toList_uuidText (n : ℕ) :
    (uuidText n).toList = uuidPrefix.toList ++ ((uuidDigits n).map Nat.digitChar).reverse := by
  rw [uuidText, String.toList_append, String.toList_ofList]

/-- The supply draws no text twice. -/
theorem uuidText_injective : Function.Injective uuidText := by
  intro n m h
  have hchars : (uuidText n).toList = (uuidText m).toList := congrArg String.toList h
  rw [toList_uuidText, toList_uuidText] at hchars
  have hlist := List.reverse_injective (List.append_cancel_left hchars)
  have hdigits : uuidDigits n = uuidDigits m := by
    rw [← filterMap_hexValue? n, hlist, filterMap_hexValue?]
  rw [← ofDigits_uuidDigits n, hdigits, ofDigits_uuidDigits]

/-- The service with its default parameters, drawing from the supply that counts. -/
def defaultService : SchedulerService where
  uuid := uuidText
  uuid_injective := uuidText_injective

end ScheduledJobs
