/-
**Reservations that outlive their jobs.**

`apply_once` reserves the record for the operation of its job before it finishes it, and nothing but
a finish of the same operation takes the reservation back.  An attempt that reserves the record and
does not finish it leaves the reservation to the next attempt of the job; the number of attempts is
counted in another database.  When the last attempt is given up between the two statements, nobody
takes the reservation back, and no other job can reserve the record.

This module puts the scheduler and the record together: each execution of a claim starts it, runs
the statements of `apply_once` one by one, and records the outcome.

Main definitions:

* `Execution`, `World`, `machine` — **the scheduler with the Cassandra handler, over any number of
  jobs on one record**;
* `NoOrphanReservation` — what is promised of every reachable state;
* `AbandonsReservation` — **the steps that give up a job while the record is reserved for it**.

Main results:

* `givenUp_of_next` — what gives up a job in the scheduler;
* `NoOrphanReservation.next`, `AbandonsReservation.orphans` — the step lemmas;
* `noOrphanReservation_iff` — **no reservation is orphaned throughout a run exactly when no step of
  it abandons one**.
-/

import ScheduledJobs.CassandraExactlyOnce
import ScheduledJobs.OutboxCompleteness
import ScheduledJobs.RetriesSpent

set_option relaxedAutoImplicit false
set_option autoImplicit false

namespace ScheduledJobs

/-- The name the UUID of `stable_operation_id` is made from, which stands for it here. -/
def stableOperationId (jobId : String) : String :=
  "job-visibility:cassandra-fib-update:v1:" ++ jobId

theorem stableOperationId_injective : Function.Injective stableOperationId := fun _ _ =>
  String.append_right_inj _ |>.1

/-- The job has ended without success. -/
def JobStatus.isGivenUp : JobStatus → Bool
  | failed | retriesExhausted => true
  | _ => false

namespace Workload

open Cassandra (Call Pc Response Store)

variable {Payload : Type}

/-! ### Executions -/

/-- How far an execution is: inside `apply_once` or the read before it, or about to record its
outcome. -/
inductive Stage
  | handling (pc : Pc String)
  | failing (failure : HandlerError)
  | succeeding
  deriving DecidableEq

/-- A call of `SchedulerService.execute`, by the number of the worker that makes it. -/
structure Execution (Payload : Type) where
  worker : ℕ
  job : ClaimedJob Payload
  fibonacciResult : String
  stage : Stage

/-- What the handler raises before it reads or writes a record. -/
def refusals : List HandlerError :=
  ["INVALID_DATASET", "INVALID_RECORD_COUNT", "INVALID_SEED", "INVALID_PROCESSING_DELAY",
    "RECORD_COUNT_MISMATCH", "INPUT_BOUND_EXCEEDED"].map fun code => ⟨code, false⟩

/-- What becomes of the handler: it goes on, returns, or raises.  An exception of `apply_once` is a
`CASSANDRA_OPERATION_FAILED`; one of `select_records` is not caught by the handler. -/
def Stage.after (before : Pc String) : Pc String → Stage
  | .returned true _ => .succeeding
  | .returned false _ => .failing ⟨"CASSANDRA_CONDITIONAL_CONFLICT", true⟩
  | .raised =>
      if before = .selectRecord then .failing ⟨"UNEXPECTED_HANDLER_ERROR", true⟩
      else .failing ⟨"CASSANDRA_OPERATION_FAILED", true⟩
  | pc => .handling pc

/-- The call of `apply_once` an execution makes. -/
def Execution.call (e : Execution Payload) (pc : Pc String) : Call String where
  operationId := stableOperationId e.job.jobId
  fibonacciResult := e.fibonacciResult
  pc := pc

/-- The scheduler, the record, and the executions that are not over. -/
structure World (Payload : Type) where
  scheduler : ScheduledJobs.World Payload
  store : Store String
  executions : Table (@Execution.worker Payload)

/-- What happens next: a transaction of the scheduler outside executions, the start of an execution,
a refusal by the handler, the next statement on the record, the transaction that records an outcome,
or the death of a worker. -/
inductive Label (Payload : Type)
  | scheduler (l : ScheduledJobs.Label Payload)
  | execute (worker : ℕ) (job : ClaimedJob Payload) (fibonacciResult : String) (clock : ClockReads)
      (committed : Bool)
  | refuse (worker : ℕ) (failure : HandlerError)
  | statement (worker : ℕ) (r : Response)
  | outcome (worker : ℕ) (summary : Payload) (clock : ClockReads) (committed : Bool)
  | crash (worker : ℕ)

/-- The calls that are not made by executions. -/
def isQueueCall : Operation Payload → Bool
  | .submitChecked _ | .claimDue _ _ _ | .heartbeat _ | .recoverExpiredClaims _ _ => true
  | .start _ | .succeed _ _ | .fail _ _ => false

/-- The call that records the outcome of an execution. -/
def Execution.outcome? (e : Execution Payload) (summary : Payload) : Option (Operation Payload) :=
  match e.stage with
  | .handling _ => none
  | .failing failure => some (.fail e.job failure)
  | .succeeding => some (.succeed e.job summary)

namespace World

/-- The execution is at another stage. -/
def moveTo (w : World Payload) (e : Execution Payload) (stage : Stage) : World Payload :=
  { w with executions := w.executions.replace { e with stage := stage } }

/-- The worker executes nothing. -/
def release (w : World Payload) (worker : ℕ) : World Payload :=
  { w with executions := w.executions.deleteWhere fun e => e.worker = worker }

/-- The jobs that are being executed. -/
def executing (w : World Payload) : List String := w.executions.rows.map fun e => e.job.jobId

/-- The record is reserved for the job. -/
def Reserved (w : World Payload) (jobId : String) : Prop :=
  w.store.row.pendingOperationId = some (stableOperationId jobId)

instance (w : World Payload) (jobId : String) : Decidable (w.Reserved jobId) :=
  inferInstanceAs (Decidable (_ = _))

variable [DecidableEq Payload]

/-- A transaction committed. -/
def commits (service : SchedulerService) (w : World Payload) (l : ScheduledJobs.Label Payload) :
    Bool :=
  l.committed && (service.perform w.scheduler.db l.clock l.operation).toOption.isSome

/-- The successor of a world. -/
def next (service : SchedulerService) (w : World Payload) : Label Payload → Option (World Payload)
  | .scheduler l =>
      if isQueueCall l.operation then
        (w.scheduler.next service l).map fun scheduler => { w with scheduler := scheduler }
      else none
  | .execute worker job fibonacciResult clock committed =>
      -- an exception of the start leaves `execute` before the handler is called
      (w.executions.insert? ⟨worker, job, fibonacciResult, .handling .selectRecord⟩).bind
        fun executions =>
          (w.scheduler.next service ⟨.start job, clock, committed⟩).map fun scheduler =>
            { w with
              scheduler := scheduler
              executions :=
                if w.commits service ⟨.start job, clock, committed⟩ then executions
                else w.executions }
  | .refuse worker failure =>
      (w.executions.find? worker).bind fun e =>
        if e.stage = .handling .selectRecord ∧ failure ∈ refusals then
          some (w.moveTo e (.failing failure))
        else none
  | .statement worker r =>
      (w.executions.find? worker).bind fun e =>
        match e.stage with
        | .handling pc =>
            ((e.call pc).step w.store r).map fun result =>
              { w.moveTo e (Stage.after pc result.2.pc) with store := result.1 }
        | .failing _ | .succeeding => none
  | .outcome worker summary clock committed =>
      (w.executions.find? worker).bind fun e =>
        (e.outcome? summary).bind fun operation =>
          -- a claim that is no longer current ends the execution with an exception
          (w.scheduler.next service ⟨operation, clock, committed⟩).map fun scheduler =>
            { w.release worker with scheduler := scheduler }
  | .crash worker => (w.executions.find? worker).map fun _ => w.release worker

end World

/-- **The scheduler with the Cassandra handler**, over any number of jobs on one seeded record. -/
def machine [DecidableEq Payload] (service : SchedulerService) (seed : Cassandra.WorkloadRecord) :
    Machine (World Payload) (Label Payload) where
  start := ⟨(schedulerMachine service).start, Store.seeded seed, .empty⟩
  next := World.next service

/-! ### What is promised, and what breaks it -/

/-- **A job that has ended without success, and that nobody executes, does not hold the record.** -/
def NoOrphanReservation (w : World Payload) : Prop :=
  ∀ jobId row, w.scheduler.db.jobs.find? jobId = some row → row.status.isGivenUp = true →
    jobId ∉ w.executing → ¬ w.Reserved jobId

/-- The rows a call takes the claim of, because it has expired. -/
def recovers (db : Db Payload) (now : Datetime) : Operation Payload → List (JobRow Payload)
  | .recoverExpiredClaims limit locked => (db.expired locked now).take limit.toNat
  | _ => []

/-- The execution is about to record a failure that is not retried. -/
def Execution.givesUp (e : Execution Payload) : Bool :=
  match e.stage with
  | .failing failure => !e.job.retries failure
  | _ => false

/-- **The step gives up a job while the record is reserved for it**: a recovery takes its last
attempt while nobody executes it; or its only execution records a failure that is not retried, in a
transaction that commits; or its only execution ends, in whatever way, after the job was given
up. -/
def AbandonsReservation [DecidableEq Payload] (service : SchedulerService) (w : World Payload) :
    Label Payload → Prop
  | .scheduler l =>
      l.committed = true ∧ ∃ row ∈ recovers w.scheduler.db l.clock.checked l.operation,
        row.maxAttempts ≤ row.attemptNumber ∧ row.jobId ∉ w.executing ∧ w.Reserved row.jobId
  | .outcome worker summary clock committed =>
      ∃ e ∈ w.executions.find? worker, w.Reserved e.job.jobId ∧
        e.job.jobId ∉ (w.release worker).executing ∧
        ((∃ row ∈ w.scheduler.db.jobs.find? e.job.jobId, row.status.isGivenUp = true) ∨
          e.givesUp = true ∧ ∃ operation ∈ e.outcome? summary,
            w.commits service ⟨operation, clock, committed⟩ = true)
  | .crash worker =>
      ∃ e ∈ w.executions.find? worker, w.Reserved e.job.jobId ∧
        e.job.jobId ∉ (w.release worker).executing ∧
        ∃ row ∈ w.scheduler.db.jobs.find? e.job.jobId, row.status.isGivenUp = true
  | .execute _ _ _ _ _ | .refuse _ _ | .statement _ _ => False

instance [DecidableEq Payload] (service : SchedulerService) (w : World Payload)
    (l : Label Payload) : Decidable (AbandonsReservation service w l) :=
  match l with
  | .scheduler _ => inferInstanceAs (Decidable (_ ∧ ∃ row ∈ recovers _ _ _, _ ∧ _))
  | .outcome .. => inferInstanceAs (Decidable (∃ e ∈ w.executions.find? _, _ ∧ _ ∧
      ((∃ row ∈ _, _) ∨ _ ∧ ∃ operation ∈ _, _)))
  | .crash _ => inferInstanceAs (Decidable (∃ e ∈ w.executions.find? _, _ ∧ _ ∧ ∃ row ∈ _, _))
  | .execute .. | .refuse .. | .statement .. => isFalse id

/-! ### What gives up a job -/

variable {service : SchedulerService}

/-- What gives up a job, among what a transaction can do to it. -/
theorem givenUp_of_jobStep {clock : ClockReads} {op : Operation Payload} {v v' : JobView Payload}
    (hs : JobStep service clock op v v') {row' : JobRow Payload} (hrow' : v'.row = some row')
    (hgiven : row'.status.isGivenUp = true)
    (hnot : ∀ row, v.row = some row → row.status.isGivenUp = false) :
    ∃ row, v.row = some row ∧
      ((∃ job failure, op = .fail job failure ∧ job ∈ v.claims ∧ job.retries failure = false ∧
          job.IsCurrent row clock.checked) ∨
        v'.recovered ≠ v.recovered ∧ row.maxAttempts ≤ row.attemptNumber) := by
  cases hs with
  | idle => exact absurd hgiven (by rw [hnot row' hrow']; decide)
  | submitted =>
      obtain rfl := Option.some_inj.1 hrow'
      cases hgiven
  | claimed =>
      obtain rfl := Option.some_inj.1 hrow'
      cases hgiven
  | started =>
      obtain rfl := Option.some_inj.1 hrow'
      cases hgiven
  | heartbeat _ hrow =>
      obtain rfl := Option.some_inj.1 hrow'
      exact absurd ((hnot _ hrow).symm.trans hgiven) (by decide)
  | succeeded =>
      obtain rfl := Option.some_inj.1 hrow'
      cases hgiven
  | @failed job failure _ row _ hjob hrow hcur =>
      refine ⟨row, hrow, Or.inl ⟨job, failure, rfl, hjob, ?_, hcur⟩⟩
      obtain rfl := Option.some_inj.1 hrow'
      cases hretries : job.retries failure with
      | false => rfl
      | true =>
          rw [JobRow.release, ClaimedJob.failureStatus, hretries] at hgiven
          cases hgiven
  | @recovered _ _ _ row hrow =>
      refine ⟨row, hrow, Or.inr ⟨by simp, ?_⟩⟩
      obtain rfl := Option.some_inj.1 hrow'
      by_contra hleft
      rw [JobRow.recover, if_pos (Nat.lt_of_not_le hleft)] at hgiven
      cases hgiven

variable [DecidableEq Payload]

/-- **What gives up a job in the scheduler**, unless it was given up before: the failure of its
current claim that is not retried, or a recovery of its last attempt. -/
theorem givenUp_of_next {s s' : ScheduledJobs.World Payload} {l : ScheduledJobs.Label Payload}
    (hn : s.next service l = some s') {jobId : String} {row' : JobRow Payload}
    (hrow' : s'.db.jobs.find? jobId = some row') (hgiven : row'.status.isGivenUp = true) :
    ∃ row, s.db.jobs.find? jobId = some row ∧ (row.status.isGivenUp = true ∨
      (l.committed = true ∧ ∃ effect, service.perform s.db l.clock l.operation = .ok effect) ∧
        ((∃ job failure, l.operation = .fail job failure ∧ job.jobId = jobId ∧
            job.retries failure = false ∧ job.IsCurrent row l.clock.checked) ∨
          ∃ limit locked, l.operation = .recoverExpiredClaims limit locked ∧
            row ∈ (s.db.expired locked l.clock.checked).take limit.toNat ∧
            row.maxAttempts ≤ row.attemptNumber)) := by
  by_cases hold : ∃ row, s.db.jobs.find? jobId = some row ∧ row.status.isGivenUp = true
  · obtain ⟨row, hrow, hstatus⟩ := hold
    exact ⟨row, hrow, Or.inl hstatus⟩
  · simp only [not_exists, not_and, Bool.not_eq_true] at hold
    have hcommitted : l.committed = true ∧
        ∃ effect, service.perform s.db l.clock l.operation = .ok effect := by
      obtain ⟨-, -, ⟨effect, hcommitted, hperform, -⟩ | ⟨-, rfl⟩⟩ := World.next_cases hn
      · exact ⟨hcommitted, effect, hperform⟩
      · exact absurd ((hold row' hrow').symm.trans hgiven) (by decide)
    obtain ⟨row, hrow, hfailed | ⟨hrecovered, hspent⟩⟩ :=
      givenUp_of_jobStep (view_step hn jobId) hrow' hgiven hold
    · obtain ⟨job, failure, hop, hjob, hretries, hcur⟩ := hfailed
      have hid : job.jobId = jobId := of_decide_eq_true (List.mem_filter.1 hjob).2
      exact ⟨row, hrow, Or.inr ⟨hcommitted, Or.inl ⟨job, failure, hop, hid, hretries, hcur⟩⟩⟩
    · obtain ⟨-, limit, locked, hop, htaken⟩ := mem_expired_of_recovered hn hrecovered
      refine ⟨row, hrow, Or.inr ⟨hcommitted, Or.inr ⟨limit, locked, hop, ?_, hspent⟩⟩⟩
      -- the row with this id among those that are taken is the row of the job
      obtain ⟨taken, hmem, hid⟩ := List.mem_map.1 htaken
      obtain rfl : taken = row := Table.eq_of_key_eq (mem_expired hmem).1 (Table.mem_of_find? hrow)
        (hid.trans (Table.key_of_find? hrow).symm)
      exact hmem

/-! ### One step -/

section Executions

variable {w : World Payload} {worker : ℕ} {e : Execution Payload}

omit [DecidableEq Payload] in
theorem executing_moveTo (he : w.executions.find? worker = some e) (stage : Stage) :
    (w.moveTo e stage).executing = w.executing := by
  simp only [World.executing, World.moveTo, Table.replace, List.map_map]
  refine List.map_congr_left fun old hmem => ?_
  simp only [Function.comp_apply]
  split
  · next heq => rw [Table.eq_of_key_eq hmem (Table.mem_of_find? he) heq]
  · rfl

omit [DecidableEq Payload] in
theorem mem_executing (he : w.executions.find? worker = some e) : e.job.jobId ∈ w.executing :=
  List.mem_map.2 ⟨e, Table.mem_of_find? he, rfl⟩

omit [DecidableEq Payload] in
/-- A job that is executed, but not by the other workers, is executed by this one. -/
theorem jobId_of_notMem_release {jobId : String} (he : w.executions.find? worker = some e)
    (hmem : jobId ∈ w.executing) (hnot : jobId ∉ (w.release worker).executing) :
    e.job.jobId = jobId := by
  obtain ⟨other, hother, rfl⟩ := List.mem_map.1 hmem
  by_cases hworker : other.worker = worker
  · rw [Table.eq_of_key_eq (Table.mem_of_find? he) hother
      ((Table.key_of_find? he).trans hworker.symm)]
  · refine absurd (List.mem_map.2 ⟨other, List.mem_filter.2 ⟨hother, ?_⟩, rfl⟩) hnot
    simpa using hworker

omit [DecidableEq Payload] in
/-- A statement of an execution reserves the record for its own job, if for any. -/
theorem reserved_of_step {pc : Pc String} {r : Response} {st : Store String} {call : Call String}
    (hstep : (e.call pc).step w.store r = some (st, call)) {jobId : String}
    (hreserved : st.row.pendingOperationId = some (stableOperationId jobId)) :
    w.Reserved jobId ∨ e.job.jobId = jobId := by
  obtain ⟨-, ⟨hrow, -⟩ | ⟨record, state, -, -, -, rfl⟩ | ⟨record, -, -, -, hnone, -⟩⟩ :=
    Cassandra.Call.step_cases hstep
  · exact Or.inl (by rw [World.Reserved, ← hrow, hreserved])
  · exact Or.inr (stableOperationId_injective (Option.some_inj.1 hreserved))
  · rw [hnone] at hreserved
    cases hreserved

end Executions

omit [DecidableEq Payload] in
/-- The failure an execution records is that of its handler. -/
theorem givesUp_of_outcome? {e : Execution Payload} {summary : Payload} {job : ClaimedJob Payload}
    {failure : HandlerError} (h : e.outcome? summary = some (.fail job failure))
    (hretries : job.retries failure = false) : e.givesUp = true ∧ e.job = job := by
  unfold Execution.outcome? at h
  split at h
  · cases h
  · next failure' hstage =>
      cases h
      simp [Execution.givesUp, hstage, hretries]
  · cases h

omit [DecidableEq Payload] in
/-- An execution that gives up records a failure that is not retried. -/
theorem outcome?_of_givesUp {e : Execution Payload} {summary : Payload}
    {operation : Operation Payload} (hgives : e.givesUp = true)
    (h : e.outcome? summary = some operation) :
    ∃ failure, operation = .fail e.job failure ∧ e.job.retries failure = false := by
  unfold Execution.givesUp at hgives
  unfold Execution.outcome? at h
  split at hgives
  · next failure hstage =>
      rw [hstage] at h
      exact ⟨failure, (Option.some_inj.1 h).symm, by simpa using hgives⟩
  · cases hgives

/-- A call that succeeds, in a transaction that commits. -/
theorem commits_iff {w : World Payload} {l : ScheduledJobs.Label Payload} :
    w.commits service l = true ↔
      l.committed = true ∧ ∃ effect, service.perform w.scheduler.db l.clock l.operation =
        .ok effect := by
  unfold World.commits
  cases service.perform w.scheduler.db l.clock l.operation <;> simp [Except.toOption]

/-- **A step that abandons no reservation orphans none.** -/
theorem NoOrphanReservation.next {w w' : World Payload} {l : Label Payload}
    (h : NoOrphanReservation w) (hnot : ¬ AbandonsReservation service w l)
    (hn : w.next service l = some w') : NoOrphanReservation w' := by
  intro jobId row' hrow' hgiven hidle hreserved
  cases l with
  | scheduler l =>
      simp only [World.next] at hn
      split at hn
      · next hqueue =>
          obtain ⟨s, hs, rfl⟩ := Option.map_eq_some_iff.1 hn
          obtain ⟨row, hrow, hold | ⟨hcommitted, hends⟩⟩ := givenUp_of_next hs hrow' hgiven
          · exact h jobId row hrow hold hidle hreserved
          · rcases hends with ⟨job, failure, hop, -⟩ | ⟨limit, locked, hop, htaken, hspent⟩
            · rw [hop] at hqueue
              cases hqueue
            · obtain rfl := Table.key_of_find? hrow
              refine hnot ⟨hcommitted.1, ?_⟩
              rw [hop]
              exact ⟨row, htaken, hspent, hidle, hreserved⟩
      · cases hn
  | execute worker job fibonacciResult clock committed =>
      obtain ⟨executions, hinsert, hstart⟩ := Option.bind_eq_some_iff.1 hn
      obtain ⟨s, hs, rfl⟩ := Option.map_eq_some_iff.1 hstart
      have hexecuting : jobId ∉ w.executing := by
        refine fun hmem => hidle ?_
        simp only [World.executing]
        split
        · rw [(Table.insert?_eq_some_iff.1 hinsert).2, List.map_append]
          exact List.mem_append_left _ hmem
        · exact hmem
      obtain ⟨row, hrow, hold | ⟨-, hends⟩⟩ := givenUp_of_next hs hrow' hgiven
      · exact h jobId row hrow hold hexecuting hreserved
      · rcases hends with ⟨_, _, hop, -⟩ | ⟨_, _, hop, -⟩ <;> cases hop
  | refuse worker failure =>
      obtain ⟨e, he, hmove⟩ := Option.bind_eq_some_iff.1 hn
      split at hmove
      · obtain rfl := Option.some_inj.1 hmove
        rw [executing_moveTo he] at hidle
        exact h jobId row' hrow' hgiven hidle hreserved
      · cases hmove
  | statement worker r =>
      obtain ⟨e, he, hstatement⟩ := Option.bind_eq_some_iff.1 hn
      split at hstatement
      · next pc hpc =>
          obtain ⟨⟨st, call⟩, hstep, rfl⟩ := Option.map_eq_some_iff.1 hstatement
          have hexecuting : jobId ∉ w.executing := by rwa [← executing_moveTo he]
          rcases reserved_of_step hstep hreserved with hold | rfl
          · exact h jobId row' hrow' hgiven hexecuting hold
          · exact hexecuting (mem_executing he)
      · cases hstatement
      · cases hstatement
  | outcome worker summary clock committed =>
      obtain ⟨e, he, hrecord⟩ := Option.bind_eq_some_iff.1 hn
      obtain ⟨operation, houtcome, hcommit⟩ := Option.bind_eq_some_iff.1 hrecord
      obtain ⟨s, hs, rfl⟩ := Option.map_eq_some_iff.1 hcommit
      obtain ⟨row, hrow, hold | ⟨hcommitted, hends⟩⟩ := givenUp_of_next hs hrow' hgiven
      · by_cases hmem : jobId ∈ w.executing
        · obtain rfl := jobId_of_notMem_release he hmem hidle
          exact hnot ⟨e, he, hreserved, hidle, Or.inl ⟨row, hrow, hold⟩⟩
        · exact h jobId row hrow hold hmem hreserved
      · rcases hends with ⟨job, failure, hop, rfl, hretries, -⟩ | ⟨_, _, hop, -⟩
        · obtain rfl : operation = .fail job failure := hop
          obtain ⟨hgives, rfl⟩ := givesUp_of_outcome? houtcome hretries
          exact hnot ⟨e, he, hreserved, hidle,
            Or.inr ⟨hgives, _, houtcome, commits_iff.2 hcommitted⟩⟩
        · obtain rfl : operation = _ := hop
          unfold Execution.outcome? at houtcome
          split at houtcome <;> cases houtcome
  | crash worker =>
      obtain ⟨e, he, rfl⟩ := Option.map_eq_some_iff.1 hn
      by_cases hmem : jobId ∈ w.executing
      · obtain rfl := jobId_of_notMem_release he hmem hidle
        exact hnot ⟨e, he, hreserved, hidle, row', hrow', hgiven⟩
      · exact h jobId row' hrow' hgiven hmem hreserved

/-- A failure that is not retried and commits gives up its job. -/
theorem givenUp_of_fail {s s' : ScheduledJobs.World Payload} {l : ScheduledJobs.Label Payload}
    (hn : s.next service l = some s') {job : ClaimedJob Payload} {failure : HandlerError}
    (hop : l.operation = .fail job failure) (hretries : job.retries failure = false)
    (hcommits : l.committed = true ∧
      ∃ effect, service.perform s.db l.clock l.operation = .ok effect) :
    ∃ row, s'.db.jobs.find? job.jobId = some row ∧ row.status.isGivenUp = true := by
  obtain ⟨hcommitted, effect, hperform⟩ := hcommits
  obtain ⟨-, -, ⟨effect', -, hperform', rfl⟩ | ⟨herror, -⟩⟩ := World.next_cases hn
  · rw [hop] at hperform'
    simp only [SchedulerService.perform, SchedulerService.fail, Except.bind_eq_ok_iff]
      at hperform'
    obtain ⟨db, ⟨fenced, hfence, hadd⟩, heffect⟩ := hperform'
    cases heffect
    obtain ⟨row, -, -, -, -, -, -, hjobs⟩ := fencedUpdate_eq_ok hfence fun _ => rfl
    obtain ⟨hjobs', -⟩ := addEvents_eq_ok hadd
    have hrow : db.jobs.find? job.jobId = some (row.release (job.failureStatus failure)
        (service.availableAfter job failure l.clock) l.clock.written) := by
      rw [hjobs', Db.jobs_modifyAttempt, hjobs, if_pos rfl]
    refine ⟨_, hrow, ?_⟩
    simp only [JobRow.release, ClaimedJob.failureStatus, hretries]
    cases failure.retryable <;> rfl
  · obtain ⟨e, he⟩ := herror hcommitted
    rw [hperform] at he
    cases he

/-- A job that was given up stays so. -/
theorem givenUp_stays {s s' : ScheduledJobs.World Payload} {l : ScheduledJobs.Label Payload}
    (hs : (schedulerMachine service).Reachable s) (hn : s.next service l = some s')
    {jobId : String} {row : JobRow Payload} (hrow : s.db.jobs.find? jobId = some row)
    (hgiven : row.status.isGivenUp = true) : s'.db.jobs.find? jobId = some row := by
  have hfinal : row.status.isFinal := by
    revert hgiven
    cases row.status <;> decide
  exact isFinal_stays (QueueInv.of_reachable hs jobId) (view_step hn jobId) hrow hfinal

/-- **A step that abandons a reservation orphans it.** -/
theorem AbandonsReservation.orphans {w w' : World Payload} {l : Label Payload}
    (hs : (schedulerMachine service).Reachable w.scheduler) (h : AbandonsReservation service w l)
    (hn : w.next service l = some w') : ¬ NoOrphanReservation w' := by
  intro hkept
  cases l with
  | scheduler l =>
      obtain ⟨hcommitted, row, htaken, hspent, hidle, hreserved⟩ := h
      simp only [World.next] at hn
      split at hn
      · obtain ⟨s, hnext, rfl⟩ := Option.map_eq_some_iff.1 hn
        cases hop : l.operation with
        | recoverExpiredClaims limit locked =>
            rw [hop] at htaken
            obtain ⟨-, hrow⟩ := recover_of_next hs hnext hcommitted hop htaken
            refine hkept row.jobId _ hrow ?_ hidle hreserved
            simp [JobRow.recover, JobRow.release, Nat.not_lt.2 hspent, JobStatus.isGivenUp]
        | _ =>
            rw [hop] at htaken
            cases htaken
      · cases hn
  | execute | refuse | statement => exact h
  | outcome worker summary clock committed =>
      obtain ⟨e, he, hreserved, hidle, hends⟩ := h
      obtain ⟨e', he', hrecord⟩ := Option.bind_eq_some_iff.1 hn
      obtain rfl := Option.some_inj.1 (he.symm.trans he')
      obtain ⟨operation, houtcome, hcommit⟩ := Option.bind_eq_some_iff.1 hrecord
      obtain ⟨s, hnext, rfl⟩ := Option.map_eq_some_iff.1 hcommit
      rcases hends with ⟨row, hrow, hgiven⟩ | ⟨hgives, operation', houtcome', hcommits⟩
      · exact hkept _ row (givenUp_stays hs hnext hrow hgiven) hgiven hidle hreserved
      · obtain rfl := Option.some_inj.1 (houtcome.symm.trans houtcome')
        obtain ⟨failure, rfl, hretries⟩ := outcome?_of_givesUp hgives houtcome
        obtain ⟨row, hrow, hgiven⟩ :=
          givenUp_of_fail hnext rfl hretries (commits_iff.1 hcommits)
        exact hkept _ row hrow hgiven hidle hreserved
  | crash worker =>
      obtain ⟨e, he, hreserved, hidle, row, hrow, hgiven⟩ := h
      obtain ⟨e', -, rfl⟩ := Option.map_eq_some_iff.1 hn
      exact hkept _ row hrow hgiven hidle hreserved

/-! ### Runs -/

/-- The scheduler runs as it does by itself. -/
theorem reachable_scheduler {seed : Cassandra.WorkloadRecord} {w : World Payload}
    (hw : (machine service seed).Reachable w) :
    (schedulerMachine service).Reachable w.scheduler := by
  refine hw.invariant (I := fun w => (schedulerMachine service).Reachable w.scheduler)
    Machine.Reachable.start fun w l w' _ hs hn => ?_
  cases l with
  | scheduler l =>
      simp only [machine, World.next] at hn
      split at hn
      · obtain ⟨s, hnext, rfl⟩ := Option.map_eq_some_iff.1 hn
        exact hs.step hnext
      · cases hn
  | execute worker job fibonacciResult clock committed =>
      obtain ⟨executions, -, hstart⟩ := Option.bind_eq_some_iff.1 hn
      obtain ⟨s, hnext, rfl⟩ := Option.map_eq_some_iff.1 hstart
      exact hs.step hnext
  | refuse worker failure =>
      obtain ⟨e, -, hmove⟩ := Option.bind_eq_some_iff.1 hn
      split at hmove
      · obtain rfl := Option.some_inj.1 hmove
        exact hs
      · cases hmove
  | statement worker r =>
      obtain ⟨e, -, hstatement⟩ := Option.bind_eq_some_iff.1 hn
      split at hstatement
      · obtain ⟨result, -, rfl⟩ := Option.map_eq_some_iff.1 hstatement
        exact hs
      · cases hstatement
      · cases hstatement
  | outcome worker summary clock committed =>
      obtain ⟨e, -, hrecord⟩ := Option.bind_eq_some_iff.1 hn
      obtain ⟨operation, -, hcommit⟩ := Option.bind_eq_some_iff.1 hrecord
      obtain ⟨s, hnext, rfl⟩ := Option.map_eq_some_iff.1 hcommit
      exact hs.step hnext
  | crash worker =>
      obtain ⟨e, -, rfl⟩ := Option.map_eq_some_iff.1 hn
      exact hs

/-- **No reservation is orphaned throughout a run exactly when no step of it abandons one.** -/
theorem noOrphanReservation_iff (service : SchedulerService) (seed : Cassandra.WorkloadRecord)
    (labels : List (Label Payload)) (w : World Payload)
    (hrun : (machine service seed).run (machine service seed).start labels = some w) :
    (∀ before v, before <+: labels →
      (machine service seed).run (machine service seed).start before = some v →
        NoOrphanReservation v) ↔
    (machine service seed).runWhile (fun w l => ¬ AbandonsReservation service w l)
      (machine service seed).start labels = some w := by
  refine Machine.holds_throughout_iff (fun w l w' hw h hn => ?_) Machine.Reachable.start ?_ hrun
  · exact ⟨fun hkept habandons => habandons.orphans (reachable_scheduler hw) hn hkept,
      fun hnot => h.next hnot hn⟩
  · intro jobId row hrow
    cases hrow

/-- A job with one attempt. -/
def oneAttempt : JobSubmission String where
  jobId := "job-1"
  correlationId := "correlation-1"
  jobType := "CASSANDRA_FIB_UPDATE"
  scheduledAt := seconds 10
  payload := some "local-v1"
  maxAttempts := 1

/-- The claim of it. -/
def oneAttemptClaim : ClaimedJob String where
  jobId := "job-1"
  correlationId := "correlation-1"
  jobType := "CASSANDRA_FIB_UPDATE"
  payload := some "local-v1"
  payloadReference := none
  scheduledAt := seconds 10
  attemptNumber := 1
  maxAttempts := 1
  claimedBy := "worker-1"
  claimToken := uuidText 2
  claimExpiresAt := seconds 70
  maxAttempts_pos := by decide

/-- The attempt is submitted, claimed and started, its handler gets the given answers, and the
failure that follows is recorded. -/
def answeredRun (answers : List Response) : List (Label String) :=
  [.scheduler ⟨.submitChecked oneAttempt, .instant (seconds 1), true⟩,
    .scheduler ⟨.claimDue "worker-1" 10 [], .instant (seconds 10), true⟩,
    .execute 0 oneAttemptClaim "6765" (.instant (seconds 11)) true] ++
  answers.map (.statement 0) ++ [.outcome 0 "" (.instant (seconds 12)) true]

/-- The record cannot be read: the job is out of retries, and holds nothing. -/
theorem noOrphanReservation_unreadRun :
    ∃ w, (machine defaultService Cassandra.localSeed).run
        (machine defaultService Cassandra.localSeed).start (answeredRun [.dropped]) = some w ∧
      (w.scheduler.db.jobs.rows.map fun row => row.status) = [.retriesExhausted] ∧
      ∀ before v, before <+: answeredRun [.dropped] →
        (machine defaultService Cassandra.localSeed).run
          (machine defaultService Cassandra.localSeed).start before = some v →
        NoOrphanReservation v := by
  refine ⟨_, rfl, by decide, ?_⟩
  exact (noOrphanReservation_iff defaultService Cassandra.localSeed (answeredRun [.dropped]) _
    rfl).2 rfl

/-- **The record is reserved, and the connection is lost before the finish**: the job is out of
retries, nobody executes it, and the record stays reserved for it. -/
theorem not_noOrphanReservation_lostFinish :
    ¬ ∀ (service : SchedulerService) (seed : Cassandra.WorkloadRecord) (w : World String),
      (machine service seed).Reachable w → NoOrphanReservation w := by
  intro h
  have hrun : ((machine defaultService Cassandra.localSeed).run
      (machine defaultService Cassandra.localSeed).start
      (answeredRun [.answered, .answered, .answered, .answered, .dropped, .answered])).any
        (fun w => decide ((w.scheduler.db.jobs.find? "job-1").any
            (fun row => row.status.isGivenUp) = true ∧
          "job-1" ∉ w.executing ∧ w.Reserved "job-1")) = true := by decide
  obtain ⟨w, hw, hshown⟩ := (Option.any_eq_true ..).1 hrun
  obtain ⟨hgiven, hidle, hreserved⟩ := of_decide_eq_true hshown
  obtain ⟨row, hrow, hstatus⟩ := (Option.any_eq_true ..).1 hgiven
  exact h defaultService Cassandra.localSeed w
    (Machine.Reachable.of_run Machine.Reachable.start _ hw) "job-1" row hrow hstatus hidle hreserved

end Workload

end ScheduledJobs
