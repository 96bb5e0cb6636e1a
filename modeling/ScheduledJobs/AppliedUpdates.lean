/-
**How often the update of a job is applied.**

The scheduler executes a job again when an attempt of it fails or is lost, and the handler updates
the record in another database.  Whatever answers are lost and whichever workers die, a job is
recorded as successful only after its update was applied, and different jobs have different updates.
In the other direction each execution applies the update once at most; so the update of a job is not
applied more often than the job has had attempts, as long as no claim is executed twice.

Main definitions:

* `Backed` — the invariant of the record, the executions and the jobs that have succeeded;
* `started` — the attempts of a job that were started;
* `NotStartedBefore` — **a claim is executed once**, as the worker does;
* `Spent` — the updates of a job, and those its executions may still make.

Main results:

* `succeeded_of_next` — what makes a job successful;
* `applied_of_succeeded` — **no success without an update of its own**;
* `applied_le_attempts` — **no more updates than attempts**.
-/

import ScheduledJobs.CassandraOwnership
import ScheduledJobs.JobEvidence
import ScheduledJobs.OrphanReservations

set_option relaxedAutoImplicit false
set_option autoImplicit false

namespace ScheduledJobs

variable {Payload : Type} {service : SchedulerService}

/-! ### What makes a job successful -/

/-- A job that has succeeded had succeeded before, or a claim of it is recorded as successful. -/
theorem succeeded_of_jobStep {clock : ClockReads} {op : Operation Payload}
    {v v' : JobView Payload} (hs : JobStep service clock op v v') {row' : JobRow Payload}
    (hrow' : v'.row = some row') (hstatus : row'.status = .succeeded) :
    (∃ row, v.row = some row ∧ row.status = .succeeded) ∨
      ∃ job summary, op = .succeed job summary ∧ job ∈ v.claims := by
  cases hs with
  | idle => exact Or.inl ⟨row', hrow', hstatus⟩
  | submitted =>
      obtain rfl := Option.some_inj.1 hrow'
      cases hstatus
  | claimed =>
      obtain rfl := Option.some_inj.1 hrow'
      cases hstatus
  | started =>
      obtain rfl := Option.some_inj.1 hrow'
      cases hstatus
  | heartbeat _ hrow =>
      obtain rfl := Option.some_inj.1 hrow'
      exact Or.inl ⟨_, hrow, hstatus⟩
  | @succeeded job summary _ _ _ hjob => exact Or.inr ⟨job, summary, rfl, hjob⟩
  | @failed job failure =>
      obtain rfl := Option.some_inj.1 hrow'
      simp only [JobRow.release, ClaimedJob.failureStatus] at hstatus
      split at hstatus
      · cases hstatus
      · split at hstatus <;> cases hstatus
  | recovered =>
      obtain rfl := Option.some_inj.1 hrow'
      simp only [JobRow.recover, JobRow.release] at hstatus
      split at hstatus <;> cases hstatus

theorem succeeded_of_next [DecidableEq Payload] {s s' : World Payload} {l : Label Payload}
    (hn : s.next service l = some s') {jobId : String} {row' : JobRow Payload}
    (hrow' : s'.db.jobs.find? jobId = some row') (hstatus : row'.status = .succeeded) :
    (∃ row, s.db.jobs.find? jobId = some row ∧ row.status = .succeeded) ∨
      ∃ job summary, l.operation = .succeed job summary ∧ job.jobId = jobId := by
  rcases succeeded_of_jobStep (view_step hn jobId) hrow' hstatus with
    hold | ⟨job, summary, hop, hjob⟩
  · exact Or.inl hold
  · exact Or.inr ⟨job, summary, hop, of_decide_eq_true (List.mem_filter.1 hjob).2⟩

/-! ### The attempts that were started -/

/-- The attempts that the events say were started. -/
def startedIn (events : List Event) : List ℕ :=
  (events.filter fun event => event.eventType = .jobExecutionStarted).map Event.attemptNumber

theorem startedIn_append (events added : List Event) :
    startedIn (events ++ added) = startedIn events ++ startedIn added := by
  simp only [startedIn, List.filter_append, List.map_append]

theorem startedIn_eq_nil {events : List Event}
    (h : ∀ event ∈ events, event.eventType ≠ .jobExecutionStarted) : startedIn events = [] := by
  rw [startedIn, List.filter_eq_nil_iff.2 fun event hevent => by simpa using h event hevent]
  rfl

/-- A failure starts nothing. -/
theorem startedIn_failureEvents {job : ClaimedJob Payload} {failure : HandlerError}
    {clock : ClockReads} {events : List Event}
    (h : Drafted (service.failureEvents job failure clock) events) : startedIn events = [] := by
  obtain ⟨eventId, rest, rfl, hrest⟩ := drafted_failureEvents h
  refine startedIn_eq_nil ?_
  rw [List.forall_mem_cons]
  constructor
  · intro ht
    cases ht
  rcases hrest with ⟨-, -, requestedId, acknowledgedId, rfl⟩ | ⟨-, -, exhaustedId, rfl⟩ |
    ⟨-, -, rfl⟩
  · rw [List.forall_mem_cons, List.forall_mem_singleton]
    constructor <;>
      · intro ht
        cases ht
  · rw [List.forall_mem_singleton]
    intro ht
    cases ht
  · exact List.forall_mem_nil _

/-- Only the start of a claim starts an attempt. -/
theorem startedIn_of_jobStep {clock : ClockReads} {op : Operation Payload} {v v' : JobView Payload}
    (hs : JobStep service clock op v v') :
    startedIn v'.events = startedIn v.events ∨
      ∃ job, op = .start job ∧ job ∈ v.claims ∧
        startedIn v'.events = startedIn v.events ++ [job.attemptNumber] := by
  have hsame : ∀ {added : List Event}, startedIn added = [] →
      startedIn (v.events ++ added) = startedIn v.events := fun hnone => by
    rw [startedIn_append, hnone, List.append_nil]
  cases hs with
  | idle => exact Or.inl rfl
  | submitted _ hevents =>
      obtain ⟨createdId, requestedId, rfl⟩ := drafted_pair hevents
      exact Or.inl (hsame rfl)
  | claimed => exact Or.inl (hsame rfl)
  | @started job _ _ eventId hjob =>
      exact Or.inr ⟨job, rfl, hjob, startedIn_append ..⟩
  | heartbeat => exact Or.inl rfl
  | succeeded => exact Or.inl (hsame rfl)
  | failed _ _ _ _ hevents => exact Or.inl (hsame (startedIn_failureEvents hevents))
  | recovered => exact Or.inl rfl

/-- The attempts of a job that were started. -/
def World.started (s : World Payload) (jobId : String) : List ℕ :=
  startedIn (eventsOf jobId s.db.events)

section Steps

variable [DecidableEq Payload] {s s' : World Payload} {l : Label Payload} {jobId : String}

/-- A step starts no attempt of a job, or one, when a claim of the job is started. -/
theorem started_of_next (hn : s.next service l = some s') (jobId : String) :
    s'.started jobId = s.started jobId ∨
      ∃ job, l.operation = .start job ∧ job.jobId = jobId ∧
        s'.started jobId = s.started jobId ++ [job.attemptNumber] := by
  rcases startedIn_of_jobStep (view_step hn jobId) with hsame | ⟨job, hop, hjob, hadded⟩
  · exact Or.inl hsame
  · exact Or.inr ⟨job, hop, of_decide_eq_true (List.mem_filter.1 hjob).2, hadded⟩

/-- A start that commits starts the attempt. -/
theorem started_of_start (hn : s.next service l = some s') {job : ClaimedJob Payload}
    (hop : l.operation = .start job) (hcommitted : l.committed = true)
    (heffect : ∃ effect, service.perform s.db l.clock l.operation = .ok effect) :
    s'.started job.jobId = s.started job.jobId ++ [job.attemptNumber] := by
  obtain ⟨effect, hperform⟩ := heffect
  obtain ⟨-, -, ⟨effect', -, hperform', rfl⟩ | ⟨herror, -⟩⟩ := World.next_cases hn
  · rw [hop] at hperform'
    simp only [SchedulerService.perform, SchedulerService.start, Except.bind_eq_ok_iff]
      at hperform'
    obtain ⟨db, ⟨fenced, hfence, hadd⟩, heffect⟩ := hperform'
    cases heffect
    obtain ⟨-, -, -, -, -, hout, -⟩ := fencedUpdate_eq_ok hfence fun _ => rfl
    obtain ⟨-, -, -, row, hrow, hrows⟩ := addEvent_eq_ok hadd
    have hevents : db.events = s.db.events ++ [row.event] := by
      rw [Db.events, hrows, Db.outbox_modifyAttempt, hout, List.map_append]
      rfl
    change startedIn (eventsOf job.jobId db.events) = _
    have hnew : eventsOf job.jobId [row.event] = [row.event] := by
      rw [hrow]
      exact List.filter_eq_self.2 (List.forall_mem_singleton.2 (decide_eq_true rfl))
    rw [hevents, eventsOf, List.filter_append, startedIn_append]
    change _ ++ startedIn (eventsOf job.jobId [row.event]) = _
    rw [hnew, hrow]
    rfl
  · obtain ⟨e, he⟩ := herror hcommitted
    rw [hperform] at he
    cases he

end Steps

namespace Workload

open Cassandra (Call Pc Response Store MadeStep)

variable {seed : Cassandra.WorkloadRecord} {w w' : World Payload}

/-! ### No success without an update -/

/-- What an execution knows of the updates: where it is in `apply_once`, or that the update of its
job was applied. -/
def Stage.Owned (seed : Cassandra.WorkloadRecord) (finalised : List String) (op : String) :
    Stage → Prop
  | .handling pc => pc.Owned seed finalised op
  | .failing _ => True
  | .succeeding => op ∈ finalised

theorem Stage.Owned.append {finalised : List String} {op : String} {stage : Stage}
    (h : stage.Owned seed finalised op) (more : List String) :
    stage.Owned seed (finalised ++ more) op := by
  cases stage with
  | handling pc => exact Pc.Owned.append h more
  | failing => trivial
  | succeeding => exact List.mem_append_left _ h

/-- A handler that returns has been told a checksum that its operation made the step to. -/
theorem Stage.Owned.after {finalised : List String} {op : String} {pc : Pc String}
    (h : pc.Owned seed finalised op) (before : Pc String) :
    (Stage.after before pc).Owned seed finalised op := by
  cases pc with
  | returned applied checksum =>
      cases applied with
      | true =>
          obtain ⟨i, hi, -⟩ : MadeStep seed finalised op checksum := h rfl
          exact List.mem_of_getElem? hi
      | false => trivial
  | raised =>
      simp only [Stage.after]
      split <;> trivial
  | _ => exact h

/-- **What backs a success.** -/
structure Backed (seed : Cassandra.WorkloadRecord) (w : World Payload) : Prop where
  store : Cassandra.Owned seed w.store
  executions : ∀ e ∈ w.executions.rows,
    e.stage.Owned seed w.store.finalised (stableOperationId e.job.jobId)
  succeeded : ∀ jobId row, w.scheduler.db.jobs.find? jobId = some row → row.status = .succeeded →
    stableOperationId jobId ∈ w.store.finalised

/-- The executions after one of them has moved on. -/
theorem forall_moveTo {P : Execution Payload → Prop} {e : Execution Payload} {stage : Stage}
    (h : ∀ other ∈ w.executions.rows, P other) (he : P { e with stage := stage }) :
    ∀ other ∈ (w.moveTo e stage).executions.rows, P other :=
  Table.forall_mem_replace h he

theorem forall_release {P : Execution Payload → Prop} {worker : ℕ}
    (h : ∀ other ∈ w.executions.rows, P other) :
    ∀ other ∈ (w.release worker).executions.rows, P other :=
  fun other hother => h other (List.mem_of_mem_filter hother)

variable [DecidableEq Payload]

/-- A transaction of the scheduler that does not record a success. -/
theorem Backed.scheduler (h : Backed seed w) {l : ScheduledJobs.Label Payload}
    {s : ScheduledJobs.World Payload} (hn : w.scheduler.next service l = some s)
    (hop : ∀ job summary, l.operation = .succeed job summary →
      stableOperationId job.jobId ∈ w.store.finalised) :
    ∀ jobId row, s.db.jobs.find? jobId = some row → row.status = .succeeded →
      stableOperationId jobId ∈ w.store.finalised := by
  intro jobId row hrow hstatus
  rcases succeeded_of_next hn hrow hstatus with ⟨old, hold, holdStatus⟩ | ⟨job, summary, hl, rfl⟩
  · exact h.succeeded jobId old hold holdStatus
  · exact hop job summary hl

/-- **What one step preserves.** -/
theorem Backed.next {l : Label Payload} (h : Backed seed w) (hn : w.next service l = some w') :
    Backed seed w' := by
  cases l with
  | scheduler l =>
      simp only [World.next] at hn
      split at hn
      · next hqueue =>
          obtain ⟨s, hs, rfl⟩ := Option.map_eq_some_iff.1 hn
          refine { h with succeeded := h.scheduler hs fun job summary hop => ?_ }
          rw [hop] at hqueue
          cases hqueue
      · cases hn
  | execute worker job fibonacciResult clock committed =>
      obtain ⟨executions, hinsert, hstart⟩ := Option.bind_eq_some_iff.1 hn
      obtain ⟨s, hs, rfl⟩ := Option.map_eq_some_iff.1 hstart
      refine { store := h.store, executions := ?_, succeeded := h.scheduler hs ?_ }
      · dsimp only
        split
        · rw [(Table.insert?_eq_some_iff.1 hinsert).2, List.forall_mem_append,
            List.forall_mem_singleton]
          exact ⟨h.executions, trivial⟩
        · exact h.executions
      · intro _ _ hop
        cases hop
  | refuse worker failure =>
      obtain ⟨e, he, hmove⟩ := Option.bind_eq_some_iff.1 hn
      split at hmove
      · obtain rfl := Option.some_inj.1 hmove
        exact { h with executions := forall_moveTo h.executions trivial }
      · cases hmove
  | statement worker r =>
      obtain ⟨e, he, hstatement⟩ := Option.bind_eq_some_iff.1 hn
      split at hstatement
      · next pc hpc =>
          obtain ⟨⟨st, call⟩, hstep, rfl⟩ := Option.map_eq_some_iff.1 hstatement
          have howned := h.executions e (Table.mem_of_find? he)
          rw [hpc] at howned
          obtain ⟨hstore, hcall, more, hmore⟩ := h.store.step (c := e.call pc) howned hstep
          have hop : call.operationId = stableOperationId e.job.jobId :=
            (Cassandra.Call.step_cases hstep).1
          rw [hop] at hcall
          refine
            { store := hstore, executions := ?_, succeeded := fun jobId row hrow hstatus => ?_ }
          · refine forall_moveTo (fun other hother => ?_) (Stage.Owned.after hcall pc)
            exact hmore ▸ (h.executions other hother).append more
          · exact hmore ▸ List.mem_append_left _ (h.succeeded jobId row hrow hstatus)
      · cases hstatement
      · cases hstatement
  | outcome worker summary clock committed =>
      obtain ⟨e, he, hrecord⟩ := Option.bind_eq_some_iff.1 hn
      obtain ⟨operation, houtcome, hcommit⟩ := Option.bind_eq_some_iff.1 hrecord
      obtain ⟨s, hs, rfl⟩ := Option.map_eq_some_iff.1 hcommit
      refine { store := h.store, executions := forall_release h.executions, succeeded := ?_ }
      refine h.scheduler hs fun job summary' hop => ?_
      obtain rfl : operation = .succeed job summary' := hop
      have howned := h.executions e (Table.mem_of_find? he)
      unfold Execution.outcome? at houtcome
      split at houtcome
      · cases houtcome
      · cases houtcome
      · next hstage =>
          cases houtcome
          rw [hstage] at howned
          exact howned
  | crash worker =>
      obtain ⟨e, -, rfl⟩ := Option.map_eq_some_iff.1 hn
      exact { h with executions := forall_release h.executions }

/-- **The invariant in every reachable state.** -/
theorem backed_of_reachable (h : (machine service seed).Reachable w) : Backed seed w := by
  have hstart : Backed seed (machine service seed : Machine (World Payload) _).start := {
    store := Cassandra.owned_seeded seed
    executions := List.forall_mem_nil _
    succeeded := fun _ _ hnone => nomatch hnone }
  exact h.invariant hstart fun _ _ _ _ hbacked hn => hbacked.next hn

/-- **No success without an update of its own**: whatever answers are lost and whichever workers
die, the update of a job that is recorded as successful was applied, and the record has been moved
at least once for each such job. -/
theorem applied_of_succeeded (h : (machine service seed).Reachable w) :
    (∀ jobId row, w.scheduler.db.jobs.find? jobId = some row → row.status = .succeeded →
      stableOperationId jobId ∈ w.store.finalised) ∧
    seed.checksum + (w.scheduler.db.jobs.rows.countP fun row => row.status = .succeeded) ≤
      w.store.row.checksum := by
  have hbacked := backed_of_reachable h
  refine ⟨hbacked.succeeded, ?_⟩
  -- the operations of the jobs that have succeeded are different, and all in the history
  have hnodup : ((w.scheduler.db.jobs.rows.filter fun row => row.status = .succeeded).map
      fun row => stableOperationId row.jobId).Nodup := by
    change (List.map (stableOperationId ∘ JobRow.jobId) _).Nodup
    rw [← List.map_map]
    exact ((w.scheduler.db.jobs.nodup.sublist (List.filter_sublist.map _))).map
      stableOperationId_injective
  have hsub : ((w.scheduler.db.jobs.rows.filter fun row => row.status = .succeeded).map
      fun row => stableOperationId row.jobId) ⊆ w.store.finalised := by
    intro op hop
    obtain ⟨row, hrow, rfl⟩ := List.mem_map.1 hop
    obtain ⟨hmem, hstatus⟩ := List.mem_filter.1 hrow
    exact hbacked.succeeded _ row (Table.find?_of_mem hmem) (of_decide_eq_true hstatus)
  have hlength := (hnodup.subperm hsub).length_le
  rw [List.length_map, ← List.countP_eq_length_filter] at hlength
  rw [hbacked.store.checksum]
  omega

/-- The attempt succeeds, though the answer to the statement that finishes the update is lost. -/
def lostAnswerRun : List (Label String) :=
  answeredRun [.answered, .answered, .answered, .answered, .lost, .answered, .answered]

theorem applied_of_succeeded_lostAnswerRun :
    ∃ w : World String, (machine defaultService Cassandra.localSeed).Reachable w ∧
      stableOperationId "job-1" ∈ w.store.finalised ∧
      Cassandra.localSeed.checksum +
        (w.scheduler.db.jobs.rows.countP fun row => row.status = .succeeded) ≤
          w.store.row.checksum := by
  have hrun : ((machine defaultService Cassandra.localSeed).run
      (machine defaultService Cassandra.localSeed).start lostAnswerRun).map (fun w =>
        (w.scheduler.db.jobs.find? "job-1").map JobRow.status) = some (some .succeeded) := by
    decide +kernel
  obtain ⟨w, hw, hvalue⟩ := Option.map_eq_some_iff.1 hrun
  obtain ⟨row, hrow, hstatus⟩ := Option.map_eq_some_iff.1 hvalue
  have hreachable := Machine.Reachable.of_run Machine.Reachable.start _ hw
  obtain ⟨hupdates, hchecksum⟩ := applied_of_succeeded hreachable
  exact ⟨w, hreachable, hupdates "job-1" row hrow hstatus, hchecksum⟩

/-! ### No more updates than attempts -/

/-- An execution can still finish the update: it has not come to the end of `apply_once`, nor past
the one statement that finishes it. -/
def Stage.mayFinish : Stage → Bool
  | .handling .selectRecord => true
  | .handling (.readRecord _) => true
  | .handling (.findOperation ..) => true
  | .handling (.reserve ..) => true
  | .handling (.finish _) => true
  | _ => false

/-- After the statement that finishes an update there is none that could finish it again. -/
theorem mayFinish_of_step {c c' : Call String} {st st' : Store String} {r : Response}
    (hs : c.step st r = some (st', c')) (hmay : (Stage.after c.pc c'.pc).mayFinish = true) :
    (Stage.handling c.pc).mayFinish = true ∧ ∀ record, c.pc ≠ .finish record := by
  unfold Call.step at hs
  cases hpc : c.pc with
  | selectRecord | readRecord | findOperation | reserve => exact ⟨rfl, fun _ h => by cases h⟩
  | returned | raised =>
      rw [hpc] at hs
      cases hs
  | replayMarker | finish | writeMarker =>
      rw [hpc] at hs hmay
      obtain ⟨-, rfl⟩ := Prod.mk.inj (Option.some_inj.1 hs)
      revert hmay
      simp only [Call.goto]
      (repeat' split) <;> simp [Stage.after, Stage.mayFinish]
  | reconcile =>
      rw [hpc] at hs hmay
      simp only at hs
      revert hmay
      split at hs <;> obtain ⟨-, rfl⟩ := Prod.mk.inj (Option.some_inj.1 hs) <;>
        simp only [Call.goto] <;> (repeat' split) <;> simp [Stage.after, Stage.mayFinish]

/-- What an execution may still add to the updates of a job. -/
def Execution.unspent (jobId : String) (e : Execution Payload) : ℕ :=
  if e.job.jobId = jobId ∧ e.stage.mayFinish = true then 1 else 0

/-- What the executions may still add to them. -/
def World.unspent (w : World Payload) (jobId : String) : ℕ :=
  (w.executions.rows.map (Execution.unspent jobId)).sum

/-- **The updates of a job, and those that its executions may still make**, against the attempts
that were started. -/
def Spent (w : World Payload) : Prop :=
  ∀ jobId, w.store.finalised.count (stableOperationId jobId) + w.unspent jobId ≤
    (w.scheduler.started jobId).length

omit [DecidableEq Payload] in
theorem unspent_moveTo {worker : ℕ} {e : Execution Payload}
    (he : w.executions.find? worker = some e) (stage : Stage) (jobId : String) :
    (w.moveTo e stage).unspent jobId + e.unspent jobId =
      w.unspent jobId + Execution.unspent jobId { e with stage := stage } := by
  have hkey : w.executions.find? e.worker = some e := by rw [Table.key_of_find? he, he]
  exact Table.sum_replace { e with stage := stage } hkey

omit [DecidableEq Payload] in
/-- **A statement uses up what it adds.** -/
theorem count_add_unspent_le {e : Execution Payload} {pc : Pc String} (hpc : e.stage = .handling pc)
    {st st' : Store String} {call : Call String} {r : Response}
    (hs : (e.call pc).step st r = some (st', call)) (jobId : String) :
    st'.finalised.count (stableOperationId jobId) +
        Execution.unspent jobId { e with stage := Stage.after pc call.pc } ≤
      st.finalised.count (stableOperationId jobId) + e.unspent jobId := by
  simp only [Execution.unspent, hpc]
  obtain ⟨-, hcases⟩ := Cassandra.Call.step_cases hs
  have hsame : st'.finalised = st.finalised ∨
      (∃ record, pc = .finish record) ∧
        st'.finalised = st.finalised ++ [stableOperationId e.job.jobId] := by
    rcases hcases with ⟨-, hsame⟩ | ⟨_, _, -, -, -, rfl⟩ | ⟨record, hfinish, -, -, -, -, hadded⟩
    · exact Or.inl hsame
    · exact Or.inl rfl
    · exact Or.inr ⟨⟨record, hfinish⟩, hadded⟩
  by_cases hmay : (Stage.after pc call.pc).mayFinish = true
  · obtain ⟨hbefore, hnot⟩ := mayFinish_of_step hs hmay
    rcases hsame with hsame | ⟨⟨record, hfinish⟩, -⟩
    · have hiff : (Stage.after pc call.pc).mayFinish = true ↔
          (Stage.handling pc).mayFinish = true := iff_of_true hmay hbefore
      rw [hsame, if_congr (and_congr_right fun _ => hiff) rfl rfl]
    · exact absurd hfinish (hnot record)
  · rw [if_neg fun heq => hmay heq.2]
    rcases hsame with hsame | ⟨⟨record, rfl⟩, hadded⟩
    · rw [hsame]
      exact Nat.le_add_right _ _
    · rw [hadded, List.count_append]
      by_cases hjob : e.job.jobId = jobId
      · subst hjob
        rw [if_pos ⟨rfl, rfl⟩, List.count_singleton_self]
      · have hother : stableOperationId e.job.jobId ≠ stableOperationId jobId := fun heq =>
          hjob (stableOperationId_injective heq)
        rw [List.count_singleton, if_neg (by simpa using hother)]
        exact Nat.le_add_right _ _

omit [DecidableEq Payload] in
theorem unspent_release (w : World Payload) (worker : ℕ) (jobId : String) :
    (w.release worker).unspent jobId ≤ w.unspent jobId :=
  (List.filter_sublist.map _).sum_le_sum fun _ _ => Nat.zero_le _

/-- A transaction of the scheduler takes no start back. -/
theorem length_started_le {s s' : ScheduledJobs.World Payload} {l : ScheduledJobs.Label Payload}
    (hn : s.next service l = some s') (jobId : String) :
    (s.started jobId).length ≤ (s'.started jobId).length := by
  rcases started_of_next hn jobId with hsame | ⟨job, -, -, hadded⟩
  · rw [hsame]
  · rw [hadded, List.length_append]
    exact Nat.le_add_right _ _

/-- **What one step preserves.** -/
theorem Spent.next {l : Label Payload} (h : Spent w) (hn : w.next service l = some w') :
    Spent w' := by
  intro jobId
  have hold := h jobId
  cases l with
  | scheduler l =>
      simp only [World.next] at hn
      split at hn
      · obtain ⟨s, hs, rfl⟩ := Option.map_eq_some_iff.1 hn
        exact hold.trans (length_started_le hs jobId)
      · cases hn
  | execute worker job fibonacciResult clock committed =>
      obtain ⟨executions, hinsert, hstart⟩ := Option.bind_eq_some_iff.1 hn
      obtain ⟨s, hs, rfl⟩ := Option.map_eq_some_iff.1 hstart
      have hgrows := length_started_le hs jobId
      by_cases hcommits : w.commits service ⟨.start job, clock, committed⟩ = true
      · -- the execution may make one update more, and the attempt was started
        obtain ⟨hcommitted, heffect⟩ := commits_iff.1 hcommits
        have hstarted := started_of_start hs rfl hcommitted heffect
        simp only [World.unspent, if_pos hcommits, (Table.insert?_eq_some_iff.1 hinsert).2,
          List.map_append, List.map_singleton, List.sum_append, List.sum_singleton]
        unfold World.unspent at hold
        by_cases hjob : job.jobId = jobId
        · subst hjob
          rw [hstarted, List.length_append, List.length_singleton, Execution.unspent,
            if_pos ⟨rfl, rfl⟩]
          omega
        · rw [Execution.unspent, if_neg fun heq => hjob heq.1]
          omega
      · simp only [World.unspent, if_neg hcommits]
        exact hold.trans hgrows
  | refuse worker failure =>
      obtain ⟨e, he, hmove⟩ := Option.bind_eq_some_iff.1 hn
      split at hmove
      · obtain rfl := Option.some_inj.1 hmove
        have hmoved := unspent_moveTo he (.failing failure) jobId
        have hnone : Execution.unspent jobId { e with stage := .failing failure } = 0 :=
          if_neg fun heq => Bool.false_ne_true heq.2
        rw [hnone] at hmoved
        refine le_trans ?_ hold
        change w.store.finalised.count _ + (w.moveTo e (.failing failure)).unspent jobId ≤ _
        omega
      · cases hmove
  | statement worker r =>
      obtain ⟨e, he, hstatement⟩ := Option.bind_eq_some_iff.1 hn
      split at hstatement
      · next pc hpc =>
          obtain ⟨⟨st, call⟩, hstep, rfl⟩ := Option.map_eq_some_iff.1 hstatement
          have hmoved := unspent_moveTo he (Stage.after pc call.pc) jobId
          refine le_trans ?_ hold
          change st.finalised.count _ + (w.moveTo e (Stage.after pc call.pc)).unspent jobId ≤ _
          have hle := count_add_unspent_le hpc hstep jobId
          omega
      · cases hstatement
      · cases hstatement
  | outcome worker summary clock committed =>
      obtain ⟨e, -, hrecord⟩ := Option.bind_eq_some_iff.1 hn
      obtain ⟨operation, -, hcommit⟩ := Option.bind_eq_some_iff.1 hrecord
      obtain ⟨s, hs, rfl⟩ := Option.map_eq_some_iff.1 hcommit
      have hless := unspent_release w worker jobId
      have hgrows := length_started_le hs jobId
      change _ + (w.release worker).unspent jobId ≤ _
      exact (Nat.add_le_add_left hless _).trans (hold.trans hgrows)
  | crash worker =>
      obtain ⟨e, -, rfl⟩ := Option.map_eq_some_iff.1 hn
      exact (Nat.add_le_add_left (unspent_release w worker jobId) _).trans hold

theorem spent_of_reachable (h : (machine service seed).Reachable w) : Spent w := by
  have hstart : Spent (machine service seed : Machine (World Payload) _).start := fun _ =>
    Nat.le_refl 0
  exact h.invariant hstart fun _ _ _ _ hspent hn => hspent.next hn

/-! ### Claims that are executed once -/

/-- **A claim is executed once**: no execution starts an attempt that was started before.  A worker
goes through the claims it is given, and executes each of them. -/
def NotStartedBefore (w : World Payload) : Label Payload → Prop
  | .execute _ job _ _ _ => job.attemptNumber ∉ w.scheduler.started job.jobId
  | _ => True

instance (w : World Payload) : DecidablePred (NotStartedBefore w)
  | .execute _ job _ _ _ =>
      inferInstanceAs (Decidable (job.attemptNumber ∉ w.scheduler.started job.jobId))
  | .scheduler _ | .refuse .. | .statement .. | .outcome .. | .crash _ =>
      inferInstanceAs (Decidable True)

/-- What a step starts, it has the label for. -/
theorem nodup_started_of_next {l : Label Payload} (hnot : NotStartedBefore w l)
    (hn : w.next service l = some w') {jobId : String} (h : (w.scheduler.started jobId).Nodup) :
    (w'.scheduler.started jobId).Nodup := by
  have hkept : ∀ {s : ScheduledJobs.World Payload} {l : ScheduledJobs.Label Payload},
      w.scheduler.next service l = some s →
        (∀ job, l.operation = .start job → job.attemptNumber ∉ w.scheduler.started job.jobId) →
          (s.started jobId).Nodup := by
    intro s l hs hfresh
    rcases started_of_next hs jobId with hsame | ⟨job, hop, rfl, hadded⟩
    · rw [hsame]
      exact h
    · rw [hadded]
      exact List.nodup_append_comm.1 (List.nodup_cons.2 ⟨hfresh job hop, h⟩)
  cases l with
  | scheduler l =>
      simp only [World.next] at hn
      split at hn
      · next hqueue =>
          obtain ⟨s, hs, rfl⟩ := Option.map_eq_some_iff.1 hn
          refine hkept hs fun job hop => ?_
          rw [hop] at hqueue
          cases hqueue
      · cases hn
  | execute worker job fibonacciResult clock committed =>
      obtain ⟨executions, -, hstart⟩ := Option.bind_eq_some_iff.1 hn
      obtain ⟨s, hs, rfl⟩ := Option.map_eq_some_iff.1 hstart
      refine hkept hs fun job' hop => ?_
      cases hop
      exact hnot
  | refuse worker failure =>
      obtain ⟨e, -, hmove⟩ := Option.bind_eq_some_iff.1 hn
      split at hmove
      · obtain rfl := Option.some_inj.1 hmove
        exact h
      · cases hmove
  | statement worker r =>
      obtain ⟨e, -, hstatement⟩ := Option.bind_eq_some_iff.1 hn
      split at hstatement
      · obtain ⟨result, -, rfl⟩ := Option.map_eq_some_iff.1 hstatement
        exact h
      · cases hstatement
      · cases hstatement
  | outcome worker summary clock committed =>
      obtain ⟨e, -, hrecord⟩ := Option.bind_eq_some_iff.1 hn
      obtain ⟨operation, houtcome, hcommit⟩ := Option.bind_eq_some_iff.1 hrecord
      obtain ⟨s, hs, rfl⟩ := Option.map_eq_some_iff.1 hcommit
      refine hkept hs fun job hop => ?_
      obtain rfl : operation = .start job := hop
      unfold Execution.outcome? at houtcome
      split at houtcome <;> cases houtcome
  | crash worker =>
      obtain ⟨e, -, rfl⟩ := Option.map_eq_some_iff.1 hn
      exact h

/-- Different attempts, all of them up to the one the row is at. -/
theorem length_started_le_attemptNumber {s : ScheduledJobs.World Payload}
    (hs : (schedulerMachine service).Reachable s) {jobId : String} {row : JobRow Payload}
    (hrow : s.db.jobs.find? jobId = some row) (hnodup : (s.started jobId).Nodup) :
    (s.started jobId).length ≤ row.attemptNumber := by
  have hevidence := RowEvidence.of_reachable hs jobId row hrow
  have hsub : (s.started jobId).toFinset ⊆ Finset.Icc 1 row.attemptNumber := by
    intro n hn
    obtain ⟨event, hevent, rfl⟩ := List.mem_map.1 (List.mem_toFinset.1 hn)
    obtain ⟨hmem, htype⟩ := List.mem_filter.1 hevent
    have hof := hevidence.isOf event hmem
    have hkind : event.isSubmission = false := by
      rw [Event.isSubmission, of_decide_eq_true htype]
      rfl
    rcases hof.attempt_pos with ⟨-, hsubmission⟩ | ⟨hpos, -⟩
    · rw [hkind] at hsubmission
      cases hsubmission
    · exact Finset.mem_Icc.2 ⟨hpos, hof.attempt_le⟩
  have hcard := Finset.card_le_card hsub
  rw [List.toFinset_card_of_nodup hnodup, Nat.card_Icc] at hcard
  omega

/-- **No more updates than attempts**, when no claim is executed twice: the update of a job is
applied once for each of its attempts at most, and at least once when the job is recorded as
successful. -/
theorem applied_le_attempts (h : (machine service seed).Reach NotStartedBefore w) {jobId : String}
    {row : JobRow Payload} (hrow : w.scheduler.db.jobs.find? jobId = some row) :
    w.store.finalised.count (stableOperationId jobId) ≤ row.attemptNumber ∧
      row.attemptNumber ≤ row.maxAttempts ∧
      (row.status = .succeeded → 1 ≤ w.store.finalised.count (stableOperationId jobId)) := by
  have hs := reachable_scheduler h.reachable
  have hnodup : ∀ jobId, (w.scheduler.started jobId).Nodup :=
    h.invariant (I := fun w => ∀ jobId, (w.scheduler.started jobId).Nodup)
      (fun _ => List.nodup_nil) fun _ _ _ _ hnodup hnot hn jobId =>
        nodup_started_of_next hnot hn (hnodup jobId)
  have hspent := spent_of_reachable h.reachable jobId
  have hle := length_started_le_attemptNumber hs hrow (hnodup jobId)
  have hattempts := ((QueueInv.of_reachable hs jobId).present row hrow).attempt_le
  refine ⟨by omega, hattempts, fun hstatus => ?_⟩
  exact List.one_le_count_iff.2 ((backed_of_reachable h.reachable).succeeded jobId row hrow hstatus)

/-- The update of a job that has a single attempt was applied exactly once. -/
theorem applied_le_attempts_lostAnswerRun :
    ∃ w : World String, (machine defaultService Cassandra.localSeed).Reach NotStartedBefore w ∧
      w.store.finalised.count (stableOperationId "job-1") = 1 := by
  have hrun : ((machine defaultService Cassandra.localSeed).runWhile NotStartedBefore
      (machine defaultService Cassandra.localSeed).start lostAnswerRun).map (fun w =>
        (w.scheduler.db.jobs.find? "job-1").map fun row => (row.status, row.maxAttempts)) =
      some (some (.succeeded, 1)) := by decide +kernel
  obtain ⟨w, hw, hvalue⟩ := Option.map_eq_some_iff.1 hrun
  obtain ⟨row, hrow, hvalues⟩ := Option.map_eq_some_iff.1 hvalue
  obtain ⟨hstatus, hmax⟩ := Prod.mk.inj hvalues
  have hreach : (machine defaultService Cassandra.localSeed).Reach NotStartedBefore w :=
    Machine.Reach.of_runWhile Machine.Reach.start _ hw
  obtain ⟨hle, hattempts, hsome⟩ := applied_le_attempts hreach hrow
  have hpos := hsome hstatus
  exact ⟨w, hreach, by omega⟩

end Workload

end ScheduledJobs
