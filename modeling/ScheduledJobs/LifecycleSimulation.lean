/-
**The lifecycle follows the queue.**

While no claim of a job is taken back, the automaton run over the job's events in commit order
shows the status of the job's row and the outcomes of its attempts: scheduler and projection are
two state machines, and the outbox keeps them in step.  A single operation emits up to three events;
in between the automaton passes through statuses no row ever has.

Main definitions:

* `JobStatus.visible`, `AttemptStatus.outcome` — how the two machines' states correspond;
* `LifecycleMirrors` — **the simulation relation**.

Main results:

* `LifecycleMirrors.step` — the step lemma;
* `LifecycleMirrors.of_reachable` — **the relation holds after every run that takes no claim of the
  job back**.
-/

import ScheduledJobs.ClaimFencing
import ScheduledJobs.Lifecycle

set_option relaxedAutoImplicit false
set_option autoImplicit false

namespace ScheduledJobs

variable {Payload : Type}

/-! ### The relation -/

/-- The recorded status that shows a status of the queue. -/
def JobStatus.visible : JobStatus → Status
  | pending => .pendingSubmission
  | claimed => .awaitingExecution
  | running => .running
  | retryWait => .retryScheduled
  | succeeded => .succeeded
  | failed => .failed
  | retriesExhausted => .retriesExhausted

/-- The outcome the status of an attempt shows. -/
def AttemptStatus.outcome : AttemptStatus → Option Outcome
  | succeeded => some .succeeded
  | failed => some .failed
  | _ => none

/-- **The simulation relation** between a job of the queue and the automaton. -/
structure LifecycleMirrors (v : JobView Payload) (l : Lifecycle) : Prop where
  absent : v.row = none → l = .blank
  status : ∀ row, v.row = some row → l.status = row.status.visible
  attempts : ∀ n, (l.attempts n).map AttemptStatus.outcome = (v.attempts n).map AttemptRow.outcome

/-- An attempt that is open in the queue is open in the automaton. -/
theorem LifecycleMirrors.open {v : JobView Payload} {l : Lifecycle} (h : LifecycleMirrors v l)
    {n : ℕ} {attempt : AttemptRow Payload} (hattempt : v.attempts n = some attempt)
    (hnone : attempt.outcome = none) : (l.attemptStatus n).outcome = none := by
  have hmap := h.attempts n
  rw [hattempt, Option.map_some, hnone, Option.map_eq_some_iff] at hmap
  obtain ⟨s, hs, houtcome⟩ := hmap
  simp [Lifecycle.attemptStatus, hs, houtcome]

theorem AttemptStatus.outcome_eq_none {s : AttemptStatus} (h : s.outcome = none) :
    s ≠ .succeeded ∧ s ≠ .failed := by
  constructor
  · rintro rfl
    cases h
  · rintro rfl
    cases h

/-! ### Single events -/

theorem ClaimedJob.number_event {job : ClaimedJob Payload} (hpos : 1 ≤ job.attemptNumber)
    {event : Event} (hevent : event.attemptNumber = job.attemptNumber) :
    event.number = job.attemptNumber := by
  rw [Event.number, hevent, if_neg (by omega)]

section Automaton

variable {l : Lifecycle} {n : ℕ}

/-- A retrieval of a new attempt. -/
theorem Lifecycle.retrieved_of_new (hnone : l.attempts n = none)
    (hstatus : l.status.isTerminal = false ∧ l.status ≠ .running) :
    l.retrieved n = (l.put n .retrieved).moveTo .awaitingExecution := by
  have hunknown : l.attemptStatus n = .unknown := by simp [Lifecycle.attemptStatus, hnone]
  simp [Lifecycle.retrieved, hunknown, Lifecycle.submit, hstatus]

/-- A start of an open attempt. -/
theorem Lifecycle.started_of_open (hopen : (l.attemptStatus n).outcome = none)
    (hstatus : l.status ≠ .succeeded) : l.started n = (l.put n .running).moveTo .running := by
  obtain ⟨hsucceeded, hfailed⟩ := AttemptStatus.outcome_eq_none hopen
  have hnot : ¬ l.Settled n := by
    rintro ((h | h) | ⟨h, -⟩)
    · exact hsucceeded h
    · exact hstatus h
    · exact hfailed h
  rw [Lifecycle.started, if_neg hnot]

/-- A success of an open attempt. -/
theorem Lifecycle.succeeded_of_open (hopen : (l.attemptStatus n).outcome = none)
    (hstatus : l.status.isTerminal = false) :
    l.succeeded n = (l.put n .succeeded).moveTo .succeeded := by
  obtain ⟨hsucceeded, hfailed⟩ := AttemptStatus.outcome_eq_none hopen
  have hnot : ¬ l.ContradictsSuccess n := by
    rintro (h | ⟨h, -⟩)
    · exact hfailed h
    · rw [hstatus] at h
      cases h
  rw [Lifecycle.succeeded, if_neg hsucceeded, if_neg hnot]

/-- A failure of an open attempt. -/
theorem Lifecycle.failed_of_open (hopen : (l.attemptStatus n).outcome = none)
    (hstatus : l.status.isTerminal = false) (retryable : Bool) :
    l.failed n retryable =
      (l.put n .failed).moveTo (if retryable then .retryPending else .failed) := by
  obtain ⟨hsucceeded, hfailed⟩ := AttemptStatus.outcome_eq_none hopen
  have hnot : ¬ l.ContradictsFailure n := by
    rintro (h | ⟨h, -⟩)
    · exact hsucceeded h
    · rw [hstatus] at h
      cases h
  rw [Lifecycle.failed, if_neg hfailed, if_neg hnot]

end Automaton

/-- **The events of a failure** take the automaton to the status the failure leaves. -/
theorem lifecycleAll_failureEvents {service : SchedulerService} {job : ClaimedJob Payload}
    {failure : HandlerError} {clock : ClockReads} {events : List Event} {l : Lifecycle}
    (h : Drafted (service.failureEvents job failure clock) events) (hpos : 1 ≤ job.attemptNumber)
    (hopen : (l.attemptStatus job.attemptNumber).outcome = none)
    (hstatus : l.status.isTerminal = false) :
    lifecycleAll l events =
      (l.put job.attemptNumber .failed).moveTo (job.failureStatus failure).visible := by
  obtain ⟨eventId, rest, rfl, hrest⟩ := drafted_failureEvents h
  have hfailed : l.next (job.failedEvent failure clock.written eventId) =
      (l.put job.attemptNumber .failed).moveTo
        (if failure.retryable then .retryPending else .failed) := by
    rw [← Lifecycle.failed_of_open hopen hstatus]
    exact congrArg (fun n => l.failed n failure.retryable) (ClaimedJob.number_event hpos rfl)
  rw [lifecycleAll, List.foldl_cons, hfailed]
  rcases hrest with ⟨hs, hretryable, requestedId, acknowledgedId, rfl⟩ |
    ⟨hs, hretryable, exhaustedId, rfl⟩ | ⟨hs, hretryable, rfl⟩
  · rw [hs, hretryable]
    rfl
  · rw [hs, hretryable]
    rfl
  · rw [hs, hretryable]
    rfl

/-! ### Every step -/

/-- The automaton after a step of the queue. -/
theorem lifecycleAll_append (l : Lifecycle) (events more : List Event) :
    lifecycleAll l (events ++ more) = lifecycleAll (lifecycleAll l events) more :=
  List.foldl_append

/-- An attempt that is written on both sides. -/
theorem LifecycleMirrors.put {v : JobView Payload} {l : Lifecycle} (h : LifecycleMirrors v l)
    {n : ℕ} {attempt : AttemptRow Payload} {s : AttemptStatus} (hs : s.outcome = attempt.outcome)
    (k : ℕ) :
    ((l.put n s).attempts k).map AttemptStatus.outcome =
      ((Function.update v.attempts n (some attempt)) k).map AttemptRow.outcome := by
  by_cases hk : k = n
  · rw [hk, Lifecycle.attempts_put, Function.update_self, Function.update_self, Option.map_some,
      Option.map_some, hs]
  · rw [Lifecycle.attempts_put, Function.update_of_ne hk, Function.update_of_ne hk]
    exact h.attempts k

/-- A job with a row, from its status and its attempts. -/
theorem LifecycleMirrors.of_row {v : JobView Payload} {l : Lifecycle} {row : JobRow Payload}
    (hrow : v.row = some row) (hstatus : l.status = row.status.visible)
    (hattempts : ∀ n, (l.attempts n).map AttemptStatus.outcome =
      (v.attempts n).map AttemptRow.outcome) : LifecycleMirrors v l where
  absent := fun hnone => by
    rw [hrow] at hnone
    cases hnone
  status := fun row' hrow' => by
    obtain rfl := Option.some_inj.1 (hrow.symm.trans hrow')
    exact hstatus
  attempts := hattempts

/-- What a current claim means on both sides. -/
theorem LifecycleMirrors.of_isCurrent {v : JobView Payload} {l : Lifecycle} {row : JobRow Payload}
    {job : ClaimedJob Payload} {now : Datetime} (h : LifecycleMirrors v l) (hinv : RowInv v row)
    (hfence : FenceInv v) (hrow : v.row = some row) (hcur : job.IsCurrent row now) :
    1 ≤ job.attemptNumber ∧ (l.attemptStatus job.attemptNumber).outcome = none ∧
      (l.status = .awaitingExecution ∨ l.status = .running) ∧
      ∃ attempt, v.attempts job.attemptNumber = some attempt ∧ attempt.outcome = none := by
  obtain ⟨hstatus, hpos⟩ := hinv.of_isCurrent hcur
  obtain ⟨attempt, hattempt, hnone⟩ := hfence.attempt_of_isCurrent hinv hrow hcur
  have houtcome : attempt.outcome = none := by
    simpa [JobView.outcome?, hattempt] using hnone
  refine ⟨hcur.1 ▸ hpos, h.open hattempt houtcome, ?_, attempt, hattempt, houtcome⟩
  rw [h.status row hrow]
  rcases hstatus with hs | hs
  · exact Or.inl (by rw [hs]; rfl)
  · exact Or.inr (by rw [hs]; rfl)

/-- **The step lemma of the simulation**, for a step that takes no claim back. -/
theorem LifecycleMirrors.step {service : SchedulerService} {clock : ClockReads}
    {op : Operation Payload} {v v' : JobView Payload} {l : Lifecycle} (hinv : QueueInv v)
    (hfence : FenceInv v) (h : LifecycleMirrors v l) (hs : JobStep service clock op v v')
    (hrecovered : v'.recovered = v.recovered) :
    ∃ events, v'.events = v.events ++ events ∧ LifecycleMirrors v' (lifecycleAll l events) := by
  cases hs with
  | idle => exact ⟨[], (List.append_nil _).symm, h⟩
  | @submitted value _ events hrow hevents =>
      obtain ⟨createdId, requestedId, rfl⟩ := drafted_pair hevents
      obtain rfl := h.absent hrow
      exact ⟨_, rfl, .of_row rfl rfl h.attempts⟩
  | @claimed owner limit locked _ row token eventId hrow hstatus hdue hfresh =>
      refine ⟨_, rfl, ?_⟩
      have hnone : l.attempts (row.attemptNumber + 1) = none := by
        have hmap := h.attempts (row.attemptNumber + 1)
        rw [hfresh] at hmap
        simpa using hmap
      have hbefore : l.status.isTerminal = false ∧ l.status ≠ .running := by
        rw [h.status row hrow]
        rcases hstatus with hs | hs
        · rw [hs]
          decide
        · rw [hs]
          decide
      have hnext : lifecycleAll l [service.retrievedEvent
          (row.claimedAs owner token service.lease clock.written) eventId] =
            (l.put (row.attemptNumber + 1) .retrieved).moveTo .awaitingExecution :=
        Lifecycle.retrieved_of_new hnone hbefore
      rw [hnext]
      exact .of_row rfl rfl (h.put rfl)
  | @started job _ row eventId hjob hrow hcur =>
      obtain ⟨hpos, hopen, hbefore, attempt, hattempt, houtcome⟩ :=
        h.of_isCurrent (hinv.present row hrow) hfence hrow hcur
      refine ⟨_, rfl, ?_⟩
      have hnext : lifecycleAll l [job.event .jobExecutionStarted clock.written eventId] =
          (l.put job.attemptNumber .running).moveTo .running := by
        rw [← Lifecycle.started_of_open hopen (by rcases hbefore with hs | hs <;> simp [hs])]
        exact congrArg l.started (ClaimedJob.number_event hpos rfl)
      rw [hnext]
      refine .of_row rfl rfl ?_
      simp only [JobView.emit, JobView.setRow, JobView.modifyAttempt, hattempt, Option.map_some]
      exact h.put houtcome.symm
  | @heartbeat job _ row hjob hrow hcur =>
      exact ⟨[], (List.append_nil _).symm, .of_row rfl (h.status row hrow) h.attempts⟩
  | @succeeded job summary _ row eventId hjob hrow hcur =>
      obtain ⟨hpos, hopen, hbefore, attempt, hattempt, houtcome⟩ :=
        h.of_isCurrent (hinv.present row hrow) hfence hrow hcur
      refine ⟨_, rfl, ?_⟩
      have hnext : lifecycleAll l [{ job.event .jobExecutionSucceeded clock.written eventId with
          resultCode := some "SUCCESS" }] =
            (l.put job.attemptNumber .succeeded).moveTo .succeeded := by
        rw [← Lifecycle.succeeded_of_open hopen
          (by rcases hbefore with hs | hs <;> rw [hs] <;> rfl)]
        exact congrArg l.succeeded (ClaimedJob.number_event hpos rfl)
      rw [hnext]
      refine .of_row rfl rfl ?_
      simp only [JobView.emit, JobView.setRow, JobView.modifyAttempt, hattempt, Option.map_some]
      exact h.put rfl
  | @failed job failure _ row events hjob hrow hcur hchecks hevents =>
      obtain ⟨hpos, hopen, hbefore, attempt, hattempt, houtcome⟩ :=
        h.of_isCurrent (hinv.present row hrow) hfence hrow hcur
      refine ⟨_, rfl, ?_⟩
      rw [lifecycleAll_failureEvents hevents hpos hopen
        (by rcases hbefore with hs | hs <;> rw [hs] <;> rfl)]
      refine .of_row rfl rfl ?_
      simp only [JobView.emit, JobView.setRow, JobView.modifyAttempt, hattempt, Option.map_some]
      exact h.put rfl
  | @recovered limit locked _ row hrow hstatus hexpired =>
      exact absurd hrecovered (by simp)

/-- A step only adds to the claims that were taken back. -/
theorem JobStep.recovered_eq {service : SchedulerService} {clock : ClockReads}
    {op : Operation Payload} {v v' : JobView Payload} (hs : JobStep service clock op v v')
    (hnil : v'.recovered = []) : v.recovered = [] := by
  cases hs with
  | recovered => simp at hnil
  | _ => exact hnil

/-! ### Every run -/

/-- **The lifecycle follows the queue**, as long as no claim of the job is taken back. -/
theorem LifecycleMirrors.of_reachable [DecidableEq Payload] {service : SchedulerService}
    {w : World Payload} (h : (schedulerMachine service).Reachable w) (jobId : String)
    (hrecovered : (w.view jobId).recovered = []) :
    LifecycleMirrors (w.view jobId) (lifecycleAll .blank (w.view jobId).events) := by
  induction h with
  | start =>
      refine ⟨fun _ => rfl, fun row hrow => ?_, fun _ => rfl⟩
      cases hrow
  | step hs _ hn ih =>
      have hstep := view_step hn jobId
      have hbefore := hstep.recovered_eq hrecovered
      obtain ⟨events, hevents, hmirrors⟩ := LifecycleMirrors.step (QueueInv.of_reachable hs jobId)
        (FenceInv.of_reachable hs jobId) (ih hbefore) hstep (hrecovered.trans hbefore.symm)
      rw [hevents, lifecycleAll_append]
      exact hmirrors

end ScheduledJobs
