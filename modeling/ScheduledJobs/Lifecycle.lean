/-
**The lifecycle of a job: its status and the statuses of its attempts.**

The guards of the thirteen handlers of `ScheduledJobs/ReduceVisibility.lean` read two things only:
the recorded status of the job and the status of the attempt the event is about.  This module
isolates the automaton they form: a lifecycle is a status together with the status of each attempt,
and `Lifecycle.next` says where an event takes it.  What is proved about terminal statuses, about
delivery orders and about runs of the scheduler is proved about this automaton.

Main definitions:

* `Lifecycle`, `JobVisibility.lifecycle` — the automaton's states, and the state of a projection;
* `Lifecycle.next` — **the automaton**;
* `lifecycleAll` — the automaton run over a list of events.

Main results:

* `lifecycle_reduceEvent` — **the reducer refines the automaton**, event by event;
* `lifecycle_reduceAll` — and along any list of events.
-/

import ScheduledJobs.ReduceVisibility
import Mathlib.Logic.Function.Basic

set_option relaxedAutoImplicit false
set_option autoImplicit false

namespace ScheduledJobs

open JobVisibility

/-- The recorded status of a job, and the status of each attempt that was observed. -/
@[ext] structure Lifecycle where
  status : Status
  attempts : ℕ → Option AttemptStatus

namespace Lifecycle

/-- Nothing observed. -/
def blank : Lifecycle := ⟨.unknown, fun _ => none⟩

/-- The status of an attempt, `UNKNOWN` before the attempt is observed. -/
def attemptStatus (l : Lifecycle) (number : ℕ) : AttemptStatus :=
  (l.attempts number).getD .unknown

/-- The job moves to a status. -/
def moveTo (l : Lifecycle) (status : Status) : Lifecycle := { l with status := status }

/-- An attempt is observed in a status. -/
def put (l : Lifecycle) (number : ℕ) (status : AttemptStatus) : Lifecycle :=
  { l with attempts := Function.update l.attempts number (some status) }

@[simp] theorem status_moveTo (l : Lifecycle) (s : Status) : (l.moveTo s).status = s := rfl

@[simp] theorem attempts_moveTo (l : Lifecycle) (s : Status) :
    (l.moveTo s).attempts = l.attempts := rfl

@[simp] theorem status_put (l : Lifecycle) (n : ℕ) (s : AttemptStatus) :
    (l.put n s).status = l.status := rfl

@[simp] theorem attempts_put (l : Lifecycle) (n : ℕ) (s : AttemptStatus) :
    (l.put n s).attempts = Function.update l.attempts n (some s) := rfl

@[simp] theorem attemptStatus_put_self (l : Lifecycle) (n : ℕ) (s : AttemptStatus) :
    (l.put n s).attemptStatus n = s := by simp [attemptStatus]

theorem attemptStatus_put_ne (l : Lifecycle) {n m : ℕ} (h : m ≠ n) (s : AttemptStatus) :
    (l.put n s).attemptStatus m = l.attemptStatus m := by
  simp [attemptStatus, Function.update_of_ne h]

/-- An attempt with a status other than `UNKNOWN` was observed. -/
theorem attempts_of_attemptStatus {l : Lifecycle} {n : ℕ} (h : l.attemptStatus n ≠ .unknown) :
    l.attempts n = some (l.attemptStatus n) := by
  unfold attemptStatus at h ⊢
  cases hn : l.attempts n with
  | none => simp [hn] at h
  | some s => rfl

end Lifecycle

namespace Lifecycle

/-! ### The automaton -/

/-- `JOB_CREATED` names a job nothing else is known about. -/
def created (l : Lifecycle) : Lifecycle := if l.status = .unknown then l.moveTo .created else l

/-- Submission evidence moves the job to `target` from any status that is neither terminal nor
one of those listed. -/
def submit (l : Lifecycle) (later : List Status) (target : Status) : Lifecycle :=
  if ¬ l.status.isTerminal ∧ l.status ∉ later then l.moveTo target else l

/-- Evidence that decides a job which is not yet decided. -/
def conclude (l : Lifecycle) (target : Status) : Lifecycle :=
  if l.status.isTerminal then l else l.moveTo target

/-- `JOB_SCHEDULER_ITEM_RETRIEVED`. -/
def retrieved (l : Lifecycle) (n : ℕ) : Lifecycle :=
  (l.put n (if l.attemptStatus n = .unknown then .retrieved else l.attemptStatus n)).submit
    [.running] .awaitingExecution

/-- The guards of `JOB_EXECUTION_STARTED`: the start is backfilled, and nothing moves. -/
def Settled (l : Lifecycle) (n : ℕ) : Prop :=
  (l.attemptStatus n = .succeeded ∨ l.status = .succeeded) ∨
    l.attemptStatus n = .failed ∧ l.status = .failed

instance (l : Lifecycle) (n : ℕ) : Decidable (l.Settled n) := inferInstanceAs (Decidable (_ ∨ _))

/-- `JOB_EXECUTION_STARTED`. -/
def started (l : Lifecycle) (n : ℕ) : Lifecycle :=
  if l.Settled n then l.put n (l.attemptStatus n) else (l.put n .running).moveTo .running

/-- A success of the attempt contradicts what is recorded. -/
def ContradictsSuccess (l : Lifecycle) (n : ℕ) : Prop :=
  l.attemptStatus n = .failed ∨ l.status.isTerminal ∧ l.status ∉ [.succeeded, .cancelled]

instance (l : Lifecycle) (n : ℕ) : Decidable (l.ContradictsSuccess n) :=
  inferInstanceAs (Decidable (_ ∨ _))

/-- `JOB_EXECUTION_SUCCEEDED`. -/
def succeeded (l : Lifecycle) (n : ℕ) : Lifecycle :=
  if l.attemptStatus n = .succeeded then l
  else if l.ContradictsSuccess n then l.put n (l.attemptStatus n)
  else (l.put n .succeeded).moveTo .succeeded

/-- A failure of the attempt contradicts what is recorded. -/
def ContradictsFailure (l : Lifecycle) (n : ℕ) : Prop :=
  l.attemptStatus n = .succeeded ∨ l.status.isTerminal ∧ l.status ≠ .cancelled

instance (l : Lifecycle) (n : ℕ) : Decidable (l.ContradictsFailure n) :=
  inferInstanceAs (Decidable (_ ∨ _))

/-- `JOB_EXECUTION_FAILED`. -/
def failed (l : Lifecycle) (n : ℕ) (retryable : Bool) : Lifecycle :=
  if l.attemptStatus n = .failed then l
  else if l.ContradictsFailure n then l.put n (l.attemptStatus n)
  else (l.put n .failed).moveTo (if retryable then .retryPending else .failed)

/-- `JOB_RETRIES_EXHAUSTED`. -/
def exhausted (l : Lifecycle) : Lifecycle :=
  if l.status = .succeeded then l else l.moveTo .retriesExhausted

/-- **Where an event takes a lifecycle.** -/
def next (l : Lifecycle) (event : Event) : Lifecycle :=
  match event.eventType with
  | .jobCreated => l.created
  | .jobSchedulerSubmissionRequested =>
      l.submit [.running, .retryPending, .retryScheduled] .pendingSubmission
  | .jobSchedulerSubmissionAcknowledged =>
      l.submit [.running, .retryPending, .retryScheduled, .awaitingExecution] .scheduled
  | .jobSchedulerSubmissionFailed => l.conclude .failed
  | .jobSchedulerItemRetrieved => l.retrieved event.number
  | .jobExecutionStarted => l.started event.number
  | .jobExecutionSucceeded => l.succeeded event.number
  | .jobExecutionFailed => l.failed event.number (event.retryable.getD false)
  | .jobRetryRequested => l.conclude .retryPending
  | .jobRetryAcknowledged => l.submit [.running] .retryScheduled
  | .jobRetryRejected => l.conclude .failed
  | .jobRetriesExhausted => l.exhausted
  | .jobCancelled => l.conclude .cancelled

end Lifecycle

/-- The automaton run over a list of events. -/
def lifecycleAll (l : Lifecycle) (events : List Event) : Lifecycle := events.foldl Lifecycle.next l

/-! ### The reducer refines the automaton -/

/-- The lifecycle a projection records. -/
def JobVisibility.lifecycle (job : JobVisibility) : Lifecycle where
  status := job.recordedStatus
  attempts := fun number => (job.attempts.get? number).map Attempt.status

/-- The lifecycle of an optional projection. -/
def lifecycleOf (current : Option JobVisibility) : Lifecycle :=
  (current.map JobVisibility.lifecycle).getD .blank

theorem lifecycle_currentOrBlank (current : Option JobVisibility) (event : Event) :
    (currentOrBlank current event).lifecycle = lifecycleOf current := by
  cases current <;> rfl

/-- The status of the attempt a handler is given. -/
theorem attemptStatus_lifecycle (job : JobVisibility) (number : ℕ) :
    job.lifecycle.attemptStatus number = (job.attemptAt number).status := by
  simp only [Lifecycle.attemptStatus, lifecycle, attemptAt]
  cases job.attempts.get? number <;> rfl

/-- A projection that differs from another one in one attempt and in the status. -/
theorem lifecycle_eq_put {job after : JobVisibility} {number : ℕ} {attempt : Attempt}
    (h : ∀ m, after.attempts.get? m = if m = number then some attempt else job.attempts.get? m) :
    after.lifecycle = (job.lifecycle.put number attempt.status).moveTo after.recordedStatus := by
  ext1
  · rfl
  · funext m
    simp only [lifecycle, h, Lifecycle.attempts_moveTo, Lifecycle.attempts_put]
    by_cases hm : m = number
    · simp [hm]
    · simp [hm, Function.update_of_ne]

/-- Reading the attempts after opening one and writing it. -/
theorem get?_openAttempt_set (job : JobVisibility) (event : Event) (attempt : Attempt) (m : ℕ) :
    ((job.openAttempt event).attempts.set event.number attempt).get? m =
      if m = event.number then some attempt else job.attempts.get? m := by
  simp only [openAttempt, Dict.get?_set]
  split <;> rfl

theorem get?_openAttempt_set_set (job : JobVisibility) (event : Event) (first attempt : Attempt)
    (m : ℕ) :
    (((job.openAttempt event).attempts.set event.number first).set event.number attempt).get? m =
      if m = event.number then some attempt else job.attempts.get? m := by
  rw [Dict.get?_set, get?_openAttempt_set]
  split <;> rfl

/-- Opening an attempt does not change it. -/
@[simp] theorem attemptAt_openAttempt (job : JobVisibility) (event : Event) :
    (job.openAttempt event).attemptAt event.number = job.attemptAt event.number := by
  simp [attemptAt, openAttempt]

theorem lifecycle_openAttempt (job : JobVisibility) (event : Event) :
    (job.openAttempt event).lifecycle =
      job.lifecycle.put event.number (job.lifecycle.attemptStatus event.number) := by
  rw [attemptStatus_lifecycle, lifecycle_eq_put (fun m => by rw [← Dict.get?_set]; rfl)]
  rfl

/-- Moving to a status chosen by a condition. -/
theorem Lifecycle.moveTo_ite (l : Lifecycle) (p : Prop) [Decidable p] (s : Status) :
    l.moveTo (if p then s else l.status) = if p then l.moveTo s else l := by
  split <;> rfl

/-- A handler that moves the status under a condition and leaves the attempts alone. -/
theorem lifecycle_ite {job after : JobVisibility} {p : Prop} [Decidable p] {s : Status}
    (hattempts : after.attempts = job.attempts)
    (hstatus : after.recordedStatus = if p then s else job.recordedStatus) :
    after.lifecycle = if p then job.lifecycle.moveTo s else job.lifecycle := by
  rw [← Lifecycle.moveTo_ite]
  ext1
  · exact hstatus
  · simp only [lifecycle, hattempts, Lifecycle.attempts_moveTo]

/-- A handler that decides an undecided job, and ignores the event on a decided one. -/
theorem lifecycle_conclude {job : JobVisibility} {ignored changed : Handled} {s : Status}
    (hignored : ignored.1 = job) (hattempts : changed.1.attempts = job.attempts)
    (hstatus : changed.1.recordedStatus = s) :
    (if job.recordedStatus.isTerminal then ignored else changed).1.lifecycle =
      job.lifecycle.conclude s := by
  by_cases h : job.recordedStatus.isTerminal
  · have hl : job.lifecycle.status.isTerminal := h
    rw [if_pos h, hignored, Lifecycle.conclude, if_pos hl]
  · have hl : ¬ job.lifecycle.status.isTerminal := h
    rw [if_neg h, Lifecycle.conclude, if_neg hl]
    ext1
    · exact hstatus
    · simp only [lifecycle, hattempts, Lifecycle.attempts_moveTo]

theorem lifecycle_onJobSchedulerItemRetrieved (job : JobVisibility) (event : Event) :
    (onJobSchedulerItemRetrieved job event).1.lifecycle = job.lifecycle.retrieved event.number := by
  simp only [onJobSchedulerItemRetrieved, attemptAt_openAttempt]
  rw [lifecycle_eq_put (get?_openAttempt_set job event _), Lifecycle.retrieved,
    attemptStatus_lifecycle, Lifecycle.submit, ← Lifecycle.moveTo_ite]
  simp [lifecycle, openAttempt]

theorem lifecycle_onJobExecutionStarted (job : JobVisibility) (event : Event) :
    (onJobExecutionStarted job event).1.lifecycle = job.lifecycle.started event.number := by
  have hopen : (job.openAttempt event).recordedStatus = job.lifecycle.status := rfl
  simp only [onJobExecutionStarted, attemptAt_openAttempt, hopen, ← attemptStatus_lifecycle]
  by_cases h₁ : job.lifecycle.attemptStatus event.number = .succeeded ∨
      job.lifecycle.status = .succeeded
  · have hset : job.lifecycle.Settled event.number := Or.inl h₁
    rw [if_pos h₁, Lifecycle.started, if_pos hset,
      lifecycle_eq_put (get?_openAttempt_set job event _), attemptStatus_lifecycle]
    rfl
  by_cases h₂ : job.lifecycle.attemptStatus event.number = .failed ∧ job.lifecycle.status = .failed
  · have hset : job.lifecycle.Settled event.number := Or.inr h₂
    rw [if_neg h₁, if_pos h₂, Lifecycle.started, if_pos hset,
      lifecycle_eq_put (get?_openAttempt_set job event _), attemptStatus_lifecycle]
    rfl
  · have hset : ¬ job.lifecycle.Settled event.number := fun h => h.elim h₁ h₂
    rw [if_neg h₁, if_neg h₂, Lifecycle.started, if_neg hset]
    rw [lifecycle_eq_put (get?_openAttempt_set_set job event _ _)]

/-- A contradicted outcome opens the attempt and records a finding. -/
theorem lifecycle_terminalConflict (job : JobVisibility) (event : Event) :
    ((job.openAttempt event).terminalConflict event).lifecycle =
      job.lifecycle.put event.number (job.lifecycle.attemptStatus event.number) :=
  lifecycle_openAttempt job event

theorem lifecycle_onJobExecutionSucceeded (job : JobVisibility) (event : Event)
    (hdup : job.lifecycle.attemptStatus event.number ≠ .succeeded) :
    (onJobExecutionSucceeded job event).1.lifecycle = job.lifecycle.succeeded event.number := by
  have hopen : (job.openAttempt event).recordedStatus = job.lifecycle.status := rfl
  simp only [onJobExecutionSucceeded, attemptAt_openAttempt, hopen, ← attemptStatus_lifecycle]
  rw [Lifecycle.succeeded, if_neg hdup]
  by_cases h : job.lifecycle.attemptStatus event.number = .failed ∨
      job.lifecycle.status.isTerminal ∧ job.lifecycle.status ∉ [.succeeded, .cancelled]
  · have hcon : job.lifecycle.ContradictsSuccess event.number := h
    rw [if_pos h, if_pos hcon, lifecycle_terminalConflict]
  · have hcon : ¬ job.lifecycle.ContradictsSuccess event.number := h
    rw [if_neg h, if_neg hcon, lifecycle_eq_put (get?_openAttempt_set job event _)]

theorem lifecycle_onJobExecutionFailed (job : JobVisibility) (event : Event)
    (hdup : job.lifecycle.attemptStatus event.number ≠ .failed) :
    (onJobExecutionFailed job event).1.lifecycle =
      job.lifecycle.failed event.number (event.retryable.getD false) := by
  have hopen : (job.openAttempt event).recordedStatus = job.lifecycle.status := rfl
  simp only [onJobExecutionFailed, attemptAt_openAttempt, hopen, ← attemptStatus_lifecycle]
  rw [Lifecycle.failed, if_neg hdup]
  by_cases h₁ : job.lifecycle.attemptStatus event.number = .succeeded ∨
      job.lifecycle.status = .succeeded
  · have hcon : job.lifecycle.ContradictsFailure event.number := by
      rcases h₁ with h | h
      · exact Or.inl h
      · exact Or.inr (by simp [h, Status.isTerminal])
    rw [if_pos h₁, if_pos hcon, lifecycle_terminalConflict]
  by_cases h₂ : job.lifecycle.status.isTerminal ∧ job.lifecycle.status ∉ [.cancelled]
  · have hcon : job.lifecycle.ContradictsFailure event.number := Or.inr (by simpa using h₂)
    rw [if_neg h₁, if_pos h₂, if_pos hcon, lifecycle_terminalConflict]
  · have hcon : ¬ job.lifecycle.ContradictsFailure event.number := by
      rintro (h | h)
      · exact h₁ (Or.inl h)
      · exact h₂ (by simpa using h)
    rw [if_neg h₁, if_neg h₂, if_neg hcon, lifecycle_eq_put (get?_openAttempt_set job event _)]

theorem lifecycle_onJobRetriesExhausted (job : JobVisibility) (event : Event) :
    (onJobRetriesExhausted job event).1.lifecycle = job.lifecycle.exhausted := by
  simp only [onJobRetriesExhausted, Lifecycle.exhausted]
  by_cases h : job.recordedStatus = .succeeded
  · have hl : job.lifecycle.status = .succeeded := h
    rw [if_pos h, if_pos hl]
  · have hl : ¬ job.lifecycle.status = .succeeded := h
    rw [if_neg h, if_neg hl]
    rfl

/-- **The handlers refine the automaton**, on events that are not semantic duplicates. -/
theorem lifecycle_handler (job : JobVisibility) (event : Event)
    (hdup : isSemanticDuplicate job event = false) :
    (handler event.eventType job event).1.lifecycle = job.lifecycle.next event := by
  have hattempt : job.lifecycle.attempts event.number =
      (job.attempts.get? event.number).map Attempt.status := rfl
  cases ht : event.eventType with
  | jobCreated =>
      simp only [Lifecycle.next, ht]
      exact lifecycle_ite rfl rfl
  | jobSchedulerSubmissionRequested =>
      simp only [Lifecycle.next, ht]
      exact lifecycle_ite rfl rfl
  | jobSchedulerSubmissionAcknowledged =>
      simp only [Lifecycle.next, ht]
      exact lifecycle_ite rfl rfl
  | jobSchedulerSubmissionFailed =>
      simp only [Lifecycle.next, ht]
      exact lifecycle_conclude rfl rfl rfl
  | jobSchedulerItemRetrieved =>
      simp only [Lifecycle.next, ht]
      exact lifecycle_onJobSchedulerItemRetrieved job event
  | jobExecutionStarted =>
      simp only [Lifecycle.next, ht]
      exact lifecycle_onJobExecutionStarted job event
  | jobExecutionSucceeded =>
      simp only [Lifecycle.next, ht]
      refine lifecycle_onJobExecutionSucceeded job event fun h => ?_
      have := Lifecycle.attempts_of_attemptStatus (l := job.lifecycle) (n := event.number)
        (by rw [h]; decide)
      rw [h, hattempt, Option.map_eq_some_iff] at this
      obtain ⟨attempt, hget, hstatus⟩ := this
      simp [isSemanticDuplicate, hget, hstatus, ht] at hdup
  | jobExecutionFailed =>
      simp only [Lifecycle.next, ht]
      refine lifecycle_onJobExecutionFailed job event fun h => ?_
      have := Lifecycle.attempts_of_attemptStatus (l := job.lifecycle) (n := event.number)
        (by rw [h]; decide)
      rw [h, hattempt, Option.map_eq_some_iff] at this
      obtain ⟨attempt, hget, hstatus⟩ := this
      simp [isSemanticDuplicate, hget, hstatus, ht] at hdup
  | jobRetryRequested =>
      simp only [Lifecycle.next, ht]
      exact lifecycle_conclude rfl rfl rfl
  | jobRetryAcknowledged =>
      simp only [Lifecycle.next, ht]
      refine lifecycle_ite rfl ?_
      simp [handler, onJobRetryAcknowledged, lifecycle]
  | jobRetryRejected =>
      simp only [Lifecycle.next, ht]
      exact lifecycle_conclude rfl rfl rfl
  | jobRetriesExhausted =>
      simp only [Lifecycle.next, ht]
      exact lifecycle_onJobRetriesExhausted job event
  | jobCancelled =>
      simp only [Lifecycle.next, ht]
      exact lifecycle_conclude rfl rfl rfl

/-! ### Along events -/

/-- What a semantic duplicate repeats: the outcome the attempt already has. -/
theorem isSemanticDuplicate_iff {job : JobVisibility} {event : Event} :
    isSemanticDuplicate job event = true ↔
      (event.eventType = .jobExecutionSucceeded ∧
          job.lifecycle.attemptStatus event.number = .succeeded) ∨
        (event.eventType = .jobExecutionFailed ∧
          job.lifecycle.attemptStatus event.number = .failed) := by
  simp only [isSemanticDuplicate, Lifecycle.attemptStatus, lifecycle]
  cases job.attempts.get? event.number with
  | none => simp
  | some attempt => simp

/-- The automaton does not move on a semantic duplicate. -/
theorem next_of_isSemanticDuplicate {job : JobVisibility} {event : Event}
    (hdup : isSemanticDuplicate job event = true) :
    job.lifecycle.next event = job.lifecycle := by
  rcases isSemanticDuplicate_iff.1 hdup with ⟨ht, hs⟩ | ⟨ht, hs⟩
  · rw [Lifecycle.next, ht]
    exact if_pos hs
  · rw [Lifecycle.next, ht]
    exact if_pos hs

theorem lifecycle_decideEvent (job : JobVisibility) (event : Event) :
    (decideEvent job event).1.lifecycle = job.lifecycle.next event := by
  unfold decideEvent
  by_cases hdup : isSemanticDuplicate job event = true
  · rw [if_pos hdup, next_of_isSemanticDuplicate hdup]
  · have hmerged : isSemanticDuplicate (mergeCommon job event) event = false := by
      simpa [isSemanticDuplicate, mergeCommon] using hdup
    have hproject : (project job event).1.lifecycle = job.lifecycle.next event :=
      lifecycle_handler (mergeCommon job event) event hmerged
    rw [if_neg hdup]
    simp only []
    split
    · exact hproject
    · exact hproject

/-- **The reducer refines the automaton.** -/
theorem lifecycle_reduceEvent (current : Option JobVisibility) (event : Event) :
    (reduceEvent current event).job.lifecycle = (lifecycleOf current).next event := by
  rw [← lifecycle_currentOrBlank current event, ← lifecycle_decideEvent]
  rfl

/-- The reducer refines the automaton along any list of events. -/
theorem lifecycle_reduceAll (current : Option JobVisibility) (events : List Event) :
    lifecycleOf (reduceAll current events) = lifecycleAll (lifecycleOf current) events := by
  induction events generalizing current with
  | nil => rfl
  | cons event events ih =>
      rw [reduceAll_cons, ih, lifecycleAll, lifecycleAll, List.foldl_cons,
        ← lifecycle_reduceEvent current event]
      rfl

end ScheduledJobs
