/-
**The attempts of a projection, event by event.**

Four of the thirteen handlers begin by opening the attempt the event is about; they write that
attempt and no other, and the remaining handlers write none.  What such a handler makes of the
status of the attempt is the automaton of `ScheduledJobs/Lifecycle.lean`; this module says what it
makes of the two times an attempt is observed at, and that nothing else happens to the map.

Main definitions:

* `EventType.opensAttempt` — the types whose handlers open an attempt;
* `JobVisibility.attemptRetrievedAt`, `JobVisibility.attemptStartedAt` — the times of an attempt.

Main results:

* `Lifecycle.attemptStatus_next` — **what an event makes of the status of each attempt**;
* `Lifecycle.succeeded_next_iff`, `Lifecycle.failed_of_next` — only its own outcomes decide an
  attempt, and a success is for good;
* `get?_handler_of_opensAttempt`, `sameAttempts_handler` — **what a handler does to the attempts**;
* `isSome_get?_projectedBy`, `attemptRetrievedAt_projectedBy`, `attemptStartedAt_projectedBy` — what
  an event does to the keys of the map and to the times in it.
-/

import ScheduledJobs.Lifecycle

set_option relaxedAutoImplicit false
set_option autoImplicit false

namespace ScheduledJobs

open JobVisibility

/-- The handlers of these types call `_attempt`. -/
def EventType.opensAttempt : EventType → Bool
  | jobSchedulerItemRetrieved | jobExecutionStarted | jobExecutionSucceeded
  | jobExecutionFailed => true
  | _ => false

/-- `event.poll_time or event.event_time`: when the item was retrieved. -/
def Event.retrievalTime (event : Event) : Datetime := event.pollTime.getD event.eventTime

namespace JobVisibility

/-- When an attempt was retrieved, if it was. -/
def attemptRetrievedAt (job : JobVisibility) (n : ℕ) : Option Datetime :=
  (job.attempts.get? n).bind Attempt.retrievedAt

/-- When an attempt was started, if it was. -/
def attemptStartedAt (job : JobVisibility) (n : ℕ) : Option Datetime :=
  (job.attempts.get? n).bind Attempt.startedAt

/-- A new attempt has neither time. -/
theorem retrievedAt_attemptAt (job : JobVisibility) (n : ℕ) :
    (job.attemptAt n).retrievedAt = job.attemptRetrievedAt n := by
  simp only [attemptAt, attemptRetrievedAt]
  cases job.attempts.get? n <;> rfl

theorem startedAt_attemptAt (job : JobVisibility) (n : ℕ) :
    (job.attemptAt n).startedAt = job.attemptStartedAt n := by
  simp only [attemptAt, attemptStartedAt]
  cases job.attempts.get? n <;> rfl

end JobVisibility

/-! ### The automaton -/

namespace Lifecycle

@[simp] theorem attempts_submit (l : Lifecycle) (later : List Status) (target : Status) :
    (l.submit later target).attempts = l.attempts := by
  unfold submit
  split <;> rfl

@[simp] theorem attemptStatus_submit (l : Lifecycle) (later : List Status) (target : Status)
    (n : ℕ) : (l.submit later target).attemptStatus n = l.attemptStatus n := by
  rw [attemptStatus, attempts_submit, attemptStatus]

theorem status_submit (l : Lifecycle) (later : List Status) (target : Status) :
    (l.submit later target).status =
      if ¬ l.status.isTerminal ∧ l.status ∉ later then target else l.status := by
  unfold submit
  split <;> rfl

@[simp] theorem attempts_conclude (l : Lifecycle) (target : Status) :
    (l.conclude target).attempts = l.attempts := by
  unfold conclude
  split <;> rfl

/-- What a success contradicts: a failure of the attempt, or of the job. -/
theorem contradictsSuccess_iff {l : Lifecycle} {n : ℕ} :
    l.ContradictsSuccess n ↔
      l.attemptStatus n = .failed ∨ l.status ∈ [.failed, .retriesExhausted] := by
  unfold ContradictsSuccess
  refine or_congr_right ?_
  cases l.status <;> decide

/-- What a failure contradicts: a success of the attempt, or a job that is finished. -/
theorem contradictsFailure_iff {l : Lifecycle} {n : ℕ} :
    l.ContradictsFailure n ↔
      l.attemptStatus n = .succeeded ∨ l.status ∈ [.succeeded, .failed, .retriesExhausted] := by
  unfold ContradictsFailure
  refine or_congr_right ?_
  cases l.status <;> decide

/-- The automaton leaves the attempts alone where the handlers do. -/
theorem attempts_next_of_not_opensAttempt {event : Event}
    (ht : event.eventType.opensAttempt = false) (l : Lifecycle) :
    (l.next event).attempts = l.attempts := by
  unfold next
  split
  · unfold created
    split <;> rfl
  · exact attempts_submit ..
  · exact attempts_submit ..
  · exact attempts_conclude ..
  · next h => rw [h] at ht; cases ht
  · next h => rw [h] at ht; cases ht
  · next h => rw [h] at ht; cases ht
  · next h => rw [h] at ht; cases ht
  · exact attempts_conclude ..
  · exact attempts_submit ..
  · exact attempts_conclude ..
  · unfold exhausted
    split <;> rfl
  · exact attempts_conclude ..

/-- What an event makes of the attempt it is about. -/
def attemptAfter (l : Lifecycle) (event : Event) : AttemptStatus :=
  match event.eventType with
  | .jobSchedulerItemRetrieved =>
      if l.attemptStatus event.number = .unknown then .retrieved
      else l.attemptStatus event.number
  | .jobExecutionStarted =>
      if l.Settled event.number then l.attemptStatus event.number else .running
  | .jobExecutionSucceeded =>
      if l.ContradictsSuccess event.number then l.attemptStatus event.number else .succeeded
  | .jobExecutionFailed =>
      if l.ContradictsFailure event.number then l.attemptStatus event.number else .failed
  | _ => l.attemptStatus event.number

/-- Writing one attempt. -/
theorem attemptStatus_put (l : Lifecycle) (n : ℕ) (s : AttemptStatus) (m : ℕ) :
    (l.put n s).attemptStatus m = if m = n then s else l.attemptStatus m := by
  split
  · next h => rw [h, attemptStatus_put_self]
  · next h => exact attemptStatus_put_ne l h s

/-- **What an event makes of the attempts.** -/
theorem attemptStatus_next (l : Lifecycle) (event : Event) (m : ℕ) :
    (l.next event).attemptStatus m =
      if m = event.number then l.attemptAfter event else l.attemptStatus m := by
  have hself : l.attemptStatus m =
      if m = event.number then l.attemptStatus event.number else l.attemptStatus m := by
    split
    · next h => rw [h]
    · rfl
  have hmoveTo : ∀ (l' : Lifecycle) (s : Status), (l'.moveTo s).attemptStatus m =
      l'.attemptStatus m := fun _ _ => rfl
  cases ht : event.eventType with
  | jobSchedulerItemRetrieved =>
      simp only [Lifecycle.next, attemptAfter, ht, retrieved, attemptStatus_submit,
        attemptStatus_put]
  | jobExecutionStarted =>
      simp only [Lifecycle.next, attemptAfter, ht, started]
      split
      · rw [attemptStatus_put]
      · rw [hmoveTo, attemptStatus_put]
  | jobExecutionSucceeded =>
      simp only [Lifecycle.next, attemptAfter, ht, succeeded]
      split
      · next hdup => rw [hdup, ite_self, ← hdup, ← hself]
      · split
        · rw [attemptStatus_put]
        · rw [hmoveTo, attemptStatus_put]
  | jobExecutionFailed =>
      simp only [Lifecycle.next, attemptAfter, ht, failed]
      split
      · next hdup => rw [hdup, ite_self, ← hdup, ← hself]
      · split
        · rw [attemptStatus_put]
        · rw [hmoveTo, attemptStatus_put]
  | _ =>
      rw [attemptStatus, attempts_next_of_not_opensAttempt (by rw [ht]; rfl)]
      simp only [attemptAfter, ht]
      exact hself

/-- **Only a success of its own makes an attempt succeed**, and it stays so. -/
theorem succeeded_next_iff {l : Lifecycle} {event : Event} {m : ℕ} :
    (l.next event).attemptStatus m = .succeeded ↔
      l.attemptStatus m = .succeeded ∨
        event.eventType = .jobExecutionSucceeded ∧ event.number = m ∧
          ¬ l.ContradictsSuccess m := by
  rw [attemptStatus_next]
  by_cases hm : m = event.number
  · subst hm
    simp only [if_true, true_and, attemptAfter]
    cases ht : event.eventType with
    | jobSchedulerItemRetrieved =>
        by_cases h : l.attemptStatus event.number = .unknown <;> simp [h]
    | jobExecutionStarted =>
        by_cases hset : l.Settled event.number
        · simp [hset]
        · have hne : l.attemptStatus event.number ≠ .succeeded := fun h =>
            hset (Or.inl (Or.inl h))
          simp [hset, hne]
    | jobExecutionSucceeded =>
        by_cases hcon : l.ContradictsSuccess event.number <;> simp [hcon]
    | jobExecutionFailed =>
        by_cases hcon : l.ContradictsFailure event.number
        · simp [hcon]
        · have hne : l.attemptStatus event.number ≠ .succeeded := fun h => hcon (Or.inl h)
          simp [hcon, hne]
    | _ => simp
  · simp [hm, Ne.symm hm]

/-- **Only a failure of its own makes an attempt fail.** -/
theorem failed_of_next {l : Lifecycle} {event : Event} {m : ℕ}
    (h : (l.next event).attemptStatus m = .failed) :
    l.attemptStatus m = .failed ∨
      event.eventType = .jobExecutionFailed ∧ event.number = m := by
  rw [attemptStatus_next] at h
  by_cases hm : m = event.number
  · subst hm
    rw [if_pos rfl, attemptAfter] at h
    cases ht : event.eventType with
    | jobExecutionFailed => exact Or.inr ⟨rfl, rfl⟩
    | jobSchedulerItemRetrieved | jobExecutionStarted | jobExecutionSucceeded =>
        simp only [ht] at h
        split at h
        · first | exact Or.inl h | cases h
        · first | exact Or.inl h | cases h
    | _ =>
        simp only [ht] at h
        exact Or.inl h
  · rw [if_neg hm] at h
    exact Or.inl h

end Lifecycle

/-! ### Handlers -/

/-- What the other handlers leave alone: the attempts and the flags, and the findings but for a
missing acknowledgement, which they may resolve. -/
structure JobVisibility.SameAttempts (job after : JobVisibility) : Prop where
  attempts : after.attempts = job.attempts
  cancellationViolation : after.cancellationViolation = job.cancellationViolation
  retriesExhaustedViolation : after.retriesExhaustedViolation = job.retriesExhaustedViolation
  incompleteLifecycle : after.incompleteLifecycle = job.incompleteLifecycle
  findings : after.findings = job.findings ∨
    ∃ code ∈ [FindingCode.schedulerAckTimeout, .retryAckTimeout], ∃ t,
      after.findings = Findings.resolve job.findings code t

/-- **The handlers that open no attempt.** -/
theorem sameAttempts_handler {t : EventType} (ht : t.opensAttempt = false) (job : JobVisibility)
    (event : Event) : job.SameAttempts (handler t job event).1 := by
  cases t with
  | jobCreated => exact ⟨rfl, rfl, rfl, rfl, Or.inl rfl⟩
  | jobSchedulerSubmissionRequested => exact ⟨rfl, rfl, rfl, rfl, Or.inl rfl⟩
  | jobSchedulerSubmissionAcknowledged =>
      exact ⟨rfl, rfl, rfl, rfl, Or.inr ⟨_, by decide, _, rfl⟩⟩
  | jobRetryAcknowledged => exact ⟨rfl, rfl, rfl, rfl, Or.inr ⟨_, by decide, _, rfl⟩⟩
  | jobSchedulerSubmissionFailed =>
      simp only [handler, onJobSchedulerSubmissionFailed]
      split <;> exact ⟨rfl, rfl, rfl, rfl, Or.inl rfl⟩
  | jobRetryRequested =>
      simp only [handler, onJobRetryRequested]
      split <;> exact ⟨rfl, rfl, rfl, rfl, Or.inl rfl⟩
  | jobRetryRejected =>
      simp only [handler, onJobRetryRejected]
      split <;> exact ⟨rfl, rfl, rfl, rfl, Or.inl rfl⟩
  | jobRetriesExhausted =>
      simp only [handler, onJobRetriesExhausted]
      split <;> exact ⟨rfl, rfl, rfl, rfl, Or.inl rfl⟩
  | jobCancelled =>
      simp only [handler, onJobCancelled]
      split <;> exact ⟨rfl, rfl, rfl, rfl, Or.inl rfl⟩
  | jobSchedulerItemRetrieved => cases ht
  | jobExecutionStarted => cases ht
  | jobExecutionSucceeded => cases ht
  | jobExecutionFailed => cases ht

/-- **What a handler that opens an attempt does to the attempts**: the one the event is about is
written, with the time of the event merged into the time that is observed. -/
theorem get?_handler_of_opensAttempt {t : EventType} (ht : t.opensAttempt) (job : JobVisibility)
    (event : Event) :
    ∃ attempt, (∀ m, (handler t job event).1.attempts.get? m =
        if m = event.number then some attempt else job.attempts.get? m) ∧
      attempt.retrievedAt =
        (if t = .jobSchedulerItemRetrieved then
          earliest (job.attemptRetrievedAt event.number) event.retrievalTime
        else job.attemptRetrievedAt event.number) ∧
      attempt.startedAt =
        (if t = .jobExecutionStarted then
          earliest (job.attemptStartedAt event.number) event.eventTime
        else job.attemptStartedAt event.number) := by
  simp only [← retrievedAt_attemptAt, ← startedAt_attemptAt]
  cases t with
  | jobSchedulerItemRetrieved =>
      simp only [handler, onJobSchedulerItemRetrieved, attemptAt_openAttempt]
      exact ⟨_, get?_openAttempt_set job event _, rfl, rfl⟩
  | jobExecutionStarted =>
      simp only [handler, onJobExecutionStarted, attemptAt_openAttempt]
      split
      · exact ⟨_, get?_openAttempt_set job event _, rfl, rfl⟩
      · split
        · exact ⟨_, get?_openAttempt_set job event _, rfl, rfl⟩
        · exact ⟨_, get?_openAttempt_set_set job event _ _, rfl, rfl⟩
  | jobExecutionSucceeded =>
      simp only [handler, onJobExecutionSucceeded, attemptAt_openAttempt]
      split
      · -- a contradicted outcome opens the attempt and no more
        exact ⟨job.attemptAt event.number,
          fun m => Dict.get?_set job.attempts event.number m _, rfl, rfl⟩
      · exact ⟨_, get?_openAttempt_set job event _, rfl, rfl⟩
  | jobExecutionFailed =>
      simp only [handler, onJobExecutionFailed, attemptAt_openAttempt]
      split
      · exact ⟨job.attemptAt event.number,
          fun m => Dict.get?_set job.attempts event.number m _, rfl, rfl⟩
      · split
        · exact ⟨job.attemptAt event.number,
          fun m => Dict.get?_set job.attempts event.number m _, rfl, rfl⟩
        · exact ⟨_, get?_openAttempt_set job event _, rfl, rfl⟩
  | _ => cases ht

/-! ### Events -/

/-- The attempt whose outcome is repeated was observed before. -/
theorem opensAttempt_of_isSemanticDuplicate {job : JobVisibility} {event : Event}
    (hdup : isSemanticDuplicate job event = true) :
    (event.eventType = .jobExecutionSucceeded ∨ event.eventType = .jobExecutionFailed) ∧
      (job.attempts.get? event.number).isSome := by
  unfold isSemanticDuplicate at hdup
  split at hdup
  · cases hdup
  · next attempt hget =>
      simp only [Bool.or_eq_true, Bool.and_eq_true, decide_eq_true_eq] at hdup
      exact ⟨hdup.imp And.left And.left, by rw [hget]; rfl⟩

/-- **An event adds the number of the attempt it opens to the keys**, and nothing else. -/
theorem isSome_get?_projectedBy (job : JobVisibility) (event : Event) (n : ℕ) :
    ((projectedBy job event).attempts.get? n).isSome ↔
      (job.attempts.get? n).isSome ∨ event.eventType.opensAttempt ∧ event.number = n := by
  unfold projectedBy
  split
  · next hdup =>
      obtain ⟨-, hsome⟩ := opensAttempt_of_isSemanticDuplicate hdup
      refine (or_iff_left_of_imp ?_).symm
      rintro ⟨-, rfl⟩
      exact hsome
  · cases ht : event.eventType.opensAttempt with
    | false =>
        rw [(sameAttempts_handler ht (mergeCommon job event) event).attempts]
        simp [mergeCommon]
    | true =>
        obtain ⟨attempt, hget, -⟩ := get?_handler_of_opensAttempt ht (mergeCommon job event) event
        rw [hget]
        by_cases hn : n = event.number
        · simp [hn]
        · simp [hn, Ne.symm hn, mergeCommon]

/-- **An event merges the time of a retrieval into that of its attempt.** -/
theorem attemptRetrievedAt_projectedBy (job : JobVisibility) (event : Event) (n : ℕ) :
    (projectedBy job event).attemptRetrievedAt n =
      if event.eventType = .jobSchedulerItemRetrieved ∧ event.number = n then
        earliest (job.attemptRetrievedAt n) event.retrievalTime
      else job.attemptRetrievedAt n := by
  unfold projectedBy
  split
  · next hdup =>
      obtain ⟨ht | ht, -⟩ := opensAttempt_of_isSemanticDuplicate hdup <;> simp [ht]
  · cases ht : event.eventType.opensAttempt with
    | false =>
        have hne : event.eventType ≠ .jobSchedulerItemRetrieved := fun h => by
          rw [h] at ht
          cases ht
        rw [if_neg fun h => hne h.1, attemptRetrievedAt,
          (sameAttempts_handler ht (mergeCommon job event) event).attempts]
        rfl
    | true =>
        obtain ⟨attempt, hget, hretrieved, -⟩ :=
          get?_handler_of_opensAttempt ht (mergeCommon job event) event
        rw [attemptRetrievedAt, hget]
        by_cases hn : event.number = n
        · subst hn
          simp only [if_true, Option.bind_some, hretrieved, and_true]
          rfl
        · simp only [hn, and_false, if_false, Ne.symm hn]
          rfl

/-- **An event merges the time of a start into that of its attempt.** -/
theorem attemptStartedAt_projectedBy (job : JobVisibility) (event : Event) (n : ℕ) :
    (projectedBy job event).attemptStartedAt n =
      if event.eventType = .jobExecutionStarted ∧ event.number = n then
        earliest (job.attemptStartedAt n) event.eventTime
      else job.attemptStartedAt n := by
  unfold projectedBy
  split
  · next hdup =>
      obtain ⟨ht | ht, -⟩ := opensAttempt_of_isSemanticDuplicate hdup <;> simp [ht]
  · cases ht : event.eventType.opensAttempt with
    | false =>
        have hne : event.eventType ≠ .jobExecutionStarted := fun h => by
          rw [h] at ht
          cases ht
        rw [if_neg fun h => hne h.1, attemptStartedAt,
          (sameAttempts_handler ht (mergeCommon job event) event).attempts]
        rfl
    | true =>
        obtain ⟨attempt, hget, -, hstarted⟩ :=
          get?_handler_of_opensAttempt ht (mergeCommon job event) event
        rw [attemptStartedAt, hget]
        by_cases hn : event.number = n
        · subst hn
          simp only [if_true, Option.bind_some, hstarted, and_true]
          rfl
        · simp only [hn, and_false, if_false, Ne.symm hn]
          rfl

end ScheduledJobs
