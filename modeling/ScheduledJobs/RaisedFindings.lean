/-
**Which events raise which findings.**

The handlers of `reduce_visibility` raise four findings: a gap in the sequence of attempts, a
contradicted outcome, an execution of a cancelled job, and one after the retries were exhausted.
A finding that is raised again stays the one that was recorded first, and becomes active; the
reducer resolves none of the four.

Main definitions:

* `Findings.shown` — what the findings say under a code: since when, and whether it is active;
* `JobVisibility.Raises`, `JobVisibility.RaisedBy` — **the events that raise a finding**.

Main results:

* `shown_reduceEvent` — **an event changes what is shown under a code exactly when it raises the
  finding**;
* `holdsFinding_reduceEvent` — which findings are there;
* `violations_reduceEvent` — **the flag of a violation is set by the events that raise its
  finding**;
* `incompleteLifecycle_reduceEvent` — an incomplete lifecycle stays so, and a gap makes it one.
-/

import ScheduledJobs.AttemptMap

set_option relaxedAutoImplicit false
set_option autoImplicit false

namespace ScheduledJobs

open JobVisibility

/-! ### What findings say -/

/-- Since when a finding is observed, and whether it is active. -/
def Findings.shown (findings : Findings) (code : FindingCode) : Option (Datetime × Bool) :=
  (findings.get? code).map fun finding => (finding.firstObservedAt, finding.active)

/-- The projection holds a finding under a code. -/
def JobVisibility.holdsFinding (job : JobVisibility) (code : FindingCode) : Bool :=
  (job.findings.get? code).isSome

/-- A finding that is raised: the time stays that of the first observation. -/
def raisedAgain (old : Option (Datetime × Bool)) (observedAt : Datetime) :
    Option (Datetime × Bool) :=
  some ((old.map Prod.fst).getD observedAt, true)

namespace Findings

variable (findings : Findings) (code code' : FindingCode) (t : Datetime)

theorem shown_observe (message : String) :
    (findings.observe code t message).shown code' =
      if code' = code then raisedAgain (findings.shown code') t else findings.shown code' := by
  simp only [shown, observe, Dict.get?_set]
  split
  · next heq =>
      subst heq
      cases findings.get? code' <;> rfl
  · rfl

theorem shown_resolve_ne (h : code' ≠ code) :
    (findings.resolve code t).shown code' = findings.shown code' := by
  unfold resolve
  cases findings.get? code with
  | none => rfl
  | some finding =>
      dsimp only
      split
      · rw [shown, Dict.get?_set_ne _ h, shown]
      · rfl

end Findings

/-! ### Handlers -/

namespace JobVisibility

/-- The guards under which the handlers raise a finding. -/
def Raises (job : JobVisibility) (event : Event) (code : FindingCode) : Prop :=
  match code with
  | .attemptSequenceGap => event.eventType.opensAttempt ∧ job.hasGapBefore event.number
  | .conflictingTerminalOutcome =>
      event.eventType = .jobExecutionSucceeded ∧ job.lifecycle.ContradictsSuccess event.number ∨
        event.eventType = .jobExecutionFailed ∧ job.lifecycle.ContradictsFailure event.number
  | .executedAfterCancel =>
      job.recordedStatus = .cancelled ∧
        (event.eventType = .jobExecutionStarted ∧ ¬ job.lifecycle.Settled event.number ∨
          event.eventType = .jobExecutionSucceeded ∧
            ¬ job.lifecycle.ContradictsSuccess event.number)
  | .executionAfterRetryExhaustion =>
      job.recordedStatus = .retriesExhausted ∧ event.eventType = .jobExecutionStarted ∧
        ¬ job.lifecycle.Settled event.number
  | _ => False

instance (job : JobVisibility) (event : Event) (code : FindingCode) :
    Decidable (job.Raises event code) := by
  cases code <;> unfold Raises <;> infer_instance

theorem shown_openAttempt (job : JobVisibility) (event : Event) (code : FindingCode) :
    Findings.shown (job.openAttempt event).findings code =
      if code = .attemptSequenceGap ∧ job.hasGapBefore event.number then
        raisedAgain (Findings.shown job.findings code) event.ingestionTime
      else Findings.shown job.findings code := by
  simp only [openAttempt]
  by_cases hgap : job.hasGapBefore event.number
  · simp [Findings.shown_observe, hgap]
  · simp [hgap]

end JobVisibility

variable {code : FindingCode}

/-- The handlers that open no attempt raise nothing. -/
theorem not_raises_of_not_opensAttempt {event : Event}
    (ht : event.eventType.opensAttempt = false) (job : JobVisibility) :
    ¬ job.Raises event code := by
  have hstarted : event.eventType ≠ .jobExecutionStarted := fun h => by
    rw [h] at ht
    cases ht
  have hsucceeded : event.eventType ≠ .jobExecutionSucceeded := fun h => by
    rw [h] at ht
    cases ht
  have hfailed : event.eventType ≠ .jobExecutionFailed := fun h => by
    rw [h] at ht
    cases ht
  cases code <;> simp [Raises, ht, hstarted, hsucceeded, hfailed]

/-- They resolve a missing acknowledgement, or write no finding. -/
theorem shown_of_sameAttempts {job after : JobVisibility} (h : job.SameAttempts after)
    (hack : code ≠ .schedulerAckTimeout) (hretry : code ≠ .retryAckTimeout) :
    Findings.shown after.findings code = Findings.shown job.findings code := by
  rcases h.findings with hsame | ⟨resolved, hmem, t, hresolved⟩
  · rw [hsame]
  · rw [hresolved]
    refine Findings.shown_resolve_ne _ _ _ _ fun heq => ?_
    rw [← heq] at hmem
    simp [hack, hretry] at hmem

/-- The guards of the handlers read the lifecycle. -/
theorem status_attemptAt_openAttempt (job : JobVisibility) (event : Event) :
    ((job.openAttempt event).attemptAt event.number).status =
      job.lifecycle.attemptStatus event.number := by
  rw [attemptAt_openAttempt, attemptStatus_lifecycle]

theorem shown_onJobExecutionStarted (job : JobVisibility) (event : Event)
    (ht : event.eventType = .jobExecutionStarted) :
    Findings.shown (onJobExecutionStarted job event).1.findings code =
      if job.Raises event code then
        raisedAgain (Findings.shown job.findings code) event.ingestionTime
      else Findings.shown job.findings code := by
  have hopen : (job.openAttempt event).recordedStatus = job.lifecycle.status := rfl
  have hjob : job.recordedStatus = job.lifecycle.status := rfl
  simp only [onJobExecutionStarted, status_attemptAt_openAttempt, hopen]
  by_cases h₁ : job.lifecycle.attemptStatus event.number = .succeeded ∨
      job.lifecycle.status = .succeeded
  · have hset : job.lifecycle.Settled event.number := Or.inl h₁
    rw [if_pos h₁]
    cases code <;> simp [shown_openAttempt, Raises, ht, EventType.opensAttempt, hset]
  by_cases h₂ : job.lifecycle.attemptStatus event.number = .failed ∧ job.lifecycle.status = .failed
  · have hset : job.lifecycle.Settled event.number := Or.inr h₂
    rw [if_neg h₁, if_pos h₂]
    cases code <;> simp [shown_openAttempt, Raises, ht, EventType.opensAttempt, hset]
  · have hset : ¬ job.lifecycle.Settled event.number := fun h => h.elim h₁ h₂
    rw [if_neg h₁, if_neg h₂]
    by_cases hc : job.lifecycle.status = .cancelled
    · cases code <;> simp [shown_openAttempt, Findings.shown_observe, Raises, ht,
        EventType.opensAttempt, hset, hc, hjob]
    by_cases he : job.lifecycle.status = .retriesExhausted
    · cases code <;> simp [shown_openAttempt, Findings.shown_observe, Raises, ht,
        EventType.opensAttempt, hset, he, hjob]
    · cases code <;> simp [shown_openAttempt, Raises, ht, EventType.opensAttempt, hc, he, hjob]

theorem shown_onJobExecutionSucceeded (job : JobVisibility) (event : Event)
    (ht : event.eventType = .jobExecutionSucceeded) :
    Findings.shown (onJobExecutionSucceeded job event).1.findings code =
      if job.Raises event code then
        raisedAgain (Findings.shown job.findings code) event.ingestionTime
      else Findings.shown job.findings code := by
  have hopen : (job.openAttempt event).recordedStatus = job.lifecycle.status := rfl
  have hjob : job.recordedStatus = job.lifecycle.status := rfl
  simp only [onJobExecutionSucceeded, status_attemptAt_openAttempt, hopen]
  by_cases h : job.lifecycle.attemptStatus event.number = .failed ∨
      job.lifecycle.status.isTerminal ∧ job.lifecycle.status ∉ [.succeeded, .cancelled]
  · have hcon : job.lifecycle.ContradictsSuccess event.number := h
    rw [if_pos h, terminalConflict]
    cases code <;> simp [shown_openAttempt, Findings.shown_observe, Raises, ht,
      EventType.opensAttempt, hcon]
  · have hcon : ¬ job.lifecycle.ContradictsSuccess event.number := h
    rw [if_neg h]
    by_cases hc : job.lifecycle.status = .cancelled
    · cases code <;> simp [shown_openAttempt, Findings.shown_observe, Raises, ht,
        EventType.opensAttempt, hcon, hc, hjob]
    · cases code <;> simp [shown_openAttempt, Raises, ht, EventType.opensAttempt, hcon, hc, hjob]

theorem shown_onJobExecutionFailed (job : JobVisibility) (event : Event)
    (ht : event.eventType = .jobExecutionFailed) :
    Findings.shown (onJobExecutionFailed job event).1.findings code =
      if job.Raises event code then
        raisedAgain (Findings.shown job.findings code) event.ingestionTime
      else Findings.shown job.findings code := by
  have hopen : (job.openAttempt event).recordedStatus = job.lifecycle.status := rfl
  simp only [onJobExecutionFailed, status_attemptAt_openAttempt, hopen]
  by_cases h₁ : job.lifecycle.attemptStatus event.number = .succeeded ∨
      job.lifecycle.status = .succeeded
  · have hcon : job.lifecycle.ContradictsFailure event.number :=
      h₁.imp id fun h => by simp [h, Status.isTerminal]
    rw [if_pos h₁, terminalConflict]
    cases code <;> simp [shown_openAttempt, Findings.shown_observe, Raises, ht,
      EventType.opensAttempt, hcon]
  by_cases h₂ : job.lifecycle.status.isTerminal ∧ job.lifecycle.status ∉ [.cancelled]
  · have hcon : job.lifecycle.ContradictsFailure event.number := Or.inr (by simpa using h₂)
    rw [if_neg h₁, if_pos h₂, terminalConflict]
    cases code <;> simp [shown_openAttempt, Findings.shown_observe, Raises, ht,
      EventType.opensAttempt, hcon]
  · have hcon : ¬ job.lifecycle.ContradictsFailure event.number := by
      rintro (h | h)
      · exact h₁ (Or.inl h)
      · exact h₂ (by simpa using h)
    rw [if_neg h₁, if_neg h₂]
    cases code <;> simp [shown_openAttempt, Raises, ht, EventType.opensAttempt, hcon]

/-- **What a handler shows under a code.** -/
theorem shown_handler (job : JobVisibility) (event : Event) (hack : code ≠ .schedulerAckTimeout)
    (hretry : code ≠ .retryAckTimeout) :
    Findings.shown (handler event.eventType job event).1.findings code =
      if job.Raises event code then
        raisedAgain (Findings.shown job.findings code) event.ingestionTime
      else Findings.shown job.findings code := by
  cases hopens : event.eventType.opensAttempt with
  | false =>
      rw [if_neg (not_raises_of_not_opensAttempt hopens job)]
      exact shown_of_sameAttempts (sameAttempts_handler hopens job event) hack hretry
  | true =>
      cases ht : event.eventType with
      | jobSchedulerItemRetrieved =>
          have hfindings : (handler .jobSchedulerItemRetrieved job event).1.findings =
              (job.openAttempt event).findings := rfl
          rw [hfindings, shown_openAttempt]
          cases code <;> simp [Raises, ht, EventType.opensAttempt]
      | jobExecutionStarted => exact shown_onJobExecutionStarted job event ht
      | jobExecutionSucceeded => exact shown_onJobExecutionSucceeded job event ht
      | jobExecutionFailed => exact shown_onJobExecutionFailed job event ht
      | _ =>
          rw [ht] at hopens
          cases hopens

/-! ### Flags -/

/-- **The flags of the two violations are set where their findings are raised**, by the handlers
that open an attempt. -/
theorem violations_onJobExecutionStarted (job : JobVisibility) (event : Event)
    (ht : event.eventType = .jobExecutionStarted) :
    ((onJobExecutionStarted job event).1.cancellationViolation ↔
        job.cancellationViolation ∨ job.Raises event .executedAfterCancel) ∧
      ((onJobExecutionStarted job event).1.retriesExhaustedViolation ↔
        job.retriesExhaustedViolation ∨ job.Raises event .executionAfterRetryExhaustion) := by
  have hopen : (job.openAttempt event).recordedStatus = job.lifecycle.status := rfl
  have hjob : job.recordedStatus = job.lifecycle.status := rfl
  have hcancel : (job.openAttempt event).cancellationViolation = job.cancellationViolation := rfl
  have hexhausted :
      (job.openAttempt event).retriesExhaustedViolation = job.retriesExhaustedViolation := rfl
  simp only [onJobExecutionStarted, status_attemptAt_openAttempt, hopen]
  by_cases h₁ : job.lifecycle.attemptStatus event.number = .succeeded ∨
      job.lifecycle.status = .succeeded
  · have hset : job.lifecycle.Settled event.number := Or.inl h₁
    rw [if_pos h₁]
    simp [Raises, ht, hset, hcancel, hexhausted]
  by_cases h₂ : job.lifecycle.attemptStatus event.number = .failed ∧ job.lifecycle.status = .failed
  · have hset : job.lifecycle.Settled event.number := Or.inr h₂
    rw [if_neg h₁, if_pos h₂]
    simp [Raises, ht, hset, hcancel, hexhausted]
  · have hset : ¬ job.lifecycle.Settled event.number := fun h => h.elim h₁ h₂
    rw [if_neg h₁, if_neg h₂]
    simp [Raises, ht, hset, hcancel, hexhausted, hjob]

theorem violations_onJobExecutionSucceeded (job : JobVisibility) (event : Event)
    (ht : event.eventType = .jobExecutionSucceeded) :
    ((onJobExecutionSucceeded job event).1.cancellationViolation ↔
        job.cancellationViolation ∨ job.Raises event .executedAfterCancel) ∧
      ((onJobExecutionSucceeded job event).1.retriesExhaustedViolation ↔
        job.retriesExhaustedViolation ∨ job.Raises event .executionAfterRetryExhaustion) := by
  have hopen : (job.openAttempt event).recordedStatus = job.lifecycle.status := rfl
  have hjob : job.recordedStatus = job.lifecycle.status := rfl
  have hcancel : (job.openAttempt event).cancellationViolation = job.cancellationViolation := rfl
  have hexhausted :
      (job.openAttempt event).retriesExhaustedViolation = job.retriesExhaustedViolation := rfl
  simp only [onJobExecutionSucceeded, status_attemptAt_openAttempt, hopen]
  by_cases h : job.lifecycle.attemptStatus event.number = .failed ∨
      job.lifecycle.status.isTerminal ∧ job.lifecycle.status ∉ [.succeeded, .cancelled]
  · have hcon : job.lifecycle.ContradictsSuccess event.number := h
    rw [if_pos h, terminalConflict]
    simp [Raises, ht, hcon, hcancel, hexhausted]
  · have hcon : ¬ job.lifecycle.ContradictsSuccess event.number := h
    rw [if_neg h]
    simp [Raises, ht, hcon, hcancel, hexhausted, hjob]

/-- **The flag of a violation is set where its finding is raised.** -/
theorem violations_handler (job : JobVisibility) (event : Event) :
    ((handler event.eventType job event).1.cancellationViolation ↔
        job.cancellationViolation ∨ job.Raises event .executedAfterCancel) ∧
      ((handler event.eventType job event).1.retriesExhaustedViolation ↔
        job.retriesExhaustedViolation ∨ job.Raises event .executionAfterRetryExhaustion) := by
  cases hopens : event.eventType.opensAttempt with
  | false =>
      have hsame := sameAttempts_handler hopens job event
      rw [hsame.cancellationViolation, hsame.retriesExhaustedViolation,
        or_iff_left (not_raises_of_not_opensAttempt hopens job),
        or_iff_left (not_raises_of_not_opensAttempt hopens job)]
      exact ⟨Iff.rfl, Iff.rfl⟩
  | true =>
      cases ht : event.eventType with
      | jobExecutionStarted => exact violations_onJobExecutionStarted job event ht
      | jobExecutionSucceeded => exact violations_onJobExecutionSucceeded job event ht
      | jobSchedulerItemRetrieved =>
          simp [handler, onJobSchedulerItemRetrieved, Raises, ht, openAttempt]
      | jobExecutionFailed =>
          have hflags : (onJobExecutionFailed job event).1.cancellationViolation =
                job.cancellationViolation ∧
              (onJobExecutionFailed job event).1.retriesExhaustedViolation =
                job.retriesExhaustedViolation := by
            simp only [onJobExecutionFailed]
            split
            · exact ⟨rfl, rfl⟩
            · split <;> exact ⟨rfl, rfl⟩
          simp [handler, hflags, Raises, ht]
      | _ =>
          rw [ht] at hopens
          cases hopens

/-- **A gap leaves the lifecycle incomplete**, and nothing completes it. -/
theorem incompleteLifecycle_handler {job : JobVisibility} {event : Event}
    (h : job.incompleteLifecycle ∨ job.Raises event .attemptSequenceGap) :
    (handler event.eventType job event).1.incompleteLifecycle := by
  cases hopens : event.eventType.opensAttempt with
  | false =>
      rw [(sameAttempts_handler hopens job event).incompleteLifecycle]
      exact h.resolve_right (not_raises_of_not_opensAttempt hopens job)
  | true =>
      have hopened : (job.openAttempt event).incompleteLifecycle = true := by
        rw [openAttempt, Bool.or_eq_true]
        exact h.imp id And.right
      cases ht : event.eventType with
      | jobSchedulerItemRetrieved => exact hopened
      | jobExecutionStarted =>
          simp only [handler, onJobExecutionStarted, hopened, Bool.true_or]
          split
          · rfl
          · split <;> rfl
      | jobExecutionSucceeded =>
          simp only [handler, onJobExecutionSucceeded, hopened, Bool.true_or]
          split <;> rfl
      | jobExecutionFailed =>
          simp only [handler, onJobExecutionFailed, hopened, Bool.true_or]
          split
          · rfl
          · split <;> rfl
      | _ =>
          rw [ht] at hopens
          cases hopens

/-! ### Events -/

/-- An event raises a finding unless it repeats an outcome. -/
def JobVisibility.RaisedBy (job : JobVisibility) (event : Event) (code : FindingCode) : Prop :=
  isSemanticDuplicate job event = false ∧ job.Raises event code

instance (job : JobVisibility) (event : Event) (code : FindingCode) :
    Decidable (job.RaisedBy event code) := inferInstanceAs (Decidable (_ ∧ _))

theorem raises_mergeCommon (job : JobVisibility) (event : Event) :
    (mergeCommon job event).Raises event code ↔ job.Raises event code := by
  cases code <;> exact Iff.rfl

variable (current : Option JobVisibility) (event : Event)

/-- **An event changes what is shown under a code exactly when it raises the finding.** -/
theorem shown_reduceEvent (hack : code ≠ .schedulerAckTimeout) (hretry : code ≠ .retryAckTimeout) :
    Findings.shown (reduceEvent current event).job.findings code =
      if (currentOrBlank current event).RaisedBy event code then
        raisedAgain (Findings.shown (currentOrBlank current event).findings code)
          event.ingestionTime
      else Findings.shown (currentOrBlank current event).findings code := by
  obtain ⟨version, decisions, hjob⟩ := exists_reduceEvent_eq current event
  simp only [hjob, projectedBy, RaisedBy]
  by_cases hdup : isSemanticDuplicate (currentOrBlank current event) event = true
  · simp [hdup]
  · have hhandler := shown_handler (mergeCommon (currentOrBlank current event) event) event
      hack hretry
    simp only [raises_mergeCommon] at hhandler
    simpa [hdup, mergeCommon] using hhandler

/-- A finding that is there stays, and one that is raised is there. -/
theorem holdsFinding_reduceEvent (hack : code ≠ .schedulerAckTimeout)
    (hretry : code ≠ .retryAckTimeout) :
    (reduceEvent current event).job.holdsFinding code ↔
      (currentOrBlank current event).holdsFinding code ∨
        (currentOrBlank current event).RaisedBy event code := by
  have hshown : ∀ job : JobVisibility,
      job.holdsFinding code = (Findings.shown job.findings code).isSome := fun job => by
    rw [holdsFinding, Findings.shown, Option.isSome_map]
  rw [hshown, hshown, shown_reduceEvent current event hack hretry]
  split
  · next hraised => exact iff_of_true rfl (Or.inr hraised)
  · next hraised => exact (or_iff_left hraised).symm

/-- **The flag of a violation is set by the events that raise its finding.** -/
theorem violations_reduceEvent :
    ((reduceEvent current event).job.cancellationViolation ↔
        (currentOrBlank current event).cancellationViolation ∨
          (currentOrBlank current event).RaisedBy event .executedAfterCancel) ∧
      ((reduceEvent current event).job.retriesExhaustedViolation ↔
        (currentOrBlank current event).retriesExhaustedViolation ∨
          (currentOrBlank current event).RaisedBy event .executionAfterRetryExhaustion) := by
  obtain ⟨version, decisions, hjob⟩ := exists_reduceEvent_eq current event
  simp only [hjob, projectedBy, RaisedBy]
  cases hdup : isSemanticDuplicate (currentOrBlank current event) event with
  | true => simp
  | false =>
      have hhandler := violations_handler (mergeCommon (currentOrBlank current event) event) event
      simp only [raises_mergeCommon] at hhandler
      simpa [mergeCommon] using hhandler

theorem incompleteLifecycle_reduceEvent
    (h : (currentOrBlank current event).incompleteLifecycle ∨
      (currentOrBlank current event).RaisedBy event .attemptSequenceGap) :
    (reduceEvent current event).job.incompleteLifecycle := by
  obtain ⟨version, decisions, hjob⟩ := exists_reduceEvent_eq current event
  simp only [hjob, projectedBy]
  cases hdup : isSemanticDuplicate (currentOrBlank current event) event with
  | true => simpa [RaisedBy, hdup] using h
  | false =>
      rw [if_neg Bool.false_ne_true]
      refine incompleteLifecycle_handler (h.imp id ?_)
      exact fun hraised => (raises_mergeCommon _ _).2 hraised.2

end ScheduledJobs
