/-
**When a conflict of outcomes is flagged.**

A projection should carry the finding of a conflicting outcome exactly when both outcomes were
delivered for one attempt.  The handlers do not compare an outcome with the one that was delivered
before but with the statuses that are recorded, and both can be beside the point: a late start hides
that its attempt failed, and an attempt of a job that was finished by another one contradicts a
status that is not its own.

Main definitions:

* `Delivered`, `Contradicted` — what was delivered;
* `ConflictsExact` — the finding is there exactly when it should be;
* `FlagsConflict` — **the events that keep it so**.

Main results:

* `OutcomesTraced.reduceEvent` — an attempt is decided by an outcome that was delivered, and a
  success that was delivered is shown or flagged;
* `conflictsExact_iff` — **the flag is exact along a sequence of events exactly when each of its
  events flags the conflict it reports, and no other**.
-/

import ScheduledJobs.RaisedFindings
import ScheduledJobs.RetryAdvertisement

set_option relaxedAutoImplicit false
set_option autoImplicit false

namespace ScheduledJobs

open JobVisibility

/-- An event of a type was delivered for an attempt. -/
def Delivered (events : List Event) (eventType : EventType) (n : ℕ) : Prop :=
  ∃ event ∈ events, event.eventType = eventType ∧ event.number = n

/-- Both outcomes were delivered for some attempt. -/
def Contradicted (events : List Event) : Prop :=
  ∃ n, Delivered events .jobExecutionSucceeded n ∧ Delivered events .jobExecutionFailed n

/-- **The flag is exact**: at each point of a sequence of events, the finding of a conflict is there
if and only if both outcomes were delivered for some attempt. -/
def ConflictsExact (events : List Event) : Prop :=
  ∀ before, before <+: events → ∀ job, reduceVisibilityAll none before = .ok (some job) →
    (job.holdsFinding .conflictingTerminalOutcome ↔ Contradicted before)

/-- As long as no conflict was delivered, an outcome is taken for a contradiction when it is one.  A
success whose failure was delivered finds that failure recorded, for the attempt or for the job, and
a success whose failure was not finds it nowhere; a failure whose success was not delivered does not
find the job finished by another outcome. -/
def FlagsConflict (before : List Event) (job : JobVisibility) (event : Event) : Prop :=
  Contradicted before ∨
    match event.eventType with
    | .jobExecutionSucceeded =>
        Delivered before .jobExecutionFailed event.number ∧
            (job.lifecycle.attemptStatus event.number = .failed ∨
              job.recordedStatus ∈ [.failed, .retriesExhausted]) ∨
          ¬ Delivered before .jobExecutionFailed event.number ∧
            (job.lifecycle.attemptStatus event.number = .succeeded ∨
              job.recordedStatus ∉ [.failed, .retriesExhausted])
    | .jobExecutionFailed =>
        Delivered before .jobExecutionSucceeded event.number ∨
          job.lifecycle.attemptStatus event.number = .failed ∨
          job.recordedStatus ∉ [.succeeded, .failed, .retriesExhausted]
    | _ => True

/-! ### What was delivered -/

variable {before : List Event} {event : Event} {job : JobVisibility}

theorem delivered_concat_iff {t : EventType} {n : ℕ} :
    Delivered (before ++ [event]) t n ↔
      Delivered before t n ∨ event.eventType = t ∧ event.number = n := by
  simp only [Delivered, List.mem_append, List.mem_singleton, or_and_right, exists_or,
    exists_eq_left]

/-- A new conflict is reported by the second of two outcomes. -/
theorem contradicted_concat_iff :
    Contradicted (before ++ [event]) ↔ Contradicted before ∨
      event.eventType = .jobExecutionSucceeded ∧
          Delivered before .jobExecutionFailed event.number ∨
        event.eventType = .jobExecutionFailed ∧
          Delivered before .jobExecutionSucceeded event.number := by
  simp only [Contradicted, delivered_concat_iff]
  constructor
  · rintro ⟨n, hs | ⟨ht, rfl⟩, hf | ⟨ht', hn⟩⟩
    · exact Or.inl ⟨n, hs, hf⟩
    · subst hn
      exact Or.inr (Or.inr ⟨ht', hs⟩)
    · exact Or.inr (Or.inl ⟨ht, hf⟩)
    · rw [ht] at ht'
      cases ht'
  · rintro (⟨n, hs, hf⟩ | ⟨ht, hf⟩ | ⟨ht, hs⟩)
    · exact ⟨n, Or.inl hs, Or.inl hf⟩
    · exact ⟨event.number, Or.inr ⟨ht, rfl⟩, Or.inl hf⟩
    · exact ⟨event.number, Or.inl hs, Or.inr ⟨ht, rfl⟩⟩

/-- When an event is taken for a contradiction. -/
theorem raisedBy_conflict_iff :
    job.RaisedBy event .conflictingTerminalOutcome ↔
      event.eventType = .jobExecutionSucceeded ∧
          job.lifecycle.attemptStatus event.number ≠ .succeeded ∧
          (job.lifecycle.attemptStatus event.number = .failed ∨
            job.recordedStatus ∈ [.failed, .retriesExhausted]) ∨
        event.eventType = .jobExecutionFailed ∧
          job.lifecycle.attemptStatus event.number ≠ .failed ∧
          (job.lifecycle.attemptStatus event.number = .succeeded ∨
            job.recordedStatus ∈ [.succeeded, .failed, .retriesExhausted]) := by
  have hstatus : job.lifecycle.status = job.recordedStatus := rfl
  rw [RaisedBy, ← Bool.not_eq_true, isSemanticDuplicate_iff]
  simp only [Raises, Lifecycle.contradictsSuccess_iff, Lifecycle.contradictsFailure_iff, hstatus]
  cases event.eventType <;> simp

/-! ### One event -/

/-- An attempt is decided by an outcome that was delivered, and a success that was delivered is
shown, unless a conflict is flagged. -/
structure OutcomesTraced (before : List Event) (job : JobVisibility) : Prop where
  succeeded : ∀ n, job.lifecycle.attemptStatus n = .succeeded →
    Delivered before .jobExecutionSucceeded n
  failed : ∀ n, job.lifecycle.attemptStatus n = .failed → Delivered before .jobExecutionFailed n
  shown : ∀ n, Delivered before .jobExecutionSucceeded n →
    job.lifecycle.attemptStatus n = .succeeded ∨ job.holdsFinding .conflictingTerminalOutcome

theorem OutcomesTraced.blank (jobId : String) : OutcomesTraced [] { jobId := jobId } where
  succeeded := fun n h => by cases h
  failed := fun n h => by cases h
  shown := by
    rintro n ⟨event, hmem, -⟩
    cases hmem

theorem OutcomesTraced.reduceEvent {current : Option JobVisibility}
    (h : OutcomesTraced before (currentOrBlank current event)) :
    OutcomesTraced (before ++ [event]) (reduceEvent current event).job := by
  have hnext := lifecycle_reduceEvent current event
  rw [← lifecycle_currentOrBlank current event] at hnext
  constructor
  · intro n hn
    rw [hnext, Lifecycle.succeeded_next_iff] at hn
    rw [delivered_concat_iff]
    exact hn.imp (h.succeeded n) fun hn => ⟨hn.1, hn.2.1⟩
  · intro n hn
    rw [hnext] at hn
    rw [delivered_concat_iff]
    exact (Lifecycle.failed_of_next hn).imp (h.failed n) id
  · intro n hn
    rw [hnext, Lifecycle.succeeded_next_iff,
      holdsFinding_reduceEvent current event (by decide) (by decide)]
    by_cases hsucceeded :
        (currentOrBlank current event).lifecycle.attemptStatus n = .succeeded
    · exact Or.inl (Or.inl hsucceeded)
    rcases delivered_concat_iff.1 hn with hbefore | ⟨ht, rfl⟩
    · exact Or.inr (Or.inl ((h.shown n hbefore).resolve_left hsucceeded))
    · by_cases hcon :
          (currentOrBlank current event).lifecycle.ContradictsSuccess event.number
      · -- a success that is turned away is flagged
        refine Or.inr (Or.inr (raisedBy_conflict_iff.2 (Or.inl ⟨ht, hsucceeded, ?_⟩)))
        exact Lifecycle.contradictsSuccess_iff.1 hcon
      · exact Or.inl (Or.inr ⟨ht, rfl, hcon⟩)

/-- **One event**: the flag stays exact exactly when the event flags the conflict it reports. -/
theorem conflictExact_reduceEvent_iff {current : Option JobVisibility}
    (htraced : OutcomesTraced before (currentOrBlank current event))
    (h : (currentOrBlank current event).holdsFinding .conflictingTerminalOutcome ↔
      Contradicted before) :
    ((reduceEvent current event).job.holdsFinding .conflictingTerminalOutcome ↔
        Contradicted (before ++ [event])) ↔
      FlagsConflict before (currentOrBlank current event) event := by
  rw [holdsFinding_reduceEvent current event (by decide) (by decide), h, contradicted_concat_iff,
    FlagsConflict]
  by_cases hcon : Contradicted before
  · exact iff_of_true (iff_of_true (Or.inl hcon) (Or.inl hcon)) (Or.inl hcon)
  rw [or_iff_right hcon, or_iff_right hcon, or_iff_right hcon, raisedBy_conflict_iff]
  have hflag : ¬ (currentOrBlank current event).holdsFinding .conflictingTerminalOutcome :=
    fun hflag => hcon (h.1 hflag)
  have hsucceeded := htraced.succeeded event.number
  have hfailed := htraced.failed event.number
  have hshown := htraced.shown event.number
  cases ht : event.eventType with
  | jobExecutionSucceeded =>
      simp only [reduceCtorEq, false_and, or_false, true_and]
      by_cases hdelivered : Delivered before .jobExecutionFailed event.number
      · have hopen : (currentOrBlank current event).lifecycle.attemptStatus event.number ≠
            .succeeded := fun hs => hcon ⟨event.number, hsucceeded hs, hdelivered⟩
        simp [hdelivered, hopen]
      · have hopen : (currentOrBlank current event).lifecycle.attemptStatus event.number ≠
            .failed := fun hf => hdelivered (hfailed hf)
        simp [hdelivered, hopen, or_iff_not_imp_left]
  | jobExecutionFailed =>
      simp only [reduceCtorEq, false_and, false_or, true_and]
      by_cases hdelivered : Delivered before .jobExecutionSucceeded event.number
      · have hdecided := (hshown hdelivered).resolve_right hflag
        simp [hdelivered, hdecided]
      · have hopen : (currentOrBlank current event).lifecycle.attemptStatus event.number ≠
            .succeeded := fun hs => hdelivered (hsucceeded hs)
        simp [hdelivered, hopen, or_iff_not_imp_left]
  | _ => simp

/-! ### Sequences of events -/

/-- Every event of the sequence that is reduced flags the conflict it reports, and no other. -/
def AllFlagConflicts (events : List Event) : Prop :=
  ∀ before event, before ++ [event] <+: events → ∀ current result,
    reduceVisibilityAll none before = .ok current →
    reduceVisibility current event = .ok result →
    FlagsConflict before (currentOrBlank current event) event

/-- **The flag is exact along a sequence of events exactly when each event flags the conflict it
reports, and no other.** -/
theorem conflictsExact_iff (events : List Event) :
    ConflictsExact events ↔ AllFlagConflicts events := by
  refine forall_prefix_iff
    (P := fun before job =>
      (job.holdsFinding .conflictingTerminalOutcome ↔ Contradicted before)) ?_ ?_ events
  · intro jobId
    refine iff_of_false Bool.false_ne_true ?_
    rintro ⟨n, ⟨event, hmem, -⟩, -⟩
    cases hmem
  · intro before event current hbefore hcurrent
    have htraced := invariant_of_reduceVisibilityAll OutcomesTraced.blank
      (fun _ _ _ => OutcomesTraced.reduceEvent) hbefore event
    exact conflictExact_reduceEvent_iff htraced hcurrent

/-- A retryable failure of the first attempt, its start, delivered late, and a success of it. -/
def hiddenConflictEvents : List Event :=
  [retryEvent 1 .jobExecutionFailed 1, retryEvent 2 .jobExecutionStarted 1,
    retryEvent 3 .jobExecutionSucceeded 1]

/-- A success of the second attempt, and the failure of the first, delivered late. -/
def inventedConflictEvents : List Event :=
  [retryEvent 2 .jobExecutionSucceeded 2, retryEvent 1 .jobExecutionFailed 1]

/-- **The first conflict is not flagged, and the second is flagged without one.** -/
theorem not_conflictsExact_hiddenConflictEvents :
    ((reduceAll none hiddenConflictEvents).map fun job =>
        job.holdsFinding .conflictingTerminalOutcome) = some false ∧
      ((reduceAll none inventedConflictEvents).map fun job =>
        job.holdsFinding .conflictingTerminalOutcome) = some true ∧
      ¬ ConflictsExact hiddenConflictEvents ∧ ¬ ConflictsExact inventedConflictEvents := by
  have hhidden : ((reduceAll none hiddenConflictEvents).map fun job =>
      job.holdsFinding .conflictingTerminalOutcome) = some false := by decide
  have hinvented : ((reduceAll none inventedConflictEvents).map fun job =>
      job.holdsFinding .conflictingTerminalOutcome) = some true := by decide
  refine ⟨hhidden, hinvented, fun hexact => ?_, fun hexact => ?_⟩
  · obtain ⟨job, hjob, hnot⟩ := Option.map_eq_some_iff.1 hhidden
    have hreduced : reduceVisibilityAll none hiddenConflictEvents = .ok (some job) :=
      (reduceVisibilityAll_eq_ok "job-1" _ (by decide) none (by simp)).trans (by rw [hjob])
    have hflag := (hexact _ (List.prefix_refl _) job hreduced).2
      ⟨1, ⟨retryEvent 3 .jobExecutionSucceeded 1, by decide, rfl, rfl⟩,
        ⟨retryEvent 1 .jobExecutionFailed 1, by decide, rfl, rfl⟩⟩
    rw [hnot] at hflag
    cases hflag
  · obtain ⟨job, hjob, hflag⟩ := Option.map_eq_some_iff.1 hinvented
    have hreduced : reduceVisibilityAll none inventedConflictEvents = .ok (some job) :=
      (reduceVisibilityAll_eq_ok "job-1" _ (by decide) none (by simp)).trans (by rw [hjob])
    obtain ⟨n, hs, hf⟩ := (hexact _ (List.prefix_refl _) job hreduced).1 hflag
    obtain ⟨success, hmem, ht, hsuccess⟩ := hs
    obtain ⟨failure, hmem', ht', hfailure⟩ := hf
    -- the success is about the second attempt, the failure about the first
    have hsecond : ∀ event ∈ inventedConflictEvents, event.eventType = .jobExecutionSucceeded →
        event.number = 2 := by decide
    have hfirst : ∀ event ∈ inventedConflictEvents, event.eventType = .jobExecutionFailed →
        event.number = 1 := by decide
    have := hsecond success hmem ht
    have := hfirst failure hmem' ht'
    omega

end ScheduledJobs
