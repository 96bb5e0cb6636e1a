/-
**Every status is backed by evidence.**

A job is shown in a status only when the evidence for it was observed: the time of the request, the
acknowledgement or the retrieval is set, an attempt is running, an attempt has succeeded.  The
clauses about attempts are invariants of the automaton of statuses; the others follow the handlers,
none of which clears a time.

Main definitions:

* `Lifecycle.Backed` — what the attempts say about the status;
* `JobVisibility.Evidenced` — what the recorded times and flags say about it;
* `StatusBacked` — **the two together, and what a reader is shown**.

Main results:

* `Lifecycle.Backed.next`, `JobVisibility.Evidenced.reduceEvent` — one event;
* `statusBacked_reduceAll` — **every projection that is reduced from events is backed**.
-/

import ScheduledJobs.Lifecycle
import ScheduledJobs.VisibilityEngine

set_option relaxedAutoImplicit false
set_option autoImplicit false

namespace ScheduledJobs

open JobVisibility

/-! ### The attempts -/

/-- A running job has a running attempt, and a job has succeeded when one of its attempts has. -/
structure Lifecycle.Backed (l : Lifecycle) : Prop where
  running : l.status = .running → ∃ n, l.attempts n = some .running
  succeeded : l.status = .succeeded ↔ ∃ n, l.attempts n = some .succeeded

namespace Lifecycle.Backed

variable {l : Lifecycle}

theorem blank : Backed Lifecycle.blank where
  running := by simp [Lifecycle.blank]
  succeeded := by simp [Lifecycle.blank]

/-- A job that has not succeeded moves to any status but these two. -/
theorem moveTo (h : l.Backed) {s : Status} (hl : l.status ≠ .succeeded) (hrunning : s ≠ .running)
    (hsucceeded : s ≠ .succeeded) : (l.moveTo s).Backed where
  running := fun hs => absurd hs hrunning
  succeeded := by
    have hnone : ¬ ∃ n, l.attempts n = some .succeeded := fun hn => hl (h.succeeded.2 hn)
    simp [hsucceeded, hnone]

/-- Submission evidence does not touch a job that has succeeded. -/
theorem submit (h : l.Backed) (later : List Status) {s : Status} (hrunning : s ≠ .running)
    (hsucceeded : s ≠ .succeeded) : (l.submit later s).Backed := by
  unfold Lifecycle.submit
  split
  · next hs =>
      refine h.moveTo ?_ hrunning hsucceeded
      rintro hl
      simp [hl, Status.isTerminal] at hs
  · exact h

theorem conclude (h : l.Backed) {s : Status} (hrunning : s ≠ .running)
    (hsucceeded : s ≠ .succeeded) : (l.conclude s).Backed := by
  unfold Lifecycle.conclude
  split
  · exact h
  · next hs =>
      refine h.moveTo ?_ hrunning hsucceeded
      rintro hl
      simp [hl, Status.isTerminal] at hs

/-- An attempt that is written with its own status, or with one that is neither of the two and
takes neither away. -/
theorem put (h : l.Backed) {n : ℕ} {s : AttemptStatus}
    (hs : s = l.attemptStatus n ∨ l.attemptStatus n = .unknown ∧ s = .retrieved) :
    (l.put n s).Backed := by
  -- an attempt that reads as unknown is none of the two, before and after
  have hread : ∀ t : AttemptStatus, t ≠ .unknown → t ≠ .retrieved →
      ∀ m, (l.put n s).attempts m = some t ↔ l.attempts m = some t := by
    intro t hunknown hretrieved m
    by_cases hm : m = n
    · subst hm
      rw [attempts_put, Function.update_self, Option.some_inj]
      rcases hs with rfl | ⟨hblank, rfl⟩
      · unfold attemptStatus
        cases l.attempts m with
        | none => simp [hunknown.symm]
        | some u => simp
      · unfold attemptStatus at hblank
        cases ha : l.attempts m with
        | none => simp [hretrieved.symm]
        | some u =>
            obtain rfl : u = .unknown := by simpa [ha] using hblank
            simp [hretrieved.symm, hunknown.symm]
    · rw [attempts_put, Function.update_of_ne hm]
  refine ⟨fun hstatus => ?_, ?_⟩
  · obtain ⟨m, hm⟩ := h.running hstatus
    exact ⟨m, (hread .running (by decide) (by decide) m).2 hm⟩
  · rw [status_put, h.succeeded]
    exact exists_congr fun m => (hread .succeeded (by decide) (by decide) m).symm

theorem started (h : l.Backed) (n : ℕ) : (l.started n).Backed := by
  unfold Lifecycle.started
  split
  · exact h.put (Or.inl rfl)
  · next hs =>
      have hsucceeded : l.status ≠ .succeeded := fun hl => hs (Or.inl (Or.inr hl))
      refine ⟨fun _ => ⟨n, by simp⟩, ?_⟩
      simp only [status_moveTo, reduceCtorEq, attempts_moveTo, attempts_put, false_iff]
      rintro ⟨m, hm⟩
      by_cases hmn : m = n
      · subst hmn
        simp at hm
      · rw [Function.update_of_ne hmn] at hm
        exact hsucceeded (h.succeeded.2 ⟨m, hm⟩)

theorem succeed (h : l.Backed) (n : ℕ) : (l.succeeded n).Backed := by
  unfold Lifecycle.succeeded
  split
  · exact h
  · split
    · exact h.put (Or.inl rfl)
    · exact ⟨by simp, by simpa using ⟨n, by simp⟩⟩

theorem fail (h : l.Backed) (n : ℕ) (retryable : Bool) : (l.failed n retryable).Backed := by
  unfold Lifecycle.failed
  split
  · exact h
  · split
    · exact h.put (Or.inl rfl)
    · next hs =>
        have hsucceeded : l.status ≠ .succeeded := by
          intro hl
          exact hs (Or.inr (by simp [hl, Status.isTerminal]))
        have htarget : (if retryable then Status.retryPending else .failed) ≠ .running ∧
            (if retryable then Status.retryPending else .failed) ≠ .succeeded := by
          cases retryable <;> simp
        refine ⟨fun hs => absurd hs htarget.1, ?_⟩
        simp only [status_moveTo, htarget.2, attempts_moveTo, attempts_put, false_iff]
        rintro ⟨m, hm⟩
        by_cases hmn : m = n
        · subst hmn
          simp at hm
        · rw [Function.update_of_ne hmn] at hm
          exact hsucceeded (h.succeeded.2 ⟨m, hm⟩)

/-- **One event keeps the status backed by the attempts.** -/
theorem next (h : l.Backed) (event : Event) : (l.next event).Backed := by
  unfold Lifecycle.next
  cases event.eventType with
  | jobCreated =>
      simp only [created]
      split
      · next hs => exact h.moveTo (by simp [hs]) (by decide) (by decide)
      · exact h
  | jobSchedulerSubmissionRequested => exact h.submit _ (by decide) (by decide)
  | jobSchedulerSubmissionAcknowledged => exact h.submit _ (by decide) (by decide)
  | jobSchedulerSubmissionFailed => exact h.conclude (by decide) (by decide)
  | jobSchedulerItemRetrieved =>
      refine Backed.submit (h.put ?_) _ (by decide) (by decide)
      split
      · next hs => exact Or.inr ⟨hs, rfl⟩
      · exact Or.inl rfl
  | jobExecutionStarted => exact h.started _
  | jobExecutionSucceeded => exact h.succeed _
  | jobExecutionFailed => exact h.fail _ _
  | jobRetryRequested => exact h.conclude (by decide) (by decide)
  | jobRetryAcknowledged => exact h.submit _ (by decide) (by decide)
  | jobRetryRejected => exact h.conclude (by decide) (by decide)
  | jobRetriesExhausted =>
      simp only [exhausted]
      split
      · exact h
      · next hs => exact h.moveTo hs (by decide) (by decide)
  | jobCancelled => exact h.conclude (by decide) (by decide)

end Lifecycle.Backed

/-! ### The recorded times -/

/-- The evidence for a status: the time or the flag that is recorded with it.  No handler records
`OVERDUE`, and the other statuses need none. -/
def JobVisibility.Evidence (job : JobVisibility) : Status → Prop
  | .pendingSubmission => job.submissionRequestedAt.isSome
  | .scheduled => job.schedulerAcknowledgedAt.isSome
  | .awaitingExecution => job.schedulerRetrievedAt.isSome
  | .retryScheduled => job.retryAcknowledged
  | .running => job.startedAt.isSome
  | .overdue => False
  | _ => True

/-- There is evidence for the recorded status. -/
def JobVisibility.Evidenced (job : JobVisibility) : Prop := job.Evidence job.recordedStatus

namespace JobVisibility

variable {job after : JobVisibility} {event : Event}

/-- Evidence stays when the times that are set stay set, and the acknowledgement stays. -/
structure KeepsEvidence (job after : JobVisibility) : Prop where
  submissionRequestedAt :
    job.submissionRequestedAt.isSome → after.submissionRequestedAt.isSome := by exact id
  schedulerAcknowledgedAt :
    job.schedulerAcknowledgedAt.isSome → after.schedulerAcknowledgedAt.isSome := by exact id
  schedulerRetrievedAt :
    job.schedulerRetrievedAt.isSome → after.schedulerRetrievedAt.isSome := by exact id
  retryAcknowledged : job.retryAcknowledged → after.retryAcknowledged := by exact id
  startedAt : job.startedAt.isSome → after.startedAt.isSome := by exact id

theorem KeepsEvidence.evidence (hkeep : job.KeepsEvidence after) {s : Status}
    (h : job.Evidence s) : after.Evidence s := by
  cases s with
  | pendingSubmission => exact hkeep.submissionRequestedAt h
  | scheduled => exact hkeep.schedulerAcknowledgedAt h
  | awaitingExecution => exact hkeep.schedulerRetrievedAt h
  | retryScheduled => exact hkeep.retryAcknowledged h
  | running => exact hkeep.startedAt h
  | overdue => exact h
  | _ => trivial

/-- The status stays, and so does its evidence. -/
theorem Evidenced.keep (h : job.Evidenced) (hstatus : after.recordedStatus = job.recordedStatus)
    (hkeep : job.KeepsEvidence after) : after.Evidenced := by
  rw [Evidenced, hstatus]
  exact hkeep.evidence h

/-- The status stays, or the job moves to one the evidence of which is recorded. -/
theorem Evidenced.move_or_keep (h : job.Evidenced) {p : Prop} [Decidable p] {s : Status}
    (hstatus : after.recordedStatus = if p then s else job.recordedStatus)
    (hkeep : job.KeepsEvidence after) (hs : after.Evidence s) : after.Evidenced := by
  rw [Evidenced, hstatus]
  split
  · exact hs
  · exact hkeep.evidence h

/-- **No handler moves the job to a status without recording the evidence for it.** -/
theorem Evidenced.handler (h : job.Evidenced) (t : EventType) (event : Event) :
    (ScheduledJobs.handler t job event).1.Evidenced := by
  cases t with
  | jobCreated => exact h.move_or_keep rfl {} trivial
  | jobSchedulerSubmissionRequested =>
      exact h.move_or_keep rfl { submissionRequestedAt := earliest_isSome_left }
        (earliest_some_isSome _ _)
  | jobSchedulerSubmissionAcknowledged =>
      exact h.move_or_keep rfl { schedulerAcknowledgedAt := earliest_isSome_left }
        (earliest_some_isSome _ _)
  | jobSchedulerItemRetrieved =>
      exact h.move_or_keep rfl { schedulerRetrievedAt := earliest_isSome_left }
        (earliest_some_isSome _ _)
  | jobRetryAcknowledged =>
      exact h.move_or_keep rfl { retryAcknowledged := fun _ => rfl } rfl
  | jobExecutionStarted =>
      simp only [ScheduledJobs.handler, onJobExecutionStarted]
      split
      · exact h.keep rfl { startedAt := earliest_isSome_left }
      · split
        · exact h.keep rfl { startedAt := earliest_isSome_left }
        · exact earliest_some_isSome _ _
  | jobExecutionSucceeded =>
      simp only [ScheduledJobs.handler, onJobExecutionSucceeded]
      split
      · exact h.keep rfl {}
      · trivial
  | jobExecutionFailed =>
      simp only [ScheduledJobs.handler, onJobExecutionFailed]
      split
      · exact h.keep rfl {}
      · split
        · exact h.keep rfl {}
        · -- a retryable failure and a final one are both recorded without evidence
          unfold Evidenced
          cases event.retryable.getD false <;> trivial
  | jobSchedulerSubmissionFailed =>
      simp only [ScheduledJobs.handler, onJobSchedulerSubmissionFailed]
      split
      · exact h
      · trivial
  | jobRetryRequested =>
      simp only [ScheduledJobs.handler, onJobRetryRequested]
      split
      · exact h
      · trivial
  | jobRetryRejected =>
      simp only [ScheduledJobs.handler, onJobRetryRejected]
      split
      · exact h
      · trivial
  | jobRetriesExhausted =>
      simp only [ScheduledJobs.handler, onJobRetriesExhausted]
      split
      · exact h
      · trivial
  | jobCancelled =>
      simp only [ScheduledJobs.handler, onJobCancelled]
      split
      · exact h
      · trivial

theorem Evidenced.decideEvent (h : job.Evidenced) (event : Event) :
    (ScheduledJobs.decideEvent job event).1.Evidenced := by
  have hproject : (project job event).1.Evidenced :=
    Evidenced.handler (@Evidenced.keep job (mergeCommon job event) h rfl {}) event.eventType event
  unfold ScheduledJobs.decideEvent
  split
  · exact h
  · simp only []
    split
    · exact hproject.keep rfl {}
    · exact hproject

end JobVisibility

/-- **One event keeps the status backed by the recorded times.** -/
theorem evidenced_reduceEvent {current : Option JobVisibility}
    (h : ∀ job ∈ current, job.Evidenced) (event : Event) :
    (reduceEvent current event).job.Evidenced := by
  have hcurrent : (currentOrBlank current event).Evidenced := by
    cases current with
    | none => trivial
    | some job => exact h job rfl
  exact (hcurrent.decideEvent event).keep rfl {}

/-! ### Every projection -/

/-- **Every status is backed by evidence**: the recorded one by a recorded time, flag or attempt,
and the one a reader is shown at any time by an acknowledgement or a retrieval. -/
structure StatusBacked (config : VisibilityConfig) (job : JobVisibility) : Prop where
  pendingSubmission : job.recordedStatus = .pendingSubmission → job.submissionRequestedAt.isSome
  scheduled : job.recordedStatus = .scheduled → job.schedulerAcknowledgedAt.isSome
  awaitingExecution : job.recordedStatus = .awaitingExecution → job.schedulerRetrievedAt.isSome
  retryScheduled : job.recordedStatus = .retryScheduled → job.retryAcknowledged
  running : job.recordedStatus = .running →
    (∃ n attempt, job.attempts.get? n = some attempt ∧ attempt.status = .running) ∧
      job.startedAt.isSome
  succeeded : job.recordedStatus = .succeeded ↔
    ∃ n attempt, job.attempts.get? n = some attempt ∧ attempt.status = .succeeded
  derived : ∀ now, config.derivedStatus job now ∈ [.scheduled, .overdue] ∨
      config.derivedStatus job now = .awaitingExecution ∧
        job.recordedStatus ≠ .awaitingExecution →
    job.schedulerAcknowledgedAt.isSome ∨ job.schedulerRetrievedAt.isSome

/-- An attempt with a status, in the projection and in its lifecycle. -/
theorem exists_attempt_iff {job : JobVisibility} {s : AttemptStatus} :
    (∃ n attempt, job.attempts.get? n = some attempt ∧ attempt.status = s) ↔
      ∃ n, job.lifecycle.attempts n = some s := by
  simp [lifecycle]

/-- A reader is shown a status that was not recorded only of a job that waits for its time. -/
theorem derivedStatus_eq_or (config : VisibilityConfig) (job : JobVisibility) (now : Datetime) :
    config.derivedStatus job now = job.recordedStatus ∨
      job.recordedStatus = .scheduled ∨ job.recordedStatus = .awaitingExecution := by
  unfold VisibilityConfig.derivedStatus
  split
  · exact Or.inl rfl
  · split
    · split
      · next hwaiting =>
          right
          simpa using hwaiting
      · exact Or.inl rfl
    · exact Or.inl rfl

theorem StatusBacked.of_evidenced {config : VisibilityConfig} {job : JobVisibility}
    (hfields : job.Evidenced) (hattempts : job.lifecycle.Backed) : StatusBacked config job where
  pendingSubmission := fun hs => by rwa [Evidenced, hs] at hfields
  scheduled := fun hs => by rwa [Evidenced, hs] at hfields
  awaitingExecution := fun hs => by rwa [Evidenced, hs] at hfields
  retryScheduled := fun hs => by rwa [Evidenced, hs] at hfields
  running := fun hs =>
    ⟨exists_attempt_iff.2 (hattempts.running hs), by rwa [Evidenced, hs] at hfields⟩
  succeeded := hattempts.succeeded.trans exists_attempt_iff.symm
  derived := by
    intro now hshown
    rcases derivedStatus_eq_or config job now with hsame | hs | hs
    · rw [hsame] at hshown
      rcases hshown with hmem | ⟨hwaiting, hnot⟩
      · rcases List.mem_pair.1 hmem with hs | hs
        · rw [Evidenced, hs] at hfields
          exact Or.inl hfields
        · rw [Evidenced, hs] at hfields
          exact hfields.elim
      · exact absurd hwaiting hnot
    · rw [Evidenced, hs] at hfields
      exact Or.inl hfields
    · rw [Evidenced, hs] at hfields
      exact Or.inr hfields

theorem backed_lifecycleAll {l : Lifecycle} (h : l.Backed) (events : List Event) :
    (lifecycleAll l events).Backed := by
  induction events generalizing l with
  | nil => exact h
  | cons event events ih => exact ih (h.next event)

/-- **Every projection that `reduce_visibility` leaves, whatever the events and their order, is
backed by evidence.** -/
theorem statusBacked_reduceAll (config : VisibilityConfig) (events : List Event)
    (current : Option JobVisibility) (h : reduceVisibilityAll none events = .ok current) :
    ∀ job ∈ current, StatusBacked config job := by
  intro job hjob
  obtain rfl := reduceAll_of_reduceVisibilityAll h
  have hfields : job.Evidenced :=
    @forall_reduceAll JobVisibility.Evidenced events
      (fun event _ _ hcurrent => evidenced_reduceEvent hcurrent event) none
      (fun _ hnone => nomatch hnone) job hjob
  have hlifecycle : job.lifecycle = lifecycleAll .blank events := by
    have hreduced := lifecycle_reduceAll none events
    rwa [Option.mem_def.1 hjob] at hreduced
  have hattempts : job.lifecycle.Backed := hlifecycle ▸ backed_lifecycleAll .blank events
  exact .of_evidenced hfields hattempts

/-- The acknowledgement of a submission for the twentieth second. -/
def acknowledgedSubmission : Event where
  eventId := "edr-1"
  eventType := .jobSchedulerSubmissionAcknowledged
  eventTime := seconds 10
  ingestionTime := seconds 11
  jobId := "job-1"
  scheduledAt := some (seconds 20)

/-- An acknowledged job that is never heard of again is overdue, on the evidence of its
acknowledgement. -/
theorem statusBacked_acknowledgedSubmission :
    VisibilityConfig.derivedStatus {} (reduceEvent none acknowledgedSubmission).job (seconds 621) =
        .overdue ∧
      StatusBacked {} (reduceEvent none acknowledgedSubmission).job :=
  ⟨by decide, statusBacked_reduceAll {} [acknowledgedSubmission] _ rfl _ rfl⟩

end ScheduledJobs
