/-
**What the events of a job prove about its row.**

An event that moves a projection to a final status is emitted together with the row that gets the
status, and a finished row is not written again.  So whichever of the events have been seen, and in
whatever order, a final status that they show is the status of the row.  The other direction needs
the final event, and an order that does not matter: a success is contradicted by nothing that the
scheduler emits.

Nothing here asks that no claim was taken back.

Main definitions:

* `Event.verdict` — the final status an event moves a job to;
* `Event.IsOf` — the event carries the identity of the row;
* `RowEvidence` — **the invariant of the events of a job and its row**.

Main results:

* `RowEvidence.of_reachable` — the invariant in every reachable state;
* `verdict_of_reduceAll` — a final status of a projection is the verdict of an event;
* `status_of_reduceAll` — **a final status is that of the row**, whatever events are seen;
* `succeeded_of_reduceAll` — **a success is seen whatever the order**.
-/

import ScheduledJobs.DeliveryOrder
import ScheduledJobs.StatusEvidence
import ScheduledJobs.TerminalStability

set_option relaxedAutoImplicit false
set_option autoImplicit false

namespace ScheduledJobs

variable {Payload : Type}

/-! ### Verdicts -/

/-- The final status an event moves a job to. -/
def Event.verdict (event : Event) : Option Status :=
  match event.eventType with
  | .jobExecutionSucceeded => some .succeeded
  | .jobExecutionFailed => if event.retryable.getD false then none else some .failed
  | .jobRetriesExhausted => some .retriesExhausted
  | .jobSchedulerSubmissionFailed => some .failed
  | .jobRetryRejected => some .failed
  | .jobCancelled => some .cancelled
  | _ => none

namespace Lifecycle

variable (l : Lifecycle)

/-- Submission evidence leaves the job where it is, or moves it to a status that is not final. -/
theorem status_submit_cases (later : List Status) (target : Status) :
    (l.submit later target).status = l.status ∨ (l.submit later target).status = target := by
  unfold submit
  split
  · exact Or.inr rfl
  · exact Or.inl rfl

theorem status_conclude_cases (target : Status) :
    (l.conclude target).status = l.status ∨ (l.conclude target).status = target := by
  unfold conclude
  split
  · exact Or.inl rfl
  · exact Or.inr rfl

/-- **A job comes to a final status by the verdict of an event.** -/
theorem next_status_cases (event : Event) :
    (l.next event).status = l.status ∨ (l.next event).status.isTerminal = false ∨
      event.verdict = some (l.next event).status := by
  have hmoved : ∀ {moved : Lifecycle} {target : Status},
      moved.status = l.status ∨ moved.status = target →
        target.isTerminal = false ∨ event.verdict = some target →
        moved.status = l.status ∨ moved.status.isTerminal = false ∨
          event.verdict = some moved.status := by
    rintro moved target (hsame | rfl) htarget
    · exact Or.inl hsame
    · exact Or.inr htarget
  cases ht : event.eventType with
  | jobCreated =>
      simp only [next, ht, created]
      split
      · exact Or.inr (Or.inl rfl)
      · exact Or.inl rfl
  | jobSchedulerSubmissionRequested =>
      simp only [next, ht]
      exact hmoved (l.status_submit_cases _ _) (Or.inl rfl)
  | jobSchedulerSubmissionAcknowledged =>
      simp only [next, ht]
      exact hmoved (l.status_submit_cases _ _) (Or.inl rfl)
  | jobSchedulerSubmissionFailed =>
      simp only [next, ht]
      exact hmoved (l.status_conclude_cases _) (Or.inr (by rw [Event.verdict, ht]))
  | jobSchedulerItemRetrieved =>
      simp only [next, ht]
      exact hmoved ((l.put _ _).status_submit_cases [.running] .awaitingExecution) (Or.inl rfl)
  | jobExecutionStarted =>
      simp only [next, ht, started]
      split
      · exact Or.inl rfl
      · exact Or.inr (Or.inl rfl)
  | jobExecutionSucceeded =>
      have hverdict : event.verdict = some .succeeded := by rw [Event.verdict, ht]
      simp only [next, ht, succeeded]
      split
      · exact Or.inl rfl
      split
      · exact Or.inl rfl
      · exact Or.inr (Or.inr hverdict)
  | jobExecutionFailed =>
      simp only [next, ht, failed]
      split
      · exact Or.inl rfl
      split
      · exact Or.inl rfl
      · rw [status_moveTo, Event.verdict, ht]
        cases event.retryable.getD false with
        | true => exact Or.inr (Or.inl rfl)
        | false => exact Or.inr (Or.inr rfl)
  | jobRetryRequested =>
      simp only [next, ht]
      exact hmoved (l.status_conclude_cases _) (Or.inl rfl)
  | jobRetryAcknowledged =>
      simp only [next, ht]
      exact hmoved (l.status_submit_cases _ _) (Or.inl rfl)
  | jobRetryRejected =>
      simp only [next, ht]
      exact hmoved (l.status_conclude_cases _) (Or.inr (by rw [Event.verdict, ht]))
  | jobRetriesExhausted =>
      have hverdict : event.verdict = some .retriesExhausted := by rw [Event.verdict, ht]
      simp only [next, ht, exhausted]
      split
      · exact Or.inl rfl
      · exact Or.inr (Or.inr hverdict)
  | jobCancelled =>
      simp only [next, ht]
      exact hmoved (l.status_conclude_cases _) (Or.inr (by rw [Event.verdict, ht]))

end Lifecycle

/-- A final status that was not there before is the verdict of an event. -/
theorem verdict_of_lifecycleAll {l : Lifecycle} {events : List Event}
    (hbefore : l.status.isTerminal = false)
    (hafter : (lifecycleAll l events).status.isTerminal = true) :
    ∃ event ∈ events, event.verdict = some (lifecycleAll l events).status := by
  induction events using List.reverseRecOn with
  | nil =>
      rw [lifecycleAll, List.foldl_nil, hbefore] at hafter
      cases hafter
  | append_singleton events event ih =>
      have hlast : lifecycleAll l (events ++ [event]) = (lifecycleAll l events).next event :=
        List.foldl_append
      rw [hlast] at hafter ⊢
      rcases (lifecycleAll l events).next_status_cases event with hsame | hopen | hverdict
      · rw [hsame] at hafter ⊢
        obtain ⟨earlier, hearlier, hverdict⟩ := ih hafter
        exact ⟨earlier, List.mem_append_left _ hearlier, hverdict⟩
      · rw [hopen] at hafter
        cases hafter
      · exact ⟨event, List.mem_append_right _ (List.mem_singleton_self _), hverdict⟩

/-- **A final status of a projection is the verdict of one of its events.** -/
theorem verdict_of_reduceAll {events : List Event} {job : JobVisibility}
    (h : reduceAll none events = some job) (hfinal : job.recordedStatus.isTerminal = true) :
    ∃ event ∈ events, event.verdict = some job.recordedStatus := by
  have hlifecycle : lifecycleAll .blank events = job.lifecycle := by
    have hrun := lifecycle_reduceAll none events
    rw [h] at hrun
    exact hrun.symm
  have hstatus : (lifecycleAll .blank events).status = job.recordedStatus := by rw [hlifecycle]; rfl
  rw [← hstatus] at hfinal ⊢
  exact verdict_of_lifecycleAll rfl hfinal

/-! ### A success, in any order -/

namespace Lifecycle

variable {l : Lifecycle} {event : Event}

/-- A job that succeeded stays so. -/
theorem status_next_of_succeeded (h : l.status = .succeeded) :
    (l.next event).status = .succeeded := by
  have hfinal : l.status.isTerminal = true := by rw [h]; rfl
  rcases next_status_of_isTerminal hfinal event with hsame | ⟨-, hsettled, -⟩ | ⟨-, -, hnext⟩ |
    ⟨-, hcontradicts, -⟩ | ⟨-, hne, -⟩
  · exact hsame.trans h
  · exact absurd (Or.inl (Or.inr h)) hsettled
  · exact hnext
  · exact absurd (Or.inr ⟨hfinal, by rw [h]; decide⟩) hcontradicts
  · exact absurd h hne

theorem status_run_of_succeeded (h : l.status = .succeeded) (events : List Event) :
    (lifecycleAll l events).status = .succeeded := by
  induction events generalizing l with
  | nil => exact h
  | cons event events ih => exact ih (status_next_of_succeeded h)

/-- A success that nothing contradicts. -/
theorem status_next_succeeded (ht : event.eventType = .jobExecutionSucceeded)
    (hattempt : l.attemptStatus event.number ≠ .failed)
    (hfinal : l.status.isTerminal = true → l.status = .succeeded)
    (hsucceeded : l.attemptStatus event.number = .succeeded → l.status = .succeeded) :
    (l.next event).status = .succeeded := by
  have hnot : ¬ l.ContradictsSuccess event.number := by
    rintro (hfailed | ⟨hterminal, hother⟩)
    · exact hattempt hfailed
    · rw [hfinal hterminal] at hother
      exact hother (List.mem_cons_self ..)
  simp only [next, ht, succeeded]
  by_cases hdone : l.attemptStatus event.number = .succeeded
  · rw [if_pos hdone, hsucceeded hdone]
  · rw [if_neg hdone, if_neg hnot, status_moveTo]

end Lifecycle

/-- **A success is seen whatever the order**, when nothing else is final and its attempt has not
failed as well. -/
theorem status_of_success {events : List Event} {event : Event} (hmem : event ∈ events)
    (ht : event.eventType = .jobExecutionSucceeded)
    (hverdict : ∀ other ∈ events, ∀ status, other.verdict = some status → status = .succeeded)
    (hfailed : ∀ other ∈ events, other.eventType = .jobExecutionFailed →
      other.number ≠ event.number) :
    (lifecycleAll .blank events).status = .succeeded := by
  obtain ⟨before, after, rfl⟩ := List.append_of_mem hmem
  have hbacked : ∀ events : List Event, (lifecycleAll .blank events).Backed := by
    intro events
    induction events using List.reverseRecOn with
    | nil => exact Lifecycle.Backed.blank
    | append_singleton events event ih =>
        rw [lifecycleAll_append]
        exact ih.next event
  have hnext : ((lifecycleAll .blank before).next event).status = .succeeded := by
    refine Lifecycle.status_next_succeeded ht ?_ (fun hfinal => ?_) fun hattempt => ?_
    · refine Lifecycle.attemptStatus_ne_failed_run (fun other hother => ?_) (by
        simp [Lifecycle.blank, Lifecycle.attemptStatus])
      exact hfailed other (List.mem_append_left _ hother)
    · obtain ⟨other, hother, hother'⟩ := verdict_of_lifecycleAll rfl hfinal
      exact hverdict other (List.mem_append_left _ hother) _ hother'
    · exact (hbacked before).succeeded.2
        ⟨_, hattempt ▸ Lifecycle.attempts_of_attemptStatus (by rw [hattempt]; decide)⟩
  rw [lifecycleAll_append]
  exact Lifecycle.status_run_of_succeeded hnext after

/-! ### The events of a job and its row -/

/-- The event carries the identity of the row, and is about the submission or about an attempt that
has begun. -/
structure Event.IsOf (event : Event) (row : JobRow Payload) : Prop where
  jobId : event.jobId = row.jobId
  correlationId : event.correlationId = row.correlationId
  jobType : event.jobType = row.jobType
  scheduledAt : event.scheduledAt = some row.scheduledAt
  maxAttempts : event.maxAttempts = row.maxAttempts
  attempt_le : event.attemptNumber ≤ row.attemptNumber
  attempt_pos : event.attemptNumber = 0 ∧ event.isSubmission = true ∨
    1 ≤ event.attemptNumber ∧ event.isSubmission = false

/-- The columns of a row that are never assigned again. -/
structure JobRow.SameJob (row row' : JobRow Payload) : Prop where
  jobId : row'.jobId = row.jobId
  correlationId : row'.correlationId = row.correlationId
  jobType : row'.jobType = row.jobType
  scheduledAt : row'.scheduledAt = row.scheduledAt
  maxAttempts : row'.maxAttempts = row.maxAttempts
  attempt_le : row.attemptNumber ≤ row'.attemptNumber

/-- The last attempt has failed, or its claim was taken back. -/
def JobStatus.isUnsuccessful : JobStatus → Bool
  | retryWait | failed | retriesExhausted => true
  | _ => false

/-- **What the events of a job prove about its row**: a verdict is the status of the row, and an
attempt that failed is not the one the row is at, unless the row says so. -/
structure RowEvidence (events : List Event) (row : JobRow Payload) : Prop where
  isOf : ∀ event ∈ events, event.IsOf row
  verdict : ∀ event ∈ events, ∀ status, event.verdict = some status →
    row.status.isFinal = true ∧ row.status.value = status.value ∧
      (event.eventType = .jobExecutionSucceeded → event.attemptNumber = row.attemptNumber)
  failed : ∀ event ∈ events, event.eventType = .jobExecutionFailed →
    event.attemptNumber < row.attemptNumber ∨ row.status.isUnsuccessful = true

theorem Event.IsOf.mono {event : Event} {row row' : JobRow Payload} (h : event.IsOf row)
    (hsame : row.SameJob row') : event.IsOf row' where
  jobId := h.jobId.trans hsame.jobId.symm
  correlationId := h.correlationId.trans hsame.correlationId.symm
  jobType := h.jobType.trans hsame.jobType.symm
  scheduledAt := by rw [h.scheduledAt, hsame.scheduledAt]
  maxAttempts := h.maxAttempts.trans hsame.maxAttempts.symm
  attempt_le := h.attempt_le.trans hsame.attempt_le
  attempt_pos := h.attempt_pos

/-- An event about an attempt has the number of the attempt. -/
theorem Event.IsOf.number {event : Event} {row : JobRow Payload} (h : event.IsOf row)
    (hkind : event.isSubmission = false) : event.number = event.attemptNumber := by
  rcases h.attempt_pos with ⟨-, hsubmission⟩ | ⟨hpos, -⟩
  · rw [hkind] at hsubmission
    cases hsubmission
  · rw [Event.number, if_neg (by omega)]

namespace RowEvidence

variable {events added : List Event} {row row' : JobRow Payload}

theorem nil (row : JobRow Payload) : RowEvidence [] row :=
  ⟨fun _ h => (nomatch h), fun _ h => (nomatch h), fun _ h => (nomatch h)⟩

theorem append (h : RowEvidence events row) (h' : RowEvidence added row) :
    RowEvidence (events ++ added) row where
  isOf := List.forall_mem_append.2 ⟨h.isOf, h'.isOf⟩
  verdict := List.forall_mem_append.2 ⟨h.verdict, h'.verdict⟩
  failed := List.forall_mem_append.2 ⟨h.failed, h'.failed⟩

/-- The events of an unfinished row are evidence for what it becomes. -/
theorem mono (h : RowEvidence events row) (hsame : row.SameJob row')
    (hopen : row.status.isFinal = false)
    (hfailed : row.status.isUnsuccessful = true →
      row.attemptNumber < row'.attemptNumber ∨ row'.status.isUnsuccessful = true) :
    RowEvidence events row' where
  isOf := fun event hevent => (h.isOf event hevent).mono hsame
  verdict := fun event hevent status hstatus => by
    have hfinal := (h.verdict event hevent status hstatus).1
    rw [hopen] at hfinal
    cases hfinal
  failed := fun event hevent ht => by
    rcases h.failed event hevent ht with hlt | hlost
    · exact Or.inl (hlt.trans_le hsame.attempt_le)
    · have hle := (h.isOf event hevent).attempt_le
      exact (hfailed hlost).imp_left fun hlt => by omega

/-- An unfinished row moves on, and events about what it becomes enter the outbox. -/
theorem emit (h : RowEvidence events row) (hsame : row.SameJob row')
    (hopen : row.status.isFinal = false)
    (hfailed : row.status.isUnsuccessful = true →
      row.attemptNumber < row'.attemptNumber ∨ row'.status.isUnsuccessful = true)
    (hadded : RowEvidence added row') : RowEvidence (events ++ added) row' :=
  (h.mono hsame hopen hfailed).append hadded

/-- Events that are neither final nor a failure. -/
theorem of_passing (h : ∀ event ∈ events, event.IsOf row ∧ event.verdict = none ∧
    event.eventType ≠ .jobExecutionFailed) : RowEvidence events row where
  isOf := fun event hevent => (h event hevent).1
  verdict := fun event hevent status hstatus => by
    rw [(h event hevent).2.1] at hstatus
    cases hstatus
  failed := fun event hevent ht => absurd ht (h event hevent).2.2

end RowEvidence

/-! ### Every step -/

/-- An event with the columns of a claim of the job. -/
theorem ClaimedJob.IsOf.isOf_event {job : ClaimedJob Payload} {row : JobRow Payload} {event : Event}
    (h : job.IsOf row)
    (hcolumns : event.jobId = job.jobId ∧ event.correlationId = job.correlationId ∧
      event.jobType = job.jobType ∧ event.scheduledAt = some job.scheduledAt ∧
      event.maxAttempts = job.maxAttempts ∧ event.attemptNumber = job.attemptNumber)
    (hkind : event.isSubmission = false) : event.IsOf row := by
  obtain ⟨hjobId, hcorrelationId, hjobType, hscheduledAt, hmaxAttempts, hattempt⟩ := hcolumns
  exact ⟨hjobId.trans h.jobId, hcorrelationId.trans h.correlationId, hjobType.trans h.jobType,
    hscheduledAt.trans (congrArg some h.scheduledAt), hmaxAttempts.trans h.maxAttempts,
    hattempt ▸ h.attempt_le, Or.inr ⟨hattempt ▸ h.attempt_pos, hkind⟩⟩

/-- The events of a failure, over the row it leaves. -/
theorem rowEvidence_failureEvents {service : SchedulerService} {job : ClaimedJob Payload}
    {failure : HandlerError} {clock : ClockReads} {events : List Event} {row : JobRow Payload}
    (h : Drafted (service.failureEvents job failure clock) events) (hjob : job.IsOf row)
    (hstatus : row.status = job.failureStatus failure) : RowEvidence events row := by
  obtain ⟨eventId, rest, rfl, hrest⟩ := drafted_failureEvents h
  have hisOf : (job.failedEvent failure clock.written eventId).IsOf row :=
    hjob.isOf_event ⟨rfl, rfl, rfl, rfl, rfl, rfl⟩ rfl
  rw [← List.singleton_append]
  rcases hrest with ⟨hleft, hretryable, requestedId, acknowledgedId, rfl⟩ |
    ⟨hleft, hretryable, exhaustedId, rfl⟩ | ⟨hleft, hretryable, rfl⟩
  · refine RowEvidence.append ⟨?_, ?_, ?_⟩ (.of_passing ?_)
    · exact List.forall_mem_singleton.2 hisOf
    · refine List.forall_mem_singleton.2 fun status hverdict => ?_
      simp [ClaimedJob.failedEvent, ClaimedJob.event, Event.verdict, hretryable] at hverdict
    · refine List.forall_mem_singleton.2 fun _ => Or.inr ?_
      rw [hstatus, hleft]
      rfl
    · rw [List.forall_mem_cons, List.forall_mem_singleton]
      exact ⟨⟨hjob.isOf_event ⟨rfl, rfl, rfl, rfl, rfl, rfl⟩ rfl, rfl, by simp [
        ClaimedJob.retryRequestedEvent, ClaimedJob.event]⟩,
        hjob.isOf_event ⟨rfl, rfl, rfl, rfl, rfl, rfl⟩ rfl, rfl, by simp [
          ClaimedJob.retryAcknowledgedEvent, ClaimedJob.event]⟩
  · have hfinal : row.status.isFinal = true ∧ row.status.isUnsuccessful = true ∧
        row.status.value = Status.retriesExhausted.value := by
      rw [hstatus, hleft]
      exact ⟨rfl, rfl, rfl⟩
    refine RowEvidence.append ⟨?_, ?_, ?_⟩ ⟨?_, ?_, ?_⟩
    · exact List.forall_mem_singleton.2 hisOf
    · refine List.forall_mem_singleton.2 fun status hverdict => ?_
      simp [ClaimedJob.failedEvent, ClaimedJob.event, Event.verdict, hretryable] at hverdict
    · exact List.forall_mem_singleton.2 fun _ => Or.inr hfinal.2.1
    · exact List.forall_mem_singleton.2 (hjob.isOf_event ⟨rfl, rfl, rfl, rfl, rfl, rfl⟩ rfl)
    · refine List.forall_mem_singleton.2 fun status hverdict => ?_
      obtain rfl : Status.retriesExhausted = status := Option.some_inj.1 hverdict
      exact ⟨hfinal.1, hfinal.2.2, by simp [ClaimedJob.exhaustedEvent, ClaimedJob.event]⟩
    · exact List.forall_mem_singleton.2 fun _ => Or.inr hfinal.2.1
  · have hfinal : row.status.isFinal = true ∧ row.status.isUnsuccessful = true ∧
        row.status.value = Status.failed.value := by
      rw [hstatus, hleft]
      exact ⟨rfl, rfl, rfl⟩
    refine RowEvidence.append ⟨?_, ?_, ?_⟩ (RowEvidence.nil row)
    · exact List.forall_mem_singleton.2 hisOf
    · refine List.forall_mem_singleton.2 fun status hverdict => ?_
      have hverdict' : some Status.failed = some status := by
        simpa [ClaimedJob.failedEvent, ClaimedJob.event, Event.verdict, hretryable] using hverdict
      obtain rfl := Option.some_inj.1 hverdict'
      exact ⟨hfinal.1, hfinal.2.2, by simp [ClaimedJob.failedEvent, ClaimedJob.event]⟩
    · exact List.forall_mem_singleton.2 fun _ => Or.inr hfinal.2.1

/-- **What a step preserves.** -/
theorem RowEvidence.step {service : SchedulerService} {clock : ClockReads} {op : Operation Payload}
    {v v' : JobView Payload} (hinv : QueueInv v) (hs : JobStep service clock op v v')
    (h : ∀ row, v.row = some row → RowEvidence v.events row) :
    ∀ row, v'.row = some row → RowEvidence v'.events row := by
  have hopened : ∀ {row : JobRow Payload}, row.status = .claimed ∨ row.status = .running →
      row.status.isFinal = false ∧ row.status.isUnsuccessful = false := by
    rintro row (hs | hs) <;> rw [hs] <;> exact ⟨rfl, rfl⟩
  intro row' hrow'
  have hafter := (hinv.step hs).present row' hrow'
  cases hs with
  | idle => exact h row' hrow'
  | @submitted value _ events hrow hevents =>
      obtain ⟨createdId, requestedId, rfl⟩ := drafted_pair hevents
      obtain rfl := Option.some_inj.1 hrow'
      have hnone : v.events = [] := (hinv.absent hrow).2.1
      have hisOf : ∀ {eventType eventId}, (value.event eventType clock.written eventId).isSubmission
          = true → (value.event eventType clock.written eventId).IsOf (value.row clock.written) :=
        fun hkind => ⟨rfl, rfl, rfl, rfl, rfl, le_rfl, Or.inl ⟨rfl, hkind⟩⟩
      refine RowEvidence.of_passing fun event hevent => ?_
      simp only [JobView.emit, JobView.setRow, hnone, List.nil_append, List.mem_cons,
        List.not_mem_nil, or_false] at hevent
      rcases hevent with rfl | rfl
      · exact ⟨hisOf rfl, rfl, by simp [JobSubmission.event]⟩
      · exact ⟨hisOf rfl, rfl, by simp [JobSubmission.event]⟩
  | @claimed owner limit locked _ row token eventId hrow hstatus hdue hfresh =>
      obtain rfl := Option.some_inj.1 hrow'
      have hof := hafter.claims _ (List.mem_append_right _ (List.mem_singleton_self _))
      refine (h row hrow).emit ⟨rfl, rfl, rfl, rfl, rfl, Nat.le_succ _⟩ ?_
        (fun _ => Or.inl (Nat.lt_succ_self _)) (.of_passing ?_)
      · rcases hstatus with hs | hs <;> rw [hs] <;> rfl
      · exact List.forall_mem_singleton.2
          ⟨hof.isOf_event ⟨rfl, rfl, rfl, rfl, rfl, rfl⟩ rfl, rfl, by simp [
            SchedulerService.retrievedEvent, ClaimedJob.event]⟩
  | @started job _ row eventId hjob hrow hcur =>
      obtain rfl := Option.some_inj.1 hrow'
      obtain ⟨hopen, hlost⟩ := hopened ((hinv.present row hrow).of_isCurrent hcur).1
      have hof := hafter.claims job hjob
      refine (h row hrow).emit ⟨rfl, rfl, rfl, rfl, rfl, le_rfl⟩ hopen
        (fun hs => by rw [hlost] at hs; cases hs) (.of_passing ?_)
      exact List.forall_mem_singleton.2
        ⟨hof.isOf_event ⟨rfl, rfl, rfl, rfl, rfl, rfl⟩ rfl, rfl, by simp [ClaimedJob.event]⟩
  | @heartbeat job _ row hjob hrow hcur =>
      obtain rfl := Option.some_inj.1 hrow'
      obtain ⟨hopen, hlost⟩ := hopened ((hinv.present row hrow).of_isCurrent hcur).1
      exact (h row hrow).mono ⟨rfl, rfl, rfl, rfl, rfl, le_rfl⟩ hopen
        fun hs => by rw [hlost] at hs; cases hs
  | @succeeded job summary _ row eventId hjob hrow hcur =>
      obtain rfl := Option.some_inj.1 hrow'
      obtain ⟨hopen, hlost⟩ := hopened ((hinv.present row hrow).of_isCurrent hcur).1
      have hof := hafter.claims job hjob
      refine (h row hrow).emit ⟨rfl, rfl, rfl, rfl, rfl, le_rfl⟩ hopen
        (fun hs => by rw [hlost] at hs; cases hs) ⟨?_, ?_, ?_⟩
      · exact List.forall_mem_singleton.2 (hof.isOf_event ⟨rfl, rfl, rfl, rfl, rfl, rfl⟩ rfl)
      · refine List.forall_mem_singleton.2 fun status hverdict => ?_
        obtain rfl : Status.succeeded = status := Option.some_inj.1 hverdict
        exact ⟨rfl, rfl, fun _ => hcur.1.symm⟩
      · exact List.forall_mem_singleton.2 fun ht => by simp [ClaimedJob.event] at ht
  | @failed job failure _ row events hjob hrow hcur hchecks hevents =>
      obtain rfl := Option.some_inj.1 hrow'
      obtain ⟨hopen, hlost⟩ := hopened ((hinv.present row hrow).of_isCurrent hcur).1
      have hof := hafter.claims job hjob
      exact (h row hrow).emit ⟨rfl, rfl, rfl, rfl, rfl, le_rfl⟩ hopen
        (fun hs => by rw [hlost] at hs; cases hs) (rowEvidence_failureEvents hevents hof rfl)
  | @recovered limit locked _ row hrow hstatus hexpired =>
      obtain rfl := Option.some_inj.1 hrow'
      obtain ⟨hopen, hlost⟩ := hopened hstatus
      exact (h row hrow).mono ⟨rfl, rfl, rfl, rfl, rfl, le_rfl⟩ hopen
        fun hs => by rw [hlost] at hs; cases hs

/-- A job that has succeeded has an event that says so. -/
theorem exists_success_step {service : SchedulerService} {clock : ClockReads}
    {op : Operation Payload} {v v' : JobView Payload} (hs : JobStep service clock op v v')
    (h : ∀ row, v.row = some row → row.status = .succeeded →
      ∃ event ∈ v.events, event.eventType = .jobExecutionSucceeded) :
    ∀ row, v'.row = some row → row.status = .succeeded →
      ∃ event ∈ v'.events, event.eventType = .jobExecutionSucceeded := by
  intro row' hrow' hstatus'
  cases hs with
  | idle => exact h row' hrow' hstatus'
  | submitted hrow hevents =>
      obtain rfl := Option.some_inj.1 hrow'
      cases hstatus'
  | claimed hrow hstatus hdue hfresh =>
      obtain rfl := Option.some_inj.1 hrow'
      cases hstatus'
  | started hjob hrow hcur =>
      obtain rfl := Option.some_inj.1 hrow'
      cases hstatus'
  | heartbeat hjob hrow hcur =>
      obtain rfl := Option.some_inj.1 hrow'
      exact h _ hrow hstatus'
  | succeeded hjob hrow hcur =>
      exact ⟨_, List.mem_append_right _ (List.mem_singleton_self _), rfl⟩
  | @failed job failure _ row events hjob hrow hcur hchecks hevents =>
      obtain rfl := Option.some_inj.1 hrow'
      have hne : job.failureStatus failure ≠ .succeeded := by
        unfold ClaimedJob.failureStatus
        split
        · decide
        · split <;> decide
      exact absurd hstatus' hne
  | @recovered limit locked _ row hrow hstatus hexpired =>
      obtain rfl := Option.some_inj.1 hrow'
      have hne : (row.recover clock.written).status ≠ .succeeded := by
        simp only [JobRow.recover, JobRow.release]
        split <;> decide
      exact absurd hstatus' hne

section Reachable

variable [DecidableEq Payload] {service : SchedulerService} {w : World Payload}

/-- **The events of a job are evidence for its row** in every reachable state. -/
theorem RowEvidence.of_reachable (h : (schedulerMachine service).Reachable w) (jobId : String) :
    ∀ row, (w.view jobId).row = some row → RowEvidence (w.view jobId).events row := by
  induction h with
  | start => exact fun _ hrow => nomatch hrow
  | step hs _ hn ih =>
      exact RowEvidence.step (QueueInv.of_reachable hs jobId) (view_step hn jobId) ih

theorem exists_success (h : (schedulerMachine service).Reachable w) (jobId : String) :
    ∀ row, (w.view jobId).row = some row → row.status = .succeeded →
      ∃ event ∈ (w.view jobId).events, event.eventType = .jobExecutionSucceeded := by
  induction h with
  | start => exact fun _ hrow => nomatch hrow
  | step hs _ hn ih => exact exists_success_step (view_step hn jobId) ih

/-- An event of a job has its row. -/
theorem exists_row_of_event (h : (schedulerMachine service).Reachable w) {event : Event}
    (hevent : event ∈ w.db.events) :
    ∃ row, w.db.jobs.find? event.jobId = some row ∧
      RowEvidence (eventsOf event.jobId w.db.events) row := by
  have hmem : event ∈ (w.view event.jobId).events :=
    List.mem_filter.2 ⟨hevent, decide_eq_true rfl⟩
  cases hrow : (w.view event.jobId).row with
  | none =>
      rw [((QueueInv.of_reachable h event.jobId).absent hrow).2.1] at hmem
      cases hmem
  | some row => exact ⟨row, hrow, RowEvidence.of_reachable h event.jobId row hrow⟩

/-- **A final status is that of the row**, whichever events of the job are seen, and in whatever
order. -/
theorem status_of_reduceAll (h : (schedulerMachine service).Reachable w) {jobId : String}
    {seen : List Event} {job : JobVisibility}
    (hseen : ∀ event ∈ seen, event ∈ eventsOf jobId w.db.events)
    (hreduce : reduceAll none seen = some job) (hfinal : job.recordedStatus.isTerminal = true) :
    ∃ row, w.db.jobs.find? jobId = some row ∧ row.status.isFinal = true ∧
      row.status.value = job.recordedStatus.value := by
  obtain ⟨event, hevent, hverdict⟩ := verdict_of_reduceAll hreduce hfinal
  obtain ⟨hmem, hjob⟩ := List.mem_filter.1 (hseen event hevent)
  obtain ⟨row, hrow, hevidence⟩ := exists_row_of_event h hmem
  rw [of_decide_eq_true hjob] at hrow hevidence
  obtain ⟨hrowFinal, hvalue, -⟩ := hevidence.verdict event (hseen event hevent) _ hverdict
  exact ⟨row, hrow, hrowFinal, hvalue⟩

/-- **A success is seen whatever the order** in which the events of the job are seen. -/
theorem succeeded_of_reduceAll (h : (schedulerMachine service).Reachable w) {jobId : String}
    {row : JobRow Payload} (hrow : w.db.jobs.find? jobId = some row)
    (hstatus : row.status = .succeeded) {seen : List Event} {job : JobVisibility}
    (hseen : ∀ event, event ∈ seen ↔ event ∈ eventsOf jobId w.db.events)
    (hreduce : reduceAll none seen = some job) : job.recordedStatus = .succeeded := by
  have hevidence := RowEvidence.of_reachable h jobId row hrow
  obtain ⟨event, hevent, ht⟩ := exists_success h jobId row hrow hstatus
  have hkind : ∀ {other : Event}, other.eventType = .jobExecutionSucceeded ∨
      other.eventType = .jobExecutionFailed → other.isSubmission = false := by
    rintro other (ht | ht) <;> simp [Event.isSubmission, ht]
  have hverdict : event.verdict = some .succeeded := by rw [Event.verdict, ht]
  have hattempt := (hevidence.verdict event hevent _ hverdict).2.2 ht
  have hall := status_of_success ((hseen event).2 hevent) ht (fun other hother status hother' => ?_)
    fun other hother ht' => ?_
  · have hlifecycle := lifecycle_reduceAll none seen
    rw [hreduce] at hlifecycle
    have hjob : job.lifecycle = lifecycleAll .blank seen := hlifecycle
    rw [← hjob] at hall
    exact hall
  · obtain ⟨-, hvalue, -⟩ := hevidence.verdict other ((hseen other).1 hother) status hother'
    rw [hstatus] at hvalue
    exact Status.value_injective hvalue.symm
  · rw [(hevidence.isOf other ((hseen other).1 hother)).number (hkind (Or.inr ht')),
      (hevidence.isOf event hevent).number (hkind (Or.inl ht)), hattempt]
    rcases hevidence.failed other ((hseen other).1 hother) ht' with hlt | hlost
    · exact hlt.ne
    · rw [hstatus] at hlost
      cases hlost

end Reachable

end ScheduledJobs
