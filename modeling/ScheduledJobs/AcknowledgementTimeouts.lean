/-
**When an acknowledgement is reported missing.**

`reconcile` reports a submission that was not acknowledged by the status of the job, and a retry
that was not acknowledged by two flags.  Neither is kept for that purpose.  A request for submission
sets the status back after the acknowledgement, and a retry stays requested and unacknowledged when
the job ends: by a success, by a failed submission, by a cancellation, and by the very rejection
that answers it; the exhaustion of the retries even takes an acknowledgement back.

Main definitions:

* `Acknowledged`, `Answered` — what the events of a job say about its requests;
* `TimeoutsSound` — what the two reports should mean;
* `LeavesRequestOpen` — **the events after which they are wrong**.

Main results:

* `timeoutsSound_iff` — what the reports mean, in terms of what the checks read;
* `requestsSound_projectedBy_iff` — **what one event does**;
* `acknowledgementTimeouts_iff` — **the reports are right after all calls of a run exactly when no
  event of it leaves a request open**.
-/

import ScheduledJobs.AttemptMap
import ScheduledJobs.Reconciliation
import ScheduledJobs.TimestampBackfill

set_option relaxedAutoImplicit false
set_option autoImplicit false

namespace ScheduledJobs

open JobVisibility VisibilityConfig

/-! ### What the reports should mean -/

/-- An acknowledgement of the submission was applied. -/
def Acknowledged (events : List Event) : Prop :=
  ∃ event ∈ events, event.eventType = .jobSchedulerSubmissionAcknowledged

/-- The event acknowledges or rejects a retry. -/
def Event.AnswersRetry (event : Event) : Prop :=
  event.eventType = .jobRetryAcknowledged ∨ event.eventType = .jobRetryRejected

/-- An answer was applied after the latest request for a retry. -/
def Answered (events : List Event) : Prop :=
  ∃ earlier answer later, events = earlier ++ answer :: later ∧ answer.AnswersRetry ∧
    ∀ event ∈ later, event.eventType ≠ .jobRetryRequested

/-- **What the two reports should mean.** -/
def TimeoutsSound (config : VisibilityConfig) (events : List Event) (job : JobVisibility)
    (now : Datetime) : Prop :=
  (config.Reports job now .schedulerAckTimeout → ¬ Acknowledged events) ∧
    (config.Reports job now .retryAckTimeout →
      job.recordedStatus.isTerminal = false ∧ ¬ Answered events)

/-- They mean it after any of the calls, about any job and at any time. -/
def AckTimeoutsSound (config : VisibilityConfig) (ops : List EngineCall) : Prop :=
  ∀ calls, calls <+: ops → ∀ engine reports,
    VisibilityEngine.perform { config := config } calls = .ok (engine, reports) →
    ∀ jobId job, engine.jobs.find? jobId = some job →
      ∀ now, TimeoutsSound config (eventsOf jobId engine.events) job now

/-! ### The events after which they are wrong -/

/-- A retry was requested, and its acknowledgement is missing. -/
def JobVisibility.RetryOpen (job : JobVisibility) : Prop :=
  job.retryRequested = true ∧ job.retryAcknowledged = false ∧ job.retryRequestedAt.isSome

/-- **The event leaves a request open**: it moves a job whose submission was acknowledged back to
`PENDING_SUBMISSION`, or it ends a job without closing its request for a retry. -/
def LeavesRequestOpen (job : JobVisibility) (event : Event) : Prop :=
  match event.eventType with
  | .jobSchedulerSubmissionRequested =>
      job.schedulerAcknowledgedAt.isSome ∧ job.recordedStatus.isTerminal = false ∧
        job.recordedStatus ∉ [.running, .retryPending, .retryScheduled]
  | .jobSchedulerSubmissionFailed => job.recordedStatus.isTerminal = false ∧ job.RetryOpen
  | .jobCancelled => job.recordedStatus.isTerminal = false ∧ job.RetryOpen
  | .jobExecutionSucceeded =>
      job.recordedStatus.isTerminal = false ∧ job.RetryOpen ∧
        (job.attemptAt event.number).status ∉ [.succeeded, .failed]
  | .jobRetryRejected => job.recordedStatus.isTerminal = false ∧ job.retryRequestedAt.isSome
  | .jobRetriesExhausted =>
      job.recordedStatus ≠ .succeeded ∧ job.retryRequested = true ∧ job.retryRequestedAt.isSome
  | _ => False

/-- No event that is applied leaves a request open. -/
def NoRequestLeftOpen (config : VisibilityConfig) (ops : List EngineCall) : Prop :=
  ∀ calls event, calls ++ [.apply event] <+: ops → ∀ engine reports,
    VisibilityEngine.perform { config := config } calls = .ok (engine, reports) →
    event.eventId ∉ engine.eventIds →
      ¬ LeavesRequestOpen (currentOrBlank (engine.jobs.find? event.jobId) event) event

/-! ### The events of a job -/

theorem acknowledged_concat (events : List Event) (event : Event) :
    Acknowledged (events ++ [event]) ↔
      Acknowledged events ∨ event.eventType = .jobSchedulerSubmissionAcknowledged := by
  simp only [Acknowledged, List.mem_append, List.mem_singleton, or_and_right, exists_or,
    exists_eq_left]

theorem answered_concat (events : List Event) (event : Event) :
    Answered (events ++ [event]) ↔
      event.AnswersRetry ∨ (event.eventType ≠ .jobRetryRequested ∧ Answered events) := by
  constructor
  · rintro ⟨earlier, answer, later, heq, hanswer, hlater⟩
    rcases List.eq_nil_or_concat later with rfl | ⟨rest, last, rfl⟩
    · obtain ⟨-, hlast⟩ := List.append_inj' heq rfl
      obtain rfl := List.singleton_inj.1 hlast
      exact Or.inl hanswer
    · rw [List.concat_eq_append, ← List.cons_append, ← List.append_assoc] at heq
      obtain ⟨rfl, hlast⟩ := List.append_inj' heq rfl
      obtain rfl := List.singleton_inj.1 hlast
      exact Or.inr ⟨hlater event (by simp), earlier, answer, rest, rfl, hanswer,
        fun e he => hlater e (by simp [he])⟩
  · rintro (hanswer | ⟨hrequested, earlier, answer, later, rfl, hanswer, hlater⟩)
    · exact ⟨events, event, [], rfl, hanswer, by simp⟩
    · refine ⟨earlier, answer, later ++ [event], by simp, hanswer, fun e he => ?_⟩
      rcases List.mem_append.1 he with hold | hnew
      · exact hlater e hold
      · rwa [List.mem_singleton.1 hnew]

/-! ### What the checks read -/

/-- What the reports mean, in terms of what the checks read: the status of the job, and the flags of
its retry. -/
structure RequestsSound (events : List Event) (job : JobVisibility) : Prop where
  submission : job.recordedStatus = .pendingSubmission → job.submissionRequestedAt.isSome →
    ¬ Acknowledged events
  retry : job.RetryOpen → job.recordedStatus.isTerminal = false ∧ ¬ Answered events

/-- A request that was made is overdue in time. -/
theorem exists_elapsed_iff {since : Option Datetime} {timeout : ℤ} :
    (∃ now, Elapsed now since timeout) ↔ since.isSome := by
  cases since with
  | none => simp [Elapsed]
  | some t =>
      refine iff_of_true ⟨t + (seconds timeout + 1), t, rfl, ?_⟩ rfl
      rw [add_sub_cancel_left]
      exact Int.lt_succ _

theorem timeoutsSound_iff {config : VisibilityConfig} {events : List Event} {job : JobVisibility}
    (hkeyed : Findings.Keyed job.findings) :
    (∀ now, TimeoutsSound config events job now) ↔ RequestsSound events job := by
  simp only [TimeoutsSound, reports_schedulerAckTimeout_iff hkeyed,
    reports_retryAckTimeout_iff hkeyed]
  constructor
  · intro h
    constructor
    · intro hpending hrequested
      obtain ⟨now, helapsed⟩ := exists_elapsed_iff.2 hrequested
      exact (h now).1 ⟨hpending, helapsed⟩
    · rintro ⟨hrequested, hmissing, hsome⟩
      obtain ⟨now, helapsed⟩ := exists_elapsed_iff.2 hsome
      exact (h now).2 ⟨hrequested, hmissing, helapsed⟩
  · intro h now
    constructor
    · rintro ⟨hpending, helapsed⟩
      exact h.submission hpending (exists_elapsed_iff.1 ⟨now, helapsed⟩)
    · rintro ⟨hrequested, hmissing, helapsed⟩
      exact h.retry ⟨hrequested, hmissing, exists_elapsed_iff.1 ⟨now, helapsed⟩⟩

/-! ### One event -/

section Step

variable {before : List Event} {job later : JobVisibility} {event : Event}

/-- The requests of a job are what they were. -/
structure SameRequests (job later : JobVisibility) : Prop where
  submissionRequestedAt : later.submissionRequestedAt = job.submissionRequestedAt
  retryRequested : later.retryRequested = job.retryRequested
  retryAcknowledged : later.retryAcknowledged = job.retryAcknowledged
  retryRequestedAt : later.retryRequestedAt = job.retryRequestedAt

theorem SameRequests.retryOpen_iff (h : SameRequests job later) :
    later.RetryOpen ↔ job.RetryOpen := by
  rw [RetryOpen, h.retryRequested, h.retryAcknowledged, h.retryRequestedAt, RetryOpen]

/-- An event that is no answer leaves a retry unanswered. -/
theorem RequestsSound.retry_concat (h : RequestsSound before job) (hanswer : ¬ event.AnswersRetry)
    (hopen : job.RetryOpen) :
    job.recordedStatus.isTerminal = false ∧ ¬ Answered (before ++ [event]) := by
  obtain ⟨hterminal, hnone⟩ := h.retry hopen
  rw [answered_concat]
  exact ⟨hterminal, not_or.2 ⟨hanswer, fun hanswered => hnone hanswered.2⟩⟩

/-- An event that is no answer, makes no request and at most moves the job on leaves the reports
right. -/
theorem RequestsSound.keeps (h : RequestsSound before job)
    (hkind : event.eventType ∉
      [.jobSchedulerSubmissionAcknowledged, .jobRetryAcknowledged, .jobRetryRejected])
    (hsame : SameRequests job later)
    (hstatus : later.recordedStatus = job.recordedStatus ∨
      later.recordedStatus ∈ [.created, .awaitingExecution, .running]) :
    RequestsSound (before ++ [event]) later := by
  have hack : event.eventType ≠ .jobSchedulerSubmissionAcknowledged :=
    fun ht => hkind (by simp [ht])
  have hanswer : ¬ event.AnswersRetry :=
    fun hanswer => hkind (by rcases hanswer with ht | ht <;> simp [ht])
  constructor
  · intro hpending hsome
    rw [acknowledged_concat, or_iff_left hack]
    rcases hstatus with heq | hmoved
    · exact h.submission (heq ▸ hpending) (hsame.submissionRequestedAt ▸ hsome)
    · simp [hpending] at hmoved
  · intro hopen
    obtain ⟨hterminal, hnone⟩ := h.retry_concat hanswer (hsame.retryOpen_iff.1 hopen)
    refine ⟨?_, hnone⟩
    rcases hstatus with heq | hmoved
    · rwa [heq]
    · simp only [List.mem_cons, List.not_mem_nil, or_false] at hmoved
      rcases hmoved with hcreated | hawaiting | hrunning
      · rw [hcreated]; rfl
      · rw [hawaiting]; rfl
      · rw [hrunning]; rfl

/-- A job that has ended is reported right when its request for a retry is closed. -/
theorem requestsSound_iff_of_isTerminal {events : List Event}
    (hterminal : later.recordedStatus.isTerminal = true) :
    RequestsSound events later ↔ ¬ later.RetryOpen := by
  constructor
  · intro h hopen
    rw [(h.retry hopen).1] at hterminal
    cases hterminal
  · refine fun hclosed => ⟨fun hpending => ?_, fun hopen => absurd hopen hclosed⟩
    rw [hpending] at hterminal
    cases hterminal

/-- A job that has ended and is reported right stays so, whatever is applied. -/
theorem RequestsSound.of_isTerminal (h : RequestsSound before job)
    (hterminal : job.recordedStatus.isTerminal = true) {events : List Event} :
    RequestsSound events job :=
  (requestsSound_iff_of_isTerminal hterminal).2
    ((requestsSound_iff_of_isTerminal hterminal).1 h)

/-! ### The handlers that leave no request open -/

theorem requestsSound_onJobCreated (h : RequestsSound before job)
    (ht : event.eventType = .jobCreated) :
    RequestsSound (before ++ [event]) (onJobCreated job event).1 := by
  refine h.keeps (by simp [ht]) ⟨rfl, rfl, rfl, rfl⟩ ?_
  simp only [onJobCreated]
  split
  · exact Or.inr (by decide)
  · exact Or.inl rfl

theorem requestsSound_onJobSchedulerSubmissionAcknowledged (h : RequestsSound before job)
    (ht : event.eventType = .jobSchedulerSubmissionAcknowledged) :
    RequestsSound (before ++ [event]) (onJobSchedulerSubmissionAcknowledged job event).1 := by
  simp only [onJobSchedulerSubmissionAcknowledged]
  split
  · refine ⟨fun hpending => ?_, fun hopen => ⟨rfl, ?_⟩⟩
    · cases hpending
    · exact (h.retry_concat (by simp [Event.AnswersRetry, ht]) hopen).2
  · next hstays =>
      refine ⟨fun hpending => ?_, h.retry_concat (by simp [Event.AnswersRetry, ht])⟩
      exact absurd hstays (by rw [show job.recordedStatus = _ from hpending]; decide)

theorem requestsSound_onJobSchedulerItemRetrieved (h : RequestsSound before job)
    (ht : event.eventType = .jobSchedulerItemRetrieved) :
    RequestsSound (before ++ [event]) (onJobSchedulerItemRetrieved job event).1 := by
  refine h.keeps (by simp [ht]) ⟨rfl, rfl, rfl, rfl⟩ ?_
  simp only [onJobSchedulerItemRetrieved]
  split
  · exact Or.inr (by decide)
  · exact Or.inl rfl

theorem requestsSound_onJobExecutionStarted (h : RequestsSound before job)
    (ht : event.eventType = .jobExecutionStarted) :
    RequestsSound (before ++ [event]) (onJobExecutionStarted job event).1 := by
  have hkind : event.eventType ∉
      [.jobSchedulerSubmissionAcknowledged, .jobRetryAcknowledged, .jobRetryRejected] := by
    simp [ht]
  simp only [onJobExecutionStarted]
  split
  · exact h.keeps hkind ⟨rfl, rfl, rfl, rfl⟩ (Or.inl rfl)
  · split
    · exact h.keeps hkind ⟨rfl, rfl, rfl, rfl⟩ (Or.inl rfl)
    · exact h.keeps hkind ⟨rfl, rfl, rfl, rfl⟩ (Or.inr (by simp))

theorem requestsSound_onJobExecutionFailed (h : RequestsSound before job)
    (ht : event.eventType = .jobExecutionFailed) :
    RequestsSound (before ++ [event]) (onJobExecutionFailed job event).1 := by
  have hkind : event.eventType ∉
      [.jobSchedulerSubmissionAcknowledged, .jobRetryAcknowledged, .jobRetryRejected] := by
    simp [ht]
  simp only [onJobExecutionFailed]
  split
  · exact h.keeps hkind ⟨rfl, rfl, rfl, rfl⟩ (Or.inl rfl)
  · split
    · exact h.keeps hkind ⟨rfl, rfl, rfl, rfl⟩ (Or.inl rfl)
    · -- the failure that decides the attempt clears the request
      constructor
      · intro hpending
        dsimp only at hpending
        split at hpending <;> cases hpending
      · rintro ⟨hrequested, -⟩
        cases hrequested

theorem requestsSound_onJobRetryRequested (h : RequestsSound before job)
    (ht : event.eventType = .jobRetryRequested) :
    RequestsSound (before ++ [event]) (onJobRetryRequested job event).1 := by
  simp only [onJobRetryRequested]
  split
  · next hterminal => exact h.of_isTerminal hterminal
  · constructor
    · intro hpending
      cases hpending
    · intro _
      rw [answered_concat]
      exact ⟨rfl, by simp [Event.AnswersRetry, ht]⟩

theorem requestsSound_onJobRetryAcknowledged (h : RequestsSound before job)
    (ht : event.eventType = .jobRetryAcknowledged) :
    RequestsSound (before ++ [event]) (onJobRetryAcknowledged job event).1 := by
  simp only [onJobRetryAcknowledged]
  constructor
  · intro hpending hrequested
    dsimp only at hpending
    split at hpending
    · cases hpending
    · rw [acknowledged_concat, ht]
      simpa using h.submission hpending hrequested
  · rintro ⟨-, hmissing, -⟩
    cases hmissing

/-! ### The handlers that may leave a request open -/

theorem requestsSound_onJobSchedulerSubmissionRequested_iff (h : RequestsSound before job)
    (hacked : job.schedulerAcknowledgedAt.isSome ↔ Acknowledged before)
    (ht : event.eventType = .jobSchedulerSubmissionRequested) :
    RequestsSound (before ++ [event]) (onJobSchedulerSubmissionRequested job event).1 ↔
      ¬ LeavesRequestOpen job event := by
  have hanswer : ¬ event.AnswersRetry := by simp [Event.AnswersRetry, ht]
  simp only [onJobSchedulerSubmissionRequested, LeavesRequestOpen, ht]
  split
  · next hmoves =>
      simp only [Bool.not_eq_true] at hmoves
      simp only [hmoves.1, hmoves.2, not_false_eq_true, and_true, hacked]
      constructor
      · intro hafter hack
        exact hafter.submission rfl (earliest_some_isSome ..)
          ((acknowledged_concat ..).2 (Or.inl hack))
      · intro hnone
        refine ⟨fun _ _ => ?_, fun hopen => ⟨rfl, (h.retry_concat hanswer hopen).2⟩⟩
        rw [acknowledged_concat, ht]
        simpa using hnone
  · next hstays =>
      refine iff_of_true ⟨fun hpending => ?_, h.retry_concat hanswer⟩
        fun hleaves => hstays ⟨by simp [hleaves.2.1], hleaves.2.2⟩
      exact absurd hstays (by rw [show job.recordedStatus = _ from hpending]; decide)

theorem requestsSound_onJobSchedulerSubmissionFailed_iff (h : RequestsSound before job)
    (ht : event.eventType = .jobSchedulerSubmissionFailed) :
    RequestsSound (before ++ [event]) (onJobSchedulerSubmissionFailed job event).1 ↔
      ¬ LeavesRequestOpen job event := by
  simp only [onJobSchedulerSubmissionFailed, LeavesRequestOpen, ht]
  split
  · next hterminal => simpa [hterminal] using h.of_isTerminal hterminal
  · next hterminal =>
      rw [requestsSound_iff_of_isTerminal rfl]
      simp only [hterminal, true_and]
      rfl

/-- A success that is not applied twice decides its attempt, unless the attempt has failed or the
job has ended. -/
theorem requestsSound_onJobExecutionSucceeded_iff (h : RequestsSound before job)
    (hdup : isSemanticDuplicate job event = false) (ht : event.eventType = .jobExecutionSucceeded) :
    RequestsSound (before ++ [event]) (onJobExecutionSucceeded job event).1 ↔
      ¬ LeavesRequestOpen job event := by
  have hundecided : (job.attemptAt event.number).status ≠ .succeeded := by
    intro hsucceeded
    rw [← attemptStatus_lifecycle] at hsucceeded
    exact absurd (isSemanticDuplicate_iff.2 (Or.inl ⟨ht, hsucceeded⟩)) (by simp [hdup])
  simp only [onJobExecutionSucceeded, LeavesRequestOpen, ht, attemptAt_openAttempt]
  split
  · next hconflict =>
      refine iff_of_true (h.keeps (by simp [ht]) ⟨rfl, rfl, rfl, rfl⟩ (Or.inl rfl)) ?_
      rintro ⟨hterminal, -, hnone⟩
      rcases hconflict with hfailed | hended
      · simp [hfailed] at hnone
      · exact absurd (hterminal.symm.trans hended.1) (by decide)
  · next hfree =>
      rw [requestsSound_iff_of_isTerminal rfl]
      obtain ⟨hfailed, -⟩ := not_or.1 hfree
      simp only [List.mem_cons, hundecided, hfailed, List.not_mem_nil, or_self,
        not_false_eq_true, and_true]
      refine not_congr ⟨fun hopen => ⟨(h.retry hopen).1, hopen⟩, And.right⟩

theorem requestsSound_onJobRetryRejected_iff (h : RequestsSound before job)
    (ht : event.eventType = .jobRetryRejected) :
    RequestsSound (before ++ [event]) (onJobRetryRejected job event).1 ↔
      ¬ LeavesRequestOpen job event := by
  simp only [onJobRetryRejected, LeavesRequestOpen, ht]
  split
  · next hterminal => simpa [hterminal] using h.of_isTerminal hterminal
  · next hterminal =>
      rw [requestsSound_iff_of_isTerminal rfl]
      simp [RetryOpen, hterminal]

theorem requestsSound_onJobRetriesExhausted_iff (h : RequestsSound before job)
    (ht : event.eventType = .jobRetriesExhausted) :
    RequestsSound (before ++ [event]) (onJobRetriesExhausted job event).1 ↔
      ¬ LeavesRequestOpen job event := by
  simp only [onJobRetriesExhausted, LeavesRequestOpen, ht]
  split
  · next hsucceeded => simpa [hsucceeded] using h.of_isTerminal (by rw [hsucceeded]; rfl)
  · next hsucceeded =>
      rw [requestsSound_iff_of_isTerminal rfl]
      simp [RetryOpen, hsucceeded]

theorem requestsSound_onJobCancelled_iff (h : RequestsSound before job)
    (ht : event.eventType = .jobCancelled) :
    RequestsSound (before ++ [event]) (onJobCancelled job event).1 ↔
      ¬ LeavesRequestOpen job event := by
  simp only [onJobCancelled, LeavesRequestOpen, ht]
  split
  · next hterminal => simpa [hterminal] using h.of_isTerminal hterminal
  · next hterminal =>
      rw [requestsSound_iff_of_isTerminal rfl]
      simp only [hterminal, true_and]
      rfl

/-- **What a handler does to the reports.** -/
theorem requestsSound_handler_iff (h : RequestsSound before job)
    (hacked : job.schedulerAcknowledgedAt.isSome ↔ Acknowledged before)
    (hdup : isSemanticDuplicate job event = false) :
    RequestsSound (before ++ [event]) (handler event.eventType job event).1 ↔
      ¬ LeavesRequestOpen job event := by
  cases ht : event.eventType with
  | jobCreated =>
      exact iff_of_true (requestsSound_onJobCreated h ht) (by simp [LeavesRequestOpen, ht])
  | jobSchedulerSubmissionRequested =>
      exact requestsSound_onJobSchedulerSubmissionRequested_iff h hacked ht
  | jobSchedulerSubmissionAcknowledged =>
      exact iff_of_true (requestsSound_onJobSchedulerSubmissionAcknowledged h ht)
        (by simp [LeavesRequestOpen, ht])
  | jobSchedulerSubmissionFailed => exact requestsSound_onJobSchedulerSubmissionFailed_iff h ht
  | jobSchedulerItemRetrieved =>
      exact iff_of_true (requestsSound_onJobSchedulerItemRetrieved h ht)
        (by simp [LeavesRequestOpen, ht])
  | jobExecutionStarted =>
      exact iff_of_true (requestsSound_onJobExecutionStarted h ht)
        (by simp [LeavesRequestOpen, ht])
  | jobExecutionSucceeded => exact requestsSound_onJobExecutionSucceeded_iff h hdup ht
  | jobExecutionFailed =>
      exact iff_of_true (requestsSound_onJobExecutionFailed h ht) (by simp [LeavesRequestOpen, ht])
  | jobRetryRequested =>
      exact iff_of_true (requestsSound_onJobRetryRequested h ht) (by simp [LeavesRequestOpen, ht])
  | jobRetryAcknowledged =>
      exact iff_of_true (requestsSound_onJobRetryAcknowledged h ht)
        (by simp [LeavesRequestOpen, ht])
  | jobRetryRejected => exact requestsSound_onJobRetryRejected_iff h ht
  | jobRetriesExhausted => exact requestsSound_onJobRetriesExhausted_iff h ht
  | jobCancelled => exact requestsSound_onJobCancelled_iff h ht

/-! ### The event as a whole -/

/-- **What one event does to the reports.** -/
theorem requestsSound_projectedBy_iff (h : RequestsSound before job)
    (hacked : job.schedulerAcknowledgedAt.isSome ↔ Acknowledged before) :
    RequestsSound (before ++ [event]) (projectedBy job event) ↔ ¬ LeavesRequestOpen job event := by
  unfold projectedBy
  split
  · next hdup =>
      rcases isSemanticDuplicate_iff.1 hdup with ⟨ht, hsame⟩ | ⟨ht, -⟩
      · refine iff_of_true (h.keeps (by simp [ht]) ⟨rfl, rfl, rfl, rfl⟩ (Or.inl rfl)) ?_
        rw [attemptStatus_lifecycle] at hsame
        simp [LeavesRequestOpen, ht, hsame]
      · exact iff_of_true (h.keeps (by simp [ht]) ⟨rfl, rfl, rfl, rfl⟩ (Or.inl rfl))
          (by simp [LeavesRequestOpen, ht])
  · next hdup =>
      -- the handler reads the projection the event was merged into, which differs elsewhere
      have hmerged : RequestsSound before (mergeCommon job event) := ⟨h.submission, h.retry⟩
      exact requestsSound_handler_iff hmerged hacked (Bool.eq_false_iff.2 hdup)

end Step

/-! ### Runs -/

/-- **A projection knows whether the submission was acknowledged.** -/
theorem maintained_acknowledgedAt : VisibilityEngine.Maintained fun before job =>
    Findings.Keyed job.findings ∧
      (job.schedulerAcknowledgedAt.isSome ↔ Acknowledged before) where
  blank := by
    intro jobId
    refine And.intro (fun code finding hfind => ?_) ?_
    · cases hfind
    · simp [Acknowledged]
  reduced := by
    intro before event current h
    have hafter : (reduceEvent current event).job.schedulerAcknowledgedAt =
        earliest (currentOrBlank current event).schedulerAcknowledgedAt
          (event.timeOf .jobSchedulerSubmissionAcknowledged event.eventTime) :=
      congrArg JobTimes.schedulerAcknowledgedAt (times_reduceEvent current event)
    refine ⟨(reduceEvent_grows current event).findings.keyed h.1, ?_⟩
    rw [hafter, acknowledged_concat, ← h.2, Event.timeOf]
    split
    · next ht => simp [ht]
    · next ht => rw [earliest_none, or_iff_left ht]
  logged := fun before job decisions h => h
  reconciled := fun before job config now h => ⟨(h.1.observeAll now _).1, h.2⟩

/-- **The reports are right after all calls of a run exactly when no event of it leaves a request
open.** -/
theorem acknowledgementTimeouts_iff (config : VisibilityConfig) (ops : List EngineCall) :
    AckTimeoutsSound config ops ↔ NoRequestLeftOpen config ops := by
  refine Iff.trans ?_ (VisibilityEngine.forall_calls_iff (S := RequestsSound)
    (C := fun job event => ¬ LeavesRequestOpen job event) maintained_acknowledgedAt ?_ ?_ ?_ ?_)
  · refine forall₅_congr fun calls hinit engine reports hperform => ?_
    refine forall₃_congr fun jobId job hjob => ?_
    have hkeyed := (VisibilityEngine.holds_perform maintained_acknowledgedAt hperform).job
      jobId job hjob
    exact timeoutsSound_iff hkeyed.1
  · intro jobId
    constructor
    · intro hpending
      cases hpending
    · rintro ⟨hrequested, -⟩
      cases hrequested
  · intro before event current hmaintained hsound
    obtain ⟨version, decisions, heq⟩ := exists_reduceEvent_eq current event
    rw [← requestsSound_projectedBy_iff hsound hmaintained.2, heq]
    exact ⟨fun h => ⟨h.submission, h.retry⟩, fun h => ⟨h.submission, h.retry⟩⟩
  · exact fun before job decisions h => ⟨h.submission, h.retry⟩
  · exact fun before job config now h => ⟨h.submission, h.retry⟩

/-- A retry that is requested and rejected. -/
def rejectedEvents : List Event :=
  [retryEvent 1 .jobRetryRequested 1, retryEvent 2 .jobRetryRejected 1]

/-- A request for submission that arrives after its acknowledgement. -/
def overtakenEvents : List Event :=
  [retryEvent 2 .jobSchedulerSubmissionAcknowledged 0,
    retryEvent 1 .jobSchedulerSubmissionRequested 0]

/-- **The acknowledgement of a retry is reported missing after its rejection has ended the job, and
that of a submission after it was applied.** -/
theorem not_ackTimeoutsSound_rejectedEvents :
    ¬ AckTimeoutsSound {} (appliedCalls rejectedEvents) ∧
      ¬ AckTimeoutsSound {} (appliedCalls overtakenEvents) := by
  constructor
  · intro hsound
    have hreported : (projectionAfter {} (appliedCalls rejectedEvents) "job-1").any (fun job =>
        decide (job.recordedStatus.isTerminal = true ∧
          VisibilityConfig.Reports {} job (seconds 1000) .retryAckTimeout)) = true := by
      decide
    obtain ⟨engine, reports, job, hperform, hjob, hshown⟩ :=
      exists_perform_of_projectionAfter hreported
    obtain ⟨hterminal, hreports⟩ := of_decide_eq_true hshown
    have hafter := hsound _ (List.prefix_refl _) engine reports hperform "job-1" job hjob
      (seconds 1000)
    exact absurd ((hafter.2 hreports).1.symm.trans hterminal) (by decide)
  · intro hsound
    have hreported : (projectionAfter {} (appliedCalls overtakenEvents) "job-1").any (fun job =>
        decide (job.schedulerAcknowledgedAt.isSome = true ∧
          VisibilityConfig.Reports {} job (seconds 1000) .schedulerAckTimeout)) = true := by
      decide
    obtain ⟨engine, reports, job, hperform, hjob, hshown⟩ :=
      exists_perform_of_projectionAfter hreported
    obtain ⟨hacked, hreports⟩ := of_decide_eq_true hshown
    have hafter := hsound _ (List.prefix_refl _) engine reports hperform "job-1" job hjob
      (seconds 1000)
    have hknown := (VisibilityEngine.holds_perform maintained_acknowledgedAt hperform).job
      "job-1" job hjob
    exact hafter.1 hreports (hknown.2.1 hacked)

end ScheduledJobs
