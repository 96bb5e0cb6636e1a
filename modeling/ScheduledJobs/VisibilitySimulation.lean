/-
**Visibility simulates the scheduler.**

The lifecycle follows the queue; what is added here is that nothing disturbs the projection on the
way.  As long as every claim is started before it is decided and no lease expires, no event finds a
gap in the attempts, an attempt that was not retrieved or not started, or a decided job, so no
finding is recorded and the lifecycle is complete.  The events are taken from the outbox the way
the projector does: each is decoded from its canonical payload.

Main definitions:

* `Undisturbed` — what the projection shows of a job besides its lifecycle;
* `Diligent` — **the condition on the steps**: claims are started before they are decided, and no
  lease expires;
* `Simulates` — **what the projection shows of the queue**.

Main results:

* `Undisturbed.step` — the step lemma;
* `visibility_simulates` — **the simulation, after every step of every diligent run**.
-/

import ScheduledJobs.LifecycleSimulation
import ScheduledJobs.OutboxPayloads

set_option relaxedAutoImplicit false
set_option autoImplicit false

namespace ScheduledJobs

open JobVisibility

variable {Payload : Type}

/-! ### Handlers that record nothing unusual -/

/-- Nothing unusual has been recorded. -/
structure Quiet (job : JobVisibility) : Prop where
  findings : job.findings = .empty
  complete : job.incompleteLifecycle = false

section Handlers

variable {job : JobVisibility} {event : Event}

theorem Quiet.mergeCommon (h : Quiet job) (event : Event) : Quiet (mergeCommon job event) :=
  ⟨h.findings, h.complete⟩

/-- Opening an attempt that leaves no gap. -/
theorem Quiet.openAttempt (h : Quiet job) (hgap : job.hasGapBefore event.number = false) :
    Quiet (job.openAttempt event) := by
  constructor
  · simp [JobVisibility.openAttempt, hgap, h.findings]
  · simp [JobVisibility.openAttempt, hgap, h.complete]

theorem Quiet.onJobSchedulerItemRetrieved (h : Quiet job)
    (hgap : job.hasGapBefore event.number = false) :
    Quiet (onJobSchedulerItemRetrieved job event).1 :=
  ⟨(h.openAttempt hgap).findings, (h.openAttempt hgap).complete⟩

/-- A retrieval leaves its attempt retrieved. -/
theorem retrievedAt_onJobSchedulerItemRetrieved (job : JobVisibility) (event : Event) :
    (((onJobSchedulerItemRetrieved job event).1.attemptAt event.number).retrievedAt).isSome := by
  simp [onJobSchedulerItemRetrieved, attemptAt]

/-- A start of an open, retrieved attempt. -/
theorem onJobExecutionStarted_of_open
    (hopen : (job.attemptAt event.number).status.outcome = none)
    (hstatus : job.recordedStatus.isTerminal = false)
    (hretrieved : (job.attemptAt event.number).retrievedAt.isSome)
    (hquiet : Quiet job) (hgap : job.hasGapBefore event.number = false) :
    Quiet (onJobExecutionStarted job event).1 ∧
      ((onJobExecutionStarted job event).1.attemptAt event.number).retrievedAt.isSome ∧
      ((onJobExecutionStarted job event).1.attemptAt event.number).startedAt.isSome := by
  obtain ⟨hsucceeded, hfailed⟩ := AttemptStatus.outcome_eq_none hopen
  have hopened := hquiet.openAttempt hgap
  have hstatus' : (job.openAttempt event).recordedStatus = job.recordedStatus := rfl
  have hne : job.recordedStatus ≠ .succeeded ∧ job.recordedStatus ≠ .cancelled ∧
      job.recordedStatus ≠ .retriesExhausted := by
    refine ⟨?_, ?_, ?_⟩
    all_goals
      intro hs
      rw [hs] at hstatus
      cases hstatus
  have hnone : (job.attemptAt event.number).retrievedAt.isNone = false := by
    rw [← Option.not_isSome, hretrieved]
    rfl
  simp only [onJobExecutionStarted, attemptAt_openAttempt, hstatus', hsucceeded, hfailed, hne.1,
    false_or, false_and, if_false]
  refine ⟨⟨?_, ?_⟩, ?_, ?_⟩
  · simpa [hne.2.1, hne.2.2] using hopened.findings
  · simpa [hnone] using hopened.complete
  · simp [attemptAt] at hretrieved ⊢
    exact hretrieved
  · simp [attemptAt]

/-- A success of an open, started attempt. -/
theorem onJobExecutionSucceeded_of_open
    (hopen : (job.attemptAt event.number).status.outcome = none)
    (hstatus : job.recordedStatus.isTerminal = false)
    (hstarted : (job.attemptAt event.number).startedAt.isSome)
    (hquiet : Quiet job) (hgap : job.hasGapBefore event.number = false) :
    Quiet (onJobExecutionSucceeded job event).1 := by
  obtain ⟨-, hfailed⟩ := AttemptStatus.outcome_eq_none hopen
  have hopened := hquiet.openAttempt hgap
  have hstatus' : (job.openAttempt event).recordedStatus = job.recordedStatus := rfl
  have hne : job.recordedStatus ≠ .cancelled := by
    intro hs
    rw [hs] at hstatus
    cases hstatus
  have hnone : (job.attemptAt event.number).startedAt.isNone = false := by
    rw [← Option.not_isSome, hstarted]
    rfl
  simp only [onJobExecutionSucceeded, attemptAt_openAttempt, hstatus', hfailed, hstatus, false_or,
    Bool.false_eq_true, false_and, if_false]
  exact ⟨by simpa [hne] using hopened.findings, by simpa [hnone] using hopened.complete⟩

/-- A failure of an open, started attempt. -/
theorem onJobExecutionFailed_of_open
    (hopen : (job.attemptAt event.number).status.outcome = none)
    (hstatus : job.recordedStatus.isTerminal = false)
    (hstarted : (job.attemptAt event.number).startedAt.isSome)
    (hquiet : Quiet job) (hgap : job.hasGapBefore event.number = false) :
    Quiet (onJobExecutionFailed job event).1 := by
  obtain ⟨hsucceeded, -⟩ := AttemptStatus.outcome_eq_none hopen
  have hopened := hquiet.openAttempt hgap
  have hstatus' : (job.openAttempt event).recordedStatus = job.recordedStatus := rfl
  have hne : job.recordedStatus ≠ .succeeded := by
    intro hs
    rw [hs] at hstatus
    cases hstatus
  have hnone : (job.attemptAt event.number).startedAt.isNone = false := by
    rw [← Option.not_isSome, hstarted]
    rfl
  simp only [onJobExecutionFailed, attemptAt_openAttempt, hstatus', hsucceeded, hne, hstatus,
    false_or, Bool.false_eq_true, false_and, if_false]
  exact ⟨hopened.findings, by simpa [hnone] using hopened.complete⟩

theorem Quiet.onJobRetryRequested (h : Quiet job) : Quiet (onJobRetryRequested job event).1 := by
  unfold ScheduledJobs.onJobRetryRequested
  split
  · exact h
  · exact ⟨h.findings, h.complete⟩

theorem Quiet.onJobRetryAcknowledged (h : Quiet job) :
    Quiet (onJobRetryAcknowledged job event).1 := by
  refine ⟨?_, h.complete⟩
  simp [ScheduledJobs.onJobRetryAcknowledged, Findings.resolve, h.findings]

theorem Quiet.onJobRetriesExhausted (h : Quiet job) :
    Quiet (onJobRetriesExhausted job event).1 := by
  unfold ScheduledJobs.onJobRetriesExhausted
  split
  · exact h
  · exact ⟨h.findings, h.complete⟩

end Handlers

/-! ### One event -/

/-- What an event that repeats no outcome makes of the parts no bookkeeping touches. -/
theorem reduceEvent_body {job : JobVisibility} {event : Event}
    (hdup : isSemanticDuplicate job event = false) :
    let handled := (handler event.eventType (mergeCommon job event) event).1
    (Quiet handled → Quiet (reduceEvent (some job) event).job) ∧
      (reduceEvent (some job) event).job.attempts = handled.attempts ∧
      (reduceEvent (some job) event).job.nextRetryAt = handled.nextRetryAt := by
  have hcurrent : currentOrBlank (some job) event = job := rfl
  simp only [reduceEvent, hcurrent, decideEvent, hdup, Bool.false_eq_true, if_false, project]
  split
  · exact ⟨fun h => ⟨h.findings, h.complete⟩, rfl, rfl⟩
  · exact ⟨fun h => ⟨h.findings, h.complete⟩, rfl, rfl⟩

/-- Only outcomes repeat an outcome. -/
theorem isSemanticDuplicate_eq_false {job : JobVisibility} {event : Event}
    (h : event.isOutcome = false ∨ (job.attemptAt event.number).status.outcome = none) :
    isSemanticDuplicate job event = false := by
  rw [Bool.eq_false_iff]
  intro hdup
  rw [isSemanticDuplicate_iff, attemptStatus_lifecycle] at hdup
  rcases h with h | h
  · rcases hdup with ⟨ht, -⟩ | ⟨ht, -⟩
    · simp [Event.isOutcome, ht] at h
    · simp [Event.isOutcome, ht] at h
  · obtain ⟨hsucceeded, hfailed⟩ := AttemptStatus.outcome_eq_none h
    rcases hdup with ⟨-, hs⟩ | ⟨-, hs⟩
    · exact hsucceeded hs
    · exact hfailed hs

/-- There is no gap before an attempt when all earlier ones were observed. -/
theorem hasGapBefore_eq_false {job : JobVisibility} {n : ℕ}
    (h : ∀ m, 1 ≤ m → m < n → (job.attempts.get? m).isSome) : job.hasGapBefore n = false := by
  rw [Bool.eq_false_iff]
  intro hgap
  simp only [hasGapBefore, Bool.and_eq_true, List.any_eq_true, List.mem_range'_1] at hgap
  obtain ⟨-, m, ⟨hlow, hhigh⟩, hnone⟩ := hgap
  have hsome := h m hlow (by omega)
  rw [Option.isNone_iff_eq_none] at hnone
  rw [hnone] at hsome
  cases hsome

/-- In a projection that mirrors the queue, the next attempt leaves no gap. -/
theorem LifecycleMirrors.hasGapBefore_eq_false {v : JobView Payload} {job : JobVisibility}
    {row : JobRow Payload} (h : LifecycleMirrors v job.lifecycle) (hinv : RowInv v row) {n : ℕ}
    (hn : n ≤ row.attemptNumber + 1) : job.hasGapBefore n = false := by
  refine ScheduledJobs.hasGapBefore_eq_false fun m hlow hhigh => ?_
  have hsome := (hinv.attempts m).2 ⟨hlow, by omega⟩
  have hmap := congrArg Option.isSome (h.attempts m)
  rw [Option.isSome_map, Option.isSome_map, hsome] at hmap
  simpa [lifecycle] using hmap

/-! ### What the projection shows besides the lifecycle -/

/-- What the projection of a job shows besides its lifecycle. -/
structure Undisturbed (job : JobVisibility) (row : JobRow Payload) : Prop where
  quiet : Quiet job
  nextRetryAt : row.status = .retryWait → job.nextRetryAt = some row.availableAt
  retrieved : row.status = .claimed ∨ row.status = .running →
    (job.attemptAt row.attemptNumber).retrievedAt.isSome
  started : row.status = .running → (job.attemptAt row.attemptNumber).startedAt.isSome

/-- A submitted job has an undisturbed projection. -/
def Follows (v : JobView Payload) : Prop :=
  ∀ row, v.row = some row → ∃ job, reduceAll none v.events = some job ∧ Undisturbed job row

/-- A finished row asks for nothing but a quiet projection. -/
theorem Undisturbed.of_isFinal {job : JobVisibility} {row : JobRow Payload} (hquiet : Quiet job)
    (hfinal : row.status.isFinal) : Undisturbed job row := by
  refine ⟨hquiet, fun hs => ?_, ?_, fun hs => ?_⟩
  · rw [hs] at hfinal
    cases hfinal
  · rintro (hs | hs)
    · rw [hs] at hfinal
      cases hfinal
    · rw [hs] at hfinal
      cases hfinal
  · rw [hs] at hfinal
    cases hfinal

/-- A retrieval leaves an undisturbed projection of a claimed row. -/
theorem Undisturbed.retrieval {job : JobVisibility} {row : JobRow Payload} {event : Event}
    (ht : event.eventType = .jobSchedulerItemRetrieved) (hn : event.number = row.attemptNumber)
    (hclaimed : row.status = .claimed) (hquiet : Quiet job)
    (hgap : job.hasGapBefore row.attemptNumber = false) :
    Undisturbed (reduceEvent (some job) event).job row := by
  have hbody := @reduceEvent_body job event
    (isSemanticDuplicate_eq_false (Or.inl (by simp [Event.isOutcome, ht])))
  rw [ht] at hbody
  rw [← hn] at hgap
  have hretrieved := retrievedAt_onJobSchedulerItemRetrieved (mergeCommon job event) event
  refine ⟨hbody.1 ((hquiet.mergeCommon _).onJobSchedulerItemRetrieved hgap), ?_, fun _ => ?_, ?_⟩
  · rw [hclaimed]
    rintro h
    cases h
  · rw [← hn, attemptAt, hbody.2.1]
    exact hretrieved
  · rw [hclaimed]
    rintro h
    cases h

/-- A start leaves an undisturbed projection of a running row. -/
theorem Undisturbed.start {job : JobVisibility} {row : JobRow Payload} {event : Event}
    (ht : event.eventType = .jobExecutionStarted) (hn : event.number = row.attemptNumber)
    (hrunning : row.status = .running) (hquiet : Quiet job)
    (hopen : (job.attemptAt row.attemptNumber).status.outcome = none)
    (hstatus : job.recordedStatus.isTerminal = false)
    (hretrieved : (job.attemptAt row.attemptNumber).retrievedAt.isSome)
    (hgap : job.hasGapBefore row.attemptNumber = false) :
    Undisturbed (reduceEvent (some job) event).job row := by
  have hbody := @reduceEvent_body job event
    (isSemanticDuplicate_eq_false (Or.inl (by simp [Event.isOutcome, ht])))
  rw [ht] at hbody
  rw [← hn] at hopen hretrieved hgap
  have hmerged : Quiet (mergeCommon job event) := hquiet.mergeCommon event
  obtain ⟨hquiet', hretrieved', hstarted'⟩ :=
    @onJobExecutionStarted_of_open (mergeCommon job event) event hopen hstatus hretrieved hmerged
      hgap
  have hattempt : (reduceEvent (some job) event).job.attemptAt row.attemptNumber =
      (onJobExecutionStarted (mergeCommon job event) event).1.attemptAt event.number := by
    rw [← hn, attemptAt, hbody.2.1]
    rfl
  refine ⟨hbody.1 hquiet', ?_, fun _ => hattempt ▸ hretrieved', fun _ => hattempt ▸ hstarted'⟩
  rw [hrunning]
  rintro h
  cases h

/-- A success leaves an undisturbed projection of a finished row. -/
theorem Undisturbed.success {job : JobVisibility} {row : JobRow Payload} {event : Event}
    (ht : event.eventType = .jobExecutionSucceeded) (hfinal : row.status.isFinal)
    (hquiet : Quiet job) (hopen : (job.attemptAt event.number).status.outcome = none)
    (hstatus : job.recordedStatus.isTerminal = false)
    (hstarted : (job.attemptAt event.number).startedAt.isSome)
    (hgap : job.hasGapBefore event.number = false) :
    Undisturbed (reduceEvent (some job) event).job row := by
  have hbody := @reduceEvent_body job event (isSemanticDuplicate_eq_false (Or.inr hopen))
  rw [ht] at hbody
  have hmerged : Quiet (mergeCommon job event) := hquiet.mergeCommon event
  exact .of_isFinal (hbody.1 (@onJobExecutionSucceeded_of_open (mergeCommon job event) event hopen
    hstatus hstarted hmerged hgap)) hfinal

/-- **The events of a failure** leave an undisturbed projection. -/
theorem Undisturbed.failure {service : SchedulerService} {claim : ClaimedJob Payload}
    {failure : HandlerError} {clock : ClockReads} {events : List Event} {job : JobVisibility}
    (row : JobRow Payload) (hevents : Drafted (service.failureEvents claim failure clock) events)
    (hpos : 1 ≤ claim.attemptNumber)
    (hopen : (job.attemptAt claim.attemptNumber).status.outcome = none)
    (hstatus : job.recordedStatus.isTerminal = false)
    (hstarted : (job.attemptAt claim.attemptNumber).startedAt.isSome) (hquiet : Quiet job)
    (hgap : job.hasGapBefore claim.attemptNumber = false) :
    ∃ after, reduceAll (some job) events = some after ∧
      Undisturbed after (row.release (claim.failureStatus failure)
        (service.availableAfter claim failure clock) clock.written) := by
  obtain ⟨eventId, rest, rfl, hrest⟩ := drafted_failureEvents hevents
  have hnumber : (claim.failedEvent failure clock.written eventId).number = claim.attemptNumber :=
    ClaimedJob.number_event hpos rfl
  rw [← hnumber] at hopen hstarted hgap
  have hfailed : Quiet (reduceEvent (some job)
      (claim.failedEvent failure clock.written eventId)).job :=
    (reduceEvent_body (isSemanticDuplicate_eq_false (Or.inr hopen))).1
      (onJobExecutionFailed_of_open hopen hstatus hstarted (hquiet.mergeCommon _) hgap)
  rw [reduceAll_cons]
  rcases hrest with ⟨hs, -, requestedId, acknowledgedId, rfl⟩ | ⟨hs, -, exhaustedId, rfl⟩ |
    ⟨hs, -, rfl⟩
  · have hrequested := (@reduceEvent_body _ (claim.retryRequestedEvent clock.written requestedId)
      (isSemanticDuplicate_eq_false (Or.inl rfl))).1 (hfailed.mergeCommon _).onJobRetryRequested
    obtain ⟨hacknowledged, -, hnext⟩ := @reduceEvent_body _
      (claim.retryAcknowledgedEvent (service.availableAfter claim failure clock) clock.written
        acknowledgedId) (isSemanticDuplicate_eq_false (Or.inl rfl))
    rw [hs]
    refine ⟨_, rfl, hacknowledged (hrequested.mergeCommon _).onJobRetryAcknowledged,
      fun _ => hnext, ?_, ?_⟩
    · rintro (h | h) <;> cases h
    · rintro h
      cases h
  · rw [hs]
    refine ⟨_, rfl, .of_isFinal ?_ rfl⟩
    exact (reduceEvent_body (isSemanticDuplicate_eq_false (Or.inl rfl))).1
      (hfailed.mergeCommon _).onJobRetriesExhausted
  · rw [hs]
    exact ⟨_, rfl, .of_isFinal hfailed rfl⟩

/-! ### Diligent steps -/

/-- The claim an operation records an outcome of. -/
def Operation.decides? : Operation Payload → Option (ClaimedJob Payload)
  | .succeed job _ | .fail job _ => some job
  | _ => none

/-- The claim is started before it is decided. -/
def StartedFirst (v : JobView Payload) (op : Operation Payload) (now : Datetime) : Prop :=
  ∀ row, v.row = some row → ∀ job ∈ op.decides?, job ∈ v.claims → job.IsCurrent row now →
    row.status = .running

/-- The lease on the job has not expired. -/
def LeaseHolds (v : JobView Payload) (now : Datetime) : Prop :=
  ∀ row, v.row = some row → ∀ expires ∈ row.claimExpiresAt, now ≤ expires

instance [DecidableEq Payload] (v : JobView Payload) (op : Operation Payload) (now : Datetime) :
    Decidable (StartedFirst v op now) :=
  inferInstanceAs (Decidable (∀ row ∈ v.row, ∀ job ∈ op.decides?, job ∈ v.claims →
    job.IsCurrent row now → row.status = .running))

instance (v : JobView Payload) (now : Datetime) : Decidable (LeaseHolds v now) :=
  inferInstanceAs (Decidable (∀ row ∈ v.row, ∀ expires ∈ row.claimExpiresAt, now ≤ expires))

/-- A step that finds the lease in order takes no claim back. -/
theorem LeaseHolds.recovered_eq {service : SchedulerService} {clock : ClockReads}
    {op : Operation Payload} {v v' : JobView Payload} (h : LeaseHolds v clock.checked)
    (hs : JobStep service clock op v v') : v'.recovered = v.recovered := by
  cases hs with
  | @recovered limit locked _ row hrow hstatus hexpired =>
      exfalso
      cases hexpires : row.claimExpiresAt with
      | none => simp [hexpires] at hexpired
      | some expires =>
          have hle := h row hrow expires hexpires
          simp only [hexpires, Option.any_some, decide_eq_true_eq] at hexpired
          exact absurd hexpired (not_lt.2 hle)
  | idle | submitted | claimed | started | heartbeat | succeeded | failed => rfl

/-- What a current claim finds in the projection. -/
theorem LifecycleMirrors.projection_of_isCurrent {v : JobView Payload} {job : JobVisibility}
    {row : JobRow Payload} {claim : ClaimedJob Payload} {now : Datetime}
    (h : LifecycleMirrors v job.lifecycle) (hinv : RowInv v row) (hfence : FenceInv v)
    (hrow : v.row = some row) (hcur : claim.IsCurrent row now) :
    1 ≤ claim.attemptNumber ∧ (job.attemptAt claim.attemptNumber).status.outcome = none ∧
      job.recordedStatus.isTerminal = false ∧ job.hasGapBefore claim.attemptNumber = false := by
  obtain ⟨hpos, hopen, hstatus, -⟩ := h.of_isCurrent hinv hfence hrow hcur
  rw [attemptStatus_lifecycle] at hopen
  refine ⟨hpos, hopen, ?_, h.hasGapBefore_eq_false hinv (by rw [hcur.1]; omega)⟩
  have hrecorded : job.lifecycle.status = job.recordedStatus := rfl
  rw [hrecorded] at hstatus
  rcases hstatus with hs | hs
  · rw [hs]
    rfl
  · rw [hs]
    rfl

/-- **The step lemma**: a step that finds its claim started and its lease in order leaves the
projection undisturbed. -/
theorem Follows.step {service : SchedulerService} {clock : ClockReads} {op : Operation Payload}
    {v v' : JobView Payload} (hinv : QueueInv v) (hfence : FenceInv v)
    (hmirrors : LifecycleMirrors v (lifecycleOf (reduceAll none v.events))) (h : Follows v)
    (hstartedFirst : StartedFirst v op clock.checked) (hlease : LeaseHolds v clock.checked)
    (hs : JobStep service clock op v v') : Follows v' := by
  have hrecovered := hlease.recovered_eq hs
  cases hs with
  | idle => exact h
  | @submitted value _ events hrow hevents =>
      obtain ⟨createdId, requestedId, rfl⟩ := drafted_pair hevents
      obtain ⟨-, hnil, -, -⟩ := hinv.absent hrow
      intro row hrow'
      obtain rfl := Option.some_inj.1 hrow'
      refine ⟨_, by rw [JobView.emit, JobView.setRow, hnil]; rfl, ⟨rfl, rfl⟩, ?_, ?_, ?_⟩
      · rintro h
        cases h
      · rintro (h | h) <;> cases h
      · rintro h
        cases h
  | @claimed owner limit locked _ row token eventId hrow hstatus hdue hfresh =>
      intro row' hrow'
      obtain rfl := Option.some_inj.1 hrow'
      obtain ⟨job, hjob, hun⟩ := h row hrow
      rw [hjob] at hmirrors
      have hgap := hmirrors.hasGapBefore_eq_false (hinv.present row hrow) (le_refl _)
      refine ⟨_, by rw [reduceAll_append, hjob]; rfl, ?_⟩
      exact .retrieval rfl rfl rfl hun.quiet hgap
  | @started claim _ row eventId hclaim hrow hcur =>
      intro row' hrow'
      obtain rfl := Option.some_inj.1 hrow'
      obtain ⟨job, hjob, hun⟩ := h row hrow
      rw [hjob] at hmirrors
      have hrowInv := hinv.present row hrow
      obtain ⟨hpos, hopen, hstatus, hgap⟩ :=
        hmirrors.projection_of_isCurrent hrowInv hfence hrow hcur
      have hretrieved := hun.retrieved (hrowInv.of_isCurrent hcur).1
      have hnumber : (claim.event .jobExecutionStarted clock.written eventId).number =
          row.attemptNumber := (ClaimedJob.number_event hpos rfl).trans hcur.1.symm
      rw [← hcur.1] at hopen hgap
      refine ⟨_, by rw [JobView.emit, reduceAll_append]; exact congrArg (reduceAll · _) hjob, ?_⟩
      exact .start rfl hnumber rfl hun.quiet hopen hstatus hretrieved hgap
  | @heartbeat job _ row hjob hrow hcur =>
      intro row' hrow'
      obtain rfl := Option.some_inj.1 hrow'
      obtain ⟨job', hjob', hun⟩ := h row hrow
      exact ⟨job', hjob', hun.quiet, hun.nextRetryAt, hun.retrieved, hun.started⟩
  | @succeeded claim summary _ row eventId hclaim hrow hcur =>
      intro row' hrow'
      obtain rfl := Option.some_inj.1 hrow'
      obtain ⟨job, hjob, hun⟩ := h row hrow
      rw [hjob] at hmirrors
      obtain ⟨hpos, hopen, hstatus, hgap⟩ :=
        hmirrors.projection_of_isCurrent (hinv.present row hrow) hfence hrow hcur
      have hstarted := hun.started (hstartedFirst row hrow claim rfl hclaim hcur)
      have hnumber : (claim.succeededEvent clock.written eventId).number = claim.attemptNumber :=
        ClaimedJob.number_event hpos rfl
      rw [hcur.1, ← hnumber] at hstarted
      rw [← hnumber] at hopen hgap
      refine ⟨_, by rw [JobView.emit, reduceAll_append]; exact congrArg (reduceAll · _) hjob, ?_⟩
      exact .success rfl rfl hun.quiet hopen hstatus hstarted hgap
  | @failed claim failure _ row events hclaim hrow hcur hchecks hevents =>
      intro row' hrow'
      obtain rfl := Option.some_inj.1 hrow'
      obtain ⟨job, hjob, hun⟩ := h row hrow
      rw [hjob] at hmirrors
      obtain ⟨hpos, hopen, hstatus, hgap⟩ :=
        hmirrors.projection_of_isCurrent (hinv.present row hrow) hfence hrow hcur
      have hstarted := hun.started (hstartedFirst row hrow claim rfl hclaim hcur)
      rw [hcur.1] at hstarted
      obtain ⟨after, hafter, hun'⟩ :=
        Undisturbed.failure row hevents hpos hopen hstatus hstarted hun.quiet hgap
      refine ⟨after, ?_, hun'⟩
      rw [JobView.emit, reduceAll_append]
      exact (congrArg (reduceAll · _) hjob).trans hafter
  | @recovered limit locked _ row hrow hstatus hexpired =>
      exact absurd hrecovered (by simp)

/-! ### Every diligent run -/

/-- **The condition on the steps**: a claim of the job is started before it is succeeded or failed,
and no lease on it expires. -/
structure Diligent (jobId : String) (w : World Payload) (l : Label Payload) : Prop where
  startedFirst : StartedFirst (w.view jobId) l.operation l.clock.checked
  leaseHolds : LeaseHolds (w.view jobId) l.clock.checked

instance [DecidableEq Payload] (jobId : String) (w : World Payload) (l : Label Payload) :
    Decidable (Diligent jobId w l) :=
  decidable_of_iff (StartedFirst (w.view jobId) l.operation l.clock.checked ∧
    LeaseHolds (w.view jobId) l.clock.checked) ⟨fun h => ⟨h.1, h.2⟩, fun h => ⟨h.1, h.2⟩⟩

/-- Nothing disturbs the projection in a diligent run. -/
theorem Follows.of_diligent [DecidableEq Payload] {service : SchedulerService} {w : World Payload}
    {jobId : String} (h : (schedulerMachine service).Reach (Diligent jobId) w) :
    (w.view jobId).recovered = [] ∧ Follows (w.view jobId) := by
  induction h with
  | start =>
      refine ⟨rfl, fun row hrow => ?_⟩
      cases hrow
  | @step w w' l hs hdiligent hn ih =>
      obtain ⟨hrecovered, hfollows⟩ := ih
      have hreachable := hs.reachable
      have hstep := view_step hn jobId
      have hmirrors := LifecycleMirrors.of_reachable hreachable jobId hrecovered
      have hlifecycle : lifecycleOf (reduceAll none (w.view jobId).events) =
          lifecycleAll .blank (w.view jobId).events := lifecycle_reduceAll none _
      rw [← hlifecycle] at hmirrors
      exact ⟨(hdiligent.leaseHolds.recovered_eq hstep).trans hrecovered,
        hfollows.step (QueueInv.of_reachable hreachable jobId)
          (FenceInv.of_reachable hreachable jobId) hmirrors hdiligent.startedFirst
            hdiligent.leaseHolds hstep⟩

/-- **What the projection shows of a job of the queue.** -/
structure Simulates (db : Db Payload) (row : JobRow Payload) (job : JobVisibility) : Prop where
  status : job.recordedStatus = row.status.visible
  attempts : ∀ n, (job.attempts.get? n).isSome ↔ 1 ≤ n ∧ n ≤ row.attemptNumber
  outcomes : ∀ n, (job.attempts.get? n).map (fun attempt => attempt.status.outcome) =
    (db.attempts.find? (row.jobId, n)).map AttemptRow.outcome
  nextRetryAt : row.status = .retryWait → job.nextRetryAt = some row.availableAt
  findings : job.findings = .empty
  complete : job.incompleteLifecycle = false

/-- The relations that hold of a job, put together. -/
theorem Simulates.of_mirrors {w : World Payload} {row : JobRow Payload} {job : JobVisibility}
    (hrow : (w.view row.jobId).row = some row) (hinv : RowInv (w.view row.jobId) row)
    (hmirrors : LifecycleMirrors (w.view row.jobId) job.lifecycle) (hun : Undisturbed job row) :
    Simulates w.db row job where
  status := hmirrors.status row hrow
  attempts := fun n => by
    rw [← hinv.attempts n]
    have hmap := congrArg Option.isSome (hmirrors.attempts n)
    rw [Option.isSome_map, Option.isSome_map] at hmap
    rw [← hmap, lifecycle, Option.isSome_map]
  outcomes := fun n => by
    have hmap := hmirrors.attempts n
    rw [lifecycle, Option.map_map] at hmap
    exact hmap
  nextRetryAt := hun.nextRetryAt
  findings := hun.quiet.findings
  complete := hun.quiet.complete

/-- **Visibility simulates the scheduler**: after every step of every run in which the claims of a
job are started before they are decided and no lease on it expires, the projection of its outbox
shows the row of the job and the outcomes of its attempts, without a finding or a gap. -/
theorem visibility_simulates [DecidableEq Payload] (service : SchedulerService) (jobId : String)
    (w : World Payload) (hw : (schedulerMachine service).Reach (Diligent jobId) w) :
    ∃ current, foldPayloads (w.db.payloads jobId) = some current ∧
      (w.db.jobs.find? jobId = none → current = none) ∧
      ∀ row, w.db.jobs.find? jobId = some row →
        ∃ job, current = some job ∧ Simulates w.db row job := by
  have hreachable := hw.reachable
  obtain ⟨hrecovered, hfollows⟩ := Follows.of_diligent hw
  have hinv := QueueInv.of_reachable hreachable jobId
  refine ⟨_, foldPayloads_payloads hreachable jobId, fun hnone => ?_, fun row hrow => ?_⟩
  · obtain ⟨-, hnil, -, -⟩ := hinv.absent hnone
    rw [hnil]
    rfl
  · obtain ⟨job, hjob, hun⟩ := hfollows row hrow
    obtain rfl : row.jobId = jobId := Table.key_of_find? hrow
    have hmirrors := LifecycleMirrors.of_reachable hreachable row.jobId hrecovered
    have hlifecycle := lifecycle_reduceAll none (w.view row.jobId).events
    rw [hjob] at hlifecycle
    rw [show lifecycleAll .blank (w.view row.jobId).events = job.lifecycle from
      hlifecycle.symm] at hmirrors
    exact ⟨job, hjob, .of_mirrors hrow (hinv.present row hrow) hmirrors hun⟩

/-- The first attempt is claimed, started, renewed and fails; the second one succeeds. -/
def retriedRun : List (Label String) :=
  [⟨.submitChecked twoAttempts, .instant (seconds 1), true⟩,
    ⟨.claimDue "worker-1" 10 [], .instant (seconds 10), true⟩,
    ⟨.start (twoAttemptsClaim 1 2 (seconds 10)), .instant (seconds 11), true⟩,
    ⟨.heartbeat (twoAttemptsClaim 1 2 (seconds 10)), .instant (seconds 40), true⟩,
    ⟨.fail (twoAttemptsClaim 1 2 (seconds 10)) ⟨"TIMEOUT", true⟩, .instant (seconds 80), true⟩,
    ⟨.claimDue "worker-1" 10 [], .instant (seconds 90), true⟩,
    ⟨.start (twoAttemptsClaim 2 8 (seconds 90)), .instant (seconds 91), true⟩,
    ⟨.succeed (twoAttemptsClaim 2 8 (seconds 90)) "done", .instant (seconds 92), true⟩]

/-- The projection of its outbox shows a job that succeeded in its second attempt. -/
theorem simulates_retriedRun :
    ∃ w row job, (schedulerMachine defaultService).runWhile (Diligent "job-1")
        (schedulerMachine defaultService).start retriedRun = some w ∧
      w.db.jobs.find? "job-1" = some row ∧ row.status = .succeeded ∧ row.attemptNumber = 2 ∧
      foldPayloads (w.db.payloads "job-1") = some (some job) ∧ Simulates w.db row job := by
  obtain ⟨w, row, hrun, hrow, hstatus, hnumber⟩ : ∃ w row,
      (schedulerMachine defaultService).runWhile (Diligent "job-1")
        (schedulerMachine defaultService).start retriedRun = some w ∧
      w.db.jobs.find? "job-1" = some row ∧ row.status = .succeeded ∧ row.attemptNumber = 2 :=
    ⟨_, _, rfl, rfl, rfl, rfl⟩
  obtain ⟨current, hcurrent, -, hpresent⟩ := visibility_simulates defaultService "job-1" w
    (Machine.Reach.of_runWhile Machine.Reach.start retriedRun hrun)
  obtain ⟨job, rfl, hsimulates⟩ := hpresent row hrow
  exact ⟨w, row, job, hrun, hrow, hstatus, hnumber, hcurrent, hsimulates⟩

end ScheduledJobs
