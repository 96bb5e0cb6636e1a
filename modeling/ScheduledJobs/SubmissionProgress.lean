/-
**Submission evidence in any order.**

Until a job runs, its status says how far its submission has come, and each of four events is
evidence of one stage.  If each of them moved the status to its own stage or not at all, the status
would be that of the most advanced evidence, in whatever order the evidence is delivered.  The
request for submission does not keep to it: its handler moves a job that is scheduled or awaits
execution back to `PENDING_SUBMISSION`, while the handler of the acknowledgement leaves a job that
awaits execution alone.

Main definitions:

* `submissionOrder`, `EventType.evidence` — the stages, and the evidence of each;
* `SubmissionMonotone`, `SubmissionOrderFree` — what is promised of one event and of a list;
* `Regresses`, `Overtaken` — **the events and the lists that break it**.

Main results:

* `status_next_of_evidence` — evidence moves the status to its own stage, or not at all;
* `submissionProgress_iff` — **an event never moves the status back exactly when it is not a request
  that finds the job scheduled, and the status of a list is free of its order exactly when no
  request is overtaken**.
-/

import ScheduledJobs.AttemptMap
import ScheduledJobs.RetryAdvertisement

set_option relaxedAutoImplicit false
set_option autoImplicit false

namespace ScheduledJobs

open JobVisibility

/-! ### Stages and their evidence -/

/-- The statuses of a job until it runs, in the order of its progress. -/
def submissionOrder : List Status :=
  [.unknown, .created, .pendingSubmission, .scheduled, .awaitingExecution, .running]

/-- How far a status is. -/
def Status.progress (status : Status) : ℕ := submissionOrder.idxOf status

/-- The stage an event is evidence of. -/
def EventType.evidence : EventType → Option Status
  | jobCreated => some .created
  | jobSchedulerSubmissionRequested => some .pendingSubmission
  | jobSchedulerSubmissionAcknowledged => some .scheduled
  | jobSchedulerItemRetrieved => some .awaitingExecution
  | _ => none

/-- The events of one job, all of them evidence of its submission. -/
def SubmissionEvidence (jobId : String) (events : List Event) : Prop :=
  ∀ event ∈ events, event.jobId = jobId ∧ event.eventType.evidence.isSome

/-- The stage is that of the most advanced evidence. -/
def MostAdvanced (events : List Event) (status : Status) : Prop :=
  (∃ event ∈ events, event.eventType.evidence = some status) ∧
    ∀ event ∈ events, ∀ stage ∈ event.eventType.evidence, stage.progress ≤ status.progress

/-- **Evidence never moves the status back.** -/
def SubmissionMonotone (job : JobVisibility) (event : Event) (after : JobVisibility) : Prop :=
  job.recordedStatus ∈ submissionOrder → event.eventType.evidence.isSome →
    after.recordedStatus ∈ submissionOrder ∧
      job.recordedStatus.progress ≤ after.recordedStatus.progress

/-- **The status of a list of evidence is that of the most advanced**, in any order. -/
def SubmissionOrderFree (events : List Event) : Prop :=
  ∀ delivered : List Event, delivered.Perm events → ∀ job,
    reduceVisibilityAll none delivered = .ok (some job) → MostAdvanced events job.recordedStatus

/-- The event is a request that finds the job scheduled, or awaiting execution. -/
def Regresses (job : JobVisibility) (event : Event) : Prop :=
  event.eventType = .jobSchedulerSubmissionRequested ∧
    job.recordedStatus ∈ [.scheduled, .awaitingExecution]

/-- The list has a request, and evidence that is more advanced. -/
def Overtaken (events : List Event) : Prop :=
  (∃ event ∈ events, event.eventType = .jobSchedulerSubmissionRequested) ∧
    ∃ event ∈ events, event.eventType ∈
      [.jobSchedulerSubmissionAcknowledged, .jobSchedulerItemRetrieved]

/-! ### One event -/

/-- What evidence of the submission makes of a status. -/
def Status.advance (status : Status) (t : EventType) : Status :=
  match t with
  | .jobCreated => if status = .unknown then .created else status
  | .jobSchedulerSubmissionRequested =>
      if ¬ status.isTerminal ∧ status ∉ [.running, .retryPending, .retryScheduled] then
        .pendingSubmission
      else status
  | .jobSchedulerSubmissionAcknowledged =>
      if ¬ status.isTerminal ∧
          status ∉ [.running, .retryPending, .retryScheduled, .awaitingExecution] then
        .scheduled
      else status
  | .jobSchedulerItemRetrieved =>
      if ¬ status.isTerminal ∧ status ∉ [.running] then .awaitingExecution else status
  | _ => status

theorem status_next_of_evidence (l : Lifecycle) {event : Event}
    (hevidence : event.eventType.evidence.isSome) :
    (l.next event).status = l.status.advance event.eventType := by
  cases ht : event.eventType with
  | jobCreated =>
      simp only [Lifecycle.next, ht, Lifecycle.created, Status.advance]
      split <;> rfl
  | jobSchedulerSubmissionRequested =>
      simp only [Lifecycle.next, ht, Lifecycle.status_submit, Status.advance]
  | jobSchedulerSubmissionAcknowledged =>
      simp only [Lifecycle.next, ht, Lifecycle.status_submit, Status.advance]
  | jobSchedulerItemRetrieved =>
      simp only [Lifecycle.next, ht, Lifecycle.retrieved, Lifecycle.status_submit, Status.advance]
      rfl
  | _ =>
      rw [ht] at hevidence
      cases hevidence

/-- **Evidence moves the status to its own stage when that is further, and not at all otherwise**,
unless it is a request that finds the job scheduled. -/
theorem advance_eq_max {status stage : Status} {t : EventType} (hstage : t.evidence = some stage)
    (hstatus : status ∈ submissionOrder)
    (hnot : t = .jobSchedulerSubmissionRequested → status ∉ [.scheduled, .awaitingExecution]) :
    status.advance t = if status.progress < stage.progress then stage else status := by
  cases t with
  | jobCreated =>
      obtain rfl := Option.some_inj.1 hstage
      cases status <;> revert hstatus <;> decide
  | jobSchedulerSubmissionRequested =>
      obtain rfl := Option.some_inj.1 hstage
      cases status <;> revert hstatus hnot <;> decide
  | jobSchedulerSubmissionAcknowledged =>
      obtain rfl := Option.some_inj.1 hstage
      cases status <;> revert hstatus <;> decide
  | jobSchedulerItemRetrieved =>
      obtain rfl := Option.some_inj.1 hstage
      cases status <;> revert hstatus <;> decide
  | _ => cases hstage

/-- A request moves a job that does not run back to the request. -/
theorem advance_request {status : Status} (hstatus : status ∈ submissionOrder)
    (hrunning : status ≠ .running) :
    status.advance .jobSchedulerSubmissionRequested = .pendingSubmission := by
  cases status <;> revert hstatus hrunning <;> decide

/-- Evidence of a submission keeps to the stages before the job runs. -/
theorem advance_mem {status : Status} {t : EventType} (ht : t.evidence.isSome)
    (hstatus : status ∈ submissionOrder) : status.advance t ∈ submissionOrder := by
  cases t with
  | jobCreated => cases status <;> revert hstatus <;> decide
  | jobSchedulerSubmissionRequested => cases status <;> revert hstatus <;> decide
  | jobSchedulerSubmissionAcknowledged => cases status <;> revert hstatus <;> decide
  | jobSchedulerItemRetrieved => cases status <;> revert hstatus <;> decide
  | _ => cases ht

/-- The status after an event that is evidence of the submission. -/
theorem recordedStatus_reduceEvent (current : Option JobVisibility) {event : Event}
    (hevidence : event.eventType.evidence.isSome) :
    (reduceEvent current event).job.recordedStatus =
      (currentOrBlank current event).recordedStatus.advance event.eventType := by
  have hafter := congrArg Lifecycle.status (lifecycle_reduceEvent current event)
  rw [status_next_of_evidence _ hevidence, ← lifecycle_currentOrBlank current event] at hafter
  exact hafter

/-- **One event.** -/
theorem submissionMonotone_iff (job : JobVisibility) (event : Event) :
    SubmissionMonotone job event (reduceEvent (some job) event).job ↔ ¬ Regresses job event := by
  constructor
  · rintro hmonotone ⟨ht, hscheduled⟩
    have hevidence : event.eventType.evidence.isSome := by rw [ht]; rfl
    have horder : job.recordedStatus ∈ submissionOrder ∧ job.recordedStatus ≠ .running ∧
        Status.pendingSubmission.progress < job.recordedStatus.progress := by
      cases hs : job.recordedStatus <;> rw [hs] at hscheduled <;> revert hscheduled <;> decide
    have hback := (hmonotone horder.1 hevidence).2
    rw [recordedStatus_reduceEvent (some job) hevidence, ht] at hback
    have hpending := advance_request horder.1 horder.2.1
    rw [currentOrBlank, Option.getD_some, hpending] at hback
    exact absurd hback (by omega)
  · intro hnot horder hevidence
    rw [recordedStatus_reduceEvent (some job) hevidence, currentOrBlank, Option.getD_some]
    refine ⟨advance_mem hevidence horder, ?_⟩
    obtain ⟨stage, hstage⟩ := Option.isSome_iff_exists.1 hevidence
    rw [advance_eq_max hstage horder fun ht hscheduled => hnot ⟨ht, hscheduled⟩]
    split
    · next hfurther => exact Nat.le_of_lt hfurther
    · exact Nat.le_refl _

/-! ### Lists of evidence -/

variable {before events : List Event} {event : Event} {status : Status}

/-- The stage an event is evidence of is further than nothing. -/
theorem progress_evidence_pos {t : EventType} {stage : Status} (h : t.evidence = some stage) :
    Status.unknown.progress < stage.progress := by
  cases t <;> first | (obtain rfl := Option.some_inj.1 h; decide) | cases h

/-- Evidence does not run a job. -/
theorem advance_ne_running {t : EventType} (ht : t.evidence.isSome) (hrunning : status ≠ .running) :
    status.advance t ≠ .running := by
  cases t with
  | jobCreated => cases status <;> revert hrunning <;> decide
  | jobSchedulerSubmissionRequested => cases status <;> revert hrunning <;> decide
  | jobSchedulerSubmissionAcknowledged => cases status <;> revert hrunning <;> decide
  | jobSchedulerItemRetrieved => cases status <;> revert hrunning <;> decide
  | _ => cases ht

/-- A job with evidence of its submission only has not run. -/
theorem mem_submissionOrder_of_evidence
    (hevidence : ∀ event ∈ events, event.eventType.evidence.isSome)
    {current : Option JobVisibility} (h : reduceVisibilityAll none events = .ok current)
    (next : Event) :
    (currentOrBlank current next).recordedStatus ∈ submissionOrder ∧
      (currentOrBlank current next).recordedStatus ≠ .running := by
  refine invariant_of_reduceVisibilityAll
    (P := fun before job => (∀ event ∈ before, event.eventType.evidence.isSome) →
      job.recordedStatus ∈ submissionOrder ∧ job.recordedStatus ≠ .running)
    (fun _ _ => ⟨by simp [submissionOrder], by simp⟩) ?_ h next hevidence
  intro before event current ih hall
  rw [List.forall_mem_append, List.forall_mem_singleton] at hall
  obtain ⟨hmem, hrunning⟩ := ih hall.1
  rw [recordedStatus_reduceEvent current hall.2]
  exact ⟨advance_mem hall.2 hmem, advance_ne_running hall.2 hrunning⟩

/-- A list in which no request is overtaken has none that finds the job scheduled. -/
theorem not_mem_of_not_overtaken (hstatus : MostAdvanced before status)
    (hnot : ¬ Overtaken (before ++ [event]))
    (ht : event.eventType = .jobSchedulerSubmissionRequested) :
    status ∉ [.scheduled, .awaitingExecution] := by
  intro hscheduled
  obtain ⟨earlier, hmem, hstage⟩ := hstatus.1
  refine hnot ⟨⟨event, by simp, ht⟩, earlier, List.mem_append_left _ hmem, ?_⟩
  cases hs : earlier.eventType <;> rw [hs] at hstage <;> cases hstage <;> revert hscheduled <;>
    decide

/-- There is one most advanced stage, so a list that is free of its order has one status. -/
theorem MostAdvanced.unique {other : Status} (h : MostAdvanced events status)
    (hother : MostAdvanced events other) : status = other := by
  obtain ⟨first, hfirst, hstage⟩ := h.1
  obtain ⟨second, hsecond, hstage'⟩ := hother.1
  have hsame : status.progress = other.progress :=
    Nat.le_antisymm (hother.2 first hfirst status hstage) (h.2 second hsecond other hstage')
  have hmem : status ∈ submissionOrder := by
    cases ht : first.eventType <;> rw [ht] at hstage <;> cases hstage <;> decide
  exact (List.idxOf_inj hmem).1 hsame

/-- The most advanced stage, with one more event. -/
theorem MostAdvanced.concat {stage : Status} (hstage : event.eventType.evidence = some stage)
    (h : before = [] ∧ status = .unknown ∨ MostAdvanced before status) :
    MostAdvanced (before ++ [event])
      (if status.progress < stage.progress then stage else status) := by
  have hle : ∀ earlier ∈ before, ∀ s ∈ earlier.eventType.evidence,
      s.progress ≤ status.progress := by
    rcases h with ⟨rfl, -⟩ | h
    · exact fun earlier hmem => by cases hmem
    · exact h.2
  have hlast : ∀ s ∈ event.eventType.evidence, s = stage := fun s hs =>
    Option.some_inj.1 (hs.symm.trans hstage)
  split
  · next hfurther =>
      refine ⟨⟨event, by simp, hstage⟩, ?_⟩
      rw [List.forall_mem_append, List.forall_mem_singleton]
      refine ⟨fun earlier hmem s hs =>
        Nat.le_trans (hle earlier hmem s hs) (Nat.le_of_lt hfurther), fun s hs => ?_⟩
      exact Nat.le_of_eq (congrArg Status.progress (hlast s hs))
  · next hnot =>
      have hbefore : MostAdvanced before status := h.resolve_left fun hblank =>
        hnot (hblank.2 ▸ progress_evidence_pos hstage)
      obtain ⟨earlier, hmem, hevidence⟩ := hbefore.1
      refine ⟨⟨earlier, List.mem_append_left _ hmem, hevidence⟩, ?_⟩
      rw [List.forall_mem_append, List.forall_mem_singleton]
      refine ⟨hle, fun s hs => ?_⟩
      rw [hlast s hs]
      exact Nat.not_lt.1 hnot

/-- **The status is that of the most advanced evidence, when no request is overtaken.** -/
theorem mostAdvanced_of_not_overtaken
    (hevidence : ∀ event ∈ events, event.eventType.evidence.isSome) (hnot : ¬ Overtaken events)
    {job : JobVisibility} (h : reduceVisibilityAll none events = .ok (some job)) :
    MostAdvanced events job.recordedStatus := by
  have hinv : events = [] ∧ job.recordedStatus = .unknown ∨
      MostAdvanced events job.recordedStatus := by
    refine (invariant_of_reduceVisibilityAll_some
      (P := fun before job => (∀ event ∈ before, event.eventType.evidence.isSome) →
        ¬ Overtaken before → job.recordedStatus ∈ submissionOrder ∧
        (before = [] ∧ job.recordedStatus = .unknown ∨ MostAdvanced before job.recordedStatus))
      (fun _ _ _ => ⟨by simp [submissionOrder], Or.inl ⟨rfl, rfl⟩⟩) ?_ h hevidence hnot).2
    intro before event current ih hall hnot
    rw [List.forall_mem_append, List.forall_mem_singleton] at hall
    obtain ⟨horder, hbefore⟩ := ih hall.1 fun hover => hnot
      ⟨hover.1.imp fun _ h => ⟨List.mem_append_left _ h.1, h.2⟩,
        hover.2.imp fun _ h => ⟨List.mem_append_left _ h.1, h.2⟩⟩
    obtain ⟨stage, hstage⟩ := Option.isSome_iff_exists.1 hall.2
    rw [recordedStatus_reduceEvent current hall.2]
    refine ⟨advance_mem hall.2 horder, Or.inr ?_⟩
    rw [advance_eq_max hstage horder fun ht => ?_]
    · exact MostAdvanced.concat hstage hbefore
    · rcases hbefore with ⟨-, hunknown⟩ | hbefore
      · rw [hunknown]
        decide
      · exact not_mem_of_not_overtaken hbefore hnot ht
  rcases hinv with ⟨rfl, -⟩ | hadvanced
  · cases h
  · exact hadvanced

/-- **A request that is delivered last sets the job back.** -/
theorem not_orderFree_of_overtaken {jobId : String} (hevents : SubmissionEvidence jobId events)
    (hover : Overtaken events) : ¬ SubmissionOrderFree events := by
  intro hfree
  obtain ⟨⟨request, hrequest, ht⟩, later, hlater, hfurther⟩ := hover
  have hperm : (events.erase request ++ [request]).Perm events :=
    (List.perm_append_singleton ..).trans (List.perm_cons_erase hrequest).symm
  have hjobs : ∀ event ∈ events.erase request, event.jobId = jobId := fun event hmem =>
    (hevents event (List.mem_of_mem_erase hmem)).1
  have hstages : ∀ event ∈ events.erase request, event.eventType.evidence.isSome :=
    fun event hmem => (hevents event (List.mem_of_mem_erase hmem)).2
  have hbefore := reduceVisibilityAll_eq_ok jobId _ hjobs none (by simp)
  obtain ⟨horder, hrunning⟩ := mem_submissionOrder_of_evidence hstages hbefore request
  have hdelivered := reduceVisibilityAll_eq_ok jobId (events.erase request ++ [request])
    (List.forall_mem_append.2 ⟨hjobs, by simpa using (hevents request hrequest).1⟩) none (by simp)
  rw [reduceAll_append, reduceAll_cons, reduceAll_nil] at hdelivered
  have hadvanced := hfree _ hperm _ hdelivered
  rw [recordedStatus_reduceEvent _ (by rw [ht]; rfl), ht, advance_request horder hrunning]
    at hadvanced
  have hle := hadvanced.2 later hlater
  cases hs : later.eventType <;> rw [hs] at hfurther hle <;> revert hfurther hle <;> decide

/-- **Submission progress**: an event never moves the status back exactly when it is not a request
that finds the job scheduled, and the status of a list of evidence is that of the most advanced, in
any order, exactly when no request in it is overtaken. -/
theorem submissionProgress_iff (job : JobVisibility) (event : Event) (result : ReductionResult)
    (hreduce : reduceVisibility (some job) event = .ok result) (jobId : String)
    (events : List Event) (hevents : SubmissionEvidence jobId events) :
    (SubmissionMonotone job event result.job ↔ ¬ Regresses job event) ∧
      (SubmissionOrderFree events ↔ ¬ Overtaken events) := by
  obtain rfl := eq_reduceEvent_of_reduceVisibility hreduce
  refine ⟨submissionMonotone_iff job event, ?_⟩
  constructor
  · exact fun hfree hover => not_orderFree_of_overtaken hevents hover hfree
  · intro hnot delivered hperm job hdelivered
    have hsame : ∀ p : Event → Prop, (∃ event ∈ delivered, p event) ↔ ∃ event ∈ events, p event :=
      fun p => exists_congr fun event => and_congr_left fun _ => hperm.mem_iff
    have hadvanced := mostAdvanced_of_not_overtaken
      (fun event hmem => (hevents event (hperm.mem_iff.1 hmem)).2)
      (fun hover => hnot ⟨(hsame _).1 hover.1, (hsame _).1 hover.2⟩) hdelivered
    exact ⟨(hsame _).1 hadvanced.1, fun event hmem => hadvanced.2 event (hperm.mem_iff.2 hmem)⟩

/-- A request and an acknowledgement. -/
def acknowledgedEvents : List Event :=
  [retryEvent 1 .jobSchedulerSubmissionRequested 0,
    retryEvent 2 .jobSchedulerSubmissionAcknowledged 0]

/-- A creation and a request are free of their order, and the acknowledgement moves the job on. -/
theorem submissionProgress_created :
    SubmissionMonotone (reduceEvent none (retryEvent 1 .jobSchedulerSubmissionRequested 0)).job
        (retryEvent 2 .jobSchedulerSubmissionAcknowledged 0)
        (reduceEvent (some (reduceEvent none (retryEvent 1 .jobSchedulerSubmissionRequested 0)).job)
          (retryEvent 2 .jobSchedulerSubmissionAcknowledged 0)).job ∧
      SubmissionOrderFree [retryEvent 1 .jobCreated 0,
        retryEvent 2 .jobSchedulerSubmissionRequested 0] := by
  obtain ⟨hmonotone, hfree⟩ := submissionProgress_iff
    (reduceEvent none (retryEvent 1 .jobSchedulerSubmissionRequested 0)).job
    (retryEvent 2 .jobSchedulerSubmissionAcknowledged 0) _ rfl "job-1"
    [retryEvent 1 .jobCreated 0, retryEvent 2 .jobSchedulerSubmissionRequested 0]
    (by unfold SubmissionEvidence; decide)
  exact ⟨hmonotone.2 (by unfold Regresses; decide), hfree.2 (by unfold Overtaken; decide)⟩

/-- **A request that arrives after its acknowledgement sets the job back.** -/
theorem not_submissionProgress_acknowledgedEvents :
    (¬ ∀ (events : List Event) (job : JobVisibility) (event : Event) (result : ReductionResult),
        reduceVisibilityAll none events = .ok (some job) →
        reduceVisibility (some job) event = .ok result →
        SubmissionMonotone job event result.job) ∧
      ¬ SubmissionOrderFree acknowledgedEvents := by
  have hreduced : reduceVisibilityAll none acknowledgedEvents.reverse =
      .ok (reduceAll none acknowledgedEvents.reverse) := rfl
  constructor
  · intro h
    have hmonotone := h [retryEvent 2 .jobSchedulerSubmissionAcknowledged 0]
      (reduceEvent none (retryEvent 2 .jobSchedulerSubmissionAcknowledged 0)).job
      (retryEvent 1 .jobSchedulerSubmissionRequested 0) _ rfl rfl (by decide) (by decide)
    exact absurd hmonotone.2 (by decide)
  · intro hfree
    have hadvanced := hfree _ (List.reverse_perm _) _ hreduced
    have hle := hadvanced.2 (retryEvent 2 .jobSchedulerSubmissionAcknowledged 0) (by decide)
      .scheduled rfl
    exact absurd hle (by decide)

end ScheduledJobs
