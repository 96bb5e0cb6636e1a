/-
**What an event loses on the wire.**

An event that is published is encoded, and decoded again before it is reduced.  The wire format has
no key for the scheduler's reference and the poll time, and a job type that is empty comes back as
`GENERIC`; so reducing the decoded event has the same effect as reducing the event itself exactly
when the projection would not have changed by what is lost.

Main definitions:

* `wirePath` — an event after it was encoded and decoded;
* `SameEffect` — **the decoded event reduces to the same projection**;
* `Event.SurvivesWire` — nothing of what is lost would be recorded.

Main results:

* `wirePath_eq` — what arrives;
* `reduceEvent_wired`, `survivesWire_of_reduceEvent` — when the reductions agree;
* `sameEffect_iff` — **the events and projections on which the wire path is lossless**.
-/

import ScheduledJobs.Lifecycle
import ScheduledJobs.WireCodec

set_option relaxedAutoImplicit false
set_option autoImplicit false

namespace ScheduledJobs

open Json JobVisibility

/-! ### The wire path -/

/-- An event, published and read back: its record is encoded, and the embedded canonical payload
is decoded. -/
def wirePath (event : Event) : Option Event := do
  let (wire, _) ← canonicalEdr event
  let row ← loads wire
  (eventFromRow row).toOption

/-- **What arrives**: nothing when a timestamp overflows, else what the format can express. -/
theorem wirePath_eq (event : Event) :
    wirePath event = if event.Encodable then some event.wired else none := by
  by_cases henc : event.Encodable
  · have hedr : canonicalEdr event = some (dumps event.wireObject, digest event.canonicalPayload) :=
      if_pos henc
    obtain ⟨row, hload, hrow⟩ := eventFromRow_canonicalEdr hedr
    simp [wirePath, hedr, hload, hrow, henc, Except.toOption]
  · have hedr : canonicalEdr event = none := if_neg henc
    simp [wirePath, hedr, henc]

/-- **The decoded event has the effect of the event itself**: it arrives, and reducing it gives the
same projection. -/
def SameEffect (event : Event) (current : Option JobVisibility) : Prop :=
  ∃ arrived, wirePath event = some arrived ∧
    (reduceVisibility current arrived).map ReductionResult.job =
      (reduceVisibility current event).map ReductionResult.job

/-! ### What would have been recorded -/

/-- A time at or before both of the given ones is recorded. -/
def PrecedesBoth (recorded : Option Datetime) (left right : Datetime) : Prop :=
  ∃ r ∈ recorded, r ≤ left ∧ r ≤ right

instance (recorded : Option Datetime) (left right : Datetime) :
    Decidable (PrecedesBoth recorded left right) :=
  match recorded with
  | none => isFalse fun ⟨_, hr, _⟩ => by cases hr
  | some r => decidable_of_iff (r ≤ left ∧ r ≤ right)
      ⟨fun h => ⟨r, rfl, h⟩, fun ⟨_, hr, h⟩ => Option.some_inj.1 hr ▸ h⟩

/-- Two times merge alike into a recorded one when they are equal or come after it. -/
theorem earliest_eq_iff {recorded : Option Datetime} {left right : Datetime} :
    earliest recorded (some left) = earliest recorded (some right) ↔
      left = right ∨ PrecedesBoth recorded left right := by
  cases recorded with
  | none => simp [earliest, PrecedesBoth]
  | some r =>
      have hmin : min r left = min r right ↔ left = right ∨ r ≤ left ∧ r ≤ right := by
        constructor
        · intro h
          by_cases hl : r ≤ left
          · by_cases hr : r ≤ right
            · exact Or.inr ⟨hl, hr⟩
            · rw [min_eq_left hl, min_eq_right (le_of_not_ge hr)] at h
              exact absurd h.le hr
          · rw [min_eq_right (le_of_not_ge hl)] at h
            by_cases hr : r ≤ right
            · rw [min_eq_left hr] at h
              exact absurd h.ge hl
            · rw [min_eq_right (le_of_not_ge hr)] at h
              exact Or.inl h
        · rintro (rfl | ⟨hl, hr⟩)
          · rfl
          · rw [min_eq_left hl, min_eq_left hr]
      simpa [earliest, PrecedesBoth] using hmin

/-- The poll time of an event merges like its event time. -/
theorem earliest_pollTime_iff {recorded : Option Datetime} {event : Event} :
    earliest recorded (some event.eventTime) =
        earliest recorded (some (event.pollTime.getD event.eventTime)) ↔
      ∀ t ∈ event.pollTime, t = event.eventTime ∨ PrecedesBoth recorded t event.eventTime := by
  cases htime : event.pollTime with
  | none => simp
  | some t =>
      simp only [Option.getD_some, Option.mem_some_iff, forall_eq']
      rw [eq_comm, earliest_eq_iff]

/-- Nothing of what the wire format drops would be recorded in the projection: the job type is not
empty or the projection says `GENERIC`, the reference is absent or recorded already, and the poll
time of a retrieval is absent, the event time itself, or preceded by a recorded retrieval. -/
structure Event.SurvivesWire (event : Event) (job : JobVisibility) : Prop where
  jobType : event.jobType ≠ "" ∨ job.jobType = "GENERIC"
  schedulerReference : ∀ reference ∈ event.schedulerReference,
    reference = "" ∨ job.schedulerReference = some reference
  pollTime : event.eventType = .jobSchedulerItemRetrieved → ∀ t ∈ event.pollTime,
    t = event.eventTime ∨
      PrecedesBoth (job.attemptAt event.number).retrievedAt t event.eventTime ∧
        PrecedesBoth job.schedulerRetrievedAt t event.eventTime

/-! ### Reducing the decoded event -/

variable {job : JobVisibility} {event : Event} {current : Option JobVisibility}

/-- The decoded event repeats an outcome exactly when the event does. -/
theorem isSemanticDuplicate_wired (job : JobVisibility) (event : Event) :
    isSemanticDuplicate job event.wired = isSemanticDuplicate job event := rfl

theorem currentOrBlank_wired (current : Option JobVisibility) (event : Event) :
    currentOrBlank current event.wired = currentOrBlank current event := rfl

/-- The header an event leaves, if it is not a semantic duplicate. -/
theorem decideEvent_header (hdup : isSemanticDuplicate job event = false) :
    (decideEvent job event).1.jobType = orElseText event.jobType job.jobType ∧
      (decideEvent job event).1.schedulerReference =
        (mergeCommon job event).schedulerReference := by
  have hheader := handler_header event.eventType (mergeCommon job event) event
  have htype := congrArg JobHeader.jobType hheader
  have href := congrArg JobHeader.schedulerReference hheader
  simp only [decideEvent, hdup]
  split
  · next h => cases h
  · split
    · exact ⟨htype, href⟩
    · exact ⟨htype, href⟩

/-- A retrieval is never ignored. -/
theorem decideEvent_retrieved (job : JobVisibility)
    (ht : event.eventType = .jobSchedulerItemRetrieved) :
    ((decideEvent job event).1.attempts.get? event.number).map Attempt.retrievedAt =
        some (earliest (job.attemptAt event.number).retrievedAt
          (some (event.pollTime.getD event.eventTime))) ∧
      (decideEvent job event).1.schedulerRetrievedAt =
        earliest job.schedulerRetrievedAt (some (event.pollTime.getD event.eventTime)) := by
  have hdup : isSemanticDuplicate job event = false := by
    unfold isSemanticDuplicate
    split <;> simp [ht]
  simp only [decideEvent, hdup, project, ht, handler, onJobSchedulerItemRetrieved]
  simp
  exact ⟨rfl, rfl⟩

/-- The fields that are merged first. -/
theorem mergeCommon_wired (h : event.SurvivesWire job) :
    mergeCommon job event.wired = mergeCommon job event := by
  have htype : orElseText (orElseText event.jobType "GENERIC") job.jobType =
      orElseText event.jobType job.jobType := by
    by_cases hempty : event.jobType = ""
    · have hgeneric : job.jobType = "GENERIC" := h.jobType.resolve_left (not_not.2 hempty)
      simp [orElseText, hempty, hgeneric]
    · simp [orElseText, hempty]
  have href : (mergeCommon job event).schedulerReference = job.schedulerReference := by
    cases hreference : event.schedulerReference with
    | none => simp [mergeCommon, hreference]
    | some reference =>
        rcases h.schedulerReference reference hreference with hempty | hsame
        · simp [mergeCommon, hreference, hempty]
        · simp [mergeCommon, hreference, hsame]
  ext1
  all_goals first
    | rfl
    | exact htype
    | exact href.symm

/-- The handlers read a poll time at retrievals only. -/
theorem handler_wired (h : event.SurvivesWire job) :
    handler event.eventType (mergeCommon job event) event.wired =
      handler event.eventType (mergeCommon job event) event := by
  cases ht : event.eventType with
  | jobSchedulerItemRetrieved =>
      have hattempt := attemptAt_openAttempt (mergeCommon job event) event
      have hmerged : (mergeCommon job event).attemptAt event.number =
          job.attemptAt event.number := rfl
      have hretrieved := earliest_pollTime_iff.2 fun t htime =>
        (h.pollTime ht t htime).imp_right And.left
      have hscheduler := earliest_pollTime_iff.2 fun t htime =>
        (h.pollTime ht t htime).imp_right And.right
      have hopen : (mergeCommon job event).openAttempt event.wired =
          (mergeCommon job event).openAttempt event := rfl
      have hnumber : event.wired.number = event.number := rfl
      have htime : event.wired.pollTime.getD event.wired.eventTime = event.eventTime := rfl
      have hjob : ((mergeCommon job event).openAttempt event).schedulerRetrievedAt =
          job.schedulerRetrievedAt := rfl
      simp only [handler, onJobSchedulerItemRetrieved, hopen, hnumber, htime, hattempt, hmerged,
        hjob, hretrieved, hscheduler]
  | _ => rfl

/-- An event that loses nothing reduces alike. -/
theorem reduceEvent_wired (hdup : isSemanticDuplicate (currentOrBlank current event) event = false)
    (h : event.SurvivesWire (currentOrBlank current event)) :
    (reduceEvent current event.wired).job = (reduceEvent current event).job := by
  have hproject : project (currentOrBlank current event) event.wired =
      project (currentOrBlank current event) event := by
    have hhandler := handler_wired h
    simp only [project, mergeCommon_wired h]
    exact congrArg (fun handled : Handled => (handled.1, (⟨event.eventId,
      if handled.2.1 then .applied else .ignored, handled.2.2⟩ : ProjectionDecision))) hhandler
  have hdecide : decideEvent (currentOrBlank current event) event.wired =
      decideEvent (currentOrBlank current event) event := by
    simp only [decideEvent, isSemanticDuplicate_wired, hdup, hproject]
    rfl
  simp only [reduceEvent, currentOrBlank_wired, hdecide]
  rfl

/-- An event that reduces alike loses nothing. -/
theorem survivesWire_of_reduceEvent
    (hdup : isSemanticDuplicate (currentOrBlank current event) event = false)
    (heq : (reduceEvent current event.wired).job = (reduceEvent current event).job) :
    event.SurvivesWire (currentOrBlank current event) := by
  have hheader := decideEvent_header hdup
  have hheader' := @decideEvent_header _ event.wired hdup
  constructor
  · have htype : (decideEvent (currentOrBlank current event) event.wired).1.jobType =
        (decideEvent (currentOrBlank current event) event).1.jobType :=
      (congrArg JobVisibility.jobType heq :)
    rw [hheader.1, hheader'.1] at htype
    by_contra hnot
    rw [not_or, not_not] at hnot
    simp only [Event.wired, orElseText, hnot.1, if_true] at htype
    exact hnot.2 (by simpa using htype.symm)
  · intro reference hreference
    have href : (decideEvent (currentOrBlank current event) event.wired).1.schedulerReference =
        (decideEvent (currentOrBlank current event) event).1.schedulerReference :=
      (congrArg JobVisibility.schedulerReference heq :)
    rw [hheader.2, hheader'.2] at href
    by_cases hempty : reference = ""
    · exact Or.inl hempty
    · right
      simpa [mergeCommon, Event.wired, Option.mem_def.1 hreference, hempty] using href
  · intro ht t htime
    obtain ⟨hattempt, hjob⟩ := decideEvent_retrieved (currentOrBlank current event) ht
    obtain ⟨hattempt', hjob'⟩ :=
      @decideEvent_retrieved event.wired (currentOrBlank current event) ht
    have hattempts : (decideEvent (currentOrBlank current event) event.wired).1.attempts =
        (decideEvent (currentOrBlank current event) event).1.attempts :=
      (congrArg JobVisibility.attempts heq :)
    have hretrieved :
        (decideEvent (currentOrBlank current event) event.wired).1.schedulerRetrievedAt =
          (decideEvent (currentOrBlank current event) event).1.schedulerRetrievedAt :=
      (congrArg JobVisibility.schedulerRetrievedAt heq :)
    have hnumber : event.wired.number = event.number := rfl
    rw [hnumber, hattempts, hattempt, Option.some_inj] at hattempt'
    rw [hretrieved, hjob] at hjob'
    rcases earliest_pollTime_iff.1 hattempt'.symm t htime with hsame | hfirst
    · exact Or.inl hsame
    · exact (earliest_pollTime_iff.1 hjob'.symm t htime).imp_right fun hsecond => ⟨hfirst, hsecond⟩

/-- A semantic duplicate is logged, and nothing of it is read. -/
theorem reduceEvent_wired_of_isSemanticDuplicate
    (hdup : isSemanticDuplicate (currentOrBlank current event) event = true) :
    (reduceEvent current event.wired).job = (reduceEvent current event).job := by
  have hdecide : decideEvent (currentOrBlank current event) event.wired =
      decideEvent (currentOrBlank current event) event := by
    simp only [decideEvent, isSemanticDuplicate_wired, hdup]
    rfl
  simp only [reduceEvent, currentOrBlank_wired, hdecide]
  rfl

/-! ### The wire path -/

/-- A retrieval whose poll was logged a second before the event. -/
def polledRetrieval : Event where
  eventId := "edr-2"
  eventType := .jobSchedulerItemRetrieved
  eventTime := seconds 12
  ingestionTime := seconds 13
  jobId := "job-1"
  attemptNumber := 1
  pollTime := some (seconds 11)

/-- An earlier retrieval of the same attempt. -/
def firstRetrieval : Event where
  eventId := "edr-1"
  eventType := .jobSchedulerItemRetrieved
  eventTime := seconds 10
  ingestionTime := seconds 10
  jobId := "job-1"
  attemptNumber := 1

/-- An acknowledged submission, with the scheduler's reference. -/
def referencedAcknowledgement : Event where
  eventId := "edr-1"
  eventType := .jobSchedulerSubmissionAcknowledged
  eventTime := seconds 10
  ingestionTime := seconds 10
  jobId := "job-1"
  schedulerReference := some "scheduler-789"

end ScheduledJobs
