/-
**Published events are read.**

What the scheduler publishes is in UTC.  So the projector reads a job of published events without an
exception as long as their scheduled times leave room in the calendar, and what it writes is what
the engine on instants says.  The texts of a projection are those of its events, and its version
counts them; so whether the columns take them is a question about the events.

Main definitions:

* `Event.texts`, `JobVisibility.TextsIn` — the texts of an event and of a projection;
* `Event.Readable` — **what an event has to be**: room in the calendar, and texts to be stored.

Main results:

* `textsIn_reduceEvent` — the texts of a projection are those of its events;
* `version_le_of_reduceAll` — its version counts them;
* `read_of_records` — **published events are read as their instants are**.
-/

import ScheduledJobs.InstantReading
import ScheduledJobs.StorableProjections

set_option relaxedAutoImplicit false
set_option autoImplicit false

namespace ScheduledJobs

open Json JobVisibility

/-! ### Texts -/

/-- The texts of an event. -/
def Event.texts (event : Event) : List String :=
  [event.eventId, event.jobId, event.correlationId, event.jobType] ++
    (event.schedulerReference.toList ++ event.resultCode.toList ++ event.errorCode.toList)

section Texts

variable (T : String → Prop)

/-- The texts of an attempt have a property. -/
structure Attempt.TextsIn (attempt : Attempt) : Prop where
  errorCode : ∀ text ∈ attempt.errorCode, T text
  resultCode : ∀ text ∈ attempt.resultCode, T text

/-- **The texts of a projection have a property.** -/
structure JobVisibility.TextsIn (job : JobVisibility) : Prop where
  jobId : T job.jobId
  correlationId : T job.correlationId
  jobType : T job.jobType
  schedulerReference : ∀ text ∈ job.schedulerReference, T text
  lastErrorCode : ∀ text ∈ job.lastErrorCode, T text
  attempts : ∀ number, ∀ attempt ∈ job.attempts.get? number, attempt.TextsIn T
  decisions : ∀ decision ∈ job.decisions, T decision.eventId

/-- The texts that a projection has without any event. -/
structure Defaults : Prop where
  correlationId : T ""
  jobType : T "GENERIC"
  resultCode : T "SUCCESS"

variable {T} {job : JobVisibility} {event : Event}

theorem JobVisibility.TextsIn.attemptAt (h : job.TextsIn T) (number : ℕ) :
    (job.attemptAt number).TextsIn T := by
  unfold JobVisibility.attemptAt
  cases hattempt : job.attempts.get? number with
  | none => exact ⟨by simp, by simp⟩
  | some attempt => exact h.attempts _ _ hattempt

/-- An attempt is written. -/
theorem JobVisibility.TextsIn.attempts_set (h : job.TextsIn T) (number : ℕ) {attempt : Attempt}
    (hattempt : attempt.TextsIn T) :
    ∀ number', ∀ attempt' ∈ (job.attempts.set number attempt).get? number',
      attempt'.TextsIn T := Dict.forall_get?_set h.attempts hattempt number

theorem JobVisibility.TextsIn.openAttempt (h : job.TextsIn T) (event : Event) :
    (job.openAttempt event).TextsIn T :=
  { h with attempts := h.attempts_set _ (h.attemptAt event.number) }

theorem orElseText_in {left right : String} (hleft : T left) (hright : T right) :
    T (orElseText left right) := by
  unfold orElseText
  split
  · exact hright
  · exact hleft

theorem orText_in {left : Option String} {right : String} (hleft : ∀ text ∈ left, T text)
    (hright : T right) : T (orText left right) := by
  cases left with
  | none => exact hright
  | some text => exact orElseText_in (hleft text rfl) hright

/-- **A handler writes texts of its event only**, and the result code of an event that has none. -/
theorem textsIn_handler (t : EventType) (h : job.TextsIn T) (hdefaults : Defaults T)
    (hresult : ∀ text ∈ event.resultCode, T text) (herror : ∀ text ∈ event.errorCode, T text) :
    (handler t job event).1.TextsIn T := by
  have hopened := h.openAttempt event
  have hattempt := hopened.attemptAt event.number
  cases t with
  | jobSchedulerItemRetrieved =>
      exact { hopened with attempts := hopened.attempts_set _ { hattempt with } }
  | jobExecutionStarted =>
      have hstarted : Attempt.TextsIn T
          { (job.openAttempt event).attemptAt event.number with
            startedAt := earliest ((job.openAttempt event).attemptAt event.number).startedAt
              event.eventTime } := { hattempt with }
      have hset := hopened.attempts_set event.number hstarted
      simp only [handler, onJobExecutionStarted]
      split
      · exact { hopened with attempts := hset }
      · split
        · exact { hopened with attempts := hset }
        · refine { hopened with attempts := Dict.forall_get?_set hset ?_ _ }
          exact { hattempt with }
  | jobExecutionSucceeded =>
      simp only [handler, onJobExecutionSucceeded]
      split
      · exact { hopened with }
      · refine { hopened with attempts := hopened.attempts_set _ ⟨hattempt.errorCode, ?_⟩ }
        rintro text htext
        obtain rfl := Option.some_inj.1 htext
        exact orText_in hresult hdefaults.resultCode
  | jobExecutionFailed =>
      simp only [handler, onJobExecutionFailed]
      split
      · exact { hopened with }
      · split
        · exact { hopened with }
        · exact { hopened with
            lastErrorCode := herror
            attempts := hopened.attempts_set _ ⟨herror, hattempt.resultCode⟩ }
  | jobCreated => exact { h with }
  | jobSchedulerSubmissionRequested => exact { h with }
  | jobSchedulerSubmissionAcknowledged => exact { h with }
  | jobRetryAcknowledged => exact { h with }
  | jobSchedulerSubmissionFailed =>
      simp only [handler, onJobSchedulerSubmissionFailed]
      split <;> exact { h with }
  | jobRetryRequested =>
      simp only [handler, onJobRetryRequested]
      split <;> exact { h with }
  | jobRetryRejected =>
      simp only [handler, onJobRetryRejected]
      split <;> exact { h with }
  | jobRetriesExhausted =>
      simp only [handler, onJobRetriesExhausted]
      split <;> exact { h with }
  | jobCancelled =>
      simp only [handler, onJobCancelled]
      split <;> exact { h with }

theorem textsIn_blank {jobId : String} (hdefaults : Defaults T) (hjob : T jobId) :
    JobVisibility.TextsIn T { jobId := jobId } where
  jobId := hjob
  correlationId := hdefaults.correlationId
  jobType := hdefaults.jobType
  schedulerReference := by simp
  lastErrorCode := by simp
  attempts := fun _ _ hnone => by cases hnone
  decisions := by simp

/-- The fields that are merged before the handler runs. -/
theorem textsIn_mergeCommon (h : job.TextsIn T) (hevent : ∀ text ∈ event.texts, T text) :
    (mergeCommon job event).TextsIn T := by
  simp only [Event.texts, List.forall_mem_append, List.forall_mem_cons, Option.mem_toList] at hevent
  obtain ⟨⟨-, -, hcorrelation, htype, -⟩, ⟨hreference, -⟩, -⟩ := hevent
  refine { h with
    correlationId := orElseText_in h.correlationId hcorrelation
    jobType := orElseText_in htype h.jobType
    schedulerReference := ?_ }
  unfold mergeCommon
  cases hvalue : event.schedulerReference with
  | none => exact h.schedulerReference
  | some reference =>
      dsimp only
      split
      · exact h.schedulerReference
      · rintro text htext
        obtain rfl := Option.some_inj.1 htext
        exact hreference reference hvalue

/-- **The texts of a projection are those of its events.** -/
theorem textsIn_reduceEvent {current : Option JobVisibility} (hdefaults : Defaults T)
    (hcurrent : ∀ job ∈ current, job.TextsIn T) (hevent : ∀ text ∈ event.texts, T text) :
    (reduceEvent current event).job.TextsIn T := by
  have htexts := hevent
  simp only [Event.texts, List.forall_mem_append, List.forall_mem_cons,
    Option.mem_toList] at htexts
  obtain ⟨⟨hid, hjobId, -⟩, ⟨-, hresult⟩, herror⟩ := htexts
  have hblank : (currentOrBlank current event).TextsIn T := by
    cases current with
    | none => exact textsIn_blank hdefaults hjobId
    | some job => exact hcurrent job rfl
  have hdecided : (decideEvent (currentOrBlank current event) event).1.TextsIn T := by
    have hhandled := textsIn_handler event.eventType (textsIn_mergeCommon hblank hevent) hdefaults
      hresult herror
    simp only [decideEvent]
    split
    · exact hblank
    · split
      · exact { hhandled with }
      · exact hhandled
  refine { hdecided with decisions := fun decision hdecision => ?_ }
  rcases List.mem_append.1 hdecision with hold | hnew
  · exact hdecided.decisions decision hold
  · obtain rfl := List.mem_singleton.1 hnew
    exact (reduceEvent_decision_eventId current event).symm ▸ hid

theorem JobVisibility.TextsIn.forall_texts (h : job.TextsIn T) : ∀ text ∈ job.texts, T text := by
  simp only [JobVisibility.texts, List.forall_mem_cons, List.forall_mem_append, Option.mem_toList,
    List.forall_mem_flatMap, List.forall_mem_map]
  refine ⟨h.jobId, h.correlationId, h.jobType, ⟨⟨h.schedulerReference, h.lastErrorCode⟩,
    fun attempt hattempt => ?_⟩, h.decisions⟩
  obtain ⟨number, hnumber⟩ := Dict.mem_values_iff.1 hattempt
  exact ⟨(h.attempts number attempt hnumber).errorCode,
    (h.attempts number attempt hnumber).resultCode⟩

end Texts

/-! ### Versions -/

/-- An event raises the version by one, or leaves it. -/
theorem version_reduceEvent_le (current : Option JobVisibility) (event : Event) :
    (reduceEvent current event).job.version ≤ (currentOrBlank current event).version + 1 := by
  have hheader := congrArg JobHeader.version
    (handler_header event.eventType (mergeCommon (currentOrBlank current event) event) event)
  have hversion : (project (currentOrBlank current event) event).1.version =
      (currentOrBlank current event).version := hheader
  change (decideEvent (currentOrBlank current event) event).1.version ≤ _
  simp only [decideEvent]
  split
  · exact Nat.le_succ _
  · split
    · exact (congrArg (· + 1) hversion).le
    · exact hversion.le.trans (Nat.le_succ _)

/-- **The version of a projection is at most the number of its events.** -/
theorem version_le_of_reduceAll {events : List Event} {job : JobVisibility}
    (h : reduceAll none events = some job) : job.version ≤ events.length := by
  have hall : ∀ (current : Option JobVisibility) (n : ℕ),
      (∀ job ∈ current, job.version ≤ n) →
        ∀ job ∈ reduceAll current events, job.version ≤ n + events.length := by
    clear h
    induction events with
    | nil => exact fun current n hcurrent => hcurrent
    | cons event events ih =>
        intro current n hcurrent job hjob
        have hblank : (currentOrBlank current event).version ≤ n := by
          cases current with
          | none => exact Nat.zero_le n
          | some job => exact hcurrent job rfl
        have hnext := ih (some (reduceEvent current event).job) (n + 1) (fun next hnext => by
          obtain rfl := Option.some_inj.1 hnext
          exact (version_reduceEvent_le current event).trans (Nat.succ_le_succ hblank)) job hjob
        rw [List.length_cons]
        omega
  have hle := hall none 0 (fun _ hnone => by cases hnone) job h
  omega

/-! ### Published events -/

section Records

variable {rows : List (EdrRow Object)} {events : List Event} {jobId : String}
  {columns : Mixed.Columns}

/-- **What an event has to be for its job to be read**: its scheduled time leaves room in the
calendar, and its texts are stored. -/
structure Event.Readable (columns : Mixed.Columns) (event : Event) : Prop where
  room : ∀ t ∈ event.scheduledAt, Datetime.HasRoom {} t
  texts : ∀ text ∈ event.texts, columns.text text = true

instance (event : Event) : Decidable (event.Readable columns) :=
  decidable_of_iff ((∀ t ∈ event.scheduledAt, Datetime.HasRoom {} t) ∧
    ∀ text ∈ event.texts, columns.text text = true) ⟨fun h => ⟨h.1, h.2⟩, fun h => ⟨h.1, h.2⟩⟩

/-- The columns take what the projector sends of published events. -/
structure Mixed.Columns.TakesPublished (columns : Mixed.Columns) : Prop where
  storesInstants : columns.StoresInstants
  takesUtc : columns.TakesUtc
  defaults : Defaults fun text => columns.text text = true

/-- So does PostgreSQL. -/
theorem takesPublished_postgres : Mixed.postgres.TakesPublished where
  storesInstants := by
    intro t instant haware hstored
    obtain ⟨o, ho⟩ := Option.isSome_iff_exists.1 haware
    simp only [Mixed.postgres, ho] at hstored
    split at hstored
    · exact (Option.some_inj.1 hstored).symm
    · cases hstored
  takesUtc := by
    intro t ht
    have hoffset : t.offset = some 0 := ht
    simp only [Mixed.postgres, hoffset]
    rfl
  defaults := ⟨by decide, by decide, by decide⟩

theorem texts_wired {T : String → Prop} {event : Event} (hdefaults : Defaults T)
    (h : ∀ text ∈ event.texts, T text) : ∀ text ∈ event.wired.texts, T text := by
  simp only [Event.texts, Event.wired, List.forall_mem_append, List.forall_mem_cons,
    Option.mem_toList] at h ⊢
  obtain ⟨⟨hid, hjob, hcorrelation, htype, hnil⟩, ⟨-, hresult⟩, herror⟩ := h
  exact ⟨⟨hid, hjob, hcorrelation, orElseText_in htype hdefaults.jobType, hnil⟩,
    ⟨by simp, hresult⟩, herror⟩

/-- A row is that of one of the events. -/
theorem exists_of_records (h : List.Forall₂ EdrRow.Records rows events) :
    ∀ row ∈ rows, ∃ event ∈ events, row.Records event := by
  induction h with
  | nil => exact fun _ hrow => nomatch hrow
  | cons hrow _ ih =>
      refine List.forall_mem_cons.2 ⟨⟨_, List.mem_cons_self .., hrow⟩, fun other hother => ?_⟩
      obtain ⟨event, hevent, hrecords⟩ := ih other hother
      exact ⟨event, List.mem_cons_of_mem _ hevent, hrecords⟩

/-- **Published events are read as their instants are.** -/
theorem read_of_records (runtime : Mixed.Runtime) (hcolumns : columns.TakesPublished)
    (h : List.Forall₂ EdrRow.Records rows events) (henc : ∀ event ∈ events, event.Encodable)
    (hnodup : (events.map Event.eventId).Nodup) (hjob : ∀ event ∈ events, event.jobId = jobId)
    (hreadable : ∀ event ∈ events, event.Readable columns) (hcount : events.length ≤ maxInteger)
    (hne : events ≠ []) :
    (Mixed.reading runtime Mixed.eventFromRow columns).read jobId rows =
      (Reading.ofDecoder eventFromRow).read jobId rows := by
  obtain ⟨projection, hrebuild⟩ := exists_rebuild_of_records h henc hnodup hjob hne
  obtain ⟨hreduce, -, -⟩ := rebuild_of_records h henc hnodup hjob hrebuild
  have hrows : ∀ row ∈ rows, ∃ event, Mixed.eventFromRow row.canonicalPayload = .ok event ∧
      event.Holding Mixed.Timestamp.IsUtc ∧
        eventFromRow row.canonicalPayload = .ok event.instants := by
    intro row hrow
    obtain ⟨event, hevent, hrecords⟩ := exists_of_records h row hrow
    obtain ⟨decoded, hdecoded, hutc, hinstants⟩ :=
      Mixed.eventFromRow_of_records hrecords (henc event hevent)
    exact ⟨decoded, hdecoded, hutc, hinstants ▸ hrecords.eventFromRow_eq_ok (henc event hevent)⟩
  have hwired : ∀ event ∈ events.map Event.wired,
      ∀ text ∈ event.texts, columns.text text = true := by
    intro event hevent
    obtain ⟨original, horiginal, rfl⟩ := List.mem_map.1 hevent
    exact texts_wired hcolumns.defaults (hreadable original horiginal).texts
  have htexts : projection.snapshot.TextsIn fun text => columns.text text = true :=
    forall_reduceAll (fun event hevent current hcurrent =>
      textsIn_reduceEvent hcolumns.defaults hcurrent (hwired event hevent))
      (fun _ hnone => by cases hnone) _ hreduce
  have hroom : ∀ t ∈ projection.snapshot.scheduledAt, Datetime.HasRoom {} t := by
    refine forall_scheduledAt_of_reduceAll hreduce fun event hevent => ?_
    obtain ⟨original, horiginal, rfl⟩ := List.mem_map.1 hevent
    exact (hreadable original horiginal).room
  have hversion : projection.snapshot.version ≤ maxInteger := by
    have hle := version_le_of_reduceAll hreduce
    rw [List.length_map] at hle
    exact hle.trans hcount
  have hjobId : columns.text jobId = true := by
    obtain ⟨event, hevent⟩ := List.exists_mem_of_ne_nil events hne
    have hown := (hreadable event hevent).texts event.jobId (by simp [Event.texts])
    rwa [hjob event hevent] at hown
  have hread := @Mixed.rebuild_of_instants _ runtime columns _ _ _ _ _ hcolumns.storesInstants
    hcolumns.takesUtc hrows hrebuild hroom
    (List.forall_mem_cons.2 ⟨hjobId, htexts.forall_texts⟩) hversion
  rw [EdrDb.read_ofDecoder_eq_ok_iff.2 ⟨projection, hrebuild, rfl⟩]
  exact hread

end Records

end ScheduledJobs
