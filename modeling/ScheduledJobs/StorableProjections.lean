/-
**Projections that the tables accept.**

The tables of the reader check the numbers of the attempts and the references to the journal.  A
projection that is replayed from the rows of published events meets them: its attempts carry the
numbers they are kept under, which are those of events, and its decisions are about its own rows.
So journal rows with published events in them can always be projected.

Main definitions:

* `JobVisibility.Numbered` — the attempts carry the numbers they are kept under.

Main results:

* `numbered_reduceEvent` — what an event preserves;
* `exists_rebuild_of_records` — the rows of published events are replayed without an exception;
* `EdrDb.rebuilds_of_records` — **and what comes out is accepted**.
-/

import ScheduledJobs.AttemptSequence
import ScheduledJobs.DeliveryOrder
import ScheduledJobs.DurableReader

set_option relaxedAutoImplicit false
set_option autoImplicit false

namespace ScheduledJobs

open Json JobVisibility

/-! ### The numbers of attempts -/

/-- The attempts carry the numbers they are kept under. -/
def JobVisibility.Numbered (job : JobVisibility) : Prop :=
  ∀ n attempt, job.attempts.get? n = some attempt → attempt.attemptNumber = n

variable {job : JobVisibility} {event : Event}

theorem JobVisibility.Numbered.attemptAt (h : job.Numbered) (n : ℕ) :
    (job.attemptAt n).attemptNumber = n := by
  unfold JobVisibility.attemptAt
  cases hget : job.attempts.get? n with
  | none => rfl
  | some attempt => exact h n attempt hget

/-- A projection that differs in one attempt, which carries its number. -/
theorem JobVisibility.Numbered.put {after : JobVisibility} {number : ℕ} {written : Attempt}
    (h : job.Numbered)
    (hget : ∀ m, after.attempts.get? m = if m = number then some written else job.attempts.get? m)
    (hwritten : written.attemptNumber = number) : after.Numbered := by
  intro n attempt hattempt
  rw [hget] at hattempt
  split at hattempt
  · next heq =>
      obtain rfl := Option.some_inj.1 hattempt
      rw [hwritten, heq]
  · exact h n attempt hattempt

/-- **A handler writes the attempt its event is about**, under its number. -/
theorem numbered_handler (t : EventType) (h : job.Numbered) : (handler t job event).1.Numbered := by
  by_cases ht : t.opensAttempt = true
  · have hnumber := h.attemptAt event.number
    have hopened : (job.openAttempt event).Numbered :=
      h.put (fun m => Dict.get?_set job.attempts event.number m _) hnumber
    cases t with
    | jobSchedulerItemRetrieved =>
        simp only [handler, onJobSchedulerItemRetrieved, attemptAt_openAttempt]
        exact h.put (get?_openAttempt_set job event _) hnumber
    | jobExecutionStarted =>
        simp only [handler, onJobExecutionStarted, attemptAt_openAttempt]
        split
        · exact h.put (get?_openAttempt_set job event _) hnumber
        · split
          · exact h.put (get?_openAttempt_set job event _) hnumber
          · exact h.put (get?_openAttempt_set_set job event _ _) hnumber
    | jobExecutionSucceeded =>
        simp only [handler, onJobExecutionSucceeded, attemptAt_openAttempt]
        split
        · exact hopened
        · exact h.put (get?_openAttempt_set job event _) hnumber
    | jobExecutionFailed =>
        simp only [handler, onJobExecutionFailed, attemptAt_openAttempt]
        split
        · exact hopened
        · split
          · exact hopened
          · exact h.put (get?_openAttempt_set job event _) hnumber
    | _ => cases ht
  · intro n attempt hattempt
    rw [(sameAttempts_handler (Bool.eq_false_iff.2 ht) job event).attempts] at hattempt
    exact h n attempt hattempt

/-- **The attempts of a projection carry their numbers.** -/
theorem numbered_reduceEvent {current : Option JobVisibility} (h : ∀ job ∈ current, job.Numbered) :
    (reduceEvent current event).job.Numbered := by
  have hblank : (currentOrBlank current event).Numbered := by
    cases current with
    | none => exact fun _ _ hnone => nomatch hnone
    | some job => exact h job rfl
  obtain ⟨version, decisions, hjob⟩ := exists_reduceEvent_eq current event
  rw [hjob]
  unfold projectedBy
  split
  · exact hblank
  · exact numbered_handler event.eventType hblank

/-- The attempts of a reduction are those its events open. -/
theorem attempts_of_reduceAll {events : List Event} {job : JobVisibility}
    (h : reduceAll none events = some job) :
    job.Numbered ∧ ∀ n, (job.attempts.get? n).isSome → Opened events n := by
  have hall : ∀ job ∈ reduceAll none events, job.Numbered ∧
      ∀ n, (job.attempts.get? n).isSome → Opened events n := by
    refine forall_reduceAll (fun event hevent current hcurrent => ⟨?_, fun n hn => ?_⟩)
      fun _ hnone => nomatch hnone
    · exact numbered_reduceEvent fun job hjob => (hcurrent job hjob).1
    · obtain ⟨version, decisions, hjob⟩ := exists_reduceEvent_eq current event
      rw [hjob] at hn
      rcases (isSome_get?_projectedBy (currentOrBlank current event) event n).1 hn with hold | hnew
      · cases current with
        | none => cases hold
        | some job => exact (hcurrent job rfl).2 n hold
      · exact ⟨event, hevent, hnew⟩
  exact hall job h

/-! ### The rows of published events -/

section Records

variable {rows : List (EdrRow Object)} {events : List Event} {jobId : String}

/-- **The rows of published events are replayed without an exception**, if there are any. -/
theorem exists_rebuild_of_records (h : List.Forall₂ EdrRow.Records rows events)
    (henc : ∀ event ∈ events, event.Encodable) (hnodup : (events.map Event.eventId).Nodup)
    (hjob : ∀ event ∈ events, event.jobId = jobId) (hne : events ≠ []) :
    ∃ projection, rebuild eventFromRow jobId rows = .ok projection := by
  have hids : ((events.map Event.wired).map Event.eventId).Nodup := by rwa [List.map_map]
  obtain ⟨engine, happly, -, hjobs⟩ :=
    @VisibilityEngine.applyAll_ok {} (events.map Event.wired) hids fun _ _ => List.not_mem_nil
  have hreplay := EdrRow.Records.replay h henc happly
  have hall : eventsOf jobId (events.map Event.wired) = events.map Event.wired := by
    refine List.filter_eq_self.2 fun event hevent => ?_
    obtain ⟨original, horiginal, rfl⟩ := List.mem_map.1 hevent
    exact decide_eq_true (hjob original horiginal)
  obtain ⟨job, hreduce⟩ : ∃ job, reduceAll none (events.map Event.wired) = some job := by
    refine Option.ne_none_iff_exists'.1 fun hnone => hne ?_
    exact List.map_eq_nil_iff.1 (reduceAll_eq_none_iff.1 hnone)
  have hfind : engine.jobs.find? jobId = some job := by
    rw [hjobs, hall]
    exact hreduce
  have htimes : ∀ job ∈ reduceAll none (events.map Event.wired),
      ∃ dataAsOf, job.dataAsOf = some dataAsOf := by
    refine forall_reduceAll (fun event _ current _ => ?_) fun _ hnone => nomatch hnone
    obtain ⟨version, decisions, hjob⟩ := exists_reduceEvent_eq current event
    rw [hjob]
    cases (currentOrBlank current event).dataAsOf with
    | none => exact ⟨_, rfl⟩
    | some dataAsOf => exact ⟨_, rfl⟩
  obtain ⟨dataAsOf, htime⟩ := htimes job hreduce
  have hsnapshot := VisibilityEngine.snapshot_eq_ok_iff.2 hfind
  have hget : engine.get jobId dataAsOf = .ok (engine.config.response job dataAsOf) :=
    VisibilityEngine.get_eq_ok_iff.2 ⟨job, hfind, rfl⟩
  refine ⟨⟨job, engine.config.response job dataAsOf, dataAsOf⟩,
    Except.bind_eq_ok_iff.2 ⟨engine, hreplay, ?_⟩⟩
  refine Except.bind_eq_ok_iff.2 ⟨job, Except.mapError_eq_ok_iff.2 hsnapshot, ?_⟩
  simp only [htime]
  exact Except.bind_eq_ok_iff.2 ⟨_, Except.mapError_eq_ok_iff.2 hget, rfl⟩

/-- The decisions of a projection are about its rows. -/
theorem carriesId_of_records (h : List.Forall₂ EdrRow.Records rows events)
    (henc : ∀ event ∈ events, event.Encodable) : ∀ row ∈ rows, row.CarriesId eventFromRow := by
  induction h with
  | nil => exact fun _ hrow => nomatch hrow
  | @cons row event rows events hrow _ ih =>
      rw [List.forall_mem_cons] at henc
      refine List.forall_mem_cons.2 ⟨fun decoded hdecoded => ?_, ih henc.2⟩
      obtain rfl := Except.ok.inj ((hrow.eventFromRow_eq_ok henc.1).symm.trans hdecoded)
      exact hrow.eventId.symm

/-- **The projection of published events is accepted**, if the numbers of their attempts fit. -/
theorem storable_of_records {eventIds : List String} {projection : Projection}
    (h : List.Forall₂ EdrRow.Records rows events) (henc : ∀ event ∈ events, event.Encodable)
    (hnodup : (events.map Event.eventId).Nodup) (hjob : ∀ event ∈ events, event.jobId = jobId)
    (hids : ∀ row ∈ rows, row.eventId ∈ eventIds)
    (hnumbers : ∀ event ∈ events, event.eventType.opensAttempt = true → event.number ≤ maxInteger)
    (hrebuild : rebuild eventFromRow jobId rows = .ok projection) :
    (projection.written jobId).Storable eventIds := by
  obtain ⟨hreduce, -, -⟩ := rebuild_of_records h henc hnodup hjob hrebuild
  obtain ⟨hnumbered, hopened⟩ := attempts_of_reduceAll hreduce
  have hrow : ∀ row ∈ projection.attemptRows jobId,
      (projection.snapshot.attempts.get? row.attemptNumber).isSome := by
    intro row hrow
    obtain ⟨attempt, hattempt, rfl⟩ := List.mem_map.1 hrow
    obtain ⟨n, hn⟩ := Dict.mem_values_iff.1 hattempt
    simp only [hnumbered n attempt hn, hn, Option.isSome_some]
  refine ⟨fun row hmem => ?_, ?_, fun row hmem => ?_⟩
  · obtain ⟨event, hevent, hopens, hnumber⟩ := hopened _ (hrow row hmem)
    obtain ⟨original, horiginal, rfl⟩ := List.mem_map.1 hevent
    have hpos := original.wired.number_pos
    have hmax := hnumbers original horiginal hopens
    have hsame : original.wired.number = original.number := rfl
    omega
  · -- the keys of a dictionary are different
    have hkeys : (projection.attemptRows jobId).map JobAttemptRow.key =
        projection.snapshot.attempts.keys.map fun n => (jobId, n) := by
      simp only [Projection.attemptRows, Dict.values, Dict.keys, List.map_map]
      refine List.map_congr_left fun entry hentry => ?_
      have hget := hnumbered entry.1 entry.2 (Dict.mem_entries_iff.1 hentry)
      simp only [Function.comp_apply, JobAttemptRow.key, hget]
    rw [Projection.written_attempts, hkeys]
    exact (Dict.nodup_keys _).map fun a b hab => (Prod.mk.inj hab).2
  · obtain ⟨decision, hdecision, rfl⟩ := List.mem_map.1 hmem
    have hdecided := (consistent_of_rebuild (carriesId_of_records h henc) hrebuild).2 decision
      hdecision
    obtain ⟨row, hrow, hid⟩ := List.mem_map.1 hdecided
    exact hid ▸ hids row hrow

/-- **The rows of published events can be projected**, if the numbers of their attempts fit. -/
theorem EdrDb.rebuilds_of_records {db : EdrDb Object}
    (h : List.Forall₂ EdrRow.Records (db.rowsOf jobId) events)
    (henc : ∀ event ∈ events, event.Encodable) (hnodup : (events.map Event.eventId).Nodup)
    (hjob : ∀ event ∈ events, event.jobId = jobId)
    (hnumbers : ∀ event ∈ events, event.eventType.opensAttempt = true → event.number ≤ maxInteger)
    (hne : events ≠ []) : db.Rebuilds eventFromRow jobId := by
  obtain ⟨projection, hrebuild⟩ := exists_rebuild_of_records h henc hnodup hjob hne
  refine EdrDb.rebuilds_iff.2 ⟨projection, hrebuild, ?_⟩
  refine storable_of_records h henc hnodup hjob (fun row hrow => ?_) hnumbers hrebuild
  exact List.mem_map_of_mem (EdrDb.mem_rowsOf.1 hrow).1

end Records

end ScheduledJobs
