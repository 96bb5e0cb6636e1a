/-
**The journal rows of a job, and what is rebuilt from them.**

The rows that the journal has of a job record committed events of it, each of them once, and they
decode to what was committed.  So whichever of them a projector reads, a rebuild goes through, its
result meets the constraints of the tables, and it is the reduction of those events.

The projectors of the machine read instants.  Those of the program read timestamps, whose thresholds
may be behind the end of the calendar, and write into columns that may refuse a value.  Where
neither happens, they read the same.

Main definitions:

* `Pipeline.World.Readable` — the events leave room in the calendar, and fit the columns;
* `Pipeline.World.ReadsInstants` — a projector that loads a job reads instants.

Main results:

* `Pipeline.exists_events` — the journal rows of a job record committed events of it;
* `Pipeline.snapshot_of_rebuild` — what a rebuild makes of them;
* `Pipeline.rebuilds` — **every job of the journal can be projected**;
* `Pipeline.read_eq` — **timestamps are read as their instants are**;
* `Pipeline.mem_events_of_delivered` — the events that are recorded, once all are delivered.
-/

import ScheduledJobs.PipelineJournal
import ScheduledJobs.PublishedReading

set_option relaxedAutoImplicit false
set_option autoImplicit false

namespace ScheduledJobs

open Json

/-! ### The events of a job -/

namespace Pipeline

variable {Payload : Type} [DecidableEq Payload] {service : SchedulerService}
  {publishers : ℕ → OutboxPublisher} {w w' : World Payload}

omit [DecidableEq Payload] in
/-- The ids of the rows are those of the events. -/
theorem map_eventId_of_records {rows : List (EdrRow Object)} {events : List Event}
    (h : List.Forall₂ EdrRow.Records rows events) :
    rows.map EdrRow.eventId = events.map Event.eventId := by
  rw [← List.forall₂_eq_eq_eq, List.forall₂_map_left_iff, List.forall₂_map_right_iff]
  exact h.imp fun _ _ hrecord => hrecord.eventId

/-- A journal row records a committed event. -/
theorem exists_event (h : (machine service publishers).Reachable w) {row : EdrRow Object}
    (hrow : row ∈ w.projectors.db.edrEvents.rows) :
    ∃ event ∈ w.scheduler.db.events, row.Records event := by
  rw [edrEvents_eq h] at hrow
  obtain ⟨stored, hstored, rfl⟩ := List.mem_map.1 hrow
  obtain ⟨event, hevent, coordinate, -, hcolumns⟩ := (linked_of_reachable h).journal stored hstored
  exact ⟨event, hevent, (records_of_columns h hevent hcolumns).1⟩

/-- **The journal rows of a job record committed events of it**, each of them once. -/
theorem exists_events (h : (machine service publishers).Reachable w) {jobId : String}
    {rows : List (EdrRow Object)}
    (hrows : Projectors.JobRows w.projectors.db.edrEvents.rows jobId rows) :
    ∃ events, List.Forall₂ EdrRow.Records rows events ∧
      (∀ event ∈ events, event ∈ eventsOf jobId w.scheduler.db.events) ∧
      (events.map Event.eventId).Nodup := by
  have hexists : ∀ rows : List (EdrRow Object),
      (∀ row ∈ rows, row ∈ w.projectors.db.edrEvents.rows ∧ row.jobId = jobId) →
        ∃ events, List.Forall₂ EdrRow.Records rows events ∧
          ∀ event ∈ events, event ∈ eventsOf jobId w.scheduler.db.events := by
    intro rows
    induction rows with
    | nil => exact fun _ => ⟨[], .nil, fun _ hevent => nomatch hevent⟩
    | cons row rows ih =>
        intro hmem
        rw [List.forall_mem_cons] at hmem
        obtain ⟨events, hrecords, hevents⟩ := ih hmem.2
        obtain ⟨event, hevent, hrecord⟩ := exists_event h hmem.1.1
        refine ⟨event :: events, .cons hrecord hrecords, List.forall_mem_cons.2 ⟨?_, hevents⟩⟩
        exact List.mem_filter.2 ⟨hevent, decide_eq_true (hrecord.jobId.symm.trans hmem.1.2)⟩
  obtain ⟨events, hrecords, hevents⟩ := hexists rows hrows.mem
  refine ⟨events, hrecords, hevents, ?_⟩
  rw [← map_eventId_of_records hrecords]
  exact hrows.nodup.map_on fun a ha b hb hab =>
    Table.eq_of_key_eq (hrows.mem a ha).1 (hrows.mem b hb).1 hab

/-- The events of a job survive the wire. -/
theorem wired_of_mem (h : (machine service publishers).Reachable w) {jobId : String}
    {events : List Event}
    (hevents : ∀ event ∈ events, event ∈ eventsOf jobId w.scheduler.db.events) :
    events.map Event.wired = events := by
  refine List.map_congr_left (fun event hevent => ?_) |>.trans (List.map_id events)
  exact (WireInv.of_reachable (scheduler_reach h).reachable jobId).events event
    (hevents event hevent)

/-- What is stored with a projection of journal rows of a job. -/
theorem snapshot_of_rebuild (h : (machine service publishers).Reachable w) {jobId : String}
    {rows : List (EdrRow Object)} {projection : Projection}
    (hrows : Projectors.JobRows w.projectors.db.edrEvents.rows jobId rows)
    (hrebuild : rebuild eventFromRow jobId rows = .ok projection) :
    ∃ events, List.Forall₂ EdrRow.Records rows events ∧
      (∀ event ∈ events, event ∈ eventsOf jobId w.scheduler.db.events) ∧
      reduceAll none events = some projection.snapshot ∧ projection.snapshot.jobId = jobId ∧
      projection.response =
        ({} : VisibilityConfig).response projection.snapshot projection.dataAsOf := by
  obtain ⟨events, hrecords, hevents, hnodup⟩ := exists_events h hrows
  have hjob : ∀ event ∈ events, event.jobId = jobId := fun event hevent =>
    of_decide_eq_true (List.mem_filter.1 (hevents event hevent)).2
  obtain ⟨hreduce, -, hresponse⟩ := rebuild_of_records hrecords
    (fun event hevent => Db.encodable_of_mem_events (List.mem_filter.1 (hevents event hevent)).1)
    hnodup hjob hrebuild
  rw [wired_of_mem h hevents] at hreduce
  refine ⟨events, hrecords, hevents, hreduce, ?_, hresponse⟩
  have hall : eventsOf jobId events = events :=
    List.filter_eq_self.2 fun event hevent => decide_eq_true (hjob event hevent)
  exact jobId_of_reduceAll (hall.symm ▸ hreduce)

/-! ### Every job can be projected -/

/-- The number of an attempt that is opened fits the columns. -/
theorem number_le (h : (machine service publishers).Reachable w) {event : Event}
    (hevent : event ∈ w.scheduler.db.events) (hopens : event.eventType.opensAttempt = true) :
    event.number ≤ maxInteger := by
  have hreach := scheduler_reach h
  obtain ⟨row, hrow, hevidence⟩ := exists_row_of_event hreach.reachable hevent
  have hof := hevidence.isOf event (List.mem_filter.2 ⟨hevent, decide_eq_true rfl⟩)
  have hinv := (QueueInv.of_reachable hreach.reachable event.jobId).present row hrow
  have hmax := maxAttempts_le_of_reach hreach event.jobId row hrow
  have hkind : event.isSubmission = false := by
    unfold Event.isSubmission
    cases ht : event.eventType with
    | jobCreated => rw [ht] at hopens; cases hopens
    | jobSchedulerSubmissionRequested => rw [ht] at hopens; cases hopens
    | _ => rfl
  rw [hof.number hkind]
  exact hof.attempt_le.trans (hinv.attempt_le.trans hmax)

/-- **Every job of the journal can be projected.** -/
theorem rebuilds (h : (machine service publishers).Reachable w) {jobId : String}
    (hjob : ∃ row ∈ w.projectors.db.edrEvents.rows, row.jobId = jobId) :
    w.projectors.db.Rebuilds eventFromRow jobId := by
  have hrows := Projectors.jobRows_rowsOf w.projectors.db jobId
  obtain ⟨events, hrecords, hevents, hnodup⟩ := exists_events h hrows
  have hmem : ∀ event ∈ events, event ∈ w.scheduler.db.events := fun event hevent =>
    (List.mem_filter.1 (hevents event hevent)).1
  refine EdrDb.rebuilds_of_records hrecords
    (fun event hevent => Db.encodable_of_mem_events (hmem event hevent)) hnodup
    (fun event hevent => of_decide_eq_true (List.mem_filter.1 (hevents event hevent)).2)
    (fun event hevent => number_le h (hmem event hevent)) ?_
  rintro rfl
  obtain ⟨row, hrow, hrowJob⟩ := hjob
  have hmemRow : row ∈ w.projectors.db.rowsOf jobId := EdrDb.mem_rowsOf.2 ⟨hrow, hrowJob⟩
  rw [List.forall₂_nil_right_iff.1 hrecords] at hmemRow
  cases hmemRow

/-! ### Timestamps and instants -/

/-- **What the events have to be for `_project_job` to read them**: their scheduled times leave room
in the calendar, their texts are stored, and the version of a job can count them. -/
structure World.Readable (columns : Mixed.Columns) (w : World Payload) : Prop where
  events : ∀ event ∈ w.scheduler.db.events, event.Readable columns
  count : ∀ jobId, (eventsOf jobId w.scheduler.db.events).length ≤ maxInteger

/-- **Timestamps are read as their instants are**, whichever rows of a job are there. -/
theorem read_eq (h : (machine service publishers).Reachable w) (runtime : Mixed.Runtime)
    {columns : Mixed.Columns} (hcolumns : columns.TakesPublished) (hreadable : w.Readable columns)
    {jobId : String} {rows : List (EdrRow Object)}
    (hrows : Projectors.JobRows w.projectors.db.edrEvents.rows jobId rows) (hne : rows ≠ []) :
    (Mixed.reading runtime Mixed.eventFromRow columns).read jobId rows =
      (Reading.ofDecoder eventFromRow).read jobId rows := by
  obtain ⟨events, hrecords, hevents, hnodup⟩ := exists_events h hrows
  have hmem : ∀ event ∈ events, event ∈ w.scheduler.db.events := fun event hevent =>
    (List.mem_filter.1 (hevents event hevent)).1
  refine read_of_records runtime hcolumns hrecords
    (fun event hevent => Db.encodable_of_mem_events (hmem event hevent)) hnodup
    (fun event hevent => of_decide_eq_true (List.mem_filter.1 (hevents event hevent)).2)
    (fun event hevent => hreadable.events event (hmem event hevent)) ?_ ?_
  · -- the events are some of those of the job
    have hsub : events.length ≤ (eventsOf jobId w.scheduler.db.events).length :=
      (hnodup.of_map Event.eventId).subperm hevents |>.length_le
    exact hsub.trans (hreadable.count jobId)
  · rintro rfl
    exact hne (List.forall₂_nil_right_iff.1 hrecords)

/-- Whatever job a projector loads, it reads the timestamps as their instants. -/
def World.ReadsInstants (runtime : Mixed.Runtime) (columns : Mixed.Columns) (w : World Payload) :
    Prop :=
  ∀ jobId, w.projectors.db.rowsOf jobId ≠ [] →
    (Mixed.reading runtime Mixed.eventFromRow columns).read jobId
        (w.projectors.db.rowsOf jobId) =
      (Reading.ofDecoder eventFromRow).read jobId (w.projectors.db.rowsOf jobId)

theorem World.Readable.readsInstants {columns : Mixed.Columns} (hreadable : w.Readable columns)
    (h : (machine service publishers).Reachable w) (runtime : Mixed.Runtime)
    (hcolumns : columns.TakesPublished) : w.ReadsInstants runtime columns :=
  fun _ hne => read_eq h runtime hcolumns hreadable (Projectors.jobRows_rowsOf _ _) hne

/-! ### Events that are delivered -/

/-- The row of an event that is in the journal. -/
theorem exists_row_of_delivered (h : (machine service publishers).Reachable w) {jobId : String}
    {event : Event} (hevent : event ∈ eventsOf jobId w.scheduler.db.events)
    (hdelivered : event.eventId ∈ w.projectors.db.eventIds) :
    ∃ row ∈ w.projectors.db.edrEvents.rows, row.Records event ∧ row.jobId = jobId := by
  obtain ⟨row, hrow, hid⟩ := List.mem_map.1 hdelivered
  obtain ⟨recorded, hrecorded, hrecord⟩ := exists_event h hrow
  obtain ⟨hcommitted, hjob⟩ := List.mem_filter.1 hevent
  -- the ids of committed events are different
  obtain rfl := event_of_eventId hrecorded hcommitted (hrecord.eventId.symm.trans hid)
  exact ⟨row, hrow, hrecord, hrecord.jobId.trans (of_decide_eq_true hjob)⟩

/-- The rows of a job record all its events, when these are in the journal. -/
theorem mem_events_of_delivered (h : (machine service publishers).Reachable w) {jobId : String}
    {events : List Event}
    (hrecords : List.Forall₂ EdrRow.Records (w.projectors.db.rowsOf jobId) events)
    (hevents : ∀ event ∈ events, event ∈ eventsOf jobId w.scheduler.db.events)
    (hdelivered : ∀ event ∈ eventsOf jobId w.scheduler.db.events,
      event.eventId ∈ w.projectors.db.eventIds) (event : Event) :
    event ∈ events ↔ event ∈ eventsOf jobId w.scheduler.db.events := by
  refine ⟨hevents event, fun hevent => ?_⟩
  obtain ⟨row, hrow, hrecord, hjob⟩ := exists_row_of_delivered h hevent (hdelivered event hevent)
  have hmem : row.eventId ∈ (w.projectors.db.rowsOf jobId).map EdrRow.eventId :=
    List.mem_map_of_mem (EdrDb.mem_rowsOf.2 ⟨hrow, hjob⟩)
  rw [map_eventId_of_records hrecords] at hmem
  obtain ⟨other, hother, hsame⟩ := List.mem_map.1 hmem
  obtain rfl := event_of_eventId (List.mem_filter.1 (hevents other hother)).1
    (List.mem_filter.1 hevent).1 (hsame.trans hrecord.eventId)
  exact hother

end Pipeline

end ScheduledJobs
