/-
**`DurableVisibilityReader`: what is read back from the projection tables.**

The reader returns the responses that were stored with the projections.  Its filters are on the
columns beside them: the status filter is on the recorded status, and the window of scheduled times
is applied to the text in the response.

The journal holds what was published of the events, so the tables of a worker that has nothing left
to do show each job as the reduction of its events, as far as the wire format carries them.

Main definitions:

* `DurableVisibilityReader.get`, `DurableVisibilityReader.search`, `searchJobs` — **the queries**;
* `EdrRow.Records` — the journal row of a published event;
* `ProjectionTables.ShowsJobs` — the visibility rows are those of given projections.

Main results:

* `ProjectionTables.ShowsJobs.exists_searchJobs` — what a search finds;
* `Projectors.showsJobs_of_reach` — **what the tables show once no row is pending**.
-/

import ScheduledJobs.IncrementalProjection

set_option relaxedAutoImplicit false
set_option autoImplicit false

namespace ScheduledJobs

open Json

/-! ### The queries -/

namespace DurableVisibilityReader

/-- `get`. -/
def get (tables : ProjectionTables) (jobId : String) : Except EngineError JobResponse :=
  match tables.jobVisibility.find? jobId with
  | some row => .ok row.projection
  | none => .error (.jobNotFound jobId)

/-- `search`: a filter that is absent or empty is no filter. -/
def search (tables : ProjectionTables) (status correlationId : Option String) :
    List JobResponse :=
  let rows := tables.jobVisibility.rows.filter fun row =>
    ((status.filter fun text => text ≠ "").all fun text => row.recordedStatus = text) &&
      (correlationId.filter fun text => text ≠ "").all fun text => row.correlationId = text
  (rows.insertionSort fun r s => r.jobId ≤ s.jobId).map JobVisibilityRow.projection

end DurableVisibilityReader

/-- Whether the scheduled time in a response passes a test.  An absent or empty text does not; a
text that is no timestamp raises. -/
def scheduledPasses (test : Datetime → Bool) (item : JobResponse) : Except WireError Bool :=
  match item.scheduledAt with
  | some text => if text = "" then .ok false else (timeOf fromIso? "scheduledAt" text).map test
  | none => .ok false

/-- The responses whose scheduled time passes a test. -/
def keepScheduled (test : Datetime → Bool) : List JobResponse → Except WireError (List JobResponse)
  | [] => .ok []
  | item :: items => do
      let passes ← scheduledPasses test item
      let kept ← keepScheduled test items
      return if passes then item :: kept else kept

/-- The responses whose scheduled time is within a bound, if there is one. -/
def keepWithin (bound : Option Datetime) (test : Datetime → Datetime → Bool)
    (items : List JobResponse) : Except WireError (List JobResponse) :=
  match bound with
  | some t => keepScheduled (test t) items
  | none => .ok items

/-- **`search_jobs`** with a durable reader. -/
def searchJobs (tables : ProjectionTables) (filters : SearchFilters) :
    Except WireError (List JobResponse) := do
  let jobs := DurableVisibilityReader.search tables (filters.status.map Status.value)
    filters.correlationId
  let jobs ← keepWithin filters.scheduledFrom (fun t s => t ≤ s) jobs
  keepWithin filters.scheduledTo (fun t s => s ≤ t) jobs

/-! ### What a search finds -/

/-- Responses with the times they are scheduled at: all of them are kept or not as their times pass
the test. -/
theorem keepScheduled_eq {test : Datetime → Bool} {items : List JobResponse}
    {scheduled : JobResponse → Option Datetime}
    (h : ∀ item ∈ items, item.scheduledAt = (scheduled item).map iso ∧
      ∀ t ∈ scheduled item, Datetime.InRange t) :
    keepScheduled test items = .ok (items.filter fun item => (scheduled item).any test) := by
  induction items with
  | nil => rfl
  | cons item items ih =>
      rw [List.forall_mem_cons] at h
      obtain ⟨⟨htext, hrange⟩, hrest⟩ := h
      have hpasses : scheduledPasses test item = .ok ((scheduled item).any test) := by
        rw [scheduledPasses, htext]
        cases hscheduled : scheduled item with
        | none => rfl
        | some t =>
            have htime : timeOf fromIso? "scheduledAt" (iso t) = .ok t :=
              timeOf_iso fromIso?_iso "scheduledAt" (hrange t hscheduled)
            simp only [Option.map_some, if_neg (iso_ne_empty t), htime]
            rfl
      rw [keepScheduled, hpasses, ih hrest, List.filter_cons]
      rfl

theorem keepWithin_eq {items : List JobResponse}
    {scheduled : JobResponse → Option Datetime}
    (h : ∀ item ∈ items, item.scheduledAt = (scheduled item).map iso ∧
      ∀ t ∈ scheduled item, Datetime.InRange t)
    (bound : Option Datetime) (test : Datetime → Datetime → Bool) :
    keepWithin bound test items =
      .ok (items.filter fun item => bound.all fun t => (scheduled item).any (test t)) := by
  cases bound with
  | none => simp [keepWithin]
  | some t => exact keepScheduled_eq h

namespace JobVisibility

variable (job : JobVisibility)

/-- The row that is stored for a job, with the response at a time. -/
def storedAt (dataAsOf : Datetime) : JobVisibilityRow where
  jobId := job.jobId
  correlationId := job.correlationId
  jobType := job.jobType
  recordedStatus := job.recordedStatus.value
  projection := ({} : VisibilityConfig).response job dataAsOf
  dataAsOf := dataAsOf
  version := job.version

/-- The row of a job: with the response at the time up to which there is data. -/
def stored : Option JobVisibilityRow := job.dataAsOf.map job.storedAt

end JobVisibility

/-- The projections, one for each job, whose stored responses are in the tables. -/
structure ProjectionTables.ShowsJobs (tables : ProjectionTables)
    (jobs : String → Option JobVisibility) : Prop where
  rows : ∀ jobId, tables.jobVisibility.find? jobId = (jobs jobId).bind JobVisibility.stored
  jobIds : ∀ jobId job, jobs jobId = some job → job.jobId = jobId
  /-- The scheduled times are written in a way in which they can be read. -/
  inRange : ∀ jobId job, jobs jobId = some job → ∀ t ∈ job.scheduledAt, Datetime.InRange t

namespace ProjectionTables.ShowsJobs

variable {tables : ProjectionTables} {jobs : String → Option JobVisibility}

/-- The rows are the stored responses. -/
theorem mem_rows_iff (h : tables.ShowsJobs jobs) {row : JobVisibilityRow} :
    row ∈ tables.jobVisibility.rows ↔
      ∃ job, jobs row.jobId = some job ∧ job.stored = some row := by
  rw [← Option.bind_eq_some_iff, ← h.rows]
  exact ⟨Table.find?_of_mem, Table.mem_of_find?⟩

theorem get_eq_ok_iff (h : tables.ShowsJobs jobs) {jobId : String} {item : JobResponse} :
    DurableVisibilityReader.get tables jobId = .ok item ↔
      ∃ job, jobs jobId = some job ∧ ∃ dataAsOf ∈ job.dataAsOf,
        ({} : VisibilityConfig).response job dataAsOf = item := by
  unfold DurableVisibilityReader.get
  rw [h.rows]
  cases jobs jobId with
  | none => simp
  | some job =>
      rw [Option.bind_some, JobVisibility.stored]
      cases htime : job.dataAsOf with
      | none => simp [htime]
      | some dataAsOf => simp [htime, JobVisibility.storedAt]

/-- What a search on the columns finds. -/
theorem mem_search_iff (h : tables.ShowsJobs jobs) {filters : SearchFilters} {item : JobResponse} :
    item ∈ DurableVisibilityReader.search tables (filters.status.map Status.value)
        filters.correlationId ↔
      ∃ job, jobs item.jobId = some job ∧ (∃ dataAsOf ∈ job.dataAsOf,
        ({} : VisibilityConfig).response job dataAsOf = item) ∧
        (∀ text ∈ filters.correlation?, job.correlationId = text) ∧
        ∀ status ∈ filters.status, job.recordedStatus = status := by
  -- no status has an empty text
  have hfilter : (filters.status.map Status.value).filter (fun text => text ≠ "") =
      filters.status.map Status.value := by
    cases filters.status with
    | none => rfl
    | some status => cases status <;> rfl
  have hstatus : ∀ job : JobVisibility,
      (∀ text, filters.status.map Status.value = some text → job.recordedStatus.value = text) ↔
        ∀ status ∈ filters.status, job.recordedStatus = status := by
    intro job
    simp [Status.value_injective.eq_iff]
  simp only [DurableVisibilityReader.search, List.mem_map, List.mem_insertionSort, List.mem_filter,
    Bool.and_eq_true, hfilter, Option.all_eq_true, decide_eq_true_eq]
  constructor
  · rintro ⟨row, ⟨hrow, hfirst, hsecond⟩, rfl⟩
    obtain ⟨job, hjob, hstored⟩ := h.mem_rows_iff.1 hrow
    obtain ⟨dataAsOf, htime, rfl⟩ := Option.map_eq_some_iff.1 hstored
    exact ⟨job, hjob, ⟨dataAsOf, htime, rfl⟩, hsecond, (hstatus job).1 hfirst⟩
  · rintro ⟨job, hjob, ⟨dataAsOf, htime, rfl⟩, hsecond, hfirst⟩
    have hstored : job.stored = some (job.storedAt dataAsOf) := congrArg (Option.map _) htime
    exact ⟨_, ⟨h.mem_rows_iff.2 ⟨job, hjob, hstored⟩, (hstatus job).2 hfirst, hsecond⟩, rfl⟩

/-- **What a search finds.** -/
theorem exists_searchJobs (h : tables.ShowsJobs jobs) (filters : SearchFilters) :
    ∃ items, searchJobs tables filters = .ok items ∧ ∀ item, item ∈ items ↔
      ∃ job, jobs item.jobId = some job ∧ (∃ dataAsOf ∈ job.dataAsOf,
        ({} : VisibilityConfig).response job dataAsOf = item) ∧ filters.Admits job ∧
        ∀ status ∈ filters.status, job.recordedStatus = status := by
  let found := DurableVisibilityReader.search tables (filters.status.map Status.value)
    filters.correlationId
  let scheduled : JobResponse → Option Datetime := fun item =>
    (jobs item.jobId).bind JobVisibility.scheduledAt
  have hsame : ∀ item job, jobs item.jobId = some job → scheduled item = job.scheduledAt := by
    intro item job hjob
    simp only [scheduled, hjob, Option.bind_some]
  have hscheduled : ∀ item ∈ found, item.scheduledAt = (scheduled item).map iso ∧
      ∀ t ∈ scheduled item, Datetime.InRange t := by
    intro item hitem
    obtain ⟨job, hjob, ⟨dataAsOf, -, hresponse⟩, -⟩ := h.mem_search_iff.1 hitem
    rw [hsame item job hjob, ← hresponse]
    exact ⟨rfl, h.inRange _ job hjob⟩
  let kept := found.filter fun item =>
    filters.scheduledFrom.all fun t => (scheduled item).any fun s => t ≤ s
  have hkept : ∀ item ∈ kept, item.scheduledAt = (scheduled item).map iso ∧
      ∀ t ∈ scheduled item, Datetime.InRange t := fun item hitem =>
    hscheduled item (List.mem_of_mem_filter hitem)
  have hfrom := keepWithin_eq hscheduled filters.scheduledFrom fun t s => t ≤ s
  have hto := keepWithin_eq hkept filters.scheduledTo fun t s => s ≤ t
  have hsearch : searchJobs tables filters = .ok (kept.filter fun item =>
      filters.scheduledTo.all fun t => (scheduled item).any fun s => s ≤ t) :=
    Except.bind_eq_ok_iff.2 ⟨kept, hfrom, hto⟩
  refine ⟨_, hsearch, fun item => ?_⟩
  rw [List.mem_filter, List.mem_filter, h.mem_search_iff]
  simp only [Option.all_eq_true, Option.any_eq_true, decide_eq_true_eq]
  constructor
  · rintro ⟨⟨⟨job, hjob, hresponse, hcorrelation, hstatus⟩, hafter⟩, hbefore⟩
    rw [hsame item job hjob] at hafter hbefore
    exact ⟨job, hjob, hresponse, ⟨hcorrelation, hafter, hbefore⟩, hstatus⟩
  · rintro ⟨job, hjob, hresponse, ⟨hcorrelation, hafter, hbefore⟩, hstatus⟩
    rw [hsame item job hjob]
    exact ⟨⟨⟨job, hjob, hresponse, hcorrelation, hstatus⟩, hafter⟩, hbefore⟩

end ProjectionTables.ShowsJobs

/-! ### The journal row of an event -/

/-- The event has nothing that the wire format drops. -/
structure Event.OnWire (event : Event) : Prop where
  schedulerReference : event.schedulerReference = none
  pollTime : event.pollTime = none

/-- Of such an event the wire format can express all, but for an empty job type. -/
theorem Event.OnWire.wired_eq {event : Event} (h : event.OnWire) :
    event.wired = { event with jobType := orElseText event.jobType "GENERIC" } := by
  obtain ⟨hreference, hpoll⟩ := h
  cases event
  simp_all [Event.wired]

/-- **The journal row of a published event**: it holds the payload that is embedded in the
record. -/
structure EdrRow.Records (row : EdrRow Object) (event : Event) : Prop where
  eventId : row.eventId = event.eventId
  jobId : row.jobId = event.jobId
  canonicalPayload : loads event.canonicalPayload = some row.canonicalPayload

namespace EdrRow.Records

variable {row : EdrRow Object} {event : Event}

/-- The payload of a journal row embeds no further payload. -/
theorem get?_canonicalPayload (h : row.Records event) :
    row.canonicalPayload.get? "canonicalPayload" = none := by
  have hload := h.canonicalPayload
  rw [Event.canonicalPayload, loads_dumps_eq] at hload
  rw [← Option.some.inj hload, get?_ofMembers_sorted, ← Option.not_isSome_iff_eq_none,
    ← Dict.mem_keys_iff, Dict.keys, entries_ofMembers (nodup_wireMembers event)]
  simp [Event.wireMembers]

/-- **A journal row is decoded to what the format can express of its event.** -/
theorem eventFromRow_eq_ok (h : row.Records event) (henc : event.Encodable) :
    eventFromRow row.canonicalPayload = .ok event.wired := by
  have hwire := eventFromWire_canonicalPayload henc
  rw [eventFromWire, recordFromWire, h.canonicalPayload] at hwire
  rw [eventFromRow, recordFromRow, h.get?_canonicalPayload]
  exact hwire

/-- Replaying the rows applies the events. -/
theorem replay {rows : List (EdrRow Object)} {events : List Event}
    (h : List.Forall₂ EdrRow.Records rows events) (henc : ∀ event ∈ events, event.Encodable)
    {engine later : VisibilityEngine}
    (happly : engine.applyAll (events.map Event.wired) = .ok later) :
    rows.foldlM (replayRow eventFromRow) engine = .ok later := by
  induction h generalizing engine with
  | nil =>
      cases happly
      rfl
  | cons hrow _ ih =>
      rw [List.forall_mem_cons] at henc
      obtain ⟨next, hnext, hrest⟩ := Except.bind_eq_ok_iff.1 happly
      obtain ⟨result, hresult, hfst⟩ := Except.bind_eq_ok_iff.1 hnext
      obtain rfl : result.1 = next := Except.ok.inj hfst
      exact Except.bind_eq_ok_iff.2 ⟨result.1, replayRow_eq_ok_iff.2
        ⟨_, result.2, hrow.eventFromRow_eq_ok henc.1, hresult⟩, ih henc.2 hrest⟩

end EdrRow.Records

/-- The rows of a job record its events. -/
theorem records_rowsOf {db : EdrDb Object} {events : List Event}
    (h : List.Forall₂ EdrRow.Records db.ordered events) (jobId : String) :
    List.Forall₂ EdrRow.Records (db.rowsOf jobId) (eventsOf jobId events) := by
  refine List.rel_filter (fun row event hrecords => ?_) h
  simp only [decide_eq_true_eq, hrecords.jobId]

/-- The events of a journal have different ids. -/
theorem nodup_of_records {db : EdrDb Object} {events : List Event}
    (h : List.Forall₂ EdrRow.Records db.ordered events) :
    (events.map Event.eventId).Nodup := by
  have hids : db.ordered.map EdrRow.eventId = events.map Event.eventId := by
    rw [← List.forall₂_eq_eq_eq, List.forall₂_map_left_iff, List.forall₂_map_right_iff]
    exact h.imp fun _ _ hrecords => hrecords.eventId
  rw [← hids]
  exact ((List.perm_insertionSort EdrRow.Before _).map EdrRow.eventId).nodup_iff.2
    db.edrEvents.nodup

/-- **The projection of the rows of a job is the reduction of its events.** -/
theorem rebuild_of_records {rows : List (EdrRow Object)} {events : List Event} {jobId : String}
    {projection : Projection} (h : List.Forall₂ EdrRow.Records rows events)
    (henc : ∀ event ∈ events, event.Encodable) (hnodup : (events.map Event.eventId).Nodup)
    (hjob : ∀ event ∈ events, event.jobId = jobId)
    (hrebuild : rebuild eventFromRow jobId rows = .ok projection) :
    reduceAll none (events.map Event.wired) = some projection.snapshot ∧
      projection.snapshot.dataAsOf = some projection.dataAsOf ∧
      projection.response =
        ({} : VisibilityConfig).response projection.snapshot projection.dataAsOf := by
  have hids : ((events.map Event.wired).map Event.eventId).Nodup := by
    rwa [List.map_map]
  obtain ⟨engine, happly, hconfig, hjobs⟩ :=
    @VisibilityEngine.applyAll_ok {} (events.map Event.wired) hids fun _ _ => List.not_mem_nil
  obtain ⟨engine', hreplay, hsnapshot, htime, hget⟩ := replay_of_rebuild hrebuild
  obtain rfl : engine = engine' :=
    Except.ok.inj ((EdrRow.Records.replay h henc happly).symm.trans hreplay)
  have hall : eventsOf jobId (events.map Event.wired) = events.map Event.wired := by
    refine List.filter_eq_self.2 fun event hevent => ?_
    obtain ⟨original, horiginal, rfl⟩ := List.mem_map.1 hevent
    exact decide_eq_true (hjob original horiginal)
  refine ⟨?_, htime, ?_⟩
  · rw [← hsnapshot, hjobs, hall]
    rfl
  · obtain ⟨job, hfind, hresponse⟩ := VisibilityEngine.get_eq_ok_iff.1 hget
    obtain rfl : projection.snapshot = job := Option.some.inj (hsnapshot.symm.trans hfind)
    rw [← hresponse, hconfig]

/-! ### What the tables show -/

/-- The reduction of the events of a job is a projection of it. -/
theorem jobId_of_reduceAll {jobId : String} {events : List Event} {job : JobVisibility}
    (h : reduceAll none (eventsOf jobId events) = some job) : job.jobId = jobId := by
  refine @forall_reduceAll (fun job => job.jobId = jobId) (eventsOf jobId events) ?_ none
    (fun _ hnone => nomatch hnone) job h
  intro event hevent current hcurrent
  rw [reduceEvent_jobId]
  cases current with
  | none => exact of_decide_eq_true (List.mem_filter.1 hevent).2
  | some job => exact hcurrent job rfl

/-- The scheduled time of a projection is as those of its events are. -/
theorem forall_scheduledAt_of_reduceAll {P : Datetime → Prop} {events : List Event}
    {job : JobVisibility} (h : reduceAll none events = some job)
    (hevents : ∀ event ∈ events, ∀ t ∈ event.scheduledAt, P t) : ∀ t ∈ job.scheduledAt, P t := by
  refine @forall_reduceAll (fun job => ∀ t ∈ job.scheduledAt, P t) events ?_ none
    (fun _ hnone => nomatch hnone) job h
  intro event hevent current hcurrent t ht
  rcases scheduledAt_reduceEvent ht with hkept | hnew
  · cases current with
    | none => cases hkept
    | some job => exact hcurrent job rfl t hkept
  · exact hevents event hevent t hnew

/-- The events of a job, as far as the format can express them. -/
theorem eventsOf_wired (jobId : String) (events : List Event) :
    eventsOf jobId (events.map Event.wired) = (eventsOf jobId events).map Event.wired :=
  List.filter_map

namespace Projectors

/-- **What the tables show once no row is pending**: each job as the reduction of its events, as
far as the wire format can express them. -/
theorem showsJobs_of_reach {w : World Object} {events : List Event}
    (h : (machine eventFromRow).Reach (Alone eventFromRow) w) (hpending : w.db.pending = [])
    (hrecords : List.Forall₂ EdrRow.Records w.db.ordered events)
    (henc : ∀ event ∈ events, event.Encodable) :
    w.db.tables.ShowsJobs fun jobId => reduceAll none ((eventsOf jobId events).map Event.wired)
      where
  rows := by
    intro jobId
    obtain ⟨basis, htracks⟩ := tracks_of_reach h
    obtain rfl := htracks.basis_eq hpending
    rw [(htracks.shows.shows jobId).visibility]
    have hrows := records_rowsOf hrecords jobId
    by_cases hempty : w.db.rowsOf jobId = []
    · rw [hempty, List.forall₂_nil_left_iff] at hrows
      rw [hempty, hrows]
      rfl
    · obtain ⟨projection, hrebuild, -⟩ := htracks.rebuilt jobId hempty
      have hall : (eventsOf jobId events).Sublist events := List.filter_sublist
      obtain ⟨hreduce, htime, hresponse⟩ := rebuild_of_records hrows
        (fun event hevent => henc event (hall.subset hevent))
        ((nodup_of_records hrecords).sublist (hall.map Event.eventId))
        (fun event hevent => of_decide_eq_true (List.mem_filter.1 hevent).2) hrebuild
      have hjob : projection.snapshot.jobId = jobId :=
        jobId_of_reduceAll ((congrArg (reduceAll none) (eventsOf_wired jobId events)).trans hreduce)
      rw [JobTables.of_rebuild hrebuild, hreduce, Option.bind_some, JobVisibility.stored, htime]
      simp only [Projection.jobTables, Projection.visibilityRow, Option.map_some,
        JobVisibility.storedAt, hjob, hresponse]
  jobIds := fun jobId job hjob =>
    jobId_of_reduceAll ((congrArg (reduceAll none) (eventsOf_wired jobId events)).trans hjob)
  inRange := by
    intro jobId job hjob
    refine forall_scheduledAt_of_reduceAll hjob fun event hevent => ?_
    obtain ⟨original, horiginal, rfl⟩ := List.mem_map.1 hevent
    exact (henc original (List.mem_of_mem_filter horiginal)).scheduledAt

end Projectors

end ScheduledJobs
