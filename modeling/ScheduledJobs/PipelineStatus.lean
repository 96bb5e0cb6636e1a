/-
**A final status that is shown is the status of the job.**

Several projectors may run at the same time and overtake each other, the sink may deliver events out
of order and again, and the tables may show a job as it was long ago.  They never show a job as
finished in another way than it is: a final status in the tables, recorded or derived, is the status
of the row in the scheduler.  And whatever order the events came in, once they are all in the
journal a rebuild goes through and shows the jobs that have succeeded; so the pipeline can always be
drained to show them.

Main definitions:

* `Projectors.Shown` — a visibility row is the projection of some journal rows of its job;
* `Pipeline.Read` — a response that is read for a job.

Main results:

* `Projectors.shown_of_reachable` — what the tables hold, whatever the projectors do;
* `Pipeline.final_status` — **a final status that is read is that of the job**;
* `Pipeline.exists_rebuildAll_succeeded` — a rebuild goes through, and shows the successes;
* `Pipeline.success_visible` — **all successes can always be made visible**, by draining the
  pipeline and rebuilding the projections;
* `Pipeline.success_shown` — **a success shows without a rebuild**, if the job had still to be
  projected and no commit is stale.
-/

import ScheduledJobs.ConcurrentProjectors
import ScheduledJobs.DurableAgreement
import ScheduledJobs.PipelineProgress
import ScheduledJobs.RebuildRepairs

set_option relaxedAutoImplicit false
set_option autoImplicit false

namespace ScheduledJobs

open Json

/-! ### What the tables hold -/

namespace Projectors

variable {Payload : Type} {decode : Payload → Except WireError Event} {w w' : World Payload}

/-- The visibility row is the projection of some journal rows of its job. -/
def Shown (decode : Payload → Except WireError Event) (journal : List (EdrRow Payload))
    (jobId : String) (row : JobVisibilityRow) : Prop :=
  ∃ rows projection, JobRows journal jobId rows ∧ rebuild decode jobId rows = .ok projection ∧
    row = projection.visibilityRow jobId

/-- Every visibility row is one. -/
def World.ShowsRows (decode : Payload → Except WireError Event) (w : World Payload) : Prop :=
  ∀ jobId row, w.db.tables.jobVisibility.find? jobId = some row →
    Shown decode w.db.edrEvents.rows jobId row

/-- **What one step preserves**, be it a stale commit. -/
theorem World.ShowsRows.next {l : Label Payload} (h : w.ShowsRows decode) (hsound : w.Sound decode)
    (hn : w.next decode l = some w') : w'.ShowsRows decode := by
  have hsame : w'.db = w.db → w'.ShowsRows decode := fun hdb => by
    unfold World.ShowsRows
    rw [hdb]
    exact h
  rcases World.next_cases hn with ⟨row, -, -, hrows, htables, -⟩ | ⟨_, _, -, -, hdb, -⟩ |
    ⟨_, _, _, _, -, -, -, -, -, hdb, -⟩ | ⟨_, _, _, _, -, -, -, -, hdb, -⟩ |
    ⟨txn, tables, -, hmem, hstatements, -, hview, hdb, -⟩ | ⟨worker, rfl⟩
  · intro jobId shown hshown
    rw [htables] at hshown
    obtain ⟨rows, projection, hjobRows, hrebuild⟩ := h jobId shown hshown
    refine ⟨rows, projection, hjobRows.mono fun other hother => ?_, hrebuild⟩
    rw [hrows]
    exact List.mem_append_left _ hother
  · exact hsame hdb
  · exact hsame hdb
  · exact hsame hdb
  · have hcommitted := hsound.committed hmem hstatements hview
    intro jobId shown hshown
    rw [hdb] at hshown ⊢
    cases hlast : lastLoad txn.loads jobId with
    | none =>
        rw [(hcommitted.untouched jobId hlast).1] at hshown
        exact h jobId shown hshown
    | some load =>
        obtain ⟨hload, rfl⟩ := mem_of_lastLoad hlast
        rw [(hcommitted.last _ load hlast).1] at hshown
        exact ⟨load.rows, load.projection, (hsound txn hmem).rows load hload,
          (hsound txn hmem).rebuilt load hload, (Option.some_inj.1 hshown).symm⟩
  · exact hsame rfl

/-- **A visibility row is the projection of some journal rows of its job**, whatever the projectors
do. -/
theorem shown_of_reachable (h : (machine decode).Reachable w) : w.ShowsRows decode := by
  induction h with
  | start => exact fun _ _ hnone => nomatch hnone
  | step hs _ hn ih => exact ih.next (sound_of_reachable hs) hn

end Projectors

/-! ### Final statuses over time -/

/-- Time makes no status final, and keeps those that are. -/
theorem VisibilityConfig.derivedStatus_eq_iff_of_isTerminal {config : VisibilityConfig}
    {job : JobVisibility} {t : Datetime} {status : Status} (h : status.isTerminal = true) :
    config.derivedStatus job t = status ↔ job.recordedStatus = status := by
  by_cases hstatus : job.recordedStatus = status
  · refine iff_of_true ?_ hstatus
    rw [← hstatus, derivedStatus_eq_recordedStatus_iff]
    refine ⟨Bool.eq_false_iff.2 fun hoverdue => ?_, fun hdue => ?_⟩
    · rcases recordedStatus_of_isOverdue hoverdue with hother | hother <;>
        simp [← hstatus, hother, Status.isTerminal] at h
    · simp [← hstatus, hdue.1, Status.isTerminal] at h
  · rw [derivedStatus_eq_iff_of_ne hstatus, iff_false_right hstatus]
    rintro (⟨rfl, -⟩ | ⟨rfl, -⟩)
    · cases h
    · cases h

/-! ### A rebuild -/

namespace Pipeline

variable {Payload : Type} [DecidableEq Payload] {service : SchedulerService}
  {publishers : ℕ → OutboxPublisher} {batchSize : ℕ} {w w' : World Payload}

/-- The tables that show a job as the projection of all its rows show that it has succeeded. -/
theorem get_of_succeeded (h : (machine service publishers).Reachable w) {jobId : String}
    {row : JobRow Payload} (hrow : w.scheduler.db.jobs.find? jobId = some row)
    (hstatus : row.status = .succeeded)
    (hdelivered : ∀ event ∈ eventsOf jobId w.scheduler.db.events,
      event.eventId ∈ w.projectors.db.eventIds) {db : EdrDb Object}
    (hreflects : db.Reflects eventFromRow jobId (w.projectors.db.rowsOf jobId)) :
    ∃ response, DurableVisibilityReader.get db.tables jobId = .ok response ∧
      response.status = Status.succeeded.value := by
  obtain ⟨projection, hrebuild, hvisibility, -⟩ := EdrDb.reflects_iff.1 hreflects
  obtain ⟨events, hrecords, hevents, hreduce, -, hresponse⟩ :=
    snapshot_of_rebuild h (Projectors.jobRows_rowsOf w.projectors.db jobId) hrebuild
  have hsucceeded := succeeded_of_reduceAll (scheduler_reach h).reachable hrow hstatus
    (mem_events_of_delivered h hrecords hevents hdelivered) hreduce
  refine ⟨projection.response, ?_, ?_⟩
  · rw [DurableVisibilityReader.get, hvisibility]
    rfl
  · rw [hresponse]
    exact congrArg Status.value
      ((VisibilityConfig.derivedStatus_eq_iff_of_isTerminal rfl).2 hsucceeded)

/-- **A rebuild goes through, and shows the successes**: of every job all of whose events are in the
journal, whatever the order they came in. -/
theorem exists_rebuildAll_succeeded (h : (machine service publishers).Reachable w)
    (runtime : Mixed.Runtime) {columns : Mixed.Columns} (hcolumns : columns.TakesPublished)
    (hreadable : w.Readable columns) :
    ∃ db n, w.projectors.db.rebuildAll (Mixed.reading runtime Mixed.eventFromRow columns) =
        .ok (db, n) ∧
      ∀ jobId row, w.scheduler.db.jobs.find? jobId = some row → row.status = .succeeded →
        (∀ event ∈ eventsOf jobId w.scheduler.db.events,
          event.eventId ∈ w.projectors.db.eventIds) →
        ∃ response, DurableVisibilityReader.get db.tables jobId = .ok response ∧
          response.status = Status.succeeded.value := by
  have hread : ∀ row ∈ w.projectors.db.edrEvents.rows,
      (Mixed.reading runtime Mixed.eventFromRow columns).read row.jobId
          (w.projectors.db.rowsOf row.jobId) =
        (Reading.ofDecoder eventFromRow).read row.jobId (w.projectors.db.rowsOf row.jobId) :=
    fun row hrow => read_eq h runtime hcolumns hreadable (Projectors.jobRows_rowsOf _ row.jobId)
      (List.ne_nil_of_mem (EdrDb.mem_rowsOf.2 ⟨hrow, rfl⟩))
  obtain ⟨db, n, hrebuildAll⟩ := EdrDb.exists_rebuildAll_iff.2 fun row hrow =>
    (EdrDb.rebuilds_iff_of_read_eq (hread row hrow)).2 (rebuilds h ⟨row, hrow, rfl⟩)
  refine ⟨db, n, hrebuildAll, fun jobId row hrow hstatus hdelivered => ?_⟩
  obtain ⟨success, hsuccess, -⟩ :=
    exists_success (scheduler_reach h).reachable jobId row hrow hstatus
  obtain ⟨journalRow, hjournal, -, rfl⟩ :=
    exists_row_of_delivered h hsuccess (hdelivered success hsuccess)
  exact get_of_succeeded h hrow hstatus hdelivered
    ((EdrDb.reflects_iff_of_read_eq (hread journalRow hjournal)).1
      ((EdrDb.afterRebuildAll hrebuildAll).rebuilt journalRow hjournal))

/-! ### What is read -/

/-- The response is read for the job: with its id, or by a search. -/
def Read (tables : ProjectionTables) (jobId : String) (response : JobResponse) : Prop :=
  DurableVisibilityReader.get tables jobId = .ok response ∨
    response.jobId = jobId ∧ ∃ status correlationId,
      response ∈ DurableVisibilityReader.search tables status correlationId

/-- What is read is the response of a projection of journal rows of the job. -/
theorem exists_rebuild_of_read (h : (machine service publishers).Reachable w) {jobId : String}
    {response : JobResponse} (hread : Read w.projectors.db.tables jobId response) :
    ∃ rows projection, Projectors.JobRows w.projectors.db.edrEvents.rows jobId rows ∧
      rebuild eventFromRow jobId rows = .ok projection ∧ response = projection.response := by
  have hshown := Projectors.shown_of_reachable (projectors_reachable h)
  rcases hread with hget | ⟨hjob, status, correlationId, hsearch⟩
  · unfold DurableVisibilityReader.get at hget
    split at hget
    · next row hrow =>
        obtain ⟨rows, projection, hrows, hrebuild, rfl⟩ := hshown jobId row hrow
        exact ⟨rows, projection, hrows, hrebuild, (Except.ok.inj hget).symm⟩
    · cases hget
  · obtain ⟨row, hrow, rfl⟩ := List.mem_map.1 hsearch
    rw [List.mem_insertionSort] at hrow
    obtain ⟨rows, projection, hrows, hrebuild, hshownRow⟩ :=
      hshown row.jobId row (Table.find?_of_mem (List.mem_of_mem_filter hrow))
    have hsame : row.projection = projection.response := by rw [hshownRow]; rfl
    obtain ⟨-, -, -, -, hid, hresponse⟩ := snapshot_of_rebuild h hrows hrebuild
    -- the id in the response is that of the row
    have hjobId : row.jobId = jobId := by
      rw [← hjob, hsame, hresponse]
      exact hid.symm
    rw [hjobId] at hrows hrebuild
    exact ⟨rows, projection, hrows, hrebuild, hsame⟩

/-- **A final status that is read is that of the job**: whatever the scheduler, the publishers, the
sink and the projectors have done, in whatever order. -/
theorem final_status (h : (machine service publishers).Reachable w) {jobId : String}
    {response : JobResponse} (hread : Read w.projectors.db.tables jobId response) {status : Status}
    (hfinal : status.isTerminal = true)
    (hstatus : response.status = status.value ∨ response.recordedStatus = status.value) :
    ∃ row, w.scheduler.db.jobs.find? jobId = some row ∧ row.status.isFinal = true ∧
      row.status.value = status.value := by
  obtain ⟨rows, projection, hrows, hrebuild, rfl⟩ := exists_rebuild_of_read h hread
  obtain ⟨events, -, hevents, hreduce, -, hresponse⟩ := snapshot_of_rebuild h hrows hrebuild
  have hrecorded : projection.snapshot.recordedStatus = status := by
    rw [hresponse] at hstatus
    rcases hstatus with hderived | hrecorded
    · exact (VisibilityConfig.derivedStatus_eq_iff_of_isTerminal hfinal).1
        (Status.value_injective hderived)
    · exact Status.value_injective hrecorded
  rw [← hrecorded] at hfinal ⊢
  exact status_of_reduceAll (scheduler_reach h).reachable hevents hreduce hfinal

/-- The success of a job is read. -/
theorem final_status_acknowledgedRun :
    ∃ w : World String, (machine defaultService fun _ => onePublisher).Reachable w ∧
      ∃ response, Read w.projectors.db.tables "job-1" response ∧ response.status = "SUCCEEDED" ∧
        ∃ row, w.scheduler.db.jobs.find? "job-1" = some row ∧ row.status.isFinal = true ∧
          row.status.value = Status.succeeded.value := by
  obtain ⟨start, row, hstart, hroom, hprojected, -, hrow, hstatus, -⟩ := exists_succeeded
  obtain ⟨w, hleads, hscheduler, hdrained, hreflects⟩ :=
    leads_drained hstart (fun _ => by decide) (Nat.zero_lt_succ 499) hroom
  have hw := hleads.reachable hstart
  rw [← hscheduler] at hrow
  have hdelivered := hdrained.delivered hw "job-1"
  obtain ⟨event, hevent, -⟩ :=
    exists_success (scheduler_reach hw).reachable "job-1" row hrow hstatus
  obtain ⟨journalRow, hjournal, -, hjob⟩ :=
    exists_row_of_delivered hw hevent (hdelivered event hevent)
  have hshown := hreflects journalRow hjournal fun hmarked => by
    rw [EdrDb.Marked, Table.find?, hprojected] at hmarked
    cases hmarked
  rw [hjob] at hshown
  obtain ⟨response, hget, hresponse⟩ := get_of_succeeded hw hrow hstatus hdelivered hshown
  exact ⟨w, hw, response, Or.inl hget, hresponse,
    final_status hw (Or.inl hget) rfl (Or.inl hresponse)⟩

/-! ### Successes -/

/-- **All successes can always be made visible**: the pipeline can be drained, and a rebuild goes
through then and shows every job that has succeeded. -/
theorem success_visible (h : (machine service publishers).Reachable w)
    (hpublishers : ∀ n, 0 < (publishers n).batchSize) (hprojectors : 0 < batchSize)
    (hroom : w.Room) (runtime : Mixed.Runtime) {columns : Mixed.Columns}
    (hcolumns : columns.TakesPublished) (hreadable : w.Readable columns) :
    ∃ w', (machine service publishers).Leads
        (fun t l => Recovers batchSize t l ∧ t.ReadsInstants runtime columns) w w' ∧
      w'.scheduler = w.scheduler ∧ w'.Drained ∧
      ∃ db n, w'.projectors.db.rebuildAll (Mixed.reading runtime Mixed.eventFromRow columns) =
          .ok (db, n) ∧
        ∀ jobId row, w.scheduler.db.jobs.find? jobId = some row → row.status = .succeeded →
          ∃ response, DurableVisibilityReader.get db.tables jobId = .ok response ∧
            response.status = Status.succeeded.value := by
  obtain ⟨w', hleads, hscheduler, hdrained, -⟩ := leads_drained h hpublishers hprojectors hroom
  have hreachable := hleads.reachable h
  obtain ⟨db, n, hrebuildAll, hshown⟩ := exists_rebuildAll_succeeded hreachable runtime hcolumns
    ⟨hscheduler ▸ hreadable.events, hscheduler ▸ hreadable.count⟩
  exact ⟨w', leads_readsInstants h hleads runtime hcolumns hreadable, hscheduler, hdrained, db, n,
    hrebuildAll, fun jobId row hrow hstatus =>
      hshown jobId row (hscheduler ▸ hrow) hstatus (hdrained.delivered hreachable jobId)⟩

/-- The success of a job, most of whose events are not published yet. -/
theorem success_visible_acknowledgedRun :
    ∃ w w' : World String, (machine defaultService fun _ => onePublisher).Reachable w ∧
      (machine defaultService fun _ => onePublisher).Leads (fun t l => Recovers 500 t l ∧
        t.ReadsInstants Mixed.utcRuntime Mixed.postgres) w w' ∧
      w'.scheduler = w.scheduler ∧ w'.Drained ∧
      ∃ db n, w'.projectors.db.rebuildAll
            (Mixed.reading Mixed.utcRuntime Mixed.eventFromRow Mixed.postgres) = .ok (db, n) ∧
        ∃ response, DurableVisibilityReader.get db.tables "job-1" = .ok response ∧
          response.status = "SUCCEEDED" := by
  obtain ⟨w, row, hw, hroom, -, -, hrow, hstatus, hreadable⟩ := exists_succeeded
  obtain ⟨w', hleads, hscheduler, hdrained, db, n, hrebuildAll, hshown⟩ :=
    success_visible hw (fun _ => by decide) (Nat.zero_lt_succ 499) hroom Mixed.utcRuntime
      takesPublished_postgres hreadable
  exact ⟨w, w', hw, hleads, hscheduler, hdrained, db, n, hrebuildAll,
    hshown "job-1" row hrow hstatus⟩

/-- The projectors, from a reachable state on, without a stale commit: once the row of an event that
was not marked is marked, its job is shown with every row that is. -/
theorem caught_of_leads (h : (machine service publishers).Reachable w) {eventId : String}
    (hnone : w.projectors.db.tables.projectedEvents.find? eventId = none)
    (hleads : (machine service publishers).Leads NoStaleCommit w w') :
    w'.projectors.Caught eventFromRow eventId := by
  refine hleads.invariant (I := fun w => w.projectors.Caught eventFromRow eventId) h ?_
    fun t l u ht hcaught hfresh hn => ?_
  · intro row _ hid hmarked
    unfold EdrDb.Marked at hmarked
    rw [hid, hnone] at hmarked
    cases hmarked
  · have hprojectors := projectors_reachable ht
    have hsound := Projectors.sound_of_reachable hprojectors
    have hmarks := Projectors.marks_of_reachable hprojectors
    rcases projectors_of_next ht hn with hsame | ⟨row, hnext⟩ | ⟨step, rfl, hnext⟩
    · exact hsame ▸ hcaught
    · exact hcaught.next hsound hmarks (l := .arrive row) trivial hnext
    · exact hcaught.next hsound hmarks hfresh hnext

/-- **A success shows once the pipeline is drained**, if an event of the job was not projected at
some time, and no commit was stale from then on: no rebuild is needed. -/
theorem success_shown (h : (machine service publishers).Reachable w)
    (hleads : (machine service publishers).Leads NoStaleCommit w w') (hdrained : w'.Drained)
    {jobId : String} {row : JobRow Payload}
    (hrow : w'.scheduler.db.jobs.find? jobId = some row) (hstatus : row.status = .succeeded)
    (hfresh : ∃ event ∈ eventsOf jobId w'.scheduler.db.events,
      w.projectors.db.tables.projectedEvents.find? event.eventId = none) :
    ∃ response, DurableVisibilityReader.get w'.projectors.db.tables jobId = .ok response ∧
      response.status = Status.succeeded.value := by
  have hreachable := hleads.reachable h
  have hdelivered := hdrained.delivered hreachable jobId
  obtain ⟨event, hevent, hnone⟩ := hfresh
  obtain ⟨journalRow, hjournal, hrecord, rfl⟩ :=
    exists_row_of_delivered hreachable hevent (hdelivered event hevent)
  have hmarked : ∀ other ∈ w'.projectors.db.edrEvents.rows, w'.projectors.db.Marked other := by
    intro other hother
    by_contra hpending
    have hmem := EdrDb.mem_pending.2 ⟨hother, hpending⟩
    rw [hdrained.pending] at hmem
    cases hmem
  obtain ⟨rows, htracked⟩ := caught_of_leads h hnone hleads journalRow hjournal hrecord.eventId
    (hmarked journalRow hjournal)
  rcases htracked.holds_of_marked fun other hother => hmarked other (EdrDb.mem_rowsOf.1 hother).1
    with ⟨hempty, -⟩ | hreflects
  · have hown := EdrDb.mem_rowsOf.2 ⟨hjournal, rfl⟩
    rw [hempty] at hown
    cases hown
  · exact get_of_succeeded hreachable hrow hstatus hdelivered hreflects

/-- The success of a job of which nothing is projected yet. -/
theorem success_shown_acknowledgedRun :
    ∃ w w' : World String, (machine defaultService fun _ => onePublisher).Reachable w ∧
      (machine defaultService fun _ => onePublisher).Leads NoStaleCommit w w' ∧ w'.Drained ∧
      ∃ response, DurableVisibilityReader.get w'.projectors.db.tables "job-1" = .ok response ∧
        response.status = "SUCCEEDED" := by
  obtain ⟨w, row, hw, hroom, hprojected, -, hrow, hstatus, -⟩ := exists_succeeded
  obtain ⟨event, hevent, -⟩ :=
    exists_success (scheduler_reach hw).reachable "job-1" row hrow hstatus
  obtain ⟨w', hleads, hscheduler, hdrained, -⟩ :=
    leads_drained hw (fun _ => by decide) (Nat.zero_lt_succ 499) hroom
  have hfresh := hleads.mono fun _ _ hrecovers => hrecovers.2
  exact ⟨w, w', hw, hfresh, hdrained, success_shown hw hfresh hdrained (hscheduler ▸ hrow) hstatus
    ⟨event, hscheduler ▸ hevent, by rw [Table.find?, hprojected]; rfl⟩⟩

end Pipeline

end ScheduledJobs
