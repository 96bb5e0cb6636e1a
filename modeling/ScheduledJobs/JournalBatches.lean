/-
**One bad journal row, and the jobs behind it.**

A `run_once` is one transaction over the first rows that are pending.  A row whose job cannot be
rebuilt raises, everything is rolled back, and the next `run_once` meets the same rows in the same
order: whatever stands in that batch or behind it is never projected, whichever job it is of.

Main definitions:

* `EdrDb.afterRuns` — the database after repeated `run_once` calls;
* `EdrDb.Unblocked` — what is promised: in the end the pending rows of a job that decodes are
  projected;
* `EdrDb.reached` — **how many pending rows are ever projected**.

Main results:

* `EdrDb.pending_afterRuns` — what is pending after any number of calls;
* `EdrDb.unblocked_iff_reached` — the promise is kept exactly when no row of a job that decodes lies
  further back, whatever is read off the rows;
* `Mixed.unblocked_iff` — **so it is for the rows that `_project_job` reads**.
-/

import ScheduledJobs.Batches
import ScheduledJobs.MixedReading

set_option relaxedAutoImplicit false
set_option autoImplicit false

namespace ScheduledJobs

namespace EdrDb

variable {Payload : Type} {reading : Reading Payload} {n : ℕ} {db db' : EdrDb Payload}

/-! ### Repeated calls -/

/-- The database after a `run_once`, whose exception rolls everything back. -/
def afterRun (reading : Reading Payload) (n : ℕ) (db : EdrDb Payload) :
    EdrDb Payload :=
  match db.runOnce reading n with
  | .ok (db', _) => db'
  | .error _ => db

/-- The database after repeated `run_once` calls. -/
def afterRuns (reading : Reading Payload) (n k : ℕ) (db : EdrDb Payload) :
    EdrDb Payload := (afterRun reading n)^[k] db

/-- The rows of the job all decode. -/
def Decodes {α : Type} (decode : Payload → Except WireError α) (db : EdrDb Payload)
    (jobId : String) : Prop := ∀ row ∈ db.rowsOf jobId, (decode row.canonicalPayload).isOk = true

instance {α : Type} (decode : Payload → Except WireError α) (jobId : String) :
    Decidable (db.Decodes decode jobId) :=
  inferInstanceAs (Decidable (∀ row ∈ db.rowsOf jobId, _))

/-- **One bad row does not block other jobs**: after some number of `run_once` calls, each pending
row of a job all of whose rows decode is marked and its job projected, and this stays so. -/
def Unblocked {α : Type} (reading : Reading Payload) (decode : Payload → Except WireError α)
    (n : ℕ) (db : EdrDb Payload) : Prop :=
  ∃ k, ∀ k' ≥ k, ∀ row ∈ db.pending, db.Decodes decode row.jobId →
    (db.afterRuns reading n k').Marked row ∧
      (db.afterRuns reading n k').Reflects reading row.jobId (db.rowsOf row.jobId)

/-- **How many pending rows are ever projected**: all of them, or those before the last batch
boundary that precedes the first row whose job cannot be rebuilt. -/
def reached (reading : Reading Payload) (n : ℕ) (db : EdrDb Payload) : ℕ :=
  Batches.reached (fun row => db.Rebuilds reading row.jobId) n db.pending

/-! ### One batch -/

/-- What the projection of some rows leaves in the database. -/
structure AfterRows (reading : Reading Payload) (db db' : EdrDb Payload)
    (rows : List (EdrRow Payload)) : Prop where
  edrEvents : db'.edrEvents = db.edrEvents
  marked : ∀ other, db'.Marked other ↔
    db.Marked other ∨ ∃ row ∈ rows, other.eventId = row.eventId
  reflects : ∀ row ∈ rows, db'.Reflects reading row.jobId (db.rowsOf row.jobId)
  kept : ∀ jobId, db.Reflects reading jobId (db.rowsOf jobId) →
    db'.Reflects reading jobId (db.rowsOf jobId)

/-- The projection of a row keeps the projections that are up to date. -/
theorem kept_of_projectJob {jobId : String} (h : db.projectJob reading jobId = .ok db')
    {jobId' : String} (hreflects : db.Reflects reading jobId' (db.rowsOf jobId')) :
    db'.Reflects reading jobId' (db.rowsOf jobId') := by
  have hafter := afterProjectJob h
  by_cases hjob : jobId' = jobId
  · subst hjob
    exact hafter.reflects
  · exact hafter.others jobId' hjob _ hreflects

/-- Several rows are projected when the job of each can be rebuilt. -/
theorem afterRows_of_foldlM {rows : List (EdrRow Payload)}
    (h : rows.foldlM (fun db row => db.projectRow reading row) db = .ok db') :
    AfterRows reading db db' rows := by
  induction rows generalizing db with
  | nil =>
      cases h
      exact ⟨rfl, fun _ => by simp, fun _ hrow => by simp at hrow, fun _ hkept => hkept⟩
  | cons row rows ih =>
      obtain ⟨next, hnext, hrest⟩ := Except.bind_eq_ok_iff.1 h
      obtain ⟨db₁, hjob, rfl⟩ := projectRow_eq_ok_iff.1 hnext
      have hafter := afterProjectJob hjob
      have hrows : ∀ jobId, (db₁.mark row).rowsOf jobId = db.rowsOf jobId :=
        fun jobId => rowsOf_congr hafter.edrEvents jobId
      have hmarked : ∀ other, db₁.Marked other ↔ db.Marked other := fun other => by
        unfold Marked
        rw [hafter.projectedEvents]
      obtain ⟨hevents, hmark, hreflects, hkept⟩ := ih hrest
      refine ⟨hevents.trans hafter.edrEvents, fun other => ?_, fun other hother => ?_,
        fun jobId hold => ?_⟩
      · rw [hmark, marked_mark, hmarked, or_assoc]
        simp
      · rcases List.mem_cons.1 hother with rfl | hother
        · have hown := hkept other.jobId (by rw [hrows]; exact hafter.reflects)
          rwa [hrows] at hown
        · have hother' := hreflects other hother
          rwa [hrows] at hother'
      · have hjobs := hkept jobId (by rw [hrows]; exact kept_of_projectJob hjob hold)
        rwa [hrows] at hjobs

theorem exists_foldlM_projectRow {rows : List (EdrRow Payload)} :
    (∃ db', rows.foldlM (fun db row => db.projectRow reading row) db = .ok db') ↔
      ∀ row ∈ rows, db.Rebuilds reading row.jobId := by
  induction rows generalizing db with
  | nil => exact iff_of_true ⟨_, rfl⟩ (by simp)
  | cons row rows ih =>
      simp only [List.foldlM_cons, Except.bind_eq_ok_iff, List.forall_mem_cons]
      have hcongr : ∀ {next}, db.projectRow reading row = .ok next → ∀ other : EdrRow Payload,
          next.Rebuilds reading other.jobId ↔ db.Rebuilds reading other.jobId := by
        intro next hnext other
        obtain ⟨db₁, hjob, rfl⟩ := projectRow_eq_ok_iff.1 hnext
        exact rebuilds_congr (afterProjectJob hjob).edrEvents _
      constructor
      · rintro ⟨db', next, hnext, hrest⟩
        refine ⟨exists_projectRow.1 ⟨next, hnext⟩, fun other hother => ?_⟩
        exact (hcongr hnext other).1 (ih.1 ⟨db', hrest⟩ other hother)
      · rintro ⟨hrow, hrows⟩
        obtain ⟨next, hnext⟩ := exists_projectRow.2 hrow
        obtain ⟨db', hrest⟩ := ih.2 fun other hother => (hcongr hnext other).2 (hrows other hother)
        exact ⟨db', next, hnext, hrest⟩

/-- The rows that are pending have pairwise distinct ids. -/
theorem nodup_pending (db : EdrDb Payload) : (db.pending.map EdrRow.eventId).Nodup := by
  have hperm := (List.perm_insertionSort EdrRow.Before db.edrEvents.rows).map EdrRow.eventId
  have hordered : (db.ordered.map EdrRow.eventId).Nodup := hperm.nodup_iff.2 db.edrEvents.nodup
  exact hordered.sublist (List.filter_sublist.map EdrRow.eventId)

/-- Without repeated keys, what has no key of the first part is the second part. -/
theorem filter_append_of_nodup {α κ : Type} [DecidableEq κ] {key : α → κ} {done rest : List α}
    (h : ((done ++ rest).map key).Nodup) :
    ((done ++ rest).filter fun x => ∀ y ∈ done, key x ≠ key y) = rest := by
  rw [List.map_append, List.nodup_append] at h
  rw [List.filter_append, List.filter_eq_nil_iff.2, List.filter_eq_self.2, List.nil_append]
  · intro x hx
    rw [decide_eq_true_iff]
    intro y hy heq
    exact h.2.2 _ (List.mem_map_of_mem hy) _ (List.mem_map_of_mem hx) heq.symm
  · intro x hx hall
    exact of_decide_eq_true hall x hx rfl

/-- Once the first rows are projected, the others are pending. -/
theorem AfterRows.pending (h : AfterRows reading db db' (db.pending.take n)) :
    db'.pending = db.pending.drop n := by
  have hordered : db'.ordered = db.ordered := by
    unfold ordered
    rw [h.edrEvents]
  have hfilter : db'.pending = db.pending.filter fun row =>
      ∀ done ∈ db.pending.take n, row.eventId ≠ done.eventId := by
    rw [EdrDb.pending, EdrDb.pending, hordered, List.filter_filter]
    refine List.filter_congr fun row _ => ?_
    rw [Bool.eq_iff_iff, Bool.and_eq_true, decide_eq_true_iff, decide_eq_true_iff,
      decide_eq_true_iff, h.marked]
    push Not
    exact and_comm
  have hsplit := List.take_append_drop n db.pending
  have hnodup := db.nodup_pending
  rw [← hsplit] at hnodup
  rw [hfilter]
  exact (congrArg (List.filter _) hsplit.symm).trans (filter_append_of_nodup hnodup)

/-- What one `run_once` leaves, committed or rolled back. -/
structure AfterRun (reading : Reading Payload) (n : ℕ) (db db' : EdrDb Payload) :
    Prop where
  edrEvents : db'.edrEvents = db.edrEvents
  pending : db'.pending = Batches.next (fun row => db.Rebuilds reading row.jobId) n db.pending
  reflects : ∀ row ∈ db.pending, row ∉ db'.pending →
    db'.Reflects reading row.jobId (db.rowsOf row.jobId)
  kept : ∀ jobId, db.Reflects reading jobId (db.rowsOf jobId) →
    db'.Reflects reading jobId (db.rowsOf jobId)

theorem afterRun_eq (n : ℕ) (db : EdrDb Payload) : db.afterRun reading n =
    match (db.pending.take n).foldlM (fun db row => db.projectRow reading row) db with
    | .ok db' => db'
    | .error _ => db := by
  simp only [afterRun, runOnce]
  cases (db.pending.take n).foldlM (fun db row => db.projectRow reading row) db with
  | ok db' => rfl
  | error e => rfl

/-- **What one `run_once` does.** -/
theorem afterRun_spec (n : ℕ) (db : EdrDb Payload) :
    AfterRun reading n db (db.afterRun reading n) := by
  rw [afterRun_eq]
  by_cases hbatch : ∀ row ∈ db.pending.take n, db.Rebuilds reading row.jobId
  · obtain ⟨db', hdb'⟩ := exists_foldlM_projectRow.2 hbatch
    have hafter := afterRows_of_foldlM hdb'
    rw [hdb']
    refine ⟨hafter.edrEvents, ?_, fun row hrow hdone => ?_, hafter.kept⟩
    · rw [Batches.next, if_pos hbatch]
      exact hafter.pending
    · change row ∉ db'.pending at hdone
      rw [hafter.pending] at hdone
      rw [← List.take_append_drop n db.pending, List.mem_append] at hrow
      exact hafter.reflects row (hrow.resolve_right hdone)
  · have herror : ∃ e, (db.pending.take n).foldlM (fun db row => db.projectRow reading row) db =
        .error e := by
      cases hfold : (db.pending.take n).foldlM (fun db row => db.projectRow reading row) db with
      | ok db' => exact absurd (exists_foldlM_projectRow.1 ⟨db', hfold⟩) hbatch
      | error e => exact ⟨e, rfl⟩
    obtain ⟨e, he⟩ := herror
    rw [he]
    refine ⟨rfl, ?_, fun row hrow hdone => absurd hrow hdone, fun _ hkept => hkept⟩
    rw [Batches.next, if_neg hbatch]

/-! ### Any number of batches -/

theorem afterRuns_spec (n k : ℕ) (db : EdrDb Payload) :
    (db.afterRuns reading n k).edrEvents = db.edrEvents ∧
      (db.afterRuns reading n k).pending =
        (Batches.next (fun row => db.Rebuilds reading row.jobId) n)^[k] db.pending ∧
      ∀ row ∈ db.pending, row ∉ (db.afterRuns reading n k).pending →
        (db.afterRuns reading n k).Reflects reading row.jobId (db.rowsOf row.jobId) := by
  induction k with
  | zero => exact ⟨rfl, rfl, fun row hrow hdone => absurd hrow hdone⟩
  | succ k ih =>
      obtain ⟨hevents, hpending, hreflects⟩ := ih
      have hrun := @afterRun_spec _ reading n (db.afterRuns reading n k)
      have hsucc : db.afterRuns reading n (k + 1) = (db.afterRuns reading n k).afterRun reading n :=
        Function.iterate_succ_apply' ..
      have hrows : ∀ jobId, (db.afterRuns reading n k).rowsOf jobId = db.rowsOf jobId :=
        fun jobId => rowsOf_congr hevents jobId
      rw [hsucc]
      refine ⟨hrun.edrEvents.trans hevents, ?_, fun row hrow hdone => ?_⟩
      · rw [hrun.pending, hpending, Function.iterate_succ_apply']
        unfold Batches.next
        simp only [rebuilds_congr hevents]
      · by_cases hbefore : row ∈ (db.afterRuns reading n k).pending
        · have hnow := hrun.reflects row hbefore hdone
          rwa [hrows] at hnow
        · have hkept := hrun.kept row.jobId (by rw [hrows]; exact hreflects row hrow hbefore)
          rwa [hrows] at hkept

/-- **What is pending after any number of calls.** -/
theorem pending_afterRuns (n k : ℕ) (db : EdrDb Payload) :
    (db.afterRuns reading n k).pending = db.pending.drop (min (n * k) (db.reached reading n)) := by
  rw [(afterRuns_spec n k db).2.1, Batches.iterate_next]
  rfl

/-- **The promise is kept exactly when no row of a job that decodes lies further back** than the
work goes. -/
theorem unblocked_iff_reached {α : Type} (reading : Reading Payload)
    (decode : Payload → Except WireError α) (n : ℕ) (db : EdrDb Payload) :
    db.Unblocked reading decode n ↔
      ∀ row ∈ db.pending.drop (db.reached reading n), ¬ db.Decodes decode row.jobId := by
  constructor
  · rintro ⟨k, hk⟩ row hrow hdecodes
    -- a row that far back is pending after any number of calls
    have hstays : row ∈ (db.afterRuns reading n k).pending := by
      rw [pending_afterRuns]
      exact (List.drop_sublist_drop_left _ (Nat.min_le_right _ _)).subset hrow
    have hmarked := (hk k le_rfl row (List.mem_of_mem_drop hrow) hdecodes).1
    exact (mem_pending.1 hstays).2 hmarked
  · intro hback
    refine ⟨db.pending.length, fun k hk row hrow hdecodes => ?_⟩
    have hpending := @pending_afterRuns _ reading n k db
    have hfar : db.reached reading n ≤ n * k := Batches.reached_le_of_batches hk
    rw [Nat.min_eq_right hfar] at hpending
    have hdone : row ∉ (db.afterRuns reading n k).pending := by
      rw [hpending]
      exact fun hmem => hback row hmem hdecodes
    obtain ⟨hevents, -, hreflects⟩ := @afterRuns_spec _ reading n k db
    refine ⟨?_, hreflects row hrow hdone⟩
    by_contra hunmarked
    refine hdone (mem_pending.2 ⟨?_, hunmarked⟩)
    rw [hevents]
    exact (mem_pending.1 hrow).1

end EdrDb

/-! ### The rows that are read -/

namespace Mixed

open Json

/-- **One bad row does not block other jobs** exactly when no row of a job that decodes lies further
back than the work goes.  A row is bad when reading its job raises: when it does not decode, when
timestamps of the job cannot be compared, when a threshold or a UTC time is not in the calendar, and
when a column refuses a value. -/
theorem unblocked_iff {Payload : Type} (runtime : Runtime) (columns : Columns)
    (decode : Payload → Except WireError Event) (n : ℕ) (db : EdrDb Payload) :
    db.Unblocked (reading runtime decode columns) decode n ↔
      ∀ row ∈ db.pending.drop (db.reached (reading runtime decode columns) n),
        ¬ db.Decodes decode row.jobId :=
  EdrDb.unblocked_iff_reached _ decode n db

/-- The canonical payload of an event: the members that tell of any event, and others. -/
def payload (eventId eventType jobId : String) (others : List (String × Scalar)) : Object :=
  ofMembers
    ([("eventId", .str eventId), ("eventType", .str eventType),
      ("eventTime", .str "2026-01-01T00:00:00Z"), ("ingestionTime", .str "2026-01-01T00:00:00Z"),
      ("jobId", .str jobId), ("attemptNumber", .int 0), ("maxAttempts", .int 3)] ++ others)

/-- A row of one job, before the creation of another one. -/
def beforeCreation (first : Object) : EdrDb Object where
  edrEvents :=
    ⟨[⟨"e-1", "job-1", 0, first⟩, ⟨"e-2", "job-2", 1, payload "e-2" "JOB_CREATED" "job-2" []⟩],
      by simp⟩

/-- The type of the first row is one that the registered schema admits and the decoder does not
know. -/
def pausedDb : EdrDb Object := beforeCreation (payload "e-1" "JOB_PAUSED" "job-1" [])

/-- **A row of `job-1` that does not decode keeps `job-2` from ever being projected.** -/
theorem not_unblocked_pausedDb :
    ¬ ∀ (n : ℕ) (db : EdrDb Object),
      db.Unblocked (reading utcRuntime eventFromRow postgres) eventFromRow n := by
  intro h
  obtain ⟨k, hk⟩ := h 500 pausedDb
  have hreached : pausedDb.reached (reading utcRuntime eventFromRow postgres) 500 = 0 := by decide
  have hpending := @EdrDb.pending_afterRuns _ (reading utcRuntime eventFromRow postgres) 500 k
    pausedDb
  rw [hreached, Nat.min_zero, List.drop_zero] at hpending
  have hrow : (⟨"e-2", "job-2", 1, payload "e-2" "JOB_CREATED" "job-2" []⟩ : EdrRow Object) ∈
      pausedDb.pending := by decide
  have hmarked := (hk k le_rfl _ hrow (by decide)).1
  rw [← hpending] at hrow
  exact (EdrDb.mem_pending.1 hrow).2 hmarked

/-- A row that does decode may keep it as well: the grace period of a job that is scheduled for the
end of the calendar would end behind it. -/
example :
    (beforeCreation (payload "e-1" "JOB_SCHEDULER_SUBMISSION_ACKNOWLEDGED" "job-1"
      [("scheduledAt", .str "9999-12-31T23:59:59Z")])).reached
        (reading utcRuntime eventFromRow postgres) 500 = 0 := by decide

end Mixed

end ScheduledJobs
