/-
**Projection workers that run at the same time.**

The locks are on events, and the write is of a whole job.  A worker that has loaded the rows of a
job can be overtaken: another one claims a row that arrived later, loads the job with it, commits,
and marks that row.  The first worker then overwrites the job with the projection of the rows it
had loaded, and nothing makes anybody project the job again.

Main definitions:

* `Projectors.Holds` — the tables show a job as the reduction of some of its rows;
* `Projectors.Converged` — what is promised: a job whose rows are all marked is shown as the
  reduction of all of them;
* `Projectors.NoStaleCommit` — the condition: for each job a worker commits, what it loaded last has
  every row of the job that is marked by then.

Main results:

* `Projectors.Tracked.next` — what a commit under the condition preserves;
* `Projectors.converged_of_reach` — **in a run without stale commits, every state has converged**;
* `Projectors.World.Caught.next` — a job that is projected without stale commits from some state on
  is shown with every row that is marked, whatever was shown before.
-/

import ScheduledJobs.Projectors

set_option relaxedAutoImplicit false
set_option autoImplicit false

namespace ScheduledJobs

namespace Projectors

variable {Payload : Type} {decode : Payload → Except WireError Event} {w w' : World Payload}

/-! ### What is promised -/

/-- The tables show the job as the reduction of the rows; of no rows, when there is nothing about
it. -/
def Holds (decode : Payload → Except WireError Event) (db : EdrDb Payload) (jobId : String)
    (rows : List (EdrRow Payload)) : Prop :=
  (rows = [] ∧ db.tables.jobVisibility.find? jobId = none ∧
      (db.tables.jobAttempts.rows.filter fun attempt => attempt.jobId = jobId) = []) ∨
    db.Reflects decode jobId rows

/-- **The projectors have converged**: a job all of whose rows are marked is shown as the reduction
of all its rows, by `persisted_at, event_id`. -/
def Converged (decode : Payload → Except WireError Event) (db : EdrDb Payload) : Prop :=
  ∀ jobId, (∀ row ∈ db.rowsOf jobId, db.Marked row) → Holds decode db jobId (db.rowsOf jobId)

/-- The rows that were last loaded for a job. -/
def lastRows (loads : List (Load Payload)) (jobId : String) : List (EdrRow Payload) :=
  ((lastLoad loads jobId).map Load.rows).getD []

/-- **No commit is stale**: for each job the worker commits, what it loaded last has every row of
the job that is marked by then. -/
def NoStaleCommit (w : World Payload) : Label Payload → Prop
  | .commit worker => ∀ txn ∈ w.txns.find? worker, ∀ load ∈ txn.loads,
      ∀ row ∈ w.db.rowsOf load.item.jobId, w.db.Marked row →
        row ∈ lastRows txn.loads load.item.jobId
  | _ => True

/-! ### The invariant -/

/-- `projected_events` refers to the journal. -/
def World.Marks (w : World Payload) : Prop :=
  ∀ eventId, (w.db.tables.projectedEvents.find? eventId).isSome → eventId ∈ w.db.eventIds

/-- **What one step preserves**, be it a stale commit. -/
theorem World.Marks.next {l : Label Payload} (h : w.Marks) (hsound : w.Sound decode)
    (hn : w.next decode l = some w') : w'.Marks := by
  have hsame : w'.db = w.db → w'.Marks := fun hdb => by
    unfold World.Marks
    rw [hdb]
    exact h
  rcases World.next_cases hn with ⟨row, -, -, hrows, htables, -⟩ | ⟨_, _, -, -, hdb, -⟩ |
    ⟨_, _, _, _, -, -, -, -, -, hdb, -⟩ | ⟨_, _, _, _, -, -, -, -, hdb, -⟩ |
    ⟨txn, tables, -, hmem, hstatements, -, hview, hdb, -⟩ | ⟨worker, rfl⟩
  · intro eventId hmark
    rw [htables] at hmark
    rw [EdrDb.eventIds, hrows, List.map_append]
    exact List.mem_append_left _ (h eventId hmark)
  · exact hsame hdb
  · exact hsame hdb
  · exact hsame hdb
  · intro eventId hmark
    rw [hdb] at hmark ⊢
    exact (hsound.committed hmem hstatements hview).marks (hsound txn hmem) h eventId hmark
  · exact hsame rfl

theorem marks_of_reachable (h : (machine decode).Reachable w) : w.Marks := by
  induction h with
  | start => exact fun _ hmark => nomatch hmark
  | step hs _ hn ih => exact ih.next (sound_of_reachable hs) hn

/-- **The rows a job is shown as the reduction of**: every row of the job that is marked is among
them. -/
structure Tracked (decode : Payload → Except WireError Event) (db : EdrDb Payload)
    (jobId : String) (rows : List (EdrRow Payload)) : Prop where
  ordered : JobRows db.edrEvents.rows jobId rows
  marked : ∀ row ∈ db.rowsOf jobId, db.Marked row → row ∈ rows
  holds : Holds decode db jobId rows

/-- The invariant of the projectors. -/
structure World.Tracked (decode : Payload → Except WireError Event) (w : World Payload) : Prop where
  sound : w.Sound decode
  marks : w.Marks
  jobs : ∀ jobId, ∃ rows, Projectors.Tracked decode w.db jobId rows

theorem JobRows.mono {journal journal' rows : List (EdrRow Payload)} {jobId : String}
    (h : JobRows journal jobId rows) (hmono : ∀ row ∈ journal, row ∈ journal') :
    JobRows journal' jobId rows :=
  ⟨fun row hrow => ⟨hmono row (h.mem row hrow).1, (h.mem row hrow).2⟩, h.sorted, h.nodup⟩

/-- Two selections of the rows of a job with the same rows in them are the same list. -/
theorem JobRows.eq_rowsOf {db : EdrDb Payload} {jobId : String} {rows : List (EdrRow Payload)}
    (h : JobRows db.edrEvents.rows jobId rows) (hall : ∀ row ∈ db.rowsOf jobId, row ∈ rows) :
    rows = db.rowsOf jobId := by
  have hrows := jobRows_rowsOf db jobId
  have hperm : rows.Perm (db.rowsOf jobId) :=
    (List.perm_ext_iff_of_nodup h.nodup hrows.nodup).2 fun row =>
      ⟨fun hrow => EdrDb.mem_rowsOf.2 (h.mem row hrow), fun hrow => hall row hrow⟩
  refine hperm.eq_of_pairwise (fun a b ha hb hab hba => ?_) h.sorted hrows.sorted
  exact Table.eq_of_key_eq (h.mem a ha).1 (hrows.mem b hb).1 (hab.eventId_eq hba)

/-- Once all rows of a job are marked, it is shown as the reduction of all of them. -/
theorem Tracked.holds_of_marked {db : EdrDb Payload} {jobId : String}
    {rows : List (EdrRow Payload)} (h : Tracked decode db jobId rows)
    (hmarked : ∀ row ∈ db.rowsOf jobId, db.Marked row) :
    Holds decode db jobId (db.rowsOf jobId) := by
  have heq := h.ordered.eq_rowsOf fun row hrow => h.marked row hrow (hmarked row hrow)
  rw [← heq]
  exact h.holds

/-- The tables stay, and the journal grows by a row that is not marked. -/
theorem Tracked.arrive {db db' : EdrDb Payload} {row : EdrRow Payload} {jobId : String}
    {rows : List (EdrRow Payload)} (h : Tracked decode db jobId rows)
    (htables : db'.tables = db.tables) (hrows : db'.edrEvents.rows = db.edrEvents.rows ++ [row])
    (hunmarked : ¬ db.Marked row) : Tracked decode db' jobId rows where
  ordered := h.ordered.mono fun other hother => hrows ▸ List.mem_append_left _ hother
  marked := by
    intro other hother hmarked
    have hmarked' : db.Marked other := by
      unfold EdrDb.Marked at hmarked ⊢
      rwa [htables] at hmarked
    obtain ⟨hmem, hjob⟩ := EdrDb.mem_rowsOf.1 hother
    rw [hrows, List.mem_append, List.mem_singleton] at hmem
    rcases hmem with hmem | rfl
    · exact h.marked other (EdrDb.mem_rowsOf.2 ⟨hmem, hjob⟩) hmarked'
    · exact absurd hmarked' hunmarked
  holds := by
    have hholds := h.holds
    unfold Holds EdrDb.Reflects at hholds ⊢
    rwa [htables]

section Commit

variable {tables' : ProjectionTables} {txn : Txn Payload} {jobId : String}
  {rows : List (EdrRow Payload)} (hsound : txn.Sound decode w.db.edrEvents.rows)
  (hfresh : ∀ load ∈ txn.loads, ∀ row ∈ w.db.rowsOf load.item.jobId, w.db.Marked row →
    row ∈ lastRows txn.loads load.item.jobId)
  (hcommitted : Committed w.db.tables tables' txn.loads)

include hsound hfresh hcommitted

/-- **What a commit that is not stale makes of a job it projects**, whatever was shown before. -/
theorem tracked_of_lastLoad {load : Load Payload} (hlast : lastLoad txn.loads jobId = some load) :
    Tracked decode { w.db with tables := tables' } jobId load.rows := by
  obtain ⟨hload, hjob⟩ := mem_of_lastLoad hlast
  obtain ⟨hvisibility, hattempts⟩ := hcommitted.last jobId load hlast
  have hlastRows : lastRows txn.loads load.item.jobId = load.rows := by
    rw [lastRows, hjob, hlast]
    rfl
  refine ⟨hjob ▸ hsound.rows load hload, fun row hrow hmark => ?_,
    Or.inr (EdrDb.reflects_iff.2
      ⟨load.projection, hjob ▸ hsound.rebuilt load hload, hvisibility, hattempts⟩)⟩
  obtain ⟨hmem, hown⟩ := EdrDb.mem_rowsOf.1 hrow
  rcases hcommitted.marked_cases hsound hmem hmark with hold | ⟨hclaimed, -⟩
  · rw [← hlastRows]
    exact hfresh load hload row (hjob ▸ EdrDb.mem_rowsOf.2 ⟨hmem, hown⟩) hold
  · exact hsound.own load hload row hclaimed (hown.trans hjob.symm)

/-- **What a commit that is not stale preserves.** -/
theorem Tracked.commit (h : Tracked decode w.db jobId rows) :
    ∃ rows', Tracked decode { w.db with tables := tables' } jobId rows' := by
  cases hlast : lastLoad txn.loads jobId with
  | none =>
      -- the job is not among those the transaction projects
      obtain ⟨hvisibility, hattempts⟩ := hcommitted.untouched jobId hlast
      refine ⟨rows, h.ordered, fun row hrow hmark => ?_, ?_⟩
      · obtain ⟨hmem, hown⟩ := EdrDb.mem_rowsOf.1 hrow
        rcases hcommitted.marked_cases hsound hmem hmark with hold | ⟨-, load, hload, rfl⟩
        · exact h.marked _ hrow hold
        · exact absurd (hown ▸ hlast) (lastLoad_ne_none hload)
      · have hholds := h.holds
        unfold Holds EdrDb.Reflects at hholds ⊢
        rwa [hvisibility, hattempts]
  | some load => exact ⟨load.rows, tracked_of_lastLoad hsound hfresh hcommitted hlast⟩

end Commit

/-- A row that arrives has not been marked. -/
theorem World.Marks.not_marked {row : EdrRow Payload} (h : w.Marks)
    (hnew : w.db.edrEvents.find? row.eventId = none) : ¬ w.db.Marked row := by
  intro hmark
  obtain ⟨old, hold, hevent⟩ := List.mem_map.1 (h row.eventId hmark)
  exact Table.find?_eq_none_iff.1 hnew old hold hevent

/-- **What one step preserves about a job**, when it is no stale commit. -/
theorem Tracked.next {l : Label Payload} {jobId : String} {rows : List (EdrRow Payload)}
    (h : Tracked decode w.db jobId rows) (hsound : w.Sound decode) (hmarks : w.Marks)
    (hfresh : NoStaleCommit w l) (hn : w.next decode l = some w') :
    ∃ rows', Tracked decode w'.db jobId rows' := by
  have hsame : w'.db = w.db → ∃ rows', Tracked decode w'.db jobId rows' := fun hdb =>
    ⟨rows, hdb ▸ h⟩
  rcases World.next_cases hn with ⟨row, -, hnew, hrows, htables, -⟩ | ⟨_, _, -, -, hdb, -⟩ |
    ⟨_, _, _, _, -, -, -, -, -, hdb, -⟩ | ⟨_, _, _, _, -, -, -, -, hdb, -⟩ |
    ⟨txn, tables, rfl, hmem, hstatements, -, hview, hdb, -⟩ | ⟨worker, rfl⟩
  · exact ⟨rows, h.arrive htables hrows (hmarks.not_marked hnew)⟩
  · exact hsame hdb
  · exact hsame hdb
  · exact hsame hdb
  · rw [hdb]
    exact h.commit (hsound txn hmem) (hfresh txn (Table.find?_of_mem hmem))
      (hsound.committed hmem hstatements hview)
  · exact hsame rfl

/-- **What one step preserves**, when it is no stale commit. -/
theorem World.Tracked.next {l : Label Payload} (h : w.Tracked decode) (hfresh : NoStaleCommit w l)
    (hn : w.next decode l = some w') : w'.Tracked decode where
  sound := h.sound.next hn
  marks := h.marks.next h.sound hn
  jobs := fun jobId => by
    obtain ⟨rows, htracked⟩ := h.jobs jobId
    exact htracked.next h.sound h.marks hfresh hn

theorem tracked_start : (machine decode).start.Tracked decode where
  sound := fun _ htxn => by cases htxn
  marks := fun _ hmark => by cases hmark
  jobs := fun _ =>
    ⟨[], ⟨by simp, List.Pairwise.nil, List.nodup_nil⟩, (fun _ hrow => by cases hrow),
      Or.inl ⟨rfl, rfl, rfl⟩⟩

/-- **Without stale commits the projectors converge**: in every state such a run reaches, a job all
of whose rows are marked is shown as the reduction of all its rows. -/
theorem converged_of_reach (decode : Payload → Except WireError Event) (w : World Payload)
    (h : (machine decode).Reach NoStaleCommit w) : Converged decode w.db := by
  have htracked : w.Tracked decode :=
    h.invariant tracked_start fun _ _ _ _ hinv hfresh hn => hinv.next hfresh hn
  intro jobId hmarked
  obtain ⟨rows, hrows⟩ := htracked.jobs jobId
  exact hrows.holds_of_marked hmarked

/-! ### A row that is projected without stale commits -/

/-- If the row of the event is marked, its job is shown with every row that is. -/
def World.Caught (decode : Payload → Except WireError Event) (eventId : String)
    (w : World Payload) : Prop :=
  ∀ row ∈ w.db.edrEvents.rows, row.eventId = eventId → w.db.Marked row →
    ∃ rows, Projectors.Tracked decode w.db row.jobId rows

/-- **What one step preserves**, when it is no stale commit: the commit that marks the row projects
its job. -/
theorem World.Caught.next {eventId : String} {l : Label Payload} (h : w.Caught decode eventId)
    (hsound : w.Sound decode) (hmarks : w.Marks) (hfresh : NoStaleCommit w l)
    (hn : w.next decode l = some w') : w'.Caught decode eventId := by
  intro row hrow hid hmark
  -- a row that was marked before is that of a job that is tracked
  have hold : row ∈ w.db.edrEvents.rows → w.db.Marked row →
      ∃ rows, Projectors.Tracked decode w'.db row.jobId rows := fun hrow hmark => by
    obtain ⟨rows, htracked⟩ := h row hrow hid hmark
    exact htracked.next hsound hmarks hfresh hn
  rcases World.next_cases hn with ⟨new, -, hnew, hrows, htables, -⟩ | ⟨_, _, -, -, hdb, -⟩ |
    ⟨_, _, _, _, -, -, -, -, -, hdb, -⟩ | ⟨_, _, _, _, -, -, -, -, hdb, -⟩ |
    ⟨txn, tables, rfl, hmem, hstatements, -, hview, hdb, -⟩ | ⟨worker, rfl⟩
  · have hmark' : w.db.Marked row := by
      unfold EdrDb.Marked at hmark ⊢
      rwa [htables] at hmark
    rw [hrows, List.mem_append, List.mem_singleton] at hrow
    rcases hrow with hrow | rfl
    · exact hold hrow hmark'
    · exact absurd hmark' (hmarks.not_marked hnew)
  · exact hold (hdb ▸ hrow) (hdb ▸ hmark)
  · exact hold (hdb ▸ hrow) (hdb ▸ hmark)
  · exact hold (hdb ▸ hrow) (hdb ▸ hmark)
  · have hcommitted := hsound.committed hmem hstatements hview
    rw [hdb] at hrow hmark
    rcases hcommitted.marked_cases (hsound txn hmem) hrow hmark with hbefore | ⟨-, load, hload, rfl⟩
    · exact hold hrow hbefore
    · obtain ⟨last, hlast⟩ := Option.ne_none_iff_exists'.1 (lastLoad_ne_none hload)
      rw [hdb]
      exact ⟨last.rows, tracked_of_lastLoad (hsound txn hmem)
        (hfresh txn (Table.find?_of_mem hmem)) hcommitted hlast⟩
  · exact hold hrow hmark

/-! ### A worker that is overtaken -/

open Json

/-- A journal row of `job-1`. -/
def lifecycleRow (eventId eventType : String) (persistedAt : Datetime) : EdrRow Object where
  eventId := eventId
  jobId := "job-1"
  persistedAt := persistedAt
  canonicalPayload := ofMembers
    [("eventId", .str eventId), ("eventType", .str eventType),
      ("eventTime", .str "2026-01-01T00:00:00Z"), ("ingestionTime", .str "2026-01-01T00:00:00Z"),
      ("jobId", .str "job-1"), ("attemptNumber", .int 0), ("maxAttempts", .int 3)]

def createdRow : EdrRow Object := lifecycleRow "e-0" "JOB_CREATED" 0

def requestedRow : EdrRow Object := lifecycleRow "e-1" "JOB_SCHEDULER_SUBMISSION_REQUESTED" 1

def acknowledgedRow : EdrRow Object :=
  lifecycleRow "e-2" "JOB_SCHEDULER_SUBMISSION_ACKNOWLEDGED" 2

/-- The projection of one claimed row, all of it before anybody else moves. -/
def projected (worker statements : ℕ) : List (Label Object) :=
  List.replicate statements (.execute worker) ++ [.commit worker]

/-- One worker after the other: the second finds a row that arrived after the first had loaded. -/
def tidyRun : List (Label Object) :=
  [.arrive createdRow, .claim 1 1, .load 1, .arrive requestedRow] ++ projected 1 4 ++
    [.claim 2 1, .load 2] ++ projected 2 5

instance (w : World Object) : (l : Label Object) → Decidable (NoStaleCommit w l)
  | .commit worker => inferInstanceAs (Decidable (∀ txn ∈ w.txns.find? worker, _))
  | .arrive _ => inferInstanceAs (Decidable True)
  | .claim _ _ => inferInstanceAs (Decidable True)
  | .load _ => inferInstanceAs (Decidable True)
  | .execute _ => inferInstanceAs (Decidable True)
  | .abort _ => inferInstanceAs (Decidable True)

/-- Two workers that do not get into each other's way. -/
theorem converged_tidyRun :
    ∃ w, (machine eventFromRow).run (machine eventFromRow).start tidyRun = some w ∧
      Converged eventFromRow w.db := by
  have hrun : ((machine eventFromRow).runWhile NoStaleCommit (machine eventFromRow).start
      tidyRun).isSome = true := by decide +kernel
  obtain ⟨w, hw⟩ := Option.isSome_iff_exists.1 hrun
  refine ⟨w, Machine.run_of_runWhile hw, converged_of_reach eventFromRow w ?_⟩
  exact Machine.Reach.of_runWhile Machine.Reach.start tidyRun hw

/-- The first worker loads two rows; before it writes, the second one projects the job with a third
row that has arrived, and marks it.  (The decision about the second row is there already: an
earlier projection has seen it, so the second worker does not wait for its lock.) -/
def overtakenRun : List (Label Object) :=
  [.arrive createdRow, .arrive requestedRow, .claim 3 1, .load 3] ++ projected 3 5 ++
    [.claim 1 1, .load 1, .arrive acknowledgedRow, .claim 2 1, .load 2] ++ projected 2 6 ++
    projected 1 5

/-- **A stale write wins for good**: every row of the job is marked, no transaction is open, and the
job is shown without its last event. -/
theorem not_converged_overtakenRun :
    ¬ ∀ w : World Object, (machine eventFromRow).Reachable w → w.txns.rows = [] →
      Converged eventFromRow w.db := by
  intro h
  have hrun : ((machine eventFromRow).run (machine eventFromRow).start overtakenRun).map
      (fun w => (w.txns.rows.length, decide (∀ row ∈ w.db.rowsOf "job-1", w.db.Marked row),
        (w.db.tables.jobVisibility.find? "job-1").map JobVisibilityRow.version,
        (rebuild eventFromRow "job-1" (w.db.rowsOf "job-1")).toOption.map fun projection =>
          projection.snapshot.version)) = some (0, true, some 2, some 3) := by decide +kernel
  obtain ⟨w, hw, heq⟩ := Option.map_eq_some_iff.1 hrun
  simp only [Prod.mk.injEq, List.length_eq_zero_iff, decide_eq_true_iff] at heq
  obtain ⟨hclosed, hmarked, hversion, hrebuilt⟩ := heq
  rcases h w (Machine.Reachable.of_run Machine.Reachable.start _ hw) hclosed "job-1" hmarked with
    ⟨-, hnone, -⟩ | hreflects
  · rw [hnone] at hversion
    cases hversion
  · obtain ⟨projection, hrebuild, hshown, -⟩ := EdrDb.reflects_iff.1 hreflects
    rw [hshown] at hversion
    rw [hrebuild] at hrebuilt
    have h₂ : projection.snapshot.version = 2 := Option.some_inj.1 hversion
    have h₃ : projection.snapshot.version = 3 := Option.some_inj.1 hrebuilt
    omega

end Projectors

end ScheduledJobs
