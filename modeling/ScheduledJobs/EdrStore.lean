/-
**The journal, the projection tables, and the projection of a job.**

The projector rebuilds a job from its journal rows: it replays them into a fresh engine, and writes
what the engine then says about the job into the projection tables, statement by statement.  The
statements of one projection conflict with older rows in three ways: the visibility row is
overwritten, the attempts are deleted and inserted anew, a decision that is there is kept, and a
finding that is there keeps its message.

What a journal row carries is decoded by a parameter, so nothing here depends on the wire format.
Nor does it depend on the engine: a `Reading` goes from the rows of a job to what is written about
it.  The reading of this module has an engine on instants, which do not leave the calendar; the
reading with the exceptions of `datetime` is `Mixed.reading`.  Text is ordered by code points.

Main definitions:

* `EdrRow`, `ProjectionTables`, `EdrDb` — the tables of the database;
* `Statement`, `ProjectionTables.execute` — the statements of a projection, and what each does;
* `Written`, `Reading` — **what `_project_job` writes about a job, and how it comes to it**;
* `rebuild`, `Projection`, `Reading.ofDecoder` — what it reads off a fresh engine on instants;
* `EdrDb.projectJob`, `EdrDb.runOnce`, `EdrDb.rebuildAll` — `_project_job`, and the transactions of
  `run_once` and `rebuild`.

Main results:

* `Written.executeAll_statements` — **the tables after the projection of a job**;
* `Written.exists_executeAll_statements` — when its statements are accepted, whatever the tables
  hold.
-/

import ScheduledJobs.MixedTimestamps
import ScheduledJobs.VisibilityEngine

set_option relaxedAutoImplicit false
set_option autoImplicit false

namespace ScheduledJobs

/-! ### Tables -/

/-- A row of `edr_events`, with the columns the projector reads. -/
structure EdrRow (Payload : Type) where
  eventId : String
  jobId : String
  persistedAt : Datetime
  canonicalPayload : Payload
  deriving DecidableEq

/-- `ORDER BY persisted_at, event_id`. -/
def EdrRow.Before {Payload : Type} (r s : EdrRow Payload) : Prop :=
  r.persistedAt < s.persistedAt ∨ r.persistedAt = s.persistedAt ∧ r.eventId ≤ s.eventId

instance {Payload : Type} : DecidableRel (@EdrRow.Before Payload) := fun _ _ =>
  inferInstanceAs (Decidable (_ ∨ _))

instance {Payload : Type} : IsTrans (EdrRow Payload) EdrRow.Before where
  trans r s t hrs hst := by
    rcases hrs with hlt | ⟨heq, hle⟩
    · rcases hst with hlt' | ⟨heq', -⟩
      · exact Or.inl (hlt.trans hlt')
      · exact Or.inl (heq' ▸ hlt)
    · rcases hst with hlt' | ⟨heq', hle'⟩
      · exact Or.inl (heq ▸ hlt')
      · exact Or.inr ⟨heq.trans heq', String.le_trans hle hle'⟩

instance {Payload : Type} : Std.Total (@EdrRow.Before Payload) where
  total r s := by
    rcases Int.lt_trichotomy r.persistedAt s.persistedAt with hlt | heq | hgt
    · exact Or.inl (Or.inl hlt)
    · rcases String.le_total r.eventId s.eventId with hle | hle
      · exact Or.inl (Or.inr ⟨heq, hle⟩)
      · exact Or.inr (Or.inr ⟨heq.symm, hle⟩)
    · exact Or.inr (Or.inl hgt)

/-- Two rows that come before one another have the same id. -/
theorem EdrRow.Before.eventId_eq {Payload : Type} {r s : EdrRow Payload} (hrs : r.Before s)
    (hsr : s.Before r) : r.eventId = s.eventId := by
  rcases hrs with hlt | ⟨heq, hle⟩
  · rcases hsr with hlt' | ⟨heq', -⟩
    · exact absurd hlt' (Int.not_lt.2 hlt.le)
    · exact absurd heq' hlt.ne'
  · rcases hsr with hlt | ⟨-, hle'⟩
    · exact absurd heq hlt.ne'
    · exact String.le_antisymm hle hle'

/-- A row of `projected_events`. -/
structure ProjectedEvent where
  eventId : String
  jobId : String
  deriving DecidableEq, Repr

/-- A row of `job_visibility`. -/
structure JobVisibilityRow where
  jobId : String
  correlationId : String
  jobType : String
  recordedStatus : String
  projection : JobResponse
  dataAsOf : Datetime
  version : ℕ
  deriving DecidableEq, Repr

/-- A row of `job_attempts`. -/
structure JobAttemptRow where
  jobId : String
  attemptNumber : ℕ
  projection : AttemptView
  deriving DecidableEq, Repr

/-- `PRIMARY KEY (job_id, attempt_number)`. -/
def JobAttemptRow.key (row : JobAttemptRow) : String × ℕ := (row.jobId, row.attemptNumber)

/-- A row of `projection_decisions`. -/
structure DecisionRow where
  eventId : String
  jobId : String
  decision : String
  reason : Option String
  deriving DecidableEq, Repr

/-- A row of `reconciliation_findings`, without its serial number. -/
structure FindingRow where
  jobId : String
  code : String
  message : String
  firstObservedAt : Datetime
  active : Bool
  resolvedAt : Option Datetime
  deriving DecidableEq, Repr

/-- `UNIQUE (job_id, code, first_observed_at)`. -/
def FindingRow.key (row : FindingRow) : String × String × Datetime :=
  (row.jobId, row.code, row.firstObservedAt)

/-- The tables the projector writes. -/
structure ProjectionTables where
  projectedEvents : Table ProjectedEvent.eventId := .empty
  jobVisibility : Table JobVisibilityRow.jobId := .empty
  jobAttempts : Table JobAttemptRow.key := .empty
  projectionDecisions : Table DecisionRow.eventId := .empty
  reconciliationFindings : Table FindingRow.key := .empty

/-! ### Replaying the rows of a job -/

/-- Why a projection fails. -/
inductive ProjectionError
  /-- `event_from_wire` raises. -/
  | wire (error : WireError)
  | engine (error : EngineError)
  /-- The engine raises where it compares, adds or displays timestamps. -/
  | raised (error : Mixed.EngineError)
  /-- The engine is asked about a time that is not known. -/
  | noTime
  /-- A value is none of its column. -/
  | data
  /-- An integer or a primary key is not accepted. -/
  | attemptRejected (jobId : String) (attemptNumber : ℕ)
  /-- A decision is about an event that is not in the journal. -/
  | unknownEvent (eventId : String)
  deriving DecidableEq, Repr

/-- What the engine says about a job: its projection, and the response at the time up to which
there is data. -/
structure Projection where
  snapshot : JobVisibility
  response : JobResponse
  dataAsOf : Datetime

section Rebuild

variable {Payload : Type} (decode : Payload → Except WireError Event)

/-- One turn of the loop over the rows of a job. -/
def replayRow (engine : VisibilityEngine) (row : EdrRow Payload) :
    Except ProjectionError VisibilityEngine := do
  let event ← (decode row.canonicalPayload).mapError .wire
  let (engine, _) ← (engine.apply event).mapError .engine
  return engine

/-- The part of `_project_job` that reads. -/
def rebuild (jobId : String) (rows : List (EdrRow Payload)) :
    Except ProjectionError Projection := do
  let engine ← rows.foldlM (replayRow decode) {}
  let snapshot ← (engine.snapshot jobId).mapError .engine
  match snapshot.dataAsOf with
  | none => .error .noTime
  | some dataAsOf => do
      let response ← (engine.get jobId dataAsOf).mapError .engine
      return ⟨snapshot, response, dataAsOf⟩

end Rebuild

/-! ### The statements of a projection -/

/-- A statement the projector executes. -/
inductive Statement
  | upsertVisibility (row : JobVisibilityRow)
  | deleteAttempts (jobId : String)
  | insertAttempt (row : JobAttemptRow)
  | insertDecision (row : DecisionRow)
  | upsertFinding (row : FindingRow)
  | markProjected (row : ProjectedEvent)
  deriving DecidableEq, Repr

/-- The rows that are written about a job. -/
structure Written (jobId : String) where
  visibility : JobVisibilityRow
  attempts : List JobAttemptRow
  decisions : List DecisionRow
  findings : List FindingRow
  visibility_jobId : visibility.jobId = jobId
  attempts_jobId : ∀ row ∈ attempts, row.jobId = jobId
  decisions_jobId : ∀ row ∈ decisions, row.jobId = jobId
  findings_jobId : ∀ row ∈ findings, row.jobId = jobId

/-- **The part of `_project_job` that writes.** -/
def Written.statements {jobId : String} (written : Written jobId) : List Statement :=
  .upsertVisibility written.visibility :: .deleteAttempts jobId ::
    (written.attempts.map .insertAttempt ++
      (written.decisions.map .insertDecision ++ written.findings.map .upsertFinding))

/-- The part of `_project_job` that reads: the rows of a job are decoded and replayed, and what is
written is read off the engine. -/
structure Reading (Payload : Type) where
  read : (jobId : String) → List (EdrRow Payload) → Except ProjectionError (Written jobId)

namespace Projection

variable (jobId : String) (projection : Projection)

def visibilityRow : JobVisibilityRow where
  jobId := jobId
  correlationId := projection.snapshot.correlationId
  jobType := projection.snapshot.jobType
  recordedStatus := projection.snapshot.recordedStatus.value
  projection := projection.response
  dataAsOf := projection.dataAsOf
  version := projection.snapshot.version

@[simp] theorem visibilityRow_jobId : (projection.visibilityRow jobId).jobId = jobId := rfl

def attemptRows : List JobAttemptRow :=
  projection.snapshot.attempts.values.map fun attempt =>
    ⟨jobId, attempt.attemptNumber, attempt.toDict⟩

def decisionRows : List DecisionRow :=
  projection.snapshot.decisions.map fun decision =>
    ⟨decision.eventId, jobId, decision.decision.value, decision.reason⟩

def findingRows : List FindingRow :=
  projection.snapshot.findings.values.map fun finding =>
    { jobId := jobId
      code := finding.code.value
      message := finding.message
      firstObservedAt := finding.firstObservedAt
      active := finding.active
      resolvedAt := finding.resolvedAt }

/-- What is written about a job. -/
def written : Written jobId where
  visibility := projection.visibilityRow jobId
  attempts := projection.attemptRows jobId
  decisions := projection.decisionRows jobId
  findings := projection.findingRows jobId
  visibility_jobId := rfl
  attempts_jobId := List.forall_mem_map.2 fun _ _ => rfl
  decisions_jobId := List.forall_mem_map.2 fun _ _ => rfl
  findings_jobId := List.forall_mem_map.2 fun _ _ => rfl

@[simp] theorem written_visibility :
    (projection.written jobId).visibility = projection.visibilityRow jobId := rfl

@[simp] theorem written_attempts :
    (projection.written jobId).attempts = projection.attemptRows jobId := rfl

@[simp] theorem written_decisions :
    (projection.written jobId).decisions = projection.decisionRows jobId := rfl

@[simp] theorem written_findings :
    (projection.written jobId).findings = projection.findingRows jobId := rfl

/-- The statements of the projection. -/
def statements : List Statement := (projection.written jobId).statements

end Projection

/-- Rows are decoded to events, whose timestamps are instants. -/
def Reading.ofDecoder {Payload : Type} (decode : Payload → Except WireError Event) :
    Reading Payload where
  read jobId rows := do
    let projection ← rebuild decode jobId rows
    return projection.written jobId

instance {Payload : Type} : Coe (Payload → Except WireError Event) (Reading Payload) :=
  ⟨Reading.ofDecoder⟩

/-! ### Executing statements -/

/-- The largest `integer`. -/
def maxInteger : ℕ := 2147483647

/-- A finding over what is there: a new row, or new values of `active` and `resolved_at`. -/
def FindingRow.over (row : FindingRow) : Option FindingRow → FindingRow
  | some old => { old with active := row.active, resolvedAt := row.resolvedAt }
  | none => row

/-- The finding of a row, inserted or merged into the one that is there. -/
def mergeFinding (findings : Table FindingRow.key) (row : FindingRow) : Table FindingRow.key :=
  findings.upsert (row.over (findings.find? row.key))

namespace ProjectionTables

/-- What a statement does, in a database whose journal has rows with the given ids.  The reference
of a decision to the journal is checked here also where the decision is kept: a decision that is
there refers to a journal row. -/
def execute (eventIds : List String) (tables : ProjectionTables) :
    Statement → Except ProjectionError ProjectionTables
  | .upsertVisibility row => .ok { tables with jobVisibility := tables.jobVisibility.upsert row }
  | .deleteAttempts jobId =>
      .ok { tables with
        jobAttempts := tables.jobAttempts.deleteWhere fun row => row.jobId = jobId }
  | .insertAttempt row =>
      if row.attemptNumber = 0 ∨ maxInteger < row.attemptNumber then
        .error (.attemptRejected row.jobId row.attemptNumber)
      else
        match tables.jobAttempts.insert? row with
        | some attempts => .ok { tables with jobAttempts := attempts }
        | none => .error (.attemptRejected row.jobId row.attemptNumber)
  | .insertDecision row =>
      if row.eventId ∈ eventIds then
        .ok { tables with projectionDecisions := tables.projectionDecisions.insertOrKeep row }
      else .error (.unknownEvent row.eventId)
  | .upsertFinding row =>
      .ok { tables with reconciliationFindings := mergeFinding tables.reconciliationFindings row }
  | .markProjected row =>
      .ok { tables with projectedEvents := tables.projectedEvents.insertOrKeep row }

/-- Statements executed one after the other. -/
def executeAll (eventIds : List String) (tables : ProjectionTables) (statements : List Statement) :
    Except ProjectionError ProjectionTables :=
  statements.foldlM (execute eventIds) tables

end ProjectionTables

/-- The journal and the projection tables. -/
structure EdrDb (Payload : Type) where
  edrEvents : Table (@EdrRow.eventId Payload) := .empty
  tables : ProjectionTables := {}

namespace EdrDb

variable {Payload : Type} (db : EdrDb Payload)

/-- The journal by `persisted_at, event_id`. -/
def ordered : List (EdrRow Payload) := db.edrEvents.rows.insertionSort EdrRow.Before

/-- The journal rows of a job, by `persisted_at, event_id`. -/
def rowsOf (jobId : String) : List (EdrRow Payload) :=
  db.ordered.filter fun row => row.jobId = jobId

/-- The row has an entry in `projected_events`. -/
def Marked (row : EdrRow Payload) : Prop :=
  (db.tables.projectedEvents.find? row.eventId).isSome

instance (row : EdrRow Payload) : Decidable (db.Marked row) := inferInstanceAs (Decidable (_ = _))

/-- The rows to be projected, by `persisted_at, event_id`. -/
def pending : List (EdrRow Payload) := db.ordered.filter fun row => ¬ db.Marked row

/-- The ids a reference to the journal may have. -/
def eventIds : List String := db.edrEvents.rows.map EdrRow.eventId

/-- **`_project_job`.** -/
def projectJob (reading : Reading Payload) (jobId : String) :
    Except ProjectionError (EdrDb Payload) := do
  let written ← reading.read jobId (db.rowsOf jobId)
  let tables ← db.tables.executeAll db.eventIds written.statements
  return { db with tables := tables }

/-- The entry of a row in `projected_events`. -/
def mark (row : EdrRow Payload) : EdrDb Payload :=
  { db with
    tables :=
      { db.tables with
        projectedEvents := db.tables.projectedEvents.insertOrKeep ⟨row.eventId, row.jobId⟩ } }

/-- One turn of the loop of `run_once`. -/
def projectRow (reading : Reading Payload) (row : EdrRow Payload) :
    Except ProjectionError (EdrDb Payload) := do
  let db ← db.projectJob reading row.jobId
  return db.mark row

/-- **`run_once`** when nobody else is about: the tables it commits, and the number it returns.  An
exception rolls everything back. -/
def runOnce (reading : Reading Payload) (batchSize : ℕ) :
    Except ProjectionError (EdrDb Payload × ℕ) := do
  let pending := db.pending.take batchSize
  let db ← pending.foldlM (fun db row => db.projectRow reading row) db
  return (db, pending.length)

/-- **`rebuild`**: every job of the journal. -/
def rebuildAll (reading : Reading Payload) : Except ProjectionError (EdrDb Payload × ℕ) := do
  let jobIds := ((db.edrEvents.rows.map EdrRow.jobId).dedup).insertionSort (· ≤ ·)
  let db ← jobIds.foldlM (fun db jobId => db.projectJob reading jobId) db
  return (db, jobIds.length)

end EdrDb

/-! ### The journal in its order -/

namespace EdrDb

variable {Payload : Type} {db : EdrDb Payload} {row : EdrRow Payload}

@[simp] theorem mem_ordered : row ∈ db.ordered ↔ row ∈ db.edrEvents.rows :=
  List.mem_insertionSort _

theorem mem_rowsOf {jobId : String} :
    row ∈ db.rowsOf jobId ↔ row ∈ db.edrEvents.rows ∧ row.jobId = jobId := by
  rw [rowsOf, List.mem_filter, mem_ordered, decide_eq_true_iff]

theorem mem_pending : row ∈ db.pending ↔ row ∈ db.edrEvents.rows ∧ ¬ db.Marked row := by
  rw [pending, List.mem_filter, mem_ordered, decide_eq_true_iff]

end EdrDb

/-! ### The tables after a projection -/

namespace ProjectionTables

variable {eventIds : List String} {tables tables' : ProjectionTables}

/-- Attempts are inserted one after the other. -/
theorem executeAll_insertAttempt {rows : List JobAttemptRow}
    (h : tables.executeAll eventIds (rows.map .insertAttempt) = .ok tables') :
    ∃ attempts : Table JobAttemptRow.key, attempts.rows = tables.jobAttempts.rows ++ rows ∧
      tables' = { tables with jobAttempts := attempts } := by
  induction rows generalizing tables with
  | nil =>
      cases h
      exact ⟨_, (List.append_nil _).symm, rfl⟩
  | cons row rows ih =>
      obtain ⟨next, hnext, hrest⟩ := Except.bind_eq_ok_iff.1 h
      simp only [execute] at hnext
      split at hnext
      · cases hnext
      · split at hnext
        · next inserted hinserted =>
            cases hnext
            obtain ⟨attempts, hrows, htables⟩ := ih hrest
            refine ⟨attempts, ?_, htables⟩
            rw [hrows, (Table.insert?_eq_some_iff.1 hinserted).2, List.append_assoc]
            rfl
        · cases hnext

/-- Decisions are inserted where none is. -/
theorem executeAll_insertDecision {rows : List DecisionRow}
    (h : tables.executeAll eventIds (rows.map .insertDecision) = .ok tables') :
    tables' = { tables with
      projectionDecisions := rows.foldl Table.insertOrKeep tables.projectionDecisions } := by
  induction rows generalizing tables with
  | nil =>
      cases h
      rfl
  | cons row rows ih =>
      obtain ⟨next, hnext, hrest⟩ := Except.bind_eq_ok_iff.1 h
      simp only [execute] at hnext
      split at hnext
      · cases hnext
        exact ih hrest
      · cases hnext

/-- Findings are merged one after the other. -/
theorem executeAll_upsertFinding (rows : List FindingRow) :
    tables.executeAll eventIds (rows.map .upsertFinding) = .ok { tables with
      reconciliationFindings := rows.foldl mergeFinding tables.reconciliationFindings } := by
  induction rows generalizing tables with
  | nil => rfl
  | cons row rows ih => exact ih

/-- When attempts can be inserted: their numbers are integers the column takes, and their keys are
new. -/
theorem exists_executeAll_insertAttempt {rows : List JobAttemptRow} :
    (∃ after, tables.executeAll eventIds (rows.map .insertAttempt) = .ok after) ↔
      (∀ row ∈ rows, row.attemptNumber ≠ 0 ∧ row.attemptNumber ≤ maxInteger) ∧
        (rows.map JobAttemptRow.key).Nodup ∧
        ∀ row ∈ rows, tables.jobAttempts.find? row.key = none := by
  induction rows generalizing tables with
  | nil => exact iff_of_true ⟨_, rfl⟩ (by simp)
  | cons row rows ih =>
      have hcons : (∃ after, tables.executeAll eventIds ((row :: rows).map .insertAttempt) =
          .ok after) ↔ ∃ next, tables.execute eventIds (.insertAttempt row) = .ok next ∧
            ∃ after, next.executeAll eventIds (rows.map .insertAttempt) = .ok after := by
        simp only [executeAll, List.map_cons, List.foldlM_cons, Except.bind_eq_ok_iff]
        rw [exists_comm]
        simp only [exists_and_left]
      rw [hcons, List.map_cons, List.nodup_cons, List.forall_mem_cons, List.forall_mem_cons]
      constructor
      · rintro ⟨next, hnext, hafter⟩
        obtain ⟨hrange, hnodup, hfree⟩ := ih.1 hafter
        simp only [execute] at hnext
        split at hnext
        · cases hnext
        · next hrow =>
            split at hnext
            · next attempts hinsert =>
                cases hnext
                have hfind := Table.find?_insert? hinsert
                have hrest : ∀ other ∈ rows, other.key ≠ row.key ∧
                    tables.jobAttempts.find? other.key = none := by
                  intro other hother
                  have hnone := hfree other hother
                  rw [hfind] at hnone
                  split at hnone
                  · cases hnone
                  · next hne => exact ⟨hne, hnone⟩
                refine ⟨⟨⟨fun h => hrow (Or.inl h), not_lt.1 fun h => hrow (Or.inr h)⟩, hrange⟩,
                  ⟨fun hmem => ?_, hnodup⟩, (Table.insert?_eq_some_iff.1 hinsert).1,
                  fun other hother => (hrest other hother).2⟩
                obtain ⟨other, hother, hkey⟩ := List.mem_map.1 hmem
                exact (hrest other hother).1 hkey
            · cases hnext
      · rintro ⟨⟨hrow, hrange⟩, ⟨hnew, hnodup⟩, hfree, hothers⟩
        cases hinsert : tables.jobAttempts.insert? row with
        | none => exact absurd hfree (Table.insert?_eq_none_iff.1 hinsert)
        | some attempts =>
            refine ⟨{ tables with jobAttempts := attempts }, ?_, ih.2 ⟨hrange, hnodup, ?_⟩⟩
            · rw [execute, if_neg (by omega), hinsert]
            · intro other hother
              rw [Table.find?_insert? hinsert, if_neg, hothers other hother]
              exact fun hkey => hnew (hkey ▸ List.mem_map_of_mem hother)

/-- When decisions can be inserted: they are about events of the journal. -/
theorem exists_executeAll_insertDecision {rows : List DecisionRow} :
    (∃ after, tables.executeAll eventIds (rows.map .insertDecision) = .ok after) ↔
      ∀ row ∈ rows, row.eventId ∈ eventIds := by
  induction rows generalizing tables with
  | nil => exact iff_of_true ⟨_, rfl⟩ (by simp)
  | cons row rows ih =>
      rw [List.forall_mem_cons]
      simp only [executeAll, List.map_cons, List.foldlM_cons, execute]
      by_cases hrow : row.eventId ∈ eventIds
      · rw [if_pos hrow]
        exact ih.trans (and_iff_right hrow).symm
      · rw [if_neg hrow]
        exact iff_of_false (fun ⟨_, h⟩ => by cases h) fun h => hrow h.1

end ProjectionTables

/-- The tables once a visibility row is written and the attempts of its job are deleted. -/
def ProjectionTables.overwritten (tables : ProjectionTables) (row : JobVisibilityRow) :
    ProjectionTables :=
  { tables with
    jobVisibility := tables.jobVisibility.upsert row
    jobAttempts := tables.jobAttempts.deleteWhere fun attempt => attempt.jobId = row.jobId }

/-- **What the projection of a job leaves in the tables.** -/
structure ProjectionTables.ProjectedTo (tables tables' : ProjectionTables) {jobId : String}
    (written : Written jobId) : Prop where
  projectedEvents : tables'.projectedEvents = tables.projectedEvents
  jobVisibility : tables'.jobVisibility = tables.jobVisibility.upsert written.visibility
  jobAttempts : tables'.jobAttempts.rows =
    (tables.jobAttempts.rows.filter fun row => row.jobId ≠ jobId) ++ written.attempts
  projectionDecisions : tables'.projectionDecisions =
    written.decisions.foldl Table.insertOrKeep tables.projectionDecisions
  reconciliationFindings : tables'.reconciliationFindings =
    written.findings.foldl mergeFinding tables.reconciliationFindings

namespace Written

variable {eventIds : List String} {tables tables' : ProjectionTables} {jobId : String}
  {written : Written jobId}

/-- The statements of a projection, in their groups. -/
theorem executeAll_statements_eq_ok_iff :
    tables.executeAll eventIds written.statements = .ok tables' ↔
      ∃ tables₁, (tables.overwritten written.visibility).executeAll eventIds
        (written.attempts.map .insertAttempt) = .ok tables₁ ∧
      ∃ tables₂, tables₁.executeAll eventIds (written.decisions.map .insertDecision) =
        .ok tables₂ ∧
      tables₂.executeAll eventIds (written.findings.map .upsertFinding) = .ok tables' := by
  rw [ProjectionTables.overwritten, written.visibility_jobId, statements,
    ProjectionTables.executeAll, List.foldlM_cons, ProjectionTables.execute, Except.ok_bind,
    List.foldlM_cons, ProjectionTables.execute, Except.ok_bind, List.foldlM_append,
    Except.bind_eq_ok_iff]
  refine exists_congr fun tables₁ => and_congr_right fun _ => ?_
  rw [List.foldlM_append, Except.bind_eq_ok_iff]
  rfl

/-- **The tables after the projection of a job.** -/
theorem executeAll_statements (h : tables.executeAll eventIds written.statements = .ok tables') :
    tables.ProjectedTo tables' written := by
  obtain ⟨tables₁, h₁, tables₂, h₂, h₃⟩ := executeAll_statements_eq_ok_iff.1 h
  obtain ⟨attempts, hrows, rfl⟩ := ProjectionTables.executeAll_insertAttempt h₁
  obtain rfl := ProjectionTables.executeAll_insertDecision h₂
  rw [ProjectionTables.executeAll_upsertFinding] at h₃
  cases h₃
  refine ⟨rfl, rfl, ?_, rfl, rfl⟩
  rw [hrows, ProjectionTables.overwritten, written.visibility_jobId]
  exact congrArg (· ++ written.attempts)
    (List.filter_congr fun row _ => (decide_not (p := row.jobId = jobId)).symm)

/-- What is written about a job meets the constraints of the tables. -/
structure Storable (eventIds : List String) (written : Written jobId) : Prop where
  numbers : ∀ row ∈ written.attempts, row.attemptNumber ≠ 0 ∧ row.attemptNumber ≤ maxInteger
  keys : (written.attempts.map JobAttemptRow.key).Nodup
  events : ∀ row ∈ written.decisions, row.eventId ∈ eventIds

instance (eventIds : List String) (written : Written jobId) :
    Decidable (written.Storable eventIds) :=
  decidable_of_iff
    ((∀ row ∈ written.attempts, row.attemptNumber ≠ 0 ∧ row.attemptNumber ≤ maxInteger) ∧
      (written.attempts.map JobAttemptRow.key).Nodup ∧
      ∀ row ∈ written.decisions, row.eventId ∈ eventIds)
    ⟨fun h => ⟨h.1, h.2.1, h.2.2⟩, fun h => ⟨h.1, h.2, h.3⟩⟩

/-- **Whether the statements of a projection are accepted does not depend on what the tables
hold.** -/
theorem exists_executeAll_statements :
    (∃ after, tables.executeAll eventIds written.statements = .ok after) ↔
      written.Storable eventIds := by
  have hcleared : ∀ row ∈ written.attempts,
      (tables.overwritten written.visibility).jobAttempts.find? row.key = none := by
    intro row hrow
    rw [Table.find?_eq_none_iff]
    intro other hother hkey
    have hdeleted := (List.mem_filter.1 hother).2
    have hjob : other.jobId = written.visibility.jobId :=
      (congrArg Prod.fst hkey).trans
        ((written.attempts_jobId row hrow).trans written.visibility_jobId.symm)
    simp [hjob] at hdeleted
  constructor
  · rintro ⟨after, hafter⟩
    obtain ⟨tables₁, h₁, tables₂, h₂, -⟩ := executeAll_statements_eq_ok_iff.1 hafter
    obtain ⟨hnumbers, hkeys, -⟩ := ProjectionTables.exists_executeAll_insertAttempt.1 ⟨_, h₁⟩
    exact ⟨hnumbers, hkeys, ProjectionTables.exists_executeAll_insertDecision.1 ⟨_, h₂⟩⟩
  · rintro ⟨hnumbers, hkeys, hevents⟩
    obtain ⟨tables₁, h₁⟩ :=
      ProjectionTables.exists_executeAll_insertAttempt.2 ⟨hnumbers, hkeys, hcleared⟩
    obtain ⟨tables₂, h₂⟩ := ProjectionTables.exists_executeAll_insertDecision.2 hevents
    exact ⟨_, executeAll_statements_eq_ok_iff.2 ⟨tables₁, h₁, tables₂, h₂,
      ProjectionTables.executeAll_upsertFinding _⟩⟩

end Written

/-! ### The projection of a job and of a row -/

namespace EdrDb

variable {Payload : Type} {reading : Reading Payload} {db db' : EdrDb Payload}
  {row other : EdrRow Payload} {jobId : String}

/-- The rows of the job can be projected: they are replayed without an exception, and what comes
out meets the constraints of the tables. -/
def Rebuilds (reading : Reading Payload) (db : EdrDb Payload) (jobId : String) : Prop :=
  match reading.read jobId (db.rowsOf jobId) with
  | .ok written => written.Storable db.eventIds
  | .error _ => False

instance : Decidable (db.Rebuilds reading jobId) := by
  unfold Rebuilds
  exact match reading.read jobId (db.rowsOf jobId) with
    | .ok written => inferInstanceAs (Decidable (written.Storable db.eventIds))
    | .error _ => isFalse id

theorem rebuilds_iff_read : db.Rebuilds reading jobId ↔
    ∃ written, reading.read jobId (db.rowsOf jobId) = .ok written ∧
      written.Storable db.eventIds := by
  unfold Rebuilds
  cases reading.read jobId (db.rowsOf jobId) with
  | error e => exact iff_of_false id fun ⟨_, h, _⟩ => by cases h
  | ok written =>
      exact ⟨fun h => ⟨_, rfl, h⟩, fun ⟨_, h, hstorable⟩ => by cases h; exact hstorable⟩

theorem projectJob_eq_ok_iff : db.projectJob reading jobId = .ok db' ↔
    ∃ written, reading.read jobId (db.rowsOf jobId) = .ok written ∧
      ∃ tables, db.tables.executeAll db.eventIds written.statements = .ok tables ∧
        db' = { db with tables := tables } := by
  simp only [projectJob, Except.bind_eq_ok_iff]
  refine exists_congr fun written => and_congr_right fun _ => exists_congr fun tables =>
    and_congr_right fun _ => ?_
  exact ⟨fun h => (Except.ok.inj h).symm, fun h => congrArg Except.ok h.symm⟩

/-- What the journal decides stays when the journal stays. -/
theorem rebuilds_congr (h : db'.edrEvents = db.edrEvents) (jobId : String) :
    db'.Rebuilds reading jobId ↔ db.Rebuilds reading jobId := by
  unfold Rebuilds rowsOf ordered eventIds
  rw [h]

theorem rowsOf_congr (h : db'.edrEvents = db.edrEvents) (jobId : String) :
    db'.rowsOf jobId = db.rowsOf jobId := by
  unfold rowsOf ordered
  rw [h]

/-- The projection of a job goes through exactly when its rows can be projected. -/
theorem exists_projectJob : (∃ db', db.projectJob reading jobId = .ok db') ↔
    db.Rebuilds reading jobId := by
  rw [rebuilds_iff_read]
  simp only [projectJob_eq_ok_iff]
  constructor
  · rintro ⟨db', written, hread, tables, htables, -⟩
    exact ⟨written, hread, Written.exists_executeAll_statements.1 ⟨tables, htables⟩⟩
  · rintro ⟨written, hread, hstorable⟩
    obtain ⟨tables, htables⟩ := Written.exists_executeAll_statements.2 hstorable
    exact ⟨_, written, hread, tables, htables, rfl⟩

@[simp] theorem mark_edrEvents : (db.mark row).edrEvents = db.edrEvents := rfl

/-- Which rows are marked after one more is. -/
theorem marked_mark : (db.mark row).Marked other ↔
    db.Marked other ∨ other.eventId = row.eventId := by
  unfold Marked mark
  rw [Table.find?_insertOrKeep, Option.isSome_or, Bool.or_eq_true]
  split
  · next h => simp [h]
  · next h => simp [h]

theorem projectRow_eq_ok_iff : db.projectRow reading row = .ok db' ↔
    ∃ db₁, db.projectJob reading row.jobId = .ok db₁ ∧ db' = db₁.mark row := by
  simp only [projectRow, Except.bind_eq_ok_iff]
  exact exists_congr fun db₁ => and_congr_right fun _ =>
    ⟨fun h => (Except.ok.inj h).symm, fun h => congrArg Except.ok h.symm⟩

theorem exists_projectRow : (∃ db', db.projectRow reading row = .ok db') ↔
    db.Rebuilds reading row.jobId := by
  rw [← exists_projectJob]
  simp only [projectRow_eq_ok_iff]
  exact ⟨fun ⟨_, db₁, h, _⟩ => ⟨db₁, h⟩, fun ⟨db₁, h⟩ => ⟨_, db₁, h, rfl⟩⟩

/-- The visibility row and the attempts of a job are what is read off some journal rows. -/
def Reflects (reading : Reading Payload) (db : EdrDb Payload) (jobId : String)
    (rows : List (EdrRow Payload)) : Prop :=
  ∃ written, reading.read jobId rows = .ok written ∧
    db.tables.jobVisibility.find? jobId = some written.visibility ∧
    db.tables.jobAttempts.rows.filter (fun attempt => attempt.jobId = jobId) = written.attempts

/-- What is read decides what is projected and shown. -/
theorem rebuilds_iff_of_read_eq {reading' : Reading Payload}
    (h : reading.read jobId (db.rowsOf jobId) = reading'.read jobId (db.rowsOf jobId)) :
    db.Rebuilds reading jobId ↔ db.Rebuilds reading' jobId := by
  unfold Rebuilds
  rw [h]

theorem reflects_iff_of_read_eq {reading' : Reading Payload} {rows : List (EdrRow Payload)}
    (h : reading.read jobId rows = reading'.read jobId rows) :
    db.Reflects reading jobId rows ↔ db.Reflects reading' jobId rows := by
  unfold Reflects
  rw [h]

/-- Writing the projection of a job, as the tables show it. -/
theorem reads_of_projectedTo {tables tables' : ProjectionTables} {jobId : String}
    {written : Written jobId} (h : tables.ProjectedTo tables' written) (jobId' : String) :
    tables'.jobVisibility.find? jobId' =
        (if jobId' = jobId then some written.visibility
          else tables.jobVisibility.find? jobId') ∧
      tables'.jobAttempts.rows.filter (fun attempt => attempt.jobId = jobId') =
        if jobId' = jobId then written.attempts
        else tables.jobAttempts.rows.filter fun attempt => attempt.jobId = jobId' := by
  have hown := written.attempts_jobId
  rw [h.jobVisibility, h.jobAttempts, Table.find?_upsert, written.visibility_jobId,
    List.filter_append, List.filter_filter]
  refine ⟨rfl, ?_⟩
  split
  · next hjob =>
      subst hjob
      rw [List.filter_eq_nil_iff.2, List.filter_eq_self.2, List.nil_append]
      · exact fun attempt hattempt => decide_eq_true (hown attempt hattempt)
      · simp
  · next hjob =>
      have hnone : written.attempts.filter
          (fun attempt => decide (attempt.jobId = jobId')) = [] := by
        refine List.filter_eq_nil_iff.2 fun attempt hattempt heq => ?_
        exact hjob ((of_decide_eq_true heq).symm.trans (hown attempt hattempt))
      rw [hnone, List.append_nil]
      refine List.filter_congr fun attempt _ => ?_
      by_cases hattempt : attempt.jobId = jobId'
      · simp [hattempt, hjob]
      · simp [hattempt]

/-- **What the projection of a job leaves in the database.** -/
structure AfterProjectJob (reading : Reading Payload) (db db' : EdrDb Payload)
    (jobId : String) : Prop where
  edrEvents : db'.edrEvents = db.edrEvents
  projectedEvents : db'.tables.projectedEvents = db.tables.projectedEvents
  reflects : db'.Reflects reading jobId (db.rowsOf jobId)
  others : ∀ jobId', jobId' ≠ jobId → ∀ rows, db.Reflects reading jobId' rows →
    db'.Reflects reading jobId' rows

theorem afterProjectJob (h : db.projectJob reading jobId = .ok db') :
    AfterProjectJob reading db db' jobId := by
  obtain ⟨written, hread, tables, htables, rfl⟩ := projectJob_eq_ok_iff.1 h
  have hprojected := Written.executeAll_statements htables
  obtain ⟨hvisibility, hattempts⟩ := reads_of_projectedTo hprojected jobId
  refine ⟨rfl, hprojected.projectedEvents, ⟨written, hread, ?_, ?_⟩, ?_⟩
  · rw [hvisibility, if_pos rfl]
  · rw [hattempts, if_pos rfl]
  · rintro jobId' hjob rows ⟨written', hread', hvisibility', hattempts'⟩
    obtain ⟨hvisible, hattempt⟩ := reads_of_projectedTo hprojected jobId'
    refine ⟨written', hread', ?_, ?_⟩
    · rw [hvisible, if_neg hjob, hvisibility']
    · rw [hattempt, if_neg hjob, hattempts']

/-! ### The engine on instants -/

section OfDecoder

variable {decode : Payload → Except WireError Event} {rows : List (EdrRow Payload)}

theorem read_ofDecoder_eq_ok_iff {written : Written jobId} :
    (Reading.ofDecoder decode).read jobId rows = .ok written ↔
      ∃ projection, rebuild decode jobId rows = .ok projection ∧
        projection.written jobId = written := by
  simp only [Reading.ofDecoder, Except.bind_eq_ok_iff, pure, Except.pure, Except.ok.injEq]

/-- A job can be projected when its rows are rebuilt and what comes out can be stored. -/
theorem rebuilds_iff : db.Rebuilds decode jobId ↔
    ∃ projection, rebuild decode jobId (db.rowsOf jobId) = .ok projection ∧
      (projection.written jobId).Storable db.eventIds := by
  simp only [rebuilds_iff_read, read_ofDecoder_eq_ok_iff]
  constructor
  · rintro ⟨_, ⟨projection, hrebuild, rfl⟩, hstorable⟩
    exact ⟨projection, hrebuild, hstorable⟩
  · rintro ⟨projection, hrebuild, hstorable⟩
    exact ⟨_, ⟨projection, hrebuild, rfl⟩, hstorable⟩

/-- The tables show the reduction of some journal rows. -/
theorem reflects_iff : db.Reflects decode jobId rows ↔
    ∃ projection, rebuild decode jobId rows = .ok projection ∧
      db.tables.jobVisibility.find? jobId = some (projection.visibilityRow jobId) ∧
      db.tables.jobAttempts.rows.filter (fun attempt => attempt.jobId = jobId) =
        projection.attemptRows jobId := by
  simp only [Reflects, read_ofDecoder_eq_ok_iff]
  constructor
  · rintro ⟨_, ⟨projection, hrebuild, rfl⟩, hshown⟩
    exact ⟨projection, hrebuild, hshown⟩
  · rintro ⟨projection, hrebuild, hshown⟩
    exact ⟨_, ⟨projection, hrebuild, rfl⟩, hshown⟩

end OfDecoder

end EdrDb

end ScheduledJobs
