/-
**Projecting row by row, and projecting all at once.**

One worker projects the journal while it grows.  Each projection of a job is of more rows than the
one before, and the three ways in which its statements meet older rows come to the same thing: the
visibility row and the attempts are replaced, the decisions that are kept are those that would be
written, and so are the findings that are merged.

Main definitions:

* `ProjectionTables.Shows` — what the tables say about a job;
* `Projectors.Ordered` — one worker, and a journal that grows at its end;
* `Projectors.Alone` — the condition: the rows carry their ids as well;
* `Projectors.AgreesWithRebuild` — the tables are those a rebuild makes of the journal.

Main results:

* `ProjectionTables.Shows.project` — what one more projection of a job leaves;
* `Projectors.incremental_eq_rebuild` — **once no row is pending, the tables are those of a
  rebuild**;
* `Projectors.not_agreesWithRebuild_misnamedRun` — the rows have to carry their ids.
-/

import ScheduledJobs.ConcurrentProjectors
import ScheduledJobs.ProjectionGrowth

set_option relaxedAutoImplicit false
set_option autoImplicit false

namespace ScheduledJobs

/-! ### What the tables say about a job -/

/-- What there is about a job: nothing, or the rows of a projection. -/
structure JobTables where
  visibility : Option JobVisibilityRow := none
  attempts : List JobAttemptRow := []
  decisions : List DecisionRow := []
  findings : List FindingRow := []

/-- The rows of a projection. -/
def Projection.jobTables (jobId : String) (projection : Projection) : JobTables where
  visibility := some (projection.visibilityRow jobId)
  attempts := projection.attemptRows jobId
  decisions := projection.decisionRows jobId
  findings := projection.findingRows jobId

/-- The rows of the projection of some journal rows, if they can be replayed. -/
def JobTables.of {Payload : Type} (decode : Payload → Except WireError Event) (jobId : String)
    (rows : List (EdrRow Payload)) : JobTables :=
  match rebuild decode jobId rows with
  | .ok projection => projection.jobTables jobId
  | .error _ => {}

/-- **What the tables say about a job.** -/
structure ProjectionTables.Shows (tables : ProjectionTables) (jobId : String)
    (shown : JobTables) : Prop where
  visibility : tables.jobVisibility.find? jobId = shown.visibility
  attempts : tables.jobAttempts.rows.filter (fun row => row.jobId = jobId) = shown.attempts
  decisions : ∀ eventId,
    (tables.projectionDecisions.find? eventId).filter (fun row => row.jobId = jobId) =
      shown.decisions.find? fun row => row.eventId = eventId
  findings : ∀ code firstObservedAt,
    tables.reconciliationFindings.find? (jobId, code, firstObservedAt) =
      shown.findings.find? fun row => row.key = (jobId, code, firstObservedAt)

/-- Later rows of a job do not contradict earlier ones. -/
structure JobTables.Extends (shown later : JobTables) : Prop where
  decisions : shown.decisions <+: later.decisions
  findings : ∀ row ∈ shown.findings, ∃ row' ∈ later.findings,
    row'.key = row.key ∧ row'.message = row.message

/-- Nothing is contradicted by anything. -/
theorem JobTables.extends_of_empty (later : JobTables) : JobTables.Extends {} later where
  decisions := List.nil_prefix
  findings := fun _ hrow => by cases hrow

/-! ### One more projection -/

namespace Projection

variable {jobId : String} {projection : Projection}

theorem jobId_of_mem_decisionRows {row : DecisionRow} (h : row ∈ projection.decisionRows jobId) :
    row.jobId = jobId := by
  obtain ⟨_, -, rfl⟩ := List.mem_map.1 h
  rfl

/-- All decision rows of a projection are about its job. -/
theorem filter_find?_decisionRows (p : DecisionRow → Bool) (jobId' : String) :
    ((projection.decisionRows jobId).find? p).filter (fun row => row.jobId = jobId') =
      if jobId' = jobId then (projection.decisionRows jobId).find? p else none := by
  cases hfind : (projection.decisionRows jobId).find? p with
  | none => simp
  | some row =>
      have hjob := jobId_of_mem_decisionRows (List.mem_of_find?_eq_some hfind)
      by_cases hid : jobId' = jobId
      · rw [if_pos hid]
        exact Option.filter_some_pos (decide_eq_true (hjob.trans hid.symm))
      · rw [if_neg hid]
        exact Option.filter_some_neg (by simpa [hjob] using Ne.symm hid)

theorem jobId_of_mem_findingRows {row : FindingRow} (h : row ∈ projection.findingRows jobId) :
    row.jobId = jobId := by
  obtain ⟨_, -, rfl⟩ := List.mem_map.1 h
  rfl

end Projection

/-- A row that is merged into one with its key and message replaces it. -/
theorem FindingRow.over_eq_self {row old : FindingRow} (hkey : old.key = row.key)
    (hmessage : old.message = row.message) : row.over (some old) = row := by
  simp only [FindingRow.key, Prod.mk.injEq] at hkey
  obtain ⟨hjob, hcode, htime⟩ := hkey
  simp only [FindingRow.over, hjob, hcode, htime, hmessage]

/-- A finding is merged under its own key. -/
theorem FindingRow.key_over {row : FindingRow} {old : Option FindingRow}
    (h : ∀ found ∈ old, found.key = row.key) : (row.over old).key = row.key := by
  cases old with
  | none => rfl
  | some found => exact h found rfl

theorem find?_mergeFinding (findings : Table FindingRow.key) (row : FindingRow)
    (key : String × String × Datetime) :
    (mergeFinding findings row).find? key =
      if key = row.key then some (row.over (findings.find? row.key)) else findings.find? key := by
  have hkey : (row.over (findings.find? row.key)).key = row.key :=
    FindingRow.key_over fun _ hfound => Table.key_of_find? hfound
  rw [mergeFinding, Table.find?_upsert, hkey]

/-- Reading after findings with different keys are merged. -/
theorem find?_foldl_mergeFinding {rows : List FindingRow} (hnodup : (rows.map FindingRow.key).Nodup)
    (findings : Table FindingRow.key) (key : String × String × Datetime) :
    (rows.foldl mergeFinding findings).find? key =
      match rows.find? fun row => row.key = key with
      | some row => some (row.over (findings.find? key))
      | none => findings.find? key := by
  induction rows generalizing findings with
  | nil => rfl
  | cons row rows ih =>
      rw [List.map_cons, List.nodup_cons] at hnodup
      rw [List.foldl_cons, ih hnodup.2, find?_mergeFinding, List.find?_cons]
      by_cases hkey : row.key = key
      · have hlater : rows.find? (fun row => row.key = key) = none := by
          refine List.find?_eq_none.2 fun other hother heq => hnodup.1 ?_
          rw [hkey, ← of_decide_eq_true heq]
          exact List.mem_map_of_mem hother
        simp [hlater, hkey]
      · simp [hkey, Ne.symm hkey]

namespace ProjectionTables

variable {tables tables' : ProjectionTables} {jobId jobId' : String} {projection : Projection}
  {shown : JobTables}

/-- What is said about the job of a projection. -/
theorem Shows.project (h : tables.Shows jobId shown)
    (hprojected : tables.ProjectedTo tables' (projection.written jobId))
    (hextends : shown.Extends (projection.jobTables jobId))
    (hkeys : ((projection.findingRows jobId).map FindingRow.key).Nodup)
    (hforeign : ∀ row ∈ projection.decisionRows jobId, ∀ old,
      tables.projectionDecisions.find? row.eventId = some old → old.jobId = jobId) :
    tables'.Shows jobId (projection.jobTables jobId) := by
  obtain ⟨hvisibility, hattempts⟩ := EdrDb.reads_of_projectedTo hprojected jobId
  rw [if_pos rfl] at hvisibility hattempts
  refine ⟨hvisibility, hattempts, fun eventId => ?_, fun code firstObservedAt => ?_⟩
  · -- a decision that is kept is the one that would be written
    rw [hprojected.projectionDecisions, Projection.written_decisions,
      Table.find?_foldl_insertOrKeep]
    have hshown := h.decisions eventId
    change _ = (projection.decisionRows jobId).find? fun row => row.eventId = eventId
    cases hold : tables.projectionDecisions.find? eventId with
    | none =>
        rw [Option.none_or, Projection.filter_find?_decisionRows, if_pos rfl]
    | some old =>
        rw [Option.some_or]
        rw [hold] at hshown
        by_cases hjob : old.jobId = jobId
        · have hkept : (some old).filter (fun row => decide (row.jobId = jobId)) = some old :=
            Option.filter_some_pos (decide_eq_true hjob)
          rw [hkept] at hshown ⊢
          obtain ⟨rest, hrest⟩ := hextends.decisions
          change _ = projection.decisionRows jobId at hrest
          rw [← hrest, List.find?_append, ← hshown, Option.some_or]
        · -- a decision about an event of another job is in nobody's way
          have hnone : (projection.decisionRows jobId).find?
              (fun row => row.eventId = eventId) = none := by
            refine List.find?_eq_none.2 fun row hrow heq => hjob ?_
            exact hforeign row hrow old ((of_decide_eq_true heq).symm ▸ hold)
          rw [hnone]
          exact Option.filter_some_neg (by simpa using hjob)
  · rw [hprojected.reconciliationFindings, Projection.written_findings,
      find?_foldl_mergeFinding hkeys, h.findings]
    change _ = (projection.findingRows jobId).find? fun row =>
      row.key = (jobId, code, firstObservedAt)
    cases hnew : (projection.findingRows jobId).find? fun row =>
        row.key = (jobId, code, firstObservedAt) with
    | none =>
        refine List.find?_eq_none.2 fun row hrow heq => ?_
        obtain ⟨row', hrow', hkey, -⟩ := hextends.findings row hrow
        exact List.find?_eq_none.1 hnew row' hrow'
          (decide_eq_true (hkey.trans (of_decide_eq_true heq)))
    | some row =>
        refine congrArg some ?_
        cases hold : shown.findings.find? fun row => row.key = (jobId, code, firstObservedAt) with
        | none => rfl
        | some old =>
            -- the row that is there has the same key, so it has the same message
            have hkey : row.key = (jobId, code, firstObservedAt) := by
              simpa using List.find?_some hnew
            have hkey' : old.key = (jobId, code, firstObservedAt) := by
              simpa using List.find?_some hold
            obtain ⟨row', hrow', hsame, hmessage⟩ :=
              hextends.findings old (List.mem_of_find?_eq_some hold)
            obtain rfl : row' = row :=
              List.inj_on_of_nodup_map hkeys hrow' (List.mem_of_find?_eq_some hnew)
                (hsame.trans (hkey'.trans hkey.symm))
            exact FindingRow.over_eq_self hsame.symm hmessage.symm

/-- What is said about another job. -/
theorem Shows.project_other (h : tables.Shows jobId' shown)
    (hprojected : tables.ProjectedTo tables' (projection.written jobId))
    (hkeys : ((projection.findingRows jobId).map FindingRow.key).Nodup)
    (hne : jobId' ≠ jobId) : tables'.Shows jobId' shown := by
  obtain ⟨hvisibility, hattempts⟩ := EdrDb.reads_of_projectedTo hprojected jobId'
  rw [if_neg hne] at hvisibility hattempts
  refine ⟨hvisibility.trans h.visibility, hattempts.trans h.attempts, fun eventId => ?_,
    fun code firstObservedAt => ?_⟩
  · rw [← h.decisions eventId, hprojected.projectionDecisions, Projection.written_decisions,
      Table.find?_foldl_insertOrKeep]
    cases hold : tables.projectionDecisions.find? eventId with
    | some old => rw [Option.some_or]
    | none =>
        rw [Option.none_or, Projection.filter_find?_decisionRows, if_neg hne]
        rfl
  · have hnone : (projection.findingRows jobId).find?
        (fun row => row.key = (jobId', code, firstObservedAt)) = none := by
      refine List.find?_eq_none.2 fun row hrow heq => hne ?_
      rw [← Projection.jobId_of_mem_findingRows hrow]
      exact (congrArg Prod.fst (of_decide_eq_true heq)).symm
    rw [hprojected.reconciliationFindings, Projection.written_findings,
      find?_foldl_mergeFinding hkeys, hnone, h.findings]

end ProjectionTables

/-! ### Projections of more and more rows -/

section Rows

variable {Payload : Type} {decode : Payload → Except WireError Event} {jobId : String}
  {rows rows' : List (EdrRow Payload)} {projection projection' : Projection}

theorem JobTables.of_rebuild (h : rebuild decode jobId rows = .ok projection) :
    JobTables.of decode jobId rows = projection.jobTables jobId := by
  rw [JobTables.of, h]

/-- The findings of a projection have different keys. -/
theorem nodup_findingRows (hrows : ∀ row ∈ rows, row.CarriesId decode)
    (h : rebuild decode jobId rows = .ok projection) :
    ((projection.findingRows jobId).map FindingRow.key).Nodup := by
  have hkeyed := (consistent_of_rebuild hrows h).1
  have hcodes : projection.snapshot.findings.values.map Finding.code =
      projection.snapshot.findings.keys := by
    rw [Dict.values, Dict.keys, List.map_map]
    exact List.map_congr_left fun entry hentry =>
      hkeyed entry.1 entry.2 (Dict.mem_entries_iff.1 hentry)
  have hvalues : ((projection.findingRows jobId).map FindingRow.key).map (fun key => key.2.1) =
      projection.snapshot.findings.keys.map FindingCode.value := by
    rw [← hcodes, Projection.findingRows, List.map_map, List.map_map, List.map_map]
    rfl
  refine List.Nodup.of_map (fun key : String × String × Datetime => key.2.1) ?_
  rw [hvalues]
  exact (Dict.nodup_keys _).map FindingCode.value_injective

/-- **What was written about a job is not contradicted by what is written later.** -/
theorem extends_of_rebuild (hrows : ∀ row ∈ rows', row.CarriesId decode) (hinit : rows <+: rows')
    (h : rebuild decode jobId rows' = .ok projection') :
    (JobTables.of decode jobId rows).Extends (projection'.jobTables jobId) := by
  unfold JobTables.of
  cases hearlier : rebuild decode jobId rows with
  | error e => exact JobTables.extends_of_empty _
  | ok projection =>
      have hgrows := rebuild_grows hinit hearlier h
      have hkeyed := (consistent_of_rebuild
        (fun row hrow => hrows row (hinit.subset hrow)) hearlier).1
      have hkeyed' := (consistent_of_rebuild hrows h).1
      refine ⟨hgrows.decisions.map _, fun row hrow => ?_⟩
      obtain ⟨finding, hfinding, rfl⟩ := List.mem_map.1 hrow
      obtain ⟨code, hcode⟩ := Dict.mem_values_iff.1 hfinding
      obtain ⟨finding', hfound, htime, hmessage⟩ := hgrows.findings.kept code finding hcode
      have hsame : finding'.code = finding.code :=
        (hkeyed' code finding' hfound).trans (hkeyed code finding hcode).symm
      refine ⟨_, List.mem_map_of_mem (Dict.mem_values_iff.2 ⟨code, hfound⟩), ?_, hmessage⟩
      simp [FindingRow.key, hsame, htime]

end Rows

/-- **The tables show each job as the projection of some of its rows**, and each decision is about
a journal row of its job. -/
structure ShowsRows {Payload : Type} (decode : Payload → Except WireError Event)
    (journal : Table (@EdrRow.eventId Payload)) (tables : ProjectionTables)
    (basis : String → List (EdrRow Payload)) : Prop where
  shows : ∀ jobId, tables.Shows jobId (.of decode jobId (basis jobId))
  owned : ∀ decision ∈ tables.projectionDecisions.rows,
    ∃ row ∈ journal.rows, row.eventId = decision.eventId ∧ row.jobId = decision.jobId

namespace ShowsRows

variable {Payload : Type} {decode : Payload → Except WireError Event}
  {journal journal' : Table (@EdrRow.eventId Payload)} {tables tables' : ProjectionTables}
  {basis : String → List (EdrRow Payload)}

theorem empty : ShowsRows decode journal {} fun _ => [] where
  shows := fun _ => ⟨rfl, rfl, fun _ => rfl, fun _ _ => rfl⟩
  owned := fun _ hdecision => by cases hdecision

theorem mono (h : ShowsRows decode journal tables basis)
    (hmono : ∀ row ∈ journal.rows, row ∈ journal'.rows) :
    ShowsRows decode journal' tables basis where
  shows := h.shows
  owned := by
    intro decision hdecision
    obtain ⟨row, hrow, hevent⟩ := h.owned decision hdecision
    exact ⟨row, hmono row hrow, hevent⟩

/-- **What one projection does**: the job is shown as the projection of the rows it was read
from. -/
theorem project {jobId : String} {rows : List (EdrRow Payload)} {projection : Projection}
    (h : ShowsRows decode journal tables basis)
    (hrows : ∀ row ∈ rows, row ∈ journal.rows ∧ row.jobId = jobId ∧ row.CarriesId decode)
    (hinit : basis jobId <+: rows) (hrebuild : rebuild decode jobId rows = .ok projection)
    (hprojected : tables.ProjectedTo tables' (projection.written jobId)) :
    ShowsRows decode journal tables' (Function.update basis jobId rows) := by
  have hcarries : ∀ row ∈ rows, row.CarriesId decode := fun row hrow => (hrows row hrow).2.2
  have hkeys := nodup_findingRows hcarries hrebuild
  -- a decision of the projection is about one of the rows
  have hsource : ∀ decision ∈ projection.decisionRows jobId,
      ∃ row ∈ journal.rows, row.eventId = decision.eventId ∧ row.jobId = jobId := by
    intro decision hdecision
    obtain ⟨source, hsource, rfl⟩ := List.mem_map.1 hdecision
    obtain ⟨row, hrow, hevent⟩ :=
      List.mem_map.1 ((consistent_of_rebuild hcarries hrebuild).2 source hsource)
    exact ⟨row, (hrows row hrow).1, hevent, (hrows row hrow).2.1⟩
  constructor
  · intro jobId'
    by_cases hjob : jobId' = jobId
    · subst hjob
      rw [Function.update_self, JobTables.of_rebuild hrebuild]
      refine (h.shows jobId').project hprojected (extends_of_rebuild hcarries hinit hrebuild)
        hkeys fun decision hdecision old hold => ?_
      obtain ⟨row, hrow, hevent, hjob⟩ := hsource decision hdecision
      obtain ⟨row', hrow', hevent', hjob'⟩ := h.owned old (Table.mem_of_find? hold)
      have hid : old.eventId = decision.eventId := Table.key_of_find? hold
      obtain rfl := Table.eq_of_key_eq hrow hrow' (hevent.trans (hid.symm.trans hevent'.symm))
      exact hjob'.symm.trans hjob
    · rw [Function.update_of_ne hjob]
      exact (h.shows jobId').project_other hprojected hkeys hjob
  · intro decision hdecision
    have hfound := Table.find?_of_mem hdecision
    rw [hprojected.projectionDecisions, Projection.written_decisions,
      Table.find?_foldl_insertOrKeep] at hfound
    rcases Option.or_eq_some_iff.1 hfound with hold | ⟨-, hnew⟩
    · exact h.owned decision (Table.mem_of_find? hold)
    · have hmem := List.mem_of_find?_eq_some hnew
      obtain ⟨row, hrow, hevent, hjob⟩ := hsource decision hmem
      exact ⟨row, hrow, hevent, hjob.trans (Projection.jobId_of_mem_decisionRows hmem).symm⟩

end ShowsRows

/-- Tables with the same rows, up to their order and the entries of `projected_events`. -/
structure ProjectionTables.SameRows (tables tables' : ProjectionTables) : Prop where
  jobVisibility : ∀ jobId, tables.jobVisibility.find? jobId = tables'.jobVisibility.find? jobId
  jobAttempts : ∀ key, tables.jobAttempts.find? key = tables'.jobAttempts.find? key
  projectionDecisions : ∀ eventId,
    tables.projectionDecisions.find? eventId = tables'.projectionDecisions.find? eventId
  reconciliationFindings : ∀ key,
    tables.reconciliationFindings.find? key = tables'.reconciliationFindings.find? key

/-- Tables that say the same about every job have the same rows. -/
theorem ProjectionTables.sameRows_of_shows {tables tables' : ProjectionTables}
    {shown : String → JobTables} (h : ∀ jobId, tables.Shows jobId (shown jobId))
    (h' : ∀ jobId, tables'.Shows jobId (shown jobId)) : tables.SameRows tables' where
  jobVisibility := fun jobId => (h jobId).visibility.trans (h' jobId).visibility.symm
  jobAttempts := by
    intro key
    -- an attempt is found among those of its job
    have hfind : ∀ attempts : Table JobAttemptRow.key, attempts.find? key =
        (attempts.rows.filter fun row => row.jobId = key.1).find? fun row => row.key = key := by
      intro attempts
      rw [Table.find?, List.find?_filter]
      congr 1
      funext row
      by_cases hkey : row.key = key
      · have hjob : row.jobId = key.1 := congrArg Prod.fst hkey
        simp [hkey, hjob]
      · simp [hkey]
    rw [hfind, hfind, (h key.1).attempts, (h' key.1).attempts]
  projectionDecisions := by
    have hle : ∀ {a b : ProjectionTables}, (∀ jobId, a.Shows jobId (shown jobId)) →
        (∀ jobId, b.Shows jobId (shown jobId)) → ∀ {eventId decision},
          a.projectionDecisions.find? eventId = some decision →
            b.projectionDecisions.find? eventId = some decision := by
      intro a b ha hb eventId decision hfound
      have hsame := ((hb decision.jobId).decisions eventId).trans
        ((ha decision.jobId).decisions eventId).symm
      have hkept : (some decision).filter (fun row => decide (row.jobId = decision.jobId)) =
          some decision := Option.filter_some_pos (decide_eq_true rfl)
      rw [hfound, hkept, Option.filter_eq_some_iff] at hsame
      exact hsame.1
    intro eventId
    refine Option.ext fun decision => ⟨fun hfound => hle h h' hfound, fun hfound => hle h' h hfound⟩
  reconciliationFindings := fun key =>
    ((h key.1).findings key.2.1 key.2.2).trans ((h' key.1).findings key.2.1 key.2.2).symm

/-! ### The projection of every job -/

namespace EdrDb

variable {Payload : Type} {decode : Payload → Except WireError Event} {db : EdrDb Payload}

/-- Jobs projected one after the other. -/
theorem exists_projectJobs (hcarries : ∀ row ∈ db.edrEvents.rows, row.CarriesId decode)
    {jobIds : List String} (hrebuilds : ∀ jobId ∈ jobIds, db.Rebuilds decode jobId)
    {basis : String → List (EdrRow Payload)}
    (hshows : ShowsRows decode db.edrEvents db.tables basis)
    (hinit : ∀ jobId, basis jobId <+: db.rowsOf jobId) :
    ∃ db', jobIds.foldlM (fun db jobId => db.projectJob decode jobId) db = .ok db' ∧
      ∃ basis', ShowsRows decode db.edrEvents db'.tables basis' ∧
        ∀ jobId, jobId ∈ jobIds ∨ basis jobId = db.rowsOf jobId →
          basis' jobId = db.rowsOf jobId := by
  induction jobIds generalizing db basis with
  | nil => exact ⟨db, rfl, basis, hshows, fun jobId h => h.resolve_left (List.not_mem_nil)⟩
  | cons jobId jobIds ih =>
      obtain ⟨next, hnext⟩ := exists_projectJob.2 (hrebuilds jobId (List.mem_cons_self ..))
      obtain ⟨written, hread, tables, htables, rfl⟩ := projectJob_eq_ok_iff.1 hnext
      obtain ⟨projection, hrebuild, rfl⟩ := read_ofDecoder_eq_ok_iff.1 hread
      have hprojected := Written.executeAll_statements htables
      have hrows : ∀ row ∈ db.rowsOf jobId,
          row ∈ db.edrEvents.rows ∧ row.jobId = jobId ∧ row.CarriesId decode := by
        intro row hrow
        obtain ⟨hmem, hjob⟩ := mem_rowsOf.1 hrow
        exact ⟨hmem, hjob, hcarries row hmem⟩
      have hnow := hshows.project hrows (hinit jobId) hrebuild hprojected
      obtain ⟨db', hrest, basis', hshows', hbasis'⟩ := @ih { db with tables := tables } hcarries
        (fun jobId' hmem => hrebuilds jobId' (List.mem_cons_of_mem _ hmem)) _ hnow
        (by
          intro jobId'
          by_cases hjob : jobId' = jobId
          · rw [hjob, Function.update_self]
            exact List.prefix_refl _
          · rw [Function.update_of_ne hjob]
            exact hinit jobId')
      refine ⟨db', ?_, basis', hshows', fun jobId' h => hbasis' jobId' ?_⟩
      · rw [List.foldlM_cons, hnext]
        exact hrest
      · by_cases hjob : jobId' = jobId
        · rw [hjob, Function.update_self]
          exact Or.inr rfl
        · rw [Function.update_of_ne hjob]
          exact h.imp (fun hmem => (List.mem_cons.1 hmem).resolve_left hjob) id

/-- **A rebuild from empty tables** shows each job as the projection of all its rows. -/
theorem exists_rebuildAll (hcarries : ∀ row ∈ db.edrEvents.rows, row.CarriesId decode)
    (hrebuilds : ∀ row ∈ db.edrEvents.rows, db.Rebuilds decode row.jobId)
    (hempty : db.tables = {}) :
    ∃ db' n, db.rebuildAll decode = .ok (db', n) ∧
      ShowsRows decode db.edrEvents db'.tables db.rowsOf := by
  obtain ⟨db', hfold, basis, hshows, hbasis⟩ := @exists_projectJobs _ decode db hcarries
    (((db.edrEvents.rows.map EdrRow.jobId).dedup).insertionSort (· ≤ ·))
    (by
      intro jobId hmem
      rw [List.mem_insertionSort, List.mem_dedup] at hmem
      obtain ⟨row, hrow, rfl⟩ := List.mem_map.1 hmem
      exact hrebuilds row hrow)
    (fun _ => []) (by rw [hempty]; exact .empty) (fun _ => List.nil_prefix)
  refine ⟨db', _, by rw [rebuildAll, hfold]; rfl, ?_⟩
  have hall : basis = db.rowsOf := by
    funext jobId
    refine hbasis jobId ?_
    rw [List.mem_insertionSort, List.mem_dedup, or_iff_not_imp_left]
    intro hnone
    refine (List.eq_nil_iff_forall_not_mem.2 fun row hrow => hnone ?_).symm
    obtain ⟨hmem, rfl⟩ := mem_rowsOf.1 hrow
    exact List.mem_map_of_mem hmem
  rwa [hall] at hshows

end EdrDb

/-! ### One worker -/

namespace Projectors

variable {Payload : Type} {decode : Payload → Except WireError Event} {w w' : World Payload}

/-- One worker, and a journal that grows at its end. -/
def Ordered (w : World Payload) : Label Payload → Prop
  | .arrive row => ∀ earlier ∈ w.db.edrEvents.rows, earlier.Before row
  | .claim worker _ => worker = 0
  | _ => True

/-- **One worker, and a journal that grows at its end** with rows that carry their ids. -/
def Alone (decode : Payload → Except WireError Event) (w : World Payload) : Label Payload → Prop
  | .arrive row => row.CarriesId decode ∧ Ordered w (.arrive row)
  | label => Ordered w label

/-- **The tables are those a rebuild makes of the same journal**, starting with empty ones. -/
def AgreesWithRebuild (decode : Payload → Except WireError Event) (db : EdrDb Payload) : Prop :=
  ∃ db' n, EdrDb.rebuildAll { edrEvents := db.edrEvents } decode = .ok (db', n) ∧
    db.tables.SameRows db'.tables

/-- The rows each job is shown as the projection of once a transaction commits. -/
def basisAfter (basis : String → List (EdrRow Payload)) :
    List (Load Payload) → String → List (EdrRow Payload)
  | [] => basis
  | load :: loads => Function.update (basisAfter basis loads) load.item.jobId load.rows

/-- Each load of a job has the rows of the one before, the last one first. -/
def Growing (basis : String → List (EdrRow Payload)) : List (Load Payload) → Prop
  | [] => True
  | load :: loads => basisAfter basis loads load.item.jobId <+: load.rows ∧ Growing basis loads

theorem basisAfter_prefix {basis rowsOf : String → List (EdrRow Payload)}
    {loads : List (Load Payload)} (hbasis : ∀ jobId, basis jobId <+: rowsOf jobId)
    (hloads : ∀ load ∈ loads, load.rows <+: rowsOf load.item.jobId) (jobId : String) :
    basisAfter basis loads jobId <+: rowsOf jobId := by
  induction loads with
  | nil => exact hbasis jobId
  | cons load loads ih =>
      rw [List.forall_mem_cons] at hloads
      by_cases hjob : jobId = load.item.jobId
      · rw [basisAfter, hjob, Function.update_self]
        exact hloads.1
      · rw [basisAfter, Function.update_of_ne hjob]
        exact ih hloads.2

/-- What is shown is what was there, or what was loaded. -/
theorem basisAfter_cases (basis : String → List (EdrRow Payload)) (loads : List (Load Payload))
    (jobId : String) :
    (basisAfter basis loads jobId = basis jobId ∧ ∀ load ∈ loads, load.item.jobId ≠ jobId) ∨
      ∃ load ∈ loads, load.item.jobId = jobId ∧ basisAfter basis loads jobId = load.rows := by
  induction loads with
  | nil => exact Or.inl ⟨rfl, fun _ hload => by cases hload⟩
  | cons load loads ih =>
      by_cases hjob : jobId = load.item.jobId
      · refine Or.inr ⟨load, List.mem_cons_self .., hjob.symm, ?_⟩
        rw [basisAfter, hjob, Function.update_self]
      · rw [basisAfter, Function.update_of_ne hjob]
        rcases ih with ⟨hsame, hnone⟩ | ⟨found, hfound, hkey, hrows⟩
        · exact Or.inl ⟨hsame, List.forall_mem_cons.2 ⟨Ne.symm hjob, hnone⟩⟩
        · exact Or.inr ⟨found, List.mem_cons_of_mem _ hfound, hkey, hrows⟩

/-- What was shown, or loaded before, is still there. -/
theorem prefix_basisAfter {basis : String → List (EdrRow Payload)} {loads : List (Load Payload)}
    (h : Growing basis loads) (jobId : String) : basis jobId <+: basisAfter basis loads jobId := by
  induction loads with
  | nil => exact List.prefix_refl _
  | cons load loads ih =>
      by_cases hjob : jobId = load.item.jobId
      · subst hjob
        rw [basisAfter, Function.update_self]
        exact (ih h.2).trans h.1
      · rw [basisAfter, Function.update_of_ne hjob]
        exact ih h.2

/-- **The tables of a transaction**: after its loads, each job is shown as the projection of the
rows that were loaded last. -/
theorem showsRows_of_loads {journal : Table (@EdrRow.eventId Payload)} {eventIds : List String}
    {tables tables' : ProjectionTables} {basis : String → List (EdrRow Payload)}
    {loads : List (Load Payload)} (h : ShowsRows decode journal tables basis)
    (hgrowing : Growing basis loads)
    (hrows : ∀ load ∈ loads, ∀ row ∈ load.rows,
      row ∈ journal.rows ∧ row.jobId = load.item.jobId ∧ row.CarriesId decode)
    (hrebuilt : ∀ load ∈ loads, rebuild decode load.item.jobId load.rows = .ok load.projection)
    (hexecute : tables.executeAll eventIds (loads.reverse.flatMap Load.statements) =
      .ok tables') : ShowsRows decode journal tables' (basisAfter basis loads) := by
  induction loads generalizing tables' with
  | nil =>
      cases hexecute
      exact h
  | cons load loads ih =>
      rw [List.forall_mem_cons] at hrows hrebuilt
      obtain ⟨tables₁, hloads, hload⟩ := executeAll_loads_cons.1 hexecute
      obtain ⟨tables₂, hprojected, rfl⟩ := executeAll_load hload
      have hnow := (ih hgrowing.2 hrows.2 hrebuilt.2 hloads).project hrows.1 hgrowing.1
        hrebuilt.1 hprojected
      exact ⟨fun jobId => ⟨(hnow.shows jobId).visibility, (hnow.shows jobId).attempts,
        (hnow.shows jobId).decisions, (hnow.shows jobId).findings⟩, hnow.owned⟩

/-- The statements of each load were accepted. -/
theorem storable_of_loads {eventIds : List String} {tables tables' : ProjectionTables}
    {loads : List (Load Payload)}
    (hexecute : tables.executeAll eventIds (loads.reverse.flatMap Load.statements) =
      .ok tables') :
    ∀ load ∈ loads, (load.projection.written load.item.jobId).Storable eventIds := by
  induction loads generalizing tables' with
  | nil => exact fun _ hload => by cases hload
  | cons load loads ih =>
      obtain ⟨tables₁, hloads, hload⟩ := executeAll_loads_cons.1 hexecute
      obtain ⟨tables₂, hstatements, -⟩ :=
        Except.bind_eq_ok_iff.1 (List.foldlM_append.symm.trans hload)
      exact List.forall_mem_cons.2
        ⟨Written.exists_executeAll_statements.1 ⟨tables₂, hstatements⟩, ih hloads⟩

/-! ### The invariant -/

/-- **The invariant of one worker**: the tables show each job as the projection of the first of its
rows, every marked row is among them, and what the worker loads goes further. -/
structure World.Tracks (decode : Payload → Except WireError Event)
    (basis : String → List (EdrRow Payload)) (w : World Payload) : Prop where
  sound : w.Sound decode
  worker : ∀ txn ∈ w.txns.rows, txn.worker = 0
  carries : ∀ row ∈ w.db.edrEvents.rows, row.CarriesId decode
  shows : ShowsRows decode w.db.edrEvents w.db.tables basis
  prefixes : ∀ jobId, basis jobId <+: w.db.rowsOf jobId
  /-- What is shown met the constraints of the tables. -/
  rebuilt : ∀ jobId, basis jobId ≠ [] → ∃ projection,
    rebuild decode jobId (basis jobId) = .ok projection ∧
      (projection.written jobId).Storable w.db.eventIds
  marks : ∀ eventId, (w.db.tables.projectedEvents.find? eventId).isSome →
    eventId ∈ w.db.eventIds
  marked : ∀ row ∈ w.db.edrEvents.rows, w.db.Marked row → row ∈ basis row.jobId
  growing : ∀ txn ∈ w.txns.rows, Growing basis txn.loads
  loaded : ∀ txn ∈ w.txns.rows, ∀ load ∈ txn.loads, load.rows <+: w.db.rowsOf load.item.jobId

variable {basis : String → List (EdrRow Payload)}

/-- A row at the end of the journal comes last in its order. -/
theorem rowsOf_prefix {db db' : EdrDb Payload} {row : EdrRow Payload}
    (hrows : db'.edrEvents.rows = db.edrEvents.rows ++ [row])
    (hlast : ∀ earlier ∈ db.edrEvents.rows, earlier.Before row) (jobId : String) :
    db.rowsOf jobId <+: db'.rowsOf jobId := by
  have hordered : db'.ordered = db.ordered ++ [row] := by
    have hperm : db'.ordered.Perm (db.ordered ++ [row]) := by
      refine (List.perm_insertionSort EdrRow.Before _).trans ?_
      rw [hrows]
      exact (List.perm_insertionSort EdrRow.Before _).symm.append_right _
    refine hperm.eq_of_pairwise (fun a b ha hb hab hba => ?_)
      (List.pairwise_insertionSort EdrRow.Before _) ?_
    · have hb' := hperm.mem_iff.2 hb
      exact Table.eq_of_key_eq (EdrDb.mem_ordered.1 ha) (EdrDb.mem_ordered.1 hb')
        (hab.eventId_eq hba)
    · refine List.pairwise_append.2 ⟨List.pairwise_insertionSort EdrRow.Before _,
        List.pairwise_singleton _ _, fun earlier hearlier later hlater => ?_⟩
      obtain rfl := List.mem_singleton.1 hlater
      exact hlast earlier (EdrDb.mem_ordered.1 hearlier)
  rw [EdrDb.rowsOf, EdrDb.rowsOf, hordered, List.filter_append]
  exact List.prefix_append _ _

/-- The journal grows, at its end. -/
theorem World.Tracks.arrive {row : EdrRow Payload} (h : w.Tracks decode basis)
    (hsound : w'.Sound decode) (hnew : w.db.edrEvents.find? row.eventId = none)
    (hrows : w'.db.edrEvents.rows = w.db.edrEvents.rows ++ [row])
    (htables : w'.db.tables = w.db.tables) (htxns : w'.txns = w.txns)
    (hcarries : row.CarriesId decode)
    (hlast : ∀ earlier ∈ w.db.edrEvents.rows, earlier.Before row) : w'.Tracks decode basis := by
  have hmono : ∀ old ∈ w.db.edrEvents.rows, old ∈ w'.db.edrEvents.rows := fun old hold =>
    hrows ▸ List.mem_append_left _ hold
  have hids : ∀ eventId ∈ w.db.eventIds, eventId ∈ w'.db.eventIds := fun eventId hid => by
    obtain ⟨old, hold, rfl⟩ := List.mem_map.1 hid
    exact List.mem_map_of_mem (hmono old hold)
  have hinit := rowsOf_prefix hrows hlast
  refine ⟨hsound, ?_, ?_, ?_, fun jobId => (h.prefixes jobId).trans (hinit jobId), ?_, ?_, ?_,
    ?_, ?_⟩
  · rw [htxns]
    exact h.worker
  · rw [hrows]
    exact List.forall_mem_append.2 ⟨h.carries, List.forall_mem_singleton.2 hcarries⟩
  · rw [htables]
    exact h.shows.mono hmono
  · intro jobId hjob
    obtain ⟨projection, hrebuild, hstorable⟩ := h.rebuilt jobId hjob
    exact ⟨projection, hrebuild, hstorable.numbers, hstorable.keys,
      fun decision hdecision => hids _ (hstorable.events decision hdecision)⟩
  · rw [htables]
    exact fun eventId hmark => hids eventId (h.marks eventId hmark)
  · intro other hother hmark
    unfold EdrDb.Marked at hmark
    rw [htables] at hmark
    rw [hrows, List.mem_append, List.mem_singleton] at hother
    rcases hother with hold | rfl
    · exact h.marked other hold hmark
    · obtain ⟨old, hold, hevent⟩ := List.mem_map.1 (h.marks other.eventId hmark)
      exact absurd hevent (Table.find?_eq_none_iff.1 hnew old hold)
  · rw [htxns]
    exact h.growing
  · rw [htxns]
    exact fun txn htxn load hload => (h.loaded txn htxn load hload).trans (hinit _)

/-- The worker commits. -/
theorem World.Tracks.commit {txn : Txn Payload} {tables : ProjectionTables}
    (h : w.Tracks decode basis) (hsound : w'.Sound decode) (hmem : txn ∈ w.txns.rows)
    (hstatements : txn.statements = []) (hview : w.view txn = .ok tables)
    (hdb : w'.db = { w.db with tables := tables }) (htxns : w'.txns = (w.close txn.worker).txns) :
    w'.Tracks decode (basisAfter basis txn.loads) := by
  have htxn := h.sound txn hmem
  have hcommitted := h.sound.committed hmem hstatements hview
  have hexecute : w.db.tables.executeAll w.db.eventIds
      (txn.loads.reverse.flatMap Load.statements) = .ok tables := by
    have hplanned := htxn.planned
    rw [hstatements, List.append_nil] at hplanned
    rwa [← hplanned]
  have hnone : ∀ other ∈ w'.txns.rows, False := by
    intro other hother
    rw [htxns] at hother
    obtain ⟨hold, hkept⟩ := List.mem_filter.1 hother
    simp [h.worker other hold, h.worker txn hmem] at hkept
  have hgrowing := h.growing txn hmem
  refine ⟨hsound, fun other hother => (hnone other hother).elim, by rw [hdb]; exact h.carries, ?_,
    ?_, ?_, ?_, ?_, fun other hother => (hnone other hother).elim,
    fun other hother => (hnone other hother).elim⟩
  · rw [hdb]
    refine showsRows_of_loads h.shows hgrowing (fun load hload row hrow => ?_) htxn.rebuilt
      hexecute
    obtain ⟨hjournal, hjob⟩ := (htxn.rows load hload).mem row hrow
    exact ⟨hjournal, hjob, h.carries row hjournal⟩
  · rw [hdb]
    exact basisAfter_prefix h.prefixes (h.loaded txn hmem)
  · intro jobId hjob
    rw [hdb]
    rcases basisAfter_cases basis txn.loads jobId with ⟨hsame, -⟩ | ⟨load, hload, rfl, hrows⟩
    · rw [hsame] at hjob ⊢
      exact h.rebuilt jobId hjob
    · rw [hrows]
      exact ⟨load.projection, htxn.rebuilt load hload, storable_of_loads hexecute load hload⟩
  · intro eventId hmark
    rw [hdb] at hmark ⊢
    exact hcommitted.marks htxn h.marks eventId hmark
  · intro row hrow hmark
    rw [hdb] at hrow hmark
    rcases hcommitted.marked_cases htxn hrow hmark with hold | ⟨hclaimed, load, hload, rfl⟩
    · exact (prefix_basisAfter hgrowing row.jobId).subset (h.marked row hrow hold)
    · -- the row was claimed, so every load of its job has it
      rcases basisAfter_cases basis txn.loads load.item.jobId with
        ⟨-, hnone⟩ | ⟨last, hlast, hjob, hrows⟩
      · exact absurd rfl (hnone load hload)
      · rw [hrows]
        exact htxn.own last hlast _ hclaimed hjob.symm

/-- **What one step preserves.** -/
theorem World.Tracks.next {l : Label Payload} (h : w.Tracks decode basis)
    (halone : Alone decode w l) (hn : w.next decode l = some w') :
    ∃ basis', w'.Tracks decode basis' := by
  have hsound := h.sound.next hn
  -- steps that leave the database as it is
  have hsame : w'.db = w.db → (∀ txn ∈ w'.txns.rows, txn.worker = 0 ∧ Growing basis txn.loads ∧
      ∀ load ∈ txn.loads, load.rows <+: w.db.rowsOf load.item.jobId) →
      ∃ basis', w'.Tracks decode basis' := by
    intro hdb htxns
    refine ⟨basis, hsound, fun txn htxn => (htxns txn htxn).1, ?_, ?_, ?_, ?_, ?_, ?_,
      fun txn htxn => (htxns txn htxn).2.1, ?_⟩
    all_goals rw [hdb]
    · exact h.carries
    · exact h.shows
    · exact h.prefixes
    · exact h.rebuilt
    · exact h.marks
    · exact h.marked
    · exact fun txn htxn => (htxns txn htxn).2.2
  have hopen : ∀ txn ∈ w.txns.rows, txn.worker = 0 ∧ Growing basis txn.loads ∧
      ∀ load ∈ txn.loads, load.rows <+: w.db.rowsOf load.item.jobId := fun txn htxn =>
    ⟨h.worker txn htxn, h.growing txn htxn, h.loaded txn htxn⟩
  rcases World.next_cases hn with ⟨row, rfl, hnew, hrows, htables, htxns⟩ |
    ⟨worker, limit, rfl, -, hdb, hrows⟩ |
    ⟨txn, item, todo, projection, -, hmem, -, -, -, hdb, htxns⟩ |
    ⟨txn, statement, statements, shared, -, hmem, -, -, hdb, htxns⟩ |
    ⟨txn, tables, -, hmem, hstatements, -, hview, hdb, htxns⟩ | ⟨worker, rfl⟩
  · exact ⟨basis, h.arrive hsound hnew hrows htables htxns halone.1 halone.2⟩
  · refine hsame hdb ?_
    rw [hrows]
    refine List.forall_mem_append.2 ⟨hopen, List.forall_mem_singleton.2 ⟨halone, trivial, ?_⟩⟩
    exact fun _ hload => by cases hload
  · obtain ⟨hworker, hgrowing, hloaded⟩ := hopen txn hmem
    refine hsame hdb ?_
    rw [htxns]
    refine Table.forall_mem_replace hopen ⟨hworker, ⟨?_, hgrowing⟩, ?_⟩
    · exact basisAfter_prefix h.prefixes hloaded item.jobId
    · exact List.forall_mem_cons.2 ⟨List.prefix_refl _, hloaded⟩
  · refine hsame hdb ?_
    rw [htxns]
    exact Table.forall_mem_replace hopen (hopen txn hmem)
  · exact ⟨_, h.commit hsound hmem hstatements hview hdb htxns⟩
  · exact hsame rfl fun txn htxn => hopen txn (List.mem_of_mem_filter htxn)

theorem tracks_start : (machine decode).start.Tracks decode fun _ => [] where
  sound := fun _ htxn => by cases htxn
  worker := fun _ htxn => by cases htxn
  carries := fun _ hrow => by cases hrow
  shows := .empty
  prefixes := fun _ => List.nil_prefix
  rebuilt := fun _ hne => absurd rfl hne
  marks := fun _ hmark => by cases hmark
  marked := fun _ hrow => by cases hrow
  growing := fun _ htxn => by cases htxn
  loaded := fun _ htxn => by cases htxn

theorem tracks_of_reach (h : (machine decode).Reach (Alone decode) w) :
    ∃ basis, w.Tracks decode basis :=
  h.invariant (I := fun w => ∃ basis, w.Tracks decode basis) ⟨_, tracks_start⟩
    fun _ _ _ _ ⟨_, hbasis⟩ halone hn => hbasis.next halone hn

/-- Once every row is marked, each job is shown as the projection of all its rows. -/
theorem World.Tracks.basis_eq (h : w.Tracks decode basis) (hpending : w.db.pending = []) :
    basis = w.db.rowsOf := by
  funext jobId
  obtain ⟨rest, hrest⟩ := h.prefixes jobId
  have hnodup := (jobRows_rowsOf w.db jobId).nodup
  rw [← hrest, List.nodup_append] at hnodup
  -- a row that is not shown would be a marked one
  have hnone : rest = [] := by
    refine List.eq_nil_iff_forall_not_mem.2 fun row hrow => ?_
    have hmem : row ∈ w.db.rowsOf jobId := hrest ▸ List.mem_append_right _ hrow
    obtain ⟨hjournal, rfl⟩ := EdrDb.mem_rowsOf.1 hmem
    have hmarked : w.db.Marked row := by
      by_contra hmarked
      have hrowPending : row ∈ w.db.pending := EdrDb.mem_pending.2 ⟨hjournal, hmarked⟩
      rw [hpending] at hrowPending
      cases hrowPending
    exact hnodup.2.2 row (h.marked row hjournal hmarked) row hrow rfl
  rw [← hrest, hnone, List.append_nil]

/-- **Projecting incrementally gives what a rebuild gives**: for one worker, whatever the batches,
the aborted transactions and the times at which rows arrive at the end of the journal, once no row
is pending the tables are those a rebuild makes of the journal. -/
theorem incremental_eq_rebuild (decode : Payload → Except WireError Event) (w : World Payload)
    (h : (machine decode).Reach (Alone decode) w) (hpending : w.db.pending = []) :
    AgreesWithRebuild decode w.db := by
  obtain ⟨basis, htracks⟩ := tracks_of_reach h
  obtain rfl := htracks.basis_eq hpending
  have hrebuilds : ∀ row ∈ w.db.edrEvents.rows,
      EdrDb.Rebuilds decode { edrEvents := w.db.edrEvents } row.jobId := by
    intro row hrow
    refine EdrDb.rebuilds_iff.2 (htracks.rebuilt row.jobId ?_)
    exact List.ne_nil_of_mem (EdrDb.mem_rowsOf.2 ⟨hrow, rfl⟩)
  obtain ⟨db', n, hrebuild, hshows⟩ :=
    @EdrDb.exists_rebuildAll _ decode { edrEvents := w.db.edrEvents } htracks.carries hrebuilds rfl
  exact ⟨db', n, hrebuild,
    ProjectionTables.sameRows_of_shows htracks.shows.shows hshows.shows⟩

instance (row : EdrRow Json.Object) : Decidable (row.CarriesId eventFromRow) :=
  match h : eventFromRow row.canonicalPayload with
  | .ok event =>
      decidable_of_iff (event.eventId = row.eventId)
        ⟨fun hid _ hevent => Except.ok.inj (h.symm.trans hevent) ▸ hid, fun hall => hall event h⟩
  | .error _ => isTrue fun _ hevent => nomatch h.symm.trans hevent

instance (w : World Json.Object) : (l : Label Json.Object) → Decidable (Ordered w l)
  | .arrive _ => inferInstanceAs (Decidable (∀ _ ∈ _, _))
  | .claim worker _ => inferInstanceAs (Decidable (worker = 0))
  | .load _ => inferInstanceAs (Decidable True)
  | .execute _ => inferInstanceAs (Decidable True)
  | .commit _ => inferInstanceAs (Decidable True)
  | .abort _ => inferInstanceAs (Decidable True)

instance (w : World Json.Object) : (l : Label Json.Object) → Decidable (Alone eventFromRow w l)
  | .arrive row =>
      inferInstanceAs (Decidable (row.CarriesId eventFromRow ∧ Ordered w (.arrive row)))
  | .claim worker n => inferInstanceAs (Decidable (Ordered w (.claim worker n)))
  | .load worker => inferInstanceAs (Decidable (Ordered w (.load worker)))
  | .execute worker => inferInstanceAs (Decidable (Ordered w (.execute worker)))
  | .commit worker => inferInstanceAs (Decidable (Ordered w (.commit worker)))
  | .abort worker => inferInstanceAs (Decidable (Ordered w (.abort worker)))

/-- A row arrives while the first one is projected; the transaction that claims it is aborted, and
the next one projects it together with a third one. -/
def growingRun : List (Label Json.Object) :=
  [.arrive createdRow, .claim 0 1, .load 0, .arrive requestedRow] ++ projected 0 4 ++
    [.claim 0 1, .load 0, .execute 0, .abort 0, .arrive acknowledgedRow, .claim 0 5, .load 0] ++
    List.replicate 6 (.execute 0) ++ [.load 0] ++ projected 0 6

theorem incremental_eq_rebuild_growingRun :
    ∃ w, (machine eventFromRow).run (machine eventFromRow).start growingRun = some w ∧
      AgreesWithRebuild eventFromRow w.db := by
  have hrun : (((machine eventFromRow).runWhile (Alone eventFromRow) (machine eventFromRow).start
      growingRun).map fun w => w.db.pending.length) = some 0 := by decide +kernel
  obtain ⟨w, hw, hpending⟩ := Option.map_eq_some_iff.1 hrun
  refine ⟨w, Machine.run_of_runWhile hw, incremental_eq_rebuild eventFromRow w ?_
    (List.length_eq_zero_iff.1 hpending)⟩
  exact Machine.Reach.of_runWhile Machine.Reach.start growingRun hw

/-! ### Rows that name another event -/

open Json

/-- A journal row whose payload has the id `e-1`, whatever the row's own id is. -/
def misnamedRow (eventId jobId : String) (persistedAt : Datetime) : EdrRow Object where
  eventId := eventId
  jobId := jobId
  persistedAt := persistedAt
  canonicalPayload := ofMembers
    [("eventId", .str "e-1"), ("eventType", .str "JOB_CREATED"),
      ("eventTime", .str "2026-01-01T00:00:00Z"), ("ingestionTime", .str "2026-01-01T00:00:00Z"),
      ("jobId", .str jobId), ("attemptNumber", .int 0), ("maxAttempts", .int 3)]

/-- A row of `job-2` is projected, and after it one of `job-1` that names the same event. -/
def misnamedRun : List (Label Object) :=
  [.arrive (misnamedRow "e-1" "job-2" 0), .claim 0 1, .load 0] ++ projected 0 4 ++
    [.arrive (misnamedRow "e-2" "job-1" 1), .claim 0 1, .load 0] ++ projected 0 4

/-- **The decision about the event stays with the job that was projected first**, and a rebuild
gives it to the job that is first by name. -/
theorem not_agreesWithRebuild_misnamedRun :
    ¬ ∀ w : World Object, (machine eventFromRow).Reach Ordered w → w.db.pending = [] →
      AgreesWithRebuild eventFromRow w.db := by
  intro h
  have hrun : ((machine eventFromRow).runWhile Ordered (machine eventFromRow).start
      misnamedRun).map (fun w => (w.db.pending.length,
        (w.db.tables.projectionDecisions.find? "e-1").map DecisionRow.jobId,
        (EdrDb.rebuildAll { edrEvents := w.db.edrEvents } eventFromRow).toOption.map fun result =>
          (result.1.tables.projectionDecisions.find? "e-1").map DecisionRow.jobId)) =
      some (0, some "job-2", some (some "job-1")) := by decide +kernel
  obtain ⟨w, hw, heq⟩ := Option.map_eq_some_iff.1 hrun
  simp only [Prod.mk.injEq, List.length_eq_zero_iff] at heq
  obtain ⟨hpending, hkept, hrebuilt⟩ := heq
  obtain ⟨db, n, hrebuild, hsame⟩ :=
    h w (Machine.Reach.of_runWhile Machine.Reach.start misnamedRun hw) hpending
  rw [hrebuild] at hrebuilt
  have hgiven : (db.tables.projectionDecisions.find? "e-1").map DecisionRow.jobId = some "job-1" :=
    Option.some_inj.1 hrebuilt
  rw [← hsame.projectionDecisions, hkept] at hgiven
  exact absurd hgiven (by decide)

end Projectors

end ScheduledJobs
