/-
**Any number of projection workers, statement by statement.**

A `run_once` is one transaction.  It claims pending rows with `FOR UPDATE SKIP LOCKED`, and then,
row by row, reads the journal rows of the job, rebuilds it and executes the statements of the
projection.  A statement reads what was committed before it, and what its own transaction wrote.

The writes of a transaction are kept until it commits.  That is what `READ COMMITTED` shows of
them: the rows they touch are locked until then.  A transaction waits to write a visibility row
that another one wrote, and to insert the decision of an event whose row another one has claimed or
whose decision another one is inserting (the reference to the journal takes a lock on the row, which
also keeps others from claiming it).  An exception rolls the transaction back, and so does a worker
that dies.

Main definitions:

* `Projectors.Txn`, `Projectors.World` — an open transaction, and the database with all of them;
* `Projectors.World.next`, `Projectors.machine` — **the statements, one at a time**;
* `Projectors.Load` — what a transaction read and rebuilt for a claimed row.

Main results:

* `Projectors.World.next_cases` — what a step can do;
* `Projectors.Txn.Sound`, `Projectors.sound_of_reachable` — the statements of a transaction are
  those of the projections it has loaded;
* `Projectors.committed` — **what a commit leaves in the tables**.
-/

import ScheduledJobs.EdrStore
import ScheduledJobs.Machine

set_option relaxedAutoImplicit false
set_option autoImplicit false

namespace ScheduledJobs

namespace Projectors

variable {Payload : Type}

/-! ### Transactions -/

/-- What a transaction read for a claimed row: the journal rows of its job, and their projection. -/
structure Load (Payload : Type) where
  item : EdrRow Payload
  rows : List (EdrRow Payload)
  projection : Projection

/-- The statements that follow. -/
def Load.statements (load : Load Payload) : List Statement :=
  load.projection.statements load.item.jobId ++
    [.markProjected ⟨load.item.eventId, load.item.jobId⟩]

/-- An open transaction of a worker.  The loads, the last one first, are not read by any step. -/
structure Txn (Payload : Type) where
  worker : ℕ
  claimed : List (EdrRow Payload)
  todo : List (EdrRow Payload)
  statements : List Statement := []
  writes : List Statement := []
  keyShared : List String := []
  loads : List (Load Payload) := []

/-- The database and the open transactions, one for each worker at most. -/
structure World (Payload : Type) where
  db : EdrDb Payload := {}
  txns : Table (@Txn.worker Payload) := .empty

namespace Txn

variable (txn : Txn Payload)

/-- The transaction has written the visibility row of the job. -/
def WritesJob (jobId : String) : Prop :=
  (txn.writes.any fun statement =>
    match statement with
    | .upsertVisibility row => row.jobId = jobId
    | _ => false) = true

instance (jobId : String) : Decidable (txn.WritesJob jobId) := inferInstanceAs (Decidable (_ = _))

/-- The transaction has a lock on the journal row of the event. -/
def Locks (eventId : String) : Prop :=
  eventId ∈ txn.claimed.map EdrRow.eventId ∨ eventId ∈ txn.keyShared

instance (eventId : String) : Decidable (txn.Locks eventId) := inferInstanceAs (Decidable (_ ∨ _))

end Txn

namespace World

variable (w : World Payload)

/-- What the worker of the transaction sees of the tables. -/
def view (txn : Txn Payload) : Except ProjectionError ProjectionTables :=
  w.db.tables.executeAll w.db.eventIds txn.writes

/-- Another transaction holds a lock that the statement has to wait for. -/
def Waits (worker : ℕ) : Statement → Prop
  | .upsertVisibility row =>
      ∃ other ∈ w.txns.rows, other.worker ≠ worker ∧ other.WritesJob row.jobId
  | .insertDecision row =>
      w.db.tables.projectionDecisions.find? row.eventId = none ∧
        ∃ other ∈ w.txns.rows, other.worker ≠ worker ∧ other.Locks row.eventId
  | _ => False

instance (worker : ℕ) : (statement : Statement) → Decidable (w.Waits worker statement)
  | .upsertVisibility _ => inferInstanceAs (Decidable (∃ other ∈ w.txns.rows, _))
  | .insertDecision _ => inferInstanceAs (Decidable (_ ∧ ∃ other ∈ w.txns.rows, _))
  | .deleteAttempts _ => inferInstanceAs (Decidable False)
  | .insertAttempt _ => inferInstanceAs (Decidable False)
  | .upsertFinding _ => inferInstanceAs (Decidable False)
  | .markProjected _ => inferInstanceAs (Decidable False)

/-- The rows a worker can claim: pending, and not locked by anybody. -/
def claimable : List (EdrRow Payload) :=
  w.db.pending.filter fun row => ∀ txn ∈ w.txns.rows, ¬ txn.Locks row.eventId

/-- The transaction of a worker is gone. -/
def close (worker : ℕ) : World Payload :=
  { w with txns := w.txns.deleteWhere fun txn => txn.worker = worker }

end World

/-- The journal row a statement newly refers to: that of a decision that is not there yet. -/
def sharesKey (tables : ProjectionTables) : Statement → List String
  | .insertDecision row =>
      if tables.projectionDecisions.find? row.eventId = none then [row.eventId] else []
  | _ => []

/-! ### Steps -/

/-- A row becomes visible in the journal, or a worker does the next thing. -/
inductive Label (Payload : Type)
  | arrive (row : EdrRow Payload)
  | claim (worker limit : ℕ)
  | load (worker : ℕ)
  | execute (worker : ℕ)
  | commit (worker : ℕ)
  | abort (worker : ℕ)

/-- **One step.** -/
def World.next (decode : Payload → Except WireError Event) (w : World Payload) :
    Label Payload → Option (World Payload)
  | .arrive row =>
      (w.db.edrEvents.insert? row).map fun edrEvents =>
        { w with db := { w.db with edrEvents := edrEvents } }
  | .claim worker limit =>
      let claimed := w.claimable.take limit
      (w.txns.insert? { worker := worker, claimed := claimed, todo := claimed }).map fun txns =>
        { w with txns := txns }
  | .load worker =>
      (w.txns.find? worker).bind fun txn =>
        match txn.statements, txn.todo with
        | [], item :: todo =>
            let rows := w.db.rowsOf item.jobId
            match rebuild decode item.jobId rows with
            | .ok projection =>
                let load : Load Payload := ⟨item, rows, projection⟩
                some { w with
                  txns := w.txns.replace
                    { txn with
                      todo := todo
                      statements := load.statements
                      loads := load :: txn.loads } }
            | .error _ => some (w.close worker)
        | _, _ => none
  | .execute worker =>
      (w.txns.find? worker).bind fun txn =>
        match txn.statements with
        | statement :: statements =>
            if w.Waits worker statement then none
            else
              match w.view txn with
              | .ok tables =>
                  match tables.execute w.db.eventIds statement with
                  | .ok _ =>
                      some { w with
                        txns := w.txns.replace
                          { txn with
                            statements := statements
                            writes := txn.writes ++ [statement]
                            keyShared := txn.keyShared ++ sharesKey tables statement } }
                  | .error _ => some (w.close worker)
              | .error _ => some (w.close worker)
        | [] => none
  | .commit worker =>
      (w.txns.find? worker).bind fun txn =>
        match txn.statements, txn.todo with
        | [], [] =>
            match w.view txn with
            | .ok tables => some { w.close worker with db := { w.db with tables := tables } }
            | .error _ => some (w.close worker)
        | _, _ => none
  | .abort worker => (w.txns.find? worker).map fun _ => w.close worker

/-- The projectors of an empty journal. -/
def machine (decode : Payload → Except WireError Event) :
    Machine (World Payload) (Label Payload) where
  start := {}
  next := World.next decode

variable {decode : Payload → Except WireError Event} {w w' : World Payload}

/-! ### What a step can do -/

/-- **What a step can do.** -/
theorem World.next_cases {l : Label Payload} (h : w.next decode l = some w') :
    (∃ row, l = .arrive row ∧ w.db.edrEvents.find? row.eventId = none ∧
      w'.db.edrEvents.rows = w.db.edrEvents.rows ++ [row] ∧ w'.db.tables = w.db.tables ∧
      w'.txns = w.txns) ∨
    (∃ worker limit, l = .claim worker limit ∧ w.txns.find? worker = none ∧ w'.db = w.db ∧
      w'.txns.rows = w.txns.rows ++ [{
        worker := worker, claimed := w.claimable.take limit, todo := w.claimable.take limit }]) ∨
    (∃ txn item todo projection, l = .load txn.worker ∧ txn ∈ w.txns.rows ∧
      txn.statements = [] ∧ txn.todo = item :: todo ∧
      rebuild decode item.jobId (w.db.rowsOf item.jobId) = .ok projection ∧ w'.db = w.db ∧
      w'.txns = w.txns.replace
        { txn with
          todo := todo
          statements := Load.statements ⟨item, w.db.rowsOf item.jobId, projection⟩
          loads := ⟨item, w.db.rowsOf item.jobId, projection⟩ :: txn.loads }) ∨
    (∃ txn statement statements shared, l = .execute txn.worker ∧ txn ∈ w.txns.rows ∧
      txn.statements = statement :: statements ∧ ¬ w.Waits txn.worker statement ∧ w'.db = w.db ∧
      w'.txns = w.txns.replace
        { txn with
          statements := statements
          writes := txn.writes ++ [statement]
          keyShared := txn.keyShared ++ shared }) ∨
    (∃ txn tables, l = .commit txn.worker ∧ txn ∈ w.txns.rows ∧ txn.statements = [] ∧
      txn.todo = [] ∧ w.view txn = .ok tables ∧ w'.db = { w.db with tables := tables } ∧
      w'.txns = (w.close txn.worker).txns) ∨
    ∃ worker, w' = w.close worker := by
  cases l with
  | arrive row =>
      obtain ⟨edrEvents, hinsert, rfl⟩ := Option.map_eq_some_iff.1 h
      obtain ⟨hnone, hrows⟩ := Table.insert?_eq_some_iff.1 hinsert
      exact Or.inl ⟨row, rfl, hnone, hrows, rfl, rfl⟩
  | claim worker limit =>
      obtain ⟨txns, hinsert, rfl⟩ := Option.map_eq_some_iff.1 h
      obtain ⟨hnone, hrows⟩ := Table.insert?_eq_some_iff.1 hinsert
      exact Or.inr (Or.inl ⟨worker, limit, rfl, hnone, rfl, hrows⟩)
  | load worker =>
      obtain ⟨txn, hfind, h⟩ := Option.bind_eq_some_iff.1 h
      obtain rfl := Table.key_of_find? hfind
      split at h
      · next item todo hstatements htodo =>
          dsimp only at h
          split at h
          · next projection hrebuild =>
              cases h
              exact Or.inr (Or.inr (Or.inl ⟨txn, item, todo, projection, rfl,
                Table.mem_of_find? hfind, hstatements, htodo, hrebuild, rfl, rfl⟩))
          · cases h
            exact Or.inr (Or.inr (Or.inr (Or.inr (Or.inr ⟨_, rfl⟩))))
      · cases h
  | execute worker =>
      obtain ⟨txn, hfind, h⟩ := Option.bind_eq_some_iff.1 h
      obtain rfl := Table.key_of_find? hfind
      split at h
      · next statement statements hstatements =>
          split at h
          · cases h
          · next hwaits =>
              split at h
              · next tables hview =>
                  split at h
                  · cases h
                    exact Or.inr (Or.inr (Or.inr (Or.inl ⟨txn, statement, statements,
                      sharesKey tables statement, rfl, Table.mem_of_find? hfind, hstatements,
                      hwaits, rfl, rfl⟩)))
                  · cases h
                    exact Or.inr (Or.inr (Or.inr (Or.inr (Or.inr ⟨_, rfl⟩))))
              · cases h
                exact Or.inr (Or.inr (Or.inr (Or.inr (Or.inr ⟨_, rfl⟩))))
      · cases h
  | commit worker =>
      obtain ⟨txn, hfind, h⟩ := Option.bind_eq_some_iff.1 h
      obtain rfl := Table.key_of_find? hfind
      split at h
      · next hstatements htodo =>
          split at h
          · next tables hview =>
              cases h
              exact Or.inr (Or.inr (Or.inr (Or.inr (Or.inl ⟨txn, tables, rfl,
                Table.mem_of_find? hfind, hstatements, htodo, hview, rfl, rfl⟩))))
          · cases h
            exact Or.inr (Or.inr (Or.inr (Or.inr (Or.inr ⟨_, rfl⟩))))
      · cases h
  | abort worker =>
      obtain ⟨txn, -, rfl⟩ := Option.map_eq_some_iff.1 h
      exact Or.inr (Or.inr (Or.inr (Or.inr (Or.inr ⟨worker, rfl⟩))))

/-! ### What a transaction does -/

/-- Some journal rows of a job, in their order. -/
structure JobRows (journal : List (EdrRow Payload)) (jobId : String)
    (rows : List (EdrRow Payload)) : Prop where
  mem : ∀ row ∈ rows, row ∈ journal ∧ row.jobId = jobId
  sorted : rows.Pairwise EdrRow.Before
  nodup : rows.Nodup

/-- **The statements of a transaction are those of the projections it has loaded**, in their order,
and what it loads for a job has every row of the job in it that it claimed. -/
structure Txn.Sound (decode : Payload → Except WireError Event)
    (journal : List (EdrRow Payload)) (txn : Txn Payload) : Prop where
  claimed : ∀ row ∈ txn.claimed, row ∈ journal
  items : txn.claimed = txn.loads.reverse.map Load.item ++ txn.todo
  planned : txn.writes ++ txn.statements = txn.loads.reverse.flatMap Load.statements
  rebuilt : ∀ load ∈ txn.loads,
    rebuild decode load.item.jobId load.rows = .ok load.projection
  rows : ∀ load ∈ txn.loads, JobRows journal load.item.jobId load.rows
  own : ∀ load ∈ txn.loads, ∀ row ∈ txn.claimed, row.jobId = load.item.jobId → row ∈ load.rows

theorem Txn.Sound.mono {journal journal' : List (EdrRow Payload)} {txn : Txn Payload}
    (h : txn.Sound decode journal) (hmono : ∀ row ∈ journal, row ∈ journal') :
    txn.Sound decode journal' where
  claimed := fun row hrow => hmono row (h.claimed row hrow)
  items := h.items
  planned := h.planned
  rebuilt := h.rebuilt
  rows := fun load hload =>
    ⟨fun row hrow => ⟨hmono row ((h.rows load hload).mem row hrow).1,
      ((h.rows load hload).mem row hrow).2⟩, (h.rows load hload).sorted, (h.rows load hload).nodup⟩
  own := h.own

/-- The rows of a job are journal rows of it, in their order. -/
theorem jobRows_rowsOf (db : EdrDb Payload) (jobId : String) :
    JobRows db.edrEvents.rows jobId (db.rowsOf jobId) where
  mem := fun row hrow => EdrDb.mem_rowsOf.1 hrow
  sorted := (List.pairwise_insertionSort EdrRow.Before db.edrEvents.rows).filter _
  nodup := by
    have hrows : db.edrEvents.rows.Nodup := db.edrEvents.nodup.of_map
    exact ((List.perm_insertionSort EdrRow.Before _).nodup_iff.2 hrows).filter _

/-- Every open transaction is sound. -/
def World.Sound (decode : Payload → Except WireError Event) (w : World Payload) : Prop :=
  ∀ txn ∈ w.txns.rows, txn.Sound decode w.db.edrEvents.rows

/-- A transaction in place of one of the same worker. -/
theorem World.Sound.replace (h : w.Sound decode) {txn : Txn Payload}
    (hdb : w'.db = w.db) (htxns : w'.txns = w.txns.replace txn)
    (htxn : txn.Sound decode w.db.edrEvents.rows) : w'.Sound decode := by
  rw [World.Sound, hdb, htxns]
  exact Table.forall_mem_replace h htxn

theorem World.Sound.close (h : w.Sound decode) (worker : ℕ) : (w.close worker).Sound decode :=
  fun txn htxn => h txn (List.mem_of_mem_filter htxn)

/-- **What one step preserves.** -/
theorem World.Sound.next {l : Label Payload} (h : w.Sound decode)
    (hn : w.next decode l = some w') : w'.Sound decode := by
  rcases World.next_cases hn with ⟨row, -, -, hrows, -, htxns⟩ |
    ⟨worker, limit, -, -, hdb, hrows⟩ |
    ⟨txn, item, todo, projection, -, hmem, hstatements, htodo, hrebuild, hdb, htxns⟩ |
    ⟨txn, statement, statements, shared, -, hmem, hstatements, -, hdb, htxns⟩ |
    ⟨txn, tables, -, -, -, -, -, hdb, htxns⟩ | ⟨worker, rfl⟩
  · intro txn htxn
    rw [htxns] at htxn
    rw [hrows]
    exact (h txn htxn).mono fun row hrow => List.mem_append_left _ hrow
  · intro txn htxn
    rw [hrows, List.mem_append, List.mem_singleton] at htxn
    rw [hdb]
    rcases htxn with hold | rfl
    · exact h txn hold
    · refine ⟨fun row hrow => ?_, rfl, rfl, by simp, by simp, by simp⟩
      exact (EdrDb.mem_pending.1 (List.mem_of_mem_filter (List.mem_of_mem_take hrow))).1
  · have hsound := h txn hmem
    refine h.replace hdb htxns ⟨hsound.claimed, ?_, ?_, ?_, ?_, ?_⟩
    · rw [hsound.items, htodo]
      simp
    · have hplanned := hsound.planned
      rw [hstatements, List.append_nil] at hplanned
      simp [hplanned]
    · exact List.forall_mem_cons.2 ⟨hrebuild, hsound.rebuilt⟩
    · exact List.forall_mem_cons.2 ⟨jobRows_rowsOf w.db item.jobId, hsound.rows⟩
    · refine List.forall_mem_cons.2 ⟨fun row hrow hjob => ?_, hsound.own⟩
      exact EdrDb.mem_rowsOf.2 ⟨hsound.claimed row hrow, hjob⟩
  · have hsound := h txn hmem
    refine h.replace hdb htxns ⟨hsound.claimed, hsound.items, ?_, hsound.rebuilt, hsound.rows,
      hsound.own⟩
    rw [← hsound.planned, hstatements, List.append_assoc]
    rfl
  · intro other hother
    rw [htxns] at hother
    rw [hdb]
    exact h.close txn.worker other hother
  · exact h.close worker

theorem sound_of_reachable (h : (machine decode).Reachable w) : w.Sound decode :=
  h.invariant (fun _ htxn => by cases htxn) fun _ _ _ _ hsound hn => hsound.next hn

/-! ### What a commit leaves in the tables -/

variable {eventIds : List String} {tables tables' : ProjectionTables}

/-- The statements of a load: those of a projection, and the mark. -/
theorem executeAll_load {load : Load Payload}
    (h : tables.executeAll eventIds load.statements = .ok tables') :
    ∃ tables₁, tables.ProjectedTo tables₁ (load.projection.written load.item.jobId) ∧
      tables' = { tables₁ with
        projectedEvents :=
          tables₁.projectedEvents.insertOrKeep ⟨load.item.eventId, load.item.jobId⟩ } := by
  obtain ⟨tables₁, h₁, hmark⟩ :=
    Except.bind_eq_ok_iff.1 (List.foldlM_append.symm.trans h)
  refine ⟨tables₁, Written.executeAll_statements h₁, ?_⟩
  cases hmark
  rfl

/-- The statements of one more load. -/
theorem executeAll_loads_cons {load : Load Payload} {loads : List (Load Payload)} :
    tables.executeAll eventIds ((load :: loads).reverse.flatMap Load.statements) = .ok tables' ↔
      ∃ tables₁, tables.executeAll eventIds (loads.reverse.flatMap Load.statements) = .ok tables₁ ∧
        tables₁.executeAll eventIds load.statements = .ok tables' := by
  rw [List.reverse_cons, List.flatMap_append, List.flatMap_singleton,
    ProjectionTables.executeAll, List.foldlM_append, Except.bind_eq_ok_iff]
  rfl

/-- What was last loaded for a job, the last load coming first. -/
def lastLoad (loads : List (Load Payload)) (jobId : String) : Option (Load Payload) :=
  loads.find? fun load => load.item.jobId = jobId

theorem mem_of_lastLoad {loads : List (Load Payload)} {jobId : String} {load : Load Payload}
    (h : lastLoad loads jobId = some load) : load ∈ loads ∧ load.item.jobId = jobId :=
  ⟨List.mem_of_find?_eq_some h, by simpa using List.find?_some h⟩

theorem lastLoad_ne_none {loads : List (Load Payload)} {load : Load Payload} (h : load ∈ loads) :
    lastLoad loads load.item.jobId ≠ none := by
  intro hnone
  exact absurd (decide_eq_true rfl) (List.find?_eq_none.1 hnone load h)

/-- **What a commit leaves in the tables**: for each job the projection that was loaded last, and
an entry for each row. -/
structure Committed (tables tables' : ProjectionTables) (loads : List (Load Payload)) : Prop where
  last : ∀ jobId load, lastLoad loads jobId = some load →
    tables'.jobVisibility.find? jobId = some (load.projection.visibilityRow jobId) ∧
      tables'.jobAttempts.rows.filter (fun attempt => attempt.jobId = jobId) =
        load.projection.attemptRows jobId
  untouched : ∀ jobId, lastLoad loads jobId = none →
    tables'.jobVisibility.find? jobId = tables.jobVisibility.find? jobId ∧
      tables'.jobAttempts.rows.filter (fun attempt => attempt.jobId = jobId) =
        tables.jobAttempts.rows.filter fun attempt => attempt.jobId = jobId
  marked : ∀ eventId, (tables'.projectedEvents.find? eventId).isSome ↔
    (tables.projectedEvents.find? eventId).isSome ∨ ∃ load ∈ loads, load.item.eventId = eventId

theorem committed {loads : List (Load Payload)}
    (h : tables.executeAll eventIds (loads.reverse.flatMap Load.statements) = .ok tables') :
    Committed tables tables' loads := by
  induction loads generalizing tables' with
  | nil =>
      cases h
      refine ⟨fun _ _ hload => ?_, fun _ _ => ⟨rfl, rfl⟩, fun _ => by simp⟩
      cases hload
  | cons load loads ih =>
      obtain ⟨tables₁, hloads, hload⟩ := executeAll_loads_cons.1 h
      obtain ⟨tables₂, hprojected, rfl⟩ := executeAll_load hload
      obtain ⟨hlast, huntouched, hmarked⟩ := ih hloads
      have hreads := EdrDb.reads_of_projectedTo hprojected
      refine ⟨fun jobId later hlater => ?_, fun jobId hnone => ?_, fun eventId => ?_⟩
      · by_cases hjob : load.item.jobId = jobId
        · obtain rfl : load = later := by simpa [lastLoad, hjob] using hlater
          obtain ⟨hvisibility, hattempts⟩ := hreads jobId
          rw [if_pos hjob.symm, Projection.written_visibility, hjob] at hvisibility
          rw [if_pos hjob.symm, Projection.written_attempts, hjob] at hattempts
          exact ⟨hvisibility, hattempts⟩
        · obtain ⟨hvisibility, hattempts⟩ := hreads jobId
          rw [if_neg (Ne.symm hjob)] at hvisibility hattempts
          have hold : lastLoad loads jobId = some later := by
            simpa [lastLoad, hjob] using hlater
          obtain ⟨hvisibility', hattempts'⟩ := hlast jobId later hold
          exact ⟨hvisibility.trans hvisibility', hattempts.trans hattempts'⟩
      · have hjob : load.item.jobId ≠ jobId := fun hjob => by simp [lastLoad, hjob] at hnone
        obtain ⟨hvisibility, hattempts⟩ := hreads jobId
        rw [if_neg (Ne.symm hjob)] at hvisibility hattempts
        have hold : lastLoad loads jobId = none := by simpa [lastLoad, hjob] using hnone
        obtain ⟨hvisibility', hattempts'⟩ := huntouched jobId hold
        exact ⟨hvisibility.trans hvisibility', hattempts.trans hattempts'⟩
      · rw [Table.find?_insertOrKeep, hprojected.projectedEvents, Option.isSome_or,
          Bool.or_eq_true, hmarked]
        simp only [List.mem_cons, exists_eq_or_imp]
        by_cases heq : eventId = load.item.eventId
        · simp [heq]
        · simp [heq, Ne.symm heq]

/-- The rows a transaction loads a projection for are among those it claimed. -/
theorem Txn.Sound.item_mem {journal : List (EdrRow Payload)} {txn : Txn Payload}
    (h : txn.Sound decode journal) {load : Load Payload} (hload : load ∈ txn.loads) :
    load.item ∈ txn.claimed := by
  rw [h.items]
  exact List.mem_append_left _ (List.mem_map_of_mem (List.mem_reverse.2 hload))

/-- What a transaction commits. -/
theorem World.Sound.committed {txn : Txn Payload} (h : w.Sound decode) (hmem : txn ∈ w.txns.rows)
    (hstatements : txn.statements = []) (hview : w.view txn = .ok tables') :
    Committed w.db.tables tables' txn.loads := by
  have hplanned := (h txn hmem).planned
  rw [hstatements, List.append_nil] at hplanned
  rw [World.view, hplanned] at hview
  exact Projectors.committed hview

section Commit

variable {db : EdrDb Payload} {txn : Txn Payload} (hsound : txn.Sound decode db.edrEvents.rows)
  (hcommitted : Committed db.tables tables' txn.loads)
include hsound hcommitted

/-- The marks that are committed are on journal rows, if those before are. -/
theorem Committed.marks
    (hmarks : ∀ eventId, (db.tables.projectedEvents.find? eventId).isSome → eventId ∈ db.eventIds)
    (eventId : String) (h : (tables'.projectedEvents.find? eventId).isSome) :
    eventId ∈ db.eventIds := by
  rcases (hcommitted.marked eventId).1 h with hold | ⟨load, hload, rfl⟩
  · exact hmarks eventId hold
  · exact List.mem_map_of_mem (hsound.claimed _ (hsound.item_mem hload))

/-- A row that is newly marked is one that was claimed and loaded. -/
theorem Committed.marked_cases {row : EdrRow Payload} (hrow : row ∈ db.edrEvents.rows)
    (h : EdrDb.Marked { db with tables := tables' } row) :
    db.Marked row ∨ row ∈ txn.claimed ∧ ∃ load ∈ txn.loads, load.item = row := by
  refine ((hcommitted.marked row.eventId).1 h).imp id ?_
  rintro ⟨load, hload, hevent⟩
  have hclaimed := hsound.item_mem hload
  obtain rfl := Table.eq_of_key_eq (hsound.claimed _ hclaimed) hrow hevent
  exact ⟨hclaimed, load, hload, rfl⟩

end Commit

end Projectors

end ScheduledJobs
