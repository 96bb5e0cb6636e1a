/-
**A worker that is left alone does what `run_once` says.**

The machine of the projectors executes one statement at a time, and `EdrDb.runOnce` does a whole
transaction at once.  When only one worker does anything, the machine is never in any other state
than one in which some number of `run_once` calls are done and another one may be on its way; and a
call that is on its way can always be brought to its end.  A transaction that is aborted is as if it
had not been begun.

Main definitions:

* `Projectors.Label.Works` — the steps of one worker, whose transactions may be aborted;
* `Projectors.Proceeds` — the same, without a stale commit;
* `Projectors.Txn.outcome` — what a transaction will leave if nobody gets in its way.

Main results:

* `Projectors.next_only` — a step of the worker keeps the outcome, or it is the last one, or
  nothing is left of the transaction;
* `Projectors.run_refines` — **whatever the worker has done, it was so many calls**;
* `Projectors.leads_afterRuns` — **any number of calls can be made**.
-/

import ScheduledJobs.JournalBatches
import ScheduledJobs.RebuildRepairs

set_option relaxedAutoImplicit false
set_option autoImplicit false

namespace ScheduledJobs

namespace Projectors

variable {Payload : Type} {decode : Payload → Except WireError Event} {db : EdrDb Payload}
  {worker n : ℕ} {w w' : World Payload} {txn : Txn Payload}

/-! ### One worker, and what it is about to do -/

/-- The worker does the next thing of its `run_once`, or its transaction is aborted. -/
def Label.Works (worker n : ℕ) : Label Payload → Prop
  | .arrive _ => False
  | .claim other limit => other = worker ∧ limit = n
  | .load other => other = worker
  | .execute other => other = worker
  | .commit other => other = worker
  | .abort other => other = worker

instance (worker n : ℕ) : DecidablePred (@Label.Works Payload worker n)
  | .arrive _ => isFalse id
  | .claim _ _ => inferInstanceAs (Decidable (_ ∧ _))
  | .load _ => inferInstanceAs (Decidable (_ = _))
  | .execute _ => inferInstanceAs (Decidable (_ = _))
  | .commit _ => inferInstanceAs (Decidable (_ = _))
  | .abort _ => inferInstanceAs (Decidable (_ = _))

/-- The worker does the next thing, and what it commits is not stale. -/
def Proceeds (worker n : ℕ) (w : World Payload) (l : Label Payload) : Prop :=
  l.Works worker n ∧ NoStaleCommit w l

/-- What the transaction has loaded is what the journal has. -/
def Txn.Current (db : EdrDb Payload) (txn : Txn Payload) : Prop :=
  ∀ load ∈ txn.loads, load.rows = db.rowsOf load.item.jobId

/-- The transaction is the only one. -/
def World.only (db : EdrDb Payload) (txn : Txn Payload) : World Payload where
  db := db
  txns := ⟨[txn], List.nodup_singleton _⟩

/-- **What a transaction will leave** if nobody gets in its way. -/
def Txn.outcome (decode : Payload → Except WireError Event) (db : EdrDb Payload)
    (txn : Txn Payload) : Except ProjectionError (EdrDb Payload) := do
  let tables ← db.tables.executeAll db.eventIds txn.writes
  let tables ← tables.executeAll db.eventIds txn.statements
  txn.todo.foldlM (fun db row => db.projectRow decode row) { db with tables := tables }

/-- The database once a transaction is over: an exception rolls everything back. -/
def settle (db : EdrDb Payload) : Except ProjectionError (EdrDb Payload) → EdrDb Payload
  | .ok db' => db'
  | .error _ => db

/-- What is left to do gets less: a row, or a statement of the same row. -/
def Txn.Shorter (txn' txn : Txn Payload) : Prop :=
  Prod.Lex (· < ·) (· < ·) (txn'.todo.length, txn'.statements.length)
    (txn.todo.length, txn.statements.length)

/-! ### The steps of an open transaction -/

@[simp] theorem find?_only : (World.only db txn).txns.find? txn.worker = some txn :=
  Table.find?_of_mem (List.mem_singleton_self _)

theorem replace_only {txn' : Txn Payload} (h : txn'.worker = txn.worker) :
    ({ World.only db txn with txns := (World.only db txn).txns.replace txn' } : World Payload) =
      .only db txn' := by
  refine congrArg (World.mk db) (Table.ext ?_)
  simp [World.only, Table.replace, h]

theorem close_only : (World.only db txn).close txn.worker = { db := db } := by
  refine congrArg (World.mk db) (Table.ext ?_)
  simp [World.only, Table.deleteWhere, Table.empty]

/-- Nobody is there to wait for. -/
theorem not_waits_only (statement : Statement) :
    ¬ (World.only db txn).Waits txn.worker statement := by
  have hnone : ∀ other ∈ (World.only db txn).txns.rows, ¬ other.worker ≠ txn.worker := by
    intro other hother
    rw [List.mem_singleton.1 hother]
    exact not_not_intro rfl
  cases statement with
  | upsertVisibility row => exact fun ⟨other, hother, hne, _⟩ => hnone other hother hne
  | insertDecision row => exact fun ⟨_, other, hother, hne, _⟩ => hnone other hother hne
  | deleteAttempts _ => exact id
  | insertAttempt _ => exact id
  | upsertFinding _ => exact id
  | markProjected _ => exact id

/-- A statement is executed, now or as one of those that follow. -/
theorem outcome_execute {statement : Statement} {statements : List Statement}
    (hstatements : txn.statements = statement :: statements) (shared : List String) :
    Txn.outcome decode db
        { txn with
          statements := statements
          writes := txn.writes ++ [statement]
          keyShared := shared } = txn.outcome decode db := by
  unfold Txn.outcome
  rw [hstatements]
  simp only [ProjectionTables.executeAll, List.foldlM_append, List.foldlM_cons, List.foldlM_nil,
    bind_assoc, bind_pure]

/-- A row is loaded, now or as one of those that follow. -/
theorem outcome_load {item : EdrRow Payload} {todo : List (EdrRow Payload)}
    (hstatements : txn.statements = []) (htodo : txn.todo = item :: todo) {projection : Projection}
    (hrebuild : rebuild decode item.jobId (db.rowsOf item.jobId) = .ok projection)
    (load : Load Payload) (hload : load = ⟨item, db.rowsOf item.jobId, projection⟩) :
    Txn.outcome decode db
        { txn with
          todo := todo
          statements := load.statements
          loads := load :: txn.loads } = txn.outcome decode db := by
  unfold Txn.outcome
  rw [hstatements, htodo, hload]
  refine bind_congr fun tables => ?_
  have hrows : EdrDb.rowsOf { db with tables := tables } item.jobId = db.rowsOf item.jobId := rfl
  simp only [ProjectionTables.executeAll, Load.statements, List.foldlM_append, List.foldlM_cons,
    List.foldlM_nil, bind_assoc, bind_pure, EdrDb.projectRow, EdrDb.projectJob,
    Reading.ofDecoder, pure_bind, hrows, hrebuild]
  rfl

/-- The transaction comes to nothing. -/
def Txn.Fails (decode : Payload → Except WireError Event) (db : EdrDb Payload)
    (txn : Txn Payload) : Prop :=
  ∃ e, txn.outcome decode db = .error e

theorem Txn.Fails.close_only (h : txn.Fails decode db) :
    (World.only db txn).close txn.worker = { db := settle db (txn.outcome decode db) } := by
  obtain ⟨e, he⟩ := h
  rw [he]
  exact Projectors.close_only

/-- A transaction that cannot read its own writes. -/
theorem fails_of_view {e : ProjectionError} (h : (World.only db txn).view txn = .error e) :
    txn.Fails decode db :=
  ⟨e, by rw [Txn.outcome, show db.tables.executeAll db.eventIds txn.writes = .error e from h]; rfl⟩

/-- A statement that is refused. -/
theorem fails_of_execute {tables : ProjectionTables} {statement : Statement}
    {statements : List Statement} {e : ProjectionError}
    (hview : (World.only db txn).view txn = .ok tables)
    (hstatements : txn.statements = statement :: statements)
    (h : tables.execute db.eventIds statement = .error e) : txn.Fails decode db := by
  have hwrites : db.tables.executeAll db.eventIds txn.writes = .ok tables := hview
  have hrest : tables.executeAll db.eventIds (statement :: statements) = .error e := by
    rw [ProjectionTables.executeAll, List.foldlM_cons, h]
    rfl
  refine ⟨e, ?_⟩
  rw [Txn.outcome, hwrites, hstatements, Except.ok_bind, hrest]
  rfl

/-- A row whose job cannot be replayed. -/
theorem fails_of_rebuild {item : EdrRow Payload} {todo : List (EdrRow Payload)}
    {e : ProjectionError} (hstatements : txn.statements = []) (htodo : txn.todo = item :: todo)
    (h : rebuild decode item.jobId (db.rowsOf item.jobId) = .error e) : txn.Fails decode db := by
  cases hview : (World.only db txn).view txn with
  | error e' => exact fails_of_view hview
  | ok tables =>
      have hwrites : db.tables.executeAll db.eventIds txn.writes = .ok tables := hview
      have hrow : EdrDb.projectRow { db with tables := tables } decode item = .error e := by
        have hrows : EdrDb.rowsOf { db with tables := tables } item.jobId = db.rowsOf item.jobId :=
          rfl
        have hread : (Reading.ofDecoder decode).read item.jobId (db.rowsOf item.jobId) =
            .error e := by
          simp only [Reading.ofDecoder, h]
          rfl
        rw [EdrDb.projectRow, EdrDb.projectJob, hrows, hread]
        rfl
      refine ⟨e, ?_⟩
      rw [Txn.outcome, hwrites, hstatements, htodo, Except.ok_bind, ProjectionTables.executeAll,
        List.foldlM_nil, pure_bind, List.foldlM_cons, hrow]
      rfl

/-- **What the worker can do about its transaction**: it keeps the outcome, loads what the journal
has and leaves less to be done, or the transaction is over, or it has come to nothing. -/
theorem next_only {l : Label Payload} (hl : l.Works txn.worker n)
    (hn : (World.only db txn).next decode l = some w') :
    (∃ txn', w' = .only db txn' ∧ txn'.worker = txn.worker ∧
      txn'.outcome decode db = txn.outcome decode db ∧ (txn.Current db → txn'.Current db) ∧
      txn'.Shorter txn) ∨
      w' = { db := settle db (txn.outcome decode db) } ∨
      l = .abort txn.worker ∧ w' = { db := db } := by
  cases l with
  | arrive row => cases hl
  | claim other limit =>
      obtain ⟨rfl, rfl⟩ := hl
      obtain ⟨txns, hinsert, -⟩ := Option.map_eq_some_iff.1 hn
      have hnone := (Table.insert?_eq_some_iff.1 hinsert).1
      rw [find?_only] at hnone
      cases hnone
  | load other =>
      obtain rfl : other = txn.worker := hl
      simp only [World.next, find?_only, Option.bind_some] at hn
      split at hn
      · next item todo hstatements htodo =>
          split at hn
          · next projection hrebuild =>
              obtain rfl := Option.some_inj.1 hn
              refine Or.inl ⟨_, replace_only rfl, rfl,
                outcome_load hstatements htodo hrebuild _ rfl,
                fun hcurrent => List.forall_mem_cons.2 ⟨rfl, hcurrent⟩, ?_⟩
              refine Prod.Lex.left _ _ ?_
              simp only [htodo, List.length_cons, Nat.lt_succ_self]
          · next e hrebuild =>
              obtain rfl := Option.some_inj.1 hn
              exact Or.inr (Or.inl (fails_of_rebuild hstatements htodo hrebuild).close_only)
      · cases hn
  | execute other =>
      obtain rfl : other = txn.worker := hl
      simp only [World.next, find?_only, Option.bind_some, not_waits_only, if_false] at hn
      split at hn
      · next statement statements hstatements =>
          split at hn
          · next tables hview =>
              split at hn
              · obtain rfl := Option.some_inj.1 hn
                refine Or.inl ⟨_, replace_only rfl, rfl, outcome_execute hstatements _, id, ?_⟩
                refine Prod.Lex.right _ ?_
                simp only [hstatements, List.length_cons, Nat.lt_succ_self]
              · next e herror =>
                  obtain rfl := Option.some_inj.1 hn
                  exact Or.inr (Or.inl (fails_of_execute hview hstatements herror).close_only)
          · next e hview =>
              obtain rfl := Option.some_inj.1 hn
              exact Or.inr (Or.inl (fails_of_view hview).close_only)
      · cases hn
  | commit other =>
      obtain rfl : other = txn.worker := hl
      simp only [World.next, find?_only, Option.bind_some] at hn
      split at hn
      · next hstatements htodo =>
          refine Or.inr (Or.inl ?_)
          split at hn
          · next tables hview =>
              obtain rfl := Option.some_inj.1 hn
              have hwrites : db.tables.executeAll db.eventIds txn.writes = .ok tables := hview
              have houtcome : txn.outcome decode db = .ok { db with tables := tables } := by
                rw [Txn.outcome, hwrites, hstatements, htodo]
                rfl
              rw [houtcome, close_only]
              rfl
          · next e hview =>
              obtain rfl := Option.some_inj.1 hn
              exact (fails_of_view hview).close_only
      · cases hn
  | abort other =>
      obtain rfl : other = txn.worker := hl
      simp only [World.next, find?_only, Option.map_some] at hn
      obtain rfl := Option.some_inj.1 hn
      exact Or.inr (Or.inr ⟨rfl, close_only⟩)

/-- The commit of the only transaction is not stale, if what it has loaded is what the journal
has. -/
theorem Txn.Current.noStaleCommit (h : txn.Current db) :
    NoStaleCommit (World.only db txn) (.commit txn.worker) := by
  intro other hother load hload row hrow _
  obtain rfl : other = txn := (Option.some_inj.1 (find?_only.symm.trans hother)).symm
  obtain ⟨last, hlast⟩ := Option.ne_none_iff_exists'.1 (lastLoad_ne_none hload)
  obtain ⟨hmem, hjob⟩ := mem_of_lastLoad hlast
  rw [lastRows, hlast, Option.map_some, Option.getD_some, h last hmem, hjob]
  exact hrow

/-- The worker can always do something about its transaction other than abort it. -/
theorem exists_next_only (decode : Payload → Except WireError Event) (hcurrent : txn.Current db)
    (n : ℕ) :
    ∃ l, Proceeds txn.worker n (World.only db txn) l ∧ l ≠ .abort txn.worker ∧
      ∃ w', (World.only db txn).next decode l = some w' := by
  cases hstatements : txn.statements with
  | cons statement statements =>
      refine ⟨.execute txn.worker, ⟨rfl, trivial⟩, by simp, ?_⟩
      simp only [World.next, find?_only, Option.bind_some, hstatements, not_waits_only, if_false]
      split
      · split
        · exact ⟨_, rfl⟩
        · exact ⟨_, rfl⟩
      · exact ⟨_, rfl⟩
  | nil =>
      cases htodo : txn.todo with
      | cons item todo =>
          refine ⟨.load txn.worker, ⟨rfl, trivial⟩, by simp, ?_⟩
          simp only [World.next, find?_only, Option.bind_some, hstatements, htodo]
          split
          · exact ⟨_, rfl⟩
          · exact ⟨_, rfl⟩
      | nil =>
          refine ⟨.commit txn.worker, ⟨rfl, hcurrent.noStaleCommit⟩, by simp, ?_⟩
          simp only [World.next, find?_only, Option.bind_some, hstatements, htodo]
          split
          · exact ⟨_, rfl⟩
          · exact ⟨_, rfl⟩

/-! ### Between the calls -/

/-- The transaction of a `run_once` that begins. -/
def Txn.begun (worker n : ℕ) (db : EdrDb Payload) : Txn Payload where
  worker := worker
  claimed := db.pending.take n
  todo := db.pending.take n

/-- What will become of it is what `run_once` does. -/
theorem settle_begun : settle db ((Txn.begun worker n db).outcome decode db) =
    db.afterRun decode n := by
  rw [EdrDb.afterRun_eq]
  rfl

theorem claim_closed :
    ({ db := db } : World Payload).next decode (.claim worker n) =
      some (.only db (.begun worker n db)) := by
  have hclaimable : ({ db := db } : World Payload).claimable = db.pending :=
    List.filter_eq_self.2 fun _ _ => rfl
  have hinsert : (Table.empty : Table (@Txn.worker Payload)).insert? (.begun worker n db) =
      some (World.only db (.begun worker n db)).txns := Table.insert?_eq_some_iff.2 ⟨rfl, rfl⟩
  simp only [World.next, hclaimable]
  exact congrArg (Option.map _) hinsert

/-- With no transaction open, the worker can only begin one. -/
theorem next_closed {l : Label Payload} (hl : l.Works worker n)
    (hn : ({ db := db } : World Payload).next decode l = some w') :
    w' = .only db (.begun worker n db) := by
  cases l with
  | arrive row => cases hl
  | claim other limit =>
      obtain ⟨rfl, rfl⟩ := hl
      exact (Option.some_inj.1 (claim_closed.symm.trans hn)).symm
  | load other => cases hn
  | execute other => cases hn
  | commit other => cases hn
  | abort other => cases hn

/-! ### Runs of the worker -/

/-- Some calls are done, and the next one may be on its way. -/
def World.Called (decode : Payload → Except WireError Event) (worker n : ℕ) (db : EdrDb Payload)
    (w : World Payload) (k : ℕ) : Prop :=
  w = { db := db.afterRuns decode n k } ∨
    ∃ txn, w = .only (db.afterRuns decode n k) txn ∧ txn.worker = worker ∧
      settle (db.afterRuns decode n k) (txn.outcome decode (db.afterRuns decode n k)) =
        db.afterRuns decode n (k + 1)

/-- **What a step of the worker preserves.** -/
theorem World.Called.next {k : ℕ} {l : Label Payload} (h : w.Called decode worker n db k)
    (hl : l.Works worker n) (hn : w.next decode l = some w') :
    ∃ k', w'.Called decode worker n db k' := by
  have hsucc : db.afterRuns decode n (k + 1) = (db.afterRuns decode n k).afterRun decode n :=
    Function.iterate_succ_apply' ..
  rcases h with rfl | ⟨txn, rfl, rfl, houtcome⟩
  · refine ⟨k, Or.inr ⟨_, next_closed hl hn, rfl, ?_⟩⟩
    rw [settle_begun, hsucc]
  · rcases next_only hl hn with ⟨txn', rfl, hworker, hsame, -, -⟩ | rfl | ⟨-, rfl⟩
    · exact ⟨k, Or.inr ⟨txn', rfl, hworker, by rw [hsame, houtcome]⟩⟩
    · exact ⟨k + 1, Or.inl (by rw [houtcome])⟩
    · exact ⟨k, Or.inl rfl⟩

/-- **Whatever the worker has done, it was so many calls** of `run_once`, and the beginning of one
more; what was aborted does not count. -/
theorem run_refines {labels : List (Label Payload)} (hworks : ∀ l ∈ labels, l.Works worker n)
    (hrun : (machine decode).run { db := db } labels = some w) :
    ∃ k, w.Called decode worker n db k := by
  have hall : ∀ labels : List (Label Payload), (∀ l ∈ labels, l.Works worker n) →
      ∀ (start : World Payload) k, start.Called decode worker n db k →
        (machine decode).run start labels = some w → ∃ k, w.Called decode worker n db k := by
    intro labels
    induction labels with
    | nil =>
        intro _ start k hstart hrun
        cases hrun
        exact ⟨k, hstart⟩
    | cons l labels ih =>
        intro hworks start k hstart hrun
        rw [List.forall_mem_cons] at hworks
        obtain ⟨next, hnext, hrest⟩ := Machine.run_cons_eq_some_iff.1 hrun
        obtain ⟨k', hk'⟩ := hstart.next hworks.1 hnext
        exact ih hworks.2 next k' hk' hrest
  exact hall labels hworks _ 0 (Or.inl rfl) hrun

/-- A transaction is aborted, the first row of two is projected, and the second one loaded. -/
def soleRun : List (Label Json.Object) :=
  [.claim 0 1, .load 0, .execute 0, .abort 0, .claim 0 1, .load 0] ++ projected 0 5 ++
    [.claim 0 1, .load 0]

theorem run_refines_soleRun :
    ∃ w, (machine eventFromRow).run { db := EdrDb.createdAndRequested } soleRun = some w ∧
      w.db.pending.length = 1 ∧ w.txns.rows.length = 1 ∧
      ∃ k, w.Called eventFromRow 0 1 EdrDb.createdAndRequested k := by
  have hrun : ((machine eventFromRow).run { db := EdrDb.createdAndRequested } soleRun).map
      (fun w => (w.db.pending.length, w.txns.rows.length)) = some (1, 1) := by decide +kernel
  obtain ⟨w, hw, hlengths⟩ := Option.map_eq_some_iff.1 hrun
  obtain ⟨hpending, htxns⟩ := Prod.mk.inj hlengths
  exact ⟨w, hw, hpending, htxns, run_refines (by decide) hw⟩

/-- A transaction can be brought to its end: by the number of rows that are left, and that of the
statements of the present one. -/
theorem leads_of_only (decode : Payload → Except WireError Event) (n : ℕ) {txn : Txn Payload}
    (hcurrent : txn.Current db) :
    (machine decode).Leads (Proceeds txn.worker n) (.only db txn)
      { db := settle db (txn.outcome decode db) } := by
  obtain ⟨l, hl, hkept, w', hn⟩ := exists_next_only decode hcurrent n
  rcases next_only hl.1 hn with ⟨txn', rfl, hworker, hsame, hcurrent', hshorter⟩ | rfl |
    ⟨habort, -⟩
  · have hrest := leads_of_only decode n (hcurrent' hcurrent)
    rw [hworker, hsame] at hrest
    exact (Machine.Leads.step hl hn).trans hrest
  · exact Machine.Leads.step hl hn
  · exact absurd habort hkept
termination_by (txn.todo.length, txn.statements.length)
decreasing_by exact hshorter

/-- **Any number of calls can be made**, and nothing stale is committed. -/
theorem leads_afterRuns (decode : Payload → Except WireError Event) (worker n : ℕ)
    (db : EdrDb Payload) (k : ℕ) :
    (machine decode).Leads (Proceeds worker n) { db := db } { db := db.afterRuns decode n k } := by
  induction k with
  | zero => exact Machine.Leads.refl
  | succ k ih =>
      have hbegin : (machine decode).Leads (Proceeds worker n)
          { db := db.afterRuns decode n k } (.only _ (.begun worker n _)) :=
        Machine.Leads.step (M := machine decode) (a := .claim worker n) ⟨⟨rfl, rfl⟩, trivial⟩
          (@claim_closed _ decode (db.afterRuns decode n k) worker n)
      have hcurrent : (Txn.begun worker n (db.afterRuns decode n k)).Current
          (db.afterRuns decode n k) := fun _ hnone => nomatch hnone
      have hend := leads_of_only decode n hcurrent
      rw [settle_begun] at hend
      have hsucc : db.afterRuns decode n (k + 1) = (db.afterRuns decode n k).afterRun decode n :=
        Function.iterate_succ_apply' ..
      rw [hsucc]
      exact (ih.trans hbegin).trans hend

end Projectors

end ScheduledJobs
