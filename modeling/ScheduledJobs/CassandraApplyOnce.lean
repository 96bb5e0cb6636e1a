/-
**`apply_once`: the Cassandra adapter, statement by statement.**

A worker that runs a `CASSANDRA_FIB_UPDATE` job selects a record, computes its Fibonacci number
and calls `CassandraDriverClient.apply_once` with the record it read and an operation id that is
the same for every attempt of the job.  The call is a sequence of separate statements on two
tables: the row in `records_by_bucket`, updated by two conditional statements, and a marker row in
`update_operations_by_bucket`.  Between any two of them other calls run, the worker may die, and
the answer of a statement may be lost after the statement took effect.

This module models one record, its markers, and any number of calls that target it.  Each
statement is one atomic step; a label says which call moves and what becomes of the answer.

Main definitions:

* `Cassandra.Store` — the row, the marker rows of the record, and the history of the applied
  `finish` statements;
* `Cassandra.Store.reserve`, `Cassandra.Store.finish`, `Cassandra.Store.writeMarker` — the
  statements that write;
* `Cassandra.Pc`, `Cassandra.Call.step` — **`apply_once`**, as a program counter carrying the
  local variables;
* `Cassandra.machine` — any number of calls on one seeded record.

Main results:

* `Cassandra.Store.finish_cases`, `Cassandra.Store.reserve_cases` — what the two conditional
  statements can do;
* `Cassandra.Call.step_cases` — what one statement of a call can do to the store.
-/

import ScheduledJobs.Machine
import Mathlib.Logic.Function.Basic
import Mathlib.Data.Int.Notation

set_option relaxedAutoImplicit false
set_option autoImplicit false

namespace Cassandra

/-! ### The two tables -/

/-- What `select_records` returns about a row. -/
structure WorkloadRecord where
  datasetId : String
  bucket : ℤ
  recordId : ℤ
  inputNumber : ℤ
  checksum : ℤ
  deriving DecidableEq, Repr

/-- A row of `records_by_bucket`.  Operation ids are the UUIDs of `stable_operation_id`; all that
matters about them is whether two are equal. -/
structure RecordRow (Op : Type) where
  datasetId : String
  bucket : ℤ
  recordId : ℤ
  inputNumber : ℤ
  fibonacciResult : Option String
  checksum : ℤ
  pendingOperationId : Option Op
  lastOperationId : Option Op
  deriving DecidableEq, Repr

/-- A row of `update_operations_by_bucket`. -/
structure UpdateOperation where
  previousChecksum : ℤ
  newChecksum : ℤ
  fibonacciResult : String
  deriving DecidableEq, Repr

/-- The record a run of calls targets, the markers written for it, and the operations of the
`finish` statements applied so far, oldest first.  The history is not in the database: it is what
the statements about the run are made of. -/
structure Store (Op : Type) where
  row : RecordRow Op
  updateOperations : Op → Option UpdateOperation
  finalised : List Op

variable {Op : Type}

/-- The seed tooling writes the key columns, `input_number` and `checksum`, and nothing else. -/
def Store.seeded (record : WorkloadRecord) : Store Op where
  row :=
    { datasetId := record.datasetId
      bucket := record.bucket
      recordId := record.recordId
      inputNumber := record.inputNumber
      fibonacciResult := none
      checksum := record.checksum
      pendingOperationId := none
      lastOperationId := none }
  updateOperations := fun _ => none
  finalised := []

/-- The record `select_records` builds from a row. -/
def RecordRow.toWorkloadRecord (row : RecordRow Op) : WorkloadRecord where
  datasetId := row.datasetId
  bucket := row.bucket
  recordId := row.recordId
  inputNumber := row.inputNumber
  checksum := row.checksum

/-- The condition of the reservation, `IF checksum=? AND pending_operation_id=null`. -/
def RecordRow.Free (row : RecordRow Op) (checksum : ℤ) : Prop :=
  row.checksum = checksum ∧ row.pendingOperationId = none

instance (row : RecordRow Op) (checksum : ℤ) : Decidable (row.Free checksum) :=
  inferInstanceAs (Decidable (_ ∧ _))

/-- The statement `_reserve`, and whether it was applied. -/
def Store.reserve (st : Store Op) (op : Op) (checksum : ℤ) : Store Op × Bool :=
  if st.row.Free checksum then
    ({ st with row := { st.row with pendingOperationId := some op } }, true)
  else (st, false)

theorem Store.reserve_cases (st : Store Op) (op : Op) (checksum : ℤ) :
    (st.row.Free checksum ∧
      st.reserve op checksum =
        ({ st with row := { st.row with pendingOperationId := some op } }, true)) ∨
    (¬ st.row.Free checksum ∧ st.reserve op checksum = (st, false)) := by
  by_cases h : st.row.Free checksum
  · exact Or.inl ⟨h, if_pos h⟩
  · exact Or.inr ⟨h, if_neg h⟩

variable [DecidableEq Op]

/-- The condition of the finalisation, `IF pending_operation_id=? AND checksum=?`. -/
def RecordRow.ReservedFor (row : RecordRow Op) (op : Op) (checksum : ℤ) : Prop :=
  row.pendingOperationId = some op ∧ row.checksum = checksum

instance (row : RecordRow Op) (op : Op) (checksum : ℤ) :
    Decidable (row.ReservedFor op checksum) :=
  inferInstanceAs (Decidable (_ ∧ _))

/-- The statement `_finish`, and whether it was applied. -/
def Store.finish (st : Store Op) (op : Op) (fibonacciResult : String) (newChecksum checksum : ℤ) :
    Store Op × Bool :=
  if st.row.ReservedFor op checksum then
    ({ st with
        row :=
          { st.row with
            fibonacciResult := some fibonacciResult
            checksum := newChecksum
            lastOperationId := some op
            pendingOperationId := none }
        finalised := st.finalised ++ [op] }, true)
  else (st, false)

/-- `_write_marker`: an unconditional insert. -/
def Store.writeMarker (st : Store Op) (op : Op) (fibonacciResult : String) (checksum : ℤ) :
    Store Op :=
  { st with
    updateOperations := Function.update st.updateOperations op
      (some ⟨checksum - 1, checksum, fibonacciResult⟩) }

/-- `_find_operation`. -/
def Store.findOperation (st : Store Op) (op : Op) : Option ℤ :=
  (st.updateOperations op).map UpdateOperation.newChecksum

/-! ### One call -/

/-- What becomes of a statement: it takes effect and is answered; it takes effect and the answer
is lost; it never takes effect.  The caller sees the same exception in the last two. -/
inductive Response
  | answered
  | lost
  | dropped
  deriving DecidableEq, Repr

/-- The statement takes effect. -/
def Response.Executed (r : Response) : Prop := r ≠ .dropped

instance (r : Response) : Decidable r.Executed := inferInstanceAs (Decidable (_ ≠ _))

/-- The next statement of an attempt, with the local variables it needs.  `selectRecord` is the
handler's own read of the row, before it calls `apply_once`. -/
inductive Pc (Op : Type)
  | selectRecord
  | readRecord (record : WorkloadRecord)
  | replayMarker (record : WorkloadRecord) (state : RecordRow Op)
  | findOperation (record : WorkloadRecord) (state : RecordRow Op)
  | reserve (record : WorkloadRecord) (state : RecordRow Op)
  | finish (record : WorkloadRecord)
  | reconcile (record : WorkloadRecord)
  | writeMarker (record : WorkloadRecord) (newChecksum : ℤ)
  | returned (applied : Bool) (checksum : ℤ)
  | raised
  deriving DecidableEq, Repr

/-- One attempt of a job: its operation id, the result it computed, and where it is. -/
structure Call (Op : Type) where
  operationId : Op
  fibonacciResult : String
  pc : Pc Op
  deriving DecidableEq, Repr

/-- The call continues at `pc`. -/
def Call.goto (c : Call Op) (pc : Pc Op) : Call Op := { c with pc := pc }

omit [DecidableEq Op] in
@[simp] theorem Call.goto_operationId (c : Call Op) (pc : Pc Op) :
    (c.goto pc).operationId = c.operationId := rfl

/-- Where a call goes after reading the row: a replay of the last operation re-writes its marker
and returns, any other call looks for its own marker. -/
def Call.afterRead (c : Call Op) (record : WorkloadRecord) (state : RecordRow Op) : Pc Op :=
  if state.lastOperationId = some c.operationId then .replayMarker record state
  else .findOperation record state

/-- Where a call goes after looking for its marker.  The marker proves a replay only while the
row still has the checksum the marker recorded. -/
def Call.afterFind (c : Call Op) (record : WorkloadRecord) (state : RecordRow Op)
    (existing : Option ℤ) : Pc Op :=
  if existing = some state.checksum then .returned true state.checksum
  else if state.pendingOperationId ≠ some c.operationId then .reserve record state
  else .finish record

/-- **The next statement of a call**, on a given store and with a given response; nothing when the
call has ended. -/
def Call.step (c : Call Op) (st : Store Op) (r : Response) : Option (Store Op × Call Op) :=
  match c.pc with
  | .selectRecord =>
      if r = .answered then some (st, c.goto (.readRecord st.row.toWorkloadRecord))
      else some (st, c.goto .raised)
  | .readRecord record =>
      if r = .answered then some (st, c.goto (c.afterRead record st.row))
      else some (st, c.goto .raised)
  | .replayMarker _ state =>
      let st' := if r.Executed then st.writeMarker c.operationId c.fibonacciResult state.checksum
        else st
      some (st', c.goto (if r = .answered then .returned true state.checksum else .raised))
  | .findOperation record state =>
      if r = .answered then
        some (st, c.goto (c.afterFind record state (st.findOperation c.operationId)))
      else some (st, c.goto .raised)
  | .reserve record state =>
      let res := if r.Executed then st.reserve c.operationId record.checksum else (st, false)
      some (res.1, c.goto
        (if r = .answered then
          if res.2 then .finish record else .returned false state.checksum
        else .raised))
  | .finish record =>
      let res := if r.Executed then
          st.finish c.operationId c.fibonacciResult (record.checksum + 1) record.checksum
        else (st, false)
      -- a lost answer, and an `after_finalize` hook that raises, both end in the `except` branch
      some (res.1, c.goto
        (if r = .answered then
          if res.2 then .writeMarker record (record.checksum + 1)
          else .returned false record.checksum
        else .reconcile record))
  | .reconcile record =>
      if r = .answered then
        some (st, c.goto
          (if st.row.lastOperationId = some c.operationId then .writeMarker record st.row.checksum
          else .raised))
      else some (st, c.goto .raised)
  | .writeMarker _ newChecksum =>
      let st' := if r.Executed then st.writeMarker c.operationId c.fibonacciResult newChecksum
        else st
      some (st', c.goto (if r = .answered then .returned true newChecksum else .raised))
  | .returned _ _ => none
  | .raised => none

/-! ### What a statement can do -/

theorem Store.finish_cases (st : Store Op) (op : Op) (fib : String) (new checksum : ℤ) :
    (st.row.ReservedFor op checksum ∧
      (st.finish op fib new checksum).1.row.checksum = new ∧
      (st.finish op fib new checksum).1.row.pendingOperationId = none ∧
      (st.finish op fib new checksum).1.row.lastOperationId = some op ∧
      (st.finish op fib new checksum).1.updateOperations = st.updateOperations ∧
      (st.finish op fib new checksum).1.finalised = st.finalised ++ [op] ∧
      (st.finish op fib new checksum).2 = true) ∨
    (¬ st.row.ReservedFor op checksum ∧ st.finish op fib new checksum = (st, false)) := by
  by_cases h : st.row.ReservedFor op checksum
  · exact Or.inl ⟨h, by simp [Store.finish, h]⟩
  · exact Or.inr ⟨h, if_neg h⟩

@[simp] theorem Store.writeMarker_row (st : Store Op) (op : Op) (fib : String) (checksum : ℤ) :
    (st.writeMarker op fib checksum).row = st.row := rfl

@[simp] theorem Store.writeMarker_finalised (st : Store Op) (op : Op) (fib : String)
    (checksum : ℤ) : (st.writeMarker op fib checksum).finalised = st.finalised := rfl

/-- **What one statement of a call can do to the store**: leave the row and the history alone, take
the free row for the call's operation, or finalise the row the operation has reserved. -/
theorem Call.step_cases {c c' : Call Op} {st st' : Store Op} {r : Response}
    (h : c.step st r = some (st', c')) :
    c'.operationId = c.operationId ∧
    ((st'.row = st.row ∧ st'.finalised = st.finalised) ∨
    (∃ record state, c.pc = .reserve record state ∧ r.Executed ∧ st.row.Free record.checksum ∧
      st' = { st with row := { st.row with pendingOperationId := some c.operationId } }) ∨
    (∃ record, c.pc = .finish record ∧ st.row.ReservedFor c.operationId record.checksum ∧
      st'.row.checksum = record.checksum + 1 ∧ st'.row.pendingOperationId = none ∧
      st'.row.lastOperationId = some c.operationId ∧
      st'.finalised = st.finalised ++ [c.operationId])) := by
  unfold Call.step at h
  split at h
  case h_5 record state hpc =>
    simp only [Option.some.injEq, Prod.mk.injEq] at h
    obtain ⟨rfl, rfl⟩ := h
    refine ⟨rfl, ?_⟩
    by_cases hr : r.Executed
    · simp only [if_pos hr]
      rcases st.reserve_cases c.operationId record.checksum with ⟨hf, he⟩ | ⟨-, he⟩
      · exact Or.inr (Or.inl ⟨record, state, hpc, hr, hf, by rw [he]⟩)
      · exact Or.inl (by rw [he]; exact ⟨rfl, rfl⟩)
    · exact Or.inl (by simp [hr])
  case h_6 record hpc =>
    simp only [Option.some.injEq, Prod.mk.injEq] at h
    obtain ⟨rfl, rfl⟩ := h
    refine ⟨rfl, ?_⟩
    by_cases hr : r.Executed
    · simp only [if_pos hr]
      rcases st.finish_cases c.operationId c.fibonacciResult (record.checksum + 1)
        record.checksum with ⟨hf, h₁, h₂, h₃, -, h₅, -⟩ | ⟨-, he⟩
      · exact Or.inr (Or.inr ⟨record, hpc, hf, h₁, h₂, h₃, h₅⟩)
      · exact Or.inl (by rw [he]; exact ⟨rfl, rfl⟩)
    · exact Or.inl (by simp [hr])
  -- an ended call has no statement, and the other statements read or write a marker
  case h_9 | h_10 => simp at h
  all_goals
    split at h <;>
      (simp only [Option.some.injEq, Prod.mk.injEq] at h
       obtain ⟨rfl, rfl⟩ := h
       exact ⟨rfl, Or.inl ⟨rfl, rfl⟩⟩)

/-! ### Any number of calls -/

/-- The store and the calls made on it so far, by number. -/
structure World (Op : Type) where
  store : Store Op
  calls : ℕ → Option (Call Op)

/-- What happens next: a worker begins an attempt, a call executes its next statement, or the
worker of a call dies. -/
inductive Label (Op : Type)
  | attempt (c : ℕ) (op : Op) (fibonacciResult : String)
  | statement (c : ℕ) (r : Response)
  | crash (c : ℕ)

/-- The successor of a world.  A dead worker executes no further statement. -/
def World.next (w : World Op) : Label Op → Option (World Op)
  | .attempt c op fib =>
      if w.calls c = none then
        some { w with calls := Function.update w.calls c (some ⟨op, fib, .selectRecord⟩) }
      else none
  | .statement c r =>
      (w.calls c).bind fun call => (call.step w.store r).map fun res =>
        ⟨res.1, Function.update w.calls c (some res.2)⟩
  | .crash c =>
      (w.calls c).map fun call =>
        { w with calls := Function.update w.calls c (some (call.goto .raised)) }

/-- **Any number of `apply_once` calls on one seeded record.** -/
def machine (seed : WorkloadRecord) : Machine (World Op) (Label Op) where
  start := ⟨Store.seeded seed, fun _ => none⟩
  next := World.next

/-- **What a step can do to the store**: nothing, or one statement of one call. -/
theorem World.next_cases {w w' : World Op} {l : Label Op} (h : w.next l = some w') :
    w'.store = w.store ∨
    ∃ c r call call', l = .statement c r ∧ w.calls c = some call ∧
      call.step w.store r = some (w'.store, call') := by
  cases l with
  | attempt c op fib =>
      simp only [World.next] at h
      split at h
      · exact Or.inl (by cases h; rfl)
      · simp at h
  | statement c r =>
      simp only [World.next, Option.bind_eq_some_iff, Option.map_eq_some_iff] at h
      obtain ⟨call, hc, ⟨st', call'⟩, hs, rfl⟩ := h
      exact Or.inr ⟨c, r, call, call', rfl, hc, hs⟩
  | crash c =>
      simp only [World.next, Option.map_eq_some_iff] at h
      obtain ⟨call, -, rfl⟩ := h
      exact Or.inl rfl

end Cassandra
