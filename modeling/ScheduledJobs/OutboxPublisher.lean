/-
**Any number of outbox publishers.**

A publisher leases a batch of rows that are due, sends them to the broker one after the other, and
writes down what became of each: where the broker has put the message, or that the attempt failed
and when the next one is due.  Both are written only while the row carries the token the publisher
leased it with, and a row is leased with a fresh token.  Whatever raises on the way, also after a
commit, takes a record to `_failed`; an exception there, or the end of the process, ends the batch.

A statement is one step: its rows are locked until it commits, so no other statement sees or changes
them in between, and `SKIP LOCKED` appears as the set of rows that others hold at the time.

Main definitions:

* `Outbox.Entry`, `Outbox.Message` — a row of `scheduler_outbox`, and what the broker acknowledges;
* `OutboxPublisher.lease`, `Outbox.published`, `OutboxPublisher.failed` — **the statements**;
* `Outbox.World`, `Outbox.machine` — publishers in any state of their batches.

Main results:

* `Outbox.World.next_cases` — what a step can do.
-/

import ScheduledJobs.Machine
import ScheduledJobs.RetryDelay
import ScheduledJobs.SchedulerModel

set_option relaxedAutoImplicit false
set_option autoImplicit false

namespace ScheduledJobs

namespace Outbox

/-! ### Rows, records and messages -/

/-- A row of `scheduler_outbox`, with the columns a publisher reads and writes.  A lease token is
the number of the draw it comes from. -/
structure Entry where
  eventId : String
  topic : String
  messageKey : String
  canonicalPayload : String
  createdAt : Datetime
  publishedAt : Option Datetime := none
  publishAttempts : ℕ := 0
  lastError : Option String := none
  nextAttemptAt : Datetime
  leaseOwner : Option String := none
  leaseToken : Option ℕ := none
  leaseExpiresAt : Option Datetime := none
  kafkaPartition : Option ℕ := none
  kafkaOffset : Option ℕ := none
  deriving DecidableEq, Repr

/-- A leased row, as a publisher holds it. -/
structure OutboxRecord where
  eventId : String
  topic : String
  messageKey : String
  payload : String
  attempts : ℕ
  leaseToken : ℕ
  deriving DecidableEq, Repr

structure BrokerCoordinate where
  partition : ℕ
  offset : ℕ
  deriving DecidableEq, Repr

/-- A message the broker has acknowledged, and where it is. -/
structure Message where
  topic : String
  key : String
  value : String
  coordinate : BrokerCoordinate
  deriving DecidableEq, Repr

/-- The message a record is sent as. -/
def OutboxRecord.message (record : OutboxRecord) (coordinate : BrokerCoordinate) : Message :=
  ⟨record.topic, record.messageKey, record.payload, coordinate⟩

/-- The message of a row. -/
def Entry.message (entry : Entry) (coordinate : BrokerCoordinate) : Message :=
  ⟨entry.topic, entry.messageKey, entry.canonicalPayload, coordinate⟩

/-! ### The statements -/

/-- The row can be leased at the time. -/
def Entry.Due (now : Datetime) (entry : Entry) : Prop :=
  entry.publishedAt = none ∧ entry.nextAttemptAt ≤ now ∧ ∀ t ∈ entry.leaseExpiresAt, t < now

instance (now : Datetime) (entry : Entry) : Decidable (entry.Due now) :=
  inferInstanceAs (Decidable (_ ∧ _ ∧ ∀ t ∈ entry.leaseExpiresAt, t < now))

/-- `ORDER BY next_attempt_at, created_at`. -/
def Entry.Before (r s : Entry) : Prop :=
  r.nextAttemptAt < s.nextAttemptAt ∨ r.nextAttemptAt = s.nextAttemptAt ∧ r.createdAt ≤ s.createdAt

instance : DecidableRel Entry.Before := fun _ _ => inferInstanceAs (Decidable (_ ∨ _))

/-- The rows that are due and that nobody else has locked. -/
def dueEntries (outbox : Table Entry.eventId) (now : Datetime) (locked : List String) :
    List Entry :=
  (outbox.rows.filter fun entry => entry.Due now ∧ entry.eventId ∉ locked).insertionSort
    Entry.Before

/-- What `RETURNING` gives of a row. -/
def Entry.record (entry : Entry) (token : ℕ) : OutboxRecord where
  eventId := entry.eventId
  topic := entry.topic
  messageKey := entry.messageKey
  payload := entry.canonicalPayload
  attempts := entry.publishAttempts
  leaseToken := token

/-- The row carries the token of the record. -/
def Entry.Held (record : OutboxRecord) (entry : Entry) : Prop :=
  entry.eventId = record.eventId ∧ entry.leaseToken = some record.leaseToken

instance (record : OutboxRecord) (entry : Entry) : Decidable (entry.Held record) :=
  inferInstanceAs (Decidable (_ ∧ _))

/-- `UPDATE … WHERE event_id=:id AND lease_token=:token`. -/
def updateHeld (outbox : Table Entry.eventId) (record : OutboxRecord) (assign : Entry → Entry)
    (hassign : ∀ entry, (assign entry).eventId = entry.eventId) : Table Entry.eventId :=
  outbox.mapRows (fun entry => if entry.Held record then assign entry else entry) fun entry => by
    split
    · exact hassign entry
    · rfl

/-- Some row carries the token of the record. -/
def Holds (outbox : Table Entry.eventId) (record : OutboxRecord) : Prop :=
  ∃ entry ∈ outbox.rows, entry.Held record

instance (outbox : Table Entry.eventId) (record : OutboxRecord) :
    Decidable (Holds outbox record) := inferInstanceAs (Decidable (∃ entry ∈ outbox.rows, _))

/-- The assignments of `_published`. -/
def Entry.publish (entry : Entry) (coordinate : BrokerCoordinate) (now : Datetime) : Entry :=
  { entry with
    publishedAt := some now
    kafkaPartition := some coordinate.partition
    kafkaOffset := some coordinate.offset
    leaseOwner := none
    leaseToken := none
    leaseExpiresAt := none
    lastError := none }

/-- The assignments of `_failed`. -/
def Entry.fail (entry : Entry) (error : String) (nextAttemptAt : Datetime) : Entry :=
  { entry with
    publishAttempts := entry.publishAttempts + 1
    lastError := some (error.take 200).toString
    nextAttemptAt := nextAttemptAt
    leaseOwner := none
    leaseToken := none
    leaseExpiresAt := none }

/-- **`_published`.** -/
def published (outbox : Table Entry.eventId) (record : OutboxRecord)
    (coordinate : BrokerCoordinate) (now : Datetime) : Table Entry.eventId :=
  updateHeld outbox record (fun entry => entry.publish coordinate now) fun _ => rfl

end Outbox

open Outbox

/-- An `OutboxPublisher`, with the settings its statements use. -/
structure OutboxPublisher where
  owner : String
  batchSize : ℕ := 100
  leaseSeconds : ℤ := 30
  tuning : RetryTuning := {}

namespace OutboxPublisher

variable (publisher : OutboxPublisher)

/-- A row that is leased. -/
def leased (token : ℕ) (now : Datetime) (entry : Entry) : Entry :=
  { entry with
    leaseOwner := some publisher.owner
    leaseToken := some token
    leaseExpiresAt := some (now + seconds publisher.leaseSeconds) }

/-- The rows a lease takes. -/
def batch (outbox : Table Entry.eventId) (clock : ClockReads) (locked : List String) :
    List Entry :=
  (dueEntries outbox clock.checked locked).take publisher.batchSize

/-- **`_lease`**: the outbox with the rows leased, and their records in the order in which they are
due. -/
def lease (outbox : Table Entry.eventId) (token : ℕ) (clock : ClockReads) (locked : List String) :
    Table Entry.eventId × List OutboxRecord :=
  let batch := publisher.batch outbox clock locked
  (outbox.mapRows (fun entry =>
      if entry.eventId ∈ batch.map Entry.eventId then publisher.leased token clock.written entry
      else entry) fun entry => by split <;> rfl,
    batch.map fun entry => entry.record token)

/-- **`_failed`**, or what it raises.  The time of the next attempt is computed for the row that is
updated, if there is one. -/
def failed (outbox : Table Entry.eventId) (record : OutboxRecord) (error : String) (drawn : Drawn)
    (now : Datetime) : Except PublisherError (Table Entry.eventId) := do
  let ceiling ← publisher.tuning.ceiling record.attempts
  if Holds outbox record then
    let next ← nextAttemptAt now (uniform? drawn ceiling)
    return updateHeld outbox record (fun entry => entry.fail error next) fun _ => rfl
  else return outbox

end OutboxPublisher

namespace Outbox

/-- Where no row carries the token, an update of those that do changes nothing. -/
theorem updateHeld_of_not_holds {outbox : Table Entry.eventId} {record : OutboxRecord}
    (h : ¬ Holds outbox record) {assign : Entry → Entry}
    (hassign : ∀ entry, (assign entry).eventId = entry.eventId) :
    updateHeld outbox record assign hassign = outbox := by
  refine Table.ext ?_
  refine (List.map_congr_left fun entry hentry => ?_).trans (List.map_id _)
  exact if_neg fun hheld => h ⟨entry, hentry, hheld⟩

/-- **What `_failed` leaves, if it returns**: the rows that carry the token have failed once
more. -/
theorem exists_of_failed {publisher : OutboxPublisher} {outbox outbox' : Table Entry.eventId}
    {record : OutboxRecord} {error : String} {drawn : Drawn} {now : Datetime}
    (h : publisher.failed outbox record error drawn now = .ok outbox') :
    ∃ next, outbox' = updateHeld outbox record (fun entry => entry.fail error next)
      fun _ => rfl := by
  obtain ⟨ceiling, -, hrest⟩ := Except.bind_eq_ok_iff.1 h
  split at hrest
  · obtain ⟨next, -, hnext⟩ := Except.bind_eq_ok_iff.1 hrest
    cases hnext
    exact ⟨next, rfl⟩
  · next hnone =>
      cases hrest
      exact ⟨now, (updateHeld_of_not_holds hnone _).symm⟩

/-! ### Publishers and the broker -/

/-- How far a publisher is with the first record of its batch. -/
inductive Progress
  /-- The broker has not acknowledged it. -/
  | sending
  /-- The broker has acknowledged it. -/
  | acknowledged (coordinate : BrokerCoordinate)
  /-- Something was raised, and `_failed` comes next. -/
  | raised (error : String)
  deriving DecidableEq, Repr

/-- A `run_once` that is going on: the records that are left, and how far the first one is. -/
structure Run where
  publisher : ℕ
  records : List OutboxRecord
  progress : Progress
  deriving DecidableEq, Repr

/-- The outbox, what the broker has acknowledged, and the publishers. -/
structure World where
  outbox : Table Entry.eventId := .empty
  acknowledged : List Message := []
  /-- The number of tokens that were drawn. -/
  draws : ℕ := 0
  runs : Table Run.publisher := .empty
  stopping : List ℕ := []

namespace World

variable (w : World)

/-- The publisher goes on to the next record. -/
def advance (run : Run) : World :=
  { w with runs := w.runs.replace { run with records := run.records.tail, progress := .sending } }

/-- The publisher has come further with its record. -/
def moveTo (run : Run) (progress : Progress) : World :=
  { w with runs := w.runs.replace { run with progress := progress } }

/-- The `run_once` of a publisher has ended. -/
def close (publisher : ℕ) : World :=
  { w with runs := w.runs.deleteWhere fun run => run.publisher = publisher }

end World

/-! ### Steps -/

/-- A row is inserted, or a publisher does the next thing. -/
inductive Label
  /-- A transaction of the scheduler commits a row. -/
  | insert (eventId topic messageKey canonicalPayload : String) (createdAt nextAttemptAt : Datetime)
  /-- A publisher begins a `run_once`. -/
  | lease (publisher : ℕ) (clock : ClockReads) (locked : List String)
  /-- The broker acknowledges the record. -/
  | acknowledge (publisher : ℕ) (coordinate : BrokerCoordinate)
  /-- The broker, a hook or a statement that is not committed raises. -/
  | raise (publisher : ℕ) (error : String)
  /-- `_published` commits, and may raise after that. -/
  | published (publisher : ℕ) (now : Datetime) (error : Option String)
  | failed (publisher : ℕ) (drawn : Drawn) (now : Datetime)
  /-- `run_once` returns. -/
  | finish (publisher : ℕ)
  /-- `run_once` raises, or the process dies. -/
  | crash (publisher : ℕ)
  | stop (publisher : ℕ)

/-- The publisher that takes the step. -/
def Label.publisher? : Label → Option ℕ
  | .insert .. => none
  | .lease publisher .. => some publisher
  | .acknowledge publisher _ => some publisher
  | .raise publisher _ => some publisher
  | .published publisher .. => some publisher
  | .failed publisher .. => some publisher
  | .finish publisher => some publisher
  | .crash publisher => some publisher
  | .stop publisher => some publisher

/-- **One step**, for publishers with the given settings. -/
def World.next (publishers : ℕ → OutboxPublisher) (w : World) : Label → Option World
  | .insert eventId topic messageKey canonicalPayload createdAt nextAttemptAt =>
      (w.outbox.insert?
        { eventId := eventId
          topic := topic
          messageKey := messageKey
          canonicalPayload := canonicalPayload
          createdAt := createdAt
          nextAttemptAt := nextAttemptAt }).map fun outbox => { w with outbox := outbox }
  | .lease publisher clock locked =>
      if publisher ∈ w.stopping then none
      else
        let (outbox, records) := (publishers publisher).lease w.outbox w.draws clock locked
        (w.runs.insert? ⟨publisher, records, .sending⟩).map fun runs =>
          { w with outbox := outbox, draws := w.draws + 1, runs := runs }
  | .acknowledge publisher coordinate =>
      (w.runs.find? publisher).bind fun run =>
        match run.records, run.progress with
        | record :: _, .sending =>
            some { w.moveTo run (.acknowledged coordinate) with
              acknowledged := w.acknowledged ++ [record.message coordinate] }
        | _, _ => none
  | .raise publisher error =>
      (w.runs.find? publisher).bind fun run =>
        match run.records, run.progress with
        | _ :: _, .sending => some (w.moveTo run (.raised error))
        | _ :: _, .acknowledged _ => some (w.moveTo run (.raised error))
        | _, _ => none
  | .published publisher now error =>
      (w.runs.find? publisher).bind fun run =>
        match run.records, run.progress with
        | record :: _, .acknowledged coordinate =>
            let outbox := Outbox.published w.outbox record coordinate now
            match error with
            | none => some { w.advance run with outbox := outbox }
            | some error => some { w.moveTo run (.raised error) with outbox := outbox }
        | _, _ => none
  | .failed publisher drawn now =>
      (w.runs.find? publisher).bind fun run =>
        match run.records, run.progress with
        | record :: _, .raised error =>
            -- an exception here ends the `run_once`, as a crash does
            ((publishers publisher).failed w.outbox record error drawn now).toOption.map
              fun outbox => { w.advance run with outbox := outbox }
        | _, _ => none
  | .finish publisher =>
      (w.runs.find? publisher).bind fun run =>
        match run.records with
        | [] => some (w.close publisher)
        | _ :: _ => none
  | .crash publisher => (w.runs.find? publisher).map fun _ => w.close publisher
  | .stop publisher => some { w with stopping := publisher :: w.stopping }

/-- The publishers over an empty outbox. -/
def machine (publishers : ℕ → OutboxPublisher) : Machine World Label where
  start := {}
  next := World.next publishers

variable {publishers : ℕ → OutboxPublisher} {w w' : World}

/-- **What a step can do.** -/
theorem World.next_cases {l : Label} (h : w.next publishers l = some w') :
    (∃ entry outbox, entry.publishedAt = none ∧ entry.leaseToken = none ∧
      w.outbox.insert? entry = some outbox ∧ w' = { w with outbox := outbox }) ∨
    (∃ publisher clock locked runs, l = .lease publisher clock locked ∧ publisher ∉ w.stopping ∧
      w.runs.insert? ⟨publisher,
        ((publishers publisher).lease w.outbox w.draws clock locked).2, .sending⟩ = some runs ∧
      w' = { w with
        outbox := ((publishers publisher).lease w.outbox w.draws clock locked).1
        draws := w.draws + 1
        runs := runs }) ∨
    (∃ run record rest coordinate, l = .acknowledge run.publisher coordinate ∧
      run ∈ w.runs.rows ∧ run.records = record :: rest ∧
      w' = { w.moveTo run (.acknowledged coordinate) with
        acknowledged := w.acknowledged ++ [record.message coordinate] }) ∨
    (∃ run error, l = .raise run.publisher error ∧ run ∈ w.runs.rows ∧
      w' = w.moveTo run (.raised error)) ∨
    (∃ run record rest coordinate now error, l = .published run.publisher now error ∧
      run ∈ w.runs.rows ∧ run.records = record :: rest ∧
      run.progress = .acknowledged coordinate ∧
      w' = { (match error with
        | none => w.advance run
        | some error => w.moveTo run (.raised error)) with
          outbox := Outbox.published w.outbox record coordinate now }) ∨
    (∃ run record rest error drawn now outbox, l = .failed run.publisher drawn now ∧
      run ∈ w.runs.rows ∧ run.records = record :: rest ∧ run.progress = .raised error ∧
      (publishers run.publisher).failed w.outbox record error drawn now = .ok outbox ∧
      w' = { w.advance run with outbox := outbox }) ∨
    (∃ publisher, w' = w.close publisher) ∨
    ∃ publisher, w' = { w with stopping := publisher :: w.stopping } := by
  cases l with
  | insert eventId topic messageKey canonicalPayload createdAt nextAttemptAt =>
      obtain ⟨outbox, hinsert, rfl⟩ := Option.map_eq_some_iff.1 h
      exact Or.inl ⟨_, outbox, rfl, rfl, hinsert, rfl⟩
  | lease publisher clock locked =>
      simp only [World.next] at h
      split at h
      · cases h
      · next hstopping =>
          obtain ⟨runs, hinsert, rfl⟩ := Option.map_eq_some_iff.1 h
          exact Or.inr (Or.inl ⟨publisher, clock, locked, runs, rfl, hstopping, hinsert, rfl⟩)
  | acknowledge publisher coordinate =>
      obtain ⟨run, hfind, hstep⟩ := Option.bind_eq_some_iff.1 h
      obtain rfl := Table.key_of_find? hfind
      split at hstep
      · next record rest hrecords hprogress =>
          cases hstep
          exact Or.inr (Or.inr (Or.inl
            ⟨run, record, rest, coordinate, rfl, Table.mem_of_find? hfind, hrecords, rfl⟩))
      · cases hstep
  | raise publisher error =>
      obtain ⟨run, hfind, hstep⟩ := Option.bind_eq_some_iff.1 h
      obtain rfl := Table.key_of_find? hfind
      have hraise : w' = w.moveTo run (.raised error) := by
        split at hstep
        · exact (Option.some_inj.1 hstep).symm
        · exact (Option.some_inj.1 hstep).symm
        · cases hstep
      exact Or.inr (Or.inr (Or.inr (Or.inl
        ⟨run, error, rfl, Table.mem_of_find? hfind, hraise⟩)))
  | published publisher now error =>
      obtain ⟨run, hfind, hstep⟩ := Option.bind_eq_some_iff.1 h
      obtain rfl := Table.key_of_find? hfind
      split at hstep
      · next record rest coordinate hrecords hprogress =>
          refine Or.inr (Or.inr (Or.inr (Or.inr (Or.inl ⟨run, record, rest, coordinate, now, error,
            rfl, Table.mem_of_find? hfind, hrecords, hprogress, ?_⟩))))
          cases error with
          | none => exact (Option.some_inj.1 hstep).symm
          | some error => exact (Option.some_inj.1 hstep).symm
      · cases hstep
  | failed publisher drawn now =>
      obtain ⟨run, hfind, hstep⟩ := Option.bind_eq_some_iff.1 h
      obtain rfl := Table.key_of_find? hfind
      split at hstep
      · next record rest error hrecords hprogress =>
          obtain ⟨outbox, hfailed, rfl⟩ := Option.map_eq_some_iff.1 hstep
          exact Or.inr (Or.inr (Or.inr (Or.inr (Or.inr (Or.inl ⟨run, record, rest, error, drawn,
            now, outbox, rfl, Table.mem_of_find? hfind, hrecords, hprogress,
            Except.toOption_eq_some_iff.1 hfailed, rfl⟩)))))
      · cases hstep
  | finish publisher =>
      obtain ⟨run, hfind, hstep⟩ := Option.bind_eq_some_iff.1 h
      split at hstep
      · cases hstep
        exact Or.inr (Or.inr (Or.inr (Or.inr (Or.inr (Or.inr (Or.inl ⟨publisher, rfl⟩))))))
      · cases hstep
  | crash publisher =>
      obtain ⟨run, -, rfl⟩ := Option.map_eq_some_iff.1 h
      exact Or.inr (Or.inr (Or.inr (Or.inr (Or.inr (Or.inr (Or.inl ⟨publisher, rfl⟩))))))
  | stop publisher =>
      cases h
      exact Or.inr (Or.inr (Or.inr (Or.inr (Or.inr (Or.inr (Or.inr ⟨publisher, rfl⟩))))))

end Outbox

end ScheduledJobs
