/-
**The journal of events, and what redelivery does to it.**

The sink writes every record it consumes with an upsert on `event_id`, so a record that is delivered
again becomes an update of the row that is there.  A trigger stands before every update and every
delete of `edr_events`: it puts the old row in place of the new one when the id, the hash and the
payload agree, and raises otherwise.  So the journal is written once: a row that is stored stays as
it is in every column, also in those the trigger does not compare.

Columns that are declared `NOT NULL` may be missing from what a statement proposes, and a missing
value is not equal to anything; payloads are compared by the equality of `jsonb`, which is a
parameter.

Main definitions:

* `EdrColumns`, `EdrEvent`, `Journal` — the rows of `edr_events`, and the table with its
  constraints;
* `preserveEdrEvent` — the trigger;
* `JournalStatement`, `Journal.execute`, `Journal.performAll` — the statements, and sequences of
  them;
* `storeFirst`, `firstStored` — **the journal as it is meant: every event is stored once**;
* `JournalImmutable` — what is promised of a sequence of statements.

Main results:

* `Journal.execute_cases` — **a statement appends a new row, or leaves the journal as it is**;
* `Journal.rows_performAll` — **the table refines the journal that stores every event once**;
* `journalImmutable` — **rows never change, and redelivery makes no difference**.
-/

import ScheduledJobs.EdrStore

set_option relaxedAutoImplicit false
set_option autoImplicit false

namespace ScheduledJobs

/-! ### Rows -/

/-- The type of a column that cannot be missing. -/
abbrev Known (α : Type) : Type := α

/-- The columns of `edr_events` that the sink writes; `F` is `Option` where a value may be
missing. -/
structure EdrColumns (F : Type → Type) (Payload : Type) where
  eventId : F String
  schemaVersion : F ℤ
  eventType : F String
  eventTime : F Datetime
  ingestionTime : F Datetime
  jobId : F String
  correlationId : Option String
  jobType : Option String
  attemptNumber : F ℤ
  maxAttempts : F ℤ
  canonicalPayload : F Payload
  payloadHash : F String
  kafkaTopic : F String
  kafkaPartition : F ℤ
  kafkaOffset : F ℤ

/-- The character class `[0-9a-f]`. -/
def isHexDigit (c : Char) : Bool := '0' ≤ c && c ≤ '9' || 'a' ≤ c && c ≤ 'f'

/-- The `CHECK` constraints, and the ranges of the integer columns. -/
structure EdrColumns.Checked {Payload : Type} (row : EdrColumns Known Payload) : Prop where
  schemaVersion : 0 < row.schemaVersion ∧ row.schemaVersion ≤ maxInteger
  attemptNumber : 0 ≤ row.attemptNumber ∧ row.attemptNumber ≤ maxInteger
  maxAttempts : 0 < row.maxAttempts ∧ row.maxAttempts ≤ maxInteger
  payloadHash : row.payloadHash.toList.length = 64 ∧ row.payloadHash.toList.all isHexDigit = true
  kafkaPartition : -(maxInteger + 1 : ℤ) ≤ row.kafkaPartition ∧ row.kafkaPartition ≤ maxInteger
  kafkaOffset : -(2 ^ 63 : ℤ) ≤ row.kafkaOffset ∧ row.kafkaOffset < 2 ^ 63

instance {Payload : Type} (row : EdrColumns Known Payload) : Decidable row.Checked :=
  decidable_of_iff
    ((0 < row.schemaVersion ∧ row.schemaVersion ≤ maxInteger) ∧
      (0 ≤ row.attemptNumber ∧ row.attemptNumber ≤ maxInteger) ∧
      (0 < row.maxAttempts ∧ row.maxAttempts ≤ maxInteger) ∧
      (row.payloadHash.toList.length = 64 ∧ row.payloadHash.toList.all isHexDigit = true) ∧
      (-(maxInteger + 1 : ℤ) ≤ row.kafkaPartition ∧ row.kafkaPartition ≤ maxInteger) ∧
      (-(2 ^ 63 : ℤ) ≤ row.kafkaOffset ∧ row.kafkaOffset < 2 ^ 63))
    ⟨fun h => ⟨h.1, h.2.1, h.2.2.1, h.2.2.2.1, h.2.2.2.2.1, h.2.2.2.2.2⟩,
      fun h => ⟨h.1, h.2, h.3, h.4, h.5, h.6⟩⟩

/-- A row of `edr_events`. -/
structure EdrEvent (Payload : Type) extends EdrColumns Known Payload where
  persistedAt : Datetime
  checked : toEdrColumns.Checked

/-- What an update would make of a row. -/
structure NewRow (Payload : Type) extends EdrColumns Option Payload where
  persistedAt : Option Datetime

/-- What a statement fails with. -/
inductive JournalError
  | notNullViolation
  | checkViolation
  | uniqueViolation
  /-- `edr_events are immutable (event_id=%)`. -/
  | immutable (eventId : String)
  deriving DecidableEq, Repr

section Rows

variable {Payload : Type}

/-- The record with a value in every column, if none is missing that must not be. -/
def EdrColumns.known? (record : EdrColumns Option Payload) : Option (EdrColumns Known Payload) := do
  let eventId ← record.eventId
  let schemaVersion ← record.schemaVersion
  let eventType ← record.eventType
  let eventTime ← record.eventTime
  let ingestionTime ← record.ingestionTime
  let jobId ← record.jobId
  let attemptNumber ← record.attemptNumber
  let maxAttempts ← record.maxAttempts
  let canonicalPayload ← record.canonicalPayload
  let payloadHash ← record.payloadHash
  let kafkaTopic ← record.kafkaTopic
  let kafkaPartition ← record.kafkaPartition
  let kafkaOffset ← record.kafkaOffset
  return {
    eventId, schemaVersion, eventType, eventTime, ingestionTime, jobId, attemptNumber, maxAttempts,
    canonicalPayload, payloadHash, kafkaTopic, kafkaPartition, kafkaOffset
    correlationId := record.correlationId
    jobType := record.jobType }

/-- The row a record is inserted as: `persisted_at` is not among the columns of the sink, and
defaults to the clock. -/
def EdrColumns.row? (record : EdrColumns Option Payload) (clock : Datetime) :
    Except JournalError (EdrEvent Payload) :=
  match record.known? with
  | none => .error .notNullViolation
  | some row =>
      if h : row.Checked then .ok { row with persistedAt := clock, checked := h }
      else .error .checkViolation

namespace EdrEvent

/-- `PRIMARY KEY (event_id)`. -/
def key (row : EdrEvent Payload) : String := row.eventId

/-- `UNIQUE (kafka_topic, kafka_partition, kafka_offset)`. -/
def coordinate (row : EdrEvent Payload) : String × ℤ × ℤ :=
  (row.kafkaTopic, row.kafkaPartition, row.kafkaOffset)

/-- `EXCLUDED`, over a row that is there: every column the sink writes is set but the key. -/
def excluded (row old : EdrEvent Payload) : NewRow Payload where
  eventId := some old.eventId
  schemaVersion := some row.schemaVersion
  eventType := some row.eventType
  eventTime := some row.eventTime
  ingestionTime := some row.ingestionTime
  jobId := some row.jobId
  correlationId := row.correlationId
  jobType := row.jobType
  attemptNumber := some row.attemptNumber
  maxAttempts := some row.maxAttempts
  canonicalPayload := some row.canonicalPayload
  payloadHash := some row.payloadHash
  kafkaTopic := some row.kafkaTopic
  kafkaPartition := some row.kafkaPartition
  kafkaOffset := some row.kafkaOffset
  persistedAt := some old.persistedAt

/-- The columns of a row that the projector reads. -/
def toEdrRow (row : EdrEvent Payload) : EdrRow Payload where
  eventId := row.eventId
  jobId := row.jobId
  persistedAt := row.persistedAt
  canonicalPayload := row.canonicalPayload

end EdrEvent

end Rows

/-! ### The trigger -/

/-- `=` in a condition: a missing value is not equal to anything. -/
def sqlEq {α : Type} [BEq α] (new : Option α) (old : α) : Bool := new.any (· == old)

/-- The operation a trigger fires for. -/
inductive TgOp (Payload : Type)
  | update (new : NewRow Payload)
  | delete

/-- The trigger function `preserve_edr_event`. -/
def preserveEdrEvent {Payload : Type} [BEq Payload] (tgOp : TgOp Payload) (old : EdrEvent Payload) :
    Except JournalError (EdrEvent Payload) :=
  match tgOp with
  | .update new =>
      if sqlEq new.eventId old.eventId && sqlEq new.payloadHash old.payloadHash &&
          sqlEq new.canonicalPayload old.canonicalPayload then .ok old
      else .error (.immutable old.eventId)
  | .delete => .error (.immutable old.eventId)

/-! ### The table -/

/-- `edr_events`: rows with distinct ids, and with distinct coordinates. -/
structure Journal (Payload : Type) where
  table : Table (@EdrEvent.key Payload)
  coordinates : (table.rows.map EdrEvent.coordinate).Nodup

/-- The statements on `edr_events`.  A sink record is inserted on conflict with its `event_id` as an
update; an update sets any columns of the rows it selects. -/
inductive JournalStatement (Payload : Type)
  | upsert (record : EdrColumns Option Payload) (clock : Datetime)
  | update (set : EdrEvent Payload → NewRow Payload) (selects : EdrEvent Payload → Bool)
  | delete (selects : EdrEvent Payload → Bool)

namespace Journal

variable {Payload : Type}

def empty : Journal Payload := ⟨.empty, List.nodup_nil⟩

/-- The table of the rows, if the unique constraints allow it. -/
def ofRows (rows : List (EdrEvent Payload)) : Except JournalError (Journal Payload) :=
  if h : (rows.map EdrEvent.key).Nodup ∧ (rows.map EdrEvent.coordinate).Nodup then
    .ok ⟨⟨rows, h.1⟩, h.2⟩
  else .error .uniqueViolation

variable [BEq Payload]

/-- An update of the rows that are selected: the trigger says what becomes of each. -/
def updateWhere (journal : Journal Payload) (set : EdrEvent Payload → NewRow Payload)
    (selects : EdrEvent Payload → Bool) : Except JournalError (Journal Payload) := do
  let rows ← journal.table.rows.mapM fun old =>
    if selects old then preserveEdrEvent (.update (set old)) old else .ok old
  ofRows rows

/-- A delete of the rows that are selected, if the trigger lets each of them go. -/
def deleteWhere (journal : Journal Payload) (selects : EdrEvent Payload → Bool) :
    Except JournalError (Journal Payload) := do
  let _ ← journal.table.rows.mapM fun old =>
    if selects old then preserveEdrEvent .delete old else .ok old
  ofRows (journal.table.rows.filter fun old => !selects old)

/-- **What a statement does.** -/
def execute (journal : Journal Payload) :
    JournalStatement Payload → Except JournalError (Journal Payload)
  | .upsert record clock => do
      let row ← record.row? clock
      if (journal.table.find? row.key).isSome then
        journal.updateWhere row.excluded fun old => old.key = row.key
      else ofRows (journal.table.rows ++ [row])
  | .update set selects => journal.updateWhere set selects
  | .delete selects => journal.deleteWhere selects

/-- A statement that fails has no effect. -/
def step (journal : Journal Payload) (statement : JournalStatement Payload) : Journal Payload :=
  (journal.execute statement).toOption.getD journal

/-- Statements one after the other, each on its own. -/
def performAll (journal : Journal Payload) (statements : List (JournalStatement Payload)) :
    Journal Payload :=
  statements.foldl step journal

/-- The database the projector reads. -/
def edrDb (journal : Journal Payload) : EdrDb Payload where
  edrEvents :=
    { rows := journal.table.rows.map EdrEvent.toEdrRow
      nodup := by
        rw [List.map_map]
        exact journal.table.nodup }

end Journal

/-! ### The journal as it is meant -/

section Meant

variable {Payload : Type}

/-- **A record is stored under an id that is not stored yet**, unless its coordinates are taken, and
nothing else changes what is stored. -/
def storeFirst (stored : List (EdrEvent Payload)) :
    JournalStatement Payload → List (EdrEvent Payload)
  | .upsert record clock =>
      match record.row? clock with
      | .ok row =>
          if row.key ∈ stored.map EdrEvent.key ∨
              row.coordinate ∈ stored.map EdrEvent.coordinate then stored
          else stored ++ [row]
      | .error _ => stored
  | .update _ _ => stored
  | .delete _ => stored

/-- The rows that were stored first. -/
def firstStored (stored : List (EdrEvent Payload)) (statements : List (JournalStatement Payload)) :
    List (EdrEvent Payload) :=
  statements.foldl storeFirst stored

/-- The payloads of a job by `persisted_at, event_id`. -/
def payloadsOf (jobId : String) (rows : List (EdrEvent Payload)) : List Payload :=
  (((rows.map EdrEvent.toEdrRow).insertionSort EdrRow.Before).filter
    fun row => row.jobId = jobId).map EdrRow.canonicalPayload

/-- The statement is about no new event: a record whose id is stored, an update or a delete. -/
def JournalStatement.Redelivers (journal : Journal Payload) : JournalStatement Payload → Prop
  | .upsert record _ => ∃ eventId ∈ record.eventId, (journal.table.find? eventId).isSome
  | .update _ _ => True
  | .delete _ => True

variable [BEq Payload]

/-- The hash and the payload of a row are those of another. -/
def EdrEvent.SameAs (row old : EdrEvent Payload) : Bool :=
  row.payloadHash == old.payloadHash && row.canonicalPayload == old.canonicalPayload

/-- **What is promised of a sequence of statements.** -/
structure JournalImmutable (journal : Journal Payload)
    (statements : List (JournalStatement Payload)) : Prop where
  /-- A row that is stored stays as it is, in every column. -/
  kept : ∀ before, before <+: statements →
    (journal.performAll before).table.rows <+: (journal.performAll statements).table.rows
  /-- A record whose id is stored is accepted without effect, or refused. -/
  repeated : ∀ before record clock, before ++ [.upsert record clock] <+: statements →
    ∀ row old, record.row? clock = .ok row →
      (journal.performAll before).table.find? row.key = some old →
      (journal.performAll before).execute (.upsert record clock) =
        if row.SameAs old then .ok (journal.performAll before) else .error (.immutable row.eventId)
  /-- The payloads of a job are those that were stored first. -/
  payloads : ∀ jobId, ((journal.performAll statements).edrDb.rowsOf jobId).map
      EdrRow.canonicalPayload = payloadsOf jobId (firstStored journal.table.rows statements)
  /-- Statements about no new event make no difference, wherever they stand. -/
  independent : ∀ before statement more, before ++ statement :: more = statements →
    statement.Redelivers (journal.performAll before) →
    journal.performAll (before ++ more) = journal.performAll statements

end Meant

/-! ### What a statement does -/

/-- A record is inserted under its own id. -/
theorem key_of_row? {Payload : Type} {record : EdrColumns Option Payload} {clock : Datetime}
    {row : EdrEvent Payload} (h : record.row? clock = .ok row) : record.eventId = some row.key := by
  unfold EdrColumns.row? at h
  split at h
  · cases h
  · next known hknown =>
      split at h
      · obtain rfl := Except.ok.inj h
        -- the id is the first of the thirteen columns that are read
        obtain ⟨eventId, hid, hrest⟩ := Option.bind_eq_some_iff.1 hknown
        iterate 12 obtain ⟨_, -, hrest⟩ := Option.bind_eq_some_iff.1 hrest
        obtain rfl := Option.some_inj.1 hrest
        exact hid
      · cases h

section Trigger

variable {Payload : Type} [BEq Payload]

/-- **What the trigger returns is the old row.** -/
theorem eq_of_preserveEdrEvent {tgOp : TgOp Payload} {old kept : EdrEvent Payload}
    (h : preserveEdrEvent tgOp old = .ok kept) : kept = old := by
  cases tgOp with
  | update new =>
      simp only [preserveEdrEvent] at h
      split at h
      · exact (Except.ok.inj h).symm
      · cases h
  | delete => cases h

/-- What the trigger makes of a record whose id is stored. -/
theorem preserveEdrEvent_excluded (row old : EdrEvent Payload) :
    preserveEdrEvent (.update (row.excluded old)) old =
      if row.SameAs old then .ok old else .error (.immutable old.eventId) := by
  simp [preserveEdrEvent, sqlEq, EdrEvent.excluded, EdrEvent.SameAs]

end Trigger

namespace Journal

variable {Payload : Type} {journal later : Journal Payload}

@[simp] theorem ofRows_rows (journal : Journal Payload) :
    ofRows journal.table.rows = .ok journal :=
  dif_pos ⟨journal.table.nodup, journal.coordinates⟩

theorem rows_of_ofRows {rows : List (EdrEvent Payload)} (h : ofRows rows = .ok later) :
    later.table.rows = rows := by
  unfold ofRows at h
  split at h
  · obtain rfl := Except.ok.inj h
    rfl
  · cases h

/-- One more row is accepted when its id and its coordinates are new. -/
theorem ofRows_concat (journal : Journal Payload) (row : EdrEvent Payload) :
    (∃ later, ofRows (journal.table.rows ++ [row]) = .ok later) ↔
      row.key ∉ journal.table.rows.map EdrEvent.key ∧
        row.coordinate ∉ journal.table.rows.map EdrEvent.coordinate := by
  have hconcat : ∀ {κ : Type} (key : EdrEvent Payload → κ), (journal.table.rows.map key).Nodup →
      (((journal.table.rows ++ [row]).map key).Nodup ↔
        key row ∉ journal.table.rows.map key) := by
    intro κ key hnodup
    rw [List.map_append, List.map_singleton, List.nodup_append_comm, List.singleton_append,
      List.nodup_cons, and_iff_left hnodup]
  rw [← hconcat _ journal.table.nodup, ← hconcat _ journal.coordinates]
  unfold ofRows
  split
  · next h => exact iff_of_true ⟨_, rfl⟩ h
  · next h => exact iff_of_false (by simp) h

variable [BEq Payload]

/-- An update leaves the journal as it is. -/
theorem eq_of_updateWhere {set : EdrEvent Payload → NewRow Payload}
    {selects : EdrEvent Payload → Bool} (h : journal.updateWhere set selects = .ok later) :
    later = journal := by
  obtain ⟨rows, hrows, hlater⟩ := Except.bind_eq_ok_iff.1 h
  have hsame : rows = journal.table.rows := by
    refine Except.mapM_eq_self (fun old _ kept hkept => ?_) hrows
    split at hkept
    · exact eq_of_preserveEdrEvent hkept
    · exact (Except.ok.inj hkept).symm
  rw [hsame, ofRows_rows] at hlater
  exact (Except.ok.inj hlater).symm

/-- A delete that is accepted selects nothing. -/
theorem eq_of_deleteWhere {selects : EdrEvent Payload → Bool}
    (h : journal.deleteWhere selects = .ok later) : later = journal := by
  obtain ⟨rows, hrows, hlater⟩ := Except.bind_eq_ok_iff.1 h
  have hnone : ∀ old ∈ journal.table.rows, selects old = false := by
    intro old hmem
    obtain ⟨kept, hkept⟩ := Except.exists_of_mapM_eq_ok hrows old hmem
    cases hselects : selects old with
    | false => rfl
    | true =>
        rw [hselects, if_pos rfl] at hkept
        cases hkept
  rw [List.filter_eq_self.2 (fun old hmem => by simp [hnone old hmem]), ofRows_rows] at hlater
  exact (Except.ok.inj hlater).symm

/-- **A statement appends a new row, or leaves the journal as it is.** -/
theorem execute_cases {statement : JournalStatement Payload}
    (h : journal.execute statement = .ok later) :
    later = journal ∨ ∃ record clock row, statement = .upsert record clock ∧
      record.row? clock = .ok row ∧ journal.table.find? row.key = none ∧
      later.table.rows = journal.table.rows ++ [row] := by
  cases statement with
  | upsert record clock =>
      obtain ⟨row, hrow, hwrite⟩ := Except.bind_eq_ok_iff.1 h
      split at hwrite
      · exact Or.inl (eq_of_updateWhere hwrite)
      · next hfresh =>
          refine Or.inr ⟨record, clock, row, rfl, hrow, ?_, rows_of_ofRows hwrite⟩
          simpa using hfresh
  | update set selects => exact Or.inl (eq_of_updateWhere h)
  | delete selects => exact Or.inl (eq_of_deleteWhere h)

/-- **A record whose id is stored** is accepted when it says the same, and refused otherwise. -/
theorem execute_upsert_of_find? {record : EdrColumns Option Payload} {clock : Datetime}
    {row old : EdrEvent Payload} (hrow : record.row? clock = .ok row)
    (hold : journal.table.find? row.key = some old) :
    journal.execute (.upsert record clock) =
      if row.SameAs old then .ok journal else .error (.immutable row.eventId) := by
  have hmem : old ∈ journal.table.rows := Table.mem_of_find? hold
  have hkey : old.key = row.key := Table.key_of_find? hold
  -- the trigger fires for the one row with this id
  have hfires : ∀ a ∈ journal.table.rows,
      (if decide (a.key = row.key) = true then
        preserveEdrEvent (.update (row.excluded a)) a else .ok a) =
      if a.key = row.key ∧ row.SameAs old = false then .error (.immutable row.eventId)
      else .ok a := by
    intro a ha
    by_cases hid : a.key = row.key
    · obtain rfl : a = old := Table.eq_of_key_eq ha hmem (hid.trans hkey.symm)
      rw [if_pos (decide_eq_true hid), preserveEdrEvent_excluded,
        show a.eventId = row.eventId from hid]
      cases row.SameAs a <;> simp [hid]
    · simp [hid]
  have hexists : (∃ a ∈ journal.table.rows, a.key = row.key ∧ row.SameAs old = false) ↔
      row.SameAs old = false := by
    constructor
    · rintro ⟨-, -, -, h⟩
      exact h
    · intro h
      exact ⟨old, hmem, hkey, h⟩
  simp only [execute, hrow, Except.ok_bind, hold, Option.isSome_some, if_true, updateWhere]
  rw [Except.mapM_eq_ite hfires]
  simp only [hexists]
  cases row.SameAs old
  · rfl
  · exact ofRows_rows journal

/-- A statement that does not append leaves the journal as it is. -/
theorem step_eq_self {statement : JournalStatement Payload}
    (h : ∀ later, journal.execute statement = .ok later → later = journal) :
    journal.step statement = journal := by
  unfold step
  cases hexecute : journal.execute statement with
  | ok later => exact h later hexecute
  | error e => rfl

/-- **A statement stores what is to be stored first.** -/
theorem rows_step (journal : Journal Payload) (statement : JournalStatement Payload) :
    (journal.step statement).table.rows = storeFirst journal.table.rows statement := by
  cases statement with
  | update set selects =>
      have hsame : journal.step (.update set selects) = journal :=
        step_eq_self fun later => eq_of_updateWhere
      rw [hsame]
      rfl
  | delete selects =>
      have hsame : journal.step (.delete selects) = journal :=
        step_eq_self fun later => eq_of_deleteWhere
      rw [hsame]
      rfl
  | upsert record clock =>
      simp only [storeFirst]
      cases hrow : record.row? clock with
      | error e =>
          have hfails : journal.execute (.upsert record clock) = .error e := by
            simp only [execute, hrow]
            rfl
          rw [step_eq_self fun later hlater => by rw [hfails] at hlater; cases hlater]
      | ok row =>
          have hids : (journal.table.find? row.key).isSome ↔
              row.key ∈ journal.table.rows.map EdrEvent.key := by
            rw [Option.isSome_iff_ne_none, ne_eq, Table.find?_eq_none_iff, List.mem_map]
            simp only [not_forall, not_not, exists_prop]
          by_cases hfresh : row.key ∉ journal.table.rows.map EdrEvent.key ∧
              row.coordinate ∉ journal.table.rows.map EdrEvent.coordinate
          · obtain ⟨later, hlater⟩ := (ofRows_concat journal row).2 hfresh
            have hexecute : journal.execute (.upsert record clock) = .ok later := by
              simp only [execute, hrow, Except.ok_bind, hids, if_neg hfresh.1, hlater]
            simp only [if_neg (not_or.2 hfresh), step, hexecute]
            exact rows_of_ofRows hlater
          · simp only [if_pos (or_iff_not_and_not.2 hfresh)]
            refine congrArg (fun journal : Journal Payload => journal.table.rows)
              (step_eq_self fun later hlater => ?_)
            rcases execute_cases hlater with hsame | ⟨_, _, row', heq, hrow', hnone, hrows⟩
            · exact hsame
            · cases heq
              obtain rfl := Except.ok.inj (hrow.symm.trans hrow')
              have hrows' : ofRows (journal.table.rows ++ [row]) = .ok later := by
                rw [← hrows, ofRows_rows]
              exact absurd ((ofRows_concat journal row).1 ⟨later, hrows'⟩) hfresh

/-- A statement about no new event leaves the journal as it is. -/
theorem step_of_redelivers {statement : JournalStatement Payload}
    (h : statement.Redelivers journal) : journal.step statement = journal := by
  refine step_eq_self fun later hlater => ?_
  rcases execute_cases hlater with hsame | ⟨record, clock, row, rfl, hrow, hnone, -⟩
  · exact hsame
  · obtain ⟨eventId, hid, hstored⟩ := h
    rw [key_of_row? hrow, Option.mem_some_iff] at hid
    rw [← hid, hnone] at hstored
    cases hstored

/-! ### Sequences of statements -/

theorem performAll_append (journal : Journal Payload)
    (before more : List (JournalStatement Payload)) :
    journal.performAll (before ++ more) = (journal.performAll before).performAll more :=
  List.foldl_append

/-- **The table refines the journal that stores every event once.** -/
theorem rows_performAll (journal : Journal Payload) (statements : List (JournalStatement Payload)) :
    (journal.performAll statements).table.rows = firstStored journal.table.rows statements := by
  induction statements generalizing journal with
  | nil => rfl
  | cons statement statements ih => exact (ih (journal.step statement)).trans (by
      rw [rows_step]
      rfl)

end Journal

/-- Storing only appends. -/
theorem prefix_storeFirst {Payload : Type} (stored : List (EdrEvent Payload))
    (statement : JournalStatement Payload) : stored <+: storeFirst stored statement := by
  cases statement with
  | update set selects => exact List.prefix_refl _
  | delete selects => exact List.prefix_refl _
  | upsert record clock =>
      simp only [storeFirst]
      split
      · split
        · exact List.prefix_refl _
        · exact List.prefix_append ..
      · exact List.prefix_refl _

theorem prefix_firstStored {Payload : Type} (stored : List (EdrEvent Payload))
    (statements : List (JournalStatement Payload)) : stored <+: firstStored stored statements := by
  induction statements generalizing stored with
  | nil => exact List.prefix_refl _
  | cons statement statements ih =>
      exact (prefix_storeFirst stored statement).trans (ih (storeFirst stored statement))

/-- **Rows never change, and redelivery makes no difference.** -/
theorem journalImmutable {Payload : Type} [BEq Payload] (journal : Journal Payload)
    (statements : List (JournalStatement Payload)) : JournalImmutable journal statements where
  kept := by
    rintro before ⟨more, rfl⟩
    rw [Journal.performAll_append, Journal.rows_performAll _ more]
    exact prefix_firstStored _ more
  repeated := fun before record clock _ row old hrow hold =>
    Journal.execute_upsert_of_find? hrow hold
  payloads := by
    intro jobId
    rw [← Journal.rows_performAll]
    rfl
  independent := by
    rintro before statement more rfl hredelivers
    rw [Journal.performAll_append, Journal.performAll_append]
    exact congrArg (Journal.performAll · more) (Journal.step_of_redelivers hredelivers).symm

end ScheduledJobs
