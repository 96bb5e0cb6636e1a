/-
**The sink: from a message of the broker to a row of the journal.**

The connector of `infra/kafka/connect/edr-jdbc-sink.json` reads the object a message carries, adds
the coordinates of the message, renames the fields to columns, and writes what it keeps with an
upsert.  A field that is missing or `null` is a missing value; a field whose value is not of the
kind of its column makes the record one that cannot be written.

Main definitions:

* `Outbox.Message.columns?` — **the record of a message**;
* `Event.columns` — the columns of an event at the coordinates of its message.

Main results:

* `columns?_of_published` — **the record of a published event has the event in its columns**;
* `EdrColumns.row?_record` — it is inserted as they are, if they meet the constraints.
-/

import ScheduledJobs.DurableReader
import ScheduledJobs.EdrJournal
import ScheduledJobs.OutboxPublisher

set_option relaxedAutoImplicit false
set_option autoImplicit false

namespace Json.Scalar

/-- A value that is a text. -/
def text? : Scalar → Option String
  | .str text => some text
  | _ => none

/-- A value that is an integer. -/
def int? : Scalar → Option ℤ
  | .int n => some n
  | _ => none

/-- A value that is the text of an object. -/
def object? (value : Scalar) : Option Object := value.text?.bind loads

theorem object?_str (text : String) : (str text).object? = loads text := by
  rw [object?, text?, Option.bind_some]

end Json.Scalar

namespace ScheduledJobs

open Json

/-! ### Columns -/

/-- A value that is the text of a timestamp. -/
def timestamp? (value : Scalar) : Option Datetime := value.text?.bind fromIso?

theorem timestamp?_iso {t : Datetime} (ht : Datetime.InRange t) :
    timestamp? (.str (iso t)) = some t := by
  rw [timestamp?, Scalar.text?, Option.bind_some, fromIso?_iso ht]

/-- A column: the value of a field, if it has one.  The fields are sent as the texts and numbers
they are (`stringtype=unspecified` in `connection.url`), and the type of the column reads them. -/
def column {α : Type} (convert : Scalar → Option α) (data : Object) (key : String) :
    Option (Option α) :=
  match data.get? key with
  | none | some .null => some none
  | some value => (convert value).map some

theorem column_of_get? {α : Type} {convert : Scalar → Option α} {data : Object} {key : String}
    {value : Scalar} {a : α} (hget : data.get? key = some value) (hvalue : convert value = some a)
    (hnull : convert .null = none) : column convert data key = some (some a) := by
  unfold column
  rw [hget]
  cases value with
  | null =>
      rw [hnull] at hvalue
      cases hvalue
  | _ => simp only [hvalue, Option.map_some]

theorem column_textOrNull {data : Object} {key text : String}
    (hget : data.get? key = some (textOrNull text)) :
    column Scalar.text? data key = some (if text = "" then none else some text) := by
  unfold column
  rw [hget, textOrNull]
  by_cases hempty : text = ""
  · rw [if_pos hempty, if_pos hempty]
  · rw [if_neg hempty, if_neg hempty]
    rfl

/-! ### Records -/

/-- **The record the sink makes of a message**, if it makes one: what it inserts with
`insert.mode` `upsert` under the key of `pk.fields`, `event_id`.  A message without a record goes to
`errors.deadletterqueue.topic.name`, and is passed over. -/
def Outbox.Message.columns? (message : Outbox.Message) : Option (EdrColumns Option Object) := do
  let data ← loads message.value
  -- `transforms.rename.renames` gives each field its column; what is not a column of
  -- `fields.whitelist` is dropped
  let eventId ← column Scalar.text? data "eventId"
  let schemaVersion ← column Scalar.int? data "schemaVersion"
  let eventType ← column Scalar.text? data "eventType"
  let eventTime ← column timestamp? data "eventTime"
  let ingestionTime ← column timestamp? data "ingestionTime"
  let jobId ← column Scalar.text? data "jobId"
  let correlationId ← column Scalar.text? data "correlationId"
  let jobType ← column Scalar.text? data "jobType"
  let attemptNumber ← column Scalar.int? data "attemptNumber"
  let maxAttempts ← column Scalar.int? data "maxAttempts"
  let canonicalPayload ← column Scalar.object? data "canonicalPayload"
  let payloadHash ← column Scalar.text? data "payloadHash"
  return {
    eventId, schemaVersion, eventType, eventTime, ingestionTime, jobId, correlationId, jobType,
    attemptNumber, maxAttempts, canonicalPayload, payloadHash
    -- `transforms.coordinates.topic.field`, `.partition.field` and `.offset.field`
    kafkaTopic := some message.topic
    kafkaPartition := some (message.coordinate.partition : ℤ)
    kafkaOffset := some (message.coordinate.offset : ℤ) }

/-- The object that is read back from the canonical payload of an event. -/
def Event.payloadObject (event : Event) : Object :=
  ofMembers (sortedMembers (ofMembers event.wireMembers))

theorem loads_canonicalPayload (event : Event) :
    loads event.canonicalPayload = some event.payloadObject := loads_dumps_eq _

/-- **The columns of an event**, at the coordinates of a message. -/
def Event.columns (event : Event) (topic : String) (coordinate : Outbox.BrokerCoordinate) :
    EdrColumns Known Object where
  eventId := event.eventId
  schemaVersion := (1 : ℤ)
  eventType := event.eventType.value
  eventTime := event.eventTime
  ingestionTime := event.ingestionTime
  jobId := event.jobId
  correlationId := if event.correlationId = "" then none else some event.correlationId
  jobType := if event.jobType = "" then none else some event.jobType
  attemptNumber := (event.attemptNumber : ℤ)
  maxAttempts := (event.maxAttempts : ℤ)
  canonicalPayload := event.payloadObject
  payloadHash := digest event.canonicalPayload
  kafkaTopic := topic
  kafkaPartition := (coordinate.partition : ℤ)
  kafkaOffset := (coordinate.offset : ℤ)

theorem Event.canonicalPayload_columns (event : Event) (topic : String)
    (coordinate : Outbox.BrokerCoordinate) :
    (event.columns topic coordinate).canonicalPayload = event.payloadObject := by
  rw [Event.columns]

/-- The row as a record without missing values. -/
def EdrColumns.record {Payload : Type} (row : EdrColumns Known Payload) :
    EdrColumns Option Payload where
  eventId := some row.eventId
  schemaVersion := some row.schemaVersion
  eventType := some row.eventType
  eventTime := some row.eventTime
  ingestionTime := some row.ingestionTime
  jobId := some row.jobId
  correlationId := row.correlationId
  jobType := row.jobType
  attemptNumber := some row.attemptNumber
  maxAttempts := some row.maxAttempts
  canonicalPayload := some row.canonicalPayload
  payloadHash := some row.payloadHash
  kafkaTopic := some row.kafkaTopic
  kafkaPartition := some row.kafkaPartition
  kafkaOffset := some row.kafkaOffset

@[simp] theorem EdrColumns.known?_record {Payload : Type} (row : EdrColumns Known Payload) :
    row.record.known? = some row := rfl

theorem bind_of_eq_some {α β : Type} {x : Option α} {a : α} (h : x = some a) (f : α → Option β) :
    (x >>= f) = f a := by
  rw [h, Option.bind_eq_bind, Option.bind_some]

/-- The record of a row is inserted as that row, if it meets the constraints. -/
theorem EdrColumns.row?_record {Payload : Type} {row : EdrColumns Known Payload}
    (hchecked : row.Checked) (clock : Datetime) :
    row.record.row? clock = .ok { row with persistedAt := clock, checked := hchecked } := by
  rw [EdrColumns.row?, EdrColumns.known?_record]
  exact dif_pos hchecked

/-- The object of a published event, as it is read back, carries the event. -/
theorem get?_published {event : Event} {data : Object}
    (hload : loads (dumps event.wireObject) = some data) :
    WireData.Carries data.get? event ∧
      data.get? "canonicalPayload" = some (.str event.canonicalPayload) ∧
      data.get? "payloadHash" = some (.str (digest event.canonicalPayload)) := by
  obtain ⟨data', hload', hget⟩ := loads_dumps event.wireObject
  obtain rfl := Option.some.inj (hload.symm.trans hload')
  simp only [WireData.Carries, hget]
  refine ⟨fun m hm => ?_, get?_wireObject_canonicalPayload event, ?_⟩
  · have hkeys : m.1 ≠ "canonicalPayload" ∧ m.1 ≠ "payloadHash" := by
      revert m
      simp [Event.wireMembers]
    rw [Event.wireObject, Dict.get?_set_ne _ hkeys.2, Dict.get?_set_ne _ hkeys.1]
    exact ofMembers_carries event m hm
  · rw [Event.wireObject, Dict.get?_set_self]

/-- **The record of a published event has the event in its columns.** -/
theorem columns?_of_published {event : Event} (henc : event.Encodable) {message : Outbox.Message}
    (hvalue : message.value = dumps event.wireObject) :
    message.columns? = some (event.columns message.topic message.coordinate).record := by
  obtain ⟨data, hload, -⟩ := loads_dumps event.wireObject
  obtain ⟨hcarries, hpayload, hhash⟩ := get?_published hload
  simp only [WireData.Carries, Event.wireMembers, List.forall_mem_cons] at hcarries
  obtain ⟨hschema, hid, htype, htime, hingestion, hjob, hcorrelation, hjobType, hattempt, hmax,
    -⟩ := hcarries
  have htext : ∀ {key text : String}, data.get? key = some (.str text) →
      column Scalar.text? data key = some (some text) := fun h => column_of_get? h rfl rfl
  have hint : ∀ {key : String} {n : ℤ}, data.get? key = some (.int n) →
      column Scalar.int? data key = some (some n) := fun h => column_of_get? h rfl rfl
  have htimestamp : ∀ {key : String} {t : Datetime}, data.get? key = some (.str (iso t)) →
      Datetime.InRange t → column timestamp? data key = some (some t) := fun h ht =>
    column_of_get? h (timestamp?_iso ht) rfl
  have hobject : column Scalar.object? data "canonicalPayload" = some (some event.payloadObject) :=
    column_of_get? hpayload ((Scalar.object?_str _).trans (loads_canonicalPayload event)) rfl
  -- the fields are read in the order of the record
  rw [Outbox.Message.columns?, hvalue, bind_of_eq_some hload, bind_of_eq_some (htext hid),
    bind_of_eq_some (hint hschema), bind_of_eq_some (htext htype),
    bind_of_eq_some (htimestamp htime henc.eventTime),
    bind_of_eq_some (htimestamp hingestion henc.ingestionTime), bind_of_eq_some (htext hjob),
    bind_of_eq_some (column_textOrNull hcorrelation),
    bind_of_eq_some (column_textOrNull hjobType), bind_of_eq_some (hint hattempt),
    bind_of_eq_some (hint hmax), bind_of_eq_some hobject, bind_of_eq_some (htext hhash)]
  exact congrArg some (by simp only [Event.columns, EdrColumns.record])

end ScheduledJobs
