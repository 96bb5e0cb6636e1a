/-
**The schema of the records, and what the serializer makes of them.**

A producer with a schema registry reads each value back and checks it against the schema that is
registered for its subject; a value that does not conform is not sent, and the publisher records a
failure and tries again, for ever.  The registered schema asks for more than the columns of the
journal do: the texts of the ids must not be empty.

Main definitions:

* `jobLifecycleEdrV1` — **the schema**;
* `encodeValue` — what a producer hands to the client of the broker.

Main results:

* `accepts_published_iff` — **which events conform**;
* `Pipeline.encodes_outbox` — **every row of the outbox is sent, and as the event it is**.
-/

import ScheduledJobs.JsonSchema
import ScheduledJobs.PipelineRows

set_option relaxedAutoImplicit false
set_option autoImplicit false

namespace ScheduledJobs

open Json PropertySchema

/-- `infra/kafka/schemas/job-lifecycle-edr-v1.json`. -/
def jobLifecycleEdrV1 : ObjectSchema where
  required := ["schemaVersion", "eventId", "eventType", "eventTime", "ingestionTime", "jobId",
    "attemptNumber", "maxAttempts", "canonicalPayload", "payloadHash"]
  properties :=
    [("schemaVersion", { types := [.integer], const? := some (.int 1) }),
      ("eventId", { types := [.string], minLength := 1 }),
      ("eventType", { types := [.string], minLength := 1 }),
      ("eventTime", { types := [.string] }),
      ("ingestionTime", { types := [.string] }),
      ("jobId", { types := [.string], minLength := 1 }),
      ("correlationId", { types := [.string, .null] }),
      ("jobType", { types := [.string, .null] }),
      ("attemptNumber", { types := [.integer], minimum? := some 0 }),
      ("maxAttempts", { types := [.integer], minimum? := some 1 }),
      ("canonicalPayload", { types := [.string] }),
      ("payloadHash", { types := [.string], pattern? := some ⟨[('0', '9'), ('a', 'f')], 64⟩ })]

/-- What is handed to the client of the broker: the bytes of the value, or the object that the
serializer writes. -/
inductive Encoded
  | text (value : String)
  | object (data : Object)

/-- The first half of `ConfluentBrokerProducer.publish`: nothing is sent when the serializer, if
there is one, refuses the value. -/
def encodeValue (registered : Option ObjectSchema) (value : String) : Option Encoded :=
  match registered with
  | none => some (.text value)
  | some schema =>
      (loads value).bind fun data => if schema.Accepts data then some (.object data) else none

/-! ### Which events conform -/

theorem EventType.value_ne_empty (eventType : EventType) : eventType.value ≠ "" := by
  cases eventType <;> decide

/-- A text with a character in it. -/
theorem one_le_length_iff (text : String) : 1 ≤ text.length ↔ text ≠ "" := by
  rw [Nat.one_le_iff_ne_zero, Ne, String.length_eq_zero_iff]

/-- A text that may be missing. -/
theorem accepts_textOrNull (text : String) :
    ∀ value ∈ some (textOrNull text),
      PropertySchema.Accepts { types := [.string, .null] } value := by
  rintro _ ⟨⟩
  unfold textOrNull
  split
  · exact ⟨List.mem_cons_of_mem _ (List.mem_singleton_self _), fun _ hconst => (nomatch hconst),
      trivial⟩
  · exact ⟨List.mem_cons_self .., fun _ hconst => (nomatch hconst), Nat.zero_le _,
      fun _ hpattern => (nomatch hpattern)⟩

/-- A digest is matched by its pattern. -/
theorem matches_digest (text : String) :
    Pattern.Matches ⟨[('0', '9'), ('a', 'f')], 64⟩ (digest text) := by
  obtain ⟨hlength, hchars⟩ := digest_checks text
  refine Or.inl ⟨hlength, fun c hc => ?_⟩
  rcases hchars c hc with hdigit | hletter
  · exact ⟨('0', '9'), List.mem_cons_self .., hdigit⟩
  · exact ⟨('a', 'f'), List.mem_cons_of_mem _ (List.mem_cons_self ..), hletter⟩

/-- **An event conforms to the schema unless one of its ids is empty.** -/
theorem accepts_published_iff {event : Event} {data : Object}
    (hload : loads (dumps event.wireObject) = some data) :
    jobLifecycleEdrV1.Accepts data ↔ event.eventId ≠ "" ∧ event.jobId ≠ "" := by
  obtain ⟨hcarries, hpayload, hhash⟩ := get?_published hload
  simp only [WireData.Carries, Event.wireMembers, List.forall_mem_cons] at hcarries
  obtain ⟨hschema, hid, htype, htime, hingestion, hjob, hcorrelation, hjobType, hattempt, hmax,
    -⟩ := hcarries
  rw [← one_le_length_iff, ← one_le_length_iff]
  simp only [ObjectSchema.Accepts, jobLifecycleEdrV1, List.forall_mem_cons, hschema, hid, htype,
    htime, hingestion, hjob, hcorrelation, hjobType, hattempt, hmax, hpayload, hhash]
  constructor
  · rintro ⟨-, -, haccepts, -, -, -, haccepts', -⟩
    exact ⟨(haccepts _ rfl).2.2.1, (haccepts' _ rfl).2.2.1⟩
  · rintro ⟨hidLength, hjobLength⟩
    have htypeLength : 1 ≤ event.eventType.value.length :=
      (one_le_length_iff _).2 event.eventType.value_ne_empty
    have hpositive : (1 : ℤ) ≤ event.maxAttempts := Int.ofNat_le.2 event.maxAttempts_pos
    refine ⟨⟨rfl, rfl, rfl, rfl, rfl, rfl, rfl, rfl, rfl, rfl, List.forall_mem_nil _⟩,
      accepts_const 1, accepts_str hidLength, accepts_str htypeLength, accepts_str (Nat.zero_le _),
      accepts_str (Nat.zero_le _), accepts_str hjobLength, accepts_textOrNull _,
      accepts_textOrNull _, accepts_int (Int.natCast_nonneg _), accepts_int hpositive,
      accepts_str (Nat.zero_le _), accepts_pattern (matches_digest _), List.forall_mem_nil _⟩

/-! ### Every committed event -/

variable {Payload : Type}

theorem JobStep.jobId_ne_empty {service : SchedulerService} {clock : ClockReads}
    {op : Operation Payload} {v v' : JobView Payload} (hs : JobStep service clock op v v')
    (h : ∀ row, v.row = some row → row.jobId ≠ "") : ∀ row, v'.row = some row → row.jobId ≠ "" := by
  intro row' hrow'
  cases hs with
  | idle => exact h row' hrow'
  | @submitted value =>
      obtain rfl := Option.some_inj.1 hrow'
      exact value.required.1
  | claimed hrow =>
      obtain rfl := Option.some_inj.1 hrow'
      exact (h _ hrow :)
  | started _ hrow =>
      obtain rfl := Option.some_inj.1 hrow'
      exact (h _ hrow :)
  | heartbeat _ hrow =>
      obtain rfl := Option.some_inj.1 hrow'
      exact (h _ hrow :)
  | succeeded _ hrow =>
      obtain rfl := Option.some_inj.1 hrow'
      exact (h _ hrow :)
  | failed _ hrow =>
      obtain rfl := Option.some_inj.1 hrow'
      exact (h _ hrow :)
  | recovered hrow =>
      obtain rfl := Option.some_inj.1 hrow'
      exact (h _ hrow :)

variable [DecidableEq Payload] {service : SchedulerService}

/-- A job has a name. -/
theorem jobId_ne_empty {w : World Payload} (h : (schedulerMachine service).Reachable w)
    (jobId : String) : ∀ row, (w.view jobId).row = some row → row.jobId ≠ "" := by
  induction h with
  | start => exact fun _ hrow => nomatch hrow
  | step _ _ hn ih => exact (view_step hn jobId).jobId_ne_empty ih

/-- So has an event, if the supply of ids gives no empty one. -/
theorem ids_ne_empty {w : World Payload} (h : (schedulerMachine service).Reachable w)
    (huuid : ∀ n, service.uuid n ≠ "") {event : Event}
    (hevent : event ∈ w.db.events) : event.eventId ≠ "" ∧ event.jobId ≠ "" := by
  constructor
  · obtain ⟨row, hrow, rfl⟩ := List.mem_map.1 hevent
    obtain ⟨n, -, hid⟩ := FreshIds.of_reachable h row hrow
    exact fun hempty => huuid n (hid.symm.trans hempty)
  · obtain ⟨row, hrow, -⟩ := exists_row_of_event h hevent
    exact Table.key_of_find? hrow ▸ jobId_ne_empty h event.jobId row hrow

namespace Pipeline

variable {publishers : ℕ → OutboxPublisher} {w : World Payload}

/-- **The serializer refuses no row of the outbox**, in whatever state the pipeline is, and what it
writes is read as the event that was committed. -/
theorem encodes_outbox (h : (machine service publishers).Reachable w)
    (huuid : ∀ n, service.uuid n ≠ "") :
    ∀ entry ∈ w.outbox.outbox.rows, ∃ event ∈ w.scheduler.db.events,
      event.eventId = entry.eventId ∧ ∃ data,
        encodeValue (some jobLifecycleEdrV1) entry.canonicalPayload = some (.object data) ∧
          eventFromRow data = .ok event := by
  intro entry hentry
  obtain ⟨event, hevent, hid, hmessage⟩ := (linked_of_reachable h).exists_outgoing hentry
  have hpayload : entry.canonicalPayload = dumps event.wireObject :=
    congrArg Outbox.Message.value (hmessage ⟨0, 0⟩)
  have hencodable := Db.encodable_of_mem_events hevent
  obtain ⟨data, hload, hread⟩ := eventFromRow_canonicalEdr (if_pos hencodable)
  have hconforms := (accepts_published_iff hload).2
    (ids_ne_empty (scheduler_reach h).reachable huuid hevent)
  have hwired : [event].map Event.wired = [event] :=
    wired_of_mem h (List.forall_mem_singleton.2 (List.mem_filter.2 ⟨hevent, decide_eq_true rfl⟩))
  refine ⟨event, hevent, hid, data, ?_, hread.trans (congrArg _ (List.cons.inj hwired).1)⟩
  rw [encodeValue, hpayload, hload, Option.bind_some, if_pos hconforms]

/-- The supply that counts gives no empty text. -/
theorem uuidText_ne_empty (n : ℕ) : uuidText n ≠ "" := by
  intro hempty
  have hchars := toList_uuidText n
  rw [hempty, uuidPrefix] at hchars
  simp at hchars

/-- The five events of a job. -/
theorem encodes_outbox_acknowledgedRun :
    ∃ w : World String, (machine defaultService fun _ => onePublisher).Reachable w ∧
      w.outbox.outbox.rows ≠ [] ∧
      ∀ entry ∈ w.outbox.outbox.rows, ∃ event ∈ w.scheduler.db.events,
        event.eventId = entry.eventId ∧ ∃ data,
          encodeValue (some jobLifecycleEdrV1) entry.canonicalPayload = some (.object data) ∧
            eventFromRow data = .ok event := by
  have hrun : ((machine defaultService fun _ => onePublisher).run
      (machine defaultService fun _ => onePublisher).start acknowledgedRun).map
        (fun w => w.outbox.outbox.rows.length) = some 5 := by decide +kernel
  obtain ⟨w, hw, hlength⟩ := Option.map_eq_some_iff.1 hrun
  have hreachable := Machine.Reachable.of_run Machine.Reachable.start acknowledgedRun hw
  refine ⟨w, hreachable, fun hnil => ?_,
    encodes_outbox hreachable uuidText_ne_empty⟩
  rw [hnil] at hlength
  cases hlength

end Pipeline

end ScheduledJobs
