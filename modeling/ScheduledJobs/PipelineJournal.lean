/-
**What is in the journal was committed, and what was committed gets there.**

Every row of the journal has an event of the scheduler in its columns, and the coordinates of a
message that the broker has acknowledged for it.  The sink is never refused: a record that comes
again, also at other coordinates, says what the row says.  And an event that is published and
consumed is in the journal.

Main definitions:

* `Outbox.Entry.sent`, `Pipeline.sent` — what is published of a row, and of an event;
* `Pipeline.Linked` — **the invariant** of the outbox, the broker and the journal.

Main results:

* `Pipeline.Linked.next`, `Pipeline.linked_of_reachable` — the invariant along runs;
* `Pipeline.journal_of_deliveries` — **the sink is never refused**, whatever is delivered again;
* `Pipeline.journal_authentic` — **a row of the journal is an event that was committed**;
* `Pipeline.exists_row_of_consumed` — what is published and consumed is there.
-/

import ScheduledJobs.JobEvidence
import ScheduledJobs.OutboxPayloads
import ScheduledJobs.Pipeline

set_option relaxedAutoImplicit false
set_option autoImplicit false

namespace ScheduledJobs

open Json

/-! ### Records that fit the columns -/

/-- A digest is what the `CHECK` on it asks for. -/
theorem digest_checked (text : String) :
    (digest text).toList.length = 64 ∧ (digest text).toList.all isHexDigit = true := by
  obtain ⟨hlength, hchars⟩ := digest_checks text
  refine ⟨hlength, List.all_eq_true.2 fun c hc => ?_⟩
  simpa [isHexDigit] using hchars c hc

/-- The coordinates fit the columns. -/
def Outbox.BrokerCoordinate.Fits (coordinate : Outbox.BrokerCoordinate) : Prop :=
  coordinate.partition ≤ maxInteger ∧ coordinate.offset < 2 ^ 63

/-- The columns of an event meet the constraints, if its numbers fit. -/
theorem Event.checked_columns {event : Event} (hattempt : event.attemptNumber ≤ event.maxAttempts)
    (hmax : event.maxAttempts ≤ maxInteger) (topic : String)
    {coordinate : Outbox.BrokerCoordinate} (hcoordinate : coordinate.Fits) :
    (event.columns topic coordinate).Checked where
  schemaVersion := ⟨Int.one_pos, by simp [Event.columns, maxInteger]⟩
  attemptNumber := by
    change 0 ≤ (event.attemptNumber : ℤ) ∧ (event.attemptNumber : ℤ) ≤ maxInteger
    omega
  maxAttempts := by
    have hpos := event.maxAttempts_pos
    change 0 < (event.maxAttempts : ℤ) ∧ (event.maxAttempts : ℤ) ≤ maxInteger
    omega
  payloadHash := digest_checked event.canonicalPayload
  kafkaPartition := by
    have hpartition := hcoordinate.1
    change -(maxInteger + 1 : ℤ) ≤ (coordinate.partition : ℤ) ∧
      (coordinate.partition : ℤ) ≤ maxInteger
    omega
  kafkaOffset := by
    have hoffset := hcoordinate.2
    change -(2 ^ 63 : ℤ) ≤ (coordinate.offset : ℤ) ∧ (coordinate.offset : ℤ) < 2 ^ 63
    omega

/-! ### What is published of a row -/

/-- What is published of a row, and its id. -/
def Outbox.Entry.sent (entry : Outbox.Entry) : String × String × String × String :=
  (entry.eventId, entry.topic, entry.messageKey, entry.canonicalPayload)

namespace Pipeline

variable {Payload : Type} [DecidableEq Payload] {service : SchedulerService}
  {publishers : ℕ → OutboxPublisher} {w w' : World Payload}

attribute [local instance] jsonb

/-- What is published of an event, and its id. -/
def sent (service : SchedulerService) (event : Event) : String × String × String × String :=
  (event.eventId, service.topic, event.jobId, dumps event.wireObject)

section Rows

open Outbox

/-- A statement that assigns other columns leaves what is published. -/
theorem sent_mapRows (outbox : Table Entry.eventId) {assign : Entry → Entry}
    (hassign : ∀ entry, (assign entry).eventId = entry.eventId)
    (hsent : ∀ entry, (assign entry).sent = entry.sent) :
    (outbox.mapRows assign hassign).rows.map Entry.sent = outbox.rows.map Entry.sent := by
  simp only [Table.mapRows, List.map_map]
  exact List.map_congr_left fun entry _ => hsent entry

theorem sent_updateHeld (outbox : Table Entry.eventId) (record : OutboxRecord)
    {assign : Entry → Entry} (hassign : ∀ entry, (assign entry).eventId = entry.eventId)
    (hsent : ∀ entry, (assign entry).sent = entry.sent) :
    (updateHeld outbox record assign hassign).rows.map Entry.sent =
      outbox.rows.map Entry.sent := by
  refine sent_mapRows outbox _ fun entry => ?_
  split
  · exact hsent entry
  · rfl

theorem sent_lease (publisher : OutboxPublisher) (outbox : Table Entry.eventId) (token : ℕ)
    (clock : ClockReads) (locked : List String) :
    (publisher.lease outbox token clock locked).1.rows.map Entry.sent =
      outbox.rows.map Entry.sent := by
  refine sent_mapRows outbox (fun entry => ?_) fun entry => ?_
  · split <;> rfl
  · split <;> rfl

theorem sent_published (outbox : Table Entry.eventId) (record : OutboxRecord)
    (coordinate : BrokerCoordinate) (now : Datetime) :
    (published outbox record coordinate now).rows.map Entry.sent = outbox.rows.map Entry.sent := by
  unfold published
  exact sent_updateHeld outbox record _ fun _ => rfl

theorem sent_failed {publisher : OutboxPublisher} {outbox outbox' : Table Entry.eventId}
    {record : OutboxRecord} {error : String} {drawn : Drawn} {now : Datetime}
    (h : publisher.failed outbox record error drawn now = .ok outbox') :
    outbox'.rows.map Entry.sent = outbox.rows.map Entry.sent := by
  obtain ⟨next, rfl⟩ := exists_of_failed h
  exact sent_updateHeld outbox record _ fun _ => rfl

/-- **A publisher leaves what is published.** -/
theorem sent_of_placed {before after : Outbox.World} {l : Outbox.Label} (hplaced : Placed before l)
    (hn : before.next publishers l = some after) :
    after.outbox.rows.map Entry.sent = before.outbox.rows.map Entry.sent := by
  cases l with
  | insert => cases hplaced
  | lease publisher clock locked =>
      simp only [Outbox.World.next] at hn
      split at hn
      · cases hn
      · obtain ⟨runs, -, rfl⟩ := Option.map_eq_some_iff.1 hn
        exact sent_lease _ _ _ _ _
  | acknowledge publisher coordinate =>
      obtain ⟨run, -, hstep⟩ := Option.bind_eq_some_iff.1 hn
      split at hstep
      · cases hstep
        rfl
      · cases hstep
  | raise publisher error =>
      obtain ⟨run, -, hstep⟩ := Option.bind_eq_some_iff.1 hn
      split at hstep
      · cases hstep
        rfl
      · cases hstep
        rfl
      · cases hstep
  | published publisher now error =>
      obtain ⟨run, -, hstep⟩ := Option.bind_eq_some_iff.1 hn
      split at hstep
      · cases error with
        | none =>
            cases hstep
            exact sent_published _ _ _ _
        | some error =>
            cases hstep
            exact sent_published _ _ _ _
      · cases hstep
  | failed publisher drawn now =>
      obtain ⟨run, -, hstep⟩ := Option.bind_eq_some_iff.1 hn
      split at hstep
      · obtain ⟨outbox, hfailed, rfl⟩ := Option.map_eq_some_iff.1 hstep
        exact sent_failed (Except.toOption_eq_some_iff.1 hfailed)
      · cases hstep
  | finish publisher =>
      obtain ⟨run, -, hstep⟩ := Option.bind_eq_some_iff.1 hn
      split at hstep
      · cases hstep
        rfl
      · cases hstep
  | crash publisher =>
      obtain ⟨run, -, rfl⟩ := Option.map_eq_some_iff.1 hn
      rfl
  | stop publisher =>
      cases hn
      rfl

/-- The inserts of a transaction append its events, and the broker has no part in it. -/
theorem sent_of_insertions {defaults : String → Datetime × Datetime} {events : List Event}
    {before after : Outbox.World}
    (hrun : (Outbox.machine publishers).run before (events.map (insertion service defaults)) =
      some after) :
    after.outbox.rows.map Entry.sent =
        before.outbox.rows.map Entry.sent ++ events.map (sent service) ∧
      after.acknowledged = before.acknowledged := by
  induction events generalizing before with
  | nil =>
      cases hrun
      simp
  | cons event events ih =>
      obtain ⟨middle, hn, hrest⟩ := Machine.run_cons_eq_some_iff.1 hrun
      obtain ⟨outbox, hinsert, rfl⟩ := Option.map_eq_some_iff.1 hn
      obtain ⟨hsent, hack⟩ := ih hrest
      refine ⟨?_, hack⟩
      rw [hsent, (Table.insert?_eq_some_iff.1 hinsert).2]
      simp [Entry.sent, sent]

/-- **What the broker comes to acknowledge**: nothing, or the message of a row. -/
theorem acknowledged_of_placed {before after : Outbox.World} {l : Outbox.Label}
    (hsound : before.Sound) (hplaced : Placed before l)
    (hn : before.next publishers l = some after) :
    after.acknowledged = before.acknowledged ∨
      ∃ entry ∈ before.outbox.rows, ∃ coordinate : BrokerCoordinate, coordinate.Fits ∧
        (∀ message ∈ before.acknowledged, message.coordinate ≠ coordinate) ∧
        after.acknowledged = before.acknowledged ++ [entry.message coordinate] := by
  rcases Outbox.World.next_cases hn with ⟨new, outbox, -, -, -, rfl⟩ |
    ⟨publisher, clock, locked, runs, -, -, -, rfl⟩ |
    ⟨run, record, rest, coordinate, rfl, hrun, hrecords, rfl⟩ |
    ⟨run, error, -, -, rfl⟩ | ⟨run, record, rest, coordinate, now, error, -, -, -, -, rfl⟩ |
    ⟨run, record, rest, error, drawn, now, outbox, -, -, -, -, -, rfl⟩ | ⟨publisher, rfl⟩ |
    ⟨publisher, rfl⟩
  · exact Or.inl rfl
  · exact Or.inl rfl
  · obtain ⟨-, entry, hfind, hmessage⟩ :=
      (hsound.runs run hrun).records record (hrecords ▸ List.mem_cons_self ..)
    refine Or.inr ⟨entry, Table.mem_of_find? hfind, coordinate, hplaced.2, hplaced.1, ?_⟩
    rw [hmessage]
  · exact Or.inl rfl
  · cases error with
    | none => exact Or.inl rfl
    | some error => exact Or.inl rfl
  · exact Or.inl rfl
  · exact Or.inl rfl
  · exact Or.inl rfl

end Rows

/-! ### The scheduler's events -/

omit [DecidableEq Payload] in
/-- Only a submission sets the number of attempts. -/
theorem maxAttempts_step {clock : ClockReads} {op : Operation Payload} {v v' : JobView Payload}
    (hs : JobStep service clock op v v') (hfits : Fits op)
    (h : ∀ row, v.row = some row → row.maxAttempts ≤ maxInteger) :
    ∀ row, v'.row = some row → row.maxAttempts ≤ maxInteger := by
  intro row' hrow'
  cases hs with
  | idle => exact h row' hrow'
  | submitted hrow hevents =>
      obtain rfl := Option.some_inj.1 hrow'
      exact hfits
  | claimed hrow hstatus hdue hfresh =>
      obtain rfl := Option.some_inj.1 hrow'
      have hold := h _ hrow
      exact hold
  | started hjob hrow hcur =>
      obtain rfl := Option.some_inj.1 hrow'
      have hold := h _ hrow
      exact hold
  | heartbeat hjob hrow hcur =>
      obtain rfl := Option.some_inj.1 hrow'
      have hold := h _ hrow
      exact hold
  | succeeded hjob hrow hcur =>
      obtain rfl := Option.some_inj.1 hrow'
      have hold := h _ hrow
      exact hold
  | failed hjob hrow hcur hchecks hevents =>
      obtain rfl := Option.some_inj.1 hrow'
      have hold := h _ hrow
      exact hold
  | recovered hrow hstatus hexpired =>
      obtain rfl := Option.some_inj.1 hrow'
      have hold := h _ hrow
      exact hold

/-- The attempts of every job fit the columns. -/
theorem maxAttempts_le_of_reach {scheduler : ScheduledJobs.World Payload}
    (h : (schedulerMachine service).Reach (fun _ call => Fits call.operation) scheduler)
    (jobId : String) :
    ∀ row, (scheduler.view jobId).row = some row → row.maxAttempts ≤ maxInteger := by
  induction h with
  | start => exact fun _ hrow => nomatch hrow
  | step hs hfits hn ih => exact maxAttempts_step (view_step hn jobId) hfits ih

/-- The columns of a committed event meet the constraints. -/
theorem checked_of_mem_events (h : (machine service publishers).Reachable w) {event : Event}
    (hevent : event ∈ w.scheduler.db.events) (topic : String)
    {coordinate : Outbox.BrokerCoordinate} (hcoordinate : coordinate.Fits) :
    (event.columns topic coordinate).Checked := by
  have hreach := scheduler_reach h
  obtain ⟨row, hrow, hevidence⟩ := exists_row_of_event hreach.reachable hevent
  have hof := hevidence.isOf event (List.mem_filter.2 ⟨hevent, decide_eq_true rfl⟩)
  have hinv := (QueueInv.of_reachable hreach.reachable event.jobId).present row hrow
  have hmax := maxAttempts_le_of_reach hreach event.jobId row hrow
  have hattempts := hof.maxAttempts
  refine event.checked_columns ?_ (by omega) topic hcoordinate
  exact hattempts ▸ hof.attempt_le.trans hinv.attempt_le

omit [DecidableEq Payload] in
/-- Two committed events with the same id are the same. -/
theorem event_of_eventId {db : Db Payload} {event other : Event} (hevent : event ∈ db.events)
    (hother : other ∈ db.events) (h : event.eventId = other.eventId) : event = other := by
  obtain ⟨row, hrow, rfl⟩ := List.mem_map.1 hevent
  obtain ⟨row', hrow', rfl⟩ := List.mem_map.1 hother
  rw [Table.eq_of_key_eq hrow hrow' h]

variable (service) in
/-- The message of an event carries its id. -/
theorem columns?_outgoing {event : Event} (henc : event.Encodable)
    (coordinate : Outbox.BrokerCoordinate) :
    (outgoing service event coordinate).columns? =
      some (event.columns service.topic coordinate).record :=
  columns?_of_published henc rfl

/-- Events that are published as the same message have the same id. -/
theorem eventId_of_outgoing_eq {event other : Event} (henc : event.Encodable)
    (henc' : other.Encodable) {coordinate coordinate' : Outbox.BrokerCoordinate}
    (h : outgoing service event coordinate = outgoing service other coordinate') :
    event.eventId = other.eventId := by
  have hcolumns := columns?_outgoing service henc coordinate
  rw [h, columns?_outgoing service henc'] at hcolumns
  exact (Option.some.inj (congrArg EdrColumns.eventId (Option.some.inj hcolumns))).symm

/-! ### The invariant -/

/-- **The invariant** of the outbox, the broker and the journal. -/
structure Linked (service : SchedulerService) (w : World Payload) : Prop where
  /-- The rows of the outbox are the events of the scheduler. -/
  outbox : w.outbox.outbox.rows.map Outbox.Entry.sent = w.scheduler.db.events.map (sent service)
  acknowledged : ∀ message ∈ w.outbox.acknowledged, message.coordinate.Fits ∧
    ∃ event ∈ w.scheduler.db.events, message = outgoing service event message.coordinate
  coordinates : (w.outbox.acknowledged.map Outbox.Message.coordinate).Nodup
  /-- A row has an event in its columns, at the coordinates of one of its messages. -/
  journal : ∀ row ∈ w.journal.table.rows, ∃ event ∈ w.scheduler.db.events, ∃ coordinate,
    outgoing service event coordinate ∈ w.outbox.acknowledged ∧
      row.toEdrColumns = event.columns service.topic coordinate
  consumed : ∀ message ∈ w.consumed, message ∈ w.outbox.acknowledged
  stored : ∀ event ∈ w.scheduler.db.events, ∀ coordinate,
    outgoing service event coordinate ∈ w.consumed →
      ∃ row ∈ w.journal.table.rows, row.eventId = event.eventId

namespace Linked

omit [DecidableEq Payload] in
/-- The message of a row of the outbox is that of an event. -/
theorem exists_outgoing (h : Linked service w) {entry : Outbox.Entry}
    (hentry : entry ∈ w.outbox.outbox.rows) :
    ∃ event ∈ w.scheduler.db.events, event.eventId = entry.eventId ∧
      ∀ coordinate, entry.message coordinate = outgoing service event coordinate := by
  have hmem : entry.sent ∈ w.scheduler.db.events.map (sent service) :=
    h.outbox ▸ List.mem_map_of_mem hentry
  obtain ⟨event, hevent, heq⟩ := List.mem_map.1 hmem
  simp only [sent, Outbox.Entry.sent, Prod.mk.injEq] at heq
  obtain ⟨hid, htopic, hkey, hpayload⟩ := heq
  refine ⟨event, hevent, hid, fun coordinate => ?_⟩
  rw [Outbox.Entry.message, outgoing, htopic, hkey, hpayload]

omit [DecidableEq Payload] in
/-- A record of an event that comes when the event is stored says what is stored. -/
theorem sameAs (h : Linked service w) {event : Event} (hevent : event ∈ w.scheduler.db.events)
    {row old : EdrEvent Object} {coordinate : Outbox.BrokerCoordinate}
    (hrow : row.toEdrColumns = event.columns service.topic coordinate)
    (hold : w.journal.table.find? row.key = some old) : row.SameAs old = true := by
  obtain ⟨other, hother, coordinate', -, holdColumns⟩ := h.journal old (Table.mem_of_find? hold)
  have hids : other.eventId = event.eventId := by
    have hkey : old.key = row.key := Table.key_of_find? hold
    have hleft : old.eventId = other.eventId := congrArg EdrColumns.eventId holdColumns
    have hright : row.eventId = event.eventId := congrArg EdrColumns.eventId hrow
    exact hleft.symm.trans (hkey.trans hright)
  obtain rfl := event_of_eventId hother hevent hids
  have hhash : row.payloadHash = old.payloadHash := by rw [hrow, holdColumns]; rfl
  have hpayload : row.canonicalPayload = old.canonicalPayload := by rw [hrow, holdColumns]; rfl
  rw [EdrEvent.SameAs, hhash, hpayload]
  simp [BEq.beq]

omit [DecidableEq Payload] in
/-- The coordinates of a message whose event is not stored are new to the journal. -/
theorem coordinate_notMem (h : Linked service w) {event : Event}
    (hevent : event ∈ w.scheduler.db.events) {coordinate : Outbox.BrokerCoordinate}
    (hmessage : outgoing service event coordinate ∈ w.outbox.acknowledged)
    {row : EdrEvent Object} (hrow : row.toEdrColumns = event.columns service.topic coordinate)
    (hfresh : w.journal.table.find? row.key = none) :
    row.coordinate ∉ w.journal.table.rows.map EdrEvent.coordinate := by
  intro hmem
  obtain ⟨old, hold, hcoordinate⟩ := List.mem_map.1 hmem
  obtain ⟨other, hother, coordinate', hmessage', holdColumns⟩ := h.journal old hold
  have hpair : ((coordinate'.partition : ℤ), (coordinate'.offset : ℤ)) =
      ((coordinate.partition : ℤ), (coordinate.offset : ℤ)) := by
    have hboth := congrArg Prod.snd hcoordinate
    simp only [EdrEvent.coordinate, hrow, holdColumns] at hboth
    exact hboth
  obtain ⟨hpartition, hoffset⟩ := Prod.mk.inj hpair
  have hsame : coordinate' = coordinate := by
    cases coordinate
    cases coordinate'
    simp_all
  -- the broker has given the coordinates to one message only
  have houtgoing : outgoing service other coordinate' = outgoing service event coordinate :=
    List.inj_on_of_nodup_map h.coordinates hmessage' hmessage hsame
  have hids := eventId_of_outgoing_eq (Db.encodable_of_mem_events hother)
    (Db.encodable_of_mem_events hevent) houtgoing
  refine Table.find?_eq_none_iff.1 hfresh old hold ?_
  rw [EdrEvent.key, EdrEvent.key, hrow, holdColumns]
  exact hids

/-- **What a call of the scheduler preserves.** -/
theorem schedule (h : Linked service w) {call : ScheduledJobs.Label Payload}
    {defaults : String → Datetime × Datetime} {scheduler : ScheduledJobs.World Payload}
    {outbox : Outbox.World} (hscheduler : w.scheduler.next service call = some scheduler)
    (houtbox : (Outbox.machine publishers).run w.outbox
      ((w.scheduler.newEvents scheduler).map (insertion service defaults)) = some outbox) :
    Linked service { w with scheduler := scheduler, outbox := outbox } := by
  obtain ⟨hsent, hack⟩ := sent_of_insertions houtbox
  have hevents := events_of_next hscheduler
  have hgrows : ∀ event ∈ w.scheduler.db.events, event ∈ scheduler.db.events := fun event hevent =>
    hevents ▸ List.mem_append_left _ hevent
  constructor
  · rw [hsent, h.outbox, hevents, List.map_append]
  · intro message hmessage
    obtain ⟨hfits, event, hevent, houtgoing⟩ := h.acknowledged message (hack ▸ hmessage)
    exact ⟨hfits, event, hgrows event hevent, houtgoing⟩
  · exact hack ▸ h.coordinates
  · intro row hrow
    obtain ⟨event, hevent, coordinate, hmessage, hcolumns⟩ := h.journal row hrow
    exact ⟨event, hgrows event hevent, coordinate, hack ▸ hmessage, hcolumns⟩
  · exact fun message hmessage => hack ▸ h.consumed message hmessage
  · intro event hevent coordinate hmessage
    -- the message is one of an event that was committed before
    obtain ⟨-, other, hother, houtgoing⟩ := h.acknowledged _ (h.consumed _ hmessage)
    have hids := eventId_of_outgoing_eq (Db.encodable_of_mem_events hevent)
      (Db.encodable_of_mem_events hother) houtgoing
    obtain rfl := event_of_eventId hevent (hgrows other hother) hids
    exact h.stored event hother coordinate hmessage

omit [DecidableEq Payload] in
/-- **What a step of a publisher preserves.** -/
theorem publish (h : Linked service w) {step : Outbox.Label} {outbox : Outbox.World}
    (hsound : w.outbox.Sound) (hplaced : Placed w.outbox step)
    (hn : w.outbox.next publishers step = some outbox) :
    Linked service { w with outbox := outbox } := by
  have hmono := (Outbox.World.next_mono hn).2
  have hack := acknowledged_of_placed hsound hplaced hn
  constructor
  · exact (sent_of_placed hplaced hn).trans h.outbox
  · rcases hack with hsame | ⟨entry, hentry, coordinate, hfits, -, hmore⟩
    · exact hsame ▸ h.acknowledged
    · change ∀ message ∈ outbox.acknowledged, _
      rw [hmore, List.forall_mem_append, List.forall_mem_singleton]
      obtain ⟨event, hevent, -, houtgoing⟩ := h.exists_outgoing hentry
      exact ⟨h.acknowledged, hfits, event, hevent, houtgoing coordinate⟩
  · rcases hack with hsame | ⟨entry, hentry, coordinate, hfits, hfresh, hmore⟩
    · exact hsame ▸ h.coordinates
    · change (outbox.acknowledged.map _).Nodup
      rw [hmore, List.map_append, List.map_singleton, List.nodup_append_comm,
        List.singleton_append, List.nodup_cons]
      refine ⟨fun hmem => ?_, h.coordinates⟩
      obtain ⟨message, hmessage, hcoordinate⟩ := List.mem_map.1 hmem
      exact hfresh message hmessage hcoordinate
  · intro row hrow
    obtain ⟨event, hevent, coordinate, hmessage, hcolumns⟩ := h.journal row hrow
    exact ⟨event, hevent, coordinate, hmono _ hmessage, hcolumns⟩
  · exact fun message hmessage => hmono _ (h.consumed message hmessage)
  · exact h.stored

omit [DecidableEq Payload] in
/-- **What the sink preserves.** -/
theorem consume (h : Linked service w) {message : Outbox.Message} {clock : Datetime}
    {record : EdrColumns Option Object} {journal : Journal Object}
    (hmessage : message ∈ w.outbox.acknowledged) (hrecord : message.columns? = some record)
    (hexecute : w.journal.execute (.upsert record clock) = .ok journal) :
    Linked service { w.store journal with consumed := w.consumed ++ [message] } := by
  obtain ⟨-, event, hevent, houtgoing⟩ := h.acknowledged message hmessage
  have hrecord' : record = (event.columns service.topic message.coordinate).record := by
    rw [houtgoing, columns?_outgoing service (Db.encodable_of_mem_events hevent)] at hrecord
    exact (Option.some.inj hrecord).symm
  have hstored : (∃ row ∈ journal.table.rows, row.eventId = event.eventId) ∧
      (∀ row ∈ w.journal.table.rows, row ∈ journal.table.rows) ∧
      ∀ row ∈ journal.table.rows, row ∈ w.journal.table.rows ∨
        row.toEdrColumns = event.columns service.topic message.coordinate := by
    obtain ⟨row, hrow, hwrite⟩ := Except.bind_eq_ok_iff.1 hexecute
    have hcolumns : row.toEdrColumns = event.columns service.topic message.coordinate := by
      rw [hrecord', EdrColumns.row?, EdrColumns.known?_record] at hrow
      dsimp only at hrow
      split at hrow
      · cases hrow
        rfl
      · cases hrow
    have hkey : row.key = event.eventId := congrArg EdrColumns.eventId hcolumns
    rcases Journal.execute_cases hexecute with rfl | ⟨_, _, other, heq, hother, -, hrows⟩
    · refine ⟨?_, fun _ hold => hold, fun _ hold => Or.inl hold⟩
      split at hwrite
      · next hsome =>
          obtain ⟨old, hold⟩ := Option.isSome_iff_exists.1 hsome
          exact ⟨old, Table.mem_of_find? hold, (Table.key_of_find? hold).trans hkey⟩
      · have hrows := Journal.rows_of_ofRows hwrite
        exact absurd (congrArg List.length hrows) (by simp)
    · cases heq
      obtain rfl := Except.ok.inj (hrow.symm.trans hother)
      rw [hrows]
      refine ⟨⟨row, List.mem_append_right _ (List.mem_singleton_self _), hkey⟩,
        fun _ hold => List.mem_append_left _ hold, fun other hother => ?_⟩
      rcases List.mem_append.1 hother with hold | hnew
      · exact Or.inl hold
      · obtain rfl := List.mem_singleton.1 hnew
        exact Or.inr hcolumns
  obtain ⟨⟨new, hnew, hid⟩, hkept, hrows⟩ := hstored
  refine ⟨h.outbox, h.acknowledged, h.coordinates, fun row hrow => ?_, ?_, ?_⟩
  · rcases hrows row hrow with hold | hcolumns
    · exact h.journal row hold
    · exact ⟨event, hevent, message.coordinate, houtgoing ▸ hmessage, hcolumns⟩
  · exact List.forall_mem_append.2 ⟨h.consumed, List.forall_mem_singleton.2 hmessage⟩
  · intro other hother coordinate hconsumed
    rcases List.mem_append.1 hconsumed with hold | hlast
    · obtain ⟨row, hrow, hrowId⟩ := h.stored other hother coordinate hold
      exact ⟨row, hkept row hrow, hrowId⟩
    · have hsame := (List.mem_singleton.1 hlast).trans houtgoing
      exact ⟨new, hnew, hid.trans (eventId_of_outgoing_eq (Db.encodable_of_mem_events hother)
        (Db.encodable_of_mem_events hevent) hsame).symm⟩

/-- **What one step preserves.** -/
theorem next {l : Label Payload} (h : Linked service w) (hsound : w.outbox.Sound)
    (hn : w.next service publishers l = some w') : Linked service w' := by
  rcases World.next_cases hn with
    ⟨call, defaults, scheduler, outbox, -, -, hscheduler, houtbox, rfl⟩ |
    ⟨step, outbox, -, hplaced, hnext, rfl⟩ |
    ⟨message, clock, record, journal, -, hmessage, hrecord, hexecute, rfl⟩ |
    ⟨step, projectors, -, -, -, rfl⟩
  · exact h.schedule hscheduler houtbox
  · exact h.publish hsound hplaced hnext
  · exact h.consume hmessage hrecord hexecute
  · exact ⟨h.outbox, h.acknowledged, h.coordinates, h.journal, h.consumed, h.stored⟩

end Linked

theorem linked_of_reachable (h : (machine service publishers).Reachable w) : Linked service w := by
  have hstart : Linked service ((machine service publishers).start : World Payload) := {
    outbox := rfl
    acknowledged := fun _ hmessage => nomatch hmessage
    coordinates := List.nodup_nil
    journal := fun _ hrow => nomatch hrow
    consumed := fun _ hmessage => nomatch hmessage
    stored := fun _ hevent => nomatch hevent }
  exact h.invariant (I := Linked service) hstart fun w l w' hw hlinked hn =>
    hlinked.next (Outbox.sound_of_reachable (outbox_reachable hw)) hn

/-! ### The journal and the scheduler -/

/-- The journal row of an event is decoded to the event. -/
theorem records_of_columns (h : (machine service publishers).Reachable w) {event : Event}
    (hevent : event ∈ w.scheduler.db.events) {row : EdrEvent Object} {topic : String}
    {coordinate : Outbox.BrokerCoordinate}
    (hrow : row.toEdrColumns = event.columns topic coordinate) :
    row.toEdrRow.Records event ∧ eventFromRow row.canonicalPayload = .ok event := by
  have hrecords : row.toEdrRow.Records event := by
    refine ⟨congrArg EdrColumns.eventId hrow, congrArg EdrColumns.jobId hrow, ?_⟩
    rw [loads_canonicalPayload, EdrEvent.toEdrRow, hrow, Event.canonicalPayload_columns]
  have hdecode := hrecords.eventFromRow_eq_ok (Db.encodable_of_mem_events hevent)
  have hwired := (WireInv.of_reachable (scheduler_reach h).reachable event.jobId).events event
    (List.mem_filter.2 ⟨hevent, decide_eq_true rfl⟩)
  rw [hwired] at hdecode
  exact ⟨hrecords, hdecode⟩

/-- What the broker has acknowledged can be consumed at any time. -/
theorem exists_consume (h : (machine service publishers).Reachable w) {message : Outbox.Message}
    (hmessage : message ∈ w.outbox.acknowledged) (clock : Datetime) :
    ∃ journal, w.next service publishers (.consume message clock) =
      some { w.store journal with consumed := w.consumed ++ [message] } := by
  have hlinked := linked_of_reachable h
  obtain ⟨hfits, event, hevent, houtgoing⟩ := hlinked.acknowledged message hmessage
  have hcolumns := columns?_outgoing service (Db.encodable_of_mem_events hevent) message.coordinate
  rw [← houtgoing] at hcolumns
  have hchecked := checked_of_mem_events h hevent service.topic hfits
  obtain ⟨row, hrow, hrowColumns⟩ : ∃ row, (event.columns service.topic
      message.coordinate).record.row? clock = .ok row ∧
        row.toEdrColumns = event.columns service.topic message.coordinate :=
    ⟨_, EdrColumns.row?_record hchecked clock, rfl⟩
  have hnext : ∀ journal, w.journal.execute (.upsert (event.columns service.topic
      message.coordinate).record clock) = .ok journal →
        w.next service publishers (.consume message clock) =
          some { w.store journal with consumed := w.consumed ++ [message] } := by
    intro journal hjournal
    simp only [World.next, if_pos hmessage, hcolumns, Option.bind_some, hjournal, Except.toOption,
      Option.map_some]
  cases hfind : w.journal.table.find? row.key with
  | some old =>
      have hsame := hlinked.sameAs hevent hrowColumns hfind
      refine ⟨_, hnext w.journal ?_⟩
      rw [Journal.execute_upsert_of_find? hrow hfind, if_pos hsame]
  | none =>
      obtain ⟨journal, hjournal⟩ := (Journal.ofRows_concat w.journal row).2
        ⟨fun hmem => by
          obtain ⟨old, hold, heq⟩ := List.mem_map.1 hmem
          exact Table.find?_eq_none_iff.1 hfind old hold heq,
        hlinked.coordinate_notMem hevent (houtgoing ▸ hmessage) hrowColumns hfind⟩
      refine ⟨_, hnext journal ?_⟩
      simp only [Journal.execute, hrow, Except.ok_bind, hfind, Option.isSome_none,
        Bool.false_eq_true, if_false, hjournal]

/-- The message brings the event with the id. -/
def Brings (message : Outbox.Message) (eventId : String) : Prop :=
  ∃ record, message.columns? = some record ∧ record.eventId = some eventId

/-- A message brings a committed event. -/
theorem exists_brings (h : (machine service publishers).Reachable w) {message : Outbox.Message}
    (hmessage : message ∈ w.outbox.acknowledged) :
    ∃ event ∈ w.scheduler.db.events, Brings message event.eventId := by
  obtain ⟨-, event, hevent, houtgoing⟩ := (linked_of_reachable h).acknowledged message hmessage
  have hcolumns := columns?_outgoing service (Db.encodable_of_mem_events hevent) message.coordinate
  rw [← houtgoing] at hcolumns
  exact ⟨event, hevent, _, hcolumns, rfl⟩

/-- What is in the journal once a message is consumed. -/
theorem journal_of_consume (h : (machine service publishers).Reachable w)
    {message : Outbox.Message} {clock : Datetime}
    (hn : w.next service publishers (.consume message clock) = some w') :
    w'.outbox = w.outbox ∧ w.journal.table.rows <+: w'.journal.table.rows ∧
      ∀ eventId, eventId ∈ w'.journal.table.rows.map EdrEvent.key ↔
        eventId ∈ w.journal.table.rows.map EdrEvent.key ∨ Brings message eventId := by
  have hlinked' := linked_of_reachable (reachable_of_next h hn)
  rcases World.next_cases hn with ⟨_, _, _, _, hl, -⟩ | ⟨_, _, hl, -⟩ |
    ⟨_, _, record, journal, hl, hmessage, hrecord, hexecute, rfl⟩ | ⟨_, _, hl, -⟩
  · cases hl
  · cases hl
  · cases hl
    -- afterwards the event of the message is stored
    have hstored : ∀ eventId, Brings message eventId →
        eventId ∈ journal.table.rows.map EdrEvent.key := by
      rintro eventId ⟨other, hother, hid⟩
      obtain ⟨-, event, hevent, houtgoing⟩ :=
        (linked_of_reachable h).acknowledged message hmessage
      have hcolumns := columns?_outgoing service (Db.encodable_of_mem_events hevent)
        message.coordinate
      rw [← houtgoing, hother] at hcolumns
      obtain rfl := Option.some.inj hcolumns
      obtain ⟨row, hrow, hrowId⟩ := hlinked'.stored event hevent message.coordinate
        (List.mem_append_right _ (List.mem_singleton.2 houtgoing.symm))
      exact List.mem_map.2 ⟨row, hrow, hrowId.trans (Option.some.inj hid)⟩
    refine ⟨rfl, ?_⟩
    rcases Journal.execute_cases hexecute with rfl | ⟨_, _, row, heq, hrow, -, hrows⟩
    · refine ⟨List.prefix_refl _, fun eventId => ⟨Or.inl, fun hmem => ?_⟩⟩
      exact hmem.elim id (hstored eventId)
    · cases heq
      refine ⟨⟨[row], hrows.symm⟩, fun eventId => ⟨fun hmem => ?_, fun hmem => ?_⟩⟩
      · change eventId ∈ journal.table.rows.map EdrEvent.key at hmem
        rw [hrows, List.map_append, List.mem_append, List.map_singleton,
          List.mem_singleton] at hmem
        refine hmem.imp id fun heq => ⟨record, hrecord, ?_⟩
        rw [heq]
        exact key_of_row? hrow
      · rcases hmem with hold | hnew
        · change eventId ∈ journal.table.rows.map EdrEvent.key
          rw [hrows, List.map_append]
          exact List.mem_append_left _ hold
        · exact hstored eventId hnew
  · cases hl

/-- **Deliveries in any order, again and again**: none of them is refused, no row of the journal is
lost or changed, and the events that are brought are there afterwards, and no other ones. -/
theorem journal_of_deliveries (h : (machine service publishers).Reachable w)
    {deliveries : List (Outbox.Message × Datetime)}
    (hack : ∀ delivery ∈ deliveries, delivery.1 ∈ w.outbox.acknowledged) :
    ∃ w', (machine service publishers).run w
        (deliveries.map fun delivery => .consume delivery.1 delivery.2) = some w' ∧
      w.journal.table.rows <+: w'.journal.table.rows ∧
      ∀ eventId, eventId ∈ w'.journal.table.rows.map EdrEvent.key ↔
        eventId ∈ w.journal.table.rows.map EdrEvent.key ∨
          ∃ delivery ∈ deliveries, Brings delivery.1 eventId := by
  induction deliveries generalizing w with
  | nil =>
      refine ⟨w, rfl, List.prefix_refl _, fun eventId => ⟨Or.inl, fun hmem => ?_⟩⟩
      rcases hmem with hold | ⟨_, hnone, -⟩
      · exact hold
      · cases hnone
  | cons delivery deliveries ih =>
      rw [List.forall_mem_cons] at hack
      obtain ⟨journal, hnext⟩ := exists_consume h hack.1 delivery.2
      obtain ⟨houtbox, hprefix, hkeys⟩ := journal_of_consume h hnext
      obtain ⟨w', hrun, hprefix', hkeys'⟩ := ih (reachable_of_next h hnext) fun other hother =>
        houtbox ▸ hack.2 other hother
      refine ⟨w', Machine.run_cons_eq_some_iff.2 ⟨_, hnext, hrun⟩, hprefix.trans hprefix',
        fun eventId => ?_⟩
      rw [hkeys', hkeys, or_assoc, List.exists_mem_cons_iff]

/-- The first attempt of a job succeeds; a publisher leases the events, and the broker acknowledges
the first one. -/
def acknowledgedRun : List (Label String) :=
  (succeededRun.map fun call => .schedule call fun _ => (seconds 20, seconds 20)) ++
    [.publish (.lease 0 (.instant (seconds 20)) []), .publish (.acknowledge 0 ⟨0, 0⟩)]

/-- The settings of a publisher. -/
def onePublisher : OutboxPublisher where
  owner := "outbox-1"

theorem exists_acknowledgedRun :
    ∃ w message, (machine defaultService fun _ => onePublisher).run
        (machine defaultService fun _ => onePublisher).start acknowledgedRun = some w ∧
      w.outbox.acknowledged = [message] := by
  have hrun : ((machine defaultService fun _ => onePublisher).run
      (machine defaultService fun _ => onePublisher).start acknowledgedRun).map
        (fun w => w.outbox.acknowledged.length) = some 1 := by decide +kernel
  obtain ⟨w, hw, hlength⟩ := Option.map_eq_some_iff.1 hrun
  obtain ⟨message, hmessage⟩ := List.length_eq_one_iff.1 hlength
  exact ⟨w, message, hw, hmessage⟩

/-- The message is delivered twice. -/
theorem journal_of_deliveries_acknowledgedRun :
    ∃ w message, (machine defaultService fun _ => onePublisher).run
        (machine defaultService fun _ => onePublisher).start acknowledgedRun = some w ∧
      w.outbox.acknowledged = [message] ∧
      ∃ w', (machine defaultService fun _ => onePublisher).run w
          [.consume message (seconds 21), .consume message (seconds 22)] = some w' ∧
        w.journal.table.rows <+: w'.journal.table.rows ∧
        ∀ eventId, eventId ∈ w'.journal.table.rows.map EdrEvent.key ↔
          eventId ∈ w.journal.table.rows.map EdrEvent.key ∨
            ∃ delivery ∈ [(message, seconds 21), (message, seconds 22)],
              Brings delivery.1 eventId := by
  obtain ⟨w, message, hrun, hacknowledged⟩ := exists_acknowledgedRun
  have hw := Machine.Reachable.of_run Machine.Reachable.start acknowledgedRun hrun
  have hmem : message ∈ w.outbox.acknowledged := hacknowledged ▸ List.mem_singleton_self _
  exact ⟨w, message, hrun, hacknowledged, @journal_of_deliveries _ _ _ _ _ hw
    [(message, seconds 21), (message, seconds 22)]
    (List.forall_mem_cons.2 ⟨hmem, List.forall_mem_singleton.2 hmem⟩)⟩

/-- **A row of the journal is an event that was committed**: it is decoded to the event, has it in
every column, and its coordinates are those of a message that was acknowledged for it. -/
theorem journal_authentic (h : (machine service publishers).Reachable w) :
    ∀ row ∈ w.journal.table.rows, ∃ event ∈ w.scheduler.db.events,
      eventFromRow row.canonicalPayload = .ok event ∧ ∃ coordinate,
        outgoing service event coordinate ∈ w.outbox.acknowledged ∧
          row.toEdrColumns = event.columns service.topic coordinate := by
  intro row hrow
  obtain ⟨event, hevent, coordinate, hmessage, hcolumns⟩ := (linked_of_reachable h).journal row hrow
  exact ⟨event, hevent, (records_of_columns h hevent hcolumns).2, coordinate, hmessage, hcolumns⟩

/-- The message is consumed. -/
theorem journal_authentic_acknowledgedRun :
    ∃ w : World String, (machine defaultService fun _ => onePublisher).Reachable w ∧
      w.journal.table.rows ≠ [] ∧
      ∀ row ∈ w.journal.table.rows, ∃ event ∈ w.scheduler.db.events,
        eventFromRow row.canonicalPayload = .ok event ∧ ∃ coordinate,
          outgoing defaultService event coordinate ∈ w.outbox.acknowledged ∧
            row.toEdrColumns = event.columns defaultService.topic coordinate := by
  obtain ⟨w, message, hrun, hacknowledged⟩ := exists_acknowledgedRun
  have hw := Machine.Reachable.of_run Machine.Reachable.start acknowledgedRun hrun
  have hmem : message ∈ w.outbox.acknowledged := hacknowledged ▸ List.mem_singleton_self _
  obtain ⟨journal, hnext⟩ := exists_consume hw hmem (seconds 21)
  have hreachable := reachable_of_next hw hnext
  refine ⟨_, hreachable, fun hnil => ?_, journal_authentic hreachable⟩
  obtain ⟨event, -, hbrings⟩ := exists_brings hw hmem
  have hkey := ((journal_of_consume hw hnext).2.2 event.eventId).2 (Or.inr hbrings)
  rw [hnil] at hkey
  cases hkey

/-- The row of an event in the outbox. -/
theorem exists_entry (h : (machine service publishers).Reachable w) {event : Event}
    (hevent : event ∈ w.scheduler.db.events) :
    ∃ entry ∈ w.outbox.outbox.rows, entry.eventId = event.eventId ∧
      ∀ coordinate, entry.message coordinate = outgoing service event coordinate := by
  have hlinked := linked_of_reachable h
  have hsent : sent service event ∈ w.outbox.outbox.rows.map Outbox.Entry.sent :=
    hlinked.outbox ▸ List.mem_map_of_mem hevent
  obtain ⟨entry, hentry, heq⟩ := List.mem_map.1 hsent
  obtain ⟨other, hother, hid, houtgoing⟩ := hlinked.exists_outgoing hentry
  have hids : other.eventId = event.eventId := hid.trans (congrArg Prod.fst heq)
  obtain rfl := event_of_eventId hother hevent hids
  exact ⟨entry, hentry, hid.symm, houtgoing⟩

/-- An event whose messages are consumed is in the journal. -/
theorem exists_row_of_consumed (h : (machine service publishers).Reachable w)
    (hpublished : ∀ entry ∈ w.outbox.outbox.rows, entry.publishedAt ≠ none)
    (hconsumed : ∀ message ∈ w.outbox.acknowledged, message ∈ w.consumed) {event : Event}
    (hevent : event ∈ w.scheduler.db.events) :
    ∃ row ∈ w.journal.table.rows, row.eventId = event.eventId := by
  have hsound := Outbox.sound_of_reachable (outbox_reachable h)
  -- the row of the event in the outbox is published, and its message consumed
  obtain ⟨entry, hentry, -, houtgoing⟩ := exists_entry h hevent
  obtain ⟨coordinate, -, -, hmessage⟩ :=
    (hsound.entries _ entry (Table.find?_of_mem hentry)).acknowledged (hpublished entry hentry)
  rw [houtgoing] at hmessage
  exact (linked_of_reachable h).stored event hevent coordinate (hconsumed _ hmessage)

end Pipeline

end ScheduledJobs
