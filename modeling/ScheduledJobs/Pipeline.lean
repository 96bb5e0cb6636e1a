/-
**The way of an event: from the scheduler to the tables that are read.**

A transaction of the scheduler inserts its events into the outbox.  Publishers send them to the
broker, the sink writes what it consumes to the journal, and the projectors replay the journal into
the tables of the reader.  Here the four are one machine.  Each does what it does on its own; two
tables are shared: the outbox is written by the scheduler and by the publishers, and the journal by
the sink and read by the projectors.

The broker never gives two records of a topic the same coordinates, and it keeps what it has
acknowledged: the sink may consume a message at any time, in any order and again and again.  The
ranges of the integer columns of the scheduler and of the coordinates are conditions on the labels.

Main definitions:

* `Pipeline.World`, `Pipeline.Label` — the four components, and a step of one of them;
* `Pipeline.World.next`, `Pipeline.machine` — **the machine**.

Main results:

* `Pipeline.World.next_cases` — what a step can do;
* `Pipeline.scheduler_reach`, `Pipeline.outbox_reachable`, `Pipeline.projectors_reachable` — **each
  component is in a state it can reach on its own**.
-/

import ScheduledJobs.EdrSink
import ScheduledJobs.OutboxCompleteness
import ScheduledJobs.OutboxPublication
import ScheduledJobs.Projectors

set_option relaxedAutoImplicit false
set_option autoImplicit false

namespace ScheduledJobs

namespace Pipeline

open Json

variable {Payload : Type} [DecidableEq Payload]

/-! ### What the components share -/

/-- `=` of `jsonb`: the same members, in whatever order. -/
@[reducible] def jsonb : BEq Object where
  beq a b := decide (∀ key ∈ a.keys ++ b.keys, a.get? key = b.get? key)

attribute [local instance] jsonb

/-- A submission fits the columns: `max_attempts` is an `integer`. -/
def Fits : Operation Payload → Prop
  | .submitChecked value => value.maxAttempts ≤ maxInteger
  | _ => True

instance : DecidablePred (@Fits Payload)
  | .submitChecked value => inferInstanceAs (Decidable (value.maxAttempts ≤ maxInteger))
  | .claimDue .. | .start _ | .heartbeat _ | .succeed .. | .fail .. | .recoverExpiredClaims .. =>
      inferInstanceAs (Decidable True)

/-- The insert of an event into the outbox.  The times of the row are defaults. -/
def insertion (service : SchedulerService) (defaults : String → Datetime × Datetime)
    (event : Event) : Outbox.Label :=
  .insert event.eventId service.topic event.jobId (dumps event.wireObject)
    (defaults event.eventId).1 (defaults event.eventId).2

/-- The message an event is published as. -/
def outgoing (service : SchedulerService) (event : Event) (coordinate : Outbox.BrokerCoordinate) :
    Outbox.Message :=
  ⟨service.topic, event.jobId, dumps event.wireObject, coordinate⟩

/-- The coordinates of a message in its topic are those of no other one, and fit the columns. -/
def Placed (outbox : Outbox.World) : Outbox.Label → Prop
  | .insert .. => False
  | .acknowledge _ coordinate =>
      (∀ message ∈ outbox.acknowledged, message.coordinate ≠ coordinate) ∧
        coordinate.partition ≤ maxInteger ∧ coordinate.offset < 2 ^ 63
  | _ => True

instance (outbox : Outbox.World) : DecidablePred (Placed outbox)
  | .insert .. => inferInstanceAs (Decidable False)
  | .acknowledge _ coordinate =>
      inferInstanceAs (Decidable (
        (∀ message ∈ outbox.acknowledged, message.coordinate ≠ coordinate) ∧
          coordinate.partition ≤ maxInteger ∧ coordinate.offset < 2 ^ 63))
  | .lease .. | .raise .. | .published .. | .failed .. | .finish _ | .crash _ | .stop _ =>
      inferInstanceAs (Decidable True)

/-- The step is one of the projectors, and not of the sink. -/
def Projects : Projectors.Label Object → Prop
  | .arrive _ => False
  | _ => True

instance : DecidablePred Projects
  | .arrive _ => inferInstanceAs (Decidable False)
  | .claim .. | .load _ | .execute _ | .commit _ | .abort _ => inferInstanceAs (Decidable True)

/-! ### The machine -/

/-- The scheduler, the outbox with its publishers, the journal, the projectors, and what the sink
has consumed. -/
structure World (Payload : Type) where
  scheduler : ScheduledJobs.World Payload
  outbox : Outbox.World
  journal : Journal Object
  projectors : Projectors.World Object
  consumed : List Outbox.Message

/-- A step of one of the components. -/
inductive Label (Payload : Type)
  /-- A call of the scheduler.  The events of its transaction enter the outbox. -/
  | schedule (l : ScheduledJobs.Label Payload) (defaults : String → Datetime × Datetime)
  | publish (l : Outbox.Label)
  /-- The sink consumes a message. -/
  | consume (message : Outbox.Message) (clock : Datetime)
  | project (l : Projectors.Label Object)

/-- The journal has come to be another one, and the projectors read it. -/
def World.store (w : World Payload) (journal : Journal Object) : World Payload :=
  { w with
    journal := journal
    projectors :=
      { w.projectors with
        db := { w.projectors.db with edrEvents := journal.edrDb.edrEvents } } }

/-- **One step.** -/
def World.next (service : SchedulerService) (publishers : ℕ → OutboxPublisher) (w : World Payload) :
    Label Payload → Option (World Payload)
  | .schedule l defaults =>
      if Fits l.operation then
        (w.scheduler.next service l).bind fun scheduler =>
          ((Outbox.machine publishers).run w.outbox
            ((w.scheduler.newEvents scheduler).map (insertion service defaults))).map fun outbox =>
              { w with scheduler := scheduler, outbox := outbox }
      else none
  | .publish l =>
      if Placed w.outbox l then
        (w.outbox.next publishers l).map fun outbox => { w with outbox := outbox }
      else none
  | .consume message clock =>
      if message ∈ w.outbox.acknowledged then
        message.columns?.bind fun record =>
          (w.journal.execute (.upsert record clock)).toOption.map fun journal =>
            { w.store journal with consumed := w.consumed ++ [message] }
      else none
  | .project l =>
      if Projects l then
        (w.projectors.next eventFromRow l).map fun projectors => { w with projectors := projectors }
      else none

/-- **The machine**, with nothing in any table. -/
def machine (service : SchedulerService) (publishers : ℕ → OutboxPublisher) :
    Machine (World Payload) (Label Payload) where
  start :=
    { scheduler := (schedulerMachine service).start
      outbox := {}
      journal := .empty
      projectors := {}
      consumed := [] }
  next := World.next service publishers

variable {service : SchedulerService} {publishers : ℕ → OutboxPublisher} {w w' : World Payload}

/-- **What a step can do.** -/
theorem World.next_cases {l : Label Payload} (h : w.next service publishers l = some w') :
    (∃ call defaults scheduler outbox, l = .schedule call defaults ∧ Fits call.operation ∧
      w.scheduler.next service call = some scheduler ∧
      (Outbox.machine publishers).run w.outbox
        ((w.scheduler.newEvents scheduler).map (insertion service defaults)) = some outbox ∧
      w' = { w with scheduler := scheduler, outbox := outbox }) ∨
    (∃ step outbox, l = .publish step ∧ Placed w.outbox step ∧
      w.outbox.next publishers step = some outbox ∧ w' = { w with outbox := outbox }) ∨
    (∃ message clock record journal, l = .consume message clock ∧
      message ∈ w.outbox.acknowledged ∧ message.columns? = some record ∧
      w.journal.execute (.upsert record clock) = .ok journal ∧
      w' = { w.store journal with consumed := w.consumed ++ [message] }) ∨
    ∃ step projectors, l = .project step ∧ Projects step ∧
      w.projectors.next eventFromRow step = some projectors ∧
      w' = { w with projectors := projectors } := by
  cases l with
  | schedule call defaults =>
      simp only [World.next] at h
      split at h
      · next hfits =>
          obtain ⟨scheduler, hscheduler, h⟩ := Option.bind_eq_some_iff.1 h
          obtain ⟨outbox, houtbox, rfl⟩ := Option.map_eq_some_iff.1 h
          exact Or.inl ⟨call, defaults, scheduler, outbox, rfl, hfits, hscheduler, houtbox, rfl⟩
      · cases h
  | publish step =>
      simp only [World.next] at h
      split at h
      · next hplaced =>
          obtain ⟨outbox, houtbox, rfl⟩ := Option.map_eq_some_iff.1 h
          exact Or.inr (Or.inl ⟨step, outbox, rfl, hplaced, houtbox, rfl⟩)
      · cases h
  | consume message clock =>
      simp only [World.next] at h
      split at h
      · next hmessage =>
          obtain ⟨record, hrecord, h⟩ := Option.bind_eq_some_iff.1 h
          obtain ⟨journal, hjournal, rfl⟩ := Option.map_eq_some_iff.1 h
          cases hexecute : w.journal.execute (.upsert record clock) with
          | error e =>
              rw [hexecute] at hjournal
              cases hjournal
          | ok stored =>
              rw [hexecute] at hjournal
              obtain rfl := Option.some_inj.1 hjournal
              exact Or.inr (Or.inr (Or.inl
                ⟨message, clock, record, stored, rfl, hmessage, hrecord, hexecute, rfl⟩))
      · cases h
  | project step =>
      simp only [World.next] at h
      split at h
      · next hprojects =>
          obtain ⟨projectors, hnext, rfl⟩ := Option.map_eq_some_iff.1 h
          exact Or.inr (Or.inr (Or.inr ⟨step, projectors, rfl, hprojects, hnext, rfl⟩))
      · cases h

theorem reachable_of_next {l : Label Payload} (h : (machine service publishers).Reachable w)
    (hn : w.next service publishers l = some w') : (machine service publishers).Reachable w' :=
  Machine.Reachable.step (M := machine service publishers) (a := l) h hn

/-! ### The components on their own -/

/-- The scheduler is in a state that it reaches with calls that fit. -/
theorem scheduler_reach (h : (machine service publishers).Reachable w) :
    (schedulerMachine service).Reach (fun _ call => Fits call.operation) w.scheduler := by
  refine h.invariant (I := fun w => (schedulerMachine service).Reach
    (fun _ call => Fits call.operation) w.scheduler) Machine.Reach.start
    fun w l w' _ hreach hn => ?_
  rcases World.next_cases hn with
    ⟨call, defaults, scheduler, outbox, -, hfits, hscheduler, -, rfl⟩ |
    ⟨step, outbox, -, -, -, rfl⟩ | ⟨message, clock, record, journal, -, -, -, -, rfl⟩ |
    ⟨step, projectors, -, -, -, rfl⟩
  · exact hreach.step hfits hscheduler
  · exact hreach
  · exact hreach
  · exact hreach

/-- The publishers are in a state that they reach on their own, rows being inserted. -/
theorem outbox_reachable (h : (machine service publishers).Reachable w) :
    (Outbox.machine publishers).Reachable w.outbox := by
  refine Machine.Reachable.part World.outbox Machine.Reachable.start (fun w l w' _ _ hn => ?_) h
  rcases World.next_cases hn with ⟨call, defaults, scheduler, outbox, -, -, -, houtbox, rfl⟩ |
    ⟨step, outbox, -, -, houtbox, rfl⟩ | ⟨message, clock, record, journal, -, -, -, -, rfl⟩ |
    ⟨step, projectors, -, -, -, rfl⟩
  · exact ⟨_, houtbox⟩
  · exact ⟨[step], Machine.run_cons_eq_some_iff.2 ⟨outbox, houtbox, rfl⟩⟩
  · exact ⟨[], rfl⟩
  · exact ⟨[], rfl⟩

/-- A projector does not write the journal. -/
theorem edrEvents_of_projects {projectors projectors' : Projectors.World Object}
    {step : Projectors.Label Object} (hprojects : Projects step)
    (hn : projectors.next eventFromRow step = some projectors') :
    projectors'.db.edrEvents = projectors.db.edrEvents := by
  rcases Projectors.World.next_cases hn with ⟨row, rfl, -, -, -, -⟩ | ⟨_, _, -, -, hdb, -⟩ |
    ⟨_, _, _, _, -, -, -, -, -, hdb, -⟩ | ⟨_, _, _, _, -, -, -, -, hdb, -⟩ |
    ⟨_, _, -, -, -, -, -, hdb, -⟩ | ⟨_, rfl⟩
  · cases hprojects
  · rw [hdb]
  · rw [hdb]
  · rw [hdb]
  · rw [hdb]
  · rfl

/-- The projectors read the journal that the sink writes. -/
theorem edrEvents_eq (h : (machine service publishers).Reachable w) :
    w.projectors.db.edrEvents = w.journal.edrDb.edrEvents := by
  refine h.invariant (I := fun w => w.projectors.db.edrEvents = w.journal.edrDb.edrEvents) rfl
    fun w l w' _ hshared hn => ?_
  rcases World.next_cases hn with ⟨call, defaults, scheduler, outbox, -, -, -, -, rfl⟩ |
    ⟨step, outbox, -, -, -, rfl⟩ | ⟨message, clock, record, journal, -, -, -, -, rfl⟩ |
    ⟨step, projectors, -, hprojects, hnext, rfl⟩
  · exact hshared
  · exact hshared
  · rfl
  · exact (edrEvents_of_projects hprojects hnext).trans hshared

/-- **What a step is to the projectors**: nothing, a row that arrives, or a step of theirs. -/
theorem projectors_of_next {l : Label Payload} (h : (machine service publishers).Reachable w)
    (hn : w.next service publishers l = some w') :
    w'.projectors = w.projectors ∨
      (∃ row, w.projectors.next eventFromRow (.arrive row) = some w'.projectors) ∨
      ∃ step, l = .project step ∧ w.projectors.next eventFromRow step = some w'.projectors := by
  have hshared := edrEvents_eq h
  rcases World.next_cases hn with ⟨call, defaults, scheduler, outbox, -, -, -, -, rfl⟩ |
    ⟨step, outbox, -, -, -, rfl⟩ | ⟨message, clock, record, journal, -, -, -, hexecute, rfl⟩ |
    ⟨step, projectors, rfl, -, hnext, rfl⟩
  · exact Or.inl rfl
  · exact Or.inl rfl
  · rcases Journal.execute_cases hexecute with rfl | ⟨_, _, row, -, -, hfresh, hrows⟩
    · refine Or.inl ?_
      simp only [World.store, ← hshared]
    · -- the row that is stored arrives
      have hinsert : w.projectors.db.edrEvents.insert? row.toEdrRow =
          some journal.edrDb.edrEvents := by
        rw [hshared, Table.insert?_eq_some_iff]
        constructor
        · rw [Table.find?_eq_none_iff] at hfresh ⊢
          intro old hold
          obtain ⟨event, hevent, rfl⟩ := List.mem_map.1 hold
          exact hfresh event hevent
        · simp only [Journal.edrDb, hrows, List.map_append, List.map_singleton]
      exact Or.inr (Or.inl ⟨row.toEdrRow, congrArg (Option.map _) hinsert⟩)
  · exact Or.inr (Or.inr ⟨step, rfl, hnext⟩)

/-- The projectors are in a state that they reach on their own, rows arriving in the journal. -/
theorem projectors_reachable (h : (machine service publishers).Reachable w) :
    (Projectors.machine eventFromRow).Reachable w.projectors := by
  refine Machine.Reachable.part World.projectors Machine.Reachable.start
    (fun w l w' hw _ hn => ?_) h
  rcases projectors_of_next hw hn with hsame | ⟨row, hnext⟩ | ⟨step, -, hnext⟩
  · exact ⟨[], congrArg some hsame.symm⟩
  · exact ⟨[.arrive row], Machine.run_cons_eq_some_iff.2 ⟨_, hnext, rfl⟩⟩
  · exact ⟨[step], Machine.run_cons_eq_some_iff.2 ⟨_, hnext, rfl⟩⟩

end Pipeline

end ScheduledJobs
