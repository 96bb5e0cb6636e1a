/-
**What the projector reads from the outbox.**

The outbox holds canonical payloads, and the projection of a job is made from these: each is
decoded, and the decoded events are reduced.  The events of the scheduler have none of what the
wire format drops, so this is the reduction of the events themselves.

Main definitions:

* `WireInv` — the events of a job survive the wire;
* `Db.payloads`, `foldPayloads` — **the projection of a job's outbox**.

Main results:

* `WireInv.of_reachable` — the invariant in every reachable state;
* `foldPayloads_payloads` — **the projection of the outbox is the reduction of its events**.
-/

import ScheduledJobs.QueueInvariant

set_option relaxedAutoImplicit false
set_option autoImplicit false

namespace ScheduledJobs

variable {Payload : Type}

/-! ### Events that survive the wire -/

/-- The event has none of what the wire format drops. -/
theorem Event.wired_eq {event : Event} (hreference : event.schedulerReference = none)
    (hpoll : event.pollTime = none) (htype : event.jobType ≠ "") : event.wired = event := by
  obtain ⟨⟩ := event
  simp only at hreference hpoll htype
  subst hreference hpoll
  simp [Event.wired, orElseText, htype]

/-- The scheduler's events survive the wire: they carry the job type of the row, which is not
empty. -/
structure WireInv (v : JobView Payload) : Prop where
  events : ∀ event ∈ v.events, event.wired = event
  row : ∀ row, v.row = some row → row.jobType ≠ ""

/-- Events of the row's type enter the outbox. -/
theorem WireInv.emit {v v' : JobView Payload} {row row' : JobRow Payload} {events : List Event}
    (h : WireInv v) (hrow : v.row = some row) (hrow' : v'.row = some row')
    (htype : row'.jobType = row.jobType) (hevents : v'.events = v.events ++ events)
    (hwired : ∀ event ∈ events, event.schedulerReference = none ∧ event.pollTime = none ∧
      event.jobType = row.jobType) : WireInv v' := by
  have hne := h.row row hrow
  constructor
  · intro event hevent
    rw [hevents] at hevent
    rcases List.mem_append.1 hevent with hevent | hevent
    · exact h.events event hevent
    · obtain ⟨hreference, hpoll, hjobType⟩ := hwired event hevent
      exact Event.wired_eq hreference hpoll (hjobType ▸ hne)
  · intro row'' hrow''
    obtain rfl := Option.some_inj.1 (hrow'.symm.trans hrow'')
    exact htype ▸ hne

/-- The events of a failure carry the job type of the claim. -/
theorem wired_failureEvents {service : SchedulerService} {job : ClaimedJob Payload}
    {failure : HandlerError} {clock : ClockReads} {events : List Event}
    (h : Drafted (service.failureEvents job failure clock) events) :
    ∀ event ∈ events, event.schedulerReference = none ∧ event.pollTime = none ∧
      event.jobType = job.jobType := by
  obtain ⟨eventId, rest, rfl, hrest⟩ := drafted_failureEvents h
  rw [List.forall_mem_cons]
  refine ⟨⟨rfl, rfl, rfl⟩, ?_⟩
  rcases hrest with ⟨-, -, requestedId, acknowledgedId, rfl⟩ | ⟨-, -, exhaustedId, rfl⟩ |
    ⟨-, -, rfl⟩
  · simp [ClaimedJob.retryRequestedEvent, ClaimedJob.retryAcknowledgedEvent, ClaimedJob.event]
  · simp [ClaimedJob.exhaustedEvent, ClaimedJob.event]
  · simp

theorem WireInv.step {service : SchedulerService} {clock : ClockReads} {op : Operation Payload}
    {v v' : JobView Payload} (hinv : QueueInv v) (h : WireInv v)
    (hs : JobStep service clock op v v') : WireInv v' := by
  cases hs with
  | idle => exact h
  | @submitted value _ events hrow hevents =>
      obtain ⟨createdId, requestedId, rfl⟩ := drafted_pair hevents
      constructor
      · intro event hevent
        rcases List.mem_append.1 hevent with hevent | hevent
        · exact h.events event hevent
        · simp only [List.mem_cons, List.not_mem_nil, or_false] at hevent
          rcases hevent with rfl | rfl
          · exact Event.wired_eq rfl rfl value.required.2.2
          · exact Event.wired_eq rfl rfl value.required.2.2
      · intro row hrow'
        obtain rfl := Option.some_inj.1 hrow'
        exact value.required.2.2
  | @claimed owner limit locked _ row token eventId hrow hstatus hdue hfresh =>
      refine h.emit hrow rfl rfl rfl ?_
      intro event hevent
      obtain rfl := List.mem_singleton.1 hevent
      exact ⟨rfl, rfl, rfl⟩
  | @started job _ row eventId hjob hrow hcur =>
      refine h.emit hrow rfl rfl rfl ?_
      intro event hevent
      obtain rfl := List.mem_singleton.1 hevent
      exact ⟨rfl, rfl, ((hinv.present row hrow).claims job hjob).jobType⟩
  | @heartbeat job _ row hjob hrow hcur =>
      exact h.emit hrow rfl rfl (List.append_nil _).symm (by simp)
  | @succeeded job summary _ row eventId hjob hrow hcur =>
      refine h.emit hrow rfl rfl rfl ?_
      intro event hevent
      obtain rfl := List.mem_singleton.1 hevent
      exact ⟨rfl, rfl, ((hinv.present row hrow).claims job hjob).jobType⟩
  | @failed job failure _ row events hjob hrow hcur hchecks hevents =>
      refine h.emit hrow rfl rfl rfl ?_
      intro event hevent
      obtain ⟨hreference, hpoll, htype⟩ := wired_failureEvents hevents event hevent
      exact ⟨hreference, hpoll, htype.trans ((hinv.present row hrow).claims job hjob).jobType⟩
  | @recovered limit locked _ row hrow hstatus hexpired =>
      exact h.emit hrow rfl rfl (List.append_nil _).symm (by simp)

/-- The events in the outbox survive the wire in every reachable state. -/
theorem WireInv.of_reachable [DecidableEq Payload] {service : SchedulerService}
    {w : World Payload} (h : (schedulerMachine service).Reachable w) (jobId : String) :
    WireInv (w.view jobId) := by
  induction h with
  | start =>
      constructor
      · intro event hevent
        cases hevent
      · intro row hrow
        cases hrow
  | step hs _ hn ih => exact ih.step (QueueInv.of_reachable hs jobId) (view_step hn jobId)

/-! ### The projection of the outbox -/

/-- The canonical payloads of a job's outbox rows, in the order in which they were inserted. -/
def Db.payloads (db : Db Payload) (jobId : String) : List String :=
  (db.outbox.rows.filter fun row => row.messageKey = jobId).map fun row =>
    row.event.canonicalPayload

/-- The projection of canonical payloads: each is decoded, and the events are reduced. -/
def foldPayloads (payloads : List String) : Option (Option JobVisibility) := do
  let events ← payloads.mapM fun payload => (eventFromWire payload).toOption
  (reduceVisibilityAll none events).toOption

theorem Db.payloads_eq (db : Db Payload) (jobId : String) :
    db.payloads jobId = (eventsOf jobId db.events).map Event.canonicalPayload := by
  rw [Db.payloads, Db.events, eventsOf, List.filter_map, List.map_map]
  rfl

/-- Payloads of one job's events that survive the wire are reduced like the events. -/
theorem foldPayloads_map {events : List Event} (jobId : String)
    (hwired : ∀ event ∈ events, event.wired = event)
    (hencodable : ∀ event ∈ events, event.Encodable)
    (hjob : ∀ event ∈ events, event.jobId = jobId) :
    foldPayloads (events.map Event.canonicalPayload) = some (reduceAll none events) := by
  have hdecode : (events.map Event.canonicalPayload).mapM
      (fun payload => (eventFromWire payload).toOption) = some events := by
    induction events with
    | nil => rfl
    | cons event events ih =>
        rw [List.forall_mem_cons] at hwired hencodable hjob
        rw [List.map_cons, List.mapM_cons, eventFromWire_canonicalPayload hencodable.1, hwired.1,
          ih hwired.2 hencodable.2 hjob.2]
        rfl
  have hreduce := reduceVisibilityAll_eq_ok jobId events hjob none (by simp)
  simp only [foldPayloads, hdecode, Option.bind_eq_bind, Option.bind_some, hreduce]
  rfl

/-- **The projection of a job's outbox** is the reduction of its events. -/
theorem foldPayloads_payloads [DecidableEq Payload] {service : SchedulerService}
    {w : World Payload} (h : (schedulerMachine service).Reachable w) (jobId : String) :
    foldPayloads (w.db.payloads jobId) = some (reduceAll none (w.view jobId).events) := by
  rw [Db.payloads_eq]
  refine foldPayloads_map jobId (WireInv.of_reachable h jobId).events ?_ ?_
  · intro event hevent
    exact Db.encodable_of_mem_events (List.mem_filter.1 hevent).1
  · intro event hevent
    exact of_decide_eq_true (List.mem_filter.1 hevent).2

end ScheduledJobs
