/-
**What it means that a service is ready.**

The two API processes answer whether they are ready.  Each asks its own database how many rows wait
and since when the oldest of them does, and compares the age of that one with a threshold; a
database that does not answer, a connector that does not run or a dead-letter queue that grows makes
the answer `degraded`.  Here the answer is related to the state of the whole pipeline.

Main definitions:

* `HealthService.check` — **the checks, and the answer**;
* `Pipeline.World.schedulerHealth`, `Pipeline.World.visibilityHealth` — what the two processes
  answer in a state of the pipeline.

Main results:

* `HealthService.check_healthy_iff` — **when a service is ready**;
* `Pipeline.stages_of_ready` — **where the events are when both processes are ready**;
* `Pipeline.leads_ready` — **a pipeline that is degraded can become ready**.
-/

import ScheduledJobs.PipelineProgress

set_option relaxedAutoImplicit false
set_option autoImplicit false

namespace ScheduledJobs

/-! ### One queue -/

/-- `json_build_object('count', count(*), 'oldest', min(…))`. -/
structure QueueValue where
  count : ℕ
  oldest : Option Datetime
  deriving DecidableEq, Repr

/-- The value of a query, from the times of the rows it selects. -/
def queueValue (times : List Datetime) : QueueValue where
  count := times.length
  oldest := times.min?

/-- How long the oldest row has waited. -/
def QueueValue.age (value : QueueValue) (now : Datetime) : Timedelta :=
  match value.oldest with
  | some oldest => max 0 (now - oldest)
  | none => 0

/-- What is reported of a queue. -/
structure QueueReport extends QueueValue where
  /-- `ageSeconds`, before it is rounded. -/
  age : Timedelta
  thresholdSeconds : ℤ
  healthy : Bool
  deriving DecidableEq, Repr

/-- `evaluate_queue`, at the time it reads. -/
def evaluateQueue (value : QueueValue) (thresholdSeconds : ℤ) (now : Datetime) : QueueReport :=
  { value with
    age := value.age now
    thresholdSeconds := thresholdSeconds
    healthy := decide (value.age now ≤ seconds thresholdSeconds) }

/-- **A queue is healthy exactly when nothing in it is older than the threshold.** -/
theorem healthy_queueValue_iff (thresholdSeconds : ℤ) (h : 0 ≤ thresholdSeconds)
    (times : List Datetime) (now : Datetime) :
    (evaluateQueue (queueValue times) thresholdSeconds now).healthy = true ↔
      ∀ t ∈ times, now - t ≤ seconds thresholdSeconds := by
  have hseconds : 0 ≤ seconds thresholdSeconds := Int.mul_nonneg h (by decide)
  refine decide_eq_true_iff.trans ?_
  unfold QueueValue.age queueValue
  cases holdest : times.min? with
  | none =>
      rw [List.min?_eq_none_iff] at holdest
      subst holdest
      exact iff_of_true hseconds (List.forall_mem_nil _)
  | some oldest =>
      obtain ⟨hmem, hle⟩ := List.min?_eq_some_iff.1 holdest
      simp only [max_le_iff, hseconds, true_and]
      constructor
      · intro hage t ht
        exact (Int.sub_le_sub_left (hle t ht) now).trans hage
      · exact fun hall => hall oldest hmem

/-! ### The checks -/

/-- What the status of a connector says: the states of the connector and of its tasks. -/
structure ConnectorStatus where
  state : Option String := none
  tasks : List (Option String) := []
  deriving DecidableEq, Repr

def ConnectorStatus.running (status : ConnectorStatus) : Bool :=
  status.state = some "RUNNING" && status.tasks.all (· = some "RUNNING")

/-- The value of a check.  A check that raises is `False`. -/
inductive CheckValue
  | raised
  | answered
  | queue (report : QueueReport)
  | connector (status : ConnectorStatus) (healthy : Bool)
  | dlq (growth growthLimit : ℤ) (healthy : Bool)
  deriving DecidableEq, Repr

/-- The value is not `False`, and does not say that it is unhealthy. -/
def CheckValue.passes : CheckValue → Bool
  | raised => false
  | answered => true
  | queue report => report.healthy
  | connector _ healthy => healthy
  | dlq _ _ healthy => healthy

/-- What is answered to a query of a queue, and when it is evaluated. -/
structure QueueAnswer where
  value : Option QueueValue
  now : Datetime

/-- What the sessions of the scheduler's database answer. -/
structure SchedulerAnswers where
  alive : Bool
  dueJobs : QueueAnswer
  outbox : QueueAnswer

/-- What the sessions of the EDR database answer. -/
structure EdrAnswers where
  alive : Bool
  projection : QueueAnswer

/-- What a check returns. -/
structure Health where
  healthy : Bool
  status : String
  checks : List (String × CheckValue)

/-- The thresholds of a `HealthService`. -/
structure HealthService where
  oldestDueSeconds : ℤ := 120
  oldestOutboxSeconds : ℤ := 60
  oldestUnprojectedSeconds : ℤ := 60
  dlqGrowthLimit : ℤ := 0
  deriving DecidableEq, Repr

namespace HealthService

/-- `_query`. -/
def query (alive : Bool) : CheckValue := if alive then .answered else .raised

/-- `_queue`. -/
def queue (answer : QueueAnswer) (thresholdSeconds : ℤ) : CheckValue :=
  match answer.value with
  | some value => .queue (evaluateQueue value thresholdSeconds answer.now)
  | none => .raised

/-- `_dependency`. -/
def dependency : Option ConnectorStatus → CheckValue
  | some status => .connector status status.running
  | none => .raised

/-- `_dlq`. -/
def dlq (service : HealthService) : Option ℤ → CheckValue
  | some growth => .dlq growth service.dlqGrowthLimit (decide (growth ≤ service.dlqGrowthLimit))
  | none => .raised

/-- **`check`.**  What is not configured is not checked. -/
def check (service : HealthService) (scheduler : Option SchedulerAnswers) (edr : Option EdrAnswers)
    (connectorStatus : Option (Option ConnectorStatus)) (dlqGrowth : Option (Option ℤ)) : Health :=
  let ofScheduler := scheduler.elim [] fun answers =>
    [("schedulerDatabase", query answers.alive),
      ("dueJobs", queue answers.dueJobs service.oldestDueSeconds),
      ("outbox", queue answers.outbox service.oldestOutboxSeconds)]
  let ofEdr := edr.elim [] fun answers =>
    [("edrDatabase", query answers.alive),
      ("projection", queue answers.projection service.oldestUnprojectedSeconds)]
  let ofConnector := connectorStatus.elim [] fun status => [("connector", dependency status)]
  let ofDlq := dlqGrowth.elim [] fun growth => [("dlq", service.dlq growth)]
  let checks := ofScheduler ++ ofEdr ++ ofConnector ++ ofDlq
  let healthy := checks.all fun check => check.2.passes
  { healthy := healthy
    status := if healthy then "ready" else "degraded"
    checks := checks }

/-- A queue whose database answers, and in which nothing waits too long. -/
def Timely (answer : QueueAnswer) (thresholdSeconds : ℤ) : Prop :=
  ∃ value, answer.value = some value ∧
    (evaluateQueue value thresholdSeconds answer.now).healthy = true

theorem passes_queue_iff {answer : QueueAnswer} {thresholdSeconds : ℤ} :
    (queue answer thresholdSeconds).passes = true ↔ Timely answer thresholdSeconds := by
  unfold queue Timely
  cases answer.value with
  | none => simp [CheckValue.passes]
  | some value => simp [CheckValue.passes]

theorem passes_query_iff {alive : Bool} : (query alive).passes = true ↔ alive = true := by
  cases alive <;> simp [query, CheckValue.passes]

/-- **A service is ready exactly when everything it is configured with answers and is in time.** -/
theorem check_healthy_iff (service : HealthService) (scheduler : Option SchedulerAnswers)
    (edr : Option EdrAnswers) (connectorStatus : Option (Option ConnectorStatus))
    (dlqGrowth : Option (Option ℤ)) :
    (service.check scheduler edr connectorStatus dlqGrowth).healthy = true ↔
      (∀ answers ∈ scheduler, answers.alive = true ∧
        Timely answers.dueJobs service.oldestDueSeconds ∧
          Timely answers.outbox service.oldestOutboxSeconds) ∧
      (∀ answers ∈ edr, answers.alive = true ∧
        Timely answers.projection service.oldestUnprojectedSeconds) ∧
      (∀ answer ∈ connectorStatus, ∃ status, answer = some status ∧ status.running = true) ∧
      ∀ answer ∈ dlqGrowth, ∃ growth, answer = some growth ∧ growth ≤ service.dlqGrowthLimit := by
  have hconnector : ∀ answer : Option ConnectorStatus, (dependency answer).passes = true ↔
      ∃ status, answer = some status ∧ status.running = true := by
    intro answer
    cases answer <;> simp [dependency, CheckValue.passes]
  have hdlq : ∀ answer : Option ℤ, (service.dlq answer).passes = true ↔
      ∃ growth, answer = some growth ∧ growth ≤ service.dlqGrowthLimit := by
    intro answer
    cases answer <;> simp [dlq, CheckValue.passes]
  simp only [check, List.all_append, Bool.and_eq_true, and_assoc]
  refine and_congr ?_ (and_congr ?_ (and_congr ?_ ?_))
  · cases scheduler with
    | none => simp
    | some answers => simp [passes_queue_iff, passes_query_iff]
  · cases edr with
    | none => simp
    | some answers => simp [passes_queue_iff, passes_query_iff]
  · cases connectorStatus with
    | none => simp
    | some answer => simp [hconnector]
  · cases dlqGrowth with
    | none => simp
    | some answer => simp [hdlq]

end HealthService

/-! ### The two processes -/

/-- The queue of jobs that are due. -/
def Db.dueJobs {Payload : Type} (db : Db Payload) (clock : Datetime) : QueueValue :=
  queueValue ((db.due [] clock).map JobRow.availableAt)

/-- The queue of rows that are not published. -/
def Outbox.World.queue (w : Outbox.World) : QueueValue :=
  queueValue (w.unpublished.map Outbox.Entry.createdAt)

/-- The queue of journal rows that are not projected. -/
def EdrDb.queue {Payload : Type} (db : EdrDb Payload) : QueueValue :=
  queueValue (db.pending.map EdrRow.persistedAt)

namespace Pipeline

variable {Payload : Type} {w : World Payload}

/-- The times of a check of the scheduler: the one at which the due jobs are selected, and those at
which the answers are evaluated. -/
structure SchedulerTimes where
  clock : Datetime
  dueJobs : Datetime
  outbox : Datetime

/-- What the process of the scheduler answers.  It is configured with its database alone. -/
def World.schedulerHealth (w : World Payload) (times : SchedulerTimes) : Health :=
  ({} : HealthService).check
    (some ⟨true, ⟨some (w.scheduler.db.dueJobs times.clock), times.dueJobs⟩,
      ⟨some w.outbox.queue, times.outbox⟩⟩) none none none

/-- What the process of the reader answers. -/
def World.visibilityHealth (w : World Payload) (now : Datetime) : Health :=
  ({} : HealthService).check none (some ⟨true, ⟨some w.projectors.db.queue, now⟩⟩) none none

/-- **The scheduler is ready exactly when no job is overdue by more than two minutes, and no row of
the outbox is older than one.** -/
theorem schedulerHealth_iff (times : SchedulerTimes) :
    (w.schedulerHealth times).healthy = true ↔
      (∀ row ∈ w.scheduler.db.due [] times.clock, times.dueJobs - row.availableAt ≤ seconds 120) ∧
      ∀ entry ∈ w.outbox.unpublished, times.outbox - entry.createdAt ≤ seconds 60 := by
  have hdue := healthy_queueValue_iff 120 (by omega)
    ((w.scheduler.db.due [] times.clock).map JobRow.availableAt) times.dueJobs
  have houtbox := healthy_queueValue_iff 60 (by omega)
    (w.outbox.unpublished.map Outbox.Entry.createdAt) times.outbox
  rw [List.forall_mem_map] at hdue houtbox
  rw [← hdue, ← houtbox]
  simp [World.schedulerHealth, HealthService.check_healthy_iff, HealthService.Timely, Db.dueJobs,
    Outbox.World.queue]

/-- **The reader is ready exactly when no row waits for more than a minute to be projected.** -/
theorem visibilityHealth_iff (now : Datetime) :
    (w.visibilityHealth now).healthy = true ↔
      ∀ row ∈ w.projectors.db.pending, now - row.persistedAt ≤ seconds 60 := by
  have hpending := healthy_queueValue_iff 60 (by omega)
    (w.projectors.db.pending.map EdrRow.persistedAt) now
  rw [List.forall_mem_map] at hpending
  rw [← hpending]
  simp [World.visibilityHealth, HealthService.check_healthy_iff, HealthService.Timely, EdrDb.queue]

variable [DecidableEq Payload] {service : SchedulerService} {publishers : ℕ → OutboxPublisher}
  {batchSize : ℕ}

/-- **When both processes are ready, every event that was committed is on its way**: it is with the
broker, it waits for no more than a minute in the outbox or in the journal, or it is projected. -/
theorem stages_of_ready (h : (machine service publishers).Reachable w) {times : SchedulerTimes}
    {now : Datetime} (hscheduler : (w.schedulerHealth times).healthy = true)
    (hvisibility : (w.visibilityHealth now).healthy = true) :
    ∀ event ∈ w.scheduler.db.events,
      (∃ entry ∈ w.outbox.unpublished, entry.eventId = event.eventId ∧
        times.outbox - entry.createdAt ≤ seconds 60) ∨
      (∃ coordinate, outgoing service event coordinate ∈ w.outbox.acknowledged ∧
        outgoing service event coordinate ∉ w.consumed) ∨
      ∃ row ∈ w.projectors.db.edrEvents.rows, row.Records event ∧
        (now - row.persistedAt ≤ seconds 60 ∨ w.projectors.db.Marked row) := by
  intro event hevent
  obtain ⟨entry, hentry, hid, hmessages⟩ := exists_entry h hevent
  by_cases hpublished : entry.publishedAt = none
  · have hwaits := Outbox.mem_unpublished.2 ⟨hentry, hpublished⟩
    exact Or.inl ⟨entry, hwaits, hid, ((schedulerHealth_iff times).1 hscheduler).2 entry hwaits⟩
  · right
    have hsound := Outbox.sound_of_reachable (outbox_reachable h)
    obtain ⟨coordinate, -, -, hack⟩ :=
      (hsound.entries _ entry (Table.find?_of_mem hentry)).acknowledged hpublished
    rw [hmessages] at hack
    by_cases hconsumed : outgoing service event coordinate ∈ w.consumed
    · right
      obtain ⟨stored, hstored, hstoredId⟩ :=
        (linked_of_reachable h).stored event hevent coordinate hconsumed
      have hdelivered : event.eventId ∈ w.projectors.db.eventIds := by
        rw [EdrDb.eventIds, edrEvents_eq h]
        exact List.mem_map.2 ⟨stored.toEdrRow, List.mem_map_of_mem hstored, hstoredId⟩
      obtain ⟨row, hrow, hrecord, -⟩ := exists_row_of_delivered h
        (List.mem_filter.2 ⟨hevent, decide_eq_true rfl⟩) hdelivered
      refine ⟨row, hrow, hrecord, ?_⟩
      by_cases hmarked : w.projectors.db.Marked row
      · exact Or.inr hmarked
      · have hpending := EdrDb.mem_pending.2 ⟨hrow, hmarked⟩
        exact Or.inl ((visibilityHealth_iff now).1 hvisibility row hpending)
    · exact Or.inl ⟨coordinate, hack, hconsumed⟩

/-- A job has succeeded, and a publisher has got its first event acknowledged. -/
theorem stages_of_ready_acknowledgedRun :
    ∃ w : World String, (machine defaultService fun _ => onePublisher).Reachable w ∧
      w.scheduler.db.events.length = 5 ∧
      ∀ event ∈ w.scheduler.db.events,
        (∃ entry ∈ w.outbox.unpublished, entry.eventId = event.eventId ∧
          seconds 30 - entry.createdAt ≤ seconds 60) ∨
        (∃ coordinate, outgoing defaultService event coordinate ∈ w.outbox.acknowledged ∧
          outgoing defaultService event coordinate ∉ w.consumed) ∨
        ∃ row ∈ w.projectors.db.edrEvents.rows, row.Records event ∧
          (seconds 30 - row.persistedAt ≤ seconds 60 ∨ w.projectors.db.Marked row) := by
  have hrun : ((machine defaultService fun _ => onePublisher).run
      (machine defaultService fun _ => onePublisher).start acknowledgedRun).map
        (fun w => (w.scheduler.db.events.length,
          (w.schedulerHealth ⟨seconds 30, seconds 30, seconds 30⟩).healthy,
          (w.visibilityHealth (seconds 30)).healthy)) = some (5, true, true) := by decide +kernel
  obtain ⟨w, hw, hvalues⟩ := Option.map_eq_some_iff.1 hrun
  simp only [Prod.mk.injEq] at hvalues
  obtain ⟨hevents, hscheduler, hvisibility⟩ := hvalues
  have hreachable := Machine.Reachable.of_run Machine.Reachable.start acknowledgedRun hw
  exact ⟨w, hreachable, hevents, stages_of_ready hreachable hscheduler hvisibility⟩

/-- **A pipeline that is degraded can become ready**: from whatever state, and then at whatever time
the answers are evaluated.  On the way the projectors read what the program reads, if the events
leave room in the calendar and fit the columns. -/
theorem leads_ready (h : (machine service publishers).Reachable w)
    (hpublishers : ∀ n, 0 < (publishers n).batchSize) (hprojectors : 0 < batchSize)
    (hroom : w.Room) :
    ∃ w', (machine service publishers).Leads (Recovers batchSize) w w' ∧
      (∀ runtime (columns : Mixed.Columns), columns.TakesPublished → w.Readable columns →
        (machine service publishers).Leads
          (fun t l => Recovers batchSize t l ∧ t.ReadsInstants runtime columns) w w') ∧
      w'.scheduler = w.scheduler ∧ (∀ now, (w'.visibilityHealth now).healthy = true) ∧
      ∀ times, (w'.schedulerHealth times).healthy = true ↔
        ∀ row ∈ w.scheduler.db.due [] times.clock,
          times.dueJobs - row.availableAt ≤ seconds 120 := by
  obtain ⟨w', hleads, hscheduler, hdrained, -⟩ := leads_drained h hpublishers hprojectors hroom
  refine ⟨w', hleads, fun runtime _ => leads_readsInstants h hleads runtime, hscheduler,
    fun now => (visibilityHealth_iff now).2 ?_, fun times => ?_⟩
  · rw [hdrained.pending]
    exact List.forall_mem_nil _
  · rw [schedulerHealth_iff, hscheduler, and_iff_left]
    intro entry hentry
    obtain ⟨hmem, hnone⟩ := Outbox.mem_unpublished.1 hentry
    exact absurd hnone (hdrained.published entry hmem)

/-- The events of a job that has succeeded are published and projected. -/
theorem leads_ready_acknowledgedRun :
    ∃ w w' : World String, (machine defaultService fun _ => onePublisher).Reachable w ∧
      (machine defaultService fun _ => onePublisher).Leads (fun t l => Recovers 500 t l ∧
        t.ReadsInstants Mixed.utcRuntime Mixed.postgres) w w' ∧
      w'.scheduler = w.scheduler ∧ (∀ now, (w'.visibilityHealth now).healthy = true) ∧
      ∀ times, (w'.schedulerHealth times).healthy = true ↔
        ∀ row ∈ w.scheduler.db.due [] times.clock,
          times.dueJobs - row.availableAt ≤ seconds 120 := by
  obtain ⟨w, row, hw, hroom, -, -, -, -, hreadable⟩ := exists_succeeded
  obtain ⟨w', -, hleads, hready⟩ :=
    leads_ready hw (fun _ => by decide) (Nat.zero_lt_succ 499) hroom
  exact ⟨w, w', hw, hleads Mixed.utcRuntime Mixed.postgres takesPublished_postgres hreadable,
    hready⟩

end Pipeline

end ScheduledJobs
