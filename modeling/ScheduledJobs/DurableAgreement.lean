/-
**The durable path and the in-memory engine.**

The engine derives a status at the time of the query.  The tables keep the status that was derived
at the time up to which there was data, and are searched by the recorded status, so a job that has
come due, or overdue, since its last event is shown by one and not by the other.

Main definitions:

* `Query` — a job by its id, or a search;
* `Query.Agrees` — the answers name the same jobs with the same status;
* `Query.Steady` — the condition: time has not changed what the query is to find.

Main results:

* `VisibilityConfig.derivedStatus_eq` — the derived status, by what has come over the job;
* `Query.agrees_iff` — **the answers agree exactly when the query is steady for every job**;
* `Query.not_agrees_overdue` — a search for overdue jobs finds none of them.
-/

import ScheduledJobs.DurableReader

set_option relaxedAutoImplicit false
set_option autoImplicit false

namespace ScheduledJobs

open Json

/-! ### The queries and their answers -/

/-- A query of the API. -/
inductive Query
  | job (jobId : String)
  | search (filters : SearchFilters)

/-- The jobs that are found, with their statuses. -/
def statuses (items : List JobResponse) : List (String × String) :=
  items.map fun item => (item.jobId, item.status)

namespace Query

/-- What the durable reader answers; of a job that is not found, nothing. -/
def durable (tables : ProjectionTables) : Query → Except WireError (List (String × String))
  | job jobId => .ok (statuses (DurableVisibilityReader.get tables jobId).toOption.toList)
  | search filters => (searchJobs tables filters).map statuses

/-- What the engine answers at a time. -/
def inMemory (engine : VisibilityEngine) (now : Datetime) : Query → List (String × String)
  | job jobId => statuses (engine.get jobId now).toOption.toList
  | search filters => statuses (engine.search now filters)

/-- **The answers agree**: they name the same jobs with the same status. -/
def Agrees (query : Query) (tables : ProjectionTables) (engine : VisibilityEngine)
    (now : Datetime) : Prop :=
  ∃ answers, query.durable tables = .ok answers ∧
    ∀ answer, answer ∈ answers ↔ answer ∈ query.inMemory engine now

/-- A job is asked for when it has the id, or passes the filters with the given status. -/
def Selects (query : Query) (found : JobVisibility) (status : Status) : Prop :=
  match query with
  | job jobId => found.jobId = jobId
  | search filters => filters.Admits found ∧ ∀ st ∈ filters.status, status = st

end Query

/-! ### What time makes of a status -/

/-- The job is recorded as scheduled, and its scheduled time has come. -/
def JobVisibility.Due (job : JobVisibility) (t : Datetime) : Prop :=
  job.recordedStatus = .scheduled ∧ job.scheduledAt.any fun s => s ≤ t

instance (job : JobVisibility) (t : Datetime) : Decidable (job.Due t) :=
  inferInstanceAs (Decidable (_ ∧ _))

namespace VisibilityConfig

variable {config : VisibilityConfig} {job : JobVisibility} {t t' : Datetime}

/-- Only a job that waits for its execution is overdue. -/
theorem recordedStatus_of_isOverdue (h : config.isOverdue job t = true) :
    job.recordedStatus = .scheduled ∨ job.recordedStatus = .awaitingExecution := by
  unfold isOverdue at h
  split at h
  · simpa using (Bool.and_eq_true_iff.1 (Bool.and_eq_true_iff.1 h).1).2
  · cases h

/-- **The derived status**: overdue, or awaiting its execution, or the recorded one. -/
theorem derivedStatus_eq (config : VisibilityConfig) (job : JobVisibility) (t : Datetime) :
    config.derivedStatus job t =
      if config.isOverdue job t then .overdue
      else if job.Due t then .awaitingExecution else job.recordedStatus := by
  cases hstatus : job.recordedStatus with
  | scheduled =>
      cases hscheduled : job.scheduledAt <;>
        simp [derivedStatus, isOverdue, JobVisibility.Due, hstatus, hscheduled, Status.isTerminal]
  | awaitingExecution =>
      cases hscheduled : job.scheduledAt <;>
        simp [derivedStatus, isOverdue, JobVisibility.Due, hstatus, hscheduled, Status.isTerminal]
  | _ =>
      cases hscheduled : job.scheduledAt <;>
        simp [derivedStatus, isOverdue, JobVisibility.Due, hstatus, hscheduled, Status.isTerminal]

/-- **Time has not changed the status of the job**: it is overdue at both times or at neither, and
else due at both or at neither. -/
def SameStanding (config : VisibilityConfig) (job : JobVisibility) (t t' : Datetime) : Prop :=
  (config.isOverdue job t = true ↔ config.isOverdue job t' = true) ∧
    (config.isOverdue job t = false → (job.Due t ↔ job.Due t'))

/-- The recorded status stands. -/
def Stands (config : VisibilityConfig) (job : JobVisibility) (t : Datetime) : Prop :=
  config.isOverdue job t = false ∧ ¬ job.Due t

/-- Time has given the job another status than the recorded one. -/
def HasBecome (config : VisibilityConfig) (job : JobVisibility) (t : Datetime)
    (status : Status) : Prop :=
  status = .overdue ∧ config.isOverdue job t = true ∨
    status = .awaitingExecution ∧ config.isOverdue job t = false ∧ job.Due t

/-- When a status is derived from the recorded one. -/
theorem derivedStatus_eq_recordedStatus_iff :
    config.derivedStatus job t = job.recordedStatus ↔ config.Stands job t := by
  rw [derivedStatus_eq, Stands]
  cases hoverdue : config.isOverdue job t with
  | true =>
      rcases recordedStatus_of_isOverdue hoverdue with hstatus | hstatus <;> simp [hstatus]
  | false =>
      by_cases hdue : job.Due t
      · simp [hdue, hdue.1]
      · simp [hdue]

/-- When another status is derived. -/
theorem derivedStatus_eq_iff_of_ne {status : Status} (hne : job.recordedStatus ≠ status) :
    config.derivedStatus job t = status ↔ config.HasBecome job t status := by
  rw [derivedStatus_eq, HasBecome]
  cases hoverdue : config.isOverdue job t with
  | true => simp [eq_comm]
  | false =>
      by_cases hdue : job.Due t
      · simp [hdue, eq_comm]
      · simp [hdue, hne]

/-- When the same status is derived at two times. -/
theorem derivedStatus_eq_derivedStatus_iff :
    config.derivedStatus job t' = config.derivedStatus job t ↔ config.SameStanding job t t' := by
  rw [eq_comm, derivedStatus_eq, derivedStatus_eq, SameStanding]
  cases hoverdue : config.isOverdue job t with
  | true =>
      cases hoverdue' : config.isOverdue job t' with
      | true => simp
      | false =>
          by_cases hdue : job.Due t'
          · simp [hdue]
          · rcases recordedStatus_of_isOverdue hoverdue with hstatus | hstatus <;>
              simp [hdue, hstatus]
  | false =>
      cases hoverdue' : config.isOverdue job t' with
      | true =>
          by_cases hdue : job.Due t
          · simp [hdue]
          · rcases recordedStatus_of_isOverdue hoverdue' with hstatus | hstatus <;>
              simp [hdue, hstatus]
      | false =>
          by_cases hdue : job.Due t
          · by_cases hdue' : job.Due t'
            · simp [hdue, hdue']
            · simp [hdue, hdue', hdue.1]
          · by_cases hdue' : job.Due t'
            · simp [hdue, hdue', hdue'.1]
            · simp [hdue, hdue']

end VisibilityConfig

namespace Query

/-- **The condition on a job**: of what the query asks for, time has changed nothing since the time
up to which there is data.  A search by the recorded status needs it to stand at both times; a
search by another status must not have become one that finds the job. -/
def Steady (query : Query) (now : Datetime) (found : JobVisibility) : Prop :=
  ∀ dataAsOf ∈ found.dataAsOf,
    match query with
    | job jobId =>
        found.jobId = jobId → VisibilityConfig.SameStanding {} found now dataAsOf
    | search filters => filters.Admits found →
        match filters.status with
        | none => VisibilityConfig.SameStanding {} found now dataAsOf
        | some status =>
            if found.recordedStatus = status then
              VisibilityConfig.Stands {} found now ∧ VisibilityConfig.Stands {} found dataAsOf
            else ¬ VisibilityConfig.HasBecome {} found now status

/-! ### What is answered -/

theorem mem_statuses {items : List JobResponse} {jobId text : String} :
    (jobId, text) ∈ statuses items ↔
      ∃ item ∈ items, item.jobId = jobId ∧ item.status = text := by
  simp [statuses]

/-- **What the durable reader answers.** -/
theorem exists_durable {tables : ProjectionTables} {jobs : String → Option JobVisibility}
    (h : tables.ShowsJobs jobs) (query : Query) :
    ∃ answers, query.durable tables = .ok answers ∧ ∀ jobId text, (jobId, text) ∈ answers ↔
      ∃ found, jobs jobId = some found ∧ (∃ dataAsOf ∈ found.dataAsOf,
        (VisibilityConfig.derivedStatus {} found dataAsOf).value = text) ∧
        query.Selects found found.recordedStatus := by
  cases query with
  | job wanted =>
      refine ⟨_, rfl, fun jobId text => ?_⟩
      have hget : ∀ item, item ∈ (DurableVisibilityReader.get tables wanted).toOption.toList ↔
          DurableVisibilityReader.get tables wanted = .ok item := by
        intro item
        cases DurableVisibilityReader.get tables wanted <;> simp [Except.toOption, eq_comm]
      simp only [mem_statuses, hget, h.get_eq_ok_iff, Selects]
      constructor
      · rintro ⟨item, ⟨found, hfound, dataAsOf, htime, rfl⟩, rfl, rfl⟩
        have hid : found.jobId = wanted := h.jobIds _ _ hfound
        exact ⟨found, by simpa [hid] using hfound, ⟨dataAsOf, htime, rfl⟩, hid⟩
      · rintro ⟨found, hfound, ⟨dataAsOf, htime, rfl⟩, rfl⟩
        obtain rfl : found.jobId = jobId := h.jobIds _ _ hfound
        exact ⟨_, ⟨found, hfound, dataAsOf, htime, rfl⟩, rfl, rfl⟩
  | search filters =>
      obtain ⟨items, hitems, hmem⟩ := h.exists_searchJobs filters
      refine ⟨statuses items, by rw [durable, hitems]; rfl, fun jobId text => ?_⟩
      simp only [mem_statuses, hmem, Selects]
      constructor
      · rintro ⟨item, ⟨found, hfound, ⟨dataAsOf, htime, rfl⟩, hselects⟩, rfl, rfl⟩
        exact ⟨found, hfound, ⟨dataAsOf, htime, rfl⟩, hselects⟩
      · rintro ⟨found, hfound, ⟨dataAsOf, htime, rfl⟩, hselects⟩
        obtain rfl : found.jobId = jobId := h.jobIds _ _ hfound
        exact ⟨_, ⟨found, hfound, ⟨dataAsOf, htime, rfl⟩, hselects⟩, rfl, rfl⟩

/-- **What the engine answers.** -/
theorem mem_inMemory {engine : VisibilityEngine} {query : Query} {now : Datetime}
    {jobId text : String} :
    (jobId, text) ∈ query.inMemory engine now ↔
      ∃ found, engine.jobs.find? jobId = some found ∧
        (engine.config.derivedStatus found now).value = text ∧
        query.Selects found (engine.config.derivedStatus found now) := by
  cases query with
  | job wanted =>
      have hget : ∀ item, item ∈ (engine.get wanted now).toOption.toList ↔
          engine.get wanted now = .ok item := by
        intro item
        cases engine.get wanted now <;> simp [Except.toOption, eq_comm]
      simp only [inMemory, mem_statuses, hget, VisibilityEngine.get_eq_ok_iff, Selects]
      constructor
      · rintro ⟨item, ⟨found, hfound, rfl⟩, rfl, rfl⟩
        have hid : found.jobId = wanted := Table.key_of_find? hfound
        exact ⟨found, by simpa [hid] using hfound, rfl, hid⟩
      · rintro ⟨found, hfound, rfl, rfl⟩
        obtain rfl : found.jobId = jobId := Table.key_of_find? hfound
        exact ⟨_, ⟨found, hfound, rfl⟩, rfl, rfl⟩
  | search filters =>
      simp only [inMemory, mem_statuses, VisibilityEngine.mem_search_iff, Selects]
      constructor
      · rintro ⟨item, ⟨found, hfound, rfl, hselects⟩, rfl, rfl⟩
        exact ⟨found, hfound, rfl, hselects⟩
      · rintro ⟨found, hfound, rfl, hselects⟩
        obtain rfl : found.jobId = jobId := Table.key_of_find? hfound
        exact ⟨_, ⟨found, hfound, rfl, hselects⟩, rfl, rfl⟩

/-! ### The agreement -/

/-- Two answers about a job agree when both or neither are given, with the same status. -/
theorem forall_answer_iff {status status' : Status} {p q : Prop} :
    (∀ text, status.value = text ∧ p ↔ status'.value = text ∧ q) ↔
      (p ↔ q) ∧ (p → status = status') := by
  constructor
  · intro h
    have hq : p → status'.value = status.value ∧ q := fun hp => (h _).1 ⟨rfl, hp⟩
    have hp : q → status.value = status'.value ∧ p := fun hq => (h _).2 ⟨rfl, hq⟩
    exact ⟨⟨fun h => (hq h).2, fun h => (hp h).2⟩,
      fun h => Status.value_injective (hq h).1.symm⟩
  · rintro ⟨hpq, heq⟩ text
    constructor
    · rintro ⟨rfl, hp⟩
      exact ⟨congrArg Status.value (heq hp).symm, hpq.1 hp⟩
    · rintro ⟨rfl, hq⟩
      exact ⟨congrArg Status.value (heq (hpq.2 hq)), hpq.2 hq⟩

/-- The condition says that the two answers about a job agree. -/
theorem steady_iff {query : Query} {now dataAsOf : Datetime} {found : JobVisibility}
    (htime : found.dataAsOf = some dataAsOf) :
    query.Steady now found ↔ ∀ text,
      (VisibilityConfig.derivedStatus {} found dataAsOf).value = text ∧
          query.Selects found found.recordedStatus ↔
        (VisibilityConfig.derivedStatus {} found now).value = text ∧
          query.Selects found (VisibilityConfig.derivedStatus {} found now) := by
  rw [forall_answer_iff]
  simp only [Steady, htime, Option.mem_some_iff, forall_eq']
  cases query with
  | job wanted =>
      simp only [Selects, iff_self, true_and,
        VisibilityConfig.derivedStatus_eq_derivedStatus_iff]
  | search filters =>
      simp only [Selects]
      cases filters.status with
      | none =>
          simp only [Option.not_mem_none, false_implies, implies_true, and_true, iff_self,
            true_and, VisibilityConfig.derivedStatus_eq_derivedStatus_iff]
      | some status =>
          simp only [Option.mem_some_iff, forall_eq']
          by_cases hstatus : found.recordedStatus = status
          · subst hstatus
            simp only [if_true, ← VisibilityConfig.derivedStatus_eq_recordedStatus_iff, and_true]
            constructor
            · intro h
              exact ⟨⟨fun hadmits => ⟨hadmits, (h hadmits).1⟩, And.left⟩,
                fun hadmits => (h hadmits).2.trans (h hadmits).1.symm⟩
            · rintro ⟨hiff, heq⟩ hadmits
              have hnow := (hiff.1 hadmits).2
              exact ⟨hnow, (heq hadmits).trans hnow⟩
          · simp only [hstatus, if_false, and_false, false_iff, false_implies, and_true, not_and,
              VisibilityConfig.derivedStatus_eq_iff_of_ne hstatus]

theorem selects_relabel (query : Query) (found : JobVisibility) (status : Status)
    (jobType : String) (decisions : List ProjectionDecision) :
    query.Selects (found.relabel jobType decisions) status ↔ query.Selects found status := by
  cases query <;> rfl

/-- **The answers from tables and from an engine that have the same projections**, but for their
labels. -/
theorem agrees_iff_of_showsJobs {tables : ProjectionTables} {engine : VisibilityEngine}
    {jobs : String → Option JobVisibility} (hshows : tables.ShowsJobs jobs)
    (hconfig : engine.config = {})
    (hsame : ∀ jobId, (jobs jobId).map JobVisibility.unlabelled =
      (engine.jobs.find? jobId).map JobVisibility.unlabelled)
    (htime : ∀ found ∈ engine.jobs.rows, found.dataAsOf.isSome) (query : Query) (now : Datetime) :
    query.Agrees tables engine now ↔ ∀ found ∈ engine.jobs.rows, query.Steady now found := by
  obtain ⟨answers, hdurable, hanswers⟩ := exists_durable hshows query
  -- the answers about a job the engine knows
  have hjob : ∀ found ∈ engine.jobs.rows, query.Steady now found ↔ ∀ text,
      (found.jobId, text) ∈ answers ↔ (found.jobId, text) ∈ query.inMemory engine now := by
    intro found hfound
    have hfind : engine.jobs.find? found.jobId = some found := Table.find?_of_mem hfound
    have hstored := hsame found.jobId
    rw [hfind, Option.map_some, Option.map_eq_some_iff] at hstored
    obtain ⟨stored, hstored, hlabels⟩ := hstored
    rw [JobVisibility.eq_relabel hlabels] at hstored
    obtain ⟨dataAsOf, hdataAsOf⟩ := Option.isSome_iff_exists.1 (htime found hfound)
    rw [steady_iff hdataAsOf]
    refine forall_congr' fun text => ?_
    rw [hanswers, mem_inMemory, hfind, hstored, hconfig]
    simp only [Option.some.injEq, exists_eq_left', selects_relabel]
    refine iff_congr (and_congr_left fun _ => ?_) Iff.rfl
    change _ ↔ ∃ t ∈ found.dataAsOf, (VisibilityConfig.derivedStatus {} found t).value = text
    rw [hdataAsOf]
    simp
  constructor
  · rintro ⟨answers', hdurable', hagrees⟩ found hfound
    obtain rfl : answers = answers' := Except.ok.inj (hdurable.symm.trans hdurable')
    exact (hjob found hfound).2 fun text => hagrees _
  · intro hsteady
    refine ⟨answers, hdurable, fun ⟨jobId, text⟩ => ?_⟩
    cases hfind : engine.jobs.find? jobId with
    | none =>
        have hnone : jobs jobId = none := by
          have hmap := hsame jobId
          rwa [hfind, Option.map_none, Option.map_eq_none_iff] at hmap
        rw [hanswers, mem_inMemory, hfind, hnone]
        simp
    | some found =>
        obtain rfl : found.jobId = jobId := Table.key_of_find? hfind
        have hfound := Table.mem_of_find? hfind
        exact (hjob found hfound).1 (hsteady found hfound) text

/-- The time up to which there is data is that of an event. -/
theorem dataAsOf_reduceAll {events : List Event} {found : JobVisibility}
    (h : reduceAll none events = some found) : found.dataAsOf.isSome := by
  refine @forall_reduceAll (fun found => found.dataAsOf.isSome) events ?_ none
    (fun _ hnone => nomatch hnone) found h
  exact fun event _ current _ => latest_some_isSome _ event.ingestionTime

/-- **When the durable path and the engine agree**: once one worker has projected the journal of
some events, whatever the batches and the aborted transactions, a query is answered as by an engine
that has applied the same events if and only if it is steady for every job. -/
theorem agrees_iff (w : Projectors.World Object) (events : List Event) (engine : VisibilityEngine)
    (query : Query) (now : Datetime)
    (hreach : (Projectors.machine eventFromRow).Reach (Projectors.Alone eventFromRow) w)
    (hpending : w.db.pending = [])
    (hrecords : List.Forall₂ EdrRow.Records w.db.ordered events)
    (henc : ∀ event ∈ events, event.Encodable) (hwire : ∀ event ∈ events, event.OnWire)
    (happly : ({} : VisibilityEngine).applyAll events = .ok engine) :
    query.Agrees w.db.tables engine now ↔ ∀ found ∈ engine.jobs.rows, query.Steady now found := by
  obtain ⟨engine', happly', hconfig, hjobs⟩ :=
    @VisibilityEngine.applyAll_ok {} events (nodup_of_records hrecords) fun _ _ => List.not_mem_nil
  obtain rfl : engine = engine' := Except.ok.inj (happly.symm.trans happly')
  refine agrees_iff_of_showsJobs (Projectors.showsJobs_of_reach hreach hpending hrecords henc)
    hconfig (fun jobId => ?_) (fun found hfound => ?_) query now
  · have hwired : (eventsOf jobId events).map Event.wired = (eventsOf jobId events).map
        fun event => { event with jobType := orElseText event.jobType "GENERIC" } :=
      List.map_congr_left fun event hevent =>
        (hwire event (List.mem_of_mem_filter hevent)).wired_eq
    rw [hwired, hjobs]
    exact reduceAll_unlabelled (fun event => orElseText event.jobType "GENERIC") rfl
  · have hfind := Table.find?_of_mem hfound
    rw [hjobs] at hfind
    exact dataAsOf_reduceAll hfind

/-! ### A job that is never started -/

/-- On 1 January 2026 a job is acknowledged, for an hour later. -/
def acknowledgement : Event where
  eventId := "e-1"
  eventType := .jobSchedulerSubmissionAcknowledged
  eventTime := seconds 63902822400
  ingestionTime := seconds 63902822400
  jobId := "job-1"
  correlationId := "corr-1"
  scheduledAt := some (seconds 63902826000)

/-- Its row in the journal. -/
def acknowledgementRow : EdrRow Object where
  eventId := "e-1"
  jobId := "job-1"
  persistedAt := seconds 63902822401
  canonicalPayload := ofMembers (sortedMembers (ofMembers acknowledgement.wireMembers))

/-- The worker projects it. -/
def acknowledgementRun : List (Projectors.Label Object) :=
  [.arrive acknowledgementRow, .claim 0 1, .load 0] ++ Projectors.projected 0 4

/-- What the engine has of it. -/
def acknowledgementEngine : VisibilityEngine where
  jobs := Table.empty.upsert (reduceEvent none acknowledgement).job
  eventIds := ["e-1"]
  events := [acknowledgement]

theorem records_acknowledgementRow :
    List.Forall₂ EdrRow.Records [acknowledgementRow] [acknowledgement] :=
  .cons ⟨rfl, rfl, loads_dumps_eq _⟩ .nil

/-- The run, and what is found overdue after it. -/
theorem exists_acknowledgementRun :
    ∃ w, (Projectors.machine eventFromRow).Reach (Projectors.Alone eventFromRow) w ∧
      w.db.pending = [] ∧ w.db.ordered = [acknowledgementRow] ∧
      (search { status := some .overdue }).durable w.db.tables = .ok [] := by
  let overdue := search { status := some .overdue }
  have hrun : ((Projectors.machine eventFromRow).runWhile (Projectors.Alone eventFromRow)
      (Projectors.machine eventFromRow).start acknowledgementRun).any (fun w =>
        w.db.pending.length = 0 ∧ w.db.ordered = [acknowledgementRow] ∧
          (overdue.durable w.db.tables).toOption = some []) = true := by
    decide +kernel
  obtain ⟨w, hw, hfacts⟩ := (Option.any_eq_true _ _).1 hrun
  obtain ⟨hpending, hordered, hanswers⟩ := of_decide_eq_true hfacts
  refine ⟨w, Machine.Reach.of_runWhile Machine.Reach.start _ hw,
    List.length_eq_zero_iff.1 hpending, hordered, ?_⟩
  cases hdurable : overdue.durable w.db.tables with
  | error e =>
      rw [hdurable] at hanswers
      cases hanswers
  | ok answers =>
      rw [hdurable] at hanswers
      exact congrArg Except.ok (Option.some.inj hanswers)

/-- Half an hour before its time the job is answered alike. -/
theorem agrees_iff_acknowledgementRun :
    ∃ w, (Projectors.machine eventFromRow).Reach (Projectors.Alone eventFromRow) w ∧
      (Query.job "job-1").Agrees w.db.tables acknowledgementEngine (seconds 63902824200) := by
  obtain ⟨w, hreach, hpending, hordered, -⟩ := exists_acknowledgementRun
  refine ⟨w, hreach, (agrees_iff w [acknowledgement] acknowledgementEngine _ _ hreach hpending
    (hordered ▸ records_acknowledgementRow) (by decide) ?_ rfl).2 ?_⟩
  · intro event hevent
    obtain rfl := List.mem_singleton.1 hevent
    exact ⟨rfl, rfl⟩
  · intro found hfound dataAsOf htime _
    obtain rfl := List.mem_singleton.1 hfound
    obtain rfl := Option.some.inj htime
    exact ⟨by decide, fun _ => by decide⟩

/-- **A search for overdue jobs finds none of them**: eleven minutes after its time the engine says
that the job is overdue, and the durable path does not find it. -/
theorem not_agrees_overdue :
    ¬ ∀ (w : Projectors.World Object) (events : List Event) (engine : VisibilityEngine)
      (query : Query) (now : Datetime),
      (Projectors.machine eventFromRow).Reach (Projectors.Alone eventFromRow) w →
      w.db.pending = [] → List.Forall₂ EdrRow.Records w.db.ordered events →
      (events.map Event.eventId).Nodup →
      (∀ event ∈ events, event.Encodable) → (∀ event ∈ events, event.OnWire) →
      ({} : VisibilityEngine).applyAll events = .ok engine →
      query.Agrees w.db.tables engine now := by
  intro h
  obtain ⟨w, hreach, hpending, hordered, hdurable⟩ := exists_acknowledgementRun
  have hwire : ∀ event ∈ [acknowledgement], event.OnWire := by
    intro event hevent
    obtain rfl := List.mem_singleton.1 hevent
    exact ⟨rfl, rfl⟩
  obtain ⟨answers, hanswers, hagrees⟩ := h w [acknowledgement] acknowledgementEngine
    (search { status := some .overdue }) (seconds 63902826660) hreach hpending
    (hordered ▸ records_acknowledgementRow) (by decide) (by decide) hwire rfl
  obtain rfl : [] = answers := Except.ok.inj (hdurable.symm.trans hanswers)
  have hoverdue : ("job-1", "OVERDUE") ∈ inMemory acknowledgementEngine (seconds 63902826660)
      (search { status := some .overdue }) := by decide
  cases (hagrees _).2 hoverdue

end Query

end ScheduledJobs
