/-
**An event that is delivered again.**

An event whose id was seen only adds a decision to the log of its job.  No handler, no check of
`reconcile` and no field of a response reads that log, so an engine can be compared with the same
engine *without its decision logs*: applying an event and reconciling are defined on that already,
and there an event that was seen does nothing at all.

Main definitions:

* `EngineCall`, `VisibilityEngine.perform` — a sequence of calls, and what the `reconcile` calls in
  it returned;
* `Redelivered` — a second sequence with applied events inserted again, anywhere later;
* `VisibilityEngine.withoutDecisions` — the engine without its decision logs;
* `Indistinguishable` — what two engines have in common.

Main results:

* `reduceEvent_withoutDecisions` — **the reduction never reads the decision log**;
* `VisibilityEngine.withoutDecisions_apply`, `VisibilityEngine.withoutDecisions_reconcile` — what a
  call does on an engine without decision logs;
* `redelivery_invisible` — **delivering events again changes nothing but decision logs**.
-/

import ScheduledJobs.VisibilityEngine

set_option relaxedAutoImplicit false
set_option autoImplicit false

namespace ScheduledJobs

/-! ### The reduction never reads the decision log -/

namespace JobVisibility

/-- The projection without its decision log. -/
def withoutDecisions (job : JobVisibility) : JobVisibility := { job with decisions := [] }

@[simp] theorem withoutDecisions_jobId (job : JobVisibility) :
    job.withoutDecisions.jobId = job.jobId := rfl

end JobVisibility

/-- What a handler returns, without the decision log. -/
def Handled.withoutDecisions (handled : Handled) : Handled :=
  (handled.1.withoutDecisions, handled.2)

/-- **No handler reads the decision log.** -/
theorem handler_withoutDecisions (t : EventType) (job : JobVisibility) (event : Event) :
    handler t job.withoutDecisions event =
      Handled.withoutDecisions (handler t job event) := by
  have htype : (handler t job event).1.jobType = job.jobType :=
    congrArg JobHeader.jobType (handler_header t job event)
  refine (handler_relabel job.jobType [] t job event).trans ?_
  simp only [Handled.relabel, JobVisibility.relabel, ← htype]
  rfl

theorem decideEvent_withoutDecisions (job : JobVisibility) (event : Event) :
    decideEvent job.withoutDecisions event =
      ((decideEvent job event).1.withoutDecisions, (decideEvent job event).2) := by
  have hproject : project job.withoutDecisions event =
      ((project job event).1.withoutDecisions, (project job event).2) := by
    have hmerge : mergeCommon job.withoutDecisions event =
        (mergeCommon job event).withoutDecisions := rfl
    simp only [project, hmerge, handler_withoutDecisions, Handled.withoutDecisions]
  have hduplicate : isSemanticDuplicate job.withoutDecisions event =
      isSemanticDuplicate job event := rfl
  simp only [decideEvent, hproject, hduplicate]
  split
  · rfl
  · split <;> rfl

/-- **The reduction never reads the decision log.** -/
theorem reduceEvent_withoutDecisions (current : Option JobVisibility) (event : Event) :
    (reduceEvent (current.map JobVisibility.withoutDecisions) event).job.withoutDecisions =
      (reduceEvent current event).job.withoutDecisions := by
  have hcurrent : currentOrBlank (current.map JobVisibility.withoutDecisions) event =
      (currentOrBlank current event).withoutDecisions := by
    cases current with
    | none => rfl
    | some job => rfl
  simp only [reduceEvent, hcurrent, decideEvent_withoutDecisions]
  rfl

/-! ### Sequences of calls -/

/-- A call of the engine. -/
inductive EngineCall
  | apply (event : Event)
  | reconcile (now : Datetime)

namespace VisibilityEngine

/-- The engine after a sequence of calls, and what each `reconcile` among them returned. -/
def perform (engine : VisibilityEngine) :
    List EngineCall → Except EngineError (VisibilityEngine × List (List Finding))
  | [] => .ok (engine, [])
  | .apply event :: ops => do
      let (engine, _) ← engine.apply event
      engine.perform ops
  | .reconcile now :: ops => do
      let (engine, observed) := engine.reconcile now
      let (engine, reports) ← engine.perform ops
      return (engine, observed :: reports)

end VisibilityEngine

/-- **The second sequence is the first one with events inserted that were applied before**, the
events applied so far being given. -/
inductive Redelivered : List Event → List EngineCall → List EngineCall → Prop
  | done {seen : List Event} : Redelivered seen [] []
  | apply {seen : List Event} {ops ops' : List EngineCall} (event : Event) :
      Redelivered (event :: seen) ops ops' →
        Redelivered seen (.apply event :: ops) (.apply event :: ops')
  | reconcile {seen : List Event} {ops ops' : List EngineCall} (now : Datetime) :
      Redelivered seen ops ops' →
        Redelivered seen (.reconcile now :: ops) (.reconcile now :: ops')
  | again {seen : List Event} {ops ops' : List EngineCall} {event : Event} :
      event ∈ seen → Redelivered seen ops ops' → Redelivered seen ops (.apply event :: ops')

/-! ### The engine without decision logs -/

namespace VisibilityEngine

variable {engine : VisibilityEngine}

/-- The engine without its decision logs. -/
def withoutDecisions (engine : VisibilityEngine) : VisibilityEngine :=
  { engine with jobs := engine.jobs.mapRows JobVisibility.withoutDecisions fun _ => rfl }

@[simp] theorem withoutDecisions_eventIds : engine.withoutDecisions.eventIds = engine.eventIds :=
  rfl

@[simp] theorem find?_withoutDecisions (jobId : String) :
    engine.withoutDecisions.jobs.find? jobId =
      (engine.jobs.find? jobId).map JobVisibility.withoutDecisions :=
  Table.find?_mapRows engine.jobs JobVisibility.withoutDecisions_jobId jobId

/-- What `apply` does to an engine without decision logs. -/
def absorb (engine : VisibilityEngine) (event : Event) : VisibilityEngine :=
  if event.eventId ∈ engine.eventIds then engine
  else
    { engine with
      eventIds := engine.eventIds ++ [event.eventId]
      events := engine.events ++ [event]
      jobs := engine.jobs.upsert
        (reduceEvent (engine.jobs.find? event.jobId) event).job.withoutDecisions }

/-- **Applying an event, seen without decision logs.** -/
theorem withoutDecisions_apply (event : Event) :
    ∃ after, engine.apply event = .ok after ∧
      after.1.withoutDecisions = engine.withoutDecisions.absorb event := by
  by_cases hseen : event.eventId ∈ engine.eventIds
  · refine ⟨_, by rw [apply, if_pos hseen], ?_⟩
    rw [absorb, withoutDecisions_eventIds, if_pos hseen]
    cases hjob : engine.jobs.find? event.jobId with
    | none => rfl
    | some job =>
        -- the decision that is logged is erased again
        have hkept : (engine.jobs.replace { job with decisions := job.decisions ++
            [⟨event.eventId, .exactDuplicate, some "eventId seen"⟩] }).mapRows
              JobVisibility.withoutDecisions JobVisibility.withoutDecisions_jobId =
            engine.withoutDecisions.jobs := by
          rw [Table.mapRows_replace]
          refine Table.replace_of_find? ?_
          have hfind : engine.jobs.find? job.jobId = some job :=
            Table.find?_of_mem (Table.mem_of_find? hjob)
          exact (Table.find?_mapRows ..).trans (congrArg (Option.map _) hfind)
        exact congrArg (fun jobs => { engine with jobs := jobs }) hkept
  · refine ⟨_, apply_of_notMem hseen, ?_⟩
    rw [absorb, withoutDecisions_eventIds, if_neg hseen, find?_withoutDecisions,
      reduceEvent_withoutDecisions]
    have hjobs := Table.mapRows_upsert engine.jobs JobVisibility.withoutDecisions_jobId
      (reduceEvent (engine.jobs.find? event.jobId) event).job
    exact congrArg (fun jobs => { engine with
      eventIds := engine.eventIds ++ [event.eventId]
      events := engine.events ++ [event]
      jobs := jobs }) hjobs

/-- **Reconciling, seen without decision logs.** -/
theorem withoutDecisions_reconcile (now : Datetime) :
    (engine.reconcile now).1.withoutDecisions = (engine.withoutDecisions.reconcile now).1 ∧
      (engine.reconcile now).2 = (engine.withoutDecisions.reconcile now).2 := by
  constructor
  · simp only [withoutDecisions, reconcile, Table.mapRows, List.map_map]
    rfl
  · simp only [withoutDecisions, reconcile, Table.mapRows, List.flatMap_map]
    rfl

theorem get_withoutDecisions (jobId : String) (now : Datetime) :
    engine.withoutDecisions.get jobId now = engine.get jobId now := by
  unfold get snapshot
  rw [find?_withoutDecisions]
  cases engine.jobs.find? jobId with
  | none => rfl
  | some job => rfl

theorem search_withoutDecisions (now : Datetime) (filters : SearchFilters) :
    engine.withoutDecisions.search now filters = engine.search now filters := by
  have hids : engine.withoutDecisions.jobIds = engine.jobIds := by
    simp only [jobIds, withoutDecisions, Table.mapRows, List.map_map]
    rfl
  have hscheduled : engine.withoutDecisions.scheduledAt = engine.scheduledAt := by
    funext jobId
    rw [scheduledAt, scheduledAt, find?_withoutDecisions]
    cases engine.jobs.find? jobId with
    | none => rfl
    | some job => rfl
  simp only [search, hids, hscheduled, get_withoutDecisions]

/-- A sequence of calls, on an engine without decision logs. -/
def absorbAll (engine : VisibilityEngine) :
    List EngineCall → VisibilityEngine × List (List Finding)
  | [] => (engine, [])
  | .apply event :: ops => (engine.absorb event).absorbAll ops
  | .reconcile now :: ops =>
      let after := (engine.reconcile now).1.absorbAll ops
      (after.1, (engine.reconcile now).2 :: after.2)

/-- **A sequence of calls, seen without decision logs.** -/
theorem withoutDecisions_perform (ops : List EngineCall) :
    ∃ after reports, engine.perform ops = .ok (after, reports) ∧
      (after.withoutDecisions, reports) = engine.withoutDecisions.absorbAll ops := by
  induction ops generalizing engine with
  | nil => exact ⟨engine, [], rfl, rfl⟩
  | cons op ops ih =>
      cases op with
      | apply event =>
          obtain ⟨⟨next, decision⟩, happly, hnext⟩ := engine.withoutDecisions_apply event
          obtain ⟨after, reports, hafter, heq⟩ := @ih next
          refine ⟨after, reports, ?_, ?_⟩
          · rw [perform, happly]
            exact hafter
          · rw [heq, absorbAll, ← hnext]
      | reconcile now =>
          obtain ⟨hnext, hobserved⟩ := engine.withoutDecisions_reconcile now
          obtain ⟨after, reports, hafter, heq⟩ := @ih (engine.reconcile now).1
          refine ⟨after, (engine.reconcile now).2 :: reports, ?_, ?_⟩
          · simp only [perform, hafter]
            rfl
          · simp only [absorbAll, ← hnext, ← hobserved, ← heq]

/-- **There, an event that was applied before does nothing.** -/
theorem absorbAll_redelivered {seen : List Event} {ops ops' : List EngineCall}
    (h : Redelivered seen ops ops') (hseen : ∀ event ∈ seen, event.eventId ∈ engine.eventIds) :
    engine.absorbAll ops' = engine.absorbAll ops := by
  induction h generalizing engine with
  | done => rfl
  | apply event hrest ih =>
      refine ih fun earlier hearlier => ?_
      by_cases hmem : event.eventId ∈ engine.eventIds
      · rw [absorb, if_pos hmem]
        rcases List.mem_cons.1 hearlier with rfl | hold
        · exact hmem
        · exact hseen earlier hold
      · rw [absorb, if_neg hmem]
        rcases List.mem_cons.1 hearlier with rfl | hold
        · exact List.mem_append_right _ (List.mem_singleton_self _)
        · exact List.mem_append_left _ (hseen earlier hold)
  | reconcile now hrest ih =>
      have hafter := @ih (engine.reconcile now).1 hseen
      simp only [absorbAll, hafter]
  | again hmem hrest ih =>
      rw [absorbAll, absorb, if_pos (hseen _ hmem)]
      exact ih hseen

end VisibilityEngine

/-! ### What a redelivery leaves alone -/

/-- **Two engines that differ in decision logs at most**: the same journal, the same projections up
to their decision logs, and the same answer to every query at any time. -/
structure Indistinguishable (engine engine' : VisibilityEngine) : Prop where
  events : engine'.events = engine.events
  jobs : ∀ jobId, (engine'.jobs.find? jobId).map JobVisibility.withoutDecisions =
    (engine.jobs.find? jobId).map JobVisibility.withoutDecisions
  get : ∀ jobId now, engine'.get jobId now = engine.get jobId now
  search : ∀ now filters, engine'.search now filters = engine.search now filters

theorem Indistinguishable.of_withoutDecisions {engine engine' : VisibilityEngine}
    (h : engine'.withoutDecisions = engine.withoutDecisions) :
    Indistinguishable engine engine' where
  events := (VisibilityEngine.mk.inj h).2.2.2
  jobs := fun jobId => by
    rw [← VisibilityEngine.find?_withoutDecisions, h, VisibilityEngine.find?_withoutDecisions]
  get := fun jobId now => by
    rw [← VisibilityEngine.get_withoutDecisions, h, VisibilityEngine.get_withoutDecisions]
  search := fun now filters => by
    rw [← VisibilityEngine.search_withoutDecisions, h, VisibilityEngine.search_withoutDecisions]

/-- **Delivering applied events again changes nothing but decision logs**: whatever the calls, both
sequences go through, their `reconcile` calls return the same findings, and the engines they end in
are indistinguishable. -/
theorem redelivery_invisible (config : VisibilityConfig) (ops ops' : List EngineCall)
    (h : Redelivered [] ops ops') :
    ∃ engine engine' reports,
      VisibilityEngine.perform { config := config } ops = .ok (engine, reports) ∧
      VisibilityEngine.perform { config := config } ops' = .ok (engine', reports) ∧
      Indistinguishable engine engine' := by
  obtain ⟨engine, reports, hrun, heq⟩ :=
    @VisibilityEngine.withoutDecisions_perform { config := config } ops
  obtain ⟨engine', reports', hrun', heq'⟩ :=
    @VisibilityEngine.withoutDecisions_perform { config := config } ops'
  have hsame : (engine'.withoutDecisions, reports') = (engine.withoutDecisions, reports) := by
    rw [heq, heq']
    exact VisibilityEngine.absorbAll_redelivered h (by simp)
  obtain ⟨hengine, rfl⟩ := Prod.mk.inj hsame
  exact ⟨engine, engine', reports', hrun, hrun', .of_withoutDecisions hengine⟩

/-- A submission that nobody acknowledges is delivered again between two reconciliations. -/
theorem redelivery_invisible_submission :
    let event : Event :=
      { eventId := "e-1", eventType := .jobSchedulerSubmissionRequested, eventTime := 0
        ingestionTime := 0, jobId := "job-1" }
    let reconcile := EngineCall.reconcile (seconds 300)
    ∃ engine engine' reports,
      VisibilityEngine.perform {} [.apply event, reconcile, reconcile] = .ok (engine, reports) ∧
      VisibilityEngine.perform {} [.apply event, reconcile, .apply event, reconcile] =
        .ok (engine', reports) ∧ Indistinguishable engine engine' :=
  redelivery_invisible {} _ _
    (.apply _ (.reconcile _ (.again (List.mem_singleton_self _) (.reconcile _ .done))))

end ScheduledJobs
