/-
**What a longer replay keeps.**

Replaying more rows of a job can change any field of its projection.  Two things only grow: the
decision log, and the findings, each of which keeps its code, its message and the time it was first
observed while its other fields change.  So the rows the projector writes for a shorter replay are
not contradicted by those it writes for a longer one.

Main definitions:

* `Findings.Grows`, `JobVisibility.Grows` — **what a later projection keeps of an earlier one**.

Main results:

* `handler_grows`, `reduceEvent_grows` — a handler and a reduction only let these grow;
* `rebuild_grows` — **the projection of more rows extends the projection of fewer**;
* `consistent_of_rebuild` — the decisions of a projection are about its own rows, and its findings
  have different codes.
-/

import ScheduledJobs.EdrStore

set_option relaxedAutoImplicit false
set_option autoImplicit false

namespace ScheduledJobs

/-! ### Findings -/

namespace Findings

/-- **What later findings keep of earlier ones**: each of them, with its message and the time it was
first observed; and a finding under the code of its own stays there. -/
structure Grows (findings later : Findings) : Prop where
  kept : ∀ code finding, findings.get? code = some finding → ∃ finding',
    later.get? code = some finding' ∧ finding'.firstObservedAt = finding.firstObservedAt ∧
      finding'.message = finding.message
  keyed : (∀ code finding, findings.get? code = some finding → finding.code = code) →
    ∀ code finding, later.get? code = some finding → finding.code = code

namespace Grows

variable {findings later : Findings}

theorem refl (findings : Findings) : Grows findings findings where
  kept := fun _ finding hfinding => ⟨finding, hfinding, rfl, rfl⟩
  keyed := fun hkeyed => hkeyed

theorem trans {last : Findings} (h : Grows findings later) (h' : Grows later last) :
    Grows findings last where
  kept := by
    intro code finding hfinding
    obtain ⟨finding', hfinding', htime, hmessage⟩ := h.kept code finding hfinding
    obtain ⟨finding'', hfinding'', htime', hmessage'⟩ := h'.kept code finding' hfinding'
    exact ⟨finding'', hfinding'', htime'.trans htime, hmessage'.trans hmessage⟩
  keyed := fun hkeyed => h'.keyed (h.keyed hkeyed)

/-- Writing a finding that agrees with the one that is there. -/
theorem set {code : FindingCode} {finding : Finding}
    (hold : ∀ old, findings.get? code = some old →
      finding.firstObservedAt = old.firstObservedAt ∧ finding.message = old.message)
    (hcode : (∀ old, findings.get? code = some old → old.code = code) → finding.code = code) :
    Grows findings (Dict.set findings code finding) where
  kept := by
    intro code' old hfinding
    rw [Dict.get?_set]
    split
    · next heq =>
        subst heq
        exact ⟨finding, rfl, hold old hfinding⟩
    · exact ⟨old, hfinding, rfl, rfl⟩
  keyed := by
    intro hkeyed code' finding' hfinding'
    rw [Dict.get?_set] at hfinding'
    split at hfinding'
    · next heq =>
        cases hfinding'
        rw [heq]
        exact hcode fun old hfound => hkeyed code old hfound
    · exact hkeyed code' finding' hfinding'

theorem observe (findings : Findings) (code : FindingCode) (observedAt : Datetime)
    (message : String) : Grows findings (findings.observe code observedAt message) := by
  rw [observe_eq]
  unfold observation
  cases hfind : findings.get? code with
  | none => exact set (fun _ hold => by cases hfind.symm.trans hold) fun _ => rfl
  | some existing =>
      refine set (fun old hold => ?_) fun hkeyed => hkeyed existing hfind
      obtain rfl : existing = old := Option.some_inj.1 (hfind.symm.trans hold)
      exact ⟨rfl, rfl⟩

theorem resolve (findings : Findings) (code : FindingCode) (resolvedAt : Datetime) :
    Grows findings (findings.resolve code resolvedAt) := by
  unfold Findings.resolve
  cases hfind : findings.get? code with
  | none => exact refl findings
  | some existing =>
      dsimp only
      split
      · refine set (fun old hold => ?_) fun hkeyed => hkeyed existing hfind
        obtain rfl : existing = old := Option.some_inj.1 (hfind.symm.trans hold)
        exact ⟨rfl, rfl⟩
      · exact refl findings

theorem ite {p : Prop} [Decidable p] {first second : Findings} (h₁ : Grows findings first)
    (h₂ : Grows findings second) : Grows findings (if p then first else second) := by
  split
  · exact h₁
  · exact h₂

end Grows

end Findings

/-! ### Handlers and reductions -/

open Findings (Grows)

theorem openAttempt_grows (job : JobVisibility) (event : Event) :
    Grows job.findings (job.openAttempt event).findings :=
  .ite (.observe ..) (.refl _)

/-- **A handler only lets the findings grow.** -/
theorem handler_grows (t : EventType) (job : JobVisibility) (event : Event) :
    Grows job.findings (handler t job event).1.findings := by
  cases t with
  | jobCreated => exact .refl _
  | jobSchedulerSubmissionRequested => exact .refl _
  | jobSchedulerSubmissionAcknowledged => exact .resolve ..
  | jobSchedulerItemRetrieved => exact openAttempt_grows job event
  | jobRetryAcknowledged => exact .resolve ..
  | jobExecutionStarted =>
      simp only [handler, onJobExecutionStarted]
      split
      · exact openAttempt_grows job event
      · split
        · exact openAttempt_grows job event
        · -- a late start may record two findings
          refine (openAttempt_grows job event).trans ?_
          have hcancelled : Grows (job.openAttempt event).findings _ :=
            .ite (p := (job.openAttempt event).recordedStatus = .cancelled)
              (.observe _ .executedAfterCancel event.ingestionTime
                "Execution was observed after cancellation.") (.refl _)
          exact .ite (hcancelled.trans (.observe ..)) hcancelled
  | jobExecutionSucceeded =>
      simp only [handler, onJobExecutionSucceeded]
      split
      · exact (openAttempt_grows job event).trans (.observe ..)
      · exact (openAttempt_grows job event).trans (.ite (.observe ..) (.refl _))
  | jobExecutionFailed =>
      simp only [handler, onJobExecutionFailed]
      split
      · exact (openAttempt_grows job event).trans (.observe ..)
      · split
        · exact (openAttempt_grows job event).trans (.observe ..)
        · exact openAttempt_grows job event
  | jobSchedulerSubmissionFailed =>
      simp only [handler, onJobSchedulerSubmissionFailed]
      split <;> exact .refl _
  | jobRetryRequested =>
      simp only [handler, onJobRetryRequested]
      split <;> exact .refl _
  | jobRetryRejected =>
      simp only [handler, onJobRetryRejected]
      split <;> exact .refl _
  | jobRetriesExhausted =>
      simp only [handler, onJobRetriesExhausted]
      split <;> exact .refl _
  | jobCancelled =>
      simp only [handler, onJobCancelled]
      split <;> exact .refl _

/-- **What a later projection keeps of an earlier one.** -/
structure JobVisibility.Grows (job later : JobVisibility) : Prop where
  decisions : job.decisions <+: later.decisions
  findings : Findings.Grows job.findings later.findings

theorem JobVisibility.Grows.trans {job later last : JobVisibility} (h : job.Grows later)
    (h' : later.Grows last) : job.Grows last :=
  ⟨h.decisions.trans h'.decisions, h.findings.trans h'.findings⟩

/-- **A reduction only lets a projection grow.** -/
theorem reduceEvent_grows (current : Option JobVisibility) (event : Event) :
    (currentOrBlank current event).Grows (reduceEvent current event).job where
  decisions := by
    rw [reduceEvent_decisions]
    exact List.prefix_append ..
  findings := by
    obtain ⟨version, decisions, hjob⟩ := exists_reduceEvent_eq current event
    rw [hjob]
    simp only [projectedBy]
    split
    · exact .refl _
    · exact handler_grows event.eventType (mergeCommon (currentOrBlank current event) event) event

/-! ### Replaying rows -/

/-- A decision is about the event it was taken for. -/
theorem reduceEvent_decision_eventId (current : Option JobVisibility) (event : Event) :
    (reduceEvent current event).decision.eventId = event.eventId := by
  change (decideEvent (currentOrBlank current event) event).2.eventId = event.eventId
  simp only [decideEvent]
  split
  · rfl
  · split <;> rfl

namespace VisibilityEngine

variable {engine later : VisibilityEngine}

/-- A later engine has the projections of an earlier one, grown. -/
def Grows (engine later : VisibilityEngine) : Prop :=
  ∀ jobId job, engine.jobs.find? jobId = some job →
    ∃ job', later.jobs.find? jobId = some job' ∧ job.Grows job'

theorem Grows.refl (engine : VisibilityEngine) : Grows engine engine := fun _ job hjob =>
  ⟨job, hjob, List.prefix_refl _, .refl _⟩

theorem Grows.trans {last : VisibilityEngine} (h : Grows engine later) (h' : Grows later last) :
    Grows engine last := by
  intro jobId job hjob
  obtain ⟨job', hjob', hgrows⟩ := h jobId job hjob
  obtain ⟨job'', hjob'', hgrows'⟩ := h' jobId job' hjob'
  exact ⟨job'', hjob'', hgrows.trans hgrows'⟩

/-- Findings stand under their own codes, and decisions are about events with the given ids. -/
structure Consistent (eventIds : List String) (engine : VisibilityEngine) : Prop where
  keyed : ∀ jobId job, engine.jobs.find? jobId = some job →
    ∀ code finding, job.findings.get? code = some finding → finding.code = code
  decided : ∀ jobId job, engine.jobs.find? jobId = some job →
    ∀ decision ∈ job.decisions, decision.eventId ∈ eventIds

/-- **What one event does to the projections**: at most that of its job changes, and it grows. -/
theorem apply_cases {event : Event} {decision : ProjectionDecision}
    (h : engine.apply event = .ok (later, decision)) :
    later.jobs = engine.jobs ∨
      ∃ job, (∀ jobId, later.jobs.find? jobId =
          if jobId = event.jobId then some job else engine.jobs.find? jobId) ∧
        (currentOrBlank (engine.jobs.find? event.jobId) event).Grows job ∧
        job.decisions =
          (currentOrBlank (engine.jobs.find? event.jobId) event).decisions ++ [decision] ∧
        decision.eventId = event.eventId := by
  by_cases hseen : event.eventId ∈ engine.eventIds
  · simp only [apply, if_pos hseen, Except.ok.injEq, Prod.mk.injEq] at h
    obtain ⟨rfl, rfl⟩ := h
    cases hcurrent : engine.jobs.find? event.jobId with
    | none => exact Or.inl rfl
    | some job =>
        let logged : JobVisibility :=
          { job with decisions := job.decisions ++
              [⟨event.eventId, .exactDuplicate, some "eventId seen"⟩] }
        have hkey : job.jobId = event.jobId := Table.key_of_find? hcurrent
        have hfound : engine.jobs.find? logged.jobId = some job :=
          (congrArg engine.jobs.find? hkey).trans hcurrent
        refine Or.inr ⟨logged, fun jobId => ?_, ⟨List.prefix_append .., .refl _⟩, rfl, rfl⟩
        rw [← hkey]
        exact Table.find?_replace_of_find? hfound jobId
  · rw [apply_of_notMem hseen, Except.ok.injEq, Prod.mk.injEq] at h
    obtain ⟨rfl, rfl⟩ := h
    refine Or.inr ⟨_, fun jobId => ?_, reduceEvent_grows _ event, reduceEvent_decisions _ event,
      reduceEvent_decision_eventId _ event⟩
    rw [Table.find?_upsert, jobId_reduceEvent_find?]

/-- One more event. -/
theorem grows_apply {event : Event} {decision : ProjectionDecision}
    (h : engine.apply event = .ok (later, decision)) : Grows engine later := by
  intro jobId job hjob
  rcases apply_cases h with hsame | ⟨job', hjobs, hgrows, -, -⟩
  · exact ⟨job, by rw [hsame, hjob], List.prefix_refl _, .refl _⟩
  · rw [hjobs]
    split
    · next heq =>
        subst heq
        rw [hjob] at hgrows
        exact ⟨job', rfl, hgrows⟩
    · exact ⟨job, hjob, List.prefix_refl _, .refl _⟩

theorem Consistent.apply {eventIds : List String} {event : Event} {decision : ProjectionDecision}
    (hengine : Consistent eventIds engine) (hevent : event.eventId ∈ eventIds)
    (h : engine.apply event = .ok (later, decision)) : Consistent eventIds later := by
  rcases apply_cases h with hsame | ⟨job', hjobs, hgrows, hdecisions, hdecision⟩
  · exact ⟨by rw [hsame]; exact hengine.keyed, by rw [hsame]; exact hengine.decided⟩
  · -- the projection the event is reduced into, which may be the blank one
    have hblank : ∀ P : JobVisibility → Prop, P { jobId := event.jobId } →
        (∀ job, engine.jobs.find? event.jobId = some job → P job) →
        P (currentOrBlank (engine.jobs.find? event.jobId) event) := by
      intro P hnone hsome
      cases hcurrent : engine.jobs.find? event.jobId with
      | none => exact hnone
      | some job => exact hsome job hcurrent
    constructor
    · intro jobId job hjob
      rw [hjobs] at hjob
      split at hjob
      · cases hjob
        refine hgrows.findings.keyed (hblank _ ?_ (hengine.keyed event.jobId))
        intro code finding hnone
        cases hnone
      · exact hengine.keyed jobId job hjob
    · intro jobId job hjob
      rw [hjobs] at hjob
      split at hjob
      · cases hjob
        intro decision' hmem
        rw [hdecisions, List.mem_append, List.mem_singleton] at hmem
        rcases hmem with hold | rfl
        · refine hblank (fun job => ∀ decision ∈ job.decisions, decision.eventId ∈ eventIds) ?_
            (hengine.decided event.jobId) decision' hold
          intro decision hnone
          cases hnone
        · rw [hdecision]
          exact hevent
      · exact hengine.decided jobId job hjob

end VisibilityEngine

section Rows

variable {Payload : Type} {decode : Payload → Except WireError Event} {jobId : String}
  {rows rows' : List (EdrRow Payload)} {engine later : VisibilityEngine}

/-- The payload of the row is an event with the row's own id, if it is one at all: `canonical_edr`
writes `eventId` next to the payload and into it, and the sink copies both into one row. -/
def EdrRow.CarriesId (decode : Payload → Except WireError Event) (row : EdrRow Payload) : Prop :=
  ∀ event, decode row.canonicalPayload = .ok event → event.eventId = row.eventId

theorem replayRow_eq_ok_iff {row : EdrRow Payload} :
    replayRow decode engine row = .ok later ↔
      ∃ event decision, decode row.canonicalPayload = .ok event ∧
        engine.apply event = .ok (later, decision) := by
  constructor
  · intro h
    obtain ⟨event, hdecode, h⟩ := Except.bind_eq_ok_iff.1 h
    obtain ⟨result, happly, h⟩ := Except.bind_eq_ok_iff.1 h
    obtain rfl : result.1 = later := Except.ok.inj h
    exact ⟨event, result.2, Except.mapError_eq_ok_iff.1 hdecode,
      Except.mapError_eq_ok_iff.1 happly⟩
  · rintro ⟨event, decision, hdecode, happly⟩
    exact Except.bind_eq_ok_iff.2 ⟨event, Except.mapError_eq_ok_iff.2 hdecode,
      Except.bind_eq_ok_iff.2 ⟨_, Except.mapError_eq_ok_iff.2 happly, rfl⟩⟩

/-- Replaying more rows. -/
theorem grows_replay (h : rows.foldlM (replayRow decode) engine = .ok later) :
    engine.Grows later := by
  induction rows generalizing engine with
  | nil =>
      cases h
      exact .refl _
  | cons row rows ih =>
      obtain ⟨next, hnext, hrest⟩ := Except.bind_eq_ok_iff.1 h
      obtain ⟨event, decision, -, happly⟩ := replayRow_eq_ok_iff.1 hnext
      exact (VisibilityEngine.grows_apply happly).trans (ih hrest)

theorem consistent_replay {eventIds : List String} (hengine : engine.Consistent eventIds)
    (hrows : ∀ row ∈ rows, row.CarriesId decode ∧ row.eventId ∈ eventIds)
    (h : rows.foldlM (replayRow decode) engine = .ok later) : later.Consistent eventIds := by
  induction rows generalizing engine with
  | nil =>
      cases h
      exact hengine
  | cons row rows ih =>
      obtain ⟨next, hnext, hrest⟩ := Except.bind_eq_ok_iff.1 h
      obtain ⟨event, decision, hdecode, happly⟩ := replayRow_eq_ok_iff.1 hnext
      obtain ⟨hcarries, hmem⟩ := hrows row (List.mem_cons_self ..)
      have hevent : event.eventId ∈ eventIds := (hcarries event hdecode).symm ▸ hmem
      exact ih (hengine.apply hevent happly)
        (fun other hother => hrows other (List.mem_cons_of_mem _ hother)) hrest

/-- The projection of a job is that of an engine that has replayed its rows. -/
theorem replay_of_rebuild {projection : Projection}
    (h : rebuild decode jobId rows = .ok projection) :
    ∃ engine, rows.foldlM (replayRow decode) {} = .ok engine ∧
      engine.jobs.find? jobId = some projection.snapshot ∧
      projection.snapshot.dataAsOf = some projection.dataAsOf ∧
      engine.get jobId projection.dataAsOf = .ok projection.response := by
  obtain ⟨engine, hreplay, h⟩ := Except.bind_eq_ok_iff.1 h
  obtain ⟨job, hsnapshot, h⟩ := Except.bind_eq_ok_iff.1 h
  have hjob := VisibilityEngine.snapshot_eq_ok_iff.1 (Except.mapError_eq_ok_iff.1 hsnapshot)
  refine ⟨engine, hreplay, ?_⟩
  split at h
  · cases h
  · next dataAsOf htime =>
      obtain ⟨response, hresponse, hprojection⟩ := Except.bind_eq_ok_iff.1 h
      cases hprojection
      exact ⟨hjob, htime, Except.mapError_eq_ok_iff.1 hresponse⟩

/-- **The projection of more rows extends the projection of fewer.** -/
theorem rebuild_grows {projection projection' : Projection} (hinit : rows <+: rows')
    (h : rebuild decode jobId rows = .ok projection)
    (h' : rebuild decode jobId rows' = .ok projection') :
    projection.snapshot.Grows projection'.snapshot := by
  obtain ⟨engine, hreplay, hjob, -⟩ := replay_of_rebuild h
  obtain ⟨engine', hreplay', hjob', -⟩ := replay_of_rebuild h'
  obtain ⟨rest, rfl⟩ := hinit
  rw [List.foldlM_append] at hreplay'
  obtain ⟨engine₁, hfirst, hrest⟩ := Except.bind_eq_ok_iff.1 hreplay'
  obtain rfl : engine = engine₁ := Except.ok.inj (hreplay.symm.trans hfirst)
  obtain ⟨job, hfound, hgrows⟩ := grows_replay hrest jobId _ hjob
  obtain rfl : projection'.snapshot = job := Option.some_inj.1 (hjob'.symm.trans hfound)
  exact hgrows

/-- What the replay of a job's rows leaves. -/
theorem consistent_of_rebuild {projection : Projection}
    (hrows : ∀ row ∈ rows, row.CarriesId decode) (h : rebuild decode jobId rows = .ok projection) :
    (∀ code finding, projection.snapshot.findings.get? code = some finding →
      finding.code = code) ∧
      ∀ decision ∈ projection.snapshot.decisions, decision.eventId ∈ rows.map EdrRow.eventId := by
  obtain ⟨engine, hreplay, hjob, -⟩ := replay_of_rebuild h
  have hempty : VisibilityEngine.Consistent (rows.map EdrRow.eventId) {} :=
    ⟨fun _ _ hnone => (by cases hnone), fun _ _ hnone => (by cases hnone)⟩
  have hengine := consistent_replay hempty
    (fun row hrow => ⟨hrows row hrow, List.mem_map_of_mem hrow⟩) hreplay
  exact ⟨hengine.keyed jobId _ hjob, hengine.decided jobId _ hjob⟩

end Rows

end ScheduledJobs
