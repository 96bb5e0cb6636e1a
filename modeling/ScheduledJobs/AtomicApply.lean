/-
**`apply` and the exceptions of the reduction.**

A call of `apply` that raises should leave the engine as it was, so that the event can be applied
again.  A version conflict does.  But the id of an event and the event itself are noted before it is
reduced, and the reduction raises when a timestamp of the event is to be merged with one of another
kind: then the event is neither in the projection of its job nor accepted any more.

As long as this does not happen, three timestamps of a job tell the kinds of all the others, so a
run is spared exactly when each of its events agrees with these three.

Main definitions:

* `EngineCall`, `VisibilityEngine.afterAll` — runs of the engine;
* `AppliesAtomically` — **what should hold of a run**;
* `VisibilityEngine.Accepts` — the event agrees with the projection of its job, if it gets there;
* `VisibilityEngine.Coherent` — **the invariant**: what is stored of a job is of the same kinds.

Main results:

* `VisibilityEngine.apply_unchanged_iff` — one call;
* `VisibilityEngine.Coherent.after` — what a call that is accepted keeps;
* `appliesAtomically_iff` — **`apply` is atomic along a run exactly when it accepts the events**.
-/

import ScheduledJobs.Machine
import ScheduledJobs.MixedEngine

set_option relaxedAutoImplicit false
set_option autoImplicit false

namespace ScheduledJobs.Mixed

/-! ### Runs -/

/-- The calls that may change the engine. -/
inductive EngineCall
  | apply (event : Event) (expectedVersion : Option ℕ)
  | reconcile (now : Timestamp)

namespace VisibilityEngine

variable (runtime : Runtime) (engine : VisibilityEngine)

/-- The engine a call leaves, whether it returns or raises. -/
def after : EngineCall → VisibilityEngine
  | .apply event expectedVersion => (engine.apply event expectedVersion).1
  | .reconcile now => (engine.reconcile runtime now).1

/-- The engine a sequence of calls leaves. -/
def afterAll (calls : List EngineCall) : VisibilityEngine :=
  calls.foldl (fun engine call => engine.after runtime call) engine

/-- The call of `apply` raises. -/
def Raises (event : Event) (expectedVersion : Option ℕ) : Prop :=
  ∃ e, (engine.apply event expectedVersion).2 = .error e

/-- **The event agrees with the projection of its job**, unless its id was seen or its version is
not the expected one. -/
def Accepts (event : Event) (expectedVersion : Option ℕ) : Prop :=
  event.eventId ∉ engine.eventIds →
    (∀ expected ∈ expectedVersion, expected = engine.versionOf event.jobId) →
    ∀ job ∈ engine.jobs.find? event.jobId, event.AgreesWith job

/-- **The invariant**: every projection is coherent. -/
def Coherent : Prop := ∀ jobId, ∀ job ∈ engine.jobs.find? jobId, job.Coherent

end VisibilityEngine

/-- **What should hold of a run**: a call of `apply` that raises leaves the projections, the ids and
the journal as they were, and an event that is applied later under the same id is not taken for a
duplicate. -/
structure AppliesAtomically (runtime : Runtime) (start : VisibilityEngine)
    (calls : List EngineCall) : Prop where
  unchanged : ∀ before event expectedVersion,
    before ++ [.apply event expectedVersion] <+: calls →
    (start.afterAll runtime before).Raises event expectedVersion →
    ((start.afterAll runtime before).apply event expectedVersion).1 =
      start.afterAll runtime before
  processed : ∀ before event expectedVersion between event' expectedVersion',
    before ++ .apply event expectedVersion :: (between ++ [.apply event' expectedVersion']) <+:
      calls →
    (start.afterAll runtime before).Raises event expectedVersion →
    (∀ later version, .apply later version ∈ between → later.eventId ≠ event.eventId) →
    event'.eventId = event.eventId →
    ∀ decision, ((start.afterAll runtime (before ++ .apply event expectedVersion :: between)).apply
      event' expectedVersion').2 = .ok decision → decision.decision ≠ .exactDuplicate

namespace VisibilityEngine

variable {runtime : Runtime} {engine : VisibilityEngine} {event : Event}
  {expectedVersion : Option ℕ}

/-! ### One call -/

/-- A decision of the reducer is none about an exact duplicate. -/
theorem decision_ne_exactDuplicate {current : Option JobVisibility} {result : ReductionResult}
    (h : reduceVisibility current event = .ok result) :
    result.decision.decision ≠ .exactDuplicate := by
  obtain ⟨decided, hdecided, -, -, -, hresult⟩ := exists_merges_of_reduceVisibility h
  have hdecision : result.decision = decided.2 := congrArg ReductionResult.decision hresult
  rw [hdecision]
  rw [decideEvent] at hdecided
  split at hdecided
  · cases hdecided
    intro h
    cases h
  · obtain ⟨projected, hprojected, hrest⟩ := Except.bind_eq_ok_iff.1 hdecided
    have hsecond : decided.2 = projected.2 := by
      split at hrest <;> cases hrest <;> rfl
    obtain ⟨handled, -, hproject⟩ := Except.bind_eq_ok_iff.1 hprojected
    cases hproject
    rw [hsecond]
    split <;> (intro h; cases h)

/-- What a call of `apply` can do. -/
theorem apply_cases (engine : VisibilityEngine) (event : Event) (expectedVersion : Option ℕ) :
    (event.eventId ∈ engine.eventIds ∧ engine.apply event expectedVersion =
        ({ engine with
            jobs := engine.logged event.jobId
              ⟨event.eventId, .exactDuplicate, some "eventId seen"⟩ },
          .ok ⟨event.eventId, .exactDuplicate, some "eventId seen"⟩)) ∨
      (event.eventId ∉ engine.eventIds ∧
        (∃ expected ∈ expectedVersion, expected ≠ engine.versionOf event.jobId) ∧
        ∃ e, engine.apply event expectedVersion = (engine, .error e)) ∨
      (event.eventId ∉ engine.eventIds ∧
        (∀ expected ∈ expectedVersion, expected = engine.versionOf event.jobId) ∧
        ((∃ e, reduceVisibility (engine.jobs.find? event.jobId) event = .error e ∧
            engine.apply event expectedVersion = (engine.note event, .error e)) ∨
          ∃ result, reduceVisibility (engine.jobs.find? event.jobId) event = .ok result ∧
            engine.apply event expectedVersion =
              ({ engine.note event with jobs := engine.jobs.upsert result.job },
                .ok result.decision))) := by
  by_cases hseen : event.eventId ∈ engine.eventIds
  · exact Or.inl ⟨hseen, apply_of_mem hseen⟩
  cases hversion : engine.checkVersion event.jobId expectedVersion with
  | error e =>
      refine Or.inr (Or.inl ⟨hseen, ?_, e, apply_of_conflict hseen hversion⟩)
      by_contra hnone
      have hok : engine.checkVersion event.jobId expectedVersion = .ok () :=
        checkVersion_eq_ok_iff.2 fun expected hmem => by
          by_contra hne
          exact hnone ⟨expected, hmem, hne⟩
      rw [hversion] at hok
      cases hok
  | ok _ =>
      refine Or.inr (Or.inr ⟨hseen, checkVersion_eq_ok_iff.1 hversion, ?_⟩)
      cases hreduce : reduceVisibility (engine.jobs.find? event.jobId) event with
      | error e => exact Or.inl ⟨e, rfl, apply_of_reduce_error hseen hversion hreduce⟩
      | ok result => exact Or.inr ⟨result, rfl, apply_of_reduce_ok hseen hversion hreduce⟩

/-- An engine that has noted an event is another one. -/
theorem note_ne (engine : VisibilityEngine) (event : Event) : engine.note event ≠ engine := by
  intro h
  have hids : engine.eventIds ++ [event.eventId] = engine.eventIds :=
    congrArg VisibilityEngine.eventIds h
  simp at hids

/-- **An event that was not seen is accepted exactly when its reduction returns.** -/
theorem accepts_iff_returns (hcoherent : engine.Coherent)
    (hnew : event.eventId ∉ engine.eventIds)
    (hversion : ∀ expected ∈ expectedVersion, expected = engine.versionOf event.jobId) :
    engine.Accepts event expectedVersion ↔
      (reduceVisibility (engine.jobs.find? event.jobId) event).Returns := by
  rw [returns_reduceVisibility_iff (hcoherent event.jobId) (engine.currentOrBlank_jobId event)]
  cases hjob : engine.jobs.find? event.jobId with
  | none =>
      refine iff_of_true (fun _ _ job hmem => ?_)
        ⟨by simp [currentOrBlank], by simp [currentOrBlank], by simp [currentOrBlank]⟩
      rw [hjob] at hmem
      cases hmem
  | some job =>
      constructor
      · exact fun h => h hnew hversion job hjob
      · intro h _ _ job' hmem
        rw [hjob] at hmem
        exact Option.some_inj.1 hmem ▸ h

/-- **One call**: what raises leaves the engine as it was exactly when the event is accepted. -/
theorem apply_unchanged_iff (hcoherent : engine.Coherent) :
    (engine.Raises event expectedVersion → (engine.apply event expectedVersion).1 = engine) ↔
      engine.Accepts event expectedVersion := by
  rcases engine.apply_cases event expectedVersion with
    ⟨hseen, happly⟩ | ⟨hnew, ⟨expected, hmem, hne⟩, e, happly⟩ | ⟨hnew, hversion, hreduce⟩
  · refine iff_of_true (fun hraises => ?_) fun hnew => absurd hseen hnew
    obtain ⟨e, herror⟩ := hraises
    rw [happly] at herror
    cases herror
  · refine iff_of_true (fun _ => ?_) fun _ hversion => absurd (hversion expected hmem) hne
    rw [happly]
  · rw [accepts_iff_returns hcoherent hnew hversion]
    rcases hreduce with ⟨e, herror, happly⟩ | ⟨result, hresult, happly⟩
    · refine iff_of_false (fun hkept => ?_) fun hreturns => ?_
      · have hsame := hkept ⟨e, congrArg Prod.snd happly⟩
        rw [happly] at hsame
        exact note_ne engine event hsame
      · rw [herror] at hreturns
        exact Except.not_returns_error e hreturns
    · refine iff_of_true (fun hraises => ?_) ⟨result, hresult⟩
      obtain ⟨e, herror⟩ := hraises
      rw [happly] at herror
      cases herror

/-! ### The invariant -/

theorem coherent_new (config : VisibilityConfig) :
    VisibilityEngine.Coherent { config := config } := by
  intro jobId job hjob
  cases hjob

/-- What a call that is accepted keeps. -/
theorem Coherent.apply (hcoherent : engine.Coherent)
    (haccepts : engine.Accepts event expectedVersion) :
    (engine.apply event expectedVersion).1.Coherent := by
  rcases engine.apply_cases event expectedVersion with
    ⟨-, happly⟩ | ⟨-, -, e, happly⟩ | ⟨hnew, hversion, hreduce⟩
  · rw [happly]
    intro jobId job' hjob'
    obtain ⟨job, hjob, decisions, rfl⟩ := exists_of_mem_logged jobId job' hjob'
    have hold := hcoherent jobId job hjob
    obtain ⟨observed, retrieved, htimed⟩ := hold.timed
    exact ⟨hold.lastEventTime, hold.dataAsOf, observed, retrieved, { htimed with }⟩
  · rw [happly]
    exact hcoherent
  · rcases hreduce with ⟨e, herror, happly⟩ | ⟨result, hresult, happly⟩
    · have hreturns := (accepts_iff_returns hcoherent hnew hversion).1 haccepts
      rw [herror] at hreturns
      exact absurd hreturns (Except.not_returns_error e)
    · rw [happly]
      have hnext : result.job.Coherent :=
        (reduceVisibility_coherent (hcoherent event.jobId) (engine.currentOrBlank_jobId event)
          (agreesWith_of_reduceVisibility hresult)).of_ok hresult
      intro jobId job' hjob'
      rw [Option.mem_def, Table.find?_upsert] at hjob'
      split at hjob'
      · exact Option.some_inj.1 hjob' ▸ hnext
      · exact hcoherent jobId job' hjob'

theorem Coherent.reconcile (hcoherent : engine.Coherent) (now : Timestamp) :
    (engine.reconcile runtime now).1.Coherent := by
  intro jobId job' hjob'
  obtain ⟨hmem, hid⟩ := Table.find?_eq_some_iff.1 hjob'
  obtain ⟨job, hrow, findings, rfl⟩ := exists_of_mem_reconcileRows _ _ _ job' hmem
  have hold := hcoherent jobId job (Table.find?_eq_some_iff.2 ⟨hrow, hid⟩)
  obtain ⟨observed, retrieved, htimed⟩ := hold.timed
  exact ⟨hold.lastEventTime, hold.dataAsOf, observed, retrieved, { htimed with }⟩

/-! ### Ids along a run -/

/-- A call notes the id of its event only. -/
theorem mem_eventIds_after {call : EngineCall} {id : String}
    (h : id ∈ (engine.after runtime call).eventIds) :
    id ∈ engine.eventIds ∨ ∃ event version, call = .apply event version ∧ event.eventId = id := by
  cases call with
  | reconcile now => exact Or.inl h
  | apply event expectedVersion =>
      have hnote : ∀ {ids : List String}, ids = engine.eventIds ++ [event.eventId] → id ∈ ids →
          id ∈ engine.eventIds ∨ event.eventId = id := by
        rintro ids rfl hmem
        exact (List.mem_append.1 hmem).imp_right fun hlast => (List.mem_singleton.1 hlast).symm
      have hmem : id ∈ engine.eventIds ∨ event.eventId = id := by
        simp only [after] at h
        rcases engine.apply_cases event expectedVersion with
          ⟨-, happly⟩ | ⟨-, -, e, happly⟩ | ⟨-, -, ⟨e, -, happly⟩ | ⟨result, -, happly⟩⟩
        · rw [happly] at h
          exact Or.inl h
        · rw [happly] at h
          exact Or.inl h
        · rw [happly] at h
          exact hnote rfl h
        · rw [happly] at h
          exact hnote rfl h
      exact hmem.imp_right fun hid => ⟨event, expectedVersion, rfl, hid⟩

/-- Nor does a run note other ids. -/
theorem notMem_eventIds_afterAll {calls : List EngineCall} {id : String}
    (hid : id ∉ engine.eventIds)
    (hcalls : ∀ later version, .apply later version ∈ calls → later.eventId ≠ id) :
    id ∉ (engine.afterAll runtime calls).eventIds := by
  induction calls generalizing engine with
  | nil => exact hid
  | cons call calls ih =>
      refine ih (fun hmem => ?_) fun later version hlater =>
        hcalls later version (List.mem_cons_of_mem _ hlater)
      rcases mem_eventIds_after hmem with hold | ⟨event, version, rfl, hsame⟩
      · exact hid hold
      · exact hcalls event version (List.mem_cons_self ..) hsame

/-- An event that is not seen is not taken for a duplicate. -/
theorem decision_of_notMem {decision : ProjectionDecision}
    (hnew : event.eventId ∉ engine.eventIds)
    (h : (engine.apply event expectedVersion).2 = .ok decision) :
    decision.decision ≠ .exactDuplicate := by
  rcases engine.apply_cases event expectedVersion with
    ⟨hseen, -⟩ | ⟨-, -, e, happly⟩ | ⟨-, -, ⟨e, -, happly⟩ | ⟨result, hresult, happly⟩⟩
  · exact absurd hseen hnew
  · rw [happly] at h
    cases h
  · rw [happly] at h
    cases h
  · rw [happly] at h
    cases h
    exact decision_ne_exactDuplicate hresult

/-- What raises is not about an id that was seen. -/
theorem notMem_of_raises (h : engine.Raises event expectedVersion) :
    event.eventId ∉ engine.eventIds := by
  intro hseen
  obtain ⟨e, herror⟩ := h
  rw [apply_of_mem hseen] at herror
  cases herror

end VisibilityEngine

/-! ### Atomicity along a run -/

section Run

variable (runtime : Runtime) {start : VisibilityEngine}

/-- What raises and leaves the engine as it was can be applied later. -/
theorem appliesAtomically_iff_unchanged (calls : List EngineCall) :
    AppliesAtomically runtime start calls ↔ ∀ before event expectedVersion,
      before ++ [.apply event expectedVersion] <+: calls →
      (start.afterAll runtime before).Raises event expectedVersion →
      ((start.afterAll runtime before).apply event expectedVersion).1 =
        start.afterAll runtime before := by
  refine ⟨AppliesAtomically.unchanged, fun hunchanged => ⟨hunchanged, ?_⟩⟩
  intro before event expectedVersion between event' expectedVersion' hinit hraises hbetween hid
    decision hdecision
  have hsame := hunchanged before event expectedVersion ?_ hraises
  · refine VisibilityEngine.decision_of_notMem ?_ hdecision
    rw [hid, VisibilityEngine.afterAll, List.foldl_append, List.foldl_cons]
    refine VisibilityEngine.notMem_eventIds_afterAll ?_ hbetween
    have hafter : VisibilityEngine.after runtime (start.afterAll runtime before)
        (.apply event expectedVersion) = start.afterAll runtime before := hsame
    rw [VisibilityEngine.afterAll] at hafter
    rw [hafter]
    exact VisibilityEngine.notMem_of_raises hraises
  · refine List.IsPrefix.trans ?_ hinit
    rw [List.prefix_append_right_inj]
    exact List.cons_prefix_cons.2 ⟨rfl, List.nil_prefix⟩

/-- **`apply` is atomic along a run exactly when every event that gets to its projection agrees with
it.** -/
theorem appliesAtomically_iff (config : VisibilityConfig) (calls : List EngineCall) :
    AppliesAtomically runtime { config := config } calls ↔ ∀ before event expectedVersion,
      before ++ [.apply event expectedVersion] <+: calls →
      (VisibilityEngine.afterAll runtime { config := config } before).Accepts event
        expectedVersion := by
  rw [appliesAtomically_iff_unchanged]
  -- the conditions are on calls of `apply` only
  have hsteps := Machine.forall_steps_iff (f := fun engine call =>
      VisibilityEngine.after runtime engine call) (I := VisibilityEngine.Coherent)
    (Q := fun engine call => ∀ event expectedVersion, call = .apply event expectedVersion →
      engine.Raises event expectedVersion → (engine.apply event expectedVersion).1 = engine)
    (C := fun engine call => ∀ event expectedVersion, call = .apply event expectedVersion →
      engine.Accepts event expectedVersion)
    (fun engine call hcoherent => ?_) (fun engine call hcoherent haccepts => ?_)
    (VisibilityEngine.coherent_new config) calls
  · constructor
    · intro hunchanged before event expectedVersion hinit
      refine hsteps.1 (fun before call hinit event expectedVersion hcall => ?_) before _ hinit event
        expectedVersion rfl
      subst hcall
      exact hunchanged before event expectedVersion hinit
    · intro haccepts before event expectedVersion hinit
      refine hsteps.2 (fun before call hinit event expectedVersion hcall => ?_) before _ hinit event
        expectedVersion rfl
      subst hcall
      exact haccepts before event expectedVersion hinit
  · exact forall_congr' fun event => forall_congr' fun expectedVersion =>
      imp_congr_right fun _ => VisibilityEngine.apply_unchanged_iff hcoherent
  · cases call with
    | reconcile now => exact hcoherent.reconcile now
    | apply event expectedVersion =>
        exact hcoherent.apply (haccepts event expectedVersion rfl)

/-! ### An event without an offset -/

/-- A machine that keeps UTC. -/
def utcRuntime : Runtime where
  localToUtc wall := .ok wall
  listLimit := 1000000

/-- The first minute is in the calendar. -/
theorem inRange_second (second : ℕ) : Datetime.InRange (seconds (second % 60 : ℕ)) := by
  have hlt := Nat.mod_lt second (by decide : 60 > 0)
  constructor
  · change (0 : ℤ) ≤ (second % 60 : ℕ) * 1000000
    omega
  · change ((second % 60 : ℕ) : ℤ) * 1000000 < ((3652059 * 86400000000 : ℕ) : ℤ)
    omega

/-- A second of the first minute of the calendar, with the offset of UTC or without one. -/
def shownAt (second : ℕ) (aware : Bool) : Timestamp where
  wall := seconds (second % 60 : ℕ)
  offset := if aware then some 0 else none
  wall_inRange := inRange_second second
  offset_inRange := by
    intro o ho
    cases aware with
    | false => cases ho
    | true =>
        cases ho
        decide

@[simp] theorem isAware_shownAt (second : ℕ) (aware : Bool) :
    (shownAt second aware).isAware = aware := by
  cases aware <;> rfl

/-- The job is created. -/
def createdWithOffset : Event where
  eventId := "edr-1"
  eventType := .jobCreated
  eventTime := shownAt 1 true
  ingestionTime := shownAt 2 true
  jobId := "job-1"

/-- Its submission is reported without an offset. -/
def requestedWithoutOffset : Event where
  eventId := "edr-2"
  eventType := .jobSchedulerSubmissionRequested
  eventTime := shownAt 3 false
  ingestionTime := shownAt 4 true
  jobId := "job-1"

/-- **The submission raises and is noted.** -/
theorem not_appliesAtomically_requestedWithoutOffset :
    ¬ ∀ (runtime : Runtime) (config : VisibilityConfig) (calls : List EngineCall),
      AppliesAtomically runtime { config := config } calls := by
  intro hall
  have hunchanged := (hall utcRuntime {}
    [.apply createdWithOffset none, .apply requestedWithoutOffset none]).unchanged
    [.apply createdWithOffset none] requestedWithoutOffset none List.prefix_rfl ⟨_, rfl⟩
  have hids := congrArg VisibilityEngine.eventIds hunchanged
  exact absurd hids (by decide)

end Run

end ScheduledJobs.Mixed
