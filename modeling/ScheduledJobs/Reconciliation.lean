/-
**What `reconcile` returns, and what calls of the engine preserve.**

A check of `reconcile` records a finding under its own code, and returns the finding that is then
there; findings stand under their own codes in every engine, so the codes that are returned about a
job are those of the checks that are due.  Applying an event reduces it into the projection of its
job or only logs it, and reconciling writes findings, so what a reduction preserves, and neither
logging nor recording findings disturbs, holds of every projection after any calls.

Main definitions:

* `Findings.Keyed` — findings stand under their own codes;
* `VisibilityConfig.Reports` — `reconcile` returns a finding about a job;
* `VisibilityEngine.Holds`, `Maintained` — a property of all projections and their events.

Main results:

* `reports_iff` — **what is returned is what is due**;
* `Holds.apply`, `Holds.reconcile`, `holds_perform` — **what calls preserve**;
* `forall_calls_iff` — **a property holds after any calls exactly when every event that is applied
  meets a condition**.
-/

import ScheduledJobs.ProjectionGrowth
import ScheduledJobs.Redelivery

set_option relaxedAutoImplicit false
set_option autoImplicit false

namespace ScheduledJobs

open JobVisibility

/-! ### Findings under their codes -/

namespace Findings

/-- Findings stand under their own codes. -/
def Keyed (findings : Findings) : Prop :=
  ∀ code finding, findings.get? code = some finding → finding.code = code

variable {findings : Findings}

theorem Keyed.observe (h : findings.Keyed) (code : FindingCode) (t : Datetime) (message : String) :
    (findings.observe code t message).Keyed :=
  (Grows.observe findings code t message).keyed h

theorem Keyed.code_observation (h : findings.Keyed) (code : FindingCode) (t : Datetime)
    (message : String) : (findings.observation code t message).code = code := by
  unfold observation
  cases hfind : findings.get? code with
  | none => rfl
  | some existing => exact h code existing hfind

/-- **Findings that are recorded one after the other have the codes they are recorded under.** -/
theorem Keyed.observeAll (h : findings.Keyed) (t : Datetime)
    (checks : List (FindingCode × String)) :
    Keyed (observeAll findings t checks).1 ∧
      (observeAll findings t checks).2.map Finding.code = checks.map Prod.fst := by
  induction checks generalizing findings with
  | nil => exact ⟨h, rfl⟩
  | cons check checks ih =>
      obtain ⟨hlater, hcodes⟩ := ih (h.observe check.1 t check.2)
      exact ⟨hlater, congrArg₂ List.cons (h.code_observation check.1 t check.2) hcodes⟩

end Findings

/-! ### What is returned -/

namespace VisibilityConfig

variable {config : VisibilityConfig} {job : JobVisibility} {now : Datetime}

/-- **`reconcile` returns a finding about the job.** -/
def Reports (config : VisibilityConfig) (job : JobVisibility) (now : Datetime)
    (code : FindingCode) : Prop :=
  ∃ finding ∈ (config.reconcileJob now job).2, finding.code = code

instance (config : VisibilityConfig) (job : JobVisibility) (now : Datetime) (code : FindingCode) :
    Decidable (config.Reports job now code) :=
  inferInstanceAs (Decidable (∃ finding ∈ _, _))

/-- **What is returned is what is due.** -/
theorem reports_iff (h : Findings.Keyed job.findings) {code : FindingCode} :
    config.Reports job now code ↔ code ∈ (config.due job now).map Prod.fst := by
  rw [← (h.observeAll now (config.due job now)).2, List.mem_map]
  rfl

/-- What is due is what one of the checks finds. -/
theorem reports_iff_check (h : Findings.Keyed job.findings) {code : FindingCode} :
    config.Reports job now code ↔
      ∃ check ∈ config.checks job now, check.1 = true ∧ check.2.1 = code := by
  rw [reports_iff h, due, List.map_map, List.mem_map]
  simp only [List.mem_filter, Function.comp_apply, and_assoc]

/-- More than the timeout has passed since. -/
def Elapsed (now : Datetime) (since : Option Datetime) (timeout : ℤ) : Prop :=
  ∃ t ∈ since, seconds timeout < now - t

theorem any_iff_elapsed {since : Option Datetime} {timeout : ℤ} :
    (since.any fun t => decide (seconds timeout < now - t)) = true ↔
      Elapsed now since timeout := by
  simp only [Option.any_eq_true, decide_eq_true_eq, Elapsed, Option.mem_def]

theorem reports_schedulerAckTimeout_iff (h : Findings.Keyed job.findings) :
    config.Reports job now .schedulerAckTimeout ↔ job.recordedStatus = .pendingSubmission ∧
      Elapsed now job.submissionRequestedAt config.submissionAcknowledgementTimeoutSeconds := by
  rw [reports_iff_check h, ← any_iff_elapsed]
  simp [checks]

theorem reports_runningTimeout_iff (h : Findings.Keyed job.findings) :
    config.Reports job now .runningTimeout ↔ job.recordedStatus = .running ∧
      Elapsed now job.startedAt config.runningTimeoutSeconds := by
  rw [reports_iff_check h, ← any_iff_elapsed]
  simp [checks]

theorem reports_retryAckTimeout_iff (h : Findings.Keyed job.findings) :
    config.Reports job now .retryAckTimeout ↔
      job.retryRequested = true ∧ job.retryAcknowledged = false ∧
        Elapsed now job.retryRequestedAt config.retryAcknowledgementTimeoutSeconds := by
  rw [reports_iff_check h, ← any_iff_elapsed]
  simp [checks, and_assoc]

end VisibilityConfig

/-! ### What calls preserve -/

theorem eventsOf_concat (jobId : String) (events : List Event) (event : Event) :
    eventsOf jobId (events ++ [event]) =
      if event.jobId = jobId then eventsOf jobId events ++ [event] else eventsOf jobId events := by
  rw [eventsOf, List.filter_append]
  split
  · next h => simp [h, eventsOf]
  · next h => simp [h, eventsOf]

namespace VisibilityEngine

variable {engine later : VisibilityEngine} {P : List Event → JobVisibility → Prop}

/-- **A property of the projection of every job and of the events it was reduced from.** -/
structure Holds (P : List Event → JobVisibility → Prop) (engine : VisibilityEngine) : Prop where
  job : ∀ jobId job, engine.jobs.find? jobId = some job → P (eventsOf jobId engine.events) job
  absent : ∀ jobId, engine.jobs.find? jobId = none → eventsOf jobId engine.events = []

theorem Holds.fresh (config : VisibilityConfig) : Holds P { config := config } where
  job := fun jobId job hjob => by cases hjob
  absent := fun _ _ => rfl

/-- It holds of the projection an event is reduced into. -/
theorem Holds.current (h : engine.Holds P) (hblank : ∀ jobId, P [] { jobId := jobId })
    (event : Event) : P (eventsOf event.jobId engine.events)
      (currentOrBlank (engine.jobs.find? event.jobId) event) := by
  cases hcurrent : engine.jobs.find? event.jobId with
  | none =>
      rw [h.absent _ hcurrent]
      exact hblank event.jobId
  | some job => exact h.job _ job hcurrent

/-- An event that was seen is only logged. -/
theorem apply_seen {event : Event} {decision : ProjectionDecision}
    (hseen : event.eventId ∈ engine.eventIds) (h : engine.apply event = .ok (later, decision)) :
    later.config = engine.config ∧ later.events = engine.events ∧
      later.eventIds = engine.eventIds ∧ ∀ jobId,
        (later.jobs.find? jobId = none ∧ engine.jobs.find? jobId = none) ∨
          ∃ job decisions, engine.jobs.find? jobId = some job ∧
            later.jobs.find? jobId = some { job with decisions := decisions } := by
  simp only [apply, if_pos hseen, Except.ok.injEq, Prod.mk.injEq] at h
  obtain ⟨rfl, -⟩ := h
  refine ⟨rfl, rfl, rfl, fun jobId => ?_⟩
  have hsame : (engine.jobs.find? jobId = none ∧ engine.jobs.find? jobId = none) ∨
      ∃ job decisions, engine.jobs.find? jobId = some job ∧
        engine.jobs.find? jobId = some { job with decisions := decisions } := by
    cases hjob : engine.jobs.find? jobId with
    | none => exact Or.inl ⟨rfl, rfl⟩
    | some job => exact Or.inr ⟨job, job.decisions, rfl, rfl⟩
  cases hcurrent : engine.jobs.find? event.jobId with
  | none => exact hsame
  | some job =>
      let logged : JobVisibility :=
        { job with decisions := job.decisions ++
            [⟨event.eventId, .exactDuplicate, some "eventId seen"⟩] }
      have hkey : job.jobId = event.jobId := Table.key_of_find? hcurrent
      have hfound : engine.jobs.find? logged.jobId = some job :=
        (congrArg engine.jobs.find? hkey).trans hcurrent
      have hreplaced := Table.find?_replace_of_find? hfound jobId
      dsimp only
      rw [hreplaced]
      split
      · next heq => exact Or.inr ⟨job, _, by rw [heq, ← hcurrent, ← hkey], rfl⟩
      · exact hsame

/-- **Applying an event.** -/
theorem Holds.apply {event : Event} {decision : ProjectionDecision} (h : engine.Holds P)
    (hlogged : ∀ before job decisions, P before job →
      P before { job with decisions := decisions })
    (hstep : event.eventId ∉ engine.eventIds →
      P (eventsOf event.jobId engine.events ++ [event])
        (reduceEvent (engine.jobs.find? event.jobId) event).job)
    (happly : engine.apply event = .ok (later, decision)) : later.Holds P := by
  by_cases hseen : event.eventId ∈ engine.eventIds
  · obtain ⟨-, hevents, -, hjobs⟩ := apply_seen hseen happly
    constructor
    · intro jobId job hjob
      rw [hevents]
      rcases hjobs jobId with ⟨hnone, -⟩ | ⟨old, decisions, hold, hlater⟩
      · cases hnone.symm.trans hjob
      · obtain rfl := Option.some_inj.1 (hlater.symm.trans hjob)
        exact hlogged _ old decisions (h.job jobId old hold)
    · intro jobId hnone
      rw [hevents]
      rcases hjobs jobId with ⟨-, habsent⟩ | ⟨old, decisions, -, hlater⟩
      · exact h.absent jobId habsent
      · cases hnone.symm.trans hlater
  · rw [apply_of_notMem hseen, Except.ok.injEq, Prod.mk.injEq] at happly
    obtain ⟨rfl, -⟩ := happly
    constructor
    · intro jobId job hjob
      rw [Table.find?_upsert, jobId_reduceEvent_find?] at hjob
      rw [eventsOf_concat]
      split at hjob
      · next heq =>
          subst heq
          obtain rfl := Option.some_inj.1 hjob
          rw [if_pos rfl]
          exact hstep hseen
      · next hne =>
          rw [if_neg (Ne.symm hne)]
          exact h.job jobId job hjob
    · intro jobId hnone
      rw [Table.find?_upsert, jobId_reduceEvent_find?] at hnone
      rw [eventsOf_concat]
      split at hnone
      · cases hnone
      · next hne =>
          rw [if_neg (Ne.symm hne)]
          exact h.absent jobId hnone

theorem find?_reconcile (engine : VisibilityEngine) (now : Datetime) (jobId : String) :
    (engine.reconcile now).1.jobs.find? jobId =
      (engine.jobs.find? jobId).map fun job => (engine.config.reconcileJob now job).1 :=
  Table.find?_mapRows engine.jobs (f := fun job => (engine.config.reconcileJob now job).1)
    (fun _ => rfl) jobId

/-- **Reconciling.** -/
theorem Holds.reconcile (h : engine.Holds P)
    (hreconciled : ∀ before job config now, P before job →
      P before (VisibilityConfig.reconcileJob config now job).1) (now : Datetime) :
    (engine.reconcile now).1.Holds P := by
  constructor
  · intro jobId job hjob
    rw [find?_reconcile, Option.map_eq_some_iff] at hjob
    obtain ⟨old, hold, rfl⟩ := hjob
    exact hreconciled _ old _ now (h.job jobId old hold)
  · intro jobId hnone
    rw [find?_reconcile, Option.map_eq_none_iff] at hnone
    exact h.absent jobId hnone

/-! ### Sequences of calls -/

variable {ops : List EngineCall} {reports : List (List Finding)}

theorem perform_apply_cons {event : Event} :
    engine.perform (.apply event :: ops) = .ok (later, reports) ↔
      ∃ next decision, engine.apply event = .ok (next, decision) ∧
        next.perform ops = .ok (later, reports) := by
  rw [perform, Except.bind_eq_ok_iff, Prod.exists]

theorem perform_reconcile_cons {now : Datetime} :
    engine.perform (.reconcile now :: ops) = .ok (later, reports) ↔
      ∃ rest, (engine.reconcile now).1.perform ops = .ok (later, rest) ∧
        reports = (engine.reconcile now).2 :: rest := by
  rw [perform, Except.bind_eq_ok_iff, Prod.exists]
  constructor
  · rintro ⟨last, rest, hrest, heq⟩
    cases heq
    exact ⟨rest, hrest, rfl⟩
  · rintro ⟨rest, hrest, rfl⟩
    exact ⟨later, rest, hrest, rfl⟩

/-- One more call. -/
theorem perform_concat {call : EngineCall} :
    engine.perform (ops ++ [call]) = .ok (later, reports) ↔
      ∃ middle first last, engine.perform ops = .ok (middle, first) ∧
        middle.perform [call] = .ok (later, last) ∧ reports = first ++ last := by
  induction ops generalizing engine reports with
  | nil =>
      rw [List.nil_append]
      constructor
      · exact fun h => ⟨engine, [], reports, rfl, h, rfl⟩
      · rintro ⟨middle, first, last, hfirst, hlast, rfl⟩
        cases hfirst
        exact hlast
  | cons op ops ih =>
      cases op with
      | apply event =>
          simp only [List.cons_append, perform_apply_cons, ih]
          constructor
          · rintro ⟨next, decision, happly, middle, first, last, hfirst, hlast, hreports⟩
            exact ⟨middle, first, last, ⟨next, decision, happly, hfirst⟩, hlast, hreports⟩
          · rintro ⟨middle, first, last, ⟨next, decision, happly, hfirst⟩, hlast, hreports⟩
            exact ⟨next, decision, happly, middle, first, last, hfirst, hlast, hreports⟩
      | reconcile now =>
          simp only [List.cons_append, perform_reconcile_cons, ih]
          constructor
          · rintro ⟨_, ⟨middle, first, last, hfirst, hlast, rfl⟩, rfl⟩
            exact ⟨middle, _, last, ⟨first, hfirst, rfl⟩, hlast, rfl⟩
          · rintro ⟨middle, _, last, ⟨first, hfirst, rfl⟩, hlast, rfl⟩
            exact ⟨_, ⟨middle, first, last, hfirst, hlast, rfl⟩, rfl⟩

theorem perform_singleton_apply {event : Event} :
    engine.perform [.apply event] = .ok (later, reports) ↔
      (∃ decision, engine.apply event = .ok (later, decision)) ∧ reports = [] := by
  rw [perform_apply_cons]
  constructor
  · rintro ⟨next, decision, happly, hlast⟩
    cases hlast
    exact ⟨⟨decision, happly⟩, rfl⟩
  · rintro ⟨⟨decision, happly⟩, rfl⟩
    exact ⟨later, decision, happly, rfl⟩

theorem perform_singleton_reconcile {now : Datetime} :
    engine.perform [.reconcile now] = .ok (later, reports) ↔
      later = (engine.reconcile now).1 ∧ reports = [(engine.reconcile now).2] := by
  rw [perform_reconcile_cons]
  constructor
  · rintro ⟨rest, hlast, rfl⟩
    cases hlast
    exact ⟨rfl, rfl⟩
  · rintro ⟨rfl, rfl⟩
    exact ⟨[], rfl, rfl⟩

/-- A property that a reduction preserves, and neither logging nor reconciling disturbs. -/
structure Maintained (P : List Event → JobVisibility → Prop) : Prop where
  blank : ∀ jobId, P [] { jobId := jobId }
  reduced : ∀ before event current, P before (currentOrBlank current event) →
    P (before ++ [event]) (reduceEvent current event).job
  logged : ∀ before job decisions, P before job → P before { job with decisions := decisions }
  reconciled : ∀ before job config now, P before job →
    P before (VisibilityConfig.reconcileJob config now job).1

/-- **It holds after any calls.** -/
theorem holds_perform (hP : Maintained P) {config : VisibilityConfig}
    (h : VisibilityEngine.perform { config := config } ops = .ok (engine, reports)) :
    engine.Holds P := by
  induction ops using List.reverseRecOn generalizing engine reports with
  | nil =>
      cases h
      exact Holds.fresh config
  | append_singleton ops call ih =>
      obtain ⟨middle, first, last, hfirst, hlast, -⟩ := perform_concat.1 h
      have hmiddle := ih hfirst
      cases call with
      | apply event =>
          obtain ⟨⟨decision, happly⟩, -⟩ := perform_singleton_apply.1 hlast
          refine hmiddle.apply hP.logged (fun _ => ?_) happly
          exact hP.reduced _ event _ (hmiddle.current hP.blank event)
      | reconcile now =>
          obtain ⟨rfl, -⟩ := perform_singleton_reconcile.1 hlast
          exact hmiddle.reconcile hP.reconciled now

section Runs

variable {M S : List Event → JobVisibility → Prop} {C : JobVisibility → Event → Prop}
  {config : VisibilityConfig}

/-- **A property holds after any calls exactly when every event that is applied meets a
condition** on the projection it is reduced into, where `M` is what the calls maintain anyway. -/
theorem forall_calls_iff (hM : Maintained M) (hblank : ∀ jobId, S [] { jobId := jobId })
    (hstep : ∀ before event current, M before (currentOrBlank current event) →
      S before (currentOrBlank current event) →
      (S (before ++ [event]) (reduceEvent current event).job ↔
        C (currentOrBlank current event) event))
    (hlogged : ∀ before job decisions, S before job →
      S before { job with decisions := decisions })
    (hreconciled : ∀ before job config now, S before job →
      S before (VisibilityConfig.reconcileJob config now job).1) :
    (∀ calls, calls <+: ops → ∀ engine reports,
        VisibilityEngine.perform { config := config } calls = .ok (engine, reports) →
        ∀ jobId job, engine.jobs.find? jobId = some job →
          S (eventsOf jobId engine.events) job) ↔
      ∀ calls event, calls ++ [.apply event] <+: ops → ∀ engine reports,
        VisibilityEngine.perform { config := config } calls = .ok (engine, reports) →
        event.eventId ∉ engine.eventIds →
          C (currentOrBlank (engine.jobs.find? event.jobId) event) event := by
  constructor
  · intro h calls event hinit engine reports hperform hfresh
    have hmaintained := holds_perform hM hperform
    have hholds : engine.Holds S :=
      ⟨h calls ((List.prefix_append ..).trans hinit) engine reports hperform, hmaintained.absent⟩
    have hlater := perform_concat.2 ⟨engine, reports, [], hperform,
      perform_singleton_apply.2 ⟨⟨_, apply_of_notMem hfresh⟩, rfl⟩, rfl⟩
    have hafter := h _ hinit _ _ hlater event.jobId
      (reduceEvent (engine.jobs.find? event.jobId) event).job (by
        rw [Table.find?_upsert, jobId_reduceEvent_find?, if_pos rfl])
    rw [eventsOf_concat, if_pos rfl] at hafter
    exact (hstep _ event _ (hmaintained.current hM.blank event)
      (hholds.current hblank event)).1 hafter
  · intro h
    have hholds : ∀ calls, calls <+: ops → ∀ engine reports,
        VisibilityEngine.perform { config := config } calls = .ok (engine, reports) →
        engine.Holds S := by
      intro calls
      induction calls using List.reverseRecOn with
      | nil =>
          intro _ engine reports hperform
          cases hperform
          exact Holds.fresh config
      | append_singleton calls call ih =>
          intro hinit engine reports hperform
          obtain ⟨middle, first, last, hfirst, hlast, -⟩ := perform_concat.1 hperform
          have hmiddle := ih ((List.prefix_append ..).trans hinit) middle first hfirst
          cases call with
          | apply event =>
              obtain ⟨⟨decision, happly⟩, -⟩ := perform_singleton_apply.1 hlast
              refine hmiddle.apply hlogged (fun hfresh => ?_) happly
              exact (hstep _ event _ ((holds_perform hM hfirst).current hM.blank event)
                (hmiddle.current hblank event)).2 (h calls event hinit middle first hfirst hfresh)
          | reconcile now =>
              obtain ⟨rfl, -⟩ := perform_singleton_reconcile.1 hlast
              exact hmiddle.reconcile hreconciled now
    exact fun calls hinit engine reports hperform =>
      (hholds calls hinit engine reports hperform).job

end Runs

end VisibilityEngine

/-- The events, applied one after the other. -/
def appliedCalls (events : List Event) : List EngineCall := events.map .apply

/-- The projection of a job after the calls. -/
def projectionAfter (config : VisibilityConfig) (ops : List EngineCall) (jobId : String) :
    Option JobVisibility :=
  (VisibilityEngine.perform { config := config } ops).toOption.bind fun result =>
    result.1.jobs.find? jobId

/-- A projection that passes a test belongs to an engine. -/
theorem exists_perform_of_projectionAfter {config : VisibilityConfig} {ops : List EngineCall}
    {jobId : String} {test : JobVisibility → Bool}
    (h : (projectionAfter config ops jobId).any test = true) :
    ∃ engine reports job,
      VisibilityEngine.perform { config := config } ops = .ok (engine, reports) ∧
      engine.jobs.find? jobId = some job ∧ test job = true := by
  obtain ⟨job, hfound, htest⟩ := (Option.any_eq_true ..).1 h
  obtain ⟨⟨engine, reports⟩, hresult, hjob⟩ := Option.bind_eq_some_iff.1 hfound
  refine ⟨engine, reports, job, ?_, hjob, htest⟩
  cases hperform : VisibilityEngine.perform { config := config } ops with
  | ok result =>
      rw [hperform] at hresult
      exact congrArg Except.ok (Option.some_inj.1 hresult)
  | error e =>
      rw [hperform] at hresult
      cases hresult

end ScheduledJobs
