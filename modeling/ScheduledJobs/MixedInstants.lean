/-
**Queries on timestamps of both kinds, and on their instants.**

The engine without exceptions knows instants only, and none of its comparisons raises.  What the
engine on timestamps of both kinds does without raising is what that engine does on the instants: it
applies the instants of the events, and answers about the instants of the jobs.  So what is known of
the answers about instants holds of every answer that is given.

Only what is displayed asks for more: a timestamp without an offset is displayed in the zone of the
machine, so it has to have one to be displayed as its instant.

Main definitions:

* `VisibilityEngine.instants`, `SearchFilters.instants` — the engine and the filters with instants
  for timestamps.

Main results:

* `derivedStatus_instants`, `delayClassification_instants`, `response_instants` — **an answer that
  is given is the answer about the instants**;
* `VisibilityEngine.apply_instants`, `VisibilityEngine.applyAll_instants` — so is what an event that
  is accepted leaves;
* `VisibilityEngine.get_instants`, `VisibilityEngine.search_instants`,
  `VisibilityEngine.reconcile_instants` — and what the queries return;
* `answers_instants` — **both engines answer alike about events that are accepted**.
-/

import ScheduledJobs.AnswerableQueries

set_option relaxedAutoImplicit false
set_option autoImplicit false

namespace ScheduledJobs.Mixed

/-! ### The time-derived view -/

section View

variable {runtime : Runtime} {config : VisibilityConfig} {job : JobVisibility} {now : Timestamp}

/-- A job that is overdue waits, and its threshold is compared as an instant. -/
theorem isOverdue_instants {overdue : Bool} (h : isOverdue config job now = .ok overdue) :
    config.isOverdue job.instants now.instant = overdue := by
  cases hscheduled : job.scheduledAt with
  | none =>
      rw [isOverdue, hscheduled] at h
      cases h
      simp [VisibilityConfig.isOverdue, JobVisibility.instants, hscheduled]
  | some t =>
      have hoverdue : config.isOverdue job.instants now.instant = true ↔
          job.Waits ∧ t.instant + seconds config.gracePeriodSeconds < now.instant := by
        simp [VisibilityConfig.isOverdue, JobVisibility.instants, hscheduled, JobVisibility.Waits]
      rw [Bool.eq_iff_iff, hoverdue]
      by_cases hwaits : job.Waits
      · rw [isOverdue_of_waits hwaits hscheduled h, decide_eq_true_eq]
        exact and_iff_right hwaits
      · exact iff_of_false (fun hand => hwaits hand.1) fun htrue =>
          hwaits (waits_of_isOverdue (htrue ▸ h))

theorem derivedStatus_instants {status : Status} (h : derivedStatus config job now = .ok status) :
    config.derivedStatus job.instants now.instant = status := by
  rw [derivedStatus] at h
  split at h
  · next hkept =>
      cases h
      exact if_pos hkept
  · next hkept =>
      refine (if_neg hkept).trans ?_
      cases hscheduled : job.scheduledAt with
      | none =>
          rw [hscheduled] at h
          cases h
          simp only [JobVisibility.instants, hscheduled, Option.map_none]
      | some t =>
          rw [hscheduled] at h
          simp only at h
          have hscheduled' : job.instants.scheduledAt = some t.instant :=
            congrArg (Option.map Timestamp.instant) hscheduled
          rw [hscheduled']
          split at h
          · next hwaits =>
              obtain ⟨overdue, hoverdue, hrest⟩ := Except.bind_eq_ok_iff.1 h
              simp only [isOverdue_instants hoverdue]
              refine (if_pos hwaits).trans ?_
              cases overdue with
              | true =>
                  cases hrest
                  rfl
              | false =>
                  obtain ⟨due, hdue, hstatus⟩ := Except.bind_eq_ok_iff.1 hrest
                  cases hstatus
                  simp only [← Timestamp.of_le hdue, decide_eq_true_eq]
                  rfl
          · next hwaits =>
              cases h
              exact if_neg hwaits

theorem delayClassification_instants {status : Status}
    {classification : Option DelayClassification}
    (h : delayClassification config job now status = .ok classification) :
    config.delayClassification job.instants now.instant status = classification := by
  simp only [VisibilityConfig.delayClassification, JobVisibility.instants]
  cases hscheduled : job.scheduledAt with
  | none =>
      rw [delayClassification, hscheduled] at h
      cases h
      rfl
  | some t =>
      cases hstarted : job.startedAt with
      | some s =>
          rw [delayClassification, hscheduled, hstarted] at h
          cases h
          rfl
      | none =>
          rw [delayClassification, hscheduled, hstarted] at h
          obtain ⟨early, hearly, hrest⟩ := Except.bind_eq_ok_iff.1 h
          simp only [← Timestamp.of_lt hearly, decide_eq_true_eq] at hrest
          simp only [Option.map_some, Option.map_none, Option.isSome_map]
          split at hrest
          · next hlt =>
              cases hrest
              exact if_pos hlt
          · next hlt =>
              rw [if_neg hlt]
              split at hrest
              · next hoverdue =>
                  cases hrest
                  exact if_pos hoverdue
              · next hoverdue =>
                  rw [if_neg hoverdue]
                  split at hrest
                  · next hretrieved =>
                      cases hrest
                      exact if_pos hretrieved
                  · next hretrieved =>
                      rw [if_neg hretrieved]
                      obtain ⟨firstPoll, hinstant, hcompare⟩ := Timestamp.exists_of_reach hrest
                      obtain ⟨waiting, hwaiting, hclass⟩ := Except.bind_eq_ok_iff.1 hcompare
                      cases hclass
                      simp only [← Timestamp.of_lt hwaiting, hinstant, decide_eq_true_eq]

theorem delaySince_instants {since : Option Timestamp} {delay : Option ℕ}
    (h : delaySince job now since = .ok delay) :
    (since.map Timestamp.instant).map (fun t =>
      wholeSeconds (job.instants.startedAt.getD now.instant - t)) = delay := by
  cases since with
  | none => cases h; rfl
  | some t =>
      obtain ⟨difference, hdifference, hdelay⟩ := Except.bind_eq_ok_iff.1 h
      cases hdelay
      rw [← Timestamp.of_sub hdifference]
      cases hstarted : job.startedAt <;> simp [JobVisibility.instants, hstarted]

theorem possiblyStale_instants {stale : Bool} (h : possiblyStale config job now = .ok stale) :
    job.instants.dataAsOf.any (fun dataAsOf =>
      decide (seconds config.eventualConsistencyTargetSeconds < now.instant - dataAsOf)) =
        stale := by
  unfold possiblyStale at h
  cases hdata : job.dataAsOf with
  | none =>
      rw [hdata] at h
      cases h
      simp [JobVisibility.instants, hdata]
  | some t =>
      rw [hdata] at h
      obtain ⟨age, hage, hrest⟩ := Except.bind_eq_ok_iff.1 h
      obtain ⟨target, htarget, hstale⟩ := Except.bind_eq_ok_iff.1 hrest
      obtain ⟨-, rfl⟩ := timedelta_eq_ok_iff.1 htarget
      cases hstale
      rw [← Timestamp.of_sub hage]
      simp [JobVisibility.instants, hdata]

theorem overdueDuration_instants {duration : ℕ}
    (h : overdueDuration config job now = .ok duration) :
    config.overdueDuration job.instants now.instant = duration := by
  obtain ⟨overdue, hoverdue, hrest⟩ := Except.bind_eq_ok_iff.1 h
  simp only [VisibilityConfig.overdueDuration, isOverdue_instants hoverdue]
  cases hscheduled : job.scheduledAt with
  | none =>
      rw [hscheduled] at hrest
      cases hrest
      simp [JobVisibility.instants, hscheduled]
  | some t =>
      rw [hscheduled] at hrest
      simp only [JobVisibility.instants, hscheduled, Option.map_some]
      cases overdue with
      | false =>
          cases hrest
          rfl
      | true =>
          obtain ⟨threshold, hinstant, hcompare⟩ := Timestamp.exists_of_reach hrest
          obtain ⟨difference, hdifference, hduration⟩ := Except.bind_eq_ok_iff.1 hcompare
          cases hduration
          rw [← Timestamp.of_sub hdifference, hinstant]
          rfl

theorem toDict_instants {finding : Finding} {view : FindingView}
    (hfirst : finding.firstObservedAt.isAware = true)
    (hresolved : ∀ t ∈ finding.resolvedAt, t.isAware = true)
    (h : finding.toDict runtime = .ok view) : finding.instants.toDict = view := by
  obtain ⟨firstObservedAt, hfirst', hrest⟩ := Except.bind_eq_ok_iff.1 h
  obtain ⟨resolvedAt, hresolved', hview⟩ := Except.bind_eq_ok_iff.1 hrest
  cases hview
  rw [Timestamp.iso_of_aware runtime hfirst hfirst', iso_of_aware runtime hresolved hresolved']
  rfl

theorem processingDelay_instants (config : VisibilityConfig) (now : Timestamp) {delay : Option ℕ}
    (h : processingDelay job = .ok delay) :
    (config.response job.instants now.instant).freshness.processingDelaySeconds = delay := by
  unfold processingDelay at h
  simp only [VisibilityConfig.response, JobVisibility.instants]
  cases hdata : job.dataAsOf with
  | none =>
      rw [hdata] at h
      cases h
      rfl
  | some t =>
      cases hlast : job.lastEventTime with
      | none =>
          rw [hdata, hlast] at h
          cases h
          rfl
      | some l =>
          rw [hdata, hlast] at h
          obtain ⟨difference, hdifference, hdelay⟩ := Except.bind_eq_ok_iff.1 h
          cases hdelay
          rw [← Timestamp.of_sub hdifference]
          rfl

/-- **An answer that is given is the answer about the instants**, when what it displays has
offsets. -/
theorem response_instants {item : JobResponse}
    (haware : ∀ value ∈ job.displayed, ∀ t ∈ value, t.isAware = true)
    (h : response runtime config job now = .ok item) :
    config.response job.instants now.instant = item := by
  have hiso : ∀ value ∈ job.displayed, ∀ text, iso runtime value = .ok text →
      (value.map Timestamp.instant).map ScheduledJobs.iso = text :=
    fun value hvalue text htext => (iso_of_aware runtime (haware value hvalue) htext).symm
  have hfinding : ∀ finding ∈ job.findings.values, ∀ view, finding.toDict runtime = .ok view →
      finding.instants.toDict = view := by
    intro finding hfinding view hview
    have hmem : ∀ value ∈ [some finding.firstObservedAt, finding.resolvedAt],
        value ∈ job.displayed := fun value hvalue =>
      List.mem_append_right _ (List.mem_flatMap.2 ⟨finding, hfinding, hvalue⟩)
    exact toDict_instants (haware _ (hmem _ (by simp)) _ rfl) (haware _ (hmem _ (by simp))) hview
  simp only [JobVisibility.displayed, List.forall_mem_append, List.forall_mem_cons] at hiso
  obtain ⟨⟨hcreatedAt, hsubmission, hacknowledged, hscheduled, hretrieved, hstarted, hcompleted,
    hfailure, hretry, hdata, -⟩, -⟩ := hiso
  -- the steps of the answer, in the order in which they may raise
  obtain ⟨status, hstatus, h⟩ := Except.bind_eq_ok_iff.1 h
  obtain ⟨classification, hclassification, h⟩ := Except.bind_eq_ok_iff.1 h
  obtain ⟨startDelay, hstartDelay, h⟩ := Except.bind_eq_ok_iff.1 h
  obtain ⟨postRetrieval, hpostRetrieval, h⟩ := Except.bind_eq_ok_iff.1 h
  obtain ⟨stale, hstale, h⟩ := Except.bind_eq_ok_iff.1 h
  obtain ⟨processing, hprocessing, h⟩ := Except.bind_eq_ok_iff.1 h
  obtain ⟨createdAt, hcreatedAt', h⟩ := Except.bind_eq_ok_iff.1 h
  obtain ⟨submissionRequestedAt, hsubmission', h⟩ := Except.bind_eq_ok_iff.1 h
  obtain ⟨schedulerAcknowledgedAt, hacknowledged', h⟩ := Except.bind_eq_ok_iff.1 h
  obtain ⟨scheduledAt, hscheduled', h⟩ := Except.bind_eq_ok_iff.1 h
  obtain ⟨schedulerRetrievedAt, hretrieved', h⟩ := Except.bind_eq_ok_iff.1 h
  obtain ⟨startedAt, hstarted', h⟩ := Except.bind_eq_ok_iff.1 h
  obtain ⟨completedAt, hcompleted', h⟩ := Except.bind_eq_ok_iff.1 h
  obtain ⟨lastFailureAt, hfailure', h⟩ := Except.bind_eq_ok_iff.1 h
  obtain ⟨nextRetryAt, hretry', h⟩ := Except.bind_eq_ok_iff.1 h
  obtain ⟨overdue, hoverdue, h⟩ := Except.bind_eq_ok_iff.1 h
  obtain ⟨dataAsOf, hdata', h⟩ := Except.bind_eq_ok_iff.1 h
  obtain ⟨findings, hfindings, h⟩ := Except.bind_eq_ok_iff.1 h
  cases h
  obtain rfl := derivedStatus_instants hstatus
  obtain rfl := delayClassification_instants hclassification
  obtain rfl := delaySince_instants hstartDelay
  obtain rfl := delaySince_instants hpostRetrieval
  obtain rfl := possiblyStale_instants hstale
  obtain rfl := processingDelay_instants config now hprocessing
  obtain rfl := overdueDuration_instants hoverdue
  obtain rfl := hcreatedAt _ hcreatedAt'
  obtain rfl := hsubmission _ hsubmission'
  obtain rfl := hacknowledged _ hacknowledged'
  obtain rfl := hscheduled _ hscheduled'
  obtain rfl := hretrieved _ hretrieved'
  obtain rfl := hstarted _ hstarted'
  obtain rfl := hcompleted _ hcompleted'
  obtain rfl := hfailure _ hfailure'
  obtain rfl := hretry _ hretry'
  obtain rfl := hdata _ hdata'
  obtain rfl := Except.map_eq_of_mapM_eq_ok hfinding hfindings
  simp only [VisibilityConfig.response, JobVisibility.instants, Dict.values_mapValues,
    List.map_map]
  rfl

end View

/-! ### What is found overdue -/

section Reconcile

variable {runtime : Runtime} {config : VisibilityConfig} {job : JobVisibility} {now : Timestamp}

theorem observation_instants (findings : Findings) (code : FindingCode) (observedAt : Timestamp)
    (message : String) :
    (findings.observation code observedAt message).instants =
      ScheduledJobs.Findings.observation (findings.mapValues Finding.instants) code
        observedAt.instant message := by
  simp only [Findings.observation, ScheduledJobs.Findings.observation, Dict.get?_mapValues]
  cases findings.get? code <;> rfl

theorem elapsed_instants {since : Option Timestamp} {timeout : ℤ} {passed : Bool}
    (h : elapsed now since timeout = .ok passed) :
    (since.map Timestamp.instant).any (fun t => decide (seconds timeout < now.instant - t)) =
      passed := by
  cases since with
  | none => cases h; rfl
  | some t =>
      obtain ⟨age, hage, hrest⟩ := Except.bind_eq_ok_iff.1 h
      obtain ⟨limit, hlimit, hpassed⟩ := Except.bind_eq_ok_iff.1 hrest
      obtain ⟨-, rfl⟩ := timedelta_eq_ok_iff.1 hlimit
      cases hpassed
      rw [← Timestamp.of_sub hage]
      rfl

theorem hasSequenceGap_instants {gap : Bool} (h : hasSequenceGap runtime job = .ok gap) :
    (!(job.instants.attempts.keys.insertionSort (· ≤ ·)).isEmpty &&
      decide (job.instants.attempts.keys.insertionSort (· ≤ ·) ≠
        List.range' 1 ((job.instants.attempts.keys.insertionSort (· ≤ ·)).foldr max 0))) = gap := by
  simp only [JobVisibility.instants, Dict.keys_mapValues]
  simp only [hasSequenceGap] at h
  split at h
  · next hempty =>
      cases h
      rw [hempty]
      rfl
  · next hsome =>
      obtain ⟨all, hall, hgap⟩ := Except.bind_eq_ok_iff.1 h
      cases hgap
      unfold numbersUpTo at hall
      split at hall
      · cases hall
        rw [Bool.not_eq_true] at hsome
        rw [hsome, Bool.not_false, Bool.true_and]
      · cases hall

/-- A check of `reconcile` on timestamps, and one on instants that agrees with it when it
returns. -/
def CheckInstants (check : Except EngineError Bool × FindingCode × String)
    (check' : Bool × FindingCode × String) : Prop :=
  (∀ due, check.1 = .ok due → check'.1 = due) ∧ check.2 = check'.2

/-- A check that is made in some states only. -/
theorem guarded_instants {p : Prop} [Decidable p] {x : Except EngineError Bool} {passed due : Bool}
    (hx : ∀ due, x = .ok due → passed = due)
    (h : (if p then x else return false : Except EngineError Bool) = .ok due) :
    (decide p && passed) = due := by
  by_cases hp : p
  · rw [if_pos hp] at h
    rw [decide_eq_true hp, Bool.true_and, hx due h]
  · rw [if_neg hp] at h
    cases h
    rw [decide_eq_false hp, Bool.false_and]

/-- The checks of a job and those of its instants. -/
theorem checks_instants (runtime : Runtime) (config : VisibilityConfig) (job : JobVisibility)
    (now : Timestamp) : List.Forall₂ CheckInstants (checks runtime config job now)
      (config.checks job.instants now.instant) := by
  refine .cons ⟨fun due h => ?_, rfl⟩ (.cons ⟨fun due h => ?_, rfl⟩ (.cons ⟨fun due h => ?_, rfl⟩
    (.cons ⟨fun due h => ?_, rfl⟩ (.cons ⟨fun due h => ?_, rfl⟩ .nil))))
  · exact guarded_instants (fun _ => elapsed_instants) h
  · exact guarded_instants (fun _ => elapsed_instants) h
  · have hguard := guarded_instants (fun _ => elapsed_instants) h
    rw [Bool.decide_and, decide_not, Bool.decide_eq_true, Bool.decide_eq_true] at hguard
    exact hguard
  · exact isOverdue_instants h
  · exact hasSequenceGap_instants h

/-- **What is observed of a job is observed of its instants.** -/
theorem observeAll_instants {findings : Findings}
    {checks : List (Except EngineError Bool × FindingCode × String)}
    {checks' : List (Bool × FindingCode × String)} {observed : List Finding}
    (hchecks : List.Forall₂ CheckInstants checks checks')
    (h : (observeAll now findings checks).2 = .ok observed) :
    ScheduledJobs.Findings.observeAll (findings.mapValues Finding.instants) now.instant
        ((checks'.filter Prod.fst).map Prod.snd) =
      ((observeAll now findings checks).1.mapValues Finding.instants,
        observed.map Finding.instants) := by
  induction hchecks generalizing findings observed with
  | nil =>
      cases h
      rfl
  | @cons check check' checks checks' hcheck _ ih =>
      obtain ⟨result, code, message⟩ := check
      obtain ⟨passed, code', message'⟩ := check'
      obtain ⟨hpassed, hfinding⟩ := hcheck
      cases hfinding
      cases result with
      | error e => cases h
      | ok due =>
          obtain rfl : passed = due := hpassed due rfl
          cases passed with
          | false => exact ih h
          | true =>
              obtain ⟨later, hlater, rfl⟩ := Except.map_eq_ok_iff.1 h
              have hrest := ih hlater
              rw [observe_instants] at hrest
              simp only [List.filter_cons, if_true, List.map_cons,
                ScheduledJobs.Findings.observeAll, hrest, ← observation_instants]
              rfl

theorem reconcileJob_instants {observed : List Finding}
    (h : (reconcileJob runtime config job now).2 = .ok observed) :
    config.reconcileJob now.instant job.instants =
      ((reconcileJob runtime config job now).1.instants, observed.map Finding.instants) := by
  have hobserved := observeAll_instants (checks_instants runtime config job now) h
  exact congrArg (fun found : ScheduledJobs.Findings × List ScheduledJobs.Finding =>
    ({ job.instants with findings := found.1 }, found.2)) hobserved

/-- The jobs, one after the other. -/
theorem reconcileRows_instants {jobs : List JobVisibility} {observed : List Finding}
    (h : (reconcileRows runtime config now jobs).2 = .ok observed) :
    (jobs.map JobVisibility.instants).map (fun job => (config.reconcileJob now.instant job).1) =
        (reconcileRows runtime config now jobs).1.map JobVisibility.instants ∧
      (jobs.map JobVisibility.instants).flatMap
        (fun job => (config.reconcileJob now.instant job).2) = observed.map Finding.instants := by
  induction jobs generalizing observed with
  | nil =>
      cases h
      exact ⟨rfl, rfl⟩
  | cons job jobs ih =>
      rw [reconcileRows] at h ⊢
      split at h
      · cases h
      · next job' first hjob =>
          have hinstants := reconcileJob_instants (congrArg Prod.snd hjob)
          rw [hjob] at hinstants
          obtain ⟨rest, hrest, rfl⟩ := Except.map_eq_ok_iff.1 h
          obtain ⟨hjobs, hfindings⟩ := ih hrest
          simp only [List.map_cons, List.flatMap_cons, hinstants, hjobs, hfindings,
            List.map_append, and_true]

end Reconcile

/-! ### Engines -/

/-- The filters with instants for timestamps. -/
def SearchFilters.instants (filters : SearchFilters) : ScheduledJobs.SearchFilters where
  status := filters.status
  correlationId := filters.correlationId
  scheduledFrom := filters.scheduledFrom.map Timestamp.instant
  scheduledTo := filters.scheduledTo.map Timestamp.instant

namespace VisibilityEngine

/-- The engine with instants for timestamps. -/
def instants (engine : VisibilityEngine) : ScheduledJobs.VisibilityEngine where
  config := engine.config
  jobs := engine.jobs.map JobVisibility.instants fun _ => rfl
  eventIds := engine.eventIds
  events := engine.events.map Event.instants

variable {runtime : Runtime} {engine after : VisibilityEngine} {now : Timestamp}

theorem find?_instants (engine : VisibilityEngine) (jobId : String) :
    engine.instants.jobs.find? jobId = (engine.jobs.find? jobId).map JobVisibility.instants :=
  Table.find?_map _ (fun _ => rfl) _

/-- **An event that is accepted does to the instants what it does to the timestamps.** -/
theorem apply_instants {event : Event} {expectedVersion : Option ℕ} {decision : ProjectionDecision}
    (h : engine.apply event expectedVersion = (after, .ok decision)) :
    engine.instants.apply event.instants expectedVersion = .ok (after.instants, decision) := by
  rcases engine.apply_cases event expectedVersion with
    ⟨hseen, happly⟩ | ⟨-, -, e, happly⟩ | ⟨hnew, hversion, hreduce⟩
  · rw [happly] at h
    cases h
    have hfound : engine.instants.jobs.find? event.instants.jobId =
        (engine.jobs.find? event.jobId).map JobVisibility.instants :=
      find?_instants engine event.jobId
    rw [ScheduledJobs.VisibilityEngine.apply, if_pos (show event.instants.eventId ∈
      engine.instants.eventIds from hseen), hfound]
    cases hjob : engine.jobs.find? event.jobId with
    | none =>
        simp only [logged, hjob]
        rfl
    | some job =>
        have hlogged := Table.map_replace engine.jobs
          (fun job => (rfl : job.instants.jobId = job.jobId))
          { job with
            decisions := job.decisions ++ [⟨event.eventId, .exactDuplicate, some "eventId seen"⟩] }
        simp only [logged, hjob, instants, hlogged]
        rfl
  · rw [happly] at h
    cases h
  · rcases hreduce with ⟨e, -, happly⟩ | ⟨result, hresult, happly⟩
    · rw [happly] at h
      cases h
    · rw [happly] at h
      cases h
      have hfound : engine.instants.jobs.find? event.instants.jobId =
          (engine.jobs.find? event.jobId).map JobVisibility.instants :=
        find?_instants engine event.jobId
      rw [ScheduledJobs.VisibilityEngine.apply, if_neg (show event.instants.eventId ∉
        engine.instants.eventIds from hnew), hfound, reduceVisibility_instants hresult]
      have hchecked : ScheduledJobs.VisibilityEngine.checkVersion event.instants.jobId
          ((engine.jobs.find? event.jobId).map JobVisibility.instants) expectedVersion =
            .ok () := by
        cases expectedVersion with
        | none => rfl
        | some expected =>
            refine if_neg (not_not.2 ?_)
            rw [Option.map_map]
            exact hversion expected rfl
      have hupsert := Table.map_upsert engine.jobs
        (fun job => (rfl : job.instants.jobId = job.jobId)) result.job
      rw [hchecked]
      simp only [instants, note, hupsert, List.map_append]
      rfl

/-- **So do events that are accepted one after the other.** -/
theorem applyAll_instants {events : List Event} (h : engine.applyAll events = .ok after) :
    engine.instants.applyAll (events.map Event.instants) = .ok after.instants := by
  induction events generalizing engine with
  | nil =>
      cases h
      rfl
  | cons event events ih =>
      rw [VisibilityEngine.applyAll] at h
      split at h
      · cases h
      · next engine' decision happly =>
          rw [List.map_cons, ScheduledJobs.VisibilityEngine.applyAll, List.foldlM_cons,
            apply_instants happly]
          exact ih h

/-- The timestamps of the jobs that are displayed have offsets. -/
def ShowsAware (engine : VisibilityEngine) : Prop :=
  ∀ job ∈ engine.jobs.rows, ∀ value ∈ job.displayed, ∀ t ∈ value, t.isAware = true

/-- **An answer about a job is the answer about its instants.** -/
theorem get_instants {jobId : String} {item : JobResponse} (haware : engine.ShowsAware)
    (h : engine.get runtime jobId now = .ok item) :
    engine.instants.get jobId now.instant = .ok item := by
  rw [VisibilityEngine.get] at h
  cases hjob : engine.jobs.find? jobId with
  | none =>
      rw [hjob] at h
      cases h
  | some job =>
      rw [hjob] at h
      refine ScheduledJobs.VisibilityEngine.get_eq_ok_iff.2 ⟨job.instants, ?_, ?_⟩
      · rw [find?_instants, hjob]
        rfl
      · exact response_instants (haware job (Table.mem_of_find? hjob)) h

theorem jobIds_instants (engine : VisibilityEngine) : engine.instants.jobIds = engine.jobIds := by
  simp only [ScheduledJobs.VisibilityEngine.jobIds, jobIds, instants, Table.map, List.map_map]
  rfl

theorem scheduledAt_instants (engine : VisibilityEngine) (jobId : String) :
    engine.instants.scheduledAt jobId = (engine.scheduledAt jobId).map Timestamp.instant := by
  rw [ScheduledJobs.VisibilityEngine.scheduledAt, find?_instants, scheduledAt]
  cases engine.jobs.find? jobId <;> rfl

/-- A filter on the scheduled time. -/
theorem keepWithin_instants (passes : Datetime → Datetime → Bool) {bound : Option Timestamp}
    {items kept : List JobResponse} {test : Timestamp → Timestamp → Except EngineError Bool}
    (htest : ∀ t s passed, test t s = .ok passed → passes t.instant s.instant = passed)
    (h : engine.keepWithin bound test items = .ok kept) :
    items.filter (fun item => (bound.map Timestamp.instant).all fun t =>
      (engine.instants.scheduledAt item.jobId).any fun s => passes t s) = kept := by
  cases bound with
  | none =>
      cases h
      exact List.filter_true items
  | some t =>
      refine Except.filter_eq_of_keep_eq_ok (fun item _ passed hpassed => ?_) h
      rw [scheduledAt_instants]
      cases hscheduled : engine.scheduledAt item.jobId with
      | none =>
          rw [hscheduled] at hpassed
          cases hpassed
          rfl
      | some s =>
          rw [hscheduled] at hpassed
          exact htest t s passed hpassed

/-- **A search that returns finds what the search of the instants finds.** -/
theorem search_instants {filters : SearchFilters} {items : List JobResponse}
    (haware : engine.ShowsAware) (h : engine.search runtime now filters = .ok items) :
    engine.instants.search now.instant filters.instants = items := by
  obtain ⟨responses, hresponses, hrest⟩ := Except.bind_eq_ok_iff.1 h
  obtain ⟨kept, hkept, hitems⟩ := Except.bind_eq_ok_iff.1 hrest
  have hall : engine.jobIds.filterMap
      (fun jobId => (engine.instants.get jobId now.instant).toOption) = responses :=
    Except.filterMap_eq_of_mapM_eq_ok (fun jobId _ item hitem => by
      rw [get_instants haware hitem]
      rfl) hresponses
  have hfrom := keepWithin_instants (fun t s => decide (t ≤ s))
    (fun _ _ _ => Timestamp.of_le) hkept
  have hto := keepWithin_instants (fun t s => decide (s ≤ t))
    (fun _ _ _ => Timestamp.of_le) hitems
  rw [← hto, ← hfrom, ← hall, ScheduledJobs.VisibilityEngine.search, jobIds_instants]
  rfl

/-- **A reconciliation that returns observes what that of the instants observes**, and leaves its
instants. -/
theorem reconcile_instants {observed : List Finding}
    (h : (engine.reconcile runtime now).2 = .ok observed) :
    engine.instants.reconcile now.instant =
      ((engine.reconcile runtime now).1.instants, observed.map Finding.instants) := by
  obtain ⟨hjobs, hfindings⟩ := reconcileRows_instants h
  refine Prod.ext ?_ hfindings
  have htables : engine.instants.jobs.mapRows
      (fun job => (engine.config.reconcileJob now.instant job).1) (fun _ => rfl) =
        (engine.reconcile runtime now).1.instants.jobs := Table.ext hjobs
  exact congrArg (fun jobs => { engine.instants with jobs := jobs }) htables

end VisibilityEngine

/-- **The engine on timestamps of both kinds answers as the engine on instants does**, about events
that it accepts and whenever it answers. -/
theorem answers_instants (runtime : Runtime) (config : VisibilityConfig) (events : List Event)
    {engine : VisibilityEngine}
    (h : VisibilityEngine.applyAll { config := config } events = .ok engine)
    (haware : engine.ShowsAware) :
    ∃ engine', ScheduledJobs.VisibilityEngine.applyAll { config := config }
        (events.map Event.instants) = .ok engine' ∧
      (∀ jobId now item, engine.get runtime jobId now = .ok item →
        engine'.get jobId now.instant = .ok item) ∧
      (∀ now filters items, engine.search runtime now filters = .ok items →
        engine'.search now.instant filters.instants = items) ∧
      ∀ now observed, (engine.reconcile runtime now).2 = .ok observed →
        (engine'.reconcile now.instant).2 = observed.map Finding.instants := by
  refine ⟨engine.instants, VisibilityEngine.applyAll_instants h, ?_, ?_, ?_⟩
  · exact fun jobId now item => VisibilityEngine.get_instants haware
  · exact fun now filters items => VisibilityEngine.search_instants haware
  · exact fun now observed hobserved =>
      congrArg Prod.snd (VisibilityEngine.reconcile_instants hobserved)

end ScheduledJobs.Mixed
