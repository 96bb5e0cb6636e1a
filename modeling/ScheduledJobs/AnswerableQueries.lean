/-
**Queries over what was accepted.**

An event is accepted as long as its timestamps agree with those of its job, so the first events of a
job may all come without offsets.  A query compares what is stored with the reader's clock, which
has an offset, and displays it in UTC: a projection that cannot be compared or displayed makes its
`get` raise, and with it every search and every reconciliation.

Main definitions:

* `JobVisibility.Answerable` — **what a projection has to be for a query**;
* `QueriesReturn` — **what should hold of an engine**: no query raises.

Main results:

* `returns_response_iff`, `returns_reconcile_iff` — what the response to a reader and a
  reconciliation rest on;
* `answerable_of_queries`, `response_returns` — from the queries to the projections and back;
* `queriesReturn_iff` — **no query raises exactly when every projection is answerable**.
-/

import ScheduledJobs.AtomicApply

set_option relaxedAutoImplicit false
set_option autoImplicit false

namespace ScheduledJobs.Mixed

/-! ### What a projection has to be -/

/-- The interval of so many seconds is one of `timedelta`, and from the timestamp it leads to a date
of the calendar. -/
def Timestamp.Reaches (t : Timestamp) (n : ℤ) : Prop :=
  IsTimedelta n ∧ Datetime.InRange (t.wall + seconds n)

/-- The timestamp has a UTC time: that of an aware timestamp is in the calendar, that of a naive one
is told by the machine. -/
def Timestamp.HasUtc (runtime : Runtime) (t : Timestamp) : Prop :=
  match t.offset with
  | some _ => Datetime.InRange t.instant
  | none => (runtime.localToUtc t.wall).Returns

instance (runtime : Runtime) (t : Timestamp) : Decidable (t.HasUtc runtime) :=
  decidable_of_iff ((t.isAware = true → Datetime.InRange t.instant) ∧
    (t.isAware = false → (runtime.localToUtc t.wall).Returns)) (by
      unfold Timestamp.HasUtc Timestamp.isAware
      cases t.offset <;> simp)

namespace JobVisibility

/-- The timestamps of a projection that a response displays. -/
def displayed (job : JobVisibility) : List (Option Timestamp) :=
  [job.createdAt, job.submissionRequestedAt, job.schedulerAcknowledgedAt, job.scheduledAt,
    job.schedulerRetrievedAt, job.startedAt, job.completedAt, job.lastFailureAt, job.nextRetryAt,
    job.dataAsOf] ++
    job.findings.values.flatMap fun finding => [some finding.firstObservedAt, finding.resolvedAt]

/-- The job waits for its scheduled time. -/
def Waits (job : JobVisibility) : Prop :=
  job.startedAt = none ∧ job.recordedStatus ∈ [.scheduled, .awaitingExecution]

/-- A job with no time between its scheduled time and the end of its grace period. -/
def OverdueAtOnce (config : VisibilityConfig) (job : JobVisibility) : Prop :=
  job.recordedStatus = .overdue ∨
    job.recordedStatus ∈ [.scheduled, .awaitingExecution] ∧ config.gracePeriodSeconds < 0

/-- **What a projection has to be for a query**: what is compared with the reader's clock has an
offset, the times that are computed from it are in the calendar, what is displayed has a UTC time,
and the attempt numbers can be listed. -/
structure Answerable (runtime : Runtime) (config : VisibilityConfig) (job : JobVisibility) :
    Prop where
  lastEventTime : ∀ t ∈ job.lastEventTime, t.isAware = true
  dataAsOf : ∀ t ∈ job.dataAsOf, t.isAware = true
  scheduledAt : ∀ t ∈ job.scheduledAt, t.isAware = true
  schedulerRetrievedAt : ∀ t ∈ job.schedulerRetrievedAt, t.isAware = true
  displayed : ∀ value ∈ job.displayed, ∀ t ∈ value, t.HasUtc runtime
  /-- The end of the grace period. -/
  threshold : job.Waits → ∀ t ∈ job.scheduledAt, t.Reaches config.gracePeriodSeconds
  /-- The first poll that may retrieve the job. -/
  firstPoll : job.startedAt = none → job.schedulerRetrievedAt = none →
    ¬ job.OverdueAtOnce config → ∀ t ∈ job.scheduledAt, t.Reaches config.pollIntervalSeconds
  freshness : IsTimedelta config.eventualConsistencyTargetSeconds
  submissionTimeout : job.recordedStatus = .pendingSubmission → job.submissionRequestedAt.isSome →
    IsTimedelta config.submissionAcknowledgementTimeoutSeconds
  runningTimeout : job.recordedStatus = .running → job.startedAt.isSome →
    IsTimedelta config.runningTimeoutSeconds
  retryTimeout : job.retryRequested ∧ ¬ job.retryAcknowledged → job.retryRequestedAt.isSome →
    IsTimedelta config.retryAcknowledgementTimeoutSeconds
  attempts : ∀ number ∈ job.attempts.keys, number ≤ runtime.listLimit

instance (job : JobVisibility) : Decidable job.Waits := inferInstanceAs (Decidable (_ ∧ _))

instance (config : VisibilityConfig) (job : JobVisibility) : Decidable (job.OverdueAtOnce config) :=
  inferInstanceAs (Decidable (_ ∨ _))

instance (t : Timestamp) (n : ℤ) : Decidable (t.Reaches n) := inferInstanceAs (Decidable (_ ∧ _))

instance (runtime : Runtime) (config : VisibilityConfig) (job : JobVisibility) :
    Decidable (job.Answerable runtime config) :=
  decidable_of_iff ((∀ t ∈ job.lastEventTime, t.isAware = true) ∧
    (∀ t ∈ job.dataAsOf, t.isAware = true) ∧ (∀ t ∈ job.scheduledAt, t.isAware = true) ∧
    (∀ t ∈ job.schedulerRetrievedAt, t.isAware = true) ∧
    (∀ value ∈ job.displayed, ∀ t ∈ value, t.HasUtc runtime) ∧
    (job.Waits → ∀ t ∈ job.scheduledAt, t.Reaches config.gracePeriodSeconds) ∧
    (job.startedAt = none → job.schedulerRetrievedAt = none → ¬ job.OverdueAtOnce config →
      ∀ t ∈ job.scheduledAt, t.Reaches config.pollIntervalSeconds) ∧
    IsTimedelta config.eventualConsistencyTargetSeconds ∧
    (job.recordedStatus = .pendingSubmission → job.submissionRequestedAt.isSome →
      IsTimedelta config.submissionAcknowledgementTimeoutSeconds) ∧
    (job.recordedStatus = .running → job.startedAt.isSome →
      IsTimedelta config.runningTimeoutSeconds) ∧
    (job.retryRequested ∧ ¬ job.retryAcknowledged → job.retryRequestedAt.isSome →
      IsTimedelta config.retryAcknowledgementTimeoutSeconds) ∧
    ∀ number ∈ job.attempts.keys, number ≤ runtime.listLimit)
    ⟨fun ⟨a, b, c, d, e, f, g, h, i, j, k, l⟩ => ⟨a, b, c, d, e, f, g, h, i, j, k, l⟩,
      fun ⟨a, b, c, d, e, f, g, h, i, j, k, l⟩ => ⟨a, b, c, d, e, f, g, h, i, j, k, l⟩⟩

end JobVisibility

/-- Bounds with offsets. -/
def SearchFilters.Aware (filters : SearchFilters) : Prop :=
  (∀ t ∈ filters.scheduledFrom, t.isAware = true) ∧ ∀ t ∈ filters.scheduledTo, t.isAware = true

/-- **What should hold of an engine**: at any time with an offset, the jobs that are known can be
read, searched and reconciled. -/
structure QueriesReturn (runtime : Runtime) (engine : VisibilityEngine) : Prop where
  get : ∀ now : Timestamp, now.isAware = true → ∀ jobId, (engine.jobs.find? jobId).isSome →
    (engine.get runtime jobId now).Returns
  search : ∀ now : Timestamp, now.isAware = true → ∀ filters : SearchFilters, filters.Aware →
    (engine.search runtime now filters).Returns
  reconcile : ∀ now : Timestamp, now.isAware = true → (engine.reconcile runtime now).2.Returns

/-! ### What each part of a query rests on -/

theorem Timestamp.returns_astimezone_iff {runtime : Runtime} {t : Timestamp} :
    (t.astimezone runtime).Returns ↔ t.HasUtc runtime := by
  unfold Timestamp.astimezone Timestamp.HasUtc
  cases t.offset with
  | none => exact Iff.rfl
  | some o =>
      simp only
      split
      · next h => exact iff_of_true (Except.returns_ok _) h
      · next h => exact iff_of_false (Except.not_returns_error _) h

section Parts

variable {runtime : Runtime} {config : VisibilityConfig} {job : JobVisibility} {now : Timestamp}

/-- A threshold is computed and compared. -/
theorem returns_reach_iff {t : Timestamp} {n : ℤ} {α : Type}
    {f : Timestamp → Except EngineError α} {Q : Prop} (hf : ∀ s : Timestamp, s.isAware = t.isAware →
      s.instant = t.instant + seconds n → ((f s).Returns ↔ Q)) :
    (timedelta n >>= fun d => t.add d >>= f).Returns ↔ t.Reaches n ∧ Q := by
  rw [Except.returns_bind_iff]
  simp only [timedelta_eq_ok_iff, Timestamp.Reaches]
  constructor
  · rintro ⟨d, ⟨hn, rfl⟩, hreturns⟩
    obtain ⟨s, hs, hreturns⟩ := Except.returns_bind_iff.1 hreturns
    obtain ⟨haware, hinstant⟩ := Timestamp.of_add hs
    exact ⟨⟨hn, Timestamp.returns_add_iff.1 ⟨s, hs⟩⟩, (hf s haware hinstant).1 hreturns⟩
  · rintro ⟨⟨hn, hrange⟩, hq⟩
    obtain ⟨s, hs⟩ := Timestamp.returns_add_iff.2 hrange
    obtain ⟨haware, hinstant⟩ := Timestamp.of_add hs
    exact ⟨_, ⟨hn, rfl⟩, Except.returns_bind_iff.2 ⟨s, hs, (hf s haware hinstant).2 hq⟩⟩

theorem returns_isOverdue_iff : (isOverdue config job now).Returns ↔
    (job.Waits → ∀ t ∈ job.scheduledAt,
      t.Reaches config.gracePeriodSeconds ∧ t.isAware = now.isAware) := by
  unfold isOverdue
  cases hscheduled : job.scheduledAt with
  | none => simp
  | some t =>
      simp only [Option.mem_def, Option.some.injEq, forall_eq']
      by_cases hwaits : job.Waits
      · rw [if_pos ⟨Option.isNone_iff_eq_none.2 hwaits.1, hwaits.2⟩]
        simp only [hwaits, true_imp_iff]
        refine returns_reach_iff fun s haware _ => ?_
        rw [Timestamp.returns_lt_iff, haware]
      · rw [if_neg fun h => hwaits ⟨Option.isNone_iff_eq_none.1 h.1, h.2⟩]
        exact iff_of_true (Except.returns_ok _) fun h => absurd h hwaits

theorem returns_delaySince_iff {since : Option Timestamp} :
    (delaySince job now since).Returns ↔
      ∀ t ∈ since, (job.startedAt.getD now).isAware = t.isAware := by
  cases since with
  | none => simp [delaySince]
  | some t =>
      rw [delaySince, Except.returns_bind_iff_and (Q := True) fun _ => by simp, and_true,
        Timestamp.returns_sub_iff]
      simp

theorem returns_possiblyStale_iff : (possiblyStale config job now).Returns ↔
    ∀ t ∈ job.dataAsOf, now.isAware = t.isAware ∧
      IsTimedelta config.eventualConsistencyTargetSeconds := by
  unfold possiblyStale
  cases job.dataAsOf with
  | none => simp
  | some t =>
      rw [Except.returns_bind_iff_and (Q := IsTimedelta config.eventualConsistencyTargetSeconds)
        fun age => ?_, Timestamp.returns_sub_iff]
      · simp
      · rw [Except.returns_bind_iff_and (Q := True) fun _ => by simp, and_true,
          returns_timedelta_iff]

theorem returns_processingDelay_iff : (processingDelay job).Returns ↔
    ∀ t ∈ job.dataAsOf, ∀ l ∈ job.lastEventTime, t.isAware = l.isAware := by
  unfold processingDelay
  cases job.dataAsOf with
  | none => simp
  | some t =>
      cases job.lastEventTime with
      | none => simp
      | some l =>
          rw [Except.returns_bind_iff_and (Q := True) fun _ => by simp, and_true,
            Timestamp.returns_sub_iff]
          simp

theorem returns_elapsed_iff {since : Option Timestamp} {timeout : ℤ} :
    (elapsed now since timeout).Returns ↔
      ∀ t ∈ since, now.isAware = t.isAware ∧ IsTimedelta timeout := by
  cases since with
  | none => simp [elapsed]
  | some t =>
      rw [elapsed, Except.returns_bind_iff_and (Q := IsTimedelta timeout) fun age => ?_,
        Timestamp.returns_sub_iff]
      · simp
      · rw [Except.returns_bind_iff_and (Q := True) fun _ => by simp, and_true,
          returns_timedelta_iff]

theorem returns_delayClassification_iff {status : Status} :
    (delayClassification config job now status).Returns ↔
      (job.startedAt = none → ∀ t ∈ job.scheduledAt, now.isAware = t.isAware ∧
        (t.instant ≤ now.instant → status ≠ .overdue → job.schedulerRetrievedAt = none →
          t.Reaches config.pollIntervalSeconds)) := by
  unfold delayClassification
  cases hscheduled : job.scheduledAt with
  | none => simp
  | some t =>
      cases hstarted : job.startedAt with
      | some s => simp
      | none =>
          simp only [Option.mem_def, Option.some.injEq, forall_eq', true_imp_iff]
          by_cases haware : now.isAware = t.isAware
          · rw [Timestamp.lt_of_same haware, Except.ok_bind]
            simp only [haware, true_and]
            by_cases hearly : now.instant < t.instant
            · rw [decide_eq_true hearly]
              exact iff_of_true (Except.returns_ok _) fun hle => absurd hle (not_le.2 hearly)
            · rw [decide_eq_false hearly]
              simp only [Bool.false_eq_true, if_false, not_lt.1 hearly, true_imp_iff]
              by_cases hoverdue : status = .overdue
              · simp [hoverdue]
              rw [if_neg hoverdue]
              by_cases hretrieved : job.schedulerRetrievedAt = none
              · simp only [hretrieved, Option.isSome_none, Bool.false_eq_true, if_false, hoverdue,
                  ne_eq, not_false_eq_true, true_imp_iff]
                rw [returns_reach_iff (Q := True) fun s hs _ => ?_, and_true]
                rw [Except.returns_bind_iff_and (Q := True) fun _ => by simp, and_true,
                  Timestamp.returns_lt_iff]
                exact iff_true_intro (haware.trans hs.symm)
              · rw [if_pos (Option.isSome_iff_ne_none.2 hretrieved)]
                exact iff_of_true (Except.returns_ok _) fun _ h => absurd h hretrieved
          · refine iff_of_false (fun h => haware ?_) fun h => haware h.1
            obtain ⟨b, hb, -⟩ := Except.returns_bind_iff.1 h
            exact Timestamp.returns_lt_iff.1 ⟨b, hb⟩

theorem returns_toDict_iff {finding : Finding} :
    (finding.toDict runtime).Returns ↔
      finding.firstObservedAt.HasUtc runtime ∧ ∀ t ∈ finding.resolvedAt, t.HasUtc runtime := by
  rw [Finding.toDict, Except.returns_bind_iff_and
    (Q := ∀ t ∈ finding.resolvedAt, t.HasUtc runtime) fun _ => ?_, Timestamp.returns_iso_iff,
    Timestamp.returns_astimezone_iff]
  rw [Except.returns_bind_iff_and (Q := True) fun _ => by simp, and_true, returns_iso_iff]
  simp only [Timestamp.returns_astimezone_iff]

/-- The threshold of a job that waits. -/
theorem isOverdue_of_waits {t : Timestamp} (hwaits : job.Waits)
    (hscheduled : job.scheduledAt = some t) {overdue : Bool}
    (h : isOverdue config job now = .ok overdue) :
    overdue = decide (t.instant + seconds config.gracePeriodSeconds < now.instant) := by
  rw [isOverdue, hscheduled] at h
  simp only at h
  rw [if_pos ⟨Option.isNone_iff_eq_none.2 hwaits.1, hwaits.2⟩] at h
  obtain ⟨threshold, hinstant, hlt⟩ := Timestamp.exists_of_reach h
  rw [← Timestamp.of_lt hlt, hinstant]

/-- Only a job that waits is overdue. -/
theorem waits_of_isOverdue (h : isOverdue config job now = .ok true) : job.Waits := by
  unfold isOverdue at h
  split at h
  · split at h
    · next hwaits => exact ⟨Option.isNone_iff_eq_none.1 hwaits.1, hwaits.2⟩
    · cases h
  · cases h

/-- What the overdue duration rests on is what being overdue does. -/
theorem returns_overdueDuration_iff :
    (overdueDuration config job now).Returns ↔ (isOverdue config job now).Returns := by
  constructor
  · intro h
    obtain ⟨overdue, hoverdue, -⟩ := Except.returns_bind_iff.1 h
    exact ⟨overdue, hoverdue⟩
  · rintro ⟨overdue, hoverdue⟩
    refine Except.returns_bind_iff.2 ⟨overdue, hoverdue, ?_⟩
    cases hscheduled : job.scheduledAt with
    | none => exact Except.returns_ok _
    | some t =>
        cases overdue with
        | false => exact Except.returns_ok _
        | true =>
            have hwaits := waits_of_isOverdue hoverdue
            obtain ⟨hreaches, haware⟩ :=
              returns_isOverdue_iff.1 ⟨_, hoverdue⟩ hwaits t hscheduled
            refine (returns_reach_iff (Q := True) fun s hs _ => ?_).2 ⟨hreaches, trivial⟩
            rw [Except.returns_bind_iff_and (Q := True) fun _ => by simp, and_true,
              Timestamp.returns_sub_iff]
            exact iff_true_intro (haware.symm.trans hs.symm)

/-- A job that is overdue at once is shown overdue from its scheduled time on, and only such a job
is at its scheduled time. -/
theorem derivedStatus_overdue_iff {t : Timestamp} {status : Status}
    (hstarted : job.startedAt = none) (hscheduled : job.scheduledAt = some t)
    (h : derivedStatus config job now = .ok status) :
    (job.OverdueAtOnce config → t.instant ≤ now.instant → status = .overdue) ∧
      (status = .overdue → now.instant = t.instant → job.OverdueAtOnce config) := by
  rw [derivedStatus] at h
  split at h
  · next hkept =>
      cases h
      refine ⟨fun hatOnce _ => ?_, fun hoverdue _ => Or.inl hoverdue⟩
      rcases hatOnce with hoverdue | ⟨hwaits, -⟩
      · exact hoverdue
      · rcases List.mem_pair.1 hwaits with heq | heq
        · rw [heq] at hkept
          exact absurd hkept (by decide)
        · rw [heq] at hkept
          exact absurd hkept (by decide)
  · rw [hscheduled] at h
    simp only at h
    split at h
    · next hwaits =>
        obtain ⟨overdue, hoverdue, hrest⟩ := Except.bind_eq_ok_iff.1 h
        have hvalue := isOverdue_of_waits ⟨hstarted, hwaits⟩ hscheduled hoverdue
        have hrecorded : job.recordedStatus ≠ .overdue := by
          intro heq
          rw [heq] at hwaits
          exact absurd hwaits (by decide)
        have hseconds :
            seconds config.gracePeriodSeconds < 0 ↔ config.gracePeriodSeconds < 0 := by
          change config.gracePeriodSeconds * (1000000 : ℤ) < (0 : ℤ) ↔ _
          omega
        cases overdue with
        | true =>
            cases hrest
            refine ⟨fun _ _ => rfl, fun _ hnow => Or.inr ⟨hwaits, hseconds.1 ?_⟩⟩
            have hlt := of_decide_eq_true hvalue.symm
            rw [hnow] at hlt
            linarith
        | false =>
            obtain ⟨due, -, hstatus⟩ := Except.bind_eq_ok_iff.1 hrest
            cases hstatus
            have hnot := of_decide_eq_false hvalue.symm
            refine ⟨fun hatOnce hle => absurd ?_ hnot, fun hstatus => ?_⟩
            · have hneg := hseconds.2 (hatOnce.resolve_left hrecorded).2
              linarith
            · split at hstatus
              · cases hstatus
              · exact absurd hstatus hrecorded
    · next hwaits =>
        cases h
        refine ⟨fun hatOnce _ => ?_, fun hoverdue _ => Or.inl hoverdue⟩
        exact hatOnce.resolve_right fun hneg => hwaits hneg.1

theorem returns_derivedStatus_of (hoverdue : (isOverdue config job now).Returns)
    (haware : ∀ t ∈ job.scheduledAt, t.isAware = now.isAware) :
    (derivedStatus config job now).Returns := by
  unfold derivedStatus
  split
  · exact Except.returns_ok _
  · cases hscheduled : job.scheduledAt with
    | none => exact Except.returns_ok _
    | some t =>
        simp only
        split
        · obtain ⟨overdue, hoverdue⟩ := hoverdue
          refine Except.returns_bind_iff.2 ⟨overdue, hoverdue, ?_⟩
          cases overdue with
          | true => exact Except.returns_ok _
          | false =>
              have hle := Timestamp.returns_le_iff.2 (haware t hscheduled)
              exact (Except.returns_bind_iff_and (Q := True) fun _ => by simp).2 ⟨hle, trivial⟩
        · exact Except.returns_ok _

/-- **What a response rests on.** -/
theorem returns_response_iff : (response runtime config job now).Returns ↔
    ∃ status, derivedStatus config job now = .ok status ∧
      (delayClassification config job now status).Returns ∧
      (delaySince job now job.scheduledAt).Returns ∧
      (delaySince job now job.schedulerRetrievedAt).Returns ∧
      (possiblyStale config job now).Returns ∧ (processingDelay job).Returns ∧
      (isOverdue config job now).Returns ∧
      ∀ value ∈ job.displayed, ∀ t ∈ value, t.HasUtc runtime := by
  have hiso : ∀ value,
      (∃ text, iso runtime value = .ok text) ↔ ∀ t ∈ value, t.HasUtc runtime := by
    intro value
    simp only [← Timestamp.returns_astimezone_iff]
    exact returns_iso_iff runtime
  have hfindings : (∃ views, job.findings.values.mapM (Finding.toDict runtime) = .ok views) ↔
      ∀ value ∈ job.findings.values.flatMap fun finding =>
        [some finding.firstObservedAt, finding.resolvedAt], ∀ t ∈ value, t.HasUtc runtime := by
    refine Except.returns_mapM_iff.trans ?_
    simp only [returns_toDict_iff, List.forall_mem_flatMap, List.forall_mem_cons]
    simp
  rw [response, Except.returns_bind_iff]
  simp only [Except.returns_bind_iff, Except.returns_pure, and_true, exists_and_right, hiso,
    hfindings, JobVisibility.displayed, List.forall_mem_append, List.forall_mem_cons]
  refine exists_congr fun status => and_congr_right fun _ => ?_
  constructor
  · rintro ⟨hclass, hstart, hretrieval, hstale, hprocessing, hcreated, hrequested, hacknowledged,
      hscheduled, hretrieved, hstarted, hcompleted, hfailure, hretry, hoverdue, hdata, hfound⟩
    exact ⟨hclass, hstart, hretrieval, hstale, hprocessing, returns_overdueDuration_iff.1 hoverdue,
      ⟨hcreated, hrequested, hacknowledged, hscheduled, hretrieved, hstarted, hcompleted, hfailure,
        hretry, hdata, by simp⟩, hfound⟩
  · rintro ⟨hclass, hstart, hretrieval, hstale, hprocessing, hoverdue,
      ⟨hcreated, hrequested, hacknowledged, hscheduled, hretrieved, hstarted, hcompleted, hfailure,
        hretry, hdata, -⟩, hfound⟩
    exact ⟨hclass, hstart, hretrieval, hstale, hprocessing, hcreated, hrequested, hacknowledged,
      hscheduled, hretrieved, hstarted, hcompleted, hfailure, hretry,
      returns_overdueDuration_iff.2 hoverdue, hdata, hfound⟩

/-- The list of all numbers is built when the largest fits. -/
theorem returns_hasSequenceGap_iff : (hasSequenceGap runtime job).Returns ↔
    ∀ number ∈ job.attempts.keys, number ≤ runtime.listLimit := by
  have hmax : ∀ numbers : List ℕ, numbers.foldr max 0 ≤ runtime.listLimit ↔
      ∀ number ∈ numbers, number ≤ runtime.listLimit := by
    intro numbers
    induction numbers with
    | nil => simp
    | cons number numbers ih => rw [List.foldr_cons, max_le_iff, ih, List.forall_mem_cons]
  have hnumbers : (∀ number ∈ job.attempts.keys, number ≤ runtime.listLimit) ↔
      ∀ number ∈ job.attempts.keys.insertionSort (· ≤ ·), number ≤ runtime.listLimit := by
    simp only [List.mem_insertionSort]
  rw [hnumbers, ← hmax]
  unfold hasSequenceGap
  generalize job.attempts.keys.insertionSort (· ≤ ·) = numbers
  cases numbers with
  | nil => simp
  | cons number numbers =>
      simp only [List.isEmpty_cons, Bool.false_eq_true, if_false]
      rw [Except.returns_bind_iff_and (Q := True) fun _ => by simp, and_true, numbersUpTo]
      split
      · next h => exact iff_of_true (Except.returns_ok _) h
      · next h => exact iff_of_false (Except.not_returns_error _) h

/-- A job is reconciled when each of its checks returns. -/
theorem returns_observeAll_iff {findings : Findings}
    {cs : List (Except EngineError Bool × FindingCode × String)} :
    (observeAll now findings cs).2.Returns ↔ ∀ c ∈ cs, c.1.Returns := by
  induction cs generalizing findings with
  | nil => simp [observeAll]
  | cons c cs ih =>
      obtain ⟨due, code, message⟩ := c
      rw [List.forall_mem_cons]
      cases due with
      | error e =>
          exact iff_of_false (Except.not_returns_error e) fun h => Except.not_returns_error e h.1
      | ok due =>
          cases due with
          | false =>
              rw [observeAll, ih]
              simp
          | true =>
              rw [observeAll, Except.returns_map_iff, ih]
              simp

/-- **What a reconciliation rests on.** -/
theorem returns_reconcileRows_iff {jobs : List JobVisibility} :
    (reconcileRows runtime config now jobs).2.Returns ↔
      ∀ job ∈ jobs, ∀ c ∈ checks runtime config job now, c.1.Returns := by
  induction jobs with
  | nil => simp [reconcileRows]
  | cons job jobs ih =>
      have hjob : (reconcileJob runtime config job now).2.Returns ↔
          ∀ c ∈ checks runtime config job now, c.1.Returns := returns_observeAll_iff
      rw [List.forall_mem_cons, ← hjob, ← ih, reconcileRows]
      split
      · next job' e hresult =>
          rw [hresult]
          exact iff_of_false (Except.not_returns_error e) fun h => Except.not_returns_error e h.1
      · next job' observed hresult =>
          rw [hresult, Except.returns_map_iff]
          exact (and_iff_right (Except.returns_ok observed)).symm

/-- **What a reconciliation of a job rests on.** -/
theorem returns_checks_iff : (∀ c ∈ checks runtime config job now, c.1.Returns) ↔
    (job.recordedStatus = .pendingSubmission → ∀ t ∈ job.submissionRequestedAt,
      now.isAware = t.isAware ∧
        IsTimedelta config.submissionAcknowledgementTimeoutSeconds) ∧
    (job.recordedStatus = .running → ∀ t ∈ job.startedAt,
      now.isAware = t.isAware ∧ IsTimedelta config.runningTimeoutSeconds) ∧
    (job.retryRequested ∧ ¬ job.retryAcknowledged → ∀ t ∈ job.retryRequestedAt,
      now.isAware = t.isAware ∧
        IsTimedelta config.retryAcknowledgementTimeoutSeconds) ∧
    (isOverdue config job now).Returns ∧
    ∀ number ∈ job.attempts.keys, number ≤ runtime.listLimit := by
  have hguard : ∀ (p : Prop) [Decidable p] (since : Option Timestamp) (timeout : ℤ),
      (if p then elapsed now since timeout else pure false : Except EngineError Bool).Returns ↔
        (p → ∀ t ∈ since, now.isAware = t.isAware ∧ IsTimedelta timeout) := by
    intro p _ since timeout
    by_cases hp : p
    · rw [if_pos hp, returns_elapsed_iff]
      exact ⟨fun h _ => h, fun h => h hp⟩
    · rw [if_neg hp]
      exact iff_of_true (Except.returns_pure _) fun h => absurd h hp
  simp only [checks, List.forall_mem_cons, hguard, returns_hasSequenceGap_iff]
  simp

/-! ### From the queries to a projection, and back -/

/-- What is observed of a job has offsets when the last event time has one. -/
theorem observed_eq_true {observed retrieved : Bool} (hcoherent : job.Coherent)
    (htimed : job.Timed observed retrieved) (h : ∀ t ∈ job.lastEventTime, t.isAware = true) :
    observed = true := by
  obtain ⟨last, hlast⟩ := Option.isSome_iff_exists.1 hcoherent.lastEventTime
  exact (htimed.lastEventTime last hlast).symm.trans (h last hlast)

/-- **A projection that is read and reconciled at all times is answerable.** -/
theorem answerable_of_queries (hcoherent : job.Coherent)
    (hresponse : ∀ now : Timestamp, now.isAware = true →
      (response runtime config job now).Returns)
    (hchecks : ∀ now : Timestamp, now.isAware = true →
      ∀ c ∈ checks runtime config job now, c.1.Returns) :
    job.Answerable runtime config := by
  obtain ⟨observed, retrieved, htimed⟩ := hcoherent.timed
  have hzero : (shownAt 0 true).isAware = true := rfl
  obtain ⟨status, hstatus, -, hstart, hretrieval, hstale, hprocessing, hoverdue, hdisplayed⟩ :=
    returns_response_iff.1 (hresponse _ hzero)
  obtain ⟨hsubmission, hrunning, hretry, -, hattempts⟩ :=
    returns_checks_iff.1 (hchecks _ hzero)
  rw [returns_possiblyStale_iff] at hstale
  rw [returns_processingDelay_iff] at hprocessing
  obtain ⟨data, hdata⟩ := Option.isSome_iff_exists.1 hcoherent.dataAsOf
  have hlast : ∀ t ∈ job.lastEventTime, t.isAware = true := fun t ht =>
    (hprocessing data hdata t ht).symm.trans (hstale data hdata).1.symm
  obtain rfl := observed_eq_true hcoherent htimed hlast
  -- both delays are measured up to the start, or up to a time with an offset
  have hendpoint : (job.startedAt.getD (shownAt 0 true)).isAware = true := by
    cases hstarted : job.startedAt with
    | none => rfl
    | some t => exact htimed.startedAt t hstarted
  have hscheduled : ∀ t ∈ job.scheduledAt, t.isAware = true := fun t ht =>
    (returns_delaySince_iff.1 hstart t ht).symm.trans hendpoint
  exact
    { lastEventTime := hlast
      dataAsOf := fun t ht => (hstale t ht).1.symm
      scheduledAt := hscheduled
      schedulerRetrievedAt := fun t ht =>
        (returns_delaySince_iff.1 hretrieval t ht).symm.trans hendpoint
      displayed := hdisplayed
      threshold := fun hwaits t ht => (returns_isOverdue_iff.1 hoverdue hwaits t ht).1
      firstPoll := by
        intro hstarted hnone hnot t ht
        -- the first poll is looked at when the scheduled time has come
        obtain ⟨shown, hshown, hclass, -⟩ := returns_response_iff.1 (hresponse t (hscheduled t ht))
        refine ((returns_delayClassification_iff.1 hclass) hstarted t ht).2 le_rfl ?_ hnone
        exact fun heq => hnot ((derivedStatus_overdue_iff hstarted ht hshown).2 heq rfl)
      freshness := (hstale data hdata).2
      submissionTimeout := fun hpending hsome => by
        obtain ⟨t, ht⟩ := Option.isSome_iff_exists.1 hsome
        exact (hsubmission hpending t ht).2
      runningTimeout := fun hstatus hsome => by
        obtain ⟨t, ht⟩ := Option.isSome_iff_exists.1 hsome
        exact (hrunning hstatus t ht).2
      retryTimeout := fun hrequested hsome => by
        obtain ⟨t, ht⟩ := Option.isSome_iff_exists.1 hsome
        exact (hretry hrequested t ht).2
      attempts := hattempts }

/-- **A projection all of whose compared timestamps have offsets is read**, if its thresholds and
what it displays are in the calendar. -/
theorem returns_response_of_aware (hnow : now.isAware = true)
    (hlast : ∀ t ∈ job.lastEventTime, t.isAware = true)
    (hdata : ∀ t ∈ job.dataAsOf, t.isAware = true)
    (hscheduled : ∀ t ∈ job.scheduledAt, t.isAware = true)
    (hretrieved : ∀ t ∈ job.schedulerRetrievedAt, t.isAware = true)
    (hstarted : ∀ t ∈ job.startedAt, t.isAware = true)
    (hdisplayed : ∀ value ∈ job.displayed, ∀ t ∈ value, t.HasUtc runtime)
    (hthreshold : job.Waits → ∀ t ∈ job.scheduledAt, t.Reaches config.gracePeriodSeconds)
    (hfirstPoll : job.startedAt = none → job.schedulerRetrievedAt = none →
      ¬ job.OverdueAtOnce config → ∀ t ∈ job.scheduledAt, t.Reaches config.pollIntervalSeconds)
    (hfreshness : IsTimedelta config.eventualConsistencyTargetSeconds) :
    (response runtime config job now).Returns := by
  have hendpoint : (job.startedAt.getD now).isAware = true := by
    cases hstart : job.startedAt with
    | none => exact hnow
    | some t => exact hstarted t hstart
  have hoverdue : (isOverdue config job now).Returns :=
    returns_isOverdue_iff.2 fun hwaits t ht =>
      ⟨hthreshold hwaits t ht, (hscheduled t ht).trans hnow.symm⟩
  obtain ⟨status, hstatus⟩ := returns_derivedStatus_of hoverdue
    fun t ht => (hscheduled t ht).trans hnow.symm
  refine returns_response_iff.2 ⟨status, hstatus, ?_, ?_, ?_, ?_, ?_, hoverdue, hdisplayed⟩
  · refine returns_delayClassification_iff.2 fun hnone t ht =>
      ⟨hnow.trans (hscheduled t ht).symm, fun hle hne hunseen => ?_⟩
    refine hfirstPoll hnone hunseen (fun hatOnce => hne ?_) t ht
    exact (derivedStatus_overdue_iff hnone ht hstatus).1 hatOnce hle
  · exact returns_delaySince_iff.2 fun t ht => hendpoint.trans (hscheduled t ht).symm
  · exact returns_delaySince_iff.2 fun t ht => hendpoint.trans (hretrieved t ht).symm
  · exact returns_possiblyStale_iff.2 fun t ht => ⟨hnow.trans (hdata t ht).symm, hfreshness⟩
  · exact returns_processingDelay_iff.2 fun t ht l hl => (hdata t ht).trans (hlast l hl).symm

namespace JobVisibility.Answerable

variable (h : job.Answerable runtime config) (hnow : now.isAware = true)

include h hnow

theorem returns_isOverdue : (isOverdue config job now).Returns :=
  returns_isOverdue_iff.2 fun hwaits t ht =>
    ⟨h.threshold hwaits t ht, (h.scheduledAt t ht).trans hnow.symm⟩

/-- **A projection that is answerable is read** at any time. -/
theorem returns_response (hcoherent : job.Coherent) :
    (response runtime config job now).Returns := by
  obtain ⟨observed, retrieved, htimed⟩ := hcoherent.timed
  obtain rfl := observed_eq_true hcoherent htimed h.lastEventTime
  exact returns_response_of_aware hnow h.lastEventTime h.dataAsOf h.scheduledAt
    h.schedulerRetrievedAt htimed.startedAt h.displayed h.threshold h.firstPoll h.freshness

/-- **And it is reconciled.** -/
theorem returns_checks (hcoherent : job.Coherent) :
    ∀ c ∈ checks runtime config job now, c.1.Returns := by
  obtain ⟨observed, retrieved, htimed⟩ := hcoherent.timed
  obtain rfl := observed_eq_true hcoherent htimed h.lastEventTime
  refine returns_checks_iff.2 ⟨fun hstatus t ht => ?_, fun hstatus t ht => ?_,
    fun hrequested t ht => ?_, h.returns_isOverdue hnow, h.attempts⟩
  · exact ⟨hnow.trans (htimed.submissionRequestedAt t ht).symm,
      h.submissionTimeout hstatus (Option.isSome_of_mem ht)⟩
  · exact ⟨hnow.trans (htimed.startedAt t ht).symm,
      h.runningTimeout hstatus (Option.isSome_of_mem ht)⟩
  · exact ⟨hnow.trans (htimed.retryRequestedAt t ht).symm,
      h.retryTimeout hrequested (Option.isSome_of_mem ht)⟩

end JobVisibility.Answerable

end Parts

/-! ### Engines -/

namespace VisibilityEngine

variable {runtime : Runtime} {engine : VisibilityEngine}

theorem returns_get_iff {jobId : String} {now : Timestamp} {job : JobVisibility}
    (h : engine.jobs.find? jobId = some job) :
    (engine.get runtime jobId now).Returns ↔ (response runtime engine.config job now).Returns := by
  simp only [VisibilityEngine.get, h]

/-- A filter on the scheduled time compares timestamps with offsets. -/
theorem returns_keepWithin {bound : Option Timestamp} {items : List JobResponse}
    {test : Timestamp → Timestamp → Except EngineError Bool}
    (hjobs : ∀ job ∈ engine.jobs.rows, ∀ t ∈ job.scheduledAt, t.isAware = true)
    (htest : ∀ t ∈ bound, ∀ s : Timestamp, s.isAware = true → (test t s).Returns) :
    (engine.keepWithin bound test items).Returns := by
  cases bound with
  | none => exact Except.returns_ok _
  | some t =>
      refine Except.returns_keep_iff.2 fun item _ => ?_
      cases hscheduled : engine.scheduledAt item.jobId with
      | none => exact Except.returns_ok _
      | some s =>
          obtain ⟨job, hjob, hs⟩ := Option.bind_eq_some_iff.1 hscheduled
          exact htest t rfl s (hjobs job (Table.mem_of_find? hjob) s hs)

/-- **Under the invariant, no query raises exactly when every projection is answerable.** -/
theorem Coherent.queriesReturn_iff_answerable (hcoherent : engine.Coherent) :
    QueriesReturn runtime engine ↔
      ∀ job ∈ engine.jobs.rows, job.Answerable runtime engine.config := by
  have hrow : ∀ job ∈ engine.jobs.rows, job.Coherent := fun job hjob =>
    hcoherent job.jobId job (Table.find?_of_mem hjob)
  constructor
  · intro hqueries job hjob
    refine answerable_of_queries (hrow job hjob) (fun now hnow => ?_) fun now hnow => ?_
    · have hfound := Table.find?_of_mem hjob
      refine (returns_get_iff hfound).1 (hqueries.get now hnow job.jobId ?_)
      rw [hfound]
      rfl
    · exact returns_reconcileRows_iff.1 (hqueries.reconcile now hnow) job hjob
  · intro hjobs
    have hget : ∀ now : Timestamp, now.isAware = true → ∀ jobId,
        (engine.jobs.find? jobId).isSome → (engine.get runtime jobId now).Returns := by
      intro now hnow jobId hsome
      obtain ⟨job, hjob⟩ := Option.isSome_iff_exists.1 hsome
      have hmem := Table.mem_of_find? hjob
      exact (returns_get_iff hjob).2 ((hjobs job hmem).returns_response hnow (hrow job hmem))
    have hscheduled : ∀ job ∈ engine.jobs.rows, ∀ t ∈ job.scheduledAt, t.isAware = true :=
      fun job hjob => (hjobs job hjob).scheduledAt
    refine ⟨hget, fun now hnow filters hfilters => ?_, fun now hnow => ?_⟩
    · have hids : ∀ jobId ∈ engine.jobIds, (engine.jobs.find? jobId).isSome := by
        simp only [jobIds, List.mem_insertionSort, List.mem_map]
        rintro jobId ⟨job, hjob, rfl⟩
        rw [Table.find?_of_mem hjob]
        rfl
      obtain ⟨responses, hresponses⟩ := Except.returns_mapM_iff.2 fun jobId hmem =>
        hget now hnow jobId (hids jobId hmem)
      refine Except.returns_bind_iff.2 ⟨responses, hresponses, ?_⟩
      obtain ⟨kept, hkept⟩ := returns_keepWithin hscheduled fun t ht s hs =>
        Timestamp.returns_le_iff.2 ((hfilters.1 t ht).trans hs.symm)
      refine Except.returns_bind_iff.2 ⟨kept, hkept, ?_⟩
      exact returns_keepWithin hscheduled fun t ht s hs =>
        Timestamp.returns_le_iff.2 (hs.trans (hfilters.2 t ht).symm)
    · refine returns_reconcileRows_iff.2 fun job hjob => ?_
      exact (hjobs job hjob).returns_checks hnow (hrow job hjob)

/-- What events that are accepted leave. -/
theorem Coherent.applyAll {events : List Event} {after : VisibilityEngine}
    (hcoherent : engine.Coherent) (h : engine.applyAll events = .ok after) : after.Coherent := by
  induction events generalizing engine with
  | nil =>
      cases h
      exact hcoherent
  | cons event events ih =>
      rw [VisibilityEngine.applyAll] at h
      split at h
      · cases h
      · next engine' decision happly =>
          have haccepts : engine.Accepts event none := by
            refine (apply_unchanged_iff hcoherent).1 fun hraises => ?_
            obtain ⟨e, herror⟩ := hraises
            rw [happly] at herror
            cases herror
          have hkept := hcoherent.apply haccepts
          rw [happly] at hkept
          exact ih hkept h

end VisibilityEngine

/-- **No query about events that were accepted raises exactly when every projection is
answerable.** -/
theorem queriesReturn_iff (runtime : Runtime) (config : VisibilityConfig) (events : List Event)
    {engine : VisibilityEngine}
    (h : VisibilityEngine.applyAll { config := config } events = .ok engine) :
    QueriesReturn runtime engine ↔
      ∀ job ∈ engine.jobs.rows, job.Answerable runtime engine.config :=
  ((VisibilityEngine.coherent_new config).applyAll h).queriesReturn_iff_answerable

/-- An event with offsets about a job that is scheduled for the twentieth second. -/
def scheduledEvent (second : ℕ) (jobId : String) (eventType : EventType) (attemptNumber : ℕ) :
    Event where
  eventId := s!"edr-{second}"
  eventType := eventType
  eventTime := shownAt second true
  ingestionTime := shownAt (second + 1) true
  jobId := jobId
  scheduledAt := some (shownAt 20 true)
  attemptNumber := attemptNumber
  retryable := if eventType = .jobExecutionFailed then some true else none

/-- A job that is retrieved, fails and runs a second time, and a job that waits to be retrieved. -/
def scheduledEvents : List Event :=
  [scheduledEvent 1 "job-1" .jobCreated 0,
    scheduledEvent 2 "job-1" .jobSchedulerSubmissionRequested 0,
    scheduledEvent 3 "job-1" .jobSchedulerSubmissionAcknowledged 0,
    scheduledEvent 4 "job-2" .jobCreated 0,
    scheduledEvent 5 "job-2" .jobSchedulerSubmissionRequested 0,
    scheduledEvent 6 "job-2" .jobSchedulerSubmissionAcknowledged 0,
    scheduledEvent 21 "job-1" .jobSchedulerItemRetrieved 1,
    scheduledEvent 22 "job-1" .jobExecutionStarted 1,
    scheduledEvent 23 "job-1" .jobExecutionFailed 1,
    scheduledEvent 24 "job-1" .jobRetryRequested 1,
    scheduledEvent 30 "job-1" .jobExecutionStarted 2]

/-- **Both jobs are read, searched and reconciled.** -/
theorem queriesReturn_scheduledEvents :
    ∃ engine, VisibilityEngine.applyAll { config := {} } scheduledEvents = .ok engine ∧
      engine.jobs.rows.map (fun job => (job.jobId, job.recordedStatus, job.attempts.keys)) =
        [("job-1", .running, [1, 2]), ("job-2", .scheduled, [])] ∧
      QueriesReturn utcRuntime engine := by
  have hshown : (VisibilityEngine.applyAll { config := {} } scheduledEvents).toOption.any
      (fun engine => decide (
        engine.jobs.rows.map (fun job => (job.jobId, job.recordedStatus, job.attempts.keys)) =
          [("job-1", .running, [1, 2]), ("job-2", .scheduled, [])] ∧
        ∀ job ∈ engine.jobs.rows, job.Answerable utcRuntime engine.config)) = true := by
    decide
  cases happlied : VisibilityEngine.applyAll { config := {} } scheduledEvents with
  | error e =>
      rw [happlied] at hshown
      cases hshown
  | ok engine =>
      rw [happlied] at hshown
      obtain ⟨hrows, hanswerable⟩ := of_decide_eq_true hshown
      exact ⟨engine, rfl, hrows,
        (queriesReturn_iff utcRuntime {} scheduledEvents happlied).2 hanswerable⟩

/-- The job is created without an offset. -/
def createdWithoutOffset : Event where
  eventId := "edr-1"
  eventType := .jobCreated
  eventTime := shownAt 1 false
  ingestionTime := shownAt 2 false
  jobId := "job-1"

/-- **The job that was created without an offset is accepted, and cannot be read.** -/
theorem not_queriesReturn_createdWithoutOffset :
    ¬ ∀ (runtime : Runtime) (config : VisibilityConfig) (events : List Event)
      (engine : VisibilityEngine),
      VisibilityEngine.applyAll { config := config } events = .ok engine →
      QueriesReturn runtime engine := by
  intro hall
  have hqueries := hall utcRuntime {} [createdWithoutOffset] _ rfl
  obtain ⟨item, hitem⟩ := hqueries.get (shownAt 3 true) rfl "job-1" (by decide)
  cases hitem

end ScheduledJobs.Mixed
