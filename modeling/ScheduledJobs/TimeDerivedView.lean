/-
**What time makes of the view of a job.**

A reader is shown a status, a classification of the delay and three durations, all computed from
the projection and the reader's clock.  As the clock goes on they go on: a job that is scheduled
comes to await its execution and then is overdue, its delay is classified accordingly, and no
duration shrinks.  Once a job is finished its view should stand still, and it does so except for
what is measured up to a start that was never observed: such a delay is measured up to the clock.

Main definitions:

* `Status.standing`, `DelayClassification.standing`, `Advances` — the way of a job to its execution;
* `ViewAdvances`, `ViewCoherent` — what should hold between two times, and at each time;
* `JobResponse.settled`, `AnswersAlike` — answers that agree but for their freshness;
* `JobVisibility.DelaysSettled` — no delay of the job is measured up to the clock.

Main results:

* `isOverdue_mono`, `due_mono` — what has come over a job stays;
* `view_advances_and_coheres` — **the time-derived view is monotone and coherent**;
* `answersAlike_iff` — **the answer about a finished job is frozen exactly when its delays are
  settled**.
-/

import ScheduledJobs.DurableAgreement
import ScheduledJobs.Reconciliation
import ScheduledJobs.RetryAdvertisement
import ScheduledJobs.StatusEvidence

set_option relaxedAutoImplicit false
set_option autoImplicit false

namespace ScheduledJobs

/-! ### The way of a job to its execution -/

/-- Where a status stands on the way to the execution. -/
def Status.standing : Status → Option ℕ
  | scheduled => some 0
  | awaitingExecution => some 1
  | overdue => some 2
  | _ => none

/-- Where the classification of a delay stands on that way.  A backlog is supposed of a job that
was not retrieved, and a missing worker of one that was, so they stand at the same place. -/
def DelayClassification.standing : DelayClassification → Option ℕ
  | notYetEligible => some 0
  | awaitingPollWindow => some 1
  | possibleBatchBacklog | retrievedAwaitingWorker => some 2
  | executionOverdue => some 3
  | _ => none

/-- **What is shown later is the same, or stands further on.** -/
def Advances {α : Type*} (standing : α → Option ℕ) (shown later : α) : Prop :=
  later = shown ∨ ∃ i j, standing shown = some i ∧ standing later = some j ∧ i < j

namespace VisibilityConfig

/-- The classification a reader is shown. -/
def classification (config : VisibilityConfig) (job : JobVisibility) (now : Datetime) :
    Option DelayClassification :=
  config.delayClassification job now (config.derivedStatus job now)

/-- **What should hold between two times**: nothing moves back, and no duration shrinks. -/
structure ViewAdvances (config : VisibilityConfig) (job : JobVisibility) (now later : Datetime) :
    Prop where
  status : Advances Status.standing (config.derivedStatus job now) (config.derivedStatus job later)
  classification : Advances (fun shown => shown.bind DelayClassification.standing)
    (config.classification job now) (config.classification job later)
  startDelay : Option.Rel (· ≤ ·) (config.response job now).delay.startDelaySeconds
    (config.response job later).delay.startDelaySeconds
  postRetrievalDelay : Option.Rel (· ≤ ·) (config.response job now).delay.postRetrievalDelaySeconds
    (config.response job later).delay.postRetrievalDelaySeconds
  overdueDuration : (config.response job now).delay.overdueDurationSeconds ≤
    (config.response job later).delay.overdueDurationSeconds

/-- **What should hold at each time**: the status, the classification and the duration agree on
whether the job is overdue. -/
structure ViewCoherent (config : VisibilityConfig) (job : JobVisibility) (now : Datetime) :
    Prop where
  classification : config.derivedStatus job now = .overdue ↔
    config.classification job now = some .executionOverdue
  overdueDuration : 0 < (config.response job now).delay.overdueDurationSeconds →
    config.derivedStatus job now = .overdue

variable {config : VisibilityConfig} {job : JobVisibility} {now later : Datetime}

/-! ### What has come over a job stays -/

theorem seconds_nonneg {n : ℤ} (h : 0 ≤ n) : 0 ≤ seconds n := Int.mul_nonneg h (by decide)

theorem isOverdue_eq_true_iff :
    config.isOverdue job now = true ↔ ∃ s, job.scheduledAt = some s ∧ job.startedAt = none ∧
      job.recordedStatus ∈ [.scheduled, .awaitingExecution] ∧
        s + seconds config.gracePeriodSeconds < now := by
  unfold isOverdue
  cases hscheduled : job.scheduledAt with
  | none => simp
  | some s => simp [and_assoc]

theorem isOverdue_mono (h : now ≤ later) (hoverdue : config.isOverdue job now = true) :
    config.isOverdue job later = true := by
  obtain ⟨s, hscheduled, hstarted, hstatus, hpassed⟩ := isOverdue_eq_true_iff.mp hoverdue
  exact isOverdue_eq_true_iff.mpr ⟨s, hscheduled, hstarted, hstatus, hpassed.trans_le h⟩

theorem due_mono (h : now ≤ later) (hdue : job.Due now) : job.Due later := by
  obtain ⟨hstatus, hany⟩ := hdue
  obtain ⟨s, hscheduled, hle⟩ := (Option.any_eq_true ..).mp hany
  refine ⟨hstatus, (Option.any_eq_true ..).mpr ⟨s, hscheduled, ?_⟩⟩
  exact decide_eq_true ((of_decide_eq_true hle).trans h)

/-- A job that is overdue is due. -/
theorem scheduledAt_le_of_isOverdue (hgrace : 0 ≤ config.gracePeriodSeconds)
    (hoverdue : config.isOverdue job now = true) :
    ∃ s, job.scheduledAt = some s ∧ job.startedAt = none ∧ s < now := by
  obtain ⟨s, hscheduled, hstarted, -, hpassed⟩ := isOverdue_eq_true_iff.mp hoverdue
  exact ⟨s, hscheduled, hstarted, (le_add_of_nonneg_right (seconds_nonneg hgrace)).trans_lt hpassed⟩

/-- The status never moves back. -/
theorem derivedStatus_advances (h : now ≤ later) :
    Advances Status.standing (config.derivedStatus job now) (config.derivedStatus job later) := by
  rw [derivedStatus_eq, derivedStatus_eq]
  cases hlater : config.isOverdue job later with
  | true =>
      cases hnow : config.isOverdue job now with
      | true => exact Or.inl rfl
      | false =>
          right
          by_cases hdue : job.Due now
          · exact ⟨1, 2, by simp [hdue, Status.standing], rfl, by omega⟩
          · rcases recordedStatus_of_isOverdue hlater with hstatus | hstatus
            · exact ⟨0, 2, by simp [hdue, hstatus, Status.standing], rfl, by omega⟩
            · exact ⟨1, 2, by simp [hdue, hstatus, Status.standing], rfl, by omega⟩
  | false =>
      have hnow : config.isOverdue job now = false := by
        rw [Bool.eq_false_iff]
        intro hoverdue
        rw [isOverdue_mono h hoverdue] at hlater
        cases hlater
      by_cases hdue : job.Due now
      · left
        simp [hnow, hdue, due_mono h hdue]
      · by_cases hdue' : job.Due later
        · exact Or.inr ⟨0, 1, by simp [hnow, hdue, hdue'.1, Status.standing],
            by simp [hdue', Status.standing], by omega⟩
        · left
          simp [hnow, hdue, hdue']

/-! ### The status and the classification -/

/-- The status is overdue when the job is, unless it was recorded so. -/
theorem derivedStatus_eq_overdue_iff (hrecorded : job.recordedStatus ≠ .overdue) :
    config.derivedStatus job now = .overdue ↔ config.isOverdue job now = true := by
  rw [derivedStatus_eq_iff_of_ne hrecorded, HasBecome]
  simp

/-- **The classification of a job that waits for its start**, by what has come over it. -/
theorem classification_of_waiting (hrecorded : job.recordedStatus ≠ .overdue) {s : Datetime}
    (hscheduled : job.scheduledAt = some s) (hstarted : job.startedAt = none) :
    config.classification job now =
      if now < s then some .notYetEligible
      else if config.isOverdue job now then some .executionOverdue
      else if job.schedulerRetrievedAt.isSome then some .retrievedAwaitingWorker
      else if now < s + seconds config.pollIntervalSeconds then some .awaitingPollWindow
      else some .possibleBatchBacklog := by
  unfold classification delayClassification
  simp only [derivedStatus_eq_overdue_iff hrecorded, hscheduled, hstarted]

/-- Any other job is given none. -/
theorem classification_eq_none (h : job.scheduledAt = none ∨ job.startedAt.isSome) :
    config.classification job now = none := by
  unfold classification delayClassification
  rcases h with hscheduled | hstarted
  · rw [hscheduled]
  · obtain ⟨t, ht⟩ := Option.isSome_iff_exists.mp hstarted
    rw [ht]
    cases job.scheduledAt <;> rfl

/-- A job that is not retrieved may wait for a poll first, and is in a backlog after that. -/
theorem backlog_advances (h : now ≤ later) {firstPoll : Datetime} :
    Advances (fun shown => shown.bind DelayClassification.standing)
      (if now < firstPoll then some .awaitingPollWindow else some .possibleBatchBacklog)
      (if later < firstPoll then some .awaitingPollWindow else some .possibleBatchBacklog) := by
  by_cases hlater : later < firstPoll
  · left
    rw [if_pos hlater, if_pos (h.trans_lt hlater)]
  · rw [if_neg hlater]
    split_ifs
    · exact Or.inr ⟨1, 2, rfl, rfl, by omega⟩
    · exact Or.inl rfl

/-- The classification never moves back. -/
theorem classification_advances (hrecorded : job.recordedStatus ≠ .overdue) (h : now ≤ later) :
    Advances (fun shown => shown.bind DelayClassification.standing)
      (config.classification job now) (config.classification job later) := by
  cases hscheduled : job.scheduledAt with
  | none =>
      left
      rw [classification_eq_none (Or.inl hscheduled), classification_eq_none (Or.inl hscheduled)]
  | some s =>
      cases hstarted : job.startedAt with
      | some t =>
          have hsome : job.startedAt.isSome := by rw [hstarted]; rfl
          left
          rw [classification_eq_none (Or.inr hsome), classification_eq_none (Or.inr hsome)]
      | none =>
          rw [classification_of_waiting hrecorded hscheduled hstarted,
            classification_of_waiting hrecorded hscheduled hstarted]
          by_cases hearly : now < s
          · -- from before the scheduled time, any classification is further on
            by_cases hearly' : later < s
            · left
              rw [if_pos hearly, if_pos hearly']
            · right
              rw [if_pos hearly, if_neg hearly']
              split_ifs
              · exact ⟨0, 3, rfl, rfl, by omega⟩
              · exact ⟨0, 2, rfl, rfl, by omega⟩
              · exact ⟨0, 1, rfl, rfl, by omega⟩
              · exact ⟨0, 2, rfl, rfl, by omega⟩
          · have hearly' : ¬ later < s := fun hlt => hearly (h.trans_lt hlt)
            rw [if_neg hearly, if_neg hearly']
            by_cases hoverdue : config.isOverdue job now = true
            · left
              rw [if_pos hoverdue, if_pos (isOverdue_mono h hoverdue)]
            · rw [if_neg hoverdue]
              by_cases hoverdue' : config.isOverdue job later = true
              · right
                rw [if_pos hoverdue']
                split_ifs
                · exact ⟨2, 3, rfl, rfl, by omega⟩
                · exact ⟨1, 3, rfl, rfl, by omega⟩
                · exact ⟨2, 3, rfl, rfl, by omega⟩
              · rw [if_neg hoverdue']
                by_cases hretrieved : job.schedulerRetrievedAt.isSome
                · left
                  rw [if_pos hretrieved, if_pos hretrieved]
                · rw [if_neg hretrieved, if_neg hretrieved]
                  exact backlog_advances h

/-! ### The durations -/

/-- What is measured up to the start, or up to the clock, never shrinks. -/
theorem delay_advances (h : now ≤ later) (started since : Option Datetime) :
    Option.Rel (· ≤ ·) (since.map fun t => wholeSeconds (started.getD now - t))
      (since.map fun t => wholeSeconds (started.getD later - t)) := by
  cases since with
  | none => exact .none
  | some t =>
      refine .some (wholeSeconds_mono (sub_le_sub_right ?_ t))
      cases started with
      | none => exact h
      | some u => exact le_rfl

/-- What an overdue job is shown. -/
theorem overdueDuration_eq {s : Datetime} (hscheduled : job.scheduledAt = some s) :
    config.overdueDuration job now =
      if config.isOverdue job now then
        wholeSeconds (now - (s + seconds config.gracePeriodSeconds)) else 0 := by
  unfold overdueDuration
  rw [hscheduled]

theorem overdueDuration_eq_zero (h : ¬ config.isOverdue job now = true) :
    config.overdueDuration job now = 0 := by
  cases hscheduled : job.scheduledAt with
  | none => rw [overdueDuration, hscheduled]
  | some s => rw [overdueDuration_eq hscheduled, if_neg h]

theorem overdueDuration_mono (h : now ≤ later) :
    config.overdueDuration job now ≤ config.overdueDuration job later := by
  by_cases hoverdue : config.isOverdue job now = true
  · obtain ⟨s, hscheduled, -⟩ := isOverdue_eq_true_iff.mp hoverdue
    rw [overdueDuration_eq hscheduled, overdueDuration_eq hscheduled, if_pos hoverdue,
      if_pos (isOverdue_mono h hoverdue)]
    exact wholeSeconds_mono (sub_le_sub_right h _)
  · rw [overdueDuration_eq_zero hoverdue]
    exact Nat.zero_le _

/-! ### The view of a projection -/

/-- Nothing moves back between two times. -/
theorem viewAdvances (hrecorded : job.recordedStatus ≠ .overdue) (h : now ≤ later) :
    config.ViewAdvances job now later where
  status := derivedStatus_advances h
  classification := classification_advances hrecorded h
  startDelay := delay_advances h job.startedAt job.scheduledAt
  postRetrievalDelay := delay_advances h job.startedAt job.schedulerRetrievedAt
  overdueDuration := overdueDuration_mono h

/-- The view agrees on whether the job is overdue. -/
theorem viewCoherent (hgrace : 0 ≤ config.gracePeriodSeconds)
    (hrecorded : job.recordedStatus ≠ .overdue) : config.ViewCoherent job now where
  classification := by
    rw [derivedStatus_eq_overdue_iff hrecorded]
    constructor
    · intro hoverdue
      obtain ⟨s, hscheduled, hstarted, hlt⟩ := scheduledAt_le_of_isOverdue hgrace hoverdue
      rw [classification_of_waiting hrecorded hscheduled hstarted, if_neg hlt.not_gt,
        if_pos hoverdue]
    · intro hshown
      by_contra hoverdue
      cases hscheduled : job.scheduledAt with
      | none =>
          rw [classification_eq_none (Or.inl hscheduled)] at hshown
          cases hshown
      | some s =>
          cases hstarted : job.startedAt with
          | some t =>
              rw [classification_eq_none (Or.inr (by rw [hstarted]; rfl))] at hshown
              cases hshown
          | none =>
              rw [classification_of_waiting hrecorded hscheduled hstarted, if_neg hoverdue]
                at hshown
              split_ifs at hshown <;> cases hshown
  overdueDuration := by
    rw [derivedStatus_eq_overdue_iff hrecorded]
    intro hpositive
    by_contra hoverdue
    exact hpositive.ne' (overdueDuration_eq_zero hoverdue)

end VisibilityConfig

open VisibilityConfig

/-- No call of the engine records a job as overdue. -/
theorem maintained_evidenced :
    VisibilityEngine.Maintained fun _ job => job.Evidenced where
  blank := fun _ => trivial
  reduced := fun before event current h => by
    cases current with
    | none => exact evidenced_reduceEvent (fun _ hjob => by cases hjob) event
    | some job => exact evidenced_reduceEvent (fun _ hjob => Option.some_inj.mp hjob ▸ h) event
  logged := fun before job decisions h => h
  reconciled := fun before job config now h => h

theorem recordedStatus_ne_overdue {job : JobVisibility} (h : job.Evidenced) :
    job.recordedStatus ≠ .overdue := by
  intro hoverdue
  rw [JobVisibility.Evidenced, hoverdue] at h
  exact h

/-- **The time-derived view is monotone and coherent**: of every projection an engine comes to hold,
as long as the grace period is not negative. -/
theorem view_advances_and_coheres (config : VisibilityConfig) (ops : List EngineCall)
    (engine : VisibilityEngine) (reports : List (List Finding)) (jobId : String)
    (job : JobVisibility) (now later : Datetime) (hgrace : 0 ≤ config.gracePeriodSeconds)
    (hperform : VisibilityEngine.perform { config := config } ops = .ok (engine, reports))
    (hjob : engine.jobs.find? jobId = some job) (htime : now ≤ later) :
    config.ViewAdvances job now later ∧ config.ViewCoherent job now ∧
      config.ViewCoherent job later := by
  have hrecorded := recordedStatus_ne_overdue
    ((VisibilityEngine.holds_perform maintained_evidenced hperform).job jobId job hjob)
  exact ⟨viewAdvances hrecorded htime, viewCoherent hgrace hrecorded, viewCoherent hgrace hrecorded⟩

/-- A job is acknowledged, with a scheduled time. -/
def scheduledJobEvents : List Event :=
  [{ retryEvent 1 .jobSchedulerSubmissionAcknowledged 0 with scheduledAt := some (seconds 60) }]

/-- Its view, before the scheduled time and long after it. -/
theorem view_advances_and_coheres_acknowledged :
    ∃ job, projectionAfter {} (appliedCalls scheduledJobEvents) "job-1" = some job ∧
      VisibilityConfig.ViewAdvances {} job (seconds 10) (seconds 3600) ∧
      VisibilityConfig.ViewCoherent {} job (seconds 10) ∧
      VisibilityConfig.ViewCoherent {} job (seconds 3600) := by
  have hscheduled : (projectionAfter {} (appliedCalls scheduledJobEvents) "job-1").any
      (fun job => job.recordedStatus = .scheduled) = true := by decide
  obtain ⟨engine, reports, job, hperform, hjob, -⟩ := exists_perform_of_projectionAfter hscheduled
  have hfound : projectionAfter {} (appliedCalls scheduledJobEvents) "job-1" = some job := by
    rw [projectionAfter, hperform]
    exact hjob
  exact ⟨job, hfound, view_advances_and_coheres {} _ engine reports "job-1" job _ _ (by decide)
    hperform hjob (by decide)⟩

/-! ### Finished jobs -/

/-- A response without the one field that says how old it is. -/
def JobResponse.settled (item : JobResponse) : JobResponse :=
  { item with freshness := { item.freshness with possiblyStale := false } }

/-- **The answers about a job at two times agree**, but for how old they are. -/
def AnswersAlike (engine : VisibilityEngine) (jobId : String) (now later : Datetime) : Prop :=
  (engine.get jobId now).map JobResponse.settled =
    (engine.get jobId later).map JobResponse.settled

/-- **No delay of the job is measured up to the clock**: it was started, or there is nothing to
measure from. -/
def JobVisibility.DelaysSettled (job : JobVisibility) : Prop :=
  job.startedAt.isSome ∨ job.scheduledAt = none ∧ job.schedulerRetrievedAt = none

instance (job : JobVisibility) : Decidable job.DelaysSettled :=
  inferInstanceAs (Decidable (_ ∨ _))

section Finished

variable {config : VisibilityConfig} {job : JobVisibility}

/-- A finished job is not overdue. -/
theorem isOverdue_eq_false_of_isTerminal (h : job.recordedStatus.isTerminal) (now : Datetime) :
    config.isOverdue job now = false := by
  rw [Bool.eq_false_iff]
  intro hoverdue
  rcases recordedStatus_of_isOverdue hoverdue with hstatus | hstatus
  · rw [hstatus] at h
    cases h
  · rw [hstatus] at h
    cases h

theorem derivedStatus_of_isTerminal (h : job.recordedStatus.isTerminal) (now : Datetime) :
    config.derivedStatus job now = job.recordedStatus := by
  unfold derivedStatus
  rw [if_pos (Or.inl h)]

/-- A delay that is measured up to a start, or from nothing, does not move. -/
theorem delay_eq_of_settled {started since : Option Datetime} (h : started.isSome ∨ since = none)
    (now later : Datetime) :
    (since.map fun t => wholeSeconds (started.getD now - t)) =
      since.map fun t => wholeSeconds (started.getD later - t) := by
  rcases h with hstarted | rfl
  · obtain ⟨u, rfl⟩ := Option.isSome_iff_exists.mp hstarted
    rfl
  · rfl

/-- A delay that is measured up to the clock is longer at some later time: a power of two is
measured as it is. -/
theorem exists_later_delay (t now : Datetime) :
    ∃ later, now ≤ later ∧ wholeSeconds (now - t) ≠ wholeSeconds (later - t) := by
  have hfar := Nat.lt_two_pow_self (n := wholeSeconds (now - t) + (now - t).toNat)
  have hmeasured := wholeSeconds_seconds
    (Binary.binary64_represents_two_pow (wholeSeconds (now - t) + (now - t).toNat))
  generalize 2 ^ (wholeSeconds (now - t) + (now - t).toNat) = n at hfar hmeasured
  have hlonger : wholeSeconds (now - t) < n := (Nat.le_add_right _ _).trans_lt hfar
  have hreached : now - t ≤ seconds n := by
    have hlength : ((now - t).toNat : ℤ) < n := by
      exact_mod_cast (Nat.le_add_left _ _).trans_lt hfar
    have hself := Int.self_le_toNat (now - t)
    rw [seconds]
    linarith
  refine ⟨t + seconds n, by linarith, ?_⟩
  rw [add_sub_cancel_left, hmeasured]
  exact hlonger.ne

/-- **The response about a finished job whose delays are settled does not depend on the clock.** -/
theorem settled_response_eq (hterminal : job.recordedStatus.isTerminal) (h : job.DelaysSettled)
    (now later : Datetime) :
    (config.response job now).settled = (config.response job later).settled := by
  have hclassification : ∀ t, config.delayClassification job t job.recordedStatus = none := by
    intro t
    rw [← derivedStatus_of_isTerminal hterminal t]
    exact classification_eq_none (h.symm.imp And.left id)
  have hstart := delay_eq_of_settled (h.imp id And.left) now later
  have hretrieval := delay_eq_of_settled (h.imp id And.right) now later
  have hduration : ∀ t, config.overdueDuration job t = 0 := fun t =>
    overdueDuration_eq_zero (by rw [isOverdue_eq_false_of_isTerminal hterminal t]; decide)
  simp only [response, JobResponse.settled, derivedStatus_of_isTerminal hterminal, hclassification,
    hduration, hstart, hretrieval]

/-- **The answer about a finished job is frozen exactly when its delays are settled.**  The engine
is any, so the calls that led to the projection do not matter. -/
theorem answersAlike_iff (engine : VisibilityEngine) (jobId : String) (job : JobVisibility)
    (hjob : engine.jobs.find? jobId = some job) (hterminal : job.recordedStatus.isTerminal) :
    (∀ now later, (∀ t ∈ job.dataAsOf, t ≤ now) → (∀ t ∈ job.dataAsOf, t ≤ later) →
        AnswersAlike engine jobId now later) ↔ job.DelaysSettled := by
  have hget : ∀ now, engine.get jobId now = .ok (engine.config.response job now) :=
    fun now => VisibilityEngine.get_eq_ok_iff.mpr ⟨job, hjob, rfl⟩
  constructor
  · intro halike
    by_contra hunsettled
    rw [JobVisibility.DelaysSettled, not_or, Option.not_isSome_iff_eq_none] at hunsettled
    obtain ⟨hstarted, hsince⟩ := hunsettled
    have hlate : ∀ t ∈ job.dataAsOf, t ≤ job.dataAsOf.getD 0 := by
      intro t ht
      rw [Option.mem_def.mp ht]
      exact le_rfl
    -- from a time on that is late enough for the query and for the delay
    have hmoves : ∀ since, ∃ now later, wholeSeconds (now - since) ≠ wholeSeconds (later - since) ∧
        (engine.config.response job now).delay = (engine.config.response job later).delay := by
      intro since
      obtain ⟨later, hlater, hdelay⟩ :=
        exists_later_delay since (max (job.dataAsOf.getD 0) since)
      refine ⟨_, later, hdelay, ?_⟩
      have hreached : ∀ t ∈ job.dataAsOf, t ≤ max (job.dataAsOf.getD 0) since :=
        fun t ht => (hlate t ht).trans (le_max_left ..)
      have hsame := halike _ later hreached fun t ht => (hreached t ht).trans hlater
      rw [AnswersAlike, hget, hget] at hsame
      exact (congrArg JobResponse.delay (Except.ok.inj hsame) :)
    cases hscheduled : job.scheduledAt with
    | some s =>
        obtain ⟨now, later, hne, hsame⟩ := hmoves s
        have hdelay := congrArg DelayView.startDelaySeconds hsame
        simp only [response, hstarted, hscheduled] at hdelay
        exact hne (Option.some_inj.mp hdelay)
    | none =>
        cases hretrieved : job.schedulerRetrievedAt with
        | none => exact hsince ⟨hscheduled, hretrieved⟩
        | some r =>
            obtain ⟨now, later, hne, hsame⟩ := hmoves r
            have hdelay := congrArg DelayView.postRetrievalDelaySeconds hsame
            simp only [response, hstarted, hretrieved] at hdelay
            exact hne (Option.some_inj.mp hdelay)
  · intro hsettled now later _ _
    rw [AnswersAlike, hget, hget]
    exact congrArg Except.ok (settled_response_eq hterminal hsettled now later)

end Finished

/-! ### A job that is cancelled before it starts -/

/-- The acknowledged job starts and succeeds. -/
def executedEvents : List Event :=
  scheduledJobEvents ++
    [retryEvent 20 .jobExecutionStarted 1, retryEvent 22 .jobExecutionSucceeded 1]

/-- It is cancelled instead. -/
def cancelledEvents : List Event := scheduledJobEvents ++ [retryEvent 2 .jobCancelled 0]

/-- The delays of a job that was executed are settled. -/
theorem answersAlike_executed :
    ∃ engine reports, VisibilityEngine.perform {} (appliedCalls executedEvents) =
        .ok (engine, reports) ∧
      ∀ now later, seconds 111 ≤ now → seconds 111 ≤ later →
        AnswersAlike engine "job-1" now later := by
  have hfinished : (projectionAfter {} (appliedCalls executedEvents) "job-1").any
      (fun job => job.recordedStatus.isTerminal && decide job.DelaysSettled &&
        decide (job.dataAsOf = some (seconds 111))) = true := by decide
  obtain ⟨engine, reports, job, hperform, hjob, hshown⟩ :=
    exists_perform_of_projectionAfter hfinished
  simp only [Bool.and_eq_true, decide_eq_true_eq] at hshown
  obtain ⟨⟨hterminal, hsettled⟩, hdata⟩ := hshown
  refine ⟨engine, reports, hperform, fun now later hnow hlater => ?_⟩
  refine (answersAlike_iff engine "job-1" job hjob hterminal).mpr hsettled now later ?_ ?_
  · rw [hdata]
    rintro t ⟨⟩
    exact hnow
  · rw [hdata]
    rintro t ⟨⟩
    exact hlater

/-- **The start of a cancelled job is late by more, the later one asks.** -/
theorem not_answersAlike_cancelled :
    ¬ ∀ (config : VisibilityConfig) (ops : List EngineCall) (engine : VisibilityEngine)
        (reports : List (List Finding)) (jobId : String) (job : JobVisibility)
        (now later : Datetime),
        VisibilityEngine.perform { config := config } ops = .ok (engine, reports) →
        engine.jobs.find? jobId = some job → job.recordedStatus.isTerminal →
        (∀ t ∈ job.dataAsOf, t ≤ now) → (∀ t ∈ job.dataAsOf, t ≤ later) →
        AnswersAlike engine jobId now later := by
  intro halike
  have hfinished : (projectionAfter {} (appliedCalls cancelledEvents) "job-1").any
      (fun job => job.recordedStatus.isTerminal && decide (job.dataAsOf = some (seconds 11)) &&
        decide (job.scheduledAt = some (seconds 60)) && job.startedAt.isNone) = true := by decide
  obtain ⟨engine, reports, job, hperform, hjob, hshown⟩ :=
    exists_perform_of_projectionAfter hfinished
  simp only [Bool.and_eq_true, decide_eq_true_eq, Option.isNone_iff_eq_none] at hshown
  obtain ⟨⟨⟨hterminal, hdata⟩, hscheduled⟩, hstarted⟩ := hshown
  have hlate : ∀ t ∈ job.dataAsOf, t ≤ seconds 120 := by
    rw [hdata]
    rintro t ⟨⟩
    decide
  have hlater : ∀ t ∈ job.dataAsOf, t ≤ seconds 180 := by
    rw [hdata]
    rintro t ⟨⟩
    decide
  have hsame := halike {} _ engine reports "job-1" job (seconds 120) (seconds 180) hperform hjob
    hterminal hlate hlater
  rw [AnswersAlike, VisibilityEngine.get_eq_ok_iff.mpr ⟨job, hjob, rfl⟩,
    VisibilityEngine.get_eq_ok_iff.mpr ⟨job, hjob, rfl⟩] at hsame
  have hdelay := congrArg (fun item : JobResponse => item.delay.startDelaySeconds)
    (Except.ok.inj hsame)
  simp only [JobResponse.settled, response, hscheduled, hstarted] at hdelay
  exact absurd hdelay (by decide +kernel)

end ScheduledJobs
