/-
**When a running job is reported to have run too long.**

`reconcile` measures how long a job has been running from the time the *job* was started at, which
is merged from the starts of all its attempts.  That time is the earliest start of any attempt, so
after a retry a job is reported although the attempt that runs has only just been started.

Main definitions:

* `RunningTimeoutSound` — what the report should mean;
* `FirstStartRuns` — **of a running job, the attempt that was started first still runs**.

Main results:

* `StartsAgree.reduceEvent` — the job was started when one of its attempts was;
* `runningTimeoutSound_iff` — **the reports about a job are right at every time exactly when the
  attempt that was started first still runs**.
-/

import ScheduledJobs.Reconciliation
import ScheduledJobs.TimestampBackfill

set_option relaxedAutoImplicit false
set_option autoImplicit false

namespace ScheduledJobs

open JobVisibility VisibilityConfig

/-- **What the report should mean**: some attempt is running, and was itself started more than the
timeout ago. -/
def RunningTimeoutSound (config : VisibilityConfig) (job : JobVisibility) (now : Datetime) : Prop :=
  config.Reports job now .runningTimeout →
    ∃ n attempt, job.attempts.get? n = some attempt ∧ attempt.status = .running ∧
      Elapsed now attempt.startedAt config.runningTimeoutSeconds

/-- **Of a running job, the attempt that was started first still runs**: whenever an attempt was
started, one that runs was started no later. -/
def FirstStartRuns (job : JobVisibility) : Prop :=
  job.recordedStatus = .running →
    ∀ n attempt t, job.attempts.get? n = some attempt → attempt.startedAt = some t →
      ∃ m runs u, job.attempts.get? m = some runs ∧ runs.status = .running ∧
        runs.startedAt = some u ∧ u ≤ t

/-! ### The start of a job and those of its attempts -/

/-- The job was started long ago when one of its attempts was. -/
def StartsAgree (job : JobVisibility) : Prop :=
  ∀ now timeout, Elapsed now job.startedAt timeout ↔
    ∃ n, Elapsed now (job.attemptStartedAt n) timeout

theorem elapsed_some_iff {now t : Datetime} {timeout : ℤ} :
    Elapsed now (some t) timeout ↔ seconds timeout < now - t := by
  simp [Elapsed]

/-- The earlier of two times is long ago when one of them is. -/
theorem elapsed_earliest_iff {now : Datetime} {left right : Option Datetime} {timeout : ℤ} :
    Elapsed now (earliest left right) timeout ↔
      Elapsed now left timeout ∨ Elapsed now right timeout := by
  have hnone : ¬ Elapsed now none timeout := by
    rintro ⟨t, ht, -⟩
    cases ht
  cases left with
  | none =>
      rw [or_iff_right hnone]
      exact Iff.rfl
  | some l =>
      cases right with
      | none => rw [earliest_none, or_iff_left hnone]
      | some r =>
          rw [elapsed_some_iff, elapsed_some_iff]
          refine elapsed_some_iff.trans ?_
          rw [lt_sub_comm, min_lt_iff]
          exact or_congr lt_sub_comm lt_sub_comm

theorem StartsAgree.reduceEvent {current : Option JobVisibility} {event : Event}
    (h : StartsAgree (currentOrBlank current event)) :
    StartsAgree (reduceEvent current event).job := by
  intro now timeout
  have htimes := times_reduceEvent current event
  have hjob : (ScheduledJobs.reduceEvent current event).job.startedAt =
      earliest (currentOrBlank current event).startedAt event.times.startedAt :=
    congrArg JobTimes.startedAt htimes
  have hattempt : ∀ n, (ScheduledJobs.reduceEvent current event).job.attemptStartedAt n =
      earliest ((currentOrBlank current event).attemptStartedAt n)
        (event.times.attemptStartedAt n) :=
    fun n => congrFun (congrArg JobTimes.attemptStartedAt htimes) n
  simp only [hjob, hattempt, elapsed_earliest_iff, exists_or, h now timeout]
  refine or_congr_right ?_
  -- the start an event observes is that of its own attempt
  constructor
  · intro helapsed
    refine ⟨event.number, ?_⟩
    simpa [Event.times] using helapsed
  · rintro ⟨n, helapsed⟩
    by_cases hn : event.number = n
    · simpa [Event.times, hn] using helapsed
    · obtain ⟨t, ht, -⟩ := helapsed
      simp [Event.times, hn] at ht

/-- Findings are keyed, and the start of the job is that of an attempt, after any calls. -/
theorem maintained_startsAgree :
    VisibilityEngine.Maintained fun _ job => Findings.Keyed job.findings ∧ StartsAgree job where
  blank := by
    intro jobId
    refine And.intro (fun code finding hfind => ?_) (fun now timeout => iff_of_false ?_ ?_)
    · cases hfind
    · rintro ⟨t, ht, -⟩
      cases ht
    · rintro ⟨n, t, ht, -⟩
      cases ht
  reduced := fun before event current h =>
    ⟨(reduceEvent_grows current event).findings.keyed h.1, h.2.reduceEvent⟩
  logged := fun before job decisions h => h
  reconciled := fun before job config now h => ⟨(h.1.observeAll now _).1, h.2⟩

/-- An attempt was started long ago when it is there and its own start is. -/
theorem elapsed_attemptStartedAt_iff {job : JobVisibility} {n : ℕ} {now : Datetime}
    {timeout : ℤ} : Elapsed now (job.attemptStartedAt n) timeout ↔
      ∃ attempt, job.attempts.get? n = some attempt ∧ Elapsed now attempt.startedAt timeout := by
  unfold attemptStartedAt
  cases hget : job.attempts.get? n with
  | none =>
      constructor
      · rintro ⟨t, ht, -⟩
        cases ht
      · rintro ⟨attempt, hattempt, -⟩
        cases hattempt
  | some attempt =>
      constructor
      · exact fun h => ⟨attempt, rfl, h⟩
      · rintro ⟨_, hattempt, h⟩
        cases hattempt
        exact h

/-- **The reports about a job are right at every time exactly when the attempt that was started
first still runs.** -/
theorem runningTimeoutSound_iff (config : VisibilityConfig) (ops : List EngineCall)
    (engine : VisibilityEngine) (reports : List (List Finding)) (jobId : String)
    (job : JobVisibility)
    (hperform : VisibilityEngine.perform { config := config } ops = .ok (engine, reports))
    (hjob : engine.jobs.find? jobId = some job) :
    (∀ now, RunningTimeoutSound config job now) ↔ FirstStartRuns job := by
  obtain ⟨hkeyed, hagree⟩ :=
    (VisibilityEngine.holds_perform maintained_startsAgree hperform).job jobId job hjob
  have hreports : ∀ now, config.Reports job now .runningTimeout ↔
      job.recordedStatus = .running ∧ ∃ n attempt, job.attempts.get? n = some attempt ∧
        Elapsed now attempt.startedAt config.runningTimeoutSeconds := by
    intro now
    rw [reports_runningTimeout_iff hkeyed, hagree]
    simp only [elapsed_attemptStartedAt_iff]
  constructor
  · intro hsound hrunning n attempt t hget hstarted
    -- just after the timeout of this attempt
    have helapsed : Elapsed (t + seconds config.runningTimeoutSeconds + 1) attempt.startedAt
        config.runningTimeoutSeconds := by
      refine ⟨t, hstarted, ?_⟩
      rw [lt_sub_iff_add_lt']
      exact Int.lt_add_one_iff.2 le_rfl
    obtain ⟨m, runs, hget', hruns, u, hu, hlong⟩ :=
      hsound _ ((hreports _).2 ⟨hrunning, n, attempt, hget, helapsed⟩)
    rw [lt_sub_iff_add_lt, add_comm (seconds _), add_right_comm, add_lt_add_iff_right] at hlong
    exact ⟨m, runs, u, hget', hruns, hu, Int.lt_add_one_iff.1 hlong⟩
  · intro hfirst now hreported
    obtain ⟨hrunning, n, attempt, hget, t, ht, hlong⟩ := (hreports now).1 hreported
    obtain ⟨m, runs, u, hget', hruns, hu, hle⟩ := hfirst hrunning n attempt t hget ht
    exact ⟨m, runs, hget', hruns, u, hu, hlong.trans_le (sub_le_sub_left hle now)⟩

/-! ### A retry that is reported at once -/

/-- A first attempt that does not end, and a second that is started while it runs. -/
def overlappingEvents : List Event :=
  [retryEvent 1 .jobExecutionStarted 1, retryEvent 600 .jobExecutionStarted 2]

/-- A job whose first attempt still runs is reported in time, whatever was started after it. -/
theorem runningTimeoutSound_overlappingEvents :
    ∃ job, projectionAfter {} (appliedCalls overlappingEvents) "job-1" = some job ∧
      job.recordedStatus = .running ∧ job.attempts.entries.map Prod.fst = [1, 2] ∧
        ∀ now, RunningTimeoutSound {} job now := by
  have hshown : (projectionAfter {} (appliedCalls overlappingEvents) "job-1").any
      (fun job => decide (job.recordedStatus = .running ∧
        job.attempts.entries.map Prod.fst = [1, 2] ∧
        ∃ first ∈ job.attempts.get? 1, first.status = .running ∧ ∃ u ∈ first.startedAt,
          ∀ entry ∈ job.attempts.entries, ∀ t ∈ entry.2.startedAt, u ≤ t)) = true := by
    decide
  obtain ⟨engine, reports, job, hperform, hjob, hshown⟩ := exists_perform_of_projectionAfter hshown
  obtain ⟨hrunning, hnumbers, first, hfirst, hruns, u, hu, hearliest⟩ := of_decide_eq_true hshown
  have hfound : projectionAfter {} (appliedCalls overlappingEvents) "job-1" = some job := by
    rw [projectionAfter, hperform]
    exact hjob
  refine ⟨job, hfound, hrunning, hnumbers,
    (runningTimeoutSound_iff {} _ engine reports "job-1" job hperform hjob).2 ?_⟩
  -- the first attempt answers for both
  intro _ n attempt t hget hstarted
  exact ⟨1, first, u, hfirst, hruns, hu,
    hearliest (n, attempt) (Dict.mem_entries_iff.2 hget) t hstarted⟩

/-- A first attempt that fails, and a second that is started long after it. -/
def restartedEvents : List Event :=
  [retryEvent 1 .jobExecutionStarted 1, retryEvent 2 .jobExecutionFailed 1,
    retryEvent 600 .jobExecutionStarted 2]

/-- **One second after it was started, the second attempt is reported to have run too long.** -/
theorem not_runningTimeoutSound_restartedEvents :
    ¬ ∀ (config : VisibilityConfig) (ops : List EngineCall) (engine : VisibilityEngine)
        (reports : List (List Finding)) (jobId : String) (job : JobVisibility) (now : Datetime),
        0 ≤ config.runningTimeoutSeconds →
        VisibilityEngine.perform { config := config } ops = .ok (engine, reports) →
        engine.jobs.find? jobId = some job → RunningTimeoutSound config job now := by
  intro hsound
  have hreported : (projectionAfter {} (appliedCalls restartedEvents) "job-1").any
      (fun job => decide (VisibilityConfig.Reports {} job (seconds 3001) .runningTimeout ∧
        ∀ entry ∈ job.attempts.entries, entry.2.status = .running →
          entry.2.startedAt = some (seconds 3000))) = true := by
    decide
  obtain ⟨engine, reports, job, hperform, hjob, hshown⟩ :=
    exists_perform_of_projectionAfter hreported
  obtain ⟨hreports, hstarted⟩ := of_decide_eq_true hshown
  obtain ⟨n, attempt, hget, hrunning, t, ht, helapsed⟩ :=
    hsound {} _ engine reports "job-1" job (seconds 3001) (by decide) hperform hjob hreports
  obtain rfl := Option.some_inj.1
    ((hstarted (n, attempt) (Dict.mem_entries_iff.2 hget) hrunning).symm.trans ht)
  exact absurd helapsed (by decide)

end ScheduledJobs
