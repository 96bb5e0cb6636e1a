/-
**Retries that are spent without an execution.**

A claim takes the next attempt number, and a job whose attempt number has reached its budget is out
of retries.  A worker that dies, or is stopped, between the claim and the start has used the number
up: the recovery of the claim does not give it back, and the job can run out of retries without
ever having been started.  A failure that is reported before the start does the same.

Main definitions:

* `JobView.Started` — a start was committed for an attempt;
* `SpentOnExecutions` — **what is promised of a job that is out of retries**;
* `UsesUpUnstarted` — the step ends the claim of an attempt that was not started;
* `StartInv` — the invariant.

Main results:

* `mem_expired_of_recovered` — the claim a recovery takes back is one it selected;
* `StartInv.step` — the step lemma;
* `spentOnExecutions_of_reach` — **the retries of a job are spent on executions in every run that
  uses no attempt of it up unstarted**.
-/

import ScheduledJobs.QueueConstraints

set_option relaxedAutoImplicit false
set_option autoImplicit false

namespace ScheduledJobs

variable {Payload : Type}

/-! ### Attempts that were started -/

/-- A start was committed for the attempt. -/
def JobView.Started (v : JobView Payload) (n : ℕ) : Prop :=
  ∃ attempt, v.attempts n = some attempt ∧ attempt.startedAt.isSome

/-- Modifying an attempt does not undo a start, if the assignment does not. -/
theorem JobView.Started.modifyAttempt {v : JobView Payload} {n : ℕ} (h : v.Started n) (m : ℕ)
    {assign : AttemptRow Payload → AttemptRow Payload}
    (hassign : ∀ attempt, attempt.startedAt.isSome → (assign attempt).startedAt.isSome) :
    (v.modifyAttempt m assign).Started n := by
  obtain ⟨attempt, hattempt, hstarted⟩ := h
  by_cases hn : n = m
  · subst hn
    exact ⟨assign attempt, by simp [JobView.modifyAttempt, hattempt], hassign attempt hstarted⟩
  · exact ⟨attempt, by simp [JobView.modifyAttempt, hn, hattempt], hstarted⟩

/-- **A job that is out of retries has had every attempt started.** -/
def SpentOnExecutions (w : World Payload) (jobId : String) : Prop :=
  ∀ row, w.db.jobs.find? jobId = some row → row.status = .retriesExhausted →
    ∀ n, 1 ≤ n → n ≤ row.maxAttempts →
      ∃ attempt, w.db.attempts.find? (jobId, n) = some attempt ∧ attempt.startedAt.isSome

/-- The operation takes the claim of a row for one more attempt that did not succeed: it reports the
row's current claim as failed, for a reason that may be retried, or the row is among those a
recovery takes. -/
def Operation.EndsClaim (op : Operation Payload) (db : Db Payload) (row : JobRow Payload)
    (now : Datetime) : Prop :=
  match op with
  | .fail job failure =>
      failure.retryable = true ∧ job.jobId = row.jobId ∧ job.IsCurrent row now
  | .recoverExpiredClaims limit locked =>
      row.jobId ∈ ((db.expired locked now).take limit.toNat).map JobRow.jobId
  | _ => False

instance (op : Operation Payload) (db : Db Payload) (row : JobRow Payload) (now : Datetime) :
    Decidable (op.EndsClaim db row now) :=
  match op with
  | .fail .. => inferInstanceAs (Decidable (_ ∧ _))
  | .recoverExpiredClaims .. => inferInstanceAs (Decidable (_ ∈ List.map _ _))
  | .submitChecked .. | .claimDue .. | .start .. | .heartbeat .. | .succeed .. => isFalse id

/-- The step ends the claim of an attempt that was not started: the row is still `CLAIMED`. -/
def UsesUpUnstarted (jobId : String) (w : World Payload) (l : Label Payload) : Prop :=
  l.committed = true ∧ ∃ row ∈ w.db.jobs.find? jobId,
    row.status = .claimed ∧ l.operation.EndsClaim w.db row l.clock.checked

instance (jobId : String) (w : World Payload) (l : Label Payload) :
    Decidable (UsesUpUnstarted jobId w l) :=
  inferInstanceAs (Decidable (_ ∧ ∃ row ∈ w.db.jobs.find? jobId, _ ∧ _))

variable [DecidableEq Payload] {service : SchedulerService} {w w' : World Payload}
  {l : Label Payload} {jobId : String}

/-- **The claim a recovery takes back is one it selected**, in a transaction that commits. -/
theorem mem_expired_of_recovered (h : w.next service l = some w')
    (hrecovered : (w'.view jobId).recovered ≠ (w.view jobId).recovered) :
    l.committed = true ∧ ∃ limit locked, l.operation = .recoverExpiredClaims limit locked ∧
      jobId ∈ ((w.db.expired locked l.clock.checked).take limit.toNat).map JobRow.jobId := by
  obtain ⟨-, -, ⟨effect, hcommitted, hperform, rfl⟩ | ⟨-, rfl⟩⟩ := World.next_cases h
  · refine ⟨hcommitted, ?_⟩
    have hnew : ∃ p ∈ effect.recovered, p.1 = jobId := by
      by_contra hnone
      refine hrecovered ?_
      have hfilter : effect.recovered.filter (fun p => p.1 = jobId) = [] :=
        List.filter_eq_nil_iff.2 fun p hp hid => hnone ⟨p, hp, of_decide_eq_true hid⟩
      simp [World.view, World.commit, List.filter_append, hfilter]
    obtain ⟨p, hp, hid⟩ := hnew
    cases hop : l.operation with
    | recoverExpiredClaims limit locked =>
        rw [hop] at hperform
        simp only [SchedulerService.perform, Except.bind_eq_ok_iff] at hperform
        obtain ⟨result, hresult, heffect⟩ := hperform
        cases heffect
        unfold Db.recoverExpiredClaims at hresult
        split at hresult
        · cases hresult
        · simp only [Except.bind_eq_ok_iff] at hresult
          obtain ⟨db, -, hpair⟩ := hresult
          cases hpair
          obtain ⟨row, hrow, rfl⟩ := List.mem_map.1 hp
          exact ⟨limit, locked, rfl, List.mem_map.2 ⟨row, hrow, hid⟩⟩
    | _ =>
        -- the other operations take no claim back
        exfalso
        rw [hop] at hperform
        simp only [SchedulerService.perform, Except.bind_eq_ok_iff] at hperform
        obtain ⟨result, -, heffect⟩ := hperform
        cases heffect
        cases hp
  · exact absurd rfl hrecovered

/-! ### The invariant -/

omit [DecidableEq Payload]

/-- Every attempt that is over was started, and so was the attempt of a row that is running, waits
for a retry or is out of retries. -/
structure StartInv (v : JobView Payload) (row : JobRow Payload) : Prop where
  before : ∀ n, 1 ≤ n → n < row.attemptNumber → v.Started n
  current : row.status ∈ [.running, .retryWait, .retriesExhausted] → v.Started row.attemptNumber

/-- A step at the row's own attempt that undoes no start. -/
theorem StartInv.keep {v v' : JobView Payload} {row row' : JobRow Payload} (h : StartInv v row)
    (hnumber : row'.attemptNumber = row.attemptNumber)
    (hstarted : ∀ n, v.Started n → v'.Started n)
    (hcurrent : row'.status ∈ [.running, .retryWait, .retriesExhausted] →
      v'.Started row.attemptNumber) : StartInv v' row' where
  before := fun n hlow hhigh => hstarted n (h.before n hlow (hnumber ▸ hhigh))
  current := fun hs => hnumber ▸ hcurrent hs

/-- **The step lemma**: a row that loses its claim to a failure or a recovery was running. -/
theorem StartInv.step {clock : ClockReads} {op : Operation Payload} {v v' : JobView Payload}
    (hinv : QueueInv v) (h : ∀ row, v.row = some row → StartInv v row)
    (hfailed : ∀ row, v.row = some row → ∀ job failure, op = .fail job failure →
      failure.retryable = true → job ∈ v.claims → job.IsCurrent row clock.checked →
        row.status = .running)
    (hrecovered : ∀ row, v.row = some row → v'.recovered ≠ v.recovered → row.status = .running)
    (hs : JobStep service clock op v v') : ∀ row, v'.row = some row → StartInv v' row := by
  cases hs with
  | idle => exact h
  | @submitted value _ events hrow hevents =>
      intro row hrow'
      obtain rfl := Option.some_inj.1 hrow'
      refine ⟨fun n hlow hhigh => ?_, fun hs => ?_⟩
      · exact absurd hhigh (Nat.not_lt_zero n)
      · exact absurd hs (by simp [JobSubmission.row])
  | @claimed owner limit locked _ row token eventId hrow hstatus hdue hfresh =>
      intro row' hrow'
      obtain rfl := Option.some_inj.1 hrow'
      have hr := h row hrow
      refine ⟨fun n hlow hhigh => ?_, fun hs => absurd hs (by simp [JobRow.claim])⟩
      have hle : n < row.attemptNumber + 1 := hhigh
      have hne : n ≠ row.attemptNumber + 1 := by omega
      have hstarted : v.Started n := by
        rcases Nat.lt_or_eq_of_le (Nat.lt_succ_iff.1 hle) with hlt | rfl
        · exact hr.before n hlow hlt
        · -- the row has an attempt, so it waits for a retry
          refine hr.current ?_
          rcases hstatus with hpending | hwait
          · have := (hinv.present row hrow).pending_iff.1 hpending
            omega
          · simp [hwait]
      obtain ⟨attempt, hattempt, hsome⟩ := hstarted
      exact ⟨attempt, by simp [Function.update_of_ne hne, hattempt], hsome⟩
  | @started job _ row eventId hjob hrow hcur =>
      intro row' hrow'
      obtain rfl := Option.some_inj.1 hrow'
      refine (h row hrow).keep rfl (fun n hn => hn.modifyAttempt _ fun _ _ => rfl) fun _ => ?_
      obtain ⟨-, hpos⟩ := (hinv.present row hrow).of_isCurrent hcur
      obtain ⟨attempt, hattempt⟩ := Option.isSome_iff_exists.1
        (((hinv.present row hrow).attempts row.attemptNumber).2 ⟨hpos, le_rfl⟩)
      exact ⟨attempt.start clock.written, by
        simp [JobView.modifyAttempt, JobView.setRow, JobView.emit, hcur.1 ▸ hattempt, hcur.1], rfl⟩
  | @heartbeat job _ row hjob hrow hcur =>
      intro row' hrow'
      obtain rfl := Option.some_inj.1 hrow'
      exact (h row hrow).keep rfl (fun n hn => hn) (h row hrow).current
  | @succeeded job summary _ row eventId hjob hrow hcur =>
      intro row' hrow'
      obtain rfl := Option.some_inj.1 hrow'
      exact (h row hrow).keep rfl (fun n hn => hn.modifyAttempt _ fun _ => id)
        fun hs => absurd hs (by simp [JobRow.release])
  | @failed job failure _ row events hjob hrow hcur hchecks hevents =>
      intro row' hrow'
      obtain rfl := Option.some_inj.1 hrow'
      refine (h row hrow).keep rfl (fun n hn => hn.modifyAttempt _ fun _ => id) fun hs => ?_
      cases hretryable : failure.retryable with
      | true =>
          have hrunning := hfailed row hrow job failure rfl hretryable hjob hcur
          have hstarted := (h row hrow).current (by simp [hrunning])
          exact hstarted.modifyAttempt _ fun _ => id
      | false =>
          -- the job is over, and not out of retries
          exact absurd hs (by
            simp [JobRow.release, ClaimedJob.failureStatus, ClaimedJob.retries, hretryable])
  | @recovered limit locked _ row hrow hstatus hexpired =>
      intro row' hrow'
      obtain rfl := Option.some_inj.1 hrow'
      have hrunning := hrecovered row hrow (by simp)
      exact (h row hrow).keep rfl (fun n hn => hn)
        fun _ => (h row hrow).current (by simp [hrunning])

/-! ### Every run -/

/-- The invariant holds in every run that uses no attempt of the job up unstarted. -/
theorem StartInv.of_reach [DecidableEq Payload]
    (hw : (schedulerMachine service).Reach (fun w l => ¬ UsesUpUnstarted jobId w l) w) :
    ∀ row, (w.view jobId).row = some row → StartInv (w.view jobId) row := by
  induction hw with
  | start =>
      intro row hrow
      cases hrow
  | @step w w' l hs hspent hn ih =>
      have hinv := QueueInv.of_reachable hs.reachable jobId
      obtain ⟨-, -, ⟨effect, hcommitted, -, -⟩ | ⟨-, rfl⟩⟩ := World.next_cases hn
      · -- a row that loses its claim is not one whose attempt was not started
        have hrunning : ∀ row, (w.view jobId).row = some row →
            row.status = .claimed ∨ row.status = .running →
            l.operation.EndsClaim w.db row l.clock.checked → row.status = .running := by
          intro row hrow hstatus hends
          refine hstatus.resolve_left fun hclaimed => ?_
          exact hspent ⟨hcommitted, row, hrow, hclaimed, hends⟩
        refine StartInv.step hinv ih ?_ ?_ (view_step hn jobId)
        · intro row hrow job failure hop hretryable hjob hcur
          have hof := (hinv.present row hrow).claims job hjob
          refine hrunning row hrow ((hinv.present row hrow).of_isCurrent hcur).1 ?_
          rw [hop]
          exact ⟨hretryable, hof.jobId, hcur⟩
        · intro row hrow hrecovered
          obtain ⟨-, limit, locked, hop, hmem⟩ := mem_expired_of_recovered hn hrecovered
          obtain ⟨taken, htaken, hid⟩ := List.mem_map.1 hmem
          obtain ⟨hrows, hstatus, -⟩ := mem_expired htaken
          obtain rfl : taken = row := by
            have hfind : w.db.jobs.find? jobId = some taken :=
              Table.find?_eq_some_iff.2 ⟨hrows, hid⟩
            exact Option.some_inj.1 (hfind.symm.trans hrow)
          refine hrunning taken hrow hstatus ?_
          rw [hop]
          exact List.mem_map_of_mem htaken
      · exact ih

/-- **The retries of a job are spent on executions**, in every run in which no attempt of the job is
used up before its start. -/
theorem spentOnExecutions_of_reach [DecidableEq Payload] (service : SchedulerService)
    (jobId : String) (w : World Payload)
    (hw : (schedulerMachine service).Reach (fun w l => ¬ UsesUpUnstarted jobId w l) w) :
    SpentOnExecutions w jobId := by
  intro row hrow hexhausted n hlow hhigh
  have hstart := StartInv.of_reach hw row hrow
  have hnumber := ((QueueInv.of_reachable hw.reachable jobId).present row hrow).exhausted hexhausted
  rcases Nat.lt_or_eq_of_le (hnumber ▸ hhigh : n ≤ row.attemptNumber) with hlt | rfl
  · exact hstart.before n hlow hlt
  · exact hstart.current (by simp [hexhausted])

/-- Both attempts are claimed, started and fail. -/
def spentRun : List (Label String) :=
  [⟨.submitChecked twoAttempts, .instant (seconds 1), true⟩,
    ⟨.claimDue "worker-1" 10 [], .instant (seconds 10), true⟩,
    ⟨.start (twoAttemptsClaim 1 2 (seconds 10)), .instant (seconds 11), true⟩,
    ⟨.fail (twoAttemptsClaim 1 2 (seconds 10)) ⟨"TIMEOUT", true⟩, .instant (seconds 12), true⟩,
    ⟨.claimDue "worker-1" 10 [], .instant (seconds 14), true⟩,
    ⟨.start (twoAttemptsClaim 2 8 (seconds 14)), .instant (seconds 15), true⟩,
    ⟨.fail (twoAttemptsClaim 2 8 (seconds 14)) ⟨"TIMEOUT", true⟩, .instant (seconds 16), true⟩]

/-- Then the job is out of retries, and both were spent on executions. -/
theorem spentOnExecutions_spentRun :
    ∃ w, (schedulerMachine defaultService).runWhile (fun w l => ¬ UsesUpUnstarted "job-1" w l)
        (schedulerMachine defaultService).start spentRun = some w ∧
      (w.db.jobs.rows.map fun row => (row.status, row.maxAttempts)) = [(.retriesExhausted, 2)] ∧
      SpentOnExecutions w "job-1" := by
  refine ⟨_, rfl, by decide, ?_⟩
  exact spentOnExecutions_of_reach defaultService "job-1" _
    (Machine.Reach.of_runWhile Machine.Reach.start spentRun rfl)

/-- The worker is stopped after the claim, twice. -/
def neverStartedRun : List (Label String) :=
  [⟨.submitChecked twoAttempts, .instant (seconds 1), true⟩,
    ⟨.claimDue "worker-1" 10 [], .instant (seconds 10), true⟩,
    ⟨.recoverExpiredClaims 100 [], .instant (seconds 100), true⟩,
    ⟨.claimDue "worker-1" 10 [], .instant (seconds 101), true⟩,
    ⟨.recoverExpiredClaims 100 [], .instant (seconds 200), true⟩]

/-- **The job is out of retries, and was never started.** -/
theorem not_spentOnExecutions_neverStartedRun :
    ∃ w, (schedulerMachine defaultService).run (schedulerMachine defaultService).start
        neverStartedRun = some w ∧
      (w.db.jobs.rows.map fun row => (row.status, row.maxAttempts)) = [(.retriesExhausted, 2)] ∧
      (w.db.attempts.rows.all fun attempt => attempt.startedAt.isNone) = true ∧
      ¬ SpentOnExecutions w "job-1" := by
  obtain ⟨w, row, hrun, hrow, hstatus, hmax, hrows, hnone⟩ : ∃ w row,
      (schedulerMachine defaultService).run (schedulerMachine defaultService).start
        neverStartedRun = some w ∧
      w.db.jobs.find? "job-1" = some row ∧ row.status = .retriesExhausted ∧ row.maxAttempts = 2 ∧
      (w.db.jobs.rows.map fun row => (row.status, row.maxAttempts)) = [(.retriesExhausted, 2)] ∧
      (w.db.attempts.rows.all fun attempt => attempt.startedAt.isNone) = true :=
    ⟨_, _, rfl, rfl, rfl, rfl, rfl, rfl⟩
  refine ⟨w, hrun, hrows, hnone, fun hspent => ?_⟩
  obtain ⟨attempt, hattempt, hstarted⟩ := hspent row hrow hstatus 1 le_rfl (by omega)
  have hall := List.all_eq_true.1 hnone attempt (Table.mem_of_find? hattempt)
  rw [Option.isNone_iff_eq_none] at hall
  rw [hall] at hstarted
  cases hstarted

end ScheduledJobs
