/-
**The retry budget, in the queue and in the projection.**

The budget of a job is a column of its row; every event carries a copy, and the projection keeps the
largest copy it has seen, starting from a default of three.  So a budget below the default is never
shown.  The attempts that are spent do agree: as long as every claim is started before it is decided
and no lease expires, the projection counts the attempts that have an outcome in the queue.

Main definitions:

* `Db.decidedAttempts` — the attempts of a job that have an outcome;
* `BudgetAgrees` — **what the projection says of the budget**;
* `BudgetInv` — the events of a job carry its budget.

Main results:

* `maxAttempts_reduceAll` — the budget a projection shows;
* `Simulates.completedAttempts` — the attempts it counts;
* `budgetAgrees_iff` — **the budgets that agree, after every step of every diligent run**.
-/

import ScheduledJobs.OutboxHistory
import ScheduledJobs.VisibilitySimulation

set_option relaxedAutoImplicit false
set_option autoImplicit false

namespace ScheduledJobs

open JobVisibility

variable {Payload : Type}

/-! ### The budget on the events -/

/-- Every event of a job carries the budget of its row. -/
def BudgetInv (v : JobView Payload) : Prop :=
  ∀ row, v.row = some row → v.events ≠ [] ∧ ∀ event ∈ v.events, event.maxAttempts = row.maxAttempts

/-- Events that carry the budget enter the outbox. -/
theorem BudgetInv.emit {v v' : JobView Payload} {row row' : JobRow Payload} {events : List Event}
    (h : BudgetInv v) (hrow : v.row = some row) (hrow' : v'.row = some row')
    (hmax : row'.maxAttempts = row.maxAttempts) (hevents : v'.events = v.events ++ events)
    (hadded : ∀ event ∈ events, event.maxAttempts = row.maxAttempts) : BudgetInv v' := by
  intro row'' hrow''
  obtain rfl := Option.some_inj.1 (hrow'.symm.trans hrow'')
  obtain ⟨hne, hall⟩ := h row hrow
  rw [hevents, hmax]
  refine ⟨fun hnil => hne (List.append_eq_nil_iff.1 hnil).1, fun event hevent => ?_⟩
  rcases List.mem_append.1 hevent with hevent | hevent
  · exact hall event hevent
  · exact hadded event hevent

theorem maxAttempts_failureEvents {service : SchedulerService} {job : ClaimedJob Payload}
    {failure : HandlerError} {clock : ClockReads} {events : List Event}
    (h : Drafted (service.failureEvents job failure clock) events) :
    ∀ event ∈ events, event.maxAttempts = job.maxAttempts := by
  obtain ⟨eventId, rest, rfl, hrest⟩ := drafted_failureEvents h
  rw [List.forall_mem_cons]
  refine ⟨rfl, ?_⟩
  rcases hrest with ⟨-, -, requestedId, acknowledgedId, rfl⟩ | ⟨-, -, exhaustedId, rfl⟩ |
    ⟨-, -, rfl⟩
  · simp [ClaimedJob.retryRequestedEvent, ClaimedJob.retryAcknowledgedEvent, ClaimedJob.event]
  · simp [ClaimedJob.exhaustedEvent, ClaimedJob.event]
  · simp

theorem BudgetInv.step {service : SchedulerService} {clock : ClockReads} {op : Operation Payload}
    {v v' : JobView Payload} (hinv : QueueInv v) (h : BudgetInv v)
    (hs : JobStep service clock op v v') : BudgetInv v' := by
  cases hs with
  | idle => exact h
  | @submitted value _ events hrow hevents =>
      obtain ⟨createdId, requestedId, rfl⟩ := drafted_pair hevents
      obtain ⟨-, hnil, -, -⟩ := hinv.absent hrow
      intro row hrow'
      obtain rfl := Option.some_inj.1 hrow'
      simp [JobView.emit, JobView.setRow, hnil, JobSubmission.row, JobSubmission.event]
  | @claimed owner limit locked _ row token eventId hrow hstatus hdue hfresh =>
      refine h.emit hrow rfl rfl rfl ?_
      intro event hevent
      obtain rfl := List.mem_singleton.1 hevent
      rfl
  | @started job _ row eventId hjob hrow hcur =>
      refine h.emit hrow rfl rfl rfl ?_
      intro event hevent
      obtain rfl := List.mem_singleton.1 hevent
      exact ((hinv.present row hrow).claims job hjob).maxAttempts
  | @heartbeat job _ row hjob hrow hcur =>
      exact h.emit hrow rfl rfl (List.append_nil _).symm (by simp)
  | @succeeded job summary _ row eventId hjob hrow hcur =>
      refine h.emit hrow rfl rfl rfl ?_
      intro event hevent
      obtain rfl := List.mem_singleton.1 hevent
      exact ((hinv.present row hrow).claims job hjob).maxAttempts
  | @failed job failure _ row events hjob hrow hcur hchecks hevents =>
      refine h.emit hrow rfl rfl rfl ?_
      intro event hevent
      exact (maxAttempts_failureEvents hevents event hevent).trans
        ((hinv.present row hrow).claims job hjob).maxAttempts
  | @recovered limit locked _ row hrow hstatus hexpired =>
      exact h.emit hrow rfl rfl (List.append_nil _).symm (by simp)

theorem BudgetInv.of_reachable [DecidableEq Payload] {service : SchedulerService}
    {w : World Payload} (h : (schedulerMachine service).Reachable w) (jobId : String) :
    BudgetInv (w.view jobId) := by
  induction h with
  | start =>
      intro row hrow
      cases hrow
  | step hs _ hn ih => exact ih.step (QueueInv.of_reachable hs jobId) (view_step hn jobId)

/-! ### The budget of the projection -/

/-- An event is merged, unless it repeats an outcome. -/
theorem maxAttempts_reduceEvent (current : Option JobVisibility) (event : Event) :
    (reduceEvent current event).job.maxAttempts =
      if isSemanticDuplicate (currentOrBlank current event) event = true then
        (currentOrBlank current event).maxAttempts
      else max (currentOrBlank current event).maxAttempts event.maxAttempts := by
  have hheader := congrArg JobHeader.maxAttempts (handler_header event.eventType
    (mergeCommon (currentOrBlank current event) event) event)
  obtain ⟨version, decisions, hjob⟩ := exists_reduceEvent_eq current event
  rw [hjob]
  simp only [projectedBy]
  split
  · rfl
  · exact hheader

/-- **The budget a projection shows** is the largest of its events and of the default. -/
theorem maxAttempts_reduceAll {events : List Event} {n : ℕ} (hne : events ≠ [])
    (h : ∀ event ∈ events, event.maxAttempts = n) :
    ∃ job, reduceAll none events = some job ∧ job.maxAttempts = max 3 n := by
  -- once the first event is merged, the others change nothing
  have hrest : ∀ (events : List Event) (job : JobVisibility), job.maxAttempts = max 3 n →
      (∀ event ∈ events, event.maxAttempts = n) →
      ∃ after, reduceAll (some job) events = some after ∧ after.maxAttempts = max 3 n := by
    intro events
    induction events with
    | nil => exact fun job hjob _ => ⟨job, rfl, hjob⟩
    | cons event events ih =>
        intro job hjob hall
        rw [List.forall_mem_cons] at hall
        refine ih _ ?_ hall.2
        have hcurrent : currentOrBlank (some job) event = job := rfl
        rw [maxAttempts_reduceEvent, hcurrent, hjob, hall.1]
        split
        · rfl
        · omega
  cases events with
  | nil => exact absurd rfl hne
  | cons event events =>
      rw [List.forall_mem_cons] at h
      refine hrest events _ ?_ h.2
      rw [maxAttempts_reduceEvent, h.1]
      rfl

/-! ### The attempts that are spent -/

/-- The number of attempts of a job that have an outcome. -/
def Db.decidedAttempts (db : Db Payload) (jobId : String) : ℕ :=
  db.attempts.rows.countP fun row => row.jobId = jobId && row.outcome.isSome

/-- The numbers of the attempts of a job that have an outcome. -/
def Db.decidedNumbers (db : Db Payload) (jobId : String) : List ℕ :=
  (db.attempts.rows.filter fun row => row.jobId = jobId && row.outcome.isSome).map
    AttemptRow.attemptNumber

theorem Db.length_decidedNumbers (db : Db Payload) (jobId : String) :
    (db.decidedNumbers jobId).length = db.decidedAttempts jobId := by
  rw [decidedNumbers, List.length_map, decidedAttempts, List.countP_eq_length_filter]

theorem Db.nodup_decidedNumbers (db : Db Payload) (jobId : String) :
    (db.decidedNumbers jobId).Nodup := by
  refine List.Nodup.map_on ?_ (db.attempts.nodup.of_map.filter _)
  intro a ha b hb hnumber
  simp only [List.mem_filter, Bool.and_eq_true, decide_eq_true_eq] at ha hb
  exact Table.eq_of_key_eq ha.1 hb.1 (Prod.ext (ha.2.1.trans hb.2.1.symm) hnumber)

theorem Db.mem_decidedNumbers {db : Db Payload} {jobId : String} {n : ℕ} :
    n ∈ db.decidedNumbers jobId ↔
      ((db.attempts.find? (jobId, n)).bind AttemptRow.outcome).isSome := by
  simp only [decidedNumbers, List.mem_map, List.mem_filter, Bool.and_eq_true, decide_eq_true_eq,
    Option.isSome_iff_exists, Option.bind_eq_some_iff, Table.find?_eq_some_iff]
  constructor
  · rintro ⟨row, ⟨hmem, rfl, outcome, houtcome⟩, rfl⟩
    exact ⟨outcome, row, ⟨hmem, rfl⟩, houtcome⟩
  · rintro ⟨outcome, row, ⟨hmem, hkey⟩, houtcome⟩
    obtain ⟨hjob, hnumber⟩ := Prod.mk.inj hkey
    exact ⟨row, ⟨hmem, hjob, outcome, houtcome⟩, hnumber⟩

/-- The numbers of the attempts a projection counts. -/
def JobVisibility.completedNumbers (job : JobVisibility) : List ℕ :=
  (job.attempts.entries.filter fun entry => entry.2.status.outcome.isSome).map Prod.fst

theorem JobVisibility.length_completedNumbers (job : JobVisibility) :
    job.completedNumbers.length = job.completedAttempts := by
  have houtcome : ∀ attempt : Attempt, (attempt.status = .succeeded || attempt.status = .failed) =
      attempt.status.outcome.isSome := by
    intro attempt
    cases attempt.status <;> rfl
  simp only [completedNumbers, completedAttempts, Dict.values, List.length_map, houtcome,
    List.countP_eq_length_filter, List.filter_map]
  rfl

theorem JobVisibility.nodup_completedNumbers (job : JobVisibility) :
    job.completedNumbers.Nodup :=
  job.attempts.nodup.sublist (List.filter_sublist.map Prod.fst)

theorem JobVisibility.mem_completedNumbers {job : JobVisibility} {n : ℕ} :
    n ∈ job.completedNumbers ↔
      ((job.attempts.get? n).bind fun attempt => attempt.status.outcome).isSome := by
  simp only [completedNumbers, List.mem_map, List.mem_filter, Option.isSome_iff_exists,
    Option.bind_eq_some_iff]
  constructor
  · rintro ⟨⟨m, attempt⟩, ⟨hmem, outcome, houtcome⟩, rfl⟩
    exact ⟨outcome, attempt, Dict.mem_entries_iff.1 hmem, houtcome⟩
  · rintro ⟨outcome, attempt, hget, houtcome⟩
    exact ⟨(n, attempt), ⟨Dict.mem_entries_iff.2 hget, outcome, houtcome⟩, rfl⟩

/-- **The projection counts the attempts that have an outcome in the queue.** -/
theorem Simulates.completedAttempts {db : Db Payload} {row : JobRow Payload} {job : JobVisibility}
    (h : Simulates db row job) : job.completedAttempts = db.decidedAttempts row.jobId := by
  rw [← JobVisibility.length_completedNumbers, ← Db.length_decidedNumbers]
  refine List.Perm.length_eq ((List.perm_ext_iff_of_nodup job.nodup_completedNumbers
    (db.nodup_decidedNumbers row.jobId)).2 fun n => ?_)
  rw [JobVisibility.mem_completedNumbers, Db.mem_decidedNumbers]
  have hbind : ((job.attempts.get? n).bind fun attempt => attempt.status.outcome) =
      (db.attempts.find? (row.jobId, n)).bind AttemptRow.outcome := by
    have hmap := congrArg (fun outcome => outcome.bind id) (h.outcomes n)
    simp only [Option.bind_map] at hmap
    exact hmap
  rw [hbind]

/-- A projection counts no attempt beyond the one the row is at. -/
theorem Simulates.completedAttempts_le {db : Db Payload} {row : JobRow Payload}
    {job : JobVisibility} (h : Simulates db row job) :
    job.completedAttempts ≤ row.attemptNumber := by
  rw [← JobVisibility.length_completedNumbers]
  have hsub : job.completedNumbers ⊆ List.range' 1 row.attemptNumber := by
    intro n hn
    have hsome := JobVisibility.mem_completedNumbers.1 hn
    have hattempt : (job.attempts.get? n).isSome := Option.isSome_of_isSome_bind hsome
    have := (h.attempts n).1 hattempt
    rw [List.mem_range'_1]
    omega
  have hlength := (job.nodup_completedNumbers.subperm hsub).length_le
  rwa [List.length_range'] at hlength

/-- When every attempt has an outcome, they are all counted. -/
theorem le_completedAttempts {db : Db Payload} {row : JobRow Payload} {job : JobVisibility}
    (h : Simulates db row job)
    (hall : ∀ n, 1 ≤ n → n ≤ row.attemptNumber →
      ((db.attempts.find? (row.jobId, n)).bind AttemptRow.outcome).isSome) :
    row.attemptNumber ≤ job.completedAttempts := by
  rw [h.completedAttempts, ← Db.length_decidedNumbers]
  have hsub : List.range' 1 row.attemptNumber ⊆ db.decidedNumbers row.jobId := by
    intro n hn
    rw [List.mem_range'_1] at hn
    exact Db.mem_decidedNumbers.2 (hall n hn.1 (by omega))
  have hlength := ((List.nodup_range' 1).subperm hsub).length_le
  rwa [List.length_range'] at hlength

/-! ### The agreement -/

/-- **The projection agrees with the queue on the retry budget.** -/
structure BudgetAgrees (db : Db Payload) (row : JobRow Payload) (job : JobVisibility) : Prop where
  maxAttempts : job.maxAttempts = row.maxAttempts
  completed : job.completedAttempts = db.decidedAttempts row.jobId
  bounded : job.completedAttempts ≤ job.maxAttempts
  exhausted : row.status = .retriesExhausted → job.completedAttempts = job.maxAttempts

/-- **The retry budget of a job agrees exactly when it is not below the default of three**, after
every step of every run in which the claims of the job are started before they are decided and no
lease on it expires. -/
theorem budgetAgrees_iff [DecidableEq Payload] (service : SchedulerService) (jobId : String)
    (w : World Payload) (hw : (schedulerMachine service).Reach (Diligent jobId) w)
    (row : JobRow Payload) (hrow : w.db.jobs.find? jobId = some row) :
    (∃ job, foldPayloads (w.db.payloads jobId) = some (some job) ∧ BudgetAgrees w.db row job) ↔
      3 ≤ row.maxAttempts := by
  obtain rfl : row.jobId = jobId := Table.key_of_find? hrow
  have hreachable := hw.reachable
  obtain ⟨hne, hbudget⟩ := BudgetInv.of_reachable hreachable row.jobId row hrow
  obtain ⟨job, hjob, hmax⟩ := maxAttempts_reduceAll hne hbudget
  have hfold : foldPayloads (w.db.payloads row.jobId) = some (some job) :=
    (foldPayloads_payloads hreachable row.jobId).trans (congrArg some hjob)
  constructor
  · rintro ⟨job', hfold', hagrees⟩
    obtain rfl : job = job' := Option.some_inj.1 (Option.some_inj.1 (hfold.symm.trans hfold'))
    have := hagrees.maxAttempts
    omega
  · intro hdefault
    obtain ⟨current, hcurrent, -, hpresent⟩ := visibility_simulates service row.jobId w hw
    obtain ⟨job', rfl, hsimulates⟩ := hpresent row hrow
    obtain rfl : job = job' := Option.some_inj.1 (Option.some_inj.1 (hfold.symm.trans hcurrent))
    have hinv := (QueueInv.of_reachable hreachable row.jobId).present row hrow
    have hle := hsimulates.completedAttempts_le
    have hmaxAttempts : job.maxAttempts = row.maxAttempts := by omega
    refine ⟨job, hfold, hmaxAttempts, hsimulates.completedAttempts, ?_, fun hexhausted => ?_⟩
    · have := hinv.attempt_le
      omega
    · obtain ⟨hrecovered, -⟩ := Follows.of_diligent hw
      have hhistory := HistoryInv.of_reachable hreachable row.jobId hrecovered row hrow
      have hnumber := hinv.exhausted hexhausted
      have hall : ∀ n, 1 ≤ n → n ≤ row.attemptNumber →
          ((w.db.attempts.find? (row.jobId, n)).bind AttemptRow.outcome).isSome := by
        intro n hlow hhigh
        have houtcome : (w.view row.jobId).outcome? n = some .failed := by
          rcases Nat.lt_or_eq_of_le hhigh with hlt | rfl
          · exact hhistory.failedBefore n hlow hlt
          · exact hhistory.failedNow (Or.inr (Or.inr hexhausted))
        exact Option.isSome_iff_exists.2 ⟨_, houtcome⟩
      have := le_completedAttempts hsimulates hall
      omega

/-- A submission with a budget of three attempts. -/
def threeAttempts : JobSubmission String :=
  { twoAttempts with
    maxAttempts := 3
    maxAttempts_pos := defaultMaxAttempts_pos }

/-- The claim of an attempt of it. -/
def threeAttemptsClaim (n draw : ℕ) (t : Datetime) : ClaimedJob String :=
  { twoAttemptsClaim n draw t with
    maxAttempts := 3
    maxAttempts_pos := defaultMaxAttempts_pos }

/-- Its first attempt fails. -/
def failedOnceRun : List (Label String) :=
  [⟨.submitChecked threeAttempts, .instant (seconds 1), true⟩,
    ⟨.claimDue "worker-1" 10 [], .instant (seconds 10), true⟩,
    ⟨.start (threeAttemptsClaim 1 2 (seconds 10)), .instant (seconds 11), true⟩,
    ⟨.fail (threeAttemptsClaim 1 2 (seconds 10)) ⟨"TIMEOUT", true⟩, .instant (seconds 12), true⟩]

/-- One attempt of three is spent, in the queue and in the projection. -/
theorem budgetAgrees_failedOnceRun :
    ∃ w row job, (schedulerMachine defaultService).runWhile (Diligent "job-1")
        (schedulerMachine defaultService).start failedOnceRun = some w ∧
      w.db.jobs.find? "job-1" = some row ∧ row.status = .retryWait ∧ row.maxAttempts = 3 ∧
      foldPayloads (w.db.payloads "job-1") = some (some job) ∧ BudgetAgrees w.db row job := by
  obtain ⟨w, row, hrun, hrow, hstatus, hmax⟩ : ∃ w row,
      (schedulerMachine defaultService).runWhile (Diligent "job-1")
        (schedulerMachine defaultService).start failedOnceRun = some w ∧
      w.db.jobs.find? "job-1" = some row ∧ row.status = .retryWait ∧ row.maxAttempts = 3 :=
    ⟨_, _, rfl, rfl, rfl, rfl⟩
  obtain ⟨job, hfold, hagrees⟩ := (budgetAgrees_iff defaultService "job-1" w
    (Machine.Reach.of_runWhile Machine.Reach.start failedOnceRun hrun) row hrow).2 hmax.ge
  exact ⟨w, row, job, hrun, hrow, hstatus, hmax, hfold, hagrees⟩

/-- **The projection of a job with a budget of two shows a budget of three.** -/
theorem not_budgetAgrees_retriedRun :
    ∃ w row, (schedulerMachine defaultService).runWhile (Diligent "job-1")
        (schedulerMachine defaultService).start retriedRun = some w ∧
      w.db.jobs.find? "job-1" = some row ∧ row.maxAttempts = 2 ∧
      ∀ job, foldPayloads (w.db.payloads "job-1") = some (some job) → job.maxAttempts = 3 ∧
        ¬ BudgetAgrees w.db row job := by
  obtain ⟨w, row, hrun, hrow, hmax⟩ : ∃ w row,
      (schedulerMachine defaultService).runWhile (Diligent "job-1")
        (schedulerMachine defaultService).start retriedRun = some w ∧
      w.db.jobs.find? "job-1" = some row ∧ row.maxAttempts = 2 := ⟨_, _, rfl, rfl, rfl⟩
  refine ⟨w, row, hrun, hrow, hmax, fun job hfold => ?_⟩
  have hreachable := (Machine.Reach.of_runWhile Machine.Reach.start retriedRun hrun).reachable
  obtain ⟨hne, hbudget⟩ := BudgetInv.of_reachable hreachable "job-1" row hrow
  obtain ⟨shown, hshown, hdefault⟩ := maxAttempts_reduceAll hne hbudget
  rw [foldPayloads_payloads hreachable "job-1", hshown, Option.some_inj, Option.some_inj] at hfold
  subst hfold
  have hthree : shown.maxAttempts = 3 := by
    rw [hdefault, hmax]
    rfl
  refine ⟨hthree, fun hagrees => ?_⟩
  have := hagrees.maxAttempts
  omega

end ScheduledJobs
