/-
**No operation violates a constraint.**

The queue invariant makes the statements of every operation succeed: the rows they write meet the
`CHECK` constraints, the attempts a batch opens are new, and the ids of events are drawn from a
supply that never repeats one.  What is left are the two exceptions an operation raises itself.

Main definitions:

* `SchedulerError.IsViolation` — a primary key is taken, or a `CHECK` fails;
* `FreshIds` — the ids in the outbox were drawn from the supply;
* `QueueInvariant` — **what holds of the row of every job**.

Main results:

* `perform_meets` — no operation violates a constraint, and ids stay fresh;
* `queueInvariant` — **the queue invariant of every reachable state**.
-/

import ScheduledJobs.QueueInvariant

set_option relaxedAutoImplicit false
set_option autoImplicit false

namespace ScheduledJobs

variable {Payload : Type}

/-- A primary key is taken, or a `CHECK` fails. -/
def SchedulerError.IsViolation (e : SchedulerError) : Prop :=
  e = .uniqueViolation ∨ e = .checkViolation

theorem not_isViolation_staleClaim (jobId : String) :
    ¬ (SchedulerError.staleClaim jobId).IsViolation := by
  rintro (h | h) <;> cases h

/-! ### The supply of ids -/

/-- The ids in the outbox were drawn from the supply. -/
def FreshIds (service : SchedulerService) (db : Db Payload) : Prop :=
  ∀ row ∈ db.outbox.rows, ∃ n < db.draws, row.eventId = service.uuid n

/-- The drafts use the ids that are drawn for them. -/
def UsesId (draft : String → Event) : Prop := ∀ eventId, (draft eventId).eventId = eventId

/-- A fresh event enters the outbox, unless a time of it has no text. -/
theorem addEvent_overflows {service : SchedulerService} {db : Db Payload} {draft : String → Event}
    (hfresh : FreshIds service db) (hdraft : UsesId draft) :
    (service.addEvent db draft).Meets (fun db' => FreshIds service db')
      fun e => e = .overflow ∧ ¬ (draft (service.uuid db.draws)).Encodable := by
  unfold SchedulerService.addEvent
  split
  swap
  · next hnot => exact ⟨rfl, hnot⟩
  next encodable =>
  cases hins : db.outbox.insert? ⟨service.topic, draft (service.uuid db.draws), encodable⟩ with
  | none =>
      -- the id would have been drawn before
      exfalso
      obtain ⟨row, hrow⟩ := Option.ne_none_iff_exists'.1 (Table.insert?_eq_none_iff.1 hins)
      obtain ⟨n, hn, hid⟩ := hfresh row (Table.mem_of_find? hrow)
      have hkey : row.eventId = service.uuid db.draws :=
        (Table.key_of_find? hrow).trans (hdraft _)
      have heq := service.uuid_injective (hid.symm.trans hkey)
      omega
  | some outbox =>
      obtain ⟨-, hrows⟩ := Table.insert?_eq_some_iff.1 hins
      intro row hrow
      simp only [hrows, List.mem_append, List.mem_singleton] at hrow
      rcases hrow with hrow | rfl
      · obtain ⟨n, hn, hid⟩ := hfresh row hrow
        exact ⟨n, Nat.lt_succ_of_lt hn, hid⟩
      · exact ⟨db.draws, Nat.lt_succ_self _, hdraft _⟩

/-- An event that is added violates no constraint. -/
theorem addEvent_meets {service : SchedulerService} {db : Db Payload} {draft : String → Event}
    (hfresh : FreshIds service db) (hdraft : UsesId draft) :
    (service.addEvent db draft).Meets (fun db' => FreshIds service db')
      (fun e => ¬ e.IsViolation) := by
  refine (addEvent_overflows hfresh hdraft).imp_error ?_
  rintro _ ⟨rfl, -⟩ (h | h) <;> cases h

theorem addEvents_meets {service : SchedulerService} {db : Db Payload}
    {drafts : List (String → Event)} (hfresh : FreshIds service db)
    (hdrafts : ∀ draft ∈ drafts, UsesId draft) :
    (service.addEvents db drafts).Meets (fun db' => FreshIds service db')
      (fun e => ¬ e.IsViolation) := by
  refine (Except.Meets.foldlM (I := fun rest db => FreshIds service db ∧
    ∀ draft ∈ rest, UsesId draft) ?_ drafts ⟨hfresh, hdrafts⟩).imp fun _ _ h => h.1
  rintro draft drafts db ⟨hfresh, hdrafts⟩
  refine (addEvent_meets hfresh (hdrafts draft (List.mem_cons_self ..))).imp ?_
  intro db' _ hfresh'
  exact ⟨hfresh', fun d hd => hdrafts d (List.mem_cons_of_mem _ hd)⟩

/-! ### Operations on a claim -/

/-- The default delays are not negative. -/
theorem defaultRetryDelay_nonneg (attempt : ℕ) : 0 ≤ defaultRetryDelay attempt := by
  have hpow : (0 : ℤ) ≤ 2 ^ attempt := Int.pow_nonneg (by decide)
  have hmin : (0 : ℤ) ≤ min 300 (2 ^ attempt) := le_min (by decide) hpow
  exact Int.mul_nonneg hmin (by decide)

/-- With delays that are not negative, a failed job is available again at the time of the failure
at the earliest. -/
theorem now_le_availableAfter {service : SchedulerService}
    (hdelay : ∀ n, 0 ≤ service.retryDelay n) (job : ClaimedJob Payload) (failure : HandlerError)
    (clock : ClockReads) : clock.now ≤ service.availableAfter job failure clock := by
  unfold SchedulerService.availableAfter
  split
  · exact Int.le_add_of_nonneg_right (hdelay job.attemptNumber)
  · exact le_refl _

/-- The fence lets through a row that meets the constraints. -/
theorem fencedUpdate_meets {service : SchedulerService} {db : Db Payload}
    {job : ClaimedJob Payload} {now : Datetime} {assign : JobRow Payload → JobRow Payload}
    (hfresh : FreshIds service db)
    (hchecks : ∀ row, db.jobs.find? job.jobId = some row → job.IsCurrent row now →
      (assign row).checks = true) :
    (db.fencedUpdate job now assign).Meets (fun db' => FreshIds service db')
      (fun e => ¬ e.IsViolation) := by
  unfold Db.fencedUpdate
  cases hrow : db.jobs.find? job.jobId with
  | none => exact not_isViolation_staleClaim _
  | some row =>
      by_cases hcur : job.IsCurrent row now
      · simp only [if_pos hcur]
        rw [Db.updateJobs_eq_ok_iff.2 ⟨by simpa using hchecks row hrow hcur, rfl⟩]
        exact hfresh
      · simp only [if_neg hcur]
        exact not_isViolation_staleClaim _

/-- The fence draws no ids. -/
theorem fencedUpdate_fresh {service : SchedulerService} {db : Db Payload}
    (hfresh : FreshIds service db) (job : ClaimedJob Payload) (now : Datetime)
    (assign : JobRow Payload → JobRow Payload) :
    (db.fencedUpdate job now assign).Meets (fun db' => FreshIds service db') fun _ => True := by
  unfold Db.fencedUpdate
  split
  · split
    · unfold Db.updateJobs
      split
      · exact hfresh
      · trivial
    · trivial
  · trivial

theorem FreshIds.modifyAttempt {service : SchedulerService} {db : Db Payload}
    (h : FreshIds service db) (key : String × ℕ)
    (assign : AttemptRow Payload → AttemptRow Payload) :
    FreshIds service (db.modifyAttempt key assign) := by
  intro row hrow
  rw [Db.outbox_modifyAttempt] at hrow
  rw [Db.draws_modifyAttempt]
  exact h row hrow

/-- A released row meets the constraints once it is available late enough. -/
theorem RowInv.checks_release {v : JobView Payload} {row : JobRow Payload} (h : RowInv v row)
    (status : JobStatus) {availableAt : Datetime} (written : Datetime)
    (havailable : row.scheduledAt ≤ availableAt) :
    (row.release status availableAt written).checks = true :=
  (JobRow.checks_iff _).2 ⟨h.payload, rfl, havailable, rfl⟩

/-! ### Batches -/

/-- The attempts a batch of claims opens are new and have distinct jobs. -/
def OpensNew (db : Db Payload) (claimed : List (ClaimedJob Payload)) : Prop :=
  (claimed.map ClaimedJob.jobId).Nodup ∧ ∀ job ∈ claimed, 0 < job.attemptNumber ∧
    db.attempts.find? (job.jobId, job.attemptNumber) = none

theorem recordClaims_meets {service : SchedulerService} {owner : String} {written : Datetime}
    {claimed : List (ClaimedJob Payload)} {db : Db Payload} (hfresh : FreshIds service db)
    (hnew : OpensNew db claimed) :
    (claimed.foldlM (service.recordClaim owner written) db).Meets
      (fun db' => FreshIds service db') (fun e => ¬ e.IsViolation) := by
  refine (Except.Meets.foldlM (I := fun rest db => FreshIds service db ∧ OpensNew db rest) ?_
    claimed ⟨hfresh, hnew⟩).imp fun _ _ h => h.1
  rintro job claimed db ⟨hfresh, hnodup, hnew⟩
  rw [List.map_cons, List.nodup_cons] at hnodup
  obtain ⟨hpos, hnone⟩ := hnew job (List.mem_cons_self ..)
  have hmeets : (service.recordClaim owner written db job).Meets
      (fun db' => FreshIds service db') (fun e => ¬ e.IsViolation) := by
    obtain ⟨attempts, hins⟩ : ∃ attempts,
        db.attempts.insert? (job.attempt owner written) = some attempts := by
      cases hins : db.attempts.insert? (job.attempt owner written) with
      | none => exact absurd hnone (Table.insert?_eq_none_iff.1 hins)
      | some attempts => exact ⟨attempts, rfl⟩
    have hok : db.insertAttempt (job.attempt owner written) =
        .ok { db with attempts := attempts } :=
      Db.insertAttempt_eq_ok_iff.2 ⟨decide_eq_true hpos, attempts, hins, rfl⟩
    change (db.insertAttempt (job.attempt owner written) >>= _).Meets _ _
    rw [hok]
    exact addEvent_meets hfresh fun _ => rfl
  refine hmeets.imp ?_
  intro db' hok hfresh'
  obtain ⟨-, -, hfind, -⟩ := recordClaim_eq_ok hok
  refine ⟨hfresh', hnodup.2, fun later hlater => ?_⟩
  obtain ⟨hpos', hnone'⟩ := hnew later (List.mem_cons_of_mem _ hlater)
  refine ⟨hpos', ?_⟩
  rw [hfind, if_neg]
  · exact hnone'
  · intro heq
    exact hnodup.1 (List.mem_map.2 ⟨later, hlater, (Prod.mk.inj heq).1⟩)

/-! ### Every operation -/

section Operations

variable {service : SchedulerService} {w : World Payload} {clock : ClockReads}

/-- What the operations rely on: the invariants of every job, fresh ids, and a clock that has not
run backwards. -/
structure Ready (service : SchedulerService) (w : World Payload) (clock : ClockReads) : Prop where
  queue : ∀ jobId, QueueInv (w.view jobId)
  available : ∀ jobId, AvailableInv w.clock (w.view jobId)
  fresh : FreshIds service w.db
  now : w.clock ≤ clock.now

/-- The row of a current claim was available before the transaction. -/
theorem Ready.availableAt_le (h : Ready service w clock) {row : JobRow Payload}
    (hrow : w.db.jobs.find? row.jobId = some row)
    (hstatus : row.status = .claimed ∨ row.status = .running) :
    row.scheduledAt ≤ row.availableAt ∧ row.availableAt ≤ clock.now := by
  have hinv := (h.queue row.jobId).present row hrow
  have hav := h.available row.jobId
  exact ⟨hav.scheduled row hrow, (hav.claimed row hrow (hinv.claimed_iff.1 hstatus)).trans h.now⟩

/-- A row found under a job's id is the row of that id. -/
theorem find?_own {db : Db Payload} {jobId : String} {row : JobRow Payload}
    (h : db.jobs.find? jobId = some row) : db.jobs.find? row.jobId = some row := by
  rw [Table.key_of_find? h]
  exact h

theorem start_meets (h : Ready service w clock) (job : ClaimedJob Payload) :
    (service.start w.db job clock).Meets (fun db => FreshIds service db)
      (fun e => ¬ e.IsViolation) := by
  refine (fencedUpdate_meets h.fresh ?_).bind ?_
  · intro row hrow hcur
    have hinv := (h.queue job.jobId).present row hrow
    have hsched := (h.available job.jobId).scheduled row hrow
    exact (JobRow.checks_iff _).2 ⟨hinv.payload, hinv.claimedBy, hsched, hinv.claimExpiresAt⟩
  · intro db _ hfresh
    exact addEvent_meets (hfresh.modifyAttempt _ _) fun _ => rfl

theorem heartbeat_meets (h : Ready service w clock) (job : ClaimedJob Payload) :
    (service.heartbeat w.db job clock).Meets (fun db => FreshIds service db)
      (fun e => ¬ e.IsViolation) := by
  refine fencedUpdate_meets h.fresh ?_
  intro row hrow hcur
  have hinv := (h.queue job.jobId).present row hrow
  have hsched := (h.available job.jobId).scheduled row hrow
  have htoken : row.claimToken.isNone = false := by
    rw [hcur.2.2.1]
    rfl
  exact (JobRow.checks_iff _).2 ⟨hinv.payload, hinv.claimedBy, hsched, htoken⟩

theorem succeed_meets (h : Ready service w clock) (job : ClaimedJob Payload)
    (summary : Payload) :
    (service.succeed w.db job summary clock).Meets (fun db => FreshIds service db)
      (fun e => ¬ e.IsViolation) := by
  refine (fencedUpdate_meets h.fresh ?_).bind ?_
  · intro row hrow _
    exact ((h.queue job.jobId).present row hrow).checks_release _ _
      ((h.available job.jobId).scheduled row hrow)
  · intro db _ hfresh
    exact addEvent_meets (hfresh.modifyAttempt _ _) fun _ => rfl

/-- The events of a failure use the ids that are drawn for them. -/
theorem usesId_failureEvents (service : SchedulerService) (job : ClaimedJob Payload)
    (failure : HandlerError) (clock : ClockReads) :
    ∀ draft ∈ service.failureEvents job failure clock, UsesId draft := by
  intro draft hdraft eventId
  unfold SchedulerService.failureEvents at hdraft
  rcases List.mem_cons.1 hdraft with rfl | hdraft
  · rfl
  split at hdraft
  · simp only [List.mem_cons, List.not_mem_nil, or_false] at hdraft
    rcases hdraft with rfl | rfl <;> rfl
  split at hdraft
  · obtain rfl := List.mem_singleton.1 hdraft
    rfl
  · cases hdraft

theorem fail_meets (hdelay : ∀ n, 0 ≤ service.retryDelay n) (h : Ready service w clock)
    (job : ClaimedJob Payload) (failure : HandlerError) :
    (service.fail w.db job failure clock).Meets (fun db => FreshIds service db)
      (fun e => ¬ e.IsViolation) := by
  refine (fencedUpdate_meets h.fresh ?_).bind ?_
  · intro row hrow hcur
    have hinv := (h.queue job.jobId).present row hrow
    obtain ⟨hsched, havail⟩ := h.availableAt_le (find?_own hrow) (hinv.of_isCurrent hcur).1
    exact hinv.checks_release _ _
      ((hsched.trans havail).trans (now_le_availableAfter hdelay job failure clock))
  · intro db _ hfresh
    exact addEvents_meets (hfresh.modifyAttempt _ _)
      (usesId_failureEvents service job failure clock)

/-- The ids stay fresh whatever the delays are. -/
theorem fail_fresh (h : Ready service w clock) (job : ClaimedJob Payload)
    (failure : HandlerError) :
    (service.fail w.db job failure clock).Meets (fun db => FreshIds service db) fun _ => True := by
  refine (fencedUpdate_fresh h.fresh _ _ _).bind fun db _ hfresh => ?_
  exact (addEvents_meets (hfresh.modifyAttempt _ _)
    (usesId_failureEvents service job failure clock)).imp_error fun _ _ => trivial

theorem submitChecked_meets [DecidableEq Payload] (h : Ready service w clock)
    (value : JobSubmission Payload) :
    (service.submitChecked w.db value clock).Meets (fun result => FreshIds service result.1)
      (fun e => ¬ e.IsViolation) := by
  have hchecks : (value.row clock.written).checks = true :=
    (JobRow.checks_iff _).2 ⟨value.payload_xor, rfl, le_refl _, rfl⟩
  unfold SchedulerService.submitChecked
  rw [if_pos hchecks]
  split
  · exact h.fresh
  · next hnone hins => exact absurd hnone (Table.insert?_eq_none_iff.1 hins)
  · refine (@addEvents_meets _ service _ _ ?_ ?_).bind ?_
    · exact h.fresh
    · intro draft hdraft eventId
      simp only [List.mem_cons, List.not_mem_nil, or_false] at hdraft
      rcases hdraft with rfl | rfl <;> rfl
    · intro db _ hfresh
      exact hfresh

theorem claimDue_meets (h : Ready service w clock) (owner : String) (limit : ℤ)
    (locked : List String) :
    (service.claimDue w.db owner limit locked clock).Meets
      (fun result => FreshIds service result.1) (fun e => ¬ e.IsViolation) := by
  unfold SchedulerService.claimDue
  split
  · exact h.fresh
  generalize hdue : (w.db.due locked clock.checked).take limit.toNat = due
  have hnodup : (due.map JobRow.jobId).Nodup := hdue ▸ w.db.jobs.nodup_selection _ _ _
  have hmem : ∀ row ∈ due, w.db.jobs.find? row.jobId = some row :=
    fun row hrow => Table.find?_of_mem (mem_due (hdue ▸ hrow)).1
  -- the rows the batch writes meet the constraints
  have hchecks : ∀ row ∈ service.claimRows w.db.draws owner clock.written due,
      row.checks = true := by
    intro row hrow
    obtain ⟨old, hold, token, rfl⟩ := exists_of_mem_claimRows hrow
    have hinv := (h.queue old.jobId).present old (hmem old hold)
    have hsched := (h.available old.jobId).scheduled old (hmem old hold)
    exact (JobRow.checks_iff _).2 ⟨hinv.payload, rfl, hsched, rfl⟩
  -- and each attempt has the next number of its job
  have hnew : OpensNew w.db (service.claimedJobs w.db.draws owner clock.written due) := by
    refine ⟨by rw [map_jobId_claimedJobs]; exact hnodup, fun job hjob => ?_⟩
    obtain ⟨row, hrow, token, rfl⟩ := exists_of_mem_claimedJobs hjob
    refine ⟨Nat.succ_pos _, ?_⟩
    have hinv := (h.queue row.jobId).present row (hmem row hrow)
    have hnone := hinv.attempts (row.attemptNumber + 1)
    cases hfind : (w.view row.jobId).attempts (row.attemptNumber + 1) with
    | none => exact hfind
    | some attempt =>
        rw [hfind] at hnone
        have hle := (hnone.1 rfl).2
        omega
  have hupdate : ({ w.db with draws := w.db.draws + due.length }.updateJobs
      (service.claimRows w.db.draws owner clock.written due)).Meets
        (fun db => db = { w.db with
          draws := w.db.draws + due.length
          jobs := w.db.jobs.replaceAll (service.claimRows w.db.draws owner clock.written due) })
        (fun e => ¬ e.IsViolation) := by
    rw [Db.updateJobs_eq_ok_iff.2 ⟨hchecks, rfl⟩]
    rfl
  refine hupdate.bind ?_
  rintro _ - rfl
  rw [filterMap_claimRows]
  refine Except.Meets.bind (P := fun db => FreshIds service db) ?_ ?_
  · refine recordClaims_meets ?_ hnew
    intro row hrow
    obtain ⟨n, hn, hid⟩ := h.fresh row hrow
    exact ⟨n, Nat.lt_add_right _ hn, hid⟩
  · intro db _ hfresh
    exact hfresh

theorem recoverExpiredClaims_meets (h : Ready service w clock) (limit : ℤ)
    (locked : List String) :
    (w.db.recoverExpiredClaims limit locked clock).Meets
      (fun result => FreshIds service result.1) (fun e => ¬ e.IsViolation) := by
  unfold Db.recoverExpiredClaims
  split
  · rintro (he | he) <;> cases he
  have hchecks : ∀ row ∈ ((w.db.expired locked clock.checked).take limit.toNat).map
      (fun row => row.recover clock.written), row.checks = true := by
    intro row hrow
    obtain ⟨old, hold, rfl⟩ := List.mem_map.1 hrow
    obtain ⟨hrows, hstatus, -⟩ := mem_expired hold
    have hfind : w.db.jobs.find? old.jobId = some old := Table.find?_of_mem hrows
    obtain ⟨hsched, havail⟩ := h.availableAt_le hfind hstatus
    exact ((h.queue old.jobId).present old hfind).checks_release _ _
      ((hsched.trans havail).trans clock.now_le_written)
  simp only [Db.updateJobs_eq_ok_iff.2 ⟨hchecks, rfl⟩]
  exact h.fresh

/-- The ids stay fresh in every operation, and what it raises is as for a failure or no violation of
a constraint. -/
theorem perform_meets_of [DecidableEq Payload] {E : SchedulerError → Prop}
    (h : Ready service w clock) (hviolation : ∀ e : SchedulerError, ¬ e.IsViolation → E e)
    (hfail : ∀ job failure, (service.fail w.db job failure clock).Meets
      (fun db => FreshIds service db) E) (op : Operation Payload) :
    (service.perform w.db clock op).Meets (fun effect => FreshIds service effect.db) E := by
  cases op with
  | submitChecked value =>
      exact ((submitChecked_meets h value).imp_error hviolation).bind fun _ _ hfresh => hfresh
  | claimDue owner limit locked =>
      exact ((claimDue_meets h owner limit locked).imp_error hviolation).bind
        fun _ _ hfresh => hfresh
  | start job => exact ((start_meets h job).imp_error hviolation).bind fun _ _ hfresh => hfresh
  | heartbeat job =>
      exact ((heartbeat_meets h job).imp_error hviolation).bind fun _ _ hfresh => hfresh
  | succeed job summary =>
      exact ((succeed_meets h job summary).imp_error hviolation).bind fun _ _ hfresh => hfresh
  | fail job failure => exact (hfail job failure).bind fun _ _ hfresh => hfresh
  | recoverExpiredClaims limit locked =>
      exact ((recoverExpiredClaims_meets h limit locked).imp_error hviolation).bind
        fun _ _ hfresh => hfresh

/-- **No operation violates a constraint**, and the ids stay fresh. -/
theorem perform_meets [DecidableEq Payload] (hdelay : ∀ n, 0 ≤ service.retryDelay n)
    (h : Ready service w clock) (op : Operation Payload) :
    (service.perform w.db clock op).Meets (fun effect => FreshIds service effect.db)
      (fun e => ¬ e.IsViolation) :=
  perform_meets_of h (fun _ => id) (fail_meets hdelay h) op

/-- **The ids stay fresh**, also where a delay violates a constraint. -/
theorem perform_fresh [DecidableEq Payload] (h : Ready service w clock) (op : Operation Payload) :
    (service.perform w.db clock op).Meets (fun effect => FreshIds service effect.db)
      fun _ => True :=
  perform_meets_of h (fun _ _ => trivial) (fail_fresh h) op

end Operations

/-! ### Every reachable state -/

section Reachable

variable [DecidableEq Payload] {service : SchedulerService} {w : World Payload}

/-- The ids in the outbox are fresh in every reachable state. -/
theorem FreshIds.of_reachable (h : (schedulerMachine service).Reachable w) :
    FreshIds service w.db := by
  induction h with
  | start =>
      intro row hrow
      cases hrow
  | @step w w' l hs _ hn ih =>
      have hready : Ready service w l.clock := ⟨QueueInv.of_reachable hs,
        AvailableInv.of_reachable hs, ih, (World.next_cases hn).1⟩
      obtain ⟨-, -, ⟨effect, -, hperform, rfl⟩ | ⟨-, rfl⟩⟩ := World.next_cases hn
      · exact (perform_fresh hready l.operation).of_ok hperform
      · exact ih

/-- The operations find what they rely on in every reachable state. -/
theorem Ready.of_reachable (h : (schedulerMachine service).Reachable w) {clock : ClockReads}
    (hnow : w.clock ≤ clock.now) : Ready service w clock :=
  ⟨QueueInv.of_reachable h, AvailableInv.of_reachable h, FreshIds.of_reachable h, hnow⟩

end Reachable

/-! ### The queue invariant -/

/-- **What holds of the row of every job.** -/
structure QueueInvariant (db : Db Payload) (row : JobRow Payload) : Prop where
  attempt_bounds : 0 ≤ row.attemptNumber ∧ row.attemptNumber ≤ row.maxAttempts
  claimed_iff : (row.status = .claimed ∨ row.status = .running) ↔ row.claimToken ≠ none
  pending : row.status = .pending → row.attemptNumber = 0
  retryWait : row.status = .retryWait →
    1 ≤ row.attemptNumber ∧ row.attemptNumber < row.maxAttempts
  retriesExhausted : row.status = .retriesExhausted → row.attemptNumber = row.maxAttempts
  available : row.scheduledAt ≤ row.availableAt
  attempts : ∀ n, (∃ attempt ∈ db.attempts.rows, attempt.key = (row.jobId, n)) ↔
    1 ≤ n ∧ n ≤ row.attemptNumber

/-- The state of the queue is sound: every row meets the invariant, whatever is called next
violates no constraint, and no call writes the row of a finished job. -/
structure QueueSafe [DecidableEq Payload] (service : SchedulerService) (w : World Payload) :
    Prop where
  rows : ∀ row ∈ w.db.jobs.rows, QueueInvariant w.db row
  noViolation : ∀ (l : Label Payload) (w' : World Payload) (e : SchedulerError),
    w.next service l = some w' → service.perform w.db l.clock l.operation = .error e →
      ¬ e.IsViolation
  final : ∀ (l : Label Payload) (w' : World Payload), w.next service l = some w' →
    ∀ row ∈ w.db.jobs.rows, row.status.isFinal → row ∈ w'.db.jobs.rows

/-- The invariants of one job, read off the tables. -/
theorem QueueInvariant.of_inv {w : World Payload} {row : JobRow Payload}
    (hrow : row ∈ w.db.jobs.rows) (hinv : RowInv (w.view row.jobId) row)
    (hav : AvailableInv w.clock (w.view row.jobId)) : QueueInvariant w.db row where
  attempt_bounds := ⟨Nat.zero_le _, hinv.attempt_le⟩
  claimed_iff := hinv.claimed_iff.trans Option.isSome_iff_ne_none
  pending := hinv.pending_iff.1
  retryWait := fun hstatus => by
    refine ⟨Nat.one_le_iff_ne_zero.2 fun hzero => ?_, hinv.retryWait hstatus⟩
    rw [hinv.pending_iff.2 hzero] at hstatus
    cases hstatus
  retriesExhausted := hinv.exhausted
  available := hav.scheduled row (Table.find?_of_mem hrow)
  attempts := fun n => by
    rw [← hinv.attempts n]
    constructor
    · rintro ⟨attempt, hattempt, hkey⟩
      have hfind : w.db.attempts.find? (row.jobId, n) = some attempt := by
        rw [← hkey]
        exact Table.find?_of_mem hattempt
      exact Option.isSome_iff_exists.2 ⟨attempt, hfind⟩
    · intro hsome
      obtain ⟨attempt, hfind⟩ := Option.isSome_iff_exists.1 hsome
      exact ⟨attempt, Table.mem_of_find? hfind, Table.key_of_find? hfind⟩

/-- **The queue invariant of every reachable state**: any interleaving of the operations, any
number of workers, claims that expire at any moment, and the default delays between retries. -/
theorem queueInvariant [DecidableEq Payload] (service : SchedulerService)
    (hdefault : service.retryDelay = defaultRetryDelay) (w : World Payload)
    (hw : (schedulerMachine service).Reachable w) : QueueSafe service w := by
  have hdelay : ∀ n, 0 ≤ service.retryDelay n := by
    intro n
    rw [hdefault]
    exact defaultRetryDelay_nonneg n
  refine ⟨?_, ?_, ?_⟩
  · intro row hrow
    have hfind : (w.view row.jobId).row = some row := Table.find?_of_mem hrow
    exact .of_inv hrow ((QueueInv.of_reachable hw row.jobId).present row hfind)
      (AvailableInv.of_reachable hw row.jobId)
  · intro l w' e hn herror
    have hready := Ready.of_reachable hw (World.next_cases hn).1
    exact (perform_meets hdelay hready l.operation).of_error herror
  · intro l w' hn row hrow hfinal
    have hfind : (w.view row.jobId).row = some row := Table.find?_of_mem hrow
    have hstays := isFinal_stays (QueueInv.of_reachable hw row.jobId) (view_step hn row.jobId) hfind
      hfinal
    exact Table.mem_of_find? hstays

/-! ### A job that runs out of retries -/

/-- A submission with a budget of two attempts. -/
def twoAttempts : JobSubmission String where
  jobId := "job-1"
  correlationId := "correlation-1"
  jobType := "PRINT"
  scheduledAt := seconds 10
  payload := some "hello"
  maxAttempts := 2

/-- The claim of an attempt of it, when it is claimed at `t` and the `draw`-th UUID is drawn. -/
def twoAttemptsClaim (n draw : ℕ) (t : Datetime) : ClaimedJob String where
  jobId := "job-1"
  correlationId := "correlation-1"
  jobType := "PRINT"
  payload := some "hello"
  payloadReference := none
  scheduledAt := seconds 10
  attemptNumber := n
  maxAttempts := 2
  claimedBy := "worker-1"
  claimToken := uuidText draw
  claimExpiresAt := t + seconds 60
  maxAttempts_pos := by decide

/-- The first attempt is claimed, started and fails; the second one is claimed, and its lease
expires. -/
def exhaustedRun : List (Label String) :=
  [⟨.submitChecked twoAttempts, .instant (seconds 1), true⟩,
    ⟨.claimDue "worker-1" 10 [], .instant (seconds 10), true⟩,
    ⟨.start (twoAttemptsClaim 1 2 (seconds 10)), .instant (seconds 11), true⟩,
    ⟨.fail (twoAttemptsClaim 1 2 (seconds 10)) ⟨"TIMEOUT", true⟩, .instant (seconds 12), true⟩,
    ⟨.claimDue "worker-1" 10 [], .instant (seconds 14), true⟩,
    ⟨.recoverExpiredClaims 100 [], .instant (seconds 100), true⟩]

/-- At its end the job is out of retries, and the state is sound. -/
theorem queueSafe_exhaustedRun :
    ∃ w, (schedulerMachine defaultService).run (schedulerMachine defaultService).start
        exhaustedRun = some w ∧
      (w.db.jobs.rows.map fun row => (row.status, row.attemptNumber)) =
        [(.retriesExhausted, 2)] ∧
      QueueSafe defaultService w := by
  refine ⟨_, rfl, by decide, ?_⟩
  exact queueInvariant defaultService rfl _
    (Machine.Reachable.of_run Machine.Reachable.start exhaustedRun rfl)

end ScheduledJobs
