/-
**The queue invariant.**

What holds of the row of every job, of its attempts and of the claims workers hold on it, in every
state that any interleaving of the operations reaches.  The parts depend on each other: the fence
never reads the status, so that a row with a token is claimed or running is what makes an outcome
meet the right rows, and the attempts of a job are numbered up to its attempt number, so a claim
finds the next number free.

Main definitions:

* `RowInv`, `QueueInv` — the invariant of one job, without the clock;
* `AvailableInv` — a job is never available before it was scheduled, nor claimed before it was
  available.

Main results:

* `QueueInv.step`, `AvailableInv.step` — the step lemmas;
* `QueueInv.of_reachable`, `AvailableInv.of_reachable` — the invariants in every reachable state;
* `isFinal_stays` — a finished job's row is not written again.
-/

import ScheduledJobs.SchedulerSteps

set_option relaxedAutoImplicit false
set_option autoImplicit false

namespace ScheduledJobs

variable {Payload : Type}

/-! ### The invariant of one job -/

/-- The claim is one of the row's: it has the row's immutable columns and the number of one of its
attempts. -/
structure ClaimedJob.IsOf (job : ClaimedJob Payload) (row : JobRow Payload) : Prop where
  jobId : job.jobId = row.jobId
  correlationId : job.correlationId = row.correlationId
  jobType : job.jobType = row.jobType
  scheduledAt : job.scheduledAt = row.scheduledAt
  maxAttempts : job.maxAttempts = row.maxAttempts
  attempt_pos : 1 ≤ job.attemptNumber
  attempt_le : job.attemptNumber ≤ row.attemptNumber

/-- What holds of a job's row, its attempts and its claims. -/
structure RowInv (v : JobView Payload) (row : JobRow Payload) : Prop where
  attempt_le : row.attemptNumber ≤ row.maxAttempts
  claimed_iff : (row.status = .claimed ∨ row.status = .running) ↔ row.claimToken.isSome
  pending_iff : row.status = .pending ↔ row.attemptNumber = 0
  retryWait : row.status = .retryWait → row.attemptNumber < row.maxAttempts
  exhausted : row.status = .retriesExhausted → row.attemptNumber = row.maxAttempts
  claimedBy : row.claimToken.isNone = row.claimedBy.isNone
  claimExpiresAt : row.claimToken.isNone = row.claimExpiresAt.isNone
  payload : row.payload.isNone ≠ row.payloadReference.isNone
  attempts : ∀ n, (v.attempts n).isSome ↔ 1 ≤ n ∧ n ≤ row.attemptNumber
  claims : ∀ job ∈ v.claims, job.IsOf row

/-- The invariant of a job: before it is submitted there is nothing of it, and afterwards its row
meets `RowInv`. -/
structure QueueInv (v : JobView Payload) : Prop where
  absent : v.row = none → (∀ n, v.attempts n = none) ∧ v.events = [] ∧ v.claims = [] ∧
    v.recovered = []
  present : ∀ row, v.row = some row → RowInv v row

/-- A view with a row meets the invariant when the row does. -/
theorem QueueInv.of_row {v : JobView Payload} {row : JobRow Payload} (hrow : v.row = some row)
    (h : RowInv v row) : QueueInv v where
  absent := fun hnone => by rw [hrow] at hnone; cases hnone
  present := fun row' hrow' => by
    obtain rfl : row = row' := Option.some_inj.1 (hrow.symm.trans hrow')
    exact h

/-- A row that is due has attempts left: a pending one has made none. -/
theorem RowInv.attempt_lt {v : JobView Payload} {row : JobRow Payload} (h : RowInv v row)
    (hstatus : row.status = .pending ∨ row.status = .retryWait) :
    row.attemptNumber < row.maxAttempts := by
  rcases hstatus with hs | hs
  · have hzero := h.pending_iff.1 hs
    have hpos := row.maxAttempts_pos
    omega
  · exact h.retryWait hs

/-- A row that is claimed or running has opened an attempt. -/
theorem RowInv.attempt_pos {v : JobView Payload} {row : JobRow Payload} (h : RowInv v row)
    (hstatus : row.status = .claimed ∨ row.status = .running) : 1 ≤ row.attemptNumber := by
  refine Nat.one_le_iff_ne_zero.2 fun hzero => ?_
  have hpending := h.pending_iff.2 hzero
  rw [hpending] at hstatus
  rcases hstatus with hs | hs <;> cases hs

/-- The attempt of a current claim has been opened, and its row is claimed or running. -/
theorem RowInv.of_isCurrent {v : JobView Payload} {row : JobRow Payload}
    {job : ClaimedJob Payload} {now : Datetime} (h : RowInv v row) (hcur : job.IsCurrent row now) :
    (row.status = .claimed ∨ row.status = .running) ∧ 1 ≤ row.attemptNumber := by
  have hstatus := h.claimed_iff.2 (by rw [hcur.2.2.1]; rfl)
  exact ⟨hstatus, h.attempt_pos hstatus⟩

theorem JobView.isSome_modifyAttempt (v : JobView Payload) (n k : ℕ)
    (assign : AttemptRow Payload → AttemptRow Payload) :
    ((v.modifyAttempt n assign).attempts k).isSome = (v.attempts k).isSome := by
  simp only [modifyAttempt]
  by_cases hk : k = n
  · subst hk
    rw [Function.update_self, Option.isSome_map]
  · rw [Function.update_of_ne hk]

/-- A row that is released keeps its immutable columns and its attempt number. -/
theorem ClaimedJob.IsOf.release {job : ClaimedJob Payload} {row : JobRow Payload}
    (h : job.IsOf row) (status : JobStatus) (availableAt written : Datetime) :
    job.IsOf (row.release status availableAt written) :=
  ⟨h.jobId, h.correlationId, h.jobType, h.scheduledAt, h.maxAttempts, h.attempt_pos,
    h.attempt_le⟩

/-- Releasing a row whose attempt is open, into a status that fits its attempt number. -/
theorem RowInv.release {v v' : JobView Payload} {row : JobRow Payload} {status : JobStatus}
    (h : RowInv v row) (availableAt written : Datetime) (hpos : 1 ≤ row.attemptNumber)
    (hstatus : status ∈ [JobStatus.retryWait, .succeeded, .failed, .retriesExhausted])
    (hretry : status = .retryWait → row.attemptNumber < row.maxAttempts)
    (hexhausted : status = .retriesExhausted → row.attemptNumber = row.maxAttempts)
    (hattempts : ∀ n, (v'.attempts n).isSome = (v.attempts n).isSome)
    (hclaims : v'.claims = v.claims) : RowInv v' (row.release status availableAt written) where
  attempt_le := h.attempt_le
  claimed_iff := by
    simp only [JobRow.release, Option.isSome_none, Bool.false_eq_true, iff_false]
    rintro (hs | hs)
    · rw [hs] at hstatus
      exact absurd hstatus (by decide)
    · rw [hs] at hstatus
      exact absurd hstatus (by decide)
  pending_iff := by
    simp only [JobRow.release]
    constructor
    · intro hs
      rw [hs] at hstatus
      exact absurd hstatus (by decide)
    · intro hzero
      omega
  retryWait := hretry
  exhausted := hexhausted
  claimedBy := rfl
  claimExpiresAt := rfl
  payload := h.payload
  attempts := fun n => by rw [hattempts]; exact h.attempts n
  claims := fun job hjob => (h.claims job (hclaims ▸ hjob)).release status availableAt written

/-! ### The row after each operation -/

/-- `submit_checked` inserts a row without an attempt. -/
theorem RowInv.submitted {v : JobView Payload} (value : JobSubmission Payload)
    (createdAt : Datetime) (hattempts : ∀ n, v.attempts n = none) (hclaims : v.claims = []) :
    RowInv v (value.row createdAt) where
  attempt_le := Nat.zero_le _
  claimed_iff := by simp [JobSubmission.row]
  pending_iff := by simp [JobSubmission.row]
  retryWait := by simp [JobSubmission.row]
  exhausted := by simp [JobSubmission.row]
  claimedBy := rfl
  claimExpiresAt := rfl
  payload := value.payload_xor
  attempts := fun n => by
    simp only [hattempts, JobSubmission.row, Option.isSome_none, Bool.false_eq_true, false_iff]
    omega
  claims := fun job hjob => by simp [hclaims] at hjob

/-- `claim_due` opens the next attempt of a row that is due. -/
theorem RowInv.claim {v v' : JobView Payload} {row : JobRow Payload} {owner token : String}
    {lease : Timedelta} {written : Datetime} {attempt : AttemptRow Payload} (h : RowInv v row)
    (hstatus : row.status = .pending ∨ row.status = .retryWait)
    (hattempts : v'.attempts =
      Function.update v.attempts (row.attemptNumber + 1) (some attempt))
    (hclaims : v'.claims = v.claims ++ [row.claimedAs owner token lease written]) :
    RowInv v' (row.claim owner token lease written) where
  attempt_le := h.attempt_lt hstatus
  claimed_iff := by simp [JobRow.claim]
  pending_iff := by simp [JobRow.claim]
  retryWait := by simp [JobRow.claim]
  exhausted := by simp [JobRow.claim]
  claimedBy := rfl
  claimExpiresAt := rfl
  payload := h.payload
  attempts := fun n => by
    rw [hattempts]
    by_cases hn : n = row.attemptNumber + 1
    · simp [hn, JobRow.claim]
    · simp only [Function.update_of_ne hn, h.attempts, JobRow.claim]
      omega
  claims := fun job hjob => by
    rw [hclaims] at hjob
    rcases List.mem_append.1 hjob with hjob | hjob
    · have hof := h.claims job hjob
      exact ⟨hof.jobId, hof.correlationId, hof.jobType, hof.scheduledAt, hof.maxAttempts,
        hof.attempt_pos, Nat.le_succ_of_le hof.attempt_le⟩
    · obtain rfl := List.mem_singleton.1 hjob
      exact ⟨rfl, rfl, rfl, rfl, rfl, Nat.le_add_left 1 _, le_refl _⟩

/-- `start` leaves the claim and its attempt open. -/
theorem RowInv.start {v v' : JobView Payload} {row : JobRow Payload} (h : RowInv v row)
    (written : Datetime) (htoken : row.claimToken.isSome) (hpos : 1 ≤ row.attemptNumber)
    (hattempts : ∀ n, (v'.attempts n).isSome = (v.attempts n).isSome)
    (hclaims : v'.claims = v.claims) : RowInv v' (row.start written) where
  attempt_le := h.attempt_le
  claimed_iff := by simpa [JobRow.start] using htoken
  pending_iff := by
    simp only [JobRow.start, reduceCtorEq, false_iff]
    omega
  retryWait := by simp [JobRow.start]
  exhausted := by simp [JobRow.start]
  claimedBy := h.claimedBy
  claimExpiresAt := h.claimExpiresAt
  payload := h.payload
  attempts := fun n => by rw [hattempts]; exact h.attempts n
  claims := fun job hjob => by
    have hof := h.claims job (hclaims ▸ hjob)
    exact ⟨hof.jobId, hof.correlationId, hof.jobType, hof.scheduledAt, hof.maxAttempts,
      hof.attempt_pos, hof.attempt_le⟩

/-- `heartbeat` moves the end of an open claim. -/
theorem RowInv.renew {v v' : JobView Payload} {row : JobRow Payload} (h : RowInv v row)
    (lease : Timedelta) (written : Datetime) (htoken : row.claimToken.isSome)
    (hattempts : v'.attempts = v.attempts) (hclaims : v'.claims = v.claims) :
    RowInv v' (row.renew lease written) where
  attempt_le := h.attempt_le
  claimed_iff := h.claimed_iff
  pending_iff := h.pending_iff
  retryWait := h.retryWait
  exhausted := h.exhausted
  claimedBy := h.claimedBy
  claimExpiresAt := Option.isNone_eq_false_iff.2 htoken
  payload := h.payload
  attempts := fun n => by rw [hattempts]; exact h.attempts n
  claims := fun job hjob => by
    have hof := h.claims job (hclaims ▸ hjob)
    exact ⟨hof.jobId, hof.correlationId, hof.jobType, hof.scheduledAt, hof.maxAttempts,
      hof.attempt_pos, hof.attempt_le⟩

theorem ClaimedJob.failureStatus_mem (job : ClaimedJob Payload) (failure : HandlerError) :
    job.failureStatus failure ∈
      [JobStatus.retryWait, .succeeded, .failed, .retriesExhausted] := by
  unfold failureStatus
  split
  · decide
  · split <;> decide

/-- A failure puts the job back while attempts are left. -/
theorem ClaimedJob.lt_of_failureStatus {job : ClaimedJob Payload} {failure : HandlerError}
    (h : job.failureStatus failure = .retryWait) : job.attemptNumber < job.maxAttempts := by
  unfold failureStatus at h
  split at h
  · next hr =>
      have hboth : failure.retryable = true ∧ job.attemptNumber < job.maxAttempts := by
        simpa [retries] using hr
      exact hboth.2
  · split at h <;> cases h

/-- A failure exhausts the job when no attempt is left. -/
theorem ClaimedJob.le_of_failureStatus {job : ClaimedJob Payload} {failure : HandlerError}
    (h : job.failureStatus failure = .retriesExhausted) : job.maxAttempts ≤ job.attemptNumber := by
  unfold failureStatus at h
  split at h
  · cases h
  · next hr =>
      split at h
      · next hretryable =>
          have : ¬ job.attemptNumber < job.maxAttempts := by
            simpa [retries, hretryable] using hr
          omega
      · cases h

/-- `fail` releases the row into the status the attempts left decide. -/
theorem RowInv.fail {v v' : JobView Payload} {row : JobRow Payload} {job : ClaimedJob Payload}
    {now : Datetime} (h : RowInv v row) (failure : HandlerError) (availableAt written : Datetime)
    (hjob : job ∈ v.claims) (hcur : job.IsCurrent row now)
    (hattempts : ∀ n, (v'.attempts n).isSome = (v.attempts n).isSome)
    (hclaims : v'.claims = v.claims) :
    RowInv v' (row.release (job.failureStatus failure) availableAt written) := by
  have hmax : job.maxAttempts = row.maxAttempts := (h.claims job hjob).maxAttempts
  have hnumber : row.attemptNumber = job.attemptNumber := hcur.1
  refine h.release _ _ (h.of_isCurrent hcur).2 (job.failureStatus_mem failure) ?_ ?_ hattempts
    hclaims
  · intro hretry
    have hlt := ClaimedJob.lt_of_failureStatus hretry
    omega
  · intro hexhausted
    have hle := ClaimedJob.le_of_failureStatus hexhausted
    have hbound := h.attempt_le
    omega

/-- `recover_expired_claims` releases a row whose claim expired. -/
theorem RowInv.recover {v v' : JobView Payload} {row : JobRow Payload} (h : RowInv v row)
    (written : Datetime) (hstatus : row.status = .claimed ∨ row.status = .running)
    (hattempts : v'.attempts = v.attempts) (hclaims : v'.claims = v.claims) :
    RowInv v' (row.recover written) := by
  refine h.release _ _ (h.attempt_pos hstatus) ?_ ?_ ?_ (fun _ => by rw [hattempts]) hclaims
  · split <;> decide
  · intro hretry
    split at hretry
    · next hlt => exact hlt
    · cases hretry
  · intro hexhausted
    have hle := h.attempt_le
    split at hexhausted
    · cases hexhausted
    · next hlt => omega

/-- **The step lemma of the queue invariant.** -/
theorem QueueInv.step {service : SchedulerService} {clock : ClockReads} {op : Operation Payload}
    {v v' : JobView Payload} (h : QueueInv v) (hs : JobStep service clock op v v') :
    QueueInv v' := by
  cases hs with
  | idle => exact h
  | @submitted value _ events hrow hevents =>
      obtain ⟨hattempts, -, hclaims, -⟩ := h.absent hrow
      exact .of_row rfl (.submitted value clock.written hattempts hclaims)
  | @claimed owner limit locked _ row token eventId hrow hstatus hdue hfresh =>
      exact .of_row rfl ((h.present row hrow).claim hstatus rfl rfl)
  | @started job _ row eventId hjob hrow hcur =>
      have hinv := h.present row hrow
      obtain ⟨hstatus, hpos⟩ := hinv.of_isCurrent hcur
      refine .of_row rfl (hinv.start clock.written (hinv.claimed_iff.1 hstatus) hpos ?_ rfl)
      intro n
      exact JobView.isSome_modifyAttempt ..
  | @heartbeat job _ row hjob hrow hcur =>
      have hinv := h.present row hrow
      have htoken := hinv.claimed_iff.1 (hinv.of_isCurrent hcur).1
      exact .of_row rfl (hinv.renew service.lease clock.written htoken rfl rfl)
  | @succeeded job summary _ row eventId hjob hrow hcur =>
      have hinv := h.present row hrow
      obtain ⟨-, hpos⟩ := hinv.of_isCurrent hcur
      refine .of_row rfl (hinv.release _ _ hpos (by decide) (by simp) (by simp) ?_ rfl)
      intro n
      exact JobView.isSome_modifyAttempt ..
  | @failed job failure _ row events hjob hrow hcur hchecks hevents =>
      refine .of_row rfl ((h.present row hrow).fail failure _ _ hjob hcur ?_ rfl)
      intro n
      exact JobView.isSome_modifyAttempt ..
  | @recovered limit locked _ row hrow hstatus hexpired =>
      exact .of_row rfl ((h.present row hrow).recover clock.written hstatus rfl rfl)

/-- The queue invariant holds of every job in every reachable state. -/
theorem QueueInv.of_reachable [DecidableEq Payload] {service : SchedulerService}
    {w : World Payload} (h : (schedulerMachine service).Reachable w) (jobId : String) :
    QueueInv (w.view jobId) := by
  induction h with
  | start =>
      refine ⟨fun _ => ⟨fun _ => rfl, rfl, rfl, rfl⟩, fun row hrow => ?_⟩
      cases hrow
  | step _ _ hn ih => exact ih.step (view_step hn jobId)

/-! ### Availability -/

/-- A job is available from its scheduled time on at the earliest, and a claimed job was available
when it was claimed. -/
structure AvailableInv (now : Datetime) (v : JobView Payload) : Prop where
  scheduled : ∀ row, v.row = some row → row.scheduledAt ≤ row.availableAt
  claimed : ∀ row, v.row = some row → row.claimToken.isSome → row.availableAt ≤ now

/-- **The step lemma of availability.** -/
theorem AvailableInv.step {service : SchedulerService} {clock : ClockReads}
    {op : Operation Payload} {v v' : JobView Payload} {now : Datetime} (hnow : now ≤ clock.now)
    (hinv : QueueInv v) (h : AvailableInv now v) (hs : JobStep service clock op v v') :
    AvailableInv clock.written v' := by
  have hwritten : now ≤ clock.written := hnow.trans clock.now_le_written
  -- the row of an open claim was available, so its times lie before the transaction
  have hbefore : ∀ row, v.row = some row → (row.status = .claimed ∨ row.status = .running) →
      row.scheduledAt ≤ row.availableAt ∧ row.availableAt ≤ now := by
    intro row hrow hstatus
    have htoken := ((hinv.present row hrow).claimed_iff).1 hstatus
    exact ⟨h.scheduled row hrow, h.claimed row hrow htoken⟩
  cases hs with
  | idle =>
      refine ⟨h.scheduled, fun row hrow htoken => ?_⟩
      exact (h.claimed row hrow htoken).trans hwritten
  | @submitted value _ events hrow hevents =>
      refine ⟨fun row hrow => ?_, fun row hrow htoken => ?_⟩
      · obtain rfl := Option.some_inj.1 hrow
        exact le_refl _
      · obtain rfl := Option.some_inj.1 hrow
        cases htoken
  | @claimed owner limit locked _ row token eventId hrow hstatus hdue hfresh =>
      refine ⟨fun row' hrow' => ?_, fun row' hrow' _ => ?_⟩
      · obtain rfl := Option.some_inj.1 hrow'
        exact h.scheduled row hrow
      · obtain rfl := Option.some_inj.1 hrow'
        exact hdue.trans clock.checked_le_written
  | @started job _ row eventId hjob hrow hcur =>
      obtain ⟨hsched, havail⟩ := hbefore row hrow ((hinv.present row hrow).of_isCurrent hcur).1
      refine ⟨fun row' hrow' => ?_, fun row' hrow' _ => ?_⟩
      · obtain rfl := Option.some_inj.1 hrow'
        exact hsched
      · obtain rfl := Option.some_inj.1 hrow'
        exact havail.trans hwritten
  | @heartbeat job _ row hjob hrow hcur =>
      obtain ⟨hsched, havail⟩ := hbefore row hrow ((hinv.present row hrow).of_isCurrent hcur).1
      refine ⟨fun row' hrow' => ?_, fun row' hrow' _ => ?_⟩
      · obtain rfl := Option.some_inj.1 hrow'
        exact hsched
      · obtain rfl := Option.some_inj.1 hrow'
        exact havail.trans hwritten
  | @succeeded job summary _ row eventId hjob hrow hcur =>
      refine ⟨fun row' hrow' => ?_, fun row' hrow' htoken => ?_⟩
      · obtain rfl := Option.some_inj.1 hrow'
        exact h.scheduled row hrow
      · obtain rfl := Option.some_inj.1 hrow'
        cases htoken
  | @failed job failure _ row events hjob hrow hcur hchecks hevents =>
      refine ⟨fun row' hrow' => ?_, fun row' hrow' htoken => ?_⟩
      · obtain rfl := Option.some_inj.1 hrow'
        exact hchecks
      · obtain rfl := Option.some_inj.1 hrow'
        cases htoken
  | @recovered limit locked _ row hrow hstatus hexpired =>
      obtain ⟨hsched, havail⟩ := hbefore row hrow hstatus
      refine ⟨fun row' hrow' => ?_, fun row' hrow' htoken => ?_⟩
      · obtain rfl := Option.some_inj.1 hrow'
        exact (hsched.trans havail).trans hwritten
      · obtain rfl := Option.some_inj.1 hrow'
        cases htoken

/-- A step ends at the last reading of its clock. -/
theorem World.clock_of_next [DecidableEq Payload] {service : SchedulerService}
    {w w' : World Payload} {l : Label Payload} (h : w.next service l = some w') :
    w'.clock = l.clock.written := by
  obtain ⟨-, -, ⟨effect, -, -, rfl⟩ | ⟨-, rfl⟩⟩ := World.next_cases h
  · rfl
  · rfl

/-- Availability holds of every job in every reachable state. -/
theorem AvailableInv.of_reachable [DecidableEq Payload] {service : SchedulerService}
    {w : World Payload}
    (h : (schedulerMachine service).Reachable w) (jobId : String) :
    AvailableInv w.clock (w.view jobId) := by
  induction h with
  | start =>
      constructor
      · intro row hrow
        cases hrow
      · intro row hrow
        cases hrow
  | step hs _ hn ih =>
      have hinv := QueueInv.of_reachable hs jobId
      have hnow := (World.next_cases hn).1
      rw [World.clock_of_next hn]
      exact ih.step hnow hinv (view_step hn jobId)

/-! ### Finished jobs -/

/-- **A finished job's row is not written again.** -/
theorem isFinal_stays {service : SchedulerService} {clock : ClockReads} {op : Operation Payload}
    {v v' : JobView Payload} (h : QueueInv v) (hs : JobStep service clock op v v')
    {row : JobRow Payload} (hrow : v.row = some row) (hfinal : row.status.isFinal) :
    v'.row = some row := by
  -- a finished row has no token, so no claim passes the fence, and it is neither due nor expired
  have hnot : ¬ (row.status = .claimed ∨ row.status = .running) ∧ row.status ≠ .pending ∧
      row.status ≠ .retryWait := by
    revert hfinal
    cases row.status <;> decide
  have hfenced : ∀ {job : ClaimedJob Payload} {row' : JobRow Payload}, v.row = some row' →
      ¬ job.IsCurrent row' clock.checked := by
    intro job row' hrow' hcur
    obtain rfl := Option.some_inj.1 (hrow.symm.trans hrow')
    exact hnot.1 ((h.present row hrow).of_isCurrent hcur).1
  cases hs with
  | idle => exact hrow
  | submitted hnone => rw [hrow] at hnone; cases hnone
  | claimed hrow' hstatus =>
      obtain rfl := Option.some_inj.1 (hrow.symm.trans hrow')
      rcases hstatus with hs | hs
      · exact absurd hs hnot.2.1
      · exact absurd hs hnot.2.2
  | started _ hrow' hcur => exact absurd hcur (hfenced hrow')
  | heartbeat _ hrow' hcur => exact absurd hcur (hfenced hrow')
  | succeeded _ hrow' hcur => exact absurd hcur (hfenced hrow')
  | failed _ hrow' hcur => exact absurd hcur (hfenced hrow')
  | recovered hrow' hstatus =>
      obtain rfl := Option.some_inj.1 (hrow.symm.trans hrow')
      exact absurd hstatus hnot.1

end ScheduledJobs
