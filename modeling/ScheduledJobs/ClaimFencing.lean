/-
**Claims are fenced.**

A claim is good for one attempt.  Attempt numbers only grow, so no two claims of a job share one;
the fence compares the number with the row's, so at most one claim of a job passes it; an outcome
takes the token off the row, so an attempt gets one outcome; and a claim that was taken back, or
superseded, never passes again.

Main definitions:

* `FenceInv` — the invariant of one job's claims, outcomes and recoveries;
* `ClaimedJob.ValidIn` — the claim would pass the fence;
* `StaleIn` — the claim has expired, has an outcome, was taken back, or was superseded;
* `ClaimsFenced` — **what holds of the claims of every reachable state**.

Main results:

* `FenceInv.step` — the step lemma;
* `claimsFenced` — **claims are fenced in every reachable state**.
-/

import ScheduledJobs.QueueConstraints

set_option relaxedAutoImplicit false
set_option autoImplicit false

namespace ScheduledJobs

variable {Payload : Type}

/-! ### Outcome events -/

/-- The event is an outcome of an attempt. -/
def Event.isOutcome (event : Event) : Bool :=
  event.eventType = .jobExecutionSucceeded || event.eventType = .jobExecutionFailed

/-- The number of outcomes of an attempt among the events of its job. -/
def outcomesOf (n : ℕ) (events : List Event) : ℕ :=
  events.countP fun event => event.isOutcome && event.attemptNumber = n

@[simp] theorem outcomesOf_append (n : ℕ) (events more : List Event) :
    outcomesOf n (events ++ more) = outcomesOf n events + outcomesOf n more :=
  List.countP_append

/-- Events that are not outcomes do not count. -/
theorem outcomesOf_eq_zero {n : ℕ} {events : List Event}
    (h : ∀ event ∈ events, event.isOutcome = false) : outcomesOf n events = 0 := by
  rw [outcomesOf, List.countP_eq_zero]
  intro event hevent
  simp [h event hevent]

/-- A failure has one outcome, of its own attempt. -/
theorem outcomesOf_failureEvents {service : SchedulerService} {job : ClaimedJob Payload}
    {failure : HandlerError} {clock : ClockReads} {events : List Event}
    (h : Drafted (service.failureEvents job failure clock) events) (n : ℕ) :
    outcomesOf n events = if n = job.attemptNumber then 1 else 0 := by
  obtain ⟨eventId, rest, rfl, hrest⟩ := drafted_failureEvents h
  have hzero : outcomesOf n rest = 0 := by
    refine outcomesOf_eq_zero fun event hevent => ?_
    rcases hrest with ⟨-, -, requestedId, acknowledgedId, rfl⟩ | ⟨-, -, exhaustedId, rfl⟩ |
      ⟨-, -, rfl⟩
    · simp only [List.mem_cons, List.not_mem_nil, or_false] at hevent
      rcases hevent with rfl | rfl <;> rfl
    · obtain rfl := List.mem_singleton.1 hevent
      rfl
    · cases hevent
  rw [← List.singleton_append, outcomesOf_append, hzero, Nat.add_zero]
  by_cases hn : n = job.attemptNumber
  · simp [outcomesOf, ClaimedJob.failedEvent, Event.isOutcome, ClaimedJob.event, hn]
  · simp [outcomesOf, ClaimedJob.failedEvent, Event.isOutcome, ClaimedJob.event, hn, Ne.symm hn]

/-! ### The invariant of one job -/

/-- The outcome of an attempt, if it has one. -/
def JobView.outcome? (v : JobView Payload) (n : ℕ) : Option Outcome :=
  (v.attempts n).bind AttemptRow.outcome

/-- What holds of the claims, outcomes and recoveries of a job. -/
structure FenceInv (v : JobView Payload) : Prop where
  claims_nodup : (v.claims.map ClaimedJob.attemptNumber).Nodup
  outcomes : ∀ n, outcomesOf n v.events = if (v.outcome? n).isSome then 1 else 0
  undecided : ∀ row, v.row = some row → row.claimToken.isSome →
    v.outcome? row.attemptNumber = none
  recovered : ∀ row, v.row = some row → ∀ n ∈ v.recovered,
    n ≤ row.attemptNumber ∧ (n = row.attemptNumber → row.claimToken = none)

/-- Modifying an attempt changes no other attempt's outcome. -/
theorem JobView.outcome?_modifyAttempt_ne (v : JobView Payload) {n k : ℕ} (hk : k ≠ n)
    (assign : AttemptRow Payload → AttemptRow Payload) :
    (v.modifyAttempt n assign).outcome? k = v.outcome? k := by
  simp only [outcome?, modifyAttempt, Function.update_of_ne hk]

/-- An attempt that is there gets the outcome it is assigned. -/
theorem JobView.outcome?_modifyAttempt_self {v : JobView Payload} {n : ℕ}
    {attempt : AttemptRow Payload} (h : v.attempts n = some attempt)
    (assign : AttemptRow Payload → AttemptRow Payload) :
    (v.modifyAttempt n assign).outcome? n = (assign attempt).outcome := by
  simp only [outcome?, modifyAttempt, Function.update_self, h, Option.map_some, Option.bind_some]

/-- A start writes no outcome. -/
theorem JobView.outcome?_start (v : JobView Payload) (n k : ℕ) (written : Datetime) :
    (v.modifyAttempt n fun attempt => attempt.start written).outcome? k = v.outcome? k := by
  by_cases hk : k = n
  · subst hk
    simp only [outcome?, modifyAttempt, Function.update_self]
    cases v.attempts k <;> rfl
  · exact v.outcome?_modifyAttempt_ne hk _

/-- Neither does opening a new attempt. -/
theorem JobView.outcome?_opened {v : JobView Payload} {n : ℕ} (hnew : v.attempts n = none)
    {attempt : AttemptRow Payload} (hnone : attempt.outcome = none) (k : ℕ) :
    (Function.update v.attempts n (some attempt) k).bind AttemptRow.outcome = v.outcome? k := by
  by_cases hk : k = n
  · rw [hk, Function.update_self, Option.bind_some, hnone, outcome?, hnew, Option.bind_none]
  · rw [Function.update_of_ne hk, outcome?]

/-- The attempt of a current claim is there, and has no outcome. -/
theorem FenceInv.attempt_of_isCurrent {v : JobView Payload} {row : JobRow Payload}
    {job : ClaimedJob Payload} {now : Datetime} (h : FenceInv v) (hinv : RowInv v row)
    (hrow : v.row = some row) (hcur : job.IsCurrent row now) :
    ∃ attempt, v.attempts job.attemptNumber = some attempt ∧
      v.outcome? job.attemptNumber = none := by
  have hpos := (hinv.of_isCurrent hcur).2
  have hsome := (hinv.attempts row.attemptNumber).2 ⟨hpos, le_refl _⟩
  obtain ⟨attempt, hattempt⟩ := Option.isSome_iff_exists.1 hsome
  have hnone := h.undecided row hrow (by rw [hcur.2.2.1]; rfl)
  rw [hcur.1] at hattempt hnone
  exact ⟨attempt, hattempt, hnone⟩

/-- An outcome that is recorded together with its event. -/
theorem FenceInv.decide {v v' : JobView Payload} {row row' : JobRow Payload}
    {job : ClaimedJob Payload} {now : Datetime} {outcome : Outcome} {events : List Event}
    (h : FenceInv v) (hinv : RowInv v row) (hrow : v.row = some row) (hcur : job.IsCurrent row now)
    (hrow' : v'.row = some row') (hnumber : row'.attemptNumber = row.attemptNumber)
    (htoken : row'.claimToken = none) (hclaims : v'.claims = v.claims)
    (hrecovered : v'.recovered = v.recovered) (hevents : v'.events = v.events ++ events)
    (hcount : ∀ n, outcomesOf n events = if n = job.attemptNumber then 1 else 0)
    (hself : v'.outcome? job.attemptNumber = some outcome)
    (hother : ∀ n, n ≠ job.attemptNumber → v'.outcome? n = v.outcome? n) : FenceInv v' where
  claims_nodup := by rw [hclaims]; exact h.claims_nodup
  outcomes := by
    intro n
    obtain ⟨attempt, -, hnone⟩ := h.attempt_of_isCurrent hinv hrow hcur
    rw [hevents, outcomesOf_append, h.outcomes, hcount]
    by_cases hn : n = job.attemptNumber
    · rw [hn, hnone, hself]
      simp
    · rw [hother n hn, if_neg hn, Nat.add_zero]
  undecided := by
    intro row'' hrow'' hsome
    obtain rfl := Option.some_inj.1 (hrow'.symm.trans hrow'')
    rw [htoken] at hsome
    cases hsome
  recovered := by
    intro row'' hrow'' n hn
    obtain rfl := Option.some_inj.1 (hrow'.symm.trans hrow'')
    rw [hrecovered] at hn
    rw [hnumber]
    exact ⟨(h.recovered row hrow n hn).1, fun _ => htoken⟩

/-- An operation that decides no attempt and hands out no claim. -/
theorem FenceInv.keep {v v' : JobView Payload} {row : JobRow Payload} {events : List Event}
    (h : FenceInv v) (hrow : v'.row = some row) (hclaims : v'.claims = v.claims)
    (hevents : v'.events = v.events ++ events) (hzero : ∀ n, outcomesOf n events = 0)
    (hsame : ∀ n, v'.outcome? n = v.outcome? n)
    (hundecided : row.claimToken.isSome → v.outcome? row.attemptNumber = none)
    (hrecovered : ∀ n ∈ v'.recovered,
      n ≤ row.attemptNumber ∧ (n = row.attemptNumber → row.claimToken = none)) :
    FenceInv v' where
  claims_nodup := by rw [hclaims]; exact h.claims_nodup
  outcomes := fun n => by
    rw [hevents, outcomesOf_append, hzero, Nat.add_zero, hsame]
    exact h.outcomes n
  undecided := by
    intro row' hrow' htoken
    obtain rfl := Option.some_inj.1 (hrow.symm.trans hrow')
    rw [hsame]
    exact hundecided htoken
  recovered := by
    intro row' hrow'
    obtain rfl := Option.some_inj.1 (hrow.symm.trans hrow')
    exact hrecovered

/-- A claim opens an attempt that is nobody's, and hands it out once. -/
theorem FenceInv.claim {v v' : JobView Payload} {row : JobRow Payload} {owner token : String}
    {lease : Timedelta} {written : Datetime} {attempt : AttemptRow Payload} {events : List Event}
    (h : FenceInv v) (hinv : RowInv v row) (hrow : v.row = some row)
    (hfresh : v.attempts (row.attemptNumber + 1) = none) (hopen : attempt.outcome = none)
    (hzero : ∀ n, outcomesOf n events = 0)
    (hrow' : v'.row = some (row.claim owner token lease written))
    (hattempts : v'.attempts =
      Function.update v.attempts (row.attemptNumber + 1) (some attempt))
    (hevents : v'.events = v.events ++ events)
    (hclaims : v'.claims = v.claims ++ [row.claimedAs owner token lease written])
    (hrecovered : v'.recovered = v.recovered) : FenceInv v' where
  claims_nodup := by
    rw [hclaims, List.map_append, List.nodup_append]
    refine ⟨h.claims_nodup, List.nodup_singleton _, ?_⟩
    rintro n hn m hm rfl
    obtain ⟨job, hjob, rfl⟩ := List.mem_map.1 hn
    have hle := (hinv.claims job hjob).attempt_le
    have hsucc : job.attemptNumber = row.attemptNumber + 1 := List.mem_singleton.1 hm
    omega
  outcomes := fun n => by
    have hsame : v'.outcome? n = v.outcome? n := by
      rw [← JobView.outcome?_opened hfresh hopen n, ← hattempts]
      rfl
    rw [hevents, outcomesOf_append, hzero, Nat.add_zero, hsame]
    exact h.outcomes n
  undecided := by
    intro row' hnew _
    obtain rfl := Option.some_inj.1 (hrow'.symm.trans hnew)
    simp only [JobView.outcome?, JobRow.claim, hattempts, Function.update_self, Option.bind_some]
    exact hopen
  recovered := by
    intro row' hnew n hn
    obtain rfl := Option.some_inj.1 (hrow'.symm.trans hnew)
    have hle := (h.recovered row hrow n (hrecovered ▸ hn)).1
    simp only [JobRow.claim]
    exact ⟨by omega, fun heq => by omega⟩

/-- The events of a submission are no outcomes. -/
theorem outcomesOf_submitted {value : JobSubmission Payload} {written : Datetime}
    {events : List Event} (h : Drafted [value.event .jobCreated written,
      value.event .jobSchedulerSubmissionRequested written] events) (n : ℕ) :
    outcomesOf n events = 0 := by
  obtain ⟨_, _, ⟨createdId, rfl⟩, htail, rfl⟩ := List.forall₂_cons_left_iff.1 h
  obtain ⟨_, _, ⟨requestedId, rfl⟩, hend, rfl⟩ := List.forall₂_cons_left_iff.1 htail
  cases hend
  refine outcomesOf_eq_zero fun event hevent => ?_
  simp only [List.mem_cons, List.not_mem_nil, or_false] at hevent
  rcases hevent with rfl | rfl <;> rfl

/-- **The step lemma of the fence.** -/
theorem FenceInv.step {service : SchedulerService} {clock : ClockReads}
    {op : Operation Payload} {v v' : JobView Payload} (hinv : QueueInv v) (h : FenceInv v)
    (hs : JobStep service clock op v v') : FenceInv v' := by
  have hsingle : ∀ (event : Event) (n : ℕ), event.isOutcome = false →
      outcomesOf n [event] = 0 := by
    intro event n hnone
    refine outcomesOf_eq_zero fun event' hevent => ?_
    obtain rfl := List.mem_singleton.1 hevent
    exact hnone
  cases hs with
  | idle => exact h
  | @submitted value _ events hrow hevents =>
      obtain ⟨-, -, -, hrecovered⟩ := hinv.absent hrow
      refine h.keep rfl rfl rfl (outcomesOf_submitted hevents) (fun _ => rfl) ?_ ?_
      · intro htoken
        cases htoken
      · intro n hn
        simp only [JobView.emit, JobView.setRow, hrecovered] at hn
        cases hn
  | @claimed owner limit locked _ row token eventId hrow hstatus hdue hfresh =>
      exact h.claim (hinv.present row hrow) hrow hfresh rfl (fun n => hsingle _ n rfl) rfl rfl rfl
        rfl rfl
  | @started job _ row eventId hjob hrow hcur =>
      exact h.keep rfl rfl rfl (fun n => hsingle _ n rfl)
        (fun n => v.outcome?_start job.attemptNumber n clock.written) (h.undecided row hrow)
        (h.recovered row hrow)
  | @heartbeat job _ row hjob hrow hcur =>
      exact h.keep rfl rfl (List.append_nil _).symm (fun _ => rfl) (fun _ => rfl)
        (h.undecided row hrow) (h.recovered row hrow)
  | @succeeded job summary _ row eventId hjob hrow hcur =>
      have hrowInv := hinv.present row hrow
      obtain ⟨attempt, hattempt, hnone⟩ := h.attempt_of_isCurrent hrowInv hrow hcur
      refine FenceInv.decide h hrowInv hrow hcur rfl rfl rfl rfl rfl rfl ?_
        (?_ : _ = some Outcome.succeeded) ?_
      · intro n
        by_cases hn : n = job.attemptNumber
        · simp [outcomesOf, Event.isOutcome, ClaimedJob.event, hn]
        · simp [outcomesOf, Event.isOutcome, ClaimedJob.event, hn, Ne.symm hn]
      · exact JobView.outcome?_modifyAttempt_self hattempt _
      · intro n hn
        exact v.outcome?_modifyAttempt_ne hn _
  | @failed job failure _ row events hjob hrow hcur hchecks hevents =>
      have hrowInv := hinv.present row hrow
      obtain ⟨attempt, hattempt, hnone⟩ := h.attempt_of_isCurrent hrowInv hrow hcur
      refine FenceInv.decide h hrowInv hrow hcur rfl rfl rfl rfl rfl rfl
        (outcomesOf_failureEvents hevents) (?_ : _ = some Outcome.failed) ?_
      · exact JobView.outcome?_modifyAttempt_self hattempt _
      · intro n hn
        exact v.outcome?_modifyAttempt_ne hn _
  | @recovered limit locked _ row hrow hstatus hexpired =>
      refine h.keep rfl rfl (List.append_nil _).symm (fun _ => rfl) (fun _ => rfl) ?_ ?_
      · intro htoken
        cases htoken
      · intro n hn
        rcases List.mem_append.1 hn with hn | hn
        · exact ⟨(h.recovered row hrow n hn).1, fun _ => rfl⟩
        · obtain rfl := List.mem_singleton.1 hn
          exact ⟨le_refl _, fun _ => rfl⟩

/-- The fence holds of every job in every reachable state. -/
theorem FenceInv.of_reachable [DecidableEq Payload] {service : SchedulerService}
    {w : World Payload} (h : (schedulerMachine service).Reachable w) (jobId : String) :
    FenceInv (w.view jobId) := by
  induction h with
  | start =>
      constructor
      · exact List.nodup_nil
      · intro n
        rfl
      · intro row hrow
        cases hrow
      · intro row hrow
        cases hrow
  | step hs _ hn ih => exact ih.step (QueueInv.of_reachable hs jobId) (view_step hn jobId)

/-! ### Every reachable state -/

/-- The claim would pass the fence at a time. -/
def ClaimedJob.ValidIn (job : ClaimedJob Payload) (w : World Payload) (now : Datetime) : Prop :=
  ∃ row, w.db.jobs.find? job.jobId = some row ∧ job.IsCurrent row now

/-- The stored lease of the claim has expired. -/
def ExpiredIn (w : World Payload) (job : ClaimedJob Payload) (now : Datetime) : Prop :=
  ∃ row, w.db.jobs.find? job.jobId = some row ∧ row.claimToken = some job.claimToken ∧
    ∃ expires, row.claimExpiresAt = some expires ∧ expires < now

/-- An outcome of the claim's attempt is recorded. -/
def DecidedIn (w : World Payload) (job : ClaimedJob Payload) : Prop :=
  ∃ attempt, w.db.attempts.find? (job.jobId, job.attemptNumber) = some attempt ∧
    attempt.outcome ≠ none

/-- The claim was taken back by a recovery. -/
def RecoveredIn (w : World Payload) (job : ClaimedJob Payload) : Prop :=
  (job.jobId, job.attemptNumber) ∈ w.recovered

/-- The job was claimed again. -/
def ReclaimedIn (w : World Payload) (job : ClaimedJob Payload) : Prop :=
  ∃ later ∈ w.handed, later.jobId = job.jobId ∧ job.attemptNumber < later.attemptNumber

/-- The claim is stale: it has expired, has an outcome, was taken back, or was superseded. -/
def StaleIn (w : World Payload) (job : ClaimedJob Payload) (now : Datetime) : Prop :=
  ExpiredIn w job now ∨ DecidedIn w job ∨ RecoveredIn w job ∨ ReclaimedIn w job

/-- **What holds of the claims of every reachable state.** -/
structure ClaimsFenced [DecidableEq Payload] (service : SchedulerService) (w : World Payload) :
    Prop where
  /-- Every attempt of a job is handed out once. -/
  claimedOnce : (w.handed.map fun job => (job.jobId, job.attemptNumber)).Nodup
  /-- No two claims of a job are valid at the same time. -/
  validOnce : ∀ job ∈ w.handed, ∀ other ∈ w.handed, job.jobId = other.jobId → ∀ now,
    job.ValidIn w now → other.ValidIn w now → job = other
  /-- Every attempt of a job has at most one outcome event. -/
  decidedOnce : ∀ jobId n, (w.db.events.countP fun event => event.isOutcome &&
    (event.jobId = jobId && event.attemptNumber = n)) ≤ 1
  /-- A stale claim is turned away by every operation. -/
  stale : ∀ (op : Operation Payload) (job : ClaimedJob Payload) (clock : ClockReads),
    op.job? = some job → job ∈ w.handed → StaleIn w job clock.checked →
      service.perform w.db clock op = .error (.staleClaim job.jobId) ∧
      ∀ committed w', w.next service ⟨op, clock, committed⟩ = some w' → w'.db = w.db

/-- Pairs are distinct when the second components are, among those with the same first one. -/
theorem nodup_map_pair {α κ ι : Type} [DecidableEq κ] {f : α → κ} {g : α → ι} {l : List α}
    (h : ∀ k, ((l.filter fun a => f a = k).map g).Nodup) :
    (l.map fun a => (f a, g a)).Nodup := by
  induction l with
  | nil => exact List.nodup_nil
  | cons a l ih =>
      rw [List.map_cons, List.nodup_cons]
      constructor
      · intro hmem
        obtain ⟨b, hb, heq⟩ := List.mem_map.1 hmem
        obtain ⟨hf, hg⟩ := Prod.mk.inj heq
        have hnodup := h (f a)
        rw [List.filter_cons_of_pos (by simp), List.map_cons, List.nodup_cons] at hnodup
        exact hnodup.1 (List.mem_map.2 ⟨b, List.mem_filter.2 ⟨hb, by simpa using hf⟩, hg⟩)
      · refine ih fun k => (h k).sublist (List.Sublist.map g ?_)
        exact (List.sublist_cons_self a l).filter _

/-- **A stale claim is not current.** -/
theorem not_isCurrent_of_staleIn [DecidableEq Payload] {service : SchedulerService}
    {w : World Payload} {job : ClaimedJob Payload} {now : Datetime}
    (hw : (schedulerMachine service).Reachable w) (hstale : StaleIn w job now)
    {row : JobRow Payload} (hrow : w.db.jobs.find? job.jobId = some row) :
    ¬ job.IsCurrent row now := by
  intro hcur
  have hinv := QueueInv.of_reachable hw job.jobId
  have hfence := FenceInv.of_reachable hw job.jobId
  have hrowInv := hinv.present row hrow
  rcases hstale with ⟨row', hrow', -, expires, hexpires, hlt⟩ | ⟨attempt, hattempt, hdecided⟩ |
    hrecovered | ⟨later, hlater, hid, hnumber⟩
  · obtain rfl := Option.some_inj.1 (hrow.symm.trans hrow')
    have hle := hcur.2.2.2
    rw [hexpires] at hle
    exact absurd (of_decide_eq_true hle) (not_le.2 hlt)
  · -- the row of a current claim has no outcome
    obtain ⟨attempt', hattempt', hnone⟩ := hfence.attempt_of_isCurrent hrowInv hrow hcur
    obtain rfl := Option.some_inj.1 (hattempt.symm.trans hattempt')
    have houtcome : (w.view job.jobId).outcome? job.attemptNumber = attempt.outcome := by
      simp only [JobView.outcome?, hattempt', Option.bind_some]
    exact hdecided (houtcome.symm.trans hnone)
  · -- a recovery takes the token off the row, and only a later attempt puts one on again
    have hmem : job.attemptNumber ∈ (w.view job.jobId).recovered :=
      List.mem_map.2 ⟨_, List.mem_filter.2 ⟨hrecovered, by simp⟩, rfl⟩
    have hnone := (hfence.recovered row hrow _ hmem).2 hcur.1.symm
    rw [hcur.2.2.1] at hnone
    cases hnone
  · have hmem : later ∈ (w.view job.jobId).claims := List.mem_filter.2 ⟨hlater, by simpa using hid⟩
    have hle := (hrowInv.claims later hmem).attempt_le
    rw [hcur.1] at hle
    omega

/-- **A transaction on a claim that is not the current one of its row is turned away.** -/
theorem perform_stale [DecidableEq Payload] (service : SchedulerService) {db : Db Payload}
    {clock : ClockReads} {op : Operation Payload} {job : ClaimedJob Payload}
    (hop : op.job? = some job)
    (hnot : ∀ row, db.jobs.find? job.jobId = some row → ¬ job.IsCurrent row clock.checked) :
    service.perform db clock op = .error (.staleClaim job.jobId) := by
  cases op with
  | submitChecked => cases hop
  | claimDue => cases hop
  | recoverExpiredClaims => cases hop
  | start claim =>
      obtain rfl := Option.some_inj.1 hop
      simp only [SchedulerService.perform, SchedulerService.start, fencedUpdate_stale hnot]
      rfl
  | heartbeat claim =>
      obtain rfl := Option.some_inj.1 hop
      simp only [SchedulerService.perform, SchedulerService.heartbeat, fencedUpdate_stale hnot]
      rfl
  | succeed claim summary =>
      obtain rfl := Option.some_inj.1 hop
      simp only [SchedulerService.perform, SchedulerService.succeed, fencedUpdate_stale hnot]
      rfl
  | fail claim failure =>
      obtain rfl := Option.some_inj.1 hop
      simp only [SchedulerService.perform, SchedulerService.fail, fencedUpdate_stale hnot]
      rfl

/-- **Claims are fenced in every reachable state**: any number of workers, any interleaving of the
operations, and leases that expire, are renewed, recovered and claimed again at any moment. -/
theorem claimsFenced [DecidableEq Payload] (service : SchedulerService) (w : World Payload)
    (hw : (schedulerMachine service).Reachable w) : ClaimsFenced service w := by
  have honce : (w.handed.map fun job => (job.jobId, job.attemptNumber)).Nodup :=
    nodup_map_pair fun jobId => (FenceInv.of_reachable hw jobId).claims_nodup
  refine ⟨honce, ?_, ?_, ?_⟩
  · rintro job hjob other hother hid now ⟨row, hrow, hcur⟩ ⟨row', hrow', hcur'⟩
    rw [hid] at hrow
    obtain rfl := Option.some_inj.1 (hrow.symm.trans hrow')
    exact List.inj_on_of_nodup_map honce hjob hother
      (Prod.ext hid (hcur.1.symm.trans hcur'.1))
  · intro jobId n
    have hcount := (FenceInv.of_reachable hw jobId).outcomes n
    have hle : outcomesOf n (w.view jobId).events ≤ 1 := by
      rw [hcount]
      split <;> omega
    refine le_trans (le_of_eq ?_) hle
    rw [outcomesOf, World.view, eventsOf, List.countP_filter]
    refine List.countP_congr fun event _ => ?_
    simp only [Bool.and_eq_true, decide_eq_true_eq]
    rw [and_assoc, and_comm (a := event.attemptNumber = n)]
  · intro op job clock hop hjob hstale
    have hnot : ∀ row, w.db.jobs.find? job.jobId = some row → ¬ job.IsCurrent row clock.checked :=
      fun row hrow => not_isCurrent_of_staleIn hw hstale hrow
    have herror := perform_stale service hop hnot
    refine ⟨herror, fun committed w' hn => ?_⟩
    obtain ⟨-, -, ⟨effect, -, hperform, -⟩ | ⟨-, rfl⟩⟩ := World.next_cases hn
    · rw [herror] at hperform
      cases hperform
    · rfl

/-- Two claims were handed out in the run of `exhaustedRun`, and the state at its end is fenced. -/
theorem claimsFenced_exhaustedRun :
    ∃ w, (schedulerMachine defaultService).run (schedulerMachine defaultService).start
        exhaustedRun = some w ∧
      (w.handed.map fun job => (job.jobId, job.attemptNumber)) = [("job-1", 1), ("job-1", 2)] ∧
      w.recovered = [("job-1", 2)] ∧ ClaimsFenced defaultService w := by
  refine ⟨_, rfl, by decide, by decide, ?_⟩
  exact claimsFenced defaultService _
    (Machine.Reachable.of_run Machine.Reachable.start exhaustedRun rfl)

end ScheduledJobs
