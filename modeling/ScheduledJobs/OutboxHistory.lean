/-
**What a job's outbox says of its history.**

While no claim of a job is taken back, its events tell its whole story: every attempt before the
current one has failed, every failure has its event, and a finished job has the event that finished
it.

Main definitions:

* `Event.Concludes` — the event that finished a row;
* `HistoryInv` — **the history of a job**.

Main results:

* `HistoryInv.step` — the step lemma;
* `HistoryInv.of_reachable` — the history after every run that takes no claim of the job back.
-/

import ScheduledJobs.ClaimFencing
import ScheduledJobs.LifecycleSimulation

set_option relaxedAutoImplicit false
set_option autoImplicit false

namespace ScheduledJobs

variable {Payload : Type}

/-! ### The invariant of one job -/

/-- The event is about the submission of the job. -/
def Event.isSubmission (event : Event) : Bool :=
  event.eventType = .jobCreated || event.eventType = .jobSchedulerSubmissionRequested

/-- The event is about the beginning of an attempt. -/
def Event.isBeginning (event : Event) : Bool :=
  event.eventType = .jobSchedulerItemRetrieved || event.eventType = .jobExecutionStarted

/-- The event finished the job whose row this is. -/
def Event.Concludes (event : Event) (row : JobRow Payload) : Prop :=
  match row.status with
  | .succeeded =>
      event.eventType = .jobExecutionSucceeded ∧ event.attemptNumber = row.attemptNumber
  | .failed =>
      event.eventType = .jobExecutionFailed ∧ event.attemptNumber = row.attemptNumber ∧
        event.retryable = some false
  | .retriesExhausted => event.eventType = .jobRetriesExhausted
  | _ => False

/-- What an event of the job is about: its submission, or an attempt; and what else than the
beginning or the outcome of an attempt it is about lies in the past, or shows in the row. -/
def Event.Fits (event : Event) (row : JobRow Payload) : Prop :=
  event.attemptNumber ≤ row.attemptNumber ∧ (event.isSubmission = true ∨ 1 ≤ event.attemptNumber ∧
    (event.isBeginning = true ∨ event.isOutcome = true ∨ event.attemptNumber < row.attemptNumber ∨
      row.status = .retryWait ∨ row.status = .retriesExhausted))

/-- **The history of a job.** -/
structure HistoryInv (v : JobView Payload) (row : JobRow Payload) : Prop where
  fits : ∀ event ∈ v.events, event.Fits row
  failedBefore : ∀ n, 1 ≤ n → n < row.attemptNumber → v.outcome? n = some .failed
  failedNow : row.status = .retryWait ∨ row.status = .failed ∨ row.status = .retriesExhausted →
    v.outcome? row.attemptNumber = some .failed
  failedEvent : ∀ n, v.outcome? n = some .failed →
    ∃ event ∈ v.events, event.eventType = .jobExecutionFailed ∧ event.attemptNumber = n
  concluded : row.status.isFinal → ∃ event ∈ v.events, event.Concludes row

/-! ### Every step -/

/-- Events that fit a row fit it when its attempt number grows, unless they are evidence of the
state the row was in. -/
theorem Event.Fits.mono {event : Event} {row row' : JobRow Payload} (h : event.Fits row)
    (hle : row.attemptNumber ≤ row'.attemptNumber)
    (hstatus : row.status = .retryWait ∨ row.status = .retriesExhausted →
      row.attemptNumber < row'.attemptNumber ∨
        row'.status = .retryWait ∨ row'.status = .retriesExhausted) : event.Fits row' := by
  obtain ⟨hbound, hkind⟩ := h
  refine ⟨hbound.trans hle, hkind.imp_right fun ⟨hpos, hkind⟩ => ⟨hpos, ?_⟩⟩
  rcases hkind with hkind | hkind | hkind | hkind
  · exact Or.inl hkind
  · exact Or.inr (Or.inl hkind)
  · exact Or.inr (Or.inr (Or.inl (lt_of_lt_of_le hkind hle)))
  · rcases hstatus hkind with hlt | hstatus
    · exact Or.inr (Or.inr (Or.inl (lt_of_le_of_lt hbound hlt)))
    · exact Or.inr (Or.inr (Or.inr hstatus))

/-- Evidence of a retry, or of an exhausted budget, fits a row that shows it. -/
theorem Event.Fits.of_evidence {event : Event} {row : JobRow Payload}
    (hbound : event.attemptNumber ≤ row.attemptNumber) (hpos : 1 ≤ event.attemptNumber)
    (hstatus : row.status = .retryWait ∨ row.status = .retriesExhausted) : event.Fits row :=
  ⟨hbound, Or.inr ⟨hpos, Or.inr (Or.inr (Or.inr hstatus))⟩⟩

/-- The last attempt of a job that is claimed or running has not failed, and the job is not
finished. -/
theorem JobStatus.of_open {status : JobStatus} (hopen : status = .claimed ∨ status = .running) :
    ¬ (status = .retryWait ∨ status = .failed ∨ status = .retriesExhausted) ∧
      status.isFinal = false := by
  rcases hopen with rfl | rfl <;> decide

/-- A step that writes no outcome and leaves the job unfinished. -/
theorem HistoryInv.advance {v v' : JobView Payload} {row row' : JobRow Payload} {added : List Event}
    (h : HistoryInv v row) (hle : row.attemptNumber ≤ row'.attemptNumber)
    (hopen : row'.status = .claimed ∨ row'.status = .running)
    (hstatus : row.status = .retryWait ∨ row.status = .retriesExhausted →
      row.attemptNumber < row'.attemptNumber)
    (hevents : v'.events = v.events ++ added) (hadded : ∀ event ∈ added, event.Fits row')
    (houtcome : ∀ n, v'.outcome? n = v.outcome? n)
    (hbefore : ∀ n, row.attemptNumber ≤ n → n < row'.attemptNumber → 1 ≤ n →
      v.outcome? n = some .failed) : HistoryInv v' row' where
  fits := by
    intro event hevent
    rw [hevents] at hevent
    rcases List.mem_append.1 hevent with hevent | hevent
    · exact (h.fits event hevent).mono hle fun hs => Or.inl (hstatus hs)
    · exact hadded event hevent
  failedBefore := by
    intro n hlow hhigh
    rw [houtcome]
    rcases Nat.lt_or_ge n row.attemptNumber with hlt | hge
    · exact h.failedBefore n hlow hlt
    · exact hbefore n hge hhigh hlow
  failedNow := fun hs => absurd hs (JobStatus.of_open hopen).1
  failedEvent := by
    intro n hn
    rw [houtcome] at hn
    obtain ⟨event, hevent, hfailed⟩ := h.failedEvent n hn
    exact ⟨event, by rw [hevents]; exact List.mem_append_left _ hevent, hfailed⟩
  concluded := by
    intro hfinal
    rw [(JobStatus.of_open hopen).2] at hfinal
    cases hfinal

/-- A step that decides the current attempt. -/
theorem HistoryInv.decide {v v' : JobView Payload} {row row' : JobRow Payload} {added : List Event}
    {outcome : Outcome} (h : HistoryInv v row) (hnumber : row'.attemptNumber = row.attemptNumber)
    (hopen : row.status = .claimed ∨ row.status = .running)
    (hevents : v'.events = v.events ++ added) (hadded : ∀ event ∈ added, event.Fits row')
    (hself : v'.outcome? row.attemptNumber = some outcome)
    (hother : ∀ n, n ≠ row.attemptNumber → v'.outcome? n = v.outcome? n)
    (hfailed : row'.status = .retryWait ∨ row'.status = .failed ∨ row'.status = .retriesExhausted →
      outcome = .failed)
    (hfailedEvent : outcome = .failed → ∃ event ∈ added,
      event.eventType = .jobExecutionFailed ∧ event.attemptNumber = row.attemptNumber)
    (hconcludes : row'.status.isFinal → ∃ event ∈ added, event.Concludes row') :
    HistoryInv v' row' where
  fits := by
    intro event hevent
    rw [hevents] at hevent
    rcases List.mem_append.1 hevent with hevent | hevent
    · exact (h.fits event hevent).mono hnumber.ge fun hs =>
        absurd (hs.imp_right Or.inr) (JobStatus.of_open hopen).1
    · exact hadded event hevent
  failedBefore := by
    intro n hlow hhigh
    rw [hnumber] at hhigh
    rw [hother n (Nat.ne_of_lt hhigh)]
    exact h.failedBefore n hlow hhigh
  failedNow := by
    intro hs
    rw [hnumber, hself, hfailed hs]
  failedEvent := by
    intro n hn
    by_cases hcurrent : n = row.attemptNumber
    · subst hcurrent
      rw [hself, Option.some_inj] at hn
      obtain ⟨event, hevent, hkind⟩ := hfailedEvent hn
      exact ⟨event, by rw [hevents]; exact List.mem_append_right _ hevent, hkind⟩
    · rw [hother n hcurrent] at hn
      obtain ⟨event, hevent, hkind⟩ := h.failedEvent n hn
      exact ⟨event, by rw [hevents]; exact List.mem_append_left _ hevent, hkind⟩
  concluded := by
    intro hfinal
    obtain ⟨event, hevent, hconcludes⟩ := hconcludes hfinal
    exact ⟨event, by rw [hevents]; exact List.mem_append_right _ hevent, hconcludes⟩

/-- The events of a failure fit the row it leaves, tell of the failure, and finish the job when the
row is finished. -/
theorem fits_failureEvents {service : SchedulerService} {job : ClaimedJob Payload}
    {failure : HandlerError} {clock : ClockReads} {events : List Event} (row : JobRow Payload)
    (h : Drafted (service.failureEvents job failure clock) events) (hpos : 1 ≤ job.attemptNumber)
    (hnumber : row.attemptNumber = job.attemptNumber)
    (hstatus : row.status = job.failureStatus failure) :
    (∀ event ∈ events, event.Fits row) ∧
      (∃ event ∈ events, event.eventType = .jobExecutionFailed ∧
        event.attemptNumber = row.attemptNumber) ∧
      (row.status.isFinal → ∃ event ∈ events, event.Concludes row) := by
  obtain ⟨eventId, rest, rfl, hrest⟩ := drafted_failureEvents h
  have hfailed : (job.failedEvent failure clock.written eventId).Fits row :=
    ⟨hnumber.ge, Or.inr ⟨hpos, Or.inr (Or.inl rfl)⟩⟩
  refine ⟨List.forall_mem_cons.2 ⟨hfailed, ?_⟩, ⟨_, List.mem_cons_self .., rfl, hnumber.symm⟩, ?_⟩
  · rcases hrest with ⟨hs, -, requestedId, acknowledgedId, rfl⟩ | ⟨hs, -, exhaustedId, rfl⟩ |
      ⟨hs, -, rfl⟩
    · intro event hevent
      simp only [List.mem_cons, List.not_mem_nil, or_false] at hevent
      rcases hevent with rfl | rfl
      · exact .of_evidence hnumber.ge hpos (Or.inl (hstatus.trans hs))
      · exact .of_evidence hnumber.ge hpos (Or.inl (hstatus.trans hs))
    · intro event hevent
      obtain rfl := List.mem_singleton.1 hevent
      exact .of_evidence hnumber.ge hpos (Or.inr (hstatus.trans hs))
    · simp
  · intro hfinal
    unfold Event.Concludes
    rcases hrest with ⟨hs, -, -⟩ | ⟨hs, -, exhaustedId, rfl⟩ | ⟨hs, hretryable, rfl⟩
    · rw [hstatus, hs] at hfinal
      cases hfinal
    · rw [hstatus, hs]
      exact ⟨_, List.mem_cons_of_mem _ (List.mem_singleton_self _), rfl⟩
    · rw [hstatus, hs]
      exact ⟨_, List.mem_singleton_self _, rfl, hnumber.symm, congrArg some hretryable⟩

/-- A job that was submitted has its two events, and no attempt. -/
theorem HistoryInv.submitted {v : JobView Payload} {value : JobSubmission Payload}
    {written : Datetime} {events : List Event} (hattempts : ∀ n, v.attempts n = none)
    (hevents : v.events = events)
    (hdrafted : Drafted [value.event .jobCreated written,
      value.event .jobSchedulerSubmissionRequested written] events) :
    HistoryInv v (value.row written) where
  fits := by
    obtain ⟨createdId, requestedId, rfl⟩ := drafted_pair hdrafted
    intro event hevent
    simp only [hevents, List.mem_cons, List.not_mem_nil, or_false] at hevent
    rcases hevent with rfl | rfl
    · exact ⟨Nat.zero_le _, Or.inl rfl⟩
    · exact ⟨Nat.zero_le _, Or.inl rfl⟩
  failedBefore := fun n _ hhigh => absurd hhigh (Nat.not_lt_zero n)
  failedNow := by
    rintro (hs | hs | hs) <;> cases hs
  failedEvent := fun n hn => by simp [JobView.outcome?, hattempts] at hn
  concluded := fun hfinal => by cases hfinal

/-- **The step lemma of the history**, for a step that takes no claim back. -/
theorem HistoryInv.step {service : SchedulerService} {clock : ClockReads} {op : Operation Payload}
    {v v' : JobView Payload} (hinv : QueueInv v) (hfence : FenceInv v)
    (h : ∀ row, v.row = some row → HistoryInv v row) (hs : JobStep service clock op v v')
    (hrecovered : v'.recovered = v.recovered) :
    ∀ row, v'.row = some row → HistoryInv v' row := by
  intro row' hrow'
  cases hs with
  | idle => exact h row' hrow'
  | @submitted value _ events hrow hevents =>
      obtain rfl := Option.some_inj.1 hrow'
      obtain ⟨hattempts, hnil, -, -⟩ := hinv.absent hrow
      exact .submitted hattempts (by simp [JobView.emit, JobView.setRow, hnil]) hevents
  | @claimed owner limit locked _ row token eventId hrow hstatus hdue hfresh =>
      obtain rfl := Option.some_inj.1 hrow'
      have hrowInv := hinv.present row hrow
      refine (h row hrow).advance (Nat.le_succ _) (Or.inl rfl) (fun _ => Nat.lt_succ_self _) rfl ?_
        (JobView.outcome?_opened hfresh rfl) ?_
      · intro event hevent
        obtain rfl := List.mem_singleton.1 hevent
        exact ⟨le_refl _, Or.inr ⟨Nat.succ_pos _, Or.inl rfl⟩⟩
      · intro n hge hlt hpos
        -- the attempt before the claimed one is the one the job was waiting after
        obtain rfl : n = row.attemptNumber := by
          have : (row.claim owner token service.lease clock.written).attemptNumber =
            row.attemptNumber + 1 := rfl
          omega
        rcases hstatus with hs | hs
        · have hzero := hrowInv.pending_iff.1 hs
          omega
        · exact (h row hrow).failedNow (Or.inl hs)
  | @started job _ row eventId hjob hrow hcur =>
      obtain rfl := Option.some_inj.1 hrow'
      obtain ⟨hopen, hpos⟩ := (hinv.present row hrow).of_isCurrent hcur
      refine (h row hrow).advance (le_refl _) (Or.inr rfl) ?_ rfl ?_
        (fun n => v.outcome?_start job.attemptNumber n clock.written) ?_
      · exact fun hs => absurd (hs.imp_right Or.inr) (JobStatus.of_open hopen).1
      · intro event hevent
        obtain rfl := List.mem_singleton.1 hevent
        exact ⟨hcur.1.ge, Or.inr ⟨le_of_le_of_eq hpos hcur.1, Or.inl rfl⟩⟩
      · intro n hge hlt
        exact absurd hlt (not_lt.2 hge)
  | @heartbeat job _ row hjob hrow hcur =>
      obtain rfl := Option.some_inj.1 hrow'
      obtain ⟨hopen, hpos⟩ := (hinv.present row hrow).of_isCurrent hcur
      refine (h row hrow).advance (le_refl _) hopen ?_ (List.append_nil _).symm (by simp)
        (fun n => rfl) ?_
      · exact fun hs => absurd (hs.imp_right Or.inr) (JobStatus.of_open hopen).1
      · intro n hge hlt
        exact absurd hlt (not_lt.2 hge)
  | @succeeded job summary _ row eventId hjob hrow hcur =>
      obtain rfl := Option.some_inj.1 hrow'
      obtain ⟨hopen, hpos⟩ := (hinv.present row hrow).of_isCurrent hcur
      obtain ⟨attempt, hattempt, -⟩ := hfence.attempt_of_isCurrent (hinv.present row hrow) hrow hcur
      refine (h row hrow).decide rfl hopen rfl ?_ (?_ : _ = some Outcome.succeeded) ?_ ?_ ?_ ?_
      · intro event hevent
        obtain rfl := List.mem_singleton.1 hevent
        exact ⟨hcur.1.ge, Or.inr ⟨le_of_le_of_eq hpos hcur.1, Or.inr (Or.inl rfl)⟩⟩
      · rw [hcur.1]
        exact JobView.outcome?_modifyAttempt_self hattempt _
      · intro n hn
        exact v.outcome?_modifyAttempt_ne (hcur.1 ▸ hn) _
      · rintro (hs | hs | hs) <;> cases hs
      · rintro hs
        cases hs
      · intro _
        exact ⟨_, List.mem_singleton_self _, rfl, hcur.1.symm⟩
  | @failed job failure _ row events hjob hrow hcur hchecks hevents =>
      obtain rfl := Option.some_inj.1 hrow'
      obtain ⟨hopen, hpos⟩ := (hinv.present row hrow).of_isCurrent hcur
      obtain ⟨attempt, hattempt, -⟩ := hfence.attempt_of_isCurrent (hinv.present row hrow) hrow hcur
      obtain ⟨hfits, hfailed, hconcludes⟩ := fits_failureEvents
        (row.release (job.failureStatus failure) (service.availableAfter job failure clock)
          clock.written) hevents (hcur.1 ▸ hpos) hcur.1 rfl
      refine (h row hrow).decide rfl hopen rfl hfits (?_ : _ = some Outcome.failed) ?_ ?_ ?_
        hconcludes
      · rw [hcur.1]
        exact JobView.outcome?_modifyAttempt_self hattempt _
      · intro n hn
        exact v.outcome?_modifyAttempt_ne (hcur.1 ▸ hn) _
      · exact fun _ => rfl
      · exact fun _ => hfailed
  | @recovered limit locked _ row hrow hstatus hexpired =>
      exact absurd hrecovered (by simp)

/-- **The history of a job** in every reachable state in which none of its claims was taken
back. -/
theorem HistoryInv.of_reachable [DecidableEq Payload] {service : SchedulerService}
    {w : World Payload} (h : (schedulerMachine service).Reachable w) (jobId : String)
    (hrecovered : (w.view jobId).recovered = []) :
    ∀ row, (w.view jobId).row = some row → HistoryInv (w.view jobId) row := by
  induction h with
  | start =>
      intro row hrow
      cases hrow
  | step hs _ hn ih =>
      have hstep := view_step hn jobId
      have hbefore := hstep.recovered_eq hrecovered
      exact HistoryInv.step (QueueInv.of_reachable hs jobId) (FenceInv.of_reachable hs jobId)
        (ih hbefore) hstep (hrecovered.trans hbefore.symm)

end ScheduledJobs
