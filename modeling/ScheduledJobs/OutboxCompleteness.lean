/-
**The transactional outbox.**

A transaction that changes the status of a job should insert an event that records the change, so
that what is projected from the outbox keeps up with the queue.  Every operation does, but one: a
recovered claim goes back to the queue, or exhausts its job, without a trace in the outbox.

Main definitions:

* `JobStatus.evidence` — the event types that record a status;
* `World.newEvents` — the events a step inserts;
* `OutboxComplete` — **every status change of a step is recorded by it**;
* `RecoversClaim` — the step takes an expired claim back.

Main results:

* `perform_events` — the outbox only grows;
* `outboxComplete_iff` — **a step records its changes exactly when it takes no claim back**.
-/

import ScheduledJobs.QueueConstraints

set_option relaxedAutoImplicit false
set_option autoImplicit false

namespace ScheduledJobs

variable {Payload : Type}

/-! ### What a transaction should record -/

/-- The event types that record that a job has come to a status. -/
def JobStatus.evidence : JobStatus → List EventType
  | pending => [.jobCreated, .jobSchedulerSubmissionRequested]
  | claimed => [.jobSchedulerItemRetrieved]
  | running => [.jobExecutionStarted]
  | retryWait => [.jobRetryRequested, .jobRetryAcknowledged]
  | succeeded => [.jobExecutionSucceeded]
  | failed => [.jobExecutionFailed]
  | retriesExhausted => [.jobRetriesExhausted]

/-- The events a step inserts: those beyond the ones that were there. -/
def World.newEvents (w w' : World Payload) : List Event :=
  w'.db.events.drop w.db.events.length

/-- The status of a job, if it was submitted. -/
def World.status? (w : World Payload) (jobId : String) : Option JobStatus :=
  (w.db.jobs.find? jobId).map JobRow.status

/-- The step inserts an event that records the job's row. -/
def Recorded (w w' : World Payload) (row : JobRow Payload) : Prop :=
  ∃ event ∈ w.newEvents w', event.jobId = row.jobId ∧
    event.attemptNumber = row.attemptNumber ∧ event.eventType ∈ row.status.evidence

/-- **Every status change of a step is recorded by it**, and a transaction that fails leaves the
database as it was. -/
structure OutboxComplete [DecidableEq Payload] (service : SchedulerService) (w : World Payload)
    (l : Label Payload) (w' : World Payload) : Prop where
  recorded : ∀ row ∈ w'.db.jobs.rows, w.status? row.jobId ≠ some row.status → Recorded w w' row
  rollback : l.committed = false ∨ (∃ e, service.perform w.db l.clock l.operation = .error e) →
    w'.db = w.db

/-- The step commits a recovery that finds an expired claim to take back. -/
def RecoversClaim (w : World Payload) (l : Label Payload) : Prop :=
  l.committed = true ∧ ∃ limit locked, l.operation = .recoverExpiredClaims limit locked ∧
    (w.db.expired locked l.clock.checked).take limit.toNat ≠ []

/-! ### The outbox only grows -/

theorem addEvents_grows {service : SchedulerService} {db db₁ db' : Db Payload}
    {drafts : List (String → Event)} (h : service.addEvents db₁ drafts = .ok db')
    (hbase : db₁.events = db.events) :
    ∃ added, db'.events = db.events ++ added := by
  obtain ⟨-, -, events, -, hevents⟩ := addEvents_eq_ok h
  exact ⟨events, by rw [hevents, hbase]⟩

theorem recordClaims_grows {service : SchedulerService} {owner : String} {written : Datetime}
    {claimed : List (ClaimedJob Payload)} {db db' : Db Payload}
    (h : claimed.foldlM (service.recordClaim owner written) db = .ok db') :
    ∃ added, db'.events = db.events ++ added := by
  induction claimed generalizing db with
  | nil =>
      cases h
      exact ⟨[], (List.append_nil _).symm⟩
  | cons job claimed ih =>
      rw [List.foldlM_cons, Except.bind_eq_ok_iff] at h
      obtain ⟨db₁, h₁, h⟩ := h
      obtain ⟨-, -, -, eventId, hevent⟩ := recordClaim_eq_ok h₁
      obtain ⟨added, hadded⟩ := ih h
      exact ⟨_, by rw [hadded, hevent, List.append_assoc]⟩

/-- What an operation on a claim does to the outbox. -/
theorem fenced_grows {service : SchedulerService} {db db₁ db' : Db Payload}
    {job : ClaimedJob Payload} {now : Datetime} {assign : JobRow Payload → JobRow Payload}
    {assignAttempt : AttemptRow Payload → AttemptRow Payload} {drafts : List (String → Event)}
    (hfence : db.fencedUpdate job now assign = .ok db₁)
    (hadd : service.addEvents (db₁.modifyAttempt (job.jobId, job.attemptNumber) assignAttempt)
      drafts = .ok db') (hkey : ∀ row, (assign row).jobId = row.jobId) :
    ∃ added, db'.events = db.events ++ added := by
  obtain ⟨_, -, -, -, -, hout, -⟩ := fencedUpdate_eq_ok hfence hkey
  refine addEvents_grows hadd ?_
  simp only [Db.events, Db.outbox_modifyAttempt, hout]

/-- **The outbox only grows.** -/
theorem perform_events [DecidableEq Payload] {service : SchedulerService} {db : Db Payload}
    {clock : ClockReads} {op : Operation Payload} {effect : Effect Payload}
    (h : service.perform db clock op = .ok effect) :
    ∃ added, effect.db.events = db.events ++ added := by
  cases op with
  | submitChecked value =>
      simp only [SchedulerService.perform, Except.bind_eq_ok_iff] at h
      obtain ⟨result, hresult, heffect⟩ := h
      cases heffect
      unfold SchedulerService.submitChecked at hresult
      split at hresult
      · split at hresult
        · cases hresult
          exact ⟨[], (List.append_nil _).symm⟩
        · cases hresult
        · simp only [Except.bind_eq_ok_iff] at hresult
          obtain ⟨db', hadd, hresult⟩ := hresult
          cases hresult
          exact addEvents_grows hadd rfl
      · cases hresult
  | claimDue owner limit locked =>
      simp only [SchedulerService.perform, Except.bind_eq_ok_iff] at h
      obtain ⟨result, hresult, heffect⟩ := h
      cases heffect
      unfold SchedulerService.claimDue at hresult
      split at hresult
      · cases hresult
        exact ⟨[], (List.append_nil _).symm⟩
      · simp only [Except.bind_eq_ok_iff] at hresult
        obtain ⟨db₁, hupdate, db₂, hrecord, hresult⟩ := hresult
        cases hresult
        obtain ⟨-, rfl⟩ := Db.updateJobs_eq_ok_iff.1 hupdate
        obtain ⟨added, hadded⟩ := recordClaims_grows hrecord
        exact ⟨added, hadded⟩
  | recoverExpiredClaims limit locked =>
      simp only [SchedulerService.perform, Except.bind_eq_ok_iff] at h
      obtain ⟨result, hresult, heffect⟩ := h
      cases heffect
      unfold Db.recoverExpiredClaims at hresult
      split at hresult
      · cases hresult
      · simp only [Except.bind_eq_ok_iff] at hresult
        obtain ⟨db₁, hupdate, hresult⟩ := hresult
        cases hresult
        obtain ⟨-, rfl⟩ := Db.updateJobs_eq_ok_iff.1 hupdate
        exact ⟨[], (List.append_nil _).symm⟩
  | start job =>
      simp only [SchedulerService.perform, SchedulerService.start, Except.bind_eq_ok_iff] at h
      obtain ⟨db', ⟨db₁, hfence, hadd⟩, heffect⟩ := h
      cases heffect
      rw [← addEvents_singleton] at hadd
      exact fenced_grows hfence hadd fun _ => rfl
  | heartbeat job =>
      simp only [SchedulerService.perform, SchedulerService.heartbeat, Except.bind_eq_ok_iff] at h
      obtain ⟨db', hfence, heffect⟩ := h
      cases heffect
      obtain ⟨_, -, -, -, -, hout, -⟩ := fencedUpdate_eq_ok hfence fun _ => rfl
      exact ⟨[], by simp [Db.events, hout]⟩
  | succeed job summary =>
      simp only [SchedulerService.perform, SchedulerService.succeed, Except.bind_eq_ok_iff] at h
      obtain ⟨db', ⟨db₁, hfence, hadd⟩, heffect⟩ := h
      cases heffect
      rw [← addEvents_singleton] at hadd
      exact fenced_grows hfence hadd fun _ => rfl
  | fail job failure =>
      simp only [SchedulerService.perform, SchedulerService.fail, Except.bind_eq_ok_iff] at h
      obtain ⟨db', ⟨db₁, hfence, hadd⟩, heffect⟩ := h
      cases heffect
      exact fenced_grows hfence hadd fun _ => rfl

variable [DecidableEq Payload] {service : SchedulerService} {w w' : World Payload}
  {l : Label Payload}

theorem events_of_next (h : w.next service l = some w') :
    w'.db.events = w.db.events ++ w.newEvents w' := by
  obtain ⟨added, hadded⟩ : ∃ added, w'.db.events = w.db.events ++ added := by
    obtain ⟨-, -, ⟨effect, -, hperform, rfl⟩ | ⟨-, rfl⟩⟩ := World.next_cases h
    · exact perform_events hperform
    · exact ⟨[], (List.append_nil _).symm⟩
  rw [World.newEvents, hadded, List.drop_left]

/-- An event that a step adds to a job is one of those it inserts. -/
theorem mem_newEvents (h : w.next service l = some w') {jobId : String} {added : List Event}
    (hadded : (w'.view jobId).events = (w.view jobId).events ++ added) {event : Event}
    (hevent : event ∈ added) : event ∈ w.newEvents w' ∧ event.jobId = jobId := by
  have hview : (w'.view jobId).events =
      (w.view jobId).events ++ eventsOf jobId (w.newEvents w') := by
    simp only [World.view, events_of_next h, eventsOf_append]
  rw [List.append_cancel_left (hadded.symm.trans hview), eventsOf, List.mem_filter] at hevent
  exact ⟨hevent.1, by simpa using hevent.2⟩

/-! ### Which steps are complete -/

/-- A recovery that finds no expired claim leaves the database as it was. -/
theorem db_of_no_recovery {limit : ℤ} {locked : List String}
    (hop : l.operation = .recoverExpiredClaims limit locked) (h : w.next service l = some w')
    (hno : ¬ RecoversClaim w l) : w'.db = w.db := by
  obtain ⟨-, -, ⟨effect, hcommitted, hperform, rfl⟩ | ⟨-, rfl⟩⟩ := World.next_cases h
  swap
  · rfl
  have hnil : (w.db.expired locked l.clock.checked).take limit.toNat = [] := by
    by_contra hne
    exact hno ⟨hcommitted, limit, locked, hop, hne⟩
  rw [hop] at hperform
  simp only [SchedulerService.perform, Except.bind_eq_ok_iff] at hperform
  obtain ⟨result, hresult, heffect⟩ := hperform
  cases heffect
  unfold Db.recoverExpiredClaims at hresult
  split at hresult
  · cases hresult
  · simp only [Except.bind_eq_ok_iff, hnil, List.map_nil] at hresult
    obtain ⟨db₁, hupdate, hresult⟩ := hresult
    cases hresult
    obtain ⟨-, rfl⟩ := Db.updateJobs_eq_ok_iff.1 hupdate
    rfl

omit [DecidableEq Payload] in
/-- **The events of a failure record the status it leaves.** -/
theorem failureEvents_evidence {job : ClaimedJob Payload} {failure : HandlerError}
    {clock : ClockReads} {events : List Event}
    (h : Drafted (service.failureEvents job failure clock) events) :
    ∃ event ∈ events, event.attemptNumber = job.attemptNumber ∧
      event.eventType ∈ (job.failureStatus failure).evidence := by
  obtain ⟨eventId, rest, rfl, ⟨hstatus, -, requestedId, acknowledgedId, rfl⟩ |
    ⟨hstatus, -, exhaustedId, rfl⟩ | ⟨hstatus, -, rfl⟩⟩ := drafted_failureEvents h
  · rw [hstatus]
    exact ⟨job.retryRequestedEvent clock.written requestedId, by simp, rfl,
      by simp [JobStatus.evidence, ClaimedJob.retryRequestedEvent, ClaimedJob.event]⟩
  · rw [hstatus]
    exact ⟨job.exhaustedEvent clock.written exhaustedId, by simp, rfl,
      by simp [JobStatus.evidence, ClaimedJob.exhaustedEvent, ClaimedJob.event]⟩
  · rw [hstatus]
    exact ⟨_, List.mem_singleton_self _, rfl,
      by simp [JobStatus.evidence, ClaimedJob.failedEvent, ClaimedJob.event]⟩

omit [DecidableEq Payload] in
/-- Every step of a job but a recovery records the status it leaves, when it changes it. -/
theorem JobStep.recorded {clock : ClockReads} {op : Operation Payload} {v v' : JobView Payload}
    (hs : JobStep service clock op v v')
    (hop : ∀ limit locked, op ≠ .recoverExpiredClaims limit locked) {row : JobRow Payload}
    (hrow : v'.row = some row) (hchanged : v.row.map JobRow.status ≠ some row.status) :
    ∃ added event, v'.events = v.events ++ added ∧ event ∈ added ∧
      event.attemptNumber = row.attemptNumber ∧ event.eventType ∈ row.status.evidence := by
  cases hs with
  | idle =>
      rw [hrow] at hchanged
      exact absurd rfl hchanged
  | submitted _ hevents =>
      obtain rfl := Option.some_inj.1 hrow
      obtain ⟨_, _, ⟨createdId, rfl⟩, -, rfl⟩ := List.forall₂_cons_left_iff.1 hevents
      exact ⟨_, _, rfl, List.mem_cons_self .., rfl,
        by simp [JobStatus.evidence, JobSubmission.event, JobSubmission.row]⟩
  | claimed hold hstatus =>
      obtain rfl := Option.some_inj.1 hrow
      exact ⟨_, _, rfl, List.mem_singleton_self _, rfl,
        by simp [JobStatus.evidence, SchedulerService.retrievedEvent, ClaimedJob.event,
          JobRow.claim]⟩
  | started _ hold hcur =>
      obtain rfl := Option.some_inj.1 hrow
      exact ⟨_, _, rfl, List.mem_singleton_self _, hcur.1.symm,
        by simp [JobStatus.evidence, ClaimedJob.event, JobRow.start]⟩
  | heartbeat _ hold hcur =>
      obtain rfl := Option.some_inj.1 hrow
      rw [hold] at hchanged
      exact absurd rfl hchanged
  | succeeded _ hold hcur =>
      obtain rfl := Option.some_inj.1 hrow
      exact ⟨_, _, rfl, List.mem_singleton_self _, hcur.1.symm,
        by simp [JobStatus.evidence, ClaimedJob.event, JobRow.release]⟩
  | failed _ hold hcur _ hevents =>
      obtain rfl := Option.some_inj.1 hrow
      obtain ⟨event, hevent, hnumber, htype⟩ := failureEvents_evidence hevents
      exact ⟨_, event, rfl, hevent, hnumber.trans hcur.1.symm, htype⟩
  | recovered => exact absurd rfl (hop _ _)

/-- A recovery that commits succeeds, whatever the delays between retries are. -/
theorem perform_recovery {clock : ClockReads} (hw : (schedulerMachine service).Reachable w)
    (hnow : w.clock ≤ clock.now) {limit : ℤ} (hlimit : 0 ≤ limit) (locked : List String) :
    ∃ effect, service.perform w.db clock (.recoverExpiredClaims limit locked) = .ok effect ∧
      effect.db.outbox = w.db.outbox ∧
      effect.db.jobs = w.db.jobs.replaceAll
        (((w.db.expired locked clock.checked).take limit.toNat).map
          fun row => row.recover clock.written) := by
  generalize hexpired : (w.db.expired locked clock.checked).take limit.toNat = expired
  have hchecks : ∀ row ∈ expired.map (fun row => row.recover clock.written),
      row.checks = true := by
    intro row hrow
    obtain ⟨old, hold, rfl⟩ := List.mem_map.1 hrow
    obtain ⟨hrows, hstatus, -⟩ := mem_expired (hexpired ▸ hold)
    have hfind : (w.view old.jobId).row = some old := Table.find?_of_mem hrows
    have hinv := (QueueInv.of_reachable hw old.jobId).present old hfind
    have hav := AvailableInv.of_reachable hw old.jobId
    refine hinv.checks_release _ _ ((hav.scheduled old hfind).trans ?_)
    exact (hav.claimed old hfind (hinv.claimed_iff.1 hstatus)).trans
      (hnow.trans clock.now_le_written)
  have hnonneg : ¬ limit < 0 := not_lt.2 hlimit
  let jobs := w.db.jobs.replaceAll (expired.map fun row => row.recover clock.written)
  refine ⟨⟨{ w.db with jobs := jobs }, [], expired.map fun row => (row.jobId, row.attemptNumber)⟩,
    ?_, rfl, rfl⟩
  have hupdate : w.db.updateJobs (expired.map fun row => row.recover clock.written) =
      .ok { w.db with jobs := jobs } := Db.updateJobs_eq_ok_iff.2 ⟨hchecks, rfl⟩
  simp only [SchedulerService.perform, Db.recoverExpiredClaims, if_neg hnonneg, hexpired, hupdate]
  rfl

/-- **A claim that is taken back** leaves its row without the claim, and no event. -/
theorem recover_of_next (hw : (schedulerMachine service).Reachable w)
    (h : w.next service l = some w') (hcommitted : l.committed = true) {limit : ℤ}
    {locked : List String} (hop : l.operation = .recoverExpiredClaims limit locked)
    {row : JobRow Payload}
    (hrow : row ∈ (w.db.expired locked l.clock.checked).take limit.toNat) :
    w'.db.outbox = w.db.outbox ∧
      w'.db.jobs.find? row.jobId = some (row.recover l.clock.written) := by
  have hlimit : 0 ≤ limit := by
    by_contra hneg
    have hzero : limit.toNat = 0 := Int.toNat_of_nonpos (not_le.1 hneg).le
    rw [hzero, List.take_zero] at hrow
    cases hrow
  obtain ⟨effect, hperform, hout, hjobs⟩ := perform_recovery hw (World.next_cases h).1 hlimit locked
  have hw' : w' = w.commit l.clock effect := by
    obtain ⟨-, -, ⟨effect', -, hperform', rfl⟩ | ⟨herror, -⟩⟩ := World.next_cases h
    · rw [hop, hperform] at hperform'
      cases hperform'
      rfl
    · obtain ⟨e, he⟩ := herror hcommitted
      rw [hop, hperform] at he
      cases he
  subst hw'
  refine ⟨hout, ?_⟩
  have hnodup : ((((w.db.expired locked l.clock.checked).take limit.toNat).map
      fun row => row.recover l.clock.written).map JobRow.jobId).Nodup := by
    have hnodup := w.db.jobs.nodup_selection (fun row =>
      (row.status = .claimed || row.status = .running) &&
        row.claimExpiresAt.any (fun expires => expires < l.clock.checked) &&
          decide (row.jobId ∉ locked)) (fun a b => a.claimExpiresAt.getD 0 ≤
            b.claimExpiresAt.getD 0) limit.toNat
    rw [List.map_map]
    exact hnodup
  change effect.db.jobs.find? _ = _
  rw [hjobs]
  refine Table.find?_replaceAll_of_mem hnodup (List.mem_map_of_mem hrow) ?_
  change w.db.jobs.find? row.jobId ≠ none
  rw [Table.find?_of_mem (mem_expired hrow).1]
  simp

/-- **A step records its status changes exactly when it takes no claim back**, in every reachable
state, for every operation and every outcome of its transaction. -/
theorem outboxComplete_iff (hw : (schedulerMachine service).Reachable w)
    (h : w.next service l = some w') :
    OutboxComplete service w l w' ↔ ¬ RecoversClaim w l := by
  constructor
  · -- the first row that is taken back changes its status, and no event is inserted
    rintro hcomplete ⟨hcommitted, limit, locked, hop, hne⟩
    obtain ⟨row, hrow⟩ := List.exists_mem_of_ne_nil _ hne
    obtain ⟨hout, hfind⟩ := recover_of_next hw h hcommitted hop hrow
    obtain ⟨hrows, hstatus, -⟩ := mem_expired hrow
    have hold : w.db.jobs.find? row.jobId = some row := Table.find?_of_mem hrows
    have hchanged : w.status? (row.recover l.clock.written).jobId ≠
        some (row.recover l.clock.written).status := by
      change (w.db.jobs.find? row.jobId).map JobRow.status ≠ _
      rw [hold, Option.map_some, Ne, Option.some_inj]
      simp only [JobRow.recover, JobRow.release]
      rcases hstatus with hs | hs
      · rw [hs]
        split <;> decide
      · rw [hs]
        split <;> decide
    obtain ⟨event, hevent, -⟩ := hcomplete.recorded _ (Table.mem_of_find? hfind) hchanged
    have hnil : w.newEvents w' = [] := by
      simp [World.newEvents, hout, Db.events]
    rw [hnil] at hevent
    cases hevent
  · intro hno
    constructor
    · intro row hrow hchanged
      have hfind : (w'.view row.jobId).row = some row := Table.find?_of_mem hrow
      by_cases hop : ∃ limit locked, l.operation = .recoverExpiredClaims limit locked
      · obtain ⟨limit, locked, hop⟩ := hop
        rw [World.status?, ← db_of_no_recovery hop h hno] at hchanged
        exact absurd (congrArg (Option.map JobRow.status) hfind) hchanged
      · have hother : ∀ limit locked, l.operation ≠ .recoverExpiredClaims limit locked :=
          fun limit locked heq => hop ⟨limit, locked, heq⟩
        obtain ⟨added, event, hadded, hevent, hnumber, htype⟩ :=
          (view_step h row.jobId).recorded hother hfind hchanged
        obtain ⟨hnew, hid⟩ := mem_newEvents h hadded hevent
        exact ⟨event, hnew, hid, hnumber, htype⟩
    · intro hfailed
      obtain ⟨-, -, ⟨effect, hcommitted, hperform, rfl⟩ | ⟨-, rfl⟩⟩ := World.next_cases h
      · rcases hfailed with hfailed | ⟨e, he⟩
        · rw [hcommitted] at hfailed
          cases hfailed
        · rw [hperform] at he
          cases he
      · rfl

/-- A failure records the status it leaves: the fourth step of the run. -/
theorem outboxComplete_failure :
    ∃ w l w', (schedulerMachine defaultService).run (schedulerMachine defaultService).start
        (exhaustedRun.take 3) = some w ∧
      w.next defaultService l = some w' ∧ w'.status? "job-1" = some .retryWait ∧
      OutboxComplete defaultService w l w' := by
  refine ⟨_, ⟨.fail (twoAttemptsClaim 1 2 (seconds 10)) ⟨"TIMEOUT", true⟩,
    .instant (seconds 12), true⟩, _, rfl, rfl, by decide, ?_⟩
  refine (outboxComplete_iff (Machine.Reachable.of_run Machine.Reachable.start
    (exhaustedRun.take 3) rfl) rfl).2 ?_
  rintro ⟨-, limit, locked, hop, -⟩
  cases hop

/-- **A recovered claim leaves no trace in the outbox**: the lease of the second attempt expires,
its job runs out of retries, and no event says so. -/
theorem not_outboxComplete_recovery :
    ¬ ∀ (w : World String) (l : Label String) (w' : World String),
      (schedulerMachine defaultService).Reachable w → w.next defaultService l = some w' →
        OutboxComplete defaultService w l w' := by
  intro h
  let l : Label String := ⟨.recoverExpiredClaims 100 [], .instant (seconds 100), true⟩
  have hrun : ((schedulerMachine defaultService).run (schedulerMachine defaultService).start
      (exhaustedRun.take 5)).bind (fun w => (w.next defaultService l).map fun w' =>
        ((w.newEvents w').length, w'.db.jobs.rows.map fun row =>
          (w.status? row.jobId, row.status))) =
      some (0, [(some .claimed, .retriesExhausted)]) := by decide
  obtain ⟨w, hw, hstep⟩ := Option.bind_eq_some_iff.1 hrun
  obtain ⟨w', hn, hresult⟩ := Option.map_eq_some_iff.1 hstep
  obtain ⟨hnew, hrows⟩ := Prod.mk.inj hresult
  have hcomplete := h w l w' (Machine.Reachable.of_run Machine.Reachable.start _ hw) hn
  have hmem : (some JobStatus.claimed, JobStatus.retriesExhausted) ∈
      w'.db.jobs.rows.map fun row => (w.status? row.jobId, row.status) := by
    rw [hrows]
    exact List.mem_singleton_self _
  obtain ⟨row, hrow, hstatus⟩ := List.mem_map.1 hmem
  obtain ⟨hbefore, hafter⟩ := Prod.mk.inj hstatus
  obtain ⟨event, hevent, -⟩ := hcomplete.recorded row hrow (by rw [hbefore, hafter]; decide)
  rw [List.length_eq_zero_iff.1 hnew] at hevent
  cases hevent

end ScheduledJobs
