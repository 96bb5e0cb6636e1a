/-
**What the scheduler's statements do.**

One lemma for each statement of `ScheduledJobs/SchedulerService.lean`, saying what a successful
execution leaves behind.  Operations are taken apart with `bind_eq_ok_iff`, and nothing after this
module unfolds a statement again.

Main definitions:

* `Db.events` — the events in the outbox, in the order in which they were inserted;
* `Drafted` — events that come from drafts by drawing ids.

Main results:

* `Db.updateJobs_eq_ok_iff`, `Db.insertAttempt_eq_ok_iff`, `Db.find?_modifyAttempt` — the tables of
  jobs and attempts;
* `addEvent_eq_ok`, `addEvents_eq_ok` — the outbox;
* `fencedUpdate_eq_ok`, `fencedUpdate_stale` — the fence;
* `recordClaims_eq_ok` — the attempts and events of a claimed batch.
-/

import ScheduledJobs.Fallible
import ScheduledJobs.SchedulerService

set_option relaxedAutoImplicit false
set_option autoImplicit false

namespace ScheduledJobs

variable {Payload : Type}

/-! ### Jobs and attempts -/

/-- The constraints of a row. -/
theorem JobRow.checks_iff (row : JobRow Payload) :
    row.checks = true ↔ row.payload.isNone ≠ row.payloadReference.isNone ∧
      row.claimToken.isNone = row.claimedBy.isNone ∧ row.scheduledAt ≤ row.availableAt ∧
        row.claimToken.isNone = row.claimExpiresAt.isNone := by
  simp only [checks, Bool.and_eq_true, bne_iff_ne, beq_iff_eq, decide_eq_true_eq, and_assoc]

theorem Db.updateJobs_eq_ok_iff {db db' : Db Payload} {rows : List (JobRow Payload)} :
    db.updateJobs rows = .ok db' ↔
      (∀ row ∈ rows, row.checks = true) ∧ db' = { db with jobs := db.jobs.replaceAll rows } := by
  unfold updateJobs
  split
  · next h =>
      have hall : ∀ row ∈ rows, row.checks = true := by simpa using h
      simp only [Except.ok.injEq]
      constructor
      · rintro rfl
        exact ⟨hall, rfl⟩
      · rintro ⟨-, rfl⟩
        rfl
  · next h =>
      have hnot : ¬ ∀ row ∈ rows, row.checks = true := by simpa using h
      simp [hnot]

theorem Db.insertAttempt_eq_ok_iff {db db' : Db Payload} {row : AttemptRow Payload} :
    db.insertAttempt row = .ok db' ↔
      row.checks = true ∧
        ∃ attempts, db.attempts.insert? row = some attempts ∧
          db' = { db with attempts := attempts } := by
  unfold insertAttempt
  split
  · next hc =>
      cases hi : db.attempts.insert? row with
      | none => simp
      | some attempts => simp [hc, eq_comm]
  · next hc => simp [hc]

/-- Reading the attempts after one was modified by an assignment that keeps the key. -/
theorem Db.find?_modifyAttempt {db : Db Payload} {key : String × ℕ}
    {assign : AttemptRow Payload → AttemptRow Payload}
    (hkey : ∀ row, (assign row).key = row.key) (k : String × ℕ) :
    (db.modifyAttempt key assign).attempts.find? k =
      if k = key then (db.attempts.find? key).map assign else db.attempts.find? k := by
  unfold modifyAttempt
  cases h : db.attempts.find? key with
  | none =>
      dsimp only
      split
      · next hk => rw [hk, h, Option.map_none]
      · rfl
  | some row =>
      have hrow : (assign row).key = key := (hkey row).trans (Table.key_of_find? h)
      have hold : db.attempts.find? (assign row).key = some row := by rw [hrow, h]
      simp only [Table.find?_replace_of_find? hold, hrow, Option.map_some]

@[simp] theorem Db.jobs_modifyAttempt (db : Db Payload) (key : String × ℕ)
    (assign : AttemptRow Payload → AttemptRow Payload) :
    (db.modifyAttempt key assign).jobs = db.jobs := by
  unfold modifyAttempt
  split <;> rfl

@[simp] theorem Db.outbox_modifyAttempt (db : Db Payload) (key : String × ℕ)
    (assign : AttemptRow Payload → AttemptRow Payload) :
    (db.modifyAttempt key assign).outbox = db.outbox := by
  unfold modifyAttempt
  split <;> rfl

@[simp] theorem Db.draws_modifyAttempt (db : Db Payload) (key : String × ℕ)
    (assign : AttemptRow Payload → AttemptRow Payload) :
    (db.modifyAttempt key assign).draws = db.draws := by
  unfold modifyAttempt
  split <;> rfl

/-! ### The outbox -/

/-- The events in the outbox, in the order in which they were inserted. -/
def Db.events (db : Db Payload) : List Event := db.outbox.rows.map OutboxRow.event

/-- They all have a canonical payload. -/
theorem Db.encodable_of_mem_events {db : Db Payload} {event : Event} (h : event ∈ db.events) :
    event.Encodable := by
  obtain ⟨row, -, rfl⟩ := List.mem_map.1 h
  exact row.encodable

/-- The events come from the drafts by drawing an id for each. -/
def Drafted (drafts : List (String → Event)) (events : List Event) : Prop :=
  List.Forall₂ (fun draft event => ∃ eventId, event = draft eventId) drafts events

theorem drafted_singleton {draft : String → Event} {events : List Event}
    (h : Drafted [draft] events) : ∃ eventId, events = [draft eventId] := by
  obtain ⟨_, _, ⟨eventId, rfl⟩, hnil, rfl⟩ := List.forall₂_cons_left_iff.1 h
  cases hnil
  exact ⟨eventId, rfl⟩

theorem drafted_pair {first second : String → Event} {events : List Event}
    (h : Drafted [first, second] events) :
    ∃ firstId secondId, events = [first firstId, second secondId] := by
  obtain ⟨_, _, ⟨firstId, rfl⟩, htail, rfl⟩ := List.forall₂_cons_left_iff.1 h
  obtain ⟨secondId, rfl⟩ := drafted_singleton htail
  exact ⟨firstId, secondId, rfl⟩

/-- The event of a success, but for its id. -/
def ClaimedJob.succeededEvent (job : ClaimedJob Payload) (written : Datetime) (eventId : String) :
    Event :=
  { job.event .jobExecutionSucceeded written eventId with resultCode := some "SUCCESS" }

/-- The event of a failure, but for its id. -/
def ClaimedJob.failedEvent (job : ClaimedJob Payload) (failure : HandlerError) (written : Datetime)
    (eventId : String) : Event :=
  { job.event .jobExecutionFailed written eventId with
    retryable := some failure.retryable, errorCode := some failure.code }

/-- The request for a retry, but for its id. -/
def ClaimedJob.retryRequestedEvent (job : ClaimedJob Payload) (written : Datetime)
    (eventId : String) : Event :=
  { job.event .jobRetryRequested written eventId with retryable := some true }

/-- Its acknowledgement, with the time of the next attempt. -/
def ClaimedJob.retryAcknowledgedEvent (job : ClaimedJob Payload) (nextRetryAt written : Datetime)
    (eventId : String) : Event :=
  { job.event .jobRetryAcknowledged written eventId with
    retryable := some true, nextRetryAt := some nextRetryAt }

/-- The event of a job that is out of attempts, but for its id. -/
def ClaimedJob.exhaustedEvent (job : ClaimedJob Payload) (written : Datetime) (eventId : String) :
    Event :=
  { job.event .jobRetriesExhausted written eventId with retryable := some false }

/-- **The events of a failure**, by the status it leaves: the failure, and then the evidence of a
retry, of the exhausted budget, or nothing. -/
theorem drafted_failureEvents {service : SchedulerService} {job : ClaimedJob Payload}
    {failure : HandlerError} {clock : ClockReads} {events : List Event}
    (h : Drafted (service.failureEvents job failure clock) events) :
    ∃ eventId rest, events = job.failedEvent failure clock.written eventId :: rest ∧
      ((job.failureStatus failure = .retryWait ∧ failure.retryable = true ∧
          ∃ requestedId acknowledgedId, rest =
            [job.retryRequestedEvent clock.written requestedId,
              job.retryAcknowledgedEvent (service.availableAfter job failure clock) clock.written
                acknowledgedId]) ∨
        (job.failureStatus failure = .retriesExhausted ∧ failure.retryable = true ∧
          ∃ exhaustedId, rest = [job.exhaustedEvent clock.written exhaustedId]) ∨
        (job.failureStatus failure = .failed ∧ failure.retryable = false ∧ rest = [])) := by
  unfold SchedulerService.failureEvents at h
  obtain ⟨_, rest, ⟨eventId, rfl⟩, hrest, rfl⟩ := List.forall₂_cons_left_iff.1 h
  refine ⟨eventId, rest, rfl, ?_⟩
  unfold ClaimedJob.failureStatus
  split at hrest
  · next hretries =>
      have hretryable : failure.retryable = true := by
        simp only [ClaimedJob.retries, Bool.and_eq_true] at hretries
        exact hretries.1
      obtain ⟨requestedId, acknowledgedId, rfl⟩ := drafted_pair hrest
      exact Or.inl ⟨if_pos hretries, hretryable, requestedId, acknowledgedId, rfl⟩
  · next hretries =>
      rw [if_neg hretries]
      split at hrest
      · next hretryable =>
          obtain ⟨exhaustedId, rfl⟩ := drafted_singleton hrest
          exact Or.inr (Or.inl ⟨if_pos hretryable, hretryable, exhaustedId, rfl⟩)
      · next hretryable =>
          cases hrest
          exact Or.inr (Or.inr ⟨if_neg hretryable, by simpa using hretryable, rfl⟩)

theorem addEvent_eq_ok {service : SchedulerService} {db db' : Db Payload}
    {draft : String → Event} (h : service.addEvent db draft = .ok db') :
    db'.jobs = db.jobs ∧ db'.attempts = db.attempts ∧ db'.draws = db.draws + 1 ∧
      ∃ row : OutboxRow, row.event = draft (service.uuid db.draws) ∧
        db'.outbox.rows = db.outbox.rows ++ [row] := by
  unfold SchedulerService.addEvent at h
  split at h
  · split at h
    · next outbox hins =>
        cases h
        exact ⟨rfl, rfl, rfl, _, rfl, (Table.insert?_eq_some_iff.1 hins).2⟩
    · cases h
  · cases h

/-- **Several events enter the outbox in order**, and nothing else changes. -/
theorem addEvents_eq_ok {service : SchedulerService} {drafts : List (String → Event)}
    {db db' : Db Payload} (h : service.addEvents db drafts = .ok db') :
    db'.jobs = db.jobs ∧ db'.attempts = db.attempts ∧
      ∃ events, Drafted drafts events ∧ db'.events = db.events ++ events := by
  unfold SchedulerService.addEvents at h
  induction drafts generalizing db with
  | nil =>
      cases h
      exact ⟨rfl, rfl, [], .nil, (List.append_nil _).symm⟩
  | cons draft drafts ih =>
      rw [List.foldlM_cons, Except.bind_eq_ok_iff] at h
      obtain ⟨db₁, h₁, h⟩ := h
      obtain ⟨hjobs, hattempts, -, row, hrow, hrows⟩ := addEvent_eq_ok h₁
      obtain ⟨hjobs', hattempts', events, hdrafted, hevents⟩ := ih h
      refine ⟨hjobs'.trans hjobs, hattempts'.trans hattempts,
        draft (service.uuid db.draws) :: events, .cons ⟨_, rfl⟩ hdrafted, ?_⟩
      rw [hevents, Db.events, hrows, List.map_append, List.append_assoc, List.map_singleton, hrow]
      rfl

/-- The event of a single draft. -/
theorem addEvent_events {service : SchedulerService} {db db' : Db Payload}
    {draft : String → Event} (h : service.addEvent db draft = .ok db') :
    ∃ eventId, db'.events = db.events ++ [draft eventId] := by
  obtain ⟨-, -, -, row, hrow, hrows⟩ := addEvent_eq_ok h
  exact ⟨service.uuid db.draws, by simp [Db.events, hrows, hrow]⟩

/-! ### The fence -/

theorem fencedUpdate_eq_ok {db db' : Db Payload} {job : ClaimedJob Payload} {now : Datetime}
    {assign : JobRow Payload → JobRow Payload} (h : db.fencedUpdate job now assign = .ok db')
    (hkey : ∀ row, (assign row).jobId = row.jobId) :
    ∃ row, db.jobs.find? job.jobId = some row ∧ job.IsCurrent row now ∧
      (assign row).checks = true ∧ db'.attempts = db.attempts ∧ db'.outbox = db.outbox ∧
      db'.draws = db.draws ∧
      ∀ k, db'.jobs.find? k = if k = job.jobId then some (assign row) else db.jobs.find? k := by
  unfold Db.fencedUpdate at h
  split at h
  · next row hrow =>
      split at h
      · next hcur =>
          obtain ⟨hchecks, rfl⟩ := Db.updateJobs_eq_ok_iff.1 h
          have hid : (assign row).jobId = job.jobId := (hkey row).trans (Table.key_of_find? hrow)
          have hold : db.jobs.find? (assign row).jobId = some row := by rw [hid, hrow]
          refine ⟨row, hrow, hcur, by simpa using hchecks, rfl, rfl, rfl, fun k => ?_⟩
          exact (Table.find?_replace_of_find? hold k).trans (by rw [hid])
      · cases h
  · cases h

/-- A claim that is not the current one of its row is turned away. -/
theorem fencedUpdate_stale {db : Db Payload} {job : ClaimedJob Payload} {now : Datetime}
    {assign : JobRow Payload → JobRow Payload}
    (h : ∀ row, db.jobs.find? job.jobId = some row → ¬ job.IsCurrent row now) :
    db.fencedUpdate job now assign = .error (.staleClaim job.jobId) := by
  unfold Db.fencedUpdate
  cases hrow : db.jobs.find? job.jobId with
  | none => rfl
  | some row => exact if_neg (h row hrow)

/-! ### A claimed batch -/

/-- The claim that is handed out when a row is claimed. -/
def JobRow.claimedAs (row : JobRow Payload) (owner token : String) (lease : Timedelta)
    (written : Datetime) : ClaimedJob Payload where
  jobId := row.jobId
  correlationId := row.correlationId
  jobType := row.jobType
  payload := row.payload
  payloadReference := row.payloadReference
  scheduledAt := row.scheduledAt
  attemptNumber := row.attemptNumber + 1
  maxAttempts := row.maxAttempts
  claimedBy := owner
  claimToken := token
  claimExpiresAt := written + lease
  maxAttempts_pos := row.maxAttempts_pos

section Claims

variable (service : SchedulerService) (draws : ℕ) (owner : String) (written : Datetime)
variable (due : List (JobRow Payload))

/-- The claims a batch hands out. -/
def SchedulerService.claimedJobs : List (ClaimedJob Payload) :=
  due.zipIdx.map fun p =>
    p.1.claimedAs owner (service.uuid (draws + p.2)) service.lease written

/-- The claims are read off the rows that were written. -/
theorem filterMap_claimRows :
    (service.claimRows draws owner written due).filterMap JobRow.claimed? =
      service.claimedJobs draws owner written due := by
  have hclaimed : JobRow.claimed? ∘ (fun p : JobRow Payload × ℕ =>
      p.1.claim owner (service.uuid (draws + p.2)) service.lease written) =
        fun p => some (p.1.claimedAs owner (service.uuid (draws + p.2)) service.lease written) :=
    rfl
  rw [SchedulerService.claimRows, List.filterMap_map, hclaimed, List.filterMap_eq_map',
    SchedulerService.claimedJobs]

@[simp] theorem map_jobId_claimRows :
    (service.claimRows draws owner written due).map JobRow.jobId = due.map JobRow.jobId := by
  have hcomp : JobRow.jobId ∘ (fun p : JobRow Payload × ℕ =>
      p.1.claim owner (service.uuid (draws + p.2)) service.lease written) =
        JobRow.jobId ∘ Prod.fst := rfl
  rw [SchedulerService.claimRows, List.map_map, hcomp, ← List.map_map, List.zipIdx_map_fst]

@[simp] theorem map_jobId_claimedJobs :
    (service.claimedJobs draws owner written due).map ClaimedJob.jobId =
      due.map JobRow.jobId := by
  have hcomp : ClaimedJob.jobId ∘ (fun p : JobRow Payload × ℕ =>
      p.1.claimedAs owner (service.uuid (draws + p.2)) service.lease written) =
        JobRow.jobId ∘ Prod.fst := rfl
  rw [SchedulerService.claimedJobs, List.map_map, hcomp, ← List.map_map, List.zipIdx_map_fst]

variable {service draws owner written due}

/-- A selected row is claimed under some token. -/
theorem mem_claimedJobs_of_mem {row : JobRow Payload} (h : row ∈ due) :
    ∃ token, row.claim owner token service.lease written ∈
        service.claimRows draws owner written due ∧
      row.claimedAs owner token service.lease written ∈
        service.claimedJobs draws owner written due := by
  obtain ⟨i, hi⟩ := List.mem_iff_getElem?.1 h
  have hzip : (row, i) ∈ due.zipIdx := List.mem_zipIdx_iff_getElem?.2 hi
  exact ⟨service.uuid (draws + i), List.mem_map.2 ⟨_, hzip, rfl⟩, List.mem_map.2 ⟨_, hzip, rfl⟩⟩

/-- A claim of the batch is one of a selected row. -/
theorem exists_of_mem_claimedJobs {job : ClaimedJob Payload}
    (h : job ∈ service.claimedJobs draws owner written due) :
    ∃ row ∈ due, ∃ token, job = row.claimedAs owner token service.lease written := by
  obtain ⟨⟨row, i⟩, hzip, rfl⟩ := List.mem_map.1 h
  exact ⟨row, List.mem_of_getElem? (List.mem_zipIdx_iff_getElem?.1 hzip), _, rfl⟩

/-- A row the batch writes is one of a selected row. -/
theorem exists_of_mem_claimRows {row : JobRow Payload}
    (h : row ∈ service.claimRows draws owner written due) :
    ∃ old ∈ due, ∃ token, row = old.claim owner token service.lease written := by
  obtain ⟨⟨old, i⟩, hzip, rfl⟩ := List.mem_map.1 h
  exact ⟨old, List.mem_of_getElem? (List.mem_zipIdx_iff_getElem?.1 hzip), _, rfl⟩

end Claims

/-- The attempt a claim opens. -/
def ClaimedJob.attempt (job : ClaimedJob Payload) (owner : String) (written : Datetime) :
    AttemptRow Payload where
  jobId := job.jobId
  attemptNumber := job.attemptNumber
  claimToken := some job.claimToken
  claimedBy := some owner
  claimedAt := some written

/-- The event of a retrieval, but for its id. -/
def SchedulerService.retrievedEvent (service : SchedulerService) (job : ClaimedJob Payload) :
    String → Event :=
  job.event .jobSchedulerItemRetrieved (job.claimExpiresAt - service.lease)

theorem recordClaim_eq_ok {service : SchedulerService} {owner : String} {written : Datetime}
    {db db' : Db Payload} {job : ClaimedJob Payload}
    (h : service.recordClaim owner written db job = .ok db') :
    db'.jobs = db.jobs ∧ db.attempts.find? (job.jobId, job.attemptNumber) = none ∧
      (∀ k, db'.attempts.find? k =
        if k = (job.jobId, job.attemptNumber) then some (job.attempt owner written)
        else db.attempts.find? k) ∧
      ∃ eventId, db'.events = db.events ++ [service.retrievedEvent job eventId] := by
  unfold SchedulerService.recordClaim at h
  obtain ⟨db₁, h₁, h⟩ := Except.bind_eq_ok_iff.1 h
  obtain ⟨-, attempts, hins, rfl⟩ := Db.insertAttempt_eq_ok_iff.1 h₁
  obtain ⟨hjobs, hattempts, -, -⟩ := addEvent_eq_ok h
  obtain ⟨eventId, hevents⟩ := addEvent_events h
  refine ⟨hjobs, (Table.insert?_eq_some_iff.1 hins).1, fun k => ?_, eventId, hevents⟩
  rw [hattempts]
  exact Table.find?_insert? hins k

/-- **The attempts and events of a claimed batch.** -/
theorem recordClaims_eq_ok {service : SchedulerService} {owner : String} {written : Datetime}
    {claimed : List (ClaimedJob Payload)} {db db' : Db Payload}
    (hnodup : (claimed.map ClaimedJob.jobId).Nodup)
    (h : claimed.foldlM (service.recordClaim owner written) db = .ok db') :
    db'.jobs = db.jobs ∧
      (∀ job ∈ claimed, db.attempts.find? (job.jobId, job.attemptNumber) = none ∧
        db'.attempts.find? (job.jobId, job.attemptNumber) = some (job.attempt owner written)) ∧
      (∀ k, k ∉ claimed.map (fun job => (job.jobId, job.attemptNumber)) →
        db'.attempts.find? k = db.attempts.find? k) ∧
      ∃ events, Drafted (claimed.map service.retrievedEvent) events ∧
        db'.events = db.events ++ events := by
  induction claimed generalizing db with
  | nil =>
      cases h
      exact ⟨rfl, by simp, fun _ _ => rfl, [], .nil, (List.append_nil _).symm⟩
  | cons job claimed ih =>
      rw [List.map_cons, List.nodup_cons] at hnodup
      rw [List.foldlM_cons, Except.bind_eq_ok_iff] at h
      obtain ⟨db₁, h₁, h⟩ := h
      obtain ⟨hjobs, hnone, hfind, eventId, hevent⟩ := recordClaim_eq_ok h₁
      obtain ⟨hjobs', hmem', hother', events, hdrafted, hevents⟩ := ih hnodup.2 h
      -- the later claims are of other jobs, so they do not meet the first one's key
      have hne : ∀ later ∈ claimed, later.jobId ≠ job.jobId := by
        intro later hlater heq
        exact hnodup.1 (List.mem_map.2 ⟨later, hlater, heq⟩)
      have hkey : ∀ later ∈ claimed,
          (later.jobId, later.attemptNumber) ≠ (job.jobId, job.attemptNumber) := by
        intro later hlater heq
        exact hne later hlater (Prod.mk.inj heq).1
      refine ⟨hjobs'.trans hjobs, ?_, ?_, service.retrievedEvent job eventId :: events,
        .cons ⟨eventId, rfl⟩ hdrafted, ?_⟩
      · intro later hlater
        rcases List.mem_cons.1 hlater with rfl | hlater
        · refine ⟨hnone, ?_⟩
          rw [hother', hfind, if_pos rfl]
          intro hmem
          obtain ⟨other, hother, heq⟩ := List.mem_map.1 hmem
          exact hkey other hother heq
        · obtain ⟨hnone', hsome'⟩ := hmem' later hlater
          rw [hfind, if_neg (hkey later hlater)] at hnone'
          exact ⟨hnone', hsome'⟩
      · intro k hk
        rw [List.map_cons, List.mem_cons, not_or] at hk
        rw [hother' k hk.2, hfind, if_neg hk.1]
      · rw [hevents, hevent, List.append_assoc]
        rfl

end ScheduledJobs
