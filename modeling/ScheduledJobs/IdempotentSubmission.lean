/-
**Submission is idempotent and atomic.**

A submission inserts the job's row and the two events of its submission in one transaction, and
does nothing when the row is there.  Its answer compares six columns of the stored row, at any later
point of the job's life, so it rests on what no operation of the scheduler does: write one of these
columns, or remove a row.  The fault injector may raise before the commit, which leaves nothing, or
after it, which leaves everything and takes the answer away; the next submission finds the row.

Main definitions:

* `Submitted` — the six fields that a submission and a row are compared by;
* `ServiceCall`, `World.answer` — a call, and what a submission answers;
* `Creates` — the call commits the submission of its job;
* `SubmitsOnce` — **what is promised of a job along a sequence of calls**.

Main results:

* `submitChecked_of_some`, `submitChecked_of_none` — a submission of a job that is there, or not;
* `exists_submitChecked` — a submission of a job that is not there creates it;
* `JobStep.keeps_submitted` — no transaction writes the six fields;
* `SubmissionEvents.of_reachable` — the events of the submission, in every reachable state;
* `submitsOnce` — **every job is submitted once along every sequence of calls**.
-/

import ScheduledJobs.OutboxHistory

set_option relaxedAutoImplicit false
set_option autoImplicit false

namespace ScheduledJobs

variable {Payload : Type}

/-! ### What is compared -/

/-- The fields that a submission and a row are compared by. -/
structure Submitted (Payload : Type) where
  correlationId : String
  jobType : String
  payload : Option Payload
  payloadReference : Option String
  scheduledAt : Datetime
  maxAttempts : ℕ
  deriving DecidableEq

def JobSubmission.submitted (value : JobSubmission Payload) : Submitted Payload where
  correlationId := value.correlationId
  jobType := value.jobType
  payload := value.payload
  payloadReference := value.payloadReference
  scheduledAt := value.scheduledAt
  maxAttempts := value.maxAttempts

def JobRow.submitted (row : JobRow Payload) : Submitted Payload where
  correlationId := row.correlationId
  jobType := row.jobType
  payload := row.payload
  payloadReference := row.payloadReference
  scheduledAt := row.scheduledAt
  maxAttempts := row.maxAttempts

theorem JobSubmission.identicalTo_iff {value : JobSubmission Payload} {row : JobRow Payload} :
    value.IdenticalTo row ↔ row.submitted = value.submitted := by
  simp only [IdenticalTo, JobRow.submitted, submitted, Submitted.mk.injEq]

/-! ### Calls and answers -/

/-- A call of the scheduler.  At a label that is not committed, something is raised before the
commit, as by the checkpoint `SCHEDULER_BEFORE_COMMIT`; a submission may raise at
`SCHEDULER_AFTER_COMMIT` as well. -/
structure ServiceCall (Payload : Type) where
  label : Label Payload
  raisesAfterCommit : Bool := false

variable [DecidableEq Payload] (service : SchedulerService)

/-- What a submission answers, unless it raises.  The checkpoint after the commit is reached by the
submission that is created; one that finds its job returns from the transaction. -/
def World.answer (w : World Payload) (c : ServiceCall Payload) : Option SubmissionDecision :=
  match c.label.operation with
  | .submitChecked value =>
      match service.submitChecked w.db value c.label.clock, c.label.committed with
      | .ok (_, .created), true => if c.raisesAfterCommit then none else some .created
      | .ok (_, decision), true => some decision
      | _, _ => none
  | _ => none

/-- The world some calls lead to. -/
def SchedulerService.runCalls (calls : List (ServiceCall Payload)) : Option (World Payload) :=
  (schedulerMachine service).run (schedulerMachine service).start (calls.map ServiceCall.label)

/-- A call in a sequence of calls, with the worlds before and after it. -/
structure CalledIn (calls before : List (ServiceCall Payload)) (c : ServiceCall Payload)
    (w w' : World Payload) : Prop where
  isPrefix : before ++ [c] <+: calls
  reached : service.runCalls before = some w
  next : w.next service c.label = some w'

/-- The call commits the submission of its job. -/
def Creates (w : World Payload) (c : ServiceCall Payload) (value : JobSubmission Payload) : Prop :=
  c.label.operation = .submitChecked value ∧ c.label.committed = true ∧
    ∃ db, service.submitChecked w.db value c.label.clock = .ok (db, .created)

/-- The number of events of a type. -/
def numberOf (eventType : EventType) (events : List Event) : ℕ :=
  events.countP fun event => event.eventType = eventType

/-! ### What is promised -/

/-- **What is promised of a job along a sequence of calls.** -/
structure SubmitsOnce (calls : List (ServiceCall Payload)) (jobId : String) : Prop where
  /-- The job is there exactly when a submission of it was committed. -/
  committed : ∀ before w, before <+: calls → service.runCalls before = some w →
    (w.db.jobs.find? jobId ≠ none ↔ ∃ earlier c v v' value,
      CalledIn service before earlier c v v' ∧ value.jobId = jobId ∧ Creates service v c value)
  /-- No second one is committed. -/
  once : ∀ before c w w' value, CalledIn service calls before c w w' → value.jobId = jobId →
    Creates service w c value → ∀ before' c' v v' value',
      CalledIn service calls before' c' v v' → value'.jobId = jobId →
        Creates service v c' value' → before' = before
  /-- The committed one answers `CREATED`, unless it raises, and no other does. -/
  created : ∀ before c w w' value, CalledIn service calls before c w w' →
    c.label.operation = .submitChecked value → value.jobId = jobId →
      (w.answer service c = some .created ↔ Creates service w c value ∧ ¬ c.raisesAfterCommit)
  /-- A submission of a job that is not there is committed, if nothing is raised before the commit
  and the columns of the row and the texts of its events hold what is submitted. -/
  creates : ∀ before c w w' value, CalledIn service calls before c w w' →
    c.label.operation = .submitChecked value → value.jobId = jobId →
      w.db.jobs.find? jobId = none → c.label.committed = true → value.maxAttempts ≤ 2147483647 →
        Datetime.InRange value.scheduledAt → Datetime.InRange c.label.clock.written →
          Creates service w c value ∧
            w.answer service c = if c.raisesAfterCommit then none else some .created
  /-- What it submitted stays in the row. -/
  immutable : ∀ before c w w' value, CalledIn service calls before c w w' → value.jobId = jobId →
    Creates service w c value → ∀ later v, before ++ [c] <+: later → later <+: calls →
      service.runCalls later = some v →
        ∃ row, v.db.jobs.find? jobId = some row ∧ row.submitted = value.submitted
  /-- A later submission changes nothing and says whether it is equal. -/
  replayed : ∀ before c w w' value, CalledIn service calls before c w w' → value.jobId = jobId →
    Creates service w c value → ∀ later c' v v' value', before ++ [c] <+: later →
      CalledIn service calls later c' v v' → c'.label.operation = .submitChecked value' →
        value'.jobId = jobId → v'.db = v.db ∧ (c'.label.committed = true → v.answer service c' =
          some (if value'.submitted = value.submitted then .identical else .conflict))
  /-- What is raised before the commit leaves nothing. -/
  rollback : ∀ before c w w', CalledIn service calls before c w w' → c.label.committed = false ∨
    (∃ e, service.perform w.db c.label.clock c.label.operation = .error e) → w'.db = w.db
  /-- The events of the submission are in the outbox once, and nothing is there before them. -/
  outbox : ∀ before w, before <+: calls → service.runCalls before = some w →
    (w.db.jobs.find? jobId = none → eventsOf jobId w.db.events = []) ∧
      (w.db.jobs.find? jobId ≠ none →
        numberOf .jobCreated (eventsOf jobId w.db.events) = 1 ∧
          numberOf .jobSchedulerSubmissionRequested (eventsOf jobId w.db.events) = 1)

/-! ### A submission -/

omit [DecidableEq Payload] in
/-- The row of a submission meets the constraints. -/
theorem JobSubmission.checks_row (value : JobSubmission Payload) (createdAt : Datetime) :
    (value.row createdAt).checks = true :=
  (JobRow.checks_iff _).2 ⟨value.payload_xor, rfl, le_refl _, rfl⟩

variable {service}

/-- **A submission of a job that is there** changes nothing, and compares. -/
theorem submitChecked_of_some {db : Db Payload} {value : JobSubmission Payload}
    {existing : JobRow Payload} (clock : ClockReads)
    (h : db.jobs.find? value.jobId = some existing) :
    service.submitChecked db value clock =
      .ok (db, if existing.submitted = value.submitted then .identical else .conflict) := by
  simp only [SchedulerService.submitChecked, if_pos (value.checks_row clock.written), h,
    JobSubmission.identicalTo_iff]

/-- **A submission of a job that is not there** creates it, or fails. -/
theorem submitChecked_of_none {db db' : Db Payload} {value : JobSubmission Payload}
    {clock : ClockReads} {decision : SubmissionDecision} (hnone : db.jobs.find? value.jobId = none)
    (h : service.submitChecked db value clock = .ok (db', decision)) :
    decision = .created ∧ ∀ k, db'.jobs.find? k =
      if k = value.jobId then some (value.row clock.written) else db.jobs.find? k := by
  unfold SchedulerService.submitChecked at h
  rw [if_pos (value.checks_row clock.written)] at h
  split at h
  · next existing hsome =>
      rw [hnone] at hsome
      cases hsome
  · cases h
  · next jobs _ hinsert =>
      simp only [Except.bind_eq_ok_iff] at h
      obtain ⟨db₁, hadd, hresult⟩ := h
      cases hresult
      refine ⟨rfl, fun k => ?_⟩
      rw [(addEvents_eq_ok hadd).1]
      exact Table.find?_insert? hinsert k

omit [DecidableEq Payload] in
/-- Fresh events with times that have a text enter the outbox. -/
theorem exists_addEvents {db : Db Payload} {drafts : List (String → Event)}
    (hfresh : FreshIds service db)
    (h : ∀ draft ∈ drafts, UsesId draft ∧ ∀ eventId, (draft eventId).Encodable) :
    ∃ db', service.addEvents db drafts = .ok db' := by
  have hmeets : (service.addEvents db drafts).Meets
      (fun db' => FreshIds service db' ∧ ∀ draft ∈ ([] : List (String → Event)),
        UsesId draft ∧ ∀ eventId, (draft eventId).Encodable) fun _ => False := by
    refine Except.Meets.foldlM (I := fun rest db => FreshIds service db ∧
      ∀ draft ∈ rest, UsesId draft ∧ ∀ eventId, (draft eventId).Encodable) ?_ drafts ⟨hfresh, h⟩
    rintro draft rest db ⟨hfresh, hdrafts⟩
    obtain ⟨⟨hid, hencodable⟩, hrest⟩ := List.forall_mem_cons.1 hdrafts
    refine ((addEvent_overflows hfresh hid).imp_error ?_).imp ?_
    · exact fun e he => he.2 (hencodable _)
    · exact fun db' _ hfresh' => ⟨hfresh', hrest⟩
  exact hmeets.returns

omit [DecidableEq Payload] in
/-- The events of a submission have texts when its times have. -/
theorem JobSubmission.encodable_event {value : JobSubmission Payload} {t : Datetime}
    (hscheduled : Datetime.InRange value.scheduledAt) (ht : Datetime.InRange t)
    (eventType : EventType) (eventId : String) : (value.event eventType t eventId).Encodable where
  eventTime := ht
  ingestionTime := ht
  scheduledAt := fun _ h => Option.some_inj.1 h ▸ hscheduled
  nextRetryAt := fun _ h => nomatch h

/-- **A submission of a job that is not there creates it**, if its times have a text. -/
theorem exists_submitChecked {db : Db Payload} {value : JobSubmission Payload} {clock : ClockReads}
    (hfresh : FreshIds service db) (hnone : db.jobs.find? value.jobId = none)
    (hscheduled : Datetime.InRange value.scheduledAt) (hwritten : Datetime.InRange clock.written) :
    ∃ db', service.submitChecked db value clock = .ok (db', .created) := by
  unfold SchedulerService.submitChecked
  rw [if_pos (value.checks_row clock.written)]
  split
  · next hsome => exact nomatch hnone.symm.trans hsome
  · next hinsert => exact absurd hnone (Table.insert?_eq_none_iff.1 hinsert)
  · next jobs _ hinsert =>
      have hdraft (eventType : EventType) : UsesId (value.event eventType clock.written) ∧
          ∀ eventId, (value.event eventType clock.written eventId).Encodable :=
        ⟨fun _ => rfl, JobSubmission.encodable_event hscheduled hwritten eventType⟩
      obtain ⟨db', hdb'⟩ := exists_addEvents
        (show FreshIds service { db with jobs := jobs } from hfresh)
        (List.forall_mem_cons.2 ⟨hdraft .jobCreated,
          List.forall_mem_singleton.2 (hdraft .jobSchedulerSubmissionRequested)⟩)
      exact ⟨db', by rw [hdb']; rfl⟩

/-- The call that commits the submission of a job finds none and leaves its row. -/
theorem Creates.find? {w w' : World Payload} {c : ServiceCall Payload}
    {value : JobSubmission Payload} (h : Creates service w c value)
    (hn : w.next service c.label = some w') :
    w.db.jobs.find? value.jobId = none ∧
      ∃ row, w'.db.jobs.find? value.jobId = some row ∧ row.submitted = value.submitted := by
  obtain ⟨hop, hcommitted, db, hcreated⟩ := h
  have hnone : w.db.jobs.find? value.jobId = none := by
    cases hfind : w.db.jobs.find? value.jobId with
    | none => rfl
    | some existing =>
        rw [submitChecked_of_some c.label.clock hfind] at hcreated
        split at hcreated <;> cases hcreated
  have hperform : service.perform w.db c.label.clock c.label.operation = .ok { db := db } := by
    rw [hop, SchedulerService.perform, hcreated]
    rfl
  refine ⟨hnone, value.row c.label.clock.written, ?_, rfl⟩
  obtain ⟨-, -, ⟨effect, -, heffect, rfl⟩ | ⟨herror, -⟩⟩ := World.next_cases hn
  · rw [hperform] at heffect
    cases heffect
    exact ((submitChecked_of_none hnone hcreated).2 _).trans (if_pos rfl)
  · obtain ⟨e, he⟩ := herror hcommitted
    rw [hperform] at he
    cases he

/-! ### One transaction -/

omit [DecidableEq Payload] in
/-- **No transaction writes the six fields**, or removes a row. -/
theorem JobStep.keeps_submitted {clock : ClockReads} {op : Operation Payload}
    {v v' : JobView Payload} (hs : JobStep service clock op v v') {row : JobRow Payload}
    (hrow : v.row = some row) : ∃ row', v'.row = some row' ∧ row'.submitted = row.submitted := by
  cases hs with
  | idle => exact ⟨row, hrow, rfl⟩
  | submitted hnone =>
      rw [hnone] at hrow
      cases hrow
  | claimed hold =>
      obtain rfl := Option.some_inj.1 (hrow.symm.trans hold)
      exact ⟨_, rfl, rfl⟩
  | started _ hold =>
      obtain rfl := Option.some_inj.1 (hrow.symm.trans hold)
      exact ⟨_, rfl, rfl⟩
  | heartbeat _ hold =>
      obtain rfl := Option.some_inj.1 (hrow.symm.trans hold)
      exact ⟨_, rfl, rfl⟩
  | succeeded _ hold =>
      obtain rfl := Option.some_inj.1 (hrow.symm.trans hold)
      exact ⟨_, rfl, rfl⟩
  | failed _ hold =>
      obtain rfl := Option.some_inj.1 (hrow.symm.trans hold)
      exact ⟨_, rfl, rfl⟩
  | recovered hold =>
      obtain rfl := Option.some_inj.1 (hrow.symm.trans hold)
      exact ⟨_, rfl, rfl⟩

/-- **A row appears when the submission of its job is committed.** -/
theorem creates_of_appears {w w' : World Payload} {c : ServiceCall Payload} {jobId : String}
    (hn : w.next service c.label = some w') (hnone : w.db.jobs.find? jobId = none)
    (hsome : w'.db.jobs.find? jobId ≠ none) :
    ∃ value, value.jobId = jobId ∧ Creates service w c value := by
  have hstep : JobStep service c.label.clock c.label.operation (w.view jobId) (w'.view jobId) :=
    view_step hn jobId
  -- only a submission makes a row of none
  have hop : ∃ value, c.label.operation = .submitChecked value := by
    generalize hv : w.view jobId = v at hstep
    generalize hv' : w'.view jobId = v' at hstep
    have hrow : v.row = none := hv ▸ hnone
    have hrow' : v'.row ≠ none := hv' ▸ hsome
    generalize hlabel : c.label.operation = op at hstep
    cases hstep with
    | idle => exact absurd hrow hrow'
    | @submitted value => exact ⟨value, rfl⟩
    | claimed hold => exact absurd (hrow.symm.trans hold) (by simp)
    | started _ hold => exact absurd (hrow.symm.trans hold) (by simp)
    | heartbeat _ hold => exact absurd (hrow.symm.trans hold) (by simp)
    | succeeded _ hold => exact absurd (hrow.symm.trans hold) (by simp)
    | failed _ hold => exact absurd (hrow.symm.trans hold) (by simp)
    | recovered hold => exact absurd (hrow.symm.trans hold) (by simp)
  obtain ⟨value, hop⟩ := hop
  obtain ⟨-, -, ⟨effect, hcommitted, hperform, rfl⟩ | ⟨-, rfl⟩⟩ := World.next_cases hn
  swap
  · exact absurd hnone hsome
  rw [hop] at hperform
  simp only [SchedulerService.perform, Except.bind_eq_ok_iff] at hperform
  obtain ⟨⟨db, decision⟩, hresult, heffect⟩ := hperform
  cases heffect
  cases hfind : w.db.jobs.find? value.jobId with
  | some existing =>
      rw [submitChecked_of_some c.label.clock hfind] at hresult
      cases hresult
      exact absurd hnone hsome
  | none =>
      obtain ⟨rfl, hdb⟩ := submitChecked_of_none hfind hresult
      refine ⟨value, ?_, hop, hcommitted, db, hresult⟩
      by_contra hne
      exact hsome ((hdb jobId).trans ((if_neg (Ne.symm hne)).trans hnone))

omit [DecidableEq Payload] in
/-- The events of a failure are not about the submission. -/
theorem isSubmission_failureEvents {job : ClaimedJob Payload} {failure : HandlerError}
    {clock : ClockReads} {events : List Event}
    (h : Drafted (service.failureEvents job failure clock) events) :
    ∀ event ∈ events, event.isSubmission = false := by
  obtain ⟨eventId, rest, rfl, hrest⟩ := drafted_failureEvents h
  rw [List.forall_mem_cons]
  refine ⟨rfl, ?_⟩
  rcases hrest with ⟨-, -, requestedId, acknowledgedId, rfl⟩ | ⟨-, -, exhaustedId, rfl⟩ |
    ⟨-, -, rfl⟩
  · intro event hevent
    simp only [List.mem_cons, List.not_mem_nil, or_false] at hevent
    rcases hevent with rfl | rfl <;> rfl
  · intro event hevent
    obtain rfl := List.mem_singleton.1 hevent
    rfl
  · simp

/-! ### The events of the submission -/

/-- The events of the submission are there once, if the job is. -/
def SubmissionEvents (v : JobView Payload) : Prop :=
  v.row ≠ none → numberOf .jobCreated v.events = 1 ∧
    numberOf .jobSchedulerSubmissionRequested v.events = 1

omit [DecidableEq Payload] in
/-- Other events do not count. -/
theorem SubmissionEvents.emit {v v' : JobView Payload} {added : List Event}
    (h : SubmissionEvents v) (hrow : v.row ≠ none) (hevents : v'.events = v.events ++ added)
    (hadded : ∀ event ∈ added, event.isSubmission = false) : SubmissionEvents v' := by
  have hnot : ∀ eventType, eventType = .jobCreated ∨
      eventType = .jobSchedulerSubmissionRequested → numberOf eventType added = 0 := by
    intro eventType htype
    refine List.countP_eq_zero.2 fun event hevent heq => ?_
    have hother := hadded event hevent
    rw [Event.isSubmission, of_decide_eq_true heq] at hother
    rcases htype with rfl | rfl
    · cases hother
    · cases hother
  intro _
  rw [hevents, numberOf, numberOf, List.countP_append, List.countP_append]
  obtain ⟨hcreated, hrequested⟩ := h hrow
  exact ⟨by rw [← numberOf, ← numberOf, hcreated, hnot _ (Or.inl rfl)],
    by rw [← numberOf, ← numberOf, hrequested, hnot _ (Or.inr rfl)]⟩

omit [DecidableEq Payload] in
/-- **The step lemma of the events of the submission.** -/
theorem SubmissionEvents.step {clock : ClockReads} {op : Operation Payload}
    {v v' : JobView Payload} (hinv : QueueInv v) (h : SubmissionEvents v)
    (hs : JobStep service clock op v v') : SubmissionEvents v' := by
  have hpresent {row : JobRow Payload} (hrow : v.row = some row) : v.row ≠ none := by
    rw [hrow]
    simp
  cases hs with
  | idle => exact h
  | submitted hnone hevents =>
      obtain ⟨createdId, requestedId, rfl⟩ := drafted_pair hevents
      intro _
      rw [JobView.emit, JobView.setRow, (hinv.absent hnone).2.1]
      exact ⟨rfl, rfl⟩
  | claimed hrow =>
      refine h.emit (hpresent hrow) rfl fun event hevent => ?_
      obtain rfl := List.mem_singleton.1 hevent
      rfl
  | started _ hrow =>
      refine h.emit (hpresent hrow) rfl fun event hevent => ?_
      obtain rfl := List.mem_singleton.1 hevent
      rfl
  | heartbeat _ hrow => exact h.emit (hpresent hrow) (List.append_nil _).symm (by simp)
  | succeeded _ hrow =>
      refine h.emit (hpresent hrow) rfl fun event hevent => ?_
      obtain rfl := List.mem_singleton.1 hevent
      rfl
  | failed _ hrow _ _ hevents =>
      exact h.emit (hpresent hrow) rfl (isSubmission_failureEvents hevents)
  | recovered hrow => exact h.emit (hpresent hrow) (List.append_nil _).symm (by simp)

/-- The events of the submission, in every reachable state. -/
theorem SubmissionEvents.of_reachable {w : World Payload}
    (h : (schedulerMachine service).Reachable w) (jobId : String) :
    SubmissionEvents (w.view jobId) := by
  induction h with
  | start => exact fun hrow => absurd rfl hrow
  | step hs _ hn ih => exact ih.step (QueueInv.of_reachable hs jobId) (view_step hn jobId)

/-! ### Sequences of calls -/

variable {calls before later : List (ServiceCall Payload)} {c : ServiceCall Payload}
  {w w' v : World Payload}

theorem reachable_of_runCalls (h : service.runCalls calls = some w) :
    (schedulerMachine service).Reachable w :=
  Machine.Reachable.of_run Machine.Reachable.start _ h

theorem CalledIn.mono {more : List (ServiceCall Payload)} (h : CalledIn service calls before c w w')
    (hinit : calls <+: more) : CalledIn service more before c w w' :=
  ⟨h.isPrefix.trans hinit, h.reached, h.next⟩

/-- The last of some calls. -/
theorem runCalls_concat :
    service.runCalls (before ++ [c]) = some v ↔
      ∃ w, service.runCalls before = some w ∧ w.next service c.label = some v := by
  rw [SchedulerService.runCalls, List.map_append, Machine.run_append_eq_some_iff]
  refine exists_congr fun w => and_congr_right fun _ => ?_
  rw [List.map_singleton, Machine.run_cons_eq_some_iff]
  constructor
  · rintro ⟨t, ht, hnil⟩
    cases hnil
    exact ht
  · exact fun h => ⟨v, h, rfl⟩

/-- Calls that follow others. -/
theorem CalledIn.run_later (h : CalledIn service calls before c w w')
    (hinit : before ++ [c] <+: later) (hlater : service.runCalls later = some v) :
    ∃ labels, (schedulerMachine service).run w' labels = some v := by
  obtain ⟨more, rfl⟩ := hinit
  rw [SchedulerService.runCalls, List.map_append, Machine.run_append_eq_some_iff] at hlater
  obtain ⟨mid, hmid, hmore⟩ := hlater
  have hw' : service.runCalls (before ++ [c]) = some w' := runCalls_concat.2 ⟨w, h.reached, h.next⟩
  rw [SchedulerService.runCalls, hmid] at hw'
  cases hw'
  exact ⟨_, hmore⟩

/-- **What was submitted stays in the row along a run.** -/
theorem submitted_of_run {labels : List (Label Payload)} {jobId : String} {row : JobRow Payload}
    (h : (schedulerMachine service).run w labels = some v)
    (hrow : w.db.jobs.find? jobId = some row) :
    ∃ row', v.db.jobs.find? jobId = some row' ∧ row'.submitted = row.submitted := by
  induction labels generalizing w row with
  | nil =>
      cases h
      exact ⟨row, hrow, rfl⟩
  | cons l labels ih =>
      obtain ⟨t, ht, hrest⟩ := Machine.run_cons_eq_some_iff.1 h
      have hstep : JobStep service l.clock l.operation (w.view jobId) (t.view jobId) :=
        view_step ht jobId
      obtain ⟨next, hnext, hsame⟩ := hstep.keeps_submitted hrow
      obtain ⟨row', hrow', hsame'⟩ := ih hrest hnext
      exact ⟨row', hrow', hsame'.trans hsame⟩

/-- **After a submission was committed, its row is there**, with what it submitted. -/
theorem CalledIn.submitted (h : CalledIn service calls before c w w')
    {value : JobSubmission Payload} (hcreates : Creates service w c value)
    (hinit : before ++ [c] <+: later) (hlater : service.runCalls later = some v) :
    ∃ row, v.db.jobs.find? value.jobId = some row ∧ row.submitted = value.submitted := by
  obtain ⟨-, row, hrow, hsubmitted⟩ := hcreates.find? h.next
  obtain ⟨more, hmore⟩ := h.run_later hinit hlater
  obtain ⟨row', hrow', hsame⟩ := submitted_of_run hmore hrow
  exact ⟨row', hrow', hsame.trans hsubmitted⟩

/-- **A job that is there was submitted.** -/
theorem exists_creates {jobId : String} (h : service.runCalls calls = some w)
    (hsome : w.db.jobs.find? jobId ≠ none) :
    ∃ before c v v' value, CalledIn service calls before c v v' ∧ value.jobId = jobId ∧
      Creates service v c value := by
  induction calls using List.reverseRecOn generalizing w with
  | nil =>
      cases h
      exact absurd rfl hsome
  | append_singleton calls c ih =>
      obtain ⟨mid, hmid, hn⟩ := runCalls_concat.1 h
      cases hfind : mid.db.jobs.find? jobId with
      | some row =>
          obtain ⟨before, c', v, v', value, hcalled, hcreates⟩ := ih hmid (by rw [hfind]; simp)
          exact ⟨before, c', v, v', value, hcalled.mono (List.prefix_append ..), hcreates⟩
      | none =>
          obtain ⟨value, hid, hcreates⟩ := creates_of_appears hn hfind hsome
          exact ⟨calls, c, mid, w, value, ⟨List.prefix_rfl, hmid, hn⟩, hid, hcreates⟩

/-- A committed submission comes before no other of its job. -/
theorem not_creates_later (h : CalledIn service calls before c w w')
    {value value' : JobSubmission Payload} (hcreates : Creates service w c value)
    (hinit : before ++ [c] <+: later) {c' : ServiceCall Payload} {v' : World Payload}
    (h' : CalledIn service calls later c' v v') (hid : value'.jobId = value.jobId) :
    ¬ Creates service v c' value' := by
  intro hcreates'
  obtain ⟨row, hrow, -⟩ := h.submitted hcreates hinit h'.reached
  have hnone := (hcreates'.find? h'.next).1
  rw [hid, hrow] at hnone
  cases hnone

/-- A submission of a job that is there, as a call. -/
theorem replay_of_some {value : JobSubmission Payload} {row : JobRow Payload}
    (hn : w.next service c.label = some w') (hop : c.label.operation = .submitChecked value)
    (hrow : w.db.jobs.find? value.jobId = some row) :
    w'.db = w.db ∧ (c.label.committed = true → w.answer service c =
      some (if row.submitted = value.submitted then .identical else .conflict)) := by
  have hsubmit : service.submitChecked w.db value c.label.clock =
      .ok (w.db, if row.submitted = value.submitted then .identical else .conflict) :=
    submitChecked_of_some c.label.clock hrow
  constructor
  · obtain ⟨-, -, ⟨effect, -, hperform, rfl⟩ | ⟨-, rfl⟩⟩ := World.next_cases hn
    · rw [hop, SchedulerService.perform, hsubmit] at hperform
      cases hperform
      rfl
    · rfl
  · intro hcommitted
    rw [World.answer, hop]
    dsimp only
    rw [hsubmit, hcommitted]
    split_ifs <;> rfl

/-- **Which submissions answer `CREATED`.** -/
theorem answer_eq_created_iff {value : JobSubmission Payload}
    (hop : c.label.operation = .submitChecked value) :
    w.answer service c = some .created ↔
      Creates service w c value ∧ ¬ c.raisesAfterCommit := by
  rw [World.answer, hop]
  dsimp only
  have hcreates : Creates service w c value ↔ c.label.committed = true ∧
      ∃ db, service.submitChecked w.db value c.label.clock = .ok (db, .created) :=
    and_iff_right hop
  rw [hcreates]
  cases hsubmit : service.submitChecked w.db value c.label.clock with
  | error e => simp
  | ok result =>
      obtain ⟨db, decision⟩ := result
      cases hcommitted : c.label.committed with
      | false => cases decision <;> simp
      | true =>
          cases decision with
          | created => cases c.raisesAfterCommit <;> simp
          | identical => simp
          | conflict => simp

/-- What the call that commits a submission answers. -/
theorem Creates.answer {value : JobSubmission Payload} (h : Creates service w c value) :
    w.answer service c = if c.raisesAfterCommit then none else some .created := by
  obtain ⟨hop, hcommitted, db, hcreated⟩ := h
  rw [World.answer, hop]
  dsimp only
  rw [hcreated, hcommitted]

/-- **Every job is submitted once along every sequence of calls.** -/
theorem submitsOnce (service : SchedulerService) (calls : List (ServiceCall Payload))
    (jobId : String) : SubmitsOnce service calls jobId where
  committed := by
    intro before w _ hw
    constructor
    · exact exists_creates hw
    · rintro ⟨earlier, c, v, v', value, hcalled, rfl, hcreates⟩
      obtain ⟨row, hrow, -⟩ := hcalled.submitted hcreates hcalled.isPrefix hw
      rw [hrow]
      simp
  once := by
    rintro before c w w' value hcalled rfl hcreates before' c' v v' value' hcalled' hid hcreates'
    -- of two different positions, one comes first
    rcases List.prefix_or_prefix_of_prefix hcalled.isPrefix hcalled'.isPrefix with h | h
    · rcases List.prefix_concat_iff.1 h with heq | hearlier
      · exact (List.append_inj_left' heq rfl).symm
      · exact absurd hcreates' (not_creates_later hcalled hcreates hearlier hcalled' hid)
    · rcases List.prefix_concat_iff.1 h with heq | hearlier
      · exact List.append_inj_left' heq rfl
      · exact absurd hcreates (not_creates_later hcalled' hcreates' hearlier hcalled hid.symm)
  created := by
    intro before c w w' value _ hop _
    exact answer_eq_created_iff hop
  creates := by
    rintro before c w w' value hcalled hop rfl hnone hcommitted - hscheduled hwritten
    have hfresh := FreshIds.of_reachable (reachable_of_runCalls hcalled.reached)
    have hcreates : Creates service w c value :=
      ⟨hop, hcommitted, exists_submitChecked hfresh hnone hscheduled hwritten⟩
    exact ⟨hcreates, hcreates.answer⟩
  immutable := by
    rintro before c w w' value hcalled rfl hcreates later v hinit _ hlater
    exact hcalled.submitted hcreates hinit hlater
  replayed := by
    rintro before c w w' value hcalled rfl hcreates later c' v v' value' hinit hcalled' hop hid
    obtain ⟨row, hrow, hsubmitted⟩ := hcalled.submitted hcreates hinit hcalled'.reached
    obtain ⟨hdb, hanswer⟩ := replay_of_some hcalled'.next hop (hid ▸ hrow)
    refine ⟨hdb, fun hcommitted => (hanswer hcommitted).trans ?_⟩
    rw [hsubmitted]
    simp only [eq_comm]
  rollback := by
    rintro before c w w' hcalled hfails
    obtain ⟨-, -, ⟨effect, hcommitted, hperform, rfl⟩ | ⟨-, rfl⟩⟩ := World.next_cases hcalled.next
    · rcases hfails with hfalse | ⟨e, he⟩
      · rw [hcommitted] at hfalse
        cases hfalse
      · rw [hperform] at he
        cases he
    · rfl
  outbox := by
    intro before w _ hw
    have hreachable := reachable_of_runCalls hw
    constructor
    · exact fun hnone => ((QueueInv.of_reachable hreachable jobId).absent hnone).2.1
    · exact SubmissionEvents.of_reachable hreachable jobId

/-- A submission that is rolled back, one that raises after its commit, a claim, and a submission
that finds the job. -/
def replayedCalls : List (ServiceCall String) :=
  [{ label := ⟨.submitChecked twoAttempts, .instant (seconds 1), false⟩ },
    { label := ⟨.submitChecked twoAttempts, .instant (seconds 2), true⟩
      raisesAfterCommit := true },
    { label := ⟨.claimDue "worker-1" 10 [], .instant (seconds 10), true⟩ },
    { label := ⟨.submitChecked twoAttempts, .instant (seconds 11), true⟩ }]

theorem submitsOnce_replayedCalls :
    ∃ w, defaultService.runCalls replayedCalls = some w ∧
      (w.db.jobs.rows.map fun row => (row.jobId, row.status)) = [("job-1", .claimed)] ∧
      w.db.events.map Event.eventType =
        [.jobCreated, .jobSchedulerSubmissionRequested, .jobSchedulerItemRetrieved] ∧
      SubmitsOnce defaultService replayedCalls "job-1" :=
  ⟨_, rfl, by decide, by decide, submitsOnce defaultService replayedCalls "job-1"⟩

end ScheduledJobs
