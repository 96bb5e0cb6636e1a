/-
**Every transaction is a `JobStep` of every job.**

The link between the operations of the scheduler, which work on batches and tables, and the steps
of a single job.  An operation on a claim touches the claim's job only; a claimed batch and a
recovery touch each of their jobs once, because the rows they select have distinct ids.

Main results:

* `view_fenced` — an operation on a claim, seen from any job;
* `claimDue_eq_ok` — what `claim_due` does to the tables;
* `view_claimDue`, `view_recoverExpiredClaims` — a batch, seen from any job;
* `view_step` — **every step of the machine is a `JobStep` of every job**.
-/

import ScheduledJobs.SchedulerMachine

set_option relaxedAutoImplicit false
set_option autoImplicit false

namespace ScheduledJobs

variable {Payload : Type}

/-! ### Events of one job -/

theorem eventsOf_append (jobId : String) (events more : List Event) :
    eventsOf jobId (events ++ more) = eventsOf jobId events ++ eventsOf jobId more :=
  List.filter_append ..

/-- Events drafted for a job are all of that job. -/
theorem Drafted.eventsOf_self {drafts : List (String → Event)} {events : List Event}
    {jobId : String} (h : Drafted drafts events)
    (hjob : ∀ draft ∈ drafts, ∀ eventId, (draft eventId).jobId = jobId) :
    eventsOf jobId events = events := by
  unfold eventsOf
  induction h with
  | nil => rfl
  | @cons draft event drafts events hd _ ih =>
      obtain ⟨eventId, rfl⟩ := hd
      have hid := hjob draft (List.mem_cons_self ..) eventId
      rw [List.filter_cons_of_pos (by simpa using hid),
        ih fun d hd => hjob d (List.mem_cons_of_mem _ hd)]

/-- Events drafted for other jobs are not of this one. -/
theorem Drafted.eventsOf_other {drafts : List (String → Event)} {events : List Event}
    {jobId : String} (h : Drafted drafts events)
    (hjob : ∀ draft ∈ drafts, ∀ eventId, (draft eventId).jobId ≠ jobId) :
    eventsOf jobId events = [] := by
  unfold eventsOf
  induction h with
  | nil => rfl
  | @cons draft event drafts events hd _ ih =>
      obtain ⟨eventId, rfl⟩ := hd
      have hid := hjob draft (List.mem_cons_self ..) eventId
      rw [List.filter_cons_of_neg (by simpa using hid),
        ih fun d hd => hjob d (List.mem_cons_of_mem _ hd)]

/-- The events of a claimed batch, seen from one of its jobs. -/
theorem Drafted.eventsOf_claimed {service : SchedulerService}
    {claimed : List (ClaimedJob Payload)} {events : List Event} {job : ClaimedJob Payload}
    (h : Drafted (claimed.map service.retrievedEvent) events)
    (hnodup : (claimed.map ClaimedJob.jobId).Nodup) (hjob : job ∈ claimed) :
    ∃ eventId, eventsOf job.jobId events = [service.retrievedEvent job eventId] := by
  induction claimed generalizing events with
  | nil => simp at hjob
  | cons c claimed ih =>
      rw [List.map_cons, List.nodup_cons] at hnodup
      obtain ⟨event, rest, ⟨eventId, rfl⟩, hrest, rfl⟩ := List.forall₂_cons_left_iff.1 h
      rcases List.mem_cons.1 hjob with rfl | hjob
      · have hnone : eventsOf job.jobId rest = [] := by
          refine Drafted.eventsOf_other hrest ?_
          intro draft hdraft id
          obtain ⟨other, hother, rfl⟩ := List.mem_map.1 hdraft
          exact fun hid => hnodup.1 (List.mem_map.2 ⟨other, hother, hid⟩)
        refine ⟨eventId, ?_⟩
        have hpos : (service.retrievedEvent job eventId).jobId = job.jobId := rfl
        rw [eventsOf, List.filter_cons_of_pos (by simpa using hpos)]
        exact congrArg _ hnone
      · have hne : (service.retrievedEvent c eventId).jobId ≠ job.jobId :=
          fun hid => hnodup.1 (List.mem_map.2 ⟨job, hjob, hid.symm⟩)
        rw [eventsOf, List.filter_cons_of_neg (by simpa using hne)]
        exact ih hrest hnodup.2 hjob

/-! ### Operations on one claim -/

/-- A commit that leaves a job's rows, attempts, events and claims alone. -/
theorem view_commit_other {w : World Payload} {clock : ClockReads} {effect : Effect Payload}
    {jobId : String} (hrow : effect.db.jobs.find? jobId = w.db.jobs.find? jobId)
    (hattempts : ∀ n, effect.db.attempts.find? (jobId, n) = w.db.attempts.find? (jobId, n))
    (hevents : eventsOf jobId effect.db.events = eventsOf jobId w.db.events)
    (hclaims : ∀ job ∈ effect.claims, job.jobId ≠ jobId)
    (hrecovered : ∀ p ∈ effect.recovered, p.1 ≠ jobId) :
    (w.commit clock effect).view jobId = w.view jobId := by
  have hc : (effect.claims.filter fun job => job.jobId = jobId) = [] := by
    simpa [List.filter_eq_nil_iff] using hclaims
  have hr : (effect.recovered.filter fun p => p.1 = jobId) = [] := by
    rw [List.filter_eq_nil_iff]
    intro p hp
    simpa using hrecovered p hp
  simp only [World.view, World.commit, hrow, hattempts, hevents, List.filter_append, hc, hr,
    List.append_nil]

/-- **An operation on a claim**: the row passes the fence and is assigned, the attempt is modified,
and events about the claim's job enter the outbox. -/
theorem view_fenced {service : SchedulerService} {w : World Payload} {clock : ClockReads}
    {job : ClaimedJob Payload} {db db' : Db Payload} {assign : JobRow Payload → JobRow Payload}
    {assignAttempt : AttemptRow Payload → AttemptRow Payload} {drafts : List (String → Event)}
    (hfence : w.db.fencedUpdate job clock.checked assign = .ok db)
    (hadd : service.addEvents (db.modifyAttempt (job.jobId, job.attemptNumber) assignAttempt)
      drafts = .ok db')
    (hkey : ∀ row, (assign row).jobId = row.jobId)
    (hattempt : ∀ row, (assignAttempt row).key = row.key)
    (hdrafts : ∀ draft ∈ drafts, ∀ eventId, (draft eventId).jobId = job.jobId) :
    ∃ row events, w.db.jobs.find? job.jobId = some row ∧ job.IsCurrent row clock.checked ∧
      (assign row).checks = true ∧ Drafted drafts events ∧
      (w.commit clock { db := db' }).view job.jobId =
        (((w.view job.jobId).setRow (assign row)).modifyAttempt job.attemptNumber
          assignAttempt).emit events ∧
      ∀ jobId, jobId ≠ job.jobId → (w.commit clock { db := db' }).view jobId = w.view jobId := by
  obtain ⟨row, hrow, hcur, hchecks, hatt, hout, -, hjobs⟩ := fencedUpdate_eq_ok hfence hkey
  obtain ⟨hjobs', hatt', events, hdrafted, hevents⟩ := addEvents_eq_ok hadd
  have hbase : (db.modifyAttempt (job.jobId, job.attemptNumber) assignAttempt).events =
      w.db.events := by
    simp only [Db.events, Db.outbox_modifyAttempt, hout]
  rw [hbase] at hevents
  rw [Db.jobs_modifyAttempt] at hjobs'
  have hfind : ∀ jobId n, db'.attempts.find? (jobId, n) =
      if (jobId, n) = (job.jobId, job.attemptNumber) then
        (w.db.attempts.find? (job.jobId, job.attemptNumber)).map assignAttempt
      else w.db.attempts.find? (jobId, n) := by
    intro jobId n
    rw [hatt', Db.find?_modifyAttempt hattempt, hatt]
  refine ⟨row, events, hrow, hcur, hchecks, hdrafted, ?_, ?_⟩
  · simp only [World.view, World.commit, JobView.emit, JobView.modifyAttempt, JobView.setRow,
      hjobs', hjobs, if_true, hevents, eventsOf_append, hdrafted.eventsOf_self hdrafts,
      List.append_nil, JobView.mk.injEq, true_and, and_true]
    funext n
    rw [hfind]
    by_cases hn : n = job.attemptNumber
    · rw [hn, if_pos rfl, Function.update_self]
    · rw [Function.update_of_ne hn, if_neg]
      intro heq
      exact hn (Prod.mk.inj heq).2
  · intro jobId hne
    refine view_commit_other ?_ (fun n => ?_) ?_ (by simp) (by simp)
    · simp only [hjobs', hjobs, if_neg hne]
    · simp only [hfind, Prod.mk.injEq, hne, false_and, if_false]
    · simp only [hevents, eventsOf_append]
      rw [hdrafted.eventsOf_other, List.append_nil]
      intro draft hdraft eventId
      rw [hdrafts draft hdraft eventId]
      exact hne.symm

/-! ### Batches -/

theorem mem_due {db : Db Payload} {locked : List String} {now : Datetime} {n : ℕ}
    {row : JobRow Payload} (h : row ∈ (db.due locked now).take n) :
    row ∈ db.jobs.rows ∧ (row.status = .pending ∨ row.status = .retryWait) ∧
      row.availableAt ≤ now := by
  have hmem := List.mem_of_mem_take h
  rw [Db.due, List.mem_insertionSort, List.mem_filter] at hmem
  simp only [Bool.and_eq_true, Bool.or_eq_true, decide_eq_true_eq] at hmem
  exact ⟨hmem.1, hmem.2.1.1, hmem.2.1.2⟩

theorem mem_expired {db : Db Payload} {locked : List String} {now : Datetime} {n : ℕ}
    {row : JobRow Payload} (h : row ∈ (db.expired locked now).take n) :
    row ∈ db.jobs.rows ∧ (row.status = .claimed ∨ row.status = .running) ∧
      row.claimExpiresAt.any (fun expires => expires < now) = true := by
  have hmem := List.mem_of_mem_take h
  rw [Db.expired, List.mem_insertionSort, List.mem_filter] at hmem
  simp only [Bool.and_eq_true, Bool.or_eq_true, decide_eq_true_eq] at hmem
  exact ⟨hmem.1, hmem.2.1.1, hmem.2.1.2⟩

/-- The tables after the batch `due` was claimed: the selected rows are rewritten, each job gets its
next attempt, and the retrievals enter the outbox. -/
structure ClaimedBatch (service : SchedulerService) (clock : ClockReads) (owner : String)
    (db db' : Db Payload) (due : List (JobRow Payload)) : Prop where
  nodup : (due.map JobRow.jobId).Nodup
  selected : ∀ row ∈ due, row ∈ db.jobs.rows ∧
    (row.status = .pending ∨ row.status = .retryWait) ∧ row.availableAt ≤ clock.checked
  jobs : db'.jobs = db.jobs.replaceAll (service.claimRows db.draws owner clock.written due)
  attempts : ∀ job ∈ service.claimedJobs db.draws owner clock.written due,
    db.attempts.find? (job.jobId, job.attemptNumber) = none ∧
      db'.attempts.find? (job.jobId, job.attemptNumber) = some (job.attempt owner clock.written)
  others : ∀ k, k ∉ (service.claimedJobs db.draws owner clock.written due).map
      (fun job => (job.jobId, job.attemptNumber)) → db'.attempts.find? k = db.attempts.find? k
  events : ∃ events,
    Drafted ((service.claimedJobs db.draws owner clock.written due).map service.retrievedEvent)
      events ∧ db'.events = db.events ++ events

/-- **What `claim_due` does**: nothing when nothing is asked for, and else it claims a batch. -/
theorem claimDue_eq_ok {service : SchedulerService} {db : Db Payload} {clock : ClockReads}
    {owner : String} {limit : ℤ} {locked : List String}
    {result : Db Payload × List (ClaimedJob Payload)}
    (h : service.claimDue db owner limit locked clock = .ok result) :
    result = (db, []) ∨ ∃ due, ClaimedBatch service clock owner db result.1 due ∧
      result.2 = service.claimedJobs db.draws owner clock.written due := by
  unfold SchedulerService.claimDue at h
  split at h
  · cases h
    exact Or.inl rfl
  simp only [Except.bind_eq_ok_iff] at h
  obtain ⟨db₁, hupdate, db₂, hrecord, hresult⟩ := h
  cases hresult
  generalize hdue : (db.due locked clock.checked).take limit.toNat = due at *
  have hnodup : (due.map JobRow.jobId).Nodup := hdue ▸ db.jobs.nodup_selection _ _ _
  rw [filterMap_claimRows] at hrecord ⊢
  obtain ⟨-, rfl⟩ := Db.updateJobs_eq_ok_iff.1 hupdate
  have hnodup' := hnodup
  rw [← map_jobId_claimedJobs service db.draws owner clock.written] at hnodup'
  obtain ⟨hjobs, hattempts, hother, hevents⟩ := recordClaims_eq_ok hnodup' hrecord
  exact Or.inr ⟨due, ⟨hnodup, fun row hrow => mem_due (hdue ▸ hrow), hjobs, hattempts, hother,
    hevents⟩, rfl⟩

section ClaimedBatch

variable {service : SchedulerService} {clock : ClockReads} {owner : String}
variable {db db' : Db Payload} {due : List (JobRow Payload)}

/-- The claims of a batch are of distinct jobs. -/
theorem ClaimedBatch.nodup_claims (h : ClaimedBatch service clock owner db db' due) :
    ((service.claimedJobs db.draws owner clock.written due).map ClaimedJob.jobId).Nodup := by
  rw [map_jobId_claimedJobs]
  exact h.nodup

/-- The row of a job in the batch. -/
theorem ClaimedBatch.find?_jobs (h : ClaimedBatch service clock owner db db' due)
    {row : JobRow Payload} {token : String} (hrow : row ∈ due)
    (hwritten : row.claim owner token service.lease clock.written ∈
      service.claimRows db.draws owner clock.written due) :
    db'.jobs.find? row.jobId = some (row.claim owner token service.lease clock.written) := by
  have hold : db.jobs.find? (row.claim owner token service.lease clock.written).jobId ≠ none := by
    rw [show (row.claim owner token service.lease clock.written).jobId = row.jobId from rfl,
      Table.find?_of_mem (h.selected row hrow).1]
    simp
  rw [h.jobs]
  exact Table.find?_replaceAll_of_mem (by rw [map_jobId_claimRows]; exact h.nodup) hwritten hold

/-- The attempts of a job in the batch: no other claim of the batch is one of its own. -/
theorem ClaimedBatch.find?_attempts (h : ClaimedBatch service clock owner db db' due)
    {job : ClaimedJob Payload}
    (hclaim : job ∈ service.claimedJobs db.draws owner clock.written due) :
    (fun n => db'.attempts.find? (job.jobId, n)) =
      Function.update (fun n => db.attempts.find? (job.jobId, n)) job.attemptNumber
        (some (job.attempt owner clock.written)) := by
  funext n
  by_cases hn : n = job.attemptNumber
  · rw [hn, Function.update_self]
    exact (h.attempts job hclaim).2
  · rw [Function.update_of_ne hn]
    refine h.others _ fun hmem => ?_
    obtain ⟨c, hc, heq⟩ := List.mem_map.1 hmem
    obtain rfl : c = job := List.inj_on_of_nodup_map h.nodup_claims hc hclaim (Prod.mk.inj heq).1
    exact hn (Prod.mk.inj heq).2.symm

end ClaimedBatch

/-- A claimed batch, seen from one of its jobs. -/
theorem ClaimedBatch.view_mem {service : SchedulerService} {w : World Payload}
    {clock : ClockReads} {owner : String} {db' : Db Payload} {due : List (JobRow Payload)}
    (h : ClaimedBatch service clock owner w.db db' due) {row : JobRow Payload} (hrow : row ∈ due)
    (limit : ℤ) (locked : List String) :
    JobStep service clock (.claimDue owner limit locked) (w.view row.jobId)
      ((w.commit clock
        { db := db'
          claims := service.claimedJobs w.db.draws owner clock.written due }).view row.jobId) := by
  obtain ⟨hrows, hstatus, havailable⟩ := h.selected row hrow
  have hfind : w.db.jobs.find? row.jobId = some row := Table.find?_of_mem hrows
  obtain ⟨token, hwritten, hclaim⟩ :
      ∃ token, row.claim owner token service.lease clock.written ∈
          service.claimRows w.db.draws owner clock.written due ∧
        row.claimedAs owner token service.lease clock.written ∈
          service.claimedJobs w.db.draws owner clock.written due := mem_claimedJobs_of_mem hrow
  generalize hjob : row.claimedAs owner token service.lease clock.written = job at hclaim
  have hid : job.jobId = row.jobId := by rw [← hjob]; rfl
  have hnumber : job.attemptNumber = row.attemptNumber + 1 := by rw [← hjob]; rfl
  have hfresh := (h.attempts job hclaim).1
  have hattempts := h.find?_attempts hclaim
  rw [hid, hnumber] at hfresh hattempts
  obtain ⟨events, hdrafted, hevents⟩ := h.events
  obtain ⟨eventId, hevent⟩ := hdrafted.eventsOf_claimed h.nodup_claims hclaim
  have hclaims := Table.filter_key_eq_singleton h.nodup_claims hclaim
  rw [hid] at hevent hclaims
  have hview : (w.commit clock
      { db := db'
        claims := service.claimedJobs w.db.draws owner clock.written due }).view row.jobId =
      { row := some (row.claim owner token service.lease clock.written)
        attempts := Function.update (w.view row.jobId).attempts (row.attemptNumber + 1)
          (some (job.attempt owner clock.written))
        events := (w.view row.jobId).events ++ [service.retrievedEvent job eventId]
        claims := (w.view row.jobId).claims ++ [job]
        recovered := (w.view row.jobId).recovered } := by
    simp only [World.view, World.commit, h.find?_jobs hrow hwritten, hattempts, hevents,
      eventsOf_append, List.filter_append, hclaims, List.append_nil,
      JobView.mk.injEq, true_and, and_true]
    exact congrArg _ hevent
  rw [hview, ← hjob]
  exact .claimed hfind hstatus havailable hfresh

/-- A claimed batch, seen from a job that is not in it. -/
theorem ClaimedBatch.view_notMem {service : SchedulerService} {w : World Payload}
    {clock : ClockReads} {owner : String} {db' : Db Payload} {due : List (JobRow Payload)}
    (h : ClaimedBatch service clock owner w.db db' due) {jobId : String}
    (hjob : jobId ∉ due.map JobRow.jobId) :
    (w.commit clock
      { db := db'
        claims := service.claimedJobs w.db.draws owner clock.written due }).view jobId =
      w.view jobId := by
  have hnone : ∀ job ∈ service.claimedJobs w.db.draws owner clock.written due,
      job.jobId ≠ jobId := by
    intro job hmem heq
    obtain ⟨row, hrow, token, rfl⟩ := exists_of_mem_claimedJobs hmem
    exact hjob (heq ▸ List.mem_map_of_mem hrow)
  obtain ⟨events, hdrafted, hevents⟩ := h.events
  refine view_commit_other ?_ (fun n => ?_) ?_ hnone (by simp)
  · simp only [h.jobs]
    exact Table.find?_replaceAll_of_notMem (by rw [map_jobId_claimRows]; exact hjob)
  · refine h.others _ fun hmem => ?_
    obtain ⟨c, hc, heq⟩ := List.mem_map.1 hmem
    exact hnone c hc (Prod.mk.inj heq).1
  · simp only [hevents, eventsOf_append]
    rw [hdrafted.eventsOf_other, List.append_nil]
    intro draft hdraft eventId
    obtain ⟨c, hc, rfl⟩ := List.mem_map.1 hdraft
    exact hnone c hc

/-- **A claimed batch, seen from any job.** -/
theorem view_claimDue {service : SchedulerService} {w : World Payload} {clock : ClockReads}
    {owner : String} {limit : ℤ} {locked : List String}
    {result : Db Payload × List (ClaimedJob Payload)}
    (h : service.claimDue w.db owner limit locked clock = .ok result) (jobId : String) :
    JobStep service clock (.claimDue owner limit locked) (w.view jobId)
      ((w.commit clock { db := result.1, claims := result.2 }).view jobId) := by
  rcases claimDue_eq_ok h with rfl | ⟨due, hbatch, hclaims⟩
  · rw [view_commit_other rfl (fun _ => rfl) rfl (by simp) (by simp)]
    exact .idle _ _
  rw [hclaims]
  by_cases hjob : jobId ∈ due.map JobRow.jobId
  · obtain ⟨row, hrow, rfl⟩ := List.mem_map.1 hjob
    exact hbatch.view_mem hrow limit locked
  · rw [hbatch.view_notMem hjob]
    exact .idle _ _

/-- **A recovery, seen from any job.** -/
theorem view_recoverExpiredClaims {service : SchedulerService} {w : World Payload}
    {clock : ClockReads} {limit : ℤ} {locked : List String}
    {result : Db Payload × List (JobRow Payload)}
    (h : w.db.recoverExpiredClaims limit locked clock = .ok result) (jobId : String) :
    JobStep service clock (.recoverExpiredClaims limit locked) (w.view jobId)
      ((w.commit clock
        { db := result.1
          recovered := result.2.map fun row => (row.jobId, row.attemptNumber) }).view jobId) := by
  unfold Db.recoverExpiredClaims at h
  split at h
  · cases h
  simp only [Except.bind_eq_ok_iff] at h
  obtain ⟨db₁, hupdate, hresult⟩ := h
  cases hresult
  generalize hexp : (w.db.expired locked clock.checked).take limit.toNat = expired at *
  have hnodup : (expired.map JobRow.jobId).Nodup := hexp ▸ w.db.jobs.nodup_selection _ _ _
  have hmem : ∀ row ∈ expired, row ∈ w.db.jobs.rows ∧
      (row.status = .claimed ∨ row.status = .running) ∧
        row.claimExpiresAt.any (fun expires => expires < clock.checked) = true :=
    fun row hrow => mem_expired (hexp ▸ hrow)
  have hids : (expired.map fun row => row.recover clock.written).map JobRow.jobId =
      expired.map JobRow.jobId := by
    rw [List.map_map]
    rfl
  obtain ⟨-, rfl⟩ := Db.updateJobs_eq_ok_iff.1 hupdate
  by_cases hj : jobId ∈ expired.map JobRow.jobId
  · obtain ⟨row, hrow, rfl⟩ := List.mem_map.1 hj
    obtain ⟨hrows, hstatus, hexpired⟩ := hmem row hrow
    have hfind : w.db.jobs.find? row.jobId = some row := Table.find?_of_mem hrows
    have hrow' : (w.db.jobs.replaceAll (expired.map fun row => row.recover clock.written)).find?
        row.jobId = some (row.recover clock.written) :=
      Table.find?_replaceAll_of_mem (by rw [hids]; exact hnodup)
        (List.mem_map_of_mem (f := fun row => row.recover clock.written) hrow)
        (by rw [show (row.recover clock.written).jobId = row.jobId from rfl, hfind]; simp)
    have hrec : ((expired.map fun row => (row.jobId, row.attemptNumber)).filter fun p =>
        p.1 = row.jobId).map Prod.snd = [row.attemptNumber] := by
      have hkey : (fun p : String × ℕ => decide (p.1 = row.jobId)) ∘
          (fun r : JobRow Payload => (r.jobId, r.attemptNumber)) =
            fun r => decide (r.jobId = row.jobId) := rfl
      rw [List.filter_map, hkey, Table.filter_key_eq_singleton hnodup hrow]
      rfl
    have hview : (w.commit clock
        { db := { w.db with
            jobs := w.db.jobs.replaceAll (expired.map fun row => row.recover clock.written) }
          recovered := expired.map fun row => (row.jobId, row.attemptNumber) }).view row.jobId =
        { w.view row.jobId with
          row := some (row.recover clock.written)
          recovered := (w.view row.jobId).recovered ++ [row.attemptNumber] } := by
      simp only [World.view, World.commit, hrow', List.filter_append, List.map_append, hrec,
        List.append_nil]
      rfl
    rw [hview]
    exact .recovered hfind hstatus hexpired
  · rw [view_commit_other]
    · exact .idle _ _
    · exact Table.find?_replaceAll_of_notMem (by rw [hids]; exact hj)
    · exact fun _ => rfl
    · rfl
    · simp
    · intro p hp heq
      obtain ⟨row, hrow, rfl⟩ := List.mem_map.1 hp
      exact hj (heq ▸ List.mem_map_of_mem hrow)

/-- **A submission, seen from any job.** -/
theorem view_submitChecked [DecidableEq Payload] {service : SchedulerService} {w : World Payload}
    {clock : ClockReads} {value : JobSubmission Payload}
    {result : Db Payload × SubmissionDecision}
    (h : service.submitChecked w.db value clock = .ok result) (jobId : String) :
    JobStep service clock (.submitChecked value) (w.view jobId)
      ((w.commit clock { db := result.1 }).view jobId) := by
  unfold SchedulerService.submitChecked at h
  split at h
  · split at h
    · -- the job is there, and stays as it is
      cases h
      rw [view_commit_other rfl (fun _ => rfl) rfl (by simp) (by simp)]
      exact .idle _ _
    · cases h
    · next jobs hnone hinsert =>
        simp only [Except.bind_eq_ok_iff] at h
        obtain ⟨db, hadd, hresult⟩ := h
        cases hresult
        obtain ⟨hjobs, hattempts, events, hdrafted, hevents⟩ := addEvents_eq_ok hadd
        have hfind := Table.find?_insert? hinsert
        have hid : ∀ draft ∈ [value.event .jobCreated clock.written,
            value.event .jobSchedulerSubmissionRequested clock.written], ∀ eventId,
              (draft eventId).jobId = value.jobId := by
          intro draft hdraft eventId
          simp only [List.mem_cons, List.not_mem_nil, or_false] at hdraft
          rcases hdraft with rfl | rfl <;> rfl
        by_cases hj : jobId = value.jobId
        · subst hj
          have hview : (w.commit clock { db := db }).view value.jobId =
              ((w.view value.jobId).setRow (value.row clock.written)).emit events := by
            have hrow : db.jobs.find? value.jobId = some (value.row clock.written) := by
              rw [hjobs, hfind]
              exact if_pos rfl
            have hown : eventsOf value.jobId events = events := hdrafted.eventsOf_self hid
            simp only [World.view, World.commit, JobView.emit, JobView.setRow, hrow, hattempts,
              hevents, eventsOf_append, hown, List.append_nil]
            rfl
          rw [hview]
          exact .submitted hnone hdrafted
        · rw [view_commit_other]
          · exact .idle _ _
          · rw [hjobs, hfind]
            exact if_neg hj
          · intro n
            rw [hattempts]
          · rw [hevents, eventsOf_append, hdrafted.eventsOf_other, List.append_nil]
            · rfl
            · intro draft hdraft eventId
              rw [hid draft hdraft eventId]
              exact fun heq => hj heq.symm
          · simp
          · simp
  · cases h

/-! ### Any step -/

theorem addEvents_singleton (service : SchedulerService) (db : Db Payload)
    (draft : String → Event) : service.addEvents db [draft] = service.addEvent db draft := by
  simp [SchedulerService.addEvents]

/-- **An operation on a claim with one event.** -/
theorem view_fencedEvent {service : SchedulerService} {w : World Payload} {clock : ClockReads}
    {job : ClaimedJob Payload} {db db' : Db Payload} {assign : JobRow Payload → JobRow Payload}
    {assignAttempt : AttemptRow Payload → AttemptRow Payload} {draft : String → Event}
    (hfence : w.db.fencedUpdate job clock.checked assign = .ok db)
    (hadd : service.addEvent (db.modifyAttempt (job.jobId, job.attemptNumber) assignAttempt)
      draft = .ok db')
    (hkey : ∀ row, (assign row).jobId = row.jobId)
    (hattempt : ∀ row, (assignAttempt row).key = row.key)
    (hdraft : ∀ eventId, (draft eventId).jobId = job.jobId) :
    ∃ row eventId, w.db.jobs.find? job.jobId = some row ∧ job.IsCurrent row clock.checked ∧
      (w.commit clock { db := db' }).view job.jobId =
        (((w.view job.jobId).setRow (assign row)).modifyAttempt job.attemptNumber
          assignAttempt).emit [draft eventId] ∧
      ∀ jobId, jobId ≠ job.jobId → (w.commit clock { db := db' }).view jobId = w.view jobId := by
  rw [← addEvents_singleton] at hadd
  obtain ⟨row, events, hrow, hcur, -, hdrafted, hown, hother⟩ :=
    view_fenced hfence hadd hkey hattempt fun draft' hmem eventId => by
      rw [List.mem_singleton.1 hmem, hdraft]
  obtain ⟨_, _, ⟨eventId, rfl⟩, hnil, rfl⟩ := List.forall₂_cons_left_iff.1 hdrafted
  cases hnil
  exact ⟨row, eventId, hrow, hcur, hown, hother⟩

/-- A claim that was handed out is one of its job's. -/
theorem mem_view_claims {w : World Payload} {job : ClaimedJob Payload} (h : job ∈ w.handed) :
    job ∈ (w.view job.jobId).claims :=
  List.mem_filter.2 ⟨h, by simp⟩

section Fenced

variable {service : SchedulerService} {w : World Payload} {clock : ClockReads}
variable {job : ClaimedJob Payload} {db : Db Payload}

/-- **A start, seen from any job.** -/
theorem view_start (h : service.start w.db job clock = .ok db) (hheld : job ∈ w.handed)
    (jobId : String) :
    JobStep service clock (.start job) (w.view jobId)
      ((w.commit clock { db := db }).view jobId) := by
  simp only [SchedulerService.start, Except.bind_eq_ok_iff] at h
  obtain ⟨db₁, hfence, hadd⟩ := h
  obtain ⟨row, eventId, hrow, hcur, hown, hother⟩ :=
    view_fencedEvent hfence hadd (fun _ => rfl) (fun _ => rfl) fun _ => rfl
  by_cases hj : jobId = job.jobId
  · subst hj
    rw [hown]
    exact .started (mem_view_claims hheld) hrow hcur
  · rw [hother jobId hj]
    exact .idle _ _

/-- **A heartbeat, seen from any job.** -/
theorem view_heartbeat (h : service.heartbeat w.db job clock = .ok db) (hheld : job ∈ w.handed)
    (jobId : String) :
    JobStep service clock (.heartbeat job) (w.view jobId)
      ((w.commit clock { db := db }).view jobId) := by
  unfold SchedulerService.heartbeat at h
  obtain ⟨row, hrow, hcur, -, hatt, hout, -, hjobs⟩ := fencedUpdate_eq_ok h fun _ => rfl
  by_cases hj : jobId = job.jobId
  · subst hj
    have hview : (w.commit clock { db := db }).view job.jobId =
        (w.view job.jobId).setRow (row.renew service.lease clock.written) := by
      simp only [World.view, World.commit, JobView.setRow, hjobs, if_true, hatt, Db.events,
        hout, List.append_nil]
    rw [hview]
    exact .heartbeat (mem_view_claims hheld) hrow hcur
  · rw [view_commit_other]
    · exact .idle _ _
    · rw [hjobs]
      exact if_neg hj
    · intro n
      rw [hatt]
    · simp only [Db.events, hout]
    · simp
    · simp

/-- **A success, seen from any job.** -/
theorem view_succeed {summary : Payload} (h : service.succeed w.db job summary clock = .ok db)
    (hheld : job ∈ w.handed) (jobId : String) :
    JobStep service clock (.succeed job summary) (w.view jobId)
      ((w.commit clock { db := db }).view jobId) := by
  simp only [SchedulerService.succeed, Except.bind_eq_ok_iff] at h
  obtain ⟨db₁, hfence, hadd⟩ := h
  obtain ⟨row, eventId, hrow, hcur, hown, hother⟩ :=
    view_fencedEvent hfence hadd (fun _ => rfl) (fun _ => rfl) fun _ => rfl
  by_cases hj : jobId = job.jobId
  · subst hj
    rw [hown]
    exact .succeeded (mem_view_claims hheld) hrow hcur
  · rw [hother jobId hj]
    exact .idle _ _

/-- The events of a failure are about the job that failed. -/
theorem jobId_of_mem_failureEvents {failure : HandlerError} {draft : String → Event}
    (h : draft ∈ service.failureEvents job failure clock) (eventId : String) :
    (draft eventId).jobId = job.jobId := by
  unfold SchedulerService.failureEvents at h
  rcases List.mem_cons.1 h with rfl | h
  · rfl
  split at h
  · simp only [List.mem_cons, List.not_mem_nil, or_false] at h
    rcases h with rfl | rfl <;> rfl
  split at h
  · obtain rfl := List.mem_singleton.1 h
    rfl
  · cases h

/-- **A failure, seen from any job.** -/
theorem view_fail {failure : HandlerError} (h : service.fail w.db job failure clock = .ok db)
    (hheld : job ∈ w.handed) (jobId : String) :
    JobStep service clock (.fail job failure) (w.view jobId)
      ((w.commit clock { db := db }).view jobId) := by
  simp only [SchedulerService.fail, Except.bind_eq_ok_iff] at h
  obtain ⟨db₁, hfence, hadd⟩ := h
  obtain ⟨row, events, hrow, hcur, hchecks, hdrafted, hown, hother⟩ :=
    view_fenced hfence hadd (fun _ => rfl) (fun _ => rfl)
      fun draft hdraft => jobId_of_mem_failureEvents hdraft
  have havailable := ((JobRow.checks_iff _).1 hchecks).2.2.1
  by_cases hj : jobId = job.jobId
  · subst hj
    rw [hown]
    exact .failed (mem_view_claims hheld) hrow hcur havailable hdrafted
  · rw [hother jobId hj]
    exact .idle _ _

end Fenced

/-- **Every step of the machine is a `JobStep` of every job.** -/
theorem view_step [DecidableEq Payload] {service : SchedulerService} {w w' : World Payload}
    {l : Label Payload} (h : w.next service l = some w') (jobId : String) :
    JobStep service l.clock l.operation (w.view jobId) (w'.view jobId) := by
  obtain ⟨-, hheld, ⟨effect, -, hperform, rfl⟩ | ⟨-, rfl⟩⟩ := World.next_cases h
  swap
  · exact .idle _ _
  obtain ⟨operation, clock, committed⟩ := l
  cases operation with
  | submitChecked value =>
      simp only [SchedulerService.perform, Except.bind_eq_ok_iff] at hperform
      obtain ⟨result, hresult, heffect⟩ := hperform
      cases heffect
      exact view_submitChecked hresult jobId
  | claimDue owner limit locked =>
      simp only [SchedulerService.perform, Except.bind_eq_ok_iff] at hperform
      obtain ⟨result, hresult, heffect⟩ := hperform
      cases heffect
      exact view_claimDue hresult jobId
  | recoverExpiredClaims limit locked =>
      simp only [SchedulerService.perform, Except.bind_eq_ok_iff] at hperform
      obtain ⟨result, hresult, heffect⟩ := hperform
      cases heffect
      exact view_recoverExpiredClaims hresult jobId
  | start job =>
      simp only [SchedulerService.perform, Except.bind_eq_ok_iff] at hperform
      obtain ⟨db, hresult, heffect⟩ := hperform
      cases heffect
      exact view_start hresult (hheld job rfl) jobId
  | heartbeat job =>
      simp only [SchedulerService.perform, Except.bind_eq_ok_iff] at hperform
      obtain ⟨db, hresult, heffect⟩ := hperform
      cases heffect
      exact view_heartbeat hresult (hheld job rfl) jobId
  | succeed job summary =>
      simp only [SchedulerService.perform, Except.bind_eq_ok_iff] at hperform
      obtain ⟨db, hresult, heffect⟩ := hperform
      cases heffect
      exact view_succeed hresult (hheld job rfl) jobId
  | fail job failure =>
      simp only [SchedulerService.perform, Except.bind_eq_ok_iff] at hperform
      obtain ⟨db, hresult, heffect⟩ := hperform
      cases heffect
      exact view_fail hresult (hheld job rfl) jobId

end ScheduledJobs
