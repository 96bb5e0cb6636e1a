/-
**The scheduler's worker.**

A worker takes expired claims back, claims a batch of due jobs and executes them one after the
other: it starts the claim, runs the handler, and writes the outcome.  All jobs of a batch are
claimed at one time and executed in turn, so a lease may run out, and a claim be taken over, while
an earlier job of the batch is executed.  Then the fence turns the worker's next transaction on it
away, and the exception leaves `execute`, `run_once` and `run_forever`, with the rest of the batch.

What other processes do between the worker's transactions, what the handlers do, and how the clock
moves on, are part of the run, as are a stop that is requested and the checkpoints at which the
fault injector raises.

Main definitions:

* `WorkerState`, `WorkerM` — what a worker leaves, and its programs;
* `execute`, `executeAll`, `runOnce`, `runForever` — **the worker**;
* `LostClaimsIsolated` — **what is promised of a lost claim**.

Main results:

* `perform_staleClaim_iff` — which transactions are turned away by the fence;
* `reachable_runForever` — a worker is one of the clients of the scheduler;
* `lostClaimsIsolated_iff` — **the promise is kept exactly by the runs in which no claim is lost**.
-/

import ScheduledJobs.IdempotentSubmission
import ScheduledJobs.StatefulPrograms

set_option relaxedAutoImplicit false
set_option autoImplicit false

namespace ScheduledJobs

variable {Payload : Type}

/-! ### Transactions of a worker -/

/-- How long it is until the first statement of a transaction, and its statements take. -/
structure Waits where
  waited : ℕ := 0
  selected : ℕ := 0
  wrote : ℕ := 0
  deriving DecidableEq, Repr

/-- The readings of the clock, from a time on. -/
def Waits.reads (waits : Waits) (t : Datetime) : ClockReads where
  now := t + waits.waited
  checked := t + waits.waited + waits.selected
  written := t + waits.waited + waits.selected + waits.wrote
  now_le_checked := Int.le_add_of_nonneg_right (Int.natCast_nonneg _)
  checked_le_written := Int.le_add_of_nonneg_right (Int.natCast_nonneg _)

/-- A transaction, with the database it finds. -/
structure Transaction (Payload : Type) where
  db : Db Payload
  operation : Operation Payload
  clock : ClockReads

/-- The claim it is about, if any, is the current one of its row. -/
def Transaction.holdsClaim (t : Transaction Payload) : Bool :=
  t.operation.job?.all fun job =>
    (t.db.jobs.find? job.jobId).any fun row => job.IsCurrent row t.clock.checked

/-- The checkpoints of the fault injector in a worker. -/
inductive WorkerCheckpoint
  | workerAfterClaim
  | workerBeforeComplete
  deriving DecidableEq, Repr

/-- What a worker fails with. -/
inductive WorkerError
  | scheduler (error : SchedulerError)
  | injected (checkpoint : WorkerCheckpoint)
  deriving DecidableEq, Repr

/-- The error is a `StaleClaimError`. -/
def WorkerError.isStaleClaim : WorkerError → Bool
  | scheduler (.staleClaim _) => true
  | _ => false

/-- What a worker leaves: the world, how often it has polled, the jobs it has claimed and those it
has called `execute` on, and its transactions. -/
structure WorkerState (Payload : Type) where
  world : World Payload
  polls : ℕ := 0
  claimed : List (ClaimedJob Payload) := []
  executed : List (ClaimedJob Payload) := []
  log : List (Transaction Payload) := []

/-- Programs of a worker. -/
abbrev WorkerM (Payload : Type) := EStateM WorkerError (WorkerState Payload)

/-! ### What is not up to the worker -/

/-- What a handler does. -/
inductive HandlerOutcome (Payload : Type)
  | returned (summary : Payload)
  | failed (failure : HandlerError)
  /-- Another exception is raised. -/
  | raised

/-- What happens around one job of a batch. -/
structure Turn (Payload : Type) where
  faultAfterClaim : Bool := false
  stopping : Bool := false
  beforeStart : List (Label Payload) := []
  toStart : Waits := {}
  handled : HandlerOutcome Payload
  beforeOutcome : List (Label Payload) := []
  faultBeforeComplete : Bool := false
  toOutcome : Waits := {}

/-- What happens around one poll. -/
structure Pass (Payload : Type) where
  stopping : Bool := false
  beforeRecovery : List (Label Payload) := []
  toRecovery : Waits := {}
  lockedAtRecovery : List String := []
  beforeClaim : List (Label Payload) := []
  toClaim : Waits := {}
  lockedAtClaim : List String := []
  turns : ℕ → Turn Payload

/-- No stop is requested. -/
def Pass.GoesOn (pass : Pass Payload) : Prop :=
  pass.stopping = false ∧ ∀ i, (pass.turns i).stopping = false

/-! ### The worker -/

/-- What a worker is made with. -/
structure SchedulerWorker where
  owner : String
  batchSize : ℤ := 100
  recoveryBatchSize : ℤ := 100
  owner_ne : owner ≠ "" := by decide
  batchSize_pos : 1 ≤ batchSize := by decide
  recoveryBatchSize_pos : 1 ≤ recoveryBatchSize := by decide

/-- What `execute` makes of an exception that is no `HandlerError`. -/
def unexpectedFailure : HandlerError where
  code := "UNEXPECTED_HANDLER_ERROR"
  retryable := true

variable [DecidableEq Payload] (service : SchedulerService)

/-- Other processes take steps; one that is not enabled is not taken. -/
def World.interleave (w : World Payload) (others : List (Label Payload)) : World Payload :=
  others.foldl (fun w l => (w.next service l).getD w) w

namespace SchedulerWorker

def interleave (others : List (Label Payload)) : WorkerM Payload PUnit :=
  modify fun s => { s with world := s.world.interleave service others }

/-- A transaction of the worker. -/
def transact (operation : Operation Payload) (waits : Waits) :
    WorkerM Payload (Effect Payload) := fun s =>
  let clock := waits.reads s.world.clock
  let logged : WorkerState Payload :=
    { s with log := s.log ++ [⟨s.world.db, operation, clock⟩] }
  match service.perform s.world.db clock operation with
  | .ok effect => .ok effect { logged with world := s.world.commit clock effect }
  | .error e => .error (.scheduler e) { logged with world := s.world.rollback clock }

/-- `SchedulerService.execute`. -/
def execute (job : ClaimedJob Payload) (turn : Turn Payload) : WorkerM Payload PUnit := do
  modify fun s => { s with executed := s.executed ++ [job] }
  interleave service turn.beforeStart
  let _ ← transact service (.start job) turn.toStart
  interleave service turn.beforeOutcome
  match turn.handled with
  | .failed failure =>
      let _ ← transact service (.fail job failure) turn.toOutcome
  | .raised =>
      let _ ← transact service (.fail job unexpectedFailure) turn.toOutcome
  | .returned summary =>
      if turn.faultBeforeComplete then throw (.injected .workerBeforeComplete)
      let _ ← transact service (.succeed job summary) turn.toOutcome

/-- The loop of `run_once` over the batch. -/
def executeAll : List (ClaimedJob Payload) → (ℕ → Turn Payload) → WorkerM Payload PUnit
  | [], _ => pure PUnit.unit
  | job :: jobs, turns => do
      if (turns 0).faultAfterClaim then throw (.injected .workerAfterClaim)
      if (turns 0).stopping then return PUnit.unit
      execute service job (turns 0)
      executeAll jobs fun i => turns (i + 1)

/-- **`SchedulerWorker.run_once`.** -/
def runOnce (worker : SchedulerWorker) (pass : Pass Payload) : WorkerM Payload ℕ := do
  interleave service pass.beforeRecovery
  let _ ← transact service (.recoverExpiredClaims worker.recoveryBatchSize pass.lockedAtRecovery)
    pass.toRecovery
  interleave service pass.beforeClaim
  let effect ← transact service (.claimDue worker.owner worker.batchSize pass.lockedAtClaim)
    pass.toClaim
  modify fun s => { s with claimed := s.claimed ++ effect.claims }
  executeAll service effect.claims pass.turns
  return effect.claims.length

/-- **`SchedulerWorker.run_forever`**, for as many polls as there are passes.  When nothing was
claimed it waits, and the next pass begins later. -/
def runForever (worker : SchedulerWorker) : List (Pass Payload) → WorkerM Payload PUnit
  | [] => pure PUnit.unit
  | pass :: passes => do
      if pass.stopping then return PUnit.unit
      modify fun s => { s with polls := s.polls + 1 }
      let _ ← runOnce service worker pass
      runForever worker passes

/-! ### What is promised -/

/-- **A lost claim affects only its own job**: unless something else is raised, the worker polls as
often as there are passes, and calls `execute` on every job it has claimed. -/
def LostClaimsIsolated (worker : SchedulerWorker) (passes : List (Pass Payload))
    (w : World Payload) : Prop :=
  (∀ e s, runForever service worker passes { world := w } = .error e s → e.isStaleClaim = true) →
    ∃ s, runForever service worker passes { world := w } = .ok PUnit.unit s ∧
      s.executed = s.claimed ∧ s.polls = passes.length

/-- No transaction of the run finds that its claim was lost. -/
def ClaimsKept (worker : SchedulerWorker) (passes : List (Pass Payload)) (w : World Payload) :
    Prop :=
  ∀ t ∈ ((runForever service worker passes).stateOf { world := w }).log, t.holdsClaim = true

end SchedulerWorker

/-! ### Which transactions are turned away -/

/-- The error is no `StaleClaimError`. -/
def SchedulerError.NotStale (e : SchedulerError) : Prop := ∀ jobId, e ≠ .staleClaim jobId

omit [DecidableEq Payload] in
theorem updateJobs_notStale (db : Db Payload) (rows : List (JobRow Payload)) :
    (db.updateJobs rows).Meets (fun _ => True) SchedulerError.NotStale := by
  unfold Db.updateJobs
  split
  · trivial
  · exact fun jobId => by simp

omit [DecidableEq Payload] in
theorem insertAttempt_notStale (db : Db Payload) (row : AttemptRow Payload) :
    (db.insertAttempt row).Meets (fun _ => True) SchedulerError.NotStale := by
  unfold Db.insertAttempt
  split
  · split
    · trivial
    · exact fun jobId => by simp
  · exact fun jobId => by simp

variable {service}

omit [DecidableEq Payload] in
theorem addEvent_notStale (db : Db Payload) (draft : String → Event) :
    (service.addEvent db draft).Meets (fun _ => True) SchedulerError.NotStale := by
  unfold SchedulerService.addEvent
  split
  · split
    · trivial
    · exact fun jobId => by simp
  · exact fun jobId => by simp

omit [DecidableEq Payload] in
theorem addEvents_notStale (db : Db Payload) (drafts : List (String → Event)) :
    (service.addEvents db drafts).Meets (fun _ => True) SchedulerError.NotStale :=
  Except.Meets.foldlM (I := fun _ _ => True) (fun draft _ db _ => addEvent_notStale db draft)
    drafts trivial

omit [DecidableEq Payload] in
theorem recordClaim_notStale (owner : String) (written : Datetime) (db : Db Payload)
    (job : ClaimedJob Payload) :
    (service.recordClaim owner written db job).Meets (fun _ => True) SchedulerError.NotStale := by
  unfold SchedulerService.recordClaim
  refine (insertAttempt_notStale db _).bind fun db _ _ => ?_
  exact addEvent_notStale db _

omit [DecidableEq Payload] in
/-- The fence lets the current claim of a row through. -/
theorem fencedUpdate_notStale {db : Db Payload} {job : ClaimedJob Payload} {now : Datetime}
    {row : JobRow Payload} (assign : JobRow Payload → JobRow Payload)
    (hrow : db.jobs.find? job.jobId = some row) (hcur : job.IsCurrent row now) :
    (db.fencedUpdate job now assign).Meets (fun _ => True) SchedulerError.NotStale := by
  unfold Db.fencedUpdate
  rw [hrow]
  dsimp only
  rw [if_pos hcur]
  exact updateJobs_notStale db _

/-- A transaction that is about the current claim of its row, or about none, is not turned away. -/
theorem perform_notStale {db : Db Payload} {clock : ClockReads} {op : Operation Payload}
    (h : Transaction.holdsClaim ⟨db, op, clock⟩ = true) :
    (service.perform db clock op).Meets (fun _ => True) SchedulerError.NotStale := by
  have hcurrent : ∀ job, op.job? = some job →
      ∃ row, db.jobs.find? job.jobId = some row ∧ job.IsCurrent row clock.checked := by
    intro job hjob
    rw [Transaction.holdsClaim, hjob, Option.all_some, Option.any_eq_true] at h
    obtain ⟨row, hrow, hcur⟩ := h
    exact ⟨row, hrow, of_decide_eq_true hcur⟩
  cases op with
  | submitChecked value =>
      refine Except.Meets.bind (P := fun _ => True) ?_ fun _ _ _ => trivial
      unfold SchedulerService.submitChecked
      rw [if_pos (value.checks_row clock.written)]
      split
      · trivial
      · exact fun jobId => by simp
      · exact (addEvents_notStale _ _).bind fun _ _ _ => trivial
  | claimDue owner limit locked =>
      refine Except.Meets.bind (P := fun _ => True) ?_ fun _ _ _ => trivial
      unfold SchedulerService.claimDue
      split
      · trivial
      · refine (updateJobs_notStale _ _).bind fun db _ _ => ?_
        refine Except.Meets.bind (P := fun _ => True) ?_ fun _ _ _ => trivial
        exact Except.Meets.foldlM (I := fun _ _ => True)
          (fun job _ db _ => recordClaim_notStale owner clock.written db job) _ trivial
  | recoverExpiredClaims limit locked =>
      refine Except.Meets.bind (P := fun _ => True) ?_ fun _ _ _ => trivial
      unfold Db.recoverExpiredClaims
      split
      · exact fun jobId => by simp
      · exact (updateJobs_notStale _ _).bind fun _ _ _ => trivial
  | start job =>
      obtain ⟨row, hrow, hcur⟩ := hcurrent job rfl
      refine Except.Meets.bind (P := fun _ => True) ?_ fun _ _ _ => trivial
      refine (fencedUpdate_notStale _ hrow hcur).bind fun db _ _ => ?_
      exact addEvent_notStale _ _
  | heartbeat job =>
      obtain ⟨row, hrow, hcur⟩ := hcurrent job rfl
      refine Except.Meets.bind (P := fun _ => True) ?_ fun _ _ _ => trivial
      exact fencedUpdate_notStale _ hrow hcur
  | succeed job summary =>
      obtain ⟨row, hrow, hcur⟩ := hcurrent job rfl
      refine Except.Meets.bind (P := fun _ => True) ?_ fun _ _ _ => trivial
      refine (fencedUpdate_notStale _ hrow hcur).bind fun db _ _ => ?_
      exact addEvent_notStale _ _
  | fail job failure =>
      obtain ⟨row, hrow, hcur⟩ := hcurrent job rfl
      refine Except.Meets.bind (P := fun _ => True) ?_ fun _ _ _ => trivial
      refine (fencedUpdate_notStale _ hrow hcur).bind fun db _ _ => ?_
      exact addEvents_notStale _ _

/-- A transaction that is about a lost claim is turned away. -/
theorem perform_of_not_holdsClaim {db : Db Payload} {clock : ClockReads} {op : Operation Payload}
    (h : Transaction.holdsClaim ⟨db, op, clock⟩ = false) :
    ∃ jobId, service.perform db clock op = .error (.staleClaim jobId) := by
  rw [Transaction.holdsClaim, Option.all_eq_false] at h
  obtain ⟨job, hjob, hany⟩ := h
  refine ⟨job.jobId, perform_stale service hjob fun row hrow hcur => ?_⟩
  rw [hrow, Option.any_some, decide_eq_true hcur] at hany
  cases hany

/-! ### Which runs lose no claim -/

namespace SchedulerWorker

/-- No transaction so far has found its claim lost. -/
def Kept (s : WorkerState Payload) : Prop := ∀ t ∈ s.log, t.holdsClaim = true

/-- The error is a `StaleClaimError`, as a proposition. -/
abbrev Lost (e : WorkerError) : Prop := e.isStaleClaim = true

/-- **A transaction is turned away exactly when its claim was lost.** -/
theorem foresees_transact (op : Operation Payload) (waits : Waits) :
    (transact service op waits).Foresees Kept Lost := by
  intro s hs
  have hlog : (∀ t ∈ s.log ++ [⟨s.world.db, op, waits.reads s.world.clock⟩],
        t.holdsClaim = true) ↔
      Transaction.holdsClaim ⟨s.world.db, op, waits.reads s.world.clock⟩ = true := by
    simp only [List.forall_mem_append, List.forall_mem_singleton]
    exact and_iff_right hs
  rw [transact]
  dsimp only
  cases hheld : Transaction.holdsClaim ⟨s.world.db, op, waits.reads s.world.clock⟩ with
  | false =>
      obtain ⟨jobId, herror⟩ :
          ∃ jobId, service.perform s.world.db (waits.reads s.world.clock) op =
            .error (.staleClaim jobId) := perform_of_not_holdsClaim hheld
      rw [herror]
      refine iff_of_false (fun hkept => ?_) fun hnot => hnot rfl
      rw [hlog.1 hkept] at hheld
      cases hheld
  | true =>
      have hmeets : (service.perform s.world.db (waits.reads s.world.clock) op).Meets
          (fun _ => True) SchedulerError.NotStale := perform_notStale hheld
      cases hperform : service.perform s.world.db (waits.reads s.world.clock) op with
      | ok effect => exact hlog.2 hheld
      | error e =>
          rw [hperform] at hmeets
          refine iff_of_true (hlog.2 hheld) fun hlost => ?_
          cases e with
          | staleClaim jobId => exact hmeets jobId rfl
          | uniqueViolation => cases hlost
          | checkViolation => cases hlost
          | negativeLimit => cases hlost
          | overflow => cases hlost

theorem foresees_interleave (others : List (Label Payload)) :
    (interleave service others).Foresees Kept Lost :=
  EStateM.Foresees.modify fun _ hs => hs

theorem foresees_execute (job : ClaimedJob Payload) (turn : Turn Payload) :
    (execute service job turn).Foresees Kept Lost := by
  unfold execute
  refine EStateM.Foresees.bind (EStateM.Foresees.modify fun _ hs => hs) fun _ => ?_
  refine EStateM.Foresees.bind (foresees_interleave _) fun _ => ?_
  refine EStateM.Foresees.bind (foresees_transact _ _) fun _ => ?_
  refine EStateM.Foresees.bind (foresees_interleave _) fun _ => ?_
  cases turn.handled with
  | failed failure =>
      exact EStateM.Foresees.bind (foresees_transact _ _) fun _ => EStateM.Foresees.pure
  | raised => exact EStateM.Foresees.bind (foresees_transact _ _) fun _ => EStateM.Foresees.pure
  | returned summary =>
      dsimp only
      split
      · refine EStateM.Foresees.bind (EStateM.Foresees.throw (by decide)) fun _ => ?_
        exact EStateM.Foresees.bind (foresees_transact _ _) fun _ => EStateM.Foresees.pure
      · exact EStateM.Foresees.bind (foresees_transact _ _) fun _ => EStateM.Foresees.pure

theorem foresees_executeAll (jobs : List (ClaimedJob Payload)) (turns : ℕ → Turn Payload) :
    (executeAll service jobs turns).Foresees Kept Lost := by
  induction jobs generalizing turns with
  | nil => exact EStateM.Foresees.pure
  | cons job jobs ih =>
      rw [executeAll]
      split
      · exact EStateM.Foresees.throw (by decide)
      · split
        · exact EStateM.Foresees.pure
        · exact EStateM.Foresees.bind (foresees_execute _ _) fun _ => ih _

theorem foresees_runOnce (worker : SchedulerWorker) (pass : Pass Payload) :
    (runOnce service worker pass).Foresees Kept Lost := by
  unfold runOnce
  refine EStateM.Foresees.bind (foresees_interleave _) fun _ => ?_
  refine EStateM.Foresees.bind (foresees_transact _ _) fun _ => ?_
  refine EStateM.Foresees.bind (foresees_interleave _) fun _ => ?_
  refine EStateM.Foresees.bind (foresees_transact _ _) fun effect => ?_
  refine EStateM.Foresees.bind (EStateM.Foresees.modify fun _ hs => hs) fun _ => ?_
  exact EStateM.Foresees.bind (foresees_executeAll _ _) fun _ => EStateM.Foresees.pure

theorem foresees_runForever (worker : SchedulerWorker) (passes : List (Pass Payload)) :
    (runForever service worker passes).Foresees Kept Lost := by
  induction passes with
  | nil => exact EStateM.Foresees.pure
  | cons pass passes ih =>
      rw [runForever]
      split
      · exact EStateM.Foresees.pure
      · refine EStateM.Foresees.bind (EStateM.Foresees.modify fun _ hs => hs) fun _ => ?_
        exact EStateM.Foresees.bind (foresees_runOnce _ _) fun _ => ih

/-! ### What a run that goes through has done -/

/-- The polls, the claimed and the executed jobs of a state. -/
def progress (s : WorkerState Payload) :
    ℕ × List (ClaimedJob Payload) × List (ClaimedJob Payload) :=
  (s.polls, s.claimed, s.executed)

/-- A program that leaves the progress alone, when it returns. -/
def Silent {α : Type} (x : WorkerM Payload α) : Prop :=
  ∀ p, x.Meets (fun s => progress s = p) (fun _ s => progress s = p) fun _ _ => True

theorem silent_transact (op : Operation Payload) (waits : Waits) :
    Silent (transact service op waits) := by
  intro p s hs
  rw [transact]
  dsimp only
  cases service.perform s.world.db (waits.reads s.world.clock) op with
  | ok effect => exact hs
  | error e => trivial

theorem silent_interleave (others : List (Label Payload)) :
    Silent (interleave service others) :=
  fun _ => EStateM.Meets.modify fun _ hs => hs

omit [DecidableEq Payload] in
theorem Silent.bind {α β : Type} {x : WorkerM Payload α} {f : α → WorkerM Payload β}
    (hx : Silent x) (hf : ∀ a, Silent (f a)) : Silent (x >>= f) :=
  fun p => EStateM.Meets.bind (hx p) fun a => hf a p

omit [DecidableEq Payload] in
theorem Silent.pure {α : Type} {a : α} : Silent (Pure.pure a : WorkerM Payload α) :=
  fun _ => EStateM.Meets.pure fun _ hs => hs

omit [DecidableEq Payload] in
theorem Silent.throw {α : Type} {e : WorkerError} :
    Silent (MonadExcept.throw e : WorkerM Payload α) :=
  fun _ => EStateM.Meets.throw fun _ _ => trivial

/-- `execute` is called on its job. -/
theorem meets_execute (job : ClaimedJob Payload) (turn : Turn Payload) (n : ℕ)
    (claimed executed : List (ClaimedJob Payload)) :
    (execute service job turn).Meets (fun s => progress s = (n, claimed, executed))
      (fun _ s => progress s = (n, claimed, executed ++ [job])) fun _ _ => True := by
  unfold execute
  refine EStateM.Meets.bind (Q := fun _ s => progress s = (n, claimed, executed ++ [job]))
    (EStateM.Meets.modify fun s hs => ?_) fun _ => ?_
  · simp only [progress, Prod.mk.injEq] at hs ⊢
    exact ⟨hs.1, hs.2.1, congrArg (· ++ [job]) hs.2.2⟩
  refine Silent.bind (silent_interleave _) (fun _ => ?_) _
  refine Silent.bind (silent_transact _ _) fun _ => ?_
  refine Silent.bind (silent_interleave _) fun _ => ?_
  cases turn.handled with
  | failed failure => exact Silent.bind (silent_transact _ _) fun _ => Silent.pure
  | raised => exact Silent.bind (silent_transact _ _) fun _ => Silent.pure
  | returned summary =>
      dsimp only
      split
      · refine Silent.bind Silent.throw fun _ => ?_
        exact Silent.bind (silent_transact _ _) fun _ => Silent.pure
      · exact Silent.bind (silent_transact _ _) fun _ => Silent.pure

/-- The loop calls it on every job of the batch. -/
theorem meets_executeAll (jobs : List (ClaimedJob Payload)) {turns : ℕ → Turn Payload}
    (hturns : ∀ i, (turns i).stopping = false) (n : ℕ)
    (claimed executed : List (ClaimedJob Payload)) :
    (executeAll service jobs turns).Meets (fun s => progress s = (n, claimed, executed))
      (fun _ s => progress s = (n, claimed, executed ++ jobs)) fun _ _ => True := by
  induction jobs generalizing turns executed with
  | nil =>
      rw [List.append_nil]
      exact EStateM.Meets.pure fun _ hs => hs
  | cons job jobs ih =>
      rw [executeAll, hturns 0]
      split
      · exact EStateM.Meets.throw fun _ _ => trivial
      · refine EStateM.Meets.bind (meets_execute job (turns 0) n claimed executed) fun _ => ?_
        rw [List.append_cons executed job jobs]
        exact ih (fun i => hturns (i + 1)) (executed ++ [job])

/-- A poll executes what it claims. -/
theorem meets_runOnce (worker : SchedulerWorker) {pass : Pass Payload} (hpass : pass.GoesOn)
    (n : ℕ) :
    (runOnce service worker pass).Meets (fun s => s.polls = n ∧ s.executed = s.claimed)
      (fun _ s => s.polls = n ∧ s.executed = s.claimed) fun _ _ => True := by
  intro s hs
  have hmeets : (runOnce service worker pass).Meets
      (fun s' => progress s' = (n, s.claimed, s.claimed))
      (fun _ s' => s'.polls = n ∧ s'.executed = s'.claimed) fun _ _ => True := by
    unfold runOnce
    refine EStateM.Meets.bind (silent_interleave _ _) fun _ => ?_
    refine EStateM.Meets.bind (silent_transact _ _ _) fun _ => ?_
    refine EStateM.Meets.bind (silent_interleave _ _) fun _ => ?_
    refine EStateM.Meets.bind (silent_transact _ _ _) fun effect => ?_
    refine EStateM.Meets.bind
      (Q := fun _ s' => progress s' = (n, s.claimed ++ effect.claims, s.claimed))
      (EStateM.Meets.modify fun s' hs' => ?_) fun _ => ?_
    · simp only [progress, Prod.mk.injEq] at hs' ⊢
      exact ⟨hs'.1, congrArg (· ++ effect.claims) hs'.2.1, hs'.2.2⟩
    refine EStateM.Meets.bind (meets_executeAll _ hpass.2 _ _ _) fun _ => ?_
    refine EStateM.Meets.pure fun s' hs' => ?_
    simp only [progress, Prod.mk.injEq] at hs'
    exact ⟨hs'.1, hs'.2.2.trans hs'.2.1.symm⟩
  refine hmeets s ?_
  simp only [progress, hs.1, hs.2]

/-- **A run that goes through has polled as often as there are passes**, and has executed what it
has claimed. -/
theorem meets_runForever (worker : SchedulerWorker) {passes : List (Pass Payload)}
    (hpasses : ∀ pass ∈ passes, pass.GoesOn) (n : ℕ) :
    (runForever service worker passes).Meets (fun s => s.polls = n ∧ s.executed = s.claimed)
      (fun _ s => s.polls = n + passes.length ∧ s.executed = s.claimed) fun _ _ => True := by
  induction passes generalizing n with
  | nil => exact EStateM.Meets.pure fun _ hs => hs
  | cons pass passes ih =>
      rw [List.forall_mem_cons] at hpasses
      rw [runForever, hpasses.1.1]
      refine EStateM.Meets.bind (Q := fun _ s => s.polls = n + 1 ∧ s.executed = s.claimed)
        (EStateM.Meets.modify fun s hs => ⟨congrArg (· + 1) hs.1, hs.2⟩) fun _ => ?_
      refine EStateM.Meets.bind (meets_runOnce worker hpasses.1 (n + 1)) fun _ => ?_
      rw [List.length_cons, Nat.add_comm passes.length 1, ← Nat.add_assoc]
      exact ih hpasses.2 (n + 1)

/-! ### A client of the scheduler -/

omit [DecidableEq Payload] in
/-- The clock of a transaction does not run backwards. -/
theorem clock_le_reads (waits : Waits) (t : Datetime) : t ≤ (waits.reads t).now :=
  Int.le_add_of_nonneg_right (Int.natCast_nonneg _)

theorem handed_of_next {w w' : World Payload} {l : Label Payload}
    (h : w.next service l = some w') {job : ClaimedJob Payload} (hjob : job ∈ w.handed) :
    job ∈ w'.handed := by
  obtain ⟨-, -, ⟨effect, -, -, rfl⟩ | ⟨-, rfl⟩⟩ := World.next_cases h
  · exact List.mem_append_left _ hjob
  · exact hjob

/-- The worker's world was reached by steps of the scheduler, and the worker holds the claims it has
and those of a batch it works on. -/
structure IsClient (service : SchedulerService) (batch : List (ClaimedJob Payload))
    (s : WorkerState Payload) : Prop where
  reachable : (schedulerMachine service).Reachable s.world
  batch : ∀ job ∈ batch, job ∈ s.world.handed

theorem IsClient.next {batch : List (ClaimedJob Payload)} {s s' : WorkerState Payload}
    (h : IsClient service batch s) {l : Label Payload}
    (hn : s.world.next service l = some s'.world) : IsClient service batch s' where
  reachable := h.reachable.step hn
  batch := fun job hjob => handed_of_next hn (h.batch job hjob)

/-- The program keeps to the steps of the scheduler. -/
def Client {α : Type} (service : SchedulerService) (batch : List (ClaimedJob Payload))
    (x : WorkerM Payload α) : Prop :=
  x.Meets (IsClient service batch) (fun _ => IsClient service batch)
    fun _ => IsClient service batch

section Client

variable {batch : List (ClaimedJob Payload)} {α β : Type}

theorem Client.pure {a : α} : Client service batch (Pure.pure a : WorkerM Payload α) :=
  EStateM.Meets.pure fun _ hs => hs

theorem Client.throw {e : WorkerError} :
    Client service batch (MonadExcept.throw e : WorkerM Payload α) :=
  EStateM.Meets.throw fun _ hs => hs

/-- A program that leaves the world alone. -/
theorem Client.modify {f : WorkerState Payload → WorkerState Payload}
    (hf : ∀ s, (f s).world = s.world) :
    Client service batch (MonadState.modifyGet fun s => (PUnit.unit, f s)) :=
  EStateM.Meets.modify fun s hs => ⟨(hf s).symm ▸ hs.reachable, (hf s).symm ▸ hs.batch⟩

theorem Client.bind {x : WorkerM Payload α} {f : α → WorkerM Payload β}
    (hx : Client service batch x) (hf : ∀ a, Client service batch (f a)) :
    Client service batch (x >>= f) := EStateM.Meets.bind hx hf

end Client

/-- **A transaction of the worker is a step of the scheduler**, and it is handed what it claims. -/
theorem meets_transact {batch : List (ClaimedJob Payload)} {op : Operation Payload}
    (hop : ∀ job, op.job? = some job → job ∈ batch) (waits : Waits) :
    (transact service op waits).Meets (IsClient service batch)
      (fun effect s => IsClient service batch s ∧ ∀ job ∈ effect.claims, job ∈ s.world.handed)
      fun _ => IsClient service batch := by
  intro s hs
  have henabled : s.world.clock ≤ (waits.reads s.world.clock).now ∧
      op.job?.all (fun job => job ∈ s.world.handed) = true := by
    refine ⟨clock_le_reads waits _, ?_⟩
    cases hjob : op.job? with
    | none => rfl
    | some job => exact decide_eq_true (hs.batch job (hop job hjob))
  have hnext : s.world.next service ⟨op, waits.reads s.world.clock, true⟩ =
      match service.perform s.world.db (waits.reads s.world.clock) op with
      | .ok effect => some (s.world.commit (waits.reads s.world.clock) effect)
      | .error _ => some (s.world.rollback (waits.reads s.world.clock)) := by
    rw [World.next, if_pos henabled]
    cases service.perform s.world.db (waits.reads s.world.clock) op <;> rfl
  rw [transact]
  dsimp only
  cases hperform : service.perform s.world.db (waits.reads s.world.clock) op with
  | ok effect =>
      rw [hperform] at hnext
      exact ⟨hs.next hnext, fun job hjob => List.mem_append_right _ hjob⟩
  | error e =>
      rw [hperform] at hnext
      exact hs.next hnext

theorem client_transact {batch : List (ClaimedJob Payload)} {op : Operation Payload}
    (hop : ∀ job, op.job? = some job → job ∈ batch) (waits : Waits) :
    Client service batch (transact service op waits) := by
  intro s hs
  have h := meets_transact hop waits s hs
  cases hresult : transact service op waits s with
  | ok effect s' =>
      rw [hresult] at h
      exact h.1
  | error e s' =>
      rw [hresult] at h
      exact h

theorem client_interleave (batch : List (ClaimedJob Payload)) (others : List (Label Payload)) :
    Client service batch (interleave service others) := by
  refine EStateM.Meets.modify fun s hs => ?_
  suffices h : ∀ w : World Payload, (schedulerMachine service).Reachable w →
      (∀ job ∈ batch, job ∈ w.handed) →
        (schedulerMachine service).Reachable (w.interleave service others) ∧
          ∀ job ∈ batch, job ∈ (w.interleave service others).handed from
    ⟨(h s.world hs.reachable hs.batch).1, (h s.world hs.reachable hs.batch).2⟩
  induction others with
  | nil => exact fun w hw hbatch => ⟨hw, hbatch⟩
  | cons l others ih =>
      intro w hw hbatch
      rw [World.interleave, List.foldl_cons]
      cases hn : w.next service l with
      | none => exact ih w hw hbatch
      | some w' =>
          exact ih w' (hw.step hn) fun job hjob => handed_of_next hn (hbatch job hjob)

theorem client_execute {batch : List (ClaimedJob Payload)} {job : ClaimedJob Payload}
    (hjob : job ∈ batch) (turn : Turn Payload) :
    Client service batch (execute service job turn) := by
  have hop {op : Operation Payload} (h : op.job? = some job) :
      ∀ other, op.job? = some other → other ∈ batch := by
    intro other hother
    rw [h] at hother
    cases hother
    exact hjob
  unfold execute
  refine Client.bind (Client.modify fun _ => rfl) fun _ => ?_
  refine Client.bind (client_interleave batch _) fun _ => ?_
  refine Client.bind (client_transact (hop rfl) _) fun _ => ?_
  refine Client.bind (client_interleave batch _) fun _ => ?_
  cases turn.handled with
  | failed failure => exact Client.bind (client_transact (hop rfl) _) fun _ => Client.pure
  | raised => exact Client.bind (client_transact (hop rfl) _) fun _ => Client.pure
  | returned summary =>
      dsimp only
      split
      · refine Client.bind Client.throw fun _ => ?_
        exact Client.bind (client_transact (hop rfl) _) fun _ => Client.pure
      · exact Client.bind (client_transact (hop rfl) _) fun _ => Client.pure

theorem client_executeAll {batch jobs : List (ClaimedJob Payload)} (hjobs : jobs ⊆ batch)
    (turns : ℕ → Turn Payload) : Client service batch (executeAll service jobs turns) := by
  induction jobs generalizing turns with
  | nil => exact Client.pure
  | cons job jobs ih =>
      rw [List.cons_subset] at hjobs
      rw [executeAll]
      split
      · exact Client.throw
      · split
        · exact Client.pure
        · exact Client.bind (client_execute hjobs.1 _) fun _ => ih hjobs.2 _

theorem client_runOnce (worker : SchedulerWorker) (pass : Pass Payload) :
    Client service [] (runOnce service worker pass) := by
  have hnone {op : Operation Payload} (h : op.job? = none) :
      ∀ job, op.job? = some job → job ∈ ([] : List (ClaimedJob Payload)) := by
    intro job hjob
    rw [h] at hjob
    cases hjob
  have hforget {batch : List (ClaimedJob Payload)} {s : WorkerState Payload}
      (h : IsClient service batch s) : IsClient service [] s := ⟨h.reachable, by simp⟩
  unfold runOnce
  refine Client.bind (client_interleave [] _) fun _ => ?_
  refine Client.bind (client_transact (hnone rfl) _) fun _ => ?_
  refine Client.bind (client_interleave [] _) fun _ => ?_
  refine EStateM.Meets.bind (meets_transact (hnone rfl) _) fun effect => ?_
  -- from here on the worker holds the claims of the batch
  refine EStateM.Meets.bind (Q := fun _ => IsClient service effect.claims)
    (EStateM.Meets.modify fun s hs => ⟨hs.1.reachable, hs.2⟩) fun _ => ?_
  have hloop : Client service effect.claims (executeAll service effect.claims pass.turns) :=
    client_executeAll (List.Subset.refl effect.claims) pass.turns
  refine EStateM.Meets.bind (Q := fun _ => IsClient service []) ?_ fun _ =>
    EStateM.Meets.pure fun _ hs => hs
  intro s hs
  have h := hloop s hs
  cases hresult : executeAll service effect.claims pass.turns s with
  | ok value s' =>
      rw [hresult] at h
      exact hforget h
  | error e s' =>
      rw [hresult] at h
      exact hforget h

/-- **A worker is one of the clients of the scheduler**: the world it leaves was reached by steps of
the scheduler, however the run ended. -/
theorem reachable_runForever (worker : SchedulerWorker) (passes : List (Pass Payload))
    {w : World Payload} (hw : (schedulerMachine service).Reachable w) :
    (schedulerMachine service).Reachable
      ((runForever service worker passes).stateOf { world := w }).world := by
  have hclient : Client service [] (runForever service worker passes) := by
    induction passes with
    | nil => exact Client.pure
    | cons pass passes ih =>
        rw [runForever]
        split
        · exact Client.pure
        · refine Client.bind (Client.modify fun _ => rfl) fun _ => ?_
          exact Client.bind (client_runOnce worker pass) fun _ => ih
  exact (EStateM.Meets.state hclient ⟨hw, by simp⟩).reachable

/-! ### The promise -/

/-- **Lost claims are isolated exactly in the runs in which none is lost**: a worker that loses one
raises. -/
theorem lostClaimsIsolated_iff (service : SchedulerService) (worker : SchedulerWorker)
    (passes : List (Pass Payload)) (w : World Payload)
    (hpasses : ∀ pass ∈ passes, pass.GoesOn) :
    LostClaimsIsolated service worker passes w ↔ ClaimsKept service worker passes w := by
  have hstart : Kept ({ world := w } : WorkerState Payload) := by
    intro t ht
    cases ht
  have hkept : ClaimsKept service worker passes w ↔ ∀ e s,
      runForever service worker passes { world := w } = .error e s → ¬ Lost e :=
    (foresees_runForever worker passes).good_iff hstart
  rw [hkept]
  constructor
  · intro hisolated e s herror hlost
    obtain ⟨s', hok, -⟩ := hisolated fun e' s' herror' => by
      rw [herror] at herror'
      cases herror'
      exact hlost
    rw [herror] at hok
    cases hok
  · intro hnone honly
    cases hrun : runForever service worker passes { world := w } with
    | error e s => exact absurd (honly e s hrun) (hnone e s hrun)
    | ok value s =>
        obtain ⟨hpolls, hexecuted⟩ :=
          (meets_runForever worker hpasses 0).of_ok ⟨rfl, rfl⟩ hrun
        exact ⟨s, rfl, hexecuted, hpolls.trans (Nat.zero_add _)⟩

/-! ### A batch of two jobs -/

/-- A second submission, due at the time of the first. -/
def secondSubmission : JobSubmission String where
  jobId := "job-2"
  correlationId := "correlation-2"
  jobType := "PRINT"
  scheduledAt := seconds 10
  payload := some "goodbye"

/-- Its claim, when both are claimed as soon as they are due. -/
def secondClaim : ClaimedJob String where
  jobId := "job-2"
  correlationId := "correlation-2"
  jobType := "PRINT"
  payload := some "goodbye"
  payloadReference := none
  scheduledAt := seconds 10
  attemptNumber := 1
  maxAttempts := 3
  claimedBy := "worker-1"
  claimToken := uuidText 5
  claimExpiresAt := seconds 70
  maxAttempts_pos := by decide

/-- Both are submitted and claimed; while the handler of the first one runs, the lease of the second
one is renewed, and the first one's outcome is written some time after that. -/
def pairPass (busy : ℕ) : Pass String where
  beforeRecovery :=
    [⟨.submitChecked twoAttempts, .instant (seconds 1), true⟩,
      ⟨.submitChecked secondSubmission, .instant (seconds 1), true⟩]
  toRecovery := { waited := 9000000 }
  turns
    | 0 =>
        { handled := .returned "done"
          beforeOutcome := [⟨.heartbeat secondClaim, .instant (seconds 30), true⟩]
          toOutcome := { waited := busy } }
    | _ => { handled := .returned "done" }

theorem goesOn_pairPass (busy : ℕ) : ∀ pass ∈ [pairPass busy], pass.GoesOn := by
  intro pass hpass
  obtain rfl := List.mem_singleton.1 hpass
  refine ⟨rfl, fun i => ?_⟩
  cases i with
  | zero => rfl
  | succ i => rfl

/-- When ten seconds more are enough, both jobs are executed. -/
theorem lostClaimsIsolated_pairPass :
    LostClaimsIsolated defaultService { owner := "worker-1" } [pairPass 10000000]
      (schedulerMachine defaultService).start := by
  refine (lostClaimsIsolated_iff defaultService { owner := "worker-1" } [pairPass 10000000]
    (schedulerMachine defaultService).start (goesOn_pairPass _)).mpr ?_
  have hlog : ((runForever defaultService { owner := "worker-1" } [pairPass 10000000]).stateOf
      { world := (schedulerMachine defaultService).start }).log.all Transaction.holdsClaim =
        true := by decide +kernel
  exact List.all_eq_true.mp hlog

/-- When it takes forty-one, the first one's claim is lost, and the second one is not executed. -/
theorem not_lostClaimsIsolated_pairPass :
    ¬ LostClaimsIsolated defaultService { owner := "worker-1" } [pairPass 41000000]
      (schedulerMachine defaultService).start := by
  intro h
  have herror : (runForever defaultService { owner := "worker-1" } [pairPass 41000000]
      { world := (schedulerMachine defaultService).start }).error? =
        some (.scheduler (.staleClaim "job-1")) := by decide +kernel
  obtain ⟨s, hok, -⟩ := h fun e s he => by
    rw [he, EStateM.Result.error?, Option.some_inj] at herror
    rw [herror]
    rfl
  rw [hok] at herror
  cases herror

end SchedulerWorker

end ScheduledJobs
