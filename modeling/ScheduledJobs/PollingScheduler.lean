/-
**The polling scheduler of the simulator.**

Items are enqueued with the time they are scheduled at.  A poll looks at the items that are due and
not retrieved yet, sorts them by their scheduled time and job id, and retrieves the first of them,
up to a limit; each item that is retrieved is flagged and reported to the engine.  Sorting is
stable, so a list that is filtered and sorted anew for every poll is worked off like one queue.

An item is known by its position among the enqueued ones; each call of `enqueue` adds an item of
its own.  The limit of a poll is to be capped by the number it is asked for, but a poll that is
asked for none takes that number for absent.

Main definitions:

* `PollingScheduler`, `PollingScheduler.poll` — **the scheduler and its poll**;
* `PollingScheduler.queue`, `PollingScheduler.due` — the items not yet retrieved, and those of them
  that are due, in the order in which they are retrieved.

Main results:

* `eligible_eq_due` — sorting what is due gives what is due of the queue;
* `poll_spec` — **a poll takes the first due items off the queue**.
-/

import ScheduledJobs.SortedQueues
import ScheduledJobs.VisibilityEngine
import Mathlib.Data.String.Basic

set_option relaxedAutoImplicit false
set_option autoImplicit false

namespace ScheduledJobs

/-! ### The scheduler -/

/-- The fields of `VisibilityConfig` the polling scheduler reads. -/
structure PollingConfig where
  maxItemsPerPoll : ℕ := 100
  workerCapacity : ℤ := 20
  deriving DecidableEq, Repr

structure ScheduledItem where
  jobId : String
  scheduledAt : Datetime
  correlationId : String := ""
  jobType : String := "GENERIC"
  schedulerReference : Option String := none
  attemptNumber : ℕ := 1
  retrieved : Bool := false
  deriving DecidableEq, Repr

structure PollRecord where
  pollId : String
  pollTime : Datetime
  eligibleCount : ℕ
  retrievedJobIds : List String
  batchLimit : ℕ
  deriving DecidableEq, Repr

/-- The scheduler, with the clock it reads, the number of the next event its factory makes, and
that of its next poll. -/
structure PollingScheduler where
  engine : VisibilityEngine := {}
  clock : Datetime
  nextEvent : ℕ := 1
  config : PollingConfig := {}
  items : List ScheduledItem := []
  polls : List PollRecord := []
  nextPoll : ℕ := 1

/-- The arguments of a poll. -/
structure PollArguments where
  start : Bool := true
  complete : Bool := false
  retrieveCount : Option ℕ := none
  emitRetrieval : Bool := true
  pollerId : String := "poller-1"
  deriving DecidableEq, Repr

/-- A number in a text, filled up with zeros. -/
def zeroFilled (width n : ℕ) : String := String.ofList ((Nat.toDigits 10 n).leftpad width '0')

/-- The order of `(item.scheduled_at, item.job_id)`. -/
def ScheduledItem.Before (a b : ScheduledItem) : Prop :=
  a.scheduledAt < b.scheduledAt ∨ a.scheduledAt = b.scheduledAt ∧ a.jobId ≤ b.jobId

instance (a b : ScheduledItem) : Decidable (a.Before b) := inferInstanceAs (Decidable (_ ∨ _))

namespace PollingScheduler

/-- `enqueue`. -/
def enqueue (s : PollingScheduler) (item : ScheduledItem) : PollingScheduler :=
  { s with items := s.items ++ [item] }

/-- `VirtualClock.advance`. -/
def advance (s : PollingScheduler) (secs minutes : ℤ) : PollingScheduler :=
  { s with clock := s.clock + seconds (secs + 60 * minutes) }

/-- An event the factory makes about an item, applied to the engine. -/
def emit (s : PollingScheduler) (item : ScheduledItem) (eventType : EventType)
    (pollTime : Option Datetime) (resultCode : Option String) :
    Except EngineError PollingScheduler := do
  let (engine, _) ← s.engine.apply
    { eventId := "evt-" ++ zeroFilled 5 s.nextEvent
      eventType := eventType
      eventTime := s.clock
      ingestionTime := s.clock
      jobId := item.jobId
      correlationId := item.correlationId
      jobType := item.jobType
      schedulerReference := item.schedulerReference
      scheduledAt := some item.scheduledAt
      attemptNumber := item.attemptNumber
      resultCode := resultCode
      pollTime := pollTime }
  return { s with engine := engine, nextEvent := s.nextEvent + 1 }

/-- `item.retrieved = True`, for the item at a position. -/
def flag (s : PollingScheduler) (i : ℕ) : PollingScheduler :=
  { s with items := s.items.modify i fun item => { item with retrieved := true } }

/-- `if emit_retrieval`. -/
def reportRetrieval (s : PollingScheduler) (args : PollArguments) (item : ScheduledItem) :
    Except EngineError PollingScheduler :=
  if args.emitRetrieval then s.emit item .jobSchedulerItemRetrieved (some s.clock) none
  else pure s

/-- `if start and position <= worker_capacity`. -/
def reportExecution (s : PollingScheduler) (args : PollArguments) (item : ScheduledItem)
    (position : ℕ) : Except EngineError PollingScheduler :=
  if args.start ∧ (position : ℤ) ≤ s.config.workerCapacity then do
    let started ← s.emit item .jobExecutionStarted none none
    if args.complete then started.emit item .jobExecutionSucceeded none (some "SUCCESS")
    else pure started
  else pure s

/-- The body of the loop of `poll`: the item at a position of the list is flagged and reported. -/
def retrieve (args : PollArguments) (s : PollingScheduler) (entry : (ScheduledItem × ℕ) × ℕ) :
    Except EngineError PollingScheduler := do
  let polled ← (s.flag entry.1.2).reportRetrieval args entry.1.1
  polled.reportExecution args entry.1.1 entry.2

/-- `eligible`, sorted: the due items that are not retrieved, each with its position. -/
def eligible (s : PollingScheduler) : List (ScheduledItem × ℕ) :=
  (s.items.zipIdx.filter fun entry =>
    !entry.1.retrieved && decide (entry.1.scheduledAt ≤ s.clock)).insertionSort
      fun a b => a.1.Before b.1

/-- `min(max_items_per_poll, retrieve_count or max_items_per_poll)`. -/
def limit (s : PollingScheduler) (retrieveCount : Option ℕ) : ℕ :=
  min s.config.maxItemsPerPoll
    ((retrieveCount.filter fun n => n ≠ 0).getD s.config.maxItemsPerPoll)

/-- **`poll`.** -/
def poll (s : PollingScheduler) (args : PollArguments) :
    Except EngineError (PollingScheduler × PollRecord) := do
  let limit := s.limit args.retrieveCount
  let selected := s.eligible.take limit
  let record : PollRecord :=
    { pollId := args.pollerId ++ "-poll-" ++ zeroFilled 4 s.nextPoll
      pollTime := s.clock
      eligibleCount := s.eligible.length
      retrievedJobIds := selected.map fun entry => entry.1.jobId
      batchLimit := limit }
  let recorded := { s with polls := s.polls ++ [record], nextPoll := s.nextPoll + 1 }
  let after ← (selected.zipIdx 1).foldlM (retrieve args) recorded
  return (after, record)

/-! ### The queue -/

/-- The items that are not retrieved yet, in the order in which they will be. -/
def queue (s : PollingScheduler) : List (ScheduledItem × ℕ) :=
  (s.items.zipIdx.filter fun entry => !entry.1.retrieved).insertionSort fun a b => a.1.Before b.1

/-- Those of them that are due. -/
def due (s : PollingScheduler) : List (ScheduledItem × ℕ) :=
  s.queue.filter fun entry => entry.1.scheduledAt ≤ s.clock

end PollingScheduler

/-! ### The order of the queue -/

theorem ScheduledItem.Before.trans {a b c : ScheduledItem} (hab : a.Before b) (hbc : b.Before c) :
    a.Before c := by
  rcases hab with hab | ⟨hab, hab'⟩
  · rcases hbc with hbc | ⟨hbc, -⟩
    · exact Or.inl (hab.trans hbc)
    · exact Or.inl (hbc ▸ hab)
  · rcases hbc with hbc | ⟨hbc, hbc'⟩
    · exact Or.inl (hab ▸ hbc)
    · exact Or.inr ⟨hab.trans hbc, hab'.trans hbc'⟩

theorem ScheduledItem.before_total (a b : ScheduledItem) : a.Before b ∨ b.Before a := by
  rcases lt_trichotomy a.scheduledAt b.scheduledAt with h | h | h
  · exact Or.inl (Or.inl h)
  · rcases le_total a.jobId b.jobId with hid | hid
    · exact Or.inl (Or.inr ⟨h, hid⟩)
    · exact Or.inr (Or.inr ⟨h.symm, hid⟩)
  · exact Or.inr (Or.inl h)

theorem ScheduledItem.Before.scheduledAt_le {a b : ScheduledItem} (h : a.Before b) :
    a.scheduledAt ≤ b.scheduledAt := by
  rcases h with h | ⟨h, -⟩
  · exact h.le
  · exact h.le

instance : IsTrans (ScheduledItem × ℕ) fun a b => a.1.Before b.1 :=
  ⟨fun _ _ _ => ScheduledItem.Before.trans⟩

instance : Std.Total fun a b : ScheduledItem × ℕ => a.1.Before b.1 :=
  ⟨fun a b => ScheduledItem.before_total a.1 b.1⟩

namespace PollingScheduler

variable (s : PollingScheduler)

theorem pairwise_queue : s.queue.Pairwise fun a b => a.1.Before b.1 :=
  List.pairwise_insertionSort _ _

theorem mem_queue_iff {entry : ScheduledItem × ℕ} :
    entry ∈ s.queue ↔ s.items[entry.2]? = some entry.1 ∧ entry.1.retrieved = false := by
  rw [queue, List.mem_insertionSort, List.mem_filter, List.mem_zipIdx_iff_getElem?]
  simp

theorem nodup_queue : s.queue.Nodup := by
  refine (List.perm_insertionSort _ _).nodup_iff.mpr (List.Nodup.filter _ ?_)
  exact List.Nodup.of_map Prod.snd (by rw [List.zipIdx_map_snd]; exact List.nodup_range')

/-- **Sorting what is due gives what is due of the queue.** -/
theorem eligible_eq_due : s.eligible = s.due := by
  rw [due, queue, SortedQueues.filter_insertionSort, List.filter_filter, eligible]
  simp only [Bool.and_comm]

/-- What is due stands at the front of the queue. -/
theorem due_eq_take : s.due = s.queue.take s.due.length := by
  have htake :
      s.due = s.queue.take (s.queue.countP fun entry => entry.1.scheduledAt ≤ s.clock) := by
    refine SortedQueues.filter_eq_take s.pairwise_queue fun a b hab hb => ?_
    exact decide_eq_true (hab.scheduledAt_le.trans (of_decide_eq_true hb))
  rw [due, ← List.countP_eq_length_filter]
  exact htake

/-- Taking from what is due is taking from the queue. -/
theorem take_due (n : ℕ) : s.due.take n = s.queue.take (min n s.due.length) := by
  conv_lhs => rw [s.due_eq_take]
  rw [List.take_take]

/-! ### What a poll does -/

/-- The two schedulers have the same items and the same records of polls, and so on: they differ in
what was reported to the engine. -/
structure Reported (s after : PollingScheduler) : Prop where
  clock : after.clock = s.clock := by rfl
  config : after.config = s.config := by rfl
  items : after.items = s.items := by rfl
  polls : after.polls = s.polls := by rfl
  nextPoll : after.nextPoll = s.nextPoll := by rfl

theorem Reported.trans {s mid after : PollingScheduler} (h : s.Reported mid)
    (h' : mid.Reported after) : s.Reported after where
  clock := h'.clock.trans h.clock
  config := h'.config.trans h.config
  items := h'.items.trans h.items
  polls := h'.polls.trans h.polls
  nextPoll := h'.nextPoll.trans h.nextPoll

/-- An event is reported to the engine. -/
theorem exists_emit_eq_ok (item : ScheduledItem) (eventType : EventType)
    (pollTime : Option Datetime) (resultCode : Option String) :
    ∃ after, s.emit item eventType pollTime resultCode = .ok after ∧ s.Reported after := by
  unfold emit
  obtain ⟨engine, decision, happly⟩ := VisibilityEngine.exists_apply_eq_ok s.engine
    { eventId := "evt-" ++ zeroFilled 5 s.nextEvent, eventType := eventType, eventTime := s.clock
      ingestionTime := s.clock, jobId := item.jobId, correlationId := item.correlationId
      jobType := item.jobType, schedulerReference := item.schedulerReference
      scheduledAt := some item.scheduledAt, attemptNumber := item.attemptNumber
      resultCode := resultCode, pollTime := pollTime }
  rw [happly]
  exact ⟨_, rfl, {}⟩

/-- **An item is flagged and reported.** -/
theorem exists_retrieve_eq_ok (args : PollArguments) (entry : (ScheduledItem × ℕ) × ℕ) :
    ∃ after, retrieve args s entry = .ok after ∧ (s.flag entry.1.2).Reported after := by
  have hpolled : ∃ polled, (s.flag entry.1.2).reportRetrieval args entry.1.1 = .ok polled ∧
      (s.flag entry.1.2).Reported polled := by
    unfold reportRetrieval
    split
    · exact exists_emit_eq_ok ..
    · exact ⟨_, rfl, {}⟩
  obtain ⟨polled, hemit, hpolled⟩ := hpolled
  have hexecuted : ∃ after, polled.reportExecution args entry.1.1 entry.2 = .ok after ∧
      polled.Reported after := by
    unfold reportExecution
    split
    · obtain ⟨started, hstart, hstarted⟩ :=
        polled.exists_emit_eq_ok entry.1.1 .jobExecutionStarted none none
      rw [hstart]
      by_cases hcomplete : args.complete
      · obtain ⟨completed, hemit, hcompleted⟩ :=
          started.exists_emit_eq_ok entry.1.1 .jobExecutionSucceeded none (some "SUCCESS")
        refine ⟨completed, ?_, hstarted.trans hcompleted⟩
        rw [← hemit]
        exact if_pos hcomplete
      · exact ⟨started, if_neg hcomplete, hstarted⟩
    · exact ⟨polled, rfl, {}⟩
  obtain ⟨after, hexecute, hexecuted⟩ := hexecuted
  refine ⟨after, ?_, hpolled.trans hexecuted⟩
  rw [retrieve, hemit]
  exact hexecute

/-- The items at some positions are flagged. -/
theorem items_flagged {items : List ScheduledItem} (positions : List ℕ) :
    positions.foldl (fun items i => items.modify i fun item => { item with retrieved := true })
        items =
      items.mapIdx fun i item =>
        if i ∈ positions then { item with retrieved := true } else item := by
  induction positions generalizing items with
  | nil => exact List.ext_getElem (by simp) fun j hj hj' => by simp
  | cons i positions ih =>
      rw [List.foldl_cons, ih]
      refine List.ext_getElem (by simp) fun j hj hj' => ?_
      simp only [List.getElem_mapIdx, List.getElem_modify, List.mem_cons]
      by_cases hij : i = j
      · subst hij
        simp
      · simp [hij, Ne.symm hij]

/-- **The loop of a poll flags the items it is given.** -/
theorem exists_foldlM_retrieve_eq_ok (args : PollArguments)
    (entries : List ((ScheduledItem × ℕ) × ℕ)) :
    ∃ after, entries.foldlM (retrieve args) s = .ok after ∧
      ({ s with items := s.items.mapIdx fun i item =>
          if i ∈ entries.map fun entry => entry.1.2 then { item with retrieved := true }
          else item } : PollingScheduler).Reported after := by
  rw [← items_flagged]
  induction entries generalizing s with
  | nil => exact ⟨s, rfl, {}⟩
  | cons entry entries ih =>
      obtain ⟨next, hnext, hreported⟩ := s.exists_retrieve_eq_ok args entry
      obtain ⟨after, hafter, hrest⟩ := ih next
      refine ⟨after, ?_, ?_⟩
      · rw [List.foldlM_cons, hnext]
        exact hafter
      · exact
          { clock := hrest.clock.trans hreported.clock
            config := hrest.config.trans hreported.config
            items := by
              rw [hrest.items]
              dsimp only
              rw [hreported.items]
              rfl
            polls := hrest.polls.trans hreported.polls
            nextPoll := hrest.nextPoll.trans hreported.nextPoll }

/-- The item at a position was retrieved. -/
def Retrieved (i : ℕ) : Prop := ∃ item, s.items[i]? = some item ∧ item.retrieved = true

/-- The flags of some positions. -/
theorem retrieved_mapIdx_iff {positions : List ℕ} {after : PollingScheduler}
    (h : after.items = s.items.mapIdx fun i item =>
      if i ∈ positions then { item with retrieved := true } else item) (i : ℕ) :
    after.Retrieved i ↔ s.Retrieved i ∨ i < s.items.length ∧ i ∈ positions := by
  unfold Retrieved
  rw [h, List.getElem?_mapIdx]
  cases hitem : s.items[i]? with
  | none =>
      have hlength := List.getElem?_eq_none_iff.mp hitem
      simp
      omega
  | some item =>
      have hlength : i < s.items.length := (List.getElem?_eq_some_iff.mp hitem).1
      by_cases hi : i ∈ positions
      · simp [hi, hlength]
      · simp [hi]

/-- What is left of the queue when some positions are flagged. -/
theorem queue_mapIdx {positions : List ℕ} {after : PollingScheduler}
    (h : after.items = s.items.mapIdx fun i item =>
      if i ∈ positions then { item with retrieved := true } else item) :
    after.queue = s.queue.filter fun entry => entry.2 ∉ positions := by
  have hzip : after.items.zipIdx = s.items.zipIdx.map fun entry =>
      (if entry.2 ∈ positions then { entry.1 with retrieved := true } else entry.1, entry.2) := by
    rw [h]
    exact List.ext_getElem (by simp) fun j hj hj' => by simp
  have hleft : (s.items.zipIdx.filter fun entry =>
        decide (entry.2 ∉ positions) && !entry.1.retrieved).map (fun entry =>
          (if entry.2 ∈ positions then { entry.1 with retrieved := true } else entry.1, entry.2)) =
      s.items.zipIdx.filter fun entry => decide (entry.2 ∉ positions) && !entry.1.retrieved := by
    refine (List.map_congr_left fun entry hentry => ?_).trans (List.map_id _)
    have hnot : entry.2 ∉ positions :=
      of_decide_eq_true (Bool.and_eq_true_iff.mp (List.mem_filter.mp hentry).2).1
    rw [if_neg hnot]
    rfl
  rw [queue, queue, SortedQueues.filter_insertionSort, List.filter_filter, hzip, List.filter_map,
    ← hleft]
  -- an item stays when it was there and its position is not flagged
  congr 2
  refine List.filter_congr fun entry _ => ?_
  by_cases hentry : entry.2 ∈ positions
  · simp [hentry]
  · simp [hentry]

/-- The items of a queue are at different positions. -/
theorem mem_of_position_mem {entry : ScheduledItem × ℕ} {n : ℕ} (hentry : entry ∈ s.queue)
    (h : entry.2 ∈ (s.queue.take n).map Prod.snd) : entry ∈ s.queue.take n := by
  obtain ⟨taken, htaken, hposition⟩ := List.mem_map.mp h
  have hitem := (s.mem_queue_iff.mp hentry).1
  rw [← hposition, (s.mem_queue_iff.mp (List.mem_of_mem_take htaken)).1] at hitem
  have hsame : taken = entry := Prod.ext (Option.some_inj.mp hitem) hposition
  exact hsame ▸ htaken

/-- **A poll takes the first due items off the queue.** -/
theorem poll_spec (args : PollArguments) :
    ∃ after record, s.poll args = .ok (after, record) ∧
      after.clock = s.clock ∧ after.config = s.config ∧
      record.eligibleCount = s.due.length ∧
      record.retrievedJobIds = (s.due.take (s.limit args.retrieveCount)).map (·.1.jobId) ∧
      after.queue = s.queue.drop (min (s.limit args.retrieveCount) s.due.length) ∧
      ∀ i, after.Retrieved i ↔
        s.Retrieved i ∨ i ∈ (s.due.take (s.limit args.retrieveCount)).map Prod.snd := by
  set selected := s.due.take (s.limit args.retrieveCount) with hselected
  have htaken : selected = s.queue.take (min (s.limit args.retrieveCount) s.due.length) :=
    s.take_due _
  let record : PollRecord :=
    { pollId := args.pollerId ++ "-poll-" ++ zeroFilled 4 s.nextPoll
      pollTime := s.clock
      eligibleCount := s.due.length
      retrievedJobIds := selected.map fun entry => entry.1.jobId
      batchLimit := s.limit args.retrieveCount }
  obtain ⟨after, hafter, hreported⟩ := exists_foldlM_retrieve_eq_ok
    { s with polls := s.polls ++ [record], nextPoll := s.nextPoll + 1 } args (selected.zipIdx 1)
  have hpositions : (selected.zipIdx 1).map (fun entry => entry.1.2) = selected.map Prod.snd := by
    have hzip := congrArg (List.map Prod.snd) (List.zipIdx_map_fst 1 selected)
    rwa [List.map_map] at hzip
  have hitems := hreported.items
  rw [hpositions] at hitems
  refine ⟨after, record, ?_, hreported.clock, hreported.config, rfl, rfl, ?_, fun i => ?_⟩
  · rw [poll, eligible_eq_due, ← hselected]
    exact congrArg (Except.map fun after => (after, record)) hafter
  · rw [s.queue_mapIdx hitems, htaken, ← SortedQueues.filter_notMem_take s.nodup_queue]
    refine List.filter_congr fun entry hentry => ?_
    refine decide_eq_decide.mpr (not_congr ⟨s.mem_of_position_mem hentry, fun hmem => ?_⟩)
    exact List.mem_map_of_mem hmem
  · rw [s.retrieved_mapIdx_iff hitems]
    refine or_congr_right (and_iff_right_of_imp fun hi => ?_)
    obtain ⟨entry, hentry, rfl⟩ := List.mem_map.mp hi
    rw [htaken] at hentry
    exact (List.getElem?_eq_some_iff.mp
      (s.mem_queue_iff.mp (List.mem_of_mem_take hentry)).1).1

end PollingScheduler

end ScheduledJobs
