/-
**Runs of the polling scheduler.**

Over any calls of `enqueue`, `advance` and `poll`, an item is retrieved by at most one poll, not
before its time, and never while an item scheduled earlier is left waiting; and polls that are not
asked for a number work a backlog off batch by batch, however far the clock moves on between them.
A poll should retrieve as many of the due items as its limit allows, and it does so unless it is
asked for none of them.

Main definitions:

* `PollingCall`, `PollingScheduler.perform` — sequences of calls;
* `PollingScheduler.capped`, `PollingScheduler.Exact` — what a poll should retrieve;
* `PollingScheduler.PollsExactly` — **what should hold of a sequence of calls**.

Main results:

* `retrieved_of_call`, `mem_queue_or_retrieved` — no item is forgotten, and none is retrieved again;
* `exact_iff` — what a poll retrieves;
* `exists_queue_eq_drop` — **a backlog is worked off batch by batch**;
* `pollsExactly_iff` — **the polls are exact exactly when none of them is asked for no item while
  one is due**.
-/

import ScheduledJobs.PollingScheduler

set_option relaxedAutoImplicit false
set_option autoImplicit false

namespace ScheduledJobs

/-- A call of the scheduler or of its clock. -/
inductive PollingCall
  | enqueue (item : ScheduledItem)
  | advance (secs minutes : ℤ)
  | poll (args : PollArguments)
  deriving DecidableEq, Repr

/-- The call is a poll. -/
def PollingCall.isPoll : PollingCall → Bool
  | poll _ => true
  | _ => false

/-- The call brings no item, does not turn the clock back, and is not asked for a number. -/
def PollingCall.WorksOff : PollingCall → Prop
  | enqueue _ => False
  | advance secs minutes => 0 ≤ secs + 60 * minutes
  | poll args => args.retrieveCount = none

namespace PollingScheduler

/-- One call. -/
def call (s : PollingScheduler) : PollingCall → Except EngineError PollingScheduler
  | .enqueue item => .ok (s.enqueue item)
  | .advance secs minutes => .ok (s.advance secs minutes)
  | .poll args => (s.poll args).map Prod.fst

/-- Several calls, one after the other. -/
def perform (s : PollingScheduler) (calls : List PollingCall) :
    Except EngineError PollingScheduler :=
  calls.foldlM call s

/-! ### What should hold -/

/-- The limit a poll should have: the maximum, capped by the number it is asked for. -/
def capped (s : PollingScheduler) : Option ℕ → ℕ
  | none => s.config.maxItemsPerPoll
  | some retrieveCount => min s.config.maxItemsPerPoll retrieveCount

/-- Between the two states, the item at a position was retrieved. -/
def Retrieves (s after : PollingScheduler) (i : ℕ) : Prop := ¬ s.Retrieved i ∧ after.Retrieved i

/-- **The poll retrieves the first of the due items**, as many as its limit allows, in their
order. -/
structure Exact (s : PollingScheduler) (args : PollArguments) (after : PollingScheduler)
    (record : PollRecord) : Prop where
  jobIds : record.retrievedJobIds = (s.due.take (s.capped args.retrieveCount)).map (·.1.jobId)
  positions : ∀ i, s.Retrieves after i ↔
    i ∈ (s.due.take (s.capped args.retrieveCount)).map Prod.snd

/-- A poll in a sequence of calls, with the states before and after it. -/
def PolledIn (start : PollingScheduler) (calls : List PollingCall) (before : List PollingCall)
    (args : PollArguments) (s after : PollingScheduler) (record : PollRecord) : Prop :=
  before ++ [.poll args] <+: calls ∧ start.perform before = .ok s ∧
    s.poll args = .ok (after, record)

/-- **What should hold of a sequence of calls.** -/
structure PollsExactly (start : PollingScheduler) (calls : List PollingCall) : Prop where
  returns : ∃ last, start.perform calls = .ok last
  exact : ∀ before args s after record, PolledIn start calls before args s after record →
    s.Exact args after record
  /-- What one poll retrieves, no later poll retrieves. -/
  once : ∀ before args s after record, PolledIn start calls before args s after record →
    ∀ later again t last record', before ++ [.poll args] <+: later →
      PolledIn start calls later again t last record' →
      ∀ i, s.Retrieves after i → ¬ t.Retrieves last i
  notEarly : ∀ before args s after record, PolledIn start calls before args s after record →
    ∀ i, s.Retrieves after i → ∃ item, s.items[i]? = some item ∧ item.scheduledAt ≤ s.clock
  /-- An item that is retrieved is not scheduled later than one that is left waiting. -/
  notOvertaken : ∀ before args s after record, PolledIn start calls before args s after record →
    ∀ a b, a ∈ s.queue → s.Retrieves after a.2 → b ∈ after.queue → a.1.scheduledAt ≤ b.1.scheduledAt
  /-- Any number of polls retrieve that many batches of what was due before them. -/
  backlog : ∀ before more, before ++ more <+: calls → (∀ c ∈ more, c.WorksOff) →
    ∀ s last, start.perform before = .ok s → s.perform more = .ok last →
      ∀ entry ∈ s.due, last.Retrieved entry.2 ↔
        entry ∈ s.due.take (more.countP PollingCall.isPoll * s.config.maxItemsPerPoll)

/-! ### Calls -/

variable {s after : PollingScheduler}

/-- A poll, as a call. -/
theorem call_poll_eq_ok_iff {args : PollArguments} :
    s.call (.poll args) = .ok after ↔ ∃ record, s.poll args = .ok (after, record) := by
  rw [call]
  cases hpoll : s.poll args with
  | error e => simp [Except.map]
  | ok result =>
      constructor
      · intro h
        cases h
        exact ⟨result.2, rfl⟩
      · rintro ⟨record, h⟩
        cases h
        rfl

theorem exists_call_eq_ok (s : PollingScheduler) (c : PollingCall) :
    ∃ after, s.call c = .ok after := by
  cases c with
  | enqueue item => exact ⟨_, rfl⟩
  | advance secs minutes => exact ⟨_, rfl⟩
  | poll args =>
      obtain ⟨after, record, hpoll, -⟩ := s.poll_spec args
      exact ⟨after, call_poll_eq_ok_iff.mpr ⟨record, hpoll⟩⟩

theorem perform_cons_eq_ok_iff {c : PollingCall} {calls : List PollingCall} :
    s.perform (c :: calls) = .ok after ↔
      ∃ next, s.call c = .ok next ∧ next.perform calls = .ok after := by
  rw [perform, List.foldlM_cons, Except.bind_eq_ok_iff]
  rfl

theorem perform_append_eq_ok_iff {calls more : List PollingCall} :
    s.perform (calls ++ more) = .ok after ↔
      ∃ mid, s.perform calls = .ok mid ∧ mid.perform more = .ok after := by
  rw [perform, List.foldlM_append, Except.bind_eq_ok_iff]
  rfl

theorem perform_singleton {c : PollingCall} : s.perform [c] = s.call c := by
  rw [perform, List.foldlM_cons]
  cases s.call c <;> rfl

/-- **Calls go through.** -/
theorem exists_perform_eq_ok (s : PollingScheduler) (calls : List PollingCall) :
    ∃ last, s.perform calls = .ok last := by
  induction calls generalizing s with
  | nil => exact ⟨s, rfl⟩
  | cons c calls ih =>
      obtain ⟨next, hnext⟩ := s.exists_call_eq_ok c
      obtain ⟨last, hlast⟩ := ih next
      exact ⟨last, perform_cons_eq_ok_iff.mpr ⟨next, hnext, hlast⟩⟩

/-- What a poll that went through did. -/
theorem poll_spec_of_ok {args : PollArguments} {record : PollRecord}
    (h : s.poll args = .ok (after, record)) :
    after.clock = s.clock ∧ after.config = s.config ∧
      record.retrievedJobIds = (s.due.take (s.limit args.retrieveCount)).map (·.1.jobId) ∧
      after.queue = s.queue.drop (min (s.limit args.retrieveCount) s.due.length) ∧
      ∀ i, after.Retrieved i ↔
        s.Retrieved i ∨ i ∈ (s.due.take (s.limit args.retrieveCount)).map Prod.snd := by
  obtain ⟨after', record', hpoll, hclock, hconfig, -, hids, hqueue, hretrieved⟩ := s.poll_spec args
  rw [hpoll] at h
  cases h
  exact ⟨hclock, hconfig, hids, hqueue, hretrieved⟩

/-! ### No item is forgotten, and none is retrieved again -/

theorem getElem?_enqueue {item : ScheduledItem} {i : ℕ} {found : ScheduledItem}
    (h : s.items[i]? = some found) : (s.enqueue item).items[i]? = some found := by
  have hlt := (List.getElem?_eq_some_iff.mp h).1
  rw [enqueue, List.getElem?_append_left hlt, h]

/-- **An item that was retrieved stays retrieved.** -/
theorem retrieved_of_call {c : PollingCall} (h : s.call c = .ok after) {i : ℕ}
    (hi : s.Retrieved i) : after.Retrieved i := by
  cases c with
  | enqueue item =>
      cases h
      obtain ⟨found, hfound, hflag⟩ := hi
      exact ⟨found, getElem?_enqueue hfound, hflag⟩
  | advance secs minutes =>
      cases h
      exact hi
  | poll args =>
      obtain ⟨record, hpoll⟩ := call_poll_eq_ok_iff.mp h
      exact ((poll_spec_of_ok hpoll).2.2.2.2 i).mpr (Or.inl hi)

theorem retrieved_of_perform {calls : List PollingCall} (h : s.perform calls = .ok after) {i : ℕ}
    (hi : s.Retrieved i) : after.Retrieved i := by
  induction calls generalizing s with
  | nil =>
      cases h
      exact hi
  | cons c calls ih =>
      obtain ⟨next, hnext, hrest⟩ := perform_cons_eq_ok_iff.mp h
      exact ih hrest (retrieved_of_call hnext hi)

/-- An item that waits was not retrieved. -/
theorem not_retrieved_of_mem_queue {entry : ScheduledItem × ℕ} (h : entry ∈ s.queue) :
    ¬ s.Retrieved entry.2 := by
  obtain ⟨hitem, hwaits⟩ := s.mem_queue_iff.mp h
  rintro ⟨item, hfound, hflag⟩
  rw [hitem] at hfound
  obtain rfl := Option.some_inj.mp hfound
  rw [hwaits] at hflag
  cases hflag

/-- **An item that waits goes on waiting until it is retrieved.** -/
theorem mem_queue_or_retrieved {c : PollingCall} (h : s.call c = .ok after)
    {entry : ScheduledItem × ℕ} (hentry : entry ∈ s.queue) :
    entry ∈ after.queue ∨ after.Retrieved entry.2 := by
  cases c with
  | enqueue item =>
      cases h
      obtain ⟨hitem, hwaits⟩ := s.mem_queue_iff.mp hentry
      exact Or.inl ((mem_queue_iff _).mpr ⟨getElem?_enqueue hitem, hwaits⟩)
  | advance secs minutes =>
      cases h
      exact Or.inl hentry
  | poll args =>
      obtain ⟨record, hpoll⟩ := call_poll_eq_ok_iff.mp h
      obtain ⟨-, -, -, hqueue, hretrieved⟩ := poll_spec_of_ok hpoll
      rw [← List.take_append_drop (min (s.limit args.retrieveCount) s.due.length) s.queue,
        List.mem_append, ← s.take_due] at hentry
      rcases hentry with htaken | hleft
      · exact Or.inr ((hretrieved _).mpr (Or.inr (List.mem_map_of_mem htaken)))
      · left
        rw [hqueue]
        exact hleft

theorem mem_queue_or_retrieved_of_perform {calls : List PollingCall}
    (h : s.perform calls = .ok after) {entry : ScheduledItem × ℕ} (hentry : entry ∈ s.queue) :
    entry ∈ after.queue ∨ after.Retrieved entry.2 := by
  induction calls generalizing s with
  | nil =>
      cases h
      exact Or.inl hentry
  | cons c calls ih =>
      obtain ⟨next, hnext, hrest⟩ := perform_cons_eq_ok_iff.mp h
      rcases mem_queue_or_retrieved hnext hentry with hwaits | hflagged
      · exact ih hrest hwaits
      · exact Or.inr (retrieved_of_perform hrest hflagged)

/-! ### Working off a backlog -/

theorem limit_none : s.limit none = s.config.maxItemsPerPoll := by simp [limit]

/-- As the clock moves on, more of a queue is due. -/
theorem length_due_le {later : PollingScheduler} {d : ℕ} (hclock : s.clock ≤ later.clock)
    (hqueue : later.queue = s.queue.drop d) : s.due.length - d ≤ later.due.length := by
  have hinit : (s.due.drop d).countP (fun entry => entry.1.scheduledAt ≤ later.clock) =
      (s.due.drop d).length := by
    rw [List.countP_eq_length]
    intro entry hentry
    have hdue := of_decide_eq_true (List.mem_filter.mp (List.mem_of_mem_drop hentry)).2
    exact decide_eq_true (hdue.trans hclock)
  have hsub : (s.due.drop d).countP (fun entry => entry.1.scheduledAt ≤ later.clock) ≤
      (s.queue.drop d).countP fun entry => entry.1.scheduledAt ≤ later.clock := by
    conv_lhs => rw [s.due_eq_take]
    rw [List.drop_take]
    exact List.Sublist.countP_le (List.take_sublist ..)
  rw [hinit, List.length_drop, ← hqueue, List.countP_eq_length_filter] at hsub
  exact hsub

/-- **A backlog is worked off batch by batch**: some calls that bring nothing new take that many
batches off the front of the queue, or all that was due before them. -/
theorem exists_queue_eq_drop {calls : List PollingCall} (hcalls : ∀ c ∈ calls, c.WorksOff)
    (h : s.perform calls = .ok after) :
    s.clock ≤ after.clock ∧ after.config = s.config ∧ ∃ d, after.queue = s.queue.drop d ∧
      d ≤ calls.countP PollingCall.isPoll * s.config.maxItemsPerPoll ∧
      min (calls.countP PollingCall.isPoll * s.config.maxItemsPerPoll) s.due.length ≤ d := by
  induction calls using List.reverseRecOn generalizing after with
  | nil =>
      cases h
      exact ⟨le_rfl, rfl, 0, rfl, by simp⟩
  | append_singleton calls c ih =>
      obtain ⟨mid, hmid, hlast⟩ := perform_append_eq_ok_iff.mp h
      rw [perform_singleton] at hlast
      obtain ⟨hclock, hconfig, d, hqueue, hupper, hlower⟩ :=
        ih (fun c hc => hcalls c (List.mem_append_left _ hc)) hmid
      have hc := hcalls c (List.mem_append_right _ (List.mem_singleton_self c))
      rw [List.countP_append]
      cases c with
      | enqueue item => exact hc.elim
      | advance secs minutes =>
          cases hlast
          have hforward : mid.clock ≤ mid.clock + seconds (secs + 60 * minutes) :=
            le_add_of_nonneg_right (Int.mul_nonneg hc (by decide))
          exact ⟨hclock.trans hforward, hconfig, d, hqueue, hupper, hlower⟩
      | poll args =>
          obtain ⟨record, hpoll⟩ := call_poll_eq_ok_iff.mp hlast
          obtain ⟨hclock', hconfig', -, hqueue', -⟩ := poll_spec_of_ok hpoll
          have hnone : args.retrieveCount = none := hc
          rw [hnone, limit_none, hconfig, hqueue, List.drop_drop] at hqueue'
          have hdue := length_due_le hclock hqueue
          refine ⟨hclock'.symm ▸ hclock, hconfig'.trans hconfig, _, hqueue', ?_⟩
          have hpolls : List.countP PollingCall.isPoll [.poll args] = 1 := rfl
          rw [hpolls, Nat.add_mul, Nat.one_mul]
          omega

/-! ### One poll -/

/-- The configuration stays as it is. -/
theorem config_of_perform {calls : List PollingCall} (h : s.perform calls = .ok after) :
    after.config = s.config := by
  induction calls generalizing s with
  | nil =>
      cases h
      rfl
  | cons c calls ih =>
      obtain ⟨next, hnext, hrest⟩ := perform_cons_eq_ok_iff.mp h
      rw [ih hrest]
      cases c with
      | enqueue item =>
          cases hnext
          rfl
      | advance secs minutes =>
          cases hnext
          rfl
      | poll args =>
          obtain ⟨record, hpoll⟩ := call_poll_eq_ok_iff.mp hnext
          exact (poll_spec_of_ok hpoll).2.1

/-- The limit is what it should be, unless the poll is asked for no item. -/
theorem limit_eq_capped {retrieveCount : Option ℕ} (h : retrieveCount ≠ some 0) :
    s.limit retrieveCount = s.capped retrieveCount := by
  cases retrieveCount with
  | none => exact min_self _
  | some n =>
      have hn : n ≠ 0 := fun hzero => h (congrArg some hzero)
      have hfilter : (some n).filter (fun n => decide (n ≠ 0)) = some n :=
        Option.filter_some_pos (decide_eq_true hn)
      rw [limit, capped, hfilter, Option.getD_some]

/-- A poll that is asked for no item takes the number for absent. -/
theorem limit_zero : s.limit (some 0) = s.config.maxItemsPerPoll := by
  rw [limit, Option.filter_some_neg (by simp), Option.getD_none, min_self]

theorem mem_queue_of_mem_due {entry : ScheduledItem × ℕ} (h : entry ∈ s.due) : entry ∈ s.queue :=
  (List.mem_filter.mp h).1

/-- What a poll retrieves. -/
theorem retrieves_iff {args : PollArguments} {record : PollRecord}
    (h : s.poll args = .ok (after, record)) (i : ℕ) :
    s.Retrieves after i ↔ i ∈ (s.due.take (s.limit args.retrieveCount)).map Prod.snd := by
  rw [Retrieves, (poll_spec_of_ok h).2.2.2.2 i]
  constructor
  · rintro ⟨hnot, hretrieved | htaken⟩
    · exact absurd hretrieved hnot
    · exact htaken
  · intro htaken
    refine ⟨?_, Or.inr htaken⟩
    obtain ⟨entry, hentry, rfl⟩ := List.mem_map.mp htaken
    exact not_retrieved_of_mem_queue (mem_queue_of_mem_due (List.mem_of_mem_take hentry))

/-- **A poll is exact exactly when it is not asked for no item while one is due.** -/
theorem exact_iff {args : PollArguments} {record : PollRecord} (hmax : 1 ≤ s.config.maxItemsPerPoll)
    (h : s.poll args = .ok (after, record)) :
    s.Exact args after record ↔ (args.retrieveCount = some 0 → s.due = []) := by
  have hids := (poll_spec_of_ok h).2.2.1
  have hpositions := retrieves_iff h
  constructor
  · intro hexact hzero
    have hnone := hids.symm.trans hexact.jobIds
    rw [hzero, limit_zero, capped, Nat.min_zero, List.take_zero, List.map_nil, List.map_eq_nil_iff,
      List.take_eq_nil_iff] at hnone
    rcases hnone with hmax' | hdue
    · omega
    · exact hdue
  · intro hdue
    by_cases hzero : args.retrieveCount = some 0
    · rw [hdue hzero, List.take_nil] at hids hpositions
      exact
        { jobIds := by rw [hdue hzero, List.take_nil]; exact hids
          positions := by rw [hdue hzero, List.take_nil]; exact hpositions }
    · rw [limit_eq_capped hzero] at hids hpositions
      exact { jobIds := hids, positions := hpositions }

/-- What a poll retrieves is due. -/
theorem scheduledAt_le_of_retrieves {args : PollArguments} {record : PollRecord}
    (h : s.poll args = .ok (after, record)) {i : ℕ} (hi : s.Retrieves after i) :
    ∃ item, s.items[i]? = some item ∧ item.scheduledAt ≤ s.clock := by
  obtain ⟨entry, hentry, rfl⟩ := List.mem_map.mp ((retrieves_iff h i).mp hi)
  have hdue := List.mem_of_mem_take hentry
  exact ⟨entry.1, (s.mem_queue_iff.mp (mem_queue_of_mem_due hdue)).1,
    of_decide_eq_true (List.mem_filter.mp hdue).2⟩

/-- **An item that a poll retrieves does not overtake one that it leaves.** -/
theorem scheduledAt_le_of_mem_queue {args : PollArguments} {record : PollRecord}
    (h : s.poll args = .ok (after, record)) {a b : ScheduledItem × ℕ} (ha : a ∈ s.queue)
    (hretrieved : s.Retrieves after a.2) (hb : b ∈ after.queue) :
    a.1.scheduledAt ≤ b.1.scheduledAt := by
  have htaken := (retrieves_iff h a.2).mp hretrieved
  rw [s.take_due] at htaken
  rw [(poll_spec_of_ok h).2.2.2.1] at hb
  exact (SortedQueues.rel_of_mem_take s.pairwise_queue (s.mem_of_position_mem ha htaken)
    hb).scheduledAt_le

/-- **What was due is retrieved batch by batch.** -/
theorem retrieved_iff_of_worksOff {calls : List PollingCall} (hcalls : ∀ c ∈ calls, c.WorksOff)
    (h : s.perform calls = .ok after) {entry : ScheduledItem × ℕ} (hentry : entry ∈ s.due) :
    after.Retrieved entry.2 ↔
      entry ∈ s.due.take (calls.countP PollingCall.isPoll * s.config.maxItemsPerPoll) := by
  obtain ⟨-, -, d, hqueue, hupper, hlower⟩ := exists_queue_eq_drop hcalls h
  have hwaits := mem_queue_of_mem_due hentry
  have hretrieved : after.Retrieved entry.2 ↔ entry ∉ s.queue.drop d := by
    rw [← hqueue]
    constructor
    · intro hflagged hleft
      exact not_retrieved_of_mem_queue hleft hflagged
    · intro hgone
      exact (mem_queue_or_retrieved_of_perform h hwaits).resolve_left hgone
  rw [s.take_due, hretrieved]
  constructor
  · intro hgone
    have htaken : entry ∈ s.queue.take d := by
      rw [← List.take_append_drop d s.queue, List.mem_append] at hwaits
      exact hwaits.resolve_right hgone
    rw [s.due_eq_take] at hentry
    rcases le_total d s.due.length with hd | hd
    · exact List.take_subset_take_left _ (le_min hupper hd) htaken
    · exact List.take_subset_take_left _ (le_min (hd.trans hupper) le_rfl) hentry
  · intro htaken hleft
    exact List.disjoint_take_drop s.nodup_queue hlower htaken hleft

/-! ### All polls -/

/-- **A sequence of calls polls exactly exactly when no poll is asked for no item while one is
due.** -/
theorem pollsExactly_iff (start : PollingScheduler) (calls : List PollingCall)
    (hmax : 1 ≤ start.config.maxItemsPerPoll) :
    start.PollsExactly calls ↔
      ∀ before args s, before ++ [.poll args] <+: calls → start.perform before = .ok s →
        args.retrieveCount = some 0 → s.due = [] := by
  have hmaxOf {before : List PollingCall} {s : PollingScheduler}
      (h : start.perform before = .ok s) : 1 ≤ s.config.maxItemsPerPoll := by
    rw [config_of_perform h]
    exact hmax
  constructor
  · intro hexact before args s hbefore hs hzero
    obtain ⟨after, record, hpoll, -⟩ := s.poll_spec args
    exact (exact_iff (hmaxOf hs) hpoll).mp (hexact.exact before args s after record
      ⟨hbefore, hs, hpoll⟩) hzero
  · intro hdue
    exact
      { returns := start.exists_perform_eq_ok calls
        exact := by
          rintro before args s after record ⟨hbefore, hs, hpoll⟩
          exact (exact_iff (hmaxOf hs) hpoll).mpr (hdue before args s hbefore hs)
        once := by
          rintro before args s after record ⟨hbefore, hs, hpoll⟩ later again t last record'
            ⟨more, rfl⟩ ⟨-, ht, -⟩ i ⟨-, hretrieved⟩ ⟨hnot, -⟩
          -- the later poll starts from a state in which the flag of the first is still set
          obtain ⟨mid, hmid, hmore⟩ := perform_append_eq_ok_iff.mp ht
          obtain ⟨s', hs', hcall⟩ := perform_append_eq_ok_iff.mp hmid
          rw [hs] at hs'
          cases hs'
          rw [perform_singleton, call_poll_eq_ok_iff.mpr ⟨record, hpoll⟩] at hcall
          cases hcall
          exact hnot (retrieved_of_perform hmore hretrieved)
        notEarly := by
          rintro before args s after record ⟨-, -, hpoll⟩ i hi
          exact scheduledAt_le_of_retrieves hpoll hi
        notOvertaken := by
          rintro before args s after record ⟨-, -, hpoll⟩ a b ha hretrieved hb
          exact scheduledAt_le_of_mem_queue hpoll ha hretrieved hb
        backlog := by
          intro before more _ hmore s last _ hlast entry hentry
          exact retrieved_iff_of_worksOff hmore hlast hentry }

/-- Three items, of which two are due at once, and the third a minute later. -/
def sampleCalls : List PollingCall :=
  [.enqueue { jobId := "job-2", scheduledAt := 0 }, .enqueue { jobId := "job-1", scheduledAt := 0 },
    .enqueue { jobId := "job-3", scheduledAt := seconds 60 }, .poll { retrieveCount := some 1 },
    .advance 0 1, .poll {}]

theorem pollsExactly_sampleCalls :
    PollsExactly { clock := 0, config := { maxItemsPerPoll := 2 } } sampleCalls := by
  refine (pollsExactly_iff _ _ (by decide)).mpr fun before args s hbefore _ hzero => ?_
  have hmem : PollingCall.poll args ∈ sampleCalls :=
    hbefore.subset (List.mem_append_right _ (List.mem_singleton_self _))
  simp only [sampleCalls, List.mem_cons, List.not_mem_nil, reduceCtorEq, PollingCall.poll.injEq,
    false_or, or_false] at hmem
  rcases hmem with rfl | rfl
  · cases hzero
  · cases hzero

/-- A poll that is asked for no item retrieves the one that is due. -/
theorem not_pollsExactly_countZero :
    ¬ PollsExactly { clock := 0 }
      [.enqueue { jobId := "job-1", scheduledAt := 0 }, .poll { retrieveCount := some 0 }] := by
  intro h
  let enqueued : PollingScheduler :=
    { clock := 0, items := [{ jobId := "job-1", scheduledAt := 0 }] }
  obtain ⟨after, record, hpoll, -⟩ := enqueued.poll_spec { retrieveCount := some 0 }
  have hexact := h.exact [.enqueue { jobId := "job-1", scheduledAt := 0 }] _ enqueued after record
    ⟨List.prefix_rfl, rfl, hpoll⟩
  have hdue := (exact_iff (by decide) hpoll).mp hexact rfl
  revert hdue
  decide

end PollingScheduler

end ScheduledJobs
