/-
**Delivery order.**

The publisher retries rows one by one, so the events of a job can reach the projector in any order.
For a job that finished in its first attempt the order does not matter, unless its budget was
exhausted: whatever comes before the deciding event leaves the attempt open, and whatever comes
after it is preserved by the guards.  For any other job it does: once a deciding event has been
seen, a failure that arrives late is taken for a contradiction and its attempt never shows it.

Main definitions:

* `attemptStatuses`, `FoldsAlike`, `OrderIndependent` — **the same projection in every order**;
* `Lifecycle.Undecided`, `Lifecycle.finished` — the automaton before and after the deciding event
  of a single attempt.

Main results:

* `lifecycleAll_split` — a single attempt, whatever the order;
* `attemptStatus_ne_failed_run` — a failure that is taken for a contradiction stays lost;
* `orderIndependent_iff` — **the jobs whose projection does not depend on the order**.
-/

import ScheduledJobs.AttemptMap
import ScheduledJobs.OutboxHistory

set_option relaxedAutoImplicit false
set_option autoImplicit false

namespace ScheduledJobs

open JobVisibility

variable {Payload : Type}

/-! ### The same projection in every order -/

/-- The attempts of a projection with their statuses. -/
def attemptStatuses (current : Option JobVisibility) : Set (ℕ × AttemptStatus) :=
  {p | ∃ job ∈ current, ∃ attempt, job.attempts.get? p.1 = some attempt ∧ attempt.status = p.2}

/-- Two lists of events fold to projections with the same recorded status and the same attempt
statuses. -/
def FoldsAlike (left right : List Event) : Prop :=
  ∃ a b, reduceVisibilityAll none left = .ok a ∧ reduceVisibilityAll none right = .ok b ∧
    a.map JobVisibility.recordedStatus = b.map JobVisibility.recordedStatus ∧
    attemptStatuses a = attemptStatuses b

/-- **The order of the events does not matter.** -/
def OrderIndependent (events : List Event) : Prop :=
  ∀ permuted : List Event, permuted.Perm events → FoldsAlike permuted events

theorem mem_attemptStatuses {current : Option JobVisibility} {n : ℕ} {s : AttemptStatus} :
    (n, s) ∈ attemptStatuses current ↔ (lifecycleOf current).attempts n = some s := by
  cases current with
  | none => simp [attemptStatuses, lifecycleOf, Lifecycle.blank]
  | some job => simp [attemptStatuses, lifecycleOf, lifecycle]

/-- A fold that is not empty leaves a projection. -/
theorem reduceAll_eq_none_iff {events : List Event} :
    reduceAll none events = none ↔ events = [] := by
  constructor
  · intro h
    cases events with
    | nil => rfl
    | cons event events =>
        exfalso
        have hsome : ∀ (events : List Event) (job : JobVisibility),
            (reduceAll (some job) events).isSome := by
          intro events
          induction events with
          | nil => exact fun _ => rfl
          | cons event events ih => exact fun job => ih _
        have := hsome events (reduceEvent none event).job
        rw [reduceAll_cons] at h
        rw [h] at this
        cases this
  · rintro rfl
    rfl

/-- **Two orders of one job's events fold alike exactly when the automaton ends alike.** -/
theorem foldsAlike_iff {left right : List Event} {jobId : String} (hperm : left.Perm right)
    (hjob : ∀ event ∈ right, event.jobId = jobId) :
    FoldsAlike left right ↔ lifecycleAll .blank left = lifecycleAll .blank right := by
  have hleft := reduceVisibilityAll_eq_ok jobId left
    (fun event hevent => hjob event (hperm.mem_iff.1 hevent)) none (by simp)
  have hright := reduceVisibilityAll_eq_ok jobId right hjob none (by simp)
  have hlifecycle : ∀ events, lifecycleOf (reduceAll none events) = lifecycleAll .blank events :=
    fun events => lifecycle_reduceAll none events
  rw [← hlifecycle, ← hlifecycle]
  constructor
  · rintro ⟨a, b, ha, hb, hstatus, hattempts⟩
    obtain rfl := Except.ok.inj (hleft.symm.trans ha)
    obtain rfl := Except.ok.inj (hright.symm.trans hb)
    have hget : ∀ n, (lifecycleOf (reduceAll none left)).attempts n =
        (lifecycleOf (reduceAll none right)).attempts n := by
      intro n
      refine Option.ext fun s => ?_
      rw [← mem_attemptStatuses, ← mem_attemptStatuses, hattempts]
    refine Lifecycle.ext ?_ (funext hget)
    cases hl : reduceAll none left with
    | none =>
        rw [hl, Option.map_none] at hstatus
        rw [Option.map_eq_none_iff.1 hstatus.symm]
    | some job =>
        rw [hl, Option.map_some] at hstatus
        obtain ⟨job', hr, hsame⟩ := Option.map_eq_some_iff.1 hstatus.symm
        rw [hr]
        exact hsame.symm
  · intro heq
    refine ⟨_, _, hleft, hright, ?_, ?_⟩
    · have hstatus := congrArg Lifecycle.status heq
      cases hl : reduceAll none left with
      | none =>
          obtain rfl := reduceAll_eq_none_iff.1 hl
          rw [List.nil_perm.1 hperm]
          rfl
      | some job =>
          cases hr : reduceAll none right with
          | none =>
              obtain rfl := reduceAll_eq_none_iff.1 hr
              rw [List.perm_nil.1 hperm] at hl
              cases hl
          | some job' =>
              rw [hl, hr] at hstatus
              exact congrArg some hstatus
    · ext ⟨n, s⟩
      rw [mem_attemptStatuses, mem_attemptStatuses, heq]

/-! ### A single attempt -/

namespace Lifecycle

/-- Nothing but the beginning of the first attempt was observed. -/
structure Undecided (l : Lifecycle) : Prop where
  status : l.status.isTerminal = false
  first : (l.attemptStatus 1).outcome = none
  others : ∀ n, n ≠ 1 → l.attempts n = none

/-- The lifecycle of a job whose first attempt decided it. -/
def finished : Outcome → Lifecycle
  | .succeeded => (blank.put 1 .succeeded).moveTo .succeeded
  | .failed => (blank.put 1 .failed).moveTo .failed

variable {l : Lifecycle} {event : Event}

theorem undecided_blank : Undecided blank := ⟨rfl, rfl, fun _ _ => rfl⟩

theorem Undecided.moveTo (h : l.Undecided) {s : Status} (hs : s.isTerminal = false) :
    (l.moveTo s).Undecided := ⟨hs, h.first, h.others⟩

theorem Undecided.put (h : l.Undecided) {s : AttemptStatus} (hs : s.outcome = none) :
    (l.put 1 s).Undecided :=
  ⟨h.status, by rw [attemptStatus_put_self, hs], fun n hn => by
    rw [attempts_put, Function.update_of_ne hn, h.others n hn]⟩

theorem Undecided.submit (h : l.Undecided) (later : List Status) {s : Status}
    (hs : s.isTerminal = false) : (l.submit later s).Undecided := by
  unfold Lifecycle.submit
  split
  · exact h.moveTo hs
  · exact h

/-- The submission and the beginning of the attempt leave the job undecided. -/
theorem Undecided.next (h : l.Undecided) (hn : event.number = 1)
    (hkind : event.isSubmission = true ∨ event.isBeginning = true) : (l.next event).Undecided := by
  simp only [Event.isSubmission, Event.isBeginning, Bool.or_eq_true, decide_eq_true_eq] at hkind
  rcases hkind with (ht | ht) | (ht | ht)
  · rw [Lifecycle.next, ht]
    simp only [Lifecycle.created]
    split
    · exact h.moveTo rfl
    · exact h
  · rw [Lifecycle.next, ht]
    exact h.submit _ rfl
  · rw [Lifecycle.next, ht]
    simp only [Lifecycle.retrieved, hn]
    refine (h.put ?_).submit _ rfl
    split
    · rfl
    · exact h.first
  · rw [Lifecycle.next, ht]
    simp only [hn]
    have hne : l.status ≠ .succeeded := by
      intro hs
      have hterminal := h.status
      rw [hs] at hterminal
      cases hterminal
    rw [started_of_open h.first hne]
    exact (h.put rfl).moveTo rfl

/-- Putting the deciding status on an undecided job. -/
theorem Undecided.decide (h : l.Undecided) (s : AttemptStatus) (status : Status) :
    (l.put 1 s).moveTo status = (blank.put 1 s).moveTo status := by
  refine Lifecycle.ext rfl (funext fun n => ?_)
  by_cases hn : n = 1
  · simp [hn]
  · simp [Function.update_of_ne hn, h.others n hn, blank]

/-- What comes after the deciding event is preserved. -/
theorem next_finished (outcome : Outcome) (hn : event.number = 1)
    (hkind : event.isSubmission = true ∨ event.isBeginning = true) :
    (finished outcome).next event = finished outcome := by
  have hsame : ∀ o, (finished o).put 1 ((finished o).attemptStatus 1) = finished o := by
    intro o
    refine Lifecycle.ext rfl (funext fun n => ?_)
    by_cases h : n = 1
    · cases o <;> simp [h, finished, Lifecycle.attemptStatus]
    · simp [Function.update_of_ne h]
  simp only [Event.isSubmission, Event.isBeginning, Bool.or_eq_true, decide_eq_true_eq] at hkind
  rcases hkind with (ht | ht) | (ht | ht)
  · rw [Lifecycle.next, ht]
    cases outcome <;> rfl
  · rw [Lifecycle.next, ht]
    cases outcome <;> rfl
  · rw [Lifecycle.next, ht]
    simp only [Lifecycle.retrieved, hn]
    have hne : (finished outcome).attemptStatus 1 ≠ .unknown := by cases outcome <;> decide
    rw [if_neg hne, hsame]
    cases outcome <;> rfl
  · rw [Lifecycle.next, ht]
    simp only [Lifecycle.started, hn]
    have hset : (finished outcome).Settled 1 := by cases outcome <;> decide
    rw [if_pos hset, hsame]

/-- **A single attempt, whatever the order**: one deciding event, and around it the submission and
the beginning of the attempt. -/
theorem lifecycleAll_split {before after : List Event} {outcome : Outcome}
    (hbefore : ∀ e ∈ before, e.number = 1 ∧ (e.isSubmission = true ∨ e.isBeginning = true))
    (hafter : ∀ e ∈ after, e.number = 1 ∧ (e.isSubmission = true ∨ e.isBeginning = true))
    (hdecides : ∀ l : Lifecycle, l.Undecided → l.next event = finished outcome) :
    lifecycleAll blank (before ++ event :: after) = finished outcome := by
  have hundecided : ∀ (es : List Event) (l : Lifecycle), l.Undecided →
      (∀ e ∈ es, e.number = 1 ∧ (e.isSubmission = true ∨ e.isBeginning = true)) →
        (lifecycleAll l es).Undecided := by
    intro es
    induction es with
    | nil => exact fun l hl _ => hl
    | cons e es ih =>
        intro l hl hes
        rw [List.forall_mem_cons] at hes
        exact ih (l.next e) (hl.next hes.1.1 hes.1.2) hes.2
  have hfinished : ∀ (es : List Event),
      (∀ e ∈ es, e.number = 1 ∧ (e.isSubmission = true ∨ e.isBeginning = true)) →
        lifecycleAll (finished outcome) es = finished outcome := by
    intro es
    induction es with
    | nil => exact fun _ => rfl
    | cons e es ih =>
        intro hes
        rw [List.forall_mem_cons] at hes
        have hnext := next_finished outcome hes.1.1 hes.1.2
        rw [lifecycleAll, List.foldl_cons, hnext]
        exact ih hes.2
  have hopen := hundecided before blank undecided_blank hbefore
  rw [lifecycleAll_append, lifecycleAll, List.foldl_cons, hdecides _ hopen]
  exact hfinished after hafter

/-! ### A failure that arrives late -/

/-- Only its own failure makes an attempt fail. -/
theorem attemptStatus_next_ne_failed {k : ℕ} (h : l.attemptStatus k ≠ .failed)
    (hevent : event.eventType = .jobExecutionFailed → event.number ≠ k) :
    (l.next event).attemptStatus k ≠ .failed := by
  intro hfailed
  rcases failed_of_next hfailed with hbefore | ⟨ht, hn⟩
  · exact h hbefore
  · exact hevent ht hn

/-- **A failure that is taken for a contradiction stays lost.** -/
theorem attemptStatus_ne_failed_run {k : ℕ} {events : List Event}
    (hevents : ∀ e ∈ events, e.eventType = .jobExecutionFailed → e.number ≠ k)
    (h : l.attemptStatus k ≠ .failed) : (lifecycleAll l events).attemptStatus k ≠ .failed := by
  induction events generalizing l with
  | nil => exact h
  | cons e events ih =>
      rw [List.forall_mem_cons] at hevents
      exact ih hevents.2 (attemptStatus_next_ne_failed h hevents.1)

/-- A failure of a job that is decided already contradicts it. -/
theorem attemptStatus_next_of_decided {k : ℕ} (h : l.attemptStatus k ≠ .failed)
    (hdecided : l.status.isTerminal = true ∧ l.status ≠ .cancelled)
    (hevent : event.eventType = .jobExecutionFailed ∧ event.number = k) :
    (l.next event).attemptStatus k ≠ .failed := by
  have hcon : l.ContradictsFailure k := Or.inr hdecided
  simp only [Lifecycle.next, hevent.1, hevent.2, Lifecycle.failed, if_neg h, if_pos hcon]
  rw [attemptStatus_put_self]
  exact h

end Lifecycle

/-! ### The events of a finished job -/

/-- An outcome is about an attempt. -/
theorem Event.Fits.number_of_isOutcome {event : Event} {row : JobRow Payload} (h : event.Fits row)
    (hout : event.isOutcome = true) :
    event.number = event.attemptNumber ∧ 1 ≤ event.attemptNumber := by
  have hpos : 1 ≤ event.attemptNumber := by
    rcases h.2 with hsub | hkind
    · simp only [Event.isSubmission, Event.isOutcome, Bool.or_eq_true, decide_eq_true_eq]
        at hsub hout
      rcases hsub with hs | hs <;> rw [hs] at hout <;> simp at hout
    · exact hkind.1
  exact ⟨by rw [Event.number, if_neg (by omega)], hpos⟩

/-- The event that finished a job decides it when the automaton starts with it. -/
theorem Event.Concludes.next_blank {event : Event} {row : JobRow Payload}
    (h : event.Concludes row) :
    ((Lifecycle.blank.next event).status.isTerminal = true ∧
      (Lifecycle.blank.next event).status ≠ .cancelled) ∧
    ∀ k, (event.eventType = .jobExecutionFailed → event.number ≠ k) →
      (Lifecycle.blank.next event).attemptStatus k ≠ .failed := by
  have hblank : ∀ k, Lifecycle.blank.attemptStatus k ≠ .failed := by
    simp [Lifecycle.blank, Lifecycle.attemptStatus]
  refine ⟨?_, fun k hk => Lifecycle.attemptStatus_next_ne_failed (hblank k) hk⟩
  unfold Event.Concludes at h
  cases hs : row.status with
  | succeeded =>
      rw [hs] at h
      simp [Lifecycle.next, h.1, Lifecycle.succeeded, Lifecycle.ContradictsSuccess,
        Lifecycle.blank, Lifecycle.attemptStatus, Status.isTerminal]
  | failed =>
      rw [hs] at h
      simp [Lifecycle.next, h.1, h.2.2, Lifecycle.failed, Lifecycle.ContradictsFailure,
        Lifecycle.blank, Lifecycle.attemptStatus, Status.isTerminal]
  | retriesExhausted =>
      rw [hs] at h
      simp only [Lifecycle.next, h]
      decide
  | pending => rw [hs] at h; cases h
  | claimed => rw [hs] at h; cases h
  | running => rw [hs] at h; cases h
  | retryWait => rw [hs] at h; cases h

/-- The event that finished a job in its first attempt decides it, whatever came before. -/
theorem Event.Concludes.next_undecided {event : Event} {row : JobRow Payload}
    (h : event.Concludes row) (hn : event.number = 1) (hstatus : row.status ≠ .retriesExhausted) :
    event.isOutcome = true ∧ ∃ outcome, ∀ l : Lifecycle, l.Undecided →
      l.next event = Lifecycle.finished outcome := by
  unfold Event.Concludes at h
  cases hs : row.status with
  | succeeded =>
      rw [hs] at h
      refine ⟨by simp [Event.isOutcome, h.1], .succeeded, fun l hl => ?_⟩
      simp only [Lifecycle.next, h.1, hn]
      rw [Lifecycle.succeeded_of_open hl.first hl.status]
      exact hl.decide _ _
  | failed =>
      rw [hs] at h
      refine ⟨by simp [Event.isOutcome, h.1], .failed, fun l hl => ?_⟩
      simp only [Lifecycle.next, h.1, hn, h.2.2, Option.getD_some]
      rw [Lifecycle.failed_of_open hl.first hl.status]
      exact hl.decide _ _
  | retriesExhausted => exact absurd hs hstatus
  | pending => rw [hs] at h; cases h
  | claimed => rw [hs] at h; cases h
  | running => rw [hs] at h; cases h
  | retryWait => rw [hs] at h; cases h

/-- **A job that finished in its first attempt**, before its budget was exhausted. -/
theorem HistoryInv.orderIndependent {v : JobView Payload} {row : JobRow Payload} {jobId : String}
    (h : HistoryInv v row) (hfence : FenceInv v) (hjob : ∀ event ∈ v.events, event.jobId = jobId)
    (hfinal : row.status.isFinal) (hnumber : row.attemptNumber = 1)
    (hstatus : row.status ≠ .retriesExhausted) : OrderIndependent v.events := by
  obtain ⟨e, he, hconcludes⟩ := h.concluded hfinal
  have hone : ∀ event ∈ v.events, event.number = 1 := by
    intro event hevent
    have hle := (h.fits event hevent).1
    rw [hnumber] at hle
    unfold Event.number
    split <;> omega
  obtain ⟨hout, outcome, hdecides⟩ := hconcludes.next_undecided (hone e he) hstatus
  -- every other event is about the submission or the beginning of the attempt
  have hkind : ∀ event ∈ v.events, event.isOutcome = false →
      event.isSubmission = true ∨ event.isBeginning = true := by
    intro event hevent hnot
    obtain ⟨hle, hsub | ⟨hpos, hbegin | hevidence | hlt | hs | hs⟩⟩ := h.fits event hevent
    · exact Or.inl hsub
    · exact Or.inr hbegin
    · rw [hnot] at hevidence
      cases hevidence
    · omega
    · rw [hs] at hfinal
      cases hfinal
    · exact absurd hs hstatus
  -- and the outcome occurs once
  have hcount : outcomesOf 1 v.events ≤ 1 := by
    rw [hfence.outcomes]
    split <;> omega
  have hend : ∀ permuted : List Event, permuted.Perm v.events →
      lifecycleAll .blank permuted = Lifecycle.finished outcome := by
    intro permuted hperm
    obtain ⟨before, after, rfl⟩ := List.append_of_mem (hperm.mem_iff.2 he)
    have hcounts : outcomesOf 1 before + outcomesOf 1 (e :: after) ≤ 1 := by
      rw [← outcomesOf_append, outcomesOf, hperm.countP_eq]
      exact hcount
    have hself : outcomesOf 1 (e :: after) = outcomesOf 1 after + 1 := by
      refine List.countP_cons_of_pos ?_
      have := (h.fits e he).number_of_isOutcome hout
      simp [hout, ← this.1, hone e he]
    have hmem : ∀ event ∈ before ++ after, event ∈ v.events := by
      intro event hevent
      refine hperm.mem_iff.1 ?_
      rcases List.mem_append.1 hevent with hevent | hevent
      · exact List.mem_append_left _ hevent
      · exact List.mem_append_right _ (List.mem_cons_of_mem _ hevent)
    have hothers : ∀ event ∈ before ++ after, event.isOutcome = false := by
      intro event hevent
      have hzero : outcomesOf 1 (before ++ after) = 0 := by
        rw [outcomesOf_append]
        omega
      rw [outcomesOf, List.countP_eq_zero] at hzero
      rw [Bool.eq_false_iff]
      intro hevidence
      have hattempt := (h.fits event (hmem event hevent)).number_of_isOutcome hevidence
      exact hzero event hevent
        (by simp [hevidence, ← hattempt.1, hone event (hmem event hevent)])
    have hfits : ∀ event ∈ before ++ after,
        event.number = 1 ∧ (event.isSubmission = true ∨ event.isBeginning = true) := by
      intro event hevent
      exact ⟨hone event (hmem event hevent),
        hkind event (hmem event hevent) (hothers event hevent)⟩
    exact Lifecycle.lifecycleAll_split
      (fun event hevent => hfits event (List.mem_append_left _ hevent))
      (fun event hevent => hfits event (List.mem_append_right _ hevent)) hdecides
  intro permuted hperm
  rw [foldsAlike_iff hperm hjob, hend permuted hperm, hend v.events (List.Perm.refl _)]

/-- **A failure that can be overtaken** by the event that finished the job. -/
theorem HistoryInv.not_orderIndependent {v : JobView Payload} {row : JobRow Payload}
    {jobId : String} {k : ℕ} (h : HistoryInv v row) (hfence : FenceInv v)
    (hmirrors : LifecycleMirrors v (lifecycleAll .blank v.events))
    (hjob : ∀ event ∈ v.events, event.jobId = jobId) {e : Event} (he : e ∈ v.events)
    (hconcludes : e.Concludes row) (hk : v.outcome? k = some .failed)
    (hne : e.eventType = .jobExecutionFailed → e.number ≠ k) : ¬ OrderIndependent v.events := by
  intro hindependent
  obtain ⟨f, hf, hfailed, hfk⟩ := h.failedEvent k hk
  have hfout : f.isOutcome = true := by simp [Event.isOutcome, hfailed]
  have hfnumber := (h.fits f hf).number_of_isOutcome hfout
  rw [hfk] at hfnumber
  have hef : f ≠ e := by
    rintro rfl
    exact hne hfailed hfnumber.1
  -- the deciding event first, the failure second
  have hperm : (e :: f :: (v.events.erase e).erase f).Perm v.events :=
    ((List.perm_cons_erase ((List.mem_erase_of_ne hef).2 hf)).symm.cons e).trans
      (List.perm_cons_erase he).symm
  have hrest : ∀ g ∈ (v.events.erase e).erase f,
      g.eventType = .jobExecutionFailed → g.number ≠ k := by
    intro g hg hgfailed hgk
    have hcount : outcomesOf k (e :: f :: (v.events.erase e).erase f) ≤ 1 := by
      rw [outcomesOf, hperm.countP_eq]
      refine le_of_eq_of_le (hfence.outcomes k) ?_
      split <;> omega
    have hgout : g.isOutcome = true := by simp [Event.isOutcome, hgfailed]
    have hgmem : g ∈ v.events := hperm.mem_iff.1 (by simp [hg])
    have hgnumber := (h.fits g hgmem).number_of_isOutcome hgout
    have hone : 1 ≤ outcomesOf k ((v.events.erase e).erase f) := by
      refine List.one_le_countP_iff.2 ⟨g, hg, ?_⟩
      simp [hgout, ← hgnumber.1, hgk]
    have hself : outcomesOf k (f :: (v.events.erase e).erase f) =
        outcomesOf k ((v.events.erase e).erase f) + 1 :=
      List.countP_cons_of_pos (by simp [hfout, hfk])
    have hmono : outcomesOf k (f :: (v.events.erase e).erase f) ≤
        outcomesOf k (e :: f :: (v.events.erase e).erase f) :=
      (List.sublist_cons_self _ _).countP_le
    omega
  obtain ⟨hdecided, hblank⟩ := hconcludes.next_blank
  have hlost := Lifecycle.attemptStatus_next_of_decided (hblank k hne) hdecided
    ⟨hfailed, hfnumber.1⟩
  have hend := Lifecycle.attemptStatus_ne_failed_run hrest hlost
  -- in commit order the failure shows
  have hshown : (lifecycleAll .blank v.events).attemptStatus k = .failed := by
    have hmap := hmirrors.attempts k
    obtain ⟨attempt, hattempt, houtcome⟩ := Option.bind_eq_some_iff.1 hk
    rw [hattempt, Option.map_some, houtcome, Option.map_eq_some_iff] at hmap
    obtain ⟨s, hs, hsfailed⟩ := hmap
    have : s = .failed := by
      cases s <;> first | rfl | cases hsfailed
    simp [Lifecycle.attemptStatus, hs, this]
  have halike := (foldsAlike_iff hperm hjob).1 (hindependent _ hperm)
  rw [← halike] at hshown
  exact hend hshown

/-- **The jobs whose projection does not depend on the delivery order**: of the finished jobs none
of whose leases was lost, those that finished in their first attempt with a success or a failure
that is not retried. -/
theorem orderIndependent_iff [DecidableEq Payload] (service : SchedulerService)
    (w : World Payload) (hw : (schedulerMachine service).Reachable w) (jobId : String)
    (row : JobRow Payload) (hrow : w.db.jobs.find? jobId = some row) (hfinal : row.status.isFinal)
    (hlease : ∀ p ∈ w.recovered, p.1 ≠ jobId) :
    OrderIndependent (w.view jobId).events ↔
      row.attemptNumber = 1 ∧ row.status ≠ .retriesExhausted := by
  have hrecovered : (w.view jobId).recovered = [] := by
    simpa [World.view] using hlease
  have hinv := (QueueInv.of_reachable hw jobId).present row hrow
  have hfence := FenceInv.of_reachable hw jobId
  have hmirrors := LifecycleMirrors.of_reachable hw jobId hrecovered
  have hhistory := HistoryInv.of_reachable hw jobId hrecovered row hrow
  have hjob : ∀ event ∈ (w.view jobId).events, event.jobId = jobId := fun event hevent =>
    of_decide_eq_true (List.mem_filter.1 hevent).2
  have hpos : 1 ≤ row.attemptNumber := by
    refine Nat.one_le_iff_ne_zero.2 fun hzero => ?_
    rw [hinv.pending_iff.2 hzero] at hfinal
    cases hfinal
  constructor
  · intro hindependent
    obtain ⟨e, he, hconcludes⟩ := hhistory.concluded hfinal
    by_cases hexhausted : row.status = .retriesExhausted
    · -- the exhausted budget overtakes the last failure
      exfalso
      refine hhistory.not_orderIndependent hfence hmirrors hjob he hconcludes
        (hhistory.failedNow (Or.inr (Or.inr hexhausted))) ?_ hindependent
      intro ht
      rw [Event.Concludes, hexhausted] at hconcludes
      simp only at hconcludes
      rw [hconcludes] at ht
      cases ht
    · refine ⟨?_, hexhausted⟩
      by_contra hnumber
      -- the last outcome overtakes the first failure
      refine hhistory.not_orderIndependent hfence hmirrors hjob he hconcludes
        (hhistory.failedBefore 1 (le_refl _) (by omega)) ?_ hindependent
      intro ht hone
      have hnumber' := (hhistory.fits e he).number_of_isOutcome (by simp [Event.isOutcome, ht])
      have heq : e.attemptNumber = row.attemptNumber := by
        unfold Event.Concludes at hconcludes
        split at hconcludes
        · exact hconcludes.2
        · exact hconcludes.2.1
        · rw [hconcludes] at ht
          cases ht
        · exact absurd hconcludes id
      omega
  · rintro ⟨hnumber, hexhausted⟩
    exact hhistory.orderIndependent hfence hjob hfinal hnumber hexhausted

/-- The first attempt succeeds. -/
def succeededRun : List (Label String) :=
  [⟨.submitChecked twoAttempts, .instant (seconds 1), true⟩,
    ⟨.claimDue "worker-1" 10 [], .instant (seconds 10), true⟩,
    ⟨.start (twoAttemptsClaim 1 2 (seconds 10)), .instant (seconds 11), true⟩,
    ⟨.succeed (twoAttemptsClaim 1 2 (seconds 10)) "done", .instant (seconds 12), true⟩]

/-- The order of its events does not matter. -/
theorem orderIndependent_succeededRun :
    ∃ w, (schedulerMachine defaultService).run (schedulerMachine defaultService).start
        succeededRun = some w ∧ OrderIndependent (w.view "job-1").events := by
  obtain ⟨w, row, hrun, hrow, hstatus, hnumber, hrecovered⟩ : ∃ w row,
      (schedulerMachine defaultService).run (schedulerMachine defaultService).start
        succeededRun = some w ∧ w.db.jobs.find? "job-1" = some row ∧ row.status = .succeeded ∧
      row.attemptNumber = 1 ∧ w.recovered = [] := ⟨_, _, rfl, rfl, rfl, rfl, rfl⟩
  refine ⟨w, hrun, (orderIndependent_iff defaultService w
    (Machine.Reachable.of_run Machine.Reachable.start succeededRun hrun) "job-1" row hrow
      (by rw [hstatus]; rfl) (by simp [hrecovered])).2 ⟨hnumber, by rw [hstatus]; decide⟩⟩

/-- Both attempts fail, in time. -/
def failedTwiceRun : List (Label String) :=
  [⟨.submitChecked twoAttempts, .instant (seconds 1), true⟩,
    ⟨.claimDue "worker-1" 10 [], .instant (seconds 10), true⟩,
    ⟨.start (twoAttemptsClaim 1 2 (seconds 10)), .instant (seconds 11), true⟩,
    ⟨.fail (twoAttemptsClaim 1 2 (seconds 10)) ⟨"TIMEOUT", true⟩, .instant (seconds 12), true⟩,
    ⟨.claimDue "worker-1" 10 [], .instant (seconds 14), true⟩,
    ⟨.start (twoAttemptsClaim 2 8 (seconds 14)), .instant (seconds 15), true⟩,
    ⟨.fail (twoAttemptsClaim 2 8 (seconds 14)) ⟨"TIMEOUT", true⟩, .instant (seconds 16), true⟩]

/-- The recorded status events fold to. -/
def foldedStatus (events : List Event) : Option Status :=
  ((reduceVisibilityAll none events).toOption.bind id).map JobVisibility.recordedStatus

/-- Lists that fold alike fold to the same status. -/
theorem FoldsAlike.foldedStatus_eq {left right : List Event} (h : FoldsAlike left right) :
    foldedStatus left = foldedStatus right := by
  obtain ⟨a, b, ha, hb, hstatus, -⟩ := h
  rw [foldedStatus, foldedStatus, ha, hb]
  exact hstatus

/-- **The job is out of retries, and its events in reverse order show it running.** -/
theorem not_orderIndependent_failedTwiceRun :
    ∃ w row, (schedulerMachine defaultService).run (schedulerMachine defaultService).start
        failedTwiceRun = some w ∧ w.db.jobs.find? "job-1" = some row ∧
      row.status = .retriesExhausted ∧ w.recovered = [] ∧
      foldedStatus (w.view "job-1").events = some .retriesExhausted ∧
      foldedStatus (w.view "job-1").events.reverse = some .running ∧
      ¬ OrderIndependent (w.view "job-1").events := by
  obtain ⟨w, row, hrun, hrow, hstatus, hrecovered, horder, hreverse⟩ : ∃ w row,
      (schedulerMachine defaultService).run (schedulerMachine defaultService).start
        failedTwiceRun = some w ∧ w.db.jobs.find? "job-1" = some row ∧
      row.status = .retriesExhausted ∧ w.recovered = [] ∧
      foldedStatus (w.view "job-1").events = some .retriesExhausted ∧
      foldedStatus (w.view "job-1").events.reverse = some .running :=
    ⟨_, _, rfl, rfl, rfl, rfl, by decide, by decide⟩
  refine ⟨w, row, hrun, hrow, hstatus, hrecovered, horder, hreverse, fun h => ?_⟩
  have hsame := (h _ (List.reverse_perm _)).foldedStatus_eq
  rw [horder, hreverse] at hsame
  cases hsame

end ScheduledJobs
