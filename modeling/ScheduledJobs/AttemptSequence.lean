/-
**The attempts of a projection are the ones that were delivered.**

An event that opens an attempt adds its number to the attempts, on every branch of its handler, and
looks for a missing number before its own.  That finds every gap when it appears: as long as the
numbers have no gap, the event that makes one is an event that opens a number past the next one.  So
whenever the numbers that were delivered have a gap, the finding is there, active, and observed when
the first gap was.

Main definitions:

* `Opened`, `InitialSegment` — the numbers that were delivered, and when they have no gap;
* `ExposesFirstGap` — **the event that exposed the first gap**;
* `AttemptsFaithful` — what is promised of a projection.

Main results:

* `hasGapBefore_iff` — what an event looks for;
* `GapTraced.reduceEvent` — one event;
* `attemptsFaithful_of_reduceVisibilityAll` — **no attempt is invented or hidden, and no gap**.
-/

import ScheduledJobs.RaisedFindings
import ScheduledJobs.RetryAdvertisement

set_option relaxedAutoImplicit false
set_option autoImplicit false

namespace ScheduledJobs

open JobVisibility

/-! ### Numbers and gaps -/

/-- An event that opens the attempt was delivered. -/
def Opened (events : List Event) (n : ℕ) : Prop :=
  ∃ event ∈ events, event.eventType.opensAttempt ∧ event.number = n

/-- The numbers are `1` to `k`, for some `k`. -/
def InitialSegment (numbers : ℕ → Prop) : Prop := ∃ k, ∀ n, numbers n ↔ 1 ≤ n ∧ n ≤ k

/-- **The event that exposed the first gap** of a sequence of events, after those seen before it. -/
structure ExposesFirstGap (events seen : List Event) (event : Event) : Prop where
  delivered : seen ++ [event] <+: events
  gap : ¬ InitialSegment (Opened (seen ++ [event]))
  first : ∀ earlier, earlier <+: seen → InitialSegment (Opened earlier)

/-- **The attempts of a projection are faithful to the events**: their numbers are those delivered,
and when these have a gap the lifecycle is incomplete and the gap is shown by an active finding,
observed when the event that exposed the first gap was ingested. -/
structure AttemptsFaithful (events : List Event) (job : JobVisibility) : Prop where
  keys : ∀ n, n ∈ job.attempts.keys ↔ Opened events n
  gap : ¬ InitialSegment (fun n => n ∈ job.attempts.keys) → job.incompleteLifecycle ∧
    ∃ finding seen event, job.findings.get? .attemptSequenceGap = some finding ∧
      finding.active ∧ ExposesFirstGap events seen event ∧
      finding.firstObservedAt = event.ingestionTime

variable {before : List Event} {event : Event}

theorem Event.number_pos (event : Event) : 1 ≤ event.number := by
  unfold Event.number
  split
  · exact Nat.le_refl 1
  · omega

theorem opened_concat_iff {n : ℕ} :
    Opened (before ++ [event]) n ↔
      Opened before n ∨ event.eventType.opensAttempt ∧ event.number = n := by
  simp only [Opened, List.mem_append, List.mem_singleton, or_and_right, exists_or,
    exists_eq_left]

theorem initialSegment_nil : InitialSegment (Opened []) := by
  refine ⟨0, fun n => iff_of_false ?_ (by omega)⟩
  rintro ⟨event, hmem, -⟩
  cases hmem

/-- An initial segment has no gap before a number that does not make one. -/
theorem initialSegment_concat_iff (h : InitialSegment (Opened before)) :
    InitialSegment (Opened (before ++ [event])) ↔
      ¬ (event.eventType.opensAttempt ∧
        ∃ m, 1 ≤ m ∧ m < event.number ∧ ¬ Opened before m) := by
  obtain ⟨k, hk⟩ := h
  constructor
  · -- a missing number before one that is opened stays missing
    rintro ⟨j, hj⟩ ⟨hopens, m, hpos, hlt, hmissing⟩
    have hnumber := (hj event.number).1 (opened_concat_iff.2 (Or.inr ⟨hopens, rfl⟩))
    rcases opened_concat_iff.1 ((hj m).2 ⟨hpos, by omega⟩) with hm | ⟨-, hm⟩
    · exact hmissing hm
    · omega
  · intro hnot
    by_cases hopens : event.eventType.opensAttempt
    · refine ⟨max k event.number, fun n => ?_⟩
      have hbefore : ∀ m, 1 ≤ m → m < event.number → Opened before m := fun m hpos hlt =>
        by_contra fun hmissing => hnot ⟨hopens, m, hpos, hlt, hmissing⟩
      rw [opened_concat_iff, hk]
      constructor
      · rintro (⟨hpos, hle⟩ | ⟨-, rfl⟩)
        · exact ⟨hpos, by omega⟩
        · exact ⟨event.number_pos, by omega⟩
      · rintro ⟨hpos, hle⟩
        by_cases hlt : n < event.number
        · exact Or.inl ((hk n).1 (hbefore n hpos hlt))
        · by_cases heq : event.number = n
          · exact Or.inr ⟨hopens, heq⟩
          · exact Or.inl ⟨hpos, by omega⟩
    · refine ⟨k, fun n => ?_⟩
      rw [opened_concat_iff, hk]
      exact or_iff_left fun h => hopens h.1

/-- What the exposure of a first gap becomes with one more event. -/
theorem ExposesFirstGap.concat {seen : List Event} {first : Event}
    (h : ExposesFirstGap before seen first) (event : Event) :
    ExposesFirstGap (before ++ [event]) seen first :=
  ⟨h.delivered.trans (List.prefix_append ..), h.gap, h.first⟩

/-! ### What an event looks for -/

/-- **An event finds a gap when an attempt before its own is missing.** -/
theorem hasGapBefore_iff {job : JobVisibility} {number : ℕ} :
    job.hasGapBefore number ↔ ∃ m, 1 ≤ m ∧ m < number ∧ ¬ (job.attempts.get? m).isSome := by
  simp only [hasGapBefore, Bool.and_eq_true, decide_eq_true_eq, List.any_eq_true,
    List.mem_range'_1, Option.isNone_iff_eq_none, Option.not_isSome_iff_eq_none]
  constructor
  · rintro ⟨hlt, m, ⟨hpos, hm⟩, hnone⟩
    exact ⟨m, hpos, by omega, hnone⟩
  · rintro ⟨m, hpos, hm, hnone⟩
    exact ⟨by omega, m, ⟨hpos, by omega⟩, hnone⟩

/-- The numbers of the attempts are those delivered. -/
def KeysOpened (before : List Event) (job : JobVisibility) : Prop :=
  ∀ n, (job.attempts.get? n).isSome ↔ Opened before n

theorem KeysOpened.reduceEvent {current : Option JobVisibility}
    (h : KeysOpened before (currentOrBlank current event)) :
    KeysOpened (before ++ [event]) (reduceEvent current event).job := by
  intro n
  obtain ⟨version, decisions, hjob⟩ := exists_reduceEvent_eq current event
  have hkeys := isSome_get?_projectedBy (currentOrBlank current event) event n
  rw [h n, ← opened_concat_iff] at hkeys
  rw [hjob]
  exact hkeys

/-- An event raises the finding of a gap when it opens an attempt past a missing one, and it then
repeats no outcome. -/
theorem raisedBy_gap_iff {job : JobVisibility} (h : KeysOpened before job)
    (hsegment : InitialSegment (Opened before)) :
    job.RaisedBy event .attemptSequenceGap ↔ ¬ InitialSegment (Opened (before ++ [event])) := by
  rw [initialSegment_concat_iff hsegment, not_not, RaisedBy, Raises, hasGapBefore_iff]
  simp only [h _]
  refine and_iff_right_of_imp ?_
  rintro ⟨-, m, hpos, hlt, hmissing⟩
  rw [← Bool.not_eq_true]
  intro hdup
  -- the attempt of a repeated outcome was opened before, and so were all before it
  obtain ⟨k, hk⟩ := hsegment
  have hopened := (h _).1 (opensAttempt_of_isSemanticDuplicate hdup).2
  have hle := (hk _).1 hopened
  exact hmissing ((hk m).2 ⟨hpos, by omega⟩)

/-! ### One event -/

/-- The finding of a gap is there when, and since when, a gap was exposed. -/
structure GapTraced (before : List Event) (job : JobVisibility) : Prop where
  keys : KeysOpened before job
  clear : (∀ earlier, earlier <+: before → InitialSegment (Opened earlier)) →
    Findings.shown job.findings .attemptSequenceGap = none
  exposed : ∀ seen event, ExposesFirstGap before seen event → job.incompleteLifecycle ∧
    Findings.shown job.findings .attemptSequenceGap = some (event.ingestionTime, true)

theorem GapTraced.reduceEvent {current : Option JobVisibility}
    (h : GapTraced before (currentOrBlank current event)) :
    GapTraced (before ++ [event]) (reduceEvent current event).job := by
  have hshown : Findings.shown (ScheduledJobs.reduceEvent current event).job.findings
        .attemptSequenceGap =
      if (currentOrBlank current event).RaisedBy event .attemptSequenceGap then
        raisedAgain (Findings.shown (currentOrBlank current event).findings .attemptSequenceGap)
          event.ingestionTime
      else Findings.shown (currentOrBlank current event).findings .attemptSequenceGap :=
    shown_reduceEvent current event (by decide) (by decide)
  refine ⟨h.keys.reduceEvent, fun hall => ?_, fun seen first hfirst => ?_⟩
  · have hbefore : ∀ earlier, earlier <+: before → InitialSegment (Opened earlier) :=
      fun earlier hinit => hall earlier (hinit.trans (List.prefix_append ..))
    have hnot : ¬ (currentOrBlank current event).RaisedBy event .attemptSequenceGap := by
      rw [raisedBy_gap_iff h.keys (hbefore before (List.prefix_refl _)), not_not]
      exact hall _ (List.prefix_refl _)
    rw [hshown, if_neg hnot, h.clear hbefore]
  · rcases List.prefix_concat_iff.1 hfirst.delivered with heq | hinit
    · -- this event exposes the first gap
      obtain ⟨rfl, hlast⟩ := List.append_inj' heq rfl
      obtain rfl := List.singleton_inj.1 hlast
      have hraised : (currentOrBlank current first).RaisedBy first .attemptSequenceGap :=
        (raisedBy_gap_iff h.keys (hfirst.first seen (List.prefix_refl _))).2 hfirst.gap
      refine ⟨incompleteLifecycle_reduceEvent current first (Or.inr hraised), ?_⟩
      rw [hshown, if_pos hraised, h.clear hfirst.first]
      rfl
    · -- an earlier one did
      obtain ⟨hincomplete, hbefore⟩ := h.exposed seen first ⟨hinit, hfirst.gap, hfirst.first⟩
      refine ⟨incompleteLifecycle_reduceEvent current event (Or.inl hincomplete), ?_⟩
      rw [hshown, hbefore]
      split <;> rfl

/-! ### Sequences of events -/

/-- Either no gap was exposed, or some event exposed the first. -/
theorem exposed_or_initialSegment (before : List Event) :
    (∀ earlier, earlier <+: before → InitialSegment (Opened earlier)) ∨
      ∃ seen event, ExposesFirstGap before seen event := by
  induction before using List.reverseRecOn with
  | nil =>
      refine Or.inl fun earlier hinit => ?_
      rw [List.prefix_nil.1 hinit]
      exact initialSegment_nil
  | append_singleton before event ih =>
      rcases ih with hall | ⟨seen, first, hfirst⟩
      · by_cases hsegment : InitialSegment (Opened (before ++ [event]))
        · refine Or.inl fun earlier hinit => ?_
          rcases List.prefix_concat_iff.1 hinit with rfl | hinit
          · exact hsegment
          · exact hall earlier hinit
        · exact Or.inr ⟨before, event, List.prefix_refl _, hsegment, hall⟩
      · exact Or.inr ⟨seen, first, hfirst.concat event⟩

theorem GapTraced.blank (jobId : String) : GapTraced [] { jobId := jobId } where
  keys := by
    intro n
    refine iff_of_false Bool.false_ne_true ?_
    rintro ⟨event, hmem, -⟩
    cases hmem
  clear := fun _ => rfl
  exposed := fun seen event hfirst => by
    have hnil := List.prefix_nil.1 hfirst.delivered
    simp at hnil

/-- **No attempt is invented or hidden, and no gap**: the attempts of a projection are faithful to
the events it was reduced from. -/
theorem attemptsFaithful_of_reduceVisibilityAll (events : List Event) (job : JobVisibility)
    (hreduce : reduceVisibilityAll none events = .ok (some job)) : AttemptsFaithful events job := by
  have htraced : GapTraced events job :=
    invariant_of_reduceVisibilityAll_some GapTraced.blank (fun _ _ _ => GapTraced.reduceEvent)
      hreduce
  have hkeys : ∀ n, n ∈ job.attempts.keys ↔ Opened events n := fun n => by
    rw [Dict.mem_keys_iff, htraced.keys n]
  refine ⟨hkeys, fun hgap => ?_⟩
  have hexposed : ∃ seen event, ExposesFirstGap events seen event := by
    refine (exposed_or_initialSegment events).resolve_left fun hall => hgap ?_
    obtain ⟨k, hk⟩ := hall events (List.prefix_refl _)
    exact ⟨k, fun n => (hkeys n).trans (hk n)⟩
  obtain ⟨seen, event, hfirst⟩ := hexposed
  obtain ⟨hincomplete, hshown⟩ := htraced.exposed seen event hfirst
  obtain ⟨finding, hfinding, hpair⟩ := Option.map_eq_some_iff.1 hshown
  obtain ⟨htime, hactive⟩ := Prod.mk.inj hpair
  exact ⟨hincomplete, finding, seen, event, hfinding, hactive, hfirst, htime⟩

/-- A start of the second attempt, and then of the first. -/
theorem attemptsFaithful_secondFirst :
    AttemptsFaithful [retryEvent 1 .jobExecutionStarted 2, retryEvent 2 .jobExecutionStarted 1]
      (reduceEvent (some (reduceEvent none (retryEvent 1 .jobExecutionStarted 2)).job)
        (retryEvent 2 .jobExecutionStarted 1)).job :=
  attemptsFaithful_of_reduceVisibilityAll _ _ rfl

end ScheduledJobs
