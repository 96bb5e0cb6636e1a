/-
**An optimistic writer that reloads and reapplies.**

`apply_with_retry` calls `apply` with an expected version, and after a conflict reads the version
of the job again and tries once more, a bounded number of times.  Other writers may apply events
between two tries, before the version is read and after it.  The check of `apply` takes a job that
is not there for one of version 0, but reading the version again does not: a writer that expects
another version of a job that nobody has written yet leaves the loop with a `KeyError`.

Main definitions:

* `Write`, `Interleaved`, `VisibilityEngine.writeAll` — what the other writers apply;
* `VisibilityEngine.applyWithRetry` — **the loop**;
* `VisibilityEngine.Applied` — the event is in the journal once and was reduced into its job;
* `VisibilityEngine.NothingLost` — what the loop promises;
* `VisibilityEngine.ReloadsFind` — the condition: every reload finds the job, and nobody takes the
  id of the event for another one in the meantime.

Main results:

* `accounted_concat_iff` — what one write of another writer preserves;
* `nothingLost_iff_of_accounted` — the loop, from any point of it on;
* `nothingLost_iff` — **nothing is lost exactly when every reload finds the job**.
-/

import ScheduledJobs.OptimisticWriters
import ScheduledJobs.Reconciliation
import ScheduledJobs.RetryAdvertisement

set_option relaxedAutoImplicit false
set_option autoImplicit false

namespace ScheduledJobs

open InMemoryVisibilityRepository (versionOf)

/-! ### The other writers -/

/-- A call of `apply` by another writer. -/
structure Write where
  event : Event
  expectedVersion : Option ℕ := none

/-- What other writers apply between two tries: before the version is read again, and after. -/
structure Interleaved where
  beforeReload : List Write := []
  afterReload : List Write := []

/-- All of it, in its order. -/
def Interleaved.writes (between : Interleaved) : List Write :=
  between.beforeReload ++ between.afterReload

/-- The exceptions the loop is left with: one of the engine, or a key that is missing. -/
inductive RetryError
  | engine (error : EngineError)
  | missingKey (jobId : String)
  deriving DecidableEq, Repr

namespace VisibilityEngine

/-- The engine after another writer's call, whether it went through or was refused. -/
def write (engine : VisibilityEngine) (w : Write) : VisibilityEngine :=
  match engine.apply w.event w.expectedVersion with
  | .ok after => after.1
  | .error _ => engine

/-- Several of them. -/
def writeAll (engine : VisibilityEngine) (writes : List Write) : VisibilityEngine :=
  writes.foldl write engine

/-! ### The loop -/

/-- **`apply_with_retry`**, with what other writers apply between its tries.  Each recursive call is
one more round of the loop. -/
def applyWithRetry (engine : VisibilityEngine) (event : Event) (expectedVersion : ℕ) :
    (retries : ℕ) → List Interleaved → VisibilityEngine × Except RetryError ProjectionDecision
  | 0, _ =>
      match engine.apply event (some expectedVersion) with
      | .ok (after, decision) => (after, .ok decision)
      | .error error => (engine, .error (.engine error))
  | retries + 1, others =>
      match engine.apply event (some expectedVersion) with
      | .ok (after, decision) => (after, .ok decision)
      | .error (.versionConflict _) =>
          let between := others.headD {}
          let reloaded := engine.writeAll between.beforeReload
          -- `self._jobs[event.job_id].version`
          match reloaded.jobs.find? event.jobId with
          | none => (reloaded, .error (.missingKey event.jobId))
          | some job =>
              (reloaded.writeAll between.afterReload).applyWithRetry event job.version retries
                others.tail
      | .error error => (engine, .error (.engine error))

/-! ### What it promises -/

/-- **The event was reduced into its job by one of the calls**, at a point where its id was new. -/
def ReducedBy (engine : VisibilityEngine) (event : Event) (writes : List Write) : Prop :=
  ∃ before expectedVersion later, writes = before ++ ⟨event, expectedVersion⟩ :: later ∧
    event.eventId ∉ (engine.writeAll before).eventIds ∧
    (engine.writeAll (before ++ [⟨event, expectedVersion⟩])).jobs.find? event.jobId =
      some (reduceEvent ((engine.writeAll before).jobs.find? event.jobId) event).job

/-- The event is in the journal exactly once, and was reduced into its job. -/
def Applied (engine : VisibilityEngine) (event : Event) (writes : List Write) : Prop :=
  (engine.writeAll writes).events.count event = 1 ∧ engine.ReducedBy event writes

/-- **Nothing is lost**: the loop returns what `apply` returns on the engine as the others left it,
with the event applied, or it raises a version conflict and leaves what the others made of the
engine. -/
def NothingLost (engine : VisibilityEngine) (event : Event) (expectedVersion retries : ℕ)
    (others : List Interleaved) : Prop :=
  let outcome := engine.applyWithRetry event expectedVersion retries others
  (∃ decision writes, outcome.2 = .ok decision ∧ writes <+: others.flatMap Interleaved.writes ∧
      (engine.writeAll writes).apply event = .ok (outcome.1, decision) ∧
      engine.Applied event (writes ++ [⟨event, none⟩])) ∨
    ∃ message, outcome.2 = .error (.engine (.versionConflict message)) ∧
      outcome.1 = engine.writeAll ((others.take retries).flatMap Interleaved.writes)

/-- An event is new when its id was not seen, nor the event itself. -/
def New (engine : VisibilityEngine) (event : Event) : Prop :=
  event.eventId ∉ engine.eventIds ∧ event ∉ engine.events

/-- A call takes the id of an event for another event. -/
def Takes (engine : VisibilityEngine) (event : Event) (w : Write) : Prop :=
  event.eventId ∉ engine.eventIds ∧ event.eventId ∈ (engine.write w).eventIds ∧ w.event ≠ event

/-- None of the calls does. -/
def KeepsId (engine : VisibilityEngine) (event : Event) (writes : List Write) : Prop :=
  ∀ before w, before ++ [w] <+: writes → ¬ (engine.writeAll before).Takes event w

/-- **Every reload finds the job**, and in the meantime nobody takes the id of the event for another
one: after each conflict, until the event is applied or the retries are spent. -/
def ReloadsFind (engine : VisibilityEngine) (event : Event) (expectedVersion : ℕ) :
    (retries : ℕ) → List Interleaved → Prop
  | 0, _ => True
  | retries + 1, others =>
      event.eventId ∉ engine.eventIds →
      versionOf (engine.jobs.find? event.jobId) ≠ expectedVersion →
        let between := others.headD {}
        engine.KeepsId event between.writes ∧
          ∃ job, (engine.writeAll between.beforeReload).jobs.find? event.jobId = some job ∧
            (engine.writeAll between.writes).ReloadsFind event job.version retries others.tail

/-! ### One call of `apply` -/

variable {engine : VisibilityEngine} {event : Event}

/-- An event that was seen is logged, whatever version is expected. -/
theorem apply_expected_of_mem (h : event.eventId ∈ engine.eventIds) (expected : Option ℕ) :
    engine.apply event expected = engine.apply event := by
  simp only [apply, if_pos h]

/-- Any other event is reduced when the version is the expected one. -/
theorem apply_expected_of_eq {expected : ℕ}
    (h : versionOf (engine.jobs.find? event.jobId) = expected) :
    engine.apply event (some expected) = engine.apply event := by
  have hcheck : checkVersion event.jobId (engine.jobs.find? event.jobId) (some expected) = .ok () :=
    if_neg (not_not.mpr h.symm)
  simp only [apply, hcheck]
  rfl

/-- And refused when it is not. -/
theorem apply_expected_of_ne {expected : ℕ} (hfresh : event.eventId ∉ engine.eventIds)
    (h : versionOf (engine.jobs.find? event.jobId) ≠ expected) :
    ∃ message, engine.apply event (some expected) = .error (.versionConflict message) := by
  have hcheck : ∃ message, checkVersion event.jobId (engine.jobs.find? event.jobId)
      (some expected) = .error (.versionConflict message) := ⟨_, if_pos (Ne.symm h)⟩
  obtain ⟨message, hcheck⟩ := hcheck
  refine ⟨message, ?_⟩
  simp only [apply, if_neg hfresh, hcheck]
  rfl

/-! ### The calls of the other writers -/

@[simp] theorem writeAll_nil : engine.writeAll [] = engine := rfl

@[simp] theorem writeAll_append (writes more : List Write) :
    engine.writeAll (writes ++ more) = (engine.writeAll writes).writeAll more :=
  List.foldl_append

@[simp] theorem writeAll_singleton (w : Write) : engine.writeAll [w] = engine.write w := rfl

/-- A call that goes through without an expected version. -/
theorem write_of_apply {after : VisibilityEngine} {decision : ProjectionDecision}
    (h : engine.apply event = .ok (after, decision)) : engine.write ⟨event, none⟩ = after := by
  rw [write, h]

/-- **What a call does**: it reduces a new event into its job, or leaves the journal alone. -/
theorem write_cases (engine : VisibilityEngine) (w : Write) :
    (w.event.eventId ∉ engine.eventIds ∧
      (engine.write w).eventIds = engine.eventIds ++ [w.event.eventId] ∧
      (engine.write w).events = engine.events ++ [w.event] ∧
      (engine.write w).jobs.find? w.event.jobId =
        some (reduceEvent (engine.jobs.find? w.event.jobId) w.event).job) ∨
    (engine.write w).eventIds = engine.eventIds ∧ (engine.write w).events = engine.events := by
  by_cases hseen : w.event.eventId ∈ engine.eventIds
  · right
    obtain ⟨after, decision, happly⟩ := exists_apply_eq_ok engine w.event
    obtain ⟨-, hevents, hids, -⟩ := apply_seen hseen happly
    rw [write, apply_expected_of_mem hseen, happly]
    exact ⟨hids, hevents⟩
  · have hwrite : engine.apply w.event w.expectedVersion = engine.apply w.event ∨
        engine.write w = engine := by
      cases hexpected : w.expectedVersion with
      | none => exact Or.inl rfl
      | some expected =>
          by_cases hversion : versionOf (engine.jobs.find? w.event.jobId) = expected
          · exact Or.inl (apply_expected_of_eq hversion)
          · obtain ⟨message, hconflict⟩ := apply_expected_of_ne hseen hversion
            right
            rw [write, hexpected, hconflict]
    rcases hwrite with happly | hrefused
    · left
      rw [write, happly, apply_of_notMem hseen]
      refine ⟨hseen, rfl, rfl, ?_⟩
      rw [Table.find?_upsert, jobId_reduceEvent_find?, if_pos rfl]
    · right
      rw [hrefused]
      exact ⟨rfl, rfl⟩

/-! ### What the calls preserve -/

/-- **The id of the event stands for the event**: it is not in use, or the event is applied. -/
def Accounted (engine : VisibilityEngine) (event : Event) (writes : List Write) : Prop :=
  (event.eventId ∉ (engine.writeAll writes).eventIds ∧ event ∉ (engine.writeAll writes).events) ∨
    event.eventId ∈ (engine.writeAll writes).eventIds ∧ engine.Applied event writes

/-- **The id of the event stands for another one.** -/
def Lost (engine : VisibilityEngine) (event : Event) : Prop :=
  event.eventId ∈ engine.eventIds ∧ event ∉ engine.events

variable {writes : List Write} {w : Write}

theorem ReducedBy.append (h : engine.ReducedBy event writes) (more : List Write) :
    engine.ReducedBy event (writes ++ more) := by
  obtain ⟨before, expected, later, rfl, hnew, hreduced⟩ := h
  exact ⟨before, expected, later ++ more, by simp, hnew, hreduced⟩

/-- A call takes the id for another event: the event is lost. -/
theorem lost_of_takes (hnew : event ∉ engine.events) (h : engine.Takes event w) :
    (engine.write w).Lost event := by
  obtain ⟨hfree, htaken, hne⟩ := h
  refine ⟨htaken, ?_⟩
  rcases write_cases engine w with ⟨-, -, hevents, -⟩ | ⟨hids, -⟩
  · rw [hevents, List.mem_append, List.mem_singleton]
    rintro (hold | rfl)
    · exact hnew hold
    · exact hne rfl
  · rw [hids] at htaken
    exact absurd htaken hfree

/-- An event that is lost stays lost. -/
theorem Lost.write (h : engine.Lost event) (w : Write) : (engine.write w).Lost event := by
  rcases write_cases engine w with ⟨hfresh, hids, hevents, -⟩ | ⟨hids, hevents⟩
  · refine ⟨by rw [hids]; exact List.mem_append_left _ h.1, ?_⟩
    rw [hevents, List.mem_append, List.mem_singleton]
    rintro (hold | rfl)
    · exact h.2 hold
    · exact hfresh h.1
  · exact ⟨hids ▸ h.1, hevents ▸ h.2⟩

theorem Lost.writeAll (h : engine.Lost event) (writes : List Write) :
    (engine.writeAll writes).Lost event := by
  induction writes generalizing engine with
  | nil => exact h
  | cons w writes ih => exact ih (h.write w)

theorem Lost.not_accounted (h : (engine.writeAll writes).Lost event) :
    ¬ engine.Accounted event writes := by
  rintro (⟨hfree, -⟩ | ⟨-, hcount, -⟩)
  · exact hfree h.1
  · rw [List.count_eq_zero_of_not_mem h.2] at hcount
    cases hcount

/-- **What one call preserves**, unless it takes the id for another event. -/
theorem accounted_concat_iff (h : engine.Accounted event writes) :
    engine.Accounted event (writes ++ [w]) ↔ ¬ (engine.writeAll writes).Takes event w := by
  have hafter : engine.writeAll (writes ++ [w]) = (engine.writeAll writes).write w := by simp
  constructor
  · intro haccounted htakes
    rcases h with ⟨-, hnew⟩ | ⟨hseen, -⟩
    · have hlost := lost_of_takes hnew htakes
      rw [← hafter] at hlost
      exact hlost.not_accounted haccounted
    · exact htakes.1 hseen
  · intro hkept
    rcases write_cases (engine.writeAll writes) w with
      ⟨hfresh, hids, hevents, hreduced⟩ | ⟨hids, hevents⟩
    · by_cases hsame : w.event.eventId = event.eventId
      · -- the call applies the event itself
        have hmem : event.eventId ∈ ((engine.writeAll writes).write w).eventIds := by
          rw [hids, hsame]
          simp
        have hfree : event.eventId ∉ (engine.writeAll writes).eventIds := hsame ▸ hfresh
        have hevent : w.event = event := by
          by_contra hne
          exact hkept ⟨hfree, hmem, hne⟩
        right
        have hnew : event ∉ (engine.writeAll writes).events := by
          rcases h with ⟨-, hnew⟩ | ⟨hseen, -⟩
          · exact hnew
          · exact absurd hseen hfree
        refine ⟨hafter ▸ hmem, ?_, writes, w.expectedVersion, [], ?_, hfree, ?_⟩
        · rw [hafter, hevents, hevent, List.count_append, List.count_eq_zero_of_not_mem hnew]
          simp
        · rw [← hevent]
        · have hw : w = ⟨event, w.expectedVersion⟩ := by rw [← hevent]
          rw [← hw, hafter, ← hevent, hreduced]
      · have hne : w.event ≠ event := fun heq => hsame (by rw [heq])
        rcases h with ⟨hfree, hnew⟩ | ⟨hseen, hcount, hreducedBy⟩
        · left
          rw [hafter, hids, hevents]
          refine ⟨?_, ?_⟩
          · rw [List.mem_append, List.mem_singleton]
            rintro (hold | heq)
            · exact hfree hold
            · exact hsame heq.symm
          · rw [List.mem_append, List.mem_singleton]
            rintro (hold | heq)
            · exact hnew hold
            · exact hne heq.symm
        · right
          refine ⟨?_, ?_, hreducedBy.append _⟩
          · rw [hafter, hids]
            exact List.mem_append_left _ hseen
          · rw [hafter, hevents, List.count_append, hcount, List.count_singleton,
              if_neg (by simpa using hne)]
    · rcases h with ⟨hfree, hnew⟩ | ⟨hseen, hcount, hreducedBy⟩
      · left
        rw [hafter, hids, hevents]
        exact ⟨hfree, hnew⟩
      · right
        rw [Applied, hafter, hids, hevents]
        exact ⟨hseen, hcount, hreducedBy.append _⟩

theorem keepsId_nil : engine.KeepsId event [] := by
  intro before w hinit
  simp at hinit

theorem keepsId_cons_iff {more : List Write} :
    engine.KeepsId event (w :: more) ↔
      ¬ engine.Takes event w ∧ (engine.write w).KeepsId event more := by
  constructor
  · intro h
    refine ⟨h [] w (List.prefix_append ..), fun before v hinit => ?_⟩
    exact h (w :: before) v (List.cons_prefix_cons.mpr ⟨rfl, hinit⟩)
  · rintro ⟨hfirst, hrest⟩ before v hinit
    cases before with
    | nil =>
        obtain ⟨rfl, -⟩ := List.cons_prefix_cons.mp hinit
        exact hfirst
    | cons u before =>
        obtain ⟨rfl, htail⟩ := List.cons_prefix_cons.mp hinit
        exact hrest before v htail

/-- **What several calls preserve**, and what is left of the event when they do not. -/
theorem accounted_append (h : engine.Accounted event writes) (more : List Write) :
    ((engine.writeAll writes).KeepsId event more → engine.Accounted event (writes ++ more)) ∧
      (¬ (engine.writeAll writes).KeepsId event more →
        (engine.writeAll (writes ++ more)).Lost event) := by
  induction more generalizing writes with
  | nil => exact ⟨fun _ => by rwa [List.append_nil], fun hnot => absurd keepsId_nil hnot⟩
  | cons w more ih =>
      have hwrite : (engine.writeAll writes).write w = engine.writeAll (writes ++ [w]) := by simp
      rw [List.append_cons, keepsId_cons_iff, hwrite]
      by_cases htakes : (engine.writeAll writes).Takes event w
      · refine ⟨fun hkeeps => absurd htakes hkeeps.1, fun _ => ?_⟩
        rcases h with ⟨-, hnew⟩ | ⟨hseen, -⟩
        · rw [writeAll_append, ← hwrite]
          exact (lost_of_takes hnew htakes).writeAll more
        · exact absurd hseen htakes.1
      · obtain ⟨hkept, hlost⟩ := ih ((accounted_concat_iff h).mpr htakes)
        exact ⟨fun hkeeps => hkept hkeeps.2, fun hnot => hlost fun hrest => hnot ⟨htakes, hrest⟩⟩

/-! ### The rounds of the loop -/

/-- A round whose call goes through. -/
theorem applyWithRetry_of_ok {expected : ℕ} {after : VisibilityEngine}
    {decision : ProjectionDecision} (h : engine.apply event (some expected) = .ok (after, decision))
    (retries : ℕ) (others : List Interleaved) :
    engine.applyWithRetry event expected retries others = (after, .ok decision) := by
  cases retries with
  | zero => simp only [applyWithRetry, h]
  | succ retries => simp only [applyWithRetry, h]

/-- The calls between the first two tries, and those after. -/
theorem flatMap_writes_eq (others : List Interleaved) :
    others.flatMap Interleaved.writes =
      (others.headD {}).writes ++ others.tail.flatMap Interleaved.writes := by
  cases others <;> rfl

theorem take_succ_flatMap_writes_eq (others : List Interleaved) (retries : ℕ) :
    (others.take (retries + 1)).flatMap Interleaved.writes =
      (others.headD {}).writes ++ (others.tail.take retries).flatMap Interleaved.writes := by
  cases others with
  | nil => simp [Interleaved.writes]
  | cons between others => rfl

/-- What the loop promises from some point of it on, the calls before it being given. -/
def NothingLostAfter (start : VisibilityEngine) (earlier : List Write) (event : Event)
    (expected retries : ℕ) (others : List Interleaved) : Prop :=
  let outcome := (start.writeAll earlier).applyWithRetry event expected retries others
  (∃ decision writes, outcome.2 = .ok decision ∧ writes <+: others.flatMap Interleaved.writes ∧
      (start.writeAll (earlier ++ writes)).apply event = .ok (outcome.1, decision) ∧
      start.Applied event (earlier ++ writes ++ [⟨event, none⟩])) ∨
    ∃ message, outcome.2 = .error (.engine (.versionConflict message)) ∧
      outcome.1 =
        start.writeAll (earlier ++ (others.take retries).flatMap Interleaved.writes)

variable {start : VisibilityEngine} {earlier : List Write} {expected retries : ℕ}
  {others : List Interleaved}

/-- A round that returns, returns with the event applied. -/
theorem nothingLostAfter_of_ok (h : start.Accounted event earlier)
    (happly : (start.writeAll earlier).apply event (some expected) =
      (start.writeAll earlier).apply event) :
    NothingLostAfter start earlier event expected retries others := by
  obtain ⟨after, decision, hok⟩ := exists_apply_eq_ok (start.writeAll earlier) event
  have hloop := applyWithRetry_of_ok (happly.trans hok) retries others
  have hafter : start.writeAll (earlier ++ [⟨event, none⟩]) = after := by
    rw [writeAll_append, writeAll_singleton, write_of_apply hok]
  have htakes : ¬ (start.writeAll earlier).Takes event ⟨event, none⟩ := fun h => h.2.2 rfl
  left
  refine ⟨decision, [], by rw [hloop], List.nil_prefix, by rw [List.append_nil, hloop, hok], ?_⟩
  rw [List.append_nil]
  rcases (accounted_concat_iff h).mpr htakes with ⟨hfree, -⟩ | ⟨-, happlied⟩
  · -- the call has used the id
    refine absurd ?_ hfree
    rw [hafter]
    by_cases hseen : event.eventId ∈ (start.writeAll earlier).eventIds
    · obtain ⟨-, -, hids, -⟩ := apply_seen hseen hok
      rw [hids]
      exact hseen
    · rw [apply_of_notMem hseen] at hok
      cases hok
      simp
  · exact happlied

/-- A conflict, with retries left, about a job that is still not there. -/
theorem applyWithRetry_of_missing {message : String}
    (h : engine.apply event (some expected) = .error (.versionConflict message))
    (hjob : (engine.writeAll (others.headD {}).beforeReload).jobs.find? event.jobId = none) :
    engine.applyWithRetry event expected (retries + 1) others =
      (engine.writeAll (others.headD {}).beforeReload, .error (.missingKey event.jobId)) := by
  simp only [applyWithRetry, h, hjob]

/-- A conflict, with retries left, about a job that is there. -/
theorem applyWithRetry_of_reload {message : String} {job : JobVisibility}
    (h : engine.apply event (some expected) = .error (.versionConflict message))
    (hjob : (engine.writeAll (others.headD {}).beforeReload).jobs.find? event.jobId = some job) :
    engine.applyWithRetry event expected (retries + 1) others =
      (engine.writeAll (others.headD {}).writes).applyWithRetry event job.version retries
        others.tail := by
  simp only [applyWithRetry, h, hjob, Interleaved.writes, writeAll_append]

/-- **While every reload finds the job, nothing is lost.** -/
theorem nothingLostAfter_of_reloadsFind (h : start.Accounted event earlier)
    (hreloads : (start.writeAll earlier).ReloadsFind event expected retries others) :
    NothingLostAfter start earlier event expected retries others := by
  by_cases hseen : event.eventId ∈ (start.writeAll earlier).eventIds
  · exact nothingLostAfter_of_ok h (apply_expected_of_mem hseen _)
  by_cases hversion : versionOf ((start.writeAll earlier).jobs.find? event.jobId) = expected
  · exact nothingLostAfter_of_ok h (apply_expected_of_eq hversion)
  obtain ⟨message, hconflict⟩ := apply_expected_of_ne hseen hversion
  induction retries generalizing earlier expected others message with
  | zero =>
      right
      refine ⟨message, by simp only [applyWithRetry, hconflict], ?_⟩
      simp only [applyWithRetry, hconflict, List.take_zero, List.flatMap_nil, List.append_nil]
  | succ retries ih =>
      obtain ⟨hkeeps, job, hjob, hrest⟩ := hreloads hseen hversion
      have hloop : (start.writeAll earlier).applyWithRetry event expected (retries + 1) others =
          ((start.writeAll earlier).writeAll (others.headD {}).writes).applyWithRetry event
            job.version retries others.tail := applyWithRetry_of_reload hconflict hjob
      rw [← writeAll_append] at hloop hrest
      have hnext := (accounted_append h (others.headD {}).writes).1 hkeeps
      -- the rest of the loop, from the next try on
      have hlater : NothingLostAfter start (earlier ++ (others.headD {}).writes) event job.version
          retries others.tail := by
        by_cases hseen' : event.eventId ∈
            (start.writeAll (earlier ++ (others.headD {}).writes)).eventIds
        · exact nothingLostAfter_of_ok hnext (apply_expected_of_mem hseen' _)
        by_cases hversion' : versionOf ((start.writeAll
            (earlier ++ (others.headD {}).writes)).jobs.find? event.jobId) = job.version
        · exact nothingLostAfter_of_ok hnext (apply_expected_of_eq hversion')
        obtain ⟨message', hconflict'⟩ := apply_expected_of_ne hseen' hversion'
        exact ih hnext hrest hseen' hversion' message' hconflict'
      rcases hlater with ⟨decision, writes, hreturned, hinit, happly, happlied⟩ |
        ⟨message', hraised, hengine⟩
      · left
        refine ⟨decision, (others.headD {}).writes ++ writes, by rw [hloop]; exact hreturned, ?_,
          ?_, ?_⟩
        · rw [flatMap_writes_eq]
          exact (List.prefix_append_right_inj _).mpr hinit
        · rw [hloop, ← List.append_assoc]
          exact happly
        · rw [← List.append_assoc]
          exact happlied
      · right
        refine ⟨message', by rw [hloop]; exact hraised, ?_⟩
        rw [hloop, take_succ_flatMap_writes_eq, ← List.append_assoc]
        exact hengine

/-- **After a reload that does not find the job, or once the event is lost, the loop does not keep
its promise.** -/
theorem applyWithRetry_of_not_reloadsFind (h : start.Accounted event earlier)
    (hnot : ¬ (start.writeAll earlier).ReloadsFind event expected retries others) :
    let outcome := (start.writeAll earlier).applyWithRetry event expected retries others
    outcome.2 = .error (.missingKey event.jobId) ∨
      ∃ decision, outcome.2 = .ok decision ∧ outcome.1.Lost event := by
  induction retries generalizing earlier expected others with
  | zero => exact absurd trivial hnot
  | succ retries ih =>
      rw [ReloadsFind, Classical.not_imp, Classical.not_imp] at hnot
      obtain ⟨hseen, hversion, hnot⟩ := hnot
      obtain ⟨message, hconflict⟩ := apply_expected_of_ne hseen hversion
      dsimp only
      cases hjob : ((start.writeAll earlier).writeAll (others.headD {}).beforeReload).jobs.find?
          event.jobId with
      | none =>
          left
          rw [applyWithRetry_of_missing hconflict hjob]
      | some job =>
          obtain ⟨hkept, hlost⟩ := accounted_append h (others.headD {}).writes
          rw [applyWithRetry_of_reload hconflict hjob, ← writeAll_append]
          by_cases hkeeps : (start.writeAll earlier).KeepsId event (others.headD {}).writes
          · refine ih (hkept hkeeps) fun hrest => hnot ⟨hkeeps, job, hjob, ?_⟩
            rw [← writeAll_append]
            exact hrest
          · -- the next call finds the id in use
            right
            have hgone := hlost hkeeps
            obtain ⟨after, decision, hok⟩ := exists_apply_eq_ok
              (start.writeAll (earlier ++ (others.headD {}).writes)) event
            obtain ⟨-, hevents, hids, -⟩ := apply_seen hgone.1 hok
            refine ⟨decision, ?_⟩
            rw [applyWithRetry_of_ok ((apply_expected_of_mem hgone.1 _).trans hok)]
            exact ⟨rfl, hids ▸ hgone.1, hevents ▸ hgone.2⟩

/-- What the loop does when nobody else writes. -/
def ReturnsAsApply (engine : VisibilityEngine) (event : Event) (expectedVersion retries : ℕ) :
    Prop :=
  ∃ after decision, engine.apply event = .ok (after, decision) ∧
    engine.applyWithRetry event expectedVersion retries [] = (after, .ok decision)

/-- **Alone, a writer with a retry left returns what `apply` does exactly when its reload finds the
job.** -/
theorem returnsAsApply_iff :
    engine.ReturnsAsApply event expected (retries + 1) ↔
      engine.ReloadsFind event expected (retries + 1) [] := by
  obtain ⟨after, decision, hok⟩ := exists_apply_eq_ok engine event
  have hreturns : engine.ReturnsAsApply event expected (retries + 1) ↔
      engine.applyWithRetry event expected (retries + 1) [] = (after, .ok decision) := by
    constructor
    · rintro ⟨after', decision', hok', hloop⟩
      rw [hok] at hok'
      cases hok'
      exact hloop
    · intro hloop
      exact ⟨after, decision, hok, hloop⟩
  rw [hreturns]
  by_cases hdirect : engine.apply event (some expected) = engine.apply event
  · refine iff_of_true (applyWithRetry_of_ok (hdirect.trans hok) _ _) ?_
    intro hseen hversion
    obtain ⟨message, hconflict⟩ := apply_expected_of_ne hseen hversion
    rw [hdirect, hok] at hconflict
    cases hconflict
  · have hseen : event.eventId ∉ engine.eventIds :=
      fun hmem => hdirect (apply_expected_of_mem hmem _)
    have hversion : versionOf (engine.jobs.find? event.jobId) ≠ expected :=
      fun heq => hdirect (apply_expected_of_eq heq)
    obtain ⟨message, hconflict⟩ := apply_expected_of_ne hseen hversion
    cases hjob : engine.jobs.find? event.jobId with
    | none =>
        have hmissing : engine.applyWithRetry event expected (retries + 1) [] =
            (engine, .error (.missingKey event.jobId)) := applyWithRetry_of_missing hconflict hjob
        rw [hmissing]
        refine iff_of_false (by simp) fun hreloads => ?_
        obtain ⟨-, job, hsome, -⟩ := hreloads hseen hversion
        rw [List.headD_nil, writeAll_nil, hjob] at hsome
        cases hsome
    | some job =>
        have hmatches : ∀ retries, engine.ReloadsFind event job.version retries [] := by
          rintro (_ | retries)
          · trivial
          · exact fun _ hne => absurd (by rw [hjob]; rfl) hne
        have hagain : engine.apply event (some job.version) = .ok (after, decision) := by
          rw [apply_expected_of_eq (by rw [hjob]; rfl), hok]
        have hloop : engine.applyWithRetry event expected (retries + 1) [] =
            engine.applyWithRetry event job.version retries [] :=
          applyWithRetry_of_reload hconflict hjob
        rw [hloop]
        exact iff_of_true (applyWithRetry_of_ok hagain _ _)
          fun _ _ => ⟨keepsId_nil, job, hjob, hmatches retries⟩

/-- **Nothing is lost exactly when every reload finds the job**, and in the meantime nobody takes
the id of the event for another one; and a writer that is alone and has a retry returns what `apply`
does under the same condition. -/
theorem nothingLost_iff (engine : VisibilityEngine) (event : Event) (expectedVersion retries : ℕ)
    (others : List Interleaved) (hnew : engine.New event) :
    (engine.NothingLost event expectedVersion retries others ↔
        engine.ReloadsFind event expectedVersion retries others) ∧
      (0 < retries → (engine.ReturnsAsApply event expectedVersion retries ↔
        engine.ReloadsFind event expectedVersion retries [])) := by
  have haccounted : engine.Accounted event [] := Or.inl hnew
  refine ⟨⟨fun hkept => ?_, nothingLostAfter_of_reloadsFind haccounted⟩, fun hpositive => ?_⟩
  · by_contra hnot
    rcases applyWithRetry_of_not_reloadsFind haccounted hnot with hmissing | ⟨decision, hok, hlost⟩
    · rw [writeAll_nil] at hmissing
      rcases hkept with ⟨decision, writes, hreturned, -⟩ | ⟨message, hraised, -⟩
      · rw [hmissing] at hreturned
        cases hreturned
      · rw [hmissing] at hraised
        cases hraised
    · rw [writeAll_nil] at hok hlost
      rcases hkept with ⟨decision', writes, -, -, happly, hcount, -⟩ | ⟨message, hraised, -⟩
      · rw [writeAll_append, writeAll_singleton, write_of_apply happly,
          List.count_eq_zero_of_not_mem hlost.2] at hcount
        cases hcount
      · rw [hok] at hraised
        cases hraised
  · obtain ⟨more, rfl⟩ := Nat.exists_eq_succ_of_ne_zero hpositive.ne'
    exact returnsAsApply_iff

/-! ### A job that nobody has written yet -/

/-- An engine in which the job was created. -/
def createdEngine : VisibilityEngine :=
  VisibilityEngine.writeAll {} [⟨retryEvent 1 .jobCreated 0, none⟩]

/-- The submission of the job, requested by another writer before the version is read again. -/
def requestedMeanwhile : List Interleaved :=
  [{ beforeReload := [⟨retryEvent 2 .jobSchedulerSubmissionRequested 0, some 1⟩] }]

/-- A writer that expects version 0 of the job meets a conflict, reloads and reapplies. -/
theorem nothingLost_requestedMeanwhile :
    createdEngine.NothingLost (retryEvent 3 .jobSchedulerSubmissionAcknowledged 0) 0 1
      requestedMeanwhile := by
  refine (nothingLost_iff createdEngine _ 0 1 requestedMeanwhile ⟨by decide, by decide⟩).1.mpr ?_
  intro _ _
  refine ⟨keepsId_cons_iff.mpr ⟨fun htakes => absurd htakes.2.1 (by decide), keepsId_nil⟩, ?_⟩
  exact ⟨_, rfl, trivial⟩

/-- **A writer that expects version 1 of a job that nobody has written leaves with a
`KeyError`.** -/
theorem not_nothingLost_missingJob :
    ¬ ∀ (engine : VisibilityEngine) (event : Event) (expectedVersion retries : ℕ)
        (others : List Interleaved), engine.New event →
        engine.NothingLost event expectedVersion retries others := by
  intro hkept
  have hloop : (applyWithRetry {} (retryEvent 1 .jobCreated 0) 1 3 []).2 =
      .error (.missingKey "job-1") := rfl
  rcases hkept {} (retryEvent 1 .jobCreated 0) 1 3 [] ⟨by decide, by decide⟩ with
    ⟨decision, writes, hreturned, -⟩ | ⟨message, hraised, -⟩
  · rw [hloop] at hreturned
    cases hreturned
  · rw [hloop] at hraised
    cases hraised

end VisibilityEngine

end ScheduledJobs
