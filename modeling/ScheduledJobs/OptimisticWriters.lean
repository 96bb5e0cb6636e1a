/-
**Optimistic writers of one repository.**

`InMemoryVisibilityRepository.save` compares the version of the stored job with the one the writer
loaded.  The reducer raises the version only when it applies an event, so a save whose reduction
was a semantic duplicate or was ignored leaves the version where it was, and a writer that had
loaded the job before still passes the comparison: it writes back a projection from which the
other's event is missing, and nobody reapplies it.

Main definitions:

* `InMemoryVisibilityRepository` — the repository;
* `Writers.World`, `Writers.machine` — any number of writers, each with an event of its own;
* `Writers.NoEventLost` — what is promised once they are done;
* `Writers.NoStaleSave` — the condition: a save that goes through finds the job the writer loaded.

Main results:

* `Writers.Folded.next` — while that is so, the stored jobs are folds, in the order of the saves;
* `Writers.Short.next` — after a stale save an event is missing, and stays missing;
* `Writers.noEventLost_iff` — **no event is lost in a run exactly when no save in it is stale**.
-/

import ScheduledJobs.Machine
import ScheduledJobs.VisibilityEngine
import Mathlib.Data.List.FinRange
import Mathlib.Logic.Function.Basic

set_option relaxedAutoImplicit false
set_option autoImplicit false

namespace ScheduledJobs

/-! ### The repository -/

/-- The jobs a repository holds.  A job that is returned is a copy, and so is a job that is kept. -/
structure InMemoryVisibilityRepository where
  jobs : Table JobVisibility.jobId := .empty

namespace InMemoryVisibilityRepository

/-- `get`. -/
def get (repository : InMemoryVisibilityRepository) (jobId : String) : Option JobVisibility :=
  repository.jobs.find? jobId

/-- `save`. -/
def save (repository : InMemoryVisibilityRepository) (job : JobVisibility)
    (expectedVersion : Option ℕ := none) : Except EngineError InMemoryVisibilityRepository := do
  VisibilityEngine.checkVersion job.jobId (repository.get job.jobId) expectedVersion
  return { repository with jobs := repository.jobs.upsert job }

/-- The version a writer that loaded a job expects: 0 when there was none. -/
def versionOf (current : Option JobVisibility) : ℕ := (current.map JobVisibility.version).getD 0

/-- A save with an expected version goes through exactly when that is the stored one. -/
theorem save_eq_ite (repository : InMemoryVisibilityRepository) (job : JobVisibility)
    (expected : ℕ) :
    (repository.save job (some expected)).toOption =
      if versionOf (repository.get job.jobId) = expected then
        some { repository with jobs := repository.jobs.upsert job }
      else none := by
  have hcheck : VisibilityEngine.checkVersion job.jobId (repository.get job.jobId) (some expected) =
      if expected ≠ versionOf (repository.get job.jobId) then
        .error (.versionConflict s!"job {job.jobId}: expected version {expected}, actual {
          versionOf (repository.get job.jobId)}")
      else .ok () := rfl
  by_cases h : versionOf (repository.get job.jobId) = expected
  · rw [save, hcheck, if_neg (not_not.2 h.symm), if_pos h]
    rfl
  · rw [save, hcheck, if_pos (Ne.symm h), if_neg h]
    rfl

end InMemoryVisibilityRepository

namespace Writers

open InMemoryVisibilityRepository

/-! ### The writers -/

/-- Where a writer is: about to load the job of its event, about to reduce and save what it loaded,
or done. -/
inductive Phase
  | ready
  | loaded (current : Option JobVisibility)
  | done
  deriving DecidableEq

variable {events : List Event}

/-- The repository and one writer for each event. -/
structure World (events : List Event) where
  repository : InMemoryVisibilityRepository
  phases : Fin events.length → Phase

/-- A writer loads, or it reduces its event into what it loaded and saves the result. -/
inductive Label (events : List Event)
  | load (i : Fin events.length)
  | save (i : Fin events.length)

/-- One step.  A save that meets a version conflict sends the writer back to loading. -/
def World.next (w : World events) : Label events → Option (World events)
  | .load i =>
      if w.phases i = .ready then
        some { w with
          phases := Function.update w.phases i (.loaded (w.repository.get (events.get i).jobId)) }
      else none
  | .save i =>
      match w.phases i with
      | .loaded current =>
          match reduceVisibility current (events.get i) with
          | .ok result =>
              match (w.repository.save result.job (some (versionOf current))).toOption with
              | some repository => some ⟨repository, Function.update w.phases i .done⟩
              | none => some { w with phases := Function.update w.phases i .ready }
          | .error _ => none
      | _ => none

def machine (start : InMemoryVisibilityRepository) (events : List Event) :
    Machine (World events) (Label events) where
  start := ⟨start, fun _ => .ready⟩
  next := World.next

/-- Every writer has saved. -/
def World.AllDone (w : World events) : Prop := ∀ i, w.phases i = .done

/-- **No event is lost**: the stored jobs are folds of `reduce_visibility` over all the events, each
exactly once, in some order. -/
def NoEventLost (start : InMemoryVisibilityRepository) (w : World events) : Prop :=
  ∃ order : List Event, order.Perm events ∧ ∀ jobId,
    reduceVisibilityAll (start.get jobId) (eventsOf jobId order) = .ok (w.repository.get jobId)

/-- The writer would save over a job that is not the one it loaded, though the versions agree. -/
def Phase.Stale (stored : Option JobVisibility) : Phase → Prop
  | .loaded current => versionOf stored = versionOf current ∧ stored ≠ current
  | _ => False

instance (stored : Option JobVisibility) : (phase : Phase) → Decidable (phase.Stale stored)
  | .loaded _ => inferInstanceAs (Decidable (_ ∧ _))
  | .ready => inferInstanceAs (Decidable False)
  | .done => inferInstanceAs (Decidable False)

/-- **A save that goes through finds the job the writer loaded**: no version-neutral result of
another writer was saved in between. -/
def NoStaleSave (w : World events) : Label events → Prop
  | .load _ => True
  | .save i => ¬ (w.phases i).Stale (w.repository.get (events.get i).jobId)

instance (w : World events) : (l : Label events) → Decidable (NoStaleSave w l)
  | .load _ => inferInstanceAs (Decidable True)
  | .save _ => inferInstanceAs (Decidable (¬ _))

/-! ### What a step does -/

/-- A reduction that returns, returns a projection of the event's job. -/
theorem jobId_of_reduceVisibility {current : Option JobVisibility} {event : Event}
    {result : ReductionResult} (h : reduceVisibility current event = .ok result) :
    result.job.jobId = event.jobId := by
  obtain rfl := eq_reduceEvent_of_reduceVisibility h
  rw [reduceEvent_jobId]
  by_contra hne
  rw [reduceVisibility, if_pos hne] at h
  cases h

/-- **What a step does**: a writer loads, or saves the reduction of what it loaded, or goes back to
loading since the versions differ. -/
theorem World.next_cases {w w' : World events} {l : Label events} (h : w.next l = some w') :
    (∃ i, l = .load i ∧ w.phases i = .ready ∧ w'.repository = w.repository ∧
      w'.phases =
        Function.update w.phases i (.loaded (w.repository.get (events.get i).jobId))) ∨
    (∃ i current, l = .save i ∧ w.phases i = .loaded current ∧
      versionOf (w.repository.get (events.get i).jobId) = versionOf current ∧
      reduceVisibility current (events.get i) = .ok (reduceEvent current (events.get i)) ∧
      (∀ jobId, w'.repository.get jobId =
        if jobId = (events.get i).jobId then some (reduceEvent current (events.get i)).job
        else w.repository.get jobId) ∧
      w'.phases = Function.update w.phases i .done) ∨
    ∃ i current, l = .save i ∧ w.phases i = .loaded current ∧
      versionOf (w.repository.get (events.get i).jobId) ≠ versionOf current ∧
      w'.repository = w.repository ∧ w'.phases = Function.update w.phases i .ready := by
  cases l with
  | load i =>
      simp only [World.next] at h
      split at h
      · next hready =>
          cases h
          exact Or.inl ⟨i, rfl, hready, rfl, rfl⟩
      · cases h
  | save i =>
      refine Or.inr ?_
      simp only [World.next] at h
      split at h
      · next current hloaded =>
          split at h
          · next result hreduce =>
              have hid := jobId_of_reduceVisibility hreduce
              obtain rfl := eq_reduceEvent_of_reduceVisibility hreduce
              rw [save_eq_ite, hid] at h
              split at h
              · next repository hsave =>
                  split at hsave
                  · next hversion =>
                      cases hsave
                      cases h
                      refine Or.inl ⟨i, current, rfl, hloaded, hversion, hreduce, fun jobId => ?_,
                        rfl⟩
                      rw [InMemoryVisibilityRepository.get, Table.find?_upsert, hid]
                      rfl
                  · cases hsave
              · next hsave =>
                  split at hsave
                  · cases hsave
                  · next hversion =>
                      cases h
                      exact Or.inr ⟨i, current, rfl, hloaded, hversion, rfl, rfl⟩
          · cases h
      · cases h

/-! ### The order of the saves -/

/-- The writers that are done, in the order of their saves. -/
structure Saved (w : World events) (saved : List (Fin events.length)) : Prop where
  nodup : saved.Nodup
  done : ∀ i, i ∈ saved ↔ w.phases i = .done

/-- A writer that is not done moves to a phase that is not done either. -/
theorem Saved.moved {w w' : World events} {saved : List (Fin events.length)} (h : Saved w saved)
    {i : Fin events.length} {phase : Phase} (hi : w.phases i ≠ .done) (hphase : phase ≠ .done)
    (hw' : w'.phases = Function.update w.phases i phase) : Saved w' saved where
  nodup := h.nodup
  done := fun j => by
    rw [hw', h.done]
    by_cases hj : j = i
    · subst hj
      simp [hi, hphase]
    · rw [Function.update_of_ne hj]

/-- A writer that saves comes last. -/
theorem Saved.append {w w' : World events} {saved : List (Fin events.length)} (h : Saved w saved)
    {i : Fin events.length} (hi : w.phases i ≠ .done)
    (hw' : w'.phases = Function.update w.phases i .done) : Saved w' (saved ++ [i]) where
  nodup := by
    rw [List.nodup_append]
    refine ⟨h.nodup, List.nodup_singleton i, ?_⟩
    rintro j hj k hk rfl
    rw [List.mem_singleton] at hk
    exact hi ((h.done i).1 (hk ▸ hj))
  done := fun j => by
    rw [hw', List.mem_append, h.done, List.mem_singleton]
    by_cases hj : j = i
    · subst hj
      simp
    · rw [Function.update_of_ne hj]
      simp [hj]

/-- Once all are done, they have saved all the events. -/
theorem Saved.perm {w : World events} {saved : List (Fin events.length)} (h : Saved w saved)
    (hdone : w.AllDone) : (saved.map events.get).Perm events := by
  have hperm : saved.Perm (List.finRange events.length) :=
    (List.perm_ext_iff_of_nodup h.nodup (List.nodup_finRange _)).2 fun i => by
      rw [h.done]
      exact ⟨fun _ => List.mem_finRange i, fun _ => hdone i⟩
  have hmap := hperm.map events.get
  rwa [List.finRange, List.map_ofFn, show events.get ∘ _ = events.get from rfl,
    List.ofFn_get] at hmap

/-- The events a job has from the writers that have saved. -/
def eventsSaved (jobId : String) (saved : List (Fin events.length)) : List Event :=
  eventsOf jobId (saved.map events.get)

theorem eventsSaved_append (jobId : String) (saved : List (Fin events.length))
    (i : Fin events.length) : eventsSaved jobId (saved ++ [i]) =
      eventsSaved jobId saved ++ if (events.get i).jobId = jobId then [events.get i] else [] := by
  unfold eventsSaved eventsOf
  rw [List.map_append, List.filter_append, List.map_singleton, List.filter_singleton]
  by_cases hjob : (events.get i).jobId = jobId
  · rw [decide_eq_true hjob, if_pos hjob]
    rfl
  · rw [decide_eq_false hjob, if_neg hjob]
    rfl

/-! ### While no save is stale -/

/-- **The stored jobs are folds in the order of the saves**, and what a writer loaded is the fold of
an earlier part of them. -/
structure Folded (start : InMemoryVisibilityRepository) (w : World events)
    (saved : List (Fin events.length)) : Prop where
  order : Saved w saved
  stored : ∀ jobId, reduceVisibilityAll (start.get jobId) (eventsSaved jobId saved) =
    .ok (w.repository.get jobId)
  loaded : ∀ i current, w.phases i = .loaded current → ∃ earlier, earlier <+: saved ∧
    reduceVisibilityAll (start.get (events.get i).jobId)
      (eventsSaved (events.get i).jobId earlier) = .ok current

variable {start : InMemoryVisibilityRepository}

theorem folded_start (start : InMemoryVisibilityRepository) (events : List Event) :
    Folded start (machine start events).start [] where
  order := ⟨List.nodup_nil, fun i => by simp [machine]⟩
  stored := fun _ => rfl
  loaded := fun i current h => by cases h

/-- The writers other than the one that moves keep what they loaded. -/
theorem loaded_of_update {phases : Fin events.length → Phase} {i j : Fin events.length}
    {phase : Phase} {current : Option JobVisibility} (hphase : ∀ c, phase ≠ .loaded c)
    (h : Function.update phases i phase j = .loaded current) : phases j = .loaded current := by
  by_cases hj : j = i
  · subst hj
    rw [Function.update_self] at h
    exact absurd h (hphase current)
  · rwa [Function.update_of_ne hj] at h

/-- **What a step that saves nothing stale preserves.** -/
theorem Folded.next {w w' : World events} {l : Label events} {saved : List (Fin events.length)}
    (h : Folded start w saved) (hfresh : NoStaleSave w l) (hn : w.next l = some w') :
    ∃ saved', Folded start w' saved' := by
  rcases World.next_cases hn with ⟨i, rfl, hi, hrep, hphases⟩ |
    ⟨i, current, rfl, hi, hversion, hreduce, hrep, hphases⟩ |
    ⟨i, current, rfl, hi, -, hrep, hphases⟩
  · -- what is loaded is the fold so far
    refine ⟨saved, h.order.moved (by rw [hi]; nofun) (by nofun) hphases, ?_, ?_⟩
    · rw [hrep]
      exact h.stored
    · intro j current hj
      rw [hphases] at hj
      by_cases hji : j = i
      · subst hji
        rw [Function.update_self] at hj
        cases hj
        exact ⟨saved, List.prefix_rfl, h.stored _⟩
      · rw [Function.update_of_ne hji] at hj
        exact h.loaded j current hj
  · -- the event is folded in last
    have hcurrent : w.repository.get (events.get i).jobId = current := by
      by_contra hne
      rw [NoStaleSave, hi] at hfresh
      exact hfresh ⟨hversion, hne⟩
    refine ⟨saved ++ [i], h.order.append (by rw [hi]; nofun) hphases, fun jobId => ?_, ?_⟩
    · rw [eventsSaved_append, hrep]
      by_cases hjob : jobId = (events.get i).jobId
      · subst hjob
        rw [if_pos rfl, if_pos rfl]
        exact reduceVisibilityAll_concat_eq_ok_iff.2
          ⟨current, hcurrent ▸ h.stored _, hreduce, rfl⟩
      · rw [if_neg (Ne.symm hjob), if_neg hjob, List.append_nil]
        exact h.stored jobId
    · intro j current' hj
      rw [hphases] at hj
      have hkept : w.phases j = .loaded current' := loaded_of_update (fun _ => by nofun) hj
      obtain ⟨earlier, hprefix, hfold⟩ := h.loaded j current' hkept
      exact ⟨earlier, hprefix.trans (List.prefix_append ..), hfold⟩
  · -- the writer starts over
    refine ⟨saved, h.order.moved (by rw [hi]; nofun) (by nofun) hphases, ?_, ?_⟩
    · rw [hrep]
      exact h.stored
    · intro j current' hj
      rw [hphases] at hj
      have hkept : w.phases j = .loaded current' := loaded_of_update (fun _ => by nofun) hj
      exact h.loaded j current' hkept

/-! ### After a stale save -/

/-- How many decisions are logged. -/
def logged (current : Option JobVisibility) : ℕ := (current.map (·.decisions.length)).getD 0

theorem logged_reduceEvent (current : Option JobVisibility) (event : Event) :
    logged (some (reduceEvent current event).job) = logged current + 1 := by
  cases current with
  | none => simp [logged, reduceEvent_decisions, currentOrBlank]
  | some job => simp [logged, reduceEvent_decisions, currentOrBlank]

/-- A fold logs a decision for each event. -/
theorem logged_reduceVisibilityAll {events : List Event} {current after : Option JobVisibility}
    (h : reduceVisibilityAll current events = .ok after) :
    logged after = logged current + events.length := by
  obtain rfl := reduceAll_of_reduceVisibilityAll h
  clear h
  induction events generalizing current with
  | nil => rfl
  | cons event events ih =>
      rw [reduceAll_cons, ih, logged_reduceEvent, List.length_cons]
      omega

/-- **A job is short of events**: fewer decisions are logged, in the repository and in what any
writer loaded, than events of the job were saved. -/
structure Short (start : InMemoryVisibilityRepository) (w : World events)
    (saved : List (Fin events.length)) (jobId : String) : Prop where
  order : Saved w saved
  stored : logged (w.repository.get jobId) <
    logged (start.get jobId) + (eventsSaved jobId saved).length
  loaded : ∀ i current, w.phases i = .loaded current → (events.get i).jobId = jobId →
    logged current < logged (start.get jobId) + (eventsSaved jobId saved).length

/-- **A job that is short of events stays short of them**, whatever is loaded and saved. -/
theorem Short.next {w w' : World events} {l : Label events} {saved : List (Fin events.length)}
    {jobId : String} (h : Short start w saved jobId) (hn : w.next l = some w') :
    ∃ saved', Short start w' saved' jobId := by
  rcases World.next_cases hn with ⟨i, rfl, hi, hrep, hphases⟩ |
    ⟨i, current, rfl, hi, -, -, hrep, hphases⟩ |
    ⟨i, current, rfl, hi, -, hrep, hphases⟩
  · refine ⟨saved, h.order.moved (by rw [hi]; nofun) (by nofun) hphases, ?_, ?_⟩
    · rw [hrep]
      exact h.stored
    · intro j current hj hjob
      rw [hphases] at hj
      by_cases hji : j = i
      · subst hji
        rw [Function.update_self] at hj
        cases hj
        rw [hjob]
        exact h.stored
      · rw [Function.update_of_ne hji] at hj
        exact h.loaded j current hj hjob
  · have hlength := congrArg List.length (eventsSaved_append jobId saved i)
    rw [List.length_append] at hlength
    refine ⟨saved ++ [i], h.order.append (by rw [hi]; nofun) hphases, ?_, ?_⟩
    · -- the save adds one event to the job and one decision to what was loaded
      rw [hrep, hlength]
      split
      · next hjob =>
          have hshort := h.loaded i current hi hjob.symm
          rw [logged_reduceEvent, if_pos hjob.symm, List.length_singleton]
          omega
      · have := h.stored
        omega
    · intro j current' hj hjob
      rw [hphases] at hj
      have hkept : w.phases j = .loaded current' := loaded_of_update (fun _ => by nofun) hj
      have := h.loaded j current' hkept hjob
      omega
  · refine ⟨saved, h.order.moved (by rw [hi]; nofun) (by nofun) hphases, ?_, ?_⟩
    · rw [hrep]
      exact h.stored
    · intro j current' hj hjob
      rw [hphases] at hj
      have hkept : w.phases j = .loaded current' := loaded_of_update (fun _ => by nofun) hj
      exact h.loaded j current' hkept hjob

/-- The events a job has from some writers are among those it has from more of them. -/
theorem eventsSaved_mono {earlier saved : List (Fin events.length)} (h : earlier <+: saved)
    (jobId : String) : eventsSaved jobId earlier <+: eventsSaved jobId saved := by
  obtain ⟨later, rfl⟩ := h
  refine ⟨eventsSaved jobId later, ?_⟩
  unfold eventsSaved eventsOf
  rw [List.map_append, List.filter_append]

/-- **A stale save leaves a job short of events.** -/
theorem Folded.short {w w' : World events} {l : Label events} {saved : List (Fin events.length)}
    (h : Folded start w saved) (hstale : ¬ NoStaleSave w l) (hn : w.next l = some w') :
    ∃ saved' jobId, Short start w' saved' jobId := by
  rcases World.next_cases hn with ⟨i, rfl, -⟩ |
    ⟨i, current, rfl, hi, -, -, hrep, hphases⟩ | ⟨i, current, rfl, hi, hversion, -⟩
  · exact absurd trivial hstale
  · rw [NoStaleSave, not_not, hi] at hstale
    obtain ⟨earlier, hprefix, hfold⟩ := h.loaded i current hi
    have hstored := h.stored (events.get i).jobId
    have hevents := eventsSaved_mono hprefix (events.get i).jobId
    -- what was loaded is an older fold, so it misses an event
    have hless : (eventsSaved (events.get i).jobId earlier).length <
        (eventsSaved (events.get i).jobId saved).length := by
      refine lt_of_le_of_ne hevents.length_le fun hlength => hstale.2 ?_
      rw [hevents.eq_of_length hlength] at hfold
      exact Except.ok.inj (hstored.symm.trans hfold)
    have hloaded := logged_reduceVisibilityAll hfold
    have hlength := congrArg List.length (eventsSaved_append (events.get i).jobId saved i)
    rw [if_pos rfl, List.length_append, List.length_singleton] at hlength
    refine ⟨saved ++ [i], (events.get i).jobId, h.order.append (by rw [hi]; nofun) hphases, ?_, ?_⟩
    · rw [hrep, if_pos rfl, logged_reduceEvent, hlength]
      omega
    · intro j current' hj hjob
      rw [hphases] at hj
      have hkept : w.phases j = .loaded current' := loaded_of_update (fun _ => by nofun) hj
      obtain ⟨earlier', hprefix', hfold'⟩ := h.loaded j current' hkept
      rw [hjob] at hfold'
      have hle := (eventsSaved_mono hprefix' (events.get i).jobId).length_le
      have hloaded' := logged_reduceVisibilityAll hfold'
      omega
  · rw [NoStaleSave, not_not, hi] at hstale
    exact absurd hstale.1 hversion

/-! ### The promise -/

theorem Folded.noEventLost {w : World events} {saved : List (Fin events.length)}
    (h : Folded start w saved) (hdone : w.AllDone) : NoEventLost start w :=
  ⟨saved.map events.get, h.order.perm hdone, h.stored⟩

theorem Short.not_noEventLost {w : World events} {saved : List (Fin events.length)}
    {jobId : String} (h : Short start w saved jobId) (hdone : w.AllDone) :
    ¬ NoEventLost start w := by
  rintro ⟨order, hperm, hfold⟩
  have hcount : (eventsOf jobId order).length = (eventsSaved jobId saved).length :=
    (((h.order.perm hdone).trans hperm.symm).filter _).length_eq.symm
  have hlogged := logged_reduceVisibilityAll (hfold jobId)
  have := h.stored
  omega

/-- Once a job is short of events, the run loses one. -/
theorem Short.not_noEventLost_of_run {labels : List (Label events)} {w w' : World events}
    {saved : List (Fin events.length)} {jobId : String} (h : Short start w saved jobId)
    (hrun : (machine start events).run w labels = some w') (hdone : w'.AllDone) :
    ¬ NoEventLost start w' := by
  induction labels generalizing w saved with
  | nil =>
      obtain rfl := Option.some_inj.1 hrun
      exact h.not_noEventLost hdone
  | cons l labels ih =>
      obtain ⟨next, hn, hrest⟩ := Machine.run_cons_eq_some_iff.1 hrun
      obtain ⟨saved', hnext⟩ := h.next hn
      exact ih hnext hrest

theorem Folded.noEventLost_iff_of_run {labels : List (Label events)} {w w' : World events}
    {saved : List (Fin events.length)} (h : Folded start w saved)
    (hrun : (machine start events).run w labels = some w') (hdone : w'.AllDone) :
    NoEventLost start w' ↔ (machine start events).runWhile NoStaleSave w labels = some w' := by
  induction labels generalizing w saved with
  | nil =>
      obtain rfl := Option.some_inj.1 hrun
      exact iff_of_true (h.noEventLost hdone) rfl
  | cons l labels ih =>
      obtain ⟨next, hn, hrest⟩ := Machine.run_cons_eq_some_iff.1 hrun
      by_cases hfresh : NoStaleSave w l
      · obtain ⟨saved', hnext⟩ := h.next hfresh hn
        rw [ih hnext hrest, Machine.runWhile_cons_of_pos hfresh hn]
      · obtain ⟨saved', jobId, hshort⟩ := h.short hfresh hn
        rw [Machine.runWhile_cons_of_neg hfresh]
        exact iff_of_false (hshort.not_noEventLost_of_run hrest hdone) (by nofun)

/-- **No event is lost in a run exactly when no save in it is stale.** -/
theorem noEventLost_iff (start : InMemoryVisibilityRepository) (events : List Event)
    (labels : List (Label events)) (w : World events)
    (hrun : (machine start events).run (machine start events).start labels = some w)
    (hdone : w.AllDone) :
    NoEventLost start w ↔
      (machine start events).runWhile NoStaleSave (machine start events).start labels = some w :=
  (folded_start start events).noEventLost_iff_of_run hrun hdone

/-- A submission of `job-1` and its acknowledgement. -/
def submittedEvents : List Event :=
  [{ eventId := "e-1", eventType := .jobSchedulerSubmissionRequested, eventTime := 0
     ingestionTime := 0, jobId := "job-1" },
   { eventId := "e-2", eventType := .jobSchedulerSubmissionAcknowledged, eventTime := 1
     ingestionTime := 1, jobId := "job-1" }]

/-- Both writers load the job before either has saved; the second meets a conflict and starts
over. -/
def reloadedRun : List (Label submittedEvents) :=
  let first : Fin 2 := 0
  let second : Fin 2 := 1
  [.load first, .load second, .save first, .save second, .load second, .save second]

/-- A writer that meets a conflict loads again, and no event is lost. -/
theorem noEventLost_reloadedRun :
    ∃ w, (machine {} submittedEvents).run (machine {} submittedEvents).start reloadedRun = some w ∧
      NoEventLost {} w := by
  refine ⟨_, rfl, (noEventLost_iff {} submittedEvents reloadedRun _ rfl ?_).2 rfl⟩
  intro (i : Fin 2)
  match i with
  | 0 => rfl
  | 1 => rfl

/-- An execution of `job-1` that succeeds, the same success reported again, and a cancellation that
comes too late. -/
def settledEvents : List Event :=
  [{ eventId := "e-1", eventType := .jobExecutionSucceeded, eventTime := 0, ingestionTime := 0
     jobId := "job-1", attemptNumber := 1 },
   { eventId := "e-2", eventType := .jobExecutionSucceeded, eventTime := 0, ingestionTime := 1
     jobId := "job-1", attemptNumber := 1 },
   { eventId := "e-3", eventType := .jobCancelled, eventTime := 2, ingestionTime := 2
     jobId := "job-1" }]

/-- Once the success is saved, two writers load the job and save, one after the other. -/
def overwrittenRun : List (Label settledEvents) :=
  let first : Fin 3 := 0
  let second : Fin 3 := 1
  let third : Fin 3 := 2
  [.load first, .save first, .load second, .load third, .save second, .save third]

/-- **A stale save loses an event.**  Two writers load the succeeded job; the first saves a semantic
duplicate, which leaves the version where it was, and the second saves over it. -/
theorem not_noEventLost_settledEvents :
    ¬ ∀ (start : InMemoryVisibilityRepository) (events : List Event) (w : World events),
      (events.map Event.eventId).Nodup → (machine start events).Reachable w → w.AllDone →
        NoEventLost start w := by
  intro h
  obtain ⟨w, hrun, hdone, hlogged⟩ : ∃ w, (machine {} settledEvents).run
      (machine {} settledEvents).start overwrittenRun = some w ∧ w.AllDone ∧
      logged (w.repository.get "job-1") = 2 := by
    refine ⟨_, rfl, fun (i : Fin 3) => ?_, rfl⟩
    match i with
    | 0 => rfl
    | 1 => rfl
    | 2 => rfl
  obtain ⟨order, hperm, hfold⟩ := h {} settledEvents w (by decide)
    (Machine.Reachable.of_run Machine.Reachable.start _ hrun) hdone
  have hlength : (eventsOf "job-1" order).length = 3 :=
    (hperm.filter _).length_eq.trans (by decide)
  have hfolded := logged_reduceVisibilityAll (hfold "job-1")
  rw [hlogged, hlength] at hfolded
  exact absurd hfolded (by decide)

end Writers

end ScheduledJobs
