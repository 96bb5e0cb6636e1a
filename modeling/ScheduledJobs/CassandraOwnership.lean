/-
**Who made each step of the checksum.**

The checksum of a record counts the `finish` statements that were applied to it, so the history of
the applied statements says which operation made which step.  A call returns a checksum with `True`
on four paths: its operation is the last one of the row, its marker fits the row, its own `finish`
was applied, or it found after a lost answer that it had been.  Each of them trusts a read that may
be stale by then; but what was read is a step the operation had made, and the history only grows.

Main definitions:

* `Cassandra.MadeStep` — the operation made the step that ended at a checksum;
* `Cassandra.Owned`, `Cassandra.Pc.Owned` — **the invariant**, of the store and of each call;
* `Cassandra.NeitherLostNorShared` — what is promised of a state.

Main results:

* `Cassandra.Owned.step` — what one statement of a call preserves;
* `Cassandra.neitherLostNorShared` — **in every reachable state, the checksum counts the steps, and
  a call that is told a checksum made the step to it**.
-/

import ScheduledJobs.CassandraExactlyOnce
import Mathlib.Data.List.Basic

set_option relaxedAutoImplicit false
set_option autoImplicit false

namespace Cassandra

variable {Op : Type} {seed : WorkloadRecord}

/-! ### Steps and their makers -/

/-- The operation made the step that ended at the checksum: it is the one at that place of the
history. -/
def MadeStep (seed : WorkloadRecord) (finalised : List Op) (op : Op) (checksum : ℤ) : Prop :=
  ∃ i : ℕ, finalised[i]? = some op ∧ checksum = seed.checksum + i + 1

/-- The history only grows. -/
theorem MadeStep.append {finalised : List Op} {op : Op} {checksum : ℤ}
    (h : MadeStep seed finalised op checksum) (more : List Op) :
    MadeStep seed (finalised ++ more) op checksum := by
  obtain ⟨i, hi, hsum⟩ := h
  have hlt : i < finalised.length := (List.getElem?_eq_some_iff.1 hi).1
  exact ⟨i, by rw [List.getElem?_append_left hlt]; exact hi, hsum⟩

/-- The step that was made last. -/
theorem MadeStep.last (finalised : List Op) (op : Op) :
    MadeStep seed (finalised ++ [op]) op (seed.checksum + finalised.length + 1) :=
  ⟨finalised.length, by simp, rfl⟩

/-- **A step has one maker.** -/
theorem MadeStep.unique {finalised : List Op} {op₁ op₂ : Op} {checksum : ℤ}
    (h₁ : MadeStep seed finalised op₁ checksum) (h₂ : MadeStep seed finalised op₂ checksum) :
    op₁ = op₂ := by
  obtain ⟨i, hi, hsum₁⟩ := h₁
  obtain ⟨j, hj, hsum₂⟩ := h₂
  obtain rfl : i = j := by omega
  exact Option.some_inj.1 (hi.symm.trans hj)

/-! ### The invariant -/

/-- The checksum counts the history, the last operation of the row made the last step, and a marker
records a step its operation made. -/
structure Owned (seed : WorkloadRecord) (st : Store Op) : Prop where
  checksum : st.row.checksum = seed.checksum + st.finalised.length
  last : ∀ op, st.row.lastOperationId = some op →
    MadeStep seed st.finalised op st.row.checksum
  marker : ∀ op marker, st.updateOperations op = some marker →
    MadeStep seed st.finalised op marker.newChecksum

/-- The checksum a call is about to return is one its operation made the step to. -/
def Pc.Owned (seed : WorkloadRecord) (finalised : List Op) (op : Op) : Pc Op → Prop
  | .replayMarker _ state => MadeStep seed finalised op state.checksum
  | .writeMarker _ newChecksum => MadeStep seed finalised op newChecksum
  | .returned applied checksum => applied = true → MadeStep seed finalised op checksum
  | _ => True

theorem Pc.Owned.append {finalised : List Op} {op : Op} {pc : Pc Op}
    (h : pc.Owned seed finalised op) (more : List Op) : pc.Owned seed (finalised ++ more) op := by
  cases pc with
  | replayMarker _ _ => exact MadeStep.append h more
  | writeMarker _ _ => exact MadeStep.append h more
  | returned _ _ => exact fun happlied => (h happlied).append more
  | _ => trivial

theorem owned_seeded (seed : WorkloadRecord) : Owned seed (Store.seeded seed : Store Op) where
  checksum := by simp [Store.seeded]
  last := by simp [Store.seeded]
  marker := by simp [Store.seeded]

variable [DecidableEq Op] {st : Store Op}

omit [DecidableEq Op] in
/-- A reservation touches neither the checksum nor what it is made of. -/
theorem Owned.reserve (h : Owned seed st) (op : Op) (checksum : ℤ) :
    Owned seed (st.reserve op checksum).1 ∧
      (st.reserve op checksum).1.finalised = st.finalised := by
  rcases st.reserve_cases op checksum with ⟨-, he⟩ | ⟨-, he⟩
  · rw [he]
    exact ⟨⟨h.checksum, h.last, h.marker⟩, rfl⟩
  · rw [he]
    exact ⟨h, rfl⟩

/-- **A finalisation is a step of the reserving operation**, if it is applied. -/
theorem Owned.finish (h : Owned seed st) (op : Op) (fib : String) (checksum : ℤ) :
    Owned seed (st.finish op fib (checksum + 1) checksum).1 ∧
      ((st.finish op fib (checksum + 1) checksum).2 = true →
        MadeStep seed (st.finish op fib (checksum + 1) checksum).1.finalised op (checksum + 1)) ∧
      ∃ more, (st.finish op fib (checksum + 1) checksum).1.finalised = st.finalised ++ more := by
  by_cases hres : st.row.ReservedFor op checksum
  · have hmade : MadeStep seed (st.finalised ++ [op]) op (checksum + 1) := by
      rw [← hres.2, h.checksum]
      exact MadeStep.last st.finalised op
    simp only [Store.finish, if_pos hres]
    refine ⟨⟨?_, fun op' hop' => ?_, fun op' marker hmarker => ?_⟩, fun _ => hmade, [op], rfl⟩
    · have hsum : checksum = seed.checksum + st.finalised.length := hres.2 ▸ h.checksum
      rw [List.length_append, List.length_singleton]
      show checksum + 1 = _
      omega
    · obtain rfl : op = op' := Option.some_inj.1 hop'
      exact hmade
    · exact (h.marker op' marker hmarker).append [op]
  · simp only [Store.finish, if_neg hres]
    exact ⟨h, fun happlied => by simp at happlied, [], (List.append_nil _).symm⟩

/-- Writing the marker of a step that was made. -/
theorem Owned.writeMarker (h : Owned seed st) {op : Op} {checksum : ℤ}
    (hmade : MadeStep seed st.finalised op checksum) (fib : String) :
    Owned seed (st.writeMarker op fib checksum) where
  checksum := h.checksum
  last := h.last
  marker := by
    intro op' marker hmarker
    by_cases hop : op' = op
    · subst hop
      obtain rfl : (⟨checksum - 1, checksum, fib⟩ : UpdateOperation) = marker := by
        simpa [Store.writeMarker] using hmarker
      exact hmade
    · exact h.marker op' marker (by simpa [Store.writeMarker, hop] using hmarker)

/-- What a statement leaves behind: the invariant of the store and of the call at its next place,
and a history that only grew. -/
structure Kept (seed : WorkloadRecord) (st st' : Store Op) (op : Op) (pc : Pc Op) : Prop where
  store : Owned seed st'
  call : pc.Owned seed st'.finalised op
  history : ∃ more, st'.finalised = st.finalised ++ more

omit [DecidableEq Op] in
/-- A statement that writes nothing. -/
theorem Owned.kept (h : Owned seed st) {op : Op} {pc : Pc Op}
    (hpc : pc.Owned seed st.finalised op) : Kept seed st st op pc :=
  ⟨h, hpc, [], (List.append_nil _).symm⟩

omit [DecidableEq Op] in
/-- A statement that failed may have been executed. -/
theorem Kept.executed {r : Response} {stRun : Store Op} {op : Op} {pc : Pc Op}
    (hrun : Kept seed st stRun op pc) (hskip : Kept seed st st op pc) :
    Kept seed st (if r.Executed then stRun else st) op pc := by
  split
  · exact hrun
  · exact hskip

/-- The row that is read says which operation made its last step. -/
theorem Owned.afterRead (h : Owned seed st) (c : Call Op) (record : WorkloadRecord) :
    (c.afterRead record st.row).Owned seed st.finalised c.operationId := by
  unfold Call.afterRead
  split
  · next hlast => exact h.last c.operationId hlast
  · trivial

/-- A marker of the operation records a step it made. -/
theorem Owned.afterFind (h : Owned seed st) (c : Call Op) (record : WorkloadRecord)
    (state : RecordRow Op) :
    (c.afterFind record state (st.findOperation c.operationId)).Owned seed st.finalised
      c.operationId := by
  unfold Call.afterFind
  split
  · next hfound =>
      obtain ⟨marker, hmarker, hsum⟩ := Option.map_eq_some_iff.1 hfound
      exact fun _ => hsum ▸ h.marker c.operationId marker hmarker
  · split <;> trivial

/-- A reread row that names the operation says that the lost answer was a success. -/
theorem Owned.afterReconcile (h : Owned seed st) (op : Op) (record : WorkloadRecord) :
    (if st.row.lastOperationId = some op then Pc.writeMarker record st.row.checksum
      else .raised).Owned seed st.finalised op := by
  split
  · next hlast => exact h.last op hlast
  · trivial

/-- Both marker statements return the checksum that was made. -/
theorem Owned.step_writeMarker (h : Owned seed st) {op : Op} {checksum : ℤ}
    (hmade : MadeStep seed st.finalised op checksum) (fib : String) (r : Response) :
    Kept seed st (if r.Executed then st.writeMarker op fib checksum else st) op
      (if r = .answered then .returned true checksum else .raised) := by
  have hpc : (if r = .answered then Pc.returned true checksum else .raised).Owned
      seed st.finalised op := by
    split
    · exact fun _ => hmade
    · trivial
  exact Kept.executed ⟨h.writeMarker hmade fib, hpc, [], (List.append_nil _).symm⟩ (h.kept hpc)

omit [DecidableEq Op] in
/-- **A reservation**, applied or not, answered or not. -/
theorem Owned.step_reserve (h : Owned seed st) (op : Op) (record : WorkloadRecord)
    (checksum : ℤ) (r : Response) {res : Store Op × Bool}
    (hres : res = if r.Executed then st.reserve op record.checksum else (st, false)) :
    Kept seed st res.1 op (if r = .answered then
        if res.2 then .finish record else .returned false checksum
      else .raised) := by
  have hnext : ∀ finalised : List Op, (if r = .answered then
      if res.2 then Pc.finish record else .returned false checksum
      else .raised).Owned seed finalised op := by
    intro finalised
    split
    · split
      · trivial
      · exact fun hfalse => by cases hfalse
    · trivial
  obtain ⟨howned, hfin⟩ := h.reserve op record.checksum
  split at hres
  · subst hres
    exact ⟨howned, hnext _, [], by rw [hfin, List.append_nil]⟩
  · subst hres
    exact h.kept (hnext _)

/-- **A finalisation**, applied or not, answered or not. -/
theorem Owned.step_finish (h : Owned seed st) (op : Op) (fib : String) (record : WorkloadRecord)
    (r : Response) {res : Store Op × Bool}
    (hres : res = if r.Executed then
      st.finish op fib (record.checksum + 1) record.checksum else (st, false)) :
    Kept seed st res.1 op (if r = .answered then
        if res.2 then .writeMarker record (record.checksum + 1)
        else .returned false record.checksum
      else .reconcile record) := by
  have hnext : ∀ finalised : List Op,
      (res.2 = true → MadeStep seed finalised op (record.checksum + 1)) →
      (if r = .answered then
        if res.2 then Pc.writeMarker record (record.checksum + 1)
        else .returned false record.checksum
      else .reconcile record).Owned seed finalised op := by
    intro finalised hmade
    split
    · split
      · next happlied => exact hmade happlied
      · exact fun hfalse => by cases hfalse
    · trivial
  obtain ⟨howned, hmade, hmore⟩ := h.finish op fib record.checksum
  split at hres
  · subst hres
    exact ⟨howned, hnext _ hmade, hmore⟩
  · subst hres
    exact h.kept (hnext _ fun hfalse => by cases hfalse)

/-- **What one statement of a call preserves.** -/
theorem Owned.step {c c' : Call Op} {st' : Store Op} {r : Response} (h : Owned seed st)
    (hpc : c.pc.Owned seed st.finalised c.operationId) (hs : c.step st r = some (st', c')) :
    Kept seed st st' c'.operationId c'.pc := by
  have hread : ∀ pc : Pc Op, pc.Owned seed st.finalised c.operationId →
      some (st, c.goto pc) = some (st', c') → Kept seed st st' c'.operationId c'.pc := by
    rintro pc howned heq
    cases heq
    exact h.kept howned
  cases hat : c.pc with
  | selectRecord =>
      simp only [Call.step, hat] at hs
      split at hs
      · exact hread (.readRecord _) trivial hs
      · exact hread .raised trivial hs
  | readRecord record =>
      simp only [Call.step, hat] at hs
      split at hs
      · exact hread _ (h.afterRead c record) hs
      · exact hread .raised trivial hs
  | replayMarker record state =>
      simp only [Call.step, hat] at hs
      rw [hat] at hpc
      cases hs
      exact h.step_writeMarker hpc c.fibonacciResult r
  | findOperation record state =>
      simp only [Call.step, hat] at hs
      split at hs
      · exact hread _ (h.afterFind c record state) hs
      · exact hread .raised trivial hs
  | reserve record state =>
      simp only [Call.step, hat] at hs
      cases hs
      exact h.step_reserve c.operationId record state.checksum r rfl
  | finish record =>
      simp only [Call.step, hat] at hs
      cases hs
      exact h.step_finish c.operationId c.fibonacciResult record r rfl
  | reconcile record =>
      simp only [Call.step, hat] at hs
      split at hs
      · exact hread _ (h.afterReconcile c.operationId record) hs
      · exact hread .raised trivial hs
  | writeMarker record newChecksum =>
      simp only [Call.step, hat] at hs
      rw [hat] at hpc
      cases hs
      exact h.step_writeMarker hpc c.fibonacciResult r
  | returned applied checksum => simp [Call.step, hat] at hs
  | raised => simp [Call.step, hat] at hs

/-! ### Every run -/

/-- The invariant of a world. -/
structure World.Owned (seed : WorkloadRecord) (w : World Op) : Prop where
  store : Cassandra.Owned seed w.store
  calls : ∀ c call, w.calls c = some call →
    call.pc.Owned seed w.store.finalised call.operationId

theorem World.Owned.next {w w' : World Op} {l : Label Op} (h : w.Owned seed)
    (hn : w.next l = some w') : w'.Owned seed := by
  cases l with
  | attempt c op fib =>
      simp only [World.next] at hn
      split at hn
      · cases hn
        refine ⟨h.store, fun c' call hcall => ?_⟩
        by_cases hc : c' = c
        · subst hc
          obtain rfl : _ = call := by simpa using hcall
          trivial
        · exact h.calls c' call (by simpa [Function.update_of_ne hc] using hcall)
      · cases hn
  | statement c r =>
      simp only [World.next, Option.bind_eq_some_iff, Option.map_eq_some_iff] at hn
      obtain ⟨call, hc, ⟨st', call'⟩, hs, rfl⟩ := hn
      obtain ⟨hstore, hpc, more, hmore⟩ := h.store.step (h.calls c call hc) hs
      refine ⟨hstore, fun c' other hother => ?_⟩
      by_cases hcc : c' = c
      · subst hcc
        obtain rfl : _ = other := by simpa using hother
        exact hpc
      · have hkept := h.calls c' other (by simpa [Function.update_of_ne hcc] using hother)
        exact hmore ▸ hkept.append more
  | crash c =>
      simp only [World.next, Option.map_eq_some_iff] at hn
      obtain ⟨call, hc, rfl⟩ := hn
      refine ⟨h.store, fun c' other hother => ?_⟩
      by_cases hcc : c' = c
      · subst hcc
        obtain rfl : _ = other := by simpa using hother
        trivial
      · exact h.calls c' other (by simpa [Function.update_of_ne hcc] using hother)

theorem World.Owned.of_reachable {w : World Op} (h : (machine seed).Reachable w) : w.Owned seed :=
  h.invariant ⟨owned_seeded seed, fun _ _ hcall => by cases hcall⟩
    fun _ _ _ _ howned hn => howned.next hn

/-- **A step of the world either leaves the checksum alone, or is a statement of the operation that
holds the reservation, and moves it by one.** -/
def MovesByOne (w : World Op) (l : Label Op) (w' : World Op) : Prop :=
  w'.store.row.checksum = w.store.row.checksum ∧ w'.store.finalised = w.store.finalised ∨
  ∃ c r call, l = .statement c r ∧ w.calls c = some call ∧
    w.store.row.pendingOperationId = some call.operationId ∧
    w'.store.row.checksum = w.store.row.checksum + 1 ∧
    w'.store.finalised = w.store.finalised ++ [call.operationId]

/-- **Updates are neither lost nor shared**: the checksum counts the steps in the history, each
further step moves it by one and belongs to the operation that held the reservation, a call that is
told a checksum with `True` made the step to it, and no two operations are told the same one. -/
structure NeitherLostNorShared (seed : WorkloadRecord) (w : World Op) : Prop where
  counted : w.store.row.checksum = seed.checksum + w.store.finalised.length
  moves : ∀ l w', w.next l = some w' → MovesByOne w l w'
  owned : ∀ c call checksum, w.calls c = some call → call.pc = .returned true checksum →
    MadeStep seed w.store.finalised call.operationId checksum
  unshared : ∀ c₁ c₂ call₁ call₂ checksum, w.calls c₁ = some call₁ → w.calls c₂ = some call₂ →
    call₁.pc = .returned true checksum → call₂.pc = .returned true checksum →
    call₁.operationId = call₂.operationId

theorem movesByOne_of_next {w w' : World Op} {l : Label Op} (h : w.next l = some w') :
    MovesByOne w l w' := by
  rcases World.next_cases h with hst | ⟨c, r, call, call', rfl, hc, hs⟩
  · exact Or.inl (by rw [hst]; exact ⟨rfl, rfl⟩)
  obtain ⟨-, ⟨hrow, hfin⟩ | ⟨_, _, _, _, _, hst⟩ | ⟨record, -, hres, hsum, -, -, hfin⟩⟩ :=
    Call.step_cases hs
  · exact Or.inl ⟨by rw [hrow], hfin⟩
  · exact Or.inl (by rw [hst]; exact ⟨rfl, rfl⟩)
  · exact Or.inr ⟨c, r, call, rfl, hc, hres.1, by rw [hsum, hres.2], hfin⟩

/-- **Updates are neither lost nor shared** in any reachable state of any number of calls, whatever
answers are lost and whichever workers die. -/
theorem neitherLostNorShared (seed : WorkloadRecord) (w : World Op)
    (hw : (machine seed).Reachable w) : NeitherLostNorShared seed w := by
  have howned := World.Owned.of_reachable hw
  have hmade : ∀ c call checksum, w.calls c = some call → call.pc = .returned true checksum →
      MadeStep seed w.store.finalised call.operationId checksum := by
    intro c call checksum hc hpc
    have hcall := howned.calls c call hc
    rw [hpc] at hcall
    exact hcall rfl
  refine ⟨howned.store.checksum, fun l w' hn => movesByOne_of_next hn, hmade, ?_⟩
  intro c₁ c₂ call₁ call₂ checksum h₁ h₂ hpc₁ hpc₂
  exact (hmade c₁ call₁ checksum h₁ hpc₁).unique (hmade c₂ call₂ checksum h₂ hpc₂)

/-- Two operations on the seeded row are each told the checksum of their own step. -/
theorem neitherLostNorShared_answeredAttempts :
    ∃ w, (machine localSeed).run (machine localSeed).start
        (answeredAttempt 0 3 ++ answeredAttempt 1 5) = some w ∧
      w.store.finalised = [3, 5] ∧ w.store.row.checksum = 2 ∧
      (w.calls 0).map (·.pc) = some (.returned true 1) ∧
      (w.calls 1).map (·.pc) = some (.returned true 2) ∧ NeitherLostNorShared localSeed w := by
  refine ⟨_, rfl, by decide, by decide, by decide, by decide, ?_⟩
  exact neitherLostNorShared localSeed _
    (Machine.Reachable.of_run Machine.Reachable.start
      (answeredAttempt 0 3 ++ answeredAttempt 1 5) rfl)

end Cassandra
