/-
**How often an operation finalises its record.**

The purpose of the operation id is that a job, however often it is attempted, increments the
checksum of its record once.  The row remembers only the *last* operation that finalised it, and
the marker of an older operation is trusted only while the row still has the checksum the marker
recorded; so an operation that is replayed after another operation has finalised the row passes
both checks, reserves the row again and increments the checksum a second time.

This module proves that this is the only way to go wrong.  As long as no reservation is granted to
an operation that has already finalised the record, every interleaving of any number of calls,
with lost answers and dead workers anywhere, finalises each operation at most once.

Main definitions:

* `Cassandra.ExactlyOnce` — what is promised of a state of the machine;
* `Cassandra.NoStaleReserve` — the step does not grant a reservation to an operation that has
  already finalised the record;
* `Cassandra.ReservedFresh` — the invariant.

Main results:

* `Cassandra.exactlyOnce_of_noStaleReserve` — **each operation finalises at most once in every run
  without a stale reservation**;
* `Cassandra.not_exactlyOnce_replay` — a replay after another operation breaks the promise;
* `Cassandra.staleReserve_breaks` — a stale reservation is two answered statements away from a
  broken promise, in every run.
-/

import ScheduledJobs.CassandraApplyOnce
import Mathlib.Data.Finset.Card

set_option relaxedAutoImplicit false
set_option autoImplicit false

namespace Cassandra

variable {Op : Type} [DecidableEq Op]

/-- The label is a step of a call for the operation. -/
def Label.ActsFor (w : World Op) (l : Label Op) (op : Op) : Prop :=
  ∃ c r call, l = .statement c r ∧ w.calls c = some call ∧ call.operationId = op

/-- **Exactly-once effect**: no operation has finalised the record twice, the checksum counts the
distinct operations that have, and no statement of a call for one of those moves the checksum. -/
structure ExactlyOnce (seed : WorkloadRecord) (w : World Op) : Prop where
  once : ∀ op, w.store.finalised.count op ≤ 1
  checksum : w.store.row.checksum = seed.checksum + w.store.finalised.toFinset.card
  replay : ∀ op ∈ w.store.finalised, ∀ l w', l.ActsFor w op → w.next l = some w' →
    w'.store.row.checksum = w.store.row.checksum

/-- The operation and the record of a call that is about to execute its reservation. -/
def World.reserving (w : World Op) (c : ℕ) : Option (Op × WorkloadRecord) :=
  match w.calls c with
  | some ⟨op, _, .reserve record _⟩ => some (op, record)
  | _ => none

omit [DecidableEq Op] in
theorem World.reserving_eq {w : World Op} {c : ℕ} {call : Call Op} {record : WorkloadRecord}
    {state : RecordRow Op} (hc : w.calls c = some call) (hpc : call.pc = .reserve record state) :
    w.reserving c = some (call.operationId, record) := by
  obtain ⟨op, fib, pc⟩ := call
  obtain rfl : pc = .reserve record state := hpc
  simp [World.reserving, hc]

/-- The step grants no reservation to an operation that has already finalised the record: when a
call for such an operation gets past its two replay checks and executes its reservation, the row
is reserved or has moved on from the checksum in the call's record. -/
def NoStaleReserve (w : World Op) : Label Op → Prop
  | .statement c r => ∀ p ∈ w.reserving c, r.Executed → p.1 ∈ w.store.finalised →
      ¬ w.store.row.Free p.2.checksum
  | _ => True

instance (w : World Op) (l : Label Op) : Decidable (NoStaleReserve w l) := by
  cases l <;> unfold NoStaleReserve <;> infer_instance

/-- The invariant: the history has no repetition, the checksum is its length above the seed, and
the row is never reserved for an operation of the history. -/
structure ReservedFresh (seed : WorkloadRecord) (w : World Op) : Prop where
  nodup : w.store.finalised.Nodup
  checksum : w.store.row.checksum = seed.checksum + w.store.finalised.length
  fresh : ∀ op, w.store.row.pendingOperationId = some op → op ∉ w.store.finalised

omit [DecidableEq Op] in
theorem reservedFresh_start (seed : WorkloadRecord) :
    ReservedFresh seed (⟨Store.seeded seed, fun _ => none⟩ : World Op) where
  nodup := by simp [Store.seeded]
  checksum := by simp [Store.seeded]
  fresh := by simp [Store.seeded]

/-- What one admitted step does to the invariant. -/
theorem ReservedFresh.step {seed : WorkloadRecord} {w w' : World Op} {l : Label Op}
    (hw : ReservedFresh seed w) (hl : NoStaleReserve w l) (h : w.next l = some w') :
    ReservedFresh seed w' := by
  rcases World.next_cases h with hst | ⟨c, r, call, call', rfl, hc, hs⟩
  · exact ⟨hst ▸ hw.nodup, hst ▸ hw.checksum, hst ▸ hw.fresh⟩
  obtain ⟨-, ⟨hrow, hfin⟩ | ⟨record, state, hpc, hr, hfree, hst⟩ |
    ⟨record, hpc, hres, hsum, hpend, -, hfin⟩⟩ := Call.step_cases hs
  · exact ⟨hfin ▸ hw.nodup, by rw [hrow, hfin, hw.checksum], by rw [hrow, hfin]; exact hw.fresh⟩
  · -- the reservation was granted, so its operation is not in the history
    have hnew : call.operationId ∉ w.store.finalised :=
      fun hmem => hl _ (World.reserving_eq hc hpc) hr hmem hfree
    refine ⟨by rw [hst]; exact hw.nodup, by rw [hst]; exact hw.checksum, ?_⟩
    intro op hop
    rw [hst] at hop ⊢
    exact Option.some_inj.1 hop ▸ hnew
  · -- the row was reserved for the operation, so it enters the history for the first time
    have hnew : call.operationId ∉ w.store.finalised := hw.fresh _ hres.1
    refine ⟨?_, ?_, by simp [hpend]⟩
    · rw [hfin, List.nodup_append]
      simpa using ⟨hw.nodup, fun a ha hac => hnew (hac ▸ ha)⟩
    · rw [hsum, hfin, List.length_append, ← hres.2, hw.checksum, List.length_singleton]
      omega

/-- The invariant holds in every state of a run without stale reservations. -/
theorem ReservedFresh.of_reach {seed : WorkloadRecord} {w : World Op}
    (h : (machine seed).Reach NoStaleReserve w) : ReservedFresh seed w :=
  h.invariant (reservedFresh_start seed) fun _ _ _ _ hi hp hn => hi.step hp hn

/-- Under the invariant no statement of a call for a finalised operation moves the checksum. -/
theorem ReservedFresh.replay {seed : WorkloadRecord} {w w' : World Op} {l : Label Op} {op : Op}
    (hw : ReservedFresh seed w) (hop : op ∈ w.store.finalised) (hl : l.ActsFor w op)
    (h : w.next l = some w') : w'.store.row.checksum = w.store.row.checksum := by
  obtain ⟨c, r, call, rfl, hc, rfl⟩ := hl
  rcases World.next_cases h with hst | ⟨c', r', call', call'', hl', hc', hs⟩
  · rw [hst]
  cases hl'
  obtain rfl : call = call' := Option.some_inj.1 (hc.symm.trans hc')
  obtain ⟨-, ⟨hrow, -⟩ | ⟨_, _, _, _, _, hst⟩ | ⟨_, _, hres, -⟩⟩ := Call.step_cases hs
  · rw [hrow]
  · rw [hst]
  · exact absurd hop (hw.fresh _ hres.1)

theorem ReservedFresh.exactlyOnce {seed : WorkloadRecord} {w : World Op}
    (hw : ReservedFresh seed w) : ExactlyOnce seed w where
  once := fun op => List.nodup_iff_count_le_one.1 hw.nodup op
  checksum := by rw [hw.checksum, List.toFinset_card_of_nodup hw.nodup]
  replay := fun _ hop _ _ hl h => hw.replay hop hl h

/-- **Each operation finalises its record at most once** in every run that grants no reservation to
an operation that has already finalised it: any number of operations, any number of calls for
each, any interleaving of their statements, any lost answer and any dead worker. -/
theorem exactlyOnce_of_noStaleReserve (seed : WorkloadRecord) (w : World Op)
    (h : (machine seed).Reach NoStaleReserve w) : ExactlyOnce seed w :=
  (ReservedFresh.of_reach h).exactlyOnce

/-- **A stale reservation is two answered statements away from a broken promise**: the condition of
`exactlyOnce_of_noStaleReserve` leaves out nothing but steps that reach the defect. -/
theorem staleReserve_breaks (seed : WorkloadRecord) {w : World Op} {c : ℕ}
    (h : ¬ NoStaleReserve w (.statement c .answered)) :
    ∃ w₁ w₂, w.next (.statement c .answered) = some w₁ ∧
      w₁.next (.statement c .answered) = some w₂ ∧ ¬ ExactlyOnce seed w₂ := by
  simp only [NoStaleReserve, not_forall, not_not] at h
  obtain ⟨⟨op, record⟩, hp, hr, hmem, hfree⟩ := h
  obtain ⟨fib, state, hc⟩ : ∃ fib state, w.calls c = some ⟨op, fib, .reserve record state⟩ := by
    unfold World.reserving at hp
    split at hp
    · next op' fib record' state hc =>
        simp only [Option.mem_def, Option.some.injEq, Prod.mk.injEq] at hp
        obtain ⟨rfl, rfl⟩ := hp
        exact ⟨fib, state, hc⟩
    · simp at hp
  have hres : w.store.reserve op record.checksum =
      ({ w.store with row := { w.store.row with pendingOperationId := some op } }, true) :=
    if_pos hfree
  -- the reservation is granted, and the finalisation that follows it is applied
  obtain ⟨w₁, h₁, hst₁, hc₁⟩ : ∃ w₁, w.next (.statement c .answered) = some w₁ ∧
      w₁.store = { w.store with row := { w.store.row with pendingOperationId := some op } } ∧
      w₁.calls c = some ⟨op, fib, .finish record⟩ :=
    ⟨_, by simp only [World.next, hc, Option.bind_some, Call.step, if_pos hr, hres]; rfl, rfl,
      by simp [Call.goto]⟩
  have hfin : w₁.store.finish op fib (record.checksum + 1) record.checksum = _ :=
    if_pos (by rw [hst₁]; exact ⟨rfl, hfree.1⟩)
  obtain ⟨w₂, h₂, hst₂⟩ : ∃ w₂, w₁.next (.statement c .answered) = some w₂ ∧
      w₂.store.finalised = w.store.finalised ++ [op] :=
    ⟨_, by simp only [World.next, hc₁, Option.bind_some, Call.step, if_pos hr, hfin]; rfl,
      by rw [hst₁]⟩
  refine ⟨w₁, w₂, h₁, h₂, fun hex => ?_⟩
  have hcount := hex.once op
  rw [hst₂, List.count_append, List.count_singleton_self] at hcount
  have hpos : 0 < w.store.finalised.count op := List.count_pos_iff.2 hmem
  omega

/-! ### The seeded row of the local dataset -/

/-- The first row of the local seed. -/
def localSeed : WorkloadRecord := ⟨"local-v1", 0, 0, 20, 0⟩

/-- A whole attempt of an operation, every statement answered: select, read, look for the marker,
reserve, finish, write the marker. -/
def answeredAttempt (c : ℕ) (op : Op) : List (Label Op) :=
  .attempt c op "6765" :: List.replicate 6 (.statement c .answered)

/-- One answered attempt meets the condition, and finalises the record once. -/
theorem exactlyOnce_answeredAttempt :
    ∃ w, (machine localSeed).runWhile NoStaleReserve (machine localSeed).start
        (answeredAttempt 0 3) = some w ∧
      w.store.finalised = [3] ∧ ExactlyOnce localSeed w := by
  refine ⟨_, rfl, by decide, ?_⟩
  exact exactlyOnce_of_noStaleReserve localSeed _
    (Machine.Reach.of_runWhile Machine.Reach.start (answeredAttempt 0 3) rfl)

/-- **A replay after another operation breaks the promise.**  Operation `3` finalises the record,
operation `5` finalises it next, and a second attempt of operation `3` (its worker died before the
scheduler recorded the success) finalises it again: no answer is lost, and every marker is there. -/
theorem not_exactlyOnce_replay :
    ¬ ∀ (seed : WorkloadRecord) (w : World ℕ), (machine seed).Reachable w →
      ExactlyOnce seed w := by
  intro h
  have hrun : ((machine localSeed).run (machine localSeed).start
      (answeredAttempt 0 3 ++ answeredAttempt 1 5 ++ answeredAttempt 2 3)).map
        (fun w => w.store.finalised) = some [3, 5, 3] := by decide
  obtain ⟨w, hw, hfin⟩ := Option.map_eq_some_iff.1 hrun
  have hcount := (h localSeed w (Machine.Reachable.of_run Machine.Reachable.start _ hw)).once 3
  rw [hfin] at hcount
  exact absurd hcount (by decide)

end Cassandra
