/-
**A publisher that is left alone publishes what it leases.**

A publisher that leases a batch while no other one is at work holds the leases of all its records.
Whatever it sends, the broker acknowledging it, it can write down; so with every record there is one
row less that is not published.

Main definitions:

* `Outbox.World.unpublished` — the rows that are not published;
* `Outbox.World.Holding` — a publisher, and no other, is at the beginning of some records, and holds
  the lease of each of them.

Main results:

* `Outbox.World.exists_lease` — a lease of what is due;
* `Outbox.World.Holding.publish` — **a record is sent and its row published**;
* `Outbox.World.Holding.finish` — the end of the batch.
-/

import ScheduledJobs.OutboxPublication

set_option relaxedAutoImplicit false
set_option autoImplicit false

namespace ScheduledJobs

namespace Outbox

variable {w w' : World} {publisher : ℕ} {record : OutboxRecord} {records : List OutboxRecord}

/-! ### Rows that are not published -/

/-- The rows that are not published. -/
def World.unpublished (w : World) : List Entry :=
  w.outbox.rows.filter fun entry => entry.publishedAt = none

theorem mem_unpublished {entry : Entry} :
    entry ∈ w.unpublished ↔ entry ∈ w.outbox.rows ∧ entry.publishedAt = none := by
  rw [World.unpublished, List.mem_filter, decide_eq_true_iff]

/-- A publisher, and no other one, is at the beginning of some records, and holds the lease of each
of them. -/
structure World.Holding (w : World) (publisher : ℕ) (records : List OutboxRecord) : Prop where
  runs : w.runs.rows = [⟨publisher, records, .sending⟩]
  distinct : (records.map OutboxRecord.eventId).Nodup
  held : ∀ record ∈ records, ∃ entry ∈ w.unpublished, entry.Held record

/-! ### A lease -/

/-- **A lease, when nobody else is at work.** -/
theorem World.exists_lease (publishers : ℕ → OutboxPublisher) (hruns : w.runs.rows = [])
    (hstopping : publisher ∉ w.stopping) (clock : ClockReads) :
    ∃ w', w.next publishers (.lease publisher clock []) = some w' ∧
      w'.Holding publisher
        (((publishers publisher).batch w.outbox clock []).map fun entry => entry.record w.draws) ∧
      w'.unpublished.length = w.unpublished.length ∧ w'.acknowledged = w.acknowledged ∧
      w'.outbox.rows.length = w.outbox.rows.length := by
  let batch := (publishers publisher).batch w.outbox clock []
  let run : Run := ⟨publisher, batch.map fun entry => entry.record w.draws, .sending⟩
  have hinsert : w.runs.insert? run = some ⟨[run], List.nodup_singleton _⟩ := by
    refine Table.insert?_eq_some_iff.2 ⟨Table.find?_eq_none_iff.2 fun other hother => ?_, ?_⟩
    · rw [hruns] at hother
      cases hother
    · rw [hruns, List.nil_append]
  have hnext : w.next publishers (.lease publisher clock []) = some { w with
      outbox := ((publishers publisher).lease w.outbox w.draws clock []).1
      draws := w.draws + 1
      runs := ⟨[run], List.nodup_singleton _⟩ } := by
    simp only [World.next, if_neg hstopping]
    exact congrArg (Option.map _) hinsert
  -- the rows, leased or not, are published as before
  have hsame : ∀ entry : Entry, (if entry.eventId ∈ batch.map Entry.eventId then
      (publishers publisher).leased w.draws clock.written entry else entry).publishedAt =
        entry.publishedAt := by
    intro entry
    split
    · rfl
    · rfl
  refine ⟨_, hnext, ⟨rfl, ?_, ?_⟩, ?_, rfl, ?_⟩
  · rw [List.map_map]
    exact Table.nodup_selection w.outbox _ Entry.Before _
  · intro record hrecord
    obtain ⟨entry, hentry, rfl⟩ := List.mem_map.1 hrecord
    obtain ⟨hmem, hdue, -⟩ := mem_dueEntries.1 (List.mem_of_mem_take hentry)
    have hleased : (if entry.eventId ∈ batch.map Entry.eventId then
        (publishers publisher).leased w.draws clock.written entry else entry) =
          (publishers publisher).leased w.draws clock.written entry :=
      if_pos (List.mem_map_of_mem hentry)
    refine ⟨_, mem_unpublished.2 ⟨List.mem_map.2 ⟨entry, hmem, hleased⟩, hdue.1⟩, rfl, rfl⟩
  · simp only [World.unpublished, OutboxPublisher.lease, Table.mapRows, List.filter_map,
      List.length_map]
    refine congrArg List.length (List.filter_congr fun entry _ => ?_)
    exact congrArg (fun t : Option Datetime => decide (t = none)) (hsame entry)
  · simp only [OutboxPublisher.lease, Table.mapRows, List.length_map]

/-! ### A record -/

/-- A rewriting after which less is selected. -/
theorem length_filter_map_lt {α : Type} {l : List α} {f : α → α} {p : α → Bool}
    (hmono : ∀ x ∈ l, p (f x) = true → p x = true)
    (hless : ∃ x ∈ l, p x = true ∧ p (f x) = false) :
    ((l.map f).filter p).length < (l.filter p).length := by
  obtain ⟨x, hx, hkept, hdropped⟩ := hless
  have hboth : l.filter (p ∘ f) = (l.filter p).filter (p ∘ f) := by
    rw [List.filter_filter]
    refine List.filter_congr fun y hy => ?_
    rw [Bool.eq_iff_iff, Bool.and_eq_true]
    exact ⟨fun h => ⟨h, hmono y hy h⟩, fun h => h.1⟩
  rw [List.filter_map, List.length_map, hboth, List.length_filter_lt_length_iff_exists]
  refine ⟨x, List.mem_filter.2 ⟨hx, hkept⟩, ?_⟩
  rw [Function.comp_apply, hdropped]
  exact Bool.false_ne_true

/-- What the publisher does next, alone. -/
theorem replace_runs {run : Run} (hruns : w.runs.rows = [run]) {run' : Run}
    (h : run'.publisher = run.publisher) : (w.runs.replace run').rows = [run'] := by
  simp [Table.replace, hruns, h]

/-- **A record is sent, and its row published.** -/
theorem World.Holding.publish (publishers : ℕ → OutboxPublisher)
    (h : w.Holding publisher (record :: records)) (coordinate : BrokerCoordinate) (now : Datetime) :
    ∃ w₁, w.next publishers (.acknowledge publisher coordinate) = some w₁ ∧
      ∃ w₂, w₁.next publishers (.published publisher now none) = some w₂ ∧
        w₂.Holding publisher records ∧ w₂.unpublished.length < w.unpublished.length ∧
        w₂.acknowledged.length = w.acknowledged.length + 1 ∧
        w₂.outbox.rows.length = w.outbox.rows.length := by
  let run : Run := ⟨publisher, record :: records, .sending⟩
  let sent : Run := ⟨publisher, record :: records, .acknowledged coordinate⟩
  let w₁ : World := { w with
    runs := w.runs.replace sent
    acknowledged := w.acknowledged ++ [record.message coordinate] }
  have hrun : w.runs.find? publisher = some run :=
    Table.find?_eq_some_iff.2 ⟨h.runs ▸ List.mem_singleton_self _, rfl⟩
  have hfirst : w.next publishers (.acknowledge publisher coordinate) = some w₁ := by
    simp only [World.next, hrun, Option.bind_some]
    rfl
  have hruns : w₁.runs.rows = [sent] := replace_runs h.runs rfl
  have hsent : w₁.runs.find? publisher = some sent :=
    Table.find?_eq_some_iff.2 ⟨hruns ▸ List.mem_singleton_self _, rfl⟩
  have hsecond : w₁.next publishers (.published publisher now none) = some
      { w₁.advance sent with outbox := Outbox.published w₁.outbox record coordinate now } := by
    simp only [World.next, hsent, Option.bind_some]
    rfl
  refine ⟨w₁, hfirst, _, hsecond, ⟨replace_runs hruns rfl, ?_, fun other hother => ?_⟩, ?_, ?_, ?_⟩
  · exact (List.nodup_cons.1 h.distinct).2
  · -- the rows of the other records are left as they are
    obtain ⟨entry, hentry, hheld⟩ := h.held other (List.mem_cons_of_mem _ hother)
    obtain ⟨hmem, hpublished⟩ := mem_unpublished.1 hentry
    have hnot : ¬ entry.Held record := fun hfirst => by
      refine (List.nodup_cons.1 h.distinct).1 ?_
      rw [← hfirst.1, hheld.1]
      exact List.mem_map_of_mem hother
    exact ⟨entry, mem_unpublished.2
      ⟨List.mem_map.2 ⟨entry, hmem, if_neg hnot⟩, hpublished⟩, hheld⟩
  · refine length_filter_map_lt (fun entry _ hkept => ?_) ?_
    · split at hkept
      · exact absurd (of_decide_eq_true hkept) (Option.some_ne_none _)
      · exact hkept
    · obtain ⟨entry, hentry, hheld⟩ := h.held record (List.mem_cons_self ..)
      obtain ⟨hmem, hpublished⟩ := mem_unpublished.1 hentry
      refine ⟨entry, hmem, decide_eq_true hpublished, ?_⟩
      rw [if_pos hheld]
      rfl
  · exact List.length_append
  · exact List.length_map _

/-- **The end of a batch.** -/
theorem World.Holding.finish (publishers : ℕ → OutboxPublisher) (h : w.Holding publisher []) :
    ∃ w', w.next publishers (.finish publisher) = some w' ∧ w'.runs.rows = [] ∧
      w'.outbox = w.outbox ∧ w'.acknowledged = w.acknowledged := by
  have hrun : w.runs.find? publisher = some ⟨publisher, [], .sending⟩ :=
    Table.find?_eq_some_iff.2 ⟨h.runs ▸ List.mem_singleton_self _, rfl⟩
  have hnext : w.next publishers (.finish publisher) = some (w.close publisher) := by
    simp only [World.next, hrun, Option.bind_some]
  refine ⟨_, hnext, ?_, rfl, rfl⟩
  simp [World.close, Table.deleteWhere, h.runs]

/-- A publisher dies. -/
theorem World.exists_crash (publishers : ℕ → OutboxPublisher) {run : Run}
    (hrun : run ∈ w.runs.rows) :
    ∃ w', w.next publishers (.crash run.publisher) = some w' ∧
      w'.runs.rows.length < w.runs.rows.length ∧ w'.outbox = w.outbox ∧
      w'.acknowledged = w.acknowledged := by
  have hfind : w.runs.find? run.publisher = some run := Table.find?_of_mem hrun
  have hnext : w.next publishers (.crash run.publisher) = some (w.close run.publisher) := by
    simp only [World.next, hfind, Option.map_some]
  refine ⟨_, hnext, ?_, rfl, rfl⟩
  refine List.length_filter_lt_length_iff_exists.2 ⟨run, hrun, ?_⟩
  simp

end Outbox

end ScheduledJobs
