/-
**Queues that are sorted by a stable sort and worked off from the front.**

A stable sort by a total preorder commutes with filtering, so the elements of a list that meet a
condition, when sorted, stand in the same order as in the whole list when that is sorted.  When the
condition is inherited by the elements in front, they are a prefix of it; and taking elements off
the front is filtering them out.  Together: a list that is filtered and sorted anew for every batch
is worked off like one sorted queue.

Main results:

* `SortedQueues.filter_insertionSort` — sorting commutes with filtering;
* `SortedQueues.filter_eq_take` — a condition that is inherited by the elements in front holds of a
  prefix;
* `SortedQueues.filter_notMem_take` — a queue without its first elements;
* `SortedQueues.rel_of_mem_take` — what is taken stands before what is left.
-/

import Mathlib.Data.List.Sort

set_option relaxedAutoImplicit false
set_option autoImplicit false

universe u

namespace SortedQueues

variable {α : Type u} {r : α → α → Prop} [DecidableRel r] {p : α → Bool} {l : List α}

/-! ### Sorting and filtering -/

/-- An element that belongs in front of all others is inserted there. -/
theorem orderedInsert_eq_cons {a : α} (h : ∀ b ∈ l, r a b) : l.orderedInsert r a = a :: l := by
  cases l with
  | nil => rfl
  | cons b l => exact List.orderedInsert_cons_of_le r l (h b (List.mem_cons_self ..))

/-- Inserting an element, and filtering. -/
theorem filter_orderedInsert [IsTrans α r] {a : α} (hl : l.Pairwise r) :
    (l.orderedInsert r a).filter p =
      if p a then (l.filter p).orderedInsert r a else l.filter p := by
  induction l with
  | nil =>
      by_cases ha : p a
      · simp [ha]
      · simp [ha]
  | cons b l ih =>
      obtain ⟨hb, hl⟩ := List.pairwise_cons.mp hl
      by_cases hab : r a b
      · -- the element goes in front, and so it does of what is left of the list
        have hfront : ∀ c ∈ (b :: l).filter p, r a c := by
          intro c hc
          rcases List.mem_cons.mp (List.mem_of_mem_filter hc) with rfl | hc
          · exact hab
          · exact trans_of r hab (hb c hc)
        rw [List.orderedInsert_cons_of_le r l hab, orderedInsert_eq_cons hfront]
        by_cases ha : p a
        · rw [List.filter_cons_of_pos ha, if_pos ha]
        · rw [List.filter_cons_of_neg ha, if_neg ha]
      · rw [List.orderedInsert_of_not_le r l hab]
        by_cases hpb : p b
        · rw [List.filter_cons_of_pos hpb, List.filter_cons_of_pos hpb, ih hl]
          split
          · rw [List.orderedInsert_of_not_le r _ hab]
          · rfl
        · rw [List.filter_cons_of_neg hpb, List.filter_cons_of_neg hpb, ih hl]

/-- **Sorting commutes with filtering.** -/
theorem filter_insertionSort [Std.Total r] [IsTrans α r] (l : List α) (p : α → Bool) :
    (l.insertionSort r).filter p = (l.filter p).insertionSort r := by
  induction l with
  | nil => rfl
  | cons a l ih =>
      rw [List.insertionSort_cons, filter_orderedInsert (List.pairwise_insertionSort r l), ih]
      by_cases ha : p a
      · rw [if_pos ha, List.filter_cons_of_pos ha, List.insertionSort_cons]
      · rw [if_neg ha, List.filter_cons_of_neg ha]

/-! ### The front of a sorted queue -/

omit [DecidableRel r] in
/-- **A condition that is inherited by the elements in front holds of a prefix.** -/
theorem filter_eq_take (hl : l.Pairwise r) (hp : ∀ a b, r a b → p b → p a) :
    l.filter p = l.take (l.countP p) := by
  induction l with
  | nil => rfl
  | cons a l ih =>
      obtain ⟨ha, hl⟩ := List.pairwise_cons.mp hl
      by_cases hpa : p a
      · rw [List.filter_cons_of_pos hpa, List.countP_cons_of_pos hpa, List.take_succ_cons, ih hl]
      · have hnone : ∀ b ∈ a :: l, ¬ p b := by
          intro b hb hpb
          rcases List.mem_cons.mp hb with rfl | hb
          · exact hpa hpb
          · exact hpa (hp a b (ha b hb) hpb)
        rw [List.filter_eq_nil_iff.mpr hnone, List.countP_eq_zero.mpr hnone, List.take_zero]

/-- **A queue without its first elements.** -/
theorem filter_notMem_take [DecidableEq α] (hl : l.Nodup) (n : ℕ) :
    l.filter (fun a => a ∉ l.take n) = l.drop n := by
  have hdisjoint : ∀ a ∈ l.drop n, a ∉ l.take n := fun a hdrop htake =>
    List.disjoint_take_drop hl le_rfl htake hdrop
  calc l.filter (fun a => a ∉ l.take n)
      = (l.take n ++ l.drop n).filter (fun a => a ∉ l.take n) := by rw [List.take_append_drop]
    _ = l.drop n := by
        rw [List.filter_append, List.filter_eq_nil_iff.mpr (by simp), List.nil_append,
          List.filter_eq_self]
        intro a ha
        simpa using hdisjoint a ha

omit [DecidableRel r] in
/-- What is taken stands before what is left. -/
theorem rel_of_mem_take {a b : α} (hl : l.Pairwise r) {n : ℕ} (ha : a ∈ l.take n)
    (hb : b ∈ l.drop n) : r a b := by
  rw [← List.take_append_drop n l] at hl
  exact (List.pairwise_append.mp hl).2.2 a ha b hb

end SortedQueues
