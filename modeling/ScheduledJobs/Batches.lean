/-
**Working off a list in batches that are all or nothing.**

A batch is the first `n` elements of what is left.  It is removed when each of its elements can be
processed, and otherwise everything stays as it is: the next try meets the same batch again.  So
the work goes on to the last batch boundary before the first element that cannot be processed, and
no further.

Main definitions:

* `Batches.next` — one batch;
* `Batches.reached` — **how far the work goes**.

Main results:

* `Batches.iterate_next` — what is left after any number of batches;
* `Batches.reached_le_of_batches` — enough of them reach that far.
-/

import Mathlib.Data.List.Basic
import Mathlib.Logic.Function.Iterate

set_option relaxedAutoImplicit false
set_option autoImplicit false

universe u

namespace Batches

variable {α : Type u} (p : α → Prop) [DecidablePred p] (n : ℕ) (l : List α)

/-- One batch: removed when each of its elements can be processed. -/
def next : List α := if ∀ x ∈ l.take n, p x then l.drop n else l

/-- The number of elements before the first that cannot be processed. -/
def firstBad : ℕ := l.findIdx fun x => ¬ p x

/-- **How far the work goes**: to the end, or to the last batch boundary before the first element
that cannot be processed. -/
def reached : ℕ :=
  if firstBad p l = l.length then (if n = 0 then 0 else l.length) else n * (firstBad p l / n)

variable {p n l}

theorem reached_le : reached p n l ≤ l.length := by
  unfold reached
  have hbad : firstBad p l ≤ l.length := List.findIdx_le_length
  split
  · split <;> omega
  · exact Nat.le_trans (Nat.mul_div_le _ _) hbad

/-- The elements before the first bad one can be processed. -/
theorem of_lt_firstBad {i : ℕ} (h : i < firstBad p l) (hi : i < l.length) : p l[i] := by
  have hnot := List.not_of_lt_findIdx h
  simpa using hnot

/-- A batch that ends before the first bad element, or a list without one, is removed. -/
theorem next_drop_of_good {d : ℕ} (h : d + n ≤ firstBad p l ∨ firstBad p l = l.length) :
    next p n (l.drop d) = l.drop (d + n) := by
  rw [next, if_pos, List.drop_drop]
  intro x hx
  obtain ⟨i, hi, rfl⟩ := List.mem_iff_getElem.1 hx
  rw [List.length_take, List.length_drop] at hi
  rw [List.getElem_take, List.getElem_drop]
  exact of_lt_firstBad (by omega) (by omega)

/-- A batch with the first bad element in it stays. -/
theorem next_drop_of_bad {d : ℕ} (hd : d ≤ firstBad p l) (hn : firstBad p l < d + n)
    (hbad : firstBad p l < l.length) : next p n (l.drop d) = l.drop d := by
  rw [next, if_neg]
  intro hall
  have hfound : ¬ p l[firstBad p l] := by
    have hget := @List.findIdx_getElem _ (fun x => ¬ p x) l hbad
    exact of_decide_eq_true hget
  refine hfound (hall _ (List.mem_iff_getElem.2 ⟨firstBad p l - d, ?_, ?_⟩))
  · rw [List.length_take, List.length_drop]
    omega
  · rw [List.getElem_take, List.getElem_drop]
    congr 1
    omega

/-- **What is left after any number of batches.** -/
theorem iterate_next (k : ℕ) : (next p n)^[k] l = l.drop (min (n * k) (reached p n l)) := by
  induction k with
  | zero => simp
  | succ k ih =>
      have hle : firstBad p l ≤ l.length := List.findIdx_le_length
      rw [Function.iterate_succ_apply', ih, Nat.mul_succ]
      by_cases hall : firstBad p l = l.length
      · -- nothing is bad, so every batch is removed
        rw [next_drop_of_good (Or.inr hall)]
        have hreached : reached p n l = if n = 0 then 0 else l.length := by
          rw [reached, if_pos hall]
        rw [List.drop_eq_drop_iff, hreached]
        split <;> omega
      · have hreached : reached p n l = n * (firstBad p l / n) := by
          rw [reached, if_neg hall]
        have hmul := Nat.mul_div_le (firstBad p l) n
        rw [hreached]
        rcases Nat.lt_or_ge k (firstBad p l / n) with hk | hk
        · -- the next batch ends before the first bad element
          have hnext : n * k + n ≤ n * (firstBad p l / n) := by
            rw [← Nat.mul_succ]
            exact Nat.mul_le_mul_left n hk
          rw [Nat.min_eq_left (by omega), Nat.min_eq_left hnext,
            next_drop_of_good (Or.inl (by omega))]
        · -- the batch with the first bad element is met again and again
          have hstuck : n * (firstBad p l / n) ≤ n * k := Nat.mul_le_mul_left n hk
          rw [Nat.min_eq_right hstuck, Nat.min_eq_right (by omega)]
          rcases Nat.eq_zero_or_pos n with rfl | hn
          · simp [next]
          · have hlt := Nat.lt_mul_div_succ (firstBad p l) hn
            rw [Nat.mul_succ] at hlt
            exact next_drop_of_bad hmul hlt (by omega)

/-- As many batches as there are elements reach as far as the work goes. -/
theorem reached_le_of_batches {k : ℕ} (hk : l.length ≤ k) : reached p n l ≤ n * k := by
  rcases Nat.eq_zero_or_pos n with rfl | hn
  · unfold reached
    split <;> simp
  · exact Nat.le_trans (Nat.le_trans reached_le hk) (Nat.le_mul_of_pos_left k hn)

end Batches
