/-
**Injected faults, when calls overlap.**

One injector serves all threads of a process, and the loop of a call is not one step: the count of
a rule is read and written under a lock, but the action is performed after the lock is given back,
and other threads come to the same rule in between.  Here every call in progress is a thread in its
loop, and the threads take turns in any order.

A call that is ended by an action does not come to the rules behind, so a rule may count fewer calls
than it matches.  But every action is performed at most once; so each rule in front costs a rule one
call at most, whatever the order.

Main definitions:

* `Threads`, `Threads.next`, `threads` — **the loops of several calls, turn by turn**;
* `Threads.Sound` — what holds of the counts and of the actions;
* `Threads.Followed` — which calls have come to a rule;
* `enders` — how many rules in front of a rule end a call.

Main results:

* `leads_inject` — a call that nothing overlaps does what `inject` does;
* `sound_of_reachable`, `followed_of_reachable` — the invariants in every reachable state;
* `fires_of_finished` — **how often an action has been performed once all calls have ended**;
* `run_of_finished` — **calls that overlap count as calls one after the other**, if none is ended.
-/

import ScheduledJobs.FaultInjector
import Mathlib.Data.List.Induction

set_option relaxedAutoImplicit false
set_option autoImplicit false

namespace ScheduledJobs.Chaos

/-! ### Threads -/

/-- A thread in the loop of a call: the rule it is at, and whether it has found that rule's action
due and has still to perform it. -/
structure Turn where
  call : Call
  index : ℕ
  due : Bool
  deriving DecidableEq

/-- A call begins with the first rule. -/
def Turn.first (call : Call) : Turn := ⟨call, 0, false⟩

/-- The next rule. -/
def Turn.next (turn : Turn) : Turn := ⟨turn.call, turn.index + 1, false⟩

/-- The action is due. -/
def Turn.activated (turn : Turn) : Turn := ⟨turn.call, turn.index, true⟩

/-- The rules with their counts, the threads in a call, and whether the process has ended.  The
history is the calls that were made, the rules that a call came to and was matched by, and the
actions that were performed. -/
structure Threads where
  slots : List Slot
  running : List Turn := []
  exited : Bool := false
  calls : List Call := []
  arrivals : List ℕ := []
  performed : List (ℕ × FaultEffect) := []

/-- A step of a thread: it calls `inject`, goes through the lock of a rule, or performs an
action.  Threads at the same place are not told apart. -/
inductive Label
  | enter (call : Call)
  | count (turn : Turn)
  | act (turn : Turn)

/-- A thread goes on. -/
def Threads.move (w : Threads) (old new : Turn) : Threads :=
  { w with running := new :: w.running.erase old }

/-- A thread ends its call. -/
def Threads.leave (w : Threads) (old : Turn) : Threads :=
  { w with running := w.running.erase old }

/-- **One step.**  Nothing moves in a process that has ended. -/
def Threads.next (terminates : Bool) (w : Threads) : Label → Option Threads
  | .enter call =>
      if w.exited then none
      else some { w with running := .first call :: w.running, calls := w.calls ++ [call] }
  | .count turn =>
      if w.exited || turn.due || turn ∉ w.running then none
      else
        match w.slots[turn.index]? with
        | none => some (w.leave turn)
        | some slot =>
          if ¬ slot.rule.Matches turn.call then some (w.move turn turn.next)
          else
            let w := { w with arrivals := turn.index :: w.arrivals }
            if slot.rule.invocations ≤ slot.count then some (w.move turn turn.next)
            else
              let counted : Slot := { slot with count := slot.count + 1 }
              let w := { w with slots := w.slots.set turn.index counted }
              if counted.count ≠ slot.rule.activateOn then some (w.move turn turn.next)
              else some (w.move turn turn.activated)
  | .act turn =>
      if w.exited || !turn.due || turn ∉ w.running then none
      else
        (w.slots[turn.index]?).map fun slot =>
          let effect := slot.rule.effect turn.call.checkpoint
          let w := { w with performed := w.performed ++ [(turn.index, effect)] }
          match effect.ending terminates with
          | .returned => w.move turn turn.next
          | .raised _ => w.leave turn
          | .exited _ => { w.leave turn with exited := true }

/-- **The injector and its threads.** -/
def threads (terminates : Bool) (rules : List FaultRule) : Machine Threads Label where
  start := { slots := rules.map fun rule => ⟨rule, 0⟩ }
  next := Threads.next terminates

variable {terminates : Bool} {rules : List FaultRule} {w w' : Threads}

/-- A call leaves the rule as it is. -/
theorem Slot.rule_observe (slot : Slot) (call : Call) : (slot.observe call).rule = slot.rule := by
  unfold observe
  split <;> rfl

/-- A rule that is used up keeps its count. -/
theorem set_observe_of_le {slots : List Slot} {j : ℕ} {slot : Slot} {call : Call}
    (hslot : slots[j]? = some slot) (hfull : slot.rule.invocations ≤ slot.count) :
    slots.set j (slot.observe call) = slots := by
  have hsame : slot.observe call = slot := if_neg fun h => absurd h.2 (not_lt.2 hfull)
  obtain ⟨hlt, rfl⟩ := List.getElem?_eq_some_iff.1 hslot
  rw [hsame, List.set_getElem_self]

/-- The state after a call has come to a rule that matches it. -/
def Threads.observe (w : Threads) (turn : Turn) (slot : Slot) : Threads :=
  { w with
    slots := w.slots.set turn.index (slot.observe turn.call)
    arrivals := turn.index :: w.arrivals
    running :=
      (if slot.Due turn.call then turn.activated else turn.next) :: w.running.erase turn }

/-- The state after an action was performed. -/
def Threads.perform (terminates : Bool) (w : Threads) (turn : Turn) (slot : Slot) : Threads :=
  let effect := slot.rule.effect turn.call.checkpoint
  { w with
    performed := w.performed ++ [(turn.index, effect)]
    running :=
      (if effect.ending terminates = .returned then [turn.next] else []) ++ w.running.erase turn
    exited := (effect.ending terminates).isExit }

/-- **A turn under the lock.** -/
theorem Threads.next_count {turn : Turn} {slot : Slot} (halive : w.exited = false)
    (hdue : turn.due = false) (hmem : turn ∈ w.running)
    (hslot : w.slots[turn.index]? = some slot) :
    w.next terminates (.count turn) =
      some (if slot.rule.Matches turn.call then w.observe turn slot
        else w.move turn turn.next) := by
  have henabled : (w.exited || turn.due || turn ∉ w.running) = false := by
    simp [halive, hdue, hmem]
  simp only [next, henabled, hslot, Bool.false_eq_true, if_false]
  by_cases hmatches : slot.rule.Matches turn.call
  · rw [if_neg (not_not.2 hmatches), if_pos hmatches]
    by_cases hfull : slot.rule.invocations ≤ slot.count
    · have hnot : ¬ slot.Due turn.call := fun hd => by
        have hle := slot.rule.activateOn_le_invocations
        have hnow := hd.2
        omega
      rw [if_pos hfull, observe, set_observe_of_le hslot hfull, if_neg hnot]
      rfl
    · have hobserve : slot.observe turn.call = { slot with count := slot.count + 1 } :=
        if_pos ⟨hmatches, not_le.1 hfull⟩
      rw [if_neg hfull, observe, hobserve]
      by_cases hcount : slot.count + 1 = slot.rule.activateOn
      · have hd : slot.Due turn.call := ⟨hmatches, hcount⟩
        rw [if_neg (not_not.2 hcount), if_pos hd]
        rfl
      · have hnot : ¬ slot.Due turn.call := fun hd => hcount hd.2
        rw [if_pos hcount, if_neg hnot]
        rfl
  · rw [if_pos hmatches, if_neg hmatches]

/-- **An action.** -/
theorem Threads.next_act {turn : Turn} {slot : Slot} (halive : w.exited = false)
    (hdue : turn.due = true) (hmem : turn ∈ w.running)
    (hslot : w.slots[turn.index]? = some slot) :
    w.next terminates (.act turn) = some (w.perform terminates turn slot) := by
  have henabled : (w.exited || !turn.due || turn ∉ w.running) = false := by
    simp [halive, hdue, hmem]
  simp only [next, henabled, hslot, Bool.false_eq_true, if_false, Option.map_some, perform]
  cases hending : (slot.rule.effect turn.call.checkpoint).ending terminates with
  | returned => simp [Threads.move, Ending.isExit, halive]
  | raised fault => simp [Threads.leave, Ending.isExit, halive]
  | exited code => simp [Threads.leave, Ending.isExit]

/-- **What a step can do.** -/
theorem Threads.next_cases {l : Label} (h : w.next terminates l = some w') :
    (∃ call, l = .enter call ∧
      w' = { w with running := .first call :: w.running, calls := w.calls ++ [call] }) ∨
    (∃ turn, l = .count turn ∧ turn ∈ w.running ∧ turn.due = false ∧
      w.slots[turn.index]? = none ∧ w' = w.leave turn) ∨
    (∃ turn slot, l = .count turn ∧ turn ∈ w.running ∧ turn.due = false ∧
      w.slots[turn.index]? = some slot ∧ ¬ slot.rule.Matches turn.call ∧
      w' = w.move turn turn.next) ∨
    (∃ turn slot, l = .count turn ∧ turn ∈ w.running ∧ turn.due = false ∧
      w.slots[turn.index]? = some slot ∧ slot.rule.Matches turn.call ∧
      w' = w.observe turn slot) ∨
    ∃ turn slot, l = .act turn ∧ turn ∈ w.running ∧ turn.due = true ∧
      w.slots[turn.index]? = some slot ∧ w' = w.perform terminates turn slot := by
  cases l with
  | enter call =>
      simp only [next] at h
      split at h
      · cases h
      · exact Or.inl ⟨call, rfl, (Option.some_inj.1 h).symm⟩
  | count turn =>
      by_cases henabled : (w.exited || turn.due || turn ∉ w.running) = true
      · rw [next, if_pos henabled] at h
        cases h
      have hparts := henabled
      simp only [Bool.or_eq_true, decide_eq_true_eq, not_or, not_not, Bool.not_eq_true] at hparts
      obtain ⟨⟨halive, hdue⟩, hmem⟩ := hparts
      cases hslot : w.slots[turn.index]? with
      | none =>
          rw [next, if_neg henabled] at h
          simp only [hslot] at h
          exact Or.inr (Or.inl ⟨turn, rfl, hmem, hdue, hslot, (Option.some_inj.1 h).symm⟩)
      | some slot =>
          rw [next_count halive hdue hmem hslot, Option.some_inj] at h
          split at h
          · next hmatches =>
              exact Or.inr (Or.inr (Or.inr (Or.inl
                ⟨turn, slot, rfl, hmem, hdue, hslot, hmatches, h.symm⟩)))
          · next hmatches =>
              exact Or.inr (Or.inr (Or.inl
                ⟨turn, slot, rfl, hmem, hdue, hslot, hmatches, h.symm⟩))
  | act turn =>
      by_cases henabled : (w.exited || !turn.due || turn ∉ w.running) = true
      · rw [next, if_pos henabled] at h
        cases h
      have hparts := henabled
      simp only [Bool.or_eq_true, decide_eq_true_eq, not_or, not_not, Bool.not_eq_true,
        Bool.not_eq_true', Bool.not_eq_false] at hparts
      obtain ⟨⟨halive, hdue⟩, hmem⟩ := hparts
      cases hslot : w.slots[turn.index]? with
      | none =>
          rw [next, if_neg henabled, hslot] at h
          cases h
      | some slot =>
          rw [next_act halive hdue hmem hslot, Option.some_inj] at h
          exact Or.inr (Or.inr (Or.inr (Or.inr
            ⟨turn, slot, rfl, hmem, hdue, hslot, h.symm⟩)))

/-! ### Counting threads -/

/-- The threads that have still to perform the action of a rule. -/
def dueAt (running : List Turn) (j : ℕ) : ℕ :=
  running.countP fun turn => turn.due = true ∧ turn.index = j

/-- The thread will come to a rule that matches it, unless it is ended before. -/
def Turn.Toward (turn : Turn) (j : ℕ) (rule : FaultRule) : Prop :=
  rule.Matches turn.call ∧ (turn.index < j ∨ turn.index = j ∧ turn.due = false)

instance (turn : Turn) (j : ℕ) (rule : FaultRule) : Decidable (turn.Toward j rule) :=
  inferInstanceAs (Decidable (_ ∧ _))

/-- The threads that will come to the rule. -/
def toward (running : List Turn) (j : ℕ) (rule : FaultRule) : ℕ :=
  running.countP fun turn => turn.Toward j rule

/-- How often the action of a rule was performed. -/
def fired (performed : List (ℕ × FaultEffect)) (j : ℕ) : ℕ := performed.countP fun a => a.1 = j

/-- How many actions of the rules in front of a rule have ended a call. -/
def ended (terminates : Bool) (performed : List (ℕ × FaultEffect)) (j : ℕ) : ℕ :=
  performed.countP fun a => a.1 < j ∧ a.2.ending terminates ≠ .returned

section Counting

variable {turn : Turn} {running : List Turn} {j : ℕ} {rule : FaultRule}

theorem dueAt_cons : dueAt (turn :: running) j =
    dueAt running j + if turn.due = true ∧ turn.index = j then 1 else 0 := by
  simp only [dueAt, List.countP_cons, decide_eq_true_eq]

theorem toward_cons : toward (turn :: running) j rule =
    toward running j rule + if turn.Toward j rule then 1 else 0 := by
  simp only [toward, List.countP_cons, decide_eq_true_eq]

/-- What a thread that leaves its place was counted for. -/
theorem dueAt_eq_of_mem (h : turn ∈ running) : dueAt running j =
    dueAt (running.erase turn) j + if turn.due = true ∧ turn.index = j then 1 else 0 := by
  rw [← dueAt_cons]
  exact (List.perm_cons_erase h).countP_eq _

theorem toward_eq_of_mem (h : turn ∈ running) : toward running j rule =
    toward (running.erase turn) j rule + if turn.Toward j rule then 1 else 0 := by
  rw [← toward_cons]
  exact (List.perm_cons_erase h).countP_eq _

/-- A thread that is not about to act. -/
theorem dueAt_cons_of_not (hdue : turn.due = false) :
    dueAt (turn :: running) j = dueAt running j := by
  have hnot : ¬ (turn.due = true ∧ turn.index = j) := by simp [hdue]
  rw [dueAt_cons, if_neg hnot, Nat.add_zero]

theorem dueAt_erase (h : turn ∈ running) (hdue : turn.due = false) :
    dueAt (running.erase turn) j = dueAt running j :=
  (dueAt_cons_of_not hdue).symm.trans ((List.perm_cons_erase h).countP_eq _).symm

/-- A thread that is. -/
theorem dueAt_cons_activated :
    dueAt (turn.activated :: running) j = dueAt running j + if turn.index = j then 1 else 0 := by
  rw [dueAt_cons]
  exact congrArg _ (if_congr (and_iff_right rfl) rfl rfl)

end Counting

/-! ### The counts and the actions -/

/-- **The counts and the actions.** -/
structure Threads.Sound (rules : List FaultRule) (w : Threads) : Prop where
  same : w.slots.map Slot.rule = rules
  /-- A rule counts the calls that come to it, as far as it goes. -/
  count : ∀ j slot, w.slots[j]? = some slot →
    slot.count = min slot.rule.invocations (w.arrivals.count j)
  /-- Its action is performed, or about to be, once enough calls have come. -/
  fires : ∀ j rule, rules[j]? = some rule → fired w.performed j + dueAt w.running j =
    if rule.activateOn ≤ w.arrivals.count j then 1 else 0
  matched : ∀ turn ∈ w.running, turn.due = true → ∃ rule, rules[turn.index]? = some rule ∧
    rule.Matches turn.call
  performed : ∀ a ∈ w.performed, ∃ rule, rules[a.1]? = some rule ∧
    a.2 = rule.effect rule.checkpoint

section Sound

/-- The rule at a position. -/
theorem Threads.Sound.rule_at (h : w.Sound rules) {j : ℕ} {slot : Slot}
    (hslot : w.slots[j]? = some slot) : rules[j]? = some slot.rule := by
  rw [← h.same, List.getElem?_map, hslot]
  rfl

/-- A thread goes on, or ends its call, without an action. -/
theorem Threads.Sound.moved (h : w.Sound rules) {running : List Turn}
    (hdueAt : ∀ j, dueAt running j = dueAt w.running j)
    (hmem : ∀ turn ∈ running, turn.due = true → turn ∈ w.running) :
    ({ w with running := running } : Threads).Sound rules where
  same := h.same
  count := h.count
  fires j rule hrule := by
    rw [← h.fires j rule hrule, hdueAt]
  matched turn hturn hdue := h.matched turn (hmem turn hturn hdue) hdue
  performed := h.performed

/-- A call comes to a rule that matches it. -/
theorem Threads.Sound.observed (h : w.Sound rules) {turn : Turn} {slot : Slot}
    (hmem : turn ∈ w.running) (hdue : turn.due = false) (hslot : w.slots[turn.index]? = some slot)
    (hmatches : slot.rule.Matches turn.call) :
    (w.observe turn slot).Sound rules := by
  have hrule := slot.rule_observe turn.call
  have hat := h.rule_at hslot
  have hcount := h.count _ slot hslot
  have hle := slot.rule.activateOn_le_invocations
  refine { same := ?_, count := ?_, fires := ?_, matched := ?_, performed := h.performed }
  · obtain ⟨hlt, hget⟩ := List.getElem?_eq_some_iff.1 hat
    rw [Threads.observe, List.map_set, hrule, h.same, ← hget, List.set_getElem_self]
  · intro j other hother
    simp only [Threads.observe] at hother ⊢
    by_cases hj : turn.index = j
    · subst hj
      rw [List.getElem?_set_self (List.getElem?_eq_some_iff.1 hslot).1] at hother
      obtain rfl := Option.some_inj.1 hother
      rw [hrule, List.count_cons_self]
      unfold Slot.observe
      split
      · next hroom => simp only [hcount]; omega
      · next hfull =>
          have hused : slot.rule.invocations ≤ slot.count := by
            by_contra hlt
            exact hfull ⟨hmatches, not_le.1 hlt⟩
          omega
    · rw [List.getElem?_set_ne hj] at hother
      rw [List.count_cons_of_ne hj]
      exact h.count j other hother
  · intro j rule hrule'
    have hfires := h.fires j rule hrule'
    by_cases hd : slot.Due turn.call
    · have hnow := hd.2
      simp only [Threads.observe, if_pos hd, dueAt_cons_activated, dueAt_erase hmem hdue]
      rw [← Nat.add_assoc, hfires]
      by_cases hj : turn.index = j
      · subst hj
        obtain rfl := Option.some_inj.1 (hat.symm.trans hrule')
        have hbefore : ¬ slot.rule.activateOn ≤ w.arrivals.count turn.index := by omega
        have hreached : slot.rule.activateOn ≤ w.arrivals.count turn.index + 1 := by omega
        rw [List.count_cons_self, if_pos rfl, if_pos hreached, if_neg hbefore]
      · rw [List.count_cons_of_ne hj, if_neg hj, Nat.add_zero]
    · have hnext : dueAt (turn.next :: w.running.erase turn) j = dueAt w.running j :=
        (dueAt_cons_of_not rfl).trans (dueAt_erase hmem hdue)
      simp only [Threads.observe, if_neg hd, hnext]
      rw [hfires]
      by_cases hj : turn.index = j
      · -- the call on which the action would come due is another one
        subst hj
        obtain rfl := Option.some_inj.1 (hat.symm.trans hrule')
        have hlater : slot.rule.activateOn ≠ w.arrivals.count turn.index + 1 := fun heq =>
          hd ⟨hmatches, by omega⟩
        rw [List.count_cons_self]
        exact if_congr (by omega) rfl rfl
      · rw [List.count_cons_of_ne hj]
  · intro other hother hdue'
    rcases List.mem_cons.1 hother with rfl | hother
    · split at hdue'
      · next hd =>
          rw [if_pos hd]
          exact ⟨slot.rule, hat, hmatches⟩
      · cases hdue'
    · exact h.matched other (List.mem_of_mem_erase hother) hdue'

/-- An action is performed. -/
theorem Threads.Sound.acted (h : w.Sound rules) {turn : Turn} {slot : Slot}
    (hmem : turn ∈ w.running) (hdue : turn.due = true) (hslot : w.slots[turn.index]? = some slot) :
    (w.perform terminates turn slot).Sound rules := by
  have hat := h.rule_at hslot
  refine { same := h.same, count := h.count, fires := ?_, matched := ?_, performed := ?_ }
  · intro j rule hrule
    have hrest : dueAt (w.perform terminates turn slot).running j =
        dueAt (w.running.erase turn) j := by
      unfold Threads.perform
      dsimp only
      split
      · exact dueAt_cons_of_not rfl
      · rfl
    have hfired : fired (w.perform terminates turn slot).performed j =
        fired w.performed j + if turn.index = j then 1 else 0 := by
      rw [fired, Threads.perform, List.countP_append, List.countP_singleton]
      exact congrArg _ (if_congr decide_eq_true_iff rfl rfl)
    have hgone := dueAt_eq_of_mem (j := j) hmem
    rw [if_congr (and_iff_right hdue) rfl rfl] at hgone
    rw [hrest, hfired]
    refine Eq.trans ?_ (h.fires j rule hrule)
    rw [hgone]
    omega
  · intro other hother hdue'
    refine h.matched other ?_ hdue'
    unfold Threads.perform at hother
    rcases List.mem_append.1 hother with hnew | hother
    · split at hnew
      · obtain rfl := List.mem_singleton.1 hnew
        cases hdue'
      · cases hnew
    · exact List.mem_of_mem_erase hother
  · intro a ha
    rcases List.mem_append.1 ha with ha | ha
    · exact h.performed a ha
    · obtain rfl := List.mem_singleton.1 ha
      obtain ⟨rule, hrule, hmatches⟩ := h.matched turn hmem hdue
      obtain rfl := Option.some_inj.1 (hat.symm.trans hrule)
      exact ⟨slot.rule, hat, by rw [hmatches.1]⟩

/-- **What one step preserves.** -/
theorem Threads.Sound.next {l : Label} (h : w.Sound rules) (hn : w.next terminates l = some w') :
    w'.Sound rules := by
  rcases Threads.next_cases hn with ⟨call, -, rfl⟩ | ⟨turn, -, hmem, hdue, -, rfl⟩ |
    ⟨turn, slot, -, hmem, hdue, -, -, rfl⟩ | ⟨turn, slot, -, hmem, hdue, hslot, hmatches, rfl⟩ |
    ⟨turn, slot, -, hmem, hdue, hslot, rfl⟩
  · have hmoved : ({ w with running := .first call :: w.running } : Threads).Sound rules := by
      refine h.moved (fun j => dueAt_cons_of_not rfl) fun other hother hdue' => ?_
      rcases List.mem_cons.1 hother with rfl | hother
      · cases hdue'
      · exact hother
    exact { hmoved with }
  · exact h.moved (fun j => dueAt_erase hmem hdue) fun _ hother _ => List.mem_of_mem_erase hother
  · refine h.moved (fun j => ?_) fun other hother hdue' => ?_
    · exact (dueAt_cons_of_not rfl).trans (dueAt_erase hmem hdue)
    · rcases List.mem_cons.1 hother with rfl | hother
      · cases hdue'
      · exact List.mem_of_mem_erase hother
  · exact h.observed hmem hdue hslot hmatches
  · exact h.acted hmem hdue hslot

/-- **The invariant in every reachable state.** -/
theorem sound_of_reachable (h : (threads terminates rules).Reachable w) : w.Sound rules := by
  have hslots : ∀ (j : ℕ) (slot : Slot), (rules.map fun rule => Slot.mk rule 0)[j]? = some slot →
      slot.count = 0 := by
    intro j slot hslot
    rw [List.getElem?_map] at hslot
    obtain ⟨rule, -, rfl⟩ := Option.map_eq_some_iff.1 hslot
    rfl
  have hstart : (threads terminates rules).start.Sound rules := {
    same := by
      rw [threads, List.map_map]
      exact List.map_id rules
    count := fun j slot hslot => by rw [hslots j slot hslot]; simp [threads]
    fires := fun j rule hrule => by
      have hpos := rule.bounds.2.1.1
      rw [if_neg (by simp only [threads, List.count_nil]; omega)]
      rfl
    matched := fun _ hnone => nomatch hnone
    performed := fun _ hnone => nomatch hnone }
  exact h.invariant hstart fun _ _ _ _ hsound hn => hsound.next hn

end Sound

/-! ### Which calls come to a rule -/

/-- **Which calls come to a rule**: those that it matches, but for the ones that an action in front
of it has ended. -/
structure Threads.Followed (terminates : Bool) (rules : List FaultRule) (w : Threads) : Prop where
  arrived : ∀ j rule, rules[j]? = some rule →
    w.arrivals.count j + toward w.running j rule ≤ matching rule w.calls
  missed : ∀ j rule, rules[j]? = some rule → matching rule w.calls ≤
    w.arrivals.count j + toward w.running j rule + ended terminates w.performed j

section Followed

variable {turn : Turn} {j : ℕ} {rule : FaultRule}

theorem Turn.toward_next_iff :
    turn.next.Toward j rule ↔ rule.Matches turn.call ∧ turn.index < j := by
  refine and_congr_right fun _ => ?_
  simp only [Turn.next, and_true]
  omega

theorem Turn.toward_activated_iff :
    turn.activated.Toward j rule ↔ rule.Matches turn.call ∧ turn.index < j := by
  simp [Turn.Toward, Turn.activated]

theorem Turn.toward_iff_of_due (hdue : turn.due = true) :
    turn.Toward j rule ↔ rule.Matches turn.call ∧ turn.index < j := by
  simp [Turn.Toward, hdue]

theorem Turn.toward_iff_of_not_due (hdue : turn.due = false) :
    turn.Toward j rule ↔ rule.Matches turn.call ∧ turn.index ≤ j := by
  simp only [Turn.Toward, hdue, and_true]
  exact and_congr_right fun _ => by omega

/-- A step after which as many calls have come to each rule, or will come, as before. -/
theorem Threads.Followed.kept (h : w.Followed terminates rules)
    (hcalls : w'.calls = w.calls)
    (hkept : ∀ j rule, rules[j]? = some rule →
      w'.arrivals.count j + toward w'.running j rule = w.arrivals.count j + toward w.running j rule)
    (hended : ∀ j, ended terminates w.performed j ≤ ended terminates w'.performed j) :
    w'.Followed terminates rules where
  arrived j rule hrule := by
    rw [hkept j rule hrule, hcalls]
    exact h.arrived j rule hrule
  missed j rule hrule := by
    rw [hkept j rule hrule, hcalls]
    exact (h.missed j rule hrule).trans (Nat.add_le_add_left (hended j) _)

/-- **What one step preserves.** -/
theorem Threads.Followed.next {l : Label} (h : w.Followed terminates rules) (hsound : w.Sound rules)
    (hn : w.next terminates l = some w') : w'.Followed terminates rules := by
  rcases Threads.next_cases hn with ⟨call, -, rfl⟩ | ⟨turn, -, hmem, hdue, hslot, rfl⟩ |
    ⟨turn, slot, -, hmem, hdue, hslot, hmatches, rfl⟩ |
    ⟨turn, slot, -, hmem, hdue, hslot, hmatches, rfl⟩ | ⟨turn, slot, -, hmem, hdue, hslot, rfl⟩
  · -- the call is on its way to every rule that matches it
    have hfirst : ∀ j rule, (Turn.first call).Toward j rule ↔ rule.Matches call := by
      intro j rule
      rw [Turn.toward_iff_of_not_due rfl]
      exact and_iff_left (Nat.zero_le j)
    have hcalls : ∀ rule, matching rule (w.calls ++ [call]) =
        matching rule w.calls + if rule.Matches call then 1 else 0 := by
      intro rule
      rw [matching_append, matching_cons]
      simp [matching]
    constructor
    all_goals
      intro j rule hrule
      have harrived := h.arrived j rule hrule
      have hmissed := h.missed j rule hrule
      simp only [toward_cons, hcalls, hfirst]
      omega
  · -- behind the last rule
    refine h.kept rfl (fun j rule hrule => ?_) fun _ => le_rfl
    have hlt := (List.getElem?_eq_some_iff.1 hrule).1
    have hend : rules.length ≤ turn.index := by
      rw [← hsound.same, List.length_map]
      exact List.getElem?_eq_none_iff.1 hslot
    have hnot : ¬ turn.Toward j rule := fun htoward => by
      have hle := ((Turn.toward_iff_of_not_due hdue).1 htoward).2
      omega
    rw [toward_eq_of_mem hmem, if_neg hnot]
    rfl
  · refine h.kept rfl (fun j rule hrule => ?_) fun _ => le_rfl
    have hiff : turn.next.Toward j rule ↔ turn.Toward j rule := by
      rw [Turn.toward_next_iff, Turn.toward_iff_of_not_due hdue]
      refine and_congr_right fun hrule' => ⟨le_of_lt, fun hle => lt_of_le_of_ne hle ?_⟩
      rintro rfl
      obtain rfl := Option.some_inj.1 ((hsound.rule_at hslot).symm.trans hrule)
      exact hmatches hrule'
    simp only [Threads.move, toward_cons, toward_eq_of_mem hmem, if_congr hiff rfl rfl]
  · -- one call less will come to the rule, and one more has come
    refine h.kept rfl (fun j rule hrule => ?_) fun _ => le_rfl
    have hiff : (if slot.Due turn.call then turn.activated else turn.next).Toward j rule ↔
        rule.Matches turn.call ∧ turn.index < j := by
      split
      · exact Turn.toward_activated_iff
      · exact Turn.toward_next_iff
    simp only [Threads.observe, toward_cons, toward_eq_of_mem hmem, if_congr hiff rfl rfl,
      if_congr (Turn.toward_iff_of_not_due hdue) rfl rfl]
    by_cases hj : turn.index = j
    · subst hj
      obtain rfl := Option.some_inj.1 ((hsound.rule_at hslot).symm.trans hrule)
      rw [List.count_cons_self, if_neg fun hlt => lt_irrefl _ hlt.2, if_pos ⟨hmatches, le_rfl⟩]
      omega
    · rw [List.count_cons_of_ne hj]
      congr 2
      exact if_congr (and_congr_right fun _ => (Ne.le_iff_lt hj).symm) rfl rfl
  · have hended : ∀ j, ended terminates
        (w.performed ++ [(turn.index, slot.rule.effect turn.call.checkpoint)]) j =
          ended terminates w.performed j + if turn.index < j ∧
            (slot.rule.effect turn.call.checkpoint).ending terminates ≠ .returned
          then 1 else 0 := by
      intro j
      rw [ended, List.countP_append, List.countP_singleton]
      exact congrArg _ (if_congr decide_eq_true_iff rfl rfl)
    by_cases hreturned : (slot.rule.effect turn.call.checkpoint).ending terminates = .returned
    · refine h.kept rfl (fun j rule hrule => ?_) fun j => ?_
      · have hiff : turn.next.Toward j rule ↔ turn.Toward j rule := by
          rw [Turn.toward_next_iff, Turn.toward_iff_of_due hdue]
        simp only [Threads.perform, if_pos hreturned, List.singleton_append, toward_cons,
          toward_eq_of_mem hmem, if_congr hiff rfl rfl]
      · rw [Threads.perform, hended]
        exact Nat.le_add_right _ _
    · -- a call that the action ends is missed by the rules behind
      simp only [Threads.perform, if_neg hreturned, List.nil_append]
      constructor
      all_goals
        intro j rule hrule
        have harrived := h.arrived j rule hrule
        have hmissed := h.missed j rule hrule
        have htoward : turn.Toward j rule ↔ rule.Matches turn.call ∧ turn.index < j :=
          Turn.toward_iff_of_due hdue
        rw [toward_eq_of_mem hmem] at harrived hmissed
        simp only [hended]
      · omega
      · by_cases hgone : turn.Toward j rule
        · rw [if_pos hgone] at hmissed
          rw [if_pos ⟨(htoward.1 hgone).2, hreturned⟩]
          omega
        · rw [if_neg hgone] at hmissed
          omega

/-- **The invariant in every reachable state.** -/
theorem followed_of_reachable (h : (threads terminates rules).Reachable w) :
    w.Followed terminates rules :=
  h.invariant ⟨fun _ _ _ => Nat.zero_le _, fun _ _ _ => Nat.zero_le _⟩
    fun _ _ _ hw hfollowed hn => hfollowed.next (sound_of_reachable hw) hn

end Followed

/-! ### Once all calls have ended -/

/-- The action of a rule ends a call. -/
def FaultRule.Ends (terminates : Bool) (rule : FaultRule) : Prop :=
  (rule.effect rule.checkpoint).ending terminates ≠ .returned

instance (rule : FaultRule) : Decidable (rule.Ends terminates) :=
  inferInstanceAs (Decidable (_ ≠ _))

/-- How many rules in front of a rule end a call. -/
def enders (terminates : Bool) (rules : List FaultRule) (j : ℕ) : ℕ :=
  (rules.take j).countP fun rule => rule.Ends terminates

section Finished

variable {j : ℕ} {rule : FaultRule}

/-- The action of a rule was performed once at most, and this is what was done. -/
theorem Threads.Sound.filter_performed (h : w.Sound rules) (hrule : rules[j]? = some rule) :
    w.performed.filter (fun a => a.1 = j) =
      List.replicate (fired w.performed j) (j, rule.effect rule.checkpoint) := by
  refine List.eq_replicate_iff.2 ⟨(List.countP_eq_length_filter ..).symm, fun a ha => ?_⟩
  obtain ⟨hmem, hj⟩ := List.mem_filter.1 ha
  obtain rfl := of_decide_eq_true hj
  obtain ⟨rule', hrule', heffect⟩ := h.performed a hmem
  obtain rfl := Option.some_inj.1 (hrule.symm.trans hrule')
  exact Prod.ext rfl heffect

theorem Threads.Sound.fired_le (h : w.Sound rules) (hrule : rules[j]? = some rule) :
    fired w.performed j ≤ 1 := by
  have hfires := h.fires j rule hrule
  split at hfires <;> omega

/-- The actions that have ended a call, rule by rule. -/
theorem ended_succ (performed : List (ℕ × FaultEffect)) (j : ℕ) :
    ended terminates performed (j + 1) = ended terminates performed j +
      (performed.filter fun a => a.1 = j).countP fun a => a.2.ending terminates ≠ .returned := by
  induction performed with
  | nil => rfl
  | cons a performed ih =>
      simp only [ended, List.countP_cons, List.filter_cons, decide_eq_true_eq] at ih ⊢
      rw [ih]
      by_cases hj : a.1 = j
      · subst hj
        simp only [lt_irrefl, Nat.lt_add_one, true_and, false_and, if_true, if_false,
          List.countP_cons, decide_eq_true_eq]
        omega
      · have hiff : a.1 < j + 1 ↔ a.1 < j := by omega
        simp only [hj, hiff, if_false]
        omega

/-- **An action ends one call at most**: so a rule misses one call for each rule in front of it. -/
theorem Threads.Sound.ended_le (h : w.Sound rules) (hj : j ≤ rules.length) :
    ended terminates w.performed j ≤ enders terminates rules j := by
  induction j with
  | zero => simp [ended]
  | succ j ih =>
      have hrule : rules[j]? = some rules[j] := List.getElem?_eq_getElem hj
      have hfired := h.fired_le hrule
      have hrest := ih (Nat.le_of_succ_le hj)
      rw [ended_succ, h.filter_performed hrule, List.countP_replicate, enders,
        List.take_succ_eq_append_getElem hj, List.countP_append, List.countP_singleton]
      refine Nat.add_le_add hrest ?_
      change (if decide (rules[j].Ends terminates) = true then fired w.performed j else 0) ≤ _
      split
      · exact hfired
      · exact le_rfl

/-- **How often an action has been performed once all calls have ended**, whatever the order in
which the threads took their turns: never before the rule has matched as many calls as it asks for,
once at most, and once for sure when it has matched one more for each rule in front of it that ends
a call. -/
theorem fires_of_finished (h : (threads terminates rules).Reachable w) (hended : w.running = [])
    (hrule : rules[j]? = some rule) :
    (matching rule w.calls < rule.activateOn → w.performed.filter (fun a => a.1 = j) = []) ∧
    (w.performed.filter fun a => a.1 = j).length ≤ 1 ∧
    (rule.activateOn + enders terminates rules j ≤ matching rule w.calls →
      w.performed.filter (fun a => a.1 = j) = [(j, rule.effect rule.checkpoint)]) := by
  have hsound := sound_of_reachable h
  have hfollowed := followed_of_reachable h
  have hfires := hsound.fires j rule hrule
  have harrived := hfollowed.arrived j rule hrule
  have hmissed := hfollowed.missed j rule hrule
  have hgone : ended terminates w.performed j ≤ enders terminates rules j :=
    hsound.ended_le (List.getElem?_eq_some_iff.1 hrule).1.le
  have hnone : dueAt w.running j = 0 ∧ toward w.running j rule = 0 := by
    rw [hended]
    exact ⟨rfl, rfl⟩
  rw [hnone.1, Nat.add_zero] at hfires
  rw [hnone.2] at harrived hmissed
  rw [hsound.filter_performed hrule, List.length_replicate]
  refine ⟨fun hfew => ?_, hsound.fired_le hrule, fun henough => ?_⟩
  · rw [hfires, if_neg (by omega)]
    rfl
  · rw [hfires, if_pos (by omega)]
    rfl

/-- Two publishers get an acknowledgement at the same time.  One of them is ended by the fault, and
it is the other one that is delayed. -/
theorem fires_of_finished_fault_first :
    ∃ w, (threads true [ackLost, ackDelayed]).Reachable w ∧ w.running = [] ∧
      w.calls = [acknowledged, acknowledged] ∧
      (w.performed.filter fun a => a.1 = 0).length ≤ 1 ∧
      w.performed.filter (fun a => a.1 = 1) = [(1, .waited 1)] := by
  have hrun : ((threads true [ackLost, ackDelayed]).run (threads true [ackLost, ackDelayed]).start
      [.enter acknowledged, .enter acknowledged, .count ⟨acknowledged, 0, false⟩,
        .count ⟨acknowledged, 0, false⟩, .count ⟨acknowledged, 1, false⟩,
        .act ⟨acknowledged, 0, true⟩, .act ⟨acknowledged, 1, true⟩,
        .count ⟨acknowledged, 2, false⟩]).map (fun w => (w.running, w.calls)) =
      some ([], [acknowledged, acknowledged]) := by decide
  obtain ⟨w, hw, hvalues⟩ := Option.map_eq_some_iff.1 hrun
  obtain ⟨hrunning, hcalls⟩ := Prod.mk.inj hvalues
  have hreachable := Machine.Reachable.of_run Machine.Reachable.start _ hw
  have hlost := fires_of_finished (j := 0) hreachable hrunning rfl
  have hdelayed := fires_of_finished (j := 1) hreachable hrunning rfl
  rw [hcalls] at hdelayed
  exact ⟨w, hreachable, hrunning, hcalls, hlost.2.1, hdelayed.2.2 (by decide)⟩

/-- **The counts, when no action ends a call**: those of all the calls. -/
theorem count_of_finished (h : (threads terminates rules).Reachable w) (hended : w.running = [])
    (hends : ∀ rule ∈ rules, ¬ rule.Ends terminates) {slot : Slot}
    (hslot : w.slots[j]? = some slot) :
    slot.count = min slot.rule.invocations (matching slot.rule w.calls) := by
  have hsound := sound_of_reachable h
  have hfollowed := followed_of_reachable h
  have hrule := hsound.rule_at hslot
  have harrived := hfollowed.arrived j _ hrule
  have hmissed := hfollowed.missed j _ hrule
  have hnone : enders terminates rules j = 0 :=
    List.countP_eq_zero.2 fun rule hmem hrule' =>
      hends rule (List.mem_of_mem_take hmem) (of_decide_eq_true hrule')
  have hgone : ended terminates w.performed j ≤ 0 :=
    hnone ▸ hsound.ended_le (List.getElem?_eq_some_iff.1 hrule).1.le
  have htoward : toward w.running j slot.rule = 0 := by
    rw [hended]
    rfl
  have harrivals : w.arrivals.count j = matching slot.rule w.calls := by omega
  rw [hsound.count j slot hslot, harrivals]

end Finished

/-! ### One call after the other -/

section OneAfterTheOther

variable (rules) in
theorem leads_of_next {l : Label} (h : w.next terminates l = some w') :
    (threads terminates rules).Leads (fun _ _ => True) w w' :=
  Machine.Leads.step (M := threads terminates rules) (a := l) trivial h

variable (rules) in
/-- What a call that nothing overlaps does at one rule. -/
theorem leads_turn {turn : Turn} {slot : Slot} (halive : w.exited = false)
    (hrunning : w.running = [turn]) (hdue : turn.due = false)
    (hslot : w.slots[turn.index]? = some slot) :
    ∃ w', (threads terminates rules).Leads (fun _ _ => True) w w' ∧
      w'.slots = w.slots.set turn.index (slot.observe turn.call) ∧ w'.calls = w.calls ∧
      w'.performed = w.performed ++ (if slot.Due turn.call then
        [(turn.index, slot.rule.effect turn.call.checkpoint)] else []) ∧
      w'.running = (if slot.EndsCall terminates turn.call then [] else [turn.next]) ∧
      w'.exited = if slot.EndsCall terminates turn.call then
        ((slot.rule.effect turn.call.checkpoint).ending terminates).isExit else false := by
  have hmem : turn ∈ w.running := hrunning ▸ List.mem_singleton_self turn
  have herase : w.running.erase turn = [] := by rw [hrunning, List.erase_cons_head]
  have hcount : w.next terminates (.count turn) = _ := Threads.next_count halive hdue hmem hslot
  by_cases hmatches : slot.rule.Matches turn.call
  · rw [if_pos hmatches] at hcount
    have hfirst := leads_of_next rules hcount
    by_cases hd : slot.Due turn.call
    · -- the action is due, and is performed
      have hslot' : (w.observe turn slot).slots[turn.activated.index]? =
          some (slot.observe turn.call) :=
        List.getElem?_set_self (List.getElem?_eq_some_iff.1 hslot).1
      have hrunning' : (w.observe turn slot).running = [turn.activated] := by
        rw [Threads.observe, if_pos hd, herase]
      have hmem' : turn.activated ∈ (w.observe turn slot).running :=
        hrunning' ▸ List.mem_singleton_self _
      have hact : (w.observe turn slot).next terminates (.act turn.activated) = _ :=
        Threads.next_act halive rfl hmem' hslot'
      have hrule := slot.rule_observe turn.call
      refine ⟨_, hfirst.trans (leads_of_next rules hact), rfl, rfl, ?_, ?_, ?_⟩
      · rw [if_pos hd, Threads.perform, hrule]
        rfl
      · rw [Threads.perform, hrunning', List.erase_cons_head, List.append_nil, hrule]
        by_cases hreturned : (slot.rule.effect turn.call.checkpoint).ending terminates = .returned
        · exact (if_pos hreturned).trans (if_neg fun hends => hends.2 hreturned).symm
        · exact (if_neg hreturned).trans (if_pos ⟨hd, hreturned⟩).symm
      · rw [Threads.perform, hrule]
        by_cases hreturned : (slot.rule.effect turn.call.checkpoint).ending terminates = .returned
        · exact (congrArg Ending.isExit hreturned).trans
            (if_neg fun hends => hends.2 hreturned).symm
        · exact (if_pos ⟨hd, hreturned⟩).symm
    · have hends : ¬ slot.EndsCall terminates turn.call := fun hends => hd hends.1
      refine ⟨_, hfirst, rfl, rfl, ?_, ?_, ?_⟩
      · rw [if_neg hd, List.append_nil]
        rfl
      · rw [if_neg hends, Threads.observe, if_neg hd, herase]
      · rw [if_neg hends]
        exact halive
  · rw [if_neg hmatches] at hcount
    have hd : ¬ slot.Due turn.call := fun hd => hmatches hd.1
    have hends : ¬ slot.EndsCall terminates turn.call := fun hends => hd hends.1
    have hobserve : slot.observe turn.call = slot := if_neg fun h => hmatches h.1
    obtain ⟨hlt, hget⟩ := List.getElem?_eq_some_iff.1 hslot
    refine ⟨_, leads_of_next rules hcount, ?_, rfl, ?_, ?_, ?_⟩
    · rw [hobserve, ← hget, List.set_getElem_self]
      rfl
    · rw [if_neg hd, List.append_nil]
      rfl
    · rw [if_neg hends, Threads.move, herase]
    · rw [if_neg hends]
      exact halive

variable (rules) in
/-- **The loop of a call that nothing overlaps.** -/
theorem leads_injectFrom {call : Call} (before : List Slot) {slots : List Slot}
    (halive : w.exited = false) (hslots : w.slots = before ++ slots)
    (hrunning : w.running = [⟨call, before.length, false⟩]) :
    ∃ w', (threads terminates rules).Leads (fun _ _ => True) w w' ∧ w'.running = [] ∧
      w'.slots = before ++ (injectFrom terminates call before.length slots).slots ∧
      w'.calls = w.calls ∧
      w'.performed = w.performed ++ (injectFrom terminates call before.length slots).performed ∧
      w'.exited = (injectFrom terminates call before.length slots).ending.isExit := by
  induction slots generalizing w before with
  | nil =>
      have hnone : w.slots[before.length]? = none := by
        rw [hslots, List.append_nil, List.getElem?_eq_none_iff]
      have hleave : w.next terminates (.count ⟨call, before.length, false⟩) =
          some (w.leave ⟨call, before.length, false⟩) := by
        simp [Threads.next, halive, hrunning, hnone]
      refine ⟨_, leads_of_next rules hleave, ?_, hslots, rfl, (List.append_nil _).symm, halive⟩
      rw [Threads.leave, hrunning, List.erase_cons_head]
  | cons slot slots ih =>
      have hslot : w.slots[before.length]? = some slot := by
        rw [hslots, List.getElem?_append_right le_rfl, Nat.sub_self, List.getElem?_cons_zero]
      obtain ⟨w₁, hleads, hset, hcalls, hperformed, hrest, hexited⟩ :=
        leads_turn rules halive hrunning rfl hslot
      have hset' : w₁.slots = before ++ slot.observe call :: slots := by
        rw [hset, hslots]
        simp
      rw [injectFrom_cons]
      by_cases hends : slot.EndsCall terminates call
      · rw [if_pos hends] at hrest hexited ⊢
        rw [if_pos hends.1] at hperformed
        exact ⟨w₁, hleads, hrest, hset', hcalls, hperformed, hexited⟩
      · rw [if_neg hends] at hrest hexited ⊢
        have hlength : (before ++ [slot.observe call]).length = before.length + 1 :=
          List.length_append
        obtain ⟨w₂, hleads', hrunning', hslots', hcalls', hperformed', hexited'⟩ :=
          ih (before ++ [slot.observe call]) hexited
            (by rw [hset', List.append_assoc]; rfl) (by rw [hrest, hlength]; rfl)
        rw [hlength] at hslots' hperformed' hexited'
        refine ⟨w₂, hleads.trans hleads', hrunning', ?_, hcalls'.trans hcalls, ?_, hexited'⟩
        · rw [hslots', List.append_assoc]
          rfl
        · rw [hperformed', hperformed, List.append_assoc]

variable (rules) in
/-- **A call that nothing overlaps does what `inject` does.** -/
theorem leads_inject (halive : w.exited = false) (hrunning : w.running = []) (call : Call) :
    ∃ w', (threads terminates rules).Leads (fun _ _ => True) w w' ∧ w'.running = [] ∧
      w'.slots = (inject terminates w.slots call).slots ∧ w'.calls = w.calls ++ [call] ∧
      w'.performed = w.performed ++ (inject terminates w.slots call).performed ∧
      w'.exited = (inject terminates w.slots call).ending.isExit := by
  have henter : w.next terminates (.enter call) =
      some { w with running := .first call :: w.running, calls := w.calls ++ [call] } := by
    rw [Threads.next, halive]
    rfl
  obtain ⟨w', hleads, hend⟩ := leads_injectFrom rules
    (w := { w with running := .first call :: w.running, calls := w.calls ++ [call] })
    [] halive rfl (by rw [hrunning]; rfl)
  exact ⟨w', (leads_of_next rules henter).trans hleads, hend⟩

/-- No process ends, if no action ends a call. -/
theorem alive_of_reachable (h : (threads terminates rules).Reachable w)
    (hends : ∀ rule ∈ rules, ¬ rule.Ends terminates) : w.exited = false := by
  refine h.invariant (I := fun w => w.exited = false) rfl fun w l w' hw halive hn => ?_
  rcases Threads.next_cases hn with ⟨call, -, rfl⟩ | ⟨turn, -, -, -, -, rfl⟩ |
    ⟨turn, slot, -, -, -, -, -, rfl⟩ | ⟨turn, slot, -, -, -, -, -, rfl⟩ |
    ⟨turn, slot, -, hmem, hdue, hslot, rfl⟩
  · exact halive
  · exact halive
  · exact halive
  · exact halive
  · have hsound := sound_of_reachable hw
    obtain ⟨rule, hrule, hmatches⟩ := hsound.matched turn hmem hdue
    obtain rfl := Option.some_inj.1 ((hsound.rule_at hslot).symm.trans hrule)
    have hreturned := not_not.1 (hends slot.rule (List.mem_of_getElem? hrule))
    rw [hmatches.1] at hreturned
    exact congrArg Ending.isExit hreturned

/-- **Calls one after the other are a run of the threads**, and go through. -/
theorem exists_run_inject (hends : ∀ rule ∈ rules, ¬ rule.Ends terminates) (calls : List Call) :
    ∃ w, (threads terminates rules).Reachable w ∧ w.running = [] ∧ w.calls = calls ∧
      (injector terminates rules).run (injector terminates rules).start calls =
        some ⟨w.slots, false⟩ := by
  induction calls using List.reverseRecOn with
  | nil => exact ⟨_, Machine.Reachable.start, rfl, rfl, rfl⟩
  | append_singleton calls call ih =>
      obtain ⟨w, hw, hrunning, hcalls, hrun⟩ := ih
      obtain ⟨w', hleads, hrunning', hslots, hcalls', -, hexited⟩ :=
        leads_inject rules (alive_of_reachable hw hends) hrunning call
      have hw' := hleads.reachable hw
      refine ⟨w', hw', hrunning', by rw [hcalls', hcalls], ?_⟩
      refine Machine.run_append_eq_some_iff.2 ⟨_, hrun, Machine.run_cons_eq_some_iff.2
        ⟨⟨w'.slots, false⟩, ?_, rfl⟩⟩
      have hnext : (injector terminates rules).next ⟨w.slots, false⟩ call =
          some ⟨(inject terminates w.slots call).slots,
            (inject terminates w.slots call).ending.isExit⟩ := rfl
      rw [hnext, ← hslots, ← hexited, alive_of_reachable hw' hends]

/-- **Calls that overlap count as calls one after the other**, if no action ends a call: whatever
the order in which the threads took their turns, the injector is left as if each call had been made
when the one before had returned. -/
theorem run_of_finished (h : (threads terminates rules).Reachable w) (hended : w.running = [])
    (hends : ∀ rule ∈ rules, ¬ rule.Ends terminates) :
    (injector terminates rules).run (injector terminates rules).start w.calls =
      some ⟨w.slots, false⟩ := by
  obtain ⟨w', hw', hended', hcalls, hrun⟩ := exists_run_inject hends w.calls
  have hsound := sound_of_reachable h
  have hsound' := sound_of_reachable hw'
  have hlength : w.slots.length = w'.slots.length := by
    rw [← List.length_map Slot.rule, hsound.same, ← hsound'.same, List.length_map]
  -- the counts of the calls do not depend on their order
  have hslots : w.slots = w'.slots := by
    refine List.ext_getElem hlength fun j hj hj' => ?_
    have hslot : w.slots[j]? = some w.slots[j] := List.getElem?_eq_getElem hj
    have hslot' : w'.slots[j]? = some w'.slots[j] := List.getElem?_eq_getElem hj'
    have hrule : w.slots[j].rule = w'.slots[j].rule :=
      Option.some_inj.1 ((hsound.rule_at hslot).symm.trans (hsound'.rule_at hslot'))
    have hcount := count_of_finished h hended hends hslot
    have hcount' := count_of_finished hw' hended' hends hslot'
    rw [hcalls, ← hrule, ← hcount] at hcount'
    exact congrArg₂ Slot.mk hrule hcount'.symm
  rw [hrun, hslots]

/-- Two publishers are at the rule at the same time, and one of them is delayed. -/
theorem run_of_finished_delayed :
    ∃ w, (threads true [ackDelayed]).Reachable w ∧ w.running = [] ∧
      w.calls = [acknowledged, acknowledged] ∧
      (injector true [ackDelayed]).run (injector true [ackDelayed]).start w.calls =
        some ⟨w.slots, false⟩ := by
  have hrun : ((threads true [ackDelayed]).run (threads true [ackDelayed]).start
      [.enter acknowledged, .enter acknowledged, .count ⟨acknowledged, 0, false⟩,
        .count ⟨acknowledged, 0, false⟩, .count ⟨acknowledged, 1, false⟩,
        .act ⟨acknowledged, 0, true⟩, .count ⟨acknowledged, 1, false⟩]).map
          (fun w => (w.running, w.calls)) =
      some ([], [acknowledged, acknowledged]) := by decide
  obtain ⟨w, hw, hvalues⟩ := Option.map_eq_some_iff.1 hrun
  obtain ⟨hrunning, hcalls⟩ := Prod.mk.inj hvalues
  have hreachable := Machine.Reachable.of_run Machine.Reachable.start _ hw
  exact ⟨w, hreachable, hrunning, hcalls, run_of_finished hreachable hrunning (by decide)⟩

end OneAfterTheOther

end ScheduledJobs.Chaos
