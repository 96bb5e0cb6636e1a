/-
**Injected faults: whether a rule fires on its own count.**

A chaos experiment is a list of rules.  A rule names a checkpoint, perhaps a job and a correlation
id, and an action that it performs on one of the calls it matches: it waits, raises an exception,
ends the process, or pauses.  The injector keeps a count for each rule, and one loop over the rules
serves every call of `inject`.

The counts are separate but the loop is shared.  An action that raises or ends the process ends the
loop, and the rules behind it do not count the call.

Main definitions:

* `FaultFields.validateAction`, `FaultRule` — the rules that are accepted;
* `injectFrom` — **the loop of `inject`**;
* `injector` — the injector as a machine whose labels are the calls;
* `FiresOnOwnCount` — **every rule performs its action on its own count, and only then**;
* `Skipped`, `NoneMissed` — **no rule skips a call it needs**.

Main results:

* `injectFrom_cons` — what one turn of the loop does;
* `getElem?_slots_injectFrom`, `filter_performed_injectFrom` — what a call does to each rule;
* `slot_of_run`, `exists_skipped` — a count along a run, and why it falls behind;
* `firesOnOwnCount_iff` — **every rule fires on its own count exactly when no rule skips a call it
  needs**;
* `firesOnOwnCount_of_apart` — as do rules that match no call a rule before them may end.
-/

import ScheduledJobs.Machine
import Mathlib.Data.List.Basic
import Mathlib.Data.Rat.Defs

set_option relaxedAutoImplicit false
set_option autoImplicit false

namespace ScheduledJobs.Chaos

/-! ### Rules -/

/-- `Checkpoint`. -/
inductive Checkpoint
  | schedulerBeforeCommit
  | schedulerAfterCommit
  | workerAfterClaim
  | workerBeforeComplete
  | publisherBeforeSend
  | publisherAfterBrokerAck
  | projectorBeforeApply
  | projectorAfterApply
  | visibilityBeforeQuery
  deriving DecidableEq, Repr

/-- The text of a checkpoint. -/
def Checkpoint.value : Checkpoint → String
  | schedulerBeforeCommit => "scheduler.before_commit"
  | schedulerAfterCommit => "scheduler.after_commit"
  | workerAfterClaim => "worker.after_claim"
  | workerBeforeComplete => "worker.before_complete"
  | publisherBeforeSend => "publisher.before_send"
  | publisherAfterBrokerAck => "publisher.after_broker_ack"
  | projectorBeforeApply => "projector.before_apply"
  | projectorAfterApply => "projector.after_apply"
  | visibilityBeforeQuery => "visibility.before_query"

/-- `FaultAction`. -/
inductive FaultAction
  | delay
  | raise
  | exit
  | pause
  deriving DecidableEq, Repr

/-- The fields of a rule, with their defaults. -/
structure FaultFields where
  checkpoint : Checkpoint
  action : FaultAction
  invocations : ℕ := 1
  activateOn : ℕ := 1
  delaySeconds : ℚ := 0
  jobId : Option String := none
  correlationId : Option String := none
  errorCode : String := "CHAOS_INJECTED"
  exitCode : ℕ := 86
  pauseTimeoutSeconds : ℚ := 10
  deriving DecidableEq

/-- `^[A-Z][A-Z0-9_]{0,63}$`. -/
def isErrorCode (code : String) : Bool :=
  match code.toList with
  | [] => false
  | c :: cs =>
    c.isUpper && cs.length ≤ 63 && cs.all fun d => d.isUpper || d.isDigit || d = '_'

/-- The bounds of an optional identity. -/
def isIdentity (id : Option String) : Bool :=
  id.all fun text => 1 ≤ text.length && text.length ≤ 200

/-- The bounds of the fields. -/
def FaultFields.WithinBounds (f : FaultFields) : Prop :=
  (1 ≤ f.invocations ∧ f.invocations ≤ 100) ∧ (1 ≤ f.activateOn ∧ f.activateOn ≤ 100) ∧
    (0 ≤ f.delaySeconds ∧ f.delaySeconds ≤ 30) ∧ isIdentity f.jobId = true ∧
    isIdentity f.correlationId = true ∧ isErrorCode f.errorCode = true ∧
    (1 ≤ f.exitCode ∧ f.exitCode ≤ 125) ∧
    (0 < f.pauseTimeoutSeconds ∧ f.pauseTimeoutSeconds ≤ 30)

instance (f : FaultFields) : Decidable f.WithinBounds := inferInstanceAs (Decidable (_ ∧ _))

/-- `validate_action`. -/
def FaultFields.validateAction (f : FaultFields) : Except String Unit :=
  if f.invocations < f.activateOn then .error "activate_on cannot exceed invocations"
  else if f.action = .delay ∧ f.delaySeconds ≤ 0 then
    .error "delay action requires a positive delay_seconds"
  else if f.action ≠ .delay ∧ f.delaySeconds ≠ 0 then
    .error "delay_seconds is valid only for delay action"
  else .ok ()

/-- **A rule that `FaultRule` accepts.** -/
structure FaultRule extends FaultFields where
  bounds : toFaultFields.WithinBounds
  valid : toFaultFields.validateAction = .ok ()

/-- A rule comes due before it is used up. -/
theorem FaultRule.activateOn_le_invocations (rule : FaultRule) :
    rule.activateOn ≤ rule.invocations := by
  by_contra hlt
  have hvalid := rule.valid
  rw [FaultFields.validateAction, if_pos (not_le.1 hlt)] at hvalid
  cases hvalid

/-- `FaultContext`, as far as it is matched. -/
structure FaultContext where
  jobId : Option String := none
  correlationId : Option String := none
  deriving DecidableEq

/-- A call of `inject`. -/
structure Call where
  checkpoint : Checkpoint
  context : FaultContext := {}
  deriving DecidableEq

/-- `_matches`. -/
def FaultRule.Matches (rule : FaultRule) (call : Call) : Prop :=
  rule.checkpoint = call.checkpoint ∧
    (rule.jobId = none ∨ rule.jobId = call.context.jobId) ∧
    (rule.correlationId = none ∨ rule.correlationId = call.context.correlationId)

instance (rule : FaultRule) (call : Call) : Decidable (rule.Matches call) :=
  inferInstanceAs (Decidable (_ ∧ _))

/-! ### A call of `inject` -/

/-- `SyntheticFault`. -/
structure SyntheticFault where
  errorCode : String
  checkpoint : Checkpoint
  deriving DecidableEq

/-- The message of a fault. -/
def SyntheticFault.message (fault : SyntheticFault) : String :=
  fault.errorCode ++ " at " ++ fault.checkpoint.value

/-- What a rule does when it is due. -/
inductive FaultEffect
  | waited (seconds : ℚ)
  | raised (fault : SyntheticFault)
  | terminated (exitCode : ℕ)
  | paused (seconds : ℚ)
  deriving DecidableEq

/-- The action of a rule. -/
def FaultRule.effect (rule : FaultRule) (checkpoint : Checkpoint) : FaultEffect :=
  match rule.action with
  | .delay => .waited rule.delaySeconds
  | .raise => .raised ⟨rule.errorCode, checkpoint⟩
  | .exit => .terminated rule.exitCode
  | .pause => .paused rule.pauseTimeoutSeconds

/-- How a call ends. -/
inductive Ending
  | returned
  | raised (fault : SyntheticFault)
  | exited (exitCode : ℕ)
  deriving DecidableEq

/-- What the call of an action comes to: `os._exit` does not return, another `terminate` may. -/
def FaultEffect.ending (terminates : Bool) : FaultEffect → Ending
  | waited _ | paused _ => .returned
  | raised fault => .raised fault
  | terminated exitCode => if terminates then .exited exitCode else .returned

/-- A rule and its count. -/
structure Slot where
  rule : FaultRule
  count : ℕ

/-- What a call leaves behind: the counts, the actions performed, by the positions of their rules,
and how it ended. -/
structure Injection where
  slots : List Slot
  performed : List (ℕ × FaultEffect)
  ending : Ending

/-- **The loop of `inject`**, from the rule at `index` on. -/
def injectFrom (terminates : Bool) (call : Call) : ℕ → List Slot → Injection
  | _, [] => ⟨[], [], .returned⟩
  | index, slot :: slots =>
    let rest := injectFrom terminates call (index + 1) slots
    if ¬ slot.rule.Matches call then { rest with slots := slot :: rest.slots }
    else if slot.rule.invocations ≤ slot.count then { rest with slots := slot :: rest.slots }
    else
      let counted : Slot := { slot with count := slot.count + 1 }
      if counted.count ≠ slot.rule.activateOn then { rest with slots := counted :: rest.slots }
      else
        let effect := slot.rule.effect call.checkpoint
        match effect.ending terminates with
        | .returned =>
          { rest with
            slots := counted :: rest.slots
            performed := (index, effect) :: rest.performed }
        | ending => ⟨counted :: slots, [(index, effect)], ending⟩

/-- **`inject`.** -/
def inject (terminates : Bool) (slots : List Slot) (call : Call) : Injection :=
  injectFrom terminates call 0 slots

/-! ### One turn of the loop -/

section Turn

variable (terminates : Bool) (call : Call)

/-- The count after the turn of the loop. -/
def Slot.observe (slot : Slot) : Slot :=
  if slot.rule.Matches call ∧ slot.count < slot.rule.invocations then
    { slot with count := slot.count + 1 }
  else slot

/-- The call is the one the rule performs its action on. -/
def Slot.Due (slot : Slot) : Prop :=
  slot.rule.Matches call ∧ slot.count + 1 = slot.rule.activateOn

/-- The action ends the call. -/
def Slot.EndsCall (slot : Slot) : Prop :=
  slot.Due call ∧ (slot.rule.effect call.checkpoint).ending terminates ≠ .returned

instance (slot : Slot) : Decidable (slot.Due call) := inferInstanceAs (Decidable (_ ∧ _))

instance (slot : Slot) : Decidable (slot.EndsCall terminates call) :=
  inferInstanceAs (Decidable (_ ∧ _))

/-- **What one turn does.** -/
theorem injectFrom_cons (index : ℕ) (slot : Slot) (slots : List Slot) :
    injectFrom terminates call index (slot :: slots) =
      if slot.EndsCall terminates call then
        ⟨slot.observe call :: slots, [(index, slot.rule.effect call.checkpoint)],
          (slot.rule.effect call.checkpoint).ending terminates⟩
      else
        { slots := slot.observe call :: (injectFrom terminates call (index + 1) slots).slots
          performed :=
            (if slot.Due call then [(index, slot.rule.effect call.checkpoint)] else []) ++
              (injectFrom terminates call (index + 1) slots).performed
          ending := (injectFrom terminates call (index + 1) slots).ending } := by
  rw [injectFrom]
  by_cases hmatches : slot.rule.Matches call
  · by_cases hroom : slot.count < slot.rule.invocations
    · have hobserve : slot.observe call = { slot with count := slot.count + 1 } :=
        if_pos ⟨hmatches, hroom⟩
      by_cases hdue : slot.count + 1 = slot.rule.activateOn
      · have hd : slot.Due call := ⟨hmatches, hdue⟩
        simp only [not_true_eq_false, hmatches, if_false, not_le.2 hroom, hdue, ne_eq, hobserve]
        cases hending : (slot.rule.effect call.checkpoint).ending terminates with
        | returned =>
            rw [if_neg fun h => h.2 hending, if_pos hd]
            rfl
        | raised _ | exited _ =>
            have hne : (slot.rule.effect call.checkpoint).ending terminates ≠ .returned := by
              rw [hending]
              intro h
              cases h
            rw [if_pos ⟨hd, hne⟩]
      · have hd : ¬ slot.Due call := fun h => hdue h.2
        rw [if_neg (not_not.2 hmatches), if_neg (not_le.2 hroom), if_pos hdue,
          if_neg fun h => hd h.1, if_neg hd, hobserve]
        rfl
    · have hd : ¬ slot.Due call := fun h => by
        have hle := slot.rule.activateOn_le_invocations
        have hdue := h.2
        omega
      have hobserve : slot.observe call = slot := if_neg fun h => hroom h.2
      rw [if_neg (not_not.2 hmatches), if_pos (not_lt.1 hroom), if_neg fun h => hd h.1, if_neg hd,
        hobserve]
      rfl
  · have hd : ¬ slot.Due call := fun h => hmatches h.1
    have hobserve : slot.observe call = slot := if_neg fun h => hmatches h.1
    rw [if_pos hmatches, if_neg fun h => hd h.1, if_neg hd, hobserve]
    rfl

/-- The loop comes as far as the rule at position `j`. -/
def Reached (slots : List Slot) (j : ℕ) : Prop :=
  ∀ slot ∈ slots.take j, ¬ slot.EndsCall terminates call

instance (slots : List Slot) (j : ℕ) : Decidable (Reached terminates call slots j) :=
  inferInstanceAs (Decidable (∀ slot ∈ slots.take j, ¬ slot.EndsCall terminates call))

theorem reached_zero (slots : List Slot) : Reached terminates call slots 0 := by
  intro slot hslot
  cases hslot

theorem reached_cons_succ (slot : Slot) (slots : List Slot) (j : ℕ) :
    Reached terminates call (slot :: slots) (j + 1) ↔
      ¬ slot.EndsCall terminates call ∧ Reached terminates call slots j := by
  rw [Reached, List.take_succ_cons, List.forall_mem_cons]
  rfl

/-- A rule is not reached when one before it ends the call. -/
theorem not_reached_iff {slots : List Slot} {j : ℕ} :
    ¬ Reached terminates call slots j ↔
      ∃ i < j, ∃ slot, slots[i]? = some slot ∧ slot.EndsCall terminates call := by
  rw [Reached]
  push Not
  constructor
  · rintro ⟨slot, hmem, hends⟩
    obtain ⟨i, hi⟩ := List.mem_iff_getElem?.1 hmem
    rw [List.getElem?_take] at hi
    split at hi
    · next hij => exact ⟨i, hij, slot, hi, hends⟩
    · cases hi
  · rintro ⟨i, hij, slot, hslot, hends⟩
    refine ⟨slot, List.mem_iff_getElem?.2 ⟨i, ?_⟩, hends⟩
    rw [List.getElem?_take, if_pos hij, hslot]

/-- **What a call does to the count of each rule.** -/
theorem getElem?_slots_injectFrom (index : ℕ) (slots : List Slot) (j : ℕ) :
    (injectFrom terminates call index slots).slots[j]? =
      slots[j]?.map fun slot =>
        if Reached terminates call slots j then slot.observe call else slot := by
  induction slots generalizing index j with
  | nil => rfl
  | cons slot slots ih =>
      rw [injectFrom_cons]
      cases j with
      | zero =>
          have hslot : (if Reached terminates call (slot :: slots) 0 then slot.observe call
              else slot) = slot.observe call :=
            if_pos (reached_zero terminates call (slot :: slots))
          split <;> simp [hslot]
      | succ j =>
          by_cases hends : slot.EndsCall terminates call
          · have hnot : ¬ Reached terminates call (slot :: slots) (j + 1) := fun h =>
              ((reached_cons_succ ..).1 h).1 hends
            simp [if_pos hends, hnot]
          · have hiff : Reached terminates call (slot :: slots) (j + 1) ↔
                Reached terminates call slots j :=
              (reached_cons_succ ..).trans (and_iff_right hends)
            simp only [if_neg hends, List.getElem?_cons_succ, ih, hiff]

theorem le_of_mem_performed {index : ℕ} {slots : List Slot} :
    ∀ a ∈ (injectFrom terminates call index slots).performed, index ≤ a.1 := by
  induction slots generalizing index with
  | nil => exact fun a ha => absurd ha List.not_mem_nil
  | cons slot slots ih =>
      rw [injectFrom_cons]
      intro a ha
      split at ha
      · obtain rfl := List.mem_singleton.1 ha
        exact le_rfl
      · rcases List.mem_append.1 ha with ha | ha
        · split at ha
          · obtain rfl := List.mem_singleton.1 ha
            exact le_rfl
          · cases ha
        · have := ih a ha
          omega

/-- **What a call makes each rule do**: its action, when the rule is due and the loop gets there. -/
theorem filter_performed_injectFrom (index : ℕ) {slots : List Slot} {j : ℕ} {slot : Slot}
    (h : slots[j]? = some slot) :
    (injectFrom terminates call index slots).performed.filter (fun a => a.1 = index + j) =
      if Reached terminates call slots j ∧ slot.Due call then
        [(index + j, slot.rule.effect call.checkpoint)]
      else [] := by
  induction slots generalizing index j with
  | nil => cases h
  | cons first slots ih =>
      rw [injectFrom_cons]
      cases j with
      | zero =>
          obtain rfl : first = slot := Option.some.inj h
          have hrest : (injectFrom terminates call (index + 1) slots).performed.filter
              (fun a => a.1 = index + 0) = [] := by
            refine List.filter_eq_nil_iff.2 fun a ha => ?_
            have := le_of_mem_performed terminates call a ha
            rw [decide_eq_true_eq]
            omega
          have hreached := reached_zero terminates call (first :: slots)
          by_cases hends : first.EndsCall terminates call
          · simp [if_pos hends, hreached, hends.1]
          · by_cases hdue : first.Due call
            · simp [if_neg hends, hreached, hdue] at hrest ⊢
              exact hrest
            · simp [if_neg hends, hdue] at hrest ⊢
              exact hrest
      | succ j =>
          have hindex : index + (j + 1) = index + 1 + j := by omega
          by_cases hends : first.EndsCall terminates call
          · have hnot : ¬ Reached terminates call (first :: slots) (j + 1) := fun h =>
              ((reached_cons_succ ..).1 h).1 hends
            rw [if_pos hends, if_neg fun h => hnot h.1]
            simp
          · have hiff : Reached terminates call (first :: slots) (j + 1) ↔
                Reached terminates call slots j :=
              (reached_cons_succ ..).trans (and_iff_right hends)
            have hfirst : (if first.Due call then [(index, first.rule.effect call.checkpoint)]
                else []).filter (fun a => a.1 = index + 1 + j) = [] := by
              refine List.filter_eq_nil_iff.2 fun a ha => ?_
              split at ha
              · obtain rfl := List.mem_singleton.1 ha
                rw [decide_eq_true_eq]
                omega
              · cases ha
            rw [if_neg hends, hindex]
            simp only [hiff, List.filter_append, hfirst, List.nil_append]
            exact ih (index + 1) h

end Turn

/-! ### Runs -/

/-- A process: the rules with their counts, and whether it has ended. -/
structure Process where
  slots : List Slot
  exited : Bool

/-- The call ended the process. -/
def Ending.isExit : Ending → Bool
  | exited _ => true
  | returned | raised _ => false

/-- A call, in a process that has not ended. -/
def Process.inject (terminates : Bool) (p : Process) (call : Call) : Option Process :=
  if p.exited then none
  else
    let injection := Chaos.inject terminates p.slots call
    some ⟨injection.slots, injection.ending.isExit⟩

/-- **The injector.** -/
def injector (terminates : Bool) (rules : List FaultRule) : Machine Process Call where
  start := ⟨rules.map fun rule => ⟨rule, 0⟩, false⟩
  next := Process.inject terminates

/-- How many of the calls a rule matches. -/
def matching (rule : FaultRule) (calls : List Call) : ℕ :=
  calls.countP fun call => rule.Matches call

theorem matching_append (rule : FaultRule) (as bs : List Call) :
    matching rule (as ++ bs) = matching rule as + matching rule bs := List.countP_append

theorem matching_cons (rule : FaultRule) (call : Call) (calls : List Call) :
    matching rule (call :: calls) = matching rule calls + if rule.Matches call then 1 else 0 := by
  simp only [matching, List.countP_cons, decide_eq_true_eq]

/-- **Each call that is matched for the `n`-th time** is somewhere among the calls. -/
theorem exists_split_of_lt_matching {rule : FaultRule} {n : ℕ} {calls : List Call}
    (h : n < matching rule calls) :
    ∃ before call after, calls = before ++ call :: after ∧ rule.Matches call ∧
      matching rule before = n := by
  induction calls generalizing n with
  | nil => cases h
  | cons call calls ih =>
      rw [matching_cons] at h
      by_cases hmatches : rule.Matches call
      · rw [if_pos hmatches] at h
        cases n with
        | zero => exact ⟨[], call, calls, rfl, hmatches, rfl⟩
        | succ n =>
            obtain ⟨before, c, after, rfl, hc, hn⟩ := ih (n := n) (by omega)
            refine ⟨call :: before, c, after, rfl, hc, ?_⟩
            rw [matching_cons, if_pos hmatches, hn]
      · rw [if_neg hmatches] at h
        obtain ⟨before, c, after, rfl, hc, hn⟩ := ih h
        refine ⟨call :: before, c, after, rfl, hc, ?_⟩
        rw [matching_cons, if_neg hmatches, hn]
        rfl

section Runs

variable {terminates : Bool} {rules : List FaultRule} {p q : Process} {j : ℕ} {slot : Slot}

theorem slots_of_next {call : Call} (h : (injector terminates rules).next p call = some q) :
    q.slots = (inject terminates p.slots call).slots := by
  simp only [injector, Process.inject] at h
  split at h
  · cases h
  · obtain rfl := Option.some.inj h
    rfl

/-- A call counts at each rule that it reaches and that matches it, until the rule is used up. -/
theorem slot_of_next {call : Call} (h : (injector terminates rules).next p call = some q)
    (hslot : p.slots[j]? = some slot) :
    ∃ slot', q.slots[j]? = some slot' ∧ slot'.rule = slot.rule ∧
      slot'.count = slot.count +
        if Reached terminates call p.slots j ∧ slot.rule.Matches call ∧
          slot.count < slot.rule.invocations then 1 else 0 := by
  refine ⟨if Reached terminates call p.slots j then slot.observe call else slot, ?_, ?_, ?_⟩
  · rw [slots_of_next h, inject, getElem?_slots_injectFrom, hslot, Option.map_some]
  · rw [Slot.observe]
    split
    · split <;> rfl
    · rfl
  · by_cases hreached : Reached terminates call p.slots j
    · by_cases hcounts : slot.rule.Matches call ∧ slot.count < slot.rule.invocations
      · rw [if_pos hreached, if_pos ⟨hreached, hcounts⟩, Slot.observe, if_pos hcounts]
      · rw [if_pos hreached, if_neg fun h => hcounts h.2, Slot.observe, if_neg hcounts,
          Nat.add_zero]
    · rw [if_neg hreached, if_neg fun h => hreached h.1, Nat.add_zero]

/-- **A count grows along a run, but not by more than the calls that are matched.** -/
theorem slot_of_run {calls : List Call} (h : (injector terminates rules).run p calls = some q)
    (hslot : p.slots[j]? = some slot) :
    ∃ slot', q.slots[j]? = some slot' ∧ slot'.rule = slot.rule ∧ slot.count ≤ slot'.count ∧
      slot'.count ≤ slot.count + matching slot.rule calls := by
  induction calls generalizing p slot with
  | nil =>
      obtain rfl := Option.some.inj h
      exact ⟨slot, hslot, rfl, le_rfl, Nat.le_add_right _ _⟩
  | cons call calls ih =>
      obtain ⟨m, hnext, hrest⟩ := Machine.run_cons_eq_some_iff.1 h
      obtain ⟨mid, hmid, hmrule, hmcount⟩ := slot_of_next hnext hslot
      obtain ⟨slot', hslot', hrule, hle, hge⟩ := ih hrest hmid
      have hone : mid.count ≤ slot.count + if slot.rule.Matches call then 1 else 0 := by
        rw [hmcount]
        by_cases hmatches : slot.rule.Matches call
        · rw [if_pos hmatches]
          split <;> omega
        · rw [if_neg fun h => hmatches h.2.1, if_neg hmatches]
      refine ⟨slot', hslot', hrule.trans hmrule, by omega, ?_⟩
      rw [hmrule] at hge
      rw [matching_cons]
      omega

/-- The rule at position `j` matches a call that a rule before it ends. -/
structure Skipped (terminates : Bool) (p : Process) (call : Call) (j : ℕ) (slot : Slot) : Prop where
  present : p.slots[j]? = some slot
  matched : slot.rule.Matches call
  ended : ∃ i < j, ∃ first, p.slots[i]? = some first ∧ first.EndsCall terminates call

/-- **A count that has fallen behind has skipped a call.** -/
theorem exists_skipped {calls : List Call} {slot' : Slot}
    (h : (injector terminates rules).run p calls = some q) (hslot : p.slots[j]? = some slot)
    (hslot' : q.slots[j]? = some slot') (hroom : slot'.count < slot.rule.invocations)
    (hbehind : slot'.count < slot.count + matching slot.rule calls) :
    ∃ before call after m mid, calls = before ++ call :: after ∧
      (injector terminates rules).run p before = some m ∧ Skipped terminates m call j mid ∧
      mid.rule = slot.rule ∧ mid.count ≤ slot'.count := by
  induction calls generalizing p slot with
  | nil =>
      obtain rfl := Option.some.inj h
      obtain rfl := Option.some.inj (hslot.symm.trans hslot')
      exact absurd hbehind (Nat.lt_irrefl _)
  | cons call calls ih =>
      obtain ⟨m, hnext, hrest⟩ := Machine.run_cons_eq_some_iff.1 h
      obtain ⟨mid, hmid, hmrule, hmcount⟩ := slot_of_next hnext hslot
      obtain ⟨last, hlast, -, hle, -⟩ := slot_of_run hrest hmid
      obtain rfl : last = slot' := Option.some.inj (hlast.symm.trans hslot')
      by_cases hskipped : slot.rule.Matches call ∧ ¬ Reached terminates call p.slots j
      · exact ⟨[], call, calls, p, slot, rfl, rfl,
          ⟨hslot, hskipped.1, (not_reached_iff terminates call).1 hskipped.2⟩, rfl, by omega⟩
      · have hcount : mid.count = slot.count + if slot.rule.Matches call then 1 else 0 := by
          rw [hmcount]
          by_cases hmatches : slot.rule.Matches call
          · have hreached : Reached terminates call p.slots j := by
              by_contra hnot
              exact hskipped ⟨hmatches, hnot⟩
            rw [if_pos hmatches, if_pos ⟨hreached, hmatches, by omega⟩]
          · rw [if_neg hmatches, if_neg fun h => hmatches h.2.1]
        rw [matching_cons] at hbehind
        obtain ⟨before, c, after, m', mid', rfl, hrun, hskip, hrule, hle'⟩ :=
          ih hrest hmid (hmrule ▸ hroom) (by rw [hmrule]; omega)
        exact ⟨call :: before, c, after, m', mid', rfl,
          Machine.run_cons_eq_some_iff.2 ⟨m, hnext, hrun⟩, hskip, hrule.trans hmrule, hle'⟩

/-- The rules stay what they are. -/
theorem rules_of_run {calls : List Call}
    (h : (injector terminates rules).run (injector terminates rules).start calls = some p) :
    p.slots.map Slot.rule = rules := by
  have hreach := Machine.Reachable.of_run Machine.Reachable.start calls h
  refine Machine.Reachable.invariant (I := fun p => p.slots.map Slot.rule = rules) ?_ ?_ hreach
  · rw [injector, List.map_map]
    exact List.map_id rules
  · intro s call s' _ hs hnext
    rw [← hs]
    refine List.ext_getElem? fun j => ?_
    rw [List.getElem?_map, List.getElem?_map, slots_of_next hnext, inject,
      getElem?_slots_injectFrom, Option.map_map]
    refine congrArg (fun f => Option.map f _) (funext fun slot => ?_)
    rw [Function.comp_apply]
    split
    · rw [Slot.observe]
      split <;> rfl
    · rfl

theorem rule_at {calls : List Call} {rule : FaultRule}
    (h : (injector terminates rules).run (injector terminates rules).start calls = some p) :
    rules[j]? = some rule ↔ ∃ slot, p.slots[j]? = some slot ∧ slot.rule = rule := by
  rw [← rules_of_run h, List.getElem?_map, Option.map_eq_some_iff]

/-- No count is ahead of the calls that are matched. -/
theorem count_le_matching {calls : List Call}
    (h : (injector terminates rules).run (injector terminates rules).start calls = some p)
    (hslot : p.slots[j]? = some slot) : slot.count ≤ matching slot.rule calls := by
  have hrule : rules[j]? = some slot.rule := (rule_at h).2 ⟨slot, hslot, rfl⟩
  have hstart : (injector terminates rules).start.slots[j]? = some ⟨slot.rule, 0⟩ := by
    rw [injector, List.getElem?_map, hrule, Option.map_some]
  obtain ⟨slot', hslot', -, -, hle⟩ := slot_of_run h hstart
  obtain rfl := Option.some.inj (hslot.symm.trans hslot')
  rwa [Nat.zero_add] at hle

end Runs

/-! ### Each rule on its own count -/

/-- **Every rule performs its action once, on its own count, and never otherwise.** -/
def FiresOnOwnCount (terminates : Bool) (rules : List FaultRule) (calls : List Call) : Prop :=
  ∀ before call after p, calls = before ++ call :: after →
    (injector terminates rules).run (injector terminates rules).start before = some p →
    ∀ j rule, rules[j]? = some rule →
      (inject terminates p.slots call).performed.filter (fun a => a.1 = j) =
        if rule.Matches call ∧ matching rule before + 1 = rule.activateOn then
          [(j, rule.effect call.checkpoint)]
        else []

/-- **No rule misses a call it needs**: a rule that skips a call has performed its action before, or
the calls it matches are too few for it to come due. -/
def NoneMissed (terminates : Bool) (rules : List FaultRule) (calls : List Call) : Prop :=
  ∀ before call after p j slot, calls = before ++ call :: after →
    (injector terminates rules).run (injector terminates rules).start before = some p →
    Skipped terminates p call j slot → slot.count < slot.rule.activateOn →
    matching slot.rule calls < slot.rule.activateOn

section Fires

variable {terminates : Bool} {rules : List FaultRule} {calls : List Call} {p q : Process} {j : ℕ}
  {slot : Slot}

/-- What a call makes a rule do, by its slot. -/
theorem filter_performed_inject {call : Call} (hslot : p.slots[j]? = some slot) :
    (inject terminates p.slots call).performed.filter (fun a => a.1 = j) =
      if Reached terminates call p.slots j ∧ slot.Due call then
        [(j, slot.rule.effect call.checkpoint)]
      else [] := by
  have h := filter_performed_injectFrom terminates call 0 hslot
  rwa [Nat.zero_add] at h

/-- **When no rule misses a call it needs, the counts that matter are exact.** -/
theorem NoneMissed.count_eq (h : NoneMissed terminates rules calls) {before after : List Call}
    {call : Call} (hcalls : calls = before ++ call :: after)
    (hrun : (injector terminates rules).run (injector terminates rules).start before = some p)
    (hslot : p.slots[j]? = some slot) (hmatches : slot.rule.Matches call)
    (hcount : slot.count < slot.rule.activateOn)
    (hdue : slot.rule.activateOn ≤ matching slot.rule before + 1) :
    slot.count = matching slot.rule before ∧ Reached terminates call p.slots j := by
  have htotal : slot.rule.activateOn ≤ matching slot.rule calls := by
    rw [hcalls, matching_append, matching_cons, if_pos hmatches]
    omega
  constructor
  · refine le_antisymm (count_le_matching hrun hslot) (not_lt.1 fun hbehind => ?_)
    have hroom := slot.rule.activateOn_le_invocations
    have hrule := (rule_at hrun).2 ⟨slot, hslot, rfl⟩
    have hstart : (injector terminates rules).start.slots[j]? = some ⟨slot.rule, 0⟩ := by
      rw [injector, List.getElem?_map, hrule, Option.map_some]
    obtain ⟨b, c, a, m, mid, rfl, hm, hskipped, hmrule, hle⟩ :=
      exists_skipped hrun hstart hslot (lt_of_lt_of_le hcount hroom) (by rwa [Nat.zero_add])
    have hmid : mid.count < mid.rule.activateOn := by
      rw [hmrule]
      exact lt_of_le_of_lt hle hcount
    have hfew := h b c (a ++ call :: after) m j mid (by rw [hcalls]; simp) hm hskipped hmid
    rw [hmrule] at hfew
    exact absurd hfew (not_lt.2 htotal)
  · by_contra hnot
    have hskipped : Skipped terminates p call j slot :=
      ⟨hslot, hmatches, (not_reached_iff terminates call).1 hnot⟩
    exact absurd (h before call after p j slot hcalls hrun hskipped hcount) (not_lt.2 htotal)

theorem NoneMissed.firesOnOwnCount (h : NoneMissed terminates rules calls) :
    FiresOnOwnCount terminates rules calls := by
  intro before call after p hcalls hrun j rule hrule
  obtain ⟨slot, hslot, rfl⟩ := (rule_at hrun).1 hrule
  rw [filter_performed_inject hslot]
  refine if_congr ?_ rfl rfl
  have hle := count_le_matching hrun hslot
  constructor
  · rintro ⟨-, hmatches, hdue⟩
    obtain ⟨heq, -⟩ := h.count_eq hcalls hrun hslot hmatches (by omega) (by omega)
    exact ⟨hmatches, by omega⟩
  · rintro ⟨hmatches, hdue⟩
    obtain ⟨heq, hreached⟩ := h.count_eq hcalls hrun hslot hmatches (by omega) (by omega)
    exact ⟨hreached, hmatches, by omega⟩

/-- A rule that fires on its own count is reached there, and its count is exact. -/
theorem FiresOnOwnCount.due (h : FiresOnOwnCount terminates rules calls)
    {before after : List Call} {call : Call} (hcalls : calls = before ++ call :: after)
    (hrun : (injector terminates rules).run (injector terminates rules).start before = some p)
    (hslot : p.slots[j]? = some slot) (hmatches : slot.rule.Matches call)
    (hdue : matching slot.rule before + 1 = slot.rule.activateOn) :
    Reached terminates call p.slots j ∧ slot.count = matching slot.rule before := by
  have hfires := h before call after p hcalls hrun j slot.rule ((rule_at hrun).2 ⟨slot, hslot, rfl⟩)
  rw [filter_performed_inject hslot, if_pos (⟨hmatches, hdue⟩ : _ ∧ _)] at hfires
  split at hfires
  · next hboth =>
      have hcount := hboth.2.2
      exact ⟨hboth.1, by omega⟩
  · cases hfires

/-- A rule that performs its action on its own count has not skipped a call before. -/
theorem FiresOnOwnCount.noneMissed (h : FiresOnOwnCount terminates rules calls)
    (hall : (injector terminates rules).run (injector terminates rules).start calls = some q) :
    NoneMissed terminates rules calls := by
  intro before call after p j slot hcalls hrun hskipped hcount
  by_contra hmany
  have hpos : 1 ≤ slot.rule.activateOn := slot.rule.bounds.2.1.1
  -- the call on which the rule is to perform its action
  have hsome : slot.rule.activateOn - 1 < matching slot.rule calls := by omega
  obtain ⟨before', call', after', hcalls', hmatches', hmatching⟩ :=
    exists_split_of_lt_matching hsome
  rw [hcalls', Machine.run_append_eq_some_iff] at hall
  obtain ⟨p', hrun', hrest⟩ := hall
  obtain ⟨m', hnext', -⟩ := Machine.run_cons_eq_some_iff.1 hrest
  have hrule : rules[j]? = some slot.rule := (rule_at hrun).2 ⟨slot, hskipped.present, rfl⟩
  obtain ⟨slot', hslot', hrule'⟩ := (rule_at hrun').1 hrule
  obtain ⟨hreached', hcount'⟩ :=
    h.due hcalls' hrun' hslot' (hrule' ▸ hmatches') (by rw [hrule']; omega)
  rw [hrule'] at hcount'
  have hnot : ¬ Reached terminates call p.slots j :=
    (not_reached_iff terminates call).2 hskipped.ended
  have hle := count_le_matching hrun hskipped.present
  have hsame : before' = before → call' = call → False := by
    rintro rfl rfl
    obtain rfl := Option.some.inj (hrun.symm.trans hrun')
    exact hnot hreached'
  rw [hcalls] at hcalls'
  rcases List.append_eq_append_iff.1 hcalls' with ⟨as, hbefore, htail⟩ | ⟨bs, hbefore, htail⟩
  · cases as with
    | nil =>
        rw [List.nil_append, List.cons_eq_cons] at htail
        exact hsame (hbefore.trans (List.append_nil _)) htail.1.symm
    | cons c as =>
        -- the call was skipped before: the count is behind
        rw [List.cons_append, List.cons_eq_cons] at htail
        obtain ⟨rfl, -⟩ := htail
        rw [hbefore, Machine.run_append_eq_some_iff] at hrun'
        obtain ⟨p₁, hp₁, hrest'⟩ := hrun'
        obtain rfl := Option.some.inj (hrun.symm.trans hp₁)
        obtain ⟨m, hnext, htail'⟩ := Machine.run_cons_eq_some_iff.1 hrest'
        obtain ⟨mid, hmid, hmrule, hmcount⟩ := slot_of_next hnext hskipped.present
        rw [if_neg fun h => hnot h.1, Nat.add_zero] at hmcount
        obtain ⟨last, hlast, -, -, hge⟩ := slot_of_run htail' hmid
        obtain rfl := Option.some.inj (hslot'.symm.trans hlast)
        rw [hmrule] at hge
        rw [hbefore, matching_append, matching_cons, if_pos hskipped.matched] at hcount'
        omega
  · cases bs with
    | nil =>
        rw [List.nil_append, List.cons_eq_cons] at htail
        exact hsame (by rw [hbefore, List.append_nil]) htail.1
    | cons c bs =>
        -- the rule has performed its action before: the count says so
        rw [List.cons_append, List.cons_eq_cons] at htail
        obtain ⟨rfl, -⟩ := htail
        rw [hbefore, Machine.run_append_eq_some_iff] at hrun
        obtain ⟨p₁, hp₁, hrest'⟩ := hrun
        obtain rfl := Option.some.inj (hrun'.symm.trans hp₁)
        obtain ⟨m, hnext, htail'⟩ := Machine.run_cons_eq_some_iff.1 hrest'
        obtain ⟨mid, hmid, hmrule, hmcount⟩ := slot_of_next hnext hslot'
        obtain ⟨last, hlast, -, hge, -⟩ := slot_of_run htail' hmid
        obtain rfl := Option.some.inj (hskipped.present.symm.trans hlast)
        have hroom := slot.rule.activateOn_le_invocations
        rw [hrule', if_pos ⟨hreached', hmatches', by omega⟩] at hmcount
        omega

/-- **Every rule fires on its own count exactly when no rule misses a call it needs.** -/
theorem firesOnOwnCount_iff
    (hall : (injector terminates rules).run (injector terminates rules).start calls = some q) :
    FiresOnOwnCount terminates rules calls ↔ NoneMissed terminates rules calls :=
  ⟨fun h => h.noneMissed hall, fun h => h.firesOnOwnCount⟩

end Fires

/-- The actions that may end a call. -/
def FaultAction.MayEndCall : FaultAction → Prop
  | raise | exit => True
  | delay | pause => False

theorem Slot.EndsCall.mayEndCall {terminates : Bool} {call : Call} {slot : Slot}
    (h : slot.EndsCall terminates call) : slot.rule.action.MayEndCall := by
  have hending := h.2
  rw [FaultRule.effect] at hending
  cases haction : slot.rule.action with
  | delay =>
      rw [haction] at hending
      exact absurd rfl hending
  | raise => exact trivial
  | exit => exact trivial
  | pause =>
      rw [haction] at hending
      exact absurd rfl hending

/-- No rule matches a call of a rule before it that may end the call. -/
def Apart (rules : List FaultRule) : Prop :=
  ∀ (i j : ℕ) (first rule : FaultRule), i < j → rules[i]? = some first → rules[j]? = some rule →
    first.action.MayEndCall → ∀ call, first.Matches call → ¬ rule.Matches call

theorem Apart.noneMissed {rules : List FaultRule} (h : Apart rules) (terminates : Bool)
    (calls : List Call) : NoneMissed terminates rules calls := by
  intro before call after p j slot _ hrun hskipped _
  obtain ⟨i, hij, first, hfirst, hends⟩ := hskipped.ended
  have hi : rules[i]? = some first.rule := (rule_at hrun).2 ⟨first, hfirst, rfl⟩
  have hj : rules[j]? = some slot.rule := (rule_at hrun).2 ⟨slot, hskipped.present, rfl⟩
  exact absurd hskipped.matched (h i j _ _ hij hi hj hends.mayEndCall call hends.1.1)

/-- **Rules that are apart fire on their own counts in every run.** -/
theorem firesOnOwnCount_of_apart {rules : List FaultRule} (h : Apart rules) (terminates : Bool)
    (calls : List Call) : FiresOnOwnCount terminates rules calls :=
  (h.noneMissed terminates calls).firesOnOwnCount

/-! ### A fault in front of a delay -/

/-- A rule that raises after a broker acknowledgement. -/
def ackLost : FaultRule where
  checkpoint := .publisherAfterBrokerAck
  action := .raise
  errorCode := "ACK_LOST"
  bounds := by decide
  valid := by decide

/-- A rule that delays the first publication after its acknowledgement. -/
def ackDelayed : FaultRule where
  checkpoint := .publisherAfterBrokerAck
  action := .delay
  delaySeconds := 1
  bounds := by decide
  valid := by decide

/-- An acknowledgement. -/
def acknowledged : Call where
  checkpoint := .publisherAfterBrokerAck

theorem apart_delay_first : Apart [ackDelayed, ackLost] := by
  intro i j first rule hij hi hj hends
  cases i with
  | zero =>
      obtain rfl := Option.some.inj hi
      exact hends.elim
  | succ i =>
      have hlt := (List.getElem?_eq_some_iff.1 hj).1
      simp only [List.length_cons, List.length_nil] at hlt
      omega

/-- With the delay in front, both act on the first publication. -/
theorem firesOnOwnCount_iff_delay_first :
    FiresOnOwnCount true [ackDelayed, ackLost] [acknowledged, acknowledged] :=
  (firesOnOwnCount_iff rfl).2 (apart_delay_first.noneMissed true [acknowledged, acknowledged])

/-- **With the fault in front, the first publication is not delayed but the second one is.** -/
theorem not_firesOnOwnCount_fault_first :
    ¬ ∀ (rules : List FaultRule) (calls : List Call) (q : Process),
      (injector true rules).run (injector true rules).start calls = some q →
      FiresOnOwnCount true rules calls := by
  intro h
  have hfires := h [ackLost, ackDelayed] [acknowledged, acknowledged] _ rfl [] acknowledged
    [acknowledged] _ rfl rfl 1 ackDelayed rfl
  rw [if_pos (by decide)] at hfires
  have hnone : (inject true (injector true [ackLost, ackDelayed]).start.slots
      acknowledged).performed.filter (fun a => a.1 = 1) = [] := by decide
  rw [hnone] at hfires
  cases hfires

end ScheduledJobs.Chaos
