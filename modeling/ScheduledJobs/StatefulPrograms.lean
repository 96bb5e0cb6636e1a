/-
**Programs with a state, that may fail, and what holds of their results.**

A program in `EStateM` leaves a state also when it fails.  It meets a precondition with two
postconditions when, from every state that meets the first, the value it returns meets the second
together with the state it leaves, or the error it fails with meets the third.  As for `Except`, the
rules follow the program.

A program *foresees* a kind of failure when some states are good, and a failure of this kind is what
leaves a state that is not: the log of a program can then be read for how it ended.

Main definitions:

* `EStateM.Meets` — a precondition and the two postconditions;
* `EStateM.Foresees` — **failures of one kind are those that leave no good state**;
* `EStateM.stateOf` — the state a program leaves.

Main results:

* `EStateM.Meets.bind`, `EStateM.Foresees.bind` — **the rules for sequences**;
* `EStateM.Foresees.good_iff` — how a program ended.
-/

import Mathlib.Logic.Basic

set_option relaxedAutoImplicit false
set_option autoImplicit false

universe u

namespace EStateM

variable {ε σ α β : Type u}

/-- The state that is left. -/
def Result.state : Result ε σ α → σ
  | .ok _ s => s
  | .error _ s => s

/-- The error, if the program has failed. -/
def Result.error? : Result ε σ α → Option ε
  | .ok _ _ => none
  | .error e _ => some e

/-- The state a program leaves. -/
def stateOf (x : EStateM ε σ α) (s : σ) : σ := (x s).state

/-- From a state that meets `P`, the program returns with `Q`, or fails with `E`. -/
def Meets (x : EStateM ε σ α) (P : σ → Prop) (Q : α → σ → Prop) (E : ε → σ → Prop) : Prop :=
  ∀ s, P s → match x s with
    | .ok a s' => Q a s'
    | .error e s' => E e s'

/-- The first of two programs fails, or the second one goes on. -/
theorem bind_apply (x : EStateM ε σ α) (f : α → EStateM ε σ β) (s : σ) :
    (x >>= f) s = match x s with
      | .ok a s' => f a s'
      | .error e s' => .error e s' := rfl

namespace Meets

variable {P : σ → Prop} {E : ε → σ → Prop}

theorem pure {a : α} {Q : α → σ → Prop} (h : ∀ s, P s → Q a s) :
    (Pure.pure a : EStateM ε σ α).Meets P Q E := fun s hs => h s hs

theorem throw {e : ε} {Q : α → σ → Prop} (h : ∀ s, P s → E e s) :
    (throw e : EStateM ε σ α).Meets P Q E := fun s hs => h s hs

theorem modify {f : σ → σ} {Q : PUnit → σ → Prop} (h : ∀ s, P s → Q PUnit.unit (f s)) :
    (modify f : EStateM ε σ PUnit).Meets P Q E := fun s hs => h s hs

/-- **The rule for sequences.** -/
theorem bind {x : EStateM ε σ α} {f : α → EStateM ε σ β} {Q : α → σ → Prop} {R : β → σ → Prop}
    (hx : x.Meets P Q E) (hf : ∀ a, (f a).Meets (Q a) R E) : (x >>= f).Meets P R E := by
  intro s hs
  have h := hx s hs
  rw [bind_apply]
  cases hresult : x s with
  | ok a s' =>
      rw [hresult] at h
      exact hf a s' h
  | error e s' =>
      rw [hresult] at h
      exact h

/-- What a program that returns has left. -/
theorem of_ok {x : EStateM ε σ α} {Q : α → σ → Prop} (h : x.Meets P Q E) {s s' : σ} {a : α}
    (hs : P s) (hx : x s = .ok a s') : Q a s' := by
  have hresult := h s hs
  rw [hx] at hresult
  exact hresult

/-- A program that does not fail returns. -/
theorem exists_ok {x : EStateM ε σ α} {Q : α → σ → Prop} (h : x.Meets P Q fun _ _ => False) {s : σ}
    (hs : P s) : ∃ a s', x s = .ok a s' ∧ Q a s' := by
  have hresult := h s hs
  cases hx : x s with
  | ok a s' =>
      rw [hx] at hresult
      exact ⟨a, s', rfl, hresult⟩
  | error e s' =>
      rw [hx] at hresult
      exact hresult.elim

/-- What a program leaves, when both postconditions are on the state. -/
theorem state {x : EStateM ε σ α} {I : σ → Prop} (h : x.Meets P (fun _ => I) fun _ => I) {s : σ}
    (hs : P s) : I (x.stateOf s) := by
  have hresult := h s hs
  rw [stateOf]
  cases hx : x s with
  | ok a s' =>
      rw [hx] at hresult
      exact hresult
  | error e s' =>
      rw [hx] at hresult
      exact hresult

end Meets

/-- **Failures of a kind are those that leave no good state**, and nothing else leaves none. -/
def Foresees (x : EStateM ε σ α) (good : σ → Prop) (kind : ε → Prop) : Prop :=
  x.Meets good (fun _ => good) fun e s => good s ↔ ¬ kind e

namespace Foresees

variable {good : σ → Prop} {kind : ε → Prop}

theorem pure {a : α} : (Pure.pure a : EStateM ε σ α).Foresees good kind :=
  Meets.pure fun _ hs => hs

theorem throw {e : ε} (h : ¬ kind e) : (throw e : EStateM ε σ α).Foresees good kind :=
  Meets.throw fun _ hs => iff_of_true hs h

theorem modify {f : σ → σ} (h : ∀ s, good s → good (f s)) :
    (modify f : EStateM ε σ PUnit).Foresees good kind := Meets.modify h

/-- **The rule for sequences.** -/
theorem bind {x : EStateM ε σ α} {f : α → EStateM ε σ β} (hx : x.Foresees good kind)
    (hf : ∀ a, (f a).Foresees good kind) : (x >>= f).Foresees good kind := Meets.bind hx hf

/-- **How a program ended**: it leaves a good state exactly when no failure of the kind ended it. -/
theorem good_iff {x : EStateM ε σ α} (h : x.Foresees good kind) {s : σ} (hs : good s) :
    good (x.stateOf s) ↔ ∀ e s', x s = .error e s' → ¬ kind e := by
  have hresult := h s hs
  rw [stateOf]
  cases hx : x s with
  | ok a s' =>
      rw [hx] at hresult
      exact iff_of_true hresult (by nofun)
  | error e s' =>
      rw [hx] at hresult
      refine hresult.trans ⟨fun hnot e' s'' heq => ?_, fun hnot => hnot e s' rfl⟩
      cases heq
      exact hnot

end Foresees

end EStateM
