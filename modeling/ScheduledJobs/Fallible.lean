/-
**Computations that may fail, and what holds of their results.**

A computation in `Except` meets a pair of postconditions when its value, if it returns one, meets
the first, and its error, if it fails, meets the second.  The rules follow the program: a sequence
meets what its second part meets after every value of the first, and a fold meets what each of its
steps preserves.

Main definitions:

* `Except.Meets` — the pair of postconditions;
* `Except.Returns` — a computation that returns;
* `Except.keep` — the elements that pass a test that may fail.

Main results:

* `Except.bind_eq_ok_iff`, `Except.mapError_eq_ok_iff` — when a sequence returns, and when a
  computation does whose errors are renamed;
* `Except.Meets.bind`, `Except.Meets.foldlM` — **the rules for sequences and folds**;
* `Except.returns_bind_iff`, `Except.returns_mapM_iff`, `Except.returns_keep_iff` — when a sequence,
  a mapped list and a filtered list return.
-/

import Mathlib.Data.List.Basic

set_option relaxedAutoImplicit false
set_option autoImplicit false

universe u v w

namespace Except

variable {ε : Type u} {α β : Type v}

@[simp] theorem ok_bind (a : α) (f : α → Except ε β) : (Except.ok a >>= f) = f a := rfl

/-- A sequence of two computations returns when both do. -/
theorem bind_eq_ok_iff {x : Except ε α} {f : α → Except ε β} {b : β} :
    (x >>= f) = .ok b ↔ ∃ a, x = .ok a ∧ f a = .ok b := by
  cases x with
  | error e => simp [bind, Except.bind]
  | ok a => simp [bind, Except.bind]

theorem map_eq_ok_iff {x : Except ε α} {f : α → β} {b : β} :
    f <$> x = .ok b ↔ ∃ a, x = .ok a ∧ f a = b := by
  cases x <;> simp

/-- Renaming errors makes nothing return. -/
theorem mapError_eq_ok_iff {ε' : Type u} {x : Except ε α} {f : ε → ε'} {a : α} :
    x.mapError f = .ok a ↔ x = .ok a := by
  cases x <;> simp [Except.mapError]

theorem toOption_eq_some_iff {x : Except ε α} {a : α} : x.toOption = some a ↔ x = .ok a := by
  cases x <;> simp [Except.toOption]

/-- The value meets `P`, or the error meets `E`. -/
def Meets (x : Except ε α) (P : α → Prop) (E : ε → Prop) : Prop :=
  match x with
  | .ok a => P a
  | .error e => E e

variable {P : α → Prop} {E : ε → Prop}

@[simp] theorem meets_ok {a : α} : (Except.ok a : Except ε α).Meets P E ↔ P a := Iff.rfl

@[simp] theorem meets_error {e : ε} : (Except.error e : Except ε α).Meets P E ↔ E e := Iff.rfl

@[simp] theorem meets_pure {a : α} : (pure a : Except ε α).Meets P E ↔ P a := Iff.rfl

namespace Meets

theorem of_ok {x : Except ε α} {a : α} (h : x.Meets P E) (hx : x = .ok a) : P a := by
  subst hx
  exact h

theorem of_error {x : Except ε α} {e : ε} (h : x.Meets P E) (hx : x = .error e) : E e := by
  subst hx
  exact h

theorem any {x : Except ε α} : x.Meets (fun _ => True) fun _ => True := by
  cases x <;> trivial

/-- Weaker postconditions, where the value is one the computation returns. -/
theorem imp {x : Except ε α} {Q : α → Prop} (h : x.Meets P E)
    (hpq : ∀ a, x = .ok a → P a → Q a) : x.Meets Q E := by
  cases x with
  | error e => exact h
  | ok a => exact hpq a rfl h

/-- A weaker postcondition of the errors. -/
theorem imp_error {x : Except ε α} {E' : ε → Prop} (h : x.Meets P E) (he : ∀ e, E e → E' e) :
    x.Meets P E' := by
  cases x with
  | error e => exact he e h
  | ok a => exact h

/-- **The rule for sequences.** -/
theorem bind {x : Except ε α} {f : α → Except ε β} {Q : β → Prop} (h : x.Meets P E)
    (hf : ∀ a, x = .ok a → P a → (f a).Meets Q E) : (x >>= f).Meets Q E := by
  cases x with
  | error e => exact h
  | ok a => exact hf a rfl h

/-- **The rule for folds**: the invariant is on what is left of the list. -/
theorem foldlM {γ : Type w} {f : α → γ → Except ε α} {I : List γ → α → Prop}
    (hf : ∀ c cs a, I (c :: cs) a → (f a c).Meets (I cs) E) (cs : List γ) {a : α}
    (ha : I cs a) : (cs.foldlM f a).Meets (I []) E := by
  induction cs generalizing a with
  | nil => exact ha
  | cons c cs ih =>
      rw [List.foldlM_cons]
      refine (hf c cs a ha).bind ?_
      intro b _ hb
      exact ih hb

end Meets

/-! ### Returning -/

/-- The computation returns. -/
def Returns (x : Except ε α) : Prop := ∃ a, x = .ok a

@[simp] theorem returns_ok (a : α) : (Except.ok a : Except ε α).Returns := ⟨a, rfl⟩

@[simp] theorem returns_pure (a : α) : (pure a : Except ε α).Returns := ⟨a, rfl⟩

@[simp] theorem not_returns_error (e : ε) : ¬ (Except.error e : Except ε α).Returns := by
  rintro ⟨a, h⟩
  cases h

instance (x : Except ε α) : Decidable x.Returns :=
  decidable_of_iff (x.toBool = true) (by cases x <;> simp [Except.toBool])

/-- **When a sequence returns**. -/
theorem returns_bind_iff {x : Except ε α} {f : α → Except ε β} :
    (x >>= f).Returns ↔ ∃ a, x = .ok a ∧ (f a).Returns := by
  cases x with
  | error e => exact iff_of_false (not_returns_error e) fun ⟨a, h, _⟩ => by cases h
  | ok a =>
      constructor
      · exact fun h => ⟨a, rfl, h⟩
      · rintro ⟨a', h, hf⟩
        cases h
        exact hf

/-- A sequence whose second part does not depend on the first for whether it returns. -/
theorem returns_bind_iff_and {x : Except ε α} {f : α → Except ε β} {Q : Prop}
    (hf : ∀ a, (f a).Returns ↔ Q) : (x >>= f).Returns ↔ x.Returns ∧ Q := by
  rw [returns_bind_iff]
  constructor
  · rintro ⟨a, ha, h⟩
    exact ⟨⟨a, ha⟩, (hf a).1 h⟩
  · rintro ⟨⟨a, ha⟩, hq⟩
    exact ⟨a, ha, (hf a).2 hq⟩

@[simp] theorem returns_map_iff {x : Except ε α} {f : α → β} : (f <$> x).Returns ↔ x.Returns := by
  cases x with
  | error e => exact iff_of_false (not_returns_error e) (not_returns_error e)
  | ok a => exact iff_of_true (returns_ok (f a)) (returns_ok a)

/-- What meets no error returns. -/
theorem Meets.returns {x : Except ε α} {P : α → Prop} (h : x.Meets P fun _ => False) :
    x.Returns := by
  cases x with
  | error e => exact h.elim
  | ok a => exact returns_ok a

/-! ### Mapping a list -/

/-- A list is mapped when its head and its tail are. -/
theorem mapM_cons_eq_ok_iff {f : α → Except ε β} {a : α} {as : List α} {bs : List β} :
    (a :: as).mapM f = .ok bs ↔
      ∃ b, f a = .ok b ∧ ∃ rest, as.mapM f = .ok rest ∧ b :: rest = bs := by
  rw [List.mapM_cons, bind_eq_ok_iff]
  simp only [bind_eq_ok_iff, pure, Except.pure, Except.ok.injEq]

/-- A list that is mapped is mapped at each of its members. -/
theorem exists_of_mapM_eq_ok {f : α → Except ε β} {as : List α} {bs : List β}
    (h : as.mapM f = .ok bs) : ∀ a ∈ as, ∃ b, f a = .ok b := by
  induction as generalizing bs with
  | nil => simp
  | cons a as ih =>
      obtain ⟨b, hb, rest, hrest, -⟩ := mapM_cons_eq_ok_iff.1 h
      exact List.forall_mem_cons.2 ⟨⟨b, hb⟩, ih hrest⟩

/-- **A list is mapped exactly when each of its members is.** -/
theorem returns_mapM_iff {f : α → Except ε β} {as : List α} :
    (as.mapM f).Returns ↔ ∀ a ∈ as, (f a).Returns := by
  induction as with
  | nil => simp
  | cons a as ih =>
      rw [List.mapM_cons, List.forall_mem_cons, ← ih]
      refine returns_bind_iff_and fun b => ?_
      rw [returns_bind_iff_and (Q := True) fun rest => iff_true_intro (returns_pure (b :: rest)),
        and_true]

/-- A list that is mapped is mapped by a function that gives the values. -/
theorem filterMap_eq_of_mapM_eq_ok {f : α → Except ε β} {g : α → Option β} {as : List α}
    {bs : List β} (hf : ∀ a ∈ as, ∀ b, f a = .ok b → g a = some b) (h : as.mapM f = .ok bs) :
    as.filterMap g = bs := by
  induction as generalizing bs with
  | nil => exact Except.ok.inj h
  | cons a as ih =>
      obtain ⟨b, hb, rest, hrest, rfl⟩ := mapM_cons_eq_ok_iff.1 h
      rw [List.forall_mem_cons] at hf
      rw [List.filterMap_cons_some (hf.1 b hb), ih hf.2 hrest]

theorem map_eq_of_mapM_eq_ok {f : α → Except ε β} {g : α → β} {as : List α} {bs : List β}
    (hf : ∀ a ∈ as, ∀ b, f a = .ok b → g a = b) (h : as.mapM f = .ok bs) : as.map g = bs := by
  rw [← List.filterMap_eq_map]
  exact filterMap_eq_of_mapM_eq_ok (fun a ha b hb => congrArg some (hf a ha b hb)) h

/-- A map that returns what it is given returns the list. -/
theorem mapM_eq_self {f : α → Except ε α} {as bs : List α}
    (hf : ∀ a ∈ as, ∀ b, f a = .ok b → b = a) (h : as.mapM f = .ok bs) : bs = as := by
  rw [← map_eq_of_mapM_eq_ok (fun a ha b hb => (hf a ha b hb).symm) h]
  exact List.map_id as

/-- A map with one kind of failure fails with it, unless it returns the list. -/
theorem mapM_eq_ite {f : α → Except ε α} {as : List α} {e : ε} {p : α → Prop} [DecidablePred p]
    (hf : ∀ a ∈ as, f a = if p a then .error e else .ok a) :
    as.mapM f = if ∃ a ∈ as, p a then .error e else .ok as := by
  induction as with
  | nil => simp [pure, Except.pure]
  | cons a as ih =>
      rw [List.forall_mem_cons] at hf
      rw [List.mapM_cons, hf.1, ih hf.2]
      by_cases hp : p a
      · simp [hp, bind, Except.bind]
      · by_cases hrest : ∃ a ∈ as, p a
        · simp [hp, hrest, bind, Except.bind]
        · simp [hp, hrest, bind, Except.bind, pure, Except.pure]

/-! ### Filtering a list -/

section Keep

variable {γ : Type} {ε : Type u}

/-- The elements that pass a test that may fail. -/
def keep (p : γ → Except ε Bool) : List γ → Except ε (List γ)
  | [] => .ok []
  | c :: cs => do
      let passes ← p c
      let kept ← keep p cs
      return if passes then c :: kept else kept

/-- **A list is filtered exactly when each of its members is tested.** -/
theorem returns_keep_iff {p : γ → Except ε Bool} {cs : List γ} :
    (keep p cs).Returns ↔ ∀ c ∈ cs, (p c).Returns := by
  induction cs with
  | nil => simp [keep]
  | cons c cs ih =>
      rw [keep, List.forall_mem_cons, ← ih]
      refine returns_bind_iff_and fun passes => ?_
      rw [returns_bind_iff_and (Q := True) fun kept => iff_true_intro (returns_pure _), and_true]

/-- A list that is filtered is filtered by the test that gives the values. -/
theorem filter_eq_of_keep_eq_ok {p : γ → Except ε Bool} {q : γ → Bool} {cs kept : List γ}
    (hp : ∀ c ∈ cs, ∀ passes, p c = .ok passes → q c = passes) (h : keep p cs = .ok kept) :
    cs.filter q = kept := by
  induction cs generalizing kept with
  | nil => exact Except.ok.inj h
  | cons c cs ih =>
      obtain ⟨passes, hpasses, hrest⟩ := bind_eq_ok_iff.1 h
      obtain ⟨rest, hkeep, hkept⟩ := bind_eq_ok_iff.1 hrest
      rw [List.forall_mem_cons] at hp
      rw [List.filter_cons, hp.1 passes hpasses, ih hp.2 hkeep]
      exact Except.ok.inj hkept

end Keep

end Except
