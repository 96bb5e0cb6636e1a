/-
**Timestamps with and without an offset.**

A producer may send a timestamp with an offset from UTC or without one.  Two timestamps with offsets
are compared and subtracted as instants, two without offsets by what they show; one of each kind is
a `TypeError`, also for `min` and `max`.  A sum has to stay in the calendar, and so has the UTC time
of a timestamp that is displayed.

Main definitions:

* `Timestamp`, `Timestamp.isAware`, `Timestamp.instant` — a `datetime`;
* `EngineError` — the exceptions of the engine;
* `Timestamp.lt`, `Timestamp.le`, `Timestamp.sub`, `Timestamp.add` — **comparisons and differences,
  which may raise**;
* `earliest`, `latest` — merging a timestamp into an optional one;
* `Runtime`, `Timestamp.astimezone`, `iso` — what is displayed.

Main results:

* `Timestamp.returns_lt_iff`, `Timestamp.returns_sub_iff` — which two timestamps are compared;
* `Timestamp.of_lt`, `Timestamp.of_sub`, `Timestamp.of_add` — what is computed of their instants;
* `earliest_kept`, `latest_kept` — merging timestamps of one kind;
* `earliest_instants`, `latest_instants` — **a merge that returns is the merge of the instants**.
-/

import ScheduledJobs.Fallible
import ScheduledJobs.ReduceVisibility
import ScheduledJobs.WireCodec

set_option relaxedAutoImplicit false
set_option autoImplicit false

namespace ScheduledJobs.Mixed

/-- The exceptions of the engine, and those of the operations it uses. -/
inductive EngineError
  | jobNotFound (jobId : String)
  | versionConflict (message : String)
  | valueError (message : String)
  | typeError (message : String)
  | overflowError (message : String)
  | memoryError
  deriving DecidableEq, Repr

/-- A `datetime`: what it shows, in microseconds after `datetime.min`, and its offset from UTC, if
it has one. -/
structure Timestamp where
  wall : ℤ
  offset : Option Timedelta
  /-- What is shown is a date of the calendar. -/
  wall_inRange : Datetime.InRange wall
  /-- An offset is less than a day. -/
  offset_inRange : ∀ o ∈ offset, -86400000000 < o ∧ o < 86400000000
  deriving DecidableEq

namespace Timestamp

variable (a b : Timestamp)

/-- The timestamp has an offset. -/
def isAware : Bool := a.offset.isSome

/-- What two timestamps of one kind are compared by: the instant of an aware timestamp, what is
shown by a naive one. -/
def instant : Datetime := a.wall - a.offset.getD 0

/-- `a < b`. -/
def lt : Except EngineError Bool :=
  if a.isAware = b.isAware then .ok (decide (a.instant < b.instant))
  else .error (.typeError "can't compare offset-naive and offset-aware datetimes")

/-- `a <= b`. -/
def le : Except EngineError Bool :=
  if a.isAware = b.isAware then .ok (decide (a.instant ≤ b.instant))
  else .error (.typeError "can't compare offset-naive and offset-aware datetimes")

/-- `a - b`. -/
def sub : Except EngineError Timedelta :=
  if a.isAware = b.isAware then .ok (a.instant - b.instant)
  else .error (.typeError "can't subtract offset-naive and offset-aware datetimes")

/-- `a + difference`: the sum is taken of what is shown, and has to be a date of the calendar. -/
def add (difference : Timedelta) : Except EngineError Timestamp :=
  if h : Datetime.InRange (a.wall + difference) then
    .ok { a with wall := a.wall + difference, wall_inRange := h }
  else .error (.overflowError "date value out of range")

variable {a b}

theorem lt_of_same (h : a.isAware = b.isAware) : a.lt b = .ok (decide (a.instant < b.instant)) :=
  if_pos h

theorem le_of_same (h : a.isAware = b.isAware) : a.le b = .ok (decide (a.instant ≤ b.instant)) :=
  if_pos h

theorem sub_of_same (h : a.isAware = b.isAware) : a.sub b = .ok (a.instant - b.instant) :=
  if_pos h

/-- **Two timestamps are compared exactly when they are of one kind.** -/
theorem returns_lt_iff : (a.lt b).Returns ↔ a.isAware = b.isAware := by
  unfold lt
  split
  · next h => exact iff_of_true (Except.returns_ok _) h
  · next h => exact iff_of_false (Except.not_returns_error _) h

theorem returns_le_iff : (a.le b).Returns ↔ a.isAware = b.isAware := by
  unfold le
  split
  · next h => exact iff_of_true (Except.returns_ok _) h
  · next h => exact iff_of_false (Except.not_returns_error _) h

/-- Nor are others subtracted. -/
theorem returns_sub_iff : (a.sub b).Returns ↔ a.isAware = b.isAware := by
  unfold sub
  split
  · next h => exact iff_of_true (Except.returns_ok _) h
  · next h => exact iff_of_false (Except.not_returns_error _) h

theorem returns_add_iff {difference : Timedelta} :
    (a.add difference).Returns ↔ Datetime.InRange (a.wall + difference) := by
  unfold add
  split
  · next h => exact iff_of_true (Except.returns_ok _) h
  · next h => exact iff_of_false (Except.not_returns_error _) h

/-- **What is compared and subtracted are the instants.** -/
theorem of_lt {earlier : Bool} (h : a.lt b = .ok earlier) :
    decide (a.instant < b.instant) = earlier := by
  rw [lt_of_same (returns_lt_iff.1 ⟨earlier, h⟩)] at h
  exact Except.ok.inj h

theorem of_le {earlier : Bool} (h : a.le b = .ok earlier) :
    decide (a.instant ≤ b.instant) = earlier := by
  rw [le_of_same (returns_le_iff.1 ⟨earlier, h⟩)] at h
  exact Except.ok.inj h

theorem of_sub {difference : Timedelta} (h : a.sub b = .ok difference) :
    a.instant - b.instant = difference := by
  rw [sub_of_same (returns_sub_iff.1 ⟨difference, h⟩)] at h
  exact Except.ok.inj h

/-- A sum is of the same kind, and at the sum of the instants. -/
theorem of_add {difference : Timedelta} {c : Timestamp} (h : a.add difference = .ok c) :
    c.isAware = a.isAware ∧ c.instant = a.instant + difference := by
  unfold add at h
  split at h
  · cases h
    exact ⟨rfl, sub_add_eq_add_sub _ _ _ |>.symm⟩
  · cases h

end Timestamp

/-! ### Merging -/

/-- `_earliest`: `min` keeps the first of two timestamps unless the second is before it. -/
def earliest : Option Timestamp → Option Timestamp → Except EngineError (Option Timestamp)
  | none, right => .ok right
  | left, none => .ok left
  | some left, some right => do
      return some (if ← right.lt left then right else left)

/-- `_latest`: `max` keeps the first of two timestamps unless the second is after it. -/
def latest : Option Timestamp → Option Timestamp → Except EngineError (Option Timestamp)
  | none, right => .ok right
  | left, none => .ok left
  | some left, some right => do
      return some (if ← left.lt right then right else left)

section Merging

variable {left : Option Timestamp} {right : Timestamp} {merged : Option Timestamp} {k : Bool}

/-- Timestamps of one kind are merged to one of this kind. -/
theorem earliest_kept (hleft : ∀ t ∈ left, t.isAware = k) (hright : right.isAware = k) :
    (earliest left right).Meets (fun m => ∀ t ∈ m, t.isAware = k) fun _ => False := by
  cases left with
  | none =>
      rintro t ht
      obtain rfl := Option.some_inj.1 ht
      exact hright
  | some l =>
      have hl : l.isAware = k := hleft l rfl
      rw [earliest, Timestamp.lt_of_same (hright.trans hl.symm)]
      rintro t ht
      obtain rfl := Option.some_inj.1 ht
      split
      · exact hright
      · exact hl

theorem latest_kept (hleft : ∀ t ∈ left, t.isAware = k) (hright : right.isAware = k) :
    (latest left right).Meets (fun m => ∀ t ∈ m, t.isAware = k) fun _ => False := by
  cases left with
  | none =>
      rintro t ht
      obtain rfl := Option.some_inj.1 ht
      exact hright
  | some l =>
      have hl : l.isAware = k := hleft l rfl
      rw [latest, Timestamp.lt_of_same (hl.trans hright.symm)]
      rintro t ht
      obtain rfl := Option.some_inj.1 ht
      split
      · exact hright
      · exact hl

/-- **A merge that returns merged timestamps of one kind.** -/
theorem same_of_earliest (h : earliest left right = .ok merged) :
    ∀ t ∈ left, t.isAware = right.isAware := by
  rintro t rfl
  obtain ⟨b, hb, -⟩ := Except.bind_eq_ok_iff.1 h
  exact (Timestamp.returns_lt_iff.1 ⟨b, hb⟩).symm

theorem same_of_latest (h : latest left right = .ok merged) :
    ∀ t ∈ left, t.isAware = right.isAware := by
  rintro t rfl
  obtain ⟨b, hb, -⟩ := Except.bind_eq_ok_iff.1 h
  exact Timestamp.returns_lt_iff.1 ⟨b, hb⟩

theorem earliest_isSome (h : earliest left right = .ok merged) : merged.isSome := by
  cases left with
  | none => cases h; rfl
  | some l =>
      obtain ⟨b, -, hm⟩ := Except.bind_eq_ok_iff.1 h
      cases hm
      rfl

theorem latest_isSome (h : latest left right = .ok merged) : merged.isSome := by
  cases left with
  | none => cases h; rfl
  | some l =>
      obtain ⟨b, -, hm⟩ := Except.bind_eq_ok_iff.1 h
      cases hm
      rfl

/-- **A merge that returns is the merge of the instants.** -/
theorem earliest_instants (h : earliest left right = .ok merged) :
    merged.map Timestamp.instant =
      ScheduledJobs.earliest (left.map Timestamp.instant) right.instant := by
  have hsame := same_of_earliest h
  cases left with
  | none => cases h; rfl
  | some l =>
      rw [earliest, Timestamp.lt_of_same (hsame l rfl).symm] at h
      cases h
      simp only [decide_eq_true_eq, Option.map_some, ScheduledJobs.earliest]
      split
      · next hlt => exact congrArg some (min_eq_right hlt.le).symm
      · next hle => exact congrArg some (min_eq_left (not_lt.1 hle)).symm

theorem latest_instants (h : latest left right = .ok merged) :
    merged.map Timestamp.instant =
      ScheduledJobs.latest (left.map Timestamp.instant) right.instant := by
  have hsame := same_of_latest h
  cases left with
  | none => cases h; rfl
  | some l =>
      rw [latest, Timestamp.lt_of_same (hsame l rfl)] at h
      cases h
      simp only [decide_eq_true_eq, Option.map_some, ScheduledJobs.latest]
      split
      · next hlt => exact congrArg some (max_eq_right hlt.le).symm
      · next hle => exact congrArg some (max_eq_left (not_lt.1 hle)).symm

end Merging

/-! ### Displaying -/

/-- What the process runs on. -/
structure Runtime where
  /-- `astimezone(UTC)` of a naive timestamp, which is taken for a time in the zone of the machine:
  the instant, or the exception. -/
  localToUtc : ℤ → Except EngineError Datetime
  /-- The length of the longest list that fits in memory. -/
  listLimit : ℕ

variable (runtime : Runtime)

/-- `astimezone(UTC)`. -/
def Timestamp.astimezone (t : Timestamp) : Except EngineError Datetime :=
  match t.offset with
  | none => runtime.localToUtc t.wall
  | some _ =>
      if Datetime.InRange t.instant then .ok t.instant
      else .error (.overflowError "date value out of range")

/-- `iso` of a timestamp. -/
def Timestamp.iso (t : Timestamp) : Except EngineError String := do
  let utc ← t.astimezone runtime
  return ScheduledJobs.iso utc

/-- `iso`. -/
def iso : Option Timestamp → Except EngineError (Option String)
  | none => return none
  | some value => do
      let text ← value.iso runtime
      return some text

/-- **A timestamp is displayed when it has a UTC time.** -/
theorem Timestamp.returns_iso_iff {t : Timestamp} :
    (t.iso runtime).Returns ↔ (t.astimezone runtime).Returns := by
  rw [Timestamp.iso, Except.returns_bind_iff_and (Q := True) fun _ => by simp, and_true]

theorem returns_iso_iff {value : Option Timestamp} :
    (iso runtime value).Returns ↔ ∀ t ∈ value, (t.astimezone runtime).Returns := by
  cases value with
  | none => simp [iso]
  | some t =>
      rw [iso, Except.returns_bind_iff_and (Q := True) fun _ => by simp, and_true,
        Timestamp.returns_iso_iff]
      simp

/-- An aware timestamp is displayed as its instant. -/
theorem Timestamp.iso_of_aware {t : Timestamp} {text : String} (haware : t.isAware = true)
    (h : t.iso runtime = .ok text) : text = ScheduledJobs.iso t.instant := by
  obtain ⟨utc, hutc, htext⟩ := Except.bind_eq_ok_iff.1 h
  obtain ⟨o, ho⟩ := Option.isSome_iff_exists.1 haware
  simp only [Timestamp.astimezone, ho] at hutc
  split at hutc
  · cases hutc
    cases htext
    rfl
  · cases hutc

theorem iso_of_aware {value : Option Timestamp} {text : Option String}
    (haware : ∀ t ∈ value, t.isAware = true) (h : iso runtime value = .ok text) :
    text = (value.map Timestamp.instant).map ScheduledJobs.iso := by
  cases value with
  | none => cases h; rfl
  | some t =>
      obtain ⟨s, hs, htext⟩ := Except.bind_eq_ok_iff.1 h
      cases htext
      rw [Timestamp.iso_of_aware runtime (haware t rfl) hs]
      rfl

/-! ### Intervals -/

/-- The seconds are an interval that `timedelta` can hold. -/
def IsTimedelta (n : ℤ) : Prop := -999999999 ≤ n / 86400 ∧ n / 86400 ≤ 999999999

instance (n : ℤ) : Decidable (IsTimedelta n) := inferInstanceAs (Decidable (_ ∧ _))

/-- `timedelta(seconds=n)`. -/
def timedelta (n : ℤ) : Except EngineError Timedelta :=
  if IsTimedelta n then .ok (seconds n)
  else .error (.overflowError s!"days={n / 86400}; must have magnitude <= 999999999")

theorem timedelta_eq_ok_iff {n : ℤ} {d : Timedelta} :
    timedelta n = .ok d ↔ IsTimedelta n ∧ seconds n = d := by
  unfold timedelta
  split
  · next h => simp [h]
  · next h => simp [h]

theorem returns_timedelta_iff {n : ℤ} : (timedelta n).Returns ↔ IsTimedelta n := by
  simp only [Except.Returns, timedelta_eq_ok_iff, exists_and_left, exists_eq', and_true]

/-- A threshold that is used has been reached. -/
theorem Timestamp.exists_of_reach {t : Timestamp} {n : ℤ} {α : Type}
    {f : Timestamp → Except EngineError α} {r : α}
    (h : (timedelta n >>= fun difference => t.add difference >>= f) = .ok r) :
    ∃ threshold : Timestamp, threshold.instant = t.instant + seconds n ∧ f threshold = .ok r := by
  obtain ⟨difference, hdifference, hrest⟩ := Except.bind_eq_ok_iff.1 h
  obtain ⟨threshold, hthreshold, hused⟩ := Except.bind_eq_ok_iff.1 hrest
  obtain ⟨-, rfl⟩ := timedelta_eq_ok_iff.1 hdifference
  exact ⟨threshold, (Timestamp.of_add hthreshold).2, hused⟩

end ScheduledJobs.Mixed
