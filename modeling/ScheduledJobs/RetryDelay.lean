/-
**The delay before a record is published again.**

The delay is drawn between half of and the whole of a ceiling, which doubles with every attempt up
to a maximum.  The maximum is taken after the doubling, and a power of two that has no double raises
`OverflowError`.  The database adds the delay to its clock: an interval is a number of microseconds
that fits in 64 bits, and the sum has to be a timestamp.

Floats are those of double precision: the settings are doubles or infinite, every operation is
rounded, and a product that is too large is infinite.  The half of an infinite ceiling is infinite,
and what is drawn between the two is not a number, which is no interval for the database.

Main definitions:

* `PyFloat`, `RetryTuning` — floats, and the settings of the retries;
* `RetryTuning.whole`, `RetryTuning.ceiling` — the ceiling as it should be, and as it is computed;
* `delayUpTo`, `nextAttemptAt` — the delay, and the time of the next attempt;
* `RetryTuning.Bounded` — **the ceiling can be computed, and a delay of it added to the clock**.

Main results:

* `RetryTuning.ceiling_of_lt`, `RetryTuning.ceiling_of_not_lt` — when the ceiling is what it should
  be;
* `half_le_delay`, `delay_le`, `exists_delayUpTo_eq` — the delay is between half of the ceiling and
  the whole, and may be the whole;
* `RetryTuning.exists_nextAttemptAt`, `RetryTuning.exists_nextAttemptAt_error` — **when there is a
  next attempt**.
-/

import ScheduledJobs.BinaryRounding
import ScheduledJobs.Fallible
import ScheduledJobs.VisibilityModel

set_option relaxedAutoImplicit false
set_option autoImplicit false

namespace ScheduledJobs

open Binary

/-! ### Floats -/

/-- A float that is neither negative nor `nan`. -/
inductive PyFloat
  | finite (q : ℚ)
  | inf
  deriving DecidableEq

/-- The bound of the finite doubles. -/
def doubleBound : ℚ := 2 ^ 1024

namespace PyFloat

/-- The float is a double. -/
def IsDouble : PyFloat → Prop
  | finite q => binary64.Represents q ∧ q < doubleBound
  | inf => True

/-- The result of an operation, rounded. -/
def ofExact (q : ℚ) : PyFloat :=
  if doubleBound ≤ binary64.round q then inf else finite (binary64.round q)

/-- `a < b`. -/
def lt : PyFloat → PyFloat → Bool
  | finite p, finite q => p < q
  | finite _, inf => true
  | inf, _ => false

/-- `min(a, b)`. -/
def min (a b : PyFloat) : PyFloat := if b.lt a then b else a

/-- The product with a number, as it should be. -/
def scale : PyFloat → ℚ → PyFloat
  | finite q, r => finite (q * r)
  | inf, _ => inf

end PyFloat

/-- What `_failed` raises. -/
inductive PublisherError
  /-- `int too large to convert to float`. -/
  | overflow
  /-- `interval out of range`. -/
  | intervalOutOfRange
  /-- `timestamp out of range`. -/
  | timestampOutOfRange
  deriving DecidableEq, Repr

/-- The product of a float and a positive integer: the integer becomes a float first. -/
def PyFloat.mulInt (x : PyFloat) (n : ℕ) : Except PublisherError PyFloat :=
  match x, ofExact n with
  | _, inf => .error .overflow
  | inf, finite _ => .ok inf
  | finite q, finite r => .ok (ofExact (q * r))

/-! ### The delay -/

/-- The settings of the retries. -/
structure RetryTuning where
  retryInitial : PyFloat := .finite 1
  retryMax : PyFloat := .finite 60

namespace RetryTuning

variable (tuning : RetryTuning)

/-- What `OutboxTuning` makes sure of. -/
structure Valid : Prop where
  initial_isDouble : tuning.retryInitial.IsDouble
  max_isDouble : tuning.retryMax.IsDouble
  /-- `gt=0`. -/
  initial_pos : (PyFloat.finite 0).lt tuning.retryInitial = true
  /-- `initial outbox retry cannot exceed maximum retry`. -/
  ordered : tuning.retryMax.lt tuning.retryInitial = false

/-- `min(retry_max, retry_initial * 2**attempts)`, as it should be. -/
def whole (attempts : ℕ) : PyFloat :=
  tuning.retryMax.min (tuning.retryInitial.scale (2 ^ attempts))

/-- `min(retry_max, retry_initial * 2**attempts)`. -/
def ceiling (attempts : ℕ) : Except PublisherError PyFloat := do
  let product ← tuning.retryInitial.mulInt (2 ^ attempts)
  return tuning.retryMax.min product

end RetryTuning

/-- `random()`: a number below one. -/
structure Drawn where
  value : ℚ
  nonneg : 0 ≤ value := by norm_num
  lt_one : value < 1 := by norm_num

/-- The half of a float. -/
def halfOf (c : ℚ) : ℚ := binary64.round (c / 2)

/-- `random.uniform(c / 2, c)`: half of it, and a part of what is left. -/
def delayUpTo (c : ℚ) (drawn : Drawn) : ℚ :=
  binary64.round (halfOf c +
    binary64.round (binary64.round (c - halfOf c) * drawn.value))

/-- `random.uniform(ceiling / 2, ceiling)`, if it is a number. -/
def uniform? (drawn : Drawn) : PyFloat → Option ℚ
  | .finite c => some (delayUpTo c drawn)
  | .inf => none

/-! ### The clock of the database -/

/-- The microseconds of a delay: a product of floats, rounded to an integer. -/
def microseconds (delay : ℚ) : Timedelta := roundEven (binary64.round (delay * 1000000))

/-- `make_interval(secs => delay)`. -/
def makeInterval : Option ℚ → Except PublisherError Timedelta
  | some delay =>
      if microseconds delay < 2 ^ 63 then .ok (microseconds delay) else .error .intervalOutOfRange
  | none => .error .intervalOutOfRange

/-- The first time that is no `timestamptz`: the year 294277 begins. -/
def endOfTimestamps : Datetime := 9286453612800000000

/-- `clock_timestamp() + make_interval(secs => delay)`, for a delay that is not negative. -/
def nextAttemptAt (now : Datetime) (delay : Option ℚ) : Except PublisherError Datetime := do
  let interval ← makeInterval delay
  if now + interval < endOfTimestamps then return now + interval
  else throw .timestampOutOfRange

/-- A delay of the length can be added to the clock. -/
def WithinTimestamps (now : Datetime) (delay : ℚ) : Prop :=
  microseconds delay < 2 ^ 63 ∧ now + microseconds delay < endOfTimestamps

/-- **The ceiling can be computed, and a delay of it added to the clock.** -/
def RetryTuning.Bounded (tuning : RetryTuning) (attempts : ℕ) (now : Datetime) : Prop :=
  attempts < 1024 ∧ ∃ c, tuning.whole attempts = .finite c ∧ WithinTimestamps now c

theorem nextAttemptAt_of_within {now : Datetime} {delay : ℚ} (h : WithinTimestamps now delay) :
    nextAttemptAt now (some delay) = .ok (now + microseconds delay) := by
  simp only [nextAttemptAt, makeInterval, if_pos h.1, Except.ok_bind, if_pos h.2]
  rfl

theorem nextAttemptAt_of_not_within {now : Datetime} {delay : ℚ}
    (h : ¬ WithinTimestamps now delay) : ∃ e, nextAttemptAt now (some delay) = .error e := by
  by_cases hinterval : microseconds delay < 2 ^ 63
  · have hsum : ¬ now + microseconds delay < endOfTimestamps := fun hlt => h ⟨hinterval, hlt⟩
    refine ⟨.timestampOutOfRange, ?_⟩
    simp only [nextAttemptAt, makeInterval, if_pos hinterval, Except.ok_bind, if_neg hsum]
    rfl
  · refine ⟨.intervalOutOfRange, ?_⟩
    simp only [nextAttemptAt, makeInterval, if_neg hinterval]
    rfl

theorem microseconds_mono {d d' : ℚ} (hd : 0 ≤ d) (h : d ≤ d') :
    microseconds d ≤ microseconds d' :=
  roundEven_mono (Format.round_mono (by positivity) (by linarith))

/-- A shorter delay can be added as well. -/
theorem WithinTimestamps.of_le {now : Datetime} {d d' : ℚ} (h : WithinTimestamps now d')
    (hd : 0 ≤ d) (hle : d ≤ d') : WithinTimestamps now d := by
  have hmono := microseconds_mono hd hle
  exact ⟨hmono.trans_lt h.1, (by linarith : now + microseconds d ≤ _).trans_lt h.2⟩

/-- A delay has more microseconds than seconds. -/
theorem two_pow_le_microseconds {n : ℕ} {delay : ℚ} (h : ((2 ^ n : ℕ) : ℚ) ≤ delay) :
    ((2 ^ n : ℕ) : ℤ) ≤ microseconds delay := by
  have hpos : (0 : ℚ) ≤ ((2 ^ n : ℕ) : ℚ) := Nat.cast_nonneg _
  have hround := Format.round_mono (f := binary64) (r := delay * 1000000) hpos (by linarith)
  rw [Format.round_of_represents (binary64_represents_two_pow n)] at hround
  refine (roundEven_intCast _).symm.trans_le (roundEven_mono ?_)
  rwa [Int.cast_natCast]

/-- A delay that can be added is a double. -/
theorem WithinTimestamps.lt_doubleBound {now : Datetime} {c : ℚ} (h : WithinTimestamps now c) :
    c < doubleBound := by
  by_contra hlarge
  have hbound : ((2 ^ 63 : ℕ) : ℚ) ≤ c := by
    refine le_trans ?_ (not_lt.mp hlarge)
    rw [doubleBound, Nat.cast_pow, Nat.cast_ofNat]
    exact pow_le_pow_right₀ (by norm_num) (by norm_num)
  have hinterval := two_pow_le_microseconds hbound
  rw [Nat.cast_pow, Nat.cast_ofNat] at hinterval
  exact hinterval.not_gt h.1

/-! ### When the ceiling is computed -/

/-- A number of the format is its own float, or too large for one. -/
theorem ofExact_of_represents {q : ℚ} (h : binary64.Represents q) :
    PyFloat.ofExact q = if doubleBound ≤ q then .inf else .finite q := by
  rw [PyFloat.ofExact, Format.round_of_represents h]

theorem doubleBound_le_two_pow_iff {n : ℕ} : doubleBound ≤ ((2 ^ n : ℕ) : ℚ) ↔ 1024 ≤ n := by
  rw [doubleBound, Nat.cast_pow, Nat.cast_ofNat]
  exact pow_le_pow_iff_right₀ (by norm_num)

/-- The float of a power of two. -/
theorem ofExact_two_pow (n : ℕ) :
    PyFloat.ofExact ((2 ^ n : ℕ) : ℚ) = if 1024 ≤ n then .inf else .finite (2 ^ n) := by
  rw [ofExact_of_represents (binary64_represents_two_pow n)]
  simp only [doubleBound_le_two_pow_iff]
  rw [Nat.cast_pow, Nat.cast_ofNat]

/-- **From some power of two on, there is no float for it.** -/
theorem mulInt_of_le (x : PyFloat) {n : ℕ} (hn : 1024 ≤ n) :
    x.mulInt (2 ^ n) = .error .overflow := by
  unfold PyFloat.mulInt
  rw [ofExact_two_pow, if_pos hn]

theorem mulInt_inf {n : ℕ} (hn : n < 1024) : PyFloat.inf.mulInt (2 ^ n) = .ok .inf := by
  unfold PyFloat.mulInt
  rw [ofExact_two_pow, if_neg (not_le.mpr hn)]

theorem mulInt_finite {q : ℚ} (hq : binary64.Represents q) {n : ℕ} (hn : n < 1024) :
    (PyFloat.finite q).mulInt (2 ^ n) =
      .ok (if doubleBound ≤ q * 2 ^ n then .inf else .finite (q * 2 ^ n)) := by
  unfold PyFloat.mulInt
  rw [ofExact_two_pow, if_neg (not_le.mpr hn)]
  exact congrArg Except.ok (ofExact_of_represents (hq.mul_two_pow n))

namespace RetryTuning

variable {tuning : RetryTuning} {n : ℕ} {c : ℚ}

/-- A ceiling that is finite is a double that is not negative, or too large for one. -/
theorem represents_of_whole (hvalid : tuning.Valid) (h : tuning.whole n = .finite c) :
    binary64.Represents c ∧ 0 ≤ c := by
  obtain ⟨hinitial, hmax, hpos, hordered⟩ := hvalid
  revert h
  rw [whole, PyFloat.min]
  split
  · -- the product
    cases hfirst : tuning.retryInitial with
    | inf => exact nofun
    | finite q =>
        rw [hfirst] at hinitial hpos
        rintro ⟨⟩
        have hq : 0 < q := of_decide_eq_true hpos
        exact ⟨hinitial.1.mul_two_pow n, by positivity⟩
  · -- the maximum, which is not below the first delay
    intro hc
    rw [hc] at hmax hordered
    refine ⟨hmax.1, ?_⟩
    cases hfirst : tuning.retryInitial with
    | inf =>
        rw [hfirst] at hordered
        cases hordered
    | finite q =>
        rw [hfirst] at hpos hordered
        have hq : 0 < q := of_decide_eq_true hpos
        exact hq.le.trans (not_lt.mp (of_decide_eq_false hordered))

/-- **A ceiling that is a double is computed** if the power of two is one. -/
theorem ceiling_of_lt (hvalid : tuning.Valid) (hn : n < 1024) (h : tuning.whole n = .finite c)
    (hc : c < doubleBound) : tuning.ceiling n = .ok (.finite c) := by
  obtain ⟨hinitial, -, -, -⟩ := hvalid
  rw [whole] at h
  rw [ceiling]
  cases hfirst : tuning.retryInitial with
  | inf =>
      rw [hfirst, PyFloat.scale] at h
      rw [mulInt_inf hn]
      exact congrArg Except.ok h
  | finite q =>
      rw [hfirst] at h hinitial
      rw [PyFloat.scale] at h
      rw [mulInt_finite hinitial.1 hn]
      by_cases hlarge : doubleBound ≤ q * 2 ^ n
      · -- the product is infinite, and as it should be it is above the maximum
        rw [if_pos hlarge]
        refine congrArg Except.ok ?_
        have hnot : ¬ q * 2 ^ n = c := fun heq => (heq ▸ hlarge).not_gt hc
        cases hmax : tuning.retryMax with
        | inf =>
            rw [hmax] at h
            exact absurd (PyFloat.finite.inj h) hnot
        | finite m =>
            rw [hmax] at h
            rw [PyFloat.min] at h
            split at h
            · exact absurd (PyFloat.finite.inj h) hnot
            · exact h
      · rw [if_neg hlarge]
        exact congrArg Except.ok h

/-- Otherwise it overflows, or is infinite. -/
theorem ceiling_of_not_lt (hvalid : tuning.Valid)
    (h : ¬ (n < 1024 ∧ ∃ c, tuning.whole n = .finite c ∧ c < doubleBound)) :
    tuning.ceiling n = .error .overflow ∨ tuning.ceiling n = .ok .inf := by
  obtain ⟨hinitial, hmaximum, -, -⟩ := hvalid
  rw [ceiling]
  by_cases hn : 1024 ≤ n
  · rw [mulInt_of_le _ hn]
    exact Or.inl rfl
  · right
    have hlt := not_le.mp hn
    have hlarge : ∀ c, tuning.whole n = .finite c → doubleBound ≤ c :=
      fun c hc => not_lt.mp fun hsmall => h ⟨hlt, c, hc, hsmall⟩
    cases hmax : tuning.retryMax with
    | finite m =>
        -- a ceiling below a finite maximum is a double
        exfalso
        rw [hmax] at hmaximum
        rw [whole, hmax] at hlarge
        cases hfirst : tuning.retryInitial with
        | inf =>
            rw [hfirst] at hlarge
            exact (hlarge m rfl).not_gt hmaximum.2
        | finite q =>
            rw [hfirst, PyFloat.scale, PyFloat.min] at hlarge
            by_cases hbelow : (PyFloat.finite (q * 2 ^ n)).lt (.finite m) = true
            · rw [if_pos hbelow] at hlarge
              have hless : q * 2 ^ n < m := of_decide_eq_true hbelow
              exact (hlarge _ rfl).not_gt (hless.trans hmaximum.2)
            · rw [if_neg hbelow] at hlarge
              exact (hlarge m rfl).not_gt hmaximum.2
    | inf =>
        cases hfirst : tuning.retryInitial with
        | inf =>
            rw [mulInt_inf hlt]
            rfl
        | finite q =>
            rw [hfirst] at hinitial
            have hproduct : doubleBound ≤ q * 2 ^ n := by
              refine hlarge _ ?_
              rw [whole, hmax, hfirst]
              rfl
            rw [mulInt_finite hinitial.1 hlt, if_pos hproduct]
            rfl

end RetryTuning

/-! ### Between the half and the whole -/

theorem halfOf_nonneg {c : ℚ} (hc : 0 ≤ c) : 0 ≤ halfOf c := Format.round_nonneg (by positivity)

/-- What is left of a ceiling over its half. -/
theorem halfOf_le {c : ℚ} (hc : binary64.Represents c) (hpos : 0 ≤ c) : halfOf c ≤ c := by
  have hmono := Format.round_mono (f := binary64) (q := c / 2) (r := c) (by positivity)
    (by linarith)
  rwa [Format.round_of_represents hc] at hmono

/-- The part of what is left that is drawn. -/
theorem part_le {c : ℚ} (hc : binary64.Represents c) (hpos : 0 ≤ c) (drawn : Drawn) :
    0 ≤ binary64.round (binary64.round (c - halfOf c) * drawn.value) ∧
      binary64.round (binary64.round (c - halfOf c) * drawn.value) ≤ c - halfOf c := by
  have hleft : binary64.Represents (c - halfOf c) := Format.represents_sub_half hc
  have hnonneg : 0 ≤ c - halfOf c := sub_nonneg.mpr (halfOf_le hc hpos)
  rw [Format.round_of_represents hleft]
  refine ⟨Format.round_nonneg (mul_nonneg hnonneg drawn.nonneg), ?_⟩
  have hmono := Format.round_mono (f := binary64) (mul_nonneg hnonneg drawn.nonneg)
    (mul_le_of_le_one_right hnonneg drawn.lt_one.le)
  rwa [Format.round_of_represents hleft] at hmono

/-- **The delay is at least half of the ceiling.** -/
theorem half_le_delay {c : ℚ} (hc : binary64.Represents c) (hpos : 0 ≤ c) (drawn : Drawn) :
    halfOf c ≤ delayUpTo c drawn := by
  have hhalf : binary64.Represents (halfOf c) := Format.represents_round (by positivity)
  have hmono := Format.round_mono (f := binary64) (halfOf_nonneg hpos)
    (le_add_of_nonneg_right (part_le hc hpos drawn).1)
  rwa [Format.round_of_represents hhalf] at hmono

/-- **The delay is at most the ceiling.** -/
theorem delay_le {c : ℚ} (hc : binary64.Represents c) (hpos : 0 ≤ c) (drawn : Drawn) :
    delayUpTo c drawn ≤ c := by
  have hpart := (part_le hc hpos drawn)
  have hmono := Format.round_mono (f := binary64) (add_nonneg (halfOf_nonneg hpos) hpart.1)
    (by linarith [hpart.2] : _ ≤ c)
  rwa [Format.round_of_represents hc] at hmono

/-- **The delay may be the whole ceiling**: what is drawn close to one is rounded up. -/
theorem exists_delayUpTo_eq {c : ℚ} (hc : binary64.Represents c) (hpos : 0 ≤ c) :
    ∃ drawn, delayUpTo c drawn = c := by
  have hleft : binary64.Represents (c - halfOf c) := Format.represents_sub_half hc
  let drawn : Drawn :=
    { value := 1 - 1 / 2 ^ (binary64.precision + 3)
      nonneg := by norm_num [binary64]
      lt_one := by norm_num [binary64] }
  have hpart : binary64.round ((c - halfOf c) * drawn.value) = c - halfOf c := by
    rcases (sub_nonneg.mpr (halfOf_le hc hpos)).eq_or_lt with hzero | hleftpos
    · rw [← hzero, zero_mul, Format.round_zero]
    · exact Format.round_of_near hleft hleftpos
  refine ⟨drawn, ?_⟩
  rw [delayUpTo, Format.round_of_represents hleft, hpart, add_sub_cancel,
    Format.round_of_represents hc]

/-! ### The next attempt -/

namespace RetryTuning

variable {tuning : RetryTuning} {n : ℕ} {now : Datetime}

/-- **With a ceiling that is bounded, there is a next attempt**, after a delay between half of it
and the whole. -/
theorem exists_nextAttemptAt (hvalid : tuning.Valid) (h : tuning.Bounded n now) (drawn : Drawn) :
    ∃ c delay, tuning.ceiling n = .ok (.finite c) ∧ tuning.whole n = .finite c ∧
      uniform? drawn (.finite c) = some delay ∧ halfOf c ≤ delay ∧ delay ≤ c ∧
        nextAttemptAt now (some delay) = .ok (now + microseconds delay) := by
  obtain ⟨hn, c, hwhole, hwithin⟩ := h
  obtain ⟨hc, hpos⟩ := represents_of_whole hvalid hwhole
  have hhalf := half_le_delay hc hpos drawn
  have hle := delay_le hc hpos drawn
  exact ⟨c, delayUpTo c drawn, ceiling_of_lt hvalid hn hwhole hwithin.lt_doubleBound, hwhole, rfl,
    hhalf, hle, nextAttemptAt_of_within
      (hwithin.of_le ((halfOf_nonneg hpos).trans hhalf) hle)⟩

/-- **Otherwise something raises**, at least for some number that is drawn. -/
theorem exists_nextAttemptAt_error (hvalid : tuning.Valid) (h : ¬ tuning.Bounded n now) :
    (∃ e, tuning.ceiling n = .error e) ∨ ∃ ceiling drawn e, tuning.ceiling n = .ok ceiling ∧
      nextAttemptAt now (uniform? drawn ceiling) = .error e := by
  by_cases hdouble : n < 1024 ∧ ∃ c, tuning.whole n = .finite c ∧ c < doubleBound
  · obtain ⟨hn, c, hwhole, hlt⟩ := hdouble
    obtain ⟨hc, hpos⟩ := represents_of_whole hvalid hwhole
    obtain ⟨drawn, hdelay⟩ := exists_delayUpTo_eq hc hpos
    obtain ⟨e, he⟩ := nextAttemptAt_of_not_within fun hwithin => h ⟨hn, c, hwhole, hwithin⟩
    refine Or.inr ⟨.finite c, drawn, e, ceiling_of_lt hvalid hn hwhole hlt, ?_⟩
    rw [uniform?, hdelay]
    exact he
  · rcases ceiling_of_not_lt hvalid hdouble with hceiling | hceiling
    · exact Or.inl ⟨_, hceiling⟩
    · exact Or.inr ⟨.inf, { value := 0 }, .intervalOutOfRange, hceiling, rfl⟩

end RetryTuning

end ScheduledJobs
