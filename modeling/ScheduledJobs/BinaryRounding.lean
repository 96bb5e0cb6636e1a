/-
**Binary floating-point numbers: rounding to nearest, ties to even.**

A format has a precision and a least exponent; its numbers are the multiples of powers of two with a
significand below two to the precision.  A rational that is not negative is rounded to a multiple of
the unit in its last place.  The upper end of the exponents is not part of a format here: what is
too large is for the user of the library to detect.

Main definitions:

* `Binary.roundEven` — rounding to an integer, ties to even;
* `Binary.Format`, `Binary.Format.Represents` — a format, and its numbers;
* `Binary.Format.round` — **rounding to a number of the format**.

Main results:

* `Binary.Format.round_of_represents`, `Binary.Format.represents_round` — a number of the format is
  rounded to itself, and what is rounded is one;
* `Binary.Format.round_mono` — **rounding is monotone**;
* `Binary.Format.round_of_near` — a number just below one of the format is rounded to it;
* `Binary.Format.represents_sub_half` — the rounded half of a number leaves a number.
-/

import Mathlib.Algebra.Order.Round
import Mathlib.Data.Int.Log
import Mathlib.Data.Rat.Floor
import Mathlib.Tactic.Linarith

set_option relaxedAutoImplicit false
set_option autoImplicit false

namespace Binary

/-! ### Rounding to an integer -/

/-- The nearest integer; of two, the even one. -/
def roundEven (x : ℚ) : ℤ :=
  if x + 1 / 2 = ⌊x + 1 / 2⌋ ∧ ¬ Even ⌊x + 1 / 2⌋ then ⌊x + 1 / 2⌋ - 1 else ⌊x + 1 / 2⌋

theorem roundEven_le_floor (x : ℚ) : roundEven x ≤ ⌊x + 1 / 2⌋ := by
  unfold roundEven
  split
  · omega
  · exact le_rfl

theorem floor_sub_one_le_roundEven (x : ℚ) : ⌊x + 1 / 2⌋ - 1 ≤ roundEven x := by
  unfold roundEven
  split
  · exact le_rfl
  · omega

theorem roundEven_mono {x y : ℚ} (h : x ≤ y) : roundEven x ≤ roundEven y := by
  have hfloor : ⌊x + 1 / 2⌋ ≤ ⌊y + 1 / 2⌋ := Int.floor_le_floor (by linarith)
  rcases hfloor.lt_or_eq with hlt | heq
  · have hx := roundEven_le_floor x
    have hy := floor_sub_one_le_roundEven y
    omega
  · by_cases hy : y + 1 / 2 = ⌊y + 1 / 2⌋ ∧ ¬ Even ⌊y + 1 / 2⌋
    · -- between the floor and a tie there is the tie only
      have hlow : ((⌊x + 1 / 2⌋ : ℤ) : ℚ) ≤ x + 1 / 2 := Int.floor_le _
      have hsame : x + 1 / 2 = y + 1 / 2 := by
        refine le_antisymm (by linarith) ?_
        rw [hy.1, ← heq]
        exact hlow
      have hxy : x = y := by linarith
      rw [hxy]
    · calc roundEven x ≤ ⌊x + 1 / 2⌋ := roundEven_le_floor x
        _ = ⌊y + 1 / 2⌋ := heq
        _ = roundEven y := (if_neg hy).symm

theorem roundEven_intCast (n : ℤ) : roundEven n = n := by
  have hfloor : ⌊(n : ℚ) + 1 / 2⌋ = n := by
    rw [Int.floor_intCast_add]
    norm_num
  have htie : ¬ ((n : ℚ) + 1 / 2 = n ∧ ¬ Even n) := by
    rintro ⟨h, -⟩
    linarith
  rw [roundEven, hfloor, if_neg htie]

/-! ### Formats -/

/-- The number of binary digits, and the least exponent. -/
structure Format where
  precision : ℕ
  least : ℤ
  precision_pos : 0 < precision := by decide

namespace Format

variable (f : Format)

/-- The number is one of the format. -/
def Represents (q : ℚ) : Prop :=
  ∃ (m : ℕ) (e : ℤ), m < 2 ^ f.precision ∧ f.least ≤ e ∧ q = m * 2 ^ e

/-- The exponent of the unit in the last place. -/
def exponent (q : ℚ) : ℤ := max (Int.log 2 q + 1 - f.precision) f.least

/-- **Rounding to a number of the format**, for numbers that are not negative. -/
def round (q : ℚ) : ℚ := roundEven (q / 2 ^ f.exponent q) * 2 ^ f.exponent q

variable {f} {q r : ℚ}

theorem two_zpow_pos (e : ℤ) : (0 : ℚ) < 2 ^ e := zpow_pos (by norm_num) e

theorem round_zero : f.round 0 = 0 := by
  have hzero : roundEven 0 = 0 := by exact_mod_cast roundEven_intCast 0
  rw [round, zero_div, hzero, Int.cast_zero, zero_mul]

/-- A power of two is a multiple of every smaller one. -/
theorem exists_zpow_eq {d e : ℤ} (h : d ≤ e) : ∃ n : ℤ, (2 : ℚ) ^ e = n * 2 ^ d := by
  obtain ⟨k, hk⟩ := Int.eq_ofNat_of_zero_le (sub_nonneg.mpr h)
  refine ⟨2 ^ k, ?_⟩
  push_cast
  rw [← zpow_natCast, ← zpow_add₀ (by norm_num)]
  congr 1
  omega

/-- A multiple of the unit in its last place is rounded to itself. -/
theorem round_of_multiple {n : ℤ} {e : ℤ} (h : q = n * 2 ^ e) (he : f.exponent q ≤ e) :
    f.round q = q := by
  obtain ⟨k, hk⟩ := exists_zpow_eq he
  have hdiv : q / 2 ^ f.exponent q = ((n * k : ℤ) : ℚ) := by
    rw [div_eq_iff (two_zpow_pos _).ne', Int.cast_mul, mul_assoc, ← hk]
    exact h
  rw [round, hdiv, roundEven_intCast, ← hdiv, div_mul_cancel₀ _ (two_zpow_pos _).ne']

/-- The unit in the last place of a number of the format divides it. -/
theorem exponent_le {m : ℕ} {e : ℤ} (hm : m < 2 ^ f.precision) (he : f.least ≤ e)
    (h : q = m * 2 ^ e) (hq : 0 < q) : f.exponent q ≤ e := by
  have hlt : q < 2 ^ ((f.precision : ℤ) + e) := by
    rw [h, zpow_add₀ (by norm_num), zpow_natCast]
    refine mul_lt_mul_of_pos_right ?_ (two_zpow_pos e)
    exact_mod_cast hm
  have hlog : Int.log 2 q < f.precision + e := by
    refine (Int.lt_zpow_iff_log_lt (by norm_num) hq).mp ?_
    exact_mod_cast hlt
  exact max_le (by omega) he

/-- **A number of the format is rounded to itself.** -/
theorem round_of_represents (h : f.Represents q) : f.round q = q := by
  obtain ⟨m, e, hm, he, heq⟩ := h
  rcases Nat.eq_zero_or_pos m with rfl | hpos
  · rw [heq, Nat.cast_zero, zero_mul, round_zero]
  · have hq : 0 < q := by
      rw [heq]
      exact mul_pos (by exact_mod_cast hpos) (two_zpow_pos e)
    exact round_of_multiple (n := m) (by exact_mod_cast heq) (exponent_le hm he heq hq)

theorem exponent_mono (hq : 0 < q) (h : q ≤ r) : f.exponent q ≤ f.exponent r :=
  max_le_max (by have := Int.log_mono_right (b := 2) hq h; omega) le_rfl

theorem round_nonneg (hq : 0 ≤ q) : 0 ≤ f.round q := by
  have hzero : (0 : ℤ) ≤ roundEven (q / 2 ^ f.exponent q) := by
    have hmono := roundEven_mono (div_nonneg hq (two_zpow_pos (f.exponent q)).le)
    have h0 : roundEven 0 = 0 := by exact_mod_cast roundEven_intCast 0
    rwa [h0] at hmono
  exact mul_nonneg (by exact_mod_cast hzero) (two_zpow_pos _).le

/-- Rounding by a unit does not cross a multiple of it. -/
theorem roundEven_mul_le {e : ℤ} {n : ℤ} (h : q ≤ n * 2 ^ e) :
    (roundEven (q / 2 ^ e) : ℚ) * 2 ^ e ≤ n * 2 ^ e := by
  have hle : q / 2 ^ e ≤ n := (div_le_iff₀ (two_zpow_pos e)).mpr h
  have hround := (roundEven_mono hle).trans_eq (roundEven_intCast n)
  exact mul_le_mul_of_nonneg_right (by exact_mod_cast hround) (two_zpow_pos e).le

theorem le_roundEven_mul {e : ℤ} {n : ℤ} (h : n * 2 ^ e ≤ q) :
    (n : ℚ) * 2 ^ e ≤ roundEven (q / 2 ^ e) * 2 ^ e := by
  have hle : (n : ℚ) ≤ q / 2 ^ e := (le_div_iff₀ (two_zpow_pos e)).mpr h
  have hround := (roundEven_intCast n).symm.trans_le (roundEven_mono hle)
  exact mul_le_mul_of_nonneg_right (by exact_mod_cast hround) (two_zpow_pos e).le

/-- **Rounding is monotone.** -/
theorem round_mono (hq : 0 ≤ q) (h : q ≤ r) : f.round q ≤ f.round r := by
  rcases hq.eq_or_lt with rfl | hpos
  · rw [round_zero]
    exact round_nonneg h
  rcases (exponent_mono (f := f) hpos h).eq_or_lt with heq | hlt
  · rw [round, round, heq]
    have hdiv : q / 2 ^ f.exponent r ≤ r / 2 ^ f.exponent r :=
      div_le_div_of_nonneg_right h (two_zpow_pos _).le
    exact mul_le_mul_of_nonneg_right (by exact_mod_cast roundEven_mono hdiv) (two_zpow_pos _).le
  · -- a power of two lies between the two numbers, and is a multiple of both units
    have hrpos : 0 < r := hpos.trans_le h
    have hprecision : (1 : ℤ) ≤ f.precision := by exact_mod_cast f.precision_pos
    have hlog : Int.log 2 q < Int.log 2 r ∧ f.exponent r = Int.log 2 r + 1 - f.precision := by
      unfold exponent at hlt ⊢
      omega
    have hexponent : f.exponent q ≤ Int.log 2 r := by omega
    have hexponent' : f.exponent r ≤ Int.log 2 r := by omega
    have hbelow : q ≤ 2 ^ Int.log 2 r := by
      have hsucc : q < 2 ^ (Int.log 2 q + 1) := by
        exact_mod_cast Int.lt_zpow_succ_log_self (b := 2) (by norm_num) q
      exact hsucc.le.trans (zpow_le_zpow_right₀ (by norm_num) (by omega))
    have habove : (2 : ℚ) ^ Int.log 2 r ≤ r := by
      exact_mod_cast Int.zpow_log_le_self (b := 2) (by norm_num) hrpos
    obtain ⟨n, hn⟩ := exists_zpow_eq hexponent
    obtain ⟨n', hn'⟩ := exists_zpow_eq hexponent'
    calc f.round q ≤ 2 ^ Int.log 2 r := by
          rw [hn] at hbelow ⊢
          exact roundEven_mul_le hbelow
      _ ≤ f.round r := by
          rw [hn'] at habove ⊢
          exact le_roundEven_mul habove

/-- A number has at most as many units in its last place as the precision allows. -/
theorem le_two_pow_mul_unit (q : ℚ) : q ≤ 2 ^ f.precision * 2 ^ f.exponent q := by
  have hlog : q < 2 ^ (Int.log 2 q + 1) := by
    exact_mod_cast Int.lt_zpow_succ_log_self (b := 2) (by norm_num) q
  have hexponent : Int.log 2 q + 1 ≤ f.precision + f.exponent q := by
    have hmax := le_max_left (Int.log 2 q + 1 - f.precision) f.least
    rw [← exponent] at hmax
    omega
  rw [← zpow_natCast, ← zpow_add₀ (by norm_num)]
  exact hlog.le.trans (zpow_le_zpow_right₀ (by norm_num) hexponent)

/-- **What is rounded is a number of the format.** -/
theorem represents_round (hq : 0 ≤ q) : f.Represents (f.round q) := by
  have hbound : q ≤ ((2 ^ f.precision : ℤ) : ℚ) * 2 ^ f.exponent q := by
    exact_mod_cast le_two_pow_mul_unit q
  have hdiv : q / 2 ^ f.exponent q ≤ ((2 ^ f.precision : ℤ) : ℚ) :=
    (div_le_iff₀ (two_zpow_pos _)).mpr hbound
  have hhigh := (roundEven_mono hdiv).trans_eq (roundEven_intCast _)
  have hnonneg : 0 ≤ roundEven (q / 2 ^ f.exponent q) := by
    have hmono := roundEven_mono (div_nonneg hq (two_zpow_pos (f.exponent q)).le)
    have h0 : roundEven 0 = 0 := by exact_mod_cast roundEven_intCast 0
    rwa [h0] at hmono
  obtain ⟨m, hm⟩ := Int.eq_ofNat_of_zero_le hnonneg
  have hcast : f.round q = m * 2 ^ f.exponent q := by
    rw [round, hm, Int.cast_natCast]
  rw [hm] at hhigh
  have hle : m ≤ 2 ^ f.precision := by exact_mod_cast hhigh
  rcases hle.lt_or_eq with hless | rfl
  · exact ⟨m, f.exponent q, hless, le_max_right _ _, hcast⟩
  · refine ⟨1, f.precision + f.exponent q, Nat.one_lt_two_pow f.precision_pos.ne', ?_, ?_⟩
    · have hleast := le_max_right (Int.log 2 q + 1 - f.precision) f.least
      rw [← exponent] at hleast
      omega
    · rw [hcast]
      push_cast
      rw [one_mul, zpow_add₀ (by norm_num), zpow_natCast]

/-- A power of two is a number of the format, as long as the least exponent allows one. -/
theorem represents_two_pow (hprecision : 1 < 2 ^ f.precision) (hleast : f.least ≤ 0) (n : ℕ) :
    f.Represents ((2 ^ n : ℕ) : ℚ) := by
  refine ⟨1, n, hprecision, by omega, ?_⟩
  push_cast
  rw [one_mul, zpow_natCast]

/-- An integer and a little less are rounded to the integer. -/
theorem roundEven_of_near {n : ℤ} {x : ℚ} (hlow : n - 1 / 4 ≤ x) (hhigh : x ≤ n) :
    roundEven x = n := by
  have hfloor : ⌊x + 1 / 2⌋ = n := by
    rw [Int.floor_eq_iff]
    constructor
    · linarith
    · linarith
  have htie : ¬ (x + 1 / 2 = n ∧ ¬ Even n) := by
    rintro ⟨h, -⟩
    linarith
  rw [roundEven, hfloor, if_neg htie]

/-- A number of the format is a multiple of the unit of every smaller one. -/
theorem Represents.exists_multiple (h : f.Represents q) (hr : 0 < r) (hrq : r ≤ q) :
    ∃ n : ℤ, q = n * 2 ^ f.exponent r := by
  obtain ⟨m, e, hm, he, heq⟩ := h
  have hunit := exponent_le hm he heq (hr.trans_le hrq)
  obtain ⟨k, hk⟩ := exists_zpow_eq ((exponent_mono (f := f) hr hrq).trans hunit)
  refine ⟨m * k, ?_⟩
  rw [heq, hk]
  push_cast
  ring

/-- **A number of the format is what a number just below it is rounded to.** -/
theorem round_of_near (h : f.Represents q) (hq : 0 < q) :
    f.round (q * (1 - 1 / 2 ^ (f.precision + 3))) = q := by
  have hprecision : (1 : ℚ) ≤ 2 ^ f.precision := one_le_pow₀ (by norm_num)
  have hsmall : 1 / (2 : ℚ) ^ (f.precision + 3) ≤ 1 / 8 := by
    refine one_div_le_one_div_of_le (by norm_num) ?_
    rw [pow_add]
    linarith
  have hpositive : (0 : ℚ) < 1 / 2 ^ (f.precision + 3) := by positivity
  have hless : q * (1 - 1 / 2 ^ (f.precision + 3)) = q - q * (1 / 2 ^ (f.precision + 3)) := by ring
  have hpart : q * (1 / 2 ^ (f.precision + 3)) ≤ q * (1 / 8) :=
    mul_le_mul_of_nonneg_left hsmall hq.le
  have hless' : 0 < q * (1 / 2 ^ (f.precision + 3)) := mul_pos hq hpositive
  rw [hless]
  generalize hr : q - q * (1 / 2 ^ (f.precision + 3)) = r
  -- both are multiples of the unit of the lower one, up to a quarter of it
  obtain ⟨n, hn⟩ := h.exists_multiple (r := r) (by linarith) (by linarith)
  have hunit := two_zpow_pos (f.exponent r)
  have hquarter : q * (1 / 2 ^ (f.precision + 3)) ≤ 1 / 4 * 2 ^ f.exponent r := by
    have hbound : q ≤ 2 * (2 ^ f.precision * 2 ^ f.exponent r) := by
      have hlow := le_two_pow_mul_unit (f := f) r
      linarith
    calc q * (1 / 2 ^ (f.precision + 3))
        ≤ 2 * (2 ^ f.precision * 2 ^ f.exponent r) * (1 / 2 ^ (f.precision + 3)) :=
          mul_le_mul_of_nonneg_right hbound hpositive.le
      _ = 1 / 4 * 2 ^ f.exponent r := by
          rw [pow_add]
          field_simp
          norm_num
  have hround : roundEven (r / 2 ^ f.exponent r) = n := by
    refine roundEven_of_near ?_ ?_
    · rw [le_div_iff₀ hunit, sub_mul, ← hn]
      linarith
    · rw [div_le_iff₀ hunit, ← hn]
      linarith
  rw [round, hround, ← hn]

/-- Twice a number of the format is one. -/
theorem Represents.mul_two_pow (h : f.Represents q) (n : ℕ) : f.Represents (q * 2 ^ n) := by
  obtain ⟨m, e, hm, he, rfl⟩ := h
  refine ⟨m, e + n, hm, by omega, ?_⟩
  rw [zpow_add₀ (by norm_num), zpow_natCast, mul_assoc]

/-- **The rounded half of a number leaves a number of the format.** -/
theorem represents_sub_half (h : f.Represents q) : f.Represents (q - f.round (q / 2)) := by
  obtain ⟨m, e, hm, he, heq⟩ := h
  rcases he.eq_or_lt with rfl | hlt
  · -- all multiples of the least unit below the bound are numbers of the format
    rcases Nat.eq_zero_or_pos m with rfl | hpos
    · refine ⟨0, f.least, by positivity, le_rfl, ?_⟩
      rw [heq, Nat.cast_zero, zero_mul, zero_div, round_zero, sub_zero]
    have hq : 0 < q := by
      rw [heq]
      exact mul_pos (by exact_mod_cast hpos) (two_zpow_pos _)
    have hexponent : f.exponent (q / 2) = f.least :=
      le_antisymm ((exponent_mono (by linarith) (by linarith)).trans
        (exponent_le hm le_rfl heq hq)) (le_max_right _ _)
    have hhalf : q / 2 / 2 ^ f.least = m / 2 := by
      rw [heq, div_div, mul_comm (2 : ℚ), ← div_div, mul_div_assoc,
        div_self (two_zpow_pos _).ne', mul_one]
    have hmpos : (0 : ℚ) ≤ m := by positivity
    have hlow : (0 : ℤ) ≤ roundEven (m / 2) := by
      have hmono := roundEven_mono (by positivity : (0 : ℚ) ≤ (m : ℚ) / 2)
      have h0 : roundEven 0 = 0 := by exact_mod_cast roundEven_intCast 0
      rwa [h0] at hmono
    have hhigh : roundEven (m / 2) ≤ m := by
      have hle : (m : ℚ) / 2 ≤ ((m : ℤ) : ℚ) := by
        rw [Int.cast_natCast]
        linarith
      exact (roundEven_mono hle).trans_eq (roundEven_intCast m)
    obtain ⟨k, hk⟩ := Int.eq_ofNat_of_zero_le (sub_nonneg.mpr hhigh)
    refine ⟨k, f.least, by omega, le_rfl, ?_⟩
    have hcast : ((m : ℚ) - (roundEven (m / 2) : ℚ)) = k := by exact_mod_cast hk
    rw [round, hexponent, hhalf, heq, ← sub_mul, hcast]
  · -- the half is a number of the format, and leaves itself
    have hhalf : q / 2 = m * 2 ^ (e - 1) := by
      rw [heq, zpow_sub₀ (by norm_num), zpow_one, mul_div_assoc]
    have hrepresents : f.Represents (q / 2) := ⟨m, e - 1, hm, by omega, hhalf⟩
    rw [round_of_represents hrepresents, sub_half]
    exact hrepresents

end Format

/-- The format of IEEE 754 double precision. -/
def binary64 : Format where
  precision := 53
  least := -1074

/-- A power of two is a double, as far as the precision goes. -/
theorem binary64_represents_two_pow (n : ℕ) : binary64.Represents ((2 ^ n : ℕ) : ℚ) :=
  Format.represents_two_pow (by decide) (by decide) n

end Binary
