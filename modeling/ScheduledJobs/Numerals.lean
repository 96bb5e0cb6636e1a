/-
**Numerals.**

Decimal and hexadecimal digits as characters: the digits of a number without leading zeros, its
last digits padded to a width, and readers for both.

Main definitions:

* `Numerals.hexValue?`, `Numerals.hexValue4?` — the value of hexadecimal digits;
* `Numerals.natDigits`, `Numerals.natValue` — decimal numerals of any length;
* `Numerals.pad`, `Numerals.readPadded` — decimal numerals of a fixed width.

Main results:

* `Numerals.natValue_natDigits`, `Numerals.natDigits_head` — the numeral of a number has its value
  and no leading zero;
* `Numerals.readPadded_append` — a numeral of fixed width is read back.
-/

import Mathlib.Data.Nat.Digits.Lemmas

set_option relaxedAutoImplicit false
set_option autoImplicit false

namespace Numerals

/-! ### Hexadecimal digits -/

/-- The value of a hexadecimal digit. -/
def hexValue? (c : Char) : Option ℕ :=
  if '0' ≤ c ∧ c ≤ '9' then some (c.toNat - 48)
  else if 'a' ≤ c ∧ c ≤ 'f' then some (c.toNat - 87)
  else if 'A' ≤ c ∧ c ≤ 'F' then some (c.toNat - 55)
  else none

theorem hexValue?_digitChar : ∀ d < 16, hexValue? (Nat.digitChar d) = some d := by decide

/-- The value of four hexadecimal digits. -/
def hexValue4? (a b c d : Char) : Option ℕ := do
  let a ← hexValue? a
  let b ← hexValue? b
  let c ← hexValue? c
  let d ← hexValue? d
  return ((a * 16 + b) * 16 + c) * 16 + d

/-! ### Numerals of any length -/

/-- The decimal digits of a number, the highest one first. -/
def natDigits (n : ℕ) : List Char :=
  if n = 0 then ['0'] else ((Nat.digits 10 n).map Nat.digitChar).reverse

/-- The value of decimal digits, the highest one first. -/
def natValue (cs : List Char) : ℕ := Nat.ofDigits 10 (cs.reverse.map fun c => c.toNat - 48)

theorem digitChar_isDigit : ∀ d < 10, (Nat.digitChar d).isDigit = true ∧
    (Nat.digitChar d).toNat - 48 = d := by decide

theorem natValue_natDigits (n : ℕ) : natValue (natDigits n) = n := by
  unfold natDigits
  split
  · next hzero =>
      subst hzero
      rfl
  · rw [natValue, List.reverse_reverse, List.map_map]
    have hmap : (Nat.digits 10 n).map ((fun c : Char => c.toNat - 48) ∘ Nat.digitChar) =
        Nat.digits 10 n := by
      conv_rhs => rw [← List.map_id (Nat.digits 10 n)]
      refine List.map_congr_left fun d hd => ?_
      exact (digitChar_isDigit d (Nat.digits_lt_base (by decide) hd)).2
    rw [hmap, Nat.ofDigits_digits]

theorem natDigits_isDigit {n : ℕ} {c : Char} (h : c ∈ natDigits n) : c.isDigit = true := by
  unfold natDigits at h
  split at h
  · rw [List.mem_singleton.1 h]
    decide
  · rw [List.mem_reverse] at h
    obtain ⟨d, hd, rfl⟩ := List.mem_map.1 h
    exact (digitChar_isDigit d (Nat.digits_lt_base (by decide) hd)).1

theorem natDigits_ne_nil (n : ℕ) : natDigits n ≠ [] := by
  unfold natDigits
  split
  · simp
  · next hne =>
      simpa [Nat.digits_eq_nil_iff_eq_zero] using hne

/-- A number of several digits does not start with a zero. -/
theorem natDigits_head (n : ℕ) (cs : List Char) (h : natDigits n = '0' :: cs) : cs = [] := by
  unfold natDigits at h
  split at h
  · exact (List.cons.inj h).2.symm
  · next hne =>
      exfalso
      have hdigits : Nat.digits 10 n ≠ [] := by simpa [Nat.digits_eq_nil_iff_eq_zero] using hne
      have hlast : ((Nat.digits 10 n).map Nat.digitChar).reverse.head? =
          some (Nat.digitChar ((Nat.digits 10 n).getLast hdigits)) := by
        rw [List.head?_reverse, List.getLast?_map, List.getLast?_eq_some_getLast hdigits]
        rfl
      rw [h, List.head?_cons, Option.some_inj] at hlast
      have hmem := List.getLast_mem hdigits
      have hvalue := (digitChar_isDigit _ (Nat.digits_lt_base (by decide) hmem)).2
      rw [← hlast] at hvalue
      exact Nat.getLast_digit_ne_zero 10 hne hvalue.symm

/-! ### Numerals of a fixed width -/

/-- The last `w` decimal digits of a number, the highest one first. -/
def pad : ℕ → ℕ → List Char
  | 0, _ => []
  | w + 1, n => Nat.digitChar (n / 10 ^ w % 10) :: pad w n

theorem pad_isDigit {w n : ℕ} {c : Char} (h : c ∈ pad w n) : c.isDigit = true := by
  induction w with
  | zero => cases h
  | succ w ih =>
      rcases List.mem_cons.1 h with rfl | h
      · exact (digitChar_isDigit _ (Nat.mod_lt _ (by decide))).1
      · exact ih h

/-- The value of the next `w` digits, after digits of value `acc`. -/
def readPadded : ℕ → ℕ → List Char → Option (ℕ × List Char)
  | 0, acc, cs => some (acc, cs)
  | _ + 1, _, [] => none
  | w + 1, acc, c :: cs =>
      if c.isDigit then readPadded w (acc * 10 + (c.toNat - 48)) cs else none

theorem length_pad (w n : ℕ) : (pad w n).length = w := by
  induction w with
  | zero => rfl
  | succ w ih => rw [pad, List.length_cons, ih]

theorem readPadded_pad (w acc n : ℕ) (cs : List Char) :
    readPadded w acc (pad w n ++ cs) = some (acc * 10 ^ w + n % 10 ^ w, cs) := by
  induction w generalizing acc with
  | zero => simp [pad, readPadded, Nat.mod_one]
  | succ w ih =>
      obtain ⟨hdigit, hvalue⟩ := digitChar_isDigit _ (Nat.mod_lt (n / 10 ^ w) (by decide : 0 < 10))
      have hsum : (acc * 10 + n / 10 ^ w % 10) * 10 ^ w + n % 10 ^ w =
          acc * 10 ^ (w + 1) + n % 10 ^ (w + 1) := by
        rw [Nat.mod_pow_succ, pow_succ]
        ring
      rw [pad, List.cons_append, readPadded, if_pos hdigit, hvalue, ih, hsum]

/-- **A numeral of fixed width is read back**, when the number fits it. -/
theorem readPadded_append {w n : ℕ} (h : n < 10 ^ w) (cs : List Char) :
    readPadded w 0 (pad w n ++ cs) = some (n, cs) := by
  rw [readPadded_pad, Nat.zero_mul, Nat.zero_add, Nat.mod_eq_of_lt h]

end Numerals
