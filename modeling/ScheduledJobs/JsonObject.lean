/-
**Flat JSON objects as text.**

Objects whose members are `null`, booleans, integers and strings, their compact text with sorted
keys (no spaces, and no escapes but those JSON asks for), and a reader for such objects that also
admits white space, every escape and members in any order.  A key that occurs twice keeps its last
value.  Texts are lists of characters here; each reader returns what it read and what is left.

Main definitions:

* `Json.Scalar`, `Json.Object` — the values;
* `Json.dumps` — **the text of an object**;
* `Json.loads` — **the object of a text**.

Main results:

* `Json.readString_append`, `Json.readScalar_append` — a reader inverts its printer, whatever
  follows;
* `Json.loads_dumps` — **what is read from the text of an object has the members of the object**.
-/

import ScheduledJobs.Dict
import ScheduledJobs.Numerals
import Mathlib.Data.List.Sort

set_option relaxedAutoImplicit false
set_option autoImplicit false

namespace Json

open Numerals

/-- The values of the members. -/
inductive Scalar
  | null
  | bool (b : Bool)
  | int (n : ℤ)
  | str (s : String)
  deriving DecidableEq, Repr

/-- An object: its members, by key. -/
abbrev Object := Dict String Scalar

/-! ### Strings -/

/-- The text of a character inside a string. -/
def escapeChar (c : Char) : List Char :=
  if c = '"' then ['\\', '"']
  else if c = '\\' then ['\\', '\\']
  else if c = '\n' then ['\\', 'n']
  else if c = '\r' then ['\\', 'r']
  else if c = '\t' then ['\\', 't']
  else if c = '\x08' then ['\\', 'b']
  else if c = '\x0c' then ['\\', 'f']
  else if c.toNat < 32 then
    ['\\', 'u', '0', '0', Nat.digitChar (c.toNat / 16), Nat.digitChar (c.toNat % 16)]
  else [c]

/-- The text of a string. -/
def printString (s : String) : List Char := '"' :: s.toList.flatMap escapeChar ++ ['"']

/-- The character an escape of one letter stands for. -/
def unescape (e : Char) : Option Char :=
  if e = '"' then some '"'
  else if e = '\\' then some '\\'
  else if e = '/' then some '/'
  else if e = 'n' then some '\n'
  else if e = 'r' then some '\r'
  else if e = 't' then some '\t'
  else if e = 'b' then some '\x08'
  else if e = 'f' then some '\x0c'
  else none

/-- A code unit that is not half of a pair. -/
def charOfUnit (n : ℕ) : Option Char :=
  if 0xD800 ≤ n ∧ n < 0xE000 then none else some (Char.ofNat n)

/-- A character in front of what was read, when both are there. -/
def consChar (c : Option Char) (r : Option (List Char × List Char)) :
    Option (List Char × List Char) :=
  match c, r with
  | some c, some r => some (c :: r.1, r.2)
  | _, _ => none

/-- The rest of a string, after its opening quote. -/
def readStringTail : List Char → Option (List Char × List Char)
  | [] => none
  | '"' :: cs => some ([], cs)
  | '\\' :: 'u' :: x₁ :: x₂ :: x₃ :: x₄ :: cs =>
      consChar ((hexValue4? x₁ x₂ x₃ x₄).bind charOfUnit) (readStringTail cs)
  | '\\' :: e :: cs => consChar (unescape e) (readStringTail cs)
  | c :: cs => if c.toNat < 32 ∨ c = '\\' then none else consChar (some c) (readStringTail cs)

/-- A character that stands for itself. -/
theorem readStringTail_cons {c : Char} (hquote : c ≠ '"') (hslash : c ≠ '\\')
    (hlt : ¬ c.toNat < 32) (cs : List Char) :
    readStringTail (c :: cs) = consChar (some c) (readStringTail cs) := by
  rw [readStringTail]
  · exact if_neg (by simp [hlt, hslash])
  · exact hquote
  · intro x₁ x₂ x₃ x₄ rest hc
    exact absurd hc hslash
  · intro e rest hc
    exact absurd hc hslash

/-- Reading past the text of one character. -/
theorem readStringTail_escapeChar (c : Char) (cs : List Char) :
    readStringTail (escapeChar c ++ cs) = consChar (some c) (readStringTail cs) := by
  unfold escapeChar
  split
  · next h => simp [readStringTail, unescape, h]
  split
  · next h => simp [readStringTail, unescape, h]
  split
  · next h => simp [readStringTail, unescape, h]
  split
  · next h => simp [readStringTail, unescape, h]
  split
  · next h => simp [readStringTail, unescape, h]
  split
  · next h => simp [readStringTail, unescape, h]
  split
  · next h => simp [readStringTail, unescape, h]
  split
  · next hlt =>
      have hhigh := hexValue?_digitChar (c.toNat / 16) (by omega)
      have hlow := hexValue?_digitChar (c.toNat % 16) (by omega)
      have hzero : hexValue? '0' = some 0 := by decide
      have hvalue : ((0 * 16 + 0) * 16 + c.toNat / 16) * 16 + c.toNat % 16 = c.toNat := by omega
      have hunit : charOfUnit c.toNat = some c := by
        rw [charOfUnit, if_neg (by omega), Char.ofNat_toNat]
      have hread : (hexValue4? '0' '0' (Nat.digitChar (c.toNat / 16))
          (Nat.digitChar (c.toNat % 16))).bind charOfUnit = some c := by
        simp only [hexValue4?, hzero, hhigh, hlow, Option.bind_eq_bind, Option.bind_some,
          Option.pure_def, hvalue, hunit]
      rw [List.cons_append, List.cons_append, List.cons_append, List.cons_append,
        List.cons_append, List.cons_append, List.nil_append, readStringTail, hread]
  · next hquote hslash _ _ _ _ _ hlt => exact readStringTail_cons hquote hslash hlt cs

theorem readStringTail_append (s : List Char) (cs : List Char) :
    readStringTail (s.flatMap escapeChar ++ '"' :: cs) = some (s, cs) := by
  induction s with
  | nil => simp [readStringTail]
  | cons c s ih =>
      rw [List.flatMap_cons, List.append_assoc, readStringTail_escapeChar, ih]
      rfl

/-- A string. -/
def readString : List Char → Option (String × List Char)
  | '"' :: cs => (readStringTail cs).map fun r => (String.ofList r.1, r.2)
  | _ => none

/-- **A string is read back from its text.** -/
theorem readString_append (s : String) (cs : List Char) :
    readString (printString s ++ cs) = some (s, cs) := by
  have htext : printString s ++ cs = '"' :: (s.toList.flatMap escapeChar ++ '"' :: cs) := by
    simp [printString]
  rw [htext, readString, readStringTail_append, Option.map_some, String.ofList_toList]

/-! ### Integers -/

/-- The text does not continue a number. -/
def Ends (cs : List Char) : Prop :=
  ∀ c ∈ cs.head?, c.isDigit = false ∧ c ≠ '.' ∧ c ≠ 'e' ∧ c ≠ 'E'

theorem ends_cons {c : Char} {cs : List Char}
    (h : c.isDigit = false ∧ c ≠ '.' ∧ c ≠ 'e' ∧ c ≠ 'E') : Ends (c :: cs) := by
  intro d hd
  rw [List.head?_cons, Option.mem_some_iff] at hd
  exact hd ▸ h

/-- A natural number without leading zeros.  A number that goes on with a fraction or an exponent
is no integer. -/
def readNat (cs : List Char) : Option (ℕ × List Char) :=
  let digits := cs.takeWhile Char.isDigit
  let rest := cs.dropWhile Char.isDigit
  if digits = [] ∨ (digits.head? = some '0' ∧ digits ≠ ['0']) ∨
      (rest.head?.any fun c => c = '.' || c = 'e' || c = 'E') then none
  else some (natValue digits, rest)

theorem takeWhile_append_of_forall {p : Char → Bool} {xs ys : List Char}
    (hxs : ∀ c ∈ xs, p c = true) (hys : ∀ c ∈ ys.head?, p c = false) :
    (xs ++ ys).takeWhile p = xs ∧ (xs ++ ys).dropWhile p = ys := by
  rw [List.takeWhile_append_of_pos hxs, List.dropWhile_append_of_pos hxs]
  cases ys with
  | nil => simp
  | cons y ys => simp [hys y rfl]

theorem readNat_append (n : ℕ) {cs : List Char} (hcs : Ends cs) :
    readNat (natDigits n ++ cs) = some (n, cs) := by
  obtain ⟨htake, hdrop⟩ := takeWhile_append_of_forall
    (fun (c : Char) (hc : c ∈ natDigits n) => natDigits_isDigit hc) fun c hc => (hcs c hc).1
  have hzero : ¬ ((natDigits n).head? = some '0' ∧ natDigits n ≠ ['0']) := by
    rintro ⟨hhead, hne⟩
    obtain ⟨rest, hrest⟩ := List.head?_eq_some_iff.1 hhead
    exact hne (by rw [hrest, natDigits_head n rest hrest])
  have hrest : ¬ (cs.head?.any fun c => c = '.' || c = 'e' || c = 'E') = true := by
    cases hhead : cs.head? with
    | none => simp
    | some c =>
        obtain ⟨_, hdot, he, hE⟩ := hcs c hhead
        simp [hdot, he, hE]
  rw [readNat, htake, hdrop]
  simp [natDigits_ne_nil, hzero, hrest, natValue_natDigits]

/-- An integer. -/
def readInt : List Char → Option (ℤ × List Char)
  | '-' :: cs => (readNat cs).map fun r => (-(r.1 : ℤ), r.2)
  | cs => (readNat cs).map fun r => ((r.1 : ℤ), r.2)

/-- The text of an integer. -/
def printInt (n : ℤ) : List Char :=
  if n < 0 then '-' :: natDigits n.natAbs else natDigits n.natAbs

theorem readInt_natDigits (n : ℕ) (cs : List Char) :
    readInt (natDigits n ++ cs) = (readNat (natDigits n ++ cs)).map fun r => ((r.1 : ℤ), r.2) := by
  cases htext : natDigits n with
  | nil => exact absurd htext (natDigits_ne_nil n)
  | cons c rest =>
      have hdigit := natDigits_isDigit (htext ▸ List.mem_cons_self : c ∈ natDigits n)
      have hc : c ≠ '-' := by
        rintro rfl
        exact absurd hdigit (by decide)
      rw [List.cons_append, readInt]
      intro cs' hcs'
      exact absurd (List.cons.inj hcs').1 hc

theorem readInt_append (n : ℤ) {cs : List Char} (hcs : Ends cs) :
    readInt (printInt n ++ cs) = some (n, cs) := by
  unfold printInt
  split
  · next hneg =>
      have habs : -(n.natAbs : ℤ) = n := by omega
      rw [List.cons_append, readInt, readNat_append n.natAbs hcs, Option.map_some, habs]
  · next hpos =>
      have habs : (n.natAbs : ℤ) = n := by omega
      rw [readInt_natDigits, readNat_append n.natAbs hcs, Option.map_some, habs]

/-! ### Members -/

/-- The text of a member's value. -/
def printScalar : Scalar → List Char
  | .null => ['n', 'u', 'l', 'l']
  | .bool true => ['t', 'r', 'u', 'e']
  | .bool false => ['f', 'a', 'l', 's', 'e']
  | .int n => printInt n
  | .str s => printString s

/-- A member's value. -/
def readScalar : List Char → Option (Scalar × List Char)
  | 'n' :: 'u' :: 'l' :: 'l' :: cs => some (.null, cs)
  | 't' :: 'r' :: 'u' :: 'e' :: cs => some (.bool true, cs)
  | 'f' :: 'a' :: 'l' :: 's' :: 'e' :: cs => some (.bool false, cs)
  | '"' :: cs => (readString ('"' :: cs)).map fun r => (.str r.1, r.2)
  | cs => (readInt cs).map fun r => (.int r.1, r.2)

/-- The first character of an integer. -/
theorem printInt_head (n : ℤ) : ∃ c cs, printInt n = c :: cs ∧ (c = '-' ∨ c.isDigit = true) := by
  unfold printInt
  split
  · exact ⟨'-', _, rfl, Or.inl rfl⟩
  · cases htext : natDigits n.natAbs with
    | nil => exact absurd htext (natDigits_ne_nil _)
    | cons c cs =>
        have hmem : c ∈ natDigits n.natAbs := by simp [htext]
        exact ⟨c, cs, rfl, Or.inr (natDigits_isDigit hmem)⟩

/-- **A value is read back from its text.** -/
theorem readScalar_append (v : Scalar) {cs : List Char} (hcs : Ends cs) :
    readScalar (printScalar v ++ cs) = some (v, cs) := by
  cases v with
  | null => rfl
  | bool b =>
      cases b
      · rfl
      · rfl
  | int n =>
      obtain ⟨c, rest, htext, hc⟩ := printInt_head n
      have hread := readInt_append n hcs
      rw [printScalar, htext, List.cons_append, readScalar]
      · rw [← List.cons_append, ← htext, hread, Option.map_some]
      all_goals
        intro cs' hcs'
        rw [(List.cons.inj hcs').1] at hc
        exact absurd hc (by decide)
  | str s =>
      have hread := readString_append s cs
      simp only [printString, List.cons_append] at hread
      simp only [printScalar, printString, List.cons_append, readScalar, hread, Option.map_some]

/-- The white space between tokens. -/
def isSpace (c : Char) : Bool := c = ' ' || c = '\n' || c = '\t' || c = '\r'

/-- Skipping white space. -/
def skipSpaces (cs : List Char) : List Char := cs.dropWhile isSpace

theorem skipSpaces_cons {c : Char} (h : isSpace c = false) (cs : List Char) :
    skipSpaces (c :: cs) = c :: cs := by simp [skipSpaces, h]

/-- A member. -/
def readMember (cs : List Char) : Option ((String × Scalar) × List Char) := do
  let key ← readString cs
  match skipSpaces key.2 with
  | ':' :: cs =>
      let value ← readScalar (skipSpaces cs)
      return ((key.1, value.1), value.2)
  | _ => none

/-- The text of a member. -/
def printMember (m : String × Scalar) : List Char :=
  printString m.1 ++ ':' :: printScalar m.2

/-- A value does not start with white space. -/
theorem skipSpaces_printScalar (v : Scalar) (cs : List Char) :
    skipSpaces (printScalar v ++ cs) = printScalar v ++ cs := by
  cases v with
  | null => rfl
  | bool b =>
      cases b
      · rfl
      · rfl
  | int n =>
      obtain ⟨c, rest, htext, hc⟩ := printInt_head n
      rw [printScalar, htext, List.cons_append, skipSpaces_cons]
      rcases hc with rfl | hc
      · decide
      · simp only [isSpace, Bool.or_eq_false_iff, decide_eq_false_iff_not]
        refine ⟨⟨⟨?_, ?_⟩, ?_⟩, ?_⟩
        all_goals
          rintro rfl
          exact absurd hc (by decide)
  | str s => rfl

theorem readMember_append (m : String × Scalar) {cs : List Char} (hcs : Ends cs) :
    readMember (printMember m ++ cs) = some (m, cs) := by
  rw [printMember, List.append_assoc, readMember, readString_append]
  simp only [Option.bind_eq_bind, Option.bind_some, List.cons_append]
  rw [skipSpaces_cons (by decide)]
  simp only [skipSpaces_printScalar, readScalar_append m.2 hcs, Option.bind_some, Option.pure_def]

/-- The members that are left, up to the closing brace, with at most this many of them. -/
def readMembers : ℕ → List Char → Option (List (String × Scalar) × List Char)
  | 0, _ => none
  | fuel + 1, cs => do
      let m ← readMember cs
      match skipSpaces m.2 with
      | '}' :: cs => return ([m.1], cs)
      | ',' :: cs =>
          let ms ← readMembers fuel (skipSpaces cs)
          return (m.1 :: ms.1, ms.2)
      | _ => none

/-- The text of members, up to the closing brace. -/
def printMembers : List (String × Scalar) → List Char
  | [] => ['}']
  | [m] => printMember m ++ ['}']
  | m :: ms => printMember m ++ ',' :: printMembers ms

/-- The text of a member starts with a quote. -/
theorem skipSpaces_printMembers (m : String × Scalar) (ms : List (String × Scalar))
    (cs : List Char) :
    skipSpaces (printMembers (m :: ms) ++ cs) = printMembers (m :: ms) ++ cs := by
  cases ms <;> rfl

theorem readMembers_append (m : String × Scalar) (ms : List (String × Scalar)) (cs : List Char)
    (fuel : ℕ) (hfuel : ms.length < fuel) :
    readMembers fuel (printMembers (m :: ms) ++ cs) = some (m :: ms, cs) := by
  induction ms generalizing m fuel with
  | nil =>
      obtain ⟨fuel, rfl⟩ : ∃ k, fuel = k + 1 := ⟨fuel - 1, by omega⟩
      have hread := readMember_append m (ends_cons (by decide) : Ends ('}' :: cs))
      rw [printMembers, List.append_assoc, List.singleton_append, readMembers, hread]
      simp only [Option.bind_eq_bind, Option.bind_some]
      rw [skipSpaces_cons (by decide)]
      rfl
  | cons m' ms ih =>
      obtain ⟨fuel, rfl⟩ : ∃ k, fuel = k + 1 := ⟨fuel - 1, by omega⟩
      have hrest := ih m' fuel (by simpa using hfuel)
      have hread := readMember_append m
        (ends_cons (by decide) : Ends (',' :: (printMembers (m' :: ms) ++ cs)))
      rw [printMembers, List.append_assoc, List.cons_append, readMembers, hread]
      · simp only [Option.bind_eq_bind, Option.bind_some]
        rw [skipSpaces_cons (by decide)]
        simp only [skipSpaces_printMembers, hrest, Option.bind_some, Option.pure_def]
      · simp

theorem length_lt_printMembers (m : String × Scalar) (ms : List (String × Scalar)) :
    ms.length < (printMembers (m :: ms)).length := by
  induction ms generalizing m with
  | nil => simp [printMembers]
  | cons m' ms ih =>
      have hrest := ih m'
      rw [printMembers, List.length_append, List.length_cons, List.length_cons]
      · omega
      · simp

/-! ### Objects -/

/-- The object with these members; of two members with one key the later one counts. -/
def ofMembers (ms : List (String × Scalar)) : Object :=
  ms.foldl (fun d m => d.set m.1 m.2) Dict.empty

/-- The members by key. -/
def sortedMembers (d : Object) : List (String × Scalar) :=
  d.entries.insertionSort fun a b => a.1 ≤ b.1

theorem nodup_sortedMembers (d : Object) : ((sortedMembers d).map Prod.fst).Nodup :=
  (((List.perm_insertionSort _ d.entries).map Prod.fst).nodup_iff).2 d.nodup

/-- **The text of an object**: its members by key, without spaces. -/
def dumps (d : Object) : String := String.ofList ('{' :: printMembers (sortedMembers d))

/-- The rest of an object, after its opening brace and white space, to the end of the text. -/
def readObject (cs : List Char) : Option Object :=
  match cs with
  | '}' :: cs => if skipSpaces cs = [] then some Dict.empty else none
  | cs =>
      match readMembers cs.length cs with
      | some (ms, cs) => if skipSpaces cs = [] then some (ofMembers ms) else none
      | none => none

/-- **The object of a text.** -/
def loads (s : String) : Option Object :=
  match skipSpaces s.toList with
  | '{' :: cs => readObject (skipSpaces cs)
  | _ => none

/-- Members with pairwise distinct keys are the entries of their object. -/
theorem entries_ofMembers {ms : List (String × Scalar)} (h : (ms.map Prod.fst).Nodup) :
    (ofMembers ms).entries = ms := by
  have happend : ∀ (ms : List (String × Scalar)) (d : Object),
      ((d.entries ++ ms).map Prod.fst).Nodup →
        (ms.foldl (fun d m => d.set m.1 m.2) d).entries = d.entries ++ ms := by
    intro ms
    induction ms with
    | nil => simp
    | cons m ms ih =>
        intro d hd
        have hnew : m.1 ∉ d.keys := by
          intro hmem
          rw [List.map_append, List.nodup_append] at hd
          exact hd.2.2 m.1 hmem m.1 (by simp) rfl
        have hset := Dict.entries_set_of_notMem hnew m.2
        rw [List.foldl_cons, ih (d.set m.1 m.2) (by rw [hset]; simpa using hd), hset]
        simp
  simpa [ofMembers] using happend ms Dict.empty (by simpa using h)

/-- A member is read at its key. -/
theorem get?_ofMembers {ms : List (String × Scalar)} (h : (ms.map Prod.fst).Nodup)
    {m : String × Scalar} (hm : m ∈ ms) : (ofMembers ms).get? m.1 = some m.2 := by
  rw [← Dict.mem_entries_iff, entries_ofMembers h]
  exact hm

/-- The object of the sorted members has the members of the object. -/
theorem get?_ofMembers_sorted (d : Object) (k : String) :
    (ofMembers (sortedMembers d)).get? k = d.get? k := by
  refine Option.ext fun v => ?_
  rw [← Dict.mem_entries_iff, ← Dict.mem_entries_iff, entries_ofMembers (nodup_sortedMembers d)]
  exact (List.perm_insertionSort _ d.entries).mem_iff

theorem readObject_printMembers (ms : List (String × Scalar)) :
    readObject (skipSpaces (printMembers ms)) = some (ofMembers ms) := by
  cases ms with
  | nil => rfl
  | cons m ms =>
      have hspaces := skipSpaces_printMembers m ms []
      have hread := readMembers_append m ms [] _ (length_lt_printMembers m ms)
      obtain ⟨cs, hquote⟩ : ∃ cs, printMembers (m :: ms) = '"' :: cs := by
        cases ms with
        | nil => exact ⟨_, rfl⟩
        | cons m' ms => exact ⟨_, rfl⟩
      rw [List.append_nil] at hspaces hread
      rw [hspaces, hquote, readObject, ← hquote, hread]
      · rfl
      · intro cs' hcs'
        exact absurd (List.cons.inj hcs').1 (by decide)

/-- The text of an object is read as the object of its sorted members. -/
theorem loads_dumps_eq (d : Object) : loads (dumps d) = some (ofMembers (sortedMembers d)) := by
  have htext : skipSpaces (dumps d).toList = '{' :: printMembers (sortedMembers d) := by
    rw [dumps, String.toList_ofList, skipSpaces_cons (by decide)]
  rw [loads, htext]
  exact readObject_printMembers (sortedMembers d)

/-- **What is read from the text of an object has the members of the object.** -/
theorem loads_dumps (d : Object) :
    ∃ d', loads (dumps d) = some d' ∧ ∀ k, d'.get? k = d.get? k :=
  ⟨_, loads_dumps_eq d, get?_ofMembers_sorted d⟩

end Json
