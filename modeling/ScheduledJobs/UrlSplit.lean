/-
**Taking URLs apart.**

The text of a URL is cut into scheme, network location, path, query and fragment, the location into
host and port, and percent signs in a path are decoded.  Every text is cut somehow, and only a few
are refused: the cuts are made at the first or the last occurrence of a character, not by a grammar.
Texts are lists of characters.

What depends on Unicode's tables beyond ASCII is a parameter: how letters are lowered, and which
network locations are refused.

Main definitions:

* `Url.Tables` — the tables;
* `Url.urlsplit`, `Url.SplitResult.hostname`, `Url.SplitResult.port` — **the parts of a URL**;
* `Url.unquote` — **the text of a text with percent signs**.

Main results:

* `Url.urlsplit_text` — what is written in the order of the parts is taken apart into them;
* `Url.hostInfo_text` — so is a network location;
* `Url.unquote_quoteText` — **however many characters of a text are quoted, the text is read back**.
-/

import ScheduledJobs.Fallible
import ScheduledJobs.Numerals
import Mathlib.Data.List.TakeWhile

set_option relaxedAutoImplicit false
set_option autoImplicit false

namespace Url

open Numerals

/-! ### Cutting texts -/

section Cut

variable {c : Char} {a b : List Char}

/-- The text before the first `c`, or the whole text. -/
def before (c : Char) (s : List Char) : List Char := s.takeWhile fun d => d ≠ c

/-- The text after the first `c`, if there is one. -/
def after (c : Char) (s : List Char) : List Char := (s.dropWhile fun d => d ≠ c).drop 1

/-- The text after the last `c`, or the whole text. -/
def afterLast (c : Char) (s : List Char) : List Char :=
  (s.reverse.takeWhile fun d => d ≠ c).reverse

theorem ne_of_not_mem (h : c ∉ a) : ∀ d ∈ a, decide (d ≠ c) = true := fun _ hd =>
  decide_eq_true (ne_of_mem_of_not_mem hd h)

theorem before_append (h : c ∉ a) (b : List Char) : before c (a ++ c :: b) = a := by
  rw [before, List.takeWhile_append_of_pos (ne_of_not_mem h),
    List.takeWhile_cons_of_neg (by simp), List.append_nil]

theorem after_append (h : c ∉ a) (b : List Char) : after c (a ++ c :: b) = b := by
  rw [after, List.dropWhile_append_of_pos (ne_of_not_mem h), List.dropWhile_cons_of_neg (by simp)]
  rfl

theorem before_of_not_mem (h : c ∉ a) : before c a = a :=
  List.takeWhile_eq_self_iff.2 (ne_of_not_mem h)

theorem after_of_not_mem (h : c ∉ a) : after c a = [] := by
  rw [after, List.dropWhile_eq_nil_iff.2 (ne_of_not_mem h)]
  rfl

/-- What is left from the first `c` on begins with it. -/
theorem dropWhile_eq_nil_or_head (c : Char) (s : List Char) :
    (s.dropWhile fun d => d ≠ c) = [] ∨ (s.dropWhile fun d => d ≠ c).head? = some c := by
  induction s with
  | nil => exact Or.inl rfl
  | cons d s ih =>
      by_cases hd : d = c
      · subst hd
        exact Or.inr (by rw [List.dropWhile_cons_of_neg (by simp)]; rfl)
      · rw [List.dropWhile_cons_of_pos (by simpa using hd)]
        exact ih

theorem afterLast_append (a : List Char) (h : c ∉ b) : afterLast c (a ++ c :: b) = b := by
  have hb : c ∉ b.reverse := by rwa [List.mem_reverse]
  have hsplit : (a ++ c :: b).reverse = b.reverse ++ c :: a.reverse := by simp
  rw [afterLast, hsplit]
  exact (congrArg List.reverse (before_append hb _)).trans (List.reverse_reverse b)

theorem afterLast_of_not_mem (h : c ∉ a) : afterLast c a = a := by
  have ha : c ∉ a.reverse := by rwa [List.mem_reverse]
  exact (congrArg List.reverse (before_of_not_mem ha)).trans (List.reverse_reverse a)

end Cut

/-! ### The parts of a URL -/

/-- The characters are those of ASCII. -/
def IsAscii (s : List Char) : Prop := ∀ c ∈ s, c.toNat < 128

instance (s : List Char) : Decidable (IsAscii s) :=
  inferInstanceAs (Decidable (∀ c ∈ s, c.toNat < 128))

/-- What depends on tables: `str.lower`, the hosts between brackets, and the network locations that
are refused for their normal forms.  Lowering a text is lowering it once a part of it that ends
before a percent sign has been lowered. -/
structure Tables where
  lower : List Char → List Char
  bracketedAllowed : List Char → Bool
  netlocAllowed : List Char → Bool
  lower_ascii : ∀ s, IsAscii s → lower s = s.map Char.toLower
  lower_lower_append : ∀ a z, (z = [] ∨ z.head? = some '%') → lower (lower a ++ z) = lower (a ++ z)
  netlocAllowed_ascii : ∀ s, IsAscii s → netlocAllowed s = true

/-- The kinds of `ValueError` that are raised. -/
inductive UrlError
  | invalidIPv6
  | invalidBracketedHost
  | invalidNetloc
  | portNotInteger
  | portTooLong
  | portOutOfRange
  deriving DecidableEq, Repr

/-- What `urlsplit` returns. -/
structure SplitResult where
  scheme : List Char
  netloc : List Char
  path : List Char
  query : List Char
  fragment : List Char
  deriving DecidableEq, Repr

/-- A character that is removed wherever it stands. -/
def isRemoved (c : Char) : Bool := c = '\t' || c = '\r' || c = '\n'

/-- Control characters and spaces are stripped in front, tabs and line ends removed. -/
def clean (url : List Char) : List Char :=
  (url.dropWhile fun c => c.toNat ≤ 32).filter fun c => !isRemoved c

/-- A character of a scheme. -/
def isSchemeChar (c : Char) : Bool := c.isAlphanum || c = '+' || c = '-' || c = '.'

/-- A scheme begins with a letter. -/
def isScheme : List Char → Bool
  | [] => false
  | c :: cs => c.isAlpha && (c :: cs).all isSchemeChar

variable (tables : Tables)

/-- The scheme, and what follows it. -/
def splitScheme (url : List Char) : List Char × List Char :=
  if ':' ∈ url ∧ isScheme (before ':' url) = true then
    (tables.lower (before ':' url), after ':' url)
  else ([], url)

/-- A character that ends the network location. -/
def endsNetloc (c : Char) : Bool := c = '/' || c = '?' || c = '#'

/-- The network location, and what follows it. -/
def splitNetloc : List Char → List Char × List Char
  | '/' :: '/' :: rest =>
    (rest.takeWhile fun c => !endsNetloc c, rest.dropWhile fun c => !endsNetloc c)
  | url => ([], url)

/-- The checks of the network location. -/
def checkNetloc (netloc : List Char) : Except UrlError Unit :=
  if ¬ ('[' ∈ netloc ↔ ']' ∈ netloc) then .error .invalidIPv6
  else if '[' ∈ netloc ∧ tables.bracketedAllowed netloc = false then .error .invalidBracketedHost
  else if tables.netlocAllowed netloc = false then .error .invalidNetloc
  else .ok ()

/-- **`urlsplit`.** -/
def urlsplit (url : List Char) : Except UrlError SplitResult := do
  let split := splitScheme tables (clean url)
  let located := splitNetloc split.2
  checkNetloc tables located.1
  let rest := before '#' located.2
  return ⟨split.1, located.1, before '?' rest, after '?' rest, after '#' located.2⟩

/-- `_hostinfo`: the host, and the text of the port. -/
def hostInfo (netloc : List Char) : List Char × List Char :=
  let info := afterLast '@' netloc
  if '[' ∈ info then
    (before ']' (after '[' info), after ':' (after ']' (after '[' info)))
  else (before ':' info, after ':' info)

/-- `hostname`: in lower case, but for the zone of an address. -/
def SplitResult.hostname (parsed : SplitResult) : Option (List Char) :=
  let host := (hostInfo parsed.netloc).1
  if host = [] then none
  else some (tables.lower (before '%' host) ++ host.dropWhile fun c => c ≠ '%')

/-- `port`. -/
def SplitResult.port (parsed : SplitResult) : Except UrlError (Option ℕ) :=
  let text := (hostInfo parsed.netloc).2
  if text = [] then .ok none
  else if ¬ text.all Char.isDigit then .error .portNotInteger
  else if 4300 < text.length then .error .portTooLong
  else if 65535 < natValue text then .error .portOutOfRange
  else .ok (some (natValue text))

/-! ### Letter case -/

section Lower

variable {tables} {url : List Char} {parsed : SplitResult}

theorem lower_nil : tables.lower [] = [] := tables.lower_ascii [] fun c hc => by cases hc

theorem lower_lower (a : List Char) : tables.lower (tables.lower a) = tables.lower a := by
  have h := tables.lower_lower_append a [] (Or.inl rfl)
  rwa [List.append_nil, List.append_nil] at h

/-- The scheme is in lower case. -/
theorem lower_scheme (h : urlsplit tables url = .ok parsed) :
    tables.lower parsed.scheme = parsed.scheme := by
  obtain ⟨_, -, hparsed⟩ := Except.bind_eq_ok_iff.1 h
  obtain rfl := Except.ok.inj hparsed
  change tables.lower (splitScheme tables (clean url)).1 = (splitScheme tables (clean url)).1
  rw [splitScheme]
  split
  · exact lower_lower _
  · exact lower_nil

/-- The zone of an address is all that may not be in lower case in a host. -/
theorem lower_hostname {hostname : List Char} (h : parsed.hostname tables = some hostname) :
    tables.lower hostname = tables.lower (hostInfo parsed.netloc).1 := by
  rw [SplitResult.hostname] at h
  split at h
  · cases h
  · obtain rfl := Option.some.inj h
    rw [tables.lower_lower_append _ _ (dropWhile_eq_nil_or_head '%' _), before,
      List.takeWhile_append_dropWhile]

end Lower

/-! ### Texts in the order of the parts -/

section Text

variable {scheme netloc path options : List Char}

theorem isRemoved_of_lt {c : Char} (h : 32 < c.toNat) : isRemoved c = false := by
  by_contra hremoved
  rw [Bool.not_eq_false] at hremoved
  simp only [isRemoved, Bool.or_eq_true, decide_eq_true_eq] at hremoved
  rcases hremoved with (rfl | rfl) | rfl
  all_goals exact absurd h (by decide)

theorem toNat_of_isAlphanum {c : Char} (h : c.isAlphanum = true) :
    (65 ≤ c.toNat ∧ c.toNat ≤ 90) ∨ (97 ≤ c.toNat ∧ c.toNat ≤ 122) ∨
      (48 ≤ c.toNat ∧ c.toNat ≤ 57) := by
  have hranges : ((decide (c.val ≥ 'A'.val ∧ c.val ≤ 'Z'.val) ||
      (decide (c.val ≥ 'a'.val) && decide (c.val ≤ 'z'.val))) ||
      (decide (c.val ≥ '0'.val) && decide (c.val ≤ '9'.val))) = true := h
  simp only [Bool.or_eq_true, Bool.and_eq_true, decide_eq_true_eq, ge_iff_le,
    UInt32.le_iff_toNat_le] at hranges
  change ((65 ≤ c.toNat ∧ c.toNat ≤ 90) ∨ (97 ≤ c.toNat ∧ c.toNat ≤ 122)) ∨
    (48 ≤ c.toNat ∧ c.toNat ≤ 57) at hranges
  omega

theorem toNat_of_isSchemeChar {c : Char} (h : isSchemeChar c = true) :
    32 < c.toNat ∧ c.toNat ≠ 58 ∧ c.toNat < 128 := by
  simp only [isSchemeChar, Bool.or_eq_true, decide_eq_true_eq] at h
  rcases h with ((h | rfl) | rfl) | rfl
  · have hrange := toNat_of_isAlphanum h
    omega
  all_goals decide

theorem isSchemeChar_of_mem (h : isScheme scheme = true) :
    ∀ c ∈ scheme, isSchemeChar c = true := by
  cases scheme with
  | nil => cases h
  | cons c cs => exact List.all_eq_true.1 (Bool.and_eq_true_iff.1 h).2

/-- A scheme before its colon is found. -/
theorem splitScheme_append (h : isScheme scheme = true) (rest : List Char) :
    splitScheme tables (scheme ++ ':' :: rest) = (tables.lower scheme, rest) := by
  have hcolon : ':' ∉ scheme := fun hmem =>
    (toNat_of_isSchemeChar (isSchemeChar_of_mem h ':' hmem)).2.1 rfl
  rw [splitScheme, before_append hcolon, after_append hcolon, if_pos ⟨by simp, h⟩]

/-- A network location is found up to the path, the query or the fragment. -/
theorem splitNetloc_append (h : ∀ c ∈ netloc, endsNetloc c = false) {rest : List Char}
    (hrest : ∀ c ∈ rest.head?, endsNetloc c = true) :
    splitNetloc ('/' :: '/' :: (netloc ++ rest)) = (netloc, rest) := by
  have hall : ∀ c ∈ netloc, (!endsNetloc c) = true := fun c hc => by rw [h c hc]; rfl
  rw [splitNetloc, List.takeWhile_append_of_pos hall, List.dropWhile_append_of_pos hall]
  cases rest with
  | nil => simp
  | cons c cs =>
      have hc : endsNetloc c = true := hrest c rfl
      simp [hc]

/-- Printed characters in front stay. -/
theorem clean_append {front : List Char} (hfront : front ≠ []) (h : ∀ c ∈ front, 32 < c.toNat)
    (rest : List Char) : clean (front ++ rest) = front ++ rest.filter fun c => !isRemoved c := by
  cases front with
  | nil => exact absurd rfl hfront
  | cons c cs =>
      have hc : decide (c.toNat ≤ 32) = false :=
        decide_eq_false (not_le.2 (h c List.mem_cons_self))
      have hkeep : ∀ d ∈ c :: cs, (!isRemoved d) = true := fun d hd => by
        rw [isRemoved_of_lt (h d hd)]
        rfl
      rw [clean, List.cons_append, List.dropWhile_cons_of_neg (by rw [hc]; decide),
        ← List.cons_append, List.filter_append, List.filter_eq_self.2 hkeep]

/-- What follows a path: a query, a fragment, or nothing. -/
def IsOptions (options : List Char) : Prop := ∀ c ∈ options.head?, c = '?' ∨ c = '#'

theorem isOptions_filter (h : IsOptions options) :
    IsOptions (options.filter fun c => !isRemoved c) := by
  cases options with
  | nil => exact h
  | cons c cs =>
      have hkeep : (!isRemoved c) = true := by
        rcases h c rfl with rfl | rfl
        all_goals decide
      rw [List.filter_cons, if_pos hkeep]
      exact h

/-- A path is found before its options. -/
theorem before_options (hquery : '?' ∉ path) (hfragment : '#' ∉ path) (h : IsOptions options) :
    before '?' (before '#' (path ++ options)) = path := by
  cases options with
  | nil => rw [List.append_nil, before_of_not_mem hfragment, before_of_not_mem hquery]
  | cons c cs =>
      rcases h c rfl with rfl | rfl
      · have hcut : before '#' (path ++ '?' :: cs) = path ++ '?' :: before '#' cs := by
          rw [before, List.takeWhile_append_of_pos (ne_of_not_mem hfragment),
            List.takeWhile_cons_of_pos (by decide)]
          rfl
        rw [hcut, before_append hquery]
      · rw [before_append hfragment, before_of_not_mem hquery]

/-- **A URL that is written in the order of its parts is taken apart into them**, whatever its
options are. -/
theorem urlsplit_text (hscheme : isScheme scheme = true)
    (hnetloc : ∀ c ∈ netloc, endsNetloc c = false ∧ 32 < c.toNat)
    (hcheck : checkNetloc tables netloc = .ok ()) (hslash : ∀ c ∈ path.head?, c = '/')
    (hpath : ∀ c ∈ path, c ≠ '?' ∧ c ≠ '#' ∧ 32 < c.toNat) (hoptions : IsOptions options) :
    ∃ query fragment, urlsplit tables (scheme ++ ':' :: '/' :: '/' :: (netloc ++ path ++ options)) =
      .ok ⟨tables.lower scheme, netloc, path, query, fragment⟩ := by
  let kept := options.filter fun c => !isRemoved c
  have hkept : IsOptions kept := isOptions_filter hoptions
  have hclean : clean (scheme ++ ':' :: '/' :: '/' :: (netloc ++ path ++ options)) =
      scheme ++ ':' :: '/' :: '/' :: (netloc ++ (path ++ kept)) := by
    have hfront : ∀ c ∈ scheme ++ ':' :: '/' :: '/' :: (netloc ++ path), 32 < c.toNat := by
      intro c hc
      simp only [List.mem_append, List.mem_cons] at hc
      rcases hc with hc | rfl | rfl | rfl | hc | hc
      · exact (toNat_of_isSchemeChar (isSchemeChar_of_mem hscheme c hc)).1
      · decide
      · decide
      · decide
      · exact (hnetloc c hc).2
      · exact (hpath c hc).2.2
    have hclean := clean_append (by simp) hfront options
    simpa [kept] using hclean
  have hlocated : splitNetloc ('/' :: '/' :: (netloc ++ (path ++ kept))) =
      (netloc, path ++ kept) := by
    refine splitNetloc_append (fun c hc => (hnetloc c hc).1) fun c hc => ?_
    cases path with
    | nil =>
        rcases hkept c hc with rfl | rfl
        all_goals decide
    | cons d ds =>
        obtain rfl : d = c := Option.some.inj hc
        rw [hslash d rfl]
        decide
  have hpath' : before '?' (before '#' (path ++ kept)) = path :=
    before_options (fun h => (hpath '?' h).1 rfl) (fun h => (hpath '#' h).2.1 rfl) hkept
  refine ⟨after '?' (before '#' (path ++ kept)), after '#' (path ++ kept), ?_⟩
  rw [urlsplit, hclean, splitScheme_append tables hscheme]
  simp only [hlocated, hcheck, hpath', bind, Except.bind]
  rfl

/-- How a host is written: a name, or an address between brackets. -/
def hostText (bracketed : Bool) (host : List Char) : List Char :=
  if bracketed then '[' :: (host ++ [']']) else host

/-- How credentials are written. -/
def credentialsText : Option (List Char) → List Char
  | none => []
  | some credentials => credentials ++ ['@']

/-- How a port is written. -/
def portText : Option (List Char) → List Char
  | none => []
  | some digits => ':' :: digits

theorem hostInfo_credentials (credentials : Option (List Char)) {info : List Char}
    (h : '@' ∉ info) : hostInfo (credentialsText credentials ++ info) = hostInfo info := by
  have hinfo : afterLast '@' (credentialsText credentials ++ info) = afterLast '@' info := by
    cases credentials with
    | none => rfl
    | some text =>
        rw [credentialsText, List.append_assoc, List.singleton_append, afterLast_append text h,
          afterLast_of_not_mem h]
  rw [hostInfo, hostInfo, hinfo]

/-- **A network location that is written in the order of its parts is taken apart into them.** -/
theorem hostInfo_text (credentials : Option (List Char)) {bracketed : Bool} {host : List Char}
    {port : Option (List Char)} (hhost : ∀ c ∈ host, c ≠ '@' ∧ c ≠ '[' ∧ c ≠ ']')
    (hcolon : bracketed = false → ':' ∉ host) (hport : ∀ c ∈ port.getD [], c.isDigit = true) :
    hostInfo (credentialsText credentials ++ (hostText bracketed host ++ portText port)) =
      (host, port.getD []) := by
  have hdigits : '@' ∉ portText port ∧ '[' ∉ portText port := by
    cases port with
    | none => exact ⟨List.not_mem_nil, List.not_mem_nil⟩
    | some digits =>
        have hnot : ∀ c, c.isDigit = false → c ≠ ':' → c ∉ portText (some digits) := by
          intro c hc hcolon hmem
          rcases List.mem_cons.1 hmem with rfl | hmem
          · exact hcolon rfl
          · rw [hport c hmem] at hc
            cases hc
        exact ⟨hnot '@' (by decide) (by decide), hnot '[' (by decide) (by decide)⟩
  have hport' : after ':' (portText port) = port.getD [] := by
    cases port with
    | none => rfl
    | some digits => exact after_append (a := []) List.not_mem_nil digits
  cases bracketed with
  | true =>
      have hat : '@' ∉ hostText true host ++ portText port := by
        simp only [hostText, if_true, List.mem_append, List.mem_cons, List.not_mem_nil, or_false,
          not_or]
        exact ⟨⟨by decide, fun h => (hhost '@' h).1 rfl, by decide⟩, hdigits.1⟩
      have hclose : ']' ∉ host := fun h => (hhost ']' h).2.2 rfl
      have hbracketed : after '[' (hostText true host ++ portText port) =
          host ++ ']' :: portText port := by
        have hopen := after_append (c := '[') (a := []) List.not_mem_nil
          (host ++ ']' :: portText port)
        simpa [hostText] using hopen
      rw [hostInfo_credentials credentials hat, hostInfo, afterLast_of_not_mem hat,
        if_pos (by simp [hostText]), hbracketed, before_append hclose, after_append hclose, hport']
  | false =>
      have hat : '@' ∉ hostText false host ++ portText port := by
        rw [List.mem_append, not_or]
        exact ⟨fun h => (hhost '@' h).1 rfl, hdigits.1⟩
      have hopen : '[' ∉ hostText false host ++ portText port := by
        rw [List.mem_append, not_or]
        exact ⟨fun h => (hhost '[' h).2.1 rfl, hdigits.2⟩
      have hcolon' : ':' ∉ host := hcolon rfl
      rw [hostInfo_credentials credentials hat, hostInfo, afterLast_of_not_mem hat, if_neg hopen]
      cases port with
      | none =>
          have hhost' : hostText false host ++ portText none = host := List.append_nil host
          rw [hhost', before_of_not_mem hcolon', after_of_not_mem hcolon']
          rfl
      | some digits =>
          have hhost' : hostText false host ++ portText (some digits) = host ++ ':' :: digits := rfl
          rw [hhost', before_append hcolon', after_append hcolon']
          rfl

end Text

/-! ### Percent signs -/

/-- What may follow the first byte of a character that takes several: the bounds of the second byte,
and the number of all that follow. -/
def following (first : UInt8) : Option (UInt8 × UInt8 × ℕ) :=
  if 0xC2 ≤ first ∧ first ≤ 0xDF then some (0x80, 0xBF, 1)
  else if first = 0xE0 then some (0xA0, 0xBF, 2)
  else if first = 0xED then some (0x80, 0x9F, 2)
  else if 0xE1 ≤ first ∧ first ≤ 0xEF then some (0x80, 0xBF, 2)
  else if first = 0xF0 then some (0x90, 0xBF, 3)
  else if 0xF1 ≤ first ∧ first ≤ 0xF3 then some (0x80, 0xBF, 3)
  else if first = 0xF4 then some (0x80, 0x8F, 3)
  else none

/-- How many of the bytes in front, which are no character, are replaced together. -/
def malformed : List UInt8 → ℕ
  | first :: second :: rest =>
    match following first with
    | none => 1
    | some (low, high, count) =>
      if low ≤ second ∧ second ≤ high then
        2 + ((rest.take (count - 1)).takeWhile fun b => 0x80 ≤ b ∧ b ≤ 0xBF).length
      else 1
  | _ => 1

theorem malformed_pos (bytes : List UInt8) : 0 < malformed bytes := by
  rw [malformed.eq_def]
  split
  · split
    · exact Nat.one_pos
    · split
      · omega
      · exact Nat.one_pos
  · exact Nat.one_pos

/-- UTF-8, with a replacement character for what is malformed. -/
def decodeReplace (bytes : List UInt8) : List Char :=
  if bytes = [] then []
  else
    match bytes.toByteArray.utf8DecodeChar? 0 with
    | some c => c :: decodeReplace (bytes.drop c.utf8Size)
    | none => Char.ofNat 0xFFFD :: decodeReplace (bytes.drop (malformed bytes))
termination_by bytes.length
decreasing_by
  all_goals
    have hlength : 0 < bytes.length := List.length_pos_iff.2 (by assumption)
    rw [List.length_drop]
  · have hsize := c.utf8Size_pos
    omega
  · have hmalformed := malformed_pos bytes
    omega

/-- **A character is read back from its bytes.** -/
theorem decodeReplace_append (c : Char) (bytes : List UInt8) :
    decodeReplace (String.utf8EncodeChar c ++ bytes) = c :: decodeReplace bytes := by
  have hlength : (String.utf8EncodeChar c).length = c.utf8Size := String.length_utf8EncodeChar c
  have hne : String.utf8EncodeChar c ++ bytes ≠ [] := by
    intro h
    have hsize := c.utf8Size_pos
    rw [(List.append_eq_nil_iff.1 h).1, List.length_nil] at hlength
    omega
  have hdecode : (String.utf8EncodeChar c ++ bytes).toByteArray.utf8DecodeChar? 0 = some c := by
    rw [List.toByteArray_append]
    exact ByteArray.utf8DecodeChar?_utf8EncodeChar_append
  rw [decodeReplace, if_neg hne, hdecode]
  simp only [List.drop_left' hlength]

/-- The bytes of an ASCII text with percent signs. -/
def unquoteToBytes : List Char → List UInt8
  | '%' :: a :: b :: rest =>
    match hexValue? a, hexValue? b with
    | some high, some low => UInt8.ofNat (high * 16 + low) :: unquoteToBytes rest
    | _, _ => '%'.toUInt8 :: unquoteToBytes (a :: b :: rest)
  | c :: rest => c.toUInt8 :: unquoteToBytes rest
  | [] => []

/-- The stretches of ASCII are decoded one by one; `run` is the stretch so far. -/
def unquoteFrom (run : List Char) : List Char → List Char
  | [] => decodeReplace (unquoteToBytes run)
  | c :: cs =>
    if c.toNat < 128 then unquoteFrom (run ++ [c]) cs
    else decodeReplace (unquoteToBytes run) ++ c :: unquoteFrom [] cs

/-- **`unquote`.** -/
def unquote (s : List Char) : List Char := if '%' ∈ s then unquoteFrom [] s else s

theorem decodeReplace_nil : decodeReplace [] = [] := by
  rw [decodeReplace, if_pos rfl]

theorem unquoteFrom_append {text : List Char} (h : IsAscii text) (run cs : List Char) :
    unquoteFrom run (text ++ cs) = unquoteFrom (run ++ text) cs := by
  induction text generalizing run with
  | nil => rw [List.nil_append, List.append_nil]
  | cons c text ih =>
      rw [IsAscii, List.forall_mem_cons] at h
      rw [List.cons_append, unquoteFrom, if_pos h.1, ih h.2, List.append_assoc]
      rfl

/-- A text in front of a stretch whose bytes are those of a character stands for the character. -/
theorem unquoteFrom_eq_cons {text : List Char} {c : Char}
    (h : ∀ run, unquoteToBytes (text ++ run) = String.utf8EncodeChar c ++ unquoteToBytes run)
    (run cs : List Char) : unquoteFrom (text ++ run) cs = c :: unquoteFrom run cs := by
  induction cs generalizing run with
  | nil => rw [unquoteFrom, unquoteFrom, h, decodeReplace_append]
  | cons d cs ih =>
      rw [unquoteFrom, unquoteFrom]
      by_cases hd : d.toNat < 128
      · rw [if_pos hd, if_pos hd, List.append_assoc, ih]
      · rw [if_neg hd, if_neg hd, h, decodeReplace_append]
        rfl

/-- A hexadecimal digit, in either case. -/
def hexDigit (upper : Bool) (n : ℕ) : Char :=
  if upper then (Nat.digitChar n).toUpper else Nat.digitChar n

theorem hexDigit_spec : ∀ upper : Bool, ∀ n < 16,
    hexValue? (hexDigit upper n) = some n ∧ 32 < (hexDigit upper n).toNat ∧
      (hexDigit upper n).toNat < 128 ∧ (hexDigit upper n).isAlphanum = true := by
  decide

/-- A byte that is quoted. -/
def quoteByte (upper : Bool) (b : UInt8) : List Char :=
  ['%', hexDigit upper (b.toNat / 16), hexDigit upper (b.toNat % 16)]

/-- A character as it is, or quoted with digits in either case. -/
def quoteChar (quoted : Option Bool) (c : Char) : List Char :=
  match quoted with
  | none => [c]
  | some upper => (String.utf8EncodeChar c).flatMap (quoteByte upper)

/-- A text, some of whose characters are quoted. -/
def quoteText (name : List (Option Bool × Char)) : List Char :=
  name.flatMap fun m => quoteChar m.1 m.2

theorem mem_quoteByte {upper : Bool} {b : UInt8} {c : Char} (h : c ∈ quoteByte upper b) :
    c = '%' ∨ c.isAlphanum = true := by
  have hlt : b.toNat < 256 := b.toNat_lt
  simp only [quoteByte, List.mem_cons, List.not_mem_nil, or_false] at h
  rcases h with rfl | rfl | rfl
  · exact Or.inl rfl
  · exact Or.inr (hexDigit_spec upper _ (by omega)).2.2.2
  · exact Or.inr (hexDigit_spec upper _ (by omega)).2.2.2

theorem unquoteToBytes_quoteByte (upper : Bool) (b : UInt8) (run : List Char) :
    unquoteToBytes (quoteByte upper b ++ run) = b :: unquoteToBytes run := by
  have hlt : b.toNat < 256 := b.toNat_lt
  have hhigh := (hexDigit_spec upper (b.toNat / 16) (by omega)).1
  have hlow := (hexDigit_spec upper (b.toNat % 16) (by omega)).1
  have hbyte : b.toNat / 16 * 16 + b.toNat % 16 = b.toNat := by omega
  simp only [quoteByte, List.cons_append, List.nil_append, unquoteToBytes, hhigh, hlow, hbyte,
    UInt8.ofNat_toNat]

theorem unquoteToBytes_quoteBytes (upper : Bool) (bytes : List UInt8) (run : List Char) :
    unquoteToBytes (bytes.flatMap (quoteByte upper) ++ run) = bytes ++ unquoteToBytes run := by
  induction bytes with
  | nil => rfl
  | cons b bytes ih =>
      rw [List.flatMap_cons, List.append_assoc, unquoteToBytes_quoteByte, ih]
      rfl

theorem unquoteToBytes_char {c : Char} (hascii : c.toNat < 128) (hpercent : c ≠ '%')
    (run : List Char) :
    unquoteToBytes (c :: run) = String.utf8EncodeChar c ++ unquoteToBytes run := by
  have hsize : c.utf8Size = 1 := by
    rw [Char.utf8Size_eq_one_iff, UInt32.le_iff_toNat_le]
    exact Nat.le_of_lt_succ hascii
  rw [String.utf8EncodeChar_eq_singleton hsize, unquoteToBytes]
  · rfl
  · rintro a b rest rfl -
    exact hpercent rfl

/-- A text whose characters are quoted unless they are other than percent signs. -/
def IsQuoted (name : List (Option Bool × Char)) : Prop := ∀ m ∈ name, m.1 = none → m.2 ≠ '%'

theorem unquoteFrom_quoteChar {m : Option Bool × Char} (h : m.1 = none → m.2 ≠ '%')
    (cs : List Char) : unquoteFrom [] (quoteChar m.1 m.2 ++ cs) = m.2 :: unquoteFrom [] cs := by
  obtain ⟨quoted, c⟩ := m
  have hstretch : ∀ text, IsAscii text → (∀ run, unquoteToBytes (text ++ run) =
      String.utf8EncodeChar c ++ unquoteToBytes run) →
      unquoteFrom [] (text ++ cs) = c :: unquoteFrom [] cs := by
    intro text htext hbytes
    rw [unquoteFrom_append htext]
    have hcons := unquoteFrom_eq_cons hbytes [] cs
    rwa [List.append_nil] at hcons
  cases quoted with
  | some upper =>
      refine hstretch _ ?_ (unquoteToBytes_quoteBytes upper _)
      intro d hd
      obtain ⟨b, -, hb⟩ := List.mem_flatMap.1 hd
      rcases mem_quoteByte hb with rfl | halphanum
      · decide
      · have hrange := toNat_of_isAlphanum halphanum
        omega
  | none =>
      by_cases hascii : c.toNat < 128
      · refine hstretch [c] ?_ (unquoteToBytes_char hascii (h rfl))
        intro d hd
        rwa [List.mem_singleton.1 hd]
      · -- a character beyond ASCII ends the stretch, which is empty
        rw [quoteChar, List.singleton_append, unquoteFrom, if_neg hascii, unquoteToBytes,
          decodeReplace_nil]
        rfl

theorem unquoteFrom_quoteText {name : List (Option Bool × Char)} (h : IsQuoted name) :
    unquoteFrom [] (quoteText name) = name.map Prod.snd := by
  induction name with
  | nil => exact decodeReplace_nil
  | cons m name ih =>
      rw [IsQuoted, List.forall_mem_cons] at h
      rw [quoteText, List.flatMap_cons, unquoteFrom_quoteChar h.1, List.map_cons]
      exact congrArg _ (ih h.2)

/-- Without percent signs there is nothing to do. -/
theorem unquote_eq (s : List Char) : unquote s = unquoteFrom [] s := by
  rw [unquote]
  split
  · rfl
  · next hnone =>
      let name : List (Option Bool × Char) := s.map fun c => (none, c)
      have hquoted : IsQuoted name := by
        intro m hm _
        obtain ⟨c, hc, rfl⟩ := List.mem_map.1 hm
        exact ne_of_mem_of_not_mem hc hnone
      have htext : quoteText name = s := by
        rw [quoteText, List.flatMap_map]
        exact List.flatMap_singleton' s
      have hvalue : name.map Prod.snd = s := by
        rw [List.map_map]
        exact List.map_id s
      have hread := unquoteFrom_quoteText hquoted
      rw [htext, hvalue] at hread
      exact hread.symm

/-- **However many characters of a text are quoted, the text is read back.** -/
theorem unquote_quoteText {name : List (Option Bool × Char)} (h : IsQuoted name) :
    unquote (quoteText name) = name.map Prod.snd :=
  (unquote_eq _).trans (unquoteFrom_quoteText h)

end Url
