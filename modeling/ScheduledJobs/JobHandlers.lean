/-
**The handlers of jobs.**

A worker looks the handler of a job up by the job's type.  `FIBONACCI` lists the Fibonacci numbers
up to a limit, each of them computed anew by fast doubling: from the pair of two consecutive numbers
at half the index come the two at the index itself.

The doubling subtracts, and what is subtracted is the smaller number; the loop stops because the
numbers outgrow their index, but for the `1` that occurs twice.

Main definitions:

* `pair`, `fibonacci` — **fast doubling**;
* `pairTrace` — the integers it computes on the way;
* `fibonacciValues`, `fibonacciHandler` — the loop of the handler and what it makes of its values;
* `printHandler`, `HandlerRegistry` — the other handler, and the handlers by job type;
* `outcomeOf` — what the worker makes of a handler.

Main results:

* `pair_eq`, `nonneg_of_mem_pairTrace` — the pairs are those of the Fibonacci numbers, and nothing
  on the way is negative;
* `fibonacciValues_eq` — what the loop collects;
* `HandlerRegistry.execute_default_meets` — the handlers that are always there fail for good;
* `fibonacci_correct` — **every number and every list of them is right**.
-/

import ScheduledJobs.JsonObject
import ScheduledJobs.SchedulerWorker
import Mathlib.Data.Nat.Fib.Basic
import Mathlib.Order.Bounds.Basic

set_option relaxedAutoImplicit false
set_option autoImplicit false

namespace ScheduledJobs.Handlers

open Json (Object)

/-! ### Fast doubling -/

/-- What a handler raises. -/
inductive HandlerException
  | handlerError (failure : HandlerError) (message : String)
  | valueError (message : String)
  /-- An exception of a client. -/
  | other
  deriving DecidableEq

/-- `pair`, the recursion inside `fibonacci`. -/
def pair (value : ℕ) : ℤ × ℤ :=
  if value = 0 then (0, 1)
  else
    let first := (pair (value / 2)).1
    let second := (pair (value / 2)).2
    let low := first * (2 * second - first)
    let high := first * first + second * second
    if value % 2 = 1 then (high, low + high) else (low, high)
termination_by value
decreasing_by all_goals omega

/-- The integers that `pair` computes, in the call it makes and after it. -/
def pairTrace (value : ℕ) : List ℤ :=
  if value = 0 then [0, 1]
  else
    let first := (pair (value / 2)).1
    let second := (pair (value / 2)).2
    let low := first * (2 * second - first)
    let high := first * first + second * second
    pairTrace (value / 2) ++
      [2 * second, 2 * second - first, low, first * first, second * second, high] ++
      if value % 2 = 1 then [low + high] else []
termination_by value
decreasing_by omega

/-- **`fibonacci`.** -/
def fibonacci (number : ℤ) : Except HandlerException ℤ :=
  if number < 0 then .error (.valueError "number cannot be negative")
  else .ok (pair number.toNat).1

section Doubling

variable (m : ℕ)

/-- The subtraction is one of natural numbers. -/
theorem fib_le_two_mul_fib_succ : Nat.fib m ≤ 2 * Nat.fib (m + 1) := by
  have hle : Nat.fib m ≤ Nat.fib (m + 1) := Nat.fib_le_fib_succ
  omega

theorem low_eq : (Nat.fib m : ℤ) * (2 * Nat.fib (m + 1) - Nat.fib m) = Nat.fib (2 * m) := by
  rw [Nat.fib_two_mul, Nat.cast_mul, Nat.cast_sub (fib_le_two_mul_fib_succ m), Nat.cast_mul]
  rfl

theorem high_eq :
    (Nat.fib m : ℤ) * Nat.fib m + Nat.fib (m + 1) * Nat.fib (m + 1) = Nat.fib (2 * m + 1) := by
  rw [Nat.fib_two_mul_add_one]
  push_cast
  ring

end Doubling

/-- **`pair` returns two consecutive Fibonacci numbers.** -/
theorem pair_eq (value : ℕ) : pair value = ((Nat.fib value : ℤ), (Nat.fib (value + 1) : ℤ)) := by
  induction value using Nat.strong_induction_on with
  | _ value ih =>
      rw [pair]
      by_cases hzero : value = 0
      · subst hzero
        rfl
      · have hhalf : value / 2 < value := by omega
        simp only [if_neg hzero, ih _ hhalf, low_eq, high_eq]
        by_cases hodd : value % 2 = 1
        · have hvalue : value = 2 * (value / 2) + 1 := by omega
          have hnext : Nat.fib (value + 1) =
              Nat.fib (2 * (value / 2)) + Nat.fib (2 * (value / 2) + 1) := by
            rw [← Nat.fib_add_two]
            exact congrArg Nat.fib (by omega)
          rw [if_pos hodd, hnext, Nat.cast_add, ← hvalue]
        · have hvalue : 2 * (value / 2) = value := by omega
          rw [if_neg hodd, hvalue]

/-- **Nothing that is computed on the way is negative.** -/
theorem nonneg_of_mem_pairTrace (value : ℕ) : ∀ n ∈ pairTrace value, 0 ≤ n := by
  induction value using Nat.strong_induction_on with
  | _ value ih =>
      rw [pairTrace]
      by_cases hzero : value = 0
      · simp [hzero]
      · have hhalf : value / 2 < value := by omega
        have hle : (Nat.fib (value / 2) : ℤ) ≤ 2 * Nat.fib (value / 2 + 1) := by
          exact_mod_cast fib_le_two_mul_fib_succ (value / 2)
        simp only [if_neg hzero, pair_eq, low_eq, high_eq, List.append_assoc, List.mem_append]
        rintro n (hn | hn | hn)
        · exact ih _ hhalf n hn
        · simp only [List.mem_cons, List.not_mem_nil, or_false] at hn
          rcases hn with rfl | rfl | rfl | rfl | rfl | rfl
          · positivity
          · omega
          · positivity
          · positivity
          · positivity
          · positivity
        · split at hn
          · obtain rfl := List.mem_singleton.1 hn
            positivity
          · cases hn

/-- A number has a Fibonacci number unless it is negative. -/
theorem fibonacci_meets (number : ℤ) :
    (fibonacci number).Meets (fun f => f = Nat.fib number.toNat)
      fun e => ∃ message, e = .valueError message := by
  by_cases h : number < 0
  · rw [fibonacci, if_pos h]
    exact ⟨_, rfl⟩
  · rw [fibonacci, if_neg h, pair_eq]
    exact rfl

theorem fibonacci_natCast (n : ℕ) : fibonacci n = .ok (Nat.fib n : ℤ) := by
  rw [fibonacci, if_neg (by omega), Int.toNat_natCast, pair_eq]

/-! ### The Fibonacci numbers up to a limit -/

/-- The loop of `fibonacci_handler`, whose index is not negative.  The numbers grow at least as
their index from its second step on. -/
def fibonacciLoop (limit : ℤ) (index : ℕ) (values : List ℤ) : List ℤ :=
  if limit < (pair index).1 then values
  else fibonacciLoop limit (index + 1) (values ++ [(pair index).1])
termination_by limit.toNat + 2 - index
decreasing_by
  have hle : index ≤ Nat.fib index + 1 := Nat.le_fib_add_one index
  simp only [pair_eq] at *
  omega

/-- The values the loop ends with. -/
def fibonacciValues (limit : ℤ) : List ℤ := fibonacciLoop limit 0 []

/-- **What the loop has collected when it stops**: the numbers before the first one above the
limit. -/
theorem fibonacciLoop_eq (limit : ℤ) {index : ℕ} {values : List ℤ}
    (hvalues : values = (List.range index).map fun i => (Nat.fib i : ℤ))
    (hbelow : ∀ i < index, (Nat.fib i : ℤ) ≤ limit) :
    ∃ k, limit < Nat.fib k ∧ (∀ i < k, (Nat.fib i : ℤ) ≤ limit) ∧
      fibonacciLoop limit index values = (List.range k).map fun i => (Nat.fib i : ℤ) := by
  fun_induction fibonacciLoop limit index values with
  | case1 index values habove =>
      rw [pair_eq] at habove
      exact ⟨index, habove, hbelow, hvalues⟩
  | case2 index values hle ih =>
      rw [pair_eq] at hle
      refine ih ?_ fun i hi => ?_
      · rw [hvalues, pair_eq, List.range_succ, List.map_append]
        rfl
      · rcases Nat.lt_succ_iff_lt_or_eq.1 hi with hlt | rfl
        · exact hbelow i hlt
        · exact not_lt.1 hle

theorem fibonacciValues_eq (limit : ℤ) :
    ∃ k, limit < Nat.fib k ∧ (∀ i < k, (Nat.fib i : ℤ) ≤ limit) ∧
      fibonacciValues limit = (List.range k).map fun i => (Nat.fib i : ℤ) :=
  fibonacciLoop_eq limit rfl fun i hi => absurd hi (Nat.not_lt_zero i)

/-- The last of the numbers before the first one above the limit is the greatest up to it. -/
theorem isGreatest_fib {limit : ℤ} {k : ℕ} (habove : limit < Nat.fib (k + 1))
    (hbelow : (Nat.fib k : ℤ) ≤ limit) :
    IsGreatest {f : ℤ | (∃ i, f = Nat.fib i) ∧ f ≤ limit} (Nat.fib k) := by
  refine ⟨⟨⟨k, rfl⟩, hbelow⟩, ?_⟩
  rintro f ⟨⟨i, rfl⟩, hle⟩
  have hlt : Nat.fib i < Nat.fib (k + 1) := by
    have := lt_of_le_of_lt hle habove
    omega
  have hik : i ≤ k := Nat.lt_succ_iff.1 (Nat.fib_mono.reflect_lt hlt)
  exact_mod_cast Nat.fib_mono hik

/-! ### Handlers -/

/-- `job.payload or {}`. -/
def payloadOf (job : ClaimedJob Object) : Object := job.payload.getD .empty

/-- The interpreter's `max_str_digits`. -/
@[irreducible] def maxStrDigits : ℕ := 4300

/-- `str` of an integer, which has no text beyond the interpreter's limit of digits. -/
def intText (n : ℤ) : Except HandlerException String :=
  if n.natAbs < 10 ^ maxStrDigits then .ok (String.ofList (Json.printInt n))
  else
    .error (.valueError ("Exceeds the limit (4300 digits) for integer string conversion; " ++
      "use sys.set_int_max_str_digits() to increase the limit"))

theorem intText_meets (n : ℤ) :
    (intText n).Meets (fun text => text = String.ofList (Json.printInt n))
      fun e => ∃ message, e = .valueError message := by
  by_cases h : n.natAbs < 10 ^ maxStrDigits
  · simp only [intText, if_pos h, Except.meets_ok]
  · simp only [intText, if_neg h, Except.meets_error]
    exact ⟨_, rfl⟩

/-- `str` of the message of a job, which is empty when there is none. -/
def printedMessage (job : ClaimedJob Object) : Except HandlerException String :=
  match (payloadOf job).get? "message" with
  | none => .ok ""
  | some .null => .ok "None"
  | some (.bool true) => .ok "True"
  | some (.bool false) => .ok "False"
  | some (.int n) => intText n
  | some (.str text) => .ok text

/-- `print_handler`. -/
def printHandler (job : ClaimedJob Object) : Except HandlerException Object := do
  let message ← printedMessage job
  return Json.ofMembers [("messageLength", .int message.length)]

/-- A member that has to be an integer, and no boolean, that is admitted. -/
def requireInt (value : Json.Scalar) (admits : ℤ → Prop) [DecidablePred admits]
    (refusal : HandlerException) : Except HandlerException ℤ :=
  match value with
  | .int n => if admits n then .ok n else .error refusal
  | _ => .error refusal

theorem requireInt_meets {value : Json.Scalar} {admits : ℤ → Prop} [DecidablePred admits]
    {refusal : HandlerException} :
    (requireInt value admits refusal).Meets (fun n => value = .int n ∧ admits n)
      fun e => e = refusal := by
  cases value with
  | int n =>
      by_cases hadmits : admits n
      · simp only [requireInt, if_pos hadmits]
        exact ⟨rfl, hadmits⟩
      · simp only [requireInt, if_neg hadmits]
        exact rfl
  | null | bool _ | str _ => exact rfl

/-- The limit of `fibonacci_handler`. -/
def fibonacciLimit (job : ClaimedJob Object) : Except HandlerException ℤ :=
  requireInt (((payloadOf job).get? "limit").getD (.int 10000)) (fun n => 0 ≤ n ∧ n ≤ 10000)
    (.handlerError ⟨"INVALID_FIBONACCI_LIMIT", false⟩ "limit must be an integer from 0 to 10000")

/-- `json.dumps` of a list of integers, without spaces. -/
def dumpsInts (values : List ℤ) : String :=
  String.ofList ('[' :: List.intercalate [','] (values.map Json.printInt) ++ [']'])

/-- What `fibonacci_handler` makes of its values. -/
def fibonacciSummary (values : List ℤ) : Object :=
  Json.ofMembers
    [("count", .int values.length),
     ("lastValue", (values.getLast?.map Json.Scalar.int).getD .null),
     ("resultHash", .str (digest (dumpsInts values)))]

/-- `fibonacci_handler`. -/
def fibonacciHandler (job : ClaimedJob Object) : Except HandlerException Object := do
  let limit ← fibonacciLimit job
  return fibonacciSummary (fibonacciValues limit)

/-- The handlers, by job type. -/
structure HandlerRegistry where
  handlers : Dict String (ClaimedJob Object → Except HandlerException Object)

namespace HandlerRegistry

/-- `HandlerRegistry.__init__`, without further handlers. -/
def default : HandlerRegistry where
  handlers := (Dict.empty.set "PRINT" printHandler).set "FIBONACCI" fibonacciHandler

/-- `register`. -/
def register (registry : HandlerRegistry) (jobType : String)
    (handler : ClaimedJob Object → Except HandlerException Object) : HandlerRegistry where
  handlers := registry.handlers.set jobType handler

/-- `execute`. -/
def execute (registry : HandlerRegistry) (job : ClaimedJob Object) :
    Except HandlerException Object :=
  match registry.handlers.get? job.jobType with
  | some handler => handler job
  | none => .error (.handlerError ⟨"UNKNOWN_JOB_TYPE", false⟩ "no handler is registered")

end HandlerRegistry

/-- What the worker makes of a handler: a `HandlerError` is recorded as it is, any other exception
as an unexpected one. -/
def outcomeOf : Except HandlerException Object → HandlerOutcome Object
  | .ok summary => .returned summary
  | .error (.handlerError failure _) => .failed failure
  | .error (.valueError _) | .error .other => .raised

theorem outcomeOf_eq_failed_iff {x : Except HandlerException Object} {failure : HandlerError} :
    outcomeOf x = .failed failure ↔ ∃ message, x = .error (.handlerError failure message) := by
  cases x with
  | ok summary => simp [outcomeOf]
  | error e => cases e <;> simp [outcomeOf]

/-! ### The handlers that are always there -/

/-- An exception that is a failure of a handler is one of those. -/
def FailsWith (P : HandlerError → Prop) (e : HandlerException) : Prop :=
  ∀ failure message, e = .handlerError failure message → P failure

theorem failsWith_valueError {P : HandlerError → Prop} {e : HandlerException}
    (h : ∃ message, e = .valueError message) : FailsWith P e := by
  obtain ⟨_, rfl⟩ := h
  rintro _ _ ⟨⟩

theorem failsWith_handlerError (P : HandlerError → Prop) {failure : HandlerError}
    (hfailure : P failure) {message : String} {e : HandlerException}
    (h : e = .handlerError failure message) : FailsWith P e := by
  subst h
  rintro _ _ ⟨⟩
  exact hfailure

/-- The failure is not to be tried again. -/
def IsPermanent (failure : HandlerError) : Prop := failure.retryable = false

theorem printHandler_meets (job : ClaimedJob Object) :
    (printHandler job).Meets (fun _ => True) (FailsWith IsPermanent) := by
  have hmessage : (printedMessage job).Meets (fun _ => True) (FailsWith IsPermanent) := by
    rw [printedMessage]
    split
    · trivial
    · trivial
    · trivial
    · trivial
    · next n _ =>
        exact ((intText_meets n).imp_error fun _ => failsWith_valueError).imp
          fun _ _ _ => trivial
    · trivial
  exact hmessage.bind fun _ _ _ => trivial

theorem fibonacciHandler_meets (job : ClaimedJob Object) :
    (fibonacciHandler job).Meets (fun _ => True) (FailsWith IsPermanent) :=
  (requireInt_meets.imp_error fun _ => failsWith_handlerError IsPermanent (by exact rfl)).bind
    fun _ _ _ => trivial

namespace HandlerRegistry

theorem execute_register_self (registry : HandlerRegistry) {job : ClaimedJob Object}
    {jobType : String} (h : job.jobType = jobType)
    (handler : ClaimedJob Object → Except HandlerException Object) :
    (registry.register jobType handler).execute job = handler job := by
  rw [execute, register, h, Dict.get?_set_self]

theorem execute_register_of_ne (registry : HandlerRegistry) {job : ClaimedJob Object}
    {jobType : String} (h : job.jobType ≠ jobType)
    (handler : ClaimedJob Object → Except HandlerException Object) :
    (registry.register jobType handler).execute job = registry.execute job := by
  rw [execute, register, Dict.get?_set_ne _ h]
  rfl

/-- **The handlers that are always there fail for good when they fail**, as does a job of no
registered type. -/
theorem execute_default_meets (job : ClaimedJob Object) :
    (default.execute job).Meets (fun _ => True) (FailsWith IsPermanent) := by
  rw [execute]
  split
  · next handler hget =>
      rw [default, Dict.get?_set] at hget
      split at hget
      · obtain rfl := Option.some.inj hget
        exact fibonacciHandler_meets job
      · rw [Dict.get?_set] at hget
        split at hget
        · obtain rfl := Option.some.inj hget
          exact printHandler_meets job
        · cases hget
  · exact failsWith_handlerError IsPermanent (by exact rfl) rfl

end HandlerRegistry

/-! ### The Fibonacci handler -/

theorem lastValue_fibonacciSummary (values : List ℤ) :
    (fibonacciSummary values).get? "lastValue" =
      some ((values.getLast?.map Json.Scalar.int).getD .null) := rfl

/-- **Every number is right, and every list of them.** -/
theorem fibonacci_correct :
    (∀ n : ℕ, fibonacci n = .ok (Nat.fib n : ℤ) ∧
      pair n = ((Nat.fib n : ℤ), (Nat.fib (n + 1) : ℤ)) ∧ ∀ v ∈ pairTrace n, 0 ≤ v) ∧
    ∀ limit : ℕ, ∃ k, (limit : ℤ) < Nat.fib k ∧ (∀ i < k, (Nat.fib i : ℤ) ≤ limit) ∧
      fibonacciValues limit = (List.range k).map (fun i => (Nat.fib i : ℤ)) ∧
      ∃ last, (fibonacciSummary (fibonacciValues limit)).get? "lastValue" = some (.int last) ∧
        IsGreatest {f : ℤ | (∃ i, f = Nat.fib i) ∧ f ≤ limit} last := by
  refine ⟨fun n => ⟨fibonacci_natCast n, pair_eq n, nonneg_of_mem_pairTrace n⟩, fun limit => ?_⟩
  obtain ⟨k, habove, hbelow, hvalues⟩ := fibonacciValues_eq limit
  cases k with
  | zero =>
      -- the first number is not above a natural limit
      rw [Nat.fib_zero] at habove
      omega
  | succ k =>
      refine ⟨k + 1, habove, hbelow, hvalues, Nat.fib k, ?_,
        isGreatest_fib habove (hbelow k (Nat.lt_succ_self k))⟩
      rw [lastValue_fibonacciSummary, hvalues, List.range_succ, List.map_append, List.map_singleton,
        List.getLast?_concat]
      rfl

end ScheduledJobs.Handlers
