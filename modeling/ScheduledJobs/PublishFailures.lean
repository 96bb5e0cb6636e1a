/-
**What a publisher does about a record it could not publish.**

`_failed` writes down that the attempt failed and when the next one is due.  It is the handler of
`run_once` that calls it, so what is raised there leaves `run_once`, and the records that are left
of the batch stay leased.

Main definitions:

* `Publishing.failed`, `Publishing.runOnce` — `_failed` and `run_once`;
* `Publishing.RecordsFailure`, `Publishing.FailuresRecorded` — **what is promised of a failure, and
  of a batch**.

Main results:

* `Publishing.recordsFailure_iff`, `Publishing.failuresRecorded_iff` — **a failure is recorded
  exactly when its ceiling can be computed and added to the clock**.
-/

import ScheduledJobs.OutboxPublication
import ScheduledJobs.StatefulPrograms

set_option relaxedAutoImplicit false
set_option autoImplicit false

namespace ScheduledJobs

open Outbox

/-! ### The publisher -/

namespace Publishing

/-- The outbox, and the records the loop of `run_once` has come to. -/
structure State where
  outbox : Table Entry.eventId
  attempted : List OutboxRecord := []

abbrev PublisherM := EStateM PublisherError State

/-- What becomes of the attempt to publish a record. -/
inductive Delivery
  /-- The broker has acknowledged it, and `_published` has committed. -/
  | published (coordinate : BrokerCoordinate) (now : Datetime)
  /-- Something raises, after `_published` has committed or not. -/
  | raised (error : String) (committed : Option (BrokerCoordinate × Datetime)) (drawn : Drawn)
      (now : Datetime)

/-- The time at which `_failed` runs, if producing the record raises. -/
def Delivery.failedAt? : Delivery → Option Datetime
  | published .. => none
  | raised _ _ _ now => some now

/-- One turn of the loop, with what other transactions do to the outbox before it. -/
structure Turn where
  others : Table Entry.eventId → Table Entry.eventId := id
  delivery : Delivery

/-- A call of `run_once`. -/
structure Pass where
  stopping : Bool := false
  token : ℕ := 0
  clock : ClockReads
  locked : List String := []
  turns : ℕ → Turn

variable (publisher : OutboxPublisher)

/-- **`_failed`** on the outbox of the state. -/
def failed (record : OutboxRecord) (error : String) (drawn : Drawn) (now : Datetime) :
    PublisherM PUnit := do
  let s ← get
  match publisher.failed s.outbox record error drawn now with
  | .error e => throw e
  | .ok outbox => set { s with outbox := outbox }

/-- `_published`, if it is committed. -/
def publishedIf (record : OutboxRecord) : Option (BrokerCoordinate × Datetime) → State → State
  | some committed, s =>
      { s with outbox := Outbox.published s.outbox record committed.1 committed.2 }
  | none, s => s

/-- The body of the loop. -/
def publishRecord (record : OutboxRecord) (turn : Turn) : PublisherM PUnit := do
  modify fun s => { outbox := turn.others s.outbox, attempted := s.attempted ++ [record] }
  match turn.delivery with
  | .published coordinate now => modify (publishedIf record (some (coordinate, now)))
  | .raised error committed drawn now =>
      modify (publishedIf record committed)
      failed publisher record error drawn now

/-- The loop. -/
def publishAll : List OutboxRecord → (ℕ → Turn) → PublisherM PUnit
  | [], _ => pure PUnit.unit
  | record :: records, turns => do
      publishRecord publisher record (turns 0)
      publishAll records fun i => turns (i + 1)

/-- The records a pass leases. -/
def recordsOf (outbox : Table Entry.eventId) (pass : Pass) : List OutboxRecord :=
  if pass.stopping then []
  else (publisher.lease outbox pass.token pass.clock pass.locked).2

/-- **`run_once`.** -/
def runOnce (pass : Pass) : PublisherM ℕ := do
  if pass.stopping then return 0
  let s ← get
  let (outbox, records) := publisher.lease s.outbox pass.token pass.clock pass.locked
  set { s with outbox := outbox }
  publishAll publisher records pass.turns
  return records.length

/-! ### What is promised -/

/-- **A failure of the record at the time is recorded**: the delay is between half of and the whole
of the ceiling, and the row that carries the record's token is given back with it, without the lease
and with one more attempt; every other row stays as it is. -/
def RecordsFailure (record : OutboxRecord) (now : Datetime) : Prop :=
  ∀ s error drawn, ∃ s' c delay, failed publisher record error drawn now s = .ok PUnit.unit s' ∧
    publisher.tuning.whole record.attempts = .finite c ∧ halfOf c ≤ delay ∧ delay ≤ c ∧
    s'.attempted = s.attempted ∧ ∀ eventId, s'.outbox.find? eventId =
      (s.outbox.find? eventId).map fun entry =>
        if entry.Held record then entry.fail error (now + microseconds delay) else entry

/-- **What is promised of a batch**: the failures are recorded, and `run_once` comes to every
record. -/
structure FailuresRecorded (outbox : Table Entry.eventId) (pass : Pass) : Prop where
  recorded : ∀ i record now, (recordsOf publisher outbox pass)[i]? = some record →
    (pass.turns i).delivery.failedAt? = some now → RecordsFailure publisher record now
  goesOn : ∃ s, runOnce publisher pass { outbox := outbox } =
      .ok (recordsOf publisher outbox pass).length s ∧
    s.attempted = recordsOf publisher outbox pass

/-! ### Recording failures -/

variable {publisher} {record : OutboxRecord} {now : Datetime}

/-- `_failed` with a ceiling that is bounded. -/
theorem failed_of_bounded (hvalid : publisher.tuning.Valid)
    (h : publisher.tuning.Bounded record.attempts now) (error : String) (drawn : Drawn)
    (s : State) :
    ∃ c delay, publisher.tuning.whole record.attempts = .finite c ∧ halfOf c ≤ delay ∧ delay ≤ c ∧
      failed publisher record error drawn now s = .ok PUnit.unit { s with
        outbox := updateHeld s.outbox record
          (fun entry => entry.fail error (now + microseconds delay)) fun _ => rfl } := by
  obtain ⟨c, delay, hceiling, hwhole, hdelay, hhalf, hle, hnext⟩ :=
    RetryTuning.exists_nextAttemptAt hvalid h drawn
  refine ⟨c, delay, hwhole, hhalf, hle, ?_⟩
  have hfailed : publisher.failed s.outbox record error drawn now = .ok (updateHeld s.outbox record
      (fun entry => entry.fail error (now + microseconds delay)) fun _ => rfl) := by
    rw [OutboxPublisher.failed, hceiling, Except.ok_bind]
    split
    · rw [hdelay, hnext]
      rfl
    · next hnone => exact congrArg Except.ok (updateHeld_of_not_holds hnone _).symm
  change (match publisher.failed s.outbox record error drawn now with
    | .error e => throw e
    | .ok outbox => set { s with outbox := outbox } : PublisherM PUnit) s = _
  rw [hfailed]
  rfl

/-- A row that carries the token of a record. -/
def heldRow (record : OutboxRecord) : Entry where
  eventId := record.eventId
  topic := record.topic
  messageKey := record.messageKey
  canonicalPayload := record.payload
  createdAt := 0
  nextAttemptAt := 0
  leaseToken := some record.leaseToken

/-- `_failed` raises where the ceiling is not bounded, if a row is held and a number is drawn that
is close to one. -/
theorem exists_failed_error (hvalid : publisher.tuning.Valid)
    (h : ¬ publisher.tuning.Bounded record.attempts now) :
    ∃ s drawn e, ∀ error, failed publisher record error drawn now s = .error e s := by
  let s : State := { outbox := Table.empty.upsert (heldRow record) }
  have hholds : Holds s.outbox record :=
    ⟨heldRow record, List.mem_singleton_self _, rfl, rfl⟩
  have hraises (drawn : Drawn) (e : PublisherError) (error : String)
      (he : publisher.failed s.outbox record error drawn now = .error e) :
      failed publisher record error drawn now s = .error e s := by
    change (match publisher.failed s.outbox record error drawn now with
      | .error e => throw e
      | .ok outbox => set { s with outbox := outbox } : PublisherM PUnit) s = _
    rw [he]
    rfl
  rcases RetryTuning.exists_nextAttemptAt_error hvalid h with
    ⟨e, he⟩ | ⟨ceiling, drawn, e, hceiling, he⟩
  · refine ⟨s, { value := 0 }, e, fun error => hraises _ e error ?_⟩
    rw [OutboxPublisher.failed, he]
    rfl
  · refine ⟨s, drawn, e, fun error => hraises _ e error ?_⟩
    rw [OutboxPublisher.failed, hceiling, Except.ok_bind, if_pos hholds, he]
    rfl

/-- **A failure is recorded exactly when its ceiling can be computed and added to the clock.** -/
theorem recordsFailure_iff (hvalid : publisher.tuning.Valid) :
    RecordsFailure publisher record now ↔ publisher.tuning.Bounded record.attempts now := by
  constructor
  · intro h
    by_contra hnot
    obtain ⟨s, drawn, e, herror⟩ := exists_failed_error hvalid hnot
    obtain ⟨s', c, delay, hok, -⟩ := h s "" drawn
    rw [herror] at hok
    cases hok
  · intro h s error drawn
    obtain ⟨c, delay, hwhole, hhalf, hle, hfailed⟩ := failed_of_bounded hvalid h error drawn s
    exact ⟨_, c, delay, hfailed, hwhole, hhalf, hle, rfl,
      fun eventId => by simp only [updateHeld, Table.find?_mapRows]⟩

/-- A turn of the loop goes through, unless a failure cannot be recorded. -/
theorem meets_publishRecord (hvalid : publisher.tuning.Valid) {turn : Turn}
    (attempted : List OutboxRecord)
    (h : ∀ now, turn.delivery.failedAt? = some now →
      publisher.tuning.Bounded record.attempts now) :
    (publishRecord publisher record turn).Meets (fun s => s.attempted = attempted)
      (fun _ s => s.attempted = attempted ++ [record]) fun _ _ => False := by
  have hpublished (committed : Option (BrokerCoordinate × Datetime)) (s : State) :
      (publishedIf record committed s).attempted = s.attempted := by
    cases committed <;> rfl
  unfold publishRecord
  refine EStateM.Meets.bind (Q := fun _ s => s.attempted = attempted ++ [record])
    (EStateM.Meets.modify fun s hs => congrArg (· ++ [record]) hs) fun _ => ?_
  cases hdelivery : turn.delivery with
  | published coordinate now =>
      exact EStateM.Meets.modify fun s hs => (hpublished _ s).trans hs
  | raised error committed drawn now =>
      have hbounded := h now (by rw [hdelivery]; rfl)
      refine EStateM.Meets.bind (Q := fun _ s => s.attempted = attempted ++ [record])
        (EStateM.Meets.modify fun s hs => (hpublished _ s).trans hs) fun _ s hs => ?_
      obtain ⟨c, delay, -, -, -, hfailed⟩ := failed_of_bounded hvalid hbounded error drawn s
      rw [hfailed]
      exact hs

/-- **The loop comes to every record.** -/
theorem meets_publishAll (hvalid : publisher.tuning.Valid) {records : List OutboxRecord}
    {turns : ℕ → Turn} (attempted : List OutboxRecord)
    (h : ∀ i record now, records[i]? = some record → (turns i).delivery.failedAt? = some now →
      publisher.tuning.Bounded record.attempts now) :
    (publishAll publisher records turns).Meets (fun s => s.attempted = attempted)
      (fun _ s => s.attempted = attempted ++ records) fun _ _ => False := by
  induction records generalizing turns attempted with
  | nil =>
      rw [List.append_nil]
      exact EStateM.Meets.pure fun _ hs => hs
  | cons record records ih =>
      rw [publishAll]
      refine EStateM.Meets.bind
        (meets_publishRecord hvalid attempted fun now => h 0 record now rfl) fun _ => ?_
      rw [List.append_cons attempted record records]
      exact ih (attempted ++ [record]) fun i record' now hrecord => h (i + 1) record' now hrecord

/-- **The failures of a batch are recorded exactly when the ceilings of all of them can be computed
and added to the clock**: those of records that were tried fewer than 1024 times, with a ceiling
that is within the range of a timestamp. -/
theorem failuresRecorded_iff (publisher : OutboxPublisher) (hvalid : publisher.tuning.Valid)
    (outbox : Table Entry.eventId) (pass : Pass) :
    FailuresRecorded publisher outbox pass ↔
      ∀ i record now, (recordsOf publisher outbox pass)[i]? = some record →
        (pass.turns i).delivery.failedAt? = some now →
          publisher.tuning.Bounded record.attempts now := by
  constructor
  · intro h i record now hrecord hfails
    exact (recordsFailure_iff hvalid).mp (h.recorded i record now hrecord hfails)
  · intro h
    refine ⟨fun i record now hrecord hfails =>
      (recordsFailure_iff hvalid).mpr (h i record now hrecord hfails), ?_⟩
    cases hstopping : pass.stopping with
    | true =>
        have hrecords : recordsOf publisher outbox pass = [] := by
          rw [recordsOf, hstopping]
          rfl
        refine ⟨{ outbox := outbox }, ?_, hrecords.symm⟩
        rw [runOnce, hstopping, hrecords]
        rfl
    | false =>
        have hrecords : recordsOf publisher outbox pass =
            (publisher.lease outbox pass.token pass.clock pass.locked).2 := by
          rw [recordsOf, hstopping]
          rfl
        rw [hrecords] at h ⊢
        obtain ⟨value, s, hall, hattempted⟩ := (meets_publishAll hvalid [] h).exists_ok
          (s := { outbox := (publisher.lease outbox pass.token pass.clock pass.locked).1 }) rfl
        refine ⟨s, ?_, hattempted⟩
        have hrun : runOnce publisher pass { outbox := outbox } =
            (publishAll publisher (publisher.lease outbox pass.token pass.clock pass.locked).2
                pass.turns >>= fun _ => pure
              (publisher.lease outbox pass.token pass.clock pass.locked).2.length)
              { outbox := (publisher.lease outbox pass.token pass.clock pass.locked).1 } := by
          rw [runOnce, hstopping]
          rfl
        rw [hrun, EStateM.bind_apply, hall]
        rfl

/-! ### A row that has failed before -/

/-- A row that has failed a number of times. -/
def failedRow (publishAttempts : ℕ) : Entry where
  eventId := "event-1"
  topic := "job-lifecycle-edr.v1"
  messageKey := "job-1"
  canonicalPayload := "\x7b\x7d"
  createdAt := 0
  publishAttempts := publishAttempts
  nextAttemptAt := 0

/-- It is leased, and the broker fails again. -/
def failingPass : Pass where
  clock := .instant (seconds 1)
  turns _ := { delivery := .raised "TimeoutError" none { value := 0 } (seconds 2) }

theorem lt_doubleBound {q : ℚ} (h : q < 2 ^ 6) : q < doubleBound :=
  h.trans_le (pow_le_pow_right₀ (by norm_num) (by norm_num))

/-- The default settings are valid. -/
theorem valid_default : ({} : RetryTuning).Valid where
  initial_isDouble :=
    ⟨⟨1, 0, by decide, by decide, by norm_num⟩, lt_doubleBound (by norm_num)⟩
  max_isDouble :=
    ⟨⟨60, 0, by decide, by decide, by norm_num⟩, lt_doubleBound (by norm_num)⟩
  initial_pos := by decide
  ordered := by decide

/-- The outbox with this row. -/
def failedOutbox (publishAttempts : ℕ) : Table Entry.eventId :=
  Table.empty.upsert (failedRow publishAttempts)

theorem recordsOf_failedOutbox (publishAttempts : ℕ) :
    recordsOf { owner := "publisher-1" } (failedOutbox publishAttempts) failingPass =
      [(failedRow publishAttempts).record 0] := rfl

/-- With the default settings the ceiling is a minute at last. -/
theorem whole_default : ({} : RetryTuning).whole 1023 = .finite 60 := by
  have hlarge : ¬ (1 : ℚ) * 2 ^ 1023 < 60 := by
    have hpower : (60 : ℚ) ≤ 2 ^ 1023 :=
      (by norm_num : (60 : ℚ) ≤ 2 ^ 6).trans (pow_le_pow_right₀ (by norm_num) (by norm_num))
    rw [one_mul]
    exact hpower.not_gt
  exact if_neg fun hlt => hlarge (of_decide_eq_true hlt)

/-- Up to 1023 failures, another one is recorded. -/
theorem failuresRecorded_failedOutbox :
    FailuresRecorded { owner := "publisher-1" } (failedOutbox 1023) failingPass := by
  refine (failuresRecorded_iff { owner := "publisher-1" } valid_default (failedOutbox 1023)
    failingPass).mpr fun i record now hrecord hfails => ?_
  rw [recordsOf_failedOutbox] at hrecord
  obtain rfl := List.mem_singleton.mp (List.mem_of_getElem? hrecord)
  obtain rfl := Option.some_inj.mp hfails
  have hattempts : ((failedRow 1023).record 0).attempts < 1024 := by decide
  have hminute : microseconds 60 = 60000000 := by decide +kernel
  refine ⟨hattempts, 60, whole_default, ?_, ?_⟩
  · rw [hminute]
    decide
  · rw [hminute]
    decide

/-- After 1024 failures, the next one is not. -/
theorem not_failuresRecorded_failedOutbox :
    ¬ FailuresRecorded { owner := "publisher-1" } (failedOutbox 1024) failingPass := by
  intro h
  have hbounded := (recordsFailure_iff valid_default).mp
    (h.recorded 0 ((failedRow 1024).record 0) (seconds 2) (by rw [recordsOf_failedOutbox]; rfl) rfl)
  have hattempts : ((failedRow 1024).record 0).attempts < 1024 := hbounded.1
  exact absurd hattempts (by decide)

end Publishing

end ScheduledJobs
