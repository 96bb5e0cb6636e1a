/-
**The projection of a job, with the exceptions of its timestamps.**

The rows of the journal come from anybody who can publish, so the timestamps of a job may have
offsets or none, and may be anywhere in the calendar.  A worker that rebuilds the job meets whatever
that leads to: two timestamps that cannot be compared, a threshold behind the end of the calendar, a
UTC time before its beginning, and a value that a column does not take.  Each of these exceptions
rolls its transaction back.

What the columns take is the database's business, and a parameter here.

Main definitions:

* `Mixed.eventFromRow` — `event_from_wire`, of timestamps of both kinds;
* `Mixed.Columns`, `Mixed.postgres` — what the columns take;
* `Mixed.rebuild`, `Mixed.reading` — **the part of `_project_job` that reads**.

Main results:

* `recordFromRow_map` — a record that is read in two ways differs in its timestamps only;
* `Mixed.eventFromRow_instants` — **timestamps with offsets are decoded to their instants**;
* `Mixed.eventFromRow_of_records` — the timestamps of a published event are decoded in UTC.
-/

import ScheduledJobs.DurableReader
import ScheduledJobs.HeldTimestamps

set_option relaxedAutoImplicit false
set_option autoImplicit false

namespace ScheduledJobs

open Json

/-! ### Two ways to read timestamps -/

section Map

variable {τ υ : Type} {read : String → Option τ} {read' : String → Option υ} {f : τ → υ}
  {P : τ → Prop}

/-- The timestamps of a record have a property. -/
structure WireRecord.Holding (P : τ → Prop) (record : WireRecord τ) : Prop where
  eventTime : P record.eventTime
  ingestionTime : P record.ingestionTime
  scheduledAt : ∀ t ∈ record.scheduledAt, P t
  nextRetryAt : ∀ t ∈ record.nextRetryAt, P t

variable (hread : ∀ text t, read text = some t → P t → read' text = some (f t))
  {data : WireData} {key : String}

include hread

theorem timeOf_map {text : String} {t : τ} (h : timeOf read key text = .ok t) (ht : P t) :
    timeOf read' key text = .ok (f t) := by
  unfold timeOf at h ⊢
  split at h
  · next s hs =>
      cases h
      rw [hread text _ hs ht]
  · cases h

theorem requiredTime_map {t : τ} (h : requiredTime read data key = .ok t) (ht : P t) :
    requiredTime read' data key = .ok (f t) := by
  obtain ⟨text, htext, htime⟩ := Except.bind_eq_ok_iff.1 h
  exact Except.bind_eq_ok_iff.2 ⟨text, htext, timeOf_map hread htime ht⟩

theorem optionalTime_map {t : Option τ} (h : optionalTime read data key = .ok t)
    (ht : ∀ s ∈ t, P s) : optionalTime read' data key = .ok (t.map f) := by
  obtain ⟨text, htext, htime⟩ := Except.bind_eq_ok_iff.1 h
  refine Except.bind_eq_ok_iff.2 ⟨text, htext, ?_⟩
  split at htime
  · next hempty =>
      cases htime
      exact if_pos hempty
  · next hempty =>
      obtain ⟨s, hs, hsome⟩ := Except.bind_eq_ok_iff.1 htime
      cases hsome
      rw [if_neg hempty, timeOf_map hread hs (ht s rfl)]
      rfl

/-- **A record that is read in another way is read with other timestamps.** -/
theorem recordFromObject_map {record : WireRecord τ} (h : recordFromObject read data = .ok record)
    (hrecord : record.Holding P) : recordFromObject read' data = .ok (record.map f) := by
  obtain ⟨eventId, hid, h⟩ := Except.bind_eq_ok_iff.1 h
  obtain ⟨eventType, htype, h⟩ := Except.bind_eq_ok_iff.1 h
  obtain ⟨eventTime, htime, h⟩ := Except.bind_eq_ok_iff.1 h
  obtain ⟨ingestionTime, hingestion, h⟩ := Except.bind_eq_ok_iff.1 h
  obtain ⟨jobId, hjob, h⟩ := Except.bind_eq_ok_iff.1 h
  obtain ⟨correlationId, hcorrelation, h⟩ := Except.bind_eq_ok_iff.1 h
  obtain ⟨jobType, hjobType, h⟩ := Except.bind_eq_ok_iff.1 h
  obtain ⟨scheduledAt, hscheduled, h⟩ := Except.bind_eq_ok_iff.1 h
  obtain ⟨attemptNumber, hattempt, h⟩ := Except.bind_eq_ok_iff.1 h
  obtain ⟨maxAttempts, hmax, h⟩ := Except.bind_eq_ok_iff.1 h
  obtain ⟨retryable, hretryable, h⟩ := Except.bind_eq_ok_iff.1 h
  obtain ⟨nextRetryAt, hnext, h⟩ := Except.bind_eq_ok_iff.1 h
  obtain ⟨resultCode, hresult, h⟩ := Except.bind_eq_ok_iff.1 h
  obtain ⟨errorCode, herror, h⟩ := Except.bind_eq_ok_iff.1 h
  split at h
  · cases h
  · next hnonneg =>
      split at h
      · cases h
      · next hpos =>
          cases h
          simp only [recordFromObject, hid, htype, requiredTime_map hread htime hrecord.eventTime,
            requiredTime_map hread hingestion hrecord.ingestionTime, hjob, hcorrelation, hjobType,
            optionalTime_map hread hscheduled hrecord.scheduledAt, hattempt, hmax, hretryable,
            optionalTime_map hread hnext hrecord.nextRetryAt, hresult, herror, Except.ok_bind]
          rw [if_neg hnonneg, dif_neg hpos]
          rfl

theorem recordFromRow_map {row : Object} {record : WireRecord τ}
    (h : recordFromRow read row = .ok record) (hrecord : record.Holding P) :
    recordFromRow read' row = .ok (record.map f) := by
  unfold recordFromRow recordFromWire at h ⊢
  split at h
  · split at h
    · exact recordFromObject_map hread h hrecord
    · cases h
  · cases h
  · exact recordFromObject_map hread h hrecord

end Map

/-- The texts that a projection has from its events. -/
def JobVisibility.texts (job : JobVisibility) : List String :=
  job.jobId :: job.correlationId :: job.jobType ::
    (job.schedulerReference.toList ++ job.lastErrorCode.toList ++
      (job.attempts.values.flatMap fun attempt =>
        attempt.errorCode.toList ++ attempt.resultCode.toList) ++
      job.decisions.map ProjectionDecision.eventId)

namespace Mixed

/-! ### The decoder -/

/-- `datetime.fromisoformat(text.replace("Z", "+00:00"))`.  `datetime` checks the date, and
`timezone` the offset. -/
def fromIso? (text : String) : Option Timestamp :=
  (fromisoformat? text).bind fun shown =>
    if h : Datetime.InRange shown.1 ∧ ∀ o ∈ shown.2, -86400000000 < o ∧ o < 86400000000 then
      some ⟨shown.1, shown.2, h.1, h.2⟩
    else none

/-- The event of a record. -/
def eventOf (record : WireRecord Timestamp) : Event where
  eventId := record.eventId
  eventType := record.eventType
  eventTime := record.eventTime
  ingestionTime := record.ingestionTime
  jobId := record.jobId
  correlationId := record.correlationId
  jobType := record.jobType
  scheduledAt := record.scheduledAt
  attemptNumber := record.attemptNumber
  maxAttempts := record.maxAttempts
  retryable := record.retryable
  nextRetryAt := record.nextRetryAt
  resultCode := record.resultCode
  errorCode := record.errorCode
  maxAttempts_pos := record.maxAttempts_pos

/-- The event of a journal row. -/
def eventFromRow (row : Object) : Except WireError Event := do
  let record ← recordFromRow fromIso? row
  return eventOf record

/-- A text is read as the same instant, if it has an offset. -/
theorem fromIso?_instant {text : String} {t : Timestamp} (h : fromIso? text = some t)
    (haware : t.isAware = true) : ScheduledJobs.fromIso? text = some t.instant := by
  obtain ⟨shown, hshown, hchecked⟩ := Option.bind_eq_some_iff.1 h
  split at hchecked
  · cases hchecked
    obtain ⟨o, ho⟩ := Option.isSome_iff_exists.1 haware
    have hoffset : shown.2 = some o := ho
    simp only [ScheduledJobs.fromIso?, hshown, Option.bind_some, Timestamp.instant, hoffset,
      Option.map_some, Option.getD_some]
  · cases hchecked

/-- **Timestamps with offsets are decoded to their instants.** -/
theorem eventFromRow_instants {row : Object} {event : Event} (h : eventFromRow row = .ok event)
    (haware : event.Holding (·.isAware = true)) :
    ScheduledJobs.eventFromRow row = .ok event.instants := by
  obtain ⟨record, hrecord, hevent⟩ := Except.bind_eq_ok_iff.1 h
  cases hevent
  have hread := recordFromRow_map (fun _ _ => fromIso?_instant) hrecord
    ⟨haware.eventTime, haware.ingestionTime, haware.scheduledAt, haware.nextRetryAt⟩
  exact Except.bind_eq_ok_iff.2 ⟨_, hread, rfl⟩

/-- The timestamp is in UTC. -/
def Timestamp.IsUtc (t : Timestamp) : Prop := t.offset = some 0

theorem Timestamp.IsUtc.isAware {t : Timestamp} (h : t.IsUtc) : t.isAware = true := by
  rw [Timestamp.isAware, h]
  rfl

theorem Timestamp.IsUtc.instant_eq {t : Timestamp} (h : t.IsUtc) : t.instant = t.wall := by
  rw [Timestamp.instant, h]
  exact sub_zero _

/-- An instant of the calendar in UTC, and for any other instant the first one. -/
def utc (t : Datetime) : Timestamp where
  wall := if Datetime.InRange t then t else 0
  offset := some 0
  wall_inRange := by
    split
    · assumption
    · decide
  offset_inRange := by
    rintro o ho
    obtain rfl := Option.some_inj.1 ho
    decide

theorem isUtc_utc (t : Datetime) : (utc t).IsUtc := rfl

theorem instant_utc {t : Datetime} (h : Datetime.InRange t) : (utc t).instant = t :=
  (isUtc_utc t).instant_eq.trans (if_pos h)

theorem map_instant_utc {value : Option Datetime} (h : ∀ t ∈ value, Datetime.InRange t) :
    (value.map utc).map Timestamp.instant = value := by
  cases value with
  | none => rfl
  | some t => exact congrArg some (instant_utc (h t rfl))

theorem isUtc_of_mem_map {value : Option Datetime} : ∀ t ∈ value.map utc, t.IsUtc := by
  rintro t ht
  obtain ⟨s, -, rfl⟩ := Option.map_eq_some_iff.1 ht
  exact isUtc_utc s

theorem fromIso?_iso {t : Datetime} (h : Datetime.InRange t) :
    fromIso? (ScheduledJobs.iso t) = some (utc t) := by
  have hwall : (t.toNat : ℤ) = t := Int.toNat_of_nonneg h.1
  rw [fromIso?, fromisoformat?_iso h, Option.bind_some, dif_pos]
  · simp only [utc, if_pos h, hwall]
  · refine ⟨by rw [hwall]; exact h, ?_⟩
    rintro o ho
    obtain rfl := Option.some_inj.1 ho
    decide

/-- **The timestamps of a published event are decoded in UTC.** -/
theorem eventFromRow_of_records {row : EdrRow Object} {event : ScheduledJobs.Event}
    (h : row.Records event) (henc : event.Encodable) :
    ∃ decoded, eventFromRow row.canonicalPayload = .ok decoded ∧
      decoded.Holding Timestamp.IsUtc ∧ decoded.instants = event.wired := by
  have hwire := recordFromWire_canonicalPayload fromIso?_iso henc
  rw [recordFromWire, h.canonicalPayload] at hwire
  refine ⟨eventOf (event.record.map utc), ?_,
    ⟨isUtc_utc _, isUtc_utc _, isUtc_of_mem_map, isUtc_of_mem_map, by simp [eventOf]⟩, ?_⟩
  · rw [eventFromRow, recordFromRow, h.get?_canonicalPayload]
    exact Except.bind_eq_ok_iff.2 ⟨_, hwire, rfl⟩
  · simp only [Event.instants, eventOf, WireRecord.map, Event.record,
      instant_utc henc.eventTime, instant_utc henc.ingestionTime, map_instant_utc henc.scheduledAt,
      map_instant_utc henc.nextRetryAt]
    rfl

/-! ### What is read -/

/-- What the columns of the database take of what they are sent. -/
structure Columns where
  /-- The instant a `timestamptz` column stores of a timestamp, if the database knows its offset.  A
  timestamp without an offset is taken for a time in the zone of the session. -/
  timestamptz : Timestamp → Option Datetime
  /-- A text that the `text` and `jsonb` columns store. -/
  text : String → Bool

/-- The value of a `timestamptz` column. -/
def Columns.store (columns : Columns) (t : Timestamp) : Except ProjectionError Datetime :=
  match columns.timestamptz t with
  | some instant => .ok instant
  | none => .error .data

/-- The values of the two `timestamptz` columns of a finding. -/
def Columns.storeFinding (columns : Columns) (finding : Finding) :
    Except ProjectionError ScheduledJobs.Finding := do
  let firstObservedAt ← columns.store finding.firstObservedAt
  let resolvedAt ← finding.resolvedAt.mapM columns.store
  return {
    code := finding.code
    firstObservedAt := firstObservedAt
    message := finding.message
    active := finding.active
    resolvedAt := resolvedAt }

section Rebuild

variable (runtime : Runtime)

/-- `Attempt.to_dict`. -/
def Attempt.toDict (attempt : Attempt) : Except EngineError AttemptView := do
  let retrievedAt ← iso runtime attempt.retrievedAt
  let startedAt ← iso runtime attempt.startedAt
  let completedAt ← iso runtime attempt.completedAt
  return {
    attemptNumber := attempt.attemptNumber
    status := attempt.status.value
    retrievedAt := retrievedAt
    startedAt := startedAt
    completedAt := completedAt
    retryable := attempt.retryable
    errorCode := attempt.errorCode
    resultCode := attempt.resultCode }

/-- `snapshot`. -/
def VisibilityEngine.snapshot (engine : VisibilityEngine) (jobId : String) :
    Except EngineError JobVisibility :=
  match engine.jobs.find? jobId with
  | some job => .ok job
  | none => .error (.jobNotFound jobId)

variable {Payload : Type} (decode : Payload → Except WireError Event)

/-- One turn of the loop over the rows of a job. -/
def replayRow (engine : VisibilityEngine) (row : EdrRow Payload) :
    Except ProjectionError VisibilityEngine := do
  let event ← (decode row.canonicalPayload).mapError .wire
  let applied := engine.apply event
  let _ ← applied.2.mapError .raised
  return applied.1

variable (columns : Columns)

/-- What is written about a job.  The values are sent with the statements, one after the other; a
value that is refused undoes them all, so it is as well refused here. -/
def JobVisibility.written (jobId : String) (job : JobVisibility) (response : JobResponse)
    (dataAsOf : Timestamp) : Except ProjectionError (Written jobId) := do
  let storedAsOf ← columns.store dataAsOf
  let attempts ← job.attempts.values.mapM fun attempt =>
    (attempt.toDict runtime).mapError .raised
  let findings ← job.findings.values.mapM columns.storeFinding
  if (∀ text ∈ jobId :: job.instants.texts, columns.text text) ∧ job.version ≤ maxInteger then
    return {
      visibility :=
        { jobId := jobId
          correlationId := job.correlationId
          jobType := job.jobType
          recordedStatus := job.recordedStatus.value
          projection := response
          dataAsOf := storedAsOf
          version := job.version }
      attempts := attempts.map fun view => ⟨jobId, view.attemptNumber, view⟩
      decisions := job.decisions.map fun decision =>
        ⟨decision.eventId, jobId, decision.decision.value, decision.reason⟩
      findings := findings.map fun finding =>
        { jobId := jobId
          code := finding.code.value
          message := finding.message
          firstObservedAt := finding.firstObservedAt
          active := finding.active
          resolvedAt := finding.resolvedAt }
      visibility_jobId := rfl
      attempts_jobId := List.forall_mem_map.2 fun _ _ => rfl
      decisions_jobId := List.forall_mem_map.2 fun _ _ => rfl
      findings_jobId := List.forall_mem_map.2 fun _ _ => rfl }
  else .error .data

/-- **The part of `_project_job` that reads.** -/
def rebuild (jobId : String) (rows : List (EdrRow Payload)) :
    Except ProjectionError (Written jobId) := do
  let engine ← rows.foldlM (replayRow decode) {}
  let snapshot ← (engine.snapshot jobId).mapError .raised
  match snapshot.dataAsOf with
  | none => .error .noTime
  | some dataAsOf => do
      let response ← (engine.get runtime jobId dataAsOf).mapError .raised
      snapshot.written runtime columns jobId response dataAsOf

/-- The reading of rows with timestamps of both kinds. -/
def reading : Reading Payload := ⟨rebuild runtime decode columns⟩

end Rebuild

/-- PostgreSQL, with a session in UTC: it knows offsets of whole seconds and of less than sixteen
hours, and stores no character zero. -/
def postgres : Columns where
  timestamptz t :=
    match t.offset with
    | none => some t.wall
    | some o =>
        if o % 1000000 = 0 ∧ -57600000000 < o ∧ o < 57600000000 then some t.instant else none
  text text := !text.toList.contains (Char.ofNat 0)

end Mixed

end ScheduledJobs
