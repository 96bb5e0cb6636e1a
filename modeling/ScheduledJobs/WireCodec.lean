/-
**The wire format of events.**

`canonical_edr` writes an event as a JSON text with sorted keys, and embeds that text, with its
SHA-256 digest, in the record that is published.  `event_from_wire` reads an event from such a
text.  The fields of an event that the format has no key for do not survive, and an empty job type
comes back as `GENERIC`; everything else does.

An aware timestamp is written in UTC, which fails outside the years 1 to 9999.

Main definitions:

* `iso`, `Event.Encodable` — timestamps as text, and the events whose timestamps all have one;
* `Event.wireObject`, `Event.canonicalPayload`, `canonicalEdr` — **the encoder**;
* `recordFromObject`, `recordFromWire`, `recordFromRow` — **the decoder**, whatever timestamps are
  read as;
* `eventFromWire`, `eventFromRow` — the decoder of timestamps with offsets, which are read as
  instants;
* `Event.wired` — the event the wire format can express.

Main results:

* `canonicalEdr_eq_some_iff` — the encoder fails on the events that are not encodable, and on no
  other;
* `eventFromWire_canonicalPayload` — **decoding what was encoded gives the event the format can
  express**.
-/

import ScheduledJobs.CivilTime
import ScheduledJobs.Fallible
import ScheduledJobs.JsonObject
import ScheduledJobs.ReduceVisibility
import ScheduledJobs.Sha256

set_option relaxedAutoImplicit false
set_option autoImplicit false

namespace ScheduledJobs

open Json

/-! ### Enumerations from text -/

/-- The event types, in the order of the source. -/
def EventType.all : List EventType :=
  [.jobCreated, .jobSchedulerSubmissionRequested, .jobSchedulerSubmissionAcknowledged,
    .jobSchedulerSubmissionFailed, .jobSchedulerItemRetrieved, .jobExecutionStarted,
    .jobExecutionSucceeded, .jobExecutionFailed, .jobRetryRequested, .jobRetryAcknowledged,
    .jobRetryRejected, .jobRetriesExhausted, .jobCancelled]

/-- `EventType(text)`. -/
def EventType.ofValue? (text : String) : Option EventType :=
  EventType.all.find? fun t => t.value = text

theorem EventType.ofValue?_value (t : EventType) : EventType.ofValue? t.value = some t := by
  cases t <;> rfl

/-! ### Timestamps -/

/-- The timestamp has a UTC representation. -/
def Datetime.InRange (t : Datetime) : Prop := 0 ≤ t ∧ t < (CivilTime.maxInstant : ℤ)

instance (t : Datetime) : Decidable (Datetime.InRange t) := inferInstanceAs (Decidable (_ ∧ _))

/-- `iso`, where it does not overflow: the text in UTC, with `Z` for its offset. -/
def iso (t : Datetime) : String := String.ofList (CivilTime.isoformat t.toNat ++ ['Z'])

/-- `text.replace("Z", "+00:00")`. -/
def replaceZ (cs : List Char) : List Char :=
  cs.flatMap fun c => if c = 'Z' then CivilTime.utcOffset else [c]

/-- `datetime.fromisoformat(text.replace("Z", "+00:00"))`: what the text shows, and its offset. -/
def fromisoformat? (text : String) : Option (ℕ × Option Timedelta) :=
  CivilTime.fromisoformat (replaceZ text.toList)

/-- The instant of a text that has an offset. -/
def fromIso? (text : String) : Option Datetime :=
  (fromisoformat? text).bind fun shown => shown.2.map fun offset => shown.1 - offset

theorem replaceZ_append (cs ds : List Char) :
    replaceZ (cs ++ ds) = replaceZ cs ++ replaceZ ds := List.flatMap_append

theorem replaceZ_of_notMem {cs : List Char} (h : 'Z' ∉ cs) : replaceZ cs = cs := by
  induction cs with
  | nil => rfl
  | cons c cs ih =>
      rw [List.mem_cons, not_or] at h
      have hc : c ≠ 'Z' := Ne.symm h.1
      have hrest : replaceZ (c :: cs) = [c] ++ replaceZ cs := by
        simp [replaceZ, hc]
      rw [hrest, ih h.2]
      rfl

/-- What is written is read as what it shows, with the offset of UTC. -/
theorem fromisoformat?_iso {t : Datetime} (h : Datetime.InRange t) :
    fromisoformat? (iso t) = some (t.toNat, some 0) := by
  obtain ⟨hnonneg, hlt⟩ := h
  have hnat : t.toNat < CivilTime.maxInstant := (Int.toNat_lt hnonneg).2 hlt
  have hZ : replaceZ (CivilTime.isoformat t.toNat ++ ['Z']) =
      CivilTime.isoformat t.toNat ++ CivilTime.utcOffset := by
    rw [replaceZ_append, replaceZ_of_notMem (CivilTime.notMem_isoformat _ (by decide))]
    rfl
  rw [fromisoformat?, iso, String.toList_ofList, hZ, CivilTime.fromisoformat_isoformat hnat]

/-- **A timestamp is read back from its text.** -/
theorem fromIso?_iso {t : Datetime} (h : Datetime.InRange t) : fromIso? (iso t) = some t := by
  rw [fromIso?, fromisoformat?_iso h, Option.bind_some, Option.map_some,
    Int.toNat_of_nonneg h.1]
  exact congrArg some (sub_zero t)

/-! ### The encoder -/

/-- The timestamps that are written have a UTC representation. -/
structure Event.Encodable (event : Event) : Prop where
  eventTime : Datetime.InRange event.eventTime
  ingestionTime : Datetime.InRange event.ingestionTime
  scheduledAt : ∀ t ∈ event.scheduledAt, Datetime.InRange t
  nextRetryAt : ∀ t ∈ event.nextRetryAt, Datetime.InRange t

instance (event : Event) : Decidable event.Encodable :=
  decidable_of_iff (Datetime.InRange event.eventTime ∧ Datetime.InRange event.ingestionTime ∧
      (∀ t ∈ event.scheduledAt, Datetime.InRange t) ∧ ∀ t ∈ event.nextRetryAt, Datetime.InRange t)
    ⟨fun h => ⟨h.1, h.2.1, h.2.2.1, h.2.2.2⟩, fun h => ⟨h.1, h.2, h.3, h.4⟩⟩

/-- An optional value, `null` when it is absent. -/
def nullable {α : Type} (f : α → Scalar) : Option α → Scalar
  | some a => f a
  | none => .null

/-- `text or None`. -/
def textOrNull (text : String) : Scalar := if text = "" then .null else .str text

/-- The members `canonical_edr` writes. -/
def Event.wireMembers (event : Event) : List (String × Scalar) :=
  [("schemaVersion", .int 1),
    ("eventId", .str event.eventId),
    ("eventType", .str event.eventType.value),
    ("eventTime", .str (iso event.eventTime)),
    ("ingestionTime", .str (iso event.ingestionTime)),
    ("jobId", .str event.jobId),
    ("correlationId", textOrNull event.correlationId),
    ("jobType", textOrNull event.jobType),
    ("attemptNumber", .int event.attemptNumber),
    ("maxAttempts", .int event.maxAttempts),
    ("scheduledAt", nullable (fun t => .str (iso t)) event.scheduledAt),
    ("nextRetryAt", nullable (fun t => .str (iso t)) event.nextRetryAt),
    ("retryable", nullable .bool event.retryable),
    ("resultCode", nullable .str event.resultCode),
    ("errorCode", nullable .str event.errorCode)]

/-- The canonical payload: the members as a JSON text. -/
def Event.canonicalPayload (event : Event) : String := dumps (ofMembers event.wireMembers)

/-- The SHA-256 digest of a text. -/
def digest (text : String) : String := Sha256.hexdigest (text.toList.flatMap String.utf8EncodeChar)

/-- The record that is published: the members, with the canonical payload and its digest. -/
def Event.wireObject (event : Event) : Object :=
  ((ofMembers event.wireMembers).set "canonicalPayload" (.str event.canonicalPayload)).set
    "payloadHash" (.str (digest event.canonicalPayload))

/-- **`canonical_edr`**: the text of the record and the digest, or an overflow. -/
def canonicalEdr (event : Event) : Option (String × String) :=
  if event.Encodable then some (dumps event.wireObject, digest event.canonicalPayload) else none

/-! ### The decoder -/

/-- Why a record is rejected. -/
inductive WireError
  /-- The text is no JSON object. -/
  | json
  /-- A required key is missing. -/
  | missing (key : String)
  /-- The value at a key is not of its kind. -/
  | badValue (key : String)
  /-- The constructor of the event raises `ValueError`. -/
  | rejected (message : String)
  deriving DecidableEq, Repr

/-- A record, by key. -/
abbrev WireData := String → Option Scalar

/-- `data[key]`, a text. -/
def requiredText (data : WireData) (key : String) : Except WireError String :=
  match data key with
  | some (.str text) => .ok text
  | some _ => .error (.badValue key)
  | none => .error (.missing key)

/-- `data.get(key) or default`, a text. -/
def textOr (data : WireData) (key default : String) : Except WireError String :=
  match data key with
  | none | some .null => .ok default
  | some (.str text) => .ok (if text = "" then default else text)
  | some _ => .error (.badValue key)

/-- `data.get(key)`, a text. -/
def optionalText (data : WireData) (key : String) : Except WireError (Option String) :=
  match data key with
  | none | some .null => .ok none
  | some (.str text) => .ok (some text)
  | some _ => .error (.badValue key)

/-- `data.get(key)`, a truth value. -/
def optionalBool (data : WireData) (key : String) : Except WireError (Option Bool) :=
  match data key with
  | none | some .null => .ok none
  | some (.bool b) => .ok (some b)
  | some _ => .error (.badValue key)

/-- `data.get(key, default)`, an integer. -/
def intOr (data : WireData) (key : String) (default : ℤ) : Except WireError ℤ :=
  match data key with
  | none => .ok default
  | some (.int n) => .ok n
  | some _ => .error (.badValue key)

/-- `EventType(data[key])`. -/
def requiredType (data : WireData) (key : String) : Except WireError EventType := do
  let text ← requiredText data key
  match EventType.ofValue? text with
  | some t => .ok t
  | none => .error (.badValue key)

/-- What a record says about an event, with its timestamps as they are read. -/
structure WireRecord (τ : Type) where
  eventId : String
  eventType : EventType
  eventTime : τ
  ingestionTime : τ
  jobId : String
  correlationId : String
  jobType : String
  scheduledAt : Option τ
  attemptNumber : ℕ
  maxAttempts : ℕ
  retryable : Option Bool
  nextRetryAt : Option τ
  resultCode : Option String
  errorCode : Option String
  maxAttempts_pos : 0 < maxAttempts

section Records

variable {τ : Type} (read : String → Option τ)

/-- A timestamp from its text. -/
def timeOf (key text : String) : Except WireError τ :=
  match read text with
  | some t => .ok t
  | none => .error (.badValue key)

/-- `datetime.fromisoformat(data[key].replace("Z", "+00:00"))`. -/
def requiredTime (data : WireData) (key : String) : Except WireError τ := do
  let text ← requiredText data key
  timeOf read key text

/-- `_time(data.get(key))`. -/
def optionalTime (data : WireData) (key : String) : Except WireError (Option τ) := do
  let text ← textOr data key ""
  if text = "" then return none
  else
    let t ← timeOf read key text
    return some t

/-- `event_from_wire` of a record. -/
def recordFromObject (data : WireData) : Except WireError (WireRecord τ) := do
  let eventId ← requiredText data "eventId"
  let eventType ← requiredType data "eventType"
  let eventTime ← requiredTime read data "eventTime"
  let ingestionTime ← requiredTime read data "ingestionTime"
  let jobId ← requiredText data "jobId"
  let correlationId ← textOr data "correlationId" ""
  let jobType ← textOr data "jobType" "GENERIC"
  let scheduledAt ← optionalTime read data "scheduledAt"
  let attemptNumber ← intOr data "attemptNumber" 0
  let maxAttempts ← intOr data "maxAttempts" 3
  let retryable ← optionalBool data "retryable"
  let nextRetryAt ← optionalTime read data "nextRetryAt"
  let resultCode ← optionalText data "resultCode"
  let errorCode ← optionalText data "errorCode"
  if attemptNumber < 0 then .error (.rejected "attempt_number cannot be negative")
  else if h : maxAttempts < 1 then .error (.rejected "max_attempts must be positive")
  else
    return {
      eventId := eventId
      eventType := eventType
      eventTime := eventTime
      ingestionTime := ingestionTime
      jobId := jobId
      correlationId := correlationId
      jobType := jobType
      scheduledAt := scheduledAt
      attemptNumber := attemptNumber.toNat
      maxAttempts := maxAttempts.toNat
      retryable := retryable
      nextRetryAt := nextRetryAt
      resultCode := resultCode
      errorCode := errorCode
      maxAttempts_pos := by omega }

/-- **`event_from_wire`** of a text. -/
def recordFromWire (value : String) : Except WireError (WireRecord τ) :=
  match loads value with
  | some data => recordFromObject read data.get?
  | none => .error .json

/-- The record of a journal row: the embedded payload when there is one, else the row itself. -/
def recordFromRow (row : Object) : Except WireError (WireRecord τ) :=
  match row.get? "canonicalPayload" with
  | some (.str payload) => recordFromWire read payload
  | some _ => .error (.badValue "canonicalPayload")
  | none => recordFromObject read row.get?

end Records

/-- The record with other timestamps. -/
def WireRecord.map {τ υ : Type} (f : τ → υ) (record : WireRecord τ) : WireRecord υ where
  eventId := record.eventId
  eventType := record.eventType
  eventTime := f record.eventTime
  ingestionTime := f record.ingestionTime
  jobId := record.jobId
  correlationId := record.correlationId
  jobType := record.jobType
  scheduledAt := record.scheduledAt.map f
  attemptNumber := record.attemptNumber
  maxAttempts := record.maxAttempts
  retryable := record.retryable
  nextRetryAt := record.nextRetryAt.map f
  resultCode := record.resultCode
  errorCode := record.errorCode
  maxAttempts_pos := record.maxAttempts_pos

/-- The event of a record whose timestamps have offsets. -/
def WireRecord.event (record : WireRecord Datetime) : Event where
  eventId := record.eventId
  eventType := record.eventType
  eventTime := record.eventTime
  ingestionTime := record.ingestionTime
  jobId := record.jobId
  correlationId := record.correlationId
  jobType := record.jobType
  scheduledAt := record.scheduledAt
  attemptNumber := record.attemptNumber
  maxAttempts := record.maxAttempts
  retryable := record.retryable
  nextRetryAt := record.nextRetryAt
  resultCode := record.resultCode
  errorCode := record.errorCode
  maxAttempts_pos := record.maxAttempts_pos

/-- The event of a text. -/
def eventFromWire (value : String) : Except WireError Event := do
  let record ← recordFromWire fromIso? value
  return record.event

/-- The event of a journal row. -/
def eventFromRow (row : Object) : Except WireError Event := do
  let record ← recordFromRow fromIso? row
  return record.event

/-! ### Decoding what was encoded -/

/-- The event the wire format can express: without scheduler reference and poll time, and with
`GENERIC` for an empty job type. -/
def Event.wired (event : Event) : Event :=
  { event with
    jobType := orElseText event.jobType "GENERIC"
    schedulerReference := none
    pollTime := none }

@[simp] theorem orElseText_empty (text : String) : orElseText text "" = text := by
  unfold orElseText
  split
  · next hempty => exact hempty.symm
  · rfl

theorem textOr_textOrNull {data : WireData} {key text default : String}
    (h : data key = some (textOrNull text)) :
    textOr data key default = .ok (orElseText text default) := by
  unfold textOrNull at h
  unfold textOr orElseText
  split at h
  · next hempty => simp [h, hempty]
  · next hne => simp [h, hne]

theorem iso_ne_empty (t : Datetime) : iso t ≠ "" := by
  intro h
  have hlist := congrArg String.toList h
  rw [iso, String.toList_ofList] at hlist
  simp at hlist

section Times

variable {τ : Type} {read : String → Option τ} {shown : Datetime → τ}
  (hread : ∀ {t}, Datetime.InRange t → read (iso t) = some (shown t))

include hread

/-- A timestamp is read back from its text. -/
theorem timeOf_iso (key : String) {t : Datetime} (ht : Datetime.InRange t) :
    timeOf read key (iso t) = .ok (shown t) := by
  rw [timeOf, hread ht]

theorem requiredTime_iso {data : WireData} {key : String} {t : Datetime}
    (h : data key = some (.str (iso t))) (ht : Datetime.InRange t) :
    requiredTime read data key = .ok (shown t) := by
  have htext : requiredText data key = .ok (iso t) := by
    rw [requiredText, h]
  rw [requiredTime, htext, Except.ok_bind, timeOf_iso hread key ht]

theorem optionalTime_nullable {data : WireData} {key : String} {t : Option Datetime}
    (h : data key = some (nullable (fun t => .str (iso t)) t))
    (ht : ∀ u ∈ t, Datetime.InRange u) : optionalTime read data key = .ok (t.map shown) := by
  cases t with
  | none =>
      simp only [optionalTime, textOr, h, nullable, Except.ok_bind]
      rfl
  | some t =>
      have htext : textOr data key "" = .ok (iso t) := by
        unfold textOr
        simp only [h, nullable, if_neg (iso_ne_empty t)]
      rw [optionalTime, htext, Except.ok_bind, if_neg (iso_ne_empty t),
        timeOf_iso hread key (ht t rfl)]
      rfl

end Times

theorem optionalText_nullable {data : WireData} {key : String} {text : Option String}
    (h : data key = some (nullable .str text)) : optionalText data key = .ok text := by
  cases text <;> simp [optionalText, h, nullable]

theorem optionalBool_nullable {data : WireData} {key : String} {b : Option Bool}
    (h : data key = some (nullable .bool b)) : optionalBool data key = .ok b := by
  cases b <;> simp [optionalBool, h, nullable]

/-- A record with the members of an event, whatever else it holds. -/
def WireData.Carries (data : WireData) (event : Event) : Prop :=
  ∀ m ∈ event.wireMembers, data m.1 = some m.2

/-- What the format can express of an event. -/
def Event.record (event : Event) : WireRecord Datetime where
  eventId := event.eventId
  eventType := event.eventType
  eventTime := event.eventTime
  ingestionTime := event.ingestionTime
  jobId := event.jobId
  correlationId := event.correlationId
  jobType := orElseText event.jobType "GENERIC"
  scheduledAt := event.scheduledAt
  attemptNumber := event.attemptNumber
  maxAttempts := event.maxAttempts
  retryable := event.retryable
  nextRetryAt := event.nextRetryAt
  resultCode := event.resultCode
  errorCode := event.errorCode
  maxAttempts_pos := event.maxAttempts_pos

theorem Event.event_record (event : Event) : (event.record.map id).event = event.wired := by
  simp [Event.record, WireRecord.map, WireRecord.event, Event.wired]

section Carries

variable {τ : Type} {read : String → Option τ} {shown : Datetime → τ}
  (hread : ∀ {t}, Datetime.InRange t → read (iso t) = some (shown t))

include hread

/-- **A record that carries an event is decoded to what the format can express of it.** -/
theorem recordFromObject_carries {data : WireData} {event : Event} (h : data.Carries event)
    (henc : event.Encodable) :
    recordFromObject read data = .ok (event.record.map shown) := by
  simp only [WireData.Carries, Event.wireMembers, List.forall_mem_cons] at h
  obtain ⟨-, hid, htype, htime, hingestion, hjob, hcorrelation, hjobType, hattempt, hmax,
    hscheduled, hnext, hretryable, hresult, herror, -⟩ := h
  have hpos : ¬ (event.maxAttempts : ℤ) < 1 := by
    have := event.maxAttempts_pos
    omega
  have hnonneg : ¬ (event.attemptNumber : ℤ) < 0 := by omega
  have hid : requiredText data "eventId" = .ok event.eventId := by simp [requiredText, hid]
  have htype : requiredType data "eventType" = .ok event.eventType := by
    simp [requiredType, requiredText, htype, EventType.ofValue?_value]
  have hjob : requiredText data "jobId" = .ok event.jobId := by simp [requiredText, hjob]
  have hattempt : intOr data "attemptNumber" 0 = .ok (event.attemptNumber : ℤ) := by
    simp [intOr, hattempt]
  have hmax : intOr data "maxAttempts" 3 = .ok (event.maxAttempts : ℤ) := by simp [intOr, hmax]
  simp only [recordFromObject, hid, htype, requiredTime_iso hread htime henc.eventTime,
    requiredTime_iso hread hingestion henc.ingestionTime, hjob, textOr_textOrNull hcorrelation,
    textOr_textOrNull hjobType, optionalTime_nullable hread hscheduled henc.scheduledAt, hattempt,
    hmax, optionalBool_nullable hretryable, optionalTime_nullable hread hnext henc.nextRetryAt,
    optionalText_nullable hresult, optionalText_nullable herror, Except.ok_bind]
  rw [if_neg hnonneg, dif_neg hpos]
  simp [Event.record, WireRecord.map, pure, Except.pure]

end Carries

theorem nodup_wireMembers (event : Event) : (event.wireMembers.map Prod.fst).Nodup := by
  simp [Event.wireMembers]

/-- The members carry the event. -/
theorem ofMembers_carries (event : Event) :
    WireData.Carries (ofMembers event.wireMembers).get? event :=
  fun _ hm => get?_ofMembers (nodup_wireMembers event) hm

/-- Decoding the canonical payload, with the timestamps as they are read. -/
theorem recordFromWire_canonicalPayload {τ : Type} {read : String → Option τ} {shown : Datetime → τ}
    (hread : ∀ {t}, Datetime.InRange t → read (iso t) = some (shown t)) {event : Event}
    (henc : event.Encodable) :
    recordFromWire read event.canonicalPayload = .ok (event.record.map shown) := by
  obtain ⟨data, hload, hget⟩ := loads_dumps (ofMembers event.wireMembers)
  have hcarries : WireData.Carries data.get? event := by
    rw [funext hget]
    exact ofMembers_carries event
  rw [recordFromWire, Event.canonicalPayload, hload]
  exact recordFromObject_carries hread hcarries henc

/-- **Decoding the canonical payload** gives what the format can express of the event. -/
theorem eventFromWire_canonicalPayload {event : Event} (henc : event.Encodable) :
    eventFromWire event.canonicalPayload = .ok event.wired := by
  have hrecord : recordFromWire fromIso? event.canonicalPayload = .ok (event.record.map id) :=
    recordFromWire_canonicalPayload fromIso?_iso henc
  rw [eventFromWire, hrecord, Except.ok_bind, event.event_record]
  rfl

/-- The record embeds the canonical payload. -/
theorem get?_wireObject_canonicalPayload (event : Event) :
    event.wireObject.get? "canonicalPayload" = some (.str event.canonicalPayload) := by
  rw [Event.wireObject, Dict.get?_set_ne _ (by decide), Dict.get?_set_self]

/-- The text `canonical_edr` returns, and what it embeds. -/
theorem canonicalEdr_eq_some {event : Event} {wire hash : String}
    (h : canonicalEdr event = some (wire, hash)) :
    event.Encodable ∧ hash = digest event.canonicalPayload ∧
      ∃ row, loads wire = some row ∧
        row.get? "canonicalPayload" = some (.str event.canonicalPayload) := by
  unfold canonicalEdr at h
  split at h
  · next henc =>
      obtain ⟨hwire, hhash⟩ := Prod.mk.inj (Option.some.inj h)
      obtain ⟨row, hload, hget⟩ := loads_dumps event.wireObject
      exact ⟨henc, hhash.symm, row, hwire ▸ hload, by
        rw [hget, get?_wireObject_canonicalPayload]⟩
  · cases h

/-- **A published record is decoded to what the format can express of the event.** -/
theorem eventFromRow_canonicalEdr {event : Event} {wire hash : String}
    (h : canonicalEdr event = some (wire, hash)) :
    ∃ row, loads wire = some row ∧ eventFromRow row = .ok event.wired := by
  obtain ⟨henc, -, row, hload, hpayload⟩ := canonicalEdr_eq_some h
  refine ⟨row, hload, ?_⟩
  rw [eventFromRow, recordFromRow, hpayload]
  exact eventFromWire_canonicalPayload henc

/-- **The digest meets the tables' `CHECK` on it**: 64 lowercase hexadecimal digits. -/
theorem digest_checks (text : String) :
    (digest text).length = 64 ∧
      ∀ c ∈ (digest text).toList, '0' ≤ c ∧ c ≤ '9' ∨ 'a' ≤ c ∧ c ≤ 'f' :=
  ⟨Sha256.length_hexdigest _, fun _ hc => Sha256.hexdigest_chars hc⟩

end ScheduledJobs
