/-
**The Cassandra handler: which record a job is about.**

A `CASSANDRA_FIB_UPDATE` job names a dataset, a number of records and a seed.  The handler reads
that many records, takes the one with the greatest input number, computes the Fibonacci number
there, and calls `apply_once` for that record under the operation id of the job.  Records are spread
over buckets by their ids.

The records come in any order.  What is taken does not depend on it, but a tie of input numbers is
broken by the bucket before it is broken by the id.

Main definitions:

* `CassandraWorkloadClient`, `prepare`, `cassandraHandler` — **the handler**, up to the call of
  `apply_once` and beyond it;
* `CassandraSession.selectRecords` — the driver's selection;
* `Canonical` — **the record a job ought to be about**;
* `FirstInFirstBucket` — **the record with the smallest id lies in the smallest bucket**.

Main results:

* `selectRecords_placed` — what the driver selects lies where its ids say;
* `fixedColumns_select_eq` — **the same row is taken in whatever order the rows come**;
* `retryable_outcome_iff` — which failures are tried again;
* `canonical_select_iff`, `prepared_canonical_iff` — **the record is the right one exactly when the
  smallest id lies in the smallest bucket**.
-/

import ScheduledJobs.JobHandlers
import ScheduledJobs.OrphanReservations
import Mathlib.Data.List.MinMax
import Mathlib.Data.List.ReduceOption

set_option relaxedAutoImplicit false
set_option autoImplicit false

namespace ScheduledJobs.Handlers

open Cassandra (WorkloadRecord RecordRow)
open Json (Object)
open ScheduledJobs.Workload (refusals)

/-! ### An element that no other is ahead of -/

section Ahead

variable {α : Type} {r : α → α → Prop} [DecidableRel r] {l : List α}

theorem mem_of_foldl_argAux {o : Option α} {m : α} (h : l.foldl (List.argAux r) o = some m) :
    o = some m ∨ m ∈ l := by
  induction l generalizing o with
  | nil => exact Or.inl h
  | cons a l ih =>
      rcases ih h with hstep | hmem
      · cases o with
        | none =>
            obtain rfl := Option.some.inj hstep
            exact Or.inr List.mem_cons_self
        | some b =>
            rw [List.argAux] at hstep
            dsimp only at hstep
            split at hstep
            · obtain rfl := Option.some.inj hstep
              exact Or.inr List.mem_cons_self
            · exact Or.inl hstep
      · exact Or.inr (List.mem_cons_of_mem a hmem)

/-- What is found from the left is in the list, and no element is ahead of it. -/
theorem foldl_argAux_spec (hirrefl : Std.Irrefl r) (htrans : IsTrans α r) {m : α}
    (h : l.foldl (List.argAux r) none = some m) : m ∈ l ∧ ∀ a ∈ l, ¬ r a m := by
  refine ⟨?_, fun a ha => List.not_of_mem_foldl_argAux r hirrefl htrans ha h⟩
  rcases mem_of_foldl_argAux h with hnone | hmem
  · cases hnone
  · exact hmem

end Ahead

/-! ### The selection -/

/-- The records have distinct ids and lie in the buckets of their ids. -/
structure Placed (bucketCount : ℤ) (records : List WorkloadRecord) : Prop where
  bucket : ∀ r ∈ records, r.bucket = r.recordId % bucketCount
  nodup : (records.map WorkloadRecord.recordId).Nodup

section Placed

variable {bucketCount : ℤ} {records : List WorkloadRecord}

theorem Placed.eq_of_recordId_eq (h : Placed bucketCount records) :
    ∀ r ∈ records, ∀ s ∈ records, r.recordId = s.recordId → r = s := fun _ hr _ hs hid =>
  List.inj_on_of_nodup_map h.nodup hr hs hid

end Placed

/-- The key of `max`. -/
def selectionKey (item : WorkloadRecord) : ℤ × ℤ × ℤ :=
  (item.inputNumber, -item.bucket, -item.recordId)

/-- Tuples are compared from the left. -/
def TupleLt (k k' : ℤ × ℤ × ℤ) : Prop :=
  k.1 < k'.1 ∨ k.1 = k'.1 ∧ (k.2.1 < k'.2.1 ∨ k.2.1 = k'.2.1 ∧ k.2.2 < k'.2.2)

instance (k k' : ℤ × ℤ × ℤ) : Decidable (TupleLt k k') := inferInstanceAs (Decidable (_ ∨ _))

/-- The key of a record is greater than that of another one. -/
def Ahead (r s : WorkloadRecord) : Prop := TupleLt (selectionKey s) (selectionKey r)

instance : DecidableRel Ahead := fun r s =>
  inferInstanceAs (Decidable (TupleLt (selectionKey s) (selectionKey r)))

/-- `max`, which takes the first of the greatest. -/
def select (records : List WorkloadRecord) : Option WorkloadRecord :=
  records.foldl (List.argAux Ahead) none

theorem ahead_iff {r s : WorkloadRecord} :
    Ahead r s ↔ s.inputNumber < r.inputNumber ∨
      s.inputNumber = r.inputNumber ∧
        (r.bucket < s.bucket ∨ r.bucket = s.bucket ∧ r.recordId < s.recordId) := by
  simp only [Ahead, TupleLt, selectionKey]
  omega

/-- **What is taken**: a record that no other one is ahead of. -/
theorem select_spec {records : List WorkloadRecord} {r : WorkloadRecord}
    (h : select records = some r) : r ∈ records ∧ ∀ s ∈ records, ¬ Ahead s r := by
  refine foldl_argAux_spec ⟨fun r => ?_⟩ ⟨fun r s t => ?_⟩ h
  · rw [ahead_iff]
    omega
  · simp only [ahead_iff]
    omega

section Select

variable {bucketCount : ℤ} {records records' : List WorkloadRecord}

/-- What no update changes of a record: its row, and its input number. -/
def fixedColumns (r : WorkloadRecord) : String × ℤ × ℤ × ℤ :=
  (r.datasetId, r.bucket, r.recordId, r.inputNumber)

theorem fixedColumns_eq_iff {r s : WorkloadRecord} : fixedColumns r = fixedColumns s ↔
    r.datasetId = s.datasetId ∧ r.bucket = s.bucket ∧ r.recordId = s.recordId ∧
      r.inputNumber = s.inputNumber := by
  simp only [fixedColumns, Prod.mk.injEq]

/-- **The same row is taken in whatever order the rows come**, and whatever their checksums are. -/
theorem fixedColumns_select_eq (h : Placed bucketCount records)
    (hperm : (records'.map fixedColumns).Perm (records.map fixedColumns)) {r r' : WorkloadRecord}
    (hselect : select records = some r) (hselect' : select records' = some r') :
    fixedColumns r' = fixedColumns r := by
  obtain ⟨hr, hmax⟩ := select_spec hselect
  obtain ⟨hr', hmax'⟩ := select_spec hselect'
  obtain ⟨s, hs, hcolumns⟩ := List.mem_map.1 (hperm.mem_iff.1 (List.mem_map_of_mem hr'))
  obtain ⟨s', hs', hcolumns'⟩ := List.mem_map.1 (hperm.mem_iff.2 (List.mem_map_of_mem hr))
  obtain ⟨-, hbucket, hid, hinput⟩ := fixedColumns_eq_iff.1 hcolumns
  obtain ⟨-, hbucket', hid', hinput'⟩ := fixedColumns_eq_iff.1 hcolumns'
  have hnot := hmax s hs
  have hnot' := hmax' s' hs'
  rw [ahead_iff] at hnot hnot'
  rw [← hcolumns, h.eq_of_recordId_eq s hs r hr (by omega)]

/-- The record a job ought to be about: the greatest input number, and the smallest id with it. -/
structure Canonical (records : List WorkloadRecord) (r : WorkloadRecord) : Prop where
  mem : r ∈ records
  greatest : ∀ s ∈ records, s.inputNumber ≤ r.inputNumber
  smallest : ∀ s ∈ records, s.inputNumber = r.inputNumber → r.recordId ≤ s.recordId

/-- A greater input number, or a smaller id with the same one. -/
def Precedes (r s : WorkloadRecord) : Prop :=
  s.inputNumber < r.inputNumber ∨ s.inputNumber = r.inputNumber ∧ r.recordId < s.recordId

instance : DecidableRel Precedes := fun _ _ => inferInstanceAs (Decidable (_ ∨ _))

/-- There is such a record. -/
theorem exists_canonical (hne : records ≠ []) : ∃ r, Canonical records r := by
  have hirrefl : Std.Irrefl Precedes := ⟨fun r => by rw [Precedes]; omega⟩
  have htrans : IsTrans WorkloadRecord Precedes := ⟨fun r s t => by simp only [Precedes]; omega⟩
  cases hfound : records.foldl (List.argAux Precedes) none with
  | none => exact absurd ((List.foldl_argAux_eq_none Precedes).1 hfound).1 hne
  | some r =>
      obtain ⟨hr, hall⟩ := foldl_argAux_spec hirrefl htrans hfound
      refine ⟨r, hr, fun s hs => ?_, fun s hs heq => ?_⟩
      · have hnot := hall s hs
        rw [Precedes] at hnot
        omega
      · have hnot := hall s hs
        rw [Precedes] at hnot
        omega

/-- Among the records with the greatest input number, the one with the smallest id lies in the
smallest bucket. -/
def FirstInFirstBucket (bucketCount : ℤ) (records : List WorkloadRecord) : Prop :=
  ∀ r s, Canonical records r → s ∈ records → s.inputNumber = r.inputNumber →
    r.recordId % bucketCount ≤ s.recordId % bucketCount

/-- **The record that is taken is the right one exactly when the smallest id lies in the smallest
bucket.** -/
theorem canonical_select_iff (h : Placed bucketCount records) {r : WorkloadRecord}
    (hselect : select records = some r) :
    Canonical records r ↔ FirstInFirstBucket bucketCount records := by
  obtain ⟨hr, hmax⟩ := select_spec hselect
  constructor
  · intro hcanonical c s hc hs heq
    have hinput : c.inputNumber = r.inputNumber :=
      le_antisymm (hcanonical.greatest c hc.mem) (hc.greatest r hr)
    have hid : c.recordId = r.recordId :=
      le_antisymm (hc.smallest r hr hinput.symm) (hcanonical.smallest c hc.mem hinput)
    have hnot := hmax s hs
    rw [ahead_iff] at hnot
    have hrbucket := h.bucket r hr
    have hsbucket := h.bucket s hs
    rw [hid, ← hrbucket, ← hsbucket]
    omega
  · intro hfirst
    obtain ⟨c, hc⟩ := exists_canonical (List.ne_nil_of_mem hr)
    have hinput : r.inputNumber ≤ c.inputNumber := hc.greatest r hr
    have hnot := hmax c hc.mem
    rw [ahead_iff] at hnot
    have heq : r.inputNumber = c.inputNumber := by omega
    have hbucket : c.bucket ≤ r.bucket := by
      rw [h.bucket c hc.mem, h.bucket r hr]
      exact hfirst c r hc hr heq
    have hle : r.recordId ≤ c.recordId := by omega
    have hid : r.recordId = c.recordId := le_antisymm hle (hc.smallest r hr heq)
    rw [h.eq_of_recordId_eq r hr c hc.mem hid]
    exact hc

end Select

/-! ### The driver -/

/-- A row of `datasets`. -/
structure DatasetMetadata where
  recordCount : ℤ
  bucketCount : ℤ
  deriving DecidableEq

/-- The answers of a session: the row of `datasets`, and the row of `records_by_bucket` under a key.
A statement may fail; a row has the key it is read by. -/
structure CassandraSession where
  dataset (datasetId : String) : Except HandlerException (Option DatasetMetadata)
  record (datasetId : String) (bucket recordId : ℤ) :
    Except HandlerException (Option (RecordRow String))
  keyed : ∀ {datasetId bucket recordId row}, record datasetId bucket recordId = .ok (some row) →
    row.datasetId = datasetId ∧ row.bucket = bucket ∧ row.recordId = recordId

/-- `random.Random(seed).sample(range(population), count)`. -/
structure Sampler where
  sample (seed : ℤ) (population count : ℕ) : List ℕ
  length : ∀ seed population count, count ≤ population →
    (sample seed population count).length = count
  nodup : ∀ seed population count, (sample seed population count).Nodup
  lt : ∀ seed population count, ∀ id ∈ sample seed population count, id < population

/-- The read of one record, from the bucket its id says. -/
def CassandraSession.readRecord (session : CassandraSession) (datasetId : String) (bucketCount : ℤ)
    (identifier : ℕ) : Except HandlerException (Option WorkloadRecord) :=
  if bucketCount = 0 then .error .other
  else
    Option.map RecordRow.toWorkloadRecord <$>
      session.record datasetId (Int.fmod identifier bucketCount) identifier

/-- **`select_records`** of the driver. -/
def CassandraSession.selectRecords (session : CassandraSession) (sampler : Sampler)
    (datasetId : String) (recordCount seed : ℤ) :
    Except HandlerException (List WorkloadRecord) := do
  match ← session.dataset datasetId with
  | none => return []
  | some metadata =>
    if metadata.recordCount < recordCount then return []
    else if recordCount < 0 then .error (.valueError "Sample larger than population or is negative")
    else
      let ids := sampler.sample seed metadata.recordCount.toNat recordCount.toNat
      let results ← ids.mapM (session.readRecord datasetId metadata.bucketCount)
      return results.reduceOption

section Driver

variable {session : CassandraSession} {datasetId : String} {bucketCount : ℤ}

theorem readRecord_spec {identifier : ℕ} {r : WorkloadRecord}
    (h : session.readRecord datasetId bucketCount identifier = .ok (some r)) :
    r.datasetId = datasetId ∧ r.bucket = Int.fmod identifier bucketCount ∧
      r.recordId = identifier := by
  rw [CassandraSession.readRecord] at h
  by_cases hzero : bucketCount = 0
  · rw [if_pos hzero] at h
    cases h
  · rw [if_neg hzero, Except.map_eq_ok_iff] at h
    obtain ⟨_ | row, hrow, heq⟩ := h
    · cases heq
    · obtain rfl : row.toWorkloadRecord = r := Option.some.inj heq
      exact session.keyed hrow

/-- What is read for a list of ids: records of these ids, in this order. -/
theorem readRecords_spec {ids : List ℕ} {results : List (Option WorkloadRecord)}
    (h : ids.mapM (session.readRecord datasetId bucketCount) = .ok results) :
    ((results.reduceOption).map WorkloadRecord.recordId).Sublist (ids.map Nat.cast) ∧
      ∀ r ∈ results.reduceOption,
        r.datasetId = datasetId ∧ r.bucket = Int.fmod r.recordId bucketCount := by
  induction ids generalizing results with
  | nil =>
      obtain rfl := Except.ok.inj h
      exact ⟨List.Sublist.refl _, fun r hr => absurd hr (List.not_mem_nil)⟩
  | cons identifier ids ih =>
      obtain ⟨read, hread, rest, hrest, rfl⟩ := Except.mapM_cons_eq_ok_iff.1 h
      obtain ⟨hsub, hall⟩ := ih hrest
      cases read with
      | none => exact ⟨hsub.cons _, hall⟩
      | some r =>
          obtain ⟨hdataset, hbucket, hid⟩ := readRecord_spec hread
          rw [List.reduceOption_cons_of_some, List.map_cons, List.map_cons, hid]
          refine ⟨hsub.cons_cons _, List.forall_mem_cons.2 ⟨⟨hdataset, ?_⟩, hall⟩⟩
          rw [hbucket, hid]

/-- **The records the driver selects lie where their ids say**, and their ids are distinct. -/
theorem selectRecords_placed {sampler : Sampler} {metadata : DatasetMetadata}
    {recordCount seed : ℤ} {records : List WorkloadRecord}
    (hdataset : session.dataset datasetId = .ok (some metadata))
    (hcount : 1 ≤ metadata.bucketCount)
    (h : session.selectRecords sampler datasetId recordCount seed = .ok records) :
    Placed metadata.bucketCount records := by
  have hnil : Placed metadata.bucketCount [] := ⟨List.forall_mem_nil _, List.nodup_nil⟩
  obtain ⟨found, hfound, h⟩ := Except.bind_eq_ok_iff.1 h
  obtain rfl : found = some metadata := Except.ok.inj (hfound.symm.trans hdataset)
  dsimp only at h
  by_cases hmore : metadata.recordCount < recordCount
  · rw [if_pos hmore] at h
    exact Except.ok.inj h ▸ hnil
  · rw [if_neg hmore] at h
    by_cases hneg : recordCount < 0
    · rw [if_pos hneg] at h
      cases h
    · rw [if_neg hneg] at h
      obtain ⟨results, hresults, heq⟩ := Except.bind_eq_ok_iff.1 h
      obtain rfl : results.reduceOption = records := Except.ok.inj heq
      obtain ⟨hsub, hall⟩ := readRecords_spec hresults
      refine ⟨fun r hr => ?_, hsub.nodup ((sampler.nodup _ _ _).map Nat.cast_injective)⟩
      rw [(hall r hr).2, Int.fmod_eq_emod_of_nonneg _ (by omega)]

end Driver

/-! ### The handler -/

/-- The bounds of `CassandraConfig` that the handler checks. -/
structure CassandraConfig where
  maxRecordCount : ℤ := 10000
  maxInputNumber : ℤ := 10000
  maxProcessingDelayMs : ℤ := 5000
  one_le_maxRecordCount : 1 ≤ maxRecordCount := by decide
  maxInputNumber_nonneg : 0 ≤ maxInputNumber := by decide
  maxProcessingDelayMs_nonneg : 0 ≤ maxProcessingDelayMs := by decide

/-- What is passed to `apply_once`. -/
structure Application where
  record : WorkloadRecord
  operationId : String
  fibonacciResult : String
  deriving DecidableEq

/-- `CassandraWorkloadClient`. -/
structure CassandraWorkloadClient where
  selectRecords (datasetId : String) (recordCount seed : ℤ) :
    Except HandlerException (List WorkloadRecord)
  applyOnce (call : Application) : Except HandlerException (Bool × ℤ)

/-- What the payload of a job says. -/
structure Workload where
  datasetId : String
  recordCount : ℤ
  seed : ℤ
  delayMs : ℤ
  deriving DecidableEq

/-- A failure of the handler that is not tried again. -/
def refusal (code message : String) : HandlerException := .handlerError ⟨code, false⟩ message

/-- A member that has to be a string other than the empty one. -/
def requireText (value : Json.Scalar) (refusal : HandlerException) :
    Except HandlerException String :=
  match value with
  | .str text => if text = "" then .error refusal else .ok text
  | _ => .error refusal

theorem requireText_meets {value : Json.Scalar} {refusal : HandlerException} :
    (requireText value refusal).Meets (fun text => value = .str text ∧ text ≠ "")
      fun e => e = refusal := by
  cases value with
  | str text =>
      by_cases hempty : text = ""
      · simp only [requireText, if_pos hempty]
        exact rfl
      · simp only [requireText, if_neg hempty]
        exact ⟨rfl, hempty⟩
  | null | bool _ | int _ => exact rfl

/-- The checks of the payload, in their order. -/
def readWorkload (config : CassandraConfig) (job : ClaimedJob Object) :
    Except HandlerException Workload := do
  let payload := payloadOf job
  let datasetId ← requireText ((payload.get? "datasetId").getD .null)
    (refusal "INVALID_DATASET" "datasetId is required")
  let recordCount ← requireInt ((payload.get? "recordCount").getD .null)
    (fun n => 1 ≤ n ∧ n ≤ config.maxRecordCount)
    (refusal "INVALID_RECORD_COUNT" "recordCount exceeds configured bounds")
  let seed ← requireInt ((payload.get? "seed").getD .null) (fun _ => True)
    (refusal "INVALID_SEED" "seed must be an integer")
  let delayMs ← requireInt ((payload.get? "processingDelayMs").getD (.int 0))
    (fun n => 0 ≤ n ∧ n ≤ config.maxProcessingDelayMs)
    (refusal "INVALID_PROCESSING_DELAY" "processing delay exceeds configured bounds")
  return ⟨datasetId, recordCount, seed, delayMs⟩

/-- What the handler has when it calls `apply_once`. -/
structure Prepared where
  rows : ℕ
  delayMs : ℤ
  application : Application
  deriving DecidableEq

/-- The call of `apply_once` for the records that were read. -/
def applicationOf (config : CassandraConfig) (jobId : String) (workload : Workload)
    (records : List WorkloadRecord) : Except HandlerException Application :=
  if records.length ≠ workload.recordCount then
    .error (refusal "RECORD_COUNT_MISMATCH" "dataset returned an incomplete selection")
  else
    match select records with
    | none => .error (.valueError "max() iterable argument is empty")
    | some selected =>
      if config.maxInputNumber < selected.inputNumber then
        .error (refusal "INPUT_BOUND_EXCEEDED" "selected input exceeds configured bounds")
      else do
        let number ← fibonacci selected.inputNumber
        let result ← intText number
        return ⟨selected, stableOperationId jobId, result⟩

/-- **The handler up to `apply_once`.** -/
def prepare (client : CassandraWorkloadClient) (config : CassandraConfig)
    (job : ClaimedJob Object) : Except HandlerException Prepared := do
  let workload ← readWorkload config job
  let records ← client.selectRecords workload.datasetId workload.recordCount workload.seed
  let application ← applicationOf config job.jobId workload records
  return ⟨records.length, workload.delayMs, application⟩

/-- The summary of a handler whose call returned. -/
def cassandraSummary (prepared : Prepared) (checksum : ℤ) : Object :=
  let selected := prepared.application.record
  Json.ofMembers
    [("rows", .int prepared.rows),
     ("maximum", .int selected.inputNumber),
     ("bucket", .int selected.bucket),
     ("recordId", .int selected.recordId),
     ("operationId", .str prepared.application.operationId),
     ("previousChecksum", .int selected.checksum),
     ("checksum", .int checksum),
     ("delayMs", .int prepared.delayMs),
     ("resultHash", .str (digest prepared.application.fibonacciResult))]

/-- **`build_cassandra_handler`.** -/
def cassandraHandler (client : CassandraWorkloadClient) (config : CassandraConfig)
    (job : ClaimedJob Object) : Except HandlerException Object := do
  let prepared ← prepare client config job
  match client.applyOnce prepared.application with
  | .error _ =>
    .error (.handlerError ⟨"CASSANDRA_OPERATION_FAILED", true⟩ "Cassandra operation failed")
  | .ok (false, _) =>
    .error (.handlerError ⟨"CASSANDRA_CONDITIONAL_CONFLICT", true⟩ "conditional update conflicted")
  | .ok (true, checksum) => .ok (cassandraSummary prepared checksum)

/-! ### What is applied -/

section Prepare

variable {client : CassandraWorkloadClient} {config : CassandraConfig} {job : ClaimedJob Object}

/-- The failure is a refusal, before anything is written. -/
def IsRefusal (failure : HandlerError) : Prop := failure ∈ refusals

instance (failure : HandlerError) : Decidable (IsRefusal failure) :=
  inferInstanceAs (Decidable (failure ∈ refusals))

/-- **What a payload comes to**: a workload within the bounds, or a refusal. -/
theorem readWorkload_meets (config : CassandraConfig) (job : ClaimedJob Object) :
    (readWorkload config job).Meets
      (fun w => w.datasetId ≠ "" ∧ (1 ≤ w.recordCount ∧ w.recordCount ≤ config.maxRecordCount) ∧
        0 ≤ w.delayMs ∧ w.delayMs ≤ config.maxProcessingDelayMs)
      (FailsWith IsRefusal) := by
  refine (requireText_meets.imp_error fun e => failsWith_handlerError IsRefusal (by decide)).bind
    fun datasetId _ hdataset => ?_
  refine (requireInt_meets.imp_error fun e => failsWith_handlerError IsRefusal (by decide)).bind
    fun recordCount _ hcount => ?_
  refine (requireInt_meets.imp_error fun e => failsWith_handlerError IsRefusal (by decide)).bind
    fun seed _ _ => ?_
  refine (requireInt_meets.imp_error fun e => failsWith_handlerError IsRefusal (by decide)).bind
    fun delayMs _ hdelay => ?_
  exact ⟨hdataset.2, hcount.2, hdelay.2⟩

/-- **What the records come to**: a call for the selected one, or a refusal. -/
theorem applicationOf_meets (config : CassandraConfig) (jobId : String) (workload : Workload)
    (records : List WorkloadRecord) :
    (applicationOf config jobId workload records).Meets
      (fun a => select records = some a.record ∧ a.record.inputNumber ≤ config.maxInputNumber ∧
        a.operationId = stableOperationId jobId)
      (FailsWith IsRefusal) := by
  rw [applicationOf]
  by_cases hlength : (records.length : ℤ) ≠ workload.recordCount
  · rw [if_pos hlength]
    exact failsWith_handlerError IsRefusal (by decide) rfl
  · rw [if_neg hlength]
    cases hselect : select records with
    | none => exact failsWith_valueError ⟨_, rfl⟩
    | some selected =>
        by_cases hbound : config.maxInputNumber < selected.inputNumber
        · simp only [if_pos hbound]
          exact failsWith_handlerError IsRefusal (by decide) rfl
        · simp only [if_neg hbound]
          refine ((fibonacci_meets _).imp_error fun _ => failsWith_valueError).bind
            fun number _ _ => ?_
          refine ((intText_meets number).imp_error fun _ => failsWith_valueError).bind
            fun result _ _ => ?_
          exact ⟨rfl, not_lt.1 hbound, rfl⟩

/-- **A failure is tried again exactly when the record may have been written**: when `apply_once`
was called. -/
theorem retryable_iff_prepared
    (hclient : ∀ datasetId recordCount seed,
      (client.selectRecords datasetId recordCount seed).Meets (fun _ => True)
        (FailsWith IsRefusal))
    {failure : HandlerError} {message : String}
    (h : cassandraHandler client config job = .error (.handlerError failure message)) :
    failure.retryable = true ↔ (prepare client config job).Returns := by
  cases hprepare : prepare client config job with
  | error e =>
      refine iff_of_false ?_ (Except.not_returns_error e)
      have hmeets : (prepare client config job).Meets (fun _ => True) (FailsWith IsRefusal) :=
        (readWorkload_meets config job).bind fun workload _ _ =>
          (hclient _ _ _).bind fun records _ _ =>
            (applicationOf_meets config job.jobId workload records).bind fun _ _ _ => trivial
      have heq : e = .handlerError failure message := by
        rw [cassandraHandler, hprepare] at h
        exact Except.error.inj h
      have hmem : failure ∈ refusals := hmeets.of_error hprepare failure message heq
      have hall : ∀ f ∈ refusals, ¬ f.retryable = true := by decide
      exact hall failure hmem
  | ok p =>
      refine iff_of_true ?_ (Except.returns_ok p)
      rw [cassandraHandler, hprepare] at h
      dsimp only [bind, Except.bind] at h
      split at h
      · cases h
        rfl
      · cases h
        rfl
      · cases h

/-- **What a worker makes of it**: of the jobs that the handlers fail, those are tried again for
which `apply_once` was called. -/
theorem retryable_outcome_iff
    (hclient : ∀ datasetId recordCount seed,
      (client.selectRecords datasetId recordCount seed).Meets (fun _ => True)
        (FailsWith IsRefusal))
    {failure : HandlerError}
    (h : outcomeOf ((HandlerRegistry.default.register "CASSANDRA_FIB_UPDATE"
      (cassandraHandler client config)).execute job) = .failed failure) :
    failure.retryable = true ↔
      job.jobType = "CASSANDRA_FIB_UPDATE" ∧ (prepare client config job).Returns := by
  obtain ⟨message, hfailed⟩ := outcomeOf_eq_failed_iff.1 h
  by_cases htype : job.jobType = "CASSANDRA_FIB_UPDATE"
  · rw [HandlerRegistry.execute_register_self _ htype] at hfailed
    rw [retryable_iff_prepared hclient hfailed, and_iff_right htype]
  · rw [HandlerRegistry.execute_register_of_ne _ htype] at hfailed
    have hpermanent : failure.retryable = false :=
      (HandlerRegistry.execute_default_meets job).of_error hfailed failure message rfl
    rw [hpermanent]
    exact iff_of_false (by decide) fun h => htype h.1

/-- The records that the handler of a job reads. -/
def recordsRead (client : CassandraWorkloadClient) (config : CassandraConfig)
    (job : ClaimedJob Object) : Except HandlerException (List WorkloadRecord) := do
  let workload ← readWorkload config job
  client.selectRecords workload.datasetId workload.recordCount workload.seed

/-- **When there is a call**: the selection is complete, its greatest input number is within the
bound, and the Fibonacci number there has a text. -/
theorem applicationOf_eq {jobId : String} {workload : Workload} {records : List WorkloadRecord}
    {selected : WorkloadRecord} {n : ℕ} (hlength : (records.length : ℤ) = workload.recordCount)
    (hselect : select records = some selected) (hinput : selected.inputNumber = n)
    (hbound : (n : ℤ) ≤ config.maxInputNumber) (hdigits : Nat.fib n < 10 ^ maxStrDigits) :
    applicationOf config jobId workload records =
      .ok ⟨selected, stableOperationId jobId, String.ofList (Json.printInt (Nat.fib n))⟩ := by
  have htext : intText (Nat.fib n) = .ok (String.ofList (Json.printInt (Nat.fib n))) :=
    if_pos hdigits
  rw [applicationOf, if_neg (not_not.2 hlength), hselect]
  simp only [hinput, if_neg (not_lt.2 hbound), fibonacci_natCast]
  simp only [bind, Except.bind, htext]
  rfl

/-- **What is prepared for the records that were read.** -/
theorem prepare_spec {p : Prepared} {records : List WorkloadRecord}
    (hprepare : prepare client config job = .ok p)
    (hread : recordsRead client config job = .ok records) :
    select records = some p.application.record ∧
      p.application.record.inputNumber ≤ config.maxInputNumber ∧
      p.application.operationId = stableOperationId job.jobId := by
  obtain ⟨workload, hworkload, h⟩ := Except.bind_eq_ok_iff.1 hprepare
  obtain ⟨records', hrecords', h⟩ := Except.bind_eq_ok_iff.1 h
  obtain ⟨a, ha, h⟩ := Except.bind_eq_ok_iff.1 h
  obtain rfl : ⟨records'.length, workload.delayMs, a⟩ = p := Except.ok.inj h
  have hsame : recordsRead client config job = .ok records' :=
    Except.bind_eq_ok_iff.2 ⟨workload, hworkload, hrecords'⟩
  obtain rfl : records' = records := Except.ok.inj (hsame.symm.trans hread)
  exact (applicationOf_meets config job.jobId workload records').of_ok ha

/-- **Which record a job is about**: the right one, for every attempt, exactly when the smallest id
lies in the smallest bucket. -/
theorem prepared_canonical_iff {bucketCount : ℤ} {records records' : List WorkloadRecord}
    {client' : CassandraWorkloadClient} {config' : CassandraConfig} {job' : ClaimedJob Object}
    {p p' : Prepared} (hplaced : Placed bucketCount records)
    (hread : recordsRead client config job = .ok records)
    (hread' : recordsRead client' config' job' = .ok records')
    (hperm : (records'.map fixedColumns).Perm (records.map fixedColumns))
    (hprepare : prepare client config job = .ok p)
    (hprepare' : prepare client' config' job' = .ok p') :
    (Canonical records p.application.record ∧
        fixedColumns p'.application.record = fixedColumns p.application.record) ↔
      FirstInFirstBucket bucketCount records := by
  obtain ⟨hselect, -⟩ := prepare_spec hprepare hread
  obtain ⟨hselect', -⟩ := prepare_spec hprepare' hread'
  rw [canonical_select_iff hplaced hselect]
  exact and_iff_left (fixedColumns_select_eq hplaced hperm hselect hselect')

end Prepare

/-! ### A tie across two buckets -/

/-- A client that reads given records, and applies every call. -/
def clientOf (records : List WorkloadRecord) : CassandraWorkloadClient where
  selectRecords _ _ _ := .ok records
  applyOnce _ := .ok (true, 8)

/-- A job about two records. -/
def pairJob : ClaimedJob Object where
  jobId := "job-1"
  correlationId := "correlation-1"
  jobType := "CASSANDRA_FIB_UPDATE"
  payload := some (Json.ofMembers
    [("datasetId", .str "local-v1"), ("recordCount", .int 2), ("seed", .int 42),
     ("processingDelayMs", .int 1)])
  payloadReference := none
  scheduledAt := 0
  attemptNumber := 1
  maxAttempts := 3
  claimedBy := "worker-1"
  claimToken := "token-1"
  claimExpiresAt := 60
  maxAttempts_pos := Nat.succ_pos 2

theorem prepare_pairJob {r s selected : WorkloadRecord} (hselect : select [r, s] = some selected)
    (hinput : selected.inputNumber = 20) :
    prepare (clientOf [r, s]) {} pairJob =
      .ok ⟨2, 1, selected, stableOperationId "job-1", "6765"⟩ := by
  have hdigits : Nat.fib 20 < 10 ^ maxStrDigits := by
    have hfour : 10 ^ 4 ≤ 10 ^ maxStrDigits :=
      Nat.pow_le_pow_right (by decide) (by simp [maxStrDigits])
    exact lt_of_lt_of_le (by decide) hfour
  have hworkload : readWorkload {} pairJob = .ok ⟨"local-v1", 2, 42, 1⟩ := rfl
  have happlication : applicationOf {} pairJob.jobId ⟨"local-v1", 2, 42, 1⟩ [r, s] =
      .ok ⟨selected, stableOperationId "job-1", "6765"⟩ :=
    applicationOf_eq rfl hselect hinput (by decide) hdigits
  rw [prepare, hworkload]
  change (applicationOf {} pairJob.jobId ⟨"local-v1", 2, 42, 1⟩ [r, s] >>= _) = _
  rw [happlication]
  rfl

/-- Two records in the buckets of their ids, with the same input number. -/
def tied (a b : ℕ) : List WorkloadRecord :=
  [⟨"local-v1", a % 2, a, 20, 4⟩, ⟨"local-v1", b % 2, b, 20, 7⟩]

theorem firstInFirstBucket_eight_nine : FirstInFirstBucket 2 (tied 9 8) := by
  intro r s hr hs heq
  have hinputs : ∀ t ∈ tied 9 8, t.inputNumber = 20 := by decide
  have hle : r.recordId ≤ 8 :=
    hr.smallest ⟨"local-v1", 0, 8, 20, 7⟩ (by decide) (hinputs r hr.mem).symm
  have hall : ∀ t ∈ tied 9 8, t.recordId = 8 ∨ t.recordId = 9 := by decide
  have hreight := hall r hr.mem
  have hseight := hall s hs
  omega

/-- The record with id 8 lies in the first of two buckets, and is taken from both orders. -/
theorem prepared_canonical_iff_eight_nine :
    Canonical (tied 9 8) ⟨"local-v1", 0, 8, 20, 7⟩ ∧
      fixedColumns ⟨"local-v1", 0, 8, 20, 4⟩ = fixedColumns ⟨"local-v1", 0, 8, 20, 7⟩ := by
  have hplaced : Placed 2 (tied 9 8) := ⟨by decide, by decide⟩
  have hperm : ((tied 8 9).map fixedColumns).Perm ((tied 9 8).map fixedColumns) := by decide
  have hread : recordsRead (clientOf (tied 9 8)) {} pairJob = .ok (tied 9 8) := rfl
  have hread' : recordsRead (clientOf (tied 8 9)) {} pairJob = .ok (tied 8 9) := rfl
  exact (prepared_canonical_iff hplaced hread hread' hperm (prepare_pairJob (by decide) rfl)
    (prepare_pairJob (by decide) rfl)).2 firstInFirstBucket_eight_nine

/-- **Of two records with the same input number, the one with the greater id is taken**, when its
bucket is the smaller one. -/
theorem not_canonical_one_two :
    ¬ ∀ (bucketCount : ℤ) (records : List WorkloadRecord) (client : CassandraWorkloadClient)
        (config : CassandraConfig) (job : ClaimedJob Object) (p : Prepared), 1 ≤ bucketCount →
      records ≠ [] → Placed bucketCount records → recordsRead client config job = .ok records →
      prepare client config job = .ok p → Canonical records p.application.record := by
  intro h
  have hplaced : Placed 2 (tied 1 2) := ⟨by decide, by decide⟩
  have hcanonical : Canonical (tied 1 2) ⟨"local-v1", 0, 2, 20, 7⟩ :=
    h 2 (tied 1 2) (clientOf (tied 1 2)) {} pairJob
      ⟨2, 1, ⟨"local-v1", 0, 2, 20, 7⟩, stableOperationId "job-1", "6765"⟩ (by decide) (by decide)
      hplaced rfl (prepare_pairJob (by decide) rfl)
  have hle : (2 : ℤ) ≤ 1 := hcanonical.smallest ⟨"local-v1", 1, 1, 20, 4⟩ (by decide) rfl
  omega

end ScheduledJobs.Handlers
