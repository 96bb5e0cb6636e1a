/-
**What is read of timestamps, and what of their instants.**

The reading on instants knows no exceptions of timestamps.  Whenever a job with offsets is read, it
is read as its instants are; so what is known of the tables that hold readings of instants is known
of those that hold readings of timestamps, as long as all offsets are there.

The other way round it takes room: a threshold behind the end of the calendar is an exception of the
one and a number to the other.  Timestamps in UTC whose thresholds are in the calendar are read
whenever their instants are, unless a column refuses a value.

Main definitions:

* `Datetime.HasRoom` — the thresholds of a scheduled time are in the calendar.

Main results:

* `replay_instants` — rows that are replayed are replayed as their instants are;
* `exists_replay` — events with offsets are replayed without an exception;
* `rebuild_instants` — **a job that is read is read as its instants are**;
* `rebuild_of_instants` — **a job in UTC is read when its instants are**.
-/

import ScheduledJobs.MixedInstants
import ScheduledJobs.MixedReading

set_option relaxedAutoImplicit false
set_option autoImplicit false

namespace ScheduledJobs

/-- The thresholds of a scheduled time are in the calendar. -/
structure Datetime.HasRoom (config : VisibilityConfig) (t : Datetime) : Prop where
  gracePeriod : Datetime.InRange (t + seconds config.gracePeriodSeconds)
  pollInterval : Datetime.InRange (t + seconds config.pollIntervalSeconds)

instance (config : VisibilityConfig) (t : Datetime) : Decidable (t.HasRoom config) :=
  decidable_of_iff (Datetime.InRange (t + seconds config.gracePeriodSeconds) ∧
    Datetime.InRange (t + seconds config.pollIntervalSeconds))
    ⟨fun h => ⟨h.1, h.2⟩, fun h => ⟨h.1, h.2⟩⟩

namespace Mixed

variable {Payload : Type} {runtime : Runtime} {columns : Columns}
  {decode : Payload → Except WireError Event}
  {decode' : Payload → Except WireError ScheduledJobs.Event} {rows : List (EdrRow Payload)}
  {engine after : VisibilityEngine} {jobId : String}

/-! ### Replaying -/

theorem replayRow_eq_ok_iff {row : EdrRow Payload} :
    replayRow decode engine row = .ok after ↔ ∃ event decision,
      decode row.canonicalPayload = .ok event ∧ engine.apply event = (after, .ok decision) := by
  simp only [replayRow, Except.bind_eq_ok_iff, Except.mapError_eq_ok_iff]
  constructor
  · rintro ⟨event, hevent, decision, hdecision, hafter⟩
    exact ⟨event, decision, hevent, Prod.ext (Except.ok.inj hafter) hdecision⟩
  · rintro ⟨event, decision, hevent, happly⟩
    exact ⟨event, hevent, decision, by rw [happly], by rw [happly]; rfl⟩

/-- The rows decode to events whose timestamps have a property, and to their instants. -/
def Decoded (P : Timestamp → Prop) (decode : Payload → Except WireError Event)
    (decode' : Payload → Except WireError ScheduledJobs.Event) (row : EdrRow Payload) : Prop :=
  ∀ event, decode row.canonicalPayload = .ok event →
    event.Holding P ∧ decode' row.canonicalPayload = .ok event.instants

/-- **Rows that are replayed are replayed as their instants are.** -/
theorem replay_instants {P : Timestamp → Prop} (hrows : ∀ row ∈ rows, Decoded P decode decode' row)
    (hengine : engine.Holding P) (h : rows.foldlM (replayRow decode) engine = .ok after) :
    rows.foldlM (ScheduledJobs.replayRow decode') engine.instants = .ok after.instants ∧
      after.Holding P := by
  induction rows generalizing engine with
  | nil =>
      cases h
      exact ⟨rfl, hengine⟩
  | cons row rows ih =>
      rw [List.forall_mem_cons] at hrows
      obtain ⟨next, hnext, hrest⟩ := Except.bind_eq_ok_iff.1 h
      obtain ⟨event, decision, hevent, happly⟩ := replayRow_eq_ok_iff.1 hnext
      obtain ⟨hholding, hinstants⟩ := hrows.1 event hevent
      obtain ⟨hreplay, hkept⟩ := ih hrows.2 (hengine.apply hholding happly) hrest
      exact ⟨Except.bind_eq_ok_iff.2 ⟨next.instants, ScheduledJobs.replayRow_eq_ok_iff.2
        ⟨_, decision, hinstants, VisibilityEngine.apply_instants happly⟩, hreplay⟩, hkept⟩

/-- **Events with offsets are replayed without an exception.** -/
theorem exists_replay (hrows : ∀ row ∈ rows, ∃ event, decode row.canonicalPayload = .ok event ∧
      event.Holding (·.isAware = true)) (hcoherent : engine.Coherent)
    (hengine : engine.Holding (·.isAware = true)) :
    ∃ after, rows.foldlM (replayRow decode) engine = .ok after ∧ after.Coherent := by
  induction rows generalizing engine with
  | nil => exact ⟨engine, rfl, hcoherent⟩
  | cons row rows ih =>
      rw [List.forall_mem_cons] at hrows
      obtain ⟨⟨event, hevent, hholding⟩, hrest⟩ := hrows
      have haccepts : engine.Accepts event none := fun _ _ job hjob =>
        { eventTime := fun t ht =>
            ((hengine _ job hjob).lastEventTime t ht).trans hholding.eventTime.symm
          ingestionTime := fun t ht =>
            ((hengine _ job hjob).dataAsOf t ht).trans hholding.ingestionTime.symm
          retrievedAt := fun _ t ht =>
            ((hengine _ job hjob).schedulerRetrievedAt t ht).trans hholding.retrievedAt.symm }
      have hnext := hcoherent.apply haccepts
      obtain ⟨decision, hdecision⟩ : ∃ decision, (engine.apply event).2 = .ok decision := by
        rcases engine.apply_cases event none with
          ⟨-, happly⟩ | ⟨-, ⟨expected, hmem, -⟩, -⟩ | ⟨hnew, hversion, hreduce⟩
        · exact ⟨_, congrArg Prod.snd happly⟩
        · cases hmem
        · obtain ⟨result, hresult⟩ :=
            (VisibilityEngine.accepts_iff_returns hcoherent hnew hversion).1 haccepts
          rcases hreduce with ⟨e, herror, -⟩ | ⟨other, -, happly⟩
          · rw [hresult] at herror
            cases herror
          · exact ⟨_, congrArg Prod.snd happly⟩
      have happly : engine.apply event = ((engine.apply event).1, .ok decision) :=
        Prod.ext rfl hdecision
      obtain ⟨after, hafter, hlast⟩ := ih hrest hnext (hengine.apply hholding happly)
      exact ⟨after, Except.bind_eq_ok_iff.2
        ⟨_, replayRow_eq_ok_iff.2 ⟨event, decision, hevent, happly⟩, hafter⟩, hlast⟩

/-! ### What is displayed -/

section Displayed

variable {P : Timestamp → Prop} {job : JobVisibility}

/-- What a response displays is among the timestamps of the projection. -/
theorem JobVisibility.Holding.displayed (h : job.Holding P) :
    ∀ value ∈ job.displayed, ∀ t ∈ value, P t := by
  simp only [JobVisibility.displayed, List.forall_mem_append, List.forall_mem_cons,
    List.forall_mem_flatMap]
  refine ⟨⟨h.createdAt, h.submissionRequestedAt, h.schedulerAcknowledgedAt, h.scheduledAt,
    h.schedulerRetrievedAt, h.startedAt, h.completedAt, h.lastFailureAt, h.nextRetryAt,
    h.dataAsOf, by simp⟩, fun finding hfinding => ⟨?_, (h.finding finding hfinding).resolvedAt,
    by simp⟩⟩
  rintro t ht
  obtain rfl := Option.some_inj.1 ht
  exact (h.finding finding hfinding).firstObservedAt

theorem Attempt.toDict_instants {attempt : Attempt} {view : AttemptView}
    (haware : attempt.Holding (·.isAware = true)) (h : attempt.toDict runtime = .ok view) :
    attempt.instants.toDict = view := by
  obtain ⟨retrievedAt, hretrieved, h⟩ := Except.bind_eq_ok_iff.1 h
  obtain ⟨startedAt, hstarted, h⟩ := Except.bind_eq_ok_iff.1 h
  obtain ⟨completedAt, hcompleted, h⟩ := Except.bind_eq_ok_iff.1 h
  cases h
  rw [iso_of_aware runtime haware.retrievedAt hretrieved,
    iso_of_aware runtime haware.startedAt hstarted,
    iso_of_aware runtime haware.completedAt hcompleted]
  rfl

end Displayed

/-! ### What is written -/

/-- A column holds the instant of a timestamp with an offset. -/
def Columns.StoresInstants (columns : Columns) : Prop :=
  ∀ t instant, t.isAware = true → columns.timestamptz t = some instant → instant = t.instant

theorem Columns.StoresInstants.store {t : Timestamp} {instant : Datetime}
    (h : columns.StoresInstants) (haware : t.isAware = true)
    (hstore : columns.store t = .ok instant) : instant = t.instant := by
  unfold Columns.store at hstore
  split at hstore
  · next hstored =>
      cases hstore
      exact h t _ haware hstored
  · cases hstore

theorem Columns.StoresInstants.storeFinding {finding : Finding}
    {stored : ScheduledJobs.Finding} (h : columns.StoresInstants)
    (haware : finding.Holding (·.isAware = true))
    (hstore : columns.storeFinding finding = .ok stored) : finding.instants = stored := by
  obtain ⟨first, hfirst, hstore⟩ := Except.bind_eq_ok_iff.1 hstore
  obtain ⟨resolved, hresolved, hstore⟩ := Except.bind_eq_ok_iff.1 hstore
  cases hstore
  obtain rfl := h.store haware.firstObservedAt hfirst
  cases hvalue : finding.resolvedAt with
  | none =>
      rw [hvalue] at hresolved
      cases hresolved
      simp only [Finding.instants, hvalue, Option.map_none]
  | some t =>
      rw [hvalue] at hresolved
      obtain ⟨instant, hinstant, hsome⟩ := Except.bind_eq_ok_iff.1 hresolved
      cases hsome
      obtain rfl := h.store (haware.resolvedAt t hvalue) hinstant
      simp only [Finding.instants, hvalue, Option.map_some]

/-- **What is written of a projection is what is written of its instants.** -/
theorem written_instants {job : JobVisibility} {response : JobResponse} {dataAsOf : Timestamp}
    {written : Written jobId} (hcolumns : columns.StoresInstants)
    (haware : job.Holding (·.isAware = true)) (hdata : dataAsOf.isAware = true)
    (h : job.written runtime columns jobId response dataAsOf = .ok written) :
    Projection.written jobId ⟨job.instants, response, dataAsOf.instant⟩ = written := by
  obtain ⟨storedAsOf, hstored, h⟩ := Except.bind_eq_ok_iff.1 h
  obtain ⟨attempts, hattempts, h⟩ := Except.bind_eq_ok_iff.1 h
  obtain ⟨findings, hfindings, h⟩ := Except.bind_eq_ok_iff.1 h
  have hviews : job.attempts.values.map (fun attempt => attempt.instants.toDict) = attempts :=
    Except.map_eq_of_mapM_eq_ok (fun attempt hattempt view hview =>
      Attempt.toDict_instants (haware.attempt attempt hattempt)
        (Except.mapError_eq_ok_iff.1 hview)) hattempts
  have hfound : job.findings.values.map Finding.instants = findings :=
    Except.map_eq_of_mapM_eq_ok (fun finding hfinding stored hstored =>
      hcolumns.storeFinding (haware.finding finding hfinding) hstored) hfindings
  obtain rfl := hcolumns.store hdata hstored
  subst hviews hfound
  split at h
  · cases h
    simp only [Projection.written, Projection.visibilityRow, Projection.attemptRows,
      Projection.decisionRows, Projection.findingRows, JobVisibility.instants,
      Dict.values_mapValues, List.map_map]
    rfl
  · cases h

/-! ### What is read -/

theorem VisibilityEngine.Holding.showsAware (h : engine.Holding (·.isAware = true)) :
    engine.ShowsAware := fun job hjob => (h _ job (Table.find?_of_mem hjob)).displayed

/-- **A job that is read is read as its instants are.** -/
theorem rebuild_instants {written : Written jobId} (hcolumns : columns.StoresInstants)
    (hrows : ∀ row ∈ rows, Decoded (·.isAware = true) decode decode' row)
    (h : rebuild runtime decode columns jobId rows = .ok written) :
    ∃ projection, ScheduledJobs.rebuild decode' jobId rows = .ok projection ∧
      projection.written jobId = written := by
  obtain ⟨engine, hreplay, h⟩ := Except.bind_eq_ok_iff.1 h
  obtain ⟨job, hsnapshot, h⟩ := Except.bind_eq_ok_iff.1 h
  rw [Except.mapError_eq_ok_iff] at hsnapshot
  obtain ⟨hinstants, hholding⟩ := replay_instants hrows (VisibilityEngine.holding_new {}) hreplay
  have hfind : engine.jobs.find? jobId = some job := by
    unfold VisibilityEngine.snapshot at hsnapshot
    split at hsnapshot
    · next hjob =>
        cases hsnapshot
        exact hjob
    · cases hsnapshot
  have haware := hholding jobId job hfind
  cases htime : job.dataAsOf with
  | none =>
      rw [htime] at h
      cases h
  | some dataAsOf =>
      rw [htime] at h
      obtain ⟨response, hget, hwritten⟩ := Except.bind_eq_ok_iff.1 h
      rw [Except.mapError_eq_ok_iff] at hget
      have hresponse := VisibilityEngine.get_instants hholding.showsAware hget
      refine ⟨⟨job.instants, response, dataAsOf.instant⟩, ?_,
        written_instants hcolumns haware (haware.dataAsOf dataAsOf htime) hwritten⟩
      refine Except.bind_eq_ok_iff.2 ⟨engine.instants, hinstants, ?_⟩
      have hfound : engine.instants.jobs.find? jobId = some job.instants := by
        rw [VisibilityEngine.find?_instants, hfind]
        rfl
      refine Except.bind_eq_ok_iff.2 ⟨job.instants, Except.mapError_eq_ok_iff.2
        (ScheduledJobs.VisibilityEngine.snapshot_eq_ok_iff.2 hfound), ?_⟩
      have htime' : job.instants.dataAsOf = some dataAsOf.instant :=
        congrArg (Option.map Timestamp.instant) htime
      simp only [htime']
      exact Except.bind_eq_ok_iff.2 ⟨response, Except.mapError_eq_ok_iff.2 hresponse, rfl⟩

/-- Replaying keeps the configuration. -/
theorem config_replay (h : rows.foldlM (replayRow decode) engine = .ok after) :
    after.config = engine.config := by
  induction rows generalizing engine with
  | nil =>
      cases h
      rfl
  | cons row rows ih =>
      obtain ⟨next, hnext, hrest⟩ := Except.bind_eq_ok_iff.1 h
      obtain ⟨event, decision, -, happly⟩ := replayRow_eq_ok_iff.1 hnext
      refine (ih hrest).trans ?_
      rcases engine.apply_cases event none with
        ⟨-, hcase⟩ | ⟨-, -, e, hcase⟩ | ⟨-, -, ⟨e, -, hcase⟩ | ⟨result, -, hcase⟩⟩
      all_goals
        rw [hcase] at happly
        cases happly
        try rfl

/-- The columns take what is in UTC. -/
def Columns.TakesUtc (columns : Columns) : Prop :=
  ∀ t : Timestamp, t.IsUtc → (columns.timestamptz t).isSome

theorem Columns.TakesUtc.store (h : columns.TakesUtc) {t : Timestamp} (ht : t.IsUtc) :
    (columns.store t).Returns := by
  obtain ⟨instant, hinstant⟩ := Option.isSome_iff_exists.1 (h t ht)
  exact ⟨instant, by rw [Columns.store, hinstant]⟩

theorem Timestamp.IsUtc.hasUtc {t : Timestamp} (h : t.IsUtc) : t.HasUtc runtime := by
  have hrange : Datetime.InRange t.instant := h.instant_eq ▸ t.wall_inRange
  unfold Timestamp.HasUtc
  rw [h]
  exact hrange

theorem Timestamp.IsUtc.reaches {t : Timestamp} (h : t.IsUtc) {n : ℤ} (hn : IsTimedelta n)
    (hrange : Datetime.InRange (t.instant + seconds n)) : t.Reaches n :=
  ⟨hn, h.instant_eq ▸ hrange⟩

theorem returns_iso_of_utc {value : Option Timestamp} (h : ∀ t ∈ value, t.IsUtc) :
    ∃ text, iso runtime value = .ok text :=
  (returns_iso_iff runtime).2 fun t ht => Timestamp.returns_astimezone_iff.2 (h t ht).hasUtc

theorem Attempt.returns_toDict {attempt : Attempt} (h : attempt.Holding Timestamp.IsUtc) :
    (attempt.toDict runtime).Returns := by
  obtain ⟨retrievedAt, hretrieved⟩ := @returns_iso_of_utc runtime _ h.retrievedAt
  obtain ⟨startedAt, hstarted⟩ := @returns_iso_of_utc runtime _ h.startedAt
  obtain ⟨completedAt, hcompleted⟩ := @returns_iso_of_utc runtime _ h.completedAt
  exact Except.returns_bind_iff.2 ⟨retrievedAt, hretrieved, Except.returns_bind_iff.2
    ⟨startedAt, hstarted, Except.returns_bind_iff.2 ⟨completedAt, hcompleted,
      Except.returns_pure _⟩⟩⟩

theorem Columns.TakesUtc.storeFinding (h : columns.TakesUtc) {finding : Finding}
    (hfinding : finding.Holding Timestamp.IsUtc) : (columns.storeFinding finding).Returns := by
  obtain ⟨first, hfirst⟩ := h.store hfinding.firstObservedAt
  obtain ⟨resolved, hresolved⟩ : (finding.resolvedAt.mapM columns.store).Returns := by
    cases hvalue : finding.resolvedAt with
    | none => exact ⟨none, rfl⟩
    | some t =>
        obtain ⟨instant, hinstant⟩ := h.store (hfinding.resolvedAt t hvalue)
        exact ⟨some instant, by simp only [Option.mapM_some, hinstant]; rfl⟩
  exact Except.returns_bind_iff.2 ⟨first, hfirst, Except.returns_bind_iff.2
    ⟨resolved, hresolved, Except.returns_pure _⟩⟩

/-- **What the columns take is written.** -/
theorem returns_written {job : JobVisibility} {response : JobResponse} {dataAsOf : Timestamp}
    (hutc : columns.TakesUtc) (hjob : job.Holding Timestamp.IsUtc) (hdata : dataAsOf.IsUtc)
    (htexts : ∀ text ∈ jobId :: job.instants.texts, columns.text text = true)
    (hversion : job.version ≤ maxInteger) :
    (job.written runtime columns jobId response dataAsOf).Returns := by
  have hattempts : ∀ attempt ∈ job.attempts.values,
      ((attempt.toDict runtime).mapError ProjectionError.raised).Returns := by
    intro attempt hattempt
    obtain ⟨view, hview⟩ := @Attempt.returns_toDict runtime _ (hjob.attempt attempt hattempt)
    exact ⟨view, Except.mapError_eq_ok_iff.2 hview⟩
  have hfindings : ∀ finding ∈ job.findings.values, (columns.storeFinding finding).Returns :=
    fun finding hfinding => hutc.storeFinding (hjob.finding finding hfinding)
  obtain ⟨storedAsOf, hstored⟩ := hutc.store hdata
  obtain ⟨views, hviews⟩ := Except.returns_mapM_iff.2 hattempts
  obtain ⟨stored, hfound⟩ := Except.returns_mapM_iff.2 hfindings
  rw [JobVisibility.written, hstored, Except.ok_bind, hviews, Except.ok_bind, hfound,
    Except.ok_bind, if_pos ⟨htexts, hversion⟩]
  exact Except.returns_pure _

/-- **A job in UTC is read when its instants are**, if its thresholds are in the calendar and the
columns take its values. -/
theorem rebuild_of_instants {projection : Projection} (hcolumns : columns.StoresInstants)
    (hutc : columns.TakesUtc)
    (hrows : ∀ row ∈ rows, ∃ event, decode row.canonicalPayload = .ok event ∧
      event.Holding Timestamp.IsUtc ∧ decode' row.canonicalPayload = .ok event.instants)
    (h : ScheduledJobs.rebuild decode' jobId rows = .ok projection)
    (hroom : ∀ t ∈ projection.snapshot.scheduledAt, Datetime.HasRoom {} t)
    (htexts : ∀ text ∈ jobId :: projection.snapshot.texts, columns.text text = true)
    (hversion : projection.snapshot.version ≤ maxInteger) :
    rebuild runtime decode columns jobId rows = .ok (projection.written jobId) := by
  have hdecoded : ∀ row ∈ rows, Decoded Timestamp.IsUtc decode decode' row := by
    intro row hrow event hevent
    obtain ⟨other, hother, hdecodes⟩ := hrows row hrow
    obtain rfl := Except.ok.inj (hother.symm.trans hevent)
    exact hdecodes
  have haware : ∀ row ∈ rows, Decoded (·.isAware = true) decode decode' row :=
    fun row hrow event hevent => (hdecoded row hrow event hevent).imp_left
      fun hholding => hholding.imp fun _ => Timestamp.IsUtc.isAware
  -- the rows are replayed, and the instants with them
  have hevents : ∀ row ∈ rows, ∃ event, decode row.canonicalPayload = .ok event ∧
      event.Holding (·.isAware = true) := by
    intro row hrow
    obtain ⟨event, hevent, -⟩ := hrows row hrow
    exact ⟨event, hevent, (haware row hrow event hevent).1⟩
  obtain ⟨after, hreplay, -⟩ := exists_replay hevents (VisibilityEngine.coherent_new {})
    (VisibilityEngine.holding_new {})
  obtain ⟨hinstants, hholding⟩ :=
    replay_instants hdecoded (VisibilityEngine.holding_new {}) hreplay
  obtain ⟨engine, hreplay', hfind, htime, -⟩ := replay_of_rebuild h
  obtain rfl : after.instants = engine := Except.ok.inj (hinstants.symm.trans hreplay')
  rw [VisibilityEngine.find?_instants] at hfind
  obtain ⟨job, hjob, hsnapshot⟩ := Option.map_eq_some_iff.1 hfind
  have hutcJob := hholding jobId job hjob
  rw [← hsnapshot] at htime hroom htexts hversion
  obtain ⟨dataAsOf, hdata, hinstant⟩ := Option.map_eq_some_iff.1 htime
  have hdataUtc := hutcJob.dataAsOf dataAsOf hdata
  -- the response is given
  have hreaches : ∀ t ∈ job.scheduledAt,
      t.Reaches after.config.gracePeriodSeconds ∧ t.Reaches after.config.pollIntervalSeconds := by
    intro t ht
    have hthresholds := hroom t.instant (Option.mem_map_of_mem _ ht)
    rw [config_replay hreplay]
    exact ⟨(hutcJob.scheduledAt t ht).reaches (by decide) hthresholds.gracePeriod,
      (hutcJob.scheduledAt t ht).reaches (by decide) hthresholds.pollInterval⟩
  have hawareJob := hutcJob.imp fun _ => Timestamp.IsUtc.isAware
  obtain ⟨response, hresponse⟩ := @returns_response_of_aware runtime after.config job dataAsOf
    hdataUtc.isAware hawareJob.lastEventTime hawareJob.dataAsOf hawareJob.scheduledAt
    hawareJob.schedulerRetrievedAt hawareJob.startedAt
    (fun value hvalue t ht => (hutcJob.displayed value hvalue t ht).hasUtc)
    (fun _ t ht => (hreaches t ht).1) (fun _ _ _ t ht => (hreaches t ht).2)
    (by rw [config_replay hreplay]; decide)
  obtain ⟨written, hwritten⟩ := @returns_written runtime columns jobId job response dataAsOf hutc
    hutcJob hdataUtc htexts hversion
  have hread : rebuild runtime decode columns jobId rows = .ok written := by
    have hget : after.get runtime jobId dataAsOf = .ok response := by
      rw [VisibilityEngine.get, hjob]
      exact hresponse
    refine Except.bind_eq_ok_iff.2 ⟨after, hreplay, ?_⟩
    rw [VisibilityEngine.snapshot, hjob]
    simp only [Except.mapError, Except.ok_bind, hdata, hget]
    exact hwritten
  obtain ⟨other, hother, hsame⟩ := rebuild_instants hcolumns haware hread
  obtain rfl := Except.ok.inj (h.symm.trans hother)
  rw [hread, hsame]

end Mixed

end ScheduledJobs
