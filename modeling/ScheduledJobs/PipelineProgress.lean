/-
**The pipeline can always be drained.**

From whatever state the components have come to, with publishers and workers in the midst of
anything, it takes no call of the scheduler to publish every event, to bring it into the journal and
to project it.  Nothing is stuck: no lease that outlives its publisher, no message the sink is
refused, no row that cannot be projected.  And then the journal has every event that was committed.

The broker has to have coordinates left, and a publisher has to lease a row at least.

Main definitions:

* `Pipeline.NoStaleCommit` — no projector overwrites what it has not seen;
* `Pipeline.Recovers` — what is done to drain the pipeline;
* `Pipeline.World.Drained` — everything is published, consumed and projected.

Main results:

* `Pipeline.leads_drained` — **the pipeline can be drained**, without a stale commit;
* `Pipeline.leads_readsInstants` — and the projectors read on the way what the program reads;
* `Pipeline.perm_of_consumed` — **once everything is published and consumed, nothing is missing**.
-/

import ScheduledJobs.PipelineRows
import ScheduledJobs.SoleProjector
import ScheduledJobs.SolePublisher

set_option relaxedAutoImplicit false
set_option autoImplicit false

namespace ScheduledJobs

namespace Pipeline

open Json

variable {Payload : Type} [DecidableEq Payload] {service : SchedulerService}
  {publishers : ℕ → OutboxPublisher} {batchSize : ℕ} {w w' : World Payload}

/-! ### What is done, and what it is for -/

/-- Steps of publishers that are not failed by anything, of the sink, and of the projectors with
their batch size.  What was going on before may be given up. -/
def Label.Recovers (batchSize : ℕ) : Label Payload → Prop
  | .schedule .. => False
  | .publish (.lease ..) => True
  | .publish (.acknowledge ..) => True
  | .publish (.published _ _ error) => error = none
  | .publish (.finish _) => True
  | .publish (.crash _) => True
  | .publish _ => False
  | .consume .. => True
  | .project (.claim _ limit) => limit = batchSize
  | .project _ => True

/-- No commit of a projector is stale. -/
def NoStaleCommit (w : World Payload) : Label Payload → Prop
  | .project step => Projectors.NoStaleCommit w.projectors step
  | _ => True

/-- **What drains the pipeline**: such steps, without a stale commit. -/
def Recovers (batchSize : ℕ) (w : World Payload) (l : Label Payload) : Prop :=
  l.Recovers batchSize ∧ NoStaleCommit w l

/-- **Everything is published, consumed and projected**, and nobody is at work. -/
structure World.Drained (w : World Payload) : Prop where
  published : ∀ entry ∈ w.outbox.outbox.rows, entry.publishedAt ≠ none
  consumed : ∀ message ∈ w.outbox.acknowledged, message ∈ w.consumed
  pending : w.projectors.db.pending = []
  runs : w.outbox.runs.rows = []
  txns : w.projectors.txns.rows = []

/-- There are coordinates left for what is not published. -/
def World.Room (w : World Payload) : Prop :=
  w.outbox.acknowledged.length + w.outbox.unpublished.length ≤ 2 ^ 63

/-- The state is one on the way from another, with nothing projected yet. -/
structure World.Onward (service : SchedulerService) (publishers : ℕ → OutboxPublisher)
    (w start : World Payload) : Prop where
  reachable : (machine service publishers).Reachable w
  scheduler : w.scheduler = start.scheduler
  tables : w.projectors.db.tables = start.projectors.db.tables
  room : w.Room

/-! ### Steps of the components -/

variable (service publishers batchSize) in
/-- A step of a publisher. -/
theorem leads_publish (step : Outbox.Label) {outbox : Outbox.World}
    (hrecovers : (Label.publish step : Label Payload).Recovers batchSize)
    (hplaced : Placed w.outbox step) (hn : w.outbox.next publishers step = some outbox) :
    (machine service publishers).Leads (Recovers batchSize) w
      { w with outbox := outbox } := by
  refine Machine.Leads.step (M := machine service publishers) ⟨hrecovers, trivial⟩ ?_
  change w.next service publishers (.publish step) = _
  simp only [World.next, if_pos hplaced, hn, Option.map_some]

/-- What the projectors do. -/
theorem leads_project {projectors : Projectors.World Object}
    (h : (Projectors.machine eventFromRow).Leads (Projectors.Proceeds 0 batchSize) w.projectors
      projectors) :
    (machine service publishers).Leads (Recovers batchSize) w
      { w with projectors := projectors } := by
  induction h with
  | refl => exact Machine.Leads.refl
  | @next before after l _ hproceeds hnext ih =>
      have hprojects : Projects l := by
        cases l with
        | arrive row => exact hproceeds.1
        | _ => trivial
      have hstep : World.next service publishers { w with projectors := before } (.project l) =
          some { w with projectors := after } := by
        have hn : before.next eventFromRow l = some after := hnext
        simp only [World.next, if_pos hprojects, hn, Option.map_some]
      have hrecovers : (Label.project l : Label Payload).Recovers batchSize := by
        cases l with
        | claim other limit => exact hproceeds.1.2
        | _ => trivial
      exact ih.next ⟨hrecovers, hproceeds.2⟩ hstep

/-! ### Nobody at work -/

variable (batchSize) in
/-- The publishers give up what they are at. -/
theorem leads_no_runs {start : World Payload} (h : w.Onward service publishers start) :
    ∃ w', (machine service publishers).Leads (Recovers batchSize) w w' ∧
      w'.Onward service publishers start ∧ w'.outbox.runs.rows = [] := by
  refine Machine.Leads.of_decreasing (fun w : World Payload => w.outbox.runs.rows.length)
    (I := fun w => w.Onward service publishers start) (fun w h hruns => ?_) h
  obtain ⟨run, hrun⟩ := List.exists_mem_of_ne_nil _ hruns
  obtain ⟨outbox, hn, hless, houtbox, hack⟩ := Outbox.World.exists_crash publishers hrun
  have hleads := leads_publish service publishers batchSize (.crash run.publisher) trivial trivial
    hn
  refine ⟨_, hleads, ⟨hleads.reachable h.reachable, h.scheduler, h.tables, ?_⟩, hless⟩
  have hroom := h.room
  simp only [World.Room, Outbox.World.unpublished, houtbox, hack] at hroom ⊢
  exact hroom

variable (batchSize) in
/-- The projectors give up what they are at. -/
theorem leads_no_txns {start : World Payload} (h : w.Onward service publishers start) :
    ∃ w', (machine service publishers).Leads (Recovers batchSize) w w' ∧
      (w'.Onward service publishers start ∧ w'.outbox = w.outbox ∧ w'.consumed = w.consumed) ∧
      w'.projectors.txns.rows = [] := by
  refine Machine.Leads.of_decreasing (fun w : World Payload => w.projectors.txns.rows.length)
    (I := fun w' => w'.Onward service publishers start ∧ w'.outbox = w.outbox ∧
      w'.consumed = w.consumed) (fun now ⟨h, hsame⟩ htxns => ?_) ⟨h, rfl, rfl⟩
  obtain ⟨txn, htxn⟩ := List.exists_mem_of_ne_nil _ htxns
  have hstep : now.next service publishers (.project (.abort txn.worker)) =
      some { now with projectors := now.projectors.close txn.worker } := by
    have hfind : now.projectors.txns.find? txn.worker = some txn := Table.find?_of_mem htxn
    have hprojects : Projects (.abort txn.worker) := trivial
    simp only [World.next, if_pos hprojects, Projectors.World.next, hfind, Option.map_some]
  have hleads := Machine.Leads.step (M := machine service publishers)
    (P := Recovers batchSize) (a := .project (.abort txn.worker)) ⟨trivial, trivial⟩ hstep
  refine ⟨_, hleads, ⟨⟨hleads.reachable h.reachable, h.scheduler, h.tables, h.room⟩, hsame⟩, ?_⟩
  refine List.length_filter_lt_length_iff_exists.2 ⟨txn, htxn, ?_⟩
  simp

/-! ### Publishing -/

/-- The broker has coordinates that fit and are new. -/
theorem exists_coordinate (acknowledged : List Outbox.Message)
    (h : acknowledged.length < 2 ^ 63) :
    ∃ coordinate : Outbox.BrokerCoordinate,
      (∀ message ∈ acknowledged, message.coordinate ≠ coordinate) ∧
        coordinate.partition ≤ maxInteger ∧ coordinate.offset < 2 ^ 63 := by
  have hfresh : ∀ bound, acknowledged.length < bound →
      ∃ offset < bound, offset ∉ acknowledged.map fun message => message.coordinate.offset := by
    intro bound hbound
    by_contra hnone
    push Not at hnone
    have hsub : Finset.range bound ⊆
        (acknowledged.map fun message => message.coordinate.offset).toFinset := by
      intro offset hoffset
      exact List.mem_toFinset.2 (hnone offset (Finset.mem_range.1 hoffset))
    have hcard := (Finset.card_le_card hsub).trans (List.toFinset_card_le _)
    rw [Finset.card_range, List.length_map] at hcard
    omega
  obtain ⟨offset, hoffset, hnew⟩ := hfresh _ h
  refine ⟨⟨0, offset⟩, fun message hmessage heq => hnew ?_, Nat.zero_le _, hoffset⟩
  exact List.mem_map.2 ⟨message, hmessage, by rw [heq]⟩

/-- A time at which whatever is not published can be leased. -/
theorem exists_due (entries : List Outbox.Entry) :
    ∃ now : Datetime, ∀ entry ∈ entries, entry.publishedAt = none → entry.Due now := by
  induction entries with
  | nil => exact ⟨0, fun _ hentry => nomatch hentry⟩
  | cons entry entries ih =>
      obtain ⟨now, hnow⟩ := ih
      let last := entry.leaseExpiresAt.getD 0
      refine ⟨max now (max entry.nextAttemptAt (last + 1)), List.forall_mem_cons.2 ⟨?_, ?_⟩⟩
      · refine fun hpublished => ⟨hpublished, le_max_of_le_right (le_max_left _ _), fun t ht => ?_⟩
        have hlast : last = t := by
          rw [show last = entry.leaseExpiresAt.getD 0 from rfl, Option.mem_def.1 ht]
          rfl
        exact lt_max_of_lt_right (lt_max_of_lt_right (hlast ▸ Int.lt_add_one_of_le le_rfl))
      · intro other hother hpublished
        obtain ⟨-, hnext, hexpires⟩ := hnow other hother hpublished
        exact ⟨hpublished, le_max_of_le_left hnext, fun t ht => lt_max_of_lt_left (hexpires t ht)⟩

/-- A batch is published, record by record. -/
theorem leads_batch {start : World Payload} {publisher : ℕ} {records : List Outbox.OutboxRecord}
    (h : w.Onward service publishers start) (hholding : w.outbox.Holding publisher records) :
    ∃ w', (machine service publishers).Leads (Recovers batchSize) w w' ∧
      w'.Onward service publishers start ∧ w'.outbox.runs.rows = [] ∧
      w'.outbox.unpublished.length + records.length ≤ w.outbox.unpublished.length := by
  induction records generalizing w with
  | nil =>
      obtain ⟨outbox, hn, hruns, houtbox, hack⟩ := hholding.finish publishers
      have hleads := leads_publish service publishers batchSize (.finish publisher) trivial trivial
        hn
      have hsame : outbox.unpublished = w.outbox.unpublished := by
        rw [Outbox.World.unpublished, houtbox]
        rfl
      refine ⟨_, hleads, ⟨hleads.reachable h.reachable, h.scheduler, h.tables, ?_⟩, hruns, ?_⟩
      · have hroom := h.room
        simp only [World.Room, hsame, hack] at hroom ⊢
        exact hroom
      · simp only [hsame, List.length_nil, Nat.add_zero, le_refl]
  | cons record records ih =>
      have hroom := h.room
      unfold World.Room at hroom
      have hsome : 0 < w.outbox.unpublished.length := by
        obtain ⟨entry, hentry, -⟩ := hholding.held record (List.mem_cons_self ..)
        exact List.length_pos_of_mem hentry
      obtain ⟨coordinate, hplaced⟩ := exists_coordinate w.outbox.acknowledged (by omega)
      obtain ⟨first, hfirst, second, hsecond, hrest, hless, hack, -⟩ :=
        hholding.publish publishers coordinate 0
      have hleads := (leads_publish service publishers batchSize
        (.acknowledge publisher coordinate) trivial hplaced hfirst).trans
          (leads_publish (w := { w with outbox := first }) service publishers batchSize
            (.published publisher 0 none) rfl trivial hsecond)
      obtain ⟨w', hleads', honward, hruns, hcount⟩ := ih
        (w := { w with outbox := second })
        ⟨hleads.reachable h.reachable, h.scheduler, h.tables,
          by unfold World.Room; dsimp only; omega⟩ hrest
      refine ⟨w', hleads.trans hleads', honward, hruns, ?_⟩
      dsimp only at hcount
      rw [List.length_cons]
      omega

variable (batchSize) in
/-- **Every row is published.** -/
theorem leads_published {start : World Payload} (hbatch : ∀ n, 0 < (publishers n).batchSize)
    (h : w.Onward service publishers start) (hruns : w.outbox.runs.rows = []) :
    ∃ w', (machine service publishers).Leads (Recovers batchSize) w w' ∧
      (w'.Onward service publishers start ∧ w'.outbox.runs.rows = []) ∧
      w'.outbox.unpublished = [] := by
  refine Machine.Leads.of_decreasing (fun w : World Payload => w.outbox.unpublished.length)
    (I := fun w => w.Onward service publishers start ∧ w.outbox.runs.rows = [])
    (fun w ⟨h, hruns⟩ hsome => ?_) ⟨h, hruns⟩
  obtain ⟨publisher, hstopping⟩ := Infinite.exists_notMem_finset w.outbox.stopping.toFinset
  rw [List.mem_toFinset] at hstopping
  obtain ⟨now, hdue⟩ := exists_due w.outbox.outbox.rows
  obtain ⟨outbox, hn, hholding, hcount, hack, -⟩ := Outbox.World.exists_lease publishers hruns
    hstopping ⟨now, now, now, le_rfl, le_rfl⟩
  have hleads := leads_publish service publishers batchSize
    (.lease publisher ⟨now, now, now, le_rfl, le_rfl⟩ []) trivial trivial hn
  have honward : World.Onward service publishers { w with outbox := outbox } start := by
    refine ⟨hleads.reachable h.reachable, h.scheduler, h.tables, ?_⟩
    have hroom := h.room
    simp only [World.Room, hcount, hack] at hroom ⊢
    exact hroom
  obtain ⟨w', hleads', honward', hruns', hless⟩ := leads_batch honward hholding
  refine ⟨w', hleads.trans hleads', ⟨honward', hruns'⟩, ?_⟩
  -- the batch is not empty
  obtain ⟨entry, hentry⟩ := List.exists_mem_of_ne_nil _ hsome
  obtain ⟨hmem, hpublished⟩ := Outbox.mem_unpublished.1 hentry
  have hpos := hbatch publisher
  have hlength : 0 < ((publishers publisher).batch w.outbox.outbox
      ⟨now, now, now, le_rfl, le_rfl⟩ []).length := by
    have hmemDue := List.length_pos_of_mem (Outbox.mem_dueEntries.2
      ⟨hmem, hdue entry hmem hpublished, List.not_mem_nil⟩)
    rw [OutboxPublisher.batch, List.length_take]
    exact lt_min hpos hmemDue
  rw [List.length_map] at hless
  dsimp only at hless
  omega

/-! ### Consuming -/

variable (batchSize) in
/-- **Every message is consumed.** -/
theorem leads_consumed {start : World Payload} {messages : List Outbox.Message}
    (h : w.Onward service publishers start)
    (hmessages : ∀ message ∈ messages, message ∈ w.outbox.acknowledged) :
    ∃ w', (machine service publishers).Leads (Recovers batchSize) w w' ∧
      w'.Onward service publishers start ∧ w'.outbox = w.outbox ∧
      (∀ message ∈ w.consumed, message ∈ w'.consumed) ∧
      ∀ message ∈ messages, message ∈ w'.consumed := by
  induction messages generalizing w with
  | nil => exact ⟨w, Machine.Leads.refl, h, rfl, fun _ hold => hold, fun _ hnone => nomatch hnone⟩
  | cons message messages ih =>
      rw [List.forall_mem_cons] at hmessages
      obtain ⟨journal, hnext⟩ := exists_consume h.reachable hmessages.1 0
      have hleads : (machine service publishers).Leads (Recovers batchSize) w
          { w.store journal with consumed := w.consumed ++ [message] } :=
        Machine.Leads.step (M := machine service publishers) (a := .consume message 0)
          ⟨trivial, trivial⟩ hnext
      have honward : World.Onward service publishers
          { w.store journal with consumed := w.consumed ++ [message] } start :=
        ⟨hleads.reachable h.reachable, h.scheduler, h.tables, h.room⟩
      obtain ⟨w', hleads', honward', hsame, hkept, hall⟩ := ih honward hmessages.2
      refine ⟨w', hleads.trans hleads', honward', hsame, fun other hother => ?_,
        List.forall_mem_cons.2 ⟨?_, hall⟩⟩
      · exact hkept other (List.mem_append_left _ hother)
      · exact hkept message (List.mem_append_right _ (List.mem_singleton_self _))

/-! ### Projecting -/

/-- **Every row is projected**, once no projector is at work: the job of a row that was pending is
shown as the projection of all its rows. -/
theorem leads_projected (hbatch : 0 < batchSize) (h : (machine service publishers).Reachable w)
    (htxns : w.projectors.txns.rows = []) :
    ∃ db, (machine service publishers).Leads (Recovers batchSize) w
        { w with projectors := { db := db } } ∧
      db.pending = [] ∧ db.edrEvents = w.projectors.db.edrEvents ∧
      ∀ row ∈ w.projectors.db.pending,
        db.Reflects eventFromRow row.jobId (db.rowsOf row.jobId) := by
  have hclosed : w.projectors = { db := w.projectors.db } :=
    congrArg (Projectors.World.mk w.projectors.db) (Table.ext htxns)
  let db := w.projectors.db
  have hleads := Projectors.leads_afterRuns eventFromRow 0 batchSize db db.pending.length
  -- no row stops the work
  have hgood : Batches.firstBad (fun row => db.Rebuilds eventFromRow row.jobId) db.pending =
      db.pending.length := by
    refine List.findIdx_eq_length.2 fun row hrow => decide_eq_false (not_not_intro ?_)
    exact rebuilds h ⟨row, (EdrDb.mem_pending.1 hrow).1, rfl⟩
  have hreached : db.reached eventFromRow batchSize = db.pending.length := by
    rw [EdrDb.reached, Batches.reached, if_pos hgood, if_neg hbatch.ne']
  have hfar : db.reached eventFromRow batchSize ≤ batchSize * db.pending.length :=
    Batches.reached_le_of_batches le_rfl
  have hpending := @EdrDb.pending_afterRuns _ eventFromRow batchSize db.pending.length db
  rw [Nat.min_eq_right hfar, hreached, List.drop_length] at hpending
  obtain ⟨hevents, -, hreflects⟩ :=
    @EdrDb.afterRuns_spec _ eventFromRow batchSize db.pending.length db
  refine ⟨_, leads_project (hclosed ▸ hleads), hpending, hevents, fun row hrow => ?_⟩
  rw [EdrDb.rowsOf_congr hevents]
  refine hreflects row hrow ?_
  rw [hpending]
  exact List.not_mem_nil

/-! ### Draining -/

/-- **The pipeline can be drained**, whatever state it has come to.  A job with an event that was
not projected before is shown as the projection of all its rows then. -/
theorem leads_drained (h : (machine service publishers).Reachable w)
    (hpublishers : ∀ n, 0 < (publishers n).batchSize) (hprojectors : 0 < batchSize)
    (hroom : w.Room) :
    ∃ w', (machine service publishers).Leads (Recovers batchSize) w w' ∧
      w'.scheduler = w.scheduler ∧ w'.Drained ∧
      ∀ row ∈ w'.projectors.db.edrEvents.rows, ¬ w.projectors.db.Marked row →
        w'.projectors.db.Reflects eventFromRow row.jobId (w'.projectors.db.rowsOf row.jobId) := by
  have hstart : w.Onward service publishers w := ⟨h, rfl, rfl, hroom⟩
  obtain ⟨idle, hidle, hidleOnward, hruns⟩ := leads_no_runs batchSize hstart
  obtain ⟨sent, hsent, ⟨hsentOnward, hsentRuns⟩, hpublished⟩ :=
    leads_published batchSize hpublishers hidleOnward hruns
  obtain ⟨read, hread, hreadOnward, hreadOutbox, -, hconsumed⟩ :=
    leads_consumed batchSize hsentOnward fun _ hmessage => hmessage
  obtain ⟨free, hfree, ⟨hfreeOnward, hfreeOutbox, hfreeConsumed⟩, htxns⟩ :=
    leads_no_txns batchSize hreadOnward
  obtain ⟨db, hdb, hpending, hevents, hreflects⟩ :=
    leads_projected hprojectors hfreeOnward.reachable htxns
  have hsame : free.outbox = sent.outbox := hfreeOutbox.trans hreadOutbox
  refine ⟨_, hidle.trans (hsent.trans (hread.trans (hfree.trans hdb))), hfreeOnward.scheduler,
    ⟨fun entry hentry hnone => ?_, fun message hmessage => ?_, hpending, ?_, rfl⟩,
    fun row hrow hmarked => ?_⟩
  · have hmem := Outbox.mem_unpublished.2 ⟨hsame ▸ hentry, hnone⟩
    rw [hpublished] at hmem
    cases hmem
  · exact hfreeConsumed ▸ hconsumed message (hsame ▸ hmessage)
  · exact hsame ▸ hsentRuns
  · refine hreflects row (EdrDb.mem_pending.2 ⟨hevents ▸ hrow, ?_⟩)
    unfold EdrDb.Marked at hmarked ⊢
    rwa [hfreeOnward.tables]

/-- What drains the pipeline is no step of the scheduler. -/
theorem scheduler_of_leads (h : (machine service publishers).Reachable w)
    (hleads : (machine service publishers).Leads (Recovers batchSize) w w') :
    w'.scheduler = w.scheduler := by
  refine hleads.invariant (I := fun w' => w'.scheduler = w.scheduler) h rfl
    fun t l u _ hsame hrecovers hn => ?_
  rcases World.next_cases hn with ⟨call, defaults, scheduler, outbox, rfl, -⟩ |
    ⟨step, outbox, -, -, -, rfl⟩ | ⟨message, clock, record, journal, -, -, -, -, rfl⟩ |
    ⟨step, projectors, -, -, -, rfl⟩
  · exact absurd hrecovers.1 id
  · exact hsame
  · exact hsame
  · exact hsame

/-- **On the way, the projectors read timestamps as instants**, if the events leave room in the
calendar and fit the columns. -/
theorem leads_readsInstants (h : (machine service publishers).Reachable w)
    (hleads : (machine service publishers).Leads (Recovers batchSize) w w')
    (runtime : Mixed.Runtime) {columns : Mixed.Columns} (hcolumns : columns.TakesPublished)
    (hreadable : w.Readable columns) :
    (machine service publishers).Leads
      (fun t l => Recovers batchSize t l ∧ t.ReadsInstants runtime columns) w w' := by
  induction hleads with
  | refl => exact Machine.Leads.refl
  | next ht hrecovers hn ih =>
      have hscheduler := scheduler_of_leads h ht
      have hnow : World.Readable columns _ :=
        ⟨hscheduler ▸ hreadable.events, hscheduler ▸ hreadable.count⟩
      exact ih.next ⟨hrecovers, hnow.readsInstants (ht.reachable h) runtime hcolumns⟩ hn

/-- Once the pipeline is drained, all events of a job are in the journal. -/
theorem World.Drained.delivered (h : w.Drained) (hw : (machine service publishers).Reachable w)
    (jobId : String) : ∀ event ∈ eventsOf jobId w.scheduler.db.events,
      event.eventId ∈ w.projectors.db.eventIds := by
  intro event hevent
  obtain ⟨stored, hstored, hid⟩ :=
    exists_row_of_consumed hw h.published h.consumed (List.mem_filter.1 hevent).1
  rw [EdrDb.eventIds, edrEvents_eq hw]
  exact List.mem_map.2 ⟨stored.toEdrRow, List.mem_map_of_mem hstored, hid⟩

/-- **Once everything is published and consumed, nothing is missing**: the journal has every
committed event once. -/
theorem perm_of_consumed (h : (machine service publishers).Reachable w)
    (hpublished : ∀ entry ∈ w.outbox.outbox.rows, entry.publishedAt ≠ none)
    (hconsumed : ∀ message ∈ w.outbox.acknowledged, message ∈ w.consumed) :
    (w.journal.table.rows.map EdrEvent.key).Perm (w.scheduler.db.events.map Event.eventId) := by
  have hnodup : (w.scheduler.db.events.map Event.eventId).Nodup := by
    rw [Db.events, List.map_map]
    exact w.scheduler.db.outbox.nodup
  refine (List.perm_ext_iff_of_nodup w.journal.table.nodup hnodup).2 fun eventId => ?_
  constructor
  · intro hmem
    obtain ⟨row, hrow, rfl⟩ := List.mem_map.1 hmem
    obtain ⟨event, hevent, coordinate, -, hcolumns⟩ := (linked_of_reachable h).journal row hrow
    exact List.mem_map.2 ⟨event, hevent, (congrArg EdrColumns.eventId hcolumns).symm⟩
  · intro hmem
    obtain ⟨event, hevent, rfl⟩ := List.mem_map.1 hmem
    obtain ⟨row, hrow, hid⟩ := exists_row_of_consumed h hpublished hconsumed hevent
    exact List.mem_map.2 ⟨row, hrow, hid⟩

/-- A job has succeeded, a publisher has sent the first event, and nothing is projected. -/
theorem exists_succeeded :
    ∃ (w : World String) (row : JobRow String),
      (machine defaultService fun _ => onePublisher).Reachable w ∧ w.Room ∧
      w.projectors.db.tables.projectedEvents.rows = [] ∧ w.scheduler.db.events.length = 5 ∧
      w.scheduler.db.jobs.find? "job-1" = some row ∧ row.status = .succeeded ∧
      w.Readable Mixed.postgres := by
  have hrun : ((machine defaultService fun _ => onePublisher).run
      (machine defaultService fun _ => onePublisher).start acknowledgedRun).map
        (fun w => (w.outbox.acknowledged.length + w.outbox.unpublished.length,
          w.projectors.db.tables.projectedEvents.rows.length, w.scheduler.db.events.length,
          (w.scheduler.db.jobs.find? "job-1").map JobRow.status,
          decide (∀ event ∈ w.scheduler.db.events, event.Readable Mixed.postgres))) =
      some (6, 0, 5, some .succeeded, true) := by decide +kernel
  obtain ⟨w, hw, hvalues⟩ := Option.map_eq_some_iff.1 hrun
  simp only [Prod.mk.injEq] at hvalues
  obtain ⟨hroom, hprojected, hevents, hstatus, hreadable⟩ := hvalues
  obtain ⟨row, hrow, hsucceeded⟩ := Option.map_eq_some_iff.1 hstatus
  refine ⟨w, row, Machine.Reachable.of_run Machine.Reachable.start acknowledgedRun hw, ?_,
    List.length_eq_zero_iff.1 hprojected, hevents, hrow, hsucceeded, of_decide_eq_true hreadable,
    fun jobId => ?_⟩
  · unfold World.Room
    omega
  · have hsub : (eventsOf jobId w.scheduler.db.events).length ≤ w.scheduler.db.events.length :=
      List.length_filter_le ..
    have hmax : 5 ≤ maxInteger := by decide
    omega

/-- The five events of the job are all in the journal in the end. -/
theorem perm_of_consumed_acknowledgedRun :
    ∃ w : World String, (machine defaultService fun _ => onePublisher).Reachable w ∧
      w.scheduler.db.events.length = 5 ∧
      (w.journal.table.rows.map EdrEvent.key).Perm (w.scheduler.db.events.map Event.eventId) := by
  obtain ⟨start, row, hstart, hroom, -, hevents, -⟩ := exists_succeeded
  obtain ⟨w, hleads, hscheduler, hdrained, -⟩ :=
    leads_drained hstart (fun _ => by decide) (Nat.zero_lt_succ 499) hroom
  have hw := hleads.reachable hstart
  exact ⟨w, hw, by rw [hscheduler, hevents],
    perm_of_consumed hw hdrained.published hdrained.consumed⟩

end Pipeline

end ScheduledJobs
