/-
**Publication from the outbox is safe, and loses nothing.**

The token of a lease is drawn for it and never again, and it leaves the row when the row is
published, is given up or is leased again.  So a publisher that has been overtaken finds its token
on no row, whatever it still writes; and a row that is published carries no token, so nothing is
written to it again.

Main definitions:

* `Outbox.Entry.Becomes` — what may become of a row;
* `Outbox.World.Sound` — **the invariant** of rows and publishers;
* `Outbox.World.PublishesSafely` — what is promised.

Main results:

* `Outbox.World.Sound.becomes` — what one step does to a row;
* `Outbox.World.Sound.next` — what one step preserves;
* `Outbox.publishesSafely` — **whatever the publishers do, publication is safe**.
-/

import ScheduledJobs.OutboxPublisher

set_option relaxedAutoImplicit false
set_option autoImplicit false

namespace ScheduledJobs

namespace Outbox

variable {publishers : ℕ → OutboxPublisher} {w w' : World}

/-! ### What becomes of a row -/

/-- **What may become of a row**, when so many tokens were drawn: its message stays, it does not
change once it is published, and it does not get an old token back. -/
structure Entry.Becomes (draws : ℕ) (entry later : Entry) : Prop where
  eventId : later.eventId = entry.eventId
  topic : later.topic = entry.topic
  messageKey : later.messageKey = entry.messageKey
  canonicalPayload : later.canonicalPayload = entry.canonicalPayload
  published : entry.publishedAt ≠ none → later = entry
  token : ∀ token < draws, later.leaseToken = some token → entry.leaseToken = some token

namespace Entry.Becomes

variable {draws draws' : ℕ} {entry later last : Entry}

theorem refl (draws : ℕ) (entry : Entry) : entry.Becomes draws entry :=
  ⟨rfl, rfl, rfl, rfl, fun _ => rfl, fun _ _ h => h⟩

theorem trans (h : entry.Becomes draws later) (h' : later.Becomes draws' last)
    (hdraws : draws ≤ draws') : entry.Becomes draws last where
  eventId := h'.eventId.trans h.eventId
  topic := h'.topic.trans h.topic
  messageKey := h'.messageKey.trans h.messageKey
  canonicalPayload := h'.canonicalPayload.trans h.canonicalPayload
  published := by
    intro hentry
    have hsame := h.published hentry
    exact (h'.published (by rwa [hsame])).trans hsame
  token := fun token htoken hlast =>
    h.token token htoken (h'.token token (htoken.trans_le hdraws) hlast)

/-- The row of a publisher that still holds its lease gets rid of the token. -/
theorem of_held {record : OutboxRecord} (hheld : entry.Held record)
    (hpublished : entry.publishedAt ≠ none → entry.leaseToken = none)
    (heventId : later.eventId = entry.eventId) (htopic : later.topic = entry.topic)
    (hmessageKey : later.messageKey = entry.messageKey)
    (hpayload : later.canonicalPayload = entry.canonicalPayload)
    (htoken : later.leaseToken = none) : entry.Becomes draws later where
  eventId := heventId
  topic := htopic
  messageKey := hmessageKey
  canonicalPayload := hpayload
  published := fun hentry => by cases hheld.2.symm.trans (hpublished hentry)
  token := fun _ _ hlater => by cases htoken.symm.trans hlater

end Entry.Becomes

/-! ### The invariant -/

/-- A published row carries no token, and its message was acknowledged where it says.  Every token
was drawn. -/
structure Entry.Sound (draws : ℕ) (acknowledged : List Message) (entry : Entry) : Prop where
  released : entry.publishedAt ≠ none → entry.leaseToken = none
  acknowledged : entry.publishedAt ≠ none → ∃ coordinate : BrokerCoordinate,
    entry.kafkaPartition = some coordinate.partition ∧
      entry.kafkaOffset = some coordinate.offset ∧ entry.message coordinate ∈ acknowledged
  drawn : ∀ token ∈ entry.leaseToken, token < draws

/-- The record of a row, leased with a token that was drawn. -/
structure OutboxRecord.Of (draws : ℕ) (outbox : Table Entry.eventId) (record : OutboxRecord) :
    Prop where
  drawn : record.leaseToken < draws
  entry : ∃ entry, outbox.find? record.eventId = some entry ∧
    ∀ coordinate, entry.message coordinate = record.message coordinate

/-- A batch is of different rows, and what is acknowledged is the message of its first record. -/
structure Run.Sound (w : World) (run : Run) : Prop where
  records : ∀ record ∈ run.records, record.Of w.draws w.outbox
  distinct : (run.records.map OutboxRecord.eventId).Nodup
  acknowledged : ∀ coordinate, run.progress = .acknowledged coordinate →
    ∀ record ∈ run.records.head?, record.message coordinate ∈ w.acknowledged

/-- **The invariant** of the rows and the publishers. -/
structure World.Sound (w : World) : Prop where
  entries : ∀ eventId entry, w.outbox.find? eventId = some entry →
    entry.Sound w.draws w.acknowledged
  runs : ∀ run ∈ w.runs.rows, run.Sound w

/-! ### What the statements do to a row -/

section Statements

variable {outbox : Table Entry.eventId} {record : OutboxRecord} {eventId : String}

/-- The statement leaves the rows that carry the token of the record assigned, and no others. -/
structure UpdatesHeld (outbox outbox' : Table Entry.eventId) (record : OutboxRecord)
    (assign : Entry → Entry) : Prop where
  find? : ∀ eventId, outbox'.find? eventId = (outbox.find? eventId).map fun entry =>
    if entry.Held record then assign entry else entry

theorem updatesHeld_published (outbox : Table Entry.eventId) (record : OutboxRecord)
    (coordinate : BrokerCoordinate) (now : Datetime) :
    UpdatesHeld outbox (published outbox record coordinate now) record fun entry =>
      entry.publish coordinate now where
  find? := fun _ => by simp only [published, updateHeld, Table.find?_mapRows]

theorem updatesHeld_failed {publisher : OutboxPublisher} {outbox outbox' : Table Entry.eventId}
    {record : OutboxRecord} {error : String} {drawn : Drawn} {now : Datetime}
    (h : publisher.failed outbox record error drawn now = .ok outbox') :
    ∃ next, UpdatesHeld outbox outbox' record fun entry => entry.fail error next := by
  obtain ⟨next, rfl⟩ := exists_of_failed h
  exact ⟨next, ⟨fun _ => by simp only [updateHeld, Table.find?_mapRows]⟩⟩

namespace UpdatesHeld

variable {outbox' : Table Entry.eventId} {assign : Entry → Entry}

/-- **The fence**: a row that does not carry the token is not touched. -/
theorem find?_of_not (h : UpdatesHeld outbox outbox' record assign)
    (hheld : ∀ entry, outbox.find? eventId = some entry → ¬ entry.Held record) :
    outbox'.find? eventId = outbox.find? eventId := by
  rw [h.find?]
  cases hfind : outbox.find? eventId with
  | none => rfl
  | some entry => rw [Option.map_some, if_neg (hheld entry hfind)]

/-- What becomes of a row. -/
theorem becomes {draws : ℕ} {entry : Entry} (h : UpdatesHeld outbox outbox' record assign)
    (hfind : outbox.find? eventId = some entry)
    (hbecomes : entry.Held record → entry.Becomes draws (assign entry)) :
    ∃ later, outbox'.find? eventId = some later ∧ entry.Becomes draws later := by
  rw [h.find?, hfind, Option.map_some]
  refine ⟨_, rfl, ?_⟩
  split
  · next hheld => exact hbecomes hheld
  · exact .refl _ _

end UpdatesHeld

theorem mem_dueEntries {now : Datetime} {locked : List String} {entry : Entry} :
    entry ∈ dueEntries outbox now locked ↔
      entry ∈ outbox.rows ∧ entry.Due now ∧ entry.eventId ∉ locked := by
  rw [dueEntries, List.mem_insertionSort, List.mem_filter, decide_eq_true_iff]

theorem find?_lease (publisher : OutboxPublisher) (outbox : Table Entry.eventId) (token : ℕ)
    (clock : ClockReads) (locked : List String) (eventId : String) :
    (publisher.lease outbox token clock locked).1.find? eventId =
      (outbox.find? eventId).map fun entry =>
        if entry.eventId ∈ (publisher.batch outbox clock locked).map Entry.eventId then
          publisher.leased token clock.written entry
        else entry := by
  simp only [OutboxPublisher.lease, Table.find?_mapRows]

/-- A row with the id of one that is leased is that one. -/
theorem due_of_leased {publisher : OutboxPublisher} {clock : ClockReads} {locked : List String}
    {entry : Entry} (hentry : entry ∈ outbox.rows)
    (h : entry.eventId ∈ (publisher.batch outbox clock locked).map Entry.eventId) :
    entry.Due clock.checked := by
  obtain ⟨leased, hleased, hid⟩ := List.mem_map.1 h
  obtain ⟨hmem, hdue, -⟩ := mem_dueEntries.1 (List.mem_of_mem_take hleased)
  obtain rfl := Table.eq_of_key_eq hmem hentry hid
  exact hdue

end Statements

/-! ### What one step does -/

/-- **What one step does to a row.** -/
theorem World.Sound.becomes {l : Label} (h : w.Sound) (hn : w.next publishers l = some w')
    {eventId : String} {entry : Entry} (hfind : w.outbox.find? eventId = some entry) :
    ∃ later, w'.outbox.find? eventId = some later ∧ entry.Becomes w.draws later := by
  have hentry := h.entries eventId entry hfind
  rcases World.next_cases hn with ⟨new, outbox, -, -, hinsert, rfl⟩ |
    ⟨publisher, clock, locked, runs, -, -, -, rfl⟩ | ⟨run, record, rest, coordinate, -, -, -, rfl⟩ |
    ⟨run, error, -, -, rfl⟩ | ⟨run, record, rest, coordinate, now, error, -, -, -, -, rfl⟩ |
    ⟨run, record, rest, error, drawn, now, outbox, -, -, -, -, hfailed, rfl⟩ | ⟨publisher, rfl⟩ |
    ⟨publisher, rfl⟩
  · have hne : eventId ≠ new.eventId := by
      rintro rfl
      rw [(Table.insert?_eq_some_iff.1 hinsert).1] at hfind
      cases hfind
    exact ⟨entry, by rw [Table.find?_insert? hinsert, if_neg hne, hfind], .refl _ _⟩
  · -- a row that is leased was not published, and its token is the next one
    dsimp only
    rw [find?_lease, hfind, Option.map_some]
    refine ⟨_, rfl, ?_⟩
    split
    · next hleased =>
        have hdue := due_of_leased (Table.mem_of_find? hfind) hleased
        refine ⟨rfl, rfl, rfl, rfl, fun hpublished => absurd hdue.1 hpublished,
          fun token htoken hlater => ?_⟩
        exact absurd (Option.some_inj.1 hlater).symm htoken.ne
    · exact .refl _ _
  · exact ⟨entry, hfind, .refl _ _⟩
  · exact ⟨entry, hfind, .refl _ _⟩
  · refine (updatesHeld_published ..).becomes hfind fun hheld => ?_
    exact .of_held hheld hentry.released rfl rfl rfl rfl rfl
  · obtain ⟨next, hupdates⟩ := updatesHeld_failed hfailed
    refine hupdates.becomes hfind fun hheld => ?_
    exact .of_held hheld hentry.released rfl rfl rfl rfl rfl
  · exact ⟨entry, hfind, .refl _ _⟩
  · exact ⟨entry, hfind, .refl _ _⟩

/-- Tokens are drawn, and messages acknowledged, for good. -/
theorem World.next_mono {l : Label} (hn : w.next publishers l = some w') :
    w.draws ≤ w'.draws ∧ ∀ message ∈ w.acknowledged, message ∈ w'.acknowledged := by
  rcases World.next_cases hn with ⟨new, outbox, -, -, -, rfl⟩ |
    ⟨publisher, clock, locked, runs, -, -, -, rfl⟩ | ⟨run, record, rest, coordinate, -, -, -, rfl⟩ |
    ⟨run, error, -, -, rfl⟩ | ⟨run, record, rest, coordinate, now, error, -, -, -, -, rfl⟩ |
    ⟨run, record, rest, error, drawn, now, outbox, -, -, -, -, -, rfl⟩ | ⟨publisher, rfl⟩ |
    ⟨publisher, rfl⟩
  · exact ⟨le_rfl, fun _ h => h⟩
  · exact ⟨Nat.le_succ _, fun _ h => h⟩
  · exact ⟨le_rfl, fun _ h => List.mem_append_left _ h⟩
  · exact ⟨le_rfl, fun _ h => h⟩
  · cases error with
    | none => exact ⟨le_rfl, fun _ h => h⟩
    | some error => exact ⟨le_rfl, fun _ h => h⟩
  · exact ⟨le_rfl, fun _ h => h⟩
  · exact ⟨le_rfl, fun _ h => h⟩
  · exact ⟨le_rfl, fun _ h => h⟩

/-! ### What one step preserves -/

theorem Entry.Sound.mono {draws draws' : ℕ} {acknowledged acknowledged' : List Message}
    {entry : Entry} (h : entry.Sound draws acknowledged) (hdraws : draws ≤ draws')
    (hack : ∀ message ∈ acknowledged, message ∈ acknowledged') :
    entry.Sound draws' acknowledged' where
  released := h.released
  acknowledged := by
    intro hpublished
    obtain ⟨coordinate, hpartition, hoffset, hmessage⟩ := h.acknowledged hpublished
    exact ⟨coordinate, hpartition, hoffset, hack _ hmessage⟩
  drawn := fun token htoken => (h.drawn token htoken).trans_le hdraws

namespace Run.Sound

variable {run : Run}

theorem mono (h : run.Sound w) (hdraws : w.draws ≤ w'.draws)
    (hack : ∀ message ∈ w.acknowledged, message ∈ w'.acknowledged)
    (hbecomes : ∀ eventId entry, w.outbox.find? eventId = some entry →
      ∃ later, w'.outbox.find? eventId = some later ∧ entry.Becomes w.draws later) :
    run.Sound w' where
  records := by
    intro record hrecord
    obtain ⟨hdrawn, entry, hfind, hmessage⟩ := h.records record hrecord
    obtain ⟨later, hlater, hsame⟩ := hbecomes _ entry hfind
    refine ⟨hdrawn.trans_le hdraws, later, hlater, fun coordinate => ?_⟩
    rw [← hmessage coordinate, Entry.message, hsame.topic, hsame.messageKey,
      hsame.canonicalPayload]
    rfl
  distinct := h.distinct
  acknowledged := fun coordinate hprogress record hrecord =>
    hack _ (h.acknowledged coordinate hprogress record hrecord)

/-- On to the next record. -/
theorem advance (h : run.Sound w) :
    ({ run with records := run.records.tail, progress := .sending } : Run).Sound w where
  records := fun record hrecord => h.records record (List.mem_of_mem_tail hrecord)
  distinct := h.distinct.sublist ((List.tail_sublist _).map _)
  acknowledged := fun _ hprogress => by cases hprogress

/-- Something was raised. -/
theorem raised (h : run.Sound w) (error : String) :
    ({ run with progress := .raised error } : Run).Sound w where
  records := h.records
  distinct := h.distinct
  acknowledged := fun _ hprogress => by cases hprogress

end Run.Sound

/-- The batch of a lease. -/
theorem sound_of_lease {publisher : ℕ} {clock : ClockReads} {locked : List String}
    (hdraws : w'.draws = w.draws + 1)
    (houtbox : w'.outbox = ((publishers publisher).lease w.outbox w.draws clock locked).1) :
    (⟨publisher, ((publishers publisher).lease w.outbox w.draws clock locked).2, .sending⟩ :
      Run).Sound w' where
  records := by
    intro record hrecord
    obtain ⟨entry, hentry, rfl⟩ := List.mem_map.1 hrecord
    have hmem := (mem_dueEntries.1 (List.mem_of_mem_take hentry)).1
    refine ⟨hdraws ▸ Nat.lt_succ_self _, (publishers publisher).leased w.draws clock.written entry,
      ?_, fun _ => rfl⟩
    have hfind : w.outbox.find? (entry.record w.draws).eventId = some entry :=
      Table.find?_of_mem hmem
    rw [houtbox, find?_lease, hfind, Option.map_some, if_pos (List.mem_map_of_mem hentry)]
  distinct := by
    have hnodup := Table.nodup_selection w.outbox
      (fun entry => entry.Due clock.checked ∧ entry.eventId ∉ locked) Entry.Before
      (publishers publisher).batchSize
    simp only [OutboxPublisher.lease, List.map_map]
    exact hnodup
  acknowledged := fun _ hprogress => by cases hprogress

/-- **What one step preserves.** -/
theorem World.Sound.next {l : Label} (h : w.Sound) (hn : w.next publishers l = some w') :
    w'.Sound := by
  obtain ⟨hdraws, hack⟩ := World.next_mono hn
  have hold : ∀ run ∈ w.runs.rows, run.Sound w' := fun run hrun =>
    (h.runs run hrun).mono hdraws hack fun _ _ hfind => h.becomes hn hfind
  have hentries : ∀ eventId entry, w.outbox.find? eventId = some entry →
      entry.Sound w'.draws w'.acknowledged := fun eventId entry hfind =>
    (h.entries eventId entry hfind).mono hdraws hack
  rcases World.next_cases hn with ⟨new, outbox, hnew, htoken, hinsert, rfl⟩ |
    ⟨publisher, clock, locked, runs, -, -, hinsert, rfl⟩ |
    ⟨run, record, rest, coordinate, -, hrun, hrecords, rfl⟩ | ⟨run, error, -, hrun, rfl⟩ |
    ⟨run, record, rest, coordinate, now, error, -, hrun, hrecords, hprogress, rfl⟩ |
    ⟨run, record, rest, error, drawn, now, outbox, -, hrun, hrecords, -, hfailed, rfl⟩ |
    ⟨publisher, rfl⟩ | ⟨publisher, rfl⟩
  · refine ⟨fun eventId entry hfind => ?_, hold⟩
    rw [Table.find?_insert? hinsert] at hfind
    split at hfind
    · cases hfind
      refine ⟨fun hpublished => absurd hnew hpublished, fun hpublished => absurd hnew hpublished,
        fun token hdrawn => ?_⟩
      rw [htoken] at hdrawn
      cases hdrawn
    · exact hentries eventId entry hfind
  · refine ⟨fun eventId later hfind => ?_, ?_⟩
    · dsimp only at hfind
      rw [find?_lease] at hfind
      obtain ⟨entry, hentry, rfl⟩ := Option.map_eq_some_iff.1 hfind
      split
      · next hleased =>
          have hdue := due_of_leased (Table.mem_of_find? hentry) hleased
          refine ⟨fun hpublished => absurd hdue.1 hpublished,
            fun hpublished => absurd hdue.1 hpublished, fun token htoken => ?_⟩
          obtain rfl := Option.some_inj.1 htoken
          exact Nat.lt_succ_self _
      · exact hentries eventId entry hentry
    · rw [(Table.insert?_eq_some_iff.1 hinsert).2]
      exact List.forall_mem_append.2 ⟨hold, List.forall_mem_singleton.2 (sound_of_lease rfl rfl)⟩
  · refine ⟨hentries, Table.forall_mem_replace hold ?_⟩
    refine ⟨(hold run hrun).records, (hold run hrun).distinct, fun found hfound head hhead => ?_⟩
    obtain rfl : coordinate = found := Progress.acknowledged.inj hfound
    rw [hrecords] at hhead
    obtain rfl : record = head := Option.some_inj.1 hhead
    exact List.mem_append_right _ (List.mem_singleton_self _)
  · exact ⟨hentries, Table.forall_mem_replace hold ((hold run hrun).raised error)⟩
  · refine ⟨fun eventId later hfind => ?_, ?_⟩
    · dsimp only at hfind
      rw [(updatesHeld_published ..).find?] at hfind
      obtain ⟨entry, hentry, rfl⟩ := Option.map_eq_some_iff.1 hfind
      by_cases hheld : entry.Held record
      · rw [if_pos hheld]
        -- the message of the row is that of the record, which was acknowledged
        have hmem : record ∈ run.records := hrecords ▸ List.mem_cons_self ..
        obtain ⟨-, found, hfound, hmessage⟩ := (h.runs run hrun).records record hmem
        have hkey : entry.eventId = eventId := Table.key_of_find? hentry
        rw [← hheld.1, hkey, hentry] at hfound
        obtain rfl := Option.some_inj.1 hfound
        have hacknowledged := (h.runs run hrun).acknowledged coordinate hprogress record
          (by rw [hrecords]; rfl)
        refine ⟨fun _ => rfl, fun _ => ⟨coordinate, rfl, rfl, hack _ ?_⟩, fun _ hnone => by
          cases hnone⟩
        rw [← hmessage] at hacknowledged
        exact hacknowledged
      · rw [if_neg hheld]
        exact hentries eventId entry hentry
    · cases error with
      | none => exact Table.forall_mem_replace hold (hold run hrun).advance
      | some error => exact Table.forall_mem_replace hold ((hold run hrun).raised error)
  · refine ⟨fun eventId later hfind => ?_, Table.forall_mem_replace hold (hold run hrun).advance⟩
    dsimp only at hfind
    obtain ⟨next, hupdates⟩ := updatesHeld_failed hfailed
    rw [hupdates.find?] at hfind
    obtain ⟨entry, hentry, rfl⟩ := Option.map_eq_some_iff.1 hfind
    by_cases hheld : entry.Held record
    · rw [if_pos hheld]
      -- a row that is held is not published
      have hreleased := (hentries eventId entry hentry).released
      have hnone : entry.publishedAt = none := by
        by_contra hpublished
        cases hheld.2.symm.trans (hreleased hpublished)
      exact ⟨fun _ => rfl, fun hpublished => absurd hnone hpublished, fun _ htoken => by
        cases htoken⟩
    · rw [if_neg hheld]
      exact hentries eventId entry hentry
  · exact ⟨hentries, fun run hrun => hold run (List.mem_of_mem_filter hrun)⟩
  · exact ⟨hentries, hold⟩

theorem sound_of_reachable (h : (machine publishers).Reachable w) : w.Sound :=
  h.invariant ⟨fun _ _ hfind => (by cases hfind), fun _ hrun => (by cases hrun)⟩
    fun _ _ _ _ hsound hn => hsound.next hn

/-! ### What is promised -/

/-- **A row can be leased**: whichever publisher is free and takes all that is due leases it. -/
def World.Leasable (publishers : ℕ → OutboxPublisher) (w : World) (entry : Entry)
    (now : Datetime) : Prop :=
  ∀ publisher clock locked, clock.checked = now → publisher ∉ w.stopping →
    w.runs.find? publisher = none → entry.eventId ∉ locked →
    (dueEntries w.outbox now locked).length ≤ (publishers publisher).batchSize →
    ∃ w', w.next publishers (.lease publisher clock locked) = some w' ∧
      ∃ run ∈ w'.runs.rows, run.publisher = publisher ∧ entry.record w.draws ∈ run.records

/-- **Publication is safe and loses nothing.** -/
structure World.PublishesSafely (publishers : ℕ → OutboxPublisher) (w : World) : Prop where
  /-- The broker has acknowledged what is published, where the row says. -/
  acknowledged : ∀ entry ∈ w.outbox.rows, entry.publishedAt ≠ none →
    ∃ coordinate : BrokerCoordinate, entry.kafkaPartition = some coordinate.partition ∧
      entry.kafkaOffset = some coordinate.offset ∧ entry.message coordinate ∈ w.acknowledged
  /-- A row that is published stays as it is. -/
  permanent : ∀ labels w', (machine publishers).run w labels = some w' →
    ∀ entry ∈ w.outbox.rows, entry.publishedAt ≠ none → entry ∈ w'.outbox.rows
  /-- A row is still there later, with its message. -/
  kept : ∀ labels w', (machine publishers).run w labels = some w' → ∀ entry ∈ w.outbox.rows,
    ∃ later ∈ w'.outbox.rows, later.eventId = entry.eventId ∧ later.topic = entry.topic ∧
      later.messageKey = entry.messageKey ∧ later.canonicalPayload = entry.canonicalPayload
  /-- A publisher whose token has left the row does not change it in anything it still does about
  its batch. -/
  fenced : ∀ run ∈ w.runs.rows, ∀ record ∈ run.records, ∀ entry,
    w.outbox.find? record.eventId = some entry → entry.leaseToken ≠ some record.leaseToken →
    ∀ labels w₁, (machine publishers).run w labels = some w₁ →
    ∀ run₁ ∈ w₁.runs.rows, run₁.publisher = run.publisher → record ∈ run₁.records →
    ∀ l w₂, l.publisher? = some run.publisher → w₁.next publishers l = some w₂ →
      w₂.outbox.find? record.eventId = w₁.outbox.find? record.eventId
  /-- A row that is not published can be leased once the clock has passed the time of its next
  attempt and the end of its lease. -/
  leasable : ∀ entry ∈ w.outbox.rows, entry.publishedAt = none →
    ∀ now, entry.nextAttemptAt ≤ now → (∀ t ∈ entry.leaseExpiresAt, t < now) →
      w.Leasable publishers entry now

/-- **What a whole run does to a row.** -/
theorem World.Sound.becomes_run {labels : List Label} (h : w.Sound)
    (hrun : (machine publishers).run w labels = some w') :
    w'.Sound ∧ ∀ eventId entry, w.outbox.find? eventId = some entry →
      ∃ later, w'.outbox.find? eventId = some later ∧ entry.Becomes w.draws later := by
  induction labels generalizing w with
  | nil =>
      cases hrun
      exact ⟨h, fun _ entry hfind => ⟨entry, hfind, .refl _ _⟩⟩
  | cons l labels ih =>
      obtain ⟨next, hn, hrest⟩ := Machine.run_cons_eq_some_iff.1 hrun
      obtain ⟨hsound, hbecomes⟩ := ih (h.next hn) hrest
      refine ⟨hsound, fun eventId entry hfind => ?_⟩
      obtain ⟨middle, hmiddle, hfirst⟩ := h.becomes hn hfind
      obtain ⟨later, hlater, hsecond⟩ := hbecomes eventId middle hmiddle
      exact ⟨later, hlater, hfirst.trans hsecond (World.next_mono hn).1⟩

/-- **A step of a publisher whose token is not on the row** leaves the row as it is. -/
theorem World.Sound.find?_of_overtaken {run : Run} {record : OutboxRecord} {l : Label}
    (h : w.Sound) (hrun : run ∈ w.runs.rows) (hrecord : record ∈ run.records)
    (htoken : ∀ entry, w.outbox.find? record.eventId = some entry →
      entry.leaseToken ≠ some record.leaseToken)
    (hl : l.publisher? = some run.publisher) (hn : w.next publishers l = some w') :
    w'.outbox.find? record.eventId = w.outbox.find? record.eventId := by
  -- the record the publisher is at is this one, or of another row
  have hheld : ∀ {other : Run} {head : OutboxRecord} {rest : List OutboxRecord},
      other ∈ w.runs.rows → other.publisher = run.publisher → other.records = head :: rest →
      ∀ entry, w.outbox.find? record.eventId = some entry → ¬ entry.Held head := by
    intro other head rest hother hpublisher hrecords entry hfind hheld
    obtain rfl := Table.eq_of_key_eq hother hrun hpublisher
    have hhead : head ∈ other.records := hrecords ▸ List.mem_cons_self ..
    have hkey : entry.eventId = record.eventId := Table.key_of_find? hfind
    obtain rfl := List.inj_on_of_nodup_map (h.runs other hrun).distinct hhead hrecord
      (hheld.1.symm.trans hkey)
    exact htoken entry hfind hheld.2
  rcases World.next_cases hn with ⟨new, outbox, -, -, hinsert, rfl⟩ |
    ⟨publisher, clock, locked, runs, rfl, -, hinsert, rfl⟩ |
    ⟨other, head, rest, coordinate, -, -, -, rfl⟩ | ⟨other, error, -, -, rfl⟩ |
    ⟨other, head, rest, coordinate, now, error, rfl, hother, hrecords, -, rfl⟩ |
    ⟨other, head, rest, error, drawn, now, outbox, rfl, hother, hrecords, -, hfailed, rfl⟩ |
    ⟨publisher, rfl⟩ | ⟨publisher, rfl⟩
  · obtain ⟨-, entry, hfind, -⟩ := (h.runs run hrun).records record hrecord
    have hne : record.eventId ≠ new.eventId := by
      intro heq
      rw [heq, (Table.insert?_eq_some_iff.1 hinsert).1] at hfind
      cases hfind
    exact (Table.find?_insert? hinsert _).trans (if_neg hne)
  · -- a publisher in a batch does not lease another one
    obtain rfl := Option.some_inj.1 hl
    exact absurd rfl (Table.find?_eq_none_iff.1 (Table.insert?_eq_some_iff.1 hinsert).1 run hrun)
  · rfl
  · rfl
  · exact (updatesHeld_published ..).find?_of_not (hheld hother (Option.some_inj.1 hl) hrecords)
  · obtain ⟨next, hupdates⟩ := updatesHeld_failed hfailed
    exact hupdates.find?_of_not (hheld hother (Option.some_inj.1 hl) hrecords)
  · rfl
  · rfl

/-- A row that is due is leased by whoever takes all that is due. -/
theorem leasable_of_due {entry : Entry} {now : Datetime} (hmem : entry ∈ w.outbox.rows)
    (hdue : entry.Due now) : w.Leasable publishers entry now := by
  rintro publisher clock locked rfl hstopping hfree hlocked hlength
  let records := ((publishers publisher).lease w.outbox w.draws clock locked).2
  have hrecord : entry.record w.draws ∈ records := by
    have hbatch : entry ∈ (publishers publisher).batch w.outbox clock locked := by
      rw [OutboxPublisher.batch, List.take_of_length_le hlength]
      exact mem_dueEntries.2 ⟨hmem, hdue, hlocked⟩
    exact List.mem_map.2 ⟨entry, hbatch, rfl⟩
  cases hinsert : w.runs.insert? ⟨publisher, records, .sending⟩ with
  | none => exact absurd hfree (Table.insert?_eq_none_iff.1 hinsert)
  | some runs =>
      have hnext : w.next publishers (.lease publisher clock locked) = some { w with
          outbox := ((publishers publisher).lease w.outbox w.draws clock locked).1
          draws := w.draws + 1
          runs := runs } := by
        simp only [World.next, if_neg hstopping]
        exact congrArg (Option.map _) hinsert
      refine ⟨_, hnext, ⟨publisher, records, .sending⟩, ?_, rfl, hrecord⟩
      rw [(Table.insert?_eq_some_iff.1 hinsert).2]
      exact List.mem_append_right _ (List.mem_singleton_self _)

/-- **Whatever the publishers do, publication is safe and loses nothing**: any number of them, with
any owners and settings, that lease, send, fail, are overtaken and crash in any order. -/
theorem publishesSafely (publishers : ℕ → OutboxPublisher) (w : World)
    (h : (machine publishers).Reachable w) : w.PublishesSafely publishers := by
  have hsound := sound_of_reachable h
  refine ⟨fun entry hentry => (hsound.entries _ entry (Table.find?_of_mem hentry)).acknowledged,
    ?_, ?_, ?_, fun entry hmem hpublished now hnext hexpired =>
      leasable_of_due hmem ⟨hpublished, hnext, hexpired⟩⟩
  · intro labels w' hrun entry hentry hpublished
    obtain ⟨later, hlater, hbecomes⟩ :=
      (hsound.becomes_run hrun).2 _ entry (Table.find?_of_mem hentry)
    exact hbecomes.published hpublished ▸ Table.mem_of_find? hlater
  · intro labels w' hrun entry hentry
    obtain ⟨later, hlater, hbecomes⟩ :=
      (hsound.becomes_run hrun).2 _ entry (Table.find?_of_mem hentry)
    exact ⟨later, Table.mem_of_find? hlater, hbecomes.eventId, hbecomes.topic,
      hbecomes.messageKey, hbecomes.canonicalPayload⟩
  · intro run hrun record hrecord entry hfind htoken labels w₁ hlabels run₁ hrun₁ hpublisher
      hrecord₁ l w₂ hl hn
    obtain ⟨hsound₁, hbecomes⟩ := hsound.becomes_run hlabels
    refine hsound₁.find?_of_overtaken hrun₁ hrecord₁ (fun found hfound hheld => htoken ?_)
      (hpublisher ▸ hl) hn
    -- the token is an old one, so the row has not got it back
    obtain ⟨later, hlater, hlast⟩ := hbecomes _ entry hfind
    obtain rfl : later = found := Option.some_inj.1 (hlater.symm.trans hfound)
    exact hlast.token _ ((hsound.runs run hrun).records record hrecord).drawn hheld

/-- Two publishers of the same owner.  The first one is overtaken after the broker has acknowledged
its message; the second one publishes the row, with an exception after the commit. -/
def overtakenRun : List Label :=
  [.insert "e-1" "job-lifecycle-edr.v1" "job-1" "{}" 0 0,
    .lease 1 (.instant (seconds 1)) [], .acknowledge 1 ⟨0, 7⟩,
    .lease 2 (.instant (seconds 40)) [], .published 1 (seconds 41) none, .finish 1,
    .acknowledge 2 ⟨0, 8⟩, .published 2 (seconds 42) (some "OperationalError"),
    .failed 2 { value := 1 / 2 } (seconds 43), .finish 2]

theorem publishesSafely_overtakenRun :
    ∃ w, (machine fun _ => { owner := "outbox-1" }).run {} overtakenRun = some w ∧
      w.outbox.rows.map Entry.kafkaOffset = [some 8] ∧
      w.PublishesSafely fun _ => { owner := "outbox-1" } := by
  have hrun : ((machine fun _ => { owner := "outbox-1" }).run {} overtakenRun).map
      (fun w => w.outbox.rows.map Entry.kafkaOffset) = some [some 8] := by decide +kernel
  obtain ⟨w, hw, hoffsets⟩ := Option.map_eq_some_iff.1 hrun
  exact ⟨w, hw, hoffsets, publishesSafely _ w (Machine.Reachable.of_run .start _ hw)⟩

end Outbox

end ScheduledJobs
