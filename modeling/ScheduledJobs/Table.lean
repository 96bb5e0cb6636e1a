/-
**Tables with a primary key.**

A table is a list of rows whose keys are pairwise distinct: the primary-key constraint is the second
component of the structure, so a table that violates it cannot be built.  The key is a function of
the row, and rows stand in the order in which they were inserted.

Main definitions:

* `Table.find?` — the row with a key;
* `Table.insert?` — a new row at the end, or nothing when its key is taken;
* `Table.replace`, `Table.replaceAll` — a row, or several, in place of those with the same key;
* `Table.upsert`, `Table.insertOrKeep` — insert or replace, and insert unless the key is taken;
* `Table.deleteWhere` — the rows a condition does not hold of;
* `Table.map`, `Table.mapRows` — every row rewritten, its key kept.

Main results:

* `Table.find?_insert?`, `Table.find?_replace`, `Table.find?_replaceAll`, `Table.find?_upsert`,
  `Table.find?_map` — reading after each write;
* `Table.map_replace`, `Table.map_upsert` — rewriting every row after a write;
* `Table.nodup_selection` — rows that are filtered, sorted and cut off have distinct keys;
* `Table.sum_map_le`, `Table.sum_map_lt`, `Table.sum_replace` — a sum over the rows, compared key by
  key, and after one row was replaced.
-/

import Mathlib.Algebra.Order.BigOperators.Group.List
import Mathlib.Algebra.Order.Ring.Nat
import Mathlib.Data.List.Nodup
import Mathlib.Data.List.Sort

set_option relaxedAutoImplicit false
set_option autoImplicit false

universe u v w

/-- Rows with pairwise distinct keys. -/
@[ext] structure Table {ν : Type u} {κ : Type v} (key : ν → κ) where
  /-- The rows, in the order in which they were inserted. -/
  rows : List ν
  /-- The primary-key constraint. -/
  nodup : (rows.map key).Nodup

namespace Table

variable {ν : Type u} {κ : Type v} {key : ν → κ}

/-- The table without rows. -/
def empty : Table key := ⟨[], List.nodup_nil⟩

instance : Inhabited (Table key) := ⟨empty⟩

/-- Two rows of a table with the same key are the same row. -/
theorem eq_of_key_eq {t : Table key} {a b : ν} (ha : a ∈ t.rows) (hb : b ∈ t.rows)
    (h : key a = key b) : a = b :=
  List.inj_on_of_nodup_map t.nodup ha hb h

variable [DecidableEq κ]

/-! ### Reading -/

/-- The row with a key. -/
def find? (t : Table key) (k : κ) : Option ν := t.rows.find? fun row => key row = k

@[simp] theorem find?_empty (k : κ) : (empty : Table key).find? k = none := rfl

/-- **What `find?` finds.** -/
theorem find?_eq_some_iff {t : Table key} {k : κ} {row : ν} :
    t.find? k = some row ↔ row ∈ t.rows ∧ key row = k := by
  constructor
  · intro h
    exact ⟨List.mem_of_find?_eq_some h, by simpa using List.find?_some h⟩
  · rintro ⟨hmem, hkey⟩
    cases hf : t.find? k with
    | none =>
        have := List.find?_eq_none.1 hf row hmem
        simp [hkey] at this
    | some found =>
        have hfound : found ∈ t.rows := List.mem_of_find?_eq_some hf
        have hk : key found = k := by simpa using List.find?_some hf
        rw [eq_of_key_eq hfound hmem (hk.trans hkey.symm)]

theorem find?_eq_none_iff {t : Table key} {k : κ} :
    t.find? k = none ↔ ∀ row ∈ t.rows, key row ≠ k := by
  simp [find?, List.find?_eq_none]

theorem key_of_find? {t : Table key} {k : κ} {row : ν} (h : t.find? k = some row) :
    key row = k := (find?_eq_some_iff.1 h).2

theorem mem_of_find? {t : Table key} {k : κ} {row : ν} (h : t.find? k = some row) :
    row ∈ t.rows := (find?_eq_some_iff.1 h).1

theorem find?_of_mem {t : Table key} {row : ν} (h : row ∈ t.rows) :
    t.find? (key row) = some row := find?_eq_some_iff.2 ⟨h, rfl⟩

/-- Two tables of which one finds what the other does, or a given row at a given key. -/
theorem find?_eq_ite {t t' : Table key} {k : κ} {row : ν} (hkey : key row = k)
    (h : ∀ r, r ∈ t'.rows ↔ (key r ≠ k ∧ r ∈ t.rows) ∨ r = row) (k' : κ) :
    t'.find? k' = if k' = k then some row else t.find? k' := by
  split
  · next hk => exact find?_eq_some_iff.2 ⟨(h row).2 (Or.inr rfl), hkey.trans hk.symm⟩
  · next hk =>
      ext r
      rw [find?_eq_some_iff, find?_eq_some_iff, h]
      constructor
      · rintro ⟨⟨-, hmem⟩ | rfl, hr⟩
        · exact ⟨hmem, hr⟩
        · exact absurd (hr.symm.trans hkey) hk
      · rintro ⟨hmem, hr⟩
        exact ⟨Or.inl ⟨fun h => hk (hr.symm.trans h), hmem⟩, hr⟩

/-! ### Inserting -/

/-- A new row at the end; nothing when the key is taken. -/
def insert? (t : Table key) (row : ν) : Option (Table key) :=
  if h : key row ∈ t.rows.map key then none
  else some ⟨t.rows ++ [row], by
    rw [List.map_append, List.nodup_append]
    refine ⟨t.nodup, List.nodup_singleton _, ?_⟩
    rintro k hk k' hk' rfl
    rw [List.map_singleton, List.mem_singleton] at hk'
    exact h (hk' ▸ hk)⟩

theorem insert?_eq_some_iff {t t' : Table key} {row : ν} :
    t.insert? row = some t' ↔ t.find? (key row) = none ∧ t'.rows = t.rows ++ [row] := by
  have hmem : key row ∈ t.rows.map key ↔ t.find? (key row) ≠ none := by
    simp [find?_eq_none_iff]
  unfold insert?
  split
  · next h =>
      have := hmem.1 h
      simp [this]
  · next h =>
      have hnone : t.find? (key row) = none := by
        by_contra hne
        exact h (hmem.2 hne)
      simp only [Option.some.injEq, hnone, true_and]
      constructor
      · rintro rfl
        rfl
      · intro hrows
        exact Table.ext hrows.symm

/-- Inserting fails exactly when the key is taken. -/
theorem insert?_eq_none_iff {t : Table key} {row : ν} :
    t.insert? row = none ↔ t.find? (key row) ≠ none := by
  cases h : t.insert? row with
  | none =>
      simp only [true_iff]
      intro hnone
      have : ∃ t', t.insert? row = some t' := by
        unfold insert?
        rw [dif_neg]
        · exact ⟨_, rfl⟩
        · simpa [find?_eq_none_iff] using hnone
      obtain ⟨t', ht'⟩ := this
      simp [h] at ht'
  | some t' => simp [(insert?_eq_some_iff.1 h).1]

/-- Reading after an insertion. -/
theorem find?_insert? {t t' : Table key} {row : ν} (h : t.insert? row = some t') (k : κ) :
    t'.find? k = if k = key row then some row else t.find? k := by
  obtain ⟨hnone, hrows⟩ := insert?_eq_some_iff.1 h
  refine find?_eq_ite rfl (fun r => ?_) k
  rw [hrows, List.mem_append, List.mem_singleton]
  constructor
  · rintro (hmem | rfl)
    · exact Or.inl ⟨find?_eq_none_iff.1 hnone r hmem, hmem⟩
    · exact Or.inr rfl
  · rintro (⟨-, hmem⟩ | rfl)
    · exact Or.inl hmem
    · exact Or.inr rfl

/-! ### Replacing -/

/-- A row in place of the one with the same key, if there is one. -/
def replace (t : Table key) (row : ν) : Table key where
  rows := t.rows.map fun old => if key old = key row then row else old
  nodup := by
    have hkeys : (t.rows.map fun old => if key old = key row then row else old).map key =
        t.rows.map key := by
      rw [List.map_map]
      refine List.map_congr_left fun old _ => ?_
      by_cases h : key old = key row <;> simp [h]
    rw [hkeys]
    exact t.nodup

/-- Reading after a replacement. -/
theorem find?_replace (t : Table key) (row : ν) (k : κ) :
    (t.replace row).find? k =
      if k = key row then (t.find? k).map fun _ => row else t.find? k := by
  simp only [find?, replace, List.find?_map]
  split
  · next hk =>
      subst hk
      have hcomp : ((fun r => decide (key r = key row)) ∘
          fun old => if key old = key row then row else old) =
            fun r => decide (key r = key row) := by
        funext old
        by_cases h : key old = key row <;> simp [h]
      rw [hcomp]
      cases hf : t.rows.find? fun r => decide (key r = key row) with
      | none => rfl
      | some old =>
          have : key old = key row := by simpa using List.find?_some hf
          simp [this]
  · next hk =>
      have hcomp : ((fun r => decide (key r = k)) ∘
          fun old => if key old = key row then row else old) = fun r => decide (key r = k) := by
        funext old
        by_cases h : key old = key row
        · simp [h, Ne.symm hk]
        · simp [h]
      rw [hcomp]
      cases hf : t.rows.find? fun r => decide (key r = k) with
      | none => rfl
      | some old =>
          have hold : key old = k := by simpa using List.find?_some hf
          have hne : key old ≠ key row := fun h => hk (hold.symm.trans h)
          simp [hne]

/-- Reading after replacing the row that is there. -/
theorem find?_replace_of_find? {t : Table key} {old row : ν} (h : t.find? (key row) = some old)
    (k : κ) : (t.replace row).find? k = if k = key row then some row else t.find? k := by
  rw [find?_replace]
  split
  · next hk => rw [hk, h, Option.map_some]
  · rfl

/-- What holds of every row and of the new one. -/
theorem forall_mem_replace {t : Table key} {row : ν} {P : ν → Prop} (h : ∀ old ∈ t.rows, P old)
    (hrow : P row) : ∀ new ∈ (t.replace row).rows, P new := by
  intro new hnew
  obtain ⟨old, hold, rfl⟩ := List.mem_map.1 hnew
  split
  · exact hrow
  · exact h old hold

/-- Replacing a row by itself. -/
theorem replace_of_find? {t : Table key} {row : ν} (h : t.find? (key row) = some row) :
    t.replace row = t := by
  refine Table.ext ?_
  simp only [replace]
  conv_rhs => rw [← List.map_id t.rows]
  refine List.map_congr_left fun old hold => ?_
  split
  · next hkey => exact (eq_of_key_eq hold (mem_of_find? h) hkey).symm
  · rfl

/-- Several replacements, one after the other. -/
def replaceAll (t : Table key) (rows : List ν) : Table key := rows.foldl replace t

/-- A key none of the rows has is read as before. -/
theorem find?_replaceAll_of_notMem {t : Table key} {rows : List ν} {k : κ}
    (h : k ∉ rows.map key) : (t.replaceAll rows).find? k = t.find? k := by
  induction rows generalizing t with
  | nil => rfl
  | cons row rows ih =>
      rw [List.map_cons, List.mem_cons, not_or] at h
      rw [replaceAll, List.foldl_cons]
      exact (ih h.2).trans (by rw [find?_replace, if_neg h.1])

/-- A row among the replacements is read back, when its key was there. -/
theorem find?_replaceAll_of_mem {t : Table key} {rows : List ν} {row : ν}
    (hnodup : (rows.map key).Nodup) (hmem : row ∈ rows) (hold : t.find? (key row) ≠ none) :
    (t.replaceAll rows).find? (key row) = some row := by
  induction rows generalizing t with
  | nil => simp at hmem
  | cons r rows ih =>
      rw [List.map_cons, List.nodup_cons] at hnodup
      rw [replaceAll, List.foldl_cons]
      rcases List.mem_cons.1 hmem with rfl | hmem
      · refine (find?_replaceAll_of_notMem hnodup.1).trans ?_
        rw [find?_replace, if_pos rfl]
        cases hf : t.find? (key row) with
        | none => exact absurd hf hold
        | some old => rfl
      · refine ih hnodup.2 hmem ?_
        rw [find?_replace]
        split
        · simpa using hold
        · exact hold

/-! ### Inserting or replacing, and deleting -/

/-- `INSERT … ON CONFLICT … DO UPDATE`. -/
def upsert (t : Table key) (row : ν) : Table key := (t.insert? row).getD (t.replace row)

/-- Reading after an upsert. -/
theorem find?_upsert (t : Table key) (row : ν) (k : κ) :
    (t.upsert row).find? k = if k = key row then some row else t.find? k := by
  unfold upsert
  cases h : t.insert? row with
  | some t' => exact find?_insert? h k
  | none =>
      obtain ⟨old, hold⟩ := Option.ne_none_iff_exists'.1 (insert?_eq_none_iff.1 h)
      exact find?_replace_of_find? hold k

/-- `INSERT … ON CONFLICT DO NOTHING`. -/
def insertOrKeep (t : Table key) (row : ν) : Table key := (t.insert? row).getD t

/-- Reading after an insertion that keeps what is there. -/
theorem find?_insertOrKeep (t : Table key) (row : ν) (k : κ) :
    (t.insertOrKeep row).find? k =
      (t.find? k).or (if k = key row then some row else none) := by
  unfold insertOrKeep
  cases h : t.insert? row with
  | some t' =>
      obtain ⟨hnone, -⟩ := insert?_eq_some_iff.1 h
      rw [Option.getD_some, find?_insert? h]
      split
      · next hk => rw [hk, hnone, Option.none_or]
      · rw [Option.or_none]
  | none =>
      rw [Option.getD_none]
      split
      · next hk =>
          obtain ⟨old, hold⟩ := Option.ne_none_iff_exists'.1 (insert?_eq_none_iff.1 h)
          rw [hk, hold, Option.some_or]
      · rw [Option.or_none]

/-- Reading after several of them: the first row with the key is the one that is kept. -/
theorem find?_foldl_insertOrKeep (rows : List ν) (t : Table key) (k : κ) :
    (rows.foldl insertOrKeep t).find? k = (t.find? k).or (rows.find? fun row => key row = k) := by
  induction rows generalizing t with
  | nil => exact (Option.or_none).symm
  | cons row rows ih =>
      rw [List.foldl_cons, ih, find?_insertOrKeep, Option.or_assoc, List.find?_cons]
      by_cases hk : key row = k
      · simp [hk]
      · simp [hk, Ne.symm hk]

/-- The rows the condition does not hold of. -/
def deleteWhere (t : Table key) (p : ν → Bool) : Table key where
  rows := t.rows.filter fun row => !p row
  nodup := t.nodup.sublist (List.filter_sublist.map key)

/-! ### Rewriting every row -/

section Map

variable {ν' : Type w} {key' : ν' → κ}

omit [DecidableEq κ] in
/-- Every row rewritten to one with the same key. -/
def map (t : Table key) (f : ν → ν') (hf : ∀ row, key' (f row) = key row) : Table key' where
  rows := t.rows.map f
  nodup := by
    have hkeys : (t.rows.map f).map key' = t.rows.map key := by
      rw [List.map_map]
      exact List.map_congr_left fun row _ => hf row
    rw [hkeys]
    exact t.nodup

variable (t : Table key) {f : ν → ν'} (hf : ∀ row, key' (f row) = key row)

/-- Reading after a rewriting. -/
@[simp] theorem find?_map (k : κ) : (t.map f hf).find? k = (t.find? k).map f := by
  simp only [find?, map, List.find?_map]
  congr 2
  funext row
  exact congrArg (fun key'' => decide (key'' = k)) (hf row)

theorem map_replace (row : ν) : (t.replace row).map f hf = (t.map f hf).replace (f row) := by
  refine Table.ext ?_
  simp only [map, replace, List.map_map]
  refine List.map_congr_left fun old _ => ?_
  simp only [Function.comp_apply, hf]
  split <;> rfl

theorem map_upsert (row : ν) : (t.upsert row).map f hf = (t.map f hf).upsert (f row) := by
  have hnone : (t.map f hf).find? (key' (f row)) = none ↔ t.find? (key row) = none := by
    rw [find?_map, hf, Option.map_eq_none_iff]
  unfold upsert
  cases hins : t.insert? row with
  | some t' =>
      obtain ⟨hfree, hrows⟩ := insert?_eq_some_iff.1 hins
      have hins' : (t.map f hf).insert? (f row) = some (t'.map f hf) :=
        insert?_eq_some_iff.2 ⟨hnone.2 hfree, by simp [map, hrows]⟩
      rw [hins']
      rfl
  | none =>
      have htaken := insert?_eq_none_iff.1 hins
      rw [insert?_eq_none_iff.2 fun h => htaken (hnone.1 h)]
      exact map_replace t hf row

end Map

omit [DecidableEq κ] in
/-- Every row rewritten by a function that keeps the key. -/
def mapRows (t : Table key) (f : ν → ν) (hf : ∀ row, key (f row) = key row) : Table key where
  rows := t.rows.map f
  nodup := by
    have hkeys : (t.rows.map f).map key = t.rows.map key := by
      rw [List.map_map]
      exact List.map_congr_left fun row _ => hf row
    rw [hkeys]
    exact t.nodup

/-- Reading after a rewriting. -/
@[simp] theorem find?_mapRows (t : Table key) {f : ν → ν} (hf : ∀ row, key (f row) = key row)
    (k : κ) : (t.mapRows f hf).find? k = (t.find? k).map f := t.find?_map hf k

theorem mapRows_replace (t : Table key) {f : ν → ν} (hf : ∀ row, key (f row) = key row)
    (row : ν) : (t.replace row).mapRows f hf = (t.mapRows f hf).replace (f row) :=
  t.map_replace hf row

theorem mapRows_upsert (t : Table key) {f : ν → ν} (hf : ∀ row, key (f row) = key row)
    (row : ν) : (t.upsert row).mapRows f hf = (t.mapRows f hf).upsert (f row) :=
  t.map_upsert hf row

/-! ### Selections -/

/-- The element with a key, in a list without repeated keys. -/
theorem filter_key_eq_singleton {l : List ν} {a : ν}
    (hnodup : (l.map key).Nodup) (ha : a ∈ l) : (l.filter fun x => key x = key a) = [a] := by
  induction l with
  | nil => simp at ha
  | cons x l ih =>
      rw [List.map_cons, List.nodup_cons] at hnodup
      rcases List.mem_cons.1 ha with rfl | ha
      · rw [List.filter_cons_of_pos (by simp), List.filter_eq_nil_iff.2]
        intro y hy hkey
        exact hnodup.1 (List.mem_map.2 ⟨y, hy, by simpa using hkey⟩)
      · have hne : key x ≠ key a := fun hk => hnodup.1 (hk ▸ List.mem_map_of_mem ha)
        rw [List.filter_cons_of_neg (by simpa using hne), ih hnodup.2 ha]

omit [DecidableEq κ] in
/-- A selection of rows of a table has distinct keys. -/
theorem nodup_selection (t : Table key) (p : ν → Bool) (r : ν → ν → Prop) [DecidableRel r]
    (n : Nat) :
    ((((t.rows.filter p).insertionSort r).take n).map key).Nodup := by
  have hperm := (List.perm_insertionSort r (t.rows.filter p)).map key
  have hfilter : ((t.rows.filter p).map key).Nodup :=
    t.nodup.sublist (List.filter_sublist.map key)
  exact (hperm.nodup_iff.2 hfilter).sublist ((List.take_sublist n _).map key)

/-! ### Sums over the rows -/

section Sums

variable {t t' : Table key} {f : ν → ℕ}

/-- A sum over the rows, as one over the keys. -/
theorem map_eq_map_find? (t : Table key) (f : ν → ℕ) :
    t.rows.map f = (t.rows.map key).map fun k => (t.find? k).elim 0 f := by
  rw [List.map_map]
  refine List.map_congr_left fun row hrow => ?_
  rw [Function.comp_apply, find?_of_mem hrow, Option.elim_some]

theorem mem_keys_iff {k : κ} : k ∈ t.rows.map key ↔ (t.find? k).isSome = true := by
  rw [Option.isSome_iff_exists]
  constructor
  · intro hmem
    obtain ⟨row, hrow, rfl⟩ := List.mem_map.1 hmem
    exact ⟨row, find?_of_mem hrow⟩
  · rintro ⟨row, hrow⟩
    exact List.mem_map.2 ⟨row, mem_of_find? hrow, key_of_find? hrow⟩

/-- The sum over the rows of the one table, over the keys of the other. -/
theorem sum_map_eq (hkeys : ∀ k, (t'.find? k).isSome = (t.find? k).isSome) :
    (t'.rows.map f).sum = ((t.rows.map key).map fun k => (t'.find? k).elim 0 f).sum := by
  have hperm : (t'.rows.map key).Perm (t.rows.map key) :=
    (List.perm_ext_iff_of_nodup t'.nodup t.nodup).2 fun k => by
      rw [mem_keys_iff, mem_keys_iff, hkeys k]
  rw [map_eq_map_find?]
  exact (hperm.map _).sum_eq

/-- **The sum does not grow** when no row's part of it does. -/
theorem sum_map_le (hkeys : ∀ k, (t'.find? k).isSome = (t.find? k).isSome)
    (hle : ∀ k, (t'.find? k).elim 0 f ≤ (t.find? k).elim 0 f) :
    (t'.rows.map f).sum ≤ (t.rows.map f).sum := by
  rw [sum_map_eq hkeys, map_eq_map_find? t]
  exact List.sum_le_sum fun k _ => hle k

/-- **It becomes smaller** when the part of one row does. -/
theorem sum_map_lt (hkeys : ∀ k, (t'.find? k).isSome = (t.find? k).isSome)
    (hle : ∀ k, (t'.find? k).elim 0 f ≤ (t.find? k).elim 0 f) {k : κ}
    (hlt : (t'.find? k).elim 0 f < (t.find? k).elim 0 f) :
    (t'.rows.map f).sum < (t.rows.map f).sum := by
  have hmem : k ∈ t.rows.map key := by
    rw [mem_keys_iff]
    cases hfind : t.find? k with
    | none =>
        rw [hfind] at hlt
        exact absurd hlt (Nat.not_lt_zero _)
    | some row => rfl
  rw [sum_map_eq hkeys, map_eq_map_find? t]
  exact List.sum_lt_sum _ _ (fun k _ => hle k) ⟨k, hmem, hlt⟩

/-- The sum after one row was replaced. -/
theorem sum_replace {old : ν} (row : ν) (h : t.find? (key row) = some old) :
    ((t.replace row).rows.map f).sum + f old = (t.rows.map f).sum + f row := by
  obtain ⟨before, after, hrows⟩ := List.append_of_mem (mem_of_find? h)
  have hkey := key_of_find? h
  have hnodup := t.nodup
  rw [hrows, List.map_append, List.map_cons, List.nodup_append, List.nodup_cons] at hnodup
  obtain ⟨-, ⟨hafter, -⟩, hapart⟩ := hnodup
  have hothers : ∀ rows : List ν, key old ∉ rows.map key →
      rows.map (fun r => if key r = key row then row else r) = rows := by
    intro rows hnone
    refine (List.map_congr_left fun r hr => ?_).trans (List.map_id rows)
    rw [if_neg]
    · rfl
    · rintro heq
      exact hnone (List.mem_map.2 ⟨r, hr, heq.trans hkey.symm⟩)
  have hbefore : key old ∉ before.map key := fun hmem =>
    hapart _ hmem _ (List.mem_cons_self ..) rfl
  have hreplaced : (t.replace row).rows = before ++ row :: after := by
    simp only [replace, hrows, List.map_append, List.map_cons, if_pos hkey, hothers _ hbefore,
      hothers _ hafter]
  rw [hreplaced, hrows]
  simp only [List.map_append, List.map_cons, List.sum_append, List.sum_cons]
  omega

end Sums

end Table
