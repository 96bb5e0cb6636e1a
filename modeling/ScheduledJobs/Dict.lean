/-
**Insertion-ordered dictionaries.**

A dictionary is a list of entries whose keys are pairwise distinct; the second component of the
structure is that fact, so a dictionary with a repeated key cannot be built.  Writing a key that is
present replaces its value in place, writing a new key appends an entry, and so the entries stand
in the order in which their keys were first written.

Main definitions:

* `Dict.get?`, `Dict.set` — reading and writing a key;
* `Dict.keys`, `Dict.values` — the keys and values in insertion order;
* `Dict.mapValues` — every value rewritten, its key kept.

Main results:

* `Dict.get?_set_self`, `Dict.get?_set_ne` — reading after a write;
* `Dict.mem_keys_iff`, `Dict.mem_entries_iff` — the entries are what reading finds;
* `Dict.get?_mapValues`, `Dict.mapValues_set` — reading what was rewritten, and rewriting after a
  write.
-/

import Mathlib.Data.List.Nodup

set_option relaxedAutoImplicit false
set_option autoImplicit false

universe u v w

/-- A list of entries with pairwise distinct keys. -/
@[ext] structure Dict (κ : Type u) (ν : Type v) where
  entries : List (κ × ν)
  /-- No key occurs twice. -/
  nodup : (entries.map Prod.fst).Nodup

namespace Dict

variable {κ : Type u} {ν : Type v}

instance [DecidableEq κ] [DecidableEq ν] : DecidableEq (Dict κ ν) := fun a b =>
  decidable_of_iff (a.entries = b.entries) Dict.ext_iff.symm

/-- The dictionary without entries. -/
def empty : Dict κ ν := ⟨[], List.nodup_nil⟩

instance : Inhabited (Dict κ ν) := ⟨empty⟩

/-- The keys, in the order in which they were first written. -/
def keys (d : Dict κ ν) : List κ := d.entries.map Prod.fst

/-- The values, in the order of their keys. -/
def values (d : Dict κ ν) : List ν := d.entries.map Prod.snd

@[simp] theorem keys_empty : (empty : Dict κ ν).keys = [] := rfl

@[simp] theorem values_empty : (empty : Dict κ ν).values = [] := rfl

@[simp] theorem entries_empty : (empty : Dict κ ν).entries = [] := rfl

theorem nodup_keys (d : Dict κ ν) : d.keys.Nodup := d.nodup

/-! ### Rewriting every value -/

section MapValues

variable {μ : Type w} (f : ν → μ)

theorem map_fst_mapEntries (es : List (κ × ν)) :
    (es.map fun e => (e.1, f e.2)).map Prod.fst = es.map Prod.fst := by
  rw [List.map_map]
  rfl

/-- Every value rewritten, its key kept. -/
def mapValues (d : Dict κ ν) : Dict κ μ :=
  ⟨d.entries.map fun e => (e.1, f e.2), by rw [map_fst_mapEntries]; exact d.nodup⟩

@[simp] theorem mapValues_empty : (empty : Dict κ ν).mapValues f = empty := rfl

@[simp] theorem keys_mapValues (d : Dict κ ν) : (d.mapValues f).keys = d.keys :=
  map_fst_mapEntries f d.entries

@[simp] theorem values_mapValues (d : Dict κ ν) : (d.mapValues f).values = d.values.map f := by
  simp only [values, mapValues, List.map_map]
  rfl

end MapValues

variable [DecidableEq κ]

/-! ### Reading and writing lists of entries -/

/-- The value at the first entry with the key. -/
def getEntry (k : κ) : List (κ × ν) → Option ν
  | [] => none
  | e :: es => if e.1 = k then some e.2 else getEntry k es

/-- Replacing the value at a key, or appending an entry for a new key. -/
def setEntry (k : κ) (v : ν) : List (κ × ν) → List (κ × ν)
  | [] => [(k, v)]
  | e :: es => if e.1 = k then (k, v) :: es else e :: setEntry k v es

theorem getEntry_setEntry_self (k : κ) (v : ν) (es : List (κ × ν)) :
    getEntry k (setEntry k v es) = some v := by
  induction es with
  | nil => simp [setEntry, getEntry]
  | cons e es ih =>
      by_cases h : e.1 = k
      · simp [setEntry, getEntry, h]
      · simp [setEntry, getEntry, h, ih]

theorem getEntry_setEntry_ne {k k' : κ} (hk : k' ≠ k) (v : ν) (es : List (κ × ν)) :
    getEntry k' (setEntry k v es) = getEntry k' es := by
  induction es with
  | nil => simp [setEntry, getEntry, hk.symm]
  | cons e es ih =>
      by_cases h : e.1 = k
      · have hne : e.1 ≠ k' := fun he => hk (he.symm.trans h)
        simp [setEntry, getEntry, h, hk.symm]
      · simp [setEntry, getEntry, h, ih]

theorem mem_setEntry_fst {k a : κ} {v : ν} {es : List (κ × ν)} :
    a ∈ (setEntry k v es).map Prod.fst ↔ a = k ∨ a ∈ es.map Prod.fst := by
  induction es with
  | nil => simp [setEntry]
  | cons e es ih =>
      by_cases h : e.1 = k
      · simp [setEntry, h]
      · simp only [setEntry, h, if_false, List.map_cons, List.mem_cons, ih]
        exact or_left_comm

theorem nodup_setEntry {k : κ} {v : ν} {es : List (κ × ν)} (h : (es.map Prod.fst).Nodup) :
    ((setEntry k v es).map Prod.fst).Nodup := by
  induction es with
  | nil => simp [setEntry]
  | cons e es ih =>
      rw [List.map_cons, List.nodup_cons] at h
      by_cases he : e.1 = k
      · simpa [setEntry, he] using ⟨by simpa [he] using h.1, h.2⟩
      · simp only [setEntry, he, if_false, List.map_cons, List.nodup_cons]
        refine ⟨fun hmem => ?_, ih h.2⟩
        rcases mem_setEntry_fst.1 hmem with hk | hmem
        · exact he hk
        · exact h.1 hmem

theorem getEntry_eq_some_iff {k : κ} {v : ν} {es : List (κ × ν)} (h : (es.map Prod.fst).Nodup) :
    getEntry k es = some v ↔ (k, v) ∈ es := by
  induction es with
  | nil => simp [getEntry]
  | cons e es ih =>
      rw [List.map_cons, List.nodup_cons] at h
      by_cases he : e.1 = k
      · have hnot : (k, v) ∉ es := fun hm => h.1 (he ▸ List.mem_map_of_mem (f := Prod.fst) hm)
        simp only [getEntry, he, if_true, Option.some.injEq, List.mem_cons, hnot, or_false]
        constructor
        · rintro rfl
          exact Prod.ext he.symm rfl
        · rintro rfl
          rfl
      · have hne : (k, v) ≠ e := fun hke => he (by rw [← hke])
        simp only [getEntry, he, if_false, ih h.2, List.mem_cons, hne, false_or]

/-! ### Reading and writing dictionaries -/

/-- The value at a key. -/
def get? (d : Dict κ ν) (k : κ) : Option ν := getEntry k d.entries

/-- Writing a key: in place when it is present, at the end when it is new. -/
def set (d : Dict κ ν) (k : κ) (v : ν) : Dict κ ν :=
  ⟨setEntry k v d.entries, nodup_setEntry d.nodup⟩

@[simp] theorem get?_empty (k : κ) : (empty : Dict κ ν).get? k = none := rfl

@[simp] theorem get?_set_self (d : Dict κ ν) (k : κ) (v : ν) : (d.set k v).get? k = some v :=
  getEntry_setEntry_self k v d.entries

theorem get?_set_ne (d : Dict κ ν) {k k' : κ} (h : k' ≠ k) (v : ν) :
    (d.set k v).get? k' = d.get? k' := getEntry_setEntry_ne h v d.entries

/-- Reading any key after a write. -/
theorem get?_set (d : Dict κ ν) (k k' : κ) (v : ν) :
    (d.set k v).get? k' = if k' = k then some v else d.get? k' := by
  by_cases h : k' = k
  · rw [if_pos h, h, get?_set_self]
  · rw [if_neg h, get?_set_ne d h]

/-- What holds of every value and of the one that is written. -/
theorem forall_get?_set {d : Dict κ ν} {P : ν → Prop} (h : ∀ k, ∀ v ∈ d.get? k, P v) {v : ν}
    (hv : P v) (k : κ) : ∀ k', ∀ v' ∈ (d.set k v).get? k', P v' := by
  intro k' v' hv'
  rw [get?_set] at hv'
  split at hv'
  · obtain rfl := Option.some_inj.1 hv'
    exact hv
  · exact h k' v' hv'

theorem mem_entries_iff {d : Dict κ ν} {k : κ} {v : ν} :
    (k, v) ∈ d.entries ↔ d.get? k = some v := (getEntry_eq_some_iff d.nodup).symm

theorem mem_values_iff {d : Dict κ ν} {v : ν} : v ∈ d.values ↔ ∃ k, d.get? k = some v := by
  simp only [values, List.mem_map, Prod.exists, exists_eq_right, mem_entries_iff]

theorem mem_keys_iff {d : Dict κ ν} {k : κ} : k ∈ d.keys ↔ (d.get? k).isSome := by
  simp only [keys, List.mem_map, Prod.exists, exists_and_right, exists_eq_right, mem_entries_iff,
    Option.isSome_iff_exists]

/-- A new key is written at the end. -/
theorem entries_set_of_notMem {d : Dict κ ν} {k : κ} (h : k ∉ d.keys) (v : ν) :
    (d.set k v).entries = d.entries ++ [(k, v)] := by
  have hentries : ∀ es : List (κ × ν), k ∉ es.map Prod.fst → setEntry k v es = es ++ [(k, v)] := by
    intro es
    induction es with
    | nil => simp [setEntry]
    | cons e es ih =>
        intro he
        rw [List.map_cons, List.mem_cons, not_or] at he
        have hk : e.1 ≠ k := Ne.symm he.1
        simp [setEntry, hk, ih he.2]
  exact hentries d.entries h

/-! ### Rewriting and reading -/

variable {μ : Type w} (f : ν → μ)

/-- **Reading what was rewritten.** -/
@[simp] theorem get?_mapValues (d : Dict κ ν) (k : κ) :
    (d.mapValues f).get? k = (d.get? k).map f := by
  have hentries : ∀ es : List (κ × ν),
      getEntry k (es.map fun e => (e.1, f e.2)) = (getEntry k es).map f := by
    intro es
    induction es with
    | nil => rfl
    | cons e es ih =>
        by_cases h : e.1 = k
        · simp [getEntry, h]
        · simp [getEntry, h, ih]
  exact hentries d.entries

/-- **Rewriting after a write.** -/
@[simp] theorem mapValues_set (d : Dict κ ν) (k : κ) (v : ν) :
    (d.set k v).mapValues f = (d.mapValues f).set k (f v) := by
  have hentries : ∀ es : List (κ × ν), (setEntry k v es).map (fun e => (e.1, f e.2)) =
      setEntry k (f v) (es.map fun e => (e.1, f e.2)) := by
    intro es
    induction es with
    | nil => rfl
    | cons e es ih =>
        by_cases h : e.1 = k
        · simp [setEntry, h]
        · simp [setEntry, h, ih]
  exact Dict.ext (hentries d.entries)

end Dict
