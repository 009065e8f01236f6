import Mathlib.Data.List.Find
import Mathlib.Data.List.Nodup
import Mathlib.Tactic.ByContra
import Mathlib.Tactic.Tauto

/-!
# Keyed tables

A table is a list of rows without two rows of one primary key.  The order of
the list is the physical order of the rows, which no statement may depend on;
what a statement can observe of a row by its key is `Table.lookup`.

The operations are those of a relational store:

* `Table.put` — insert a row, or replace the row that has its key;
* `Table.insert?` — insert a row, refused on a duplicate key;
* `Table.update` — rewrite every row that meets a condition, keeping its key;
* `Table.delete` — drop every row that meets a condition;
* `Table.overlay` — replace rows by their versions in another table.

Each operation is characterised by one equation for `lookup`, so that facts
about stores are proved pointwise, by key, and never by unfolding the list.
-/

set_option autoImplicit false

namespace OpsComposer.Foundations

variable {κ ρ : Type}

/-- Rows with pairwise different primary keys. -/
structure Table (key : ρ → κ) where
  /-- The rows, in physical order. -/
  rows : List ρ
  /-- The primary key is unique. -/
  unique : (rows.map key).Nodup

namespace Table

variable {key : ρ → κ}

/-! ## Reading -/

/-- The table without rows. -/
def empty : Table key := ⟨[], List.nodup_nil⟩

theorem nodup_rows (t : Table key) : t.rows.Nodup := List.Nodup.of_map key t.unique

/-- Two rows of one table with one key are one row. -/
theorem eq_of_key_eq {t : Table key} {r r' : ρ} (member : r ∈ t.rows)
    (member' : r' ∈ t.rows) (same : key r = key r') : r = r' :=
  List.inj_on_of_nodup_map t.unique member member' same

variable [DecidableEq κ]

/-- The row with a given primary key. -/
def lookup (t : Table key) (k : κ) : Option ρ :=
  t.rows.find? fun r => decide (key r = k)

@[simp] theorem lookup_empty (k : κ) : (empty : Table key).lookup k = none := rfl

variable {rs : List ρ} {t t' : Table key} {k : κ} {r : ρ}

/-- A looked-up row has the key it was looked up by. -/
theorem key_of_lookup (found : t.lookup k = some r) : key r = k := by
  simpa using List.find?_some found

theorem mem_of_lookup (found : t.lookup k = some r) : r ∈ t.rows :=
  List.mem_of_find?_eq_some found

/-- Looking up by the key of a row finds that row. -/
theorem lookup_of_mem (member : r ∈ t.rows) : t.lookup (key r) = some r := by
  cases found : t.lookup (key r) with
  | none =>
      have absent := List.find?_eq_none.mp found r member
      simp at absent
  | some r' =>
      exact congrArg some
        (eq_of_key_eq (mem_of_lookup found) member (key_of_lookup found))

/-- **Lookup and membership agree.** -/
theorem lookup_eq_some_iff :
    t.lookup k = some r ↔ r ∈ t.rows ∧ key r = k := by
  constructor
  · intro found
    exact ⟨mem_of_lookup found, key_of_lookup found⟩
  · rintro ⟨member, rfl⟩
    exact lookup_of_mem member

theorem lookup_eq_none_iff :
    t.lookup k = none ↔ ∀ r ∈ t.rows, key r ≠ k := by
  simp [lookup, List.find?_eq_none]

/-- A key is not both free and taken. -/
theorem not_free (free : t.lookup k = none) (found : t.lookup k = some r) : False := by
  rw [free] at found
  cases found

theorem mem_rows_iff : r ∈ t.rows ↔ t.lookup (key r) = some r := by
  simp [lookup_eq_some_iff]

/-- The rows that meet a condition. -/
def select (t : Table key) (p : ρ → Prop) [DecidablePred p] : List ρ :=
  t.rows.filter fun r => decide (p r)

theorem mem_select {p : ρ → Prop} [DecidablePred p] :
    r ∈ t.select p ↔ t.lookup (key r) = some r ∧ p r := by
  simp [select, mem_rows_iff]

/-! ## Inserting -/

/-- Insert a row, or replace the row with its key. -/
def put (t : Table key) (r : ρ) : Table key where
  rows := r :: t.rows.filter fun r' => decide (key r' ≠ key r)
  unique := by
    have apart : key r ∉ (t.rows.filter fun r' => decide (key r' ≠ key r)).map key := by
      simp
    exact List.nodup_cons.mpr
      ⟨apart, t.unique.sublist (List.filter_sublist.map key)⟩

theorem lookup_put (t : Table key) (r : ρ) (k : κ) :
    (t.put r).lookup k = if key r = k then some r else t.lookup k := by
  by_cases same : key r = k
  · simp [lookup, put, same]
  · have skip : ∀ r' ∈ t.rows,
        (decide (decide (key r' ≠ key r) = true ∧ decide (key r' = k) = true)) =
          decide (key r' = k) := by
      intro r' _
      by_cases hit : key r' = k
      · simp [hit, Ne.symm same]
      · simp [hit]
    simp only [lookup, put, List.find?_cons, same, decide_false, if_false, List.find?_filter]
    exact List.find?_congr skip

@[simp] theorem lookup_put_self (t : Table key) (r : ρ) : (t.put r).lookup (key r) = some r := by
  simp [lookup_put]

theorem lookup_put_of_ne (t : Table key) (different : key r ≠ k) :
    (t.put r).lookup k = t.lookup k := by
  simp [lookup_put, different]

theorem lookup_put_eq_some {r' : ρ} :
    (t.put r).lookup k = some r' ↔ (key r = k ∧ r' = r) ∨ (key r ≠ k ∧ t.lookup k = some r') := by
  rw [lookup_put]
  by_cases same : key r = k
  · simp [same, eq_comm]
  · simp [same]

/-- Insert a row, refused when its key is taken. -/
def insert? (t : Table key) (r : ρ) : Option (Table key) :=
  match t.lookup (key r) with
  | none => some (t.put r)
  | some _ => none

theorem insert?_eq_some :
    t.insert? r = some t' ↔ t.lookup (key r) = none ∧ t' = t.put r := by
  unfold insert?
  cases t.lookup (key r) with
  | none => simp [eq_comm]
  | some _ => simp

/-- Insert several rows, refused when one of the keys is taken. -/
def insertAll? (t : Table key) : List ρ → Option (Table key)
  | [] => some t
  | r :: rs => (t.insert? r).bind fun t' => t'.insertAll? rs

/-- A successful bulk insert adds exactly its rows, whose keys were all free. -/
theorem insertAll?_spec (inserted : t.insertAll? rs = some t') :
    (rs.map key).Nodup ∧ (∀ r ∈ rs, t.lookup (key r) = none ∧ t'.lookup (key r) = some r) ∧
      ∀ k, (∀ r ∈ rs, key r ≠ k) → t'.lookup k = t.lookup k := by
  induction rs generalizing t with
  | nil =>
      obtain rfl : t = t' := by simpa [insertAll?] using inserted
      simp
  | cons r rs ih =>
      obtain ⟨middle, first, rest⟩ := Option.bind_eq_some_iff.mp inserted
      obtain ⟨free, rfl⟩ := insert?_eq_some.mp first
      obtain ⟨nodup, added, kept⟩ := ih rest
      have fresh : ∀ r' ∈ rs, key r' ≠ key r := by
        intro r' member same
        have taken := (added r' member).1
        rw [same, lookup_put_self] at taken
        cases taken
      refine ⟨?_, ?_, ?_⟩
      · refine List.nodup_cons.mpr ⟨?_, nodup⟩
        intro member
        obtain ⟨r', member', same⟩ := List.mem_map.mp member
        exact fresh r' member' same
      · intro r' member
        rcases List.mem_cons.mp member with rfl | tail
        · exact ⟨free, (kept _ fresh).trans (lookup_put_self t r')⟩
        · obtain ⟨free', found⟩ := added r' tail
          rw [lookup_put_of_ne t (Ne.symm (fresh r' tail))] at free'
          exact ⟨free', found⟩
      · intro k apart
        rw [kept k fun r' member => apart r' (List.mem_cons_of_mem _ member)]
        exact lookup_put_of_ne t (apart r (List.mem_cons_self ..))

/-- Rows whose keys are different and free are inserted. -/
theorem exists_insertAll? (distinct : (rs.map key).Nodup)
    (free : ∀ r ∈ rs, t.lookup (key r) = none) : ∃ t', t.insertAll? rs = some t' := by
  induction rs generalizing t with
  | nil => exact ⟨t, rfl⟩
  | cons r rs ih =>
      obtain ⟨apart, distinct⟩ := List.nodup_cons.mp distinct
      obtain ⟨here, later⟩ := List.forall_mem_cons.mp free
      have still : ∀ r' ∈ rs, (t.put r).lookup (key r') = none := by
        intro r' member
        rw [lookup_put_of_ne t]
        · exact later r' member
        · intro same
          exact apart (same ▸ List.mem_map_of_mem member)
      obtain ⟨t', rest⟩ := ih distinct still
      exact ⟨t', Option.bind_eq_some_iff.mpr ⟨t.put r, insert?_eq_some.mpr ⟨here, rfl⟩, rest⟩⟩

/-- The rows after a bulk insert are the new ones and the old ones. -/
theorem lookup_insertAll? (inserted : t.insertAll? rs = some t') :
    t'.lookup k = some r ↔ (r ∈ rs ∧ key r = k) ∨ t.lookup k = some r := by
  obtain ⟨_, added, kept⟩ := insertAll?_spec inserted
  constructor
  · intro found
    by_cases isNew : ∃ r' ∈ rs, key r' = k
    · obtain ⟨r', member, rfl⟩ := isNew
      obtain rfl : r' = r := Option.some.inj ((added r' member).2.symm.trans found)
      exact .inl ⟨member, rfl⟩
    · have apart : ∀ r' ∈ rs, key r' ≠ k := fun r' member same => isNew ⟨r', member, same⟩
      exact .inr (kept k apart ▸ found)
  · rintro (⟨member, rfl⟩ | found)
    · exact (added r member).2
    · rw [kept k, found]
      intro r' member same
      have free := (added r' member).1
      rw [same, found] at free
      cases free

/-! ## Updating -/

section Conditions

variable (t : Table key) (p : ρ → Prop) [DecidablePred p] (f : ρ → ρ)

/-- Rewrite every row that meets a condition; the rewriting keeps the key. -/
def update (keeps : ∀ r, key (f r) = key r) : Table key where
  rows := t.rows.map fun r => if p r then f r else r
  unique := by
    have same : (t.rows.map fun r => if p r then f r else r).map key = t.rows.map key := by
      rw [List.map_map]
      refine List.map_congr_left ?_
      intro r _
      by_cases holds : p r <;> simp [holds, keeps]
    rw [same]
    exact t.unique

@[simp] theorem lookup_update (keeps : ∀ r, key (f r) = key r) (k : κ) :
    (t.update p f keeps).lookup k = (t.lookup k).map fun r => if p r then f r else r := by
  have same : ∀ r, key (if p r then f r else r) = key r := by
    intro r
    by_cases holds : p r <;> simp [holds, keeps]
  simp only [lookup, update, List.find?_map, Function.comp_def, same]

/-- Drop every row that meets a condition. -/
def delete : Table key where
  rows := t.rows.filter fun r => decide (¬ p r)
  unique := t.unique.sublist (List.filter_sublist.map key)

end Conditions

/-- The rows of one table, and those of another one whose keys it leaves free. -/
def overlay (t versions : Table key) : Table key where
  rows := versions.rows ++ t.rows.filter fun r => (versions.lookup (key r)).isNone
  unique := by
    rw [List.map_append]
    refine List.nodup_append.mpr ⟨versions.unique,
      t.unique.sublist (List.filter_sublist.map key), ?_⟩
    intro k left k' right same
    obtain ⟨r, member, rfl⟩ := List.mem_map.mp left
    obtain ⟨r', member', rfl⟩ := List.mem_map.mp right
    have free := (List.mem_filter.mp member').2
    rw [← same, lookup_of_mem member] at free
    cases free

theorem lookup_overlay (t versions : Table key) (k : κ) :
    (t.overlay versions).lookup k = (versions.lookup k).or (t.lookup k) := by
  simp only [lookup, overlay, List.find?_append, List.find?_filter]
  cases found : versions.rows.find? fun r => decide (key r = k) with
  | some r => rfl
  | none =>
      refine congrArg (Option.or none) (List.find?_congr fun r _ => ?_)
      by_cases same : key r = k
      · simp [same, found]
      · simp [same]

variable {t : Table key} {p : ρ → Prop} [DecidablePred p]

/-- An update of the row with one key. -/
theorem lookup_update_at (t : Table key) (k : κ) (f : ρ → ρ) (keeps : ∀ r, key (f r) = key r)
    (k' : κ) : (t.update (fun r => key r = k) f keeps).lookup k' =
      if k = k' then (t.lookup k').map f else t.lookup k' := by
  rw [lookup_update]
  cases found : t.lookup k' with
  | none => simp
  | some r =>
      have named := key_of_lookup found
      by_cases same : k = k'
      · simp [same, named]
      · simp [named, Ne.symm same, same]

/-- What survives a deletion. -/
theorem lookup_delete_eq_some {k : κ} {r : ρ} :
    (t.delete p).lookup k = some r ↔ t.lookup k = some r ∧ ¬ p r := by
  simp only [lookup_eq_some_iff, delete, List.mem_filter, decide_eq_true_eq]
  tauto

theorem lookup_delete_eq_none {k : κ} :
    (t.delete p).lookup k = none ↔ ∀ r, t.lookup k = some r → p r := by
  constructor
  · intro gone r found
    by_contra kept
    have present := lookup_delete_eq_some.mpr ⟨found, kept⟩
    rw [gone] at present
    cases present
  · intro all
    cases present : (t.delete p).lookup k with
    | none => rfl
    | some r =>
        obtain ⟨found, kept⟩ := lookup_delete_eq_some.mp present
        exact absurd (all r found) kept

/-- A deletion of the row with one key. -/
theorem lookup_delete_at (t : Table key) (k k' : κ) :
    (t.delete fun r => key r = k).lookup k' = if k = k' then none else t.lookup k' := by
  by_cases same : k = k'
  · subst same
    rw [if_pos rfl, lookup_delete_eq_none]
    exact fun r found => key_of_lookup found
  · rw [if_neg same]
    cases found : t.lookup k' with
    | none => exact lookup_delete_eq_none.mpr fun r present => absurd present (by simp [found])
    | some r =>
        refine lookup_delete_eq_some.mpr ⟨found, fun here => same ?_⟩
        exact here.symm.trans (key_of_lookup found)

end Table

end OpsComposer.Foundations
