import Mathlib.Data.List.Nodup
import Mathlib.Data.Option.Basic

/-! # Keyed tables

A table is a list of rows in insertion order whose keys are pairwise distinct, as a
relational table with a primary key keeps them. An insertion whose key is taken is
refused, an update rewrites the rows that satisfy a condition without touching their
keys, and a deletion drops rows.
-/

namespace Qualigence.Foundation

/-- Rows identified by their keys. -/
structure Table (ρ : Type*) {κ : Type*} (key : ρ → κ) where
  rows : List ρ
  nodup : (rows.map key).Nodup

namespace Table

variable {ρ κ : Type*} {key : ρ → κ}

/-- The table without rows. -/
def empty : Table ρ key := ⟨[], List.nodup_nil⟩

/-- The number of rows that satisfy a condition. -/
def count (t : Table ρ key) (p : ρ → Bool) : ℕ := t.rows.countP p

theorem map_key_rewrite {p : ρ → Bool} {f : ρ → ρ} (hf : ∀ r, key (f r) = key r) (rows : List ρ) :
    (rows.map fun r => if p r then f r else r).map key = rows.map key := by
  rw [List.map_map]
  apply List.map_congr_left
  intro r _
  simp only [Function.comp_apply]
  split
  · exact hf r
  · rfl

/-- Rewrite the rows that satisfy `p`; a rewrite keeps the key of its row. -/
def update (t : Table ρ key) (p : ρ → Bool) (f : ρ → ρ) (hf : ∀ r, key (f r) = key r) :
    Table ρ key where
  rows := t.rows.map fun r => if p r then f r else r
  nodup := by
    rw [map_key_rewrite hf]
    exact t.nodup

theorem map_key_update {t : Table ρ key} {p : ρ → Bool} {f : ρ → ρ}
    (hf : ∀ r, key (f r) = key r) : (t.update p f hf).rows.map key = t.rows.map key :=
  map_key_rewrite hf t.rows

/-- Drop the rows that satisfy `p`. -/
def delete (t : Table ρ key) (p : ρ → Bool) : Table ρ key where
  rows := t.rows.filter fun r => !p r
  nodup := (List.Sublist.map key List.filter_sublist).nodup t.nodup

section Keys

variable [DecidableEq κ]

/-- The row with the given key. -/
def get (t : Table ρ key) (k : κ) : Option ρ := t.rows.find? fun r => decide (key r = k)

/-- Append a row, unless its key is taken. -/
def insert (t : Table ρ key) (r : ρ) : Option (Table ρ key) :=
  if h : key r ∈ t.rows.map key then none
  else some ⟨t.rows ++ [r], by
    rw [List.map_append, List.map_singleton]
    exact t.nodup.append (List.nodup_singleton _) (by simpa using h)⟩

variable {t u : Table ρ key} {r : ρ} {k : κ}

theorem key_of_get (h : t.get k = some r) : key r = k := by
  simpa using List.find?_some h

theorem mem_of_get (h : t.get k = some r) : r ∈ t.rows := List.mem_of_find?_eq_some h

theorem get_eq_some_iff : t.get k = some r ↔ r ∈ t.rows ∧ key r = k := by
  constructor
  · intro h
    exact ⟨mem_of_get h, key_of_get h⟩
  · rintro ⟨hr, rfl⟩
    cases hg : t.get (key r) with
    | none =>
      have hn := List.find?_eq_none.mp hg r hr
      simp at hn
    | some r' =>
      have he := List.inj_on_of_nodup_map t.nodup (mem_of_get hg) hr (key_of_get hg)
      rw [he]

theorem get_eq_none_iff : t.get k = none ↔ ∀ r ∈ t.rows, key r ≠ k := by
  simp [get, List.find?_eq_none]

@[simp] theorem get_empty : (empty : Table ρ key).get k = none := rfl

/-- At most one row has a given key. -/
theorem count_key_le_one : t.count (fun r => decide (key r = k)) ≤ 1 := by
  have hc : t.count (fun r => decide (key r = k)) = (t.rows.map key).count k := by
    rw [count, List.count, List.countP_map]
    congr 1
  rw [hc]
  exact List.nodup_iff_count_le_one.mp t.nodup k

theorem insert_eq_none_iff : t.insert r = none ↔ (t.get (key r)).isSome := by
  unfold insert
  rw [Option.isSome_iff_exists]
  simp only [get_eq_some_iff, dite_eq_left_iff, reduceCtorEq, imp_false, not_not, List.mem_map]

theorem rows_of_insert (h : t.insert r = some u) : u.rows = t.rows ++ [r] := by
  unfold insert at h
  split at h
  · cases h
  · cases h
    rfl

theorem get_eq_none_of_insert (h : t.insert r = some u) : t.get (key r) = none := by
  by_contra hc
  have hn := insert_eq_none_iff.mpr (Option.isSome_iff_ne_none.mpr hc)
  rw [hn] at h
  cases h

/-- A row whose key is free can be inserted. -/
theorem exists_insert (h : t.get (key r) = none) : ∃ u, t.insert r = some u := by
  rw [← Option.isSome_iff_exists, Option.isSome_iff_ne_none, ne_eq, insert_eq_none_iff, h]
  nofun

theorem get_of_insert (h : t.insert r = some u) :
    u.get k = if key r = k then some r else t.get k := by
  have hn := get_eq_none_of_insert h
  rw [get, rows_of_insert h, List.find?_append]
  split
  · next he =>
    subst he
    change (t.get (key r)).or _ = _
    simp [hn]
  · next he => simp [get, he]

/-- An insertion keeps the rows that are there. -/
theorem get_of_insert_of_get {r' : ρ} (h : t.insert r = some u) (hk : t.get k = some r') :
    u.get k = some r' := by
  rw [get_of_insert h]
  split
  · next he =>
    have hn := get_eq_none_of_insert h
    rw [he, hk] at hn
    cases hn
  · exact hk

theorem get_update {p : ρ → Bool} {f : ρ → ρ} {hf : ∀ r, key (f r) = key r} :
    (t.update p f hf).get k = (t.get k).map fun r => if p r then f r else r := by
  simp only [get, update, List.find?_map]
  congr 2
  funext r
  simp only [Function.comp_apply]
  split
  · rw [hf]
  · rfl

/-- An update that selects no row leaves the table as it is. -/
theorem update_of_count_eq_zero {p : ρ → Bool} {f : ρ → ρ} {hf : ∀ r, key (f r) = key r}
    (h : t.count p = 0) : t.update p f hf = t := by
  have hp : ∀ r ∈ t.rows, ¬ p r := List.countP_eq_zero.mp h
  have hr : (t.rows.map fun r => if p r then f r else r) = t.rows := by
    conv_rhs => rw [← List.map_id t.rows]
    apply List.map_congr_left
    intro r hr
    simp [hp r hr]
  cases t
  simp only [update, Table.mk.injEq]
  exact hr

theorem get_delete {p : ρ → Bool} : (t.delete p).get k = (t.get k).filter fun r => !p r := by
  apply Option.ext
  intro r
  simp only [get_eq_some_iff, delete, List.mem_filter, Option.filter_eq_some_iff]
  tauto

/-- An update whose condition selects the key `k` rewrites a row exactly when the row
stored under `k` satisfies it. -/
theorem count_eq_of_key {p : ρ → Bool} (hp : ∀ r, p r → key r = k) :
    t.count p = if (t.get k).any p then 1 else 0 := by
  have hle : t.count p ≤ 1 := by
    refine Nat.le_trans (List.countP_mono_left ?_) (count_key_le_one (k := k))
    intro r _ hr
    exact decide_eq_true (hp r hr)
  split
  · next h =>
    obtain ⟨r, hr, hpr⟩ := Option.any_eq_true .. |>.mp h
    have : 0 < t.count p := List.countP_pos_iff.mpr ⟨r, mem_of_get hr, hpr⟩
    omega
  · next h =>
    by_contra hc
    obtain ⟨r, hr, hpr⟩ := List.countP_pos_iff.mp (Nat.pos_of_ne_zero hc)
    apply h
    rw [get_eq_some_iff.mpr ⟨hr, hp r hpr⟩]
    exact hpr

end Keys

end Table

end Qualigence.Foundation
