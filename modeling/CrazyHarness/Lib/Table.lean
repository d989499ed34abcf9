import Mathlib

/-! # Tables with a primary key

A `Table key` is the content of a relational table: its rows in insertion order, no two of
them with the same primary key.  The uniqueness is a field of the structure, so a table
with two rows under one key cannot be built and no later proof has to argue it again.

* `lookup`, `insertNew`, `insertIgnore`, `updateWhere`, `upsert` are the statements
  `SELECT … WHERE key = ?`, `INSERT`, `INSERT OR IGNORE`, `UPDATE … WHERE` and
  `INSERT … ON CONFLICT(key) DO UPDATE`.
* `total` is `SUM` over the rows; `total_change` says how one changed row moves it. -/

namespace Lib

/-- Rows in insertion order, no two with the same key. -/
structure Table {ρ κ : Type*} (key : ρ → κ) where
  rows : List ρ
  nodup : (rows.map key).Nodup

namespace Table

variable {ρ κ : Type*} {key : ρ → κ}

@[ext] theorem ext {t u : Table key} (h : t.rows = u.rows) : t = u := by
  cases t; cases u; cases h; rfl

/-- The table without rows. -/
def empty : Table key := ⟨[], List.nodup_nil⟩

instance [DecidableEq ρ] : DecidableEq (Table key) := fun t u =>
  decidable_of_iff (t.rows = u.rows) ⟨ext, congrArg rows⟩

theorem eq_of_key_eq (t : Table key) {r s : ρ} (hr : r ∈ t.rows) (hs : s ∈ t.rows)
    (h : key r = key s) : r = s :=
  List.inj_on_of_nodup_map t.nodup hr hs h

/-! ### Updates and sums -/

/-- `UPDATE … SET f WHERE p`, where `f` leaves the key of the rows it changes alone. -/
def updateWhere (t : Table key) (p : ρ → Prop) [DecidablePred p] (f : ρ → ρ)
    (hf : ∀ r, p r → key (f r) = key r) : Table key where
  rows := t.rows.map (fun r => if p r then f r else r)
  nodup := by
    have hkeys : key ∘ (fun r => if p r then f r else r) = key := by
      funext r
      by_cases h : p r
      · simp [h, hf r h]
      · simp [h]
    rw [List.map_map, hkeys]
    exact t.nodup

/-- The number of rows an `UPDATE … WHERE p` touches. -/
def rowcount (t : Table key) (p : ρ → Prop) [DecidablePred p] : ℕ := t.rows.countP (fun r => p r)

theorem mem_updateWhere {t : Table key} {p : ρ → Prop} [DecidablePred p] {f : ρ → ρ}
    {hf : ∀ r, p r → key (f r) = key r} {s : ρ} :
    s ∈ (t.updateWhere p f hf).rows ↔ ∃ r ∈ t.rows, (if p r then f r else r) = s := by
  simp [updateWhere]

section total

variable {M : Type*} [AddCommGroup M]

/-- `SUM(w)` over all rows. -/
def total (t : Table key) (w : ρ → M) : M := (t.rows.map w).sum

@[simp] theorem total_empty (w : ρ → M) : (empty : Table key).total w = 0 := rfl

theorem total_add (t : Table key) (w w' : ρ → M) :
    t.total (fun r => w r + w' r) = t.total w + t.total w' := by
  simp [total, List.sum_map_add]

theorem total_updateWhere (t : Table key) (p : ρ → Prop) [DecidablePred p] (f : ρ → ρ)
    (hf : ∀ r, p r → key (f r) = key r) (w : ρ → M) :
    (t.updateWhere p f hf).total w = t.total (fun r => w (if p r then f r else r)) := by
  simp [total, updateWhere, Function.comp_def]

end total

theorem total_le_total {t : Table key} {w w' : ρ → ℤ} (h : ∀ r ∈ t.rows, w r ≤ w' r) :
    t.total w ≤ t.total w' :=
  List.sum_le_sum h

section keyed

variable [DecidableEq κ]

/-! ### Reading -/

/-- The row stored under the key `k`. -/
def lookup (t : Table key) (k : κ) : Option ρ := t.rows.find? (fun r => key r = k)

@[simp] theorem lookup_empty (k : κ) : (empty : Table key).lookup k = none := rfl

theorem key_of_lookup {t : Table key} {k : κ} {r : ρ} (h : t.lookup k = some r) : key r = k := by
  simpa using List.find?_some h

theorem mem_of_lookup {t : Table key} {k : κ} {r : ρ} (h : t.lookup k = some r) : r ∈ t.rows :=
  List.mem_of_find?_eq_some h

theorem lookup_of_mem {t : Table key} {r : ρ} (h : r ∈ t.rows) : t.lookup (key r) = some r := by
  cases hl : t.lookup (key r) with
  | none =>
      have := List.find?_eq_none.mp hl r h
      simp at this
  | some s => rw [t.eq_of_key_eq (mem_of_lookup hl) h (key_of_lookup hl)]

theorem lookup_eq_some_iff {t : Table key} {k : κ} {r : ρ} :
    t.lookup k = some r ↔ r ∈ t.rows ∧ key r = k := by
  constructor
  · intro h
    exact ⟨mem_of_lookup h, key_of_lookup h⟩
  · rintro ⟨hm, rfl⟩
    exact lookup_of_mem hm

theorem lookup_eq_none_iff {t : Table key} {k : κ} :
    t.lookup k = none ↔ ∀ r ∈ t.rows, key r ≠ k := by
  simp [lookup, List.find?_eq_none]

/-! ### Writing -/

/-- `INSERT`: a row whose key is not taken goes to the end. -/
def insertNew (t : Table key) (r : ρ) (h : t.lookup (key r) = none) : Table key where
  rows := t.rows ++ [r]
  nodup := by
    rw [List.map_append, List.map_singleton, List.nodup_append]
    refine ⟨t.nodup, List.nodup_singleton _, ?_⟩
    intro k hk k' hk' heq
    obtain ⟨s, hs, rfl⟩ := List.mem_map.mp hk
    rw [List.mem_singleton.mp hk'] at heq
    exact lookup_eq_none_iff.mp h s hs heq

/-- `INSERT OR IGNORE`: an existing row under the key stays as it is. -/
def insertIgnore (t : Table key) (r : ρ) : Table key :=
  if h : t.lookup (key r) = none then t.insertNew r h else t

/-- `INSERT … ON CONFLICT(key) DO UPDATE` of the whole row. -/
def upsert (t : Table key) (r : ρ) : Table key :=
  if h : t.lookup (key r) = none then t.insertNew r h
  else t.updateWhere (fun s => key s = key r) (fun _ => r) (fun _ hs => hs.symm)

/-- `DELETE … WHERE key = k`. -/
def delete (t : Table key) (k : κ) : Table key where
  rows := t.rows.filter (fun r => key r ≠ k)
  nodup := t.nodup.sublist (List.filter_sublist.map key)

theorem mem_delete {t : Table key} {k : κ} {r : ρ} :
    r ∈ (t.delete k).rows ↔ r ∈ t.rows ∧ key r ≠ k := by
  simp [delete]

theorem mem_insertNew {t : Table key} {r s : ρ} {h : t.lookup (key r) = none} :
    s ∈ (t.insertNew r h).rows ↔ s ∈ t.rows ∨ s = r := by
  simp [insertNew]

theorem lookup_insertNew (t : Table key) (r : ρ) (h : t.lookup (key r) = none) (k : κ) :
    (t.insertNew r h).lookup k = if k = key r then some r else t.lookup k := by
  by_cases hk : k = key r
  · subst hk
    simp only [if_true]
    exact lookup_eq_some_iff.mpr ⟨mem_insertNew.mpr (.inr rfl), rfl⟩
  · have hne : ¬ key r = k := fun e => hk e.symm
    simp [lookup, insertNew, List.find?_append, hk, hne]

theorem lookup_insertIgnore (t : Table key) (r : ρ) (k : κ) :
    (t.insertIgnore r).lookup k =
      if k = key r then some ((t.lookup (key r)).getD r) else t.lookup k := by
  unfold insertIgnore
  split
  next h => rw [lookup_insertNew, h, Option.getD_none]
  next h =>
    split
    next hk =>
      subst hk
      obtain ⟨s, hs⟩ := Option.ne_none_iff_exists'.mp h
      rw [hs, Option.getD_some]
    next => rfl

theorem lookup_updateWhere (t : Table key) (p : ρ → Prop) [DecidablePred p] (f : ρ → ρ)
    (hf : ∀ r, p r → key (f r) = key r) (k : κ) :
    (t.updateWhere p f hf).lookup k = (t.lookup k).map (fun r => if p r then f r else r) := by
  have hkeys : ∀ r, key (if p r then f r else r) = key r := by
    intro r
    by_cases h : p r
    · simp [h, hf r h]
    · simp [h]
  simp only [lookup, updateWhere, List.find?_map, Function.comp_def, hkeys]

theorem lookup_upsert (t : Table key) (r : ρ) (k : κ) :
    (t.upsert r).lookup k = if k = key r then some r else t.lookup k := by
  unfold upsert
  split
  next h => exact lookup_insertNew t r h k
  next h =>
    rw [lookup_updateWhere]
    by_cases hk : k = key r
    · subst hk
      obtain ⟨s, hs⟩ := Option.ne_none_iff_exists'.mp h
      simp [hs, key_of_lookup hs]
    · cases hl : t.lookup k with
      | none => simp [hk]
      | some s =>
          have hs : ¬ key s = key r := fun e => hk ((key_of_lookup hl).symm.trans e)
          simp [hk, hs]

@[simp] theorem lookup_upsert_self (t : Table key) (r : ρ) :
    (t.upsert r).lookup (key r) = some r := by
  simp [lookup_upsert]

theorem lookup_upsert_ne (t : Table key) (r : ρ) {k : κ} (h : k ≠ key r) :
    (t.upsert r).lookup k = t.lookup k := by
  simp [lookup_upsert, h]

theorem mem_upsert {t : Table key} {r s : ρ} (h : s ∈ (t.upsert r).rows) :
    s = r ∨ s ∈ t.rows ∧ key s ≠ key r := by
  have hl := lookup_of_mem h
  rw [lookup_upsert] at hl
  by_cases hk : key s = key r
  · rw [if_pos hk] at hl
    exact .inl (Option.some.inj hl).symm
  · rw [if_neg hk] at hl
    exact .inr ⟨mem_of_lookup hl, hk⟩

/-! ### Sums and single rows -/

theorem total_insertNew {M : Type*} [AddCommGroup M] (t : Table key) (r : ρ)
    (h : t.lookup (key r) = none) (w : ρ → M) :
    (t.insertNew r h).total w = t.total w + w r := by
  simp [total, insertNew]

/-- Two weights that differ only at the row under `k` have totals that differ by that row. -/
theorem total_change {M : Type*} [AddCommGroup M] {t : Table key} {k : κ} {r : ρ}
    (h : t.lookup k = some r) (w w' : ρ → M) (hw : ∀ s ∈ t.rows, key s ≠ k → w' s = w s) :
    t.total w' = t.total w - w r + w' r := by
  obtain ⟨pre, post, hsplit⟩ := List.append_of_mem (mem_of_lookup h)
  have hkr := key_of_lookup h
  have hnd := t.nodup
  rw [hsplit, List.map_append, List.map_cons, List.nodup_middle, List.nodup_cons] at hnd
  have hother : ∀ s ∈ pre ++ post, key s ≠ k := by
    intro s hs hk
    apply hnd.1
    rw [← List.map_append, hkr, ← hk]
    exact List.mem_map_of_mem hs
  have hpre : (pre.map w').sum = (pre.map w).sum := by
    refine congrArg List.sum (List.map_congr_left ?_)
    intro s hs
    refine hw s (by rw [hsplit]; simp [hs]) (hother s (List.mem_append_left _ hs))
  have hpost : (post.map w').sum = (post.map w).sum := by
    refine congrArg List.sum (List.map_congr_left ?_)
    intro s hs
    refine hw s (by rw [hsplit]; simp [hs]) (hother s (List.mem_append_right _ hs))
  simp only [total, hsplit, List.map_append, List.map_cons, List.sum_append, List.sum_cons,
    hpre, hpost]
  abel

end keyed

end Table

end Lib
