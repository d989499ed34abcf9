import CrazyHarness.Lib.Table

/-! # Layered tables

Several owners lay rows of their own over a base table.  An owner replaces what it has laid by deleting
its old keys and inserting its new rows.

* `Layered`: no two owners have a key in common, none has one of the base; each owner's rows are in the
  table, and under every other key the table is the base.
* `Layered.replace`: a replacement by rows whose keys are free, or the owner's already, keeps that.
* `Layered.lookup_eq`: two tables with the same rows laid over the same base have the same content. -/

namespace Lib

namespace Table

variable {ρ κ : Type*} {key : ρ → κ} [DecidableEq κ]

theorem lookup_delete (t : Table key) (k k' : κ) :
    (t.delete k).lookup k' = if k' = k then none else t.lookup k' := by
  by_cases hk : k' = k
  · subst hk
    rw [if_pos rfl, lookup_eq_none_iff]
    intro r hr
    exact (mem_delete.mp hr).2
  · rw [if_neg hk]
    cases hl : t.lookup k' with
    | none =>
        rw [lookup_eq_none_iff] at hl ⊢
        intro r hr
        exact hl r (mem_delete.mp hr).1
    | some r =>
        have hkey := key_of_lookup hl
        have hmem : r ∈ (t.delete k).rows := mem_delete.mpr ⟨mem_of_lookup hl, by rw [hkey]; exact hk⟩
        exact lookup_eq_some_iff.mpr ⟨hmem, hkey⟩

/-- The table without the keys `ks`. -/
def deleteAll (t : Table key) (ks : List κ) : Table key := ks.foldl delete t

theorem lookup_deleteAll (t : Table key) (ks : List κ) (k : κ) :
    (t.deleteAll ks).lookup k = if k ∈ ks then none else t.lookup k := by
  induction ks generalizing t with
  | nil => simp [deleteAll]
  | cons k' ks ih =>
      have hstep : t.deleteAll (k' :: ks) = (t.delete k').deleteAll ks := rfl
      rw [hstep, ih, lookup_delete]
      by_cases hks : k ∈ ks
      · simp [hks]
      · simp [hks]

/-- The table with the rows `rs` in the place of those under their keys. -/
def upsertAll (t : Table key) (rs : List ρ) : Table key := rs.foldl upsert t

theorem lookup_upsertAll_of_not_mem (t : Table key) {rs : List ρ} {k : κ} (h : ∀ r ∈ rs, key r ≠ k) :
    (t.upsertAll rs).lookup k = t.lookup k := by
  induction rs generalizing t with
  | nil => rfl
  | cons r rs ih =>
      have hrest := ih (t.upsert r) (fun s hs => h s (List.mem_cons_of_mem r hs))
      have hne := h r List.mem_cons_self
      exact hrest.trans (lookup_upsert_ne t r (Ne.symm hne))

theorem lookup_upsertAll_of_mem (t : Table key) {rs : List ρ} (hnodup : (rs.map key).Nodup) {r : ρ}
    (h : r ∈ rs) : (t.upsertAll rs).lookup (key r) = some r := by
  induction rs generalizing t with
  | nil => cases h
  | cons s rs ih =>
      rw [List.map_cons, List.nodup_cons] at hnodup
      have hstep : t.upsertAll (s :: rs) = (t.upsert s).upsertAll rs := rfl
      rw [hstep]
      rcases List.mem_cons.mp h with rfl | h
      · have hfirst : ∀ r' ∈ rs, key r' ≠ key r := by
          intro r' hr' heq
          exact hnodup.1 (heq ▸ List.mem_map_of_mem hr')
        rw [lookup_upsertAll_of_not_mem _ hfirst, lookup_upsert_self]
      · exact ih (t.upsert s) hnodup.2 h

end Table

section layers

variable {ι ρ κ : Type*} {key : ρ → κ} [DecidableEq κ]

/-- The table is the base with the rows of the owners laid over it. -/
structure Layered (base t : Table key) (rows : ι → List ρ) : Prop where
  nodup : ∀ i, ((rows i).map key).Nodup
  disjoint : ∀ i j, i ≠ j → ∀ r ∈ rows i, ∀ s ∈ rows j, key r ≠ key s
  fresh : ∀ i, ∀ r ∈ rows i, base.lookup (key r) = none
  shows : ∀ i, ∀ r ∈ rows i, t.lookup (key r) = some r
  below : ∀ k, (∀ i, ∀ r ∈ rows i, key r ≠ k) → t.lookup k = base.lookup k

namespace Layered

variable {base t : Table key} {rows : ι → List ρ}

/-- Without owners' rows the base is all there is. -/
theorem base_only (base : Table key) : Layered base base (fun _ : ι => []) where
  nodup _ := List.nodup_nil
  disjoint _ _ _ _ hr := absurd hr List.not_mem_nil
  fresh _ _ hr := absurd hr List.not_mem_nil
  shows _ _ hr := absurd hr List.not_mem_nil
  below _ _ := rfl

/-- **A replacement keeps the layers.** The new rows of one owner have keys of their own, each of which
was free or the owner's. -/
theorem replace [DecidableEq ι] (h : Layered base t rows) {i : ι} {old : List κ} {new : List ρ}
    (hold : ∀ k, k ∈ old ↔ ∃ r ∈ rows i, key r = k) (hnodup : (new.map key).Nodup)
    (hfree : ∀ r ∈ new, t.lookup (key r) = none ∨ key r ∈ old) :
    Layered base ((t.deleteAll old).upsertAll new) (Function.update rows i new) := by
  have hother : ∀ j, j ≠ i → ∀ s ∈ rows j, key s ∉ old ∧ ∀ r ∈ new, key r ≠ key s := by
    intro j hj s hs
    have hnotOld : key s ∉ old := by
      intro hmem
      obtain ⟨r, hr, heq⟩ := (hold _).mp hmem
      exact h.disjoint j i hj s hs r hr heq.symm
    refine ⟨hnotOld, ?_⟩
    intro r hr heq
    rcases hfree r hr with hnone | hmem
    · rw [heq, h.shows j s hs] at hnone
      cases hnone
    · exact hnotOld (heq ▸ hmem)
  have hnewFresh : ∀ r ∈ new, base.lookup (key r) = none := by
    intro r hr
    rcases hfree r hr with hnone | hmem
    · by_cases howned : ∃ j, ∃ s ∈ rows j, key s = key r
      · obtain ⟨j, s, hs, heq⟩ := howned
        rw [← heq]
        exact h.fresh j s hs
      · rw [← h.below (key r) (fun j s hs heq => howned ⟨j, s, hs, heq⟩)]
        exact hnone
    · obtain ⟨s, hs, heq⟩ := (hold _).mp hmem
      rw [← heq]
      exact h.fresh i s hs
  constructor
  case nodup =>
    intro j
    by_cases hj : j = i
    · subst hj
      rw [Function.update_self]
      exact hnodup
    · rw [Function.update_of_ne hj]
      exact h.nodup j
  case disjoint =>
    intro j k hjk r hr s hs heq
    by_cases hj : j = i
    · subst hj
      rw [Function.update_self] at hr
      rw [Function.update_of_ne (Ne.symm hjk)] at hs
      exact (hother k (Ne.symm hjk) s hs).2 r hr heq
    · rw [Function.update_of_ne hj] at hr
      by_cases hk : k = i
      · subst hk
        rw [Function.update_self] at hs
        exact (hother j hj r hr).2 s hs heq.symm
      · rw [Function.update_of_ne hk] at hs
        exact h.disjoint j k hjk r hr s hs heq
  case fresh =>
    intro j r hr
    by_cases hj : j = i
    · subst hj
      rw [Function.update_self] at hr
      exact hnewFresh r hr
    · rw [Function.update_of_ne hj] at hr
      exact h.fresh j r hr
  case shows =>
    intro j r hr
    by_cases hj : j = i
    · subst hj
      rw [Function.update_self] at hr
      exact Table.lookup_upsertAll_of_mem _ hnodup hr
    · rw [Function.update_of_ne hj] at hr
      obtain ⟨hnotOld, hnotNew⟩ := hother j hj r hr
      rw [Table.lookup_upsertAll_of_not_mem _ hnotNew, Table.lookup_deleteAll, if_neg hnotOld]
      exact h.shows j r hr
  case below =>
    intro k hk
    have hnotNew : ∀ r ∈ new, key r ≠ k := by
      intro r hr
      exact hk i r (by rw [Function.update_self]; exact hr)
    rw [Table.lookup_upsertAll_of_not_mem _ hnotNew, Table.lookup_deleteAll]
    by_cases hmem : k ∈ old
    · obtain ⟨s, hs, heq⟩ := (hold k).mp hmem
      rw [if_pos hmem, ← heq, h.fresh i s hs]
    · rw [if_neg hmem]
      refine h.below k ?_
      intro j r hr heq
      by_cases hj : j = i
      · subst hj
        exact hmem ((hold k).mpr ⟨r, hr, heq⟩)
      · exact hk j r (by rw [Function.update_of_ne hj]; exact hr) heq

/-- The rows and the base are all that a lookup depends on. -/
theorem lookup_eq {t' : Table key} (h : Layered base t rows) (h' : Layered base t' rows) (k : κ) :
    t.lookup k = t'.lookup k := by
  by_cases howned : ∃ i, ∃ r ∈ rows i, key r = k
  · obtain ⟨i, r, hr, rfl⟩ := howned
    rw [h.shows i r hr, h'.shows i r hr]
  · have hbelow : ∀ i, ∀ r ∈ rows i, key r ≠ k := fun i r hr heq => howned ⟨i, r, hr, heq⟩
    rw [h.below k hbelow, h'.below k hbelow]

end Layered

end layers

end Lib
