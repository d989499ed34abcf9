import Mathlib

/-! # Sorted lists and their order statistics

What a sorted list depends on, and what its entries say about the list that was sorted.

* `insertionSort_eq_of_perm`: sorting forgets the order, where no two members tie.
* `insertionSort_map_antitone`: an antitone map turns the sorted list around.
* `countP_lt_getElem_le`: at most `i` entries lie below the entry of rank `i`.
* `floor_add_ceil`: the floor of a fraction of `n` and the ceiling of the rest make `n`. -/

namespace Lib

variable {α : Type*}

/-! ### What is sorted -/

theorem insertionSort_eq_of_perm {r : α → α → Prop} [DecidableRel r] [Std.Total r] [IsTrans α r]
    {xs ys : List α} (h : xs.Perm ys) (hr : ∀ a ∈ xs, ∀ b ∈ xs, r a b → r b a → a = b) :
    xs.insertionSort r = ys.insertionSort r := by
  refine List.Perm.eq_of_pairwise ?_ (List.pairwise_insertionSort r xs) (List.pairwise_insertionSort r ys)
    ((List.perm_insertionSort r xs).trans (h.trans (List.perm_insertionSort r ys).symm))
  intro a b ha hb hab hba
  have hb' := h.symm.subset ((List.mem_insertionSort r).mp hb)
  exact hr a ((List.mem_insertionSort r).mp ha) b hb' hab hba

/-- Two sorted lists with the same members are equal, where the order tells the members apart. -/
theorem sorted_eq_of_mem_iff {r : α → α → Prop} [DecidableRel r] [Std.Total r] [IsTrans α r]
    {xs ys : List α} (hxs : xs.Nodup) (hys : ys.Nodup) (hmem : ∀ a, a ∈ xs ↔ a ∈ ys)
    (hr : ∀ a ∈ xs, ∀ b ∈ xs, r a b → r b a → a = b) : xs.insertionSort r = ys.insertionSort r :=
  insertionSort_eq_of_perm ((List.perm_ext_iff_of_nodup hxs hys).mpr hmem) hr

/-- The members of a list that are in another one, and those that are not. -/
theorem perm_append_filter_not_mem [DecidableEq α] {part whole : List α} (hpart : part.Nodup)
    (hwhole : whole.Nodup) (hsub : ∀ a ∈ part, a ∈ whole) :
    (part ++ whole.filter (· ∉ part)).Perm whole := by
  refine (List.perm_ext_iff_of_nodup ?_ hwhole).mpr ?_
  · refine List.nodup_append.mpr ⟨hpart, hwhole.filter _, ?_⟩
    rintro a ha b hb rfl
    simp only [List.mem_filter, decide_eq_true_eq] at hb
    exact hb.2 ha
  · intro a
    rw [List.mem_append, List.mem_filter, decide_eq_true_eq]
    constructor
    · rintro (ha | ⟨ha, _⟩)
      · exact hsub a ha
      · exact ha
    · intro ha
      by_cases hin : a ∈ part
      · exact .inl hin
      · exact .inr ⟨ha, hin⟩

/-! ### Order statistics -/

section Rank

variable [LinearOrder α]

theorem insertionSort_map_antitone {β : Type*} [LinearOrder β] {f : α → β} (hf : Antitone f) (xs : List α) :
    (xs.map f).insertionSort (· ≤ ·) = ((xs.insertionSort (· ≤ ·)).map f).reverse := by
  refine List.Perm.eq_of_pairwise (fun _ _ _ _ hab hba => le_antisymm hab hba)
    (List.pairwise_insertionSort _ _) ?_ ?_
  · rw [List.pairwise_reverse, List.pairwise_map]
    exact (List.pairwise_insertionSort (· ≤ ·) xs).imp (fun hab => hf hab)
  · have hmap : (xs.map f).Perm ((xs.insertionSort (· ≤ ·)).map f) :=
      ((List.perm_insertionSort (· ≤ ·) xs).map f).symm
    exact (List.perm_insertionSort _ _).trans (hmap.trans (List.reverse_perm _).symm)

theorem getElem_insertionSort_mono {xs : List α} {i j : ℕ} (hij : i ≤ j)
    (hj : j < (xs.insertionSort (· ≤ ·)).length) :
    (xs.insertionSort (· ≤ ·))[i] ≤ (xs.insertionSort (· ≤ ·))[j] := by
  rcases hij.eq_or_lt with rfl | hij
  · exact le_refl _
  · exact List.pairwise_iff_getElem.mp (List.pairwise_insertionSort (· ≤ ·) xs) i j _ hj hij

/-- At most `i` entries lie below the entry of rank `i`. -/
theorem countP_lt_getElem_le {xs : List α} {i : ℕ} (hi : i < (xs.insertionSort (· ≤ ·)).length) :
    xs.countP (· < (xs.insertionSort (· ≤ ·))[i]) ≤ i := by
  set sorted := xs.insertionSort (· ≤ ·) with hsorted
  -- What stands at rank `i` or after it is not below the entry there.
  have hdrop : (sorted.drop i).countP (· < sorted[i]) = 0 := by
    rw [List.countP_eq_zero]
    intro a ha
    obtain ⟨j, hj, rfl⟩ := List.mem_iff_getElem.mp ha
    rw [List.getElem_drop, decide_eq_true_eq, not_lt]
    exact getElem_insertionSort_mono (Nat.le_add_right i j) _
  calc xs.countP (· < sorted[i])
      = sorted.countP (· < sorted[i]) := ((List.perm_insertionSort _ xs).countP_eq _).symm
    _ = (sorted.take i ++ sorted.drop i).countP (· < sorted[i]) := by rw [List.take_append_drop]
    _ = (sorted.take i).countP (· < sorted[i]) := by rw [List.countP_append, hdrop, Nat.add_zero]
    _ ≤ (sorted.take i).length := List.countP_le_length
    _ ≤ i := List.length_take_le i sorted

end Rank

/-! ### Ranks from fractions -/

theorem floor_add_ceil {t d n : ℕ} (hd : 0 < d) (ht : t ≤ d) :
    t * n / d + ((d - t) * n + d - 1) / d = n := by
  have htn : t * n ≤ d * n := Nat.mul_le_mul_right n ht
  have hle : t * n / d ≤ n := Nat.div_le_of_le_mul htn
  have hmod := Nat.div_add_mod (t * n) d
  have hlt := Nat.mod_lt (t * n) hd
  generalize t * n / d = q at hle hmod ⊢
  generalize t * n % d = r at hmod hlt
  rw [← hmod] at htn
  have hq : d * q ≤ d * n := Nat.mul_le_mul_left d hle
  -- What the floor leaves over is what the ceiling rounds up.
  have hsplit : (d - t) * n + d - 1 = (d - 1 - r) + (n - q) * d := by
    rw [Nat.sub_mul, Nat.sub_mul, Nat.mul_comm n d, Nat.mul_comm q d, ← hmod]
    omega
  have hsmall : (d - 1 - r) / d = 0 := Nat.div_eq_of_lt (by omega)
  rw [hsplit, Nat.add_mul_div_right _ _ hd, hsmall]
  omega

end Lib
