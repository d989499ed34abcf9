import Mathlib

/-! # Occurrences

Where one list stands in another, how many of its occurrences are found one after the other, and the replacement
of the first of them: `text.count(old)` and `text.replace(old, new, 1)` on lists.

* `occurs_of_count_eq_one`: one occurrence was found; every other one starts within it.
* `replaceFirst_eq`: what the replacement gives. -/

namespace Lib

variable {α : Type}

/-- `old` stands at position `i`. -/
def Occurs (old text : List α) (i : ℕ) : Prop := i ≤ text.length ∧ old <+: text.drop i

/-- No two occurrences share a position. -/
def NoOverlap (old text : List α) : Prop :=
  ∀ i j, Occurs old text i → Occurs old text j → i < j → i + old.length ≤ j

section count

variable [DecidableEq α]

/-- The occurrences that are found from the left, once the next `skip` positions are passed. -/
def countFrom (old : List α) : ℕ → List α → ℕ
  | _, [] => 0
  | skip + 1, _ :: cs => countFrom old skip cs
  | 0, c :: cs =>
      if old.isPrefixOf (c :: cs) then countFrom old (old.length - 1) cs + 1 else countFrom old 0 cs

/-- `text.count(old)`. -/
def countOccurrences (old text : List α) : ℕ := if old = [] then text.length + 1 else countFrom old 0 text

/-- `text.replace(old, new, 1)`. -/
def replaceFirst (old new : List α) : List α → List α
  | [] => if old = [] then new else []
  | c :: cs =>
      if old.isPrefixOf (c :: cs) then new ++ (c :: cs).drop old.length else c :: replaceFirst old new cs

end count

variable {old text : List α} {c : α} {cs : List α} {i : ℕ}

@[simp] theorem occurs_cons_zero : Occurs old (c :: cs) 0 ↔ old <+: c :: cs := by
  simp [Occurs]

@[simp] theorem occurs_cons_succ : Occurs old (c :: cs) (i + 1) ↔ Occurs old cs i := by
  simp [Occurs]

@[simp] theorem occurs_nil : Occurs old [] i ↔ i = 0 ∧ old = [] := by
  simp [Occurs]

theorem occurs_drop {k : ℕ} (hk : k ≤ text.length) : Occurs old (text.drop k) i ↔ Occurs old text (k + i) := by
  rw [Occurs, Occurs, List.drop_drop, List.length_drop]
  constructor
  · rintro ⟨hi, hpre⟩
    exact ⟨by omega, hpre⟩
  · rintro ⟨hi, hpre⟩
    exact ⟨by omega, hpre⟩

/-- The list around an occurrence. -/
theorem Occurs.split (h : Occurs old text i) :
    text = text.take i ++ old ++ text.drop (i + old.length) := by
  obtain ⟨-, rest, hrest⟩ := h
  have hdrop : text.drop (i + old.length) = rest := by
    rw [← List.drop_drop, ← hrest, List.drop_left]
  rw [hdrop, List.append_assoc, hrest, List.take_append_drop]

variable [DecidableEq α]

theorem countFrom_skip (old : List α) (skip : ℕ) (text : List α) :
    countFrom old skip text = countFrom old 0 (text.drop skip) := by
  induction text generalizing skip with
  | nil => cases skip <;> simp [countFrom]
  | cons c cs ih =>
      cases skip with
      | zero => rfl
      | succ skip => rw [countFrom, List.drop_succ_cons, ih]

/-- Where an occurrence is found, the next ones are looked for behind it. -/
theorem countFrom_prefixed (hold : old ≠ []) (h : old <+: c :: cs) :
    countFrom old 0 (c :: cs) = countFrom old 0 ((c :: cs).drop old.length) + 1 := by
  rw [countFrom, if_pos (List.isPrefixOf_iff_prefix.mpr h), countFrom_skip]
  have hlength := List.length_pos_iff.mpr hold
  rw [← Nat.sub_add_cancel hlength, List.drop_succ_cons, Nat.add_sub_cancel]

theorem countFrom_of_not_prefixed (h : ¬ old <+: c :: cs) : countFrom old 0 (c :: cs) = countFrom old 0 cs := by
  rw [countFrom, if_neg (fun hpre => h (List.isPrefixOf_iff_prefix.mp hpre))]

theorem not_occurs_of_countFrom_eq_zero (hold : old ≠ []) (h : countFrom old 0 text = 0) (i : ℕ) :
    ¬ Occurs old text i := by
  induction text generalizing i with
  | nil => exact fun hi => hold (occurs_nil.mp hi).2
  | cons c cs ih =>
      by_cases hpre : old <+: c :: cs
      · rw [countFrom_prefixed hold hpre] at h
        omega
      · rw [countFrom_of_not_prefixed hpre] at h
        cases i with
        | zero => exact fun hi => hpre (occurs_cons_zero.mp hi)
        | succ i => exact fun hi => ih h i (occurs_cons_succ.mp hi)

theorem occurs_of_countFrom_eq_one (hold : old ≠ []) (h : countFrom old 0 text = 1) :
    ∃ i, Occurs old text i ∧ ∀ j, Occurs old text j → j = i ∨ (i < j ∧ j < i + old.length) := by
  induction text with
  | nil => cases h
  | cons c cs ih =>
      by_cases hpre : old <+: c :: cs
      · refine ⟨0, occurs_cons_zero.mpr hpre, ?_⟩
        intro j hj
        rw [countFrom_prefixed hold hpre, Nat.add_eq_right] at h
        have hbehind := not_occurs_of_countFrom_eq_zero hold h (j - old.length)
        rw [occurs_drop hpre.length_le] at hbehind
        by_contra hout
        exact hbehind (by rwa [show old.length + (j - old.length) = j by omega])
      · rw [countFrom_of_not_prefixed hpre] at h
        obtain ⟨i, hi, hother⟩ := ih h
        refine ⟨i + 1, occurs_cons_succ.mpr hi, ?_⟩
        intro j hj
        cases j with
        | zero => exact absurd (occurs_cons_zero.mp hj) hpre
        | succ j =>
            have := hother j (occurs_cons_succ.mp hj)
            omega

/-- If one occurrence is found, every other one starts within it. -/
theorem occurs_of_count_eq_one (h : countOccurrences old text = 1) :
    ∃ i, Occurs old text i ∧ ∀ j, Occurs old text j → j = i ∨ (i < j ∧ j < i + old.length) := by
  rw [countOccurrences] at h
  split at h
  next hnil =>
    obtain rfl := List.length_eq_zero_iff.mp (Nat.add_eq_right.mp h)
    exact ⟨0, occurs_nil.mpr ⟨rfl, hnil⟩, fun j hj => .inl (occurs_nil.mp hj).1⟩
  next hold => exact occurs_of_countFrom_eq_one hold h

/-- The first occurrence is replaced. -/
theorem replaceFirst_eq {new : List α} (h : Occurs old text i) (hfirst : ∀ j, Occurs old text j → i ≤ j) :
    replaceFirst old new text = text.take i ++ new ++ text.drop (i + old.length) := by
  induction text generalizing i with
  | nil =>
      obtain ⟨rfl, rfl⟩ := occurs_nil.mp h
      simp [replaceFirst]
  | cons c cs ih =>
      rw [replaceFirst]
      split_ifs with hpre
      · have hzero := hfirst 0 (occurs_cons_zero.mpr (List.isPrefixOf_iff_prefix.mp hpre))
        obtain rfl := Nat.le_zero.mp hzero
        simp
      · cases i with
        | zero => exact absurd (List.isPrefixOf_iff_prefix.mpr (occurs_cons_zero.mp h)) hpre
        | succ i =>
            rw [ih (occurs_cons_succ.mp h)
              (fun j hj => Nat.le_of_succ_le_succ (hfirst (j + 1) (occurs_cons_succ.mpr hj)))]
            rw [Nat.add_right_comm, List.take_succ_cons, List.drop_succ_cons]
            rfl

end Lib
