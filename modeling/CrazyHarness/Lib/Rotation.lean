import Mathlib

/-! # Round robin

A queue that is searched from its head: the entries before the one that is served are passed over,
and the queue goes on behind it.

* `Turn.waits_behind`: whoever is served waits behind everyone else.
* `Turn.keeps_waiting`: an entry before another stays before it, and the other is not served, as
  long as it is neither served nor passed over.
* `turn_rotate`: a list that is searched from a cursor, where the cursor moves past what was found,
  is such a queue. -/

namespace Lib

variable {α : Type*} {queue queue' passed : List α} {x v w : α}

/-- `x` is served after `passed`. -/
def Turn (passed : List α) (x : α) (queue queue' : List α) : Prop :=
  ∃ rest, queue = passed ++ x :: rest ∧ queue' = rest ++ (passed ++ [x])

/-- `v` waits before `w`. -/
def WaitsBefore (v w : α) (queue : List α) : Prop := List.Sublist [v, w] queue

/-- Whoever is served waits behind everyone else. -/
theorem Turn.waits_behind (h : Turn passed x queue queue') (hv : v ∈ queue) (hne : v ≠ x) :
    WaitsBefore v x queue' := by
  obtain ⟨rest, rfl, rfl⟩ := h
  have hmem : v ∈ rest ++ passed := by
    rcases List.mem_append.mp hv with hpassed | hrest
    · exact List.mem_append_right rest hpassed
    · rcases List.mem_cons.mp hrest with rfl | hrest
      · exact absurd rfl hne
      · exact List.mem_append_left passed hrest
  rw [← List.append_assoc]
  exact (List.singleton_sublist.mpr hmem).append (List.Sublist.refl [x])

/-- What waits behind an entry that is still to come is still to come. -/
theorem WaitsBefore.of_not_mem_left {front back : List α} (h : WaitsBefore v w (front ++ back))
    (hv : v ∉ front) : WaitsBefore v w back := by
  obtain ⟨l₁, l₂, hsplit, h₁, h₂⟩ := List.sublist_append_iff.mp h
  cases l₁ with
  | nil =>
      rw [List.nil_append] at hsplit
      rw [WaitsBefore, hsplit]
      exact h₂
  | cons a l₁ =>
      obtain ⟨rfl, -⟩ := List.cons.inj hsplit
      exact absurd (h₁.subset List.mem_cons_self) hv

/-- An entry before another stays there until it is served or passed over. -/
theorem Turn.keeps_waiting (h : Turn passed x queue queue') (hnodup : queue.Nodup)
    (hwaits : WaitsBefore v w queue) (hpassed : v ∉ passed) (hne : x ≠ v) :
    x ≠ w ∧ WaitsBefore v w queue' := by
  obtain ⟨rest, rfl, rfl⟩ := h
  have hrest : WaitsBefore v w rest := by
    have hfront : v ∉ passed ++ [x] := by
      rw [List.mem_append, List.mem_singleton]
      rintro (hv | hv)
      · exact hpassed hv
      · exact hne hv.symm
    refine WaitsBefore.of_not_mem_left ?_ hfront
    rw [List.append_assoc, List.singleton_append]
    exact hwaits
  refine ⟨?_, hrest.trans (List.sublist_append_left rest _)⟩
  rintro rfl
  have hx : x ∈ rest := hrest.subset (by simp)
  have hfresh := (List.nodup_append.mp hnodup).2.1
  exact (List.nodup_cons.mp hfresh).1 hx

/-- A cursor that moves past what was found turns the queue. -/
theorem turn_rotate {l rest : List α} {cursor : ℕ} (h : l.rotate cursor = passed ++ x :: rest) :
    Turn passed x (l.rotate cursor) (l.rotate (cursor + passed.length + 1)) := by
  refine ⟨rest, h, ?_⟩
  have hlength : passed.length + 1 = (passed ++ [x]).length := by simp
  have happend : passed ++ x :: rest = (passed ++ [x]) ++ rest := by simp
  rw [add_assoc, ← List.rotate_rotate, h, hlength, happend, List.rotate_append_length_eq]

end Lib
