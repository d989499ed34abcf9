import Mathlib

/-! # Successful runs of fallible computations

What it means for a chain of `Except` computations to succeed: every link did.  `ensure`
is the check that raises when its condition fails. -/

namespace Lib

universe u v

variable {ε : Type u} {α β : Type v}

theorem bind_ok_iff {x : Except ε α} {f : α → Except ε β} {b : β} :
    (x >>= f) = .ok b ↔ ∃ a, x = .ok a ∧ f a = .ok b := by
  cases x with
  | error e =>
      constructor
      · intro h
        cases h
      · rintro ⟨a, h, _⟩
        cases h
  | ok a =>
      constructor
      · intro h
        exact ⟨a, rfl, h⟩
      · rintro ⟨a', h, hf⟩
        obtain rfl := Except.ok.inj h
        exact hf

@[simp] theorem ok_bind (a : α) (f : α → Except ε β) : ((.ok a : Except ε α) >>= f) = f a := rfl

@[simp] theorem error_bind (e : ε) (f : α → Except ε β) :
    ((.error e : Except ε α) >>= f) = .error e := rfl

@[simp] theorem pure_eq_ok (a : α) : (pure a : Except ε α) = .ok a := rfl

/-- Raise `e` unless `p` holds. -/
def ensure (p : Prop) [Decidable p] (e : ε) : Except ε PUnit.{v + 1} :=
  if p then .ok ⟨⟩ else .error e

@[simp] theorem ensure_ok_iff {p : Prop} [Decidable p] {e : ε} {u : PUnit.{v + 1}} :
    ensure p e = .ok u ↔ p := by
  unfold ensure
  split <;> simp_all

/-- A traversal that succeeds has succeeded at every element. -/
theorem mem_of_mapM_ok {f : α → Except ε β} {xs : List α} {ys : List β} (h : xs.mapM f = .ok ys)
    {x : α} (hx : x ∈ xs) : ∃ y ∈ ys, f x = .ok y := by
  induction xs generalizing ys with
  | nil => cases hx
  | cons a xs ih =>
      rw [List.mapM_cons] at h
      obtain ⟨b, hb, h⟩ := bind_ok_iff.mp h
      obtain ⟨bs, hbs, h⟩ := bind_ok_iff.mp h
      obtain rfl := Except.ok.inj h
      rcases List.mem_cons.mp hx with rfl | hx
      · exact ⟨b, List.mem_cons_self, hb⟩
      · obtain ⟨y, hy, hf⟩ := ih hbs hx
        exact ⟨y, List.mem_cons_of_mem b hy, hf⟩

/-- What a traversal returns comes from one of its elements. -/
theorem exists_of_mapM_ok {f : α → Except ε β} {xs : List α} {ys : List β}
    (h : xs.mapM f = .ok ys) {y : β} (hy : y ∈ ys) : ∃ x ∈ xs, f x = .ok y := by
  induction xs generalizing ys with
  | nil =>
      obtain rfl := Except.ok.inj h
      cases hy
  | cons x xs ih =>
      rw [List.mapM_cons] at h
      obtain ⟨z, hz, h⟩ := bind_ok_iff.mp h
      obtain ⟨zs, hzs, h⟩ := bind_ok_iff.mp h
      obtain rfl := Except.ok.inj h
      rcases List.mem_cons.mp hy with rfl | hy
      · exact ⟨x, List.mem_cons_self, hz⟩
      · obtain ⟨x', hx', hfx⟩ := ih hzs hy
        exact ⟨x', List.mem_cons_of_mem x hx', hfx⟩

/-- A traversal fails with the exception of one of its elements. -/
theorem exists_of_mapM_error {f : α → Except ε β} {xs : List α} {e : ε} (h : xs.mapM f = .error e) :
    ∃ x ∈ xs, f x = .error e := by
  induction xs with
  | nil => cases h
  | cons x xs ih =>
      rw [List.mapM_cons] at h
      cases hx : f x with
      | error e' =>
          rw [hx, error_bind] at h
          obtain rfl := Except.error.inj h
          exact ⟨x, List.mem_cons_self, hx⟩
      | ok y =>
          rw [hx, ok_bind] at h
          cases hxs : xs.mapM f with
          | error e' =>
              rw [hxs, error_bind] at h
              obtain rfl := Except.error.inj h
              obtain ⟨x', hx', hfx⟩ := ih hxs
              exact ⟨x', List.mem_cons_of_mem x hx', hfx⟩
          | ok ys =>
              rw [hxs] at h
              cases h

end Lib
