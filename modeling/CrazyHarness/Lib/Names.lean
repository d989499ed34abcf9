import Mathlib.Data.List.Basic
import Mathlib.Data.String.Basic

/-! # Names joined with a separator

A name that is put together from parts with a separator between them says where its parts end only if
the parts do not contain the separator.  `joined_eq_iff` is what remains without that: two such names
agree if their parts do, or if one of the parts on the left goes on into the part on the right.

The lists come first; names are texts with a colon between them. -/

namespace Lib

section lists

variable {α : Type*} {a : α} {p q p' q' r s x : List α}

theorem append_cons_eq_iff : p ++ a :: q = p' ++ a :: q' ↔
    (p = p' ∧ q = q') ∨ (∃ x, p' = p ++ a :: x ∧ q = x ++ a :: q') ∨
      ∃ x, p = p' ++ a :: x ∧ q' = x ++ a :: q := by
  rw [List.append_eq_append_iff]
  constructor
  · rintro (⟨x, hp, hq⟩ | ⟨x, hp, hq⟩)
    · cases x with
      | nil =>
          rw [List.append_nil] at hp
          exact .inl ⟨hp.symm, (List.cons.inj hq).2⟩
      | cons b x =>
          obtain ⟨rfl, hrest⟩ := List.cons.inj (hq.trans (List.cons_append))
          exact .inr (.inl ⟨x, hp, hrest⟩)
    · cases x with
      | nil =>
          rw [List.append_nil] at hp
          exact .inl ⟨hp, (List.cons.inj hq).2.symm⟩
      | cons b x =>
          obtain ⟨rfl, hrest⟩ := List.cons.inj (hq.trans (List.cons_append))
          exact .inr (.inr ⟨x, hp, hrest⟩)
  · rintro (⟨rfl, rfl⟩ | ⟨x, rfl, rfl⟩ | ⟨x, rfl, rfl⟩)
    · exact .inl ⟨[], by simp⟩
    · exact .inl ⟨a :: x, rfl, rfl⟩
    · exact .inr ⟨a :: x, rfl, rfl⟩

/-- A beginning without the separator belongs to the first part. -/
theorem append_eq_append_cons_left (h : a ∉ p) : p ++ r = x ++ a :: s ↔
    ∃ y, x = p ++ y ∧ r = y ++ a :: s := by
  constructor
  · intro heq
    rcases List.append_eq_append_iff.mp heq with ⟨y, hx, hr⟩ | ⟨y, hp, hr⟩
    · exact ⟨y, hx, hr⟩
    · cases y with
      | nil => exact ⟨[], by rw [hp, List.append_nil, List.append_nil], hr.symm⟩
      | cons b y =>
          obtain ⟨rfl, -⟩ := List.cons.inj hr
          exact absurd (hp ▸ List.mem_append_right _ List.mem_cons_self) h
  · rintro ⟨y, rfl, rfl⟩
    exact (List.append_assoc _ _ _).symm

/-- An end without the separator belongs to the last part. -/
theorem append_eq_append_cons_right (h : a ∉ p) : r ++ p = x ++ a :: s ↔
    ∃ z, s = z ++ p ∧ r = x ++ a :: z := by
  constructor
  · intro heq
    rcases List.append_eq_append_iff.mp heq with ⟨y, hx, hp⟩ | ⟨y, hr, hs⟩
    · exact absurd (hp ▸ List.mem_append_right _ List.mem_cons_self) h
    · cases y with
      | nil =>
          rw [List.nil_append] at hs
          exact absurd (hs ▸ List.mem_cons_self) h
      | cons b y =>
          obtain ⟨rfl, hrest⟩ := List.cons.inj (hs.trans (List.cons_append))
          exact ⟨y, hrest, hr⟩
  · rintro ⟨z, rfl, rfl⟩
    simp

end lists

/-! ### Texts -/

/-- The text does not contain the separator. -/
def Plain (s : String) : Prop := ':' ∉ s.toList

instance : DecidablePred Plain := fun _ => inferInstanceAs (Decidable (¬ _))

variable {p q p' q' r s x : String}

theorem exists_text {P : List Char → Prop} : (∃ l, P l) ↔ ∃ s : String, P s.toList := by
  constructor
  · rintro ⟨l, hl⟩
    exact ⟨String.ofList l, by rwa [String.toList_ofList]⟩
  · rintro ⟨s, hs⟩
    exact ⟨s.toList, hs⟩

theorem text_eq_iff {s t : String} : s = t ↔ s.toList = t.toList := String.toList_inj.symm

theorem joined_eq_iff : p ++ ":" ++ q = p' ++ ":" ++ q' ↔
    (p = p' ∧ q = q') ∨ (∃ x, p' = p ++ ":" ++ x ∧ q = x ++ ":" ++ q') ∨
      ∃ x, p = p' ++ ":" ++ x ∧ q' = x ++ ":" ++ q := by
  have h := @append_cons_eq_iff Char ':' p.toList q.toList p'.toList q'.toList
  simp only [exists_text] at h
  simpa [text_eq_iff] using h

theorem plain_append_eq_iff (h : Plain p) : p ++ r = x ++ ":" ++ s ↔
    ∃ y, x = p ++ y ∧ r = y ++ ":" ++ s := by
  have hl := append_eq_append_cons_left (r := r.toList) (x := x.toList) (s := s.toList) h
  simp only [exists_text] at hl
  simpa [text_eq_iff] using hl

theorem append_plain_eq_iff (h : Plain p) : r ++ p = x ++ ":" ++ s ↔
    ∃ z, s = z ++ p ∧ r = x ++ ":" ++ z := by
  have hl := append_eq_append_cons_right (r := r.toList) (x := x.toList) (s := s.toList) h
  simp only [exists_text] at hl
  simpa [text_eq_iff] using hl

theorem not_plain_joined : ¬ Plain (p ++ ":" ++ q) := by
  simp [Plain]

end Lib
