import CrazyHarness.Lib.Texts

/-! # Words

`text.split()`, the words between blanks, and `" ".join(text.split())`.

* `joinWords_eq_iff`: the texts that are their words with single spaces between them. -/

namespace Lib

/-- The words of these characters, `word` before them. -/
def wordsFrom (word : List Char) : List Char → List (List Char)
  | [] => if word = [] then [] else [word]
  | c :: cs =>
      if isSpace c then
        if word = [] then wordsFrom [] cs else word :: wordsFrom [] cs
      else wordsFrom (word ++ [c]) cs

/-- `" ".join(text.split())`. -/
def joinWords (text : String) : String := String.ofList ([' '].intercalate (wordsFrom [] text.toList))

/-- Every blank is a space between two characters of words; `inWord` says whether the character before is one. -/
def SingleSpaced (inWord : Bool) : List Char → Prop
  | [] => inWord
  | c :: cs => if isSpace c then inWord ∧ c = ' ' ∧ SingleSpaced false cs else SingleSpaced true cs

theorem intercalate_cons {α : Type} {sep x : List α} {xs : List (List α)} (h : xs ≠ []) :
    sep.intercalate (x :: xs) = x ++ sep ++ sep.intercalate xs := by
  cases xs with
  | nil => exact absurd rfl h
  | cons y ys => exact List.intercalate_cons_cons

/-- The words with single spaces are no longer than the text. -/
theorem length_intercalate_wordsFrom (word cs : List Char) :
    ([' '].intercalate (wordsFrom word cs)).length ≤ word.length + cs.length := by
  induction cs generalizing word with
  | nil =>
      rw [wordsFrom]
      split_ifs with h
      · simp
      · simp [List.intercalate]
  | cons c cs ih =>
      rw [wordsFrom, List.length_cons]
      split_ifs with hspace hword
      · have := ih []
        rw [List.length_nil] at this
        omega
      · have := ih []
        by_cases hrest : wordsFrom [] cs = []
        · rw [hrest]
          simp [List.intercalate]
        · rw [intercalate_cons hrest]
          simp only [List.length_append, List.length_singleton]
          rw [List.length_nil] at this
          omega
      · have := ih (word ++ [c])
        rw [List.length_append, List.length_singleton] at this
        omega

/-- The words are the text itself exactly when it has single spaces. -/
theorem intercalate_wordsFrom_eq_iff (word cs : List Char) :
    [' '].intercalate (wordsFrom word cs) = word ++ cs ↔
      SingleSpaced (decide (word ≠ [])) cs ∨ (word = [] ∧ cs = []) := by
  induction cs generalizing word with
  | nil =>
      rw [wordsFrom, SingleSpaced]
      split_ifs with h
      · simp [h]
      · simp [h, List.intercalate]
  | cons c cs ih =>
      rw [wordsFrom, SingleSpaced]
      split_ifs with hspace hword
      · subst hword
        have hlength := length_intercalate_wordsFrom [] cs
        constructor
        · intro h
          rw [h] at hlength
          simp at hlength
        · rintro (⟨hword, -⟩ | ⟨-, hnil⟩)
          · simp at hword
          · cases hnil
      · have hih := ih []
        simp only [List.nil_append, ne_eq, not_true_eq_false, decide_false, true_and] at hih
        by_cases hrest : wordsFrom [] cs = []
        · rw [hrest] at hih ⊢
          constructor
          · intro h
            simp [List.intercalate] at h
          · rintro (⟨-, -, hspaced⟩ | ⟨-, hnil⟩)
            · have hcs := hih.mpr (.inl hspaced)
              rw [← hcs] at hspaced
              cases hspaced
            · cases hnil
        · have hcs : cs ≠ [] := by
            rintro rfl
            exact hrest rfl
          rw [intercalate_cons hrest, List.append_assoc, List.append_cancel_left_eq, List.singleton_append,
            List.cons.injEq, hih]
          constructor
          · rintro ⟨rfl, hspaced | hnil⟩
            · exact .inl ⟨decide_eq_true hword, rfl, hspaced⟩
            · exact absurd hnil hcs
          · rintro (⟨-, rfl, hspaced⟩ | ⟨-, hnil⟩)
            · exact ⟨rfl, .inl hspaced⟩
            · cases hnil
      · have hih := ih (word ++ [c])
        rw [List.append_assoc, List.singleton_append] at hih
        rw [hih]
        simp

theorem joinWords_eq_iff {text : String} (h : text ≠ "") :
    joinWords text = text ↔ SingleSpaced false text.toList := by
  have hchars := intercalate_wordsFrom_eq_iff [] text.toList
  rw [joinWords, ← String.toList_inj, String.toList_ofList]
  rw [List.nil_append] at hchars
  rw [hchars]
  constructor
  · rintro (hspaced | ⟨-, hnil⟩)
    · exact hspaced
    · exact absurd (String.toList_eq_nil_iff.mp hnil) h
  · exact .inl

end Lib
