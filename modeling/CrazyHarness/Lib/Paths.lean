import Mathlib

/-! # Paths

A path is the list of its names, from the root on.  `posix` writes a relative path with slashes between its
names, and `posixParts` reads the names of such a text, whatever the text: empty names and single dots do not
count.

* `posixParts_posix`: the names that a file system holds are read back. -/

namespace Lib

/-- The names from the root on. -/
abbrev Path := List String

/-- A name that a directory can hold. -/
def ValidName (name : String) : Prop :=
  name ≠ "" ∧ name ≠ "." ∧ name ≠ ".." ∧ '/' ∉ name.toList ∧ '\x00' ∉ name.toList

instance : DecidablePred ValidName := fun _ => inferInstanceAs (Decidable (_ ∧ _ ∧ _ ∧ _ ∧ _))

/-- `path.as_posix()` of a relative path. -/
def posix (path : Path) : String := "/".intercalate path

/-- `PurePosixPath(text).parts` of a text that does not start with a slash. -/
def posixParts (text : String) : Path :=
  ((text.toList.splitOn '/').map String.ofList).filter (fun part => part ≠ "" ∧ part ≠ ".")

theorem toList_posix (path : Path) : (posix path).toList = ['/'].intercalate (path.map String.toList) := by
  rw [posix, String.toList_intercalate]
  rfl

theorem posixParts_posix {path : Path} (h : ∀ name ∈ path, ValidName name) :
    posixParts (posix path) = path := by
  cases path with
  | nil => decide
  | cons first rest =>
      have hslash : ∀ name ∈ (first :: rest).map String.toList, '/' ∉ name := by
        intro name hname
        obtain ⟨text, htext, rfl⟩ := List.mem_map.mp hname
        exact (h text htext).2.2.2.1
      rw [posixParts, toList_posix, List.splitOn_intercalate '/' hslash (List.cons_ne_nil _ _), List.map_map]
      have hread : (first :: rest).map (String.ofList ∘ String.toList) = first :: rest := by
        simp [Function.comp_def]
      rw [hread, List.filter_eq_self]
      intro name hname
      exact decide_eq_true ⟨(h name hname).1, (h name hname).2.1⟩

/-- Paths of such names are written differently. -/
theorem posix_inj {path path' : Path} (h : ∀ name ∈ path, ValidName name)
    (h' : ∀ name ∈ path', ValidName name) (heq : posix path = posix path') : path = path' := by
  rw [← posixParts_posix h, heq, posixParts_posix h']

end Lib
