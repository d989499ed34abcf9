import CrazyHarness.Core.Events
import CrazyHarness.Core.TextFiles
import CrazyHarness.Lib.Names

/-! # Artifacts

`ArtifactStore`: every text goes to a file of its own, named by a fresh identifier.  A file is read as text, and
text is read with universal newlines: `readText_writeText` is what comes back, and `universalNewlines_eq_iff` which
texts come back as they were. -/

namespace CrazyHarness

open Lib

/-! ### The store -/

/-- `ArtifactRef`. -/
structure ArtifactRef where
  uri : String
  kind : String
  summary : String := ""
  metadata : Dict := []
deriving DecidableEq

/-- The path of a text artifact. -/
def textPath (root kind : String) (n : ℕ) : String := root ++ "/" ++ kind ++ "_" ++ uuid4 n ++ ".txt"

/-- `ArtifactStore`: the texts of the files, and how many identifiers were drawn; no file has the name that a later
one will give it. -/
structure ArtifactStore where
  root : String
  files : String → Option String
  drawn : ℕ
  fresh : ∀ kind n, drawn ≤ n → files (textPath root kind n) = none

theorem plain_numbered (n : ℕ) : Plain (toString n ++ ".txt") := by
  unfold Plain
  rw [String.toList_append, List.mem_append, not_or]
  refine ⟨?_, by decide⟩
  intro h
  have hdigit : (':' : Char).isDigit = true := by
    refine Nat.isDigit_of_mem_toDigits (b := 10) (n := n) (by decide) (by decide) ?_
    simpa using h
  exact absurd hdigit (by decide)

theorem textPath_eq (root kind : String) (n : ℕ) :
    textPath root kind n = (root ++ "/" ++ kind ++ "_uuid4") ++ ":" ++ (toString n ++ ".txt") := by
  rw [text_eq_iff]
  simp [textPath, uuid4]

theorem textPath_inj {root kind kind' : String} {n n' : ℕ}
    (h : textPath root kind n = textPath root kind' n') : n = n' := by
  rw [textPath_eq, textPath_eq] at h
  rcases joined_eq_iff.mp h with ⟨_, hn⟩ | ⟨x, _, hx⟩ | ⟨x, _, hx⟩
  · rw [text_eq_iff, String.toList_append, String.toList_append, List.append_cancel_right_eq,
      String.toList_inj] at hn
    exact Nat.repr_injective hn
  · exact (not_plain_joined (hx ▸ plain_numbered n)).elim
  · exact (not_plain_joined (hx ▸ plain_numbered n')).elim

namespace ArtifactStore

/-- `write_text`. -/
def writeText (s : ArtifactStore) (kind text summary : String) : ArtifactRef × ArtifactStore :=
  let path := textPath s.root kind s.drawn
  ({ uri := path, kind, summary }, {
    root := s.root
    files := fun p => if p = path then some text else s.files p
    drawn := s.drawn + 1
    fresh := by
      intro kind' n hn
      rw [if_neg]
      · exact s.fresh kind' n (by omega)
      · intro h
        have := textPath_inj h
        omega })

/-- `read_text`; `none` is its `FileNotFoundError`. -/
def readText (s : ArtifactStore) (ref : ArtifactRef) : Option String := (s.files ref.uri).map universalNewlines

/-- What one store holds, the other one holds. -/
def Extends (s s' : ArtifactStore) : Prop := ∀ path text, s.files path = some text → s'.files path = some text

theorem Extends.refl (s : ArtifactStore) : s.Extends s := fun _ _ h => h

theorem Extends.trans {s s' s'' : ArtifactStore} (h : s.Extends s') (h' : s'.Extends s'') : s.Extends s'' :=
  fun path text hp => h' path text (h path text hp)

theorem Extends.readText {s s' : ArtifactStore} (h : s.Extends s') {ref : ArtifactRef} {text : String}
    (hread : s.readText ref = some text) : s'.readText ref = some text := by
  unfold ArtifactStore.readText at hread ⊢
  rw [Option.map_eq_some_iff] at hread ⊢
  obtain ⟨written, hfile, htext⟩ := hread
  exact ⟨written, h ref.uri written hfile, htext⟩

theorem writeText_extends (s : ArtifactStore) (kind text summary : String) :
    s.Extends (s.writeText kind text summary).2 := by
  intro path written h
  by_cases hpath : path = textPath s.root kind s.drawn
  · rw [hpath, s.fresh kind s.drawn (le_refl _)] at h
    cases h
  · simp [writeText, hpath, h]

theorem files_writeText (s : ArtifactStore) (kind text summary : String) :
    (s.writeText kind text summary).2.files (s.writeText kind text summary).1.uri = some text := by
  simp [writeText]

/-- A text that was written reads as its lines do. -/
theorem readText_writeText (s : ArtifactStore) (kind text summary : String) :
    (s.writeText kind text summary).2.readText (s.writeText kind text summary).1 =
      some (universalNewlines text) := by
  unfold readText
  rw [files_writeText, Option.map_some]

end ArtifactStore

end CrazyHarness
