import CrazyHarness.Core.TextFiles
import CrazyHarness.Lib.Except
import CrazyHarness.Lib.Paths
import CrazyHarness.Lib.Sorting
import CrazyHarness.Lib.Table
import CrazyHarness.Tools.Schemas

/-! # The diff of a repository

`repo.diff` (`taskpacks/repo_tools.py`): the files of two trees are compared by what `_read_optional_text` makes
of them, a text, and files under some names are left out.

* `diffWorkspace_reports_iff`: exactly when the diff reports every change. -/

namespace CrazyHarness.Repo

open Lib

/-! ### Trees -/

/-- The files of a tree, by their relative paths. -/
structure Tree where
  files : Table (Prod.fst : Path × Bytes → Path)
  named : ∀ f ∈ files.rows, ∀ name ∈ f.1, ValidName name
  apart : ∀ f ∈ files.rows, ∀ g ∈ files.rows, f.1 <+: g.1 → f.1 = g.1

namespace Tree

/-- The bytes of a file. -/
def content (t : Tree) (p : Path) : Option Bytes := (t.files.lookup p).map Prod.snd

/-- A file lies below the path. -/
def IsDir (t : Tree) (p : Path) : Prop := ∃ f ∈ t.files.rows, p <+: f.1 ∧ p ≠ f.1

instance (t : Tree) : DecidablePred t.IsDir := fun _ =>
  inferInstanceAs (Decidable (∃ f ∈ t.files.rows, _ ∧ _))

variable {t : Tree} {p : Path} {bytes : Bytes}

theorem content_eq_some_iff : t.content p = some bytes ↔ (p, bytes) ∈ t.files.rows := by
  rw [content, Option.map_eq_some_iff]
  constructor
  · rintro ⟨f, hf, rfl⟩
    obtain ⟨hmem, rfl⟩ := Table.lookup_eq_some_iff.mp hf
    exact hmem
  · intro h
    exact ⟨(p, bytes), Table.lookup_eq_some_iff.mpr ⟨h, rfl⟩, rfl⟩

theorem validName_of_content (h : (t.content p).isSome) : ∀ name ∈ p, ValidName name := by
  obtain ⟨bytes, hbytes⟩ := Option.isSome_iff_exists.mp h
  exact t.named _ (content_eq_some_iff.mp hbytes)

/-- A file is no directory. -/
theorem not_isDir_of_content (h : (t.content p).isSome) : ¬ t.IsDir p := by
  obtain ⟨bytes, hbytes⟩ := Option.isSome_iff_exists.mp h
  rintro ⟨f, hf, hbelow, hne⟩
  exact hne (t.apart _ (content_eq_some_iff.mp hbytes) f hf hbelow)

end Tree

/-! ### Texts -/

/-- Where `str.splitlines` ends a line. -/
def isLineBreak (c : Char) : Bool :=
  c.toNat ∈ [0x0A, 0x0B, 0x0C, 0x0D, 0x1C, 0x1D, 0x1E, 0x85, 0x2028, 0x2029]

/-- `splitlines(keepends=True)` of these characters, `line` before them. -/
def linesFrom (line : List Char) : List Char → List (List Char)
  | [] => if line = [] then [] else [line]
  | '\r' :: '\n' :: cs => (line ++ ['\r', '\n']) :: linesFrom [] cs
  | c :: cs => if isLineBreak c then (line ++ [c]) :: linesFrom [] cs else linesFrom (line ++ [c]) cs

/-- `text.splitlines(keepends=True)`. -/
def splitlines (text : String) : List String := (linesFrom [] text.toList).map String.ofList

theorem flatten_linesFrom (line cs : List Char) : (linesFrom line cs).flatten = line ++ cs := by
  fun_induction linesFrom line cs with
  | case1 => rfl
  | case2 line hline => simp
  | case3 line cs ih => simp [ih]
  | case4 line c cs _ hbreak ih => simp [ih]
  | case5 line c cs _ hbreak ih => simp [ih]

theorem splitlines_injective : Function.Injective splitlines := by
  intro s t h
  have hlines := (List.map_injective_iff.mpr (fun _ _ => String.ofList_injective)) h
  have hchars := congrArg List.flatten hlines
  rw [flatten_linesFrom, flatten_linesFrom] at hchars
  exact String.toList_injective hchars

/-! ### The diff -/

/-- `_IGNORED_PARTS`. -/
def ignoredParts : List String := ["__pycache__", ".pytest_cache", ".git"]

/-- `_IGNORED_PARTS & set(path.parts)` is not empty. -/
def HasIgnoredPart (path : Path) : Prop := ∃ part ∈ path, part ∈ ignoredParts

instance : DecidablePred HasIgnoredPart := fun path =>
  inferInstanceAs (Decidable (∃ part ∈ path, part ∈ ignoredParts))

/-- `_relative_files` of a tree at `root`. -/
def relativeFiles (root : Path) (t : Tree) : List String :=
  (t.files.rows.filter (fun f => ¬ HasIgnoredPart (root ++ f.1))).map (fun f => posix f.1)

/-- The text of a file that may be missing: `""` where it is, and one text for all that do not decode. -/
def optionalText : Option Bytes → String
  | none => ""
  | some bytes => (readText bytes).getD "<binary file>\n"

/-- `_read_optional_text`; the error is the `IsADirectoryError` of a directory. -/
def readOptionalText (t : Tree) (relative : String) : Except String String :=
  if t.IsDir (posixParts relative) then .error ("Is a directory: " ++ relative)
  else .ok (optionalText (t.content (posixParts relative)))

section diff

variable (hunks : List String → List String → List String)

/-- The two lines before the hunks of a file. -/
def header (relative : String) : List String := ["--- a/" ++ relative ++ "\n", "+++ b/" ++ relative ++ "\n"]

/-- `difflib.unified_diff`; `hunks` are the lines of its hunks. -/
def unifiedDiff (relative : String) (before after : List String) : List String :=
  if hunks before after = [] then [] else header relative ++ hunks before after

variable (workspaceRoot baselineRoot : Path) (workspace baseline : Tree)

/-- What the loop adds for one path. -/
def diffChunk (relative : String) : Except String (String × List String) := do
  let before ← readOptionalText baseline relative
  let after ← readOptionalText workspace relative
  return (relative, if before = after then [] else unifiedDiff hunks relative (splitlines before) (splitlines after))

/-- The paths that are compared. -/
def comparedFiles : List String :=
  (relativeFiles workspaceRoot workspace ++ relativeFiles baselineRoot baseline).dedup.insertionSort (· ≤ ·)

/-- What the loop adds for every path. -/
def diffChunks : Except String (List (String × List String)) :=
  (comparedFiles workspaceRoot baselineRoot workspace baseline).mapM (diffChunk hunks workspace baseline)

/-- `"".join(chunks)`. -/
def joinChunks (chunks : List (String × List String)) : String := "".intercalate (chunks.flatMap Prod.snd)

/-- `_MAX_TEXT_CHARS`. -/
def maxTextChars : ℕ := 200000

/-- `_diff_workspace`; an error is an exception that it lets through. -/
def diffWorkspace : Except String ToolResult := do
  let output := joinChunks (← diffChunks hunks workspaceRoot baselineRoot workspace baseline)
  if output = "" then return { name := "repo.diff", status := "error", error := some "workspace has no changes" }
  else if output.length > maxTextChars then
    return { name := "repo.diff", status := "error", error := some "workspace diff is too large" }
  else return { name := "repo.diff", status := "ok", output := output }

/-! ### What it reports -/

/-- No directory on the way is ignored. -/
def OutsideIgnored (p : Path) : Prop := ¬ HasIgnoredPart p.dropLast

instance : DecidablePred OutsideIgnored := fun p => inferInstanceAs (Decidable (¬ HasIgnoredPart p.dropLast))

/-- The trees differ at a path outside of the ignored directories. -/
def Differs (p : Path) : Prop := OutsideIgnored p ∧ workspace.content p ≠ baseline.content p

/-- A file of one of the trees that is not left out. -/
def Compared (p : Path) : Prop :=
  ((workspace.content p).isSome ∧ ¬ HasIgnoredPart (workspaceRoot ++ p)) ∨
    ((baseline.content p).isSome ∧ ¬ HasIgnoredPart (baselineRoot ++ p))

/-- No part of the path or of the directory of its tree is ignored, neither tree has a directory there, and the
texts that stand for the contents differ. -/
structure Shown (p : Path) : Prop where
  compared : Compared workspaceRoot baselineRoot workspace baseline p
  not_dir : ¬ baseline.IsDir p ∧ ¬ workspace.IsDir p
  texts : optionalText (baseline.content p) ≠ optionalText (workspace.content p)

/-- The part of the output that belongs to the path starts with the lines that name it. -/
def Names (p : Path) : Prop :=
  ∃ chunks chunk, diffChunks hunks workspaceRoot baselineRoot workspace baseline = .ok chunks ∧
    (posix p, chunk) ∈ chunks ∧ header (posix p) <+: chunk

/-- The answer where nothing has changed. -/
def noChanges : ToolResult := { name := "repo.diff", status := "error", error := some "workspace has no changes" }

/-- The diff reports every change: it answers that there is none exactly where there is none, and names every path
where there are some. -/
def Reports : Prop :=
  (diffWorkspace hunks workspaceRoot baselineRoot workspace baseline = .ok noChanges ↔
    ∀ p, ¬ Differs workspace baseline p) ∧
  ((∃ p, Differs workspace baseline p) →
    ∃ result, diffWorkspace hunks workspaceRoot baselineRoot workspace baseline = .ok result ∧
      result.status = "ok" ∧
      ∀ p, Differs workspace baseline p → Names hunks workspaceRoot baselineRoot workspace baseline p)

/-- The output has too many characters. -/
def TooLarge : Prop :=
  ∃ chunks, diffChunks hunks workspaceRoot baselineRoot workspace baseline = .ok chunks ∧
    maxTextChars < (joinChunks chunks).length

variable {hunks workspaceRoot baselineRoot workspace baseline} {p : Path}

theorem mem_relativeFiles {root : Path} {t : Tree} {relative : String} :
    relative ∈ relativeFiles root t ↔
      ∃ p, posix p = relative ∧ (t.content p).isSome ∧ ¬ HasIgnoredPart (root ++ p) := by
  rw [relativeFiles, List.mem_map]
  constructor
  · rintro ⟨⟨p, bytes⟩, hmem, rfl⟩
    obtain ⟨hfile, hkept⟩ := List.mem_filter.mp hmem
    exact ⟨p, rfl, by rw [Tree.content_eq_some_iff.mpr hfile]; rfl, of_decide_eq_true hkept⟩
  · rintro ⟨p, rfl, hfile, hkept⟩
    obtain ⟨bytes, hbytes⟩ := Option.isSome_iff_exists.mp hfile
    exact ⟨(p, bytes), List.mem_filter.mpr ⟨Tree.content_eq_some_iff.mp hbytes, decide_eq_true hkept⟩, rfl⟩

theorem mem_comparedFiles {relative : String} :
    relative ∈ comparedFiles workspaceRoot baselineRoot workspace baseline ↔
      ∃ p, posix p = relative ∧ Compared workspaceRoot baselineRoot workspace baseline p := by
  rw [comparedFiles, List.mem_insertionSort, List.mem_dedup, List.mem_append, mem_relativeFiles, mem_relativeFiles]
  constructor
  · rintro (⟨p, rfl, h⟩ | ⟨p, rfl, h⟩)
    · exact ⟨p, rfl, .inl h⟩
    · exact ⟨p, rfl, .inr h⟩
  · rintro ⟨p, rfl, h | h⟩
    · exact .inl ⟨p, rfl, h⟩
    · exact .inr ⟨p, rfl, h⟩

theorem Compared.valid (h : Compared workspaceRoot baselineRoot workspace baseline p) :
    ∀ name ∈ p, ValidName name := by
  rcases h with h | h
  · exact Tree.validName_of_content h.1
  · exact Tree.validName_of_content h.1

/-- What is not left out lies outside of the ignored directories. -/
theorem Compared.outside (h : Compared workspaceRoot baselineRoot workspace baseline p) : OutsideIgnored p := by
  rintro ⟨part, hpart, hignored⟩
  have hmem := List.mem_of_mem_dropLast hpart
  rcases h with h | h
  · exact h.2 ⟨part, List.mem_append_right _ hmem, hignored⟩
  · exact h.2 ⟨part, List.mem_append_right _ hmem, hignored⟩

/-- A file in one tree that is a directory in the other is a difference. -/
theorem Compared.differs_of_isDir (h : Compared workspaceRoot baselineRoot workspace baseline p)
    (hdir : baseline.IsDir p ∨ workspace.IsDir p) : Differs workspace baseline p := by
  refine ⟨h.outside, ?_⟩
  intro heq
  have hsome : (workspace.content p).isSome ∧ (baseline.content p).isSome := by
    rcases h with h | h
    · exact ⟨h.1, heq ▸ h.1⟩
    · exact ⟨heq ▸ h.1, h.1⟩
  rcases hdir with hdir | hdir
  · exact Tree.not_isDir_of_content hsome.2 hdir
  · exact Tree.not_isDir_of_content hsome.1 hdir

/-- The chunk of a path. -/
theorem diffChunk_eq_ok_iff (hp : ∀ name ∈ p, ValidName name) {chunk : String × List String} :
    diffChunk hunks workspace baseline (posix p) = .ok chunk ↔
      (¬ baseline.IsDir p ∧ ¬ workspace.IsDir p) ∧
        chunk = (posix p, if optionalText (baseline.content p) = optionalText (workspace.content p) then []
          else unifiedDiff hunks (posix p) (splitlines (optionalText (baseline.content p)))
            (splitlines (optionalText (workspace.content p)))) := by
  rw [diffChunk, readOptionalText, readOptionalText, posixParts_posix hp]
  by_cases hbaseline : baseline.IsDir p
  · rw [if_pos hbaseline]
    exact ⟨nofun, fun h => absurd hbaseline h.1.1⟩
  · by_cases hworkspace : workspace.IsDir p
    · rw [if_pos hworkspace, if_neg hbaseline]
      exact ⟨nofun, fun h => absurd hworkspace h.1.2⟩
    · rw [if_neg hworkspace, if_neg hbaseline, ok_bind, ok_bind, pure_eq_ok, Except.ok.injEq]
      exact ⟨fun h => ⟨⟨hbaseline, hworkspace⟩, h.symm⟩, fun h => h.2.symm⟩

theorem intercalate_nil_eq_flatten {α : Type} (xs : List (List α)) : ([] : List α).intercalate xs = xs.flatten := by
  induction xs with
  | nil => rfl
  | cons x xs ih =>
      cases xs with
      | nil => simp [List.intercalate]
      | cons y ys => rw [List.intercalate_cons_cons, ih, List.append_nil, ← List.flatten_cons]

/-- Nothing is reported where no chunk has a character. -/
theorem joinChunks_eq_empty_iff {chunks : List (String × List String)} :
    joinChunks chunks = "" ↔ ∀ x ∈ chunks, ∀ line ∈ x.2, line = "" := by
  rw [← String.toList_eq_nil_iff, joinChunks, String.toList_intercalate, String.toList_empty,
    intercalate_nil_eq_flatten, List.flatten_eq_nil_iff]
  constructor
  · intro h x hx line hline
    exact String.toList_eq_nil_iff.mp (h _ (List.mem_map_of_mem (List.mem_flatMap.mpr ⟨x, hx, hline⟩)))
  · intro h cs hcs
    obtain ⟨line, hline, rfl⟩ := List.mem_map.mp hcs
    obtain ⟨x, hx, hmem⟩ := List.mem_flatMap.mp hline
    rw [h x hx line hmem, String.toList_empty]

theorem joinChunks_ne_empty {chunks : List (String × List String)} {chunk : List String} {relative : String}
    (hmem : (relative, chunk) ∈ chunks) (hheader : header relative <+: chunk) : joinChunks chunks ≠ "" := by
  intro h
  have hfirst : "--- a/" ++ relative ++ "\n" ∈ chunk := hheader.subset List.mem_cons_self
  have hempty := joinChunks_eq_empty_iff.mp h _ hmem _ hfirst
  have hhead := congrArg (fun s => s.toList.head?) hempty
  simp [String.toList_append] at hhead

/-- A path is named exactly when it is shown. -/
theorem names_iff_shown (hhunks : ∀ before after, hunks before after = [] ↔ before = after)
    (hp : ∀ name ∈ p, ValidName name) {chunks : List (String × List String)}
    (hchunks : diffChunks hunks workspaceRoot baselineRoot workspace baseline = .ok chunks) :
    Names hunks workspaceRoot baselineRoot workspace baseline p ↔
      Shown workspaceRoot baselineRoot workspace baseline p := by
  constructor
  · rintro ⟨_, chunk, hother, hmem, hheader⟩
    obtain rfl := Except.ok.inj (hchunks.symm.trans hother)
    obtain ⟨relative, hrelative, hchunk⟩ := exists_of_mapM_ok hchunks hmem
    obtain ⟨q, rfl, hq⟩ := mem_comparedFiles.mp hrelative
    obtain ⟨hdirs, heq⟩ := (diffChunk_eq_ok_iff hq.valid).mp hchunk
    obtain ⟨hposix, hlines⟩ := Prod.mk.inj heq
    obtain rfl := posix_inj hp hq.valid hposix
    refine ⟨hq, hdirs, ?_⟩
    intro hsame
    rw [if_pos hsame] at hlines
    rw [hlines] at hheader
    exact absurd (List.prefix_nil.mp hheader) (List.cons_ne_nil _ _)
  · intro h
    obtain ⟨chunk, hmem, hchunk⟩ := mem_of_mapM_ok hchunks (mem_comparedFiles.mpr ⟨p, rfl, h.compared⟩)
    obtain ⟨-, rfl⟩ := (diffChunk_eq_ok_iff hp).mp hchunk
    refine ⟨chunks, _, hchunks, hmem, ?_⟩
    have hdiffer : hunks (splitlines (optionalText (baseline.content p)))
        (splitlines (optionalText (workspace.content p))) ≠ [] :=
      fun hnil => h.texts (splitlines_injective ((hhunks _ _).mp hnil))
    rw [if_neg h.texts, unifiedDiff, if_neg hdiffer]
    exact List.prefix_append _ _

/-- Where every difference is shown, no exception is raised. -/
theorem diffChunks_ok (h : ∀ p, Differs workspace baseline p → Shown workspaceRoot baselineRoot workspace baseline p) :
    ∃ chunks, diffChunks hunks workspaceRoot baselineRoot workspace baseline = .ok chunks := by
  cases hchunks : diffChunks hunks workspaceRoot baselineRoot workspace baseline with
  | ok chunks => exact ⟨chunks, rfl⟩
  | error e =>
      obtain ⟨relative, hrelative, herror⟩ := exists_of_mapM_error hchunks
      obtain ⟨p, rfl, hp⟩ := mem_comparedFiles.mp hrelative
      by_cases hdir : baseline.IsDir p ∨ workspace.IsDir p
      · obtain ⟨hbaseline, hworkspace⟩ := (h p (hp.differs_of_isDir hdir)).not_dir
        exact absurd hdir (not_or.mpr ⟨hbaseline, hworkspace⟩)
      · have hok : diffChunk hunks workspace baseline (posix p) = .ok _ :=
          (diffChunk_eq_ok_iff hp.valid).mpr ⟨not_or.mp hdir, rfl⟩
        rw [herror] at hok
        cases hok

/-- Where the trees agree, nothing is reported. -/
theorem joinChunks_of_agree (h : ∀ p, ¬ Differs workspace baseline p) {chunks : List (String × List String)}
    (hchunks : diffChunks hunks workspaceRoot baselineRoot workspace baseline = .ok chunks) :
    joinChunks chunks = "" := by
  refine joinChunks_eq_empty_iff.mpr ?_
  intro x hx line hline
  obtain ⟨relative, hrelative, hchunk⟩ := exists_of_mapM_ok hchunks hx
  obtain ⟨p, rfl, hp⟩ := mem_comparedFiles.mp hrelative
  obtain ⟨-, rfl⟩ := (diffChunk_eq_ok_iff hp.valid).mp hchunk
  have hsame : workspace.content p = baseline.content p := by
    by_contra hne
    exact h p ⟨hp.outside, hne⟩
  rw [if_pos (by rw [hsame])] at hline
  cases hline

theorem Differs.valid (h : Differs workspace baseline p) : ∀ name ∈ p, ValidName name := by
  cases hworkspace : workspace.content p with
  | some bytes => exact Tree.validName_of_content (by rw [hworkspace]; rfl)
  | none =>
      have hne := h.2
      rw [hworkspace] at hne
      exact Tree.validName_of_content (Option.isSome_iff_ne_none.mpr (Ne.symm hne))

/-- What is answered, from the chunks. -/
theorem diffWorkspace_eq {chunks : List (String × List String)}
    (hchunks : diffChunks hunks workspaceRoot baselineRoot workspace baseline = .ok chunks) :
    diffWorkspace hunks workspaceRoot baselineRoot workspace baseline = .ok
      (if joinChunks chunks = "" then noChanges
       else if (joinChunks chunks).length > maxTextChars then
         { name := "repo.diff", status := "error", error := some "workspace diff is too large" }
       else { name := "repo.diff", status := "ok", output := joinChunks chunks }) := by
  rw [diffWorkspace, hchunks, ok_bind]
  simp only [pure_eq_ok]
  split_ifs <;> rfl

/-- An output that is too large is not taken for no change, and there is one. -/
theorem not_noChanges_of_tooLarge (h : TooLarge hunks workspaceRoot baselineRoot workspace baseline) :
    diffWorkspace hunks workspaceRoot baselineRoot workspace baseline ≠ .ok noChanges ∧
      ¬ ∀ p, ¬ Differs workspace baseline p := by
  obtain ⟨chunks, hchunks, hlength⟩ := h
  have houtput : joinChunks chunks ≠ "" := by
    intro hempty
    rw [hempty] at hlength
    exact absurd hlength (by decide)
  refine ⟨?_, fun hagree => houtput (joinChunks_of_agree hagree hchunks)⟩
  rw [diffWorkspace_eq hchunks, if_neg houtput, if_pos hlength]
  intro heq
  exact absurd (congrArg ToolResult.error (Except.ok.inj heq)) (by decide)

/-- Where every difference is shown, an output that is not too large reports every change. -/
theorem reports_of_shown (hhunks : ∀ before after, hunks before after = [] ↔ before = after)
    (hsize : ¬ TooLarge hunks workspaceRoot baselineRoot workspace baseline)
    (hshown : ∀ p, Differs workspace baseline p → Shown workspaceRoot baselineRoot workspace baseline p) :
    Reports hunks workspaceRoot baselineRoot workspace baseline := by
  obtain ⟨chunks, hchunks⟩ : ∃ chunks, diffChunks hunks workspaceRoot baselineRoot workspace baseline = .ok chunks :=
    diffChunks_ok hshown
  have hsmall : ¬ (joinChunks chunks).length > maxTextChars := fun h => hsize ⟨chunks, hchunks, h⟩
  have hnamed : ∀ p, Differs workspace baseline p →
      Names hunks workspaceRoot baselineRoot workspace baseline p :=
    fun p hp => (names_iff_shown hhunks hp.valid hchunks).mpr (hshown p hp)
  have houtput : (∃ p, Differs workspace baseline p) → joinChunks chunks ≠ "" := by
    rintro ⟨p, hp⟩
    obtain ⟨_, chunk, hother, hmem, hheader⟩ := hnamed p hp
    obtain rfl := Except.ok.inj (hchunks.symm.trans hother)
    exact joinChunks_ne_empty hmem hheader
  rw [Reports, diffWorkspace_eq hchunks, if_neg hsmall]
  refine ⟨⟨?_, ?_⟩, ?_⟩
  · intro hnone p hp
    rw [if_neg (houtput ⟨p, hp⟩)] at hnone
    exact absurd (congrArg ToolResult.status (Except.ok.inj hnone)) (by decide : ("ok" : String) ≠ "error")
  · intro hagree
    rw [if_pos (joinChunks_of_agree hagree hchunks)]
  · intro hsome
    rw [if_neg (houtput hsome)]
    exact ⟨_, rfl, rfl, hnamed⟩

end diff

/-- An output that is not too large reports every change exactly when every difference is shown: no part of a
changed path or of the directory of its tree is ignored, it is no directory in the other tree, and the two texts
that stand for its contents differ. -/
theorem diffWorkspace_reports_iff (hunks : List String → List String → List String)
    (hhunks : ∀ before after, hunks before after = [] ↔ before = after)
    (workspaceRoot baselineRoot : Path) (workspace baseline : Tree) :
    (TooLarge hunks workspaceRoot baselineRoot workspace baseline →
      (diffWorkspace hunks workspaceRoot baselineRoot workspace baseline = .ok noChanges ↔
        ∀ p, ¬ Differs workspace baseline p)) ∧
    (¬ TooLarge hunks workspaceRoot baselineRoot workspace baseline →
      (Reports hunks workspaceRoot baselineRoot workspace baseline ↔
        ∀ p, Differs workspace baseline p → Shown workspaceRoot baselineRoot workspace baseline p)) := by
  refine ⟨fun hlarge => ?_, fun hsize => ⟨?_, reports_of_shown hhunks hsize⟩⟩
  · obtain ⟨hanswer, hdiffer⟩ := not_noChanges_of_tooLarge hlarge
    exact ⟨fun h => absurd h hanswer, fun h => absurd h hdiffer⟩
  · rintro ⟨-, hnames⟩ p hp
    obtain ⟨_, -, -, hall⟩ := hnames ⟨p, hp⟩
    obtain ⟨chunks, chunk, hchunks, hmem⟩ := hall p hp
    exact (names_iff_shown hhunks hp.valid hchunks).mp ⟨chunks, chunk, hchunks, hmem⟩

/-- A tree without files. -/
def noFiles : Tree := { files := .empty, named := nofun, apart := nofun }

/-- A tree with one file `a.py`. -/
def oneFileTree (bytes : Bytes) : Tree where
  files := { rows := [(["a.py"], bytes)], nodup := List.nodup_singleton _ }
  named := by
    intro f hf
    obtain rfl := List.mem_singleton.mp hf
    exact (by decide : ∀ name ∈ ["a.py"], ValidName name)
  apart := by
    intro f hf g hg _
    rw [List.mem_singleton.mp hf, List.mem_singleton.mp hg]

/-- The hunk of two files of one line each. -/
def lineHunks (before after : List String) : List String :=
  if before = after then [] else "@@ -1 +1 @@\n" :: before.map ("-" ++ ·) ++ after.map ("+" ++ ·)

theorem diffWorkspace_reports_iff_oneFile :
    (TooLarge lineHunks [] [] (oneFileTree (utf8 "b\n")) (oneFileTree (utf8 "a\n")) →
      (diffWorkspace lineHunks [] [] (oneFileTree (utf8 "b\n")) (oneFileTree (utf8 "a\n")) = .ok noChanges ↔
        ∀ p, ¬ Differs (oneFileTree (utf8 "b\n")) (oneFileTree (utf8 "a\n")) p)) ∧
    (¬ TooLarge lineHunks [] [] (oneFileTree (utf8 "b\n")) (oneFileTree (utf8 "a\n")) →
      (Reports lineHunks [] [] (oneFileTree (utf8 "b\n")) (oneFileTree (utf8 "a\n")) ↔
        ∀ p, Differs (oneFileTree (utf8 "b\n")) (oneFileTree (utf8 "a\n")) p →
          Shown [] [] (oneFileTree (utf8 "b\n")) (oneFileTree (utf8 "a\n")) p)) := by
  refine diffWorkspace_reports_iff lineHunks ?_ [] [] _ _
  intro before after
  rw [lineHunks]
  split_ifs with heq
  · exact ⟨fun _ => heq, fun _ => rfl⟩
  · exact ⟨nofun, fun h => absurd h heq⟩

/-- A new empty file is no change, and no change of line endings is one. -/
theorem diffWorkspace_hides_changes :
    (diffWorkspace lineHunks [] [] (oneFileTree []) noFiles = .ok noChanges ∧
      Differs (oneFileTree []) noFiles ["a.py"] ∧ ¬ Reports lineHunks [] [] (oneFileTree []) noFiles) ∧
    (diffWorkspace lineHunks [] [] (oneFileTree (utf8 "a\r\n")) (oneFileTree (utf8 "a\n")) = .ok noChanges ∧
      Differs (oneFileTree (utf8 "a\r\n")) (oneFileTree (utf8 "a\n")) ["a.py"]) := by
  have hanswer : diffWorkspace lineHunks [] [] (oneFileTree []) noFiles = .ok noChanges := by decide +kernel
  have hdiffers : Differs (oneFileTree []) noFiles ["a.py"] := ⟨by decide, by decide⟩
  refine ⟨⟨hanswer, hdiffers, ?_⟩, by decide +kernel, by decide, by decide +kernel⟩
  rintro ⟨hiff, -⟩
  exact hiff.mp hanswer ["a.py"] hdiffers

end CrazyHarness.Repo
