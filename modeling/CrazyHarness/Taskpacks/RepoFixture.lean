import CrazyHarness.Checkpoints.TreeHash

/-! # The fixture of the repository task

The template files of `RepoMaintainerTaskPack` (`taskpacks/repo_maintainer.py`), what `fixture_hash` feeds
SHA-256 for them, and what `workspace_hash` feeds for a directory.

* `tree_hash_streams`: no two lists of files feed the same, and a directory feeds what the fixture feeds
  exactly when its files are those of the fixture. -/

namespace CrazyHarness.Checkpoints

open Lib

/-- `_TEMPLATE_FILES`. -/
def templateFiles : List (String × String) :=
  [("calculator.py",
    "def clamp(value: int, lower: int, upper: int) -> int:\n" ++
    "    if lower > upper:\n" ++
    "        raise ValueError(\"lower must not exceed upper\")\n" ++
    "    return min(lower, max(value, upper))\n"),
   ("tests/__init__.py", ""),
   ("tests/test_calculator.py",
    "import unittest\n\nfrom calculator import clamp\n\n\n" ++
    "class ClampTests(unittest.TestCase):\n" ++
    "    def test_value_inside_range_is_unchanged(self):\n" ++
    "        self.assertEqual(clamp(5, 0, 10), 5)\n\n" ++
    "    def test_value_is_clamped_at_both_bounds(self):\n" ++
    "        self.assertEqual(clamp(-3, 0, 10), 0)\n" ++
    "        self.assertEqual(clamp(15, 0, 10), 10)\n\n" ++
    "    def test_invalid_bounds_are_rejected(self):\n" ++
    "        with self.assertRaises(ValueError):\n" ++
    "            clamp(5, 10, 0)\n\n\n" ++
    "if __name__ == \"__main__\":\n" ++
    "    unittest.main()\n"),
   ("README.md",
    "Run `python -m unittest discover -s tests -v` and repair the implementation without changing tests.\n")]

/-- `fixture_files`. -/
def fixtureFiles : List (String × Bytes) := templateFiles.map (fun file => (file.1, utf8 file.2))

/-- What `fixture_hash` feeds. -/
def fixtureHashStream : Option Bytes := feedFiles (fixtureFiles.insertionSort ByPath)

/-- What `workspace_hash` feeds, for what `root.rglob("*")` has found. -/
def workspaceHashStream (found : List (Path × Node)) : Option Bytes := feedFiles (filesOf found)

theorem nodup_fixtureFiles : (fixtureFiles.map Prod.fst).Nodup := by
  have hpaths : fixtureFiles.map Prod.fst = templateFiles.map Prod.fst := by
    rw [fixtureFiles, List.map_map]
    rfl
  rw [hpaths]
  decide

/-- The lengths of the fixture fit. -/
theorem fixtureFiles_fit :
    ∀ file ∈ fixtureFiles, (utf8 file.1).length < 2 ^ 32 ∧ file.2.length < 2 ^ 64 := by
  decide +kernel

theorem fixtureHashStream_isSome : fixtureHashStream.isSome := by
  rw [fixtureHashStream, feedFiles_eq_framed]
  refine framed_isSome ?_
  intro file hfile
  exact fixtureFiles_fit file ((List.mem_insertionSort ByPath).mp hfile)

/-! ### The streams -/

section streams

variable {s : FileSystem} {root : Path} {found : List (Path × Node)}

/-- Two lists of files that are sorted by their paths are the same if they have the same members. -/
theorem filesOf_eq_iff (h : s.Lists root found) {files : List (String × Bytes)}
    (hnodup : (files.map Prod.fst).Nodup) :
    filesOf found = files.insertionSort ByPath ↔
      ∀ path content, s.HasFile root path content ↔ (path, content) ∈ files := by
  constructor
  · intro heq path content
    rw [← FileSystem.mem_filesOf h, heq, List.mem_insertionSort]
  · intro hsame
    rw [← filesOf_sorted found]
    refine sorted_files_eq (FileSystem.nodup_filesOf h) hnodup ?_
    rintro ⟨path, content⟩
    rw [FileSystem.mem_filesOf h, hsame]

/-- The files are in the strict order of their paths. -/
theorem filesOf_pairwise_lt (h : s.Lists root found) : (filesOf found).Pairwise (fun a b => a.1 < b.1) := by
  have hle : (filesOf found).Pairwise ByPath := List.pairwise_insertionSort ByPath _
  have hne := List.pairwise_map.mp (FileSystem.nodup_filesOf h)
  exact (hle.and hne).imp (fun hab => lt_of_le_of_ne hab.1 hab.2)

/-- A tree feeds what the fixture feeds exactly when its files are those of the fixture. -/
theorem workspaceHashStream_eq_fixture_iff (h : s.Lists root found) :
    workspaceHashStream found = fixtureHashStream ↔
      ∀ path content, s.HasFile root path content ↔ (path, content) ∈ fixtureFiles := by
  rw [← filesOf_eq_iff h nodup_fixtureFiles]
  constructor
  · intro heq
    obtain ⟨fed, hfed⟩ := Option.isSome_iff_exists.mp fixtureHashStream_isSome
    have hfound := heq.trans hfed
    rw [workspaceHashStream, feedFiles_eq_framed] at hfound
    rw [fixtureHashStream, feedFiles_eq_framed] at hfed
    exact framed_injective hfound hfed
  · intro heq
    rw [workspaceHashStream, fixtureHashStream, heq]

/-- No two lists of entries with lengths that fit feed the same. -/
theorem workspaceDigestStream_inj {es fs : List (WorkspaceFileEntry × Bytes)}
    (hes : ∀ e ∈ es, (utf8 e.1.path.1).length < 2 ^ 32 ∧ e.2.length < 2 ^ 64)
    (heq : workspaceDigestStream es = workspaceDigestStream fs) :
    es.map (fun e => (e.1.path.1, e.2)) = fs.map (fun e => (e.1.path.1, e.2)) := by
  rw [workspaceDigestStream, workspaceDigestStream, feedFiles_eq_framed, feedFiles_eq_framed] at heq
  have hfit : (framed (es.map (fun e => (e.1.path.1, e.2)))).isSome := by
    refine framed_isSome ?_
    intro file hfile
    obtain ⟨e, he, rfl⟩ := List.mem_map.mp hfile
    exact hes e he
  obtain ⟨fed, hfed⟩ := Option.isSome_iff_exists.mp hfit
  exact framed_injective hfed (heq.symm.trans hfed)

end streams

/-- Equal streams come from equal lists; a tree feeds its sorted files, and what the fixture feeds exactly
when they are the files of the fixture. -/
theorem tree_hash_streams :
    (∀ es fs : List (WorkspaceFileEntry × Bytes),
      (∀ e ∈ es, (utf8 e.1.path.1).length < 2 ^ 32 ∧ e.2.length < 2 ^ 64) →
      (∀ f ∈ fs, (utf8 f.1.path.1).length < 2 ^ 32 ∧ f.2.length < 2 ^ 64) →
      workspaceDigestStream es = workspaceDigestStream fs →
      es.map (fun e => (e.1.path.1, e.2)) = fs.map (fun f => (f.1.path.1, f.2))) ∧
    (∀ (s : FileSystem) (root : Path) (found : List (Path × Node)), s.Lists root found →
      (∃ files : List (String × Bytes), files.Pairwise (fun a b => a.1 < b.1) ∧
        (∀ path content, (path, content) ∈ files ↔ s.HasFile root path content) ∧
        workspaceHashStream found = feedFiles files) ∧
      (workspaceHashStream found = fixtureHashStream ↔
        ∀ path content, s.HasFile root path content ↔ (path, content) ∈ fixtureFiles)) := by
  refine ⟨fun es fs hes _ heq => workspaceDigestStream_inj hes heq, ?_⟩
  intro s root found h
  refine ⟨⟨filesOf found, filesOf_pairwise_lt h, ?_, rfl⟩, workspaceHashStream_eq_fixture_iff h⟩
  exact fun path content => FileSystem.mem_filesOf h

/-- An empty `README.md` beside a directory with one file. -/
def sourceTree : FileSystem :=
  ((FileSystem.bare.place [] "README.md" (.file []) rfl (by decide) (by decide)).place
    [] "src" .dir rfl (by decide) (by decide)).place ["src"] "main.py" (.file [10]) rfl (by decide) (by decide)

/-- An entry for `README.md`. -/
def readmeEntry : WorkspaceFileEntry := { path := ⟨"README.md", by decide⟩, size := 0, sha256 := hexdigest 0 }

/-- An entry for the file of the directory. -/
def mainEntry : WorkspaceFileEntry := { path := ⟨"src/main.py", by decide⟩, size := 1, sha256 := hexdigest 0 }

/-- The entries of the tree, with these contents. -/
def treeEntries (readme main : Bytes) : List (WorkspaceFileEntry × Bytes) :=
  [(readmeEntry, readme), (mainEntry, main)]

/-- The same bytes, divided otherwise between the two files, are fed otherwise; the tree is not the fixture. -/
theorem tree_hash_streams_nested :
    workspaceDigestStream (treeEntries [] [10]) ≠ workspaceDigestStream (treeEntries [10] []) ∧
      workspaceHashStream (sourceTree.listing []) = feedFiles [("README.md", []), ("src/main.py", [10])] ∧
        workspaceHashStream (sourceTree.listing []) ≠ fixtureHashStream := by
  refine ⟨fun heq => ?_, by decide +kernel, fun heq => ?_⟩
  · have hfit : ∀ e ∈ treeEntries [] [10], (utf8 e.1.path.1).length < 2 ^ 32 ∧ e.2.length < 2 ^ 64 := by
      decide +kernel
    have hfit' : ∀ e ∈ treeEntries [10] [], (utf8 e.1.path.1).length < 2 ^ 32 ∧ e.2.length < 2 ^ 64 := by
      decide +kernel
    have hsame := tree_hash_streams.1 _ _ hfit hfit' heq
    cases hsame
  · have hsame := (tree_hash_streams.2 sourceTree [] _ (FileSystem.lists_listing _ _)).2.mp heq
    have hmem := (hsame "src/main.py" [10]).mp ⟨["src", "main.py"], by decide, by decide, by decide⟩
    exact absurd hmem (by decide +kernel)

end CrazyHarness.Checkpoints
