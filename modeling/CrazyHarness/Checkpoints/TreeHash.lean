import CrazyHarness.Core.Hashing
import CrazyHarness.Lib.FileSystem

/-! # Tree hashes

`WorkspaceSnapshotStore._workspace_digest` (`core/checkpoints/workspace.py`) and the two hashes of
`RepoMaintainerTaskPack` (`taskpacks/repo_maintainer.py`) feed SHA-256 the files of a tree, one after the
other.  What each feeds is defined here; a length that has no room in its bytes raises `OverflowError`.

`feedFiles_eq_framed`: the three feed the frames of their lists, so that no two lists feed the same. -/

namespace CrazyHarness.Checkpoints

open Lib

/-- `WorkspaceFileEntry`. -/
structure WorkspaceFileEntry where
  path : SizedString 1 none
  size : ℕ
  sha256 : HexDigest
deriving DecidableEq

/-! ### What is fed -/

/-- The four calls of `digest.update` for one file; `fed` is what came before. -/
def feedFile (fed : Bytes) (file : String × Bytes) : Option Bytes := do
  let relative := utf8 file.1
  let fed := fed ++ (← bigEndian 4 relative.length)
  let fed := fed ++ relative
  let fed := fed ++ (← bigEndian 8 file.2.length)
  return fed ++ file.2

/-- The loop over the files. -/
def feedFiles (files : List (String × Bytes)) : Option Bytes := files.foldlM feedFile []

/-- What `_workspace_digest` feeds. -/
def workspaceDigestStream (entries : List (WorkspaceFileEntry × Bytes)) : Option Bytes :=
  feedFiles (entries.map (fun e => (e.1.path.1, e.2)))

theorem feedFile_eq (fed : Bytes) (file : String × Bytes) :
    feedFile fed file = (frame file.1 file.2).map (fed ++ ·) := by
  rw [feedFile, frame]
  cases bigEndian 4 (utf8 file.1).length with
  | none => rfl
  | some textLength =>
      cases bigEndian 8 file.2.length with
      | none => rfl
      | some contentLength => simp [List.append_assoc]

theorem foldlM_feedFile (files : List (String × Bytes)) (fed : Bytes) :
    files.foldlM feedFile fed = (framed files).map (fed ++ ·) := by
  induction files generalizing fed with
  | nil => simp [framed]
  | cons file files ih =>
      rw [List.foldlM_cons, feedFile_eq, framed]
      cases frame file.1 file.2 with
      | none => rfl
      | some first =>
          simp only [Option.map_some, Option.bind_eq_bind, Option.bind_some, ih]
          cases framed files with
          | none => rfl
          | some rest => simp [List.append_assoc]

theorem feedFiles_eq_framed (files : List (String × Bytes)) : feedFiles files = framed files := by
  rw [feedFiles, foldlM_feedFile]
  simp

end CrazyHarness.Checkpoints
