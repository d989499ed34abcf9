import CrazyHarness.Lib.Framing
import CrazyHarness.Lib.Paths
import CrazyHarness.Lib.Sorting

/-! # A file system

A `FileSystem` is a tree of directories, files and other nodes.  `Lists` is what `rglob` finds below a
directory, in any order; `filesOf` are the files among it in the order of their paths, which is the map of the
directory (`mem_filesOf`).

Paths are resolved: what lies behind a symbolic link has a path of its own. -/

namespace Lib

/-! ### Trees -/

/-- What a path leads to; a link knows what reading it gives. -/
inductive Node where
  | dir
  | file (content : Bytes)
  | symlink (behind : Option Bytes)
  | special
deriving DecidableEq

/-- What reading a node gives. -/
def Node.content : Node → Option Bytes
  | .file content => some content
  | .symlink behind => behind
  | _ => none

/-- A tree of nodes with a finite list of its paths, in no order. -/
structure FileSystem where
  node : Path → Option Node
  listed : List Path
  complete : ∀ p, (node p).isSome → p ∈ listed
  root : node [] = some .dir
  tree : ∀ p name, (node (p ++ [name])).isSome → node p = some .dir
  named : ∀ p name, (node (p ++ [name])).isSome → ValidName name

namespace FileSystem

variable {s : FileSystem}

/-- The names on the way to a node are valid. -/
theorem validName_of_mem {p : Path} (h : (s.node p).isSome) : ∀ name ∈ p, ValidName name := by
  induction p using List.reverseRecOn with
  | nil => exact fun name hname => absurd hname List.not_mem_nil
  | append_singleton p last ih =>
      intro name hname
      rcases List.mem_append.mp hname with hname | hname
      · refine ih ?_ name hname
        rw [s.tree p last h]
        rfl
      · obtain rfl := List.mem_singleton.mp hname
        exact s.named p name h

/-- What reading a path gives. -/
def content (s : FileSystem) (p : Path) : Option Bytes := (s.node p).bind Node.content

/-- The nodes below a directory, by their relative paths, in any order. -/
structure Lists (s : FileSystem) (d : Path) (found : List (Path × Node)) : Prop where
  nodup : (found.map Prod.fst).Nodup
  mem_iff : ∀ rel n, (rel, n) ∈ found ↔ rel ≠ [] ∧ s.node (d ++ rel) = some n

/-- The map of a directory: what is read at its relative paths. -/
def HasFile (s : FileSystem) (d : Path) (path : String) (content : Bytes) : Prop :=
  ∃ rel, rel ≠ [] ∧ posix rel = path ∧ s.content (d ++ rel) = some content

end FileSystem

/-! ### Maps of directories -/

/-- In the order of the paths. -/
def ByPath (a b : String × Bytes) : Prop := a.1 ≤ b.1

instance : DecidableRel ByPath := fun a b => inferInstanceAs (Decidable (a.1 ≤ b.1))

instance : Std.Total ByPath := ⟨fun a b => le_total a.1 b.1⟩

instance : IsTrans (String × Bytes) ByPath := ⟨fun _ _ _ => le_trans⟩

/-- The files among what `rglob` has found, in the order of their paths. -/
def filesOf (found : List (Path × Node)) : List (String × Bytes) :=
  (found.filterMap (fun x => x.2.content.map (fun content => (posix x.1, content)))).insertionSort ByPath

/-- Lists of files with different paths that have the same members are the same in order. -/
theorem sorted_files_eq {xs ys : List (String × Bytes)} (hxs : (xs.map Prod.fst).Nodup)
    (hys : (ys.map Prod.fst).Nodup) (hmem : ∀ e, e ∈ xs ↔ e ∈ ys) :
    xs.insertionSort ByPath = ys.insertionSort ByPath := by
  refine sorted_eq_of_mem_iff (List.Nodup.of_map Prod.fst hxs) (List.Nodup.of_map Prod.fst hys) hmem ?_
  intro a ha b hb hab hba
  exact List.inj_on_of_nodup_map hxs ha hb (le_antisymm hab hba)

theorem filesOf_sorted (found : List (Path × Node)) : (filesOf found).insertionSort ByPath = filesOf found :=
  (List.pairwise_insertionSort ByPath _).insertionSort_eq

namespace FileSystem

variable {s : FileSystem} {d : Path} {found : List (Path × Node)}

theorem validName_of_lists (h : s.Lists d found) {rel : Path} {n : Node} (hmem : (rel, n) ∈ found) :
    ∀ name ∈ rel, ValidName name := by
  obtain ⟨-, hnode⟩ := (h.mem_iff rel n).mp hmem
  intro name hname
  exact validName_of_mem (by rw [hnode]; rfl) name (List.mem_append_right d hname)

theorem mem_filesOf (h : s.Lists d found) {path : String} {content : Bytes} :
    (path, content) ∈ filesOf found ↔ s.HasFile d path content := by
  rw [filesOf, List.mem_insertionSort, List.mem_filterMap]
  constructor
  · rintro ⟨⟨rel, n⟩, hmem, hread⟩
    obtain ⟨hrel, hnode⟩ := (h.mem_iff rel n).mp hmem
    obtain ⟨c, hc, heq⟩ := Option.map_eq_some_iff.mp hread
    obtain ⟨rfl, rfl⟩ := Prod.mk.inj heq
    exact ⟨rel, hrel, rfl, by rw [FileSystem.content, hnode, Option.bind_some, hc]⟩
  · rintro ⟨rel, hrel, rfl, hcontent⟩
    obtain ⟨n, hnode, hc⟩ := Option.bind_eq_some_iff.mp hcontent
    exact ⟨(rel, n), (h.mem_iff rel n).mpr ⟨hrel, hnode⟩, by rw [hc]; rfl⟩

/-- The paths of the files are different. -/
theorem nodup_filesOf (h : s.Lists d found) : ((filesOf found).map Prod.fst).Nodup := by
  rw [filesOf, ((List.perm_insertionSort ByPath (found.filterMap _)).map Prod.fst).nodup_iff,
    List.Nodup, List.pairwise_map, List.pairwise_filterMap]
  refine (List.pairwise_map.mp h.nodup).imp_of_mem ?_
  rintro ⟨rel, n⟩ ⟨rel', n'⟩ hmem hmem' hne e he e' he' heq
  obtain ⟨content, -, rfl⟩ := Option.map_eq_some_iff.mp he
  obtain ⟨content', -, rfl⟩ := Option.map_eq_some_iff.mp he'
  exact hne (posix_inj (validName_of_lists h hmem) (validName_of_lists h hmem') heq)

end FileSystem

/-! ### A disk -/

namespace FileSystem

/-- Only the root. -/
def bare : FileSystem where
  node p := if p = [] then some .dir else none
  listed := [[]]
  complete := by
    intro p hp
    split at hp
    next h => exact List.mem_singleton.mpr h
    next => cases hp
  root := if_pos rfl
  tree := by
    intro p name hp
    rw [if_neg (by simp)] at hp
    cases hp
  named := by
    intro p name hp
    rw [if_neg (by simp)] at hp
    cases hp

/-- A node at a free name of a directory, or in the place of a file. -/
def place (s : FileSystem) (parent : Path) (name : String) (n : Node) (hparent : s.node parent = some .dir)
    (hname : ValidName name) (hold : s.node (parent ++ [name]) ≠ some .dir) : FileSystem where
  node := Function.update s.node (parent ++ [name]) (some n)
  listed := (parent ++ [name]) :: s.listed
  complete := by
    intro p hp
    by_cases heq : p = parent ++ [name]
    · exact heq ▸ List.mem_cons_self
    · rw [Function.update_of_ne heq] at hp
      exact List.mem_cons_of_mem _ (s.complete p hp)
  root := by
    rw [Function.update_of_ne (by simp), s.root]
  tree := by
    intro p last hp
    by_cases heq : p ++ [last] = parent ++ [name]
    · obtain ⟨rfl, -⟩ := List.append_inj' heq rfl
      rw [Function.update_of_ne (by simp), hparent]
    · rw [Function.update_of_ne heq] at hp
      have hdir := s.tree p last hp
      have hne : p ≠ parent ++ [name] := by
        rintro rfl
        exact hold hdir
      rw [Function.update_of_ne hne, hdir]
  named := by
    intro p last hp
    by_cases heq : p ++ [last] = parent ++ [name]
    · obtain ⟨-, hlast⟩ := List.append_inj' heq rfl
      obtain rfl := List.singleton_inj.mp hlast
      exact hname
    · rw [Function.update_of_ne heq] at hp
      exact s.named p last hp

/-- What `rglob` finds at a path. -/
def foundAt (s : FileSystem) (d p : Path) : Option (Path × Node) :=
  if d <+: p ∧ p ≠ d then (s.node p).map (fun n => (p.drop d.length, n)) else none

theorem foundAt_eq_some_iff {s : FileSystem} {d p rel : Path} {n : Node} :
    s.foundAt d p = some (rel, n) ↔ p = d ++ rel ∧ rel ≠ [] ∧ s.node p = some n := by
  rw [foundAt]
  constructor
  · intro h
    split_ifs at h with hbelow
    obtain ⟨⟨below, rfl⟩, hne⟩ := hbelow
    obtain ⟨m, hnode, heq⟩ := Option.map_eq_some_iff.mp h
    obtain ⟨rfl, rfl⟩ := Prod.mk.inj heq
    rw [List.drop_left]
    exact ⟨rfl, fun h => hne (by rw [h, List.append_nil]), hnode⟩
  · rintro ⟨rfl, hrel, hnode⟩
    have hne : d ++ rel ≠ d := fun h => hrel (List.append_right_eq_self.mp h)
    rw [if_pos ⟨List.prefix_append d rel, hne⟩, hnode, Option.map_some, List.drop_left]

/-- What `rglob` finds, in the order of the list. -/
def listing (s : FileSystem) (d : Path) : List (Path × Node) := s.listed.dedup.filterMap (s.foundAt d)

theorem lists_listing (s : FileSystem) (d : Path) : s.Lists d (s.listing d) := by
  constructor
  · rw [listing, List.map_filterMap]
    refine List.Nodup.filterMap ?_ (List.nodup_dedup s.listed)
    intro p p' rel hp hp'
    obtain ⟨⟨_, n⟩, hfound, rfl⟩ := Option.map_eq_some_iff.mp hp
    obtain ⟨⟨_, n'⟩, hfound', heq⟩ := Option.map_eq_some_iff.mp hp'
    obtain rfl : _ = _ := heq
    rw [(foundAt_eq_some_iff.mp hfound).1, (foundAt_eq_some_iff.mp hfound').1]
  · intro rel n
    rw [listing, List.mem_filterMap]
    constructor
    · rintro ⟨p, -, hfound⟩
      obtain ⟨rfl, hrel, hnode⟩ := foundAt_eq_some_iff.mp hfound
      exact ⟨hrel, hnode⟩
    · rintro ⟨hrel, hnode⟩
      have hlisted := s.complete (d ++ rel) (by rw [hnode]; rfl)
      exact ⟨d ++ rel, List.mem_dedup.mpr hlisted, foundAt_eq_some_iff.mpr ⟨rfl, hrel, hnode⟩⟩

end FileSystem

end Lib
