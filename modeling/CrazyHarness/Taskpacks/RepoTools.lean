import CrazyHarness.Core.TextFiles
import CrazyHarness.Lib.Except
import CrazyHarness.Lib.Occurrences
import CrazyHarness.Lib.Paths
import CrazyHarness.Tools.Schemas

/-! # Repository tools

`repo.replace` (`taskpacks/repo_tools.py`): it reads its target as text, with universal newlines, and writes it
back in bytes.

* `replaceText_changes_one_fragment`: what a call does to the files, and exactly when a call that succeeds has
  changed one fragment and nothing else of its target. -/

namespace CrazyHarness.Repo

open Lib

/-- The files of a disk, by their resolved paths. -/
abbrev Files := Path → Option Bytes

/-- The texts of the exceptions of the operating system, where there is one: at the reading of the target, at
the writing of the temporary file, which leaves a part of it, at its renaming and at its removal. -/
structure DiskFaults where
  read : Option String := none
  write : Option (String × Option Bytes) := none
  replace : Option String := none
  unlink : Option String := none

section replace

variable (root : Path) (resolve : String → Except String Path) (writablePaths : List String)
  (undecodable : Bytes → String) (hex : String)

/-- `_resolve_file`: the target and its path in the repository.  `resolve` is `(root / relative).resolve()`, which
follows the links of the disk. -/
def resolveFile (files : Files) (relative : String) : Except String (Path × String) := do
  ensure (relative ≠ "" ∧ relative.toList.head? ≠ some '/') "path must be a non-empty repository-relative path"
  let target ← resolve relative
  ensure (root <+: target) "path is outside repository"
  ensure (files target).isSome ("file not found: " ++ relative)
  return (target, posix (target.drop root.length))

/-- `_require_writable`. -/
def requireWritable (relative : String) : Except String Unit :=
  ensure (relative ∈ writablePaths) ("path is not writable for this task pack: " ++ relative)

/-- `target.with_name(f".{target.name}.{uuid4().hex}.tmp")`. -/
def temporaryOf (target : Path) : Path := target.dropLast ++ ["." ++ target.getLastD "" ++ "." ++ hex ++ ".tmp"]

/-- The `finally` of `_atomic_write` after an exception: the temporary file is removed, or another exception
takes its place. -/
def removeTemporary (faults : DiskFaults) (temporary : Path) (text : String) (files : Files) :
    Except String Unit × Files :=
  match files temporary, faults.unlink with
  | none, _ => (.error text, files)
  | some _, none => (.error text, Function.update files temporary none)
  | some _, some text => (.error text, files)

/-- `_atomic_write`. -/
def atomicWrite (faults : DiskFaults) (target : Path) (content : String) (files : Files) :
    Except String Unit × Files :=
  let temporary := temporaryOf hex target
  match faults.write with
  | some (text, part) => removeTemporary faults temporary text (Function.update files temporary part)
  | none =>
      let files := Function.update files temporary (some (utf8 content))
      match faults.replace with
      | some text => removeTemporary faults temporary text files
      | none => (.ok (), Function.update (Function.update files target (some (utf8 content))) temporary none)

/-- `target.read_text(encoding="utf-8")`. -/
def readTarget (faults : DiskFaults) (target : Path) (files : Files) : Except String String :=
  match faults.read, files target with
  | some text, _ => .error text
  | none, none => .error "file not found"
  | none, some bytes =>
      match readText bytes with
      | none => .error (undecodable bytes)
      | some text => .ok text

/-- `_replace_text` up to its write: the target, its path in the repository and the text to write. -/
def replacement (faults : DiskFaults) (files : Files) (relative old new : String) :
    Except String (Path × String × String) := do
  let (target, normalized) ← resolveFile root resolve files relative
  requireWritable writablePaths normalized
  let text ← readTarget undecodable faults target files
  let occurrences := countOccurrences old.toList text.toList
  ensure (occurrences = 1) s!"expected exactly one match in {normalized}, found {occurrences}"
  return (target, normalized, String.ofList (replaceFirst old.toList new.toList text.toList))

/-- `_replace_text`. -/
def replaceText (faults : DiskFaults) (files : Files) (relative old new : String) : ToolResult × Files :=
  match replacement root resolve writablePaths undecodable faults files relative old new with
  | .error text => ({ name := "repo.replace", status := "error", error := some text }, files)
  | .ok (target, normalized, text) =>
      match atomicWrite hex faults target text files with
      | (.error text, files) => ({ name := "repo.replace", status := "error", error := some text }, files)
      | (.ok (), files) =>
          ({ name := "repo.replace", status := "ok", output := "replaced one fragment in " ++ normalized }, files)

/-! ### What a call does -/

variable {root resolve writablePaths undecodable hex} {faults : DiskFaults} {files : Files}
  {relative old new : String}

/-- What is known where there is a text to write. -/
structure Planned (root : Path) (resolve : String → Except String Path) (writablePaths : List String)
    (files : Files) (relative old new : String) (target : Path) (content : String) (text : String) : Prop where
  resolved : resolve relative = .ok target
  inside : root <+: target
  writable : posix (target.drop root.length) ∈ writablePaths
  read : files target = some (utf8 content)
  once : countOccurrences old.toList (translateNewlines content.toList) = 1
  written : text.toList = replaceFirst old.toList new.toList (translateNewlines content.toList)

theorem replacement_ok {target : Path} {normalized text : String}
    (h : replacement root resolve writablePaths undecodable faults files relative old new =
      .ok (target, normalized, text)) :
    ∃ content, Planned root resolve writablePaths files relative old new target content text := by
  obtain ⟨⟨found, path⟩, hfound, h⟩ := bind_ok_iff.mp h
  obtain ⟨_, hwritable, h⟩ := bind_ok_iff.mp h
  obtain ⟨read, hread, h⟩ := bind_ok_iff.mp h
  obtain ⟨_, hcount, h⟩ := bind_ok_iff.mp h
  cases h
  obtain ⟨_, -, hfound⟩ := bind_ok_iff.mp hfound
  obtain ⟨resolved, hresolved, hfound⟩ := bind_ok_iff.mp hfound
  obtain ⟨_, hinside, hfound⟩ := bind_ok_iff.mp hfound
  obtain ⟨_, hfile, hfound⟩ := bind_ok_iff.mp hfound
  cases hfound
  obtain ⟨bytes, hbytes⟩ := Option.isSome_iff_exists.mp (ensure_ok_iff.mp hfile)
  unfold readTarget at hread
  rw [hbytes] at hread
  cases hfault : faults.read with
  | some failed =>
      rw [hfault] at hread
      cases hread
  | none =>
      rw [hfault] at hread
      simp only [readText] at hread
      cases hcontent : decodeUtf8 bytes with
      | none =>
          rw [hcontent] at hread
          cases hread
      | some content =>
          rw [hcontent] at hread
          obtain rfl := Except.ok.inj hread
          obtain rfl := decodeUtf8_eq_some_iff.mp hcontent
          refine ⟨content, hresolved, ensure_ok_iff.mp hinside, ensure_ok_iff.mp hwritable, hbytes, ?_, ?_⟩
          · rw [← ensure_ok_iff.mp hcount, universalNewlines, String.toList_ofList]
          · rw [String.toList_ofList, universalNewlines, String.toList_ofList]

theorem atomicWrite_ok {target : Path} {text : String} {files' : Files} {u : Unit}
    (h : atomicWrite hex faults target text files = (.ok u, files')) :
    files' = Function.update (Function.update files target (some (utf8 text))) (temporaryOf hex target) none := by
  have hnot : ∀ failed fs, removeTemporary faults (temporaryOf hex target) failed fs ≠ (.ok u, files') := by
    intro failed fs heq
    unfold removeTemporary at heq
    split at heq <;> cases (Prod.mk.inj heq).1
  simp only [atomicWrite] at h
  split at h
  next => exact absurd h (hnot _ _)
  next =>
    split at h
    next => exact absurd h (hnot _ _)
    next =>
      rw [← (Prod.mk.inj h).2]
      funext p
      by_cases hp : p = temporaryOf hex target
      · rw [hp, Function.update_self, Function.update_self]
      · rw [Function.update_of_ne hp, Function.update_of_ne hp]
        by_cases hp' : p = target
        · rw [hp', Function.update_self, Function.update_self]
        · rw [Function.update_of_ne hp', Function.update_of_ne hp', Function.update_of_ne hp]

/-- Of a write that fails, at most its temporary file is left. -/
theorem atomicWrite_error {target : Path} {text failed : String} {files' : Files}
    (hfresh : files (temporaryOf hex target) = none)
    (h : atomicWrite hex faults target text files = (.error failed, files')) :
    (∀ p, p ≠ temporaryOf hex target → files' p = files p) ∧ (faults.unlink = none → files' = files) := by
  have hremoved : ∀ raised part,
      removeTemporary faults (temporaryOf hex target) raised
        (Function.update files (temporaryOf hex target) part) = (.error failed, files') →
      (∀ p, p ≠ temporaryOf hex target → files' p = files p) ∧ (faults.unlink = none → files' = files) := by
    intro raised part heq
    unfold removeTemporary at heq
    rw [Function.update_self] at heq
    split at heq
    next =>
      obtain rfl := (Prod.mk.inj heq).2
      rw [← hfresh, Function.update_eq_self]
      exact ⟨fun p _ => rfl, fun _ => rfl⟩
    next =>
      obtain rfl := (Prod.mk.inj heq).2
      rw [Function.update_idem, ← hfresh, Function.update_eq_self]
      exact ⟨fun p _ => rfl, fun _ => rfl⟩
    next hunlink =>
      obtain rfl := (Prod.mk.inj heq).2
      refine ⟨fun p hp => Function.update_of_ne hp _ _, fun hnone => ?_⟩
      rw [hnone] at hunlink
      cases hunlink
  simp only [atomicWrite] at h
  split at h
  next => exact hremoved _ _ h
  next =>
    split at h
    next => exact hremoved _ _ h
    next => cases (Prod.mk.inj h).1

/-- What a call that succeeds has done. -/
theorem replaceText_ok
    (h : (replaceText root resolve writablePaths undecodable hex faults files relative old new).1.status = "ok") :
    ∃ target content text, Planned root resolve writablePaths files relative old new target content text ∧
      (replaceText root resolve writablePaths undecodable hex faults files relative old new).2 =
        Function.update (Function.update files target (some (utf8 text))) (temporaryOf hex target) none := by
  unfold replaceText at h ⊢
  cases hplan : replacement root resolve writablePaths undecodable faults files relative old new with
  | error text =>
      rw [hplan] at h
      exact absurd h (by decide : ("error" : String) ≠ "ok")
  | ok planned =>
      obtain ⟨target, normalized, text⟩ := planned
      obtain ⟨content, hplanned⟩ := replacement_ok hplan
      refine ⟨target, content, text, hplanned, ?_⟩
      rw [hplan] at h
      simp only at h ⊢
      rcases hwrite : atomicWrite hex faults target text files with ⟨result, files'⟩
      rw [hwrite] at h
      cases result with
      | error failed => exact absurd h (by decide : ("error" : String) ≠ "ok")
      | ok u => exact atomicWrite_ok hwrite

/-- What a call that does not succeed leaves as it was. -/
theorem replaceText_not_ok (hfresh : ∀ target, files (temporaryOf hex target) = none)
    (h : (replaceText root resolve writablePaths undecodable hex faults files relative old new).1.status ≠ "ok") :
    (∀ p, (files p).isSome →
      (replaceText root resolve writablePaths undecodable hex faults files relative old new).2 p = files p) ∧
    (faults.unlink = none →
      (replaceText root resolve writablePaths undecodable hex faults files relative old new).2 = files) := by
  unfold replaceText at h ⊢
  cases hplan : replacement root resolve writablePaths undecodable faults files relative old new with
  | error text => exact ⟨fun _ _ => rfl, fun _ => rfl⟩
  | ok planned =>
      obtain ⟨target, normalized, text⟩ := planned
      rw [hplan] at h
      simp only at h ⊢
      rcases hwrite : atomicWrite hex faults target text files with ⟨result, files'⟩
      rw [hwrite] at h
      cases result with
      | error failed =>
          obtain ⟨hothers, hall⟩ := atomicWrite_error (hfresh target) hwrite
          refine ⟨fun p hp => hothers p ?_, hall⟩
          rintro rfl
          rw [hfresh target] at hp
          cases hp
      | ok u => exact absurd rfl h

end replace

/-! ### One fragment -/

/-- `content'` is `content` with its only occurrence of `old` replaced. -/
def ReplacesOnly (old new content content' : List Char) : Prop :=
  ∃ i, Occurs old content i ∧ (∀ j, Occurs old content j → j = i) ∧
    content' = content.take i ++ new ++ content.drop (i + old.length)

/-- What is found once in the translated text and replaced there has been replaced in the text itself exactly
when nothing was translated and no other occurrence overlaps with it. -/
theorem replacesOnly_iff {old new content : List Char}
    (hone : countOccurrences old (translateNewlines content) = 1) :
    ReplacesOnly old new content (replaceFirst old new (translateNewlines content)) ↔
      '\r' ∉ content ∧ NoOverlap old content := by
  obtain ⟨k, hk, hothers⟩ := occurs_of_count_eq_one hone
  have hreplaced := @replaceFirst_eq _ _ _ _ _ new hk (fun j hj => by have := hothers j hj; omega)
  constructor
  · rintro ⟨i, hi, hunique, heq⟩
    refine ⟨?_, ?_⟩
    · -- carriage returns are counted on both sides: the translated text has none
      have hnone : (translateNewlines content).count '\r' = 0 :=
        List.count_eq_zero.mpr (not_mem_translateNewlines content)
      have hcount := congrArg (List.count '\r') heq
      have hsplit := congrArg (List.count '\r') hi.split
      have hsplit' := congrArg (List.count '\r') hk.split
      rw [hreplaced] at hcount
      simp only [List.count_append] at hcount hsplit hsplit'
      rw [hnone] at hsplit'
      exact List.count_eq_zero.mp (by omega)
    · intro a b ha hb hlt
      rw [hunique a ha, hunique b hb] at hlt
      exact absurd hlt (lt_irrefl i)
  · rintro ⟨hr, hoverlap⟩
    rw [translateNewlines_eq_self hr] at hk hothers hreplaced ⊢
    refine ⟨k, hk, ?_, hreplaced⟩
    intro j hj
    rcases hothers j hj with heq | ⟨hlt, hin⟩
    · exact heq
    · have := hoverlap k j hk hj hlt
      omega

/-- A call that succeeds writes one file that may be written, and replaces one fragment of it and nothing else
exactly when the content has no carriage return and no two occurrences of the fragment overlap.  A call that
fails changes no file; a temporary file is left only where it cannot be removed. -/
theorem replaceText_changes_one_fragment (root : Path) (resolve : String → Except String Path)
    (writablePaths : List String) (undecodable : Bytes → String) (hex : String) (faults : DiskFaults)
    (files files' : Files) (relative old new : String) (result : ToolResult)
    (hfresh : ∀ target, files (temporaryOf hex target) = none)
    (hcall : replaceText root resolve writablePaths undecodable hex faults files relative old new =
      (result, files')) :
    (result.status = "ok" → ∃ target content content', resolve relative = .ok target ∧ root <+: target ∧
      posix (target.drop root.length) ∈ writablePaths ∧
      files target = some (utf8 content) ∧ files' target = some (utf8 content') ∧
      (∀ p, p ≠ target → files' p = files p) ∧
      (ReplacesOnly old.toList new.toList content.toList content'.toList ↔
        '\r' ∉ content.toList ∧ NoOverlap old.toList content.toList)) ∧
    (result.status ≠ "ok" → (∀ p, (files p).isSome → files' p = files p) ∧
      (faults.unlink = none → files' = files)) := by
  refine ⟨fun hok => ?_, fun hnot => ?_⟩
  · have hok' : (replaceText root resolve writablePaths undecodable hex faults files relative old
        new).1.status = "ok" := by rw [hcall, hok]
    obtain ⟨target, content, text, hplanned, hwrite⟩ := replaceText_ok hok'
    simp only [hcall] at hwrite
    have hne : target ≠ temporaryOf hex target := by
      intro heq
      have hread := hplanned.read
      rw [heq, hfresh target] at hread
      cases hread
    refine ⟨target, content, text, hplanned.resolved, hplanned.inside, hplanned.writable, hplanned.read,
      ?_, ?_, ?_⟩
    · rw [hwrite, Function.update_of_ne hne, Function.update_self]
    · intro p hp
      rw [hwrite]
      by_cases htemp : p = temporaryOf hex target
      · rw [htemp, Function.update_self, hfresh target]
      · rw [Function.update_of_ne htemp, Function.update_of_ne hp]
    · rw [hplanned.written]
      exact replacesOnly_iff hplanned.once
  · have hnot' : (replaceText root resolve writablePaths undecodable hex faults files relative old
        new).1.status ≠ "ok" := by rwa [hcall]
    have hframe := replaceText_not_ok hfresh hnot'
    rwa [hcall] at hframe

/-- One file `a.py` with this content, in a repository at the root. -/
def oneFile (content : String) : Files := fun p => if p = ["a.py"] then some (utf8 content) else none

theorem oneFile_fresh (content : String) (target : Path) : oneFile content (temporaryOf "0" target) = none := by
  rw [oneFile, if_neg]
  intro heq
  have hlast := congrArg (fun p => p.getLastD "") heq
  simp only [temporaryOf, List.getLastD_concat] at hlast
  have hhead := congrArg (fun s => s.toList.head?) hlast
  simp [String.toList_append] at hhead

/-- The calls below: `a.py` may be written, and the disk works. -/
def replaceInOneFile (content old new : String) : ToolResult × Files :=
  replaceText [] (fun relative => .ok [relative]) ["a.py"] (fun _ => "") "0" {} (oneFile content) "a.py" old new

theorem replaceText_changes_one_fragment_oneFile :
    ∃ target content content', (.ok ["a.py"] : Except String Path) = .ok target ∧ [] <+: target ∧
      posix (target.drop 0) ∈ ["a.py"] ∧
      oneFile "ab" target = some (utf8 content) ∧
      (replaceInOneFile "ab" "a" "c").2 target = some (utf8 content') ∧
      (∀ p, p ≠ target → (replaceInOneFile "ab" "a" "c").2 p = oneFile "ab" p) ∧
      (ReplacesOnly "a".toList "c".toList content.toList content'.toList ↔
        '\r' ∉ content.toList ∧ NoOverlap "a".toList content.toList) :=
  (replaceText_changes_one_fragment [] (fun relative => .ok [relative]) ["a.py"] (fun _ => "") "0" {}
    (oneFile "ab") _ "a.py" "a" "c" _ (oneFile_fresh "ab") rfl).1 (by decide +kernel)

/-- A carriage return of another line is lost, and an occurrence that overlaps with another is replaced. -/
theorem replaceInOneFile_crlf :
    ((replaceInOneFile "a\r\nb" "a" "c").1.status = "ok" ∧
      (replaceInOneFile "a\r\nb" "a" "c").2 ["a.py"] = some (utf8 "c\nb") ∧
      ¬ ReplacesOnly "a".toList "c".toList "a\r\nb".toList "c\nb".toList) ∧
    ((replaceInOneFile "aaa" "aa" "b").1.status = "ok" ∧
      Occurs "aa".toList "aaa".toList 0 ∧ Occurs "aa".toList "aaa".toList 1) := by
  refine ⟨⟨by decide +kernel, by decide +kernel, ?_⟩, by decide +kernel, by simp, by simp⟩
  intro honly
  have hiff := @replacesOnly_iff "a".toList "c".toList "a\r\nb".toList (by decide)
  exact (hiff.mp honly).1 (by decide)

end CrazyHarness.Repo
