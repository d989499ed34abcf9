import CrazyHarness.Core.Hashing
import CrazyHarness.Core.TextFiles
import CrazyHarness.Lib.Except
import CrazyHarness.Lib.Sha256
import CrazyHarness.Taskpacks.ResearchSources
import CrazyHarness.Tools.Schemas

/-! # Research reports

`research.report.write` and `research.report.validate` (`taskpacks/research_tools.py`).  The writer keeps the
text as it is, the validator reads it with universal newlines and takes the hash of what it has read.

* `report_hash_iff`: the hash of a validated report is the hash of its file exactly when no carriage return was
  written. -/

namespace CrazyHarness.Research

open Lib

/-! ### Writing -/

/-- `_MAX_REPORT_CHARS`. -/
def maxReportChars : ℕ := 50000

/-- `_write_report`: what it answers and the bytes of `report.md` after it.  `raised` is the text of the
exception of its `try` block, if there is one: then `os.replace` has not happened. -/
def writeReport (raised : Option String) (content : String) (report : Option Bytes) :
    ToolResult × Option Bytes :=
  if strip content = "" then
    ({ name := "research.report.write", status := "error", error := some "report is empty" }, report)
  else if content.length > maxReportChars then
    ({ name := "research.report.write", status := "error",
       error := some s!"report exceeds {maxReportChars} characters" }, report)
  else match raised with
    | some text => ({ name := "research.report.write", status := "error", error := some text }, report)
    | none =>
        ({ name := "research.report.write", status := "ok",
           output := s!"updated report.md ({content.length} chars)" }, some (utf8 content))

/-! ### What a report must have -/

/-- `\s*$` at these characters. -/
def matchesBlankLine : List Char → Bool
  | [] => true
  | c :: cs => c = '\n' || (isSpace c && matchesBlankLine cs)

/-- `heading\s*$` at these characters. -/
def matchesHeading (heading cs : List Char) : Bool :=
  heading.isPrefixOf cs && matchesBlankLine (cs.drop heading.length)

/-- A search for `^heading\s*$` over several lines; `start` is whether a line starts here. -/
def hasHeading (heading : List Char) : Bool → List Char → Bool
  | start, [] => start && matchesHeading heading []
  | start, c :: cs => (start && matchesHeading heading (c :: cs)) || hasHeading heading (c = '\n') cs

/-- `_REQUIRED_HEADINGS`. -/
def requiredHeadings : List String := ["# Recommendation", "## Findings", "## Risks", "## Sources"]

/-- What follows a text. -/
def afterText (text : String) (cs : List Char) : Option (List Char) :=
  if text.toList.isPrefixOf cs then some (cs.drop text.length) else none

/-- `[a-z0-9]+(?:-[a-z0-9]+)*` where another character than these follows. -/
def identifierAt (cs : List Char) : Option (String × List Char) :=
  let run := cs.takeWhile (fun c => isIdentifierChar c || c = '-')
  if isIdentifier run then some (String.ofList run, cs.drop run.length) else none

/-- `_CITATION` at these characters: its two groups, and what follows. -/
def citationAt (cs : List Char) : Option ((String × String) × List Char) := do
  let cs ← afterText "[source:" cs
  let (sourceId, cs) ← identifierAt cs
  let cs ← afterText "#" cs
  let (evidenceId, cs) ← identifierAt cs
  let cs ← afterText "]" cs
  return ((sourceId, evidenceId), cs)

/-- `_CITATION.findall`, once the next `skip` characters are passed. -/
def findCitations : ℕ → List Char → List (String × String)
  | _, [] => []
  | skip + 1, _ :: cs => findCitations skip cs
  | 0, c :: cs =>
      match citationAt (c :: cs) with
      | none => findCitations 0 cs
      | some (citation, rest) => citation :: findCitations (cs.length - rest.length) cs

/-- The order of pairs of texts. -/
def PairLe (a b : String × String) : Prop := a.1 < b.1 ∨ (a.1 = b.1 ∧ a.2 ≤ b.2)

instance : DecidableRel PairLe := fun _ _ => inferInstanceAs (Decidable (_ ∨ (_ ∧ _)))

/-- `source:source_id#evidence_id`. -/
def citationText (citation : String × String) : String := "source:" ++ citation.1 ++ "#" ++ citation.2

/-! ### Validation -/

/-- What a validation answers. -/
structure ValidationPayload where
  reportPath : String := "report.md"
  reportSha256 : HexDigest
  citations : List String
  sourceIds : List String
deriving DecidableEq

/-- The payload as a dictionary. -/
def ValidationPayload.dump (p : ValidationPayload) : Dict :=
  [("report_path", .str p.reportPath), ("report_sha256", .str p.reportSha256.1),
   ("citations", .list (p.citations.map .str)), ("source_ids", .list (p.sourceIds.map .str))]

section validation

variable (sources : SourceMap) (sha256 : Bytes → BitVec 256)

/-- The citations of a report, each once. -/
def citationsOf (report : String) : List (String × String) := (findCitations 0 report.toList).eraseDups

/-- The identifiers of the sources that are cited, in order. -/
def citedSources (report : String) : List String :=
  (((citationsOf report).map Prod.fst).eraseDups).insertionSort (· ≤ ·)

/-- The `failures`. -/
def reportFailures (report : String) : List String :=
  let citations := citationsOf report
  let unknown := (citations.filter (fun citation => citation ∉ sources.known)).insertionSort PairLe
  (if report.length > maxReportChars then [s!"report exceeds {maxReportChars} characters"] else []) ++
  (requiredHeadings.filter (fun heading => !hasHeading heading.toList true report.toList)).map
    ("missing heading: " ++ ·) ++
  (if unknown ≠ [] then ["unknown citation: " ++ ", ".intercalate (unknown.map citationText)] else []) ++
  (if citations.length < 3 then ["report requires at least three unique citations"] else []) ++
  (if (citedSources report).length < 2 then ["report requires citations from at least two sources"] else [])

/-- `read_text` of `report.md`.  `raised` is the text of an exception of the disk, `missing` and `undecodable`
are the texts of the others. -/
def readReport (missing undecodable : String) (raised : Option String) (report : Option Bytes) :
    Except String String :=
  match raised, report with
  | some text, _ => .error text
  | none, none => .error missing
  | none, some bytes =>
      match readText bytes with
      | none => .error undecodable
      | some text => .ok text

/-- What `_validate_report` makes of what it has read: its payload, or its error. -/
def validationOf (read : Except String String) : Except String ValidationPayload := do
  let report ← read
  if reportFailures sources report ≠ [] then .error ("; ".intercalate (reportFailures sources report))
  else return {
    reportSha256 := hexdigest (sha256 (utf8 report))
    citations := (citationsOf report).map citationText
    sourceIds := citedSources report }

/-- `_validate_report`; `dumps` is `json.dumps(_, ensure_ascii=False, sort_keys=True)`. -/
def validateReport (dumps : Json → String) (read : Except String String) : ToolResult :=
  match validationOf sources sha256 read with
  | .error text => { name := "research.report.validate", status := "error", error := some text }
  | .ok payload => { name := "research.report.validate", status := "ok", output := dumps (.dict payload.dump) }

/-! ### The hash -/

variable {sources sha256} {raised raised' : Option String} {content : String} {report : Option Bytes}

theorem error_ne_ok : ("error" : String) ≠ "ok" := by decide

/-- What an accepted write leaves behind. -/
theorem writeReport_ok (h : (writeReport raised content report).1.status = "ok") :
    (writeReport raised content report).2 = some (utf8 content) := by
  unfold writeReport at h ⊢
  split_ifs at h ⊢ with hblank hlong
  · exact absurd h error_ne_ok
  · exact absurd h error_ne_ok
  · cases raised with
    | some text => exact absurd h error_ne_ok
    | none => rfl

/-- An accepted validation answers with its payload. -/
theorem validateReport_ok {dumps : Json → String} {read : Except String String}
    (h : (validateReport sources sha256 dumps read).status = "ok") :
    ∃ payload, validationOf sources sha256 read = .ok payload ∧
      (validateReport sources sha256 dumps read).output = dumps (.dict payload.dump) := by
  unfold validateReport at h ⊢
  cases hof : validationOf sources sha256 read with
  | error text =>
      rw [hof] at h
      exact absurd h error_ne_ok
  | ok payload => exact ⟨payload, rfl, rfl⟩

/-- The hash is that of the text that was read. -/
theorem reportSha256_of_ok {read : Except String String} {payload : ValidationPayload}
    (h : validationOf sources sha256 read = .ok payload) :
    ∃ text, read = .ok text ∧ reportFailures sources text = [] ∧
      payload.reportSha256 = hexdigest (sha256 (utf8 text)) := by
  cases read with
  | error text => cases h
  | ok text =>
      rw [validationOf, ok_bind] at h
      split at h
      next => cases h
      next hnone =>
        obtain rfl := Except.ok.inj h
        exact ⟨text, rfl, not_not.mp hnone, rfl⟩

/-- The text that is read of a report. -/
theorem readReport_utf8 {missing undecodable text : String}
    (h : readReport missing undecodable raised (some (utf8 content)) = .ok text) :
    text = universalNewlines content := by
  cases raised with
  | some failed => cases h
  | none =>
      rw [readReport, readText_utf8] at h
      exact (Except.ok.inj h).symm

/-- The hash of a report is that of its text with universal newlines. -/
theorem reportSha256_eq {missing undecodable : String} {payload : ValidationPayload}
    (hwrite : (writeReport raised content report).1.status = "ok")
    (h : validationOf sources sha256
      (readReport missing undecodable raised' (writeReport raised content report).2) = .ok payload) :
    payload.reportSha256 = hexdigest (sha256 (utf8 (universalNewlines content))) := by
  rw [writeReport_ok hwrite] at h
  obtain ⟨text, hread, -, hhash⟩ := reportSha256_of_ok h
  rw [hhash, readReport_utf8 hread]

theorem reportSha256_ne {missing undecodable : String} {payload : ValidationPayload}
    (hdigests : sha256 (utf8 (universalNewlines content)) ≠ sha256 (utf8 content))
    (hwrite : (writeReport raised content report).1.status = "ok")
    (h : validationOf sources sha256
      (readReport missing undecodable raised' (writeReport raised content report).2) = .ok payload) :
    payload.reportSha256 ≠ hexdigest (sha256 (utf8 content)) := by
  rw [reportSha256_eq hwrite h]
  exact fun hsame => hdigests (hexdigest_injective hsame)

end validation

/-- Of a written and validated report, the hash that is returned is that of the file and of what was written
exactly when no carriage return was written. -/
theorem report_hash_iff (sources : SourceMap) (sha256 : Bytes → BitVec 256) (dumps : Json → String)
    (missing undecodable : String) (raised unreadable : Option String) (content : String)
    (report : Option Bytes)
    (hcollision : sha256 (utf8 (universalNewlines content)) = sha256 (utf8 content) →
      universalNewlines content = content)
    (hwrite : (writeReport raised content report).1.status = "ok")
    (hvalid : (validateReport sources sha256 dumps
      (readReport missing undecodable unreadable (writeReport raised content report).2)).status = "ok") :
    ∃ payload : ValidationPayload, (validateReport sources sha256 dumps
        (readReport missing undecodable unreadable (writeReport raised content report).2)).output =
          dumps (.dict payload.dump) ∧
      (((∃ bytes, (writeReport raised content report).2 = some bytes ∧
          payload.reportSha256 = hexdigest (sha256 bytes)) ∧
        payload.reportSha256 = hexdigest (sha256 (utf8 content))) ↔ '\r' ∉ content.toList) := by
  obtain ⟨payload, hpayload, houtput⟩ := validateReport_ok hvalid
  refine ⟨payload, houtput, ?_⟩
  rw [reportSha256_eq hwrite hpayload, writeReport_ok hwrite, ← universalNewlines_eq_iff]
  constructor
  · rintro ⟨-, hsame⟩
    exact hcollision (hexdigest_injective hsame)
  · intro hsame
    rw [hsame]
    exact ⟨⟨_, rfl, rfl⟩, rfl⟩

/-- A short report with the headings and citations that are required. -/
def shortReport : String :=
  "# Recommendation\n## Findings\n## Risks\n## Sources\n[source:policy#rollback-plan]" ++
    "[source:requirements#rto][source:requirements#zero-downtime]"

/-- The same, its first line with the line ending of another system. -/
def crlfReport : String :=
  "# Recommendation\r\n## Findings\n## Risks\n## Sources\n[source:policy#rollback-plan]" ++
    "[source:requirements#rto][source:requirements#zero-downtime]"

theorem report_hash_iff_short :
    ∃ payload : ValidationPayload,
      (validateReport evidenceSources Lib.sha256 (fun _ => "")
        (readReport "" "" none (writeReport none shortReport none).2)).output = "" ∧
      (((∃ bytes, (writeReport none shortReport none).2 = some bytes ∧
          payload.reportSha256 = hexdigest (Lib.sha256 bytes)) ∧
        payload.reportSha256 = hexdigest (Lib.sha256 (utf8 shortReport))) ↔ '\r' ∉ shortReport.toList) :=
  report_hash_iff evidenceSources Lib.sha256 (fun _ => "") "" "" none none shortReport none
    (fun _ => by decide +kernel) (by decide +kernel) (by decide +kernel)

/-- A report that is written and validated, while the hash is not the one of its file. -/
theorem crlfReport_not_bound :
    (writeReport none crlfReport none).1.status = "ok" ∧
      ∃ payload : ValidationPayload, validationOf evidenceSources Lib.sha256
          (readReport "" "" none (writeReport none crlfReport none).2) = .ok payload ∧
        (writeReport none crlfReport none).2 = some (utf8 crlfReport) ∧
        payload.reportSha256 ≠ hexdigest (Lib.sha256 (utf8 crlfReport)) := by
  have hwrite : (writeReport none crlfReport none).1.status = "ok" := by decide +kernel
  have hvalid : (validateReport evidenceSources Lib.sha256 (fun _ => "")
      (readReport "" "" none (writeReport none crlfReport none).2)).status = "ok" := by decide +kernel
  obtain ⟨payload, hpayload, -⟩ := validateReport_ok hvalid
  refine ⟨hwrite, payload, hpayload, writeReport_ok hwrite, reportSha256_ne ?_ hwrite hpayload⟩
  decide +kernel

end CrazyHarness.Research
