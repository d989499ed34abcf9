import CrazyHarness.Lib.Texts

/-! # Research sources

`ResearchEvidenceItem` and `ResearchSource` (`taskpacks/research_tools.py`), with what their `__post_init__`
checks. -/

namespace CrazyHarness.Research

open Lib

/-- `[a-z0-9]`. -/
def isIdentifierChar (c : Char) : Bool := ('a' ≤ c && c ≤ 'z') || ('0' ≤ c && c ≤ '9')

/-- A full match of `_IDENTIFIER`: parts of `[a-z0-9]+` between single hyphens. -/
def isIdentifier (cs : List Char) : Bool :=
  (cs.splitOn '-').all (fun part => !part.isEmpty && part.all isIdentifierChar)

/-- `ResearchEvidenceItem`. -/
structure ResearchEvidenceItem where
  evidenceId : String
  text : String
  identified : isIdentifier evidenceId.toList
  not_blank : strip text ≠ ""
deriving DecidableEq

/-- `ResearchSource`. -/
structure ResearchSource where
  sourceId : String
  title : String
  summary : String
  tags : List String
  evidence : List ResearchEvidenceItem
  identified : isIdentifier sourceId.toList
  title_not_blank : strip title ≠ ""
  summary_not_blank : strip summary ≠ ""
  evidence_ne_nil : evidence ≠ []
  nodup : (evidence.map ResearchEvidenceItem.evidenceId).Nodup
deriving DecidableEq

/-- What `_source_map` admits. -/
structure SourceMap where
  sources : List ResearchSource
  nodup : (sources.map ResearchSource.sourceId).Nodup
  ne_nil : sources ≠ []

/-- The pairs of identifiers that a report may cite. -/
def SourceMap.known (m : SourceMap) : List (String × String) :=
  m.sources.flatMap (fun source => source.evidence.map (fun item => (source.sourceId, item.evidenceId)))

/-- `_SOURCES` (`taskpacks/evidence_research.py`). -/
def evidenceSources : SourceMap where
  sources := [
    { sourceId := "experiment", title := "Nova deployment drill results",
      summary := "Controlled observations from three deployment drills.",
      tags := ["experiment", "canary", "rolling"],
      evidence := [
        { evidenceId := "canary-result",
          text := "A ten-percent canary surfaced a five-percent error regression within three minutes.",
          identified := by decide +kernel, not_blank := by decide +kernel },
        { evidenceId := "rolling-risk",
          text := "The previous rolling drill exposed a schema compatibility fault before completion.",
          identified := by decide +kernel, not_blank := by decide +kernel }],
      identified := by decide +kernel, title_not_blank := by decide +kernel, summary_not_blank := by decide +kernel,
      evidence_ne_nil := by decide, nodup := by decide },
    { sourceId := "policy", title := "Production traffic change policy",
      summary := "Mandatory controls for customer-facing deployment changes.",
      tags := ["policy", "rollback", "ownership"],
      evidence := [
        { evidenceId := "rollback-plan",
          text := "Every customer traffic change requires a documented rollback trigger and named owner.",
          identified := by decide +kernel, not_blank := by decide +kernel },
        { evidenceId := "independent-evidence",
          text := "A deployment recommendation must cite at least two independent sources.",
          identified := by decide +kernel, not_blank := by decide +kernel }],
      identified := by decide +kernel, title_not_blank := by decide +kernel, summary_not_blank := by decide +kernel,
      evidence_ne_nil := by decide, nodup := by decide },
    { sourceId := "requirements", title := "Nova release requirements",
      summary := "Availability and recovery constraints for the Nova service.",
      tags := ["requirements", "availability", "rto"],
      evidence := [
        { evidenceId := "rto",
          text := "Production changes must support rollback within ten minutes.",
          identified := by decide +kernel, not_blank := by decide +kernel },
        { evidenceId := "zero-downtime",
          text := "The service must remain available while a new release is introduced.",
          identified := by decide +kernel, not_blank := by decide +kernel }],
      identified := by decide +kernel, title_not_blank := by decide +kernel, summary_not_blank := by decide +kernel,
      evidence_ne_nil := by decide, nodup := by decide }]
  nodup := by decide
  ne_nil := by decide

end CrazyHarness.Research
