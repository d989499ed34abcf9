import CrazyHarness.Lib.Decode

/-! # Assignment contracts

The records of `core/agents/contracts.py`: the boundary between a coordinator and a worker, what
its validation accepts and how it is written as JSON. -/

namespace CrazyHarness

open Lib

/-- Optional hard limits carried by an assignment contract; the last two are floats. -/
structure AssignmentBudget where
  turns : Option ℤ := none
  tokens : Option ℤ := none
  toolCalls : Option ℤ := none
  retries : Option ℤ := none
  wallTimeSeconds : Option Json := none
  costUsd : Option Json := none
deriving DecidableEq

namespace AssignmentBudget

/-- `model_validate`. -/
def ofJson (v : Json) : Option AssignmentBudget := do
  let d ← v.asDict
  d.onlyFields ["turns", "tokens", "tool_calls", "retries", "wall_time_seconds", "cost_usd"]
  let turns ← d.fieldD "turns" (Json.nullable (Json.boundedInt 1 none)) none
  let tokens ← d.fieldD "tokens" (Json.nullable (Json.boundedInt 1 none)) none
  let toolCalls ← d.fieldD "tool_calls" (Json.nullable (Json.boundedInt 0 none)) none
  let retries ← d.fieldD "retries" (Json.nullable (Json.boundedInt 0 none)) none
  let wallTimeSeconds ← d.fieldD "wall_time_seconds" (Json.nullable Json.laxFloat) none
  let costUsd ← d.fieldD "cost_usd" (Json.nullable Json.laxFloat) none
  if (∀ t ∈ wallTimeSeconds, 0 < t.toRat) ∧ (∀ c ∈ costUsd, 0 ≤ c.toRat) then
    some { turns, tokens, toolCalls, retries, wallTimeSeconds, costUsd }
  else none

/-- `model_dump(mode="json")`. -/
def dump (b : AssignmentBudget) : Json :=
  .dict [("turns", (b.turns.map Json.int).getD .null), ("tokens", (b.tokens.map Json.int).getD .null),
    ("tool_calls", (b.toolCalls.map Json.int).getD .null),
    ("retries", (b.retries.map Json.int).getD .null),
    ("wall_time_seconds", b.wallTimeSeconds.getD .null), ("cost_usd", b.costUsd.getD .null)]

end AssignmentBudget

/-- Immutable, versioned boundary between a coordinator and a worker. -/
structure AssignmentContract where
  version : ℤ := 1
  goal : String
  exitCriteria : List String
  outputSchema : Dict
  evidenceRequirements : List String := []
  constraints : List String := []
  permissions : List String := []
  budgets : AssignmentBudget := {}
  dependencies : List String := []
  version_pos : 1 ≤ version := by decide
  exitCriteria_ne : exitCriteria ≠ [] := by decide

/-- The version that a contract has by default. -/
theorem defaultVersion_pos : (1 : ℤ) ≤ 1 := le_rfl

/-- The other fields are proofs. -/
instance : DecidableEq AssignmentContract := fun a b =>
  decidable_of_iff
    (a.version = b.version ∧ a.goal = b.goal ∧ a.exitCriteria = b.exitCriteria ∧
      a.outputSchema = b.outputSchema ∧ a.evidenceRequirements = b.evidenceRequirements ∧
      a.constraints = b.constraints ∧ a.permissions = b.permissions ∧ a.budgets = b.budgets ∧
      a.dependencies = b.dependencies)
    (by cases a; cases b; simp)

namespace AssignmentContract

/-- `model_validate`. -/
def ofJson (v : Json) : Option AssignmentContract := do
  let d ← v.asDict
  d.onlyFields ["version", "goal", "exit_criteria", "output_schema", "evidence_requirements",
    "constraints", "permissions", "budgets", "dependencies"]
  let version ← d.fieldD "version" Json.laxInt 1
  let goal ← d.field "goal" Json.nonEmptyText
  let exitCriteria ← d.field "exit_criteria" (Json.listOf Json.nonEmptyText)
  let outputSchema ← d.field "output_schema" Json.asDict
  let evidenceRequirements ← d.fieldD "evidence_requirements" (Json.listOf Json.nonEmptyText) []
  let constraints ← d.fieldD "constraints" (Json.listOf Json.nonEmptyText) []
  let permissions ← d.fieldD "permissions" (Json.listOf Json.nonEmptyText) []
  let budgets ← d.fieldD "budgets" AssignmentBudget.ofJson {}
  let dependencies ← d.fieldD "dependencies" (Json.listOf Json.nonEmptyText) []
  if h : 1 ≤ version ∧ exitCriteria ≠ [] then
    some { version, goal, exitCriteria, outputSchema, evidenceRequirements, constraints, permissions,
           budgets, dependencies, version_pos := h.1, exitCriteria_ne := h.2 }
  else none

/-- `model_dump(mode="json")`. -/
def dump (c : AssignmentContract) : Json :=
  .dict [("version", .int c.version), ("goal", .str c.goal),
    ("exit_criteria", Json.ofTexts c.exitCriteria), ("output_schema", .dict c.outputSchema),
    ("evidence_requirements", Json.ofTexts c.evidenceRequirements),
    ("constraints", Json.ofTexts c.constraints), ("permissions", Json.ofTexts c.permissions),
    ("budgets", c.budgets.dump), ("dependencies", Json.ofTexts c.dependencies)]

/-- `budgets.tool_calls`. -/
def toolCalls (c : AssignmentContract) : Option ℤ := c.budgets.toolCalls

/-- `a == b`. -/
def same (a b : AssignmentContract) : Bool := a.dump.pyEq b.dump

end AssignmentContract

/-- `a == b` of two contracts that may be `None`. -/
def sameContract : Option AssignmentContract → Option AssignmentContract → Bool
  | none, none => true
  | some a, some b => a.same b
  | _, _ => false

end CrazyHarness
