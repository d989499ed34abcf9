import CrazyHarness.Agents.Contracts

/-! # Team contracts and plan patches

The records of `core/a2a/orchestration.py`: the contract of a team, the plan patch that a supervisor
proposes, and what their validation accepts.  What a validation guarantees is a field of the record,
so that a record without it cannot be built. -/

namespace CrazyHarness

open Lib

/-- A text that is there and not empty. -/
def isSet (s : Option String) : Bool := s.any (· ≠ "")

/-! ### Team contracts -/

/-- One stage of a declarative team task graph. -/
structure TeamStageSpec where
  stageId : String
  resultKind : String
  goal : String
  requiredCapabilities : Finset String := ∅
  exitCriteria : List String := []
  dependsOn : List String := []
  completionEventType : Option String := none
  assignmentContract : Option AssignmentContract := none
  stageId_ne : stageId ≠ "" := by decide
  resultKind_ne : resultKind ≠ "" := by decide
  goal_ne : goal ≠ "" := by decide
deriving DecidableEq

/-- `model_validate` of a stage. -/
def TeamStageSpec.ofJson (v : Json) : Option TeamStageSpec := do
  let d ← v.asDict
  d.onlyFields ["stage_id", "result_kind", "goal", "required_capabilities", "exit_criteria",
    "depends_on", "completion_event_type", "assignment_contract"]
  let stageId ← d.field "stage_id" Json.asStr
  let resultKind ← d.field "result_kind" Json.asStr
  let goal ← d.field "goal" Json.asStr
  let requiredCapabilities ← d.fieldD "required_capabilities" Json.textSet ∅
  let exitCriteria ← d.fieldD "exit_criteria" (Json.listOf Json.asStr) []
  let dependsOn ← d.fieldD "depends_on" (Json.listOf Json.asStr) []
  let completionEventType ← d.fieldD "completion_event_type" (Json.nullable Json.asStr) none
  let assignmentContract ← d.fieldD "assignment_contract" (Json.nullable AssignmentContract.ofJson) none
  if h : stageId ≠ "" ∧ resultKind ≠ "" ∧ goal ≠ "" then
    some { stageId, resultKind, goal, requiredCapabilities, exitCriteria, dependsOn,
           completionEventType, assignmentContract, stageId_ne := h.1, resultKind_ne := h.2.1,
           goal_ne := h.2.2 }
  else none

/-- `visit` of `validate_graph`: the stages visited so far, or `none` for a cycle.  The depth is
bounded, as the stages that are being visited are known and differ. -/
def visitStage (dependencies : String → List String) :
    ℕ → List String → List String → String → Option (List String)
  | 0, _, _, _ => none
  | depth + 1, visiting, visited, stageId =>
      if stageId ∈ visiting then none
      else if stageId ∈ visited then some visited
      else do
        let visited ← (dependencies stageId).foldlM
          (visitStage dependencies depth (stageId :: visiting)) visited
        return stageId :: visited

/-- No stage depends on itself, directly or through others. -/
def Acyclic (stages : List TeamStageSpec) : Prop :=
  let dependencies := fun stageId =>
    ((stages.find? (·.stageId = stageId)).map TeamStageSpec.dependsOn).getD []
  ((stages.map TeamStageSpec.stageId).foldlM
    (visitStage dependencies (stages.length + 1) []) []).isSome

instance : DecidablePred Acyclic := fun _ => inferInstanceAs (Decidable (_ = true))

/-- What `validate_graph` asks of the stages. -/
structure StageGraph (stages : List TeamStageSpec) : Prop where
  ne : stages ≠ []
  nodup : (stages.map TeamStageSpec.stageId).Nodup
  known : ∀ stage ∈ stages, ∀ dependency ∈ stage.dependsOn,
    dependency ∈ stages.map TeamStageSpec.stageId
  agree : ∀ stage ∈ stages, ∀ contract ∈ stage.assignmentContract,
    contract.goal = stage.goal ∧ contract.exitCriteria = stage.exitCriteria
  acyclic : Acyclic stages

instance : DecidablePred StageGraph := fun stages =>
  decidable_of_iff (stages ≠ [] ∧ (stages.map TeamStageSpec.stageId).Nodup ∧
      (∀ stage ∈ stages, ∀ dependency ∈ stage.dependsOn,
        dependency ∈ stages.map TeamStageSpec.stageId) ∧
      (∀ stage ∈ stages, ∀ contract ∈ stage.assignmentContract,
        contract.goal = stage.goal ∧ contract.exitCriteria = stage.exitCriteria) ∧ Acyclic stages)
    ⟨fun ⟨h₁, h₂, h₃, h₄, h₅⟩ => ⟨h₁, h₂, h₃, h₄, h₅⟩,
      fun h => ⟨h.ne, h.nodup, h.known, h.agree, h.acyclic⟩⟩

/-- Versioned task graph and limits supplied by a replaceable team task pack. -/
structure TeamContract where
  contractId : String
  version : ℤ := 1
  stages : List TeamStageSpec
  maxParallelAssignments : ℤ := 1
  maxStageAttempts : ℤ := 3
  leaseSeconds : ℤ := 30
  peerContract : Option AssignmentContract := none
  contractId_ne : contractId ≠ "" := by decide
  version_pos : 1 ≤ version := by decide
  parallel_bounds : 1 ≤ maxParallelAssignments ∧ maxParallelAssignments ≤ 32 := by decide
  attempts_bounds : 1 ≤ maxStageAttempts ∧ maxStageAttempts ≤ 20 := by decide
  lease_bounds : 1 ≤ leaseSeconds ∧ leaseSeconds ≤ 3600 := by decide
  graph : StageGraph stages := by decide
deriving DecidableEq

namespace TeamContract

/-- `model_validate`. -/
def ofJson (v : Json) : Option TeamContract := do
  let d ← v.asDict
  d.onlyFields ["contract_id", "version", "stages", "max_parallel_assignments", "max_stage_attempts",
    "lease_seconds", "peer_contract"]
  let contractId ← d.field "contract_id" Json.asStr
  let version ← d.fieldD "version" Json.laxInt 1
  let stages ← d.field "stages" (Json.listOf TeamStageSpec.ofJson)
  let maxParallelAssignments ← d.fieldD "max_parallel_assignments" Json.laxInt 1
  let maxStageAttempts ← d.fieldD "max_stage_attempts" Json.laxInt 3
  let leaseSeconds ← d.fieldD "lease_seconds" Json.laxInt 30
  let peerContract ← d.fieldD "peer_contract" (Json.nullable AssignmentContract.ofJson) none
  if h : contractId ≠ "" ∧ 1 ≤ version ∧
      (1 ≤ maxParallelAssignments ∧ maxParallelAssignments ≤ 32) ∧
      (1 ≤ maxStageAttempts ∧ maxStageAttempts ≤ 20) ∧
      (1 ≤ leaseSeconds ∧ leaseSeconds ≤ 3600) ∧ StageGraph stages then
    some { contractId, version, stages, maxParallelAssignments, maxStageAttempts, leaseSeconds,
           peerContract, contractId_ne := h.1, version_pos := h.2.1, parallel_bounds := h.2.2.1,
           attempts_bounds := h.2.2.2.1, lease_bounds := h.2.2.2.2.1, graph := h.2.2.2.2.2 }
  else none

/-- `completion_event_types`. -/
def completionEventTypes (c : TeamContract) : Finset String :=
  (c.stages.filterMap TeamStageSpec.completionEventType).toFinset

/-- `{stage.stage_id for stage in contract.stages}`. -/
def stageIds (c : TeamContract) : Finset String := (c.stages.map TeamStageSpec.stageId).toFinset

/-- `contract_stages.get(stage_id)`. -/
def stage? (c : TeamContract) (stageId : String) : Option TeamStageSpec :=
  c.stages.find? (·.stageId = stageId)

end TeamContract

/-! ### Plan patches -/

/-- Untrusted assignment proposal inside a plan patch. -/
structure AssignmentProposal where
  assignmentId : String
  stageId : String
  attempt : ℤ
  agentId : String
  goal : String
  requiredCapabilities : Finset String := ∅
  exitCriteria : List String := []
  resultKind : String
  contractVersion : ℤ := 1
  leaseSeconds : ℤ
  contract : Option AssignmentContract := none
  assignmentId_ne : assignmentId ≠ "" := by decide
  stageId_ne : stageId ≠ "" := by decide
  attempt_pos : 1 ≤ attempt := by decide
  agentId_ne : agentId ≠ "" := by decide
  goal_ne : goal ≠ "" := by decide
  resultKind_ne : resultKind ≠ "" := by decide
  version_pos : 1 ≤ contractVersion := by decide
  lease_bounds : 1 ≤ leaseSeconds ∧ leaseSeconds ≤ 3600 := by decide
deriving DecidableEq

namespace AssignmentProposal

/-- `model_validate`. -/
def ofJson (v : Json) : Option AssignmentProposal := do
  let d ← v.asDict
  d.onlyFields ["assignment_id", "stage_id", "attempt", "agent_id", "goal", "required_capabilities",
    "exit_criteria", "result_kind", "contract_version", "lease_seconds", "contract"]
  let assignmentId ← d.field "assignment_id" Json.asStr
  let stageId ← d.field "stage_id" Json.asStr
  let attempt ← d.field "attempt" Json.laxInt
  let agentId ← d.field "agent_id" Json.asStr
  let goal ← d.field "goal" Json.asStr
  let requiredCapabilities ← d.fieldD "required_capabilities" Json.textSet ∅
  let exitCriteria ← d.fieldD "exit_criteria" (Json.listOf Json.asStr) []
  let resultKind ← d.field "result_kind" Json.asStr
  let contractVersion ← d.fieldD "contract_version" Json.laxInt 1
  let leaseSeconds ← d.field "lease_seconds" Json.laxInt
  let contract ← d.fieldD "contract" (Json.nullable AssignmentContract.ofJson) none
  if h : assignmentId ≠ "" ∧ stageId ≠ "" ∧ 1 ≤ attempt ∧ agentId ≠ "" ∧ goal ≠ "" ∧
      resultKind ≠ "" ∧ 1 ≤ contractVersion ∧ (1 ≤ leaseSeconds ∧ leaseSeconds ≤ 3600) then
    some { assignmentId, stageId, attempt, agentId, goal, requiredCapabilities, exitCriteria,
           resultKind, contractVersion, leaseSeconds, contract, assignmentId_ne := h.1,
           stageId_ne := h.2.1, attempt_pos := h.2.2.1, agentId_ne := h.2.2.2.1, goal_ne := h.2.2.2.2.1,
           resultKind_ne := h.2.2.2.2.2.1, version_pos := h.2.2.2.2.2.2.1,
           lease_bounds := h.2.2.2.2.2.2.2 }
  else none

/-- `model_dump(mode="json")`. -/
def dump (p : AssignmentProposal) : Dict :=
  [("assignment_id", .str p.assignmentId), ("stage_id", .str p.stageId),
    ("attempt", .int p.attempt), ("agent_id", .str p.agentId), ("goal", .str p.goal),
    ("required_capabilities", Json.ofTextSet p.requiredCapabilities),
    ("exit_criteria", Json.ofTexts p.exitCriteria), ("result_kind", .str p.resultKind),
    ("contract_version", .int p.contractVersion), ("lease_seconds", .int p.leaseSeconds),
    ("contract", (p.contract.map AssignmentContract.dump).getD .null)]

end AssignmentProposal

/-- The states of a stage in a plan. -/
inductive StageState where
  | pending
  | ready
  | active
  | completed
  | blocked
deriving DecidableEq

/-- The text of a state. -/
def StageState.value : StageState → String
  | .pending => "pending"
  | .ready => "ready"
  | .active => "active"
  | .completed => "completed"
  | .blocked => "blocked"

/-- The state a text names. -/
def StageState.ofJson (v : Json) : Option StageState :=
  [StageState.pending, .ready, .active, .completed, .blocked].find?
    (fun state => v.asStr = some state.value)

/-- How a plan shows a stage. -/
structure StagePlanView where
  stageId : String
  state : StageState
  dependsOn : List String := []
  agentId : Option String := none
deriving DecidableEq

namespace StagePlanView

/-- `model_validate`. -/
def ofJson (v : Json) : Option StagePlanView := do
  let d ← v.asDict
  d.onlyFields ["stage_id", "state", "depends_on", "agent_id"]
  let stageId ← d.field "stage_id" Json.asStr
  let state ← d.field "state" StageState.ofJson
  let dependsOn ← d.fieldD "depends_on" (Json.listOf Json.asStr) []
  let agentId ← d.fieldD "agent_id" (Json.nullable Json.asStr) none
  return { stageId, state, dependsOn, agentId }

/-- `model_dump(mode="json")`. -/
def dump (s : StagePlanView) : Json :=
  .dict [("stage_id", .str s.stageId), ("state", .str s.state.value),
    ("depends_on", Json.ofTexts s.dependsOn), ("agent_id", Json.ofOption s.agentId)]

end StagePlanView

/-- What `terminal_directives_are_unambiguous` asks of a patch. -/
structure Unambiguous (assignments : List AssignmentProposal) (completionReady : Bool)
    (blockedReason waitingReason : Option String) (waitingStageIds : List String) : Prop where
  once : ¬ (isSet blockedReason ∧ isSet waitingReason)
  idle : isSet blockedReason ∨ isSet waitingReason → assignments = []
  ready : completionReady → ¬ isSet blockedReason ∧ ¬ isSet waitingReason
  waiting : waitingStageIds ≠ [] → isSet waitingReason

instance (assignments : List AssignmentProposal) (completionReady : Bool)
    (blockedReason waitingReason : Option String) (waitingStageIds : List String) :
    Decidable (Unambiguous assignments completionReady blockedReason waitingReason waitingStageIds) :=
  decidable_of_iff (¬ (isSet blockedReason ∧ isSet waitingReason) ∧
      (isSet blockedReason ∨ isSet waitingReason → assignments = []) ∧
      (completionReady → ¬ isSet blockedReason ∧ ¬ isSet waitingReason) ∧
      (waitingStageIds ≠ [] → isSet waitingReason))
    ⟨fun ⟨h₁, h₂, h₃, h₄⟩ => ⟨h₁, h₂, h₃, h₄⟩, fun h => ⟨h.once, h.idle, h.ready, h.waiting⟩⟩

/-- A supervisor's proposal; only the kernel may turn it into facts. -/
structure PlanPatch where
  revision : ℤ
  contractId : String
  contractVersion : ℤ
  reason : String
  stages : List StagePlanView
  assignments : List AssignmentProposal := []
  completionReady : Bool := false
  blockedReason : Option String := none
  waitingReason : Option String := none
  waitingStageIds : List String := []
  revision_pos : 1 ≤ revision := by decide
  contractId_ne : contractId ≠ "" := by decide
  version_pos : 1 ≤ contractVersion := by decide
  reason_ne : reason ≠ "" := by decide
  unambiguous : Unambiguous assignments completionReady blockedReason waitingReason
    waitingStageIds := by decide
deriving DecidableEq

namespace PlanPatch

/-- `model_validate`. -/
def ofJson (v : Json) : Option PlanPatch := do
  let d ← v.asDict
  d.onlyFields ["revision", "contract_id", "contract_version", "reason", "stages", "assignments",
    "completion_ready", "blocked_reason", "waiting_reason", "waiting_stage_ids"]
  let revision ← d.field "revision" Json.laxInt
  let contractId ← d.field "contract_id" Json.asStr
  let contractVersion ← d.field "contract_version" Json.laxInt
  let reason ← d.field "reason" Json.asStr
  let stages ← d.field "stages" (Json.listOf StagePlanView.ofJson)
  let assignments ← d.fieldD "assignments" (Json.listOf AssignmentProposal.ofJson) []
  let completionReady ← d.fieldD "completion_ready" Json.laxBool false
  let blockedReason ← d.fieldD "blocked_reason" (Json.nullable Json.asStr) none
  let waitingReason ← d.fieldD "waiting_reason" (Json.nullable Json.asStr) none
  let waitingStageIds ← d.fieldD "waiting_stage_ids" (Json.listOf Json.asStr) []
  if h : 1 ≤ revision ∧ contractId ≠ "" ∧ 1 ≤ contractVersion ∧ reason ≠ "" ∧
      Unambiguous assignments completionReady blockedReason waitingReason waitingStageIds then
    some { revision, contractId, contractVersion, reason, stages, assignments, completionReady,
           blockedReason, waitingReason, waitingStageIds, revision_pos := h.1, contractId_ne := h.2.1,
           version_pos := h.2.2.1, reason_ne := h.2.2.2.1, unambiguous := h.2.2.2.2 }
  else none

/-- `command_payload`. -/
def commandPayload (p : PlanPatch) : Dict :=
  [("revision", .int p.revision), ("contract_id", .str p.contractId),
    ("contract_version", .int p.contractVersion), ("reason", .str p.reason),
    ("stages", .list (p.stages.map StagePlanView.dump)),
    ("assignments", .list (p.assignments.map (fun a => .dict a.dump))),
    ("completion_ready", .bool p.completionReady),
    ("blocked_reason", Json.ofOption p.blockedReason),
    ("waiting_reason", Json.ofOption p.waitingReason),
    ("waiting_stage_ids", Json.ofTexts p.waitingStageIds)]

end PlanPatch

end CrazyHarness
