import CrazyHarness.Kernel.Provenance

/-! # Plan patches

`_validate_plan_patch`: a patch advances the revision of the plan, shows every stage of the persisted
contract in the state it is in, and proposes only assignments that the contract and the team allow. -/

namespace CrazyHarness

open Lib Check

/-! ### What the store says about the plan -/

/-- `status` of a projection is one of these texts. -/
def hasStatus (state : Dict) (statuses : List String) : Bool :=
  ((state.get? "status").bind Json.asStr).any (· ∈ statuses)

/-- The revisions of the accepted patches. -/
def planRevisions (events : List Event) : Except StoreError (List ℤ) :=
  (events.filterMap (fun e =>
    if e.type = "orchestration.plan.patched" then e.get? "revision" else none)).mapM intOf

/-- `max(values, default=0) + 1`. -/
def following (values : List ℤ) : ℤ := values.max?.getD 0 + 1

/-- `set(value)` of a list of hashable values. -/
def pySet : Json → Except StoreError (List Json)
  | .list xs =>
      if xs.any (fun x => x.asList.isSome || x.asDict.isSome) then .error .typeError else .ok xs
  | .str s => .ok (s.toList.map (fun ch => .str (String.singleton ch)))
  | .time d => .ok (d.isoformat.toList.map (fun ch => .str (String.singleton ch)))
  | .dict items => .ok (items.map (fun kv => .str kv.1))
  | _ => .error .typeError

/-- The stages with a result: their assignment has succeeded or completed. -/
def completedStages (assignments : List Dict) : List String :=
  (assignments.filter (fun item => hasStatus item ["succeeded", "completed"])).filterMap
    (fun item => truthyText (item.get? "stage_id"))

/-- The keys of `active_stage_agents`; every such lease names its agent. -/
def activeStages (activeLeases : List Dict) : Except StoreError (List String) :=
  (activeLeases.filterMap (fun lease =>
    (truthyText (lease.get? "stage_id")).map (fun stageId => (stageId, lease)))).mapM
    (fun entry => do
      let _ ← item entry.2 "agent_id"
      return entry.1)

/-- The attempts of the assignments of a stage. -/
def previousAttempts (assignments : List Dict) (stageId : String) : Except StoreError (List ℤ) :=
  (assignments.filter (fun item => (item.get? "stage_id").bind Json.asStr = some stageId)).mapM
    (fun item => intOf (item.getD "attempt" (.int 1)))

/-- What a patch is checked against. -/
structure PlanView where
  contract : Option TeamContract
  patch : PlanPatch
  assignments : List Dict
  completed : List String
  active : List String
  activeLeases : List Dict

/-! ### The parts of the check -/

/-- The patch shows the stages of the contract, with their dependencies. -/
def checkStageSet (k : TeamContract) (patch : PlanPatch) : Check Unit := do
  require ((patch.stages.map StagePlanView.stageId).toFinset = k.stageIds)
    "plan_stage_set_contract_mismatch"
  each (fun stage => require ((k.stage? stage.stageId).any (fun persisted =>
    stage.dependsOn = persisted.dependsOn)) ("plan_stage_contract_mismatch:" ++ stage.stageId))
    patch.stages

/-- No stage gets two assignments. -/
def checkStagesOnce : List String → List AssignmentProposal → Check Unit
  | _, [] => pure ()
  | seen, proposal :: proposals => do
      require (proposal.stageId ∉ seen) ("duplicate_assignment_stage:" ++ proposal.stageId)
      checkStagesOnce (proposal.stageId :: seen) proposals

/-- A completion needs every stage, and the team has a limit. -/
def checkTeamLimits (k : TeamContract) (patch : PlanPatch) (completed : List String)
    (runActiveLeases : List Dict) : Check Unit := do
  let missing := k.stageIds \ completed.toFinset
  require (patch.completionReady → missing = ∅)
    ("completion_plan_missing_stage_results:" ++ ",".intercalate (missing.sort (· ≤ ·)))
  require ((runActiveLeases.length : ℤ) + patch.assignments.length ≤ k.maxParallelAssignments)
    ("team_parallelism_exceeded:max=" ++ toString k.maxParallelAssignments)

/-- `matches_contract`. -/
def MatchesContract (k : TeamContract) (persisted : TeamStageSpec) (proposal : AssignmentProposal) :
    Prop :=
  proposal.goal = persisted.goal ∧
    proposal.requiredCapabilities = persisted.requiredCapabilities ∧
    proposal.exitCriteria = persisted.exitCriteria ∧ proposal.resultKind = persisted.resultKind ∧
    proposal.contractVersion = k.version ∧ proposal.leaseSeconds = k.leaseSeconds ∧
    sameContract proposal.contract persisted.assignmentContract

instance (k : TeamContract) (persisted : TeamStageSpec) (proposal : AssignmentProposal) :
    Decidable (MatchesContract k persisted proposal) := inferInstanceAs (Decidable (_ ∧ _))

/-- What the contract asks of a proposal. -/
def checkContractProposal (view : PlanView) (k : TeamContract) (proposal : AssignmentProposal) :
    Check Unit := do
  let persisted ← liftE ((k.stage? proposal.stageId).elim (.error (.keyError proposal.stageId)) .ok)
  require (proposal.stageId ∉ view.completed)
    ("assignment_stage_already_completed:" ++ proposal.stageId)
  require (proposal.stageId ∉ view.active) ("assignment_stage_already_active:" ++ proposal.stageId)
  require (persisted.dependsOn ⊆ view.completed)
    ("assignment_stage_dependencies_unsatisfied:" ++ proposal.stageId)
  let attempts ← liftE (previousAttempts view.assignments proposal.stageId)
  require (proposal.attempt = following attempts)
    ("assignment_attempt_must_advance:expected=" ++ toString (following attempts))
  let existing ← projection "assignment" proposal.assignmentId
  require (existing = none) ("assignment_id_already_exists:" ++ proposal.assignmentId)
  require (view.patch.stages.any (fun stage => stage.stageId = proposal.stageId ∧
      stage.state = .active ∧ stage.agentId = some proposal.agentId))
    ("assignment_plan_view_mismatch:" ++ proposal.stageId)
  require (MatchesContract k persisted proposal) ("assignment_contract_mismatch:" ++ proposal.stageId)

/-- What the team asks of a proposal, with what the patch has given to its agents before. -/
def checkAgentProposal (view : PlanView) (planned : String → ℕ) (proposal : AssignmentProposal) :
    Check Unit := do
  let agent ← orReject (← projection "agent" proposal.agentId)
    ("unknown_assignment_agent:" ++ proposal.agentId)
  require (¬ hasStatus agent ["degraded", "offline"])
    ("assignment_agent_unavailable:" ++ proposal.agentId)
  let capabilities ← liftE (pySet (agent.getD "capabilities" (.list [])))
  let missing := proposal.requiredCapabilities \ (capabilities.filterMap Json.asStr).toFinset
  require (missing = ∅) ("agent_missing_capabilities:" ++ ",".intercalate (missing.sort (· ≤ ·)))
  let existingLoad := view.activeLeases.countP
    (fun lease => (lease.get? "agent_id").bind Json.asStr = some proposal.agentId)
  let maxConcurrency ← liftE (intOf (agent.getD "max_concurrency" (.int 1)))
  require ((existingLoad : ℤ) + (planned proposal.agentId + 1) ≤ maxConcurrency)
    ("agent_concurrency_exceeded:" ++ proposal.agentId)

/-- The checks of one proposal. -/
def checkProposal (view : PlanView) (planned : String → ℕ) (proposal : AssignmentProposal) :
    Check Unit := do
  require (proposal.stageId ∈ view.patch.stages.map StagePlanView.stageId)
    ("assignment_stage_not_in_plan:" ++ proposal.stageId)
  match view.contract with
  | some k => checkContractProposal view k proposal
  | none => pure ()
  checkAgentProposal view planned proposal

/-- The proposals of a patch, one after the other. -/
def checkProposals (view : PlanView) : (String → ℕ) → List AssignmentProposal → Check Unit
  | _, [] => pure ()
  | planned, proposal :: proposals => do
      checkProposal view planned proposal
      checkProposals view (Function.update planned proposal.agentId (planned proposal.agentId + 1))
        proposals

/-- The states a stage may be shown in. -/
def allowedStates (view : PlanView) (stage : TeamStageSpec) : List StageState :=
  if stage.stageId ∈ view.completed then [.completed]
  else if stage.stageId ∈ view.active ∨
      stage.stageId ∈ view.patch.assignments.map AssignmentProposal.stageId then [.active]
  else if ¬ stage.dependsOn ⊆ view.completed then [.pending]
  else [.ready, .blocked]

/-- Every stage of the contract is shown in the state it is in. -/
def checkStageStates (view : PlanView) (k : TeamContract) : Check Unit :=
  each (fun stage => require (∀ shown ∈ view.patch.stages, shown.stageId = stage.stageId →
      shown.state ∈ allowedStates view stage)
    ("plan_stage_state_mismatch:" ++ stage.stageId)) k.stages

/-! ### `_validate_plan_patch` -/

/-- The plan, the revision and the contract that the patch names. -/
def checkPlanHeader (c : CommandCandidate) (patch : PlanPatch) : Check (Option TeamContract) := do
  let revisions ← liftE (planRevisions (← readRun c.runId))
  require (patch.revision = following revisions)
    ("plan_revision_must_advance:expected=" ++ toString (following revisions))
  let contract ← persistedTeamContract c.runId
  require (∀ k ∈ contract, patch.contractId = k.contractId ∧ patch.contractVersion = k.version)
    "plan_patch_contract_mismatch"
  return contract

/-- A check that only a contract brings. -/
def withContract (contract : Option TeamContract) (check : TeamContract → Check Unit) : Check Unit :=
  match contract with
  | some k => check k
  | none => pure ()

/-- `_validate_plan_patch`. -/
def validatePlanPatch (c : CommandCandidate) : Check Unit := do
  let patch ← orReject (PlanPatch.ofJson (.dict c.payload)) "invalid_plan_patch_schema"
  let contract ← checkPlanHeader c patch
  require (patch.stages.map StagePlanView.stageId).Nodup "duplicate_stage_id_in_plan_patch"
  withContract contract (fun k => checkStageSet k patch)
  require (patch.assignments.map AssignmentProposal.assignmentId).Nodup
    "duplicate_assignment_id_in_plan_patch"
  checkStagesOnce [] patch.assignments
  require (¬ (patch.completionReady ∧ patch.assignments ≠ []))
    "completion_patch_cannot_create_assignments"
  let run ← snapshot (some c.runId)
  let runActiveLeases := (run "lease").filter (fun lease => hasStatus lease ["active"])
  let completed := completedStages (run "assignment")
  let active ← liftE (activeStages runActiveLeases)
  withContract contract (fun k => checkTeamLimits k patch completed runActiveLeases)
  let all ← snapshot none
  let activeLeases := (all "lease").filter (fun lease => hasStatus lease ["active"])
  let view : PlanView :=
    { contract := contract, patch := patch, assignments := run "assignment",
      completed := completed, active := active, activeLeases := activeLeases }
  checkProposals view (fun _ => 0) patch.assignments
  withContract contract (checkStageStates view)

end CrazyHarness
