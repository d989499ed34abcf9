import CrazyHarness.Kernel.AgentRuns
import CrazyHarness.Kernel.Plans
import CrazyHarness.Lib.RoundTrip

/-! # What becomes of a plan on its way

A supervisor's patch is written into the payload of its command, read again by the kernel, and written
into the facts of the assignments that it creates, from which workers read their contracts.

* `PlanPatch.rereads`: the kernel reads the patch that the supervisor has written; so it is with the
  records that a patch consists of.
* `carries_created`: an assignment's fact holds its whole proposal.
* `plan_reaches_log`: both, for every accepted submission. -/

namespace CrazyHarness

open Lib

/-! ### Contracts -/

theorem AssignmentBudget.rereads : Json.Rereads AssignmentBudget.ofJson AssignmentBudget.dump := by
  intro v b h
  unfold AssignmentBudget.ofJson at h
  obtain ⟨d, -, h⟩ := Option.bind_eq_some_iff.mp h
  obtain ⟨-, -, h⟩ := Option.bind_eq_some_iff.mp h
  obtain ⟨turns, hturns, h⟩ := Option.bind_eq_some_iff.mp h
  obtain ⟨tokens, htokens, h⟩ := Option.bind_eq_some_iff.mp h
  obtain ⟨toolCalls, htoolCalls, h⟩ := Option.bind_eq_some_iff.mp h
  obtain ⟨retries, hretries, h⟩ := Option.bind_eq_some_iff.mp h
  obtain ⟨wallTime, hwallTime, h⟩ := Option.bind_eq_some_iff.mp h
  obtain ⟨cost, hcost, h⟩ := Option.bind_eq_some_iff.mp h
  split at h
  next hbounds =>
    obtain rfl := Option.some.inj h
    have hcount := (Json.rereads_boundedInt 1 none).nullable rfl
    have hnatural := (Json.rereads_boundedInt 0 none).nullable rfl
    have hfloat := Json.rereads_laxFloat.nullable rfl
    unfold AssignmentBudget.ofJson AssignmentBudget.dump
    refine Dict.read_record rfl ?_
    refine Dict.bind_fieldD rfl (Dict.reread_fieldD hcount rfl hturns) ?_
    refine Dict.bind_fieldD rfl (Dict.reread_fieldD hcount rfl htokens) ?_
    refine Dict.bind_fieldD rfl (Dict.reread_fieldD hnatural rfl htoolCalls) ?_
    refine Dict.bind_fieldD rfl (Dict.reread_fieldD hnatural rfl hretries) ?_
    refine Dict.bind_fieldD (by cases wallTime <;> rfl) (Dict.reread_fieldD hfloat rfl hwallTime) ?_
    refine Dict.bind_fieldD (by cases cost <;> rfl) (Dict.reread_fieldD hfloat rfl hcost) ?_
    exact if_pos hbounds
  next => cases h

theorem AssignmentContract.rereads : Json.Rereads AssignmentContract.ofJson AssignmentContract.dump := by
  intro v b h
  unfold AssignmentContract.ofJson at h
  obtain ⟨d, -, h⟩ := Option.bind_eq_some_iff.mp h
  obtain ⟨-, -, h⟩ := Option.bind_eq_some_iff.mp h
  obtain ⟨version, hversion, h⟩ := Option.bind_eq_some_iff.mp h
  obtain ⟨goal, hgoal, h⟩ := Option.bind_eq_some_iff.mp h
  obtain ⟨exitCriteria, hexit, h⟩ := Option.bind_eq_some_iff.mp h
  obtain ⟨outputSchema, houtput, h⟩ := Option.bind_eq_some_iff.mp h
  obtain ⟨evidence, hevidence, h⟩ := Option.bind_eq_some_iff.mp h
  obtain ⟨constraints, hconstraints, h⟩ := Option.bind_eq_some_iff.mp h
  obtain ⟨permissions, hpermissions, h⟩ := Option.bind_eq_some_iff.mp h
  obtain ⟨budgets, hbudgets, h⟩ := Option.bind_eq_some_iff.mp h
  obtain ⟨dependencies, hdependencies, h⟩ := Option.bind_eq_some_iff.mp h
  split at h
  next hchecks =>
    obtain rfl := Option.some.inj h
    have htexts := Json.rereads_nonEmptyText.listOf
    unfold AssignmentContract.ofJson AssignmentContract.dump
    refine Dict.read_record rfl ?_
    refine Dict.bind_fieldD rfl (Json.laxInt_int version) ?_
    refine Dict.bind_field rfl (Dict.reread_field Json.rereads_nonEmptyText hgoal) ?_
    refine Dict.bind_field rfl (Dict.reread_field htexts hexit) ?_
    refine Dict.bind_field rfl (Dict.reread_field Json.rereads_asDict houtput) ?_
    refine Dict.bind_fieldD rfl (Dict.reread_fieldD htexts rfl hevidence) ?_
    refine Dict.bind_fieldD rfl (Dict.reread_fieldD htexts rfl hconstraints) ?_
    refine Dict.bind_fieldD rfl (Dict.reread_fieldD htexts rfl hpermissions) ?_
    refine Dict.bind_fieldD rfl (Dict.reread_fieldD AssignmentBudget.rereads rfl hbudgets) ?_
    refine Dict.bind_fieldD rfl (Dict.reread_fieldD htexts rfl hdependencies) ?_
    exact dif_pos hchecks
  next => cases h

/-! ### Patches -/

namespace AssignmentProposal

/-- The contract of a proposal that was read is read again. -/
theorem contract_read {v : Json} {p : AssignmentProposal} (h : ofJson v = some p) :
    Json.nullable AssignmentContract.ofJson ((p.contract.map AssignmentContract.dump).getD .null) =
      some p.contract := by
  unfold ofJson at h
  obtain ⟨d, -, h⟩ := Option.bind_eq_some_iff.mp h
  obtain ⟨_, -, h⟩ := Option.bind_eq_some_iff.mp h
  obtain ⟨assignmentId, -, h⟩ := Option.bind_eq_some_iff.mp h
  obtain ⟨stageId, -, h⟩ := Option.bind_eq_some_iff.mp h
  obtain ⟨attempt, -, h⟩ := Option.bind_eq_some_iff.mp h
  obtain ⟨agentId, -, h⟩ := Option.bind_eq_some_iff.mp h
  obtain ⟨goal, -, h⟩ := Option.bind_eq_some_iff.mp h
  obtain ⟨capabilities, -, h⟩ := Option.bind_eq_some_iff.mp h
  obtain ⟨exitCriteria, -, h⟩ := Option.bind_eq_some_iff.mp h
  obtain ⟨resultKind, -, h⟩ := Option.bind_eq_some_iff.mp h
  obtain ⟨version, -, h⟩ := Option.bind_eq_some_iff.mp h
  obtain ⟨leaseSeconds, -, h⟩ := Option.bind_eq_some_iff.mp h
  obtain ⟨contract, hcontract, h⟩ := Option.bind_eq_some_iff.mp h
  split at h
  next =>
    obtain rfl := Option.some.inj h
    exact Dict.reread_fieldD (AssignmentContract.rereads.nullable rfl) rfl hcontract
  next => cases h

theorem rereads : Json.Rereads ofJson (fun p => .dict p.dump) := by
  intro v p h
  unfold ofJson dump
  refine Dict.read_record rfl ?_
  refine Dict.bind_field rfl (Json.asStr_str p.assignmentId) ?_
  refine Dict.bind_field rfl (Json.asStr_str p.stageId) ?_
  refine Dict.bind_field rfl (Json.laxInt_int p.attempt) ?_
  refine Dict.bind_field rfl (Json.asStr_str p.agentId) ?_
  refine Dict.bind_field rfl (Json.asStr_str p.goal) ?_
  refine Dict.bind_fieldD rfl (Json.textSet_ofTextSet p.requiredCapabilities) ?_
  refine Dict.bind_fieldD rfl (Json.listOf_map Json.asStr_str p.exitCriteria) ?_
  refine Dict.bind_field rfl (Json.asStr_str p.resultKind) ?_
  refine Dict.bind_fieldD rfl (Json.laxInt_int p.contractVersion) ?_
  refine Dict.bind_field rfl (Json.laxInt_int p.leaseSeconds) ?_
  refine Dict.bind_fieldD rfl (contract_read h) ?_
  exact dif_pos ⟨p.assignmentId_ne, p.stageId_ne, p.attempt_pos, p.agentId_ne, p.goal_ne, p.resultKind_ne,
    p.version_pos, p.lease_bounds⟩

end AssignmentProposal

theorem StageState.ofJson_value (state : StageState) :
    StageState.ofJson (.str state.value) = some state := by
  cases state <;> decide

theorem StagePlanView.ofJson_dump (stage : StagePlanView) :
    StagePlanView.ofJson stage.dump = some stage := by
  unfold StagePlanView.ofJson StagePlanView.dump
  refine Dict.read_record rfl ?_
  refine Dict.bind_field rfl (Json.asStr_str stage.stageId) ?_
  refine Dict.bind_field rfl (StageState.ofJson_value stage.state) ?_
  refine Dict.bind_fieldD rfl (Json.listOf_map Json.asStr_str stage.dependsOn) ?_
  exact Dict.bind_fieldD rfl (Json.nullable_ofOption stage.agentId) rfl

namespace PlanPatch

variable {v : Json} {patch : PlanPatch}

/-- The proposals of a patch that was read have been read. -/
theorem proposal_read (h : ofJson v = some patch) {p : AssignmentProposal}
    (hp : p ∈ patch.assignments) : ∃ w, AssignmentProposal.ofJson w = some p := by
  unfold ofJson at h
  obtain ⟨d, -, h⟩ := Option.bind_eq_some_iff.mp h
  obtain ⟨_, -, h⟩ := Option.bind_eq_some_iff.mp h
  obtain ⟨revision, -, h⟩ := Option.bind_eq_some_iff.mp h
  obtain ⟨contractId, -, h⟩ := Option.bind_eq_some_iff.mp h
  obtain ⟨contractVersion, -, h⟩ := Option.bind_eq_some_iff.mp h
  obtain ⟨reason, -, h⟩ := Option.bind_eq_some_iff.mp h
  obtain ⟨stages, -, h⟩ := Option.bind_eq_some_iff.mp h
  obtain ⟨assignments, hassignments, h⟩ := Option.bind_eq_some_iff.mp h
  obtain ⟨completionReady, -, h⟩ := Option.bind_eq_some_iff.mp h
  obtain ⟨blockedReason, -, h⟩ := Option.bind_eq_some_iff.mp h
  obtain ⟨waitingReason, -, h⟩ := Option.bind_eq_some_iff.mp h
  obtain ⟨waitingStageIds, -, h⟩ := Option.bind_eq_some_iff.mp h
  split at h
  next =>
    obtain rfl := Option.some.inj h
    exact Dict.read_of_mem hassignments hp
  next => cases h

theorem rereads : Json.Rereads ofJson (fun patch => .dict patch.commandPayload) := by
  intro v patch h
  have hproposals : ∀ p ∈ patch.assignments, AssignmentProposal.ofJson (.dict p.dump) = some p := by
    intro p hp
    obtain ⟨w, hw⟩ := proposal_read h hp
    exact AssignmentProposal.rereads w p hw
  unfold ofJson commandPayload
  refine Dict.read_record rfl ?_
  refine Dict.bind_field rfl (Json.laxInt_int patch.revision) ?_
  refine Dict.bind_field rfl (Json.asStr_str patch.contractId) ?_
  refine Dict.bind_field rfl (Json.laxInt_int patch.contractVersion) ?_
  refine Dict.bind_field rfl (Json.asStr_str patch.reason) ?_
  refine Dict.bind_field rfl (Json.listOf_map StagePlanView.ofJson_dump patch.stages) ?_
  refine Dict.bind_fieldD rfl (Json.listOf_map_of_mem hproposals) ?_
  refine Dict.bind_fieldD rfl (Json.laxBool_bool patch.completionReady) ?_
  refine Dict.bind_fieldD rfl (Json.nullable_ofOption patch.blockedReason) ?_
  refine Dict.bind_fieldD rfl (Json.nullable_ofOption patch.waitingReason) ?_
  refine Dict.bind_fieldD rfl (Json.listOf_map Json.asStr_str patch.waitingStageIds) ?_
  exact dif_pos ⟨patch.revision_pos, patch.contractId_ne, patch.version_pos, patch.reason_ne,
    patch.unambiguous⟩

end PlanPatch

/-! ### Facts -/

/-- The proposal that an assignment's fact holds beside the name of the contract. -/
def Event.proposed (e : Event) : Option AssignmentProposal :=
  AssignmentProposal.ofJson (.dict (e.payload.filter (fun kv => kv.1 ≠ "contract_id")))

section facts

variable {v : Json} {patch : PlanPatch} {p : AssignmentProposal}

/-- The fact of a proposal, with what is read of it. -/
structure Carries (e : Event) (runId : String) (patch : PlanPatch) (p : AssignmentProposal) : Prop where
  type : e.type = "assignment.created"
  run : e.runId = runId
  contractId : e.get? "contract_id" = some (.str patch.contractId)
  proposed : e.proposed = some p
  contract : e.payload.field "contract" (Json.nullable AssignmentContract.ofJson) = some p.contract

theorem carries_created {c : CommandCandidate} {causationId : String} {createdAt : DateTime}
    (hread : ∃ w, AssignmentProposal.ofJson w = some p) :
    Carries ((createdDraft patch p).event c causationId createdAt) c.runId patch p where
  type := rfl
  run := rfl
  contractId := rfl
  proposed := by
    obtain ⟨w, hw⟩ := hread
    exact AssignmentProposal.rereads w p hw
  contract := by
    obtain ⟨w, hw⟩ := hread
    exact AssignmentProposal.contract_read hw

/-- **A plan reaches the log as it was proposed**: whenever a command with a supervisor's patch is accepted,
whatever is in the store, the kernel has read that very patch, and every assignment that it proposes has its
fact, with the whole proposal and with a contract that reads as the one proposed. -/
theorem plan_reaches_log {dispatch : Option DispatchContext} {c : CommandCandidate}
    {op : (withStore kernelInterface).Op} {r : (withStore kernelInterface).Reply op} {w w' : StoreWorld}
    (hop : (submit controlKernel dispatch c).CanRequest anyReply op) (hstep : kernelStep w op r w')
    (hnew : AcceptedAt w w') (hkind : c.kind = .planPatch) (hread : PlanPatch.ofJson v = some patch)
    (hpayload : c.payload = patch.commandPayload) :
    PlanPatch.ofJson (.dict c.payload) = some patch ∧
      ∀ p ∈ patch.assignments, ∃ f ∈ w'.db.events.rows, Carries f c.runId patch p := by
  have hagain : PlanPatch.ofJson (.dict c.payload) = some patch := by
    rw [hpayload]
    exact PlanPatch.rereads v patch hread
  obtain ⟨es, haccepted⟩ := accepted_of_acceptedAt hop hstep hnew
  refine ⟨hagain, fun p hp => ?_⟩
  obtain ⟨f, hf, causationId, createdAt, hsame⟩ := haccepted.creates hkind hagain hp
  have hcarries := @carries_created patch p c causationId createdAt (PlanPatch.proposal_read hread hp)
  rw [← hsame] at hcarries
  exact ⟨f, hf, hcarries.type, hcarries.run, hcarries.contractId, hcarries.proposed, hcarries.contract⟩

end facts

/-! ### A patch that is committed -/

/-- A supervisor's command with a patch. -/
def relayedPatch : CommandCandidate :=
  { searchedPatch with
    payload := ((PlanPatch.ofJson (.dict searchedPatch.payload)).map PlanPatch.commandPayload).getD [] }

/-- The store when the patch is committed, and afterwards. -/
def relaysAt : StoreWorld := (submitAlone relayedPatch 16 searchedRun).2

def relayedAt : StoreWorld := (submitAlone relayedPatch 17 searchedRun).2

theorem accepted_relayed : AcceptedAt relaysAt relayedAt :=
  acceptedAt_of_id (i := kernelId "patch" "accepted") (by decide +kernel) (by decide +kernel)

theorem relayed_ne : relayedAt ≠ relaysAt := by
  intro heq
  obtain ⟨e, he, hnot, -⟩ := accepted_relayed
  rw [heq] at he
  exact hnot he

/-- The assignment of the patch has its fact. -/
theorem plan_reaches_log_relayed : ∃ patch, PlanPatch.ofJson (.dict searchedPatch.payload) = some patch ∧
    patch.assignments.length = 1 ∧ PlanPatch.ofJson (.dict relayedPatch.payload) = some patch ∧
      ∀ p ∈ patch.assignments, ∃ f ∈ relayedAt.db.events.rows, Carries f "run-a" patch p := by
  have hone : (PlanPatch.ofJson (.dict searchedPatch.payload)).map (·.assignments.length) = some 1 := by
    decide +kernel
  obtain ⟨patch, hread, hlength⟩ := Option.map_eq_some_iff.mp hone
  obtain ⟨op, r, hop, hstep⟩ := submitAlone_next (c := relayedPatch) (n := 16) (w := searchedRun) relayed_ne
  refine ⟨patch, hread, hlength, plan_reaches_log hop hstep accepted_relayed rfl hread ?_⟩
  show ((PlanPatch.ofJson (.dict searchedPatch.payload)).map PlanPatch.commandPayload).getD [] = _
  rw [hread]
  rfl

end CrazyHarness
