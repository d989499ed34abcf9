import CrazyHarness.A2A.Orchestration
import CrazyHarness.Kernel.Checks

/-! # Provenance checks

What the kernel asks of a team result before it becomes a fact: its evidence references resolve in
the same run, and its text was submitted by a child agent run whose log shows, in this order, the
seed, the model call, the validated command, the completion gate and the submission, and one whole
tool operation for every tool its contract requires. -/

namespace CrazyHarness

open Lib Check

/-! ### Reading events -/

/-- `event.payload.get(key)` where it is a text. -/
def Event.text (e : Event) (key : String) : Option String := (e.get? key).bind Json.asStr

/-- `event.payload.get(key)`, `None` where it is missing. -/
def Event.value (e : Event) (key : String) : Json := (e.get? key).getD .null

/-- `str(event.causation_id)`. -/
def Event.causeText (e : Event) : String := e.causationId.getD "None"

/-- `positions.get(event_id)`. -/
def position (child : List Event) (id : String) : Option ℕ := child.findIdx? (fun e => e.id = id)

/-- Both events are in the log of the child run, `a` before `b`. -/
def precedes (child : List Event) (a b : Event) : Bool :=
  match position child a.id, position child b.id with
  | some i, some j => decide (i < j)
  | _, _ => false

/-- The event is in the log of the child run. -/
def logged (child : List Event) (e : Event) : Bool := (position child e.id).isSome

/-- `candidate.payload.get("evidence_refs", [])` in a loop. -/
def evidenceRefs (c : CommandCandidate) : Except StoreError (List Json) :=
  match c.payload.getD "evidence_refs" (.list []) with
  | .list refs => .ok refs
  | .str s => .ok (s.toList.map (fun ch => .str (String.singleton ch)))
  | .dict items => .ok (items.map (fun kv => .str kv.1))
  | _ => .error .typeError

/-! ### Evidence references -/

/-- `_LEASED_RESULT_KINDS`. -/
def leasedResultKinds : List CommandKind := [.evidence, .artifact, .review]

/-- `_FORMAL_EVIDENCE_TYPES`. -/
def formalEvidenceTypes : List String := ["evidence.recorded", "artifact.recorded", "review.recorded"]

/-- `_ALLOWED_EVIDENCE_TYPES`. -/
def allowedEvidenceTypes : CommandKind → List String
  | .evidence => ["tool.completed"]
  | .artifact => ["tool.completed", "a2a.peer.responded", "evidence.recorded"]
  | .review => ["tool.completed", "a2a.peer.responded", "evidence.recorded", "artifact.recorded"]
  | .peerResponse => ["tool.completed", "evidence.recorded", "artifact.recorded", "review.recorded"]
  | .memory => formalEvidenceTypes ++ ["dream.evidence.frozen"]
  | .evolution => formalEvidenceTypes ++ ["dream.evidence.frozen"]
  | .planPatch => []
  | .peerRequest => []
  | .complete => []

/-- `event.payload["result"]["status"] == "ok"`. -/
def ToolSucceeded (e : Event) : Prop :=
  ((e.value "result").asDict.bind (Dict.get? · "status")).bind Json.asStr = some "ok"

instance : DecidablePred ToolSucceeded := fun _ => inferInstanceAs (Decidable (_ = _))

/-- The checks of a reference that resolves, by the type of its event; whether it is tool evidence of
the agent run. -/
def checkReferenced (c : CommandCandidate) (ref : String) (event : Event) : Check Bool :=
  if event.type = "tool.completed" then do
    require (ToolSucceeded event) ("evidence_ref_tool_not_successful:" ++ ref)
    match (c.payload.getD "agent_run_id" .null).asStr with
    | some agentRunId => do
        require (event.taskId = agentRunId) ("evidence_ref_agent_run_mismatch:" ++ ref)
        require (event.source = c.actorId) ("evidence_ref_actor_mismatch:" ++ ref)
        return true
    | none => return false
  else if event.type = "a2a.peer.responded" ∧ (c.payload.getD "agent_run_id" .null).asStr.isSome then do
    require ((c.payload.getD "agent_run_id" .null).asStr = some event.taskId)
      ("evidence_ref_agent_run_mismatch:" ++ ref)
    return false
  else do
    require (event.type ∈ formalEvidenceTypes → event.taskId = c.taskId)
      ("evidence_ref_task_mismatch:" ++ ref)
    return false

/-- The checks of one reference. -/
def checkReference (c : CommandCandidate) (rawRef : Json) : Check Bool := do
  let ref := strip rawRef.pyStr
  require (ref ≠ "") "evidence_ref_empty"
  let event ← orReject (← getEvent ref) ("evidence_ref_not_found:" ++ ref)
  require (event.runId = c.runId) ("evidence_ref_cross_run:" ++ ref)
  require (event.type ∈ allowedEvidenceTypes c.kind) ("evidence_ref_type_not_allowed:" ++ event.type)
  checkReferenced c ref event

/-- `_validate_evidence_references`. -/
def validateEvidenceReferences (c : CommandCandidate) : Check Unit :=
  match c.payload.getD "evidence_refs" .null with
  | .list refs => do
      require (refs ≠ []) "evidence_refs_empty"
      let agentToolEvidence ← collect (checkReference c) refs
      require (c.kind ∈ .peerResponse :: leasedResultKinds → true ∈ agentToolEvidence)
        "agent_tool_evidence_required"
  | _ => reject "evidence_refs_must_be_a_list"

/-! ### The model call behind a command -/

/-- `_is_trusted_agent_run_observation`. -/
def isTrustedAgentRunObservation (seed event : Event) : Check Bool :=
  if event.type ≠ "a2a.peer.responded" ∨ event.source ≠ "runtime.a2a.bridge" then pure false
  else
    match event.text "root_event_id" with
    | none => pure false
    | some rootEventId =>
        if event.causationId ≠ some rootEventId then pure false
        else do
          match ← getEvent rootEventId with
          | none => return false
          | some root =>
              let fields := ["assignment_id", "correlation_id", "sender", "brief", "evidence_refs"]
              return decide (root.runId = seed.runId ∧
                seed.text "root_task_id" = some root.taskId ∧ root.type = "a2a.peer.responded" ∧
                (root.value "receiver").pyEq (seed.value "agent_id") ∧
                ∀ field ∈ fields, (event.value field).pyEq (root.value field))

/-- `_causal_chain_reaches_seed`; every step goes back in the log, which bounds their number. -/
def causalChainReachesSeed (child : List Event) (seed : Event) :
    ℕ → List String → Event → Check Bool
  | 0, _, _ => pure false
  | steps + 1, visited, current =>
      if current.id = seed.id then pure true
      else do
        let trusted ← isTrustedAgentRunObservation seed current
        match trusted, current.causationId with
        | true, _ => return true
        | false, none => return false
        | false, some cause =>
            if current.id ∈ visited then return false
            else
              match ← getEvent cause with
              | none => return false
              | some parent =>
                  if parent.runId = seed.runId ∧ parent.taskId = seed.taskId ∧
                      precedes child parent current then
                    causalChainReachesSeed child seed steps (current.id :: visited) parent
                  else return false

/-- What a request, a response and the command that follows have in common. -/
def InTurn (c : CommandCandidate) (child : List Event) (taskId turnId : String) (e : Event) : Prop :=
  e.runId = c.runId ∧ e.taskId = taskId ∧ e.source = c.actorId ∧ e.text "turn_id" = some turnId ∧
    logged child e

instance (c : CommandCandidate) (child : List Event) (taskId turnId : String) :
    DecidablePred (InTurn c child taskId turnId) := fun _ => inferInstanceAs (Decidable (_ ∧ _))

/-- The model call: the request, its response and the command, in this order after the seed. -/
def ModelCallOrdered (child : List Event) (seed request response command : Event) : Prop :=
  request.type = "model.requested" ∧ response.type = "model.completed" ∧
    response.causationId = some request.id ∧ command.type = "agent.command.validated" ∧
    command.causationId = some response.id ∧ precedes child seed request ∧
    precedes child request response ∧ precedes child response command

instance (child : List Event) (seed request response command : Event) :
    Decidable (ModelCallOrdered child seed request response command) :=
  inferInstanceAs (Decidable (_ ∧ _))

/-- `_has_valid_model_command_chain`. -/
def hasValidModelCommandChain (c : CommandCandidate) (child : List Event) (seed command : Event)
    (turnId : String) : Check Bool := do
  match ← getEvent command.causeText with
  | none => return false
  | some response =>
      match ← getEvent response.causeText with
      | none => return false
      | some request =>
          match ← getEvent request.causeText with
          | none => return false
          | some trigger =>
              if (∀ e ∈ [request, response, command], InTurn c child command.taskId turnId e) ∧
                  trigger.runId = c.runId ∧ trigger.taskId = command.taskId ∧
                  precedes child trigger request then do
                let reaches ← causalChainReachesSeed child seed (child.length + 1) [] trigger
                return reaches && decide (ModelCallOrdered child seed request response command)
              else return false

/-! ### Tool evidence -/

/-- `tool.payload["result"]["name"]`, a text that is not empty. -/
def toolNameOf (tool : Event) : Option String :=
  ((tool.value "result").asDict.bind (Dict.get? · "name")).bind Json.nonEmpty

/-- A record of the operation, by the type of the event. -/
def OfOperation (type operationId turnId : String) (e : Event) : Prop :=
  e.type = type ∧ e.text "operation_id" = some operationId ∧ e.text "turn_id" = some turnId

instance (type operationId turnId : String) : DecidablePred (OfOperation type operationId turnId) :=
  fun _ => inferInstanceAs (Decidable (_ ∧ _))

/-- The records of one tool operation, in order: command, start, request, result, end. -/
structure ToolOperation (c : CommandCandidate) (child : List Event)
    (seed submission command operation requested tool settled : Event) (toolName : String) : Prop where
  call : ∃ persisted, (command.value "command").asDict = some persisted ∧
    (persisted.get? "type").bind Json.asStr = some "call_tool" ∧
    (persisted.get? "tool_name").bind Json.asStr = some toolName
  mine : ∀ e ∈ [operation, requested, tool, settled],
    e.runId = c.runId ∧ e.taskId = submission.taskId ∧ e.source = c.actorId
  ordered : precedes child seed command ∧ precedes child command operation ∧
    precedes child operation requested ∧ precedes child requested tool ∧
    precedes child tool settled ∧ precedes child settled submission

instance (c : CommandCandidate) (child : List Event)
    (seed submission command operation requested tool settled : Event) (toolName : String) :
    Decidable (ToolOperation c child seed submission command operation requested tool settled
      toolName) :=
  decidable_of_iff
    ((command.value "command").asDict.any (fun persisted =>
        (persisted.get? "type").bind Json.asStr = some "call_tool" ∧
        (persisted.get? "tool_name").bind Json.asStr = some toolName) = true ∧
      (∀ e ∈ [operation, requested, tool, settled],
        e.runId = c.runId ∧ e.taskId = submission.taskId ∧ e.source = c.actorId) ∧
      precedes child seed command ∧ precedes child command operation ∧
      precedes child operation requested ∧ precedes child requested tool ∧
      precedes child tool settled ∧ precedes child settled submission)
    ⟨fun ⟨h₁, h₂, h₃⟩ => ⟨by simpa using (Option.any_eq_true _ _).mp h₁, h₂, h₃⟩,
      fun h => ⟨(Option.any_eq_true _ _).mpr (by simpa using h.call), h.mine, h.ordered⟩⟩

/-- The chain of records around a `tool.completed` that a candidate refers to. -/
def checkToolChain (c : CommandCandidate) (child : List Event) (seed submission : Event)
    (reasonPrefix : String) (tool : Event) : Check (Option String) := do
  let invalid := reasonPrefix ++ "_tool_evidence_chain_invalid"
  let toolName ← orReject (toolNameOf tool) invalid
  let turnId ← orReject (tool.value "turn_id").nonEmpty invalid
  let operationId ← orReject (tool.value "operation_id").nonEmpty invalid
  require (precedes child tool submission) invalid
  let operation ← orReject (child.find? (fun e =>
    OfOperation "operation.started" operationId turnId e ∧ e.text "tool_name" = some toolName)) invalid
  let requested ← orReject (child.find? (fun e =>
    OfOperation "tool.requested" operationId turnId e ∧ e.text "tool_name" = some toolName ∧
      e.causationId = some operation.id)) invalid
  let settled ← orReject (child.find? (fun e =>
    OfOperation "operation.completed" operationId turnId e ∧
      e.text "result_event_id" = some tool.id ∧ e.causationId = some tool.id)) invalid
  let command ← orReject (← getEvent operation.causeText) invalid
  require (ToolOperation c child seed submission command operation requested tool settled toolName)
    invalid
  let chain ← hasValidModelCommandChain c child seed command turnId
  require chain invalid
  return some toolName

/-- The tool a reference is evidence for; a reference to anything else is skipped. -/
def toolEvidence (c : CommandCandidate) (child : List Event) (seed submission : Event)
    (reasonPrefix : String) (rawRef : Json) : Check (Option String) := do
  match ← getEvent rawRef.pyStr with
  | none => return none
  | some tool =>
      if tool.type = "tool.completed" then checkToolChain c child seed submission reasonPrefix tool
      else return none

/-- `_validate_agent_run_tool_evidence`. -/
def validateAgentRunToolEvidence (c : CommandCandidate) (contract : AssignmentContract)
    (child : List Event) (seed submission : Event) (reasonPrefix : String) : Check Unit := do
  let refs ← liftE (evidenceRefs c)
  let referenced ← collect (toolEvidence c child seed submission reasonPrefix) refs
  let missing := contract.evidenceRequirements.toFinset \ referenced.reduceOption.toFinset
  require (missing = ∅) (reasonPrefix ++ "_evidence_requirements_missing:" ++
    ",".intercalate (missing.sort (· ≤ ·)))

/-! ### The submission -/

/-- The command and the gate behind a submission, in order. -/
structure SubmissionChain (c : CommandCandidate) (child : List Event) (agentRunId turnId : String)
    (seed command gate submission : Event) (artifact persisted : Dict) : Prop where
  commandOf : command.runId = c.runId ∧ command.taskId = agentRunId ∧
    command.type = "agent.command.validated" ∧ command.source = c.actorId ∧
    command.text "turn_id" = some turnId
  submits : (persisted.get? "type").bind Json.asStr = some "submit_output" ∧
    (persisted.getD "artifact" .null).pyEq (.dict artifact)
  gateOf : gate.runId = c.runId ∧ gate.taskId = agentRunId ∧ gate.source = c.actorId
  ordered : precedes child seed command ∧ precedes child command gate ∧
    precedes child gate submission

instance (c : CommandCandidate) (child : List Event) (agentRunId turnId : String)
    (seed command gate submission : Event) (artifact persisted : Dict) :
    Decidable (SubmissionChain c child agentRunId turnId seed command gate submission artifact
      persisted) :=
  decidable_of_iff ((command.runId = c.runId ∧ command.taskId = agentRunId ∧
      command.type = "agent.command.validated" ∧ command.source = c.actorId ∧
      command.text "turn_id" = some turnId) ∧
    ((persisted.get? "type").bind Json.asStr = some "submit_output" ∧
      (persisted.getD "artifact" .null).pyEq (.dict artifact)) ∧
    (gate.runId = c.runId ∧ gate.taskId = agentRunId ∧ gate.source = c.actorId) ∧
    precedes child seed command ∧ precedes child command gate ∧ precedes child gate submission)
    ⟨fun ⟨h₁, h₂, h₃, h₄⟩ => ⟨h₁, h₂, h₃, h₄⟩,
      fun h => ⟨h.commandOf, h.submits, h.gateOf, h.ordered⟩⟩

/-- Evidence of the child run itself comes before its submission. -/
def checkChildEvidence (child : List Event) (submission : Event) (agentRunId invalid : String)
    (rawRef : Json) : Check Unit := do
  match ← getEvent rawRef.pyStr with
  | none => return ()
  | some evidence =>
      require (evidence.taskId = agentRunId → precedes child evidence submission) invalid

/-- `_validated_submission_artifact`. -/
def validatedSubmissionArtifact (c : CommandCandidate) (seed submission : Event)
    (agentRunId reasonPrefix : String) (contract : AssignmentContract) : Check Dict := do
  let invalid := reasonPrefix ++ "_submission_chain_invalid"
  let child ← readTask agentRunId
  let command ← orReject (← getEvent submission.causeText) invalid
  let gate ← orReject (child.find? (fun e => e.type = "completion.gate.passed" ∧
    e.causationId = some command.id ∧ e.value "turn_id" = submission.value "turn_id")) invalid
  let artifact ← orReject (submission.value "artifact").asDict invalid
  let persisted ← orReject (command.value "command").asDict invalid
  let turnId ← orReject (submission.value "turn_id").nonEmpty invalid
  require (SubmissionChain c child agentRunId turnId seed command gate submission artifact persisted)
    invalid
  let chain ← hasValidModelCommandChain c child seed command turnId
  require chain (reasonPrefix ++ "_submission_model_chain_invalid")
  validateAgentRunToolEvidence c contract child seed submission reasonPrefix
  let refs ← liftE (evidenceRefs c)
  each (checkChildEvidence child submission agentRunId invalid) refs
  return artifact

/-- What binds the seed of an agent run and its submission to the command. -/
structure AgentRunBound (c : CommandCandidate) (agentRunKind agentRunId causeId : String)
    (seed submission : Event) : Prop where
  seedOf : seed.runId = c.runId ∧ seed.source = "runtime.team" ∧ seed.taskId = agentRunId ∧
    seed.text "agent_run_kind" = some agentRunKind ∧ seed.text "agent_id" = some c.actorId ∧
    seed.text "root_task_id" = some c.taskId ∧ seed.causationId = some causeId
  submissionOf : submission.runId = c.runId ∧ submission.taskId = agentRunId ∧
    submission.type = "agent.submitted" ∧ submission.source = c.actorId

instance (c : CommandCandidate) (agentRunKind agentRunId causeId : String) (seed submission : Event) :
    Decidable (AgentRunBound c agentRunKind agentRunId causeId seed submission) :=
  decidable_of_iff ((seed.runId = c.runId ∧ seed.source = "runtime.team" ∧ seed.taskId = agentRunId ∧
      seed.text "agent_run_kind" = some agentRunKind ∧ seed.text "agent_id" = some c.actorId ∧
      seed.text "root_task_id" = some c.taskId ∧ seed.causationId = some causeId) ∧
    submission.runId = c.runId ∧ submission.taskId = agentRunId ∧
    submission.type = "agent.submitted" ∧ submission.source = c.actorId)
    ⟨fun ⟨h₁, h₂⟩ => ⟨h₁, h₂⟩, fun h => ⟨h.seedOf, h.submissionOf⟩⟩

/-- `fields_by_kind`. -/
def submittedFields : CommandKind → List String
  | .evidence => ["summary"]
  | .artifact => ["title", "summary", "content"]
  | .review => ["decision", "summary"]
  | _ => []

/-- `_validate_assignment_agent_run`. -/
def validateAssignmentAgentRun (c : CommandCandidate) (assignment : Dict) : Check Unit := do
  let agentRunId ← orReject (c.payload.getD "agent_run_id" .null).nonEmpty
    "assignment_agent_run_id_required"
  let submissionId ← orReject (c.payload.getD "submission_event_id" .null).nonEmpty
    "assignment_submission_event_required"
  let notFound := "assignment_agent_run_provenance_not_found"
  let seed ← orReject ((← readTask agentRunId).find? (fun e => e.type = "agent.run.created")) notFound
  let submission ← orReject (← getEvent submissionId) notFound
  let assignmentId := assignment.getD "assignment_id" .null
  let created ← orReject ((← readRun c.runId).find? (fun e =>
    e.type = "assignment.created" ∧ (e.value "assignment_id").pyEq assignmentId)) notFound
  let contract ← orReject ((assignment.get? "contract").bind AssignmentContract.ofJson)
    "assignment_agent_run_contract_mismatch"
  require (AgentRunBound c "assignment" agentRunId created.id seed submission ∧
      (seed.value "assignment_id").pyEq assignmentId)
    "assignment_agent_run_provenance_mismatch"
  require ((seed.value "contract").pyEq contract.dump) "assignment_agent_run_contract_mismatch"
  let artifact ← validatedSubmissionArtifact c seed submission agentRunId "assignment" contract
  require (∀ field ∈ submittedFields c.kind,
      (c.payload.getD field .null).pyEq (artifact.getD field .null))
    "assignment_submission_payload_mismatch"

/-- `_persisted_team_contract`: the contract in the event that created the run. -/
def persistedTeamContract (runId : String) : Check (Option TeamContract) := do
  let created := (← readRun runId).find? (fun e => e.type = "run.created")
  match created.bind (fun e => e.get? "team_contract") with
  | none => return none
  | some .null => return none
  | some contract =>
      match TeamContract.ofJson contract with
      | some contract => return some contract
      | none => throw (.raised (.valueError "validation error for TeamContract"))

/-- `_validate_peer_agent_run`. -/
def validatePeerAgentRun (c : CommandCandidate) (request : Event) : Check Unit := do
  let agentRunId ← orReject (c.payload.getD "agent_run_id" .null).nonEmpty "peer_agent_run_id_required"
  let submissionId ← orReject (c.payload.getD "submission_event_id" .null).nonEmpty
    "peer_submission_event_required"
  let notFound := "peer_agent_run_provenance_not_found"
  let seed ← orReject ((← readTask agentRunId).find? (fun e => e.type = "agent.run.created")) notFound
  let submission ← orReject (← getEvent submissionId) notFound
  let teamContract ← persistedTeamContract c.runId
  let contract ← orReject (teamContract.bind TeamContract.peerContract)
    "peer_agent_run_contract_mismatch"
  require (AgentRunBound c "peer" agentRunId request.id seed submission ∧
      (seed.value "assignment_id").pyEq (request.value "assignment_id") ∧
      (seed.value "correlation_id").pyEq (c.payload.getD "correlation_id" .null))
    "peer_agent_run_provenance_mismatch"
  require ((seed.value "contract").pyEq contract.dump) "peer_agent_run_contract_mismatch"
  let artifact ← validatedSubmissionArtifact c seed submission agentRunId "peer" contract
  require ((c.payload.getD "brief" .null).pyEq (artifact.getD "brief" .null))
    "peer_submission_payload_mismatch"

end CrazyHarness
