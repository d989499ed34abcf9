import CrazyHarness.Kernel.PlanChecks

/-! # `_validate`

The checks of a candidate: its fields and schema, the authority of its actor, and what its kind asks
for.  A run without a persisted contract leaves most of the checks of results and peers out. -/

namespace CrazyHarness

open Lib Check

/-! ### Tables -/

/-- `_REQUIRED_FIELDS`. -/
def requiredFields : CommandKind → List String
  | .planPatch => ["revision", "stages"]
  | .evidence => ["assignment_id", "summary", "evidence_refs"]
  | .peerRequest => ["assignment_id", "receiver", "scope", "permissions"]
  | .peerResponse => ["assignment_id", "receiver", "brief", "evidence_refs", "correlation_id"]
  | .artifact => ["assignment_id", "title", "summary", "evidence_refs"]
  | .review => ["assignment_id", "decision", "evidence_refs"]
  | .complete => []
  | .memory => ["candidate_id", "slot", "content", "scope", "evidence_refs"]
  | .evolution => ["candidate_id", "base_version", "proposed_version", "rationale", "evidence_refs",
      "diffs"]

/-- `_ACTORS`. -/
def authorizedActors : CommandKind → List String
  | .planPatch => ["coordinator"]
  | .evidence => ["scout", "scout-backup"]
  | .peerRequest => ["scout", "scout-backup", "builder", "reviewer"]
  | .peerResponse => ["scout", "scout-backup", "builder", "reviewer"]
  | .artifact => ["builder"]
  | .review => ["reviewer"]
  | .complete => ["coordinator"]
  | .memory => ["dream.worker"]
  | .evolution => ["context.evolver"]

/-- `_PEER_REQUEST_LIMIT`. -/
def peerRequestLimit : ℕ := 1

/-! ### Payload schemas -/

/-- `Field(strict=True, ge=1)` of an `int`. -/
def strictPositive : Json → Option ℤ
  | .int n => if 1 ≤ n then some n else none
  | _ => none

/-- `_PeerRequestPayload.model_validate`. -/
def peerRequestPayload (d : Dict) : Option Unit := do
  d.onlyFields ["assignment_id", "receiver", "brief", "scope", "permissions", "depth", "peer_budget",
    "correlation_id"]
  let _ ← d.field "assignment_id" Json.nonEmpty
  let _ ← d.field "receiver" Json.nonEmpty
  let _ ← d.fieldD "brief" Json.asStr ""
  let _ ← d.field "scope" (Json.listOf Json.asStr)
  let _ ← d.field "permissions" (Json.listOf Json.asStr)
  let _ ← d.fieldD "depth" strictPositive 1
  let _ ← d.fieldD "peer_budget" strictPositive 1
  let _ ← d.fieldD "correlation_id" (Json.nullable Json.asStr) none
  return ()

/-- `_PeerResponsePayload.model_validate`. -/
def peerResponsePayload (d : Dict) : Option Unit := do
  d.onlyFields ["assignment_id", "receiver", "brief", "evidence_refs", "correlation_id",
    "agent_run_id", "submission_event_id"]
  let _ ← d.field "assignment_id" Json.nonEmpty
  let _ ← d.field "receiver" Json.nonEmpty
  let _ ← d.field "brief" Json.nonEmpty
  let refs ← d.field "evidence_refs" (Json.listOf Json.asStr)
  let _ ← d.field "correlation_id" Json.nonEmpty
  let _ ← d.field "agent_run_id" Json.nonEmpty
  let _ ← d.field "submission_event_id" Json.nonEmpty
  if refs = [] then none else some ()

/-- `_validate_payload_schema`. -/
def payloadSchema (c : CommandCandidate) : Option Unit :=
  match c.kind with
  | .peerRequest => peerRequestPayload c.payload
  | .peerResponse => peerResponsePayload c.payload
  | _ => some ()

/-- The texts of a list in the payload. -/
def payloadTexts (c : CommandCandidate) (key : String) : List String :=
  ((c.payload.get? key).bind (Json.listOf Json.asStr)).getD []

/-- `str(candidate.payload["assignment_id"])`. -/
def assignmentIdText (c : CommandCandidate) : String :=
  (c.payload.getD "assignment_id" .null).pyStr

/-! ### Leases -/

/-- The lease of an assignment is active for its holder and has not expired. -/
def requireActiveLease (c : CommandCandidate) (assignmentId : String) (holder : Json)
    (reason : String) : Check Unit := do
  let lease ← orReject (← projection "lease" assignmentId) reason
  require ((lease.get? "run_id").bind Json.asStr = some c.runId ∧ hasStatus lease ["active"] ∧
    (lease.getD "agent_id" .null).pyEq holder) reason
  let deadline ← orReject ((lease.get? "expires_at").bind Json.asTime) reason
  require deadline.Aware reason
  let current ← now
  require (current.instant < deadline.instant) reason

/-! ### Results -/

/-- `_candidate_assignment`. -/
def candidateAssignment (c : CommandCandidate) : Check (Option Dict) :=
  match truthyText (c.payload.get? "assignment_id") with
  | none => pure none
  | some assignmentId => projection "assignment" assignmentId

/-- `dynamically_authorized`. -/
def dynamicallyAuthorized (c : CommandCandidate) (assignment : Option Dict) : Bool :=
  decide (c.kind ∈ leasedResultKinds) &&
    assignment.any (fun a => (a.get? "agent_id").bind Json.asStr = some c.actorId)

/-- `_validate_leased_result`. -/
def validateLeasedResult (c : CommandCandidate) (assignment : Option Dict) : Check Unit := do
  let assignment ← orReject assignment "assignment_not_found_in_run"
  require ((assignment.get? "run_id").bind Json.asStr = some c.runId) "assignment_not_found_in_run"
  require ((assignment.get? "agent_id").bind Json.asStr = some c.actorId)
    "assignment_not_held_by_actor"
  require (assignment.getD "result_kind" .null ∈ [.null, .str c.kind.value])
    "assignment_result_kind_mismatch"
  require ((assignment.get? "task_id").bind Json.asStr = some c.taskId) "assignment_task_mismatch"
  requireActiveLease c (assignmentIdText c) (.str c.actorId) "assignment_lease_not_active_for_actor"

/-- What is asked of a result of a team: its references and its agent run. -/
def validateTeamResult (c : CommandCandidate) (assignment : Option Dict) : Check Unit := do
  validateEvidenceReferences c
  validateAssignmentAgentRun c (assignment.getD [])

/-- The checks of `EVIDENCE`, `ARTIFACT` and `REVIEW`. -/
def validateResult (c : CommandCandidate) (assignment : Option Dict)
    (teamContract : Option TeamContract) : Check Unit :=
  if teamContract.isSome ∨ dynamicallyAuthorized c assignment then do
    validateLeasedResult c assignment
    withContract teamContract (fun _ => validateTeamResult c assignment)
  else pure ()

/-! ### Peers -/

/-- `_validate_peer_request_authority`. -/
def validatePeerRequestAuthority (c : CommandCandidate) (assignment : Option Dict) : Check Unit := do
  let assignment ← orReject assignment "peer_assignment_not_found_in_run"
  require ((assignment.get? "run_id").bind Json.asStr = some c.runId)
    "peer_assignment_not_found_in_run"
  require ((assignment.get? "agent_id").bind Json.asStr = some c.actorId)
    "peer_assignment_not_held_by_actor"
  require ((assignment.get? "task_id").bind Json.asStr = some c.taskId)
    "peer_assignment_task_mismatch"
  requireActiveLease c (assignmentIdText c) (.str c.actorId)
    "peer_assignment_lease_not_active_for_actor"
  let capabilities ← liftE (pySet (assignment.getD "required_capabilities" (.list [])))
  require (.str "peer.request" ∈ capabilities) "peer_request_not_allowed_by_assignment"
  let receiverId := (c.payload.getD "receiver" .null).pyStr
  require (receiverId ≠ c.actorId) "peer_self_request_denied"
  let receiver ← orReject (← projection "agent" receiverId) "peer_receiver_not_found"
  let offered ← liftE (pySet (receiver.getD "capabilities" (.list [])))
  require (.str "peer.respond" ∈ offered) "peer_receiver_not_capable"
  require (¬ hasStatus receiver ["offline"]) "peer_receiver_unavailable"

/-- The event is a peer request of the sender about the assignment. -/
def IsPeerRequest (assignmentId sender : String) (e : Event) : Prop :=
  e.type = "a2a.peer.requested" ∧ e.text "assignment_id" = some assignmentId ∧
    e.text "sender" = some sender

instance (assignmentId sender : String) : DecidablePred (IsPeerRequest assignmentId sender) :=
  fun _ => inferInstanceAs (Decidable (_ ∧ _))

/-- The checks of `PEER_REQUEST`. -/
def validatePeerRequest (c : CommandCandidate) (assignment : Option Dict)
    (teamContract : Option TeamContract) : Check Unit := do
  let depth ← liftE (intOf (c.payload.getD "depth" (.int 1)))
  require (depth = 1) "peer_depth_exceeded"
  require (payloadTexts c "scope" ⊆ ["repo", "evidence", "task"]) "scope_escalation"
  require (payloadTexts c "permissions" ⊆ ["read"]) "permission_escalation"
  let budget ← liftE (intOf (c.payload.getD "peer_budget" (.int 1)))
  require (budget = peerRequestLimit) "peer_budget_escalation"
  withContract teamContract (fun _ => validatePeerRequestAuthority c assignment)
  let spent := (← readRun c.runId).countP (IsPeerRequest (assignmentIdText c) c.actorId ·)
  require (spent < peerRequestLimit) "peer_budget_exhausted"

/-- The request that a correlation names: the last one with it. -/
def requestOf (events : List Event) (correlationId : String) : Option Event :=
  events.reverse.find? (fun e =>
    e.type = "a2a.peer.requested" ∧ e.text "correlation_id" = some correlationId)

/-- `_validate_peer_response_authority`. -/
def validatePeerResponseAuthority (c : CommandCandidate) : Check Unit := do
  let correlationId := (c.payload.getD "correlation_id" .null).pyStr
  let request ← orReject (requestOf (← readRun c.runId) correlationId) "peer_request_not_found"
  require (request.text "assignment_id" = some (assignmentIdText c))
    "peer_response_assignment_mismatch"
  require (request.text "receiver" = some c.actorId) "peer_response_actor_mismatch"
  require (request.taskId = c.taskId) "peer_response_task_mismatch"
  require (request.text "sender" = some (c.payload.getD "receiver" .null).pyStr)
    "peer_response_receiver_mismatch"
  requireActiveLease c (request.value "assignment_id").pyStr (request.value "sender")
    "peer_response_request_assignment_not_active"
  let answered := (← readRun c.runId).any (fun e =>
    e.type = "a2a.peer.responded" ∧ e.text "correlation_id" = some correlationId)
  require (answered = false) "peer_response_already_recorded"
  validatePeerAgentRun c request

/-! ### `_validate` -/

/-- The required fields that are missing. -/
def missingFields (c : CommandCandidate) : List String :=
  (requiredFields c.kind).filter (fun field =>
    c.payload.getD field .null ∈ [.null, .str ""])

/-- What is asked of a candidate by its kind. -/
def validateKind (c : CommandCandidate) (assignment : Option Dict)
    (teamContract : Option TeamContract) : Check Unit :=
  match c.kind with
  | .planPatch => validatePlanPatch c
  | .evidence => validateResult c assignment teamContract
  | .artifact => validateResult c assignment teamContract
  | .review => validateResult c assignment teamContract
  | .peerRequest => validatePeerRequest c assignment teamContract
  | .peerResponse =>
      withContract teamContract (fun _ => do
        validatePeerResponseAuthority c
        validateEvidenceReferences c)
  | .memory => withContract teamContract (fun _ => validateEvidenceReferences c)
  | .evolution => withContract teamContract (fun _ => validateEvidenceReferences c)
  | .complete => pure ()

/-- `_validate`. -/
def validateCandidate (c : CommandCandidate) : Check Unit := do
  require (missingFields c = []) ("missing_fields:" ++ ",".intercalate (missingFields c))
  let _ ← orReject (payloadSchema c) ("invalid_" ++ c.kind.value ++ "_schema")
  let assignment ← candidateAssignment c
  let teamContract ← persistedTeamContract c.runId
  require (c.actorId ∈ authorizedActors c.kind ∨ dynamicallyAuthorized c assignment)
    "actor_not_authorized_for_command"
  validateKind c assignment teamContract

end CrazyHarness
