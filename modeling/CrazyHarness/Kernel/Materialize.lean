import CrazyHarness.Kernel.Submit
import CrazyHarness.Kernel.Validate

/-! # `_materialize`

The formal facts of a candidate that was accepted.  They are drafted by the kind of the command, and
every draft becomes an event of the kernel that the acceptance has caused (`stamp`).

`controlKernel` is the kernel with these checks and facts. -/

namespace CrazyHarness

open Lib ReadM

/-- What `emit` is called with. -/
structure Draft where
  suffix : String
  type : String
  body : Dict
  source : String := "control.kernel"
deriving DecidableEq

/-- The event a draft becomes. -/
def Draft.event (d : Draft) (c : CommandCandidate) (causationId : String) (createdAt : DateTime) :
    Event :=
  kernelEvent c d.suffix d.type d.body d.source (some causationId) createdAt

/-- The events of the drafts, each with its own time. -/
def stamp (c : CommandCandidate) (causationId : String) : List Draft → ReadM (List Event)
  | [] => pure []
  | d :: ds => do
      let createdAt ← now
      let rest ← stamp c causationId ds
      return d.event c causationId createdAt :: rest

/-- An expression that may raise. -/
def raises {α : Type} (r : Except StoreError α) : ReadM α :=
  match r with
  | .ok a => pure a
  | .error e => throw e

/-- `candidate.payload[key]`. -/
def payloadItem (c : CommandCandidate) (key : String) : ReadM Json := raises (item c.payload key)

/-! ### Plan patches -/

/-- The facts of one proposal: the assignment, its lease, and that it runs. -/
def proposalDrafts (patch : PlanPatch) (acceptedAt : DateTime) (p : AssignmentProposal) : List Draft :=
  [{ suffix := "assignment-" ++ p.assignmentId ++ "-created", type := "assignment.created",
     body := p.dump.set "contract_id" (.str patch.contractId) },
   { suffix := "assignment-" ++ p.assignmentId ++ "-lease-acquired",
     type := "assignment.lease.acquired",
     body := [("lease_id", .str ("lease:" ++ p.assignmentId)),
       ("assignment_id", .str p.assignmentId), ("stage_id", .str p.stageId),
       ("agent_id", .str p.agentId), ("attempt", .int p.attempt),
       ("lease_seconds", .int p.leaseSeconds), ("acquired_at", .time acceptedAt),
       ("expires_at", .time (acceptedAt.addSeconds p.leaseSeconds))] },
   { suffix := "assignment-" ++ p.assignmentId ++ "-running", type := "assignment.running",
     body := [("assignment_id", .str p.assignmentId), ("stage_id", .str p.stageId),
       ("agent_id", .str p.agentId)] }]

/-- `PLAN_PATCH`. -/
def planDrafts (c : CommandCandidate) (patch : PlanPatch) (acceptedAt : DateTime) : List Draft :=
  { suffix := "plan-patched", type := "orchestration.plan.patched",
    body := [("revision", .int patch.revision), ("contract_id", .str patch.contractId),
      ("contract_version", .int patch.contractVersion),
      ("stages", .list (patch.stages.map StagePlanView.dump)), ("reason", .str patch.reason),
      ("completion_ready", .bool patch.completionReady),
      ("waiting_reason", Json.ofOption patch.waitingReason)],
    source := c.actorId } ::
  patch.assignments.flatMap (proposalDrafts patch acceptedAt) ++
  (if isSet patch.blockedReason then
    [{ suffix := "orchestration-blocked", type := "orchestration.blocked",
       body := [("revision", .int patch.revision), ("reason", Json.ofOption patch.blockedReason)] }]
  else [])

/-! ### Results -/

/-- `_release_lease`. -/
def releaseDrafts (c : CommandCandidate) : ReadM (List Draft) := do
  let assignmentId := (← payloadItem c "assignment_id").pyStr
  match ← projection "lease" assignmentId with
  | none => return []
  | some lease =>
      if hasStatus lease ["active"] then do
        let leaseId ← raises (item lease "lease_id")
        let agentId ← raises (item lease "agent_id")
        return [{ suffix := "assignment-" ++ assignmentId ++ "-lease-released",
                  type := "assignment.lease.released",
                  body := [("lease_id", leaseId), ("assignment_id", .str assignmentId),
                    ("stage_id", lease.getD "stage_id" .null), ("agent_id", agentId),
                    ("reason", .str "assignment_succeeded")] }]
      else return []

/-- `self._candidate_assignment(candidate) or {}`, of which only the stage is used. -/
def candidateStage (c : CommandCandidate) : ReadM Json :=
  match truthyText (c.payload.get? "assignment_id") with
  | none => pure .null
  | some assignmentId => do
      let assignment ← projection "assignment" assignmentId
      return (assignment.getD []).getD "stage_id" .null

/-- The facts of a result: its record, that the assignment has succeeded, the end of the lease, and
the message to the coordinator, which is `result`. -/
def resultDrafts (c : CommandCandidate) (name : String) (result : Json → ReadM Dict) :
    ReadM (List Draft) := do
  let stageId ← candidateStage c
  let assignmentId ← payloadItem c "assignment_id"
  let released ← releaseDrafts c
  let body ← result stageId
  return [{ suffix := name ++ "-recorded", type := name ++ ".recorded",
            body := c.payload.update [("agent_id", .str c.actorId), ("stage_id", stageId)],
            source := c.actorId },
          { suffix := name ++ "-assignment-succeeded", type := "assignment.succeeded",
            body := [("assignment_id", assignmentId), ("stage_id", stageId)] }] ++
    released ++
    [{ suffix := name ++ "-result", type := "agent.result.submitted", body := body,
       source := c.actorId }]

/-- The message of a result: `key` is the field that sums it up. -/
def resultBody (c : CommandCandidate) (name key : String) (stageId : Json) : ReadM Dict := do
  let assignmentId ← payloadItem c "assignment_id"
  let text ← payloadItem c key
  let refs ← payloadItem c "evidence_refs"
  return [("assignment_id", assignmentId), ("stage_id", stageId), ("sender", .str c.actorId),
    ("receiver", .str "coordinator"), ("result_kind", .str name), (key, text),
    ("evidence_refs", refs)]

/-- `EVIDENCE`. -/
def evidenceDrafts (c : CommandCandidate) : ReadM (List Draft) :=
  resultDrafts c "evidence" (resultBody c "evidence" "summary")

/-- `ARTIFACT`. -/
def artifactDrafts (c : CommandCandidate) : ReadM (List Draft) :=
  resultDrafts c "artifact" (resultBody c "artifact" "summary")

/-- `REVIEW`. -/
def reviewDrafts (c : CommandCandidate) : ReadM (List Draft) :=
  resultDrafts c "review" (resultBody c "review" "decision")

/-! ### Peers -/

/-- `PEER_REQUEST`. -/
def peerRequestDrafts (c : CommandCandidate) : ReadM (List Draft) := do
  let assignmentId ← payloadItem c "assignment_id"
  let receiver ← payloadItem c "receiver"
  let correlationId := c.payload.getD "correlation_id" (.str c.candidateId)
  return [
    { suffix := "peer-policy-allowed", type := "a2a.policy.allowed",
      body := [("assignment_id", assignmentId), ("sender", .str c.actorId), ("receiver", receiver),
        ("depth", c.payload.getD "depth" (.int 1)),
        ("remaining_budget", .int (peerRequestLimit - 1 : ℕ))] },
    { suffix := "peer-requested", type := "a2a.peer.requested",
      body := c.payload.update [("sender", .str c.actorId), ("correlation_id", correlationId)],
      source := c.actorId },
    { suffix := "peer-assignment-waiting", type := "assignment.waiting",
      body := [("assignment_id", assignmentId), ("correlation_id", correlationId)] }]

/-- `PEER_RESPONSE`. -/
def peerResponseDrafts (c : CommandCandidate) : List Draft :=
  [{ suffix := "peer-responded", type := "a2a.peer.responded",
     body := c.payload.update [("sender", .str c.actorId),
       ("correlation_id", c.payload.getD "correlation_id" .null)],
     source := c.actorId }]

/-! ### Completion -/

/-- `_persisted_team_contract`, where it raises. -/
def readTeamContract (runId : String) : ReadM (Option TeamContract) :=
  Program.bind (persistedTeamContract runId) (fun
    | .ok contract => .done (.ok contract)
    | .error (.raised e) => .done (.error e)
    | .error (.rejected reason) => .done (.error (.valueError reason)))

/-- `_completion_requirements`. -/
def completionRequirements (contract : Option TeamContract) : Finset String :=
  match contract with
  | some k => k.completionEventTypes
  | none => {"evidence.recorded", "artifact.recorded", "review.recorded"}

/-- `COMPLETE`. -/
def completeDrafts (c : CommandCandidate) : ReadM (List Draft) := do
  let events ← readRun c.runId
  let contract ← readTeamContract c.runId
  let required := completionRequirements contract
  let missing := (required \ (events.map Event.type).toFinset).sort (· ≤ ·)
  let requested : Draft :=
    { suffix := "completion-requested", type := "completion.requested", body := c.payload,
      source := c.actorId }
  if missing = [] then
    return [requested,
      { suffix := "completion-gate-passed", type := "completion.gate.passed",
        body := [("required_evidence_types", Json.ofTextSet required),
          ("decision", c.payload.getD "decision" (.str "approved"))] },
      { suffix := "run-succeeded", type := "run.succeeded",
        body := [("reason", .str "completion gate passed")] }]
  else
    return [requested,
      { suffix := "completion-gate-failed", type := "completion.gate.failed",
        body := [("missing_evidence_types", Json.ofTexts missing)] },
      { suffix := "completion-nudge", type := "agent.nudged",
        body := [("agent_id", .str "coordinator"), ("kind", .str "evidence"),
          ("message", .str ("Completion blocked; collect: " ++ ", ".intercalate missing))] }]

/-! ### Memory and evolution -/

/-- `len(value)`. -/
def pyLen : Json → Except StoreError ℕ
  | .list xs => .ok xs.length
  | .str s => .ok s.length
  | .time d => .ok d.isoformat.length
  | .dict items => .ok items.length
  | _ => .error .typeError

/-- `float(value)`. -/
def floatOf (v : Json) : Except StoreError ℚ :=
  match v.laxFloat with
  | some f => .ok f.toRat
  | none => .error (.valueError "could not convert to float")

/-- The zone of a memory and what happens to it. -/
def admission (risk : String) (evidenceCount : ℕ) (confidence : ℚ) : String × String :=
  if risk = "low" ∧ 2 ≤ evidenceCount ∧ 4 / 5 ≤ confidence then ("green", "auto_activate")
  else if risk = "high" ∨ evidenceCount = 0 then ("red", "reject")
  else ("yellow", "human_review")

/-- The suffix and type of the last fact of a memory. -/
def admissionFact (zone : String) : String × String :=
  if zone = "green" then ("memory-activated", "memory.activated")
  else if zone = "yellow" then ("memory-review", "memory.review.requested")
  else ("memory-rejected", "memory.rejected")

/-- `MEMORY`. -/
def memoryDrafts (c : CommandCandidate) : ReadM (List Draft) := do
  let evidenceCount ← raises (pyLen (← payloadItem c "evidence_refs"))
  let confidence ← raises (floatOf (c.payload.getD "confidence" (.float 0 "0.0")))
  let candidateId ← payloadItem c "candidate_id"
  let (zone, outcome) := admission (c.payload.getD "risk" (.str "medium")).pyStr evidenceCount confidence
  return [
    { suffix := "memory-proposed", type := "memory.candidate.proposed", body := c.payload,
      source := c.actorId },
    { suffix := "memory-admission", type := "memory.admission.decided",
      body := [("candidate_id", candidateId), ("zone", .str zone), ("outcome", .str outcome),
        ("reason", .str "deterministic evidence/risk policy")] },
    { suffix := (admissionFact zone).1, type := (admissionFact zone).2,
      body := [("candidate_id", candidateId), ("admission_zone", .str zone)] }]

/-- `EVOLUTION`. -/
def evolutionDrafts (c : CommandCandidate) : ReadM (List Draft) := do
  let candidateId ← payloadItem c "candidate_id"
  return [
    { suffix := "evolution-proposed", type := "evolution.candidate.proposed",
      body := c.payload.update [("status", .str "candidate")], source := c.actorId },
    { suffix := "evolution-offline-passed", type := "evolution.offline.passed",
      body := [("candidate_id", candidateId),
        ("metrics", c.payload.getD "offline_metrics" (.dict [])), ("next_gate", .str "shadow"),
        ("note", .str "trace replay passed; no Git promotion performed")] }]

/-! ### `_materialize` -/

/-- What `_materialize` emits, by the kind of the command. -/
def drafts (c : CommandCandidate) (acceptedAt : DateTime) : ReadM (List Draft) :=
  match c.kind with
  | .planPatch =>
      match PlanPatch.ofJson (.dict c.payload) with
      | some patch => pure (planDrafts c patch acceptedAt)
      | none => throw (.valueError "validation error for PlanPatch")
  | .evidence => evidenceDrafts c
  | .peerRequest => peerRequestDrafts c
  | .peerResponse => pure (peerResponseDrafts c)
  | .artifact => artifactDrafts c
  | .review => reviewDrafts c
  | .complete => completeDrafts c
  | .memory => memoryDrafts c
  | .evolution => evolutionDrafts c

/-- `_materialize`. -/
def materialize (c : CommandCandidate) (accepted : Event) : ReadM (List Event) := do
  let ds ← drafts c accepted.createdAt
  stamp c accepted.id ds

end CrazyHarness
