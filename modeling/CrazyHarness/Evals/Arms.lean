import CrazyHarness.Agents.Contracts
import CrazyHarness.Runtime.Cancellation
import CrazyHarness.Evals.Campaigns

/-! # The arms of an evaluation

What the resident runtime (`control_plane/runtime.py`) adds to the two services: the runs it prepares
for the arms of a pair, and how it calls the services.  A run is prepared before its pair is
committed, and released after. -/

namespace CrazyHarness

open Lib RuntimeM

/-! ### Steps outside of the store -/

/-- `PreparedRepoWorkspace`. -/
structure PreparedRepoWorkspace where
  workspace : String
  baseline : String

/-- The steps of the resident process and those of an evaluation: the key of the provider is looked
up, the files of a run are prepared and compared with the fixture, a claim is found to be lost, and
a fault is injected. -/
inductive EvalOp where
  | resident (op : ResidentOp)
  | apiKey
  | prepareWorkspace (runId : String)
  | checkWorkspace (prepared : PreparedRepoWorkspace)
  | ensureCurrent
  | stopHeartbeat
  | injectFault (point : String)

/-- What each replies. -/
def evalInterface : Interface where
  Op := EvalOp
  Reply
    | .resident op => residentInterface.Reply op
    | .apiKey => Bool
    | .prepareWorkspace _ => Except RuntimeError PreparedRepoWorkspace
    | .checkWorkspace _ => Except RuntimeError Unit
    | .ensureCurrent => Except RuntimeError Unit
    | .stopHeartbeat => Except RuntimeError Unit
    | .injectFault _ => Except RuntimeError Unit

/-- Code of the runtime with its evaluations. -/
abbrev EvalM := RuntimeM evalInterface

/-- A step of the resident process. -/
def residentOp : (op : (withStore residentInterface).Op) → Unit →
    Program (withStore evalInterface) ((withStore residentInterface).Reply op × Unit)
  | .inl op, _ => (call op).bind (fun r => .done (r, ()))
  | .inr op, _ => (@outside evalInterface (.resident op)).bind (fun r => .done (r, ()))

/-- Code of the resident process. -/
def resident {α : Type} (p : Resident α) : EvalM α :=
  (Program.interpret residentOp p ()).bind (fun r => .done r.1)

/-- A step that may raise. -/
def evalStep (op : EvalOp) (h : evalInterface.Reply op = Except RuntimeError Unit) : EvalM Unit :=
  (@outside evalInterface op).bind (fun r => .done (h ▸ r))

/-! ### Prepared runs -/

/-- What the runtime knows of its task pack for evaluations, and the number of its process. -/
structure EvalRuntime where
  codec : EvalCodec
  process : ℕ
  polls : ℕ
  fixtureHash : String
  teamContract : Dict
  assignmentContract : AssignmentContract
  modelProfile : PairedEvalRequest → Dict
  supervisorPolicy : String

namespace EvalRuntime

variable (R : EvalRuntime)

/-- `scorer_version` of the task pack. -/
def scorerVersion : String := "repo-maintainer-v2"

/-- `agent_id` of the task pack. -/
def soloAgent : String := "generalist"

/-- `case_metadata`, with the hash of the input. -/
def caseMetadata (request : PairedEvalRequest) : Dict :=
  [("case_id", .str "clamp-bounds-v1"), ("fixture_hash", .str R.fixtureHash),
    ("scorer_version", .str scorerVersion),
    ("input_hash", .str (pairedInputHash R.codec request R.fixtureHash))]

/-- The part of `run.created` that both modes have in common. -/
def runPayload (request : PairedEvalRequest) (single : Bool) : Dict :=
  [("title", .str request.title.1), ("brief", .str request.brief.1),
    ("model_mode", .str request.modelMode.value), ("execution_mode", .str (modeOf single)),
    ("task_pack", .str repoMaintainer),
    ("model_budget", .dict (R.codec.dumpBudget request.modelBudget)),
    ("model_profile", .dict (R.modelProfile request)), ("behavior_version", .str "v0.9.0-dev")]

/-- The paths of the files of a run. -/
def pathsOf (prepared : PreparedRepoWorkspace) : Dict :=
  [("workspace_path", .str prepared.workspace), ("baseline_path", .str prepared.baseline)]

/-- The event `run.created` of an arm. -/
def runCreatedEvent (request : PairedEvalRequest) (single : Bool) (identity : EvalRunIdentity)
    (prepared : PreparedRepoWorkspace) (createdAt : DateTime) : Event where
  id := uuid5 ("crazy:run:" ++ identity.runId ++ ":created")
  runId := identity.runId
  taskId := identity.taskId
  type := "run.created"
  source := "gateway.http"
  payload := R.runPayload request single ++
    (if single then []
    else [("team_contract", .dict R.teamContract), ("supervisor_policy", .str R.supervisorPolicy)]) ++
    pathsOf prepared ++ R.caseMetadata request
  createdAt := createdAt

/-- The assignment of a single agent, held until its pair is committed. -/
def heldAssignment (identity : EvalRunIdentity) (prepared : PreparedRepoWorkspace) (created : Event)
    (createdAt : DateTime) : Event where
  id := uuid5 ("crazy:run:" ++ identity.runId ++ ":single-assignment")
  runId := identity.runId
  taskId := identity.taskId
  type := "assignment.created"
  source := "runtime.single"
  payload := [("assignment_id", .str identity.taskId), ("agent_id", .str soloAgent),
    ("goal", .str R.assignmentContract.goal),
    ("exit_criteria", Json.ofTexts R.assignmentContract.exitCriteria),
    ("contract_version", .int R.assignmentContract.version),
    ("contract", R.assignmentContract.dump), ("receiver", .str soloAgent),
    ("workspace_path", .str prepared.workspace), ("release_policy", .str "paired_eval_commit")]
  causationId := some created.id
  createdAt := createdAt

/-- The ingress of a team. -/
def ingressEvent (request : PairedEvalRequest) (identity : EvalRunIdentity) (created : Event)
    (createdAt : DateTime) : Event where
  id := uuid5 ("crazy:run:" ++ identity.runId ++ ":ingress")
  runId := identity.runId
  taskId := identity.taskId
  type := "event.external.received"
  source := "gateway.http"
  payload := [("title", .str request.title.1), ("brief", .str request.brief.1),
    ("receiver", .str "coordinator")]
  causationId := some created.id
  createdAt := createdAt

/-- The key that a physical run needs. -/
def requireKey (request : PairedEvalRequest) : EvalM Unit :=
  if request.modelMode = .deepseek then
    (@outside evalInterface .apiKey).bind (fun (known : Bool) =>
      if known then .done (.ok ())
      else .done (.error (.valueError "DEEPSEEK_API_KEY is required for deepseek mode")))
  else pure ()

/-- The files of a run, compared with the fixture. -/
def prepareFiles (runId : String) : EvalM PreparedRepoWorkspace := do
  let prepared ← (@outside evalInterface (.prepareWorkspace runId) :
    Program (withStore evalInterface) (Except RuntimeError PreparedRepoWorkspace))
  evalStep (.checkWorkspace prepared) rfl
  return prepared

/-- `_prepare_single_task` and `_prepare_team_task` of an arm. -/
def prepareArm (request : PairedEvalRequest) (single : Bool) (identity : EvalRunIdentity) :
    EvalM EvalRunIdentity := do
  requireKey request
  let prepared ← prepareFiles identity.runId
  let created ← append none (R.runCreatedEvent request single identity prepared)
  let _ ← append none (if single then R.heldAssignment identity prepared created
    else ingressEvent request identity created)
  return identity

/-! ### The services in the runtime -/

/-- The service for pairs. -/
def pairs : PairedEvalService evalInterface where
  codec := R.codec
  scorerVersion := scorerVersion
  polls := R.polls
  ensureCurrent := evalStep .ensureCurrent rfl
  stopHeartbeat := evalStep .stopHeartbeat rfl
  injectFault point := evalStep (.injectFault point) rfl

/-- What the runtime does with the arms of a pair of this request. -/
def pairCallbacks (request : PairedEvalRequest) : PairCallbacks evalInterface where
  prepareArm := R.prepareArm request
  releaseArm single identity := resident (releasePreparedTask single identity.runId)
  cancelArm := some (fun runId => do
    let _ ← resident (cancelRun R.process runId "paired_eval_creation_failed")
    return ())

/-- `request.model_copy(update={"release_policy": "manual"})`, for arms that are not to be released. -/
def heldRequest (request : PairedEvalRequest) (releaseArms : Option Bool) : PairedEvalRequest :=
  if h : releaseArms = some false ∧ request.releasePolicy = .immediate then
    { request with
      releasePolicy := .manual
      parent_matches := by
        have hparent := request.parent_matches
        rw [h.2] at hparent
        exact hparent }
  else request

/-- `create_paired_eval`. -/
def createPairedEval (request : PairedEvalRequest) (recovering : Bool) (releaseArms : Option Bool) :
    EvalM PairedEvalCreated :=
  R.pairs.create (R.pairCallbacks (heldRequest request releaseArms)) (heldRequest request releaseArms)
    (!recovering) releaseArms

/-- `recover_pending`, as the runtime calls it when it starts. -/
def recoverPairs : EvalM Unit :=
  R.pairs.recoverPending (fun request => do
    let _ ← R.createPairedEval request true none
    return ())

/-- `_create_campaign_pair`. -/
def createCampaignPair (request : PairedEvalRequest) : EvalM PairedEvalCreated := do
  let log ← readAll (some (pairedEvalId request.requestId))
  R.createPairedEval request (log.any (fun e => e.type = "eval.pair.requested")) (some false)

/-- `release_paired_eval`; a release prepares nothing. -/
def releasePairedEval (evalId : String) : EvalM PairedEvalCreated :=
  R.pairs.release
    { prepareArm := fun _ identity => pure identity
      releaseArm := fun single identity => resident (releasePreparedTask single identity.runId)
      cancelArm := none } evalId

/-- What the runtime does with the pairs of a campaign. -/
def campaignCallbacks : CampaignCallbacks evalInterface where
  createPair := R.createCampaignPair
  pairContract := PairedEvalService.contract
  releasePair evalId := do
    let _ ← R.releasePairedEval evalId
    return ()
  pairReport := PairedEvalService.report

end EvalRuntime

/-- `advance_one`, as the runtime calls it. -/
def EvalRuntime.advanceCampaign (R : EvalRuntime) (S : EvalCampaignService) (campaignId : String) :
    EvalM Bool :=
  S.advanceOne R.campaignCallbacks campaignId

/-- A campaign whose contract has been persisted may be asked for again without a key. -/
def requireContract (S : EvalCampaignService) (campaignId : String) : EvalM Unit :=
  handle (do
    let _ ← S.contract campaignId
    return ())
    (fun
      | .keyError _ => throw (.valueError "DEEPSEEK_API_KEY is required for deepseek mode")
      | e => throw e)

/-- `create_eval_campaign`. -/
def createEvalCampaign (S : EvalCampaignService) (request : EvalCampaignRequest) :
    EvalM EvalCampaignCreated :=
  if request.modelMode = .deepseek then
    (@outside evalInterface .apiKey).bind (fun (known : Bool) =>
      (if known then S.create request
      else do
        requireContract S (campaignIdOf request.requestId.1)
        S.create request : EvalM EvalCampaignCreated))
  else S.create request

end CrazyHarness
