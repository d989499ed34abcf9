import CrazyHarness.Lib.Decode
import CrazyHarness.Runtime.Checkpoint
import CrazyHarness.Runtime.Mailbox
import CrazyHarness.Store.Replay

/-! # The checkpoint service

`CheckpointService` (`control_plane/checkpoints.py`) and its contracts
(`core/checkpoints/models.py`).  A contract says what a run had come to when it was captured: its
log up to an event, its workspace, its artifacts and the effects of its operations.  It is kept in
the event `checkpoint.requested`, and `checkpoint.committed` seals it.

* `CheckpointContract.validate_dump`: a contract that was stored is read back as it was. -/

namespace CrazyHarness

open Lib Program RuntimeM

/-! ### Contracts -/

/-- A hash only ever meets equality tests; it is represented by what it is the hash of. -/
abbrev Sha256 := Json

/-- `sha256(json.dumps(value, sort_keys=True))`. -/
def sha256 (value : Json) : Sha256 := value.canonical

/-- `Field(min_length=1)`. -/
abbrev NonEmptyString := SizedString 1 none

/-- `WorkspaceFileEntry`. -/
structure WorkspaceFileEntry where
  path : NonEmptyString
  size : ℕ
  sha256 : Sha256
deriving DecidableEq

/-- `WorkspaceSnapshot`. -/
structure WorkspaceSnapshot where
  objectId : Sha256
  archiveSha256 : Sha256
  manifestSha256 : Sha256
  fileCount : ℕ
  totalBytes : ℕ
  files : List WorkspaceFileEntry := []
deriving DecidableEq

/-- `VerifiedArtifactRef`. -/
structure VerifiedArtifactRef where
  artifactId : NonEmptyString
  kind : NonEmptyString
  summary : String := ""
  sourceEventId : NonEmptyString
  size : ℕ
  sha256 : Sha256
deriving DecidableEq

/-- `CheckpointStateRefs`. -/
structure CheckpointStateRefs where
  runCreatedEventId : NonEmptyString
  assignmentEventId : Option String := none
  localPlanEventId : Option String := none
  contextManifestEventId : Option String := none
  artifacts : List VerifiedArtifactRef := []
deriving DecidableEq

/-- How an operation has ended. -/
inductive TerminalState where
  | completed
  | failed
  | unknown
deriving DecidableEq

/-- The text of a terminal state. -/
def TerminalState.value : TerminalState → String
  | .completed => "completed"
  | .failed => "failed"
  | .unknown => "unknown"

/-- What a restore makes of an effect. -/
inductive Disposition where
  | readOnly
  | workspaceRestored
  | noEffect
  | requiresReconciliation
  | irreversible
  | unknown
deriving DecidableEq

/-- The text of a disposition. -/
def Disposition.value : Disposition → String
  | .readOnly => "read_only"
  | .workspaceRestored => "workspace_restored"
  | .noEffect => "no_effect"
  | .requiresReconciliation => "requires_reconciliation"
  | .irreversible => "irreversible"
  | .unknown => "unknown"

/-- `CheckpointEffect`. -/
structure CheckpointEffect where
  operationId : NonEmptyString
  toolName : NonEmptyString
  terminalState : TerminalState
  sideEffectLevel : NonEmptyString
  disposition : Disposition
  idempotencyKey : Option String := none
deriving DecidableEq

/-- `CheckpointEffectBoundary`. -/
structure CheckpointEffectBoundary where
  effects : List CheckpointEffect := []
  restoreBlockers : List String := []
deriving DecidableEq

/-- `CheckpointSourceBoundary`. -/
structure CheckpointSourceBoundary where
  runId : NonEmptyString
  taskId : NonEmptyString
  eventId : NonEmptyString
  eventCursor : ℕ+
  eventCount : ℕ+
  eventPrefixSha256 : Sha256
  turnId : Option String := none
  phase : NonEmptyString
deriving DecidableEq

/-- `CheckpointContract`; the fields with one literal value are not kept. -/
structure CheckpointContract where
  checkpointId : String
  requestId : SizedString 1 (some 128)
  requestFingerprint : Sha256
  label : SizedString 0 (some 200)
  createdAt : DateTime
  taskPack : NonEmptyString
  baselineIdentity : NonEmptyString
  source : CheckpointSourceBoundary
  workspace : WorkspaceSnapshot
  stateRefs : CheckpointStateRefs
  effects : CheckpointEffectBoundary
deriving DecidableEq

/-! ### Storing them -/

namespace WorkspaceFileEntry

/-- `model_dump(mode="json")`. -/
def dump (f : WorkspaceFileEntry) : Json :=
  .dict [("path", .str f.path.1), ("size", .int f.size), ("sha256", f.sha256)]

/-- `model_validate(value)`. -/
def validate (v : Json) : Option WorkspaceFileEntry := do
  let d ← v.asDict
  let path ← d.field "path" (SizedString.validate 1 none)
  let size ← d.field "size" Json.natural
  let sha256 ← d.field "sha256" some
  return { path, size, sha256 }

@[simp] theorem validate_dump (f : WorkspaceFileEntry) : validate f.dump = some f := by
  simp [validate, dump, Dict.field, Dict.get?_cons]

end WorkspaceFileEntry

namespace WorkspaceSnapshot

/-- `model_dump(mode="json")`. -/
def dump (s : WorkspaceSnapshot) : Json :=
  .dict [("schema_version", .str "workspace-snapshot-v1"), ("object_id", s.objectId),
    ("archive_sha256", s.archiveSha256), ("manifest_sha256", s.manifestSha256),
    ("file_count", .int s.fileCount), ("total_bytes", .int s.totalBytes),
    ("files", .list (s.files.map WorkspaceFileEntry.dump))]

/-- `model_validate(value)`. -/
def validate (v : Json) : Option WorkspaceSnapshot := do
  let d ← v.asDict
  let objectId ← d.field "object_id" some
  let archiveSha256 ← d.field "archive_sha256" some
  let manifestSha256 ← d.field "manifest_sha256" some
  let fileCount ← d.field "file_count" Json.natural
  let totalBytes ← d.field "total_bytes" Json.natural
  let files ← d.fieldD "files" (Json.listOf WorkspaceFileEntry.validate) []
  return { objectId, archiveSha256, manifestSha256, fileCount, totalBytes, files }

@[simp] theorem validate_dump (s : WorkspaceSnapshot) : validate s.dump = some s := by
  simp [validate, dump, Dict.field, Dict.fieldD, Dict.get?_cons,
    Json.listOf_map WorkspaceFileEntry.validate_dump]

end WorkspaceSnapshot

namespace VerifiedArtifactRef

/-- `model_dump(mode="json")`. -/
def dump (a : VerifiedArtifactRef) : Json :=
  .dict [("artifact_id", .str a.artifactId.1), ("kind", .str a.kind.1), ("summary", .str a.summary),
    ("source_event_id", .str a.sourceEventId.1), ("size", .int a.size), ("sha256", a.sha256)]

/-- `model_validate(value)`. -/
def validate (v : Json) : Option VerifiedArtifactRef := do
  let d ← v.asDict
  let artifactId ← d.field "artifact_id" (SizedString.validate 1 none)
  let kind ← d.field "kind" (SizedString.validate 1 none)
  let summary ← d.fieldD "summary" Json.asStr ""
  let sourceEventId ← d.field "source_event_id" (SizedString.validate 1 none)
  let size ← d.field "size" Json.natural
  let sha256 ← d.field "sha256" some
  return { artifactId, kind, summary, sourceEventId, size, sha256 }

@[simp] theorem validate_dump (a : VerifiedArtifactRef) : validate a.dump = some a := by
  simp [validate, dump, Dict.field, Dict.fieldD, Dict.get?_cons]

end VerifiedArtifactRef

namespace CheckpointStateRefs

/-- `model_dump(mode="json")`. -/
def dump (r : CheckpointStateRefs) : Json :=
  .dict [("run_created_event_id", .str r.runCreatedEventId.1),
    ("assignment_event_id", .ofOption r.assignmentEventId),
    ("local_plan_event_id", .ofOption r.localPlanEventId),
    ("context_manifest_event_id", .ofOption r.contextManifestEventId),
    ("artifacts", .list (r.artifacts.map VerifiedArtifactRef.dump))]

/-- `model_validate(value)`. -/
def validate (v : Json) : Option CheckpointStateRefs := do
  let d ← v.asDict
  let runCreatedEventId ← d.field "run_created_event_id" (SizedString.validate 1 none)
  let assignmentEventId ← d.fieldD "assignment_event_id" (Json.nullable Json.asStr) none
  let localPlanEventId ← d.fieldD "local_plan_event_id" (Json.nullable Json.asStr) none
  let contextManifestEventId ← d.fieldD "context_manifest_event_id" (Json.nullable Json.asStr) none
  let artifacts ← d.fieldD "artifacts" (Json.listOf VerifiedArtifactRef.validate) []
  return { runCreatedEventId, assignmentEventId, localPlanEventId, contextManifestEventId, artifacts }

@[simp] theorem validate_dump (r : CheckpointStateRefs) : validate r.dump = some r := by
  simp [validate, dump, Dict.field, Dict.fieldD, Dict.get?_cons,
    Json.listOf_map VerifiedArtifactRef.validate_dump]

end CheckpointStateRefs

/-- A terminal state that is spelled. -/
def TerminalState.validate (v : Json) : Option TerminalState :=
  [.completed, .failed, .unknown].find? (fun s => v = .str s.value)

@[simp] theorem TerminalState.validate_str (s : TerminalState) : validate (.str s.value) = some s := by
  cases s <;> decide

/-- A disposition that is spelled. -/
def Disposition.validate (v : Json) : Option Disposition :=
  [.readOnly, .workspaceRestored, .noEffect, .requiresReconciliation, .irreversible, .unknown].find?
    (fun d => v = .str d.value)

@[simp] theorem Disposition.validate_str (d : Disposition) : validate (.str d.value) = some d := by
  cases d <;> decide

namespace CheckpointEffect

/-- `model_dump(mode="json")`. -/
def dump (e : CheckpointEffect) : Json :=
  .dict [("operation_id", .str e.operationId.1), ("tool_name", .str e.toolName.1),
    ("terminal_state", .str e.terminalState.value), ("side_effect_level", .str e.sideEffectLevel.1),
    ("disposition", .str e.disposition.value), ("idempotency_key", .ofOption e.idempotencyKey)]

/-- `model_validate(value)`. -/
def validate (v : Json) : Option CheckpointEffect := do
  let d ← v.asDict
  let operationId ← d.field "operation_id" (SizedString.validate 1 none)
  let toolName ← d.field "tool_name" (SizedString.validate 1 none)
  let terminalState ← d.field "terminal_state" TerminalState.validate
  let sideEffectLevel ← d.field "side_effect_level" (SizedString.validate 1 none)
  let disposition ← d.field "disposition" Disposition.validate
  let idempotencyKey ← d.fieldD "idempotency_key" (Json.nullable Json.asStr) none
  return { operationId, toolName, terminalState, sideEffectLevel, disposition, idempotencyKey }

@[simp] theorem validate_dump (e : CheckpointEffect) : validate e.dump = some e := by
  simp [validate, dump, Dict.field, Dict.fieldD, Dict.get?_cons]

end CheckpointEffect

namespace CheckpointEffectBoundary

/-- `model_dump(mode="json")`. -/
def dump (b : CheckpointEffectBoundary) : Json :=
  .dict [("effects", .list (b.effects.map CheckpointEffect.dump)),
    ("restore_blockers", .list (b.restoreBlockers.map .str))]

/-- `model_validate(value)`. -/
def validate (v : Json) : Option CheckpointEffectBoundary := do
  let d ← v.asDict
  let effects ← d.fieldD "effects" (Json.listOf CheckpointEffect.validate) []
  let restoreBlockers ← d.fieldD "restore_blockers" (Json.listOf Json.asStr) []
  return { effects, restoreBlockers }

@[simp] theorem validate_dump (b : CheckpointEffectBoundary) : validate b.dump = some b := by
  simp [validate, dump, Dict.fieldD, Dict.get?_cons, Json.listOf_map CheckpointEffect.validate_dump,
    Json.listOf_map Json.asStr_str]

end CheckpointEffectBoundary

namespace CheckpointSourceBoundary

/-- `model_dump(mode="json")`. -/
def dump (b : CheckpointSourceBoundary) : Json :=
  .dict [("run_id", .str b.runId.1), ("task_id", .str b.taskId.1), ("event_id", .str b.eventId.1),
    ("event_cursor", .int (b.eventCursor : ℕ)), ("event_count", .int (b.eventCount : ℕ)),
    ("event_prefix_sha256", b.eventPrefixSha256), ("turn_id", .ofOption b.turnId),
    ("phase", .str b.phase.1)]

/-- `model_validate(value)`. -/
def validate (v : Json) : Option CheckpointSourceBoundary := do
  let d ← v.asDict
  let runId ← d.field "run_id" (SizedString.validate 1 none)
  let taskId ← d.field "task_id" (SizedString.validate 1 none)
  let eventId ← d.field "event_id" (SizedString.validate 1 none)
  let eventCursor ← d.field "event_cursor" Json.positive
  let eventCount ← d.field "event_count" Json.positive
  let eventPrefixSha256 ← d.field "event_prefix_sha256" some
  let turnId ← d.fieldD "turn_id" (Json.nullable Json.asStr) none
  let phase ← d.field "phase" (SizedString.validate 1 none)
  return { runId, taskId, eventId, eventCursor, eventCount, eventPrefixSha256, turnId, phase }

@[simp] theorem validate_dump (b : CheckpointSourceBoundary) : validate b.dump = some b := by
  refine Dict.bind_field rfl (SizedString.validate_str _) ?_
  refine Dict.bind_field rfl (SizedString.validate_str _) ?_
  refine Dict.bind_field rfl (SizedString.validate_str _) ?_
  refine Dict.bind_field rfl (Json.positive_int _) ?_
  refine Dict.bind_field rfl (Json.positive_int _) ?_
  refine Dict.bind_field rfl rfl ?_
  refine Dict.bind_fieldD rfl (Json.nullable_ofOption _) ?_
  exact Dict.bind_field rfl (SizedString.validate_str _) rfl

end CheckpointSourceBoundary

namespace CheckpointContract

/-- `contract.model_dump(mode="json")`. -/
def dump (c : CheckpointContract) : Json :=
  .dict [("schema_version", .str "composite-checkpoint-v1"), ("checkpoint_id", .str c.checkpointId),
    ("request_id", .str c.requestId.1), ("request_fingerprint", c.requestFingerprint),
    ("label", .str c.label.1), ("created_at", .time c.createdAt), ("task_pack", .str c.taskPack.1),
    ("baseline_identity", .str c.baselineIdentity.1), ("source", c.source.dump),
    ("workspace", c.workspace.dump), ("state_refs", c.stateRefs.dump), ("effects", c.effects.dump),
    ("restore_policy", .str "fork_only"), ("context_policy", .str "replan_from_verified_facts"),
    ("unknown_effect_policy", .str "block")]

/-- `label: str = ""`. -/
def noLabel : SizedString 0 (some 200) := ⟨"", by decide⟩

/-- `CheckpointContract.model_validate(value)`. -/
def validate (v : Json) : Option CheckpointContract := do
  let d ← v.asDict
  let checkpointId ← d.field "checkpoint_id" Json.asStr
  let requestId ← d.field "request_id" (SizedString.validate 1 (some 128))
  let requestFingerprint ← d.field "request_fingerprint" some
  let label ← d.fieldD "label" (SizedString.validate 0 (some 200)) noLabel
  let createdAt ← d.field "created_at" Json.asTime
  let taskPack ← d.field "task_pack" (SizedString.validate 1 none)
  let baselineIdentity ← d.field "baseline_identity" (SizedString.validate 1 none)
  let source ← d.field "source" CheckpointSourceBoundary.validate
  let workspace ← d.field "workspace" WorkspaceSnapshot.validate
  let stateRefs ← d.field "state_refs" CheckpointStateRefs.validate
  let effects ← d.field "effects" CheckpointEffectBoundary.validate
  return { checkpointId, requestId, requestFingerprint, label, createdAt, taskPack, baselineIdentity,
           source, workspace, stateRefs, effects }

/-- Reading a contract back. -/
@[simp] theorem validate_dump (c : CheckpointContract) : validate c.dump = some c := by
  -- the identifier is read by computation
  refine Dict.bind_field rfl (SizedString.validate_str _) ?_
  refine Dict.bind_field rfl rfl ?_
  refine Dict.bind_fieldD rfl (SizedString.validate_str _) ?_
  refine Dict.bind_field rfl (Json.asTime_time _) ?_
  refine Dict.bind_field rfl (SizedString.validate_str _) ?_
  refine Dict.bind_field rfl (SizedString.validate_str _) ?_
  refine Dict.bind_field rfl (CheckpointSourceBoundary.validate_dump _) ?_
  refine Dict.bind_field rfl (WorkspaceSnapshot.validate_dump _) ?_
  refine Dict.bind_field rfl (CheckpointStateRefs.validate_dump _) ?_
  exact Dict.bind_field rfl (CheckpointEffectBoundary.validate_dump _) rfl

end CheckpointContract

/-! ### What a contract is made of -/

/-- `EventRecord`: the cursor of an event and the event. -/
abbrev EventRecord := ℕ × Event

/-- `read_records(run_id=…)`. -/
def Database.readRecords (db : Database) (runId : String) : List EventRecord :=
  db.records.filter (fun r => r.2.runId = runId)

/-- `CheckpointCreateRequest`. -/
structure CheckpointCreateRequest where
  requestId : SizedString 1 (some 128)
  label : SizedString 0 (some 200) := CheckpointContract.noLabel
deriving DecidableEq

/-- What `create` has read of a run and its surroundings. -/
structure Materials where
  records : List EventRecord
  snapshot : WorkspaceSnapshot
  artifacts : List VerifiedArtifactRef
  createdAt : DateTime
deriving DecidableEq

/-- `_prefix_digest`. -/
def prefixDigest (records : List EventRecord) : Sha256 :=
  sha256 (.list (records.map (fun r => .dict [("cursor", .int r.1), ("event", r.2.dump)])))

/-- `_request_fingerprint`. -/
def requestFingerprint (runId : String) (request : CheckpointCreateRequest) : Sha256 :=
  sha256 (.dict [("run_id", .str runId), ("request_id", .str request.requestId.1),
    ("label", .str request.label.1)])

/-- `_contract_digest`. -/
def contractDigest (c : CheckpointContract) : Sha256 := sha256 c.dump

/-- `str(event.payload.get(key))`. -/
def textOf (key : String) (e : Event) : String := (e.payload.getD key .null).pyStr

/-- The values that events of some types have under a key. -/
def textsOf (events : List Event) (types : List String) (key : String) : Finset String :=
  ((events.filter (fun e => e.type ∈ types)).map (textOf key)).toFinset

/-- The types of the events that end an operation. -/
def terminalEvents : List String := ["operation.completed", "operation.failed", "operation.unknown"]

/-- `_assert_safe`. -/
def assertSafe (records : List EventRecord) : Except RuntimeError Unit := do
  if records.isEmpty then throw (.runtimeError "run has no durable events")
  let events := records.map Prod.snd
  let unresolved := textsOf events ["operation.started"] "operation_id" \
    textsOf events terminalEvents "operation_id"
  if unresolved.Nonempty then
    throw (.runtimeError ("unresolved operation prevents checkpoint: " ++
      ", ".intercalate (unresolved.sort (· ≤ ·))))
  let unresolvedTools := textsOf events ["tool.requested"] "operation_id" \
    textsOf events ["tool.completed", "tool.failed"] "operation_id"
  if unresolvedTools.Nonempty then
    throw (.runtimeError ("unresolved tool request prevents checkpoint: " ++
      ", ".intercalate (unresolvedTools.sort (· ≤ ·))))
  if (textsOf events ["model.requested"] "turn_id" \
      textsOf events ["model.completed"] "turn_id").Nonempty then
    throw (.runtimeError "unresolved model call prevents checkpoint")

/-- A text that a contract requires not to be empty. -/
def filled (s : String) : Except RuntimeError NonEmptyString :=
  (SizedString.ofString 1 none s).elim (.error (.valueError "String should have at least 1 character"))
    .ok

/-- A number that a contract requires to be positive. -/
def counted (n : ℕ) : Except RuntimeError ℕ+ :=
  if h : 0 < n then .ok ⟨n, h⟩
  else .error (.valueError "Input should be greater than or equal to 1")

/-- The event that has ended an operation: the last one of its identifier. -/
def operationEnd (events : List Event) (operationId : String) : Option Event :=
  (events.filter (fun e => e.type ∈ terminalEvents ∧ textOf "operation_id" e = operationId)).getLast?

/-- `terminal.type.removeprefix("operation.")`. -/
def terminalStateOf (e : Event) : TerminalState :=
  if e.type = "operation.completed" then .completed
  else if e.type = "operation.failed" then .failed
  else .unknown

/-- What a restore makes of an operation that has ended in a state. -/
def dispositionOf (state : TerminalState) (level : String) : Disposition :=
  if state = .failed then .noEffect
  else if state = .unknown then .unknown
  else if level ∈ ["none", "browser_read"] then .readOnly
  else if level ∈ ["workspace_write", "local_process"] then .workspaceRestored
  else if level = "irreversible" then .irreversible
  else if level ∈ ["idempotent_external", "compensatable"] then .requiresReconciliation
  else .unknown

/-- The effect of an operation that was started. -/
def effectOf (events : List Event) (e : Event) : Except RuntimeError CheckpointEffect := do
  let operationId := textOf "operation_id" e
  let some terminal := operationEnd events operationId | throw (.keyError operationId)
  let state := terminalStateOf terminal
  let level := (e.payload.getD "side_effect_level" (.str "unknown")).pyStr
  let key := e.payload.getD "idempotency_key" .null
  return {
    operationId := ← filled operationId
    toolName := ← filled (e.payload.getD "tool_name" (.str "unknown")).pyStr
    terminalState := state
    sideEffectLevel := ← filled level
    disposition := dispositionOf state level
    idempotencyKey := if key.truthy then some key.pyStr else none }

/-- The dispositions that block a restore. -/
def blockingDispositions : List Disposition := [.unknown, .irreversible, .requiresReconciliation]

/-- `_effect_boundary`. -/
def effectBoundary (events : List Event) : Except RuntimeError CheckpointEffectBoundary := do
  let effects ← (events.filter (fun e => e.type = "operation.started")).mapM (effectOf events)
  let blocking := effects.filter (fun effect => effect.disposition ∈ blockingDispositions)
  return {
    effects := effects
    restoreBlockers := blocking.map (fun effect =>
      "operation:" ++ effect.operationId.1 ++ ":" ++ effect.disposition.value) }

/-- `_baseline_identity`. -/
def baselineIdentity (runCreated : Event) : String :=
  let byPack := "task_pack:" ++ (runCreated.payload.getD "task_pack" (.str "unknown")).pyStr ++
    ":baseline_unspecified"
  match (runCreated.get? "fixture_hash").bind Json.asStr with
  | some hash => if hash.length = 64 then "fixture_sha256:" ++ hash else byPack
  | none => byPack

/-- `_latest`. -/
def latestOf (events : List Event) (types : List String) : Option Event :=
  events.reverse.find? (fun e => e.type ∈ types)

/-- `_PLAN_EVENTS`. -/
def planEvents : List String :=
  ["plan.created", "plan.revised", "step.started", "step.completed", "step.cancelled",
    "step.superseded"]

/-- The boundary of a log. -/
def sourceBoundary (records : List EventRecord) (last : EventRecord) :
    Except RuntimeError CheckpointSourceBoundary := do
  let events := records.map Prod.snd
  let turnEvent := events.reverse.find? (fun e => (e.payload.getD "turn_id" .null).truthy)
  let phaseEvent := events.reverse.find? (fun e =>
    (((e.get? "phase").bind Json.asStr).getD "") ≠ "")
  return {
    runId := ← filled last.2.runId
    taskId := ← filled last.2.taskId
    eventId := ← filled last.2.id
    eventCursor := ← counted last.1
    eventCount := ← counted records.length
    eventPrefixSha256 := prefixDigest records
    turnId := turnEvent.map (textOf "turn_id")
    phase := ← filled (phaseEvent.elim last.2.type (textOf "phase")) }

/-- `_build_contract`. -/
def buildContract (checkpointId : String) (request : CheckpointCreateRequest) (fingerprint : Sha256)
    (m : Materials) (runCreated : Event) : Except RuntimeError CheckpointContract := do
  let events := m.records.map Prod.snd
  let some last := m.records.getLast? | throw (.runtimeError "list index out of range")
  let source ← sourceBoundary m.records last
  let runCreatedEventId ← filled runCreated.id
  let effects ← effectBoundary events
  let taskPack ← filled (runCreated.payload.getD "task_pack" (.str "unknown")).pyStr
  let baseline ← filled (baselineIdentity runCreated)
  return {
    checkpointId := checkpointId
    requestId := request.requestId
    requestFingerprint := fingerprint
    label := request.label
    createdAt := m.createdAt
    taskPack := taskPack
    baselineIdentity := baseline
    source := source
    workspace := m.snapshot
    stateRefs := {
      runCreatedEventId := runCreatedEventId
      assignmentEventId := (latestOf events ["assignment.created"]).map Event.id
      localPlanEventId := (latestOf events planEvents).map Event.id
      contextManifestEventId := (latestOf events ["context.manifest.compiled"]).map Event.id
      artifacts := m.artifacts }
    effects := effects }

namespace CheckpointService

/-! ### The facts of a checkpoint -/

/-- The event `checkpoint.requested` of a contract. -/
def requestedEvent (c : CheckpointContract) (createdAt : DateTime) : Event where
  id := uuid5 ("crazy:" ++ c.checkpointId ++ ":requested")
  runId := c.source.runId.1
  taskId := c.source.taskId.1
  type := "checkpoint.requested"
  source := "checkpoint.service"
  payload := [("contract", c.dump)]
  causationId := some c.source.eventId.1
  createdAt := createdAt

/-- The event `checkpoint.committed` of a contract. -/
def committedEvent (c : CheckpointContract) (causationId : Option String) (createdAt : DateTime) :
    Event where
  id := uuid5 ("crazy:" ++ c.checkpointId ++ ":committed")
  runId := c.source.runId.1
  taskId := c.source.taskId.1
  type := "checkpoint.committed"
  source := "checkpoint.service"
  payload := [("checkpoint_id", .str c.checkpointId), ("contract_sha256", contractDigest c)]
  causationId := causationId
  createdAt := createdAt

/-- The event requests this checkpoint. -/
def Requests (checkpointId : String) (e : Event) : Prop :=
  e.type = "checkpoint.requested" ∧
    (((e.payload.getD "contract" (.dict [])).asDict).bind (·.get? "checkpoint_id")) =
      some (.str checkpointId)

/-- The event commits this checkpoint. -/
def Commits (checkpointId : String) (e : Event) : Prop :=
  e.type = "checkpoint.committed" ∧ e.get? "checkpoint_id" = some (.str checkpointId)

instance (checkpointId : String) : DecidablePred (Requests checkpointId) :=
  fun _ => inferInstanceAs (Decidable (_ ∧ _))

instance (checkpointId : String) : DecidablePred (Commits checkpointId) :=
  fun _ => inferInstanceAs (Decidable (_ ∧ _))

/-- `_requested_event`, in a log. -/
def requestedIn (log : List Event) (checkpointId : String) : Option Event :=
  (log.filter (Requests checkpointId)).getLast?

/-- `_committed_event`, in a log. -/
def committedIn (log : List Event) (checkpointId : String) : Option Event :=
  (log.filter (Commits checkpointId)).getLast?

/-- `CheckpointContract.model_validate(event.payload["contract"])`. -/
def contractIn (e : Event) : Except RuntimeError CheckpointContract :=
  match e.get? "contract" with
  | none => .error (.keyError "contract")
  | some v => (CheckpointContract.validate v).elim (.error (.valueError "validation error")) .ok

/-- The log still begins as the contract says. -/
def prefixHolds (records : List EventRecord) (c : CheckpointContract) : Bool :=
  let before := records.take c.source.eventCount
  match before.getLast? with
  | none => false
  | some last => before.length = c.source.eventCount ∧ last.1 = c.source.eventCursor ∧
      last.2.id = c.source.eventId.1 ∧ prefixDigest before = c.source.eventPrefixSha256

section facts

variable {checkpointId : String} {request : CheckpointCreateRequest} {fingerprint : Sha256}
  {m : Materials} {runCreated e : Event} {c : CheckpointContract} {t : DateTime}

theorem filled_eq_ok {s : String} {x : NonEmptyString} (h : filled s = .ok x) : x.1 = s := by
  unfold filled SizedString.ofString at h
  split at h
  · obtain rfl := Except.ok.inj h
    rfl
  · cases h

theorem counted_eq_ok {n : ℕ} {x : ℕ+} (h : counted n = .ok x) : (x : ℕ) = n := by
  unfold counted at h
  split at h
  · obtain rfl := Except.ok.inj h
    rfl
  · cases h

/-- A source boundary ends where its records end. -/
structure EndsAt (b : CheckpointSourceBoundary) (records : List EventRecord) (last : EventRecord) :
    Prop where
  runId : b.runId.1 = last.2.runId
  eventId : b.eventId.1 = last.2.id
  cursor : (b.eventCursor : ℕ) = last.1
  count : (b.eventCount : ℕ) = records.length
  digest : b.eventPrefixSha256 = prefixDigest records

theorem sourceBoundary_endsAt {records : List EventRecord} {last : EventRecord}
    {b : CheckpointSourceBoundary} (h : sourceBoundary records last = .ok b) :
    EndsAt b records last := by
  obtain ⟨runId, hrun, h⟩ := bind_ok_iff.mp h
  obtain ⟨taskId, -, h⟩ := bind_ok_iff.mp h
  obtain ⟨eventId, hevent, h⟩ := bind_ok_iff.mp h
  obtain ⟨cursor, hcursor, h⟩ := bind_ok_iff.mp h
  obtain ⟨count, hcount, h⟩ := bind_ok_iff.mp h
  obtain ⟨phase, -, h⟩ := bind_ok_iff.mp h
  obtain rfl := Except.ok.inj h
  exact ⟨filled_eq_ok hrun, filled_eq_ok hevent, counted_eq_ok hcursor, counted_eq_ok hcount, rfl⟩

/-- A contract is about its checkpoint, its request and the records it was made of. -/
theorem buildContract_spec
    (h : buildContract checkpointId request fingerprint m runCreated = .ok c) :
    c.checkpointId = checkpointId ∧ c.requestFingerprint = fingerprint ∧
      ∃ last, m.records.getLast? = some last ∧ EndsAt c.source m.records last := by
  unfold buildContract at h
  dsimp only at h
  split at h
  next last hlast =>
    obtain ⟨source, hsource, h⟩ := bind_ok_iff.mp h
    obtain ⟨created, -, h⟩ := bind_ok_iff.mp h
    obtain ⟨effects, -, h⟩ := bind_ok_iff.mp h
    obtain ⟨pack, -, h⟩ := bind_ok_iff.mp h
    obtain ⟨baseline, -, h⟩ := bind_ok_iff.mp h
    obtain rfl := Except.ok.inj h
    exact ⟨rfl, rfl, last, hlast, sourceBoundary_endsAt hsource⟩
  next => cases h

/-- The prefix of a log that has only grown is still what the contract says. -/
theorem prefixHolds_of_prefix {records : List EventRecord} {last : EventRecord}
    (hlast : m.records.getLast? = some last) (hends : EndsAt c.source m.records last)
    (h : m.records <+: records) : prefixHolds records c = true := by
  have htake : records.take c.source.eventCount = m.records := by
    rw [hends.count]
    exact (List.prefix_iff_eq_take.mp h).symm
  unfold prefixHolds
  dsimp only
  rw [htake, hlast]
  simp [hends.count, hends.cursor, hends.eventId, hends.digest]

theorem requests_requestedEvent : Requests checkpointId (requestedEvent c t) ↔
    c.checkpointId = checkpointId := by
  simp [Requests, requestedEvent, Dict.getD, CheckpointContract.dump, Dict.get?_cons]

/-- The contract in its event. -/
theorem contractIn_requestedEvent : contractIn (requestedEvent c t) = .ok c := by
  have hget : (requestedEvent c t).get? "contract" = some c.dump := by
    simp [requestedEvent, Event.get?]
  rw [contractIn, hget]
  dsimp only
  rw [CheckpointContract.validate_dump]
  rfl

theorem requestedIn_eq_some {log : List Event} (h : requestedIn log checkpointId = some e) :
    e ∈ log ∧ Requests checkpointId e := by
  have hmem := List.mem_of_getLast? h
  simpa using hmem

end facts

/-! ### The service -/

/-- Where an artifact is: at the place that a payload names, or under the managed root. -/
inductive ArtifactPath where
  | uri (uri : String)
  | managed (artifactId : String)

/-- A file under the managed root. -/
structure ManagedFile where
  artifactId : String
  size : ℕ
  sha256 : Sha256

/-- What the service does outside of the store, and the append of `checkpoint.requested`, with what
its contract was made of. -/
inductive CaptureOp where
  | quiescence (runId : String)
  | readRecords (runId : String)
  | createSnapshot (workspace : String)
  | verifySnapshot (snapshot : WorkspaceSnapshot)
  | readArtifact (path : ArtifactPath)
  | request (m : Materials) (e : Event)

/-- What each of them returns. -/
def captureInterface : Interface where
  Op := CaptureOp
  Reply
    | .quiescence _ => Bool
    | .readRecords _ => List EventRecord
    | .createSnapshot _ => Except RuntimeError WorkspaceSnapshot
    | .verifySnapshot _ => Except RuntimeError Unit
    | .readArtifact _ => Except RuntimeError ManagedFile
    | .request _ _ => Except StoreError Event

/-- The code of the service. -/
abbrev Capture := RuntimeM captureInterface

/-- A step outside of the store that may raise. -/
def attempt {α : Type} (p : Program (withStore captureInterface) (Except RuntimeError α)) : Capture α := p

/-- A value that was computed, or the exception. -/
def orRaise {α : Type} (r : Except RuntimeError α) : Capture α := .done r

/-- `store.read_records(run_id=…)`. -/
def readRecords (runId : String) : Capture (List EventRecord) :=
  lift (@outside captureInterface (.readRecords runId))

/-- `ArtifactRef.model_validate(value)`, as its `uri`, `kind` and `summary`. -/
def validateArtifactRef (d : Dict) : Except RuntimeError (String × String × String) :=
  let fields : Option (String × String × String) := do
    let uri ← d.field "uri" Json.asStr
    let kind ← d.field "kind" Json.asStr
    let summary ← d.fieldD "summary" Json.asStr ""
    return (uri, kind, summary)
  fields.elim (.error (.valueError "validation error")) .ok

/-- The dictionary is the candidate of an artifact. -/
def candidateOf : Option Json → List Dict
  | some (.dict candidate) =>
      if (Dict.get? candidate "uri").isSome ∧ (Dict.get? candidate "kind").isSome then [candidate] else []
  | _ => []

mutual

/-- `_find_artifact_refs`. -/
def findArtifactRefs : Json → List Dict
  | .dict items => candidateOf (items.lookup "artifact_ref") ++ findInItems items
  | .list xs => findInElements xs
  | _ => []

/-- Those in the values of a dictionary. -/
def findInItems : List (String × Json) → List Dict
  | [] => []
  | (_, v) :: items => findArtifactRefs v ++ findInItems items

/-- Those in the elements of a list. -/
def findInElements : List Json → List Dict
  | [] => []
  | v :: xs => findArtifactRefs v ++ findInElements xs

end

/-- The artifact that an event refers to, as it is now. -/
def verifiedRef (e : Event) (raw : Dict) : Capture VerifiedArtifactRef := do
  let (uri, kind, summary) ← orRaise (validateArtifactRef raw)
  let file ← attempt (@outside captureInterface (.readArtifact (.uri uri)))
  let artifactId ← orRaise (filled file.artifactId)
  let kind ← orRaise (filled kind)
  let sourceEventId ← orRaise (filled e.id)
  return { artifactId, kind, summary, sourceEventId, size := file.size, sha256 := file.sha256 }

/-- The artifacts of some references, the first of each identifier. -/
def collectArtifacts : List (Event × Dict) → List VerifiedArtifactRef → Capture (List VerifiedArtifactRef)
  | [], found => pure found
  | (e, raw) :: rest, found => do
      let ref ← verifiedRef e raw
      collectArtifacts rest
        (if found.any (fun a => a.artifactId = ref.artifactId) then found else found ++ [ref])

/-- `_artifact_refs`. -/
def artifactRefs (events : List Event) : Capture (List VerifiedArtifactRef) :=
  collectArtifacts
    (events.flatMap (fun e => (findArtifactRefs (.dict e.payload)).map (fun raw => (e, raw)))) []

/-- `_verify_artifact`. -/
def verifyArtifact (a : VerifiedArtifactRef) : Capture Unit := do
  let file ← attempt (@outside captureInterface (.readArtifact (.managed a.artifactId.1)))
  if file.size = a.size ∧ file.sha256 = a.sha256 then pure ()
  else throw (.runtimeError ("checkpoint artifact hash mismatch: " ++ a.artifactId.1))

/-- The checks of the workspace and the artifacts of a contract. -/
def verifyContents (c : CheckpointContract) : Capture Unit := do
  attempt (@outside captureInterface (.verifySnapshot c.workspace))
  each verifyArtifact c.stateRefs.artifacts

/-- `_commit`. -/
def commit (c : CheckpointContract) (causationId : Option String) : Capture Event := do
  verifyContents c
  let log ← readAll none
  append none (committedEvent c (causationId.or ((requestedIn log c.checkpointId).map Event.id)))

/-- `create`, when the checkpoint has been requested. -/
def resumeCreate (runId : String) (request : CheckpointCreateRequest) (existing : Event) :
    Capture CheckpointContract := do
  let c ← orRaise (contractIn existing)
  if c.requestFingerprint = requestFingerprint runId request then do
    let _ ← commit c none
    return c
  else throw (.runtimeError
    ("checkpoint request_id belongs to another payload: " ++ request.requestId.1))

/-- The append of `checkpoint.requested`. -/
def appendRequested (m : Materials) (c : CheckpointContract) : Capture Event := do
  let createdAt ← now
  raising (@outside captureInterface (.request m (requestedEvent c createdAt)))

/-- The capture of a run from its records. -/
def captureRun (runId : String) (request : CheckpointCreateRequest) (records : List EventRecord)
    (runCreated : Event) : Capture CheckpointContract := do
  let workspace := (runCreated.payload.getD "workspace_path" (.str "")).pyStr
  let snapshot ← attempt (@outside captureInterface (.createSnapshot workspace))
  let artifacts ← artifactRefs (records.map Prod.snd)
  let createdAt ← now
  let m : Materials := { records, snapshot, artifacts, createdAt }
  let c ← orRaise (buildContract (checkpointId runId request.requestId.1) request
    (requestFingerprint runId request) m runCreated)
  let requested ← appendRequested m c
  let _ ← commit c (some requested.id)
  return c

/-- `create`, when it has not. -/
def createNew (runId : String) (request : CheckpointCreateRequest) : Capture CheckpointContract := do
  let records ← readRecords runId
  orRaise (assertSafe records)
  match runCreatedOf (records.map Prod.snd) with
  | none => throw (.keyError ("run has no run.created event: " ++ runId))
  | some runCreated => captureRun runId request records runCreated

/-- `CheckpointService.create`. -/
def create (runId : String) (request : CheckpointCreateRequest) : Capture CheckpointContract := do
  let log ← readAll none
  match requestedIn log (checkpointId runId request.requestId.1) with
  | some existing => resumeCreate runId request existing
  | none => createNew runId request

/-- `CheckpointService.contract`. -/
def committedContract (checkpointId : String) : Capture CheckpointContract := do
  let log ← readAll none
  match requestedIn log checkpointId with
  | none => throw (.keyError ("unknown checkpoint: " ++ checkpointId))
  | some requested => do
      let c ← orRaise (contractIn requested)
      let log ← readAll none
      match committedIn log checkpointId with
      | none => throw (.keyError ("checkpoint is not committed: " ++ checkpointId))
      | some committed =>
          if committed.get? "contract_sha256" = some (contractDigest c) then pure c
          else throw (.runtimeError "checkpoint contract hash mismatch")

/-- `validate_restore`. -/
def validateRestore (checkpointId : String) : Capture CheckpointContract := do
  let c ← committedContract checkpointId
  let records ← readRecords c.source.runId.1
  if prefixHolds records c then do
    verifyContents c
    if c.effects.restoreBlockers.isEmpty then pure c
    else throw (.runtimeError ("checkpoint restore is blocked: " ++
      ", ".intercalate c.effects.restoreBlockers))
  else throw (.runtimeError "checkpoint event prefix mismatch")

/-! ### Under a barrier -/

/-- `create_checkpoint`, given how it waits for the run and what captures it. -/
def underBarrier {X : Interface} {α : Type} (wait : RuntimeM X Unit) (capture : RuntimeM X α)
    (runId requestId : String) : RuntimeM X α := do
  let events ← readAll (some runId)
  match runCreatedOf events with
  | none => throw (.keyError ("unknown run: " ++ runId))
  | some identity => do
      let drawn ← uuid
      let expiresAt ← now
      let acquired ← appendDrawn (barrierAcquired identity ("checkpoint_barrier_" ++ drawn)
        (checkpointId runId requestId) (expiresAt.addSeconds 300))
      tryFinally
        (do
          wait
          capture)
        (appendDrawn (barrierReleased identity acquired ("checkpoint_barrier_" ++ drawn)
          (checkpointId runId requestId)))

/-- The barriers are those of `createCheckpoint`. -/
theorem createCheckpoint_eq_underBarrier (runId requestId : String) :
    createCheckpoint runId requestId = underBarrier (waitForCheckpointQuiescence runId)
      (@outside checkpointInterface (.create runId requestId)) runId requestId := rfl

/-- `_wait_for_checkpoint_quiescence`. -/
def waitForCapture (runId : String) : Capture Unit :=
  (@outside captureInterface (CaptureOp.quiescence runId)).bind (fun (quiescent : Bool) =>
    if quiescent then .done (.ok ())
    else .done (.error (.timeoutError ("run did not reach checkpoint quiescence: " ++ runId))))

/-- `create_checkpoint`. -/
def captureCheckpoint (runId : String) (request : CheckpointCreateRequest) :
    Capture CheckpointContract :=
  underBarrier (waitForCapture runId) (create runId request) runId request.requestId.1

end CheckpointService

end CrazyHarness
