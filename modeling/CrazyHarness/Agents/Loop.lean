import CrazyHarness.Agents.Contracts
import CrazyHarness.Agents.History
import CrazyHarness.Tools.Pipeline

/-! # The agent loop

`AgentLoop.run_once` as a program over its atomic steps: reading the log of its task,
appending an event to it, the locked steps of its ledger, and calls to everything else (the
model, the capability compiler, the context builder, the completion gate, a tool, the message
handler, the model-call authority), of which nothing is assumed.  A process that dies leaves
the state of some point the program reaches.

`loopStep` says what each step does.  Other components may append events of their own types
to the log at any moment; the types of `loopTypes` are the loop's alone, and a reconciliation
is recorded only for an operation that is recorded as unknown.

The hooks, schemas and policies behind `ToolPipeline.prepare` are the parameter `authorize`. -/

namespace CrazyHarness

open Lib

/-! ### Configuration -/

/-- The codes of a completion finding; a nudge has the kind of its finding. -/
inductive CompletionFindingCode where
  | schema
  | evidence
  | pendingOperation
deriving DecidableEq

/-- `code.value`. -/
def CompletionFindingCode.value : CompletionFindingCode → String
  | .schema => "schema"
  | .evidence => "evidence"
  | .pendingOperation => "pending_operation"

/-- One finding of a completion gate. -/
structure CompletionFinding where
  code : CompletionFindingCode
  message : String
  path : Option String := none
deriving DecidableEq

/-- `model_dump(mode="json")`. -/
def CompletionFinding.dump (f : CompletionFinding) : Json :=
  .dict [("code", .str f.code.value), ("message", .str f.message), ("path", .ofOption f.path)]

/-- The verdict of a completion gate. -/
structure CompletionGateResult where
  passed : Bool
  findings : List CompletionFinding
deriving DecidableEq

/-- The fields of an `AgentLoop` that do not change. -/
structure AgentConfig where
  agentId : String
  taskId : Option String := none
  contract : Option AssignmentContract := none
  localPlanVersion : ℕ := 0
  spec : String → Option ToolSpec
  authorize : ToolRequest → Except PipelineError (ToolCall × ToolSpec)
  nudgeBudget : Option (CompletionFindingCode → ℕ) := none
  parseJson : String → Option Json
  manifestNames : Json → Except String (List String)
  hasPipeline : Bool := true
  hasAuthority : Bool := false
  hasCompiler : Bool := false
  hasContextBuilder : Bool := false
  hasGate : Bool := false
  hasHandler : Bool := false

/-! ### Steps -/

/-- The exceptions of `run_once`. -/
inductive LoopError where
  | illegalTransition (previous current : LoopPhase)
  | runtime (message : String)
  | keyError (key : String)
  | valueError (message : String)
  | pipeline (e : PipelineError)
  | raised (message : String)
deriving DecidableEq

/-- `str(exc)`. -/
def LoopError.text : LoopError → String
  | .illegalTransition previous current =>
      "illegal loop transition: " ++ previous.value ++ " -> " ++ current.value
  | .runtime message | .valueError message | .raised message => message
  | .keyError key => Json.reprStr key
  | .pipeline e => e.text

/-- What the capability compiler discloses. -/
structure CompiledCapabilities where
  manifest : Dict
  disclosed : ℕ
  withheld : ℕ
  excluded : ℕ

/-- The audit record of one compiled context. -/
structure ContextManifest where
  includedRefs : List String
  excludedRefs : List String
  transform : List Dict
  tokenEstimate : ℕ
  contractVersion : ℕ
  promptHash : String

/-- `model_dump(mode="json")`. -/
def ContextManifest.dump (m : ContextManifest) : Dict :=
  [("included_refs", .list (m.includedRefs.map .str)),
    ("excluded_refs", .list (m.excludedRefs.map .str)), ("transform", .list (m.transform.map .dict)),
    ("token_estimate", .int m.tokenEstimate), ("contract_version", .int m.contractVersion),
    ("prompt_hash", .str m.promptHash)]

/-- The messages of a turn, as far as the loop records them. -/
structure BuiltMessages where
  count : ℕ
  promptHash : String
  manifest : Option ContextManifest

/-- A response of the model. -/
structure ModelResponse where
  content : String
  usage : Dict := []
  toolCalls : List Dict := []
  providerResponseId : Option String := none
  providerModel : Option String := none
  finishReason : Option String := none
  systemFingerprint : Option String := none

/-- `audit_payload`. -/
def ModelResponse.auditPayload (r : ModelResponse) : Dict :=
  [("provider_response_id", .ofOption r.providerResponseId),
    ("provider_model", .ofOption r.providerModel), ("finish_reason", .ofOption r.finishReason),
    ("system_fingerprint", .ofOption r.systemFingerprint),
    ("tool_calls", .list (r.toolCalls.map .dict))]

/-- What the message handler returns for a message it has sent. -/
structure PeerReceipt where
  correlationId : Json
  requestEventId : String
  sharing : String

/-- The receipt as the dictionary the handler returns. -/
def PeerReceipt.dump (r : PeerReceipt) : Dict :=
  [("correlation_id", r.correlationId), ("request_event_id", .str r.requestEventId),
    ("sharing", .str r.sharing)]

/-- How the message handler ends; `none` is a handler that returns `None`. -/
inductive HandlerOutcome where
  | sent (receipt : Option PeerReceipt)
  | denied (reason : String)
  | raised (message : String)

/-- The atomic steps of the loop. -/
inductive LoopOp where
  | events
  | append (type : String) (payload : Dict) (causationId : Option String)
  | pipeline (op : PipelineOp)
  | drawOperationId
  | compileCapabilities (turnId : String)
  | buildMessages (capability : Option Event)
  | recoverUnresolved (request : Event)
  | complete (request : Event)
  | reconcile (request completion : Event)
  | callTool (call : ToolCall)
  | evaluateGate (output : Dict) (evidence : List (String × List String)) (pending : List String)
  | writeArtifact (artifact : Dict) (summary : String)
  | handleMessage (action : AgentAction) (turnId : String)

/-- The loop's interface to its log, its ledger and its collaborators. -/
def loopInterface : Interface where
  Op := LoopOp
  Reply
    | .events => List Event
    | .append _ _ _ => Option Event
    | .pipeline op => pipelineInterface.Reply op
    | .drawOperationId => String
    | .compileCapabilities _ => Except String CompiledCapabilities
    | .buildMessages _ => Except String BuiltMessages
    | .recoverUnresolved _ => Except String Unit
    | .complete _ => Except String ModelResponse
    | .reconcile _ _ => Except String Unit
    | .callTool _ => Except String ToolResult
    | .evaluateGate _ _ _ => Except String CompletionGateResult
    | .writeArtifact _ _ => Except String Dict
    | .handleMessage _ _ => HandlerOutcome

/-- Loop code, with its exceptions. -/
abbrev LoopM := ExceptT LoopError (Program loopInterface)

namespace LoopM

/-- One atomic step. -/
def ask (op : LoopOp) : Program loopInterface (loopInterface.Reply op) :=
  @Program.perform loopInterface op

/-- A call whose exceptions are those of the loop. -/
def calling {α : Type} (p : Program loopInterface (Except String α)) : LoopM α :=
  p.bind (fun
    | .ok a => .done (.ok a)
    | .error message => .done (.error (.raised message)))

/-- `_events()`. -/
def events : LoopM (List Event) := (ask .events).bind (fun es => .done (.ok es))

/-- `_append`. -/
def append (type : String) (payload : Dict) (causationId : Option String) : LoopM Event :=
  (ask (.append type payload causationId)).bind (fun (r : Option Event) =>
    match r with
    | some e => .done (.ok e)
    | none => .done (.error (.runtime "cannot append loop event without a seed event")))

/-- The check of `_phase`. -/
def checkPhase (previous : Option Event) (phase : LoopPhase) : LoopM Unit :=
  match previous with
  | none => pure ()
  | some e =>
      match e.phase with
      | none => throw (.valueError "not a valid LoopPhase")
      | some p => if transitionAllowed p phase then pure () else throw (.illegalTransition p phase)

/-- `_phase`. -/
def phase (phase : LoopPhase) (turnId : String) : LoopM Unit := do
  let es ← events
  checkPhase (lastPhaseEvent es turnId) phase
  let _ ← append "loop.phase.changed" [("turn_id", .str turnId), ("phase", .str phase.value)] none
  pure ()

end LoopM

open LoopM

/-! ### Tools -/

/-- `prepare`: the authorised call under the identity of its request. -/
def AgentConfig.prepare (cfg : AgentConfig) (request : ToolRequest) :
    Except PipelineError ToolInvocation :=
  (cfg.authorize request).map (fun authorised =>
    { callId := request.callId, call := authorised.1, spec := authorised.2,
      idempotencyKey := request.idempotencyKey.getD request.callId })

/-- The idempotency key of the tool call of a turn. -/
def AgentConfig.callKey (cfg : AgentConfig) (turnId toolName : String) : String :=
  (match cfg.taskId with
    | some t => if t = "" then "task" else t
    | none => "task") ++ ":" ++ turnId ++ ":" ++ toolName

/-- `tool_name or ""`. -/
def AgentAction.tool (a : AgentAction) : String := a.toolName.getD ""

/-- `record_started`. -/
def recordStarted (action : AgentAction) (turnId : String) (command : Event) (r : OperationRecord)
    (i : ToolInvocation) : LoopM Event := do
  let operation ← append "operation.started"
    [("turn_id", .str turnId), ("operation_id", .str r.operationId),
      ("tool_name", .ofOption action.toolName), ("proposed_tool_args", .dict action.toolArgs),
      ("tool_args", .dict i.call.args),
      ("hook_patched", .bool (decide (i.call.args ≠ action.toolArgs))),
      ("idempotency_key", .str r.idempotencyKey),
      ("side_effect_level", .str i.spec.sideEffectLevel)] (some command.id)
  let _ ← append "tool.requested"
    [("turn_id", .str turnId), ("operation_id", .str r.operationId),
      ("tool_name", .ofOption action.toolName), ("tool_args", .dict i.call.args)] (some operation.id)
  pure operation

/-- The steps of the pipeline taken by the loop; its callback writes the start of the
operation and keeps the event. -/
def pipelineHandler (action : AgentAction) (turnId : String) (command : Event) :
    (op : PipelineOp) → Option Event →
      Program loopInterface (pipelineInterface.Reply op × Option Event)
  | .onStarted r i, s =>
      Program.bind (recordStarted action turnId command r i) (fun
        | .ok e => .done (.returned, some e)
        | .error e => .done (.raised (.raised e.text), s))
  | op, s => (ask (.pipeline op)).bind (fun r => .done (r, s))

/-- `tool.completed` and the settlement that names it. -/
def recordCompleted (turnId : String) (operationId : Json) (payload : Dict)
    (causationId : Option String) : LoopM Unit := do
  let completed ← append "tool.completed"
    ([("turn_id", .str turnId), ("operation_id", operationId)] ++ payload) causationId
  let _ ← append "operation.completed"
    [("turn_id", .str turnId), ("operation_id", operationId),
      ("result_event_id", .str completed.id)] (some completed.id)
  pure ()

/-- The start of an operation that this execution did not start itself. -/
def findStart (es : List Event) (operationId : Json) : Option Event :=
  es.reverse.find? (fun e => e.type = "operation.started" ∧ e.operation = operationId)

/-- The event that starts the settled operation. -/
def durableStart (operationId : Json) : Option Event → LoopM Event
  | some e => pure e
  | none => do
      let es ← events
      match findStart es operationId with
      | some e => pure e
      | none =>
          throw (.runtime ("settled operation has no durable start: " ++ operationId.pyStr))

/-- The projection of a settled call into the log. -/
def recordSettled (turnId : String) (command : Event) (operation : Option Event)
    (settled : SettledToolResult) : LoopM Unit :=
  let operationId := Json.ofOption settled.operationId
  match settled.status, settled.result with
  | .fulfilled, some result | .cached, some result => do
      let start ← durableStart operationId operation
      recordCompleted turnId operationId
        [("result", .dict result.dump), ("cached", .bool (decide (settled.status = .cached)))]
        (some start.id)
  | .unknown, _ => do
      let _ ← append "operation.unknown"
        [("turn_id", .str turnId), ("operation_id", operationId),
          ("reason", .ofOption settled.error)] (some command.id)
      pure ()
  | _, result => do
      let failed ← append "tool.failed"
        [("turn_id", .str turnId), ("operation_id", operationId),
          ("error", .ofOption settled.error),
          ("result", (result.map (fun r => Json.dict r.dump)).getD .null)] (some command.id)
      let _ ← append "operation.failed"
        [("turn_id", .str turnId), ("operation_id", operationId),
          ("error", .ofOption settled.error)] (some failed.id)
      pure ()

/-- A refused action ends its turn. -/
def denyAction (turnId : String) (command : Event) (payload : Dict) : LoopM Unit := do
  phase .failed turnId
  let _ ← append "agent.action.denied" ([("turn_id", .str turnId)] ++ payload) (some command.id)
  pure ()

/-- The outcome of the pipeline, with the event of the started operation. -/
def finishPipeline (action : AgentAction) (turnId : String) (command : Event) :
    Except PipelineError (List (List SettledToolResult)) × Option Event → LoopM Unit
  | (.error (.policyDenied reason), _) | (.error (.validation reason), _) =>
      denyAction turnId command
        [("reason", .str reason), ("tool_name", .ofOption action.toolName)]
  | (.error e, _) => throw (.pipeline e)
  | (.ok batches, operation) =>
      match batches.flatten with
      | settled :: _ => do
          phase .resultRecording turnId
          recordSettled turnId command operation settled
      | [] => throw (.raised "tuple index out of range")

/-- `_execute_via_pipeline`. -/
def executeViaPipeline (cfg : AgentConfig) (action : AgentAction) (turnId : String)
    (command : Event) : LoopM Unit := do
  phase .actionExecuting turnId
  let key := cfg.callKey turnId action.tool
  let request : ToolRequest :=
    { call := { name := action.tool, args := action.toolArgs }, callId := key,
      idempotencyKey := some key }
  Program.bind ((execute cfg.prepare [request]).interpret (pipelineHandler action turnId command) none)
    (finishPipeline action turnId command)

/-- The direct path, without a pipeline. -/
def executeDirectly (cfg : AgentConfig) (action : AgentAction) (turnId : String)
    (command : Event) : LoopM Unit := do
  phase .actionExecuting turnId
  let operationId ← (ask .drawOperationId).bind (fun (id : String) => .done (.ok id))
  let operation ← append "operation.started"
    [("turn_id", .str turnId), ("operation_id", .str operationId),
      ("tool_name", .ofOption action.toolName), ("tool_args", .dict action.toolArgs),
      ("side_effect_level", .str ((cfg.spec action.tool).elim "none" ToolSpec.sideEffectLevel))]
    (some command.id)
  let _ ← append "tool.requested"
    [("turn_id", .str turnId), ("operation_id", .str operationId),
      ("tool_name", .ofOption action.toolName), ("tool_args", .dict action.toolArgs)]
    (some operation.id)
  let result ← calling (ask (.callTool { name := action.tool, args := action.toolArgs }))
  phase .resultRecording turnId
  recordCompleted turnId (.str operationId) [("result", .dict result.dump)] (some operation.id)

/-! ### Completion -/

/-- The tool results of a log under the names of their tools. -/
def evidenceOf (es : List Event) : List (String × List String) :=
  es.foldl
    (fun evidence e =>
      match e.type == "tool.completed", (e.get? "result").bind Json.asDict with
      | true, some result =>
          match result.getD "name" .null with
          | .str "" | .null => evidence
          | name =>
              if evidence.any (fun kv => kv.1 = name.pyStr) then
                evidence.map (fun kv => if kv.1 = name.pyStr then (kv.1, kv.2 ++ [e.id]) else kv)
              else evidence ++ [(name.pyStr, [e.id])]
      | _, _ => evidence)
    []

/-- The started operations without an end, for the completion gate. -/
def pendingOperations (es : List Event) : List String :=
  ((operationsOf es "operation.started").map Json.pyStr).dedup.filter (fun o =>
    o ∉ (operationsOf es "operation.completed" ++ operationsOf es "operation.failed" ++
      operationsOf es "operation.unknown").map Json.pyStr)

/-- What follows a failed gate: a nudge while the budget of its kind lasts, then the end. -/
def nudgeOrStop (cfg : AgentConfig) (es : List Event) (turnId : String) (command : Event)
    (findings : List CompletionFinding) : LoopM Unit :=
  match findings with
  | [] => throw (.raised "tuple index out of range")
  | first :: _ =>
      let kind := first.code
      let limit := cfg.nudgeBudget.elim 0 (fun budget => budget kind)
      let used := es.countP (fun e =>
        e.type = "agent.nudged" ∧ e.get? "kind" = some (.str kind.value))
      let dumped := Json.list (findings.map CompletionFinding.dump)
      if used < limit then do
        let _ ← append "agent.nudged"
          [("turn_id", .str turnId), ("kind", .str kind.value),
            ("message", .str ("; ".intercalate (findings.map CompletionFinding.message))),
            ("findings", dumped), ("remaining", .int (limit - used - 1))] (some command.id)
        pure ()
      else do
        let _ ← append "agent.stopped"
          [("turn_id", .str turnId),
            ("reason", .str "completion gate failed and nudge budget is exhausted"),
            ("status", .str "report_blocked"), ("findings", dumped)] (some command.id)
        pure ()

/-- `_completion_allows`. -/
def completionAllows (cfg : AgentConfig) (action : AgentAction) (turnId : String)
    (command : Event) : LoopM Bool :=
  if cfg.hasGate && cfg.contract.isSome then do
    let es ← events
    let output := if action.type = .submitOutput then action.artifact else []
    let result ← calling (ask (.evaluateGate output (evidenceOf es) (pendingOperations es)))
    let _ ← append (if result.passed then "completion.gate.passed" else "completion.gate.failed")
      [("turn_id", .str turnId), ("findings", .list (result.findings.map CompletionFinding.dump))]
      (some command.id)
    if result.passed then pure true
    else do
      nudgeOrStop cfg es turnId command result.findings
      pure false
  else pure true

/-! ### Execution -/

/-- One event that records an action, under its turn and command. -/
def recordAction (type turnId : String) (command : Event) (payload : Dict) : LoopM Unit := do
  let _ ← append type ([("turn_id", .str turnId)] ++ payload) (some command.id)
  pure ()

/-- The `send_message` branch of `_execute`, after the handler. -/
def recordMessage (cfg : AgentConfig) (action : AgentAction) (turnId : String) (command : Event) :
    HandlerOutcome → LoopM Unit
  | .denied reason =>
      recordAction "a2a.message.denied" turnId command
        [("receiver", .ofOption action.receiver), ("message", .dict action.message),
          ("reason", .str reason)]
  | .raised message => throw (.raised message)
  | .sent receipt => do
      let result := receipt.elim [] PeerReceipt.dump
      recordAction "a2a.message.sent" turnId command
        ([("receiver", .ofOption action.receiver), ("message", .dict action.message)] ++ result)
      if cfg.hasHandler then do
        phase .waiting turnId
        recordAction "agent.waiting" turnId command
          [("reason", .str "waiting for peer response"), ("condition", .dict result),
            ("correlation_id", Dict.getD result "correlation_id" .null)]
      else pure ()

/-- `_execute` for an action that calls no tool, once the completion gate has let it pass. -/
def recordResult (cfg : AgentConfig) (action : AgentAction) (turnId : String) (command : Event) :
    LoopM Unit :=
  match action.type with
  | .stop | .reportBlocked =>
      recordAction "agent.stopped" turnId command
        [("reason", .str action.reason), ("status", .str action.type.value)]
  | .submitOutput => do
      phase .submitted turnId
      recordAction "agent.submitted" turnId command
        [("artifact", .dict action.artifact), ("reason", .str action.reason)]
  | .waitForEvent | .requestHuman => do
      phase .waiting turnId
      recordAction "agent.waiting" turnId command
        [("reason", .str action.reason), ("condition", .dict action.message)]
  | .emitArtifact => do
      let ref ← calling (ask (.writeArtifact action.artifact action.reason))
      recordAction "artifact.created" turnId command [("artifact_ref", .dict ref)]
  | .sendMessage =>
      if cfg.hasHandler then
        Program.bind (ask (.handleMessage action turnId)) (recordMessage cfg action turnId command)
      else recordMessage cfg action turnId command (.sent none)
  | .continue => recordAction "agent.continued" turnId command [("reason", .str action.reason)]
  | .callTool => pure ()

/-- `_execute`. -/
def executeAction (cfg : AgentConfig) (action : AgentAction) (turnId : String)
    (command : Event) : LoopM Unit :=
  if action.type = .callTool then
    if cfg.hasPipeline then executeViaPipeline cfg action turnId command
    else executeDirectly cfg action turnId command
  else do
    phase .resultRecording turnId
    let allowed ←
      (if action.type = .stop ∨ action.type = .submitOutput then
        completionAllows cfg action turnId command
      else pure true : LoopM Bool)
    if allowed then recordResult cfg action turnId command else pure ()

/-! ### One turn -/

/-- The tools a manifest discloses; without a manifest all of them. -/
def disclosedNames (cfg : AgentConfig) : Option Event → LoopM (Option (List String))
  | none => pure none
  | some e =>
      match e.get? "manifest" with
      | none => throw (.keyError "manifest")
      | some manifest =>
          match cfg.manifestNames manifest with
          | .ok names => pure (some names)
          | .error message => throw (.raised message)

/-- Authorisation and execution of a validated action. -/
def authorizeAndExecute (cfg : AgentConfig) (es : List Event) (turnId : String)
    (capability : Option Event) (action : AgentAction) (command : Event) : LoopM Unit := do
  phase .actionAuthorizing turnId
  if action.type = .callTool ∧ (cfg.spec action.tool).isNone then
    denyAction turnId command
      [("reason", .str ("unknown tool: " ++ (Json.ofOption action.toolName).pyStr))]
  else do
    let names ← disclosedNames cfg capability
    let used := es.countP (fun e => e.type = "operation.started")
    if action.type = .callTool ∧ cfg.hasCompiler ∧
        names.any (fun ns => action.tool ∉ ns) then
      denyAction turnId command
        [("reason", .str "tool_not_disclosed"), ("tool_name", .ofOption action.toolName),
          ("capability_manifest_event_id", .ofOption (capability.map Event.id))]
    else if action.type = .callTool ∧
        (cfg.contract.bind AssignmentContract.toolCalls).any (fun limit => limit ≤ (used : ℤ)) then
      denyAction turnId command
        [("reason", .str "tool_call_budget_exhausted"), ("tool_name", .ofOption action.toolName),
          ("used", .int used),
          ("limit", .int ((cfg.contract.bind AssignmentContract.toolCalls).getD 0))]
    else executeAction cfg action turnId command

/-- A response that is no action ends its turn. -/
def rejectResponse (turnId : String) (response : Event) (payload : Dict) : LoopM Unit := do
  phase .failed turnId
  let _ ← append "model.validation_failed" ([("turn_id", .str turnId)] ++ payload) (some response.id)
  pure ()

/-- `AgentAction.model_validate_json(response_event.payload["content"])`. -/
def parseAction (cfg : AgentConfig) (response : Event) : Except LoopError (Except String AgentAction) :=
  match response.get? "content" with
  | none => .error (.keyError "content")
  | some (.str content) =>
      match cfg.parseJson content with
      | some j => .ok (AgentAction.validate j)
      | none => .ok (.error "Invalid JSON")
  | some _ => .ok (.error "JSON input should be string")

/-- A new response: validate it, persist the command, go on. -/
def validateResponse (cfg : AgentConfig) (es : List Event) (turnId : String)
    (capability : Option Event) (response : Event) : LoopM Unit := do
  phase .decisionValidating turnId
  match parseAction cfg response with
  | .error e => throw e
  | .ok (.error message) =>
      rejectResponse turnId response
        [("error", .str message), ("raw_content", response.payload.getD "content" (.str ""))]
  | .ok (.ok action) => do
      let command ← append "agent.command.validated"
        [("turn_id", .str turnId), ("command", .dict action.dump)] (some response.id)
      authorizeAndExecute cfg es turnId capability action command

/-- A marker that a durable step is used again, unless the turn has one. -/
def markReused (type turnId : String) (turnEvents : List Event) (reused : Event) (payload : Dict) :
    LoopM Unit :=
  if (lastOfType turnEvents type).isNone then recordAction type turnId reused payload else pure ()

/-- A persisted command is built again, not validated again. -/
def reuseCommand (cfg : AgentConfig) (es : List Event) (turnId : String) (turnEvents : List Event)
    (capability : Option Event) (command : Event) : LoopM Unit := do
  markReused "agent.command.reused" turnId turnEvents command
    [("command_event_id", .str command.id),
      ("reason", .str "validated command precedes the interrupted execution step")]
  match command.get? "command" with
  | none => throw (.keyError "command")
  | some dumped =>
      match AgentAction.validate dumped with
      | .error message => throw (.valueError message)
      | .ok action => authorizeAndExecute cfg es turnId capability action command

/-- A provider has cut its answer short. -/
def incompleteFinish (response : Event) : Bool :=
  decide (response.payload.getD "finish_reason" .null ∉ [.null, .str "stop", .str "tool_calls"])

/-- `run_once` from the durable response of its turn on. -/
def decideTurn (cfg : AgentConfig) (es : List Event) (turnId : String) (turnEvents : List Event)
    (capability : Option Event) (response : Event) (recovered : Bool) : LoopM Unit :=
  if incompleteFinish response then
    rejectResponse turnId response
      [("error", .str ("provider returned incomplete finish_reason: " ++
          (response.payload.getD "finish_reason" .null).pyStr)),
        ("finish_reason", response.payload.getD "finish_reason" .null),
        ("raw_content", response.payload.getD "content" (.str ""))]
  else do
    (if recovered then
      markReused "model.response.reused" turnId turnEvents response
        [("response_event_id", .str response.id),
          ("reason", .str "persisted response precedes the interrupted harness step")]
    else pure () : LoopM Unit)
    match lastOfType turnEvents "agent.command.validated" with
    | none => validateResponse cfg es turnId capability response
    | some command => reuseCommand cfg es turnId turnEvents capability command

/-- `_compile_capabilities`. -/
def compileCapabilities (cfg : AgentConfig) (trigger : Option String) (turnId : String) :
    LoopM (Option Event) :=
  if cfg.hasCompiler then do
    let compiled ← calling (ask (.compileCapabilities turnId))
    let e ← append "capability.manifest.compiled"
      [("turn_id", .str turnId), ("agent_id", .str cfg.agentId),
        ("assignment_id", .str (match cfg.taskId with
          | some t => if t = "" then cfg.agentId else t
          | none => cfg.agentId)),
        ("manifest", .dict compiled.manifest),
        ("strategy", compiled.manifest.getD "strategy" .null),
        ("catalog_size", compiled.manifest.getD "catalog_size" .null),
        ("disclosed_count", .int compiled.disclosed), ("withheld_count", .int compiled.withheld),
        ("excluded_count", .int compiled.excluded)] trigger
    pure (some e)
  else pure none

/-- The manifest of the context the model sees. -/
def recordContext (cfg : AgentConfig) (trigger : Option String) (turnId : String)
    (capability : Option Event) (built : BuiltMessages) : LoopM (Option Event) :=
  match cfg.hasContextBuilder, built.manifest with
  | true, some manifest => do
      let e ← append "context.manifest.compiled"
        ([("turn_id", .str turnId), ("agent_id", .str cfg.agentId),
          ("trigger_event_id", .ofOption trigger), ("context_epoch", .int (turnNumber turnId)),
          ("manifest", .dict manifest.dump),
          ("microcompact", .dict
            [("retained_count", .int manifest.includedRefs.length),
              ("discarded_count", .int manifest.excludedRefs.length),
              ("offloaded_count", .int (manifest.transform.countP
                (fun item => item.get? "representation" = some (.str "ref"))))]),
          ("message_preview", .list [])] ++ manifest.dump)
        ((capability.map Event.id).or trigger)
      pure (some e)
  | _, _ => pure none

/-- Ask the authority, when there is one, to settle an old request. -/
def recoverRequest (cfg : AgentConfig) (request : Option Event) : LoopM Unit :=
  match cfg.hasAuthority, request with
  | true, some request => calling (ask (.recoverUnresolved request))
  | _, _ => pure ()

/-- Report a durable response to the authority, when there is one. -/
def reconcileRequest (cfg : AgentConfig) (request : Option Event) (completion : Event) :
    LoopM Unit :=
  match cfg.hasAuthority, request with
  | true, some request => calling (ask (.reconcile request completion))
  | _, _ => pure ()

/-- The model call of a new turn: its capability manifest and its durable response. -/
def callModel (cfg : AgentConfig) (es : List Event) (turnId : String) :
    LoopM (Option Event × Event) := do
  let trigger := es.getLast?.map Event.id
  phase .contextBuilding turnId
  let capability ← compileCapabilities cfg trigger turnId
  let built ← calling (ask (.buildMessages capability))
  let context ← recordContext cfg trigger turnId capability built
  phase .modelCalling turnId
  let requested ← append "model.requested"
    [("turn_id", .str turnId), ("message_count", .int built.count),
      ("prompt_hash", .str built.promptHash),
      ("contract_version", cfg.contract.elim .null (fun c => .int c.version)),
      ("local_plan_version", .int cfg.localPlanVersion)]
    ((context.map Event.id).or ((capability.map Event.id).or trigger))
  let response ← calling (ask (.complete requested))
  let completed ← append "model.completed"
    ([("turn_id", .str turnId), ("content", .str response.content), ("usage", .dict response.usage)]
      ++ response.auditPayload) (some requested.id)
  reconcileRequest cfg (some requested) completed
  pure (capability, completed)

/-- `_recover_pipeline_operation` once the record has been found. -/
def recordRecovered (unresolved : Event) (operationId turnId : String) (record : OperationRecord) :
    LoopM Unit := do
  phase .resultRecording turnId
  match record.state, record.result with
  | .succeeded, some result =>
      recordCompleted turnId (.str operationId)
        [("result", .dict result.dump), ("recovered_from_ledger", .bool true)] (some unresolved.id)
  | .failed, _ => do
      let _ ← append "operation.failed"
        [("turn_id", .str turnId), ("operation_id", .str operationId),
          ("error", .ofOption record.error)] (some unresolved.id)
      pure ()
  | state, _ => do
      let _ ← append "operation.unknown"
        [("turn_id", .str turnId), ("operation_id", .str operationId),
          ("tool_name", unresolved.payload.getD "tool_name" .null),
          ("reason", .str (match record.error with
            | some e => if e = "" then "ledger state is " ++ state.value else e
            | none => "ledger state is " ++ state.value))] (some unresolved.id)
      pure ()

/-- The end of an operation of which nothing is known. -/
def recordUnknown (unresolved : Event) (turnId : String) : LoopM Unit := do
  phase .resultRecording turnId
  let _ ← append "operation.unknown"
    [("turn_id", .str turnId), ("operation_id", unresolved.operation),
      ("tool_name", unresolved.payload.getD "tool_name" .null),
      ("reason", .str "effect may have happened before result persistence")] (some unresolved.id)
  pure ()

/-- Recovery of an operation that has started and not ended: `_recover_pipeline_operation`,
or an unknown outcome when the ledger has no record of it. -/
def recoverOperation (cfg : AgentConfig) (unresolved : Event) : LoopM Unit :=
  let operationId := unresolved.operation.pyStr
  if cfg.hasPipeline then
    Program.bind (ask (.pipeline (.get operationId)))
      (fun (r : Except LedgerError OperationRecord) =>
        match r with
        | .ok record => recordRecovered unresolved operationId unresolved.turn record
        | .error _ => recordUnknown unresolved unresolved.turn)
  else recordUnknown unresolved unresolved.turn

/-- `run_once` when nothing is unresolved: resume the open turn or take a new one. -/
def advanceTurn (cfg : AgentConfig) (es : List Event) : LoopM Unit :=
  let open' := recoverableTurn es
  let request := lastOfType open'.2 "model.requested"
  match lastOfType open'.2 "model.completed" with
  | some response => do
      reconcileRequest cfg request response
      decideTurn cfg es open'.1 open'.2 (lastOfType open'.2 "capability.manifest.compiled") response
        true
  | none => do
      recoverRequest cfg request
      let turnId := nextTurnId es
      let called ← callModel cfg es turnId
      decideTurn cfg es turnId open'.2 called.1 called.2 false

/-- `AgentLoop.run_once`. -/
def runOnce (cfg : AgentConfig) : LoopM Unit := do
  let es ← events
  if es = [] then throw (.runtime "AgentLoop requires a seed event")
  else if AtRest es then pure ()
  else
    match unresolvedOperation es with
    | some unresolved => recoverOperation cfg unresolved
    | none => advanceTurn cfg es

/-! ### The world of a loop -/

/-- The log of the task and what the ledger holds; `drawn` counts the event identifiers. -/
structure LoopWorld where
  log : List Event
  drawn : ℕ := 0
  pipe : PipelineWorld

/-- The types of the events a loop writes; no one else writes them. -/
def loopTypes : List String :=
  turnCompletedEvents ++
    ["loop.phase.changed", "capability.manifest.compiled", "context.manifest.compiled",
      "model.requested", "model.completed", "model.response.reused", "agent.command.validated",
      "agent.command.reused", "operation.started", "tool.requested", "operation.completed",
      "operation.failed", "completion.gate.passed", "completion.gate.failed"]

/-- An event another component may append to the log. -/
def Foreign (log : List Event) (e : Event) : Prop :=
  e.type ∉ loopTypes ∧
    (e.type = "operation.reconciled" → e.operation ∈ operationsOf log "operation.unknown")

/-- The log after some events of other components. -/
inductive ForeignGrowth : List Event → List Event → Prop
  | refl (log : List Event) : ForeignGrowth log log
  | step {log log' : List Event} {e : Event} (h : ForeignGrowth log log') (he : Foreign log' e) :
      ForeignGrowth log (log' ++ [e])

namespace LoopWorld

variable (w : LoopWorld)

/-- The event `_append` makes, with the identity of the last event. -/
def newEvent (cfg : AgentConfig) (identity : Event) (type : String) (payload : Dict)
    (causationId : Option String) (now : DateTime) : Event where
  id := uuid4 w.drawn
  runId := identity.runId
  taskId := identity.taskId
  type := type
  source := cfg.agentId
  payload := payload
  causationId := causationId
  createdAt := now

/-- The log with one more event of the loop. -/
def wrote (e : Event) : LoopWorld := { w with log := w.log ++ [e], drawn := w.drawn + 1 }

/-- `_append` at some time. -/
def appended (cfg : AgentConfig) (type : String) (payload : Dict) (causationId : Option String)
    (now : DateTime) : Option Event × LoopWorld :=
  match w.log.getLast? with
  | some identity =>
      let e := w.newEvent cfg identity type payload causationId now
      (some e, w.wrote e)
  | none => (none, w)

end LoopWorld

/-- What each step replies and does, when nobody else writes in between. -/
def loopAct (cfg : AgentConfig) (w : LoopWorld) :
    (op : LoopOp) → loopInterface.Reply op → LoopWorld → Prop
  | .events, r, w' => r = w.log ∧ w' = w
  | .append type payload causationId, r, w' =>
      ∃ now, (r, w') = w.appended cfg type payload causationId now
  | .pipeline op, r, w' =>
      ∃ pipe, pipelineStep w.pipe op r pipe ∧ w' = { w with pipe := pipe }
  | .drawOperationId, r, w' =>
      r = OperationLedger.newOperationId w.pipe.drawn ∧
        w' = { w with pipe := { w.pipe with drawn := w.pipe.drawn + 1 } }
  | _, _, w' => w' = w

/-- A step of the loop, after any events of others. -/
def loopStep (cfg : AgentConfig) (w : LoopWorld) (op : LoopOp) (r : loopInterface.Reply op)
    (w' : LoopWorld) : Prop :=
  ∃ log, ForeignGrowth w.log log ∧ loopAct cfg { w with log := log } op r w'

/-- The process has died; a new one opens the ledger again. -/
def LoopWorld.restarted (w : LoopWorld) : LoopWorld :=
  { w with pipe := { ledger := w.pipe.ledger.reopen, drawn := w.pipe.drawn } }

/-- The states that the runs of a loop leave behind.  `died` is any point a `run_once` can
come to, its end included; the next one may run in the same process or in a new one. -/
inductive Survives (cfg : AgentConfig) : LoopWorld → Prop
  | seed {log : List Event} (durable : Bool) (hne : log ≠ [])
      (hforeign : ForeignGrowth [] log) :
      Survives cfg { log := log, pipe := { ledger := .empty durable, drawn := 0 } }
  | died {w w' : LoopWorld} {p : Program loopInterface (Except LoopError Unit)}
      (h : Survives cfg w) (hr : Program.Reaches (loopStep cfg) (runOnce cfg) w p w') :
      Survives cfg w'
  | written {w : LoopWorld} {log : List Event} (h : Survives cfg w)
      (hforeign : ForeignGrowth w.log log) : Survives cfg { w with log := log }
  | restarted {w : LoopWorld} (h : Survives cfg w) : Survives cfg w.restarted

end CrazyHarness
