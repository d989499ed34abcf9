import CrazyHarness.Lib.Except
import CrazyHarness.Lib.Json

/-! # Phases and actions of an agent turn

The phase machine of `core/agents/state.py` and the action a model may propose,
`core/agents/actions.py`.  An action is persisted by `model_dump` and read back by
`model_validate`; `validate_dump` says that reading back gives the same action. -/

namespace CrazyHarness

open Lib

/-- The phases of one turn. -/
inductive LoopPhase where
  | contextBuilding
  | modelCalling
  | decisionValidating
  | actionAuthorizing
  | actionExecuting
  | resultRecording
  | waiting
  | submitted
  | failed
deriving DecidableEq

namespace LoopPhase

/-- `phase.value`. -/
def value : LoopPhase → String
  | contextBuilding => "context_building"
  | modelCalling => "model_calling"
  | decisionValidating => "decision_validating"
  | actionAuthorizing => "action_authorizing"
  | actionExecuting => "action_executing"
  | resultRecording => "result_recording"
  | waiting => "waiting"
  | submitted => "submitted"
  | failed => "failed"

/-- `LoopPhase(value)`; `none` is its `ValueError`. -/
def ofValue (s : String) : Option LoopPhase :=
  [contextBuilding, modelCalling, decisionValidating, actionAuthorizing, actionExecuting,
    resultRecording, waiting, submitted, failed].find? (fun p => p.value = s)

@[simp] theorem ofValue_value (p : LoopPhase) : ofValue p.value = some p := by
  cases p <;> decide

/-- `ALLOWED_TRANSITIONS`. -/
def allowedTransitions : LoopPhase → List LoopPhase
  | contextBuilding => [modelCalling]
  | modelCalling => [decisionValidating, failed]
  | decisionValidating => [actionAuthorizing, failed]
  | actionAuthorizing => [actionExecuting, resultRecording, failed]
  | actionExecuting => [resultRecording, failed]
  | resultRecording => [waiting, submitted, failed]
  | waiting => [contextBuilding, failed]
  | submitted => []
  | failed => []

end LoopPhase

/-- `transition_allowed`. -/
def transitionAllowed (previous current : LoopPhase) : Prop :=
  current ∈ previous.allowedTransitions

instance (p q : LoopPhase) : Decidable (transitionAllowed p q) :=
  inferInstanceAs (Decidable (q ∈ p.allowedTransitions))

/-- No phase may be entered again from itself. -/
theorem not_transitionAllowed_self (p : LoopPhase) : ¬ transitionAllowed p p := by
  cases p <;> decide

/-! ### Actions -/

/-- The kinds of an action. -/
inductive ActionType where
  | callTool
  | sendMessage
  | emitArtifact
  | continue
  | waitForEvent
  | submitOutput
  | reportBlocked
  | stop
  | requestHuman
deriving DecidableEq

namespace ActionType

/-- The literal of the kind. -/
def value : ActionType → String
  | callTool => "call_tool"
  | sendMessage => "send_message"
  | emitArtifact => "emit_artifact"
  | «continue» => "continue"
  | waitForEvent => "wait_for_event"
  | submitOutput => "submit_output"
  | reportBlocked => "report_blocked"
  | stop => "stop"
  | requestHuman => "request_human"

/-- The kind of a literal. -/
def ofValue (s : String) : Option ActionType :=
  [callTool, sendMessage, emitArtifact, «continue», waitForEvent, submitOutput, reportBlocked, stop,
    requestHuman].find? (fun t => t.value = s)

@[simp] theorem ofValue_value (t : ActionType) : ofValue t.value = some t := by
  cases t <;> decide

end ActionType

/-- A structured action returned by a model call. -/
structure AgentAction where
  type : ActionType
  reason : String
  toolName : Option String
  toolArgs : Dict
  receiver : Option String
  message : Dict
  artifact : Dict
  toolName_given : type = .callTool → toolName.getD "" ≠ ""
  receiver_given : type = .sendMessage → receiver.getD "" ≠ ""
  artifact_given : type = .emitArtifact → artifact ≠ []

namespace AgentAction

/-- `model_dump(mode="json")`. -/
def dump (a : AgentAction) : Dict :=
  [("type", .str a.type.value), ("reason", .str a.reason), ("tool_name", Json.ofOption a.toolName),
    ("tool_args", .dict a.toolArgs), ("receiver", Json.ofOption a.receiver), ("message", .dict a.message),
    ("artifact", .dict a.artifact)]

/-- The fields of an action; any other key is refused. -/
def fields : List String :=
  ["type", "reason", "tool_name", "tool_args", "receiver", "message", "artifact"]

/-- A required string field. -/
def readStr (d : Dict) (field : String) : Except String String :=
  match d.get? field with
  | some (.str s) => .ok s
  | _ => .error field

/-- An optional string field. -/
def readOptStr (d : Dict) (field : String) : Except String (Option String) :=
  match d.get? field with
  | none | some .null => .ok none
  | some (.str s) => .ok (some s)
  | _ => .error field

/-- A dictionary field with the empty dictionary as default. -/
def readDict (d : Dict) (field : String) : Except String Dict :=
  match d.get? field with
  | none => .ok []
  | some (.dict items) => .ok items
  | _ => .error field

/-- `validate_action_fields`. -/
def build (type : ActionType) (reason : String) (toolName : Option String) (toolArgs : Dict)
    (receiver : Option String) (message artifact : Dict) : Except String AgentAction :=
  if h₁ : type = .callTool ∧ toolName.getD "" = "" then
    .error "tool_name is required for call_tool"
  else if h₂ : type = .sendMessage ∧ receiver.getD "" = "" then
    .error "receiver is required for send_message"
  else if h₃ : type = .emitArtifact ∧ artifact = [] then
    .error "artifact is required for emit_artifact"
  else
    .ok ⟨type, reason, toolName, toolArgs, receiver, message, artifact,
      fun h e => h₁ ⟨h, e⟩, fun h e => h₂ ⟨h, e⟩, fun h e => h₃ ⟨h, e⟩⟩

/-- `AgentAction.model_validate`; the error is the field at fault or the text of the
validator. -/
def validate : Json → Except String AgentAction
  | .dict d => do
      ensure (∀ kv ∈ d, kv.1 ∈ fields) "extra"
      let typeName ← readStr d "type"
      let type ← (ActionType.ofValue typeName).elim (.error "type") .ok
      let reason ← readStr d "reason"
      let toolName ← readOptStr d "tool_name"
      let toolArgs ← readDict d "tool_args"
      let receiver ← readOptStr d "receiver"
      let message ← readDict d "message"
      let artifact ← readDict d "artifact"
      build type reason toolName toolArgs receiver message artifact
  | _ => .error "type"

theorem build_eq_ok (a : AgentAction) :
    build a.type a.reason a.toolName a.toolArgs a.receiver a.message a.artifact = .ok a := by
  unfold build
  rw [dif_neg (fun h => a.toolName_given h.1 h.2), dif_neg (fun h => a.receiver_given h.1 h.2),
    dif_neg (fun h => a.artifact_given h.1 h.2)]

/-- **Round trip.** -/
theorem validate_dump (a : AgentAction) : validate (.dict a.dump) = .ok a := by
  have hopt : ∀ (field : String) (o : Option String) (d : Dict), d.get? field = some (Json.ofOption o) →
      readOptStr d field = .ok o := by
    intro field o d h
    cases o <;> simp [readOptStr, h, Json.ofOption]
  have htool := hopt "tool_name" a.toolName a.dump (by simp [dump, Dict.get?_cons])
  have hreceiver := hopt "receiver" a.receiver a.dump (by simp [dump, Dict.get?_cons])
  simp only [validate, htool, hreceiver]
  simp [ensure, fields, readStr, readDict, dump, Dict.get?_cons, build_eq_ok]

end AgentAction

end CrazyHarness
