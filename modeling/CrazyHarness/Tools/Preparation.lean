import CrazyHarness.Lib.Decode
import CrazyHarness.Tools.Validation

/-! # Preparation of a request

`ToolPipeline.prepare`: the schema, the hooks, the schema again and the policy, in this order.  A hook is
any function of the payload that it is given; it may change the payload, return another value in its
place or raise.

`prepare_authorized` says what a request that comes through has been checked for, whatever the hooks did. -/

namespace CrazyHarness

open Lib

/-! ### Tools with their metadata -/

/-- A flag of a tool: a value, or a function of the arguments that may raise. -/
inductive MetadataFlag where
  | value (b : Bool)
  | callable (f : Dict → Except String Bool)

/-- The flag for these arguments. -/
def MetadataFlag.read (flag : MetadataFlag) (args : Dict) : Except String Bool :=
  match flag with
  | .value b => .ok b
  | .callable f => f args

/-- A tool as it is registered, where a flag may depend on the arguments. -/
structure RegisteredSpec where
  name : String
  inputSchema : Dict := []
  sideEffectLevel : String := "none"
  approvalRequired : MetadataFlag := .value false
  isReadOnly : MetadataFlag := .value false
  isDestructive : MetadataFlag := .value false
  isConcurrencySafe : MetadataFlag := .value false
  allowedAgents : Option (Finset String) := none
  allowedAssignments : Option (Finset String) := none
  allowedModes : Option (Finset String) := none

/-- `_metadata_flag` of the planner: a flag that raises is not set. -/
def plannerFlag (flag : MetadataFlag) (args : Dict) : Bool := (flag.read args).toOption.getD false

/-- What the planner and the ledger read of a tool that is called with these arguments. -/
def RegisteredSpec.at (spec : RegisteredSpec) (args : Dict) : ToolSpec where
  name := spec.name
  inputSchema := spec.inputSchema
  sideEffectLevel := spec.sideEffectLevel
  isReadOnly := plannerFlag spec.isReadOnly args
  isDestructive := plannerFlag spec.isDestructive args
  isConcurrencySafe := plannerFlag spec.isConcurrencySafe args

/-! ### The policy -/

/-- `PolicyContext`. -/
structure PolicyContext where
  agentId : SizedString 1 none
  assignmentId : SizedString 1 none
  mode : SizedString 1 none
  allowedTools : Finset String := ∅
  approvedTools : Finset String := ∅

/-- `PolicyDecision`. -/
structure PolicyDecision where
  allowed : Bool
  reason : String
  approvalRequired : Bool := false
deriving DecidableEq

/-- `ToolPolicy`; a table of grants has no entry twice. -/
structure ToolPolicy where
  grants : Option (List ((String × String × String) × Finset String)) := none
  destructiveModes : Finset String := {"llm-live"}

/-- `_deny`. -/
def denied (reason : String) (approvalRequired : Bool := false) : PolicyDecision :=
  ⟨false, reason, approvalRequired⟩

/-- `metadata_flag` of the policy: a flag that raises is an error. -/
def metadataFlag (flag : MetadataFlag) (field : String) (args : Dict) : Except String Bool :=
  (flag.read args).mapError (fun exc => field ++ ": " ++ exc)

/-- Whether the call is destructive and whether it needs an approval. -/
def riskOf (spec : RegisteredSpec) (args : Dict) : Except String (Bool × Bool) := do
  let destructive ← metadataFlag spec.isDestructive "is_destructive" args
  let approvalRequired ←
    if destructive then .ok true else metadataFlag spec.approvalRequired "approval_required" args
  return (destructive, approvalRequired)

namespace PolicyContext

variable (context : PolicyContext)

/-- The key of a grant. -/
def grantKey : String × String × String :=
  (context.agentId.1, context.assignmentId.1, context.mode.1)

/-- The key as `repr` writes it. -/
def grantKeyRepr : String :=
  "(" ++ Json.reprStr context.agentId.1 ++ ", " ++ Json.reprStr context.assignmentId.1 ++ ", " ++
    Json.reprStr context.mode.1 ++ ")"

/-- `_has_approval`. -/
def hasApproval (toolName : String) : Prop :=
  ∃ key ∈ ["*", toolName, context.assignmentId.1 ++ ":" ++ toolName,
    context.agentId.1 ++ ":" ++ context.assignmentId.1 ++ ":" ++ toolName],
    key ∈ context.approvedTools

instance (toolName : String) : Decidable (context.hasApproval toolName) := by
  unfold hasApproval
  infer_instance

/-- The limits that a tool may have, with what they are compared to. -/
def constraints (spec : RegisteredSpec) : List (Option (Finset String) × String × String) :=
  [(spec.allowedAgents, context.agentId.1, "agent"),
    (spec.allowedAssignments, context.assignmentId.1, "assignment"),
    (spec.allowedModes, context.mode.1, "mode")]

/-- The first limit that the context does not keep. -/
def broken (spec : RegisteredSpec) : Option (Option (Finset String) × String × String) :=
  (context.constraints spec).find? (fun c => ∃ values ∈ c.1, c.2.1 ∉ values)

end PolicyContext

namespace ToolPolicy

variable (policy : ToolPolicy) (call : ToolCall) (spec : RegisteredSpec) (context : PolicyContext)

/-- The tools that a table of grants has for the context. -/
def granted (grants : List ((String × String × String) × Finset String)) : Finset String :=
  (grants.lookup context.grantKey).getD ∅

/-- `evaluate`. -/
def evaluate : PolicyDecision :=
  if call.name ≠ spec.name then denied "tool call does not match its registered specification"
  else if call.name ∉ context.allowedTools then
    denied ("tool " ++ Json.reprStr call.name ++ " is not allowed for assignment " ++
      Json.reprStr context.assignmentId.1)
  else if ∃ grants ∈ policy.grants, call.name ∉ granted context grants then
    denied ("no policy grant for " ++ context.grantKeyRepr ++ " and tool " ++ Json.reprStr call.name)
  else
    match context.broken spec with
    | some (_, actual, label) =>
        denied ("tool " ++ Json.reprStr call.name ++ " is not allowed for " ++ label ++ " " ++
          Json.reprStr actual)
    | none =>
        match riskOf spec call.args with
        | .error exc => denied ("tool metadata evaluation failed closed: " ++ exc)
        | .ok (destructive, approvalRequired) =>
            if destructive ∧ context.mode.1 ∉ policy.destructiveModes then
              denied ("destructive tool " ++ Json.reprStr call.name ++ " is disabled in mode " ++
                Json.reprStr context.mode.1)
            else if approvalRequired ∧ ¬ context.hasApproval call.name then
              denied ("approval is required for tool " ++ Json.reprStr call.name ++ " in assignment " ++
                Json.reprStr context.assignmentId.1) true
            else ⟨true, "authorized", approvalRequired⟩

/-- `require`. -/
def require : Except PipelineError PolicyDecision :=
  if (policy.evaluate call spec context).allowed then .ok (policy.evaluate call spec context)
  else .error (.policyDenied (policy.evaluate call spec context).reason)

variable {policy call spec context}

theorem require_ok_iff {decision : PolicyDecision} :
    policy.require call spec context = .ok decision ↔
      policy.evaluate call spec context = decision ∧ decision.allowed = true := by
  unfold require
  split
  next h =>
    rw [Except.ok.injEq]
    exact ⟨fun heq => ⟨heq, heq ▸ h⟩, fun heq => heq.1⟩
  next h =>
    constructor
    · intro heq
      cases heq
    · rintro ⟨rfl, hallowed⟩
      exact absurd hallowed h

/-- A tool whose risk cannot be told is denied. -/
theorem riskOf_of_allowed (h : (policy.evaluate call spec context).allowed = true) :
    ∃ risk, riskOf spec call.args = .ok risk := by
  cases hrisk : riskOf spec call.args with
  | ok risk => exact ⟨risk, rfl⟩
  | error exc =>
      unfold evaluate at h
      rw [hrisk] at h
      split at h
      · cases h
      · split at h
        · cases h
        · split at h
          · cases h
          · split at h <;> cases h

end ToolPolicy

/-! ### Hooks -/

/-- A handler of hooks: the payload as it leaves it and what it returns, unless it raises. -/
abbrev HookHandler := Json → Except String (Json × Json)

/-- `HookManager`: the handlers of each event, in the order they were registered. -/
structure HookManager where
  handlers : String → List HookHandler

/-- The loop of `emit`; a handler that returns `None` leaves the payload to the next one. -/
def emitAll : List HookHandler → Json → Except String Json
  | [], current => .ok current
  | handler :: handlers, current => do
      let (left, updated) ← handler current
      emitAll handlers (if updated = .null then left else updated)

/-- `HookManager.emit`. -/
def HookManager.emit (hooks : HookManager) (eventName : String) (payload : Dict) :
    Except String Json :=
  emitAll (hooks.handlers eventName) (.dict payload)

/-- `PreToolHookPayload`. -/
structure PreToolHookPayload where
  callId : String
  toolName : String
  args : Dict
  agentId : String
  assignmentId : String
  mode : String
deriving DecidableEq

namespace PreToolHookPayload

/-- `model_dump`. -/
def dump (p : PreToolHookPayload) : Dict :=
  [("call_id", .str p.callId), ("tool_name", .str p.toolName), ("args", .dict p.args),
    ("agent_id", .str p.agentId), ("assignment_id", .str p.assignmentId), ("mode", .str p.mode)]

/-- `model_validate`. -/
def validate (emitted : Json) : Option PreToolHookPayload := do
  let d ← emitted.asDict
  d.onlyFields ["call_id", "tool_name", "args", "agent_id", "assignment_id", "mode"]
  let callId ← d.field "call_id" Json.asStr
  let toolName ← d.field "tool_name" Json.asStr
  let args ← d.field "args" Json.asDict
  let agentId ← d.field "agent_id" Json.asStr
  let assignmentId ← d.field "assignment_id" Json.asStr
  let mode ← d.field "mode" Json.asStr
  return { callId, toolName, args, agentId, assignmentId, mode }

/-- A payload that no hook has touched is read back. -/
theorem validate_dump (p : PreToolHookPayload) : validate (.dict p.dump) = some p := rfl

/-- What a hook may not change. -/
def authority (p : PreToolHookPayload) : String × String × String × String × String :=
  (p.callId, p.toolName, p.agentId, p.assignmentId, p.mode)

end PreToolHookPayload

/-! ### Preparation -/

/-- The text of pydantic's error for what the hooks have made of the payload. -/
abbrev PayloadErrors := Json → String

/-- `ToolPipeline`, with what the preparation uses of it. -/
structure ToolPipeline where
  registry : Table RegisteredSpec.name
  policy : ToolPolicy := {}
  hooks : Option HookManager := none

namespace ToolPipeline

variable (search : PatternSearch) (errors : PayloadErrors) (pipeline : ToolPipeline)
  (context : PolicyContext) (request : ToolRequest)

/-- The payload of the hooks. -/
def original : PreToolHookPayload where
  callId := request.callId
  toolName := request.call.name
  args := request.call.args
  agentId := context.agentId.1
  assignmentId := context.assignmentId.1
  mode := context.mode.1

/-- The hooks are run and what they leave is read. -/
def patched (hooks : HookManager) (p : PreToolHookPayload) : Except PipelineError PreToolHookPayload :=
  match hooks.emit "pre_tool_use" p.dump with
  | .error exc => .error (.validation ("pre-tool hook failed closed: " ++ exc))
  | .ok emitted =>
      match PreToolHookPayload.validate emitted with
      | none => .error (.validation ("pre-tool hook failed closed: " ++ errors emitted))
      | some patched => .ok patched

/-- The call after the hooks. -/
def patchedCall : Except PipelineError ToolCall :=
  match pipeline.hooks with
  | none => .ok request.call
  | some hooks => do
      let p ← patched errors hooks (original context request)
      ensure (p.authority = (original context request).authority)
        (.policyDenied "pre-tool hook may patch args but cannot expand authority")
      return { name := p.toolName, args := p.args }

/-- `prepare`. -/
def prepare : Except PipelineError ToolInvocation :=
  match pipeline.registry.lookup request.call.name with
  | none => .error (.validation ("unknown tool: " ++ request.call.name))
  | some spec => do
      validateToolArgs search (.dict request.call.args) (.dict spec.inputSchema)
      let call ← pipeline.patchedCall errors context request
      validateToolArgs search (.dict call.args) (.dict spec.inputSchema)
      let _ ← pipeline.policy.require call spec context
      return { callId := request.callId, call, spec := spec.at call.args,
               idempotencyKey := request.idempotencyKey.getD request.callId }

/-- What a request that has come through was checked for. -/
structure Authorized (spec : RegisteredSpec) (i : ToolInvocation) : Prop where
  registered : pipeline.registry.lookup request.call.name = some spec
  tool : i.spec = spec.at i.call.args
  name : i.call.name = request.call.name
  callId : i.callId = request.callId
  idempotencyKey : i.idempotencyKey = request.idempotencyKey.getD request.callId
  /-- What the hooks left is the payload of the request, up to the arguments. -/
  payload : ∀ hooks ∈ pipeline.hooks, ∃ emitted,
    hooks.emit "pre_tool_use" (original context request).dump = .ok emitted ∧
      PreToolHookPayload.validate emitted = some { original context request with args := i.call.args }
  unpatched : pipeline.hooks = none → i.call = request.call
  requested : validateToolArgs search (.dict request.call.args) (.dict spec.inputSchema) = .ok ()
  accepted : validateToolArgs search (.dict i.call.args) (.dict spec.inputSchema) = .ok ()
  allowed : (pipeline.policy.evaluate i.call spec context).allowed = true

variable {search errors pipeline context request}

theorem patched_ok_iff {hooks : HookManager} {p p' : PreToolHookPayload} :
    patched errors hooks p = .ok p' ↔ ∃ emitted, hooks.emit "pre_tool_use" p.dump = .ok emitted ∧
      PreToolHookPayload.validate emitted = some p' := by
  unfold patched
  cases hooks.emit "pre_tool_use" p.dump with
  | error exc => simp
  | ok emitted => cases hread : PreToolHookPayload.validate emitted <;> simp [hread]

/-- The hooks have changed the arguments at most. -/
theorem patchedCall_ok {call : ToolCall} (h : pipeline.patchedCall errors context request = .ok call) :
    call.name = request.call.name ∧ (pipeline.hooks = none → call = request.call) ∧
      ∀ hooks ∈ pipeline.hooks, patched errors hooks (original context request) =
        .ok { original context request with args := call.args } := by
  unfold patchedCall at h
  split at h
  next hnone =>
    obtain rfl := Except.ok.inj h
    exact ⟨rfl, fun _ => rfl, by simp [hnone]⟩
  next hooks hsome =>
    obtain ⟨p, hp, h⟩ := bind_ok_iff.mp h
    obtain ⟨_, hsame, h⟩ := bind_ok_iff.mp h
    obtain rfl := Except.ok.inj h
    rw [ensure_ok_iff] at hsame
    simp only [PreToolHookPayload.authority, Prod.mk.injEq] at hsame
    obtain ⟨hcallId, hname, hagent, hassignment, hmode⟩ := hsame
    refine ⟨hname, by simp [hsome], ?_⟩
    intro hooks' hhooks
    rw [hsome] at hhooks
    obtain rfl := Option.some.inj hhooks
    rw [hp]
    refine congrArg Except.ok ?_
    cases p
    simp_all

/-- **What a prepared request was checked for**, whatever its hooks did. -/
theorem prepare_authorized {i : ToolInvocation}
    (h : pipeline.prepare search errors context request = .ok i) :
    ∃ spec, Authorized search pipeline context request spec i := by
  unfold prepare at h
  split at h
  next => cases h
  next spec hspec =>
    obtain ⟨_, hrequested, h⟩ := bind_ok_iff.mp h
    obtain ⟨call, hcall, h⟩ := bind_ok_iff.mp h
    obtain ⟨_, haccepted, h⟩ := bind_ok_iff.mp h
    obtain ⟨decision, hdecision, h⟩ := bind_ok_iff.mp h
    obtain rfl := Except.ok.inj h
    obtain ⟨hname, hunpatched, hpatched⟩ := patchedCall_ok hcall
    obtain ⟨heval, hallowed⟩ := ToolPolicy.require_ok_iff.mp hdecision
    refine ⟨spec, ?_⟩
    exact
      { registered := hspec
        tool := rfl
        name := hname
        callId := rfl
        idempotencyKey := rfl
        payload := fun hooks hhooks => patched_ok_iff.mp (hpatched hooks hhooks)
        unpatched := hunpatched
        requested := hrequested
        accepted := haccepted
        allowed := by rw [heval]; exact hallowed }

/-- A tool that is called is not one whose destructiveness cannot be told. -/
theorem Authorized.isDestructive {spec : RegisteredSpec} {i : ToolInvocation}
    (h : Authorized search pipeline context request spec i) :
    spec.isDestructive.read i.call.args = .ok i.spec.isDestructive := by
  obtain ⟨risk, hrisk⟩ := ToolPolicy.riskOf_of_allowed h.allowed
  obtain ⟨destructive, hread, -⟩ := bind_ok_iff.mp hrisk
  rw [h.tool]
  unfold metadataFlag at hread
  show _ = Except.ok (plannerFlag spec.isDestructive i.call.args)
  unfold plannerFlag
  cases hflag : spec.isDestructive.read i.call.args with
  | ok b => rfl
  | error exc =>
      rw [hflag] at hread
      cases hread

/-- The final arguments meet a schema of the subset in all their parts, under Python's equality. -/
theorem Authorized.meets {spec : RegisteredSpec} {i : ToolInvocation}
    (h : Authorized search pipeline context request spec i) (hok : SchemaOk spec.inputSchema)
    {v : Json} {s : Dict} (hpart : Governs (.dict i.call.args) spec.inputSchema v s) :
    Meets Json.pyEq v s :=
  (validateToolArgs_ok_iff search (.dict i.call.args) hok).mp h.accepted v s hpart

end ToolPipeline

end CrazyHarness
