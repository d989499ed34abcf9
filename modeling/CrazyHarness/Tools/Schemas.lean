import CrazyHarness.Lib.Json

/-! # Tools, calls and invocations

The records of `core/tools/schemas.py` and `core/tools/concurrency.py`. -/

namespace CrazyHarness

open Lib

/-- What a tool declares about itself; only what the pipeline reads. -/
structure ToolSpec where
  name : String
  inputSchema : Dict := []
  sideEffectLevel : String := "none"
  isReadOnly : Bool := false
  isDestructive : Bool := false
  isConcurrencySafe : Bool := false
deriving DecidableEq

/-- A tool with its arguments. -/
structure ToolCall where
  name : String
  args : Dict := []
deriving DecidableEq

/-- What a tool returns. -/
structure ToolResult where
  name : String
  status : String
  output : String := ""
  error : Option String := none
  artifactRef : Option String := none
deriving DecidableEq

/-- Case folding of a character, as far as it leads to the letters of the words below. -/
def casefoldChar (c : Char) : List Char :=
  match c with
  | 'ſ' => ['s']
  | '\u212a' => ['k']
  | 'ß' | 'ẞ' => ['s', 's']
  | c => [c.toLower]

/-- `result.status.casefold() in {"ok", "success", "succeeded"}`. -/
def ToolResult.Successful (r : ToolResult) : Prop :=
  r.status.toList.flatMap casefoldChar ∈
    ["ok".toList, "success".toList, "succeeded".toList]

instance : DecidablePred ToolResult.Successful := fun r =>
  inferInstanceAs (Decidable (r.status.toList.flatMap casefoldChar ∈ _))

/-- A request to call a tool; without a key of its own the call id is the key. -/
structure ToolRequest where
  call : ToolCall
  callId : String
  idempotencyKey : Option String := none
deriving DecidableEq

/-- A request that has passed validation, hooks and policy. -/
structure ToolInvocation where
  callId : String
  call : ToolCall
  spec : ToolSpec
  idempotencyKey : String
deriving DecidableEq

/-- The statuses a call settles with. -/
inductive SettledStatus where
  | fulfilled
  | rejected
  | unknown
  | cached
  | duplicate
deriving DecidableEq

/-- `model_dump(mode="json")`. -/
def ToolResult.dump (r : ToolResult) : Dict :=
  [("name", .str r.name), ("status", .str r.status), ("output", .str r.output),
    ("error", Json.ofOption r.error), ("artifact_ref", Json.ofOption r.artifactRef)]

/-- The settled outcome of one invocation. -/
structure SettledToolResult where
  callId : String
  status : SettledStatus
  operationId : Option String := none
  result : Option ToolResult := none
  error : Option String := none
deriving DecidableEq

/-- Invocations that may run together. -/
structure ExecutionBatch where
  index : ℕ
  calls : List ToolInvocation
  concurrent : Bool
deriving DecidableEq

/-- `_is_parallel_safe`. -/
def ToolInvocation.parallelSafe (i : ToolInvocation) : Bool :=
  i.spec.isReadOnly && !i.spec.isDestructive && i.spec.isConcurrencySafe

/-- The batch of a non-empty run of parallel-safe calls. -/
def flushSafeSegment (batches : List ExecutionBatch) (segment : List ToolInvocation) :
    List ExecutionBatch :=
  if segment = [] then batches
  else batches ++ [⟨batches.length, segment, decide (1 < segment.length)⟩]

/-- `ConsecutiveSafePlanner.plan`: adjacent safe reads together, everything else alone. -/
def planBatches (batches : List ExecutionBatch) (segment : List ToolInvocation) :
    List ToolInvocation → List ExecutionBatch
  | [] => flushSafeSegment batches segment
  | call :: calls =>
      if call.parallelSafe then planBatches batches (segment ++ [call]) calls
      else
        let flushed := flushSafeSegment batches segment
        planBatches (flushed ++ [⟨flushed.length, [call], false⟩]) [] calls

end CrazyHarness
