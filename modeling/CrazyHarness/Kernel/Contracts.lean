import CrazyHarness.Core.Events

/-! # Command candidates and decisions

The two records that cross the kernel's boundary (`control_plane/kernel.py`): the
untrusted proposal a model or service submits and the decision it gets back. -/

namespace CrazyHarness

open Lib

/-- The kinds of command a candidate may propose. -/
inductive CommandKind where
  | planPatch
  | evidence
  | peerRequest
  | peerResponse
  | artifact
  | review
  | complete
  | memory
  | evolution
deriving DecidableEq

/-- `kind.value`. -/
def CommandKind.value : CommandKind → String
  | .planPatch => "plan_patch"
  | .evidence => "evidence"
  | .peerRequest => "peer_request"
  | .peerResponse => "peer_response"
  | .artifact => "artifact"
  | .review => "review"
  | .complete => "complete"
  | .memory => "memory"
  | .evolution => "evolution"

/-- Untrusted model or service proposal; it is not executable authority.  The identifying
fields are non-empty (`min_length=1`). -/
structure CommandCandidate where
  candidateId : String
  idempotencyKey : String
  runId : String
  taskId : String
  actorId : String
  kind : CommandKind
  payload : Dict := []
  idempotencyKey_ne : idempotencyKey ≠ "" := by decide
  runId_ne : runId ≠ "" := by decide
  taskId_ne : taskId ≠ "" := by decide
  actorId_ne : actorId ≠ "" := by decide

/-- The other fields are proofs. -/
instance : DecidableEq CommandCandidate := fun a b =>
  decidable_of_iff
    (a.candidateId = b.candidateId ∧ a.idempotencyKey = b.idempotencyKey ∧ a.runId = b.runId ∧
      a.taskId = b.taskId ∧ a.actorId = b.actorId ∧ a.kind = b.kind ∧ a.payload = b.payload)
    (by cases a; cases b; simp)

/-- The kernel's answer to a candidate. -/
structure KernelDecision where
  candidateId : String
  accepted : Bool
  reason : String
  eventIds : List String := []
  reused : Bool := false
  recovered : Bool := false
deriving DecidableEq

end CrazyHarness
