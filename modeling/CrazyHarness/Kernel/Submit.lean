import CrazyHarness.Kernel.Reads

/-! # `ControlKernel.submit`

The only way from a candidate to formal facts.  The calls of the store that `submit` makes are
transactions of their own: the row of the command is looked up, begun, and committed together with
the facts of the decision.  Between them other callers may submit the same candidate, and the
process may die at any of them.

What is checked and which facts follow is told by `_validate` and `_materialize`; `submit` takes them
as it finds them. -/

namespace CrazyHarness

open Lib RuntimeM

/-! ### The kernel's interface -/

/-- The calls of the kernel to the store, besides its appends. -/
inductive KernelOp where
  | cancelled
  | commandRecord (idempotencyKey : String)
  | beginCommand (c : CommandCandidate)
  | read (op : ReadOp)
  | commitCommand (idempotencyKey : String) (state : CommandState) (decision : KernelDecision)
      (events : List Event) (precondition : Option (ReadM (Option String)))
      (guard : Option (String × Claims))

/-- What each returns. -/
def kernelInterface : Interface where
  Op := KernelOp
  Reply
    | .cancelled => Bool
    | .commandRecord _ => Option CommandRow
    | .beginCommand _ => Bool
    | .read op => op.Reply
    | .commitCommand _ _ _ _ _ _ => Except StoreError (List Event)

/-- Code of the kernel. -/
abbrev Kernel := RuntimeM kernelInterface

/-- One call. -/
def kernelCall (op : KernelOp) : Program (withStore kernelInterface) (kernelInterface.Reply op) :=
  @outside kernelInterface op

/-- Reading, one call after the other. -/
def reading {α : Type} : Program readInterface (Except StoreError α) → Kernel α
  | .done (.ok a) => pure a
  | .done (.error e) => throw (.store e)
  | .request op next =>
      Program.bind (kernelCall (.read op)) (fun r => reading (next r))

/-- What each call replies and does.  The precondition of a commit is evaluated in its transaction. -/
def kernelStep (w : StoreWorld) :
    (op : (withStore kernelInterface).Op) → (withStore kernelInterface).Reply op → StoreWorld → Prop
  | .inl op, r, w' => storeStep w op r w'
  | .inr .cancelled, _, w' => w' = w
  | .inr (.commandRecord idempotencyKey), (r : Option CommandRow), w' =>
      r = w.db.commandRecord idempotencyKey ∧ w' = w
  | .inr (.beginCommand c), (r : Bool), w' => ∃ now : DateTime, now.Aware ∧
      (r, w') = ((w.db.beginCommand c now).1, { w with db := (w.db.beginCommand c now).2 })
  | .inr (.read op), r, w' => ∃ now : DateTime, now.utcOffset = some 0 ∧
      r = op.reply w.db now ∧ w' = w
  | .inr (.commitCommand idempotencyKey state decision events precondition guard), r, w' =>
      ∃ now : DateTime, now.Aware ∧ (r, w') = w.returns (w.db.commitCommand idempotencyKey state
        decision events (precondition.map (fun check db => check.within db now)) guard now)

/-- The clock stands still, and no dispatch is cancelled. -/
def kernelStrategy (clock : DateTime) (hclock : clock.utcOffset = some 0) :
    Program.Strategy kernelStep where
  act
    | .inl op, w => some (storeStrategy clock op w)
    | .inr .cancelled, w => some ((false, w) : Bool × StoreWorld)
    | .inr (.commandRecord idempotencyKey), w =>
        some ((w.db.commandRecord idempotencyKey, w) : Option CommandRow × StoreWorld)
    | .inr (.beginCommand c), w =>
        some (((w.db.beginCommand c clock).1, { w with db := (w.db.beginCommand c clock).2 }) :
          Bool × StoreWorld)
    | .inr (.read op), w => some (op.reply w.db clock, w)
    | .inr (.commitCommand idempotencyKey state decision events precondition guard), w =>
        some (w.returns (w.db.commitCommand idempotencyKey state decision events
          (precondition.map (fun check db => check.within db clock)) guard clock))
  sound := by
    have haware : clock.Aware := by
      rw [DateTime.Aware, hclock]
      rfl
    intro op w r h
    cases op with
    | inl op =>
        cases h
        exact storeStrategy_sound hclock op w
    | inr op =>
        cases op with
        | cancelled =>
            cases h
            rfl
        | commandRecord idempotencyKey =>
            cases h
            exact ⟨rfl, rfl⟩
        | beginCommand c =>
            cases h
            exact ⟨clock, haware, rfl⟩
        | read op =>
            cases h
            exact ⟨clock, hclock, rfl, rfl⟩
        | commitCommand idempotencyKey state decision events precondition guard =>
            cases h
            exact ⟨clock, haware, rfl⟩

/-! ### Events of the kernel -/

/-- The identifier of an event of a command. -/
def kernelId (idempotencyKey suffix : String) : String :=
  uuid5 ("crazy:" ++ idempotencyKey ++ ":" ++ suffix)

/-- `_event`. -/
def kernelEvent (c : CommandCandidate) (suffix type : String) (payload : Dict)
    (source : String := "control.kernel") (causationId : Option String := none)
    (createdAt : DateTime) : Event where
  id := kernelId c.idempotencyKey suffix
  runId := c.runId
  taskId := c.taskId
  type := type
  source := source
  payload := payload
  causationId := causationId
  createdAt := createdAt

/-- `_append`. -/
def kernelAppend (dispatch : Option DispatchContext) (c : CommandCandidate) (suffix type : String)
    (payload : Dict) (source : String := "control.kernel") : Kernel Event :=
  append dispatch (kernelEvent c suffix type payload source none)

/-- `candidate.accepted`. -/
def acceptedEvent (c : CommandCandidate) (createdAt : DateTime) : Event :=
  kernelEvent c "accepted" "candidate.accepted"
    [("candidate_id", .str c.candidateId), ("idempotency_key", .str c.idempotencyKey),
      ("kind", .str c.kind.value), ("actor_id", .str c.actorId)]
    "control.kernel" none createdAt

/-- `candidate.rejected`. -/
def rejectedEvent (c : CommandCandidate) (reason : String) (createdAt : DateTime) : Event :=
  kernelEvent c "rejected" "candidate.rejected"
    [("candidate_id", .str c.candidateId), ("idempotency_key", .str c.idempotencyKey),
      ("kind", .str c.kind.value), ("reason", .str reason)]
    "control.kernel" none createdAt

/-- The second fact of a peer request that is refused. -/
def peerDeniedEvent (c : CommandCandidate) (reason rejectedId : String) (createdAt : DateTime) :
    Event :=
  kernelEvent c "peer-policy-denied" "a2a.policy.denied"
    [("candidate_id", .str c.candidateId),
      ("assignment_id", (c.payload.get? "assignment_id").getD .null),
      ("sender", .str c.actorId), ("receiver", (c.payload.get? "receiver").getD .null),
      ("reason", .str reason)]
    "control.kernel" (some rejectedId) createdAt

/-- `_reject`. -/
def rejectEvents (c : CommandCandidate) (reason : String) : Kernel (List Event) := do
  let createdAt ← now
  let rejected := rejectedEvent c reason createdAt
  if c.kind = .peerRequest then do
    let deniedAt ← now
    return [rejected, peerDeniedEvent c reason rejected.id deniedAt]
  else pure [rejected]

/-! ### Validation and materialisation -/

/-- An event that `_materialize` emits for a candidate that was accepted: it is caused by the
acceptance, and no decision itself. -/
structure EmittedFor (accepted : Event) (e : Event) : Prop where
  caused : e.causationId = some accepted.id
  undecided : e.type ≠ "candidate.accepted" ∧ e.type ≠ "candidate.rejected"

/-- `_validate` and `_materialize`. -/
structure KernelRules where
  validate : CommandCandidate → ReadM (Option String)
  materialize : CommandCandidate → Event → ReadM (List Event)
  emits : ∀ c accepted, Program.Asks (fun _ _ => True) (fun _ => True)
    (fun r => ∀ events, r = .ok events → ∀ e ∈ events, EmittedFor accepted e)
    (materialize c accepted)

/-! ### `submit` -/

/-- `raise_if_dispatch_cancelled`. -/
def raiseIfCancelled : Option DispatchContext → Kernel Unit
  | none => pure ()
  | some _ => do
      let cancelled ← lift (kernelCall .cancelled)
      if (show Bool from cancelled) then throw (.runtimeError "dispatch cancelled") else pure ()

/-- `_work_claim_guard`. -/
def workClaimGuard (dispatch : Option DispatchContext) : Kernel (Option (String × Claims)) := do
  raiseIfCancelled dispatch
  return dispatch.map (fun d => (d.claimOwnerId, d.claimTokens))

/-- `_commit_rejection`. -/
def commitRejection (dispatch : Option DispatchContext) (c : CommandCandidate) (recovered : Bool)
    (reason : String) : Kernel KernelDecision := do
  let events ← rejectEvents c reason
  let decision : KernelDecision :=
    { candidateId := c.candidateId, accepted := false, reason := reason,
      eventIds := events.map Event.id, recovered := recovered }
  let guard ← workClaimGuard dispatch
  let _ ← raising (kernelCall (.commitCommand c.idempotencyKey .rejected decision events none guard))
  return decision

/-- The commit of an acceptance; a precondition that fails makes it a rejection. -/
def commitAcceptance (K : KernelRules) (dispatch : Option DispatchContext) (c : CommandCandidate)
    (recovered : Bool) : Kernel KernelDecision := do
  let acceptedAt ← now
  let accepted := acceptedEvent c acceptedAt
  let formal ← reading (K.materialize c accepted)
  let decision : KernelDecision :=
    { candidateId := c.candidateId, accepted := true, reason := "accepted",
      eventIds := accepted.id :: formal.map Event.id, recovered := recovered }
  let guard ← workClaimGuard dispatch
  handle
    (do
      let _ ← raising (kernelCall (.commitCommand c.idempotencyKey .accepted decision
        (accepted :: formal) (some (K.validate c)) guard))
      return decision)
    (fun
      | .store (.commandPreconditionFailed reason) => commitRejection dispatch c recovered reason
      | e => throw e)

/-- The part of `submit` after the command was begun or recovered. -/
def decideCommand (K : KernelRules) (dispatch : Option DispatchContext) (c : CommandCandidate)
    (recovered : Bool) : Kernel KernelDecision := do
  let rejection ← reading (K.validate c)
  match rejection with
  | some reason => commitRejection dispatch c recovered reason
  | none => commitAcceptance K dispatch c recovered

/-- A command that was begun here. -/
def submitNew (K : KernelRules) (dispatch : Option DispatchContext) (c : CommandCandidate) :
    Kernel KernelDecision := do
  let _ ← kernelAppend dispatch c "submitted" "candidate.submitted"
    [("candidate_id", .str c.candidateId), ("idempotency_key", .str c.idempotencyKey),
      ("kind", .str c.kind.value), ("actor_id", .str c.actorId), ("payload", .dict c.payload)]
    c.actorId
  decideCommand K dispatch c false

/-- A command that was begun before and has not been decided. -/
def submitRecovered (K : KernelRules) (dispatch : Option DispatchContext) (c : CommandCandidate)
    (row : CommandRow) : Kernel KernelDecision :=
  if row.candidateId ≠ c.candidateId then
    throw (.valueError "idempotency key belongs to another candidate")
  else if row.candidate ≠ c then
    throw (.valueError "candidate changed while recovering an idempotent command")
  else do
    let _ ← kernelAppend dispatch c "recovered" "candidate.recovered"
      [("candidate_id", .str c.candidateId), ("idempotency_key", .str c.idempotencyKey),
        ("recovery", .str "resume_after_persisted_response")]
    decideCommand K dispatch c true

/-- A command with a row: its decision, or its recovery. -/
def submitRecorded (K : KernelRules) (dispatch : Option DispatchContext) (c : CommandCandidate)
    (row : CommandRow) : Kernel KernelDecision :=
  if row.state = .processing then submitRecovered K dispatch c row
  else
    match row.decision with
    | some decision => pure { decision with reused := true }
    | none => throw (.valueError "validation error for KernelDecision")

/-- `submit`, with a bound on its recursion: a row that another caller begins in between is looked
up again. -/
def submitFrom (K : KernelRules) (dispatch : Option DispatchContext) (c : CommandCandidate) :
    ℕ → Kernel KernelDecision
  | 0 => throw (.runtimeError "maximum recursion depth exceeded")
  | depth + 1 => do
      raiseIfCancelled dispatch
      let record ← lift (kernelCall (.commandRecord c.idempotencyKey))
      match (show Option CommandRow from record) with
      | some row => submitRecorded K dispatch c row
      | none => do
          let created ← lift (kernelCall (.beginCommand c))
          if (show Bool from created) then submitNew K dispatch c
          else submitFrom K dispatch c depth

/-- `submit`. -/
def submit (K : KernelRules) (dispatch : Option DispatchContext) (c : CommandCandidate) :
    Kernel KernelDecision :=
  submitFrom K dispatch c 1000

end CrazyHarness
