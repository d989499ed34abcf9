import CrazyHarness.Runtime.Terminals

/-! # The outbox

`_reconcile_routes` replays the log from the cursor of the process and routes every event
(`_route_event`); `_route_decision` routes the events of a decision at once.  An event for a worker
goes to its mailbox under a delivery name that the event and the receiver give.  The workers send
some deliveries of their own: `_release_prepared_task` when a pair of runs is released, and
`_fail_assignment` when an assignment fails. -/

namespace CrazyHarness

open Lib RuntimeM

/-- `_deliver`. -/
def deliver (dispatch : Option DispatchContext) (receiver : String) (e : Event)
    (deliveryId : String) : Resident Unit := do
  let _ ← DurableMailbox.send dispatch receiver e deliveryId
  return ()

/-- The name of the delivery of a routed event. -/
def routeId (e : Event) (receiver : String) : String := "route:" ++ e.id ++ ":" ++ receiver

/-! ### Capacity -/

/-- Whether a value can be put in a set or looked up in one. -/
def hashable : Json → Bool
  | .list _ => false
  | .dict _ => false
  | _ => true

/-- `set(value)`. -/
def setOf : Json → Resident (List Json)
  | .list items => if items.all hashable then pure items else throw .typeError
  | .str text => pure (text.toList.map (fun c => .str c.toString))
  | .dict items => pure (items.map (fun item => .str item.1))
  | _ => throw .typeError

/-- `any(…)` over a list, which stops at the first. -/
def anyOf {β : Type} (body : β → Resident Bool) : List β → Resident Bool
  | [] => pure false
  | x :: xs => do
      let found ← body x
      if found then pure true else anyOf body xs

/-- `required_sets` of a waiting event. -/
def requiredSets (waiting : Event) : Resident (List (List String)) :=
  match waiting.payload.getD "required_capability_sets" (.list []) with
  | .list sets => pure (sets.filterMap (fun set => set.asList.map (List.map Json.pyStr)))
  | .str _ => pure []
  | .dict _ => pure []
  | _ => throw .typeError

/-- The active leases of an agent. -/
def activeLoad (leases : List Dict) (agentId : String) : ℕ :=
  leases.countP (fun lease => lease.get? "status" = some (.str "active") ∧
    (lease.getD "agent_id" (.str "")).pyStr = agentId)

/-- An agent that has room. -/
def agentHasRoom (leases : List Dict) (sets : List (List String)) (agent : Dict) :
    Resident Bool := do
  let agentId ← required agent "agent_id"
  let maxConcurrency ← intOrRaise (agent.getD "max_concurrency" (.int 1))
  if (activeLoad leases agentId.pyStr : ℤ) < maxConcurrency then
    anyOf (fun capabilities => do
      let held ← setOf (agent.getD "capabilities" (.list []))
      return capabilities.all (fun capability => .str capability ∈ held)) sets
  else pure false

/-- An agent that could take one of the sets of capabilities. -/
def agentAvailable (leases : List Dict) (sets : List (List String)) (agent : Dict) :
    Resident Bool :=
  if (agent.getD "status" .null).pyStr ∈ ["idle", "busy"] then agentHasRoom leases sets agent
  else pure false

/-- The run of an event is running. -/
def runIsRunning (runId : String) : Resident Bool := do
  let run ← projection "run" runId
  return run.bind (fun run => run.get? "status") = some (.str "running")

/-- A nudge of the coordinator, and its delivery. -/
def nudgeCoordinator (cause : Event) (key : String) (payload : Dict) : Resident Bool := do
  let nudge ← appendDeterministic none cause key "agent.nudged" payload "runtime.supervisor"
  deliver none "coordinator" nudge (routeId nudge "coordinator")
  return true

/-- The nudge of `_route_capacity_waiter_if_ready`, if an agent is available. -/
def nudgeIfAvailable (waiting : Event) (available : Bool) : Resident Bool :=
  if available then
    nudgeCoordinator waiting ("capacity-available-nudge:" ++ waiting.id)
      [("agent_id", .str "coordinator"), ("kind", .str "capacity_available"),
        ("message", .str "Agent capacity changed; recompile the plan from durable status."),
        ("reason", (waiting.get? "reason").getD .null), ("waiting_event_id", .str waiting.id)]
  else pure false

/-- `_route_capacity_waiter_if_ready`, of a run that is running. -/
def routeReadyWaiter (waiting : Event) : Resident Bool := do
  let sets ← requiredSets waiting
  if sets = [] then pure false
  else do
    let projections ← snapshot none
    let available ← anyOf (agentAvailable (projections "lease") sets) (projections "agent")
    nudgeIfAvailable waiting available

/-- A run that no longer waits. -/
def dropWaiter (i : ℕ) (runId : String) : Resident Bool := do
  let _ ← memory i (.popWaiter runId)
  return false

/-- `_route_capacity_waiter_if_ready`. -/
def routeWaiterIfReady (i : ℕ) (waiting : Event) : Resident Bool := do
  let running ← runIsRunning waiting.runId
  if running then routeReadyWaiter waiting else dropWaiter i waiting.runId

/-- The loop of `_route_capacity_waiters`. -/
def routeEachWaiter (i : ℕ) : List Event → Resident Bool
  | [] => pure false
  | waiting :: rest => do
      let ready ← routeWaiterIfReady i waiting
      let routed ← routeEachWaiter i rest
      return ready || routed

/-- `_route_capacity_waiters`. -/
def routeCapacityWaiters (i : ℕ) : Resident Bool := do
  let waiters ← memory i .waiters
  routeEachWaiter i (((show List (String × Event) from waiters).map Prod.snd).insertionSort
    (fun e f => e.runId ≤ f.runId))

/-! ### Receivers -/

/-- The pair of a held assignment has been committed and the arm of its mode released, in the logs
of its run and of the pair. -/
def PairedCommitted (assignment : Event) (evalEvents : List Event) : Prop :=
  (∃ e ∈ evalEvents, e.type = "eval.pair.committed") ∧
    ∃ e ∈ evalEvents, e.type = "eval.arm.released" ∧
      (e.get? "execution_mode").getD .null = assignment.payload.getD "execution_mode" (.str "single")

instance (assignment : Event) (evalEvents : List Event) :
    Decidable (PairedCommitted assignment evalEvents) :=
  inferInstanceAs (Decidable (_ ∧ _))

/-- `_paired_assignment_is_committed`, with the links of the run. -/
def pairedCommittedBy (assignment : Event) : List Event → Resident Bool
  | [link] => do
      let evalEvents ← readAll (some (textOr link "eval_id" ""))
      return PairedCommitted assignment evalEvents
  | _ => pure false

/-- `_paired_assignment_is_committed`. -/
def pairedAssignmentIsCommitted (assignment : Event) : Resident Bool := do
  let events ← readAll (some assignment.runId)
  pairedCommittedBy assignment (events.filter (fun e => e.type = "eval.arm.linked"))

/-- An assignment that waits for the commit of its pair. -/
def Held (e : Event) : Prop :=
  e.type = "assignment.created" ∧ e.get? "release_policy" = some (.str "paired_eval_commit")

instance : DecidablePred Held := fun _ => inferInstanceAs (Decidable (_ ∧ _))

/-- The receiver that `_route_event` reads from an event. -/
def routeReceiver (e : Event) : Option Json :=
  if e.type = "assignment.created" then e.get? "agent_id"
  else if e.type ∈ ["agent.result.submitted", "a2a.peer.requested", "a2a.peer.responded"] then
    e.get? "receiver"
  else if e.type = "agent.nudged" then e.get? "agent_id"
  else none

/-- `_queue_dream`. -/
def queueDream (succeeded : Event) : Resident Unit := do
  let signalId := "signal_" ++ succeeded.runId
  let signal ← appendDeterministic none succeeded ("learning-signal:" ++ succeeded.runId)
    "learning.signal.detected"
    [("signal_id", .str signalId), ("kind", .str "successful_peer_reconciliation"),
      ("detector", .str "deterministic_rule")]
    "learning.detector"
  let recorded ← required signal.payload "signal_id"
  let job ← appendDeterministic none succeeded ("dream-job:" ++ succeeded.runId) "dream.job.queued"
    [("job_id", .str ("dream_" ++ succeeded.runId)), ("signal_id", recorded),
      ("receiver", .str "dream.worker")]
    "dream.scheduler" (some signal.id)
  deliver none "dream.worker" job ("dream:" ++ succeeded.runId)

/-- An event without a mailbox. -/
def routeElsewhere (e : Event) : Resident Bool :=
  if e.type = "run.succeeded" then do
    queueDream e
    return true
  else pure false

/-- The end of `_route_event`: to the mailbox of the receiver. -/
def routeTo (e : Event) (receiver : Option Json) : Resident Bool :=
  match receiver with
  | some (.str mailboxId) =>
      if mailboxId ∈ mailboxIds then do
        deliver none mailboxId e (routeId e mailboxId)
        return true
      else routeElsewhere e
  | some other => if hashable other then routeElsewhere e else throw .typeError
  | none => routeElsewhere e

/-- A held assignment is routed when its pair is committed. -/
def routeHeld (e : Event) (committed : Bool) : Resident Bool :=
  if committed then routeTo e (routeReceiver e) else pure false

/-- The part of `_route_event` about receivers. -/
def routeToReceiver (e : Event) : Resident Bool :=
  if Held e then do
    let committed ← pairedAssignmentIsCommitted e
    routeHeld e committed
  else routeTo e (routeReceiver e)

/-! ### `_route_event` -/

/-- A run waits for capacity. -/
def routeWaiting (i : ℕ) (e : Event) (running : Bool) : Resident Bool :=
  if running then do
    let _ ← memory i (.setWaiter e)
    routeWaiterIfReady i e
  else dropWaiter i e.runId

/-- A run has gone on. -/
def routeResumed (i : ℕ) (e : Event) : Resident Bool := do
  let waiters ← memory i .waiters
  let waiting := (show List (String × Event) from waiters).lookup e.runId
  if waiting.any (fun w => (e.get? "waiting_event_id").getD .null = .str w.id) then
    dropWaiter i e.runId
  else pure false

/-- The ends of a run drop its waiter. -/
def dropEnded (i : ℕ) (e : Event) : Resident Unit :=
  if e.type ∈ ["run.cancel.requested", "run.succeeded", "run.failed", "run.cancelled"] then do
    let _ ← memory i (.popWaiter e.runId)
    return ()
  else pure ()

/-- A plan that was refused because an agent had no room. -/
def CapacityRejection (e : Event) : Prop :=
  e.type = "candidate.rejected" ∧ e.get? "kind" = some (.str "plan_patch") ∧
    startsWith "agent_concurrency_exceeded:" (textOr e "reason" "")

instance : DecidablePred CapacityRejection := fun _ => inferInstanceAs (Decidable (_ ∧ _ ∧ _))

/-- The nudge after a refused plan. -/
def routeRejection (e : Event) (running : Bool) : Resident Bool :=
  if running then
    nudgeCoordinator e ("supervisor-capacity-nudge:" ++ e.id)
      [("agent_id", .str "coordinator"), ("candidate_id", (e.get? "candidate_id").getD .null),
        ("kind", .str "capacity_replan"),
        ("message", .str ("Plan admission raced with current agent capacity; " ++
          "recompile from durable status.")),
        ("reason", .str (textOr e "reason" "")), ("rejected_event_id", .str e.id)]
  else pure false

/-- A failure that was requested. -/
def routeFailure (i : ℕ) (e : Event) : Resident Bool := do
  let _ ← finalizeFailedRun i e (textOr e "reason" "model call failed")
  return true

/-- `_route_event`, after the waiters. -/
def routeFact (i : ℕ) (e : Event) : Resident Bool :=
  if e.type = "run.failure.requested" then routeFailure i e
  else if CapacityRejection e then do
    let running ← runIsRunning e.runId
    routeRejection e running
  else if e.type ∈ ["agent.registered", "assignment.lease.released", "runtime.agent.recovered"] then
    routeCapacityWaiters i
  else routeToReceiver e

/-- `_route_event`. -/
def routeEvent (i : ℕ) (e : Event) : Resident Bool :=
  if e.type = "orchestration.capacity.waiting" then do
    let running ← runIsRunning e.runId
    routeWaiting i e running
  else if e.type = "orchestration.capacity.resumed" then routeResumed i e
  else do
    dropEnded i e
    routeFact i e

/-- The loop of `_reconcile_routes`; the cursor of a record is its place in the log. -/
def reconcileFrom (i : ℕ) : ℕ → List Event → Resident ℕ
  | _, [] => pure 0
  | cursor, e :: rest => do
      let routed ← routeEvent i e
      let _ ← memory i (.setRouteCursor (cursor + 1))
      let others ← reconcileFrom i (cursor + 1) rest
      return others + if routed then 1 else 0

/-- `_reconcile_routes`. -/
def reconcileRoutes (i : ℕ) : Resident ℕ := do
  let cursor ← memory i .routeCursor
  let log ← readAll none
  reconcileFrom i cursor (log.drop cursor)

/-- `_route_decision`, of the events of a decision. -/
def routeDecision (i : ℕ) : List Event → Resident Unit
  | [] => pure ()
  | e :: rest => do
      let _ ← routeEvent i e
      routeDecision i rest

/-! ### The release of a pair -/

/-- A pair of runs. -/
structure PairContract where
  evalId : String
  singleRunId : String
  teamRunId : String

/-- The agent of a task pack for a single agent, by its name. -/
def singleAgentOf : List (String × String) :=
  [("repo-maintainer", "generalist"), ("evidence-research", "generalist")]

/-- What `_release_prepared_task` delivers, and to whom. -/
structure ReleaseTrigger where
  type : String
  receiver : String
  deliveryId : Event → String

/-- The trigger of a run with a single agent. -/
def singleTrigger (events : List Event) : Resident ReleaseTrigger := do
  let created ← firstOrStop events "run.created"
  let taskPack ← required created.payload "task_pack"
  match singleAgentOf.lookup taskPack.pyStr with
  | none => throw (.keyError taskPack.pyStr)
  | some agentId =>
      pure { type := "assignment.created", receiver := agentId, deliveryId := fun e => routeId e agentId }

/-- The trigger of a run, by its mode. -/
def releaseTrigger (single : Bool) (runId : String) (events : List Event) : Resident ReleaseTrigger :=
  if single then singleTrigger events
  else pure
    { type := "event.external.received", receiver := "coordinator",
      deliveryId := fun _ => "ingress:" ++ runId }

/-- The delivery of the only trigger. -/
def deliverTrigger (trigger : ReleaseTrigger) : List Event → Resident Unit
  | [e] => deliver none trigger.receiver e (trigger.deliveryId e)
  | _ => throw (.runtimeError "prepared run has no unique release trigger")

/-- `_release_prepared_task`. -/
def releasePreparedTask (single : Bool) (runId : String) : Resident Unit := do
  let events ← readAll (some runId)
  let trigger ← releaseTrigger single runId events
  deliverTrigger trigger (events.filter (fun e => e.type = trigger.type))

/-- `_run_created`, of the events of the run. -/
def uniqueRunCreated (events : List Event) : Resident Event :=
  match events.filter (fun e => e.type = "run.created") with
  | [created] => pure created
  | _ => throw (.runtimeError "run has no unique run.created event")

/-- The execution mode of an arm. -/
def modeOf (single : Bool) : String := if single then "single" else "team"

/-- The fact that an arm has been released. -/
def armReleased (evalId : String) (single : Bool) (runId taskId : String) (createdAt : DateTime) :
    Event where
  id := uuid5 ("crazy:eval:" ++ evalId ++ ":arm-released:" ++ modeOf single)
  runId := evalId
  taskId := evalId
  type := "eval.arm.released"
  source := "runtime.eval"
  payload := [("execution_mode", .str (modeOf single)), ("run_id", .str runId),
    ("task_id", .str taskId)]
  createdAt := createdAt

/-- An arm that has not been released before. -/
def releaseNewArm (evalId : String) (single : Bool) (runId : String) : Resident Unit := do
  let events ← readAll (some runId)
  let created ← uniqueRunCreated events
  releasePreparedTask single runId
  let _ ← append none (armReleased evalId single runId created.taskId)
  return ()

/-- One arm of `_release_contract`. -/
def releaseArm (evalId : String) (single : Bool) (runId : String) : Resident Unit := do
  let evalEvents ← readAll (some evalId)
  if ∃ e ∈ evalEvents, e.type = "eval.arm.released" ∧
      e.get? "execution_mode" = some (.str (modeOf single)) then pure ()
  else releaseNewArm evalId single runId

/-- `_release_contract`. -/
def releaseContract (contract : PairContract) : Resident Unit := do
  releaseArm contract.evalId true contract.singleRunId
  releaseArm contract.evalId false contract.teamRunId

/-! ### The failure of an assignment -/

/-- `TeamWorkerEngine._append`. -/
def teamAppend (dispatch : Option DispatchContext) (identity : Event) (key type : String)
    (payload : Dict) (causationId : Option String := none) : Resident Event :=
  append dispatch (fun createdAt =>
    { id := uuid5 ("crazy:" ++ identity.runId ++ ":" ++ key), runId := identity.runId,
      taskId := identity.taskId, type := type, source := "runtime.team", payload := payload,
      causationId := some (causationId.getD identity.id), createdAt := createdAt })

/-- The lease of a failed assignment. -/
def releaseFailedLease (dispatch : Option DispatchContext) (failed : Event) (assignmentId : String)
    (stageId agentId : Json) (lease : Option Dict) : Resident Unit :=
  if lease.bind (fun lease => lease.get? "status") = some (.str "active") then do
    let leaseId ← required (lease.getD []) "lease_id"
    let releasedAt ← now
    let _ ← teamAppend dispatch failed ("assignment-lease-released-after-failure:" ++ assignmentId)
      "assignment.lease.released"
      [("lease_id", leaseId), ("assignment_id", .str assignmentId), ("stage_id", stageId),
        ("agent_id", agentId), ("released_at", .time releasedAt), ("reason", .str "agent_run_failed")]
    return ()
  else pure ()

/-- The name of the delivery of `_fail_assignment`. -/
def teamFailureId (assignmentId : String) : String := "team:failure:" ++ assignmentId

/-- `_fail_assignment`. -/
def failAssignment (dispatch : Option DispatchContext) (assignment : Event)
    (reason causationId : String) : Resident Unit := do
  let assignmentIdJson ← required assignment.payload "assignment_id"
  let assignmentId := assignmentIdJson.pyStr
  let lease ← projection "lease" assignmentId
  let stageId ← required assignment.payload "stage_id"
  let agentId ← required assignment.payload "agent_id"
  let failed ← teamAppend dispatch assignment ("assignment-failed:" ++ assignmentId)
    "assignment.failed"
    [("assignment_id", .str assignmentId), ("stage_id", stageId), ("agent_id", agentId),
      ("reason", .str reason)]
    (some causationId)
  releaseFailedLease dispatch failed assignmentId stageId agentId lease
  let nudge ← teamAppend dispatch failed ("assignment-failure-nudge:" ++ assignmentId) "agent.nudged"
    [("agent_id", .str "coordinator"), ("assignment_id", .str assignmentId),
      ("kind", .str "assignment_failure"), ("message", .str reason)]
  deliver dispatch "coordinator" nudge (teamFailureId assignmentId)

end CrazyHarness
