import CrazyHarness.Runtime.Leases

/-! # The ends of a run

Every writer of the facts `run.succeeded`, `run.failed` and `run.cancelled`: `cancel_run` and the
loop that resumes it, the finalisation of a failed run and its loop, the dead letter of the
scheduler, and the end of a run with a single agent.  The kernel's `COMPLETE` is the fourth kind;
its commit is one transaction of the store. -/

namespace CrazyHarness

open Lib RuntimeM

/-- `self.mailboxes`, in order. -/
def mailboxIds : List String :=
  ["coordinator", "scout", "scout-backup", "builder", "reviewer", "generalist", "dream.worker",
    "context.evolver"]

/-- A text of a payload, `default` when it is absent. -/
def textOr (e : Event) (key default : String) : String :=
  (e.payload.getD key (.str default)).pyStr

/-- The first event of a type. -/
def firstOf (events : List Event) (type : String) : Option Event :=
  events.find? (fun e => e.type = type)

/-- `next(event for event in events if event.type == type)`. -/
def firstOrStop (events : List Event) (type : String) : Resident Event :=
  match firstOf events type with
  | some e => pure e
  | none => throw (.runtimeError "StopIteration")

/-- The last event of a type. -/
def lastOf (events : List Event) (type : String) : Option Event := firstOf events.reverse type

/-- The sum of a count over a list. -/
def countEach {β : Type} (body : β → Resident ℕ) : List β → Resident ℕ
  | [] => pure 0
  | x :: xs => do
      let n ← body x
      let m ← countEach body xs
      return n + m

/-! ### The scheduler -/

/-- `ResidentScheduler._append`, of an event with a key. -/
def schedulerAppend (dispatch : Option DispatchContext) (identity : Event) (type : String)
    (payload : Dict) (key : String) (causationId taskId : Option String := none) : Resident Event :=
  append dispatch (fun createdAt =>
    { id := uuid5 ("crazy:scheduler:" ++ identity.runId ++ ":" ++ key), runId := identity.runId,
      taskId := taskId.getD identity.taskId, type := type, source := "runtime.scheduler",
      payload := payload, causationId := some (causationId.getD identity.id),
      createdAt := createdAt })

/-- The claim tokens of a dispatch, in a payload. -/
def claimsJson (claims : Claims) : Json := .dict (claims.map (fun claim => (claim.1, .int claim.2)))

/-- One delivery that is asked to stop. -/
def requestDeliveryCancellation (reason : String) (r : Reservation) : Resident Unit := do
  let _ ← schedulerAppend none r.delivery.event "runtime.delivery.cancellation.requested"
    [("agent_id", .str r.workerId), ("delivery_id", .str r.delivery.deliveryId),
      ("reason", .str reason), ("claim_tokens", claimsJson r.claims)]
    ("cancel-requested:" ++ r.delivery.deliveryId ++ ":" ++ reason)
  return ()

/-- `ResidentScheduler.cancel_run`. -/
def schedulerCancelRun (i : ℕ) (runId reason : String) (recordEvents : Bool) : Resident ℕ := do
  let targets ← memory i (.cancelRun runId reason)
  if recordEvents then each (requestDeliveryCancellation reason) targets else pure ()
  return (show List Reservation from targets).length

/-- `in_flight_for_run`. -/
def inFlightForRun (i : ℕ) (runId : String) : Resident ℕ := do
  let inFlight ← memory i .inFlight
  return (show List Reservation from inFlight).countP (fun r => r.delivery.event.runId = runId)

/-! ### Assignments and leases -/

/-- What `_cancel_assignments_and_leases` and `_fail_assignments_and_leases` differ in. -/
structure Closing where
  assignmentKey : String
  assignmentType : String
  leaseKey : String
  leaseReason : String
  source : String

/-- An assignment that is not terminal becomes so. -/
def closeAssignment (c : Closing) (identity : Event) (reason : String) (assignment : Dict) :
    Resident Unit :=
  if assignmentTerminal (assignment.get? "status") then pure ()
  else do
    let assignmentId ← required assignment "assignment_id"
    let _ ← appendDeterministic none identity (c.assignmentKey ++ ":" ++ assignmentId.pyStr)
      c.assignmentType
      [("assignment_id", .str assignmentId.pyStr),
        ("agent_id", (assignment.get? "agent_id").getD .null),
        ("stage_id", (assignment.get? "stage_id").getD .null), ("reason", .str reason)]
      c.source
    return ()

/-- An active lease is released. -/
def closeLease (c : Closing) (identity : Event) (lease : Dict) : Resident Unit :=
  if lease.get? "status" = some (.str "active") then do
    let assignmentId ← required lease "assignment_id"
    let leaseId ← required lease "lease_id"
    let _ ← appendDeterministic none identity (c.leaseKey ++ ":" ++ assignmentId.pyStr)
      "assignment.lease.released"
      [("lease_id", leaseId), ("assignment_id", .str assignmentId.pyStr),
        ("agent_id", (lease.get? "agent_id").getD .null),
        ("stage_id", (lease.get? "stage_id").getD .null), ("reason", .str c.leaseReason)]
      c.source
    return ()
  else pure ()

/-- Both loops, over one snapshot. -/
def closeAssignmentsAndLeases (c : Closing) (identity : Event) (reason : String) : Resident Unit := do
  let projections ← snapshot (some identity.runId)
  each (closeAssignment c identity reason) (projections "assignment")
  each (closeLease c identity) (projections "lease")

/-- `_cancel_assignments_and_leases`. -/
def cancelAssignmentsAndLeases : Event → String → Resident Unit :=
  closeAssignmentsAndLeases
    { assignmentKey := "assignment-cancelled", assignmentType := "assignment.cancelled",
      leaseKey := "cancel-lease-released", leaseReason := "run_cancelled",
      source := "runtime.cancel" }

/-- `_fail_assignments_and_leases`. -/
def failAssignmentsAndLeases : Event → String → Resident Unit :=
  closeAssignmentsAndLeases
    { assignmentKey := "model-failed-assignment", assignmentType := "assignment.failed",
      leaseKey := "model-failed-lease-released",
      leaseReason := "run_failed_after_terminal_model_call", source := "runtime.model-governance" }

/-! ### Queued deliveries -/

/-- `try: mailbox.ack(...) except UnfencedAckError`: whether it was acked. -/
def ackUnlessFenced (mailboxId deliveryId : String) : Resident Bool :=
  handle
    (do
      DurableMailbox.ack none mailboxId deliveryId
      return true)
    (fun
      | .store (.unfencedAck _) => pure false
      | e => throw e)

/-- The fact that a queued delivery of a run has come to its end. -/
def deliveryCancelled (key mailboxId : String) (d : Delivery) (reason mode source : String) :
    Resident Unit := do
  let _ ← appendDeterministic none d.event (key ++ ":" ++ mailboxId ++ ":" ++ d.deliveryId)
    "runtime.delivery.cancelled"
    [("agent_id", .str mailboxId), ("delivery_id", .str d.deliveryId), ("reason", .str reason),
      ("mode", .str mode)]
    source
  return ()

/-- One delivery of `_cancel_queued_deliveries`: acked first. -/
def cancelQueuedDelivery (runId reason mailboxId : String) (d : Delivery) : Resident ℕ :=
  if d.event.runId = runId then do
    let acked ← ackUnlessFenced mailboxId d.deliveryId
    if acked then do
      deliveryCancelled "queued-delivery-cancelled" mailboxId d reason "queued" "runtime.cancel"
      return 1
    else pure 0
  else pure 0

/-- One delivery of `_fail_queued_deliveries`: its claims are fenced, and it is acked last. -/
def failQueuedDelivery (runId reason mailboxId : String) (d : Delivery) : Resident ℕ :=
  if d.event.runId = runId then do
    let _ ← raising (call (.failWorkClaimBundle ("delivery:" ++ mailboxId ++ ":" ++ d.deliveryId)))
    deliveryCancelled "failed-run-delivery" mailboxId d reason "run_failed"
      "runtime.model-governance"
    let acked ← ackUnlessFenced mailboxId d.deliveryId
    return if acked then 1 else 0
  else pure 0

/-- A loop over the pending deliveries of every mailbox. -/
def overPending (body : String → Delivery → Resident ℕ) : Resident ℕ :=
  countEach (fun mailboxId => do
    let pending ← DurableMailbox.pending mailboxId
    countEach (body mailboxId) pending) mailboxIds

/-- `_cancel_queued_deliveries`. -/
def cancelQueuedDeliveries (runId reason : String) : Resident ℕ :=
  overPending (cancelQueuedDelivery runId reason)

/-- `_fail_queued_deliveries`. -/
def failQueuedDeliveries (runId reason : String) : Resident ℕ :=
  overPending (failQueuedDelivery runId reason)

/-- Some mailbox still has a delivery of the run. -/
def anyPending (runId : String) : List String → Resident Bool
  | [] => pure false
  | mailboxId :: mailboxIds => do
      let pending ← DurableMailbox.pending mailboxId
      if pending.any (fun d => d.event.runId = runId) then pure true
      else anyPending runId mailboxIds

/-! ### Cancellation -/

/-- The end of `_finalize_cancelled_run`: nothing of the run is under way. -/
def runCancelledUnless (busy : Bool) (identity : Event) (reason : String) : Resident Bool :=
  if busy then pure false
  else do
    let _ ← appendDeterministic none identity ("run-cancelled:" ++ identity.runId) "run.cancelled"
      [("reason", .str reason)] "runtime.cancel"
    return true

/-- `_finalize_cancelled_run`. -/
def finalizeCancelledRun (i : ℕ) (identity : Event) (reason : String) : Resident Bool := do
  let inFlight ← inFlightForRun i identity.runId
  if inFlight ≠ 0 then pure false
  else do
    let pending ← anyPending identity.runId mailboxIds
    runCancelledUnless pending identity reason

/-- What `cancel_run` returns. -/
structure CancelResult where
  runId : String
  status : String
  activeCancelled : ℕ := 0
  queuedCancelled : ℕ := 0
deriving DecidableEq

/-- `projection["status"]`, of a run that is known. -/
def statusText (run : Option Dict) : Resident String := do
  let status ← required (run.getD []) "status"
  return status.pyStr

/-- `cancel_run` of a run that has not ended. -/
def cancelLiveRun (i : ℕ) (runId reason : String) : Resident CancelResult := do
  let events ← readAll (some runId)
  let identity ← firstOrStop events "run.created"
  let requested ← appendDeterministic none identity ("run-cancel-requested:" ++ runId)
    "run.cancel.requested" [("reason", .str reason)] "runtime.cancel"
  let activeCancelled ← schedulerCancelRun i runId reason true
  cancelAssignmentsAndLeases requested reason
  let queuedCancelled ← cancelQueuedDeliveries runId reason
  let _ ← finalizeCancelledRun i requested reason
  let run ← projection "run" runId
  let status ← statusText run
  return { runId, status, activeCancelled, queuedCancelled }

/-- `cancel_run`, once the run was looked up. -/
def cancelKnownRun (i : ℕ) (runId reason : String) : Option Dict → Resident CancelResult
  | none => throw (.keyError ("unknown run: " ++ runId))
  | some run =>
      if runTerminal (run.get? "status") then do
        let status ← statusText (some run)
        return { runId, status }
      else cancelLiveRun i runId reason

/-- `cancel_run`. -/
def cancelRun (i : ℕ) (runId reason : String) : Resident CancelResult := do
  let run ← projection "run" runId
  cancelKnownRun i runId reason run

/-- One run of `_reconcile_cancellations`. -/
def reconcileCancellation (i : ℕ) (run : Dict) : Resident ℕ :=
  if run.get? "status" ∈ [some (.str "cancelling"), some (.str "cancelled")] then do
    let runIdJson ← required run "run_id"
    let runId := runIdJson.pyStr
    let events ← readAll (some runId)
    let requested := lastOf events "run.cancel.requested"
    let reason := (requested.map (fun e => textOr e "reason" "operator_requested")).getD
      "operator_requested"
    let _ ← schedulerCancelRun i runId reason true
    let identity ← reconcileIdentity runId requested
    cancelAssignmentsAndLeases identity reason
    let changed ← cancelQueuedDeliveries runId reason
    if run.get? "status" = some (.str "cancelling") ∧ requested.isSome then do
      let finalized ← finalizeCancelledRun i identity reason
      return changed + if finalized then 1 else 0
    else pure changed
  else pure 0
where
  /-- `requested or next(...)`. -/
  reconcileIdentity (runId : String) : Option Event → Resident Event
    | some requested => pure requested
    | none => do
        let events ← readAll (some runId)
        firstOrStop events "run.created"

/-- `_reconcile_cancellations`. -/
def reconcileCancellations (i : ℕ) : Resident ℕ := do
  let projections ← snapshot none
  countEach (reconcileCancellation i) (projections "run")

/-! ### Failure -/

/-- `_fail_team_run_from_model`. -/
def failTeamRunFromModel (dispatch : Option DispatchContext) (identity : Event) (reason : String) :
    Resident Unit := do
  let run ← projection "run" identity.runId
  if run.isNone ∨ runTerminal (run.bind (fun run => run.get? "status")) then pure ()
  else do
    let _ ← appendDeterministic dispatch identity
      ("run-failure-requested:" ++ identity.runId ++ ":model:" ++ identity.id)
      "run.failure.requested"
      [("reason", .str reason), ("failure_class", .str "terminal_model_call"),
        ("failure_scope", .str "run")]
      "runtime.model-governance"
    return ()

/-- The end of `_finalize_failed_run`, with the status that was read at its start. -/
def runFailedUnless (failed : Bool) (requested : Event) (reason : String) : Resident Bool :=
  if failed then pure true
  else do
    let _ ← appendDeterministic none requested ("run-failed:" ++ requested.runId ++ ":model")
      "run.failed"
      [("reason", .str reason), ("failure_class", .str "terminal_model_call"),
        ("failure_scope", .str "run")]
      "runtime.model-governance"
    return true

/-- `_finalize_failed_run`, of the status that was read. -/
def finalizeFailedFrom (i : ℕ) (requested : Event) (reason : String) (status : Option Json) :
    Resident Bool := do
  let _ ← schedulerCancelRun i requested.runId reason false
  failAssignmentsAndLeases requested reason
  let _ ← failQueuedDeliveries requested.runId reason
  runFailedUnless (status = some (.str "failed")) requested reason

/-- `_finalize_failed_run`. -/
def finalizeFailedRun (i : ℕ) (requested : Event) (reason : String) : Resident Bool := do
  let run ← projection "run" requested.runId
  let status := run.bind (fun run => run.get? "status")
  if run.isNone ∨ status ∈ [some (.str "succeeded"), some (.str "cancelled")] then pure false
  else finalizeFailedFrom i requested reason status

/-- One run of `_reconcile_failed_runs`. -/
def reconcileFailedRun (i : ℕ) (run : Dict) : Resident ℕ :=
  if run.get? "status" = some (.str "failed") then do
    let runIdJson ← required run "run_id"
    let runId := runIdJson.pyStr
    let events ← readAll (some runId)
    let reason := ((lastOf events "run.failed").map (fun e => textOr e "reason" "run failed")).getD
      "run failed"
    let _ ← schedulerCancelRun i runId reason false
    failQueuedDeliveries runId reason
  else pure 0

/-- `_reconcile_failed_runs`. -/
def reconcileFailedRuns (i : ℕ) : Resident ℕ := do
  let projections ← snapshot none
  countEach (reconcileFailedRun i) (projections "run")

/-! ### Dead letters -/

/-- The assignment of a lease that a dead letter ends, unless it has ended. -/
def deadLetterAssignment (dispatch : Option DispatchContext) (d : Delivery) (deadLetter : Event)
    (rootTaskId assignmentId : String) (lease : Dict) (assignment : Option Dict) : Resident Unit :=
  if assignment.isSome ∧ (assignment.bind (fun a => a.get? "status")) ∉
      [some (.str "succeeded"), some (.str "completed"), some (.str "failed"), some (.str "expired")]
    then do
      let _ ← schedulerAppend dispatch d.event "assignment.failed"
        [("assignment_id", .str assignmentId), ("agent_id", (lease.get? "agent_id").getD .null),
          ("reason", .str "delivery_dead_lettered"), ("dead_letter_event_id", .str deadLetter.id)]
        ("dead-letter-assignment-failed:" ++ d.deliveryId ++ ":" ++ assignmentId)
        (some deadLetter.id) (some rootTaskId)
      return ()
    else pure ()

/-- The facts about one active lease of a run that a dead letter fails. -/
def deadLetterLease (dispatch : Option DispatchContext) (d : Delivery) (deadLetter : Event)
    (rootTaskId : String) (lease : Dict) : Resident Unit := do
  let assignmentIdJson ← required lease "assignment_id"
  let assignmentId := assignmentIdJson.pyStr
  let assignment ← projection "assignment" assignmentId
  deadLetterAssignment dispatch d deadLetter rootTaskId assignmentId lease assignment
  let _ ← schedulerAppend dispatch d.event "assignment.lease.released"
    [("lease_id", lease.getD "lease_id" (.str ("lease:" ++ assignmentId))),
      ("assignment_id", .str assignmentId), ("stage_id", (lease.get? "stage_id").getD .null),
      ("agent_id", (lease.get? "agent_id").getD .null),
      ("reason", .str "run_failed_after_delivery_dead_letter"),
      ("dead_letter_event_id", .str deadLetter.id)]
    ("dead-letter-lease-released:" ++ d.deliveryId ++ ":" ++ assignmentId)
    (some deadLetter.id) (some rootTaskId)
  return ()

/-- `_fail_running_run_for_dead_letter`, of a run that is running. -/
def deadLetterRunning (dispatch : Option DispatchContext) (d : Delivery) (deadLetter : Event)
    (rootTaskId : String) : Resident (Option Event) := do
  let projections ← snapshot (some d.event.runId)
  each (deadLetterLease dispatch d deadLetter rootTaskId) (activeLeases (projections "lease"))
  let failed ← schedulerAppend dispatch d.event "run.failed"
    [("reason", .str "delivery_dead_lettered"),
      ("failure", .str (textOr deadLetter "reason" "unknown failure")),
      ("delivery_id", .str d.deliveryId), ("dead_letter_event_id", .str deadLetter.id)]
    ("dead-letter-run-failed:" ++ d.deliveryId) (some deadLetter.id) (some rootTaskId)
  return some failed

/-- `_fail_running_run_for_dead_letter`. -/
def failRunningRunForDeadLetter (dispatch : Option DispatchContext) (d : Delivery)
    (deadLetter : Event) : Resident (Option Event) := do
  let run ← projection "run" d.event.runId
  if run.bind (fun run => run.get? "status") = some (.str "running") then
    deadLetterRunning dispatch d deadLetter
      ((truthyText (run.bind (fun run => run.get? "task_id"))).getD d.event.taskId)
  else pure none

/-! ### A run with a single agent -/

/-- `_finish_single_run`. -/
def finishSingleRun (dispatch : Option DispatchContext) (trigger : Event) (succeeded : Bool)
    (reason : String) : Resident Unit := do
  let assignmentType := if succeeded then "assignment.completed" else "assignment.failed"
  let assignment ← appendDeterministic dispatch trigger
    ("single-assignment-terminal:" ++ trigger.taskId ++ ":" ++ assignmentType) assignmentType
    [("assignment_id", .str trigger.taskId), ("agent_id", .str "generalist"),
      ("reason", .str reason)]
    "runtime.single"
  let runType := if succeeded then "run.succeeded" else "run.failed"
  let _ ← appendDeterministic dispatch assignment
    ("single-run-terminal:" ++ trigger.runId ++ ":" ++ runType) runType
    [("reason", .str reason), ("agent_id", .str "generalist")]
    "runtime.single"
  return ()

end CrazyHarness
