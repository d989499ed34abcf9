import CrazyHarness.Runtime.Cancellation

/-! # The resident scheduler

`ResidentScheduler.run_once`: reserve the next pending delivery by claiming its work, run its
handler, and ack it together with the end of the claim.  `dispatch_available` does the same on a
pool of threads, which here are threads of the pool.  The lock of a scheduler, which only orders
its own threads, is left out: all orders are allowed. -/

namespace CrazyHarness

open Lib RuntimeM

/-- A scheduler; a worker's mailbox has its name. -/
structure SchedulerConfig where
  ownerId : String
  maxWorkers : ℕ := 2
  workClaimSeconds : ℤ := 180
  workers : List (String × ℕ)

/-! ### Claim keys -/

/-- `agent_run_id` of `_claim_keys`. -/
def agentRunId (workerId : String) (e : Event) : String :=
  if workerId = "coordinator" then "supervisor:" ++ e.runId
  else
    match truthyText (e.get? "agent_run_id") with
    | some id => id
    | none =>
        if e.type = "a2a.peer.requested" then
          "peer:" ++ e.runId ++ ":" ++ textOr e "correlation_id" e.id
        else
          match truthyText (e.get? "assignment_id") with
          | some id => "assignment:" ++ e.runId ++ ":" ++ id
          | none => "task:" ++ e.runId ++ ":" ++ e.taskId ++ ":" ++ workerId

/-- The claim key of a delivery. -/
def deliveryKey (mailboxId deliveryId : String) : String :=
  "delivery:" ++ mailboxId ++ ":" ++ deliveryId

/-- `_claim_keys`, with a worker slot. -/
def claimKeys (workerId : String) (d : Delivery) (slot : ℕ) : List String :=
  [deliveryKey workerId d.deliveryId, "agent-run:" ++ agentRunId workerId d.event,
    "worker-slot:" ++ workerId ++ ":" ++ toString slot]

/-! ### Reserving -/

/-- The first result of a loop. -/
def firstSome {β γ : Type} (body : β → Resident (Option γ)) : List β → Resident (Option γ)
  | [] => pure none
  | x :: xs => do
      let found ← body x
      match found with
      | some y => pure (some y)
      | none => firstSome body xs

/-- One slot of a worker. -/
def claimSlot (cfg : SchedulerConfig) (workerId : String) (d : Delivery) (slot : ℕ) :
    Resident (Option Claims) := do
  let claimedAt ← now
  raising (call (.claimWork (claimKeys workerId d slot) cfg.ownerId cfg.workClaimSeconds claimedAt
    (some d.event.runId)))

/-- Remember the reservation, and where the next selection starts. -/
def reserve (i next : ℕ) (workerId : String) (d : Delivery) :
    Option Claims → Resident (Option Reservation)
  | none => pure none
  | some claims => do
      let _ ← memory i (.reserve { workerId, delivery := d, claims })
      let _ ← memory i (.setSelectionCursor next)
      return some { workerId, delivery := d, claims }

/-- One pending delivery of a worker. -/
def reserveDelivery (cfg : SchedulerConfig) (i next : ℕ) (allowedRunIds : Option (List String))
    (workerId : String) (maxConcurrency : ℕ) (d : Delivery) : Resident (Option Reservation) :=
  if ∃ allowed ∈ allowedRunIds, d.event.runId ∉ allowed then pure none
  else do
    let cancelledRuns ← memory i .cancelledRuns
    if d.event.runId ∈ (show List String from cancelledRuns) then pure none
    else do
      let inFlight ← memory i .inFlight
      if ∃ r ∈ (show List Reservation from inFlight), r.workerId = workerId ∧
          r.delivery.deliveryId = d.deliveryId then pure none
      else do
        let claims ← firstSome (claimSlot cfg workerId d) (List.range maxConcurrency)
        reserve i next workerId d claims

/-- How many deliveries of a worker are in flight. -/
def workerInFlight (i : ℕ) (workerId : String) : Resident ℕ := do
  let inFlight ← memory i .inFlight
  return (show List Reservation from inFlight).countP (fun r => r.workerId = workerId)

/-- One worker of the selection. -/
def reserveWorker (cfg : SchedulerConfig) (i : ℕ) (allowedRunIds : Option (List String))
    (worker : ℕ × String × ℕ) : Resident (Option Reservation) := do
  let (next, workerId, maxConcurrency) := worker
  let active ← workerInFlight i workerId
  if maxConcurrency ≤ active then pure none
  else do
    let pending ← DurableMailbox.pending workerId
    firstSome (reserveDelivery cfg i next allowedRunIds workerId maxConcurrency) pending

/-- The workers from the cursor on, each with the cursor that its selection leaves. -/
def selection (workers : List (String × ℕ)) (cursor : ℕ) : List (ℕ × String × ℕ) :=
  (List.range workers.length).filterMap (fun offset =>
    let index := (cursor + offset) % workers.length
    (workers[index]?).map (fun worker => ((index + 1) % workers.length, worker)))

/-- `_reserve_next_locked`. -/
def reserveNext (cfg : SchedulerConfig) (i : ℕ) (allowedRunIds : Option (List String)) :
    Resident (Option Reservation) := do
  let accepting ← memory i .accepting
  let inFlight ← memory i .inFlight
  if (show Bool from accepting) = false ∨
      cfg.maxWorkers ≤ (show List Reservation from inFlight).length then pure none
  else do
    let cursor ← memory i .selectionCursor
    firstSome (reserveWorker cfg i allowedRunIds) (selection cfg.workers cursor)

/-! ### Records of a claim -/

/-- `":".join(f"{key}={token}" …)` over the sorted claims. -/
def tokenKey (claims : Claims) : String :=
  String.intercalate ":" ((claims.insertionSort (fun a b => a.1 ≤ b.1)).map
    (fun claim => claim.1 ++ "=" ++ toString claim.2))

/-- `_record_claim_state`, without a deadline. -/
def recordClaimState (r : Reservation) (type state : String) : Resident Unit := do
  let _ ← schedulerAppend none r.delivery.event type
    [("agent_id", .str r.workerId), ("delivery_id", .str r.delivery.deliveryId),
      ("claim_tokens", claimsJson r.claims), ("state", .str state), ("expires_at", .null)]
    ("claim-state:" ++ type ++ ":" ++ r.delivery.deliveryId ++ ":" ++ tokenKey r.claims ++ ":None")
  return ()

/-- `_record_claim_lost`. -/
def recordClaimLost (r : Reservation) (reason : String) : Resident Unit := do
  let _ ← schedulerAppend none r.delivery.event "runtime.delivery.claim.lost"
    [("agent_id", .str r.workerId), ("delivery_id", .str r.delivery.deliveryId),
      ("claim_tokens", claimsJson r.claims), ("reason", .str reason)]
    ("claim-lost:" ++ r.workerId ++ ":" ++ r.delivery.deliveryId ++ ":" ++ reason ++ ":" ++
      tokenKey r.claims)
  return ()

/-- What follows an attempt to end the claims. -/
def recordFinish (r : Reservation) (finished : Bool) (state lostReason : String) : Resident Unit :=
  if finished then recordClaimState r "runtime.delivery.claim.released" state
  else recordClaimLost r lostReason

/-- `_finish_claims_with_ack`. -/
def finishClaimsWithAck (cfg : SchedulerConfig) (r : Reservation) (allowCancelledRun : Bool) :
    Resident Bool := do
  let ack ← DurableMailbox.ackEventOf r.workerId r.delivery.deliveryId
  let createdAt ← now
  let finished ← raising (call (.finishWorkClaims r.claims cfg.ownerId .completed
    (some (ack createdAt)) allowCancelledRun))
  recordFinish r finished "completed" "ack_fence_rejected"
  return finished

/-! ### Running a handler -/

/-- The context of a dispatch. -/
def dispatchContext (cfg : SchedulerConfig) (r : Reservation) : DispatchContext where
  workerId := r.workerId
  deliveryId := r.delivery.deliveryId
  claimOwnerId := cfg.ownerId
  claimTokens := r.claims

/-- `ResidentScheduler._append`, of an event without a key. -/
def schedulerNote (dispatch : Option DispatchContext) (identity : Event) (type : String)
    (payload : Dict) : Resident Event := do
  let id ← uuid
  append dispatch (fun createdAt =>
    { id := id, runId := identity.runId, taskId := identity.taskId, type := type,
      source := "runtime.scheduler", payload := payload, causationId := some identity.id,
      createdAt := createdAt })

/-- The facts about a dispatch, before its handler. -/
def recordDispatch (cfg : SchedulerConfig) (i maxConcurrency : ℕ) (r : Reservation) :
    Resident ℕ := do
  let log ← readAll none
  let attempt := 1 + log.countP (fun e => e.type = "runtime.delivery.dispatched" ∧
    e.get? "delivery_id" = some (.str r.delivery.deliveryId))
  let inFlight ← memory i .inFlight
  let active := (show List Reservation from inFlight).length
  let workerActive := (show List Reservation from inFlight).countP (fun s => s.workerId = r.workerId)
  recordClaimState r "runtime.delivery.claim.acquired" "active"
  let _ ← schedulerAppend none r.delivery.event "runtime.delivery.dispatched"
    [("agent_id", .str r.workerId), ("delivery_id", .str r.delivery.deliveryId),
      ("attempt", .int attempt), ("active", .int active), ("capacity", .int cfg.maxWorkers),
      ("worker_in_flight", .int workerActive), ("worker_capacity", .int maxConcurrency),
      ("claim_tokens", claimsJson r.claims)]
    ("dispatch:" ++ r.workerId ++ ":" ++ r.delivery.deliveryId ++ ":" ++ toString attempt)
  return workerActive

/-- `_dead_letter`. -/
def deadLetterOf (log : List Event) (deliveryId : String) : Option Event :=
  log.reverse.find? (fun e => e.type = "mailbox.delivery.dead_lettered" ∧
    e.get? "delivery_id" = some (.str deliveryId))

/-- `cancellation.raise_if_cancelled()`: how the dispatch ends if it has been cancelled. -/
def cancellationOf (i : ℕ) (r : Reservation) : Resident (Option String) := do
  let inFlight ← memory i .inFlight
  return ((show List Reservation from inFlight).find? (fun s => s.workerId = r.workerId ∧
    s.delivery.deliveryId = r.delivery.deliveryId)).bind Reservation.cancelled

/-- The handler, between two checks for a cancellation. -/
def runHandler (cfg : SchedulerConfig) (i : ℕ) (r : Reservation) : Resident HandlerEnd := do
  let before ← cancellationOf i r
  match before with
  | some reason => pure (.cancelled reason)
  | none => do
      let _ ← lift (@outside residentInterface (.handle cfg.ownerId r))
      let ended ← lift (@outside residentInterface .outcome)
      afterHandler ended
where
  /-- The second check. -/
  afterHandler : HandlerEnd → Resident HandlerEnd
    | .returned => do
        let after ← cancellationOf i r
        match after with
        | some reason => pure (.cancelled reason)
        | none => pure .returned
    | ended => pure ended

/-- The agent is busy, and its handler runs. -/
def handleDelivery (cfg : SchedulerConfig) (i maxConcurrency workerActive : ℕ) (r : Reservation) :
    Resident HandlerEnd := do
  let _ ← schedulerNote none r.delivery.event "runtime.agent.busy"
    [("agent_id", .str r.workerId), ("delivery_id", .str r.delivery.deliveryId),
      ("in_flight", .int workerActive), ("max_concurrency", .int maxConcurrency)]
  runHandler cfg i r

/-! ### The ends of a dispatch -/

/-- What a dispatch leaves: whether its claims have ended, and its exception. -/
abbrev Ending := Bool × Except RuntimeError Unit

/-- End the claims, and go on. -/
def settle (finish : Resident Bool) (rest : Bool → Resident Unit) :
    Program (withStore residentInterface) Ending :=
  Program.bind finish (fun
    | .error e => .done (false, .error e)
    | .ok finished => Program.bind (rest finished) (fun out => .done (finished, out)))

/-- The facts after a handler that returned. -/
def recordCompletion (i : ℕ) (r : Reservation) (finished : Bool) : Resident Unit :=
  if finished then do
    let active ← workerInFlight i r.workerId
    let remaining := active - 1
    let _ ← schedulerNote none r.delivery.event "runtime.agent.step.completed"
      [("agent_id", .str r.workerId), ("delivery_id", .str r.delivery.deliveryId),
        ("in_flight", .int remaining)]
    if remaining = 0 then do
      let _ ← schedulerNote none r.delivery.event "runtime.agent.idle"
        [("agent_id", .str r.workerId), ("in_flight", .int 0)]
      return ()
    else pure ()
  else pure ()

/-- The fact after a handler that was cancelled. -/
def recordCancellation (r : Reservation) (reason : String) (finished : Bool) : Resident Unit :=
  if finished then do
    let _ ← schedulerAppend none r.delivery.event "runtime.delivery.cancelled"
      [("agent_id", .str r.workerId), ("delivery_id", .str r.delivery.deliveryId),
        ("reason", .str reason), ("mode", .str "cooperative")]
      ("delivery-cancelled:" ++ r.delivery.deliveryId)
    return ()
  else pure ()

/-- `try: p except WorkClaimLost`. -/
def unlessLost {α : Type} (p : Resident α) (lost : α) : Resident α :=
  handle p (fun
    | .store (.workClaimLost _) => pure lost
    | e => throw e)

/-- `MAX_DELIVERY_FAILURES`. -/
def maxDeliveryFailures : ℕ := 3

/-- The facts of a delivery that has failed too often. -/
def deadLetterDelivery (dispatch : DispatchContext) (r : Reservation) (reason : String)
    (attempts : ℕ) (crashed : Event) : Resident Bool := do
  let d := r.delivery
  let deadLetter ← schedulerAppend (some dispatch) d.event "mailbox.delivery.dead_lettered"
    [("mailbox_id", .str r.workerId), ("agent_id", .str r.workerId),
      ("delivery_id", .str d.deliveryId), ("delivery_event_id", .str d.event.id),
      ("attempts", .int attempts), ("reason", .str reason)]
    ("dead-letter:" ++ d.deliveryId) (some crashed.id)
  let _ ← schedulerAppend (some dispatch) d.event "runtime.agent.degraded"
    [("agent_id", .str r.workerId), ("delivery_id", .str d.deliveryId),
      ("reason", .str "delivery_dead_lettered")]
    ("dead-letter-degraded:" ++ d.deliveryId) (some crashed.id)
  let _ ← failRunningRunForDeadLetter (some dispatch) d deadLetter
  return true

/-- `_handle_unexpected_failure`. -/
def handleUnexpectedFailure (dispatch : DispatchContext) (r : Reservation) (reason : String) :
    Resident Bool := do
  let d := r.delivery
  let log ← readAll none
  let attempts := 1 + log.countP (fun e => e.type = "runtime.agent.crashed" ∧
    e.get? "delivery_id" = some (.str d.deliveryId) ∧
    e.get? "failure_class" = some (.str "unexpected_exception"))
  let crashed ← schedulerAppend (some dispatch) d.event "runtime.agent.crashed"
    [("agent_id", .str r.workerId), ("delivery_id", .str d.deliveryId), ("reason", .str reason),
      ("failure_class", .str "unexpected_exception"), ("attempt", .int attempts),
      ("redelivery", .bool (attempts < maxDeliveryFailures))]
    ("unexpected-crash:" ++ d.deliveryId ++ ":" ++ toString attempts)
  if attempts < maxDeliveryFailures then pure false
  else deadLetterDelivery dispatch r reason attempts crashed

/-- A program that has not ended the claims. -/
def unfinished (p : Resident Unit) : Program (withStore residentInterface) Ending :=
  Program.bind p (fun out => .done (false, out))

/-- Ack a delivery that is given up, or keep it. -/
def settleFailure (cfg : SchedulerConfig) (r : Reservation) (shouldAck : Resident Bool) :
    Program (withStore residentInterface) Ending :=
  Program.bind shouldAck (fun
    | .error e => .done (false, .error e)
    | .ok true => settle (finishClaimsWithAck cfg r false) (fun _ => pure ())
    | .ok false => .done (false, .ok ()))

/-- How a dispatch ends, by the end of its handler. -/
def endDispatch (cfg : SchedulerConfig) (i : ℕ) (r : Reservation) :
    HandlerEnd → Program (withStore residentInterface) Ending
  | .returned => settle (finishClaimsWithAck cfg r false) (recordCompletion i r)
  | .cancelled reason =>
      if startsWith "work claim renewal" reason then .done (false, .ok ())
      else settle (finishClaimsWithAck cfg r true) (recordCancellation r reason)
  | .claimLost => .done (false, .ok ())
  | .crashed reason =>
      unfinished (unlessLost (do
        let _ ← schedulerNote (some (dispatchContext cfg r)) r.delivery.event "runtime.agent.crashed"
          [("agent_id", .str r.workerId), ("delivery_id", .str r.delivery.deliveryId),
            ("reason", .str reason), ("redelivery", .bool true)]
        return ()) ())
  | .raised reason =>
      settleFailure cfg r
        (unlessLost (handleUnexpectedFailure (dispatchContext cfg r) r reason) false)

/-- A delivery with a dead letter is not handled, only acked. -/
def dispatchOrAck (cfg : SchedulerConfig) (i maxConcurrency workerActive : ℕ) (r : Reservation) :
    Option Event → Program (withStore residentInterface) Ending
  | some deadLetter =>
      settle (do
        let _ ← failRunningRunForDeadLetter none r.delivery deadLetter
        finishClaimsWithAck cfg r false) (fun _ => pure ())
  | none =>
      Program.bind (handleDelivery cfg i maxConcurrency workerActive r) (fun
        | .error e => .done (false, .error e)
        | .ok ended => endDispatch cfg i r ended)

/-- The body of `_execute_reserved`. -/
def dispatchBody (cfg : SchedulerConfig) (i maxConcurrency : ℕ) (r : Reservation) :
    Program (withStore residentInterface) Ending :=
  Program.bind (show Resident (ℕ × Option Event) from do
    let workerActive ← recordDispatch cfg i maxConcurrency r
    let log ← readAll none
    return (workerActive, deadLetterOf log r.delivery.deliveryId)) (fun
    | .error e => .done (false, .error e)
    | .ok (workerActive, deadLetter) =>
        dispatchOrAck cfg i maxConcurrency workerActive r deadLetter)

/-- Claims that have not ended are released. -/
def releaseUnfinished (cfg : SchedulerConfig) (r : Reservation) (finished : Bool) : Resident Unit :=
  if finished then pure ()
  else do
    let released ← raising (call (.finishWorkClaims r.claims cfg.ownerId .released none false))
    recordFinish r released "released" "terminal_fence_rejected"

/-- `_execute_reserved`. -/
def executeReserved (cfg : SchedulerConfig) (i maxConcurrency : ℕ) (r : Reservation) :
    Resident Unit :=
  Program.bind (dispatchBody cfg i maxConcurrency r) (fun (finished, out) =>
    Program.bind (releaseUnfinished cfg r finished) (fun released =>
      Program.bind (memory i (.release r.workerId r.delivery.deliveryId)) (fun _ =>
        .done (released.bind (fun _ => out)))))

/-- The concurrency a worker was registered with. -/
def maxConcurrencyOf (cfg : SchedulerConfig) (workerId : String) : ℕ :=
  (cfg.workers.lookup workerId).getD 1

/-- `run_once`, after the selection. -/
def executeSelected (cfg : SchedulerConfig) (i : ℕ) : Option Reservation → Resident Bool
  | none => pure false
  | some r => do
      executeReserved cfg i (maxConcurrencyOf cfg r.workerId) r
      return true

/-- `run_once`. -/
def ResidentScheduler.runOnce (cfg : SchedulerConfig) (i : ℕ) (allowedRunIds : Option (List String)) :
    Resident Bool := do
  let selected ← reserveNext cfg i allowedRunIds
  executeSelected cfg i selected

end CrazyHarness
