import CrazyHarness.Kernel.Provenance
import CrazyHarness.Runtime.Mailbox

/-! # The cooperative scheduler

`CooperativeScheduler` (`core/runtime/scheduler.py`): one agent takes a step at a time, and who is
ready and who waits for what is read back from the log before every step.  An agent that is ready may
have a delivery to handle, which is acked after the step; a step may end in a wait, which a delivery
satisfies or a deadline ends.

The log is an `EventLog`, to which an event is added whatever its identifier.  `mailboxOf` names the
mailbox that an agent is registered with, `registered` the agents of the process. -/

namespace CrazyHarness

open Lib

/-! ### Waits -/

/-- `WaitCondition`; its deadline has a time zone. -/
structure WaitCondition where
  eventType : String
  correlationId : Option String := none
  source : Option String := none
  deadline : Option DateTime := none
  deadline_aware : ∀ d ∈ deadline, d.Aware

namespace WaitCondition

/-- `matches`. -/
def Matches (c : WaitCondition) (e : Event) : Prop :=
  e.type = c.eventType ∧ (c.correlationId = none ∨ e.text "correlation_id" = c.correlationId) ∧
    (c.source = none ∨ c.source = some e.source)

instance (c : WaitCondition) : DecidablePred c.Matches :=
  fun _ => inferInstanceAs (Decidable (_ ∧ _ ∧ _))

/-- `_dump_condition`. -/
def dump (c : WaitCondition) : Json :=
  .dict [("event_type", .str c.eventType), ("correlation_id", .ofOption c.correlationId),
    ("source", .ofOption c.source), ("deadline", (c.deadline.map Json.time).getD .null)]

/-- The deadline of a condition that is read back. -/
def deadlineOf : Json → Except RuntimeError (Option DateTime)
  | .time d => .ok (some d)
  | v => if v.truthy then .error (.valueError "Invalid isoformat string") else .ok none

/-- `_load_condition`. -/
def load (value : Json) : Except RuntimeError WaitCondition := do
  let fields ← (value.asDict).elim (.error .typeError) .ok
  let eventType ← (fields.get? "event_type").elim (.error (.keyError "event_type")) .ok
  let deadline ← deadlineOf (fields.getD "deadline" .null)
  if h : ∀ d ∈ deadline, d.Aware then
    return { eventType := eventType.pyStr,
             correlationId := (fields.get? "correlation_id").bind Json.asStr,
             source := (fields.get? "source").bind Json.asStr, deadline, deadline_aware := h }
  else .error (.valueError "deadline must be timezone-aware")

/-- A condition is read back as it was written. -/
@[simp] theorem load_dump (c : WaitCondition) : load c.dump = .ok c := by
  obtain ⟨eventType, correlationId, source, deadline, haware⟩ := c
  have hoption : ∀ text : Option String, (Json.ofOption text).asStr = text := by
    intro text
    cases text <;> rfl
  have hdeadline : deadlineOf ((deadline.map Json.time).getD .null) = .ok deadline := by
    cases deadline <;> rfl
  have hfields : ∀ v : Json, Dict.getD [("event_type", .str eventType),
      ("correlation_id", .ofOption correlationId), ("source", .ofOption source), ("deadline", v)]
      "deadline" .null = v := by
    intro v
    simp [Dict.getD, Dict.get?_cons]
  simp only [load, dump, Json.asDict_dict, Option.elim_some, ok_bind, hfields, hdeadline]
  simp only [Dict.get?_cons, hoption, String.reduceEq, if_true, if_false, Option.elim_some, ok_bind,
    Option.bind_some, Json.pyStr_str]
  exact dif_pos haware

end WaitCondition

/-- The facts that end a wait. -/
def IsResolution (e : Event) : Prop :=
  e.type = "runtime.wait.satisfied" ∨ e.type = "runtime.wait.timed_out"

instance : DecidablePred IsResolution := fun _ => inferInstanceAs (Decidable (_ ∨ _))

/-- `str(event.payload[key])`. -/
def fieldText (e : Event) (key : String) : Except RuntimeError String :=
  (e.get? key).elim (.error (.keyError key)) (fun v => .ok v.pyStr)

namespace CooperativeScheduler

/-- The waits among these events that are not resolved. -/
def activeOf (resolved : List String) : List Event → Except RuntimeError (List (Event × WaitCondition))
  | [] => .ok []
  | e :: events => do
      let id ← fieldText e "wait_id"
      if id ∈ resolved then activeOf resolved events
      else do
        let condition ← (e.get? "condition").elim (.error (.keyError "condition")) WaitCondition.load
        let rest ← activeOf resolved events
        return (e, condition) :: rest

/-- `_active_waits`. -/
def activeWaits (log : List Event) : Except RuntimeError (List (Event × WaitCondition)) := do
  let resolved ← (log.filter (fun e => IsResolution e)).mapM (fieldText · "wait_id")
  activeOf resolved (log.filter (fun e => e.type = "runtime.wait.registered"))

/-- The `ready_id`s of the steps that are completed. -/
def completedIds (log : List Event) : List String :=
  (log.filter (fun e => e.type = "runtime.agent.step.completed")).filterMap
    (fun e => (e.get? "ready_id").map Json.pyStr)

/-- The event says that an agent is ready for a step that is not among `completed`. -/
def IsPendingReady (completed : List String) (e : Event) : Prop :=
  e.type = "runtime.agent.ready" ∧ (e.get? "agent_id").isSome ∧
    ∃ id ∈ (e.get? "ready_id").map Json.pyStr, id ∉ completed

instance (completed : List String) : DecidablePred (IsPendingReady completed) :=
  fun _ => inferInstanceAs (Decidable (_ ∧ _ ∧ ∃ id ∈ Option.map _ _, _))

/-- `_pending_ready`. -/
def pendingReady (log : List Event) : List Event :=
  log.filter (fun e => IsPendingReady (completedIds log) e)

/-! ### The code -/

/-- What the scheduler does outside of the log: it calls the step of an agent. -/
inductive CallbackOp where
  | step (agentId : String) (delivery : Option Delivery)

/-- A step raises, or ends with or without a wait. -/
def callbackInterface : Interface where
  Op := CallbackOp
  Reply _ := Except RuntimeError (Option WaitCondition)

/-- The code of the scheduler. -/
abbrev SchedulerM := RuntimeM callbackInterface

open RuntimeM

variable (mailboxOf : String → String) (registered : List String)

/-- `agent.step(delivery)`. -/
def callStep (agentId : String) (delivery : Option Delivery) : SchedulerM (Option WaitCondition) :=
  Program.bind (@outside callbackInterface (.step agentId delivery)) .done

/-- The end of `_append`, with the last event of the log. -/
def appendAfter (type : String) (payload : Dict) : Option Event → SchedulerM Event
  | none => throw (.runtimeError "scheduler requires a seed event before work is scheduled")
  | some identity => do
      let id ← uuid
      RuntimeM.append none (fun createdAt =>
        { id := id, runId := identity.runId, taskId := identity.taskId, type := type,
          source := "runtime.scheduler", payload := payload, createdAt := createdAt })

/-- `_append`. -/
def appendFact (type : String) (payload : Dict) : SchedulerM Event := do
  let log ← readAll none
  appendAfter type payload log.getLast?

/-- `_agent`. -/
def requireAgent (agentId : String) : SchedulerM Unit :=
  if agentId ∈ registered then pure () else throw (.keyError ("agent is not registered: " ++ agentId))

/-- `mailbox.peek(predicate)`. -/
def peek (mailboxId : String) (p : Event → Bool) : SchedulerM (Option Delivery) := do
  let pending ← DurableMailbox.pending mailboxId
  return pending.find? (fun d => p d.event)

/-- What a ready event says of the delivery. -/
def deliveryFields : Option Delivery → Dict
  | none => []
  | some d => [("delivery_id", .str d.deliveryId), ("event_id", .str d.event.id)]

/-- `_queue`. -/
def queue (agentId : String) (delivery : Option Delivery) : SchedulerM Unit := do
  let readyId ← uuid
  let _ ← appendFact "runtime.agent.ready"
    ([("agent_id", .str agentId), ("ready_id", .str readyId)] ++ deliveryFields delivery)
  return ()

/-- The end of a wait: the agent is queued with the delivery, and idle. -/
def resume (agentId : String) (d : Delivery) : SchedulerM Unit := do
  queue agentId (some d)
  let _ ← appendFact "runtime.agent.idle" [("agent_id", .str agentId)]
  return ()

/-- A wait is satisfied by a delivery. -/
def satisfy (agentId : String) (waitId : Json) (registeredWait : Bool) (d : Delivery) :
    SchedulerM Unit := do
  let _ ← appendFact "runtime.wait.satisfied" [("agent_id", .str agentId), ("wait_id", waitId),
    ("delivery_id", .str d.deliveryId), ("registered", .bool registeredWait)]
  resume agentId d

/-- A wait has come to its deadline; the event that says so is delivered. -/
def timeOut (agentId : String) (waitId : Json) (c : WaitCondition) (deadline : DateTime) :
    SchedulerM Unit := do
  let timeout ← appendFact "runtime.wait.timed_out" [("agent_id", .str agentId), ("wait_id", waitId),
    ("event_type", .str c.eventType), ("correlation_id", .ofOption c.correlationId),
    ("deadline", .time deadline)]
  let d ← DurableMailbox.send none (mailboxOf agentId) timeout ("event:" ++ timeout.id)
  resume agentId d

/-- A wait without a delivery goes on until its deadline. -/
def checkDeadline (agentId : String) (waitId : Json) (c : WaitCondition) : SchedulerM Unit :=
  match c.deadline with
  | none => pure ()
  | some deadline => do
      let clock ← now
      if clock.instant < deadline.instant then pure () else timeOut mailboxOf agentId waitId c deadline

/-- One round of `_promote_waiters`, for an agent that is registered. -/
def promoteAgent (agentId : String) (wait : Event × WaitCondition) : SchedulerM Unit := do
  let found ← peek (mailboxOf agentId) (fun e => wait.2.Matches e)
  match found with
  | some d => satisfy agentId (wait.1.value "wait_id") true d
  | none => checkDeadline mailboxOf agentId (wait.1.value "wait_id") wait.2

/-- One round of `_promote_waiters`. -/
def promote (wait : Event × WaitCondition) : SchedulerM Unit := do
  let agentId ← ExceptT.mk (.done (fieldText wait.1 "agent_id"))
  if agentId ∈ registered then promoteAgent mailboxOf agentId wait else pure ()

/-- `_promote_waiters`. -/
def promoteWaiters : SchedulerM Unit := do
  let waits ← DurableMailbox.ofLog activeWaits
  each (promote mailboxOf registered) waits

/-- The agent waits. -/
def IsWaiting (waits : List (Event × WaitCondition)) (agentId : String) : Prop :=
  ∃ wait ∈ waits, wait.1.text "agent_id" = some agentId

instance (waits : List (Event × WaitCondition)) (agentId : String) :
    Decidable (IsWaiting waits agentId) :=
  inferInstanceAs (Decidable (∃ wait ∈ waits, _))

/-- `schedule`. -/
def schedule (agentId : String) : SchedulerM Unit := do
  requireAgent registered agentId
  let waits ← DurableMailbox.ofLog activeWaits
  if IsWaiting waits agentId then throw (.runtimeError ("agent is waiting: " ++ agentId))
  else queue agentId none

/-- The end of `wake`, for an agent that does not wait. -/
def wakeIdle (agentId : String) : SchedulerM Bool := do
  let found ← peek (mailboxOf agentId) (fun _ => true)
  match found with
  | none => pure false
  | some d => do
      queue agentId (some d)
      return true

/-- `wake`. -/
def wake (agentId : String) : SchedulerM Bool := do
  requireAgent registered agentId
  let waits ← DurableMailbox.ofLog activeWaits
  if IsWaiting waits agentId then do
    promoteWaiters mailboxOf registered
    return true
  else wakeIdle mailboxOf agentId

/-- The error of `_ready_delivery`. -/
def noLongerPending (ready : Event) : RuntimeError :=
  .runtimeError ("ready delivery is no longer pending: " ++ (ready.value "delivery_id").pyStr)

/-- The end of `_ready_delivery`, with the pending delivery of the event. -/
def confirmDelivery (ready : Event) : Option Delivery → SchedulerM (Option Delivery)
  | none => throw (noLongerPending ready)
  | some d =>
      if ready.get? "delivery_id" = some (.str d.deliveryId) then pure (some d)
      else throw (noLongerPending ready)

/-- `_ready_delivery`. -/
def readyDelivery (mailboxId : String) (ready : Event) : SchedulerM (Option Delivery) :=
  match ready.value "event_id" with
  | .null => pure none
  | eventId => do
      let found ← peek mailboxId (fun e => eventId.asStr = some e.id)
      confirmDelivery ready found

/-- `_begin_wait`. -/
def beginWait (agentId : String) (c : WaitCondition) : SchedulerM Unit := do
  let waitId ← uuid
  let existing ← peek (mailboxOf agentId) (fun e => c.Matches e)
  match existing with
  | some d => satisfy agentId (.str waitId) false d
  | none => do
      let _ ← appendFact "runtime.wait.registered"
        [("agent_id", .str agentId), ("wait_id", .str waitId), ("condition", c.dump)]
      let _ ← appendFact "runtime.agent.waiting" [("agent_id", .str agentId), ("wait_id", .str waitId)]
      return ()

/-- The ack of the delivery, if the step has had one. -/
def ackHandled (mailboxId : String) : Option Delivery → SchedulerM Unit
  | none => pure ()
  | some d => DurableMailbox.ack none mailboxId d.deliveryId

/-- What follows a step. -/
def settle (agentId : String) : Option WaitCondition → SchedulerM Unit
  | none => do
      let _ ← appendFact "runtime.agent.idle" [("agent_id", .str agentId)]
      return ()
  | some c => beginWait mailboxOf agentId c

/-- The step of an agent that is ready. -/
def runReady (agentId : String) (ready : Event) : SchedulerM Unit := do
  let delivery ← readyDelivery (mailboxOf agentId) ready
  let names : Dict := [("agent_id", .str agentId), ("ready_id", ready.value "ready_id")]
  let _ ← appendFact "runtime.agent.busy" names
  let nextWait ← callStep agentId delivery
  ackHandled (mailboxOf agentId) delivery
  let _ ← appendFact "runtime.agent.step.completed" names
  settle mailboxOf agentId nextWait

/-- The agent of the event is registered. -/
def OfRegistered (e : Event) : Prop := ∃ agentId ∈ e.text "agent_id", agentId ∈ registered

instance : DecidablePred (OfRegistered registered) :=
  fun _ => inferInstanceAs (Decidable (∃ agentId ∈ Event.text _ _, _))

/-- `run_once`. -/
def runOnce : SchedulerM Bool := do
  promoteWaiters mailboxOf registered
  let log ← readAll none
  match (pendingReady log).find? (fun e => OfRegistered registered e) with
  | none => pure false
  | some ready => do
      runReady mailboxOf ((ready.text "agent_id").getD "") ready
      return true

end CooperativeScheduler

end CrazyHarness
