import CrazyHarness.Runtime.Store

/-! # Durable mailboxes

`DurableMailbox` (`core/runtime/mailbox.py`): an inbox that is rebuilt from the facts
`mailbox.delivery.sent` and `mailbox.delivery.acked` of the whole log.  A delivery is pending from
its first `sent` on, until it is acked.

* `validate_dump`: the event a delivery carries is read back as it was sent.
* `pendingIn_spec`: a pending delivery was sent and has not been acked. -/

namespace CrazyHarness

open Lib

/-! ### The event inside a delivery -/

namespace Event

/-- `event.model_dump(mode="json")`. -/
def dump (e : Event) : Json :=
  .dict [("id", .str e.id), ("run_id", .str e.runId), ("task_id", .str e.taskId),
    ("type", .str e.type), ("source", .str e.source), ("payload", .dict e.payload),
    ("refs", .list (e.refs.map .str)), ("causation_id", .ofOption e.causationId),
    ("created_at", .time e.createdAt)]

/-- The text or `None` of an optional field. -/
def optionalStr : Json → Option (Option String)
  | .null => some none
  | .str s => some (some s)
  | _ => none

/-- `Event.model_validate(value)` of a value with all its fields; `none` is its `ValidationError`. -/
def validate (value : Json) : Option Event := do
  let fields ← value.asDict
  let id ← (fields.get? "id").bind Json.asStr
  let runId ← (fields.get? "run_id").bind Json.asStr
  let taskId ← (fields.get? "task_id").bind Json.asStr
  let type ← (fields.get? "type").bind Json.asStr
  let source ← (fields.get? "source").bind Json.asStr
  let payload ← (fields.get? "payload").bind Json.asDict
  let refs ← ((fields.get? "refs").bind Json.asList).bind (List.mapM Json.asStr)
  let causationId ← (fields.get? "causation_id").bind optionalStr
  let createdAt ← (fields.get? "created_at").bind Json.asTime
  return { id, runId, taskId, type, source, payload, refs, causationId, createdAt }

theorem mapM_asStr (texts : List String) :
    texts.mapM (Json.asStr ∘ Json.str) = some texts := by
  induction texts with
  | nil => rfl
  | cons text texts ih => rw [List.mapM_cons, ih]; rfl

theorem optionalStr_ofOption (text : Option String) :
    optionalStr (.ofOption text) = some text := by
  cases text <;> rfl

/-- Reading an event back. -/
@[simp] theorem validate_dump (e : Event) : validate e.dump = some e := by
  simp [validate, dump, Dict.get?_cons, mapM_asStr, optionalStr_ofOption]

end Event

/-! ### Deliveries -/

/-- An event in an inbox. -/
structure Delivery where
  deliveryId : String
  event : Event
deriving DecidableEq

/-- The facts of a mailbox of one type. -/
def mailboxFacts (log : List Event) (type mailboxId : String) : List Event :=
  log.filter (fun e => e.type = type ∧ e.get? "mailbox_id" = some (.str mailboxId))

/-- `event.payload["delivery_id"]`, as text. -/
def deliveryIdOf (e : Event) : Except RuntimeError String :=
  match e.get? "delivery_id" with
  | none => .error (.keyError "delivery_id")
  | some id => .ok id.pyStr

/-- `Event.model_validate(event.payload["event"])`. -/
def carriedEvent (e : Event) : Except RuntimeError Event :=
  match e.get? "event" with
  | none => .error (.keyError "event")
  | some value =>
      match Event.validate value with
      | none => .error (.valueError "validation error for Event")
      | some event => .ok event

/-- The loop of `_pending` over the facts `sent`, in the order of the log. -/
def pendingOf (acked : List String) : List String → List Event → Except RuntimeError (List Delivery)
  | _, [] => .ok []
  | seen, e :: sent => do
      let id ← deliveryIdOf e
      if id ∈ acked ∨ id ∈ seen then pendingOf acked seen sent
      else do
        let event ← carriedEvent e
        let rest ← pendingOf acked (id :: seen) sent
        return ⟨id, event⟩ :: rest

/-- `_pending`, of the log that was read. -/
def pendingIn (mailboxId : String) (log : List Event) : Except RuntimeError (List Delivery) := do
  let acked ← (mailboxFacts log "mailbox.delivery.acked" mailboxId).mapM deliveryIdOf
  pendingOf acked [] (mailboxFacts log "mailbox.delivery.sent" mailboxId)

theorem pendingOf_spec {acked seen : List String} {sent : List Event} {ds : List Delivery}
    (h : pendingOf acked seen sent = .ok ds) {d : Delivery} (hd : d ∈ ds) :
    d.deliveryId ∉ acked ∧ d.deliveryId ∉ seen ∧
      ∃ e ∈ sent, deliveryIdOf e = .ok d.deliveryId ∧ carriedEvent e = .ok d.event := by
  induction sent generalizing seen ds with
  | nil =>
      obtain rfl := Except.ok.inj h
      cases hd
  | cons e sent ih =>
      unfold pendingOf at h
      obtain ⟨id, hid, h⟩ := bind_ok_iff.mp h
      split at h
      next =>
        obtain ⟨hacked, hseen, f, hf, hrest⟩ := ih h hd
        exact ⟨hacked, hseen, f, List.mem_cons_of_mem e hf, hrest⟩
      next hnew =>
        obtain ⟨event, hevent, h⟩ := bind_ok_iff.mp h
        obtain ⟨rest, hrest, h⟩ := bind_ok_iff.mp h
        obtain rfl := Except.ok.inj h
        rcases List.mem_cons.mp hd with rfl | hd
        · exact ⟨fun hin => hnew (.inl hin), fun hin => hnew (.inr hin), e, List.mem_cons_self,
            hid, hevent⟩
        · obtain ⟨hacked, hseen, f, hf, hfound⟩ := ih hrest hd
          exact ⟨hacked, fun hin => hseen (List.mem_cons_of_mem id hin), f,
            List.mem_cons_of_mem e hf, hfound⟩

/-- A pending delivery was sent, and no ack of it is in the log. -/
theorem pendingIn_spec {mailboxId : String} {log : List Event} {ds : List Delivery}
    (h : pendingIn mailboxId log = .ok ds) {d : Delivery} (hd : d ∈ ds) :
    (∀ e ∈ mailboxFacts log "mailbox.delivery.acked" mailboxId, deliveryIdOf e ≠ .ok d.deliveryId) ∧
      ∃ e ∈ mailboxFacts log "mailbox.delivery.sent" mailboxId, deliveryIdOf e = .ok d.deliveryId ∧
        carriedEvent e = .ok d.event := by
  unfold pendingIn at h
  obtain ⟨acked, hacked, h⟩ := bind_ok_iff.mp h
  obtain ⟨hnot, -, hsent⟩ := pendingOf_spec h hd
  refine ⟨?_, hsent⟩
  intro e he hid
  apply hnot
  obtain ⟨id, hmem, hok⟩ := mem_of_mapM_ok hacked he
  rw [hid] at hok
  rwa [Except.ok.inj hok]

/-- `_delivery`, of the log that was read. -/
def deliveryIn (mailboxId deliveryId : String) (log : List Event) :
    Except RuntimeError (Option Delivery) :=
  match (mailboxFacts log "mailbox.delivery.sent" mailboxId).find?
      (fun e => ((e.get? "delivery_id").getD .null).pyStr = deliveryId) with
  | none => .ok none
  | some e => do
      let event ← carriedEvent e
      return some ⟨deliveryId, event⟩

/-- The fact that a delivery was sent. -/
def sentEvent (mailboxId : String) (d : Delivery) (createdAt : DateTime) : Event where
  id := uuid5 ("crazy:mailbox:" ++ mailboxId ++ ":sent:" ++ d.deliveryId)
  runId := d.event.runId
  taskId := d.event.taskId
  type := "mailbox.delivery.sent"
  source := "mailbox:" ++ mailboxId
  payload := [("mailbox_id", .str mailboxId), ("delivery_id", .str d.deliveryId),
    ("event", d.event.dump)]
  causationId := some d.event.id
  createdAt := createdAt

/-- The fact that a delivery was acked. -/
def ackEvent (mailboxId : String) (d : Delivery) (createdAt : DateTime) : Event where
  id := uuid5 ("crazy:mailbox:" ++ mailboxId ++ ":acked:" ++ d.deliveryId)
  runId := d.event.runId
  taskId := d.event.taskId
  type := "mailbox.delivery.acked"
  source := "mailbox:" ++ mailboxId
  payload := [("mailbox_id", .str mailboxId), ("delivery_id", .str d.deliveryId)]
  causationId := some d.event.id
  createdAt := createdAt

namespace DurableMailbox

variable {X : Interface}

/-- What was computed from the log that was read, with its exceptions. -/
def ofLog {α : Type} (f : List Event → Except RuntimeError α) : RuntimeM X α := do
  let log ← RuntimeM.readAll none
  ExceptT.mk (.done (f log))

/-- `pending`. -/
def pending (mailboxId : String) : RuntimeM X (List Delivery) := ofLog (pendingIn mailboxId)

/-- The end of `send`: a delivery of that name exists, or it is sent. -/
def sendNew (dispatch : Option DispatchContext) (mailboxId : String) (d : Delivery) :
    Option Delivery → RuntimeM X Delivery
  | some existing =>
      if existing.event = d.event then pure existing
      else throw (.valueError ("delivery id already belongs to another event: " ++ d.deliveryId))
  | none => do
      let _ ← RuntimeM.append dispatch (sentEvent mailboxId d)
      return d

/-- `send`. -/
def send (dispatch : Option DispatchContext) (mailboxId : String) (event : Event)
    (deliveryId : String) : RuntimeM X Delivery := do
  let existing ← ofLog (deliveryIn mailboxId deliveryId)
  sendNew dispatch mailboxId ⟨deliveryId, event⟩ existing

/-- `ack_event`. -/
def ackEventOf (mailboxId deliveryId : String) : RuntimeM X (DateTime → Event) := do
  let d ← ofLog (deliveryIn mailboxId deliveryId)
  match d with
  | none => throw (.keyError ("unknown delivery: " ++ deliveryId))
  | some d => pure (ackEvent mailboxId d)

/-- The end of `ack`: a delivery that is not pending needs none. -/
def ackPending (dispatch : Option DispatchContext) (mailboxId deliveryId : String)
    (pending : List Delivery) : RuntimeM X Unit :=
  if deliveryId ∈ pending.map Delivery.deliveryId then do
    let fact ← ackEventOf mailboxId deliveryId
    let _ ← RuntimeM.append dispatch fact
    return ()
  else pure ()

/-- `ack`. -/
def ack (dispatch : Option DispatchContext) (mailboxId deliveryId : String) : RuntimeM X Unit := do
  let pending ← pending mailboxId
  ackPending dispatch mailboxId deliveryId pending

end DurableMailbox

end CrazyHarness
