import CrazyHarness.Runtime.Process

/-! # Leases and their expiry

A worker that starts a step on an assignment renews its lease (`_begin_leased_step`); the loop of
the runtime expires what is due (`expire_due_leases`).  Each reads the lease, compares it with a
clock, and appends later, in transactions of their own.

* `expiries_timely`: where the deadline has not moved and the lease has not been released between
  the snapshot and the append, what expires is due, and nobody is marked degraded for a lease that
  was given back.
* `renewed_expired`: a renewal that lands in between. -/

namespace CrazyHarness

open Lib RuntimeM

/-! ### Reading a payload -/

section reading

variable {X : Interface}

/-- `state[key]`. -/
def required (state : Dict) (key : String) : RuntimeM X Json :=
  match state.get? key with
  | some v => pure v
  | none => throw (.keyError key)

/-- `datetime.fromisoformat(str(value))`. -/
def isoTime (value : Json) : RuntimeM X DateTime :=
  match value.asTime with
  | some t => pure t
  | none => throw (.valueError "Invalid isoformat string")

/-- `not (deadline > current)`, for an aware `current`. -/
def isDue (current deadline : DateTime) : RuntimeM X Bool :=
  if deadline.Aware then pure (decide (deadline.instant ≤ current.instant)) else throw .typeError

/-- `int(value)`. -/
def intOrRaise (value : Json) : RuntimeM X ℤ :=
  match value.pyInt with
  | some n => pure n
  | none => throw (.valueError "invalid literal for int()")

section asks

variable {A : (op : (withStore X).Op) → (withStore X).Reply op → Prop}
  {Q : (withStore X).Op → Prop}

theorem asks_required {state : Dict} {key : String} :
    Asks A Q (fun v => state.get? key = some v) (required state key : RuntimeM X Json) := by
  unfold required
  cases hget : state.get? key with
  | none => exact asks_throw _
  | some v => exact asks_pure rfl

theorem asks_isoTime {value : Json} :
    Asks A Q (fun t => value = .time t) (isoTime value : RuntimeM X DateTime) := by
  unfold isoTime
  cases value with
  | time t => exact asks_pure rfl
  | _ => exact asks_throw _

theorem asks_isDue {current deadline : DateTime} :
    Asks A Q (fun due => due = true → deadline.instant ≤ current.instant)
      (isDue current deadline : RuntimeM X Bool) := by
  unfold isDue
  split
  · exact asks_pure of_decide_eq_true
  · exact asks_throw _

theorem asks_intOrRaise {value : Json} :
    Asks A Q (fun _ => True) (intOrRaise value : RuntimeM X ℤ) := by
  unfold intOrRaise
  cases value.pyInt with
  | none => exact asks_throw _
  | some n => exact asks_pure trivial

end asks

/-- The first event `assignment.created` for an assignment. -/
def assignmentCreated (events : List Event) (assignmentId : String) : Option Event :=
  events.find? (fun e =>
    e.type = "assignment.created" ∧ e.get? "assignment_id" = some (.str assignmentId))

end reading

/-! ### `expire_due_leases` -/

/-- `_append_deterministic`, as `expire_due_leases` calls it. -/
def appendExpiry (current : DateTime) (lease : Dict) (identity : Event) (key type : String)
    (payload : Dict) : Resident Event := do
  let createdAt ← now
  raising (@outside residentInterface (.expire current lease
    { id := uuid5 ("crazy:" ++ key), runId := identity.runId, taskId := identity.taskId, type := type,
      source := "runtime.deadline", payload := payload, causationId := some identity.id,
      createdAt := createdAt }))

/-- The facts of one due lease, and the wake-up of the coordinator. -/
def expireDue (current : DateTime) (lease : Dict) (expiresAt : Json) (deadline : DateTime)
    (assignmentId : String) (identity : Event) : Resident ℕ := do
  let stageId := (lease.get? "stage_id").getD .null
  let agentId ← required lease "agent_id"
  let _ ← appendExpiry current lease identity ("assignment-expired:" ++ assignmentId)
    "assignment.expired"
    [("assignment_id", .str assignmentId), ("stage_id", stageId), ("agent_id", agentId),
      ("reason", .str "lease_deadline_exceeded")]
  let _ ← appendExpiry current lease identity ("agent-degraded:" ++ assignmentId)
    "runtime.agent.degraded"
    [("agent_id", agentId), ("assignment_id", .str assignmentId),
      ("reason", .str "lease_deadline_exceeded")]
  let leaseId ← required lease "lease_id"
  let expired ← appendExpiry current lease identity ("lease-expired:" ++ assignmentId)
    "assignment.lease.expired"
    [("lease_id", leaseId), ("assignment_id", .str assignmentId), ("stage_id", stageId),
      ("agent_id", agentId), ("expires_at", expiresAt), ("expired_at", .time deadline),
      ("reason", .str "deadline_exceeded")]
  let _ ← DurableMailbox.send none "coordinator" expired ("lease-expired:" ++ assignmentId)
  return 1

/-- A lease whose assignment is not in the log is passed over. -/
def expireKnown (current : DateTime) (lease : Dict) (expiresAt : Json) (deadline : DateTime)
    (assignmentId : String) : Option Event → Resident ℕ
  | none => pure 0
  | some identity => expireDue current lease expiresAt deadline assignmentId identity

/-- A lease whose deadline has passed. -/
def expireOverdue (current : DateTime) (lease : Dict) (expiresAt : Json) (deadline : DateTime) :
    Resident ℕ := do
  let assignmentId ← required lease "assignment_id"
  let runId ← required lease "run_id"
  let events ← readAll (some runId.pyStr)
  expireKnown current lease expiresAt deadline assignmentId.pyStr
    (assignmentCreated events assignmentId.pyStr)

/-- The body of the loop over the active leases. -/
def expireLease (current : DateTime) (lease : Dict) : Resident ℕ := do
  let expiresAt ← required lease "expires_at"
  let deadline ← isoTime expiresAt
  let due ← isDue current deadline
  if due then expireOverdue current lease expiresAt deadline else pure 0

/-- The loop. -/
def expireEach (current : DateTime) : List Dict → Resident ℕ
  | [] => pure 0
  | lease :: leases => do
      let n ← expireLease current lease
      let m ← expireEach current leases
      return n + m

/-- The leases that `expire_due_leases` looks at. -/
def activeLeases (leases : List Dict) : List Dict :=
  leases.filter (fun lease => lease.get? "status" = some (.str "active"))

/-- `expire_due_leases`. -/
def expireDueLeases (current : DateTime) : Resident ℕ :=
  if current.Aware then do
    let projections ← snapshot none
    expireEach current (activeLeases (projections "lease"))
  else throw (.valueError "lease expiry clock must be timezone-aware")

/-! ### `_begin_leased_step` -/

/-- `self.store.projection(kind, str(assignment_id)) if assignment_id else None`. -/
def projectionOf (kind : String) (assignmentId : Option Json) : Resident (Option Dict) :=
  match truthyText assignmentId with
  | some id => projection kind id
  | none => pure none

/-- The deadline of a lease, if it has one that can be read. -/
def currentExpiry (lease : Option Dict) : Option DateTime :=
  lease.bind (fun lease => (lease.get? "expires_at").bind (fun v =>
    if v.truthy then v.asTime else none))

/-- The agent holds the assignment and its lease, and the deadline is ahead. -/
def HoldsLease (assignment lease : Option Dict) (agentId : String) (checkedAt : DateTime) : Prop :=
  (∃ a ∈ assignment, a.get? "agent_id" = some (.str agentId)) ∧
    (∃ l ∈ lease, l.get? "status" = some (.str "active") ∧ l.get? "agent_id" = some (.str agentId)) ∧
    ∃ t ∈ currentExpiry lease, t.Aware ∧ checkedAt.instant < t.instant

instance (assignment lease : Option Dict) (agentId : String) (checkedAt : DateTime) :
    Decidable (HoldsLease assignment lease agentId checkedAt) :=
  inferInstanceAs (Decidable ((∃ a ∈ assignment, _) ∧ (∃ l ∈ lease, _) ∧
    ∃ t ∈ currentExpiry lease, _))

/-- The later of two deadlines. -/
def laterOf (a b : DateTime) : DateTime := if a.instant < b.instant then b else a

/-- The heartbeat, and the renewal that it dates. -/
def renewLease (dispatch : Option DispatchContext) (trigger : Event) (agentId : String)
    (assignmentId : Json) (lease : Dict) (expiry : DateTime) : Resident Bool := do
  let suffix := agentId ++ ":" ++ assignmentId.pyStr ++ ":" ++ trigger.id
  let heartbeat ← appendDeterministic dispatch trigger ("heartbeat:" ++ suffix)
    "runtime.agent.heartbeat" [("agent_id", .str agentId), ("assignment_id", assignmentId)]
    "runtime.scheduler"
  let leaseSeconds ← intOrRaise (lease.getD "lease_seconds" (.int 30))
  let expiresAt := laterOf expiry (heartbeat.createdAt.addSeconds leaseSeconds)
  let leaseId ← required lease "lease_id"
  let _ ← appendDeterministic dispatch trigger ("lease-renewed:" ++ suffix)
    "assignment.lease.renewed"
    [("lease_id", leaseId), ("assignment_id", assignmentId),
      ("stage_id", (lease.get? "stage_id").getD .null), ("agent_id", .str agentId),
      ("lease_seconds", .int leaseSeconds), ("renewed_at", .time heartbeat.createdAt),
      ("expires_at", .time expiresAt)]
    "runtime.scheduler"
  return true

/-- A step without its lease is stale. -/
def staleDelivery (dispatch : Option DispatchContext) (trigger : Event) (agentId : String)
    (assignmentId : Json) : Resident Bool := do
  let _ ← appendDeterministic dispatch trigger
    ("stale-delivery:" ++ agentId ++ ":" ++ assignmentId.pyStr ++ ":" ++ trigger.id)
    "assignment.delivery.stale"
    [("assignment_id", assignmentId), ("agent_id", .str agentId),
      ("delivery_event_id", .str trigger.id), ("reason", .str "active_lease_not_held")]
    "runtime.scheduler"
  return false

/-- The decision of `_begin_leased_step`. -/
def beginWith (dispatch : Option DispatchContext) (trigger : Event) (agentId : String)
    (assignmentId : Json) (assignment lease : Option Dict) (checkedAt : DateTime) : Resident Bool :=
  if HoldsLease assignment lease agentId checkedAt then
    renewLease dispatch trigger agentId assignmentId (lease.getD [])
      ((currentExpiry lease).getD checkedAt)
  else staleDelivery dispatch trigger agentId assignmentId

/-- `_begin_leased_step`. -/
def beginLeasedStep (dispatch : Option DispatchContext) (trigger : Event) (agentId : String) :
    Resident Bool := do
  let assignmentId := trigger.get? "assignment_id"
  let assignment ← projectionOf "assignment" assignmentId
  let lease ← projectionOf "lease" assignmentId
  let checkedAt ← now
  beginWith dispatch trigger agentId (assignmentId.getD .null) assignment lease checkedAt

/-! ### Runs -/

/-- The two parties, each any number of times, among other code that writes what it likes. -/
inductive LeaseStarts : ResidentWorld → Program (withStore residentInterface) Unit →
    ResidentWorld → Prop
  | expire (w : ResidentWorld) (current : DateTime) : LeaseStarts w (expireDueLeases current).thread w
  | begin_ (w : ResidentWorld) (dispatch : Option DispatchContext) (trigger : Event)
      (agentId : String) : LeaseStarts w (beginLeasedStep dispatch trigger agentId).thread w

/-- All interleavings. -/
def leaseRules : PoolRules (withStore residentInterface) Unit ResidentWorld where
  step := residentStep
  starts := LeaseStarts
  env := Elsewhere (fun _ => True)

/-- The lease still has the deadline that was read, and has not been released. -/
def Unmoved (db : Database) (lease : Dict) (assignmentId : String) : Prop :=
  ∃ row ∈ db.loadProjection "lease" assignmentId,
    row.get? "expires_at" = lease.get? "expires_at" ∧ row.get? "status" ≠ some (.str "released")

instance (db : Database) (lease : Dict) (assignmentId : String) :
    Decidable (Unmoved db lease assignmentId) :=
  inferInstanceAs (Decidable (∃ row ∈ db.loadProjection "lease" assignmentId, _))

/-- A new expiry fact is appended while the lease is as it was read. -/
def ExpiresUnmoved (w : ResidentWorld) : (withStore residentInterface).Op → Prop
  | .inr (.expire _ lease e) =>
      w.store.db.events.lookup e.id = none →
        Unmoved w.store.db lease (ResidentWorld.assignmentOf e)
  | _ => True

instance (w : ResidentWorld) : ∀ op, Decidable (ExpiresUnmoved w op)
  | .inr (.expire _ _ _) => inferInstanceAs (Decidable (_ → _))
  | .inr (.memory _ _) => Decidable.isTrue trivial
  | .inr (.handle _ _) => Decidable.isTrue trivial
  | .inr .outcome => Decidable.isTrue trivial
  | .inl _ => Decidable.isTrue trivial

/-- The interleavings in which no renewal and no release comes between a snapshot and the
appends that follow it. -/
def unmovedRules : PoolRules (withStore residentInterface) Unit ResidentWorld where
  step w op r w' := residentStep w op r w' ∧ ExpiresUnmoved w op
  starts := LeaseStarts
  env := Elsewhere (fun _ => True)

/-- When the fact was appended the lease was due for the clock of the call; an agent is not
degraded for a lease that was released before. -/
def Expiry.Timely (x : Expiry) : Prop :=
  (x.event.type ∈ ["assignment.expired", "assignment.lease.expired"] →
    ∃ lease t, x.lease = some lease ∧ lease.get? "expires_at" = some (.time t) ∧
      t.instant ≤ x.clock.instant) ∧
  (x.event.type = "runtime.agent.degraded" →
    ∀ lease, x.lease = some lease → lease.get? "status" ≠ some (.str "released"))

/-- An expiry is appended for a lease that was due when it was read. -/
def AsksDue : (withStore residentInterface).Op → Prop
  | .inr (.expire current lease _) =>
      ∃ t : DateTime, lease.get? "expires_at" = some (.time t) ∧ t.instant ≤ current.instant
  | _ => True

/-- Code that appends no expiry but for a lease that was due. -/
abbrev AsksOnlyDue {α : Type} (p : Resident α) : Prop :=
  Asks (fun _ _ => True) AsksDue (fun _ => True) p

section asks

variable {current : DateTime} {lease : Dict}

theorem asksDue_call {op : StoreOp} : AsksOnlyDue (lift (call op)) :=
  asks_call trivial (fun _ _ => trivial)

theorem asksDue_appendExpiry {t : DateTime} (ht : lease.get? "expires_at" = some (.time t))
    (hdue : t.instant ≤ current.instant) (identity : Event) (key type : String) (payload : Dict) :
    AsksOnlyDue (appendExpiry current lease identity key type payload) := by
  refine asks_bind asksDue_call ?_
  intro createdAt _
  exact asks_raising ⟨⟨t, ht, hdue⟩, fun _ _ _ _ => trivial⟩

theorem asksDue_send (event : Event) (deliveryId : String) :
    AsksOnlyDue (DurableMailbox.send none "coordinator" event deliveryId) := by
  have hread : AsksOnlyDue (DurableMailbox.ofLog (deliveryIn "coordinator" deliveryId)) :=
    asks_bind asksDue_call (fun log _ => fun _ _ => trivial)
  refine asks_bind hread ?_
  intro existing _
  cases existing with
  | none =>
      exact asks_bind (asks_append trivial (fun _ => trivial)) (fun _ _ => asks_pure trivial)
  | some existing =>
      show AsksOnlyDue (ite _ _ _)
      split
      · exact asks_pure trivial
      · exact asks_throw _

theorem asksDue_expireLease (current : DateTime) (lease : Dict) :
    AsksOnlyDue (expireLease current lease) := by
  refine asks_bind asks_required ?_
  intro expiresAt hexpires
  refine asks_bind asks_isoTime ?_
  rintro t rfl
  refine asks_bind asks_isDue ?_
  intro due hdue
  cases due with
  | false => exact asks_pure trivial
  | true =>
      have happend := asksDue_appendExpiry hexpires (hdue rfl)
      refine asks_bind asks_required (fun assignmentId _ => asks_bind asks_required (fun runId _ => ?_))
      refine asks_bind asksDue_call ?_
      intro events _
      cases assignmentCreated events assignmentId.pyStr with
      | none => exact asks_pure trivial
      | some identity =>
          refine asks_bind asks_required (fun agentId _ => ?_)
          refine asks_bind (happend _ _ _ _) (fun _ _ => asks_bind (happend _ _ _ _) (fun _ _ => ?_))
          refine asks_bind asks_required (fun leaseId _ => ?_)
          refine asks_bind (happend _ _ _ _) (fun expired _ => ?_)
          exact asks_bind (asksDue_send _ _) (fun _ _ => asks_pure trivial)

theorem asksDue_expireDueLeases (current : DateTime) : AsksOnlyDue (expireDueLeases current) := by
  unfold expireDueLeases
  split
  · refine asks_bind asksDue_call ?_
    intro projections _
    induction activeLeases (projections "lease") with
    | nil => exact asks_pure trivial
    | cons lease leases ih =>
        exact asks_bind (asksDue_expireLease current lease)
          (fun _ _ => asks_bind ih (fun _ _ => asks_pure trivial))
  · exact asks_throw _

theorem asksDue_beginLeasedStep (dispatch : Option DispatchContext) (trigger : Event)
    (agentId : String) : AsksOnlyDue (beginLeasedStep dispatch trigger agentId) := by
  have happend : ∀ key type payload source,
      AsksOnlyDue (appendDeterministic dispatch trigger key type payload source none) :=
    fun _ _ _ _ => asks_append trivial (fun _ => trivial)
  have hproject : ∀ kind assignmentId, AsksOnlyDue (projectionOf kind assignmentId) := by
    intro kind assignmentId
    unfold projectionOf
    split
    · exact asksDue_call
    · exact asks_pure trivial
  refine asks_bind (hproject _ _) (fun assignment _ => asks_bind (hproject _ _) (fun lease _ => ?_))
  refine asks_bind asksDue_call (fun checkedAt _ => ?_)
  unfold beginWith
  split
  · refine asks_bind (happend _ _ _ _) (fun heartbeat _ => ?_)
    refine asks_bind asks_intOrRaise (fun leaseSeconds _ => asks_bind asks_required (fun leaseId _ => ?_))
    exact asks_bind (happend _ _ _ _) (fun _ _ => asks_pure trivial)
  · exact asks_bind (happend _ _ _ _) (fun _ _ => asks_pure trivial)

end asks

/-- **No leased work is expired early**, where nothing moves a lease between the snapshot and the
appends. -/
theorem expiries_timely {s : StoreWorld} {P : Pool (withStore residentInterface) Unit ResidentWorld}
    (h : Pool.Reachable unmovedRules ⟨{ store := s }, [], []⟩ P) :
    ∀ x ∈ P.state.expiries, x.Timely := by
  refine @Pool.invariant_of_asks _ _ _ unmovedRules (fun _ _ => True) AsksDue
    (fun w => ∀ x ∈ w.expiries, x.Timely) _ _ (fun _ _ _ _ _ _ => trivial) ?_ ?_ ?_
    (fun x hx => absurd hx List.not_mem_nil) (fun p hp => absurd hp List.not_mem_nil) h
  · rintro w op r w' hinv hask ⟨hstep, hunmoved⟩
    cases op with
    | inl op =>
        obtain ⟨s', -, rfl⟩ := hstep
        exact hinv
    | inr op =>
        cases op with
        | memory i op =>
            obtain ⟨-, rfl⟩ := hstep
            exact hinv
        | handle ownerId reservation =>
            obtain rfl := hstep
            exact hinv
        | outcome =>
            obtain rfl := hstep
            exact hinv
        | expire current lease e =>
            obtain ⟨t, s', -, -, rfl⟩ := hstep
            obtain ⟨deadline, hdeadline, hdue⟩ := hask
            intro x hx
            unfold ResidentWorld.noteExpiry at hx
            split at hx
            next hnew =>
              obtain ⟨row, hrow, hexpires, hstatus⟩ := hunmoved hnew
              rcases List.mem_cons.mp hx with rfl | hx
              · refine ⟨fun _ => ⟨row, deadline, hrow, hexpires.trans hdeadline, hdue⟩, ?_⟩
                intro _ row' hrow'
                rw [hrow] at hrow'
                obtain rfl := Option.some.inj hrow'
                exact hstatus
              · exact hinv x hx
            next => exact hinv x hx
  · rintro w p w' hinv hstart
    cases hstart with
    | expire current => exact ⟨hinv, asks_thread (asksDue_expireDueLeases current)⟩
    | begin_ dispatch trigger agentId =>
        exact ⟨hinv, asks_thread (asksDue_beginLeasedStep dispatch trigger agentId)⟩
  · rintro w w' hinv ⟨-, -, heq⟩
    rw [heq]
    exact hinv

/-! ### A renewal that comes late -/

/-- Noon. -/
def twelve : DateTime := ⟨43200000000, some 0⟩

theorem twelve_utc : twelve.utcOffset = some 0 := rfl

/-- An assignment of the scout. -/
def scoutAssignment : Event where
  id := "assignment-1"
  runId := "r1"
  taskId := "t1"
  type := "assignment.created"
  source := "kernel"
  payload := [("assignment_id", .str "a1"), ("agent_id", .str "scout")]
  createdAt := twelve

/-- Its lease, which has one second left at noon. -/
def scoutLease : Event where
  id := "lease-1"
  runId := "r1"
  taskId := "t1"
  type := "assignment.lease.acquired"
  source := "kernel"
  payload := [("lease_id", .str "lease:a1"), ("assignment_id", .str "a1"), ("agent_id", .str "scout"),
    ("lease_seconds", .int 30), ("expires_at", .time (twelve.addSeconds 1))]
  createdAt := twelve

/-- The dispatch of its delivery. -/
def scoutDispatch : DispatchContext where
  workerId := "scout"
  deliveryId := "d1"
  claimOwnerId := "scheduler"
  claimTokens := [("delivery:scout:d1", 1)]

/-- The store before the step: the assignment, its lease, and the claim on its delivery. -/
def scoutStore : StoreWorld :=
  ((StoreWorld.mk .initial 0).wrote [scoutAssignment, scoutLease]).claimed ["delivery:scout:d1"]
    "scheduler" 180 twelve (some "r1")

/-- The scout begins a step, and the loop of the runtime expires leases two seconds past noon. -/
def scoutStep : Pool (withStore residentInterface) Unit ResidentWorld :=
  ⟨{ store := scoutStore }, [(beginLeasedStep (some scoutDispatch) scoutAssignment "scout").thread,
    (expireDueLeases (twelve.addSeconds 2)).thread], []⟩

theorem scoutStep_reachable : Pool.Reachable leaseRules ⟨{ store := scoutStore }, [], []⟩ scoutStep :=
  .tail (.single (.start (.expire _ _))) (.start (.begin_ _ _ _ _))

/-- Without a step of the scout the lease expires as it was read. -/
theorem unrenewed_timely :
    let P := Pool.follow (R := unmovedRules) ((residentStrategy twelve rfl).restrict ExpiresUnmoved)
      ⟨{ store := scoutStore }, [(expireDueLeases (twelve.addSeconds 2)).thread], []⟩
      [0, 0, 0, 0, 0, 0, 0, 0]
    P.state.expiries.length = 3 ∧ ∀ x ∈ P.state.expiries, x.Timely := by
  refine ⟨by decide, ?_⟩
  exact expiries_timely ((Relation.ReflTransGen.single (.start (.expire _ _))).trans
    (Pool.follow_reachable _ _ _))

/-- The run in which the scout's renewal lands after the snapshot. -/
def renewedLate : Pool (withStore residentInterface) Unit ResidentWorld :=
  Pool.follow (R := leaseRules) (residentStrategy twelve twelve_utc) scoutStep
    [0, 0, 0, 0, 0, 0, 1, 0, 1, 1, 1]

/-- The assignment expires under a lease that runs for another half minute. -/
theorem renewed_expired :
    ∃ P, Pool.Reachable leaseRules ⟨{ store := scoutStore }, [], []⟩ P ∧
      ∃ x ∈ P.state.expiries, ¬ x.Timely := by
  obtain ⟨x, hx, htype, hclock, hexpires⟩ : ∃ x ∈ renewedLate.state.expiries,
      x.event.type = "assignment.expired" ∧ x.clock = twelve.addSeconds 2 ∧
        x.lease.bind (fun lease => lease.get? "expires_at") =
          some (.time (twelve.addSeconds 30)) :=
    ⟨_, List.mem_cons_self, by decide, by decide, by decide⟩
  refine ⟨_, scoutStep_reachable.trans (Pool.follow_reachable _ _ _), x, hx, ?_⟩
  rintro ⟨hexpired, -⟩
  obtain ⟨lease, t, hlease, ht, hdue⟩ := hexpired (by simp [htype])
  rw [hlease, Option.bind_some, ht] at hexpires
  obtain rfl : t = twelve.addSeconds 30 := by simpa using hexpires
  rw [hclock] at hdue
  simp [twelve] at hdue

end CrazyHarness
