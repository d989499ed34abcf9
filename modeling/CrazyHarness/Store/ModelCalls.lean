import CrazyHarness.Lib.Run
import CrazyHarness.Store.Schema

/-! # Physical model calls

The five operations of `SQLiteEventStore` on the table `model_calls`, and the sums of
`_model_budget_status` over it.  A call is reserved against the limits of its run, its
attempts start, and it ends `completed` (charged with the provider's usage), `failed` (the
reservation is released) or `unknown` (the reservation stays charged). -/

namespace CrazyHarness

open Lib

/-! ### Operations -/

/-- The identity and the amounts of `reserve_model_call`. -/
structure ModelReservation where
  callId : String
  runId : String
  taskId : String
  agentId : String
  provider : String
  model : String
  reservedInputTokens : ℤ
  reservedOutputTokens : ℤ
  reservedCostMicrousd : ℤ
deriving DecidableEq

/-- The limits of a run, in the ranges `ModelBudgetConfig` admits. -/
structure ModelLimits where
  maxTotalTokens : ℤ
  maxCostMicrousd : ℤ
  maxConcurrentCalls : ℤ
  maxTotalTokens_pos : 1 ≤ maxTotalTokens := by decide
  maxCostMicrousd_pos : 1 ≤ maxCostMicrousd := by decide
  maxConcurrentCalls_pos : 1 ≤ maxConcurrentCalls := by decide

/-- The other fields are proofs. -/
instance : DecidableEq ModelLimits := fun a b =>
  decidable_of_iff
    (a.maxTotalTokens = b.maxTotalTokens ∧ a.maxCostMicrousd = b.maxCostMicrousd ∧
      a.maxConcurrentCalls = b.maxConcurrentCalls)
    (by cases a; cases b; simp)

/-- The sums `_model_budget_status` selects. -/
structure ModelBudgetStatus where
  spentTokens : ℤ
  activeReservedTokens : ℤ
  unknownReservedTokens : ℤ
  estimatedSpentMicrousd : ℤ
  activeReservedMicrousd : ℤ
  unknownReservedMicrousd : ℤ
  activeCalls : ℤ
  completedCalls : ℤ
  unknownCalls : ℤ
  runId : String
deriving DecidableEq

namespace ModelBudgetStatus

def committedTokens (s : ModelBudgetStatus) : ℤ :=
  s.spentTokens + s.activeReservedTokens + s.unknownReservedTokens

def committedCostMicrousd (s : ModelBudgetStatus) : ℤ :=
  s.estimatedSpentMicrousd + s.activeReservedMicrousd + s.unknownReservedMicrousd

end ModelBudgetStatus

namespace ModelCallRow

def reservedTokens (r : ModelCallRow) : ℤ := r.reservedInputTokens + r.reservedOutputTokens

/-- `state IN ('reserved', 'in_flight')`. -/
def Active (r : ModelCallRow) : Prop := r.state = .reserved ∨ r.state = .inFlight

instance : DecidablePred Active := fun r =>
  inferInstanceAs (Decidable (r.state = .reserved ∨ r.state = .inFlight))

/-- The row of a call whose next attempt is about to be sent. -/
def started (r : ModelCallRow) (attempt : ℕ) (now : DateTime) : ModelCallRow :=
  { r with state := .inFlight, attemptCount := attempt, updatedAt := now }

/-- The row of a call that ended without a usage. -/
def endedAs (r : ModelCallRow) (state : ModelCallState) (errorType errorMessage : String)
    (now : DateTime) : ModelCallRow :=
  { r with state := state, errorType := some errorType, errorMessage := some errorMessage,
           updatedAt := now }

/-- The row of a call that was reconciled with a usage. -/
def chargedWith (r : ModelCallRow) (usage : ModelUsage) (actualCostMicrousd : ℤ)
    (completionEventId : String) (now : DateTime) : ModelCallRow :=
  { r with state := .completed, usage := some usage, actualCostMicrousd := some actualCostMicrousd,
           completionEventId := some completionEventId, updatedAt := now }

section identity

variable (r : ModelCallRow) (attempt : ℕ) (state : ModelCallState) (usage : ModelUsage) (cost : ℤ)
  (s t : String) (now : DateTime)

@[simp] theorem started_callId : (r.started attempt now).callId = r.callId := rfl
@[simp] theorem started_runId : (r.started attempt now).runId = r.runId := rfl
@[simp] theorem endedAs_callId : (r.endedAs state s t now).callId = r.callId := rfl
@[simp] theorem endedAs_runId : (r.endedAs state s t now).runId = r.runId := rfl
@[simp] theorem chargedWith_callId : (r.chargedWith usage cost s now).callId = r.callId := rfl
@[simp] theorem chargedWith_runId : (r.chargedWith usage cost s now).runId = r.runId := rfl

end identity

end ModelCallRow

namespace Database

/-- `SUM(CASE WHEN p THEN w ELSE 0 END) … WHERE run_id = ?`. -/
def sumCalls (db : Database) (runId : String) (p : ModelCallRow → Prop) [DecidablePred p]
    (w : ModelCallRow → ℤ) : ℤ :=
  db.modelCalls.total (fun r => if r.runId = runId then if p r then w r else 0 else 0)

/-- `_model_budget_status`. -/
def modelBudgetStatus (db : Database) (runId : String) : ModelBudgetStatus where
  spentTokens := db.sumCalls runId (·.state = .completed) (fun r => (r.usage.map (·.totalTokens)).getD 0)
  activeReservedTokens := db.sumCalls runId (·.Active) (·.reservedTokens)
  unknownReservedTokens := db.sumCalls runId (·.state = .unknown) (·.reservedTokens)
  estimatedSpentMicrousd := db.sumCalls runId (·.state = .completed) (·.actualCostMicrousd.getD 0)
  activeReservedMicrousd := db.sumCalls runId (·.Active) (·.reservedCostMicrousd)
  unknownReservedMicrousd := db.sumCalls runId (·.state = .unknown) (·.reservedCostMicrousd)
  activeCalls := db.sumCalls runId (·.Active) (fun _ => 1)
  completedCalls := db.sumCalls runId (·.state = .completed) (fun _ => 1)
  unknownCalls := db.sumCalls runId (·.state = .unknown) (fun _ => 1)
  runId := runId

/-- `UPDATE model_calls SET f WHERE call_id = ?`. -/
def updateCall (db : Database) (callId : String) (f : ModelCallRow → ModelCallRow)
    (hf : ∀ r, (f r).callId = r.callId) : Database :=
  { db with modelCalls := db.modelCalls.updateWhere (·.callId = callId) f (fun r _ => hf r) }

/-- `reserve_model_call`: one physical model call against the budget of its run. -/
def reserveModelCall (db : Database) (c : ModelReservation) (limits : ModelLimits) (now : DateTime) :
    Except StoreError (ModelCallRow × Database) :=
  if min c.reservedInputTokens (min c.reservedOutputTokens c.reservedCostMicrousd) < 0 then
    .error (.valueError "model reservation values cannot be negative")
  else if db.runStatus c.runId ≠ some (.str "running") then
    .error (.modelCallRejected s!"run does not permit a model call: {c.runId}")
  else if hnew : db.modelCalls.lookup c.callId = none then
    let status := db.modelBudgetStatus c.runId
    let requestedTokens := c.reservedInputTokens + c.reservedOutputTokens
    if status.activeCalls ≥ limits.maxConcurrentCalls then
      .error (.modelBudgetExceeded "model concurrency budget exhausted")
    else if status.committedTokens + requestedTokens > limits.maxTotalTokens then
      .error (.modelBudgetExceeded "model token budget exhausted")
    else if status.committedCostMicrousd + c.reservedCostMicrousd > limits.maxCostMicrousd then
      .error (.modelBudgetExceeded "model cost budget exhausted")
    else
      let row : ModelCallRow :=
        { callId := c.callId, runId := c.runId, taskId := c.taskId, agentId := c.agentId,
          provider := c.provider, model := c.model, state := .reserved,
          reservedInputTokens := c.reservedInputTokens.toNat,
          reservedOutputTokens := c.reservedOutputTokens.toNat,
          reservedCostMicrousd := c.reservedCostMicrousd.toNat,
          createdAt := now, updatedAt := now }
      .ok (row, { db with modelCalls := db.modelCalls.insertNew row hnew })
  else .error (.modelCallConflict s!"model call already exists: {c.callId}")

/-- `start_model_call_attempt`: the number of the attempt that may now be sent. -/
def startModelCallAttempt (db : Database) (callId : String) (now : DateTime) :
    Except StoreError (ℕ × Database) :=
  match db.modelCalls.lookup callId with
  | none => .error (.modelCallConflict s!"model call is not startable: {callId}")
  | some row =>
      if row.Active then
        let attempt := row.attemptCount + 1
        .ok (attempt, db.updateCall callId (·.started attempt now)
          (fun r => r.started_callId attempt now))
      else .error (.modelCallConflict s!"model call is not startable: {callId}")

/-- `fail_model_call`: an uncertain outcome keeps the reservation, a certain one frees it. -/
def failModelCall (db : Database) (callId : String) (uncertain : Bool)
    (errorType errorMessage : String) (now : DateTime) : Except StoreError Database :=
  match db.modelCalls.lookup callId with
  | none => .error (.modelCallConflict s!"unknown model call: {callId}")
  | some row =>
      if row.state = .completed then .ok db
      else
        let state := if uncertain then ModelCallState.unknown else .failed
        .ok (db.updateCall callId (·.endedAs state errorType errorMessage now)
          (fun r => r.endedAs_callId state errorType errorMessage now))

/-- The `WHERE` of `recover_stale_model_calls`; the timestamps are compared as text. -/
def StaleCall (runId : String) (cutoff : String) (state : ModelCallState) (r : ModelCallRow) : Prop :=
  r.runId = runId ∧ r.state = state ∧ r.updatedAt.isoformat ≤ cutoff

instance (runId cutoff : String) (state : ModelCallState) :
    DecidablePred (StaleCall runId cutoff state) := fun r =>
  inferInstanceAs (Decidable (r.runId = runId ∧ r.state = state ∧ r.updatedAt.isoformat ≤ cutoff))

/-- `recover_stale_model_calls`: unsent reservations are released, sent ones quarantined. -/
def recoverStaleModelCalls (db : Database) (runId : String) (staleBefore now : DateTime) :
    Except StoreError ((ℕ × ℕ) × Database) :=
  if ¬ staleBefore.Aware then
    .error (.valueError "model recovery cutoff must be timezone-aware")
  else
    let cutoff := staleBefore.isoformat
    let released := db.modelCalls.updateWhere (StaleCall runId cutoff .reserved)
      (·.endedAs .failed "AbandonedReservation" "no transport attempt started before recovery" now)
      (fun r _ => r.endedAs_callId _ _ _ now)
    let quarantined := released.updateWhere (StaleCall runId cutoff .inFlight)
      (·.endedAs .unknown "AbandonedInFlightCall" "transport outcome is unknown after recovery" now)
      (fun r _ => r.endedAs_callId _ _ _ now)
    .ok ((db.modelCalls.rowcount (StaleCall runId cutoff .reserved),
        released.rowcount (StaleCall runId cutoff .inFlight)), { db with modelCalls := quarantined })

/-- The column `completion_event_id` is `UNIQUE`: no other call may hold the event. -/
def CompletionFree (db : Database) (callId completionEventId : String) : Prop :=
  ∀ r ∈ db.modelCalls.rows, r.callId ≠ callId → r.completionEventId ≠ some completionEventId

instance (db : Database) (callId completionEventId : String) :
    Decidable (db.CompletionFree callId completionEventId) :=
  inferInstanceAs (Decidable (∀ r ∈ db.modelCalls.rows, _ → _))

/-- `reconcile_model_call`: record one provider usage fact; a replay is a no-op. -/
def reconcileModelCall (db : Database) (callId completionEventId : String) (usage : ModelUsage)
    (actualCostMicrousd : ℤ) (now : DateTime) : Except StoreError (Bool × Database) :=
  match db.modelCalls.lookup callId with
  | none => .error (.modelCallConflict s!"unknown model call: {callId}")
  | some row =>
      if row.state = .completed then
        if row.completionEventId = some completionEventId then .ok (false, db)
        else .error (.modelCallConflict
          s!"model call already reconciled by another completion: {callId}")
      else if ¬ db.CompletionFree callId completionEventId then .error .integrityError
      else .ok (true, db.updateCall callId
        (·.chargedWith usage actualCostMicrousd completionEventId now)
        (fun r => r.chargedWith_callId usage actualCostMicrousd completionEventId now))

/-- A call that is reserved has a new row without an attempt. -/
theorem reserveModelCall_eq {c : ModelReservation} {limits : ModelLimits} {now : DateTime}
    {db db' : Database} {row : ModelCallRow}
    (h : db.reserveModelCall c limits now = .ok (row, db')) :
    row.callId = c.callId ∧ row.attemptCount = 0 ∧ row.state = .reserved ∧
      ∃ hnew : db.modelCalls.lookup row.callId = none,
        db' = { db with modelCalls := db.modelCalls.insertNew row hnew } := by
  unfold reserveModelCall at h
  split at h
  · cases h
  split at h
  · cases h
  split at h
  swap
  · cases h
  next hnew =>
    dsimp only at h
    split at h
    · cases h
    split at h
    · cases h
    split at h
    · cases h
    obtain ⟨rfl, rfl⟩ := Prod.mk.inj (Except.ok.inj h)
    exact ⟨rfl, rfl, rfl, hnew, rfl⟩

end Database

end CrazyHarness
