import CrazyHarness.Store.WorkClaims

/-! # The command ledger

The rows of `commands` carry a command from `processing` to its decision.  `commitCommand`
is the only operation that decides: in one transaction it checks the fencing guard and the
precondition, appends the formal facts and finalises the row.  The hook `after_event` only
raises injected faults inside the transaction, which then rolls back; it has no part in the
model. -/

namespace CrazyHarness

open Lib

namespace Database

/-- `command_record`. -/
def commandRecord (db : Database) (idempotencyKey : String) : Option CommandRow :=
  db.commands.lookup idempotencyKey

/-- `begin_command`: whether the row is new. -/
def beginCommand (db : Database) (candidate : CommandCandidate) (now : DateTime) : Bool × Database :=
  let row : CommandRow :=
    { idempotencyKey := candidate.idempotencyKey, candidateId := candidate.candidateId,
      state := .processing, candidate := candidate, updatedAt := now }
  ((db.commands.lookup candidate.idempotencyKey).isNone,
    { db with commands := db.commands.insertIgnore row })

/-- The `UPDATE` that finalises a row still in `processing`. -/
def decideRow (db : Database) (idempotencyKey : String) (state : CommandState)
    (decision : KernelDecision) (now : DateTime) : Database :=
  { db with
    commands := db.commands.updateWhere
      (fun r => r.idempotencyKey = idempotencyKey ∧ r.state = .processing)
      (fun r => { r with state := state, decision := some decision, updatedAt := now })
      (fun _ _ => rfl) }

/-- Finalise the row, or find it finalised with the same decision. -/
def finalize (db : Database) (idempotencyKey : String) (state : CommandState)
    (decision : KernelDecision) (now : DateTime) : Except StoreError Database :=
  match db.commands.lookup idempotencyKey with
  | none => .error (.runtimeError s!"command could not be finalized: {idempotencyKey}")
  | some row =>
      if row.state = .processing then .ok (db.decideRow idempotencyKey state decision now)
      else if row.state = state ∧ row.decision = some decision then .ok db
      else .error (.runtimeError s!"command could not be finalized: {idempotencyKey}")

/-- The fencing guard of a commit: an owner with the claims it must still hold. -/
def checkGuard (db : Database) (guard : Option (String × Claims)) (now : DateTime) :
    Except StoreError Unit :=
  match guard with
  | none => .ok ()
  | some (ownerId, claims) =>
      ensure (db.workClaimsAreCurrent claims ownerId now)
        (.workClaimLost "formal command commit rejected by fencing token")

/-- The precondition of a commit, evaluated inside its transaction. -/
def checkPrecondition (db : Database)
    (precondition : Option (Database → Except StoreError (Option String))) :
    Except StoreError Unit :=
  match precondition with
  | none => .ok ()
  | some check => do
      match ← check db with
      | some rejection => .error (.commandPreconditionFailed rejection)
      | none => .ok ()

/-- `commit_command`: append the formal facts and finalise the command, or change nothing. -/
def commitCommand (db : Database) (idempotencyKey : String) (state : CommandState)
    (decision : KernelDecision) (events : List Event)
    (precondition : Option (Database → Except StoreError (Option String)))
    (guard : Option (String × Claims)) (now : DateTime) :
    Except StoreError (List Event × Database) := do
  db.checkGuard guard now
  ensure (¬ events.any (fun e => db.runCancelled e.runId))
    (.workClaimLost "formal command commit rejected because the run is cancelled")
  db.checkPrecondition precondition
  let (persisted, db) ← db.appendAll events
  let db ← db.finalize idempotencyKey state decision now
  return (persisted, db)

end Database

end CrazyHarness
