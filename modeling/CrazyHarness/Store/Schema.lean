import CrazyHarness.Lib.Table
import CrazyHarness.Kernel.Contracts

/-! # The SQLite schema

The five tables of `SQLiteEventStore._initialize` and the row types they hold.  Every
operation of the store is one `BEGIN IMMEDIATE` transaction, so it is modelled as a
function of the whole `Database`: an exception rolls back, which is `Except.error` without
a new state. -/

namespace CrazyHarness

open Lib

/-! ### Rows -/

/-- The states of a command row. -/
inductive CommandState where
  | processing
  | accepted
  | rejected
deriving DecidableEq

/-- A row of `commands`; the two JSON columns are kept as the models they serialise. -/
structure CommandRow where
  idempotencyKey : String
  candidateId : String
  state : CommandState
  candidate : CommandCandidate
  decision : Option KernelDecision := none
  updatedAt : DateTime
deriving DecidableEq

/-- A row of `projections`. -/
structure ProjectionRow where
  kind : String
  entityId : String
  state : Dict
  updatedSeq : ℕ
deriving DecidableEq

/-- The primary key of `projections`. -/
def ProjectionRow.key (r : ProjectionRow) : String × String := (r.kind, r.entityId)

/-- The states of a work claim. -/
inductive WorkClaimState where
  | active
  | completed
  | released
  | failed
deriving DecidableEq

/-- A row of `work_claims`. -/
structure WorkClaimRow where
  claimKey : String
  ownerId : String
  fencingToken : ℤ
  state : WorkClaimState
  claimedAt : DateTime
  expiresAt : DateTime
  updatedAt : DateTime
deriving DecidableEq

/-- The states of a physical model call. -/
inductive ModelCallState where
  | reserved
  | inFlight
  | unknown
  | failed
  | completed
deriving DecidableEq

/-- A provider's usage fact, as `_normalize_usage` hands it to the store. -/
structure ModelUsage where
  promptTokens : ℤ
  promptCacheHitTokens : ℤ
  promptCacheMissTokens : ℤ
  completionTokens : ℤ
  totalTokens : ℤ
deriving DecidableEq

/-- A row of `model_calls`.  A reservation is never negative; the usage columns are filled
together, by a reconciliation. -/
structure ModelCallRow where
  callId : String
  runId : String
  taskId : String
  agentId : String
  provider : String
  model : String
  state : ModelCallState
  reservedInputTokens : ℕ
  reservedOutputTokens : ℕ
  reservedCostMicrousd : ℕ
  attemptCount : ℕ := 0
  usage : Option ModelUsage := none
  actualCostMicrousd : Option ℤ := none
  completionEventId : Option String := none
  errorType : Option String := none
  errorMessage : Option String := none
  createdAt : DateTime
  updatedAt : DateTime
deriving DecidableEq

/-- The exceptions the store raises; a raising operation leaves the database as it was. -/
inductive StoreError where
  | valueError (message : String)
  | typeError
  | keyError (message : String)
  | runtimeError (message : String)
  | integrityError
  | modelCallRejected (message : String)
  | modelCallConflict (message : String)
  | modelBudgetExceeded (message : String)
  | workClaimLost (message : String)
  | unfencedAck (message : String)
  | commandPreconditionFailed (reason : String)
deriving DecidableEq

/-! ### The database -/

/-- The content of the SQLite file.  `seqOf` is the column `seq` of `events`, by identifier, and
`lastSeq` its `AUTOINCREMENT` counter. -/
structure Database where
  events : Table Event.id
  commands : Table CommandRow.idempotencyKey
  projections : Table ProjectionRow.key
  workClaims : Table WorkClaimRow.claimKey
  modelCalls : Table ModelCallRow.callId
  seqOf : String → ℕ
  lastSeq : ℕ

namespace Database

/-- The file right after `_initialize`. -/
def initial : Database where
  events := .empty
  commands := .empty
  projections := .empty
  workClaims := .empty
  modelCalls := .empty
  seqOf := fun _ => 0
  lastSeq := 0

/-- `INSERT OR IGNORE` of an event that is there: the counter moves on all the same. -/
def skipSeq (db : Database) : Database := { db with lastSeq := db.lastSeq + 1 }

@[simp] theorem skipSeq_events (db : Database) : db.skipSeq.events = db.events := rfl

@[simp] theorem skipSeq_commands (db : Database) : db.skipSeq.commands = db.commands := rfl

@[simp] theorem skipSeq_workClaims (db : Database) : db.skipSeq.workClaims = db.workClaims := rfl

@[simp] theorem skipSeq_modelCalls (db : Database) : db.skipSeq.modelCalls = db.modelCalls := rfl

/-- `_load_projection(connection, kind, entity_id)`. -/
def loadProjection (db : Database) (kind entityId : String) : Option Dict :=
  (db.projections.lookup (kind, entityId)).map ProjectionRow.state

/-- `_save_projection(connection, kind, entity_id, state, seq)`. -/
def saveProjection (db : Database) (kind entityId : String) (state : Dict) (seq : ℕ) : Database :=
  { db with projections := db.projections.upsert ⟨kind, entityId, state, seq⟩ }

@[simp] theorem saveProjection_events (db : Database) (kind entityId : String) (state : Dict)
    (seq : ℕ) : (db.saveProjection kind entityId state seq).events = db.events := rfl

@[simp] theorem saveProjection_commands (db : Database) (kind entityId : String) (state : Dict)
    (seq : ℕ) : (db.saveProjection kind entityId state seq).commands = db.commands := rfl

@[simp] theorem saveProjection_workClaims (db : Database) (kind entityId : String) (state : Dict)
    (seq : ℕ) : (db.saveProjection kind entityId state seq).workClaims = db.workClaims := rfl

@[simp] theorem saveProjection_modelCalls (db : Database) (kind entityId : String) (state : Dict)
    (seq : ℕ) : (db.saveProjection kind entityId state seq).modelCalls = db.modelCalls := rfl

theorem loadProjection_saveProjection (db : Database) (kind entityId kind' entityId' : String)
    (state : Dict) (seq : ℕ) :
    (db.saveProjection kind entityId state seq).loadProjection kind' entityId' =
      if kind' = kind ∧ entityId' = entityId then some state else db.loadProjection kind' entityId' := by
  simp only [loadProjection, saveProjection, Table.lookup_upsert, ProjectionRow.key, Prod.mk.injEq]
  split <;> rfl

/-- `run.get("status")` of the run's projection; `none` without a projection. -/
def runStatus (db : Database) (runId : String) : Option Json :=
  (db.loadProjection "run" runId).bind (Dict.get? · "status")

end Database

end CrazyHarness
