import CrazyHarness.Store.Projections

/-! # The event log

Appending to the table `events` and reading it.  The rows are in insertion order and the
identifier is the primary key of the table: a second append of an identifier stores nothing,
and raises unless the facts agree.  It uses up a number all the same, so the column `seq`
may have gaps. -/

namespace CrazyHarness

open Lib

namespace Database

/-- The row of a new event, under the next number. -/
def inserted (db : Database) (e : Event) (hnew : db.events.lookup e.id = none) : Database :=
  { db with
    events := db.events.insertNew e hnew
    seqOf := Function.update db.seqOf e.id (db.lastSeq + 1)
    lastSeq := db.lastSeq + 1 }

@[simp] theorem inserted_events (db : Database) (e : Event) (hnew : db.events.lookup e.id = none) :
    (db.inserted e hnew).events = db.events.insertNew e hnew := rfl

@[simp] theorem inserted_commands (db : Database) (e : Event)
    (hnew : db.events.lookup e.id = none) : (db.inserted e hnew).commands = db.commands := rfl

@[simp] theorem inserted_projections (db : Database) (e : Event)
    (hnew : db.events.lookup e.id = none) : (db.inserted e hnew).projections = db.projections := rfl

@[simp] theorem inserted_workClaims (db : Database) (e : Event)
    (hnew : db.events.lookup e.id = none) : (db.inserted e hnew).workClaims = db.workClaims := rfl

/-- `_append_in_transaction`: the persisted event, and whether it is new. -/
def appendInTransaction (db : Database) (e : Event) : Except StoreError ((Event × Bool) × Database) :=
  match hnew : db.events.lookup e.id with
  | none => do
      let db' ← (db.inserted e hnew).projectEvent e (db.lastSeq + 1)
      return ((e, true), db')
  | some existing =>
      if existing.SameFact e then .ok ((existing, false), db.skipSeq)
      else .error (.valueError s!"event id already belongs to another event: {e.id}")

/-- `read_all(run_id=…)`. -/
def readRun (db : Database) (runId : String) : List Event :=
  db.events.rows.filter (·.runId = runId)

/-- `read_all(task_id=…)`. -/
def readTask (db : Database) (taskId : String) : List Event :=
  db.events.rows.filter (·.taskId = taskId)

/-- `get_event(event_id)`; `none` is its `KeyError`. -/
def getEvent (db : Database) (eventId : String) : Option Event := db.events.lookup eventId

/-- Append several events in one transaction. -/
def appendAll (db : Database) : List Event → Except StoreError (List Event × Database)
  | [] => .ok ([], db)
  | e :: es => do
      let ((stored, _), db) ← db.appendInTransaction e
      let (rest, db) ← db.appendAll es
      return (stored :: rest, db)

end Database

end CrazyHarness
