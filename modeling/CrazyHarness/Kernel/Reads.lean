import CrazyHarness.Runtime.Store

/-! # What the kernel reads

`_validate` and `_materialize` only read the store.  `_validate` runs twice: first call by call, when
others may write in between, and again inside the transaction of the commit, as its precondition.  A
`ReadM` is such code; `ReadM.within` is its value in one state of the store. -/

namespace CrazyHarness

open Lib

/-- The reads of the store, and the clock. -/
inductive ReadOp where
  | now
  | readRun (runId : String)
  | readTask (taskId : String)
  | getEvent (eventId : String)
  | projection (kind entityId : String)
  | snapshot (runId : Option String)

namespace ReadOp

/-- What each read returns. -/
def Reply : ReadOp → Type
  | now => DateTime
  | readRun _ => List Event
  | readTask _ => List Event
  | getEvent _ => Option Event
  | projection _ _ => Option Dict
  | snapshot _ => String → List Dict

/-- The reply of a store, by a clock. -/
def reply (db : Database) (clock : DateTime) : (op : ReadOp) → op.Reply
  | now => clock
  | readRun runId => db.readRun runId
  | readTask taskId => db.readTask taskId
  | getEvent eventId => db.getEvent eventId
  | projection kind entityId => db.loadProjection kind entityId
  | snapshot runId => db.snapshotOf runId

end ReadOp

/-- The interface of code that only reads. -/
def readInterface : Interface where
  Op := ReadOp
  Reply := ReadOp.Reply

/-- Code that only reads, with its exceptions. -/
abbrev ReadM := ExceptT StoreError (Program readInterface)

namespace ReadM

variable {α : Type}

/-- One read. -/
def read (op : ReadOp) : ReadM op.Reply :=
  (@Program.perform readInterface op).bind (fun a => .done (.ok a))

def now : ReadM DateTime := read .now

def readRun (runId : String) : ReadM (List Event) := read (.readRun runId)

def readTask (taskId : String) : ReadM (List Event) := read (.readTask taskId)

def getEvent (eventId : String) : ReadM (Option Event) := read (.getEvent eventId)

def projection (kind entityId : String) : ReadM (Option Dict) := read (.projection kind entityId)

def snapshot (runId : Option String) : ReadM (String → List Dict) := read (.snapshot runId)

/-- The value in one state of the store. -/
def within (p : ReadM α) (db : Database) (clock : DateTime) : Except StoreError α :=
  Program.eval (I := readInterface) (ReadOp.reply db clock) p

variable {db : Database} {clock : DateTime}

theorem within_pure (a : α) : (pure a : ReadM α).within db clock = .ok a := rfl

@[simp] theorem within_bind {β : Type} (p : ReadM α) (f : α → ReadM β) :
    (p >>= f).within db clock = (p.within db clock).bind (fun a => (f a).within db clock) := by
  refine (Program.eval_bind _ p _).trans ?_
  unfold within
  cases Program.eval (I := readInterface) (ReadOp.reply db clock) p with
  | ok a => rfl
  | error e => rfl

/-- Some replies, all among `A`, lead to the value. -/
def YieldsIn (A : (op : ReadOp) → op.Reply → Prop) (p : ReadM α) (a : α) : Prop :=
  @Program.CanReturn readInterface _ A p (.ok a)

/-- Some replies lead to the value. -/
abbrev Yields (p : ReadM α) (a : α) : Prop := YieldsIn (fun _ _ => True) p a

variable {A : (op : ReadOp) → op.Reply → Prop}

theorem YieldsIn.yields {p : ReadM α} {a : α} (h : p.YieldsIn A a) : p.Yields a :=
  Program.CanReturn.mono h (fun _ _ _ => trivial)

theorem yields_pure {a b : α} : YieldsIn A (pure a) b ↔ a = b :=
  ⟨fun h => Except.ok.inj h, fun h => congrArg Except.ok h⟩

theorem not_yields_throw {e : StoreError} {a : α} : ¬ YieldsIn A (throw e) a := by
  intro h
  cases h

theorem yields_bind {β : Type} {p : ReadM α} {f : α → ReadM β} {b : β} :
    YieldsIn A (p >>= f) b ↔ ∃ a, YieldsIn A p a ∧ YieldsIn A (f a) b := by
  refine (Program.canReturn_bind (p := p)).trans ?_
  constructor
  · rintro ⟨r, hr, hb⟩
    cases r with
    | ok a => exact ⟨a, hr, hb⟩
    | error e => cases hb
  · rintro ⟨a, ha, hb⟩
    exact ⟨.ok a, ha, hb⟩

theorem yields_read {op : ReadOp} {a : op.Reply} : YieldsIn A (read op) a ↔ A op a := by
  constructor
  · rintro ⟨r, hr, hdone⟩
    obtain rfl := Except.ok.inj hdone
    exact hr
  · intro ha
    exact ⟨a, ha, rfl⟩

end ReadM

end CrazyHarness
