import CrazyHarness.Kernel.Reads
import CrazyHarness.Kernel.Contracts
import CrazyHarness.Lib.Decode

/-! # Checks of the kernel

A check of the kernel reads the store and passes, rejects the candidate with a reason, or raises.
`Check.within` is its outcome in one state of the store, and `Check.verdict` the answer `_validate`
gives.  The `within` lemmas take a check that passed apart: every part of it passed. -/

namespace CrazyHarness

open Lib

/-- Why a check does not pass. -/
inductive Refusal where
  | rejected (reason : String)
  | raised (e : StoreError)
deriving DecidableEq

/-- Code that reads, and may reject or raise. -/
abbrev Check := ExceptT Refusal (Program readInterface)

namespace Check

variable {α β : Type}

/-- One read. -/
def read (op : ReadOp) : Check op.Reply :=
  (@Program.perform readInterface op).bind (fun a => .done (.ok a))

def now : Check DateTime := read .now

def readRun (runId : String) : Check (List Event) := read (.readRun runId)

def readTask (taskId : String) : Check (List Event) := read (.readTask taskId)

/-- `get_event`; `none` is its `KeyError`. -/
def getEvent (eventId : String) : Check (Option Event) := read (.getEvent eventId)

def projection (kind entityId : String) : Check (Option Dict) := read (.projection kind entityId)

def snapshot (runId : Option String) : Check (String → List Dict) := read (.snapshot runId)

/-- `return reason`. -/
def reject (reason : String) : Check α := throw (.rejected reason)

/-- `if not p: return reason`. -/
def require (p : Prop) [Decidable p] (reason : String) : Check Unit :=
  if p then pure () else reject reason

/-- The value, or the reason why there is none. -/
def orReject (o : Option α) (reason : String) : Check α :=
  match o with
  | some a => pure a
  | none => reject reason

/-- An expression that may raise. -/
def liftE (r : Except StoreError α) : Check α :=
  match r with
  | .ok a => pure a
  | .error e => throw (.raised e)

/-- `for x in xs: body(x)`. -/
def each (body : β → Check Unit) : List β → Check Unit
  | [] => pure ()
  | x :: xs => do
      body x
      each body xs

/-- The results of `body` for every element. -/
def collect (body : β → Check α) : List β → Check (List α)
  | [] => pure []
  | x :: xs => do
      let a ← body x
      let rest ← collect body xs
      return a :: rest

/-- The outcome in one state of the store. -/
def within (p : Check α) (db : Database) (clock : DateTime) : Except Refusal α :=
  Program.eval (I := readInterface) (ReadOp.reply db clock) p

/-- The answer of `_validate`: `None`, or why the candidate is rejected. -/
def verdict (p : Check Unit) : ReadM (Option String) :=
  Program.bind p (fun
    | .ok () => .done (.ok none)
    | .error (.rejected reason) => .done (.ok (some reason))
    | .error (.raised e) => .done (.error e))

section within

variable {db : Database} {clock : DateTime}

@[simp] theorem within_pure (a : α) : (pure a : Check α).within db clock = .ok a := rfl

@[simp] theorem within_reject (reason : String) :
    (reject reason : Check α).within db clock = .error (.rejected reason) := rfl

@[simp] theorem within_read (op : ReadOp) : (read op).within db clock = .ok (op.reply db clock) := rfl

@[simp] theorem within_bind (p : Check α) (f : α → Check β) :
    (p >>= f).within db clock = (p.within db clock >>= fun a => (f a).within db clock) := by
  refine (Program.eval_bind _ p _).trans ?_
  unfold within
  cases Program.eval (I := readInterface) (ReadOp.reply db clock) p with
  | ok a => rfl
  | error e => rfl

/-- Every part of a check that passes has passed. -/
theorem bind_passes {p : Check α} {f : α → Check β} {b : β} :
    (p >>= f).within db clock = .ok b ↔
      ∃ a, p.within db clock = .ok a ∧ (f a).within db clock = .ok b := by
  rw [within_bind, bind_ok_iff]

@[simp] theorem require_passes {p : Prop} [Decidable p] {reason : String} {u : Unit} :
    (require p reason).within db clock = .ok u ↔ p := by
  unfold require
  split <;> simp_all

@[simp] theorem orReject_passes {o : Option α} {reason : String} {a : α} :
    (orReject o reason).within db clock = .ok a ↔ o = some a := by
  unfold orReject
  split <;> simp_all

@[simp] theorem liftE_passes {r : Except StoreError α} {a : α} :
    (liftE r).within db clock = .ok a ↔ r = .ok a := by
  cases r with
  | ok b => simp [liftE]
  | error e =>
      constructor
      · intro h
        cases h
      · intro h
        cases h

/-- `_validate` answers `None` exactly if its checks pass. -/
theorem verdict_none {p : Check Unit} :
    (verdict p).within db clock = .ok none ↔ p.within db clock = .ok () := by
  have heval : (verdict p).within db clock =
      match p.within db clock with
      | .ok () => .ok none
      | .error (.rejected reason) => .ok (some reason)
      | .error (.raised e) => .error e := by
    refine (Program.eval_bind _ p _).trans ?_
    unfold within
    cases Program.eval (I := readInterface) (ReadOp.reply db clock) p with
    | ok a => rfl
    | error e => cases e <;> rfl
  rw [heval]
  cases p.within db clock with
  | ok u => simp
  | error e => cases e <;> simp

end within

end Check

end CrazyHarness
