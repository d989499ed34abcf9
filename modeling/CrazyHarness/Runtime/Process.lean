import CrazyHarness.Runtime.Mailbox

/-! # The resident process

`ResidentRuntime` and its `ResidentScheduler` (`control_plane/runtime.py`) hold little besides the
store: which runs are cancelled here, which deliveries are in flight, where the outbox replay
stands.  A `ResidentWorld` is the store with the memory of every process that uses it; a process
that is started again is a new process, with new memory.

Two kinds of steps leave a note in the world that no code reads: the appends of
`expire_due_leases` and the starts of handlers.  What was the case at that moment can then be said
of the note. -/

namespace CrazyHarness

open Lib

/-! ### The memory of a process -/

/-- An entry of `_in_flight`: a delivery that is being worked on. -/
structure Reservation where
  workerId : String
  delivery : Delivery
  claims : Claims
  cancelled : Option String := none
deriving DecidableEq

/-- What a process keeps in memory. -/
structure ProcessMemory where
  accepting : Bool := true
  cancelledRuns : List String := []
  inFlight : List Reservation := []
  selectionCursor : ℕ := 0
  capacityWaiters : List (String × Event) := []
  routeCursor : ℕ := 0

/-- What the process does with its memory, under the lock of the part in question. -/
inductive MemoryOp where
  | cancelRun (runId reason : String)
  | inFlight
  | cancelledRuns
  | accepting
  | reserve (r : Reservation)
  | release (workerId deliveryId : String)
  | selectionCursor
  | setSelectionCursor (cursor : ℕ)
  | waiters
  | setWaiter (waiting : Event)
  | popWaiter (runId : String)
  | routeCursor
  | setRouteCursor (cursor : ℕ)

namespace MemoryOp

/-- What each reads. -/
def Reply : MemoryOp → Type
  | cancelRun _ _ => List Reservation
  | inFlight => List Reservation
  | cancelledRuns => List String
  | accepting => Bool
  | reserve _ => Unit
  | release _ _ => Unit
  | selectionCursor => ℕ
  | setSelectionCursor _ => Unit
  | waiters => List (String × Event)
  | setWaiter _ => Unit
  | popWaiter _ => Unit
  | routeCursor => ℕ
  | setRouteCursor _ => Unit

/-- What each does.  `cancelRun` is the part of `scheduler.cancel_run` under its lock: it denies
the run, cancels what is in flight for it, and returns that. -/
def run (m : ProcessMemory) : (op : MemoryOp) → op.Reply × ProcessMemory
  | cancelRun runId reason =>
      (m.inFlight.filter (fun r => r.delivery.event.runId = runId),
        { m with
          cancelledRuns := runId :: m.cancelledRuns
          inFlight := m.inFlight.map (fun r =>
            if r.delivery.event.runId = runId then { r with cancelled := r.cancelled.or (some reason) }
            else r) })
  | inFlight => (m.inFlight, m)
  | cancelledRuns => (m.cancelledRuns, m)
  | accepting => (m.accepting, m)
  | reserve r => ((), { m with inFlight := m.inFlight ++ [r] })
  | release workerId deliveryId =>
      ((), { m with inFlight := m.inFlight.filter (fun r =>
        ¬ (r.workerId = workerId ∧ r.delivery.deliveryId = deliveryId)) })
  | selectionCursor => (m.selectionCursor, m)
  | setSelectionCursor cursor => ((), { m with selectionCursor := cursor })
  | waiters => (m.capacityWaiters, m)
  | setWaiter waiting =>
      ((), { m with capacityWaiters :=
        m.capacityWaiters.filter (fun w => w.1 ≠ waiting.runId) ++ [(waiting.runId, waiting)] })
  | popWaiter runId =>
      ((), { m with capacityWaiters := m.capacityWaiters.filter (fun w => w.1 ≠ runId) })
  | routeCursor => (m.routeCursor, m)
  | setRouteCursor cursor => ((), { m with routeCursor := cursor })

end MemoryOp

/-! ### Steps outside of the store -/

/-- How a handler ends. -/
inductive HandlerEnd where
  | returned
  | cancelled (reason : String)
  | claimLost
  | crashed (reason : String)
  | raised (reason : String)

/-- The memory of process `i`, the start and the end of a handler, and an append of
`expire_due_leases`. -/
inductive ResidentOp where
  | memory (i : ℕ) (op : MemoryOp)
  | handle (ownerId : String) (r : Reservation)
  | outcome
  | expire (clock : DateTime) (lease : Dict) (e : Event)

/-- What each replies. -/
def residentInterface : Interface where
  Op := ResidentOp
  Reply
    | .memory _ op => op.Reply
    | .handle _ _ => Unit
    | .outcome => HandlerEnd
    | .expire _ _ _ => Except StoreError Event

/-- Code of the resident runtime. -/
abbrev Resident := RuntimeM residentInterface

/-- `Resident` code that uses the memory of process `i`. -/
def memory (i : ℕ) (op : MemoryOp) : Resident op.Reply :=
  RuntimeM.lift (@RuntimeM.outside residentInterface (.memory i op))

/-- An expiry fact was appended: with which clock, and what the projection said of the lease. -/
structure Expiry where
  clock : DateTime
  event : Event
  lease : Option Dict

/-- A handler was started: for which delivery, and what the log was. -/
structure Handling where
  reservation : Reservation
  log : List Event

/-- The store, the processes that use it, and the notes. -/
structure ResidentWorld where
  store : StoreWorld
  memory : ℕ → ProcessMemory := fun _ => {}
  expiries : List Expiry := []
  handlings : List Handling := []

namespace ResidentWorld

/-- The assignment an event names. -/
def assignmentOf (e : Event) : String := ((e.get? "assignment_id").getD .null).pyStr

/-- The note of an expiry fact, unless it was there already. -/
def noteExpiry (w : ResidentWorld) (clock : DateTime) (e : Event) : List Expiry :=
  if w.store.db.events.lookup e.id = none then
    ⟨clock, e, w.store.db.loadProjection "lease" (assignmentOf e)⟩ :: w.expiries
  else w.expiries

/-- The world with a changed memory of process `i`. -/
def setMemory (w : ResidentWorld) (i : ℕ) (m : ProcessMemory) : ResidentWorld :=
  { w with memory := Function.update w.memory i m }

end ResidentWorld

/-- What each step replies and does. -/
def residentStep (w : ResidentWorld) :
    (op : (withStore residentInterface).Op) → (withStore residentInterface).Reply op →
      ResidentWorld → Prop
  | .inl op, r, w' => ∃ s, storeStep w.store op r s ∧ w' = { w with store := s }
  | .inr (.memory i op), r, w' =>
      r = (op.run (w.memory i)).1 ∧ w' = w.setMemory i (op.run (w.memory i)).2
  | .inr (.handle _ reservation), (_ : Unit), w' =>
      w' = { w with handlings := ⟨reservation, w.store.db.events.rows⟩ :: w.handlings }
  | .inr .outcome, _, w' => w' = w
  | .inr (.expire clock _ e), r, w' => ∃ (now : DateTime) (s : StoreWorld), now.Aware ∧
      (r, s) = w.store.returns (w.store.db.append none e now) ∧
      w' = { w with store := s, expiries := w.noteExpiry clock e }

/-- The event a step may append. -/
def stepEvent : (withStore residentInterface).Op → Option Event
  | .inl op => op.event
  | .inr (.expire _ _ e) => some e
  | .inr _ => none

/-- Whatever a step does, it writes at most its event. -/
theorem residentStep_wrote {w w' : ResidentWorld} {op : (withStore residentInterface).Op}
    {r : (withStore residentInterface).Reply op} (h : residentStep w op r w') :
    w.store.drawn ≤ w'.store.drawn ∧
      ∃ es, es ⊆ (stepEvent op).toList ∧ w.store.db.Wrote es w'.store.db := by
  cases op with
  | inl op =>
      obtain ⟨s, hs, rfl⟩ := h
      exact storeStep_wrote hs
  | inr op =>
      cases op with
      | memory i op =>
          obtain ⟨-, rfl⟩ := h
          exact ⟨le_rfl, [], List.nil_subset _, .nothing (.refl _)⟩
      | handle ownerId reservation =>
          obtain rfl := h
          exact ⟨le_rfl, [], List.nil_subset _, .nothing (.refl _)⟩
      | outcome =>
          obtain rfl := h
          exact ⟨le_rfl, [], List.nil_subset _, .nothing (.refl _)⟩
      | expire clock lease e =>
          obtain ⟨t, s, haware, hout, rfl⟩ := h
          exact @storeStep_wrote w.store s (.append none e) r
            ⟨none, t, DispatchContext.becomes_self none, haware, hout⟩

/-- Other code writes events in `allowed`, and whatever it likes elsewhere in the store. -/
def Elsewhere (allowed : Event → Prop) (w w' : ResidentWorld) : Prop :=
  w.store.drawn ≤ w'.store.drawn ∧
    (∃ es, w.store.db.Wrote es w'.store.db ∧ ∀ e ∈ es, allowed e) ∧
    w' = { w with store := w'.store }

/-- The clock stands still, no dispatch is cancelled, and handlers return. -/
def residentStrategy (clock : DateTime) (hclock : clock.utcOffset = some 0) :
    Program.Strategy residentStep where
  act
    | .inl op, w =>
        some ((storeStrategy clock op w.store).1, { w with store := (storeStrategy clock op w.store).2 })
    | .inr (.memory i op), w =>
        some ((op.run (w.memory i)).1, w.setMemory i (op.run (w.memory i)).2)
    | .inr (.handle _ reservation), w =>
        some (((), { w with handlings := ⟨reservation, w.store.db.events.rows⟩ :: w.handlings }) :
          Unit × ResidentWorld)
    | .inr .outcome, w => some ((.returned, w) : HandlerEnd × ResidentWorld)
    | .inr (.expire expiryClock _ e), w =>
        some (((w.store.returns (w.store.db.append none e clock)).1,
          { w with
            store := (w.store.returns (w.store.db.append none e clock)).2
            expiries := w.noteExpiry expiryClock e }) : Except StoreError Event × ResidentWorld)
  sound := by
    have haware : clock.Aware := by
      rw [DateTime.Aware, hclock]
      rfl
    intro op w r h
    cases op with
    | inl op =>
        cases h
        exact ⟨_, storeStrategy_sound hclock op w.store, rfl⟩
    | inr op =>
        cases op with
        | memory i op =>
            cases h
            exact ⟨rfl, rfl⟩
        | expire expiryClock lease e =>
            cases h
            exact ⟨clock, _, haware, rfl, rfl⟩
        | handle ownerId reservation =>
            cases h
            rfl
        | outcome =>
            cases h
            rfl

end CrazyHarness
