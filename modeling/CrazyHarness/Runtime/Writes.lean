import CrazyHarness.Runtime.Routing

/-! # What code writes

`Writes P p`: every event that the program `p` appends meets `P`, and `p` leaves the cursor of the
outbox alone; `Works P p`: it looks at the status of no run besides.  The code that ends runs and wakes
waiters writes no fact that the outbox itself is about (`Quiet`): no delivery, no assignment, no release
of an arm, no expired lease. -/

namespace CrazyHarness

open Lib RuntimeM

/-- The operation moves the cursor of an outbox. -/
def MovesCursor : (withStore residentInterface).Op → Prop
  | .inr (.memory _ (.setRouteCursor _)) => True
  | _ => False

/-- What the operation appends meets `P`. -/
def WritesIn (P : Event → Prop) (op : (withStore residentInterface).Op) : Prop :=
  (∀ e ∈ stepEvent op, P e) ∧ ¬ MovesCursor op

/-- The operation looks at the status of runs. -/
def LooksAtRuns : (withStore residentInterface).Op → Prop
  | .inl (.projection kind _) => kind = "run"
  | .inl (.snapshot runId) => runId = none
  | _ => False

/-- What the operation appends meets `P`, and it looks at no status of a run. -/
def WorksIn (P : Event → Prop) (op : (withStore residentInterface).Op) : Prop :=
  WritesIn P op ∧ ¬ LooksAtRuns op

/-- An append returns the fact that was to be appended, and the events of a run are of that run. -/
def RepliesFact : (op : (withStore residentInterface).Op) → (withStore residentInterface).Reply op →
    Prop
  | .inl (.readAll (some runId)), (events : List Event) => ∀ e ∈ events, e.runId = runId
  | .inl (.append _ e), (r : Except StoreError Event) => ∀ stored, r = .ok stored → stored.SameFact e
  | .inr (.expire _ _ e), (r : Except StoreError Event) =>
      ∀ stored, r = .ok stored → stored.SameFact e
  | _, _ => True

/-- Code that writes only events in `P`, and returns what meets `post`. -/
abbrev WritesThen {α : Type} (P : Event → Prop) (post : α → Prop) (p : Resident α) : Prop :=
  Asks RepliesFact (WritesIn P) post p

/-- Code that writes only events in `P`. -/
abbrev Writes {α : Type} (P : Event → Prop) (p : Resident α) : Prop := WritesThen P (fun _ => True) p

/-- The same of code that looks at no status of a run. -/
abbrev WorksThen {α : Type} (P : Event → Prop) (post : α → Prop) (p : Resident α) : Prop :=
  Asks RepliesFact (WorksIn P) post p

/-- Code that writes only events in `P`, and looks at no status of a run. -/
abbrev Works {α : Type} (P : Event → Prop) (p : Resident α) : Prop := WorksThen P (fun _ => True) p

theorem append_sameFact {w w' : StoreWorld} {d : Option DispatchContext} {e : Event} {now : DateTime}
    {r : Except StoreError Event} (h : (r, w') = w.returns (w.db.append d e now)) {stored : Event}
    (hr : r = .ok stored) : stored.SameFact e ∧ stored ∈ w'.db.events.rows := by
  rcases StoreWorld.returns_cases h with ⟨_, -, rfl, -⟩ | ⟨s, db, happend, rfl, rfl⟩
  · cases hr
  · obtain rfl := Except.ok.inj hr
    rcases Database.append_cases happend with ⟨rfl, hlook, hsame⟩ | ⟨rfl, hnew⟩
    · exact ⟨hsame, Table.mem_of_lookup hlook⟩
    · refine ⟨.refl _, ?_⟩
      rw [hnew.rows]
      exact List.mem_append_right _ (List.mem_singleton_self _)

theorem repliesFact_of_step {w w' : ResidentWorld} {op : (withStore residentInterface).Op}
    {r : (withStore residentInterface).Reply op} (h : residentStep w op r w') : RepliesFact op r := by
  cases op with
  | inl op =>
      cases op with
      | readAll runId =>
          obtain ⟨s, ⟨rfl, -⟩, -⟩ := h
          cases runId with
          | none => trivial
          | some runId =>
              intro e he
              exact of_decide_eq_true (List.mem_filter.mp he).2
      | append dispatch e =>
          obtain ⟨s, ⟨d, now, -, -, hout⟩, -⟩ := h
          intro stored hr
          exact (append_sameFact hout hr).1
      | _ => trivial
  | inr op =>
      cases op with
      | expire clock lease e =>
          obtain ⟨now, s, -, hout, -⟩ := h
          intro stored hr
          exact (append_sameFact hout hr).1
      | _ => trivial

section writes

variable {P : Event → Prop} {Q : (withStore residentInterface).Op → Prop} {α β : Type}

theorem WorksThen.writes {post : α → Prop} {p : Resident α} (h : WorksThen P post p) :
    WritesThen P post p :=
  Program.Asks.mono h (fun _ hop => hop.1)

theorem worksThen_mono {P' : Event → Prop} {post : α → Prop} {p : Resident α} (h : WorksThen P post p)
    (hP : ∀ e, P e → P' e) : WorksThen P' post p :=
  Program.Asks.mono h (fun _ hop => ⟨⟨fun e he => hP e (hop.1.1 e he), hop.1.2⟩, hop.2⟩)

theorem writes_call {op : StoreOp} (h : ∀ e ∈ op.event, P e) :
    Writes P (lift (call op) : Resident op.Reply) :=
  asks_call ⟨h, id⟩ (fun _ _ => trivial)

theorem works_call {op : StoreOp} (h : ∀ e ∈ op.event, P e) (hlook : ¬ LooksAtRuns (.inl op)) :
    Works P (lift (call op) : Resident op.Reply) :=
  asks_call ⟨⟨h, id⟩, hlook⟩ (fun _ _ => trivial)

theorem works_now : Works P (now : Resident DateTime) :=
  works_call (fun e he => absurd he (Option.not_mem_none e)) id

theorem writes_now : Writes P (now : Resident DateTime) := works_now.writes

/-- The events of a run. -/
theorem worksThen_readAll (runId : String) :
    WorksThen P (fun events => ∀ e ∈ events, e.runId = runId)
      (readAll (some runId) : Resident (List Event)) :=
  asks_call ⟨⟨fun e he => absurd he (Option.not_mem_none e), id⟩, id⟩ (fun _ hr => hr)

theorem works_readAll (runId : Option String) : Works P (readAll runId : Resident (List Event)) :=
  works_call (fun e he => absurd he (Option.not_mem_none e)) id

theorem writes_readAll (runId : Option String) : Writes P (readAll runId : Resident (List Event)) :=
  (works_readAll runId).writes

theorem writes_projection (kind entityId : String) :
    Writes P (projection kind entityId : Resident (Option Dict)) :=
  writes_call (fun e he => absurd he (Option.not_mem_none e))

theorem works_projection {kind : String} (hkind : kind ≠ "run") (entityId : String) :
    Works P (projection kind entityId : Resident (Option Dict)) :=
  works_call (fun e he => absurd he (Option.not_mem_none e)) hkind

theorem writes_snapshot (runId : Option String) :
    Writes P (snapshot runId : Resident (String → List Dict)) :=
  writes_call (fun e he => absurd he (Option.not_mem_none e))

theorem works_snapshot (runId : String) :
    Works P (snapshot (some runId) : Resident (String → List Dict)) :=
  works_call (fun e he => absurd he (Option.not_mem_none e)) (Option.some_ne_none runId)

theorem works_memory (i : ℕ) (op : MemoryOp) (h : ¬ MovesCursor (.inr (.memory i op))) :
    Works P (memory i op) :=
  ⟨⟨⟨fun e he => absurd he (Option.not_mem_none e), h⟩, id⟩, fun _ _ _ _ => trivial⟩

theorem writes_memory (i : ℕ) (op : MemoryOp) (h : ¬ MovesCursor (.inr (.memory i op))) :
    Writes P (memory i op) :=
  (works_memory i op h).writes

/-- An append, and the fact that it returns. -/
theorem worksThen_append {dispatch : Option DispatchContext} {e : DateTime → Event}
    (h : ∀ t, P (e t)) :
    WorksThen P (fun stored => ∃ t, stored.SameFact (e t)) (append dispatch e) := by
  refine asks_bind works_now (fun t _ => ?_)
  refine asks_raising ⟨⟨⟨fun f hf => ?_, id⟩, id⟩, fun r hr stored hstored => ⟨t, hr stored hstored⟩⟩
  obtain rfl := Option.some.inj hf
  exact h t

theorem works_append {dispatch : Option DispatchContext} {e : DateTime → Event}
    (h : ∀ t, P (e t)) : Works P (append dispatch e : Resident Event) :=
  Program.Asks.weaken (worksThen_append h) (fun _ _ _ _ => trivial)

theorem writes_append {dispatch : Option DispatchContext} {e : DateTime → Event}
    (h : ∀ t, P (e t)) : Writes P (append dispatch e : Resident Event) :=
  (works_append h).writes

theorem writes_then {p : Resident α} {f : α → β} (h : Asks RepliesFact Q (fun _ => True) p) :
    Asks RepliesFact Q (fun _ => True) (p >>= fun a => (pure (f a) : Resident β)) :=
  asks_bind h (fun _ _ => asks_pure trivial)

theorem writes_required (state : Dict) (key : String) :
    Asks RepliesFact Q (fun _ => True) (required state key : Resident Json) :=
  Program.Asks.weaken asks_required (fun _ _ _ _ => trivial)

theorem works_ofLog (f : List Event → Except RuntimeError α) :
    Works P (DurableMailbox.ofLog f : Resident α) :=
  asks_bind (works_readAll none) (fun _ _ _ _ => trivial)

theorem writes_ofLog (f : List Event → Except RuntimeError α) :
    Writes P (DurableMailbox.ofLog f : Resident α) :=
  (works_ofLog f).writes

theorem writes_countEach {body : β → Resident ℕ} {xs : List β}
    (h : ∀ x ∈ xs, Asks RepliesFact Q (fun _ => True) (body x)) :
    Asks RepliesFact Q (fun _ => True) (countEach body xs) := by
  induction xs with
  | nil => exact asks_pure trivial
  | cons x xs ih =>
      refine asks_bind (h x List.mem_cons_self) (fun _ _ => writes_then (ih ?_))
      exact fun y hy => h y (List.mem_cons_of_mem x hy)

/-- The first event of a type is one of the events. -/
theorem asks_firstOrStop (events : List Event) (type : String) :
    Asks RepliesFact Q (fun e => e ∈ events) (firstOrStop events type) := by
  unfold firstOrStop
  split
  next e he => exact asks_pure (List.mem_of_find?_eq_some he)
  next => exact asks_throw _

theorem writes_firstOrStop (events : List Event) (type : String) :
    Asks RepliesFact Q (fun _ => True) (firstOrStop events type) :=
  Program.Asks.weaken (asks_firstOrStop events type) (fun _ _ _ _ => trivial)

theorem writesThen_mono {P' : Event → Prop} {post : α → Prop} {p : Resident α}
    (h : WritesThen P post p) (hP : ∀ e, P e → P' e) : WritesThen P' post p :=
  Program.Asks.mono h (fun _ hop => ⟨fun e he => hP e (hop.1 e he), hop.2⟩)

end writes

/-! ### Code that is quiet for the outbox -/

/-- No delivery, no assignment, no released arm and no expired lease. -/
def QuietType (type : String) : Prop :=
  type ∉ ["mailbox.delivery.sent", "assignment.created", "eval.arm.released",
    "assignment.lease.expired"]

instance : DecidablePred QuietType := fun _ => inferInstanceAs (Decidable (_ ∉ _))

/-- The event is of such a type. -/
def Quiet (e : Event) : Prop := QuietType e.type

theorem quiet_append {dispatch : Option DispatchContext} {e : DateTime → Event} {β : Type} {b : β}
    {type : String} (hquiet : QuietType type) (htype : ∀ t, (e t).type = type) :
    Writes Quiet (append dispatch e >>= fun _ => (pure b : Resident β)) := by
  refine writes_then (writes_append (fun t => ?_))
  rw [Quiet, htype t]
  exact hquiet

/-! ### Code that ends parts of runs -/

/-- The facts that end a part of a run. -/
def partTypes : List String :=
  ["runtime.delivery.cancellation.requested", "runtime.delivery.cancelled", "assignment.cancelled",
    "assignment.failed", "assignment.lease.released", "mailbox.delivery.acked"]

/-- The event is such a fact. -/
def EndsPart (e : Event) : Prop := e.type ∈ partTypes

theorem works_partAppend {dispatch : Option DispatchContext} {e : DateTime → Event} {β : Type} {b : β}
    {type : String} (hpart : type ∈ partTypes) (htype : ∀ t, (e t).type = type) :
    Works EndsPart (append dispatch e >>= fun _ => (pure b : Resident β)) := by
  refine writes_then (works_append (fun t => ?_))
  rw [EndsPart, htype t]
  exact hpart

theorem works_schedulerCancelRun (i : ℕ) (runId reason : String) (recordEvents : Bool) :
    Works EndsPart (schedulerCancelRun i runId reason recordEvents) := by
  refine asks_bind (works_memory i (.cancelRun runId reason) id) (fun targets _ => ?_)
  cases recordEvents with
  | true =>
      refine writes_then (asks_each (fun r => ?_) targets)
      exact works_partAppend (by decide) (fun _ => rfl)
  | false => exact writes_then (asks_pure trivial)

theorem works_closeAssignmentsAndLeases {c : Closing}
    (hc : c.assignmentType ∈ partTypes) (identity : Event) (reason : String) :
    Works EndsPart (closeAssignmentsAndLeases c identity reason) := by
  refine asks_bind (works_snapshot _) (fun projections _ => ?_)
  refine asks_bind (asks_each (fun assignment => ?_) _) (fun _ _ => asks_each (fun lease => ?_) _)
  · unfold closeAssignment
    split
    · exact asks_pure trivial
    · exact asks_bind (writes_required _ _) (fun _ _ => works_partAppend hc (fun _ => rfl))
  · unfold closeLease
    split
    · refine asks_bind (writes_required _ _) (fun _ _ => asks_bind (writes_required _ _) (fun _ _ => ?_))
      exact works_partAppend (by decide) (fun _ => rfl)
    · exact asks_pure trivial

theorem works_ackUnlessFenced (mailboxId deliveryId : String) :
    Works EndsPart (ackUnlessFenced mailboxId deliveryId) := by
  have hack : Works EndsPart (DurableMailbox.ack none mailboxId deliveryId : Resident Unit) := by
    refine asks_bind (works_ofLog _) (fun pending _ => ?_)
    unfold DurableMailbox.ackPending
    split
    · have hevent : WorksThen EndsPart (fun fact => ∀ t, (fact t).type = "mailbox.delivery.acked")
          (DurableMailbox.ackEventOf mailboxId deliveryId : Resident (DateTime → Event)) := by
        refine asks_bind (works_ofLog _) (fun d _ => ?_)
        cases d with
        | none => exact asks_throw _
        | some d => exact asks_pure (fun _ => rfl)
      exact asks_bind hevent (fun fact hfact => works_partAppend (by decide) hfact)
    · exact asks_pure trivial
  refine asks_handle (writes_then hack) (fun e => ?_)
  split
  · exact asks_pure trivial
  · exact asks_throw _

/-- A loop over the pending deliveries writes what its body writes. -/
theorem works_overPending {P : Event → Prop} {body : String → Delivery → Resident ℕ}
    (h : ∀ mailboxId d, Works P (body mailboxId d)) : Works P (overPending body) := by
  refine writes_countEach (fun mailboxId _ => ?_)
  exact asks_bind (works_ofLog _) (fun pending _ => writes_countEach (fun d _ => h mailboxId d))

theorem works_cancelQueuedDeliveries (runId reason : String) :
    Works EndsPart (cancelQueuedDeliveries runId reason) := by
  refine works_overPending (fun mailboxId d => ?_)
  unfold cancelQueuedDelivery
  split
  · refine asks_bind (works_ackUnlessFenced _ _) (fun acked _ => ?_)
    split
    · exact writes_then (works_partAppend (by decide) (fun _ => rfl))
    · exact asks_pure trivial
  · exact asks_pure trivial

theorem works_failQueuedDeliveries (runId reason : String) :
    Works EndsPart (failQueuedDeliveries runId reason) := by
  refine works_overPending (fun mailboxId d => ?_)
  unfold failQueuedDelivery
  split
  · have hfail : Works EndsPart (raising (call (.failWorkClaimBundle
        ("delivery:" ++ mailboxId ++ ":" ++ d.deliveryId))) : Resident ℕ) :=
      asks_raising ⟨⟨⟨fun e he => absurd he (Option.not_mem_none e), id⟩, id⟩, fun _ _ _ _ => trivial⟩
    refine asks_bind hfail (fun _ _ => ?_)
    refine asks_bind (works_partAppend (by decide) (fun _ => rfl)) (fun _ _ => ?_)
    exact writes_then (works_ackUnlessFenced _ _)
  · exact asks_pure trivial

theorem works_anyPending {P : Event → Prop} (runId : String) (mailboxIds : List String) :
    Works P (anyPending runId mailboxIds) := by
  induction mailboxIds with
  | nil => exact asks_pure trivial
  | cons mailboxId mailboxIds ih =>
      refine asks_bind (works_ofLog _) (fun pending _ => ?_)
      split
      · exact asks_pure trivial
      · exact ih

/-! ### Code that ends runs -/

/-- The facts that end a run, or a part of it. -/
def endTypes : List String := ["run.cancel.requested", "run.cancelled", "run.failed"] ++ partTypes

/-- The event is such a fact. -/
def EndsRun (e : Event) : Prop := e.type ∈ endTypes

theorem EndsRun.quiet {e : Event} (h : EndsRun e) : Quiet e := by
  have hall : ∀ type ∈ endTypes, QuietType type := by decide
  exact hall e.type h

theorem ends_append {dispatch : Option DispatchContext} {e : DateTime → Event} {β : Type} {b : β}
    {type : String} (hends : type ∈ endTypes) (htype : ∀ t, (e t).type = type) :
    Writes EndsRun (append dispatch e >>= fun _ => (pure b : Resident β)) := by
  refine writes_then (writes_append (fun t => ?_))
  rw [EndsRun, htype t]
  exact hends

/-- What ends a part of a run is among what ends it. -/
theorem ends_of_part {α : Type} {p : Resident α} (h : Works EndsPart p) : Writes EndsRun p :=
  writesThen_mono h.writes (fun _ => List.mem_append_right _)

theorem ends_finalizeFailedRun (i : ℕ) (requested : Event) (reason : String) :
    Writes EndsRun (finalizeFailedRun i requested reason) := by
  refine asks_bind (writes_projection _ _) (fun run _ => ?_)
  dsimp only
  split
  · exact asks_pure trivial
  · refine asks_bind (ends_of_part (works_schedulerCancelRun _ _ _ _)) (fun _ _ => ?_)
    refine asks_bind (ends_of_part (works_closeAssignmentsAndLeases (by decide) _ _)) (fun _ _ => ?_)
    refine asks_bind (ends_of_part (works_failQueuedDeliveries _ _)) (fun _ _ => ?_)
    unfold runFailedUnless
    split
    · exact asks_pure trivial
    · exact ends_append (by decide) (fun _ => rfl)

theorem quiet_finalizeFailedRun (i : ℕ) (requested : Event) (reason : String) :
    Writes Quiet (finalizeFailedRun i requested reason) :=
  writesThen_mono (ends_finalizeFailedRun i requested reason) (fun _ => EndsRun.quiet)

theorem ends_finalizeCancelledRun (i : ℕ) (identity : Event) (reason : String) :
    Writes EndsRun (finalizeCancelledRun i identity reason) := by
  refine asks_bind (writes_then (writes_memory i .inFlight id)) (fun inFlight _ => ?_)
  split
  · exact asks_pure trivial
  · refine asks_bind (works_anyPending _ _).writes (fun pending _ => ?_)
    unfold runCancelledUnless
    split
    · exact asks_pure trivial
    · exact ends_append (by decide) (fun _ => rfl)

theorem ends_cancelRun (i : ℕ) (runId reason : String) :
    Writes EndsRun (cancelRun i runId reason) := by
  have hstatus : ∀ run, Writes EndsRun (statusText run) :=
    fun run => writes_then (writes_required _ _)
  refine asks_bind (writes_projection _ _) (fun run _ => ?_)
  cases run with
  | none => exact asks_throw _
  | some run =>
      simp only [cancelKnownRun]
      split
      · exact writes_then (hstatus _)
      · refine asks_bind (writes_readAll _) (fun events _ => ?_)
        refine asks_bind (writes_firstOrStop _ _) (fun identity _ => ?_)
        have hrequested : Writes EndsRun (appendDeterministic none identity
            ("run-cancel-requested:" ++ runId) "run.cancel.requested" [("reason", .str reason)]
            "runtime.cancel" : Resident Event) :=
          writes_append (fun _ => List.mem_cons_self)
        refine asks_bind hrequested (fun requested _ => ?_)
        refine asks_bind (ends_of_part (works_schedulerCancelRun _ _ _ _)) (fun _ _ => ?_)
        refine asks_bind (ends_of_part (works_closeAssignmentsAndLeases (by decide) _ _)) (fun _ _ => ?_)
        refine asks_bind (ends_of_part (works_cancelQueuedDeliveries _ _)) (fun _ _ => ?_)
        refine asks_bind (ends_finalizeCancelledRun _ _ _) (fun _ _ => ?_)
        exact asks_bind (writes_projection _ _) (fun run _ => writes_then (hstatus run))

end CrazyHarness
