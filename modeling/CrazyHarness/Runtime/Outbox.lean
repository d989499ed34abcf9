import CrazyHarness.Runtime.Writes
import CrazyHarness.Runtime.Ensures

/-! # Exactly one delivery

What the outbox has passed has been delivered, under the name that the event and its receiver give;
the only other name under which an event for a worker is sent is that of `_fail_assignment`.

* `delivered_once_iff`: an event that the outbox has passed is carried by exactly one delivery
  exactly when `_fail_assignment` has not sent it.
* `failure_delivered_twice`: the nudge of a failed assignment. -/

namespace CrazyHarness

open Lib RuntimeM

/-! ### Deliveries in the log -/

/-- A delivery of that name carries the event in the mailbox. -/
def Carried (log : List Event) (mailboxId deliveryId : String) (e : Event) : Prop :=
  ∃ f ∈ mailboxFacts log "mailbox.delivery.sent" mailboxId,
    deliveryIdOf f = .ok deliveryId ∧ carriedEvent f = .ok e

/-- The event is for a worker with a mailbox. -/
def RoutedTo (e : Event) (mailboxId : String) : Prop :=
  routeReceiver e = some (.str mailboxId) ∧ mailboxId ∈ mailboxIds

/-- A delivery under the name of the outbox, or of a failed assignment, or of an event that the
outbox does not deliver. -/
def Named (mailboxId : String) (d : Delivery) : Prop :=
  d.deliveryId = routeId d.event mailboxId ∨ (∃ a, d.deliveryId = teamFailureId a) ∨
    routeReceiver d.event = none

/-- The identifier of the assignment of a run with a single agent. -/
def singleAssignmentId (runId : String) : String :=
  uuid5 ("crazy:run:" ++ runId ++ ":single-assignment")

/-- A held assignment as `_prepare_single_task` writes it. -/
def PreparedSingle (e : Event) : Prop :=
  e.id = singleAssignmentId e.runId ∧ e.get? "agent_id" = some (.str "generalist") ∧
    e.get? "execution_mode" = none

/-- What may be written to the log at any time: deliveries have their names, held assignments are
those of prepared runs, and the arms of single agents are released elsewhere. -/
structure Ordinary (e : Event) : Prop where
  sent : e.type = "mailbox.delivery.sent" → ∃ mailboxId d t, e = sentEvent mailboxId d t ∧
    Named mailboxId d
  held : Held e → PreparedSingle e
  released : e.type = "eval.arm.released" → e.get? "execution_mode" ≠ some (.str "single")

/-- The assignment of a released run has been delivered. -/
def ReleaseDelivered (log : List Event) (runId : String) : Prop :=
  ∃ a ∈ log, a.id = singleAssignmentId runId ∧ Carried log "generalist" (routeId a "generalist") a

/-- What may be written to this log. -/
structure Allowed (log : List Event) (e : Event) : Prop where
  sent : e.type = "mailbox.delivery.sent" → ∃ mailboxId d t, e = sentEvent mailboxId d t ∧
    Named mailboxId d
  held : Held e → PreparedSingle e
  released : e.type = "eval.arm.released" → e.get? "execution_mode" = some (.str "single") →
    ∀ runId, e.get? "run_id" = some (.str runId) → ReleaseDelivered log runId

/-- The outbox has passed the first events of the log: those for workers have been delivered, but
for held assignments. -/
structure Passed (log : List Event) (cursor : ℕ) : Prop where
  le : cursor ≤ log.length
  delivered : ∀ idx e, idx < cursor → log[idx]? = some e → ∀ mailboxId, RoutedTo e mailboxId →
    Held e ∨ Carried log mailboxId (routeId e mailboxId) e

/-- The log and the cursors of the outboxes. -/
structure Outbox (w : ResidentWorld) : Prop where
  allowed : ∀ e ∈ w.store.db.events.rows, Allowed w.store.db.events.rows e
  passed : ∀ i, Passed w.store.db.events.rows (w.memory i).routeCursor

/-- The log has grown. -/
def LogGrows (w w' : ResidentWorld) : Prop := w.store.db.events.rows <+: w'.store.db.events.rows

theorem LogGrows.refl (w : ResidentWorld) : LogGrows w w := List.prefix_refl _

theorem LogGrows.trans {w w' w'' : ResidentWorld} (h : LogGrows w w') (h' : LogGrows w' w'') :
    LogGrows w w'' := List.IsPrefix.trans h h'

section log

variable {log log' : List Event} {mailboxId deliveryId : String} {e : Event}

theorem Carried.mono (h : Carried log mailboxId deliveryId e) (hsub : log ⊆ log') :
    Carried log' mailboxId deliveryId e := by
  obtain ⟨f, hf, hrest⟩ := h
  obtain ⟨hmem, hp⟩ := List.mem_filter.mp hf
  exact ⟨f, List.mem_filter.mpr ⟨hsub hmem, hp⟩, hrest⟩

/-- The fact that a delivery was sent says what it carries. -/
theorem carried_of_sent {f : Event} {d : Delivery} {t : DateTime} (hf : f ∈ log)
    (hsent : f.SameFact (sentEvent mailboxId d t)) :
    Carried log mailboxId d.deliveryId d.event := by
  have htype : f.type = "mailbox.delivery.sent" := (congrArg Event.type hsent :)
  have hpayload : f.payload = (sentEvent mailboxId d t).payload := (congrArg Event.payload hsent :)
  refine ⟨f, List.mem_filter.mpr ⟨hf, ?_⟩, ?_, ?_⟩
  · simp [htype, Event.get?, hpayload, sentEvent]
  · simp [deliveryIdOf, Event.get?, hpayload, sentEvent, Dict.get?_cons, Json.pyStr]
  · simp [carriedEvent, Event.get?, hpayload, sentEvent, Dict.get?_cons]

/-- What is carried was sent under one of the names. -/
theorem named_of_carried {d : Delivery} {t : DateTime} {m : String}
    (hmem : sentEvent m d t ∈ mailboxFacts log "mailbox.delivery.sent" mailboxId)
    (hid : deliveryIdOf (sentEvent m d t) = .ok deliveryId)
    (hevent : carriedEvent (sentEvent m d t) = .ok e) :
    m = mailboxId ∧ d.deliveryId = deliveryId ∧ d.event = e := by
  have hp := (List.mem_filter.mp hmem).2
  simp only [decide_eq_true_eq] at hp
  refine ⟨?_, ?_, ?_⟩
  · simpa [Event.get?, sentEvent, Dict.get?_cons] using hp.2
  · simpa [deliveryIdOf, Event.get?, sentEvent, Dict.get?_cons, Json.pyStr] using hid
  · simpa [carriedEvent, Event.get?, sentEvent, Dict.get?_cons] using hevent

theorem deliveryIn_carried {d : Delivery} (hname : deliveryId ≠ "None")
    (h : deliveryIn mailboxId deliveryId log = .ok (some d)) :
    Carried log mailboxId deliveryId d.event := by
  unfold deliveryIn at h
  split at h
  next => cases h
  next f hfind =>
    obtain ⟨event, hevent, h⟩ := bind_ok_iff.mp h
    obtain rfl := Option.some.inj (Except.ok.inj h)
    refine ⟨f, List.mem_of_find?_eq_some hfind, ?_, hevent⟩
    have hid := List.find?_some hfind
    simp only [decide_eq_true_eq] at hid
    unfold deliveryIdOf
    cases hget : f.get? "delivery_id" with
    | none =>
        rw [hget] at hid
        exact absurd hid.symm hname
    | some id =>
        rw [hget] at hid
        exact congrArg Except.ok hid

end log

section keeps

variable {w w' : ResidentWorld} {e : Event} {es log log' : List Event} {cursor : ℕ}

theorem Allowed.mono (h : Allowed log e) (hsub : log ⊆ log') : Allowed log' e where
  sent := h.sent
  held := h.held
  released := by
    intro htype hmode runId hrun
    obtain ⟨a, ha, hid, hc⟩ := h.released htype hmode runId hrun
    exact ⟨a, hsub ha, hid, hc.mono hsub⟩

theorem Ordinary.allowed (h : Ordinary e) (log : List Event) : Allowed log e where
  sent := h.sent
  held := h.held
  released := fun htype hmode => absurd hmode (h.released htype)

theorem Quiet.ordinary (h : Quiet e) : Ordinary e where
  sent := fun htype => by simp [Quiet, QuietType, htype] at h
  held := fun hheld => by simp [Quiet, QuietType, hheld.1] at h
  released := fun htype => by simp [Quiet, QuietType, htype] at h

/-- A fact that is quiet, or a delivery under one of the names. -/
def Routine (e : Event) : Prop :=
  Quiet e ∨ ∃ mailboxId d t, e = sentEvent mailboxId d t ∧ Named mailboxId d

theorem ordinary_sent {mailboxId : String} {d : Delivery} (h : Named mailboxId d) (t : DateTime) :
    Ordinary (sentEvent mailboxId d t) where
  sent := fun _ => ⟨mailboxId, d, t, rfl, h⟩
  held := fun hheld => by simp [Held, sentEvent] at hheld
  released := fun htype => by simp [sentEvent] at htype

theorem Routine.ordinary (h : Routine e) : Ordinary e := by
  rcases h with hquiet | ⟨mailboxId, d, t, rfl, hnamed⟩
  · exact hquiet.ordinary
  · exact ordinary_sent hnamed t

theorem Passed.mono (h : Passed log cursor) (hlog : log <+: log') : Passed log' cursor where
  le := h.le.trans hlog.length_le
  delivered := by
    intro idx e hidx he mailboxId hto
    obtain ⟨rest, rfl⟩ := hlog
    rw [List.getElem?_append_left (lt_of_lt_of_le hidx h.le)] at he
    exact (h.delivered idx e hidx he mailboxId hto).imp_right
      (fun hc => hc.mono (List.subset_append_left _ _))

/-- The outbox passes one more event. -/
theorem Passed.succ (h : Passed log cursor) (he : log[cursor]? = some e)
    (hdelivered : ∀ mailboxId, RoutedTo e mailboxId →
      Held e ∨ Carried log mailboxId (routeId e mailboxId) e) : Passed log (cursor + 1) where
  le := (List.getElem?_eq_some_iff.mp he).1
  delivered := by
    intro idx f hidx hf
    rcases Nat.lt_succ_iff_lt_or_eq.mp hidx with hlt | rfl
    · exact h.delivered idx f hlt hf
    · rw [he] at hf
      obtain rfl := Option.some.inj hf
      exact hdelivered

/-! ### What is written keeps the outbox -/

/-- Events are written, and the cursors stay. -/
theorem Outbox.wrote (h : Outbox w) (hw : w.store.db.Wrote es w'.store.db)
    (hes : ∀ e ∈ es, Allowed w.store.db.events.rows e)
    (hcursor : ∀ i, (w'.memory i).routeCursor = (w.memory i).routeCursor) :
    Outbox w' ∧ LogGrows w w' := by
  have hgrow : LogGrows w w' := by
    rw [LogGrows, hw.rows]
    exact List.prefix_append _ _
  refine ⟨⟨?_, ?_⟩, hgrow⟩
  · intro e he
    rw [hw.rows] at he
    rcases List.mem_append.mp he with he | he
    · exact (h.allowed e he).mono hgrow.subset
    · exact (hes e he).mono hgrow.subset
  · intro i
    rw [hcursor]
    exact (h.passed i).mono hgrow

theorem routeCursor_setMemory {i j : ℕ} {m : ProcessMemory}
    (h : m.routeCursor = (w.memory i).routeCursor) :
    ((w.setMemory i m).memory j).routeCursor = (w.memory j).routeCursor := by
  unfold ResidentWorld.setMemory
  dsimp only
  by_cases hj : j = i
  · subst hj
    rw [Function.update_self, h]
  · rw [Function.update_of_ne hj]

theorem routeCursor_run (m : ProcessMemory) (op : MemoryOp) (i : ℕ)
    (h : ¬ MovesCursor (.inr (.memory i op))) : (op.run m).2.routeCursor = m.routeCursor := by
  cases op with
  | setRouteCursor cursor => exact absurd trivial h
  | _ => rfl

/-- A step that writes only ordinary events keeps the outbox. -/
theorem Outbox.step (h : Outbox w) {op : (withStore residentInterface).Op}
    {r : (withStore residentInterface).Reply op} (hop : WritesIn Ordinary op)
    (hstep : residentStep w op r w') : Outbox w' ∧ LogGrows w w' := by
  obtain ⟨-, es, hes, hwrote⟩ := residentStep_wrote hstep
  refine h.wrote hwrote (fun e he => (hop.1 e (Option.mem_toList.mp (hes he))).allowed _) ?_
  intro i
  cases op with
  | inl op =>
      obtain ⟨s, -, rfl⟩ := hstep
      rfl
  | inr op =>
      cases op with
      | memory j op =>
          obtain ⟨-, rfl⟩ := hstep
          exact routeCursor_setMemory (routeCursor_run _ op j hop.2)
      | handle ownerId reservation =>
          obtain rfl := hstep
          rfl
      | outcome =>
          obtain rfl := hstep
          rfl
      | expire clock lease e =>
          obtain ⟨t, s, -, -, rfl⟩ := hstep
          rfl

end keeps

/-! ### What the routing code writes -/

section writes

variable {e : Event}

theorem writes_deliver (dispatch : Option DispatchContext) {receiver deliveryId : String}
    (h : Named receiver ⟨deliveryId, e⟩) :
    Writes Routine (deliver dispatch receiver e deliveryId) := by
  refine writes_then (asks_bind (writes_ofLog _) (fun existing _ => ?_))
  cases existing with
  | some existing =>
      show Writes Routine (ite _ _ _)
      split
      · exact asks_pure trivial
      · exact asks_throw _
  | none => exact writes_then (writes_append (fun t => .inr ⟨_, _, t, rfl, h⟩))

/-- A fact that is quiet, and what its append returns. -/
theorem writesThen_quiet {dispatch : Option DispatchContext} {f : DateTime → Event} {type : String}
    (hquiet : QuietType type) (htype : ∀ t, (f t).type = type) :
    WritesThen Routine (fun stored => stored.type = type) (append dispatch f) := by
  have hroutine : ∀ t, Routine (f t) := by
    intro t
    refine .inl ?_
    rw [Quiet, htype]
    exact hquiet
  refine Program.Asks.weaken (worksThen_append hroutine).writes ?_
  rintro r hr stored rfl
  obtain ⟨t, ht⟩ := hr stored rfl
  rw [← htype t]
  exact (congrArg Event.type ht :)

theorem writes_nudgeCoordinator (cause : Event) (key : String) (payload : Dict) :
    Writes Routine (nudgeCoordinator cause key payload) := by
  refine asks_bind (writesThen_quiet (by decide) (fun _ => rfl)) (fun nudge _ => ?_)
  exact writes_then (writes_deliver none (.inl rfl))

theorem writes_anyOf {β : Type} {body : β → Resident Bool} (h : ∀ x, Writes Routine (body x))
    (xs : List β) : Writes Routine (anyOf body xs) := by
  induction xs with
  | nil => exact asks_pure trivial
  | cons x xs ih =>
      refine asks_bind (h x) (fun found _ => ?_)
      split
      · exact asks_pure trivial
      · exact ih

theorem writes_agentAvailable (leases : List Dict) (sets : List (List String)) (agent : Dict) :
    Writes Routine (agentAvailable leases sets agent) := by
  have hset : ∀ value, Writes Routine (setOf value) := by
    intro value
    unfold setOf
    split
    · split
      · exact asks_pure trivial
      · exact asks_throw _
    · exact asks_pure trivial
    · exact asks_pure trivial
    · exact asks_throw _
  unfold agentAvailable
  split
  · have hint : Writes Routine (intOrRaise (agent.getD "max_concurrency" (.int 1)) : Resident ℤ) :=
      asks_intOrRaise
    refine asks_bind (writes_required _ _) (fun agentId _ => asks_bind hint (fun maxConcurrency _ => ?_))
    split
    · exact writes_anyOf (fun _ => writes_then (hset _)) sets
    · exact asks_pure trivial
  · exact asks_pure trivial

theorem writes_routeWaiterIfReady (i : ℕ) (waiting : Event) :
    Writes Routine (routeWaiterIfReady i waiting) := by
  refine asks_bind (writes_then (writes_projection _ _)) (fun running _ => ?_)
  split
  · have hsets : Writes Routine (requiredSets waiting) := by
      unfold requiredSets
      split
      · exact asks_pure trivial
      · exact asks_pure trivial
      · exact asks_pure trivial
      · exact asks_throw _
    refine asks_bind hsets (fun sets _ => ?_)
    split
    · exact asks_pure trivial
    · refine asks_bind (writes_snapshot none) (fun projections _ => ?_)
      refine asks_bind (writes_anyOf (writes_agentAvailable _ _) _) (fun available _ => ?_)
      unfold nudgeIfAvailable
      split
      · exact writes_nudgeCoordinator _ _ _
      · exact asks_pure trivial
  · exact writes_then (writes_memory i (.popWaiter waiting.runId) id)

theorem writes_routeCapacityWaiters (i : ℕ) : Writes Routine (routeCapacityWaiters i) := by
  have heach : ∀ waiters, Writes Routine (routeEachWaiter i waiters) := by
    intro waiters
    induction waiters with
    | nil => exact asks_pure trivial
    | cons waiting rest ih =>
        exact asks_bind (writes_routeWaiterIfReady i waiting) (fun _ _ => writes_then ih)
  exact asks_bind (writes_memory i .waiters id) (fun waiters _ => heach _)

theorem writes_queueDream (succeeded : Event) : Writes Routine (queueDream succeeded) := by
  refine asks_bind (writesThen_quiet (by decide) (fun _ => rfl)) (fun signal _ => ?_)
  refine asks_bind (writes_required _ _) (fun recorded _ => ?_)
  refine asks_bind (writesThen_quiet (by decide) (fun _ => rfl)) (fun job hjob => ?_)
  exact writes_deliver none (.inr (.inr (by simp [routeReceiver, hjob])))

theorem writes_routeElsewhere (e : Event) : Writes Routine (routeElsewhere e) := by
  unfold routeElsewhere
  split
  · exact writes_then (writes_queueDream e)
  · exact asks_pure trivial

theorem writes_routeTo (e : Event) (receiver : Option Json) : Writes Routine (routeTo e receiver) := by
  unfold routeTo
  split
  · split
    · exact writes_then (writes_deliver none (.inl rfl))
    · exact writes_routeElsewhere e
  · split
    · exact writes_routeElsewhere e
    · exact asks_throw _
  · exact writes_routeElsewhere e

theorem writes_routeHeld (e : Event) :
    Writes Routine (pairedAssignmentIsCommitted e >>= routeHeld e) := by
  have hcommitted : Writes Routine (pairedAssignmentIsCommitted e) := by
    refine asks_bind (writes_readAll _) (fun events _ => ?_)
    unfold pairedCommittedBy
    split
    · exact writes_then (writes_readAll _)
    · exact asks_pure trivial
  refine asks_bind hcommitted (fun committed _ => ?_)
  unfold routeHeld
  split
  · exact writes_routeTo e _
  · exact asks_pure trivial

theorem writes_routeFact (i : ℕ) (e : Event) : Writes Routine (routeFact i e) := by
  unfold routeFact
  split
  · exact writes_then (writesThen_mono (quiet_finalizeFailedRun i e _) (fun _ => .inl))
  · split
    · refine asks_bind (writes_then (writes_projection _ _)) (fun running _ => ?_)
      unfold routeRejection
      split
      · exact writes_nudgeCoordinator _ _ _
      · exact asks_pure trivial
    · split
      · exact writes_routeCapacityWaiters i
      · unfold routeToReceiver
        split
        · exact writes_routeHeld e
        · exact writes_routeTo e _

theorem writes_dropEnded (i : ℕ) (e : Event) : Writes Routine (dropEnded i e) := by
  unfold dropEnded
  split
  · exact writes_then (writes_memory i (.popWaiter e.runId) id)
  · exact asks_pure trivial

theorem writes_routeEvent (i : ℕ) (e : Event) : Writes Routine (routeEvent i e) := by
  have hdrop : Writes Routine (dropWaiter i e.runId) :=
    writes_then (writes_memory i (.popWaiter e.runId) id)
  unfold routeEvent
  split
  · refine asks_bind (writes_then (writes_projection _ _)) (fun running _ => ?_)
    unfold routeWaiting
    split
    · exact asks_bind (writes_memory i (.setWaiter e) id) (fun _ _ => writes_routeWaiterIfReady i e)
    · exact hdrop
  · split
    · refine asks_bind (writes_memory i .waiters id) (fun waiters _ => ?_)
      dsimp only
      split
      · exact hdrop
      · exact asks_pure trivial
    · exact asks_bind (writes_dropEnded i e) (fun _ _ => writes_routeFact i e)

theorem writes_failAssignment (dispatch : Option DispatchContext) (assignment : Event)
    (reason causationId : String) :
    Writes Routine (failAssignment dispatch assignment reason causationId) := by
  refine asks_bind (writes_required _ _) (fun assignmentId _ => ?_)
  refine asks_bind (writes_projection _ _) (fun lease _ => ?_)
  refine asks_bind (writes_required _ _) (fun stageId _ => ?_)
  refine asks_bind (writes_required _ _) (fun agentId _ => ?_)
  refine asks_bind (writesThen_quiet (by decide) (fun _ => rfl)) (fun failed _ => ?_)
  have hrelease : Writes Routine (releaseFailedLease dispatch failed assignmentId.pyStr stageId
      agentId lease) := by
    unfold releaseFailedLease
    split
    · refine asks_bind (writes_required _ _) (fun leaseId _ => asks_bind writes_now (fun t _ => ?_))
      exact writesThen_mono (quiet_append (by decide) (fun _ => rfl)) (fun _ => .inl)
    · exact asks_pure trivial
  refine asks_bind hrelease (fun _ _ => ?_)
  refine asks_bind (writesThen_quiet (by decide) (fun _ => rfl)) (fun nudge _ => ?_)
  exact writes_deliver dispatch (.inr (.inl ⟨_, rfl⟩))

end writes

/-! ### What the routing code ensures -/

/-- The code keeps the outbox, among others that do. -/
abbrev EnsuresOutbox {α : Type} (post : α → ResidentWorld → Prop) (p : Resident α)
    (w : ResidentWorld) : Prop := Ensures residentStep Outbox LogGrows LogGrows post p w

section ensures

variable {α : Type} {w : ResidentWorld} {e : Event}

theorem ensures_writes {post : α → Prop} {p : Resident α} (h : WritesThen Routine post p) :
    EnsuresOutbox (fun a _ => post a) p w :=
  ensures_of_asks (writesThen_mono h (fun _ => Routine.ordinary))
    (fun _ _ _ _ => repliesFact_of_step) (fun _ _ _ _ hinv => hinv.step)

theorem ensures_then {p : Resident α} {β : Type} {b : β} {post : ResidentWorld → Prop}
    (h : EnsuresOutbox (fun _ w => post w) p w) :
    EnsuresOutbox (fun _ w => post w) (p >>= fun _ => (pure b : Resident β)) w :=
  ensures_bind h (fun _ _ hpost => ensures_pure hpost)

/-- The log, when it is read. -/
theorem ensures_readAll (runId : Option String) :
    EnsuresOutbox (fun events w => events = w.store.db.readAll runId)
      (readAll runId : Resident (List Event)) w := by
  refine ensures_lift ?_
  rintro w₁ events w₂ - hinv ⟨s, ⟨rfl, rfl⟩, rfl⟩
  exact ⟨hinv, .refl _, rfl⟩

/-- What was appended is in the log. -/
theorem ensures_append {dispatch : Option DispatchContext} {f : DateTime → Event}
    (h : ∀ t, Ordinary (f t)) :
    EnsuresOutbox (fun stored w => stored ∈ w.store.db.events.rows ∧ ∃ t, stored.SameFact (f t))
      (append dispatch f) w := by
  refine ensures_bind (ensures_writes writes_now) (fun t w _ => ensures_raising ?_)
  intro w₁ _ r w₂ _ hinv hstep
  have hop : WritesIn Ordinary (.inl (.append dispatch (f t))) :=
    ⟨fun e he => Option.some.inj he ▸ h t, id⟩
  obtain ⟨hinv', hgrow⟩ := hinv.step hop hstep
  refine ⟨(), hinv', hgrow, ?_⟩
  obtain ⟨s, ⟨d, now, -, -, hout⟩, rfl⟩ := hstep
  intro stored hr
  obtain ⟨hsame, hmem⟩ := append_sameFact hout hr
  exact ⟨hmem, t, hsame⟩

/-- **Delivering**: afterwards the event is carried under the name of the delivery. -/
theorem ensures_deliver (dispatch : Option DispatchContext) {receiver deliveryId : String}
    (hname : deliveryId ≠ "None") (h : Named receiver ⟨deliveryId, e⟩) :
    EnsuresOutbox (fun _ w => Carried w.store.db.events.rows receiver deliveryId e)
      (deliver dispatch receiver e deliveryId) w := by
  refine ensures_then ?_
  have hread : EnsuresOutbox
      (fun existing w => ∀ d ∈ existing, Carried w.store.db.events.rows receiver deliveryId d.event)
      (DurableMailbox.ofLog (deliveryIn receiver deliveryId)) w := by
    refine ensures_bind (ensures_readAll none) (fun log w hlog => ?_)
    intro existing hexisting d hd
    obtain rfl := hlog
    obtain rfl := hd
    exact deliveryIn_carried hname hexisting
  refine ensures_bind hread (fun existing w hcarried => ?_)
  cases existing with
  | some existing =>
      show EnsuresOutbox _ (ite _ _ _) w
      split
      next heq =>
        refine ensures_pure ?_
        have := hcarried existing rfl
        rwa [heq] at this
      next => exact ensures_throw _
  | none =>
      refine ensures_bind (ensures_append (ordinary_sent h)) (fun stored w hstored => ?_)
      obtain ⟨hmem, t, hsame⟩ := hstored
      exact ensures_pure (carried_of_sent hmem hsame)

theorem routeId_ne_none (e : Event) (mailboxId : String) : routeId e mailboxId ≠ "None" := by
  intro h
  have := congrArg (fun s => s.toList.head?) h
  simp [routeId] at this

/-- An event that is not held goes to its receiver. -/
theorem ensures_routeTo :
    EnsuresOutbox (fun _ w => ∀ mailboxId, RoutedTo e mailboxId →
      Carried w.store.db.events.rows mailboxId (routeId e mailboxId) e)
      (routeTo e (routeReceiver e)) w := by
  have hnone : ∀ {p : Resident Bool}, Writes Routine p → (∀ mailboxId, ¬ RoutedTo e mailboxId) →
      EnsuresOutbox (fun _ w => ∀ mailboxId, RoutedTo e mailboxId →
        Carried w.store.db.events.rows mailboxId (routeId e mailboxId) e) p w :=
    fun hp hno => (ensures_writes hp).weaken (fun _ _ _ mailboxId hto => absurd hto (hno mailboxId))
  have hreceiver : ∀ v, routeReceiver e = v → (∀ m, v ≠ some (.str m)) →
      ∀ mailboxId, ¬ RoutedTo e mailboxId :=
    fun v hv hne mailboxId hto => hne mailboxId (hv ▸ hto.1)
  unfold routeTo
  split
  next mailboxId hto =>
    split
    next hmem =>
      refine ensures_then ((ensures_deliver none (routeId_ne_none e mailboxId) (.inl rfl)).weaken ?_)
      intro _ w hcarried m hm
      have hsame : some (Json.str mailboxId) = some (.str m) := hto.symm.trans hm.1
      obtain rfl : mailboxId = m := by simpa using hsame
      exact hcarried
    next hmem =>
      refine hnone (writes_routeElsewhere e) (fun m hm => hmem ?_)
      have hsame : some (Json.str mailboxId) = some (.str m) := hto.symm.trans hm.1
      obtain rfl : mailboxId = m := by simpa using hsame
      exact hm.2
  next other hne hto =>
    have hno := hreceiver _ hto (fun m heq => hne m (Option.some.inj heq))
    split
    · exact hnone (writes_routeElsewhere e) hno
    · exact ensures_throw _
  next hto =>
    exact hnone (writes_routeElsewhere e) (hreceiver _ hto (fun m heq => by cases heq))

/-- **Routing**: afterwards an event for a worker has been delivered, unless it was held. -/
theorem ensures_routeEvent (i : ℕ) :
    EnsuresOutbox (fun _ w => ∀ mailboxId, RoutedTo e mailboxId →
      Held e ∨ Carried w.store.db.events.rows mailboxId (routeId e mailboxId) e) (routeEvent i e) w := by
  by_cases hroute : routeReceiver e = none ∨ Held e
  · refine (ensures_writes (writes_routeEvent i e)).weaken (fun _ w _ mailboxId hto => ?_)
    rcases hroute with hnone | hheld
    · rw [RoutedTo, hnone] at hto
      cases hto.1
    · exact .inl hheld
  · obtain ⟨hreceiver, hheld⟩ := not_or.mp hroute
    have htype : e.type ∈ ["assignment.created", "agent.result.submitted", "a2a.peer.requested",
        "a2a.peer.responded", "agent.nudged"] := by
      unfold routeReceiver at hreceiver
      split_ifs at hreceiver with h₁ h₂ h₃
      · simp [h₁]
      · simp only [List.mem_cons, List.not_mem_nil, or_false] at h₂ ⊢
        tauto
      · simp [h₃]
      · exact absurd rfl hreceiver
    have hcases : routeEvent i e = (dropEnded i e >>= fun _ => routeTo e (routeReceiver e)) := by
      unfold routeEvent routeFact CapacityRejection routeToReceiver
      simp only [List.mem_cons, List.not_mem_nil, or_false] at htype
      rcases htype with h | h | h | h | h <;> simp [h, hheld]
    rw [hcases]
    refine ensures_bind (ensures_writes (writes_dropEnded i e)) (fun _ w _ => ?_)
    exact ensures_routeTo.weaken (fun _ w hcarried mailboxId hto => .inr (hcarried mailboxId hto))

/-- What was the case of the log and is not undone as it grows. -/
theorem ensures_keep {post : α → ResidentWorld → Prop} {p : Resident α} {φ : ResidentWorld → Prop}
    (h : EnsuresOutbox post p w) (hφ : φ w) (hstable : ∀ w w', LogGrows w w' → φ w → φ w') :
    EnsuresOutbox (fun a w => φ w ∧ post a w) p w :=
  Ensures.keep h LogGrows.refl LogGrows.trans hφ hstable

/-- The cursor moves past an event that has been routed. -/
theorem ensures_setRouteCursor (i : ℕ) {cursor : ℕ} {φ : ResidentWorld → Prop} (hφ : φ w)
    (hstable : ∀ w w', LogGrows w w' → φ w → φ w')
    (hpassed : ∀ w, φ w → Passed w.store.db.events.rows cursor) :
    EnsuresOutbox (fun _ w => φ w) (memory i (.setRouteCursor cursor)) w := by
  refine ensures_lift ?_
  rintro w₁ _ w₂ hgrow hinv ⟨-, rfl⟩
  have hφ₁ := hstable w w₁ hgrow hφ
  refine ⟨⟨hinv.allowed, ?_⟩, .refl _, hstable w₁ _ (.refl _) hφ₁⟩
  intro j
  unfold ResidentWorld.setMemory
  dsimp only
  by_cases hj : j = i
  · subst hj
    rw [Function.update_self]
    exact hpassed w₁ hφ₁
  · rw [Function.update_of_ne hj]
    exact hinv.passed j

/-- **The replay**: what the cursor has passed has been delivered. -/
theorem ensures_reconcileFrom (i : ℕ) {cursor : ℕ} {rest : List Event}
    (hpassed : Passed w.store.db.events.rows cursor)
    (hrest : rest <+: w.store.db.events.rows.drop cursor) :
    EnsuresOutbox (fun _ _ => True) (reconcileFrom i cursor rest) w := by
  induction rest generalizing cursor w with
  | nil => exact ensures_pure trivial
  | cons e rest ih =>
      let ahead (w : ResidentWorld) : Prop := Passed w.store.db.events.rows cursor ∧
        (e :: rest) <+: w.store.db.events.rows.drop cursor
      have hahead : ∀ w w', LogGrows w w' → ahead w → ahead w' :=
        fun w w' hgrow h => ⟨h.1.mono hgrow, h.2.trans (hgrow.drop cursor)⟩
      refine ensures_bind (ensures_keep (ensures_routeEvent i) ⟨hpassed, hrest⟩ hahead) ?_
      rintro routed w ⟨⟨hpassed, hrest⟩, hdelivered⟩
      obtain ⟨later, hlater⟩ := hrest
      have he : w.store.db.events.rows[cursor]? = some e := by
        have := congrArg (fun l => l[0]?) hlater
        simpa using this.symm
      have hnext : rest <+: w.store.db.events.rows.drop (cursor + 1) := by
        refine ⟨later, ?_⟩
        rw [← List.tail_drop, ← hlater]
        rfl
      refine ensures_bind (@ensures_setRouteCursor w i (cursor + 1)
        (fun w => Passed w.store.db.events.rows (cursor + 1) ∧
          rest <+: w.store.db.events.rows.drop (cursor + 1)) ⟨hpassed.succ he hdelivered, hnext⟩
        (fun w w' hgrow h => ⟨h.1.mono hgrow, h.2.trans (hgrow.drop _)⟩) (fun w h => h.1)) ?_
      rintro _ w ⟨hpassed, hrest⟩
      exact ensures_bind (ih hpassed hrest) (fun _ _ _ => ensures_pure trivial)

theorem ensures_reconcileRoutes (i : ℕ) : EnsuresOutbox (fun _ _ => True) (reconcileRoutes i) w := by
  have hcursor : EnsuresOutbox (fun cursor w => Passed w.store.db.events.rows cursor)
      (memory i .routeCursor) w := by
    refine ensures_lift ?_
    rintro w₁ cursor w₂ - hinv ⟨rfl, rfl⟩
    have hmemory : ∀ j, ((w₁.setMemory i (w₁.memory i)).memory j) = w₁.memory j := by
      intro j
      unfold ResidentWorld.setMemory
      dsimp only
      rw [Function.update_eq_self]
    refine ⟨⟨hinv.allowed, ?_⟩, .refl _, hinv.passed i⟩
    intro j
    show Passed _ ((w₁.setMemory i (w₁.memory i)).memory j).routeCursor
    rw [hmemory]
    exact hinv.passed j
  refine ensures_bind hcursor (fun cursor w hpassed => ?_)
  refine ensures_bind (ensures_keep (φ := fun w => Passed w.store.db.events.rows cursor)
    (ensures_readAll none) hpassed (fun w w' hgrow h => h.mono hgrow)) ?_
  rintro log w ⟨hpassed, rfl⟩
  exact ensures_reconcileFrom i hpassed (List.prefix_refl _)

/-! The release of a pair. -/

/-- The run has been prepared for a single agent. -/
def SinglePrepared (log : List Event) (runId : String) : Prop :=
  ∃ a ∈ log, a.type = "assignment.created" ∧ a.runId = runId ∧ a.id = singleAssignmentId runId

/-- **The release of a prepared task**: afterwards its assignment has been delivered. -/
theorem ensures_releasePrepared {runId : String}
    (hprepared : SinglePrepared w.store.db.events.rows runId) :
    EnsuresOutbox (fun _ w => ReleaseDelivered w.store.db.events.rows runId)
      (releasePreparedTask true runId) w := by
  have hread : EnsuresOutbox (fun events w => ∃ a ∈ events, a ∈ w.store.db.events.rows ∧
      a.type = "assignment.created" ∧ a.id = singleAssignmentId runId)
      (readAll (some runId) : Resident (List Event)) w := by
    refine (ensures_keep (φ := fun w => SinglePrepared w.store.db.events.rows runId)
      (ensures_readAll (some runId)) hprepared
      (fun w w' hgrow ⟨a, ha, hrest⟩ => ⟨a, hgrow.subset ha, hrest⟩)).weaken ?_
    rintro _ w ⟨⟨a, ha, htype, hrun, hid⟩, rfl⟩
    exact ⟨a, List.mem_filter.mpr ⟨ha, decide_eq_true hrun⟩, ha, htype, hid⟩
  refine ensures_bind hread ?_
  rintro events w ⟨a, hmem, ha, htype, hid⟩
  have htrigger : WritesThen Routine (fun trigger => trigger =
      { type := "assignment.created", receiver := "generalist",
        deliveryId := fun e => routeId e "generalist" }) (releaseTrigger true runId events) := by
    refine asks_bind (writes_firstOrStop _ _) (fun created _ => ?_)
    refine asks_bind (writes_required _ _) (fun taskPack _ => ?_)
    split
    · exact asks_throw _
    next agentId hlookup =>
      have hagent : agentId = "generalist" := by
        obtain ⟨before, after, heq, -⟩ := List.lookup_eq_some_iff.mp hlookup
        have hmem : (taskPack.pyStr, agentId) ∈ singleAgentOf := by
          rw [heq]
          exact List.mem_append_right _ List.mem_cons_self
        simp only [singleAgentOf, List.mem_cons, Prod.mk.injEq, List.not_mem_nil, or_false] at hmem
        rcases hmem with h | h
        · exact h.2
        · exact h.2
      subst hagent
      exact asks_pure rfl
  refine ensures_bind (ensures_keep (φ := fun w => a ∈ w.store.db.events.rows)
    (ensures_writes htrigger) ha (fun w w' hgrow h => hgrow.subset h)) ?_
  rintro _ w ⟨ha, rfl⟩
  have hfound : a ∈ events.filter (fun e => e.type = "assignment.created") :=
    List.mem_filter.mpr ⟨hmem, decide_eq_true htype⟩
  unfold deliverTrigger
  split
  next e honly =>
    dsimp only at honly
    rw [honly, List.mem_singleton] at hfound
    subst hfound
    refine (ensures_keep (φ := fun w => a ∈ w.store.db.events.rows)
      (ensures_deliver none (routeId_ne_none a "generalist") (.inl rfl)) ha
      (fun w w' hgrow h => hgrow.subset h)).weaken ?_
    rintro _ w ⟨ha, hcarried⟩
    exact ⟨a, ha, hid, hcarried⟩
  next => exact ensures_throw _

theorem ensures_releaseTeam (runId : String) :
    EnsuresOutbox (fun _ _ => True) (releasePreparedTask false runId) w := by
  suffices h : Writes Routine (releasePreparedTask false runId) from ensures_writes h
  refine asks_bind (writes_readAll _) (fun events _ => ?_)
  show Writes Routine (deliverTrigger _ _)
  unfold deliverTrigger
  split
  next e honly =>
    refine writes_deliver none (.inr (.inr ?_))
    have htype : e.type = "event.external.received" := by
      have hmem : e ∈ events.filter (fun e => e.type = "event.external.received") := by
        dsimp only at honly
        rw [honly]
        exact List.mem_singleton_self e
      exact of_decide_eq_true (List.mem_filter.mp hmem).2
    simp [routeReceiver, htype]
  next => exact asks_throw _

/-- The fact that an arm has been released, once the assignment of its run has been delivered. -/
theorem ensures_armReleased (evalId taskId : String) (single : Bool) {runId : String}
    (h : single = true → ReleaseDelivered w.store.db.events.rows runId) :
    EnsuresOutbox (fun _ _ => True) (append none (armReleased evalId single runId taskId)) w := by
  have hstable : ∀ w w', LogGrows w w' →
      (single = true → ReleaseDelivered w.store.db.events.rows runId) →
      single = true → ReleaseDelivered w'.store.db.events.rows runId := by
    intro w w' hgrow h hsingle
    obtain ⟨a, ha, hid, hcarried⟩ := h hsingle
    exact ⟨a, hgrow.subset ha, hid, hcarried.mono hgrow.subset⟩
  refine ensures_bind (ensures_keep (φ := fun w => single = true →
    ReleaseDelivered w.store.db.events.rows runId) (ensures_writes writes_now) h hstable) ?_
  rintro t w ⟨h, -⟩
  refine ensures_raising ?_
  intro w₁ _ r w₂ hgrow hinv hstep
  have hdelivered := hstable w w₁ hgrow h
  obtain ⟨-, es, hes, hwrote⟩ := residentStep_wrote hstep
  obtain ⟨s, hs, rfl⟩ := hstep
  have hallowed : ∀ e ∈ es, Allowed w₁.store.db.events.rows e := by
    intro e he
    obtain rfl : armReleased evalId single runId taskId t = e :=
      Option.some.inj (Option.mem_toList.mp (hes he))
    refine ⟨fun htype => ?_, fun hheld => ?_, fun _ hmode run hrun => ?_⟩
    · simp [armReleased] at htype
    · simp [Held, armReleased] at hheld
    · have hsingle : single = true := by
        cases single with
        | true => rfl
        | false => simp [armReleased, modeOf, Event.get?] at hmode
      have hsame : runId = run := by
        simpa [armReleased, Event.get?, Dict.get?_cons] using hrun
      subst hsame
      exact hdelivered hsingle
  obtain ⟨hinv', hgrow'⟩ := hinv.wrote hwrote hallowed (fun _ => rfl)
  exact ⟨(), hinv', hgrow', fun _ _ => trivial⟩

theorem ensures_releaseArm (evalId : String) (single : Bool) {runId : String}
    (h : single = true → SinglePrepared w.store.db.events.rows runId) :
    EnsuresOutbox (fun _ _ => True) (releaseArm evalId single runId) w := by
  have hstable : ∀ w w', LogGrows w w' →
      (single = true → SinglePrepared w.store.db.events.rows runId) →
      single = true → SinglePrepared w'.store.db.events.rows runId := by
    intro w w' hgrow h hsingle
    obtain ⟨a, ha, hrest⟩ := h hsingle
    exact ⟨a, hgrow.subset ha, hrest⟩
  have hkeep : ∀ {α : Type} {p : Resident α} {w : ResidentWorld}, Writes Routine p →
      (single = true → SinglePrepared w.store.db.events.rows runId) →
      EnsuresOutbox (fun _ w => single = true → SinglePrepared w.store.db.events.rows runId) p w :=
    fun hp h => (ensures_keep (φ := fun w => single = true →
      SinglePrepared w.store.db.events.rows runId) (ensures_writes hp) h hstable).weaken
      (fun _ _ hpost => hpost.1)
  refine ensures_bind (hkeep (writes_readAll _) h) (fun evalEvents w h => ?_)
  split
  · exact ensures_pure trivial
  · refine ensures_bind (hkeep (writes_readAll _) h) (fun events w h => ?_)
    have hcreated : Writes Routine (uniqueRunCreated events) := by
      unfold uniqueRunCreated
      split
      · exact asks_pure trivial
      · exact asks_throw _
    refine ensures_bind (hkeep hcreated h) (fun created w h => ?_)
    have hrelease : EnsuresOutbox
        (fun _ w => single = true → ReleaseDelivered w.store.db.events.rows runId)
        (releasePreparedTask single runId) w := by
      cases single with
      | true => exact (ensures_releasePrepared (h rfl)).weaken (fun _ _ hdelivered _ => hdelivered)
      | false =>
          refine (ensures_releaseTeam runId).weaken (fun _ _ _ hsingle => ?_)
          cases hsingle
    refine ensures_bind hrelease (fun _ w hdelivered => ?_)
    exact ensures_bind (ensures_armReleased _ _ _ hdelivered) (fun _ _ _ => ensures_pure trivial)

theorem ensures_releaseContract {contract : PairContract}
    (h : SinglePrepared w.store.db.events.rows contract.singleRunId) :
    EnsuresOutbox (fun _ _ => True) (releaseContract contract) w :=
  ensures_bind (ensures_releaseArm _ _ (fun _ => h)) (fun _ _ _ =>
    ensures_releaseArm _ _ (fun hsingle => by cases hsingle))

end ensures

/-! ### Runs -/

/-- Who routes, releases and fails. -/
inductive OutboxStarts : ResidentWorld → Program (withStore residentInterface) Unit →
    ResidentWorld → Prop
  | reconcileRoutes (w : ResidentWorld) (i : ℕ) : OutboxStarts w (reconcileRoutes i).thread w
  | routeDecision (w : ResidentWorld) (i : ℕ) (events : List Event) :
      OutboxStarts w (routeDecision i events).thread w
  | releaseContract (w : ResidentWorld) (contract : PairContract)
      (h : SinglePrepared w.store.db.events.rows contract.singleRunId) :
      OutboxStarts w (releaseContract contract).thread w
  | failAssignment (w : ResidentWorld) (dispatch : Option DispatchContext) (assignment : Event)
      (reason causationId : String) :
      OutboxStarts w (failAssignment dispatch assignment reason causationId).thread w

/-- All interleavings, with the commits of the kernel and other code, which sends only what the
outbox does not. -/
def outboxRules : PoolRules (withStore residentInterface) Unit ResidentWorld where
  step := residentStep
  starts := OutboxStarts
  env := Elsewhere Ordinary

theorem outboxRules_sound : Pool.Sound outboxRules (fun w (_ : Unit) => Outbox w) LogGrows
    (fun _ _ => True) where
  refl := LogGrows.refl
  trans := LogGrows.trans
  stable := fun _ _ _ _ _ => trivial
  drop := fun _ _ _ h => h
  starts := by
    have hthread : ∀ {α : Type} {p : Resident α} {w : ResidentWorld},
        EnsuresOutbox (fun _ _ => True) p w →
        Program.Safe outboxRules.step (fun w (_ : Unit) => Outbox w) LogGrows LogGrows
          (fun _ _ _ => True) p.thread w () :=
      fun h => safe_thread h (fun _ _ _ _ => trivial)
    rintro w p w' m hinv hstart
    cases hstart with
    | reconcileRoutes i => exact ⟨.refl _, (), hinv, hthread (ensures_reconcileRoutes i)⟩
    | routeDecision i events =>
        have hwrites : Writes Routine (routeDecision i events) := by
          induction events with
          | nil => exact asks_pure trivial
          | cons e rest ih => exact asks_bind (writes_routeEvent i e) (fun _ _ => ih)
        exact ⟨.refl _, (), hinv, hthread (ensures_writes hwrites)⟩
    | releaseContract contract h => exact ⟨.refl _, (), hinv, hthread (ensures_releaseContract h)⟩
    | failAssignment dispatch assignment reason causationId =>
        exact ⟨.refl _, (), hinv,
          hthread (ensures_writes (writes_failAssignment dispatch assignment reason causationId))⟩
  env := by
    rintro w w' m hinv ⟨-, ⟨es, hwrote, hes⟩, hsame⟩
    exact hinv.wrote hwrote (fun e he => (hes e he).allowed _) (fun i => by rw [hsame])

theorem outbox_of_reachable {P : Pool (withStore residentInterface) Unit ResidentWorld}
    (h : Pool.Reachable outboxRules emptyWorld P) : Outbox P.state := by
  have hempty : Pool.Ok outboxRules (fun w (_ : Unit) => Outbox w) LogGrows (fun _ _ => True)
      emptyWorld [] := by
    refine ⟨⟨fun e he => absurd he List.not_mem_nil, fun i => ⟨Nat.zero_le _, ?_⟩⟩, .nil,
      fun a ha => absurd ha List.not_mem_nil⟩
    intro idx e hidx
    exact absurd hidx (Nat.not_lt_zero idx)
  obtain ⟨owned, hok⟩ := Pool.ok_of_reachable outboxRules_sound hempty h
  exact hok.invariant

/-- The pair of a held assignment has been committed, and its arm released. -/
def PairReleased (log : List Event) (e : Event) : Prop :=
  (∃ c ∈ log, c.type = "eval.pair.committed" ∧ c.get? "single_run_id" = some (.str e.runId)) ∧
    ∃ r ∈ log, r.type = "eval.arm.released" ∧ r.get? "run_id" = some (.str e.runId) ∧
      r.get? "execution_mode" = some (e.payload.getD "execution_mode" (.str "single"))

/-- **Exactly one delivery** of every event that the outbox has passed, exactly when no delivery of a
failed assignment carries it. -/
theorem delivered_once_iff {P : Pool (withStore residentInterface) Unit ResidentWorld}
    (h : Pool.Reachable outboxRules emptyWorld P) {i idx : ℕ} {e : Event} {mailboxId : String}
    (hpassed : idx < (P.state.memory i).routeCursor)
    (he : P.state.store.db.events.rows[idx]? = some e) (hto : RoutedTo e mailboxId)
    (hheld : Held e → PairReleased P.state.store.db.events.rows e) :
    (∃! id, Carried P.state.store.db.events.rows mailboxId id e) ↔
      ∀ a, ¬ Carried P.state.store.db.events.rows mailboxId (teamFailureId a) e := by
  have hinv := outbox_of_reachable h
  have hmem := List.mem_of_getElem? he
  have hdelivered : Carried P.state.store.db.events.rows mailboxId (routeId e mailboxId) e := by
    rcases (hinv.passed i).delivered idx e hpassed he mailboxId hto with hh | hc
    · obtain ⟨-, r, hr, htype, hrun, hmode⟩ := hheld hh
      obtain ⟨hid, hagent, hexecution⟩ := (hinv.allowed e hmem).held hh
      have hsingle : r.get? "execution_mode" = some (.str "single") := by
        rw [hmode, Dict.getD]
        exact congrArg (fun v => some (Option.getD v (Json.str "single"))) hexecution
      obtain ⟨a, ha, haid, hcarried⟩ := (hinv.allowed r hr).released htype hsingle e.runId hrun
      obtain rfl : a = e := P.state.store.db.events.eq_of_key_eq ha hmem (haid.trans hid.symm)
      have hmailbox : mailboxId = "generalist" := by
        have hreceiver := hto.1
        rw [routeReceiver, if_pos hh.1, hagent] at hreceiver
        simpa using hreceiver.symm
      rw [hmailbox]
      exact hcarried
    · exact hc
  constructor
  · rintro ⟨id, -, hunique⟩ a hcarried
    have hsame := (hunique _ hcarried).trans (hunique _ hdelivered).symm
    have hhead := congrArg (fun s => s.toList.head?) hsame
    simp [teamFailureId, routeId] at hhead
  · intro hno
    refine ⟨routeId e mailboxId, hdelivered, ?_⟩
    rintro id ⟨f, hf, hid, hevent⟩
    have hin := (List.mem_filter.mp hf)
    have htype : f.type = "mailbox.delivery.sent" := (of_decide_eq_true hin.2).1
    obtain ⟨m, d, t, rfl, hnamed⟩ := (hinv.allowed f hin.1).sent htype
    obtain ⟨rfl, rfl, rfl⟩ := named_of_carried hf hid hevent
    rcases hnamed with hroute | ⟨a, hfailure⟩ | hnone
    · exact hroute
    · rw [hfailure] at hid
      exact absurd ⟨_, hf, hid, hevent⟩ (hno a)
    · rw [RoutedTo, hnone] at hto
      cases hto.1

/-! ### A worker that fails -/

/-- An assignment of a stage, for the scout. -/
def stageAssignment : Event where
  id := "assignment-1"
  runId := "r1"
  taskId := "t1"
  type := "assignment.created"
  source := "kernel"
  payload := [("assignment_id", .str "a1"), ("stage_id", .str "scan"), ("agent_id", .str "scout")]
  createdAt := twelve

/-- The assignment is created; the process replays the log, and the scout fails. -/
def scoutFails : Pool (withStore residentInterface) Unit ResidentWorld :=
  ⟨{ store := (StoreWorld.mk .initial 0).wrote [stageAssignment] },
    [(failAssignment none stageAssignment "worker crashed" "delivery-1").thread,
      (reconcileRoutes 0).thread], []⟩

theorem scoutFails_reachable : Pool.Reachable outboxRules emptyWorld scoutFails := by
  obtain ⟨es, hes, hdb, -⟩ := (StoreWorld.mk .initial 0).wrote_db [stageAssignment]
  refine ((Relation.ReflTransGen.single (.env ⟨Nat.zero_le _, ⟨es, hdb, ?_⟩, rfl⟩)).tail
    (.start (.reconcileRoutes _ 0))).tail (.start (.failAssignment _ _ _ _ _))
  intro e he
  rw [List.mem_singleton.mp (hes he)]
  refine ⟨fun htype => ?_, fun hheld => ?_, fun htype => ?_⟩
  · simp [stageAssignment] at htype
  · exact absurd hheld (by decide)
  · simp [stageAssignment] at htype

instance (log : List Event) (mailboxId deliveryId : String) (e : Event) :
    Decidable (Carried log mailboxId deliveryId e) :=
  inferInstanceAs (Decidable (∃ f ∈ _, _))

/-- The replay delivers the assignment once. -/
theorem assignment_delivered_once :
    ∃! id, Carried (Pool.follow (R := outboxRules) (residentStrategy twelve rfl) scoutFails
      (List.replicate 6 1)).state.store.db.events.rows "scout" id stageAssignment := by
  have hpassed : 0 < ((Pool.follow (R := outboxRules) (residentStrategy twelve rfl) scoutFails
      (List.replicate 6 1)).state.memory 0).routeCursor := by decide
  refine (delivered_once_iff (scoutFails_reachable.trans (Pool.follow_reachable _ _ _)) hpassed
    (by decide) ⟨by decide, by decide⟩ (fun hheld => absurd hheld (by decide))).mpr ?_
  have hsent : ∀ f ∈ mailboxFacts (Pool.follow (R := outboxRules) (residentStrategy twelve rfl)
      scoutFails (List.replicate 6 1)).state.store.db.events.rows "mailbox.delivery.sent" "scout",
      deliveryIdOf f = .ok (routeId stageAssignment "scout") := by decide
  rintro a ⟨f, hf, hid, -⟩
  rw [hsent f hf] at hid
  have hhead := congrArg (fun s => s.toList.head?) (Except.ok.inj hid)
  simp [teamFailureId, routeId] at hhead

/-- The nudge is sent by the failing worker, and again by the replay. -/
theorem failure_delivered_twice :
    ∃ P, Pool.Reachable outboxRules emptyWorld P ∧ ∃ i idx e mailboxId,
      idx < (P.state.memory i).routeCursor ∧ P.state.store.db.events.rows[idx]? = some e ∧
        RoutedTo e mailboxId ∧ ¬ Held e ∧
        ¬ ∃! id, Carried P.state.store.db.events.rows mailboxId id e := by
  let P := Pool.follow (R := outboxRules) (residentStrategy twelve rfl) scoutFails
    (List.replicate 8 0 ++ List.replicate 20 1)
  obtain ⟨e, he, hto, hheld, hroute, hfailure⟩ :
      ∃ e, P.state.store.db.events.rows[2]? = some e ∧ RoutedTo e "coordinator" ∧ ¬ Held e ∧
        Carried P.state.store.db.events.rows "coordinator" (routeId e "coordinator") e ∧
        Carried P.state.store.db.events.rows "coordinator" (teamFailureId "a1") e := by
    refine ⟨_, rfl, ⟨by decide, by decide⟩, by decide, ?_, ?_⟩
    · set_option maxRecDepth 4000 in
      decide
    · set_option maxRecDepth 4000 in
      decide
  refine ⟨P, scoutFails_reachable.trans (Pool.follow_reachable _ _ _), 0, 2, e, "coordinator",
    by decide, he, hto, hheld, ?_⟩
  rintro ⟨id, -, hunique⟩
  have hsame := (hunique _ hfailure).trans (hunique _ hroute).symm
  have hhead := congrArg (fun s => s.toList.head?) hsame
  simp [teamFailureId, routeId] at hhead

end CrazyHarness
