import CrazyHarness.Runtime.Outbox

/-! # The coordinator learns of expired leases

`expire_due_leases` appends three facts for a due lease and then sends the last of them to the
coordinator.  Once that fact is in the log the lease is no longer active, so no later call looks at
it again, and `_route_event` passes over facts of its type.

* `woken_of_serves`: where no call ends between that append and the delivery, every expired lease
  has been sent to the coordinator.
* `wakeUp_lost`: a call that ends there. -/

namespace CrazyHarness

open Lib RuntimeM

/-! ### Runs with crashes -/

/-- The fact that a lease has expired. -/
def LeaseExpired (e : Event) : Prop := e.type = "assignment.lease.expired"

instance : DecidablePred LeaseExpired := fun _ => inferInstanceAs (Decidable (_ = _))

/-- A step, after others wrote what they like, but for expired leases. -/
def stepAmong (w : ResidentWorld) (op : (withStore residentInterface).Op)
    (r : (withStore residentInterface).Reply op) (w' : ResidentWorld) : Prop :=
  ∃ w₁, Elsewhere (fun e => ¬ LeaseExpired e) w w₁ ∧ residentStep w₁ op r w'

/-- What a store can become: calls of `expire_due_leases` return, or end where `crashes` says;
`_reconcile_routes` of any process ends anywhere. -/
inductive Serves (crashes : ResidentWorld → Prop) : ResidentWorld → Prop
  | start : Serves crashes emptyWorld.state
  | expire {w w' : ResidentWorld} (h : Serves crashes w) (current : DateTime)
      {p : Program (withStore residentInterface) (Except RuntimeError ℕ)}
      (hr : Program.Reaches stepAmong (expireDueLeases current) w p w')
      (hend : (∃ n, p = .done (.ok n)) ∨ crashes w') : Serves crashes w'
  | reconcile {w w' : ResidentWorld} (h : Serves crashes w) (i : ℕ)
      {p : Program (withStore residentInterface) (Except RuntimeError ℕ)}
      (hr : Program.Reaches stepAmong (reconcileRoutes i) w p w') : Serves crashes w'
  | elsewhere {w w' : ResidentWorld} (h : Serves crashes w)
      (hw : Elsewhere (fun e => ¬ LeaseExpired e) w w') : Serves crashes w'

/-- A delivery to the coordinator carries the event. -/
def Woken (log : List Event) (e : Event) : Prop := ∃ id, Carried log "coordinator" id e

/-- The last fact that `expire_due_leases` appended is no expired lease, or has been delivered. -/
def LastDelivered (w : ResidentWorld) : Prop :=
  ∀ x ∈ w.expiries.head?, LeaseExpired x.event → Woken w.store.db.events.rows x.event

/-! ### One step -/

/-- Every expired lease has been sent to the coordinator, but for those in `φ`. -/
def WokenBut (φ : Event → Prop) (w : ResidentWorld) : Prop :=
  ∀ e ∈ w.store.db.events.rows, LeaseExpired e → Woken w.store.db.events.rows e ∨ φ e

/-- Every expired lease has been sent, but perhaps for the last. -/
def LastPending (w : ResidentWorld) : Prop :=
  WokenBut (fun e => ∃ x ∈ w.expiries.head?, x.event = e) w

section step

variable {φ : Event → Prop} {w w' : ResidentWorld} {op : (withStore residentInterface).Op}
  {r : (withStore residentInterface).Reply op}

theorem Woken.mono {log log' : List Event} {e : Event} (h : Woken log e) (hsub : log ⊆ log') :
    Woken log' e := by
  obtain ⟨id, hc⟩ := h
  exact ⟨id, hc.mono hsub⟩

theorem WokenBut.weaken {ψ : Event → Prop} (h : WokenBut φ w) (hψ : ∀ e, φ e → ψ e) :
    WokenBut ψ w :=
  fun e he hexpired => (h e he hexpired).imp_right (hψ e)

/-- Events are written, of which the expired leases are in `φ`. -/
theorem WokenBut.wrote (h : WokenBut φ w) {es : List Event} (hw : w.store.db.Wrote es w'.store.db)
    (hes : ∀ e ∈ es, LeaseExpired e → φ e) : WokenBut φ w' := by
  intro e he hexpired
  rw [hw.rows] at he ⊢
  rcases List.mem_append.mp he with he | he
  · exact (h e he hexpired).imp_left (fun hwoken => hwoken.mono (List.subset_append_left _ _))
  · exact .inr (hes e he hexpired)

theorem WokenBut.elsewhere (h : WokenBut φ w) (hw : Elsewhere (fun e => ¬ LeaseExpired e) w w') :
    WokenBut φ w' := by
  obtain ⟨-, ⟨es, hwrote, hes⟩, -⟩ := hw
  exact h.wrote hwrote (fun e he hexpired => absurd hexpired (hes e he))

/-- A step that appends no expired lease but in `φ`. -/
theorem WokenBut.step (h : WokenBut φ w) (hop : ∀ e ∈ stepEvent op, LeaseExpired e → φ e)
    (hs : stepAmong w op r w') : WokenBut φ w' := by
  obtain ⟨w₁, hw, hstep⟩ := hs
  obtain ⟨-, es, hes, hwrote⟩ := residentStep_wrote hstep
  exact (h.elsewhere hw).wrote hwrote (fun e he => hop e (Option.mem_toList.mp (hes he)))

theorem expiries_stepAmong {op : StoreOp} {r : op.Reply} (hs : stepAmong w (.inl op) r w') :
    w'.expiries = w.expiries := by
  obtain ⟨w₁, ⟨-, -, hw⟩, s, -, rfl⟩ := hs
  rw [hw]

/-- Nothing is pending. -/
abbrev AllWoken (w : ResidentWorld) : Prop := WokenBut (fun _ => False) w

theorem AllWoken.lastPending (h : AllWoken w) : LastPending w := h.weaken (fun _ => False.elim)

theorem LastPending.allWoken (h : LastPending w) (hlast : LastDelivered w) : AllWoken w := by
  intro e he hexpired
  rcases h e he hexpired with hwoken | ⟨x, hx, rfl⟩
  · exact .inl hwoken
  · exact .inl (hlast x hx hexpired)

/-- The append of an expired lease. -/
theorem AllWoken.expire (h : AllWoken w) {clock : DateTime} {lease : Dict} {e : Event}
    {r : Except StoreError Event} (hs : stepAmong w (.inr (.expire clock lease e)) r w') :
    LastPending w' ∧ ∀ stored, r = .ok stored →
      stored ∈ w'.store.db.events.rows ∧ WokenBut (· = stored) w' := by
  obtain ⟨w₁, hw, t, s, haware, hout, rfl⟩ := hs
  have h₁ : AllWoken w₁ := h.elsewhere hw
  rcases StoreWorld.returns_cases hout with ⟨_, -, rfl, rfl⟩ | ⟨stored, db, happend, rfl, rfl⟩
  · refine ⟨AllWoken.lastPending h₁, fun stored hr => ?_⟩
    cases hr
  · rcases Database.append_cases happend with ⟨rfl, hlook, -⟩ | ⟨rfl, hnew⟩
    · refine ⟨AllWoken.lastPending h₁, fun stored' hr => ?_⟩
      obtain rfl := Except.ok.inj hr
      exact ⟨Table.mem_of_lookup hlook, WokenBut.weaken h₁ (fun _ => False.elim)⟩
    · have hbut : ∀ w' : ResidentWorld, w'.store.db = db → WokenBut (· = stored) w' := by
        rintro w' rfl
        have h₂ : WokenBut (· = stored) w₁ := WokenBut.weaken h₁ (fun _ => False.elim)
        exact h₂.wrote hnew.wrote (fun e he _ => List.mem_singleton.mp he)
      constructor
      · have hhead : (w₁.noteExpiry clock stored).head?.map Expiry.event = some stored := by
          rw [ResidentWorld.noteExpiry, if_pos hnew.fresh]
          rfl
        obtain ⟨x, hx, hevent⟩ := Option.map_eq_some_iff.mp hhead
        exact (hbut _ rfl).weaken (fun e he => ⟨x, hx, hevent.trans he.symm⟩)
      · intro stored' hr
        obtain rfl := Except.ok.inj hr
        refine ⟨?_, hbut _ rfl⟩
        show _ ∈ db.events.rows
        rw [hnew.rows]
        exact List.mem_append_right _ (List.mem_singleton_self _)

end step

/-! ### What `expire_due_leases` ensures -/

/-- The code leaves at most the last expired lease without its delivery. -/
abbrev EnsuresPending {α : Type} (post : α → ResidentWorld → Prop) (p : Resident α)
    (w : ResidentWorld) : Prop :=
  Ensures stepAmong LastPending Eq (fun _ _ => True) post p w

/-- The operation appends no expired lease. -/
def NoneExpired (op : (withStore residentInterface).Op) : Prop := ∀ e ∈ stepEvent op, ¬ LeaseExpired e

/-- Code that appends no expired lease. -/
abbrev ExpiresNone {α : Type} (p : Resident α) : Prop :=
  Asks RepliesFact NoneExpired (fun _ => True) p

section ensures

variable {α : Type} {w : ResidentWorld}

theorem repliesFact_of_stepAmong (w : ResidentWorld) (op : (withStore residentInterface).Op)
    (r : (withStore residentInterface).Reply op) (w' : ResidentWorld) (h : stepAmong w op r w') :
    RepliesFact op r := by
  obtain ⟨w₁, -, hstep⟩ := h
  exact repliesFact_of_step hstep

theorem ensures_allWoken {p : Resident α} (h : ExpiresNone p) (hw : AllWoken w) :
    EnsuresPending (fun _ w => AllWoken w) p w := by
  refine (ensures_alone h hw repliesFact_of_stepAmong ?_).weaken (fun _ _ hpost => hpost.1)
  intro w op r w' hw hop hs
  have hw' : AllWoken w' := hw.step (fun e he hexpired => hop e he hexpired) hs
  exact ⟨hw'.lastPending, hw'⟩

/-- The last expired lease may still have to be delivered. -/
def Undelivered (stored : Event) (w : ResidentWorld) : Prop :=
  stored ∈ w.store.db.events.rows ∧ WokenBut (· = stored) w ∧ LastPending w

/-- A call of the store that appends no expired lease. -/
theorem Undelivered.step {stored : Event} {w w' : ResidentWorld} {op : StoreOp} {r : op.Reply}
    (h : Undelivered stored w) (hop : NoneExpired (.inl op)) (hs : stepAmong w (.inl op) r w') :
    Undelivered stored w' := by
  obtain ⟨hmem, hbut, hlast⟩ := h
  refine ⟨?_, hbut.step (fun e he hexpired => absurd hexpired (hop e he)) hs, ?_⟩
  · obtain ⟨w₁, ⟨-, ⟨es, hwrote, -⟩, -⟩, hstep⟩ := hs
    obtain ⟨-, es', -, hwrote'⟩ := residentStep_wrote hstep
    rw [hwrote'.rows, hwrote.rows]
    exact List.mem_append_left _ (List.mem_append_left _ hmem)
  · unfold LastPending
    rw [expiries_stepAmong hs]
    exact hlast.step (fun e he hexpired => absurd hexpired (hop e he)) hs

theorem Undelivered.allWoken {stored : Event} (h : Undelivered stored w)
    (hwoken : Woken w.store.db.events.rows stored) : AllWoken w := by
  intro e he hexpired
  rcases h.2.1 e he hexpired with hdone | rfl
  · exact .inl hdone
  · exact .inl hwoken

/-- **The wake-up**: after the delivery nothing is pending. -/
theorem ensures_wakeUp {stored : Event} {deliveryId : String} (hname : deliveryId ≠ "None")
    (h : Undelivered stored w) :
    EnsuresPending (fun _ w => AllWoken w)
      (DurableMailbox.send none "coordinator" stored deliveryId) w := by
  have hnow : ∀ {op : StoreOp}, op.event = none → NoneExpired (.inl op) := by
    intro op hop e he
    rw [show stepEvent (.inl op) = op.event from rfl, hop] at he
    cases he
  have hlog : EnsuresPending (fun log w => Undelivered stored w ∧ log = w.store.db.events.rows)
      (readAll none : Resident (List Event)) w := by
    refine ensures_lift ?_
    rintro _ log w₂ rfl - hs
    have h₂ := h.step (hnow rfl) hs
    refine ⟨h₂.2.2, trivial, h₂, ?_⟩
    obtain ⟨w₁, -, s, ⟨rfl, rfl⟩, rfl⟩ := hs
    rfl
  have hread : EnsuresPending (fun existing w => Undelivered stored w ∧
      ∀ d ∈ existing, Carried w.store.db.events.rows "coordinator" deliveryId d.event)
      (DurableMailbox.ofLog (deliveryIn "coordinator" deliveryId)) w := by
    refine ensures_bind hlog ?_
    rintro log w ⟨hpending, rfl⟩ existing hexisting
    refine ⟨hpending, ?_⟩
    rintro d rfl
    exact deliveryIn_carried hname hexisting
  refine ensures_bind hread ?_
  rintro existing w ⟨hpending, hcarried⟩
  cases existing with
  | some existing =>
      show EnsuresPending _ (ite _ _ _) w
      split
      next heq =>
        refine ensures_pure (hpending.allWoken ⟨deliveryId, ?_⟩)
        have := hcarried existing rfl
        rwa [heq] at this
      next => exact ensures_throw _
  | none =>
      have hclock : EnsuresPending (fun _ w => Undelivered stored w) (now : Resident DateTime) w := by
        refine ensures_lift ?_
        rintro _ t w₂ rfl - hs
        have h₂ := hpending.step (hnow rfl) hs
        exact ⟨h₂.2.2, trivial, h₂⟩
      have happend : EnsuresPending (fun _ w => AllWoken w)
          (append none (sentEvent "coordinator" ⟨deliveryId, stored⟩)) w := by
        refine ensures_bind hclock (fun t w hpending => ensures_raising ?_)
        rintro _ _ r w₂ rfl - hs
        have h₂ := hpending.step (fun e he hexpired => by
          obtain rfl := Option.some.inj he
          simp [LeaseExpired, sentEvent] at hexpired) hs
        refine ⟨(), h₂.2.2, trivial, fun fact hr => h₂.allWoken ⟨deliveryId, ?_⟩⟩
        obtain ⟨w₁, -, s, ⟨d, now, -, -, hout⟩, rfl⟩ := hs
        obtain ⟨hsame, hmem⟩ := append_sameFact hout hr
        exact carried_of_sent hmem hsame
      exact ensures_bind happend (fun _ _ hw => ensures_pure hw)

theorem expiresNone_appendExpiry (current : DateTime) (lease : Dict) (identity : Event) (key : String)
    {type : String} (payload : Dict) (htype : type ≠ "assignment.lease.expired") :
    ExpiresNone (appendExpiry current lease identity key type payload) := by
  have hnow : ExpiresNone (now : Resident DateTime) :=
    asks_call (fun e he => absurd he (Option.not_mem_none e)) (fun _ _ => trivial)
  refine asks_bind hnow (fun createdAt _ => asks_raising ⟨fun e he => ?_, fun _ _ _ _ => trivial⟩)
  obtain rfl := Option.some.inj he
  exact htype

/-- The append of the last fact of a lease. -/
theorem ensures_appendExpired (current : DateTime) (lease : Dict) (identity : Event) (key : String)
    (payload : Dict) (hw : AllWoken w) :
    EnsuresPending (fun stored w => Undelivered stored w)
      (appendExpiry current lease identity key "assignment.lease.expired" payload) w := by
  have hnow : ExpiresNone (now : Resident DateTime) :=
    asks_call (fun e he => absurd he (Option.not_mem_none e)) (fun _ _ => trivial)
  refine ensures_bind (ensures_allWoken hnow hw) (fun t w hw => ensures_raising ?_)
  rintro _ _ r w₂ rfl - hs
  obtain ⟨hlast, hstored⟩ := hw.expire hs
  refine ⟨(), hlast, trivial, fun stored hr => ?_⟩
  obtain ⟨hmem, hbut⟩ := hstored stored hr
  exact ⟨hmem, hbut, hlast⟩

theorem expired_ne_none (assignmentId : String) : "lease-expired:" ++ assignmentId ≠ "None" := by
  intro h
  have := congrArg (fun s => s.toList.head?) h
  simp at this

/-- **One due lease**: its facts, and the wake-up. -/
theorem ensures_expireDue (current : DateTime) (lease : Dict) (expiresAt : Json) (deadline : DateTime)
    (assignmentId : String) (identity : Event) (hw : AllWoken w) :
    EnsuresPending (fun _ w => AllWoken w)
      (expireDue current lease expiresAt deadline assignmentId identity) w := by
  have hrequired : ∀ key, ExpiresNone (required lease key : Resident Json) :=
    fun key => Program.Asks.weaken asks_required (fun _ _ _ _ => trivial)
  refine ensures_bind (ensures_allWoken (hrequired _) hw) (fun agentId w hw => ?_)
  refine ensures_bind (ensures_allWoken (expiresNone_appendExpiry _ _ _ _ _ (by decide)) hw)
    (fun _ w hw => ?_)
  refine ensures_bind (ensures_allWoken (expiresNone_appendExpiry _ _ _ _ _ (by decide)) hw)
    (fun _ w hw => ?_)
  refine ensures_bind (ensures_allWoken (hrequired _) hw) (fun leaseId w hw => ?_)
  refine ensures_bind (ensures_appendExpired _ _ _ _ _ hw) (fun stored w hpending => ?_)
  exact ensures_bind (ensures_wakeUp (expired_ne_none assignmentId) hpending)
    (fun _ _ hw => ensures_pure hw)

theorem ensures_expireLease (current : DateTime) (lease : Dict) (hw : AllWoken w) :
    EnsuresPending (fun _ w => AllWoken w) (expireLease current lease) w := by
  have hrequired : ∀ key, ExpiresNone (required lease key : Resident Json) :=
    fun key => Program.Asks.weaken asks_required (fun _ _ _ _ => trivial)
  have hlog : ∀ runId, ExpiresNone (readAll runId : Resident (List Event)) :=
    fun runId => asks_call (fun e he => absurd he (Option.not_mem_none e)) (fun _ _ => trivial)
  refine ensures_bind (ensures_allWoken (hrequired _) hw) (fun expiresAt w hw => ?_)
  refine ensures_bind (ensures_allWoken (Program.Asks.weaken asks_isoTime (fun _ _ _ _ => trivial)) hw)
    (fun deadline w hw => ?_)
  refine ensures_bind (ensures_allWoken (Program.Asks.weaken asks_isDue (fun _ _ _ _ => trivial)) hw)
    (fun due w hw => ?_)
  split
  · refine ensures_bind (ensures_allWoken (hrequired _) hw) (fun assignmentId w hw => ?_)
    refine ensures_bind (ensures_allWoken (hrequired _) hw) (fun runId w hw => ?_)
    refine ensures_bind (ensures_allWoken (hlog _) hw) (fun events w hw => ?_)
    cases assignmentCreated events assignmentId.pyStr with
    | none => exact ensures_pure hw
    | some identity => exact ensures_expireDue _ _ _ _ _ _ hw
  · exact ensures_pure hw

/-- **The call**: what it leaves without its delivery is at most the last expired lease, and nothing
when it returns. -/
theorem ensures_expireDueLeases (current : DateTime) (hw : AllWoken w) :
    EnsuresPending (fun _ w => AllWoken w) (expireDueLeases current) w := by
  have hsnapshot : ExpiresNone (snapshot none : Resident (String → List Dict)) :=
    asks_call (fun e he => absurd he (Option.not_mem_none e)) (fun _ _ => trivial)
  unfold expireDueLeases
  split
  · refine ensures_bind (ensures_allWoken hsnapshot hw) (fun projections w hw => ?_)
    induction activeLeases (projections "lease") generalizing w with
    | nil => exact ensures_pure hw
    | cons lease leases ih =>
        refine ensures_bind (ensures_expireLease current lease hw) (fun n w hw => ?_)
        exact ensures_bind (ih w hw) (fun _ _ hw => ensures_pure hw)
  · exact ensures_throw _

theorem Routine.not_expired {e : Event} (h : Routine e) : ¬ LeaseExpired e := by
  rintro htype
  rcases h with hquiet | ⟨mailboxId, d, t, rfl, -⟩
  · simp [Quiet, QuietType, show e.type = "assignment.lease.expired" from htype] at hquiet
  · simp [LeaseExpired, sentEvent] at htype

theorem expiresNone_of_writes {p : Resident α} (h : Writes Routine p) : ExpiresNone p :=
  Program.Asks.mono h (fun _ hop e he => (hop.1 e he).not_expired)

theorem expiresNone_reconcileRoutes (i : ℕ) : ExpiresNone (reconcileRoutes i) := by
  have hmemory : ∀ op, ExpiresNone (memory i op) :=
    fun op => ⟨fun e he => absurd he (Option.not_mem_none e), fun _ _ _ _ => trivial⟩
  have hfrom : ∀ cursor rest, ExpiresNone (reconcileFrom i cursor rest) := by
    intro cursor rest
    induction rest generalizing cursor with
    | nil => exact asks_pure trivial
    | cons e rest ih =>
        refine asks_bind (expiresNone_of_writes (writes_routeEvent i e)) (fun routed _ => ?_)
        refine asks_bind (hmemory _) (fun _ _ => asks_bind (ih _) (fun _ _ => asks_pure trivial))
  refine asks_bind (hmemory .routeCursor) (fun cursor _ => ?_)
  exact asks_bind (expiresNone_of_writes (writes_readAll none)) (fun log _ => hfrom _ _)

theorem ensures_reconcile_allWoken (i : ℕ) :
    Ensures stepAmong AllWoken Eq (fun _ _ => True) (fun _ _ => True) (reconcileRoutes i) w := by
  refine ensures_of_asks (expiresNone_reconcileRoutes i) repliesFact_of_stepAmong ?_
  intro w op r w' hw hop hs
  exact ⟨hw.step (fun e he hexpired => hop e he hexpired) hs, trivial⟩

end ensures

/-- **The coordinator learns of every expired lease**, where no call of `expire_due_leases` ends
between the append and the delivery. -/
theorem woken_of_serves {w : ResidentWorld} (h : Serves LastDelivered w) :
    ∀ e ∈ w.store.db.events.rows, LeaseExpired e → Woken w.store.db.events.rows e := by
  suffices hw : AllWoken w from fun e he hexpired => (hw e he hexpired).resolve_right id
  induction h with
  | start => exact fun e he => absurd he List.not_mem_nil
  | expire h current hr hend ih =>
      obtain ⟨_, hlast, hrest⟩ := (ensures_expireDueLeases current ih).reaches ih.lastPending
        (fun _ => rfl) hr
      rcases hend with ⟨n, rfl⟩ | hcrash
      · exact hrest n rfl
      · exact hlast.allWoken hcrash
  | reconcile h i hr ih =>
      obtain ⟨_, hw, -⟩ := (ensures_reconcile_allWoken i).reaches ih (fun _ => rfl) hr
      exact hw
  | elsewhere h hw ih => exact ih.elsewhere hw

/-! ### A crash before the delivery -/

/-- The clock stands still, and nothing else is written. -/
def amongStrategy : Program.Strategy stepAmong where
  act := (residentStrategy twelve twelve_utc).act
  sound := by
    intro op w r hact
    refine ⟨w, ⟨le_rfl, ⟨[], .nothing (.refl _), fun e he => absurd he List.not_mem_nil⟩, rfl⟩, ?_⟩
    exact (residentStrategy twelve rfl).sound hact

/-- The scout has an assignment and its lease. -/
def leasedWorld : ResidentWorld :=
  { store := (StoreWorld.mk .initial 0).wrote [scoutAssignment, scoutLease] }

theorem serves_leasedWorld {crashes : ResidentWorld → Prop} : Serves crashes leasedWorld := by
  obtain ⟨es, hes, hdb, -⟩ := (StoreWorld.mk .initial 0).wrote_db [scoutAssignment, scoutLease]
  refine .elsewhere .start ⟨Nat.zero_le _, ⟨es, hdb, fun e he => ?_⟩, rfl⟩
  have hknown : ∀ e ∈ [scoutAssignment, scoutLease], ¬ LeaseExpired e := by decide
  exact hknown e (hes he)

/-- `expire_due_leases`, two seconds past noon, after `n` of its requests. -/
def expiring (n : ℕ) (w : ResidentWorld) :
    Program (withStore residentInterface) (Except RuntimeError ℕ) × ResidentWorld :=
  amongStrategy.after n (expireDueLeases (twelve.addSeconds 2)) w

/-- The code has returned. -/
def Returned {α : Type} : Program (withStore residentInterface) (Except RuntimeError α) → Bool
  | .done (.ok _) => true
  | _ => false

theorem returned_iff {α : Type} {p : Program (withStore residentInterface) (Except RuntimeError α)} :
    Returned p = true ↔ ∃ a, p = .done (.ok a) := by
  constructor
  · intro h
    unfold Returned at h
    split at h
    next a => exact ⟨a, rfl⟩
    next => cases h
  · rintro ⟨a, rfl⟩
    rfl

/-- The call died when the agent was degraded, before the lease expired. -/
def degradedWorld : ResidentWorld := (expiring 6 leasedWorld).2

/-- That call, and the one after it, evaluated at once. -/
theorem degradedWorld_calls :
    (∀ x ∈ degradedWorld.expiries.head?, ¬ LeaseExpired x.event) ∧
      (∃ e ∈ degradedWorld.store.db.events.rows, e.type = "runtime.agent.degraded") ∧
      Returned (expiring 11 degradedWorld).1 = true ∧
      ∃ e ∈ (expiring 11 degradedWorld).2.store.db.events.rows, LeaseExpired e := by
  decide +kernel

theorem lastDelivered_degradedWorld : LastDelivered degradedWorld := by
  obtain ⟨hnone, -⟩ := degradedWorld_calls
  exact fun x hx hexpired => absurd hexpired (hnone x hx)

/-- A call dies before the lease expires; the one that returns after it has told the coordinator. -/
theorem scout_woken :
    let log := (expiring 11 degradedWorld).2.store.db.events.rows
    (∃ e ∈ degradedWorld.store.db.events.rows, e.type = "runtime.agent.degraded") ∧
      (∃ e ∈ log, LeaseExpired e) ∧ ∀ e ∈ log, LeaseExpired e → Woken log e := by
  obtain ⟨-, hdegraded, hreturned, hexpired⟩ := degradedWorld_calls
  refine ⟨hdegraded, hexpired, ?_⟩
  exact woken_of_serves (.expire
    (.expire serves_leasedWorld (twelve.addSeconds 2) (amongStrategy.after_reaches 6 _ _)
      (.inr lastDelivered_degradedWorld))
    (twelve.addSeconds 2) (amongStrategy.after_reaches 11 _ _) (.inl (returned_iff.mp hreturned)))

/-- The call dies before the delivery; another process replays the log. -/
def replaying : Program (withStore residentInterface) (Except RuntimeError ℕ) × ResidentWorld :=
  amongStrategy.after 60 (reconcileRoutes 1) (expiring 8 leasedWorld).2

/-- The replay, and the call after it. -/
theorem replaying_calls :
    Returned replaying.1 = true ∧ Returned (expiring 20 replaying.2).1 = true ∧
      ∃ e ∈ (expiring 20 replaying.2).2.store.db.events.rows, LeaseExpired e ∧
        ∀ f ∈ mailboxFacts (expiring 20 replaying.2).2.store.db.events.rows "mailbox.delivery.sent"
          "coordinator", carriedEvent f ≠ .ok e := by
  decide +kernel

/-- The coordinator never learns of the expired lease. -/
theorem wakeUp_lost :
    ∃ w₁ w₂ w₃ n m, Serves (fun _ => True) w₁ ∧
      Program.Runs stepAmong (reconcileRoutes 1) w₁ (.ok n) w₂ ∧
      Program.Runs stepAmong (expireDueLeases (twelve.addSeconds 2)) w₂ (.ok m) w₃ ∧
      ∃ e ∈ w₃.store.db.events.rows, LeaseExpired e ∧ ¬ Woken w₃.store.db.events.rows e := by
  have hreplay := amongStrategy.after_reaches 60 (reconcileRoutes 1) (expiring 8 leasedWorld).2
  have hexpire := amongStrategy.after_reaches 20 (expireDueLeases (twelve.addSeconds 2)) replaying.2
  obtain ⟨hreplayed, hreturned, e, he, hexpired, hnone⟩ := replaying_calls
  obtain ⟨n, hn⟩ := returned_iff.mp hreplayed
  obtain ⟨m, hm⟩ := returned_iff.mp hreturned
  refine ⟨(expiring 8 leasedWorld).2, replaying.2, (expiring 20 replaying.2).2, n, m,
    .expire serves_leasedWorld (twelve.addSeconds 2) (amongStrategy.after_reaches 8 _ _)
      (.inr trivial), ?_, ?_, ?_⟩
  · rw [Program.Runs, ← hn]
    exact hreplay
  · rw [Program.Runs, ← hm]
    exact hexpire
  · refine ⟨e, he, hexpired, ?_⟩
    rintro ⟨id, f, hf, -, hevent⟩
    exact hnone f hf hevent

end CrazyHarness
