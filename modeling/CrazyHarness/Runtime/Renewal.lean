import CrazyHarness.Runtime.Scheduler
import CrazyHarness.Store.Fencing
import CrazyHarness.Lib.Run

/-! # Renewing the claims of a scheduler

While its deliveries are worked on, a thread of the scheduler renews their claims, pass by pass:
`_renew_claims_loop`.  A pass takes a snapshot of the reservations under the lock, and then renews
the claims of one after the other without it; the lock is taken again to write down what became
of each.  In between, an execution may end and release its reservation, and the same delivery may
be reserved again under new claims.

A `RenewalWorld` is the store with what the scheduler remembers of its reservations; one step is
one section under the lock, or one transaction of the store.  Which delivery is reserved, when an
execution ends and when a dispatch is cancelled is left to the order of the steps.  The facts that
the loop appends are appends like any other: no step reads them.

* `renewal_harmless`: what the scheduler remembers stays right, and every pass renews every
  reservation that is not cancelled, exactly if no outcome is written down to a reservation it is
  not about and no pass begins while a dispatch that is not cancelled records its end.
* `renewal_harms_newer`: a delivery that is reserved again within a pass is marked as lost. -/

namespace CrazyHarness

open Lib

/-- Worker and delivery. -/
abbrev ReservationKey := String × String

/-- An entry of `_in_flight`; `context` is its dispatch context. -/
structure Dispatched where
  workerId : String
  delivery : Delivery
  claims : Claims
  context : ℕ
deriving DecidableEq

/-- The key of an entry. -/
def Dispatched.key (r : Dispatched) : ReservationKey := (r.workerId, r.delivery.deliveryId)

/-- An entry of the snapshot of a pass. -/
structure Renewal where
  reservation : Dispatched
  claimDeadline : Option DateTime
deriving DecidableEq

/-- What `renew_work_claims` came to; `unconfirmed` is an exception. -/
inductive RenewalOutcome where
  | renewed
  | rejected
  | unconfirmed
deriving DecidableEq

/-- Where the thread of `_renew_claims_loop` stands; between two passes it is `passing []`. -/
inductive Renewer where
  | absent
  | passing (rest : List Renewal)
  | deciding (entry : Renewal) (renewedAt : DateTime) (outcome : RenewalOutcome)
      (rest : List Renewal)
deriving DecidableEq

/-- The entries of the pass whose renewal is still to come. -/
def Renewer.left : Renewer → List Renewal
  | absent => []
  | passing rest => rest
  | deciding _ _ _ rest => rest

/-- The store with what a scheduler remembers of its reservations.  Contexts are numbered in the
order of their creation. -/
structure RenewalWorld where
  db : Database
  contexts : ℕ := 0
  cancelled : Finset ℕ := ∅
  inFlight : Table Dispatched.key := .empty
  claimDeadlines : Table (Prod.fst : ReservationKey × DateTime → ReservationKey) := .empty
  finalizing : Finset ReservationKey := ∅
  lostReservations : Finset ReservationKey := ∅
  renewer : Renewer := .absent

/-- One section under the lock, or one transaction; the times are those of the clock in UTC. -/
inductive RenewalOp where
  | reserve (workerId : String) (d : Delivery) (slot : ℕ) (claimedAt : ℤ)
  | finalize (key : ReservationKey)
  | release (key : ReservationKey)
  | cancel (context : ℕ)
  | store (op : ClaimOp)
  | pass
  | renew (renewedAt : ℤ)
  | renewRaises (renewedAt : ℤ)
  | recordOutcome
  | stop

namespace RenewalWorld

variable (cfg : SchedulerConfig)

/-- `datetime.now(timezone.utc)`. -/
def utcNow (instant : ℤ) : DateTime := ⟨instant, some 0⟩

/-- `timedelta(seconds=max(0.05, ttl / 3))`, in microseconds; the ttl is a positive integer. -/
def interval : ℤ := (cfg.workClaimSeconds * 1000000 + 1) / 3

/-- `_ensure_renewer_locked`. -/
def ensureRenewer : Renewer → Renewer
  | .absent => .passing []
  | renewer => renewer

/-- `_reserve_next_locked`, where it comes to this delivery and slot. -/
def reserveNext (workerId : String) (d : Delivery) (slot : ℕ) (claimedAt : ℤ) (w : RenewalWorld) :
    RenewalWorld :=
  if h : w.inFlight.lookup (workerId, d.deliveryId) = none then
    match w.db.claimWork (claimKeys workerId d slot) cfg.ownerId cfg.workClaimSeconds
        (utcNow claimedAt) (some d.event.runId) with
    | .ok (some claims, db) =>
        { w with
          db := db
          contexts := w.contexts + 1
          inFlight := w.inFlight.insertNew ⟨workerId, d, claims, w.contexts⟩ h
          claimDeadlines := w.claimDeadlines.upsert
            ((workerId, d.deliveryId), (utcNow claimedAt).addSeconds cfg.workClaimSeconds)
          renewer := ensureRenewer w.renewer }
    | .ok (none, db) => { w with db := db }
    | .error _ => w
  else w

/-- An execution begins to record its end. -/
def finalize (key : ReservationKey) (w : RenewalWorld) : RenewalWorld :=
  if w.inFlight.lookup key = none then w
  else { w with finalizing := insert key w.finalizing }

/-- `_release_reservation_locked`, by the execution of the reservation. -/
def releaseReservation (key : ReservationKey) (w : RenewalWorld) : RenewalWorld :=
  if w.inFlight.lookup key = none then w
  else { w with
    inFlight := w.inFlight.delete key
    claimDeadlines := w.claimDeadlines.delete key
    finalizing := w.finalizing.erase key
    lostReservations := w.lostReservations.erase key }

/-- `cancellation.cancel(reason)`. -/
def cancel (context : ℕ) (w : RenewalWorld) : RenewalWorld :=
  if context < w.contexts then { w with cancelled := insert context w.cancelled } else w

/-- The snapshot of a pass. -/
def snapshot (w : RenewalWorld) : List Renewal :=
  (w.inFlight.rows.filter (fun r => r.key ∉ w.finalizing ∧ r.key ∉ w.lostReservations)).map
    (fun r => ⟨r, (w.claimDeadlines.lookup r.key).map Prod.snd⟩)

/-- The next pass begins, or the thread ends because nothing is in flight. -/
def beginPass (w : RenewalWorld) : RenewalWorld :=
  match w.renewer with
  | .passing [] =>
      if w.inFlight.rows = [] then { w with renewer := .absent }
      else { w with renewer := .passing w.snapshot }
  | _ => w

/-- `renew_work_claims` of the next entry. -/
def renewClaims (renewedAt : ℤ) (w : RenewalWorld) : RenewalWorld :=
  match w.renewer with
  | .passing (entry :: rest) =>
      match w.db.renewWorkClaims entry.reservation.claims cfg.ownerId cfg.workClaimSeconds
          (utcNow renewedAt) with
      | .ok (true, db) =>
          { w with db := db, renewer := .deciding entry (utcNow renewedAt) .renewed rest }
      | .ok (false, db) =>
          { w with db := db, renewer := .deciding entry (utcNow renewedAt) .rejected rest }
      | .error _ => { w with renewer := .deciding entry (utcNow renewedAt) .unconfirmed rest }
  | _ => w

/-- The transaction of a renewal fails. -/
def failRenewal (renewedAt : ℤ) (w : RenewalWorld) : RenewalWorld :=
  match w.renewer with
  | .passing (entry :: rest) =>
      { w with renewer := .deciding entry (utcNow renewedAt) .unconfirmed rest }
  | _ => w

/-- `cancel_before_expiry`. -/
def CancelBeforeExpiry (entry : Renewal) (renewedAt : DateTime) : Prop :=
  ∀ deadline ∈ entry.claimDeadline, deadline.instant ≤ renewedAt.instant + interval cfg

instance (entry : Renewal) (renewedAt : DateTime) :
    Decidable (CancelBeforeExpiry cfg entry renewedAt) := by
  unfold CancelBeforeExpiry
  infer_instance

/-- The reservation is lost, and the dispatch of the snapshot is cancelled. -/
def markLost (entry : Renewal) (w : RenewalWorld) : RenewalWorld :=
  { w with
    lostReservations := insert entry.reservation.key w.lostReservations
    cancelled := insert entry.reservation.context w.cancelled }

/-- The outcome marks the key of its entry as lost. -/
def MarksLost (w : RenewalWorld) (entry : Renewal) (renewedAt : DateTime) : RenewalOutcome → Prop
  | .renewed => False
  | .rejected => w.inFlight.lookup entry.reservation.key ≠ none ∧
      entry.reservation.key ∉ w.finalizing ∧ entry.reservation.key ∉ w.lostReservations
  | .unconfirmed => w.inFlight.lookup entry.reservation.key ≠ none ∧
      CancelBeforeExpiry cfg entry renewedAt

instance (w : RenewalWorld) (entry : Renewal) (renewedAt : DateTime) :
    DecidablePred (MarksLost cfg w entry renewedAt) := fun outcome => by
  cases outcome <;> unfold MarksLost <;> infer_instance

/-- What the loop remembers of an outcome. -/
def remember (entry : Renewal) (renewedAt : DateTime) (outcome : RenewalOutcome)
    (w : RenewalWorld) : RenewalWorld :=
  if outcome = .renewed then
    let deadline := renewedAt.addSeconds cfg.workClaimSeconds
    { w with claimDeadlines := w.claimDeadlines.upsert (entry.reservation.key, deadline) }
  else if MarksLost cfg w entry renewedAt outcome then w.markLost entry
  else w

/-- The section under the lock after a renewal; then the loop goes on with the next entry. -/
def recordOutcome (w : RenewalWorld) : RenewalWorld :=
  match w.renewer with
  | .deciding entry renewedAt outcome rest =>
      { w.remember cfg entry renewedAt outcome with renewer := .passing rest }
  | _ => w

/-- `_stop_renewer`, which waits for the end of a pass. -/
def stopRenewer (w : RenewalWorld) : RenewalWorld :=
  match w.renewer with
  | .passing [] => { w with renewer := .absent }
  | _ => w

/-- One step. -/
def step (op : RenewalOp) (w : RenewalWorld) : RenewalWorld :=
  match op with
  | .reserve workerId d slot claimedAt => w.reserveNext cfg workerId d slot claimedAt
  | .finalize key => w.finalize key
  | .release key => w.releaseReservation key
  | .cancel context => w.cancel context
  | .store op => { w with db := op.apply w.db }
  | .pass => w.beginPass
  | .renew renewedAt => w.renewClaims cfg renewedAt
  | .renewRaises renewedAt => w.failRenewal renewedAt
  | .recordOutcome => w.recordOutcome cfg
  | .stop => w.stopRenewer

/-- The scheduler after its construction, over any store. -/
def created (db : Database) : RenewalWorld := { db := db }

/-! ### What should hold -/

/-- Only cancelled dispatches are lost, and there are deadlines only of what is in flight. -/
structure Bookkept (w : RenewalWorld) : Prop where
  lost : ∀ key ∈ w.lostReservations, ∃ r ∈ w.inFlight.rows, r.key = key ∧ r.context ∈ w.cancelled
  deadlines : ∀ d ∈ w.claimDeadlines.rows, ∃ r ∈ w.inFlight.rows, r.key = d.1

instance : DecidablePred Bookkept := fun w =>
  decidable_of_iff
    ((∀ key ∈ w.lostReservations, ∃ r ∈ w.inFlight.rows, r.key = key ∧ r.context ∈ w.cancelled) ∧
      ∀ d ∈ w.claimDeadlines.rows, ∃ r ∈ w.inFlight.rows, r.key = d.1)
    ⟨fun h => ⟨h.1, h.2⟩, fun h => ⟨h.lost, h.deadlines⟩⟩

/-- A pass that begins takes up every reservation whose dispatch is not cancelled. -/
def PassRenews (w : RenewalWorld) (op : RenewalOp) : Prop :=
  op = .pass → w.renewer = .passing [] → ∀ r ∈ w.inFlight.rows, r.context ∉ w.cancelled →
    ∃ entry ∈ w.beginPass.renewer.left, entry.reservation = r

/-- The step is the renewal of this entry. -/
def Renews (entry : Renewal) (w : RenewalWorld) (op : RenewalOp) : Prop :=
  ∃ rest renewedAt, w.renewer = .passing (entry :: rest) ∧
    (op = .renew renewedAt ∨ op = .renewRaises renewedAt)

/-- An outcome is written down to the reservation it is about: a renewed deadline to one that is
in flight, a loss to the one of the snapshot, or to one that is cancelled. -/
def OutcomeApt (w : RenewalWorld) (entry : Renewal) (renewedAt : DateTime)
    (outcome : RenewalOutcome) : Prop :=
  (outcome = .renewed → ∃ r ∈ w.inFlight.rows, r.key = entry.reservation.key) ∧
    (MarksLost cfg w entry renewedAt outcome → ∀ r ∈ w.inFlight.rows,
      r.key = entry.reservation.key → r.context = entry.reservation.context ∨ r.context ∈ w.cancelled)

/-- The outcome that the step writes down is apt, and no pass begins while a dispatch that is not
cancelled records its end. -/
def Apt (w : RenewalWorld) (op : RenewalOp) : Prop :=
  match op with
  | .recordOutcome => ∀ entry renewedAt outcome rest,
      w.renewer = .deciding entry renewedAt outcome rest → OutcomeApt cfg w entry renewedAt outcome
  | .pass => w.renewer = .passing [] → ∀ r ∈ w.inFlight.rows, r.context ∉ w.cancelled →
      r.key ∉ w.finalizing
  | _ => True

/-! ### Steps that only the outcomes can spoil -/

variable {cfg} {w : RenewalWorld}

/-- What a later state has of the reservations and of the cancelled dispatches. -/
theorem Bookkept.grown {w' : RenewalWorld} (h : Bookkept w)
    (hlost : w'.lostReservations ⊆ w.lostReservations)
    (hdeadlines : w'.claimDeadlines = w.claimDeadlines)
    (hinFlight : ∀ r ∈ w.inFlight.rows, r ∈ w'.inFlight.rows)
    (hcancelled : w.cancelled ⊆ w'.cancelled) : Bookkept w' := by
  constructor
  · intro key hkey
    obtain ⟨r, hr, hrkey, hcontext⟩ := h.lost key (hlost hkey)
    exact ⟨r, hinFlight r hr, hrkey, hcancelled hcontext⟩
  · intro d hd
    obtain ⟨r, hr, hrkey⟩ := h.deadlines d (hdeadlines ▸ hd)
    exact ⟨r, hinFlight r hr, hrkey⟩

theorem bookkept_reserveNext {workerId : String} {d : Delivery} {slot : ℕ} {claimedAt : ℤ}
    (h : Bookkept w) : Bookkept (w.reserveNext cfg workerId d slot claimedAt) := by
  unfold reserveNext
  split
  next hfree =>
    split
    next claims db _ =>
      constructor
      · intro key hkey
        obtain ⟨r, hr, hrkey, hcontext⟩ := h.lost key hkey
        exact ⟨r, (Table.mem_insertNew (h := hfree)).mpr (.inl hr), hrkey, hcontext⟩
      · intro e he
        rcases Table.mem_upsert he with rfl | ⟨hold, _⟩
        · exact ⟨_, (Table.mem_insertNew (h := hfree)).mpr (.inr rfl), rfl⟩
        · obtain ⟨r, hr, hrkey⟩ := h.deadlines e hold
          exact ⟨r, (Table.mem_insertNew (h := hfree)).mpr (.inl hr), hrkey⟩
    next => exact h.grown (fun _ hk => hk) rfl (fun _ hr => hr) (fun _ hc => hc)
    next => exact h
  next => exact h

theorem bookkept_finalize {key : ReservationKey} (h : Bookkept w) : Bookkept (w.finalize key) := by
  unfold finalize
  split
  · exact h
  · exact h.grown (fun _ hk => hk) rfl (fun _ hr => hr) (fun _ hc => hc)

theorem bookkept_release {key : ReservationKey} (h : Bookkept w) :
    Bookkept (w.releaseReservation key) := by
  unfold releaseReservation
  split
  · exact h
  · constructor
    · intro k hk
      obtain ⟨hne, hold⟩ := Finset.mem_erase.mp hk
      obtain ⟨r, hr, hrkey, hcontext⟩ := h.lost k hold
      exact ⟨r, Table.mem_delete.mpr ⟨hr, hrkey ▸ hne⟩, hrkey, hcontext⟩
    · intro d hd
      obtain ⟨hold, hne⟩ := Table.mem_delete.mp hd
      obtain ⟨r, hr, hrkey⟩ := h.deadlines d hold
      exact ⟨r, Table.mem_delete.mpr ⟨hr, hrkey ▸ hne⟩, hrkey⟩

theorem bookkept_cancel {context : ℕ} (h : Bookkept w) : Bookkept (w.cancel context) := by
  unfold cancel
  split
  · exact h.grown (fun _ hk => hk) rfl (fun _ hr => hr) (Finset.subset_insert _ _)
  · exact h

theorem bookkept_beginPass (h : Bookkept w) : Bookkept w.beginPass := by
  unfold beginPass
  split
  · split <;> exact h.grown (fun _ hk => hk) rfl (fun _ hr => hr) (fun _ hc => hc)
  · exact h

theorem bookkept_renewClaims {renewedAt : ℤ} (h : Bookkept w) :
    Bookkept (w.renewClaims cfg renewedAt) := by
  unfold renewClaims
  split
  · split <;> exact h.grown (fun _ hk => hk) rfl (fun _ hr => hr) (fun _ hc => hc)
  · exact h

theorem bookkept_failRenewal {renewedAt : ℤ} (h : Bookkept w) :
    Bookkept (w.failRenewal renewedAt) := by
  unfold failRenewal
  split
  · exact h.grown (fun _ hk => hk) rfl (fun _ hr => hr) (fun _ hc => hc)
  · exact h

theorem bookkept_stop (h : Bookkept w) : Bookkept w.stopRenewer := by
  unfold stopRenewer
  split
  · exact h.grown (fun _ hk => hk) rfl (fun _ hr => hr) (fun _ hc => hc)
  · exact h

/-! ### Outcomes -/

variable {entry : Renewal} {renewedAt : DateTime} {outcome : RenewalOutcome}

/-- A loss keeps the books exactly if the reservation in flight is the one of the snapshot, or
cancelled. -/
theorem bookkept_markLost_iff (h : Bookkept w)
    (hinFlight : w.inFlight.lookup entry.reservation.key ≠ none) :
    Bookkept (w.markLost entry) ↔ ∀ r ∈ w.inFlight.rows, r.key = entry.reservation.key →
      r.context = entry.reservation.context ∨ r.context ∈ w.cancelled := by
  obtain ⟨r₀, hr₀⟩ := Option.ne_none_iff_exists'.mp hinFlight
  have hmem₀ := Table.mem_of_lookup hr₀
  have hkey₀ := Table.key_of_lookup hr₀
  constructor
  · intro hafter r hr hrkey
    obtain ⟨s, hs, hskey, hcontext⟩ := hafter.lost _ (Finset.mem_insert_self _ _)
    obtain rfl := w.inFlight.eq_of_key_eq hr hs (hrkey.trans hskey.symm)
    exact Finset.mem_insert.mp hcontext
  · intro hown
    constructor
    · intro key hkey
      rcases Finset.mem_insert.mp hkey with rfl | hold
      · exact ⟨r₀, hmem₀, hkey₀, Finset.mem_insert.mpr (hown r₀ hmem₀ hkey₀)⟩
      · obtain ⟨r, hr, hrkey, hcontext⟩ := h.lost key hold
        exact ⟨r, hr, hrkey, Finset.mem_insert_of_mem hcontext⟩
    · exact h.deadlines

theorem MarksLost.inFlight (h : MarksLost cfg w entry renewedAt outcome) :
    w.inFlight.lookup entry.reservation.key ≠ none := by
  cases outcome with
  | renewed => exact h.elim
  | rejected => exact h.1
  | unconfirmed => exact h.1

theorem bookkept_remember_iff (h : Bookkept w) :
    Bookkept (w.remember cfg entry renewedAt outcome) ↔
      OutcomeApt cfg w entry renewedAt outcome := by
  unfold remember OutcomeApt
  by_cases hrenewed : outcome = .renewed
  · subst hrenewed
    rw [if_pos rfl]
    constructor
    · intro hafter
      refine ⟨fun _ => ?_, fun hlost => hlost.elim⟩
      have hlookup := Table.lookup_upsert_self w.claimDeadlines
        (entry.reservation.key, renewedAt.addSeconds cfg.workClaimSeconds)
      exact hafter.deadlines _ (Table.mem_of_lookup hlookup)
    · intro hapt
      refine ⟨h.lost, ?_⟩
      intro d hd
      rcases Table.mem_upsert hd with rfl | ⟨hold, _⟩
      · exact hapt.1 rfl
      · exact h.deadlines d hold
  · rw [if_neg hrenewed]
    split
    next hlost =>
      rw [bookkept_markLost_iff h hlost.inFlight]
      exact ⟨fun hown => ⟨fun e => absurd e hrenewed, fun _ => hown⟩, fun hapt => hapt.2 hlost⟩
    next hkept =>
      exact iff_of_true h ⟨fun e => absurd e hrenewed, fun hlost => absurd hlost hkept⟩

theorem bookkept_recordOutcome_iff (h : Bookkept w) :
    Bookkept (w.recordOutcome cfg) ↔ Apt cfg w .recordOutcome := by
  unfold recordOutcome Apt
  split
  next entry renewedAt outcome rest hrenewer =>
    have hrest : Bookkept { w.remember cfg entry renewedAt outcome with renewer := .passing rest } ↔
        Bookkept (w.remember cfg entry renewedAt outcome) :=
      ⟨fun hb => ⟨hb.lost, hb.deadlines⟩, fun hb => ⟨hb.lost, hb.deadlines⟩⟩
    rw [hrest, bookkept_remember_iff h]
    constructor
    · intro hapt entry' renewedAt' outcome' rest' hrenewer'
      obtain ⟨rfl, rfl, rfl, rfl⟩ := Renewer.deciding.inj (hrenewer.symm.trans hrenewer')
      exact hapt
    · intro hapt
      exact hapt entry renewedAt outcome rest hrenewer
  next hother =>
    refine iff_of_true h ?_
    intro entry renewedAt outcome rest hrenewer
    exact absurd hrenewer (hother entry renewedAt outcome rest)

/-! ### Passes -/

/-- Of what is in flight, a pass leaves out what records its end, and what is lost. -/
theorem mem_snapshot_iff {r : Dispatched} :
    (∃ entry ∈ w.snapshot, entry.reservation = r) ↔
      r ∈ w.inFlight.rows ∧ r.key ∉ w.finalizing ∧ r.key ∉ w.lostReservations := by
  simp [snapshot]

/-- What is not cancelled is not lost. -/
theorem Bookkept.not_lost {r : Dispatched} (h : Bookkept w) (hr : r ∈ w.inFlight.rows)
    (hlive : r.context ∉ w.cancelled) : r.key ∉ w.lostReservations := by
  intro hlost
  obtain ⟨s, hs, hskey, hcontext⟩ := h.lost _ hlost
  rw [w.inFlight.eq_of_key_eq hs hr hskey] at hcontext
  exact hlive hcontext

theorem passRenews_iff (h : Bookkept w) : PassRenews w .pass ↔ Apt cfg w .pass := by
  have hleft : w.renewer = .passing [] → ∀ r ∈ w.inFlight.rows,
      ((∃ entry ∈ w.beginPass.renewer.left, entry.reservation = r) ↔
        r.key ∉ w.finalizing ∧ r.key ∉ w.lostReservations) := by
    intro hwaits r hr
    have hsome : w.inFlight.rows ≠ [] := List.ne_nil_of_mem hr
    have hbegin : w.beginPass = { w with renewer := .passing w.snapshot } := by
      unfold beginPass
      rw [hwaits]
      exact if_neg hsome
    rw [hbegin]
    exact mem_snapshot_iff.trans (and_iff_right hr)
  constructor
  · intro hpass hwaits r hr hlive
    exact ((hleft hwaits r hr).mp (hpass rfl hwaits r hr hlive)).1
  · intro hapt _ hwaits r hr hlive
    exact (hleft hwaits r hr).mpr ⟨hapt hwaits r hr hlive, h.not_lost hr hlive⟩

/-- **One step.** -/
theorem step_iff (op : RenewalOp) (h : Bookkept w) :
    Bookkept (step cfg op w) ∧ PassRenews w op ↔ Apt cfg w op := by
  have hother : op ≠ .pass → PassRenews w op := fun hne e => absurd e hne
  cases op with
  | recordOutcome =>
      have := hother (by nofun)
      exact (and_iff_left this).trans (bookkept_recordOutcome_iff h)
  | pass => exact (and_iff_right (bookkept_beginPass h)).trans (passRenews_iff h)
  | reserve workerId d slot claimedAt =>
      exact iff_of_true ⟨bookkept_reserveNext h, hother (by nofun)⟩ trivial
  | finalize key => exact iff_of_true ⟨bookkept_finalize h, hother (by nofun)⟩ trivial
  | release key => exact iff_of_true ⟨bookkept_release h, hother (by nofun)⟩ trivial
  | cancel context => exact iff_of_true ⟨bookkept_cancel h, hother (by nofun)⟩ trivial
  | store op =>
      refine iff_of_true ⟨?_, hother (by nofun)⟩ trivial
      exact h.grown (fun _ hk => hk) rfl (fun _ hr => hr) (fun _ hc => hc)
  | renew renewedAt => exact iff_of_true ⟨bookkept_renewClaims h, hother (by nofun)⟩ trivial
  | renewRaises renewedAt => exact iff_of_true ⟨bookkept_failRenewal h, hother (by nofun)⟩ trivial
  | stop => exact iff_of_true ⟨bookkept_stop h, hother (by nofun)⟩ trivial

/-- What a pass has before it stays before it until it is renewed. -/
theorem left_step {op : RenewalOp} (h : entry ∈ w.renewer.left) :
    entry ∈ (step cfg op w).renewer.left ∨ Renews entry w op := by
  have hensure : entry ∈ (ensureRenewer w.renewer).left := by
    unfold ensureRenewer
    split
    next habsent =>
      rw [habsent] at h
      exact absurd h List.not_mem_nil
    next => exact h
  have hpasses : w.renewer ≠ .passing [] := by
    intro hwaits
    rw [hwaits] at h
    exact absurd h List.not_mem_nil
  cases op with
  | reserve workerId d slot claimedAt =>
      left
      show entry ∈ (w.reserveNext cfg workerId d slot claimedAt).renewer.left
      unfold reserveNext
      split
      · split
        · exact hensure
        · exact h
        · exact h
      · exact h
  | finalize key =>
      left
      show entry ∈ (w.finalize key).renewer.left
      unfold finalize
      split <;> exact h
  | release key =>
      left
      show entry ∈ (w.releaseReservation key).renewer.left
      unfold releaseReservation
      split <;> exact h
  | cancel context =>
      left
      show entry ∈ (w.cancel context).renewer.left
      unfold cancel
      split <;> exact h
  | store op => exact .inl h
  | pass =>
      left
      show entry ∈ w.beginPass.renewer.left
      unfold beginPass
      split
      next hwaits => exact absurd hwaits hpasses
      next => exact h
  | renew renewedAt =>
      show entry ∈ (w.renewClaims cfg renewedAt).renewer.left ∨ _
      unfold renewClaims
      split
      next e rest hrenewer =>
        rw [hrenewer] at h
        rcases List.mem_cons.mp h with rfl | hrest
        · exact .inr ⟨rest, renewedAt, hrenewer, .inl rfl⟩
        · left
          split <;> exact hrest
      next => exact .inl h
  | renewRaises renewedAt =>
      show entry ∈ (w.failRenewal renewedAt).renewer.left ∨ _
      unfold failRenewal
      split
      next e rest hrenewer =>
        rw [hrenewer] at h
        rcases List.mem_cons.mp h with rfl | hrest
        · exact .inr ⟨rest, renewedAt, hrenewer, .inr rfl⟩
        · exact .inl hrest
      next => exact .inl h
  | recordOutcome =>
      left
      show entry ∈ (w.recordOutcome cfg).renewer.left
      unfold recordOutcome
      split
      next e renewedAt outcome rest hrenewer =>
        rw [hrenewer] at h
        exact h
      next => exact h
  | stop =>
      left
      show entry ∈ w.stopRenewer.renewer.left
      unfold stopRenewer
      split
      next hwaits => exact absurd hwaits hpasses
      next => exact h

/-- **A pass renews everything it has taken up.** -/
theorem renewed_of_left {ops : List RenewalOp} (h : entry ∈ w.renewer.left)
    (hafter : entry ∉ (runAll (step cfg) w ops).renewer.left) :
    ∃ before op after, ops = before ++ op :: after ∧
      Renews entry (runAll (step cfg) w before) op := by
  induction ops generalizing w with
  | nil => exact absurd h hafter
  | cons op ops ih =>
      rcases left_step h with hleft | hrenews
      · obtain ⟨before, op', after, rfl, hrenews⟩ := ih hleft hafter
        exact ⟨op :: before, op', after, rfl, hrenews⟩
      · exact ⟨[], op, ops, rfl, hrenews⟩

variable (cfg)

theorem bookkept_created (db : Database) : Bookkept (created db) where
  lost := fun key hkey => absurd hkey (Finset.notMem_empty key)
  deadlines := fun _ hd => absurd hd List.not_mem_nil

/-- **Renewal harms no reservation** exactly in the runs whose outcomes are apt and whose passes
begin while no dispatch that is not cancelled records its end; what a pass takes up, it renews. -/
theorem renewal_harmless (db : Database) (ops : List RenewalOp) :
    (EveryState (step cfg) Bookkept (created db) ops ∧
        EveryStep (step cfg) PassRenews (created db) ops ↔
      EveryStep (step cfg) (Apt cfg) (created db) ops) ∧
    ∀ before during entry, entry ∈ (runAll (step cfg) (created db) before).renewer.left →
      entry ∉ (runAll (step cfg) (created db) (before ++ during)).renewer.left →
      ∃ before' op after, during = before' ++ op :: after ∧
        Renews entry (runAll (step cfg) (created db) (before ++ before')) op := by
  constructor
  · exact everyState_and_everyStep_iff (bookkept_created db) (fun w op h => step_iff op h)
  · intro before during entry hleft hafter
    rw [runAll_append] at hafter
    obtain ⟨before', op, after, hsplit, hrenews⟩ := renewed_of_left hleft hafter
    refine ⟨before', op, after, hsplit, ?_⟩
    rw [runAll_append]
    exact hrenews

/-! ### A delivery that is reserved again -/

/-- A scheduler of one worker. -/
def loneScheduler : SchedulerConfig where
  ownerId := "scheduler_1"
  workers := [("generalist", 1)]

/-- The delivery of a new run. -/
def firstDelivery : Delivery where
  deliveryId := "d1"
  event := {
    id := "e1", runId := "r1", taskId := "t1", type := "run.ready", source := "harness",
    payload := [], createdAt := utcNow 0 }

/-- What the first execution of the delivery holds. -/
def firstClaims : Claims :=
  [("agent-run:task:r1:t1:generalist", 1), ("delivery:generalist:d1", 1),
    ("worker-slot:generalist:0", 1)]

/-- The key of the delivery. -/
def firstKey : ReservationKey := ("generalist", "d1")

/-- The delivery is reserved, a pass begins, the execution fails and gives its claims back, and
the delivery is reserved again; then its first claims are renewed. -/
def reservedAgain : List RenewalOp :=
  [.reserve "generalist" firstDelivery 0 0, .pass, .finalize firstKey,
    .store (.finish firstClaims "scheduler_1" .released (utcNow 1) none false), .release firstKey,
    .reserve "generalist" firstDelivery 0 2, .renew 3, .recordOutcome]

/-- The claims are renewed just before the execution ends; its deadline comes after its release. -/
def releasedMeanwhile : List RenewalOp :=
  [.reserve "generalist" firstDelivery 0 0, .pass, .renew 1, .finalize firstKey,
    .store (.finish firstClaims "scheduler_1" .released (utcNow 2) none false), .release firstKey,
    .recordOutcome]

/-- **Renewal harms a newer reservation**: it is lost without being cancelled, and no later pass
renews it.  A deadline can outlive its reservation, too. -/
theorem renewal_harms_newer :
    ¬ EveryState (step loneScheduler) Bookkept (created .initial) reservedAgain ∧
      ¬ EveryState (step loneScheduler) Bookkept (created .initial) releasedMeanwhile ∧
      (runAll (step loneScheduler) (created .initial) (reservedAgain ++ [.pass])).renewer =
        .passing [] ∧
      (runAll (step loneScheduler) (created .initial) (reservedAgain ++ [.pass])).inFlight.rows.map
        (fun r => (r.key, r.context)) = [(firstKey, 1)] ∧
      1 ∉ (runAll (step loneScheduler) (created .initial) (reservedAgain ++ [.pass])).cancelled := by
  decide +kernel

end RenewalWorld

end CrazyHarness
