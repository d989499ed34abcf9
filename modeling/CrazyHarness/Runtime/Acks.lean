import CrazyHarness.Runtime.Scheduler
import CrazyHarness.Runtime.Terminals

/-! # Acked deliveries

An ack commits together with the end of the claim of its delivery, or while nobody holds that
claim; only for a run that is ending may an expired claim be acked from outside.  So an acked
delivery whose claim is active belongs to a run that is ending (`AckFenced`), as long as claims
are taken of deliveries that have not been acked.

* `acked_not_handled`: then no handler starts for an acked delivery.
* `handled_after_ack`: `pending` is read before the claim is taken, and the claim of an acked
  delivery can be taken again. -/

namespace CrazyHarness

open Lib RuntimeM

/-! ### The invariant -/

/-- The event is the ack of a delivery. -/
def IsAck (e : Event) : Prop := e.type = "mailbox.delivery.acked"

instance : DecidablePred IsAck := fun e => inferInstanceAs (Decidable (e.type = _))

/-- The claim key of the delivery that an ack names. -/
def ackedKey (e : Event) : String :=
  deliveryKey (e.payload.getD "mailbox_id" (.str "")).pyStr
    (e.payload.getD "delivery_id" (.str "")).pyStr

/-- The delivery has been acked in its mailbox. -/
def Acked (log : List Event) (mailboxId : String) (d : Delivery) : Prop :=
  ∃ e ∈ log, e = ackEvent mailboxId d e.createdAt

instance (log : List Event) (mailboxId : String) (d : Delivery) : Decidable (Acked log mailboxId d) :=
  inferInstanceAs (Decidable (∃ e ∈ log, _))

/-- The run is being cancelled, or has been cancelled, or has failed. -/
def RunEnding (status : Option Json) : Prop :=
  status ∈ [some (.str "cancelling"), some (.str "cancelled"), some (.str "failed")]

instance (status : Option Json) : Decidable (RunEnding status) :=
  inferInstanceAs (Decidable (_ ∈ _))

/-- Somebody has taken the key, and has not given it back. -/
def Database.Active (db : Database) (key : String) : Prop :=
  ∃ row ∈ db.workClaims.lookup key, row.state = .active

/-- A delivery that has been acked is claimed by nobody, unless its run is ending. -/
def AckFenced (db : Database) : Prop :=
  ∀ e ∈ db.events.rows, IsAck e → db.Active (ackedKey e) → RunEnding (db.runStatus e.runId)

@[simp] theorem ackedKey_ackEvent (mailboxId : String) (d : Delivery) (createdAt : DateTime) :
    ackedKey (ackEvent mailboxId d createdAt) = deliveryKey mailboxId d.deliveryId := by
  simp [ackedKey, ackEvent, Dict.getD, Dict.get?_cons, Json.pyStr]

section invariant

variable {db db' : Database} {e : Event} {es : List Event} {runId : String}

/-- A run that is ending goes on ending. -/
theorem runEnding_statusAfter {type : String} {status : Option Json} (h : RunEnding status) :
    RunEnding (statusAfter type status) := by
  unfold RunEnding at h
  rcases List.mem_cons.mp h with rfl | h
  · unfold statusAfter
    simp only [decide_true, Bool.not_true, Bool.and_false, Bool.false_eq_true, and_false, if_false]
    split_ifs <;> decide
  · have hterminal : runTerminal status = true := by
      rcases List.mem_cons.mp h with rfl | h
      · rfl
      · rw [List.mem_singleton.mp h]
        rfl
    unfold statusAfter
    simp only [hterminal, Bool.not_true, Bool.false_and, Bool.false_eq_true, and_false, if_false]
    exact List.mem_cons_of_mem _ h

theorem runEnding_newEvent (h : RunEnding (db.runStatus runId)) (he : db.NewEvent e db') :
    RunEnding (db'.runStatus runId) := by
  rw [he.runStatus]
  split
  next heq =>
    subst heq
    unfold Database.runStatus at h
    cases hrun : db.loadProjection "run" e.runId with
    | none =>
        rw [hrun] at h
        cases h with
        | tail _ h => cases h with
          | tail _ h => cases h with
            | tail _ h => cases h
    | some run =>
        rw [hrun] at h
        exact runEnding_statusAfter h
  next => exact h

theorem runEnding_wrote (h : RunEnding (db.runStatus runId)) (hw : db.Wrote es db') :
    RunEnding (db'.runStatus runId) := by
  refine @Database.Wrote.preserves db db' es (fun db => RunEnding (db.runStatus runId)) hw ?_ ?_ h
  · intro db db' hs h
    rwa [Database.runStatus, hs.loadProjection]
  · intro db e db' he _ h
    exact runEnding_newEvent h he

/-- What a transaction owes: it takes no claim of an acked delivery, and the acks it writes are
fenced. -/
theorem AckFenced.wrote (h : AckFenced db) (hw : db.Wrote es db')
    (hold : ∀ e ∈ db.events.rows, IsAck e → db'.Active (ackedKey e) → db.Active (ackedKey e))
    (hnew : ∀ e ∈ es, IsAck e → db'.Active (ackedKey e) → RunEnding (db'.runStatus e.runId)) :
    AckFenced db' := by
  intro e he hack hactive
  rw [hw.rows] at he
  rcases List.mem_append.mp he with he | he
  · exact runEnding_wrote (h e he hack (hold e he hack hactive)) hw
  · exact hnew e he hack hactive

/-- Rows that are changed, but not activated. -/
theorem active_of_map {f : String → WorkClaimRow → WorkClaimRow} {key : String}
    (h : db'.workClaims.lookup key = (db.workClaims.lookup key).map (f key))
    (hf : ∀ r, (f key r).state = .active → r.state = .active) (hactive : db'.Active key) :
    db.Active key := by
  obtain ⟨row, hrow, hstate⟩ := hactive
  rw [h] at hrow
  obtain ⟨r, hr, rfl⟩ := Option.map_eq_some_iff.mp hrow
  exact ⟨r, hr, hf r hstate⟩

theorem active_congr (h : db'.workClaims = db.workClaims) {key : String} (hactive : db'.Active key) :
    db.Active key := by
  rwa [Database.Active, h] at hactive

/-- An ack that is appended finds its claim given back, or its run ending. -/
theorem append_ack {dispatch : Option DispatchContext} {stored : Event} {now : DateTime}
    (h : db.append dispatch e now = .ok (stored, db')) (hack : IsAck e)
    (hactive : db.Active (ackedKey e)) : RunEnding (db.runStatus e.runId) := by
  unfold Database.append at h
  obtain ⟨_, _, h⟩ := bind_ok_iff.mp h
  obtain ⟨_, hcheck, -⟩ := bind_ok_iff.mp h
  obtain ⟨row, hrow, hstate⟩ := hactive
  unfold Database.checkAck at hcheck
  rw [if_pos (show e.type = "mailbox.delivery.acked" from hack)] at hcheck
  have hlook : db.workClaims.lookup (toString "delivery:" ++
      toString (e.payload.getD "mailbox_id" (.str "")).pyStr ++ toString ":" ++
      toString (e.payload.getD "delivery_id" (.str "")).pyStr) = some row := hrow
  simp only [hlook, hstate, true_and] at hcheck
  split at hcheck
  next => cases hcheck
  next hexpired => exact (not_not.mp hexpired).2

theorem AckFenced.append {dispatch : Option DispatchContext} {stored : Event} {now : DateTime}
    (h : AckFenced db) (happend : db.append dispatch e now = .ok (stored, db')) : AckFenced db' := by
  have hclaims := Database.workClaims_append happend
  rcases Database.append_cases happend with ⟨rfl, -, -⟩ | ⟨rfl, hnew⟩
  · exact h
  · refine h.wrote hnew.wrote (fun _ _ _ => active_congr hclaims) ?_
    intro f hf hack hactive
    obtain rfl := List.mem_singleton.mp hf
    exact runEnding_newEvent (append_ack happend hack (active_congr hclaims hactive)) hnew

/-- A claim is taken of keys that no ack names. -/
theorem AckFenced.claimWork {keys : List String} {ownerId : String} {ttlSeconds : ℤ} {now : DateTime}
    {run : Option String} {result : Option Claims} (h : AckFenced db)
    (hclaim : db.claimWork keys ownerId ttlSeconds now run = .ok (result, db'))
    (hkeys : result.isSome → ∀ e ∈ db.events.rows, IsAck e → ackedKey e ∉ keys) : AckFenced db' := by
  rcases Database.claimWork_cases hclaim with ⟨-, rfl⟩ | ⟨claims, rfl, htook⟩
  · exact h
  · refine h.wrote (.nothing (Database.claimWork_wrote hclaim)) ?_ (fun e he => absurd he List.not_mem_nil)
    rintro e he hack ⟨row, hrow, hstate⟩
    rw [htook.others _ (hkeys rfl e he hack)] at hrow
    exact ⟨row, hrow, hstate⟩

/-- The claim that ends with an ack is the claim of the delivery. -/
theorem AckFenced.finishWorkClaims {claims : Claims} {ownerId : String} {state : WorkClaimState}
    {now : DateTime} {finalEvent : Option Event} {allowCancelledRun finished : Bool} (h : AckFenced db)
    (hfinish : db.finishWorkClaims claims ownerId state now finalEvent allowCancelledRun =
      .ok (finished, db'))
    (hkeys : ∀ e ∈ finalEvent, IsAck e → ackedKey e ∈ claims.map Prod.fst) : AckFenced db' := by
  obtain ⟨es, hes, hwrote⟩ := Database.finishWorkClaims_wrote hfinish
  rcases Database.finishWorkClaims_cases hfinish with ⟨-, rfl⟩ | ⟨-, hcurrent, hstate, hrows⟩
  · exact h
  · refine h.wrote hwrote ?_ ?_
    · intro e _ _
      refine @active_of_map db db' (fun key r =>
        if r.ownerId = ownerId ∧ (key, r.fencingToken) ∈ claims then r.ended now state else r) _
        (hrows _) ?_
      intro r
      split
      · exact fun h => absurd h hstate
      · exact id
    · rintro e he hack ⟨row, hrow, hactive⟩
      obtain ⟨⟨key, token⟩, hmem, hkey⟩ := List.mem_map.mp
        (hkeys e (Option.mem_toList.mp (hes he)) hack)
      obtain ⟨r, hr, ⟨howner, htoken⟩, -⟩ := Database.workClaimsAreCurrent_iff.mp hcurrent key token hmem
      subst hkey
      rw [Option.mem_def, hrows, hr, Option.map_some, howner, htoken, if_pos ⟨rfl, hmem⟩] at hrow
      rw [← Option.some.inj hrow] at hactive
      exact absurd hactive hstate

theorem AckFenced.failWorkClaimBundle {claimKey : String} {now : DateTime} {count : ℕ}
    (h : AckFenced db) (hfail : db.failWorkClaimBundle claimKey now = .ok (count, db')) :
    AckFenced db' := by
  rcases Database.failWorkClaimBundle_cases hfail with rfl | ⟨row, -, -, hrows⟩
  · exact h
  · refine h.wrote (.nothing (Database.failWorkClaimBundle_sameLog hfail)) ?_
      (fun e he => absurd he List.not_mem_nil)
    intro e _ _
    refine @active_of_map db db' (fun _ r =>
      if r.ownerId = row.ownerId ∧ r.claimedAt = row.claimedAt ∧ r.state = .active then
        r.ended now .failed else r) _ (hrows _) ?_
    intro r
    split
    · intro hfailed
      cases hfailed
    · exact id

theorem AckFenced.renewWorkClaims {claims : Claims} {ownerId : String} {ttlSeconds : ℤ}
    {now : DateTime} {renewed : Bool} (h : AckFenced db)
    (hrenew : db.renewWorkClaims claims ownerId ttlSeconds now = .ok (renewed, db')) :
    AckFenced db' := by
  rcases Database.renewWorkClaims_cases hrenew with ⟨-, rfl⟩ | ⟨-, -, hrows⟩
  · exact h
  · refine h.wrote (.nothing (Database.renewWorkClaims_sameLog hrenew)) ?_
      (fun e he => absurd he List.not_mem_nil)
    intro e _ _
    refine @active_of_map db db' (fun key r =>
      if r.ownerId = ownerId ∧ (key, r.fencingToken) ∈ claims then r.renewed now ttlSeconds else r) _
      (hrows _) ?_
    intro r
    split <;> exact id

/-- The kernel acks nothing. -/
theorem AckFenced.commitCommand {key : String} {state : CommandState} {decision : KernelDecision}
    {events stored : List Event}
    {precondition : Option (Database → Except StoreError (Option String))}
    {guard : Option (String × Claims)} {now : DateTime} (h : AckFenced db)
    (hcommit : db.commitCommand key state decision events precondition guard now = .ok (stored, db'))
    (hevents : ∀ e ∈ events, ¬ IsAck e) : AckFenced db' := by
  obtain ⟨-, es, hes, hwrote, -⟩ := Database.commitCommand_wrote hcommit
  refine h.wrote hwrote (fun _ _ _ => active_congr (Database.workClaims_commitCommand hcommit)) ?_
  intro e he hack
  exact absurd hack (hevents e (hes.subset he))

end invariant

/-! ### Runs -/

/-- `claim_work` would take its keys. -/
def Database.canTake (db : Database) (keys : List String) (ownerId : String) (ttlSeconds : ℤ)
    (now : DateTime) (runId : Option String) : Bool :=
  match db.claimWork keys ownerId ttlSeconds now runId with
  | .ok (some _, _) => true
  | _ => false

/-- A call takes no claim of an acked delivery, and acks only with the claim of the delivery. -/
def KeepsFence (db : Database) : StoreOp → Prop
  | .claimWork keys ownerId ttlSeconds now runId =>
      db.canTake keys ownerId ttlSeconds now runId →
        ∀ e ∈ db.events.rows, IsAck e → ackedKey e ∉ keys
  | .finishWorkClaims claims _ _ finalEvent _ =>
      ∀ e ∈ finalEvent, IsAck e → ackedKey e ∈ claims.map Prod.fst
  | _ => True

theorem AckFenced.storeStep {w w' : StoreWorld} {op : StoreOp} {r : op.Reply} (h : AckFenced w.db)
    (hkeep : KeepsFence w.db op) (hstep : storeStep w op r w') : AckFenced w'.db := by
  have hsame : w' = w → AckFenced w'.db := fun heq => heq ▸ h
  cases op with
  | now => exact hsame hstep.2
  | uuid4 =>
      obtain ⟨-, rfl⟩ := hstep
      exact h
  | readAll runId => exact hsame hstep.2
  | projection kind entityId => exact hsame hstep.2
  | snapshot runId => exact hsame hstep.2
  | activeWorkClaims => exact hsame hstep.2
  | append dispatch e =>
      obtain ⟨d, now, -, -, hout⟩ := hstep
      rcases StoreWorld.returns_cases hout with ⟨_, -, -, rfl⟩ | ⟨stored, db, happend, -, rfl⟩
      · exact h
      · exact h.append happend
  | claimWork keys ownerId ttlSeconds now runId =>
      rcases StoreWorld.returns_cases hstep with ⟨_, -, -, rfl⟩ | ⟨claims, db, hclaim, -, rfl⟩
      · exact h
      · refine h.claimWork hclaim (fun hsome => hkeep ?_)
        obtain ⟨taken, rfl⟩ := Option.isSome_iff_exists.mp hsome
        rw [Database.canTake, hclaim]
  | finishWorkClaims claims ownerId state finalEvent allowCancelledRun =>
      obtain ⟨now, -, hout⟩ := hstep
      rcases StoreWorld.returns_cases hout with ⟨_, -, -, rfl⟩ | ⟨finished, db, hfinish, -, rfl⟩
      · exact h
      · exact h.finishWorkClaims hfinish hkeep
  | failWorkClaimBundle claimKey =>
      obtain ⟨now, -, hout⟩ := hstep
      rcases StoreWorld.returns_cases hout with ⟨_, -, -, rfl⟩ | ⟨count, db, hfail, -, rfl⟩
      · exact h
      · exact h.failWorkClaimBundle hfail

/-- A call that is no part of the scheduling of deliveries. -/
def LeavesDeliveries : StoreOp → Prop
  | .claimWork keys _ _ _ _ => ∀ mailboxId deliveryId, deliveryKey mailboxId deliveryId ∉ keys
  | .finishWorkClaims _ _ _ finalEvent _ => ∀ e ∈ finalEvent, ¬ IsAck e
  | _ => True

theorem LeavesDeliveries.keepsFence {op : StoreOp} (h : LeavesDeliveries op) (db : Database) :
    KeepsFence db op := by
  cases op with
  | claimWork keys ownerId ttlSeconds now runId => exact fun _ e _ _ => h _ _
  | finishWorkClaims claims ownerId state finalEvent allowCancelledRun =>
      exact fun e he hack => absurd hack (h e he)
  | _ => trivial

/-- Other code: calls that schedule no delivery, renewals, commits of the kernel, other tables of the
store, and processes that start with new memory. -/
inductive AckEnv : ResidentWorld → ResidentWorld → Prop
  | call (w : ResidentWorld) (op : StoreOp) (r : op.Reply) (s : StoreWorld) (hop : LeavesDeliveries op)
      (h : storeStep w.store op r s) : AckEnv w { w with store := s }
  | renew (w : ResidentWorld) (claims : Claims) (ownerId : String) (ttlSeconds : ℤ) (now : DateTime)
      (renewed : Bool) (db : Database)
      (h : w.store.db.renewWorkClaims claims ownerId ttlSeconds now = .ok (renewed, db)) :
      AckEnv w { w with store := { w.store with db := db } }
  | commit (w : ResidentWorld) (key : String) (state : CommandState) (decision : KernelDecision)
      (events stored : List Event)
      (precondition : Option (Database → Except StoreError (Option String)))
      (guard : Option (String × Claims)) (now : DateTime) (db : Database)
      (hevents : ∀ e ∈ events, ¬ IsAck e)
      (h : w.store.db.commitCommand key state decision events precondition guard now =
        .ok (stored, db)) : AckEnv w { w with store := { w.store with db := db } }
  | elsewhere (w : ResidentWorld) (db : Database) (hlog : w.store.db.SameLog db)
      (hclaims : db.workClaims = w.store.db.workClaims) :
      AckEnv w { w with store := { w.store with db := db } }
  | memory (w : ResidentWorld) (m : ℕ → ProcessMemory) : AckEnv w { w with memory := m }

theorem AckFenced.env {w w' : ResidentWorld} (h : AckFenced w.store.db) (he : AckEnv w w') :
    AckFenced w'.store.db ∧ w'.handlings = w.handlings := by
  cases he with
  | call op r s hop hstep => exact ⟨h.storeStep (hop.keepsFence _) hstep, rfl⟩
  | renew claims ownerId ttlSeconds now renewed db hrenew => exact ⟨h.renewWorkClaims hrenew, rfl⟩
  | commit key state decision events stored precondition guard now db hevents hcommit =>
      exact ⟨h.commitCommand hcommit hevents, rfl⟩
  | elsewhere db hlog hclaims =>
      exact ⟨h.wrote (.nothing hlog) (fun _ _ _ => active_congr hclaims)
        (fun e he => absurd he List.not_mem_nil), rfl⟩
  | memory m => exact ⟨h, rfl⟩

/-- Any number of schedulers. -/
inductive SchedulerStarts : ResidentWorld → Program (withStore residentInterface) Unit →
    ResidentWorld → Prop
  | runOnce (w : ResidentWorld) (cfg : SchedulerConfig) (i : ℕ) (allowedRunIds : Option (List String)) :
      SchedulerStarts w (ResidentScheduler.runOnce cfg i allowedRunIds).thread w

/-- All interleavings. -/
def schedulerRules : PoolRules (withStore residentInterface) Unit ResidentWorld where
  step := residentStep
  starts := SchedulerStarts
  env := AckEnv

/-- The owner still holds the claim under which a delivery was reserved. -/
def Reservation.HeldBy (r : Reservation) (db : Database) (ownerId : String) : Prop :=
  ∃ claim ∈ r.claims, claim.1 = deliveryKey r.workerId r.delivery.deliveryId ∧
    db.LiveClaim claim.1 ownerId claim.2

instance (r : Reservation) (db : Database) (ownerId : String) : Decidable (r.HeldBy db ownerId) :=
  inferInstanceAs (Decidable (∃ claim ∈ r.claims, _ ∧
    ∃ row ∈ db.workClaims.lookup claim.1, row.IsClaim ownerId claim.2 ∧ row.state = .active))

/-- No claim is taken of an acked delivery, and a handler starts while the claim of its delivery
is held and the run goes on. -/
def HoldsUnacked (w : ResidentWorld) : (withStore residentInterface).Op → Prop
  | .inl (.claimWork keys ownerId ttlSeconds now runId) =>
      w.store.db.canTake keys ownerId ttlSeconds now runId →
        ∀ e ∈ w.store.db.events.rows, IsAck e → ackedKey e ∉ keys
  | .inr (.handle ownerId r) =>
      r.HeldBy w.store.db ownerId ∧ ¬ RunEnding (w.store.db.runStatus r.delivery.event.runId)
  | _ => True

instance (w : ResidentWorld) : ∀ op, Decidable (HoldsUnacked w op)
  | .inl (.claimWork _ _ _ _ _) => inferInstanceAs (Decidable (_ → _))
  | .inl .now => Decidable.isTrue trivial
  | .inl .uuid4 => Decidable.isTrue trivial
  | .inl (.readAll _) => Decidable.isTrue trivial
  | .inl (.projection _ _) => Decidable.isTrue trivial
  | .inl (.snapshot _) => Decidable.isTrue trivial
  | .inl (.append _ _) => Decidable.isTrue trivial
  | .inl (.finishWorkClaims _ _ _ _ _) => Decidable.isTrue trivial
  | .inl (.failWorkClaimBundle _) => Decidable.isTrue trivial
  | .inl .activeWorkClaims => Decidable.isTrue trivial
  | .inr (.handle _ _) => inferInstanceAs (Decidable (_ ∧ _))
  | .inr (.memory _ _) => Decidable.isTrue trivial
  | .inr .outcome => Decidable.isTrue trivial
  | .inr (.expire _ _ _) => Decidable.isTrue trivial

/-- The interleavings whose steps all meet this. -/
def heldRules : PoolRules (withStore residentInterface) Unit ResidentWorld where
  step w op r w' := residentStep w op r w' ∧ HoldsUnacked w op
  starts := SchedulerStarts
  env := AckEnv

/-- A claim that is held is active. -/
theorem Reservation.HeldBy.active {r : Reservation} {db : Database} {ownerId : String}
    (h : r.HeldBy db ownerId) : db.Active (deliveryKey r.workerId r.delivery.deliveryId) := by
  obtain ⟨claim, -, hkey, row, hrow, -, hstate⟩ := h
  rw [hkey] at hrow
  exact ⟨row, hrow, hstate⟩

/-- Under the fence, a delivery with a holder has not been acked, unless its run is ending. -/
theorem AckFenced.not_acked {r : Reservation} {db : Database} {ownerId : String} (h : AckFenced db)
    (hheld : r.HeldBy db ownerId) (hrun : ¬ RunEnding (db.runStatus r.delivery.event.runId)) :
    ¬ Acked db.events.rows r.workerId r.delivery := by
  rintro ⟨e, he, heq⟩
  have hack : IsAck e := by
    rw [heq]
    rfl
  have hkey : ackedKey e = deliveryKey r.workerId r.delivery.deliveryId := by
    rw [heq, ackedKey_ackEvent]
  have hid : e.runId = r.delivery.event.runId := by
    rw [heq]
    rfl
  have hending := h e he hack (hkey ▸ hheld.active)
  rw [hid] at hending
  exact hrun hending

/-! ### What a scheduler asks for -/

/-- Claims that were taken name every key that was asked for. -/
def RepliesKeys : (op : (withStore residentInterface).Op) → (withStore residentInterface).Reply op →
    Prop
  | .inl (.claimWork keys _ _ _ _), (r : Except StoreError (Option Claims)) =>
      ∀ claims, r = .ok (some claims) → ∀ key ∈ keys, key ∈ claims.map Prod.fst
  | _, _ => True

/-- An ack comes with the claim of its delivery. -/
def AcksClaimed : (withStore residentInterface).Op → Prop
  | .inl (.finishWorkClaims claims _ _ finalEvent _) =>
      ∀ e ∈ finalEvent, IsAck e → ackedKey e ∈ claims.map Prod.fst
  | _ => True

/-- The claim of the delivery is among the claims. -/
def Reservation.Claimed (r : Reservation) : Prop :=
  deliveryKey r.workerId r.delivery.deliveryId ∈ r.claims.map Prod.fst

abbrev AsksClaimed {α : Type} (post : α → Prop) (p : Resident α) : Prop :=
  Asks RepliesKeys AcksClaimed post p

section asks

variable {α β : Type}

theorem repliesKeys_of_step {w w' : ResidentWorld} {op : (withStore residentInterface).Op}
    {r : (withStore residentInterface).Reply op} (h : residentStep w op r w') : RepliesKeys op r := by
  cases op with
  | inr op => trivial
  | inl op =>
      cases op with
      | claimWork keys ownerId ttlSeconds now runId =>
          obtain ⟨s, hs, -⟩ := h
          rcases StoreWorld.returns_cases hs with ⟨_, -, rfl, -⟩ | ⟨result, db, hclaim, rfl, -⟩
          · intro claims hclaims
            cases hclaims
          · intro claims hclaims key hkey
            obtain rfl := Except.ok.inj hclaims
            rcases Database.claimWork_cases hclaim with ⟨hnone, -⟩ | ⟨tokens, hsome, htook⟩
            · cases hnone
            · obtain rfl := Option.some.inj hsome
              exact List.mem_map.mpr ⟨(key, _), (htook.tokens key _).mpr ⟨hkey, rfl⟩, rfl⟩
      | _ => trivial

theorem asksClaimed_memory (i : ℕ) (op : MemoryOp) : AsksClaimed (fun _ => True) (memory i op) :=
  ⟨trivial, fun _ _ _ _ => trivial⟩

theorem asksClaimed_readAll (runId : Option String) :
    AsksClaimed (fun _ => True) (readAll runId : Resident (List Event)) :=
  asks_call trivial (fun _ _ => trivial)

theorem asksClaimed_append (dispatch : Option DispatchContext) (e : DateTime → Event) :
    AsksClaimed (fun _ => True) (append dispatch e : Resident Event) :=
  asks_append trivial (fun _ => trivial)

theorem asksClaimed_then {p : Resident α} {f : α → β} (h : AsksClaimed (fun _ => True) p) :
    AsksClaimed (fun _ => True) (p >>= fun a => (pure (f a) : Resident β)) :=
  asks_bind h (fun _ _ => asks_pure trivial)

theorem asksClaimed_note (dispatch : Option DispatchContext) (identity : Event) (type : String)
    (payload : Dict) : AsksClaimed (fun _ => True) (schedulerNote dispatch identity type payload) := by
  have huuid : AsksClaimed (fun _ => True) (uuid : Resident String) :=
    asks_call trivial (fun _ _ => trivial)
  exact asks_bind huuid (fun _ _ => asksClaimed_append _ _)

/-! The facts about claims and dispatches. -/

theorem asksClaimed_recordClaimState (r : Reservation) (type state : String) :
    AsksClaimed (fun _ => True) (recordClaimState r type state) :=
  asksClaimed_then (asksClaimed_append _ _)

theorem asksClaimed_recordFinish (r : Reservation) (finished : Bool) (state lostReason : String) :
    AsksClaimed (fun _ => True) (recordFinish r finished state lostReason) := by
  unfold recordFinish
  split
  · exact asksClaimed_recordClaimState r _ state
  · exact asksClaimed_then (asksClaimed_append _ _)

theorem asksClaimed_recordDispatch (cfg : SchedulerConfig) (i maxConcurrency : ℕ) (r : Reservation) :
    AsksClaimed (fun _ => True) (recordDispatch cfg i maxConcurrency r) := by
  refine asks_bind (asksClaimed_readAll none) (fun log _ => ?_)
  refine asks_bind (asksClaimed_memory i .inFlight) (fun inFlight _ => ?_)
  refine asks_bind (asksClaimed_recordClaimState r _ _) (fun _ _ => ?_)
  exact asksClaimed_then (asksClaimed_append _ _)

theorem asksClaimed_cancellationOf (i : ℕ) (r : Reservation) :
    AsksClaimed (fun _ => True) (cancellationOf i r) :=
  asksClaimed_then (asksClaimed_memory i .inFlight)

theorem asksClaimed_handleDelivery (cfg : SchedulerConfig) (i maxConcurrency workerActive : ℕ)
    (r : Reservation) :
    AsksClaimed (fun _ => True) (handleDelivery cfg i maxConcurrency workerActive r) := by
  refine asks_bind (asksClaimed_note _ _ _ _) (fun _ _ => ?_)
  refine asks_bind (asksClaimed_cancellationOf i r) (fun before _ => ?_)
  cases before with
  | some reason => exact asks_pure trivial
  | none =>
      have houtcome : AsksClaimed (fun _ => True)
          (lift (@outside residentInterface .outcome) : Resident HandlerEnd) :=
        ⟨trivial, fun _ _ _ _ => trivial⟩
      refine ⟨trivial, fun _ _ => asks_bind houtcome (fun ended _ => ?_)⟩
      cases ended with
      | returned =>
          refine asks_bind (asksClaimed_cancellationOf i r) (fun after _ => ?_)
          cases after <;> exact asks_pure trivial
      | _ => exact asks_pure trivial

theorem asksClaimed_deadLetterLease (dispatch : Option DispatchContext) (d : Delivery)
    (deadLetter : Event) (rootTaskId : String) (lease : Dict) :
    AsksClaimed (fun _ => True) (deadLetterLease dispatch d deadLetter rootTaskId lease) := by
  refine asks_bind asks_required (fun assignmentId _ => ?_)
  have hproject : AsksClaimed (fun _ => True)
      (projection "assignment" assignmentId.pyStr : Resident (Option Dict)) :=
    asks_call trivial (fun _ _ => trivial)
  refine asks_bind hproject (fun assignment _ => ?_)
  have hassignment : AsksClaimed (fun _ => True) (deadLetterAssignment dispatch d deadLetter rootTaskId
      assignmentId.pyStr lease assignment) := by
    unfold deadLetterAssignment
    split
    · exact asksClaimed_then (asksClaimed_append _ _)
    · exact asks_pure trivial
  exact asks_bind hassignment (fun _ _ => asksClaimed_then (asksClaimed_append _ _))

theorem asksClaimed_failRunningRun (dispatch : Option DispatchContext) (d : Delivery)
    (deadLetter : Event) :
    AsksClaimed (fun _ => True) (failRunningRunForDeadLetter dispatch d deadLetter) := by
  have hproject : AsksClaimed (fun _ => True)
      (projection "run" d.event.runId : Resident (Option Dict)) :=
    asks_call trivial (fun _ _ => trivial)
  refine asks_bind hproject (fun run _ => ?_)
  split
  · have hsnapshot : AsksClaimed (fun _ => True)
        (snapshot (some d.event.runId) : Resident (String → List Dict)) :=
      asks_call trivial (fun _ _ => trivial)
    refine asks_bind hsnapshot (fun projections _ => ?_)
    refine asks_bind (asks_each (asksClaimed_deadLetterLease _ _ _ _) _) (fun _ _ => ?_)
    exact asksClaimed_then (asksClaimed_append _ _)
  · exact asks_pure trivial

theorem asksClaimed_unexpectedFailure (dispatch : DispatchContext) (r : Reservation)
    (reason : String) :
    AsksClaimed (fun _ => True) (handleUnexpectedFailure dispatch r reason) := by
  refine asks_bind (asksClaimed_readAll none) (fun log _ => ?_)
  refine asks_bind (asksClaimed_append _ _) (fun crashed _ => ?_)
  split
  · exact asks_pure trivial
  · refine asks_bind (asksClaimed_append _ _) (fun deadLetter _ => ?_)
    refine asks_bind (asksClaimed_append _ _) (fun _ _ => ?_)
    exact asksClaimed_then (asksClaimed_failRunningRun _ _ _)

theorem asksClaimed_unlessLost {p : Resident α} {lost : α} (h : AsksClaimed (fun _ => True) p) :
    AsksClaimed (fun _ => True) (unlessLost p lost) := by
  refine asks_handle h ?_
  intro e
  split
  · exact asks_pure trivial
  · exact asks_throw _

/-! Reserving. -/

theorem asksClaimed_firstSome {post : β → Prop} {body : α → Resident (Option β)}
    (hbody : ∀ x, AsksClaimed (fun found => ∀ y ∈ found, post y) (body x)) (xs : List α) :
    AsksClaimed (fun found => ∀ y ∈ found, post y) (firstSome body xs) := by
  have hnone : AsksClaimed (fun found => ∀ y ∈ found, post y) (pure none : Resident (Option β)) :=
    asks_pure (fun y hy => absurd hy (Option.not_mem_none y))
  induction xs with
  | nil => exact hnone
  | cons x xs ih =>
      refine asks_bind (hbody x) (fun found hfound => ?_)
      cases found with
      | none => exact ih
      | some y => exact asks_pure hfound

theorem asksClaimed_reserveDelivery (cfg : SchedulerConfig) (i next : ℕ)
    (allowedRunIds : Option (List String)) (workerId : String) (maxConcurrency : ℕ) (d : Delivery) :
    AsksClaimed (fun found => ∀ r ∈ found, r.Claimed)
      (reserveDelivery cfg i next allowedRunIds workerId maxConcurrency d) := by
  have hnone : AsksClaimed (fun found => ∀ r ∈ found, r.Claimed)
      (pure none : Resident (Option Reservation)) :=
    asks_pure (fun r hr => absurd hr (Option.not_mem_none r))
  have hslot : ∀ slot, AsksClaimed
      (fun claims => ∀ c ∈ claims, deliveryKey workerId d.deliveryId ∈ c.map Prod.fst)
      (claimSlot cfg workerId d slot) := by
    intro slot
    have hnow : AsksClaimed (fun _ => True) (now : Resident DateTime) :=
      asks_call trivial (fun _ _ => trivial)
    refine asks_bind hnow (fun claimedAt _ => asks_raising ⟨trivial, fun r hr => ?_⟩)
    rintro result rfl c hc
    exact hr c (congrArg Except.ok hc) _ List.mem_cons_self
  unfold reserveDelivery
  split
  · exact hnone
  · refine asks_bind (asksClaimed_memory i .cancelledRuns) (fun cancelledRuns _ => ?_)
    split
    · exact hnone
    · refine asks_bind (asksClaimed_memory i .inFlight) (fun inFlight _ => ?_)
      split
      · exact hnone
      · refine asks_bind (asksClaimed_firstSome hslot _) (fun claims hclaims => ?_)
        cases claims with
        | none => exact hnone
        | some c =>
            refine asks_bind (asksClaimed_memory i _) (fun _ _ => ?_)
            refine asks_bind (asksClaimed_memory i _) (fun _ _ => asks_pure ?_)
            intro r hr
            obtain rfl := Option.some.inj hr
            exact hclaims c rfl

theorem asksClaimed_reserveNext (cfg : SchedulerConfig) (i : ℕ)
    (allowedRunIds : Option (List String)) :
    AsksClaimed (fun found => ∀ r ∈ found, r.Claimed) (reserveNext cfg i allowedRunIds) := by
  have hnone : AsksClaimed (fun found => ∀ r ∈ found, r.Claimed)
      (pure none : Resident (Option Reservation)) :=
    asks_pure (fun r hr => absurd hr (Option.not_mem_none r))
  refine asks_bind (asksClaimed_memory i .accepting) (fun accepting _ => ?_)
  refine asks_bind (asksClaimed_memory i .inFlight) (fun inFlight _ => ?_)
  dsimp only
  split
  · exact hnone
  · refine asks_bind (asksClaimed_memory i .selectionCursor) (fun cursor _ => ?_)
    refine asksClaimed_firstSome ?_ _
    rintro ⟨next, workerId, maxConcurrency⟩
    refine asks_bind (asksClaimed_then (asksClaimed_memory i .inFlight)) (fun active _ => ?_)
    split
    · exact hnone
    · have hpending : AsksClaimed (fun _ => True) (DurableMailbox.pending workerId) :=
        asks_bind (asksClaimed_readAll none) (fun log _ => fun _ _ => trivial)
      refine asks_bind hpending (fun pending _ => ?_)
      exact asksClaimed_firstSome (asksClaimed_reserveDelivery cfg i next allowedRunIds workerId
        maxConcurrency) pending

/-! The ends of a dispatch. -/

/-- `ack_event` names the delivery that was asked for. -/
theorem asksClaimed_ackEventOf (mailboxId deliveryId : String) :
    AsksClaimed (fun fact => ∀ t, ackedKey (fact t) = deliveryKey mailboxId deliveryId)
      (DurableMailbox.ackEventOf mailboxId deliveryId : Resident (DateTime → Event)) := by
  have hread : AsksClaimed (fun found => ∀ d ∈ found, d.deliveryId = deliveryId)
      (DurableMailbox.ofLog (deliveryIn mailboxId deliveryId)) := by
    refine asks_bind (asksClaimed_readAll none) (fun log _ => ?_)
    intro found hfound d hd
    unfold deliveryIn at hfound
    split at hfound
    next =>
      obtain rfl := Except.ok.inj hfound
      cases hd
    next e _ =>
      obtain ⟨event, -, hfound⟩ := bind_ok_iff.mp hfound
      obtain rfl := Except.ok.inj hfound
      obtain rfl := Option.some.inj hd
      rfl
  refine asks_bind hread (fun found hfound => ?_)
  cases found with
  | none => exact asks_throw _
  | some d =>
      refine asks_pure (fun t => ?_)
      rw [ackedKey_ackEvent, hfound d rfl]

theorem asksClaimed_finishWithAck (cfg : SchedulerConfig) {r : Reservation} (h : r.Claimed)
    (allowCancelledRun : Bool) :
    AsksClaimed (fun _ => True) (finishClaimsWithAck cfg r allowCancelledRun) := by
  refine asks_bind (asksClaimed_ackEventOf _ _) (fun ack hack => ?_)
  have hnow : AsksClaimed (fun _ => True) (now : Resident DateTime) :=
    asks_call trivial (fun _ _ => trivial)
  refine asks_bind hnow (fun createdAt _ => ?_)
  have hfinish : AsksClaimed (fun _ => True) (raising (call (.finishWorkClaims r.claims cfg.ownerId
      .completed (some (ack createdAt)) allowCancelledRun)) : Resident Bool) := by
    refine asks_raising ⟨?_, fun _ _ _ _ => trivial⟩
    intro e he _
    obtain rfl := Option.some.inj he
    rw [hack]
    exact h
  refine asks_bind hfinish (fun finished _ => ?_)
  exact asksClaimed_then (asksClaimed_recordFinish _ _ _ _)

/-- A program of the parts of a dispatch. -/
abbrev AsksEnding (p : Program (withStore residentInterface) Ending) : Prop :=
  Program.Asks RepliesKeys AcksClaimed (fun _ => True) p

theorem asksEnding_settle {finish : Resident Bool} {rest : Bool → Resident Unit}
    (h : AsksClaimed (fun _ => True) finish)
    (hrest : ∀ finished, AsksClaimed (fun _ => True) (rest finished)) :
    AsksEnding (settle finish rest) := by
  refine Program.asks_bind h (fun r _ => ?_)
  cases r with
  | error e => trivial
  | ok finished => exact Program.asks_bind (hrest finished) (fun _ _ => trivial)

theorem asksClaimed_recordCompletion (i : ℕ) (r : Reservation) (finished : Bool) :
    AsksClaimed (fun _ => True) (recordCompletion i r finished) := by
  unfold recordCompletion
  split
  · refine asks_bind (asksClaimed_then (asksClaimed_memory i .inFlight)) (fun active _ => ?_)
    refine asks_bind (asksClaimed_note _ _ _ _) (fun _ _ => ?_)
    split
    · exact asksClaimed_then (asksClaimed_note _ _ _ _)
    · exact asks_pure trivial
  · exact asks_pure trivial

theorem asksClaimed_recordCancellation (r : Reservation) (reason : String) (finished : Bool) :
    AsksClaimed (fun _ => True) (recordCancellation r reason finished) := by
  unfold recordCancellation
  split
  · exact asksClaimed_then (asksClaimed_append _ _)
  · exact asks_pure trivial

theorem asksEnding_endDispatch (cfg : SchedulerConfig) (i : ℕ) {r : Reservation} (h : r.Claimed)
    (ended : HandlerEnd) : AsksEnding (endDispatch cfg i r ended) := by
  cases ended with
  | returned =>
      exact asksEnding_settle (asksClaimed_finishWithAck cfg h false)
        (asksClaimed_recordCompletion i r)
  | cancelled reason =>
      show AsksEnding (ite _ _ _)
      split
      · trivial
      · exact asksEnding_settle (asksClaimed_finishWithAck cfg h true)
          (asksClaimed_recordCancellation r reason)
  | claimLost => trivial
  | crashed reason =>
      exact Program.asks_bind
        (asksClaimed_unlessLost (asksClaimed_then (asksClaimed_note _ _ _ _)))
        (fun _ _ => trivial)
  | raised reason =>
      refine Program.asks_bind (asksClaimed_unlessLost (asksClaimed_unexpectedFailure _ r reason))
        (fun shouldAck _ => ?_)
      cases shouldAck with
      | error e => trivial
      | ok shouldAck =>
          cases shouldAck with
          | true =>
              exact asksEnding_settle (asksClaimed_finishWithAck cfg h false)
                (fun _ => asks_pure trivial)
          | false => trivial

theorem asksEnding_dispatchBody (cfg : SchedulerConfig) (i maxConcurrency : ℕ) {r : Reservation}
    (h : r.Claimed) : AsksEnding (dispatchBody cfg i maxConcurrency r) := by
  have hread : AsksClaimed (fun _ => True) (show Resident (ℕ × Option Event) from do
      let workerActive ← recordDispatch cfg i maxConcurrency r
      let log ← readAll none
      return (workerActive, deadLetterOf log r.delivery.deliveryId)) :=
    asks_bind (asksClaimed_recordDispatch cfg i maxConcurrency r) (fun _ _ =>
      asks_bind (asksClaimed_readAll none) (fun _ _ => asks_pure trivial))
  refine Program.asks_bind hread (fun out _ => ?_)
  cases out with
  | error e => trivial
  | ok out =>
      obtain ⟨workerActive, deadLetter⟩ := out
      cases deadLetter with
      | some deadLetter =>
          exact asksEnding_settle (asks_bind (asksClaimed_failRunningRun none _ deadLetter)
            (fun _ _ => asksClaimed_finishWithAck cfg h false)) (fun _ => asks_pure trivial)
      | none =>
          refine Program.asks_bind (asksClaimed_handleDelivery cfg i maxConcurrency workerActive r)
            (fun ended _ => ?_)
          cases ended with
          | error e => trivial
          | ok ended => exact asksEnding_endDispatch cfg i h ended

theorem asksClaimed_executeReserved (cfg : SchedulerConfig) (i maxConcurrency : ℕ) {r : Reservation}
    (h : r.Claimed) : AsksClaimed (fun _ => True) (executeReserved cfg i maxConcurrency r) := by
  refine Program.asks_bind (asksEnding_dispatchBody cfg i maxConcurrency h) ?_
  rintro ⟨finished, out⟩ -
  have hrelease : AsksClaimed (fun _ => True) (releaseUnfinished cfg r finished) := by
    unfold releaseUnfinished
    split
    · exact asks_pure trivial
    · have hfinish : AsksClaimed (fun _ => True) (raising (call (.finishWorkClaims r.claims
          cfg.ownerId .released none false)) : Resident Bool) :=
        asks_raising ⟨fun e he => absurd he (Option.not_mem_none e), fun _ _ _ _ => trivial⟩
      refine asks_bind hfinish (fun released _ => asksClaimed_recordFinish _ _ _ _)
  refine Program.asks_bind hrelease (fun released _ => ?_)
  refine Program.asks_bind (asksClaimed_memory i _) (fun _ _ => ?_)
  intro _ _
  trivial

/-- A scheduler acks a delivery only with the claim that it has taken for it. -/
theorem asksClaimed_runOnce (cfg : SchedulerConfig) (i : ℕ) (allowedRunIds : Option (List String)) :
    AsksClaimed (fun _ => True) (ResidentScheduler.runOnce cfg i allowedRunIds) := by
  refine asks_bind (asksClaimed_reserveNext cfg i allowedRunIds) (fun selected hselected => ?_)
  cases selected with
  | none => exact asks_pure trivial
  | some r =>
      exact asksClaimed_then (asksClaimed_executeReserved cfg i _ (hselected r rfl))

end asks

/-- **An acked delivery is not handled again**, where claims are taken of deliveries that have not
been acked, and handlers start while their claims are held. -/
theorem acked_not_handled {P : Pool (withStore residentInterface) Unit ResidentWorld}
    (h : Pool.Reachable heldRules emptyWorld P) :
    ∀ x ∈ P.state.handlings, ¬ Acked x.log x.reservation.workerId x.reservation.delivery := by
  suffices hinv : AckFenced P.state.store.db ∧
      ∀ x ∈ P.state.handlings, ¬ Acked x.log x.reservation.workerId x.reservation.delivery from hinv.2
  refine @Pool.invariant_of_asks _ _ _ heldRules RepliesKeys AcksClaimed (fun w =>
    AckFenced w.store.db ∧
      ∀ x ∈ w.handlings, ¬ Acked x.log x.reservation.workerId x.reservation.delivery) _ _
    (fun _ _ _ _ _ hs => repliesKeys_of_step hs.1) ?_ ?_ ?_
    ⟨fun e he => absurd he List.not_mem_nil, fun x hx => absurd hx List.not_mem_nil⟩
    (fun p hp => absurd hp List.not_mem_nil) h
  · rintro w op r w' ⟨hfenced, hnot⟩ hask ⟨hstep, hheld⟩
    cases op with
    | inl op =>
        obtain ⟨s, hs, rfl⟩ := hstep
        have hkeep : KeepsFence w.store.db op := by
          cases op with
          | claimWork keys ownerId ttlSeconds now runId => exact hheld
          | finishWorkClaims claims ownerId state finalEvent allowCancelledRun => exact hask
          | _ => trivial
        exact ⟨hfenced.storeStep hkeep hs, hnot⟩
    | inr op =>
        cases op with
        | memory i op =>
            obtain ⟨-, rfl⟩ := hstep
            exact ⟨hfenced, hnot⟩
        | outcome =>
            obtain rfl := hstep
            exact ⟨hfenced, hnot⟩
        | expire clock lease e =>
            obtain ⟨t, s, haware, hout, rfl⟩ := hstep
            refine ⟨?_, hnot⟩
            exact @AckFenced.storeStep w.store s (.append none e) r hfenced trivial
              ⟨none, t, DispatchContext.becomes_self none, haware, hout⟩
        | handle ownerId reservation =>
            obtain rfl := hstep
            refine ⟨hfenced, ?_⟩
            intro x hx
            rcases List.mem_cons.mp hx with rfl | hx
            · exact hfenced.not_acked hheld.1 hheld.2
            · exact hnot x hx
  · rintro w p w' hinv hstart
    cases hstart with
    | runOnce cfg i allowedRunIds => exact ⟨hinv, asks_thread (asksClaimed_runOnce cfg i allowedRunIds)⟩
  · rintro w w' ⟨hfenced, hnot⟩ henv
    obtain ⟨hfenced', hsame⟩ := hfenced.env henv
    exact ⟨hfenced', hsame ▸ hnot⟩

/-! ### Two schedulers -/

/-- The generalist gets a delivery. -/
def generalistDelivery : Delivery := ⟨"d1", generalistRun⟩

/-- A store in which it has been sent. -/
def deliveredStore : StoreWorld :=
  (storeStrategy twelve (.append none (sentEvent "generalist" generalistDelivery twelve))
    (storeStrategy twelve (.append none generalistRun) ⟨.initial, 0⟩).2).2

/-- A scheduler with the generalist. -/
def schedulerOf (ownerId : String) : SchedulerConfig where
  ownerId := ownerId
  workers := [("generalist", 1)]

/-- Two schedulers look for work. -/
def twoSchedulers : Pool (withStore residentInterface) Unit ResidentWorld :=
  ⟨{ store := deliveredStore },
    [(ResidentScheduler.runOnce (schedulerOf "scheduler-a") 0 none).thread,
      (ResidentScheduler.runOnce (schedulerOf "scheduler-b") 1 none).thread], []⟩

/-- The delivery is sent and the schedulers start, in any rules with these parts. -/
theorem twoSchedulers_reachable {R : PoolRules (withStore residentInterface) Unit ResidentWorld}
    (hstarts : R.starts = SchedulerStarts) (henv : R.env = AckEnv) :
    Pool.Reachable R emptyWorld twoSchedulers := by
  have hsent : ∀ (s : StoreWorld) (e : Event), Pool.Reachable R ⟨{ store := s }, [], []⟩
      ⟨{ store := (storeStrategy twelve (.append none e) s).2 }, [], []⟩ := by
    intro s e
    refine .single (.env ?_)
    rw [henv]
    exact .call _ (.append none e) _ _ trivial (storeStrategy_sound rfl (.append none e) s)
  have hstart : ∀ (w : ResidentWorld) threads cfg i, Pool.Reachable R ⟨w, threads, []⟩
      ⟨w, (ResidentScheduler.runOnce cfg i none).thread :: threads, []⟩ := by
    intro w threads cfg i
    refine .single (.start ?_)
    rw [hstarts]
    exact .runOnce w cfg i none
  exact (((hsent _ generalistRun).trans (hsent _ _)).trans
    (hstart _ _ (schedulerOf "scheduler-b") 1)).trans (hstart _ _ (schedulerOf "scheduler-a") 0)

/-- One scheduler at a time: the delivery is handled once. -/
theorem handled_once :
    let P := Pool.follow (R := heldRules) ((residentStrategy twelve rfl).restrict HoldsUnacked)
      twoSchedulers (List.replicate 40 1 ++ List.replicate 40 0)
    P.state.handlings.length = 1 ∧
      ∀ x ∈ P.state.handlings, ¬ Acked x.log x.reservation.workerId x.reservation.delivery := by
  refine ⟨?_, acked_not_handled ((twoSchedulers_reachable rfl rfl).trans
    (Pool.follow_reachable _ _ _))⟩
  set_option maxRecDepth 4000 in
  decide

/-- The first scheduler has read the delivery as pending when the second one takes it. -/
theorem handled_after_ack :
    ∃ P, Pool.Reachable schedulerRules emptyWorld P ∧
      ∃ x ∈ P.state.handlings, Acked x.log x.reservation.workerId x.reservation.delivery := by
  refine ⟨_, (twoSchedulers_reachable rfl rfl).trans (Pool.follow_reachable (R := schedulerRules)
    (residentStrategy twelve rfl) _ (List.replicate 5 0 ++ List.replicate 40 1 ++
      List.replicate 20 0)), ?_⟩
  set_option maxRecDepth 4000 in
  decide

end CrazyHarness
