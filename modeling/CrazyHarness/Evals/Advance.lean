import CrazyHarness.Lib.Traced
import CrazyHarness.Evals.CampaignBudget
import CrazyHarness.Evals.Reports

/-! # The advance of campaigns whose callbacks raise

The callbacks of `advance_ready` as steps that may reply or raise anything, as long as they leave the
events of the campaigns alone.  The world keeps which of them have raised.

* `ends_advanceOne`: what `advance_one` makes of a callback that raises.
* `Pass`: the calls of `advance_one` that a call of `advance_ready` makes.
* `advanceReady_isolates_iff`: which exceptions cost no other campaign its call, and leave the events of the one
  that failed as they were. -/

namespace CrazyHarness

open Lib RuntimeM

/-- The callbacks of `advance_ready`. -/
inductive CampaignOp where
  | createPair (request : PairedEvalRequest)
  | pairContract (evalId : String)
  | releasePair (evalId : String)
  | pairReport (evalId : String)

/-- What each replies, or raises. -/
def campaignInterface : Interface where
  Op := CampaignOp
  Reply
    | .createPair _ => Except RuntimeError PairedEvalCreated
    | .pairContract _ => Except RuntimeError PairedEvalContract
    | .releasePair _ => Except RuntimeError Unit
    | .pairReport _ => Except RuntimeError PairedEvalReport

/-- The callbacks, each one step. -/
def campaignOps : CampaignCallbacks campaignInterface where
  createPair request := @outside campaignInterface (.createPair request)
  pairContract evalId := @outside campaignInterface (.pairContract evalId)
  releasePair evalId := @outside campaignInterface (.releasePair evalId)
  pairReport evalId := @outside campaignInterface (.pairReport evalId)

/-- The exception of a result. -/
def errorOf {α : Type} : Except RuntimeError α → Option RuntimeError
  | .ok _ => none
  | .error e => some e

/-- What a callback raised. -/
def CampaignOp.raisedBy : (op : CampaignOp) → campaignInterface.Reply op → Option RuntimeError
  | .createPair _, r => @errorOf PairedEvalCreated r
  | .pairContract _, r => @errorOf PairedEvalContract r
  | .releasePair _, r => @errorOf Unit r
  | .pairReport _, r => @errorOf PairedEvalReport r

/-- The stage of a creation in which a callback is called. -/
def CampaignOp.stage : CampaignOp → Option String
  | .createPair _ => some "create_pair"
  | .pairContract _ => some "validate_pair_identity"
  | .releasePair _ | .pairReport _ => none

/-- The store, and the callbacks that have raised. -/
@[ext]
structure CampaignWorld where
  store : StoreWorld
  raised : List (CampaignOp × RuntimeError) := []

namespace CampaignWorld

/-- The stored events of a campaign. -/
def log (w : CampaignWorld) (campaignId : String) : List Event := w.store.db.readRun campaignId

/-- A campaign has been created. -/
def IsCampaign (w : CampaignWorld) (campaignId : String) : Prop :=
  ∃ e ∈ w.log campaignId, e.type = "eval.campaign.created"

/-- It has not come to its end. -/
def IsOpen (w : CampaignWorld) (campaignId : String) : Prop :=
  ∀ e ∈ w.log campaignId, ¬ EvalCampaignService.IsCampaignTerminal e

instance (w : CampaignWorld) (campaignId : String) : Decidable (w.IsOpen campaignId) :=
  inferInstanceAs (Decidable (∀ e ∈ w.log campaignId, _))

/-- It has been created, and has not come to its end. -/
def Running (w : CampaignWorld) (campaignId : String) : Prop :=
  w.IsCampaign campaignId ∧ w.IsOpen campaignId

instance (w : CampaignWorld) (campaignId : String) : Decidable (w.Running campaignId) :=
  inferInstanceAs (Decidable ((∃ e ∈ w.log campaignId, _) ∧ _))

end CampaignWorld

/-- What each step replies and does; a callback leaves the events of campaigns alone. -/
def campaignStep (w : CampaignWorld) :
    (op : (withStore campaignInterface).Op) → (withStore campaignInterface).Reply op →
      CampaignWorld → Prop
  | .inl op, r, w' => storeStep w.store op r w'.store ∧ w'.raised = w.raised
  | .inr op, r, w' => (∀ id, w.IsCampaign id → w'.log id = w.log id) ∧
      w'.raised = w.raised ++ ((CampaignOp.raisedBy op r).map (@Prod.mk CampaignOp _ op)).toList

namespace EvalCampaignService

/-- A step raises this, unless the store raises. -/
def StopsWith {α : Type} (exc : RuntimeError) (r : Except RuntimeError α) : Prop :=
  r = .error exc ∨ ∃ e, r = .error (.store e)

/-- What is raised when the claim of an advance is lost while a creation fails. -/
def lostClaim : RuntimeError :=
  .runtimeError "campaign advance claim was lost before creation failure"

/-- `contract`, of the events of the campaign. -/
def contractIn (S : EvalCampaignService) (log : List Event) (campaignId : String) :
    Except RuntimeError EvalCampaignContract :=
  match log.filter (fun e => e.type = "eval.campaign.created") with
  | [e] => (eventItem e "contract").bind (EvalCampaignContract.validate S.codec)
  | _ => .error (.keyError ("campaign has no unique contract: " ++ campaignId))

/-- `report`, of the events of the campaign. -/
def reportIn (S : EvalCampaignService) (V : ReportModels) (log : List Event) (campaignId : String) :
    Except RuntimeError EvalCampaignReport :=
  match log.filter IsCampaignTerminal with
  | [] => (S.contractIn log campaignId).bind (fun c => S.runningReport V campaignId c log)
  | [e] => terminalReport V campaignId e
  | _ => .error (.runtimeError ("campaign has multiple terminal reports: " ++ campaignId))

/-- The fact that a creation has failed, which the events of the campaign determine up to its time. -/
def IsFailure (S : EvalCampaignService) (log : List Event) (campaignId stage : String) (exc : RuntimeError)
    (e : Event) : Prop :=
  ∃ c facts trial t, S.contractIn log campaignId = .ok c ∧ factsOf log = .ok facts ∧
    c.trials.find? (fun trial =>
      About facts.started trial ∧ ¬ About facts.linked trial ∧ ¬ About facts.failed trial) = some trial ∧
    e = creationFailure campaignId facts trial stage exc t

/-- The failure of a stage stands in the log, and nothing else has been written. -/
def Recorded (S : EvalCampaignService) (campaignId stage : String) (exc : RuntimeError)
    (before after : CampaignWorld) : Prop :=
  ∃ e, S.IsFailure (before.log campaignId) campaignId stage exc e ∧
    (∃ f ∈ after.log campaignId, f.SameFact e) ∧
    (after.log campaignId = before.log campaignId ∨ after.log campaignId = before.log campaignId ++ [e])

/-- What one callback that raises leads to.  A release or a report ends the step, and the events of
the campaign are as they were; a failed creation is recorded and the step returns `a`, unless the
claim has been lost. -/
def Isolated (S : EvalCampaignService) {α : Type} (campaignId : String) (before : CampaignWorld) (a : α)
    (r : Except RuntimeError α) (after : CampaignWorld) : Prop :=
  after.raised = before.raised ∨
    ∃ op exc, after.raised = before.raised ++ [(op, exc)] ∧
      match op.stage with
      | none => StopsWith exc r ∧ after.log campaignId = before.log campaignId
      | some stage => r = .ok a ∧ S.Recorded campaignId stage exc before after ∨
          StopsWith lostClaim r ∧ after.log campaignId = before.log campaignId

/-! ### Steps -/

/-- A run from a world of `pre` ends with a result and a world of `post`. -/
abbrev Ends {α : Type} (pre : CampaignWorld → Prop) (p : RuntimeM campaignInterface α)
    (post : Except RuntimeError α → CampaignWorld → Prop) : Prop :=
  Program.Stays campaignStep (fun _ => True) pre p post

/-- Nothing has been raised, and the events of the campaign are as they were. -/
def Same (campaignId : String) (before w : CampaignWorld) : Prop :=
  w.log campaignId = before.log campaignId ∧ w.raised = before.raised

/-- Nothing has been raised. -/
def Calm (before w : CampaignWorld) : Prop := w.raised = before.raised

/-- A call of the store. -/
def OnStore : (withStore campaignInterface).Op → Prop
  | .inl _ => True
  | .inr _ => False

/-- A call of the store that writes no event. -/
def NoEvent : (withStore campaignInterface).Op → Prop
  | .inl op => op.event = none
  | .inr _ => False

variable {S : EvalCampaignService} {campaignId : String} {before w w' : CampaignWorld} {α β : Type}

theorem log_of_wrote {es : List Event} (h : w.store.db.Wrote es w'.store.db) :
    w'.log campaignId = w.log campaignId ++ es.filter (·.runId = campaignId) := by
  unfold CampaignWorld.log Database.readRun
  rw [h.rows, List.filter_append]

theorem same_step {op : (withStore campaignInterface).Op} {r : (withStore campaignInterface).Reply op}
    (hop : NoEvent op) (h : campaignStep w op r w') : Same campaignId w w' := by
  cases op with
  | inl op =>
      obtain ⟨-, es, hes, hwrote⟩ := storeStep_wrote h.1
      rw [show op.event = none from hop] at hes
      obtain rfl := List.eq_nil_of_subset_nil hes
      refine ⟨?_, h.2⟩
      rw [log_of_wrote hwrote, List.filter_nil, List.append_nil]
  | inr op => exact hop.elim

theorem calm_step {op : (withStore campaignInterface).Op} {r : (withStore campaignInterface).Reply op}
    (hop : OnStore op) (h : campaignStep w op r w') : Calm w w' := by
  cases op with
  | inl op => exact h.2
  | inr op => exact hop.elim

theorem Same.trans (h : Same campaignId before w) (h' : Same campaignId w w') :
    Same campaignId before w' := ⟨h'.1.trans h.1, h'.2.trans h.2⟩

/-- Code that writes no event. -/
theorem same_of_asks {p : RuntimeM campaignInterface α} {post : α → Prop}
    (h : RuntimeM.Asks (fun _ _ => True) NoEvent post p) :
    Ends (Same campaignId before) p (fun r w => (∀ a, r = .ok a → post a) ∧ Same campaignId before w) :=
  Program.stays_of_asks h (fun _ _ => trivial) (fun _ _ _ _ hs hop hstep =>
    ⟨trivial, hs.trans (same_step hop hstep)⟩)

/-- Code that calls nothing but the store. -/
theorem calm_of_asks {p : RuntimeM campaignInterface α} {post : α → Prop}
    (h : RuntimeM.Asks (fun _ _ => True) OnStore post p) :
    Ends (Calm before) p (fun r w => (∀ a, r = .ok a → post a) ∧ Calm before w) :=
  Program.stays_of_asks h (fun _ _ => trivial) (fun _ _ _ _ hs hop hstep =>
    ⟨trivial, (calm_step hop hstep).trans hs⟩)

/-- A callback has raised, or nothing has. -/
def Raises (campaignId : String) (before : CampaignWorld) (op : CampaignOp) (r : Except RuntimeError α)
    (w : CampaignWorld) : Prop :=
  match r with
  | .ok _ => Same campaignId before w
  | .error exc => w.raised = before.raised ++ [(op, exc)] ∧ w.log campaignId = before.log campaignId

theorem ends_outside (hcampaign : before.IsCampaign campaignId) (op : CampaignOp)
    (f : campaignInterface.Reply op → Except RuntimeError α) (hf : ∀ r, op.raisedBy r = errorOf (f r)) :
    Ends (Same campaignId before) (@outside campaignInterface op >>= fun r => Program.done (f r))
      (Raises campaignId before op) := by
  refine Program.stays_request (fun _ _ => trivial) fun r => Program.stays_done ?_
  rintro w ⟨w₁, ⟨hlog, hraised⟩, hkeeps, hstep⟩
  have hstill : w.log campaignId = before.log campaignId := by
    rw [← hlog]
    refine hkeeps campaignId ?_
    unfold CampaignWorld.IsCampaign
    rw [hlog]
    exact hcampaign
  rw [hraised, show CampaignOp.raisedBy op r = errorOf (f r) from hf r] at hstep
  cases hr : f r with
  | ok a =>
      rw [hr] at hstep
      exact ⟨hstill, hstep.trans (List.append_nil _)⟩
  | error exc =>
      rw [hr] at hstep
      exact ⟨hstep, hstill⟩

section callbacks

variable (hcampaign : before.IsCampaign campaignId)
include hcampaign

theorem ends_createPair (request : PairedEvalRequest) :
    Ends (Same campaignId before) (campaignOps.createPair request)
      (Raises campaignId before (.createPair request)) :=
  ends_outside hcampaign (.createPair request) id (fun _ => rfl)

theorem ends_pairContract (evalId : String) :
    Ends (Same campaignId before) (campaignOps.pairContract evalId)
      (Raises campaignId before (.pairContract evalId)) :=
  ends_outside hcampaign (.pairContract evalId) id (fun _ => rfl)

theorem ends_releasePair (evalId : String) :
    Ends (Same campaignId before) (campaignOps.releasePair evalId)
      (Raises campaignId before (.releasePair evalId)) :=
  ends_outside hcampaign (.releasePair evalId) id (fun _ => rfl)

theorem ends_pairReport (evalId : String) :
    Ends (Same campaignId before) (campaignOps.pairReport evalId)
      (Raises campaignId before (.pairReport evalId)) :=
  ends_outside hcampaign (.pairReport evalId) id (fun _ => rfl)

end callbacks

/-! ### The claim of an advance -/

/-- Claims that are finished with a last event leave it in the log. -/
theorem finishWorkClaims_final {db db' : Database} {claims : Claims} {ownerId : String}
    {state : WorkClaimState} {now : DateTime} {e : Event} {allowCancelledRun finished : Bool}
    (h : db.finishWorkClaims claims ownerId state now (some e) allowCancelledRun = .ok (finished, db')) :
    finished = false ∧ db' = db ∨ finished = true ∧ ∃ es, es.Sublist [e] ∧ db.Wrote es db' ∧
      ∃ f ∈ db'.events.rows, f.SameFact e := by
  unfold Database.finishWorkClaims at h
  obtain ⟨_, _, h⟩ := bind_ok_iff.mp h
  obtain ⟨_, _, h⟩ := bind_ok_iff.mp h
  obtain ⟨_, _, h⟩ := bind_ok_iff.mp h
  split at h
  · obtain ⟨rfl, rfl⟩ := Prod.mk.inj (Except.ok.inj h)
    exact .inl ⟨rfl, rfl⟩
  split at h
  · obtain ⟨db₁, hfinal, h⟩ := bind_ok_iff.mp h
    obtain ⟨rfl, rfl⟩ := Prod.mk.inj (Except.ok.inj h)
    obtain ⟨⟨r, db₂⟩, happend, hfinal⟩ := bind_ok_iff.mp hfinal
    obtain rfl := Except.ok.inj hfinal
    obtain ⟨es, hes, hwrote, f, hf, hsame⟩ := Database.appendInTransaction_wrote happend
    have hclaims := @Database.updateClaims_sameLog db₂ ownerId (·.ended now state)
      (fun r => r.ended_claimKey now state) claims
    refine .inr ⟨rfl, es, hes, .elsewhere hwrote hclaims, f, ?_, hsame⟩
    rwa [hclaims.events]
  · obtain ⟨rfl, rfl⟩ := Prod.mk.inj (Except.ok.inj h)
    exact .inl ⟨rfl, rfl⟩

/-- What finishing a claim with the event leaves in the log. -/
def Finishes (before w : CampaignWorld) (campaignId : String) (e : Event) : Except RuntimeError Bool → Prop
  | .ok true => (∃ f ∈ w.log campaignId, f.SameFact e) ∧
      (w.log campaignId = before.log campaignId ∨ w.log campaignId = before.log campaignId ++ [e])
  | .ok false => w.log campaignId = before.log campaignId
  | .error exc => w.log campaignId = before.log campaignId ∧ ∃ e, exc = .store e

/-- A claim is closed with a last event of the campaign, or the step raises and nothing is written. -/
theorem ends_closeClaim {claims : Claims} {ownerId lost : String} {state : WorkClaimState}
    {e : DateTime → Event} (he : ∀ t, (e t).runId = campaignId) :
    Ends (Same campaignId before) (closeClaim claims ownerId state (some e) lost) (fun r w =>
      w.raised = before.raised ∧
        match r with
        | .ok _ => ∃ t, (∃ f ∈ w.log campaignId, f.SameFact (e t)) ∧
            (w.log campaignId = before.log campaignId ∨
              w.log campaignId = before.log campaignId ++ [e t])
        | .error exc => w.log campaignId = before.log campaignId ∧
            (exc = .runtimeError lost ∨ ∃ e, exc = .store e)) := by
  have hnow : Ends (Same campaignId before) (now : RuntimeM campaignInterface DateTime)
      (fun r w => (∃ t, r = .ok t) ∧ Same campaignId before w) :=
    Program.stays_of_asks
      (show Program.Asks (fun _ _ => True) NoEvent _ _ from ⟨rfl, fun t _ => ⟨t, rfl⟩⟩)
      (fun _ _ => trivial) (fun _ _ _ _ hs hop hstep => ⟨trivial, hs.trans (same_step hop hstep)⟩)
  refine Program.stays_andThen hnow (fun t => ?_) (fun _ _ hs => by obtain ⟨⟨_, ht⟩, -⟩ := hs; cases ht)
  refine Program.stays_andThen
    (q := fun r w => w.raised = before.raised ∧ Finishes before w campaignId (e t) r) ?_ (fun closed => ?_)
    (fun _ _ hs => ⟨hs.1, hs.2.1, .inr hs.2.2⟩)
  · refine Program.stays_request (fun _ _ => trivial) fun r => ?_
    cases r with
    | error exc =>
        refine Program.stays_done ?_
        rintro w ⟨w₁, ⟨-, hlog, hraised⟩, ⟨now, -, hout⟩, hsame⟩
        rcases StoreWorld.returns_cases hout with ⟨_, -, -, hstore⟩ | ⟨_, _, -, hr, -⟩
        · refine ⟨hsame.trans hraised, ?_, exc, rfl⟩
          unfold CampaignWorld.log at hlog ⊢
          rw [hstore, hlog]
        · cases hr
    | ok closed =>
        refine Program.stays_done ?_
        rintro w ⟨w₁, ⟨-, hlog, hraised⟩, ⟨now, -, hout⟩, hsame⟩
        refine ⟨hsame.trans hraised, ?_⟩
        rcases StoreWorld.returns_cases hout with ⟨_, -, hr, -⟩ | ⟨finished, db, hfinish, hr, hstore⟩
        · cases hr
        obtain rfl := Except.ok.inj hr
        have hdb : w.store.db = db := congrArg StoreWorld.db hstore
        rcases finishWorkClaims_final hfinish with ⟨rfl, rfl⟩ | ⟨rfl, es, hes, hwrote, f, hf, hfact⟩
        · show w.log campaignId = before.log campaignId
          unfold CampaignWorld.log at hlog ⊢
          rw [hdb, hlog]
        · rw [← hdb] at hwrote hf
          refine ⟨⟨f, List.mem_filter.mpr ⟨hf, ?_⟩, hfact⟩, ?_⟩
          · have hrun := congrArg Event.runId hfact
            exact decide_eq_true (hrun.trans (he t))
          · rw [log_of_wrote hwrote, hlog]
            rcases List.sublist_singleton.mp hes with rfl | rfl
            · exact .inl (by rw [List.filter_nil, List.append_nil])
            · exact .inr (by rw [List.filter_singleton, he t]; simp)
  · cases closed with
    | true => exact Program.stays_done (fun w hs => ⟨hs.1, t, hs.2⟩)
    | false => exact Program.stays_done (fun w hs => ⟨hs.1, hs.2, .inl rfl⟩)

/-! ### Code that calls nothing but the store -/

/-- What is attempted does not raise. -/
theorem attempt_andThen {p : RuntimeM campaignInterface α}
    {f : Except RuntimeError α → RuntimeM campaignInterface β} {pre : CampaignWorld → Prop}
    {mid : Except RuntimeError α → CampaignWorld → Prop}
    {post : Except RuntimeError β → CampaignWorld → Prop} (h : Ends pre p mid)
    (hf : ∀ r, Ends (mid r) (f r) post) : Ends pre (attempt p >>= f) post := by
  show Ends pre (Program.bind (Program.bind p _) _) post
  rw [Program.bind_assoc]
  exact Program.stays_bind h hf

/-- It asks the store, and no callback. -/
abbrev StoreOnly {α : Type} (p : RuntimeM campaignInterface α) : Prop :=
  RuntimeM.Asks (fun _ _ => True) OnStore (fun _ => True) p

theorem storeOnly_pure {a : α} : StoreOnly (pure a : RuntimeM campaignInterface α) := asks_pure trivial

theorem storeOnly_throw {e : RuntimeError} : StoreOnly (throw e : RuntimeM campaignInterface α) :=
  asks_throw e

theorem storeOnly_ofResult (r : Except RuntimeError α) : StoreOnly (ofResult r) := fun _ _ => trivial

theorem storeOnly_bind {p : RuntimeM campaignInterface α} {f : α → RuntimeM campaignInterface β}
    (h : StoreOnly p) (hf : ∀ a, StoreOnly (f a)) : StoreOnly (p >>= f) :=
  asks_bind h (fun a _ => hf a)

theorem storeOnly_now : StoreOnly (now : RuntimeM campaignInterface DateTime) :=
  asks_call (show OnStore (.inl .now) from trivial) (fun _ _ => trivial)

theorem storeOnly_events (runId type : String) :
    StoreOnly (PairedEvalService.events runId type : RuntimeM campaignInterface (List Event)) :=
  storeOnly_bind (asks_call (show OnStore (.inl (.readAll runId)) from trivial) (fun _ _ => trivial))
    (fun _ => storeOnly_pure)

theorem storeOnly_append {dispatch : Option DispatchContext} {e : DateTime → Event} :
    StoreOnly (append dispatch e : RuntimeM campaignInterface Event) := asks_append trivial (fun _ => trivial)

theorem storeOnly_finishClaim {claims : Claims} {ownerId : String} {state : WorkClaimState}
    {finalEvent : Option Event} :
    StoreOnly (PairedEvalService.finishClaim claims ownerId state finalEvent :
      RuntimeM campaignInterface Bool) := asks_raising ⟨trivial, fun _ _ _ _ => trivial⟩

theorem storeOnly_closeClaim {claims : Claims} {ownerId lost : String} {state : WorkClaimState}
    {finalEvent : Option (DateTime → Event)} :
    StoreOnly (closeClaim claims ownerId state finalEvent lost : RuntimeM campaignInterface Unit) := by
  refine storeOnly_bind storeOnly_now (fun t => storeOnly_bind storeOnly_finishClaim (fun closed => ?_))
  split
  · exact storeOnly_pure
  · exact storeOnly_throw

theorem storeOnly_giveBack {claims : Claims} {ownerId : String} :
    StoreOnly (giveBack claims ownerId : RuntimeM campaignInterface (Bool × Bool)) :=
  storeOnly_bind storeOnly_finishClaim (fun _ => storeOnly_pure)

theorem calm_andThen {p : RuntimeM campaignInterface α} {f : α → RuntimeM campaignInterface β}
    {post : Except RuntimeError β → CampaignWorld → Prop} (h : StoreOnly p)
    (hf : ∀ a, Ends (Calm before) (f a) post) (herror : ∀ e w, Calm before w → post (.error e) w) :
    Ends (Calm before) (p >>= f) post :=
  Program.stays_andThen (calm_of_asks h)
    (fun a => Program.Stays.weaken (hf a) (fun _ hs => hs.2) (fun _ _ hs => hs))
    (fun e w hs => herror e w hs.2)

/-- It asks the store, and writes no event. -/
abbrev Quiet {α : Type} (p : RuntimeM campaignInterface α) : Prop :=
  RuntimeM.Asks (fun _ _ => True) NoEvent (fun _ => True) p

theorem quiet_call {op : StoreOp} (h : op.event = none) :
    Quiet (lift (call op) : RuntimeM campaignInterface op.Reply) :=
  asks_call (show NoEvent (.inl op) from h) (fun _ _ => trivial)

theorem same_andThen {p : RuntimeM campaignInterface α} {f : α → RuntimeM campaignInterface β}
    {post : Except RuntimeError β → CampaignWorld → Prop} (h : Quiet p)
    (hf : ∀ a, Ends (Same campaignId before) (f a) post)
    (herror : ∀ e w, Same campaignId before w → post (.error e) w) :
    Ends (Same campaignId before) (p >>= f) post :=
  Program.stays_andThen (same_of_asks h)
    (fun a => Program.Stays.weaken (hf a) (fun _ hs => hs.2) (fun _ _ hs => hs))
    (fun e w hs => herror e w hs.2)

/-- The events of the campaign are read as they were. -/
theorem ends_readSame :
    Ends (Same campaignId before) (readAll (some campaignId)) (fun r w =>
      r = .ok (before.log campaignId) ∧ Same campaignId before w) := by
  refine Program.stays_request (fun _ _ => trivial) fun log => Program.stays_done ?_
  rintro w ⟨w₁, ⟨hlog, hraised⟩, ⟨rfl, hstore⟩, hstep⟩
  have hsame : w.log campaignId = before.log campaignId := by
    rw [← hlog]
    unfold CampaignWorld.log
    rw [hstore]
  exact ⟨congrArg Except.ok hlog, hsame, hstep.trans hraised⟩

theorem ends_ofResult {pre : CampaignWorld → Prop} (r : Except RuntimeError α) :
    Ends pre (ofResult r) (fun r' w => r' = r ∧ pre w) :=
  Program.stays_done (fun _ hs => ⟨rfl, hs⟩)

/-- A fact that comes with the world. -/
theorem ends_known {pre known : CampaignWorld → Prop} {fact : Prop} {p : RuntimeM campaignInterface α}
    {post : Except RuntimeError α → CampaignWorld → Prop} (h : fact → Ends known p post)
    (hpre : ∀ w, pre w → known w ∧ fact) : Ends pre p post :=
  fun w l r w' hs hrun => h (hpre w hs).2 w l r w' (hpre w hs).1 hrun

theorem isolated_of_storeOnly {p : RuntimeM campaignInterface α} {a : α} (h : StoreOnly p) :
    Ends (Same campaignId before) p (S.Isolated campaignId before a) :=
  (calm_of_asks h).weaken (fun _ hs => hs.2) (fun _ _ hs => .inl hs.2)

variable {contract : EvalCampaignContract} {claims : Claims} {ownerId : String} {facts : CampaignFacts}
  {trial : CampaignTrialPlan}

theorem storeOnly_validateCommit (child : PairedEvalContract) :
    StoreOnly (validateCommit trial child : RuntimeM campaignInterface Unit) := by
  refine storeOnly_bind (storeOnly_events _ _) (fun commits => ?_)
  split
  · split
    · exact storeOnly_pure
    · exact storeOnly_throw
  · exact storeOnly_throw

theorem storeOnly_bindScope (pair : PairedEvalContract) :
    StoreOnly (S.bindScope campaignId pair : RuntimeM campaignInterface (String × Event)) := by
  refine storeOnly_bind (storeOnly_ofResult _) (fun scope => ?_)
  refine storeOnly_bind (storeOnly_events _ _) (fun existing => storeOnly_bind ?_ (fun _ => storeOnly_pure))
  unfold bindAmong
  split
  · exact storeOnly_append
  · split
    · exact storeOnly_pure
    · exact storeOnly_throw
  · exact storeOnly_throw

theorem storeOnly_observeTrial (report : PairedEvalReport) :
    StoreOnly (S.observeTrial campaignId claims ownerId trial report :
      RuntimeM campaignInterface (Bool × Bool)) := by
  refine storeOnly_bind ?_ (fun _ => storeOnly_bind storeOnly_closeClaim (fun _ => storeOnly_pure))
  unfold observationEvent
  split
  · exact storeOnly_throw
  refine storeOnly_bind (storeOnly_events _ _) (fun completions => ?_)
  split
  · refine storeOnly_bind (storeOnly_ofResult _) (fun _ => ?_)
    exact storeOnly_bind (storeOnly_events _ _) (fun _ => storeOnly_ofResult _)
  · exact storeOnly_throw

theorem storeOnly_startNext :
    StoreOnly (startNext contract campaignId claims ownerId facts :
      RuntimeM campaignInterface (Bool × Bool)) := by
  unfold startNext
  split
  · exact storeOnly_giveBack
  · split
    · exact storeOnly_giveBack
    · exact storeOnly_bind storeOnly_closeClaim (fun _ => storeOnly_pure)

/-! ### The creation of a pair -/

/-- A stage raises: a callback of the stage, or nothing that is one. -/
def Fails (campaignId : String) (before : CampaignWorld) (stage : String) (exc : RuntimeError)
    (w : CampaignWorld) : Prop :=
  Calm before w ∨ ∃ op : CampaignOp, op.stage = some stage ∧
    w.raised = before.raised ++ [(op, exc)] ∧ w.log campaignId = before.log campaignId

/-- The stages have been passed, or one of them has failed. -/
def Staged {γ : Type} (campaignId : String) (before : CampaignWorld)
    (r : Except RuntimeError (Except (String × RuntimeError) γ)) (w : CampaignWorld) : Prop :=
  match r with
  | .ok (.ok _) => Calm before w
  | .ok (.error (stage, exc)) => Fails campaignId before stage exc w
  | .error _ => False

theorem ends_stage {γ : Type} {name : String} {p : RuntimeM campaignInterface α}
    {next : α → RuntimeM campaignInterface (Except (String × RuntimeError) γ)}
    {pre : CampaignWorld → Prop} {mid : Except RuntimeError α → CampaignWorld → Prop}
    (h : Ends pre p mid)
    (hok : ∀ a, Ends (mid (.ok a)) (next a) (Staged campaignId before))
    (herror : ∀ exc w, mid (.error exc) w → Fails campaignId before name exc w) :
    Ends pre (stage name p next) (Staged campaignId before) := by
  refine attempt_andThen h (fun r => ?_)
  cases r with
  | ok a => exact hok a
  | error exc => exact Program.stays_done (herror exc)

/-- A stage that calls nothing but the store. -/
theorem ends_storeStage {γ : Type} {name : String} {p : RuntimeM campaignInterface α}
    {next : α → RuntimeM campaignInterface (Except (String × RuntimeError) γ)} (h : StoreOnly p)
    (hok : ∀ a, Ends (Calm before) (next a) (Staged campaignId before)) :
    Ends (Calm before) (stage name p next) (Staged campaignId before) :=
  ends_stage (calm_of_asks h) (fun a => (hok a).weaken (fun _ hs => hs.2) (fun _ _ hs => hs))
    (fun _ _ hs => .inl hs.2)

section creation

variable (hcampaign : before.IsCampaign campaignId)
include hcampaign

theorem ends_validateIdentity (pair : PairedEvalCreated) :
    Ends (Same campaignId before) (validateIdentity campaignOps trial pair) (fun r w =>
      match r with
      | .ok _ => Calm before w
      | .error exc => Fails campaignId before "validate_pair_identity" exc w) := by
  unfold validateIdentity
  split
  · exact Program.stays_done (fun w hs => .inl hs.2)
  refine Program.stays_andThen (ends_pairContract hcampaign pair.evalId) (fun child => ?_) ?_
  · split
    · exact Program.stays_done (fun w hs => .inl hs.2)
    · split
      · exact Program.stays_done (fun w hs => .inl hs.2)
      · exact Program.stays_done (fun w hs => hs.2)
  · exact fun exc w hs => .inr ⟨_, rfl, hs⟩

theorem ends_createBound (request : PairedEvalRequest) :
    Ends (Same campaignId before) (S.createBound campaignOps campaignId trial request)
      (Staged campaignId before) := by
  refine ends_stage (ends_createPair hcampaign request) (fun pair => ?_) (fun exc w hs => .inr ⟨_, rfl, hs⟩)
  refine ends_stage (ends_validateIdentity hcampaign pair) (fun child => ?_) (fun exc w hs => hs)
  refine ends_storeStage (storeOnly_validateCommit child) (fun _ => ?_)
  exact ends_storeStage (storeOnly_bindScope child) (fun _ => Program.stays_done (fun w hs => hs))

/-- A failed creation is recorded as what it is. -/
theorem ends_createTrial (hcontract : S.contractIn (before.log campaignId) campaignId = .ok contract)
    (hfacts : factsOf (before.log campaignId) = .ok facts)
    (htrial : contract.trials.find? (fun trial =>
      About facts.started trial ∧ ¬ About facts.linked trial ∧ ¬ About facts.failed trial) = some trial) :
    Ends (Same campaignId before) (S.createTrial campaignOps contract campaignId claims ownerId facts trial)
      (S.Isolated campaignId before (true, true)) := by
  refine same_andThen (fun _ _ => trivial) (fun request => ?_) (fun _ _ hs => .inl hs.2)
  refine Program.stays_andThen (ends_createBound hcampaign request) (fun done => ?_) (fun _ _ hs => hs.elim)
  cases done with
  | ok bound =>
      refine calm_andThen storeOnly_closeClaim (fun _ => ?_) (fun _ _ hs => .inl hs)
      exact Program.stays_done (fun w hs => .inl hs)
  | error failed =>
      obtain ⟨stage, exc⟩ := failed
      intro w l r w' hfails hrun
      rcases hfails with hcalm | ⟨op, hstage, hraised, hlog⟩
      · refine calm_andThen storeOnly_closeClaim (fun _ => ?_) (fun _ _ hs => .inl hs) w l r w' hcalm hrun
        exact Program.stays_done (fun w hs => .inl hs)
      · refine Program.stays_andThen (@ends_closeClaim campaignId
          { before with raised := before.raised ++ [(op, exc)] } _ _ _ _ _ (fun _ => rfl)) (fun _ => ?_)
          ?_ w l r w' ⟨hlog, hraised⟩ hrun
        · refine Program.stays_done ?_
          rintro w ⟨hraised, t, hrecorded, hlog⟩
          refine .inr ⟨op, exc, hraised, ?_⟩
          rw [hstage]
          exact .inl ⟨rfl, _, ⟨contract, facts, trial, t, hcontract, hfacts, htrial, rfl⟩, hrecorded, hlog⟩
        · rintro e w ⟨hraised, hlog, hstops⟩
          refine .inr ⟨op, exc, hraised, ?_⟩
          rw [hstage]
          exact .inr ⟨hstops.imp (congrArg _) (fun ⟨e', he⟩ => ⟨e', congrArg _ he⟩), hlog⟩

/-! ### One boundary -/

theorem ends_releaseTrial :
    Ends (Same campaignId before)
      (releaseTrial campaignOps campaignId claims ownerId facts.linked trial)
      (S.Isolated campaignId before (true, true)) := by
  refine Program.stays_andThen (ends_releasePair hcampaign trial.evalId) (fun _ => ?_)
    (fun e w hs => .inr ⟨_, e, hs.1, .inl rfl, hs.2⟩)
  refine Program.Stays.weaken (?_ : Ends (Calm before) _ _) (fun w hs => hs.2) (fun _ _ hs => hs)
  refine calm_andThen storeOnly_closeClaim (fun _ => ?_) (fun _ _ hs => .inl hs)
  exact Program.stays_done (fun w hs => .inl hs)

theorem ends_firstCompleted (trials : List CampaignTrialPlan) :
    Ends (Same campaignId before) (firstCompleted campaignOps trials) (fun r w =>
      match r with
      | .ok _ => Same campaignId before w
      | .error exc => ∃ evalId, w.raised = before.raised ++ [(.pairReport evalId, exc)] ∧
          w.log campaignId = before.log campaignId) := by
  induction trials with
  | nil => exact Program.stays_done (fun w hs => hs)
  | cons trial trials ih =>
      refine Program.stays_andThen (ends_pairReport hcampaign trial.evalId) (fun report => ?_)
        (fun e w hs => ⟨_, hs⟩)
      split
      · exact Program.stays_done (fun w hs => hs)
      · exact ih

theorem ends_observeOrCreate (hcontract : S.contractIn (before.log campaignId) campaignId = .ok contract)
    (hfacts : factsOf (before.log campaignId) = .ok facts) :
    Ends (Same campaignId before) (S.observeOrCreate campaignOps contract campaignId claims ownerId facts)
      (S.Isolated campaignId before (true, true)) := by
  refine Program.stays_andThen (ends_firstCompleted hcampaign _) (fun completed => ?_)
    (fun e w ⟨_, hraised, hlog⟩ => .inr ⟨_, e, hraised, .inl rfl, hlog⟩)
  cases completed with
  | some found => exact isolated_of_storeOnly (storeOnly_observeTrial found.2)
  | none =>
      show Ends (Same campaignId before)
        (S.createOrStart campaignOps contract campaignId claims ownerId facts) _
      unfold createOrStart
      split
      next htrial => exact ends_createTrial hcampaign hcontract hfacts htrial
      next => exact isolated_of_storeOnly storeOnly_startNext

theorem ends_advanceFrom (hcontract : S.contractIn (before.log campaignId) campaignId = .ok contract)
    (hfacts : factsOf (before.log campaignId) = .ok facts) :
    Ends (Same campaignId before) (S.advanceFrom campaignOps contract campaignId claims ownerId facts)
      (S.Isolated campaignId before (true, true)) := by
  unfold advanceFrom
  split
  · exact ends_releaseTrial hcampaign
  · exact ends_observeOrCreate hcampaign hcontract hfacts

theorem ends_advanceClaimed (hcontract : S.contractIn (before.log campaignId) campaignId = .ok contract) :
    Ends (Same campaignId before) (S.advanceClaimed campaignOps contract campaignId claims ownerId)
      (S.Isolated campaignId before (true, true)) := by
  refine Program.stays_andThen ends_readSame (fun log => ?_) (fun _ _ hs => .inl hs.2.2)
  refine @ends_known _ _ (Same campaignId before) (before.log campaignId = log) _ _ (fun hlog => ?_)
    (fun w hs => ⟨hs.2, (Except.ok.inj hs.1).symm⟩)
  split
  · exact isolated_of_storeOnly storeOnly_giveBack
  · refine Program.stays_andThen (ends_ofResult (factsOf log)) (fun facts => ?_) (fun _ _ hs => .inl hs.2.2)
    refine @ends_known _ _ (Same campaignId before) (factsOf (before.log campaignId) = .ok facts) _ _
      (fun hfacts => ends_advanceFrom hcampaign hcontract hfacts) (fun w hs => ⟨hs.2, ?_⟩)
    rw [hlog, ← hs.1]

end creation

theorem not_stopsWith_ok {exc : RuntimeError} {a : α} : ¬ StopsWith exc (.ok a : Except RuntimeError α) := by
  rintro (h | ⟨e, h⟩) <;> cases h

/-- A step that stops with `e`, which stops with `exc`. -/
theorem StopsWith.trans {exc e : RuntimeError} {r : Except RuntimeError β}
    (h : StopsWith exc (.error e : Except RuntimeError α)) (hr : StopsWith e r) : StopsWith exc r := by
  rcases h with h | ⟨e', h⟩
  · obtain rfl := Except.error.inj h
    exact hr
  · obtain rfl := Except.error.inj h
    exact hr.elim (fun hr => .inr ⟨e', hr⟩) .inr

/-- A step that returned has recorded what was raised. -/
theorem Isolated.of_ok {a b : α} (h : S.Isolated campaignId before a (.ok b) w) :
    Calm before w ∨ b = a ∧ ∀ c : β, S.Isolated campaignId before c (.ok c) w := by
  rcases h with hcalm | ⟨op, exc, hraised, h⟩
  · exact .inl hcalm
  cases hstage : op.stage with
  | none =>
      rw [hstage] at h
      exact absurd h.1 not_stopsWith_ok
  | some stage =>
      rw [hstage] at h
      rcases h with ⟨hok, hrecorded⟩ | ⟨hstops, -⟩
      · refine .inr ⟨Except.ok.inj hok, fun c => .inr ⟨op, exc, hraised, ?_⟩⟩
        rw [hstage]
        exact .inl ⟨rfl, hrecorded⟩
      · exact absurd hstops not_stopsWith_ok

/-- A step that raised has written nothing, and may pass its exception on. -/
theorem Isolated.of_error {a : α} {e : RuntimeError} (h : S.Isolated campaignId before a (.error e) w) :
    Calm before w ∨
      ∀ (b : β) r w', Same campaignId w w' → StopsWith e r → S.Isolated campaignId before b r w' := by
  rcases h with hcalm | ⟨op, exc, hraised, h⟩
  · exact .inl hcalm
  cases hstage : op.stage with
  | none =>
      rw [hstage] at h
      refine .inr (fun b r w' hsame hstops => .inr ⟨op, exc, hsame.2.trans hraised, ?_⟩)
      rw [hstage]
      exact ⟨h.1.trans hstops, hsame.1.trans h.2⟩
  | some stage =>
      rw [hstage] at h
      rcases h with ⟨hok, -⟩ | ⟨hlost, hlog⟩
      · cases hok
      · refine .inr (fun b r w' hsame hstops => .inr ⟨op, exc, hsame.2.trans hraised, ?_⟩)
        rw [hstage]
        exact .inr ⟨hlost.trans hstops, hsame.1.trans hlog⟩

/-- The claim is given back while an exception passes. -/
theorem ends_giveBackThen (e : RuntimeError) :
    Ends (Same campaignId before) (do
        let _ ← PairedEvalService.finishClaim claims ownerId .released
        throw e : RuntimeM campaignInterface α)
      (fun r w => StopsWith e r ∧ Same campaignId before w) := by
  refine Program.stays_of_asks (A := fun _ _ => True) (Q := NoEvent) ⟨rfl, fun r _ => ?_⟩
    (fun _ _ => trivial) (fun _ _ _ _ hs hop hstep => ⟨trivial, hs.trans (same_step hop hstep)⟩)
  cases r with
  | ok closed => exact .inl rfl
  | error e' => exact .inr ⟨e', rfl⟩

/-- The claim is given back, and nothing else is done. -/
theorem ends_afterClaim {p : RuntimeM campaignInterface (Bool × Bool)}
    (h : Ends (Same campaignId before) p (S.Isolated campaignId before (true, true))) :
    Ends (Same campaignId before) (afterClaim claims ownerId p) (S.Isolated campaignId before true) := by
  refine attempt_andThen h (fun done => ?_)
  intro w l r w' hs hrun
  cases done with
  | ok result =>
      obtain ⟨closed, a⟩ := result
      rcases hs.of_ok with hcalm | ⟨hok, hisolated⟩
      · cases closed with
        | true =>
            have hend : Ends (Calm before) (pure a : RuntimeM campaignInterface Bool)
                (S.Isolated campaignId before true) := Program.stays_done (fun w hs => .inl hs)
            exact hend w l r w' hcalm hrun
        | false =>
            refine calm_andThen storeOnly_finishClaim (fun _ => ?_) (fun _ _ hs => .inl hs) w l r w' hcalm hrun
            exact Program.stays_done (fun w hs => .inl hs)
      · obtain ⟨rfl, rfl⟩ := Prod.mk.inj hok
        have hend : Ends (· = w) (pure true : RuntimeM campaignInterface Bool)
            (S.Isolated campaignId before true) := by
          refine Program.stays_done ?_
          rintro _ rfl
          exact hisolated true
        exact hend w l r w' rfl hrun
  | error e =>
      rcases hs.of_error with hcalm | hisolated
      · refine calm_andThen storeOnly_finishClaim (fun _ => ?_) (fun _ _ hs => .inl hs) w l r w' hcalm hrun
        exact Program.stays_done (fun w hs => .inl hs)
      · obtain ⟨hl, hstops, hsame⟩ := @ends_giveBackThen campaignId w _ claims ownerId e w l r w'
          ⟨rfl, rfl⟩ hrun
        exact ⟨hl, hisolated true r w' hsame hstops⟩

/-! ### Reports -/

theorem ends_readAll (runId : Option String) :
    Ends (· = before) (readAll runId) (fun r w => w = before ∧ r = .ok (before.store.db.readAll runId)) := by
  refine Program.stays_request (fun _ _ => trivial) fun r => Program.stays_done ?_
  rintro w ⟨_, rfl, ⟨rfl, hstore⟩, hraised⟩
  exact ⟨CampaignWorld.ext hstore hraised, rfl⟩

theorem ends_events (type : String) :
    Ends (· = before) (PairedEvalService.events campaignId type) (fun r w => w = before ∧
      r = .ok ((before.log campaignId).filter (fun e => e.type = type))) := by
  refine Program.stays_andThen (ends_readAll _) (fun log => Program.stays_done ?_) ?_
  · rintro w ⟨rfl, hread⟩
    exact ⟨rfl, congrArg (Except.map (List.filter _)) hread⟩
  · rintro e w ⟨-, hread⟩
    cases hread

theorem ends_contract :
    Ends (· = before) (S.contract campaignId) (fun r w =>
      w = before ∧ r = S.contractIn (before.log campaignId) campaignId) := by
  refine Program.stays_andThen (ends_events _) (fun existing => ?_) ?_
  · refine @ends_known _ _ (· = before)
      (existing = (before.log campaignId).filter (fun e => e.type = "eval.campaign.created")) _ _
      (fun hexisting => ?_) (fun w hs => ⟨hs.1, Except.ok.inj hs.2⟩)
    unfold contractIn
    rw [← hexisting]
    rcases existing with _ | ⟨e, _ | ⟨e', rest⟩⟩
    · exact Program.stays_done (fun w hs => ⟨hs, rfl⟩)
    · exact Program.stays_done (fun w hs => ⟨hs, rfl⟩)
    · exact Program.stays_done (fun w hs => ⟨hs, rfl⟩)
  · rintro e w ⟨-, hread⟩
    cases hread

/-- A campaign whose contract can be read has been created. -/
theorem isCampaign_of_contractIn {c : EvalCampaignContract}
    (h : S.contractIn (before.log campaignId) campaignId = .ok c) : before.IsCampaign campaignId := by
  unfold contractIn at h
  split at h
  next e hcreated =>
    have hmem := List.mem_filter.mp (hcreated ▸ List.mem_singleton_self e)
    exact ⟨e, hmem.1, of_decide_eq_true hmem.2⟩
  next => cases h

/-- What `advance_one` makes of a callback that raises. -/
theorem ends_advanceOne :
    Ends (· = before) (S.advanceOne campaignOps campaignId) (S.Isolated campaignId before true) := by
  refine Program.stays_andThen ends_contract (fun c => ?_) (fun e w hs => .inl (congrArg _ hs.1))
  refine @ends_known _ _ (Same campaignId before)
    (S.contractIn (before.log campaignId) campaignId = .ok c) _ _ (fun hcontract => ?_) ?_
  · refine same_andThen (quiet_call rfl) (fun drawn => ?_) (fun _ _ hs => .inl hs.2)
    refine same_andThen (quiet_call rfl) (fun t => ?_) (fun _ _ hs => .inl hs.2)
    refine same_andThen (asks_raising ⟨rfl, fun _ _ _ _ => trivial⟩) (fun claimed => ?_)
      (fun _ _ hs => .inl hs.2)
    split
    · exact Program.stays_done (fun w hs => .inl hs.2)
    · exact ends_afterClaim (ends_advanceClaimed (isCampaign_of_contractIn hcontract) hcontract)
  · rintro w ⟨rfl, hcontract⟩
    exact ⟨⟨rfl, rfl⟩, hcontract.symm⟩

variable {V : ReportModels}

theorem runningReport_ok {log : List Event} {report : EvalCampaignReport}
    (h : S.runningReport V campaignId contract log = .ok report) :
    report.status = .running ∧ report.campaignId = campaignId := by
  obtain ⟨scope, -, h⟩ := bind_ok_iff.mp h
  obtain ⟨facts, -, h⟩ := bind_ok_iff.mp h
  obtain ⟨trials, -, h⟩ := bind_ok_iff.mp h
  split at h
  · cases h
  · obtain rfl := Except.ok.inj h
    exact ⟨rfl, rfl⟩

theorem terminalReport_ok {e : Event} {report : EvalCampaignReport}
    (h : terminalReport V campaignId e = .ok report) : report.status ≠ .running := by
  obtain ⟨v, -, h⟩ := bind_ok_iff.mp h
  obtain ⟨validated, -, h⟩ := bind_ok_iff.mp h
  split at h
  next hstatus =>
    obtain rfl := Except.ok.inj h
    rw [hstatus]
    unfold terminalStatus
    split <;> decide
  next => cases h

/-- A report says whether its campaign is running, and which it is. -/
theorem reportIn_running {report : EvalCampaignReport}
    (h : S.reportIn V (before.log campaignId) campaignId = .ok report) :
    (report.status = .running ↔ before.IsOpen campaignId) ∧
      (report.status = .running → report.campaignId = campaignId) := by
  unfold reportIn at h
  split at h
  next hterminal =>
    obtain ⟨c, -, hreport⟩ := bind_ok_iff.mp h
    obtain ⟨hstatus, hid⟩ := runningReport_ok hreport
    refine ⟨iff_of_true hstatus ?_, fun _ => hid⟩
    exact fun e he hend => List.filter_eq_nil_iff.mp hterminal e he (decide_eq_true hend)
  next e hterminal =>
    have hstatus := terminalReport_ok h
    have hmem := List.mem_filter.mp (hterminal ▸ List.mem_singleton_self e)
    refine ⟨iff_of_false hstatus ?_, fun hrunning => absurd hrunning hstatus⟩
    exact fun hnone => hnone e hmem.1 (of_decide_eq_true hmem.2)
  next => cases h

theorem ends_report (campaignId : String) :
    Ends (· = before) (S.report V campaignId) (fun r w =>
      w = before ∧ r = S.reportIn V (before.log campaignId) campaignId) := by
  refine Program.stays_andThen (ends_readAll _) (fun log => ?_) ?_
  · refine @ends_known _ _ (· = before) (log = before.log campaignId) _ _ (fun hlog => ?_)
      (fun w hs => ⟨hs.1, Except.ok.inj hs.2⟩)
    unfold reportIn
    rw [← hlog]
    generalize log.filter (fun e => decide (IsCampaignTerminal e)) = found
    rcases found with _ | ⟨e, _ | ⟨e', rest⟩⟩
    · refine Program.stays_andThen ends_contract (fun c => Program.stays_done ?_) ?_
      · rintro w ⟨rfl, hcontract⟩
        rw [hlog, ← hcontract]
        exact ⟨rfl, rfl⟩
      · rintro e w ⟨rfl, hcontract⟩
        rw [hlog, ← hcontract]
        exact ⟨rfl, rfl⟩
    · exact Program.stays_done (fun w hs => ⟨hs, rfl⟩)
    · exact Program.stays_done (fun w hs => ⟨hs, rfl⟩)
  · rintro e w ⟨-, hread⟩
    cases hread

theorem ends_reportAll (ids : List String) :
    Ends (· = before) (S.reportAll V ids) (fun r w =>
      w = before ∧ r = ids.mapM (fun id => S.reportIn V (before.log id) id)) := by
  induction ids with
  | nil => exact Program.stays_done (fun w hs => ⟨hs, rfl⟩)
  | cons id ids ih =>
      rw [List.mapM_cons]
      refine Program.stays_andThen (ends_report id) (fun report => ?_) ?_
      · refine @ends_known _ _ (· = before) (S.reportIn V (before.log id) id = .ok report) _ _
          (fun hreport => ?_) (fun w hs => ⟨hs.1, hs.2.symm⟩)
        rw [hreport]
        refine Program.stays_andThen ih (fun reports => Program.stays_done ?_) ?_
        · rintro w ⟨rfl, hreports⟩
          rw [← hreports]
          exact ⟨rfl, rfl⟩
        · rintro e w ⟨rfl, hreports⟩
          rw [← hreports]
          exact ⟨rfl, rfl⟩
      · rintro e w ⟨rfl, hreport⟩
        rw [← hreport]
        exact ⟨rfl, rfl⟩

theorem ends_listReports :
    Ends (· = before) (S.listReports V) (fun r w => w = before ∧
      r = (campaignIds before.store.db.events.rows).mapM (fun id => S.reportIn V (before.log id) id)) := by
  refine Program.stays_andThen (ends_readAll none) (fun log => ?_) ?_
  · refine @ends_known _ _ (· = before) (log = before.store.db.events.rows) _ _ (fun hlog => ?_)
      (fun w hs => ⟨hs.1, Except.ok.inj hs.2⟩)
    rw [hlog]
    exact ends_reportAll _
  · rintro e w ⟨-, hread⟩
    cases hread

/-! ### The loop -/

/-- The campaigns that some reports say are running. -/
def runningIds (reports : List EvalCampaignReport) : List String :=
  (reports.filter (fun report => report.status = .running)).map EvalCampaignReport.campaignId

/-- A call of `advance_one`, with what it saw and left. -/
structure Advance where
  campaignId : String
  before : CampaignWorld
  seen : List (CampaignWorld × (withStore campaignInterface).Op)
  result : Except RuntimeError Bool
  after : CampaignWorld

/-- A callback has raised in the call. -/
def Advance.Raised (a : Advance) (op : CampaignOp) (exc : RuntimeError) : Prop :=
  a.after.raised = a.before.raised ++ [(op, exc)]

/-- Calls of `advance_one`, one after the other. -/
inductive Calls (S : EvalCampaignService) : CampaignWorld → List Advance → CampaignWorld → Prop
  | nil (w : CampaignWorld) : Calls S w [] w
  | cons {a : Advance} {calls : List Advance} {w' : CampaignWorld}
      (h : Program.Traced Eq campaignStep (S.advanceOne campaignOps a.campaignId) a.before a.seen a.result
        a.after)
      (rest : Calls S a.after calls w') : Calls S a.before (a :: calls) w'

/-- The campaigns have been called in their order, up to one whose advance raised. -/
inductive CallsUpTo : List String → List Advance → Prop
  | nil : CallsUpTo [] []
  | raised {a : Advance} {e : RuntimeError} (rest : List String) (h : a.result = .error e) :
      CallsUpTo (a.campaignId :: rest) [a]
  | returned {a : Advance} {progressed : Bool} {ids : List String} {calls : List Advance}
      (h : a.result = .ok progressed) (later : CallsUpTo ids calls) :
      CallsUpTo (a.campaignId :: ids) (a :: calls)

theorem traced_attempt {p : RuntimeM campaignInterface α} {w w' : CampaignWorld}
    {f : Except RuntimeError α → RuntimeM campaignInterface β}
    {l : List (CampaignWorld × (withStore campaignInterface).Op)} {r : Except RuntimeError β}
    (h : Program.Traced Eq campaignStep (attempt p >>= f : RuntimeM campaignInterface β) w l r w') :
    ∃ l₁ r₁ w₁ l₂, l = l₁ ++ l₂ ∧ Program.Traced Eq campaignStep p w l₁ r₁ w₁ ∧
      Program.Traced Eq campaignStep (f r₁) w₁ l₂ r w' := by
  change Program.Traced Eq campaignStep (Program.bind (Program.bind p _) _) w l r w' at h
  rw [Program.bind_assoc] at h
  exact Program.traced_bind h

/-- The loop calls the running campaigns, up to one whose advance raises. -/
theorem calls_of_callsEach {reports : List EvalCampaignReport} {w w' : CampaignWorld}
    {l : List (CampaignWorld × (withStore campaignInterface).Op)}
    {r : Except RuntimeError (List (String × Except RuntimeError Bool))}
    (h : Program.Traced Eq campaignStep (S.callsEach campaignOps reports) w l r w') :
    ∃ calls, Calls S w calls w' ∧ l = calls.flatMap Advance.seen ∧
      r = .ok (calls.map (fun a => (a.campaignId, a.result))) ∧ CallsUpTo (runningIds reports) calls := by
  induction reports generalizing w w' l r with
  | nil =>
      cases h
      exact ⟨[], .nil _, rfl, rfl, .nil⟩
  | cons report reports ih =>
      unfold callsEach at h
      split at h
      next hstatus =>
        rw [runningIds, List.filter_cons_of_neg (by simpa using hstatus)]
        exact ih h
      next hstatus =>
        rw [runningIds, List.filter_cons_of_pos (by simpa using hstatus), List.map_cons]
        obtain ⟨l₁, done, w₁, l₂, rfl, hone, hrest⟩ := traced_attempt h
        cases done with
        | error e =>
            cases hrest
            let a : Advance := ⟨report.campaignId, w, l₁, .error e, w'⟩
            exact ⟨[a], .cons (a := a) hone (.nil _), by simp [a], rfl, .raised (a := a) _ rfl⟩
        | ok progressed =>
            obtain ⟨l₃, later, w₂, l₄, rfl, hlater, hend⟩ := Program.traced_bind hrest
            obtain ⟨calls, hcalls, rfl, rfl, hupTo⟩ := ih hlater
            cases hend
            let a : Advance := ⟨report.campaignId, w, l₁, .ok progressed, w₁⟩
            exact ⟨a :: calls, .cons (a := a) hone hcalls, by simp [a], rfl, .returned (a := a) rfl hupTo⟩

/-- The reports that are running are those of the campaigns that are. -/
theorem runningIds_eq {ids : List String} {reports : List EvalCampaignReport}
    (h : ids.mapM (fun id => S.reportIn V (before.log id) id) = .ok reports) :
    runningIds reports = ids.filter (before.IsOpen ·) := by
  induction ids generalizing reports with
  | nil =>
      obtain rfl := Except.ok.inj h
      rfl
  | cons id ids ih =>
      rw [List.mapM_cons] at h
      obtain ⟨report, hreport, h⟩ := bind_ok_iff.mp h
      obtain ⟨reports, hreports, h⟩ := bind_ok_iff.mp h
      obtain rfl := Except.ok.inj h
      specialize ih hreports
      obtain ⟨hopen, hid⟩ := reportIn_running hreport
      unfold runningIds at ih ⊢
      by_cases hstatus : report.status = .running
      · rw [List.filter_cons_of_pos (by simpa using hstatus), List.map_cons, hid hstatus, ih]
        rw [List.filter_cons_of_pos (by simpa using hopen.mp hstatus)]
      · rw [List.filter_cons_of_neg (by simpa using hstatus), ih,
          List.filter_cons_of_neg (by simpa using fun h => hstatus (hopen.mpr h))]

theorem campaignIds_sorted (log : List Event) : (campaignIds log).Pairwise (· < ·) := by
  have hsorted := List.pairwise_insertionSort (· ≤ ·)
    ((log.filter (fun e => e.type = "eval.campaign.created")).map Event.runId).dedup
  have hnodup : (campaignIds log).Nodup :=
    (List.perm_insertionSort _ _).nodup_iff.mpr (List.nodup_dedup _)
  exact hsorted.imp₂ (fun a b hle hne => lt_of_le_of_ne hle hne) hnodup

theorem mem_campaignIds (h : before.IsCampaign campaignId) :
    campaignId ∈ campaignIds before.store.db.events.rows := by
  obtain ⟨e, he, htype⟩ := h
  have hmem := List.mem_filter.mp he
  refine (List.mem_insertionSort _).mpr (List.mem_dedup.mpr (List.mem_map.mpr ⟨e, ?_, ?_⟩))
  · exact List.mem_filter.mpr ⟨hmem.1, decide_eq_true htype⟩
  · exact of_decide_eq_true hmem.2

/-- A campaign that has not been called comes after one whose advance raised. -/
theorem CallsUpTo.called {ids : List String} {calls : List Advance} (h : CallsUpTo ids calls)
    (hsorted : ids.Pairwise (· < ·)) (hmem : campaignId ∈ ids) :
    campaignId ∈ calls.map Advance.campaignId ∨
      ∃ a ∈ calls, (∃ e, a.result = .error e) ∧ a.campaignId < campaignId := by
  induction h with
  | nil => cases hmem
  | @raised a e rest hraised =>
      rcases List.mem_cons.mp hmem with rfl | hrest
      · exact .inl (List.mem_singleton_self _)
      · exact .inr ⟨a, List.mem_singleton_self _, ⟨e, hraised⟩, (List.pairwise_cons.mp hsorted).1 _ hrest⟩
  | @returned a progressed ids calls hreturned later ih =>
      rcases List.mem_cons.mp hmem with rfl | hrest
      · exact .inl List.mem_cons_self
      · rcases ih (List.pairwise_cons.mp hsorted).2 hrest with hcalled | ⟨a', ha', hraised⟩
        · exact .inl (List.mem_cons_of_mem _ hcalled)
        · exact .inr ⟨a', List.mem_cons_of_mem _ ha', hraised⟩

theorem CallsUpTo.mem_ids {ids : List String} {calls : List Advance} (h : CallsUpTo ids calls) {a : Advance}
    (ha : a ∈ calls) : a.campaignId ∈ ids := by
  induction h with
  | nil => cases ha
  | raised rest hraised =>
      obtain rfl := List.mem_singleton.mp ha
      exact List.mem_cons_self
  | returned hreturned later ih =>
      rcases List.mem_cons.mp ha with rfl | ha
      · exact List.mem_cons_self
      · exact List.mem_cons_of_mem _ (ih ha)

/-- An advance that raised is the last. -/
theorem CallsUpTo.le_of_raised {ids : List String} {calls : List Advance} (h : CallsUpTo ids calls)
    (hsorted : ids.Pairwise (· < ·)) {a : Advance} {e : RuntimeError} (ha : a ∈ calls)
    (hraised : a.result = .error e) : ∀ a' ∈ calls, a'.campaignId ≤ a.campaignId := by
  induction h with
  | nil => cases ha
  | raised rest _ =>
      obtain rfl := List.mem_singleton.mp ha
      rintro a' ha'
      exact le_of_eq (congrArg Advance.campaignId (List.mem_singleton.mp ha'))
  | returned hreturned later ih =>
      obtain ⟨hfirst, hrest⟩ := List.pairwise_cons.mp hsorted
      rcases List.mem_cons.mp ha with rfl | hlater
      · rw [hreturned] at hraised
        cases hraised
      · intro a' ha'
        rcases List.mem_cons.mp ha' with rfl | ha'
        · exact (hfirst _ (later.mem_ids hlater)).le
        · exact ih hrest hlater a' ha'

/-- The report of the campaign raises. -/
def ReportRaises (S : EvalCampaignService) (V : ReportModels) (w : CampaignWorld) (campaignId : String) :
    Prop :=
  ∃ e, S.reportIn V (w.log campaignId) campaignId = .error e

/-- What a call of `advance_ready` makes of its campaigns: the calls of `advance_one` in the order of the
campaigns, none of them where a report raises. -/
structure Pass (S : EvalCampaignService) (V : ReportModels) (w : CampaignWorld) (calls : List Advance)
    (out : Except RuntimeError ℕ) (w' : CampaignWorld) : Prop where
  made : Calls S w calls w'
  order :
    (calls = [] ∧ ∃ e, out = .error e ∧ ∃ id ∈ campaignIds w.store.db.events.rows,
      S.reportIn V (w.log id) id = .error e) ∨
    (∀ id ∈ campaignIds w.store.db.events.rows, ¬ ReportRaises S V w id) ∧
      CallsUpTo ((campaignIds w.store.db.events.rows).filter (w.IsOpen ·)) calls ∧
      out = totalOf (calls.map (fun a => (a.campaignId, a.result)))

/-- Every call of `advance_ready` is a pass. -/
theorem exists_pass {w w' : CampaignWorld} {l : List (CampaignWorld × (withStore campaignInterface).Op)}
    {out : Except RuntimeError ℕ}
    (h : Program.Traced Eq campaignStep (S.advanceReady V campaignOps) w l out w') :
    ∃ reads calls, l = reads ++ calls.flatMap Advance.seen ∧ Pass S V w calls out w' := by
  rw [advanceReady_eq_calls] at h
  obtain ⟨l₁, r, w₁, l₂, rfl, hcalls, hend⟩ := Program.traced_bind h
  obtain ⟨l₃, reports, w₂, l₄, rfl, hreports, hloop⟩ := Program.traced_bind hcalls
  obtain ⟨-, rfl, hvalue⟩ := ends_listReports w l₃ reports w₂ rfl hreports
  cases reports with
  | error e =>
      cases hloop
      cases hend
      obtain ⟨id, hid, he⟩ := exists_of_mapM_error hvalue.symm
      exact ⟨l₃, [], by simp, .nil _, .inl ⟨rfl, e, rfl, id, hid, he⟩⟩
  | ok reports =>
      obtain ⟨calls, hmade, rfl, rfl, hupTo⟩ := calls_of_callsEach hloop
      cases hend
      rw [runningIds_eq hvalue.symm] at hupTo
      refine ⟨l₃, calls, by simp, hmade, .inr ⟨?_, hupTo, rfl⟩⟩
      rintro id hid ⟨e, he⟩
      obtain ⟨report, -, hreport⟩ := mem_of_mapM_ok hvalue.symm hid
      cases he.symm.trans hreport

/-! ### Exceptions that do no harm -/

/-- What an advance raises is what a release or a report of a pair has raised. -/
def OnlyCallbacks (calls : List Advance) : Prop :=
  ∀ a ∈ calls, ∀ e, a.result = .error e → ∃ op, op.stage = none ∧ a.Raised op e

/-- Every running campaign is called unless its own report raises, and where a callback raises the events of the
campaign stay as they were. -/
def NoneStarved (S : EvalCampaignService) (V : ReportModels) (w : CampaignWorld) (calls : List Advance) :
    Prop :=
  (∀ id, w.Running id → id ∈ calls.map Advance.campaignId ∨ ReportRaises S V w id) ∧
    ∀ a ∈ calls, ∀ op exc, a.Raised op exc → a.after.log a.campaignId = a.before.log a.campaignId

/-- No report raises, or that of every running campaign does.  Releases and reports of pairs raise for the last
running campaign only, and creations and contracts where the failure has been recorded before. -/
structure Harmless (S : EvalCampaignService) (V : ReportModels) (w : CampaignWorld) (calls : List Advance) :
    Prop where
  reports : (∀ id ∈ campaignIds w.store.db.events.rows, ¬ ReportRaises S V w id) ∨
    ∀ id, w.Running id → ReportRaises S V w id
  last : ∀ a ∈ calls, ∀ op exc, a.Raised op exc → op.stage = none → ∀ id, w.Running id → id ≤ a.campaignId
  recorded : ∀ a ∈ calls, ∀ op exc stage, a.Raised op exc → op.stage = some stage →
    ∃ e, S.IsFailure (a.before.log a.campaignId) a.campaignId stage exc e ∧
      ∃ f ∈ a.before.log a.campaignId, f.SameFact e

theorem Advance.Raised.eq {a : Advance} {op op' : CampaignOp} {exc exc' : RuntimeError} (h : a.Raised op exc)
    (h' : a.Raised op' exc') : op = op' ∧ exc = exc' := by
  have hpair := List.singleton_inj.mp (List.append_cancel_left (h.symm.trans h'))
  exact Prod.mk.inj hpair

/-- What a call makes of the callback that has raised. -/
theorem Calls.isolated {w w' : CampaignWorld} {calls : List Advance} (h : Calls S w calls w') {a : Advance}
    (ha : a ∈ calls) {op : CampaignOp} {exc : RuntimeError} (hraised : a.Raised op exc) :
    match op.stage with
    | none => StopsWith exc a.result ∧ a.after.log a.campaignId = a.before.log a.campaignId
    | some stage => a.result = .ok true ∧ S.Recorded a.campaignId stage exc a.before a.after ∨
        StopsWith lostClaim a.result ∧ a.after.log a.campaignId = a.before.log a.campaignId := by
  induction h with
  | nil => cases ha
  | @cons a' calls w' hone rest ih =>
      rcases List.mem_cons.mp ha with rfl | ha
      · rcases (ends_advanceOne _ _ _ _ rfl hone).2 with hsame | ⟨op', exc', hraised', hspec⟩
        · have hnone := congrArg List.length (hsame.symm.trans hraised)
          rw [List.length_append, List.length_singleton] at hnone
          omega
        · obtain ⟨rfl, rfl⟩ := Advance.Raised.eq hraised hraised'
          exact hspec
      · exact ih ha

theorem IsFailure.id_eq {log : List Event} {stage : String} {exc : RuntimeError} {e e' : Event}
    (h : S.IsFailure log campaignId stage exc e) (h' : S.IsFailure log campaignId stage exc e') :
    e.id = e'.id := by
  obtain ⟨c, facts, trial, t, hc, hfacts, htrial, rfl⟩ := h
  obtain ⟨c', facts', trial', t', hc', hfacts', htrial', rfl⟩ := h'
  obtain rfl := Except.ok.inj (hc.symm.trans hc')
  obtain rfl := Except.ok.inj (hfacts.symm.trans hfacts')
  obtain rfl := Option.some.inj (htrial.symm.trans htrial')
  rfl

/-- A failure that stood in the log is not written again. -/
theorem Recorded.unchanged {stage : String} {exc : RuntimeError}
    (h : S.Recorded campaignId stage exc before w) {e f : Event}
    (he : S.IsFailure (before.log campaignId) campaignId stage exc e) (hf : f ∈ before.log campaignId)
    (hfact : f.SameFact e) : w.log campaignId = before.log campaignId := by
  obtain ⟨e', he', -, hsame | hwrote⟩ := h
  · exact hsame
  · have hnodup : ((w.log campaignId).map Event.id).Nodup :=
      w.store.db.events.nodup.sublist (List.filter_sublist.map _)
    rw [hwrote, List.map_append] at hnodup
    refine (List.nodup_append.mp hnodup).2.2 f.id (List.mem_map_of_mem hf) e'.id (by simp) ?_ |>.elim
    have hid := congrArg Event.id hfact
    exact hid.trans (he.id_eq he')

/-- What a call of `advance_ready` makes of the exceptions of its callbacks: no other campaign pays for them
exactly where they do no harm. -/
theorem advanceReady_isolates_iff (S : EvalCampaignService) (V : ReportModels) :
    (∀ w l out w', Program.Traced Eq campaignStep (S.advanceReady V campaignOps) w l out w' →
      ∃ reads calls, l = reads ++ calls.flatMap Advance.seen ∧ Pass S V w calls out w') ∧
    ∀ w calls out w', Pass S V w calls out w' → OnlyCallbacks calls →
      (NoneStarved S V w calls ↔ Harmless S V w calls) := by
  refine ⟨fun w l out w' h => exists_pass h, ?_⟩
  intro w calls out w' hpass honly
  have hids : ∀ id, w.Running id → id ∈ (campaignIds w.store.db.events.rows).filter (w.IsOpen ·) :=
    fun id hrunning => List.mem_filter.mpr ⟨mem_campaignIds hrunning.1, decide_eq_true hrunning.2⟩
  have hsorted : ((campaignIds w.store.db.events.rows).filter (w.IsOpen ·)).Pairwise (· < ·) :=
    (campaignIds_sorted _).filter _
  constructor
  · rintro ⟨hcalled, hlog⟩
    refine ⟨?_, ?_, ?_⟩
    · rcases hpass.order with ⟨rfl, -⟩ | ⟨hreports, -⟩
      · exact .inr (fun id hrunning => (hcalled id hrunning).resolve_left List.not_mem_nil)
      · exact .inl hreports
    · intro a ha op exc hraised hstage id hrunning
      have hspec := hpass.made.isolated ha hraised
      rw [hstage] at hspec
      obtain ⟨e, he⟩ : ∃ e, a.result = .error e := hspec.1.elim (fun h => ⟨_, h⟩) (fun ⟨e, h⟩ => ⟨_, h⟩)
      rcases hpass.order with ⟨rfl, -⟩ | ⟨hreports, hupTo, -⟩
      · cases ha
      · have hmade := (hcalled id hrunning).resolve_right (hreports id (mem_campaignIds hrunning.1))
        obtain ⟨a', ha', rfl⟩ := List.mem_map.mp hmade
        exact hupTo.le_of_raised hsorted ha he a' ha'
    · intro a ha op exc stage hraised hstage
      have hspec := hpass.made.isolated ha hraised
      rw [hstage] at hspec
      rcases hspec with ⟨-, e, hfailure, ⟨f, hf, hfact⟩, -⟩ | ⟨hstops, -⟩
      · rw [hlog a ha op exc hraised] at hf
        exact ⟨e, hfailure, f, hf, hfact⟩
      · obtain ⟨e, he⟩ : ∃ e, a.result = .error e := hstops.elim (fun h => ⟨_, h⟩) (fun ⟨e, h⟩ => ⟨_, h⟩)
        obtain ⟨op', hnone, hraised'⟩ := honly a ha e he
        rw [← (hraised.eq hraised').1, hstage] at hnone
        cases hnone
  · rintro ⟨hreports, hlast, hrecorded⟩
    refine ⟨?_, ?_⟩
    · intro id hrunning
      rcases hpass.order with ⟨-, e, -, id', hid', he⟩ | ⟨-, hupTo, -⟩
      · rcases hreports with hnone | hall
        · exact (hnone id' hid' ⟨e, he⟩).elim
        · exact .inr (hall id hrunning)
      · rcases hupTo.called hsorted (hids id hrunning) with hcalled | ⟨a, ha, ⟨e, he⟩, hlt⟩
        · exact .inl hcalled
        · obtain ⟨op, hnone, hraised⟩ := honly a ha e he
          exact (not_le.mpr hlt (hlast a ha op e hraised hnone id hrunning)).elim
    · intro a ha op exc hraised
      have hspec := hpass.made.isolated ha hraised
      cases hstage : op.stage with
      | none =>
          rw [hstage] at hspec
          exact hspec.2
      | some stage =>
          rw [hstage] at hspec
          rcases hspec with ⟨-, hfailed⟩ | ⟨-, hsame⟩
          · obtain ⟨e, hfailure, f, hf, hfact⟩ := hrecorded a ha op exc stage hraised hstage
            exact hfailed.unchanged hfailure hf hfact
          · exact hsame

/-! ### Two campaigns -/

section failing

/-- A pair is created under the identity that its campaign expects, and every other callback raises. -/
def callbackReply (e : RuntimeError) : (op : CampaignOp) → campaignInterface.Reply op
  | .createPair request => (.ok ⟨pairedEvalId request.requestId, "run-single", "run-team"⟩ :
      Except RuntimeError PairedEvalCreated)
  | .pairContract _ => (.error e : Except RuntimeError PairedEvalContract)
  | .releasePair _ => (.error e : Except RuntimeError Unit)
  | .pairReport _ => (.error e : Except RuntimeError PairedEvalReport)

/-- The clock stands still. -/
def failingStrategy (clock : DateTime) (hclock : clock.utcOffset = some 0) (e : RuntimeError) :
    Program.Strategy campaignStep where
  act
    | .inl op, w => some ((storeStrategy clock op w.store).1,
        { w with store := (storeStrategy clock op w.store).2 })
    | .inr op, w => some (callbackReply e op,
        { w with raised := w.raised ++
            ((CampaignOp.raisedBy op (callbackReply e op)).map (@Prod.mk CampaignOp _ op)).toList })
  sound := by
    intro op w r h
    cases op with
    | inl op =>
        obtain rfl := Option.some.inj h
        exact ⟨storeStrategy_sound hclock op w.store, rfl⟩
    | inr op =>
        obtain rfl := Option.some.inj h
        exact ⟨fun _ _ => rfl, rfl⟩

/-- The exception of the callbacks. -/
def gone : RuntimeError := .runtimeError "workspace is gone"

/-- The steps of the two campaigns. -/
def failing : Program.Strategy campaignStep := failingStrategy (Database.atSecond 1) atFirstSecond_utc gone

/-- Another campaign of one trial. -/
def secondTrial : EvalCampaignRequest :=
  { exactCap with
    requestId := ⟨"request-2", by decide +kernel⟩
    requestId_chars := by simp [RequestIdChar] }

/-- The identifiers of the two campaigns. -/
def firstId : String := campaignIdOf exactCap.requestId.1

def secondId : String := campaignIdOf secondTrial.requestId.1

/-- The trial of the first. -/
def firstTrial : CampaignTrialPlan where
  trialIndex := 1
  pairRequestId := childRequestId firstId 1
  evalId := pairedEvalId (childRequestId firstId 1)

/-- Two campaigns have been created, and facts about the first written. -/
def twoCampaigns (facts : List Event) : CampaignWorld :=
  { store := (failing.after 40 (do
      let _ ← trialService.create exactCap
      let _ ← trialService.create secondTrial
      return () : RuntimeM campaignInterface Unit) { store := ⟨.initial, 0⟩ }).2.store.wrote facts }

/-- The trial of the first is started. -/
def startedFirst : CampaignWorld := twoCampaigns [startedEvent firstId firstTrial (Database.atSecond 1)]

/-- The trial of the first is linked. -/
def linkedFirst : CampaignWorld :=
  twoCampaigns [startedEvent firstId firstTrial (Database.atSecond 1),
    event firstId "trial-linked:1" "eval.campaign.trial.linked"
      [("trial_index", .int 1), ("eval_id", .str firstTrial.evalId)] none (Database.atSecond 1)]

/-- Nothing that is persisted as a report or a sample validates; there is none. -/
def noModels : ReportModels := ⟨fun _ => none, fun _ => none⟩

/-- A step of the first campaign is run, and raises or records. -/
theorem traced_failing {α : Type} {p : RuntimeM campaignInterface α} {w : CampaignWorld}
    {r : Except RuntimeError α} (h : (failing.after 60 p w).1.result = some r) :
    Program.Traced Eq campaignStep p w (failing.trace 60 p w) r (failing.after 60 p w).2 :=
  failing.trace_traced (fun _ => rfl) h

/-- The release of the first campaign raises, and the second, which is running, is not called.  A
contract that cannot be read changes the stored events of the first. -/
theorem failing_campaign_not_isolated :
    (∃ l calls w', Program.Traced Eq campaignStep (trialService.advanceCalls noModels campaignOps)
        linkedFirst l (.ok calls) w' ∧ linkedFirst.Running secondId ∧ secondId ∉ calls.map Prod.fst) ∧
      ∃ l w', Program.Traced Eq campaignStep (trialService.advanceOne campaignOps firstId) startedFirst l
        (.ok true) w' ∧
        w'.raised.map (fun r => (r.1.stage, r.2)) = [(some "validate_pair_identity", gone)] ∧
        (w'.log firstId).length = (startedFirst.log firstId).length + 1 := by
  have hloop : (failing.after 60 (trialService.advanceCalls noModels campaignOps) linkedFirst).1.result =
      some (.ok [(firstId, .error gone)]) := by decide +kernel
  have hstep : (failing.after 60 (trialService.advanceOne campaignOps firstId) startedFirst).1.result =
      some (.ok true) := by decide +kernel
  exact ⟨⟨_, _, _, traced_failing hloop, by decide +kernel, by decide +kernel⟩,
    ⟨_, _, traced_failing hstep, by decide +kernel, by decide +kernel⟩⟩

/-- The trial of the second. -/
def lastTrial : CampaignTrialPlan where
  trialIndex := 1
  pairRequestId := childRequestId secondId 1
  evalId := pairedEvalId (childRequestId secondId 1)

/-- The trial of the second is linked. -/
def linkedLast : CampaignWorld :=
  twoCampaigns [startedEvent secondId lastTrial (Database.atSecond 1),
    event secondId "trial-linked:1" "eval.campaign.trial.linked"
      [("trial_index", .int 1), ("eval_id", .str lastTrial.evalId)] none (Database.atSecond 1)]

/-- A call of `advance_one` by these callbacks. -/
def callOf (w : CampaignWorld) (campaignId : String) : Advance where
  campaignId := campaignId
  before := w
  seen := failing.trace 60 (trialService.advanceOne campaignOps campaignId) w
  result := (failing.after 60 (trialService.advanceOne campaignOps campaignId) w).1.result.getD (.ok false)
  after := (failing.after 60 (trialService.advanceOne campaignOps campaignId) w).2

/-- The call of the first, which starts its trial. -/
def callOfFirst : Advance := callOf linkedLast firstId

/-- The call of the second, whose release raises. -/
def callOfLast : Advance := callOf callOfFirst.after secondId

/-- The two calls, evaluated at once. -/
theorem linkedLast_calls :
    campaignIds linkedLast.store.db.events.rows = [firstId, secondId] ∧
      (∀ id ∈ [firstId, secondId], id ≤ secondId) ∧
      (campaignIds linkedLast.store.db.events.rows).filter (linkedLast.IsOpen ·) = [firstId, secondId] ∧
      (∀ id ∈ campaignIds linkedLast.store.db.events.rows,
        (trialService.reportIn noModels (linkedLast.log id) id).toOption.isSome) ∧
      (failing.after 60 (trialService.advanceOne campaignOps firstId) linkedLast).1.result = some (.ok true) ∧
      (failing.after 60 (trialService.advanceOne campaignOps secondId) callOfFirst.after).1.result =
        some (.error gone) ∧
      callOfFirst.after.raised.length = 0 ∧
      callOfLast.after.raised.map (fun r => (r.1.stage, r.2)) = [(none, gone)] := by
  decide +kernel

theorem reports_linkedLast : ∀ id ∈ campaignIds linkedLast.store.db.events.rows,
    ¬ ReportRaises trialService noModels linkedLast id := by
  obtain ⟨-, -, -, hsome, -⟩ := linkedLast_calls
  rintro id hid ⟨e, he⟩
  have hreport := hsome id hid
  rw [he] at hreport
  cases hreport

theorem callOfFirst_run :
    (failing.after 60 (trialService.advanceOne campaignOps firstId) linkedLast).1.result = some (.ok true) := by
  obtain ⟨-, -, -, -, hrun, -⟩ := linkedLast_calls
  exact hrun

theorem callOfFirst_result : callOfFirst.result = .ok true := by
  show Option.getD _ _ = _
  rw [callOfFirst_run]
  rfl

theorem callOfLast_run :
    (failing.after 60 (trialService.advanceOne campaignOps secondId) callOfFirst.after).1.result =
      some (.error gone) := by
  obtain ⟨-, -, -, -, -, hrun, -⟩ := linkedLast_calls
  exact hrun

theorem callOfLast_result : callOfLast.result = .error gone := by
  show Option.getD _ _ = _
  rw [callOfLast_run]
  rfl

theorem callOfFirst_raised : callOfFirst.after.raised = callOfFirst.before.raised := by
  obtain ⟨-, -, -, -, -, -, hnone, -⟩ := linkedLast_calls
  exact List.length_eq_zero_iff.mp hnone

theorem callOfLast_raised : ∃ op, op.stage = none ∧ callOfLast.Raised op gone := by
  have hbefore : callOfLast.before.raised = [] := callOfFirst_raised
  obtain ⟨-, -, -, -, -, -, -, hafter⟩ := linkedLast_calls
  obtain ⟨⟨op, exc⟩, hraised, hpair⟩ := List.map_eq_singleton_iff.mp hafter
  obtain ⟨hstage, rfl⟩ := Prod.mk.inj hpair
  refine ⟨op, hstage, ?_⟩
  unfold Advance.Raised
  rw [hbefore]
  exact hraised

theorem pass_linkedLast :
    Pass trialService noModels linkedLast [callOfFirst, callOfLast] (.error gone) callOfLast.after := by
  refine ⟨.cons (a := callOfFirst) ?_ (.cons (a := callOfLast) ?_ (.nil _)), .inr ⟨reports_linkedLast, ?_, ?_⟩⟩
  · rw [callOfFirst_result]
    exact traced_failing callOfFirst_run
  · rw [callOfLast_result]
    exact traced_failing callOfLast_run
  · obtain ⟨-, -, hopen, -⟩ := linkedLast_calls
    rw [hopen]
    exact .returned (a := callOfFirst) callOfFirst_result (.raised (a := callOfLast) [] callOfLast_result)
  · show _ = totalOf [(firstId, callOfFirst.result), (secondId, callOfLast.result)]
    rw [callOfFirst_result, callOfLast_result]
    rfl

theorem onlyCallbacks_linkedLast : OnlyCallbacks [callOfFirst, callOfLast] := by
  intro a ha e he
  rcases List.mem_cons.mp ha with rfl | ha
  · cases he.symm.trans callOfFirst_result
  · obtain rfl := List.mem_singleton.mp ha
    obtain rfl := Except.error.inj (he.symm.trans callOfLast_result)
    exact callOfLast_raised

/-- The release of the last campaign raises; the first has been called, and no event of the last is written. -/
theorem isolated_linkedLast : NoneStarved trialService noModels linkedLast [callOfFirst, callOfLast] := by
  obtain ⟨op, hstage, hraised⟩ := callOfLast_raised
  have hquiet : ∀ op exc, ¬ callOfFirst.Raised op exc := by
    intro op exc h
    have hlength := congrArg List.length (callOfFirst_raised.symm.trans h)
    rw [List.length_append, List.length_singleton] at hlength
    omega
  refine ((advanceReady_isolates_iff trialService noModels).2 _ _ _ _ pass_linkedLast
    onlyCallbacks_linkedLast).mpr ⟨.inl reports_linkedLast, ?_, ?_⟩
  · intro a ha op' exc hraised' _ id hrunning
    rcases List.mem_cons.mp ha with rfl | ha
    · exact (hquiet op' exc hraised').elim
    · obtain rfl := List.mem_singleton.mp ha
      have hid := mem_campaignIds hrunning.1
      obtain ⟨hids, hle, -⟩ := linkedLast_calls
      rw [hids] at hid
      exact hle id hid
  · intro a ha op' exc stage hraised' hstage'
    rcases List.mem_cons.mp ha with rfl | ha
    · exact (hquiet op' exc hraised').elim
    · obtain rfl := List.mem_singleton.mp ha
      rw [(hraised'.eq hraised).1, hstage] at hstage'
      cases hstage'

end failing

end EvalCampaignService

end CrazyHarness
