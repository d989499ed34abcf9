import CrazyHarness.Runtime.Writes
import CrazyHarness.Evals.Arms

/-! # What evaluations append

`HoldsFacts F p`: as long as every fact that the program reads has `F`, so has every fact that it
appends.  A property that is only about plans (`AboutPlans`) needs a look at three places: where a
pair is asked for, where a run is prepared and where the contract of a campaign is committed. -/

namespace CrazyHarness

open Lib RuntimeM

/-- The event a step may append. -/
def evalEvent : (withStore evalInterface).Op → Option Event
  | .inl op => op.event
  | .inr (.resident op) => stepEvent (.inr op)
  | .inr _ => none

/-- What each step replies and does; the steps of an evaluation outside of the store may end in any
way. -/
def evalWorldStep (w : ResidentWorld) :
    (op : (withStore evalInterface).Op) → (withStore evalInterface).Reply op → ResidentWorld → Prop
  | .inl op, r, w' => residentStep w (.inl op) r w'
  | .inr (.resident op), r, w' => residentStep w (.inr op) r w'
  | .inr _, _, w' => w' = w

theorem evalWorldStep_wrote {w w' : ResidentWorld} {op : (withStore evalInterface).Op}
    {r : (withStore evalInterface).Reply op} (h : evalWorldStep w op r w') :
    w.store.drawn ≤ w'.store.drawn ∧
      ∃ es, es ⊆ (evalEvent op).toList ∧ w.store.db.Wrote es w'.store.db := by
  have hsame : w' = w → w.store.drawn ≤ w'.store.drawn ∧
      ∃ es, es ⊆ ([] : List Event) ∧ w.store.db.Wrote es w'.store.db := by
    rintro rfl
    exact ⟨le_rfl, [], List.nil_subset _, .nothing (.refl _)⟩
  cases op with
  | inl op => exact @residentStep_wrote w w' (.inl op) r h
  | inr op =>
      cases op with
      | resident op => exact @residentStep_wrote w w' (.inr op) r h
      | _ => exact hsame h

/-! ### Programs that keep a property of facts -/

variable {F : Event → Prop} {α β : Type}

/-- What is read of the log has the property, and an append returns the fact. -/
def ReadsFacts (F : Event → Prop) :
    (op : (withStore evalInterface).Op) → (withStore evalInterface).Reply op → Prop
  | .inl (.readAll runId), (r : List Event) => ∀ e ∈ r, F e ∧ ∀ id ∈ runId, e.runId = id
  | .inl op, r => RepliesFact (.inl op) r
  | .inr (.resident op), r => RepliesFact (.inr op) r
  | .inr _, _ => True

/-- What is appended has the property. -/
def AppendsFacts (F : Event → Prop) (op : (withStore evalInterface).Op) : Prop :=
  ∀ e ∈ evalEvent op, F e

/-- As long as what is read has the property, so has what is appended, and what is returned meets
`post`. -/
abbrev HoldsThen (F : Event → Prop) (post : α → Prop) (p : EvalM α) : Prop :=
  Asks (ReadsFacts F) (AppendsFacts F) post p

/-- As long as what is read has the property, so has what is appended. -/
abbrev HoldsFacts (F : Event → Prop) (p : EvalM α) : Prop := HoldsThen F (fun _ => True) p

/-- The facts that say what a pair, a run or a campaign is to be. -/
def planTypes : List String := ["eval.pair.requested", "run.created", "eval.campaign.created"]

/-- The property is only about such facts. -/
def AboutPlans (F : Event → Prop) : Prop := ∀ e : Event, e.type ∉ planTypes → F e

theorem holds_then {p : EvalM α} {f : α → β} (h : HoldsFacts F p) :
    HoldsFacts F (p >>= fun a => (pure (f a) : EvalM β)) :=
  asks_bind h (fun _ _ => asks_pure trivial)

theorem holds_result {r : Except RuntimeError α} {post : α → Prop} (h : ∀ a, r = .ok a → post a) :
    HoldsThen F post (ofResult r) := h

theorem holds_ofResult (r : Except RuntimeError α) : HoldsFacts F (ofResult r) := fun _ _ => trivial

theorem holds_attempt {p : EvalM α} {post : α → Prop} (h : HoldsThen F post p) :
    HoldsThen F (fun r => ∀ a, r = .ok a → post a) (attempt p) := by
  refine Program.asks_bind h ?_
  rintro r hr s hs
  obtain rfl := Except.ok.inj hs
  exact hr

theorem holds_call {op : StoreOp} (h : op.event = none) : HoldsFacts F (lift (call op) : EvalM op.Reply) := by
  refine asks_call (fun e he => ?_) (fun _ _ => trivial)
  rw [show evalEvent (.inl op) = none from h] at he
  cases he

theorem holds_readAll (runId : Option String) :
    HoldsThen F (fun log => ∀ e ∈ log, F e ∧ ∀ id ∈ runId, e.runId = id)
      (readAll runId : EvalM (List Event)) :=
  asks_call (fun e he => absurd he (Option.not_mem_none e)) (fun _ hr => hr)

theorem holds_now : HoldsFacts F (now : EvalM DateTime) := holds_call rfl

theorem holds_uuid : HoldsFacts F (uuid : EvalM String) := holds_call rfl

theorem holds_append {dispatch : Option DispatchContext} {e : DateTime → Event} (h : ∀ t, F (e t)) :
    HoldsFacts F (append dispatch e : EvalM Event) := by
  refine asks_bind holds_now (fun t _ => asks_raising ⟨fun f hf => ?_, fun _ _ _ _ => trivial⟩)
  obtain rfl := Option.some.inj hf
  exact h t

theorem holds_claimWork {keys : List String} {ownerId : String} {ttlSeconds : ℤ} {now : DateTime}
    {runId : Option String} :
    HoldsFacts F (raising (call (.claimWork keys ownerId ttlSeconds now runId)) :
      EvalM (Option Claims)) :=
  asks_raising ⟨fun e he => absurd he (Option.not_mem_none e), fun _ _ _ _ => trivial⟩

theorem holds_step (op : EvalOp) (h : evalInterface.Reply op = Except RuntimeError Unit)
    (hevent : evalEvent (.inr op) = none) : HoldsFacts F (evalStep op h) := by
  refine ⟨fun e he => ?_, fun _ _ _ _ => trivial⟩
  rw [hevent] at he
  cases he

/-- Code of the resident process that writes facts of the property. -/
theorem holds_resident {p : Resident α} (h : Writes F p) : HoldsFacts F (resident p) := by
  suffices hall : ∀ q : Program (withStore residentInterface) (Except RuntimeError α),
      q.Asks RepliesFact (WritesIn F) (fun _ => True) →
      (q.interpret residentOp ()).Asks (ReadsFacts F) (AppendsFacts F) (fun _ => True) from
    Program.asks_bind (hall p (Program.Asks.weaken h (fun _ _ => trivial))) (fun _ _ _ _ => trivial)
  intro q hq
  induction q with
  | done a => trivial
  | request op next ih =>
      cases op with
      | inl op =>
          refine ⟨fun e he => hq.1.1 e he, fun r hr => ih r (hq.2 r ?_)⟩
          cases op with
          | readAll runId =>
              cases runId with
              | none => trivial
              | some runId => exact fun e he => (hr e he).2 runId rfl
          | _ => exact hr
      | inr op => exact ⟨fun e he => hq.1.1 e he, fun r hr => ih r (hq.2 r hr)⟩

theorem holds_each {body : β → EvalM Unit} {xs : List β} (h : ∀ x ∈ xs, HoldsFacts F (body x)) :
    HoldsFacts F (each body xs) := by
  induction xs with
  | nil => exact asks_pure trivial
  | cons x xs ih =>
      refine asks_bind (h x List.mem_cons_self) (fun _ _ => ih (fun y hy => h y ?_))
      exact List.mem_cons_of_mem x hy

theorem PairedEvalService.mem_dictOf {entries : List (String × β)} {kv : String × β}
    (h : kv ∈ PairedEvalService.dictOf entries) : kv ∈ entries := by
  suffices hall : ∀ d : List (String × β), kv ∈ entries.foldl (fun d kv =>
      if d.any (fun old => old.1 = kv.1) then
        d.map (fun old => if old.1 = kv.1 then kv else old)
      else d ++ [kv]) d → kv ∈ d ∨ kv ∈ entries from
    (hall [] h).resolve_left List.not_mem_nil
  clear h
  induction entries with
  | nil => exact fun d hd => .inl hd
  | cons new entries ih =>
      intro d hd
      rcases ih _ hd with hmem | hmem
      · dsimp only at hmem
        split at hmem
        · obtain ⟨old, hold, hkv⟩ := List.mem_map.mp hmem
          split at hkv
          · exact .inr (hkv ▸ List.mem_cons_self)
          · exact .inl (hkv ▸ hold)
        · rcases List.mem_append.mp hmem with hmem | hmem
          · exact .inl hmem
          · exact .inr (List.mem_singleton.mp hmem ▸ List.mem_cons_self)
      · exact .inr (List.mem_cons_of_mem new hmem)

/-- A persisted request was read of an event. -/
theorem PairedEvalService.persistedRequests_spec {C : EvalCodec} {log : List Event}
    {requests : List (String × PairedEvalRequest)} {entry : String × PairedEvalRequest}
    (h : persistedRequests C log = .ok requests) (hentry : entry ∈ requests) :
    ∃ e ∈ log, e.type = "eval.pair.requested" ∧
      (eventItem e "request").bind (PairedEvalRequest.validate C) = .ok entry.2 := by
  obtain ⟨entries, hentries, h⟩ := bind_ok_iff.mp h
  obtain rfl := Except.ok.inj h
  obtain ⟨e, he, hread⟩ := exists_of_mapM_ok hentries (mem_dictOf hentry)
  obtain ⟨q, hq, hread⟩ := bind_ok_iff.mp hread
  obtain rfl := Except.ok.inj hread
  have hmem := List.mem_filter.mp he
  exact ⟨e, hmem.1, of_decide_eq_true hmem.2, hq⟩

section plans

variable (hF : AboutPlans F)
include hF

theorem holds_typed {dispatch : Option DispatchContext} {e : DateTime → Event} {type : String}
    (htype : type ∉ planTypes) (h : ∀ t, (e t).type = type) :
    HoldsFacts F (append dispatch e : EvalM Event) :=
  holds_append (fun t => hF _ (by rw [h t]; exact htype))

omit hF in
theorem holds_finishClaim {claims : Claims} {ownerId : String} {state : WorkClaimState}
    {finalEvent : Option Event} (h : ∀ e ∈ finalEvent, F e) :
    HoldsFacts F (PairedEvalService.finishClaim claims ownerId state finalEvent : EvalM Bool) :=
  asks_raising ⟨fun e he => h e he, fun _ _ _ _ => trivial⟩

omit hF in
theorem holds_giveBack {claims : Claims} {ownerId : String} {state : WorkClaimState} :
    HoldsFacts F (PairedEvalService.finishClaim claims ownerId state : EvalM Bool) :=
  holds_finishClaim (fun e he => absurd he (Option.not_mem_none e))

/-! ### Pairs -/

namespace PairedEvalService

omit hF in
theorem holds_events (evalId type : String) :
    HoldsThen F (fun log => ∀ e ∈ log, F e ∧ e.type = type ∧ e.runId = evalId)
      (events evalId type : EvalM (List Event)) := by
  refine asks_bind (holds_readAll (some evalId)) (fun log hlog => asks_pure ?_)
  intro e he
  have hmem := List.mem_filter.mp he
  exact ⟨(hlog e hmem.1).1, of_decide_eq_true hmem.2, (hlog e hmem.1).2 evalId rfl⟩

omit hF in
theorem holds_runCreated (runId : String) : HoldsFacts F (runCreated runId : EvalM Event) :=
  asks_bind (holds_readAll _) (fun _ _ => holds_ofResult _)

omit hF in
theorem holds_armEvents (evalId type : String) (single : Bool) :
    HoldsFacts F (armEvents evalId type single : EvalM (List Event)) :=
  asks_bind (holds_events evalId type) (fun _ _ => asks_pure trivial)

omit hF in
theorem holds_acquireCreateClaim (evalId ownerId : String) (polls : ℕ) :
    HoldsFacts F (acquireCreateClaim evalId ownerId polls : EvalM Claims) := by
  induction polls with
  | zero => exact asks_throw _
  | succ polls ih =>
      refine asks_bind holds_now (fun t _ => asks_bind holds_claimWork (fun claimed _ => ?_))
      cases claimed with
      | some claims => exact asks_pure trivial
      | none => exact ih

omit hF in
theorem holds_requestEvent {S : PairedEvalService evalInterface} {evalId : String}
    {q : PairedEvalRequest} (h : ∀ t, F (event evalId "requested" "eval.pair.requested"
      [("request", .dict (q.dump S.codec))] none t)) :
    HoldsFacts F (S.requestEvent evalId q) := by
  refine asks_bind (holds_events _ _) (fun existing _ => ?_)
  unfold requestAmong
  split
  · exact holds_append h
  · split
    · exact asks_pure trivial
    · exact asks_throw _
  · exact asks_throw _

theorem holds_linkArm (arm : PairedEvalArm) (evalId peerRunId : String) :
    HoldsFacts F (linkArm arm evalId peerRunId : EvalM Event) :=
  asks_bind (holds_runCreated _) (fun _ _ => holds_typed hF (by decide) (fun _ => rfl))

theorem holds_commitContract (contract : PairedEvalContract) (claims : Claims) (ownerId : String) :
    HoldsFacts F (commitContract contract claims ownerId : EvalM Unit) := by
  refine asks_bind (holds_linkArm hF _ _ _) (fun _ _ => ?_)
  refine asks_bind (holds_linkArm hF _ _ _) (fun _ _ => asks_bind holds_now (fun t _ => ?_))
  have hfinish : HoldsFacts F (finishClaim claims ownerId .completed (some (event contract.evalId
      "committed" "eval.pair.committed" (committedPayload contract) none t)) : EvalM Bool) := by
    refine holds_finishClaim (fun e he => hF e ?_)
    obtain rfl := Option.some.inj he
    exact (by decide : "eval.pair.committed" ∉ planTypes)
  refine asks_bind hfinish (fun committed _ => ?_)
  split
  · exact asks_pure trivial
  · exact asks_throw _

theorem holds_releaseContract {callbacks : PairCallbacks evalInterface}
    (hrelease : ∀ single identity, HoldsFacts F (callbacks.releaseArm single identity))
    (contract : PairedEvalContract) : HoldsFacts F (releaseContract callbacks contract) := by
  refine asks_each (fun arm => ?_) _
  refine asks_bind (holds_armEvents _ _ _) (fun released _ => ?_)
  split
  · refine asks_bind (holds_runCreated _) (fun created _ => asks_bind (hrelease _ _) (fun _ _ => ?_))
    exact holds_then (holds_typed hF (by decide) (fun _ => rfl))
  · exact asks_pure trivial

variable {S : PairedEvalService evalInterface} {callbacks : PairCallbacks evalInterface}
  {evalId ownerId : String} {q : PairedEvalRequest} {claims : Claims} {requested : Event}

/-- What the service is made with and what the runtime does with arms keep the property. -/
structure Keeps (F : Event → Prop) (S : PairedEvalService evalInterface)
    (callbacks : PairCallbacks evalInterface) (evalId : String) : Prop where
  ensureCurrent : HoldsFacts F S.ensureCurrent
  stopHeartbeat : HoldsFacts F S.stopHeartbeat
  injectFault : ∀ point, HoldsFacts F (S.injectFault point)
  prepareArm : ∀ single, HoldsFacts F (callbacks.prepareArm single (armIdentity evalId single))
  releaseArm : ∀ single identity, HoldsFacts F (callbacks.releaseArm single identity)
  cancelArm : ∀ cancel ∈ callbacks.cancelArm, ∀ runId, HoldsFacts F (cancel runId)

variable (hk : Keeps F S callbacks evalId)
include hk

theorem holds_planArm (single : Bool) :
    HoldsFacts F (S.planArm callbacks evalId requested single) := by
  refine asks_bind (holds_typed hF (by decide) (fun _ => rfl)) (fun _ _ => ?_)
  refine asks_bind (holds_armEvents _ _ _) (fun prepared _ => ?_)
  split
  · refine asks_bind hk.ensureCurrent (fun _ _ => asks_bind (hk.prepareArm single) (fun actual _ => ?_))
    refine asks_bind hk.ensureCurrent (fun _ _ => ?_)
    split
    · exact asks_bind (holds_typed hF (by decide) (fun _ => rfl)) (fun _ _ => hk.injectFault _)
    · exact asks_throw _
  · exact asks_pure trivial

omit hF hk in
theorem holds_buildContract : HoldsFacts F (S.buildContract evalId q) := by
  refine asks_bind (holds_runCreated _) (fun single _ => ?_)
  refine asks_bind (holds_runCreated _) (fun team _ => ?_)
  split
  · exact asks_throw _
  · exact holds_ofResult _

theorem holds_completeCreation :
    HoldsFacts F (S.completeCreation callbacks evalId q claims ownerId requested) := by
  refine asks_bind (holds_planArm hF hk false) (fun _ _ => ?_)
  refine asks_bind hk.ensureCurrent (fun _ _ => ?_)
  refine asks_bind holds_buildContract (fun contract _ => ?_)
  refine asks_bind (holds_typed hF (by decide) (fun _ => rfl)) (fun _ _ => ?_)
  refine asks_bind (hk.injectFault _) (fun _ _ => asks_bind hk.ensureCurrent (fun _ _ => ?_))
  exact holds_then (holds_commitContract hF _ _ _)

theorem holds_afterFailure (identities : List EvalRunIdentity) (exc : RuntimeError) :
    HoldsFacts F (afterFailure callbacks evalId requested identities exc) := by
  have hclean : HoldsFacts F (cleanUpArms callbacks evalId requested identities) := by
    unfold cleanUpArms
    split
    next cancelArm hcancel =>
      refine asks_each (fun identity => asks_handle (hk.cancelArm _ hcancel _) (fun e => ?_)) _
      exact holds_then (holds_typed hF (by decide) (fun _ => rfl))
    next => exact asks_pure trivial
  refine asks_bind (holds_attempt hclean) (fun cleaned _ => ?_)
  split <;> exact asks_pure trivial

theorem holds_handleFailure (failPrecommit : Bool) (identities : List EvalRunIdentity)
    (exc : RuntimeError) : HoldsFacts F
      (handleFailure callbacks evalId claims ownerId failPrecommit requested identities exc) := by
  unfold handleFailure
  split
  swap
  · exact asks_pure trivial
  refine asks_bind holds_now (fun t _ => ?_)
  have hfinish : HoldsFacts F (finishClaim claims ownerId .failed (some (event evalId "failed"
      "eval.pair.failed" [("error_type", .str exc.raised.typeName), ("reason", .str exc.raised.message)]
      (some requested.id) t)) : EvalM Bool) := by
    refine holds_finishClaim (fun e he => hF e ?_)
    obtain rfl := Option.some.inj he
    exact (by decide : "eval.pair.failed" ∉ planTypes)
  refine asks_bind (holds_attempt hfinish) (fun closed _ => ?_)
  split
  · exact holds_afterFailure hF hk _ _
  · exact asks_pure trivial
  · exact asks_pure trivial

theorem holds_afterCommit (shouldRelease : Bool) (contract : PairedEvalContract) :
    HoldsFacts F (afterCommit callbacks shouldRelease contract) := by
  have hrelease : HoldsFacts F (do
      (if shouldRelease then releaseContract callbacks contract else pure () : EvalM Unit)
      pure (created contract) : EvalM PairedEvalCreated) := by
    refine holds_then ?_
    split
    · exact holds_releaseContract hF hk.releaseArm _
    · exact asks_pure trivial
  exact holds_then (Program.Asks.weaken (holds_attempt hrelease) (fun _ _ _ _ => trivial))

theorem holds_freshCreation (shouldRelease : Bool)
    {failed : List EvalRunIdentity → RuntimeError → EvalM CreationEnd}
    (hfailed : ∀ identities exc, HoldsFacts F (failed identities exc)) :
    HoldsFacts F (S.freshCreation callbacks evalId q claims ownerId shouldRelease failed requested) := by
  refine asks_bind (holds_attempt (holds_planArm hF hk true)) (fun planned _ => ?_)
  split
  · exact hfailed _ _
  refine asks_bind (holds_attempt (holds_completeCreation hF hk)) (fun committed _ => ?_)
  split
  · exact hfailed _ _
  refine asks_bind (holds_attempt (hk.injectFault _)) (fun fault _ => ?_)
  split
  · exact asks_pure trivial
  · exact holds_afterCommit hF hk _ _

theorem holds_replayCreation (shouldRelease : Bool) {failed : RuntimeError → EvalM CreationEnd}
    (hfailed : ∀ exc, HoldsFacts F (failed exc)) (persisted : Event) :
    HoldsFacts F (replayCreation callbacks claims ownerId shouldRelease failed persisted) := by
  have hcommit : HoldsFacts F (do
      let contract ← ofResult ((eventItem persisted "contract").bind PairedEvalContract.validate)
      commitContract contract claims ownerId
      return contract : EvalM PairedEvalContract) :=
    asks_bind (holds_ofResult _) (fun _ _ => holds_then (holds_commitContract hF _ _ _))
  refine asks_bind (holds_attempt hcommit) (fun committed _ => ?_)
  split
  · exact holds_afterCommit hF hk _ _
  · exact hfailed _

omit hF hk in
theorem holds_rejectFailed {failed : RuntimeError → EvalM CreationEnd}
    (hfailed : ∀ exc, HoldsFacts F (failed exc)) :
    HoldsFacts F (rejectFailed claims ownerId failed) := by
  refine asks_bind (holds_attempt holds_giveBack) (fun closed _ => ?_)
  split
  · exact asks_pure trivial
  · exact hfailed _
  · exact hfailed _

theorem holds_createRequested (failPrecommit shouldRelease : Bool) :
    HoldsFacts F (S.createRequested callbacks evalId q claims ownerId failPrecommit shouldRelease
      requested) := by
  have hfailed := @holds_handleFailure F hF S callbacks evalId ownerId claims requested hk failPrecommit
  refine asks_bind (holds_events _ _) (fun failures _ => ?_)
  refine asks_bind (holds_events _ _) (fun persisted _ => ?_)
  split
  · exact holds_rejectFailed (hfailed [])
  · exact holds_freshCreation hF hk _ hfailed
  · exact holds_replayCreation hF hk _ (hfailed []) _
  · exact hfailed _ _

/-- A creation keeps the property, when the request it persists has it. -/
theorem holds_create (hid : pairedEvalId q.requestId = evalId)
    (hrequest : ∀ t, F (event evalId "requested" "eval.pair.requested"
      [("request", .dict (q.dump S.codec))] none t)) (failPrecommit : Bool)
    (releaseArms : Option Bool) : HoldsFacts F (S.create callbacks q failPrecommit releaseArms) := by
  subst hid
  unfold create
  dsimp only
  split
  · exact asks_throw _
  refine asks_bind holds_uuid (fun drawn _ => ?_)
  refine asks_bind (holds_acquireCreateClaim _ _ _) (fun claims _ => ?_)
  have hclaimed : HoldsFacts F (S.createClaimed callbacks (pairedEvalId q.requestId) q claims
      ("eval-creator:" ++ drawn) failPrecommit
      (releaseArms.getD (decide (q.releasePolicy = .immediate)))) := by
    have hasked : HoldsFacts F (do
        S.ensureCurrent
        S.requestEvent (pairedEvalId q.requestId) q : EvalM Event) :=
      asks_bind hk.ensureCurrent (fun _ _ => holds_requestEvent hrequest)
    refine asks_bind (holds_attempt hasked) (fun requested _ => ?_)
    split
    · exact asks_pure trivial
    · exact holds_createRequested hF hk _ _
  refine asks_bind hclaimed (fun done _ => asks_bind hk.stopHeartbeat (fun _ _ => ?_))
  split
  · exact holds_ofResult _
  · exact asks_bind holds_giveBack (fun _ _ => holds_ofResult _)

omit hF hk in
theorem holds_contract : HoldsFacts F (contract evalId : EvalM PairedEvalContract) := by
  refine asks_bind (holds_events _ _) (fun persisted _ => ?_)
  split
  · exact holds_ofResult _
  · exact asks_throw _

omit hk in
theorem holds_release
    (hrelease : ∀ single identity, HoldsFacts F (callbacks.releaseArm single identity)) :
    HoldsFacts F (S.release callbacks evalId) := by
  refine asks_bind holds_contract (fun c _ => asks_bind (holds_events _ _) (fun committed _ => ?_))
  split
  swap
  · exact asks_throw _
  split
  swap
  · exact asks_throw _
  refine asks_bind (holds_events _ _) (fun asked _ => ?_)
  split
  swap
  · exact asks_throw _
  refine asks_bind (holds_ofResult _) (fun q _ => ?_)
  have hlink : HoldsFacts F (requireLink evalId q : EvalM Unit) := by
    unfold requireLink
    split
    · refine asks_bind (holds_readAll _) (fun parentEvents _ => ?_)
      split
      · exact asks_pure trivial
      · exact asks_throw _
    · exact asks_pure trivial
  exact asks_bind hlink (fun _ _ => holds_then (holds_releaseContract hF hrelease _))

omit hk in
theorem holds_resumeOne {resume : PairedEvalRequest → EvalM Unit} (hresume : HoldsFacts F (resume q)) :
    HoldsFacts F (resumeOne resume evalId q) := by
  refine asks_bind (holds_attempt hresume) (fun resumed _ => ?_)
  split
  · exact asks_pure trivial
  · refine asks_bind (holds_events _ _) (fun failures _ => ?_)
    exact holds_then (holds_typed hF (by decide) (fun _ => rfl))

omit hk in
theorem holds_recoverOne {resume : PairedEvalRequest → EvalM Unit} (hresume : HoldsFacts F (resume q)) :
    HoldsFacts F (recoverOne resume evalId q) := by
  refine asks_bind (holds_events _ _) (fun failures _ => ?_)
  refine asks_bind (holds_events _ _) (fun persisted _ => ?_)
  split
  · exact asks_pure trivial
  · exact holds_resumeOne hF hresume
  · refine asks_bind (holds_ofResult _) (fun _ _ => asks_bind (holds_events _ _) (fun released _ => ?_))
    split
    · exact asks_pure trivial
    · exact holds_resumeOne hF hresume

end PairedEvalService

/-! ### Campaigns -/

namespace EvalCampaignService

open PairedEvalService

variable {S : EvalCampaignService} {callbacks : CampaignCallbacks evalInterface}
  {campaignId ownerId : String} {K : EvalCampaignContract} {claims : Claims} {facts : CampaignFacts}
  {trial : CampaignTrialPlan}

omit hF in
theorem holds_closeClaim {state : WorkClaimState} {finalEvent : Option (DateTime → Event)}
    {lost : String} (h : ∀ e ∈ finalEvent, ∀ t, F (e t)) :
    HoldsFacts F (closeClaim claims ownerId state finalEvent lost : EvalM Unit) := by
  refine asks_bind holds_now (fun t _ => ?_)
  have hfinal : ∀ e ∈ finalEvent.map (fun e => e t), F e := by
    intro e he
    obtain ⟨f, hf, rfl⟩ := Option.mem_map.mp he
    exact h f hf t
  refine asks_bind (holds_finishClaim hfinal) (fun closed _ => ?_)
  split
  · exact asks_pure trivial
  · exact asks_throw _

/-- A claim that is closed with a fact that is no plan. -/
theorem holds_closeWith {β : Type} {state : WorkClaimState} {e : DateTime → Event} {lost type : String}
    {b : β} (htype : type ∉ planTypes) (h : ∀ t, (e t).type = type) :
    HoldsFacts F (closeClaim claims ownerId state (some e) lost >>= fun _ => (pure b : EvalM β)) := by
  refine holds_then (holds_closeClaim (fun f hf t => hF _ ?_))
  obtain rfl := Option.some.inj hf
  rw [h t]
  exact htype

omit hF in
theorem holds_giveBackClaim :
    HoldsFacts F (EvalCampaignService.giveBack claims ownerId : EvalM (Bool × Bool)) :=
  holds_then holds_giveBack

omit hF in
theorem holds_afterClaim {p : EvalM (Bool × α)} (h : HoldsFacts F p) :
    HoldsFacts F (afterClaim claims ownerId p) := by
  refine asks_bind (holds_attempt h) (fun done _ => ?_)
  split
  · exact asks_pure trivial
  · exact holds_then holds_giveBack
  · exact asks_bind holds_giveBack (fun _ _ => asks_throw _)

theorem holds_bindScope (pair : PairedEvalContract) :
    HoldsFacts F (S.bindScope campaignId pair : EvalM (String × Event)) := by
  refine asks_bind (holds_ofResult _) (fun scope _ => ?_)
  refine asks_bind (holds_events _ _) (fun existing _ => holds_then ?_)
  unfold bindAmong
  split
  · exact holds_typed hF (by decide) (fun _ => rfl)
  · split
    · exact asks_pure trivial
    · exact asks_throw _
  · exact asks_throw _

theorem holds_observeTrial (report : PairedEvalReport) :
    HoldsFacts F (S.observeTrial campaignId claims ownerId trial report : EvalM (Bool × Bool)) := by
  have hobservation : HoldsThen F (fun e => ∀ t, (e t).type = "eval.campaign.trial.observed")
      (S.observationEvent campaignId trial report : EvalM (DateTime → Event)) := by
    unfold observationEvent
    split
    · exact asks_throw _
    refine asks_bind (holds_events _ _) (fun completions _ => ?_)
    split
    swap
    · exact asks_throw _
    refine asks_bind (holds_ofResult _) (fun _ _ => asks_bind (holds_events _ _) (fun scopes _ => ?_))
    refine holds_result (fun e he => ?_)
    unfold observationOf at he
    obtain ⟨scope, -, he⟩ := bind_ok_iff.mp he
    obtain ⟨bound, -, he⟩ := bind_ok_iff.mp he
    obtain rfl := Except.ok.inj he
    exact fun _ => rfl
  exact asks_bind hobservation (fun e he => holds_closeWith hF (by decide) he)

omit hF in
theorem holds_stage {β : Type} {name : String} {p : EvalM α} {post : α → Prop}
    {next : α → EvalM (Except (String × RuntimeError) β)} (h : HoldsThen F post p)
    (hnext : ∀ a, post a → HoldsFacts F (next a)) : HoldsFacts F (stage name p next) := by
  refine asks_bind (holds_attempt h) (fun done hdone => ?_)
  split
  next a => exact hnext a (hdone a rfl)
  next => exact asks_pure trivial

omit hF in
theorem creationFailure_type (stage : String) (exc : RuntimeError) (t : DateTime) :
    (creationFailure campaignId facts trial stage exc t).type ∉ planTypes := by
  simp only [creationFailure, event]
  split <;> decide

/-- What the runtime does with the pairs of a campaign keeps the property. -/
structure Keeps (F : Event → Prop) (callbacks : CampaignCallbacks evalInterface) : Prop where
  pairContract : ∀ evalId, HoldsFacts F (callbacks.pairContract evalId)
  releasePair : ∀ evalId, HoldsFacts F (callbacks.releasePair evalId)
  pairReport : ∀ evalId, HoldsFacts F (callbacks.pairReport evalId)

variable (hk : Keeps F callbacks)
include hk

theorem holds_createTrial (hcreate : ∀ q, S.childRequest K trial = .ok q →
    HoldsFacts F (callbacks.createPair q)) :
    HoldsFacts F (S.createTrial callbacks K campaignId claims ownerId facts trial) := by
  refine asks_bind (holds_result (fun q hq => hq)) (fun q hq => ?_)
  have hbound : HoldsFacts F (S.createBound callbacks campaignId trial q) := by
    refine holds_stage (hcreate q hq) (fun pair _ => ?_)
    have hidentity : HoldsFacts F (validateIdentity callbacks trial pair) := by
      unfold validateIdentity
      split
      · exact asks_throw _
      refine asks_bind (hk.pairContract _) (fun child _ => ?_)
      split
      · exact asks_throw _
      · split
        · exact asks_throw _
        · exact asks_pure trivial
    refine holds_stage hidentity (fun child _ => ?_)
    have hcommit : HoldsFacts F (validateCommit trial child : EvalM Unit) := by
      refine asks_bind (holds_events _ _) (fun commits _ => ?_)
      split
      · split
        · exact asks_pure trivial
        · exact asks_throw _
      · exact asks_throw _
    refine holds_stage hcommit (fun _ _ => holds_stage (holds_bindScope hF _) (fun bound _ => ?_))
    exact asks_pure trivial
  refine asks_bind hbound (fun done _ => ?_)
  split
  · refine holds_then (holds_closeClaim (fun e he t => hF _ ?_))
    obtain rfl := Option.some.inj he
    exact creationFailure_type _ _ _
  · exact holds_closeWith hF (by decide) (fun _ => rfl)

theorem holds_advanceFrom (hcreate : ∀ trial q, S.childRequest K trial = .ok q →
    HoldsFacts F (callbacks.createPair q)) :
    HoldsFacts F (S.advanceFrom callbacks K campaignId claims ownerId facts) := by
  have hstart : HoldsFacts F (startNext K campaignId claims ownerId facts : EvalM (Bool × Bool)) := by
    unfold startNext
    split
    · exact holds_giveBackClaim
    split
    · exact holds_giveBackClaim
    · exact holds_closeWith hF (by decide) (fun _ => rfl)
  have hcreateOrStart : HoldsFacts F (S.createOrStart callbacks K campaignId claims ownerId facts) := by
    unfold createOrStart
    split
    next trial _ => exact holds_createTrial hF hk (hcreate trial)
    next => exact hstart
  have hfirst : ∀ trials, HoldsFacts F (firstCompleted callbacks trials) := by
    intro trials
    induction trials with
    | nil => exact asks_pure trivial
    | cons trial trials ih =>
        refine asks_bind (hk.pairReport _) (fun report _ => ?_)
        split
        · exact asks_pure trivial
        · exact ih
  unfold advanceFrom
  split
  · refine asks_bind (hk.releasePair _) (fun _ _ => ?_)
    exact holds_closeWith hF (by decide) (fun _ => rfl)
  · refine asks_bind (hfirst _) (fun completed _ => ?_)
    split
    · exact holds_observeTrial hF _
    · exact hcreateOrStart

/-- An advance keeps the property, when the pairs that its contract asks for are created so. -/
theorem holds_advanceOne (hcreate : ∀ e K trial q, F e → e.type = "eval.campaign.created" →
    e.runId = campaignId →
    (eventItem e "contract").bind (EvalCampaignContract.validate S.codec) = .ok K →
    S.childRequest K trial = .ok q → HoldsFacts F (callbacks.createPair q)) :
    HoldsFacts F (S.advanceOne callbacks campaignId) := by
  have hcontract : HoldsThen F (fun K => ∀ trial q, S.childRequest K trial = .ok q →
      HoldsFacts F (callbacks.createPair q)) (S.contract campaignId : EvalM EvalCampaignContract) := by
    refine asks_bind (holds_events _ _) (fun existing hexisting => ?_)
    split
    next e =>
      obtain ⟨hfact, htype, hrun⟩ := hexisting e List.mem_cons_self
      exact holds_result (fun K hK trial q hq => hcreate e K trial q hfact htype hrun hK hq)
    next => exact asks_throw _
  refine asks_bind hcontract (fun K hK => asks_bind holds_uuid (fun drawn _ => ?_))
  refine asks_bind holds_now (fun t _ => asks_bind holds_claimWork (fun claimed _ => ?_))
  split
  · exact asks_pure trivial
  · refine holds_afterClaim (asks_bind (holds_readAll _) (fun log _ => ?_))
    split
    · exact holds_giveBackClaim
    · exact asks_bind (holds_ofResult _) (fun facts _ => holds_advanceFrom hF hk hK)

omit hk in
/-- A creation keeps the property, when the contract it commits has it. -/
theorem holds_createCampaign {request : EvalCampaignRequest}
    (hcontract : ∀ K cause t, S.buildContract (campaignIdOf request.requestId.1) request = .ok K →
      F (event (campaignIdOf request.requestId.1) "created" "eval.campaign.created"
        [("contract", K.dump S.codec)] cause t)) :
    HoldsFacts F (S.create request : EvalM EvalCampaignCreated) := by
  refine asks_bind holds_uuid (fun drawn _ => asks_bind holds_now (fun t _ => ?_))
  refine asks_bind holds_claimWork (fun claimed _ => ?_)
  split
  · exact asks_throw _
  refine holds_afterClaim (asks_bind (holds_events _ _) (fun asked _ => ?_))
  have hrequest : ∀ payload, HoldsFacts F
      (requestAmong (campaignIdOf request.requestId.1) payload asked : EvalM Event) := by
    intro payload
    unfold requestAmong
    split
    · exact holds_typed hF (by decide) (fun _ => rfl)
    · split
      · exact asks_pure trivial
      · exact asks_throw _
    · exact asks_throw _
  refine asks_bind (hrequest _) (fun requested _ => asks_bind (holds_events _ _) (fun existing _ => ?_))
  unfold createRequested
  split
  · refine asks_bind (holds_result (fun K hK => hK)) (fun K hK => holds_then (holds_closeClaim ?_))
    intro e he t'
    obtain rfl := Option.some.inj he
    exact hcontract K _ _ hK
  · refine asks_bind (holds_ofResult _) (fun K _ => holds_then (holds_closeClaim ?_))
    exact fun e he => absurd he (Option.not_mem_none e)
  · exact asks_throw _

end EvalCampaignService

/-! ### The runtime -/

namespace EvalRuntime

open PairedEvalService

variable {R : EvalRuntime} {q : PairedEvalRequest}

/-- The facts with which a pair of this request is planned have the property. -/
structure PlansHold (F : Event → Prop) (R : EvalRuntime) (q : PairedEvalRequest) : Prop where
  requested : ∀ t, F (event (pairedEvalId q.requestId) "requested" "eval.pair.requested"
    [("request", .dict (q.dump R.codec))] none t)
  created : ∀ single prepared t,
    F (R.runCreatedEvent q single (armIdentity (pairedEvalId q.requestId) single) prepared t)

theorem holds_releasePreparedTask (single : Bool) (runId : String) :
    HoldsFacts F (resident (releasePreparedTask single runId)) := by
  apply holds_resident
  refine asks_bind (writes_readAll _) (fun events _ => ?_)
  have htrigger : Writes F (releaseTrigger single runId events) := by
    unfold releaseTrigger
    split
    · refine asks_bind (writes_firstOrStop _ _) (fun created _ => ?_)
      refine asks_bind (writes_required _ _) (fun taskPack _ => ?_)
      split
      · exact asks_throw _
      · exact asks_pure trivial
    · exact asks_pure trivial
  refine asks_bind htrigger (fun trigger _ => ?_)
  unfold deliverTrigger
  split
  · refine writes_then (asks_bind (writes_ofLog _) (fun existing _ => ?_))
    unfold DurableMailbox.sendNew
    split
    · split
      · exact asks_pure trivial
      · exact asks_throw _
    · exact writes_then (writes_append (fun t => hF _ (by decide :
        "mailbox.delivery.sent" ∉ planTypes)))
  · exact asks_throw _

theorem holds_cancelRun (i : ℕ) (runId reason : String) :
    HoldsFacts F (resident (cancelRun i runId reason)) := by
  refine holds_resident (writesThen_mono (ends_cancelRun i runId reason) (fun e he => hF e ?_))
  have hall : ∀ type ∈ endTypes, type ∉ planTypes := by decide
  exact hall e.type he

theorem holds_prepareArm {single : Bool} {identity : EvalRunIdentity}
    (hcreated : ∀ prepared t, F (R.runCreatedEvent q single identity prepared t)) :
    HoldsFacts F (R.prepareArm q single identity) := by
  have hnone : ∀ e ∈ (none : Option Event), F e := fun e he => absurd he (Option.not_mem_none e)
  have hkey : HoldsFacts F (requireKey q) := by
    unfold requireKey
    split
    · refine ⟨hnone, fun known _ => ?_⟩
      cases known with
      | true => exact fun _ _ => trivial
      | false => exact fun _ _ => trivial
    · exact asks_pure trivial
  have hfiles : HoldsFacts F (prepareFiles identity.runId) := by
    have hprepared : HoldsFacts F (@outside evalInterface (.prepareWorkspace identity.runId) :
        EvalM PreparedRepoWorkspace) := ⟨hnone, fun _ _ _ _ => trivial⟩
    exact asks_bind hprepared (fun prepared _ => holds_then (holds_step _ rfl rfl))
  refine asks_bind hkey (fun _ _ => asks_bind hfiles (fun prepared _ => ?_))
  refine asks_bind (holds_append (hcreated prepared)) (fun created _ => holds_then ?_)
  cases single with
  | true => exact holds_typed hF (by decide) (fun _ => rfl)
  | false => exact holds_typed hF (by decide) (fun _ => rfl)

theorem holds_createPairedEval {releaseArms : Option Bool}
    (h : PlansHold F R (heldRequest q releaseArms)) (recovering : Bool) :
    HoldsFacts F (R.createPairedEval q recovering releaseArms) := by
  have hk : PairedEvalService.Keeps F R.pairs (R.pairCallbacks (heldRequest q releaseArms))
      (pairedEvalId (heldRequest q releaseArms).requestId) := by
    refine ⟨holds_step _ rfl rfl, holds_step _ rfl rfl, fun _ => holds_step _ rfl rfl, ?_, ?_, ?_⟩
    · exact fun single => holds_prepareArm hF (h.created single)
    · exact fun single identity => holds_releasePreparedTask hF single identity.runId
    · intro cancel hcancel runId
      obtain rfl := Option.some.inj hcancel
      exact holds_then (holds_cancelRun hF _ _ _)
  exact holds_create hF hk rfl h.requested _ _

omit hF in
theorem heldRequest_modelBudget (releaseArms : Option Bool) :
    (heldRequest q releaseArms).modelBudget = q.modelBudget := by
  unfold heldRequest
  split <;> rfl

/-- A recovery keeps the property, when the pairs of the persisted requests are planned so. -/
theorem holds_recoverPairs (h : ∀ e q, F e → e.type = "eval.pair.requested" →
    (eventItem e "request").bind (PairedEvalRequest.validate R.codec) = .ok q → PlansHold F R q) :
    HoldsFacts F R.recoverPairs := by
  refine asks_bind (holds_readAll none) (fun log hlog => ?_)
  refine asks_bind (holds_result (fun requests hrequests => hrequests)) (fun requests hrequests => ?_)
  refine holds_each (fun entry hentry => ?_)
  obtain ⟨e, he, htype, hdecode⟩ := persistedRequests_spec hrequests hentry
  have hplans : PlansHold F R entry.2 := h e entry.2 (hlog e he).1 htype hdecode
  refine holds_then (holds_recoverOne hF (holds_then (holds_createPairedEval hF ?_ true)))
  exact hplans

theorem campaignCallbacks_keep : EvalCampaignService.Keeps F R.campaignCallbacks where
  pairContract _ := holds_contract
  releasePair evalId :=
    holds_then (holds_release hF (fun single identity => holds_releasePreparedTask hF single _))
  pairReport evalId := by
    refine asks_bind (holds_events _ _) (fun persisted _ => ?_)
    have hstatus : ∀ arm, HoldsFacts F (armStatus arm : EvalM String) := by
      intro arm
      refine asks_bind (holds_call rfl) (fun run _ => ?_)
      split
      · exact asks_throw _
      · exact asks_pure trivial
    split
    · exact holds_ofResult _
    · refine asks_bind holds_contract (fun c _ => asks_bind (hstatus _) (fun single _ => ?_))
      exact holds_then (hstatus _)
    · exact asks_throw _

theorem holds_createCampaignPair (h : PlansHold F R (heldRequest q (some false))) :
    HoldsFacts F (R.createCampaignPair q) :=
  asks_bind (holds_readAll _) (fun _ _ => holds_createPairedEval hF h _)

end EvalRuntime

/-- A creation of a campaign keeps the property, when the contract it commits has it. -/
theorem holds_createEvalCampaign {S : EvalCampaignService} {request : EvalCampaignRequest}
    (hcontract : ∀ K cause t, S.buildContract (campaignIdOf request.requestId.1) request = .ok K →
      F (EvalCampaignService.event (campaignIdOf request.requestId.1) "created" "eval.campaign.created"
        [("contract", K.dump S.codec)] cause t)) :
    HoldsFacts F (createEvalCampaign S request) := by
  have hcreate : HoldsFacts F (S.create request : EvalM EvalCampaignCreated) :=
    EvalCampaignService.holds_createCampaign hF hcontract
  have hknown : HoldsFacts F (requireContract S (campaignIdOf request.requestId.1)) := by
    refine asks_handle (holds_then (asks_bind (PairedEvalService.holds_events _ _) (fun existing _ => ?_)))
      (fun e => ?_)
    · split
      · exact holds_ofResult _
      · exact asks_throw _
    · split <;> exact asks_throw _
  unfold createEvalCampaign
  split
  swap
  · exact hcreate
  refine ⟨fun e he => absurd he (Option.not_mem_none e), fun known _ => ?_⟩
  cases known with
  | true => exact hcreate
  | false => exact asks_bind hknown (fun _ _ => hcreate)

end plans

end CrazyHarness
