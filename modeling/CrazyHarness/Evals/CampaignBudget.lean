import CrazyHarness.Agents.Coverage
import CrazyHarness.Evals.Facts

/-! # The cap of a campaign

A campaign is accepted when `2 * N * p ≤ C` for its `N` trials, the cost `p` of an arm and the cap
`C`, in dollars.  An arm is held to its own budget in whole microdollars, and a fraction of one is
rounded up for each arm.

* `kept_of_reachable`: in every execution each arm stays within the limits of its own budget, unless
  a failed call is charged again beyond what is left or somebody else plans an arm.
* `campaign_within_cap`: so the arms together stay within the cap, if it covers the rounded costs.
* `rounded_arms_exceed_cap`: a cap that an accepted request may have does not. -/

namespace CrazyHarness

open Lib RuntimeM

/-! ### The steps of a campaign and of its model calls -/

/-- The steps of evaluations, and those of the authority of model calls. -/
abbrev spendingInterface : Interface := (withStore evalInterface).beside governedInterface

/-- Code of an evaluation. -/
def evaluation {α : Type} (p : EvalM α) : Program spendingInterface Unit :=
  (Program.left p).bind (fun _ => .done ())

/-- Code of the authority. -/
def spending {α : Type} (p : AuthorityM α) : Program spendingInterface Unit :=
  (Program.right p).bind (fun _ => .done ())

/-- The world with a changed database. -/
def ResidentWorld.withDatabase (w : ResidentWorld) (db : Database) : ResidentWorld :=
  { w with store := { w.store with db := db } }

/-- What each step replies and does. -/
def spendingStep (w : ResidentWorld) :
    (op : spendingInterface.Op) → spendingInterface.Reply op → ResidentWorld → Prop
  | .inl op, r, w' => evalWorldStep w op r w'
  | .inr op, r, w' => ∃ c : CallWorld, sharedStep { db := w.store.db } (.completing, op) r c ∧
      w' = w.withDatabase c.db

/-- The usage that is reconciled stays within the reservation of its call. -/
def UsageReserved (db : Database) : spendingInterface.Op → Prop
  | .inr (.reconcileCall callId _ usage cost) => ∀ r ∈ db.modelCalls.lookup callId,
      usage.totalTokens ≤ r.reservedTokens ∧ cost ≤ r.reservedCostMicrousd
  | _ => True

/-- A failed call of the run is charged again only if there is still room for it. -/
def RechargeFits (limits : ModelLimits) (runId : String) (db : Database) :
    spendingInterface.Op → Prop
  | .inr (.failCall callId uncertain _ _) => ∀ r ∈ db.modelCalls.lookup callId, r.runId = runId →
      r.state = .failed → uncertain = true →
        db.HasRoom limits runId r.reservedTokens r.reservedCostMicrousd
  | .inr (.reconcileCall callId completionEventId usage cost) =>
      ∀ r ∈ db.modelCalls.lookup callId, r.runId = runId → r.state = .failed →
        db.CompletionFree callId completionEventId →
          db.HasRoom limits runId usage.totalTokens cost
  | _ => True

/-! ### The arms of a campaign -/

section campaign

variable (C : EvalCodec) (request : EvalCampaignRequest)

/-- The pairs of the trials. -/
def trialEvalIds : List String :=
  (List.range' 1 request.trialCount).map (fun index =>
    pairedEvalId (childRequestId (campaignIdOf request.requestId.1) index))

/-- The runs of both arms of all trials. -/
def armRuns : List String :=
  (trialEvalIds request).flatMap (fun evalId =>
    [(armIdentity evalId true).runId, (armIdentity evalId false).runId])

/-- The fact plans the arms of the campaign with the budget that was asked for, or does not plan them
at all. -/
structure PlansArms (e : Event) : Prop where
  run : e.type = "run.created" → e.runId ∈ armRuns request →
    e.get? "model_budget" = some (.dict (C.dumpBudget request.modelBudget))
  pair : e.type = "eval.pair.requested" → ∀ q : PairedEvalRequest,
    (eventItem e "request").bind (PairedEvalRequest.validate C) = .ok q →
      pairedEvalId q.requestId ∈ trialEvalIds request → q.modelBudget = request.modelBudget
  campaign : e.type = "eval.campaign.created" → e.runId = campaignIdOf request.requestId.1 →
    ∀ K, (eventItem e "contract").bind (EvalCampaignContract.validate C) = .ok K →
      K.pairModelBudget = C.dumpBudget request.modelBudget

/-- What else may happen: others write `allowed` facts, and old calls are swept. -/
def othersSpend (allowed : Event → Prop) (w w' : ResidentWorld) : Prop :=
  (Elsewhere allowed w w' ∧ w'.store.db.modelCalls = w.store.db.modelCalls) ∨
    ∃ runId staleBefore now counts db,
      w.store.db.recoverStaleModelCalls runId staleBefore now = .ok (counts, db) ∧
        w' = w.withDatabase db

/-- The campaign is created and advanced, pairs are recovered, model calls are made, recovered and
reconciled, and any number of all these run at once; the usage that is reconciled was reserved.
Others write what they like. -/
def campaignRules : PoolRules spendingInterface Unit ResidentWorld where
  step w op r w' := spendingStep w op r w' ∧ UsageReserved w.store.db op
  starts w p w' := w' = w ∧
    ((∃ (R : EvalRuntime) (S : EvalCampaignService), R.codec = C ∧ S.codec = C ∧
        (p = evaluation (createEvalCampaign S request) ∨
          p = evaluation (R.advanceCampaign S (campaignIdOf request.requestId.1)) ∨
          p = evaluation R.recoverPairs)) ∨
      ∃ (A : Authority) (asked completion : Event), A.validateBudget = C.validateBudget ∧
        (p = spending (A.complete asked) ∨ p = spending (recoverUnresolved asked) ∨
          p = spending (reconcile asked completion)))
  env := othersSpend (fun _ => True)

/-- As long as no failed call of an arm is charged again without room for it, and nobody else plans
an arm with another budget. -/
def thriftyRules : PoolRules spendingInterface Unit ResidentWorld :=
  { campaignRules C request with
    step := fun w op r w' => (spendingStep w op r w' ∧ UsageReserved w.store.db op) ∧
      ∀ runId ∈ armRuns request, RechargeFits request.modelBudget.limits runId w.store.db op
    env := othersSpend (PlansArms C request) }

end campaign

/-! ### The store leaves the calls alone -/

namespace Database

variable {db db' : Database}

theorem updateClaims_modelCalls (db : Database) (ownerId : String) (f : WorkClaimRow → WorkClaimRow)
    (hf : ∀ r, (f r).claimKey = r.claimKey) (claims : Claims) :
    (db.updateClaims ownerId f hf claims).modelCalls = db.modelCalls := by
  induction claims generalizing db with
  | nil => rfl
  | cons claim claims ih =>
      obtain ⟨key, token⟩ := claim
      exact ih _

theorem takeKeys_modelCalls (db : Database) (ownerId : String) (now : DateTime) (ttlSeconds : ℤ)
    (keys : List String) : (db.takeKeys ownerId now ttlSeconds keys).2.modelCalls = db.modelCalls := by
  induction keys generalizing db with
  | nil => rfl
  | cons key keys ih => exact ih _

theorem claimWork_modelCalls {keys : List String} {ownerId : String} {ttlSeconds : ℤ} {now : DateTime}
    {runId : Option String} {claims : Option Claims}
    (h : db.claimWork keys ownerId ttlSeconds now runId = .ok (claims, db')) :
    db'.modelCalls = db.modelCalls := by
  unfold claimWork at h
  obtain ⟨_, -, h⟩ := bind_ok_iff.mp h
  obtain ⟨_, -, h⟩ := bind_ok_iff.mp h
  obtain ⟨_, -, h⟩ := bind_ok_iff.mp h
  obtain ⟨barrier, -, h⟩ := bind_ok_iff.mp h
  split at h
  · obtain ⟨-, rfl⟩ := Prod.mk.inj (Except.ok.inj h)
    rfl
  · obtain ⟨-, rfl⟩ := Prod.mk.inj (Except.ok.inj h)
    exact takeKeys_modelCalls _ _ _ _ _

theorem NewEvent.modelCalls {e : Event} (h : NewEvent db e db') : db'.modelCalls = db.modelCalls := by
  obtain ⟨hnew, hproject⟩ := h
  exact (onlyProjections_projectEvent hproject).modelCalls

theorem finishWorkClaims_modelCalls {claims : Claims} {ownerId : String} {state : WorkClaimState}
    {now : DateTime} {finalEvent : Option Event} {allowCancelledRun finished : Bool}
    (h : db.finishWorkClaims claims ownerId state now finalEvent allowCancelledRun =
      .ok (finished, db')) : db'.modelCalls = db.modelCalls := by
  unfold finishWorkClaims at h
  obtain ⟨_, -, h⟩ := bind_ok_iff.mp h
  obtain ⟨_, -, h⟩ := bind_ok_iff.mp h
  obtain ⟨_, -, h⟩ := bind_ok_iff.mp h
  split at h
  · obtain ⟨-, rfl⟩ := Prod.mk.inj (Except.ok.inj h)
    rfl
  split at h
  swap
  · obtain ⟨-, rfl⟩ := Prod.mk.inj (Except.ok.inj h)
    rfl
  obtain ⟨db₁, hfinal, h⟩ := bind_ok_iff.mp h
  obtain ⟨-, rfl⟩ := Prod.mk.inj (Except.ok.inj h)
  rw [updateClaims_modelCalls]
  cases finalEvent with
  | none => rw [← Except.ok.inj hfinal]
  | some e =>
      obtain ⟨⟨⟨stored, inserted⟩, db₂⟩, happend, hfinal⟩ := bind_ok_iff.mp hfinal
      rw [← Except.ok.inj hfinal]
      rcases appendInTransaction_cases happend with ⟨rfl, -⟩ | ⟨-, -, hnew⟩
      · rfl
      · exact hnew.modelCalls

theorem failWorkClaimBundle_modelCalls {claimKey : String} {now : DateTime} {count : ℕ}
    (h : db.failWorkClaimBundle claimKey now = .ok (count, db')) : db'.modelCalls = db.modelCalls := by
  unfold failWorkClaimBundle at h
  split at h
  · cases h
  split at h
  · obtain ⟨-, rfl⟩ := Prod.mk.inj (Except.ok.inj h)
    rfl
  split at h
  · obtain ⟨-, rfl⟩ := Prod.mk.inj (Except.ok.inj h)
    rfl
  · obtain ⟨-, rfl⟩ := Prod.mk.inj (Except.ok.inj h)
    rfl

end Database

theorem storeStep_modelCalls {w w' : StoreWorld} {op : StoreOp} {r : op.Reply}
    (h : storeStep w op r w') : w'.db.modelCalls = w.db.modelCalls := by
  have hsame : w' = w → w'.db.modelCalls = w.db.modelCalls := by
    rintro rfl
    rfl
  cases op with
  | now => exact hsame h.2
  | uuid4 =>
      obtain ⟨-, rfl⟩ := h
      rfl
  | readAll runId => exact hsame h.2
  | projection kind entityId => exact hsame h.2
  | snapshot runId => exact hsame h.2
  | activeWorkClaims => exact hsame h.2
  | append dispatch e =>
      obtain ⟨d, now, -, -, hout⟩ := h
      rcases StoreWorld.returns_cases hout with ⟨_, -, -, rfl⟩ | ⟨stored, db, happend, -, rfl⟩
      · rfl
      · exact append_modelCalls happend
  | claimWork claimKeys ownerId ttlSeconds now runId =>
      rcases StoreWorld.returns_cases h with ⟨_, -, -, rfl⟩ | ⟨claims, db, hclaim, -, rfl⟩
      · rfl
      · exact Database.claimWork_modelCalls hclaim
  | finishWorkClaims claims ownerId state finalEvent allowCancelledRun =>
      obtain ⟨now, -, hout⟩ := h
      rcases StoreWorld.returns_cases hout with ⟨_, -, -, rfl⟩ | ⟨finished, db, hfinish, -, rfl⟩
      · rfl
      · exact Database.finishWorkClaims_modelCalls hfinish
  | failWorkClaimBundle claimKey =>
      obtain ⟨now, -, hout⟩ := h
      rcases StoreWorld.returns_cases hout with ⟨_, -, -, rfl⟩ | ⟨count, db, hfail, -, rfl⟩
      · rfl
      · exact Database.failWorkClaimBundle_modelCalls hfail

theorem residentStep_modelCalls {w w' : ResidentWorld} {op : (withStore residentInterface).Op}
    {r : (withStore residentInterface).Reply op} (h : residentStep w op r w') :
    w'.store.db.modelCalls = w.store.db.modelCalls := by
  cases op with
  | inl op =>
      obtain ⟨s, hs, rfl⟩ := h
      exact storeStep_modelCalls hs
  | inr op =>
      cases op with
      | memory i op =>
          obtain ⟨-, rfl⟩ := h
          rfl
      | handle ownerId reservation =>
          obtain rfl := h
          rfl
      | outcome =>
          obtain rfl := h
          rfl
      | expire clock lease e =>
          obtain ⟨t, s, haware, hout, rfl⟩ := h
          exact @storeStep_modelCalls w.store s (.append none e) r
            ⟨none, t, DispatchContext.becomes_self none, haware, hout⟩

theorem evalWorldStep_modelCalls {w w' : ResidentWorld} {op : (withStore evalInterface).Op}
    {r : (withStore evalInterface).Reply op} (h : evalWorldStep w op r w') :
    w'.store.db.modelCalls = w.store.db.modelCalls := by
  have hsame : w' = w → w'.store.db.modelCalls = w.store.db.modelCalls := by
    rintro rfl
    rfl
  cases op with
  | inl op => exact @residentStep_modelCalls w w' (.inl op) r h
  | inr op =>
      cases op with
      | resident op => exact @residentStep_modelCalls w w' (.inr op) r h
      | _ => exact hsame h

/-! ### What a step of the authority does -/

/-- The transaction over the calls that a step of the authority makes. -/
def GovernedOp.callOp (now : DateTime) : GovernedOp → Option ModelCallOp
  | .reserve c limits => some (.reserve c limits now)
  | .startAttempt callId => some (.start callId now)
  | .failCall callId uncertain errorType errorMessage =>
      some (.fail callId uncertain errorType errorMessage now)
  | .reconcileCall callId completionEventId usage cost =>
      some (.reconcile callId completionEventId usage cost now)
  | .recoverStale runId staleBefore => some (.recover runId staleBefore now)
  | _ => none

/-- A step changes the calls by its transaction, appends its event, or changes nothing. -/
theorem sharedStep_cases {c c' : CallWorld} {op : GovernedOp} {r : governedInterface.Reply op}
    (h : sharedStep c (.completing, op) r c') :
    (∃ now callOp, op.callOp now = some callOp ∧ c'.db = callOp.apply c.db) ∨
      (∃ identity key type payload dispatch now stored, op = .record identity key type payload ∧
        c.db.append dispatch (GovernedWorld.auditEvent identity key type payload now) now =
          .ok (stored, c'.db)) ∨ c'.db = c.db := by
  have hcommits : ∀ {α : Type} {out : Except StoreError (α × Database)} {reply : Except StoreError α},
      c.Commits out reply c' →
        (∃ a, out = .ok (a, c'.db)) ∨ ((∃ e, out = .error e) ∧ c'.db = c.db) := by
    intro α out reply hout
    unfold CallWorld.Commits at hout
    split at hout
    next a db => exact .inl ⟨a, by rw [hout.2]⟩
    next e => exact .inr ⟨⟨e, rfl⟩, by rw [hout.2]⟩
  cases op with
  | reserve reservation limits =>
      obtain ⟨now, hout⟩ := h
      refine .inl ⟨now, _, rfl, ?_⟩
      rcases hcommits hout with ⟨a, hok⟩ | ⟨⟨e, herror⟩, hdb⟩
      · simp only [ModelCallOp.apply, hok]
      · simp only [ModelCallOp.apply, herror, hdb]
  | startAttempt callId =>
      obtain ⟨now, hout⟩ := h
      refine .inl ⟨now, _, rfl, ?_⟩
      rcases hcommits hout with ⟨a, hok⟩ | ⟨⟨e, herror⟩, hdb⟩
      · simp only [ModelCallOp.apply, hok]
      · simp only [ModelCallOp.apply, herror, hdb]
  | reconcileCall callId completionEventId usage cost =>
      obtain ⟨now, hout⟩ := h
      refine .inl ⟨now, _, rfl, ?_⟩
      rcases hcommits hout with ⟨a, hok⟩ | ⟨⟨e, herror⟩, hdb⟩
      · simp only [ModelCallOp.apply, hok]
      · simp only [ModelCallOp.apply, herror, hdb]
  | recoverStale runId staleBefore =>
      obtain ⟨now, hout⟩ := h
      refine .inl ⟨now, _, rfl, ?_⟩
      rcases hcommits hout with ⟨a, hok⟩ | ⟨⟨e, herror⟩, hdb⟩
      · simp only [ModelCallOp.apply, hok]
      · simp only [ModelCallOp.apply, herror, hdb]
  | failCall callId uncertain errorType errorMessage =>
      obtain ⟨now, hout⟩ := h
      refine .inl ⟨now, _, rfl, ?_⟩
      unfold CallWorld.Fails at hout
      unfold ModelCallOp.apply
      dsimp only
      cases hdb : c.db.failModelCall callId uncertain errorType errorMessage now with
      | ok db =>
          rw [hdb] at hout
          rw [hout.2]
      | error e =>
          rw [hdb] at hout
          rw [hout.2]
  | record identity key type payload =>
      obtain ⟨dispatch, now, hout⟩ := h
      unfold CallWorld.Audits at hout
      split at hout
      next stored db hdb =>
        refine .inr (.inl ⟨identity, key, type, payload, dispatch, now, stored, rfl, ?_⟩)
        rw [hdb, hout.2]
      next e hdb =>
        refine .inr (.inr ?_)
        rw [hout.2]
  | loop op => exact h.elim
  | projectRun runId => exact .inr (.inr (by rw [h.2]))
  | modelCall callId => exact .inr (.inr (by rw [h.2]))
  | now => exact .inr (.inr (by rw [h]))
  | beforeReserve => exact .inr (.inr (by rw [h]))
  | sleep index => exact .inr (.inr (by rw [h]))
  | provide asked => exact .inr (.inr (by rw [h]))

theorem recoverStale_sameLog {db db' : Database} {runId : String} {staleBefore now : DateTime}
    {counts : ℕ × ℕ} (h : db.recoverStaleModelCalls runId staleBefore now = .ok (counts, db')) :
    db.SameLog db' := by
  unfold Database.recoverStaleModelCalls at h
  split at h
  · cases h
  · obtain ⟨-, rfl⟩ := Prod.mk.inj (Except.ok.inj h)
    exact ⟨rfl, rfl, rfl, le_rfl⟩

/-- Such a transaction leaves the log and the projections alone. -/
theorem GovernedOp.callOp_sameLog {op : GovernedOp} {now : DateTime} {callOp : ModelCallOp}
    (h : op.callOp now = some callOp) (db : Database) : db.SameLog (callOp.apply db) := by
  cases op <;> cases h <;> unfold ModelCallOp.apply <;> dsimp only
  case reserve c limits =>
    split
    next row db' hout =>
      obtain ⟨-, -, -, hnew, rfl⟩ := Database.reserveModelCall_eq hout
      exact ⟨rfl, rfl, rfl, le_rfl⟩
    next => exact .refl db
  case startAttempt callId =>
    split
    next attempt db' hout =>
      unfold Database.startModelCallAttempt at hout
      split at hout
      · cases hout
      split at hout
      · obtain ⟨-, rfl⟩ := Prod.mk.inj (Except.ok.inj hout)
        exact ⟨rfl, rfl, rfl, le_rfl⟩
      · cases hout
    next => exact .refl db
  case failCall callId uncertain errorType errorMessage =>
    split
    next db' hout =>
      unfold Database.failModelCall at hout
      split at hout
      · cases hout
      split at hout
      · obtain rfl := Except.ok.inj hout
        exact .refl _
      · obtain rfl := Except.ok.inj hout
        exact ⟨rfl, rfl, rfl, le_rfl⟩
    next => exact .refl db
  case reconcileCall callId completionEventId usage cost =>
    split
    next changed db' hout =>
      unfold Database.reconcileModelCall at hout
      split at hout
      · cases hout
      split at hout
      · split at hout
        · obtain ⟨-, rfl⟩ := Prod.mk.inj (Except.ok.inj hout)
          exact .refl _
        · cases hout
      split at hout
      · cases hout
      · obtain ⟨-, rfl⟩ := Prod.mk.inj (Except.ok.inj hout)
        exact ⟨rfl, rfl, rfl, le_rfl⟩
    next => exact .refl db
  case recoverStale runId staleBefore =>
    split
    next counts db' hout => exact recoverStale_sameLog hout
    next => exact .refl db

section kept

variable {C : EvalCodec} {request : EvalCampaignRequest}

/-! ### The plans of the arms -/

/-- The facts plan the arms with the budget of the request, and the projections carry it. -/
structure ArmsPlanned (C : EvalCodec) (request : EvalCampaignRequest) (db : Database) : Prop where
  facts : ∀ e ∈ db.events.rows, PlansArms C request e
  budget : ∀ runId ∈ armRuns request, ∀ run, db.loadProjection "run" runId = some run →
    run.get? "model_budget" = some (.dict (C.dumpBudget request.modelBudget))

theorem plansArms_other {e : Event} (h : e.type ∉ planTypes) : PlansArms C request e := by
  simp only [planTypes, List.mem_cons, List.not_mem_nil, or_false, not_or] at h
  exact ⟨fun htype => absurd htype h.2.1, fun htype => absurd htype h.1,
    fun htype => absurd htype h.2.2⟩

/-- The model budget of a run is not touched again. -/
theorem modelBudget_runStep (e : Event) (run : Dict) :
    (runStep e run).get? "model_budget" = run.get? "model_budget" := by
  unfold runStep
  dsimp only
  split_ifs <;> simp [Dict.get?_cons, Dict.get?_set]

theorem ArmsPlanned.sameLog {db db' : Database} (hs : db.SameLog db') (h : ArmsPlanned C request db) :
    ArmsPlanned C request db' := by
  refine ⟨fun e he => h.facts e (hs.events ▸ he), fun runId harm run hrun => ?_⟩
  rw [hs.loadProjection] at hrun
  exact h.budget runId harm run hrun

theorem ArmsPlanned.newEvent {db db' : Database} {e : Event} (hnew : db.NewEvent e db')
    (he : PlansArms C request e) (h : ArmsPlanned C request db) : ArmsPlanned C request db' := by
  constructor
  · intro f hf
    rw [hnew.rows] at hf
    rcases List.mem_append.mp hf with hf | hf
    · exact h.facts f hf
    · rw [List.mem_singleton.mp hf]
      exact he
  · intro runId harm run hrun
    obtain ⟨r, hr, hload⟩ := hnew.run
    rw [hload] at hrun
    split at hrun
    swap
    · exact h.budget runId harm run hrun
    next heq =>
      subst heq
      rcases nextRun_cases hr with ⟨hold, -, rfl⟩ | ⟨old, count, hold, rfl⟩
      · rw [Option.none_or] at hrun
        exact h.budget _ harm run hrun
      · rw [Option.some_or] at hrun
        obtain rfl := Option.some.inj hrun
        rw [modelBudget_runStep, get?_runCounters _ _ _ _ (by decide)]
        rcases hold with hold | ⟨-, hcreated, rfl⟩
        · exact h.budget _ harm old hold
        · have hbudget := he.run hcreated harm
          rw [Event.get?] at hbudget
          simp [initialRun, Dict.get?_cons, Dict.getD, hbudget]

theorem ArmsPlanned.wrote {db db' : Database} {es : List Event} (hwrote : db.Wrote es db')
    (hes : ∀ e ∈ es, PlansArms C request e) (h : ArmsPlanned C request db) :
    ArmsPlanned C request db' :=
  hwrote.preserves (fun _ _ hs h => h.sameLog hs)
    (fun _ e _ hnew he h => h.newEvent hnew (hes e he)) h

/-! ### What the programs ask for -/

/-- What is read of the log plans the arms, and the projection of an arm carries its budget. -/
def RepliesPlanned (C : EvalCodec) (request : EvalCampaignRequest) :
    (op : spendingInterface.Op) → spendingInterface.Reply op → Prop
  | .inl op, r => ReadsFacts (PlansArms C request) op r
  | .inr (.projectRun runId), (r : Option Dict) => runId ∈ armRuns request → ∀ run ∈ r,
      run.get? "model_budget" = some (.dict (C.dumpBudget request.modelBudget))
  | .inr _, _ => True

/-- What is appended plans the arms, and a call of an arm is reserved against its own limits. -/
def AsksPlanned (C : EvalCodec) (request : EvalCampaignRequest) : spendingInterface.Op → Prop
  | .inl op => AppendsFacts (PlansArms C request) op
  | .inr (.reserve c limits) => c.runId ∈ armRuns request → limits = request.modelBudget.limits
  | .inr (.record _ _ type _) => type ∉ planTypes
  | .inr _ => True

/-- Code of the authority that asks for no more. -/
abbrev SparesPlans {α : Type} (C : EvalCodec) (request : EvalCampaignRequest) (p : AuthorityM α) :
    Prop :=
  Program.Asks (fun _ _ => True) (fun op => AsksPlanned C request (.inr op)) (fun _ => True) p

theorem spares_fail (callId : String) (uncertain : Bool) (errorType errorMessage : String) :
    SparesPlans C request (AuthorityM.fail callId uncertain errorType errorMessage) :=
  authority_store ⟨trivial, fun _ _ => trivial⟩

theorem spares_record {type : String} (htype : type ∉ planTypes) (identity : Event) (key : String)
    (payload : Dict) : SparesPlans C request (AuthorityM.record identity key type payload) :=
  ⟨htype, fun _ _ => trivial⟩

theorem spares_audited {type : String} (htype : type ∉ planTypes) (asked : Event) (key : String)
    (payload : Dict) (errorMessage : String) :
    SparesPlans C request (audited asked key type payload errorMessage) := by
  refine ⟨htype, ?_⟩
  rintro (exc | _) _
  · exact authority_bind (spares_fail _ _ _ _) (fun _ => trivial)
  · trivial

theorem spares_recoverUnresolved (asked : Event) :
    SparesPlans C request (recoverUnresolved asked) := by
  refine ⟨trivial, ?_⟩
  rintro (_ | row) _
  · trivial
  show SparesPlans C request (settleCall asked row)
  unfold settleCall
  split
  · refine authority_bind ?_ (fun _ => spares_record (by decide) _ _ _)
    split
    · exact spares_fail _ _ _ _
    · trivial
  · refine authority_bind ?_ (fun _ => authority_bind (spares_record (by decide) _ _ _)
      (fun _ => trivial))
    split
    · trivial
    · exact spares_fail _ _ _ _

theorem spares_reconcile (asked completion : Event) :
    SparesPlans C request (reconcile asked completion) := by
  refine ⟨trivial, ?_⟩
  rintro (_ | row) _
  · trivial
  have hrecord : ∀ payload, SparesPlans C request (recordUsage completion payload) := by
    intro payload
    refine ⟨(by decide : "model.usage.recorded" ∉ planTypes), ?_⟩
    rintro (exc | _) _
    · show SparesPlans C request
        (if exc.typeName = "WorkClaimLost" then Program.done (.ok ()) else .done (.error exc))
      split <;> trivial
    · trivial
  have hcharge : SparesPlans C request (chargeCall asked completion row) := by
    refine authority_bind trivial (fun reported => authority_bind trivial (fun price => ?_))
    refine authority_bind (authority_store ⟨trivial, fun _ _ => trivial⟩) (fun changed => ?_)
    exact authority_bind (hrecord _) (fun _ => trivial)
  exact hcharge

theorem spares_attempts (model : String) (asked : Event) (left index : ℕ) :
    SparesPlans C request (attempts model asked left index) := by
  induction left generalizing index with
  | zero => trivial
  | succ left ih =>
      refine authority_bind (authority_store ⟨trivial, fun _ _ => trivial⟩) (fun attempt => ?_)
      refine authority_bind (spares_audited (by decide) _ _ _ _) (fun _ => ⟨trivial, ?_⟩)
      rintro (error | response) _
      · show SparesPlans C request (if _ then _ else _ : AuthorityM ModelResponse)
        split
        · refine authority_bind (authority_bind (spares_record (by decide) _ _ _) (fun _ => ?_))
            (fun _ => ih _)
          exact ⟨trivial, fun _ _ => trivial⟩
        · refine authority_bind (spares_fail _ _ _ _) (fun _ => ?_)
          exact authority_bind (spares_record (by decide) _ _ _) (fun _ => trivial)
      · trivial

theorem spares_reserve (A : Authority) {budget : ModelBudgetConfig} (quote : CallQuote) {asked : Event}
    (h : asked.runId ∈ armRuns request → budget.limits = request.modelBudget.limits) :
    SparesPlans C request (A.reserve budget quote asked) := by
  refine authority_bind ?_ (fun _ => authority_bind (authority_store ⟨h, fun _ _ => trivial⟩)
    (fun _ => spares_audited (by decide) _ _ _ _))
  cases A.hasBeforeReserve with
  | true => exact ⟨trivial, fun _ _ => trivial⟩
  | false => trivial

/-- A call of an arm is reserved against the limits of the arm. -/
theorem spares_complete {A : Authority} (hA : A.validateBudget = C.validateBudget)
    (hbudget : C.validateBudget (.dict (C.dumpBudget request.modelBudget)) = .ok request.modelBudget)
    (hdump : C.dumpBudget request.modelBudget ≠ []) (asked : Event) :
    Program.Asks (fun op r => RepliesPlanned C request (.inr op) r)
      (fun op => AsksPlanned C request (.inr op)) (fun _ => True) (A.complete asked) := by
  refine ⟨trivial, fun (projected : Option Dict) hprojected => ?_⟩
  refine Program.Asks.fewer ?_ (fun _ _ _ => trivial)
  show SparesPlans C request (if (projected.getD []).getD "model_mode" (.str "scripted") ≠
    .str "deepseek" then provideFreely asked else _ : AuthorityM ModelResponse)
  split
  · refine ⟨trivial, ?_⟩
    rintro (error | response) _ <;> trivial
  next hmode =>
    have hfits : ∀ budget, A.validateBudget (budgetOf (projected.getD [])) = .ok budget →
        asked.runId ∈ armRuns request → budget.limits = request.modelBudget.limits := by
      intro budget hvalid harm
      cases projected with
      | none => exact absurd hmode (by decide)
      | some run =>
          have hrun := hprojected harm run rfl
          have hof : budgetOf run = .dict (C.dumpBudget request.modelBudget) := by
            have hget : run.getD "model_budget" .null = .dict (C.dumpBudget request.modelBudget) := by
              rw [Dict.getD, hrun]
              rfl
            rw [budgetOf, hget, if_pos]
            simpa [Json.truthy] using hdump
          rw [Option.getD_some, hof, hA, hbudget] at hvalid
          rw [Except.ok.inj hvalid]
    cases hvalid : A.validateBudget (budgetOf (projected.getD [])) with
    | error exc => trivial
    | ok budget =>
        refine ⟨trivial, fun now _ => ?_⟩
        refine authority_bind (authority_store ⟨trivial, fun _ _ => trivial⟩) (fun _ => ?_)
        refine authority_bind trivial (fun quote => ?_)
        exact authority_bind (spares_reserve A quote (hfits budget hvalid))
          (fun _ => spares_attempts _ _ _ _)

/-- A request is read back with the identifier and the budget it was written with. -/
theorem PairedEvalRequest.validate_dump {q q' : PairedEvalRequest}
    (h : PairedEvalRequest.validate C (.dict (q.dump C)) = .ok q') :
    q'.requestId = q.requestId ∧
      C.validateBudget (.dict (C.dumpBudget q.modelBudget)) = .ok q'.modelBudget := by
  have hsome : PairedEvalRequest.ofDict C (q.dump C) = some q' := by
    unfold PairedEvalRequest.validate validated at h
    split at h
    next a ha =>
      obtain rfl := Except.ok.inj h
      exact ha
    next => cases h
  unfold PairedEvalRequest.ofDict at hsome
  obtain ⟨requestId, hid, hsome⟩ := Option.bind_eq_some_iff.mp hsome
  iterate 4 obtain ⟨_, -, hsome⟩ := Option.bind_eq_some_iff.mp hsome
  obtain ⟨budget, hbudget, hsome⟩ := Option.bind_eq_some_iff.mp hsome
  iterate 3 obtain ⟨_, -, hsome⟩ := Option.bind_eq_some_iff.mp hsome
  obtain ⟨hmatch, hsome⟩ := Option.dite_none_right_eq_some.mp hsome
  obtain rfl := Option.some.inj hsome
  constructor
  · have hfield : requestId = q.requestId := by
      simpa [PairedEvalRequest.dump, Dict.field, Dict.get?_cons, Json.asStr] using hid.symm
    exact hfield
  · have hfield : (C.validateBudget (.dict (C.dumpBudget q.modelBudget))).toOption = some budget := by
      simpa [PairedEvalRequest.dump, Dict.field, Dict.get?_cons] using hbudget
    cases hvalid : C.validateBudget (.dict (C.dumpBudget q.modelBudget)) with
    | error e => rw [hvalid] at hfield; cases hfield
    | ok b => rw [hvalid] at hfield; rw [Option.some.inj hfield]

/-- A contract is read back with the budget it was written with. -/
theorem EvalCampaignContract.validate_dump {K K' : EvalCampaignContract}
    (h : EvalCampaignContract.validate C (K.dump C) = .ok K') :
    K'.pairModelBudget = K.pairModelBudget := by
  obtain ⟨parsed, hparsed, hchecked⟩ := bind_ok_iff.mp h
  obtain rfl : parsed = K' := by
    unfold EvalCampaignContract.checked at hchecked
    split at hchecked
    · cases hchecked
    · exact Except.ok.inj hchecked
  have hsome : EvalCampaignContract.ofJson C (K.dump C) = some parsed := by
    unfold validated at hparsed
    split at hparsed
    next a ha =>
      obtain rfl := Except.ok.inj hparsed
      exact ha
    next => cases hparsed
  unfold EvalCampaignContract.ofJson at hsome
  obtain ⟨d, hd, hsome⟩ := Option.bind_eq_some_iff.mp hsome
  iterate 11 obtain ⟨_, -, hsome⟩ := Option.bind_eq_some_iff.mp hsome
  obtain ⟨budget, hbudget, hsome⟩ := Option.bind_eq_some_iff.mp hsome
  iterate 3 obtain ⟨_, -, hsome⟩ := Option.bind_eq_some_iff.mp hsome
  obtain rfl := Option.some.inj hsome
  obtain rfl := Option.some.inj hd
  have hfield : K.pairModelBudget = budget := by
    simpa [Dict.field, Dict.get?_cons, Json.asDict] using hbudget
  exact hfield.symm

theorem mem_armRuns {evalId : String} {single : Bool}
    (h : (armIdentity evalId single).runId ∈ armRuns request) : evalId ∈ trialEvalIds request := by
  obtain ⟨trialId, htrial, hrun⟩ := List.mem_flatMap.mp h
  simp only [List.mem_cons, List.not_mem_nil, or_false] at hrun
  rcases hrun with hrun | hrun
  · rw [(armIdentity_runId_inj hrun).1]
    exact htrial
  · rw [(armIdentity_runId_inj hrun).1]
    exact htrial

/-! ### Every arm within its limits -/

/-- The arms are planned with their budget, and each is within its limits. -/
structure ArmsKept (C : EvalCodec) (request : EvalCampaignRequest) (w : ResidentWorld) : Prop where
  planned : ArmsPlanned C request w.store.db
  within : ∀ runId ∈ armRuns request, w.store.db.WithinLimits request.modelBudget.limits runId

theorem within_of_modelCalls {db db' : Database} {limits : ModelLimits} {runId : String}
    (h : db'.modelCalls = db.modelCalls) (hw : db.WithinLimits limits runId) :
    db'.WithinLimits limits runId := by
  rw [Database.withinLimits_iff] at hw ⊢
  intro b
  rw [Database.held, h]
  exact hw b

theorem replies_planned {w w' : ResidentWorld} (h : ArmsKept C request w) {op : spendingInterface.Op}
    {r : spendingInterface.Reply op} (hstep : spendingStep w op r w') :
    RepliesPlanned C request op r := by
  cases op with
  | inl op =>
      cases op with
      | inl op =>
          cases op with
          | readAll runId =>
              obtain ⟨s, ⟨hr, -⟩, -⟩ := hstep
              have hread : r = w.store.db.readAll runId := hr
              intro e he
              rw [hread] at he
              cases runId with
              | none => exact ⟨h.planned.facts e he, fun id hid => absurd hid (Option.not_mem_none id)⟩
              | some runId =>
                  obtain ⟨he, hrun⟩ := List.mem_filter.mp he
                  refine ⟨h.planned.facts e he, fun id hid => ?_⟩
                  rw [← Option.some.inj hid]
                  exact of_decide_eq_true hrun
          | append dispatch e =>
              exact @repliesFact_of_step w w' (.inl (.append dispatch e)) r hstep
          | _ => trivial
      | inr op =>
          cases op with
          | resident op => exact @repliesFact_of_step w w' (.inr op) r hstep
          | _ => trivial
  | inr op =>
      cases op with
      | projectRun runId =>
          obtain ⟨c, ⟨hr, -⟩, -⟩ := hstep
          have hread : r = w.store.db.loadProjection "run" runId := hr
          intro harm run hrun
          rw [hread] at hrun
          exact h.planned.budget runId harm run hrun
      | _ => trivial

/-- A reconciliation or a new charge of a failed call, as an operation on the calls. -/
theorem within_callOp {db : Database} {op : GovernedOp} {now : DateTime} {callOp : ModelCallOp}
    {limits : ModelLimits} {runId : String} (hop : op.callOp now = some callOp)
    (hreserve : ∀ c l, op = .reserve c l → c.runId = runId → l = limits)
    (husage : UsageReserved db (.inr op)) (hfits : RechargeFits limits runId db (.inr op))
    (hw : db.WithinLimits limits runId) : (callOp.apply db).WithinLimits limits runId := by
  have hgoverned : db.Governed limits runId callOp ∧ db.RevivalFits limits runId callOp := by
    cases op <;> cases hop
    case reserve c l => exact ⟨hreserve c l rfl, trivial⟩
    case startAttempt callId => exact ⟨trivial, trivial⟩
    case recoverStale r staleBefore => exact ⟨trivial, trivial⟩
    case failCall callId uncertain errorType errorMessage => exact ⟨trivial, hfits⟩
    case reconcileCall callId completionEventId usage cost =>
      exact ⟨fun r hr _ => husage r hr, hfits⟩
  exact (Database.withinLimits_apply_iff hw hgoverned.1).mpr hgoverned.2

theorem ArmsKept.spend {w : ResidentWorld} {op : GovernedOp} {c : CallWorld}
    {r : governedInterface.Reply op} (h : ArmsKept C request w)
    (hask : AsksPlanned C request (.inr op))
    (hstep : sharedStep { db := w.store.db } (.completing, op) r c)
    (husage : UsageReserved w.store.db (.inr op))
    (hfits : ∀ runId ∈ armRuns request,
      RechargeFits request.modelBudget.limits runId w.store.db (.inr op)) :
    ArmsKept C request (w.withDatabase c.db) := by
  rcases sharedStep_cases hstep with ⟨now, callOp, hop, hdb⟩ | hrecord | hdb
  · refine ⟨?_, fun runId harm => ?_⟩
    · show ArmsPlanned C request c.db
      rw [hdb]
      exact h.planned.sameLog (GovernedOp.callOp_sameLog hop _)
    · show c.db.WithinLimits _ _
      rw [hdb]
      refine within_callOp hop ?_ husage (hfits runId harm) (h.within runId harm)
      rintro reservation l rfl hrun
      exact hask (by rwa [hrun])
  · obtain ⟨identity, key, type, payload, dispatch, now, stored, rfl, happend⟩ := hrecord
    refine ⟨?_, fun runId harm => within_of_modelCalls (append_modelCalls happend) (h.within runId harm)⟩
    show ArmsPlanned C request c.db
    rcases Database.append_cases happend with ⟨hskip, -⟩ | ⟨-, hnew⟩
    · rw [hskip]
      exact h.planned.sameLog (Database.sameLog_skipSeq _)
    · exact h.planned.newEvent hnew (plansArms_other hask)
  · refine ⟨?_, fun runId harm => ?_⟩
    · show ArmsPlanned C request c.db
      rw [hdb]
      exact h.planned
    · show c.db.WithinLimits _ _
      rw [hdb]
      exact h.within runId harm

theorem ArmsKept.step {w w' : ResidentWorld} {op : spendingInterface.Op}
    {r : spendingInterface.Reply op} (h : ArmsKept C request w) (hask : AsksPlanned C request op)
    (hstep : (thriftyRules C request).step w op r w') : ArmsKept C request w' := by
  obtain ⟨⟨hstep, husage⟩, hfits⟩ := hstep
  cases op with
  | inl op =>
      obtain ⟨-, es, hes, hwrote⟩ := evalWorldStep_wrote hstep
      refine ⟨h.planned.wrote hwrote (fun e he => hask e ?_), fun runId harm =>
        within_of_modelCalls (evalWorldStep_modelCalls hstep) (h.within runId harm)⟩
      exact Option.mem_toList.mp (hes he)
  | inr op =>
      obtain ⟨c, hstep, rfl⟩ := hstep
      exact h.spend hask hstep husage hfits

theorem ArmsKept.others {w w' : ResidentWorld} (h : ArmsKept C request w)
    (hothers : othersSpend (PlansArms C request) w w') : ArmsKept C request w' := by
  rcases hothers with ⟨⟨-, ⟨es, hwrote, hes⟩, -⟩, hcalls⟩ | ⟨runId, staleBefore, now, counts, db, hdb, rfl⟩
  · exact ⟨h.planned.wrote hwrote hes, fun runId harm =>
      within_of_modelCalls hcalls (h.within runId harm)⟩
  · refine ⟨h.planned.sameLog (recoverStale_sameLog hdb), fun arm harm => ?_⟩
    exact Database.withinLimits_of_held_le (h.within arm harm) (Database.held_recover_le hdb)

/-! ### The programs of the campaign -/

variable {R : EvalRuntime} {S : EvalCampaignService}

theorem holds_campaign (hS : S.codec = C) :
    HoldsFacts (PlansArms C request) (createEvalCampaign S request) := by
  refine holds_createEvalCampaign (fun _ => plansArms_other) (fun K cause t hK => ?_)
  refine ⟨fun h => absurd h (by decide : "eval.campaign.created" ≠ "run.created"),
    fun h => absurd h (by decide : "eval.campaign.created" ≠ "eval.pair.requested"),
    fun _ _ K' hK' => ?_⟩
  rw [hS] at hK'
  rw [EvalCampaignContract.validate_dump hK']
  unfold EvalCampaignService.buildContract EvalCampaignContract.checked at hK
  split at hK
  · cases hK
  · rw [← Except.ok.inj hK, hS]

section budget

variable (hbudget :
  C.validateBudget (.dict (C.dumpBudget request.modelBudget)) = .ok request.modelBudget)

include hbudget

/-- A pair that is no trial, or has the budget of the request, is planned so. -/
theorem plansHold_of_budget (hR : R.codec = C) {q : PairedEvalRequest}
    (hq : pairedEvalId q.requestId ∈ trialEvalIds request → q.modelBudget = request.modelBudget) :
    EvalRuntime.PlansHold (PlansArms C request) R q := by
  subst hR
  constructor
  · intro t
    refine ⟨fun h => absurd h (by decide : "eval.pair.requested" ≠ "run.created"),
      fun _ q' hq' htrial => ?_,
      fun h => absurd h (by decide : "eval.pair.requested" ≠ "eval.campaign.created")⟩
    obtain ⟨hid, hvalid⟩ := PairedEvalRequest.validate_dump hq'
    rw [hid] at htrial
    rw [hq htrial, hbudget] at hvalid
    exact (Except.ok.inj hvalid).symm
  · intro single prepared t
    refine ⟨fun _ harm => ?_, fun h => absurd h (by decide : "run.created" ≠ "eval.pair.requested"),
      fun h => absurd h (by decide : "run.created" ≠ "eval.campaign.created")⟩
    have htrial : pairedEvalId q.requestId ∈ trialEvalIds request := mem_armRuns harm
    have hget : (R.runCreatedEvent q single (armIdentity (pairedEvalId q.requestId) single) prepared
        t).get? "model_budget" = some (.dict (R.codec.dumpBudget q.modelBudget)) := by
      simp [EvalRuntime.runCreatedEvent, EvalRuntime.runPayload, Event.get?, Dict.get?_cons]
    rw [hget, hq htrial]

theorem holds_recovery (hR : R.codec = C) : HoldsFacts (PlansArms C request) R.recoverPairs := by
  refine EvalRuntime.holds_recoverPairs (fun _ => plansArms_other) (fun e q he htype hdecode => ?_)
  rw [hR] at hdecode
  exact plansHold_of_budget hbudget hR (he.pair htype q hdecode)

theorem holds_advance (hR : R.codec = C) (hS : S.codec = C) :
    HoldsFacts (PlansArms C request) (R.advanceCampaign S (campaignIdOf request.requestId.1)) := by
  have hother : AboutPlans (PlansArms C request) := fun _ => plansArms_other
  refine EvalCampaignService.holds_advanceOne hother (EvalRuntime.campaignCallbacks_keep hother) ?_
  intro e K trial q he htype hrun hdecode hchild
  rw [hS] at hdecode
  have hK := he.campaign htype hrun K hdecode
  unfold EvalCampaignService.childRequest at hchild
  rw [hS, hK, hbudget] at hchild
  obtain rfl := Except.ok.inj hchild
  refine EvalRuntime.holds_createCampaignPair hother (plansHold_of_budget hbudget hR (fun _ => ?_))
  rw [EvalRuntime.heldRequest_modelBudget]

theorem starts_asks (hdump : C.dumpBudget request.modelBudget ≠ []) {w w' : ResidentWorld}
    {p : Program spendingInterface Unit} (h : (thriftyRules C request).starts w p w') :
    w' = w ∧ p.Asks (RepliesPlanned C request) (AsksPlanned C request) (fun _ => True) := by
  have hevaluation : ∀ {α : Type} {q : EvalM α}, HoldsFacts (PlansArms C request) q →
      (evaluation q).Asks (RepliesPlanned C request) (AsksPlanned C request) (fun _ => True) :=
    fun hq => Program.asks_bind (Program.asks_left hq) (fun _ _ => trivial)
  have hspending : ∀ {α : Type} {q : AuthorityM α}, SparesPlans C request q →
      (spending q).Asks (RepliesPlanned C request) (AsksPlanned C request) (fun _ => True) :=
    fun hq => Program.asks_bind (Program.asks_right (hq.fewer (fun _ _ _ => trivial)))
      (fun _ _ => trivial)
  obtain ⟨rfl, ⟨R, S, hR, hS, hp⟩ | ⟨A, asked, completion, hA, hp⟩⟩ := h
  · refine ⟨rfl, ?_⟩
    rcases hp with rfl | rfl | rfl
    · exact hevaluation (holds_campaign hS)
    · exact hevaluation (holds_advance hbudget hR hS)
    · exact hevaluation (holds_recovery hbudget hR)
  · refine ⟨rfl, ?_⟩
    rcases hp with rfl | rfl | rfl
    · exact Program.asks_bind (Program.asks_right (spares_complete hA hbudget hdump asked))
        (fun _ _ => trivial)
    · exact hspending (spares_recoverUnresolved asked)
    · exact hspending (spares_reconcile asked completion)

/-- In every execution each arm stays within the limits of its own budget. -/
theorem kept_of_reachable (hdump : C.dumpBudget request.modelBudget ≠ [])
    {P : Pool spendingInterface Unit ResidentWorld}
    (h : Pool.Reachable (thriftyRules C request) ⟨{ store := ⟨.initial, 0⟩ }, [], []⟩ P) :
    ArmsKept C request P.state := by
  refine @Pool.invariant_of_asks _ _ _ (thriftyRules C request) (RepliesPlanned C request)
    (AsksPlanned C request) (ArmsKept C request) _ _ ?_ ?_ ?_ ?_ ?_
    (fun p hp => absurd hp List.not_mem_nil) h
  · intro w op r w' hw hstep
    exact replies_planned hw hstep.1.1
  · exact fun w op r w' hw hask hstep => hw.step hask hstep
  · intro w p w' hw hstart
    obtain ⟨rfl, hasks⟩ := starts_asks hbudget hdump hstart
    exact ⟨hw, hasks⟩
  · exact fun w w' hw henv => hw.others henv
  · refine ⟨⟨fun e he => absurd he List.not_mem_nil, fun runId _ run hrun => ?_⟩,
      fun runId _ => Database.withinLimits_initial _ runId⟩
    cases hrun

end budget

end kept

/-! ### The arms together -/

/-- The tokens that all arms have committed. -/
def Database.armTokens (db : Database) (request : EvalCampaignRequest) : ℤ :=
  ((armRuns request).map (fun runId => (db.modelBudgetStatus runId).committedTokens)).sum

/-- The cost that all arms have committed, in microdollars. -/
def Database.armCost (db : Database) (request : EvalCampaignRequest) : ℤ :=
  ((armRuns request).map (fun runId => (db.modelBudgetStatus runId).committedCostMicrousd)).sum

/-- The arms together are within the cap of the campaign. -/
def Database.WithinCap (db : Database) (request : EvalCampaignRequest) : Prop :=
  db.armTokens request ≤ request.campaignMaxTotalTokens ∧
    (db.armCost request : ℚ) ≤ request.campaignMaxCostUsd * 1000000

instance (db : Database) (request : EvalCampaignRequest) : Decidable (db.WithinCap request) :=
  inferInstanceAs (Decidable (_ ∧ _))

theorem armRuns_length (request : EvalCampaignRequest) :
    (armRuns request).length = 2 * request.trialCount := by
  simp [armRuns, trialEvalIds, List.length_flatMap, Function.comp_def, mul_comm]

/-- What every arm keeps to, the arms keep to together. -/
theorem sum_arms_le {request : EvalCampaignRequest} {committed : String → ℤ} {limit : ℤ}
    (h : ∀ runId ∈ armRuns request, committed runId ≤ limit) :
    ((armRuns request).map committed).sum ≤ 2 * request.trialCount * limit := by
  have hle : ∀ c ∈ (armRuns request).map committed, c ≤ limit := by
    intro c hc
    obtain ⟨runId, harm, rfl⟩ := List.mem_map.mp hc
    exact h runId harm
  have hsum := List.sum_le_card_nsmul _ _ hle
  rw [List.length_map, armRuns_length, nsmul_eq_mul] at hsum
  push_cast at hsum
  exact hsum

/-- **The cap of a campaign.**  When the cap covers the costs of the arms in whole microdollars, the
arms together stay within it in every execution in which no failed call is charged again without room
for it and nobody else plans the arms. -/
theorem campaign_within_cap {C : EvalCodec} {request : EvalCampaignRequest}
    (hbudget : C.validateBudget (.dict (C.dumpBudget request.modelBudget)) = .ok request.modelBudget)
    (hdump : C.dumpBudget request.modelBudget ≠ [])
    (hroom : 2 * request.trialCount * (usdToMicrousd request.modelBudget.maxCostUsd : ℚ) ≤
      request.campaignMaxCostUsd * 1000000)
    {P : Pool spendingInterface Unit ResidentWorld}
    (h : Pool.Reachable (thriftyRules C request) ⟨{ store := ⟨.initial, 0⟩ }, [], []⟩ P) :
    P.state.store.db.WithinCap request := by
  have hkept := kept_of_reachable hbudget hdump h
  constructor
  · have htokens : P.state.store.db.armTokens request ≤
        2 * request.trialCount * request.modelBudget.maxTotalTokens :=
      sum_arms_le (fun runId harm => (hkept.within runId harm).1)
    exact htokens.trans request.tokens_cover
  · have hcost : P.state.store.db.armCost request ≤
        2 * request.trialCount * usdToMicrousd request.modelBudget.maxCostUsd :=
      sum_arms_le (fun runId harm => (hkept.within runId harm).2.1)
    have hcast : (P.state.store.db.armCost request : ℚ) ≤
        2 * request.trialCount * (usdToMicrousd request.modelBudget.maxCostUsd : ℚ) := by
      exact_mod_cast hcost
    exact hcast.trans hroom

/-! ### Two arms that round up -/

section rounding

/-- The limits of an arm: 1000.5 microdollars. -/
def halfMicroBudget : ModelBudgetConfig :=
  { defaultBudget with
    maxCostUsd := 10005 / 10000000
    maxOutputTokensPerCall := 72
    maxCostUsd_pos := by norm_num
    maxOutputTokensPerCall_ge := by decide
    maxOutputTokensPerCall_le := by decide }

theorem oneTrial_count : 1 ≤ 1 ∧ 1 ≤ 30 := by decide

theorem onePair_le : 1 ≤ 1 := le_rfl

/-- One trial of two such arms, with the cap that is given. -/
def oneTrial (cap : ℚ) (hpos : 0 < cap := by norm_num)
    (hcovers : requiredTotalCostUsd 1 (10005 / 10000000) ≤ cap := by decide +kernel) :
    EvalCampaignRequest where
  requestId := ⟨"request-1", by decide +kernel⟩
  title := ⟨"Clamp", by decide +kernel⟩
  brief := ⟨"Keep the value between its bounds.", by decide +kernel⟩
  modelMode := .deepseek
  trialCount := 1
  modelBudget := halfMicroBudget
  campaignMaxCostUsd := cap
  requestId_chars := by simp [RequestIdChar]
  trialCount_mem := oneTrial_count
  parallel_le := onePair_le
  campaignMaxCostUsd_pos := hpos
  tokens_cover := by decide
  cost_covers := hcovers

/-- A cap of twice the cost of an arm. -/
def exactCap : EvalCampaignRequest := oneTrial (2001 / 1000000)

/-- A cap that covers both arms in whole microdollars. -/
def roundedCap : EvalCampaignRequest := oneTrial (2002 / 1000000)

/-- The decimals of the two requests, and their texts. -/
def decimalTexts : List (ℚ × String) :=
  [(10005 / 10000000, "0.0010005"), (2001 / 1000000, "0.002001"), (2002 / 1000000, "0.002002")]

/-- A budget of four integers and a decimal, if they are in range. -/
def budgetFrom (maxTotalTokens : ℤ) (maxCostUsd : ℚ) (maxConcurrentCalls maxOutputTokensPerCall : ℤ)
    (maxRetriesPerCall : ℕ) : Option ModelBudgetConfig :=
  if h : 1 ≤ maxTotalTokens ∧ 0 < maxCostUsd ∧ 1 ≤ maxConcurrentCalls ∧ maxConcurrentCalls ≤ 64 ∧
      1 ≤ maxOutputTokensPerCall ∧ maxOutputTokensPerCall ≤ 384000 ∧ maxRetriesPerCall ≤ 5 then
    some
      { maxTotalTokens, maxCostUsd, maxConcurrentCalls, maxOutputTokensPerCall, maxRetriesPerCall
        maxTotalTokens_ge := h.1
        maxCostUsd_pos := h.2.1
        maxConcurrentCalls_ge := h.2.2.1
        maxConcurrentCalls_le := h.2.2.2.1
        maxOutputTokensPerCall_ge := h.2.2.2.2.1
        maxOutputTokensPerCall_le := h.2.2.2.2.2.1
        maxRetriesPerCall_le := h.2.2.2.2.2.2 }
  else none

/-- The text of a decimal of the two requests. -/
def textOfDecimal (q : ℚ) : String :=
  ((decimalTexts.find? (fun d => d.1 = q)).map Prod.snd).getD "0"

/-- The decimal of such a text. -/
def decimalOfText (v : Json) : Option ℚ :=
  v.asStr.bind (fun s => (decimalTexts.find? (fun d => d.2 = s)).map Prod.fst)

/-- `ModelBudgetConfig.model_dump(mode="json")`. -/
def dumpBudgetOf (b : ModelBudgetConfig) : Dict :=
  [("max_total_tokens", .int b.maxTotalTokens), ("max_cost_usd", .str (textOfDecimal b.maxCostUsd)),
    ("max_concurrent_calls", .int b.maxConcurrentCalls),
    ("max_output_tokens_per_call", .int b.maxOutputTokensPerCall),
    ("max_retries_per_call", .int b.maxRetriesPerCall)]

/-- `ModelBudgetConfig.model_validate`, of a value with all fields. -/
def readBudget (v : Json) : Option ModelBudgetConfig := do
  let d ← v.asDict
  let maxTotalTokens ← d.field "max_total_tokens" Json.pyInt
  let maxCostUsd ← d.field "max_cost_usd" decimalOfText
  let maxConcurrentCalls ← d.field "max_concurrent_calls" Json.pyInt
  let maxOutputTokensPerCall ← d.field "max_output_tokens_per_call" Json.pyInt
  let maxRetriesPerCall ← d.field "max_retries_per_call" Json.pyInt
  budgetFrom maxTotalTokens maxCostUsd maxConcurrentCalls maxOutputTokensPerCall
    maxRetriesPerCall.toNat

/-- The libraries, on what the two requests give them. -/
def trialCodec : EvalCodec where
  sha256 v :=
    let fields := v.asDict.getD []
    if fields.get? "fixture_hash" ≠ none then
      "ac3265a6914ea4a889f17ce4b5d1650bc9e751284b56fe2a7e5a4bd511d8c46b"
    else if fields.get? "campaign_max_cost_usd" = some (.str "0.002001") then
      "d1a162800263141d6abe06ad69699d806d1e1ae4092a3b0d7d0d38ad4867af20"
    else "7cf15c573012473095a8a8c08c739235116720bcc2e54c9102480571cc97bb61"
  decimalText := textOfDecimal
  decimalOf := decimalOfText
  dumpBudget := dumpBudgetOf
  validateBudget v :=
    match readBudget v with
    | some b => .ok b
    | none => .error ⟨"ValidationError", "validation error for ModelBudgetConfig"⟩

/-- A runtime for the two requests. -/
def trialRuntime : EvalRuntime where
  codec := trialCodec
  process := 0
  polls := 1
  fixtureHash := "d5fde054c77089694a31575462d47ddfba2cddc97bfeb977bf08631f40a51973"
  teamContract := []
  assignmentContract :=
    { goal := "Fix clamp", exitCriteria := ["tests pass"], outputSchema := [],
      version_pos := defaultVersion_pos }
  modelProfile _ := [("model", .str "deepseek-v4-flash")]
  supervisorPolicy := "verified-plan-v1"

/-- Its service for campaigns. -/
def trialService : EvalCampaignService where
  codec := trialCodec
  policy := []
  sample _ _ _ := []

/-- Its authority, with requests that cost 1001 microdollars. -/
def trialAuthority : Authority where
  provider := { className := "DeepSeekProvider" }
  validateBudget := trialCodec.validateBudget
  encodedLength _ := 6968

/-- The request of a turn of an arm. -/
def armAsked (request : EvalCampaignRequest) (single : Bool) : Event where
  id := "asked-" ++ modeOf single
  runId := (armIdentity (pairedEvalId (childRequestId (campaignIdOf request.requestId.1) 1)) single).runId
  taskId := "task-1"
  type := "model.requested"
  source := "scout"
  payload := []
  createdAt := Database.atSecond 0

/-- The clock stands still, every step succeeds, and the provider does not reply. -/
def spendingAct (clock : DateTime) (hclock : clock.utcOffset = some 0) :
    (op : spendingInterface.Op) → ResidentWorld → Option (spendingInterface.Reply op × ResidentWorld)
  | .inl (.inl op), w => (residentStrategy clock hclock).act (.inl op) w
  | .inl (.inr (.resident op)), w => (residentStrategy clock hclock).act (.inr op) w
  | .inl (.inr .apiKey), w => some ((true, w) : Bool × ResidentWorld)
  | .inl (.inr (.prepareWorkspace runId)), w =>
      some ((.ok ⟨"/runs/" ++ runId, "/baselines/" ++ runId⟩, w) :
        Except RuntimeError PreparedRepoWorkspace × ResidentWorld)
  | .inl (.inr (.checkWorkspace _)), w | .inl (.inr .ensureCurrent), w
  | .inl (.inr .stopHeartbeat), w | .inl (.inr (.injectFault _)), w =>
      some ((.ok (), w) : Except RuntimeError Unit × ResidentWorld)
  | .inr op, w => (patientAct clock (.completing, op) { db := w.store.db }).map
      (fun rc => (rc.1, w.withDatabase rc.2.db))

/-- The steps of such a run. -/
def spendingStrategy (clock : DateTime) (hclock : clock.utcOffset = some 0) :
    @Program.Strategy spendingInterface ResidentWorld spendingStep where
  act := spendingAct clock hclock
  sound := by
    intro op w r h
    cases op with
    | inl op =>
        cases op with
        | inl op => exact @Program.Strategy.sound _ _ _ (residentStrategy clock hclock) (.inl op) w r h
        | inr op =>
            cases op with
            | resident op =>
                exact @Program.Strategy.sound _ _ _ (residentStrategy clock hclock) (.inr op) w r h
            | _ =>
                cases h
                rfl
    | inr op =>
        obtain ⟨⟨reply, c⟩, hact, hr⟩ := Option.map_eq_some_iff.mp h
        obtain rfl := hr
        exact ⟨c, (patientStrategy clock).sound hact, rfl⟩

instance (db : Database) (op : spendingInterface.Op) : Decidable (UsageReserved db op) :=
  match op with
  | .inr (.reconcileCall callId _ _ _) =>
      inferInstanceAs (Decidable (∀ r ∈ db.modelCalls.lookup callId, _ ∧ _))
  | .inl _ | .inr (.loop _) | .inr (.projectRun _) | .inr .now | .inr (.modelCall _)
  | .inr (.recoverStale _ _) | .inr .beforeReserve | .inr (.reserve _ _) | .inr (.startAttempt _)
  | .inr (.failCall _ _ _ _) | .inr (.record _ _ _ _) | .inr (.provide _) | .inr (.sleep _) =>
      inferInstanceAs (Decidable True)

instance (limits : ModelLimits) (runId : String) (db : Database) (op : spendingInterface.Op) :
    Decidable (RechargeFits limits runId db op) :=
  match op with
  | .inr (.failCall callId _ _ _) =>
      inferInstanceAs (Decidable (∀ r ∈ db.modelCalls.lookup callId, _ → _ → _ → _))
  | .inr (.reconcileCall callId _ _ _) =>
      inferInstanceAs (Decidable (∀ r ∈ db.modelCalls.lookup callId, _ → _ → _ → _))
  | .inl _ | .inr (.loop _) | .inr (.projectRun _) | .inr .now | .inr (.modelCall _)
  | .inr (.recoverStale _ _) | .inr .beforeReserve | .inr (.reserve _ _) | .inr (.startAttempt _)
  | .inr (.record _ _ _ _) | .inr (.provide _) | .inr (.sleep _) =>
      inferInstanceAs (Decidable True)

/-- The campaign is created and advanced three times: its trial is started, its pair is created, and
the arms are released.  Then a call is made in each arm. -/
def trialThreads (request : EvalCampaignRequest) : List (Program spendingInterface Unit) :=
  evaluation (createEvalCampaign trialService request) ::
    List.replicate 3
      (evaluation (trialRuntime.advanceCampaign trialService (campaignIdOf request.requestId.1))) ++
    [true, false].map (fun single => spending (trialAuthority.complete (armAsked request single)))

/-- The number of steps that each of them takes. -/
def trialSchedule : List ℕ :=
  List.replicate 10 0 ++ List.replicate 7 1 ++ List.replicate 69 2 ++ List.replicate 27 3 ++
    List.replicate 7 4 ++ List.replicate 7 5

theorem atFirstSecond_utc : (Database.atSecond 1).utcOffset = some 0 := rfl

/-- The campaign up to where both providers are asked. -/
def trialServed (request : EvalCampaignRequest) : Pool spendingInterface Unit ResidentWorld :=
  @Pool.follow _ _ _ (thriftyRules trialCodec request)
    (((spendingStrategy (Database.atSecond 1) atFirstSecond_utc).restrict
      (fun w op => UsageReserved w.store.db op)).restrict (fun w op =>
        ∀ runId ∈ armRuns request, RechargeFits request.modelBudget.limits runId w.store.db op))
    ⟨{ store := ⟨.initial, 0⟩ }, trialThreads request, []⟩ trialSchedule

theorem trialServed_reachable (request : EvalCampaignRequest) :
    Pool.Reachable (thriftyRules trialCodec request) ⟨{ store := ⟨.initial, 0⟩ }, [], []⟩
      (trialServed request) := by
  have hstart : Pool.Reachable (thriftyRules trialCodec request) ⟨{ store := ⟨.initial, 0⟩ }, [], []⟩
      ⟨{ store := ⟨.initial, 0⟩ }, trialThreads request, []⟩ := by
    refine Pool.start_all ?_
    intro p hp
    refine ⟨rfl, ?_⟩
    simp only [trialThreads, List.mem_append, List.mem_cons, List.mem_replicate, List.mem_map] at hp
    rcases hp with (rfl | ⟨-, rfl⟩) | ⟨single, -, rfl⟩
    · exact .inl ⟨trialRuntime, trialService, rfl, rfl, .inl rfl⟩
    · exact .inl ⟨trialRuntime, trialService, rfl, rfl, .inr (.inl rfl)⟩
    · exact .inr ⟨trialAuthority, armAsked request single, armAsked request single, rfl, .inl rfl⟩
  exact hstart.trans (Pool.follow_reachable _ _ _)

/-- Each arm rounds its half microdollar up. -/
theorem rounded_arms_exceed_cap :
    Pool.Reachable (thriftyRules trialCodec exactCap) ⟨{ store := ⟨.initial, 0⟩ }, [], []⟩
        (trialServed exactCap) ∧
      ¬ (trialServed exactCap).state.store.db.WithinCap exactCap :=
  ⟨trialServed_reachable exactCap, by decide +kernel⟩

/-- The other fields are proofs. -/
instance : DecidableEq ModelBudgetConfig := fun a b =>
  decidable_of_iff
    (a.maxTotalTokens = b.maxTotalTokens ∧ a.maxCostUsd = b.maxCostUsd ∧
      a.maxConcurrentCalls = b.maxConcurrentCalls ∧
      a.maxOutputTokensPerCall = b.maxOutputTokensPerCall ∧ a.maxRetriesPerCall = b.maxRetriesPerCall)
    (by cases a; cases b; simp)

theorem trialCodec_reads : trialCodec.validateBudget (.dict (trialCodec.dumpBudget halfMicroBudget)) =
    .ok halfMicroBudget := by
  have hread : readBudget (.dict (dumpBudgetOf halfMicroBudget)) = some halfMicroBudget := by
    decide +kernel
  simp only [trialCodec, hread]

/-- A cap that covers the rounded costs of both arms is spent, and kept. -/
theorem rounded_cap_kept : (trialServed roundedCap).state.store.db.armCost roundedCap = 2002 ∧
    (trialServed roundedCap).state.store.db.WithinCap roundedCap :=
  ⟨by decide +kernel,
    campaign_within_cap trialCodec_reads (by decide) (by decide +kernel)
      (trialServed_reachable roundedCap)⟩

end rounding

end CrazyHarness
