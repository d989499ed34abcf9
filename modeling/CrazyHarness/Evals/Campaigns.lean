import CrazyHarness.Evals.Pairs

/-! # Campaigns

`EvalCampaignService` (`control_plane/eval_campaigns.py`) over the store: the creation of a campaign
and its advance by one boundary at a time.  Pairs are created, read and released by callbacks. -/

namespace CrazyHarness

open Lib RuntimeM

variable {X : Interface}

/-! ### The reports of pairs -/

/-- `PairedEvalArmReport`; score and trace as they are written. -/
structure PairedEvalArmReport where
  runId : String
  status : String
  score : Option Dict := none
  trace : Option Dict := none
deriving DecidableEq

/-- `PairedEvalReport`, with how it is written. -/
structure PairedEvalReport where
  evalId : String
  completed : Bool
  contract : PairedEvalContract
  single : PairedEvalArmReport
  team : PairedEvalArmReport
  evidenceValid : Bool := true
  invalidReasons : List String := []
  written : Json := .null

/-- `model_validate`. -/
def PairedEvalArmReport.ofJson (v : Json) : Option PairedEvalArmReport := do
  let d ← v.asDict
  let runId ← d.field "run_id" Json.asStr
  let status ← d.field "status" Json.asStr
  let score ← d.fieldD "score" (Json.nullable Json.asDict) none
  let trace ← d.fieldD "trace" (Json.nullable Json.asDict) none
  some { runId, status, score, trace }

/-- The fields of `model_validate`. -/
def PairedEvalReport.ofJson (v : Json) : Option PairedEvalReport := do
  let d ← v.asDict
  let evalId ← d.field "eval_id" Json.asStr
  let completed ← d.field "status" (choiceOf [true, false]
    (fun completed => if completed then "completed" else "running"))
  let contract ← d.field "contract" PairedEvalContract.ofJson
  let single ← d.field "single" PairedEvalArmReport.ofJson
  let team ← d.field "team" PairedEvalArmReport.ofJson
  let evidenceValid ← d.fieldD "evidence_valid" Json.laxBool true
  let invalidReasons ← d.fieldD "invalid_reasons" (Json.listOf Json.asStr) []
  if evidenceValid ↔ invalidReasons = [] then
    some { evalId, completed, contract, single, team, evidenceValid, invalidReasons, written := v }
  else none

namespace PairedEvalService

/-- `_arm_status`. -/
def armStatus (arm : PairedEvalArm) : RuntimeM X String := do
  let run ← projection "run" arm.runId
  match run with
  | none => throw (.runtimeError ("paired eval references a missing run: " ++ arm.runId))
  | some run => pure (run.getD "status" (.str "unknown")).pyStr

/-- `report`. -/
def report (evalId : String) : RuntimeM X PairedEvalReport := do
  let persisted ← events evalId "eval.pair.completed"
  match persisted with
  | [e] => ofResult ((eventItem e "report").bind (fun v =>
      validated "PairedEvalReport" (PairedEvalReport.ofJson v)))
  | [] => do
      let c ← contract evalId
      let single ← armStatus c.single
      let team ← armStatus c.team
      return { evalId := evalId, completed := false, contract := c,
               single := { runId := c.single.runId, status := single },
               team := { runId := c.team.runId, status := team } }
  | _ => throw (.runtimeError ("paired eval has multiple completed reports: " ++ evalId))

end PairedEvalService

/-! ### The service -/

/-- `CampaignScope.from_pair_contract`, as it is written. -/
def campaignScope (c : PairedEvalContract) : Except RuntimeError Dict :=
  if c.harnessProfile = [] then .error (.valueError "campaign pair has no persisted harness profile")
  else .ok [("task_pack", .str c.taskPack), ("case_id", .str c.caseId),
    ("fixture_hash", .str c.fixtureHash), ("input_hash", .str c.single.inputHash),
    ("scorer_version", .str c.scorerVersion), ("evidence_tier", .str c.evidenceTier.value),
    ("model_profile", .dict c.single.modelProfile), ("model_budget", .dict c.single.modelBudget),
    ("harness_profile", .dict c.harnessProfile)]

/-- `EvalCampaignService`, with the policy of its recommendations and the sample it takes of a
completed pair, which only the aggregation reads. -/
structure EvalCampaignService where
  codec : EvalCodec
  policy : Dict
  sample : CampaignTrialPlan → String → PairedEvalReport → Dict

/-- What the runtime does with the pairs of a campaign. -/
structure CampaignCallbacks (X : Interface) where
  createPair : PairedEvalRequest → RuntimeM X PairedEvalCreated
  pairContract : String → RuntimeM X PairedEvalContract
  releasePair : String → RuntimeM X Unit
  pairReport : String → RuntimeM X PairedEvalReport

/-- `EvalCampaignCreated`. -/
structure EvalCampaignCreated where
  campaignId : String
  plannedTrialCount : ℕ
  budget : CampaignBudgetEnvelope

namespace EvalCampaignService

variable (S : EvalCampaignService)

/-- `_event`. -/
def event (campaignId key type : String) (payload : Dict) (causationId : Option String)
    (createdAt : DateTime) : Event where
  id := uuid5 ("crazy:campaign:" ++ campaignId ++ ":" ++ key)
  runId := campaignId
  taskId := campaignId
  type := type
  source := "runtime.eval.campaign"
  payload := payload
  causationId := causationId
  createdAt := createdAt

/-- `_build_contract`. -/
def buildContract (campaignId : String) (request : EvalCampaignRequest) :
    Except RuntimeError EvalCampaignContract :=
  EvalCampaignContract.checked S.codec
    { campaignId := campaignId
      requestFingerprint := S.codec.sha256 (Json.dict (request.dumpBody S.codec)).canonical
      title := request.title
      brief := request.brief
      taskPack := repoMaintainer
      modelMode := request.modelMode
      evidenceTier := request.modelMode.tier
      plannedTrialCount := request.trialCount
      trials := (List.range' 1 request.trialCount).map (fun index =>
        { trialIndex := index
          pairRequestId := childRequestId campaignId index
          evalId := pairedEvalId (childRequestId campaignId index) })
      pairModelBudget := S.codec.dumpBudget request.modelBudget
      budget := request.budgetEnvelope
      maxParallelPairs := request.maxParallelPairs
      policy := S.policy }

/-- `_child_request`. -/
def childRequest (contract : EvalCampaignContract) (trial : CampaignTrialPlan) :
    Except RuntimeError PairedEvalRequest :=
  match S.codec.validateBudget (.dict contract.pairModelBudget) with
  | .error exc => .error (.valueError exc.message)
  | .ok budget =>
      .ok
        { requestId := trial.pairRequestId
          title := contract.title
          brief := contract.brief
          modelMode := contract.modelMode
          modelBudget := budget
          releasePolicy := .campaignLinked
          parentCampaignId := some contract.campaignId
          parentTrialIndex := some trial.trialIndex
          parent_matches := ⟨rfl, rfl⟩ }

/-- `_request_event`, of the events there are. -/
def requestAmong (campaignId : String) (payload : Dict) : List Event → RuntimeM X Event
  | [] => append none (event campaignId "requested" "eval.campaign.requested" payload none)
  | [e] =>
      if samePayload e.payload payload then pure e
      else throw (.valueError "campaign idempotency key was reused with different input")
  | _ => throw (.runtimeError ("campaign has multiple request events: " ++ campaignId))

/-- `_created`. -/
def created (c : EvalCampaignContract) : EvalCampaignCreated :=
  ⟨c.campaignId, c.plannedTrialCount, c.budget⟩

/-- A claim that must be closed, with a last event. -/
def closeClaim (claims : Claims) (ownerId : String) (state : WorkClaimState)
    (finalEvent : Option (DateTime → Event)) (lost : String) : RuntimeM X Unit := do
  let createdAt ← now
  let closed ← PairedEvalService.finishClaim claims ownerId state
    (finalEvent.map (fun e => e createdAt))
  if closed then pure () else throw (.runtimeError lost)

/-- The end of a `try` under a claim: whether the claim is closed, unless it raises. -/
def afterClaim {α : Type} (claims : Claims) (ownerId : String) (p : RuntimeM X (Bool × α)) :
    RuntimeM X α := do
  let done ← attempt p
  match done with
  | .ok (true, a) => pure a
  | .ok (false, a) => do
      let _ ← PairedEvalService.finishClaim claims ownerId .released
      return a
  | .error e => do
      let _ ← PairedEvalService.finishClaim claims ownerId .released
      throw e

/-- The `try` of `create` once its request is persisted. -/
def createRequested (campaignId : String) (request : EvalCampaignRequest) (claims : Claims)
    (ownerId : String) (requested : Event) : List Event → RuntimeM X (Bool × EvalCampaignCreated)
  | [] => do
      let c ← ofResult (S.buildContract campaignId request)
      closeClaim claims ownerId .completed
        (some (event campaignId "created" "eval.campaign.created" [("contract", c.dump S.codec)]
          (some requested.id)))
        "campaign creation claim was lost before commit"
      return (true, created c)
  | [e] => do
      let c ← ofResult ((eventItem e "contract").bind (EvalCampaignContract.validate S.codec))
      closeClaim claims ownerId .completed none "campaign creation claim was lost during replay"
      return (true, created c)
  | _ => throw (.runtimeError ("campaign has multiple contracts: " ++ campaignId))

/-- `create`. -/
def create (request : EvalCampaignRequest) : RuntimeM X EvalCampaignCreated := do
  let campaignId := campaignIdOf request.requestId.1
  let drawn ← uuid
  let ownerId := "campaign-creator:" ++ drawn
  let t ← now
  let claimed ← raising (call (.claimWork ["eval-campaign-create:" ++ campaignId] ownerId 15 t none))
  match claimed with
  | none => throw (.timeoutError "eval campaign creation is already in progress")
  | some claims => afterClaim claims ownerId (do
      let asked ← PairedEvalService.events campaignId "eval.campaign.requested"
      let requested ← requestAmong campaignId [("request", .dict (request.dump S.codec))] asked
      let existing ← PairedEvalService.events campaignId "eval.campaign.created"
      S.createRequested campaignId request claims ownerId requested existing)

/-- `contract`. -/
def contract (campaignId : String) : RuntimeM X EvalCampaignContract := do
  let existing ← PairedEvalService.events campaignId "eval.campaign.created"
  match existing with
  | [e] => ofResult ((eventItem e "contract").bind (EvalCampaignContract.validate S.codec))
  | _ => throw (.keyError ("campaign has no unique contract: " ++ campaignId))

/-! ### The state of a campaign -/

/-- `int(event.payload["trial_index"])`. -/
def trialIndexOf (e : Event) : Except RuntimeError ℤ :=
  (eventItem e "trial_index").bind (fun v =>
    match v.pyInt with
    | some n => .ok n
    | none => .error (.valueError "invalid literal for int()"))

/-- The events of one type, by the trial they are about. -/
def trialFacts (log : List Event) (type : String) : Except RuntimeError (List (ℤ × Event)) :=
  (log.filter (fun e => e.type = type)).mapM (fun e => do
    let index ← trialIndexOf e
    return (index, e))

/-- What `advance_one` reads of the log of its campaign. -/
structure CampaignFacts where
  started : List (ℤ × Event)
  linked : List (ℤ × Event)
  released : List (ℤ × Event)
  observed : List (ℤ × Event)
  failed : List (ℤ × Event)
  retryable : List (ℤ × Event)

/-- The facts of a log. -/
def factsOf (log : List Event) : Except RuntimeError CampaignFacts := do
  let linked ← trialFacts log "eval.campaign.trial.linked"
  let released ← trialFacts log "eval.campaign.trial.released"
  let observed ← trialFacts log "eval.campaign.trial.observed"
  let failed ← trialFacts log "eval.campaign.trial.creation_failed"
  let retryable ← trialFacts log "eval.campaign.trial.creation_retryable_failed"
  let started ← trialFacts log "eval.campaign.trial.started"
  return { started, linked, released, observed, failed, retryable }

/-- There is a fact about the trial. -/
def About (facts : List (ℤ × Event)) (trial : CampaignTrialPlan) : Prop :=
  ∃ fact ∈ facts, fact.1 = trial.trialIndex

instance (facts : List (ℤ × Event)) (trial : CampaignTrialPlan) : Decidable (About facts trial) :=
  inferInstanceAs (Decidable (∃ fact ∈ facts, _))

/-- The identifier of the last fact about the trial. -/
def causeOf (facts : List (ℤ × Event)) (trial : CampaignTrialPlan) : Option String :=
  (facts.reverse.find? (fun fact => fact.1 = (trial.trialIndex : ℤ))).map (fun fact => fact.2.id)

/-! ### Advance -/

/-- `_bind_or_validate_scope`, of the scopes there are. -/
def bindAmong (campaignId : String) (payload : Dict) : List Event → RuntimeM X Event
  | [] => append none (event campaignId "scope-bound" "eval.campaign.scope.bound" payload none)
  | [e] =>
      if samePayload e.payload payload then pure e
      else throw (.valueError "campaign child Pair does not match the bound scope")
  | _ => throw (.runtimeError ("campaign has multiple scope facts: " ++ campaignId))

/-- `_bind_or_validate_scope`, with the fingerprint of the scope. -/
def bindScope (campaignId : String) (pair : PairedEvalContract) : RuntimeM X (String × Event) := do
  let scope ← ofResult (campaignScope pair)
  let fingerprint := S.codec.sha256 (Json.dict scope).canonical
  let existing ← PairedEvalService.events campaignId "eval.campaign.scope.bound"
  let bound ← bindAmong campaignId
    [("scope", .dict scope), ("scope_fingerprint", .str fingerprint)] existing
  return (fingerprint, bound)

/-- A trial whose link has not been followed by its release. -/
def releaseTrial (callbacks : CampaignCallbacks X) (campaignId : String) (claims : Claims)
    (ownerId : String) (linked : List (ℤ × Event)) (trial : CampaignTrialPlan) :
    RuntimeM X (Bool × Bool) := do
  callbacks.releasePair trial.evalId
  closeClaim claims ownerId .completed
    (some (event campaignId ("trial-released:" ++ toString trial.trialIndex)
      "eval.campaign.trial.released"
      [("trial_index", .int trial.trialIndex), ("eval_id", .str trial.evalId)] (causeOf linked trial)))
    "campaign advance claim was lost after release"
  return (true, true)

/-- The first of some trials whose pair has been completed, with its report. -/
def firstCompleted (callbacks : CampaignCallbacks X) :
    List CampaignTrialPlan → RuntimeM X (Option (CampaignTrialPlan × PairedEvalReport))
  | [] => pure none
  | trial :: trials => do
      let report ← callbacks.pairReport trial.evalId
      (if report.completed then pure (some (trial, report)) else firstCompleted callbacks trials :
        RuntimeM X (Option (CampaignTrialPlan × PairedEvalReport)))

/-- What is wrong with a report, in view of the scope its campaign is bound to. -/
def observationErrors (report : PairedEvalReport) (fingerprint : String) (bound : Option String) :
    List String :=
  report.invalidReasons ++
    (if report.evidenceValid then [] else ["paired_evidence_invalid"]) ++
    (if bound = some fingerprint then [] else ["scope_mismatch"]) ++
    (if report.single.score.isSome ∧ report.team.score.isSome ∧ report.single.trace.isSome ∧
        report.team.trace.isSome then [] else ["missing_score_or_trace"])

/-- The fingerprint of the only scope. -/
def boundFingerprint : List Event → Except RuntimeError (Option String)
  | [e] => do
      let scope ← eventItem e "scope"
      match scope with
      | .dict scope => return some (S.codec.sha256 (Json.dict scope).canonical)
      | _ => throw (notValid "CampaignScope")
  | _ => return none

/-- The fact that a report has been observed. -/
def observedEvent (campaignId : String) (trial : CampaignTrialPlan) (report : PairedEvalReport)
    (completionId fingerprint : String) (errors : List String) : DateTime → Event :=
  let hash := S.codec.sha256 report.written.canonical
  event campaignId ("trial-observed:" ++ toString trial.trialIndex) "eval.campaign.trial.observed"
    [("trial_index", .int trial.trialIndex), ("eval_id", .str trial.evalId),
      ("pair_completed_event_id", .str completionId), ("pair_report_sha256", .str hash),
      ("scope_fingerprint", .str fingerprint), ("evidence_valid", .bool errors.isEmpty),
      ("invalid_reasons", .list (errors.map .str)),
      ("sample", if errors = [] then .dict (S.sample trial hash report) else .null)]
    (some completionId)

/-- What is observed of a report that is the persisted one. -/
def observationOf (campaignId : String) (trial : CampaignTrialPlan) (report : PairedEvalReport)
    (completion : Event) (scopes : List Event) : Except RuntimeError (DateTime → Event) := do
  let scope ← campaignScope report.contract
  let bound ← S.boundFingerprint scopes
  let fingerprint := S.codec.sha256 (Json.dict scope).canonical
  return S.observedEvent campaignId trial report completion.id fingerprint
    (observationErrors report fingerprint bound)

/-- The persisted report is the one that was read. -/
def requireSameReport (report : PairedEvalReport) (completion : Event) : Except RuntimeError Unit := do
  let persisted ← eventItem completion "report"
  if persisted.pyEq report.written then return ()
  else throw (.valueError "campaign child Pair report differs from persisted fact")

/-- `_observation_event`. -/
def observationEvent (campaignId : String) (trial : CampaignTrialPlan) (report : PairedEvalReport) :
    RuntimeM X (DateTime → Event) :=
  if report.evalId ≠ trial.evalId ∨ report.completed = false then
    throw (.valueError "campaign observation requires its completed child Pair")
  else do
    let completions ← PairedEvalService.events trial.evalId "eval.pair.completed"
    match completions with
    | [completion] => do
        let _ ← ofResult (requireSameReport report completion)
        let scopes ← PairedEvalService.events campaignId "eval.campaign.scope.bound"
        ofResult (S.observationOf campaignId trial report completion scopes)
    | _ => throw (.runtimeError "campaign child Pair has no unique completion fact")

/-- A trial whose pair has been completed. -/
def observeTrial (campaignId : String) (claims : Claims) (ownerId : String)
    (trial : CampaignTrialPlan) (report : PairedEvalReport) : RuntimeM X (Bool × Bool) := do
  let observation ← S.observationEvent campaignId trial report
  closeClaim claims ownerId .completed (some observation)
    "campaign advance claim was lost before Pair observation"
  return (true, true)

/-- `_MAX_PAIR_CREATION_ATTEMPTS`. -/
def maxPairCreationAttempts : ℕ := 3

/-- What is committed when a pair could not be created. -/
def creationFailure (campaignId : String) (facts : CampaignFacts) (trial : CampaignTrialPlan)
    (stage : String) (exc : RuntimeError) : DateTime → Event :=
  let retryable := isRetryablePairCreationError exc
  let attempt := (facts.retryable.filter (fun fact => fact.1 = (trial.trialIndex : ℤ))).length + 1
  let exhausted := retryable && decide (maxPairCreationAttempts ≤ attempt)
  let again := retryable && !exhausted
  event campaignId
    (if again then
      "trial-creation-retryable-failed:" ++ toString trial.trialIndex ++ ":" ++ toString attempt
    else "trial-creation-failed:" ++ toString trial.trialIndex)
    (if again then "eval.campaign.trial.creation_retryable_failed"
    else "eval.campaign.trial.creation_failed")
    [("trial_index", .int trial.trialIndex), ("pair_request_id", .str trial.pairRequestId),
      ("eval_id", .str trial.evalId), ("failure_stage", .str stage),
      ("error_type", .str exc.raised.typeName),
      ("error_message", .str (String.ofList (exc.raised.message.toList.take 2000))),
      ("retryable", .bool retryable), ("attempt_number", .int attempt),
      ("max_attempts", .int maxPairCreationAttempts),
      ("invalid_reasons", .list (if again then []
        else if exhausted then [.str "pair_creation_retry_exhausted"]
        else [.str "pair_creation_failed"]))]
    (causeOf facts.started trial)

/-- The checks of a pair that was created against its contract. -/
def validateIdentity (callbacks : CampaignCallbacks X) (trial : CampaignTrialPlan)
    (pair : PairedEvalCreated) : RuntimeM X PairedEvalContract :=
  if pair.evalId ≠ trial.evalId then
    throw (.valueError "campaign child Pair returned an unexpected eval_id")
  else do
    let child ← callbacks.pairContract pair.evalId
    (if child.evalId ≠ trial.evalId then
      throw (.valueError "campaign child contract has an unexpected eval_id")
    else if pair.singleRunId ≠ child.single.runId ∨ pair.teamRunId ≠ child.team.runId then
      throw (.valueError "campaign child Pair identity differs from its contract")
    else pure child : RuntimeM X PairedEvalContract)

/-- The pair has been committed as its contract says. -/
def validateCommit (trial : CampaignTrialPlan) (child : PairedEvalContract) : RuntimeM X Unit := do
  let commits ← PairedEvalService.events trial.evalId "eval.pair.committed"
  match commits with
  | [commit] =>
      if samePayload commit.payload (PairedEvalService.committedPayload child) then pure ()
      else throw (.runtimeError "campaign child Pair is not committed")
  | _ => throw (.runtimeError "campaign child Pair is not committed")

/-- A created pair, with the fingerprint of its scope and the event that bound it. -/
structure BoundPair where
  pair : PairedEvalCreated
  fingerprint : String
  scope : Event

/-- One stage of the creation of a pair, and the stages after it. -/
def stage {α β : Type} (name : String) (p : RuntimeM X α)
    (next : α → RuntimeM X (Except (String × RuntimeError) β)) :
    RuntimeM X (Except (String × RuntimeError) β) := do
  let done ← attempt p
  match done with
  | .ok a => next a
  | .error exc => pure (.error (name, exc))

/-- The creation of a pair and its checks; the first stage that raises. -/
def createBound (callbacks : CampaignCallbacks X) (campaignId : String) (trial : CampaignTrialPlan)
    (request : PairedEvalRequest) : RuntimeM X (Except (String × RuntimeError) BoundPair) :=
  stage "create_pair" (callbacks.createPair request) (fun pair =>
    stage "validate_pair_identity" (validateIdentity callbacks trial pair) (fun child =>
      stage "validate_pair_commit" (validateCommit trial child) (fun _ =>
        stage "bind_campaign_scope" (S.bindScope campaignId child) (fun bound =>
          pure (.ok ⟨pair, bound.1, bound.2⟩)))))

/-- The fact that a trial is linked. -/
def linkedEvent (campaignId : String) (trial : CampaignTrialPlan) (bound : BoundPair) :
    DateTime → Event :=
  event campaignId ("trial-linked:" ++ toString trial.trialIndex) "eval.campaign.trial.linked"
    [("trial_index", .int trial.trialIndex), ("pair_request_id", .str trial.pairRequestId),
      ("eval_id", .str trial.evalId), ("single_run_id", .str bound.pair.singleRunId),
      ("team_run_id", .str bound.pair.teamRunId), ("scope_fingerprint", .str bound.fingerprint)]
    (some bound.scope.id)

/-- A trial that was started: its pair is created and linked, or its failure recorded. -/
def createTrial (callbacks : CampaignCallbacks X) (contract : EvalCampaignContract)
    (campaignId : String) (claims : Claims) (ownerId : String) (facts : CampaignFacts)
    (trial : CampaignTrialPlan) : RuntimeM X (Bool × Bool) := do
  let request ← ofResult (S.childRequest contract trial)
  let done ← S.createBound callbacks campaignId trial request
  match done with
  | .error (stage, exc) => do
      closeClaim claims ownerId .failed
        (some (creationFailure campaignId facts trial stage exc))
        "campaign advance claim was lost before creation failure"
      return (true, true)
  | .ok bound => do
      closeClaim claims ownerId .completed (some (linkedEvent campaignId trial bound))
        "campaign advance claim was lost before Pair link"
      return (true, true)

/-- The fact that a trial is started. -/
def startedEvent (campaignId : String) (trial : CampaignTrialPlan) : DateTime → Event :=
  event campaignId ("trial-started:" ++ toString trial.trialIndex) "eval.campaign.trial.started"
    [("trial_index", .int trial.trialIndex), ("pair_request_id", .str trial.pairRequestId),
      ("eval_id", .str trial.evalId)] none

/-- The trials that are started or linked, and neither observed nor failed. -/
def activeTrials (facts : CampaignFacts) : List ℤ :=
  (((facts.started ++ facts.linked).map Prod.fst).dedup).filter (fun index =>
    index ∉ facts.observed.map Prod.fst ∧ index ∉ facts.failed.map Prod.fst)

/-- The claim is given back, and nothing has been done. -/
def giveBack (claims : Claims) (ownerId : String) : RuntimeM X (Bool × Bool) := do
  let closed ← PairedEvalService.finishClaim claims ownerId .released
  return (closed, false)

/-- The next trial is started, if there is room and one is left. -/
def startNext (contract : EvalCampaignContract) (campaignId : String) (claims : Claims)
    (ownerId : String) (facts : CampaignFacts) : RuntimeM X (Bool × Bool) :=
  if contract.maxParallelPairs ≤ (activeTrials facts).length then giveBack claims ownerId
  else
    match contract.trials.find? (fun trial =>
      ¬ About facts.started trial ∧ ¬ About facts.linked trial ∧ ¬ About facts.failed trial) with
    | none => giveBack claims ownerId
    | some trial => do
        closeClaim claims ownerId .completed (some (startedEvent campaignId trial))
          "campaign advance claim was lost before Trial start"
        return (true, true)

/-- What is left when no link waits for its release and no completed pair for its observation. -/
def createOrStart (callbacks : CampaignCallbacks X) (contract : EvalCampaignContract)
    (campaignId : String) (claims : Claims) (ownerId : String) (facts : CampaignFacts) : RuntimeM X (Bool × Bool) :=
  match contract.trials.find? (fun trial =>
    About facts.started trial ∧ ¬ About facts.linked trial ∧ ¬ About facts.failed trial) with
  | some trial => S.createTrial callbacks contract campaignId claims ownerId facts trial
  | none => startNext contract campaignId claims ownerId facts

/-- What is left when no link waits for its release. -/
def observeOrCreate (callbacks : CampaignCallbacks X) (contract : EvalCampaignContract)
    (campaignId : String) (claims : Claims) (ownerId : String) (facts : CampaignFacts) : RuntimeM X (Bool × Bool) := do
  let completed ← firstCompleted callbacks (contract.trials.filter (fun trial =>
    About facts.linked trial ∧ ¬ About facts.observed trial))
  match completed with
  | some (trial, report) => S.observeTrial contract.campaignId claims ownerId trial report
  | none => S.createOrStart callbacks contract campaignId claims ownerId facts

/-- One boundary of a campaign with these facts. -/
def advanceFrom (callbacks : CampaignCallbacks X) (contract : EvalCampaignContract)
    (campaignId : String) (claims : Claims) (ownerId : String) (facts : CampaignFacts) : RuntimeM X (Bool × Bool) :=
  match contract.trials.find? (fun trial =>
    About facts.linked trial ∧ ¬ About facts.released trial) with
  | some trial => releaseTrial callbacks campaignId claims ownerId facts.linked trial
  | none => S.observeOrCreate callbacks contract campaignId claims ownerId facts

/-- The terminal facts of a campaign. -/
def IsCampaignTerminal (e : Event) : Prop :=
  e.type = "eval.campaign.completed" ∨ e.type = "eval.campaign.cancelled"

instance : DecidablePred IsCampaignTerminal := fun _ => inferInstanceAs (Decidable (_ ∨ _))

/-- The `try` of `advance_one`. -/
def advanceClaimed (callbacks : CampaignCallbacks X) (contract : EvalCampaignContract)
    (campaignId : String) (claims : Claims) (ownerId : String) : RuntimeM X (Bool × Bool) := do
  let log ← readAll (some campaignId)
  if ∃ e ∈ log, IsCampaignTerminal e then giveBack claims ownerId
  else do
    let facts ← ofResult (factsOf log)
    S.advanceFrom callbacks contract campaignId claims ownerId facts

/-- The key of the claim under which a campaign advances. -/
def advanceClaimKey (campaignId : String) : String := "eval-campaign-advance:" ++ campaignId

/-- `advance_one`. -/
def advanceOne (callbacks : CampaignCallbacks X) (campaignId : String) : RuntimeM X Bool := do
  let c ← S.contract campaignId
  let drawn ← uuid
  let ownerId := "campaign-advancer:" ++ drawn
  let t ← now
  let claimed ← raising (call (.claimWork [advanceClaimKey campaignId] ownerId 300 t none))
  match claimed with
  | none => pure false
  | some claims => afterClaim claims ownerId (S.advanceClaimed callbacks c campaignId claims ownerId)

end EvalCampaignService

end CrazyHarness
