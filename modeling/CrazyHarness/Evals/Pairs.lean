import CrazyHarness.Evals.Requests

/-! # Paired evaluations

`PairedEvalService` (`control_plane/paired_evals.py`) over the store: the creation of a pair under a
claim, its release and the recovery of creations that were left behind.  The arms are prepared,
released and cancelled by callbacks. -/

namespace CrazyHarness

open Lib RuntimeM

variable {X : Interface} {α : Type}

/-- The class of an exception and `str(exc)`. -/
def RuntimeError.raised : RuntimeError → Raised
  | .store e => e.raised
  | .keyError message => ⟨"KeyError", message⟩
  | .valueError message => ⟨"ValueError", message⟩
  | .typeError => ⟨"TypeError", ""⟩
  | .runtimeError message => ⟨"RuntimeError", message⟩
  | .timeoutError message => ⟨"TimeoutError", message⟩

/-- `is_retryable_pair_creation_error`, of the exceptions of the model. -/
def isRetryablePairCreationError : RuntimeError → Bool
  | .timeoutError _ => true
  | _ => false

/-- What a part of the code ends with, its exceptions included. -/
def RuntimeM.attempt (p : RuntimeM X α) : RuntimeM X (Except RuntimeError α) :=
  Program.bind p (fun r => .done (.ok r))

/-- A pure part of the code. -/
def RuntimeM.ofResult (r : Except RuntimeError α) : RuntimeM X α := .done r

/-- `payload != other`. -/
def samePayload (payload other : Dict) : Bool := (Json.dict payload).pyEq (.dict other)

/-- `event.payload[key]`. -/
def eventItem (e : Event) (key : String) : Except RuntimeError Json :=
  match e.get? key with
  | some v => .ok v
  | none => .error (.keyError key)

/-- `PairedEvalCreated`. -/
structure PairedEvalCreated where
  evalId : String
  singleRunId : String
  teamRunId : String
deriving DecidableEq

/-- `PairedEvalService`, with its claim renewer and the faults it is made with.  `polls` is how often
it tries to claim a creation before its deadline. -/
structure PairedEvalService (X : Interface) where
  codec : EvalCodec
  scorerVersion : String
  polls : ℕ
  ensureCurrent : RuntimeM X Unit
  stopHeartbeat : RuntimeM X Unit
  injectFault : String → RuntimeM X Unit

/-- What the runtime does with the arms of a pair. -/
structure PairCallbacks (X : Interface) where
  prepareArm : Bool → EvalRunIdentity → RuntimeM X EvalRunIdentity
  releaseArm : Bool → EvalRunIdentity → RuntimeM X Unit
  cancelArm : Option (String → RuntimeM X Unit)

namespace PairedEvalService

/-- `_event`. -/
def event (evalId key type : String) (payload : Dict) (causationId : Option String)
    (createdAt : DateTime) : Event where
  id := uuid5 ("crazy:eval:" ++ evalId ++ ":" ++ key)
  runId := evalId
  taskId := evalId
  type := type
  source := "runtime.eval"
  payload := payload
  causationId := causationId
  createdAt := createdAt

/-- `_append`. -/
def append (evalId key type : String) (payload : Dict) (causationId : Option String := none) :
    RuntimeM X Event :=
  RuntimeM.append none (event evalId key type payload causationId)

/-- `_events`. -/
def events (evalId type : String) : RuntimeM X (List Event) := do
  let log ← readAll (some evalId)
  return log.filter (fun e => e.type = type)

/-- `_arm_events`. -/
def armEvents (evalId type : String) (single : Bool) : RuntimeM X (List Event) := do
  let log ← events evalId type
  return log.filter (fun e => e.get? "execution_mode" = some (.str (modeOf single)))

/-- `_run_created`, of the events of the run. -/
def uniqueCreated (runId : String) (log : List Event) : Except RuntimeError Event :=
  match log.filter (fun e => e.type = "run.created") with
  | [created] => .ok created
  | _ => .error (.runtimeError ("run has no unique run.created event: " ++ runId))

/-- `_run_created`. -/
def runCreated (runId : String) : RuntimeM X Event := do
  let log ← readAll (some runId)
  ofResult (uniqueCreated runId log)

/-- A claim is given back, or closed with a last event. -/
def finishClaim (claims : Claims) (ownerId : String) (state : WorkClaimState)
    (finalEvent : Option Event := none) : RuntimeM X Bool :=
  raising (call (.finishWorkClaims claims ownerId state finalEvent false))

/-! ### Creation -/

/-- `_acquire_create_claim`. -/
def acquireCreateClaim (evalId ownerId : String) : ℕ → RuntimeM X Claims
  | 0 => throw (.timeoutError "paired eval creation is already in progress")
  | polls + 1 => do
      let t ← now
      let claimed ← raising (call (.claimWork ["eval-create:" ++ evalId] ownerId 15 t none))
      match claimed with
      | some claims => pure claims
      | none => acquireCreateClaim evalId ownerId polls

/-- `_request_event`, of the events there are. -/
def requestAmong (evalId : String) (payload : Dict) : List Event → RuntimeM X Event
  | [] => append evalId "requested" "eval.pair.requested" payload
  | [e] =>
      if samePayload e.payload payload then pure e
      else throw (.valueError "paired eval idempotency key was reused with different input")
  | _ => throw (.runtimeError ("paired eval has multiple request events: " ++ evalId))

/-- `_request_event`. -/
def requestEvent (S : PairedEvalService X) (evalId : String) (request : PairedEvalRequest) :
    RuntimeM X Event := do
  let existing ← events evalId "eval.pair.requested"
  requestAmong evalId [("request", .dict (request.dump S.codec))] existing

/-- `_link_arm`. -/
def linkArm (arm : PairedEvalArm) (evalId peerRunId : String) : RuntimeM X Event := do
  let created ← runCreated arm.runId
  RuntimeM.append none (fun createdAt =>
    { id := uuid5 ("crazy:eval:" ++ evalId ++ ":link:" ++ modeOf arm.single), runId := arm.runId,
      taskId := created.taskId, type := "eval.arm.linked", source := "runtime.eval"
      payload := [("eval_id", .str evalId), ("execution_mode", .str (modeOf arm.single)),
        ("peer_run_id", .str peerRunId)]
      causationId := some created.id, createdAt := createdAt })

/-- The payload of a commit. -/
def committedPayload (contract : PairedEvalContract) : Dict :=
  [("single_run_id", .str contract.single.runId), ("team_run_id", .str contract.team.runId)]

/-- `_commit_contract`. -/
def commitContract (contract : PairedEvalContract) (claims : Claims) (ownerId : String) :
    RuntimeM X Unit := do
  let _ ← linkArm contract.single contract.evalId contract.team.runId
  let _ ← linkArm contract.team contract.evalId contract.single.runId
  let createdAt ← now
  let committed ← finishClaim claims ownerId .completed
    (some (event contract.evalId "committed" "eval.pair.committed" (committedPayload contract) none
      createdAt))
  if committed then pure ()
  else throw (.runtimeError "paired eval creation claim was lost before commit")

/-- One arm of `_release_contract` that has not been released. -/
def releaseNewArm (callbacks : PairCallbacks X) (evalId : String) (arm : PairedEvalArm) :
    RuntimeM X Unit := do
  let created ← runCreated arm.runId
  callbacks.releaseArm arm.single ⟨arm.runId, created.taskId⟩
  let _ ← append evalId ("arm-released:" ++ modeOf arm.single) "eval.arm.released"
    [("execution_mode", .str (modeOf arm.single)), ("run_id", .str arm.runId),
      ("task_id", .str created.taskId)]
  return ()

/-- `_release_contract`. -/
def releaseContract (callbacks : PairCallbacks X) (contract : PairedEvalContract) : RuntimeM X Unit :=
  each (fun arm => do
    let released ← armEvents contract.evalId "eval.arm.released" arm.single
    (if released = [] then releaseNewArm callbacks contract.evalId arm else pure () : RuntimeM X Unit))
    [contract.single, contract.team]

/-- `_created`. -/
def created (contract : PairedEvalContract) : PairedEvalCreated :=
  ⟨contract.evalId, contract.single.runId, contract.team.runId⟩

/-- `_record_arm`. -/
def recordArm (requested : Event) (identity : EvalRunIdentity) (single : Bool) : RuntimeM X Event :=
  append requested.runId ("arm:" ++ modeOf single) "eval.arm.created"
    [("execution_mode", .str (modeOf single)), ("run_id", .str identity.runId),
      ("task_id", .str identity.taskId)] (some requested.id)

/-- An arm that has not been prepared. -/
def prepareNewArm (S : PairedEvalService X) (callbacks : PairCallbacks X) (requested : Event)
    (single : Bool) (identity : EvalRunIdentity) : RuntimeM X Unit := do
  S.ensureCurrent
  let actual ← callbacks.prepareArm single identity
  S.ensureCurrent
  if actual = identity then do
    let _ ← recordArm requested identity single
    S.injectFault ("after_eval_arm_prepared:" ++ modeOf single)
  else throw (.valueError ("paired " ++ modeOf single ++ " prepare returned a different identity"))

/-- One turn of the loop over the arms. -/
def planArm (S : PairedEvalService X) (callbacks : PairCallbacks X) (evalId : String)
    (requested : Event) (single : Bool) : RuntimeM X Unit := do
  let identity := armIdentity evalId single
  let _ ← append evalId ("arm-planned:" ++ modeOf single) "eval.arm.planned"
    [("execution_mode", .str (modeOf single)), ("run_id", .str identity.runId),
      ("task_id", .str identity.taskId)] (some requested.id)
  let prepared ← armEvents evalId "eval.arm.created" single
  (if prepared = [] then S.prepareNewArm callbacks requested single identity else pure () :
    RuntimeM X Unit)

/-- The values that both runs of a pair must have been created with. -/
def sharedFields : List String :=
  ["case_id", "fixture_hash", "input_hash", "scorer_version", "title", "brief"]

/-- The first check of `_build_contract` that fails; the last one needs the hash of the fixture. -/
def contractError (S : PairedEvalService X) (request : PairedEvalRequest) (single team : Event) :
    Option String :=
  let profile := (single.get? "model_profile").getD .null
  let differs (e : Event) (key : String) (v : Json) : Bool := !(((e.get? key).getD .null).pyEq v)
  if let some name := sharedFields.find? (fun name =>
      differs single name ((team.get? name).getD .null)) then
    some ("paired run metadata differs for " ++ name)
  else if let some mode := [true, false].find? (fun mode =>
      differs (if mode then single else team) "execution_mode" (.str (modeOf mode))) then
    some ("paired " ++ modeOf mode ++ " run has the wrong execution_mode")
  else if let some mode := [true, false].find? (fun mode =>
      differs (if mode then single else team) "task_pack" (.str repoMaintainer)) then
    some ("paired " ++ modeOf mode ++ " run has the wrong task_pack")
  else if let some mode := [true, false].find? (fun mode =>
      differs (if mode then single else team) "model_mode" (.str request.modelMode.value)) then
    some ("paired " ++ modeOf mode ++ " run has the wrong model_mode")
  else if let some mode := [true, false].find? (fun mode =>
      differs (if mode then single else team) "model_budget"
        (.dict (S.codec.dumpBudget request.modelBudget))) then
    some ("paired " ++ modeOf mode ++ " run has a different model_budget")
  else if ¬ profile.truthy ∨ differs team "model_profile" profile then
    some "paired runs have different persisted model_profile values"
  else if differs single "scorer_version" (.str S.scorerVersion) then
    some "paired runs require the active scorer version"
  else none

/-- `dict(payload.get("model_profile") or {})`. -/
def profileOf (e : Event) : Except RuntimeError Dict :=
  match (e.get? "model_profile").getD .null with
  | .dict profile => .ok profile
  | v => if v.truthy then .error .typeError else .ok []

/-- An arm, of the event its run was created with. -/
def armOf (single : Bool) (runId : String) (profile budget : Dict) (e : Event) :
    Except RuntimeError PairedEvalArm := do
  let workspace ← eventItem e "workspace_path"
  let inputHash ← eventItem e "input_hash"
  return { single := single, runId := runId, workspace := workspace.pyStr,
           inputHash := inputHash.pyStr, modelProfile := profile, modelBudget := budget }

/-- The text of an optional field. -/
def textOrEmpty (e : Event) (key : String) : String := (e.payload.getD key (.str "")).pyStr

/-- `_build_contract`, of the events of both runs that have passed the first checks. -/
def contractOf (S : PairedEvalService X) (evalId : String) (request : PairedEvalRequest)
    (single team : Event) : Except RuntimeError PairedEvalContract := do
  let profile ← profileOf single
  let fixtureHash ← eventItem single "fixture_hash"
  let caseId ← eventItem single "case_id"
  let scorerVersion ← eventItem single "scorer_version"
  let budget := S.codec.dumpBudget request.modelBudget
  let singleArm ← armOf true (armIdentity evalId true).runId profile budget single
  let teamArm ← armOf false (armIdentity evalId false).runId profile budget team
  let teamContract ←
    match (team.get? "team_contract").getD .null with
    | .dict contract => pure contract
    | v => if v.truthy then throw .typeError else pure []
  if singleArm.inputHash = pairedInputHash S.codec request fixtureHash.pyStr then
    PairedEvalContract.checked
      { evalId := evalId
        caseId := caseId.pyStr
        taskPack := repoMaintainer
        fixtureHash := fixtureHash.pyStr
        scorerVersion := scorerVersion.pyStr
        evidenceTier := request.modelMode.tier
        harnessProfile := [("single_behavior_version", .str (textOrEmpty single "behavior_version")),
          ("team_behavior_version", .str (textOrEmpty team "behavior_version")),
          ("supervisor_policy", .str (textOrEmpty team "supervisor_policy")),
          ("team_contract", .dict teamContract)]
        single := singleArm
        team := teamArm }
  else .error (.valueError "paired runs do not match the requested task input")

/-- `_build_contract`. -/
def buildContract (S : PairedEvalService X) (evalId : String) (request : PairedEvalRequest) :
    RuntimeM X PairedEvalContract := do
  let single ← runCreated (armIdentity evalId true).runId
  let team ← runCreated (armIdentity evalId false).runId
  match S.contractError request single team with
  | some message => throw (.valueError message)
  | none => ofResult (S.contractOf evalId request single team)

/-- How a creation ends: whether its claim is closed, and with what. -/
abbrev CreationEnd := Bool × Except RuntimeError PairedEvalCreated

/-- The cancellation of an arm of a creation that has failed. -/
def cleanUp (evalId : String) (requested : Event) (cancelArm : String → RuntimeM X Unit)
    (identity : EvalRunIdentity) : RuntimeM X Unit :=
  handle (cancelArm identity.runId) (fun exc => do
    let _ ← append evalId ("cleanup-failed:" ++ identity.runId) "eval.arm.cleanup.failed"
      [("run_id", .str identity.runId), ("error_type", .str exc.raised.typeName),
        ("reason", .str exc.raised.message)] (some requested.id)
    return ())

/-- The cancellation of the arms of a creation that has failed. -/
def cleanUpArms (callbacks : PairCallbacks X) (evalId : String) (requested : Event)
    (identities : List EvalRunIdentity) : RuntimeM X Unit :=
  match callbacks.cancelArm with
  | some cancelArm => each (cleanUp evalId requested cancelArm) identities
  | none => pure ()

/-- What is done once the failure of a creation has been committed. -/
def afterFailure (callbacks : PairCallbacks X) (evalId : String) (requested : Event)
    (identities : List EvalRunIdentity) (exc : RuntimeError) : RuntimeM X CreationEnd := do
  let cleaned ← attempt (cleanUpArms callbacks evalId requested identities)
  match cleaned with
  | .ok () => pure (true, .error (.valueError exc.raised.message))
  | .error e => pure (true, .error e)

/-- The handler of an exception before the commit. -/
def handleFailure (callbacks : PairCallbacks X) (evalId : String) (claims : Claims) (ownerId : String)
    (failPrecommit : Bool) (requested : Event) (identities : List EvalRunIdentity)
    (exc : RuntimeError) : RuntimeM X CreationEnd :=
  if failPrecommit ∧ isRetryablePairCreationError exc = false then do
    let createdAt ← now
    let closed ← attempt (finishClaim claims ownerId .failed
      (some (event evalId "failed" "eval.pair.failed"
        [("error_type", .str exc.raised.typeName), ("reason", .str exc.raised.message)]
        (some requested.id) createdAt)))
    match closed with
    | .ok true => afterFailure callbacks evalId requested identities exc
    | .ok false =>
        pure (false, .error (.runtimeError "paired eval creation claim was lost before failure commit"))
    | .error e => pure (false, .error e)
  else pure (false, .error exc)

/-- A creation whose request belongs to a failed one. -/
def rejectFailed (claims : Claims) (ownerId : String)
    (failed : RuntimeError → RuntimeM X CreationEnd) : RuntimeM X CreationEnd := do
  let closed ← attempt (finishClaim claims ownerId .failed)
  match closed with
  | .ok true =>
      pure (true, .error (.valueError "paired eval idempotency key belongs to a failed creation"))
  | .ok false =>
      failed (.runtimeError "paired eval creation claim was lost before failure replay")
  | .error e => failed e

/-- A creation after its commit. -/
def afterCommit (callbacks : PairCallbacks X) (shouldRelease : Bool) (contract : PairedEvalContract) :
    RuntimeM X CreationEnd := do
  let result ← attempt (do
    (if shouldRelease then releaseContract callbacks contract else pure () : RuntimeM X Unit)
    pure (created contract))
  return (true, result)

/-- A creation whose contract has been persisted before. -/
def replayCreation (callbacks : PairCallbacks X) (claims : Claims) (ownerId : String)
    (shouldRelease : Bool) (failed : RuntimeError → RuntimeM X CreationEnd) (persisted : Event) :
    RuntimeM X CreationEnd := do
  let committed ← attempt (do
    let contract ← ofResult ((eventItem persisted "contract").bind PairedEvalContract.validate)
    commitContract contract claims ownerId
    return contract)
  match committed with
  | .ok contract => afterCommit callbacks shouldRelease contract
  | .error exc => failed exc

/-- The second arm of a fresh creation, its contract and its commit. -/
def completeCreation (S : PairedEvalService X) (callbacks : PairCallbacks X) (evalId : String)
    (request : PairedEvalRequest) (claims : Claims) (ownerId : String) (requested : Event) :
    RuntimeM X PairedEvalContract := do
  S.planArm callbacks evalId requested false
  S.ensureCurrent
  let contract ← S.buildContract evalId request
  let _ ← append evalId "created" "eval.pair.created" [("contract", contract.dump)]
    (some requested.id)
  S.injectFault "after_eval_pair_created"
  S.ensureCurrent
  commitContract contract claims ownerId
  return contract

/-- A creation of which nothing has been persisted but its request. -/
def freshCreation (S : PairedEvalService X) (callbacks : PairCallbacks X) (evalId : String)
    (request : PairedEvalRequest) (claims : Claims) (ownerId : String) (shouldRelease : Bool)
    (failed : List EvalRunIdentity → RuntimeError → RuntimeM X CreationEnd) (requested : Event) :
    RuntimeM X CreationEnd := do
  let planned ← attempt (S.planArm callbacks evalId requested true)
  match planned with
  | .error exc => failed [armIdentity evalId true] exc
  | .ok () => do
      let committed ← attempt (S.completeCreation callbacks evalId request claims ownerId requested)
      match committed with
      | .error exc => failed [armIdentity evalId true, armIdentity evalId false] exc
      | .ok contract => do
          let fault ← attempt (S.injectFault "after_eval_pair_committed")
          match fault with
          | .error exc => pure (true, .error exc)
          | .ok () => afterCommit callbacks shouldRelease contract

/-- The `try` of `create` once its request is persisted. -/
def createRequested (S : PairedEvalService X) (callbacks : PairCallbacks X) (evalId : String)
    (request : PairedEvalRequest) (claims : Claims) (ownerId : String)
    (failPrecommit shouldRelease : Bool) (requested : Event) : RuntimeM X CreationEnd := do
  let onFailure := handleFailure callbacks evalId claims ownerId failPrecommit requested
  let failures ← events evalId "eval.pair.failed"
  let persisted ← events evalId "eval.pair.created"
  match failures, persisted with
  | _ :: _, _ => rejectFailed claims ownerId (onFailure [])
  | [], [] =>
      S.freshCreation callbacks evalId request claims ownerId shouldRelease onFailure requested
  | [], [e] => replayCreation callbacks claims ownerId shouldRelease (onFailure []) e
  | [], _ => onFailure [] (.runtimeError ("paired eval has multiple contracts: " ++ evalId))

/-- The `try` of `create`. -/
def createClaimed (S : PairedEvalService X) (callbacks : PairCallbacks X) (evalId : String)
    (request : PairedEvalRequest) (claims : Claims) (ownerId : String)
    (failPrecommit shouldRelease : Bool) : RuntimeM X CreationEnd := do
  let requested ← attempt (do
    S.ensureCurrent
    S.requestEvent evalId request)
  match requested with
  | .error exc => pure (false, .error exc)
  | .ok requested =>
      S.createRequested callbacks evalId request claims ownerId failPrecommit shouldRelease requested

/-- `create`. -/
def create (S : PairedEvalService X) (callbacks : PairCallbacks X) (request : PairedEvalRequest)
    (failPrecommit : Bool) (releaseArms : Option Bool) : RuntimeM X PairedEvalCreated :=
  let shouldRelease := releaseArms.getD (request.releasePolicy = .immediate)
  if shouldRelease ∧ request.releasePolicy = .campaignLinked then
    throw (.valueError "campaign-linked pair must be released after its parent link")
  else do
    let drawn ← uuid
    let ownerId := "eval-creator:" ++ drawn
    let claims ← acquireCreateClaim (pairedEvalId request.requestId) ownerId S.polls
    let (closed, result) ← S.createClaimed callbacks (pairedEvalId request.requestId) request claims
      ownerId failPrecommit shouldRelease
    S.stopHeartbeat
    if closed then ofResult result
    else do
      let _ ← finishClaim claims ownerId .released
      ofResult result

/-! ### Release and recovery -/

/-- `contract`. -/
def contract (evalId : String) : RuntimeM X PairedEvalContract := do
  let persisted ← events evalId "eval.pair.created"
  match persisted with
  | [e] => ofResult ((eventItem e "contract").bind PairedEvalContract.validate)
  | _ => throw (.keyError ("paired eval has no unique contract: " ++ evalId))

/-- The parent of a pair has linked it. -/
def LinkedBy (request : PairedEvalRequest) (evalId : String) (parentEvents : List Event) : Prop :=
  ∃ e ∈ parentEvents, e.type = "eval.campaign.trial.linked" ∧
    e.get? "trial_index" = request.parentTrialIndex.map (fun (n : ℕ) => Json.int n) ∧
    e.get? "eval_id" = some (.str evalId)

instance (request : PairedEvalRequest) (evalId : String) (parentEvents : List Event) :
    Decidable (LinkedBy request evalId parentEvents) :=
  inferInstanceAs (Decidable (∃ e ∈ parentEvents, _))

/-- A pair that a campaign links must have been linked. -/
def requireLink (evalId : String) (request : PairedEvalRequest) : RuntimeM X Unit :=
  if request.releasePolicy = .campaignLinked then do
    let parentEvents ← readAll (some (request.parentCampaignId.getD "None"))
    if LinkedBy request evalId parentEvents then pure ()
    else throw (.runtimeError "campaign-linked pair has no persisted parent link")
  else pure ()

/-- `release`. -/
def release (S : PairedEvalService X) (callbacks : PairCallbacks X) (evalId : String) :
    RuntimeM X PairedEvalCreated := do
  let c ← contract evalId
  let committed ← events evalId "eval.pair.committed"
  match committed with
  | [commit] =>
      if samePayload commit.payload (committedPayload c) then do
        let requested ← events evalId "eval.pair.requested"
        match requested with
        | [e] => do
            let request ← ofResult ((eventItem e "request").bind (PairedEvalRequest.validate S.codec))
            requireLink evalId request
            releaseContract callbacks c
            return created c
        | _ => throw (.runtimeError ("paired eval has no unique request: " ++ evalId))
      else throw (.runtimeError "paired eval commit fact does not match its contract")
  | _ => throw (.runtimeError "paired eval is not committed and cannot be released")

/-- The entries of a dictionary comprehension. -/
def dictOf {β : Type} (entries : List (String × β)) : List (String × β) :=
  entries.foldl (fun d kv =>
    if d.any (fun old => old.1 = kv.1) then
      d.map (fun old => if old.1 = kv.1 then kv else old)
    else d ++ [kv]) []

/-- A creation that was left behind is resumed; its failure is recorded. -/
def resumeOne (resume : PairedEvalRequest → RuntimeM X Unit) (evalId : String)
    (request : PairedEvalRequest) : RuntimeM X Bool := do
  let resumed ← attempt (resume request)
  match resumed with
  | .ok () => pure true
  | .error exc => do
      let failures ← events evalId "eval.pair.recovery.failed"
      let _ ← append evalId ("recovery-failed:" ++ toString (failures.length + 1))
        "eval.pair.recovery.failed"
        [("attempt", .int (failures.length + 1)), ("error_type", .str exc.raised.typeName),
          ("reason", .str exc.raised.message)]
      return false

/-- Both arms of a pair have been released. -/
def AllReleased (released : List Event) : Prop :=
  ∀ single : Bool, ∃ e ∈ released, e.get? "execution_mode" = some (.str (modeOf single))

instance (released : List Event) : Decidable (AllReleased released) :=
  inferInstanceAs (Decidable (∀ _ : Bool, _))

/-- One request of `recover_pending`. -/
def recoverOne (resume : PairedEvalRequest → RuntimeM X Unit) (evalId : String)
    (request : PairedEvalRequest) : RuntimeM X Bool := do
  let failures ← events evalId "eval.pair.failed"
  let persisted ← events evalId "eval.pair.created"
  match failures, persisted with
  | _ :: _, _ => pure false
  | [], [] => resumeOne resume evalId request
  | [], e :: _ => do
      let _ ← ofResult ((eventItem e "contract").bind PairedEvalContract.validate)
      let released ← events evalId "eval.arm.released"
      (if AllReleased released then pure false else resumeOne resume evalId request : RuntimeM X Bool)

/-- The requests that have been persisted, by the pair. -/
def persistedRequests (C : EvalCodec) (log : List Event) :
    Except RuntimeError (List (String × PairedEvalRequest)) := do
  let entries ← (log.filter (fun e => e.type = "eval.pair.requested")).mapM (fun e => do
    let request ← (eventItem e "request").bind (PairedEvalRequest.validate C)
    pure (e.runId, request))
  return dictOf entries

/-- `recover_pending`; nobody needs the count. -/
def recoverPending (S : PairedEvalService X) (resume : PairedEvalRequest → RuntimeM X Unit) :
    RuntimeM X Unit := do
  let log ← readAll none
  let requests ← ofResult (persistedRequests S.codec log)
  each (fun entry => do
    let _ ← recoverOne resume entry.1 entry.2
    return ()) requests

end PairedEvalService

end CrazyHarness
