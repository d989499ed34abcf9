import CrazyHarness.Agents.Governance
import CrazyHarness.Runtime.Routing

/-! # Evaluation requests

What a paired evaluation and a campaign of such pairs are asked for (`paired_evals.py`,
`eval_campaigns.py`, `core/evals`): the requests, the contracts that are persisted before anything
runs, the identities that are derived from them, and how all of them are written as JSON.

A decimal is its value.  How it is written, and how a model budget is written and read, is left to
the library of the models (`EvalCodec`). -/

namespace CrazyHarness

open Lib

/-! ### Identities -/

/-- `uuid5(name).hex`, whole or its first digits; they are taken to tell names apart. -/
def uuid5Hex (name : String) : String := uuid5 name

/-- `EvalRunIdentity`. -/
structure EvalRunIdentity where
  runId : String
  taskId : String
deriving DecidableEq

/-- `paired_eval_id`. -/
def pairedEvalId (requestId : String) : String :=
  "eval_" ++ uuid5Hex ("crazy:eval-request:" ++ requestId)

/-- `_arm_identity`. -/
def armIdentity (evalId : String) (single : Bool) : EvalRunIdentity where
  runId := "run_" ++ uuid5Hex ("crazy:eval:" ++ evalId ++ ":" ++ modeOf single ++ ":run")
  taskId := "task_" ++ uuid5Hex ("crazy:eval:" ++ evalId ++ ":" ++ modeOf single ++ ":task")

/-- `EvalCampaignService.campaign_id`. -/
def campaignIdOf (requestId : String) : String :=
  "campaign_" ++ uuid5Hex ("crazy:campaign-request:" ++ requestId)

/-- `child_request_id`. -/
def childRequestId (campaignId : String) (trialIndex : ℕ) : String :=
  "campaign-trial:" ++ uuid5Hex ("crazy:campaign:" ++ campaignId ++ ":trial:" ++ toString trialIndex)

theorem armIdentity_runId_inj {evalId evalId' : String} {single single' : Bool}
    (h : (armIdentity evalId single).runId = (armIdentity evalId' single').runId) :
    evalId = evalId' ∧ single = single' := by
  have hname : "crazy:eval:" ++ evalId ++ ":" ++ modeOf single ++ ":run" =
      "crazy:eval:" ++ evalId' ++ ":" ++ modeOf single' ++ ":run" := by
    simpa [armIdentity, uuid5Hex] using h
  -- The names end differently when the modes differ.
  have hends := congrArg (fun s : String => s.toList.reverse) hname
  cases single <;> cases single' <;> simp [modeOf, String.toList_inj] at hends ⊢ <;> exact hends

/-! ### Requests -/

/-- `model_mode`. -/
inductive ModelMode where
  | scripted
  | deepseek
deriving DecidableEq

/-- The text of a model mode. -/
def ModelMode.value : ModelMode → String
  | .scripted => "scripted"
  | .deepseek => "deepseek"

/-- `EvidenceTier`. -/
inductive EvidenceTier where
  | deterministic
  | livePaired
deriving DecidableEq

/-- The text of a tier. -/
def EvidenceTier.value : EvidenceTier → String
  | .deterministic => "deterministic"
  | .livePaired => "live_paired"

/-- The tier that the evidence of a mode has. -/
def ModelMode.tier : ModelMode → EvidenceTier
  | .scripted => .deterministic
  | .deepseek => .livePaired

/-- `release_policy`. -/
inductive ReleasePolicy where
  | immediate
  | manual
  | campaignLinked
deriving DecidableEq

/-- The text of a release policy. -/
def ReleasePolicy.value : ReleasePolicy → String
  | .immediate => "immediate"
  | .manual => "manual"
  | .campaignLinked => "campaign_linked"

/-- The only task pack of an evaluation. -/
def repoMaintainer : String := "repo-maintainer"

/-- `PairedEvalRequest`. -/
structure PairedEvalRequest where
  requestId : String
  title : SizedString 1 (some 120)
  brief : SizedString 1 (some 4000)
  modelMode : ModelMode := .scripted
  modelBudget : ModelBudgetConfig := {}
  releasePolicy : ReleasePolicy := .immediate
  parentCampaignId : Option String := none
  parentTrialIndex : Option ℕ := none
  parent_matches : if releasePolicy = .campaignLinked then
      parentCampaignId.isSome ∧ parentTrialIndex.isSome
    else parentCampaignId = none ∧ parentTrialIndex = none := by decide

/-- What the libraries do with decimals, budgets and the text of a canonical JSON value. -/
structure EvalCodec where
  sha256 : Json → String
  decimalText : ℚ → String
  decimalOf : Json → Option ℚ
  dumpBudget : ModelBudgetConfig → Dict
  validateBudget : Json → Except Raised ModelBudgetConfig

/-- The exception of a model that does not validate. -/
def notValid (model : String) : RuntimeError := .valueError ("validation error for " ++ model)

/-- A model that must validate. -/
def validated {α : Type} (model : String) : Option α → Except RuntimeError α
  | some a => .ok a
  | none => .error (notValid model)

/-- The first of some values whose text this is. -/
def choiceOf {α : Type} (values : List α) (text : α → String) (v : Json) : Option α :=
  v.asStr.bind (fun s => values.find? (fun a => text a = s))

namespace PairedEvalRequest

/-- `model_dump(mode="json")`. -/
def dump (C : EvalCodec) (r : PairedEvalRequest) : Dict :=
  [("request_id", .str r.requestId), ("title", .str r.title.1), ("brief", .str r.brief.1),
    ("model_mode", .str r.modelMode.value), ("task_pack", .str repoMaintainer),
    ("model_budget", .dict (C.dumpBudget r.modelBudget)),
    ("release_policy", .str r.releasePolicy.value), ("parent_campaign_id", .ofOption r.parentCampaignId),
    ("parent_trial_index", (r.parentTrialIndex.map (fun (n : ℕ) => Json.int n)).getD .null)]

/-- `model_validate` of a request with all its fields. -/
def ofDict (C : EvalCodec) (d : Dict) : Option PairedEvalRequest := do
  let requestId ← d.field "request_id" Json.asStr
  let title ← d.field "title" (SizedString.validate 1 (some 120))
  let brief ← d.field "brief" (SizedString.validate 1 (some 4000))
  let modelMode ← d.field "model_mode" (choiceOf [.scripted, .deepseek] ModelMode.value)
  let _ ← d.field "task_pack" (choiceOf [repoMaintainer] id)
  let modelBudget ← d.field "model_budget" (fun v => (C.validateBudget v).toOption)
  let releasePolicy ← d.field "release_policy"
    (choiceOf [.immediate, .manual, .campaignLinked] ReleasePolicy.value)
  let parentCampaignId ← d.field "parent_campaign_id" (Json.nullable Json.asStr)
  let parentTrialIndex ← d.field "parent_trial_index"
    (Json.nullable (fun v => (v.boundedInt 1 (some 30)).map Int.toNat))
  if h : if releasePolicy = .campaignLinked then parentCampaignId.isSome ∧ parentTrialIndex.isSome
      else parentCampaignId = none ∧ parentTrialIndex = none then
    some { requestId, title, brief, modelMode, modelBudget, releasePolicy, parentCampaignId,
           parentTrialIndex, parent_matches := h }
  else none

/-- `PairedEvalRequest.model_validate(value)`. -/
def validate (C : EvalCodec) (v : Json) : Except RuntimeError PairedEvalRequest :=
  validated "PairedEvalRequest" (v.asDict.bind (ofDict C))

end PairedEvalRequest

/-- `paired_input_hash`. -/
def pairedInputHash (C : EvalCodec) (r : PairedEvalRequest) (fixtureHash : String) : String :=
  C.sha256 (Json.dict [("task_pack", .str repoMaintainer), ("title", .str r.title.1),
    ("brief", .str r.brief.1), ("fixture_hash", .str fixtureHash)]).canonical

/-! ### The contract of a pair -/

/-- `PairedEvalArm`. -/
structure PairedEvalArm where
  single : Bool
  runId : String
  workspace : String
  inputHash : String
  modelProfile : Dict
  modelBudget : Dict
deriving DecidableEq

/-- `PairedEvalContract`. -/
structure PairedEvalContract where
  evalId : String
  caseId : String
  taskPack : String
  fixtureHash : String
  scorerVersion : String
  evidenceTier : EvidenceTier
  harnessProfile : Dict
  single : PairedEvalArm
  team : PairedEvalArm
deriving DecidableEq

namespace PairedEvalContract

/-- The first check of `validate_fair_pair` that fails, after those of the arms. -/
def firstError (c : PairedEvalContract) : Option String :=
  if c.single.modelProfile = [] ∨ c.team.modelProfile = [] then
    some "Dictionary should have at least 1 item"
  else if c.single.modelBudget = [] ∨ c.team.modelBudget = [] then
    some "Dictionary should have at least 1 item"
  else if c.single.single = false then some "single arm must use execution_mode=single"
  else if c.team.single = true then some "team arm must use execution_mode=team"
  else if c.single.runId = c.team.runId then some "paired arms must use different run_id values"
  else if c.single.workspace = c.team.workspace then some "paired arms must use different workspaces"
  else if c.single.inputHash ≠ c.team.inputHash then some "paired arms must have identical input_hash"
  else if c.single.modelProfile ≠ c.team.modelProfile then
    some "paired arms must have identical model_profile"
  else if c.single.modelBudget ≠ c.team.modelBudget then
    some "paired arms must have identical model_budget"
  else none

/-- The contract, if its checks pass. -/
def checked (c : PairedEvalContract) : Except RuntimeError PairedEvalContract :=
  match c.firstError with
  | some message => .error (.valueError message)
  | none => .ok c

end PairedEvalContract

/-- `model_dump(mode="json")`. -/
def PairedEvalArm.dump (a : PairedEvalArm) : Json :=
  .dict [("execution_mode", .str (modeOf a.single)), ("run_id", .str a.runId),
    ("workspace", .str a.workspace), ("input_hash", .str a.inputHash),
    ("model_profile", .dict a.modelProfile), ("model_budget", .dict a.modelBudget)]

/-- `model_validate`. -/
def PairedEvalArm.ofJson (v : Json) : Option PairedEvalArm := do
  let d ← v.asDict
  let single ← d.field "execution_mode" (choiceOf [true, false] modeOf)
  let runId ← d.field "run_id" Json.nonEmpty
  let workspace ← d.field "workspace" Json.asStr
  let inputHash ← d.field "input_hash" Json.nonEmpty
  let modelProfile ← d.field "model_profile" Json.asDict
  let modelBudget ← d.field "model_budget" Json.asDict
  some { single, runId, workspace, inputHash, modelProfile, modelBudget }

namespace PairedEvalContract

/-- `model_dump(mode="json")`. -/
def dump (c : PairedEvalContract) : Json :=
  .dict [("eval_id", .str c.evalId), ("case_id", .str c.caseId), ("task_pack", .str c.taskPack),
    ("fixture_hash", .str c.fixtureHash), ("scorer_version", .str c.scorerVersion),
    ("evidence_tier", .str c.evidenceTier.value), ("harness_profile", .dict c.harnessProfile),
    ("single", c.single.dump), ("team", c.team.dump)]

/-- The fields of `model_validate`. -/
def ofJson (v : Json) : Option PairedEvalContract := do
  let d ← v.asDict
  let evalId ← d.field "eval_id" Json.nonEmpty
  let caseId ← d.field "case_id" Json.nonEmpty
  let taskPack ← d.field "task_pack" Json.nonEmpty
  let fixtureHash ← d.field "fixture_hash" Json.nonEmpty
  let scorerVersion ← d.field "scorer_version" Json.nonEmpty
  let evidenceTier ← d.field "evidence_tier" (choiceOf [.deterministic, .livePaired] EvidenceTier.value)
  let harnessProfile ← d.field "harness_profile" Json.asDict
  let single ← d.field "single" PairedEvalArm.ofJson
  let team ← d.field "team" PairedEvalArm.ofJson
  some { evalId, caseId, taskPack, fixtureHash, scorerVersion, evidenceTier, harnessProfile, single,
         team }

/-- `PairedEvalContract.model_validate(value)`. -/
def validate (v : Json) : Except RuntimeError PairedEvalContract :=
  (validated "PairedEvalContract" (ofJson v)).bind checked

/-- What the release of a pair reads of its contract. -/
def pair (c : PairedEvalContract) : PairContract := ⟨c.evalId, c.single.runId, c.team.runId⟩

end PairedEvalContract

/-! ### Campaigns -/

/-- The cost of all arms, as the envelope computes it. -/
def requiredTotalCostUsd (trialCount : ℕ) (perArmMaxCostUsd : ℚ) : ℚ :=
  inContext (2 * trialCount * perArmMaxCostUsd)

/-- `CampaignBudgetEnvelope`. -/
structure CampaignBudgetEnvelope where
  trialCount : ℕ
  perArmMaxTokens : ℤ
  perArmMaxCostUsd : ℚ
  maxTotalTokens : ℤ
  maxTotalCostUsd : ℚ
  trialCount_mem : 1 ≤ trialCount ∧ trialCount ≤ 30
  perArmMaxTokens_ge : 1 ≤ perArmMaxTokens
  perArmMaxCostUsd_pos : 0 < perArmMaxCostUsd
  maxTotalTokens_ge : 1 ≤ maxTotalTokens
  maxTotalCostUsd_pos : 0 < maxTotalCostUsd
  tokens_cover : 2 * trialCount * perArmMaxTokens ≤ maxTotalTokens
  cost_covers : requiredTotalCostUsd trialCount perArmMaxCostUsd ≤ maxTotalCostUsd

/-- The characters of a request identifier. -/
def RequestIdChar (c : Char) : Prop := c.isAlphanum ∨ c ∈ ['.', '_', ':', '-']

instance : DecidablePred RequestIdChar := fun _ => inferInstanceAs (Decidable (_ ∨ _))

/-- `EvalCampaignRequest`. -/
structure EvalCampaignRequest where
  requestId : SizedString 8 (some 128)
  title : SizedString 1 (some 120)
  brief : SizedString 1 (some 4000)
  modelMode : ModelMode := .scripted
  trialCount : ℕ := 3
  maxParallelPairs : ℕ := 1
  modelBudget : ModelBudgetConfig := {}
  campaignMaxTotalTokens : ℤ := 2500000
  campaignMaxCostUsd : ℚ := 1
  requestId_chars : ∀ c ∈ requestId.1.toList, RequestIdChar c := by decide
  trialCount_mem : 1 ≤ trialCount ∧ trialCount ≤ 30 := by decide
  maxParallelPairs_mem : 1 ≤ maxParallelPairs ∧ maxParallelPairs ≤ 8 := by decide
  campaignMaxTotalTokens_ge : 1 ≤ campaignMaxTotalTokens := by decide
  campaignMaxCostUsd_pos : 0 < campaignMaxCostUsd := by norm_num
  parallel_le : maxParallelPairs ≤ trialCount := by decide
  tokens_cover : 2 * trialCount * modelBudget.maxTotalTokens ≤ campaignMaxTotalTokens
  cost_covers : requiredTotalCostUsd trialCount modelBudget.maxCostUsd ≤ campaignMaxCostUsd

/-- `budget_envelope`. -/
def EvalCampaignRequest.budgetEnvelope (r : EvalCampaignRequest) : CampaignBudgetEnvelope where
  trialCount := r.trialCount
  perArmMaxTokens := r.modelBudget.maxTotalTokens
  perArmMaxCostUsd := r.modelBudget.maxCostUsd
  maxTotalTokens := r.campaignMaxTotalTokens
  maxTotalCostUsd := r.campaignMaxCostUsd
  trialCount_mem := r.trialCount_mem
  perArmMaxTokens_ge := r.modelBudget.maxTotalTokens_ge
  perArmMaxCostUsd_pos := r.modelBudget.maxCostUsd_pos
  maxTotalTokens_ge := r.campaignMaxTotalTokens_ge
  maxTotalCostUsd_pos := r.campaignMaxCostUsd_pos
  tokens_cover := r.tokens_cover
  cost_covers := r.cost_covers

/-- `EvalCampaignRequest.model_dump(mode="json", exclude={"request_id"})`. -/
def EvalCampaignRequest.dumpBody (C : EvalCodec) (r : EvalCampaignRequest) : Dict :=
  [("title", .str r.title.1), ("brief", .str r.brief.1), ("model_mode", .str r.modelMode.value),
    ("task_pack", .str repoMaintainer), ("trial_count", .int r.trialCount),
    ("max_parallel_pairs", .int r.maxParallelPairs),
    ("model_budget", .dict (C.dumpBudget r.modelBudget)),
    ("campaign_max_total_tokens", .int r.campaignMaxTotalTokens),
    ("campaign_max_cost_usd", .str (C.decimalText r.campaignMaxCostUsd))]

/-- `EvalCampaignRequest.model_dump(mode="json")`. -/
def EvalCampaignRequest.dump (C : EvalCodec) (r : EvalCampaignRequest) : Dict :=
  ("request_id", .str r.requestId.1) :: r.dumpBody C

/-- `CampaignTrialPlan`. -/
structure CampaignTrialPlan where
  trialIndex : ℕ
  pairRequestId : String
  evalId : String
deriving DecidableEq

/-- `EvalCampaignContract`; the policy is kept as it is written. -/
structure EvalCampaignContract where
  schemaVersion : String := "eval-campaign-v1"
  aggregatorVersion : String := "paired-bootstrap-v1"
  campaignId : String
  requestFingerprint : String
  title : SizedString 1 (some 120)
  brief : SizedString 1 (some 4000)
  taskPack : String
  modelMode : ModelMode
  evidenceTier : EvidenceTier
  plannedTrialCount : ℕ
  trials : List CampaignTrialPlan
  pairModelBudget : Dict
  budget : CampaignBudgetEnvelope
  maxParallelPairs : ℕ
  policy : Dict

namespace EvalCampaignContract

/-- The first check of `validate_pre_registered_plan` that fails. -/
def firstError (C : EvalCodec) (c : EvalCampaignContract) : Option String :=
  if c.trials.length ≠ c.plannedTrialCount then
    some "planned trial count does not match trial identities"
  else if c.budget.trialCount ≠ c.plannedTrialCount then
    some "campaign budget does not match planned trial count"
  else if (c.pairModelBudget.getD "max_total_tokens" (.int 0)).pyInt ≠ some c.budget.perArmMaxTokens then
    some "campaign pair token budget differs from its envelope"
  else if C.decimalOf (.str (c.pairModelBudget.getD "max_cost_usd" (.str "0")).pyStr) ≠
      some c.budget.perArmMaxCostUsd then
    some "campaign pair cost budget differs from its envelope"
  else if c.plannedTrialCount < c.maxParallelPairs then
    some "parallel pair limit cannot exceed planned trials"
  else if c.trials.map CampaignTrialPlan.trialIndex ≠ List.range' 1 c.plannedTrialCount then
    some "campaign trial indices must be ordered and contiguous"
  else if ¬ (c.trials.map CampaignTrialPlan.pairRequestId).Nodup then
    some "campaign trials require unique pair_request_id values"
  else if ¬ (c.trials.map CampaignTrialPlan.evalId).Nodup then
    some "campaign trials require unique eval_id values"
  else if c.evidenceTier ≠ c.modelMode.tier then
    some "campaign evidence tier does not match model mode"
  else none

/-- The contract, if its checks pass. -/
def checked (C : EvalCodec) (c : EvalCampaignContract) : Except RuntimeError EvalCampaignContract :=
  match c.firstError C with
  | some message => .error (.valueError message)
  | none => .ok c

end EvalCampaignContract

/-- `model_dump(mode="json")`. -/
def CampaignTrialPlan.dump (t : CampaignTrialPlan) : Json :=
  .dict [("trial_index", .int t.trialIndex), ("pair_request_id", .str t.pairRequestId),
    ("eval_id", .str t.evalId)]

/-- `model_validate`. -/
def CampaignTrialPlan.ofJson (v : Json) : Option CampaignTrialPlan := do
  let d ← v.asDict
  let trialIndex ← d.field "trial_index" (fun v => (v.boundedInt 1 (some 30)).map Int.toNat)
  let pairRequestId ← d.field "pair_request_id" Json.asStr
  let evalId ← d.field "eval_id" Json.nonEmpty
  some { trialIndex, pairRequestId, evalId }

namespace CampaignBudgetEnvelope

/-- `model_dump(mode="json")`. -/
def dump (C : EvalCodec) (b : CampaignBudgetEnvelope) : Json :=
  .dict [("trial_count", .int b.trialCount), ("per_arm_max_tokens", .int b.perArmMaxTokens),
    ("per_arm_max_cost_usd", .str (C.decimalText b.perArmMaxCostUsd)),
    ("max_total_tokens", .int b.maxTotalTokens),
    ("max_total_cost_usd", .str (C.decimalText b.maxTotalCostUsd))]

/-- `model_validate`. -/
def ofJson (C : EvalCodec) (v : Json) : Option CampaignBudgetEnvelope := do
  let d ← v.asDict
  let trialCount ← d.field "trial_count" (fun v => (v.boundedInt 1 (some 30)).map Int.toNat)
  let perArmMaxTokens ← d.field "per_arm_max_tokens" (Json.boundedInt 1 none)
  let perArmMaxCostUsd ← d.field "per_arm_max_cost_usd" C.decimalOf
  let maxTotalTokens ← d.field "max_total_tokens" (Json.boundedInt 1 none)
  let maxTotalCostUsd ← d.field "max_total_cost_usd" C.decimalOf
  if h : (1 ≤ trialCount ∧ trialCount ≤ 30) ∧ 1 ≤ perArmMaxTokens ∧ 0 < perArmMaxCostUsd ∧
      1 ≤ maxTotalTokens ∧ 0 < maxTotalCostUsd ∧ 2 * trialCount * perArmMaxTokens ≤ maxTotalTokens ∧
      requiredTotalCostUsd trialCount perArmMaxCostUsd ≤ maxTotalCostUsd then
    some
      { trialCount, perArmMaxTokens, perArmMaxCostUsd, maxTotalTokens, maxTotalCostUsd
        trialCount_mem := h.1
        perArmMaxTokens_ge := h.2.1
        perArmMaxCostUsd_pos := h.2.2.1
        maxTotalTokens_ge := h.2.2.2.1
        maxTotalCostUsd_pos := h.2.2.2.2.1
        tokens_cover := h.2.2.2.2.2.1
        cost_covers := h.2.2.2.2.2.2 }
  else none

end CampaignBudgetEnvelope

namespace EvalCampaignContract

/-- `model_dump(mode="json")`. -/
def dump (C : EvalCodec) (c : EvalCampaignContract) : Json :=
  .dict [("schema_version", .str c.schemaVersion), ("aggregator_version", .str c.aggregatorVersion),
    ("campaign_id", .str c.campaignId), ("request_fingerprint", .str c.requestFingerprint),
    ("title", .str c.title.1), ("brief", .str c.brief.1), ("task_pack", .str c.taskPack),
    ("model_mode", .str c.modelMode.value), ("evidence_tier", .str c.evidenceTier.value),
    ("planned_trial_count", .int c.plannedTrialCount),
    ("trials", .list (c.trials.map CampaignTrialPlan.dump)),
    ("pair_model_budget", .dict c.pairModelBudget), ("budget", c.budget.dump C),
    ("max_parallel_pairs", .int c.maxParallelPairs), ("policy", .dict c.policy)]

/-- The fields of `model_validate`. -/
def ofJson (C : EvalCodec) (v : Json) : Option EvalCampaignContract := do
  let d ← v.asDict
  let schemaVersion ← d.field "schema_version" Json.asStr
  let aggregatorVersion ← d.field "aggregator_version" Json.asStr
  let campaignId ← d.field "campaign_id" Json.nonEmpty
  let requestFingerprint ← d.field "request_fingerprint" Json.nonEmpty
  let title ← d.field "title" (SizedString.validate 1 (some 120))
  let brief ← d.field "brief" (SizedString.validate 1 (some 4000))
  let taskPack ← d.field "task_pack" Json.nonEmpty
  let modelMode ← d.field "model_mode" (choiceOf [.scripted, .deepseek] ModelMode.value)
  let evidenceTier ← d.field "evidence_tier" (choiceOf [.deterministic, .livePaired] EvidenceTier.value)
  let plannedTrialCount ← d.field "planned_trial_count"
    (fun v => (v.boundedInt 1 (some 30)).map Int.toNat)
  let trials ← d.field "trials" (Json.listOf CampaignTrialPlan.ofJson)
  let pairModelBudget ← d.field "pair_model_budget" Json.asDict
  let budget ← d.field "budget" (CampaignBudgetEnvelope.ofJson C)
  let maxParallelPairs ← d.field "max_parallel_pairs"
    (fun v => (v.boundedInt 1 (some 8)).map Int.toNat)
  let policy ← d.field "policy" Json.asDict
  some { schemaVersion, aggregatorVersion, campaignId, requestFingerprint, title, brief, taskPack,
         modelMode, evidenceTier, plannedTrialCount, trials, pairModelBudget, budget,
         maxParallelPairs, policy }

/-- `EvalCampaignContract.model_validate(value)`. -/
def validate (C : EvalCodec) (v : Json) : Except RuntimeError EvalCampaignContract :=
  (validated "EvalCampaignContract" (ofJson C v)).bind (checked C)

end EvalCampaignContract

end CrazyHarness
