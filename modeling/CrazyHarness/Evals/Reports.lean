import CrazyHarness.Evals.Campaigns
import CrazyHarness.Evals.Statistics

/-! # The reports of campaigns

`report`, `list_reports` and `advance_ready` of `control_plane/eval_campaigns.py`.  A report is put
together from the log of its campaign; one call of `advance_ready` advances every campaign whose report
is running, and what raises ends the call. -/

namespace CrazyHarness

open Lib RuntimeM

variable {X : Interface}

/-- The statuses of a campaign. -/
inductive CampaignStatus where
  | running
  | completed
  | cancelled
deriving DecidableEq

/-- The statuses of a trial. -/
inductive CampaignTrialStatus where
  | planned
  | started
  | linked
  | released
  | observed
  | creationFailed
deriving DecidableEq

/-- `CampaignTrialSummary`. -/
structure CampaignTrialSummary where
  trialIndex : ℕ
  evalId : String
  status : CampaignTrialStatus
  evidenceValid : Option Bool := none
  invalidReasons : List String := []
  sample : Option PairedTrialSample := none

/-- `EvalCampaignReport`, without the aggregate and the recommendation of a completed one. -/
structure EvalCampaignReport where
  campaignId : String
  status : CampaignStatus
  contract : EvalCampaignContract
  scope : Option Dict
  scopeFingerprint : Option String
  plannedTrialCount : ℕ
  linkedTrialCount : ℕ
  releasedTrialCount : ℕ
  completedTrialCount : ℕ
  invalidTrialCount : ℕ
  trials : List CampaignTrialSummary
  evidenceValid : Bool
  invalidReasons : List String

/-- `model_validate` of a persisted report and of a persisted sample. -/
structure ReportModels where
  report : Json → Option EvalCampaignReport
  sample : Json → Option PairedTrialSample

namespace EvalCampaignService

variable (S : EvalCampaignService) (V : ReportModels)

/-! ### Reports -/

/-- What iterating over a value gives. -/
def itemsOf (v : Json) : Except RuntimeError (List Json) :=
  match v with
  | .list xs => .ok xs
  | .dict d => .ok (d.map (fun kv => .str kv.1))
  | v =>
      match v.asStr with
      | some s => .ok (s.toList.map (fun c => .str (String.singleton c)))
      | none => .error .typeError

/-- The reasons that an event gives, or those it has by default. -/
def reasonsOf (e : Event) (default : List String) : Except RuntimeError (List String) :=
  match e.get? "invalid_reasons" with
  | none => .ok default
  | some v => do
      let items ← itemsOf v
      return items.map Json.pyStr

/-- The last fact about the trial. -/
def lastFact (facts : List (ℤ × Event)) (trial : CampaignTrialPlan) : Option Event :=
  (facts.reverse.find? (fun fact => fact.1 = (trial.trialIndex : ℤ))).map Prod.snd

/-- `PairedTrialSample.model_validate`, of a sample that may be missing. -/
def sampleOf (v : Json) : Except RuntimeError (Option PairedTrialSample) :=
  if v = .null then .ok none
  else do
    let sample ← validated "PairedTrialSample" (V.sample v)
    return some sample

/-- A trial that was observed. -/
def observedSummary (trial : CampaignTrialPlan) (e : Event) : Except RuntimeError CampaignTrialSummary := do
  let reasons ← reasonsOf e []
  let sample ← sampleOf V ((e.get? "sample").getD .null)
  return { trialIndex := trial.trialIndex, evalId := trial.evalId, status := .observed,
           evidenceValid := some ((e.get? "evidence_valid").getD .null).truthy, invalidReasons := reasons,
           sample := sample }

/-- One trial of a report. -/
def summaryOf (facts : CampaignFacts) (trial : CampaignTrialPlan) :
    Except RuntimeError CampaignTrialSummary :=
  match lastFact facts.failed trial with
  | some e => do
      let reasons ← reasonsOf e ["pair_creation_failed"]
      return { trialIndex := trial.trialIndex, evalId := trial.evalId, status := .creationFailed,
               evidenceValid := some false, invalidReasons := reasons }
  | none =>
      match lastFact facts.observed trial with
      | some e => observedSummary V trial e
      | none => .ok
          { trialIndex := trial.trialIndex
            evalId := trial.evalId
            status := if About facts.released trial then .released
              else if About facts.linked trial then .linked
              else if About facts.started trial then .started
              else .planned }

/-- The number of trials that facts are about. -/
def trialCount (facts : List (ℤ × Event)) : ℕ := (facts.map Prod.fst).dedup.length

/-- The reasons of an invalid trial, with its index. -/
def indexedReasons (trial : CampaignTrialSummary) : List String :=
  if trial.evidenceValid = some false then
    trial.invalidReasons.map (fun reason => "trial_" ++ toString trial.trialIndex ++ ":" ++ reason)
  else []

/-- The scope among the facts of a log. -/
def scopeOf (campaignId : String) : List Event → Except RuntimeError (Option Dict)
  | [] => .ok none
  | [e] => do
      let scope ← eventItem e "scope"
      match scope with
      | .dict scope => return some scope
      | _ => throw (notValid "CampaignScope")
  | _ => .error (.runtimeError ("campaign has multiple scope facts: " ++ campaignId))

/-- The report of a campaign without a terminal fact. -/
def runningReport (campaignId : String) (contract : EvalCampaignContract) (log : List Event) :
    Except RuntimeError EvalCampaignReport := do
  let scope ← scopeOf campaignId (log.filter (fun e => e.type = "eval.campaign.scope.bound"))
  let facts ← factsOf log
  let trials ← contract.trials.mapM (summaryOf V facts)
  let invalid := trials.filter (fun trial => trial.evidenceValid = some false)
  if campaignId = "" then throw (notValid "EvalCampaignReport")
  else return { campaignId, status := .running, contract, scope,
                scopeFingerprint := scope.map (fun scope => S.codec.sha256 (Json.dict scope).canonical),
                plannedTrialCount := contract.plannedTrialCount
                linkedTrialCount := trialCount facts.linked
                releasedTrialCount := trialCount facts.released
                completedTrialCount := trialCount facts.observed + trialCount facts.failed
                invalidTrialCount := invalid.length
                trials, evidenceValid := invalid.isEmpty
                invalidReasons := trials.flatMap indexedReasons }

/-- The status that a terminal fact asks of its report. -/
def terminalStatus (e : Event) : CampaignStatus :=
  if e.type = "eval.campaign.completed" then .completed else .cancelled

/-- The report of a terminal fact. -/
def terminalReport (campaignId : String) (e : Event) : Except RuntimeError EvalCampaignReport := do
  let v ← eventItem e "report"
  let report ← validated "EvalCampaignReport" (V.report v)
  if report.status = terminalStatus e then return report
  else throw (.runtimeError ("campaign terminal event disagrees with its report: " ++ campaignId))

/-- `report`. -/
def report (campaignId : String) : RuntimeM X EvalCampaignReport := do
  let log ← readAll (some campaignId)
  match log.filter IsCampaignTerminal with
  | [] => do
      let c ← S.contract campaignId
      ofResult (S.runningReport V campaignId c log)
  | [e] => ofResult (terminalReport V campaignId e)
  | _ => throw (.runtimeError ("campaign has multiple terminal reports: " ++ campaignId))

/-- The reports of some campaigns. -/
def reportAll : List String → RuntimeM X (List EvalCampaignReport)
  | [] => pure []
  | campaignId :: ids => do
      let report ← S.report V campaignId
      let reports ← reportAll ids
      return report :: reports

/-- The campaigns of a log, in the order of their identifiers. -/
def campaignIds (log : List Event) : List String :=
  ((log.filter (fun e => e.type = "eval.campaign.created")).map Event.runId).dedup.insertionSort (· ≤ ·)

/-- `list_reports`. -/
def listReports : RuntimeM X (List EvalCampaignReport) := do
  let log ← readAll none
  S.reportAll V (campaignIds log)

/-! ### The loop over the campaigns -/

/-- The loop of `advance_ready`. -/
def advanceEach (callbacks : CampaignCallbacks X) : List EvalCampaignReport → RuntimeM X ℕ
  | [] => pure 0
  | report :: reports =>
      if report.status ≠ .running then advanceEach callbacks reports
      else do
        let progressed ← S.advanceOne callbacks report.campaignId
        let rest ← advanceEach callbacks reports
        return progressed.toNat + rest

/-- `advance_ready`. -/
def advanceReady (callbacks : CampaignCallbacks X) : RuntimeM X ℕ := do
  let reports ← S.listReports V
  S.advanceEach callbacks reports

/-- The calls of `advance_one` that the loop makes, with how each went. -/
def callsEach (callbacks : CampaignCallbacks X) :
    List EvalCampaignReport → RuntimeM X (List (String × Except RuntimeError Bool))
  | [] => pure []
  | report :: reports =>
      if report.status ≠ .running then callsEach callbacks reports
      else do
        let done ← attempt (S.advanceOne callbacks report.campaignId)
        match done with
        | .error e => pure [(report.campaignId, .error e)]
        | .ok progressed => do
            let calls ← callsEach callbacks reports
            return (report.campaignId, .ok progressed) :: calls

/-- The calls of `advance_one` in `advance_ready`. -/
def advanceCalls (callbacks : CampaignCallbacks X) :
    RuntimeM X (List (String × Except RuntimeError Bool)) := do
  let reports ← S.listReports V
  S.callsEach callbacks reports

/-- What the loop makes of its calls. -/
def totalOf : List (String × Except RuntimeError Bool) → Except RuntimeError ℕ
  | [] => .ok 0
  | call :: calls => do
      let progressed ← call.2
      let rest ← totalOf calls
      return progressed.toNat + rest

variable {S V} {callbacks : CampaignCallbacks X}

theorem andThen_assoc {α β γ : Type} (p : RuntimeM X α) (f : α → RuntimeM X β)
    (g : β → RuntimeM X γ) : p >>= f >>= g = p >>= fun a => f a >>= g := by
  refine (Program.bind_assoc p _ _).trans ?_
  congr 1
  funext r
  cases r <;> rfl

theorem advanceEach_eq_calls (reports : List EvalCampaignReport) :
    S.advanceEach callbacks reports =
      S.callsEach callbacks reports >>= fun calls => ofResult (totalOf calls) := by
  induction reports with
  | nil => rfl
  | cons report reports ih =>
      rw [advanceEach, callsEach]
      split
      · exact ih
      · rw [ih]
        refine Eq.trans ?_ (Program.bind_assoc (attempt (S.advanceOne callbacks report.campaignId)) _ _).symm
        refine Eq.trans ?_ (Program.bind_assoc (S.advanceOne callbacks report.campaignId) _ _).symm
        refine congrArg (Program.bind (S.advanceOne callbacks report.campaignId)) (funext fun r => ?_)
        cases r with
        | error e => rfl
        | ok progressed =>
            refine (andThen_assoc _ _ _).trans (Eq.trans ?_ (andThen_assoc _ _ _).symm)
            refine congrArg (Program.bind (S.callsEach callbacks reports)) (funext fun calls => ?_)
            cases calls with
            | error e => rfl
            | ok calls =>
                show (ofResult (totalOf calls) >>= fun rest => pure (progressed.toNat + rest) :
                    RuntimeM X ℕ) = ofResult (totalOf ((report.campaignId, .ok progressed) :: calls))
                rw [totalOf]
                cases totalOf calls <;> rfl

/-- The calls are those of `advance_ready`. -/
theorem advanceReady_eq_calls :
    S.advanceReady V callbacks =
      S.advanceCalls V callbacks >>= fun calls => ofResult (totalOf calls) := by
  unfold advanceReady advanceCalls
  rw [andThen_assoc]
  congr 1
  funext reports
  exact advanceEach_eq_calls reports

end EvalCampaignService

end CrazyHarness
