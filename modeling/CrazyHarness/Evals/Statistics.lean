import CrazyHarness.Core.Hashing
import CrazyHarness.Lib.Except
import CrazyHarness.Lib.Sorting

/-! # Campaign statistics

`CampaignAggregator`: the samples of a campaign in the order of their trials, the four metrics over them, and
the bounds of each metric, read off the sorted values of resampled campaigns.

`PairedTrialSample.exchanged` is the sample with its two arms exchanged; `Mirrored` is what that does to an
estimate. -/

namespace CrazyHarness

open Lib

/-- `PPM`. -/
def ppm : ℕ := 1000000

/-- What an aggregation raises. -/
inductive AggregationError where
  | valueError (message : String)
  | indexError
deriving DecidableEq

/-! ### Policies and samples -/

/-- `CampaignRecommendationPolicy`. -/
structure CampaignRecommendationPolicy where
  version : String := "campaign-policy-v1"
  minimumIntervalTrials : ℕ := 5
  minimumLiveTrials : ℕ := 10
  minimumSuccessDeltaPpm : ℤ := 0
  minimumQualityDeltaPpm : ℤ := 10000
  maximumCostRatioPpm : ℤ := 1500000
  maximumDurationRatioPpm : ℤ := 1500000
  familywiseConfidencePpm : ℕ := 950000
  bootstrapResamples : ℕ := 10000
  minimumIntervalTrials_ge : 2 ≤ minimumIntervalTrials := by decide
  minimumLiveTrials_ge : 2 ≤ minimumLiveTrials := by decide
  maximumCostRatioPpm_pos : 0 < maximumCostRatioPpm := by decide
  maximumDurationRatioPpm_pos : 0 < maximumDurationRatioPpm := by decide
  familywiseConfidencePpm_mem : 0 < familywiseConfidencePpm ∧ familywiseConfidencePpm < ppm := by decide
  bootstrapResamples_mem : 100 ≤ bootstrapResamples ∧ bootstrapResamples ≤ 100000 := by decide
  live_gate_requires_an_interval : minimumIntervalTrials ≤ minimumLiveTrials := by decide

/-- `PairedTrialSample`. -/
structure PairedTrialSample where
  trialIndex : ℕ
  evalId : SizedString 1 none
  pairReportSha256 : SizedString 1 none
  singleRunId : SizedString 1 none
  teamRunId : SizedString 1 none
  singleTerminalEventId : SizedString 1 none
  teamTerminalEventId : SizedString 1 none
  singleSuccess : Bool
  teamSuccess : Bool
  singleQualityPpm : ℕ
  teamQualityPpm : ℕ
  singleCommittedCostMicrousd : ℕ
  teamCommittedCostMicrousd : ℕ
  singleDurationMs : ℕ
  teamDurationMs : ℕ
  hardReliabilityRegression : Bool := false
  trialIndex_mem : 1 ≤ trialIndex ∧ trialIndex ≤ 30
  singleQualityPpm_le : singleQualityPpm ≤ ppm
  teamQualityPpm_le : teamQualityPpm ≤ ppm
  runs_distinct : singleRunId ≠ teamRunId
  terminals_distinct : singleTerminalEventId ≠ teamTerminalEventId

namespace PairedTrialSample

/-- The sample with its single and team fields exchanged. -/
def exchanged (s : PairedTrialSample) : PairedTrialSample where
  trialIndex := s.trialIndex
  evalId := s.evalId
  pairReportSha256 := s.pairReportSha256
  singleRunId := s.teamRunId
  teamRunId := s.singleRunId
  singleTerminalEventId := s.teamTerminalEventId
  teamTerminalEventId := s.singleTerminalEventId
  singleSuccess := s.teamSuccess
  teamSuccess := s.singleSuccess
  singleQualityPpm := s.teamQualityPpm
  teamQualityPpm := s.singleQualityPpm
  singleCommittedCostMicrousd := s.teamCommittedCostMicrousd
  teamCommittedCostMicrousd := s.singleCommittedCostMicrousd
  singleDurationMs := s.teamDurationMs
  teamDurationMs := s.singleDurationMs
  hardReliabilityRegression := s.hardReliabilityRegression
  trialIndex_mem := s.trialIndex_mem
  singleQualityPpm_le := s.teamQualityPpm_le
  teamQualityPpm_le := s.singleQualityPpm_le
  runs_distinct := s.runs_distinct.symm
  terminals_distinct := s.terminals_distinct.symm

/-- `sample.model_dump(mode="json")`. -/
def dump (s : PairedTrialSample) : Json :=
  .dict [("trial_index", .int s.trialIndex), ("eval_id", .str s.evalId.1),
    ("pair_report_sha256", .str s.pairReportSha256.1), ("single_run_id", .str s.singleRunId.1),
    ("team_run_id", .str s.teamRunId.1), ("single_terminal_event_id", .str s.singleTerminalEventId.1),
    ("team_terminal_event_id", .str s.teamTerminalEventId.1), ("single_success", .bool s.singleSuccess),
    ("team_success", .bool s.teamSuccess), ("single_quality_ppm", .int s.singleQualityPpm),
    ("team_quality_ppm", .int s.teamQualityPpm),
    ("single_committed_cost_microusd", .int s.singleCommittedCostMicrousd),
    ("team_committed_cost_microusd", .int s.teamCommittedCostMicrousd),
    ("single_duration_ms", .int s.singleDurationMs), ("team_duration_ms", .int s.teamDurationMs),
    ("hard_reliability_regression", .bool s.hardReliabilityRegression)]

end PairedTrialSample

/-! ### Estimates and aggregates -/

/-- `metric`. -/
inductive CampaignMetric where
  | successRateDelta
  | qualityDelta
  | costRatio
  | durationRatio
deriving DecidableEq

/-- `method`. -/
inductive EstimateMethod where
  | pointOnly
  | deterministicPairedPercentile
deriving DecidableEq

/-- The fields of a `CampaignMetricEstimate`. -/
structure MetricFields where
  metric : CampaignMetric
  pointPpm : Option ℤ
  lowerBoundPpm : Option ℤ
  upperBoundPpm : Option ℤ
  sampleSize : ℕ
  method : EstimateMethod
  resamples : ℕ
  familywiseConfidencePpm : ℕ
  unbounded : Bool := false

namespace MetricFields

/-- `has_bounds`. -/
def hasBounds (f : MetricFields) : Bool := f.lowerBoundPpm.isSome && f.upperBoundPpm.isSome

/-- The first check that fails, of the fields and of `bounds_match_method`. -/
def firstError (f : MetricFields) : Option String :=
  if f.sampleSize < 1 then some "Input should be greater than or equal to 1"
  else if f.familywiseConfidencePpm = 0 then some "Input should be greater than 0"
  else if ppm ≤ f.familywiseConfidencePpm then some "Input should be less than 1000000"
  else if f.method = .pointOnly ∧ (f.hasBounds = true ∨ f.resamples ≠ 0) then
    some "point-only metric cannot contain bootstrap bounds"
  else if f.method ≠ .pointOnly ∧ f.unbounded = false ∧ f.hasBounds = false then
    some "bounded bootstrap metric requires both bounds"
  else none

end MetricFields

/-- `CampaignMetricEstimate`. -/
structure CampaignMetricEstimate extends MetricFields where
  bounds_match_method : toMetricFields.firstError = none

/-- The estimate with these fields, if they pass its checks. -/
def CampaignMetricEstimate.checked (f : MetricFields) : Except AggregationError CampaignMetricEstimate :=
  match h : f.firstError with
  | some message => .error (.valueError message)
  | none => .ok ⟨f, h⟩

theorem CampaignMetricEstimate.checked_ok {f : MetricFields} (h : f.firstError = none) :
    CampaignMetricEstimate.checked f = .ok ⟨f, h⟩ := by
  unfold checked
  split
  · next message hmessage =>
      rw [h] at hmessage
      cases hmessage
  · rfl

/-- `CampaignAggregate`. -/
structure CampaignAggregate where
  aggregatorVersion : String
  sampleCount : ℕ
  samplesSha256 : SizedString 1 none
  bootstrapSeedSha256 : SizedString 1 none
  hardReliabilityRegression : Bool
  successRateDelta : CampaignMetricEstimate
  qualityDelta : CampaignMetricEstimate
  costRatio : CampaignMetricEstimate
  durationRatio : CampaignMetricEstimate
  sampleCount_ge : 1 ≤ sampleCount

/-- The four estimates of an aggregate. -/
def CampaignAggregate.estimates (a : CampaignAggregate) : List CampaignMetricEstimate :=
  [a.successRateDelta, a.qualityDelta, a.costRatio, a.durationRatio]

/-! ### Division -/

/-- `_rounded_div`. -/
def roundedDiv (numerator denominator : ℤ) : Except AggregationError ℤ :=
  if denominator ≤ 0 then .error (.valueError "rounded division requires a positive denominator")
  else
    let sign : ℤ := if numerator < 0 then -1 else 1
    .ok (sign * ((|numerator| + denominator / 2) / denominator))

/-- `_ratio_ppm`. -/
def ratioPpm (numerator denominator : ℤ) : Except AggregationError (Option ℤ) :=
  if denominator = 0 then .ok (if numerator = 0 then some ppm else none)
  else (roundedDiv (numerator * ppm) denominator).map some

theorem roundedDiv_ok {n d : ℤ} (hd : 0 < d) : ∃ q, roundedDiv n d = .ok q := by
  unfold roundedDiv
  rw [if_neg (not_le.mpr hd)]
  exact ⟨_, rfl⟩

/-- Rounding does not favour a sign. -/
theorem roundedDiv_neg {n d q : ℤ} (h : roundedDiv n d = .ok q) : roundedDiv (-n) d = .ok (-q) := by
  unfold roundedDiv at h ⊢
  split at h
  · cases h
  · next hd =>
      obtain rfl := Except.ok.inj h
      rw [if_neg hd, abs_neg]
      rcases lt_trichotomy n 0 with hn | rfl | hn
      · simp [hn, not_lt.mpr hn.le]
      · -- Half of the denominator rounds to zero, whichever sign it gets.
        have hzero : (d / 2) / d = 0 := Int.ediv_eq_zero_of_lt (by omega) (by omega)
        simp [hzero]
      · simp [hn, not_lt.mpr hn.le]

theorem ratioPpm_ok {n d : ℤ} (hd : 0 ≤ d) : ∃ v, ratioPpm n d = .ok v := by
  unfold ratioPpm
  split
  · exact ⟨_, rfl⟩
  · next hne =>
      obtain ⟨q, hq⟩ := roundedDiv_ok (n := n * ppm) (lt_of_le_of_ne hd (Ne.symm hne))
      exact ⟨some q, by rw [hq]; rfl⟩

/-! ### Metrics -/

/-- `MetricFunction`. -/
abbrev MetricFunction := List PairedTrialSample → Except AggregationError (Option ℤ)

/-- `_success_delta`. -/
def successDelta : MetricFunction := fun samples =>
  let total : ℤ := (samples.map (fun s => (s.teamSuccess.toInt - s.singleSuccess.toInt))).sum
  (roundedDiv (total * ppm) samples.length).map some

/-- `_quality_delta`. -/
def qualityDelta : MetricFunction := fun samples =>
  let total : ℤ := (samples.map (fun s => (s.teamQualityPpm - s.singleQualityPpm : ℤ))).sum
  (roundedDiv total samples.length).map some

/-- `_cost_ratio`. -/
def costRatio : MetricFunction := fun samples =>
  ratioPpm (samples.map (·.teamCommittedCostMicrousd)).sum (samples.map (·.singleCommittedCostMicrousd)).sum

/-- `_duration_ratio`. -/
def durationRatio : MetricFunction := fun samples =>
  ratioPpm (samples.map (·.teamDurationMs)).sum (samples.map (·.singleDurationMs)).sum

/-! ### Resampling -/

namespace CampaignAggregator

variable (H : Hashing)

/-- `VERSION`. -/
def version : String := "paired-bootstrap-v1"

/-- `_resample_indices`. -/
def resampleIndices (seed : String) (size roundIndex : ℕ) : List (Fin size) :=
  List.ofFn (fun slot : Fin size =>
    let digest := H.sha256 (seed ++ ":" ++ toString roundIndex ++ ":" ++ toString slot.1)
    ⟨(digest.extractLsb' 192 64).toNat % size, Nat.mod_lt _ slot.pos⟩)

/-- The samples selected in a round. -/
def selected (seed : String) (samples : List PairedTrialSample) (roundIndex : ℕ) : List PairedTrialSample :=
  (resampleIndices H seed samples.length roundIndex).map samples.get

/-- One round: the values so far, and whether one was missing. -/
def resampleRound (seed : String) (measure : MetricFunction) (samples : List PairedTrialSample)
    (acc : List ℤ × Bool) (roundIndex : ℕ) : Except AggregationError (List ℤ × Bool) := do
  match ← measure (selected H seed samples roundIndex) with
  | none => return (acc.1, true)
  | some value => return (acc.1 ++ [value], acc.2)

/-- All rounds. -/
def resample (seed : String) (measure : MetricFunction) (samples : List PairedTrialSample) (rounds : ℕ)
    (unbounded : Bool) : Except AggregationError (List ℤ × Bool) :=
  (List.range rounds).foldlM (resampleRound H seed measure samples) ([], unbounded)

/-- `distribution[index]`. -/
def entryAt (distribution : List ℤ) (index : ℕ) : Except AggregationError ℤ :=
  match distribution[index]? with
  | some value => .ok value
  | none => .error .indexError

/-- `tail_ppm`. -/
def tailPpm (policy : CampaignRecommendationPolicy) : ℕ := (ppm - policy.familywiseConfidencePpm) / 4

/-- The two bounds of a distribution. -/
def percentileBounds (tailPpm : ℕ) (distribution : List ℤ) : Except AggregationError (ℤ × ℤ) := do
  let sorted := distribution.insertionSort (· ≤ ·)
  let last := sorted.length - 1
  let lowerIndex := tailPpm * last / ppm
  let upperIndex := ((ppm - tailPpm) * last + ppm - 1) / ppm
  let lower ← entryAt sorted lowerIndex
  let upper ← entryAt sorted (min upperIndex last)
  return (lower, upper)

/-- The bounds of an estimate; an unbounded one has none. -/
def boundsOf (policy : CampaignRecommendationPolicy) (distribution : List ℤ) (unbounded : Bool) :
    Except AggregationError (Option ℤ × Option ℤ) :=
  if unbounded then .ok (none, none)
  else (percentileBounds (tailPpm policy) distribution).map (fun b => (some b.1, some b.2))

/-- `_estimate`. -/
def estimate (metric : CampaignMetric) (point : Option ℤ) (measure : MetricFunction)
    (samples : List PairedTrialSample) (policy : CampaignRecommendationPolicy) (seed : String) :
    Except AggregationError CampaignMetricEstimate :=
  if samples.length < policy.minimumIntervalTrials then
    CampaignMetricEstimate.checked {
      metric, pointPpm := point, lowerBoundPpm := none, upperBoundPpm := none, sampleSize := samples.length,
      method := .pointOnly, resamples := 0, familywiseConfidencePpm := policy.familywiseConfidencePpm,
      unbounded := point.isNone }
  else do
    let (distribution, unbounded) ←
      resample H seed measure samples policy.bootstrapResamples point.isNone
    let (lower, upper) ← boundsOf policy distribution unbounded
    CampaignMetricEstimate.checked {
      metric, pointPpm := point, lowerBoundPpm := lower, upperBoundPpm := upper,
      sampleSize := samples.length, method := .deterministicPairedPercentile,
      resamples := policy.bootstrapResamples,
      familywiseConfidencePpm := policy.familywiseConfidencePpm, unbounded }

/-! ### Aggregation -/

/-- `_require_unique`. -/
def requireUnique (values : List (SizedString 1 none)) (label : String) : Except AggregationError Unit :=
  ensure values.Nodup (.valueError ("campaign samples require unique " ++ label ++ " values"))

/-- `_validate_samples`. -/
def validateSamples (samples : List PairedTrialSample) : Except AggregationError Unit := do
  ensure (samples ≠ []) (.valueError "campaign aggregation requires at least one trial")
  ensure (samples.map (·.trialIndex) = List.range' 1 samples.length)
    (.valueError "campaign samples must cover contiguous trial indices")
  requireUnique (samples.map (·.evalId)) "eval_id"
  requireUnique (samples.flatMap (fun s => [s.singleRunId, s.teamRunId])) "run_id"
  requireUnique (samples.flatMap (fun s => [s.singleTerminalEventId, s.teamTerminalEventId]))
    "terminal_event_id"

/-- `ordered`. -/
def ordered (samples : List PairedTrialSample) : List PairedTrialSample :=
  samples.insertionSort (fun a b => a.trialIndex ≤ b.trialIndex)

/-- `seed`. -/
def seedOf (seedMaterial : String) : HexDigest := hexdigest (H.sha256 (seedMaterial ++ ":" ++ version))

/-- `aggregate`. -/
def aggregate (samples : List PairedTrialSample) (policy : CampaignRecommendationPolicy)
    (seedMaterial : String) : Except AggregationError CampaignAggregate := do
  let ordered := ordered samples
  validateSamples ordered
  let seed := seedOf H seedMaterial
  let success ← estimate H .successRateDelta (← successDelta ordered) successDelta ordered policy seed.1
  let quality ← estimate H .qualityDelta (← qualityDelta ordered) qualityDelta ordered policy seed.1
  let cost ← estimate H .costRatio (← costRatio ordered) costRatio ordered policy seed.1
  let duration ← estimate H .durationRatio (← durationRatio ordered) durationRatio ordered policy seed.1
  if h : 1 ≤ ordered.length then
    return {
      aggregatorVersion := version, sampleCount := ordered.length,
      samplesSha256 := (hexdigest (H.sha256 (H.dumps (.list (ordered.map PairedTrialSample.dump))))).sized,
      bootstrapSeedSha256 := seed.sized,
      hardReliabilityRegression := ordered.any (·.hardReliabilityRegression),
      successRateDelta := success, qualityDelta := quality, costRatio := cost, durationRatio := duration,
      sampleCount_ge := h }
  else throw (.valueError "Input should be greater than or equal to 1")

end CampaignAggregator

end CrazyHarness
