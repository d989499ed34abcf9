import CrazyHarness.Evals.Requests
import CrazyHarness.Evals.Statistics

/-! # Recommendations

`CampaignRecommendationPolicy.decide`: the evidence of a campaign passes gate after gate, and the first that fails
decides.  A gate compares one optional value with its threshold; a missing value fails.

* `failedGates_mono`: better values fail no further gate.
* `recommendation_monotone`: better evidence is not recommended less, and only complete, valid, live evidence is
  recommended at all. -/

namespace CrazyHarness

/-! ### Evidence -/

/-- `RecommendationOutcome`. -/
inductive RecommendationOutcome where
  | insufficientLiveEvidence
  | recommendTeam
  | keepSingle
deriving DecidableEq

/-- How far an outcome goes towards Team. -/
def RecommendationOutcome.rank : RecommendationOutcome → ℕ
  | .keepSingle => 0
  | .insufficientLiveEvidence => 1
  | .recommendTeam => 2

/-- `TeamRecommendationDecision`. -/
structure TeamRecommendationDecision where
  outcome : RecommendationOutcome
  reason : String
  failedThresholds : List String := []
deriving DecidableEq

/-- `CampaignRecommendationEvidence`. -/
structure CampaignRecommendationEvidence where
  evidenceTier : EvidenceTier
  plannedTrialCount : ℕ
  completedTrialCount : ℕ
  invalidTrialCount : ℕ
  scopeValid : Bool
  aggregate : Option CampaignAggregate
  plannedTrialCount_ge : 1 ≤ plannedTrialCount
  completed_le : completedTrialCount ≤ plannedTrialCount
  invalid_le : invalidTrialCount ≤ completedTrialCount
  counts_match_aggregate : ∀ a ∈ aggregate, a.sampleCount = completedTrialCount - invalidTrialCount

/-! ### Gates -/

/-- The direction of a threshold. -/
inductive GateDirection where
  | minimum
  | maximum
deriving DecidableEq

/-- A value that has to keep to a threshold, and the name under which it fails. -/
structure Gate where
  name : String
  value : Option ℤ
  threshold : ℤ
  direction : GateDirection

/-- The gate fails. -/
def Gate.fails (gate : Gate) : Bool :=
  match gate.value with
  | none => true
  | some value =>
      match gate.direction with
      | .minimum => value < gate.threshold
      | .maximum => value > gate.threshold

/-- The names of the gates that fail. -/
def failedGates (gates : List Gate) : List String := (gates.filter Gate.fails).map (·.name)

namespace CampaignRecommendationPolicy

variable (policy : CampaignRecommendationPolicy)

/-- The gates of `_failed_scripted_veto_gates`. -/
def scriptedVetoGates (aggregate : CampaignAggregate) : List Gate :=
  [⟨"scripted_success_regression", aggregate.successRateDelta.pointPpm, 0, .minimum⟩,
    ⟨"scripted_quality_regression", aggregate.qualityDelta.pointPpm, 0, .minimum⟩,
    ⟨"scripted_cost_regression", aggregate.costRatio.pointPpm, policy.maximumCostRatioPpm, .maximum⟩,
    ⟨"scripted_duration_regression", aggregate.durationRatio.pointPpm, policy.maximumDurationRatioPpm,
      .maximum⟩]

/-- The gates of `_failed_point_gates`. -/
def pointGates (aggregate : CampaignAggregate) : List Gate :=
  [⟨"minimum_success_delta_ppm", aggregate.successRateDelta.pointPpm, policy.minimumSuccessDeltaPpm,
      .minimum⟩,
    ⟨"minimum_quality_delta_ppm", aggregate.qualityDelta.pointPpm, policy.minimumQualityDeltaPpm, .minimum⟩,
    ⟨"maximum_cost_ratio_ppm", aggregate.costRatio.pointPpm, policy.maximumCostRatioPpm, .maximum⟩,
    ⟨"maximum_duration_ratio_ppm", aggregate.durationRatio.pointPpm, policy.maximumDurationRatioPpm,
      .maximum⟩]

/-- The gates of `_failed_confidence_gates`. -/
def confidenceGates (aggregate : CampaignAggregate) : List Gate :=
  [⟨"success_confidence_bound", aggregate.successRateDelta.lowerBoundPpm, policy.minimumSuccessDeltaPpm,
      .minimum⟩,
    ⟨"quality_confidence_bound", aggregate.qualityDelta.lowerBoundPpm, policy.minimumQualityDeltaPpm,
      .minimum⟩,
    ⟨"cost_confidence_bound", aggregate.costRatio.upperBoundPpm, policy.maximumCostRatioPpm, .maximum⟩,
    ⟨"duration_confidence_bound", aggregate.durationRatio.upperBoundPpm, policy.maximumDurationRatioPpm,
      .maximum⟩]

/-! ### The decision -/

/-- `invalid`. -/
def invalidReasons (evidence : CampaignRecommendationEvidence) : List String :=
  (if evidence.scopeValid then [] else ["scope_mismatch"]) ++
    (if evidence.completedTrialCount ≠ evidence.plannedTrialCount then ["incomplete_trial_plan"] else []) ++
    (if evidence.invalidTrialCount ≠ 0 then ["invalid_trials"] else []) ++
    (if evidence.aggregate.isNone then ["missing_aggregate"] else [])

/-- The decision on evidence of another tier than the live one. -/
def decideScripted (aggregate : CampaignAggregate) : TeamRecommendationDecision :=
  let scriptedGates := failedGates (policy.scriptedVetoGates aggregate)
  if scriptedGates ≠ [] then
    { outcome := .keepSingle, reason := "Team regressed under deterministic campaign evidence",
      failedThresholds := scriptedGates }
  else
    { outcome := .insufficientLiveEvidence,
      reason := "deterministic campaigns can veto regressions but cannot promote Team" }

/-- The decision on live evidence. -/
def decideLive (aggregate : CampaignAggregate) : TeamRecommendationDecision :=
  let pointGates := failedGates (policy.pointGates aggregate)
  let confidenceGates := failedGates (policy.confidenceGates aggregate)
  if pointGates ≠ [] then
    { outcome := .keepSingle, reason := "Team failed at least one campaign point-estimate gate",
      failedThresholds := pointGates }
  else if aggregate.sampleCount < policy.minimumLiveTrials then
    { outcome := .insufficientLiveEvidence,
      reason := "valid live trial count is below the initial promotion minimum",
      failedThresholds := ["minimum_live_trials"] }
  else if confidenceGates ≠ [] then
    { outcome := .insufficientLiveEvidence,
      reason := "point estimates pass, but family-wise promotion bounds do not",
      failedThresholds := confidenceGates }
  else
    { outcome := .recommendTeam, reason := "Team passed every point and family-wise confidence gate" }

/-- The decision on an aggregate. -/
def decideAggregate (tier : EvidenceTier) (aggregate : CampaignAggregate) : TeamRecommendationDecision :=
  if aggregate.hardReliabilityRegression then
    { outcome := .keepSingle, reason := "Team introduced a hard reliability regression",
      failedThresholds := ["hard_reliability_regression"] }
  else if tier ≠ .livePaired then policy.decideScripted aggregate
  else policy.decideLive aggregate

/-- The decision on evidence that is incomplete or invalid. -/
def decideInvalid (reasons : List String) : TeamRecommendationDecision where
  outcome := .insufficientLiveEvidence
  reason := "campaign evidence is incomplete or invalid"
  failedThresholds := reasons

/-- `decide`. -/
def decide (evidence : CampaignRecommendationEvidence) : TeamRecommendationDecision :=
  match invalidReasons evidence, evidence.aggregate with
  | [], some aggregate => policy.decideAggregate evidence.evidenceTier aggregate
  | reasons, _ => decideInvalid reasons

end CampaignRecommendationPolicy

/-! ### Better values -/

/-- A value is not lower than another one; a missing value is the lowest. -/
def NotLower (a b : Option ℤ) : Prop := ∀ x, a = some x → ∃ y, b = some y ∧ x ≤ y

/-- A value is not higher than another one; a missing value is the highest. -/
def NotHigher (a b : Option ℤ) : Prop := ∀ x, a = some x → ∃ y, b = some y ∧ y ≤ x

theorem NotLower.of_le {x y : ℤ} (h : x ≤ y) : NotLower (some x) (some y) := by
  intro z hz
  obtain rfl := Option.some.inj hz
  exact ⟨y, rfl, h⟩

theorem NotHigher.refl (a : Option ℤ) : NotHigher a a := fun x hx => ⟨x, hx, le_refl x⟩

/-- The second aggregate is at least as good for Team as the first. -/
structure AtLeastAsGood (a b : CampaignAggregate) : Prop where
  reliability : b.hardReliabilityRegression = true → a.hardReliabilityRegression = true
  success : NotLower a.successRateDelta.pointPpm b.successRateDelta.pointPpm
  quality : NotLower a.qualityDelta.pointPpm b.qualityDelta.pointPpm
  cost : NotHigher a.costRatio.pointPpm b.costRatio.pointPpm
  duration : NotHigher a.durationRatio.pointPpm b.durationRatio.pointPpm
  success_bound : NotLower a.successRateDelta.lowerBoundPpm b.successRateDelta.lowerBoundPpm
  quality_bound : NotLower a.qualityDelta.lowerBoundPpm b.qualityDelta.lowerBoundPpm
  cost_bound : NotHigher a.costRatio.upperBoundPpm b.costRatio.upperBoundPpm
  duration_bound : NotHigher a.durationRatio.upperBoundPpm b.durationRatio.upperBoundPpm

/-- One gate over a value that is at least as good. -/
inductive Gate.Improves : Gate → Gate → Prop
  | minimum (name : String) (threshold : ℤ) {a b : Option ℤ} (h : NotLower a b) :
      Gate.Improves ⟨name, a, threshold, .minimum⟩ ⟨name, b, threshold, .minimum⟩
  | maximum (name : String) (threshold : ℤ) {a b : Option ℤ} (h : NotHigher a b) :
      Gate.Improves ⟨name, a, threshold, .maximum⟩ ⟨name, b, threshold, .maximum⟩

theorem Gate.Improves.fails {gate gate' : Gate} (h : gate.Improves gate') (hfails : gate'.fails = true) :
    gate.fails = true := by
  cases h with
  | minimum name threshold h =>
      rename_i a b
      cases a with
      | none => rfl
      | some x =>
          obtain ⟨y, rfl, hxy⟩ := h x rfl
          have hy : y < threshold := of_decide_eq_true hfails
          exact decide_eq_true (lt_of_le_of_lt hxy hy)
  | maximum name threshold h =>
      rename_i a b
      cases a with
      | none => rfl
      | some x =>
          obtain ⟨y, rfl, hyx⟩ := h x rfl
          have hy : y > threshold := of_decide_eq_true hfails
          exact decide_eq_true (lt_of_lt_of_le hy hyx)

theorem failedGates_eq_nil_iff {gates : List Gate} :
    failedGates gates = [] ↔ ∀ gate ∈ gates, gate.fails = false := by
  unfold failedGates
  rw [List.map_eq_nil_iff, List.filter_eq_nil_iff]
  simp

/-- Better values fail no gate that the worse ones passed. -/
theorem failedGates_mono {gates gates' : List Gate} (h : List.Forall₂ Gate.Improves gates gates')
    (hpass : failedGates gates = []) : failedGates gates' = [] := by
  rw [failedGates_eq_nil_iff] at hpass ⊢
  induction h with
  | nil => simp
  | @cons gate gate' gates gates' hgate _ ih =>
      intro g hg
      rcases List.mem_cons.mp hg with rfl | hg
      · by_contra hfails
        have hfails' := hgate.fails (Bool.eq_true_of_not_eq_false hfails)
        rw [hpass gate List.mem_cons_self] at hfails'
        cases hfails'
      · exact ih (fun g hg => hpass g (List.mem_cons_of_mem gate hg)) g hg

/-! ### Better evidence -/

namespace CampaignRecommendationPolicy

variable {policy : CampaignRecommendationPolicy} {a b : CampaignAggregate}

theorem improves_scripted (h : AtLeastAsGood a b) :
    List.Forall₂ Gate.Improves (policy.scriptedVetoGates a) (policy.scriptedVetoGates b) :=
  .cons (.minimum _ _ h.success) (.cons (.minimum _ _ h.quality)
    (.cons (.maximum _ _ h.cost) (.cons (.maximum _ _ h.duration) .nil)))

theorem improves_points (h : AtLeastAsGood a b) :
    List.Forall₂ Gate.Improves (policy.pointGates a) (policy.pointGates b) :=
  .cons (.minimum _ _ h.success) (.cons (.minimum _ _ h.quality)
    (.cons (.maximum _ _ h.cost) (.cons (.maximum _ _ h.duration) .nil)))

theorem improves_bounds (h : AtLeastAsGood a b) :
    List.Forall₂ Gate.Improves (policy.confidenceGates a) (policy.confidenceGates b) :=
  .cons (.minimum _ _ h.success_bound) (.cons (.minimum _ _ h.quality_bound)
    (.cons (.maximum _ _ h.cost_bound) (.cons (.maximum _ _ h.duration_bound) .nil)))

theorem decideScripted_mono (h : AtLeastAsGood a b) :
    (policy.decideScripted a).outcome.rank ≤ (policy.decideScripted b).outcome.rank := by
  unfold decideScripted
  by_cases hpass : failedGates (policy.scriptedVetoGates a) = []
  · have hpass' := failedGates_mono (improves_scripted h) hpass
    simp [hpass, hpass']
  · simp [hpass, RecommendationOutcome.rank]

theorem decideLive_mono (h : AtLeastAsGood a b) (hcount : b.sampleCount = a.sampleCount) :
    (policy.decideLive a).outcome.rank ≤ (policy.decideLive b).outcome.rank := by
  unfold decideLive
  rw [hcount]
  by_cases hpoints : failedGates (policy.pointGates a) = []
  · have hpoints' := failedGates_mono (improves_points h) hpoints
    simp only [hpoints, hpoints']
    by_cases hsamples : a.sampleCount < policy.minimumLiveTrials
    · simp [hsamples]
    · by_cases hbounds : failedGates (policy.confidenceGates a) = []
      · have hbounds' := failedGates_mono (improves_bounds h) hbounds
        simp [hsamples, hbounds, hbounds']
      · -- The worse evidence stops here; the better one goes at least as far.
        by_cases hbounds' : failedGates (policy.confidenceGates b) = [] <;>
          simp [hsamples, hbounds, hbounds', RecommendationOutcome.rank]
  · simp [hpoints, RecommendationOutcome.rank]

theorem decideAggregate_mono (tier : EvidenceTier) (h : AtLeastAsGood a b)
    (hcount : b.sampleCount = a.sampleCount) :
    (policy.decideAggregate tier a).outcome.rank ≤ (policy.decideAggregate tier b).outcome.rank := by
  unfold decideAggregate
  by_cases hregression : a.hardReliabilityRegression = true
  · simp [hregression, RecommendationOutcome.rank]
  · have hregression' : ¬ b.hardReliabilityRegression = true := fun hb => hregression (h.reliability hb)
    rw [if_neg hregression, if_neg hregression']
    split
    · exact decideScripted_mono h
    · exact decideLive_mono h hcount

theorem decideScripted_ne_recommend : (policy.decideScripted a).outcome ≠ .recommendTeam := by
  unfold decideScripted
  dsimp only
  split <;> simp

/-- What is recommended was decided on the live aggregate. -/
theorem decideAggregate_recommend {tier : EvidenceTier}
    (h : (policy.decideAggregate tier a).outcome = .recommendTeam) : tier = .livePaired := by
  by_contra htier
  unfold decideAggregate at h
  rw [if_pos htier] at h
  split at h
  · cases h
  · exact decideScripted_ne_recommend h

/-! ### Two pieces of evidence -/

/-- Two pieces of evidence that differ in their metrics only, the second with metrics at least as good. -/
structure Improves (e e' : CampaignRecommendationEvidence) : Prop where
  tier : e'.evidenceTier = e.evidenceTier
  planned : e'.plannedTrialCount = e.plannedTrialCount
  completed : e'.completedTrialCount = e.completedTrialCount
  invalid : e'.invalidTrialCount = e.invalidTrialCount
  scope : e'.scopeValid = e.scopeValid
  samples : e'.aggregate.map (·.sampleCount) = e.aggregate.map (·.sampleCount)
  metrics : ∀ a ∈ e.aggregate, ∀ b ∈ e'.aggregate, AtLeastAsGood a b

theorem invalidReasons_congr {e e' : CampaignRecommendationEvidence} (h : Improves e e') :
    invalidReasons e' = invalidReasons e := by
  have hnone : e'.aggregate.isNone = e.aggregate.isNone := by
    rw [← Option.isNone_map (f := (·.sampleCount)), h.samples, Option.isNone_map]
  unfold invalidReasons
  rw [h.scope, h.completed, h.planned, h.invalid, hnone]

theorem decide_mono {e e' : CampaignRecommendationEvidence} (h : Improves e e') :
    (policy.decide e).outcome.rank ≤ (policy.decide e').outcome.rank := by
  unfold decide
  rw [invalidReasons_congr h, h.tier]
  have hsamples := h.samples
  have hmetrics := h.metrics
  cases ha : e.aggregate with
  | none =>
      rw [ha, Option.map_none, Option.map_eq_none_iff] at hsamples
      rw [hsamples]
  | some a =>
      rw [ha, Option.map_some, Option.map_eq_some_iff] at hsamples
      obtain ⟨b, hb, hcount⟩ := hsamples
      rw [hb]
      cases invalidReasons e with
      | nil => exact decideAggregate_mono e.evidenceTier (hmetrics a ha b hb) hcount
      | cons reason reasons => exact le_refl _

theorem decide_recommend {e : CampaignRecommendationEvidence}
    (h : (policy.decide e).outcome = .recommendTeam) :
    e.scopeValid = true ∧ e.completedTrialCount = e.plannedTrialCount ∧ e.invalidTrialCount = 0 ∧
      e.aggregate.isSome = true ∧ e.evidenceTier = .livePaired := by
  unfold decide at h
  split at h
  · next aggregate hreasons haggregate =>
      have hlive := decideAggregate_recommend h
      simp only [invalidReasons, List.append_eq_nil_iff] at hreasons
      obtain ⟨⟨⟨hscope, hcompleted⟩, hinvalid⟩, -⟩ := hreasons
      refine ⟨?_, ?_, ?_, ?_, hlive⟩
      · simpa using hscope
      · simpa using hcompleted
      · simpa using hinvalid
      · rw [haggregate]
        rfl
  · cases h

/-- Better evidence is not recommended less, and only complete, valid, live evidence is recommended. -/
theorem recommendation_monotone (policy : CampaignRecommendationPolicy) :
    (∀ e e', Improves e e' → (policy.decide e).outcome.rank ≤ (policy.decide e').outcome.rank) ∧
      ∀ e, (policy.decide e).outcome = .recommendTeam →
        e.scopeValid = true ∧ e.completedTrialCount = e.plannedTrialCount ∧ e.invalidTrialCount = 0 ∧
          e.aggregate.isSome = true ∧ e.evidenceTier = .livePaired :=
  ⟨fun _ _ h => decide_mono h, fun _ h => decide_recommend h⟩

/-- An estimate whose bounds are its point. -/
def sureEstimate (metric : CampaignMetric) (point : ℤ) : CampaignMetricEstimate where
  metric
  pointPpm := some point
  lowerBoundPpm := some point
  upperBoundPpm := some point
  sampleSize := 10
  method := .deterministicPairedPercentile
  resamples := 10000
  familywiseConfidencePpm := 950000
  bounds_match_method := rfl

/-- Ten live trials in which Team gains this much quality and costs what Single costs. -/
def qualityEvidence (quality : ℤ) : CampaignRecommendationEvidence where
  evidenceTier := .livePaired
  plannedTrialCount := 10
  completedTrialCount := 10
  invalidTrialCount := 0
  scopeValid := true
  aggregate := some {
    aggregatorVersion := CampaignAggregator.version, sampleCount := 10,
    samplesSha256 := ⟨"ten-samples", by decide⟩, bootstrapSeedSha256 := ⟨"ten-seeds", by decide⟩,
    hardReliabilityRegression := false,
    successRateDelta := sureEstimate .successRateDelta 0, qualityDelta := sureEstimate .qualityDelta quality,
    costRatio := sureEstimate .costRatio 1000000, durationRatio := sureEstimate .durationRatio 1000000,
    sampleCount_ge := by decide }
  plannedTrialCount_ge := by decide
  completed_le := le_refl 10
  invalid_le := by decide
  counts_match_aggregate := by simp

/-- More quality is better evidence. -/
theorem improves_qualityEvidence {q q' : ℤ} (h : q ≤ q') :
    Improves (qualityEvidence q) (qualityEvidence q') where
  tier := rfl
  planned := rfl
  completed := rfl
  invalid := rfl
  scope := rfl
  samples := rfl
  metrics := by
    intro a ha b hb
    obtain rfl := Option.some.inj ha
    obtain rfl := Option.some.inj hb
    have hsame : NotLower (some 0) (some 0) := .of_le (le_refl 0)
    exact ⟨id, hsame, .of_le h, .refl _, .refl _, hsame, .of_le h, .refl _, .refl _⟩

/-- A small gain in quality keeps Single; with a larger one Team is recommended. -/
theorem recommendation_monotone_quality :
    Improves (qualityEvidence 5000) (qualityEvidence 20000) ∧
      (({} : CampaignRecommendationPolicy).decide (qualityEvidence 5000)).outcome = .keepSingle ∧
      (({} : CampaignRecommendationPolicy).decide (qualityEvidence 20000)).outcome = .recommendTeam ∧
      (({} : CampaignRecommendationPolicy).decide (qualityEvidence 5000)).outcome.rank ≤
        (({} : CampaignRecommendationPolicy).decide (qualityEvidence 20000)).outcome.rank ∧
      (qualityEvidence 20000).evidenceTier = .livePaired := by
  have himproves : Improves (qualityEvidence 5000) (qualityEvidence 20000) :=
    improves_qualityEvidence (by decide)
  have hrecommended : (({} : CampaignRecommendationPolicy).decide (qualityEvidence 20000)).outcome =
      .recommendTeam := by decide +kernel
  obtain ⟨hmono, hvalid⟩ := recommendation_monotone {}
  obtain ⟨-, -, -, -, hlive⟩ := hvalid _ hrecommended
  exact ⟨himproves, by decide +kernel, hrecommended, hmono _ _ himproves, hlive⟩

example : ({} : CampaignRecommendationPolicy).decide
    { evidenceTier := .livePaired, plannedTrialCount := 10, completedTrialCount := 9, invalidTrialCount := 1,
      scopeValid := false, aggregate := none, plannedTrialCount_ge := by decide, completed_le := by decide,
      invalid_le := by decide, counts_match_aggregate := by simp } =
    decideInvalid ["scope_mismatch", "incomplete_trial_plan", "invalid_trials", "missing_aggregate"] := rfl

end CampaignRecommendationPolicy

end CrazyHarness
