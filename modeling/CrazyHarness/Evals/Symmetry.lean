import CrazyHarness.Evals.Statistics

/-! # Aggregates do not favour an arm

* `successDelta_antisymmetric`, `qualityDelta_antisymmetric`: exchanging the arms negates the two
  differences.
* `percentileBounds_spec`: the bounds of a distribution, of its negation, and what lies below them.
* `estimate_spec`, `estimate_mirrored`: one estimate, and the estimate of the exchanged samples.
* `aggregate_symmetric`: the whole aggregate. -/

namespace CrazyHarness

open Lib

/-- What exchanging the arms does to an estimate. -/
structure Mirrored (e e' : CampaignMetricEstimate) : Prop where
  point : e'.pointPpm = e.pointPpm.map (-·)
  lower : e'.lowerBoundPpm = e.upperBoundPpm.map (-·)
  upper : e'.upperBoundPpm = e.lowerBoundPpm.map (-·)

namespace CampaignAggregator

variable {H : Hashing}

/-! ### Metrics -/

theorem natLength_pos {samples : List PairedTrialSample} (h : samples ≠ []) : (0 : ℤ) < samples.length := by
  exact_mod_cast List.length_pos_iff.mpr h

theorem sum_map_natCast_nonneg (f : PairedTrialSample → ℕ) (samples : List PairedTrialSample) :
    0 ≤ (samples.map (fun s => (f s : ℤ))).sum := by
  refine List.sum_nonneg ?_
  intro x hx
  obtain ⟨s, _, rfl⟩ := List.mem_map.mp hx
  exact Int.natCast_nonneg _

theorem costRatio_ok (samples : List PairedTrialSample) : ∃ v, costRatio samples = .ok v :=
  ratioPpm_ok (sum_map_natCast_nonneg (·.singleCommittedCostMicrousd) samples)

theorem durationRatio_ok (samples : List PairedTrialSample) : ∃ v, durationRatio samples = .ok v :=
  ratioPpm_ok (sum_map_natCast_nonneg (·.singleDurationMs) samples)

/-- A metric that has a value on all samples, negated when their arms are exchanged. -/
structure Antisymmetric (measure : MetricFunction) : Prop where
  value : ∀ samples ≠ [], ∃ v, measure samples = .ok (some v)
  exchanged : ∀ samples v, measure samples = .ok (some v) →
    measure (samples.map PairedTrialSample.exchanged) = .ok (some (-v))

theorem map_some_ok {x : Except AggregationError ℤ} {v : ℤ} :
    x.map some = .ok (some v) ↔ x = .ok v := by
  cases x with
  | error e => simp [Except.map]
  | ok a => simp [Except.map]

theorem sum_map_exchanged {f : PairedTrialSample → ℤ} (hf : ∀ s, f s.exchanged = -f s)
    (samples : List PairedTrialSample) :
    ((samples.map PairedTrialSample.exchanged).map f).sum = -(samples.map f).sum := by
  rw [List.map_map, List.sum_neg, List.map_map]
  congr 1
  exact List.map_congr_left (fun s _ => hf s)

theorem successDelta_antisymmetric : Antisymmetric successDelta where
  value samples h := by
    obtain ⟨q, hq⟩ := roundedDiv_ok (natLength_pos h)
    exact ⟨q, map_some_ok.mpr hq⟩
  exchanged samples v h := by
    have hq := roundedDiv_neg (map_some_ok.mp h)
    refine map_some_ok.mpr ?_
    rw [sum_map_exchanged (fun s => (neg_sub _ _).symm), List.length_map, neg_mul]
    exact hq

theorem qualityDelta_antisymmetric : Antisymmetric qualityDelta where
  value samples h := by
    obtain ⟨q, hq⟩ := roundedDiv_ok (natLength_pos h)
    exact ⟨q, map_some_ok.mpr hq⟩
  exchanged samples v h := by
    have hq := roundedDiv_neg (map_some_ok.mp h)
    refine map_some_ok.mpr ?_
    rw [sum_map_exchanged (fun s => (neg_sub _ _).symm), List.length_map]
    exact hq

/-! ### Bounds -/

theorem entryAt_ok {distribution : List ℤ} {i : ℕ} (h : i < distribution.length) :
    entryAt distribution i = .ok distribution[i] := by
  unfold entryAt
  rw [List.getElem?_eq_getElem h]

/-- The rank of the upper bound, counted from the end, is that of the lower bound. -/
theorem upper_rank {tail n : ℕ} (htail : tail ≤ ppm) :
    min (((ppm - tail) * n + ppm - 1) / ppm) n = n - tail * n / ppm := by
  have hsum := floor_add_ceil (n := n) (by decide : 0 < ppm) htail
  generalize ((ppm - tail) * n + ppm - 1) / ppm = u at hsum ⊢
  generalize tail * n / ppm = l at hsum ⊢
  omega

theorem percentileBounds_ok {tail : ℕ} (htail : tail ≤ ppm) {distribution : List ℤ} {l last : ℕ}
    (hlast : last = distribution.length - 1) (hl : l = tail * last / ppm)
    (hlt : l < (distribution.insertionSort (· ≤ ·)).length)
    (hut : last - l < (distribution.insertionSort (· ≤ ·)).length) :
    percentileBounds tail distribution = .ok
      ((distribution.insertionSort (· ≤ ·))[l], (distribution.insertionSort (· ≤ ·))[last - l]) := by
  subst hl hlast
  unfold percentileBounds
  simp only [List.length_insertionSort, upper_rank htail]
  rw [entryAt_ok hlt, entryAt_ok hut]
  rfl

theorem percentileBounds_spec {tail : ℕ} (htail : 2 * tail ≤ ppm) {distribution : List ℤ}
    (hne : distribution ≠ []) :
    ∃ L U, percentileBounds tail distribution = .ok (L, U) ∧ L ≤ U ∧
      percentileBounds tail (distribution.map (-·)) = .ok (-U, -L) ∧
      distribution.countP (· < L) ≤ tail * (distribution.length - 1) / ppm := by
  have hpos := List.length_pos_iff.mpr hne
  obtain ⟨last, hlast⟩ : ∃ last, last = distribution.length - 1 := ⟨_, rfl⟩
  obtain ⟨l, hl⟩ : ∃ l, l = tail * last / ppm := ⟨_, rfl⟩
  have hhalf : 2 * l ≤ last := by
    have hmul : 2 * (tail * last / ppm) ≤ 2 * (tail * last) / ppm := Nat.mul_div_le_mul_div_assoc _ _ _
    have hle : 2 * (tail * last) / ppm ≤ last :=
      Nat.div_le_of_le_mul (by rw [← Nat.mul_assoc]; exact Nat.mul_le_mul_right last htail)
    omega
  have hlength := List.length_insertionSort (· ≤ ·) distribution
  have hlt : l < (distribution.insertionSort (· ≤ ·)).length := by omega
  have hut : last - l < (distribution.insertionSort (· ≤ ·)).length := by omega
  refine ⟨_, _, percentileBounds_ok (by omega) hlast hl hlt hut,
    getElem_insertionSort_mono (by omega) hut, ?_, ?_⟩
  · have hneg := insertionSort_map_antitone (f := fun x : ℤ => -x) (fun _ _ => neg_le_neg) distribution
    have hlength' := List.length_insertionSort (· ≤ ·) (distribution.map (-·))
    rw [List.length_map] at hlength'
    rw [percentileBounds_ok (by omega) (by rw [List.length_map]; exact hlast) hl (by omega) (by omega)]
    -- The sorted negations are the sorted values, read from the end.
    have hrev : ∀ i (hi : i < (distribution.insertionSort (· ≤ ·)).length)
        (hi' : last - i < ((distribution.map (-·)).insertionSort (· ≤ ·)).length),
        ((distribution.map (-·)).insertionSort (· ≤ ·))[last - i] =
          -(distribution.insertionSort (· ≤ ·))[i] := by
      intro i hi hi'
      simp only [hneg, List.getElem_reverse, List.getElem_map, List.length_map, hlength, ← hlast]
      congr 2
      omega
    have hlower := hrev (last - l) hut (by omega)
    have hupper := hrev l hlt (by omega)
    simp only [Nat.sub_sub_self (by omega : l ≤ last)] at hlower
    rw [hlower, hupper]
  · rw [← hlast, ← hl]
    exact countP_lt_getElem_le hlt

/-! ### Resampling -/

theorem selected_ne_nil {seed : String} {samples : List PairedTrialSample} (h : samples ≠ []) (i : ℕ) :
    selected H seed samples i ≠ [] := by
  have hpos := List.length_pos_iff.mpr h
  refine List.length_pos_iff.mp ?_
  simpa [selected, resampleIndices] using hpos

theorem selected_exchanged (seed : String) (samples : List PairedTrialSample) (i : ℕ) :
    selected H seed (samples.map PairedTrialSample.exchanged) i =
      (selected H seed samples i).map PairedTrialSample.exchanged := by
  refine List.ext_getElem (by simp [selected, resampleIndices]) ?_
  intro j hj hj'
  simp [selected, resampleIndices]

/-- The loop collects the values, and notes whether one is missing. -/
theorem resample_ok {seed : String} {measure : MetricFunction} {samples : List PairedTrialSample}
    {values : ℕ → Option ℤ} (h : ∀ i, measure (selected H seed samples i) = .ok (values i)) (rounds : ℕ)
    (unbounded : Bool) :
    resample H seed measure samples rounds unbounded = .ok
      ((List.range rounds).filterMap values,
        unbounded || (List.range rounds).any (fun i => (values i).isNone)) := by
  have hfold : ∀ (is : List ℕ) (acc : List ℤ × Bool),
      is.foldlM (resampleRound H seed measure samples) acc =
        .ok (acc.1 ++ is.filterMap values, acc.2 || is.any (fun i => (values i).isNone)) := by
    intro is
    induction is with
    | nil =>
        intro acc
        simp
    | cons i is ih =>
        intro acc
        have hround : resampleRound H seed measure samples acc i =
            .ok (acc.1 ++ (values i).toList, acc.2 || (values i).isNone) := by
          unfold resampleRound
          rw [h i, ok_bind]
          cases values i with
          | none => simp
          | some v => simp
        rw [List.foldlM_cons, hround, ok_bind, ih]
        cases hv : values i with
        | none => simp [hv]
        | some v => simp [hv]
  exact hfold (List.range rounds) ([], unbounded)

theorem resample_some {seed : String} {measure : MetricFunction} {samples : List PairedTrialSample}
    {values : ℕ → ℤ} (h : ∀ i, measure (selected H seed samples i) = .ok (some (values i)))
    (rounds : ℕ) :
    resample H seed measure samples rounds false = .ok ((List.range rounds).map values, false) := by
  rw [resample_ok h, List.filterMap_eq_map']
  simp

/-! ### Estimates -/

end CampaignAggregator

namespace MetricFields

theorem firstError_point {f : MetricFields} (hsize : 1 ≤ f.sampleSize)
    (hconfidence : 0 < f.familywiseConfidencePpm ∧ f.familywiseConfidencePpm < ppm)
    (hmethod : f.method = .pointOnly) (hbounds : f.hasBounds = false) (hresamples : f.resamples = 0) :
    f.firstError = none := by
  simp [firstError, hmethod, hbounds, hresamples, Nat.not_lt.mpr hsize, hconfidence.1.ne',
    Nat.not_le.mpr hconfidence.2]

theorem firstError_interval {f : MetricFields} (hsize : 1 ≤ f.sampleSize)
    (hconfidence : 0 < f.familywiseConfidencePpm ∧ f.familywiseConfidencePpm < ppm)
    (hmethod : f.method = .deterministicPairedPercentile)
    (hbounds : f.unbounded = true ∨ f.hasBounds = true) : f.firstError = none := by
  rcases hbounds with h | h <;>
    simp [firstError, hmethod, h, Nat.not_lt.mpr hsize, hconfidence.1.ne', Nat.not_le.mpr hconfidence.2]

end MetricFields

namespace CampaignAggregator

variable {metric : CampaignMetric} {measure : MetricFunction} {samples : List PairedTrialSample}
  {policy : CampaignRecommendationPolicy} {seed : String}

/-- An estimate without bounds. -/
theorem estimate_point {point : Option ℤ} (hne : samples ≠ [])
    (hlength : samples.length < policy.minimumIntervalTrials) :
    ∃ e, estimate H metric point measure samples policy seed = .ok e ∧ e.pointPpm = point ∧
      e.lowerBoundPpm = none ∧ e.upperBoundPpm = none := by
  unfold estimate
  rw [if_pos hlength]
  refine ⟨_, CampaignMetricEstimate.checked_ok ?_, rfl, rfl, rfl⟩
  exact MetricFields.firstError_point (List.length_pos_iff.mpr hne) policy.familywiseConfidencePpm_mem
    rfl rfl rfl

/-- An estimate whose bounds are read off a distribution, or missing. -/
theorem estimate_interval {point : Option ℤ} {distribution : List ℤ} {unbounded : Bool}
    {bounds : Option ℤ × Option ℤ} (hne : samples ≠ [])
    (hlength : ¬ samples.length < policy.minimumIntervalTrials)
    (hresample : resample H seed measure samples policy.bootstrapResamples point.isNone =
      .ok (distribution, unbounded))
    (hbounds : boundsOf policy distribution unbounded = .ok bounds)
    (hsome : unbounded = true ∨ bounds.1.isSome = true ∧ bounds.2.isSome = true) :
    ∃ e, estimate H metric point measure samples policy seed = .ok e ∧ e.pointPpm = point ∧
      e.lowerBoundPpm = bounds.1 ∧ e.upperBoundPpm = bounds.2 := by
  unfold estimate
  simp only [if_neg hlength, hresample, ok_bind, hbounds]
  refine ⟨_, CampaignMetricEstimate.checked_ok ?_, rfl, rfl, rfl⟩
  exact MetricFields.firstError_interval (List.length_pos_iff.mpr hne) policy.familywiseConfidencePpm_mem
    rfl (hsome.imp_right (fun h => by simp [MetricFields.hasBounds, h.1, h.2]))

theorem two_mul_tailPpm_le (policy : CampaignRecommendationPolicy) : 2 * tailPpm policy ≤ ppm := by
  unfold tailPpm
  omega

theorem boundsOf_ok {distribution : List ℤ} {L U : ℤ}
    (h : percentileBounds (tailPpm policy) distribution = .ok (L, U)) :
    boundsOf policy distribution false = .ok (some L, some U) := by
  simp [boundsOf, h, Except.map]

theorem distribution_ne_nil {distribution : List ℤ}
    (h : distribution.length = policy.bootstrapResamples) : distribution ≠ [] := by
  have hge := policy.bootstrapResamples_mem.1
  exact List.length_pos_iff.mp (by omega)

/-- Without a missing value, the distribution has a value for each round. -/
theorem length_filterMap_values {values : ℕ → Option ℤ} {rounds : ℕ}
    (h : (List.range rounds).any (fun i => (values i).isNone) = false) :
    ((List.range rounds).filterMap values).length = rounds := by
  rw [List.length_filterMap_eq_countP, List.countP_eq_length.mpr, List.length_range]
  intro i hi
  have hsome := List.any_eq_false.mp h i hi
  rwa [Bool.not_eq_true, Option.isNone_eq_false_iff] at hsome

theorem estimate_spec {point : Option ℤ} (hne : samples ≠ [])
    (hmeasure : ∀ xs ≠ [], ∃ v, measure xs = .ok v) :
    ∃ e, estimate H metric point measure samples policy seed = .ok e ∧
      ∀ L U, e.lowerBoundPpm = some L → e.upperBoundPpm = some U → L ≤ U := by
  by_cases hlength : samples.length < policy.minimumIntervalTrials
  · obtain ⟨e, he, _, hlower, _⟩ := estimate_point (H := H) hne hlength
    refine ⟨e, he, ?_⟩
    intro L U hL
    rw [hlower] at hL
    cases hL
  · choose values hvalues using fun i => hmeasure _ (@selected_ne_nil H seed samples hne i)
    have hresample := resample_ok hvalues policy.bootstrapResamples point.isNone
    cases hunbounded : point.isNone ||
        (List.range policy.bootstrapResamples).any (fun i => (values i).isNone) with
    | true =>
        rw [hunbounded] at hresample
        obtain ⟨e, he, _, hlower, _⟩ := estimate_interval hne hlength hresample
          (rfl : boundsOf policy _ true = .ok (none, none)) (.inl rfl)
        refine ⟨e, he, ?_⟩
        intro L U hL
        rw [hlower] at hL
        cases hL
    | false =>
        rw [hunbounded] at hresample
        have hlen := length_filterMap_values (Bool.or_eq_false_iff.mp hunbounded).2
        obtain ⟨L, U, hbounds, hle, _⟩ :=
          percentileBounds_spec (two_mul_tailPpm_le policy) (distribution_ne_nil hlen)
        obtain ⟨e, he, _, hlower, hupper⟩ := estimate_interval hne hlength hresample
          (boundsOf_ok hbounds) (.inr ⟨rfl, rfl⟩)
        refine ⟨e, he, ?_⟩
        intro L' U' hL hU
        obtain rfl := Option.some.inj (hlower.symm.trans hL)
        obtain rfl := Option.some.inj (hupper.symm.trans hU)
        exact hle

/-- A lower bound leaves at most the tail of the resampled values below it. -/
def FewBelow (H : Hashing) (measure : MetricFunction) (samples : List PairedTrialSample)
    (policy : CampaignRecommendationPolicy) (seed : String) (lower : Option ℤ) : Prop :=
  ∀ L, lower = some L → ∃ distribution,
    resample H seed measure samples policy.bootstrapResamples false = .ok (distribution, false) ∧
      distribution.length = policy.bootstrapResamples ∧
      distribution.countP (· < L) ≤ tailPpm policy * (policy.bootstrapResamples - 1) / ppm

theorem estimate_mirrored {point : ℤ} (hne : samples ≠ []) (hmeasure : Antisymmetric measure) :
    ∃ e e', estimate H metric (some point) measure samples policy seed = .ok e ∧
      estimate H metric (some (-point)) measure (samples.map PairedTrialSample.exchanged) policy seed =
        .ok e' ∧ e.pointPpm = some point ∧ Mirrored e e' ∧
      (∀ L U, e.lowerBoundPpm = some L → e.upperBoundPpm = some U → L ≤ U) ∧
      FewBelow H measure samples policy seed e.lowerBoundPpm := by
  have hne' : samples.map PairedTrialSample.exchanged ≠ [] := by
    rwa [Ne, List.map_eq_nil_iff]
  have hlength' : (samples.map PairedTrialSample.exchanged).length = samples.length := List.length_map _
  by_cases hlength : samples.length < policy.minimumIntervalTrials
  · obtain ⟨e, he, hpoint, hlower, hupper⟩ := estimate_point (H := H) hne hlength
    obtain ⟨e', he', hpoint', hlower', hupper'⟩ := estimate_point (H := H) hne' (hlength'.trans_lt hlength)
    refine ⟨e, e', he, he', hpoint, ⟨?_, ?_, ?_⟩, ?_, ?_⟩
    · rw [hpoint, hpoint', Option.map_some]
    · rw [hlower', hupper, Option.map_none]
    · rw [hupper', hlower, Option.map_none]
    · intro L U hL
      rw [hlower] at hL
      cases hL
    · intro L hL
      rw [hlower] at hL
      cases hL
  · choose values hvalues using
      fun i => hmeasure.value _ (@selected_ne_nil H seed samples hne i)
    have hresample := resample_some hvalues policy.bootstrapResamples
    have hvalues' : ∀ i, measure (selected H seed (samples.map PairedTrialSample.exchanged) i) =
        .ok (some (-(values i))) := by
      intro i
      rw [selected_exchanged]
      exact hmeasure.exchanged _ _ (hvalues i)
    have hresample' := resample_some hvalues' policy.bootstrapResamples
    have hlen : ((List.range policy.bootstrapResamples).map values).length = policy.bootstrapResamples := by
      rw [List.length_map, List.length_range]
    obtain ⟨L, U, hbounds, hle, hbounds', hfew⟩ :=
      percentileBounds_spec (two_mul_tailPpm_le policy) (distribution_ne_nil hlen)
    rw [List.map_map] at hbounds'
    -- a bounded point takes the rounds as they are
    have hbounded : ∀ p : ℤ, (some p).isNone = false := fun _ => rfl
    rw [← hbounded point] at hresample
    rw [← hbounded (-point)] at hresample'
    obtain ⟨e, he, hpoint, hlower, hupper⟩ :=
      estimate_interval hne hlength hresample (boundsOf_ok hbounds) (.inr ⟨rfl, rfl⟩)
    obtain ⟨e', he', hpoint', hlower', hupper'⟩ := estimate_interval hne' (by rwa [hlength']) hresample'
      (boundsOf_ok hbounds') (.inr ⟨rfl, rfl⟩)
    refine ⟨e, e', he, he', hpoint, ⟨?_, ?_, ?_⟩, ?_, ?_⟩
    · rw [hpoint, hpoint', Option.map_some]
    · rw [hlower', hupper, Option.map_some]
    · rw [hupper', hlower, Option.map_some]
    · intro L' U' hL hU
      obtain rfl := Option.some.inj (hlower.symm.trans hL)
      obtain rfl := Option.some.inj (hupper.symm.trans hU)
      exact hle
    · intro L' hL
      obtain rfl := Option.some.inj (hlower.symm.trans hL)
      rw [hlen] at hfew
      exact ⟨_, hresample, hlen, hfew⟩

/-! ### Samples -/

structure Accepted (samples : List PairedTrialSample) : Prop where
  ne_nil : samples ≠ []
  indices : samples.map (·.trialIndex) = List.range' 1 samples.length
  evals : (samples.map (·.evalId)).Nodup
  runs : (samples.flatMap (fun s => [s.singleRunId, s.teamRunId])).Nodup
  terminals : (samples.flatMap (fun s => [s.singleTerminalEventId, s.teamTerminalEventId])).Nodup

theorem validateSamples_ok_iff {samples : List PairedTrialSample} :
    validateSamples samples = .ok () ↔ Accepted samples := by
  unfold validateSamples requireUnique
  simp only [bind_ok_iff, ensure_ok_iff]
  constructor
  · rintro ⟨_, hne, _, hindices, _, hevals, _, hruns, hterminals⟩
    exact ⟨hne, hindices, hevals, hruns, hterminals⟩
  · rintro ⟨hne, hindices, hevals, hruns, hterminals⟩
    exact ⟨(), hne, (), hindices, (), hevals, (), hruns, hterminals⟩

theorem nodup_flatMap_exchanged {f g : PairedTrialSample → SizedString 1 none}
    (hf : ∀ s, f s.exchanged = g s) (hg : ∀ s, g s.exchanged = f s) {samples : List PairedTrialSample}
    (h : (samples.flatMap (fun s => [f s, g s])).Nodup) :
    ((samples.map PairedTrialSample.exchanged).flatMap (fun s => [f s, g s])).Nodup := by
  refine (List.Perm.nodup_iff ?_).mp h
  rw [List.flatMap_map]
  refine List.Perm.flatMap_left samples ?_
  intro s _
  simp only [hf, hg]
  exact List.Perm.swap _ _ _

theorem Accepted.exchanged {samples : List PairedTrialSample} (h : Accepted samples) :
    Accepted (samples.map PairedTrialSample.exchanged) where
  ne_nil := by
    rw [Ne, List.map_eq_nil_iff]
    exact h.ne_nil
  indices := by
    rw [List.map_map, List.length_map]
    exact h.indices
  evals := by
    rw [List.map_map]
    exact h.evals
  runs := nodup_flatMap_exchanged (fun _ => rfl) (fun _ => rfl) h.runs
  terminals := nodup_flatMap_exchanged (fun _ => rfl) (fun _ => rfl) h.terminals

theorem ordered_exchanged (samples : List PairedTrialSample) :
    ordered (samples.map PairedTrialSample.exchanged) =
      (ordered samples).map PairedTrialSample.exchanged :=
  (List.map_insertionSort _ _ PairedTrialSample.exchanged samples (fun _ _ _ _ => Iff.rfl)).symm

instance : Std.Total (fun a b : PairedTrialSample => a.trialIndex ≤ b.trialIndex) :=
  ⟨fun a b => le_total a.trialIndex b.trialIndex⟩

instance : IsTrans PairedTrialSample (fun a b => a.trialIndex ≤ b.trialIndex) :=
  ⟨fun _ _ _ => le_trans⟩

/-- The trials number the samples, so their order is not seen. -/
theorem ordered_perm {samples permuted : List PairedTrialSample} (h : Accepted (ordered samples))
    (hperm : permuted.Perm samples) : ordered permuted = ordered samples := by
  have hsorted : (ordered samples).Perm samples := List.perm_insertionSort _ samples
  have hnodup : (permuted.map (·.trialIndex)).Nodup := by
    rw [((hperm.trans hsorted.symm).map (·.trialIndex)).nodup_iff, h.indices]
    exact List.nodup_range'
  exact insertionSort_eq_of_perm hperm (fun a ha b hb hab hba =>
    List.inj_on_of_nodup_map hnodup ha hb (le_antisymm hab hba))

/-! ### Aggregates -/

theorem aggregate_ok {samples : List PairedTrialSample} {policy : CampaignRecommendationPolicy}
    {seedMaterial : String} (h : Accepted (ordered samples)) {success quality cost duration : Option ℤ}
    {es eq ec ed : CampaignMetricEstimate} (hsuccess : successDelta (ordered samples) = .ok success)
    (hquality : qualityDelta (ordered samples) = .ok quality) (hcost : costRatio (ordered samples) = .ok cost)
    (hduration : durationRatio (ordered samples) = .ok duration)
    (hes : estimate H .successRateDelta success successDelta (ordered samples) policy
      (seedOf H seedMaterial).1 = .ok es)
    (heq : estimate H .qualityDelta quality qualityDelta (ordered samples) policy
      (seedOf H seedMaterial).1 = .ok eq)
    (hec : estimate H .costRatio cost costRatio (ordered samples) policy (seedOf H seedMaterial).1 = .ok ec)
    (hed : estimate H .durationRatio duration durationRatio (ordered samples) policy
      (seedOf H seedMaterial).1 = .ok ed) :
    ∃ a, aggregate H samples policy seedMaterial = .ok a ∧ a.successRateDelta = es ∧ a.qualityDelta = eq ∧
      a.costRatio = ec ∧ a.durationRatio = ed := by
  unfold aggregate
  simp only [validateSamples_ok_iff.mpr h, hsuccess, hquality, hcost, hduration, hes, heq, hec, hed, ok_bind]
  have hpos : 1 ≤ (ordered samples).length := List.length_pos_iff.mpr h.ne_nil
  rw [dif_pos hpos]
  exact ⟨_, rfl, rfl, rfl, rfl, rfl⟩

/-- Every accepted campaign has an aggregate, whatever the order of its samples; its bounds are in order, no
more than the tail lies below them, and exchanging the arms mirrors the two differences. -/
theorem aggregate_symmetric (H : Hashing) (samples : List PairedTrialSample)
    (policy : CampaignRecommendationPolicy) (seedMaterial : String)
    (h : validateSamples (ordered samples) = .ok ()) :
    ∃ a b, aggregate H samples policy seedMaterial = .ok a ∧
      (∀ permuted, permuted.Perm samples → aggregate H permuted policy seedMaterial = .ok a) ∧
      (∀ e ∈ a.estimates, ∀ L U, e.lowerBoundPpm = some L → e.upperBoundPpm = some U → L ≤ U) ∧
      aggregate H (samples.map PairedTrialSample.exchanged) policy seedMaterial = .ok b ∧
      Mirrored a.successRateDelta b.successRateDelta ∧ Mirrored a.qualityDelta b.qualityDelta ∧
      FewBelow H successDelta (ordered samples) policy (seedOf H seedMaterial).1
        a.successRateDelta.lowerBoundPpm ∧
      FewBelow H qualityDelta (ordered samples) policy (seedOf H seedMaterial).1
        a.qualityDelta.lowerBoundPpm := by
  have haccepted := validateSamples_ok_iff.mp h
  have hexchanged : Accepted (ordered (samples.map PairedTrialSample.exchanged)) := by
    rw [ordered_exchanged]
    exact haccepted.exchanged
  obtain ⟨s, hs⟩ := successDelta_antisymmetric.value _ haccepted.ne_nil
  obtain ⟨q, hq⟩ := qualityDelta_antisymmetric.value _ haccepted.ne_nil
  obtain ⟨c, hc⟩ := costRatio_ok (ordered samples)
  obtain ⟨d, hd⟩ := durationRatio_ok (ordered samples)
  obtain ⟨c', hc'⟩ := costRatio_ok (ordered (samples.map PairedTrialSample.exchanged))
  obtain ⟨d', hd'⟩ := durationRatio_ok (ordered (samples.map PairedTrialSample.exchanged))
  have hs' := successDelta_antisymmetric.exchanged _ _ hs
  have hq' := qualityDelta_antisymmetric.exchanged _ _ hq
  rw [← ordered_exchanged] at hs' hq'
  obtain ⟨es, es', hes, hes', _, hms, hles, hfs⟩ := estimate_mirrored (H := H) haccepted.ne_nil
    successDelta_antisymmetric
  obtain ⟨eq, eq', heq, heq', _, hmq, hleq, hfq⟩ := estimate_mirrored (H := H) haccepted.ne_nil
    qualityDelta_antisymmetric
  rw [← ordered_exchanged] at hes' heq'
  obtain ⟨ec, hec, hlec⟩ := estimate_spec (H := H) haccepted.ne_nil (fun xs _ => costRatio_ok xs)
  obtain ⟨ed, hed, hled⟩ := estimate_spec (H := H) haccepted.ne_nil (fun xs _ => durationRatio_ok xs)
  obtain ⟨ec', hec', _⟩ := estimate_spec (H := H) hexchanged.ne_nil (fun xs _ => costRatio_ok xs)
  obtain ⟨ed', hed', _⟩ := estimate_spec (H := H) hexchanged.ne_nil (fun xs _ => durationRatio_ok xs)
  obtain ⟨a, ha, has, haq, hac, had⟩ := aggregate_ok haccepted hs hq hc hd hes heq hec hed
  obtain ⟨b, hb, hbs, hbq, _, _⟩ := aggregate_ok hexchanged hs' hq' hc' hd' hes' heq' hec' hed'
  refine ⟨a, b, ha, ?_, ?_, hb, ?_, ?_, ?_, ?_⟩
  · intro permuted hperm
    rw [← ha]
    unfold aggregate
    rw [ordered_perm haccepted hperm]
  · intro e he
    simp only [CampaignAggregate.estimates, List.mem_cons, List.not_mem_nil, or_false] at he
    rcases he with rfl | rfl | rfl | rfl
    · rw [has]
      exact hles
    · rw [haq]
      exact hleq
    · rw [hac]
      exact hlec
    · rw [had]
      exact hled
  · rw [has, hbs]
    exact hms
  · rw [haq, hbq]
    exact hmq
  · rw [has]
    exact hfs
  · rw [haq]
    exact hfq

/-- A sample of the trial, in which only Team succeeds, with work of this quality. -/
def teamWins (trialIndex quality : ℕ) (h : 1 ≤ trialIndex ∧ trialIndex ≤ 30) (hquality : quality ≤ ppm)
    (evalId single team : SizedString 1 none) (hdistinct : single ≠ team) : PairedTrialSample where
  trialIndex
  evalId
  pairReportSha256 := evalId
  singleRunId := single
  teamRunId := team
  singleTerminalEventId := single
  teamTerminalEventId := team
  singleSuccess := false
  teamSuccess := true
  singleQualityPpm := 400000
  teamQualityPpm := quality
  singleCommittedCostMicrousd := 1000
  teamCommittedCostMicrousd := 1500
  singleDurationMs := 100
  teamDurationMs := 80
  trialIndex_mem := h
  singleQualityPpm_le := by decide
  teamQualityPpm_le := hquality
  runs_distinct := hdistinct
  terminals_distinct := hdistinct

/-- Two trials, the later one first. -/
def twoTrials : List PairedTrialSample :=
  [teamWins 2 600000 (by decide) (by decide) ⟨"eval-2", by decide⟩ ⟨"single-2", by decide⟩
      ⟨"team-2", by decide⟩ (by decide),
    teamWins 1 900000 (by decide) (by decide) ⟨"eval-1", by decide⟩ ⟨"single-1", by decide⟩
      ⟨"team-1", by decide⟩ (by decide)]

/-- Two trials are enough for an interval. -/
def smallPolicy : CampaignRecommendationPolicy where
  minimumIntervalTrials := 2
  bootstrapResamples := 100

/-- A digest for every text: its size, where the index of a sample is read. -/
def sampleHashing : Hashing where
  sha256 text := BitVec.ofNat 256 (2 ^ 192 * text.utf8ByteSize)
  dumps _ := ""

/-- The two trials differ in their quality, and the interval reaches from the one to the other. -/
theorem aggregate_symmetric_two :
    ∃ a b, aggregate sampleHashing twoTrials smallPolicy "seed" = .ok a ∧
      a.qualityDelta.lowerBoundPpm = some 200000 ∧ a.qualityDelta.upperBoundPpm = some 500000 ∧
      (∀ permuted, permuted.Perm twoTrials →
        aggregate sampleHashing permuted smallPolicy "seed" = .ok a) ∧
      (∀ e ∈ a.estimates, ∀ L U, e.lowerBoundPpm = some L → e.upperBoundPpm = some U → L ≤ U) ∧
      aggregate sampleHashing (twoTrials.map PairedTrialSample.exchanged) smallPolicy "seed" = .ok b ∧
      Mirrored a.successRateDelta b.successRateDelta ∧ Mirrored a.qualityDelta b.qualityDelta ∧
      FewBelow sampleHashing successDelta (ordered twoTrials) smallPolicy (seedOf sampleHashing "seed").1
        a.successRateDelta.lowerBoundPpm ∧
      FewBelow sampleHashing qualityDelta (ordered twoTrials) smallPolicy (seedOf sampleHashing "seed").1
        a.qualityDelta.lowerBoundPpm := by
  have h : validateSamples (ordered twoTrials) = .ok () := by decide +kernel
  have hbounds : (aggregate sampleHashing twoTrials smallPolicy "seed").toOption.map
      (fun a => (a.qualityDelta.lowerBoundPpm, a.qualityDelta.upperBoundPpm)) =
        some (some 200000, some 500000) := by decide +kernel
  obtain ⟨a, b, ha, hrest⟩ := aggregate_symmetric sampleHashing twoTrials smallPolicy "seed" h
  rw [ha] at hbounds
  obtain ⟨hlower, hupper⟩ := Prod.ext_iff.mp (Option.some.inj hbounds)
  exact ⟨a, b, ha, hlower, hupper, hrest⟩

end CampaignAggregator

end CrazyHarness
