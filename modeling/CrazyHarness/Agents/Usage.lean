import CrazyHarness.Agents.Governance

/-! # What usage costs

A provider reports the usage of a call in a dictionary that nobody has checked.  `UsageSafe` says what
`_normalize_usage` has to make of it so that it frees no budget, and `usageSafe_iff` when it does: a
count that is spelled as a text or as a fraction is read by `int` and replaces the reservation, also
where it is below it. -/

namespace CrazyHarness

open Lib

/-! ### What is read -/

/-- A count: a non-negative integer, also one that is written as a float. -/
def asCount : Json → Option ℕ
  | .int n => if 0 ≤ n then some n.toNat else none
  | .float q _ => if 0 ≤ q ∧ q.den = 1 then some q.num.toNat else none
  | _ => none

/-- What `int` makes of a value that is not a truth value, where this is not negative. -/
def readCount : Json → Option ℤ
  | .bool _ => none
  | v => v.pyInt.filter (fun n => 0 ≤ n)

/-- The count that a field of the usage holds. -/
def countOf (usage : Dict) (key : String) : Option ℕ := (usage.get? key).bind asCount

/-- What is read from a field of the usage. -/
def readOf (usage : Dict) (key : String) : Option ℤ := (usage.get? key).bind readCount

theorem nonNegativeUsageInt_eq (usage : Dict) (key : String) (fallback : ℤ) :
    nonNegativeUsageInt usage key fallback = ((readOf usage key).map (·, false)).getD (fallback, true) := by
  unfold nonNegativeUsageInt readOf
  split
  next hnone => rw [hnone]; rfl
  next b hb => rw [hb]; rfl
  next v hne hv =>
    have hread : readCount v = v.pyInt.filter (fun n => 0 ≤ n) := by
      cases v with
      | bool b => exact absurd rfl (hne b)
      | _ => rfl
    rw [hv, Option.bind_some, hread]
    cases v.pyInt with
    | none => rfl
    | some n =>
        rw [Option.filter_some]
        dsimp only
        by_cases hn : n < 0
        · rw [if_pos hn, if_neg (by simpa using hn)]
          rfl
        · rw [if_neg hn, if_pos (by simpa using hn)]
          rfl

theorem readOf_nonneg {usage : Dict} {key : String} {n : ℤ} (h : readOf usage key = some n) : 0 ≤ n := by
  obtain ⟨v, -, hv⟩ := Option.bind_eq_some_iff.mp h
  unfold readCount at hv
  split at hv
  · cases hv
  · simpa using (Option.filter_eq_some_iff.mp hv).2

/-- A count is read as it is. -/
theorem readCount_count {v : Json} {n : ℕ} (h : asCount v = some n) : readCount v = some (n : ℤ) := by
  unfold asCount at h
  split at h
  next m =>
    split at h
    next hm =>
      obtain rfl := Option.some.inj h
      simp [readCount, hm]
    next => cases h
  next q text =>
    split at h
    next hq =>
      obtain rfl := Option.some.inj h
      have hint : ((q.num : ℤ) : ℚ) = q := Rat.coe_int_num_of_den_eq_one hq.2
      have hnum : 0 ≤ q.num := Rat.num_nonneg.mpr hq.1
      have hfloor : ⌊q⌋ = q.num := by
        rw [← hint]
        simp
      simp [readCount, Json.pyInt, not_lt.mpr hq.1, hfloor, hnum]
    next => cases h
  next => cases h

theorem readOf_count {usage : Dict} {key : String} {n : ℕ} (h : countOf usage key = some n) :
    readOf usage key = some (n : ℤ) := by
  obtain ⟨v, hv, hcount⟩ := Option.bind_eq_some_iff.mp h
  unfold readOf
  rw [hv]
  exact readCount_count hcount

/-! ### What is made of it -/

section normalized

variable (usage : Dict) (fallbackInput fallbackOutput : ℕ)

/-- The fields of the normalised usage, from what is read. -/
theorem normalizeUsage_eq :
    let prompt := (readOf usage "prompt_tokens").getD fallbackInput
    let hit := (readOf usage "prompt_cache_hit_tokens").getD 0
    let miss := (readOf usage "prompt_cache_miss_tokens").getD (max 0 (prompt - hit))
    let completion := (readOf usage "completion_tokens").getD fallbackOutput
    let u := (normalizeUsage usage fallbackInput fallbackOutput).1
    u.promptTokens = max prompt (hit + miss) ∧
      (u.promptCacheHitTokens = hit ∧ u.promptCacheMissTokens = miss ∧ hit + miss = prompt ∨
        u.promptCacheHitTokens = 0 ∧ u.promptCacheMissTokens = u.promptTokens) ∧
      u.completionTokens = completion ∧
      u.totalTokens = max ((readOf usage "total_tokens").getD (u.promptTokens + completion))
        (u.promptTokens + completion) := by
  have hfst : ∀ key (fallback : ℤ),
      (nonNegativeUsageInt usage key fallback).1 = (readOf usage key).getD fallback := by
    intro key fallback
    rw [nonNegativeUsageInt_eq]
    cases readOf usage key <;> rfl
  intro prompt hit miss completion u
  have hprompt : u.promptTokens = if decide (hit + miss ≠ prompt) then max prompt (hit + miss)
      else prompt := by
    simp only [u, normalizeUsage, hfst, prompt, hit, miss]
  have hhit : u.promptCacheHitTokens = if decide (hit + miss ≠ prompt) then 0 else hit := by
    simp only [u, normalizeUsage, hfst, prompt, hit, miss]
  have hmiss : u.promptCacheMissTokens = if decide (hit + miss ≠ prompt) then u.promptTokens
      else miss := by
    simp only [u, normalizeUsage, hfst, prompt, hit, miss]
  have hcompletion : u.completionTokens = completion := by
    simp only [u, normalizeUsage, hfst, completion]
  have htotal : u.totalTokens = max ((readOf usage "total_tokens").getD (u.promptTokens + completion))
      (u.promptTokens + completion) := by
    simp only [u, normalizeUsage, hfst, completion]
  refine ⟨?_, ?_, hcompletion, htotal⟩
  · rw [hprompt]
    by_cases hsplit : hit + miss = prompt
    · rw [if_neg (by simpa using hsplit), hsplit, max_self]
    · rw [if_pos (by simpa using hsplit)]
  · by_cases hsplit : hit + miss = prompt
    · rw [if_neg (by simpa using hsplit)] at hhit hmiss
      exact .inl ⟨hhit, hmiss, hsplit⟩
    · rw [if_pos (by simpa using hsplit)] at hhit hmiss
      exact .inr ⟨hhit, hmiss⟩

end normalized

/-! ### Safe usage -/

/-- A field that holds no count is replaced by no less than this. -/
def FallbackKept (usage : Dict) (key : String) (fallback value : ℤ) : Prop :=
  countOf usage key = none → fallback ≤ value

/-- A field that holds a count is not taken for less. -/
def CountKept (usage : Dict) (key : String) (value : ℤ) : Prop :=
  ∀ n : ℕ, countOf usage key = some n → n ≤ value

/-- What is normalised frees no budget: not for the tokens, and not for what they cost. -/
structure UsageSafe (usage : Dict) (fallbackInput fallbackOutput : ℕ) (card : DeepSeekPriceCard)
    (u : ModelUsage) : Prop where
  nonneg : 0 ≤ u.promptTokens ∧ 0 ≤ u.promptCacheHitTokens ∧ 0 ≤ u.promptCacheMissTokens ∧
    0 ≤ u.completionTokens ∧ 0 ≤ u.totalTokens
  cacheSplit : u.promptCacheHitTokens + u.promptCacheMissTokens = u.promptTokens
  total : u.promptTokens + u.completionTokens ≤ u.totalTokens
  promptReplaced : FallbackKept usage "prompt_tokens" fallbackInput u.promptTokens
  completionReplaced : FallbackKept usage "completion_tokens" fallbackOutput u.completionTokens
  hitReplaced : FallbackKept usage "prompt_cache_hit_tokens" 0 u.promptCacheHitTokens
  missReplaced : FallbackKept usage "prompt_cache_miss_tokens"
    (max 0 ((readOf usage "prompt_tokens").getD fallbackInput -
      (readOf usage "prompt_cache_hit_tokens").getD 0)) u.promptCacheMissTokens
  totalReplaced : FallbackKept usage "total_tokens" (u.promptTokens + u.completionTokens) u.totalTokens
  promptCounted : CountKept usage "prompt_tokens" u.promptTokens
  completionCounted : CountKept usage "completion_tokens" u.completionTokens
  missCounted : CountKept usage "prompt_cache_miss_tokens" u.promptCacheMissTokens
  totalCounted : CountKept usage "total_tokens" u.totalTokens
  cost : card.inputCacheHit ≤ card.inputCacheMiss → ∀ inputTokens outputTokens : ℤ,
    u.promptTokens ≤ inputTokens → u.completionTokens ≤ outputTokens →
      card.actualMicrousd u ≤ card.estimateMicrousd inputTokens outputTokens

/-- What is read from a field that holds no count is no less than the reservation, or the prompt is
made up for by its parts; and more tokens do not cost less. -/
structure ReadsNoLess (usage : Dict) (fallbackInput fallbackOutput : ℕ) (card : DeepSeekPriceCard) :
    Prop where
  prompt : countOf usage "prompt_tokens" = none → ∀ n ∈ readOf usage "prompt_tokens",
    fallbackInput ≤ n ∨ fallbackInput ≤ (readOf usage "prompt_cache_hit_tokens").getD 0 +
      (readOf usage "prompt_cache_miss_tokens").getD 0
  completion : countOf usage "completion_tokens" = none → ∀ n ∈ readOf usage "completion_tokens",
    fallbackOutput ≤ n
  prices : card.inputCacheHit ≤ card.inputCacheMiss → 0 ≤ card.inputCacheMiss ∧ 0 ≤ card.output

/-! #### Cost -/

/-- What never falls below a bound as it grows is not falling. -/
theorem nonneg_of_le_ceil {a : ℤ} {c r : ℚ} (h : ∀ k : ℕ, a ≤ ⌈c + k * r⌉) : 0 ≤ r := by
  by_contra hr
  rw [not_le] at hr
  obtain ⟨k, hk⟩ := exists_nat_ge ((c - a + 1) / -r)
  have hstep : c - a + 1 ≤ k * -r := (div_le_iff₀ (by linarith)).mp hk
  have hbelow : ⌈c + k * r⌉ ≤ a - 1 := by
    rw [Int.ceil_le]
    push_cast
    linarith
  have habove := h k
  omega

section cost

variable {card : DeepSeekPriceCard} {u : ModelUsage}

/-- The usage costs no more than a reservation for it. -/
theorem actualMicrousd_le (hhit : 0 ≤ u.promptCacheHitTokens)
    (hsplit : u.promptCacheHitTokens + u.promptCacheMissTokens = u.promptTokens)
    (hcard : card.inputCacheHit ≤ card.inputCacheMiss) (hmiss : 0 ≤ card.inputCacheMiss)
    (houtput : 0 ≤ card.output) {inputTokens outputTokens : ℤ} (hinput : u.promptTokens ≤ inputTokens)
    (hcompletion : u.completionTokens ≤ outputTokens) :
    card.actualMicrousd u ≤ card.estimateMicrousd inputTokens outputTokens := by
  refine Int.ceil_le_ceil ?_
  have hcheap : (u.promptCacheHitTokens : ℚ) * card.inputCacheHit ≤
      u.promptCacheHitTokens * card.inputCacheMiss :=
    mul_le_mul_of_nonneg_left hcard (by exact_mod_cast hhit)
  have hprompt : (u.promptTokens : ℚ) * card.inputCacheMiss ≤ inputTokens * card.inputCacheMiss :=
    mul_le_mul_of_nonneg_right (by exact_mod_cast hinput) hmiss
  have hout : (u.completionTokens : ℚ) * card.output ≤ outputTokens * card.output :=
    mul_le_mul_of_nonneg_right (by exact_mod_cast hcompletion) houtput
  have hparts : (u.promptTokens : ℚ) * card.inputCacheMiss =
      u.promptCacheHitTokens * card.inputCacheMiss + u.promptCacheMissTokens * card.inputCacheMiss := by
    rw [← hsplit]
    push_cast
    ring
  linarith

/-- If it does so for all reservations, then more tokens do not cost less. -/
theorem prices_nonneg (h : ∀ inputTokens outputTokens : ℤ, u.promptTokens ≤ inputTokens →
      u.completionTokens ≤ outputTokens →
        card.actualMicrousd u ≤ card.estimateMicrousd inputTokens outputTokens) :
    0 ≤ card.inputCacheMiss ∧ 0 ≤ card.output := by
  constructor
  · refine nonneg_of_le_ceil (a := card.actualMicrousd u)
      (c := u.promptTokens * card.inputCacheMiss + u.completionTokens * card.output) ?_
    intro k
    have hk := h (u.promptTokens + k) u.completionTokens (by omega) le_rfl
    refine le_of_le_of_eq hk (congrArg Int.ceil ?_)
    push_cast
    ring
  · refine nonneg_of_le_ceil (a := card.actualMicrousd u)
      (c := u.promptTokens * card.inputCacheMiss + u.completionTokens * card.output) ?_
    intro k
    have hk := h u.promptTokens (u.completionTokens + k) le_rfl (by omega)
    refine le_of_le_of_eq hk (congrArg Int.ceil ?_)
    push_cast
    ring

end cost

/-! #### When the usage is safe -/

section safe

variable {usage : Dict} {key : String} {fallback : ℤ}

theorem getD_readOf_nonneg (h : 0 ≤ fallback) : 0 ≤ (readOf usage key).getD fallback := by
  cases hread : readOf usage key with
  | none => exact h
  | some n => exact readOf_nonneg hread

/-- What is taken for a field is no less than its count. -/
theorem counted_getD : CountKept usage key ((readOf usage key).getD fallback) := by
  intro n hn
  rw [readOf_count hn]
  exact le_refl _

theorem CountKept.mono {value later : ℤ} (h : CountKept usage key value) (hle : value ≤ later) :
    CountKept usage key later :=
  fun n hn => (h n hn).trans hle

/-- What is taken for a field without a count is no less than the fallback, if what is read is not. -/
theorem replaced_getD_iff : FallbackKept usage key fallback ((readOf usage key).getD fallback) ↔
    (countOf usage key = none → ∀ n ∈ readOf usage key, fallback ≤ n) := by
  refine imp_congr_right ?_
  intro _
  cases readOf usage key with
  | none => simp
  | some n => simp

end safe

/-- **When external usage frees no budget.** -/
theorem usageSafe_iff (usage : Dict) (fallbackInput fallbackOutput : ℕ) (card : DeepSeekPriceCard) :
    UsageSafe usage fallbackInput fallbackOutput card
        (normalizeUsage usage fallbackInput fallbackOutput).1 ↔
      ReadsNoLess usage fallbackInput fallbackOutput card := by
  have heq := normalizeUsage_eq usage fallbackInput fallbackOutput
  revert heq
  generalize (normalizeUsage usage fallbackInput fallbackOutput).1 = u
  rintro ⟨hprompt, hparts, hcompletion, htotal⟩
  have hread : 0 ≤ (readOf usage "prompt_tokens").getD (fallbackInput : ℤ) :=
    getD_readOf_nonneg (by omega)
  have hhit : 0 ≤ (readOf usage "prompt_cache_hit_tokens").getD 0 := getD_readOf_nonneg (le_refl _)
  have hmiss : 0 ≤ (readOf usage "prompt_cache_miss_tokens").getD
      (max 0 ((readOf usage "prompt_tokens").getD (fallbackInput : ℤ) -
        (readOf usage "prompt_cache_hit_tokens").getD 0)) := getD_readOf_nonneg (le_max_left _ _)
  have hout : 0 ≤ (readOf usage "completion_tokens").getD (fallbackOutput : ℤ) :=
    getD_readOf_nonneg (by omega)
  have hsplit : u.promptCacheHitTokens + u.promptCacheMissTokens = u.promptTokens := by omega
  constructor
  · intro h
    refine ⟨?_, ?_, fun hcard => prices_nonneg (h.cost hcard)⟩
    · intro hnone n hn
      have hkept := h.promptReplaced hnone
      rw [hprompt, Option.mem_def.mp hn, Option.getD_some] at hkept
      cases hm : readOf usage "prompt_cache_miss_tokens" with
      | none =>
          rw [hm, Option.getD_none] at hkept
          rw [Option.getD_none]
          omega
      | some m =>
          rw [hm, Option.getD_some] at hkept
          rw [Option.getD_some]
          omega
    · rw [← replaced_getD_iff, ← hcompletion]
      exact h.completionReplaced
  · intro h
    have hpromptKept : FallbackKept usage "prompt_tokens" fallbackInput u.promptTokens := by
      intro hnone
      rw [hprompt]
      cases hp : readOf usage "prompt_tokens" with
      | none => exact le_max_left _ _
      | some n =>
          have hkept := h.prompt hnone n hp
          rw [Option.getD_some]
          cases hm : readOf usage "prompt_cache_miss_tokens" with
          | none =>
              rw [hm, Option.getD_none] at hkept
              rw [Option.getD_none]
              omega
          | some m =>
              rw [hm, Option.getD_some] at hkept
              rw [Option.getD_some]
              omega
    have htaken : (readOf usage "prompt_cache_miss_tokens").getD
        (max 0 ((readOf usage "prompt_tokens").getD (fallbackInput : ℤ) -
          (readOf usage "prompt_cache_hit_tokens").getD 0)) ≤ u.promptCacheMissTokens := by omega
    exact {
      nonneg := by omega
      cacheSplit := hsplit
      total := by omega
      promptReplaced := hpromptKept
      completionReplaced := by
        rw [hcompletion, replaced_getD_iff]
        exact h.completion
      hitReplaced := fun _ => by omega
      missReplaced := by
        intro hnone
        omega
      totalReplaced := by
        intro _
        rw [htotal, hcompletion]
        exact le_max_right _ _
      promptCounted := counted_getD.mono (by rw [hprompt]; exact le_max_left _ _)
      completionCounted := counted_getD.mono hcompletion.ge
      missCounted := counted_getD.mono htaken
      totalCounted := counted_getD.mono (by rw [htotal]; exact le_max_left _ _)
      cost := fun hcard inputTokens outputTokens hinput houtput =>
        actualMicrousd_le (by omega) hsplit hcard (h.prices hcard).1 (h.prices hcard).2 hinput houtput }

/-- Nine tenths of a prompt token are read as none. -/
theorem fraction_not_safe : ¬ UsageSafe [("prompt_tokens", .float (9 / 10) "0.9")] 100 0
    { model := "deepseek-v4-flash", effectiveDate := "2026-07-18", inputCacheHit := 28 / 10000,
      inputCacheMiss := 14 / 100, output := 28 / 100, sourceUrl := priceSource }
    (normalizeUsage [("prompt_tokens", .float (9 / 10) "0.9")] 100 0).1 := by
  intro h
  have hkept := h.promptReplaced (by decide +kernel)
  revert hkept
  decide +kernel

end CrazyHarness
