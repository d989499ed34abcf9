import CrazyHarness.Tools.Accounting

/-! # Batches

`ConsecutiveSafePlanner.plan` keeps the order of the calls and never moves one across a barrier.  The
invariant of its loop is `BatchesOk`: what has been flushed ends with a barrier, so the segment that is
being collected starts a new run. -/

namespace CrazyHarness

namespace ExecutionBatch

/-- The batch of one call that must be alone. -/
def Barrier (b : ExecutionBatch) : Prop :=
  ∃ i, b.calls = [i] ∧ i.parallelSafe = false ∧ b.concurrent = false

/-- The batch of a run of calls that are safe together. -/
def SafeRun (b : ExecutionBatch) : Prop :=
  b.calls ≠ [] ∧ (∀ i ∈ b.calls, i.parallelSafe = true) ∧ b.concurrent = decide (1 < b.calls.length)

end ExecutionBatch

open ExecutionBatch

/-- What the flushed batches keep. -/
structure BatchesOk (batches : List ExecutionBatch) : Prop where
  index : ∀ k (b : ExecutionBatch), batches[k]? = some b → b.index = k
  kinds : ∀ b ∈ batches, b.Barrier ∨ b.SafeRun
  /-- Two runs never meet. -/
  apart : batches.IsChain (fun a b => a.Barrier ∨ b.Barrier)

theorem BatchesOk.append {batches : List ExecutionBatch} {b : ExecutionBatch} (h : BatchesOk batches)
    (hindex : b.index = batches.length) (hkind : b.Barrier ∨ b.SafeRun)
    (hlast : (∀ a ∈ batches.getLast?, a.Barrier) ∨ b.Barrier) : BatchesOk (batches ++ [b]) where
  index := by
    intro k c hc
    rw [List.getElem?_append] at hc
    split at hc
    next => exact h.index k c hc
    next hk =>
      obtain ⟨hzero, hbc⟩ := List.getElem?_eq_some_iff.mp hc
      have hlen : k - batches.length < 1 := hzero
      simp only [List.getElem_singleton] at hbc
      rw [← hbc, hindex]
      omega
  kinds := by
    intro c hc
    rcases List.mem_append.mp hc with hc | hc
    · exact h.kinds c hc
    · rw [List.mem_singleton.mp hc]
      exact hkind
  apart := by
    refine List.isChain_append.mpr ⟨h.apart, List.isChain_singleton b, ?_⟩
    intro a ha c hc
    obtain rfl : b = c := by simpa using hc
    rcases hlast with hlast | hlast
    · exact .inl (hlast a ha)
    · exact .inr hlast

/-- Flushing a segment of safe calls behind a barrier. -/
theorem BatchesOk.flush {batches : List ExecutionBatch} {segment : List ToolInvocation}
    (h : BatchesOk batches) (hlast : ∀ a ∈ batches.getLast?, a.Barrier)
    (hsegment : ∀ i ∈ segment, i.parallelSafe = true) : BatchesOk (flushSafeSegment batches segment) := by
  unfold flushSafeSegment
  split
  · exact h
  next hne => exact h.append rfl (.inr ⟨hne, hsegment, rfl⟩) (.inl hlast)

/-- The loop of the planner: what was flushed ends with a barrier and the segment is safe. -/
theorem batchesOk_planBatches {batches : List ExecutionBatch} {segment : List ToolInvocation}
    (calls : List ToolInvocation) (h : BatchesOk batches)
    (hlast : ∀ a ∈ batches.getLast?, a.Barrier) (hsegment : ∀ i ∈ segment, i.parallelSafe = true) :
    BatchesOk (planBatches batches segment calls) := by
  induction calls generalizing batches segment with
  | nil => exact h.flush hlast hsegment
  | cons call calls ih =>
      unfold planBatches
      split
      next hsafe =>
        refine ih h hlast ?_
        intro i hi
        rcases List.mem_append.mp hi with hi | hi
        · exact hsegment i hi
        · rw [List.mem_singleton.mp hi]
          exact hsafe
      next hnotSafe =>
        have hbarrier : Barrier ⟨(flushSafeSegment batches segment).length, [call], false⟩ :=
          ⟨call, rfl, by simpa using hnotSafe, rfl⟩
        refine ih ((h.flush hlast hsegment).append rfl (.inl hbarrier) (.inr hbarrier)) ?_ (by simp)
        intro a ha
        rw [List.getLast?_concat] at ha
        obtain rfl := Option.some.inj ha
        exact hbarrier

/-- What the planner makes of a list of calls. -/
structure Batched (calls : List ToolInvocation) (batches : List ExecutionBatch) : Prop where
  order : batches.flatMap ExecutionBatch.calls = calls
  index : ∀ k (b : ExecutionBatch), batches[k]? = some b → b.index = k
  /-- What is not safe with others is alone. -/
  barrier : ∀ b ∈ batches, ∀ i ∈ b.calls, i.parallelSafe = false → b.calls = [i] ∧ b.concurrent = false
  /-- What does not run together is one call. -/
  sequential : ∀ b ∈ batches, b.concurrent = false → ∃ i, b.calls = [i]
  concurrent : ∀ b ∈ batches, b.concurrent = true →
    1 < b.calls.length ∧ ∀ i ∈ b.calls, i.parallelSafe = true
  /-- A run goes on from one call that is not safe, or from the start, to the next one, or to the end. -/
  maximal : ∀ before b after, batches = before ++ b :: after → (∀ i ∈ b.calls, i.parallelSafe = true) →
    (∀ i ∈ (before.flatMap ExecutionBatch.calls).getLast?, i.parallelSafe = false) ∧
      ∀ i ∈ (after.flatMap ExecutionBatch.calls).head?, i.parallelSafe = false

/-- Next to a run are barriers only. -/
theorem BatchesOk.maximal {before after : List ExecutionBatch} {b : ExecutionBatch}
    (h : BatchesOk (before ++ b :: after)) (hsafe : ∀ i ∈ b.calls, i.parallelSafe = true) :
    (∀ i ∈ (before.flatMap ExecutionBatch.calls).getLast?, i.parallelSafe = false) ∧
      ∀ i ∈ (after.flatMap ExecutionBatch.calls).head?, i.parallelSafe = false := by
  have hb : ¬ b.Barrier := by
    rintro ⟨i, hcalls, hnotSafe, -⟩
    have hi := hsafe i (by simp [hcalls])
    rw [hnotSafe] at hi
    cases hi
  obtain ⟨-, hafter, hmeet⟩ := List.isChain_append.mp h.apart
  constructor
  · intro i hi
    rcases List.eq_nil_or_concat before with rfl | ⟨rest, a, rfl⟩
    · cases hi
    · obtain ⟨j, hcalls, hnotSafe, -⟩ : a.Barrier :=
        (hmeet a (by simp) b (by simp)).resolve_right hb
      rw [List.concat_eq_append, List.flatMap_append, List.flatMap_singleton, hcalls,
        List.getLast?_concat] at hi
      rw [← Option.some.inj hi]
      exact hnotSafe
  · intro i hi
    cases after with
    | nil => cases hi
    | cons a rest =>
        obtain ⟨j, hcalls, hnotSafe, -⟩ : a.Barrier :=
          ((List.isChain_cons_cons.mp hafter).1).resolve_left hb
        rw [List.flatMap_cons, hcalls] at hi
        rw [← Option.some.inj hi]
        exact hnotSafe

theorem batched_planBatches (calls : List ToolInvocation) :
    Batched calls (planBatches [] [] calls) := by
  have hempty : BatchesOk [] := ⟨by simp, by simp, List.isChain_nil⟩
  have hok := @batchesOk_planBatches [] [] calls hempty (by simp) (by simp)
  exact
    { order := by rw [calls_planBatches]; rfl
      index := hok.index
      barrier := by
        intro b hb i hi hnotSafe
        rcases hok.kinds b hb with ⟨j, hcalls, -, hconcurrent⟩ | ⟨-, hsafe, -⟩
        · rw [hcalls, List.mem_singleton] at hi
          exact ⟨by rw [hcalls, hi], hconcurrent⟩
        · rw [hsafe i hi] at hnotSafe
          cases hnotSafe
      sequential := by
        intro b hb hconcurrent
        rcases hok.kinds b hb with ⟨j, hcalls, -, -⟩ | ⟨hne, -, hlength⟩
        · exact ⟨j, hcalls⟩
        · rw [hconcurrent] at hlength
          have hle : ¬ 1 < b.calls.length := by simpa using hlength.symm
          have hpos := List.length_pos_iff.mpr hne
          exact List.length_eq_one_iff.mp (by omega)
      concurrent := by
        intro b hb hconcurrent
        rcases hok.kinds b hb with ⟨-, -, -, hnot⟩ | ⟨-, hsafe, hlength⟩
        · rw [hconcurrent] at hnot
          cases hnot
        · rw [hconcurrent] at hlength
          exact ⟨by simpa using hlength.symm, hsafe⟩
      maximal := by
        intro before b after hbatches hsafe
        rw [hbatches] at hok
        exact hok.maximal hsafe }

end CrazyHarness
