import Mathlib

/-! # Runs of a deterministic machine

A machine whose steps are a function of the label.  `runAll step s ops` is the state after
the labels `ops`; `EveryState` and `EveryStep` speak of all states and all steps on the way.

* `everyState_iff_prefixes`: the states on the way are those after the prefixes of `ops`.
* `EveryState.of_invariant`: what the first state has and every step keeps, all states have.
* `everyState_iff_everyStep`: where a step keeps a property exactly under a condition, a
  whole run keeps it exactly when every step of the run meets that condition.
* `everyPair_iff_everyStep`: a preorder holds between any two states on the way exactly when
  every step is in it. -/

namespace Lib

variable {σ ω : Type*} (step : ω → σ → σ)

/-- The state after the steps `ops`, taken in order. -/
def runAll (s : σ) : List ω → σ
  | [] => s
  | op :: ops => runAll (step op s) ops

/-- Every state of the run, the first and the last included, has the property `P`. -/
def EveryState (P : σ → Prop) (s : σ) : List ω → Prop
  | [] => P s
  | op :: ops => P s ∧ EveryState P (step op s) ops

/-- Every step of the run meets the condition `Q` on the state it is taken in. -/
def EveryStep (Q : σ → ω → Prop) (s : σ) : List ω → Prop
  | [] => True
  | op :: ops => Q s op ∧ EveryStep Q (step op s) ops

instance decidableEveryState (P : σ → Prop) [DecidablePred P] :
    ∀ (s : σ) (ops : List ω), Decidable (EveryState step P s ops)
  | s, [] => inferInstanceAs (Decidable (P s))
  | s, op :: ops =>
      have := decidableEveryState P (step op s) ops
      inferInstanceAs (Decidable (P s ∧ EveryState step P (step op s) ops))

instance decidableEveryStep (Q : σ → ω → Prop) [∀ s op, Decidable (Q s op)] :
    ∀ (s : σ) (ops : List ω), Decidable (EveryStep step Q s ops)
  | _, [] => inferInstanceAs (Decidable True)
  | s, op :: ops =>
      have := decidableEveryStep Q (step op s) ops
      inferInstanceAs (Decidable (Q s op ∧ EveryStep step Q (step op s) ops))

variable {step}

theorem EveryState.head {P : σ → Prop} {s : σ} {ops : List ω} (h : EveryState step P s ops) :
    P s := by
  cases ops with
  | nil => exact h
  | cons op ops => exact h.1

theorem EveryState.last {P : σ → Prop} {s : σ} {ops : List ω} (h : EveryState step P s ops) :
    P (runAll step s ops) := by
  induction ops generalizing s with
  | nil => exact h
  | cons op ops ih => exact ih h.2

/-- The states on the way are those after the prefixes of the run. -/
theorem everyState_iff_prefixes {P : σ → Prop} {s : σ} {ops : List ω} :
    EveryState step P s ops ↔ ∀ pre, pre <+: ops → P (runAll step s pre) := by
  induction ops generalizing s with
  | nil =>
      constructor
      · intro h pre hpre
        rw [List.prefix_nil.mp hpre]
        exact h
      · intro h
        exact h [] List.prefix_rfl
  | cons op ops ih =>
      rw [EveryState, ih]
      constructor
      · rintro ⟨hs, h⟩ pre hpre
        cases pre with
        | nil => exact hs
        | cons op' pre =>
            obtain ⟨rfl, hpre'⟩ := List.cons_prefix_cons.mp hpre
            exact h pre hpre'
      · intro h
        refine ⟨h [] List.nil_prefix, ?_⟩
        intro pre hpre
        exact h (op :: pre) (List.cons_prefix_cons.mpr ⟨rfl, hpre⟩)

/-- The steps of a run are those after its prefixes. -/
theorem everyStep_iff_prefixes {Q : σ → ω → Prop} {s : σ} {ops : List ω} :
    EveryStep step Q s ops ↔ ∀ pre op, pre ++ [op] <+: ops → Q (runAll step s pre) op := by
  induction ops generalizing s with
  | nil =>
      refine iff_of_true trivial ?_
      intro pre op hpre
      exact absurd (List.prefix_nil.mp hpre) (List.append_ne_nil_of_right_ne_nil _ (List.cons_ne_nil _ _))
  | cons op ops ih =>
      rw [EveryStep, ih]
      constructor
      · rintro ⟨hop, h⟩ pre op' hpre
        cases pre with
        | nil =>
            obtain ⟨rfl, _⟩ := List.cons_prefix_cons.mp hpre
            exact hop
        | cons first pre =>
            obtain ⟨rfl, hpre'⟩ := List.cons_prefix_cons.mp hpre
            exact h pre op' hpre'
      · intro h
        refine ⟨h [] op (List.cons_prefix_cons.mpr ⟨rfl, List.nil_prefix⟩), ?_⟩
        intro pre op' hpre
        exact h (op :: pre) op' (List.cons_prefix_cons.mpr ⟨rfl, hpre⟩)

/-- A step keeps `P` exactly when `Q` holds of it; then a run keeps `P` in all its states
exactly when `Q` holds of all its steps.  `W` is what the run promises of its steps. -/
theorem everyState_iff_everyStep {P : σ → Prop} {Q W : σ → ω → Prop} {s : σ} {ops : List ω}
    (h0 : P s) (hstep : ∀ s op, P s → W s op → (P (step op s) ↔ Q s op))
    (hW : EveryStep step W s ops) : EveryState step P s ops ↔ EveryStep step Q s ops := by
  induction ops generalizing s with
  | nil => exact iff_of_true h0 trivial
  | cons op ops ih =>
      have hop := hstep s op h0 hW.1
      constructor
      · intro h
        have hnext := h.2.head
        exact ⟨hop.mp hnext, (ih hnext hW.2).mp h.2⟩
      · intro h
        have hnext := hop.mpr h.1
        exact ⟨h0, (ih hnext hW.2).mpr h.2⟩

/-- As `everyState_iff_everyStep`, for a property of the states together with one of the steps. -/
theorem everyState_and_everyStep_iff {P : σ → Prop} {R Q : σ → ω → Prop} {s : σ} {ops : List ω}
    (h0 : P s) (hstep : ∀ s op, P s → (P (step op s) ∧ R s op ↔ Q s op)) :
    EveryState step P s ops ∧ EveryStep step R s ops ↔ EveryStep step Q s ops := by
  induction ops generalizing s with
  | nil => exact iff_of_true ⟨h0, trivial⟩ trivial
  | cons op ops ih =>
      have hop := hstep s op h0
      constructor
      · intro h
        have hnext := h.1.2.head
        exact ⟨hop.mp ⟨hnext, h.2.1⟩, (ih hnext).mp ⟨h.1.2, h.2.2⟩⟩
      · intro h
        obtain ⟨hnext, hR⟩ := hop.mpr h.1
        obtain ⟨hstates, hsteps⟩ := (ih hnext).mpr h.2
        exact ⟨⟨h0, hstates⟩, hR, hsteps⟩

/-- What the first state has and every step keeps, all states have. -/
theorem EveryState.of_invariant {P : σ → Prop} {W : σ → ω → Prop} {s : σ} {ops : List ω}
    (h0 : P s) (hstep : ∀ s op, P s → W s op → P (step op s)) (hW : EveryStep step W s ops) :
    EveryState step P s ops := by
  induction ops generalizing s with
  | nil => exact h0
  | cons op ops ih => exact ⟨h0, ih (hstep s op h0 hW.1) hW.2⟩

theorem runAll_append (s : σ) (ops ops' : List ω) :
    runAll step s (ops ++ ops') = runAll step (runAll step s ops) ops' := by
  induction ops generalizing s with
  | nil => rfl
  | cons op ops ih => exact ih _

theorem EveryState.of_forall {P : σ → Prop} (h : ∀ s, P s) (s : σ) (ops : List ω) :
    EveryState step P s ops := by
  induction ops generalizing s with
  | nil => exact h s
  | cons op ops ih => exact ⟨h s, ih _⟩

theorem EveryState.mono {P P' : σ → Prop} {s : σ} {ops : List ω} (h : EveryState step P s ops)
    (hP : ∀ s, P s → P' s) : EveryState step P' s ops := by
  induction ops generalizing s with
  | nil => exact hP s h
  | cons op ops ih => exact ⟨hP s h.1, ih h.2⟩

theorem EveryStep.of_forall {Q : σ → ω → Prop} (h : ∀ s op, Q s op) (s : σ) (ops : List ω) :
    EveryStep step Q s ops := by
  induction ops generalizing s with
  | nil => trivial
  | cons op ops ih => exact ⟨h s op, ih _⟩

/-- Two conditions that agree where an invariant holds are met by the same runs. -/
theorem EveryStep.congr {I : σ → Prop} {Q Q' : σ → ω → Prop} {s : σ} {ops : List ω} (h0 : I s)
    (hstep : ∀ s op, I s → I (step op s)) (hQ : ∀ s op, I s → (Q s op ↔ Q' s op)) :
    EveryStep step Q s ops ↔ EveryStep step Q' s ops := by
  induction ops generalizing s with
  | nil => exact Iff.rfl
  | cons op ops ih => exact and_congr (hQ s op h0) (ih (hstep s op h0))

/-- A reflexive and transitive relation holds from any state on the way to any later one exactly
if every step is in it. -/
theorem everyPair_iff_everyStep {R : σ → σ → Prop} (hrefl : ∀ s, R s s)
    (htrans : ∀ {s t u}, R s t → R t u → R s u) {s : σ} {ops : List ω} :
    (∀ pre post, pre ++ post <+: ops → R (runAll step s pre) (runAll step s (pre ++ post))) ↔
      EveryStep step (fun s op => R s (step op s)) s ops := by
  induction ops generalizing s with
  | nil =>
      refine iff_of_true ?_ trivial
      intro pre post hpre
      obtain ⟨rfl, rfl⟩ := List.append_eq_nil_iff.mp (List.prefix_nil.mp hpre)
      exact hrefl s
  | cons op ops ih =>
      constructor
      · intro h
        refine ⟨h [] [op] (List.cons_prefix_cons.mpr ⟨rfl, List.nil_prefix⟩), ih.mp ?_⟩
        intro pre post hpre
        exact h (op :: pre) post (List.cons_prefix_cons.mpr ⟨rfl, hpre⟩)
      · rintro ⟨hop, hrest⟩ pre post hpre
        have hlater := ih.mpr hrest
        cases pre with
        | cons op' pre =>
            obtain ⟨rfl, hpre'⟩ := List.cons_prefix_cons.mp hpre
            exact hlater pre post hpre'
        | nil =>
            cases post with
            | nil => exact hrefl s
            | cons op' post =>
                obtain ⟨rfl, hpost⟩ := List.cons_prefix_cons.mp hpre
                exact htrans hop (hlater [] post hpost)

theorem EveryStep.mono {Q Q' : σ → ω → Prop} {s : σ} {ops : List ω} (h : EveryStep step Q s ops)
    (hQ : ∀ s op, Q s op → Q' s op) : EveryStep step Q' s ops := by
  induction ops generalizing s with
  | nil => trivial
  | cons op ops ih => exact ⟨hQ s op h.1, ih h.2⟩

end Lib
