import CrazyHarness.A2A.Orchestration
import CrazyHarness.Lib.DepthFirst
import CrazyHarness.Lib.Except
import CrazyHarness.Lib.Table

/-! # Task graphs

`TeamContract.validate_graph` as a function with its errors.  `TaskGraph` says what a well-formed graph
is, in terms of the relation between a stage and what it depends on, and `validateGraph_accepts` that
these are the graphs that pass.  `stageGraph_iff` is the same for the check that a `TeamContract` carries
as a field. -/

namespace CrazyHarness

open Lib

/-- The order in which the elements of a set of texts come out of it. -/
structure SetOrder where
  toList : Finset String → List String
  mem_toList : ∀ {s a}, a ∈ toList s ↔ a ∈ s

/-- The first stage of a name. -/
def stageNamed (stages : List TeamStageSpec) (stageId : String) : Option TeamStageSpec :=
  stages.find? (·.stageId = stageId)

/-- `dependencies`, at a stage. -/
def dependenciesOf (stages : List TeamStageSpec) (stageId : String) : Finset String :=
  (((stageNamed stages stageId).map TeamStageSpec.dependsOn).getD []).toFinset

/-- The checks of one stage. -/
def checkStage (known : Finset String) (stage : TeamStageSpec) : Except String Unit := do
  let unknown := stage.dependsOn.toFinset \ known
  ensure (unknown = ∅) ("stage " ++ stage.stageId ++ " has unknown dependencies: " ++
    (Json.ofTextSet unknown).pyRepr)
  match stage.assignmentContract with
  | none => return ()
  | some contract =>
      ensure (contract.goal = stage.goal ∧ contract.exitCriteria = stage.exitCriteria)
        ("stage " ++ stage.stageId ++ " and its assignment contract disagree")

/-- The visits of all stages; no path is longer than `depth`. -/
def visitStages (order : SetOrder) (stages : List TeamStageSpec) (depth : ℕ) :
    Except SearchStop (List String) :=
  search (fun stageId => order.toList (dependenciesOf stages stageId)) depth
    (stages.map TeamStageSpec.stageId)

/-- `validate_graph`. -/
def validateGraph (order : SetOrder) (stages : List TeamStageSpec) : Except String Unit := do
  let stageIds := stages.map TeamStageSpec.stageId
  ensure (stageIds ≠ []) "team contract requires at least one stage"
  ensure stageIds.Nodup "team contract contains duplicate stage ids"
  stages.forM (checkStage stageIds.toFinset)
  match visitStages order stages (stages.length + 1) with
  | .ok _ => return ()
  | .error .cycle => .error "stage dependency cycle detected"
  | .error .depth => .error "maximum recursion depth exceeded"

/-! ### Well-formed graphs -/

/-- A stage and what it depends on. -/
def DependsOn (stages : List TeamStageSpec) (a b : String) : Prop :=
  ∃ stage ∈ stages, stage.stageId = a ∧ b ∈ stage.dependsOn

/-- A well-formed task graph. -/
structure TaskGraph (stages : List TeamStageSpec) : Prop where
  ne : stages ≠ []
  nodup : (stages.map TeamStageSpec.stageId).Nodup
  known : ∀ stage ∈ stages, ∀ dependency ∈ stage.dependsOn,
    dependency ∈ stages.map TeamStageSpec.stageId
  agree : ∀ stage ∈ stages, ∀ contract ∈ stage.assignmentContract,
    contract.goal = stage.goal ∧ contract.exitCriteria = stage.exitCriteria
  acyclic : ∀ stageId, ¬ Relation.TransGen (DependsOn stages) stageId stageId

section graphs

variable {stages : List TeamStageSpec} {succ : String → List String}

theorem stageNamed_iff (hnodup : (stages.map TeamStageSpec.stageId).Nodup) {stageId : String}
    {stage : TeamStageSpec} :
    stageNamed stages stageId = some stage ↔ stage ∈ stages ∧ stage.stageId = stageId :=
  Table.lookup_eq_some_iff (t := (⟨stages, hnodup⟩ : Table TeamStageSpec.stageId))

theorem mem_dependenciesOf (hnodup : (stages.map TeamStageSpec.stageId).Nodup) {a b : String} :
    b ∈ dependenciesOf stages a ↔ DependsOn stages a b := by
  unfold dependenciesOf DependsOn
  rw [List.mem_toFinset]
  constructor
  · intro hb
    cases hstage : stageNamed stages a with
    | none =>
        rw [hstage] at hb
        exact absurd hb List.not_mem_nil
    | some stage =>
        rw [hstage] at hb
        obtain ⟨hmem, hid⟩ := (stageNamed_iff hnodup).mp hstage
        exact ⟨stage, hmem, hid, hb⟩
  · rintro ⟨stage, hmem, hid, hb⟩
    rw [(stageNamed_iff hnodup).mpr ⟨hmem, hid⟩]
    exact hb

/-- In a graph with known dependencies the stages are closed under them. -/
theorem dependsOn_known (hknown : ∀ stage ∈ stages, ∀ dependency ∈ stage.dependsOn,
    dependency ∈ stages.map TeamStageSpec.stageId) {a b : String} (h : DependsOn stages a b) :
    b ∈ stages.map TeamStageSpec.stageId := by
  obtain ⟨stage, hmem, -, hb⟩ := h
  exact hknown stage hmem b hb

theorem dependsOn_stage {a b : String} (h : DependsOn stages a b) :
    a ∈ stages.map TeamStageSpec.stageId := by
  obtain ⟨stage, hmem, rfl, -⟩ := h
  exact List.mem_map_of_mem hmem

/-- Every search along the dependencies of known stages finds out whether there is a cycle. -/
theorem search_stages (hsucc : ∀ {a b}, b ∈ succ a ↔ DependsOn stages a b)
    (hknown : ∀ stage ∈ stages, ∀ dependency ∈ stage.dependsOn,
      dependency ∈ stages.map TeamStageSpec.stageId) {depth : ℕ} (hdepth : stages.length < depth) :
    search succ depth (stages.map TeamStageSpec.stageId) ≠ .error .depth ∧
      ((∃ visited, search succ depth (stages.map TeamStageSpec.stageId) = .ok visited) ↔
        ∀ stageId, ¬ Relation.TransGen (DependsOn stages) stageId stageId) := by
  have hrel : Succ succ = DependsOn stages := by
    funext a b
    exact propext hsucc
  have hcard : (stages.map TeamStageSpec.stageId).toFinset.card < depth :=
    lt_of_le_of_lt (List.toFinset_card_le _) (by simpa using hdepth)
  have hclosed : ∀ a ∈ (stages.map TeamStageSpec.stageId).toFinset, ∀ b ∈ succ a,
      b ∈ (stages.map TeamStageSpec.stageId).toFinset := by
    intro a _ b hb
    exact List.mem_toFinset.mpr (dependsOn_known hknown (hsucc.mp hb))
  refine ⟨search_ne_depth hclosed (fun a ha => List.mem_toFinset.mpr ha) hcard, ?_⟩
  rw [← hrel]
  refine search_ok_iff hclosed (fun a => List.mem_toFinset.symm) ?_ hcard
  intro a ha
  rw [List.eq_nil_iff_forall_not_mem]
  intro b hb
  exact ha (List.mem_toFinset.mpr (dependsOn_stage (hsucc.mp hb)))

/-! ### The validation -/

theorem checkStage_ok_iff {known : Finset String} {stage : TeamStageSpec} :
    checkStage known stage = .ok () ↔ (∀ dependency ∈ stage.dependsOn, dependency ∈ known) ∧
      ∀ contract ∈ stage.assignmentContract,
        contract.goal = stage.goal ∧ contract.exitCriteria = stage.exitCriteria := by
  have hknown : stage.dependsOn.toFinset \ known = ∅ ↔
      ∀ dependency ∈ stage.dependsOn, dependency ∈ known := by
    rw [Finset.sdiff_eq_empty_iff_subset]
    exact ⟨fun h a ha => h (List.mem_toFinset.mpr ha), fun h a ha => h a (List.mem_toFinset.mp ha)⟩
  unfold checkStage
  rw [bind_ok_iff]
  simp only [ensure_ok_iff, hknown]
  cases stage.assignmentContract with
  | none => simp
  | some contract => simp

theorem forM_ok_iff {ε β : Type} {f : β → Except ε Unit} {xs : List β} :
    xs.forM f = .ok () ↔ ∀ x ∈ xs, f x = .ok () := by
  induction xs with
  | nil => simp
  | cons x xs ih =>
      rw [List.forall_mem_cons, ← ih, List.forM_eq_forM, List.forM_cons, bind_ok_iff]
      constructor
      · rintro ⟨_, hx, hxs⟩
        exact ⟨hx, hxs⟩
      · rintro ⟨hx, hxs⟩
        exact ⟨(), hx, hxs⟩

theorem visitStages_spec (order : SetOrder) (hnodup : (stages.map TeamStageSpec.stageId).Nodup)
    (hknown : ∀ stage ∈ stages, ∀ dependency ∈ stage.dependsOn,
      dependency ∈ stages.map TeamStageSpec.stageId) {depth : ℕ} (hdepth : stages.length < depth) :
    visitStages order stages depth ≠ .error .depth ∧
      ((∃ visited, visitStages order stages depth = .ok visited) ↔
        ∀ stageId, ¬ Relation.TransGen (DependsOn stages) stageId stageId) :=
  search_stages (order.mem_toList.trans (mem_dependenciesOf hnodup)) hknown hdepth

/-- **The validation accepts the well-formed graphs**, and its visits come to an end on every graph
that reaches them: they are not cut off, however large the bound on their depth. -/
theorem validateGraph_accepts (order : SetOrder) (stages : List TeamStageSpec) :
    (validateGraph order stages = .ok () ↔ TaskGraph stages) ∧
      ((stages.map TeamStageSpec.stageId).Nodup →
        stages.forM (checkStage (stages.map TeamStageSpec.stageId).toFinset) = .ok () →
        ∀ depth, stages.length < depth → visitStages order stages depth ≠ .error .depth) := by
  have hchecks : stages.forM (checkStage (stages.map TeamStageSpec.stageId).toFinset) = .ok () ↔
      (∀ stage ∈ stages, ∀ dependency ∈ stage.dependsOn,
        dependency ∈ stages.map TeamStageSpec.stageId) ∧
      ∀ stage ∈ stages, ∀ contract ∈ stage.assignmentContract,
        contract.goal = stage.goal ∧ contract.exitCriteria = stage.exitCriteria := by
    simp only [forM_ok_iff, checkStage_ok_iff, List.mem_toFinset, forall_and]
  refine ⟨?_, ?_⟩
  · unfold validateGraph
    simp only [bind_ok_iff, ensure_ok_iff, exists_and_left, exists_const]
    constructor
    · rintro ⟨hne, hnodup, _, hstages, hvisit⟩
      obtain ⟨hknown, hagree⟩ := hchecks.mp hstages
      have hspec := visitStages_spec order hnodup hknown (Nat.lt_succ_self _)
      refine ⟨by simpa using hne, hnodup, hknown, hagree, hspec.2.mp ?_⟩
      split at hvisit
      next visited hok => exact ⟨visited, hok⟩
      next => cases hvisit
      next => cases hvisit
    · intro h
      have hspec := visitStages_spec order h.nodup h.known (Nat.lt_succ_self _)
      obtain ⟨visited, hok⟩ := hspec.2.mpr h.acyclic
      refine ⟨by simpa using h.ne, h.nodup, (), hchecks.mpr ⟨h.known, h.agree⟩, ?_⟩
      rw [hok]
      rfl
  · intro hnodup hstages depth hdepth
    exact (visitStages_spec order hnodup (hchecks.mp hstages).1 hdepth).1

/-! ### The graph of a contract -/

theorem foldlM_toOption {ε β γ : Type} {f : β → γ → Option β} {g : β → γ → Except ε β}
    (h : ∀ b c, f b c = (g b c).toOption) (cs : List γ) (b : β) :
    cs.foldlM f b = (cs.foldlM g b).toOption := by
  induction cs generalizing b with
  | nil => rfl
  | cons c cs ih =>
      rw [List.foldlM_cons, List.foldlM_cons, h]
      cases g b c with
      | error e => rfl
      | ok later => exact ih later

theorem isSome_toOption_iff {ε β : Type} {r : Except ε β} : r.toOption.isSome ↔ ∃ b, r = .ok b := by
  cases r <;> simp [Except.toOption]

theorem visitStage_eq (dependencies : String → List String) (depth : ℕ) (visiting visited : List String)
    (stageId : String) : visitStage dependencies depth visiting visited stageId =
      (visit dependencies depth visiting visited stageId).toOption := by
  induction depth generalizing visiting visited stageId with
  | zero => rfl
  | succ depth ih =>
      rw [visitStage, visit]
      split
      next => rfl
      next =>
        split
        next => rfl
        next =>
          rw [foldlM_toOption (fun b c => ih (stageId :: visiting) b c)]
          cases (dependencies stageId).foldlM (visit dependencies depth (stageId :: visiting)) visited with
          | error stop => rfl
          | ok later => rfl

/-- The check that a contract carries as a field is the same. -/
theorem stageGraph_iff : StageGraph stages ↔ TaskGraph stages := by
  have hacyclic : (stages.map TeamStageSpec.stageId).Nodup →
      (∀ stage ∈ stages, ∀ dependency ∈ stage.dependsOn,
        dependency ∈ stages.map TeamStageSpec.stageId) →
      (Acyclic stages ↔ ∀ stageId, ¬ Relation.TransGen (DependsOn stages) stageId stageId) := by
    intro hnodup hknown
    rw [← (search_stages (List.mem_toFinset.symm.trans (mem_dependenciesOf hnodup)) hknown
      (Nat.lt_succ_self _)).2]
    unfold Acyclic search
    dsimp only
    rw [foldlM_toOption (visitStage_eq _ _ [])]
    exact isSome_toOption_iff
  constructor
  · intro h
    exact ⟨h.ne, h.nodup, h.known, h.agree, (hacyclic h.nodup h.known).mp h.acyclic⟩
  · intro h
    exact ⟨h.ne, h.nodup, h.known, h.agree, (hacyclic h.nodup h.known).mpr h.acyclic⟩

end graphs

end CrazyHarness
