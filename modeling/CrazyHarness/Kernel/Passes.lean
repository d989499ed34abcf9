import CrazyHarness.Kernel.Validate

/-! # Checks that pass

What a check of the kernel has established when it passes, in the state of the store it ran in: one
lemma for each check, so that no proof about the kernel opens a check again.  `Passes` says it of a
whole candidate. -/

namespace CrazyHarness

open Lib Check

variable {db : Database} {clock : DateTime} {c : CommandCandidate}

/-! ### Reads -/

@[simp] theorem readRun_passes {runId : String} {events : List Event} :
    (Check.readRun runId).within db clock = .ok events ↔ db.readRun runId = events :=
  ⟨fun h => Except.ok.inj h, fun h => congrArg Except.ok h⟩

@[simp] theorem readTask_passes {taskId : String} {events : List Event} :
    (Check.readTask taskId).within db clock = .ok events ↔ db.readTask taskId = events :=
  ⟨fun h => Except.ok.inj h, fun h => congrArg Except.ok h⟩

@[simp] theorem getEvent_passes {eventId : String} {e : Option Event} :
    (Check.getEvent eventId).within db clock = .ok e ↔ db.getEvent eventId = e :=
  ⟨fun h => Except.ok.inj h, fun h => congrArg Except.ok h⟩

@[simp] theorem projection_passes {kind entityId : String} {row : Option Dict} :
    (Check.projection kind entityId).within db clock = .ok row ↔
      db.loadProjection kind entityId = row :=
  ⟨fun h => Except.ok.inj h, fun h => congrArg Except.ok h⟩

@[simp] theorem snapshot_passes {runId : Option String} {rows : String → List Dict} :
    (Check.snapshot runId).within db clock = .ok rows ↔ db.snapshotOf runId = rows :=
  ⟨fun h => Except.ok.inj h, fun h => congrArg Except.ok h⟩

@[simp] theorem now_passes {t : DateTime} : Check.now.within db clock = .ok t ↔ clock = t :=
  ⟨fun h => Except.ok.inj h, fun h => congrArg Except.ok h⟩

/-! ### The contract of a run -/

/-- The team contract in the event that created the run, as it is stored there. -/
def Database.contractOf (db : Database) (runId : String) : Option Json :=
  match ((db.readRun runId).find? (fun e => e.type = "run.created")).bind
      (Event.get? · "team_contract") with
  | some .null => none
  | contract => contract

/-- The persisted contract of the run is `k`; `none` says that it has none. -/
def Database.ContractIs (db : Database) (runId : String) (k : Option TeamContract) : Prop :=
  match db.contractOf runId with
  | none => k = none
  | some v => k.isSome ∧ TeamContract.ofJson v = k

instance Database.decidableContractIs (db : Database) (runId : String) (k : Option TeamContract) :
    Decidable (db.ContractIs runId k) :=
  match h : db.contractOf runId with
  | none => decidable_of_iff (k = none) (by rw [ContractIs, h])
  | some v => decidable_of_iff (k.isSome ∧ TeamContract.ofJson v = k) (by rw [ContractIs, h])

theorem Database.ContractIs.unique {runId : String} {k k' : Option TeamContract}
    (h : db.ContractIs runId k) (h' : db.ContractIs runId k') : k = k' := by
  unfold Database.ContractIs at h h'
  split at h
  next hnone =>
    simp only [hnone] at h'
    rw [h, h']
  next v hv =>
    simp only [hv] at h'
    rw [← h.2, h'.2]

theorem persistedTeamContract_passes {runId : String} {k : Option TeamContract} :
    (persistedTeamContract runId).within db clock = .ok k ↔ db.ContractIs runId k := by
  unfold persistedTeamContract Database.ContractIs Database.contractOf
  rw [bind_passes]
  simp only [readRun_passes, exists_eq_left']
  generalize ((db.readRun runId).find? (fun e => e.type = "run.created")).bind
    (Event.get? · "team_contract") = stored
  split
  next => simp [eq_comm]
  next => simp [eq_comm]
  next v hne =>
    have hv : v ≠ .null := fun h => hne (by rw [h])
    have hstored : (match some v with
      | some .null => none
      | contract => contract) = some v := by
      split
      next h => exact absurd (Option.some.inj h) hv
      next => rfl
    rw [hstored]
    split
    next contract hk =>
      simp only [hk]
      constructor
      · intro h
        obtain rfl := Except.ok.inj h
        exact ⟨rfl, rfl⟩
      · rintro ⟨-, rfl⟩
        rfl
    next hk =>
      simp only [hk]
      constructor
      · intro h
        cases h
      · rintro ⟨hsome, rfl⟩
        cases hsome

/-! ### Leases and results -/

/-- The lease of the assignment is active for its holder at the time. -/
structure LeaseHeld (db : Database) (clock : DateTime) (runId assignmentId : String) (holder : Json)
    (lease : Dict) : Prop where
  row : db.loadProjection "lease" assignmentId = some lease
  run : (lease.get? "run_id").bind Json.asStr = some runId
  active : hasStatus lease ["active"]
  holds : (lease.getD "agent_id" .null).pyEq holder

theorem requireActiveLease_passes {assignmentId : String} {holder : Json} {reason : String} {u : Unit}
    (h : (requireActiveLease c assignmentId holder reason).within db clock = .ok u) :
    ∃ lease, LeaseHeld db clock c.runId assignmentId holder lease := by
  unfold requireActiveLease at h
  simp only [bind_passes, projection_passes, orReject_passes, require_passes, exists_eq_left'] at h
  obtain ⟨lease, hlease, -, ⟨hrun, hactive, hholds⟩, -⟩ := h
  exact ⟨lease, hlease, hrun, hactive, hholds⟩

/-- `_candidate_assignment` in a state of the store. -/
def Database.assignmentOf (db : Database) (c : CommandCandidate) : Option Dict :=
  (truthyText (c.payload.get? "assignment_id")).bind (db.loadProjection "assignment")

theorem candidateAssignment_passes {assignment : Option Dict} :
    (candidateAssignment c).within db clock = .ok assignment ↔ db.assignmentOf c = assignment := by
  unfold candidateAssignment Database.assignmentOf
  split
  next h =>
    rw [h, within_pure]
    simp
  next id h =>
    rw [h, projection_passes]
    rfl

/-- The assignment of a result: it is held by the actor, with an active lease. -/
structure ResultHeld (db : Database) (clock : DateTime) (c : CommandCandidate) (assignment : Dict) :
    Prop where
  run : (assignment.get? "run_id").bind Json.asStr = some c.runId
  agent : (assignment.get? "agent_id").bind Json.asStr = some c.actorId
  kind : assignment.getD "result_kind" .null ∈ [.null, .str c.kind.value]
  task : (assignment.get? "task_id").bind Json.asStr = some c.taskId
  lease : ∃ lease, LeaseHeld db clock c.runId (assignmentIdText c) (.str c.actorId) lease

theorem validateLeasedResult_passes {assignment : Option Dict} {u : Unit}
    (h : (validateLeasedResult c assignment).within db clock = .ok u) :
    ∃ a, assignment = some a ∧ ResultHeld db clock c a := by
  unfold validateLeasedResult at h
  simp only [bind_passes, orReject_passes, require_passes] at h
  obtain ⟨a, ha, -, hrun, -, hagent, -, hkind, -, htask, hlease⟩ := h
  exact ⟨a, ha, hrun, hagent, hkind, htask, requireActiveLease_passes hlease⟩

theorem withContract_passes {k : Option TeamContract} {check : TeamContract → Check Unit} {u : Unit} :
    (withContract k check).within db clock = .ok u ↔
      ∀ contract, k = some contract → (check contract).within db clock = .ok () := by
  cases k with
  | none => simp [withContract]
  | some contract => simp [withContract]

/-- `EVIDENCE`, `ARTIFACT` and `REVIEW`. -/
theorem validateResult_passes {assignment : Option Dict} {k : Option TeamContract} {u : Unit}
    (h : (validateResult c assignment k).within db clock = .ok u)
    (hguarded : k.isSome ∨ dynamicallyAuthorized c assignment) :
    (∃ a, assignment = some a ∧ ResultHeld db clock c a) ∧
      (k.isSome → (validateTeamResult c assignment).within db clock = .ok ()) := by
  unfold validateResult at h
  rw [if_pos hguarded] at h
  obtain ⟨_, hresult, hteam⟩ := bind_passes.mp h
  refine ⟨validateLeasedResult_passes hresult, ?_⟩
  intro hk
  obtain ⟨contract, hcontract⟩ := Option.isSome_iff_exists.mp hk
  exact withContract_passes.mp hteam contract hcontract

theorem validateKind_result {assignment : Option Dict} {team : Option TeamContract}
    (hkind : c.kind ∈ leasedResultKinds) :
    validateKind c assignment team = validateResult c assignment team := by
  unfold validateKind
  simp only [leasedResultKinds, List.mem_cons, List.not_mem_nil, or_false] at hkind
  rcases hkind with hkind | hkind | hkind <;> simp only [hkind]

/-! ### Peers -/

/-- The assignment of a peer request is held by the sender. -/
structure RequestHeld (db : Database) (clock : DateTime) (c : CommandCandidate) (assignment : Dict) :
    Prop where
  run : (assignment.get? "run_id").bind Json.asStr = some c.runId
  agent : (assignment.get? "agent_id").bind Json.asStr = some c.actorId
  task : (assignment.get? "task_id").bind Json.asStr = some c.taskId
  lease : ∃ lease, LeaseHeld db clock c.runId (assignmentIdText c) (.str c.actorId) lease

theorem validatePeerRequestAuthority_passes {assignment : Option Dict} {u : Unit}
    (h : (validatePeerRequestAuthority c assignment).within db clock = .ok u) :
    ∃ a, assignment = some a ∧ RequestHeld db clock c a := by
  unfold validatePeerRequestAuthority at h
  simp only [bind_passes, orReject_passes, require_passes] at h
  obtain ⟨a, ha, -, hrun, -, hagent, -, htask, _, hlease, _⟩ := h
  exact ⟨a, ha, hrun, hagent, htask, requireActiveLease_passes hlease⟩

/-- `PEER_REQUEST`. -/
theorem validatePeerRequest_passes {assignment : Option Dict} {k : Option TeamContract} {u : Unit}
    (h : (validatePeerRequest c assignment k).within db clock = .ok u) :
    (k.isSome → ∃ a, assignment = some a ∧ RequestHeld db clock c a) ∧
      (db.readRun c.runId).countP (IsPeerRequest (assignmentIdText c) c.actorId ·) = 0 := by
  unfold validatePeerRequest at h
  simp only [bind_passes, require_passes, liftE_passes, readRun_passes, exists_eq_left'] at h
  obtain ⟨depth, -, -, -, -, -, -, -, budget, -, -, -, _, hauthority, hspent⟩ := h
  refine ⟨?_, Nat.lt_one_iff.mp hspent⟩
  intro hk
  obtain ⟨contract, hcontract⟩ := Option.isSome_iff_exists.mp hk
  exact validatePeerRequestAuthority_passes (withContract_passes.mp hauthority contract hcontract)

/-! ### Plan patches -/

theorem checkStagesOnce_passes {seen : List String} {proposals : List AssignmentProposal} {u : Unit}
    (h : (checkStagesOnce seen proposals).within db clock = .ok u) :
    (proposals.map AssignmentProposal.stageId).Nodup ∧
      ∀ p ∈ proposals, p.stageId ∉ seen := by
  induction proposals generalizing seen with
  | nil => exact ⟨List.nodup_nil, fun p hp => absurd hp List.not_mem_nil⟩
  | cons p proposals ih =>
      rw [checkStagesOnce, bind_passes] at h
      obtain ⟨_, hp, hrest⟩ := h
      obtain ⟨hnodup, hseen⟩ := ih hrest
      constructor
      · rw [List.map_cons, List.nodup_cons]
        refine ⟨?_, hnodup⟩
        intro hmem
        obtain ⟨q, hq, heq⟩ := List.mem_map.mp hmem
        exact hseen q hq (by rw [heq]; exact List.mem_cons_self)
      · intro q hq
        cases List.mem_cons.mp hq with
        | inl heq =>
            rw [heq]
            exact require_passes.mp hp
        | inr hmem => exact fun hin => hseen q hmem (List.mem_cons_of_mem _ hin)

theorem checkProposals_passes {view : PlanView} {planned : String → ℕ}
    {proposals : List AssignmentProposal} {u : Unit}
    (h : (checkProposals view planned proposals).within db clock = .ok u) :
    ∀ p ∈ proposals, ∃ planned, (checkProposal view planned p).within db clock = .ok () := by
  induction proposals generalizing planned with
  | nil => exact fun p hp => absurd hp List.not_mem_nil
  | cons p proposals ih =>
      rw [checkProposals, bind_passes] at h
      obtain ⟨_, hp, hrest⟩ := h
      intro q hq
      cases List.mem_cons.mp hq with
      | inl heq =>
          rw [heq]
          exact ⟨planned, hp⟩
      | inr hmem => exact ih hrest q hmem

/-- What the contract has established of a proposal. -/
structure ProposalPasses (db : Database) (view : PlanView) (k : TeamContract)
    (p : AssignmentProposal) : Prop where
  stage : ∃ persisted, k.stage? p.stageId = some persisted ∧ persisted.dependsOn ⊆ view.completed ∧
    p.resultKind = persisted.resultKind
  unfinished : p.stageId ∉ view.completed
  idle : p.stageId ∉ view.active
  attempt : ∃ attempts, previousAttempts view.assignments p.stageId = .ok attempts ∧
    p.attempt = following attempts
  fresh : db.loadProjection "assignment" p.assignmentId = none

theorem checkProposal_passes {view : PlanView} {planned : String → ℕ} {p : AssignmentProposal}
    {u : Unit} (h : (checkProposal view planned p).within db clock = .ok u) {k : TeamContract}
    (hk : view.contract = some k) : ProposalPasses db view k p := by
  unfold checkProposal at h
  rw [hk] at h
  obtain ⟨_, -, h⟩ := bind_passes.mp h
  obtain ⟨_, hcontract, -⟩ := bind_passes.mp h
  unfold checkContractProposal at hcontract
  simp only [bind_passes, liftE_passes, require_passes, projection_passes, exists_eq_left'] at hcontract
  obtain ⟨persisted, hpersisted, -, hopen, -, hidle, -, hdepends, attempts, hattempts, -, hattempt, -,
    hfresh, -, -, hmatches⟩ := hcontract
  refine ⟨?_, hopen, hidle, ⟨attempts, hattempts, hattempt⟩, hfresh⟩
  cases hstage : k.stage? p.stageId with
  | none =>
      rw [hstage] at hpersisted
      cases hpersisted
  | some stage =>
      rw [hstage] at hpersisted
      obtain rfl := Except.ok.inj hpersisted
      exact ⟨stage, rfl, hdepends, hmatches.2.2.2.1⟩

/-- What the check of a plan patch has established. -/
structure PlanPasses (db : Database) (c : CommandCandidate) (view : PlanView) : Prop where
  payload : PlanPatch.ofJson (.dict c.payload) = some view.patch
  contract : db.ContractIs c.runId view.contract
  assignments : view.assignments = db.snapshotOf (some c.runId) "assignment"
  completed : view.completed = completedStages view.assignments
  ids : (view.patch.assignments.map AssignmentProposal.assignmentId).Nodup
  once : (view.patch.assignments.map AssignmentProposal.stageId).Nodup
  ready : ∀ k, view.contract = some k → view.patch.completionReady →
    k.stageIds \ view.completed.toFinset = ∅
  proposals : ∀ k, view.contract = some k → ∀ p ∈ view.patch.assignments,
    ProposalPasses db view k p

theorem checkPlanHeader_passes {patch : PlanPatch} {k : Option TeamContract}
    (h : (checkPlanHeader c patch).within db clock = .ok k) : db.ContractIs c.runId k := by
  unfold checkPlanHeader at h
  simp only [bind_passes, liftE_passes, require_passes, readRun_passes, exists_eq_left',
    persistedTeamContract_passes, within_pure, Except.ok.injEq] at h
  obtain ⟨revisions, -, -, -, contract, hcontract, -, -, rfl⟩ := h
  exact hcontract

theorem validatePlanPatch_passes {u : Unit}
    (h : (validatePlanPatch c).within db clock = .ok u) : ∃ view, PlanPasses db c view := by
  unfold validatePlanPatch at h
  simp only [bind_passes, liftE_passes, require_passes, orReject_passes, snapshot_passes,
    exists_eq_left'] at h
  obtain ⟨patch, hpatch, k, hheader, -, -, _, -, -, hids, _, honce, -, -, active, hactive, _,
    hlimits, _, hproposals, -⟩ := h
  have hnodup := (checkStagesOnce_passes honce).1
  refine ⟨{ contract := k, patch := patch, assignments := db.snapshotOf (some c.runId) "assignment",
            completed := completedStages (db.snapshotOf (some c.runId) "assignment"),
            active := active, activeLeases := (db.snapshotOf none "lease").filter
              (fun lease => hasStatus lease ["active"]) },
    hpatch, checkPlanHeader_passes hheader, rfl, rfl, hids, hnodup, ?_, ?_⟩
  · intro contract hcontract hready
    have hteam := withContract_passes.mp hlimits contract hcontract
    unfold checkTeamLimits at hteam
    simp only [bind_passes, require_passes] at hteam
    obtain ⟨_, hmissing, -⟩ := hteam
    exact hmissing hready
  · intro contract hcontract p hp
    obtain ⟨planned, hpasses⟩ := checkProposals_passes hproposals p hp
    exact checkProposal_passes hpasses hcontract

/-! ### The candidate -/

/-- What `_validate` has established. -/
structure Passes (db : Database) (clock : DateTime) (c : CommandCandidate) (k : Option TeamContract) :
    Prop where
  fields : missingFields c = []
  schema : payloadSchema c = some ()
  contract : db.ContractIs c.runId k
  authorized : c.actorId ∈ authorizedActors c.kind ∨ dynamicallyAuthorized c (db.assignmentOf c)
  kind : (validateKind c (db.assignmentOf c) k).within db clock = .ok ()

theorem validateCandidate_passes (h : (validateCandidate c).within db clock = .ok ()) :
    ∃ k, Passes db clock c k := by
  unfold validateCandidate at h
  simp only [bind_passes, require_passes, orReject_passes, candidateAssignment_passes,
    persistedTeamContract_passes, exists_eq_left'] at h
  obtain ⟨-, hfields, _, hschema, k, hcontract, -, hauthorized, hkind⟩ := h
  exact ⟨k, hfields, hschema, hcontract, hauthorized, hkind⟩

end CrazyHarness
