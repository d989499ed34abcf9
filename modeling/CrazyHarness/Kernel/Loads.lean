import CrazyHarness.Kernel.Completion

/-! # Leases under a plan

How many leases of a run are active, and how many an agent holds over all runs, is counted in the rows
of the leases.  A patch is checked against both numbers (`PlanLimits`), and it is the only command
that begins a lease: any other one can only end some (`LeasesFrom`).  So a number that grows with a
patch stays within what the patch was checked against. -/

namespace CrazyHarness

open Lib

/-! ### The numbers -/

/-- The active leases, of a run or of all runs. -/
def Database.activeLeasesOf (db : Database) (runId : Option String) : List Dict :=
  (db.snapshotOf runId "lease").filter (fun lease => hasStatus lease ["active"])

/-- The agent holds the lease. -/
def heldBy (agentId : String) (lease : Dict) : Bool :=
  (lease.get? "agent_id").bind Json.asStr = some agentId

/-- The lease is of the run. -/
def ofRun (runId : String) (lease : Dict) : Bool := lease.get? "run_id" = some (.str runId)

/-- The active leases of an agent, over all runs. -/
def Database.loadOf (db : Database) (agentId : String) : ℕ :=
  (db.activeLeasesOf none).countP (heldBy agentId)

/-- The assignments with an active lease that meets a condition. -/
def Database.leaseIds (db : Database) (P : Dict → Bool) : List String :=
  (db.projections.rows.filter (fun r => r.kind = "lease" ∧ hasStatus r.state ["active"] ∧
    P r.state)).map ProjectionRow.entityId

section counting

variable {db db' : Database} {P : Dict → Bool} {id runId agentId : String}

theorem mem_leaseIds : id ∈ db.leaseIds P ↔
    ∃ row, db.loadProjection "lease" id = some row ∧ hasStatus row ["active"] ∧ P row := by
  unfold Database.leaseIds Database.loadProjection
  constructor
  · intro h
    obtain ⟨r, hr, rfl⟩ := List.mem_map.mp h
    obtain ⟨hmem, hcond⟩ := List.mem_filter.mp hr
    obtain ⟨hkind, hactive, hP⟩ := of_decide_eq_true hcond
    have hkey : r.key = ("lease", r.entityId) := by
      rw [ProjectionRow.key, hkind]
    refine ⟨r.state, ?_, hactive, hP⟩
    rw [← hkey, Table.lookup_of_mem hmem]
    rfl
  · rintro ⟨row, hrow, hactive, hP⟩
    obtain ⟨r, hr, rfl⟩ := Option.map_eq_some_iff.mp hrow
    obtain ⟨hmem, hkey⟩ := Table.lookup_eq_some_iff.mp hr
    obtain ⟨hkind, hid⟩ := Prod.mk.inj hkey
    exact List.mem_map.mpr ⟨r, List.mem_filter.mpr ⟨hmem, decide_eq_true ⟨hkind, hactive, hP⟩⟩, hid⟩

theorem nodup_leaseIds : (db.leaseIds P).Nodup := by
  unfold Database.leaseIds
  refine List.Nodup.map_on ?_ (List.Nodup.of_map _ db.projections.nodup |>.filter _)
  intro r hr s hs hid
  obtain ⟨hrmem, hrcond⟩ := List.mem_filter.mp hr
  obtain ⟨hsmem, hscond⟩ := List.mem_filter.mp hs
  refine db.projections.eq_of_key_eq hrmem hsmem ?_
  rw [ProjectionRow.key, ProjectionRow.key, hid, (of_decide_eq_true hrcond).1,
    (of_decide_eq_true hscond).1]

/-- The rows of the leases, counted in the order in which `snapshot` lists them. -/
theorem countP_leases (P : Dict → Bool) :
    ((db.snapshotOf none "lease").filter (fun lease => hasStatus lease ["active"])).countP P =
      (db.leaseIds P).length := by
  unfold Database.snapshotOf Database.leaseIds
  rw [List.filter_true, List.countP_filter, List.countP_map, (List.perm_insertionSort _ _).countP_eq,
    List.countP_filter, List.length_map, ← List.countP_eq_length_filter]
  refine List.countP_congr ?_
  intro r _
  simp only [Function.comp_apply, Bool.and_eq_true, decide_eq_true_eq]
  tauto

theorem loadOf_eq : db.loadOf agentId = (db.leaseIds (heldBy agentId)).length :=
  countP_leases _

theorem length_activeLeasesOf :
    (db.activeLeasesOf (some runId)).length = (db.leaseIds (ofRun runId)).length := by
  rw [← countP_leases]
  unfold Database.activeLeasesOf Database.snapshotOf
  rw [List.filter_true, List.countP_eq_length_filter, List.filter_filter, List.filter_filter]
  congr 1
  refine List.filter_congr ?_
  intro row _
  rw [Bool.and_comm]
  simp [ofRun]

theorem mem_activeLeasesOf {row : Dict} (hrow : db.loadProjection "lease" id = some row)
    (hactive : hasStatus row ["active"]) (hrun : row.get? "run_id" = some (.str runId)) :
    row ∈ db.activeLeasesOf (some runId) :=
  List.mem_filter.mpr ⟨mem_snapshotOf hrow hrun, hactive⟩

end counting

/-! ### What a patch was checked against -/

/-- The places that a patch was given, and the number it has. -/
structure PlanLimits (db : Database) (c : CommandCandidate) (patch : PlanPatch) : Prop where
  revision : ∃ revisions, planRevisions (db.readRun c.runId) = .ok revisions ∧
    patch.revision = following revisions
  idle : ∀ k, db.ContractIs c.runId (some k) → ∀ p ∈ patch.assignments,
    ∀ lease ∈ db.activeLeasesOf (some c.runId), truthyText (lease.get? "stage_id") ≠ some p.stageId
  team : ∀ k, db.ContractIs c.runId (some k) →
    ((db.activeLeasesOf (some c.runId)).length : ℤ) + patch.assignments.length ≤
      k.maxParallelAssignments
  loads : ∀ p ∈ patch.assignments, ∃ agent n, db.loadProjection "agent" p.agentId = some agent ∧
    intOf (agent.getD "max_concurrency" (.int 1)) = .ok n ∧
    (db.loadOf p.agentId : ℤ) + patch.assignments.countP (fun q => q.agentId = p.agentId) ≤ n

section checks

open Check

variable {db : Database} {clock : DateTime} {c : CommandCandidate} {view : PlanView}

theorem checkAgentProposal_passes {planned : String → ℕ} {p : AssignmentProposal} {u : Unit}
    (h : (checkAgentProposal view planned p).within db clock = .ok u) :
    ∃ agent n, db.loadProjection "agent" p.agentId = some agent ∧
      intOf (agent.getD "max_concurrency" (.int 1)) = .ok n ∧
      (view.activeLeases.countP (heldBy p.agentId) : ℤ) + (planned p.agentId + 1) ≤ n := by
  unfold checkAgentProposal at h
  simp only [bind_passes, projection_passes, orReject_passes, require_passes, liftE_passes,
    exists_eq_left'] at h
  obtain ⟨agent, hagent, -, -, capabilities, -, -, -, n, hn, hroom⟩ := h
  exact ⟨agent, n, hagent, hn, hroom⟩

/-- Every proposal is checked with those before it, so the last one of an agent bounds them all. -/
theorem checkProposals_loads {proposals : List AssignmentProposal} {u : Unit} :
    ∀ {planned : String → ℕ}, (checkProposals view planned proposals).within db clock = .ok u →
    ∀ p ∈ proposals, ∃ agent n, db.loadProjection "agent" p.agentId = some agent ∧
      intOf (agent.getD "max_concurrency" (.int 1)) = .ok n ∧
      (view.activeLeases.countP (heldBy p.agentId) : ℤ) +
        (planned p.agentId + proposals.countP (fun q => q.agentId = p.agentId) : ℕ) ≤ n := by
  induction proposals with
  | nil => exact fun _ p hp => absurd hp List.not_mem_nil
  | cons q proposals ih =>
      intro planned h p hp
      rw [checkProposals, bind_passes] at h
      obtain ⟨_, hq, hrest⟩ := h
      by_cases hlater : ∃ p' ∈ proposals, p'.agentId = p.agentId
      · obtain ⟨p', hp', heq⟩ := hlater
        obtain ⟨agent, n, hagent, hn, hroom⟩ := ih hrest p' hp'
        rw [heq] at hagent hroom
        refine ⟨agent, n, hagent, hn, ?_⟩
        rw [List.countP_cons]
        by_cases hsame : q.agentId = p.agentId
        · rw [hsame, Function.update_self] at hroom
          simp only [hsame, decide_true, if_true] at hroom ⊢
          omega
        · rw [Function.update_of_ne (fun h => hsame h.symm)] at hroom
          simpa [hsame] using hroom
      · have hpq : p = q := by
          cases List.mem_cons.mp hp with
          | inl heq => exact heq
          | inr hmem => exact absurd ⟨p, hmem, rfl⟩ hlater
        subst hpq
        have hnone : proposals.countP (fun q => q.agentId = p.agentId) = 0 := by
          refine List.countP_eq_zero.mpr ?_
          intro p' hp' heq
          exact hlater ⟨p', hp', of_decide_eq_true heq⟩
        have hlast : ∃ u, (checkAgentProposal view planned p).within db clock = .ok u := by
          unfold checkProposal at hq
          obtain ⟨_, -, hq⟩ := bind_passes.mp hq
          dsimp only at hq
          split at hq
          · obtain ⟨_, -, hq⟩ := bind_passes.mp hq
            exact ⟨_, hq⟩
          · exact ⟨_, hq⟩
        obtain ⟨_, hlast⟩ := hlast
        obtain ⟨agent, n, hagent, hn, hroom⟩ := checkAgentProposal_passes hlast
        refine ⟨agent, n, hagent, hn, ?_⟩
        rw [List.countP_cons, hnone]
        simp only [decide_true, if_true]
        push_cast
        omega

/-- A stage that a lease names is among the active ones. -/
theorem mem_activeStages {leases : List Dict} {active : List String}
    (h : activeStages leases = .ok active) {lease : Dict} (hlease : lease ∈ leases) {stageId : String}
    (hstage : truthyText (lease.get? "stage_id") = some stageId) : stageId ∈ active := by
  unfold activeStages at h
  have hentry : (stageId, lease) ∈ leases.filterMap (fun lease =>
      (truthyText (lease.get? "stage_id")).map (fun stageId => (stageId, lease))) :=
    List.mem_filterMap.mpr ⟨lease, hlease, by rw [hstage]; rfl⟩
  generalize leases.filterMap (fun lease =>
    (truthyText (lease.get? "stage_id")).map (fun stageId => (stageId, lease))) = entries at h hentry
  induction entries generalizing active with
  | nil => cases hentry
  | cons entry entries ih =>
      rw [List.mapM_cons] at h
      obtain ⟨s, hs, h⟩ := bind_ok_iff.mp h
      obtain ⟨rest, hrest, h⟩ := bind_ok_iff.mp h
      obtain ⟨_, -, hs⟩ := bind_ok_iff.mp hs
      obtain rfl := Except.ok.inj hs
      obtain rfl := Except.ok.inj h
      cases List.mem_cons.mp hentry with
      | inl heq =>
          rw [← heq]
          exact List.mem_cons_self
      | inr hmem => exact List.mem_cons_of_mem _ (ih hrest hmem)

theorem checkPlanHeader_revision {patch : PlanPatch} {k : Option TeamContract}
    (h : (checkPlanHeader c patch).within db clock = .ok k) :
    ∃ revisions, planRevisions (db.readRun c.runId) = .ok revisions ∧
      patch.revision = following revisions := by
  unfold checkPlanHeader at h
  simp only [bind_passes, liftE_passes, require_passes, readRun_passes, exists_eq_left'] at h
  obtain ⟨revisions, hrevisions, -, hnumber, -⟩ := h
  exact ⟨revisions, hrevisions, hnumber⟩

theorem validatePlanPatch_limits {u : Unit} {patch : PlanPatch}
    (h : (validatePlanPatch c).within db clock = .ok u)
    (hpatch : PlanPatch.ofJson (.dict c.payload) = some patch) : PlanLimits db c patch := by
  unfold validatePlanPatch at h
  simp only [bind_passes, liftE_passes, require_passes, orReject_passes, snapshot_passes,
    exists_eq_left', hpatch, Option.some.injEq] at h
  obtain ⟨k, hheader, -, -, _, -, -, -, _, -, -, -, active, hactive, _, hlimits, _, hproposals, -⟩ := h
  have hcontract := checkPlanHeader_passes hheader
  refine ⟨checkPlanHeader_revision hheader, ?_, ?_, ?_⟩
  · intro contract hk p hp lease hlease hstage
    obtain rfl := hcontract.unique hk
    obtain ⟨planned, hpasses⟩ := checkProposals_passes hproposals p hp
    exact (checkProposal_passes hpasses rfl).idle (mem_activeStages hactive hlease hstage)
  · intro contract hk
    obtain rfl := hcontract.unique hk
    have hteam := withContract_passes.mp hlimits contract rfl
    unfold checkTeamLimits at hteam
    simp only [bind_passes, require_passes] at hteam
    obtain ⟨_, -, hroom⟩ := hteam
    exact hroom
  · intro p hp
    obtain ⟨agent, n, hagent, hn, hroom⟩ := checkProposals_loads hproposals p hp
    refine ⟨agent, n, hagent, hn, ?_⟩
    rw [Nat.zero_add] at hroom
    exact hroom

end checks

/-! ### What events make of a lease -/

/-- The run, the stage and the agent of a lease. -/
structure LeaseIs (row : Dict) (runId stageId agentId : String) : Prop where
  run : row.get? "run_id" = some (.str runId)
  stage : row.get? "stage_id" = some (.str stageId)
  agent : row.get? "agent_id" = some (.str agentId)

/-- The status of a lease that has begun and not ended. -/
def LeaseActive (row : Dict) : Prop := row.get? "status" = some (.str "active")

/-- The event begins or renews a lease, and names its stage and its agent. -/
structure Grants (e : Event) (stageId agentId : String) : Prop where
  type : e.type ∈ ["assignment.lease.acquired", "assignment.lease.renewed"]
  run : e.get? "run_id" = none
  stage : e.get? "stage_id" = some (.str stageId)
  agent : e.get? "agent_id" = some (.str agentId)

/-- The event ends a lease. -/
def EndsLease (e : Event) : Prop :=
  e.type ∈ ["assignment.lease.released", "assignment.lease.expired"]

theorem LeaseActive.hasStatus {row : Dict} (h : LeaseActive row) : hasStatus row ["active"] := by
  rw [CrazyHarness.hasStatus, h]
  rfl

theorem not_active_of_terminal {row : Dict} (h : leaseTerminal (row.get? "status")) :
    ¬ hasStatus row ["active"] := by
  unfold leaseTerminal at h
  simp only [List.mem_cons, List.not_mem_nil, or_false, decide_eq_true_eq] at h
  rcases h with h | h <;> rw [hasStatus, h] <;> decide

namespace Database

variable {e : Event} {es : List Event} {id runId stageId agentId : String} {old : Option Dict}

theorem nextLease_of_open {status : String}
    (hopen : ¬ leaseTerminal ((old.getD (initialLease e id)).get? "status"))
    (hstatus : leaseStatusByType.lookup e.type = some status) :
    ∃ row, nextLease e id old = some row ∧ row.get? "status" = some (.str status) := by
  unfold nextLease
  unfold initialLease at hopen
  dsimp only
  rw [if_neg hopen]
  refine ⟨_, rfl, ?_⟩
  rw [Dict.get?_set_ne _ _ (by decide), hstatus]
  split
  next stamp hstamp =>
    have hne : "status" ≠ stamp := by
      rintro rfl
      obtain ⟨before, after, hlist, -⟩ := List.lookup_eq_some_iff.mp hstamp
      have hin : (e.type, "status") ∈ leaseStampByType := by
        rw [hlist]
        exact List.mem_append_right _ List.mem_cons_self
      simp [leaseStampByType] at hin
    rw [Dict.get?_setDefault, if_neg hne]
    simp
  next => simp

theorem initialLease_open : ¬ leaseTerminal ((initialLease e id).get? "status") := by
  simp [initialLease, leaseTerminal, Dict.get?_cons]

/-- A beginning or renewal of a lease that has not ended. -/
theorem leaseAfter_grants (h : Grants e stageId agentId) (hid : e.leaseOf = some id)
    (hold : ∀ row, old = some row → LeaseActive row ∧ LeaseIs row runId stageId agentId)
    (hnew : old = none → e.runId = runId) :
    ∃ row, leaseAfter e id old = some row ∧ LeaseActive row ∧ LeaseIs row runId stageId agentId := by
  have hlookup : leaseStatusByType.lookup e.type = some "active" := by
    have htype := h.type
    simp only [List.mem_cons, List.not_mem_nil, or_false] at htype
    rcases htype with htype | htype <;> rw [htype] <;> rfl
  have hopen : ¬ leaseTerminal ((old.getD (initialLease e id)).get? "status") := by
    cases old with
    | none => exact initialLease_open
    | some row =>
        have hactive : row.get? "status" = some (.str "active") := (hold row rfl).1
        rw [Option.getD_some, hactive]
        decide
  obtain ⟨row, hnext, hactive⟩ := nextLease_of_open hopen hlookup
  have hfields := fun key hkey => @get?_nextLease e id old row key hnext hkey
  refine ⟨row, ?_, hactive, ?_, ?_, ?_⟩
  · unfold leaseAfter
    unfold Event.leaseOf at hid
    split at hid
    next hfamily => rw [if_pos ⟨hfamily, hid⟩, hnext, Option.some_or]
    next => cases hid
  · rw [hfields "run_id" (by decide), h.run, Option.none_or]
    cases old with
    | none => rw [← hnew rfl]; rfl
    | some row => exact (hold row rfl).2.run
  · rw [hfields "stage_id" (by decide), h.stage, Option.some_or]
  · rw [hfields "agent_id" (by decide), h.agent, Option.some_or]

theorem leaseAfter_ends (h : EndsLease e) (hid : e.leaseOf = some id) :
    ∃ row, leaseAfter e id old = some row ∧ leaseTerminal (row.get? "status") := by
  by_cases hterminal : leaseTerminal (old.bind (Dict.get? · "status"))
  · rw [leaseAfter_of_terminal hterminal]
    cases old with
    | none => simp [leaseTerminal] at hterminal
    | some row => exact ⟨row, rfl, hterminal⟩
  · have hopen : ¬ leaseTerminal ((old.getD (initialLease e id)).get? "status") := by
      cases old with
      | none => exact initialLease_open
      | some row => exact hterminal
    have hnext : ∃ row, nextLease e id old = some row ∧ leaseTerminal (row.get? "status") := by
      simp only [EndsLease, List.mem_cons, List.not_mem_nil, or_false] at h
      rcases h with htype | htype
      · obtain ⟨row, hrow, hstatus⟩ := nextLease_of_open hopen
          (show leaseStatusByType.lookup e.type = some "released" by rw [htype]; rfl)
        exact ⟨row, hrow, by rw [hstatus]; decide⟩
      · obtain ⟨row, hrow, hstatus⟩ := nextLease_of_open hopen
          (show leaseStatusByType.lookup e.type = some "expired" by rw [htype]; rfl)
        exact ⟨row, hrow, by rw [hstatus]; decide⟩
    obtain ⟨row, hrow, hstatus⟩ := hnext
    refine ⟨row, ?_, hstatus⟩
    unfold leaseAfter
    unfold Event.leaseOf at hid
    split at hid
    next hfamily => rw [if_pos ⟨hfamily, hid⟩, hrow, Option.some_or]
    next => cases hid

theorem leaseFold_of_terminal (h : leaseTerminal (old.bind (Dict.get? · "status"))) :
    es.foldl (fun row e => leaseAfter e id row) old = old := by
  induction es with
  | nil => rfl
  | cons e es ih => rw [List.foldl_cons, leaseAfter_of_terminal h, ih]

/-- Events that can only end the lease. -/
theorem leaseFold_ends (h : ∀ e ∈ es, e.leaseOf = some id → EndsLease e) :
    es.foldl (fun row e => leaseAfter e id row) old = old ∨
      ∃ row, es.foldl (fun row e => leaseAfter e id row) old = some row ∧
        leaseTerminal (row.get? "status") := by
  induction es with
  | nil => exact .inl rfl
  | cons e es ih =>
      rw [List.foldl_cons]
      by_cases hid : e.leaseOf = some id
      · obtain ⟨row, hrow, hterminal⟩ :=
          @leaseAfter_ends e id old (h e List.mem_cons_self hid) hid
        refine .inr ⟨row, ?_, hterminal⟩
        rw [hrow]
        exact leaseFold_of_terminal hterminal
      · rw [leaseAfter_of_ne hid]
        exact ih (fun f hf => h f (List.mem_cons_of_mem e hf))

/-- Events that can only begin the lease, and renew it. -/
theorem leaseFold_grants
    (h : ∀ e ∈ es, e.leaseOf = some id → Grants e stageId agentId ∧ e.runId = runId)
    (hold : ∀ row, old = some row → LeaseActive row ∧ LeaseIs row runId stageId agentId) :
    ∀ row, es.foldl (fun row e => leaseAfter e id row) old = some row →
      LeaseActive row ∧ LeaseIs row runId stageId agentId := by
  induction es generalizing old with
  | nil => exact hold
  | cons e es ih =>
      rw [List.foldl_cons]
      refine ih (fun f hf => h f (List.mem_cons_of_mem e hf)) ?_
      intro row hrow
      by_cases hid : e.leaseOf = some id
      · obtain ⟨hgrants, hrun⟩ := h e List.mem_cons_self hid
        obtain ⟨row', hrow', hactive, his⟩ := leaseAfter_grants hgrants hid hold (fun _ => hrun)
        rw [hrow'] at hrow
        obtain rfl := Option.some.inj hrow
        exact ⟨hactive, his⟩
      · rw [leaseAfter_of_ne hid] at hrow
        exact hold row hrow

end Database

/-! ### Where the leases come from -/

/-- The fields of a lease that count. -/
def leaseFields : List String := ["status", "run_id", "stage_id", "agent_id"]

/-- Every lease has ended, or is one from before, or was begun for a proposal. -/
def LeasesFrom (runId : String) (ps : List AssignmentProposal) (db db' : Database) : Prop :=
  ∀ id row', db'.loadProjection "lease" id = some row' →
    leaseTerminal (row'.get? "status") ∨
      (∃ row, db.loadProjection "lease" id = some row ∧
        ∀ key ∈ leaseFields, row'.get? key = row.get? key) ∨
      ∃ p ∈ ps, p.assignmentId = id ∧ db.loadProjection "lease" id = none ∧ LeaseActive row' ∧
        LeaseIs row' runId p.stageId p.agentId

/-- The condition looks at the run, the stage and the agent only. -/
def OfLeaseFields (P : Dict → Bool) : Prop :=
  ∀ row row' : Dict, (∀ key ∈ leaseFields, row'.get? key = row.get? key) → P row' = P row

theorem ofLeaseFields_ofRun (runId : String) : OfLeaseFields (ofRun runId) := by
  intro row row' h
  rw [ofRun, ofRun, h "run_id" (by decide)]

theorem ofLeaseFields_heldBy (agentId : String) : OfLeaseFields (heldBy agentId) := by
  intro row row' h
  rw [heldBy, heldBy, h "agent_id" (by decide)]

section from_

variable {db db' : Database} {runId agentId : String} {ps : List AssignmentProposal}
  {P : Dict → Bool} {Q : AssignmentProposal → Bool}

/-- A number of leases grows at most by the proposals that count. -/
theorem LeasesFrom.length_le (h : LeasesFrom runId ps db db') (hP : OfLeaseFields P)
    (hQ : ∀ p ∈ ps, ∀ row, LeaseIs row runId p.stageId p.agentId → P row → Q p) :
    (db'.leaseIds P).length ≤ (db.leaseIds P).length + ps.countP Q := by
  have hsub : db'.leaseIds P ⊆ db.leaseIds P ++ (ps.filter Q).map AssignmentProposal.assignmentId := by
    intro id hid
    obtain ⟨row', hrow', hactive, hcounts⟩ := mem_leaseIds.mp hid
    rcases h id row' hrow' with hterminal | ⟨row, hrow, hsame⟩ | ⟨p, hp, rfl, -, -, his⟩
    · exact absurd hactive (not_active_of_terminal hterminal)
    · refine List.mem_append_left _ (mem_leaseIds.mpr ⟨row, hrow, ?_, ?_⟩)
      · rw [hasStatus, hsame "status" (by decide)] at hactive
        exact hactive
      · rw [← hP row row' hsame]
        exact hcounts
    · exact List.mem_append_right _ (List.mem_map_of_mem
        (List.mem_filter.mpr ⟨hp, hQ p hp row' his hcounts⟩))
  have hle := (nodup_leaseIds.subperm hsub).length_le
  rwa [List.length_append, List.length_map, ← List.countP_eq_length_filter] at hle

theorem LeasesFrom.team_le (h : LeasesFrom runId ps db db') :
    (db'.activeLeasesOf (some runId)).length ≤
      (db.activeLeasesOf (some runId)).length + ps.length := by
  rw [length_activeLeasesOf, length_activeLeasesOf]
  refine (h.length_le (Q := fun _ => true) (ofLeaseFields_ofRun runId) (fun _ _ _ _ _ => rfl)).trans ?_
  rw [List.countP_true]

/-- The leases of another run do not grow. -/
theorem LeasesFrom.other_team_le (h : LeasesFrom runId ps db db') {other : String}
    (hother : other ≠ runId) :
    (db'.activeLeasesOf (some other)).length ≤ (db.activeLeasesOf (some other)).length := by
  rw [length_activeLeasesOf, length_activeLeasesOf]
  refine (h.length_le (Q := fun _ => false) (ofLeaseFields_ofRun other) ?_).trans ?_
  · intro p _ row his hrun
    have heq : row.get? "run_id" = some (.str other) := of_decide_eq_true hrun
    rw [his.run] at heq
    exact absurd (Json.str.inj (Option.some.inj heq)).symm hother
  · rw [List.countP_false]
    exact le_rfl

theorem LeasesFrom.load_le (h : LeasesFrom runId ps db db') (agentId : String) :
    db'.loadOf agentId ≤ db.loadOf agentId + ps.countP (fun p => p.agentId = agentId) := by
  rw [loadOf_eq, loadOf_eq]
  refine h.length_le (ofLeaseFields_heldBy agentId) ?_
  intro p _ row his hheld
  have heq : (row.get? "agent_id").bind Json.asStr = some agentId := of_decide_eq_true hheld
  rw [his.agent] at heq
  exact decide_eq_true (Option.some.inj heq)

/-- Events that begin no lease. -/
theorem leasesFrom_of_ends {es : List Event} (hw : db.Wrote es db')
    (h : ∀ e ∈ es, ∀ id, e.leaseOf = some id → EndsLease e) : LeasesFrom runId [] db db' := by
  intro id row' hrow'
  rw [hw.lease] at hrow'
  rcases @Database.leaseFold_ends es id (db.loadProjection "lease" id)
    (fun e he hid => h e he id hid) with hsame | ⟨row, hrow, hterminal⟩
  · rw [hsame] at hrow'
    exact .inr (.inl ⟨row', hrow', fun _ _ => rfl⟩)
  · rw [hrow] at hrow'
    obtain rfl := Option.some.inj hrow'
    exact .inl hterminal

end from_

/-! ### Acceptances -/

/-- What a command proposes. -/
def proposalsOf (c : CommandCandidate) : List AssignmentProposal :=
  match c.kind, PlanPatch.ofJson (.dict c.payload) with
  | .planPatch, some patch => patch.assignments
  | _, _ => []

section acceptance

variable {c : CommandCandidate} {db db' : Database} {es : List Event}

theorem proposalsOf_patch {patch : PlanPatch} (hkind : c.kind = .planPatch)
    (hpatch : PlanPatch.ofJson (.dict c.payload) = some patch) : proposalsOf c = patch.assignments := by
  rw [proposalsOf, hkind, hpatch]

theorem proposalsOf_of_ne (hkind : c.kind ≠ .planPatch) : proposalsOf c = [] := by
  unfold proposalsOf
  split
  next hpatch _ => exact absurd hpatch hkind
  next => rfl

/-- The draft that begins the lease of a proposal. -/
theorem grants_proposal {patch : PlanPatch} {acceptedAt createdAt : DateTime} {p : AssignmentProposal}
    {d : Draft} {causationId id : String} (hd : d ∈ proposalDrafts patch acceptedAt p)
    (h : (d.event c causationId createdAt).leaseOf = some id) :
    Grants (d.event c causationId createdAt) p.stageId p.agentId := by
  simp only [proposalDrafts, List.mem_cons, List.not_mem_nil, or_false] at hd
  rcases hd with rfl | rfl | rfl
  · rw [Event.leaseOf_of_other
      (show startsWith "assignment.lease." "assignment.created" = false by decide)] at h
    cases h
  · refine ⟨List.mem_cons_self, ?_, ?_, ?_⟩ <;>
      simp [Draft.event, kernelEvent, Event.get?, Dict.get?_cons]
  · rw [Event.leaseOf_of_other
      (show startsWith "assignment.lease." "assignment.running" = false by decide)] at h
    cases h

/-- A command of another kind only ends leases. -/
theorem ends_of_fact (kind : CommandKind) (hkind : kind ≠ .planPatch) :
    ∀ type ∈ "candidate.accepted" :: factTypes kind, startsWith "assignment.lease." type = true →
      type = "assignment.lease.released" := by
  cases kind <;> first | exact absurd rfl hkind | decide

/-- What an acceptance of a patch begins. -/
theorem Accepted.grants (h : Accepted c db es db') (hkind : c.kind = .planPatch) {patch : PlanPatch}
    (hpatch : PlanPatch.ofJson (.dict c.payload) = some patch) {e : Event} (he : e ∈ es) {id : String}
    (hid : e.leaseOf = some id) :
    ∃ p ∈ patch.assignments, p.assignmentId = id ∧ Grants e p.stageId p.agentId ∧
      e.runId = c.runId := by
  obtain ⟨acceptedAt, ds, hds, hmem⟩ := h.mem
  have hother : ∀ f : Event, f.type ∈ ["candidate.accepted", "orchestration.plan.patched",
      "orchestration.blocked"] → f.leaseOf ≠ some id := by
    have hall : ∀ type ∈ ["candidate.accepted", "orchestration.plan.patched", "orchestration.blocked"],
        startsWith "assignment.lease." type = false := by
      decide
    intro f hf
    rw [Event.leaseOf_of_other (hall f.type hf)]
    simp
  rw [drafts, hkind] at hds
  dsimp only at hds
  rw [hpatch] at hds
  obtain rfl := ReadM.yields_pure.mp hds
  rcases hmem e he with rfl | ⟨d, hd, createdAt, rfl⟩
  · exact absurd hid (hother _ (by simp [acceptedEvent, kernelEvent]))
  · rcases mem_planDrafts hd with htype | htype | ⟨p, hp, hdp⟩
    · exact absurd hid (hother _ (by simp [Draft.event, kernelEvent, htype]))
    · exact absurd hid (hother _ (by simp [Draft.event, kernelEvent, htype]))
    · exact ⟨p, hp, (leaseOf_proposal hdp hid).1, grants_proposal hdp hid, rfl⟩

/-- **The leases after an acceptance**: those it begins are for what it proposes. -/
theorem Accepted.leasesFrom (h : Accepted c db es db')
    (hids : ((proposalsOf c).map AssignmentProposal.assignmentId).Nodup)
    (hfresh : ∀ p ∈ proposalsOf c, ∀ row, db.loadProjection "lease" p.assignmentId = some row →
      leaseTerminal (row.get? "status")) : LeasesFrom c.runId (proposalsOf c) db db' := by
  by_cases hkind : c.kind = .planPatch
  · obtain ⟨clock, hvalid⟩ := h.valid
    obtain ⟨team, hpasses⟩ := validateCandidate_passes hvalid
    have hchecks := hpasses.kind
    rw [validateKind, hkind] at hchecks
    obtain ⟨view, hview⟩ := validatePlanPatch_passes hchecks
    have hpatch := hview.payload
    rw [proposalsOf_patch hkind hpatch] at hids hfresh ⊢
    intro id row' hrow'
    rw [h.wrote.lease] at hrow'
    by_cases hnames : ∃ e ∈ es, e.leaseOf = some id
    · obtain ⟨e, he, hid⟩ := hnames
      obtain ⟨p, hp, rfl, -, -⟩ := h.grants hkind hpatch he hid
      have hall : ∀ f ∈ es, f.leaseOf = some p.assignmentId →
          Grants f p.stageId p.agentId ∧ f.runId = c.runId := by
        intro f hf hfid
        obtain ⟨q, hq, hqid, hgrants, hrun⟩ := h.grants hkind hpatch hf hfid
        obtain rfl := List.inj_on_of_nodup_map hids hq hp hqid
        exact ⟨hgrants, hrun⟩
      cases hrow : db.loadProjection "lease" p.assignmentId with
      | none =>
          rw [hrow] at hrow'
          obtain ⟨hactive, his⟩ :=
            Database.leaseFold_grants hall (fun _ hnone => absurd hnone (by simp)) row' hrow'
          exact .inr (.inr ⟨p, hp, rfl, rfl, hactive, his⟩)
      | some row =>
          have hterminal := hfresh p hp row hrow
          rw [hrow] at hrow'
          have hkept := @Database.leaseFold_of_terminal es p.assignmentId (some row) hterminal
          rw [hkept] at hrow'
          obtain rfl := Option.some.inj hrow'
          exact .inl hterminal
    · have hnone : ∀ e ∈ es, e.leaseOf = some id → EndsLease e :=
        fun e he hid => absurd ⟨e, he, hid⟩ hnames
      rcases @Database.leaseFold_ends es id (db.loadProjection "lease" id) hnone with
        hsame | ⟨row, hrow, hterminal⟩
      · rw [hsame] at hrow'
        exact .inr (.inl ⟨row', hrow', fun _ _ => rfl⟩)
      · rw [hrow] at hrow'
        obtain rfl := Option.some.inj hrow'
        exact .inl hterminal
  · rw [proposalsOf_of_ne hkind]
    refine leasesFrom_of_ends h.wrote ?_
    intro e he id hid
    have hfamily : startsWith "assignment.lease." e.type = true := by
      unfold Event.leaseOf at hid
      split at hid
      next hfamily => exact hfamily
      next => cases hid
    rw [EndsLease, ends_of_fact c.kind hkind e.type (h.fact e he).2 hfamily]
    decide

end acceptance

end CrazyHarness
