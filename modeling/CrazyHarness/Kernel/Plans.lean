import CrazyHarness.Kernel.Loads

/-! # The plans of a team

What the accepted patches of the runs with a contract leave in the store, among lease events and
whatever else is appended: the revisions of a plan and the attempts of a stage count up from one, no
two assignments share an identifier, a stage has one active lease at most, and the active leases of a
run stay within its contract (`Planned`).  A patch keeps all of it together, for all that it proposes
at once (`Planned.wrote`), since it is checked in the state in which it is committed.

`plan_invariants` is the invariant over runs.  It also says where a plan comes from: an agent has no
more active leases than it could take when it was last given one, and every assignment was created
when the stages it depends on were completed and its own was not. -/

namespace CrazyHarness

open Lib

/-! ### Counting up -/

/-- The values are 1, 2, 3 and so on. -/
def CountsUp (values : List (Option Json)) : Prop :=
  values = (List.range values.length).map (fun i : ℕ => some (.int (i + 1)))

instance : DecidablePred CountsUp := fun values =>
  inferInstanceAs (Decidable (values = _))

theorem countsUp_nil : CountsUp [] := rfl

theorem CountsUp.append {values : List (Option Json)} (h : CountsUp values) :
    CountsUp (values ++ [some (.int (values.length + 1))]) := by
  rw [CountsUp, List.length_append, List.length_singleton, List.range_succ, List.map_append,
    List.map_singleton, ← h]

theorem CountsUp.mem_iff {values : List (Option Json)} (h : CountsUp values) {n : ℤ} :
    some (Json.int n) ∈ values ↔ 1 ≤ n ∧ n ≤ values.length := by
  rw [h, List.length_map, List.length_range]
  constructor
  · intro hmem
    obtain ⟨i, hi, heq⟩ := List.mem_map.mp hmem
    have hn : (i : ℤ) + 1 = n := Json.int.inj (Option.some.inj heq)
    have hlt := List.mem_range.mp hi
    omega
  · rintro ⟨hpos, hle⟩
    refine List.mem_map.mpr ⟨(n - 1).toNat, List.mem_range.mpr (by omega), ?_⟩
    have hn : ((n - 1).toNat : ℤ) + 1 = n := by omega
    rw [hn]

/-- What follows the numbers up to `n`, in any order. -/
theorem following_eq {values : List ℤ} {n : ℕ} (h : ∀ v, v ∈ values ↔ 1 ≤ v ∧ v ≤ n) :
    following values = n + 1 := by
  unfold following
  cases hmax : values.max? with
  | none =>
      have hnil := List.max?_eq_none_iff.mp hmax
      have hnot : ¬ (n : ℤ) ∈ values := by
        rw [hnil]
        exact List.not_mem_nil
      rw [h] at hnot
      rw [Option.getD_none]
      omega
  | some m =>
      obtain ⟨hmem, hle⟩ := List.max?_eq_some_iff.mp hmax
      obtain ⟨hpos, hlen⟩ := (h m).mp hmem
      have hlast := hle n ((h n).mpr ⟨by omega, le_rfl⟩)
      rw [Option.getD_some]
      omega

/-! ### The numbers of a plan -/

/-- The revisions of the accepted patches of a run. -/
def planNumbers (db : Database) (runId : String) : List (Option Json) :=
  ((db.readRun runId).filter (fun e => e.type = "orchestration.plan.patched")).map
    (fun e => e.get? "revision")

/-- The attempts of the assignments of a stage. -/
def attemptNumbers (db : Database) (runId stageId : String) : List (Option Json) :=
  ((createdIn db runId).filter (fun e => e.get? "stage_id" = some (.str stageId))).map
    (fun e => e.get? "attempt")

/-- The events that have created assignments, over all runs. -/
def createdAll (db : Database) : List Event :=
  db.events.rows.filter (fun e => e.type = "assignment.created")

section numbers

variable {db : Database} {runId stageId : String}

theorem mem_createdIn {e : Event} : e ∈ createdIn db runId ↔ e ∈ createdAll db ∧ e.runId = runId := by
  unfold createdIn createdAll Database.readRun
  simp only [List.mem_filter, decide_eq_true_eq]
  tauto

/-- The revision that the checks ask for is the next one. -/
theorem following_revisions (h : CountsUp (planNumbers db runId)) {revisions : List ℤ}
    (hrevisions : planRevisions (db.readRun runId) = .ok revisions) :
    following revisions = (planNumbers db runId).length + 1 := by
  refine following_eq ?_
  have hlist : (db.readRun runId).filterMap (fun e =>
      if e.type = "orchestration.plan.patched" then e.get? "revision" else none) =
        (planNumbers db runId).filterMap id := by
    unfold planNumbers
    rw [List.filterMap_map, List.filterMap_filter]
    refine List.filterMap_congr ?_
    intro e _
    simp
  unfold planRevisions at hrevisions
  rw [hlist] at hrevisions
  intro v
  rw [← h.mem_iff]
  constructor
  · intro hv
    obtain ⟨x, hx, hint⟩ := exists_of_mapM_ok hrevisions hv
    obtain ⟨y, hy, rfl⟩ := List.mem_filterMap.mp hx
    rw [h] at hy
    obtain ⟨i, -, heq⟩ := List.mem_map.mp hy
    obtain rfl := Option.some.inj heq
    rw [← Except.ok.inj hint, h]
    exact hy
  · intro hv
    exact mem_of_mapM hrevisions (List.mem_filterMap.mpr ⟨_, hv, rfl⟩) rfl

end numbers

/-! ### The invariant -/

/-- What the store says of the plans of all runs. -/
structure Planned (db : Database) : Prop where
  revisions : ∀ runId, CountsUp (planNumbers db runId)
  attempts : ∀ runId stageId, CountsUp (attemptNumbers db runId stageId)
  ids : ((createdAll db).map Event.assignmentOf).Nodup
  recorded : ∀ runId, ∀ e ∈ createdIn db runId, ∃ id stageId attempt,
    AttemptRecorded db runId e id stageId attempt
  rows : ∀ id row, db.loadProjection "assignment" id = some row → ∃ runId, ∃ e ∈ createdIn db runId,
    row.get? "run_id" = some (.str runId) ∧ row.get? "stage_id" = e.get? "stage_id" ∧
      row.get? "attempt" = e.get? "attempt"
  leases : ∀ id row, db.loadProjection "lease" id = some row → leaseTerminal (row.get? "status") ∨
    LeaseActive row ∧ db.loadProjection "assignment" id ≠ none ∧ ∃ runId stageId agentId,
      LeaseIs row runId stageId agentId ∧ stageId ≠ "" ∧ ∃ k, db.ContractIs runId (some k)
  stages : ∀ id row, db.loadProjection "lease" id = some row → LeaseActive row →
    ∀ id' row', db.loadProjection "lease" id' = some row' → LeaseActive row' →
    ∀ runId stageId agentId agentId', LeaseIs row runId stageId agentId →
      LeaseIs row' runId stageId agentId' → id = id'
  team : ∀ runId k, db.ContractIs runId (some k) →
    ((db.activeLeasesOf (some runId)).length : ℤ) ≤ k.maxParallelAssignments

/-- There is room for the proposals: they are new, each takes the next attempt of a stage of its own
that has no active lease, and the team has a place for every one. -/
structure Admits (db : Database) (runId : String) (ps : List AssignmentProposal) : Prop where
  ids : (ps.map AssignmentProposal.assignmentId).Nodup
  stages : (ps.map AssignmentProposal.stageId).Nodup
  fresh : ∀ p ∈ ps, db.loadProjection "assignment" p.assignmentId = none
  next : ∀ p ∈ ps, p.attempt = (attemptNumbers db runId p.stageId).length + 1
  idle : ∀ p ∈ ps, ∀ id row agentId, db.loadProjection "lease" id = some row → LeaseActive row →
    ¬ LeaseIs row runId p.stageId agentId
  team : ps ≠ [] → ∃ k, db.ContractIs runId (some k) ∧
    ((db.activeLeasesOf (some runId)).length : ℤ) + ps.length ≤ k.maxParallelAssignments

/-- The event creates the assignment of the proposal, in the run. -/
def CreatesIn (runId : String) (e : Event) (p : AssignmentProposal) : Prop :=
  ∃ c : CommandCandidate, c.runId = runId ∧ CreatedFor c e p

/-- What was written: the assignments of proposals, and a revision of the plan at most. -/
structure PlanWrites (runId : String) (ps : List AssignmentProposal) (db : Database) (es : List Event)
    (db' : Database) : Prop where
  wrote : db.Wrote es db'
  created : ∃ qs, qs.Sublist ps ∧
    List.Forall₂ (CreatesIn runId) (es.filter (fun e => e.type = "assignment.created")) qs
  present : ∀ p ∈ ps, ∃ e ∈ createdIn db' runId, e.assignmentOf = some p.assignmentId
  patched : es.filter (fun e => e.type = "orchestration.plan.patched") = [] ∨
    ∃ e, es.filter (fun e => e.type = "orchestration.plan.patched") = [e] ∧ e.runId = runId ∧
      e.get? "revision" = some (.int ((planNumbers db runId).length + 1))
  leases : LeasesFrom runId ps db db'

theorem admits_nil (db : Database) (runId : String) : Admits db runId [] where
  ids := List.nodup_nil
  stages := List.nodup_nil
  fresh := fun _ hp => absurd hp List.not_mem_nil
  next := fun _ hp => absurd hp List.not_mem_nil
  idle := fun _ hp => absurd hp List.not_mem_nil
  team := fun hne => absurd rfl hne

/-- Events that create no assignment and patch no plan. -/
theorem planWrites_nil {runId : String} {db db' : Database} {es : List Event} (hw : db.Wrote es db')
    (hes : ∀ e ∈ es, e.type ≠ "assignment.created" ∧ e.type ≠ "orchestration.plan.patched")
    (hleases : LeasesFrom runId [] db db') : PlanWrites runId [] db es db' where
  wrote := hw
  created := by
    refine ⟨[], .slnil, ?_⟩
    rw [List.filter_eq_nil_iff.mpr]
    · exact .nil
    · exact fun e he htype => (hes e he).1 (of_decide_eq_true htype)
  present := fun p hp => absurd hp List.not_mem_nil
  patched := .inl (List.filter_eq_nil_iff.mpr
    (fun e he htype => (hes e he).2 (of_decide_eq_true htype)))
  leases := hleases

section writes

variable {runId : String} {ps : List AssignmentProposal} {db db' : Database} {es : List Event}

theorem PlanWrites.proposal (h : PlanWrites runId ps db es db') {e : Event} (he : e ∈ es)
    (hcreated : e.type = "assignment.created") : ∃ p ∈ ps, CreatesIn runId e p := by
  obtain ⟨qs, hsub, hforall⟩ := h.created
  obtain ⟨p, hp, hcreates⟩ := forall₂_mem_right hforall.flip
    (List.mem_filter.mpr ⟨he, decide_eq_true hcreated⟩)
  exact ⟨p, hsub.subset hp, hcreates⟩

theorem CreatesIn.run {e : Event} {p : AssignmentProposal} (h : CreatesIn runId e p) :
    e.runId = runId := by
  obtain ⟨c, hrun, hcreates⟩ := h
  exact hcreates.run.trans hrun

theorem CreatesIn.assignmentOf {e : Event} {p : AssignmentProposal} (h : CreatesIn runId e p) :
    e.assignmentOf = some p.assignmentId := by
  obtain ⟨c, -, hcreates⟩ := h
  exact hcreates.assignmentOf

theorem PlanWrites.spares (h : PlanWrites runId ps db es db') (ha : Admits db runId ps)
    (other : String) : SparesRows db other es := by
  intro e he hcreated id hid howner
  obtain ⟨p, hp, hcreates⟩ := h.proposal he hcreated
  rw [hcreates.assignmentOf] at hid
  obtain rfl := Option.some.inj hid
  rw [ha.fresh p hp] at howner
  cases howner

theorem createdAll_wrote (hw : db.Wrote es db') : createdAll db' = createdAll db ++
    es.filter (fun e => e.type = "assignment.created") := by
  rw [createdAll, hw.rows, List.filter_append]
  rfl

/-- The new assignments are all of the run. -/
theorem PlanWrites.createdIn (h : PlanWrites runId ps db es db') (other : String) :
    createdIn db' other = createdIn db other ++
      if other = runId then es.filter (fun e => e.type = "assignment.created") else [] := by
  rw [createdIn_wrote h.wrote, List.filter_filter]
  congr 1
  split
  next heq =>
    refine List.filter_congr ?_
    intro e he
    by_cases hcreated : e.type = "assignment.created"
    · obtain ⟨p, -, hcreates⟩ := h.proposal he hcreated
      simp [hcreated, hcreates.run, heq]
    · simp [hcreated]
  next hne =>
    refine List.filter_eq_nil_iff.mpr ?_
    intro e he hboth
    simp only [Bool.and_eq_true, decide_eq_true_eq] at hboth
    obtain ⟨p, -, hcreates⟩ := h.proposal he hboth.1
    exact hne (hboth.2.symm.trans hcreates.run)

/-- The new assignments of one stage: there is one at most. -/
theorem PlanWrites.ofStage (h : PlanWrites runId ps db es db') (ha : Admits db runId ps)
    (stageId : String) :
    (es.filter (fun e => e.type = "assignment.created")).filter
        (fun e => e.get? "stage_id" = some (.str stageId)) = [] ∨
      ∃ e, (es.filter (fun e => e.type = "assignment.created")).filter
          (fun e => e.get? "stage_id" = some (.str stageId)) = [e] ∧
        e.get? "attempt" = some (.int ((attemptNumbers db runId stageId).length + 1)) := by
  obtain ⟨qs, hsub, hforall⟩ := h.created
  have hstages : List.Forall₂ (CreatesIn runId)
      ((es.filter (fun e => e.type = "assignment.created")).filter
        (fun e => e.get? "stage_id" = some (.str stageId)))
      (qs.filter (fun p => p.stageId = stageId)) := by
    refine List.rel_filter ?_ hforall
    rintro e p ⟨c, -, hcreates⟩
    simp [hcreates.stage]
  generalize (es.filter (fun e => e.type = "assignment.created")).filter
    (fun e => e.get? "stage_id" = some (.str stageId)) = news at hstages ⊢
  have hnodup : ((qs.filter (fun p => p.stageId = stageId)).map AssignmentProposal.stageId).Nodup :=
    ha.stages.sublist ((List.filter_sublist.trans hsub).map _)
  have hall : ∀ p ∈ qs.filter (fun p => p.stageId = stageId), p ∈ ps ∧ p.stageId = stageId := by
    intro p hp
    obtain ⟨hmem, hstage⟩ := List.mem_filter.mp hp
    exact ⟨hsub.subset hmem, of_decide_eq_true hstage⟩
  generalize qs.filter (fun p => p.stageId = stageId) = rs at hstages hnodup hall
  cases hstages with
  | nil => exact .inl rfl
  | @cons e p _ _ hcreates hrest =>
      obtain ⟨hp, hstage⟩ := hall p List.mem_cons_self
      cases hrest with
      | nil =>
          obtain ⟨c, -, hcreates⟩ := hcreates
          refine .inr ⟨e, rfl, ?_⟩
          rw [hcreates.attempt, ha.next p hp, hstage]
      | @cons e' q _ _ _ _ =>
          exfalso
          obtain ⟨-, hstage'⟩ := hall q (List.mem_cons_of_mem _ List.mem_cons_self)
          rw [List.map_cons, List.map_cons, List.nodup_cons] at hnodup
          exact hnodup.1 (by rw [hstage, hstage']; exact List.mem_cons_self)

/-- The row of an assignment that was created. -/
theorem PlanWrites.recorded (h : PlanWrites runId ps db es db') (ha : Admits db runId ps) {e : Event}
    (he : e ∈ es) (hcreated : e.type = "assignment.created") :
    ∃ id stageId attempt, AttemptRecorded db' runId e id stageId attempt := by
  obtain ⟨p, hp, hcreates⟩ := h.proposal he hcreated
  obtain ⟨qs, hsub, hforall⟩ := h.created
  have hids : (es.filter (fun e => e.type = "assignment.created")).Pairwise
      (fun e f => e.assignmentOf ≠ f.assignmentOf) := by
    refine pairwise_of_forall₂ hforall (List.pairwise_map.mp (ha.ids.sublist (hsub.map _))) ?_
    intro e p f q hp hq hne heq
    rw [hp.assignmentOf, hq.assignmentOf] at heq
    exact hne (Option.some.inj heq)
  obtain ⟨before, after, rfl⟩ := List.append_of_mem he
  have hlater : ∀ f ∈ after, f.type = "assignment.created" → f.assignmentOf ≠ some p.assignmentId := by
    intro f hf hf' hid
    rw [List.filter_append, List.filter_cons_of_pos (by simpa using hcreated)] at hids
    have hrest := (List.pairwise_append.mp hids).2.1
    refine (List.pairwise_cons.mp hrest).1 f (List.mem_filter.mpr ⟨hf, decide_eq_true hf'⟩) ?_
    rw [hcreates.assignmentOf, hid]
  obtain ⟨row, hfold, hsame⟩ := @Database.assignmentFold_created e p.assignmentId
    (db.loadProjection "assignment" p.assignmentId) before after hcreated hcreates.assignmentOf hlater
  have hrun := hcreates.run
  have hid := hcreates.assignmentOf
  obtain ⟨c, -, hfor⟩ := hcreates
  refine ⟨p.assignmentId, p.stageId, p.attempt, hid, hfor.stage, hfor.attempt, row, ?_, ?_, ?_, ?_⟩
  · rw [h.wrote.assignment]
    exact hfold
  · rw [hsame _ (by decide) (by decide)]
    simp [createdAssignment, hrun]
  · rw [hsame _ (by decide) (by decide)]
    simpa [createdAssignment, Dict.get?_cons, Event.get?] using hfor.stage
  · rw [hsame _ (by decide) (by decide)]
    simpa [createdAssignment, Dict.get?_cons, Event.get?] using hfor.attempt

end writes

/-! ### One step keeps the invariant -/

section step

variable {runId : String} {ps : List AssignmentProposal} {db db' : Database} {es : List Event}

theorem Planned.revisions_wrote (h : Planned db) (hw : PlanWrites runId ps db es db')
    (other : String) : CountsUp (planNumbers db' other) := by
  have hnumbers : planNumbers db' other = planNumbers db other ++
      ((es.filter (fun e => e.type = "orchestration.plan.patched")).filter
        (fun e => e.runId = other)).map (fun e => e.get? "revision") := by
    unfold planNumbers Database.readRun
    rw [hw.wrote.rows, List.filter_append, List.filter_append, List.map_append, List.filter_filter,
      List.filter_filter, List.filter_filter]
    simp only [Bool.and_comm]
  rw [hnumbers]
  rcases hw.patched with hnone | ⟨e, hone, hrun, hrevision⟩
  · rw [hnone, List.filter_nil, List.map_nil, List.append_nil]
    exact h.revisions other
  · rw [hone]
    by_cases hother : e.runId = other
    · rw [List.filter_cons_of_pos (by simpa using hother), List.filter_nil, List.map_singleton,
        hrevision, ← hrun, hother]
      exact (h.revisions other).append
    · rw [List.filter_cons_of_neg (by simpa using hother), List.filter_nil, List.map_nil,
        List.append_nil]
      exact h.revisions other

theorem Planned.attempts_wrote (h : Planned db) (hw : PlanWrites runId ps db es db')
    (ha : Admits db runId ps) (other stageId : String) :
    CountsUp (attemptNumbers db' other stageId) := by
  have hnumbers : attemptNumbers db' other stageId = attemptNumbers db other stageId ++
      ((if other = runId then es.filter (fun e => e.type = "assignment.created") else []).filter
        (fun e => e.get? "stage_id" = some (.str stageId))).map (fun e => e.get? "attempt") := by
    rw [attemptNumbers, hw.createdIn, List.filter_append, List.map_append]
    rfl
  rw [hnumbers]
  split
  next heq =>
    rcases hw.ofStage ha stageId with hnone | ⟨e, hone, hattempt⟩
    · rw [hnone, List.map_nil, List.append_nil]
      exact h.attempts other stageId
    · rw [hone, List.map_singleton, hattempt, ← heq]
      exact (h.attempts other stageId).append
  next =>
    rw [List.filter_nil, List.map_nil, List.append_nil]
    exact h.attempts other stageId

/-- An assignment that was created has a row. -/
theorem Planned.row_of_created (h : Planned db) {e : Event} (he : e ∈ createdAll db) {id : String}
    (hid : e.assignmentOf = some id) : db.loadProjection "assignment" id ≠ none := by
  obtain ⟨id', stageId, attempt, hrecorded⟩ := h.recorded e.runId e (mem_createdIn.mpr ⟨he, rfl⟩)
  obtain ⟨row, hrow⟩ := hrecorded.row
  have hsame := hrecorded.assignment
  rw [hid] at hsame
  rw [Option.some.inj hsame, hrow.loaded]
  simp

theorem Planned.ids_wrote (h : Planned db) (hw : PlanWrites runId ps db es db')
    (ha : Admits db runId ps) : ((createdAll db').map Event.assignmentOf).Nodup := by
  obtain ⟨qs, hsub, hforall⟩ := hw.created
  rw [createdAll_wrote hw.wrote, List.map_append, List.nodup_append']
  refine ⟨h.ids, ?_, ?_⟩
  · refine List.pairwise_map.mpr (pairwise_of_forall₂ hforall
      (List.pairwise_map.mp (ha.ids.sublist (hsub.map _))) ?_)
    intro e p f q hp hq hne heq
    rw [hp.assignmentOf, hq.assignmentOf] at heq
    exact hne (Option.some.inj heq)
  · intro id hold hnew
    obtain ⟨e, he, rfl⟩ := List.mem_map.mp hold
    obtain ⟨f, hf, heq⟩ := List.mem_map.mp hnew
    obtain ⟨hmem, hcreated⟩ := List.mem_filter.mp hf
    obtain ⟨p, hp, hcreates⟩ := hw.proposal hmem (of_decide_eq_true hcreated)
    refine h.row_of_created he ?_ (ha.fresh p hp)
    rw [← heq, hcreates.assignmentOf]

theorem Planned.recorded_wrote (h : Planned db) (hw : PlanWrites runId ps db es db')
    (ha : Admits db runId ps) (other : String) : ∀ e ∈ createdIn db' other, ∃ id stageId attempt,
      AttemptRecorded db' other e id stageId attempt := by
  intro e he
  rw [hw.createdIn] at he
  rcases List.mem_append.mp he with hold | hnew
  · obtain ⟨id, stageId, attempt, hrecorded⟩ := h.recorded other e hold
    exact ⟨id, stageId, attempt, hrecorded.wrote hw.wrote (hw.spares ha other)⟩
  · split at hnew
    next heq =>
      obtain ⟨hmem, hcreated⟩ := List.mem_filter.mp hnew
      rw [heq]
      exact hw.recorded ha hmem (of_decide_eq_true hcreated)
    next => cases hnew

theorem Planned.rows_wrote (h : Planned db) (hw : db.Wrote es db') {id : String} {row' : Dict}
    (hload : db'.loadProjection "assignment" id = some row') :
    ∃ runId, ∃ e ∈ createdIn db' runId, row'.get? "run_id" = some (.str runId) ∧
      row'.get? "stage_id" = e.get? "stage_id" ∧ row'.get? "attempt" = e.get? "attempt" := by
  rw [hw.assignment] at hload
  rcases Database.assignmentFold_cases hload with ⟨row, hrow, hsame⟩ | ⟨e, he, hcreated, -, hsame⟩
  · obtain ⟨runId, e, he, hrun, hstage, hattempt⟩ := h.rows id row hrow
    refine ⟨runId, e, ?_, ?_, ?_, ?_⟩
    · rw [createdIn_wrote hw]
      exact List.mem_append_left _ he
    · rw [hsame _ (by decide) (by decide), hrun]
    · rw [hsame _ (by decide) (by decide), hstage]
    · rw [hsame _ (by decide) (by decide), hattempt]
  · refine ⟨e.runId, e, ?_, ?_, ?_, ?_⟩
    · rw [createdIn_wrote hw]
      exact List.mem_append_right _ (List.mem_filter.mpr
        ⟨List.mem_filter.mpr ⟨he, decide_eq_true rfl⟩, decide_eq_true hcreated⟩)
    · rw [hsame _ (by decide) (by decide)]
      simp [createdAssignment]
    · rw [hsame _ (by decide) (by decide)]
      simp [createdAssignment, Dict.get?_cons, Event.get?]
    · rw [hsame _ (by decide) (by decide)]
      simp [createdAssignment, Dict.get?_cons, Event.get?]

/-- A row of an assignment stays. -/
theorem assignment_stays (hw : PlanWrites runId ps db es db') (ha : Admits db runId ps) {id : String}
    (h : db.loadProjection "assignment" id ≠ none) : db'.loadProjection "assignment" id ≠ none := by
  obtain ⟨row, hrow⟩ := Option.ne_none_iff_exists'.mp h
  have hnot : ∀ e ∈ es, e.type = "assignment.created" → e.assignmentOf ≠ some id := by
    intro e he hcreated hid
    obtain ⟨p, hp, hcreates⟩ := hw.proposal he hcreated
    rw [hcreates.assignmentOf] at hid
    obtain rfl := Option.some.inj hid
    rw [ha.fresh p hp] at hrow
    cases hrow
  obtain ⟨row', hfold, -⟩ := @Database.assignmentFold_keeps es id row hnot
  rw [hw.wrote.assignment, hrow, hfold]
  simp

theorem LeaseIs.of_fields {row row' : Dict} {stageId agentId : String}
    (h : LeaseIs row runId stageId agentId) (hsame : ∀ key ∈ leaseFields, row'.get? key = row.get? key) :
    LeaseIs row' runId stageId agentId where
  run := (hsame _ (by decide)).trans h.run
  stage := (hsame _ (by decide)).trans h.stage
  agent := (hsame _ (by decide)).trans h.agent

theorem not_leaseActive_of_terminal {row : Dict} (h : leaseTerminal (row.get? "status")) :
    ¬ LeaseActive row :=
  fun hactive => not_active_of_terminal h hactive.hasStatus

theorem Planned.leases_wrote (h : Planned db) (hw : PlanWrites runId ps db es db')
    (ha : Admits db runId ps) {id : String} {row' : Dict}
    (hload : db'.loadProjection "lease" id = some row') : leaseTerminal (row'.get? "status") ∨
    LeaseActive row' ∧ db'.loadProjection "assignment" id ≠ none ∧ ∃ runId stageId agentId,
      LeaseIs row' runId stageId agentId ∧ stageId ≠ "" ∧ ∃ k, db'.ContractIs runId (some k) := by
  rcases hw.leases id row' hload with hterminal | ⟨row, hrow, hsame⟩ | ⟨p, hp, rfl, -, hactive, his⟩
  · exact .inl hterminal
  · rcases h.leases id row hrow with hterminal | ⟨hactive, hassigned, r, s, a, his, hne, k, hk⟩
    · left
      rw [hsame _ (by decide)]
      exact hterminal
    · refine .inr ⟨(hsame _ (by decide)).trans hactive, assignment_stays hw ha hassigned, r, s, a,
        his.of_fields hsame, hne, k, contractIs_wrote hk hw.wrote⟩
  · obtain ⟨k, hk, -⟩ := ha.team (List.ne_nil_of_mem hp)
    refine .inr ⟨hactive, ?_, runId, p.stageId, p.agentId, his, p.stageId_ne, k,
      contractIs_wrote hk hw.wrote⟩
    obtain ⟨e, he, hid⟩ := hw.present p hp
    obtain ⟨id, stageId, attempt, hrecorded⟩ := h.recorded_wrote hw ha runId e he
    obtain ⟨row, hrow⟩ := hrecorded.row
    have hsame := hrecorded.assignment
    rw [hid] at hsame
    rw [Option.some.inj hsame, hrow.loaded]
    simp

theorem Planned.stages_wrote (h : Planned db) (hw : PlanWrites runId ps db es db')
    (ha : Admits db runId ps) {id id' : String} {row row' : Dict}
    (hload : db'.loadProjection "lease" id = some row) (hactive : LeaseActive row)
    (hload' : db'.loadProjection "lease" id' = some row') (hactive' : LeaseActive row')
    {other stageId agentId agentId' : String} (his : LeaseIs row other stageId agentId)
    (his' : LeaseIs row' other stageId agentId') : id = id' := by
  -- A lease that was begun and one from before are of different stages.
  have happart : ∀ {id id' : String} {row row' : Dict} {agentId agentId' : String},
      (∃ old, db.loadProjection "lease" id = some old ∧
        ∀ key ∈ leaseFields, row.get? key = old.get? key) → LeaseActive row →
      LeaseIs row other stageId agentId → LeaseIs row' other stageId agentId' →
      ¬ ∃ p ∈ ps, p.assignmentId = id' ∧ LeaseIs row' runId p.stageId p.agentId := by
    rintro id id' row row' agentId agentId' ⟨old, hold, hsame⟩ hactive his his' ⟨p, hp, -, hp'⟩
    have hrun : other = runId := Json.str.inj (Option.some.inj (his'.run.symm.trans hp'.run))
    have hstage : stageId = p.stageId := Json.str.inj (Option.some.inj (his'.stage.symm.trans hp'.stage))
    refine ha.idle p hp id old agentId hold ((hsame _ (by decide)).symm.trans hactive) ?_
    rw [← hrun, ← hstage]
    exact his.of_fields (fun key hkey => (hsame key hkey).symm)
  rcases hw.leases id row hload with hterminal | hold | ⟨p, hp, hid, -, -, hfor⟩
  · exact absurd hactive (not_leaseActive_of_terminal hterminal)
  · rcases hw.leases id' row' hload' with hterminal | hold' | ⟨p, hp, hid, -, -, hfor⟩
    · exact absurd hactive' (not_leaseActive_of_terminal hterminal)
    · obtain ⟨old, hold, hsame⟩ := hold
      obtain ⟨old', hold', hsame'⟩ := hold'
      exact h.stages id old hold ((hsame _ (by decide)).symm.trans hactive) id' old' hold'
        ((hsame' _ (by decide)).symm.trans hactive') other stageId agentId agentId'
        (his.of_fields (fun key hkey => (hsame key hkey).symm))
        (his'.of_fields (fun key hkey => (hsame' key hkey).symm))
    · exact absurd ⟨p, hp, hid, hfor⟩ (happart hold hactive his his')
  · rcases hw.leases id' row' hload' with hterminal | hold' | ⟨q, hq, hid', -, -, hfor'⟩
    · exact absurd hactive' (not_leaseActive_of_terminal hterminal)
    · exact absurd ⟨p, hp, hid, hfor⟩ (happart hold' hactive' his' his)
    · have hstage : p.stageId = q.stageId := by
        refine Json.str.inj (Option.some.inj ?_)
        rw [← hfor.stage, ← hfor'.stage, his.stage, his'.stage]
      rw [← hid, ← hid', List.inj_on_of_nodup_map ha.stages hp hq hstage]

/-- Without a contract a run has no active lease. -/
theorem Planned.team_le (h : Planned db) (hw : db.Wrote es db') {other : String} {k : TeamContract}
    (hk : db'.ContractIs other (some k)) :
    ((db.activeLeasesOf (some other)).length : ℤ) ≤ k.maxParallelAssignments := by
  cases hleases : db.activeLeasesOf (some other) with
  | nil =>
      have hbounds := k.parallel_bounds
      rw [List.length_nil]
      push_cast
      omega
  | cons row rest =>
      have hpos : 0 < (db.leaseIds (ofRun other)).length := by
        rw [← length_activeLeasesOf, hleases]
        exact Nat.succ_pos _
      obtain ⟨id, hid⟩ := List.exists_mem_of_length_pos hpos
      obtain ⟨row', hrow', hactive, hrun⟩ := mem_leaseIds.mp hid
      rw [← hleases]
      rcases h.leases id row' hrow' with hterminal | ⟨-, -, r, s, a, his, -, k', hk'⟩
      · exact absurd hactive (not_active_of_terminal hterminal)
      · have heq : row'.get? "run_id" = some (.str other) := of_decide_eq_true hrun
        rw [his.run] at heq
        obtain rfl := Json.str.inj (Option.some.inj heq)
        have hsame := (contractIs_wrote hk' hw).unique hk
        obtain rfl := Option.some.inj hsame
        exact h.team r k' hk'

theorem Planned.team_wrote (h : Planned db) (hw : PlanWrites runId ps db es db')
    (ha : Admits db runId ps) {other : String} {k : TeamContract}
    (hk : db'.ContractIs other (some k)) :
    ((db'.activeLeasesOf (some other)).length : ℤ) ≤ k.maxParallelAssignments := by
  have hbefore := h.team_le hw.wrote hk
  by_cases hother : other = runId
  · subst hother
    have hgrows := hw.leases.team_le
    by_cases hps : ps = []
    · rw [hps, List.length_nil, Nat.add_zero] at hgrows
      exact le_trans (Int.ofNat_le.mpr hgrows) hbefore
    · obtain ⟨k', hk', hroom⟩ := ha.team hps
      have hsame := (contractIs_wrote hk' hw.wrote).unique hk
      obtain rfl := Option.some.inj hsame
      omega
  · exact le_trans (Int.ofNat_le.mpr (hw.leases.other_team_le hother)) hbefore

/-- **What was written**, where there was room for it, keeps the invariant. -/
theorem Planned.wrote (h : Planned db) (hw : PlanWrites runId ps db es db')
    (ha : Admits db runId ps) : Planned db' where
  revisions := h.revisions_wrote hw
  attempts := h.attempts_wrote hw ha
  ids := h.ids_wrote hw ha
  recorded := h.recorded_wrote hw ha
  rows := fun _ _ hload => h.rows_wrote hw.wrote hload
  leases := fun _ _ hload => h.leases_wrote hw ha hload
  stages := fun _ _ hload hactive _ _ hload' hactive' _ _ _ _ his his' =>
    h.stages_wrote hw ha hload hactive hload' hactive' his his'
  team := fun _ _ hk => h.team_wrote hw ha hk

end step

/-! ### Patches -/

/-- The stages of a run that have a result. -/
def doneStages (db : Database) (runId : String) : List String :=
  completedStages (db.snapshotOf (some runId) "assignment")

/-- The stage is one of the contract of the run; it has no result, and the stages it depends on have
one. -/
def StageReady (db : Database) (runId stageId : String) : Prop :=
  ∃ k stage, db.ContractIs runId (some k) ∧ k.stage? stageId = some stage ∧
    stage.dependsOn ⊆ doneStages db runId ∧ stageId ∉ doneStages db runId

/-- The agent can take as many leases as it has, and the others. -/
def HasRoom (db : Database) (agentId : String) (others : ℕ) : Prop :=
  ∃ agent n, db.loadProjection "agent" agentId = some agent ∧
    intOf (agent.getD "max_concurrency" (.int 1)) = .ok n ∧ (db.loadOf agentId + others : ℤ) ≤ n

/-- What else the proposals were checked for. -/
structure Checked (db : Database) (runId : String) (ps : List AssignmentProposal) : Prop where
  loads : ∀ p ∈ ps, HasRoom db p.agentId (ps.countP (fun q => q.agentId = p.agentId))
  ready : ∀ p ∈ ps, StageReady db runId p.stageId

theorem checked_nil (db : Database) (runId : String) : Checked db runId [] where
  loads := fun _ hp => absurd hp List.not_mem_nil
  ready := fun _ hp => absurd hp List.not_mem_nil

section patches

variable {runId stageId : String} {c : CommandCandidate} {db db' : Database} {es : List Event}

/-- The attempt that the checks ask for is the next one. -/
theorem Planned.following_attempts (h : Planned db) {attempts : List ℤ}
    (hattempts : previousAttempts (db.snapshotOf (some runId) "assignment") stageId = .ok attempts) :
    following attempts = (attemptNumbers db runId stageId).length + 1 := by
  refine following_eq ?_
  unfold previousAttempts at hattempts
  intro v
  rw [← (h.attempts runId stageId).mem_iff]
  constructor
  · intro hv
    obtain ⟨row, hrow, hint⟩ := exists_of_mapM_ok hattempts hv
    obtain ⟨hrow, hstage⟩ := List.mem_filter.mp hrow
    obtain ⟨id, hrunRow⟩ := runRow_of_snapshotOf hrow
    obtain ⟨other, e, he, hrun, hestage, heattempt⟩ := h.rows id row hrunRow.loaded
    obtain rfl : other = runId := by
      have heq := hrun.symm.trans hrunRow.run
      exact Json.str.inj (Option.some.inj heq)
    obtain ⟨id', stage, attempt, hrecorded⟩ := h.recorded other e he
    rw [hestage, hrecorded.stage] at hstage
    rw [Dict.getD, heattempt, hrecorded.number] at hint
    have heq : stage = stageId := Option.some.inj (of_decide_eq_true hstage)
    have hv : attempt = v := Except.ok.inj hint
    refine List.mem_map.mpr ⟨e, List.mem_filter.mpr ⟨he, decide_eq_true ?_⟩, ?_⟩
    · rw [hrecorded.stage, heq]
    · rw [hrecorded.number, hv]
  · intro hv
    obtain ⟨e, he, hattempt⟩ := List.mem_map.mp hv
    obtain ⟨he, hstage⟩ := List.mem_filter.mp he
    obtain ⟨id, stage, attempt, hrecorded⟩ := h.recorded runId e he
    obtain ⟨row, hrow⟩ := hrecorded.row
    rw [hrecorded.number] at hattempt
    have hstage : e.get? "stage_id" = some (.str stageId) := of_decide_eq_true hstage
    rw [hrecorded.stage] at hstage
    refine mem_of_mapM hattempts (a := row)
      (List.mem_filter.mpr ⟨mem_snapshotOf hrow.loaded hrow.run, decide_eq_true ?_⟩) ?_
    · rw [hrow.stage, hstage]
      rfl
    · rw [Dict.getD, hrow.number, hattempt]
      rfl

/-- A patch of a run with a contract is checked for room. -/
theorem Planned.admits (h : Planned db) (ha : Accepted c db es db') (hkind : c.kind = .planPatch)
    (hcontract : db.contractOf c.runId ≠ none) :
    Admits db c.runId (proposalsOf c) ∧ Checked db c.runId (proposalsOf c) ∧
      ∃ patch, PlanPatch.ofJson (.dict c.payload) = some patch ∧
        patch.revision = (planNumbers db c.runId).length + 1 := by
  obtain ⟨clock, hvalid⟩ := ha.valid
  obtain ⟨team, hpasses⟩ := validateCandidate_passes hvalid
  have hchecks := hpasses.kind
  rw [validateKind, hkind] at hchecks
  obtain ⟨view, hview⟩ := validatePlanPatch_passes hchecks
  have hlimits := validatePlanPatch_limits hchecks hview.payload
  obtain ⟨k, hteam⟩ := Option.isSome_iff_exists.mp (hpasses.contract_isSome.mpr hcontract)
  have hk : db.ContractIs c.runId (some k) := by
    rw [← hteam]
    exact hpasses.contract
  have hproposal := hview.proposals k (hview.contract.unique hk)
  rw [proposalsOf_patch hkind hview.payload]
  refine ⟨⟨hview.ids, hview.once, fun p hp => (hproposal p hp).fresh, ?_, ?_, ?_⟩, ⟨?_, ?_⟩, ?_⟩
  · intro p hp
    obtain ⟨attempts, hattempts, hfollowing⟩ := (hproposal p hp).attempt
    rw [hview.assignments] at hattempts
    rw [hfollowing, h.following_attempts hattempts]
  · intro p hp id row agentId hrow hactive his
    refine hlimits.idle k hk p hp row (mem_activeLeasesOf hrow hactive.hasStatus his.run) ?_
    rw [his.stage]
    simp [truthyText, Json.truthy, p.stageId_ne, Json.pyStr]
  · exact fun _ => ⟨k, hk, hlimits.team k hk⟩
  · intro p hp
    exact hlimits.loads p hp
  · intro p hp
    obtain ⟨stage, hstage, hdepends, -⟩ := (hproposal p hp).stage
    have hopen := (hproposal p hp).unfinished
    rw [hview.completed, hview.assignments] at hdepends hopen
    exact ⟨k, stage, hk, hstage, hdepends, hopen⟩
  · obtain ⟨revisions, hrevisions, hnumber⟩ := hlimits.revision
    exact ⟨view.patch, hview.payload, hnumber.trans
      (following_revisions (h.revisions c.runId) hrevisions)⟩

/-- The event of a patch says its revision. -/
theorem Accepted.patched (h : Accepted c db es db') (hkind : c.kind = .planPatch) {patch : PlanPatch}
    (hpatch : PlanPatch.ofJson (.dict c.payload) = some patch) :
    es.filter (fun e => e.type = "orchestration.plan.patched") = [] ∨
      ∃ e, es.filter (fun e => e.type = "orchestration.plan.patched") = [e] ∧ e.runId = c.runId ∧
        e.get? "revision" = some (.int patch.revision) := by
  obtain ⟨acceptedAt, ds, formal, hds, hstamped, hsub, -⟩ := h.facts
  rw [drafts, hkind] at hds
  dsimp only at hds
  rw [hpatch] at hds
  obtain rfl := ReadM.yields_pure.mp hds
  have hproposals : ∀ ps : List AssignmentProposal,
      (ps.flatMap (proposalDrafts patch acceptedAt)).filter
        (fun d => d.type = "orchestration.plan.patched") = [] := by
    intro ps
    refine List.filter_eq_nil_iff.mpr ?_
    intro d hd
    obtain ⟨p, -, hd⟩ := List.mem_flatMap.mp hd
    simp only [proposalDrafts, List.mem_cons, List.not_mem_nil, or_false] at hd
    rcases hd with rfl | rfl | rfl <;> simp
  have hhead : ∃ d : Draft, (planDrafts c patch acceptedAt).filter
      (fun d => d.type = "orchestration.plan.patched") = [d] ∧
        d.body.get? "revision" = some (.int patch.revision) := by
    have hblocked : List.filter (fun d : Draft => d.type = "orchestration.plan.patched")
        (if isSet patch.blockedReason then
          [{ suffix := "orchestration-blocked", type := "orchestration.blocked",
             body := [("revision", .int patch.revision),
               ("reason", Json.ofOption patch.blockedReason)] }]
        else []) = [] := by
      split <;> simp
    unfold planDrafts
    rw [List.filter_append, List.filter_cons_of_pos (by simp), hproposals, hblocked]
    exact ⟨_, rfl, by simp⟩
  obtain ⟨d, hd, hrevision⟩ := hhead
  have hfiltered : List.Forall₂ (fun d e => ∃ createdAt,
      e = Draft.event d c (acceptedEvent c acceptedAt).id createdAt)
      ((planDrafts c patch acceptedAt).filter (fun d => d.type = "orchestration.plan.patched"))
      (formal.filter (fun e => e.type = "orchestration.plan.patched")) := by
    refine List.rel_filter ?_ hstamped
    rintro d e ⟨createdAt, rfl⟩
    exact Iff.rfl
  have hnew := hsub.filter (fun e => e.type = "orchestration.plan.patched")
  rw [List.filter_cons_of_neg (by simp [acceptedEvent, kernelEvent])] at hnew
  rw [hd] at hfiltered
  generalize formal.filter (fun e => e.type = "orchestration.plan.patched") = kept at hfiltered hnew
  cases hfiltered with
  | cons hevent hrest =>
      cases hrest
      obtain ⟨createdAt, rfl⟩ := hevent
      rcases List.sublist_singleton.mp hnew with hnone | hone
      · exact .inl hnone
      · exact .inr ⟨_, hone, rfl, hrevision⟩

/-- The fact of every proposal is in the log afterwards. -/
theorem Accepted.creates (h : Accepted c db es db') (hkind : c.kind = .planPatch) {patch : PlanPatch}
    (hpatch : PlanPatch.ofJson (.dict c.payload) = some patch) {p : AssignmentProposal}
    (hp : p ∈ patch.assignments) : ∃ f ∈ db'.events.rows, ∃ causationId createdAt,
      f.SameFact ((createdDraft patch p).event c causationId createdAt) := by
  obtain ⟨acceptedAt, ds, formal, hds, hstamped, -, hpresent⟩ := h.facts
  rw [drafts, hkind] at hds
  dsimp only at hds
  rw [hpatch] at hds
  obtain rfl := ReadM.yields_pure.mp hds
  have hdraft : createdDraft patch p ∈ planDrafts c patch acceptedAt := by
    have hmem : createdDraft patch p ∈ (planDrafts c patch acceptedAt).filter
        (fun d => d.type = "assignment.created") := by
      rw [filter_planDrafts]
      exact List.mem_map_of_mem hp
    exact (List.mem_filter.mp hmem).1
  obtain ⟨e, he, createdAt, rfl⟩ := forall₂_mem_right hstamped.flip hdraft
  obtain ⟨f, hf, hsame⟩ := hpresent _ (List.mem_cons_of_mem _ he)
  exact ⟨f, hf, _, createdAt, hsame⟩

/-- The assignment of every proposal is in the log afterwards. -/
theorem Accepted.present (h : Accepted c db es db') (hkind : c.kind = .planPatch) {patch : PlanPatch}
    (hpatch : PlanPatch.ofJson (.dict c.payload) = some patch) {p : AssignmentProposal}
    (hp : p ∈ patch.assignments) : ∃ e ∈ createdIn db' c.runId, e.assignmentOf = some p.assignmentId := by
  obtain ⟨f, hf, causationId, createdAt, hsame⟩ := h.creates hkind hpatch hp
  have hcreates := @createdFor_draft c patch p causationId createdAt
  rw [← hsame] at hcreates
  refine ⟨f, List.mem_filter.mpr ⟨List.mem_filter.mpr ⟨hf, ?_⟩, ?_⟩, hcreates.assignmentOf⟩
  · exact decide_eq_true hcreates.run
  · exact decide_eq_true hcreates.type

/-- A lease that is there for a new assignment has ended. -/
theorem Planned.lease_ended (h : Planned db) {id : String}
    (hfresh : db.loadProjection "assignment" id = none) {row : Dict}
    (hrow : db.loadProjection "lease" id = some row) : leaseTerminal (row.get? "status") := by
  rcases h.leases id row hrow with hterminal | ⟨-, hassigned, -⟩
  · exact hterminal
  · exact absurd hfresh hassigned

/-- **What an acceptance writes**, in a run with a contract. -/
theorem Planned.accepted (h : Planned db) (ha : Accepted c db es db')
    (hcontract : db.contractOf c.runId ≠ none) : PlanWrites c.runId (proposalsOf c) db es db' ∧
      Admits db c.runId (proposalsOf c) ∧ Checked db c.runId (proposalsOf c) := by
  by_cases hkind : c.kind = .planPatch
  · obtain ⟨hadmits, hchecked, patch, hpatch, hrevision⟩ := h.admits ha hkind hcontract
    refine ⟨⟨ha.wrote, ?_, ?_, ?_, ?_⟩, hadmits, hchecked⟩
    · obtain ⟨qs, hforall, hsub⟩ := List.sublistForall₂_iff.mp (ha.created hkind hpatch)
      rw [proposalsOf_patch hkind hpatch]
      exact ⟨qs, hsub, hforall.imp (fun e p hcreates => ⟨c, rfl, hcreates⟩)⟩
    · intro p hp
      rw [proposalsOf_patch hkind hpatch] at hp
      exact ha.present hkind hpatch hp
    · rw [← hrevision]
      exact ha.patched hkind hpatch
    · exact ha.leasesFrom hadmits.ids (fun p hp row hrow => h.lease_ended (hadmits.fresh p hp) hrow)
  · have htypes : ∀ kind : CommandKind, kind ≠ .planPatch →
        ∀ type ∈ "candidate.accepted" :: factTypes kind,
          type ≠ "assignment.created" ∧ type ≠ "orchestration.plan.patched" := by
      intro kind hne
      cases kind <;> first | exact absurd rfl hne | decide
    have hleases := ha.leasesFrom (by rw [proposalsOf_of_ne hkind]; exact List.nodup_nil)
      (by rw [proposalsOf_of_ne hkind]; exact fun _ hp => absurd hp List.not_mem_nil)
    rw [proposalsOf_of_ne hkind] at hleases ⊢
    exact ⟨planWrites_nil ha.wrote (fun e he => htypes c.kind hkind e.type (ha.fact e he).2) hleases,
      admits_nil db c.runId, checked_nil db c.runId⟩

end patches

/-! ### Runs -/

/-- An end, or a renewal, of a lease that there is. -/
structure LeaseMove (db : Database) (e : Event) : Prop where
  type : EndsLease e ∨ e.type = "assignment.lease.renewed"
  renews : e.type = "assignment.lease.renewed" → ∀ id, e.leaseOf = some id →
    ∃ row, db.loadProjection "lease" id = some row ∧ e.get? "run_id" = none ∧
      e.get? "stage_id" = row.get? "stage_id" ∧ e.get? "agent_id" = row.get? "agent_id"

/-- One step of the program: a call of some submission for a run with a contract, in any order with
those of others, the end or the renewal of a lease, or what other code writes. -/
inductive TeamStep : StoreWorld → StoreWorld → Prop
  | submission {w w' : StoreWorld} {dispatch : Option DispatchContext} {c : CommandCandidate}
      {op : (withStore kernelInterface).Op} {r : (withStore kernelInterface).Reply op}
      (hop : (submit controlKernel dispatch c).CanRequest anyReply op) (hstep : kernelStep w op r w')
      (hcontract : w.db.contractOf c.runId ≠ none) : TeamStep w w'
  | lease {w w' : StoreWorld} {e : Event} (hw : w.db.Wrote [e] w'.db) (he : LeaseMove w.db e) :
      TeamStep w w'
  | other {w w' : StoreWorld} {es : List Event} (hw : w.db.Wrote es w'.db)
      (hes : ∀ e ∈ es, e.leaseOf = none ∧ e.type ≠ "assignment.created" ∧
        e.type ≠ "orchestration.plan.patched") : TeamStep w w'

/-- What a step writes, and that there was room for it. -/
structure StepFacts (db db' : Database) (runId : String) (ps : List AssignmentProposal)
    (es : List Event) : Prop where
  writes : PlanWrites runId ps db es db'
  admits : Admits db runId ps
  checked : Checked db runId ps

section steps

variable {db db' : Database} {w w' : StoreWorld}

theorem stepFacts_nil {es : List Event} (hw : db.Wrote es db')
    (hes : ∀ e ∈ es, e.type ≠ "assignment.created" ∧ e.type ≠ "orchestration.plan.patched")
    (hleases : LeasesFrom "" [] db db') : StepFacts db db' "" [] es :=
  ⟨planWrites_nil hw hes hleases, admits_nil db "", checked_nil db ""⟩

theorem leaseOf_family {e : Event} {id : String} (h : e.leaseOf = some id) :
    startsWith "assignment.lease." e.type = true := by
  unfold Event.leaseOf at h
  split at h
  next hfamily => exact hfamily
  next => cases h

/-- A renewal changes nothing that counts. -/
theorem Planned.leasesFrom_move (h : Planned db) {e : Event} (hw : db.Wrote [e] db')
    (he : LeaseMove db e) : LeasesFrom "" [] db db' := by
  rcases he.type with hends | hrenewed
  · refine leasesFrom_of_ends hw ?_
    intro f hf id _
    rw [List.mem_singleton.mp hf]
    exact hends
  · intro id row' hrow'
    rw [hw.lease, List.foldl_cons, List.foldl_nil] at hrow'
    by_cases hid : e.leaseOf = some id
    · obtain ⟨row, hrow, hrun, hstage, hagent⟩ := he.renews hrenewed id hid
      rw [hrow] at hrow'
      rcases h.leases id row hrow with hterminal | ⟨hactive, -, r, s, a, his, -⟩
      · have hkept := @Database.leaseAfter_of_terminal e id (some row) hterminal
        rw [hkept] at hrow'
        obtain rfl := Option.some.inj hrow'
        exact .inl hterminal
      · have hgrants : Grants e s a := by
          refine ⟨?_, hrun, hstage.trans his.stage, hagent.trans his.agent⟩
          rw [hrenewed]
          decide
        have hold : ∀ old, some row = some old → LeaseActive old ∧ LeaseIs old r s a := by
          intro old heq
          obtain rfl := Option.some.inj heq
          exact ⟨hactive, his⟩
        obtain ⟨row'', hrow'', hactive', his'⟩ :=
          Database.leaseAfter_grants hgrants hid hold (fun hnone => absurd hnone (by simp))
        rw [hrow''] at hrow'
        obtain rfl := Option.some.inj hrow'
        refine .inr (.inl ⟨row, hrow, ?_⟩)
        intro key hkey
        simp only [leaseFields, List.mem_cons, List.not_mem_nil, or_false] at hkey
        rcases hkey with rfl | rfl | rfl | rfl
        · exact Eq.trans hactive' hactive.symm
        · exact his'.run.trans his.run.symm
        · exact his'.stage.trans his.stage.symm
        · exact his'.agent.trans his.agent.symm
    · rw [Database.leaseAfter_of_ne hid] at hrow'
      exact .inr (.inl ⟨row', hrow', fun _ _ => rfl⟩)

/-- **What a step does**. -/
theorem TeamStep.facts (hs : TeamStep w w') (h : Planned w.db) :
    ∃ runId ps es, StepFacts w.db w'.db runId ps es := by
  cases hs with
  | other hw hes =>
      refine ⟨"", [], _, stepFacts_nil hw (fun e he => (hes e he).2) (leasesFrom_of_ends hw ?_)⟩
      intro e he id hid
      rw [(hes e he).1] at hid
      cases hid
  | @lease e hw he =>
      refine ⟨"", [], [e], stepFacts_nil hw ?_ (h.leasesFrom_move hw he)⟩
      intro f hf
      rw [List.mem_singleton.mp hf]
      have hall : ∀ type ∈ ["assignment.lease.released", "assignment.lease.expired",
          "assignment.lease.renewed"],
          type ≠ "assignment.created" ∧ type ≠ "orchestration.plan.patched" := by
        decide
      refine hall e.type ?_
      rcases he.type with hends | hrenewed
      · simp only [EndsLease, List.mem_cons, List.not_mem_nil, or_false] at hends ⊢
        tauto
      · simp [hrenewed]
  | @submission dispatch c op r hop hstep hcontract =>
      have hcall : KernelCall anyReply controlKernel c op :=
        (calls_submit anyReply controlKernel dispatch c).canRequest hop
      cases hcall.effect hstep with
      | accepted es haccepted _ =>
          obtain ⟨hwrites, hadmits, hchecked⟩ := h.accepted haccepted.accepted hcontract
          exact ⟨c.runId, proposalsOf c, es, hwrites, hadmits, hchecked⟩
      | noted es hwrote hnotes =>
          have hall : ∀ type ∈ candidateNotes, type ≠ "assignment.created" ∧
              type ≠ "orchestration.plan.patched" ∧ startsWith "assignment.lease." type = false := by
            decide
          refine ⟨"", [], es, stepFacts_nil hwrote ?_ (leasesFrom_of_ends hwrote ?_)⟩
          · intro e he
            exact ⟨(hall e.type (hnotes e he).2.2).1, (hall e.type (hnotes e he).2.2).2.1⟩
          · intro e he id hid
            have hfamily := leaseOf_family hid
            rw [(hall e.type (hnotes e he).2.2).2.2] at hfamily
            cases hfamily

/-- **One step** keeps the invariant. -/
theorem Planned.step (h : Planned w.db) (hs : TeamStep w w') : Planned w'.db := by
  obtain ⟨runId, ps, es, hfacts⟩ := hs.facts h
  exact h.wrote hfacts.writes hfacts.admits

end steps

/-- A store in which nothing was planned yet. -/
structure Unplanned (db : Database) : Prop where
  rows : ∀ r ∈ db.projections.rows, r.kind ≠ "assignment" ∧ r.kind ≠ "lease"
  log : ∀ e ∈ db.events.rows, e.type ≠ "assignment.created" ∧ e.type ≠ "orchestration.plan.patched"

instance : DecidablePred Unplanned := fun db =>
  decidable_of_iff ((∀ r ∈ db.projections.rows, r.kind ≠ "assignment" ∧ r.kind ≠ "lease") ∧
    ∀ e ∈ db.events.rows, e.type ≠ "assignment.created" ∧ e.type ≠ "orchestration.plan.patched")
    ⟨fun h => ⟨h.1, h.2⟩, fun h => ⟨h.rows, h.log⟩⟩

section unplanned

variable {db : Database}

theorem Unplanned.load_none (h : Unplanned db) {kind : String}
    (hkind : kind = "assignment" ∨ kind = "lease") (id : String) : db.loadProjection kind id = none := by
  unfold Database.loadProjection
  cases hlookup : db.projections.lookup (kind, id) with
  | none => rfl
  | some r =>
      obtain ⟨hmem, hkey⟩ := Table.lookup_eq_some_iff.mp hlookup
      have hr : r.kind = kind := congrArg Prod.fst hkey
      obtain ⟨hassignment, hlease⟩ := h.rows r hmem
      rcases hkind with rfl | rfl
      · exact absurd hr hassignment
      · exact absurd hr hlease

theorem Unplanned.createdAll (h : Unplanned db) : createdAll db = [] :=
  List.filter_eq_nil_iff.mpr (fun e he htype => (h.log e he).1 (of_decide_eq_true htype))

theorem Unplanned.leaseIds (h : Unplanned db) (P : Dict → Bool) : db.leaseIds P = [] := by
  refine List.eq_nil_iff_forall_not_mem.mpr ?_
  intro id hid
  obtain ⟨row, hrow, -⟩ := mem_leaseIds.mp hid
  rw [h.load_none (.inr rfl)] at hrow
  cases hrow

theorem Unplanned.createdIn (h : Unplanned db) (runId : String) : createdIn db runId = [] := by
  refine List.eq_nil_iff_forall_not_mem.mpr ?_
  intro e he
  have hmem := (mem_createdIn.mp he).1
  rw [h.createdAll] at hmem
  cases hmem

theorem Unplanned.planned (h : Unplanned db) : Planned db where
  revisions := by
    intro runId
    have hnone : planNumbers db runId = [] := by
      unfold planNumbers
      rw [List.filter_eq_nil_iff.mpr, List.map_nil]
      intro e he htype
      exact (h.log e (List.mem_filter.mp he).1).2 (of_decide_eq_true htype)
    rw [hnone]
    exact countsUp_nil
  attempts := by
    intro runId stageId
    rw [attemptNumbers, h.createdIn]
    exact countsUp_nil
  ids := by
    rw [h.createdAll]
    exact List.nodup_nil
  recorded := by
    intro runId e he
    rw [h.createdIn] at he
    cases he
  rows := by
    intro id row hrow
    rw [h.load_none (.inl rfl)] at hrow
    cases hrow
  leases := by
    intro id row hrow
    rw [h.load_none (.inr rfl)] at hrow
    cases hrow
  stages := by
    intro id row hrow
    rw [h.load_none (.inr rfl)] at hrow
    cases hrow
  team := by
    intro runId k _
    have hbounds := k.parallel_bounds
    rw [length_activeLeasesOf, h.leaseIds, List.length_nil]
    push_cast
    omega

end unplanned

/-! ### What holds in every run -/

/-- The states that the program can come to. -/
abbrev Reached (start w : StoreWorld) : Prop := Relation.ReflTransGen TeamStep start w

/-- The step gives the agent a lease. -/
def GivesLease (agentId : String) (w w' : StoreWorld) : Prop :=
  ∃ id ∈ w'.db.leaseIds (heldBy agentId), id ∉ w.db.leaseIds (heldBy agentId)

/-- The agent was last given a lease by the step from `w₁` to `w₂`. -/
structure LastGiven (agentId : String) (start w₁ w₂ w : StoreWorld) : Prop where
  before : Reached start w₁
  step : TeamStep w₁ w₂
  gives : GivesLease agentId w₁ w₂
  since : Relation.ReflTransGen (fun w w' => TeamStep w w' ∧ ¬ GivesLease agentId w w') w₂ w

/-- The active leases of the agent are within what it could take when it was last given one. -/
def WithinLast (agentId : String) (start w : StoreWorld) : Prop :=
  ∃ w₁ w₂ agent n, LastGiven agentId start w₁ w₂ w ∧
    w₁.db.loadProjection "agent" agentId = some agent ∧
    intOf (agent.getD "max_concurrency" (.int 1)) = .ok n ∧ (w.db.loadOf agentId : ℤ) ≤ n

/-- The assignment was created by a step of the run, in a state in which its stage was ready. -/
def CreatedReady (start w : StoreWorld) (e : Event) : Prop :=
  ∃ w₁ w₂, Reached start w₁ ∧ TeamStep w₁ w₂ ∧ Reached w₂ w ∧
    e ∉ w₁.db.events.rows ∧ e ∈ w₂.db.events.rows ∧
    ∃ stageId, e.get? "stage_id" = some (.str stageId) ∧ StageReady w₁.db e.runId stageId

/-- What is always true of the plans. -/
structure PlanInvariants (start w : StoreWorld) : Prop where
  revisions : ∀ runId, CountsUp (planNumbers w.db runId)
  stages : ∀ runId stageId, (w.db.activeLeasesOf (some runId)).countP
    (fun lease => truthyText (lease.get? "stage_id") = some stageId) ≤ 1
  team : ∀ runId k, w.db.ContractIs runId (some k) →
    ((w.db.activeLeasesOf (some runId)).length : ℤ) ≤ k.maxParallelAssignments
  loads : ∀ agentId, w.db.loadOf agentId = 0 ∨ WithinLast agentId start w
  attempts : ∀ runId stageId, CountsUp (attemptNumbers w.db runId stageId)
  ids : ((createdAll w.db).map Event.assignmentOf).Nodup
  created : ∀ e ∈ createdAll w.db, CreatedReady start w e

section runs

variable {start w w' : StoreWorld} {agentId : String}

/-- A step that gives no lease leaves an agent with no more than it had. -/
theorem loadOf_le_of_not_gives (h : ¬ GivesLease agentId w w') :
    w'.db.loadOf agentId ≤ w.db.loadOf agentId := by
  have hsub : w'.db.leaseIds (heldBy agentId) ⊆ w.db.leaseIds (heldBy agentId) := by
    intro id hid
    by_contra hnot
    exact h ⟨id, hid, hnot⟩
  rw [loadOf_eq, loadOf_eq]
  exact (nodup_leaseIds.subperm hsub).length_le

/-- A step that gives a lease does it for a proposal. -/
theorem LeasesFrom.gives {runId : String} {ps : List AssignmentProposal}
    (h : LeasesFrom runId ps w.db w'.db) (hgives : GivesLease agentId w w') :
    ∃ p ∈ ps, p.agentId = agentId := by
  obtain ⟨id, hid, hnew⟩ := hgives
  obtain ⟨row', hrow', hactive, hheld⟩ := mem_leaseIds.mp hid
  rcases h id row' hrow' with hterminal | ⟨row, hrow, hsame⟩ | ⟨p, hp, -, -, -, his⟩
  · exact absurd hactive (not_active_of_terminal hterminal)
  · refine absurd (mem_leaseIds.mpr ⟨row, hrow, ?_, ?_⟩) hnew
    · rw [hasStatus, hsame "status" (by decide)] at hactive
      exact hactive
    · rw [← ofLeaseFields_heldBy agentId row row' hsame]
      exact hheld
  · have heq : (row'.get? "agent_id").bind Json.asStr = some agentId := of_decide_eq_true hheld
    rw [his.agent] at heq
    exact ⟨p, hp, Option.some.inj heq⟩

theorem planned_of_reached (hstart : Unplanned start.db) (h : Reached start w) : Planned w.db := by
  induction h with
  | refl => exact hstart.planned
  | tail _ hs ih => exact ih.step hs

theorem withinLast_of_reached (hstart : Unplanned start.db) (h : Reached start w)
    (agentId : String) : w.db.loadOf agentId = 0 ∨ WithinLast agentId start w := by
  induction h with
  | refl =>
      left
      rw [loadOf_eq, hstart.leaseIds, List.length_nil]
  | @tail w w' hreached hs ih =>
      by_cases hgives : GivesLease agentId w w'
      · right
        obtain ⟨runId, ps, es, hfacts⟩ := hs.facts (planned_of_reached hstart hreached)
        obtain ⟨p, hp, rfl⟩ := hfacts.writes.leases.gives hgives
        obtain ⟨agent, n, hagent, hn, hroom⟩ := hfacts.checked.loads p hp
        have hgrows := hfacts.writes.leases.load_le p.agentId
        refine ⟨w, w', agent, n, ⟨hreached, hs, hgives, .refl⟩, hagent, hn, ?_⟩
        exact le_trans (by exact_mod_cast hgrows) hroom
      · have hle := loadOf_le_of_not_gives hgives
        rcases ih with hzero | ⟨w₁, w₂, agent, n, hlast, hagent, hn, hroom⟩
        · left
          omega
        · refine .inr ⟨w₁, w₂, agent, n, ⟨hlast.before, hlast.step, hlast.gives,
            hlast.since.tail ⟨hs, hgives⟩⟩, hagent, hn, ?_⟩
          exact le_trans (Int.ofNat_le.mpr hle) hroom

theorem createdReady_of_reached (hstart : Unplanned start.db) (h : Reached start w) :
    ∀ e ∈ createdAll w.db, CreatedReady start w e := by
  induction h with
  | refl =>
      intro e he
      rw [hstart.createdAll] at he
      cases he
  | @tail w w' hreached hs ih =>
      obtain ⟨runId, ps, es, hfacts⟩ := hs.facts (planned_of_reached hstart hreached)
      have hwrote := hfacts.writes.wrote
      intro e he
      rw [createdAll_wrote hwrote] at he
      rcases List.mem_append.mp he with hold | hnew
      · obtain ⟨w₁, w₂, hbefore, hstep, hafter, hrest⟩ := ih e hold
        exact ⟨w₁, w₂, hbefore, hstep, hafter.tail hs, hrest⟩
      · obtain ⟨hmem, hcreated⟩ := List.mem_filter.mp hnew
        obtain ⟨p, hp, hcreates⟩ := hfacts.writes.proposal hmem (of_decide_eq_true hcreated)
        have hrows := hwrote.rows
        refine ⟨w, w', hreached, hs, .refl, ?_, ?_, p.stageId, ?_, ?_⟩
        · intro hin
          have hnodup := w'.db.events.nodup
          rw [hrows, List.map_append, List.nodup_append'] at hnodup
          exact hnodup.2.2 (List.mem_map_of_mem hin) (List.mem_map_of_mem hmem)
        · rw [hrows]
          exact List.mem_append_right _ hmem
        · obtain ⟨c, -, hfor⟩ := hcreates
          exact hfor.stage
        · rw [hcreates.run]
          exact hfacts.checked.ready p hp

/-- At most one active lease of a run is for a stage. -/
theorem Planned.stage_le (h : Planned w.db) (runId stageId : String) :
    (w.db.activeLeasesOf (some runId)).countP
      (fun lease => truthyText (lease.get? "stage_id") = some stageId) ≤ 1 := by
  have hcount : (w.db.activeLeasesOf (some runId)).countP
      (fun lease => truthyText (lease.get? "stage_id") = some stageId) =
      (w.db.leaseIds (fun lease => ofRun runId lease &&
        decide (truthyText (lease.get? "stage_id") = some stageId))).length := by
    rw [← countP_leases]
    unfold Database.activeLeasesOf Database.snapshotOf
    rw [List.filter_true, List.countP_filter, List.countP_filter, List.countP_filter]
    refine List.countP_congr ?_
    intro row _
    simp [ofRun]
    tauto
  have hlease : ∀ id ∈ w.db.leaseIds (fun lease => ofRun runId lease &&
      decide (truthyText (lease.get? "stage_id") = some stageId)), ∃ row agentId,
      w.db.loadProjection "lease" id = some row ∧ LeaseActive row ∧
        LeaseIs row runId stageId agentId := by
    intro id hid
    obtain ⟨row, hrow, hactive, hcond⟩ := mem_leaseIds.mp hid
    obtain ⟨hrun, hstage⟩ := Bool.and_eq_true_iff.mp hcond
    rcases h.leases id row hrow with hterminal | ⟨hactive', -, r, s, a, his, -⟩
    · exact absurd hactive (not_active_of_terminal hterminal)
    · have heq : row.get? "run_id" = some (.str runId) := of_decide_eq_true hrun
      have htext := of_decide_eq_true hstage
      rw [his.run] at heq
      rw [his.stage] at htext
      obtain rfl := Json.str.inj (Option.some.inj heq)
      rw [truthyText_str htext] at his
      exact ⟨row, a, hrow, hactive', his⟩
  rw [hcount, ← List.toFinset_card_of_nodup nodup_leaseIds, Finset.card_le_one]
  intro id hid id' hid'
  obtain ⟨row, agentId, hrow, hactive, his⟩ := hlease id (List.mem_toFinset.mp hid)
  obtain ⟨row', agentId', hrow', hactive', his'⟩ := hlease id' (List.mem_toFinset.mp hid')
  exact h.stages id row hrow hactive id' row' hrow' hactive' runId stageId agentId agentId' his his'

/-- **The plans of the runs with a contract**, in every state of every run. -/
theorem plan_invariants (hstart : Unplanned start.db) (h : Reached start w) :
    PlanInvariants start w where
  revisions := (planned_of_reached hstart h).revisions
  stages := (planned_of_reached hstart h).stage_le
  team := (planned_of_reached hstart h).team
  loads := withinLast_of_reached hstart h
  attempts := (planned_of_reached hstart h).attempts
  ids := (planned_of_reached hstart h).ids
  created := createdReady_of_reached hstart h

end runs

/-! ### A first attempt -/

/-- A submission for a run with a contract is steps of a run. -/
theorem reached_of_submission {c : CommandCandidate} {k : TeamContract} {α : Type}
    {p p' : Program (withStore kernelInterface) α} {w w' : StoreWorld}
    (h : Program.Reaches kernelStep p w p' w')
    (hp : ∀ op, p.CanRequest anyReply op → (submit controlKernel none c).CanRequest anyReply op)
    (hk : w.db.ContractIs c.runId (some k)) : Reached w w' := by
  induction h with
  | refl => exact .refl
  | @step op next r w w₁ _ _ hs _ ih =>
      have hop := hp op (.inl rfl)
      have hcontract : w.db.contractOf c.runId ≠ none := by
        intro hnone
        rw [Database.ContractIs, hnone] at hk
        cases hk
      have hcall : KernelCall anyReply controlKernel c op :=
        (calls_submit anyReply controlKernel none c).canRequest hop
      have hk' : w₁.db.ContractIs c.runId (some k) := by
        cases hcall.effect hs with
        | noted es hwrote _ => exact contractIs_wrote hk hwrote
        | accepted es haccepted _ => exact contractIs_wrote hk haccepted.accepted.wrote
      refine .head (.submission hop hs hcontract) (ih ?_ hk')
      exact fun op' hop' => hp op' (.inr ⟨r, trivial, hop'⟩)

/-- After its first patch the run has an assignment, with a lease, and all of it holds. -/
theorem plan_invariants_first : PlanInvariants attemptRun firstAttempt ∧
    (createdIn firstAttempt.db "run-a").length = 1 ∧ firstAttempt.db.loadOf "builder" = 1 :=
  ⟨plan_invariants (by decide +kernel) (reached_of_submission (c := firstPatch) (k := oneAttempt)
    (aloneAt.after_reaches 30 _ _) (fun _ h => h) (by decide +kernel)), by decide +kernel,
    by decide +kernel⟩

end CrazyHarness
