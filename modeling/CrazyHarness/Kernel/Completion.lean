import CrazyHarness.Kernel.AgentRuns
import CrazyHarness.Kernel.Attempts

/-! # The completion gate

`COMPLETE` compares the types of the events in the log of its run with those that the contract of the
run declares, and that is all: which stages have a result is written in the rows of the assignments,
and a contract may declare no completion event type for a stage, or one type for two of them.

What a run that has succeeded tells about its stages is `completion_gate`: every declared type is in
the log, so a stage whose completion event is the record of its own result, and of no other stage's,
is done, and so are the stages it depends on (`Certified`). -/

namespace CrazyHarness

open Lib

/-! ### The rows of a run -/

/-- The row of an assignment of the run. -/
structure RunRow (db : Database) (runId assignmentId : String) (row : Dict) : Prop where
  loaded : db.loadProjection "assignment" assignmentId = some row
  run : row.get? "run_id" = some (.str runId)

/-- The stage has an assignment of the run that has succeeded or completed. -/
def StageDone (db : Database) (runId stageId : String) : Prop :=
  ∃ assignmentId row, RunRow db runId assignmentId row ∧
    row.get? "stage_id" = some (.str stageId) ∧ hasStatus row ["succeeded", "completed"]

section rows

variable {runId assignmentId : String} {db db' : Database} {es : List Event} {row row' : Dict}

/-- A row of the run is kept, up to its status, and stays as it is once it has ended. -/
theorem RunRow.wrote (h : RunRow db runId assignmentId row) (hw : db.Wrote es db')
    (hspares : SparesRows db runId es) :
    ∃ row', RunRow db' runId assignmentId row' ∧ Database.SameAssignment row row' ∧
      (assignmentTerminal (row.get? "status") → row' = row) := by
  have hnot : ∀ e ∈ es, e.type = "assignment.created" → e.assignmentOf ≠ some assignmentId := by
    intro e he hcreated hid
    refine hspares e he hcreated assignmentId hid ?_
    rw [h.loaded]
    exact h.run
  obtain ⟨row', hfold, hsame⟩ := @Database.assignmentFold_keeps es assignmentId row hnot
  refine ⟨row', ⟨?_, (hsame _ (by decide) (by decide)).trans h.run⟩, hsame, ?_⟩
  · rw [hw.assignment, h.loaded]
    exact hfold
  · intro hended
    rw [Database.assignmentFold_of_terminal hended hnot] at hfold
    exact (Option.some.inj hfold).symm

/-- A row of the run was one before, or an event of the run has created it. -/
theorem RunRow.before (h : RunRow db' runId assignmentId row') (hw : db.Wrote es db') :
    (∃ row, RunRow db runId assignmentId row ∧ Database.SameAssignment row row') ∨
      ∃ e ∈ es, e.type = "assignment.created" ∧ e.runId = runId ∧
        Database.SameAssignment (createdAssignment e) row' := by
  have hload := h.loaded
  rw [hw.assignment] at hload
  rcases Database.assignmentFold_cases hload with ⟨row, hrow, hsame⟩ | ⟨e, he, hcreated, -, hsame⟩
  · refine .inl ⟨row, ⟨hrow, ?_⟩, hsame⟩
    rw [← hsame _ (by decide) (by decide)]
    exact h.run
  · refine .inr ⟨e, he, hcreated, ?_, hsame⟩
    have hrun := (hsame "run_id" (by decide) (by decide)).symm.trans h.run
    simpa [createdAssignment] using hrun

/-- A status that ends an assignment does so however it is read. -/
theorem terminal_of_hasStatus {statuses : List String} (h : hasStatus row statuses)
    (hended : ∀ s ∈ statuses, 'T' ∉ s.toList ∧ assignmentTerminal (some (.str s))) :
    assignmentTerminal (row.get? "status") := by
  unfold hasStatus at h
  obtain ⟨s, hs, hmem⟩ := (Option.any_eq_true _ _).mp h
  obtain ⟨v, hv, htext⟩ := Option.bind_eq_some_iff.mp hs
  obtain ⟨hplain, hterminal⟩ := hended s (of_decide_eq_true hmem)
  rw [hv, Json.eq_str_of_asStr htext hplain]
  exact hterminal

/-- A stage that is done stays so. -/
theorem StageDone.wrote {stageId : String} (h : StageDone db runId stageId) (hw : db.Wrote es db')
    (hspares : SparesRows db runId es) : StageDone db' runId stageId := by
  obtain ⟨assignmentId, row, hrow, hstage, hstatus⟩ := h
  obtain ⟨row', hrow', -, hkept⟩ := hrow.wrote hw hspares
  obtain rfl := hkept (terminal_of_hasStatus hstatus (by decide))
  exact ⟨assignmentId, row', hrow', hstage, hstatus⟩

/-- What a snapshot shows is a projection. -/
theorem loadProjection_of_snapshotOf {run : Option String} {kind : String}
    (h : row ∈ db.snapshotOf run kind) : ∃ entityId, db.loadProjection kind entityId = some row := by
  unfold Database.snapshotOf at h
  obtain ⟨r, hr, rfl⟩ := List.mem_map.mp (List.mem_filter.mp h).1
  obtain ⟨hr, hkind⟩ := List.mem_filter.mp ((List.mem_insertionSort _).mp hr)
  have hkey : r.kind = kind := of_decide_eq_true hkind
  refine ⟨r.entityId, ?_⟩
  unfold Database.loadProjection
  rw [← hkey]
  exact Option.map_eq_some_iff.mpr ⟨r, Table.lookup_of_mem hr, rfl⟩

theorem runRow_of_snapshotOf (h : row ∈ db.snapshotOf (some runId) "assignment") :
    ∃ assignmentId, RunRow db runId assignmentId row := by
  obtain ⟨assignmentId, hload⟩ := loadProjection_of_snapshotOf h
  unfold Database.snapshotOf at h
  exact ⟨assignmentId, hload, by simpa using (List.mem_filter.mp h).2⟩

end rows

/-! ### The invariant -/

/-- The kinds of results. -/
def recordKinds : List String := ["evidence", "artifact", "review"]

/-- The kernel says that the run has succeeded. -/
def IsSuccess (e : Event) : Prop := e.type = "run.succeeded" ∧ e.source = "control.kernel"

/-- An event that only the kernel writes: it creates or ends an assignment, records a result, or says
that the run has succeeded. -/
def IsKernelFact (e : Event) : Prop :=
  e.type = "assignment.created" ∨ e.type = "assignment.succeeded" ∨
    (∃ name ∈ recordKinds, e.type = name ++ ".recorded") ∨ IsSuccess e

/-- Every completion event type of the contract is in the log of the run. -/
def GatePassed (db : Database) (runId : String) (k : TeamContract) : Prop :=
  ∀ type ∈ k.completionEventTypes, ∃ e ∈ db.readRun runId, e.type = type

/-- The stage of the contract and the kind of its result are those of the assignment, and the stages
that it depends on are done. -/
def OfStage (db : Database) (runId : String) (k : TeamContract) (stageId resultKind : Option Json) :
    Prop :=
  ∃ stage ∈ k.stages, stageId = some (.str stage.stageId) ∧
    resultKind = some (.str stage.resultKind) ∧
    ∀ dependency ∈ stage.dependsOn, StageDone db runId dependency

/-- What the log of a run with a contract and the rows of its assignments say of each other. -/
structure Gated (runId : String) (k : TeamContract) (db : Database) : Prop where
  contract : db.ContractIs runId (some k)
  owner : ∀ assignmentId row, db.loadProjection "assignment" assignmentId = some row →
    (row.get? "run_id").bind Json.asStr = some runId → row.get? "run_id" = some (.str runId)
  rows : ∀ assignmentId row, RunRow db runId assignmentId row →
    OfStage db runId k (row.get? "stage_id") (row.get? "result_kind")
  records : ∀ e ∈ db.readRun runId, ∀ name ∈ recordKinds, e.type = name ++ ".recorded" →
    ∃ assignmentId row, RunRow db runId assignmentId row ∧
      row.get? "result_kind" = some (.str name) ∧ row.get? "status" = some (.str "succeeded")
  ends : ∀ e ∈ db.readRun runId, e.type = "assignment.succeeded" → ∀ id, e.assignmentOf = some id →
    ∃ row, RunRow db runId id row ∧ assignmentTerminal (row.get? "status")
  gate : ∀ e ∈ db.readRun runId, IsSuccess e → GatePassed db runId k

section gated

variable {runId : String} {k : TeamContract} {db db' : Database} {es : List Event}

theorem mem_readRun_wrote (hw : db.Wrote es db') {e : Event} :
    e ∈ db'.readRun runId ↔ e ∈ db.readRun runId ∨ e ∈ es ∧ e.runId = runId := by
  unfold Database.readRun
  simp only [hw.rows, List.mem_filter, List.mem_append, decide_eq_true_eq]
  tauto

theorem OfStage.wrote {stageId resultKind : Option Json} (h : OfStage db runId k stageId resultKind)
    (hw : db.Wrote es db') (hspares : SparesRows db runId es) :
    OfStage db' runId k stageId resultKind := by
  obtain ⟨stage, hmem, hstage, hkind, hdone⟩ := h
  exact ⟨stage, hmem, hstage, hkind, fun d hd => (hdone d hd).wrote hw hspares⟩

theorem GatePassed.wrote (h : GatePassed db runId k) (hw : db.Wrote es db') :
    GatePassed db' runId k := by
  intro type htype
  obtain ⟨e, he, heq⟩ := h type htype
  exact ⟨e, (mem_readRun_wrote hw).mpr (.inl he), heq⟩

/-- What new events of the run have to say the truth about. -/
structure Truthful (runId : String) (k : TeamContract) (db db' : Database) (e : Event) : Prop where
  created : e.type = "assignment.created" →
    OfStage db runId k (e.get? "stage_id") (e.get? "result_kind")
  record : ∀ name ∈ recordKinds, e.type = name ++ ".recorded" →
    ∃ assignmentId row, RunRow db' runId assignmentId row ∧
      row.get? "result_kind" = some (.str name) ∧ row.get? "status" = some (.str "succeeded")
  ends : e.type = "assignment.succeeded" → ∀ id, e.assignmentOf = some id →
    ∃ row, RunRow db' runId id row ∧ assignmentTerminal (row.get? "status")
  gate : IsSuccess e → GatePassed db runId k

/-- An event of another kind says nothing of it. -/
theorem truthful_of_not {e : Event} (h : ¬ IsKernelFact e) : Truthful runId k db db' e where
  created := fun htype => absurd (.inl htype) h
  record := fun name hname htype => absurd (.inr (.inr (.inl ⟨name, hname, htype⟩))) h
  ends := fun htype => absurd (.inr (.inl htype)) h
  gate := fun hsuccess => absurd (.inr (.inr (.inr hsuccess))) h

/-- Events of the run that say the truth keep the invariant. -/
theorem Gated.wrote (h : Gated runId k db) (hw : db.Wrote es db') (hspares : SparesRows db runId es)
    (hes : ∀ e ∈ es, e.runId = runId → Truthful runId k db db' e) : Gated runId k db' where
  contract := contractIs_wrote h.contract hw
  owner := by
    intro assignmentId row' hload hrun
    rw [hw.assignment] at hload
    rcases Database.assignmentFold_cases hload with ⟨row, hrow, hsame⟩ | ⟨e, -, -, -, hsame⟩
    · rw [hsame _ (by decide) (by decide)] at hrun ⊢
      exact h.owner assignmentId row hrow hrun
    · rw [hsame _ (by decide) (by decide)] at hrun ⊢
      simpa [createdAssignment] using hrun
  rows := by
    intro assignmentId row' hrow'
    rcases hrow'.before hw with ⟨row, hrow, hsame⟩ | ⟨e, he, hcreated, hrun, hsame⟩
    · rw [hsame _ (by decide) (by decide), hsame _ (by decide) (by decide)]
      exact (h.rows assignmentId row hrow).wrote hw hspares
    · have hstage := ((hes e he hrun).created hcreated).wrote hw hspares
      rw [hsame _ (by decide) (by decide), hsame _ (by decide) (by decide)]
      simpa [createdAssignment, Dict.get?_cons, Event.get?] using hstage
  records := by
    intro e he name hname htype
    rcases (mem_readRun_wrote hw).mp he with hold | ⟨hnew, hrun⟩
    · obtain ⟨assignmentId, row, hrow, hkind, hstatus⟩ := h.records e hold name hname htype
      obtain ⟨row', hrow', -, hkept⟩ := hrow.wrote hw hspares
      have hended : assignmentTerminal (row.get? "status") := by
        rw [hstatus]
        decide
      obtain rfl := hkept hended
      exact ⟨assignmentId, row', hrow', hkind, hstatus⟩
    · exact (hes e hnew hrun).record name hname htype
  ends := by
    intro e he htype id hid
    rcases (mem_readRun_wrote hw).mp he with hold | ⟨hnew, hrun⟩
    · obtain ⟨row, hrow, hended⟩ := h.ends e hold htype id hid
      obtain ⟨row', hrow', -, hkept⟩ := hrow.wrote hw hspares
      obtain rfl := hkept hended
      exact ⟨row', hrow', hended⟩
    · exact (hes e hnew hrun).ends htype id hid
  gate := by
    intro e he hsuccess
    rcases (mem_readRun_wrote hw).mp he with hold | ⟨hnew, hrun⟩
    · exact (h.gate e hold hsuccess).wrote hw
    · exact ((hes e hnew hrun).gate hsuccess).wrote hw

end gated

/-! ### Acceptances -/

section acceptance

variable {c : CommandCandidate} {k : TeamContract} {db db' : Database} {es : List Event}

/-- An event of an acceptance is of its run, and of a type of its kind. -/
theorem Accepted.fact (h : Accepted c db es db') :
    ∀ e ∈ es, e.runId = c.runId ∧ e.type ∈ "candidate.accepted" :: factTypes c.kind := by
  obtain ⟨acceptedAt, ds, hds, hmem⟩ := h.mem
  intro e he
  rcases hmem e he with rfl | ⟨d, hd, createdAt, rfl⟩
  · exact ⟨rfl, List.mem_cons_self⟩
  · exact ⟨rfl, List.mem_cons_of_mem _ (type_of_drafts hds d hd)⟩

/-- The kind of the command behind a fact. -/
theorem kind_of_fact (kind : CommandKind) : ∀ type ∈ "candidate.accepted" :: factTypes kind,
    (type = "assignment.created" → kind = .planPatch) ∧
    (type = "assignment.succeeded" → kind ∈ leasedResultKinds) ∧
    (∀ name ∈ recordKinds, type = name ++ ".recorded" →
      kind ∈ leasedResultKinds ∧ kind.value = name) ∧
    (type = "run.succeeded" → kind = .complete) := by
  cases kind <;> decide

theorem drafts_result {acceptedAt : DateTime} {ds : List Draft}
    (hds : (drafts c acceptedAt).Yields ds) (hkind : c.kind ∈ leasedResultKinds) :
    ResultFacts c c.kind.value ds := by
  unfold drafts at hds
  simp only [leasedResultKinds, List.mem_cons, List.not_mem_nil, or_false] at hkind
  rcases hkind with hkind | hkind | hkind
  · simp only [hkind] at hds ⊢
    exact resultDrafts_yields hds
  · simp only [hkind] at hds ⊢
    exact resultDrafts_yields hds
  · simp only [hkind] at hds ⊢
    exact resultDrafts_yields hds

theorem names_result {id : String} (hkind : c.kind ∈ leasedResultKinds) (h : NamesAssignment c id) :
    truthyText (c.payload.get? "assignment_id") = some id := by
  unfold NamesAssignment at h
  simp only [leasedResultKinds, List.mem_cons, List.not_mem_nil, or_false] at hkind
  rcases hkind with hkind | hkind | hkind <;> simpa only [hkind] using h

/-- What creates an assignment in a run with a contract is for one of its stages. -/
theorem Accepted.created_ofStage (h : Accepted c db es db') (hg : Gated c.runId k db) {e : Event}
    (he : e ∈ es) (hcreated : e.type = "assignment.created") :
    OfStage db c.runId k (e.get? "stage_id") (e.get? "result_kind") := by
  have hkind := (kind_of_fact c.kind e.type (h.fact e he).2).1 hcreated
  obtain ⟨clock, hvalid⟩ := h.valid
  obtain ⟨team, hpasses⟩ := validateCandidate_passes hvalid
  have hchecks := hpasses.kind
  rw [validateKind, hkind] at hchecks
  obtain ⟨view, hview⟩ := validatePlanPatch_passes hchecks
  obtain ⟨qs, hforall, hsub⟩ := List.sublistForall₂_iff.mp (h.created hkind hview.payload)
  obtain ⟨p, hp, hcreates⟩ := forall₂_mem_right hforall.flip
    (List.mem_filter.mpr ⟨he, decide_eq_true hcreated⟩)
  have hfor : CreatedFor c e p := hcreates
  have hpassed := hview.proposals k (hview.contract.unique hg.contract) p (hsub.subset hp)
  obtain ⟨stage, hstage, hdepends, hresult⟩ := hpassed.stage
  have hstageId : stage.stageId = p.stageId := by
    simpa using List.find?_some hstage
  refine ⟨stage, List.mem_of_find?_eq_some hstage, ?_, ?_, ?_⟩
  · rw [hfor.stage, hstageId]
  · rw [hfor.resultKind, hresult]
  · intro dependency hdependency
    have hcompleted := hdepends hdependency
    rw [hview.completed, hview.assignments, completedStages] at hcompleted
    obtain ⟨row, hrow, htext⟩ := List.mem_filterMap.mp hcompleted
    obtain ⟨hrow, hstatus⟩ := List.mem_filter.mp hrow
    obtain ⟨id, hrunRow⟩ := runRow_of_snapshotOf hrow
    refine ⟨id, row, hrunRow, ?_, hstatus⟩
    obtain ⟨stage', -, hid, -⟩ := hg.rows id row hrunRow
    rw [hid] at htext
    rw [hid, truthyText_str htext]

/-- The assignment of a result that is accepted while it has not ended has succeeded then. -/
theorem Accepted.resultDone (h : Accepted c db es db') (hg : Gated c.runId k db)
    (hkind : c.kind ∈ leasedResultKinds)
    (hopen : ¬ assignmentTerminal ((db.assignmentOf c).bind (Dict.get? · "status"))) :
    ∃ id row, truthyText (c.payload.get? "assignment_id") = some id ∧ RunRow db' c.runId id row ∧
      row.get? "result_kind" = some (.str c.kind.value) ∧
      row.get? "status" = some (.str "succeeded") := by
  obtain ⟨clock, hvalid⟩ := h.valid
  obtain ⟨team, hpasses⟩ := validateCandidate_passes hvalid
  have hteam : team = some k := hpasses.contract.unique hg.contract
  have hchecks := hpasses.kind
  rw [validateKind_result hkind] at hchecks
  obtain ⟨⟨a, ha, hheld⟩, -⟩ := validateResult_passes hchecks (.inl (by rw [hteam]; rfl))
  rw [ha] at hopen
  obtain ⟨id, hid, hload⟩ := Option.bind_eq_some_iff.mp ha
  have hrow : RunRow db c.runId id a := ⟨hload, hg.owner id a hload hheld.run⟩
  obtain ⟨stage, -, -, hresult, -⟩ := hg.rows id a hrow
  have hvalue : a.get? "result_kind" = some (.str c.kind.value) := by
    have hmatches := hheld.kind
    rw [Dict.getD, hresult] at hmatches
    rw [hresult]
    simpa using hmatches
  obtain ⟨acceptedAt, ds, formal, hds, hstamped, -, hpresent⟩ := h.facts
  obtain ⟨v, stageId, released, body, hv, -, rfl⟩ := (drafts_result hds hkind).drafts
  -- The event that ends the assignment is new: an older one would have ended it before.
  have hends : ∃ e ∈ es, e.assignmentOf = some id := by
    obtain ⟨f₀, hf₀, createdAt, rfl⟩ := forall₂_mem_right hstamped.flip (b := {
      suffix := c.kind.value ++ "-assignment-succeeded", type := "assignment.succeeded",
      body := [("assignment_id", v), ("stage_id", stageId)] }) (by simp)
    obtain ⟨f, hf, hsame⟩ := hpresent _ (List.mem_cons_of_mem _ hf₀)
    have htype : f.type = "assignment.succeeded" := congrArg Event.type hsame
    have hrun : f.runId = c.runId := congrArg Event.runId hsame
    have hpayload : f.payload = [("assignment_id", v), ("stage_id", stageId)] :=
      congrArg Event.payload hsame
    have hfid : f.assignmentOf = some id := by
      rw [Event.assignmentOf, htype, Event.get?, hpayload, ← hid, hv]
      rfl
    rcases (mem_readRun_wrote h.wrote).mp
      (List.mem_filter.mpr ⟨hf, decide_eq_true hrun⟩) with hold | ⟨hnew, -⟩
    · obtain ⟨row, hrow', hended⟩ := hg.ends f hold htype id hfid
      rw [hrow'.loaded] at hload
      obtain rfl := Option.some.inj hload
      exact absurd hended hopen
    · exact ⟨f, hnew, hfid⟩
  have honly : ∀ e ∈ es, e.assignmentOf = some id → e.type = "assignment.succeeded" := by
    have htypes : ∀ kind ∈ leasedResultKinds, ∀ type ∈ "candidate.accepted" :: factTypes kind,
        type ≠ "assignment.succeeded" → type ≠ "assignment.created" ∧
          assignmentStatusByType.lookup type = none := by
      decide
    intro e he heid
    by_contra hne
    obtain ⟨hcreated, hlookup⟩ := htypes c.kind hkind e.type (h.fact e he).2 hne
    rw [Event.assignmentOf, if_neg hcreated, hlookup] at heid
    cases heid
  obtain ⟨row, hfold, hsame, hstatus⟩ := Database.assignmentFold_succeeded hopen honly hends
  refine ⟨id, row, hid, ⟨?_, ?_⟩, ?_, hstatus⟩
  · rw [h.wrote.assignment, hload]
    exact hfold
  · rw [hsame _ (by decide) (by decide)]
    exact hrow.run
  · rw [hsame _ (by decide) (by decide)]
    exact hvalue

end acceptance

/-! ### What the gate has read -/

/-- The replies that a call may have got since the start. -/
def SeenSince (start w : StoreWorld) : Replies := fun op r =>
  ∃ w₀ w₁, start.db.events.rows <+: w₀.db.events.rows ∧ w₀.db.events.rows <+: w.db.events.rows ∧
    kernelStep w₀ op r w₁

section gate

variable {c : CommandCandidate} {k : TeamContract} {R : (op : ReadOp) → op.Reply → Prop}
  {runId : String}

theorem canReturn_read {α : Type} {op : ReadOp} {f : op.Reply → Check α} {r : Except Refusal α} :
    Program.CanReturn R (ExceptT.run (Check.read op >>= f)) r ↔
      ∃ reply, R op reply ∧ Program.CanReturn R (ExceptT.run (f reply)) r := Iff.rfl

/-- The contract of a run is read from its log. -/
theorem readTeamContract_yields {team : Option TeamContract}
    (h : (readTeamContract runId).YieldsIn R team) :
    ∃ events : List Event, R (.readRun runId) events ∧
      ∀ db : Database, db.readRun runId = events → db.ContractIs runId team := by
  unfold readTeamContract at h
  obtain ⟨r, hr, hteam⟩ := Program.canReturn_bind.mp h
  have hok : r = .ok team := by
    cases r with
    | ok contract => rw [Except.ok.inj hteam]
    | error refusal => cases refusal <;> cases hteam
  subst hok
  unfold persistedTeamContract Check.readRun at hr
  obtain ⟨events, hevents, hr⟩ := canReturn_read.mp hr
  refine ⟨events, hevents, ?_⟩
  intro db hdb
  have hwithin : (persistedTeamContract runId).within db ⟨0, none⟩ = .ok team := by
    unfold persistedTeamContract
    rw [Check.bind_passes]
    refine ⟨events, readRun_passes.mpr hdb, ?_⟩
    dsimp only at hr ⊢
    -- Nothing is read after the log, so what the code can return there is its value.
    generalize (events.find? (fun e => e.type = "run.created")).bind
      (fun e => e.get? "team_contract") = stored at hr ⊢
    cases stored with
    | none => exact hr
    | some v =>
        cases hcontract : TeamContract.ofJson v with
        | none => cases v <;> simp only [hcontract] at hr ⊢ <;> exact hr
        | some contract => cases v <;> simp only [hcontract] at hr ⊢ <;> exact hr
  exact persistedTeamContract_passes.mp hwithin

/-- A command that completes its run has found every required type in the log. -/
theorem completeDrafts_yields {ds : List Draft} (h : (completeDrafts c).YieldsIn R ds) {d : Draft}
    (hd : d ∈ ds) (htype : d.type = "run.succeeded") :
    ∃ (events : List Event) (team : Option TeamContract), R (.readRun c.runId) events ∧
      (readTeamContract c.runId).YieldsIn R team ∧
      ∀ type ∈ completionRequirements team, ∃ e ∈ events, e.type = type := by
  unfold completeDrafts at h
  obtain ⟨events, hevents, h⟩ := ReadM.yields_bind.mp h
  obtain ⟨team, hteam, h⟩ := ReadM.yields_bind.mp h
  refine ⟨events, team, ReadM.yields_read.mp hevents, hteam, ?_⟩
  dsimp only at h
  split at h
  next hmissing =>
    intro type hrequired
    by_contra hno
    push Not at hno
    have hin : type ∈ (completionRequirements team \ (events.map Event.type).toFinset).sort (· ≤ ·) := by
      rw [Finset.mem_sort, Finset.mem_sdiff]
      refine ⟨hrequired, ?_⟩
      intro hmem
      obtain ⟨e, he, heq⟩ := List.mem_map.mp (List.mem_toFinset.mp hmem)
      exact hno e he heq
    rw [hmissing] at hin
    cases hin
  next =>
    rw [← ReadM.yields_pure.mp h] at hd
    simp only [List.mem_cons, List.not_mem_nil, or_false] at hd
    rcases hd with rfl | rfl | rfl <;> exact absurd htype (by simp)

theorem readRun_seen {start w : StoreWorld} {events : List Event}
    (h : (SeenSince start w).reads (.readRun runId) events) :
    ∃ db : Database, start.db.events.rows <+: db.events.rows ∧
      db.events.rows <+: w.db.events.rows ∧ db.readRun runId = events := by
  obtain ⟨w₀, w₁, hstart, hw, now, -, hreply, -⟩ := h
  exact ⟨w₀.db, hstart, hw, hreply.symm⟩

/-- What an acceptance says of the success of its run, its gate has passed. -/
theorem Acceptance.gatePassed {start w : StoreWorld} {es : List Event} {db' : Database}
    (h : Acceptance (SeenSince start w) controlKernel c w.db es db')
    (hstart : start.db.ContractIs c.runId (some k)) (hkind : c.kind = .complete) {e : Event}
    (he : e ∈ es) (htype : e.type = "run.succeeded") : GatePassed w.db c.runId k := by
  obtain ⟨acceptedAt, formal, hformal, hsub, -⟩ := h.formal
  obtain ⟨ds, hds, hstamped⟩ := materialize_yields hformal
  cases List.mem_cons.mp (hsub.subset he) with
  | inl heq =>
      rw [heq] at htype
      exact absurd htype (show ¬ "candidate.accepted" = "run.succeeded" by decide)
  | inr hmem =>
      obtain ⟨d, hd, createdAt, rfl⟩ := forall₂_mem_right hstamped hmem
      unfold drafts at hds
      simp only [hkind] at hds
      obtain ⟨events, team, hevents, hteam, hpassed⟩ := completeDrafts_yields hds hd htype
      obtain ⟨seen, hseen, hcontract⟩ := readTeamContract_yields hteam
      obtain ⟨db₁, hstart₁, -, hread₁⟩ := readRun_seen hseen
      obtain ⟨db₂, -, hw₂, hread₂⟩ := readRun_seen hevents
      have hk : team = some k :=
        (hcontract db₁ hread₁).unique (contractIs_grown hstart hstart₁)
      rw [hk, completionRequirements] at hpassed
      intro type hrequired
      obtain ⟨f, hf, heq⟩ := hpassed type hrequired
      rw [← hread₂] at hf
      exact ⟨f, (hw₂.filter _).subset hf, heq⟩

end gate

/-! ### Runs -/

/-- The command plays fair with the run: no result is for an assignment that has ended, and no patch
of another run creates anew an assignment of this one. -/
structure Orderly (runId : String) (db : Database) (c : CommandCandidate) : Prop where
  results : c.kind ∈ leasedResultKinds → c.runId = runId →
    ¬ assignmentTerminal ((db.assignmentOf c).bind (Dict.get? · "status"))
  spares : c.kind = .planPatch → c.runId ≠ runId → ∀ id, Proposes c id →
    ownerOf (db.loadProjection "assignment" id) ≠ some (.str runId)

/-- One step of the program: a call of some submission, with replies that calls have got since the
start, in any order with those of others; or what other code writes, which leaves the facts of the
kernel to it. -/
inductive GateStep (runId : String) (start : StoreWorld) : StoreWorld → StoreWorld → Prop
  | submission {w w' : StoreWorld} {dispatch : Option DispatchContext} {c : CommandCandidate}
      {op : (withStore kernelInterface).Op} {r : (withStore kernelInterface).Reply op}
      (hop : (submit controlKernel dispatch c).CanRequest (SeenSince start w) op)
      (hstep : kernelStep w op r w') (horderly : CommitsAcceptance op → Orderly runId w.db c) :
      GateStep runId start w w'
  | other {w w' : StoreWorld} {es : List Event} (hw : w.db.Wrote es w'.db)
      (hspares : SparesRows w.db runId es) (hes : ∀ e ∈ es, e.runId = runId → ¬ IsKernelFact e) :
      GateStep runId start w w'

/-- A run with a contract in which no assignment has been created. -/
structure Unstarted (runId : String) (k : TeamContract) (db : Database) : Prop where
  contract : db.ContractIs runId (some k)
  facts : ∀ e ∈ db.readRun runId, ¬ IsKernelFact e
  rows : ∀ assignmentId row, db.loadProjection "assignment" assignmentId = some row →
    (row.get? "run_id").bind Json.asStr ≠ some runId

section runs

variable {runId : String} {k : TeamContract} {start w w' : StoreWorld}

theorem Unstarted.gated {db : Database} (h : Unstarted runId k db) : Gated runId k db where
  contract := h.contract
  owner := fun assignmentId row hload hrun => absurd hrun (h.rows assignmentId row hload)
  rows := by
    intro assignmentId row hrow
    refine absurd ?_ (h.rows assignmentId row hrow.loaded)
    rw [hrow.run]
    rfl
  records := fun e he name hname htype =>
    absurd (.inr (.inr (.inl ⟨name, hname, htype⟩))) (h.facts e he)
  ends := fun e he htype => absurd (.inr (.inl htype)) (h.facts e he)
  gate := fun e he hsuccess => absurd (.inr (.inr (.inr hsuccess))) (h.facts e he)

theorem Gated.accepted {c : CommandCandidate} {es : List Event} {db' : Database}
    (h : Gated runId k w.db) (hstart : start.db.ContractIs runId (some k))
    (ha : Acceptance (SeenSince start w) controlKernel c w.db es db')
    (horderly : Orderly runId w.db c) : Gated runId k db' := by
  have hspares : SparesRows w.db runId es := by
    intro e he hcreated id hid
    obtain ⟨-, hnames, hpatch, -⟩ := ha.accepted.moves e he
    have hproposes := hnames id hid
    rw [NamesAssignment, hpatch hcreated] at hproposes
    by_cases hrun : c.runId = runId
    · -- In the run itself the identifiers are new.
      obtain ⟨clock, hvalid⟩ := ha.accepted.valid
      obtain ⟨team, hpasses⟩ := validateCandidate_passes hvalid
      have hchecks := hpasses.kind
      rw [validateKind, hpatch hcreated] at hchecks
      obtain ⟨view, hview⟩ := validatePlanPatch_passes hchecks
      obtain ⟨patch, hpayload, p, hp, rfl⟩ := hproposes
      rw [hview.payload] at hpayload
      obtain rfl := Option.some.inj hpayload
      have hk : view.contract = some k := hview.contract.unique (by rw [hrun]; exact h.contract)
      rw [(hview.proposals k hk p hp).fresh]
      intro howner
      cases howner
    · exact horderly.spares (hpatch hcreated) hrun id hproposes
  refine h.wrote ha.wrote hspares ?_
  intro e he hrun
  obtain ⟨hsame, htype⟩ := ha.accepted.fact e he
  obtain rfl : c.runId = runId := hsame.symm.trans hrun
  obtain ⟨-, hends, hrecords, hsuccess⟩ := kind_of_fact c.kind e.type htype
  constructor
  · exact ha.accepted.created_ofStage h he
  · intro name hname hname'
    obtain ⟨hkind, rfl⟩ := hrecords name hname hname'
    obtain ⟨id, row, -, hrow, hresult, hstatus⟩ :=
      ha.accepted.resultDone h hkind (horderly.results hkind rfl)
    exact ⟨id, row, hrow, hresult, hstatus⟩
  · intro hended id hid
    have hkind := hends hended
    obtain ⟨id', row, hid', hrow, -, hstatus⟩ :=
      ha.accepted.resultDone h hkind (horderly.results hkind rfl)
    obtain ⟨-, hnames, -⟩ := ha.accepted.moves e he
    rw [names_result hkind (hnames id hid)] at hid'
    obtain rfl := Option.some.inj hid'
    refine ⟨row, hrow, ?_⟩
    rw [hstatus]
    decide
  · rintro ⟨hsucceeded, -⟩
    exact ha.gatePassed hstart (hsuccess hsucceeded) he hsucceeded

theorem Gated.step (h : Gated runId k w.db) (hstart : start.db.ContractIs runId (some k))
    (hs : GateStep runId start w w') : Gated runId k w'.db := by
  cases hs with
  | other hw hspares hes =>
      exact h.wrote hw hspares (fun e he hrun => truthful_of_not (hes e he hrun))
  | @submission dispatch c op r hop hstep horderly =>
      have hcall : KernelCall (SeenSince start w) controlKernel c op :=
        (calls_submit (SeenSince start w) controlKernel dispatch c).canRequest hop
      cases hcall.effect hstep with
      | accepted es haccepted hcommits => exact h.accepted hstart haccepted (horderly hcommits)
      | noted es hwrote hnotes =>
          have hnote : ∀ e ∈ es, ¬ IsKernelFact e := by
            have htypes : ∀ type ∈ candidateNotes, type ≠ "assignment.created" ∧
                type ≠ "assignment.succeeded" ∧ (∀ name ∈ recordKinds, type ≠ name ++ ".recorded") ∧
                type ≠ "run.succeeded" := by
              decide
            intro e he hfact
            obtain ⟨hcreated, hended, hrecord, hsucceeded⟩ := htypes e.type (hnotes e he).2.2
            rcases hfact with htype | htype | ⟨name, hname, htype⟩ | ⟨htype, -⟩
            · exact hcreated htype
            · exact hended htype
            · exact hrecord name hname htype
            · exact hsucceeded htype
          refine h.wrote hwrote ?_ (fun e he _ => truthful_of_not (hnote e he))
          intro e he hcreated
          exact absurd (.inl hcreated) (hnote e he)

/-- The record of a result is the completion event of the stage, and of no other. -/
structure OwnsRecord (k : TeamContract) (stage : TeamStageSpec) : Prop where
  kind : stage.resultKind ∈ recordKinds
  declared : stage.completionEventType = some (stage.resultKind ++ ".recorded")
  alone : ∀ other ∈ k.stages, other.resultKind = stage.resultKind → other = stage

/-- The gate vouches for the stage: it owns its record, or such a stage depends on it, directly or
through others. -/
inductive Certified (k : TeamContract) : TeamStageSpec → Prop
  | record {stage : TeamStageSpec} (hmem : stage ∈ k.stages) (h : OwnsRecord k stage) :
      Certified k stage
  | dependency {stage dependency : TeamStageSpec} (h : Certified k stage)
      (hmem : dependency ∈ k.stages) (hdepends : dependency.stageId ∈ stage.dependsOn) :
      Certified k dependency

theorem Certified.mem {stage : TeamStageSpec} (h : Certified k stage) : stage ∈ k.stages := by
  cases h with
  | record hmem _ => exact hmem
  | dependency _ hmem _ => exact hmem

theorem Gated.stageDone {db : Database} (h : Gated runId k db) (hgate : GatePassed db runId k)
    {stage : TeamStageSpec} (hcertified : Certified k stage) : StageDone db runId stage.stageId := by
  induction hcertified with
  | @record stage hmem howns =>
      have hrequired : stage.resultKind ++ ".recorded" ∈ k.completionEventTypes :=
        List.mem_toFinset.mpr (List.mem_filterMap.mpr ⟨stage, hmem, howns.declared⟩)
      obtain ⟨e, he, htype⟩ := hgate _ hrequired
      obtain ⟨id, row, hrow, hkind, hstatus⟩ := h.records e he _ howns.kind htype
      obtain ⟨other, hother, hstage, hresult, -⟩ := h.rows id row hrow
      have hsame : other.resultKind = stage.resultKind :=
        Json.str.inj (Option.some.inj (hresult.symm.trans hkind))
      rw [howns.alone other hother hsame] at hstage
      refine ⟨id, row, hrow, hstage, ?_⟩
      rw [hasStatus, hstatus]
      decide
  | @dependency stage dependency hstage hmem hdepends ih =>
      obtain ⟨id, row, hrow, hid, -⟩ := ih
      obtain ⟨other, hother, hstageId, -, hdone⟩ := h.rows id row hrow
      have hsame : other.stageId = stage.stageId :=
        Json.str.inj (Option.some.inj (hstageId.symm.trans hid))
      have heq : other = stage :=
        List.inj_on_of_nodup_map k.graph.nodup hother hstage.mem hsame
      rw [heq] at hdone
      exact hdone _ hdepends

/-- **The completion gate**: where the kernel says that a run with a contract has succeeded, every
completion event type of the contract is in its log, and every stage that the gate vouches for is
done. -/
theorem completion_gate (hstart : Unstarted runId k start.db)
    (hrun : Relation.ReflTransGen (GateStep runId start) start w) {e : Event}
    (he : e ∈ w.db.readRun runId) (hsuccess : IsSuccess e) :
    GatePassed w.db runId k ∧ ∀ stage, Certified k stage → StageDone w.db runId stage.stageId := by
  have hgated : Gated runId k w.db := by
    clear he
    induction hrun with
    | refl => exact hstart.gated
    | tail _ hs ih => exact ih.step hstart.contract hs
  have hgate := hgated.gate e he hsuccess
  exact ⟨hgate, fun stage hcertified => hgated.stageDone hgate hcertified⟩

end runs

/-! ### A run that succeeds -/

instance : DecidablePred IsSuccess := fun _ => inferInstanceAs (Decidable (_ ∧ _))

instance : DecidablePred IsKernelFact := fun e =>
  inferInstanceAs (Decidable (_ ∨ _ ∨ (∃ name ∈ recordKinds, e.type = name ++ ".recorded") ∨ IsSuccess e))

/-- The call does not commit a result for an assignment that has ended. -/
def fairCall (c : CommandCandidate) (w : StoreWorld) : (withStore kernelInterface).Op → Bool
  | .inr (.commitCommand _ .accepted _ _ _ _) =>
      !assignmentTerminal ((w.db.assignmentOf c).bind (Dict.get? · "status"))
  | _ => true

/-- The store after a submission that nobody disturbs, as far as it is fair. -/
def gatedAfter (c : CommandCandidate) (w : StoreWorld) : StoreWorld :=
  ((aloneAt.restrict (fun w op => fairCall c w op)).after 60 (submit controlKernel none c) w).2

section gateSteps

variable {runId : String} {start w w' : StoreWorld} {c : CommandCandidate}

theorem GateStep.grown (h : GateStep runId start w w') : w.db.events.rows <+: w'.db.events.rows := by
  cases h with
  | other hw => exact ⟨_, hw.rows.symm⟩
  | @submission dispatch c op r hop hstep =>
      have hcall : KernelCall (SeenSince start w) controlKernel c op :=
        (calls_submit (SeenSince start w) controlKernel dispatch c).canRequest hop
      cases hcall.effect hstep with
      | accepted es haccepted => exact ⟨es, haccepted.wrote.rows.symm⟩
      | noted es hwrote => exact ⟨es, hwrote.rows.symm⟩

theorem orderly_of_fairCall {op : (withStore kernelInterface).Op} (hrun : c.runId = runId)
    (h : fairCall c w op) (hcommits : CommitsAcceptance op) : Orderly runId w.db c where
  results := by
    obtain ⟨key, decision, events, precondition, guard, rfl⟩ := hcommits
    intro _ _
    simpa [fairCall] using h
  spares := fun _ hne => absurd hrun hne

/-- A fair submission is steps of a run. -/
theorem gateSteps_of_reaches {α : Type} {p p' : Program (withStore kernelInterface) α}
    (h : Program.Reaches (fun w op r w' => kernelStep w op r w' ∧ fairCall c w op) p w p' w')
    (hrun : c.runId = runId) (hstart : start.db.events.rows <+: w.db.events.rows)
    (hp : ∀ w₂ op, w.db.events.rows <+: w₂.db.events.rows → p.CanRequest (SeenSince start w₂) op →
      (submit controlKernel none c).CanRequest (SeenSince start w₂) op) :
    Relation.ReflTransGen (GateStep runId start) w w' := by
  induction h with
  | refl => exact .refl
  | @step op next r w w₁ _ _ hs _ ih =>
      have hfirst : GateStep runId start w w₁ :=
        .submission (hp w op (List.prefix_refl _) (.inl rfl)) hs.1 (orderly_of_fairCall hrun hs.2)
      refine .head hfirst (ih (hstart.trans hfirst.grown) ?_)
      intro w₂ op' hlater hop'
      refine hp w₂ op' (hfirst.grown.trans hlater) (.inr ⟨r, ⟨w, w₁, hstart, ?_, hs.1⟩, hop'⟩)
      exact hfirst.grown.trans hlater

theorem gateSteps_gatedAfter (hrun : c.runId = runId)
    (hstart : start.db.events.rows <+: w.db.events.rows) :
    Relation.ReflTransGen (GateStep runId start) w (gatedAfter c w) :=
  gateSteps_of_reaches (Program.Strategy.after_reaches _ 60 _ _) hrun hstart (fun _ _ _ h => h)

theorem grown_of_gateSteps (h : Relation.ReflTransGen (GateStep runId start) w w') :
    w.db.events.rows <+: w'.db.events.rows := by
  induction h with
  | refl => exact List.prefix_refl _
  | tail _ hs ih => exact ih.trans hs.grown

/-- Events of other code that are no facts of the kernel are a step of a run. -/
theorem gateStep_appended {events : List Event} (h : ∀ e ∈ events, ¬ IsKernelFact e) :
    GateStep runId start w ⟨runAll Database.appended w.db events, 0⟩ := by
  obtain ⟨es, hes, hwrote⟩ := w.db.wrote_runAll events
  refine .other hwrote ?_ (fun e he _ => h e (hes.subset he))
  intro e he hcreated
  exact absurd (.inl hcreated) (h e (hes.subset he))

end gateSteps

/-- The coordinator completes the run. -/
def completing : CommandCandidate where
  candidateId := "complete"
  idempotencyKey := "complete"
  runId := "run-a"
  taskId := "task"
  actorId := "coordinator"
  kind := .complete
  payload := []
  runId_ne := runA_ne
  taskId_ne := task_ne
  actorId_ne := coordinator_ne

/-- The stage is given to the builder, who works and submits an artifact; then the run is completed. -/
def builtRun : StoreWorld :=
  gatedAfter (searchedArtifact "found")
    ⟨runAll Database.appended (gatedAfter searchedPatch searchedRun).db (childLog "found" "ok"), 0⟩

def completedRun : StoreWorld := gatedAfter completing builtRun

theorem searchedRun_unstarted : Unstarted "run-a" searchedTeam searchedRun.db where
  contract := by decide +kernel
  facts := by decide +kernel
  rows := by
    have hnone : ∀ r ∈ searchedRun.db.projections.rows, r.kind ≠ "assignment" := by
      decide +kernel
    intro assignmentId row hload
    obtain ⟨r, hr, -⟩ := Option.map_eq_some_iff.mp hload
    obtain ⟨hmem, hkey⟩ := Table.lookup_eq_some_iff.mp hr
    exact absurd (congrArg Prod.fst hkey) (hnone r hmem)

theorem completedRun_reached :
    Relation.ReflTransGen (GateStep "run-a" searchedRun) searchedRun completedRun := by
  have hpatch : Relation.ReflTransGen (GateStep "run-a" searchedRun) searchedRun
      (gatedAfter searchedPatch searchedRun) := gateSteps_gatedAfter rfl (List.prefix_refl _)
  have hworked := hpatch.tail (@gateStep_appended "run-a" searchedRun
    (gatedAfter searchedPatch searchedRun) (childLog "found" "ok") (by decide))
  have hbuilt := hworked.trans
    (@gateSteps_gatedAfter "run-a" searchedRun _ (searchedArtifact "found") rfl
      (grown_of_gateSteps hworked))
  exact hbuilt.trans (@gateSteps_gatedAfter "run-a" searchedRun _ completing rfl
    (grown_of_gateSteps hbuilt))

/-- The run succeeds, and its stage is done. -/
theorem completed_build : (∃ e ∈ completedRun.db.readRun "run-a", IsSuccess e) ∧
    StageDone completedRun.db "run-a" "build" := by
  have hsuccess : ∃ e ∈ completedRun.db.readRun "run-a", IsSuccess e := by
    decide +kernel
  refine ⟨hsuccess, ?_⟩
  obtain ⟨e, he, hsucceeded⟩ := hsuccess
  have hgate := completion_gate searchedRun_unstarted completedRun_reached he hsucceeded
  refine hgate.2 _ (.record (List.mem_singleton_self _) ⟨by decide, rfl, ?_⟩)
  intro other hother _
  exact List.mem_singleton.mp hother

/-! ### A gate that asks for nothing -/

/-- A contract of one stage, for which it declares no completion event type. -/
def ungated : TeamContract where
  contractId := "demo"
  stages := [{ stageId := "build", resultKind := "artifact", goal := "build",
               stageId_ne := build_ne, resultKind_ne := artifact_ne, goal_ne := build_ne }]
  contractId_ne := demo_ne
  version_pos := defaultVersion_pos
  parallel_bounds := defaultParallel_bounds
  attempts_bounds := defaultAttempts_bounds
  lease_bounds := defaultLease_bounds
  graph := oneAttempt.graph

/-- A run with it. -/
def ungatedRun : StoreWorld where
  db := runAll Database.appended .initial
    [setupEvent "a" "run-a" "run.created" [("team_contract", .dict [("contract_id", .str "demo"),
      ("stages", .list [.dict [("stage_id", .str "build"), ("result_kind", .str "artifact"),
        ("goal", .str "build")]])])]]
  drawn := 0

/-- The run succeeds at once, and its stage has no assignment. -/
theorem ungated_success :
    ungatedRun.db.ContractIs "run-a" (some ungated) ∧
    (∃ d : KernelDecision, d.accepted = true ∧ Program.Runs kernelStep
      (submit controlKernel none completing) ungatedRun (.ok d) (submitAlone completing 30 ungatedRun).2) ∧
    (∃ e ∈ (submitAlone completing 30 ungatedRun).2.db.readRun "run-a", IsSuccess e) ∧
    ∃ stage ∈ ungated.stages,
      ¬ StageDone (submitAlone completing 30 ungatedRun).2.db "run-a" stage.stageId := by
  refine ⟨by decide +kernel, runs_of_acceptedWithin (by decide +kernel), by decide +kernel, _,
    List.mem_singleton_self _, ?_⟩
  have hnone : ∀ r ∈ (submitAlone completing 30 ungatedRun).2.db.projections.rows,
      r.kind ≠ "assignment" := by
    decide +kernel
  rintro ⟨assignmentId, row, hrow, -⟩
  obtain ⟨r, hr, -⟩ := Option.map_eq_some_iff.mp hrow.loaded
  obtain ⟨hmem, hkey⟩ := Table.lookup_eq_some_iff.mp hr
  exact hnone r hmem (congrArg Prod.fst hkey)

end CrazyHarness
