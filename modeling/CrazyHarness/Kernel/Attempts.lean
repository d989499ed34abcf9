import CrazyHarness.Kernel.Isolation

/-! # The attempts of a stage

A patch of a run with a contract gives every stage it assigns the attempt that follows the attempts in
the rows of the run, under an identifier that is new.  So the attempts of a stage are different
(`Attempts`), and their number is bounded by the largest.  The kernel does not compare it with
`max_stage_attempts`: only a supervisor does that, before it proposes.

`stage_attempts_le` is the bound for every run in which no patch goes beyond the limit. -/

namespace CrazyHarness

open Lib

/-! ### What a patch creates -/

/-- The event creates the assignment of the proposal. -/
structure CreatedFor (c : CommandCandidate) (e : Event) (p : AssignmentProposal) : Prop where
  type : e.type = "assignment.created"
  run : e.runId = c.runId
  assignment : e.get? "assignment_id" = some (.str p.assignmentId)
  stage : e.get? "stage_id" = some (.str p.stageId)
  attempt : e.get? "attempt" = some (.int p.attempt)
  resultKind : e.get? "result_kind" = some (.str p.resultKind)

theorem CreatedFor.assignmentOf {c : CommandCandidate} {e : Event} {p : AssignmentProposal}
    (h : CreatedFor c e p) : e.assignmentOf = some p.assignmentId := by
  rw [Event.assignmentOf, if_pos h.type, h.assignment]
  rfl

section created

variable {c : CommandCandidate} {patch : PlanPatch} {db db' : Database} {es : List Event}

/-- The draft that creates the assignment of a proposal. -/
def createdDraft (patch : PlanPatch) (p : AssignmentProposal) : Draft where
  suffix := "assignment-" ++ p.assignmentId ++ "-created"
  type := "assignment.created"
  body := p.dump.set "contract_id" (.str patch.contractId)

theorem filter_planDrafts (acceptedAt : DateTime) :
    (planDrafts c patch acceptedAt).filter (fun d => d.type = "assignment.created") =
      patch.assignments.map (createdDraft patch) := by
  have hproposals : ∀ ps : List AssignmentProposal,
      (ps.flatMap (proposalDrafts patch acceptedAt)).filter (fun d => d.type = "assignment.created") =
        ps.map (createdDraft patch) := by
    intro ps
    induction ps with
    | nil => rfl
    | cons p ps ih =>
        rw [List.flatMap_cons, List.filter_append, ih, List.map_cons]
        simp [proposalDrafts, createdDraft]
  unfold planDrafts
  rw [List.filter_append, List.filter_cons_of_neg (by simp), hproposals]
  split <;> simp

theorem createdFor_draft {p : AssignmentProposal} {causationId : String} {createdAt : DateTime} :
    CreatedFor c ((createdDraft patch p).event c causationId createdAt) p where
  type := rfl
  run := rfl
  assignment := by
    simp [Draft.event, kernelEvent, createdDraft, Event.get?, AssignmentProposal.dump, Dict.get?_set]
  stage := by
    simp [Draft.event, kernelEvent, createdDraft, Event.get?, AssignmentProposal.dump, Dict.get?_set,
      Dict.get?_cons]
  attempt := by
    simp [Draft.event, kernelEvent, createdDraft, Event.get?, AssignmentProposal.dump, Dict.get?_set,
      Dict.get?_cons]
  resultKind := by
    simp [Draft.event, kernelEvent, createdDraft, Event.get?, AssignmentProposal.dump, Dict.get?_set,
      Dict.get?_cons]

theorem sublistForall₂_of_sublist {α β : Type*} {R : α → β → Prop} {l l' : List α} {bs : List β}
    (h : l.Sublist l') (hR : List.Forall₂ R l' bs) : List.SublistForall₂ R l bs := by
  induction h generalizing bs with
  | slnil => exact .nil
  | cons a _ ih =>
      cases hR with
      | cons _ hrest => exact .cons_right (ih hrest)
  | cons_cons a _ ih =>
      cases hR with
      | cons hhead hrest => exact .cons hhead (ih hrest)

/-- The assignments that an accepted patch creates are those it proposes, as far as they are new. -/
theorem Accepted.created (h : Accepted c db es db') (hkind : c.kind = .planPatch)
    (hpatch : PlanPatch.ofJson (.dict c.payload) = some patch) :
    List.SublistForall₂ (CreatedFor c) (es.filter (fun e => e.type = "assignment.created"))
      patch.assignments := by
  obtain ⟨acceptedAt, ds, formal, hds, hstamped, hsub, -⟩ := h.facts
  rw [drafts, hkind] at hds
  dsimp only at hds
  rw [hpatch] at hds
  obtain rfl := ReadM.yields_pure.mp hds
  have hfiltered : List.Forall₂ (fun d e => ∃ createdAt,
      e = Draft.event d c (acceptedEvent c acceptedAt).id createdAt)
      (patch.assignments.map (createdDraft patch))
      (formal.filter (fun e => e.type = "assignment.created")) := by
    rw [← filter_planDrafts acceptedAt]
    refine List.rel_filter ?_ hstamped
    rintro d e ⟨createdAt, rfl⟩
    exact Iff.rfl
  rw [List.forall₂_map_left_iff] at hfiltered
  have hformal : List.Forall₂ (CreatedFor c) (formal.filter (fun e => e.type = "assignment.created"))
      patch.assignments := by
    refine List.Forall₂.flip (hfiltered.imp ?_)
    rintro p e ⟨createdAt, rfl⟩
    exact createdFor_draft
  have hnew : (es.filter (fun e => e.type = "assignment.created")).Sublist
      (formal.filter (fun e => e.type = "assignment.created")) := by
    have hall := hsub.filter (fun e => e.type = "assignment.created")
    rwa [List.filter_cons_of_neg (by simp [acceptedEvent, kernelEvent])] at hall
  exact sublistForall₂_of_sublist hnew hformal

theorem pairwise_of_forall₂ {α β : Type*} {R : α → β → Prop} {S : β → β → Prop} {T : α → α → Prop}
    {as : List α} {bs : List β} (h : List.Forall₂ R as bs) (hbs : bs.Pairwise S)
    (hT : ∀ a b a' b', R a b → R a' b' → S b b' → T a a') : as.Pairwise T := by
  induction h with
  | nil => exact .nil
  | @cons a b as bs hab hrest ih =>
      obtain ⟨hb, hbs⟩ := List.pairwise_cons.mp hbs
      refine List.pairwise_cons.mpr ⟨?_, ih hbs⟩
      intro a' ha'
      obtain ⟨b', hb', hR⟩ := forall₂_mem_right hrest.flip ha'
      exact hT a b a' b' hab hR (hb b' hb')

end created

/-! ### The assignments of a run -/

/-- The events that have created the assignments of a run. -/
def createdIn (db : Database) (runId : String) : List Event :=
  (db.readRun runId).filter (fun e => e.type = "assignment.created")

/-- The row of an assignment of the run, of a stage and with an attempt. -/
structure AttemptRow (db : Database) (runId assignmentId stageId : String) (attempt : ℤ)
    (row : Dict) : Prop where
  loaded : db.loadProjection "assignment" assignmentId = some row
  run : row.get? "run_id" = some (.str runId)
  stage : row.get? "stage_id" = some (.str stageId)
  number : row.get? "attempt" = some (.int attempt)

/-- The event has created an assignment, and its row is still that of it. -/
structure AttemptRecorded (db : Database) (runId : String) (e : Event) (assignmentId stageId : String)
    (attempt : ℤ) : Prop where
  assignment : e.assignmentOf = some assignmentId
  stage : e.get? "stage_id" = some (.str stageId)
  number : e.get? "attempt" = some (.int attempt)
  row : ∃ row, AttemptRow db runId assignmentId stageId attempt row

/-- Two assignments of one stage have different attempts. -/
def AttemptsApart (e f : Event) : Prop :=
  e.get? "stage_id" = f.get? "stage_id" → e.get? "attempt" ≠ f.get? "attempt"

/-- The assignments of a run are recorded, with attempts up to the limit, and those of a stage have
different attempts. -/
structure Attempts (runId : String) (limit : ℤ) (db : Database) : Prop where
  recorded : ∀ e ∈ createdIn db runId, ∃ assignmentId stageId attempt,
    AttemptRecorded db runId e assignmentId stageId attempt ∧ 1 ≤ attempt ∧ attempt ≤ limit
  apart : (createdIn db runId).Pairwise AttemptsApart

section attempts

variable {runId : String} {limit : ℤ} {db db' : Database} {es : List Event} {c : CommandCandidate}

/-- The events create no assignment in the place of one of the run. -/
def SparesRows (db : Database) (runId : String) (es : List Event) : Prop :=
  ∀ e ∈ es, e.type = "assignment.created" → ∀ id, e.assignmentOf = some id →
    ownerOf (db.loadProjection "assignment" id) ≠ some (.str runId)

theorem AttemptRow.same {assignmentId stageId : String} {attempt : ℤ} {row row' : Dict}
    (h : AttemptRow db runId assignmentId stageId attempt row)
    (hload : db'.loadProjection "assignment" assignmentId = some row')
    (hsame : Database.SameAssignment row row') :
    AttemptRow db' runId assignmentId stageId attempt row' where
  loaded := hload
  run := (hsame _ (by decide) (by decide)).trans h.run
  stage := (hsame _ (by decide) (by decide)).trans h.stage
  number := (hsame _ (by decide) (by decide)).trans h.number

/-- What is recorded stays so. -/
theorem AttemptRecorded.wrote {e : Event} {assignmentId stageId : String} {attempt : ℤ}
    (h : AttemptRecorded db runId e assignmentId stageId attempt) (hw : db.Wrote es db')
    (hspares : SparesRows db runId es) : AttemptRecorded db' runId e assignmentId stageId attempt := by
  obtain ⟨row, hrow⟩ := h.row
  have hnot : ∀ f ∈ es, f.type = "assignment.created" → f.assignmentOf ≠ some assignmentId := by
    intro f hf hcreated hid
    refine hspares f hf hcreated assignmentId hid ?_
    rw [hrow.loaded]
    exact hrow.run
  obtain ⟨row', hfold, hsame⟩ := @Database.assignmentFold_keeps es assignmentId row hnot
  refine ⟨h.assignment, h.stage, h.number, row', hrow.same ?_ hsame⟩
  rw [hw.assignment, hrow.loaded]
  exact hfold

theorem createdIn_wrote (hw : db.Wrote es db') : createdIn db' runId = createdIn db runId ++
    (es.filter (fun e => e.runId = runId)).filter (fun e => e.type = "assignment.created") := by
  rw [createdIn, Database.readRun, hw.rows, List.filter_append, List.filter_append]
  rfl

/-- Events that create no assignment of the run. -/
theorem Attempts.others (h : Attempts runId limit db) (hw : db.Wrote es db')
    (hspares : SparesRows db runId es)
    (hes : ∀ e ∈ es, e.type = "assignment.created" → e.runId ≠ runId) :
    Attempts runId limit db' := by
  have hsame : createdIn db' runId = createdIn db runId := by
    rw [createdIn_wrote hw, List.filter_filter, List.filter_eq_nil_iff.mpr, List.append_nil]
    intro e he hboth
    simp only [Bool.and_eq_true, decide_eq_true_eq] at hboth
    exact hes e he hboth.1 hboth.2
  constructor
  · intro e he
    rw [hsame] at he
    obtain ⟨id, stage, attempt, hrecorded, hbounds⟩ := h.recorded e he
    exact ⟨id, stage, attempt, hrecorded.wrote hw hspares, hbounds⟩
  · rw [hsame]
    exact h.apart

/-- The proposals are for new assignments, and their attempts follow those in the rows of the run. -/
structure Advances (db : Database) (runId : String) (limit : ℤ) (ps : List AssignmentProposal) :
    Prop where
  ids : (ps.map AssignmentProposal.assignmentId).Nodup
  stages : (ps.map AssignmentProposal.stageId).Nodup
  fresh : ∀ p ∈ ps, db.loadProjection "assignment" p.assignmentId = none
  next : ∀ p ∈ ps, ∀ id n row, AttemptRow db runId id p.stageId n row → n < p.attempt
  within : ∀ p ∈ ps, p.attempt ≤ limit

/-- Events that create the assignments of such proposals. -/
theorem Attempts.advance (h : Attempts runId limit db) (hw : db.Wrote es db') (hrun : c.runId = runId)
    {ps : List AssignmentProposal} (hps : Advances db runId limit ps)
    (hes : List.SublistForall₂ (CreatedFor c) (es.filter (fun e => e.type = "assignment.created")) ps) :
    Attempts runId limit db' := by
  obtain ⟨qs, hforall, hsub⟩ := List.sublistForall₂_iff.mp hes
  have hfor : ∀ e ∈ es, e.type = "assignment.created" → ∃ p ∈ ps, CreatedFor c e p := by
    intro e he hcreated
    obtain ⟨p, hp, hcreates⟩ := forall₂_mem_right hforall.flip
      (List.mem_filter.mpr ⟨he, decide_eq_true hcreated⟩)
    exact ⟨p, hsub.subset hp, hcreates⟩
  have hspares : SparesRows db runId es := by
    intro e he hcreated id hid howner
    obtain ⟨p, hp, hcreates⟩ := hfor e he hcreated
    rw [hcreates.assignmentOf] at hid
    obtain rfl := Option.some.inj hid
    rw [hps.fresh p hp] at howner
    cases howner
  have hlog : createdIn db' runId = createdIn db runId ++
      es.filter (fun e => e.type = "assignment.created") := by
    rw [createdIn_wrote hw, List.filter_filter]
    congr 1
    refine List.filter_congr ?_
    intro e he
    by_cases hcreated : e.type = "assignment.created"
    · obtain ⟨p, -, hcreates⟩ := hfor e he hcreated
      simp [hcreated, hcreates.run, hrun]
    · simp [hcreated]
  have hids : (es.filter (fun e => e.type = "assignment.created")).Pairwise
      (fun e f => e.assignmentOf ≠ f.assignmentOf) := by
    refine pairwise_of_forall₂ hforall (List.pairwise_map.mp (hps.ids.sublist (hsub.map _))) ?_
    intro e p f q hp hq hne heq
    rw [hp.assignmentOf, hq.assignmentOf] at heq
    exact hne (Option.some.inj heq)
  have hrecorded : ∀ e ∈ es, e.type = "assignment.created" → ∃ p ∈ ps, CreatedFor c e p ∧
      AttemptRecorded db' runId e p.assignmentId p.stageId p.attempt := by
    intro e he hcreated
    obtain ⟨p, hp, hcreates⟩ := hfor e he hcreated
    obtain ⟨before, after, rfl⟩ := List.append_of_mem he
    have hlater : ∀ f ∈ after, f.type = "assignment.created" →
        f.assignmentOf ≠ some p.assignmentId := by
      intro f hf hf' hid
      rw [List.filter_append, List.filter_cons_of_pos (by simpa using hcreated)] at hids
      have hrest := (List.pairwise_append.mp hids).2.1
      refine (List.pairwise_cons.mp hrest).1 f (List.mem_filter.mpr ⟨hf, decide_eq_true hf'⟩) ?_
      rw [hcreates.assignmentOf, hid]
    obtain ⟨row, hfold, hsame⟩ := @Database.assignmentFold_created e p.assignmentId
      (db.loadProjection "assignment" p.assignmentId) before after hcreated hcreates.assignmentOf hlater
    refine ⟨p, hp, hcreates, hcreates.assignmentOf, hcreates.stage, hcreates.attempt, row, ?_, ?_, ?_,
      ?_⟩
    · rw [hw.assignment]
      exact hfold
    · rw [hsame _ (by decide) (by decide)]
      simp [createdAssignment, hcreates.run, hrun]
    · rw [hsame _ (by decide) (by decide)]
      simpa [createdAssignment, Dict.get?_cons, Event.get?] using hcreates.stage
    · rw [hsame _ (by decide) (by decide)]
      simpa [createdAssignment, Dict.get?_cons, Event.get?] using hcreates.attempt
  constructor
  · intro e he
    rw [hlog] at he
    cases List.mem_append.mp he with
    | inl hold =>
        obtain ⟨id, stage, attempt, hrec, hbounds⟩ := h.recorded e hold
        exact ⟨id, stage, attempt, hrec.wrote hw hspares, hbounds⟩
    | inr hnew =>
        obtain ⟨hmem, hcreated⟩ := List.mem_filter.mp hnew
        obtain ⟨p, hp, -, hrec⟩ := hrecorded e hmem (of_decide_eq_true hcreated)
        exact ⟨p.assignmentId, p.stageId, p.attempt, hrec, p.attempt_pos, hps.within p hp⟩
  · rw [hlog, List.pairwise_append]
    refine ⟨h.apart, ?_, ?_⟩
    · refine pairwise_of_forall₂ hforall (List.pairwise_map.mp (hps.stages.sublist (hsub.map _))) ?_
      intro e p f q hp hq hne heq
      rw [hp.stage, hq.stage] at heq
      exact absurd (Json.str.inj (Option.some.inj heq)) hne
    · intro e hold f hnew hstage hattempt
      obtain ⟨hmem, hcreated⟩ := List.mem_filter.mp hnew
      obtain ⟨p, hp, hcreates⟩ := hfor f hmem (of_decide_eq_true hcreated)
      obtain ⟨id, stage, attempt, hrec, -⟩ := h.recorded e hold
      obtain ⟨row, hrow⟩ := hrec.row
      rw [hrec.stage, hcreates.stage] at hstage
      obtain rfl := Json.str.inj (Option.some.inj hstage)
      rw [hrec.number, hcreates.attempt] at hattempt
      have hlt := hps.next p hp id attempt row hrow
      have heq := Json.int.inj (Option.some.inj hattempt)
      omega

/-- The attempts of a stage are different numbers up to the limit. -/
theorem Attempts.length_le (h : Attempts runId limit db) (hlimit : 0 ≤ limit) (stageId : String) :
    (((createdIn db runId).filter (fun e => e.text "stage_id" = some stageId)).length : ℤ) ≤ limit := by
  let attemptOf : Event → ℤ := fun e => ((e.get? "attempt").bind Json.asInt).getD 0
  have hnodup : (((createdIn db runId).filter (fun e => e.text "stage_id" = some stageId)).map
      attemptOf).Nodup := by
    refine List.pairwise_map.mpr ?_
    refine List.Pairwise.imp_of_mem ?_ (h.apart.filter _)
    intro e f he hf hapart heq
    obtain ⟨hein, hestage⟩ := List.mem_filter.mp he
    obtain ⟨hfin, hfstage⟩ := List.mem_filter.mp hf
    obtain ⟨id, stage, attempt, hrec, -⟩ := h.recorded e hein
    obtain ⟨id', stage', attempt', hrec', -⟩ := h.recorded f hfin
    have hes : stage = stageId := by
      simpa [Event.text, hrec.stage, Json.asStr] using hestage
    have hfs : stage' = stageId := by
      simpa [Event.text, hrec'.stage, Json.asStr] using hfstage
    have hsame : attempt = attempt' := by
      simpa [attemptOf, hrec.number, hrec'.number, Json.asInt] using heq
    refine hapart ?_ ?_
    · rw [hrec.stage, hrec'.stage, hes, hfs]
    · rw [hrec.number, hrec'.number, hsame]
  have hrange : ((createdIn db runId).filter (fun e => e.text "stage_id" = some stageId)).map
      attemptOf ⊆ (Finset.Icc 1 limit).toList := by
    intro n hn
    obtain ⟨e, he, rfl⟩ := List.mem_map.mp hn
    obtain ⟨id, stage, attempt, hrec, hlow, hhigh⟩ := h.recorded e (List.mem_filter.mp he).1
    have hattempt : attemptOf e = attempt := by
      simp [attemptOf, hrec.number, Json.asInt]
    rw [Finset.mem_toList, Finset.mem_Icc, hattempt]
    exact ⟨hlow, hhigh⟩
  have hle := (hnodup.subperm hrange).length_le
  rw [List.length_map, Finset.length_toList, Int.card_Icc] at hle
  omega

/-! ### One patch -/

theorem mem_snapshotOf {kind id : String} {row : Dict} (h : db.loadProjection kind id = some row)
    (hrun : row.get? "run_id" = some (.str runId)) : row ∈ db.snapshotOf (some runId) kind := by
  obtain ⟨r, hr, rfl⟩ := Option.map_eq_some_iff.mp h
  have hkey := (Table.lookup_eq_some_iff.mp hr).2
  have hkind : r.kind = kind := congrArg Prod.fst hkey
  unfold Database.snapshotOf
  refine List.mem_filter.mpr ⟨List.mem_map.mpr ⟨r, ?_, rfl⟩, ?_⟩
  · exact (List.mem_insertionSort _).mpr
      (List.mem_filter.mpr ⟨Table.mem_of_lookup hr, decide_eq_true hkind⟩)
  · exact decide_eq_true (.inr hrun)

theorem mem_of_mapM {α β : Type} {f : α → Except StoreError β} {as : List α} {bs : List β}
    (h : as.mapM f = .ok bs) {a : α} (ha : a ∈ as) {b : β} (hb : f a = .ok b) : b ∈ bs := by
  induction as generalizing bs with
  | nil => cases ha
  | cons a' as ih =>
      rw [List.mapM_cons] at h
      obtain ⟨b', hb', h⟩ := bind_ok_iff.mp h
      obtain ⟨rest, hrest, h⟩ := bind_ok_iff.mp h
      obtain rfl := Except.ok.inj h
      cases List.mem_cons.mp ha with
      | inl heq =>
          rw [← heq, hb] at hb'
          rw [Except.ok.inj hb']
          exact List.mem_cons_self
      | inr hmem => exact List.mem_cons_of_mem _ (ih hrest hmem)

theorem lt_following {values : List ℤ} {n : ℤ} (h : n ∈ values) : n < following values := by
  unfold following
  cases hmax : values.max? with
  | none =>
      rw [List.max?_eq_none_iff.mp hmax] at h
      cases h
  | some m =>
      have hle := (List.max?_eq_some_iff.mp hmax).2 n h
      rw [Option.getD_some]
      omega

/-- What the kernel accepts advances the attempts, as far as the patch stays within the limit. -/
theorem PlanPasses.advances {view : PlanView} {k : TeamContract} (h : PlanPasses db c view)
    (hk : view.contract = some k) (hlimit : ∀ p ∈ view.patch.assignments, p.attempt ≤ limit) :
    Advances db c.runId limit view.patch.assignments where
  ids := h.ids
  stages := h.once
  fresh := fun p hp => (h.proposals k hk p hp).fresh
  next := by
    intro p hp id n row hrow
    obtain ⟨attempts, hattempts, hfollowing⟩ := (h.proposals k hk p hp).attempt
    rw [hfollowing]
    refine lt_following ?_
    unfold previousAttempts at hattempts
    refine mem_of_mapM hattempts (a := row) (List.mem_filter.mpr ⟨?_, ?_⟩) ?_
    · rw [h.assignments]
      exact mem_snapshotOf hrow.loaded hrow.run
    · simp [hrow.stage, Json.asStr]
    · simp [Dict.getD, hrow.number, intOf, Json.pyInt]
  within := hlimit

end attempts

/-! ### Runs -/

/-- No patch goes beyond the limit of the run, and none of another run creates anew an assignment of
this one. -/
structure WithinBudget (runId : String) (limit : ℤ) (db : Database) (c : CommandCandidate) : Prop where
  attempts : c.kind = .planPatch → c.runId = runId → ∀ patch,
    PlanPatch.ofJson (.dict c.payload) = some patch → ∀ p ∈ patch.assignments, p.attempt ≤ limit
  spares : c.kind = .planPatch → c.runId ≠ runId → ∀ id, Proposes c id →
    ownerOf (db.loadProjection "assignment" id) ≠ some (.str runId)

/-- One step of the program: a call of some submission, in any order with those of others, or what
other code writes, which creates no assignment of the run. -/
inductive PlanStep (runId : String) (limit : ℤ) : StoreWorld → StoreWorld → Prop
  | submission {w w' : StoreWorld} {dispatch : Option DispatchContext} {c : CommandCandidate}
      {op : (withStore kernelInterface).Op} {r : (withStore kernelInterface).Reply op}
      (hop : (submit controlKernel dispatch c).CanRequest anyReply op) (hstep : kernelStep w op r w')
      (hbudget : CommitsAcceptance op → WithinBudget runId limit w.db c) : PlanStep runId limit w w'
  | other {w w' : StoreWorld} {es : List Event} (hw : w.db.Wrote es w'.db)
      (hspares : SparesRows w.db runId es)
      (hes : ∀ e ∈ es, e.type = "assignment.created" → e.runId ≠ runId) : PlanStep runId limit w w'

section runs

variable {runId : String} {k : TeamContract} {db db' : Database} {es : List Event}

/-- A contract that is persisted stays, however the log goes on. -/
theorem contractIs_grown (h : db.ContractIs runId (some k))
    (hgrown : db.events.rows <+: db'.events.rows) : db'.ContractIs runId (some k) := by
  obtain ⟨later, hlater⟩ := hgrown
  have hsame : db'.contractOf runId = db.contractOf runId := by
    unfold Database.contractOf Database.readRun
    rw [← hlater, List.filter_append, List.find?_append]
    cases hfind : (db.events.rows.filter (fun e => e.runId = runId)).find?
        (fun e => e.type = "run.created") with
    | some e => rfl
    | none =>
        unfold Database.ContractIs Database.contractOf Database.readRun at h
        simp [hfind] at h
  unfold Database.ContractIs at h ⊢
  rwa [hsame]

theorem contractIs_wrote (h : db.ContractIs runId (some k)) (hw : db.Wrote es db') :
    db'.ContractIs runId (some k) :=
  contractIs_grown h ⟨es, hw.rows.symm⟩

/-- The invariant of a run with a contract. -/
structure Budgeted (runId : String) (k : TeamContract) (db : Database) : Prop where
  contract : db.ContractIs runId (some k)
  attempts : Attempts runId k.maxStageAttempts db

theorem Budgeted.others (h : Budgeted runId k db) (hw : db.Wrote es db')
    (hspares : SparesRows db runId es)
    (hes : ∀ e ∈ es, e.type = "assignment.created" → e.runId ≠ runId) : Budgeted runId k db' :=
  ⟨contractIs_wrote h.contract hw, h.attempts.others hw hspares hes⟩

theorem Budgeted.accepted {c : CommandCandidate} (h : Budgeted runId k db) (ha : Accepted c db es db')
    (hbudget : WithinBudget runId k.maxStageAttempts db c) : Budgeted runId k db' := by
  have hmoves := ha.moves
  by_cases hplan : c.kind = .planPatch ∧ c.runId = runId
  · obtain ⟨hkind, hrun⟩ := hplan
    obtain ⟨clock, hvalid⟩ := ha.valid
    obtain ⟨contract, hpasses⟩ := validateCandidate_passes hvalid
    have hchecks := hpasses.kind
    rw [validateKind, hkind] at hchecks
    obtain ⟨view, hview⟩ := validatePlanPatch_passes hchecks
    have hk : view.contract = some k := hview.contract.unique (by rw [hrun]; exact h.contract)
    refine ⟨contractIs_wrote h.contract ha.wrote, h.attempts.advance ha.wrote hrun ?_
      (ha.created hkind hview.payload)⟩
    rw [← hrun]
    exact hview.advances hk (hbudget.attempts hkind hrun _ hview.payload)
  · refine h.others ha.wrote ?_ ?_
    · intro e he hcreated id hid
      obtain ⟨-, hnames, hkind, -⟩ := hmoves e he
      have hpatch := hkind hcreated
      have hproposes := hnames id hid
      rw [NamesAssignment, hpatch] at hproposes
      exact hbudget.spares hpatch (fun hrun => hplan ⟨hpatch, hrun⟩) id hproposes
    · intro e he hcreated hrun
      obtain ⟨heq, -, hkind, -⟩ := hmoves e he
      exact hplan ⟨hkind hcreated, heq.symm.trans hrun⟩

theorem Budgeted.step {w w' : StoreWorld} (h : Budgeted runId k w.db)
    (hs : PlanStep runId k.maxStageAttempts w w') : Budgeted runId k w'.db := by
  cases hs with
  | other hw hspares hes => exact h.others hw hspares hes
  | @submission dispatch c op r hop hstep hbudget =>
      have hcall : KernelCall anyReply controlKernel c op :=
        (calls_submit anyReply controlKernel dispatch c).canRequest hop
      cases hcall.effect hstep with
      | accepted es haccepted hcommits => exact h.accepted haccepted.accepted (hbudget hcommits)
      | noted es hwrote hnotes =>
          have hcreated : ∀ e ∈ es, e.type ≠ "assignment.created" := by
            intro e he heq
            have htype := (hnotes e he).2.2
            rw [heq] at htype
            exact absurd htype (by decide)
          exact h.others hwrote (fun e he htype => absurd htype (hcreated e he))
            (fun e he htype => absurd htype (hcreated e he))

/-- **The attempts of a stage** stay within the contract, in every run whose patches do. -/
theorem stage_attempts_le {w w' : StoreWorld} (hcontract : w.db.ContractIs runId (some k))
    (hnone : createdIn w.db runId = [])
    (hrun : Relation.ReflTransGen (PlanStep runId k.maxStageAttempts) w w') (stageId : String) :
    (((createdIn w'.db runId).filter (fun e => e.text "stage_id" = some stageId)).length : ℤ) ≤
      k.maxStageAttempts := by
  have hbudgeted : Budgeted runId k w'.db := by
    induction hrun with
    | refl =>
        refine ⟨hcontract, ?_, ?_⟩
        · intro e he
          rw [hnone] at he
          cases he
        · rw [hnone]
          exact .nil
    | tail _ hs ih => exact ih.step hs
  refine hbudgeted.attempts.length_le ?_ stageId
  have hbounds := k.attempts_bounds
  omega

end runs

/-! ### One attempt too many -/

/-- A contract of one stage, which allows one attempt. -/
def oneAttempt : TeamContract where
  contractId := "demo"
  stages := [{ stageId := "build", resultKind := "artifact", goal := "build",
               stageId_ne := build_ne, resultKind_ne := artifact_ne, goal_ne := build_ne }]
  maxStageAttempts := 1
  contractId_ne := demo_ne
  version_pos := defaultVersion_pos
  parallel_bounds := defaultParallel_bounds
  lease_bounds := defaultLease_bounds

/-- A run with it, and an agent. -/
def attemptRun : StoreWorld where
  db := runAll Database.appended .initial
    [setupEvent "a" "run-a" "run.created" [("team_contract", .dict [("contract_id", .str "demo"),
        ("stages", .list [.dict [("stage_id", .str "build"), ("result_kind", .str "artifact"),
          ("goal", .str "build")]]), ("max_stage_attempts", .int 1)])],
      setupEvent "builder" "run-a" "agent.registered" [("agent_id", .str "builder")]]
  drawn := 0

/-- A patch that gives the stage to the builder. -/
def attemptPatch (key assignmentId : String) (attempt : ℤ) (hkey : key ≠ "") : CommandCandidate where
  candidateId := key
  idempotencyKey := key
  runId := "run-a"
  taskId := "task"
  actorId := "coordinator"
  kind := .planPatch
  payload := [("revision", .int attempt), ("contract_id", .str "demo"), ("contract_version", .int 1),
    ("reason", .str "build"),
    ("stages", .list [.dict [("stage_id", .str "build"), ("state", .str "active"),
      ("agent_id", .str "builder")]]),
    ("assignments", .list [.dict [("assignment_id", .str assignmentId), ("stage_id", .str "build"),
      ("attempt", .int attempt), ("agent_id", .str "builder"), ("goal", .str "build"),
      ("result_kind", .str "artifact"), ("lease_seconds", .int 30)]])]
  idempotencyKey_ne := hkey
  runId_ne := runA_ne
  taskId_ne := task_ne
  actorId_ne := coordinator_ne

def firstPatch : CommandCandidate := attemptPatch "first" "build-1" 1 (by decide)

def secondPatch : CommandCandidate := attemptPatch "second" "build-2" 2 (by decide)

/-- The store after the first attempt. -/
def firstAttempt : StoreWorld := (submitAlone firstPatch 30 attemptRun).2

/-- The builder fails, and its lease is released. -/
def attemptFailed : StoreWorld where
  db := runAll Database.appended firstAttempt.db
    [setupEvent "failed" "run-a" "assignment.failed" [("assignment_id", .str "build-1")],
      setupEvent "released" "run-a" "assignment.lease.released" [("assignment_id", .str "build-1")]]
  drawn := 0

/-- The contract allows one attempt, and the kernel accepts a second one. -/
theorem second_attempt :
    attemptRun.db.ContractIs "run-a" (some oneAttempt) ∧ createdIn attemptRun.db "run-a" = [] ∧
      (∃ d : KernelDecision, d.accepted = true ∧ Program.Runs kernelStep
        (submit controlKernel none firstPatch) attemptRun (.ok d) firstAttempt) ∧
      (∃ d : KernelDecision, d.accepted = true ∧ Program.Runs kernelStep
        (submit controlKernel none secondPatch) attemptFailed (.ok d)
        (submitAlone secondPatch 30 attemptFailed).2) ∧
      oneAttempt.maxStageAttempts < ((createdIn (submitAlone secondPatch 30 attemptFailed).2.db
        "run-a").filter (fun e => e.text "stage_id" = some "build")).length :=
  ⟨by decide +kernel, by decide +kernel, runs_of_acceptedWithin (by decide +kernel),
    runs_of_acceptedWithin (by decide +kernel), by decide +kernel⟩

/-- A submission that stays within the budget is steps of a run. -/
theorem planSteps_of_reaches {runId : String} {limit : ℤ} {c : CommandCandidate} {α : Type}
    {p p' : Program (withStore kernelInterface) α} {w w' : StoreWorld}
    (h : Program.Reaches kernelStep p w p' w')
    (hp : ∀ op, p.CanRequest anyReply op → (submit controlKernel none c).CanRequest anyReply op)
    (hbudget : ∀ db, WithinBudget runId limit db c) :
    Relation.ReflTransGen (PlanStep runId limit) w w' := by
  induction h with
  | refl => exact .refl
  | @step op next r _ _ _ _ hs _ ih =>
      refine .head (.submission (hp op (.inl rfl)) hs (fun _ => hbudget _)) (ih ?_)
      exact fun op' hop' => hp op' (.inr ⟨r, trivial, hop'⟩)

/-- The first attempt stays within the contract. -/
theorem first_attempt_le :
    (((createdIn firstAttempt.db "run-a").filter (fun e => e.text "stage_id" = some "build")).length
      : ℤ) ≤ oneAttempt.maxStageAttempts := by
  refine stage_attempts_le (w := attemptRun) (by decide +kernel) (by decide +kernel) ?_ "build"
  refine planSteps_of_reaches (c := firstPatch) (aloneAt.after_reaches 30 _ _) (fun _ h => h) ?_
  intro db
  refine ⟨?_, fun _ hrun => absurd rfl hrun⟩
  intro _ _ patch hpatch
  have hall : ∀ patch ∈ PlanPatch.ofJson (.dict firstPatch.payload), ∀ p ∈ patch.assignments,
      p.attempt ≤ oneAttempt.maxStageAttempts := by
    decide +kernel
  exact hall patch hpatch

end CrazyHarness
