import CrazyHarness.Kernel.Facts
import CrazyHarness.Kernel.Passes
import CrazyHarness.Store.Work

/-! # Commands and the work of other runs

Assignments and leases are stored under the identifier of the assignment alone, and the facts of
plan patches, results and peer requests move the rows of an identifier that the payload names
(`NamesAssignment`, `NamesLease`).  Where the run has a team contract, or the actor holds the
assignment, the checks ask that the assignment is of the run; elsewhere they do not.

* `Accepted.leavesOthers`: an acceptance that does not trespass leaves the rows of other runs alone.
* `submission_leavesOthers`: so does every call of a submission, in every state of the store. -/

namespace CrazyHarness

open Lib

/-! ### The rows a command names -/

/-- A proposal of the patch is for the assignment. -/
def Proposes (c : CommandCandidate) (assignmentId : String) : Prop :=
  ∃ patch, PlanPatch.ofJson (.dict c.payload) = some patch ∧
    ∃ p ∈ patch.assignments, p.assignmentId = assignmentId

/-- The facts of the command can change the row of the assignment. -/
def NamesAssignment (c : CommandCandidate) (assignmentId : String) : Prop :=
  match c.kind with
  | .planPatch => Proposes c assignmentId
  | .evidence => truthyText (c.payload.get? "assignment_id") = some assignmentId
  | .artifact => truthyText (c.payload.get? "assignment_id") = some assignmentId
  | .review => truthyText (c.payload.get? "assignment_id") = some assignmentId
  | .peerRequest => truthyText (c.payload.get? "assignment_id") = some assignmentId
  | _ => False

/-- The facts of the command can change the lease of the assignment. -/
def NamesLease (c : CommandCandidate) (assignmentId : String) : Prop :=
  match c.kind with
  | .planPatch => Proposes c assignmentId
  | .evidence => (c.payload.get? "assignment_id").map Json.pyStr = some assignmentId
  | .artifact => (c.payload.get? "assignment_id").map Json.pyStr = some assignmentId
  | .review => (c.payload.get? "assignment_id").map Json.pyStr = some assignmentId
  | _ => False

section drafts

variable {c : CommandCandidate} {acceptedAt createdAt : DateTime} {ds : List Draft} {d : Draft}
  {causationId assignmentId : String}

/-- The text of an identifier that is set. -/
theorem truthyText_str {s t : String} (h : truthyText (some (.str s)) = some t) : s = t := by
  simpa [Json.pyStr] using truthyText_pyStr h

theorem assignmentOf_proposal {patch : PlanPatch} {p : AssignmentProposal}
    (hd : d ∈ proposalDrafts patch acceptedAt p)
    (h : (d.event c causationId createdAt).assignmentOf = some assignmentId) :
    p.assignmentId = assignmentId := by
  simp only [proposalDrafts, List.mem_cons, List.not_mem_nil, or_false] at hd
  rcases hd with rfl | rfl | rfl
  · simpa [Event.assignmentOf, Draft.event, kernelEvent, Event.get?, AssignmentProposal.dump,
      Dict.get?_set, Dict.get?_cons, Json.pyStr] using h
  · simp [Event.assignmentOf, Draft.event, kernelEvent, assignmentStatusByType, List.lookup] at h
  · exact truthyText_str h

theorem leaseOf_proposal {patch : PlanPatch} {p : AssignmentProposal}
    (hd : d ∈ proposalDrafts patch acceptedAt p)
    (h : (d.event c causationId createdAt).leaseOf = some assignmentId) :
    p.assignmentId = assignmentId ∧ d.body.get? "run_id" = none := by
  simp only [proposalDrafts, List.mem_cons, List.not_mem_nil, or_false] at hd
  rcases hd with rfl | rfl | rfl
  · rw [Event.leaseOf_of_other
      (show startsWith "assignment.lease." "assignment.created" = false by decide)] at h
    cases h
  · rw [Event.leaseOf_of_lease
      (show startsWith "assignment.lease." "assignment.lease.acquired" = true by decide)] at h
    exact ⟨truthyText_str h, by simp [Dict.get?_cons]⟩
  · rw [Event.leaseOf_of_other
      (show startsWith "assignment.lease." "assignment.running" = false by decide)] at h
    cases h

theorem ResultFacts.assignmentOf {name : String} (h : ResultFacts c name ds) (hd : d ∈ ds)
    (hname : name ∈ ["evidence", "artifact", "review"])
    (he : (d.event c causationId createdAt).assignmentOf = some assignmentId) :
    truthyText (c.payload.get? "assignment_id") = some assignmentId := by
  obtain ⟨v, stageId, released, body, hv, hrelease, rfl⟩ := h.drafts
  simp only [List.mem_append, List.mem_cons, List.not_mem_nil, or_false] at hd
  rcases hd with ((rfl | rfl) | hd) | rfl
  · simp only [List.mem_cons, List.not_mem_nil, or_false] at hname
    rcases hname with rfl | rfl | rfl <;> cases he
  · rw [hv]
    exact he
  · rcases hrelease with rfl | ⟨leaseId, stage, agentId, rfl⟩
    · cases hd
    · rw [List.mem_singleton.mp hd] at he
      cases he
  · cases he

theorem ResultFacts.leaseOf {name : String} (h : ResultFacts c name ds) (hd : d ∈ ds)
    (hname : name ∈ ["evidence", "artifact", "review"])
    (he : (d.event c causationId createdAt).leaseOf = some assignmentId) :
    (c.payload.get? "assignment_id").map Json.pyStr = some assignmentId ∧
      d.body.get? "run_id" = none := by
  have hrecorded : ∀ name ∈ ["evidence", "artifact", "review"],
      startsWith "assignment.lease." (name ++ ".recorded") = false := by
    decide
  obtain ⟨v, stageId, released, body, hv, hrelease, rfl⟩ := h.drafts
  simp only [List.mem_append, List.mem_cons, List.not_mem_nil, or_false] at hd
  rcases hd with ((rfl | rfl) | hd) | rfl
  · rw [Event.leaseOf_of_other (hrecorded name hname)] at he
    cases he
  · rw [Event.leaseOf_of_other
      (show startsWith "assignment.lease." "assignment.succeeded" = false by decide)] at he
    cases he
  · rcases hrelease with rfl | ⟨leaseId, stage, agentId, rfl⟩
    · cases hd
    · obtain rfl := List.mem_singleton.mp hd
      rw [Event.leaseOf_of_lease
        (show startsWith "assignment.lease." "assignment.lease.released" = true by decide)] at he
      rw [hv]
      refine ⟨congrArg some (truthyText_str he), ?_⟩
      simp [Dict.get?_cons]
  · rw [Event.leaseOf_of_other
      (show startsWith "assignment.lease." "agent.result.submitted" = false by decide)] at he
    cases he

/-- The facts that move no rows. -/
def otherFacts : List String :=
  ["orchestration.plan.patched", "orchestration.blocked", "a2a.policy.allowed", "a2a.peer.requested",
    "a2a.peer.responded"] ++ factTypes .complete ++ factTypes .memory ++ factTypes .evolution

theorem unnamed_of_type {e : Event} (htype : e.type ∈ "candidate.accepted" :: otherFacts ++
    candidateNotes) : e.assignmentOf = none ∧ e.leaseOf = none := by
  have hall : ∀ type ∈ "candidate.accepted" :: otherFacts ++ candidateNotes,
      type ≠ "assignment.created" ∧ assignmentStatusByType.lookup type = none ∧
        startsWith "assignment.lease." type = false := by
    decide
  obtain ⟨hcreated, hstatus, hlease⟩ := hall e.type htype
  refine ⟨?_, Event.leaseOf_of_other hlease⟩
  unfold Event.assignmentOf
  rw [if_neg hcreated, hstatus]
  rfl

/-- What a fact moves, the command names; only a plan patch creates assignments, and no fact of a
lease names a run. -/
structure MovesNamed (c : CommandCandidate) (d : Draft) (e : Event) : Prop where
  assignment : ∀ id, e.assignmentOf = some id → NamesAssignment c id
  created : d.type = "assignment.created" → c.kind = .planPatch
  lease : ∀ id, e.leaseOf = some id → NamesLease c id ∧ d.body.get? "run_id" = none

theorem movesNamed_of_type (htype : d.type ∈ otherFacts) :
    MovesNamed c d (d.event c causationId createdAt) := by
  have hmem : (d.event c causationId createdAt).type ∈ "candidate.accepted" :: otherFacts ++
      candidateNotes := List.mem_append_left _ (List.mem_cons_of_mem _ htype)
  obtain ⟨hassignment, hlease⟩ := unnamed_of_type hmem
  refine ⟨?_, ?_, ?_⟩
  · intro id hid
    rw [hassignment] at hid
    cases hid
  · intro hcreated
    rw [hcreated] at htype
    exact absurd htype (by decide)
  · intro id hid
    rw [hlease] at hid
    cases hid

theorem ResultFacts.movesNamed {name : String} (h : ResultFacts c name ds) (hd : d ∈ ds)
    (hname : name ∈ ["evidence", "artifact", "review"])
    (hkind : c.kind ∈ [CommandKind.evidence, .artifact, .review]) :
    MovesNamed c d (d.event c causationId createdAt) := by
  have hnames : ∀ id, (truthyText (c.payload.get? "assignment_id") = some id → NamesAssignment c id) ∧
      ((c.payload.get? "assignment_id").map Json.pyStr = some id → NamesLease c id) := by
    intro id
    unfold NamesAssignment NamesLease
    simp only [List.mem_cons, List.not_mem_nil, or_false] at hkind
    rcases hkind with hkind | hkind | hkind <;> simp [hkind]
  refine ⟨?_, ?_, ?_⟩
  · intro id hid
    exact (hnames id).1 (h.assignmentOf hd hname hid)
  · intro hcreated
    have htype := h.type hd
    rw [hcreated] at htype
    simp only [List.mem_cons, List.not_mem_nil, or_false] at hname
    rcases hname with rfl | rfl | rfl <;> exact absurd htype (by decide)
  · intro id hid
    obtain ⟨hstr, hrun⟩ := h.leaseOf hd hname hid
    exact ⟨(hnames id).2 hstr, hrun⟩

theorem movesNamed_draft (hds : (drafts c acceptedAt).Yields ds) (hd : d ∈ ds) :
    MovesNamed c d (d.event c causationId createdAt) := by
  have htypes := type_of_drafts hds d hd
  unfold drafts at hds
  split at hds
  next hkind =>
    split at hds
    next patch hpatch =>
      rw [← ReadM.yields_pure.mp hds] at hd
      rcases mem_planDrafts hd with htype | htype | ⟨p, hp, hdp⟩
      · exact movesNamed_of_type (by rw [htype]; decide)
      · exact movesNamed_of_type (by rw [htype]; decide)
      · refine ⟨?_, fun _ => hkind, ?_⟩
        · intro id hid
          rw [NamesAssignment, hkind]
          exact ⟨patch, hpatch, p, hp, assignmentOf_proposal hdp hid⟩
        · intro id hid
          obtain ⟨hp', hrun⟩ := leaseOf_proposal hdp hid
          rw [NamesLease, hkind]
          exact ⟨⟨patch, hpatch, p, hp, hp'⟩, hrun⟩
    next => exact absurd hds ReadM.not_yields_throw
  next hkind =>
    exact (resultDrafts_yields hds).movesNamed hd (by decide) (by rw [hkind]; decide)
  next hkind =>
    obtain ⟨v, receiver, hv, rfl⟩ := (peerRequestDrafts_yields hds).drafts
    simp only [List.mem_cons, List.not_mem_nil, or_false] at hd
    rcases hd with rfl | rfl | rfl
    · exact movesNamed_of_type (show "a2a.policy.allowed" ∈ otherFacts by decide)
    · exact movesNamed_of_type (show "a2a.peer.requested" ∈ otherFacts by decide)
    · refine ⟨?_, ?_, ?_⟩
      · intro id hid
        rw [NamesAssignment, hkind, hv]
        exact hid
      · intro hcreated
        exact absurd hcreated (show ¬ "assignment.waiting" = "assignment.created" by decide)
      · intro id hid
        rw [Event.leaseOf_of_other
          (show startsWith "assignment.lease." "assignment.waiting" = false by decide)] at hid
        cases hid
  next hkind =>
    rw [hkind] at htypes
    exact movesNamed_of_type (by rw [List.mem_singleton.mp htypes]; decide)
  next hkind =>
    exact (resultDrafts_yields hds).movesNamed hd (by decide) (by rw [hkind]; decide)
  next hkind =>
    exact (resultDrafts_yields hds).movesNamed hd (by decide) (by rw [hkind]; decide)
  all_goals
    next hkind =>
      rw [hkind] at htypes
      refine movesNamed_of_type ?_
      unfold otherFacts
      simp only [List.mem_append, htypes, true_or, or_true]

end drafts

/-! ### Trespassing -/

/-- The row is one of another run. -/
def OfAnother (c : CommandCandidate) (row : Option Dict) : Prop :=
  ∃ other, other ≠ c.runId ∧ ownerOf row = some (.str other)

/-- Nothing ties the assignment the command names to its run: the run has no contract, and the actor
does not hold the assignment. -/
def Unguarded (db : Database) (c : CommandCandidate) : Prop :=
  db.contractOf c.runId = none ∧ ¬ dynamicallyAuthorized c (db.assignmentOf c)

/-- The command names work of another run: without a guard an assignment that a patch would create
anew or that has not ended, or a lease that has not ended.  No guard covers the lease of a proposal. -/
structure Trespass (db : Database) (c : CommandCandidate) (assignmentId : String) : Prop where
  row : (NamesAssignment c assignmentId ∧ Unguarded db c ∧
      OfAnother c (db.loadProjection "assignment" assignmentId) ∧
      (c.kind = .planPatch ∨ ¬ assignmentTerminal (db.assignmentStatus assignmentId))) ∨
    (NamesLease c assignmentId ∧ (c.kind = .planPatch ∨ Unguarded db c) ∧
      OfAnother c (db.loadProjection "lease" assignmentId) ∧
      ¬ leaseTerminal (db.leaseStatus assignmentId))

/-- The command trespasses on some assignment. -/
def Trespasses (db : Database) (c : CommandCandidate) : Prop :=
  ∃ assignmentId, Trespass db c assignmentId

/-- The rows of every other run, before and after, are the same. -/
structure LeavesOthers (runId : String) (db db' : Database) : Prop where
  assignment : ∀ other, other ≠ runId → ∀ id,
    (ownerOf (db.loadProjection "assignment" id) = some (.str other) ∨
      ownerOf (db'.loadProjection "assignment" id) = some (.str other)) →
    db'.loadProjection "assignment" id = db.loadProjection "assignment" id
  lease : ∀ other, other ≠ runId → ∀ id,
    (ownerOf (db.loadProjection "lease" id) = some (.str other) ∨
      ownerOf (db'.loadProjection "lease" id) = some (.str other)) →
    db'.loadProjection "lease" id = db.loadProjection "lease" id

section acceptance

variable {c : CommandCandidate} {db db' : Database} {es : List Event} {clock : DateTime}

theorem not_ofAnother {row : Dict} (h : (row.get? "run_id").bind Json.asStr = some c.runId) :
    ¬ OfAnother c (some row) := by
  rintro ⟨other, hother, howner⟩
  have hrun : row.get? "run_id" = some (.str other) := howner
  rw [hrun] at h
  exact hother (Option.some.inj h)

theorem Passes.contract_isSome {k : Option TeamContract} (h : Passes db clock c k) :
    k.isSome ↔ db.contractOf c.runId ≠ none := by
  have hcontract := h.contract
  unfold Database.ContractIs at hcontract
  split at hcontract
  next hnone =>
    rw [hcontract, hnone]
    simp
  next v hv =>
    rw [hv]
    simp [hcontract.1]

/-- An assignment the checks have found to be of the run is not foreign, nor is its lease. -/
theorem not_ofAnother_of_held {a lease : Dict} {id : String} {holder : Json}
    (hid : (c.payload.get? "assignment_id").map Json.pyStr = some id)
    (ha : db.assignmentOf c = some a) (hrun : (a.get? "run_id").bind Json.asStr = some c.runId)
    (hlease : LeaseHeld db clock c.runId (assignmentIdText c) holder lease) :
    ¬ OfAnother c (db.loadProjection "assignment" id) ∧
      ¬ OfAnother c (db.loadProjection "lease" id) := by
  have htext : assignmentIdText c = id := by
    obtain ⟨v, hv, hstr⟩ := Option.map_eq_some_iff.mp hid
    rw [assignmentIdText, Dict.getD, hv]
    exact hstr
  constructor
  · unfold Database.assignmentOf at ha
    obtain ⟨s, hs, hload⟩ := Option.bind_eq_some_iff.mp ha
    have hsid : some s = some id := (truthyText_pyStr hs).symm.trans hid
    rw [← Option.some.inj hsid, hload]
    exact not_ofAnother hrun
  · rw [← htext, hlease.row]
    exact not_ofAnother hlease.run

/-- What the checks guard: where the run has a contract or the actor holds the assignment, the
assignment that a result or a peer request names is of its run, and so is its lease. -/
theorem Passes.guarded {k : Option TeamContract} (h : Passes db clock c k)
    (hkind : c.kind ∈ [CommandKind.evidence, .artifact, .review, .peerRequest])
    (hguard : ¬ Unguarded db c) {id : String}
    (hid : (c.payload.get? "assignment_id").map Json.pyStr = some id) :
    ¬ OfAnother c (db.loadProjection "assignment" id) ∧
      ¬ OfAnother c (db.loadProjection "lease" id) := by
  have hguarded : k.isSome ∨ dynamicallyAuthorized c (db.assignmentOf c) := by
    by_cases hcontract : db.contractOf c.runId = none
    · exact .inr (by_contra fun hdynamic => hguard ⟨hcontract, hdynamic⟩)
    · exact .inl (h.contract_isSome.mpr hcontract)
  have hchecks := h.kind
  have hresult : ∀ u : Unit, (validateResult c (db.assignmentOf c) k).within db clock = .ok u →
      ¬ OfAnother c (db.loadProjection "assignment" id) ∧
        ¬ OfAnother c (db.loadProjection "lease" id) := by
    intro u hpasses
    obtain ⟨⟨a, ha, hheld⟩, -⟩ := validateResult_passes hpasses hguarded
    obtain ⟨lease, hlease⟩ := hheld.lease
    exact not_ofAnother_of_held hid ha hheld.run hlease
  unfold validateKind at hchecks
  simp only [List.mem_cons, List.not_mem_nil, or_false] at hkind
  rcases hkind with hkind | hkind | hkind | hkind
  · simp only [hkind] at hchecks
    exact hresult () hchecks
  · simp only [hkind] at hchecks
    exact hresult () hchecks
  · simp only [hkind] at hchecks
    exact hresult () hchecks
  · simp only [hkind] at hchecks
    have hdynamic : dynamicallyAuthorized c (db.assignmentOf c) = false := by
      unfold dynamicallyAuthorized
      simp [hkind, leasedResultKinds]
    have hsome : k.isSome := by
      cases hguarded with
      | inl hsome => exact hsome
      | inr hdyn => rw [hdynamic] at hdyn; cases hdyn
    obtain ⟨a, ha, hheld⟩ := (validatePeerRequest_passes hchecks).1 hsome
    obtain ⟨lease, hlease⟩ := hheld.lease
    exact not_ofAnother_of_held hid ha hheld.run hlease

/-- The assignments that a patch of a run with a contract proposes are new. -/
theorem Passes.proposed_fresh {k : Option TeamContract} (h : Passes db clock c k)
    (hkind : c.kind = .planPatch) (hcontract : db.contractOf c.runId ≠ none) {id : String}
    (hid : Proposes c id) : db.loadProjection "assignment" id = none := by
  have hchecks := h.kind
  rw [validateKind, hkind] at hchecks
  obtain ⟨view, hview⟩ := validatePlanPatch_passes hchecks
  have hk : view.contract = k := hview.contract.unique h.contract
  obtain ⟨contract, hsome⟩ := Option.isSome_iff_exists.mp (h.contract_isSome.mpr hcontract)
  obtain ⟨patch, hpatch, p, hp, rfl⟩ := hid
  rw [hview.payload] at hpatch
  obtain rfl := Option.some.inj hpatch
  exact (hview.proposals contract (hk.trans hsome) p hp).fresh

theorem names_map {id : String} (h : NamesAssignment c id) :
    c.kind = .planPatch ∧ Proposes c id ∨
      c.kind ∈ [CommandKind.evidence, .artifact, .review, .peerRequest] ∧
        (c.payload.get? "assignment_id").map Json.pyStr = some id := by
  unfold NamesAssignment at h
  split at h
  next hkind => exact .inl ⟨hkind, h⟩
  next hkind => exact .inr ⟨by rw [hkind]; decide, truthyText_pyStr h⟩
  next hkind => exact .inr ⟨by rw [hkind]; decide, truthyText_pyStr h⟩
  next hkind => exact .inr ⟨by rw [hkind]; decide, truthyText_pyStr h⟩
  next hkind => exact .inr ⟨by rw [hkind]; decide, truthyText_pyStr h⟩
  next => exact h.elim

theorem names_lease_map {id : String} (h : NamesLease c id) :
    c.kind = .planPatch ∨ c.kind ∈ [CommandKind.evidence, .artifact, .review, .peerRequest] ∧
      (c.payload.get? "assignment_id").map Json.pyStr = some id := by
  unfold NamesLease at h
  split at h
  next hkind => exact .inl hkind
  next hkind => exact .inr ⟨by rw [hkind]; decide, h⟩
  next hkind => exact .inr ⟨by rw [hkind]; decide, h⟩
  next hkind => exact .inr ⟨by rw [hkind]; decide, h⟩
  next => exact h.elim

/-- A command that passes and does not trespass names no assignment of another run, but for a result
or a peer request that names one that has ended. -/
theorem Passes.other_ended {k : Option TeamContract} (h : Passes db clock c k)
    (hno : ¬ Trespasses db c) {id : String} (hid : NamesAssignment c id)
    (hother : OfAnother c (db.loadProjection "assignment" id)) :
    c.kind ≠ .planPatch ∧ assignmentTerminal (db.assignmentStatus id) := by
  by_cases hunguarded : Unguarded db c
  · have hnot : ¬ (c.kind = .planPatch ∨ ¬ assignmentTerminal (db.assignmentStatus id)) :=
      fun hopen => hno ⟨id, ⟨.inl ⟨hid, hunguarded, hother, hopen⟩⟩⟩
    push Not at hnot
    exact hnot
  · exfalso
    rcases names_map hid with ⟨hkind, hproposes⟩ | ⟨hkind, htext⟩
    · have hcontract : db.contractOf c.runId ≠ none := by
        intro hnone
        refine hunguarded ⟨hnone, ?_⟩
        simp [dynamicallyAuthorized, hkind, leasedResultKinds]
      obtain ⟨other, -, howner⟩ := hother
      rw [h.proposed_fresh hkind hcontract hproposes] at howner
      cases howner
    · exact (h.guarded hkind hunguarded htext).1 hother

theorem Passes.other_lease_ended {k : Option TeamContract} (h : Passes db clock c k)
    (hno : ¬ Trespasses db c) {id : String} (hid : NamesLease c id)
    (hother : OfAnother c (db.loadProjection "lease" id)) :
    leaseTerminal (db.leaseStatus id) := by
  by_contra hopen
  by_cases hloose : c.kind = .planPatch ∨ Unguarded db c
  · exact hno ⟨id, ⟨.inr ⟨hid, hloose, hother, hopen⟩⟩⟩
  · push Not at hloose
    rcases names_lease_map hid with hkind | ⟨hkind, htext⟩
    · exact hloose.1 hkind
    · exact (h.guarded hkind hloose.2 htext).2 hother

/-- What the events of an acceptance move. -/
theorem Accepted.moves (h : Accepted c db es db') : ∀ e ∈ es, e.runId = c.runId ∧
    (∀ id, e.assignmentOf = some id → NamesAssignment c id) ∧
    (e.type = "assignment.created" → c.kind = .planPatch) ∧
    ∀ id, e.leaseOf = some id → NamesLease c id ∧ e.get? "run_id" = none := by
  obtain ⟨acceptedAt, ds, hds, hmem⟩ := h.mem
  intro e he
  rcases hmem e he with rfl | ⟨d, hd, createdAt, rfl⟩
  · have htype : (acceptedEvent c acceptedAt).type ∈
        "candidate.accepted" :: otherFacts ++ candidateNotes :=
      List.mem_append_left _ List.mem_cons_self
    obtain ⟨hassignment, hlease⟩ := unnamed_of_type htype
    refine ⟨rfl, ?_, ?_, ?_⟩
    · intro id hid
      rw [hassignment] at hid
      cases hid
    · intro hcreated
      exact absurd hcreated (show ¬ "candidate.accepted" = "assignment.created" by decide)
    · intro id hid
      rw [hlease] at hid
      cases hid
  · have hmoves := @movesNamed_draft c acceptedAt createdAt ds d
      (acceptedEvent c acceptedAt).id hds hd
    exact ⟨rfl, hmoves.assignment, hmoves.created, hmoves.lease⟩

/-- **An acceptance that does not trespass** leaves the work of other runs alone. -/
theorem Accepted.leavesOthers (h : Accepted c db es db') (hno : ¬ Trespasses db c) :
    LeavesOthers c.runId db db' := by
  obtain ⟨clock, hvalid⟩ := h.valid
  obtain ⟨k, hpasses⟩ := validateCandidate_passes hvalid
  have hmoves := h.moves
  constructor
  · intro other hother id
    rw [h.wrote.assignment]
    refine Database.foldl_frame ?_ ?_
    · intro howner e he
      obtain ⟨-, hnames, hcreated, -⟩ := hmoves e he
      by_cases hid : e.assignmentOf = some id
      · obtain ⟨hkind, hended⟩ := hpasses.other_ended hno (hnames id hid) ⟨other, hother, howner⟩
        exact Database.assignmentAfter_of_terminal hended (fun htype => absurd (hcreated htype) hkind)
      · exact Database.assignmentAfter_of_ne hid
    · intro e he row howner
      obtain ⟨hrun, -⟩ := hmoves e he
      refine Database.owner_assignmentAfter ?_ howner
      rw [hrun]
      exact fun heq => hother (Json.str.inj heq)
  · intro other hother id
    rw [h.wrote.lease]
    refine Database.foldl_frame ?_ ?_
    · intro howner e he
      obtain ⟨-, -, -, hnames⟩ := hmoves e he
      by_cases hid : e.leaseOf = some id
      · exact Database.leaseAfter_of_terminal
          (hpasses.other_lease_ended hno (hnames id hid).1 ⟨other, hother, howner⟩)
      · exact Database.leaseAfter_of_ne hid
    · intro e he row howner
      obtain ⟨hrun, -, -, hnames⟩ := hmoves e he
      by_cases hid : e.leaseOf = some id
      · refine Database.owner_leaseAfter ?_ (hnames id hid).2 howner
        rw [hrun]
        exact fun heq => hother (Json.str.inj heq)
      · rw [Database.leaseAfter_of_ne hid]
        exact howner

/-- Events that move no rows leave the work of every run alone. -/
theorem leavesOthers_of_unnamed (h : db.Wrote es db')
    (hes : ∀ e ∈ es, e.assignmentOf = none ∧ e.leaseOf = none) : LeavesOthers c.runId db db' := by
  constructor
  · intro other _ id
    rw [h.assignment]
    have hstays : ∀ e ∈ es, ∀ row, Database.assignmentAfter e id row = row := by
      intro e he row
      exact Database.assignmentAfter_of_ne (by rw [(hes e he).1]; simp)
    exact Database.foldl_frame (fun _ e he => hstays e he _) (fun e he row howner => by
      rwa [hstays e he row])
  · intro other _ id
    rw [h.lease]
    have hstays : ∀ e ∈ es, ∀ row, Database.leaseAfter e id row = row := by
      intro e he row
      exact Database.leaseAfter_of_ne (by rw [(hes e he).2]; simp)
    exact Database.foldl_frame (fun _ e he => hstays e he _) (fun e he row howner => by
      rwa [hstays e he row])

end acceptance

/-! ### Submissions -/

/-- **Every call of a submission**, in every state of the store, leaves the work of other runs alone
unless the command trespasses there. -/
theorem submission_leavesOthers {dispatch : Option DispatchContext} {c : CommandCandidate}
    {op : (withStore kernelInterface).Op} {r : (withStore kernelInterface).Reply op} {w w' : StoreWorld}
    (hop : (submit controlKernel dispatch c).CanRequest anyReply op) (hstep : kernelStep w op r w')
    (hno : ¬ Trespasses w.db c) : LeavesOthers c.runId w.db w'.db := by
  have hcall : KernelCall anyReply controlKernel c op :=
    (calls_submit anyReply controlKernel dispatch c).canRequest hop
  cases hcall.effect hstep with
  | noted es hwrote hnotes =>
      refine leavesOthers_of_unnamed hwrote ?_
      intro e he
      exact unnamed_of_type (List.mem_append_right _ (hnotes e he).2.2)
  | accepted es haccepted _ => exact haccepted.accepted.leavesOthers hno

/-! ### A borrowed assignment -/

theorem task_ne : "task" ≠ "" := by decide

theorem runA_ne : "run-a" ≠ "" := by decide

theorem coordinator_ne : "coordinator" ≠ "" := by decide

theorem builder_ne : "builder" ≠ "" := by decide

theorem scout_ne : "scout" ≠ "" := by decide

theorem demo_ne : "demo" ≠ "" := by decide

theorem build_ne : "build" ≠ "" := by decide

theorem artifact_ne : "artifact" ≠ "" := by decide

theorem patch_ne : "patch" ≠ "" := by decide

theorem defaultParallel_bounds : 1 ≤ (1 : ℤ) ∧ (1 : ℤ) ≤ 32 := by decide

theorem defaultAttempts_bounds : 1 ≤ (3 : ℤ) ∧ (3 : ℤ) ≤ 20 := by decide

theorem defaultLease_bounds : 1 ≤ (30 : ℤ) ∧ (30 : ℤ) ≤ 3600 := by decide

/-- An event that other code has appended. -/
def setupEvent (id runId type : String) (payload : Dict) : Event where
  id := id
  runId := runId
  taskId := "task"
  type := type
  source := "runtime.team"
  payload := payload
  createdAt := ⟨0, some 0⟩

/-- Two runs without a contract, and an agent. -/
def twoRuns : StoreWorld where
  db := runAll Database.appended .initial
    [setupEvent "a" "run-a" "run.created" [], setupEvent "b" "run-b" "run.created" [],
      setupEvent "builder" "run-b" "agent.registered" [("agent_id", .str "builder")]]
  drawn := 0

/-- The coordinator of the second run gives its assignment to the builder. -/
def buildersPatch : CommandCandidate where
  candidateId := "patch"
  idempotencyKey := "run-b:plan"
  runId := "run-b"
  taskId := "task"
  actorId := "coordinator"
  kind := .planPatch
  payload := [("revision", .int 1), ("contract_id", .str "demo"), ("contract_version", .int 1),
    ("reason", .str "start"),
    ("stages", .list [.dict [("stage_id", .str "build"), ("state", .str "active"),
      ("agent_id", .str "builder")]]),
    ("assignments", .list [.dict [("assignment_id", .str "run-b:build"), ("stage_id", .str "build"),
      ("attempt", .int 1), ("agent_id", .str "builder"), ("goal", .str "build"),
      ("result_kind", .str "artifact"), ("lease_seconds", .int 30)]])]
  taskId_ne := task_ne
  actorId_ne := coordinator_ne

/-- The scout of the first run claims it. -/
def borrowedEvidence : CommandCandidate where
  candidateId := "evidence"
  idempotencyKey := "run-a:evidence"
  runId := "run-a"
  taskId := "task"
  actorId := "scout"
  kind := .evidence
  payload := [("assignment_id", .str "run-b:build"), ("summary", .str "done"),
    ("evidence_refs", .list [])]
  runId_ne := runA_ne
  taskId_ne := task_ne
  actorId_ne := scout_ne

/-- The builder's own result. -/
def buildersArtifact : CommandCandidate where
  candidateId := "artifact"
  idempotencyKey := "run-b:artifact"
  runId := "run-b"
  taskId := "task"
  actorId := "builder"
  kind := .artifact
  payload := [("assignment_id", .str "run-b:build"), ("title", .str "build"),
    ("summary", .str "done"), ("evidence_refs", .list [])]
  taskId_ne := task_ne
  actorId_ne := builder_ne

/-- Replies at one time, and nobody else. -/
def aloneAt : Program.Strategy kernelStep := kernelStrategy ⟨1000000, some 0⟩ rfl

/-- The point a submission that nobody disturbs has come to after `n` calls. -/
def submitAlone (c : CommandCandidate) (n : ℕ) (w : StoreWorld) :
    Program (withStore kernelInterface) (Except RuntimeError KernelDecision) × StoreWorld :=
  aloneAt.after n (submit controlKernel none c) w

/-- The submission has accepted its candidate. -/
def acceptedWithin (c : CommandCandidate) (n : ℕ) (w : StoreWorld) : Bool :=
  match (submitAlone c n w).1.result with
  | some (.ok d) => d.accepted
  | _ => false

theorem runs_of_acceptedWithin {c : CommandCandidate} {n : ℕ} {w : StoreWorld}
    (h : acceptedWithin c n w) : ∃ d : KernelDecision, d.accepted = true ∧
      Program.Runs kernelStep (submit controlKernel none c) w (.ok d) (submitAlone c n w).2 := by
  unfold acceptedWithin at h
  split at h
  next d hresult => exact ⟨d, h, aloneAt.runs_of_result hresult⟩
  next => cases h

theorem submitAlone_next {c : CommandCandidate} {n : ℕ} {w : StoreWorld}
    (h : (submitAlone c (n + 1) w).2 ≠ (submitAlone c n w).2) :
    ∃ op r, (submit controlKernel none c).CanRequest anyReply op ∧
      kernelStep (submitAlone c n w).2 op r (submitAlone c (n + 1) w).2 :=
  aloneAt.next_step h

/-- The store after the patch. -/
def builderAtWork : StoreWorld := (submitAlone buildersPatch 30 twoRuns).2

/-- The result of a stranger in another run ends the builder's assignment. -/
theorem borrowed_evidence :
    (∃ d : KernelDecision, d.accepted = true ∧
      Program.Runs kernelStep (submit controlKernel none buildersPatch) twoRuns (.ok d)
        builderAtWork) ∧
    ∃ d : KernelDecision, d.accepted = true ∧
      Program.Runs kernelStep (submit controlKernel none borrowedEvidence) builderAtWork (.ok d)
        (submitAlone borrowedEvidence 30 builderAtWork).2 ∧
      ¬ LeavesOthers borrowedEvidence.runId builderAtWork.db
        (submitAlone borrowedEvidence 30 builderAtWork).2.db := by
  obtain ⟨d, hd, hruns⟩ := runs_of_acceptedWithin
    (show acceptedWithin borrowedEvidence 30 builderAtWork by decide +kernel)
  refine ⟨runs_of_acceptedWithin (by decide +kernel), d, hd, hruns, ?_⟩
  intro hleaves
  have howner : ownerOf (builderAtWork.db.loadProjection "assignment" "run-b:build") =
      some (.str "run-b") := by
    decide +kernel
  have hsame := hleaves.assignment "run-b" (by decide) "run-b:build" (.inl howner)
  have hstatus : (submitAlone borrowedEvidence 30 builderAtWork).2.db.assignmentStatus "run-b:build" =
      builderAtWork.db.assignmentStatus "run-b:build" := congrArg (·.bind (Dict.get? · "status")) hsame
  exact absurd hstatus (by decide +kernel)

/-- The store right before the builder's result is committed, and after it. -/
def builderCommits : StoreWorld := (submitAlone buildersArtifact 15 builderAtWork).2

def builderDone : StoreWorld := (submitAlone buildersArtifact 16 builderAtWork).2

theorem builder_status :
    builderCommits.db.assignmentStatus "run-b:build" = some (.str "running") ∧
      builderDone.db.assignmentStatus "run-b:build" = some (.str "succeeded") := by
  decide +kernel

theorem builderDone_ne : builderDone ≠ builderCommits := by
  intro heq
  have hstatus := builder_status
  rw [heq, hstatus.1] at hstatus
  simp at hstatus

/-- The commit of the builder's own result ends its assignment, and touches no other run. -/
theorem own_artifact_leavesOthers : ∃ op r,
    (submit controlKernel none buildersArtifact).CanRequest anyReply op ∧
      kernelStep builderCommits op r builderDone ∧
      LeavesOthers buildersArtifact.runId builderCommits.db builderDone.db := by
  obtain ⟨op, r, hop, hstep⟩ := submitAlone_next builderDone_ne
  have hguarded : ¬ Unguarded builderCommits.db buildersArtifact := by
    rintro ⟨-, hdynamic⟩
    exact hdynamic (by decide +kernel)
  have hno : ¬ Trespasses builderCommits.db buildersArtifact := by
    rintro ⟨id, ⟨⟨-, hunguarded, -⟩ | ⟨-, hpatch | hunguarded, -⟩⟩⟩
    · exact hguarded hunguarded
    · exact absurd hpatch (by decide)
    · exact hguarded hunguarded
  exact ⟨op, r, hop, hstep, submission_leavesOthers hop hstep hno⟩

end CrazyHarness
