import CrazyHarness.Kernel.Calls
import CrazyHarness.Kernel.Materialize

/-! # The facts of an accepted command

What `_materialize` can give for a candidate, whatever the store replies: which drafts there are for
each kind of command (`resultDrafts_yields` and its companions), and that every event is one of them,
stamped (`mem_of_materialize`).  `controlKernel` is the kernel with its own checks and facts, and
`acceptance_cases` says what an acceptance of it writes. -/

namespace CrazyHarness

open Lib ReadM

variable {c : CommandCandidate} {α : Type} {R : (op : ReadOp) → op.Reply → Prop}

/-! ### What reads can give -/

theorem raises_yields {r : Except StoreError α} {a : α} : (raises r).Yields a ↔ r = .ok a := by
  cases r with
  | ok b =>
      constructor
      · intro h
        rw [yields_pure.mp h]
      · intro h
        exact yields_pure.mpr (Except.ok.inj h)
  | error e =>
      constructor
      · intro h
        exact absurd h not_yields_throw
      · intro h
        cases h

theorem item_ok {d : Dict} {key : String} {v : Json} : item d key = .ok v ↔ d.get? key = some v := by
  unfold item
  split <;> simp_all

theorem payloadItem_yields {key : String} {v : Json} :
    (payloadItem c key).Yields v ↔ c.payload.get? key = some v :=
  raises_yields.trans item_ok

/-! ### The drafts of a kind -/

/-- The end of a lease, if it is active. -/
def IsRelease (assignmentId : String) (released : List Draft) : Prop :=
  released = [] ∨ ∃ leaseId stageId agentId : Json, released =
    [{ suffix := "assignment-" ++ assignmentId ++ "-lease-released",
       type := "assignment.lease.released",
       body := [("lease_id", leaseId), ("assignment_id", .str assignmentId), ("stage_id", stageId),
         ("agent_id", agentId), ("reason", .str "assignment_succeeded")] }]

theorem releaseDrafts_yields {ds : List Draft} (h : (releaseDrafts c).Yields ds) :
    ∃ v, c.payload.get? "assignment_id" = some v ∧ IsRelease v.pyStr ds := by
  unfold releaseDrafts at h
  obtain ⟨v, hv, h⟩ := yields_bind.mp h
  obtain ⟨lease, -, h⟩ := yields_bind.mp h
  refine ⟨v, payloadItem_yields.mp hv, ?_⟩
  cases lease with
  | none => exact .inl (yields_pure.mp h).symm
  | some lease =>
      dsimp only at h
      split at h
      · obtain ⟨leaseId, -, h⟩ := yields_bind.mp h
        obtain ⟨agentId, -, h⟩ := yields_bind.mp h
        exact .inr ⟨leaseId, _, agentId, (yields_pure.mp h).symm⟩
      · exact .inl (yields_pure.mp h).symm

/-- The facts of a result. -/
structure ResultFacts (c : CommandCandidate) (name : String) (ds : List Draft) : Prop where
  drafts : ∃ (v stageId : Json) (released : List Draft) (body : Dict),
    c.payload.get? "assignment_id" = some v ∧ IsRelease v.pyStr released ∧
    ds = [{ suffix := name ++ "-recorded", type := name ++ ".recorded",
            body := c.payload.update [("agent_id", .str c.actorId), ("stage_id", stageId)],
            source := c.actorId },
          { suffix := name ++ "-assignment-succeeded", type := "assignment.succeeded",
            body := [("assignment_id", v), ("stage_id", stageId)] }] ++ released ++
        [{ suffix := name ++ "-result", type := "agent.result.submitted", body := body,
           source := c.actorId }]

theorem resultDrafts_yields {name : String} {result : Json → ReadM Dict} {ds : List Draft}
    (h : (resultDrafts c name result).Yields ds) : ResultFacts c name ds := by
  unfold resultDrafts at h
  obtain ⟨stageId, -, h⟩ := yields_bind.mp h
  obtain ⟨v, hv, h⟩ := yields_bind.mp h
  obtain ⟨released, hreleased, h⟩ := yields_bind.mp h
  obtain ⟨body, -, h⟩ := yields_bind.mp h
  obtain ⟨w, hw, hrelease⟩ := releaseDrafts_yields hreleased
  have hvw : c.payload.get? "assignment_id" = some v := payloadItem_yields.mp hv
  rw [hvw] at hw
  obtain rfl := Option.some.inj hw
  exact ⟨v, stageId, released, body, hvw, hrelease, (yields_pure.mp h).symm⟩

/-- The facts of a peer request. -/
structure RequestFacts (c : CommandCandidate) (ds : List Draft) : Prop where
  drafts : ∃ v receiver : Json, c.payload.get? "assignment_id" = some v ∧
    ds = [
      { suffix := "peer-policy-allowed", type := "a2a.policy.allowed",
        body := [("assignment_id", v), ("sender", .str c.actorId), ("receiver", receiver),
          ("depth", c.payload.getD "depth" (.int 1)),
          ("remaining_budget", .int (peerRequestLimit - 1 : ℕ))] },
      { suffix := "peer-requested", type := "a2a.peer.requested",
        body := c.payload.update [("sender", .str c.actorId),
          ("correlation_id", c.payload.getD "correlation_id" (.str c.candidateId))],
        source := c.actorId },
      { suffix := "peer-assignment-waiting", type := "assignment.waiting",
        body := [("assignment_id", v),
          ("correlation_id", c.payload.getD "correlation_id" (.str c.candidateId))] }]

theorem peerRequestDrafts_yields {ds : List Draft} (h : (peerRequestDrafts c).Yields ds) :
    RequestFacts c ds := by
  unfold peerRequestDrafts at h
  obtain ⟨v, hv, h⟩ := yields_bind.mp h
  obtain ⟨receiver, -, h⟩ := yields_bind.mp h
  exact ⟨v, receiver, payloadItem_yields.mp hv, (yields_pure.mp h).symm⟩

/-- The types of the facts of a command. -/
def factTypes : CommandKind → List String
  | .planPatch => ["orchestration.plan.patched", "assignment.created", "assignment.lease.acquired",
      "assignment.running", "orchestration.blocked"]
  | .evidence => ["evidence.recorded", "assignment.succeeded", "assignment.lease.released",
      "agent.result.submitted"]
  | .artifact => ["artifact.recorded", "assignment.succeeded", "assignment.lease.released",
      "agent.result.submitted"]
  | .review => ["review.recorded", "assignment.succeeded", "assignment.lease.released",
      "agent.result.submitted"]
  | .peerRequest => ["a2a.policy.allowed", "a2a.peer.requested", "assignment.waiting"]
  | .peerResponse => ["a2a.peer.responded"]
  | .complete => ["completion.requested", "completion.gate.passed", "run.succeeded",
      "completion.gate.failed", "agent.nudged"]
  | .memory => ["memory.candidate.proposed", "memory.admission.decided", "memory.activated",
      "memory.review.requested", "memory.rejected"]
  | .evolution => ["evolution.candidate.proposed", "evolution.offline.passed"]

/-- A draft of a plan patch shows the plan, starts one of its assignments or blocks the run. -/
theorem mem_planDrafts {patch : PlanPatch} {acceptedAt : DateTime} {d : Draft}
    (h : d ∈ planDrafts c patch acceptedAt) :
    d.type = "orchestration.plan.patched" ∨ d.type = "orchestration.blocked" ∨
      ∃ p ∈ patch.assignments, d ∈ proposalDrafts patch acceptedAt p := by
  unfold planDrafts at h
  rcases List.mem_append.mp h with hplan | hblocked
  · cases List.mem_cons.mp hplan with
    | inl heq =>
        rw [heq]
        exact .inl rfl
    | inr hproposal => exact .inr (.inr (List.mem_flatMap.mp hproposal))
  · split at hblocked
    · rw [List.mem_singleton.mp hblocked]
      exact .inr (.inl rfl)
    · cases hblocked

theorem type_of_planDrafts {patch : PlanPatch} {acceptedAt : DateTime} {d : Draft}
    (h : d ∈ planDrafts c patch acceptedAt) : d.type ∈ factTypes .planPatch := by
  rcases mem_planDrafts h with htype | htype | ⟨p, -, hd⟩
  · rw [htype]
    decide
  · rw [htype]
    decide
  · simp only [proposalDrafts, List.mem_cons, List.not_mem_nil, or_false] at hd
    rcases hd with rfl | rfl | rfl <;> simp [factTypes]

theorem ResultFacts.type {name : String} {ds : List Draft} (h : ResultFacts c name ds) {d : Draft}
    (hd : d ∈ ds) : d.type ∈ [name ++ ".recorded", "assignment.succeeded", "assignment.lease.released",
      "agent.result.submitted"] := by
  obtain ⟨v, stageId, released, body, -, hrelease, rfl⟩ := h.drafts
  simp only [List.mem_append, List.mem_cons, List.not_mem_nil, or_false] at hd
  rcases hd with ((rfl | rfl) | hd) | rfl
  · simp
  · simp
  · rcases hrelease with rfl | ⟨leaseId, stage, agentId, rfl⟩
    · cases hd
    · rw [List.mem_singleton.mp hd]
      simp
  · simp

theorem type_of_completeDrafts {ds : List Draft} (h : (completeDrafts c).Yields ds) :
    ∀ d ∈ ds, d.type ∈ factTypes .complete := by
  unfold completeDrafts at h
  obtain ⟨events, -, h⟩ := yields_bind.mp h
  obtain ⟨contract, -, h⟩ := yields_bind.mp h
  intro d hd
  dsimp only at h
  split at h
  · rw [← yields_pure.mp h] at hd
    simp only [List.mem_cons, List.not_mem_nil, or_false] at hd
    rcases hd with rfl | rfl | rfl <;> simp [factTypes]
  · rw [← yields_pure.mp h] at hd
    simp only [List.mem_cons, List.not_mem_nil, or_false] at hd
    rcases hd with rfl | rfl | rfl <;> simp [factTypes]

theorem type_of_memoryDrafts {ds : List Draft} (h : (memoryDrafts c).Yields ds) :
    ∀ d ∈ ds, d.type ∈ factTypes .memory := by
  unfold memoryDrafts at h
  obtain ⟨refs, -, h⟩ := yields_bind.mp h
  obtain ⟨count, -, h⟩ := yields_bind.mp h
  obtain ⟨confidence, -, h⟩ := yields_bind.mp h
  obtain ⟨candidateId, -, h⟩ := yields_bind.mp h
  intro d hd
  dsimp only at h
  rw [← yields_pure.mp h] at hd
  simp only [List.mem_cons, List.not_mem_nil, or_false] at hd
  rcases hd with rfl | rfl | rfl
  · simp [factTypes]
  · simp [factTypes]
  · unfold admissionFact
    dsimp only
    split_ifs <;> simp [factTypes]

theorem type_of_evolutionDrafts {ds : List Draft} (h : (evolutionDrafts c).Yields ds) :
    ∀ d ∈ ds, d.type ∈ factTypes .evolution := by
  unfold evolutionDrafts at h
  obtain ⟨candidateId, -, h⟩ := yields_bind.mp h
  intro d hd
  rw [← yields_pure.mp h] at hd
  simp only [List.mem_cons, List.not_mem_nil, or_false] at hd
  rcases hd with rfl | rfl <;> simp [factTypes]

/-- The facts of a command are those of its kind. -/
theorem type_of_drafts {acceptedAt : DateTime} {ds : List Draft}
    (h : (drafts c acceptedAt).Yields ds) : ∀ d ∈ ds, d.type ∈ factTypes c.kind := by
  unfold drafts at h
  intro d hd
  split at h
  next hkind =>
    rw [hkind]
    split at h
    · rw [← yields_pure.mp h] at hd
      exact type_of_planDrafts hd
    · exact absurd h not_yields_throw
  next hkind =>
    rw [hkind]
    exact (resultDrafts_yields h).type hd
  next hkind =>
    rw [hkind]
    obtain ⟨v, receiver, -, rfl⟩ := (peerRequestDrafts_yields h).drafts
    simp only [List.mem_cons, List.not_mem_nil, or_false] at hd
    rcases hd with rfl | rfl | rfl <;> simp [factTypes]
  next hkind =>
    rw [hkind]
    rw [← yields_pure.mp h] at hd
    rw [List.mem_singleton.mp hd]
    simp [factTypes]
  next hkind =>
    rw [hkind]
    exact (resultDrafts_yields h).type hd
  next hkind =>
    rw [hkind]
    exact (resultDrafts_yields h).type hd
  next hkind =>
    rw [hkind]
    exact type_of_completeDrafts h d hd
  next hkind =>
    rw [hkind]
    exact type_of_memoryDrafts h d hd
  next hkind =>
    rw [hkind]
    exact type_of_evolutionDrafts h d hd

/-! ### The events -/

theorem stamp_yields {causationId : String} {ds : List Draft} {es : List Event}
    (h : (stamp c causationId ds).YieldsIn R es) :
    List.Forall₂ (fun d e => ∃ createdAt, e = d.event c causationId createdAt) ds es := by
  induction ds generalizing es with
  | nil =>
      rw [← yields_pure.mp h]
      exact .nil
  | cons d ds ih =>
      obtain ⟨createdAt, -, h⟩ := yields_bind.mp h
      obtain ⟨rest, hrest, h⟩ := yields_bind.mp h
      rw [← yields_pure.mp h]
      exact .cons ⟨createdAt, rfl⟩ (ih hrest)

theorem materialize_yields {accepted : Event} {es : List Event}
    (h : (materialize c accepted).YieldsIn R es) :
    ∃ ds, (drafts c accepted.createdAt).YieldsIn R ds ∧
      List.Forall₂ (fun d e => ∃ createdAt, e = d.event c accepted.id createdAt) ds es := by
  obtain ⟨ds, hds, hes⟩ := yields_bind.mp h
  exact ⟨ds, hds, stamp_yields hes⟩

theorem forall₂_mem_right {α β : Type*} {R : α → β → Prop} {as : List α} {bs : List β}
    (h : List.Forall₂ R as bs) {b : β} (hb : b ∈ bs) : ∃ a ∈ as, R a b := by
  induction h with
  | nil => cases hb
  | @cons a b' as bs hR _ ih =>
      cases List.mem_cons.mp hb with
      | inl heq =>
          rw [heq]
          exact ⟨a, List.mem_cons_self, hR⟩
      | inr hmem =>
          obtain ⟨a', ha', hR'⟩ := ih hmem
          exact ⟨a', List.mem_cons_of_mem a ha', hR'⟩

theorem factTypes_undecided (kind : CommandKind) :
    "candidate.accepted" ∉ factTypes kind ∧ "candidate.rejected" ∉ factTypes kind := by
  cases kind <;> decide

/-- The kernel, with its own checks and facts. -/
def controlKernel : KernelRules where
  validate c := (validateCandidate c).verdict
  materialize := materialize
  emits := by
    intro c accepted
    refine Program.asks_canReturn.weaken ?_
    intro r hr events hevents e he
    rw [hevents] at hr
    obtain ⟨ds, hds, hstamped⟩ := materialize_yields (R := fun _ _ => True) hr
    obtain ⟨d, hd, createdAt, rfl⟩ := forall₂_mem_right hstamped he
    have htype := type_of_drafts hds d hd
    refine ⟨rfl, ?_, ?_⟩
    · rintro heq
      exact (factTypes_undecided c.kind).1 (heq ▸ htype)
    · rintro heq
      exact (factTypes_undecided c.kind).2 (heq ▸ htype)

/-- An acceptance of the kernel: its checks pass, the new events come from the acceptance and its
facts, in this order, and the others were there before. -/
structure Accepted (c : CommandCandidate) (db : Database) (es : List Event) (db' : Database) :
    Prop where
  valid : ∃ clock : DateTime, (validateCandidate c).within db clock = .ok ()
  facts : ∃ acceptedAt ds formal, (drafts c acceptedAt).Yields ds ∧
    List.Forall₂ (fun d e => ∃ createdAt,
      e = Draft.event d c (acceptedEvent c acceptedAt).id createdAt) ds formal ∧
    es.Sublist (acceptedEvent c acceptedAt :: formal) ∧
    ∀ e ∈ acceptedEvent c acceptedAt :: formal, ∃ f ∈ db'.events.rows, f.SameFact e
  wrote : db.Wrote es db'

theorem Acceptance.accepted {A : Replies} {db db' : Database} {es : List Event}
    (h : Acceptance A controlKernel c db es db') : Accepted c db es db' where
  valid := by
    obtain ⟨clock, hvalid⟩ := h.valid
    exact ⟨clock, Check.verdict_none.mp hvalid⟩
  facts := by
    obtain ⟨acceptedAt, formal, hformal, hes, hpresent⟩ := h.formal
    obtain ⟨ds, hds, hstamped⟩ := materialize_yields hformal
    exact ⟨acceptedAt, ds, formal, hds.yields, hstamped, hes, hpresent⟩
  wrote := h.wrote

/-- An event of an acceptance is the acceptance itself or one of its facts. -/
theorem Accepted.mem {db db' : Database} {es : List Event} (h : Accepted c db es db') :
    ∃ acceptedAt ds, (drafts c acceptedAt).Yields ds ∧ ∀ e ∈ es, e = acceptedEvent c acceptedAt ∨
      ∃ d ∈ ds, ∃ createdAt, e = d.event c (acceptedEvent c acceptedAt).id createdAt := by
  obtain ⟨acceptedAt, ds, formal, hds, hstamped, hes, -⟩ := h.facts
  refine ⟨acceptedAt, ds, hds, ?_⟩
  intro e he
  cases List.mem_cons.mp (hes.subset he) with
  | inl heq => exact .inl heq
  | inr hmem => exact .inr (forall₂_mem_right hstamped hmem)

end CrazyHarness
