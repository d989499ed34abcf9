import CrazyHarness.Lib.Names
import CrazyHarness.Kernel.Passes
import CrazyHarness.Kernel.Facts
import CrazyHarness.Runtime.Cancellation

/-! # The identifiers of formal events

The kernel, the mailboxes, the scheduler and the steps of the runtime each make the identifier of an
event from a name that they put together with colons.  The idempotency key of a candidate may contain
colons, and so may the assignments that some of its facts name, so two names can agree.
`idsApart_iff` says exactly when: a key goes on into the name of another writer, or another writer's
name goes on into an assignment of the candidate. -/

namespace CrazyHarness

open Lib ReadM

/-! ### Suffixes -/

/-- The suffix of a fact about an assignment. -/
def assignmentSuffix (assignmentId step : String) : String := "assignment-" ++ assignmentId ++ step

/-- The suffixes that the facts of every candidate of a kind have. -/
def draftSuffixes : CommandKind → List String
  | .planPatch => ["plan-patched", "orchestration-blocked"]
  | .evidence => ["evidence-recorded", "evidence-assignment-succeeded", "evidence-result"]
  | .peerRequest => ["peer-policy-allowed", "peer-requested", "peer-assignment-waiting"]
  | .peerResponse => ["peer-responded"]
  | .artifact => ["artifact-recorded", "artifact-assignment-succeeded", "artifact-result"]
  | .review => ["review-recorded", "review-assignment-succeeded", "review-result"]
  | .complete => ["completion-requested", "completion-gate-passed", "run-succeeded",
      "completion-gate-failed", "completion-nudge"]
  | .memory => ["memory-proposed", "memory-admission", "memory-activated", "memory-review",
      "memory-rejected"]
  | .evolution => ["evolution-proposed", "evolution-offline-passed"]

/-- The suffixes of what is written about a candidate before it is accepted, or instead. -/
def noteSuffixes : CommandKind → List String
  | .peerRequest => ["submitted", "recovered", "rejected", "peer-policy-denied"]
  | _ => ["submitted", "recovered", "rejected"]

/-- What becomes of the assignments that a candidate of the kind names. -/
def assignmentSteps : CommandKind → List String
  | .planPatch => ["-created", "-lease-acquired", "-running"]
  | .evidence => ["-lease-released"]
  | .artifact => ["-lease-released"]
  | .review => ["-lease-released"]
  | _ => []

/-- The assignments that the facts of a candidate name in their suffixes. -/
def namedAssignments (c : CommandCandidate) : List String :=
  match c.kind with
  | .planPatch => ((PlanPatch.ofJson (.dict c.payload)).map
      (fun patch => patch.assignments.map AssignmentProposal.assignmentId)).getD []
  | .evidence => ((c.payload.get? "assignment_id").map Json.pyStr).toList
  | .artifact => ((c.payload.get? "assignment_id").map Json.pyStr).toList
  | .review => ((c.payload.get? "assignment_id").map Json.pyStr).toList
  | _ => []

/-- The suffixes of the facts about some assignments. -/
def stepSuffixes (kind : CommandKind) (ids : List String) : List String :=
  ids.flatMap (fun id => (assignmentSteps kind).map (assignmentSuffix id))

/-- The suffixes that do not depend on the payload. -/
def fixedSuffixes (kind : CommandKind) : List String :=
  noteSuffixes kind ++ "accepted" :: draftSuffixes kind

/-- The suffixes that `_event` is called with for a candidate. -/
def eventSuffixes (c : CommandCandidate) : List String :=
  fixedSuffixes c.kind ++ stepSuffixes c.kind (namedAssignments c)

variable {c c' : CommandCandidate} {s t p q x : String} {ds : List Draft} {d : Draft}
  {kind : CommandKind} {ids ids' : List String}

theorem mem_stepSuffixes : s ∈ stepSuffixes kind ids ↔
    ∃ id ∈ ids, ∃ step ∈ assignmentSteps kind, assignmentSuffix id step = s := by
  simp only [stepSuffixes, List.mem_flatMap, List.mem_map]

theorem stepSuffixes_sublist (h : ids.Sublist ids') :
    (stepSuffixes kind ids).Sublist (stepSuffixes kind ids') := h.flatMap _

/-! ### The facts of a candidate -/

/-- Facts about assignments stand between facts that every candidate of the kind has. -/
structure Spelled (c : CommandCandidate) (suffixes : List String) : Prop where
  parts : ∃ before ids after, suffixes = before ++ stepSuffixes c.kind ids ++ after ∧
    ids.Sublist (namedAssignments c) ∧ (before ++ after).Sublist (draftSuffixes c.kind)

theorem spelled_of_sublist {suffixes : List String} (h : suffixes.Sublist (draftSuffixes c.kind)) :
    Spelled c suffixes :=
  ⟨suffixes, [], [], by simp [stepSuffixes], List.nil_sublist _, by simpa using h⟩

theorem planDrafts_suffixes (patch : PlanPatch) (acceptedAt : DateTime) :
    (planDrafts c patch acceptedAt).map Draft.suffix = ["plan-patched"] ++
      stepSuffixes .planPatch (patch.assignments.map AssignmentProposal.assignmentId) ++
      (if isSet patch.blockedReason then ["orchestration-blocked"] else []) := by
  unfold planDrafts stepSuffixes
  rw [List.map_append, List.map_cons, List.map_flatMap, List.flatMap_map]
  congr 1
  split <;> rfl

theorem ResultFacts.suffixes {name : String} (h : ResultFacts c name ds) :
    ∃ v, c.payload.get? "assignment_id" = some v ∧ ∃ ids : List String, ids.Sublist [v.pyStr] ∧
      ds.map Draft.suffix = [name ++ "-recorded", name ++ "-assignment-succeeded"] ++
        ids.map (assignmentSuffix · "-lease-released") ++ [name ++ "-result"] := by
  obtain ⟨v, stageId, released, body, hv, hrelease, rfl⟩ := h.drafts
  refine ⟨v, hv, ?_⟩
  rcases hrelease with rfl | ⟨leaseId, stage, agentId, rfl⟩
  · exact ⟨[], List.nil_sublist _, rfl⟩
  · exact ⟨[v.pyStr], .refl _, rfl⟩

/-- `EVIDENCE`, `ARTIFACT` and `REVIEW`. -/
theorem ResultFacts.spelled {name : String} (h : ResultFacts c name ds)
    (hnamed : namedAssignments c = ((c.payload.get? "assignment_id").map Json.pyStr).toList)
    (hsteps : assignmentSteps c.kind = ["-lease-released"])
    (hfixed : draftSuffixes c.kind =
      [name ++ "-recorded", name ++ "-assignment-succeeded", name ++ "-result"]) :
    Spelled c (ds.map Draft.suffix) := by
  obtain ⟨v, hv, ids, hids, heq⟩ := h.suffixes
  refine ⟨[name ++ "-recorded", name ++ "-assignment-succeeded"], ids, [name ++ "-result"], ?_, ?_, ?_⟩
  · rw [heq, stepSuffixes, hsteps, List.map_eq_flatMap]
    rfl
  · rw [hnamed, hv]
    exact hids
  · rw [hfixed]
    exact .refl _

theorem spelled_of_completeDrafts (hkind : c.kind = .complete) (h : (completeDrafts c).Yields ds) :
    Spelled c (ds.map Draft.suffix) := by
  unfold completeDrafts at h
  obtain ⟨events, -, h⟩ := yields_bind.mp h
  obtain ⟨contract, -, h⟩ := yields_bind.mp h
  apply spelled_of_sublist
  rw [hkind]
  dsimp only at h
  split at h
  · rw [← yields_pure.mp h]
    show ["completion-requested", "completion-gate-passed", "run-succeeded"].Sublist _
    decide
  · rw [← yields_pure.mp h]
    show ["completion-requested", "completion-gate-failed", "completion-nudge"].Sublist _
    decide

theorem spelled_of_memoryDrafts (hkind : c.kind = .memory) (h : (memoryDrafts c).Yields ds) :
    Spelled c (ds.map Draft.suffix) := by
  unfold memoryDrafts at h
  obtain ⟨refs, -, h⟩ := yields_bind.mp h
  obtain ⟨count, -, h⟩ := yields_bind.mp h
  obtain ⟨confidence, -, h⟩ := yields_bind.mp h
  obtain ⟨candidateId, -, h⟩ := yields_bind.mp h
  apply spelled_of_sublist
  rw [hkind]
  dsimp only at h
  rw [← yields_pure.mp h]
  simp only [List.map_cons, List.map_nil]
  unfold admissionFact
  split_ifs <;> decide

theorem spelled_of_evolutionDrafts (hkind : c.kind = .evolution) (h : (evolutionDrafts c).Yields ds) :
    Spelled c (ds.map Draft.suffix) := by
  unfold evolutionDrafts at h
  obtain ⟨candidateId, -, h⟩ := yields_bind.mp h
  apply spelled_of_sublist
  rw [hkind, ← yields_pure.mp h]
  exact .refl _

/-- The facts of a candidate have its suffixes. -/
theorem spelled_of_drafts {acceptedAt : DateTime} (h : (drafts c acceptedAt).Yields ds) :
    Spelled c (ds.map Draft.suffix) := by
  unfold drafts at h
  split at h
  next hkind =>
    split at h
    next patch hpatch =>
      rw [← yields_pure.mp h, planDrafts_suffixes]
      refine ⟨_, _, _, by rw [hkind], ?_, ?_⟩
      · rw [namedAssignments, hkind, hpatch]
        exact .refl _
      · rw [hkind]
        split <;> decide
    next => exact absurd h not_yields_throw
  next hkind =>
    exact (resultDrafts_yields h).spelled (by rw [namedAssignments, hkind]) (by rw [hkind]; rfl)
      (by rw [hkind]; rfl)
  next hkind =>
    obtain ⟨v, receiver, -, rfl⟩ := (peerRequestDrafts_yields h).drafts
    apply spelled_of_sublist
    rw [hkind]
    exact .refl _
  next hkind =>
    rw [← yields_pure.mp h]
    apply spelled_of_sublist
    rw [hkind]
    exact .refl _
  next hkind =>
    exact (resultDrafts_yields h).spelled (by rw [namedAssignments, hkind]) (by rw [hkind]; rfl)
      (by rw [hkind]; rfl)
  next hkind =>
    exact (resultDrafts_yields h).spelled (by rw [namedAssignments, hkind]) (by rw [hkind]; rfl)
      (by rw [hkind]; rfl)
  next hkind => exact spelled_of_completeDrafts hkind h
  next hkind => exact spelled_of_memoryDrafts hkind h
  next hkind => exact spelled_of_evolutionDrafts hkind h

theorem Spelled.mem {suffixes : List String} (h : Spelled c suffixes) (hs : s ∈ suffixes) :
    s ∈ "accepted" :: draftSuffixes c.kind ∨ s ∈ stepSuffixes c.kind (namedAssignments c) := by
  obtain ⟨before, ids, after, rfl, hids, hfixed⟩ := h.parts
  simp only [List.mem_append] at hs
  rcases hs with (hs | hs) | hs
  · exact .inl (List.mem_cons_of_mem _ (hfixed.subset (List.mem_append_left _ hs)))
  · exact .inr ((stepSuffixes_sublist hids).subset hs)
  · exact .inl (List.mem_cons_of_mem _ (hfixed.subset (List.mem_append_right _ hs)))

theorem Spelled.mem_eventSuffixes {suffixes : List String} (h : Spelled c suffixes) (hs : s ∈ suffixes) :
    s ∈ eventSuffixes c := by
  rw [eventSuffixes, fixedSuffixes, List.mem_append, List.mem_append]
  cases h.mem hs with
  | inl hfixed => exact .inl (.inr hfixed)
  | inr hstep => exact .inr hstep

/-! ### How a suffix can be read -/

/-- All steps. -/
def allSteps : List String := ["-created", "-lease-acquired", "-running", "-lease-released"]

theorem mem_allSteps {step : String} (h : step ∈ assignmentSteps kind) : step ∈ allSteps := by
  cases kind <;> simp [assignmentSteps] at h <;> simp [allSteps, h]
  tauto

theorem plain_step {step : String} (h : step ∈ allSteps) : Plain step := by
  revert step
  decide

theorem plain_fixed (h : s ∈ fixedSuffixes kind) : Plain s := by
  revert s
  cases kind <;> decide

/-- No step is the end of another. -/
theorem step_eq {step step' y z : String} (h : step ∈ allSteps) (h' : step' ∈ allSteps)
    (heq : y ++ step = z ++ step') : y = z ∧ step = step' := by
  have hends : ∀ s ∈ allSteps, ∀ t ∈ allSteps, s.toList <:+ t.toList → s = t := by decide
  have hlists : y.toList ++ step.toList = z.toList ++ step'.toList := by
    simpa using congrArg String.toList heq
  have hstep : step = step' := by
    rcases List.suffix_or_suffix_of_suffix (List.suffix_append y.toList step.toList)
      (hlists ▸ List.suffix_append z.toList step'.toList) with hle | hle
    · exact hends step h step' h' hle
    · exact (hends step' h' step h hle).symm
  subst hstep
  exact ⟨String.append_left_inj step |>.mp heq, rfl⟩

/-- A suffix that every candidate of a kind has does not end with a step. -/
theorem fixed_ne_step {step z : String} (h : s ∈ fixedSuffixes kind) (hstep : step ∈ allSteps) :
    z ++ step ≠ s := by
  have hends : ∀ kind, ∀ s ∈ fixedSuffixes kind, ∀ step ∈ allSteps, ¬ step.toList <:+ s.toList := by
    intro kind
    cases kind <;> decide
  rintro rfl
  exact hends kind _ h step hstep (by simp)

/-- A suffix with a colon in it is that of an assignment with the colon. -/
theorem suffix_eq_joined (hs : s ∈ eventSuffixes c) : s = x ++ ":" ++ t ↔
    ∃ y z, ∃ step ∈ assignmentSteps c.kind, y ++ ":" ++ z ∈ namedAssignments c ∧
      x = "assignment-" ++ y ∧ t = z ++ step ∧ s = assignmentSuffix (y ++ ":" ++ z) step := by
  constructor
  · rintro rfl
    rcases List.mem_append.mp hs with hfixed | hstep
    · exact absurd (plain_fixed hfixed) not_plain_joined
    · obtain ⟨id, hid, step, hstep, heq⟩ := mem_stepSuffixes.mp hstep
      have hfront : Plain "assignment-" := by decide
      obtain ⟨z, ht, hbody⟩ := (append_plain_eq_iff (plain_step (mem_allSteps hstep))).mp heq
      obtain ⟨y, hx, hidy⟩ := (plain_append_eq_iff hfront).mp hbody
      exact ⟨y, z, step, hstep, hidy ▸ hid, hx, ht, by rw [← hidy]; exact heq.symm⟩
  · rintro ⟨y, z, step, hstep, hid, rfl, rfl, rfl⟩
    simp [assignmentSuffix, String.append_assoc]

/-- What is left of a suffix after a step was taken off is what an assignment's suffix is. -/
theorem step_mem_eventSuffixes {step z : String} (hstep : step ∈ allSteps) :
    z ++ step ∈ eventSuffixes c ↔
      step ∈ assignmentSteps c.kind ∧ ∃ id ∈ namedAssignments c, z = "assignment-" ++ id := by
  rw [eventSuffixes, List.mem_append, mem_stepSuffixes]
  constructor
  · rintro (hfixed | ⟨id, hid, step', hstep', heq⟩)
    · exact absurd rfl (fixed_ne_step hfixed hstep)
    · obtain ⟨hz, rfl⟩ := step_eq (mem_allSteps hstep') hstep heq
      exact ⟨hstep', id, hid, hz.symm⟩
  · rintro ⟨hmem, id, hid, rfl⟩
    exact .inr ⟨id, hid, step, hmem, rfl⟩

/-! ### The other writers -/

/-- What else writes events under identifiers of its own. -/
inductive OtherWriter where
  | kernel (c : CommandCandidate)
  | sent (mailboxId deliveryId : String)
  | acked (mailboxId deliveryId : String)
  | scheduler (runId key : String)
  | deterministic (key : String)

/-- The identifiers of its events. -/
def OtherWriter.identifiers : OtherWriter → Set String
  | .kernel c => {id | ∃ s ∈ eventSuffixes c, id = kernelId c.idempotencyKey s}
  | .sent mailboxId deliveryId => {uuid5 ("crazy:mailbox:" ++ mailboxId ++ ":sent:" ++ deliveryId)}
  | .acked mailboxId deliveryId => {uuid5 ("crazy:mailbox:" ++ mailboxId ++ ":acked:" ++ deliveryId)}
  | .scheduler runId key => {uuid5 ("crazy:scheduler:" ++ runId ++ ":" ++ key)}
  | .deterministic key => {uuid5 ("crazy:" ++ key)}

theorem kernelEvent_mem_identifiers (hs : s ∈ eventSuffixes c) (type : String) (payload : Dict)
    (source : String) (causationId : Option String) (createdAt : DateTime) :
    (kernelEvent c s type payload source causationId createdAt).id ∈ (OtherWriter.kernel c).identifiers :=
  ⟨s, hs, rfl⟩

theorem sentEvent_mem_identifiers (mailboxId : String) (delivery : Delivery) (createdAt : DateTime) :
    (sentEvent mailboxId delivery createdAt).id ∈
      (OtherWriter.sent mailboxId delivery.deliveryId).identifiers := rfl

theorem ackEvent_mem_identifiers (mailboxId : String) (delivery : Delivery) (createdAt : DateTime) :
    (ackEvent mailboxId delivery createdAt).id ∈
      (OtherWriter.acked mailboxId delivery.deliveryId).identifiers := rfl

/-- A fact of the candidate has the name `p:q`: its key goes on into the second part, or the first part
goes on into one of its assignments. -/
def Spells (c : CommandCandidate) (p q : String) : Prop :=
  (∃ s ∈ eventSuffixes c, (c.idempotencyKey = p ∧ q = s) ∨
    ∃ x, c.idempotencyKey = p ++ ":" ++ x ∧ q = x ++ ":" ++ s) ∨
  ∃ y z, ∃ step ∈ assignmentSteps c.kind, y ++ ":" ++ z ∈ namedAssignments c ∧
    p = c.idempotencyKey ++ ":" ++ ("assignment-" ++ y) ∧ q = z ++ step

theorem spells_iff : (∃ s ∈ eventSuffixes c, c.idempotencyKey ++ ":" ++ s = p ++ ":" ++ q) ↔
    Spells c p q := by
  constructor
  · rintro ⟨s, hs, heq⟩
    rcases joined_eq_iff.mp heq with ⟨hkey, hq⟩ | ⟨x, hp, hsuffix⟩ | ⟨x, hkey, hq⟩
    · exact .inl ⟨s, hs, .inl ⟨hkey, hq.symm⟩⟩
    · obtain ⟨y, z, step, hstep, hid, rfl, hq, -⟩ := (suffix_eq_joined hs).mp hsuffix
      exact .inr ⟨y, z, step, hstep, hid, hp, hq⟩
    · exact .inl ⟨s, hs, .inr ⟨x, hkey, hq⟩⟩
  · rintro (⟨s, hs, ⟨hkey, rfl⟩ | ⟨x, hkey, rfl⟩⟩ | ⟨y, z, step, hstep, hid, rfl, rfl⟩)
    · exact ⟨q, hs, by rw [hkey]⟩
    · exact ⟨s, hs, by rw [hkey]; simp [String.append_assoc]⟩
    · refine ⟨assignmentSuffix (y ++ ":" ++ z) step, ?_, by simp [assignmentSuffix, String.append_assoc]⟩
      exact List.mem_append_right _ (mem_stepSuffixes.mpr ⟨_, hid, step, hstep, rfl⟩)

/-- The key of `c'` is that of `c` and the beginning of an assignment of `c`, which goes on as an
assignment of `c'`. -/
def Nested (c c' : CommandCandidate) : Prop :=
  ∃ y, c'.idempotencyKey = c.idempotencyKey ++ ":" ++ ("assignment-" ++ y) ∧
    ∃ id ∈ namedAssignments c', y ++ ":" ++ ("assignment-" ++ id) ∈ namedAssignments c ∧
      ∃ step ∈ assignmentSteps c.kind, step ∈ assignmentSteps c'.kind

/-- A name of the writer is a name of the candidate, too. -/
def Crosses (c : CommandCandidate) : OtherWriter → Prop
  | .kernel c' => Nested c c' ∨ Nested c' c
  | .sent mailboxId deliveryId => Spells c ("mailbox:" ++ mailboxId ++ ":sent") deliveryId
  | .acked mailboxId deliveryId => Spells c ("mailbox:" ++ mailboxId ++ ":acked") deliveryId
  | .scheduler runId key => Spells c ("scheduler:" ++ runId) key
  | .deterministic key => ∃ s ∈ eventSuffixes c, key = c.idempotencyKey ++ ":" ++ s

theorem spells_of_nested (h : Nested c c') :
    ∃ s ∈ eventSuffixes c', Spells c c'.idempotencyKey s := by
  obtain ⟨y, hkey, id, hid, hjoined, step, hstep, hstep'⟩ := h
  refine ⟨"assignment-" ++ id ++ step, ?_, .inr ⟨y, _, step, hstep, hjoined, hkey, rfl⟩⟩
  exact (step_mem_eventSuffixes (mem_allSteps hstep)).mpr ⟨hstep', id, hid, rfl⟩

theorem nested_of_joined {y z step : String} (hkey : c'.idempotencyKey =
      c.idempotencyKey ++ ":" ++ ("assignment-" ++ y))
    (hid : y ++ ":" ++ z ∈ namedAssignments c) (hstep : step ∈ assignmentSteps c.kind)
    (hs : z ++ step ∈ eventSuffixes c') : Nested c c' := by
  obtain ⟨hstep', id, hid', rfl⟩ := (step_mem_eventSuffixes (mem_allSteps hstep)).mp hs
  exact ⟨y, hkey, id, hid', hid, step, hstep, hstep'⟩

/-- Two candidates with different keys. -/
theorem spells_kernel_iff (hne : c'.idempotencyKey ≠ c.idempotencyKey) :
    (∃ s ∈ eventSuffixes c', Spells c c'.idempotencyKey s) ↔ Nested c c' ∨ Nested c' c := by
  constructor
  · rintro ⟨s', hs', ⟨s, hs, ⟨hkey, -⟩ | ⟨x, hkey, heq⟩⟩ | ⟨y, z, step, hstep, hid, hkey, rfl⟩⟩
    · exact absurd hkey.symm hne
    · obtain ⟨y, z, step, hstep, hid, rfl, rfl, -⟩ := (suffix_eq_joined hs').mp heq
      exact .inr (nested_of_joined hkey hid hstep hs)
    · exact .inl (nested_of_joined hkey hid hstep hs')
  · rintro (h | h)
    · exact spells_of_nested h
    · obtain ⟨s, hs, hspells⟩ := spells_of_nested h
      obtain ⟨s', hs', heq⟩ := spells_iff.mpr hspells
      exact ⟨s', hs', spells_iff.mp ⟨s, hs, heq.symm⟩⟩

theorem kernelId_eq (key suffix : String) :
    kernelId key suffix = uuid5 ("crazy:" ++ (key ++ ":" ++ suffix)) := by
  simp only [kernelId, String.append_assoc]

/-- The identifiers of a candidate and another writer. -/
theorem crosses_iff {w : OtherWriter}
    (hkeys : ∀ c', w = .kernel c' → c'.idempotencyKey ≠ c.idempotencyKey) :
    (∃ s ∈ eventSuffixes c, kernelId c.idempotencyKey s ∈ w.identifiers) ↔ Crosses c w := by
  have hname : ∀ s n : String, kernelId c.idempotencyKey s = uuid5 ("crazy:" ++ n) ↔
      c.idempotencyKey ++ ":" ++ s = n := by
    intro s n
    rw [kernelId_eq, uuid5_inj, String.append_right_inj]
  cases w with
  | kernel c' =>
      rw [Crosses, ← spells_kernel_iff (hkeys c' rfl)]
      simp only [← spells_iff]
      constructor
      · rintro ⟨s, hs, s', hs', heq⟩
        rw [kernelId_eq c'.idempotencyKey, hname] at heq
        exact ⟨s', hs', s, hs, heq⟩
      · rintro ⟨s', hs', s, hs, heq⟩
        refine ⟨s, hs, s', hs', ?_⟩
        rw [kernelId_eq c'.idempotencyKey, hname]
        exact heq
  | sent mailboxId deliveryId =>
      rw [Crosses, ← spells_iff]
      refine exists_congr (fun s => and_congr_right (fun _ => ?_))
      rw [← hname, show "crazy:" ++ ("mailbox:" ++ mailboxId ++ ":sent" ++ ":" ++ deliveryId) =
        "crazy:mailbox:" ++ mailboxId ++ ":sent:" ++ deliveryId by rw [text_eq_iff]; simp]
      rfl
  | acked mailboxId deliveryId =>
      rw [Crosses, ← spells_iff]
      refine exists_congr (fun s => and_congr_right (fun _ => ?_))
      rw [← hname, show "crazy:" ++ ("mailbox:" ++ mailboxId ++ ":acked" ++ ":" ++ deliveryId) =
        "crazy:mailbox:" ++ mailboxId ++ ":acked:" ++ deliveryId by rw [text_eq_iff]; simp]
      rfl
  | scheduler runId key =>
      rw [Crosses, ← spells_iff]
      refine exists_congr (fun s => and_congr_right (fun _ => ?_))
      rw [← hname, show "crazy:" ++ ("scheduler:" ++ runId ++ ":" ++ key) =
        "crazy:scheduler:" ++ runId ++ ":" ++ key by rw [text_eq_iff]; simp]
      rfl
  | deterministic key =>
      refine exists_congr (fun s => and_congr_right (fun _ => ?_))
      rw [eq_comm (a := key), ← hname]
      rfl

theorem schedulerAppend_identifiers (dispatch : Option DispatchContext) (identity : Event)
    (type : String) (payload : Dict) (key : String) (causationId taskId : Option String) :
    ∃ event : DateTime → Event,
      schedulerAppend dispatch identity type payload key causationId taskId =
        RuntimeM.append dispatch event ∧
      ∀ createdAt, (event createdAt).id ∈ (OtherWriter.scheduler identity.runId key).identifiers :=
  ⟨_, rfl, fun _ => rfl⟩

theorem appendDeterministic_identifiers {X : Interface} (dispatch : Option DispatchContext)
    (identity : Event) (key type : String) (payload : Dict) (source : String)
    (causationId : Option String) :
    ∃ event : DateTime → Event,
      (appendDeterministic dispatch identity key type payload source causationId : RuntimeM X Event) =
        RuntimeM.append dispatch event ∧
      ∀ createdAt, (event createdAt).id ∈ (OtherWriter.deterministic key).identifiers :=
  ⟨_, rfl, fun _ => rfl⟩

/-! ### The commit -/

/-- One of the events has the identifier of another event that is there when its turn comes. -/
def Database.Disputes (db : Database) (events : List Event) : Prop :=
  ∃ before e after stored db', events = before ++ e :: after ∧
    db.appendAll before = .ok (stored, db') ∧ ∃ f, db'.events.lookup e.id = some f ∧ ¬ f.SameFact e

theorem Database.appendAll_error {db db' : Database} {before after stored : List Event} {e : Event}
    {err : StoreError} (hbefore : db.appendAll before = .ok (stored, db'))
    (he : db'.appendInTransaction e = .error err) :
    db.appendAll (before ++ e :: after) = .error err := by
  induction before generalizing db stored with
  | nil =>
      obtain ⟨-, rfl⟩ := Prod.mk.inj (Except.ok.inj hbefore)
      rw [List.nil_append, Database.appendAll, he]
      rfl
  | cons b before ih =>
      unfold Database.appendAll at hbefore
      obtain ⟨⟨r, db₁⟩, happend, hbefore⟩ := bind_ok_iff.mp hbefore
      obtain ⟨⟨rest, db₂⟩, hrest, hbefore⟩ := bind_ok_iff.mp hbefore
      obtain ⟨-, rfl⟩ := Prod.mk.inj (Except.ok.inj hbefore)
      rw [List.cons_append, Database.appendAll, happend]
      dsimp only [bind, Except.bind]
      rw [ih hrest]

/-- What the append of such events raises. -/
theorem Database.Disputes.error {db : Database} {events : List Event} (h : db.Disputes events) :
    ∃ e ∈ events, db.appendAll events =
      .error (.valueError s!"event id already belongs to another event: {e.id}") := by
  obtain ⟨before, e, after, stored, db', rfl, hbefore, f, hf, hsame⟩ := h
  refine ⟨e, by simp, Database.appendAll_error hbefore ?_⟩
  unfold Database.appendInTransaction
  split
  next hnone =>
    rw [hf] at hnone
    cases hnone
  next existing hexisting =>
    rw [hf] at hexisting
    obtain rfl := Option.some.inj hexisting
    rw [if_neg hsame]

/-! ### No suffix twice -/

theorem assignmentSuffix_injective {id id' step step' : String} (hstep : step ∈ allSteps)
    (hstep' : step' ∈ allSteps) (h : assignmentSuffix id step = assignmentSuffix id' step') :
    id = id' ∧ step = step' := by
  obtain ⟨hid, rfl⟩ := step_eq hstep hstep' h
  exact ⟨(String.append_right_inj _).mp hid, rfl⟩

theorem stepSuffixes_nodup (h : ids.Nodup) : (stepSuffixes kind ids).Nodup := by
  rw [stepSuffixes, List.nodup_flatMap]
  constructor
  · intro id _
    refine List.Nodup.map_on ?_ (by cases kind <;> decide)
    intro step hstep step' hstep' heq
    exact (assignmentSuffix_injective (mem_allSteps hstep) (mem_allSteps hstep') heq).2
  · refine h.imp ?_
    intro id id' hne s hs hs'
    obtain ⟨step, hstep, rfl⟩ := List.mem_map.mp hs
    obtain ⟨step', hstep', heq⟩ := List.mem_map.mp hs'
    exact hne (assignmentSuffix_injective (mem_allSteps hstep) (mem_allSteps hstep') heq.symm).1

theorem not_fixed_of_step (h : s ∈ stepSuffixes kind ids) (kind' : CommandKind) :
    s ∉ fixedSuffixes kind' := by
  obtain ⟨id, -, step, hstep, rfl⟩ := mem_stepSuffixes.mp h
  intro hfixed
  exact fixed_ne_step hfixed (mem_allSteps hstep) rfl

theorem Spelled.nodup {suffixes : List String} (h : Spelled c suffixes)
    (hids : (namedAssignments c).Nodup) : ("accepted" :: suffixes).Nodup := by
  obtain ⟨before, ids, after, rfl, hsub, hfixed⟩ := h.parts
  have hperm : ("accepted" :: (before ++ stepSuffixes c.kind ids ++ after)).Perm
      ("accepted" :: (before ++ after) ++ stepSuffixes c.kind ids) := by
    rw [List.cons_append, List.append_assoc, List.append_assoc]
    exact ((List.perm_append_comm.append_left before)).cons _
  have hdraft : ("accepted" :: draftSuffixes c.kind).Nodup := by
    cases c.kind <;> decide
  rw [hperm.nodup_iff, List.nodup_append']
  refine ⟨hdraft.sublist (hfixed.cons_cons _), stepSuffixes_nodup (hids.sublist hsub), ?_⟩
  intro s hs hstep
  refine not_fixed_of_step hstep c.kind (List.mem_append_right _ ?_)
  exact (hfixed.cons_cons _).subset hs

theorem namedAssignments_nodup {db : Database} {clock : DateTime}
    (h : (validateCandidate c).within db clock = .ok ()) : (namedAssignments c).Nodup := by
  obtain ⟨team, hpasses⟩ := validateCandidate_passes h
  have hone : ∀ o : Option String, o.toList.Nodup := by
    intro o
    cases o <;> simp
  unfold namedAssignments
  split
  next hkind =>
    have hplan := hpasses.kind
    rw [validateKind, hkind] at hplan
    obtain ⟨view, hview⟩ := validatePlanPatch_passes hplan
    rw [hview.payload]
    exact hview.ids
  next => exact hone _
  next => exact hone _
  next => exact hone _
  next => exact List.nodup_nil

/-! ### Identities that stay apart -/

/-- The event was written by another writer, or about the candidate before its acceptance. -/
def WrittenBefore (c : CommandCandidate) (others : Set OtherWriter) (e : Event) : Prop :=
  (∃ w ∈ others, e.id ∈ w.identifiers) ∨
    ∃ s ∈ noteSuffixes c.kind, e.id = kernelId c.idempotencyKey s

/-- The identifiers of the candidate's events differ, from each other and from those of the other
writers; so a candidate that passes its checks does not fail to commit for an identifier that
belongs to another event. -/
structure IdsApart (c : CommandCandidate) (others : Set OtherWriter) : Prop where
  own : ∀ s ∈ eventSuffixes c, ∀ t ∈ eventSuffixes c, s ≠ t →
    kernelId c.idempotencyKey s ≠ kernelId c.idempotencyKey t
  elsewhere : ∀ w ∈ others, ∀ s ∈ eventSuffixes c, kernelId c.idempotencyKey s ∉ w.identifiers
  commits : ∀ (db : Database) (clock acceptedAt : DateTime) (ds : List Draft) (formal : List Event),
    (∀ e ∈ db.events.rows, WrittenBefore c others e) →
    (validateCandidate c).within db clock = .ok () → (drafts c acceptedAt).Yields ds →
    List.Forall₂ (fun d e => ∃ createdAt,
      e = Draft.event d c (acceptedEvent c acceptedAt).id createdAt) ds formal →
    ¬ db.Disputes (acceptedEvent c acceptedAt :: formal)

theorem kernelId_injective (key : String) : Function.Injective (kernelId key) := by
  intro s t h
  rw [kernelId_eq, kernelId_eq, uuid5_inj, String.append_right_inj, String.append_right_inj] at h
  exact h

theorem map_id_of_stamped {causationId : String} {formal : List Event}
    (h : List.Forall₂ (fun d e => ∃ createdAt, e = Draft.event d c causationId createdAt) ds formal) :
    formal.map Event.id = (ds.map Draft.suffix).map (kernelId c.idempotencyKey) := by
  induction h with
  | nil => rfl
  | cons hd _ ih =>
      obtain ⟨createdAt, rfl⟩ := hd
      rw [List.map_cons, ih]
      rfl

/-- Events with identifiers that are new and differ do not run into other events. -/
theorem Database.not_disputes {db : Database} {events : List Event}
    (hnew : ∀ e ∈ events, ∀ f ∈ db.events.rows, f.id ≠ e.id) (hnodup : (events.map Event.id).Nodup) :
    ¬ db.Disputes events := by
  rintro ⟨before, e, after, stored, db', rfl, hbefore, f, hf, -⟩
  obtain ⟨es, hes, hwrote, -⟩ := Database.appendAll_wrote hbefore
  have hfid : f.id = e.id := db'.events.key_of_lookup hf
  have hmem : f ∈ db.events.rows ++ es := by
    rw [← hwrote.rows]
    exact db'.events.mem_of_lookup hf
  rcases List.mem_append.mp hmem with hold | hown
  · exact hnew e (by simp) f hold hfid
  · rw [List.map_append, List.map_cons, List.nodup_append'] at hnodup
    refine hnodup.2.2 (List.mem_map_of_mem (hes.subset hown)) ?_
    rw [hfid]
    exact List.mem_cons_self

theorem notes_disjoint (kind : CommandKind) :
    ∀ s ∈ noteSuffixes kind, s ∉ "accepted" :: draftSuffixes kind := by
  cases kind <;> decide

/-- The facts of an acceptance have identifiers that no event of the log has. -/
theorem acceptance_fresh {others : Set OtherWriter} {e f : Event}
    (hapart : ∀ w ∈ others, ∀ s ∈ eventSuffixes c, kernelId c.idempotencyKey s ∉ w.identifiers)
    (hs : s ∈ "accepted" :: draftSuffixes c.kind ∨ s ∈ stepSuffixes c.kind (namedAssignments c))
    (he : e.id = kernelId c.idempotencyKey s) (hf : WrittenBefore c others f) : f.id ≠ e.id := by
  intro hid
  rcases hf with ⟨w, hw, hwid⟩ | ⟨t, ht, htid⟩
  · refine hapart w hw s ?_ (by rw [← he, ← hid]; exact hwid)
    rw [eventSuffixes, fixedSuffixes, List.mem_append, List.mem_append]
    cases hs with
    | inl hfixed => exact .inl (.inr hfixed)
    | inr hstep => exact .inr hstep
  · have hst : t = s := kernelId_injective c.idempotencyKey (by rw [← htid, hid, he])
    subst hst
    cases hs with
    | inl hfixed => exact notes_disjoint c.kind t ht hfixed
    | inr hstep => exact not_fixed_of_step hstep c.kind (List.mem_append_left _ ht)

/-- The identifiers of a candidate stay apart from those of other writers exactly if no name of
theirs is a name of the candidate. -/
theorem idsApart_iff (c : CommandCandidate) (others : Set OtherWriter)
    (hkeys : ∀ c', .kernel c' ∈ others → c'.idempotencyKey ≠ c.idempotencyKey) :
    IdsApart c others ↔ ∀ w ∈ others, ¬ Crosses c w := by
  have hcrosses : ∀ w ∈ others, (∃ s ∈ eventSuffixes c, kernelId c.idempotencyKey s ∈ w.identifiers) ↔
      Crosses c w := by
    intro w hw
    exact crosses_iff (fun c' heq => hkeys c' (heq ▸ hw))
  constructor
  · intro h w hw hc
    obtain ⟨s, hs, hid⟩ := (hcrosses w hw).mpr hc
    exact h.elsewhere w hw s hs hid
  · intro h
    have hapart : ∀ w ∈ others, ∀ s ∈ eventSuffixes c,
        kernelId c.idempotencyKey s ∉ w.identifiers := by
      intro w hw s hs hid
      exact h w hw ((hcrosses w hw).mp ⟨s, hs, hid⟩)
    refine ⟨fun s _ t _ hne heq => hne (kernelId_injective _ heq), hapart, ?_⟩
    intro db clock acceptedAt ds formal hlog hvalid hds hformal
    have hspelled := spelled_of_drafts hds
    have hids : (acceptedEvent c acceptedAt :: formal).map Event.id =
        ("accepted" :: ds.map Draft.suffix).map (kernelId c.idempotencyKey) := by
      rw [List.map_cons, map_id_of_stamped hformal]
      rfl
    apply Database.not_disputes
    · intro e he f hf
      have hmem : e.id ∈ ("accepted" :: ds.map Draft.suffix).map (kernelId c.idempotencyKey) :=
        hids ▸ List.mem_map_of_mem he
      obtain ⟨s, hs, hsid⟩ := List.mem_map.mp hmem
      refine acceptance_fresh hapart (s := s) ?_ hsid.symm (hlog f hf)
      cases List.mem_cons.mp hs with
      | inl heq => exact .inl (heq ▸ List.mem_cons_self)
      | inr hmem => exact hspelled.mem hmem
    · rw [hids]
      exact (hspelled.nodup (namedAssignments_nodup hvalid)).map (kernelId_injective _)

/-- A result about an assignment, under a key. -/
def resultUnder (idempotencyKey assignmentId : String) (hkey : idempotencyKey ≠ "" := by decide) :
    CommandCandidate where
  candidateId := "candidate-" ++ idempotencyKey
  runId := "run-1"
  taskId := "task-1"
  kind := .evidence
  actorId := "scout"
  idempotencyKey := idempotencyKey
  payload := [("assignment_id", .str assignmentId), ("summary", .str "found"),
    ("evidence_refs", .list [.str "e-1"])]
  idempotencyKey_ne := hkey

theorem results_apart : IdsApart (resultUnder "first" "a")
    {.kernel (resultUnder "second" "b"), .sent "scout" "event:e-1"} := by
  refine (idsApart_iff _ _ ?_).mpr ?_
  · intro c' hc'
    simp only [Set.mem_insert_iff, OtherWriter.kernel.injEq, Set.mem_singleton_iff, reduceCtorEq,
      or_false] at hc'
    rw [hc']
    decide
  · rintro w (rfl | rfl)
    · rintro (⟨y, hkey, -⟩ | ⟨y, hkey, -⟩)
      · simp [text_eq_iff, resultUnder] at hkey
      · simp [text_eq_iff, resultUnder] at hkey
    · rintro (⟨s, -, ⟨hkey, -⟩ | ⟨x, hkey, -⟩⟩ | ⟨y, z, step, -, -, hkey, -⟩)
      · simp [text_eq_iff, resultUnder] at hkey
      · simp [text_eq_iff, resultUnder] at hkey
      · simp [text_eq_iff, resultUnder] at hkey

/-- The key of one result goes on into its assignment, as the other result's key does. -/
theorem results_cross : (resultUnder "k" "a:assignment-b").idempotencyKey ≠
      (resultUnder "k:assignment-a" "b").idempotencyKey ∧
    ¬ IdsApart (resultUnder "k" "a:assignment-b") {.kernel (resultUnder "k:assignment-a" "b")} := by
  refine ⟨by decide, ?_⟩
  intro h
  refine h.elsewhere _ rfl "assignment-a:assignment-b-lease-released" (by decide) ?_
  exact ⟨"assignment-b-lease-released", by decide, by decide⟩

end CrazyHarness
