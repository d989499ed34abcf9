import CrazyHarness.Lib.Decode
import CrazyHarness.Lib.Except
import CrazyHarness.Lib.Table

/-! # Local plans

`core/agents/planning.py`: the plan of an agent is rebuilt from its events.  `reducePlan` folds the
events, each of which is validated when its turn comes, and `PlanEvent` carries what its validation
has found.

* `stepPlan_advances`: one event keeps every step of the plan, under its identifier.
* `history_kept`: what a whole sequence keeps, and what its parts have in common. -/

namespace CrazyHarness.Planning

open Lib

/-! ### Texts -/

/-- `NonEmptyText`: a text that is not empty and has no blanks around it. -/
abbrev NonEmptyText := { s : String // s ≠ "" ∧ stripWhitespace s = s }

/-- A field of type `NonEmptyText`. -/
def NonEmptyText.validate (v : Json) : Option NonEmptyText :=
  v.asStr.bind (fun s =>
    if h : stripWhitespace s ≠ "" then some ⟨stripWhitespace s, h, stripWhitespace_stripWhitespace s⟩
    else none)

/-! ### Steps and events -/

/-- `PlanEventType`. -/
inductive PlanEventType where
  | created
  | revised
  | stepStarted
  | stepCompleted
  | stepCancelled
  | stepSuperseded
deriving DecidableEq

/-- `type.value`. -/
def PlanEventType.value : PlanEventType → String
  | .created => "plan.created"
  | .revised => "plan.revised"
  | .stepStarted => "step.started"
  | .stepCompleted => "step.completed"
  | .stepCancelled => "step.cancelled"
  | .stepSuperseded => "step.superseded"

/-- The type that a text names. -/
def PlanEventType.validate (v : Json) : Option PlanEventType :=
  [PlanEventType.created, .revised, .stepStarted, .stepCompleted, .stepCancelled,
    .stepSuperseded].find? (fun type => v.asStr = some type.value)

/-- `PlanStepStatus`. -/
inductive PlanStepStatus where
  | pending
  | running
  | completed
  | cancelled
  | superseded
deriving DecidableEq

/-- `status.value`. -/
def PlanStepStatus.value : PlanStepStatus → String
  | .pending => "pending"
  | .running => "running"
  | .completed => "completed"
  | .cancelled => "cancelled"
  | .superseded => "superseded"

/-- The status that a text names. -/
def PlanStepStatus.validate (v : Json) : Option PlanStepStatus :=
  [PlanStepStatus.pending, .running, .completed, .cancelled, .superseded].find?
    (fun status => v.asStr = some status.value)

/-- One step of a plan. -/
structure PlanStep where
  stepId : NonEmptyText
  description : NonEmptyText
  status : PlanStepStatus := .pending
  evidenceRefs : List NonEmptyText := []
deriving DecidableEq

/-- `model_validate` of a step. -/
def PlanStep.validate (v : Json) : Option PlanStep := do
  let d ← v.asDict
  d.onlyFields ["step_id", "description", "status", "evidence_refs"]
  let stepId ← d.field "step_id" NonEmptyText.validate
  let description ← d.field "description" NonEmptyText.validate
  let status ← d.fieldD "status" PlanStepStatus.validate .pending
  let evidenceRefs ← d.fieldD "evidence_refs" (Json.listOf NonEmptyText.validate) []
  return { stepId, description, status, evidenceRefs }

/-- `self.type in {PlanEventType.CREATED, PlanEventType.REVISED}`. -/
def PlanEventType.IsPlanEvent (type : PlanEventType) : Prop := type = .created ∨ type = .revised

instance : DecidablePred PlanEventType.IsPlanEvent := fun _ => inferInstanceAs (Decidable (_ ∨ _))

/-- `validate_payload`: the text of the error, if there is one. -/
def validatePayload (type : PlanEventType) (steps : List PlanStep) (stepId : Option NonEmptyText)
    (evidenceRefs : List NonEmptyText) : Except String Unit := do
  if type.IsPlanEvent then do
    ensure (steps ≠ []) ("steps are required for " ++ type.value)
    ensure (stepId = none) ("step_id is not allowed for " ++ type.value)
    ensure (steps.map PlanStep.stepId).Nodup "plan steps must have unique step_id values"
  else ensure (stepId ≠ none) ("step_id is required for " ++ type.value)
  ensure (evidenceRefs ≠ [] → type = .stepCompleted)
    "evidence_refs are only allowed for step.completed"

/-- A persisted fact about a plan. -/
structure PlanEvent where
  type : PlanEventType
  steps : List PlanStep := []
  stepId : Option NonEmptyText := none
  evidenceRefs : List NonEmptyText := []
  valid : validatePayload type steps stepId evidenceRefs = .ok ()

namespace PlanEvent

/-- `model_validate`. -/
def validate (v : Json) : Option PlanEvent := do
  let d ← v.asDict
  d.onlyFields ["type", "steps", "step_id", "evidence_refs"]
  let type ← d.field "type" PlanEventType.validate
  let steps ← d.fieldD "steps" (Json.listOf PlanStep.validate) []
  let stepId ← d.fieldD "step_id" (Json.nullable NonEmptyText.validate) none
  let evidenceRefs ← d.fieldD "evidence_refs" (Json.listOf NonEmptyText.validate) []
  if h : validatePayload type steps stepId evidenceRefs = .ok () then
    some { type, steps, stepId, evidenceRefs, valid := h }
  else none

/-- The steps of an event that makes or revises a plan have different identifiers. -/
theorem nodup (e : PlanEvent) (h : e.type.IsPlanEvent) : (e.steps.map PlanStep.stepId).Nodup := by
  have hvalid := e.valid
  unfold validatePayload at hvalid
  rw [if_pos h] at hvalid
  obtain ⟨_, -, hvalid⟩ := bind_ok_iff.mp hvalid
  obtain ⟨_, -, hvalid⟩ := bind_ok_iff.mp hvalid
  obtain ⟨_, hunique, -⟩ := bind_ok_iff.mp hvalid
  exact ensure_ok_iff.mp hunique

end PlanEvent

/-- The latest projection of a plan, rebuilt from its events. -/
structure LocalPlan where
  version : ℕ := 0
  steps : List PlanStep := []
deriving DecidableEq

/-- `inactive`. -/
def PlanStepStatus.Inactive (status : PlanStepStatus) : Prop :=
  status = .cancelled ∨ status = .superseded

instance : DecidablePred PlanStepStatus.Inactive := fun _ => inferInstanceAs (Decidable (_ ∨ _))

/-- `is_complete`. -/
def LocalPlan.isComplete (plan : LocalPlan) : Bool :=
  let active := plan.steps.filter (fun step => ¬ step.status.Inactive)
  !active.isEmpty && active.all (fun step => step.status = .completed)

/-! ### The reducer -/

/-- What `reduce_plan` raises: an event that does not validate, or its own `ValueError`. -/
inductive PlanError where
  | validation
  | valueError (message : String)
deriving DecidableEq

/-- An event as it is given: validated before, or as a mapping. -/
inductive RawPlanEvent where
  | event (e : PlanEvent)
  | mapping (items : Dict)

/-- `raw_event if isinstance(raw_event, PlanEvent) else PlanEvent.model_validate(raw_event)`. -/
def RawPlanEvent.validated : RawPlanEvent → Except PlanError PlanEvent
  | .event e => .ok e
  | .mapping items =>
      match PlanEvent.validate (.dict items) with
      | some e => .ok e
      | none => .error .validation

/-- `_fresh`. -/
def PlanStep.fresh (step : PlanStep) : PlanStep where
  stepId := step.stepId
  description := step.description

/-- `_require_plan`. -/
def requirePlan (plan : LocalPlan) : Except PlanError Unit :=
  ensure (plan.version ≠ 0) (.valueError "plan.created must be the first plan event")

/-- The loop of `_revise` over the requested steps: the revised ones, and what is left of the
previous ones. -/
def reviseRequested (previous : Table PlanStep.stepId) :
    List PlanStep → List PlanStep × Table PlanStep.stepId
  | [] => ([], previous)
  | requested :: rest =>
      let revised :=
        match previous.lookup requested.stepId with
        | none => requested.fresh
        | some current => { current with description := requested.description }
      let (others, left) := reviseRequested (previous.delete requested.stepId) rest
      (revised :: others, left)

/-- A step that a revision no longer asks for. -/
def PlanStep.removed (step : PlanStep) : PlanStep :=
  { step with status := if step.status = .cancelled then .cancelled else .superseded }

/-- `_revise`. -/
def revise (plan : LocalPlan) (requestedSteps : List PlanStep) : LocalPlan :=
  let (revised, left) := reviseRequested (plan.steps.foldl Table.upsert .empty) requestedSteps
  { version := plan.version + 1, steps := revised ++ left.rows.map PlanStep.removed }

/-- The status and the evidence of a step after an event, or why it may not happen. -/
def applyToStep (step : PlanStep) (e : PlanEvent) :
    Except PlanError (PlanStepStatus × List NonEmptyText) :=
  match e.type with
  | .stepStarted =>
      if step.status ∉ [PlanStepStatus.pending, .running] then
        .error (.valueError ("cannot start " ++ step.stepId ++ " from " ++ step.status.value))
      else .ok (.running, step.evidenceRefs)
  | .stepCompleted =>
      if step.status ∈ [PlanStepStatus.cancelled, .superseded] then
        .error (.valueError ("cannot complete " ++ step.stepId ++ " from " ++ step.status.value))
      else .ok (.completed, (step.evidenceRefs ++ e.evidenceRefs).eraseDups)
  | .stepCancelled => .ok (.cancelled, step.evidenceRefs)
  | _ => .ok (.superseded, step.evidenceRefs)

/-- `_apply_step_event`. -/
def applyStepEvent (plan : LocalPlan) (e : PlanEvent) : Except PlanError LocalPlan :=
  let named : PlanStep → Bool := fun step => some step.stepId = e.stepId
  match plan.steps.find? named with
  | none =>
      .error (.valueError ("unknown plan step: " ++ ((e.stepId.map Subtype.val).getD "None")))
  | some step => do
      let (status, evidenceRefs) ← applyToStep step e
      return { plan with
        steps := plan.steps.set (plan.steps.findIdx named) { step with status, evidenceRefs } }

/-- One round of the loop of `reduce_plan`. -/
def stepPlan (plan : LocalPlan) (raw : RawPlanEvent) : Except PlanError LocalPlan := do
  let e ← raw.validated
  match e.type with
  | .created =>
      if plan.version ≠ 0 then .error (.valueError "plan.created may only appear once")
      else return { version := 1, steps := e.steps.map PlanStep.fresh }
  | .revised => do
      requirePlan plan
      return revise plan e.steps
  | _ => do
      requirePlan plan
      applyStepEvent plan e

/-- `reduce_plan`. -/
def reducePlan (events : List RawPlanEvent) : Except PlanError LocalPlan :=
  events.foldlM stepPlan {}

/-! ### What an event keeps -/

/-- What a step may become: what has ended stays ended, and what is completed is not taken up again. -/
def PlanStepStatus.MayBecome (status later : PlanStepStatus) : Prop :=
  (status.Inactive → later.Inactive) ∧
    (status = .completed → later ≠ .pending ∧ later ≠ .running)

instance (status later : PlanStepStatus) : Decidable (status.MayBecome later) :=
  inferInstanceAs (Decidable (_ ∧ _))

theorem PlanStepStatus.MayBecome.refl (status : PlanStepStatus) : status.MayBecome status := by
  cases status <;> decide

theorem PlanStepStatus.MayBecome.trans {s t u : PlanStepStatus} (h : s.MayBecome t)
    (h' : t.MayBecome u) : s.MayBecome u := by
  revert s t u
  intro s t u
  cases s <;> cases t <;> cases u <;> decide

/-- The same step after some events. -/
structure PlanStep.Advances (step later : PlanStep) : Prop where
  stepId : later.stepId = step.stepId
  evidence : step.evidenceRefs <+: later.evidenceRefs
  status : step.status.MayBecome later.status

theorem PlanStep.Advances.refl (step : PlanStep) : step.Advances step :=
  ⟨rfl, List.prefix_refl _, .refl _⟩

theorem PlanStep.Advances.trans {r s t : PlanStep} (h : r.Advances s) (h' : s.Advances t) :
    r.Advances t :=
  ⟨h'.stepId.trans h.stepId, h.evidence.trans h'.evidence, h.status.trans h'.status⟩

namespace LocalPlan

/-- `[step.step_id for step in plan.steps]`. -/
def stepIds (plan : LocalPlan) : List NonEmptyText := plan.steps.map PlanStep.stepId

/-- Every step of the plan is still there. -/
def Advances (plan later : LocalPlan) : Prop :=
  ∀ step ∈ plan.steps, ∃ step' ∈ later.steps, step.Advances step'

/-- A plan that events have made: before the first event it is empty, its steps are told apart by
their identifiers, and no step lists a piece of evidence twice. -/
structure WellFormed (plan : LocalPlan) : Prop where
  unstarted : plan.version = 0 → plan.steps = []
  nodup : plan.stepIds.Nodup
  evidence : ∀ step ∈ plan.steps, step.evidenceRefs.Nodup

theorem Advances.trans {p q r : LocalPlan} (h : p.Advances q) (h' : q.Advances r) : p.Advances r := by
  intro step hstep
  obtain ⟨step', hstep', hto⟩ := h step hstep
  obtain ⟨step'', hstep'', hto'⟩ := h' step' hstep'
  exact ⟨step'', hstep'', hto.trans hto'⟩

theorem Advances.refl (p : LocalPlan) : p.Advances p :=
  fun step hstep => ⟨step, hstep, .refl step⟩

theorem wellFormed_empty : WellFormed {} :=
  ⟨fun _ => rfl, List.nodup_nil, fun _ h => absurd h List.not_mem_nil⟩

end LocalPlan

/-! #### Revisions -/

/-- Different rows, inserted one by one. -/
theorem rows_foldl_upsert {ρ κ : Type} [DecidableEq κ] {key : ρ → κ} (t : Table key) (rows : List ρ)
    (h : ((t.rows ++ rows).map key).Nodup) : (rows.foldl Table.upsert t).rows = t.rows ++ rows := by
  induction rows generalizing t with
  | nil => rw [List.foldl_nil, List.append_nil]
  | cons r rows ih =>
      have hnew : t.lookup (key r) = none := by
        rw [Table.lookup_eq_none_iff]
        intro s hs heq
        rw [List.map_append, List.map_cons, List.nodup_append] at h
        exact h.2.2 _ (List.mem_map_of_mem hs) _ List.mem_cons_self heq
      have hrows : (t.upsert r).rows = t.rows ++ [r] := by
        unfold Table.upsert
        rw [dif_pos hnew]
        rfl
      rw [List.foldl_cons, ih, hrows]
      · simp
      · rw [hrows]
        simpa using h

section revision

variable {previous : Table PlanStep.stepId} {requested : List PlanStep}

/-- The revised steps are the requested ones, in their order. -/
theorem reviseRequested_ids : (reviseRequested previous requested).1.map PlanStep.stepId =
    requested.map PlanStep.stepId := by
  induction requested generalizing previous with
  | nil => rfl
  | cons first rest ih =>
      rw [reviseRequested, List.map_cons, List.map_cons, ih]
      congr 1
      cases hlookup : previous.lookup first.stepId with
      | none => rfl
      | some current =>
          show current.stepId = first.stepId
          exact Table.key_of_lookup hlookup

/-- What is left is what was not requested. -/
theorem mem_left {step : PlanStep} : step ∈ (reviseRequested previous requested).2.rows ↔
    step ∈ previous.rows ∧ step.stepId ∉ requested.map PlanStep.stepId := by
  induction requested generalizing previous with
  | nil => simp [reviseRequested]
  | cons first rest ih =>
      rw [reviseRequested, ih, Table.mem_delete, List.map_cons, List.mem_cons, not_or, and_assoc]

/-- A requested step that was there goes on. -/
theorem mem_revised {step : PlanStep} (h : step ∈ previous.rows)
    (hid : step.stepId ∈ requested.map PlanStep.stepId) :
    ∃ step' ∈ (reviseRequested previous requested).1, step.Advances step' := by
  induction requested generalizing previous with
  | nil => exact absurd hid List.not_mem_nil
  | cons first rest ih =>
      rw [reviseRequested]
      by_cases heq : step.stepId = first.stepId
      · refine ⟨_, List.mem_cons_self, ?_⟩
        rw [← heq, Table.lookup_of_mem h]
        exact ⟨rfl, List.prefix_refl _, .refl _⟩
      · rw [List.map_cons, List.mem_cons] at hid
        obtain ⟨step', hmem, hto⟩ :=
          ih (Table.mem_delete.mpr ⟨h, heq⟩) (hid.resolve_left heq)
        exact ⟨step', List.mem_cons_of_mem _ hmem, hto⟩

/-- A revised step is new, without evidence, or it was there. -/
theorem revised_evidence {step : PlanStep} (h : step ∈ (reviseRequested previous requested).1) :
    step.evidenceRefs = [] ∨ ∃ old ∈ previous.rows, step.evidenceRefs = old.evidenceRefs := by
  induction requested generalizing previous with
  | nil => exact absurd h List.not_mem_nil
  | cons first rest ih =>
      rw [reviseRequested] at h
      rcases List.mem_cons.mp h with rfl | h
      · cases hlookup : previous.lookup first.stepId with
        | none => exact .inl rfl
        | some current => exact .inr ⟨current, Table.mem_of_lookup hlookup, rfl⟩
      · rcases ih h with hnone | ⟨old, hold, heq⟩
        · exact .inl hnone
        · exact .inr ⟨old, (Table.mem_delete.mp hold).1, heq⟩

end revision

theorem PlanStep.advances_removed (step : PlanStep) : step.Advances step.removed := by
  refine ⟨rfl, List.prefix_refl _, ?_⟩
  show step.status.MayBecome (if step.status = .cancelled then .cancelled else .superseded)
  cases step.status <;> decide

section revise

variable {plan : LocalPlan} {requested : List PlanStep}

theorem rows_previous (h : plan.stepIds.Nodup) :
    (plan.steps.foldl Table.upsert (Table.empty : Table PlanStep.stepId)).rows = plan.steps :=
  rows_foldl_upsert Table.empty plan.steps h

theorem revise_advances (h : plan.WellFormed) : plan.Advances (revise plan requested) := by
  intro step hstep
  rw [← rows_previous h.nodup] at hstep
  by_cases hid : step.stepId ∈ requested.map PlanStep.stepId
  · obtain ⟨step', hmem, hto⟩ := mem_revised hstep hid
    exact ⟨step', List.mem_append_left _ hmem, hto⟩
  · refine ⟨step.removed, List.mem_append_right _ ?_, step.advances_removed⟩
    exact List.mem_map_of_mem (mem_left.mpr ⟨hstep, hid⟩)

theorem revise_ids (requested : List PlanStep) : (revise plan requested).stepIds =
    requested.map PlanStep.stepId ++ (reviseRequested (plan.steps.foldl Table.upsert .empty)
      requested).2.rows.map PlanStep.stepId := by
  unfold revise LocalPlan.stepIds
  rw [List.map_append, reviseRequested_ids, List.map_map]
  rfl

theorem revise_wellFormed (h : plan.WellFormed) (hrequested : (requested.map PlanStep.stepId).Nodup) :
    (revise plan requested).WellFormed where
  unstarted hversion := absurd hversion (Nat.succ_ne_zero _)
  nodup := by
    rw [revise_ids, List.nodup_append]
    refine ⟨hrequested, Table.nodup _, ?_⟩
    rintro id hid id' hid' rfl
    obtain ⟨step, hstep, rfl⟩ := List.mem_map.mp hid'
    exact (mem_left.mp hstep).2 hid
  evidence step hstep := by
    have hold : ∀ old ∈ (plan.steps.foldl Table.upsert (Table.empty : Table PlanStep.stepId)).rows,
        old.evidenceRefs.Nodup := by
      rw [rows_previous h.nodup]
      exact h.evidence
    rcases List.mem_append.mp hstep with hstep | hstep
    · rcases revised_evidence hstep with hnone | ⟨old, hmem, heq⟩
      · rw [hnone]
        exact List.nodup_nil
      · rw [heq]
        exact hold old hmem
    · obtain ⟨old, hmem, rfl⟩ := List.mem_map.mp hstep
      exact hold old (mem_left.mp hmem).1

end revise

/-! #### Events of a step -/

section stepEvent

variable {plan later : LocalPlan} {step : PlanStep} {e : PlanEvent}

theorem nodup_eraseDups {α : Type} [BEq α] [LawfulBEq α] (xs : List α) : xs.eraseDups.Nodup := by
  induction hlen : xs.length using Nat.strong_induction_on generalizing xs with
  | _ n ih =>
      cases xs with
      | nil => exact List.nodup_nil
      | cons x xs =>
          rw [List.eraseDups_cons, List.nodup_cons]
          have hle := List.length_filter_le (fun b => !b == x) xs
          rw [List.length_cons] at hlen
          refine ⟨?_, ih _ (by omega) _ rfl⟩
          rw [List.mem_eraseDups]
          simp

theorem eraseDups_of_nodup {α : Type} [BEq α] [LawfulBEq α] {xs : List α} (h : xs.Nodup) :
    xs.eraseDups = xs := by
  induction xs with
  | nil => rfl
  | cons x xs ih =>
      obtain ⟨hx, hrest⟩ := List.nodup_cons.mp h
      have hfilter : xs.filter (fun b => !b == x) = xs := by
        rw [List.filter_eq_self]
        intro y hy
        have hne : y ≠ x := fun heq => hx (heq ▸ hy)
        simpa using hne
      rw [List.eraseDups_cons, hfilter, ih hrest]

/-- Evidence that is already listed stays where it is. -/
theorem kept_eraseDups {refs : List NonEmptyText} (h : refs.Nodup) (more : List NonEmptyText) :
    refs <+: (refs ++ more).eraseDups := by
  rw [List.eraseDups_append, eraseDups_of_nodup h]
  exact List.prefix_append _ _

theorem applyToStep_advances {status : PlanStepStatus} {refs : List NonEmptyText}
    (hrefs : step.evidenceRefs.Nodup) (h : applyToStep step e = .ok (status, refs)) :
    step.Advances { step with status, evidenceRefs := refs } ∧ refs.Nodup := by
  unfold applyToStep at h
  split at h
  · split at h
    · cases h
    next hstatus =>
      obtain ⟨rfl, rfl⟩ := Prod.mk.inj (Except.ok.inj h)
      refine ⟨⟨rfl, List.prefix_refl _, ?_⟩, hrefs⟩
      show step.status.MayBecome .running
      revert hstatus
      cases step.status <;> decide
  · split at h
    · cases h
    next hstatus =>
      obtain ⟨rfl, rfl⟩ := Prod.mk.inj (Except.ok.inj h)
      refine ⟨⟨rfl, kept_eraseDups hrefs e.evidenceRefs, ?_⟩, nodup_eraseDups _⟩
      show step.status.MayBecome .completed
      revert hstatus
      cases step.status <;> decide
  · obtain ⟨rfl, rfl⟩ := Prod.mk.inj (Except.ok.inj h)
    refine ⟨⟨rfl, List.prefix_refl _, ?_⟩, hrefs⟩
    show step.status.MayBecome .cancelled
    cases step.status <;> decide
  · obtain ⟨rfl, rfl⟩ := Prod.mk.inj (Except.ok.inj h)
    refine ⟨⟨rfl, List.prefix_refl _, ?_⟩, hrefs⟩
    show step.status.MayBecome .superseded
    cases step.status <;> decide

/-- The event changes one step, in its place. -/
theorem applyStepEvent_cases (h : applyStepEvent plan e = .ok later) :
    ∃ before step after status refs, plan.steps = before ++ step :: after ∧
      applyToStep step e = .ok (status, refs) ∧ later.version = plan.version ∧
      later.steps = before ++ { step with status, evidenceRefs := refs } :: after := by
  unfold applyStepEvent at h
  dsimp only at h
  split at h
  · cases h
  next step hfind =>
    obtain ⟨⟨status, refs⟩, hstep, h⟩ := bind_ok_iff.mp h
    obtain rfl := Except.ok.inj h
    obtain ⟨hnamed, before, after, hsplit, hbefore⟩ := List.find?_eq_some_iff_append.mp hfind
    refine ⟨before, step, after, status, refs, hsplit, hstep, rfl, ?_⟩
    have hindex : plan.steps.findIdx (fun step => decide (some step.stepId = e.stepId)) = before.length := by
      rw [hsplit, List.findIdx_append, List.findIdx_eq_length_of_false, if_neg (lt_irrefl _), List.findIdx_cons]
      · simp [hnamed]
      · simpa using hbefore
    show plan.steps.set _ _ = _
    rw [hindex, hsplit]
    simp

theorem applyStepEvent_keeps (hplan : plan.WellFormed) (h : applyStepEvent plan e = .ok later) :
    plan.Advances later ∧ later.WellFormed := by
  obtain ⟨before, step, after, status, refs, hsplit, hstep, hversion, hlater⟩ := applyStepEvent_cases h
  have hmem : step ∈ plan.steps := by
    rw [hsplit]
    exact List.mem_append_right _ List.mem_cons_self
  obtain ⟨hto, hrefs⟩ := applyToStep_advances (hplan.evidence step hmem) hstep
  have hids : later.stepIds = plan.stepIds := by
    unfold LocalPlan.stepIds
    rw [hlater, hsplit]
    simp
  refine ⟨?_, ?_, by rw [hids]; exact hplan.nodup, ?_⟩
  · intro s hs
    rw [hsplit] at hs
    rw [hlater]
    rcases List.mem_append.mp hs with hs | hs
    · exact ⟨s, List.mem_append_left _ hs, .refl s⟩
    · rcases List.mem_cons.mp hs with rfl | hs
      · exact ⟨_, List.mem_append_right _ List.mem_cons_self, hto⟩
      · exact ⟨s, List.mem_append_right _ (List.mem_cons_of_mem _ hs), .refl s⟩
  · intro hnone
    rw [hversion] at hnone
    rw [hplan.unstarted hnone] at hmem
    exact absurd hmem List.not_mem_nil
  · intro s hs
    rw [hlater] at hs
    rcases List.mem_append.mp hs with hs | hs
    · exact hplan.evidence s (by rw [hsplit]; exact List.mem_append_left _ hs)
    · rcases List.mem_cons.mp hs with rfl | hs
      · exact hrefs
      · exact hplan.evidence s (by rw [hsplit]; exact List.mem_append_right _ (List.mem_cons_of_mem _ hs))

end stepEvent

/-! ### What a sequence keeps -/

/-- The event, where it validates. -/
def RawPlanEvent.event? (raw : RawPlanEvent) : Option PlanEvent := raw.validated.toOption

/-- The event is a `plan.revised`. -/
def RawPlanEvent.Revises (raw : RawPlanEvent) : Prop := ∃ e ∈ raw.event?, e.type = .revised

instance : DecidablePred RawPlanEvent.Revises := fun raw =>
  inferInstanceAs (Decidable (∃ e ∈ raw.event?, e.type = .revised))

/-- The identifiers of the steps that an event brings into the plan. -/
def RawPlanEvent.introduced (raw : RawPlanEvent) : List NonEmptyText :=
  ((raw.event?.filter (fun e => e.type.IsPlanEvent)).map
    (fun e => e.steps.map PlanStep.stepId)).getD []

/-- How many revisions the events hold. -/
def revisions (events : List RawPlanEvent) : ℕ := events.countP (fun raw => raw.Revises)

section sequence

variable {plan later : LocalPlan} {raw : RawPlanEvent}

/-- What one event does to a plan: it starts it, revises it, or changes one step. -/
theorem stepPlan_cases (h : stepPlan plan raw = .ok later) : ∃ e, raw.validated = .ok e ∧
    ((e.type = .created ∧ plan.version = 0 ∧ later = ⟨1, e.steps.map PlanStep.fresh⟩) ∨
      (plan.version ≠ 0 ∧ e.type = .revised ∧ later = revise plan e.steps) ∨
      (plan.version ≠ 0 ∧ ¬ e.type.IsPlanEvent ∧ applyStepEvent plan e = .ok later)) := by
  obtain ⟨e, he, h⟩ := bind_ok_iff.mp h
  refine ⟨e, he, ?_⟩
  split at h
  next htype =>
    split at h
    · cases h
    next hversion =>
      exact .inl ⟨htype, not_not.mp hversion, (Except.ok.inj h).symm⟩
  next htype =>
    obtain ⟨_, hplan, h⟩ := bind_ok_iff.mp h
    exact .inr (.inl ⟨ensure_ok_iff.mp hplan, htype, (Except.ok.inj h).symm⟩)
  next hcreated hrevised =>
    obtain ⟨_, hplan, h⟩ := bind_ok_iff.mp h
    exact .inr (.inr ⟨ensure_ok_iff.mp hplan, fun htype => htype.elim hcreated hrevised, h⟩)

theorem fresh_ids (steps : List PlanStep) :
    (steps.map PlanStep.fresh).map PlanStep.stepId = steps.map PlanStep.stepId := by
  rw [List.map_map]
  rfl

/-- One event keeps every step of the plan. -/
theorem stepPlan_advances (hplan : plan.WellFormed) (h : stepPlan plan raw = .ok later) :
    plan.Advances later ∧ later.WellFormed := by
  obtain ⟨e, -, ⟨htype, hversion, rfl⟩ | ⟨-, htype, rfl⟩ | ⟨-, -, h⟩⟩ := stepPlan_cases h
  · refine ⟨?_, fun hnone => absurd hnone Nat.one_ne_zero, ?_, ?_⟩
    · intro step hstep
      rw [hplan.unstarted hversion] at hstep
      exact absurd hstep List.not_mem_nil
    · show ((e.steps.map PlanStep.fresh).map PlanStep.stepId).Nodup
      rw [fresh_ids]
      exact e.nodup (.inl htype)
    · intro step hstep
      obtain ⟨given, -, rfl⟩ := List.mem_map.mp hstep
      exact List.nodup_nil
  · exact ⟨revise_advances hplan, revise_wellFormed hplan (e.nodup (.inr htype))⟩
  · exact applyStepEvent_keeps hplan h

/-- The version counts the plan and its revisions. -/
theorem stepPlan_version (h : stepPlan plan raw = .ok later) : later.version =
    (if raw.Revises then 1 else 0) + (if plan.version = 0 then 1 else plan.version) := by
  obtain ⟨e, he, hcases⟩ := stepPlan_cases h
  have hrevises : raw.Revises ↔ e.type = .revised := by
    simp [RawPlanEvent.Revises, RawPlanEvent.event?, he, Except.toOption]
  rcases hcases with ⟨htype, hversion, rfl⟩ | ⟨hversion, htype, rfl⟩ | ⟨hversion, htype, h⟩
  · rw [if_neg (by rw [hrevises, htype]; decide), if_pos hversion]
  · rw [if_pos (hrevises.mpr htype), if_neg hversion, Nat.add_comm]
    rfl
  · obtain ⟨_, _, _, _, _, -, -, hkept, -⟩ := applyStepEvent_cases h
    rw [if_neg (fun hr => htype (.inr (hrevises.mp hr))), if_neg hversion, hkept, Nat.zero_add]

/-- What an event introduces is in the plan. -/
theorem stepPlan_introduced (h : stepPlan plan raw = .ok later) {id : NonEmptyText}
    (hid : id ∈ raw.introduced) : id ∈ later.stepIds := by
  obtain ⟨e, he, hcases⟩ := stepPlan_cases h
  have hplanEvent : e.type.IsPlanEvent ∧ id ∈ e.steps.map PlanStep.stepId := by
    unfold RawPlanEvent.introduced RawPlanEvent.event? at hid
    rw [he] at hid
    by_cases htype : e.type.IsPlanEvent
    · simp only [Except.toOption, Option.filter_some, htype, decide_true, if_true, Option.map_some,
        Option.getD_some] at hid
      exact ⟨htype, hid⟩
    · simp [Except.toOption, Option.filter_some, htype] at hid
  rcases hcases with ⟨-, -, rfl⟩ | ⟨-, -, rfl⟩ | ⟨-, htype, -⟩
  · show id ∈ (e.steps.map PlanStep.fresh).map PlanStep.stepId
    rw [fresh_ids]
    exact hplanEvent.2
  · rw [revise_ids]
    exact List.mem_append_left _ hplanEvent.2
  · exact absurd hplanEvent.1 htype

theorem LocalPlan.Advances.mem_stepIds {id : NonEmptyText} (h : plan.Advances later)
    (hid : id ∈ plan.stepIds) : id ∈ later.stepIds := by
  obtain ⟨step, hstep, rfl⟩ := List.mem_map.mp hid
  obtain ⟨step', hstep', hto⟩ := h step hstep
  rw [← hto.stepId]
  exact List.mem_map_of_mem hstep'

/-- A sequence of events from a plan on. -/
theorem foldlM_advances {events : List RawPlanEvent} (hplan : plan.WellFormed)
    (h : events.foldlM stepPlan plan = .ok later) : plan.Advances later ∧ later.WellFormed := by
  induction events generalizing plan with
  | nil =>
      obtain rfl := Except.ok.inj h
      exact ⟨.refl plan, hplan⟩
  | cons raw events ih =>
      rw [List.foldlM_cons] at h
      obtain ⟨next, hnext, h⟩ := bind_ok_iff.mp h
      obtain ⟨hto, hwell⟩ := stepPlan_advances hplan hnext
      obtain ⟨hto', hwell'⟩ := ih hwell h
      exact ⟨hto.trans hto', hwell'⟩

theorem foldlM_version {events : List RawPlanEvent} (h : events.foldlM stepPlan plan = .ok later)
    (hversion : plan.version ≠ 0) : later.version = plan.version + revisions events := by
  induction events generalizing plan with
  | nil =>
      obtain rfl := Except.ok.inj h
      rfl
  | cons raw events ih =>
      rw [List.foldlM_cons] at h
      obtain ⟨next, hnext, h⟩ := bind_ok_iff.mp h
      have hstep := stepPlan_version hnext
      rw [if_neg hversion] at hstep
      have hrest := ih h (by omega)
      unfold revisions at hrest ⊢
      rw [List.countP_cons]
      simp only [decide_eq_true_eq]
      omega

theorem foldlM_introduced {events : List RawPlanEvent} (hplan : plan.WellFormed)
    (h : events.foldlM stepPlan plan = .ok later) {raw : RawPlanEvent} (hraw : raw ∈ events)
    {id : NonEmptyText} (hid : id ∈ raw.introduced) : id ∈ later.stepIds := by
  induction events generalizing plan with
  | nil => exact absurd hraw List.not_mem_nil
  | cons first events ih =>
      rw [List.foldlM_cons] at h
      obtain ⟨next, hnext, hrest⟩ := bind_ok_iff.mp h
      have hwell := (stepPlan_advances hplan hnext).2
      rcases List.mem_cons.mp hraw with rfl | hraw
      · exact (foldlM_advances hwell hrest).1.mem_stepIds (stepPlan_introduced hnext hid)
      · exact ih hwell hrest hraw

end sequence

/-- A plan is complete when some step counts and all that do are completed. -/
theorem isComplete_iff (plan : LocalPlan) : plan.isComplete ↔
    (∃ step ∈ plan.steps, ¬ step.status.Inactive) ∧
      ∀ step ∈ plan.steps, ¬ step.status.Inactive → step.status = .completed := by
  unfold LocalPlan.isComplete
  simp only [Bool.and_eq_true, Bool.not_eq_true', List.isEmpty_eq_false_iff_exists_mem, List.all_eq_true,
    List.mem_filter, decide_eq_true_eq, and_imp]

/-- **A plan keeps its history**: along every sequence of events that is accepted. -/
theorem history_kept {events : List RawPlanEvent} {plan : LocalPlan}
    (h : reducePlan events = .ok plan) :
    (events ≠ [] → plan.version = 1 + revisions events) ∧ (events = [] → plan.version = 0) ∧
      plan.stepIds.Nodup ∧ (∀ raw ∈ events, ∀ id ∈ raw.introduced, id ∈ plan.stepIds) ∧
      (∀ step ∈ plan.steps, step.evidenceRefs.Nodup) ∧
      (∀ earlier later, events = earlier ++ later →
        ∃ plan₀, reducePlan earlier = .ok plan₀ ∧ plan₀.Advances plan) ∧
      (plan.isComplete ↔ (∃ step ∈ plan.steps, ¬ step.status.Inactive) ∧
        ∀ step ∈ plan.steps, ¬ step.status.Inactive → step.status = .completed) := by
  have hwell := (foldlM_advances LocalPlan.wellFormed_empty h).2
  refine ⟨?_, ?_, hwell.nodup, ?_, hwell.evidence, ?_, isComplete_iff plan⟩
  · intro hne
    cases events with
    | nil => exact absurd rfl hne
    | cons raw events =>
        unfold reducePlan at h
        rw [List.foldlM_cons] at h
        obtain ⟨first, hfirst, hrest⟩ := bind_ok_iff.mp h
        have hstep := stepPlan_version hfirst
        rw [if_pos rfl] at hstep
        rw [foldlM_version hrest (by omega), hstep]
        unfold revisions
        rw [List.countP_cons]
        simp only [decide_eq_true_eq]
        omega
  · rintro rfl
    obtain rfl := Except.ok.inj h
    rfl
  · intro raw hraw id hid
    exact foldlM_introduced LocalPlan.wellFormed_empty h hraw hid
  · rintro earlier later rfl
    unfold reducePlan at h
    rw [List.foldlM_append] at h
    obtain ⟨plan₀, hearlier, hlater⟩ := bind_ok_iff.mp h
    exact ⟨plan₀, hearlier,
      (foldlM_advances (foldlM_advances LocalPlan.wellFormed_empty hearlier).2 hlater).1⟩

/-- The two steps of the plans below. -/
def surveyStep : PlanStep where
  stepId := ⟨"survey", by decide +kernel⟩
  description := ⟨"Survey", by decide +kernel⟩

def reportStep : PlanStep where
  stepId := ⟨"report", by decide +kernel⟩
  description := ⟨"Report", by decide +kernel⟩

/-- A plan of one step, which is completed with evidence, and a revision that asks for the other. -/
def surveyed : List RawPlanEvent :=
  [.event { type := .created, steps := [surveyStep], valid := rfl },
    .event { type := .stepCompleted, stepId := some surveyStep.stepId,
             evidenceRefs := [⟨"event-1", by decide +kernel⟩], valid := rfl },
    .event { type := .revised, steps := [reportStep], valid := rfl }]

/-- The plan that they make: the completed step is superseded. -/
def surveyedPlan : LocalPlan where
  version := 2
  steps := [reportStep, { surveyStep with
    status := .superseded, evidenceRefs := [⟨"event-1", by decide +kernel⟩] }]

theorem surveyed_kept : reducePlan surveyed = .ok surveyedPlan ∧
    surveyedPlan.version = 1 + revisions surveyed := by
  have haccepted : reducePlan surveyed = .ok surveyedPlan := by decide +kernel
  exact ⟨haccepted, (history_kept haccepted).1 (List.cons_ne_nil _ _)⟩

/-- Without any event there is no plan yet. -/
theorem no_events : ∃ plan, reducePlan [] = .ok plan ∧ plan.version ≠ 1 + revisions [] :=
  ⟨{}, rfl, by decide⟩

end CrazyHarness.Planning
