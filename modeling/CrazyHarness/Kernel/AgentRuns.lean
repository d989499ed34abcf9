import CrazyHarness.Kernel.Isolation

/-! # The agent runs behind results

In a run with a contract the kernel accepts a result only from a child agent run whose log shows how
it came about.  `ProducedBy` says what the log shows of the result, `ToolUsed` what it shows of a tool
that the contract of the assignment requires, and both give the events in their order in the log.

The success of a tool is checked at the event that a reference names without the blanks around it, the
records of its use at the one that it names as it stands.  So results are sound where those are the
same, or the latter has succeeded as well (`result_provenance_iff`). -/

namespace CrazyHarness

open Lib Check

/-! ### Events in order -/

section order

variable {child es : List Event} {a b e y : Event}

theorem position_cons (id : String) :
    position (y :: child) id = if y.id = id then some 0 else (position child id).map (· + 1) := by
  unfold position
  rw [List.findIdx?_cons]
  by_cases h : y.id = id <;> simp [h]

theorem precedes_trans {d : Event} (h : precedes child a b) (h' : precedes child b d) :
    precedes child a d := by
  unfold precedes at h h' ⊢
  cases ha : position child a.id with
  | none => simp [ha] at h
  | some i =>
      cases hb : position child b.id with
      | none => simp [hb] at h'
      | some j =>
          cases hd : position child d.id with
          | none => simp [hb, hd] at h'
          | some l =>
              simp only [ha, hb, hd, decide_eq_true_eq] at h h' ⊢
              omega

/-- What comes after an event is not the first of the log. -/
theorem ne_of_precedes (h : precedes (y :: child) a b) : y.id ≠ b.id := by
  intro heq
  unfold precedes at h
  rw [position_cons b.id, if_pos heq] at h
  split at h
  next i j _ hj =>
    rw [← Option.some.inj hj] at h
    simp at h
  next => cases h

theorem precedes_of_cons (ha : y.id ≠ a.id) (h : precedes (y :: child) a b) : precedes child a b := by
  have hb := ne_of_precedes h
  unfold precedes at h ⊢
  rw [position_cons a.id, position_cons b.id, if_neg ha, if_neg hb] at h
  cases hi : position child a.id with
  | none => simp [hi] at h
  | some i =>
      cases hj : position child b.id with
      | none => simp [hi, hj] at h
      | some j => simpa [hi, hj] using h

/-- Events of a log, each before the next, are in the log in this order. -/
theorem sublist_of_pairwise (hunique : ∀ a ∈ child, ∀ b ∈ child, a.id = b.id → a = b)
    (hmem : ∀ e ∈ es, e ∈ child) (horder : es.Pairwise (fun a b => precedes child a b)) :
    es.Sublist child := by
  induction child generalizing es with
  | nil =>
      cases es with
      | nil => exact .slnil
      | cons a es => exact absurd (hmem a List.mem_cons_self) List.not_mem_nil
  | cons y child ih =>
      have hunique' : ∀ a ∈ child, ∀ b ∈ child, a.id = b.id → a = b := fun a ha b hb =>
        hunique a (List.mem_cons_of_mem y ha) b (List.mem_cons_of_mem y hb)
      have hlater : ∀ e ∈ y :: child, y.id ≠ e.id → e ∈ child := by
        intro e he hne
        cases List.mem_cons.mp he with
        | inl heq => exact absurd (congrArg Event.id heq.symm) hne
        | inr hmem => exact hmem
      have hshift : ∀ fs : List Event, (∀ e ∈ fs, y.id ≠ e.id) →
          fs.Pairwise (fun a b => precedes (y :: child) a b) →
          fs.Pairwise (fun a b => precedes child a b) := by
        intro fs hfs hpairs
        exact hpairs.imp_of_mem (fun ha _ h => precedes_of_cons (hfs _ ha) h)
      cases es with
      | nil => exact List.nil_sublist _
      | cons a es =>
          obtain ⟨hfirst, hrest⟩ := List.pairwise_cons.mp horder
          have hne : ∀ e ∈ es, y.id ≠ e.id := fun e he => ne_of_precedes (hfirst e he)
          have hes : ∀ e ∈ es, e ∈ child :=
            fun e he => hlater e (hmem e (List.mem_cons_of_mem a he)) (hne e he)
          by_cases heq : y.id = a.id
          · obtain rfl := hunique y List.mem_cons_self a (hmem a List.mem_cons_self) heq
            exact .cons_cons _ (ih hunique' hes (hshift es hne hrest))
          · refine .cons _ (ih hunique' ?_ (hshift (a :: es) ?_ horder))
            · intro e he
              cases List.mem_cons.mp he with
              | inl h => exact hlater e (hmem e he) (by rwa [h])
              | inr h => exact hes e h
            · intro e he
              cases List.mem_cons.mp he with
              | inl h => rwa [h]
              | inr h => exact hne e h

theorem logged_of_precedes (h : precedes child a b) : logged child a ∧ logged child b := by
  unfold precedes at h
  unfold logged
  split at h
  next i j hi hj => exact ⟨by rw [hi]; rfl, by rw [hj]; rfl⟩
  next => cases h

end order

/-! ### What the checks have found -/

section passes

variable {db : Database} {clock : DateTime} {c : CommandCandidate} {child : List Event}
  {seed submission : Event} {reasonPrefix : String}

theorem collect_passes {α β : Type} {body : β → Check α} {xs : List β} {as : List α}
    (h : (collect body xs).within db clock = .ok as) : ∀ x ∈ xs, ∃ a, (body x).within db clock = .ok a := by
  induction xs generalizing as with
  | nil => exact fun x hx => absurd hx List.not_mem_nil
  | cons x xs ih =>
      rw [collect] at h
      obtain ⟨a, ha, h⟩ := bind_passes.mp h
      obtain ⟨rest, hrest, -⟩ := bind_passes.mp h
      intro y hy
      cases List.mem_cons.mp hy with
      | inl heq => exact ⟨a, by rwa [heq]⟩
      | inr hmem => exact ih hrest y hmem

/-- A reference without blanks around it: it names the event whose success is checked. -/
theorem checkReference_passes {rawRef : Json} {known : Bool}
    (h : (checkReference c rawRef).within db clock = .ok known) :
    ∃ e, db.getEvent (strip rawRef.pyStr) = some e ∧ (e.type = "tool.completed" → ToolSucceeded e) := by
  unfold checkReference at h
  simp only [bind_passes, require_passes, getEvent_passes, orReject_passes, exists_eq_left'] at h
  obtain ⟨-, -, e, he, -, -, -, -, h⟩ := h
  refine ⟨e, he, ?_⟩
  intro htype
  unfold checkReferenced at h
  rw [if_pos htype, bind_passes] at h
  obtain ⟨_, hsucceeded, _⟩ := h
  exact require_passes.mp hsucceeded

theorem validateEvidenceReferences_passes {u : Unit}
    (h : (validateEvidenceReferences c).within db clock = .ok u) :
    ∃ refs, c.payload.getD "evidence_refs" .null = .list refs ∧ ∀ ref ∈ refs, ∃ e,
      db.getEvent (strip ref.pyStr) = some e ∧ (e.type = "tool.completed" → ToolSucceeded e) := by
  unfold validateEvidenceReferences at h
  split at h
  next refs hrefs =>
    refine ⟨refs, hrefs, ?_⟩
    obtain ⟨-, -, h⟩ := bind_passes.mp h
    obtain ⟨known, hknown, -⟩ := bind_passes.mp h
    intro ref href
    obtain ⟨b, hb⟩ := collect_passes hknown ref href
    exact checkReference_passes hb
  next => cases h

/-- The model call behind a command: its events are of the child run, and in their order. -/
structure ModelCall (c : CommandCandidate) (child : List Event) (seed request response command : Event)
    (turnId : String) : Prop where
  mine : ∀ e ∈ [request, response, command], InTurn c child command.taskId turnId e
  ordered : ModelCallOrdered child seed request response command

theorem hasValidModelCommandChain_passes {command : Event} {turnId : String}
    (h : (hasValidModelCommandChain c child seed command turnId).within db clock = .ok true) :
    ∃ request response, db.getEvent response.id = some response ∧
      db.getEvent request.id = some request ∧ ModelCall c child seed request response command turnId := by
  unfold hasValidModelCommandChain at h
  simp only [bind_passes, getEvent_passes, exists_eq_left'] at h
  split at h
  · cases h
  next response hresponse =>
    simp only [bind_passes, getEvent_passes, exists_eq_left'] at h
    split at h
    · cases h
    next request hrequest =>
      simp only [bind_passes, getEvent_passes, exists_eq_left'] at h
      split at h
      · cases h
      next trigger htrigger =>
        split at h
        next hturn =>
          obtain ⟨reaches, -, h⟩ := bind_passes.mp h
          have hboth : (reaches && decide (ModelCallOrdered child seed request response command)) = true :=
            Except.ok.inj h
          rw [Bool.and_eq_true, decide_eq_true_eq] at hboth
          have hself : ∀ id e, db.getEvent id = some e → db.getEvent e.id = some e := by
            intro id e he
            rw [show e.id = id from Table.key_of_lookup he]
            exact he
          exact ⟨request, response, hself _ _ hresponse, hself _ _ hrequest, hturn.1, hboth.2⟩
        next => cases h

/-- What the log shows of the use of a tool: the command of a model call, the operation, the request,
its result and the end. -/
structure ToolPasses (db : Database) (clock : DateTime) (c : CommandCandidate) (child : List Event)
    (seed submission tool : Event) (toolName : String) : Prop where
  named : toolNameOf tool = some toolName
  records : ∃ operation requested settled command turnId operationId,
    operation ∈ child ∧ requested ∈ child ∧ settled ∈ child ∧
    db.getEvent command.id = some command ∧
    OfOperation "operation.started" operationId turnId operation ∧
    OfOperation "tool.requested" operationId turnId requested ∧
    OfOperation "operation.completed" operationId turnId settled ∧
    requested.causationId = some operation.id ∧ settled.causationId = some tool.id ∧
    (tool.value "operation_id").nonEmpty = some operationId ∧
    ToolOperation c child seed submission command operation requested tool settled toolName ∧
    (hasValidModelCommandChain c child seed command turnId).within db clock = .ok true

theorem checkToolChain_passes {tool : Event} {toolName : String} {evidence : Option String}
    (hname : toolNameOf tool = some toolName)
    (h : (checkToolChain c child seed submission reasonPrefix tool).within db clock = .ok evidence) :
    ToolPasses db clock c child seed submission tool toolName := by
  unfold checkToolChain at h
  simp only [bind_passes, require_passes, getEvent_passes, orReject_passes, exists_eq_left'] at h
  obtain ⟨name, hname', turnId, -, operationId, hoperationId, -, -, operation, hoperation, requested,
    hrequested, settled, hsettled, command, hcommand, -, hrecords, chain, hchain, -, rfl, -⟩ := h
  rw [hname] at hname'
  obtain rfl := Option.some.inj hname'
  have hstarted := List.find?_some hoperation
  have hrequest := List.find?_some hrequested
  have hend := List.find?_some hsettled
  simp only [decide_eq_true_eq] at hstarted hrequest hend
  refine ⟨hname, operation, requested, settled, command, turnId, operationId,
    List.mem_of_find?_eq_some hoperation, List.mem_of_find?_eq_some hrequested,
    List.mem_of_find?_eq_some hsettled, ?_, hstarted.1, hrequest.1, hend.1, hrequest.2.2, hend.2.2,
    hoperationId, hrecords, hchain⟩
  rw [show command.id = operation.causeText from Table.key_of_lookup hcommand]
  exact hcommand

/-- Every reference to the result of a tool has the records of its use. -/
theorem toolEvidence_of_ref {contract : AssignmentContract} {u : Unit}
    (h : (validateAgentRunToolEvidence c contract child seed submission reasonPrefix).within db clock =
      .ok u) {refs : List Json} (hrefs : c.payload.getD "evidence_refs" (.list []) = .list refs)
    {ref : Json} (href : ref ∈ refs) {tool : Event} {toolName : String}
    (htool : db.getEvent ref.pyStr = some tool) (htype : tool.type = "tool.completed")
    (hname : toolNameOf tool = some toolName) :
    ToolPasses db clock c child seed submission tool toolName := by
  unfold validateAgentRunToolEvidence at h
  simp only [bind_passes, liftE_passes, require_passes] at h
  obtain ⟨refs', hrefs', referenced, hreferenced, -⟩ := h
  unfold evidenceRefs at hrefs'
  rw [hrefs] at hrefs'
  obtain rfl := Except.ok.inj hrefs'
  obtain ⟨evidence, hevidence⟩ := collect_passes hreferenced ref href
  unfold toolEvidence at hevidence
  rw [bind_passes] at hevidence
  simp only [getEvent_passes, exists_eq_left', htool, if_pos htype] at hevidence
  exact checkToolChain_passes hname hevidence

/-- What the log shows of a submission. -/
structure SubmissionPasses (db : Database) (clock : DateTime) (c : CommandCandidate) (seed : Event)
    (submission : Event) (agentRunId : String) (contract : AssignmentContract) (artifact : Dict) :
    Prop where
  artifactOf : (submission.value "artifact").asDict = some artifact
  chain : ∃ command gate persisted turnId, db.getEvent command.id = some command ∧
    gate ∈ db.readTask agentRunId ∧ gate.type = "completion.gate.passed" ∧
    gate.causationId = some command.id ∧ (command.value "command").asDict = some persisted ∧
    SubmissionChain c (db.readTask agentRunId) agentRunId turnId seed command gate submission artifact
      persisted ∧
    (hasValidModelCommandChain c (db.readTask agentRunId) seed command turnId).within db clock = .ok true
  tools : ∃ reasonPrefix, (validateAgentRunToolEvidence c contract (db.readTask agentRunId) seed
    submission reasonPrefix).within db clock = .ok ()

theorem validatedSubmissionArtifact_passes {agentRunId : String} {contract : AssignmentContract}
    {artifact : Dict} (h : (validatedSubmissionArtifact c seed submission agentRunId reasonPrefix
      contract).within db clock = .ok artifact) :
    SubmissionPasses db clock c seed submission agentRunId contract artifact := by
  unfold validatedSubmissionArtifact at h
  simp only [bind_passes, readTask_passes, getEvent_passes, orReject_passes, require_passes,
    liftE_passes, exists_eq_left'] at h
  obtain ⟨command, hcommand, gate, hgate, artifact', hartifact, persisted, hpersisted, turnId, -, -,
    hsubmission, chain, hchain, -, rfl, _, htools, _, _, _, _, h⟩ := h
  obtain rfl : artifact' = artifact := Except.ok.inj h
  have hpassed := List.find?_some hgate
  simp only [decide_eq_true_eq] at hpassed
  refine ⟨hartifact, ⟨command, gate, persisted, turnId, ?_, List.mem_of_find?_eq_some hgate, hpassed.1,
    hpassed.2.1, hpersisted, hsubmission, hchain⟩, reasonPrefix, htools⟩
  rw [show command.id = submission.causeText from Table.key_of_lookup hcommand]
  exact hcommand

/-- What the log shows of the agent run behind a result. -/
structure AgentRunPasses (db : Database) (clock : DateTime) (c : CommandCandidate) (assignment : Dict)
    (agentRunId : String) (seed submission : Event) (contract : AssignmentContract) (artifact : Dict) :
    Prop where
  parsed : (assignment.get? "contract").bind AssignmentContract.ofJson = some contract
  seeded : seed ∈ db.readTask agentRunId ∧ seed.type = "agent.run.created"
  found : db.getEvent submission.id = some submission
  bound : ∃ created ∈ db.readRun c.runId, created.type = "assignment.created" ∧
    (created.value "assignment_id").pyEq (assignment.getD "assignment_id" .null) ∧
    AgentRunBound c "assignment" agentRunId created.id seed submission
  named : (seed.value "assignment_id").pyEq (assignment.getD "assignment_id" .null)
  exact : (seed.value "contract").pyEq contract.dump
  submitted : SubmissionPasses db clock c seed submission agentRunId contract artifact
  fields : ∀ field ∈ submittedFields c.kind,
    (c.payload.getD field .null).pyEq (artifact.getD field .null)

theorem validateAssignmentAgentRun_passes {assignment : Dict} {u : Unit}
    (h : (validateAssignmentAgentRun c assignment).within db clock = .ok u) :
    ∃ agentRunId seed submission contract artifact,
      AgentRunPasses db clock c assignment agentRunId seed submission contract artifact := by
  unfold validateAssignmentAgentRun at h
  simp only [bind_passes, readTask_passes, readRun_passes, getEvent_passes, orReject_passes,
    require_passes, exists_eq_left'] at h
  obtain ⟨agentRunId, -, submissionId, -, seed, hseed, submission, hsubmission, created, hcreated,
    contract, hcontract, -, ⟨hbound, hassignment⟩, -, hexact, artifact, hartifact, hfields⟩ := h
  have hstarted := List.find?_some hcreated
  simp only [decide_eq_true_eq] at hstarted
  refine ⟨agentRunId, seed, submission, contract, artifact, hcontract,
    ⟨List.mem_of_find?_eq_some hseed, by simpa using List.find?_some hseed⟩, ?_,
    ⟨created, List.mem_of_find?_eq_some hcreated, hstarted.1, hstarted.2, hbound⟩, hassignment, hexact,
    validatedSubmissionArtifact_passes hartifact, hfields⟩
  rw [show submission.id = submissionId from Table.key_of_lookup hsubmission]
  exact hsubmission

end passes

/-! ### Sound results -/

/-- The model call behind a command, with what was requested, answered and validated in it. -/
structure CalledFor (c : CommandCandidate) (agentRunId turnId : String)
    (request response command : Event) : Prop where
  types : request.type = "model.requested" ∧ response.type = "model.completed" ∧
    command.type = "agent.command.validated"
  causes : response.causationId = some request.id ∧ command.causationId = some response.id
  mine : ∀ e ∈ [request, response, command], e.runId = c.runId ∧ e.taskId = agentRunId ∧
    e.source = c.actorId ∧ e.text "turn_id" = some turnId

/-- The result of the command was submitted by the child agent run: after its seed there are, in this
order, a model call whose command submits the fields of the result, the gate and the submission. -/
structure SubmittedBy (db : Database) (c : CommandCandidate) (agentRunId : String)
    (seed submission : Event) : Prop where
  chain : ∃ (request response command gate : Event) (turnId : String) (persisted artifact : Dict),
    [seed, request, response, command, gate, submission].Sublist (db.readTask agentRunId) ∧
    CalledFor c agentRunId turnId request response command ∧
    (command.value "command").asDict = some persisted ∧
    (persisted.get? "type").bind Json.asStr = some "submit_output" ∧
    (persisted.getD "artifact" .null).pyEq (.dict artifact) ∧
    (submission.value "artifact").asDict = some artifact ∧
    (∀ field ∈ submittedFields c.kind, (c.payload.getD field .null).pyEq (artifact.getD field .null)) ∧
    gate.type = "completion.gate.passed" ∧ gate.causationId = some command.id ∧
    gate.runId = c.runId ∧ gate.source = c.actorId

/-- The tool was used by the child agent run: between its seed and its submission there are, in this
order, a model call whose command calls the tool, and the start, the request, the result and the end
of its operation.  The result is among the references of the command. -/
structure ToolUsed (db : Database) (c : CommandCandidate) (agentRunId : String)
    (seed submission tool : Event) (toolName : String) : Prop where
  chain : ∃ (request response command operation requested settled : Event)
      (turnId operationId : String) (persisted : Dict),
    [seed, request, response, command, operation, requested, tool, settled, submission].Sublist
      (db.readTask agentRunId) ∧
    CalledFor c agentRunId turnId request response command ∧
    (command.value "command").asDict = some persisted ∧
    (persisted.get? "type").bind Json.asStr = some "call_tool" ∧
    (persisted.get? "tool_name").bind Json.asStr = some toolName ∧
    OfOperation "operation.started" operationId turnId operation ∧
    OfOperation "tool.requested" operationId turnId requested ∧
    OfOperation "operation.completed" operationId turnId settled ∧
    (tool.value "operation_id").nonEmpty = some operationId ∧
    requested.causationId = some operation.id ∧ settled.causationId = some tool.id ∧
    ∀ e ∈ [operation, requested, tool, settled], e.runId = c.runId ∧ e.source = c.actorId
  completed : tool.type = "tool.completed" ∧ toolNameOf tool = some toolName
  referenced : ∃ refs, c.payload.getD "evidence_refs" .null = .list refs ∧
    ∃ ref ∈ refs, ref.pyStr = tool.id

/-- The contract of the assignment that the command names. -/
def Database.assignmentContractOf (db : Database) (c : CommandCandidate) : Option AssignmentContract :=
  ((db.assignmentOf c).bind (Dict.get? · "contract")).bind AssignmentContract.ofJson

/-- The seed of the child run is bound to the assignment of the command, its actor and its task, and
has exactly the contract of the assignment. -/
structure Seeded (db : Database) (c : CommandCandidate) (contract : AssignmentContract)
    (agentRunId : String) (seed submission : Event) : Prop where
  type : seed.type = "agent.run.created"
  assignment : ∃ assignment, db.assignmentOf c = some assignment ∧
    (seed.value "assignment_id").pyEq (assignment.getD "assignment_id" .null) ∧
    ∃ created ∈ db.readRun c.runId, created.type = "assignment.created" ∧
      (created.value "assignment_id").pyEq (assignment.getD "assignment_id" .null) ∧
      AgentRunBound c "assignment" agentRunId created.id seed submission
  exact : (seed.value "contract").pyEq contract.dump

/-- The store shows how the result of the command came about: a child agent run has submitted it, and
has used every tool that the contract of the assignment requires, with success. -/
def ResultSound (db : Database) (c : CommandCandidate) : Prop :=
  ∃ contract agentRunId seed submission, db.assignmentContractOf c = some contract ∧
    Seeded db c contract agentRunId seed submission ∧ SubmittedBy db c agentRunId seed submission ∧
    ∀ name ∈ contract.evidenceRequirements, ∃ tool,
      ToolUsed db c agentRunId seed submission tool name ∧ ToolSucceeded tool

/-- For every tool that is required, one of the references to a result of it has no blanks around it,
or the tool has succeeded there. -/
def NamesToolsPlainly (db : Database) (c : CommandCandidate) : Prop :=
  ∀ contract, db.assignmentContractOf c = some contract → ∀ name ∈ contract.evidenceRequirements,
    ∃ refs, c.payload.getD "evidence_refs" .null = .list refs ∧ ∃ ref ∈ refs, ∃ tool,
      db.getEvent ref.pyStr = some tool ∧ tool.type = "tool.completed" ∧
        toolNameOf tool = some name ∧ (strip ref.pyStr = ref.pyStr ∨ ToolSucceeded tool)

section sound

variable {db : Database} {clock : DateTime} {c : CommandCandidate} {agentRunId : String}
  {seed submission : Event}

theorem readTask_unique {taskId : String} :
    ∀ a ∈ db.readTask taskId, ∀ b ∈ db.readTask taskId, a.id = b.id → a = b := by
  intro a ha b hb heq
  exact db.events.eq_of_key_eq (List.mem_filter.mp ha).1 (List.mem_filter.mp hb).1 heq

/-- An event that is found by its identifier, and of the child run. -/
theorem mem_readTask {e : Event} {taskId : String} (h : db.getEvent e.id = some e)
    (htask : e.taskId = taskId) : e ∈ db.readTask taskId :=
  List.mem_filter.mpr ⟨Table.mem_of_lookup h, decide_eq_true htask⟩

theorem ModelCall.calledFor {request response command : Event} {turnId : String}
    {child : List Event} (h : ModelCall c child seed request response command turnId)
    (htask : command.taskId = agentRunId) :
    CalledFor c agentRunId turnId request response command := by
  obtain ⟨hrequest, hresponse, hanswers, hcommand, hcause, -⟩ := h.ordered
  refine ⟨⟨hrequest, hresponse, hcommand⟩, ⟨hanswers, hcause⟩, ?_⟩
  intro e he
  obtain ⟨hrun, hmine, hsource, hturn, -⟩ := h.mine e he
  exact ⟨hrun, hmine.trans htask, hsource, hturn⟩

theorem isTrans_precedes (child : List Event) :
    IsTrans Event (fun a b => precedes child a b = true) := ⟨fun _ _ _ => precedes_trans⟩

/-- The records of a tool are those of its use. -/
theorem ToolPasses.used {tool : Event} {toolName : String}
    (h : ToolPasses db clock c (db.readTask agentRunId) seed submission tool toolName)
    (hseed : seed ∈ db.readTask agentRunId) (hsubmission : submission ∈ db.readTask agentRunId)
    (htool : db.getEvent tool.id = some tool) (htype : tool.type = "tool.completed") {refs : List Json}
    (hrefs : c.payload.getD "evidence_refs" .null = .list refs)
    (href : ∃ ref ∈ refs, ref.pyStr = tool.id) :
    ToolUsed db c agentRunId seed submission tool toolName := by
  obtain ⟨operation, requested, settled, command, turnId, operationId, hoperation, hrequested, hsettled,
    hcommand, hstarts, hrequests, hends, hcause, hresult, hid, hrecords, hchain⟩ := h.records
  obtain ⟨request, response, hresponse, hrequest, hcall⟩ := hasValidModelCommandChain_passes hchain
  obtain ⟨-, -, -, -, -, hseedRequest, hrequestResponse, hresponseCommand⟩ := hcall.ordered
  obtain ⟨hseedCommand, hcommandOperation, hoperationRequested, hrequestedTool, htoolSettled,
    hsettledSubmission⟩ := hrecords.ordered
  obtain ⟨persisted, hpersisted, hcalls, hname⟩ := hrecords.call
  have htask : submission.taskId = agentRunId := of_decide_eq_true (List.mem_filter.mp hsubmission).2
  have hmine := hrecords.mine
  simp only [List.mem_cons, List.not_mem_nil, or_false, forall_eq_or_imp, forall_eq] at hmine
  -- The command is found by its identifier, which is one of the log of the child run.
  have hcommandTask : command ∈ db.readTask agentRunId := by
    have hlogged := (logged_of_precedes hseedCommand).2
    unfold logged position at hlogged
    rw [List.findIdx?_isSome, List.any_eq_true] at hlogged
    obtain ⟨e, he, heq⟩ := hlogged
    have hsame : e = command := db.events.eq_of_key_eq (List.mem_filter.mp he).1
      (Table.mem_of_lookup hcommand) (of_decide_eq_true heq)
    rwa [← hsame]
  have hcommandOf : command.taskId = agentRunId :=
    of_decide_eq_true (List.mem_filter.mp hcommandTask).2
  have hcalled := hcall.calledFor hcommandOf
  refine ⟨⟨request, response, command, operation, requested, settled, turnId, operationId, persisted,
    ?_, hcalled, hpersisted, hcalls, hname, hstarts, hrequests, hends, hid, hcause, hresult, ?_⟩,
    ⟨htype, h.named⟩, refs, hrefs, href⟩
  · refine sublist_of_pairwise readTask_unique ?_ ?_
    · have hmem : ∀ e ∈ [request, response, command], e.taskId = agentRunId :=
        fun e he => (hcalled.mine e he).2.1
      simp only [List.mem_cons, List.not_mem_nil, or_false, forall_eq_or_imp, forall_eq] at hmem ⊢
      exact ⟨hseed, mem_readTask hrequest hmem.1, mem_readTask hresponse hmem.2.1, hcommandTask,
        hoperation, hrequested, mem_readTask htool (hmine.2.2.1.2.1.trans htask), hsettled, hsubmission⟩
    · have := isTrans_precedes (db.readTask agentRunId)
      rw [← List.isChain_iff_pairwise]
      simp only [List.isChain_cons_cons, List.isChain_singleton, and_true]
      exact ⟨hseedRequest, hrequestResponse, hresponseCommand, hcommandOperation, hoperationRequested,
        hrequestedTool, htoolSettled, hsettledSubmission⟩
  · simp only [List.mem_cons, List.not_mem_nil, or_false, forall_eq_or_imp, forall_eq]
    exact ⟨⟨hmine.1.1, hmine.1.2.2⟩, ⟨hmine.2.1.1, hmine.2.1.2.2⟩, ⟨hmine.2.2.1.1, hmine.2.2.1.2.2⟩,
      ⟨hmine.2.2.2.1, hmine.2.2.2.2.2⟩⟩

/-- What the log shows of the submission is how the result came about. -/
theorem AgentRunPasses.submittedBy {assignment : Dict} {contract : AssignmentContract} {artifact : Dict}
    (h : AgentRunPasses db clock c assignment agentRunId seed submission contract artifact) :
    SubmittedBy db c agentRunId seed submission := by
  obtain ⟨command, gate, persisted, turnId, hcommand, hgate, hgateType, hgateCause, hpersisted,
    hsubmission, hchain⟩ := h.submitted.chain
  obtain ⟨request, response, hresponse, hrequest, hcall⟩ := hasValidModelCommandChain_passes hchain
  obtain ⟨-, -, -, -, -, hseedRequest, hrequestResponse, hresponseCommand⟩ := hcall.ordered
  obtain ⟨-, hcommandGate, hgateSubmission⟩ := hsubmission.ordered
  obtain ⟨_, _, _, _, hbound⟩ := h.bound
  have hcalled := hcall.calledFor hsubmission.commandOf.2.1
  refine ⟨request, response, command, gate, turnId, persisted, artifact, ?_, hcalled, hpersisted,
    hsubmission.submits.1, hsubmission.submits.2, h.submitted.artifactOf, h.fields, hgateType,
    hgateCause, hsubmission.gateOf.1, hsubmission.gateOf.2.2⟩
  refine sublist_of_pairwise readTask_unique ?_ ?_
  · have hmem : ∀ e ∈ [request, response, command], e.taskId = agentRunId :=
      fun e he => (hcalled.mine e he).2.1
    simp only [List.mem_cons, List.not_mem_nil, or_false, forall_eq_or_imp, forall_eq] at hmem ⊢
    exact ⟨h.seeded.1, mem_readTask hrequest hmem.1, mem_readTask hresponse hmem.2.1,
      mem_readTask hcommand hmem.2.2, hgate, mem_readTask h.found hbound.submissionOf.2.1⟩
  · have := isTrans_precedes (db.readTask agentRunId)
    rw [← List.isChain_iff_pairwise]
    simp only [List.isChain_cons_cons, List.isChain_singleton, and_true]
    exact ⟨hseedRequest, hrequestResponse, hresponseCommand, hcommandGate, hgateSubmission⟩

theorem AgentRunPasses.isSeeded {assignment : Dict} {contract : AssignmentContract} {artifact : Dict}
    (h : AgentRunPasses db clock c assignment agentRunId seed submission contract artifact)
    (hassignment : db.assignmentOf c = some assignment) :
    Seeded db c contract agentRunId seed submission :=
  ⟨h.seeded.2, ⟨assignment, hassignment, h.named, h.bound⟩, h.exact⟩

/-- A team result that passes is sound exactly if it names its tools plainly. -/
theorem validateTeamResult_sound {assignment : Dict} (hassignment : db.assignmentOf c = some assignment)
    (h : (validateTeamResult c (some assignment)).within db clock = .ok ()) :
    ResultSound db c ↔ NamesToolsPlainly db c := by
  unfold validateTeamResult at h
  obtain ⟨_, hreferences, hrun⟩ := bind_passes.mp h
  obtain ⟨refs, hrefs, hchecked⟩ := validateEvidenceReferences_passes hreferences
  obtain ⟨agentRunId, seed, submission, contract, artifact, hpasses⟩ :=
    validateAssignmentAgentRun_passes hrun
  have hcontract : db.assignmentContractOf c = some contract := by
    rw [Database.assignmentContractOf, hassignment]
    exact hpasses.parsed
  constructor
  · rintro ⟨contract', agentRunId', seed', submission', hcontract', -, -, htools⟩
    intro contract'' hcontract'' name hname
    rw [hcontract'] at hcontract''
    obtain rfl := Option.some.inj hcontract''
    obtain ⟨tool, hused, hsucceeded⟩ := htools name hname
    obtain ⟨refs', hrefs', ref, href, hid⟩ := hused.referenced
    refine ⟨refs', hrefs', ref, href, tool, ?_, hused.completed.1, hused.completed.2, .inr hsucceeded⟩
    obtain ⟨request, response, command, operation, requested, settled, -, -, -, horder, -⟩ := hused.chain
    have htool : tool ∈ db.readTask agentRunId' := horder.subset (by simp)
    rw [hid]
    exact Table.lookup_of_mem (List.mem_filter.mp htool).1
  · intro hplain
    have hsubmission : submission ∈ db.readTask agentRunId := by
      obtain ⟨_, _, _, _, hbound⟩ := hpasses.bound
      exact mem_readTask hpasses.found hbound.submissionOf.2.1
    refine ⟨contract, agentRunId, seed, submission, hcontract, hpasses.isSeeded hassignment,
      hpasses.submittedBy, ?_⟩
    intro name hname
    obtain ⟨refs', hrefs', ref, href, tool, htool, htype, hnamed, hplainly⟩ :=
      hplain contract hcontract name hname
    rw [hrefs] at hrefs'
    obtain rfl := Json.list.inj hrefs'
    have hrefsD : c.payload.getD "evidence_refs" (.list []) = .list refs := by
      unfold Dict.getD at hrefs ⊢
      cases hget : c.payload.get? "evidence_refs" with
      | none => simp [hget] at hrefs
      | some v => simpa [hget] using hrefs
    obtain ⟨reasonPrefix, htools⟩ := hpasses.submitted.tools
    -- The chain is checked at every reference, so also at the one that is named plainly.
    have hchain := toolEvidence_of_ref htools hrefsD href htool htype hnamed
    have hid : ref.pyStr = tool.id := (Table.key_of_lookup htool).symm
    have hfound : db.getEvent tool.id = some tool := by rwa [← hid]
    refine ⟨tool, hchain.used hpasses.seeded.1 hsubmission hfound htype hrefs ⟨ref, href, hid⟩, ?_⟩
    rcases hplainly with hstrip | hsucceeded
    · obtain ⟨e, he, hok⟩ := hchecked ref href
      rw [hstrip, htool] at he
      obtain rfl := Option.some.inj he
      exact hok htype
    · exact hsucceeded

end sound

/-! ### Submissions -/

/-- The step by which a candidate is accepted: its acceptance enters the log. -/
def AcceptedAt (w w' : StoreWorld) : Prop :=
  ∃ e ∈ w'.db.events.rows, e ∉ w.db.events.rows ∧ e.type = "candidate.accepted"

theorem accepted_of_acceptedAt {dispatch : Option DispatchContext} {c : CommandCandidate}
    {op : (withStore kernelInterface).Op} {r : (withStore kernelInterface).Reply op} {w w' : StoreWorld}
    (hop : (submit controlKernel dispatch c).CanRequest anyReply op) (hstep : kernelStep w op r w')
    (hnew : AcceptedAt w w') : ∃ es, Accepted c w.db es w'.db := by
  have hcall : KernelCall anyReply controlKernel c op :=
    (calls_submit anyReply controlKernel dispatch c).canRequest hop
  cases hcall.effect hstep with
  | accepted es haccepted _ => exact ⟨es, haccepted.accepted⟩
  | noted es hwrote hnotes =>
      obtain ⟨e, he, hnot, htype⟩ := hnew
      rw [hwrote.rows] at he
      cases List.mem_append.mp he with
      | inl hold => exact absurd hold hnot
      | inr hes =>
          have hnote := (hnotes e hes).2.2
          rw [htype] at hnote
          exact absurd hnote (by decide)

/-- **The provenance of results**: whenever a result is accepted in a run with a contract, whatever is
in the store, it is sound exactly if it names the tools that its assignment requires plainly. -/
theorem result_provenance_iff {dispatch : Option DispatchContext} {c : CommandCandidate}
    {op : (withStore kernelInterface).Op} {r : (withStore kernelInterface).Reply op} {w w' : StoreWorld}
    {k : TeamContract} (hop : (submit controlKernel dispatch c).CanRequest anyReply op)
    (hstep : kernelStep w op r w') (hnew : AcceptedAt w w')
    (hkind : c.kind ∈ [CommandKind.evidence, .artifact, .review])
    (hcontract : w.db.ContractIs c.runId (some k)) :
    ResultSound w.db c ↔ NamesToolsPlainly w.db c := by
  obtain ⟨es, haccepted⟩ := accepted_of_acceptedAt hop hstep hnew
  obtain ⟨clock, hvalid⟩ := haccepted.valid
  obtain ⟨team, hpasses⟩ := validateCandidate_passes hvalid
  obtain rfl : team = some k := hpasses.contract.unique hcontract
  have hchecks := hpasses.kind
  rw [validateKind_result hkind] at hchecks
  obtain ⟨⟨a, ha, -⟩, hteam⟩ := validateResult_passes hchecks (.inl rfl)
  have hresult := hteam rfl
  rw [ha] at hresult
  exact validateTeamResult_sound ha hresult

/-! ### A tool that has failed -/

/-- The contract of the assignment: it asks for the use of one tool. -/
def searchedBuild : AssignmentContract where
  goal := "build"
  exitCriteria := ["built"]
  outputSchema := []
  evidenceRequirements := ["repo.search"]
  version_pos := defaultVersion_pos

/-- A contract of one stage with it. -/
def searchedTeam : TeamContract where
  contractId := "demo"
  stages := [{ stageId := "build", resultKind := "artifact", goal := "build", exitCriteria := ["built"],
               completionEventType := some "artifact.recorded", assignmentContract := some searchedBuild,
               stageId_ne := build_ne, resultKind_ne := artifact_ne, goal_ne := build_ne }]
  contractId_ne := demo_ne
  version_pos := defaultVersion_pos
  parallel_bounds := defaultParallel_bounds
  attempts_bounds := defaultAttempts_bounds
  lease_bounds := defaultLease_bounds

/-- A run with the contract, and a builder. -/
def searchedRun : StoreWorld where
  db := runAll Database.appended .initial
    [setupEvent "a" "run-a" "run.created" [("team_contract", .dict [("contract_id", .str "demo"),
        ("stages", .list [.dict [("stage_id", .str "build"), ("result_kind", .str "artifact"),
          ("goal", .str "build"), ("exit_criteria", .list [.str "built"]),
          ("completion_event_type", .str "artifact.recorded"),
          ("assignment_contract", searchedBuild.dump)]])])],
      setupEvent "builder" "run-a" "agent.registered" [("agent_id", .str "builder")]]
  drawn := 0

/-- The patch that gives the stage to the builder. -/
def searchedPatch : CommandCandidate where
  candidateId := "patch"
  idempotencyKey := "patch"
  runId := "run-a"
  taskId := "task"
  actorId := "coordinator"
  kind := .planPatch
  payload := [("revision", .int 1), ("contract_id", .str "demo"), ("contract_version", .int 1),
    ("reason", .str "start"),
    ("stages", .list [.dict [("stage_id", .str "build"), ("state", .str "active"),
      ("agent_id", .str "builder")]]),
    ("assignments", .list [.dict [("assignment_id", .str "build-1"), ("stage_id", .str "build"),
      ("attempt", .int 1), ("agent_id", .str "builder"), ("goal", .str "build"),
      ("exit_criteria", .list [.str "built"]), ("result_kind", .str "artifact"),
      ("lease_seconds", .int 30), ("contract", searchedBuild.dump)]])]
  idempotencyKey_ne := patch_ne
  runId_ne := runA_ne
  taskId_ne := task_ne
  actorId_ne := coordinator_ne

/-- An event of the child agent run of the builder. -/
def childEvent (id cause type : String) (payload : Dict) : Event :=
  { setupEvent id "run-a" type payload with
    taskId := "child", source := "builder", causationId := some cause }

/-- The log of the child run: the tool is used, with the given outcome, and then the work submitted. -/
def childLog (toolId status : String) : List Event :=
  let operation : Dict := [("operation_id", .str "op"), ("turn_id", .str "one")]
  let call : Dict := operation ++ [("tool_name", .str "repo.search")]
  let artifact : Json := .dict [("title", .str "build"), ("summary", .str "done")]
  [{ childEvent "seed" (kernelId "patch" "assignment-build-1-created") "agent.run.created"
       [("agent_run_kind", .str "assignment"), ("agent_id", .str "builder"),
        ("root_task_id", .str "task"), ("assignment_id", .str "build-1"),
        ("contract", searchedBuild.dump)] with source := "runtime.team" },
    childEvent "ask-1" "seed" "model.requested" [("turn_id", .str "one")],
    childEvent "answer-1" "ask-1" "model.completed" [("turn_id", .str "one")],
    childEvent "command-1" "answer-1" "agent.command.validated" [("turn_id", .str "one"),
      ("command", .dict [("type", .str "call_tool"), ("tool_name", .str "repo.search")])],
    childEvent "started" "command-1" "operation.started" call,
    childEvent "requested" "started" "tool.requested" call,
    childEvent toolId "requested" "tool.completed" (operation ++
      [("result", .dict [("name", .str "repo.search"), ("status", .str status)])]),
    childEvent "settled" toolId "operation.completed"
      (operation ++ [("result_event_id", .str toolId)]),
    childEvent "ask-2" "settled" "model.requested" [("turn_id", .str "two")],
    childEvent "answer-2" "ask-2" "model.completed" [("turn_id", .str "two")],
    childEvent "command-2" "answer-2" "agent.command.validated" [("turn_id", .str "two"),
      ("command", .dict [("type", .str "submit_output"), ("artifact", artifact)])],
    childEvent "gate" "command-2" "completion.gate.passed" [("turn_id", .str "two")],
    childEvent "submitted" "command-2" "agent.submitted" [("turn_id", .str "two"),
      ("artifact", artifact)]]

/-- The store after the patch and some events of the child run. -/
def searchedAfter (events : List Event) : StoreWorld where
  db := runAll Database.appended (submitAlone searchedPatch 40 searchedRun).2.db events
  drawn := 0

/-- The artifact of the builder, with a reference to the result of the tool. -/
def searchedArtifact (ref : String) : CommandCandidate where
  candidateId := "artifact"
  idempotencyKey := "artifact"
  runId := "run-a"
  taskId := "task"
  actorId := "builder"
  kind := .artifact
  payload := [("assignment_id", .str "build-1"), ("title", .str "build"), ("summary", .str "done"),
    ("evidence_refs", .list [.str ref]), ("agent_run_id", .str "child"),
    ("submission_event_id", .str "submitted")]
  idempotencyKey_ne := artifact_ne
  runId_ne := runA_ne
  taskId_ne := task_ne
  actorId_ne := builder_ne

/-- The tool has succeeded. -/
def foundRun : StoreWorld := searchedAfter (childLog "found" "ok")

/-- The tool has failed, under an identifier that begins with a blank; the one without the blank is of
another tool, which has succeeded. -/
def blankRun : StoreWorld := searchedAfter (childLog " found" "error" ++
  [childEvent "found" "seed" "tool.completed" [("result", .dict [("name", .str "other"),
    ("status", .str "ok")])]])

/-- The store when the artifact is committed, and afterwards. -/
def commitsAt (ref : String) (w : StoreWorld) : StoreWorld :=
  (submitAlone (searchedArtifact ref) 37 w).2

def committedAt (ref : String) (w : StoreWorld) : StoreWorld :=
  (submitAlone (searchedArtifact ref) 38 w).2

theorem acceptedAt_of_id {w w' : StoreWorld} {i : String}
    (hin : ∃ e ∈ w'.db.events.rows, e.id = i ∧ e.type = "candidate.accepted")
    (hnot : ∀ e ∈ w.db.events.rows, e.id ≠ i) : AcceptedAt w w' := by
  obtain ⟨e, he, hid, htype⟩ := hin
  exact ⟨e, he, fun hold => hnot e hold hid, htype⟩

theorem commitsAt_step {ref : String} {w : StoreWorld}
    (h : AcceptedAt (commitsAt ref w) (committedAt ref w)) :
    ∃ op r, (submit controlKernel none (searchedArtifact ref)).CanRequest anyReply op ∧
      kernelStep (commitsAt ref w) op r (committedAt ref w) := by
  refine submitAlone_next (c := searchedArtifact ref) (n := 37) (w := w) ?_
  intro heq
  obtain ⟨e, he, hnot, -⟩ := h
  refine hnot ?_
  rw [committedAt, heq] at he
  exact he

theorem accepted_blank : AcceptedAt (commitsAt " found" blankRun) (committedAt " found" blankRun) :=
  acceptedAt_of_id (i := kernelId "artifact" "accepted") (by decide +kernel) (by decide +kernel)

theorem accepted_found : AcceptedAt (commitsAt "found" foundRun) (committedAt "found" foundRun) :=
  acceptedAt_of_id (i := kernelId "artifact" "accepted") (by decide +kernel) (by decide +kernel)

/-- The artifact is accepted although the tool it needs has failed. -/
theorem failed_tool_accepted :
    (∃ op r, (submit controlKernel none (searchedArtifact " found")).CanRequest anyReply op ∧
      kernelStep (commitsAt " found" blankRun) op r (committedAt " found" blankRun)) ∧
    AcceptedAt (commitsAt " found" blankRun) (committedAt " found" blankRun) ∧
    (commitsAt " found" blankRun).db.ContractIs "run-a" (some searchedTeam) ∧
    ¬ ResultSound (commitsAt " found" blankRun).db (searchedArtifact " found") := by
  refine ⟨commitsAt_step accepted_blank, accepted_blank, by decide +kernel, ?_⟩
  rintro ⟨contract, agentRunId, seed, submission, hcontract, -, -, htools⟩
  have hbuild : (commitsAt " found" blankRun).db.assignmentContractOf (searchedArtifact " found") =
      some searchedBuild := by
    decide +kernel
  rw [hbuild] at hcontract
  obtain rfl := Option.some.inj hcontract
  obtain ⟨tool, hused, hsucceeded⟩ := htools "repo.search" (by decide)
  obtain ⟨refs, hrefs, ref, href, hid⟩ := hused.referenced
  obtain rfl : refs = [.str " found"] := (Json.list.inj hrefs).symm
  obtain rfl := List.mem_singleton.mp href
  obtain ⟨request, response, command, operation, requested, settled, -, -, -, horder, -⟩ := hused.chain
  have hmem : tool ∈ (commitsAt " found" blankRun).db.readTask agentRunId :=
    horder.subset (by simp)
  have hfound : (commitsAt " found" blankRun).db.getEvent tool.id = some tool :=
    Table.lookup_of_mem (List.mem_filter.mp hmem).1
  rw [← hid] at hfound
  have hfailed : ∀ e ∈ (commitsAt " found" blankRun).db.getEvent " found", ¬ ToolSucceeded e := by
    decide +kernel
  exact hfailed tool (Option.mem_def.mpr hfound) hsucceeded

/-- The artifact of a tool that has succeeded is sound. -/
theorem searched_artifact_sound :
    ResultSound (commitsAt "found" foundRun).db (searchedArtifact "found") := by
  obtain ⟨op, r, hop, hstep⟩ := commitsAt_step accepted_found
  refine (result_provenance_iff (k := searchedTeam) hop hstep accepted_found (by decide)
    (by decide +kernel)).mpr ?_
  have hbuild : (commitsAt "found" foundRun).db.assignmentContractOf (searchedArtifact "found") =
      some searchedBuild := by
    decide +kernel
  have hfound : ∃ tool ∈ (commitsAt "found" foundRun).db.getEvent "found",
      tool.type = "tool.completed" ∧ toolNameOf tool = some "repo.search" := by
    decide +kernel
  intro contract hcontract name hname
  rw [hbuild] at hcontract
  obtain rfl := Option.some.inj hcontract
  obtain rfl := List.mem_singleton.mp hname
  obtain ⟨tool, htool, htype, hnamed⟩ := hfound
  exact ⟨[.str "found"], rfl, .str "found", List.mem_singleton_self _, tool, htool, htype, hnamed,
    .inl (by decide)⟩

end CrazyHarness
