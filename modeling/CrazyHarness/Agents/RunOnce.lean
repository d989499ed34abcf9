import CrazyHarness.Agents.ToolPhase

/-! # One run of a turn

The parts of `run_once` from the gate to the model call, each proved to keep the invariant of the
loop from the rules of its steps, and `run_once` itself.

* `keeps_runOnce`: whatever others write and wherever the process dies, the invariant holds; and
  when the turn it finds is not blocked, `run_once` ends without an illegal transition.
* `Survives.loopOk`: the invariant holds of every state that runs of the loop leave behind. -/

namespace CrazyHarness

open Lib Program OperationLedger LoopM

section parts

variable {cfg : AgentConfig} {w : LoopWorld} {t : String} {v : View} {action : AgentAction}
  {command : Event} {B C : Prop}

/-! ### Completion -/

/-- The turn records the result of its command, which calls no tool. -/
structure View.Recording (v : View) (c : Event) : Prop where
  phase : v.phase = some (some .resultRecording)
  pending : v.pending = none
  commanded : v.command = some c

/-- A marker of the gate. -/
theorem keeps_gate (hv : v.Recording command) (h : At cfg w t v) {type : String} {payload : Dict}
    {cause : Option String} (hturn : payload.get? "turn_id" = some (.str t))
    (htype : type ∈ ["completion.gate.passed", "completion.gate.failed"]) {E} :
    Keeps cfg E (fun _ w' => At cfg w' t v) (append type payload cause) w := by
  have hblocked : v.Blocked ↔ v.closed = false := by
    rw [h.blocked_of_command hv.pending (by simp [hv.commanded])]
    simp [View.CanEnter, hv.phase, transitionAllowed, LoopPhase.allowedTransitions]
  refine (keeps_note h hturn ?_ ?_).weaken (fun _ _ hq => hq.1)
  · simp only [List.mem_cons, List.not_mem_nil, or_false] at htype
    rcases htype with rfl | rfl <;> simp [noteTypes]
  · intro _
    rw [hblocked]
    simp only [htype, and_true]

/-- What follows a failed gate ends the turn. -/
theorem keeps_nudgeOrStop (hv : v.Recording command) (h : At cfg w t v) (es : List Event)
    (findings : List CompletionFinding) :
    Keeps cfg (Fails B C) (fun _ w' => AllRecorded w') (nudgeOrStop cfg es t command findings) w := by
  have hrecord : ∀ {type : String} (payload : Dict), type ∈ outcomeTypes →
      Keeps cfg (Fails B C) (fun _ w' => AllRecorded w') (recordAction type t command payload) w := by
    intro type payload htype
    refine (keeps_recordAction h hv.pending htype command payload).weaken ?_
    intro _ w' hat
    exact hat.allRecorded (unsettled_of_none hv.pending)
  unfold nudgeOrStop
  cases findings with
  | nil => exact h.keeps_throw (unsettled_of_none hv.pending) (by simp)
  | cons first rest =>
      dsimp only
      split
      · exact hrecord _ (by simp [outcomeTypes])
      · exact hrecord _ (by simp [outcomeTypes])

/-- The gate lets the command pass, or the turn has ended. -/
theorem keeps_completionAllows (hv : v.Recording command) (h : At cfg w t v) :
    Keeps cfg (Fails B C) (fun allowed w' => if allowed then At cfg w' t v else AllRecorded w')
      (completionAllows cfg action t command) w := by
  unfold completionAllows
  split
  · refine keeps_bind (keeps_events h) ?_
    rintro es w₁ ⟨-, hat₁, _⟩
    refine keeps_bind (keeps_calling (.evaluateGate _ _ _) id (fun _ _ _ h => h) hat₁
      (unsettled_of_none hv.pending)) ?_
    rintro result w₂ ⟨hat₂, _⟩
    refine keeps_bind (keeps_gate hv hat₂ (by simp) ?_) ?_
    · split <;> simp
    · intro _ w₃ hat₃
      split
      · exact keeps_pure hat₃
      · refine keeps_bind (keeps_nudgeOrStop hv hat₃ es result.findings) ?_
        intro _ w₄ hrecorded
        exact keeps_pure hrecorded
  · exact keeps_pure h

/-! ### Results -/

/-- A result is recorded in a phase of its own. -/
theorem keeps_concluded (hv : v.Recording command) (h : At cfg w t v) {p : LoopPhase}
    (hp : p = .waiting ∨ p = .submitted) {type : String} (htype : type ∈ outcomeTypes)
    (payload : Dict) :
    Keeps cfg (Fails B C) (fun _ w' => AllRecorded w')
      (do
        phase p t
        recordAction type t command payload) w := by
  have hcan : v.CanEnter p := by
    intro q hq
    rw [hv.phase] at hq
    obtain rfl := Option.some.inj (Option.some.inj hq)
    rcases hp with rfl | rfl <;> decide
  refine keeps_bind (keeps_phase h p (fun _ => hcan) (absurd hcan) ?_ ?_ ?_) ?_
  · intro _ _
    rcases hp with rfl | rfl <;> simp [laterPhases]
  · rw [hv.pending]
    simp
  · intro _
    have hback : ¬ transitionAllowed p .actionAuthorizing := by
      rcases hp with rfl | rfl <;> decide
    rw [h.blocked_entering hv.pending (by simp [hv.commanded]) hback]
    rcases hp with rfl | rfl <;> simp
  · rintro - w₁ ⟨hat, _⟩
    refine (keeps_recordAction hat hv.pending htype command payload).weaken ?_
    intro _ w' hat'
    exact hat'.allRecorded (unsettled_of_none hv.pending)

theorem View.Recording.done (hv : v.Recording command) : v.done.Recording command :=
  ⟨hv.phase, hv.pending, hv.commanded⟩

/-- The `send_message` branch, after the handler. -/
theorem keeps_recordMessage (hv : v.Recording command) (h : At cfg w t v) (outcome : HandlerOutcome) :
    Keeps cfg (Fails B C) (fun _ w' => AllRecorded w') (recordMessage cfg action t command outcome)
      w := by
  cases outcome with
  | denied reason =>
      refine (keeps_recordAction h hv.pending (by simp [outcomeTypes]) command _).weaken ?_
      intro _ w' hat
      exact hat.allRecorded (unsettled_of_none hv.pending)
  | raised message => exact h.keeps_throw (unsettled_of_none hv.pending) (by simp)
  | sent receipt =>
      refine keeps_bind (keeps_recordAction h hv.pending (by simp [outcomeTypes]) command _) ?_
      intro _ w₁ hat₁
      split
      · exact keeps_concluded hv.done hat₁ (.inl rfl) (by simp [outcomeTypes]) _
      · exact keeps_pure (hat₁.allRecorded (unsettled_of_none hv.pending))

/-- The result of a command that calls no tool. -/
theorem keeps_recordResult (hv : v.Recording command) (h : At cfg w t v) :
    Keeps cfg (Fails B C) (fun _ w' => AllRecorded w') (recordResult cfg action t command) w := by
  have hrecord : ∀ {w' : LoopWorld} {type : String} (payload : Dict), At cfg w' t v →
      type ∈ outcomeTypes →
      Keeps cfg (Fails B C) (fun _ w' => AllRecorded w') (recordAction type t command payload) w' := by
    intro w' type payload hat htype
    refine (keeps_recordAction hat hv.pending htype command payload).weaken ?_
    intro _ w' hat
    exact hat.allRecorded (unsettled_of_none hv.pending)
  unfold recordResult
  cases action.type with
  | stop => exact hrecord _ h (by simp [outcomeTypes])
  | reportBlocked => exact hrecord _ h (by simp [outcomeTypes])
  | submitOutput => exact keeps_concluded hv h (.inr rfl) (by simp [outcomeTypes]) _
  | waitForEvent => exact keeps_concluded hv h (.inl rfl) (by simp [outcomeTypes]) _
  | requestHuman => exact keeps_concluded hv h (.inl rfl) (by simp [outcomeTypes]) _
  | emitArtifact =>
      refine keeps_bind (keeps_calling (.writeArtifact _ _) id (fun _ _ _ h => h) h
        (unsettled_of_none hv.pending)) ?_
      rintro ref w₁ ⟨hat₁, _⟩
      exact hrecord _ hat₁ (by simp [outcomeTypes])
  | sendMessage =>
      dsimp only
      split
      · refine keeps_external (fun _ _ _ h => h) h ?_
        intro outcome w₁ hat₁ _
        exact keeps_recordMessage hv hat₁ outcome
      · exact keeps_recordMessage hv h _
  | «continue» => exact hrecord _ h (by simp [outcomeTypes])
  | callTool => exact keeps_pure (h.allRecorded (unsettled_of_none hv.pending))

/-- `_execute` of an authorised command. -/
theorem keeps_executeAction (hv : v.Authorized command) (h : At cfg w t v)
    (hbudget : action.type = .callTool → v.WithinBudget cfg) :
    Keeps cfg (Fails B C) (fun _ w' => AllRecorded w') (executeAction cfg action t command) w := by
  unfold executeAction
  split
  next htool =>
    split
    next hpiped => exact keeps_executeViaPipeline hpiped hv (hbudget htool) h
    next hdirect => exact keeps_executeDirectly (by simpa using hdirect) hv (hbudget htool) h
  next =>
    have hcan : v.CanEnter .resultRecording := by
      intro q hq
      rw [hv.phase] at hq
      obtain rfl := Option.some.inj (Option.some.inj hq)
      decide
    refine keeps_bind (keeps_phase h .resultRecording (fun _ => hcan) (absurd hcan) (by simp [laterPhases])
      (by simp) ?_) ?_
    · intro _
      rw [h.blocked_entering hv.pending (by simp [hv.commanded]) (by decide)]
      simp
    · rintro - w₁ ⟨hat₁, _⟩
      have hv₁ : (v.entering .resultRecording).Recording command := ⟨rfl, hv.pending, hv.commanded⟩
      have hallows : Keeps cfg (Fails B C)
          (fun allowed w' => if allowed then At cfg w' t (v.entering .resultRecording) else AllRecorded w')
          (if action.type = .stop ∨ action.type = .submitOutput then
            completionAllows cfg action t command
          else pure true) w₁ := by
        split
        · exact keeps_completionAllows hv₁ hat₁
        · exact keeps_pure hat₁
      refine keeps_bind hallows ?_
      intro allowed w₂ hq
      cases allowed with
      | true => exact keeps_recordResult hv₁ hq
      | false => exact keeps_pure hq

/-! ### Authorisation -/

/-- A turn that may still decide has not entered its tool phase. -/
theorem At.not_executed (h : At cfg w t v) {p : LoopPhase}
    (hp : p = .decisionValidating ∨ p = .actionAuthorizing) (hcan : v.CanEnter p) :
    v.executed = false := by
  by_contra hex
  obtain ⟨q, hq, hphase⟩ := h.current.late (by simpa using hex)
  simp only [latePhases, laterPhases, List.mem_cons, List.not_mem_nil, or_false] at hq
  have hforbidden : ∀ q' ∈ [LoopPhase.actionExecuting, .resultRecording, .waiting, .submitted, .failed],
      ¬ transitionAllowed q' p := by
    rcases hp with rfl | rfl <;> decide
  rcases hq with rfl | rfl | rfl | rfl | rfl
  all_goals exact hforbidden _ (by simp) (hcan _ hphase)

theorem keeps_disclosedNames (h : At cfg w t v) (hpending : v.pending = none)
    (capability : Option Event) :
    Keeps cfg (Fails B C) (fun _ w' => w' = w) (disclosedNames cfg capability) w := by
  have hu := unsettled_of_none (w := w) hpending
  unfold disclosedNames
  cases capability with
  | none => exact keeps_pure rfl
  | some e =>
      dsimp only
      split
      · exact h.keeps_throw hu (by simp)
      · split
        · exact keeps_pure rfl
        · exact h.keeps_throw hu (by simp)

/-- Authorisation and execution of a validated command. -/
theorem keeps_authorizeAndExecute (h : At cfg w t v) (hpending : v.pending = none)
    (hclosed : v.closed = false) (hcommand : v.command = some command)
    (hfirst : ¬ B → v.CanEnter .actionAuthorizing) {es : List Event} (hused : startCount es = v.starts)
    (capability : Option Event) :
    Keeps cfg (Fails B C) (fun _ w' => AllRecorded w')
      (authorizeAndExecute cfg es t capability action command) w := by
  refine keeps_bind (keeps_phase h .actionAuthorizing hfirst (fun _ _ => unsettled_of_none hpending) ?_ ?_ ?_) ?_
  · intro hcan hex
    rw [h.not_executed (.inr rfl) hcan] at hex
    cases hex
  · rw [hpending]
    simp
  · intro _
    rw [h.blocked_entering hpending (by simp [hcommand]) (by decide)]
    simp
  rintro - w₁ ⟨hat, _, hcan⟩
  have hexecuted := h.not_executed (.inr rfl) hcan
  have hv : (v.entering .actionAuthorizing).Authorized command :=
    ⟨rfl, by simp [View.entering, hexecuted], hpending, hclosed, hcommand⟩
  have hdeny : ∀ {w' : LoopWorld} (payload : Dict), At cfg w' t (v.entering .actionAuthorizing) →
      Keeps cfg (Fails B C) (fun _ w' => AllRecorded w') (denyAction t command payload) w' := by
    intro w' payload hat'
    obtain ⟨r, hr, _⟩ := hat'.response_of_command (by simp [hv.commanded])
    refine keeps_refused hat' ?_ hpending (by simp [hr]) (by simp [outcomeTypes]) payload _
    intro _
    rw [View.entering_canEnter]
    decide
  split
  · exact hdeny _ hat
  · refine keeps_bind (keeps_disclosedNames hat hpending capability) ?_
    rintro names w₂ rfl
    dsimp only
    split
    · exact hdeny _ hat
    · split
      · exact hdeny _ hat
      next hwithin =>
        refine keeps_executeAction hv hat ?_
        intro htool n hn
        rw [hn] at hwithin
        have hlimit : ¬ (n : ℤ) ≤ (startCount es : ℤ) := by
          simpa [htool, startCount] using hwithin
        have hstarts : (v.entering .actionAuthorizing).starts = v.starts := rfl
        omega

/-! ### The decision -/

/-- A response that is no action ends its turn. -/
theorem keeps_rejectResponse (h : At cfg w t v) (hpending : v.pending = none)
    (hresponse : v.response.isSome) (hfirst : ¬ B → v.CanEnter .failed) (response : Event)
    (payload : Dict) :
    Keeps cfg (Fails B C) (fun _ w' => AllRecorded w') (rejectResponse t response payload) w :=
  keeps_refused h hfirst hpending hresponse (by simp [outcomeTypes]) payload _

theorem parseAction_legal {response : Event} {e : LoopError} (h : parseAction cfg response = .error e) :
    e.Legal := by
  unfold parseAction at h
  split at h
  · cases h
    intro p q hcontra
    cases hcontra
  · split at h <;> cases h
  · cases h

/-- A new response is validated and its command goes on. -/
theorem keeps_validateResponse (h : At cfg w t v) (hpending : v.pending = none)
    (hclosed : v.closed = false) (hcommand : v.command = none) {response : Event}
    (hresponse : v.response = some response) (hfinish : incompleteFinish response = false)
    (hfirst : ¬ B → v.CanEnter .decisionValidating) {es : List Event}
    (hused : startCount es = v.starts) (capability : Option Event) :
    Keeps cfg (Fails B C) (fun _ w' => AllRecorded w')
      (validateResponse cfg es t capability response) w := by
  refine keeps_bind (keeps_phase h .decisionValidating hfirst (fun _ _ => unsettled_of_none hpending) ?_ ?_ ?_) ?_
  · intro hcan hex
    rw [h.not_executed (.inl rfl) hcan] at hex
    cases hex
  · rw [hpending]
    simp
  · intro _
    have hself : ¬ transitionAllowed .decisionValidating .decisionValidating := by decide
    simp [View.Blocked, View.entering, hpending, hresponse, hfinish, hcommand, View.CanEnter, hself]
  rintro - w₁ ⟨hat, _, _⟩
  have hu := unsettled_of_none (w := w₁) (v := v.entering .decisionValidating) hpending
  cases hparse : parseAction cfg response with
  | error e => exact keeps_throw ⟨fun _ => parseAction_legal hparse, fun _ => hat.allRecorded hu⟩
  | ok parsed =>
      cases parsed with
      | error message =>
          refine keeps_rejectResponse hat hpending (by simp [View.entering, hresponse]) ?_ response _
          intro _
          rw [View.entering_canEnter]
          decide
      | ok action =>
          refine keeps_bind (keeps_commanded hat hresponse hfinish hcommand hpending rfl action
            (by simp) (by simp [Dict.get?_cons])) ?_
          rintro command w₂ ⟨hat₂, _⟩
          refine keeps_authorizeAndExecute hat₂ hpending hclosed rfl ?_ hused capability
          intro _ q hq
          obtain rfl := Option.some.inj (Option.some.inj hq)
          decide

/-- A marker that a durable step is used again changes nothing. -/
theorem keeps_markReused (h : At cfg w t v) {type : String}
    (htype : type ∈ ["model.response.reused", "agent.command.reused"]) (turnEvents : List Event)
    (reused : Event) (payload : Dict) {E} :
    Keeps cfg E (fun _ w' => At cfg w' t v) (markReused type t turnEvents reused payload) w := by
  unfold markReused
  split
  · refine keeps_bind (keeps_note h (by simp) ?_ (fun hne => absurd htype hne)) ?_
    · simp only [List.mem_cons, List.not_mem_nil, or_false] at htype
      rcases htype with rfl | rfl <;> simp [noteTypes]
    · rintro - w₁ ⟨hat, _⟩
      exact keeps_pure hat
  · exact keeps_pure h

/-- The command of the turn is an event of its log. -/
theorem At.command_mem (h : At cfg w t v) (hcommand : v.command = some command) :
    command ∈ w.log ∧ command.type = "agent.command.validated" := by
  rw [← h.current.view] at hcommand
  obtain ⟨hmem, htype, _⟩ := mem_of_lastOfType hcommand
  exact ⟨hmem, htype⟩

/-- A persisted command is used again. -/
theorem keeps_reuseCommand (h : At cfg w t v) (hpending : v.pending = none)
    (hclosed : v.closed = false) (hcommand : v.command = some command)
    (hfirst : ¬ B → v.CanEnter .actionAuthorizing) {es : List Event} (hused : startCount es = v.starts)
    (turnEvents : List Event) (capability : Option Event) :
    Keeps cfg (Fails B C) (fun _ w' => AllRecorded w')
      (reuseCommand cfg es t turnEvents capability command) w := by
  obtain ⟨hmem, htype⟩ := h.command_mem hcommand
  obtain ⟨action, hdump⟩ := h.current.commands command hmem htype
  refine keeps_bind (keeps_markReused h (by simp) turnEvents command _) ?_
  intro _ w₁ hat
  rw [hdump]
  simp only [AgentAction.validate_dump]
  exact keeps_authorizeAndExecute hat hpending hclosed hcommand hfirst hused capability

/-- `run_once` from the durable response of its turn on. -/
theorem keeps_decideTurn (h : At cfg w t v) (hpending : v.pending = none) (hclosed : v.closed = false)
    {response : Event} (hresponse : v.response = some response) (hfirst : ¬ B → ¬ v.Blocked)
    {es turnEvents : List Event} (hused : startCount es = v.starts)
    (hcommand : lastOfType turnEvents "agent.command.validated" = v.command)
    (capability : Option Event) (recovered : Bool) :
    Keeps cfg (Fails B C) (fun _ w' => AllRecorded w')
      (decideTurn cfg es t turnEvents capability response recovered) w := by
  have hnext : ¬ B → v.CanEnter (if incompleteFinish response then .failed
      else if v.command.isSome then .actionAuthorizing else .decisionValidating) := by
    intro hB
    have := hfirst hB
    simpa [View.Blocked, hpending, hresponse, hclosed] using this
  unfold decideTurn
  cases hfinish : incompleteFinish response with
  | true =>
      rw [hfinish] at hnext
      exact keeps_rejectResponse h hpending (by simp [hresponse]) hnext response _
  | false =>
      rw [hfinish] at hnext
      have hmark : Keeps cfg (Fails B C) (fun _ w' => At cfg w' t v)
          (if recovered then
            markReused "model.response.reused" t turnEvents response
              [("response_event_id", .str response.id),
                ("reason", .str "persisted response precedes the interrupted harness step")]
          else pure ()) w := by
        split
        · exact keeps_markReused h (by simp) turnEvents response _
        · exact keeps_pure h
      refine keeps_bind hmark ?_
      intro _ w₁ hat
      rw [hcommand]
      cases hc : v.command with
      | none =>
          rw [hc] at hnext
          exact keeps_validateResponse hat hpending hclosed hc hresponse hfinish hnext hused capability
      | some command =>
          rw [hc] at hnext
          exact keeps_reuseCommand hat hpending hclosed hc hnext hused turnEvents capability

/-! ### Recovery of an operation -/

/-- The outcome of an operation that is not known to have succeeded. -/
theorem keeps_recordUnknown (h : At cfg w t v) {u : Event} (hpending : v.pending = some u)
    (hphase : v.phase = some (some .resultRecording)) (hu : Unsettled w v) (payload : Dict)
    (cause : Option String) {E} :
    Keeps cfg E (fun _ w' => AllRecorded w')
      (do
        let _ ← append "operation.unknown"
          ([("turn_id", .str t), ("operation_id", u.operation)] ++ payload) cause
        pure ()) w :=
  keeps_recordEnded h (.inr rfl) hpending hphase hu cause (by simp) (by simp [Dict.get?_cons])

/-- The result phase of an operation that has not ended. -/
theorem keeps_recoverPhase (h : At cfg w t v) {u : Event} (hpending : v.pending = some u)
    (hfirst : ¬ B → ¬ v.Blocked) (hdone : v.Blocked → ¬ C → Unsettled w v) :
    Keeps cfg (Fails B C) (fun _ w' => At cfg w' t (v.entering .resultRecording) ∧ w'.pipe = w.pipe ∧
      v.results = []) (phase .resultRecording t) w := by
  obtain ⟨_, _, _, hstage⟩ := h.current.pending u hpending
  have hself : ¬ transitionAllowed .resultRecording .resultRecording := by decide
  -- a turn that may record its result has none yet
  have hopen : v.CanEnter .resultRecording → v.closed = false ∧ v.results = [] := by
    intro hcan
    rcases hstage with ⟨_, hclosed, hresults⟩ | hphase
    · exact ⟨hclosed, hresults⟩
    · exact absurd (hcan _ hphase) hself
  refine (keeps_phase h .resultRecording ?_ ?_ (by simp [laterPhases]) (by simp) ?_).weaken ?_
  · intro hB
    have := hfirst hB
    rw [View.blocked_of_pending hpending, not_not] at this
    exact this
  · intro hcan
    exact hdone ((View.blocked_of_pending hpending).mpr hcan)
  · intro hcan
    have hrec : (v.entering .resultRecording).pending = some u := hpending
    rw [View.blocked_of_pending hrec, View.entering_canEnter]
    simp [hself, (hopen hcan).1]
  · rintro - w' ⟨hat, hpipe, hcan⟩
    exact ⟨hat, hpipe, (hopen hcan).2⟩

/-- Recovery of an operation that has started and not ended. -/
theorem keeps_recoverOperation (h : At cfg w t v) {u : Event} (hpending : v.pending = some u)
    (hfirst : ¬ B → ¬ v.Blocked) (hdone : v.Blocked → ¬ C → Unsettled w v) :
    Keeps cfg (Fails B C) (fun _ w' => AllRecorded w') (recoverOperation cfg u) w := by
  obtain ⟨hturn, ⟨id, hop⟩, _, _⟩ := h.current.pending u hpending
  have hid : u.operation.pyStr = id := by
    rw [hop]
    rfl
  -- an operation of which the ledger knows nothing
  have hunknown : ∀ w', At cfg w' t v → w'.pipe = w.pipe →
      w'.pipe.ledger.records.lookup id = none →
        Keeps cfg (Fails B C) (fun _ w' => AllRecorded w') (recordUnknown u u.turn) w' := by
    intro w' hat hsame hlook
    have hdone' : v.Blocked → ¬ C → Unsettled w' v := by
      unfold Unsettled
      rw [hsame]
      exact hdone
    rw [hturn]
    refine keeps_bind (keeps_recoverPhase hat hpending hfirst hdone') ?_
    rintro - w₁ ⟨hat₁, hpipe, _⟩
    refine keeps_recordUnknown hat₁ hpending rfl ?_ _ _
    intro p id' r hp hpid hlook'
    have hp : v.pending = some p := hp
    rw [hpending] at hp
    obtain rfl := Option.some.inj hp
    rw [hop] at hpid
    obtain rfl := Json.str.inj hpid
    rw [hpipe, hlook] at hlook'
    cases hlook'
  unfold recoverOperation
  rw [hid]
  dsimp only
  split
  next =>
    refine keeps_step ?_
    rintro log r w' hgrow ⟨pipe, ⟨hget, rfl⟩, rfl⟩
    have hat := h.foreignGrowth hgrow
    refine ⟨⟨t, v, hat⟩, ?_⟩
    cases r with
    | error e =>
        refine hunknown _ hat rfl ?_
        cases hlook : w.pipe.ledger.records.lookup id with
        | none => rfl
        | some record =>
            rw [show w.pipe.ledger.get id = .ok record from get_ok_iff.mpr hlook] at hget
            cases hget
    | ok record =>
        have hlook := get_ok_iff.mp hget.symm
        dsimp only
        rw [hturn]
        refine keeps_bind (keeps_recoverPhase hat hpending hfirst hdone) ?_
        rintro - w₁ ⟨hat₁, hpipe, hresults⟩
        have hunsettled : record.state ≠ .succeeded →
            Unsettled w₁ (v.entering .resultRecording) := by
          intro hstate p id' r hp hpid hlook'
          have hp : v.pending = some p := hp
          rw [hpending] at hp
          obtain rfl := Option.some.inj hp
          rw [hop] at hpid
          obtain rfl := Json.str.inj hpid
          rw [hpipe] at hlook'
          rw [show w.pipe.ledger.records.lookup id = some record from hlook] at hlook'
          obtain rfl := Option.some.inj hlook'
          exact hstate
        rw [← hop]
        cases hstate : record.state with
        | succeeded =>
            obtain ⟨hresult, _⟩ := h.recorded.started id record hlook hstate
            obtain ⟨result, hresult⟩ := Option.isSome_iff_exists.mp hresult
            simp only [hresult]
            rw [hop]
            exact keeps_recordCompleted hat₁ hpending rfl hresults hop _ _
        | failed =>
            exact keeps_recordEnded hat₁ (.inl rfl) hpending rfl (hunsettled (by simp [hstate])) _
              (by simp) (by simp [Dict.get?_cons])
        | _ =>
            exact keeps_recordEnded hat₁ (.inr rfl) hpending rfl (hunsettled (by simp [hstate])) _
              (by simp) (by simp [Dict.get?_cons])
  next hdirect => exact hunknown w h rfl (h.recorded.piped (by simpa using hdirect) id)

/-! ### The model call -/

/-- Unless the agent has failed the run is not at rest. -/
def Awake (log : List Event) : Prop := (∀ a ∈ log, a.type ≠ "agent.failed") → ¬ AtRest log

theorem ForeignGrowth.mem {log log' : List Event} (h : ForeignGrowth log log') {a : Event}
    (ha : a ∈ log) : a ∈ log' := by
  induction h with
  | refl => exact ha
  | step _ _ ih => exact List.mem_append_left _ ih

theorem Awake.foreignGrowth {log log' : List Event} (h : Awake log) (hgrow : ForeignGrowth log log') :
    Awake log' := by
  intro hfailed
  exact not_atRest_foreignGrowth (h (fun a ha => hfailed a (hgrow.mem ha))) hgrow hfailed

/-- What a new turn asks of the one before. -/
structure Begins (w : LoopWorld) (t' : String) (v : View) : Prop where
  later : NoLater w.log t'
  named : ∃ n, t' = turnId n
  pending : v.pending = none
  done : v.response.isSome → v.closed = true
  awake : Awake w.log

theorem Begins.reads {w w' : LoopWorld} {t' : String} (h : Begins w t' v) (hr : w.Reads w') :
    Begins w' t' v :=
  { h with later := h.later.foreignGrowth hr.1, awake := h.awake.foreignGrowth hr.1 }

/-- The first phase of a new turn. -/
theorem keeps_beginTurn (h : At cfg w t v) {t' : String} (hb : Begins w t' v) {E} :
    Keeps cfg E (fun _ w' => At cfg w' t' (.fresh v.starts)) (phase .contextBuilding t') w := by
  refine keeps_bind (keeps_events h) ?_
  rintro es w₁ ⟨rfl, hat₁, hreads₁⟩
  have hb₁ := hb.reads hreads₁
  have hnone : lastPhaseEvent w₁.log t' = none := by
    unfold lastPhaseEvent
    rw [List.find?_eq_none]
    intro a ha hphase
    simp only [decide_eq_true_eq] at hphase
    exact hb₁.later.turn_ne (List.mem_reverse.mp ha) (by simp [hphase.1, loopTypes]) hphase.2
  rw [hnone]
  refine keeps_bind (keeps_pure (Q := fun _ w' => w' = w₁) rfl) ?_
  rintro - w₂ rfl
  have happend : Keeps cfg E (fun _ w' => At cfg w' t' (.fresh v.starts))
      (append "loop.phase.changed"
        [("turn_id", .str t'), ("phase", .str LoopPhase.contextBuilding.value)] none) w₂ := by
    refine keeps_step ?_
    rintro log r w' hgrow ⟨now, hact⟩
    have hat := hat₁.foreignGrowth hgrow
    have hb₂ : Begins { w₂ with log := log } t' v := hb₁.reads ⟨hgrow, rfl⟩
    obtain ⟨identity, hlast⟩ := Option.ne_none_iff_exists'.mp
      (mt List.getLast?_eq_none_iff.mp hat.current.nonempty)
    simp only [LoopWorld.appended] at hact hlast
    rw [hlast] at hact
    obtain ⟨rfl, rfl⟩ := Prod.mk.inj hact
    have hnew := hat.newTurn rfl hb₂.later hb₂.named hb₂.pending hb₂.done hb₂.awake
      (e := LoopWorld.newEvent { w₂ with log := log } cfg identity "loop.phase.changed"
        [("turn_id", .str t'), ("phase", .str LoopPhase.contextBuilding.value)] none now) rfl rfl (by
          simp [Event.phase, LoopWorld.newEvent, Dict.getD, Dict.get?_cons])
    exact ⟨⟨t', _, hnew⟩, keeps_pure hnew⟩
  refine keeps_bind happend ?_
  intro _ w₃ hat₃
  exact keeps_pure hat₃

/-- A turn that calls the model: nothing is decided yet. -/
structure View.Asking (v : View) (p : LoopPhase) : Prop where
  phase : v.phase = some (some p)
  response : v.response = none
  command : v.command = none
  closed : v.closed = false
  executed : v.executed = false
  pending : v.pending = none

theorem View.Asking.not_blocked {p : LoopPhase} (hv : v.Asking p) : ¬ v.Blocked := by
  simp [View.Blocked, hv.pending, hv.response]

theorem keeps_askingNote {p : LoopPhase} (hv : v.Asking p) (h : At cfg w t v) {type : String}
    (htype : type ∈ ["capability.manifest.compiled", "context.manifest.compiled", "model.requested"])
    {payload : Dict} {cause : Option String} (hturn : payload.get? "turn_id" = some (.str t)) {E} :
    Keeps cfg E (fun _ w' => At cfg w' t v) (append type payload cause) w := by
  refine (keeps_note h hturn ?_ ?_).weaken (fun _ _ hq => hq.1)
  · simp only [List.mem_cons, List.not_mem_nil, or_false] at htype
    rcases htype with rfl | rfl | rfl <;> simp [noteTypes]
  · intro _
    rw [iff_false_left hv.not_blocked]
    rintro ⟨_, hgate⟩
    simp only [List.mem_cons, List.not_mem_nil, or_false] at htype hgate
    rcases htype with rfl | rfl | rfl <;> simp at hgate

theorem keeps_compileCapabilities {p : LoopPhase} (hv : v.Asking p) (h : At cfg w t v)
    (trigger : Option String) :
    Keeps cfg (Fails B C) (fun _ w' => At cfg w' t v) (compileCapabilities cfg trigger t) w := by
  unfold compileCapabilities
  split
  · refine keeps_bind (keeps_calling (.compileCapabilities t) id (fun _ _ _ h => h) h
      (unsettled_of_none hv.pending)) ?_
    rintro compiled w₁ ⟨hat₁, _⟩
    refine keeps_bind (keeps_askingNote hv hat₁ (by simp) (by simp)) ?_
    intro e w₂ hat₂
    exact keeps_pure hat₂
  · exact keeps_pure h

theorem keeps_recordContext {p : LoopPhase} (hv : v.Asking p) (h : At cfg w t v)
    (trigger : Option String) (capability : Option Event) (built : BuiltMessages) :
    Keeps cfg (Fails B C) (fun _ w' => At cfg w' t v)
      (recordContext cfg trigger t capability built) w := by
  unfold recordContext
  split
  · refine keeps_bind (keeps_askingNote hv h (by simp) (by simp)) ?_
    intro e w₁ hat₁
    exact keeps_pure hat₁
  · exact keeps_pure h

theorem keeps_recoverRequest (h : At cfg w t v) (hpending : v.pending = none)
    (request : Option Event) :
    Keeps cfg (Fails B C) (fun _ w' => At cfg w' t v ∧ w.Reads w') (recoverRequest cfg request) w := by
  unfold recoverRequest
  split
  · exact keeps_calling (.recoverUnresolved _) id (fun _ _ _ h => h) h (unsettled_of_none hpending)
  · exact keeps_pure ⟨h, .refl _, rfl⟩

theorem keeps_reconcileRequest (h : At cfg w t v) (hpending : v.pending = none)
    (request : Option Event) (completion : Event) :
    Keeps cfg (Fails B C) (fun _ w' => At cfg w' t v) (reconcileRequest cfg request completion) w := by
  unfold reconcileRequest
  split
  · exact (keeps_calling (.reconcile _ _) id (fun _ _ _ h => h) h
      (unsettled_of_none hpending)).weaken (fun _ _ hq => hq.1)
  · exact keeps_pure h

/-- The model call of a new turn ends with its durable response. -/
theorem keeps_callModel (h : At cfg w t v) {t' : String} (hb : Begins w t' v) (es : List Event) :
    Keeps cfg (Fails B C) (fun called w' => ∃ v', At cfg w' t' v' ∧ v'.response = some called.2 ∧
      v'.command = none ∧ v'.closed = false ∧ v'.pending = none ∧ v'.starts = v.starts ∧ ¬ v'.Blocked)
      (callModel cfg es t') w := by
  have hfresh : (View.fresh v.starts).Asking .contextBuilding := ⟨rfl, rfl, rfl, rfl, rfl, rfl⟩
  have hasking : ((View.fresh v.starts).entering .modelCalling).Asking .modelCalling :=
    ⟨rfl, rfl, rfl, rfl, rfl, rfl⟩
  refine keeps_bind (keeps_beginTurn h hb) ?_
  intro _ w₁ hat₁
  refine keeps_bind (keeps_compileCapabilities hfresh hat₁ _) ?_
  intro capability w₂ hat₂
  refine keeps_bind (keeps_calling (.buildMessages capability) id (fun _ _ _ h => h) hat₂
    (unsettled_of_none rfl)) ?_
  rintro built w₃ ⟨hat₃, _⟩
  refine keeps_bind (keeps_recordContext hfresh hat₃ _ capability built) ?_
  intro context w₄ hat₄
  refine keeps_bind (keeps_phase hat₄ .modelCalling ?_ (fun _ _ => unsettled_of_none rfl) ?_
    (by simp [View.fresh]) ?_) ?_
  · intro _ q hq
    obtain rfl := Option.some.inj (Option.some.inj hq)
    decide
  · intro _ hex
    cases hex
  · intro _
    rw [iff_false_left hasking.not_blocked]
    simp
  rintro - w₅ ⟨hat₅, _⟩
  refine keeps_bind (keeps_askingNote hasking hat₅ (by simp) (by simp)) ?_
  intro requested w₆ hat₆
  refine keeps_bind (keeps_calling (.complete requested) id (fun _ _ _ h => h) hat₆
    (unsettled_of_none rfl)) ?_
  rintro response w₇ ⟨hat₇, _⟩
  refine keeps_bind (keeps_responded hat₇ rfl rfl rfl rfl (by simp)) ?_
  rintro completed w₈ ⟨hat₈, _⟩
  refine keeps_bind (keeps_reconcileRequest hat₈ rfl _ completed) ?_
  intro _ w₉ hat₉
  refine keeps_pure ⟨_, hat₉, rfl, rfl, rfl, rfl, rfl, ?_⟩
  have hallowed : ∀ p ∈ [LoopPhase.failed, .decisionValidating], transitionAllowed .modelCalling p := by
    decide
  rintro ⟨_, hblocked⟩
  apply hblocked
  intro q hq
  obtain rfl := Option.some.inj (Option.some.inj hq)
  split
  · exact hallowed _ (by simp)
  · exact hallowed _ (by simp [View.entering, View.fresh])

/-! ### The whole run -/

theorem At.starts_eq (h : At cfg w t v) : startCount w.log = v.starts := by
  rw [← h.current.view]
  rfl

/-- A response found for resumption is that of the current turn, which is open. -/
theorem At.resumed (h : At cfg w t v) {response : Event}
    (hresponse : lastOfType (recoverableTurn w.log).2 "model.completed" = some response) :
    recoverableTurn w.log = (t, turnEvents w.log t) ∧ v.response = some response ∧
      v.closed = false := by
  rcases recoverableTurn_cases w.log with ⟨turn, hrec, heq⟩ | heq
  · rw [heq] at hresponse ⊢
    have hopen : turnClosed w.log turn = false := by
      simp only [recoverable, Bool.and_eq_true, Bool.not_eq_true'] at hrec
      exact hrec.2
    have hturn : turn = t := by
      by_contra hne
      have := h.current.older turn hne (by simp [hresponse])
      rw [hopen] at this
      cases this
    subst hturn
    refine ⟨rfl, ?_, ?_⟩
    · rw [← h.current.view]
      exact hresponse
    · rw [← h.current.view]
      exact hopen
  · rw [heq] at hresponse
    cases hresponse

/-- When no response is found, the current turn has none or is closed. -/
theorem At.not_resumed (h : At cfg w t v)
    (hnone : lastOfType (recoverableTurn w.log).2 "model.completed" = none)
    (hresponse : v.response.isSome) : v.closed = true := by
  by_contra hopen
  rw [Bool.not_eq_true] at hopen
  have hview := h.current.view
  rw [← hview] at hresponse hopen
  obtain ⟨r, hr⟩ := Option.isSome_iff_exists.mp hresponse
  have hr : lastOfType (turnEvents w.log t) "model.completed" = some r := hr
  have hclosed : turnClosed w.log t = false := hopen
  obtain ⟨hmem, htype, hturn⟩ := mem_of_lastOfType hr
  have htid := (h.current.numbered r hmem (by simp [htype, loopTypes])).1
  have hrec : recoverable w.log t = true := by
    simp [recoverable, hr, hclosed]
  have heq : recoverableTurn w.log = (t, turnEvents w.log t) := by
    refine recoverableTurn_eq (mem_turnIds.mpr ⟨r, hmem, htid, hturn⟩) hrec ?_
    intro turn' hrec' hne
    -- another open turn is an older one
    have hevent : ∃ e ∈ w.log, e.type ∈ loopTypes ∧ e.turn = turn' := by
      simp only [recoverable, Bool.and_eq_true, Bool.or_eq_true] at hrec'
      rcases hrec'.1 with hsome | hsome
      · obtain ⟨e, he⟩ := Option.isSome_iff_exists.mp hsome
        obtain ⟨hmem', htype', hturn'⟩ := mem_of_lastOfType he
        exact ⟨e, hmem', by simp [htype', loopTypes], hturn'⟩
      · obtain ⟨e, he⟩ := Option.isSome_iff_exists.mp hsome
        obtain ⟨hmem', htype', hturn'⟩ := mem_of_lastOfType he
        exact ⟨e, hmem', by simp [htype', loopTypes], hturn'⟩
    obtain ⟨e, hmem', htype', rfl⟩ := hevent
    exact (h.current.numbered e hmem' htype').2.resolve_left hne
  rw [heq, hr] at hnone
  cases hnone

/-- Without a response to resume no command is found either. -/
theorem At.no_command (h : At cfg w t v)
    (hnone : lastOfType (recoverableTurn w.log).2 "model.completed" = none) :
    lastOfType (recoverableTurn w.log).2 "agent.command.validated" = none := by
  rcases recoverableTurn_cases w.log with ⟨turn, _, heq⟩ | heq
  · rw [heq] at hnone ⊢
    by_contra hcommand
    obtain ⟨r, hr, _⟩ := h.current.commanded turn (Option.isSome_iff_ne_none.mpr hcommand)
    rw [hr] at hnone
    cases hnone
  · rw [heq]
    rfl

/-- `run_once` when nothing is unresolved. -/
theorem keeps_advanceTurn (h : At cfg w t v) (hpending : v.pending = none) (hawake : Awake w.log)
    (hfirst : ¬ B → ¬ v.Blocked) :
    Keeps cfg (Fails B C) (fun _ w' => AllRecorded w') (advanceTurn cfg w.log) w := by
  unfold advanceTurn
  dsimp only
  split
  next response hresponse =>
    obtain ⟨heq, hvresponse, hclosed⟩ := h.resumed hresponse
    refine keeps_bind (keeps_reconcileRequest h hpending _ response) ?_
    intro _ w₁ hat₁
    rw [heq]
    refine keeps_decideTurn hat₁ hpending hclosed hvresponse hfirst h.starts_eq ?_ _ _
    rw [← h.current.view]
    rfl
  next hnone =>
    have hbegins : Begins w (nextTurnId w.log) v :=
      { later := by
          intro e he htype
          exact lt_nextTurnId he (h.current.numbered e he htype).1
        named := ⟨_, rfl⟩
        pending := hpending
        done := h.not_resumed hnone
        awake := hawake }
    refine keeps_bind (keeps_recoverRequest h hpending _) ?_
    rintro - w₁ ⟨hat₁, hreads⟩
    refine keeps_bind (keeps_callModel hat₁ (hbegins.reads hreads) w.log) ?_
    rintro called w₂ ⟨v', hat₂, hresponse, hcommand, hclosed, hpend, hstarts, hblocked⟩
    refine keeps_decideTurn hat₂ hpend hclosed hresponse (fun _ => hblocked) ?_ ?_ _ _
    · rw [hstarts]
      exact h.starts_eq
    · rw [h.no_command hnone, hcommand]

/-- The agent has failed for good. -/
def HasFailed (log : List Event) : Prop := ∃ e ∈ log, e.type = "agent.failed"

/-- **`run_once`** keeps the invariant at each of its steps.  In the end every succeeded operation
is recorded once, unless the agent had failed; and when the turn was not blocked no transition
was illegal. -/
theorem keeps_runOnce (h : At cfg w t v) (hfirst : ¬ B → ¬ v.Blocked)
    (hdone : v.Blocked → ¬ C → Unsettled w v) :
    Keeps cfg (Fails B C) (fun _ w' => HasFailed w'.log ∨ AllRecorded w') (runOnce cfg) w := by
  refine keeps_bind (keeps_events h) ?_
  rintro es w₁ ⟨rfl, hat, hreads⟩
  rw [if_neg hat.current.nonempty]
  split
  next hrest =>
    refine keeps_pure ?_
    by_cases hfailed : HasFailed w₁.log
    · exact .inl hfailed
    · right
      refine hat.allRecorded (unsettled_of_none ?_)
      by_contra hpending
      refine hat.current.awake (.inr (Option.isSome_iff_ne_none.mpr hpending)) ?_ hrest
      intro a ha htype
      exact hfailed ⟨a, ha, htype⟩
  next hawake =>
    have hrecorded : ∀ p : LoopM Unit, Keeps cfg (Fails B C) (fun _ w' => AllRecorded w') p w₁ →
        Keeps cfg (Fails B C) (fun _ w' => HasFailed w'.log ∨ AllRecorded w') p w₁ :=
      fun p hp => hp.weaken (fun _ _ hq => .inr hq)
    rw [hat.current.pending_eq]
    cases hpending : v.pending with
    | some u => exact hrecorded _ (keeps_recoverOperation hat hpending hfirst
        (fun hblocked hC => (hdone hblocked hC).reads hreads))
    | none => exact hrecorded _ (keeps_advanceTurn hat hpending (fun _ => hawake) hfirst)

end parts

/-! ### Reachable states -/

section reachable

variable {cfg : AgentConfig} {log : List Event}

/-- Before the loop has written anything, nothing in the log is its own or ends an operation. -/
theorem ForeignGrowth.seed (h : ForeignGrowth [] log) :
    ∀ e ∈ log, e.type ∉ loopTypes ∧ e.type ∉ operationEnds := by
  induction h with
  | refl => simp
  | @step log' e _ he ih =>
      refine forall_mem_append_singleton ih ⟨he.1, ?_⟩
      intro hend
      obtain ⟨a, ha, _⟩ := List.mem_map.mp (he.ends hend).2
      rw [List.mem_filter, decide_eq_true_eq] at ha
      exact (ih a ha.1).1 (by simp [ha.2, loopTypes, turnCompletedEvents])

theorem not_atRest_seed (h : ∀ e ∈ log, e.type ∉ loopTypes) (hfailed : ∀ e ∈ log, e.type ≠ "agent.failed") :
    ¬ AtRest log := by
  rintro (⟨e, he, htype⟩ | ⟨o, ho, _⟩ | hwait)
  · have hloop := h e he
    simp only [List.mem_cons, List.not_mem_nil, or_false] at htype
    rcases htype with htype | htype | htype
    · exact hloop (by simp [htype, loopTypes, turnCompletedEvents])
    · exact hloop (by simp [htype, loopTypes, turnCompletedEvents])
    · exact hfailed e he htype
  · obtain ⟨e, he, _⟩ := List.mem_map.mp ho
    rw [List.mem_filter, decide_eq_true_eq] at he
    exact h e he.1 (by simp [he.2, loopTypes, turnCompletedEvents])
  · have hnone : lastWait log = none := by
      clear hwait hfailed
      induction log with
      | nil => rfl
      | cons e es ih =>
          rw [lastWait, ih (fun a ha => h a (List.mem_cons_of_mem _ ha))]
          have hne : e.type ≠ "agent.waiting" := by
            intro htype
            exact h e List.mem_cons_self (by simp [htype, loopTypes, turnCompletedEvents])
          simp [hne]
    simp [HasActiveWait, hnone] at hwait

/-- A loop that has not run yet. -/
theorem loopOk_seed (durable : Bool) (hne : log ≠ []) (h : ForeignGrowth [] log) :
    LoopOk cfg { log := log, pipe := { ledger := .empty durable, drawn := 0 } } := by
  have hloop : ∀ e ∈ log, e.type ∉ loopTypes := fun e he => (h.seed e he).1
  have hother : ∀ {type : String}, type ∈ loopTypes → ∀ e ∈ log, e.type ≠ type := by
    rintro type htype e he rfl
    exact hloop e he htype
  have hlater : ∀ t, NoLater log t := fun t e he htype => absurd htype (hloop e he)
  have hcount : ∀ type ∈ loopTypes, ∀ t, turnCount log type t = 0 := by
    intro type htype t
    exact turnCount_eq_zero ((hlater t).lastOfType htype)
  have hunresolved : unresolvedOperation log = none := by
    rw [unresolvedOperation_eq_none_iff]
    rintro u ⟨hu, hstart, _⟩
    exact hother (by simp [loopTypes]) u hu hstart
  have hrecords : ∀ o, completions log o = [] ∧ settlements log o = [] := by
    intro o
    simp only [completions, settlements, List.filter_eq_nil_iff, decide_eq_true_eq]
    exact ⟨fun e he hc => hother (by simp [loopTypes, turnCompletedEvents]) e he hc.1,
      fun e he hc => hother (by simp [loopTypes]) e he hc.1⟩
  have hexecuted : ∀ t, turnExecuted log t = false := by
    intro t
    refine (hlater t).any_eq_false ?_
    intro e he
    simp only [decide_eq_true_eq] at he
    simp [he.1, loopTypes]
  have hview : turnView log (turnId 0) = {} := by
    have hphase : lastPhaseEvent log (turnId 0) = none := by
      rw [lastPhaseEvent, List.find?_eq_none]
      intro e he
      have : e.type ≠ "loop.phase.changed" := hother (by simp [loopTypes]) e (List.mem_reverse.mp he)
      simp [this]
    have hclosed : turnClosed log (turnId 0) = false := by
      refine (hlater _).any_eq_false ?_
      intro e he
      exact List.mem_append_left _ (by simpa using he)
    have hstarts : startCount log = 0 := by
      rw [startCount, List.countP_eq_zero]
      intro e he
      simpa using hother (by simp [loopTypes]) e he
    unfold turnView
    rw [hphase, (hlater _).lastOfType (by simp [loopTypes]), (hlater _).lastOfType (by simp [loopTypes]),
      hclosed, hexecuted, hunresolved, hstarts]
    rfl
  refine ⟨turnId 0, {}, ?_, ?_, ?_, ?_⟩
  · exact
      { nonempty := hne
        named := ⟨0, rfl⟩
        view := hview
        numbered := fun e he htype => absurd htype (hloop e he)
        older := by
          intro t' _ hresponse
          rw [(hlater t').lastOfType (by simp [loopTypes])] at hresponse
          cases hresponse
        commanded := by
          intro t' hcommand
          rw [(hlater t').lastOfType (by simp [loopTypes])] at hcommand
          cases hcommand
        commands := fun e he htype => absurd htype (hother (by simp [loopTypes]) e he)
        unresolved := fun u hu => absurd hu (unresolvedOperation_eq_none_iff.mp hunresolved u)
        pending := fun p hp => by cases hp
        ends := fun e he hend => absurd hend (h.seed e he).2
        awake := fun _ hfailed => not_atRest_seed hloop hfailed
        late := fun hex => by cases hex
        phased := by simp }
  · exact
      { ledger := ledgerOk_empty durable 0
        drawn := fun u hu htype => absurd htype (hother (by simp [loopTypes]) u hu)
        keyed := fun id r hlook => by cases hlook
        started := fun id r hlook => by cases hlook
        recorded := fun id r hlook => by cases hlook
        unstarted := fun o _ => hrecords o
        unsettled := fun p hp => by cases hp
        piped := fun _ _ => rfl
        budget := fun _ _ => Nat.zero_le _ }
  · have hlast : lastStep log = none := by
      rw [lastStep, List.find?_eq_none]
      intro e he
      have := hloop e (List.mem_reverse.mp he)
      simp [this]
    exact ⟨by simp [hlast], by simp [View.Blocked, hlast]⟩
  · exact
      { single := by
          intro type htype t'
          rw [hcount type (singleTypes_loop type htype)]
          exact Nat.zero_le _
        executed := fun t' _ => hcount _ (by simp [loopTypes]) t'
        unstarted := fun hphase => by cases hphase
        caused := fun u hu htype => absurd htype (hother (by simp [loopTypes]) u hu)
        identified := fun e he htype => absurd htype (hloop e he)
        distinct := by
          rw [List.filter_eq_nil_iff.mpr]
          · simp
          · intro e he
            simpa using hloop e he }

/-- **Every state that runs of the loop leave behind** keeps the invariant. -/
theorem Survives.loopOk {w : LoopWorld} (h : Survives cfg w) : LoopOk cfg w := by
  induction h with
  | seed durable hne hforeign => exact loopOk_seed durable hne hforeign
  | died _ hr ih =>
      obtain ⟨t, v, hat⟩ := ih
      have hsafe := keeps_runOnce (B := True) (C := True) hat (absurd trivial)
        (fun _ => absurd trivial)
      obtain ⟨_, hok, _⟩ := hsafe.reaches ⟨t, v, hat⟩ (fun _ => rfl) hr
      exact hok
  | written _ hforeign ih =>
      obtain ⟨t, v, hat⟩ := ih
      exact ⟨t, v, hat.foreignGrowth hforeign⟩
  | restarted _ ih =>
      obtain ⟨t, v, hat⟩ := ih
      exact ⟨t, v, hat.restarted⟩

end reachable

end CrazyHarness
