import CrazyHarness.Agents.Progress

/-! # The steps of a turn

`Keeps cfg E Q p w`: from the world `w` the code `p` keeps the invariant of the loop at each of
its steps; a value it returns has `Q` and an exception it raises has `E`.  For `E` the parts of
`run_once` take `Fails B C`: unless `B` the exception is no illegal transition, and unless `C` it
leaves every succeeded operation recorded once.

There is one rule for each step of the loop (`keeps_phase`, `keeps_outcome`, …) and one lemma
for each part of `run_once`, assembled from them along its code. -/

namespace CrazyHarness

open Lib Program OperationLedger LoopM

/-! ### What is kept -/

/-- Every succeeded operation has one result and one settlement in the log. -/
def AllRecorded (w : LoopWorld) : Prop :=
  ∀ id r, w.pipe.ledger.records.lookup id = some r → r.state = .succeeded →
    RecordedOnce w.log (.str id)

/-- No illegal transition. -/
def LoopError.Legal (e : LoopError) : Prop := ∀ p q, e ≠ .illegalTransition p q

/-- The pending operation, if there is one, has not succeeded. -/
def Unsettled (w : LoopWorld) (v : View) : Prop :=
  ∀ p id r, v.pending = some p → p.operation = .str id →
    w.pipe.ledger.records.lookup id = some r → r.state ≠ .succeeded

/-- Only others have written, and the ledger is the same. -/
def LoopWorld.Reads (w w' : LoopWorld) : Prop := ForeignGrowth w.log w'.log ∧ w'.pipe = w.pipe

/-- How `run_once` may fail. -/
def Fails (B C : Prop) (e : LoopError) (w : LoopWorld) : Prop :=
  (¬ B → e.Legal) ∧ (¬ C → AllRecorded w)

/-- How code ends: with a value or an exception. -/
def Ends {α : Type} (E : LoopError → LoopWorld → Prop) (Q : α → LoopWorld → Prop) :
    Except LoopError α → LoopWorld → Prop
  | .ok a, w => Q a w
  | .error e, w => E e w

/-- The code keeps the invariant and ends well. -/
def Keeps {α : Type} (cfg : AgentConfig) (E : LoopError → LoopWorld → Prop)
    (Q : α → LoopWorld → Prop) (p : LoopM α) (w : LoopWorld) : Prop :=
  Program.Safe (loopStep cfg) (fun w (_ : Unit) => LoopOk cfg w) Eq (fun _ _ => True)
    (fun r w' _ => Ends E Q r w') p w ()

theorem unsettled_of_none {w : LoopWorld} {v : View} (h : v.pending = none) : Unsettled w v := by
  intro p id r hp
  rw [h] at hp
  cases hp

theorem Unsettled.reads {w w' : LoopWorld} {v : View} (h : Unsettled w v) (hr : w.Reads w') :
    Unsettled w' v := by
  intro p id r
  rw [hr.2]
  exact h p id r

theorem At.allRecorded {cfg : AgentConfig} {w : LoopWorld} {t : String} {v : View}
    (h : At cfg w t v) (hu : Unsettled w v) : AllRecorded w := by
  intro id r hlook hstate
  refine h.recorded.recorded id r hlook hstate ?_
  intro p hp hop
  exact hu p id r hp hop hlook hstate

section rules

variable {α β : Type} {cfg : AgentConfig} {B C : Prop} {E : LoopError → LoopWorld → Prop}
  {Q : α → LoopWorld → Prop} {Q' : β → LoopWorld → Prop} {w : LoopWorld} {t : String} {v : View}

/-! ### Sequential code -/

theorem keeps_pure {a : α} (h : Q a w) : Keeps cfg E Q (pure a) w := h

theorem keeps_throw {e : LoopError} (h : E e w) : Keeps cfg E Q (throw e) w := h

/-- An exception that is no illegal transition, when nothing succeeded is pending. -/
theorem At.keeps_throw {e : LoopError} (h : At cfg w t v) (hu : Unsettled w v)
    (he : ∀ p q, e ≠ .illegalTransition p q) : Keeps cfg (Fails B C) Q (throw e) w :=
  CrazyHarness.keeps_throw ⟨fun _ => he, fun _ => h.allRecorded hu⟩

theorem keeps_bind {p : LoopM α} {f : α → LoopM β} (h : Keeps cfg E Q p w)
    (hf : ∀ a w', Q a w' → Keeps cfg E Q' (f a) w') : Keeps cfg E Q' (p >>= f) w := by
  refine safe_bind h ?_
  intro r w' _ hr
  cases r with
  | ok a => exact hf a w' hr
  | error e => exact hr

theorem Keeps.weaken {Q₂ : α → LoopWorld → Prop} {p : LoopM α} (h : Keeps cfg E Q p w)
    (hQ : ∀ a w', Q a w' → Q₂ a w') : Keeps cfg E Q₂ p w := by
  refine Safe.weaken h ?_
  intro r w' _ hr
  cases r with
  | ok a => exact hQ a w' hr
  | error e => exact hr

/-- One step, after the events of others. -/
theorem keeps_step {op : LoopOp} {f : loopInterface.Reply op → LoopM β}
    (h : ∀ log r w', ForeignGrowth w.log log → loopAct cfg { w with log := log } op r w' →
      LoopOk cfg w' ∧ Keeps cfg E Q' (f r) w') : Keeps cfg E Q' ((ask op).bind f) w := by
  intro w₁ R r w' heq hinv hstep
  subst heq
  obtain ⟨log, hgrow, hact⟩ := hstep
  obtain ⟨hok, hrest⟩ := h log r w' hgrow hact
  exact ⟨(), hok, trivial, hrest⟩

/-- A step that leaves the state to others. -/
theorem keeps_external {op : LoopOp} {f : loopInterface.Reply op → LoopM β}
    (hop : ∀ w r w', loopAct cfg w op r w' → w' = w) (h : At cfg w t v)
    (hf : ∀ r w', At cfg w' t v → w.Reads w' → Keeps cfg E Q' (f r) w') :
    Keeps cfg E Q' ((ask op).bind f) w := by
  refine keeps_step ?_
  intro log r w' hgrow hact
  have hw := hop _ _ _ hact
  subst hw
  have hat := h.foreignGrowth hgrow
  exact ⟨⟨t, v, hat⟩, hf r _ hat ⟨hgrow, rfl⟩⟩

/-- A call of a collaborator. -/
theorem keeps_calling (op : LoopOp) (g : loopInterface.Reply op → Except String α)
    (hop : ∀ w r w', loopAct cfg w op r w' → w' = w) (h : At cfg w t v) (hu : Unsettled w v) :
    Keeps cfg (Fails B C) (fun _ w' => At cfg w' t v ∧ w.Reads w')
      (calling ((ask op).bind (fun r => .done (g r)))) w := by
  refine keeps_external (f := fun r => calling (.done (g r))) hop h ?_
  intro r w' hat hreads
  cases hr : g r with
  | ok a => exact keeps_pure ⟨hat, hreads⟩
  | error message => exact hat.keeps_throw (hu.reads hreads) (by simp)

/-- Reading the log. -/
theorem keeps_events (h : At cfg w t v) :
    Keeps cfg E (fun es w' => es = w'.log ∧ At cfg w' t v ∧ w.Reads w') events w := by
  refine keeps_step ?_
  rintro log r w' hgrow ⟨rfl, rfl⟩
  have hat := h.foreignGrowth hgrow
  exact ⟨⟨t, v, hat⟩, keeps_pure ⟨rfl, hat, hgrow, rfl⟩⟩

/-! ### Appending -/

/-- Appending an event of the turn. -/
theorem keeps_append (h : At cfg w t v) {type : String} {payload : Dict} {cause : Option String}
    (hturn : payload.get? "turn_id" = some (.str t)) (htype : type ∈ loopTypes)
    (hadm : ∀ w₁ e, w.Reads w₁ → e.type = type → e.payload = payload → e.causationId = cause →
      v.Admits cfg w₁ e) :
    Keeps cfg E (fun e w' => At cfg w' t (v.after e) ∧ w'.pipe = w.pipe ∧ e.type = type ∧
      e.payload = payload ∧ e.causationId = cause) (append type payload cause) w := by
  refine keeps_step ?_
  rintro log r w' hgrow ⟨now, hact⟩
  have hat := h.foreignGrowth hgrow
  obtain ⟨identity, hlast⟩ := Option.ne_none_iff_exists'.mp
    (mt List.getLast?_eq_none_iff.mp hat.current.nonempty)
  simp only [LoopWorld.appended] at hact hlast
  rw [hlast] at hact
  obtain ⟨rfl, rfl⟩ := Prod.mk.inj hact
  have hwrote := hat.wrote rfl (e := LoopWorld.newEvent { w with log := log } cfg identity type payload
    cause now) hturn htype (hadm _ _ ⟨hgrow, rfl⟩ rfl rfl rfl)
  exact ⟨⟨t, _, hwrote⟩, keeps_pure ⟨hwrote, rfl, rfl, rfl, rfl⟩⟩

/-- The events that change nothing in the view. -/
def noteTypes : List String :=
  ["capability.manifest.compiled", "context.manifest.compiled", "model.requested",
    "model.response.reused", "agent.command.reused", "tool.requested", "completion.gate.passed",
    "completion.gate.failed"]

/-- The types that decide what an event does to a view. -/
def effectTypes : List String :=
  ["loop.phase.changed", "model.completed", "agent.command.validated", "operation.started",
    "operation.completed", "tool.completed", "tool.failed"]

theorem noteTypes_spec : ∀ type ∈ noteTypes, type ∈ loopTypes ∧ type ∉ turnCompletedEvents ∧
    type ∉ operationEnds ∧ type ∉ effectTypes := by
  decide

theorem View.after_note {e : Event} (h : e.type ∈ noteTypes) : v.after e = v := by
  obtain ⟨_, hclosing, hends, heffect⟩ := noteTypes_spec e.type h
  simp only [effectTypes, List.mem_cons, List.not_mem_nil, or_false, not_or] at heffect
  simp [View.after, heffect, hclosing, hends]

/-- A note; unless it is a marker of reuse it is the last step and must tell whether the turn can
be entered. -/
theorem keeps_note (h : At cfg w t v) {type : String} {payload : Dict} {cause : Option String}
    (hturn : payload.get? "turn_id" = some (.str t)) (htype : type ∈ noteTypes)
    (hlink : type ∉ ["model.response.reused", "agent.command.reused"] →
      (v.Blocked ↔ v.closed = false ∧ type ∈ ["completion.gate.passed", "completion.gate.failed"])) :
    Keeps cfg E (fun e w' => At cfg w' t v ∧ w'.pipe = w.pipe ∧ e.type = type ∧
      e.payload = payload ∧ e.causationId = cause) (append type payload cause) w := by
  obtain ⟨hloop, hclosing, hends, heffect⟩ := noteTypes_spec type htype
  simp only [effectTypes, List.mem_cons, List.not_mem_nil, or_false, not_or] at heffect
  have hadm : ∀ w₁ e, w.Reads w₁ → e.type = type → e.payload = payload → e.causationId = cause →
      v.Admits cfg w₁ e := by
    rintro w₁ e - rfl - -
    have hfailed : e.type ≠ "operation.failed" := by
      intro hf
      simp [hf, operationEnds] at hends
    exact
      { start := by simp [heffect]
        budget := by simp [heffect]
        result := by simp [heffect]
        ending := by simp [hends]
        settlement := by simp [heffect]
        response := by simp [heffect]
        command := by simp [heffect]
        outcome := by simp [hclosing]
        phase := by simp [heffect]
        link := by
          intro hmark
          rw [View.after_note htype, hlink hmark]
          simp [Event.Strands, heffect, hfailed] }
  refine (keeps_append h hturn hloop hadm).weaken ?_
  rintro e w' ⟨hat, hpipe, rfl, hpayload, hcause⟩
  rw [View.after_note htype] at hat
  exact ⟨hat, hpipe, rfl, hpayload, hcause⟩

/-- The view in another phase. -/
def View.entering (v : View) (p : LoopPhase) : View :=
  { v with phase := some (some p), executed := v.executed || decide (p = .actionExecuting) }

@[simp] theorem View.entering_canEnter (p q : LoopPhase) :
    (v.entering p).CanEnter q ↔ transitionAllowed p q := by
  simp [View.CanEnter, View.entering]

/-- Entering a phase.  Unless `B` the phase must be allowed, and when it is not a succeeded
operation may pend only if `C`. -/
theorem keeps_phase (h : At cfg w t v) (p : LoopPhase) (hfirst : ¬ B → v.CanEnter p)
    (hdone : ¬ v.CanEnter p → ¬ C → Unsettled w v)
    (hlate : v.CanEnter p → v.executed = true → some p ∈ laterPhases)
    (hpending : v.pending.isSome → p = .resultRecording)
    (hlink : v.CanEnter p → ((v.entering p).Blocked ↔
      v.closed = false ∧ p ≠ .contextBuilding ∧ p ≠ .modelCalling)) :
    Keeps cfg (Fails B C) (fun _ w' => At cfg w' t (v.entering p) ∧ w'.pipe = w.pipe ∧ v.CanEnter p)
      (phase p t) w := by
  refine keeps_bind (keeps_events h) ?_
  rintro es w₁ ⟨rfl, hat, hreads⟩
  have hphase : (lastPhaseEvent w₁.log t).map Event.phase = v.phase := by
    rw [← hat.current.view]
    rfl
  have hcheck : Keeps cfg (Fails B C) (fun _ w' => w' = w₁ ∧ v.CanEnter p)
      (checkPhase (lastPhaseEvent w₁.log t) p) w₁ := by
    unfold checkPhase
    cases hl : lastPhaseEvent w₁.log t with
    | none =>
        rw [hl] at hphase
        refine keeps_pure ⟨rfl, ?_⟩
        intro q hq
        rw [hq] at hphase
        cases hphase
    | some e =>
        rw [hl, Option.map_some] at hphase
        cases he : e.phase with
        | none =>
            rw [he] at hphase
            exact absurd hphase.symm hat.current.phased
        | some q =>
            rw [he] at hphase
            have hiff : v.CanEnter p ↔ transitionAllowed q p := by
              simp [View.CanEnter, ← hphase]
            simp only [he]
            by_cases hallowed : transitionAllowed q p
            · rw [if_pos hallowed]
              exact keeps_pure ⟨rfl, hiff.mpr hallowed⟩
            · rw [if_neg hallowed]
              have hcan := mt hiff.mp hallowed
              refine keeps_throw ⟨fun hB => absurd (hfirst hB) hcan, fun hC => ?_⟩
              exact hat.allRecorded ((hdone hcan hC).reads hreads)
  refine keeps_bind hcheck ?_
  rintro - w₂ ⟨rfl, hcan⟩
  have hadm : ∀ w₁ e, w₂.Reads w₁ → e.type = "loop.phase.changed" →
      e.payload = [("turn_id", .str t), ("phase", .str p.value)] → e.causationId = none →
      v.Admits cfg w₁ e ∧ v.after e = v.entering p := by
    intro w₁ e _ htype hpayload _
    have hep : e.phase = some p := by
      simp [Event.phase, hpayload, Dict.getD, Dict.get?_cons]
    have hafter : v.after e = v.entering p := by
      simp [View.after, View.entering, htype, hep, turnCompletedEvents, operationEnds]
    refine ⟨?_, hafter⟩
    exact
      { start := by simp [htype]
        budget := by simp [htype]
        result := by simp [htype]
        ending := by simp [htype, operationEnds]
        settlement := by simp [htype]
        response := by simp [htype]
        command := by simp [htype]
        outcome := by simp [htype, turnCompletedEvents]
        phase := by
          intro _
          refine ⟨by simp [hep], fun hex => hep ▸ hlate hcan hex, fun hp => by rw [hep, hpending hp]⟩
        link := by
          intro _
          rw [hafter, hlink hcan]
          simp [Event.Strands, htype, hep, View.entering] }
  refine keeps_bind (keeps_append hat (by simp) (by simp [loopTypes])
    (fun w₁ e hr ht hp hc => (hadm w₁ e hr ht hp hc).1)) ?_
  rintro e w₃ ⟨hat₃, hpipe, htype, hpayload, hcause⟩
  rw [(hadm w₂ e ⟨.refl _, rfl⟩ htype hpayload hcause).2] at hat₃
  exact keeps_pure ⟨hat₃, hpipe.trans hreads.2, hcan⟩

/-- The outcomes of a turn that are no results of an operation. -/
def outcomeTypes : List String :=
  ["model.validation_failed", "agent.action.denied", "agent.stopped", "agent.submitted",
    "agent.waiting", "agent.nudged", "agent.continued", "a2a.message.sent", "a2a.message.denied",
    "artifact.created"]

theorem outcomeTypes_spec : ∀ type ∈ outcomeTypes, type ∈ loopTypes ∧ type ∈ turnCompletedEvents ∧
    type ∉ operationEnds ∧ type ∉ effectTypes ∧ type ∉ noteTypes := by
  decide

/-- The view once the turn has an outcome. -/
def View.done (v : View) : View := { v with closed := true }

/-- An outcome that is no result of an operation. -/
theorem keeps_outcome (h : At cfg w t v) {type : String} {payload : Dict} {cause : Option String}
    (hturn : payload.get? "turn_id" = some (.str t)) (htype : type ∈ outcomeTypes)
    (hpending : v.pending = none) :
    Keeps cfg E (fun _ w' => At cfg w' t v.done ∧ w'.pipe = w.pipe) (append type payload cause) w := by
  obtain ⟨hloop, hclosing, hends, heffect, hnote⟩ := outcomeTypes_spec type htype
  simp only [effectTypes, List.mem_cons, List.not_mem_nil, or_false, not_or] at heffect
  have hafter : ∀ e : Event, e.type = type → v.after e = v.done := by
    rintro e rfl
    simp [View.after, View.done, heffect, hclosing, hends]
  have hadm : ∀ w₁ e, w.Reads w₁ → e.type = type → e.payload = payload → e.causationId = cause →
      v.Admits cfg w₁ e := by
    rintro w₁ e - rfl - -
    have hblocked : ¬ v.done.Blocked := by
      unfold View.Blocked View.done
      rw [hpending]
      cases v.response <;> simp
    exact
      { start := by simp [heffect]
        budget := by simp [heffect]
        result := by simp [heffect]
        ending := by simp [hends]
        settlement := by simp [heffect]
        response := by simp [heffect]
        command := by simp [heffect]
        outcome := by simp [hpending]
        phase := by simp [heffect]
        link := by
          intro _
          rw [hafter e rfl, iff_false_left hblocked]
          simp [Event.Strands, heffect, View.done] }
  refine (keeps_append h hturn hloop hadm).weaken ?_
  rintro e w' ⟨hat, hpipe, he, _, _⟩
  rw [hafter e he] at hat
  exact ⟨hat, hpipe⟩

/-! ### Decisions -/

/-- The response of the model is recorded. -/
theorem keeps_responded (h : At cfg w t v) (hresponse : v.response = none) (hcommand : v.command = none)
    (hpending : v.pending = none) (hphase : v.phase = some (some .modelCalling)) {payload : Dict}
    {cause : Option String} (hturn : payload.get? "turn_id" = some (.str t)) :
    Keeps cfg E (fun e w' => At cfg w' t { v with response := some e } ∧ w'.pipe = w.pipe)
      (append "model.completed" payload cause) w := by
  have hafter : ∀ e : Event, e.type = "model.completed" → v.after e = { v with response := some e } := by
    intro e he
    simp [View.after, he, turnCompletedEvents, operationEnds]
  refine (keeps_append h hturn (by simp [loopTypes]) ?_).weaken ?_
  · intro w₁ e _ htype _ _
    exact
      { start := by simp [htype]
        budget := by simp [htype]
        result := by simp [htype]
        ending := by simp [htype, operationEnds]
        settlement := by simp [htype]
        response := fun _ => ⟨hresponse, hcommand⟩
        command := by simp [htype]
        outcome := by simp [hpending]
        phase := by simp [htype]
        link := by
          intro _
          rw [hafter e htype]
          -- a response may be validated or refused
          have hopen : ∀ p ∈ [LoopPhase.failed, .decisionValidating], transitionAllowed .modelCalling p := by
            decide
          have hcan : ∀ p ∈ [LoopPhase.failed, .decisionValidating],
              ({ v with response := some e } : View).CanEnter p := by
            intro p hp q hq
            rw [hphase] at hq
            cases hq
            exact hopen p hp
          have hnext : ¬ ({ v with response := some e } : View).Blocked := by
            simp only [View.Blocked, hpending, hcommand, Option.isSome_none]
            rintro ⟨_, hblocked⟩
            apply hblocked
            split
            · exact hcan _ (by simp)
            · exact hcan _ (by simp)
          rw [iff_false_left hnext]
          simp [Event.Strands, htype] }
  · rintro e w' ⟨hat, hpipe, htype, _, _⟩
    rw [hafter e htype] at hat
    exact ⟨hat, hpipe⟩

/-- The validated command is recorded. -/
theorem keeps_commanded (h : At cfg w t v) {r : Event} (hresponse : v.response = some r)
    (hfinish : incompleteFinish r = false) (hcommand : v.command = none) (hpending : v.pending = none)
    (hphase : v.phase = some (some .decisionValidating)) (a : AgentAction) {payload : Dict}
    {cause : Option String} (hturn : payload.get? "turn_id" = some (.str t))
    (hdump : payload.get? "command" = some (.dict a.dump)) :
    Keeps cfg E (fun e w' => At cfg w' t { v with command := some e } ∧ w'.pipe = w.pipe)
      (append "agent.command.validated" payload cause) w := by
  have hafter : ∀ e : Event, e.type = "agent.command.validated" →
      v.after e = { v with command := some e } := by
    intro e he
    simp [View.after, he, turnCompletedEvents, operationEnds]
  refine (keeps_append h hturn (by simp [loopTypes]) ?_).weaken ?_
  · intro w₁ e _ htype hpayload _
    exact
      { start := by simp [htype]
        budget := by simp [htype]
        result := by simp [htype]
        ending := by simp [htype, operationEnds]
        settlement := by simp [htype]
        response := by simp [htype]
        command := by
          intro _
          refine ⟨hcommand, ⟨r, hresponse, hfinish⟩, a, ?_⟩
          rw [Event.get?, hpayload]
          exact hdump
        outcome := by simp [hpending]
        phase := by simp [htype]
        link := by
          intro _
          rw [hafter e htype]
          have hallowed : transitionAllowed .decisionValidating .actionAuthorizing := by decide
          simp [View.Blocked, hpending, hresponse, hfinish, View.CanEnter, hphase, hallowed,
            Event.Strands, htype] }
  · rintro e w' ⟨hat, hpipe, htype, _, _⟩
    rw [hafter e htype] at hat
    exact ⟨hat, hpipe⟩

/-! ### Operations -/

/-- The identifier of an operation is new in the log. -/
def NewOperation (log : List Event) (o : Json) : Prop :=
  ∀ u ∈ log, u.type = "operation.started" → u.operation ≠ o

theorem NewOperation.foreignGrowth {log log' : List Event} {o : Json} (h : NewOperation log o)
    (hgrow : ForeignGrowth log log') : NewOperation log' o := by
  induction hgrow with
  | refl => exact h
  | step _ he ih =>
      exact forall_mem_append_singleton ih (fun htype => absurd htype (he.ne _ (by simp [loopTypes])))

theorem operation_eq {e : Event} {payload : Dict} {o : Json} (hpayload : e.payload = payload)
    (ho : payload.get? "operation_id" = some o) : e.operation = o := by
  rw [Event.operation, hpayload, Dict.getD, ho, Option.getD_some]

/-- A command answers a response that is complete. -/
theorem At.response_of_command (h : At cfg w t v) (hcommand : v.command.isSome) :
    ∃ r, v.response = some r ∧ incompleteFinish r = false := by
  rw [← h.current.view] at hcommand ⊢
  exact h.current.commanded t hcommand

/-- With an operation pending the result phase is the only way on. -/
theorem View.blocked_of_pending {u : Event} (hpending : v.pending = some u) :
    v.Blocked ↔ ¬ v.CanEnter .resultRecording := by
  simp [View.Blocked, hpending]

/-- With a command the action phase is the only way on. -/
theorem At.blocked_of_command (h : At cfg w t v) (hpending : v.pending = none)
    (hcommand : v.command.isSome) :
    v.Blocked ↔ v.closed = false ∧ ¬ v.CanEnter .actionAuthorizing := by
  obtain ⟨r, hr, hfinish⟩ := h.response_of_command hcommand
  simp [View.Blocked, hpending, hr, hfinish, hcommand]

/-- The view once an operation has started. -/
def View.starting (v : View) (e : Event) : View :=
  { v with pending := some e, results := [], starts := v.starts + 1 }

/-- An operation has started. -/
theorem keeps_started (h : At cfg w t v) (hpending : v.pending = none) (hclosed : v.closed = false)
    {c : Event} (hcommand : v.command = some c) (hphase : v.phase = some (some .actionExecuting))
    (hbudget : ∀ n : ℕ, cfg.contract.bind AssignmentContract.toolCalls = some (n : ℤ) → v.starts < n)
    {m : ℕ} (hm : m < w.pipe.drawn) (hnew : NewOperation w.log (.str (newOperationId m)))
    {payload : Dict} (hturn : payload.get? "turn_id" = some (.str t))
    (hop : payload.get? "operation_id" = some (.str (newOperationId m))) :
    Keeps cfg E (fun e w' => At cfg w' t (v.starting e) ∧ w'.pipe = w.pipe ∧
      e.operation = .str (newOperationId m)) (append "operation.started" payload (some c.id)) w := by
  have hafter : ∀ e : Event, e.type = "operation.started" → v.after e = v.starting e := by
    intro e he
    simp [View.after, View.starting, he, turnCompletedEvents]
  refine (keeps_append h hturn (by simp [loopTypes]) ?_).weaken ?_
  · intro w₁ e hreads htype hpayload hcause
    have hope := operation_eq hpayload hop
    exact
      { start := by
          intro _
          rw [hope]
          exact ⟨hpending, hclosed, ⟨c, hcommand, hcause⟩, hphase,
            ⟨m, by rw [hreads.2]; exact hm, rfl⟩, hnew.foreignGrowth hreads.1⟩
        budget := fun _ => hbudget
        result := by simp [htype]
        ending := by simp [htype, operationEnds]
        settlement := by simp [htype]
        response := by simp [htype]
        command := by simp [htype]
        outcome := by simp [hpending]
        phase := by simp [htype]
        link := by
          intro _
          rw [hafter e htype, View.blocked_of_pending rfl]
          simp [View.starting, View.CanEnter, hphase, Event.Strands, htype, transitionAllowed,
            LoopPhase.allowedTransitions] }
  · rintro e w' ⟨hat, hpipe, htype, hpayload, _⟩
    rw [hafter e htype] at hat
    exact ⟨hat, hpipe, operation_eq hpayload hop⟩

/-- The result of the pending operation is recorded. -/
theorem keeps_result (h : At cfg w t v) {type : String}
    (htype : type = "tool.completed" ∨ type = "tool.failed") {u : Event}
    (hpending : v.pending = some u) (hphase : v.phase = some (some .resultRecording))
    {payload : Dict} {cause : Option String} (hturn : payload.get? "turn_id" = some (.str t))
    (hop : payload.get? "operation_id" = some u.operation) :
    Keeps cfg E (fun e w' => At cfg w' t { v with
        closed := true
        results := if type = "tool.completed" then v.results ++ [e] else v.results } ∧
      w'.pipe = w.pipe) (append type payload cause) w := by
  have hafter : ∀ e : Event, e.type = type → v.after e = { v with
      closed := true
      results := if type = "tool.completed" then v.results ++ [e] else v.results } := by
    rintro e rfl
    rcases htype with he | he <;> simp [View.after, he, turnCompletedEvents, operationEnds]
  refine (keeps_append h hturn ?_ ?_).weaken ?_
  · rcases htype with rfl | rfl <;> simp [loopTypes, turnCompletedEvents]
  · intro w₁ e _ he hpayload _
    have hope := operation_eq hpayload hop
    exact
      { start := by rcases htype with rfl | rfl <;> simp [he]
        budget := by rcases htype with rfl | rfl <;> simp [he]
        result := by
          intro _
          exact ⟨hphase, u, hpending, hope.symm⟩
        ending := by rcases htype with rfl | rfl <;> simp [he, operationEnds]
        settlement := by rcases htype with rfl | rfl <;> simp [he]
        response := by rcases htype with rfl | rfl <;> simp [he]
        command := by rcases htype with rfl | rfl <;> simp [he]
        outcome := by rcases htype with rfl | rfl <;> simp [he]
        phase := by rcases htype with rfl | rfl <;> simp [he]
        link := by
          intro _
          rw [hafter e he]
          rcases htype with rfl | rfl <;>
            simp [View.Blocked, hpending, View.CanEnter, hphase, Event.Strands, he,
              transitionAllowed, LoopPhase.allowedTransitions] }
  · rintro e w' ⟨hat, hpipe, he, _, _⟩
    rw [hafter e he] at hat
    exact ⟨hat, hpipe⟩

/-- The view once the pending operation has ended. -/
def View.settled (v : View) : View := { v with pending := none, results := [] }

/-- The pending operation is settled with its result. -/
theorem keeps_settled (h : At cfg w t v) {u c : Event} (hpending : v.pending = some u)
    (hphase : v.phase = some (some .resultRecording)) (hclosed : v.closed = true) (hresults : v.results = [c])
    {payload : Dict}
    (hturn : payload.get? "turn_id" = some (.str t))
    (hop : payload.get? "operation_id" = some u.operation)
    (hresult : payload.get? "result_event_id" = some (.str c.id)) :
    Keeps cfg E (fun _ w' => At cfg w' t v.settled ∧ w'.pipe = w.pipe)
      (append "operation.completed" payload (some c.id)) w := by
  have hafter : ∀ e : Event, e.type = "operation.completed" → v.after e = v.settled := by
    intro e he
    simp [View.after, View.settled, he, turnCompletedEvents, operationEnds]
  refine (keeps_append h hturn (by simp [loopTypes]) ?_).weaken ?_
  · intro w₁ e _ he hpayload hcause
    have hope := operation_eq hpayload hop
    exact
      { start := by simp [he]
        budget := by simp [he]
        result := by simp [he]
        ending := by
          intro _
          exact ⟨hphase, u, hpending, hope.symm, fun _ _ _ _ _ => he⟩
        settlement := by
          intro _
          refine ⟨c, hresults, ?_, hcause⟩
          rw [Event.get?, hpayload]
          exact hresult
        response := by simp [he]
        command := by simp [he]
        outcome := by simp [he, turnCompletedEvents]
        phase := by simp [he]
        link := by
          intro _
          rw [hafter e he]
          simp only [View.Blocked, View.settled, Event.Strands, he, hclosed]
          cases v.response <;> simp }
  · rintro e w' ⟨hat, hpipe, he, _, _⟩
    rw [hafter e he] at hat
    exact ⟨hat, hpipe⟩

/-- The pending operation has failed or its outcome is unknown. -/
theorem keeps_ended (h : At cfg w t v) {type : String}
    (htype : type = "operation.failed" ∨ type = "operation.unknown") {u : Event}
    (hpending : v.pending = some u) (hphase : v.phase = some (some .resultRecording))
    (hu : Unsettled w v) {payload : Dict} {cause : Option String}
    (hturn : payload.get? "turn_id" = some (.str t))
    (hop : payload.get? "operation_id" = some u.operation) :
    Keeps cfg E (fun _ w' => ∃ closed, At cfg w' t { v.settled with closed := closed } ∧
      w'.pipe = w.pipe) (append type payload cause) w := by
  have hcommand := (h.current.pending u hpending).2.2.1
  obtain ⟨r, hr, hfinish⟩ := h.response_of_command hcommand
  refine (keeps_append h hturn ?_ ?_).weaken ?_
  · rcases htype with rfl | rfl <;> simp [loopTypes, turnCompletedEvents]
  · intro w₁ e hreads he hpayload _
    have hope := operation_eq hpayload hop
    exact
      { start := by rcases htype with rfl | rfl <;> simp [he]
        budget := by rcases htype with rfl | rfl <;> simp [he]
        result := by rcases htype with rfl | rfl <;> simp [he]
        ending := by
          intro _
          refine ⟨hphase, u, hpending, hope.symm, ?_⟩
          intro id s hid hlook hstate
          exact absurd hstate (hu.reads hreads u id s hpending hid hlook)
        settlement := by rcases htype with rfl | rfl <;> simp [he]
        response := by rcases htype with rfl | rfl <;> simp [he]
        command := by rcases htype with rfl | rfl <;> simp [he]
        outcome := by rcases htype with rfl | rfl <;> simp [he, turnCompletedEvents]
        phase := by rcases htype with rfl | rfl <;> simp [he]
        link := by
          intro _
          rcases htype with rfl | rfl <;>
            simp [View.after, View.Blocked, View.CanEnter, hphase, Event.Strands, he,
              transitionAllowed, LoopPhase.allowedTransitions, operationEnds, turnCompletedEvents,
              hr, hfinish, hcommand] }
  · rintro e w' ⟨hat, hpipe, he, _, _⟩
    refine ⟨(v.after e).closed, ?_, hpipe⟩
    have hafter : v.after e = { v.settled with closed := (v.after e).closed } := by
      rcases htype with rfl | rfl <;>
        simp [View.after, View.settled, he, operationEnds, turnCompletedEvents]
    rw [← hafter]
    exact hat

/-! ### Refusals and records -/

/-- Where a turn with a command has gone on, the action phase is closed to it. -/
theorem At.blocked_entering (h : At cfg w t v) (hpending : v.pending = none)
    (hcommand : v.command.isSome) {p : LoopPhase} (hp : ¬ transitionAllowed p .actionAuthorizing) :
    (v.entering p).Blocked ↔ v.closed = false := by
  obtain ⟨r, hr, hfinish⟩ := h.response_of_command hcommand
  simp [View.Blocked, View.entering, hpending, hr, hfinish, hcommand, View.CanEnter, hp]

/-- A turn that has failed cannot go on. -/
theorem View.blocked_failed (hpending : v.pending = none) (hresponse : v.response.isSome) :
    (v.entering .failed).Blocked ↔ v.closed = false := by
  obtain ⟨r, hr⟩ := Option.isSome_iff_exists.mp hresponse
  simp [View.Blocked, View.entering, hpending, hr, View.CanEnter, transitionAllowed,
    LoopPhase.allowedTransitions]

/-- A turn ends with a refusal. -/
theorem keeps_refused (h : At cfg w t v) (hfirst : ¬ B → v.CanEnter .failed)
    (hpending : v.pending = none) (hresponse : v.response.isSome) {type : String}
    (htype : type ∈ outcomeTypes) (payload : Dict) (cause : Option String) :
    Keeps cfg (Fails B C) (fun _ w' => AllRecorded w')
      (do
        phase .failed t
        let _ ← append type ([("turn_id", .str t)] ++ payload) cause
        pure ()) w := by
  refine keeps_bind
    (keeps_phase h .failed hfirst (fun _ _ => unsettled_of_none hpending) (by simp [laterPhases]) ?_ ?_) ?_
  · rw [hpending]
    simp
  · intro _
    rw [View.blocked_failed hpending hresponse]
    simp
  · rintro - w₁ ⟨hat, _, _⟩
    refine keeps_bind (keeps_outcome hat (by simp) htype hpending) ?_
    rintro - w₂ ⟨hat₂, _⟩
    exact keeps_pure (hat₂.allRecorded (unsettled_of_none hpending))

/-- An action is recorded as the outcome of its turn. -/
theorem keeps_recordAction (h : At cfg w t v) (hpending : v.pending = none) {type : String}
    (htype : type ∈ outcomeTypes) (command : Event) (payload : Dict) :
    Keeps cfg E (fun _ w' => At cfg w' t v.done) (recordAction type t command payload) w := by
  refine keeps_bind (keeps_outcome h (by simp) htype hpending) ?_
  rintro - w₁ ⟨hat, _⟩
  exact keeps_pure hat

/-- The result of the pending operation and its settlement. -/
theorem keeps_recordCompleted (h : At cfg w t v) {u : Event} (hpending : v.pending = some u)
    (hphase : v.phase = some (some .resultRecording)) (hresults : v.results = []) {o : Json}
    (hop : u.operation = o) (payload : Dict) (cause : Option String) :
    Keeps cfg E (fun _ w' => AllRecorded w') (recordCompleted t o payload cause) w := by
  subst hop
  refine keeps_bind (keeps_result h (.inl rfl) hpending hphase (by simp)
    (by simp [Dict.get?_cons])) ?_
  rintro completed w₁ ⟨hat, _⟩
  rw [if_pos rfl, hresults, List.nil_append] at hat
  refine keeps_bind (keeps_settled hat hpending hphase rfl rfl (by simp)
    (by simp [Dict.get?_cons]) (by simp [Dict.get?_cons])) ?_
  rintro - w₂ ⟨hat₂, _⟩
  exact keeps_pure (hat₂.allRecorded (unsettled_of_none rfl))

/-- The end of the pending operation when it has not succeeded. -/
theorem keeps_recordEnded (h : At cfg w t v) {type : String}
    (htype : type = "operation.failed" ∨ type = "operation.unknown") {u : Event}
    (hpending : v.pending = some u) (hphase : v.phase = some (some .resultRecording))
    (hu : Unsettled w v) {payload : Dict} (cause : Option String)
    (hturn : payload.get? "turn_id" = some (.str t))
    (hop : payload.get? "operation_id" = some u.operation) :
    Keeps cfg E (fun _ w' => AllRecorded w')
      (do
        let _ ← append type payload cause
        pure ()) w := by
  refine keeps_bind (keeps_ended h htype hpending hphase hu hturn hop) ?_
  rintro - w₁ ⟨closed, hat, _⟩
  exact keeps_pure (hat.allRecorded (unsettled_of_none rfl))

end rules

end CrazyHarness
