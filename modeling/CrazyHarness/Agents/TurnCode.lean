import CrazyHarness.Agents.Loop

/-! # Code that stays in its turn

`Stays T t p`: whatever the replies, `p` appends events of the types `T` to the turn `t` only and
asks the authority neither for a response nor to settle an old request.  From its response on a
turn is such code (`stays_decideTurn`), and so is the recovery of an operation
(`stays_recoverOperation`). -/

namespace CrazyHarness

open Lib Program LoopM

/-! ### Steps -/

/-- A step that appends events of some types to a turn, and asks the authority for no response. -/
def LoopOp.Within (T : String → Prop) (t : String) : LoopOp → Prop
  | .append type payload _ => T type ∧ payload.get? "turn_id" = some (.str t)
  | .recoverUnresolved _ | .complete _ => False
  | _ => True

/-- Code that takes such steps only. -/
def Stays {α : Type} (T : String → Prop) (t : String) (p : LoopM α) : Prop :=
  Program.Asks (fun _ _ => True) (LoopOp.Within T t) (fun _ => True) p

/-- The types of the events that neither request nor record a response. -/
def Deciding (type : String) : Prop := type ∉ ["model.requested", "model.completed"]

instance : DecidablePred Deciding := fun type => inferInstanceAs (Decidable (type ∉ _))

section stays

variable {α β : Type} {T : String → Prop} {t : String}

theorem stays_done (r : Except LoopError α) : Stays T t (.done r : Program loopInterface _) := trivial

theorem stays_pure (a : α) : Stays T t (pure a) := trivial

theorem stays_throw (e : LoopError) : Stays T t (throw e : LoopM α) := trivial

theorem stays_bind {p : LoopM α} {f : α → LoopM β} (h : Stays T t p) (hf : ∀ a, Stays T t (f a)) :
    Stays T t (p >>= f) := by
  refine asks_bind h ?_
  intro r _
  cases r with
  | ok a => exact hf a
  | error e => trivial

theorem stays_then (op : LoopOp) (h : op.Within T t) {f : loopInterface.Reply op → LoopM β}
    (hf : ∀ r, Stays T t (f r)) : Stays T t ((ask op).bind f) :=
  ⟨h, fun r _ => hf r⟩

theorem stays_events : Stays T t events := stays_then .events trivial (fun _ => stays_done _)

theorem stays_append {type : String} {payload : Dict} (htype : T type)
    (hturn : payload.get? "turn_id" = some (.str t)) (cause : Option String) :
    Stays T t (append type payload cause) := by
  refine stays_then (.append type payload cause) ⟨htype, hturn⟩ ?_
  rintro (_ | e) <;> exact stays_done _

theorem stays_noted {type : String} {payload : Dict} (htype : T type)
    (hturn : payload.get? "turn_id" = some (.str t)) (cause : Option String) {a : α} :
    Stays T t (append type payload cause >>= fun _ => pure a) :=
  stays_bind (stays_append htype hturn cause) (fun _ => stays_pure _)

theorem stays_calling {p : Program loopInterface (Except String α)}
    (h : p.Asks (fun _ _ => True) (LoopOp.Within T t) (fun _ => True)) : Stays T t (calling p) := by
  refine asks_bind h ?_
  intro r _
  cases r <;> trivial

theorem stays_ask {op : LoopOp} (h : op.Within T t) :
    (ask op).Asks (fun _ _ => True) (LoopOp.Within T t) (fun _ => True) :=
  ⟨h, fun _ _ => trivial⟩

theorem stays_phase (htype : T "loop.phase.changed") (p : LoopPhase) : Stays T t (phase p t) := by
  refine stays_bind stays_events (fun es => stays_bind ?_ (fun _ => ?_))
  · unfold checkPhase
    split
    · exact stays_pure _
    · split
      · exact stays_throw _
      · split
        · exact stays_pure _
        · exact stays_throw _
  · exact stays_noted htype (by simp) none

theorem stays_recordAction {type : String} (htype : T type) (command : Event) (payload : Dict) :
    Stays T t (recordAction type t command payload) :=
  stays_noted htype (by simp) _

end stays

section turn

variable {t : String} {cfg : AgentConfig} {action : AgentAction} {command : Event}

theorem stays_recordCompleted (operationId : Json) (payload : Dict) (cause : Option String) :
    Stays Deciding t (recordCompleted t operationId payload cause) := by
  refine stays_bind (stays_append (by decide) (by simp) _) (fun _ => ?_)
  exact stays_noted (by decide) (by simp) _

theorem stays_denyAction (payload : Dict) : Stays Deciding t (denyAction t command payload) := by
  refine stays_bind (stays_phase (by decide) _) (fun _ => ?_)
  exact stays_noted (by decide) (by simp) _

theorem stays_recordSettled (operation : Option Event) (settled : SettledToolResult) :
    Stays Deciding t (recordSettled t command operation settled) := by
  have hstart : ∀ operationId, Stays Deciding t (durableStart operationId operation) := by
    intro operationId
    cases operation with
    | some e => exact stays_pure _
    | none =>
        refine stays_bind stays_events (fun es => ?_)
        split
        · exact stays_pure _
        · exact stays_throw _
  unfold recordSettled
  dsimp only
  split
  · exact stays_bind (hstart _) (fun _ => stays_recordCompleted _ _ _)
  · exact stays_bind (hstart _) (fun _ => stays_recordCompleted _ _ _)
  · exact stays_noted (by decide) (by simp) _
  · refine stays_bind (stays_append (by decide) (by simp) _) (fun _ => ?_)
    exact stays_noted (by decide) (by simp) _

theorem stays_finishPipeline (out : Except PipelineError (List (List SettledToolResult)) × Option Event) :
    Stays Deciding t (finishPipeline action t command out) := by
  unfold finishPipeline
  split
  · exact stays_denyAction _
  · exact stays_denyAction _
  · exact stays_throw _
  · split
    · exact stays_bind (stays_phase (by decide) _) (fun _ => stays_recordSettled _ _)
    · exact stays_throw _

theorem stays_pipelineHandler (op : PipelineOp) (s : Option Event) :
    (pipelineHandler action t command op s).Asks (fun _ _ => True) (LoopOp.Within Deciding t)
      (fun _ => True) := by
  cases op with
  | onStarted r i =>
      have hstarted : Stays Deciding t (recordStarted action t command r i) := by
        refine stays_bind (stays_append (by decide) (by simp) _) (fun operation => ?_)
        exact stays_noted (by decide) (by simp) _
      refine asks_bind hstarted ?_
      rintro (e | o) _ <;> trivial
  | _ => exact ⟨trivial, fun _ _ => trivial⟩

theorem stays_executeViaPipeline : Stays Deciding t (executeViaPipeline cfg action t command) := by
  refine stays_bind (stays_phase (by decide) _) (fun _ => ?_)
  exact asks_bind (asks_interpret stays_pipelineHandler _ _) (fun out _ => stays_finishPipeline out)

theorem stays_executeDirectly : Stays Deciding t (executeDirectly cfg action t command) := by
  refine stays_bind (stays_phase (by decide) _) (fun _ => ?_)
  refine stays_bind (stays_then .drawOperationId trivial (fun _ => stays_done _)) (fun id => ?_)
  refine stays_bind (stays_append (by decide) (by simp) _) (fun operation => ?_)
  refine stays_bind (stays_append (by decide) (by simp) _) (fun _ => ?_)
  refine stays_bind (stays_calling (stays_ask trivial)) (fun result => ?_)
  exact stays_bind (stays_phase (by decide) _) (fun _ => stays_recordCompleted _ _ _)

theorem stays_nudgeOrStop (es : List Event) (findings : List CompletionFinding) :
    Stays Deciding t (nudgeOrStop cfg es t command findings) := by
  unfold nudgeOrStop
  split
  · exact stays_throw _
  · dsimp only
    split
    · exact stays_noted (by decide) (by simp) _
    · exact stays_noted (by decide) (by simp) _

theorem stays_completionAllows : Stays Deciding t (completionAllows cfg action t command) := by
  unfold completionAllows
  split
  · refine stays_bind stays_events (fun es => stays_bind (stays_calling (stays_ask trivial)) (fun result => ?_))
    refine stays_bind (stays_append ?_ (by simp) _) (fun _ => ?_)
    · split <;> decide
    · split
      · exact stays_pure _
      · exact stays_bind (stays_nudgeOrStop _ _) (fun _ => stays_pure _)
  · exact stays_pure _

theorem stays_recordMessage (outcome : HandlerOutcome) :
    Stays Deciding t (recordMessage cfg action t command outcome) := by
  unfold recordMessage
  split
  · exact stays_recordAction (by decide) _ _
  · exact stays_throw _
  · refine stays_bind (stays_recordAction (by decide) _ _) (fun _ => ?_)
    split
    · exact stays_bind (stays_phase (by decide) _) (fun _ => stays_recordAction (by decide) _ _)
    · exact stays_pure _

theorem stays_recordResult : Stays Deciding t (recordResult cfg action t command) := by
  unfold recordResult
  split
  · exact stays_recordAction (by decide) _ _
  · exact stays_recordAction (by decide) _ _
  · exact stays_bind (stays_phase (by decide) _) (fun _ => stays_recordAction (by decide) _ _)
  · exact stays_bind (stays_phase (by decide) _) (fun _ => stays_recordAction (by decide) _ _)
  · exact stays_bind (stays_phase (by decide) _) (fun _ => stays_recordAction (by decide) _ _)
  · exact stays_bind (stays_calling (stays_ask trivial)) (fun _ => stays_recordAction (by decide) _ _)
  · split
    · exact stays_then (.handleMessage action t) trivial stays_recordMessage
    · exact stays_recordMessage _
  · exact stays_recordAction (by decide) _ _
  · exact stays_pure _

theorem stays_executeAction : Stays Deciding t (executeAction cfg action t command) := by
  unfold executeAction
  split
  · split
    · exact stays_executeViaPipeline
    · exact stays_executeDirectly
  · refine stays_bind (stays_phase (by decide) _) (fun _ => stays_bind ?_ (fun allowed => ?_))
    · split
      · exact stays_completionAllows
      · exact stays_pure _
    · split
      · exact stays_recordResult
      · exact stays_pure _

theorem stays_authorizeAndExecute (es : List Event) (capability : Option Event) :
    Stays Deciding t (authorizeAndExecute cfg es t capability action command) := by
  have hnames : Stays Deciding t (disclosedNames cfg capability) := by
    unfold disclosedNames
    split
    · exact stays_pure _
    · split
      · exact stays_throw _
      · split
        · exact stays_pure _
        · exact stays_throw _
  refine stays_bind (stays_phase (by decide) _) (fun _ => ?_)
  split
  · exact stays_denyAction _
  · refine stays_bind hnames (fun names => ?_)
    dsimp only
    split
    · exact stays_denyAction _
    · split
      · exact stays_denyAction _
      · exact stays_executeAction

theorem stays_rejectResponse (response : Event) (payload : Dict) :
    Stays Deciding t (rejectResponse t response payload) := by
  refine stays_bind (stays_phase (by decide) _) (fun _ => ?_)
  exact stays_noted (by decide) (by simp) _

/-- **From its response on a turn stays in itself.** -/
theorem stays_decideTurn (es turnEvents : List Event) (capability : Option Event) (response : Event)
    (recovered : Bool) : Stays Deciding t (decideTurn cfg es t turnEvents capability response recovered) := by
  have hmark : ∀ type reused payload, Deciding type →
      Stays Deciding t (markReused type t turnEvents reused payload) := by
    intro type reused payload htype
    unfold markReused
    split
    · exact stays_recordAction htype _ _
    · exact stays_pure _
  unfold decideTurn
  split
  · exact stays_rejectResponse _ _
  · refine stays_bind ?_ (fun _ => ?_)
    · split
      · exact hmark _ _ _ (by decide)
      · exact stays_pure _
    · split
      · refine stays_bind (stays_phase (by decide) _) (fun _ => ?_)
        split
        · exact stays_throw _
        · exact stays_rejectResponse _ _
        · refine stays_bind (stays_append (by decide) (by simp) _) (fun command => ?_)
          exact stays_authorizeAndExecute _ _
      · refine stays_bind (hmark _ _ _ (by decide)) (fun _ => ?_)
        split
        · exact stays_throw _
        · split
          · exact stays_throw _
          · exact stays_authorizeAndExecute _ _

/-- The recovery of an operation stays in its turn. -/
theorem stays_recoverOperation (u : Event) : Stays Deciding u.turn (recoverOperation cfg u) := by
  have hunknown : Stays Deciding u.turn (recordUnknown u u.turn) := by
    refine stays_bind (stays_phase (by decide) _) (fun _ => ?_)
    exact stays_noted (by decide) (by simp) _
  unfold recoverOperation
  dsimp only
  split
  · refine stays_then (.pipeline (.get u.operation.pyStr)) trivial ?_
    rintro (e | record)
    · exact hunknown
    · refine stays_bind (stays_phase (by decide) _) (fun _ => ?_)
      split
      · exact stays_recordCompleted _ _ _
      · exact stays_noted (by decide) (by simp) _
      · exact stays_noted (by decide) (by simp) _
  · exact hunknown

end turn

end CrazyHarness
