import CrazyHarness.Agents.RunOnce
import CrazyHarness.Tools.AtMostOnce

/-! # Recovery after a crash

A process may die at any point of `run_once`; a new one reads the log that survives, with the
ledger, and goes on.

* `recovers_iff_not_stranded`: it meets no illegal transition exactly when the last step of the
  log does not strand the turn.
* `records_iff_not_halfRecorded`: it leaves every succeeded operation with one result and one
  settlement exactly when no succeeded operation has been left in its result phase.
* `startCount_le_budget`: no log ever starts more operations than the budget allows. -/

namespace CrazyHarness

open Lib Program OperationLedger LoopM

/-! ### Runs that end with an illegal transition -/

section runs

variable {α β : Type} {cfg : AgentConfig} {w w' : LoopWorld} {t : String} {v : View}

/-- The code can come to its end, with a value or an exception. -/
def EndsWith (cfg : AgentConfig) (p : LoopM α) (w : LoopWorld) (out : Except LoopError α)
    (w' : LoopWorld) : Prop :=
  Runs (loopStep cfg) p w out w'

theorem endsWith_pure (a : α) : EndsWith cfg (pure a) w (.ok a) w := .refl _ _

theorem endsWith_bind {p : LoopM α} {f : α → LoopM β} {a : α} {out : Except LoopError β}
    {w'' : LoopWorld} (h : EndsWith cfg p w (.ok a) w') (hf : EndsWith cfg (f a) w' out w'') :
    EndsWith cfg (p >>= f) w out w'' :=
  (Reaches.bind h (ExceptT.bindCont f)).trans hf

theorem endsWith_bind_error {p : LoopM α} {f : α → LoopM β} {e : LoopError}
    (h : EndsWith cfg p w (.error e) w') : EndsWith cfg (p >>= f) w (.error e) w' :=
  Reaches.bind h (ExceptT.bindCont f)

/-- A step without any event of others. -/
theorem endsWith_step {op : LoopOp} {f : loopInterface.Reply op → LoopM β} {r : loopInterface.Reply op}
    {out : Except LoopError β} {w'' : LoopWorld} (h : loopAct cfg w op r w')
    (hf : EndsWith cfg (f r) w' out w'') : EndsWith cfg ((ask op).bind f) w out w'' :=
  .step ⟨w.log, .refl _, h⟩ hf

theorem endsWith_events : EndsWith cfg events w (.ok w.log) w :=
  endsWith_step (f := fun es => .done (.ok es)) ⟨rfl, rfl⟩ (endsWith_pure _)

/-- A forbidden phase is refused before anything is written. -/
theorem At.endsWith_phase (h : At cfg w t v) {p : LoopPhase} (hcan : ¬ v.CanEnter p) :
    ∃ q, EndsWith cfg (phase p t) w (.error (.illegalTransition q p)) w := by
  unfold View.CanEnter at hcan
  push Not at hcan
  obtain ⟨q, hq, hforbidden⟩ := hcan
  refine ⟨q, endsWith_bind endsWith_events (endsWith_bind_error ?_)⟩
  have hphase : (lastPhaseEvent w.log t).map Event.phase = some (some q) := by
    rw [← hq, ← h.current.view]
    rfl
  obtain ⟨e, he, heq⟩ := Option.map_eq_some_iff.mp hphase
  rw [he]
  simp only [checkPhase, heq, if_neg hforbidden]
  exact .refl _ _

/-- What is kept along code is so at its end. -/
theorem Keeps.ends {E : LoopError → LoopWorld → Prop} {Q : α → LoopWorld → Prop} {p : LoopM α}
    {out : Except LoopError α} (h : Keeps cfg E Q p w) (hok : LoopOk cfg w)
    (hend : EndsWith cfg p w out w') : Ends E Q out w' := by
  obtain ⟨_, _, hpost⟩ := h.reaches hok (fun _ => rfl) hend
  exact hpost

theorem endsWith_append (hne : w.log ≠ []) (type : String) (payload : Dict) (cause : Option String) :
    ∃ e w', EndsWith cfg (append type payload cause) w (.ok e) w' := by
  obtain ⟨identity, hlast⟩ := Option.ne_none_iff_exists'.mp (mt List.getLast?_eq_none_iff.mp hne)
  obtain ⟨e, he⟩ : ∃ e, e = w.newEvent cfg identity type payload cause identity.createdAt :=
    ⟨_, rfl⟩
  have hact : loopAct cfg w (.append type payload cause) (some e) (w.wrote e) := by
    refine ⟨identity.createdAt, ?_⟩
    simp only [LoopWorld.appended, hlast, ← he]
    trivial
  exact ⟨e, w.wrote e, .step ⟨w.log, .refl _, hact⟩ (.refl _ _)⟩

theorem At.endsWith_markReused (h : At cfg w t v) {type : String}
    (htype : type ∈ ["model.response.reused", "agent.command.reused"]) (turnEvents : List Event)
    (reused : Event) (payload : Dict) :
    ∃ w', EndsWith cfg (markReused type t turnEvents reused payload) w (.ok ()) w' ∧
      At cfg w' t v := by
  have hkeeps := keeps_markReused h htype turnEvents reused payload (E := fun _ _ => True)
  have hend : ∃ w', EndsWith cfg (markReused type t turnEvents reused payload) w (.ok ()) w' := by
    unfold markReused
    split
    · have happend : ∃ e w', EndsWith cfg (append type ([("turn_id", .str t)] ++ payload)
          (some reused.id)) w (.ok e) w' := endsWith_append h.current.nonempty _ _ _
      obtain ⟨e, w', hend⟩ := happend
      exact ⟨w', endsWith_bind hend (endsWith_pure _)⟩
    · exact ⟨w, endsWith_pure _⟩
  obtain ⟨w', hend⟩ := hend
  exact ⟨w', hend, hkeeps.ends ⟨t, v, h⟩ hend⟩

/-! ### A blocked turn -/

/-- The loop goes past its checks when the run is not at rest. -/
theorem At.endsWith_runOnce (h : At cfg w t v) (hawake : ¬ AtRest w.log)
    {out : Except LoopError Unit}
    (hrun : EndsWith cfg (match v.pending with
      | some unresolved => recoverOperation cfg unresolved
      | none => advanceTurn cfg w.log) w out w') : EndsWith cfg (runOnce cfg) w out w' := by
  refine endsWith_bind endsWith_events ?_
  rw [if_neg h.current.nonempty, if_neg hawake, h.current.pending_eq]
  exact hrun

/-- The recovery of an operation in its result phase fails and changes nothing. -/
theorem At.endsWith_recoverOperation (h : At cfg w t v) {u : Event} (hpending : v.pending = some u)
    (hblocked : v.Blocked) :
    ∃ p, EndsWith cfg (recoverOperation cfg u) w (.error (.illegalTransition p .resultRecording)) w := by
  obtain ⟨hturn, _, _, _⟩ := h.current.pending u hpending
  rw [View.blocked_of_pending hpending] at hblocked
  obtain ⟨p, hphase⟩ := h.endsWith_phase hblocked
  refine ⟨p, ?_⟩
  unfold recoverOperation
  dsimp only
  split
  · refine endsWith_step ⟨w.pipe, ⟨rfl, rfl⟩, rfl⟩ ?_
    rw [hturn]
    cases w.pipe.ledger.get u.operation.pyStr with
    | ok record => exact endsWith_bind_error hphase
    | error e => exact endsWith_bind_error hphase
  · rw [hturn]
    exact endsWith_bind_error hphase

/-- An open turn with a response whose next phase is forbidden fails there. -/
theorem At.endsWith_decideTurn (h : At cfg w t v) (hpending : v.pending = none) {response : Event}
    (hresponse : v.response = some response) (hblocked : v.Blocked) (es turnEvents : List Event)
    (hcommand : lastOfType turnEvents "agent.command.validated" = v.command)
    (capability : Option Event) :
    ∃ p q w', EndsWith cfg (decideTurn cfg es t turnEvents capability response true) w
      (.error (.illegalTransition p q)) w' := by
  simp only [View.Blocked, hpending, hresponse] at hblocked
  obtain ⟨_, hcan⟩ := hblocked
  unfold decideTurn
  cases hfinish : incompleteFinish response with
  | true =>
      rw [hfinish, if_pos rfl] at hcan
      obtain ⟨q, hphase⟩ := h.endsWith_phase hcan
      exact ⟨q, _, w, endsWith_bind_error hphase⟩
  | false =>
      rw [hfinish, if_neg (by simp)] at hcan
      have hreused : "model.response.reused" ∈ ["model.response.reused", "agent.command.reused"] := by
        simp
      obtain ⟨w₁, hmark, hat⟩ := h.endsWith_markReused hreused turnEvents response
        [("response_event_id", .str response.id),
          ("reason", .str "persisted response precedes the interrupted harness step")]
      rw [hcommand]
      cases hc : v.command with
      | none =>
          rw [hc] at hcan
          obtain ⟨q, hphase⟩ := hat.endsWith_phase hcan
          exact ⟨q, _, w₁, endsWith_bind hmark (endsWith_bind_error hphase)⟩
      | some command =>
          rw [hc] at hcan
          obtain ⟨hmem, htype⟩ := hat.command_mem hc
          obtain ⟨action, hdump⟩ := hat.current.commands command hmem htype
          have hreused : "agent.command.reused" ∈ ["model.response.reused", "agent.command.reused"] := by
            simp
          obtain ⟨w₂, hmark₂, hat₂⟩ := hat.endsWith_markReused hreused turnEvents command
            [("command_event_id", .str command.id),
              ("reason", .str "validated command precedes the interrupted execution step")]
          obtain ⟨q, hphase⟩ := hat₂.endsWith_phase hcan
          refine ⟨q, .actionAuthorizing, w₂, endsWith_bind hmark (endsWith_bind hmark₂ ?_)⟩
          rw [hdump]
          simp only [AgentAction.validate_dump]
          exact endsWith_bind_error hphase

/-- **A blocked turn is refused**: some run of the loop meets an illegal transition. -/
theorem At.refused (h : At cfg w t v) (hblocked : v.Blocked) (hfailed : ¬ HasFailed w.log) :
    ∃ p q w', EndsWith cfg (runOnce cfg) w (.error (.illegalTransition p q)) w' := by
  have hnofail : ∀ a ∈ w.log, a.type ≠ "agent.failed" := fun a ha htype => hfailed ⟨a, ha, htype⟩
  cases hpending : v.pending with
  | some u =>
      obtain ⟨p, hrun⟩ := h.endsWith_recoverOperation hpending hblocked
      have hawake := h.current.awake (.inr (by simp [hpending])) hnofail
      refine ⟨p, .resultRecording, w, h.endsWith_runOnce hawake ?_⟩
      rw [hpending]
      exact hrun
  | none =>
      cases hresponse : v.response with
      | none => simp [View.Blocked, hpending, hresponse] at hblocked
      | some response =>
          have hclosed : v.closed = false := by
            have := hblocked
            simp only [View.Blocked, hpending, hresponse] at this
            exact this.1
          have hawake := h.current.awake (.inl hclosed) hnofail
          cases hfound : lastOfType (recoverableTurn w.log).2 "model.completed" with
          | none =>
              have := h.not_resumed hfound (by simp [hresponse])
              rw [hclosed] at this
              cases this
          | some found =>
              obtain ⟨heq, hvresponse, _⟩ := h.resumed hfound
              have hreconcile : EndsWith cfg (reconcileRequest cfg
                  (lastOfType (recoverableTurn w.log).2 "model.requested") found) w (.ok ()) w := by
                unfold reconcileRequest
                split
                next request _ =>
                  exact .step (r := (.ok () : Except String Unit)) ⟨w.log, .refl _, rfl⟩ (.refl _ _)
                next => exact endsWith_pure _
              obtain ⟨p, q, w', hdecide⟩ := h.endsWith_decideTurn hpending hvresponse hblocked w.log
                (turnEvents w.log t) (by rw [← h.current.view]; rfl)
                (lastOfType (turnEvents w.log t) "capability.manifest.compiled")
              refine ⟨p, q, w', h.endsWith_runOnce hawake ?_⟩
              rw [hpending]
              unfold advanceTurn
              dsimp only
              rw [hfound]
              refine endsWith_bind hreconcile ?_
              rw [heq]
              exact hdecide

/-- An agent that has failed does nothing more. -/
theorem keeps_failed (h : At cfg w t v) (hfailed : HasFailed w.log) :
    Keeps cfg (fun _ _ => False) (fun _ w' => HasFailed w'.log) (runOnce cfg) w := by
  refine keeps_bind (keeps_events h) ?_
  rintro es w₁ ⟨rfl, hat, hgrow, _⟩
  obtain ⟨e, he, htype⟩ := hfailed
  have hmem := hgrow.mem he
  rw [if_neg hat.current.nonempty, if_pos (.inl ⟨e, hmem, by simp [htype]⟩)]
  exact keeps_pure ⟨e, hmem, htype⟩

end runs

/-! ### A loop that writes a file -/

/-- The command of every response. -/
def writeFile : AgentAction where
  type := .callTool
  reason := "write the report"
  toolName := some "write_file"
  toolArgs := []
  receiver := none
  message := []
  artifact := []
  toolName_given := by decide
  receiver_given := by decide
  artifact_given := by decide

/-- A worker that may write one file. -/
def writer : AgentConfig where
  agentId := "generalist"
  contract := some
    { goal := "report", exitCriteria := ["written"], outputSchema := [], budgets := { toolCalls := some 1 },
      version_pos := defaultVersion_pos }
  spec := fun name => if name = "write_file" then some { name := name } else none
  authorize := fun request => .ok (request.call, { name := "write_file" })
  parseJson := fun _ => some (.dict writeFile.dump)
  manifestNames := fun _ => .ok []

/-- The time of every event. -/
def writing : DateTime := ⟨43200000000, some 0⟩

/-- The model answers, the tool succeeds and nobody else writes. -/
def writeStrategy : @Strategy loopInterface LoopWorld (loopStep writer) where
  act
    | .events, w => some (w.log, w)
    | .append type payload causationId, w => some (w.appended writer type payload causationId writing)
    | .pipeline op, w => (happyStep.act op w.pipe).map (fun r => (r.1, { w with pipe := r.2 }))
    | .buildMessages _, w => some (.ok { count := 1, promptHash := "", manifest := none }, w)
    | .complete _, w => some (.ok { content := "" }, w)
    | _, _ => none
  sound := by
    intro op w r h
    refine ⟨w.log, .refl _, ?_⟩
    cases op with
    | events => cases h; exact ⟨rfl, rfl⟩
    | append type payload cause => cases h; exact ⟨writing, rfl⟩
    | pipeline op =>
        obtain ⟨out, hact, rfl⟩ := Option.map_eq_some_iff.mp h
        exact ⟨out.2, happyStep.sound hact, rfl⟩
    | buildMessages _ => cases h; rfl
    | complete _ => cases h; rfl
    | _ => cases h

/-- The event that gives the task to its worker. -/
def taskCreated : Event where
  id := "created"
  runId := "run-1"
  taskId := "task-1"
  type := "assignment.created"
  source := "control_plane"
  payload := []
  causationId := none
  createdAt := writing

/-- The task as its worker finds it. -/
def assigned : LoopWorld where
  log := [taskCreated]
  pipe := { ledger := .empty true, drawn := 0 }

/-- The worker has died after some steps of its first turn. -/
def died (steps : ℕ) : LoopWorld := (writeStrategy.after steps (runOnce writer) assigned).2

theorem survives_died (steps : ℕ) : Survives writer (died steps) := by
  have hseed : ForeignGrowth [] assigned.log :=
    .step (.refl _) ⟨by decide, fun htype => absurd htype (by decide)⟩
  exact .died (.seed true (by simp [assigned]) hseed) (writeStrategy.after_reaches _ _ _)

/-- What the next run of a new worker leaves behind. -/
def resumed (steps : ℕ) : LoopWorld :=
  (writeStrategy.after 40 (runOnce writer) (died steps).restarted).2

/-! ### The last step -/

/-- The last step of the loop leaves its turn where no run can enter it. -/
def Stranded (log : List Event) : Prop :=
  ∃ e ∈ lastStep log, e.Strands (turnClosed log e.turn)

instance (log : List Event) : Decidable (Stranded log) :=
  inferInstanceAs (Decidable (∃ e ∈ lastStep log, _))

variable {cfg : AgentConfig} {w : LoopWorld} {t : String} {v : View}

theorem At.blocked_iff_stranded (h : At cfg w t v) : v.Blocked ↔ Stranded w.log := by
  have hclosed : turnClosed w.log t = v.closed := by
    rw [← h.current.view]
    rfl
  rw [h.linked.blocked]
  constructor
  · rintro ⟨e, he, hstrands⟩
    exact ⟨e, he, by rwa [h.linked.turn e he, hclosed]⟩
  · rintro ⟨e, he, hstrands⟩
    rw [h.linked.turn e he, hclosed] at hstrands
    exact ⟨e, he, hstrands⟩

/-- **Recovery of a turn.**  A new process over the log and the ledger that survive a crash meets
no illegal transition exactly when the agent has failed or the last step strands no turn. -/
theorem recovers_iff_not_stranded (h : Survives cfg w) :
    (∀ out w', Runs (loopStep cfg) (runOnce cfg) w.restarted out w' →
      ∀ p q, out ≠ .error (.illegalTransition p q)) ↔ HasFailed w.log ∨ ¬ Stranded w.log := by
  obtain ⟨t, v, hat⟩ := h.restarted.loopOk
  constructor
  · intro hlegal
    by_contra hnot
    obtain ⟨hfailed, hstranded⟩ := not_or.mp hnot
    have hblocked := hat.blocked_iff_stranded.mpr (not_not.mp hstranded)
    obtain ⟨p, q, w', hrun⟩ := hat.refused hblocked hfailed
    exact hlegal _ w' hrun p q rfl
  · rintro hcond out w' hrun p q rfl
    rcases hcond with hfailed | hstranded
    · exact (keeps_failed hat hfailed).ends ⟨t, v, hat⟩ hrun
    · have hopen := mt hat.blocked_iff_stranded.mp hstranded
      have hkeeps := keeps_runOnce (B := False) (C := True) hat (fun _ => hopen)
        (fun _ => absurd trivial)
      exact (hkeeps.ends ⟨t, v, hat⟩ hrun).1 not_false p q rfl

/-- A worker that died with its command persisted goes on. -/
theorem recovers_after_command : Survives writer (died 13) ∧
    ∀ out w', Runs (loopStep writer) (runOnce writer) (died 13).restarted out w' →
      ∀ p q, out ≠ .error (.illegalTransition p q) :=
  ⟨survives_died 13,
    (recovers_iff_not_stranded (survives_died 13)).mpr (.inr (by decide +kernel))⟩

/-- A worker that died between the phase of the decision and the command is refused. -/
theorem refused_while_deciding :
    ∃ cfg w, Survives cfg w ∧ ∃ p q w',
      Runs (loopStep cfg) (runOnce cfg) w.restarted (.error (.illegalTransition p q)) w' := by
  refine ⟨writer, died 11, survives_died 11, .decisionValidating, .decisionValidating, resumed 11, ?_⟩
  refine writeStrategy.runs_of_result (n := 40) ?_
  decide +kernel

/-- A succeeded operation is in its result phase without a settlement. -/
def HalfRecorded (w : LoopWorld) : Prop :=
  ∃ u ∈ unresolvedOperation w.log, ∃ r ∈ u.operation.asStr.bind w.pipe.ledger.records.lookup,
    r.state = .succeeded ∧
      (lastPhaseEvent w.log u.turn).map Event.phase = some (some .resultRecording)

instance (w : LoopWorld) : Decidable (HalfRecorded w) :=
  inferInstanceAs (Decidable (∃ u ∈ unresolvedOperation w.log, ∃ r ∈ Option.bind _ _, _))

/-- **Recording of results.**  A new process leaves every operation that succeeded in the ledger
with exactly one result and one settlement that names it, unless the agent has failed, exactly
when no succeeded operation is half recorded. -/
theorem records_iff_not_halfRecorded (h : Survives cfg w) :
    (∀ out w', Runs (loopStep cfg) (runOnce cfg) w.restarted out w' →
      HasFailed w'.log ∨ AllRecorded w') ↔ HasFailed w.log ∨ ¬ HalfRecorded w.restarted := by
  obtain ⟨t, v, hat⟩ := h.restarted.loopOk
  have hself : ¬ transitionAllowed .resultRecording .resultRecording := by decide
  have hhalf : HalfRecorded w.restarted ↔ ¬ Unsettled w.restarted v ∧ v.Blocked := by
    constructor
    · rintro ⟨u, hu, r, hr, hstate, hphase⟩
      have hu := hat.current.pending_eq.symm.trans hu
      obtain ⟨hturn, ⟨id, hop⟩, _⟩ := hat.current.pending u hu
      have hlook : w.restarted.pipe.ledger.records.lookup id = some r := by
        rw [hop] at hr
        exact hr
      refine ⟨fun hunsettled => hunsettled u id r hu hop hlook hstate, ?_⟩
      rw [View.blocked_of_pending hu]
      intro hcan
      have hview : v.phase = some (some .resultRecording) := by
        rw [← hphase, hturn, ← hat.current.view]
        rfl
      exact hself (hcan _ hview)
    · rintro ⟨hsettled, hblocked⟩
      unfold Unsettled at hsettled
      push Not at hsettled
      obtain ⟨u, id, r, hu, hop, hlook, hstate⟩ := hsettled
      obtain ⟨hturn, _, _, hstage⟩ := hat.current.pending u hu
      rw [View.blocked_of_pending hu] at hblocked
      refine ⟨u, hat.current.pending_eq.trans hu, r, by rw [hop]; exact hlook, hstate, ?_⟩
      rcases hstage with ⟨hexecuting, _⟩ | hphase
      · exfalso
        apply hblocked
        intro q hq
        rw [hexecuting] at hq
        obtain rfl := Option.some.inj (Option.some.inj hq)
        decide
      · rw [hturn, ← hphase, ← hat.current.view]
        rfl
  constructor
  · intro hrecorded
    by_contra hnot
    obtain ⟨hfailed, hhalf'⟩ := not_or.mp hnot
    obtain ⟨hsettled, hblocked⟩ := hhalf.mp (not_not.mp hhalf')
    unfold Unsettled at hsettled
    push Not at hsettled
    obtain ⟨u, id, r, hu, hop, hlook, hstate⟩ := hsettled
    -- the recovery fails and the settlement is still missing
    obtain ⟨p, hrecover⟩ := hat.endsWith_recoverOperation hu hblocked
    have hawake := hat.current.awake (.inr (by simp [hu]))
      (fun a ha htype => hfailed ⟨a, ha, htype⟩)
    have hrun := hat.endsWith_runOnce hawake (by rw [hu]; exact hrecover)
    rcases hrecorded _ _ hrun with hfailed' | hall
    · exact hfailed hfailed'
    · obtain ⟨c, s, _, hsettlement, _⟩ := hall id r hlook hstate
      have := hat.recorded.unsettled u hu
      rw [hop, hsettlement] at this
      cases this
  · intro hcond out w' hrun
    rcases hcond with hfailed | hhalf'
    · have hends := (keeps_failed hat hfailed).ends ⟨t, v, hat⟩ hrun
      cases out with
      | ok _ => exact .inl hends
      | error e => exact absurd hends id
    · have hdone : v.Blocked → ¬ False → Unsettled w.restarted v := by
        intro hblocked _
        by_contra hunsettled
        exact hhalf' (hhalf.mpr ⟨hunsettled, hblocked⟩)
      have hkeeps := keeps_runOnce (B := True) hat (absurd trivial) hdone
      have hends := hkeeps.ends ⟨t, v, hat⟩ hrun
      cases out with
      | ok _ => exact hends
      | error e => exact .inr (hends.2 not_false)

/-- A worker that died when the ledger knew of the success and the log did not. -/
theorem records_after_success : Survives writer (died 26) ∧
    ∀ out w', Runs (loopStep writer) (runOnce writer) (died 26).restarted out w' →
      HasFailed w'.log ∨ AllRecorded w' :=
  ⟨survives_died 26,
    (records_iff_not_halfRecorded (survives_died 26)).mpr (.inr (by decide +kernel))⟩

/-- A worker that died between the result and its settlement never settles it. -/
theorem unsettled_after_result :
    ∃ cfg w, Survives cfg w ∧ ∃ out w', Runs (loopStep cfg) (runOnce cfg) w.restarted out w' ∧
      ¬ HasFailed w'.log ∧ ¬ AllRecorded w' := by
  refine ⟨writer, died 28, survives_died 28,
    .error (.illegalTransition .resultRecording .resultRecording), resumed 28, ?_, ?_, ?_⟩
  · refine writeStrategy.runs_of_result (n := 40) ?_
    decide +kernel
  · show ¬ ∃ e ∈ _, _
    decide +kernel
  · intro hall
    have hstate : ((resumed 28).pipe.ledger.records.lookup (newOperationId 0)).map
        OperationRecord.state = some .succeeded := by
      decide +kernel
    obtain ⟨r, hlook, hsucceeded⟩ := Option.map_eq_some_iff.mp hstate
    obtain ⟨_, s, _, hsettled, _⟩ := hall _ r hlook hsucceeded
    have hnone : (settlements (resumed 28).log (.str (newOperationId 0))).length = 0 := by
      decide +kernel
    rw [hsettled] at hnone
    cases hnone

/-- **The tool-call budget**: no log of the loop starts more operations than the contract allows. -/
theorem startCount_le_budget (h : Survives cfg w) {n : ℕ}
    (hbudget : cfg.contract.bind AssignmentContract.toolCalls = some (n : ℤ)) :
    startCount w.log ≤ n := by
  obtain ⟨t, v, hat⟩ := h.loopOk
  rw [hat.starts_eq]
  exact hat.recorded.budget n hbudget

/-- The worker has started the one operation it may start. -/
theorem startCount_died : startCount (died 30).log = 1 ∧ startCount (died 30).log ≤ 1 :=
  ⟨by decide +kernel, startCount_le_budget (n := 1) (survives_died 30) rfl⟩

end CrazyHarness
