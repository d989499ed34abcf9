import CrazyHarness.Agents.Loop

/-! # Where a loop stands

`turnView` reads from a log everything that decides how `run_once` goes on in a turn, `View.after`
is what one more event of the turn does to it.  `At` is the invariant of a loop: the log stands
in the turn `t` as the view says, the ledger and the log agree on every operation, and the last
step of the loop tells whether the turn can still be entered.

* `At.wrote`: what the loop must know to append an event.
* `At.foreign`: the events of others change nothing.
* `At.newTurn`: a turn may begin when the one before holds no response or has an outcome. -/

namespace CrazyHarness

open Lib OperationLedger

/-! ### The view of a turn -/

/-- The results recorded for an operation. -/
def completions (events : List Event) (operation : Json) : List Event :=
  events.filter (fun e => e.type = "tool.completed" ∧ e.operation = operation)

/-- The settlements recorded for an operation. -/
def settlements (events : List Event) (operation : Json) : List Event :=
  events.filter (fun e => e.type = "operation.completed" ∧ e.operation = operation)

/-- The turn as its log shows it, with the operation that has not ended, its results and the
number of operations of the log. -/
structure View where
  phase : Option (Option LoopPhase) := none
  response : Option Event := none
  command : Option Event := none
  closed : Bool := false
  executed : Bool := false
  pending : Option Event := none
  results : List Event := []
  starts : ℕ := 0

/-- The tool phase of the turn has begun. -/
def turnExecuted (events : List Event) (turn : String) : Bool :=
  (turnEvents events turn).any
    (fun e => e.type = "loop.phase.changed" ∧ e.phase = some .actionExecuting)

/-- How many operations a log has started. -/
def startCount (events : List Event) : ℕ := events.countP (fun e => e.type = "operation.started")

/-- The view of a turn. -/
def turnView (events : List Event) (turn : String) : View where
  phase := (lastPhaseEvent events turn).map Event.phase
  response := lastOfType (turnEvents events turn) "model.completed"
  command := lastOfType (turnEvents events turn) "agent.command.validated"
  closed := turnClosed events turn
  executed := turnExecuted events turn
  pending := unresolvedOperation events
  results := (unresolvedOperation events).elim [] (fun u => completions events u.operation)
  starts := startCount events

namespace View

/-- The view after one more event of the turn. -/
def after (v : View) (e : Event) : View where
  phase := if e.type = "loop.phase.changed" then some e.phase else v.phase
  response := if e.type = "model.completed" then some e else v.response
  command := if e.type = "agent.command.validated" then some e else v.command
  closed := v.closed || decide (e.type ∈ turnCompletedEvents)
  executed := v.executed || decide (e.type = "loop.phase.changed" ∧ e.phase = some .actionExecuting)
  pending :=
    if e.type = "operation.started" then some e
    else if e.type ∈ operationEnds then none else v.pending
  results :=
    if e.type = "operation.started" ∨ e.type ∈ operationEnds then []
    else if e.type = "tool.completed" then v.results ++ [e] else v.results
  starts := if e.type = "operation.started" then v.starts + 1 else v.starts

/-- No recorded phase forbids the next one. -/
def CanEnter (v : View) (p : LoopPhase) : Prop := ∀ q, v.phase = some (some q) → transitionAllowed q p

/-- The first phase that `run_once` would enter is forbidden. -/
def Blocked (v : View) : Prop :=
  match v.pending, v.response with
  | some _, _ => ¬ v.CanEnter .resultRecording
  | none, none => False
  | none, some r =>
      v.closed = false ∧
        ¬ v.CanEnter (if incompleteFinish r then .failed
          else if v.command.isSome then .actionAuthorizing else .decisionValidating)

end View

/-! ### The last step -/

/-- The last event of the loop but the markers of reuse. -/
def lastStep (events : List Event) : Option Event :=
  events.reverse.find? (fun e =>
    e.type ∈ loopTypes ∧ e.type ∉ ["model.response.reused", "agent.command.reused"])

/-- A step after which the turn, closed or not, cannot be entered again. -/
def Event.Strands (e : Event) (closed : Bool) : Prop :=
  e.type ∈ ["tool.completed", "tool.failed"] ∨
    closed = false ∧
      (e.type ∈ ["completion.gate.passed", "completion.gate.failed", "operation.failed"] ∨
        e.type = "loop.phase.changed" ∧
          e.phase ∉ [some .contextBuilding, some .modelCalling])

instance (e : Event) (closed : Bool) : Decidable (e.Strands closed) :=
  inferInstanceAs (Decidable (_ ∨ _ ∧ _))

theorem lastStep_append (events : List Event) (e : Event) :
    lastStep (events ++ [e]) =
      if e.type ∈ loopTypes ∧ e.type ∉ ["model.response.reused", "agent.command.reused"] then some e
      else lastStep events := by
  unfold lastStep
  rw [List.reverse_append, List.reverse_singleton, List.singleton_append, List.find?_cons]
  by_cases h : e.type ∈ loopTypes ∧ e.type ∉ ["model.response.reused", "agent.command.reused"]
  · simp [h]
  · rw [if_neg h, decide_eq_false h]

/-! ### The invariant -/

/-- An operation has one result and one settlement, and the settlement names the result. -/
def RecordedOnce (events : List Event) (operation : Json) : Prop :=
  ∃ completed settled, completions events operation = [completed] ∧
    settlements events operation = [settled] ∧
    settled.get? "result_event_id" = some (.str completed.id) ∧
    settled.causationId = some completed.id

/-- The phases that may follow the tool phase. -/
def laterPhases : List (Option LoopPhase) :=
  [some .resultRecording, some .waiting, some .submitted, some .failed]

/-- The phases of a turn whose tool phase has begun. -/
def latePhases : List (Option LoopPhase) := some .actionExecuting :: laterPhases

/-- The log stands in turn `t` as `v` says. -/
structure Current (log : List Event) (t : String) (v : View) : Prop where
  nonempty : log ≠ []
  named : ∃ n, t = turnId n
  view : turnView log t = v
  numbered : ∀ e ∈ log, e.type ∈ loopTypes →
    (e.get? "turn_id").isSome ∧ (e.turn = t ∨ turnNumber e.turn < turnNumber t)
  older : ∀ t' ≠ t, (lastOfType (turnEvents log t') "model.completed").isSome →
    turnClosed log t' = true
  commanded : ∀ t', (lastOfType (turnEvents log t') "agent.command.validated").isSome →
    ∃ r, lastOfType (turnEvents log t') "model.completed" = some r ∧ incompleteFinish r = false
  commands : ∀ e ∈ log, e.type = "agent.command.validated" →
    ∃ a : AgentAction, e.get? "command" = some (.dict a.dump)
  unresolved : ∀ u, Unresolved log u → ∃ p, v.pending = some p ∧ u.operation = p.operation
  pending : ∀ p, v.pending = some p → p.turn = t ∧ (∃ id, p.operation = .str id) ∧
    v.command.isSome ∧
    (v.phase = some (some .actionExecuting) ∧ v.closed = false ∧ v.results = [] ∨
      v.phase = some (some .resultRecording))
  ends : ∀ e ∈ log, e.type ∈ operationEnds →
    ∃ u ∈ log, u.type = "operation.started" ∧ u.operation = e.operation
  awake : v.closed = false ∨ v.pending.isSome → (∀ e ∈ log, e.type ≠ "agent.failed") → ¬ AtRest log
  late : v.executed = true → ∃ p ∈ latePhases, v.phase = some p
  phased : v.phase ≠ some none

/-- The ledger and the log agree. -/
structure Recorded (cfg : AgentConfig) (log : List Event) (pipe : PipelineWorld) (v : View) :
    Prop where
  ledger : LedgerOk pipe.ledger pipe.drawn
  drawn : ∀ u ∈ log, u.type = "operation.started" →
    ∃ m < pipe.drawn, u.operation = .str (newOperationId m)
  keyed : ∀ id r, pipe.ledger.records.lookup id = some r →
    ∃ (n : ℤ) (tool : String), r.idempotencyKey = cfg.callKey (turnId n) tool ∧
      turnExecuted log (turnId n) = true
  started : ∀ id r, pipe.ledger.records.lookup id = some r → r.state = .succeeded →
    r.result.isSome ∧ ∃ u ∈ log, u.type = "operation.started" ∧ u.operation = .str id
  recorded : ∀ id r, pipe.ledger.records.lookup id = some r → r.state = .succeeded →
    (∀ p, v.pending = some p → p.operation ≠ .str id) → RecordedOnce log (.str id)
  unstarted : ∀ o, (∀ u ∈ log, u.type = "operation.started" → u.operation ≠ o) →
    completions log o = [] ∧ settlements log o = []
  unsettled : ∀ p, v.pending = some p → settlements log p.operation = []
  piped : cfg.hasPipeline = false → ∀ id, pipe.ledger.records.lookup id = none
  budget : ∀ n : ℕ, cfg.contract.bind AssignmentContract.toolCalls = some (n : ℤ) → v.starts ≤ n

/-- How many events of a type a turn has. -/
def turnCount (events : List Event) (type turn : String) : ℕ :=
  (turnEvents events turn).countP (fun e => e.type = type)

/-- The types of which a turn has at most one event. -/
def singleTypes : List String := ["model.completed", "agent.command.validated", "operation.started"]

/-- No turn decides or starts anything twice, and the events of the loop have identifiers of
their own. -/
structure TurnsOnce (log : List Event) (drawn : ℕ) (t : String) (v : View) : Prop where
  single : ∀ type ∈ singleTypes, ∀ t', turnCount log type t' ≤ 1
  executed : ∀ t', turnExecuted log t' = false → turnCount log "operation.started" t' = 0
  unstarted : v.phase = some (some .actionExecuting) → v.pending = none →
    turnCount log "operation.started" t = 0
  caused : ∀ u ∈ log, u.type = "operation.started" → ∃ c ∈ log,
    c.type = "agent.command.validated" ∧ c.turn = u.turn ∧ u.causationId = some c.id
  identified : ∀ e ∈ log, e.type ∈ loopTypes → ∃ m < drawn, e.id = uuid4 m
  distinct : ((log.filter (fun e => e.type ∈ loopTypes)).map Event.id).Nodup

/-- The last step tells whether the turn can be entered. -/
structure Linked (log : List Event) (t : String) (v : View) : Prop where
  turn : ∀ e, lastStep log = some e → e.turn = t
  blocked : v.Blocked ↔ ∃ e, lastStep log = some e ∧ e.Strands v.closed

/-- The loop stands in turn `t` as `v` says. -/
structure At (cfg : AgentConfig) (w : LoopWorld) (t : String) (v : View) : Prop where
  current : Current w.log t v
  recorded : Recorded cfg w.log w.pipe v
  linked : Linked w.log t v
  once : TurnsOnce w.log w.drawn t v

/-- What every reachable state keeps. -/
def LoopOk (cfg : AgentConfig) (w : LoopWorld) : Prop := ∃ t v, At cfg w t v

/-! ### One more event of the turn -/

/-- What the loop must know to append an event of its turn. -/
structure View.Admits (cfg : AgentConfig) (v : View) (w : LoopWorld) (e : Event) : Prop where
  start : e.type = "operation.started" → v.pending = none ∧ v.closed = false ∧
    (∃ c, v.command = some c ∧ e.causationId = some c.id) ∧
    v.phase = some (some .actionExecuting) ∧
    (∃ m < w.pipe.drawn, e.operation = .str (newOperationId m)) ∧
    ∀ u ∈ w.log, u.type = "operation.started" → u.operation ≠ e.operation
  budget : e.type = "operation.started" → ∀ n : ℕ,
    cfg.contract.bind AssignmentContract.toolCalls = some (n : ℤ) → v.starts < n
  result : e.type = "tool.completed" ∨ e.type = "tool.failed" →
    v.phase = some (some .resultRecording) ∧ ∃ p, v.pending = some p ∧ p.operation = e.operation
  ending : e.type ∈ operationEnds → v.phase = some (some .resultRecording) ∧
    ∃ p, v.pending = some p ∧ p.operation = e.operation ∧
      ∀ id r, p.operation = .str id → w.pipe.ledger.records.lookup id = some r →
        r.state = .succeeded → e.type = "operation.completed"
  settlement : e.type = "operation.completed" → ∃ c, v.results = [c] ∧
    e.get? "result_event_id" = some (.str c.id) ∧ e.causationId = some c.id
  response : e.type = "model.completed" → v.response = none ∧ v.command = none
  command : e.type = "agent.command.validated" → v.command = none ∧
    (∃ r, v.response = some r ∧ incompleteFinish r = false) ∧
    ∃ a : AgentAction, e.get? "command" = some (.dict a.dump)
  outcome : e.type ∈ turnCompletedEvents →
    e.type ∉ ["tool.completed", "tool.failed", "operation.unknown"] → v.pending = none
  phase : e.type = "loop.phase.changed" → e.phase ≠ none ∧
    (v.executed = true → e.phase ∈ laterPhases) ∧ (v.pending.isSome → e.phase = some .resultRecording)
  link : e.type ∉ ["model.response.reused", "agent.command.reused"] →
    ((v.after e).Blocked ↔ e.Strands (v.after e).closed)

theorem completions_append (events : List Event) (e : Event) (o : Json) :
    completions (events ++ [e]) o =
      completions events o ++ if e.type = "tool.completed" ∧ e.operation = o then [e] else [] := by
  unfold completions
  rw [List.filter_append]
  by_cases h : e.type = "tool.completed" ∧ e.operation = o <;> simp [h]

theorem settlements_append (events : List Event) (e : Event) (o : Json) :
    settlements (events ++ [e]) o =
      settlements events o ++
        if e.type = "operation.completed" ∧ e.operation = o then [e] else [] := by
  unfold settlements
  rw [List.filter_append]
  by_cases h : e.type = "operation.completed" ∧ e.operation = o <;> simp [h]

theorem turnExecuted_append (events : List Event) (e : Event) (turn : String) :
    turnExecuted (events ++ [e]) turn =
      (turnExecuted events turn || decide (e.turn = turn ∧ e.type = "loop.phase.changed" ∧
        e.phase = some .actionExecuting)) := by
  unfold turnExecuted
  rw [turnEvents_append]
  by_cases h : e.turn = turn <;> simp [h]

theorem startCount_append (events : List Event) (e : Event) :
    startCount (events ++ [e]) =
      if e.type = "operation.started" then startCount events + 1 else startCount events := by
  unfold startCount
  rw [List.countP_append, List.countP_singleton]
  by_cases h : e.type = "operation.started" <;> simp [h]

theorem turnCount_append (events : List Event) (e : Event) (type turn : String) :
    turnCount (events ++ [e]) type turn =
      if e.turn = turn ∧ e.type = type then turnCount events type turn + 1
      else turnCount events type turn := by
  unfold turnCount
  rw [turnEvents_append]
  by_cases h : e.turn = turn
  · rw [if_pos h, List.countP_append, List.countP_singleton]
    by_cases htype : e.type = type <;> simp [h, htype]
  · rw [if_neg h, if_neg (fun hc => h hc.1)]

/-- A turn without a last event of a type has none. -/
theorem turnCount_eq_zero {events : List Event} {type turn : String}
    (h : lastOfType (turnEvents events turn) type = none) : turnCount events type turn = 0 := by
  rw [turnCount, List.countP_eq_zero]
  intro e he
  have := List.find?_eq_none.mp h e (List.mem_reverse.mpr he)
  simpa using this

section wrote

variable {log : List Event} {t : String} {v : View} {w : LoopWorld} {e : Event} {cfg : AgentConfig}

/-- An operation that has just been started is the unresolved one. -/
theorem unresolvedOperation_append_start (hstart : e.type = "operation.started")
    (hnew : e.operation ∉ endedOperations log) : unresolvedOperation (log ++ [e]) = some e := by
  have hended : endedOperations (log ++ [e]) = endedOperations log := by
    rw [endedOperations_append, hstart]
    simp [operationEnds]
  unfold unresolvedOperation
  rw [hended, List.reverse_append, List.reverse_singleton, List.singleton_append,
    List.find?_cons_of_pos]
  simpa using ⟨hstart, hnew⟩

/-- The end of the only unresolved operation leaves none. -/
theorem unresolvedOperation_append_end (hend : e.type ∈ operationEnds)
    (honly : ∀ u, Unresolved log u → u.operation = e.operation) :
    unresolvedOperation (log ++ [e]) = none := by
  rw [unresolvedOperation_eq_none_iff]
  rintro u ⟨hu, hstart, hended⟩
  rw [endedOperations_append, if_pos hend, List.mem_append, not_or, List.mem_singleton] at hended
  rcases List.mem_append.mp hu with hu | hu
  · exact hended.2 (honly u ⟨hu, hstart, hended.1⟩)
  · rw [List.mem_singleton.mp hu] at hended
    exact hended.2 rfl

theorem Current.pending_eq (h : Current log t v) : unresolvedOperation log = v.pending := by
  rw [← h.view]
  rfl

theorem Current.results_eq (h : Current log t v) {p : Event} (hp : v.pending = some p) :
    v.results = completions log p.operation := by
  have := h.pending_eq
  rw [← h.view]
  simp only [turnView, this, hp, Option.elim_some]

/-- A new operation has no end yet. -/
theorem Current.not_ended (h : Current log t v) {o : Json}
    (hnew : ∀ u ∈ log, u.type = "operation.started" → u.operation ≠ o) :
    o ∉ endedOperations log := by
  intro ho
  obtain ⟨a, ha, rfl⟩ := List.mem_map.mp ho
  rw [List.mem_filter, decide_eq_true_eq] at ha
  obtain ⟨u, hu, hstart, heq⟩ := h.ends a ha.1 ha.2
  exact hnew u hu hstart heq

/-- The unresolved operation after one more event. -/
theorem Current.unresolved_append (h : Current w.log t v) (hadm : v.Admits cfg w e) :
    unresolvedOperation (w.log ++ [e]) = (v.after e).pending := by
  unfold View.after
  dsimp only
  by_cases hstart : e.type = "operation.started"
  · rw [if_pos hstart]
    obtain ⟨_, _, _, _, _, hnew⟩ := hadm.start hstart
    exact unresolvedOperation_append_start hstart (h.not_ended hnew)
  · rw [if_neg hstart]
    by_cases hend : e.type ∈ operationEnds
    · rw [if_pos hend]
      obtain ⟨_, p, hp, hop, _⟩ := hadm.ending hend
      refine unresolvedOperation_append_end hend ?_
      intro u hu
      obtain ⟨p', hp', hop'⟩ := h.unresolved u hu
      rw [hp] at hp'
      cases hp'
      exact hop'.trans hop
    · rw [if_neg hend, unresolvedOperation_append_other hstart (fun hc => absurd hc hend),
        h.pending_eq]

theorem At.view_append (h : At cfg w t v) (hturn : e.turn = t) (hadm : v.Admits cfg w e) :
    turnView (w.log ++ [e]) t = v.after e := by
  have hpending := h.current.unresolved_append hadm
  have hresults : (unresolvedOperation (w.log ++ [e])).elim []
      (fun u => completions (w.log ++ [e]) u.operation) = (v.after e).results := by
    rw [hpending]
    unfold View.after
    dsimp only
    by_cases hstart : e.type = "operation.started"
    · -- nothing is recorded yet for a new operation
      obtain ⟨_, _, _, _, _, hnew⟩ := hadm.start hstart
      simp [hstart, completions_append, (h.recorded.unstarted e.operation hnew).1]
    · by_cases hend : e.type ∈ operationEnds
      · simp [hstart, hend]
      · rw [if_neg hstart, if_neg hend, if_neg (fun hor => hor.elim hstart hend)]
        cases hp : v.pending with
        | none =>
            have hv := h.current.view
            have hnone : v.results = [] := by
              rw [← hv]
              simp [turnView, h.current.pending_eq, hp]
            have hcomp : e.type ≠ "tool.completed" := by
              intro hc
              obtain ⟨_, p, hp', _⟩ := hadm.result (.inl hc)
              rw [hp] at hp'
              cases hp'
            simp [hnone, hcomp]
        | some p =>
            rw [Option.elim_some, completions_append, ← h.current.results_eq hp]
            by_cases hc : e.type = "tool.completed"
            · obtain ⟨_, p', hp', hop⟩ := hadm.result (.inl hc)
              rw [hp] at hp'
              cases hp'
              simp [hc, hop]
            · simp [hc]
  have hview := h.current.view
  unfold turnView at hview ⊢
  rw [hresults, hpending]
  subst hview
  unfold View.after
  simp only [lastPhaseEvent_append, turnEvents_append, hturn, if_true, lastOfType_append,
    turnClosed_append, turnExecuted_append, startCount_append, and_true, true_and]
  congr 1
  split <;> rfl

/-- The events of the log and one more. -/
theorem forall_mem_append_singleton {P : Event → Prop} (h : ∀ a ∈ log, P a) (he : P e) :
    ∀ a ∈ log ++ [e], P a := by
  intro a ha
  rcases List.mem_append.mp ha with ha | ha
  · exact h a ha
  · rw [List.mem_singleton.mp ha]
    exact he

/-- An unresolved operation of the longer log is one of the log or the new event. -/
theorem unresolved_append_cases {u : Event} (hu : Unresolved (log ++ [e]) u) :
    (u = e ∧ e.type = "operation.started") ∨
      (Unresolved log u ∧ (e.type ∈ operationEnds → u.operation ≠ e.operation)) := by
  obtain ⟨hmem, hstart, hended⟩ := hu
  rw [endedOperations_append, List.mem_append, not_or] at hended
  rcases List.mem_append.mp hmem with hmem | hmem
  · refine .inr ⟨⟨hmem, hstart, hended.1⟩, ?_⟩
    intro hend heq
    rw [if_pos hend, List.mem_singleton] at hended
    exact hended.2 heq
  · rw [List.mem_singleton.mp hmem] at hstart ⊢
    exact .inl ⟨rfl, hstart⟩

/-- Other turns do not see the events of this one. -/
theorem turnEvents_append_ne {t' : String} (hturn : e.turn = t) (hne : t' ≠ t) :
    turnEvents (log ++ [e]) t' = turnEvents log t' := by
  rw [turnEvents_append, if_neg]
  intro h
  exact hne (h.symm.trans hturn)

theorem View.Admits.pending_after (hadm : v.Admits cfg w e) (h : Current w.log t v) (hturn : e.turn = t)
    {p : Event} (hp : (v.after e).pending = some p) :
    p.turn = t ∧ (∃ id, p.operation = .str id) ∧ (v.after e).command.isSome ∧
      ((v.after e).phase = some (some .actionExecuting) ∧ (v.after e).closed = false ∧
          (v.after e).results = [] ∨
        (v.after e).phase = some (some .resultRecording)) := by
  have hcommand : v.command.isSome → (v.after e).command.isSome := by
    intro hc
    simp only [View.after]
    split
    · rfl
    · exact hc
  by_cases hstart : e.type = "operation.started"
  · obtain ⟨_, hclosed, ⟨c, hcmd, _⟩, hphase, ⟨m, _, hop⟩, _⟩ := hadm.start hstart
    simp only [View.after, hstart, if_true, Option.some.injEq] at hp
    subst hp
    refine ⟨hturn, ⟨_, hop⟩, hcommand (by simp [hcmd]), .inl ⟨?_, ?_, ?_⟩⟩
    · simp [View.after, hstart, hphase]
    · simp [View.after, hstart, hclosed, turnCompletedEvents]
    · simp [View.after, hstart]
  · by_cases hend : e.type ∈ operationEnds
    · simp [View.after, hstart, hend] at hp
    · have hpv : v.pending = some p := by simpa [View.after, hstart, hend] using hp
      obtain ⟨hpt, hid, hcmd, hstage⟩ := h.pending p hpv
      refine ⟨hpt, hid, hcommand hcmd, ?_⟩
      by_cases hphase : e.type = "loop.phase.changed"
      · have := (hadm.phase hphase).2.2 (by simp [hpv])
        right
        simp [View.after, hphase, this]
      · rcases hstage with ⟨hex, hclosed, hresults⟩ | hrec
        · -- before the result is recorded nothing closes the turn
          have hnotool : ¬ (e.type = "tool.completed" ∨ e.type = "tool.failed") := by
            intro hc
            have := (hadm.result hc).1
            rw [hex] at this
            cases this
          rw [not_or] at hnotool
          have hopen : e.type ∉ turnCompletedEvents := by
            intro hc
            have hunknown : e.type ≠ "operation.unknown" := by
              intro hu
              exact hend (by simp [hu, operationEnds])
            have := hadm.outcome hc (by simp [hnotool.1, hnotool.2, hunknown])
            rw [this] at hpv
            cases hpv
          left
          simp [View.after, hphase, hex, hclosed, hopen, hstart, hend, hnotool.1, hresults]
        · right
          simp [View.after, hphase, hrec]

theorem At.current_wrote (h : At cfg w t v) (hturn : e.get? "turn_id" = some (.str t))
    (hadm : v.Admits cfg w e) : Current (w.log ++ [e]) t (v.after e) := by
  have het : e.turn = t := by
    have : e.payload.get? "turn_id" = some (.str t) := hturn
    simp [Event.turn, Dict.getD, this]
  have hc := h.current
  have hview := h.view_append het hadm
  refine
    { nonempty := by simp
      named := hc.named
      view := hview
      numbered := ?_
      older := ?_
      commanded := ?_
      commands := ?_
      unresolved := ?_
      pending := fun p hp => hadm.pending_after hc het hp
      ends := ?_
      awake := ?_
      late := ?_
      phased := ?_ }
  · exact forall_mem_append_singleton hc.numbered (fun _ => ⟨by simp [hturn], .inl het⟩)
  · intro t' hne hresponse
    rw [turnEvents_append_ne het hne] at hresponse
    rw [turnClosed_append, hc.older t' hne hresponse, Bool.true_or]
  · intro t' hcommand
    by_cases hne : t' = t
    · subst hne
      rw [turnEvents_append, if_pos het, lastOfType_append] at hcommand ⊢
      by_cases hcmd : e.type = "agent.command.validated"
      · obtain ⟨_, ⟨r, hr, hfin⟩, _⟩ := hadm.command hcmd
        rw [← hc.view] at hr
        rw [if_neg (by simp [hcmd])]
        exact ⟨r, hr, hfin⟩
      · rw [if_neg hcmd] at hcommand
        by_cases hresp : e.type = "model.completed"
        · have := (hadm.response hresp).2
          rw [← hc.view] at this
          rw [show lastOfType (turnEvents w.log t') "agent.command.validated" = none from this]
            at hcommand
          cases hcommand
        · rw [if_neg hresp]
          exact hc.commanded t' hcommand
    · rw [turnEvents_append_ne het hne] at hcommand ⊢
      exact hc.commanded t' hcommand
  · exact forall_mem_append_singleton hc.commands (fun htype => (hadm.command htype).2.2)
  · intro u hu
    rcases unresolved_append_cases hu with ⟨rfl, hstart⟩ | ⟨hu, hother⟩
    · exact ⟨u, by simp [View.after, hstart], rfl⟩
    · obtain ⟨p, hp, hop⟩ := hc.unresolved u hu
      by_cases hstart : e.type = "operation.started"
      · rw [(hadm.start hstart).1] at hp
        cases hp
      · by_cases hend : e.type ∈ operationEnds
        · obtain ⟨_, p', hp', hop', _⟩ := hadm.ending hend
          rw [hp] at hp'
          cases hp'
          exact absurd (hop.trans hop') (hother hend)
        · exact ⟨p, by simpa [View.after, hstart, hend] using hp, hop⟩
  · intro a ha hend
    rcases List.mem_append.mp ha with ha | ha
    · obtain ⟨u, hu, hstart, hop⟩ := hc.ends a ha hend
      exact ⟨u, List.mem_append_left _ hu, hstart, hop⟩
    · rw [List.mem_singleton.mp ha] at hend ⊢
      obtain ⟨_, p, hp, hop, _⟩ := hadm.ending hend
      have hu := unresolved_of_unresolvedOperation (hc.pending_eq.trans hp)
      exact ⟨p, List.mem_append_left _ hu.1, hu.2.1, hop⟩
  · intro hopen hfailed hrest
    have hbefore : v.closed = false ∨ v.pending.isSome := by
      rcases hopen with hopen | hopen
      · left
        simp only [View.after, Bool.or_eq_false_iff] at hopen
        exact hopen.1
      · by_cases hstart : e.type = "operation.started"
        · exact .inl (hadm.start hstart).2.1
        · by_cases hend : e.type ∈ operationEnds
          · simp [View.after, hstart, hend] at hopen
          · right
            simpa [View.after, hstart, hend] using hopen
    -- an event that puts the run to rest closes the turn and leaves nothing pending
    have hclosing : ∀ type ∈ ["agent.stopped", "agent.submitted", "agent.waiting"],
        e.type ≠ type := by
      intro type htype heq
      have houtcome : e.type ∈ turnCompletedEvents ∧
          e.type ∉ ["tool.completed", "tool.failed", "operation.unknown"] ∧
          e.type ∉ operationEnds ∧ e.type ≠ "operation.started" := by
        rw [heq]
        fin_cases htype <;> simp [turnCompletedEvents, operationEnds]
      have hnone := hadm.outcome houtcome.1 houtcome.2.1
      simp [View.after, houtcome, hnone] at hopen
    have hunknown : e.type ≠ "operation.unknown" := by
      intro hu
      simp [View.after, hu, operationEnds, turnCompletedEvents] at hopen
    refine hc.awake hbefore (fun a ha => hfailed a (List.mem_append_left _ ha))
      (hrest.of_append ?_ hunknown (hclosing _ (by simp)))
    simp only [List.mem_cons, List.not_mem_nil, or_false, not_or]
    exact ⟨hclosing _ (by simp), hclosing _ (by simp), hfailed e (by simp)⟩
  · intro hexecuted
    by_cases hphase : e.type = "loop.phase.changed"
    · refine ⟨e.phase, ?_, by simp [View.after, hphase]⟩
      simp only [View.after, Bool.or_eq_true, decide_eq_true_eq] at hexecuted
      rcases hexecuted with hbefore | ⟨_, hnow⟩
      · exact List.mem_cons_of_mem _ ((hadm.phase hphase).2.1 hbefore)
      · rw [hnow]
        simp [latePhases]
    · simp only [View.after, hphase, false_and, decide_false, Bool.or_false] at hexecuted
      obtain ⟨q, hq, hphaseq⟩ := hc.late hexecuted
      exact ⟨q, hq, by simp [View.after, hphase, hphaseq]⟩
  · by_cases hphase : e.type = "loop.phase.changed"
    · simpa [View.after, hphase] using (hadm.phase hphase).1
    · simpa [View.after, hphase] using hc.phased

/-- A result or settlement is only written for the operation that has not ended. -/
theorem View.Admits.records (hadm : v.Admits cfg w e)
    (h : e.type = "tool.completed" ∨ e.type = "operation.completed") :
    ∃ p, v.pending = some p ∧ p.operation = e.operation := by
  rcases h with h | h
  · exact (hadm.result (.inl h)).2
  · obtain ⟨_, p, hp, hop, _⟩ := hadm.ending (by simp [h, operationEnds])
    exact ⟨p, hp, hop⟩

/-- The records of another operation stay. -/
theorem View.Admits.records_ne (hadm : v.Admits cfg w e) (log : List Event) {o : Json}
    (hne : ∀ p, v.pending = some p → p.operation ≠ o) :
    completions (log ++ [e]) o = completions log o ∧
      settlements (log ++ [e]) o = settlements log o := by
  have hother : ¬ ((e.type = "tool.completed" ∨ e.type = "operation.completed") ∧
      e.operation = o) := by
    rintro ⟨htype, rfl⟩
    obtain ⟨p, hp, hop⟩ := hadm.records htype
    exact hne p hp hop
  rw [completions_append, settlements_append, if_neg (fun h => hother ⟨.inl h.1, h.2⟩),
    if_neg (fun h => hother ⟨.inr h.1, h.2⟩), List.append_nil, List.append_nil]
  exact ⟨rfl, rfl⟩

theorem Current.pending_mem (h : Current log t v) {p : Event} (hp : v.pending = some p) :
    p ∈ log ∧ p.type = "operation.started" := by
  have hu := unresolved_of_unresolvedOperation (h.pending_eq.trans hp)
  exact ⟨hu.1, hu.2.1⟩

/-- Only an end takes the pending operation away. -/
theorem View.pending_after_of_not_end (v : View) (e : Event) (hend : e.type ∉ operationEnds)
    {p : Event} (hp : v.pending = some p) (hstart : e.type = "operation.started" → v.pending = none) :
    (v.after e).pending = some p := by
  have hstart : e.type ≠ "operation.started" := by
    intro hs
    rw [hstart hs] at hp
    cases hp
  simp [View.after, hstart, hend, hp]

theorem At.recorded_wrote (h : At cfg w t v) (hadm : v.Admits cfg w e) :
    Recorded cfg (w.log ++ [e]) w.pipe (v.after e) := by
  have hr := h.recorded
  refine
    { ledger := hr.ledger
      drawn := ?_
      keyed := ?_
      started := ?_
      recorded := ?_
      unstarted := ?_
      unsettled := ?_
      piped := hr.piped
      budget := ?_ }
  · exact forall_mem_append_singleton hr.drawn (fun hstart => (hadm.start hstart).2.2.2.2.1)
  · intro id r hlook
    obtain ⟨n, tool, hkey, hex⟩ := hr.keyed id r hlook
    exact ⟨n, tool, hkey, by rw [turnExecuted_append, hex, Bool.true_or]⟩
  · intro id r hlook hstate
    obtain ⟨hresult, u, hu, hstart, hop⟩ := hr.started id r hlook hstate
    exact ⟨hresult, u, List.mem_append_left _ hu, hstart, hop⟩
  · intro id r hlook hstate hnot
    by_cases hpend : ∃ p, v.pending = some p ∧ p.operation = .str id
    · -- the operation has just been settled
      obtain ⟨p, hp, hop⟩ := hpend
      have hend : e.type ∈ operationEnds := by
        by_contra hend
        exact hnot p (v.pending_after_of_not_end e hend hp (fun hs => (hadm.start hs).1)) hop
      obtain ⟨_, p', hp', hop', hsucc⟩ := hadm.ending hend
      rw [hp] at hp'
      cases hp'
      have hcompleted := hsucc id r hop hlook hstate
      obtain ⟨c, hresults, hid, hcause⟩ := hadm.settlement hcompleted
      have hcomps := h.current.results_eq hp
      rw [hop, hresults] at hcomps
      have hsets := hr.unsettled p hp
      rw [hop] at hsets
      refine ⟨c, e, ?_, ?_, hid, hcause⟩
      · rw [completions_append, ← hcomps, if_neg (by simp [hcompleted]), List.append_nil]
      · rw [settlements_append, hsets, if_pos ⟨hcompleted, hop'.symm.trans hop⟩, List.nil_append]
    · have hne : ∀ p, v.pending = some p → p.operation ≠ .str id := by
        intro p hp hop
        exact hpend ⟨p, hp, hop⟩
      obtain ⟨c, s, hcomps, hsets, hid, hcause⟩ := hr.recorded id r hlook hstate hne
      obtain ⟨hc, hs⟩ := hadm.records_ne w.log hne
      exact ⟨c, s, hc.trans hcomps, hs.trans hsets, hid, hcause⟩
  · intro o hnew
    have hold : ∀ u ∈ w.log, u.type = "operation.started" → u.operation ≠ o :=
      fun u hu => hnew u (List.mem_append_left _ hu)
    have hne : ∀ p, v.pending = some p → p.operation ≠ o := by
      intro p hp
      obtain ⟨hmem, hstart⟩ := h.current.pending_mem hp
      exact hold p hmem hstart
    obtain ⟨hc, hs⟩ := hadm.records_ne w.log hne
    obtain ⟨hc', hs'⟩ := hr.unstarted o hold
    exact ⟨hc.trans hc', hs.trans hs'⟩
  · intro p hp
    have hnotcompleted : e.type ≠ "operation.completed" := by
      intro hc
      simp [View.after, hc, operationEnds] at hp
    rw [settlements_append, if_neg (fun hc => hnotcompleted hc.1), List.append_nil]
    by_cases hstart : e.type = "operation.started"
    · simp only [View.after, hstart, if_true, Option.some.injEq] at hp
      subst hp
      obtain ⟨_, _, _, _, _, hnew⟩ := hadm.start hstart
      exact (hr.unstarted e.operation hnew).2
    · have hpv : v.pending = some p := by
        simp only [View.after, hstart, if_false] at hp
        split at hp
        · cases hp
        · exact hp
      exact hr.unsettled p hpv
  · intro n hn
    by_cases hstart : e.type = "operation.started"
    · have := hadm.budget hstart n hn
      simp only [View.after, hstart, if_true]
      omega
    · simpa [View.after, hstart] using hr.budget n hn

theorem uuid4_inj {m n : ℕ} (h : uuid4 m = uuid4 n) : m = n := by
  rw [uuid4, uuid4, String.append_right_inj] at h
  exact Nat.repr_injective h

/-- The last event of a type of a turn is an event of the log. -/
theorem mem_of_lastOfType {type turn : String} {c : Event}
    (h : lastOfType (turnEvents log turn) type = some c) : c ∈ log ∧ c.type = type ∧ c.turn = turn := by
  have hmem := List.mem_reverse.mp (List.mem_of_find?_eq_some h)
  rw [turnEvents, List.mem_filter, decide_eq_true_eq] at hmem
  exact ⟨hmem.1, by simpa using List.find?_some h, hmem.2⟩

/-- One more event of the loop with a new identifier. -/
theorem TurnsOnce.identifiers (h : TurnsOnce w.log w.drawn t v) (hid : e.id = uuid4 w.drawn) :
    (∀ a ∈ w.log ++ [e], a.type ∈ loopTypes → ∃ m < w.drawn + 1, a.id = uuid4 m) ∧
      (((w.log ++ [e]).filter (fun e => e.type ∈ loopTypes)).map Event.id).Nodup := by
  refine ⟨forall_mem_append_singleton ?_ (fun _ => ⟨w.drawn, by omega, hid⟩), ?_⟩
  · intro a ha htype
    obtain ⟨m, hm, ham⟩ := h.identified a ha htype
    exact ⟨m, by omega, ham⟩
  · rw [List.filter_append, List.map_append, List.nodup_append]
    refine ⟨h.distinct, ?_, ?_⟩
    · by_cases htype : e.type ∈ loopTypes <;> simp [htype]
    · intro a ha b hb hab
      obtain ⟨a', ha', rfl⟩ := List.mem_map.mp ha
      obtain ⟨b', hb', rfl⟩ := List.mem_map.mp hb
      rw [List.mem_filter] at ha' hb'
      rw [List.mem_singleton.mp hb'.1, hid] at hab
      obtain ⟨m, hm, ham⟩ := h.identified a' ha'.1 (by simpa using ha'.2)
      have := uuid4_inj (ham.symm.trans hab)
      omega

/-- An event that does not enter the tool phase is of no importance to a turn without it. -/
theorem turnExecuted_of_append {turn : String} (h : turnExecuted (log ++ [e]) turn = false) :
    turnExecuted log turn = false := by
  rw [turnExecuted_append, Bool.or_eq_false_iff] at h
  exact h.1

/-- In its tool phase a turn has entered it. -/
theorem turnExecuted_of_phase {turn : String}
    (h : (lastPhaseEvent log turn).map Event.phase = some (some .actionExecuting)) :
    turnExecuted log turn = true := by
  obtain ⟨a, ha, hphase⟩ := Option.map_eq_some_iff.mp h
  have hmem := List.mem_reverse.mp (List.mem_of_find?_eq_some ha)
  have htype := List.find?_some ha
  simp only [decide_eq_true_eq] at htype
  rw [turnExecuted, List.any_eq_true]
  exact ⟨a, List.mem_filter.mpr ⟨hmem, by simpa using htype.2⟩, by simp [htype.1, hphase]⟩

theorem At.once_wrote (h : At cfg w t v) (hid : e.id = uuid4 w.drawn) (hturn : e.turn = t)
    (hadm : v.Admits cfg w e) : TurnsOnce (w.log ++ [e]) (w.drawn + 1) t (v.after e) := by
  have ho := h.once
  have hview := h.current.view
  refine
    { single := ?_
      executed := ?_
      unstarted := ?_
      caused := ?_
      identified := (ho.identifiers hid).1
      distinct := (ho.identifiers hid).2 }
  · intro type htype t'
    rw [turnCount_append]
    split
    next hnew =>
      obtain ⟨rfl, rfl⟩ := hnew
      -- the turn has no event of the type yet
      have hzero : turnCount w.log e.type e.turn = 0 := by
        rw [← hturn] at hview
        simp only [singleTypes, List.mem_cons, List.not_mem_nil, or_false] at htype
        rcases htype with hresp | hcmd | hstart
        · have hnone := (hadm.response hresp).1
          rw [← hview] at hnone
          rw [hresp]
          exact turnCount_eq_zero hnone
        · have hnone := (hadm.command hcmd).1
          rw [← hview] at hnone
          rw [hcmd]
          exact turnCount_eq_zero hnone
        · obtain ⟨hpending, _, _, hphase, _⟩ := hadm.start hstart
          rw [hstart, hturn]
          exact ho.unstarted hphase hpending
      omega
    next => exact ho.single type htype t'
  · intro t' hex
    have hold := ho.executed t' (turnExecuted_of_append hex)
    rw [turnCount_append, if_neg, hold]
    rintro ⟨rfl, hstart⟩
    -- an operation starts in the tool phase
    have hphase := (hadm.start hstart).2.2.2.1
    rw [← hview] at hphase
    have := turnExecuted_of_phase hphase
    rw [← hturn, turnExecuted_of_append hex] at this
    cases this
  · intro hphase hpending
    rw [turnCount_append]
    by_cases hstart : e.type = "operation.started"
    · simp [View.after, hstart] at hpending
    · rw [if_neg (fun hc => hstart hc.2)]
      by_cases hchange : e.type = "loop.phase.changed"
      · -- the tool phase is entered once
        have hnow : e.phase = some .actionExecuting := by simpa [View.after, hchange] using hphase
        apply ho.executed
        by_contra hbefore
        rw [Bool.not_eq_false] at hbefore
        have hlate := (hadm.phase hchange).2.1 (by rw [← hview]; exact hbefore)
        rw [hnow] at hlate
        simp [laterPhases] at hlate
      · have hphase : v.phase = some (some .actionExecuting) := by
          simpa [View.after, hchange] using hphase
        refine ho.unstarted hphase ?_
        by_cases hend : e.type ∈ operationEnds
        · have := (hadm.ending hend).1
          rw [hphase] at this
          cases this
        · simpa [View.after, hstart, hend] using hpending
  · refine forall_mem_append_singleton ?_ ?_
    · intro u hu hstart
      obtain ⟨c, hc, hcause⟩ := ho.caused u hu hstart
      exact ⟨c, List.mem_append_left _ hc, hcause⟩
    · intro hstart
      obtain ⟨_, _, ⟨c, hcommand, hcause⟩, _⟩ := hadm.start hstart
      rw [← hview] at hcommand
      obtain ⟨hmem, htype, hct⟩ := mem_of_lastOfType hcommand
      exact ⟨c, List.mem_append_left _ hmem, htype, hct.trans hturn.symm, hcause⟩

/-- **The loop appends an event of its turn.** -/
theorem At.wrote (h : At cfg w t v) (hid : e.id = uuid4 w.drawn)
    (hturn : e.get? "turn_id" = some (.str t)) (htype : e.type ∈ loopTypes)
    (hadm : v.Admits cfg w e) : At cfg (w.wrote e) t (v.after e) where
  current := h.current_wrote hturn hadm
  recorded := h.recorded_wrote hadm
  once := by
    have hpayload : e.payload.get? "turn_id" = some (.str t) := hturn
    exact h.once_wrote hid (by simp [Event.turn, Dict.getD, hpayload]) hadm
  linked := by
    have het : e.turn = t := by
      have : e.payload.get? "turn_id" = some (.str t) := hturn
      simp [Event.turn, Dict.getD, this]
    have hlast := lastStep_append w.log e
    by_cases hmark : e.type ∈ ["model.response.reused", "agent.command.reused"]
    · -- a marker changes neither the view nor the last step
      rw [if_neg (fun hc => hc.2 hmark)] at hlast
      have hsame : v.after e = v := by
        have hcases : e.type = "model.response.reused" ∨ e.type = "agent.command.reused" := by
          simpa using hmark
        rcases hcases with hc | hc <;> simp [View.after, hc, turnCompletedEvents, operationEnds]
      exact
        { turn := by
            intro a ha
            exact h.linked.turn a (hlast.symm.trans ha)
          blocked := by
            rw [hsame, h.linked.blocked]
            simp only [LoopWorld.wrote, hlast] }
    · rw [if_pos ⟨htype, hmark⟩] at hlast
      exact
        { turn := by
            intro a ha
            have : a = e := Option.some.inj (ha.symm.trans hlast)
            rw [this, het]
          blocked := by
            rw [hadm.link hmark]
            simp [LoopWorld.wrote, hlast] }

end wrote

/-! ### Events of others -/

section others

variable {log : List Event} {t : String} {v : View} {w : LoopWorld} {e : Event} {cfg : AgentConfig}

theorem Foreign.ne (h : Foreign log e) (type : String) (htype : type ∈ loopTypes) :
    e.type ≠ type := by
  rintro rfl
  exact h.1 htype

/-- Another component never writes an outcome of a turn. -/
theorem Foreign.not_closing (h : Foreign log e) : e.type ∉ turnCompletedEvents := by
  intro hc
  exact h.1 (List.mem_append_left _ hc)

/-- What another component ends has been ended by the loop before. -/
theorem Foreign.ends (h : Foreign log e) (hend : e.type ∈ operationEnds) :
    e.type = "operation.reconciled" ∧ e.operation ∈ operationsOf log "operation.unknown" := by
  have hrec : e.type = "operation.reconciled" := by
    have hcompleted : e.type ≠ "operation.completed" := h.ne _ (by simp [loopTypes])
    have hfailed : e.type ≠ "operation.failed" := h.ne _ (by simp [loopTypes])
    have hunknown : e.type ≠ "operation.unknown" := h.ne _ (by simp [loopTypes, turnCompletedEvents])
    simpa [operationEnds, hcompleted, hfailed, hunknown] using hend
  exact ⟨hrec, h.2 hrec⟩

theorem operationsOf_subset_ended {type : String} (htype : type ∈ operationEnds) {o : Json}
    (ho : o ∈ operationsOf log type) : o ∈ endedOperations log := by
  obtain ⟨a, ha, rfl⟩ := List.mem_map.mp ho
  rw [List.mem_filter, decide_eq_true_eq] at ha
  exact List.mem_map.mpr ⟨a, List.mem_filter.mpr ⟨ha.1, by simp [ha.2, htype]⟩, rfl⟩

theorem Foreign.ended (h : Foreign log e) (hend : e.type ∈ operationEnds) :
    e.operation ∈ endedOperations log :=
  operationsOf_subset_ended (by simp [operationEnds]) (h.ends hend).2

theorem Foreign.lastOfType (h : Foreign log e) {type : String} (htype : type ∈ loopTypes)
    (turn : String) :
    lastOfType (turnEvents (log ++ [e]) turn) type = lastOfType (turnEvents log turn) type := by
  rw [turnEvents_append]
  split
  · rw [lastOfType_append, if_neg (h.ne type htype)]
  · rfl

theorem Foreign.turnClosed (h : Foreign log e) (turn : String) :
    turnClosed (log ++ [e]) turn = turnClosed log turn := by
  rw [turnClosed_append, decide_eq_false (fun hc => h.not_closing hc.2), Bool.or_false]

theorem Foreign.turnExecuted (h : Foreign log e) (turn : String) :
    turnExecuted (log ++ [e]) turn = turnExecuted log turn := by
  have hphase := h.ne "loop.phase.changed" (by simp [loopTypes])
  rw [turnExecuted_append, decide_eq_false (fun hc => hphase hc.2.1), Bool.or_false]

theorem Foreign.unresolvedOperation (h : Foreign log e) :
    unresolvedOperation (log ++ [e]) = unresolvedOperation log :=
  unresolvedOperation_append_other (h.ne _ (by simp [loopTypes])) h.ended

theorem Foreign.completions (h : Foreign log e) (o : Json) :
    completions (log ++ [e]) o = completions log o := by
  have hne := h.ne "tool.completed" (by simp [loopTypes, turnCompletedEvents])
  rw [completions_append, if_neg (fun hc => hne hc.1), List.append_nil]

theorem Foreign.settlements (h : Foreign log e) (o : Json) :
    settlements (log ++ [e]) o = settlements log o := by
  have hne := h.ne "operation.completed" (by simp [loopTypes])
  rw [settlements_append, if_neg (fun hc => hne hc.1), List.append_nil]

theorem Foreign.turnView (h : Foreign log e) (turn : String) :
    turnView (log ++ [e]) turn = turnView log turn := by
  have hphase := h.ne "loop.phase.changed" (by simp [loopTypes])
  have hstart := h.ne "operation.started" (by simp [loopTypes])
  unfold CrazyHarness.turnView
  rw [startCount_append, if_neg hstart, lastPhaseEvent_append, if_neg (fun hc => hphase hc.1),
    h.lastOfType (by simp [loopTypes]), h.lastOfType (by simp [loopTypes]), h.turnClosed, h.turnExecuted,
    h.unresolvedOperation]
  simp only [h.completions]

theorem Foreign.lastStep (h : Foreign log e) : lastStep (log ++ [e]) = lastStep log := by
  rw [lastStep_append, if_neg (fun hc => h.1 hc.1)]

theorem Foreign.recordedOnce (h : Foreign log e) {o : Json} (hr : RecordedOnce log o) :
    RecordedOnce (log ++ [e]) o := by
  obtain ⟨c, s, hcomps, hsets, hid, hcause⟩ := hr
  exact ⟨c, s, (h.completions o).trans hcomps, (h.settlements o).trans hsets, hid, hcause⟩

theorem Current.foreign (h : Current log t v) (he : Foreign log e) : Current (log ++ [e]) t v where
  nonempty := by simp
  named := h.named
  view := (he.turnView t).trans h.view
  numbered := forall_mem_append_singleton h.numbered (fun htype => absurd htype he.1)
  older := by
    intro t' hne hresp
    rw [he.lastOfType (by simp [loopTypes])] at hresp
    rw [he.turnClosed]
    exact h.older t' hne hresp
  commanded := by
    intro t' hcmd
    rw [he.lastOfType (by simp [loopTypes])] at hcmd ⊢
    exact h.commanded t' hcmd
  commands := forall_mem_append_singleton h.commands
    (fun htype => absurd htype (he.ne _ (by simp [loopTypes])))
  unresolved := by
    intro u hu
    rcases unresolved_append_cases hu with ⟨_, hstart⟩ | ⟨hu, _⟩
    · exact absurd hstart (he.ne _ (by simp [loopTypes]))
    · exact h.unresolved u hu
  pending := h.pending
  ends := by
    intro a ha hend
    have hold : ∀ b ∈ log, b.type ∈ operationEnds → b.operation = a.operation →
        ∃ u ∈ log ++ [e], u.type = "operation.started" ∧ u.operation = a.operation := by
      intro b hb hbend hop
      obtain ⟨u, hu, hstart, heq⟩ := h.ends b hb hbend
      exact ⟨u, List.mem_append_left _ hu, hstart, heq.trans hop⟩
    rcases List.mem_append.mp ha with ha | ha
    · exact hold a ha hend rfl
    · rw [List.mem_singleton.mp ha] at hend hold ⊢
      obtain ⟨b, hb, hop⟩ := List.mem_map.mp (he.ends hend).2
      rw [List.mem_filter, decide_eq_true_eq] at hb
      exact hold b hb.1 (by simp [hb.2, operationEnds]) hop
  awake := by
    intro hopen hfailed hrest
    refine h.awake hopen (fun a ha => hfailed a (List.mem_append_left _ ha)) (hrest.of_append ?_ ?_ ?_)
    · have hstopped := he.ne "agent.stopped" (by simp [loopTypes, turnCompletedEvents])
      have hsubmitted := he.ne "agent.submitted" (by simp [loopTypes, turnCompletedEvents])
      simp [hstopped, hsubmitted, hfailed e (by simp)]
    · exact he.ne _ (by simp [loopTypes, turnCompletedEvents])
    · exact he.ne _ (by simp [loopTypes, turnCompletedEvents])
  late := h.late
  phased := h.phased

theorem Recorded.foreign {pipe : PipelineWorld} (h : Recorded cfg log pipe v) (he : Foreign log e) :
    Recorded cfg (log ++ [e]) pipe v where
  ledger := h.ledger
  drawn := forall_mem_append_singleton h.drawn
    (fun htype => absurd htype (he.ne _ (by simp [loopTypes])))
  keyed := by
    intro id r hlook
    obtain ⟨n, tool, hkey, hex⟩ := h.keyed id r hlook
    exact ⟨n, tool, hkey, (he.turnExecuted _).trans hex⟩
  started := by
    intro id r hlook hstate
    obtain ⟨hresult, u, hu, hstart, hop⟩ := h.started id r hlook hstate
    exact ⟨hresult, u, List.mem_append_left _ hu, hstart, hop⟩
  recorded := by
    intro id r hlook hstate hne
    exact he.recordedOnce (h.recorded id r hlook hstate hne)
  unstarted := by
    intro o hnew
    rw [he.completions, he.settlements]
    exact h.unstarted o (fun u hu => hnew u (List.mem_append_left _ hu))
  unsettled := by
    intro p hp
    rw [he.settlements]
    exact h.unsettled p hp
  piped := h.piped
  budget := h.budget

theorem Foreign.turnCount (h : Foreign log e) {type : String} (htype : type ∈ loopTypes)
    (turn : String) : turnCount (log ++ [e]) type turn = turnCount log type turn := by
  rw [turnCount_append, if_neg (fun hc => h.ne type htype hc.2)]

theorem singleTypes_loop : ∀ type ∈ singleTypes, type ∈ loopTypes := by
  decide

theorem TurnsOnce.foreign {drawn : ℕ} (h : TurnsOnce log drawn t v) (he : Foreign log e) :
    TurnsOnce (log ++ [e]) drawn t v where
  single := by
    intro type htype t'
    rw [he.turnCount (singleTypes_loop type htype)]
    exact h.single type htype t'
  executed := by
    intro t' hex
    rw [he.turnExecuted] at hex
    rw [he.turnCount (by simp [loopTypes])]
    exact h.executed t' hex
  unstarted := by
    rw [he.turnCount (by simp [loopTypes])]
    exact h.unstarted
  caused := by
    refine forall_mem_append_singleton ?_ (fun htype => absurd htype (he.ne _ (by simp [loopTypes])))
    intro u hu hstart
    obtain ⟨c, hc, hcause⟩ := h.caused u hu hstart
    exact ⟨c, List.mem_append_left _ hc, hcause⟩
  identified := forall_mem_append_singleton h.identified (fun htype => absurd htype he.1)
  distinct := by
    rw [List.filter_append, List.filter_singleton, decide_eq_false he.1]
    simpa using h.distinct

theorem At.foreign (h : At cfg w t v) (he : Foreign w.log e) :
    At cfg { w with log := w.log ++ [e] } t v where
  current := h.current.foreign he
  recorded := h.recorded.foreign he
  once := h.once.foreign he
  linked :=
    { turn := by
        intro a ha
        exact h.linked.turn a (he.lastStep.symm.trans ha)
      blocked := by rw [h.linked.blocked, he.lastStep] }

/-- **The events of others change nothing.** -/
theorem At.foreignGrowth (h : At cfg w t v) (hgrow : ForeignGrowth w.log log) :
    At cfg { w with log := log } t v := by
  induction hgrow with
  | refl => exact h
  | step _ he ih => exact ih.foreign he

theorem not_atRest_foreignGrowth {log' : List Event} (h : ¬ AtRest log)
    (hgrow : ForeignGrowth log log') (hfailed : ∀ a ∈ log', a.type ≠ "agent.failed") :
    ¬ AtRest log' := by
  induction hgrow with
  | refl => exact h
  | @step log' e _ he ih =>
      intro hrest
      refine ih (fun a ha => hfailed a (List.mem_append_left _ ha)) (hrest.of_append ?_ ?_ ?_)
      · have hstopped := he.ne "agent.stopped" (by simp [loopTypes, turnCompletedEvents])
        have hsubmitted := he.ne "agent.submitted"
          (by simp [loopTypes, turnCompletedEvents])
        simp [hstopped, hsubmitted, hfailed e (by simp)]
      · exact he.ne _ (by simp [loopTypes, turnCompletedEvents])
      · exact he.ne _ (by simp [loopTypes, turnCompletedEvents])

end others

/-! ### A new turn -/

section newTurn

variable {t t' : String} {v : View} {w : LoopWorld} {e : Event} {cfg : AgentConfig}

/-- The view of a turn that has just begun. -/
def View.fresh (starts : ℕ) : View := { phase := some (some .contextBuilding), starts := starts }

/-- No event of the loop has the number of the turn or a later one. -/
def NoLater (log : List Event) (t : String) : Prop :=
  ∀ e ∈ log, e.type ∈ loopTypes → turnNumber e.turn < turnNumber t

theorem NoLater.foreignGrowth {log log' : List Event} (h : NoLater log t)
    (hgrow : ForeignGrowth log log') : NoLater log' t := by
  induction hgrow with
  | refl => exact h
  | step _ he ih => exact forall_mem_append_singleton ih (fun htype => absurd htype he.1)

theorem NoLater.turn_ne {log : List Event} (h : NoLater log t) {a : Event} (ha : a ∈ log)
    (htype : a.type ∈ loopTypes) : a.turn ≠ t := by
  intro heq
  have := h a ha htype
  rw [heq] at this
  omega

theorem NoLater.lastOfType {log : List Event} (h : NoLater log t) {type : String}
    (htype : type ∈ loopTypes) : lastOfType (turnEvents log t) type = none := by
  unfold CrazyHarness.lastOfType
  rw [List.find?_eq_none]
  intro a ha
  rw [List.mem_reverse, turnEvents, List.mem_filter, decide_eq_true_eq] at ha
  have := h.turn_ne ha.1
  simp only [decide_eq_true_eq]
  rintro rfl
  exact this htype ha.2

theorem NoLater.any_eq_false {log : List Event} (h : NoLater log t) {q : Event → Bool}
    (hq : ∀ a, q a = true → a.type ∈ loopTypes) : (turnEvents log t).any q = false := by
  rw [List.any_eq_false]
  intro a ha hqa
  rw [turnEvents, List.mem_filter, decide_eq_true_eq] at ha
  exact h.turn_ne ha.1 (hq a hqa) ha.2

/-- **A new turn begins** when nothing is pending and no open turn holds a response. -/
theorem At.newTurn (h : At cfg w t v) (hid : e.id = uuid4 w.drawn) (hlater : NoLater w.log t')
    (hnamed : ∃ n, t' = turnId n) (hpending : v.pending = none) (hdone : v.response.isSome → v.closed = true)
    (hawake : (∀ a ∈ w.log, a.type ≠ "agent.failed") → ¬ AtRest w.log)
    (htype : e.type = "loop.phase.changed") (hturn : e.get? "turn_id" = some (.str t'))
    (hphase : e.phase = some .contextBuilding) : At cfg (w.wrote e) t' (.fresh v.starts) := by
  have het : e.turn = t' := by
    have : e.payload.get? "turn_id" = some (.str t') := hturn
    simp [Event.turn, Dict.getD, this]
  have hc := h.current
  have hr := h.recorded
  have hunresolved : unresolvedOperation (w.log ++ [e]) = none := by
    rw [unresolvedOperation_append_other (by simp [htype]) (by simp [htype, operationEnds]),
      hc.pending_eq, hpending]
  have hnone : ∀ u, ¬ Unresolved (w.log ++ [e]) u := unresolvedOperation_eq_none_iff.mp hunresolved
  have hlast : ∀ {type : String}, type ∈ loopTypes → type ≠ "loop.phase.changed" →
      lastOfType (turnEvents (w.log ++ [e]) t') type = none := by
    intro type hmem hne
    rw [turnEvents_append, if_pos het, lastOfType_append, if_neg (by rw [htype]; exact hne.symm)]
    exact hlater.lastOfType hmem
  have hrecords : ∀ o, completions (w.log ++ [e]) o = completions w.log o ∧
      settlements (w.log ++ [e]) o = settlements w.log o := by
    intro o
    rw [completions_append, settlements_append, if_neg (by simp [htype]), if_neg (by simp [htype]),
      List.append_nil, List.append_nil]
    exact ⟨rfl, rfl⟩
  have hstep := lastStep_append w.log e
  rw [if_pos (by simp [htype, loopTypes])] at hstep
  have hcount : ∀ type ≠ "loop.phase.changed", ∀ t'', turnCount (w.log ++ [e]) type t'' =
      turnCount w.log type t'' := by
    intro type hne t''
    rw [turnCount_append, if_neg (fun hmem => hne (hmem.2.symm.trans htype))]
  refine ⟨?_, ?_, ?_, ?_⟩
  · refine
      { nonempty := by simp [LoopWorld.wrote]
        named := hnamed
        view := ?_
        numbered := ?_
        older := ?_
        commanded := ?_
        commands := forall_mem_append_singleton hc.commands (by simp [htype])
        unresolved := fun u hu => absurd hu (hnone u)
        pending := fun p hp => by cases hp
        ends := ?_
        awake := ?_
        late := fun hex => by cases hex
        phased := by simp [View.fresh] }
    · have hclosed : turnClosed (w.log ++ [e]) t' = false := by
        rw [turnClosed_append, turnClosed, hlater.any_eq_false]
        · simp [htype, turnCompletedEvents]
        · intro a ha
          exact List.mem_append_left _ (by simpa using ha)
      have hexecuted : turnExecuted (w.log ++ [e]) t' = false := by
        rw [turnExecuted_append, turnExecuted, hlater.any_eq_false]
        · simp [hphase]
        · intro a ha
          simp only [decide_eq_true_eq] at ha
          simp [ha.1, loopTypes]
      have hphases := lastPhaseEvent_append w.log e t'
      rw [if_pos ⟨htype, het⟩] at hphases
      unfold turnView
      simp only [LoopWorld.wrote]
      rw [hphases, hlast (by simp [loopTypes]) (by simp), hlast (by simp [loopTypes]) (by simp),
        hclosed, hexecuted, hunresolved, Option.map_some, hphase, startCount_append,
        if_neg (by simp [htype]), ← hc.view]
      rfl
    · refine forall_mem_append_singleton ?_ (fun _ => ⟨by simp [hturn], .inl het⟩)
      intro a ha hmem
      exact ⟨(hc.numbered a ha hmem).1, .inr (hlater a ha hmem)⟩
    · intro t'' hne hresponse
      rw [LoopWorld.wrote, turnEvents_append_ne het hne] at hresponse
      have hclosed : turnClosed w.log t'' = true := by
        by_cases ht : t'' = t
        · subst ht
          have hview := hc.view
          rw [← hview] at hdone
          exact hdone hresponse
        · exact hc.older t'' ht hresponse
      rw [LoopWorld.wrote, turnClosed_append, hclosed, Bool.true_or]
    · intro t'' hcommand
      by_cases hne : t'' = t'
      · subst hne
        rw [LoopWorld.wrote, hlast (by simp [loopTypes]) (by simp)] at hcommand
        cases hcommand
      · rw [LoopWorld.wrote, turnEvents_append_ne het hne] at hcommand ⊢
        exact hc.commanded t'' hcommand
    · intro a ha hend
      rcases List.mem_append.mp ha with ha | ha
      · obtain ⟨u, hu, hstart, hop⟩ := hc.ends a ha hend
        exact ⟨u, List.mem_append_left _ hu, hstart, hop⟩
      · rw [List.mem_singleton.mp ha, htype] at hend
        simp [operationEnds] at hend
    · intro _ hfailed hrest
      refine hawake (fun a ha => hfailed a (List.mem_append_left _ ha)) (hrest.of_append ?_ ?_ ?_)
        <;> simp [htype]
  · refine
      { ledger := hr.ledger
        drawn := forall_mem_append_singleton hr.drawn (by simp [htype])
        keyed := ?_
        started := ?_
        recorded := ?_
        unstarted := ?_
        unsettled := fun p hp => by cases hp
        piped := hr.piped
        budget := hr.budget }
    · intro id r hlook
      obtain ⟨n, tool, hkey, hex⟩ := hr.keyed id r hlook
      exact ⟨n, tool, hkey, by rw [LoopWorld.wrote, turnExecuted_append, hex, Bool.true_or]⟩
    · intro id r hlook hstate
      obtain ⟨hresult, u, hu, hstart, hop⟩ := hr.started id r hlook hstate
      exact ⟨hresult, u, List.mem_append_left _ hu, hstart, hop⟩
    · intro id r hlook hstate _
      obtain ⟨c, s, hcomps, hsets, hid, hcause⟩ := hr.recorded id r hlook hstate (by simp [hpending])
      exact ⟨c, s, (hrecords _).1.trans hcomps, (hrecords _).2.trans hsets, hid, hcause⟩
    · intro o hnew
      obtain ⟨hcomps, hsets⟩ := hr.unstarted o (fun u hu => hnew u (List.mem_append_left _ hu))
      exact ⟨(hrecords o).1.trans hcomps, (hrecords o).2.trans hsets⟩
  · refine ⟨?_, ?_⟩
    · intro a ha
      have : a = e := Option.some.inj (ha.symm.trans hstep)
      rw [this, het]
    · simp [View.Blocked, View.fresh, LoopWorld.wrote, hstep, Event.Strands, htype, hphase]
  · refine
      { single := ?_
        executed := ?_
        unstarted := fun hcontra => by simp [View.fresh] at hcontra
        caused := ?_
        identified := (h.once.identifiers hid).1
        distinct := (h.once.identifiers hid).2 }
    · intro type hmem t''
      rw [LoopWorld.wrote, hcount type (by rintro rfl; simp [singleTypes] at hmem)]
      exact h.once.single type hmem t''
    · intro t'' hex
      rw [LoopWorld.wrote, hcount _ (by simp)]
      exact h.once.executed t'' (turnExecuted_of_append hex)
    · refine forall_mem_append_singleton ?_ (by simp [htype])
      intro u hu hstart
      obtain ⟨c, hmem, hcause⟩ := h.once.caused u hu hstart
      exact ⟨c, List.mem_append_left _ hmem, hcause⟩

end newTurn

/-! ### Steps of the ledger -/

section ledger

variable {t : String} {v : View} {w : LoopWorld} {cfg : AgentConfig} {L : OperationLedger}
  {r : OperationRecord}

/-- What a changed ledger owes: its records are old ones, or new ones of this turn. -/
theorem At.withPipe {pipe : PipelineWorld} (h : At cfg w t v)
    (hL : LedgerOk pipe.ledger pipe.drawn) (hdrawn : w.pipe.drawn ≤ pipe.drawn)
    (hold : ∀ id r, pipe.ledger.records.lookup id = some r →
      (∃ r', w.pipe.ledger.records.lookup id = some r' ∧ r.idempotencyKey = r'.idempotencyKey ∧
        (r.state = .succeeded → r = r' ∨ (r.result.isSome ∧
          ∃ p, v.pending = some p ∧ p.operation = .str id))) ∨
      (r.state ≠ .succeeded ∧ v.executed = true ∧ cfg.hasPipeline = true ∧
        ∃ tool, r.idempotencyKey = cfg.callKey t tool)) :
    At cfg { w with pipe := pipe } t v where
  current := h.current
  linked := h.linked
  once := h.once
  recorded :=
    { ledger := hL
      drawn := by
        intro u hu hstart
        obtain ⟨m, hm, hop⟩ := h.recorded.drawn u hu hstart
        exact ⟨m, lt_of_lt_of_le hm hdrawn, hop⟩
      keyed := by
        intro id r hlook
        rcases hold id r hlook with ⟨r', hlook', hkey, _⟩ | ⟨_, hex, _, tool, hkey⟩
        · obtain ⟨n, tool, hkey', hex⟩ := h.recorded.keyed id r' hlook'
          exact ⟨n, tool, hkey.trans hkey', hex⟩
        · obtain ⟨n, rfl⟩ := h.current.named
          have hview := h.current.view
          rw [← hview] at hex
          exact ⟨n, tool, hkey, hex⟩
      started := by
        intro id r hlook hstate
        rcases hold id r hlook with ⟨r', hlook', hkey, hsucc⟩ | ⟨hne, _⟩
        · rcases hsucc hstate with rfl | ⟨hresult, p, hp, hop⟩
          · exact h.recorded.started id r hlook' hstate
          · obtain ⟨hmem, hstart⟩ := h.current.pending_mem hp
            exact ⟨hresult, p, hmem, hstart, hop⟩
        · exact absurd hstate hne
      recorded := by
        intro id r hlook hstate hpend
        rcases hold id r hlook with ⟨r', hlook', hkey, hsucc⟩ | ⟨hne, _⟩
        · rcases hsucc hstate with rfl | ⟨_, p, hp, hop⟩
          · exact h.recorded.recorded id r hlook' hstate hpend
          · exact absurd hop (hpend p hp)
        · exact absurd hstate hne
      unstarted := h.recorded.unstarted
      unsettled := h.recorded.unsettled
      piped := by
        intro hno id
        cases hlook : pipe.ledger.records.lookup id with
        | none => rfl
        | some r =>
            rcases hold id r hlook with ⟨r', hlook', _⟩ | ⟨_, _, hpiped, _⟩
            · rw [h.recorded.piped hno id] at hlook'
              cases hlook'
            · rw [hno] at hpiped
              cases hpiped
      budget := h.recorded.budget }

theorem At.plan (h : At cfg w t v) (hpiped : cfg.hasPipeline = true) {i : ToolInvocation} {tool : String}
    (hex : v.executed = true) (hkey : i.idempotencyKey = cfg.callKey t tool)
    (hp : w.pipe.ledger.plan i (newOperationId w.pipe.drawn) = .ok (r, L)) :
    At cfg { w with pipe := { w.pipe with ledger := L, drawn := w.pipe.drawn + 1 } } t v := by
  refine h.withPipe (h.recorded.ledger.plan hp) (Nat.le_succ _) ?_
  intro id s hlook
  rcases plan_cases hp with ⟨rfl, _⟩ | ⟨_, _, hrkey, hstate, rfl⟩
  · exact .inl ⟨s, hlook, rfl, fun _ => .inl rfl⟩
  · simp only [OperationLedger.store, Table.lookup_upsert] at hlook
    split at hlook
    · cases hlook
      right
      exact ⟨by simp [hstate], hex, hpiped, tool, hrkey.trans hkey⟩
    · exact .inl ⟨s, hlook, rfl, fun _ => .inl rfl⟩

theorem At.transition (h : At cfg w t v) {operationId : String} {target : OperationState}
    {result : Option ToolResult} {error : Option String}
    (hsucc : target = .succeeded →
      result.isSome ∧ ∃ p, v.pending = some p ∧ p.operation = .str operationId)
    (ht : w.pipe.ledger.transition operationId target result error = .ok (r, L)) :
    At cfg { w with pipe := { w.pipe with ledger := L } } t v := by
  refine h.withPipe (h.recorded.ledger.transition ht) le_rfl ?_
  intro id s hlook
  rcases transition_cases ht with ⟨rfl, _, _⟩ | ⟨current, hcur, _, rfl, rfl⟩
  · exact .inl ⟨s, hlook, rfl, fun _ => .inl rfl⟩
  · have hid := Table.key_of_lookup hcur
    simp only [OperationLedger.store, Table.lookup_upsert] at hlook
    split at hlook
    next heq =>
      cases hlook
      rw [hid] at heq
      refine .inl ⟨current, heq ▸ hcur, rfl, ?_⟩
      intro hstate
      obtain ⟨hresult, p, hp, hop⟩ := hsucc hstate
      exact .inr ⟨hresult, p, hp, heq ▸ hop⟩
    next => exact .inl ⟨s, hlook, rfl, fun _ => .inl rfl⟩

/-- What the reopened ledger knows of an operation. -/
theorem lookup_recoverIncomplete {id reason : String}
    (h : (L.recoverIncomplete reason).records.lookup id = some r) :
    ∃ r', L.records.lookup id = some r' ∧ r.idempotencyKey = r'.idempotencyKey ∧
      (r.state = .succeeded → r = r') := by
  unfold OperationLedger.recoverIncomplete at h
  generalize L.records.rows.filter (fun r => r.state = .started) = started at h
  induction started generalizing L with
  | nil => exact ⟨r, h, rfl, fun _ => rfl⟩
  | cons a started ih =>
      rw [List.foldl_cons] at h
      obtain ⟨r', hlook, hkey, hstate⟩ := ih h
      cases hm : L.markUnknown a.operationId reason with
      | error e =>
          rw [hm] at hlook
          exact ⟨r', hlook, hkey, hstate⟩
      | ok out =>
          obtain ⟨s, L'⟩ := out
          rw [hm] at hlook
          rcases transition_cases hm with ⟨rfl, _⟩ | ⟨c, hc, _, rfl, rfl⟩
          · exact ⟨r', hlook, hkey, hstate⟩
          · simp only [OperationLedger.store, Table.lookup_upsert] at hlook
            split at hlook
            next heq =>
              cases hlook
              rw [Table.key_of_lookup hc] at heq
              refine ⟨c, heq ▸ hc, hkey, ?_⟩
              intro hs
              rw [hstate hs] at hs
              cases hs
            next => exact ⟨r', hlook, hkey, hstate⟩

/-- **A new process finds the same turn.** -/
theorem At.restarted (h : At cfg w t v) : At cfg w.restarted t v := by
  have hreopen := h.recorded.ledger.reopen
  refine h.withPipe hreopen le_rfl ?_
  intro id s hlook
  unfold OperationLedger.reopen at hlook
  cases hf : w.pipe.ledger.file with
  | none =>
      rw [hf] at hlook
      cases hlook
  | some lines =>
      rw [hf] at hlook
      obtain ⟨r', hlook', hkey, hstate⟩ := lookup_recoverIncomplete hlook
      rw [(h.recorded.ledger.filed lines hf).1] at hlook'
      exact .inl ⟨r', hlook', hkey, fun hs => .inl (hstate hs)⟩

end ledger

end CrazyHarness
