import CrazyHarness.Tools.Preparation
import CrazyHarness.Tools.Sessions

/-! # One execution among others

`oneExecutionRules` runs one execution of the pipeline with the workers it needs; what other executions do to
the ledger in the meantime is a change from outside.  So the calls of a pool are the calls of this
execution.

`Demands` says what a piece of pipeline code asks for and how it ends, whatever is replied.
`execute_authorized` is what the preparation means for the calls that are made. -/

namespace CrazyHarness

open Lib Program OperationLedger PipelineM

/-! ### The runs of one execution -/

/-- What others do to a ledger: one of its methods. -/
inductive LedgerMove : OperationLedger → ℕ → OperationLedger → ℕ → Prop
  | plan {L L' : OperationLedger} {n : ℕ} {i : ToolInvocation} {r : OperationRecord}
      (h : L.plan i (newOperationId n) = .ok (r, L')) : LedgerMove L n L' (n + 1)
  | transition {L L' : OperationLedger} {n : ℕ} {operationId : String} {target : OperationState}
      {result : Option ToolResult} {error : Option String} {r : OperationRecord}
      (h : L.transition operationId target result error = .ok (r, L')) : LedgerMove L n L' n

theorem LedgerMove.grows {L L' : OperationLedger} {n n' : ℕ} (h : LedgerMove L n L' n')
    (hL : LedgerOk L n) : LedgerOk L' n' ∧ L.Grows L' := by
  cases h with
  | plan h => exact ⟨hL.plan h, grows_plan hL h⟩
  | transition h => exact ⟨hL.transition h, grows_transition h⟩

/-- A reply that stops the dispatch. -/
def Cancels : (op : PipelineOp) → pipelineInterface.Reply op → Prop
  | .cancelled, r => r = true
  | .onStarted _ _, r => r = .raised .dispatchCancelled
  | .call _, r => r = .cancelled
  | _, _ => False

/-- What a thread hands over: an execution its outcome, a worker nothing. -/
abbrev PipelineOutcome := Option (Except PipelineError (List (List SettledToolResult)))

/-- The thread of an execution. -/
def PipelineM.execution (p : PipelineM (List (List SettledToolResult))) :
    Program pipelineInterface PipelineOutcome :=
  Program.bind p (fun r => .done (some r))

/-- The thread of a worker. -/
def PipelineM.worker (p : PipelineM Unit) : Program pipelineInterface PipelineOutcome :=
  Program.bind p (fun _ => .done none)

/-- Workers start when there is a job. -/
inductive JobStarts :
    PipelineWorld → Program pipelineInterface PipelineOutcome → PipelineWorld → Prop
  | worker {w : PipelineWorld} {ticket : ℕ} {job : PlannedInvocation} (h : (ticket, job) ∈ w.jobs) :
      JobStarts w (workerJob ticket job).worker { w with jobs := w.jobs.erase (ticket, job) }

/-- One execution over a ledger that others use too; the dispatch may be cancelled or not. -/
def oneExecutionRules (cancellable : Prop) : PoolRules pipelineInterface PipelineOutcome PipelineWorld where
  step w op r w' := pipelineStep w op r w' ∧ (¬ cancellable → ¬ Cancels op r)
  starts := JobStarts
  env w w' := ∃ L n, LedgerMove w.ledger w.drawn L n ∧ w' = { w with ledger := L, drawn := n }

/-- The execution before its first step. -/
def oneExecutionStart (prepare : ToolRequest → Except PipelineError ToolInvocation)
    (requests : List ToolRequest) (L : OperationLedger) (drawn : ℕ) :
    Pool pipelineInterface PipelineOutcome PipelineWorld :=
  ⟨.start L drawn, [(execute prepare requests).execution], []⟩

/-! ### What the code asks for -/

/-- With replies among `A`, the code makes only requests in `Q`, what it returns has `ok` and what it
raises has `err`. -/
def Demands (A : (op : PipelineOp) → pipelineInterface.Reply op → Prop) (Q : PipelineOp → Prop)
    {α : Type} (ok : α → Prop) (err : PipelineError → Prop) (p : PipelineM α) : Prop :=
  Program.Asks A Q (fun r => match r with
    | .ok a => ok a
    | .error e => err e) p

section rules

variable {A : (op : PipelineOp) → pipelineInterface.Reply op → Prop} {Q : PipelineOp → Prop}
  {α β : Type} {ok : α → Prop} {ok' : β → Prop} {err err' : PipelineError → Prop}

theorem demands_pure {a : α} (h : ok a) : Demands A Q ok err (pure a) := h

theorem demands_throw {e : PipelineError} (h : err e) : Demands A Q ok err (throw e : PipelineM α) := h

theorem demands_bind {p : PipelineM α} {f : α → PipelineM β} (h : Demands A Q ok err p)
    (hf : ∀ a, ok a → Demands A Q ok' err (f a)) : Demands A Q ok' err (p >>= f) := by
  refine asks_bind h ?_
  intro r hr
  cases r with
  | ok a => exact hf a hr
  | error e => exact hr

theorem demands_handle {p : PipelineM α} {handler : PipelineError → PipelineM α}
    (h : Demands A Q ok err p) (hh : ∀ e, err e → Demands A Q ok err' (handler e)) :
    Demands A Q ok err' (handle p handler) := by
  refine asks_bind h ?_
  intro r hr
  cases r with
  | ok a => exact hr
  | error e => exact hh e hr

theorem Demands.mono {Q' : PipelineOp → Prop} {p : PipelineM α} (h : Demands A Q ok err p)
    (hQ : ∀ op, Q op → Q' op) : Demands A Q' ok err p :=
  Asks.mono h hQ

theorem Demands.weaken {ok' : α → Prop} {p : PipelineM α} (h : Demands A Q ok err p)
    (hok : ∀ a, ok a → ok' a) (herr : ∀ e, err e → err' e) : Demands A Q ok' err' p := by
  refine Asks.weaken h ?_
  intro r hr
  cases r with
  | ok a => exact hok a hr
  | error e => exact herr e hr

/-- A method of the ledger raises exceptions of the ledger only. -/
theorem demands_ofLedger {p : Program pipelineInterface (Except LedgerError OperationRecord)}
    (h : p.Asks A Q (fun _ => True)) (herr : ∀ e, err (.ledger e)) :
    Demands A Q (fun _ => True) err (ofLedger p) := by
  refine asks_bind h ?_
  rintro (e | r) -
  · exact herr e
  · trivial

theorem asks_ask {op : PipelineOp} (hop : Q op) : (ask op).Asks A Q (fun _ => True) :=
  ⟨hop, fun _ _ => trivial⟩

theorem demands_submit {job : PlannedInvocation} (hop : Q (.submit job)) :
    Demands A Q (fun _ => True) err ((ask (.submit job)).bind (fun (ticket : ℕ) => .done (.ok ticket))) :=
  ⟨hop, fun _ _ => trivial⟩

theorem demands_await {ticket : ℕ} (hop : Q (.await ticket)) (herr : ∀ e, err e) :
    Demands A Q (fun _ => True) err (ask (.await ticket) : PipelineM SettledToolResult) := by
  refine ⟨hop, ?_⟩
  rintro (e | r) -
  · exact herr e
  · trivial

end rules

/-- The call of this invocation, and what neither calls nor has to do with workers. -/
def OwnRequest (i : ToolInvocation) : PipelineOp → Prop
  | .call j => j = i
  | .submit _ | .await _ | .settle _ _ => False
  | _ => True

/-- The replies that a run has. -/
def RunReplies (cancellable : Prop) (op : PipelineOp) (r : pipelineInterface.Reply op) : Prop :=
  ¬ cancellable → ¬ Cancels op r

/-- Only where the dispatch may be cancelled this is a cancellation. -/
def Stops (cancellable : Prop) (e : PipelineError) : Prop := e = .dispatchCancelled → cancellable

section code

variable {cancellable : Prop} {Q : PipelineOp → Prop}

theorem stops_ledger (e : LedgerError) : Stops cancellable (.ledger e) := by
  intro h
  cases h

theorem demands_raiseIfDispatchCancelled (hQ : Q .cancelled) :
    Demands (RunReplies cancellable) Q (fun _ => True) (Stops cancellable) raiseIfDispatchCancelled := by
  refine ⟨hQ, ?_⟩
  intro (cancelled : Bool) hreply
  cases cancelled with
  | false => trivial
  | true =>
      intro _
      by_contra hnot
      exact hreply hnot rfl

theorem demands_callAndRecord (i : ToolInvocation) (operationId : String) :
    Demands (RunReplies cancellable) (OwnRequest i) (fun r => r.callId = i.callId) (Stops cancellable)
      (callAndRecord i operationId) := by
  unfold callAndRecord
  refine demands_bind (demands_raiseIfDispatchCancelled trivial) ?_
  intro _ _
  refine ⟨rfl, ?_⟩
  intro (outcome : CallOutcome) hreply
  cases outcome with
  | cancelled =>
      intro _
      by_contra hnot
      exact hreply hnot rfl
  | outcomeUnknown message =>
      exact demands_bind (demands_ofLedger (asks_ask trivial) stops_ledger) (fun _ _ => demands_pure rfl)
  | raised message =>
      exact demands_bind (demands_ofLedger (asks_ask trivial) stops_ledger) (fun _ _ => demands_pure rfl)
  | returned result =>
      show Demands _ _ _ _ (if result.Successful then _ else _)
      split
      · exact demands_bind (demands_ofLedger (asks_ask trivial) stops_ledger) (fun _ _ => demands_pure rfl)
      · exact demands_bind (demands_ofLedger (asks_ask trivial) stops_ledger) (fun _ _ => demands_pure rfl)

/-- Starting an operation asks for nothing but the start and the callback. -/
theorem demands_startOperation (i : ToolInvocation) (operationId : String)
    (hstart : Q (.start operationId)) (hstarted : ∀ r, Q (.onStarted r i)) :
    Demands (RunReplies cancellable) Q (fun _ => True) (Stops cancellable) (startOperation i operationId) := by
  have hledger : Demands (RunReplies cancellable) Q (fun _ => True) (fun e => ∃ l, e = .ledger l)
      (start operationId) := demands_ofLedger (asks_ask hstart) (fun l => ⟨l, rfl⟩)
  refine asks_bind hledger ?_
  rintro (e | record) hr
  · obtain ⟨l, rfl⟩ := hr
    cases l <;> first | trivial | exact stops_ledger _
  · refine ⟨hstarted record, ?_⟩
    intro (outcome : CallbackOutcome) hreply
    cases outcome with
    | returned => trivial
    | transitionError => trivial
    | raised e =>
        intro hstop
        by_contra hnot
        exact hreply hnot (congrArg CallbackOutcome.raised hstop)

theorem demands_executeOne (p : PlannedInvocation) :
    Demands (RunReplies cancellable) (OwnRequest p.invocation) (fun r => r.callId = p.invocation.callId)
      (Stops cancellable) (executeOne p) := by
  unfold executeOne
  refine demands_bind (demands_raiseIfDispatchCancelled trivial) ?_
  intro _ _
  refine demands_bind (demands_ofLedger (asks_ask trivial) stops_ledger) ?_
  intro record _
  split
  · exact demands_pure rfl
  · split
    · refine demands_bind (demands_startOperation _ _ trivial (fun _ => trivial)) ?_
      intro started _
      cases started with
      | none =>
          exact demands_bind (demands_ofLedger (asks_ask trivial) stops_ledger) (fun _ _ => demands_pure rfl)
      | some record => exact demands_callAndRecord p.invocation record.operationId
    · split
      · exact demands_bind (demands_ofLedger (asks_ask trivial) stops_ledger) (fun _ _ => demands_pure rfl)
      · exact demands_pure rfl

/-- Every invocation settles with a result of its own, unless the dispatch is cancelled. -/
theorem demands_settled (p : PlannedInvocation) :
    Demands (RunReplies cancellable) (OwnRequest p.invocation) (fun r => r.callId = p.invocation.callId)
      (fun e => e = .dispatchCancelled ∧ cancellable) (settled p) := by
  refine demands_handle (demands_executeOne p) ?_
  intro e he
  cases e with
  | dispatchCancelled => exact demands_throw ⟨rfl, he rfl⟩
  | _ => exact demands_pure rfl

/-- Planning asks for nothing else, and keeps the invocations in order. -/
theorem demands_planAll {A : (op : PipelineOp) → pipelineInterface.Reply op → Prop} (seen : List String)
    (is : List ToolInvocation) (hplan : ∀ i, Q (.plan i)) :
    Demands A Q (fun ps => ps.map PlannedInvocation.invocation = is) (fun _ => True)
      (planAll seen is) := by
  induction is generalizing seen with
  | nil => exact demands_pure rfl
  | cons i is ih =>
      unfold planAll
      refine demands_bind (demands_ofLedger (asks_ask (hplan i)) (fun _ => trivial)) ?_
      intro record _
      refine demands_bind (ih _) ?_
      intro rest hrest
      exact demands_pure (by rw [List.map_cons, hrest])

end code

/-! ### What the calls are -/

/-- What is not a call or has to do with workers changes the ledger at most. -/
def Idle : PipelineOp → Prop
  | .call _ | .submit _ => False
  | _ => True

theorem unchanged_step {w w' : PipelineWorld} {op : PipelineOp} {r : pipelineInterface.Reply op}
    (hop : Idle op) (hs : pipelineStep w op r w') : w'.calls = w.calls ∧ w'.jobs = w.jobs := by
  cases op with
  | plan i => exact @returns_calls { w with drawn := w.drawn + 1 } _ _ _ hs
  | start operationId => exact returns_calls hs
  | succeed operationId result => exact returns_calls hs
  | fail operationId error result => exact returns_calls hs
  | markUnknown operationId reason => exact returns_calls hs
  | get operationId =>
      obtain ⟨-, rfl⟩ := hs
      exact ⟨rfl, rfl⟩
  | «await» ticket =>
      obtain ⟨-, rfl⟩ := hs
      exact ⟨rfl, rfl⟩
  | cancelled =>
      cases hs
      exact ⟨rfl, rfl⟩
  | onStarted r i =>
      cases hs
      exact ⟨rfl, rfl⟩
  | settle ticket r =>
      cases hs
      exact ⟨rfl, rfl⟩
  | call i => exact hop.elim
  | submit job => exact hop.elim

/-- Only invocations with a property are called, and only such are handed to workers. -/
def Among (ok : ToolInvocation → Prop) : PipelineOp → Prop
  | .call i => ok i
  | .submit job => ok job.invocation
  | _ => True

section calls

variable {ok : ToolInvocation → Prop}

theorem among_own {i : ToolInvocation} (h : ok i) (op : PipelineOp) (hop : OwnRequest i op) :
    Among ok op := by
  cases op with
  | call j =>
      obtain rfl : j = i := hop
      exact h
  | submit job => exact hop.elim
  | _ => trivial

/-- What the code of an execution returns does not matter here. -/
abbrev Calls (ok : ToolInvocation → Prop) {α : Type} (post : α → Prop) (p : PipelineM α) : Prop :=
  Demands (RunReplies True) (Among ok) post (fun _ => True) p

theorem calls_settled {p : PlannedInvocation} (h : ok p.invocation) :
    Calls ok (fun _ => True) (settled p) :=
  ((demands_settled p).mono (among_own h)).weaken (fun _ _ => trivial) (fun _ _ => trivial)

theorem calls_submitAll {ps : List PlannedInvocation} (h : ∀ p ∈ ps, ok p.invocation) :
    Calls ok (fun _ => True) (submitAll ps) := by
  induction ps with
  | nil => exact demands_pure trivial
  | cons p ps ih =>
      unfold submitAll
      refine demands_bind (demands_submit (h p List.mem_cons_self)) ?_
      intro ticket _
      exact demands_bind (ih (fun q hq => h q (List.mem_cons_of_mem p hq))) (fun _ _ => demands_pure trivial)

theorem calls_awaitAll (tickets : List ℕ) : Calls ok (fun _ => True) (awaitAll tickets) := by
  induction tickets with
  | nil => exact demands_pure trivial
  | cons ticket tickets ih =>
      unfold awaitAll
      refine demands_bind (demands_await trivial (fun _ => trivial)) ?_
      intro r _
      exact demands_bind ih (fun _ _ => demands_pure trivial)

theorem calls_settleAll {ps : List PlannedInvocation} (h : ∀ p ∈ ps, ok p.invocation) :
    Calls ok (fun _ => True) (settleAll ps) := by
  induction ps with
  | nil => exact demands_pure trivial
  | cons p ps ih =>
      unfold settleAll
      refine demands_bind (calls_settled (h p List.mem_cons_self)) ?_
      intro r _
      exact demands_bind (ih (fun q hq => h q (List.mem_cons_of_mem p hq))) (fun _ _ => demands_pure trivial)

theorem calls_runBatches {planned : List PlannedInvocation} (h : ∀ p ∈ planned, ok p.invocation)
    (batches : List ExecutionBatch) : Calls ok (fun _ => True) (runBatches planned batches) := by
  induction batches with
  | nil => exact demands_pure trivial
  | cons batch batches ih =>
      have hbatch : ∀ p ∈ plannedOf planned batch.calls, ok p.invocation :=
        fun p hp => h p (mem_plannedOf hp)
      have hall : Calls ok (fun _ => True)
          (executeAllSettled batch.concurrent (plannedOf planned batch.calls)) := by
        unfold executeAllSettled
        split
        · exact demands_bind (calls_submitAll hbatch) (fun tickets _ => calls_awaitAll tickets)
        · exact calls_settleAll hbatch
      unfold runBatches
      exact demands_bind hall (fun _ _ => demands_bind ih (fun _ _ => demands_pure trivial))

/-- An execution calls what the preparation of its requests returned. -/
theorem calls_execute (prepare : ToolRequest → Except PipelineError ToolInvocation)
    (requests : List ToolRequest) :
    Calls (fun i => ∃ request ∈ requests, prepare request = .ok i) (fun _ => True)
      (execute prepare requests) := by
  unfold execute
  split
  next => exact demands_throw trivial
  next invocations hprepared =>
    split
    next => exact demands_throw trivial
    next =>
      refine demands_bind (demands_planAll [] invocations (fun _ => trivial)) ?_
      rintro planned rfl
      refine calls_runBatches ?_ _
      intro p hp
      exact exists_of_mapM_ok hprepared (List.mem_map_of_mem hp)

theorem among_step {w w' : PipelineWorld} {op : PipelineOp} {r : pipelineInterface.Reply op}
    (hw : (∀ i ∈ w.calls, ok i) ∧ ∀ job ∈ w.jobs, ok job.2.invocation) (hop : Among ok op)
    (hs : pipelineStep w op r w') : (∀ i ∈ w'.calls, ok i) ∧ ∀ job ∈ w'.jobs, ok job.2.invocation := by
  cases op with
  | call i =>
      obtain rfl : w' = w.called i := hs
      exact ⟨List.forall_mem_cons.mpr ⟨hop, hw.1⟩, hw.2⟩
  | submit job =>
      obtain ⟨-, rfl⟩ := hs
      exact ⟨hw.1, List.forall_mem_cons.mpr ⟨hop, hw.2⟩⟩
  | _ =>
      obtain ⟨hcalls, hjobs⟩ := unchanged_step (by exact trivial) hs
      rw [hcalls, hjobs]
      exact hw

theorem asks_worker {ticket : ℕ} {job : PlannedInvocation} (h : ok job.invocation) :
    (workerJob ticket job).worker.Asks (RunReplies True) (Among ok) (fun _ => True) := by
  have hjob : Calls ok (fun _ => True) (workerJob ticket job) :=
    asks_bind (calls_settled h) (fun r _ => ⟨trivial, fun _ _ => trivial⟩)
  exact asks_bind hjob (fun _ _ => trivial)

end calls

/-! ### Authority -/

section authority

variable (search : PatternSearch) (errors : PayloadErrors) (pipeline : ToolPipeline)
  (context : PolicyContext) {requests : List ToolRequest} {L : OperationLedger} {n : ℕ}
  {P : Pool pipelineInterface PipelineOutcome PipelineWorld} {cancellable : Prop}
  {prepare : ToolRequest → Except PipelineError ToolInvocation}

/-- What is called has been prepared. -/
theorem calls_prepared (h : Pool.Reachable (oneExecutionRules cancellable)
    (oneExecutionStart prepare requests L n) P) :
    ∀ i ∈ P.state.calls, ∃ request ∈ requests, prepare request = .ok i := by
  have hinv : (∀ i ∈ P.state.calls, ∃ request ∈ requests, prepare request = .ok i) ∧
      ∀ job ∈ P.state.jobs, ∃ request ∈ requests, prepare request = .ok job.2.invocation := by
    refine @Pool.invariant_of_asks _ _ _ _ (RunReplies True)
      (Among (fun i => ∃ request ∈ requests, prepare request = .ok i))
      (fun w => (∀ i ∈ w.calls, ∃ request ∈ requests, prepare request = .ok i) ∧
        ∀ job ∈ w.jobs, ∃ request ∈ requests, prepare request = .ok job.2.invocation)
      _ _ ?_ ?_ ?_ ?_ ?_ ?_ h
    · intro w op r w' _ _ hnot
      exact absurd trivial hnot
    · intro w op r w' hw hop hs
      exact among_step hw hop hs.1
    · rintro w p w' ⟨hcalls, hjobs⟩ hs
      cases hs with
      | worker hjob =>
          exact ⟨⟨hcalls, fun job h => hjobs job (List.mem_of_mem_erase h)⟩, asks_worker (hjobs _ hjob)⟩
    · rintro w w' hw ⟨L, n, -, rfl⟩
      exact hw
    · exact ⟨List.forall_mem_nil _, List.forall_mem_nil _⟩
    · intro p hp
      obtain rfl := List.mem_singleton.mp hp
      exact asks_bind (calls_execute prepare requests) (fun _ _ => trivial)
  exact hinv.1

/-- An execution with a request that cannot be prepared does nothing. -/
theorem nothing_of_error {e : PipelineError} (he : requests.mapM prepare = .error e)
    (h : Pool.Reachable (oneExecutionRules cancellable) (oneExecutionStart prepare requests L n) P) :
    (∀ outcome ∈ P.ended, outcome = some (.error e)) ∧ P.state.calls = [] ∧ P.state.jobs = [] ∧
      Relation.ReflTransGen (oneExecutionRules cancellable).env (.start L n) P.state := by
  have hdone : (execute prepare requests).execution = .done (some (.error e)) := by
    unfold execute
    rw [he]
    rfl
  suffices hinv : (∀ p ∈ P.threads, p = .done (some (.error e))) ∧
      (∀ outcome ∈ P.ended, outcome = some (.error e)) ∧ P.state.calls = [] ∧ P.state.jobs = [] ∧
        Relation.ReflTransGen (oneExecutionRules cancellable).env (.start L n) P.state from hinv.2
  induction h with
  | refl =>
      refine ⟨?_, List.forall_mem_nil _, rfl, rfl, .refl⟩
      intro p hp
      obtain rfl := List.mem_singleton.mp hp
      exact hdone
  | tail _ hs ih =>
      obtain ⟨hthreads, hended, hcalls, hjobs, henv⟩ := ih
      cases hs with
      | act hact =>
          have hreq := hthreads _ (List.mem_append_right _ List.mem_cons_self)
          cases hreq
      | @finish w before after ended outcome =>
          have hout := hthreads _ (List.mem_append_right before List.mem_cons_self)
          refine ⟨?_, ?_, hcalls, hjobs, henv⟩
          · intro p hp
            rcases List.mem_append.mp hp with hp | hp
            · exact hthreads p (List.mem_append_left _ hp)
            · exact hthreads p (List.mem_append_right _ (List.mem_cons_of_mem _ hp))
          · intro o ho
            rcases List.mem_cons.mp ho with rfl | ho
            · exact Program.done.inj hout
            · exact hended o ho
      | @crash w before after ended q =>
          refine ⟨?_, hended, hcalls, hjobs, henv⟩
          intro p hp
          rcases List.mem_append.mp hp with hp | hp
          · exact hthreads p (List.mem_append_left _ hp)
          · exact hthreads p (List.mem_append_right _ (List.mem_cons_of_mem _ hp))
      | start hstart =>
          cases hstart with
          | worker hjob =>
              simp only at hjobs
              rw [hjobs] at hjob
              cases hjob
      | env hmove =>
          have hlater := henv.tail hmove
          obtain ⟨L', n', -, rfl⟩ := hmove
          exact ⟨hthreads, hended, hcalls, hjobs, hlater⟩

/-- **Hooks cannot widen authority.**  Every call was checked as its request demands, with the arguments
that it has in the end; and when a request of the batch is refused, nothing of the batch is done. -/
theorem execute_authorized (h : Pool.Reachable (oneExecutionRules cancellable)
    (oneExecutionStart (pipeline.prepare search errors context) requests L n) P) :
    (∀ i ∈ P.state.calls, ∃ request ∈ requests, ∃ spec,
        ToolPipeline.Authorized search pipeline context request spec i ∧
          (SchemaOk spec.inputSchema → ∀ v s, Governs (.dict i.call.args) spec.inputSchema v s →
            Meets Json.pyEq v s)) ∧
      ((∃ request ∈ requests, ∃ e, pipeline.prepare search errors context request = .error e) →
        (∀ outcome ∈ P.ended, ∃ request ∈ requests, ∃ e,
            pipeline.prepare search errors context request = .error e ∧ outcome = some (.error e)) ∧
          P.state.calls = [] ∧ P.state.jobs = [] ∧
            Relation.ReflTransGen (oneExecutionRules cancellable).env (.start L n) P.state) := by
  constructor
  · intro i hi
    obtain ⟨request, hrequest, hprepared⟩ := calls_prepared h i hi
    obtain ⟨spec, hspec⟩ := ToolPipeline.prepare_authorized hprepared
    exact ⟨request, hrequest, spec, hspec, fun hok v s hpart => hspec.meets hok hpart⟩
  · rintro ⟨request, hrequest, e, he⟩
    cases hall : requests.mapM (pipeline.prepare search errors context) with
    | ok invocations =>
        obtain ⟨i, -, hi⟩ := mem_of_mapM_ok hall hrequest
        rw [he] at hi
        cases hi
    | error e' =>
        obtain ⟨hended, hnothing⟩ := nothing_of_error hall h
        obtain ⟨failed, hfailed, hprepare⟩ := exists_of_mapM_error hall
        exact ⟨fun outcome ho => ⟨failed, hfailed, e', hprepare, hended outcome ho⟩, hnothing⟩

end authority

/-- Nobody cancels, the callback returns and every tool succeeds. -/
def happyAlone : Strategy (oneExecutionRules True).step where
  act := happyStep.act
  sound := fun h => ⟨happyStep.sound h, fun hnot => absurd trivial hnot⟩

/-- A pipeline with one tool and a hook that changes the amount. -/
def chargingPipeline : ToolPipeline where
  registry := ⟨[{ name := "charge_card", inputSchema := [("properties", .dict [("amount", .dict
    [("type", .str "integer")])])] }], by decide⟩
  hooks := some ⟨fun _ => [fun payload => .ok (payload, .dict
    ((payload.asDict.getD []).set "args" (.dict [("amount", .int 5)])))]⟩

/-- The context of an agent that may use it. -/
def chargingContext : PolicyContext where
  agentId := ⟨"clerk", by decide⟩
  assignmentId := ⟨"orders", by decide⟩
  mode := ⟨"llm-live", by decide⟩
  allowedTools := {"charge_card"}

def chargeRequest : ToolRequest where
  call := ⟨"charge_card", [("amount", .int 7)]⟩
  callId := "call-1"

/-- A request for a tool that the agent may not use. -/
def refundRequest : ToolRequest where
  call := ⟨"refund_card", [("amount", .int 7)]⟩
  callId := "call-2"

/-- What the pipeline prepares for the agent. -/
def prepareCharge : ToolRequest → Except PipelineError ToolInvocation :=
  chargingPipeline.prepare (fun _ _ => .ok true) Json.pyRepr chargingContext

theorem prepareCharge_refund :
    prepareCharge refundRequest = .error (.validation "unknown tool: refund_card") := rfl

/-- The charge alone, to its end. -/
def chargedAlone : Pool pipelineInterface PipelineOutcome PipelineWorld :=
  Pool.follow happyAlone (oneExecutionStart prepareCharge [chargeRequest] (.empty false) 0)
    [0, 0, 0, 0, 0, 0, 0]

/-- The card is charged what the hook made of the request, and this is what was checked; a batch with a
request that is refused ends with the refusal, and nothing of it is done. -/
theorem execute_authorized_charge :
    (chargedAlone.state.calls.map (fun i => i.call) = [⟨"charge_card", [("amount", .int 5)]⟩] ∧
      ∀ i ∈ chargedAlone.state.calls, ∃ request ∈ [chargeRequest], ∃ spec, ToolPipeline.Authorized
        (fun _ _ => .ok true) chargingPipeline chargingContext request spec i) ∧
      ∃ P, Pool.Reachable (oneExecutionRules True)
          (oneExecutionStart prepareCharge [chargeRequest, refundRequest] (.empty false) 0) P ∧
        P.ended ≠ [] ∧ P.state.calls = [] ∧ ∀ outcome ∈ P.ended, ∃ request ∈ [chargeRequest, refundRequest],
          ∃ e, prepareCharge request = .error e ∧ outcome = some (.error e) := by
  refine ⟨⟨by decide +kernel, ?_⟩, ?_⟩
  · intro i hi
    obtain ⟨request, hrequest, spec, hspec, -⟩ := (execute_authorized (fun _ _ => .ok true) Json.pyRepr
      chargingPipeline chargingContext (Pool.follow_reachable happyAlone _ _)).1 i hi
    exact ⟨request, hrequest, spec, hspec⟩
  · have hdone : .done (some (.error (.validation "unknown tool: refund_card"))) ∈
        (oneExecutionStart prepareCharge [chargeRequest, refundRequest] (.empty false) 0).threads :=
      List.mem_singleton_self _
    obtain ⟨P, hreach, -, hended⟩ := @Pool.ended_of_done _ _ _ (oneExecutionRules True) _ _ hdone
    obtain ⟨hrefused, hcalls, -⟩ := (execute_authorized (fun _ _ => .ok true) Json.pyRepr chargingPipeline
      chargingContext hreach).2 ⟨refundRequest, List.mem_cons_of_mem _ (List.mem_singleton_self _), _,
        prepareCharge_refund⟩
    exact ⟨P, hreach, List.ne_nil_of_mem hended, hcalls, hrefused⟩

end CrazyHarness
