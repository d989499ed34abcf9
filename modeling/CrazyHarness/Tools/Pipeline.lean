import CrazyHarness.Lib.Pool
import CrazyHarness.Tools.Ledger

/-! # The tool pipeline

`ToolPipeline.execute` as a program over the atomic steps it takes: the locked methods of the
ledger, the calls of the registry, the callback of its caller and the cooperative
cancellation of the dispatch.  Nothing is assumed of the last three, so a tool, a callback or
a cancellation may answer anything at any time.

A concurrent batch runs in a thread pool: the executing thread submits one job for each
invocation and waits for all of them, and worker threads take the jobs.  `pipelineRules` says
which programs may run over one shared ledger: any number of executions, and a worker for
each submitted job.

The preparation of a request (schema, hooks, policy) does not touch the ledger; it is a
parameter. -/

namespace CrazyHarness

open Lib OperationLedger

/-- The exceptions of `ToolPipeline.execute`. -/
inductive PipelineError where
  | validation (message : String)
  | policyDenied (reason : String)
  | ledger (e : LedgerError)
  | dispatchCancelled
  | raised (message : String)
deriving DecidableEq

/-- `str(exc)`. -/
def PipelineError.text : PipelineError → String
  | .validation message => message
  | .policyDenied reason => reason
  | .ledger e => e.text
  | .dispatchCancelled => "dispatch cancelled"
  | .raised message => message

/-- How the callback `on_started` ends; without a callback it returns. -/
inductive CallbackOutcome where
  | returned
  | transitionError
  | raised (e : PipelineError)
deriving DecidableEq

/-- How `registry.call` ends. -/
inductive CallOutcome where
  | returned (result : ToolResult)
  | outcomeUnknown (message : String)
  | cancelled
  | raised (message : String)
deriving DecidableEq

/-- An invocation with its record, and whether it is the first one of its operation. -/
structure PlannedInvocation where
  invocation : ToolInvocation
  record : OperationRecord
  primary : Bool
deriving DecidableEq

/-- The atomic steps of the pipeline. -/
inductive PipelineOp where
  | plan (i : ToolInvocation)
  | get (operationId : String)
  | start (operationId : String)
  | succeed (operationId : String) (result : ToolResult)
  | fail (operationId error : String) (result : Option ToolResult)
  | markUnknown (operationId reason : String)
  | cancelled
  | onStarted (r : OperationRecord) (i : ToolInvocation)
  | call (i : ToolInvocation)
  | submit (job : PlannedInvocation)
  | await (ticket : ℕ)
  | settle (ticket : ℕ) (r : Except PipelineError SettledToolResult)

/-- The pipeline's interface to the ledger, the registry and the thread pool. -/
def pipelineInterface : Interface where
  Op := PipelineOp
  Reply
    | .plan _ | .get _ | .start _ | .succeed _ _ | .fail _ _ _ | .markUnknown _ _ =>
        Except LedgerError OperationRecord
    | .cancelled => Bool
    | .onStarted _ _ => CallbackOutcome
    | .call _ => CallOutcome
    | .submit _ => ℕ
    | .await _ => Except PipelineError SettledToolResult
    | .settle _ _ => Unit

/-- Pipeline code, with its exceptions. -/
abbrev PipelineM := ExceptT PipelineError (Program pipelineInterface)

namespace PipelineM

/-- One atomic step. -/
def ask (op : PipelineOp) : Program pipelineInterface (pipelineInterface.Reply op) :=
  @Program.perform pipelineInterface op

/-- The exceptions of the ledger are exceptions of the pipeline. -/
def ofLedger (p : Program pipelineInterface (Except LedgerError OperationRecord)) :
    PipelineM OperationRecord :=
  p.bind (fun
    | .ok r => .done (.ok r)
    | .error e => .done (.error (.ledger e)))

def plan (i : ToolInvocation) : PipelineM OperationRecord := ofLedger (ask (.plan i))

def get (operationId : String) : PipelineM OperationRecord := ofLedger (ask (.get operationId))

def start (operationId : String) : PipelineM OperationRecord := ofLedger (ask (.start operationId))

def succeed (operationId : String) (result : ToolResult) : PipelineM OperationRecord :=
  ofLedger (ask (.succeed operationId result))

def fail (operationId error : String) (result : Option ToolResult) : PipelineM OperationRecord :=
  ofLedger (ask (.fail operationId error result))

def markUnknown (operationId reason : String) : PipelineM OperationRecord :=
  ofLedger (ask (.markUnknown operationId reason))

/-- `raise_if_dispatch_cancelled()`. -/
def raiseIfDispatchCancelled : PipelineM Unit :=
  (ask .cancelled).bind (fun (cancelled : Bool) =>
    if cancelled then .done (.error .dispatchCancelled) else .done (.ok ()))

def onStarted (r : OperationRecord) (i : ToolInvocation) : PipelineM CallbackOutcome :=
  (ask (.onStarted r i)).bind (fun (outcome : CallbackOutcome) => .done (.ok outcome))

def call (i : ToolInvocation) : PipelineM CallOutcome :=
  (ask (.call i)).bind (fun (outcome : CallOutcome) => .done (.ok outcome))

/-- `try: p except e: handler(e)`. -/
def handle {α : Type} (p : PipelineM α) (handler : PipelineError → PipelineM α) : PipelineM α :=
  Program.bind p (fun
    | .ok a => .done (.ok a)
    | .error e => handler e)

end PipelineM

open PipelineM

/-- `_existing_result`. -/
def existingResult (i : ToolInvocation) (r : OperationRecord) (duplicate : Bool) :
    SettledToolResult where
  callId := i.callId
  operationId := some r.operationId
  status :=
    match r.state with
    | .unknown | .reconciling | .started => .unknown
    | .succeeded | .failed => .cached
    | .planned => if duplicate then .duplicate else .rejected
  result := r.result
  error := r.error

/-- The error recorded for a result that is not successful. -/
def resultError (result : ToolResult) : String :=
  match result.error with
  | some e => if e = "" then "tool returned status " ++ Json.reprStr result.status else e
  | none => "tool returned status " ++ Json.reprStr result.status

/-- `_execute_one` once the operation has started: call the tool, record how it ended. -/
def callAndRecord (i : ToolInvocation) (operationId : String) : PipelineM SettledToolResult := do
  raiseIfDispatchCancelled
  let outcome ← call i
  match outcome with
  | .cancelled => throw .dispatchCancelled
  | .outcomeUnknown message => do
      let _ ← markUnknown operationId message
      pure { callId := i.callId, operationId := some operationId, status := .unknown,
             error := some message }
  | .raised message => do
      let _ ← fail operationId message none
      pure { callId := i.callId, operationId := some operationId, status := .rejected,
             error := some message }
  | .returned result =>
      if result.Successful then do
        let _ ← succeed operationId result
        pure { callId := i.callId, operationId := some operationId, status := .fulfilled,
               result := some result }
      else do
        let _ ← fail operationId (resultError result) (some result)
        pure { callId := i.callId, operationId := some operationId, status := .rejected,
               result := some result, error := some (resultError result) }

/-- Start the operation and tell the caller; `none` when the ledger or the callback raised
`OperationTransitionError`. -/
def startOperation (i : ToolInvocation) (operationId : String) :
    PipelineM (Option OperationRecord) :=
  Program.bind (start operationId) (fun
    | .error (.ledger (.transition _ _)) => .done (.ok none)
    | .error e => .done (.error e)
    | .ok record =>
        Program.bind (onStarted record i) (fun
          | .ok .returned => .done (.ok (some record))
          | .ok .transitionError => .done (.ok none)
          | .ok (.raised e) => .done (.error e)
          | .error e => .done (.error e)))

/-- `_execute_one`. -/
def executeOne (p : PlannedInvocation) : PipelineM SettledToolResult := do
  raiseIfDispatchCancelled
  let record ← get p.record.operationId
  if !p.primary then pure (existingResult p.invocation record true)
  else if record.state = .planned then do
    let started ← startOperation p.invocation record.operationId
    match started with
    | none => do
        let record ← get record.operationId
        pure (existingResult p.invocation record false)
    | some record => callAndRecord p.invocation record.operationId
  else if record.state = .started then do
    let record ← markUnknown record.operationId "existing started operation has no confirmed result"
    pure (existingResult p.invocation record false)
  else pure (existingResult p.invocation record false)

/-- `settle` of `execute_all_settled`: every failure but a cancellation is an outcome. -/
def settled (p : PlannedInvocation) : PipelineM SettledToolResult :=
  handle (executeOne p) (fun
    | .dispatchCancelled => throw .dispatchCancelled
    | e => pure { callId := p.invocation.callId, status := .rejected, error := some e.text })

/-- Plan every invocation; the first one of an operation is its primary one. -/
def planAll (seen : List String) : List ToolInvocation → PipelineM (List PlannedInvocation)
  | [] => pure []
  | i :: is => do
      let record ← plan i
      let rest ← planAll (record.operationId :: seen) is
      pure (⟨i, record, record.operationId ∉ seen⟩ :: rest)

/-- Submit one job for each invocation of a concurrent batch. -/
def submitAll : List PlannedInvocation → PipelineM (List ℕ)
  | [] => pure []
  | p :: ps => do
      let ticket ← (ask (.submit p)).bind (fun (ticket : ℕ) => .done (.ok ticket))
      let rest ← submitAll ps
      pure (ticket :: rest)

/-- Wait for the submitted jobs, in their order. -/
def awaitAll : List ℕ → PipelineM (List SettledToolResult)
  | [] => pure []
  | ticket :: tickets => do
      let r ← (ask (.await ticket) : PipelineM SettledToolResult)
      let rest ← awaitAll tickets
      pure (r :: rest)

/-- The invocations of a sequential batch, one after the other. -/
def settleAll : List PlannedInvocation → PipelineM (List SettledToolResult)
  | [] => pure []
  | p :: ps => do
      let r ← settled p
      let rest ← settleAll ps
      pure (r :: rest)

/-- The planned invocation of a call id. -/
def plannedOf (planned : List PlannedInvocation) (calls : List ToolInvocation) :
    List PlannedInvocation :=
  calls.filterMap (fun i => planned.find? (fun p => p.invocation.callId = i.callId))

/-- `execute_all_settled`. -/
def executeAllSettled (concurrent : Bool) (calls : List PlannedInvocation) :
    PipelineM (List SettledToolResult) :=
  if concurrent then do
    let tickets ← submitAll calls
    awaitAll tickets
  else settleAll calls

/-- The batches of an execution, each after the one before has settled. -/
def runBatches (planned : List PlannedInvocation) :
    List ExecutionBatch → PipelineM (List (List SettledToolResult))
  | [] => pure []
  | batch :: batches => do
      let results ← executeAllSettled batch.concurrent (plannedOf planned batch.calls)
      let rest ← runBatches planned batches
      pure (results :: rest)

/-- `execute`; `prepare` is the outcome of the preparation of each request. -/
def execute (prepare : ToolRequest → Except PipelineError ToolInvocation)
    (requests : List ToolRequest) : PipelineM (List (List SettledToolResult)) :=
  match requests.mapM prepare with
  | .error e => throw e
  | .ok invocations =>
      if ¬ (invocations.map ToolInvocation.callId).Nodup then
        throw (.validation "call_id values must be unique within one pipeline execution")
      else do
        let planned ← planAll [] invocations
        runBatches planned (planBatches [] [] invocations)

/-- The job of a worker thread. -/
def workerJob (ticket : ℕ) (p : PlannedInvocation) : PipelineM Unit :=
  Program.bind (settled p) (fun r =>
    (ask (.settle ticket r)).bind (fun (_ : Unit) => .done (.ok ())))

/-! ### Running executions -/

/-- What executions share: the ledger, the invocations the registry was called for, the jobs
that wait for a worker and the results of those that have ended. -/
structure PipelineWorld where
  ledger : OperationLedger
  drawn : ℕ
  calls : List ToolInvocation := []
  jobs : List (ℕ × PlannedInvocation) := []
  nextTicket : ℕ := 0
  settled : List (ℕ × Except PipelineError SettledToolResult) := []

namespace PipelineWorld

variable (w : PipelineWorld)

/-- A method of the ledger returns with a new ledger or raises. -/
def returns (out : Except LedgerError (OperationRecord × OperationLedger)) :
    Except LedgerError OperationRecord × PipelineWorld :=
  match out with
  | .ok (r, L) => (.ok r, { w with ledger := L })
  | .error e => (.error e, w)

/-- `registry.call` is invoked. -/
def called (i : ToolInvocation) : PipelineWorld := { w with calls := i :: w.calls }

/-- A job waits for a worker. -/
def submitted (job : PlannedInvocation) : PipelineWorld :=
  { w with jobs := (w.nextTicket, job) :: w.jobs, nextTicket := w.nextTicket + 1 }

end PipelineWorld

/-- What each atomic step replies and does. -/
def pipelineStep (w : PipelineWorld) :
    (op : PipelineOp) → pipelineInterface.Reply op → PipelineWorld → Prop
  | .plan i, r, w' =>
      (r, w') = { w with drawn := w.drawn + 1 }.returns (w.ledger.plan i (newOperationId w.drawn))
  | .get operationId, r, w' => r = w.ledger.get operationId ∧ w' = w
  | .start operationId, r, w' => (r, w') = w.returns (w.ledger.start operationId)
  | .succeed operationId result, r, w' => (r, w') = w.returns (w.ledger.succeed operationId result)
  | .fail operationId error result, r, w' =>
      (r, w') = w.returns (w.ledger.fail operationId error result)
  | .markUnknown operationId reason, r, w' =>
      (r, w') = w.returns (w.ledger.markUnknown operationId reason)
  | .cancelled, _, w' => w' = w
  | .onStarted _ _, _, w' => w' = w
  | .call i, _, w' => w' = w.called i
  | .submit job, ticket, w' => ticket = w.nextTicket ∧ w' = w.submitted job
  | .await ticket, r, w' => (ticket, r) ∈ w.settled ∧ w' = w
  | .settle ticket r, _, w' => w' = { w with settled := (ticket, r) :: w.settled }

/-- A program for a thread; nobody takes its value. -/
def PipelineM.thread {α : Type} (p : PipelineM α) : Program pipelineInterface Unit :=
  Program.bind p (fun _ => .done ())

/-- Executions start at any time, workers when there is a job. -/
inductive PipelineStarts : PipelineWorld → Program pipelineInterface Unit → PipelineWorld → Prop
  | execute (w : PipelineWorld) (prepare : ToolRequest → Except PipelineError ToolInvocation)
      (requests : List ToolRequest) : PipelineStarts w (execute prepare requests).thread w
  | worker {w : PipelineWorld} {ticket : ℕ} {job : PlannedInvocation}
      (h : (ticket, job) ∈ w.jobs) :
      PipelineStarts w (workerJob ticket job).thread { w with jobs := w.jobs.erase (ticket, job) }

/-- Any number of executions over one ledger. -/
def pipelineRules : PoolRules pipelineInterface Unit PipelineWorld where
  step := pipelineStep
  starts := PipelineStarts
  env := fun _ _ => False

end CrazyHarness
