import CrazyHarness.Lib.Decimal
import CrazyHarness.Agents.Loop
import CrazyHarness.Store.ModelBudget

/-! # Model calls under an authority

`PersistentModelCallAuthority` as programs over the table `model_calls`: before a request is sent
its call is reserved and its attempt is recorded, and a request that a dead process has left
behind is settled before a new one is made.  `governedRunOnce` is `AgentLoop.run_once` with the
three steps it takes with its authority written out.

`governedStep` says what each step does to the log, the ledger and the table.  Other components may
write between any two steps, also to the table, but not to a call of this agent, whose identifier
is one it has drawn itself.  `sent` lists the requests for which the provider was called; no code
reads it. -/

namespace CrazyHarness

open Lib

/-! ### Prices -/

/-- `DeepSeekPriceCard`; a price for a million tokens in dollars is one for a token in
microdollars. -/
structure DeepSeekPriceCard where
  model : String
  effectiveDate : String
  inputCacheHit : ℚ
  inputCacheMiss : ℚ
  output : ℚ
  sourceUrl : String

/-- `_PRICE_SOURCE`. -/
def priceSource : String := "https://api-docs.deepseek.com/quick_start/pricing"

/-- `_PRICE_CARDS`. -/
def priceCards : List DeepSeekPriceCard :=
  [{ model := "deepseek-v4-flash", effectiveDate := "2026-07-18", inputCacheHit := 28 / 10000,
     inputCacheMiss := 14 / 100, output := 28 / 100, sourceUrl := priceSource },
   { model := "deepseek-v4-pro", effectiveDate := "2026-07-18", inputCacheHit := 3625 / 1000000,
     inputCacheMiss := 435 / 1000, output := 87 / 100, sourceUrl := priceSource }]

/-- `estimate_microusd`. -/
def DeepSeekPriceCard.estimateMicrousd (card : DeepSeekPriceCard) (inputTokens outputTokens : ℤ) : ℤ :=
  ⌈inputTokens * card.inputCacheMiss + outputTokens * card.output⌉

/-- `actual_microusd`. -/
def DeepSeekPriceCard.actualMicrousd (card : DeepSeekPriceCard) (usage : ModelUsage) : ℤ :=
  ⌈usage.promptCacheHitTokens * card.inputCacheHit +
    usage.promptCacheMissTokens * card.inputCacheMiss + usage.completionTokens * card.output⌉

/-! ### Exceptions -/

/-- An exception: the name of its class and `str(exc)`. -/
structure Raised where
  typeName : String
  message : String
deriving DecidableEq

/-- The exception of a store operation. -/
def StoreError.raised : StoreError → Raised
  | .valueError message => ⟨"ValueError", message⟩
  | .typeError => ⟨"TypeError", ""⟩
  | .keyError message => ⟨"KeyError", message⟩
  | .runtimeError message => ⟨"RuntimeError", message⟩
  | .integrityError => ⟨"IntegrityError", ""⟩
  | .modelCallRejected message => ⟨"ModelCallRejected", message⟩
  | .modelCallConflict message => ⟨"ModelCallConflict", message⟩
  | .modelBudgetExceeded message => ⟨"ModelBudgetExceeded", message⟩
  | .workClaimLost message => ⟨"WorkClaimLost", message⟩
  | .unfencedAck message => ⟨"UnfencedAck", message⟩
  | .commandPreconditionFailed reason => ⟨"CommandPreconditionFailed", reason⟩

/-- What the HTTP client can raise, as far as `_classify_error` tells it apart. -/
inductive ProviderErrorKind where
  | httpStatus (code : ℕ)
  | connect
  | connectTimeout
  | transport
  | other
deriving DecidableEq

/-- An exception of the provider. -/
structure ProviderError where
  kind : ProviderErrorKind
  raised : Raised

/-- `_classify_error`: whether to retry, and whether the outcome is uncertain. -/
def classifyError (e : ProviderError) : Bool × Bool :=
  match e.kind with
  | .httpStatus code => (code ∈ [429, 500, 503], false)
  | .connect | .connectTimeout => (true, false)
  | .transport => (false, true)
  | .other => (false, false)

/-- The text of the column `state`. -/
def ModelCallState.value : ModelCallState → String
  | .reserved => "reserved"
  | .inFlight => "in_flight"
  | .unknown => "unknown"
  | .failed => "failed"
  | .completed => "completed"

/-- `ModelCallFailed(state=state, error=error)`. -/
def modelCallFailed (state : ModelCallState) (error : Raised) : Raised where
  typeName := "ModelCallFailed"
  message := "model call " ++ state.value ++ ": " ++ error.typeName ++ ": " ++ error.message

/-! ### Usage -/

/-- `_non_negative_usage_int`, with whether it fell back. -/
def nonNegativeUsageInt (usage : Dict) (key : String) (fallback : ℤ) : ℤ × Bool :=
  match usage.get? key with
  | none | some (.bool _) => (fallback, true)
  | some v =>
      match v.pyInt with
      | none => (fallback, true)
      | some value => if value < 0 then (fallback, true) else (value, false)

/-- `_normalize_usage`, with the quality of the result. -/
def normalizeUsage (usage : Dict) (fallbackInputTokens fallbackOutputTokens : ℤ) :
    ModelUsage × String :=
  let prompt := nonNegativeUsageInt usage "prompt_tokens" fallbackInputTokens
  let completion := nonNegativeUsageInt usage "completion_tokens" fallbackOutputTokens
  let hit := nonNegativeUsageInt usage "prompt_cache_hit_tokens" 0
  let miss := nonNegativeUsageInt usage "prompt_cache_miss_tokens" (max 0 (prompt.1 - hit.1))
  let inconsistent := decide (hit.1 + miss.1 ≠ prompt.1)
  let promptTokens := if inconsistent then max prompt.1 (hit.1 + miss.1) else prompt.1
  let total := nonNegativeUsageInt usage "total_tokens" (promptTokens + completion.1)
  ({ promptTokens := promptTokens
     promptCacheHitTokens := if inconsistent then 0 else hit.1
     promptCacheMissTokens := if inconsistent then promptTokens else miss.1
     completionTokens := completion.1
     totalTokens := max total.1 (promptTokens + completion.1) },
    if prompt.2 || completion.2 || hit.2 || miss.2 || total.2 || inconsistent then
      "pessimistic_fallback"
    else "reported")

/-- The usage as the dictionary an event carries. -/
def ModelUsage.dump (u : ModelUsage) : Dict :=
  [("prompt_tokens", .int u.promptTokens), ("prompt_cache_hit_tokens", .int u.promptCacheHitTokens),
    ("prompt_cache_miss_tokens", .int u.promptCacheMissTokens),
    ("completion_tokens", .int u.completionTokens), ("total_tokens", .int u.totalTokens)]

/-! ### The authority -/

/-- `ModelBudgetConfig`. -/
structure ModelBudgetConfig where
  maxTotalTokens : ℤ := 250000
  maxCostUsd : ℚ := 1 / 10
  maxConcurrentCalls : ℤ := 2
  maxOutputTokensPerCall : ℤ := 4096
  maxRetriesPerCall : ℕ := 2
  maxTotalTokens_ge : 1 ≤ maxTotalTokens := by decide
  maxCostUsd_pos : 0 < maxCostUsd := by norm_num
  maxConcurrentCalls_ge : 1 ≤ maxConcurrentCalls := by decide
  maxConcurrentCalls_le : maxConcurrentCalls ≤ 64 := by decide
  maxOutputTokensPerCall_ge : 1 ≤ maxOutputTokensPerCall := by decide
  maxOutputTokensPerCall_le : maxOutputTokensPerCall ≤ 384000 := by decide
  maxRetriesPerCall_le : maxRetriesPerCall ≤ 5 := by decide

/-- The calls at a time that a budget allows by default. -/
theorem defaultCalls_ge : (1 : ℤ) ≤ 2 := by decide

/-- `ModelBudgetConfig()`. -/
def defaultBudget : ModelBudgetConfig where
  maxConcurrentCalls_ge := defaultCalls_ge

/-- The result of a decimal operation, in the default context. -/
def inContext (q : ℚ) : ℚ := roundDigits 28 q

/-- `_usd_to_microusd`. -/
def usdToMicrousd (value : ℚ) : ℤ := ⌈inContext (value * 1000000)⌉

theorem usdToMicrousd_pos {value : ℚ} (h : 0 < value) : 1 ≤ usdToMicrousd value := by
  rw [usdToMicrousd, Int.one_le_ceil_iff]
  apply roundDigits_pos (by decide)
  positivity

/-- The limits of the run, with its cost in microdollars. -/
def ModelBudgetConfig.limits (b : ModelBudgetConfig) : ModelLimits where
  maxTotalTokens := b.maxTotalTokens
  maxCostMicrousd := usdToMicrousd b.maxCostUsd
  maxConcurrentCalls := b.maxConcurrentCalls
  maxTotalTokens_pos := b.maxTotalTokens_ge
  maxCostMicrousd_pos := usdToMicrousd_pos b.maxCostUsd_pos
  maxConcurrentCalls_pos := b.maxConcurrentCalls_ge

/-- What the authority reads of its provider, with the defaults of `getattr`. -/
structure ModelProvider where
  className : String
  model : String := "deepseek-v4-flash"
  maxTokens : Option ℤ := none
  attestation : Option Dict := none

/-- The fields of a `PersistentModelCallAuthority` with the provider it is given.  The validation
of a budget and the encoding of a request are those of the libraries it calls. -/
structure Authority where
  provider : ModelProvider
  validateBudget : Json → Except Raised ModelBudgetConfig
  encodedLength : Event → ℕ
  hasBeforeReserve : Bool := false

/-- `STALE_CALL_SECONDS`. -/
def staleCallSeconds : ℤ := 240

/-- `_price_card`. -/
def priceCard (model : String) : Except Raised DeepSeekPriceCard :=
  match priceCards.find? (fun card => card.model = model) with
  | some card => .ok card
  | none => .error ⟨"ValueError", "no versioned price card for model: " ++ model⟩

/-- `_input_token_upper_bound`. -/
def Authority.inputTokenUpperBound (A : Authority) (request : Event) : ℤ :=
  A.encodedLength request + 32

/-- What a call is reserved with. -/
structure CallQuote where
  profile : Dict
  price : DeepSeekPriceCard
  inputTokens : ℤ
  outputTokens : ℤ
  reservedCost : ℤ

/-- The part of `complete` that computes the reservation. -/
def Authority.quote (A : Authority) (budget : ModelBudgetConfig) (request : Event) :
    Except Raised CallQuote :=
  let outputTokens := A.provider.maxTokens.getD budget.maxOutputTokensPerCall
  match priceCard A.provider.model with
  | .error e => .error e
  | .ok price =>
      if budget.maxOutputTokensPerCall < outputTokens then
        .error ⟨"ValueError", "provider max_tokens exceeds the persisted Run budget"⟩
      else
        .ok
          { profile := A.provider.attestation.getD
              [("provider", .str A.provider.className), ("model", .str A.provider.model),
                ("max_output_tokens", .int outputTokens)]
            price := price
            inputTokens := A.inputTokenUpperBound request
            outputTokens := outputTokens
            reservedCost := price.estimateMicrousd (A.inputTokenUpperBound request) outputTokens }

/-! ### Steps -/

/-- The atomic steps of a loop with its authority. -/
inductive GovernedOp where
  | loop (op : LoopOp)
  | projectRun (runId : String)
  | now
  | modelCall (callId : String)
  | recoverStale (runId : String) (staleBefore : DateTime)
  | beforeReserve
  | reserve (c : ModelReservation) (limits : ModelLimits)
  | startAttempt (callId : String)
  | failCall (callId : String) (uncertain : Bool) (errorType errorMessage : String)
  | reconcileCall (callId completionEventId : String) (usage : ModelUsage) (actualCost : ℤ)
  | record (identity : Event) (key type : String) (payload : Dict)
  | provide (request : Event)
  | sleep (index : ℕ)

/-- The interface of a loop with its authority. -/
def governedInterface : Interface where
  Op := GovernedOp
  Reply
    | .loop op => loopInterface.Reply op
    | .projectRun _ => Option Dict
    | .now => DateTime
    | .modelCall _ => Option ModelCallRow
    | .recoverStale _ _ => Except StoreError (ℕ × ℕ)
    | .beforeReserve => Except Raised Unit
    | .reserve _ _ => Except StoreError ModelCallRow
    | .startAttempt _ => Except StoreError ℕ
    | .failCall _ _ _ _ => Except StoreError Unit
    | .reconcileCall _ _ _ _ => Except StoreError Bool
    | .record _ _ _ _ => Except Raised Unit
    | .provide _ => Except ProviderError ModelResponse
    | .sleep _ => Unit

/-- Code of the authority, with its exceptions. -/
abbrev AuthorityM := ExceptT Raised (Program governedInterface)

namespace AuthorityM

/-- One atomic step. -/
def ask (op : GovernedOp) : Program governedInterface (governedInterface.Reply op) :=
  @Program.perform governedInterface op

/-- A step that cannot raise. -/
def read {α : Type} (p : Program governedInterface α) : AuthorityM α := p.bind (fun a => .done (.ok a))

/-- A step of the store. -/
def store {α : Type} (p : Program governedInterface (Except StoreError α)) : AuthorityM α :=
  p.bind (fun
    | .ok a => .done (.ok a)
    | .error e => .done (.error e.raised))

/-- A pure part of the code. -/
def pureE {α : Type} (r : Except Raised α) : AuthorityM α := .done r

/-- `fail_model_call`. -/
def fail (callId : String) (uncertain : Bool) (errorType errorMessage : String) : AuthorityM Unit :=
  store (ask (.failCall callId uncertain errorType errorMessage))

/-- `_append`. -/
def record (identity : Event) (key type : String) (payload : Dict) : AuthorityM Unit :=
  ask (.record identity key type payload)

end AuthorityM

open AuthorityM

/-! ### Recovery -/

/-- The end of a call of which no attempt was sent. -/
def releaseUnsent (request : Event) (state : ModelCallState) : AuthorityM Unit := do
  (if state = .reserved then
    fail request.id false "AbandonedReservation" "process stopped before a transport attempt started"
  else pure () : AuthorityM Unit)
  record request "recovery:failed" "model.call.failed"
    [("call_id", .str request.id), ("attempt", .int 0), ("state", .str "failed"),
      ("error_type", .str "AbandonedReservation"),
      ("reason", .str "no transport attempt started; a new Turn may retry")]

/-- A call whose transport may have completed is never sampled again. -/
def refuseResampling (request : Event) (call : ModelCallRow) : AuthorityM Unit := do
  let recovered : ModelCallState := if call.state = .failed then .failed else .unknown
  (if call.state = .failed ∨ call.state = .unknown then pure ()
  else fail request.id true "UnresolvedModelAttempt"
    "transport may have completed before response persistence" : AuthorityM Unit)
  record request ("recovery:" ++ recovered.value) "model.call.failed"
    [("call_id", .str request.id), ("attempt", .int call.attemptCount),
      ("state", .str recovered.value), ("error_type", .str "UnresolvedModelAttempt"),
      ("reason", .str "persisted Attempt has no durable model.completed")]
  throw (modelCallFailed recovered
    ⟨"RuntimeError", "persisted model attempt has no durable response; resampling is unsafe"⟩)

/-- `recover_unresolved` once its call has been read. -/
def settleCall (request : Event) (call : ModelCallRow) : AuthorityM Unit :=
  if call.attemptCount = 0 ∧ (call.state = .reserved ∨ call.state = .failed) then
    releaseUnsent request call.state
  else refuseResampling request call

/-- `recover_unresolved`. -/
def recoverUnresolved (request : Event) : AuthorityM Unit :=
  (ask (.modelCall request.id)).bind (fun (r : Option ModelCallRow) =>
    match r with
    | none => .done (.ok ())
    | some call => settleCall request call)

/-! ### A call -/

/-- An audit event; without it the call is given up. -/
def audited (request : Event) (key type : String) (payload : Dict) (errorMessage : String) :
    AuthorityM Unit :=
  (ask (.record request key type payload)).bind (fun (r : Except Raised Unit) =>
    match r with
    | .ok () => .done (.ok ())
    | .error exc => do
        fail request.id false exc.typeName errorMessage
        throw exc : Except Raised Unit → AuthorityM Unit)

/-- The text of `min(2.0, 0.25 * 2**index)`. -/
def delayText : ℕ → String
  | 0 => "0.25"
  | 1 => "0.5"
  | 2 => "1.0"
  | _ => "2.0"

/-- An attempt that is made again later. -/
def scheduleRetry (request : Event) (attempt index : ℕ) (error : ProviderError) :
    AuthorityM Unit := do
  record request ("retry:" ++ toString attempt) "model.call.retry.scheduled"
    [("call_id", .str request.id), ("attempt", .int attempt),
      ("delay_seconds", .float (min 2 ((1 / 4) * 2 ^ index)) (delayText index)),
      ("error_type", .str error.raised.typeName)]
  read (ask (.sleep index))

/-- An attempt that is the last. -/
def giveUp (request : Event) (attempt : ℕ) (uncertain : Bool) (error : Raised) :
    AuthorityM ModelResponse := do
  let state : ModelCallState := if uncertain then .unknown else .failed
  fail request.id uncertain error.typeName error.message
  record request "failed" "model.call.failed"
    [("call_id", .str request.id), ("attempt", .int attempt), ("state", .str state.value),
      ("error_type", .str error.typeName), ("reason", .str error.message)]
  throw (modelCallFailed state error)

/-- The attempts of a reserved call: how many are left, and the index of the next. -/
def attempts (model : String) (request : Event) : ℕ → ℕ → AuthorityM ModelResponse
  | 0, _ => throw ⟨"AssertionError", "model attempt loop exhausted without a result"⟩
  | left + 1, index => do
      let attempt ← store (ask (.startAttempt request.id))
      audited request ("attempt:" ++ toString attempt) "model.call.attempt.started"
        [("call_id", .str request.id), ("attempt", .int attempt), ("model", .str model)]
        "attempt audit event was not committed"
      (ask (.provide request)).bind (fun (r : Except ProviderError ModelResponse) =>
        match r with
        | .ok response => .done (.ok response)
        | .error error =>
            (if (classifyError error).1 ∧ left ≠ 0 then do
              scheduleRetry request attempt index error
              attempts model request left (index + 1)
            else giveUp request attempt (classifyError error).2 error.raised : AuthorityM ModelResponse))

/-- The reservation of a call and its audit event. -/
def Authority.reserve (A : Authority) (budget : ModelBudgetConfig) (quote : CallQuote)
    (request : Event) : AuthorityM Unit := do
  (if A.hasBeforeReserve then ask .beforeReserve else pure () : AuthorityM Unit)
  let _ ← store (ask (.reserve
    { callId := request.id, runId := request.runId, taskId := request.taskId,
      agentId := request.source, provider := A.provider.className, model := A.provider.model,
      reservedInputTokens := quote.inputTokens, reservedOutputTokens := quote.outputTokens,
      reservedCostMicrousd := quote.reservedCost } budget.limits))
  audited request "reserved" "model.call.reserved"
    [("call_id", .str request.id), ("model", .str A.provider.model),
      ("provider_profile", .dict quote.profile), ("reserved_input_tokens", .int quote.inputTokens),
      ("reserved_output_tokens", .int quote.outputTokens),
      ("reserved_cost_microusd", .int quote.reservedCost),
      ("price_effective_date", .str quote.price.effectiveDate), ("cost_kind", .str "estimate")]
    "reservation audit event was not committed"

/-- `provider.complete` without an account. -/
def provideFreely (request : Event) : AuthorityM ModelResponse :=
  (ask (.provide request)).bind (fun (r : Except ProviderError ModelResponse) =>
    match r with
    | .ok response => .done (.ok response)
    | .error error => .done (.error error.raised))

/-- `run.get("model_budget") or {}`. -/
def budgetOf (run : Dict) : Json :=
  if (run.getD "model_budget" .null).truthy then run.getD "model_budget" .null else .dict []

/-- `complete`. -/
def Authority.complete (A : Authority) (request : Event) : AuthorityM ModelResponse := do
  let projected ← read (ask (.projectRun request.runId))
  let run := projected.getD []
  if run.getD "model_mode" (.str "scripted") ≠ .str "deepseek" then provideFreely request
  else do
    let budget ← pureE (A.validateBudget (budgetOf run))
    let now ← read (ask .now)
    let _ ← store (ask (.recoverStale request.runId (now.addSeconds (-staleCallSeconds))))
    let quote ← pureE (A.quote budget request)
    A.reserve budget quote request
    attempts A.provider.model request (budget.maxRetriesPerCall + 1) 0

/-! ### Reconciliation -/

/-- `dict(completion_event.payload.get("usage") or {})`. -/
def reportedUsage (completion : Event) : Except Raised Dict :=
  match completion.payload.getD "usage" .null with
  | .dict usage => .ok usage
  | v => if v.truthy then .error ⟨"TypeError", "usage is not a dictionary"⟩ else .ok []

/-- The event of a recorded usage; accounting is kept when a cancelled run rejects it. -/
def recordUsage (completion : Event) (payload : Dict) : AuthorityM Unit :=
  (ask (.record completion "usage" "model.usage.recorded" payload)).bind
    (fun (r : Except Raised Unit) =>
      match r with
      | .ok () => .done (.ok ())
      | .error exc =>
          if exc.typeName = "WorkClaimLost" then .done (.ok ()) else .done (.error exc))

/-- `reconcile` once its call has been read. -/
def chargeCall (request completion : Event) (call : ModelCallRow) : AuthorityM Bool := do
  let reported ← pureE (reportedUsage completion)
  let (usage, quality) := normalizeUsage reported call.reservedInputTokens call.reservedOutputTokens
  let price ← pureE (priceCard call.model)
  let actualCost := price.actualMicrousd usage
  let changed ← store (ask (.reconcileCall request.id completion.id usage actualCost))
  recordUsage completion
    [("call_id", .str request.id), ("completion_event_id", .str completion.id),
      ("usage", .dict usage.dump), ("usage_quality", .str quality),
      ("estimated_cost_microusd", .int actualCost), ("cost_kind", .str "estimate"),
      ("price_effective_date", .str price.effectiveDate), ("price_source", .str price.sourceUrl)]
  pure changed

/-- `reconcile`. -/
def reconcile (request completion : Event) : AuthorityM Bool :=
  (ask (.modelCall request.id)).bind (fun (r : Option ModelCallRow) =>
    match r with
    | none => .done (.ok false)
    | some call => chargeCall request completion call)

/-! ### The loop with its authority -/

/-- The exception as the loop sees it. -/
def told {α β : Type} (f : α → β) (p : AuthorityM α) : Program governedInterface (Except String β) :=
  Program.bind p (fun
    | .ok a => .done (.ok (f a))
    | .error exc => .done (.error exc.message))

/-- The steps of the loop; those with the authority are its programs. -/
def governed (cfg : AgentConfig) (A : Authority) :
    (op : LoopOp) → Program governedInterface (loopInterface.Reply op)
  | .recoverUnresolved request => told id (recoverUnresolved request)
  | .complete request =>
      told id (if cfg.hasAuthority then A.complete request else provideFreely request)
  | .reconcile request completion => told (fun _ => ()) (reconcile request completion)
  | op => ask (.loop op)

/-- `AgentLoop.run_once` with its authority. -/
def governedRunOnce (cfg : AgentConfig) (A : Authority) :
    Program governedInterface (Except LoopError Unit × Unit) :=
  (runOnce cfg).interpret (fun op s => (governed cfg A op).bind (fun r => .done (r, s))) ()

/-! ### The world of a governed loop -/

/-- The loop with the store of its authority; `sent` lists the requests the provider has been
asked. -/
structure GovernedWorld where
  loop : LoopWorld
  db : Database
  sent : List String := []

/-- The call an operation is about. -/
def ModelCallOp.callId? : ModelCallOp → Option String
  | .reserve c _ _ => some c.callId
  | .start callId _ | .fail callId _ _ _ _ | .reconcile callId _ _ _ _ => some callId
  | .recover _ _ _ | .elsewhere _ => none

/-- An operation of another agent, which never knows the identifiers this one draws. -/
def ModelCallOp.OfOthers (op : ModelCallOp) : Prop := ∀ n, op.callId? ≠ some (uuid4 n)

/-- The store after some operations of others. -/
inductive OthersCall : Database → Database → Prop
  | refl (db : Database) : OthersCall db db
  | step {db db' : Database} {op : ModelCallOp} (h : OthersCall db db') (hop : op.OfOthers) :
      OthersCall db (op.apply db')

namespace GovernedWorld

variable (w : GovernedWorld)

/-- A transaction of the store and its reply. -/
def Commits {α : Type} (result : Except StoreError (α × Database)) (r : Except StoreError α)
    (w' : GovernedWorld) : Prop :=
  match result with
  | .ok (a, db) => r = .ok a ∧ w' = { w with db := db }
  | .error e => r = .error e ∧ w' = w

/-- The event `_append` of the authority makes. -/
def auditEvent (identity : Event) (key type : String) (payload : Dict) (now : DateTime) : Event where
  id := uuid5 ("model-governance:" ++ identity.id ++ ":" ++ key)
  runId := identity.runId
  taskId := identity.taskId
  type := type
  source := "runtime.model-governance"
  payload := payload
  causationId := some identity.id
  createdAt := now

/-- The audit event is appended, is there already, or is refused. -/
def Records (e : Event) (r : Except Raised Unit) (w' : GovernedWorld) : Prop :=
  (w' = w ∧ ((∃ a ∈ w.loop.log, a.id = e.id) ∨ r ≠ .ok ())) ∨
    (r = .ok () ∧ (∀ a ∈ w.loop.log, a.id ≠ e.id) ∧
      w' = { w with loop := { w.loop with log := w.loop.log ++ [e] } })

end GovernedWorld

/-- What each step replies and does, when nobody else writes in between. -/
def governedAct (cfg : AgentConfig) (w : GovernedWorld) :
    (op : GovernedOp) → governedInterface.Reply op → GovernedWorld → Prop
  | .loop op, r, w' => ∃ loop, loopAct cfg w.loop op r loop ∧ w' = { w with loop := loop }
  | .projectRun runId, r, w' => r = w.db.loadProjection "run" runId ∧ w' = w
  | .modelCall callId, r, w' => r = w.db.modelCalls.lookup callId ∧ w' = w
  | .recoverStale runId staleBefore, r, w' =>
      ∃ now, w.Commits (w.db.recoverStaleModelCalls runId staleBefore now) r w'
  | .reserve c limits, r, w' => ∃ now, w.Commits (w.db.reserveModelCall c limits now) r w'
  | .startAttempt callId, r, w' => ∃ now, w.Commits (w.db.startModelCallAttempt callId now) r w'
  | .failCall callId uncertain errorType errorMessage, r, w' =>
      ∃ now, w.Commits ((w.db.failModelCall callId uncertain errorType errorMessage now).map
        (fun db => ((), db))) r w'
  | .reconcileCall callId completionEventId usage cost, r, w' =>
      ∃ now, w.Commits (w.db.reconcileModelCall callId completionEventId usage cost now) r w'
  | .record identity key type payload, r, w' =>
      ∃ now, w.Records (GovernedWorld.auditEvent identity key type payload now) r w'
  | .provide request, _, w' => w' = { w with sent := w.sent ++ [request.id] }
  | .now, _, w' | .beforeReserve, _, w' | .sleep _, _, w' => w' = w

/-- A step of the governed loop, after any writes of others. -/
def governedStep (cfg : AgentConfig) (w : GovernedWorld) (op : GovernedOp)
    (r : governedInterface.Reply op) (w' : GovernedWorld) : Prop :=
  ∃ log db, ForeignGrowth w.loop.log log ∧ OthersCall w.db db ∧
    governedAct cfg { w with loop := { w.loop with log := log }, db := db } op r w'

/-- The process has died; a new one opens the ledger and the store again. -/
def GovernedWorld.restarted (w : GovernedWorld) : GovernedWorld := { w with loop := w.loop.restarted }

/-- What the runs of a governed loop can make of a world.  `died` is any point a `run_once` can come
to, its end included. -/
inductive Continues (cfg : AgentConfig) (A : Authority) : GovernedWorld → GovernedWorld → Prop
  | refl (w : GovernedWorld) : Continues cfg A w w
  | died {w w' w'' : GovernedWorld} {p : Program governedInterface (Except LoopError Unit × Unit)}
      (h : Continues cfg A w w')
      (hr : Program.Reaches (governedStep cfg) (governedRunOnce cfg A) w' p w'') :
      Continues cfg A w w''
  | written {w w' : GovernedWorld} {log : List Event} {db : Database} (h : Continues cfg A w w')
      (hforeign : ForeignGrowth w'.loop.log log) (hothers : OthersCall w'.db db) :
      Continues cfg A w { w' with loop := { w'.loop with log := log }, db := db }
  | restarted {w w' : GovernedWorld} (h : Continues cfg A w w') : Continues cfg A w w'.restarted

/-- The states that the runs of a governed loop leave behind, over a task and a store in which it
has done nothing yet. -/
def GovernedSurvives (cfg : AgentConfig) (A : Authority) (w : GovernedWorld) : Prop :=
  ∃ log durable db, log ≠ [] ∧ ForeignGrowth [] log ∧
    (∀ n, db.modelCalls.lookup (uuid4 n) = none) ∧
    Continues cfg A
      { loop := { log := log, pipe := { ledger := .empty durable, drawn := 0 } }, db := db } w

/-! ### Counts -/

/-- The attempts that have been started for a request. -/
def Database.attemptsOf (db : Database) (callId : String) : ℕ :=
  (db.modelCalls.lookup callId).elim 0 ModelCallRow.attemptCount

/-- The operations that a command has started. -/
def startsOf (events : List Event) (command : Event) : ℕ :=
  events.countP (fun e => e.type = "operation.started" ∧ e.causationId = some command.id)

end CrazyHarness
