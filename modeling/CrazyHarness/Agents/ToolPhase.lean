import CrazyHarness.Agents.Turns

/-! # The tool phase of a turn

`_execute_via_pipeline` and the direct path keep the invariant of the loop.  The pipeline is
sequential here, a single call of a turn that has not called before, so that its operation is
planned anew, started in the ledger, started in the log and then settled. -/

namespace CrazyHarness

open Lib Program OperationLedger LoopM

/-! ### The key of a call -/

theorem colon_not_mem_turnId (n : ℤ) : ':' ∉ (turnId n).toList := by
  have hdigits : ∀ m : ℕ, ':' ∉ Nat.toDigits 10 m := fun m => not_mem_toDigits (by decide)
  unfold turnId
  rw [String.toList_append, List.mem_append, not_or]
  refine ⟨by decide, ?_⟩
  cases n with
  | ofNat m =>
      rw [show (Int.ofNat m).repr = m.repr from rfl, Nat.toList_repr]
      exact hdigits m
  | negSucc m =>
      rw [show (Int.negSucc m).repr = "-" ++ (m + 1).repr from rfl, String.toList_append,
        Nat.toList_repr]
      simpa using hdigits (m + 1)

/-- The key of a call names its turn. -/
theorem callKey_turn {cfg : AgentConfig} {m n : ℤ} {tool tool' : String}
    (h : cfg.callKey (turnId m) tool = cfg.callKey (turnId n) tool') : turnId m = turnId n := by
  have htake : ∀ (k : ℤ) (rest : List Char),
      ((turnId k).toList ++ ':' :: rest).takeWhile (· ≠ ':') = (turnId k).toList := by
    intro k rest
    rw [List.takeWhile_append_of_pos]
    · simp
    · intro c hc
      have : c ≠ ':' := by
        rintro rfl
        exact colon_not_mem_turnId k hc
      simpa using this
  have hlists := congrArg String.toList h
  simp only [AgentConfig.callKey, String.append_assoc, String.toList_append, List.append_cancel_left_eq]
    at hlists
  have := congrArg (List.takeWhile (· ≠ ':')) hlists
  simp only [show (":" : String).toList = [':'] from rfl, List.singleton_append] at this
  rw [htake, htake] at this
  exact String.toList_inj.mp this

section pipeline

variable {α β : Type} {cfg : AgentConfig} {w : LoopWorld} {t : String} {v : View}
  {action : AgentAction} {command : Event}

/-- A turn that has not entered its tool phase has not called a tool. -/
theorem At.key_free (h : At cfg w t v) (hex : v.executed = false) (tool : String) :
    w.pipe.ledger.byIdempotencyKey (cfg.callKey t tool) = none := by
  cases hkey : w.pipe.ledger.byIdempotencyKey (cfg.callKey t tool) with
  | none => rfl
  | some r =>
      unfold OperationLedger.byIdempotencyKey at hkey
      obtain ⟨e, he, hr⟩ := Option.bind_eq_some_iff.mp hkey
      obtain ⟨r', hr', hkeyr⟩ := h.recorded.ledger.indexed _ e he
      obtain ⟨n, tool', hcall, hexec⟩ := h.recorded.keyed e.2 r' hr'
      obtain ⟨m, rfl⟩ := h.current.named
      rw [← callKey_turn (hkeyr.symm.trans hcall)] at hexec
      rw [← h.current.view] at hex
      exact absurd hexec (by rw [show turnExecuted w.log (turnId m) = false from hex]; simp)

/-! ### Rules for the pipeline -/

/-- What the pipeline keeps while it runs for the loop, and how it ends. -/
def Pipes (cfg : AgentConfig) (action : AgentAction) (t : String) (command : Event)
    (Q : α → Option Event → LoopWorld → Prop) (p : Program pipelineInterface α) (s : Option Event)
    (w : LoopWorld) : Prop :=
  Program.Safe (loopStep cfg) (fun w (_ : Unit) => LoopOk cfg w) Eq (fun _ _ => True)
    (fun rs w' _ => Q rs.1 rs.2 w') (p.interpret (pipelineHandler action t command) s) w ()

section rules

variable {Q : α → Option Event → LoopWorld → Prop} {R : β → Option Event → LoopWorld → Prop}
  {s : Option Event}

theorem pipes_done {a : α} (h : Q a s w) : Pipes cfg action t command Q (.done a) s w := h

theorem pipes_bind {p : Program pipelineInterface α} {f : α → Program pipelineInterface β}
    (h : Pipes cfg action t command Q p s w)
    (hf : ∀ a s' w', Q a s' w' → Pipes cfg action t command R (f a) s' w') :
    Pipes cfg action t command R (p.bind f) s w := by
  have hsplit := interpret_bind (pipelineHandler action t command) p f s
  have hsafe := safe_bind h (fun rs w' _ hq => hf rs.1 rs.2 w' hq)
  unfold Pipes
  exact hsplit.symm ▸ hsafe

/-- Pipeline code goes on from a value and ends with an exception. -/
theorem pipes_andThen {Q : Except PipelineError α → Option Event → LoopWorld → Prop}
    {R : Except PipelineError β → Option Event → LoopWorld → Prop} {p : PipelineM α}
    {f : α → PipelineM β} (h : Pipes cfg action t command Q p s w)
    (hok : ∀ a s' w', Q (.ok a) s' w' → Pipes cfg action t command R (f a) s' w')
    (herr : ∀ e s' w', Q (.error e) s' w' → R (.error e) s' w') :
    Pipes cfg action t command R (p >>= f : PipelineM β) s w := by
  show Pipes cfg action t command R (Program.bind p (ExceptT.bindCont f)) s w
  refine pipes_bind h ?_
  intro r s' w' hq
  cases r with
  | ok a => exact hok a s' w' hq
  | error e => exact pipes_done (herr e s' w' hq)

/-- A step of the pipeline, after the events of others. -/
theorem pipes_step {op : PipelineOp} {f : pipelineInterface.Reply op → Program pipelineInterface β}
    (hop : ∀ r i, op ≠ .onStarted r i)
    (h : ∀ log r pipe, ForeignGrowth w.log log → pipelineStep w.pipe op r pipe →
      LoopOk cfg { w with log := log, pipe := pipe } ∧
        Pipes cfg action t command R (f r) s { w with log := log, pipe := pipe }) :
    Pipes cfg action t command R ((PipelineM.ask op).bind f) s w := by
  have hhandler : pipelineHandler action t command op s =
      (ask (.pipeline op)).bind (fun r => .done (r, s)) := by
    cases op with
    | onStarted r i => exact absurd rfl (hop r i)
    | _ => rfl
  unfold Pipes
  show Program.Safe _ _ _ _ _ ((pipelineHandler action t command op s).bind _) w ()
  rw [hhandler]
  rintro w₁ _ r w' rfl _ ⟨log, hgrow, pipe, hstep, rfl⟩
  obtain ⟨hok, hrest⟩ := h log r pipe hgrow hstep
  exact ⟨(), hok, trivial, hrest⟩

/-- A step that leaves the ledger alone. -/
theorem pipes_reads {op : PipelineOp} {f : pipelineInterface.Reply op → Program pipelineInterface β}
    (hop : ∀ r i, op ≠ .onStarted r i)
    (hpipe : ∀ pipe r pipe', pipelineStep pipe op r pipe' → pipe'.ledger = pipe.ledger ∧
      pipe'.drawn = pipe.drawn) (h : At cfg w t v)
    (hf : ∀ r w', At cfg w' t v → ForeignGrowth w.log w'.log → w'.pipe.ledger = w.pipe.ledger →
      w'.pipe.drawn = w.pipe.drawn → pipelineStep w.pipe op r w'.pipe →
      Pipes cfg action t command R (f r) s w') :
    Pipes cfg action t command R ((PipelineM.ask op).bind f) s w := by
  refine pipes_step hop ?_
  intro log r pipe hgrow hstep
  obtain ⟨hledger, hdrawn⟩ := hpipe _ _ _ hstep
  have hat : At cfg { w with log := log, pipe := pipe } t v := by
    refine (h.foreignGrowth hgrow).withPipe ?_ hdrawn.ge ?_
    · rw [hledger, hdrawn]
      exact h.recorded.ledger
    · intro id r hlook
      rw [hledger] at hlook
      exact .inl ⟨r, hlook, rfl, fun _ => .inl rfl⟩
  exact ⟨⟨t, v, hat⟩, hf r _ hat hgrow hledger hdrawn hstep⟩

/-! ### One operation -/

/-- The ledger has the operation in a state. -/
def Holds (w : LoopWorld) (id : String) (state : OperationState) (r : OperationRecord) : Prop :=
  w.pipe.ledger.records.lookup id = some r ∧ r.operationId = id ∧ r.state = state

/-- How a step of the operation in the ledger ends. -/
def Moved (cfg : AgentConfig) (w : LoopWorld) (t : String) (v : View) (s : Option Event) (id : String)
    (state : OperationState) (out : Except PipelineError OperationRecord) (s' : Option Event)
    (w' : LoopWorld) : Prop :=
  s' = s ∧ At cfg w' t v ∧ ForeignGrowth w.log w'.log ∧ w'.pipe.drawn = w.pipe.drawn ∧
    ∃ r, out = .ok r ∧ Holds w' id state r

theorem transition_of_allowed {L : OperationLedger} {id : String} {r : OperationRecord}
    {target : OperationState} (result : Option ToolResult) (error : Option String)
    (hlook : L.records.lookup id = some r) (hid : r.operationId = id)
    (hallowed : target ∈ r.state.allowed) :
    ∃ r' L', L.transition id target result error = .ok (r', L') ∧ r'.operationId = id ∧
      r'.state = target ∧ L'.records.lookup id = some r' := by
  have hne : r.state ≠ target := by
    rintro rfl
    cases hs : r.state <;> simp [hs, OperationState.allowed] at hallowed
  refine ⟨{ r with state := target, result := result, error := error },
    L.store { r with state := target, result := result, error := error }, ?_, hid, rfl, ?_⟩
  · unfold OperationLedger.transition
    rw [get_ok_iff.mpr hlook]
    simp only
    rw [if_neg hne, if_pos hallowed]
  · simp only [OperationLedger.store, Table.lookup_upsert]
    rw [if_pos hid.symm]

theorem pipes_get (h : At cfg w t v) {id : String} {state : OperationState} {r : OperationRecord}
    (hr : Holds w id state r) :
    Pipes cfg action t command (Moved cfg w t v s id state) (PipelineM.get id) s w := by
  refine pipes_reads (by simp) ?_ h ?_
  · rintro pipe r' pipe' ⟨_, rfl⟩
    exact ⟨rfl, rfl⟩
  · intro out w' hat hgrow hledger hdrawn hstep
    obtain rfl : out = .ok r := by
      rw [hstep.1]
      exact get_ok_iff.mpr hr.1
    refine pipes_done ⟨rfl, hat, hgrow, hdrawn, r, rfl, ?_, hr.2⟩
    rw [hledger]
    exact hr.1

/-- The code is one transition of the ledger. -/
def Transits (cfg : AgentConfig) (action : AgentAction) (t : String) (command : Event)
    (p : PipelineM OperationRecord) (id : String) (target : OperationState)
    (result : Option ToolResult) (error : Option String) : Prop :=
  ∀ (Q : Except PipelineError OperationRecord → Option Event → LoopWorld → Prop) s w,
    (∀ log out pipe, ForeignGrowth w.log log →
      (out, pipe) = w.pipe.returns (w.pipe.ledger.transition id target result error) →
      LoopOk cfg { w with log := log, pipe := pipe } ∧
        Q (out.mapError PipelineError.ledger) s { w with log := log, pipe := pipe }) →
    Pipes cfg action t command Q p s w

theorem transits_start (id : String) :
    Transits cfg action t command (PipelineM.start id) id .started none none := by
  intro Q s w h
  refine pipes_step (by simp) ?_
  intro log out pipe hgrow hstep
  obtain ⟨hok, hq⟩ := h log out pipe hgrow hstep
  cases out <;> exact ⟨hok, hq⟩

theorem transits_succeed (id : String) (result : ToolResult) :
    Transits cfg action t command (PipelineM.succeed id result) id .succeeded (some result) none := by
  intro Q s w h
  refine pipes_step (by simp) ?_
  intro log out pipe hgrow hstep
  obtain ⟨hok, hq⟩ := h log out pipe hgrow hstep
  cases out <;> exact ⟨hok, hq⟩

theorem transits_fail (id error : String) (result : Option ToolResult) :
    Transits cfg action t command (PipelineM.fail id error result) id .failed result (some error) := by
  intro Q s w h
  refine pipes_step (by simp) ?_
  intro log out pipe hgrow hstep
  obtain ⟨hok, hq⟩ := h log out pipe hgrow hstep
  cases out <;> exact ⟨hok, hq⟩

theorem transits_markUnknown (id reason : String) :
    Transits cfg action t command (PipelineM.markUnknown id reason) id .unknown none (some reason) := by
  intro Q s w h
  refine pipes_step (by simp) ?_
  intro log out pipe hgrow hstep
  obtain ⟨hok, hq⟩ := h log out pipe hgrow hstep
  cases out <;> exact ⟨hok, hq⟩

/-- An operation that may make a transition makes it. -/
theorem Transits.moved {p : PipelineM OperationRecord} {id : String} {target state : OperationState}
    {result : Option ToolResult} {error : Option String} {r : OperationRecord}
    (hp : Transits cfg action t command p id target result error) (h : At cfg w t v)
    (hr : Holds w id state r) (hallowed : target ∈ state.allowed)
    (hsucc : target = .succeeded →
      result.isSome ∧ ∃ p, v.pending = some p ∧ p.operation = .str id) :
    Pipes cfg action t command (Moved cfg w t v s id target) p s w := by
  apply hp
  intro log out pipe hgrow hstep
  obtain ⟨hlook, hid, rfl⟩ := hr
  obtain ⟨r', L, htrans, hid', hstate, hlook'⟩ :=
    transition_of_allowed result error hlook hid hallowed
  rw [htrans] at hstep
  obtain ⟨rfl, rfl⟩ := Prod.mk.inj hstep
  have hat := (h.foreignGrowth hgrow).transition hsucc htrans
  exact ⟨⟨t, v, hat⟩, rfl, hat, hgrow, rfl, r', rfl, hlook', hid', hstate⟩

/-- The pipeline goes on after a transition that the operation may make. -/
theorem Transits.andThen {p : PipelineM OperationRecord} {id : String}
    {target state : OperationState} {result : Option ToolResult} {error : Option String}
    {r : OperationRecord} {R : Except PipelineError β → Option Event → LoopWorld → Prop}
    {f : OperationRecord → PipelineM β} (hp : Transits cfg action t command p id target result error)
    (h : At cfg w t v) (hr : Holds w id state r) (hallowed : target ∈ state.allowed)
    (hsucc : target = .succeeded → result.isSome ∧ ∃ p, v.pending = some p ∧ p.operation = .str id)
    (hf : ∀ r' w', At cfg w' t v → Holds w' id target r' →
      Pipes cfg action t command R (f r') s w') :
    Pipes cfg action t command R (p >>= f : PipelineM β) s w := by
  refine pipes_andThen (hp.moved h hr hallowed hsucc) ?_ ?_
  · rintro r' s' w' ⟨rfl, hat, _, _, _, hout, hr'⟩
    obtain rfl := Except.ok.inj hout
    exact hf _ w' hat hr'
  · rintro e s' w' ⟨_, _, _, _, _, hout, _⟩
    cases hout

theorem pipes_raiseIfDispatchCancelled (h : At cfg w t v) :
    Pipes cfg action t command (fun out s' w' => s' = s ∧ At cfg w' t v ∧
      ForeignGrowth w.log w'.log ∧ w'.pipe.ledger = w.pipe.ledger ∧ w'.pipe.drawn = w.pipe.drawn ∧
      (out = .ok () ∨ out = .error .dispatchCancelled)) PipelineM.raiseIfDispatchCancelled s w := by
  refine pipes_reads (by simp) ?_ h ?_
  · rintro pipe r' pipe' rfl
    exact ⟨rfl, rfl⟩
  · intro out w' hat hgrow hledger hdrawn _
    cases out with
    | false => exact pipes_done ⟨rfl, hat, hgrow, hledger, hdrawn, .inl rfl⟩
    | true => exact pipes_done ⟨rfl, hat, hgrow, hledger, hdrawn, .inr rfl⟩

theorem pipes_call (h : At cfg w t v) (i : ToolInvocation) :
    Pipes cfg action t command (fun out s' w' => s' = s ∧ At cfg w' t v ∧
      w'.pipe.ledger = w.pipe.ledger ∧ ∃ r, out = .ok r) (PipelineM.call i) s w := by
  refine pipes_reads (by simp) ?_ h ?_
  · rintro pipe r' pipe' rfl
    exact ⟨rfl, rfl⟩
  · intro out w' hat _ hledger _ _
    exact pipes_done ⟨rfl, hat, hledger, out, rfl⟩

end rules

/-! ### Starting an operation -/

/-- The budget of the contract leaves room for one more operation. -/
def View.WithinBudget (cfg : AgentConfig) (v : View) : Prop :=
  ∀ n : ℕ, cfg.contract.bind AssignmentContract.toolCalls = some (n : ℤ) → v.starts < n

/-- The turn is in its tool phase and may start an operation for its command. -/
structure View.Executing (cfg : AgentConfig) (v : View) (c : Event) : Prop where
  phase : v.phase = some (some .actionExecuting)
  executed : v.executed = true
  pending : v.pending = none
  closed : v.closed = false
  commanded : v.command = some c
  budget : v.WithinBudget cfg

variable {E : LoopError → LoopWorld → Prop}

/-- The request of a tool whose operation has started. -/
theorem keeps_requested (hv : v.Executing cfg command) {o : Event} (h : At cfg w t (v.starting o))
    {payload : Dict} {cause : Option String} (hturn : payload.get? "turn_id" = some (.str t)) :
    Keeps cfg E (fun _ w' => At cfg w' t (v.starting o) ∧ w'.pipe = w.pipe)
      (append "tool.requested" payload cause) w := by
  refine (keeps_note h hturn (by simp [noteTypes]) ?_).weaken (fun _ _ hq => ⟨hq.1, hq.2.1⟩)
  intro _
  have hallowed : transitionAllowed .actionExecuting .resultRecording := by decide
  rw [View.blocked_of_pending rfl]
  simp [View.starting, View.CanEnter, hv.phase, hallowed]

theorem keeps_recordStarted (hv : v.Executing cfg command) (h : At cfg w t v) {m : ℕ}
    (hm : m < w.pipe.drawn) (hnew : NewOperation w.log (.str (newOperationId m)))
    {r : OperationRecord} (hr : r.operationId = newOperationId m) (i : ToolInvocation) :
    Keeps cfg E (fun o w' => At cfg w' t (v.starting o) ∧ w'.pipe = w.pipe ∧
      o.operation = .str (newOperationId m)) (recordStarted action t command r i) w := by
  refine keeps_bind (keeps_started h hv.pending hv.closed hv.commanded hv.phase hv.budget hm hnew
    (by simp) (by simp [Dict.get?_cons, hr])) ?_
  rintro o w₁ ⟨hat, hpipe, hop⟩
  refine keeps_bind (keeps_requested hv hat (by simp)) ?_
  rintro - w₂ ⟨hat₂, hpipe₂⟩
  exact keeps_pure ⟨hat₂, hpipe₂.trans hpipe, hop⟩

/-- The callback writes the start of the operation. -/
theorem pipes_onStarted (hv : v.Executing cfg command) (h : At cfg w t v) {m : ℕ}
    (hm : m < w.pipe.drawn) (hnew : NewOperation w.log (.str (newOperationId m)))
    {r : OperationRecord} (hr : r.operationId = newOperationId m) (i : ToolInvocation)
    (s : Option Event) :
    Pipes cfg action t command (fun out s' w' => ∃ o, out = .ok .returned ∧ s' = some o ∧
      At cfg w' t (v.starting o) ∧ w'.pipe = w.pipe ∧ o.operation = .str (newOperationId m))
      (PipelineM.onStarted r i) s w := by
  have hrec : Keeps cfg (fun _ _ => False) _ (recordStarted action t command r i) w :=
    keeps_recordStarted hv h hm hnew hr i
  have hhandler : Program.Safe (loopStep cfg) (fun w (_ : Unit) => LoopOk cfg w) Eq
      (fun _ _ => True) (fun rs w' _ => ∃ o, rs = (CallbackOutcome.returned, some o) ∧
        At cfg w' t (v.starting o) ∧ w'.pipe = w.pipe ∧ o.operation = .str (newOperationId m))
      (pipelineHandler action t command (.onStarted r i) s) w () := by
    refine safe_bind hrec ?_
    intro out w' _ hq
    cases out with
    | error e => exact absurd hq id
    | ok o => exact safe_done ⟨o, rfl, hq⟩
  refine safe_bind hhandler ?_
  rintro rs w' _ ⟨o, rfl, hq⟩
  exact safe_done ⟨o, rfl, rfl, hq⟩

/-! ### One call -/

/-- How the call of a turn ends: it is cancelled, or it is settled and its operation pends. -/
def Called (cfg : AgentConfig) (t : String) (v : View) (id : String)
    (out : Except PipelineError SettledToolResult) (s : Option Event) (w : LoopWorld) : Prop :=
  match out with
  | .error e => e = .dispatchCancelled ∧ ∃ v', At cfg w t v' ∧ Unsettled w v'
  | .ok settled => ∃ o, s = some o ∧ At cfg w t (v.starting o) ∧ o.operation = .str id ∧
      settled.operationId = some id ∧
      (settled.status = .fulfilled ∧ settled.result.isSome ∨
        settled.status ∈ [SettledStatus.unknown, .rejected] ∧ Unsettled w (v.starting o))

/-- An operation in a state other than success has not succeeded. -/
theorem Holds.unsettled {o : Event} {id : String} {state : OperationState} {r : OperationRecord}
    (hr : Holds w id state r) (hop : o.operation = .str id) (hstate : state ≠ .succeeded) :
    Unsettled w (v.starting o) := by
  intro p id' r' hp hid hlook
  obtain rfl := Option.some.inj hp
  rw [hop] at hid
  obtain rfl := Json.str.inj hid
  rw [hr.1] at hlook
  obtain rfl := Option.some.inj hlook
  rw [hr.2.2]
  exact hstate

theorem pipes_callAndRecord {o : Event} {id : String} {r : OperationRecord}
    (h : At cfg w t (v.starting o)) (hop : o.operation = .str id) (hr : Holds w id .started r)
    (i : ToolInvocation) :
    Pipes cfg action t command (Called cfg t v id) (callAndRecord i id) (some o) w := by
  have hunsettled : ∀ w', w'.pipe.ledger = w.pipe.ledger → Unsettled w' (v.starting o) := by
    intro w' hledger
    have hr' : Holds w' id .started r := by
      unfold Holds
      rw [hledger]
      exact hr
    exact hr'.unsettled hop (by simp)
  refine pipes_andThen (pipes_raiseIfDispatchCancelled h) ?_ ?_
  · rintro - s₁ w₁ ⟨rfl, hat₁, _, hledger₁, _, _⟩
    refine pipes_andThen (pipes_call hat₁ i) ?_ ?_
    · rintro outcome s₂ w₂ ⟨rfl, hat₂, hledger₂, _⟩
      have hr₂ : Holds w₂ id .started r := by
        unfold Holds
        rw [hledger₂, hledger₁]
        exact hr
      cases outcome with
      | cancelled =>
          exact pipes_done ⟨rfl, _, hat₂, hr₂.unsettled hop (by simp)⟩
      | outcomeUnknown message =>
          refine (transits_markUnknown id message).andThen hat₂ hr₂
            (by simp [OperationState.allowed]) (by simp) ?_
          intro _ w₃ hat₃ hr₃
          exact pipes_done ⟨o, rfl, hat₃, hop, rfl, .inr ⟨by simp, hr₃.unsettled hop (by simp)⟩⟩
      | raised message =>
          refine (transits_fail id message none).andThen hat₂ hr₂
            (by simp [OperationState.allowed]) (by simp) ?_
          intro _ w₃ hat₃ hr₃
          exact pipes_done ⟨o, rfl, hat₃, hop, rfl, .inr ⟨by simp, hr₃.unsettled hop (by simp)⟩⟩
      | returned result =>
          show Pipes _ _ _ _ _ (if result.Successful then _ else _) _ _
          split
          · refine (transits_succeed id result).andThen hat₂ hr₂
              (by simp [OperationState.allowed]) (fun _ => ⟨rfl, o, rfl, hop⟩) ?_
            intro _ w₃ hat₃ _
            exact pipes_done ⟨o, rfl, hat₃, hop, rfl, .inl ⟨rfl, rfl⟩⟩
          · refine (transits_fail id (resultError result) (some result)).andThen hat₂ hr₂
              (by simp [OperationState.allowed]) (by simp) ?_
            intro _ w₃ hat₃ hr₃
            exact pipes_done ⟨o, rfl, hat₃, hop, rfl, .inr ⟨by simp, hr₃.unsettled hop (by simp)⟩⟩
    · rintro e s₂ w₂ ⟨_, _, _, r', hcontra⟩
      cases hcontra
  · rintro e s₁ w₁ ⟨rfl, hat₁, _, hledger₁, _, hout⟩
    simp only [reduceCtorEq, Except.error.injEq, false_or] at hout
    exact ⟨hout, _, hat₁, hunsettled w₁ hledger₁⟩

/-- A new operation is started in the ledger, then in the log. -/
theorem pipes_startOperation (hv : v.Executing cfg command) (h : At cfg w t v) {m : ℕ}
    (hm : m < w.pipe.drawn) (hnew : NewOperation w.log (.str (newOperationId m)))
    {r : OperationRecord} (hr : Holds w (newOperationId m) .planned r) (i : ToolInvocation)
    (s : Option Event) :
    Pipes cfg action t command (fun out s' w' => ∃ o r', out = .ok (some r') ∧ s' = some o ∧
      At cfg w' t (v.starting o) ∧ o.operation = .str (newOperationId m) ∧
      Holds w' (newOperationId m) .started r') (startOperation i (newOperationId m)) s w := by
  refine pipes_bind ((transits_start (newOperationId m)).moved h hr
    (by simp [OperationState.allowed]) (by simp)) ?_
  rintro out s₁ w₁ ⟨rfl, hat₁, hgrow, hdrawn, r₁, rfl, hr₁⟩
  refine pipes_bind (pipes_onStarted hv hat₁ (hdrawn ▸ hm) (hnew.foreignGrowth hgrow) hr₁.2.1 i s₁) ?_
  rintro out s₂ w₂ ⟨o, rfl, rfl, hat₂, hpipe, hop⟩
  refine pipes_done ⟨o, r₁, rfl, rfl, hat₂, hop, ?_⟩
  unfold Holds
  rw [hpipe]
  exact hr₁

/-- The only call of a turn, newly planned. -/
theorem pipes_executeOne (hv : v.Executing cfg command) (h : At cfg w t v) {m : ℕ}
    (hm : m < w.pipe.drawn) (hnew : NewOperation w.log (.str (newOperationId m)))
    {r : OperationRecord} (hr : Holds w (newOperationId m) .planned r) (i : ToolInvocation) :
    Pipes cfg action t command (Called cfg t v (newOperationId m)) (executeOne ⟨i, r, true⟩) none
      w := by
  refine pipes_andThen (pipes_raiseIfDispatchCancelled h) ?_ ?_
  · rintro - s₁ w₁ ⟨rfl, hat₁, hgrow₁, hledger₁, hdrawn₁, _⟩
    have hr₁ : Holds w₁ (newOperationId m) .planned r := by
      unfold Holds
      rw [hledger₁]
      exact hr
    rw [hr.2.1]
    refine pipes_andThen (pipes_get hat₁ hr₁) ?_ ?_
    · rintro r' s₂ w₂ ⟨rfl, hat₂, hgrow₂, hdrawn₂, r₂, hout, hr₂⟩
      obtain rfl := Except.ok.inj hout
      show Pipes _ _ _ _ _ (if r'.state = .planned then _ else _) _ _
      rw [if_pos hr₂.2.2, hr₂.2.1]
      have hnew₂ := (hnew.foreignGrowth hgrow₁).foreignGrowth hgrow₂
      refine pipes_andThen (pipes_startOperation hv hat₂ (by omega) hnew₂ hr₂ i none) ?_ ?_
      · rintro started s₃ w₃ ⟨o, r₃, hout, rfl, hat₃, hop, hr₃⟩
        obtain rfl := Except.ok.inj hout
        show Pipes _ _ _ _ _ (callAndRecord i r₃.operationId) _ _
        rw [hr₃.2.1]
        exact pipes_callAndRecord hat₃ hop hr₃ i
      · rintro e s₃ w₃ ⟨_, _, hout, _⟩
        cases hout
    · rintro e s₂ w₂ ⟨_, _, _, _, _, hout, _⟩
      cases hout
  · rintro e s₁ w₁ ⟨rfl, hat₁, _, _, _, hout⟩
    simp only [reduceCtorEq, Except.error.injEq, false_or] at hout
    exact ⟨hout, v, hat₁, unsettled_of_none hv.pending⟩

theorem pipes_settled (hv : v.Executing cfg command) (h : At cfg w t v) {m : ℕ}
    (hm : m < w.pipe.drawn) (hnew : NewOperation w.log (.str (newOperationId m)))
    {r : OperationRecord} (hr : Holds w (newOperationId m) .planned r) (i : ToolInvocation) :
    Pipes cfg action t command (Called cfg t v (newOperationId m)) (settled ⟨i, r, true⟩) none w := by
  refine pipes_bind (pipes_executeOne hv h hm hnew hr i) ?_
  intro out s' w' hq
  cases out with
  | ok settled => exact pipes_done hq
  | error e =>
      obtain ⟨rfl, hat⟩ := hq
      exact pipes_done ⟨rfl, hat⟩

/-! ### The execution -/

/-- The next identifier the ledger draws is new in the log. -/
theorem At.newOperation (h : At cfg w t v) :
    NewOperation w.log (.str (newOperationId w.pipe.drawn)) := by
  intro u hu hstart hop
  obtain ⟨m, hm, hid⟩ := h.recorded.drawn u hu hstart
  rw [hop] at hid
  have := newOperationId_inj.mp (Json.str.inj hid)
  omega

/-- The first call under a key is planned anew. -/
theorem pipes_plan (hpiped : cfg.hasPipeline = true) (h : At cfg w t v) (hex : v.executed = true)
    {i : ToolInvocation} {tool : String} (hkey : i.idempotencyKey = cfg.callKey t tool)
    (hfree : w.pipe.ledger.byIdempotencyKey (cfg.callKey t tool) = none) (s : Option Event) :
    Pipes cfg action t command (fun out s' w' => s' = s ∧ At cfg w' t v ∧ ∃ m r, out = .ok r ∧
      m < w'.pipe.drawn ∧ NewOperation w'.log (.str (newOperationId m)) ∧
      Holds w' (newOperationId m) .planned r) (PipelineM.plan i) s w := by
  refine pipes_step (by simp) ?_
  intro log out pipe hgrow hstep
  have hat := h.foreignGrowth hgrow
  cases hplan : w.pipe.ledger.plan i (newOperationId w.pipe.drawn) with
  | error e =>
      rw [OperationLedger.plan, hkey, hfree] at hplan
      cases hplan
  | ok planned =>
      obtain ⟨r, L⟩ := planned
      have hstep : (out, pipe) = (.ok r, { w.pipe with ledger := L, drawn := w.pipe.drawn + 1 }) := by
        have : (out, pipe) = { w.pipe with drawn := w.pipe.drawn + 1 }.returns
            (w.pipe.ledger.plan i (newOperationId w.pipe.drawn)) := hstep
        rw [this, hplan]
        rfl
      obtain ⟨rfl, rfl⟩ := Prod.mk.inj hstep
      have hafter := hat.plan hpiped hex hkey hplan
      rcases plan_cases hplan with ⟨_, hold⟩ | ⟨_, hid, _, hstate, rfl⟩
      · rw [hkey, hfree] at hold
        cases hold
      · refine ⟨⟨t, v, hafter⟩, pipes_done ⟨rfl, hafter, w.pipe.drawn, r, rfl, ?_, hat.newOperation, ?_⟩⟩
        · exact Nat.lt_succ_self _
        · exact ⟨by simp [OperationLedger.store, Table.lookup_upsert, hid], hid, hstate⟩

/-- How the pipeline ends for a turn with one call. -/
def Piped (cfg : AgentConfig) (t : String) (v : View)
    (out : Except PipelineError (List (List SettledToolResult))) (s : Option Event) (w : LoopWorld) :
    Prop :=
  match out with
  | .error e => ∃ v', At cfg w t v' ∧ Unsettled w v' ∧
      (∀ reason, e = .policyDenied reason ∨ e = .validation reason → v' = v)
  | .ok batches => ∃ settled id, batches = [[settled]] ∧ Called cfg t v id (.ok settled) s w

/-- A single call is a batch of its own, run by the thread that plans it. -/
theorem planBatches_single (i : ToolInvocation) : planBatches [] [] [i] = [⟨0, [i], false⟩] := by
  unfold planBatches
  split
  · simp [planBatches, flushSafeSegment]
  · simp [planBatches, flushSafeSegment]

theorem plannedOf_single (i : ToolInvocation) (r : OperationRecord) :
    plannedOf [⟨i, r, true⟩] [i] = [⟨i, r, true⟩] := by
  simp [plannedOf]

theorem pipes_execute (hpiped : cfg.hasPipeline = true) (hv : v.Executing cfg command)
    (h : At cfg w t v) {request : ToolRequest} {tool : String}
    (hkey : request.idempotencyKey = some (cfg.callKey t tool))
    (hfree : w.pipe.ledger.byIdempotencyKey (cfg.callKey t tool) = none) :
    Pipes cfg action t command (Piped cfg t v) (execute cfg.prepare [request]) none w := by
  have hnone := unsettled_of_none (w := w) hv.pending
  unfold execute
  cases hprepare : cfg.prepare request with
  | error e =>
      simp only [List.mapM_cons, hprepare]
      exact pipes_done ⟨v, h, hnone, fun _ _ => rfl⟩
  | ok i =>
      have hikey : i.idempotencyKey = cfg.callKey t tool := by
        unfold AgentConfig.prepare at hprepare
        cases hauth : cfg.authorize request with
        | error e =>
            rw [hauth] at hprepare
            cases hprepare
        | ok authorised =>
            rw [hauth] at hprepare
            obtain rfl := Except.ok.inj hprepare
            simp [hkey]
      have hmap : [request].mapM cfg.prepare = .ok [i] := by
        simp [List.mapM_cons, hprepare]
      rw [hmap]
      show Pipes _ _ _ _ _ (if ¬ [i.callId].Nodup then _ else _) _ _
      rw [if_neg (by simp), planBatches_single]
      have hplanned : Pipes cfg action t command (fun out s' w' => s' = none ∧ At cfg w' t v ∧
          ∃ m r, out = .ok [⟨i, r, true⟩] ∧ m < w'.pipe.drawn ∧
            NewOperation w'.log (.str (newOperationId m)) ∧ Holds w' (newOperationId m) .planned r)
          (planAll [] [i]) none w := by
        refine pipes_andThen (pipes_plan hpiped h hv.executed hikey hfree none) ?_ ?_
        · rintro r s' w' ⟨rfl, hat, m, r', hout, hrest⟩
          obtain rfl := Except.ok.inj hout
          exact pipes_done ⟨rfl, hat, m, r, by simp, hrest⟩
        · rintro e s' w' ⟨_, _, _, _, hout, _⟩
          cases hout
      refine pipes_andThen hplanned ?_ ?_
      · rintro planned s₁ w₁ ⟨rfl, hat₁, m, r, hout, hm, hnew, hr⟩
        obtain rfl := Except.ok.inj hout
        -- one batch with one call
        have hbatch : Pipes cfg action t command (fun out s' w' => match out with
            | .error e => e = .dispatchCancelled ∧ ∃ v', At cfg w' t v' ∧ Unsettled w' v'
            | .ok results => ∃ settled, results = [settled] ∧
                Called cfg t v (newOperationId m) (.ok settled) s' w')
            (executeAllSettled false (plannedOf [⟨i, r, true⟩] [i])) none w₁ := by
          rw [plannedOf_single]
          refine pipes_andThen (pipes_settled hv hat₁ hm hnew hr i) ?_ ?_
          · intro settled s₂ w₂ hq
            exact pipes_done ⟨settled, rfl, hq⟩
          · intro e s₂ w₂ hq
            exact hq
        refine pipes_andThen hbatch ?_ ?_
        · rintro results s₂ w₂ ⟨settled, rfl, hq⟩
          exact pipes_done ⟨settled, newOperationId m, rfl, hq⟩
        · rintro e s₂ w₂ ⟨rfl, v', hat₂, hu⟩
          exact ⟨v', hat₂, hu, by simp⟩
      · rintro e s₁ w₁ ⟨_, _, _, _, hout, _⟩
        cases hout

/-! ### The tool phase -/

/-- The turn has authorised its command. -/
structure View.Authorized (v : View) (c : Event) : Prop where
  phase : v.phase = some (some .actionAuthorizing)
  executed : v.executed = false
  pending : v.pending = none
  closed : v.closed = false
  commanded : v.command = some c

variable {B C : Prop}

/-- The tool phase begins. -/
theorem keeps_executing (hv : v.Authorized command) (hbudget : v.WithinBudget cfg) (h : At cfg w t v) :
    Keeps cfg (Fails B C) (fun _ w' => At cfg w' t (v.entering .actionExecuting) ∧ w'.pipe = w.pipe ∧
      (v.entering .actionExecuting).Executing cfg command) (phase .actionExecuting t) w := by
  have hcan : v.CanEnter .actionExecuting := by
    intro q hq
    rw [hv.phase] at hq
    obtain rfl := Option.some.inj (Option.some.inj hq)
    decide
  refine (keeps_phase h .actionExecuting (fun _ => hcan) (absurd hcan) ?_ ?_ ?_).weaken ?_
  · intro _ hex
    rw [hv.executed] at hex
    cases hex
  · rw [hv.pending]
    simp
  · intro _
    rw [h.blocked_entering hv.pending (by simp [hv.commanded]) (by decide)]
    simp
  · rintro - w' ⟨hat, hpipe, _⟩
    exact ⟨hat, hpipe, rfl, by simp [View.entering], hv.pending, hv.closed, hv.commanded, hbudget⟩

/-- Once its operation has started a turn goes on to record the result. -/
theorem keeps_recording (hv : v.Executing cfg command) {o : Event} (h : At cfg w t (v.starting o)) :
    Keeps cfg (Fails B C) (fun _ w' => At cfg w' t ((v.starting o).entering .resultRecording) ∧
      w'.pipe = w.pipe) (phase .resultRecording t) w := by
  have hcan : (v.starting o).CanEnter .resultRecording := by
    intro q hq
    have hq : v.phase = some (some q) := hq
    rw [hv.phase] at hq
    obtain rfl := Option.some.inj (Option.some.inj hq)
    decide
  refine (keeps_phase h .resultRecording (fun _ => hcan) (absurd hcan) (by simp [laterPhases]) (by simp) ?_).weaken
    (fun _ _ hq => ⟨hq.1, hq.2.1⟩)
  intro _
  rw [View.blocked_of_pending rfl, View.entering_canEnter]
  have hself : ¬ transitionAllowed .resultRecording .resultRecording := by decide
  simp [hself, View.starting, hv.closed]

/-- The settled call is recorded in the log. -/
theorem keeps_recordSettled (hv : v.Executing cfg command) {id : String} {settled : SettledToolResult}
    {s : Option Event} (h : Called cfg t v id (.ok settled) s w) :
    Keeps cfg (Fails B C) (fun _ w' => AllRecorded w')
      (do
        phase .resultRecording t
        recordSettled t command s settled) w := by
  obtain ⟨o, rfl, hat, hop, hid, hstatus⟩ := h
  refine keeps_bind (keeps_recording hv hat) ?_
  rintro - w₁ ⟨hat₁, hpipe₁⟩
  unfold recordSettled
  rw [hid]
  rcases hstatus with ⟨hfulfilled, hresult⟩ | ⟨hstatus, hu⟩
  · obtain ⟨result, hresult⟩ := Option.isSome_iff_exists.mp hresult
    simp only [hfulfilled, hresult]
    exact keeps_bind (keeps_pure (Q := fun a w' => a = o ∧ w' = w₁) ⟨rfl, rfl⟩) (by
      rintro a w' ⟨rfl, rfl⟩
      exact keeps_recordCompleted hat₁ rfl rfl rfl hop _ _)
  · have hu₁ : Unsettled w₁ ((v.starting o).entering .resultRecording) := by
      intro p id' r hp hpid
      rw [hpipe₁]
      exact hu p id' r hp hpid
    simp only [List.mem_cons, List.not_mem_nil, or_false] at hstatus
    rcases hstatus with hunknown | hrejected
    · simp only [hunknown]
      exact keeps_recordEnded hat₁ (.inr rfl) rfl rfl hu₁ _ (by simp) (by simp [Dict.get?_cons, hop, Json.ofOption])
    · simp only [hrejected]
      refine keeps_bind (keeps_result hat₁ (.inr rfl) rfl rfl (by simp)
        (by simp [Dict.get?_cons, hop, Json.ofOption])) ?_
      rintro failed w₂ ⟨hat₂, hpipe₂⟩
      rw [if_neg (by decide)] at hat₂
      refine keeps_recordEnded hat₂ (.inl rfl) rfl rfl ?_ _ (by simp)
        (by simp [Dict.get?_cons, hop, Json.ofOption])
      intro p id' r hp hpid
      rw [hpipe₂]
      exact hu₁ p id' r hp hpid

/-- A command that its tool phase refuses. -/
theorem keeps_denyExecuting (hv : v.Executing cfg command) (h : At cfg w t v) (payload : Dict) :
    Keeps cfg (Fails B C) (fun _ w' => AllRecorded w') (denyAction t command payload) w := by
  obtain ⟨r, hr, _⟩ := h.response_of_command (by simp [hv.commanded])
  refine keeps_refused h ?_ hv.pending (by simp [hr]) (by simp [outcomeTypes]) payload _
  intro _ q hq
  rw [hv.phase] at hq
  obtain rfl := Option.some.inj (Option.some.inj hq)
  decide

/-- **The pipeline path** leaves every succeeded operation recorded. -/
theorem keeps_executeViaPipeline (hpiped : cfg.hasPipeline = true) (hv : v.Authorized command)
    (hbudget : v.WithinBudget cfg) (h : At cfg w t v) :
    Keeps cfg (Fails B C) (fun _ w' => AllRecorded w') (executeViaPipeline cfg action t command) w := by
  have hfree := h.key_free hv.executed action.tool
  refine keeps_bind (keeps_executing hv hbudget h) ?_
  rintro - w₁ ⟨hat, hpipe, hexec⟩
  rw [← hpipe] at hfree
  refine safe_bind (pipes_execute hpiped hexec hat rfl hfree) ?_
  rintro ⟨out, s⟩ w₂ _ hq
  cases out with
  | ok batches =>
      obtain ⟨settled, id, rfl, hcalled⟩ := hq
      exact keeps_recordSettled hexec hcalled
  | error e =>
      obtain ⟨v', hat₂, hu, hrefused⟩ := hq
      cases e with
      | policyDenied reason =>
          obtain rfl := hrefused reason (.inl rfl)
          exact keeps_denyExecuting hexec hat₂ _
      | validation reason =>
          obtain rfl := hrefused reason (.inr rfl)
          exact keeps_denyExecuting hexec hat₂ _
      | _ => exact hat₂.keeps_throw hu (by simp)

/-- **The direct path** leaves the ledger alone. -/
theorem keeps_executeDirectly (hdirect : cfg.hasPipeline = false) (hv : v.Authorized command)
    (hbudget : v.WithinBudget cfg) (h : At cfg w t v) :
    Keeps cfg (Fails B C) (fun _ w' => AllRecorded w') (executeDirectly cfg action t command) w := by
  refine keeps_bind (keeps_executing hv hbudget h) ?_
  rintro - w₁ ⟨hat₁, _, hexec⟩
  -- the ledger of a loop without a pipeline is empty
  have hunsettled : ∀ {w' : LoopWorld} {v' : View}, At cfg w' t v' → Unsettled w' v' := by
    intro w' v' hat' p id r _ _ hlook
    rw [hat'.recorded.piped hdirect id] at hlook
    cases hlook
  have hdrawn : Keeps cfg (Fails B C) (fun id w' => At cfg w' t (v.entering .actionExecuting) ∧
      ∃ m < w'.pipe.drawn, id = newOperationId m ∧
        NewOperation w'.log (.str (newOperationId m)))
      ((ask .drawOperationId).bind (fun (id : String) => .done (.ok id))) w₁ := by
    refine keeps_step ?_
    rintro log id w' hgrow ⟨rfl, rfl⟩
    have hat := hat₁.foreignGrowth hgrow
    have hat' : At cfg { w₁ with log := log, pipe := { w₁.pipe with drawn := w₁.pipe.drawn + 1 } } t
        (v.entering .actionExecuting) := by
      refine hat.withPipe (hat.recorded.ledger.mono (Nat.le_succ _)) (Nat.le_succ _) ?_
      intro id r hlook
      exact .inl ⟨r, hlook, rfl, fun _ => .inl rfl⟩
    exact ⟨⟨t, _, hat'⟩, keeps_pure ⟨hat', w₁.pipe.drawn, Nat.lt_succ_self _, rfl, hat.newOperation⟩⟩
  refine keeps_bind hdrawn ?_
  rintro id w₂ ⟨hat₂, m, hm, rfl, hnew⟩
  refine keeps_bind (keeps_started hat₂ hexec.pending hexec.closed hexec.commanded hexec.phase
    hexec.budget hm hnew (by simp) (by simp [Dict.get?_cons])) ?_
  rintro o w₃ ⟨hat₃, _, hop⟩
  refine keeps_bind (keeps_requested hexec hat₃ (by simp)) ?_
  rintro - w₄ ⟨hat₄, _⟩
  refine keeps_bind (keeps_calling (.callTool _) id (fun _ _ _ h => h) hat₄ (hunsettled hat₄)) ?_
  rintro result w₅ ⟨hat₅, _⟩
  refine keeps_bind (keeps_recording hexec hat₅) ?_
  rintro - w₆ ⟨hat₆, _⟩
  exact keeps_recordCompleted hat₆ rfl rfl rfl hop _ _

end pipeline

end CrazyHarness
