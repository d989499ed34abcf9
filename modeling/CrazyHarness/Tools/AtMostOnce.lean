import CrazyHarness.Tools.Accounting

/-! # At most one call for each idempotency key

An execution reads the record of its operation and then starts it, in two steps.  Between
them another execution may start the same operation, and `start` then returns the started
record instead of refusing it: `_transition` finds the record in its target state.

* `calls_le_one`: in every run in which no `start` meets a started record, the registry is
  called at most once for each idempotency key.
* `doubleStart_callsTwice`: without that condition two executions call the tool twice. -/

namespace CrazyHarness

open Lib Program OperationLedger PipelineM

/-- The steps but those that start a started operation again. -/
def firstStart (w : PipelineWorld) (op : PipelineOp) (r : pipelineInterface.Reply op)
    (w' : PipelineWorld) : Prop := pipelineStep w op r w' ∧ ¬ Restarts w op

/-- Executions whose starts never meet a started record. -/
def firstStartRules : PoolRules pipelineInterface Unit PipelineWorld :=
  { pipelineRules with step := firstStart }

/-- The code of every thread, with the calls it owns. -/
theorem safe_firstStart {p : Program pipelineInterface Unit} {w : PipelineWorld} {owned : Rights}
    (h : Program.Safe (accountedStep False) (PipelineWorld.Covered False 1) PipelineWorld.Grows
      PipelineWorld.Grows (fun _ _ _ => True) p w owned) :
    Program.Safe firstStart (PipelineWorld.Covered False 1) PipelineWorld.Grows PipelineWorld.Grows
      (fun _ _ _ => True) p w owned :=
  h.restrict (fun _ _ _ _ hs => ⟨hs.1, fun _ => hs.2⟩)

theorem firstStart_sound : Pool.Sound firstStartRules (PipelineWorld.Covered False 1)
    PipelineWorld.Grows (fun _ _ => True) where
  refl := by
    intro w
    exact Grows.refl _
  trans := Grows.trans
  stable := by
    intro _ _ _ _ _
    trivial
  drop := by
    intro w m m' h
    exact h.drop
  starts := by
    intro w p w' owned h hs
    cases hs with
    | execute prepare requests =>
        refine ⟨Grows.refl _, .everyStart, ?_,
          safe_firstStart (safe_thread (does_execute prepare requests))⟩
        refine ⟨h.ledger, ?_, h.unspent, h.jobs, False.elim, False.elim⟩
        intro key
        have hcov := h.covered key
        simp only [Rights.everyStart, Prod.fst_add, Pi.add_apply, Pi.zero_apply, zero_add]
        exact hcov
    | @worker ticket job hjob =>
        exact ⟨Grows.refl _, job.rights, covered_worker h hjob,
          safe_firstStart (safe_thread (does_workerJob (h.jobs _ hjob)))⟩
  env := by
    intro w w' owned _ h
    cases h


/-- **At most one call for each key**, in every run in which no `start` meets a record that
is already started. -/
theorem calls_le_one {L : OperationLedger} {n : ℕ} (hL : Built L n)
    {P : Pool pipelineInterface Unit PipelineWorld}
    (h : Pool.Reachable firstStartRules ⟨.start L n, [], []⟩ P) (key : String) :
    P.state.callCount key ≤ 1 := by
  have hstart : Pool.Ok firstStartRules (PipelineWorld.Covered False 1) PipelineWorld.Grows
      (fun _ _ => True) ⟨.start L n, [], []⟩ [] := by
    refine ⟨covered_start_world hL, .nil, ?_⟩
    intro a ha
    cases ha
  obtain ⟨owned, hok⟩ := Pool.ok_of_reachable firstStart_sound hstart h
  have hcov := hok.invariant.covered key
  have hone := spent_le_one P.state.ledger key
  rw [Pi.one_apply, Nat.mul_one] at hcov
  omega

/-! ### Two executions of one request -/

/-- Nobody cancels, the callback returns and every tool succeeds. -/
def happyStep : Strategy pipelineRules.step where
  act
    | .plan i, w =>
        some ({ w with drawn := w.drawn + 1 }.returns (w.ledger.plan i (newOperationId w.drawn)))
    | .get operationId, w => some (w.ledger.get operationId, w)
    | .start operationId, w => some (w.returns (w.ledger.start operationId))
    | .succeed operationId result, w => some (w.returns (w.ledger.succeed operationId result))
    | .fail operationId error result, w => some (w.returns (w.ledger.fail operationId error result))
    | .markUnknown operationId reason, w =>
        some (w.returns (w.ledger.markUnknown operationId reason))
    | .cancelled, w => some (false, w)
    | .onStarted _ _, w => some (.returned, w)
    | .call i, w => some (.returned { name := i.call.name, status := "ok" }, w.called i)
    | .submit job, w => some (w.nextTicket, w.submitted job)
    | .await _, _ => none
    | .settle ticket r, w => some ((), { w with settled := (ticket, r) :: w.settled })
  sound := by
    intro op w r h
    cases op with
    | «await» ticket => cases h
    | cancelled => cases h; rfl
    | onStarted r i => cases h; rfl
    | get operationId => cases h; exact ⟨rfl, rfl⟩
    | submit job => cases h; exact ⟨rfl, rfl⟩
    | _ => cases h; rfl

/-- An invocation under a key of its caller. -/
def chargeCard : ToolInvocation where
  callId := "call-1"
  call := { name := "charge_card" }
  spec := { name := "charge_card" }
  idempotencyKey := "order-7"

/-- The execution of one request for it. -/
def chargeOnce : Program pipelineInterface Unit :=
  (execute (fun _ => .ok chargeCard) [{ call := chargeCard.call, callId := "call-1" }]).thread

/-- The same without a start that meets a started record. -/
def happyFirst : Strategy firstStartRules.step :=
  @Strategy.restrict _ _ _ happyStep (fun w op => ¬ Restarts w op)
    (fun w (op : PipelineOp) => inferInstanceAs (Decidable (¬ Restarts w op)))

/-- One execution after the other: the second one finds the result of the first. -/
theorem chargeTwice_callsOnce :
    let P := Pool.follow happyFirst ⟨.start (.empty false) 0, [chargeOnce, chargeOnce], []⟩
      [0, 0, 0, 0, 0, 0, 0, 0, 1, 1, 1, 1, 1, 1, 1, 1]
    P.state.callCount "order-7" = 1 ∧ P.state.callCount "order-7" ≤ 1 := by
  have hstart : Pool.Reachable firstStartRules ⟨.start (.empty false) 0, [], []⟩
      ⟨.start (.empty false) 0, [chargeOnce, chargeOnce], []⟩ :=
    .tail (.single (.start (.execute _ _ _))) (.start (.execute _ _ _))
  refine ⟨by decide, ?_⟩
  exact calls_le_one (.new false) (hstart.trans (Pool.follow_reachable _ _ _)) "order-7"

/-- Both executions read the planned record before either starts it; the second `start`
finds the record in its target state and returns it. -/
theorem doubleStart_callsTwice :
    ∃ P, Pool.Reachable pipelineRules ⟨.start (.empty false) 0, [], []⟩ P ∧
      P.state.callCount "order-7" = 2 := by
  have hstart : Pool.Reachable pipelineRules ⟨.start (.empty false) 0, [], []⟩
      ⟨.start (.empty false) 0, [chargeOnce, chargeOnce], []⟩ :=
    .tail (.single (.start (.execute _ _ _))) (.start (.execute _ _ _))
  refine ⟨_, hstart.trans (Pool.follow_reachable happyStep _
    [0, 1, 0, 1, 0, 1, 0, 1, 0, 1, 0, 1, 0, 1]), ?_⟩
  decide

end CrazyHarness
