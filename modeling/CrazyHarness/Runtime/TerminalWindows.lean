import CrazyHarness.Lib.Windows
import CrazyHarness.Runtime.Writes
import CrazyHarness.Kernel.Completion

/-! # One terminal fact for each run

A writer of an end looks at the status of its run, and appends the end some calls later; the store looks
again only for an append under a dispatch and for a commit of the kernel.  `OneEnds` is the invariant.

* `careful_of_starts`: whatever the replies, a writer appends an end of a run only after its last look has
  shown the run without end; `_finish_single_run` alone does not look.
* `oneTerminalFact_of_undisturbed`: a run has one terminal fact, and its projection shows it, in every state
  that steps lead to which close no run under a writer between its look and its append.
* `cancelled_after_success`: the run that `cancel_run` read as running has succeeded when the
  cancellation is appended. -/

namespace CrazyHarness

open Lib RuntimeM

/-! ### Looks and ends -/

/-- The operation appends an end of a run. -/
def EndsBy (op : (withStore residentInterface).Op) (e : Event) : Prop :=
  e ∈ stepEvent op ∧ (outcomeOf e.type).isSome

/-- The operation looks at the status of the run that the event is of. -/
def LooksAt : (withStore residentInterface).Op → Event → Prop
  | .inl (.projection kind runId), e => kind = "run" ∧ runId = e.runId
  | .inl (.snapshot runId), _ => runId = none
  | _, _ => False

/-- The reply shows the run without an end. -/
def ShowsOpen : (op : (withStore residentInterface).Op) → (withStore residentInterface).Reply op →
    Event → Prop
  | .inl (.projection _ _), (run : Option Dict), _ =>
      ∃ row, run = some row ∧ runTerminal (row.get? "status") = false
  | .inl (.snapshot _), (rows : String → List Dict), e => ∃ row ∈ rows "run",
      (row.get? "run_id").map Json.pyStr = some e.runId ∧ runTerminal (row.get? "status") = false
  | _, _, _ => False

/-- What the writers of ends see. -/
def statusSight : Sight (withStore residentInterface) Event where
  replies := RepliesFact
  acts := EndsBy
  looks := LooksAt
  allows := ShowsOpen

/-- The store refuses the append to its dispatch. -/
def Refuses (w : ResidentWorld) (op : (withStore residentInterface).Op) (e : Event) : Prop :=
  (∃ d, op = .inl (.append (some d) e)) ∧
    (w.store.db.runCancelled e.runId ∨ w.store.db.runStatus e.runId = some (.str "failed"))

/-- The end can be appended: it is in the log, its run is open to it, or the store refuses it. -/
def AdmitsEnd (w : ResidentWorld) (op : (withStore residentInterface).Op) (e : Event) : Prop :=
  (w.store.db.events.lookup e.id).isSome ∨ OpenTo (w.store.db.runStatus e.runId) e.type ∨
    Refuses w op e

/-- A run that is being cancelled comes to no other end. -/
def Fits (w : ResidentWorld) (op : (withStore residentInterface).Op) (e : Event) : Prop :=
  w.store.db.runStatus e.runId = some (.str "cancelling") → AdmitsEnd w op e

/-! ### Runs -/

/-- The writers of terminal facts. -/
inductive TerminalStarts : ResidentWorld → Program (withStore residentInterface) Unit →
    ResidentWorld → Prop
  | cancelRun (w : ResidentWorld) (i : ℕ) (runId reason : String) :
      TerminalStarts w (cancelRun i runId reason).thread w
  | reconcileCancellations (w : ResidentWorld) (i : ℕ) :
      TerminalStarts w (reconcileCancellations i).thread w
  | failTeamRunFromModel (w : ResidentWorld) (dispatch : Option DispatchContext) (identity : Event)
      (reason : String) : TerminalStarts w (failTeamRunFromModel dispatch identity reason).thread w
  | finalizeFailedRun (w : ResidentWorld) (i : ℕ) (requested : Event) (reason : String) :
      TerminalStarts w (finalizeFailedRun i requested reason).thread w
  | reconcileFailedRuns (w : ResidentWorld) (i : ℕ) :
      TerminalStarts w (reconcileFailedRuns i).thread w
  | deadLetter (w : ResidentWorld) (dispatch : Option DispatchContext) (d : Delivery)
      (deadLetter : Event) :
      TerminalStarts w (failRunningRunForDeadLetter dispatch d deadLetter).thread w
  | finishSingleRun (w : ResidentWorld) (dispatch : Option DispatchContext) (trigger : Event)
      (succeeded : Bool) (reason : String) :
      TerminalStarts w (finishSingleRun dispatch trigger succeeded reason).thread w

/-- One call of a submission to the kernel, whatever it was told before. -/
def KernelCalls (allowed : ResidentWorld → (withStore kernelInterface).Op → Prop)
    (w w' : ResidentWorld) : Prop :=
  ∃ dispatch c op r s, (submit controlKernel dispatch c).CanRequest anyReply op ∧ allowed w op ∧
    kernelStep w.store op r s ∧ w' = { w with store := s }

/-- The writers, the kernel, and other code that writes no terminal fact. -/
def terminalRules : PoolRules (withStore residentInterface) Unit ResidentWorld where
  step := residentStep
  starts := TerminalStarts
  env w w' := Elsewhere (fun e => outcomeOf e.type = none) w w' ∨ KernelCalls (fun _ _ => True) w w'

/-- What a call commits. -/
def committed : (withStore kernelInterface).Op → List Event
  | .inr (.commitCommand _ _ _ events _ _) => events
  | _ => []

/-- Every end that the kernel commits is of a run that is open to it, unless it is in the log or the commit is
refused. -/
def CommitsOpen (w : ResidentWorld) (op : (withStore kernelInterface).Op) : Prop :=
  ∀ e ∈ committed op, (outcomeOf e.type).isSome → (w.store.db.events.lookup e.id).isSome ∨
    OpenTo (w.store.db.runStatus e.runId) e.type ∨ w.store.db.runCancelled e.runId

/-- The ends that nobody looks before, `_finish_single_run`'s and the kernel's, come to open runs only. -/
def openRules : PoolRules (withStore residentInterface) Unit ResidentWorld where
  step := residentStep
  starts w p w' := TerminalStarts w p w' ∧ ∀ op e, p.Heads statusSight op e → AdmitsEnd w' op e
  env w w' := Elsewhere (fun e => outcomeOf e.type = none) w w' ∨ KernelCalls CommitsOpen w w'

/-- Steps that leave a run open for the writers between their look and their append. -/
abbrev UndisturbedRuns : Pool (withStore residentInterface) Unit ResidentWorld →
    Pool (withStore residentInterface) Unit ResidentWorld → Prop :=
  Pool.CalmReachable openRules statusSight AdmitsEnd Fits

/-! ### The writers look first -/

/-- An end of a run is in `Q`. -/
def IfEnds (Q : Event → Prop) (e : Event) : Prop := (outcomeOf e.type).isSome → Q e

section writers

variable {Q : Event → Prop} {α β : Type}

theorem ifEnds_of_none {e : Event} (h : outcomeOf e.type = none) : IfEnds Q e := by
  intro hsome
  rw [h] at hsome
  cases hsome

/-- The facts that end a part of a run end no run. -/
theorem works_of_parts {p : Resident α} (h : Works EndsPart p) : Works (IfEnds Q) p := by
  have hall : ∀ type ∈ partTypes, outcomeOf type = none := by decide
  exact worksThen_mono h (fun e he => ifEnds_of_none (hall e.type he))

theorem blind_of_works {op : (withStore residentInterface).Op} (h : WorksIn (IfEnds Q) op) :
    statusSight.Blind Q op := by
  refine ⟨fun e he => h.1.1 e he.1 he.2, fun e he => h.2 ?_⟩
  cases op with
  | inl op =>
      cases op with
      | projection kind runId => exact he.1
      | snapshot runId => exact he
      | _ => exact he.elim
  | inr op => exact he.elim

/-- First code that looks at no run. -/
theorem careful_then {mid : α → Prop} {p : Resident α} {f : α → Resident β}
    (h : WorksThen (IfEnds Q) mid p) (hf : ∀ a, mid a → (f a).thread.Careful statusSight Q) :
    (p >>= f).thread.Careful statusSight Q := by
  have hbind : (p >>= f).thread = Program.bind p (fun r => @RuntimeM.thread _ β (ExceptT.bindCont f r)) :=
    Program.bind_assoc _ _ _
  rw [hbind]
  refine Program.careful_bind (Program.Asks.mono h (fun _ => blind_of_works)) ?_
  intro r hr
  cases r with
  | ok a => exact hf a (hr a rfl)
  | error e => trivial

theorem careful_of_works {p : Resident α} (h : Works (IfEnds Q) p) : p.thread.Careful statusSight Q :=
  Program.careful_bind (Program.Asks.mono h (fun _ => blind_of_works)) (fun _ _ => trivial)

/-- An append whose event is in `Q` if it is an end. -/
theorem worksThen_ending {dispatch : Option DispatchContext} {e : DateTime → Event} {runId type : String}
    (hrun : ∀ t, (e t).runId = runId) (htype : ∀ t, (e t).type = type)
    (h : (outcomeOf type).isSome → ∀ f : Event, f.type = type → f.runId = runId → Q f) :
    WorksThen (IfEnds Q) (fun stored => stored.runId = runId) (append dispatch e) := by
  refine Program.Asks.weaken (worksThen_append (fun t hsome => ?_)) ?_
  · rw [htype t] at hsome
    exact h hsome (e t) (htype t) (hrun t)
  · intro r hr stored hstored
    obtain ⟨t, ht⟩ := hr stored hstored
    exact (congrArg Event.runId ht).trans (hrun t)

theorem not_endsBy_of_none {op : (withStore residentInterface).Op} (h : stepEvent op = none) (e : Event) :
    ¬ EndsBy op e := by
  rintro ⟨he, -⟩
  rw [h] at he
  cases he

/-- The projection of the run has shown it open. -/
theorem shown {runId : String} {row : Dict} (hlive : runTerminal (row.get? "status") = false) {e : Event}
    (hrun : e.runId = runId) :
    statusSight.after (.inl (.projection "run" runId)) (some row) (fun _ => False) e :=
  .inl ⟨⟨rfl, hrun.symm⟩, row, rfl, hlive⟩

theorem works_finalizeCancelledRun (i : ℕ) (identity : Event) (reason : String)
    (h : ∀ e : Event, e.type = "run.cancelled" → e.runId = identity.runId → Q e) :
    Works (IfEnds Q) (finalizeCancelledRun i identity reason) := by
  refine asks_bind (writes_then (works_memory i .inFlight id)) (fun inFlight _ => ?_)
  split
  · exact asks_pure trivial
  · refine asks_bind (works_anyPending _ _) (fun pending _ => ?_)
    unfold runCancelledUnless
    split
    · exact asks_pure trivial
    · exact asks_bind (worksThen_ending (fun _ => rfl) (fun _ => rfl) (fun _ => h))
        (fun _ _ => asks_pure trivial)

theorem careful_cancelLiveRun (i : ℕ) (runId reason : String) (h : ∀ e : Event, e.runId = runId → Q e) :
    (cancelLiveRun i runId reason).thread.Careful statusSight Q := by
  unfold cancelLiveRun
  refine careful_then (worksThen_readAll runId) (fun events hevents => ?_)
  refine careful_then (asks_firstOrStop _ _) (fun identity hidentity => ?_)
  have hrun : identity.runId = runId := hevents identity hidentity
  refine careful_then (worksThen_ending (fun _ => hrun) (fun _ => rfl)
    (fun hsome => absurd hsome (by decide))) (fun requested hrequested => ?_)
  refine careful_then (works_of_parts (works_schedulerCancelRun _ _ _ _)) (fun _ _ => ?_)
  refine careful_then (works_of_parts (works_closeAssignmentsAndLeases (by decide) _ _)) (fun _ _ => ?_)
  refine careful_then (works_of_parts (works_cancelQueuedDeliveries _ _)) (fun _ _ => ?_)
  refine careful_then (works_finalizeCancelledRun _ _ _ (fun e _ hsame => h e (hsame.trans hrequested)))
    (fun _ _ => ?_)
  -- What is left reads the result.
  have hread : Asks RepliesFact (fun op => ∀ e, ¬ EndsBy op e) (fun _ => True)
      (projection "run" runId : Resident (Option Dict)) :=
    ⟨not_endsBy_of_none rfl, fun _ _ _ _ => trivial⟩
  refine Program.careful_of_idle (@asks_thread _ _ _ _ (fun _ => True) _ (asks_bind hread (fun run _ => ?_)))
  exact writes_then (writes_then (writes_required _ _))

theorem careful_cancelRun (i : ℕ) (runId reason : String) :
    (cancelRun i runId reason).thread.Careful statusSight (fun _ => False) := by
  refine ⟨fun e he => absurd he (not_endsBy_of_none rfl e), fun run _ => ?_⟩
  show (cancelKnownRun i runId reason run).thread.Careful statusSight _
  cases run with
  | none => trivial
  | some row =>
      unfold cancelKnownRun
      dsimp only
      split
      next => exact careful_of_works (writes_then (writes_then (writes_required _ _)))
      next hlive =>
        exact careful_cancelLiveRun i runId reason (fun e hrun => shown (Bool.not_eq_true _ ▸ hlive) hrun)

theorem works_reconcileCancellation (i : ℕ) (row : Dict)
    (h : ∀ e : Event, (row.get? "run_id").map Json.pyStr = some e.runId →
      runTerminal (row.get? "status") = false → Q e) :
    Works (IfEnds Q) (reconcileCancellation i row) := by
  unfold reconcileCancellation
  split
  · refine asks_bind asks_required (fun runIdJson hrunId => ?_)
    refine asks_bind (worksThen_readAll _) (fun events hevents => ?_)
    refine asks_bind (works_of_parts (works_schedulerCancelRun _ _ _ _)) (fun _ _ => ?_)
    have hidentity : WorksThen (IfEnds Q) (fun identity => identity.runId = runIdJson.pyStr)
        (reconcileCancellation.reconcileIdentity runIdJson.pyStr (lastOf events "run.cancel.requested")) := by
      unfold reconcileCancellation.reconcileIdentity
      cases hlast : lastOf events "run.cancel.requested" with
      | none =>
          refine asks_bind (worksThen_readAll _) (fun events hevents => ?_)
          exact Program.Asks.weaken (asks_firstOrStop _ _) (fun r hr e he => hevents e (hr e he))
      | some requested =>
          exact asks_pure (hevents _ (List.mem_reverse.mp (List.mem_of_find?_eq_some hlast)))
    refine asks_bind hidentity (fun identity hrun => ?_)
    refine asks_bind (works_of_parts (works_closeAssignmentsAndLeases (by decide) _ _)) (fun _ _ => ?_)
    refine asks_bind (works_of_parts (works_cancelQueuedDeliveries _ _)) (fun _ _ => ?_)
    split
    next hcancelling =>
      refine writes_then (works_finalizeCancelledRun _ _ _ (fun e _ hsame => h e ?_ ?_))
      · rw [hrunId, hsame, hrun]
        rfl
      · rw [hcancelling.1]
        decide
    next => exact asks_pure trivial
  · exact asks_pure trivial

theorem careful_reconcileCancellations (i : ℕ) :
    (reconcileCancellations i).thread.Careful statusSight (fun _ => False) := by
  refine ⟨fun e he => absurd he (not_endsBy_of_none rfl e), fun rows _ => ?_⟩
  show (countEach (reconcileCancellation i) ((show String → List Dict from rows) "run")).thread.Careful
    statusSight _
  refine careful_of_works (writes_countEach (fun row hrow => ?_))
  exact works_reconcileCancellation i row (fun e hrun hlive => .inl ⟨rfl, row, hrow, hrun, hlive⟩)

theorem careful_failTeamRunFromModel (dispatch : Option DispatchContext) (identity : Event) (reason : String) :
    (failTeamRunFromModel dispatch identity reason).thread.Careful statusSight (fun _ => False) := by
  refine ⟨fun e he => absurd he (not_endsBy_of_none rfl e), fun run _ => ?_⟩
  show Program.Careful statusSight (thread (if _ then _ else _)) _
  split
  · trivial
  · exact careful_of_works (asks_bind (worksThen_ending (fun _ => rfl) (fun _ => rfl)
      (fun hsome => absurd hsome (by decide))) (fun _ _ => asks_pure trivial))

theorem works_finalizeFailedFrom (i : ℕ) (requested : Event) (reason : String) (status : Option Json)
    (h : status ≠ some (.str "failed") → ∀ e : Event, e.runId = requested.runId → Q e) :
    Works (IfEnds Q) (finalizeFailedFrom i requested reason status) := by
  refine asks_bind (works_of_parts (works_schedulerCancelRun _ _ _ _)) (fun _ _ => ?_)
  refine asks_bind (works_of_parts (works_closeAssignmentsAndLeases (by decide) _ _)) (fun _ _ => ?_)
  refine asks_bind (works_of_parts (works_failQueuedDeliveries _ _)) (fun _ _ => ?_)
  unfold runFailedUnless
  split
  next => exact asks_pure trivial
  next hfailed =>
    refine asks_bind (worksThen_ending (fun _ => rfl) (fun _ => rfl) (fun _ f _ hrun => ?_))
      (fun _ _ => asks_pure trivial)
    exact h (fun heq => hfailed (decide_eq_true heq)) f hrun

theorem careful_finalizeFailedRun (i : ℕ) (requested : Event) (reason : String) :
    (finalizeFailedRun i requested reason).thread.Careful statusSight (fun _ => False) := by
  refine ⟨fun e he => absurd he (not_endsBy_of_none rfl e), fun run _ => ?_⟩
  cases run with
  | none => trivial
  | some row =>
      show Program.Careful statusSight (thread (if _ then _ else _)) _
      split
      next => trivial
      next hlive =>
        refine careful_of_works (works_finalizeFailedFrom _ _ _ _ (fun hfailed e hrun => shown ?_ hrun))
        simp only [Option.isNone_some, Bool.false_eq_true, false_or, Option.bind_some, List.mem_cons,
          List.not_mem_nil, or_false, not_or] at hlive hfailed
        simp [runTerminal, hlive, hfailed]

theorem careful_reconcileFailedRuns (i : ℕ) :
    (reconcileFailedRuns i).thread.Careful statusSight (fun _ => False) := by
  refine ⟨fun e he => absurd he (not_endsBy_of_none rfl e), fun rows _ => ?_⟩
  show (countEach (reconcileFailedRun i) ((show String → List Dict from rows) "run")).thread.Careful
    statusSight _
  refine careful_of_works (writes_countEach (fun row _ => ?_))
  unfold reconcileFailedRun
  split
  · refine asks_bind (writes_required _ _) (fun runIdJson _ => ?_)
    refine asks_bind (works_readAll _) (fun events _ => ?_)
    refine asks_bind (works_of_parts (works_schedulerCancelRun _ _ _ _)) (fun _ _ => ?_)
    exact works_of_parts (works_failQueuedDeliveries _ _)
  · exact asks_pure trivial

theorem works_deadLetterLease (dispatch : Option DispatchContext) (d : Delivery) (deadLetter : Event)
    (rootTaskId : String) (lease : Dict) :
    Works (IfEnds Q) (deadLetterLease dispatch d deadLetter rootTaskId lease) := by
  refine asks_bind (writes_required _ _) (fun assignmentIdJson _ => ?_)
  refine asks_bind (works_projection (by decide) _) (fun assignment _ => ?_)
  have hassignment : Works (IfEnds Q) (deadLetterAssignment dispatch d deadLetter rootTaskId
      assignmentIdJson.pyStr lease assignment) := by
    unfold deadLetterAssignment
    split
    · exact works_of_parts (works_partAppend (by decide) (fun _ => rfl))
    · exact asks_pure trivial
  exact asks_bind hassignment (fun _ _ => works_of_parts (works_partAppend (by decide) (fun _ => rfl)))

theorem careful_failRunningRunForDeadLetter (dispatch : Option DispatchContext) (d : Delivery)
    (deadLetter : Event) :
    (failRunningRunForDeadLetter dispatch d deadLetter).thread.Careful statusSight (fun _ => False) := by
  refine ⟨fun e he => absurd he (not_endsBy_of_none rfl e), fun run _ => ?_⟩
  cases run with
  | none => trivial
  | some row =>
      show Program.Careful statusSight (thread (if _ then _ else _)) _
      split
      next hrunning =>
        have hlive : runTerminal (row.get? "status") = false := by
          rw [show row.get? "status" = some (.str "running") from hrunning]
          decide
        refine careful_of_works (asks_bind (works_snapshot _) (fun projections _ => ?_))
        refine asks_bind (asks_each (fun lease => works_deadLetterLease _ _ _ _ lease) _) (fun _ _ => ?_)
        exact asks_bind (worksThen_ending (fun _ => rfl) (fun _ => rfl) (fun _ f _ hrun => shown hlive hrun))
          (fun _ _ => asks_pure trivial)
      next => trivial

/-- `_finish_single_run` does not look. -/
theorem careful_finishSingleRun (dispatch : Option DispatchContext) (trigger : Event) (succeeded : Bool)
    (reason : String) :
    (finishSingleRun dispatch trigger succeeded reason).thread.Careful statusSight
      (fun e => e.runId = trigger.runId) := by
  refine careful_of_works (asks_bind (worksThen_ending (fun _ => rfl) (fun _ => rfl) ?_)
    (fun assignment hrun => ?_))
  · intro hsome
    cases succeeded <;> exact absurd hsome (by decide)
  · exact asks_bind (worksThen_ending (fun _ => rfl) (fun _ => rfl) (fun _ f _ hsame => hsame.trans hrun))
      (fun _ _ => asks_pure trivial)

/-- **Every writer looks** before it appends an end, but for `_finish_single_run`. -/
theorem careful_of_starts {w w' : ResidentWorld} {p : Program (withStore residentInterface) Unit}
    (h : TerminalStarts w p w') : ∃ Q, p.Careful statusSight Q := by
  cases h with
  | cancelRun i runId reason => exact ⟨_, careful_cancelRun i runId reason⟩
  | reconcileCancellations i => exact ⟨_, careful_reconcileCancellations i⟩
  | failTeamRunFromModel dispatch identity reason =>
      exact ⟨_, careful_failTeamRunFromModel dispatch identity reason⟩
  | finalizeFailedRun i requested reason => exact ⟨_, careful_finalizeFailedRun i requested reason⟩
  | reconcileFailedRuns i => exact ⟨_, careful_reconcileFailedRuns i⟩
  | deadLetter dispatch d deadLetter => exact ⟨_, careful_failRunningRunForDeadLetter dispatch d deadLetter⟩
  | finishSingleRun dispatch trigger succeeded reason =>
      exact ⟨_, careful_finishSingleRun dispatch trigger succeeded reason⟩

end writers

/-! ### What is kept -/

/-- The projections follow the log, under the names of their runs, and no run has come to two ends. -/
structure OneEnds (db : Database) : Prop where
  followed : Followed db
  named : ∀ runId run, db.loadProjection "run" runId = some run → run.get? "run_id" = some (.str runId)
  once : ∀ runId, OneEnd db.events.rows runId

/-- The types of the events that change the status of a run. -/
def statusTypes : List String :=
  ["run.created", "run.succeeded", "run.failed", "run.paused", "run.cancel.requested", "run.cancelled"]

section kept

variable {db db' : Database} {e : Event} {es : List Event} {runId : String}

theorem runId_runStep (e : Event) (run : Dict) : (runStep e run).get? "run_id" = run.get? "run_id" := by
  unfold runStep
  dsimp only
  split_ifs <;> simp [Dict.get?_cons, Dict.get?_set]

/-- Other events leave the status of every run alone. -/
theorem runStatus_of_other (he : db.NewEvent e db') (htype : e.type ∉ statusTypes) (runId : String) :
    db'.runStatus runId = db.runStatus runId := by
  simp only [statusTypes, List.mem_cons, List.not_mem_nil, or_false, not_or] at htype
  rw [he.runStatus runId]
  split
  next heq =>
    subst heq
    cases hold : db.loadProjection "run" e.runId with
    | none => simp [Database.runStatus, hold, htype]
    | some run => simp [Database.runStatus, hold, statusAfter, htype]
  next => rfl

/-- What is written is new. -/
theorem fresh_of_wrote (hw : db.Wrote es db') (he : e ∈ es) : db.events.lookup e.id = none := by
  have hnodup := db'.events.nodup
  rw [hw.rows, List.map_append, List.nodup_append] at hnodup
  rw [Table.lookup_eq_none_iff]
  intro f hf heq
  exact hnodup.2.2 f.id (List.mem_map_of_mem hf) e.id (List.mem_map_of_mem he) heq

theorem OneEnds.sameLog (h : OneEnds db) (hs : db.SameLog db') : OneEnds db' where
  followed := h.followed.sameLog hs
  named := by
    intro runId run hload
    rw [hs.loadProjection] at hload
    exact h.named runId run hload
  once := by
    intro runId
    rw [hs.events]
    exact h.once runId

/-- An end that its run is open to is its only one. -/
theorem OneEnds.newEvent (h : OneEnds db) (he : db.NewEvent e db')
    (hopen : (outcomeOf e.type).isSome → OpenTo (db.runStatus e.runId) e.type) : OneEnds db' where
  followed := h.followed.newEvent he
  named := by
    intro runId run hload
    obtain ⟨r, hr, hloads⟩ := he.run
    rw [hloads] at hload
    split at hload
    next heq =>
      subst heq
      rcases nextRun_cases hr with ⟨hold, -, rfl⟩ | ⟨old, count, hcases, rfl⟩
      · rw [hold] at hload
        cases hload
      · obtain rfl := Option.some.inj hload
        rw [runId_runStep, get?_runCounters _ _ _ _ (by decide)]
        rcases hcases with hold | ⟨-, -, rfl⟩
        · exact h.named _ _ hold
        · simp [initialRun]
    next => exact h.named runId run hload
  once := by
    intro runId
    rw [he.rows]
    by_cases hfact : e.runId = runId ∧ (outcomeOf e.type).isSome
    · refine (oneEnd_append_fact hfact.1 hfact.2).mpr ⟨h.once runId, ?_⟩
      rw [← h.followed.status runId, ← hfact.1]
      exact hopen hfact.2
    · exact (oneEnd_append_other hfact).mpr (h.once runId)

theorem OneEnds.wroteOther (h : OneEnds db) (hw : db.Wrote es db') (hes : ∀ e ∈ es, outcomeOf e.type = none) :
    OneEnds db' :=
  hw.preserves (fun _ _ hs h => h.sameLog hs)
    (fun _ e _ he hmem h => h.newEvent he (ifEnds_of_none (Q := fun _ => _) (hes e hmem))) h

/-- One end among events that leave the status alone. -/
theorem OneEnds.wroteOne (h : OneEnds db) (hw : db.Wrote es db')
    (hopen : ∀ e ∈ es, (outcomeOf e.type).isSome → OpenTo (db.runStatus e.runId) e.type)
    (hother : ∀ e ∈ es, (outcomeOf e.type).isSome ∨ e.type ∉ statusTypes)
    (hone : (es.map Event.type).countP (fun type => (outcomeOf type).isSome) ≤ 1) : OneEnds db' := by
  -- Up to the end the status is that of the start.
  suffices hall : OneEnds db' ∧ ((∀ e ∈ es, outcomeOf e.type = none) →
      ∀ runId, db'.runStatus runId = db.runStatus runId) from hall.1
  induction hw with
  | nothing hs =>
      refine ⟨h.sameLog hs, fun _ runId => ?_⟩
      rw [Database.runStatus, hs.loadProjection, Database.runStatus]
  | @event db₁ db₂ es e _ he ih =>
      rw [List.map_append, List.countP_append, List.map_singleton, List.countP_singleton] at hone
      obtain ⟨hends, hstatus⟩ := ih (fun f hf => hopen f (List.mem_append_left _ hf))
        (fun f hf => hother f (List.mem_append_left _ hf)) (by omega)
      have hmem : e ∈ es ++ [e] := List.mem_append_right _ (List.mem_singleton_self e)
      refine ⟨hends.newEvent he (fun hsome => ?_), fun hnone runId => ?_⟩
      · rw [if_pos hsome] at hone
        have hzero : (es.map Event.type).countP (fun type => (outcomeOf type).isSome) = 0 := by omega
        rw [hstatus ?_]
        · exact hopen e hmem hsome
        · intro f hf
          have := List.countP_eq_zero.mp hzero f.type (List.mem_map_of_mem hf)
          simpa using this
      · have hchanges : e.type ∉ statusTypes := by
          rcases hother e hmem with hsome | hchanges
          · rw [hnone e hmem] at hsome
            cases hsome
          · exact hchanges
        rw [runStatus_of_other he hchanges]
        exact hstatus (fun f hf => hnone f (List.mem_append_left _ hf)) runId
  | elsewhere _ hs ih =>
      obtain ⟨hends, hstatus⟩ := ih hopen hother hone
      refine ⟨hends.sameLog hs, fun hnone runId => ?_⟩
      rw [Database.runStatus, hs.loadProjection, ← Database.runStatus]
      exact hstatus hnone runId

end kept

/-! ### The steps of the writers -/

section steps

variable {w w' : ResidentWorld} {op : (withStore residentInterface).Op}
  {r : (withStore residentInterface).Reply op}

/-- The dispatch may write to its run. -/
theorem append_writable {db : Database} {d : DispatchContext} {e : Event} {now : DateTime}
    {out : Event × Database} (h : db.append (some d) e now = .ok out) :
    ¬ db.runCancelled e.runId ∧ db.runStatus e.runId ≠ some (.str "failed") := by
  unfold Database.append at h
  obtain ⟨_, hcheck, _⟩ := bind_ok_iff.mp h
  unfold Database.checkDispatch at hcheck
  obtain ⟨_, _, hcheck⟩ := bind_ok_iff.mp hcheck
  obtain ⟨_, _, hcheck⟩ := bind_ok_iff.mp hcheck
  obtain ⟨_, hcancelled, hfailed⟩ := bind_ok_iff.mp hcheck
  exact ⟨ensure_ok_iff.mp hcancelled, ensure_ok_iff.mp hfailed⟩

/-- What an operation writes is new, and at most its event. -/
theorem residentStep_once (h : residentStep w op r w') :
    w.store.db.Wrote [] w'.store.db ∨
      ∃ e ∈ stepEvent op, w.store.db.events.lookup e.id = none ∧ w.store.db.Wrote [e] w'.store.db := by
  obtain ⟨-, es, hes, hwrote⟩ := residentStep_wrote h
  cases es with
  | nil => exact .inl hwrote
  | cons e rest =>
      have he : e ∈ stepEvent op := Option.mem_toList.mp (hes List.mem_cons_self)
      have hrest : rest = [] := by
        have hnodup := w'.store.db.events.nodup
        rw [hwrote.rows, List.map_append, List.map_cons, List.nodup_append, List.nodup_cons] at hnodup
        rw [List.eq_nil_iff_forall_not_mem]
        intro f hf
        have hf' := Option.mem_toList.mp (hes (List.mem_cons_of_mem e hf))
        obtain rfl : f = e := Option.some.inj (hf'.symm.trans he)
        exact hnodup.2.1.1 (List.mem_map_of_mem hf)
      subst hrest
      exact .inr ⟨e, he, fresh_of_wrote hwrote (List.mem_singleton_self e), hwrote⟩

/-- A step whose end can be appended. -/
theorem OneEnds.step (h : OneEnds w.store.db) (hs : residentStep w op r w')
    (hadmits : ∀ e, EndsBy op e → AdmitsEnd w op e) : OneEnds w'.store.db := by
  rcases residentStep_once hs with hwrote | ⟨e, he, hnew, hwrote⟩
  · exact h.wroteOther hwrote (fun e he => absurd he List.not_mem_nil)
  · by_cases hend : (outcomeOf e.type).isSome
    · rcases hadmits e ⟨he, hend⟩ with hlogged | hopen | ⟨⟨d, rfl⟩, hrefused⟩
      · rw [hnew] at hlogged
        cases hlogged
      · refine h.wroteOne hwrote ?_ ?_ ?_
        · intro f hf _
          rw [List.mem_singleton.mp hf]
          exact hopen
        · intro f hf
          rw [List.mem_singleton.mp hf]
          exact .inl hend
        · exact List.countP_le_length
      · obtain ⟨s, ⟨d', now, hbecomes, -, hout⟩, rfl⟩ := hs
        obtain ⟨d', rfl⟩ : ∃ d₁, d' = some d₁ := by
          cases d' with
          | none => cases hbecomes
          | some d₁ => exact ⟨d₁, rfl⟩
        rcases StoreWorld.returns_cases hout with ⟨_, -, -, rfl⟩ | ⟨stored, db, happend, -, -⟩
        · exact h
        · obtain ⟨hlive, hfailed⟩ := append_writable happend
          rcases hrefused with hrefused | hrefused
          · exact absurd hrefused hlive
          · exact absurd hrefused hfailed
    · refine h.wroteOther hwrote (fun f hf => ?_)
      rw [List.mem_singleton.mp hf]
      exact Option.not_isSome_iff_eq_none.mp hend

/-- A look that shows a run without end has found it open, unless it is being cancelled. -/
theorem admits_of_look (h : OneEnds w.store.db) (hs : residentStep w op r w')
    {op' : (withStore residentInterface).Op} {e : Event} (hlook : LooksAt op e) (hshows : ShowsOpen op r e)
    (hfits : Fits w' op' e) : AdmitsEnd w' op' e := by
  suffices hrow : ∃ row, w'.store.db.loadProjection "run" e.runId = some row ∧
      runTerminal (row.get? "status") = false by
    obtain ⟨row, hload, hlive⟩ := hrow
    have hstatus : w'.store.db.runStatus e.runId = row.get? "status" := by
      rw [Database.runStatus, hload]
      rfl
    have hkept : OneEnds w'.store.db := h.step hs (fun f hf => ?_)
    · by_cases hcancelling : w'.store.db.runStatus e.runId = some (.str "cancelling")
      · exact hfits hcancelling
      · refine .inr (.inl ⟨hkept.followed.known _ (by rw [hload]; rfl), ?_, fun _ => hcancelling⟩)
        rw [hstatus]
        exact hlive
    · -- A look appends nothing.
      exfalso
      cases op with
      | inl op => cases op <;> first | exact hlook | exact not_endsBy_of_none rfl f hf
      | inr op => exact hlook
  cases op with
  | inl op =>
      cases op with
      | projection kind runId =>
          obtain ⟨s, ⟨rfl, rfl⟩, rfl⟩ := hs
          obtain ⟨rfl, rfl⟩ := hlook
          exact hshows
      | snapshot runId =>
          obtain ⟨s, ⟨rfl, rfl⟩, rfl⟩ := hs
          obtain ⟨row, hrow, hrun, hlive⟩ := hshows
          obtain ⟨id, hload⟩ := loadProjection_of_snapshotOf hrow
          rw [h.named id row hload] at hrun
          obtain rfl : id = e.runId := by simpa using hrun
          exact ⟨row, hload, hlive⟩
      | _ => exact hlook.elim
  | inr op => exact hlook.elim

end steps

/-! ### The steps of the kernel -/

section kernel

variable {c : CommandCandidate} {w w' : StoreWorld} {op : (withStore kernelInterface).Op}
  {r : (withStore kernelInterface).Reply op}

theorem types_of_stamped {ds : List Draft} {es : List Event} {causationId : String}
    (h : List.Forall₂ (fun d e => ∃ createdAt, e = Draft.event d c causationId createdAt) ds es) :
    es.map Event.type = ds.map Draft.type := by
  induction h with
  | nil => rfl
  | cons hd _ ih =>
      obtain ⟨createdAt, rfl⟩ := hd
      rw [List.map_cons, List.map_cons, ih]
      rfl

/-- An acceptance has one end of its run at most. -/
theorem ends_of_drafts {acceptedAt : DateTime} {ds : List Draft} (h : (drafts c acceptedAt).Yields ds) :
    (ds.map Draft.type).countP (fun type => (outcomeOf type).isSome) ≤ 1 := by
  by_cases hkind : c.kind = .complete
  · unfold drafts at h
    simp only [hkind] at h
    unfold completeDrafts at h
    obtain ⟨events, -, h⟩ := ReadM.yields_bind.mp h
    obtain ⟨contract, -, h⟩ := ReadM.yields_bind.mp h
    dsimp only at h
    split at h
    · rw [← ReadM.yields_pure.mp h]
      show ["completion.requested", "completion.gate.passed", "run.succeeded"].countP _ ≤ 1
      decide
    · rw [← ReadM.yields_pure.mp h]
      show ["completion.requested", "completion.gate.failed", "agent.nudged"].countP _ ≤ 1
      decide
  · have hall : ∀ kind : CommandKind, kind ≠ .complete → ∀ type ∈ factTypes kind, outcomeOf type = none := by
      intro kind
      cases kind <;> decide
    have hzero : (ds.map Draft.type).countP (fun type => (outcomeOf type).isSome) = 0 := by
      rw [List.countP_eq_zero]
      intro type htype
      obtain ⟨d, hd, rfl⟩ := List.mem_map.mp htype
      simp [hall c.kind hkind d.type (type_of_drafts h d hd)]
    omega

theorem commitCommand_live {db db' : Database} {key : String} {state : CommandState} {decision : KernelDecision}
    {events stored : List Event} {precondition : Option (Database → Except StoreError (Option String))}
    {guard : Option (String × Claims)} {now : DateTime}
    (h : db.commitCommand key state decision events precondition guard now = .ok (stored, db')) :
    ∀ e ∈ events, ¬ db.runCancelled e.runId := by
  unfold Database.commitCommand at h
  obtain ⟨_, _, h⟩ := bind_ok_iff.mp h
  obtain ⟨_, hlive, h⟩ := bind_ok_iff.mp h
  have hnone := ensure_ok_iff.mp hlive
  intro e he hcancelled
  exact hnone (List.any_eq_true.mpr ⟨e, he, hcancelled⟩)

/-- **The kernel** ends a run once, if it commits ends of open runs only. -/
theorem OneEnds.kernelStep (h : OneEnds w.db) (hcall : KernelCall anyReply controlKernel c op)
    (hs : kernelStep w op r w') (hopen : ∀ e ∈ committed op, (outcomeOf e.type).isSome →
      (w.db.events.lookup e.id).isSome ∨ OpenTo (w.db.runStatus e.runId) e.type ∨ w.db.runCancelled e.runId) :
    OneEnds w'.db := by
  cases hcall.effect hs with
  | noted es hwrote hnotes =>
      have hall : ∀ type ∈ candidateNotes, outcomeOf type = none := by decide
      exact h.wroteOther hwrote (fun e he => hall e.type (hnotes e he).2.2)
  | accepted _ _ hop =>
      obtain ⟨key, decision, events, precondition, guard, rfl⟩ := hop
      cases hcall with
      | @accept _ acceptedAt formal _ hformal =>
          obtain ⟨now, -, hout⟩ := hs
          rcases StoreWorld.returns_cases hout with ⟨_, -, -, rfl⟩ | ⟨stored, db, hcommit, -, rfl⟩
          · exact h
          obtain ⟨-, es, hsub, hwrote, -⟩ := Database.commitCommand_wrote hcommit
          obtain ⟨ds, hds, hstamped⟩ := materialize_yields hformal
          have htypes : (acceptedEvent c acceptedAt :: formal).map Event.type =
              "candidate.accepted" :: ds.map Draft.type := by
            rw [List.map_cons, types_of_stamped hstamped]
            rfl
          have hfacts : ∀ kind : CommandKind, ∀ type ∈ "candidate.accepted" :: factTypes kind,
              (outcomeOf type).isSome ∨ type ∉ statusTypes := by
            intro kind
            cases kind <;> decide
          refine h.wroteOne hwrote ?_ ?_ ?_
          · intro e he hsome
            rcases hopen e (hsub.subset he) hsome with hlogged | hlive | hcancelled
            · rw [fresh_of_wrote hwrote he] at hlogged
              cases hlogged
            · exact hlive
            · exact absurd hcancelled (commitCommand_live hcommit e (hsub.subset he))
          · intro e he
            refine hfacts c.kind e.type ?_
            have hmem : e.type ∈ (acceptedEvent c acceptedAt :: formal).map Event.type :=
              List.mem_map_of_mem (hsub.subset he)
            rw [htypes] at hmem
            cases List.mem_cons.mp hmem with
            | inl heq => exact heq ▸ List.mem_cons_self
            | inr hmem =>
                obtain ⟨d, hd, heq⟩ := List.mem_map.mp hmem
                exact List.mem_cons_of_mem _ (heq ▸ type_of_drafts hds.yields d hd)
          · refine (hsub.map Event.type).countP_le.trans ?_
            rw [htypes, List.countP_cons_of_neg (by decide)]
            exact ends_of_drafts hds.yields

end kernel

/-! ### Undisturbed runs -/

/-- A call of a submission writes events. -/
theorem wrote_of_kernelCalls {allowed : ResidentWorld → (withStore kernelInterface).Op → Prop}
    {w w' : ResidentWorld} (h : KernelCalls allowed w w') : ∃ es, w.store.db.Wrote es w'.store.db := by
  obtain ⟨dispatch, c, op, r, s, hop, -, hs, rfl⟩ := h
  have hcall : KernelCall anyReply controlKernel c op :=
    (calls_submit anyReply controlKernel dispatch c).canRequest hop
  cases hcall.effect hs with
  | noted es hwrote _ => exact ⟨es, hwrote⟩
  | accepted es haccepted _ => exact ⟨es, haccepted.wrote⟩

/-- The projections follow the log in every state that any interleaving leads to. -/
theorem followed_of_reachable {P : Pool (withStore residentInterface) Unit ResidentWorld}
    (h : Pool.Reachable terminalRules emptyWorld P) : Followed P.state.store.db := by
  refine @Pool.invariant_of_asks _ _ _ terminalRules (fun _ _ => True) (fun _ => True)
    (fun w => Followed w.store.db) _ _ (fun _ _ _ _ _ _ => trivial) ?_ ?_ ?_ ?_
    (fun p hp => absurd hp List.not_mem_nil) h
  · rintro w op r w' hinv - hstep
    obtain ⟨-, es, -, hwrote⟩ := residentStep_wrote hstep
    exact hinv.wrote hwrote
  · rintro w p w' hinv hstart
    have hsame : w' = w := by cases hstart <;> rfl
    subst hsame
    exact ⟨hinv, Program.asks_true p⟩
  · rintro w w' hinv (⟨-, ⟨es, hwrote, -⟩, -⟩ | hcalls)
    · exact hinv.wrote hwrote
    · obtain ⟨es, hwrote⟩ := wrote_of_kernelCalls hcalls
      exact hinv.wrote hwrote
  · exact ⟨fun runId hrun => (by cases hrun), fun runId => rfl⟩

/-- What the rules owe to the windows of the writers. -/
theorem windowed : Pool.Windowed openRules statusSight AdmitsEnd Fits (fun w => OneEnds w.store.db) where
  replies _ _ _ _ _ hs := repliesFact_of_step hs
  looks _ _ _ _ h hs _ _ hlook hshows hfits := admits_of_look h hs hlook hshows hfits
  step _ _ _ _ h hs hroom := h.step hs hroom
  starts := by
    rintro w p w' h ⟨hstart, hroom⟩
    have hsame : w' = w := by cases hstart <;> rfl
    subst hsame
    exact ⟨h, careful_of_starts hstart, hroom⟩
  env := by
    rintro w w' h (⟨-, ⟨es, hwrote, hes⟩, -⟩ | ⟨dispatch, c, op, r, s, hop, hopen, hs, rfl⟩)
    · exact h.wroteOther hwrote hes
    · exact h.kernelStep ((calls_submit anyReply controlKernel dispatch c).canRequest hop) hs hopen

/-- **One terminal fact** for each run, shown by its projection, in every state of an undisturbed run. -/
theorem oneTerminalFact_of_undisturbed {P : Pool (withStore residentInterface) Unit ResidentWorld}
    (h : UndisturbedRuns emptyWorld P) (runId : String) : OneTerminalFact P.state.store.db runId := by
  have hends : OneEnds P.state.store.db := by
    refine Pool.invariant_of_calm windowed h ⟨⟨?_, fun _ => rfl⟩, ?_, ?_⟩ rfl
    · intro runId hrun
      cases hrun
    · intro runId run hload
      cases hload
    · intro runId
      exact ⟨Nat.zero_le 1, fun e he => absurd he List.not_mem_nil⟩
  rw [OneTerminalFact, hends.followed.status runId]
  exact hends.once runId

/-! ### A cancellation that comes late -/

/-- The dispatch of the only delivery of the generalist. -/
def generalistDispatch : DispatchContext where
  workerId := "generalist"
  deliveryId := "d1"
  claimOwnerId := "scheduler"
  claimTokens := [("delivery:generalist:d1", 1)]

/-- The run has started, and its delivery is claimed. -/
def generalistWorld : ResidentWorld where
  store := ((StoreWorld.mk .initial 0).wrote [generalistRun]).claimed ["delivery:generalist:d1"]
    "scheduler" 180 twelve (some "r1")

/-- The generalist finishes, and the operator cancels. -/
def finishAndCancel : Pool (withStore residentInterface) Unit ResidentWorld :=
  ⟨generalistWorld, [(finishSingleRun (some generalistDispatch) generalistRun true "done").thread,
    (cancelRun 0 "r1" "operator_requested").thread], []⟩

theorem elsewhere_generalist :
    Elsewhere (fun e => outcomeOf e.type = none) emptyWorld.state generalistWorld := by
  obtain ⟨es, hes, hdb, -⟩ := (StoreWorld.mk .initial 0).wrote_db [generalistRun]
  refine ⟨Nat.zero_le _, ⟨es, .elsewhere hdb (StoreWorld.claimed_db _ _ _ _ _ _), ?_⟩, rfl⟩
  intro e he
  rw [List.mem_singleton.mp (hes he)]
  rfl

theorem finishAndCancel_reachable : Pool.Reachable terminalRules emptyWorld finishAndCancel :=
  ((Relation.ReflTransGen.single (.env (.inl elsewhere_generalist))).tail
    (.start (.cancelRun _ _ _ _))).tail (.start (.finishSingleRun _ _ _ _ _))

section calm

variable {log es : List Event} {runId : String}

theorem statusStep_of_other {e : Event} (htype : e.type ∉ statusTypes) (status : Option Json) :
    statusStep runId status e = status := by
  simp only [statusTypes, List.mem_cons, List.not_mem_nil, or_false, not_or] at htype
  unfold statusStep
  split
  · cases status with
    | none => simp [htype]
    | some v => simp [statusAfter, htype]
  · rfl

theorem statusOf_append_others (hes : ∀ e ∈ es, e.type ∉ statusTypes) :
    statusOf (log ++ es) runId = statusOf log runId := by
  induction es using List.reverseRecOn with
  | nil => rw [List.append_nil]
  | append_singleton es e ih =>
      rw [← List.append_assoc, statusOf_append, statusStep_of_other (hes e (by simp))]
      exact ih (fun f hf => hes f (List.mem_append_left _ hf))

/-- Only a request to cancel makes a run a cancelling one. -/
theorem statusOf_ne_cancelling (h : ∀ e ∈ log, e.type ≠ "run.cancel.requested") :
    statusOf log runId ≠ some (.str "cancelling") := by
  induction log using List.reverseRecOn with
  | nil => exact Option.some_ne_none _ ∘ Eq.symm
  | append_singleton log e ih =>
      have hlog := ih (fun f hf => h f (List.mem_append_left _ hf))
      have htype : e.type ≠ "run.cancel.requested" := h e (by simp)
      rw [statusOf_append]
      unfold statusStep
      split
      · cases hstatus : statusOf log runId with
        | none =>
            dsimp only
            split <;> simp
        | some v =>
            rw [hstatus] at hlog
            unfold statusAfter
            simp only [htype, false_and, if_false]
            split_ifs <;> simp_all
      · exact hlog

/-- A step that leaves the statuses alone, while no run is being cancelled. -/
theorem calm_of_log {P P' : Pool (withStore residentInterface) Unit ResidentWorld}
    (hP : Followed P.state.store.db) (hP' : Followed P'.state.store.db)
    (hrows : P'.state.store.db.events.rows = P.state.store.db.events.rows ++ es)
    (hes : ∀ e ∈ es, e.type ∉ statusTypes)
    (hno : ∀ e ∈ P'.state.store.db.events.rows, e.type ≠ "run.cancel.requested") :
    Pool.Calm statusSight AdmitsEnd Fits P P' where
  kept := by
    have hstatus : ∀ runId, P'.state.store.db.runStatus runId = P.state.store.db.runStatus runId := by
      intro runId
      rw [hP'.status, hP.status, hrows, statusOf_append_others hes]
    rintro p - op e - (hlogged | hopen | ⟨hop, hrefused⟩)
    · obtain ⟨f, hf⟩ := Option.isSome_iff_exists.mp hlogged
      have hmem : f ∈ P'.state.store.db.events.rows := by
        rw [hrows]
        exact List.mem_append_left _ (Table.mem_of_lookup hf)
      refine .inl ?_
      rw [← Table.key_of_lookup hf, Table.lookup_of_mem hmem]
      rfl
    · refine .inr (.inl ?_)
      rw [hstatus]
      exact hopen
    · refine .inr (.inr ⟨hop, ?_⟩)
      rw [Database.runCancelled, hstatus]
      exact hrefused
  fits := by
    rintro p - op e - hcancelling
    rw [hP'.status] at hcancelling
    exact absurd hcancelling (statusOf_ne_cancelling hno)

end calm

theorem finishAndCancel_undisturbed : UndisturbedRuns emptyWorld finishAndCancel := by
  have hfollowed : Followed generalistWorld.store.db :=
    followed_of_reachable (.single (.env (.inl elsewhere_generalist)))
  have hno : ∀ e ∈ generalistWorld.store.db.events.rows, e.type ≠ "run.cancel.requested" := by decide
  have hwrote : UndisturbedRuns emptyWorld ⟨generalistWorld, [], []⟩ :=
    .single ⟨.env (.inl elsewhere_generalist),
      ⟨fun p hp => absurd hp List.not_mem_nil, fun p hp => absurd hp List.not_mem_nil⟩⟩
  have hcancels : openRules.starts generalistWorld (cancelRun 0 "r1" "operator_requested").thread
      generalistWorld :=
    ⟨.cancelRun _ _ _ _, fun op e hheads => ((careful_cancelRun _ _ _).heads hheads).elim⟩
  have hfinishes : openRules.starts generalistWorld
      (finishSingleRun (some generalistDispatch) generalistRun true "done").thread generalistWorld := by
    refine ⟨.finishSingleRun _ _ _ _ _, fun op e hheads => .inr (.inl ?_)⟩
    rw [(careful_finishSingleRun _ _ _ _).heads hheads]
    exact ⟨by decide, by decide, fun _ => by decide⟩
  exact (hwrote.tail ⟨.start hcancels, calm_of_log hfollowed hfollowed (List.append_nil _).symm
    (fun e he => absurd he List.not_mem_nil) hno⟩).tail ⟨.start hfinishes, calm_of_log hfollowed hfollowed
      (List.append_nil _).symm (fun e he => absurd he List.not_mem_nil) hno⟩

/-- The generalist finishes before `cancel_run` looks. -/
def finishedFirst (n : ℕ) : Pool (withStore residentInterface) Unit ResidentWorld :=
  Pool.follow (R := openRules) (residentStrategy twelve rfl) finishAndCancel ([0, 0, 0, 0, 1].take n)

theorem followed_finishedFirst (n : ℕ) : Followed (finishedFirst n).state.store.db :=
  followed_of_reachable (finishAndCancel_reachable.trans
    (Pool.follow_reachable (R := terminalRules) (residentStrategy twelve rfl) _ _))

theorem finishedFirst_succ {n : ℕ} {i : ℕ} (h : [0, 0, 0, 0, 1][n]? = some i) :
    finishedFirst (n + 1) = (finishedFirst n).advance (R := openRules) (residentStrategy twelve rfl) i := by
  rw [finishedFirst, List.take_add_one, h]
  exact List.foldl_append

/-- When the run ends, nobody heads for another end: the generalist is done, and `cancel_run` has not looked. -/
theorem not_heads_finishedFirst {p : Program (withStore residentInterface) Unit}
    (hp : p ∈ (finishedFirst 4).threads) (op : (withStore residentInterface).Op) (e : Event) :
    ¬ p.Heads statusSight op e := by
  obtain ⟨j, hj⟩ := List.mem_iff_getElem?.mp hp
  rcases j with _ | _ | j
  · have hdone : (finishedFirst 4).threads[0]?.bind Program.result = some () := by decide
    rw [hj, Option.bind_some] at hdone
    cases p with
    | done a => exact id
    | request op next => cases hdone
  · have hwaits : (finishedFirst 4).threads[1]? = finishAndCancel.threads[1]? := by
      have hstep : ∀ n < 4, (finishedFirst (n + 1)).threads[1]? = (finishedFirst n).threads[1]? := by
        intro n hn
        have hzero : [0, 0, 0, 0, 1][n]? = some 0 := by
          revert n
          decide
        rw [finishedFirst_succ hzero]
        exact Pool.threads_advance_ne _ _ (by decide)
      exact (hstep 3 (by decide)).trans ((hstep 2 (by decide)).trans ((hstep 1 (by decide)).trans
        (hstep 0 (by decide))))
    rw [hwaits] at hj
    obtain rfl := Option.some.inj hj
    exact fun hheads => (careful_cancelRun 0 "r1" "operator_requested").heads hheads
  · have hlength : (finishedFirst 4).threads.length = 2 := by decide
    have := (List.getElem?_eq_some_iff.mp hj).1
    omega

theorem calm_finishedFirst {n : ℕ} (hn : n < 5) :
    Pool.Calm statusSight AdmitsEnd Fits (finishedFirst n) (finishedFirst (n + 1)) := by
  by_cases hend : n = 3
  · subst hend
    exact ⟨fun p hp op e hheads => absurd hheads (not_heads_finishedFirst hp op e),
      fun p hp op e hheads => absurd hheads (not_heads_finishedFirst hp op e)⟩
  · have hlog : ∀ n < 5, n ≠ 3 →
        let before := (finishedFirst n).state.store.db.events.rows
        let after := (finishedFirst (n + 1)).state.store.db.events.rows
        after = before ++ after.drop before.length ∧ (∀ e ∈ after.drop before.length, e.type ∉ statusTypes) ∧
          ∀ e ∈ after, e.type ≠ "run.cancel.requested" := by decide
    obtain ⟨hrows, hes, hno⟩ := hlog n hn hend
    exact calm_of_log (followed_finishedFirst n) (followed_finishedFirst (n + 1)) hrows hes hno

theorem finishedFirst_undisturbed : UndisturbedRuns emptyWorld (finishedFirst 5) := by
  refine finishAndCancel_undisturbed.trans (Pool.calmReachable_follow _ (fun n i hi => ?_))
  have hn : n < 5 := (List.getElem?_eq_some_iff.mp hi).1
  have hcalm := calm_finishedFirst hn
  rw [finishedFirst_succ hi] at hcalm
  exact hcalm

/-- One end, and `cancel_run` sees it. -/
theorem finished_once : UndisturbedRuns emptyWorld (finishedFirst 5) ∧
    (terminalFacts (finishedFirst 5).state.store.db.events.rows "r1").length = 1 ∧
    OneTerminalFact (finishedFirst 5).state.store.db "r1" :=
  ⟨finishedFirst_undisturbed, by decide, oneTerminalFact_of_undisturbed finishedFirst_undisturbed "r1"⟩

/-- `cancel_run` reads the run as running; it succeeds; the cancellation goes on to its end. -/
theorem cancelled_after_success :
    ∃ P, Pool.Reachable terminalRules emptyWorld P ∧
      ¬ OneTerminalFact P.state.store.db "r1" := by
  refine ⟨_, finishAndCancel_reachable.trans (Pool.follow_reachable (R := terminalRules)
    (residentStrategy twelve rfl) _ (1 :: List.replicate 4 0 ++ List.replicate 26 1)), ?_⟩
  set_option maxRecDepth 4000 in
  decide

end CrazyHarness
