import CrazyHarness.Tools.Batches
import CrazyHarness.Tools.Executions

/-! # Results of an execution

What the threads of one execution own together: for each idempotency key the call that may still be made,
and for each ticket the call id of its job.  `Accounts` follows the code with what it owns; what others do to
the ledger does not matter, as records keep their keys.

`ends_of_reachable`: an execution returns one result for each request, in order, or raises before the
first call, or has been cancelled; and it calls the registry at most once for each key. -/

namespace CrazyHarness

open Lib Program OperationLedger PipelineM

/-! ### What the threads own -/

/-- Calls for each key, and tickets with the call ids of their jobs. -/
abbrev Shares := (String → ℕ) × Multiset (ℕ × String)

/-- The call of a primary invocation. -/
def PlannedInvocation.share (p : PlannedInvocation) : String → ℕ :=
  if p.primary then Pi.single p.invocation.idempotencyKey 1 else 0

/-- What a job may settle with. -/
def FitsCall (cancellable : Prop) (callId : String) : Except PipelineError SettledToolResult → Prop
  | .ok r => r.callId = callId
  | .error e => e = .dispatchCancelled ∧ cancellable

/-- The calls that waiting jobs may still make. -/
def PipelineWorld.waitingCalls (w : PipelineWorld) (key : String) : ℕ :=
  (w.jobs.map (fun job => job.2.share key)).sum

/-- Each ticket belongs to one job, and settles with a result of it. -/
structure TicketsOk (cancellable : Prop) (w : PipelineWorld) (known : Multiset (ℕ × String))
    (callIdOf : ℕ → String) : Prop where
  known : ∀ t c, (t, c) ∈ known → t < w.nextTicket ∧ c = callIdOf t
  jobs : ∀ t job, (t, job) ∈ w.jobs → t < w.nextTicket ∧ job.invocation.callId = callIdOf t
  settled : ∀ t r, (t, r) ∈ w.settled → t < w.nextTicket ∧ FitsCall cancellable (callIdOf t) r

/-- What is owned agrees with the world: for each key there is one call, made or to be made. -/
structure PipelineWorld.Agrees (cancellable : Prop) (w : PipelineWorld) (owned : Shares) : Prop where
  ledger : LedgerOk w.ledger w.drawn
  once : ∀ key, w.callCount key + w.waitingCalls key + owned.1 key ≤ 1
  tickets : ∃ callIdOf, TicketsOk cancellable w owned.2 callIdOf

/-- Requests that change the ledger at most. -/
def LedgerOnly : PipelineOp → Prop
  | .call _ | .submit _ | .settle _ _ => False
  | _ => True

section steps

variable {cancellable : Prop} {w w' : PipelineWorld} {owned : Shares}

theorem ledger_returns {r : Except LedgerError OperationRecord} {n : ℕ}
    {out : Except LedgerError (OperationRecord × OperationLedger)}
    (hs : (r, w') = PipelineWorld.returns { w with drawn := n } out) :
    ∃ L, w' = { w with ledger := L, drawn := n } ∧ (L = w.ledger ∨ ∃ s, out = .ok (s, L)) := by
  unfold PipelineWorld.returns at hs
  split at hs <;> cases hs
  next s L => exact ⟨L, rfl, .inr ⟨s, rfl⟩⟩
  next => exact ⟨w.ledger, rfl, .inl rfl⟩

theorem transition_returns {r : Except LedgerError OperationRecord} {operationId : String}
    {target : OperationState} {result : Option ToolResult} {error : Option String}
    (hL : LedgerOk w.ledger w.drawn)
    (hs : (r, w') = w.returns (w.ledger.transition operationId target result error)) :
    ∃ L n, w' = { w with ledger := L, drawn := n } ∧ LedgerOk L n ∧ w.ledger.Grows L := by
  obtain ⟨L, rfl, rfl | ⟨s, hout⟩⟩ := ledger_returns hs
  · exact ⟨_, _, rfl, hL, Grows.refl _⟩
  · exact ⟨L, _, rfl, hL.transition hout, grows_transition hout⟩

/-- A request of the ledger leaves the rest of the world as it is. -/
theorem ledgerOnly_step {op : PipelineOp} {r : pipelineInterface.Reply op} (hop : LedgerOnly op)
    (hL : LedgerOk w.ledger w.drawn) (hs : pipelineStep w op r w') :
    ∃ L n, w' = { w with ledger := L, drawn := n } ∧ LedgerOk L n ∧ w.ledger.Grows L := by
  have hsame : ∃ L n, w = { w with ledger := L, drawn := n } ∧ LedgerOk L n ∧ w.ledger.Grows L :=
    ⟨_, _, rfl, hL, Grows.refl _⟩
  cases op with
  | plan i =>
      obtain ⟨L, rfl, rfl | ⟨s, hout⟩⟩ := ledger_returns hs
      · exact ⟨_, _, rfl, hL.mono (Nat.le_succ _), Grows.refl _⟩
      · exact ⟨L, _, rfl, hL.plan hout, grows_plan hL hout⟩
  | start operationId => exact transition_returns hL hs
  | succeed operationId result => exact transition_returns hL hs
  | fail operationId error result => exact transition_returns hL hs
  | markUnknown operationId reason => exact transition_returns hL hs
  | get operationId =>
      obtain ⟨-, rfl⟩ := hs
      exact hsame
  | «await» ticket =>
      obtain ⟨-, rfl⟩ := hs
      exact hsame
  | cancelled =>
      obtain rfl : w' = w := hs
      exact hsame
  | onStarted r i =>
      obtain rfl : w' = w := hs
      exact hsame
  | call i => exact hop.elim
  | submit job => exact hop.elim
  | settle ticket r => exact hop.elim

theorem PipelineWorld.Agrees.withLedger {L : OperationLedger} {n : ℕ}
    (h : w.Agrees cancellable owned) (hL : LedgerOk L n) :
    PipelineWorld.Agrees cancellable { w with ledger := L, drawn := n } owned := by
  obtain ⟨-, honce, callIdOf, htickets⟩ := h
  exact ⟨hL, honce, callIdOf, htickets.known, htickets.jobs, htickets.settled⟩

/-- A call is one of those that were owned. -/
theorem agrees_call {i : ToolInvocation}
    (h : w.Agrees cancellable ((Pi.single i.idempotencyKey 1, 0) + owned)) :
    (w.called i).Agrees cancellable owned where
  ledger := h.ledger
  once := by
    intro key
    have honce := h.once key
    have hcount : (w.called i).callCount key =
        w.callCount key + if i.idempotencyKey = key then 1 else 0 := by
      simp [PipelineWorld.callCount, PipelineWorld.called, List.countP_cons]
    rw [hcount]
    simp only [Prod.fst_add, Pi.add_apply, Pi.single_apply, eq_comm (a := key)] at honce
    show _ + w.waitingCalls key + _ ≤ 1
    omega
  tickets := by
    obtain ⟨callIdOf, htickets⟩ := h.tickets
    rw [Prod.snd_add, zero_add] at htickets
    exact ⟨callIdOf, htickets.known, htickets.jobs, htickets.settled⟩

/-- The call goes with the job, and the ticket is new. -/
theorem agrees_submit {job : PlannedInvocation} (h : w.Agrees cancellable ((job.share, 0) + owned)) :
    (w.submitted job).Agrees cancellable
      ((0, {(w.nextTicket, job.invocation.callId)}) + owned) where
  ledger := h.ledger
  once := by
    intro key
    have honce := h.once key
    have hwait : (w.submitted job).waitingCalls key = job.share key + w.waitingCalls key := by
      simp [PipelineWorld.waitingCalls, PipelineWorld.submitted]
    rw [hwait]
    simp only [Prod.fst_add, Pi.add_apply, Pi.zero_apply, zero_add] at honce ⊢
    show w.callCount key + _ + _ ≤ 1
    omega
  tickets := by
    obtain ⟨callIdOf, htickets⟩ := h.tickets
    rw [Prod.snd_add, zero_add] at htickets
    -- older tickets keep their job
    have hold : ∀ t, t < w.nextTicket →
        Function.update callIdOf w.nextTicket job.invocation.callId t = callIdOf t :=
      fun t ht => Function.update_of_ne (Nat.ne_of_lt ht) _ _
    refine ⟨Function.update callIdOf w.nextTicket job.invocation.callId, ?_, ?_, ?_⟩
    · intro t c hc
      rw [Prod.snd_add, Multiset.mem_add, Multiset.mem_singleton] at hc
      rcases hc with hc | hc
      · obtain ⟨rfl, rfl⟩ := Prod.mk.inj hc
        exact ⟨Nat.lt_succ_self _, by rw [Function.update_self]⟩
      · obtain ⟨hlt, hcall⟩ := htickets.known t c hc
        exact ⟨hlt.trans (Nat.lt_succ_self _), by rw [hold t hlt, hcall]⟩
    · intro t j hj
      rcases List.mem_cons.mp hj with hj | hj
      · obtain ⟨rfl, rfl⟩ := Prod.mk.inj hj
        exact ⟨Nat.lt_succ_self _, by rw [Function.update_self]⟩
      · obtain ⟨hlt, hcall⟩ := htickets.jobs t j hj
        exact ⟨hlt.trans (Nat.lt_succ_self _), by rw [hold t hlt, hcall]⟩
    · intro t r hr
      obtain ⟨hlt, hfits⟩ := htickets.settled t r hr
      exact ⟨hlt.trans (Nat.lt_succ_self _), by rw [hold t hlt]; exact hfits⟩

/-- Who knows the ticket settles it with a result of its job. -/
theorem agrees_settle {t : ℕ} {c : String} {r : Except PipelineError SettledToolResult}
    (h : w.Agrees cancellable owned) (hknown : (t, c) ∈ owned.2) (hr : FitsCall cancellable c r) :
    PipelineWorld.Agrees cancellable { w with settled := (t, r) :: w.settled } owned where
  ledger := h.ledger
  once := h.once
  tickets := by
    obtain ⟨callIdOf, htickets⟩ := h.tickets
    refine ⟨callIdOf, htickets.known, htickets.jobs, ?_⟩
    intro t' r' hmem
    rcases List.mem_cons.mp hmem with hmem | hmem
    · obtain ⟨rfl, rfl⟩ := Prod.mk.inj hmem
      obtain ⟨hlt, rfl⟩ := htickets.known _ c hknown
      exact ⟨hlt, hr⟩
    · exact htickets.settled t' r' hmem

/-- What a known ticket has settled with. -/
theorem PipelineWorld.Agrees.fits {t : ℕ} {c : String} {r : Except PipelineError SettledToolResult}
    (h : w.Agrees cancellable owned) (hknown : (t, c) ∈ owned.2) (hr : (t, r) ∈ w.settled) :
    FitsCall cancellable c r := by
  obtain ⟨callIdOf, htickets⟩ := h.tickets
  rw [(htickets.known t c hknown).2]
  exact (htickets.settled t r hr).2

/-- A worker takes the call out of the waiting job, and knows its ticket. -/
theorem agrees_worker {t : ℕ} {job : PlannedInvocation} (h : w.Agrees cancellable owned)
    (hjob : (t, job) ∈ w.jobs) :
    PipelineWorld.Agrees cancellable { w with jobs := w.jobs.erase (t, job) }
      ((job.share, {(t, job.invocation.callId)}) + owned) where
  ledger := h.ledger
  once := by
    intro key
    have honce := h.once key
    have hwait : w.waitingCalls key = job.share key +
        PipelineWorld.waitingCalls { w with jobs := w.jobs.erase (t, job) } key := by
      have hperm := (List.perm_cons_erase hjob).map (fun job => job.2.share key)
      exact hperm.sum_eq
    simp only [Prod.fst_add, Pi.add_apply]
    show w.callCount key + _ + _ ≤ 1
    omega
  tickets := by
    obtain ⟨callIdOf, htickets⟩ := h.tickets
    refine ⟨callIdOf, ?_, fun t' j hj => htickets.jobs t' j (List.mem_of_mem_erase hj),
      htickets.settled⟩
    intro t' c hc
    rw [Prod.snd_add, Multiset.mem_add, Multiset.mem_singleton] at hc
    rcases hc with hc | hc
    · obtain ⟨rfl, rfl⟩ := Prod.mk.inj hc
      exact htickets.jobs _ job hjob
    · exact htickets.known t' c hc

theorem PipelineWorld.Agrees.drop {m : Shares} (h : w.Agrees cancellable (m + owned)) :
    w.Agrees cancellable owned where
  ledger := h.ledger
  once := by
    intro key
    have honce := h.once key
    simp only [Prod.fst_add, Pi.add_apply] at honce
    omega
  tickets := by
    obtain ⟨callIdOf, htickets⟩ := h.tickets
    refine ⟨callIdOf, ?_, htickets.jobs, htickets.settled⟩
    intro t c hc
    exact htickets.known t c (Multiset.mem_add.mpr (.inr hc))

end steps

/-! ### The code of an invocation -/

/-- A call of the registry. -/
def IsCall : PipelineOp → Prop
  | .call _ => True
  | _ => False

/-- Anything else. -/
def NoCall (op : PipelineOp) : Prop := ¬ IsCall op

/-- The code makes at most so many calls. -/
abbrev CallsAtMost (n : ℕ) {α : Type} (p : PipelineM α) : Prop :=
  Program.Spends IsCall (fun _ _ => False) n p

section code

variable {α β : Type} {n : ℕ}

/-- After the code that may call, code that does not. -/
theorem spends_callFree {X : PipelineOp → Prop} {p : Program pipelineInterface α}
    {f : α → Program pipelineInterface β} (h : p.Spends X (fun _ _ => False) n)
    (hf : ∀ a, (f a).Spends X (fun _ _ => False) 0) : (p.bind f).Spends X (fun _ _ => False) n := by
  induction p generalizing n with
  | done a => exact (hf a).mono (Nat.zero_le n)
  | request op next ih =>
      rcases h with ⟨hop, h⟩ | ⟨hop, hpos, h⟩
      · exact .inl ⟨hop, fun r => ih r (h r)⟩
      · exact .inr ⟨hop, hpos, fun r => ⟨False.elim, fun hr => ih r ((h r).2 hr)⟩⟩

/-- Code that does not call, before code that may. -/
theorem callsAtMost_bind {p : PipelineM α} {f : α → PipelineM β} {ok : α → Prop}
    {err : PipelineError → Prop}
    (h : Demands (RunReplies True) NoCall ok err p)
    (hf : ∀ a, ok a → CallsAtMost n (f a)) : CallsAtMost n (p >>= f) := by
  refine spends_bind (Asks.fewer h (fun _ _ _ hnot => absurd trivial hnot)) ?_
  intro r hr
  cases r with
  | ok a => exact hf a hr
  | error e => trivial

/-- Writing to the ledger and returning is no call. -/
theorem callsAtMost_record
    {p : Program pipelineInterface (Except LedgerError OperationRecord)} (b : OperationRecord → β)
    (hp : p.Asks (RunReplies True) NoCall (fun _ => True)) :
    CallsAtMost n (ofLedger p >>= fun r => pure (b r)) := by
  have hledger : Demands (RunReplies True) NoCall (fun _ => True) (fun _ => True)
      (ofLedger p) := demands_ofLedger hp (fun _ => trivial)
  exact callsAtMost_bind hledger (fun _ _ => trivial)

theorem callsAtMost_callAndRecord (i : ToolInvocation) (operationId : String) :
    CallsAtMost 1 (callAndRecord i operationId) := by
  unfold callAndRecord
  refine callsAtMost_bind (demands_raiseIfDispatchCancelled (fun h => h)) ?_
  intro _ _
  refine .inr ⟨trivial, Nat.one_pos, ?_⟩
  intro (outcome : CallOutcome)
  refine ⟨False.elim, fun _ => ?_⟩
  cases outcome with
  | cancelled => trivial
  | outcomeUnknown message => exact callsAtMost_record _ (asks_ask (fun h => h))
  | raised message => exact callsAtMost_record _ (asks_ask (fun h => h))
  | returned result =>
      show CallsAtMost 0 (if result.Successful then _ else _)
      split
      · exact callsAtMost_record _ (asks_ask (fun h => h))
      · exact callsAtMost_record _ (asks_ask (fun h => h))

/-- Only the first invocation of an operation calls, and only once. -/
theorem callsAtMost_executeOne (p : PlannedInvocation) :
    CallsAtMost (if p.primary then 1 else 0) (executeOne p) := by
  unfold executeOne
  refine callsAtMost_bind (demands_raiseIfDispatchCancelled (fun h => h)) ?_
  intro _ _
  have hget : Demands (RunReplies True) NoCall (fun _ => True) (fun _ => True)
      (PipelineM.get p.record.operationId) := demands_ofLedger (asks_ask (fun h => h)) (fun _ => trivial)
  refine callsAtMost_bind hget ?_
  intro record _
  cases hp : p.primary with
  | false => trivial
  | true =>
      show CallsAtMost 1 (if record.state = .planned then _ else if record.state = .started then _ else _)
      split
      · refine callsAtMost_bind (demands_startOperation _ _ (fun h => h) (fun _ h => h)) ?_
        intro started _
        cases started with
        | none => exact callsAtMost_record _ (asks_ask (fun h => h))
        | some record => exact callsAtMost_callAndRecord p.invocation record.operationId
      · split
        · exact callsAtMost_record _ (asks_ask (fun h => h))
        · trivial

theorem callsAtMost_settled (p : PlannedInvocation) :
    CallsAtMost (if p.primary then 1 else 0) (settled p) := by
  refine spends_callFree (callsAtMost_executeOne p) ?_
  rintro (e | r)
  · cases e <;> trivial
  · trivial

end code

/-! ### The code of an execution -/

/-- From `w` on and owning `owned` the code keeps the agreement; a value it returns has `Q` and an exception
it raises has `E`. -/
def Accounts (cancellable : Prop) {α : Type} (Q : α → PipelineWorld → Shares → Prop)
    (E : PipelineError → Prop) (p : PipelineM α) (w : PipelineWorld) (owned : Shares) : Prop :=
  Program.Safe (oneExecutionRules cancellable).step (PipelineWorld.Agrees cancellable)
    PipelineWorld.Grows PipelineWorld.Grows (fun r w owned => match r with
      | .ok a => Q a w owned
      | .error e => E e) p w owned

section rules

variable {cancellable : Prop} {α β : Type} {Q : α → PipelineWorld → Shares → Prop}
  {Q' : β → PipelineWorld → Shares → Prop} {E : PipelineError → Prop} {w : PipelineWorld}
  {owned : Shares}

theorem accounts_pure {a : α} (h : Q a w owned) : Accounts cancellable Q E (pure a) w owned := h

theorem accounts_throw {e : PipelineError} (h : E e) :
    Accounts cancellable Q E (throw e : PipelineM α) w owned := h

theorem accounts_bind {p : PipelineM α} {f : α → PipelineM β} (h : Accounts cancellable Q E p w owned)
    (hf : ∀ a w' owned', w.Grows w' → Q a w' owned' → Accounts cancellable Q' E (f a) w' owned') :
    Accounts cancellable Q' E (p >>= f) w owned := by
  refine safe_bind (Safe.grown h (fun w => Grows.refl w.ledger) Grows.trans) ?_
  intro r w' owned' hr
  cases r with
  | ok a => exact hf a w' owned' hr.1 hr.2
  | error e => exact hr.2

theorem Accounts.weaken {Q₂ : α → PipelineWorld → Shares → Prop} {E₂ : PipelineError → Prop}
    {p : PipelineM α} (h : Accounts cancellable Q E p w owned)
    (hQ : ∀ a w owned, Q a w owned → Q₂ a w owned) (hE : ∀ e, E e → E₂ e) :
    Accounts cancellable Q₂ E₂ p w owned := by
  refine Safe.weaken h ?_
  intro r w owned hr
  cases r with
  | ok a => exact hQ a w owned hr
  | error e => exact hE e hr

/-- What the code does not need it still owns in the end. -/
theorem Accounts.frame {p : PipelineM α} (h : Accounts cancellable Q E p w owned) (f : Shares) :
    Accounts cancellable (fun a w' owned' => ∃ m, owned' = m + f ∧ Q a w' m) E p w (owned + f) := by
  refine Safe.weaken (Safe.frame h f) ?_
  rintro r w' owned' ⟨m, rfl, hr⟩
  cases r with
  | ok a => exact ⟨m, rfl, hr⟩
  | error e => exact hr

/-- Code may own more than it needs. -/
theorem Accounts.owning {P : α → Prop} {p : PipelineM α}
    (h : Accounts cancellable (fun a _ _ => P a) E p w owned) (more : Shares) :
    Accounts cancellable (fun a _ _ => P a) E p w (owned + more) := by
  refine (h.frame more).weaken ?_ (fun _ he => he)
  rintro a w' _ ⟨m, -, ha⟩
  exact ha

/-- Code that makes only the call of one invocation, at most `n` times. -/
theorem safe_of_calls {i : ToolInvocation} {n : ℕ} {post : β → Prop} {p : Program pipelineInterface β}
    (hasks : p.Asks (RunReplies cancellable) (OwnRequest i) post)
    (hcalls : p.Spends IsCall (fun _ _ => False) n) :
    Program.Safe (oneExecutionRules cancellable).step (PipelineWorld.Agrees cancellable)
      PipelineWorld.Grows PipelineWorld.Grows (fun r _ _ => post r) p w
        (n • Pi.single i.idempotencyKey 1, 0) := by
  induction p generalizing n w with
  | done b => exact hasks
  | request op next ih =>
      intro w₁ R r w₂ _ hinv hstep
      obtain ⟨hstep, hreply⟩ := hstep
      obtain ⟨hown, hnext⟩ := hasks
      rcases hcalls with ⟨hop, hcalls⟩ | ⟨hop, hpos, hcalls⟩
      · have hledger : LedgerOnly op := by
          cases op with
          | call j => exact hop trivial
          | submit job => exact hown
          | settle ticket r => exact hown
          | _ => trivial
        obtain ⟨L, m, rfl, hL, hgrows⟩ := ledgerOnly_step hledger hinv.ledger hstep
        exact ⟨_, hinv.withLedger hL, hgrows, ih r (hnext r hreply) (hcalls r)⟩
      · cases op with
        | call j =>
            obtain rfl : j = i := hown
            obtain rfl : w₂ = w₁.called j := hstep
            obtain ⟨m, rfl⟩ := Nat.exists_eq_add_one.mpr hpos
            have hsplit : (((m + 1) • Pi.single j.idempotencyKey 1, 0) : Shares) =
                (Pi.single j.idempotencyKey 1, 0) + (m • Pi.single j.idempotencyKey 1, 0) := by
              rw [Prod.mk_add_mk, add_zero, succ_nsmul']
            rw [hsplit, add_assoc] at hinv
            exact ⟨_, agrees_call hinv, Grows.refl _,
              ih r (hnext r hreply) ((hcalls r).2 (fun h => h))⟩
        | _ => exact hop.elim

/-- The code of one invocation. -/
theorem accounts_settled (p : PlannedInvocation) :
    Accounts cancellable (fun r _ _ => r.callId = p.invocation.callId)
      (fun e => e = .dispatchCancelled ∧ cancellable) (settled p) w (p.share, 0) := by
  have hshare : p.share = (if p.primary then 1 else 0) •
      (Pi.single p.invocation.idempotencyKey 1 : String → ℕ) := by
    unfold PlannedInvocation.share
    cases p.primary <;> simp
  rw [hshare]
  refine Safe.weaken (safe_of_calls (demands_settled p) (callsAtMost_settled p)) ?_
  intro r w owned hr
  cases r <;> exact hr

theorem plan_error {L : OperationLedger} {i : ToolInvocation} {fresh : String} {e : LedgerError}
    (h : L.plan i fresh = .error e) : e = .idempotencyConflict i.idempotencyKey := by
  unfold OperationLedger.plan at h
  split at h
  · split at h
    · exact (Except.error.inj h).symm
    · cases h
  · cases h

theorem accounts_plan (i : ToolInvocation) :
    Accounts cancellable (fun r w' owned' => owned' = owned ∧ LedgerOk w'.ledger w'.drawn ∧
        ∃ s, w'.ledger.records.lookup r.operationId = some s ∧ s.idempotencyKey = i.idempotencyKey)
      (fun e => e = .ledger (.idempotencyConflict i.idempotencyKey)) (PipelineM.plan i) w owned := by
  intro w₁ R r w₂ _ hinv hstep
  obtain ⟨hstep, -⟩ := hstep
  obtain ⟨L, m, rfl, hL, hgrows⟩ := @ledgerOnly_step _ _ (.plan i) r trivial hinv.ledger hstep
  refine ⟨owned, hinv.withLedger hL, hgrows, ?_⟩
  simp only [pipelineStep, PipelineWorld.returns] at hstep
  cases hout : w₁.ledger.plan i (newOperationId w₁.drawn) with
  | error e =>
      rw [hout] at hstep
      obtain ⟨rfl, -⟩ := Prod.mk.inj hstep
      exact accounts_throw (congrArg PipelineError.ledger (plan_error hout))
  | ok out =>
      obtain ⟨record, L'⟩ := out
      rw [hout] at hstep
      obtain ⟨rfl, hworld⟩ := Prod.mk.inj hstep
      obtain rfl : L = L' := congrArg PipelineWorld.ledger hworld
      refine accounts_pure ⟨rfl, hL, ?_⟩
      rcases plan_cases hout with ⟨rfl, hkey⟩ | ⟨-, -, hk, -, rfl⟩
      · obtain ⟨hlook, hk⟩ := hinv.ledger.byIdempotencyKey_iff.mp hkey
        exact ⟨record, hlook, hk⟩
      · exact ⟨record, Table.lookup_upsert_self _ _, hk⟩

/-! ### Planning -/

/-- The calls that are left for the keys that have not come up. -/
def unused (keys : List String) (key : String) : ℕ := if key ∈ keys then 0 else 1

/-- The calls of a list of planned invocations. -/
def shareOf (ps : List PlannedInvocation) : String → ℕ := (ps.map PlannedInvocation.share).sum

/-- The operations that have come up are those of these keys. -/
def SeenOk (L : OperationLedger) (seen keys : List String) : Prop :=
  (∀ id ∈ seen, ∃ r, L.records.lookup id = some r ∧ r.idempotencyKey ∈ keys) ∧
    ∀ key ∈ keys, ∃ id ∈ seen, ∃ r, L.records.lookup id = some r ∧ r.idempotencyKey = key

theorem SeenOk.grow {L L' : OperationLedger} {seen keys : List String} (h : SeenOk L seen keys)
    (hg : L.Grows L') : SeenOk L' seen keys := by
  constructor
  · intro id hid
    obtain ⟨r, hr, hk⟩ := h.1 id hid
    obtain ⟨r', hr', hk', -⟩ := hg id r hr
    exact ⟨r', hr', hk' ▸ hk⟩
  · intro key hkey
    obtain ⟨id, hid, r, hr, hk⟩ := h.2 key hkey
    obtain ⟨r', hr', hk', -⟩ := hg id r hr
    exact ⟨id, hid, r', hr', hk'.trans hk⟩

/-- An operation has come up when its key has. -/
theorem SeenOk.mem_iff {L : OperationLedger} {n : ℕ} {seen keys : List String} (h : SeenOk L seen keys)
    (hL : LedgerOk L n) {id : String} {r : OperationRecord} (hr : L.records.lookup id = some r) :
    id ∈ seen ↔ r.idempotencyKey ∈ keys := by
  constructor
  · intro hid
    obtain ⟨s, hs, hk⟩ := h.1 id hid
    rw [hr] at hs
    obtain rfl := Option.some.inj hs
    exact hk
  · intro hkey
    obtain ⟨id', hid', s, hs, hk⟩ := h.2 _ hkey
    have hnamed := hL.named id' s hs
    rw [hk, hL.named id r hr] at hnamed
    obtain rfl : id = id' := (Prod.mk.inj (Option.some.inj hnamed)).2
    exact hid'

theorem SeenOk.cons {L : OperationLedger} {seen keys : List String} (h : SeenOk L seen keys)
    {id : String} {r : OperationRecord} (hr : L.records.lookup id = some r) :
    SeenOk L (id :: seen) (r.idempotencyKey :: keys) := by
  constructor
  · intro id' hid'
    rcases List.mem_cons.mp hid' with rfl | hid'
    · exact ⟨r, hr, List.mem_cons_self⟩
    · obtain ⟨s, hs, hk⟩ := h.1 id' hid'
      exact ⟨s, hs, List.mem_cons_of_mem _ hk⟩
  · intro key hkey
    rcases List.mem_cons.mp hkey with rfl | hkey
    · exact ⟨id, List.mem_cons_self, r, hr, rfl⟩
    · obtain ⟨id', hid', hs⟩ := h.2 key hkey
      exact ⟨id', List.mem_cons_of_mem _ hid', hs⟩

/-- The primary invocation of a key takes its call. -/
theorem unused_cons {keys : List String} {p : PlannedInvocation}
    (hp : p.primary = true ↔ p.invocation.idempotencyKey ∉ keys) :
    p.share + unused (p.invocation.idempotencyKey :: keys) = unused keys := by
  funext key
  unfold PlannedInvocation.share unused
  by_cases hmem : p.invocation.idempotencyKey ∈ keys
  · have hprimary : p.primary = false := by simpa [hmem] using hp
    rw [hprimary]
    by_cases hkey : key = p.invocation.idempotencyKey
    · subst hkey
      simp [hmem]
    · simp [hkey]
  · rw [hp.mpr hmem]
    by_cases hkey : key = p.invocation.idempotencyKey
    · subst hkey
      simp [hmem]
    · simp [hkey]

/-- Planning leaves one call for each key to the first invocation of its operation. -/
theorem accounts_planAll {seen keys : List String} (is : List ToolInvocation)
    (hseen : SeenOk w.ledger seen keys) :
    Accounts cancellable (fun ps _ owned' => owned' = 0 ∧ ps.map PlannedInvocation.invocation = is ∧
        ∃ rest, shareOf ps + rest = unused keys)
      (fun e => ∃ i ∈ is, e = .ledger (.idempotencyConflict i.idempotencyKey)) (planAll seen is) w 0 := by
  induction is generalizing seen keys w with
  | nil => exact accounts_pure ⟨rfl, rfl, unused keys, zero_add _⟩
  | cons i is ih =>
      unfold planAll
      refine accounts_bind ((accounts_plan i).weaken (fun _ _ _ h => h)
        (fun e he => ⟨i, List.mem_cons_self, he⟩)) ?_
      rintro record w₁ owned₁ hg₁ ⟨rfl, hL₁, s, hs, hk⟩
      have hseen₁ := hseen.grow hg₁
      have hrest := ih (hseen₁.cons hs)
      refine accounts_bind (hrest.weaken (fun _ _ _ h => h) (by
        rintro e ⟨j, hj, he⟩
        exact ⟨j, List.mem_cons_of_mem i hj, he⟩)) ?_
      rintro ps w₂ owned₂ - ⟨rfl, rfl, rest, hsum⟩
      refine accounts_pure ⟨rfl, rfl, rest, ?_⟩
      rw [hk] at hsum
      have hprimary : decide (record.operationId ∉ seen) = true ↔ i.idempotencyKey ∉ keys := by
        rw [decide_eq_true_iff, hseen₁.mem_iff hL₁ hs, hk]
      have hunused := @unused_cons keys ⟨i, record, decide (record.operationId ∉ seen)⟩ hprimary
      rw [← hunused, ← hsum, ← add_assoc]
      rfl

/-! ### Batches -/

/-- A result is there for each call id, in order. -/
def ResultsOf (callIds : List String) (results : List SettledToolResult) : Prop :=
  results.map SettledToolResult.callId = callIds

/-- A cancellation. -/
abbrev Stopped (cancellable : Prop) (e : PipelineError) : Prop := e = .dispatchCancelled ∧ cancellable

theorem shares_cons (p : PlannedInvocation) (ps : List PlannedInvocation) :
    ((shareOf (p :: ps), 0) : Shares) = (p.share, 0) + (shareOf ps, 0) := by
  rw [Prod.mk_add_mk, add_zero]
  rfl

theorem shares_append (ps qs : List PlannedInvocation) :
    ((shareOf (ps ++ qs), 0) : Shares) = (shareOf ps, 0) + (shareOf qs, 0) := by
  rw [Prod.mk_add_mk, add_zero, shareOf, List.map_append, List.sum_append]
  rfl

theorem accounts_settleAll (ps : List PlannedInvocation) :
    Accounts cancellable (fun rs _ _ => ResultsOf (ps.map (fun p => p.invocation.callId)) rs)
      (Stopped cancellable) (settleAll ps) w (shareOf ps, 0) := by
  induction ps generalizing w with
  | nil => exact accounts_pure rfl
  | cons p ps ih =>
      unfold settleAll
      rw [shares_cons]
      refine accounts_bind ((accounts_settled p).frame _) ?_
      rintro r w₁ owned₁ - ⟨m, rfl, hr⟩
      rw [add_comm]
      refine accounts_bind ((@ih w₁).owning m) ?_
      intro rs w₂ owned₂ _ hrs
      refine accounts_pure ?_
      unfold ResultsOf at hrs ⊢
      rw [List.map_cons, List.map_cons, hr, hrs]

/-- Submitting the jobs hands over their calls and earns their tickets. -/
theorem accounts_submitAll (ps : List PlannedInvocation) :
    Accounts cancellable (fun tickets _ owned' => ∃ pairs : List (ℕ × String),
        tickets = pairs.map Prod.fst ∧ pairs.map Prod.snd = ps.map (fun p => p.invocation.callId) ∧
          owned' = (0, (pairs : Multiset (ℕ × String))))
      (Stopped cancellable) (submitAll ps) w (shareOf ps, 0) := by
  induction ps generalizing w with
  | nil => exact accounts_pure ⟨[], rfl, rfl, rfl⟩
  | cons p ps ih =>
      unfold submitAll
      intro w₁ R ticket w₂ _ hinv hstep
      obtain ⟨⟨rfl, rfl⟩, -⟩ := hstep
      rw [shares_cons, add_assoc] at hinv
      have hnext := agrees_submit hinv
      rw [← add_assoc] at hnext
      refine ⟨_, hnext, Grows.refl _, ?_⟩
      rw [add_comm]
      refine accounts_bind ((@ih (w₁.submitted p)).frame _) ?_
      rintro tickets w₃ owned₃ - ⟨m, rfl, pairs, rfl, hpairs, rfl⟩
      refine accounts_pure ⟨(w₁.nextTicket, p.invocation.callId) :: pairs, rfl, ?_, ?_⟩
      · rw [List.map_cons, List.map_cons, hpairs]
      · rw [Prod.mk_add_mk, add_zero, ← Multiset.cons_coe, ← Multiset.singleton_add, add_comm]

/-- Waiting for known tickets brings the results of their jobs. -/
theorem accounts_awaitAll {pairs : List (ℕ × String)} (hknown : ∀ x ∈ pairs, x ∈ owned.2) :
    Accounts cancellable (fun rs _ _ => ResultsOf (pairs.map Prod.snd) rs) (Stopped cancellable)
      (awaitAll (pairs.map Prod.fst)) w owned := by
  induction pairs generalizing w with
  | nil => exact accounts_pure rfl
  | cons x pairs ih =>
      obtain ⟨ticket, callId⟩ := x
      intro w₁ R r w₂ _ hinv hstep
      obtain ⟨⟨hr, rfl⟩, -⟩ := hstep
      have hmem : (ticket, callId) ∈ (owned + R).2 :=
        Multiset.mem_add.mpr (.inl (hknown _ List.mem_cons_self))
      have hfits := hinv.fits hmem hr
      refine ⟨owned, hinv, Grows.refl _, ?_⟩
      cases r with
      | error e => exact hfits
      | ok r =>
          refine accounts_bind (@ih w₂ (fun y hy => hknown y (List.mem_cons_of_mem _ hy))) ?_
          intro rs w₃ owned₃ _ hrs
          refine accounts_pure ?_
          have hcall : r.callId = callId := hfits
          unfold ResultsOf at hrs ⊢
          rw [List.map_cons, List.map_cons, hcall, hrs]

theorem accounts_executeAllSettled (concurrent : Bool) (ps : List PlannedInvocation) :
    Accounts cancellable (fun rs _ _ => ResultsOf (ps.map (fun p => p.invocation.callId)) rs)
      (Stopped cancellable) (executeAllSettled concurrent ps) w (shareOf ps, 0) := by
  unfold executeAllSettled
  split
  · refine accounts_bind (accounts_submitAll ps) ?_
    rintro tickets w₁ owned₁ - ⟨pairs, rfl, hpairs, rfl⟩
    rw [← hpairs]
    exact accounts_awaitAll (fun x hx => hx)
  · exact accounts_settleAll ps

theorem accounts_runBatches (planned : List PlannedInvocation) (batches : List ExecutionBatch) :
    Accounts cancellable (fun rss _ _ => ResultsOf ((plannedOf planned
        (batches.flatMap ExecutionBatch.calls)).map (fun p => p.invocation.callId)) rss.flatten)
      (Stopped cancellable) (runBatches planned batches) w
        (shareOf (plannedOf planned (batches.flatMap ExecutionBatch.calls)), 0) := by
  induction batches generalizing w with
  | nil => exact accounts_pure rfl
  | cons batch batches ih =>
      unfold runBatches
      have hcalls : plannedOf planned ((batch :: batches).flatMap ExecutionBatch.calls) =
          plannedOf planned batch.calls ++ plannedOf planned (batches.flatMap ExecutionBatch.calls) := by
        rw [List.flatMap_cons, plannedOf, List.filterMap_append]
        rfl
      rw [hcalls, shares_append]
      refine accounts_bind ((accounts_executeAllSettled batch.concurrent _).frame _) ?_
      rintro rs w₁ owned₁ - ⟨m, rfl, hrs⟩
      rw [add_comm]
      refine accounts_bind ((@ih w₁).owning m) ?_
      intro rss w₂ owned₂ _ hrss
      refine accounts_pure ?_
      unfold ResultsOf at hrs hrss ⊢
      rw [List.flatten_cons, List.map_append, List.map_append, hrs, hrss]

end rules

/-! ### How an execution ends -/

/-- `PipelineExecution.results`. -/
def pipelineResults (batches : List (List SettledToolResult)) : List SettledToolResult := batches.flatten

/-- How an execution ends: with a result for each request in order, or before the first call, or cancelled. -/
inductive ExecutionEnds (cancellable : Prop) (prepare : ToolRequest → Except PipelineError ToolInvocation)
    (requests : List ToolRequest) : Except PipelineError (List (List SettledToolResult)) → Prop
  | returned {batches : List (List SettledToolResult)}
      (h : ResultsOf (requests.map ToolRequest.callId) (pipelineResults batches)) :
      ExecutionEnds cancellable prepare requests (.ok batches)
  | refused {request : ToolRequest} {e : PipelineError} (hmem : request ∈ requests)
      (h : prepare request = .error e) : ExecutionEnds cancellable prepare requests (.error e)
  | repeated (h : ¬ (requests.map ToolRequest.callId).Nodup) : ExecutionEnds cancellable prepare requests
      (.error (.validation "call_id values must be unique within one pipeline execution"))
  | conflict {request : ToolRequest} {i : ToolInvocation} (hmem : request ∈ requests)
      (h : prepare request = .ok i) :
      ExecutionEnds cancellable prepare requests (.error (.ledger (.idempotencyConflict i.idempotencyKey)))
  | cancelled (h : cancellable) : ExecutionEnds cancellable prepare requests (.error .dispatchCancelled)

section runs

variable {cancellable : Prop} {prepare : ToolRequest → Except PipelineError ToolInvocation}
  {requests : List ToolRequest}

theorem map_callId_of_mapM_ok (hid : ∀ request i, prepare request = .ok i → i.callId = request.callId)
    {invocations : List ToolInvocation} (h : requests.mapM prepare = .ok invocations) :
    invocations.map ToolInvocation.callId = requests.map ToolRequest.callId := by
  induction requests generalizing invocations with
  | nil =>
      obtain rfl := Except.ok.inj h
      rfl
  | cons request requests ih =>
      rw [List.mapM_cons] at h
      obtain ⟨i, hi, h⟩ := bind_ok_iff.mp h
      obtain ⟨is, his, h⟩ := bind_ok_iff.mp h
      obtain rfl := Except.ok.inj h
      rw [List.map_cons, List.map_cons, ih his, hid request i hi]

/-- The code of an execution, with one call for each key. -/
theorem accounts_execute (hid : ∀ request i, prepare request = .ok i → i.callId = request.callId)
    (w : PipelineWorld) :
    Accounts cancellable (fun batches _ _ => ExecutionEnds cancellable prepare requests (.ok batches))
      (fun e => ExecutionEnds cancellable prepare requests (.error e)) (execute prepare requests) w
        (unused [], 0) := by
  unfold execute
  split
  next e he =>
    obtain ⟨request, hmem, h⟩ := exists_of_mapM_error he
    exact accounts_throw (.refused hmem h)
  next invocations hinvocations =>
    have hcallIds := map_callId_of_mapM_ok hid hinvocations
    split
    next hnot =>
      rw [hcallIds] at hnot
      exact accounts_throw (.repeated hnot)
    next hnodup =>
      have hseen : SeenOk w.ledger [] [] := ⟨by simp, by simp⟩
      have hplan := ((@accounts_planAll cancellable w [] [] invocations hseen).frame (unused [], 0))
      rw [zero_add] at hplan
      refine accounts_bind (hplan.weaken (fun _ _ _ h => h) ?_) ?_
      · rintro e ⟨i, hi, rfl⟩
        obtain ⟨request, hmem, h⟩ := exists_of_mapM_ok hinvocations hi
        exact .conflict hmem h
      · rintro planned w₁ owned₁ - ⟨m, rfl, rfl, rfl, rest, hsum⟩
        have hself : plannedOf planned (planBatches [] []
            (planned.map PlannedInvocation.invocation) |>.flatMap ExecutionBatch.calls) = planned := by
          rw [calls_planBatches]
          refine plannedOf_self ?_
          rw [not_not, List.map_map] at hnodup
          exact hnodup
        have hrun := @accounts_runBatches cancellable w₁ planned
          (planBatches [] [] (planned.map PlannedInvocation.invocation))
        rw [hself] at hrun
        have hsplit : ((unused [], 0) : Shares) = (shareOf planned, 0) + (rest, 0) := by
          rw [Prod.mk_add_mk, add_zero, hsum]
        rw [zero_add, hsplit]
        refine (hrun.owning (rest, 0)).weaken ?_ ?_
        · intro batches _ _ hresults
          refine .returned ?_
          rw [List.map_map] at hcallIds
          rw [← hcallIds]
          exact hresults
        · rintro e ⟨rfl, hcancel⟩
          exact .cancelled hcancel

/-- The code of a worker, with the call of its job and its ticket. -/
theorem safe_worker {ticket : ℕ} (job : PlannedInvocation) (w : PipelineWorld) :
    Program.Safe (oneExecutionRules cancellable).step (PipelineWorld.Agrees cancellable)
      PipelineWorld.Grows PipelineWorld.Grows (fun outcome _ _ => outcome = none)
      (workerJob ticket job).worker w (job.share, {(ticket, job.invocation.callId)}) := by
  have hsplit : ((job.share, {(ticket, job.invocation.callId)}) : Shares) =
      (job.share, 0) + (0, {(ticket, job.invocation.callId)}) := by
    rw [Prod.mk_add_mk, add_zero, zero_add]
  rw [hsplit]
  refine safe_bind (safe_bind (Safe.frame (accounts_settled job) _) ?_)
    (fun _ _ _ (_ : True) => safe_done rfl)
  rintro r w₁ _ ⟨m, rfl, hr⟩ w₂ R _ w₃ - hinv hstep
  obtain ⟨hstep, -⟩ := hstep
  have hfits : FitsCall cancellable job.invocation.callId r := by
    cases r <;> exact hr
  obtain rfl : w₃ = { w₂ with settled := (ticket, r) :: w₂.settled } := hstep
  refine ⟨_, agrees_settle hinv ?_ hfits, Grows.refl _, trivial⟩
  simp

theorem oneExecution_sound :
    Pool.Sound (oneExecutionRules cancellable) (PipelineWorld.Agrees cancellable) PipelineWorld.Grows
      (fun outcome _ => ∀ ending, outcome = some ending → ExecutionEnds cancellable prepare requests ending) where
  refl := by
    intro w
    exact Grows.refl _
  trans := Grows.trans
  stable := by
    intro outcome w w' _ h
    exact h
  drop := by
    intro w m m' h
    exact h.drop
  starts := by
    intro w p w' owned h hs
    cases hs with
    | @worker ticket job hjob =>
        refine ⟨Grows.refl _, _, agrees_worker h hjob, (safe_worker job _).weaken ?_⟩
        rintro outcome _ _ rfl ending hending
        cases hending
  env := by
    rintro w w' owned h ⟨L, n, hmove, rfl⟩
    obtain ⟨hL, hgrows⟩ := hmove.grows h.ledger
    exact ⟨h.withLedger hL, hgrows⟩

/-- **Every run of an execution**: it ends as it should, with at most one call for each key. -/
theorem ends_of_reachable (hid : ∀ request i, prepare request = .ok i → i.callId = request.callId)
    {L : OperationLedger} {n : ℕ} (hL : LedgerOk L n)
    {P : Pool pipelineInterface PipelineOutcome PipelineWorld}
    (h : Pool.Reachable (oneExecutionRules cancellable) (oneExecutionStart prepare requests L n) P) :
    (∀ ending, some ending ∈ P.ended → ExecutionEnds cancellable prepare requests ending) ∧
      ∀ key, P.state.callCount key ≤ 1 := by
  have hstart : Pool.Ok (oneExecutionRules cancellable) (PipelineWorld.Agrees cancellable)
      PipelineWorld.Grows
      (fun outcome _ => ∀ ending, outcome = some ending → ExecutionEnds cancellable prepare requests ending)
      (oneExecutionStart prepare requests L n) [(unused [], 0)] := by
    refine ⟨⟨hL, ?_, fun _ => "", ?_, ?_, ?_⟩, .cons ?_ .nil, ?_⟩
    · intro key
      simp [PipelineWorld.callCount, PipelineWorld.waitingCalls, PipelineWorld.start, unused,
        oneExecutionStart]
    · intro t c hc
      simp at hc
    · intro t job hjob
      cases hjob
    · intro t r hr
      cases hr
    · refine safe_bind (accounts_execute hid _) ?_
      intro r w owned hr ending hending
      obtain rfl := Option.some.inj hending
      cases r <;> exact hr
    · intro outcome ho
      cases ho
  obtain ⟨owned, hok⟩ := Pool.ok_of_reachable oneExecution_sound hstart h
  refine ⟨fun ending hending => hok.ended _ hending ending rfl, ?_⟩
  intro key
  have honce := hok.invariant.once key
  omega

end runs

end CrazyHarness
