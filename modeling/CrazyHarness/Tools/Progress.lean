import CrazyHarness.Lib.Progress
import CrazyHarness.Tools.Results

/-! # An execution comes to its end

The thread of an execution waits only for tickets of its own jobs, and each of these is settled, or waits for
a worker, or has a worker that will settle it (`Promised`).  So no run in which nobody dies is stuck:
however the registry, the callback and the ledger reply, it can be led on to where the execution has ended
(`going_ends`).

`execute_batched` is what batching means for an execution of prepared requests. -/

namespace CrazyHarness

open Lib Program OperationLedger PipelineM

/-! ### Waiting -/

/-- The tickets that are known after a reply. -/
def ticketsAfter : (op : PipelineOp) → pipelineInterface.Reply op → List ℕ → List ℕ
  | .submit _, ticket, known => ticket :: known
  | _, _, known => known

/-- The program waits for tickets that it knows only, and ends with `post`. -/
def WaitsFor {α : Type} (post : List ℕ → α → Prop) : List ℕ → Program pipelineInterface α → Prop
  | known, .done a => post known a
  | known, .request op next => (∀ t, op = .await t → t ∈ known) ∧
      ∀ r, WaitsFor post (ticketsAfter op r known) (next r)

/-- Nothing to do with tickets. -/
def NoTicket : PipelineOp → Prop
  | .submit _ | .await _ | .settle _ _ => False
  | _ => True

section waiting

variable {α β : Type} {post mid : List ℕ → α → Prop} {goal : List ℕ → β → Prop} {known : List ℕ}

theorem waits_bind {p : Program pipelineInterface α} {f : α → Program pipelineInterface β}
    (h : WaitsFor mid known p) (hf : ∀ known a, mid known a → WaitsFor goal known (f a)) :
    WaitsFor goal known (p.bind f) := by
  induction p generalizing known with
  | done a => exact hf known a h
  | request op next ih => exact ⟨h.1, fun r => ih r (h.2 r)⟩

/-- The same for code with exceptions. -/
theorem waits_then {mid : List ℕ → Except PipelineError α → Prop}
    {goal : List ℕ → Except PipelineError β → Prop} {p : PipelineM α} {f : α → PipelineM β}
    (h : WaitsFor mid known p) (hf : ∀ known a, mid known (.ok a) → WaitsFor goal known (f a))
    (herr : ∀ known e, mid known (.error e) → goal known (.error e)) :
    WaitsFor goal known (p >>= f : PipelineM β) := by
  refine waits_bind h ?_
  rintro known' (e | a) hmid
  · exact herr known' e hmid
  · exact hf known' a hmid

theorem waits_weaken {p : Program pipelineInterface α} (h : WaitsFor mid known p) :
    WaitsFor (fun _ _ => True) known p := by
  induction p generalizing known with
  | done a => trivial
  | request op next ih => exact ⟨h.1, fun r => ih r (h.2 r)⟩

/-- Code that has nothing to do with tickets. -/
theorem waits_of_asks {p : Program pipelineInterface α} {ok : α → Prop}
    (h : p.Asks (RunReplies True) NoTicket ok) : WaitsFor (fun known' a => known' = known ∧ ok a) known p := by
  induction p with
  | done a => exact ⟨rfl, h⟩
  | request op next ih =>
      obtain ⟨hop, hnext⟩ := h
      have hsame : ∀ r, ticketsAfter op r known = known := by
        intro r
        cases op <;> first | rfl | exact hop.elim
      refine ⟨?_, ?_⟩
      · rintro t rfl
        exact hop.elim
      · intro r
        rw [hsame r]
        exact ih r (hnext r (fun hnot => absurd trivial hnot))

theorem noTicket_own {i : ToolInvocation} (op : PipelineOp) (h : OwnRequest i op) : NoTicket op := by
  cases op <;> trivial

theorem asks_settleAll (ps : List PlannedInvocation) :
    Demands (RunReplies True) NoTicket (fun _ => True) (fun _ => True) (settleAll ps) := by
  induction ps with
  | nil => exact demands_pure trivial
  | cons p ps ih =>
      have hp : Demands (RunReplies True) NoTicket (fun _ => True) (fun _ => True) (settled p) :=
        ((demands_settled p).mono noTicket_own).weaken (fun _ _ => trivial) (fun _ _ => trivial)
      exact demands_bind hp (fun _ _ => demands_bind ih (fun _ _ => demands_pure trivial))

/-- The tickets of submitted jobs are known. -/
theorem waits_submitAll (ps : List PlannedInvocation) :
    WaitsFor (fun known' r => ∃ tickets, r = .ok tickets ∧ known ⊆ known' ∧ tickets ⊆ known') known
      (submitAll ps) := by
  induction ps generalizing known with
  | nil => exact ⟨[], rfl, List.Subset.refl _, List.nil_subset _⟩
  | cons p ps ih =>
      unfold submitAll
      have hsubmit : WaitsFor (fun known' r => ∃ ticket, r = .ok ticket ∧ known' = ticket :: known) known
          ((ask (.submit p)).bind (fun (ticket : ℕ) => .done (.ok ticket)) : PipelineM ℕ) := by
        refine ⟨?_, fun ticket => ⟨ticket, rfl, rfl⟩⟩
        intro t ht
        cases ht
      refine waits_then hsubmit ?_ ?_
      · rintro _ ticket ⟨_, hticket, rfl⟩
        obtain rfl := Except.ok.inj hticket
        refine waits_then ih ?_ ?_
        · rintro known' rest ⟨tickets, hrest, hknown, htickets⟩
          obtain rfl := Except.ok.inj hrest
          refine ⟨ticket :: rest, rfl, List.Subset.trans (List.subset_cons_self _ _) hknown, ?_⟩
          exact List.cons_subset.mpr ⟨hknown List.mem_cons_self, htickets⟩
        · rintro known' e ⟨tickets, he, -⟩
          cases he
      · rintro known' e ⟨ticket, he, -⟩
        cases he

theorem waits_awaitAll {tickets : List ℕ} (h : tickets ⊆ known) :
    WaitsFor (fun _ _ => True) known (awaitAll tickets) := by
  induction tickets with
  | nil => trivial
  | cons ticket tickets ih =>
      obtain ⟨hticket, htickets⟩ := List.cons_subset.mp h
      unfold awaitAll
      have hawait : WaitsFor (fun known' _ => known' = known) known
          (ask (.await ticket) : PipelineM SettledToolResult) := by
        refine ⟨?_, fun _ => rfl⟩
        intro t ht
        cases ht
        exact hticket
      refine waits_then hawait ?_ (fun _ _ _ => trivial)
      rintro _ r rfl
      exact waits_then (ih htickets) (fun _ _ _ => trivial) (fun _ _ _ => trivial)

theorem waits_executeAllSettled (concurrent : Bool) (ps : List PlannedInvocation) :
    WaitsFor (fun _ _ => True) known (executeAllSettled concurrent ps) := by
  unfold executeAllSettled
  split
  · refine waits_then (waits_submitAll ps) ?_ (fun _ _ _ => trivial)
    rintro known' _ ⟨tickets, hok, -, htickets⟩
    obtain rfl := Except.ok.inj hok
    exact waits_awaitAll htickets
  · exact waits_weaken (waits_of_asks (asks_settleAll ps))

theorem waits_runBatches (planned : List PlannedInvocation) (batches : List ExecutionBatch) :
    WaitsFor (fun _ _ => True) known (runBatches planned batches) := by
  induction batches generalizing known with
  | nil => trivial
  | cons batch batches ih =>
      unfold runBatches
      refine waits_then (waits_executeAllSettled batch.concurrent _) ?_ (fun _ _ _ => trivial)
      intro known' rs _
      exact waits_then ih (fun _ _ _ => trivial) (fun _ _ _ => trivial)

/-- An execution waits for its own jobs only. -/
theorem waits_execution (prepare : ToolRequest → Except PipelineError ToolInvocation)
    (requests : List ToolRequest) :
    WaitsFor (fun _ outcome => ∃ ending, outcome = some ending) known
      (execute prepare requests).execution := by
  have h : WaitsFor (fun _ _ => True) known (execute prepare requests) := by
    unfold execute
    split
    next => trivial
    next invocations _ =>
      split
      next => trivial
      next =>
        refine waits_then (waits_of_asks (demands_planAll [] invocations (fun _ => trivial))) ?_
          (fun _ _ _ => trivial)
        intro known' planned _
        exact waits_runBatches planned _
  exact waits_bind h (fun _ r _ => ⟨r, rfl⟩)

end waiting

/-! ### What is owed -/

/-- The program will settle the ticket, and waits for nothing before. -/
def WillSettle (t : ℕ) {α : Type} : Program pipelineInterface α → Prop
  | .done _ => False
  | .request op next => (∃ r, op = .settle t r) ∨ ((∀ t', op ≠ .await t') ∧ ∀ r, WillSettle t (next r))

theorem willSettle_bind {α β : Type} {t : ℕ} {p : Program pipelineInterface α}
    {f : α → Program pipelineInterface β} {ok : α → Prop} (h : p.Asks (fun _ _ => True) NoTicket ok)
    (hf : ∀ a, WillSettle t (f a)) : WillSettle t (p.bind f) := by
  induction p with
  | done a => exact hf a
  | request op next ih =>
      refine .inr ⟨?_, fun r => ih r (h.2 r trivial)⟩
      rintro t' rfl
      exact h.1

theorem willSettle_then {α β : Type} {t : ℕ} {p : Program pipelineInterface α}
    {f : α → Program pipelineInterface β} (h : WillSettle t p) : WillSettle t (p.bind f) := by
  induction p with
  | done a => exact h.elim
  | request op next ih => exact h.imp id (fun h => ⟨h.1, fun r => ih r (h.2 r)⟩)

theorem willSettle_worker (ticket : ℕ) (job : PlannedInvocation) :
    WillSettle ticket (workerJob ticket job).worker := by
  have hdemands := @demands_settled True job
  have hsettled := @Asks.fewer _ _ _ _ _ (fun _ _ => True) _ (hdemands.mono noTicket_own)
    (fun _ _ _ hnot => absurd trivial hnot)
  exact willSettle_then (willSettle_bind hsettled (fun r => .inl ⟨r, rfl⟩))

/-- The ticket is settled, or its job waits for a worker, or a worker will settle it. -/
def Promised (w : PipelineWorld) (threads : List (Program pipelineInterface PipelineOutcome)) (t : ℕ) :
    Prop :=
  (∃ r, (t, r) ∈ w.settled) ∨ (∃ job, (t, job) ∈ w.jobs) ∨ ∃ q ∈ threads, WillSettle t q

section promises

variable {w w' : PipelineWorld} {l₁ l₂ : List (Program pipelineInterface PipelineOutcome)} {t : ℕ}
  {op : PipelineOp} {r : pipelineInterface.Reply op}
  {next : pipelineInterface.Reply op → Program pipelineInterface PipelineOutcome}

/-- No request takes back a result or a job. -/
theorem kept_step (hs : pipelineStep w op r w') : w.settled ⊆ w'.settled ∧ w.jobs ⊆ w'.jobs := by
  have hreturns : ∀ {n : ℕ} {r : Except LedgerError OperationRecord}
      {out : Except LedgerError (OperationRecord × OperationLedger)},
      (r, w') = PipelineWorld.returns { w with drawn := n } out →
        w.settled ⊆ w'.settled ∧ w.jobs ⊆ w'.jobs := by
    intro n r out hs
    obtain ⟨L, rfl, -⟩ := ledger_returns hs
    exact ⟨List.Subset.refl _, List.Subset.refl _⟩
  have hsame : w' = w → w.settled ⊆ w'.settled ∧ w.jobs ⊆ w'.jobs := by
    rintro rfl
    exact ⟨List.Subset.refl _, List.Subset.refl _⟩
  cases op with
  | plan i => exact hreturns hs
  | start operationId => exact hreturns hs
  | succeed operationId result => exact hreturns hs
  | fail operationId error result => exact hreturns hs
  | markUnknown operationId reason => exact hreturns hs
  | get operationId => exact hsame hs.2
  | «await» ticket => exact hsame hs.2
  | cancelled => exact hsame hs
  | onStarted r i => exact hsame hs
  | call i =>
      obtain rfl : w' = w.called i := hs
      exact ⟨List.Subset.refl _, List.Subset.refl _⟩
  | submit job =>
      obtain ⟨-, rfl⟩ := hs
      exact ⟨List.Subset.refl _, List.subset_cons_self _ _⟩
  | settle ticket result =>
      obtain rfl : w' = { w with settled := (ticket, result) :: w.settled } := hs
      exact ⟨List.subset_cons_self _ _, List.Subset.refl _⟩

/-- Whose request it was still owes what it owed, or has settled it. -/
theorem promised_act (hs : pipelineStep w op r w') (h : Promised w (l₁ ++ .request op next :: l₂) t) :
    Promised w' (l₁ ++ next r :: l₂) t := by
  obtain ⟨hsettled, hjobs⟩ := kept_step hs
  rcases h with ⟨s, hs'⟩ | ⟨job, hjob⟩ | ⟨q, hq, hwill⟩
  · exact .inl ⟨s, hsettled hs'⟩
  · exact .inr (.inl ⟨job, hjobs hjob⟩)
  · rcases List.mem_append.mp hq with hq | hq
    · exact .inr (.inr ⟨q, List.mem_append_left _ hq, hwill⟩)
    · rcases List.mem_cons.mp hq with rfl | hq
      · rcases hwill with ⟨s, rfl⟩ | ⟨-, hwill⟩
        · obtain rfl : w' = { w with settled := (t, s) :: w.settled } := hs
          exact .inl ⟨s, List.mem_cons_self⟩
        · exact .inr (.inr ⟨next r, List.mem_append_right _ List.mem_cons_self, hwill r⟩)
      · exact .inr (.inr ⟨q, List.mem_append_right _ (List.mem_cons_of_mem _ hq), hwill⟩)

/-- A worker that has come to its end owed nothing. -/
theorem promised_finish {outcome : PipelineOutcome} (h : Promised w (l₁ ++ .done outcome :: l₂) t) :
    Promised w (l₁ ++ l₂) t := by
  rcases h with hsettled | hjob | ⟨q, hq, hwill⟩
  · exact .inl hsettled
  · exact .inr (.inl hjob)
  · rcases List.mem_append.mp hq with hq | hq
    · exact .inr (.inr ⟨q, List.mem_append_left _ hq, hwill⟩)
    · rcases List.mem_cons.mp hq with rfl | hq
      · exact hwill.elim
      · exact .inr (.inr ⟨q, List.mem_append_right _ hq, hwill⟩)

/-- A worker takes a job over. -/
theorem promised_start {p : Program pipelineInterface PipelineOutcome} (hs : JobStarts w p w')
    {threads : List (Program pipelineInterface PipelineOutcome)} (h : Promised w threads t) :
    Promised w' (p :: threads) t := by
  cases hs with
  | @worker ticket job hmem =>
      rcases h with hsettled | ⟨other, hother⟩ | ⟨q, hq, hwill⟩
      · exact .inl hsettled
      · by_cases hsame : (t, other) = (ticket, job)
        · obtain ⟨rfl, rfl⟩ := Prod.mk.inj hsame
          exact .inr (.inr ⟨_, List.mem_cons_self, willSettle_worker t other⟩)
        · exact .inr (.inl ⟨other, (List.mem_erase_of_ne hsame).mpr hother⟩)
      · exact .inr (.inr ⟨q, List.mem_cons_of_mem _ hq, hwill⟩)

end promises

/-! ### The thread of the execution among the others -/

/-- The thread of the execution has its place, and what it may wait for is promised. -/
structure Going (P : Pool pipelineInterface PipelineOutcome PipelineWorld)
    (before : List (Program pipelineInterface PipelineOutcome))
    (p : Program pipelineInterface PipelineOutcome)
    (after : List (Program pipelineInterface PipelineOutcome)) (known : List ℕ) : Prop where
  threads : P.threads = before ++ p :: after
  waits : WaitsFor (fun _ outcome => ∃ ending, outcome = some ending) known p
  promised : ∀ t ∈ known, Promised P.state (before ++ after) t

/-- The execution has ended or goes on. -/
def StillGoing (P : Pool pipelineInterface PipelineOutcome PipelineWorld) : Prop :=
  (∃ ending, some ending ∈ P.ended) ∨ ∃ before p after known, Going P before p after known

section going

variable {cancellable : Prop} {P P' : Pool pipelineInterface PipelineOutcome PipelineWorld}
  {before after : List (Program pipelineInterface PipelineOutcome)}
  {p : Program pipelineInterface PipelineOutcome} {known : List ℕ}

/-- What the thread of the execution asked for, it asked for in its place. -/
theorem Going.act {op : PipelineOp} {next : pipelineInterface.Reply op →
      Program pipelineInterface PipelineOutcome} {r : pipelineInterface.Reply op}
    (h : Going P before (.request op next) after known) (hs : pipelineStep P.state op r P'.state)
    (hthreads : P'.threads = before ++ next r :: after) :
    Going P' before (next r) after (ticketsAfter op r known) := by
  obtain ⟨hsettled, hjobs⟩ := kept_step hs
  have hkept : ∀ t ∈ known, Promised P'.state (before ++ after) t := by
    intro t ht
    rcases h.promised t ht with ⟨s, hs⟩ | ⟨job, hjob⟩ | hwill
    · exact .inl ⟨s, hsettled hs⟩
    · exact .inr (.inl ⟨job, hjobs hjob⟩)
    · exact .inr (.inr hwill)
  refine ⟨hthreads, h.waits.2 r, ?_⟩
  cases op with
  | submit job =>
      obtain ⟨rfl, hstate⟩ := hs
      intro t ht
      rcases List.mem_cons.mp ht with rfl | ht
      · rw [hstate]
        exact .inr (.inl ⟨job, List.mem_cons_self⟩)
      · exact hkept t ht
  | _ => exact hkept

/-- Another thread makes a step. -/
theorem Going.other {l₁ l₂ : List (Program pipelineInterface PipelineOutcome)} {op : PipelineOp}
    {next : pipelineInterface.Reply op → Program pipelineInterface PipelineOutcome}
    {r : pipelineInterface.Reply op} {before' after' : List (Program pipelineInterface PipelineOutcome)}
    (h : Going P before p after known) (hs : pipelineStep P.state op r P'.state)
    (hother : before ++ after = l₁ ++ .request op next :: l₂)
    (hothers : before' ++ after' = l₁ ++ next r :: l₂)
    (hthreads : P'.threads = before' ++ p :: after') : Going P' before' p after' known := by
  refine ⟨hthreads, h.waits, ?_⟩
  intro t ht
  have hpromised := h.promised t ht
  rw [hother] at hpromised
  rw [hothers]
  exact promised_act hs hpromised

/-- Steps in which nobody dies keep the execution going. -/
theorem stillGoing_step (hs : Pool.Lives (oneExecutionRules cancellable) P P') (h : StillGoing P) :
    StillGoing P' := by
  rcases h with ⟨ending, hending⟩ | ⟨before, p, after, known, h⟩
  · have hkept : P'.ended = P.ended ∨ ∃ a, P'.ended = a :: P.ended := by
      rcases hs.cases with ⟨_, _, _, _, _, _, _, _, he⟩ | ⟨_, a, _, _, _, _, he⟩ | ⟨_, _, _, he⟩ |
        ⟨_, _, he⟩
      · exact .inl he
      · exact .inr ⟨a, he⟩
      · exact .inl he
      · exact .inl he
    rcases hkept with he | ⟨a, he⟩
    · exact .inl ⟨ending, he ▸ hending⟩
    · exact .inl ⟨ending, he ▸ List.mem_cons_of_mem a hending⟩
  · rcases hs.cases with ⟨l₁, op, next, l₂, r, hbefore, hstep, hafter, he⟩ |
      ⟨l₁, a, l₂, hbefore, hstate, hafter, he⟩ | ⟨q, hstart, hafter, he⟩ | ⟨henv, hafter, he⟩
    · -- the step is that of the execution, or that of a thread after or before it
      rw [h.threads] at hbefore
      rcases two_places hbefore with ⟨rfl, rfl, rfl⟩ | ⟨l, rfl, rfl⟩ | ⟨l, rfl, rfl⟩
      · exact .inr ⟨_, _, _, _, h.act hstep.1 hafter⟩
      · refine .inr ⟨before, p, l ++ next r :: l₂, known,
          @Going.other _ _ _ _ _ _ (before ++ l) l₂ op next r _ _ h hstep.1 ?_ ?_ ?_⟩
        · rw [List.append_assoc]
        · rw [List.append_assoc]
        · rw [hafter, List.append_assoc, List.cons_append]
      · refine .inr ⟨l₁ ++ next r :: l, p, after, known,
          @Going.other _ _ _ _ _ _ l₁ (l ++ after) op next r _ _ h hstep.1 ?_ ?_ ?_⟩
        · rw [List.append_assoc, List.cons_append]
        · rw [List.append_assoc, List.cons_append]
        · rw [hafter, List.append_assoc, List.cons_append]
    · rw [h.threads] at hbefore
      rcases two_places hbefore with ⟨rfl, rfl, rfl⟩ | ⟨l, rfl, rfl⟩ | ⟨l, rfl, rfl⟩
      · obtain ⟨ending, rfl⟩ := h.waits
        exact .inl ⟨ending, by rw [he]; exact List.mem_cons_self⟩
      · refine .inr ⟨before, p, l ++ l₂, known, ?_, h.waits, ?_⟩
        · rw [hafter, List.append_assoc, List.cons_append]
        · intro t ht
          have hpromised := h.promised t ht
          rw [← List.append_assoc] at hpromised
          rw [hstate, ← List.append_assoc]
          exact promised_finish hpromised
      · refine .inr ⟨l₁ ++ l, p, after, known, ?_, h.waits, ?_⟩
        · rw [hafter, List.append_assoc]
        · intro t ht
          have hpromised := h.promised t ht
          rw [List.append_assoc, List.cons_append] at hpromised
          rw [hstate, List.append_assoc]
          exact promised_finish hpromised
    · refine .inr ⟨q :: before, p, after, known, ?_, h.waits, ?_⟩
      · rw [hafter, h.threads, List.cons_append]
      · intro t ht
        rw [List.cons_append]
        exact promised_start hstart (h.promised t ht)
    · obtain ⟨L, n, -, hstate⟩ := henv
      refine .inr ⟨before, p, after, known, by rw [hafter, h.threads], h.waits, ?_⟩
      intro t ht
      have hpromised := h.promised t ht
      unfold Promised at hpromised ⊢
      rw [hstate]
      exact hpromised

theorem stillGoing_of_livesTo {prepare : ToolRequest → Except PipelineError ToolInvocation}
    {requests : List ToolRequest} {L : OperationLedger} {n : ℕ}
    (h : Pool.LivesTo (oneExecutionRules cancellable) (oneExecutionStart prepare requests L n) P) :
    StillGoing P := by
  induction h with
  | refl =>
      refine .inr ⟨[], _, [], [], rfl, waits_execution prepare requests, ?_⟩
      intro t ht
      cases ht
  | tail _ hs ih => exact stillGoing_step hs ih

/-- Whatever is asked for has a reply, but waiting for a ticket that is not settled. -/
theorem answerable (w : PipelineWorld) (op : PipelineOp)
    (hawait : ∀ t, op = .await t → ∃ r, (t, r) ∈ w.settled) :
    ∃ r w', (oneExecutionRules cancellable).step w op r w' := by
  cases op with
  | plan i => exact ⟨_, _, rfl, fun _ h => h⟩
  | get operationId => exact ⟨_, _, ⟨rfl, rfl⟩, fun _ h => h⟩
  | start operationId => exact ⟨_, _, rfl, fun _ h => h⟩
  | succeed operationId result => exact ⟨_, _, rfl, fun _ h => h⟩
  | fail operationId error result => exact ⟨_, _, rfl, fun _ h => h⟩
  | markUnknown operationId reason => exact ⟨_, _, rfl, fun _ h => h⟩
  | cancelled => exact ⟨false, _, rfl, fun _ h => by cases h⟩
  | onStarted r i => exact ⟨.returned, _, rfl, fun _ h => by cases h⟩
  | call i => exact ⟨.raised "", _, rfl, fun _ h => by cases h⟩
  | submit job => exact ⟨_, _, ⟨rfl, rfl⟩, fun _ h => h⟩
  | «await» t =>
      obtain ⟨r, hr⟩ := hawait t rfl
      exact ⟨r, _, ⟨hr, rfl⟩, fun _ h => h⟩
  | settle ticket r => exact ⟨(), _, rfl, fun _ h => h⟩

end going

section strategies

variable {cancellable : Prop} {S : Strategy (oneExecutionRules cancellable).step}
  {P : Pool pipelineInterface PipelineOutcome PipelineWorld}
  {before after : List (Program pipelineInterface PipelineOutcome)}
  {p : Program pipelineInterface PipelineOutcome} {known : List ℕ}

/-- The worker that owes a ticket can be led on until it has settled it. -/
theorem settles_of_willSettle (hS : S.Complete) {t : ℕ}
    {q : Program pipelineInterface PipelineOutcome} (hq : q ∈ before ++ after) (hwill : WillSettle t q)
    (h : Going P before p after known) :
    ∃ P' before' after', Pool.LivesTo ((oneExecutionRules cancellable).answeredBy S) P P' ∧
      Going P' before' p after' known ∧ ∃ r, (t, r) ∈ P'.state.settled := by
  induction q generalizing P before after with
  | done outcome => exact hwill.elim
  | request op next ih =>
      have hawait : ∀ t', op = .await t' → ∃ r, (t', r) ∈ P.state.settled := by
        rintro t' rfl
        rcases hwill with ⟨r, hr⟩ | ⟨hnot, -⟩
        · cases hr
        · exact absurd rfl (hnot t')
      obtain ⟨⟨r, w'⟩, hact⟩ := hS op P.state (answerable P.state op hawait)
      have hstep := S.sound hact
      -- the worker stands before or after the thread of the execution
      obtain ⟨P₁, before₁, after₁, hlives, hstate, hgoing, hmem⟩ : ∃ P₁ before₁ after₁,
          Pool.Lives ((oneExecutionRules cancellable).answeredBy S) P P₁ ∧ P₁.state = w' ∧
            Going P₁ before₁ p after₁ known ∧ next r ∈ before₁ ++ after₁ := by
        obtain ⟨w, threads, ended⟩ := P
        obtain rfl : threads = _ := h.threads
        rcases List.mem_append.mp hq with hq | hq
        · obtain ⟨l₁, l₂, rfl⟩ := List.append_of_mem hq
          rw [List.append_assoc, List.cons_append] at h
          rw [List.append_assoc, List.cons_append]
          refine ⟨⟨w', l₁ ++ next r :: (l₂ ++ p :: after), ended⟩, l₁ ++ next r :: l₂, after,
            Pool.lives_act hact, rfl, ?_, by simp⟩
          refine @Going.other _ _ _ _ _ _ l₁ (l₂ ++ after) op next r _ _ h hstep.1 ?_ ?_ ?_
          all_goals simp
        · obtain ⟨l₁, l₂, rfl⟩ := List.append_of_mem hq
          refine ⟨⟨w', (before ++ p :: l₁) ++ next r :: l₂, ended⟩, before, l₁ ++ next r :: l₂, ?_, rfl, ?_,
            by simp⟩
          · have hact' := @Pool.lives_act _ _ _ _ S _ _ (before ++ p :: l₁) l₂ ended _ next _ hact
            simpa using hact'
          · refine @Going.other _ _ _ _ _ _ (before ++ l₁) l₂ op next r _ _ h hstep.1 ?_ ?_ ?_
            all_goals simp
      rcases hwill with ⟨s, rfl⟩ | ⟨-, hwill⟩
      · refine ⟨P₁, before₁, after₁, .single hlives, hgoing, s, ?_⟩
        obtain rfl : w' = { P.state with settled := (t, s) :: P.state.settled } := hstep.1
        rw [hstate]
        exact List.mem_cons_self
      · obtain ⟨P₂, before₂, after₂, hlives₂, hgoing₂, hsettled⟩ := ih r hmem (hwill r) hgoing
        exact ⟨P₂, before₂, after₂, .head hlives hlives₂, hgoing₂, hsettled⟩

/-- A ticket that the execution knows can be brought to be settled. -/
theorem settles_of_known (hS : S.Complete) {t : ℕ} (ht : t ∈ known) (h : Going P before p after known) :
    ∃ P' before' after', Pool.LivesTo ((oneExecutionRules cancellable).answeredBy S) P P' ∧
      Going P' before' p after' known ∧ ∃ r, (t, r) ∈ P'.state.settled := by
  rcases h.promised t ht with hsettled | ⟨job, hjob⟩ | ⟨q, hq, hwill⟩
  · exact ⟨P, before, after, .refl, h, hsettled⟩
  · obtain ⟨w, threads, ended⟩ := P
    have hstart : JobStarts w (workerJob t job).worker { w with jobs := w.jobs.erase (t, job) } :=
      .worker hjob
    have hgoing : Going ⟨{ w with jobs := w.jobs.erase (t, job) }, (workerJob t job).worker :: threads,
        ended⟩ ((workerJob t job).worker :: before) p after known := by
      refine ⟨congrArg (List.cons _) h.threads, h.waits, ?_⟩
      intro t' ht'
      rw [List.cons_append]
      exact promised_start hstart (h.promised t' ht')
    obtain ⟨P', before', after', hlives, hrest⟩ :=
      settles_of_willSettle hS List.mem_cons_self (willSettle_worker t job) hgoing
    exact ⟨P', before', after', .head (Pool.lives_start hstart) hlives, hrest⟩
  · exact settles_of_willSettle hS hq hwill h

/-- **No run is stuck**: whatever is replied, an execution that goes on can be led to its end. -/
theorem going_ends (hS : S.Complete) (h : Going P before p after known) :
    ∃ P', Pool.LivesTo ((oneExecutionRules cancellable).answeredBy S) P P' ∧
      ∃ ending, some ending ∈ P'.ended := by
  induction p generalizing P before after known with
  | done outcome =>
      obtain ⟨w, threads, ended⟩ := P
      obtain rfl : threads = _ := h.threads
      obtain ⟨ending, rfl⟩ := h.waits
      exact ⟨_, .single Pool.lives_finish, ending, List.mem_cons_self⟩
  | request op next ih =>
      -- first the ticket that is asked for is settled, if it is one
      obtain ⟨P₁, before₁, after₁, hlives₁, h₁, hawait⟩ : ∃ P₁ before₁ after₁,
          Pool.LivesTo ((oneExecutionRules cancellable).answeredBy S) P P₁ ∧
            Going P₁ before₁ (.request op next) after₁ known ∧
              ∀ t, op = .await t → ∃ r, (t, r) ∈ P₁.state.settled := by
        by_cases hop : ∃ t, op = .await t
        · obtain ⟨t, rfl⟩ := hop
          obtain ⟨P₁, before₁, after₁, hlives, hgoing, hsettled⟩ :=
            settles_of_known hS (h.waits.1 t rfl) h
          refine ⟨P₁, before₁, after₁, hlives, hgoing, ?_⟩
          intro t' ht'
          obtain rfl := PipelineOp.await.inj ht'
          exact hsettled
        · exact ⟨P, before, after, .refl, h, fun t ht => absurd ⟨t, ht⟩ hop⟩
      obtain ⟨⟨r, w'⟩, hact⟩ := hS op P₁.state (answerable P₁.state op hawait)
      have hstep := S.sound hact
      obtain ⟨w, threads, ended⟩ := P₁
      obtain rfl : threads = _ := h₁.threads
      have h₂ : Going ⟨w', before₁ ++ next r :: after₁, ended⟩ before₁ (next r) after₁
          (ticketsAfter op r known) := h₁.act hstep.1 rfl
      obtain ⟨P', hlives, hended⟩ := ih r h₂
      exact ⟨P', hlives₁.trans (.head (Pool.lives_act hact) hlives), hended⟩

end strategies

/-! ### Executions of prepared requests -/

section prepared

variable (search : PatternSearch) (errors : PayloadErrors) (pipeline : ToolPipeline)
  (context : PolicyContext) (requests : List ToolRequest)

/-- A tool that reads only, destroys nothing and may run next to others, called with these arguments. -/
def RegisteredSpec.SafeRead (spec : RegisteredSpec) (args : Dict) : Prop :=
  spec.isReadOnly.read args = .ok true ∧ spec.isDestructive.read args = .ok false ∧
    spec.isConcurrencySafe.read args = .ok true

theorem plannerFlag_iff {flag : MetadataFlag} {args : Dict} :
    plannerFlag flag args = true ↔ flag.read args = .ok true := by
  unfold plannerFlag
  cases flag.read args <;> simp [Except.toOption]

variable {search errors pipeline context requests}

/-- What the planner takes for safe is safe, as a tool whose destructiveness cannot be told is denied. -/
theorem ToolPipeline.Authorized.parallelSafe_iff {request : ToolRequest} {spec : RegisteredSpec}
    {i : ToolInvocation} (h : Authorized search pipeline context request spec i) :
    i.parallelSafe = true ↔ spec.SafeRead i.call.args := by
  have hdestructive := h.isDestructive
  unfold ToolInvocation.parallelSafe RegisteredSpec.SafeRead
  rw [hdestructive, h.tool]
  simp only [RegisteredSpec.at, Bool.and_eq_true, Bool.not_eq_true', plannerFlag_iff, Except.ok.injEq,
    and_assoc]

/-- **Batching keeps order and barriers, and every request has its result.**  The batches are the prepared
invocations in order, with everything that is not a safe read alone; an execution ends with one result for
each request in order, or with what its preparation or planning raises, or cancelled, after at most one call
for each key; and no run in which nobody dies is stuck, whatever is replied. -/
theorem execute_batched {L : OperationLedger} {n : ℕ} (hL : Built L n) :
    (∀ invocations, requests.mapM (pipeline.prepare search errors context) = .ok invocations →
        Batched invocations (planBatches [] [] invocations) ∧
          ∀ i ∈ invocations, ∃ request ∈ requests, ∃ spec,
            pipeline.registry.lookup request.call.name = some spec ∧
              (i.parallelSafe = true ↔ spec.SafeRead i.call.args)) ∧
      ∀ cancellable P,
        (Pool.Reachable (oneExecutionRules cancellable)
            (oneExecutionStart (pipeline.prepare search errors context) requests L n) P →
          (∀ ending, some ending ∈ P.ended →
              ExecutionEnds cancellable (pipeline.prepare search errors context) requests ending) ∧
            ∀ key, P.state.callCount key ≤ 1) ∧
          ∀ S : Strategy (oneExecutionRules cancellable).step, S.Complete →
            Pool.LivesTo (oneExecutionRules cancellable)
                (oneExecutionStart (pipeline.prepare search errors context) requests L n) P →
              ∃ P', Pool.LivesTo ((oneExecutionRules cancellable).answeredBy S) P P' ∧
                ∃ ending, some ending ∈ P'.ended := by
  have hid : ∀ request i, pipeline.prepare search errors context request = .ok i →
      i.callId = request.callId := by
    intro request i hi
    obtain ⟨spec, hspec⟩ := ToolPipeline.prepare_authorized hi
    exact hspec.callId
  refine ⟨?_, ?_⟩
  · intro invocations hinvocations
    refine ⟨batched_planBatches invocations, ?_⟩
    intro i hi
    obtain ⟨request, hrequest, hprepared⟩ := exists_of_mapM_ok hinvocations hi
    obtain ⟨spec, hspec⟩ := ToolPipeline.prepare_authorized hprepared
    exact ⟨request, hrequest, spec, hspec.registered, hspec.parallelSafe_iff⟩
  · intro cancellable P
    refine ⟨fun hreach => ends_of_reachable hid (ledgerOk_built hL) hreach, ?_⟩
    intro S hS hlives
    rcases stillGoing_of_livesTo hlives with hended | ⟨before, p, after, known, hgoing⟩
    · exact ⟨P, .refl, hended⟩
    · exact going_ends hS hgoing

end prepared

/-- A pipeline with a tool that reads only and one that charges. -/
def shopPipeline : ToolPipeline where
  registry := ⟨[{ name := "read_price", isReadOnly := .value true, isConcurrencySafe := .value true },
    { name := "charge_card" }], by decide⟩

/-- The context of an agent that may use both. -/
def shopContext : PolicyContext := { chargingContext with allowedTools := {"read_price", "charge_card"} }

/-- A price is read before the charge and after it. -/
def shopRequests : List ToolRequest :=
  [⟨⟨"read_price", [("item", .str "tea")]⟩, "call-1", none⟩,
    ⟨⟨"charge_card", [("amount", .int 5)]⟩, "call-2", none⟩,
    ⟨⟨"read_price", [("item", .str "tea")]⟩, "call-3", none⟩]

/-- How they end: each call alone, in the order of the requests. -/
def shopEnding : Except PipelineError (List (List SettledToolResult)) :=
  .ok [[⟨"call-1", .fulfilled, some (newOperationId 0), some ⟨"read_price", "ok", "", none, none⟩, none⟩],
    [⟨"call-2", .fulfilled, some (newOperationId 1), some ⟨"charge_card", "ok", "", none, none⟩, none⟩],
    [⟨"call-3", .fulfilled, some (newOperationId 2), some ⟨"read_price", "ok", "", none, none⟩, none⟩]]

/-- A read before the charge and a read after it: each call stands in a batch of its own, in order, is made
once and has its result. -/
theorem execute_batched_barrier :
    let prepare := shopPipeline.prepare (fun _ _ => .ok true) Json.pyRepr shopContext
    (∃ invocations, shopRequests.mapM prepare = .ok invocations ∧
        Batched invocations (planBatches [] [] invocations) ∧
          (planBatches [] [] invocations).map (fun b => b.calls.map (fun i => (i.callId, i.parallelSafe))) =
            [[("call-1", true)], [("call-2", false)], [("call-3", true)]]) ∧
      ∃ P, Pool.Reachable (oneExecutionRules True) (oneExecutionStart prepare shopRequests (.empty false) 0) P ∧
        P.state.calls.map (·.callId) = ["call-3", "call-2", "call-1"] ∧ (∀ key, P.state.callCount key ≤ 1) ∧
          some shopEnding ∈ P.ended ∧ ExecutionEnds True prepare shopRequests shopEnding := by
  intro prepare
  refine ⟨?_, ?_⟩
  · obtain ⟨invocations, hprepared, hbatches⟩ : ∃ is, shopRequests.mapM prepare = .ok is ∧
        (planBatches [] [] is).map (fun b => b.calls.map (fun i => (i.callId, i.parallelSafe))) =
          [[("call-1", true)], [("call-2", false)], [("call-3", true)]] := ⟨_, rfl, by decide +kernel⟩
    exact ⟨invocations, hprepared, ((execute_batched (Built.new false)).1 invocations hprepared).1, hbatches⟩
  · obtain ⟨Q, hrun, hresult, hcalls⟩ : ∃ Q, Pool.Reachable (oneExecutionRules True)
        (oneExecutionStart prepare shopRequests (.empty false) 0) Q ∧
          Q.threads.map Program.result = [some shopEnding].map some ∧
            Q.state.calls.map (·.callId) = ["call-3", "call-2", "call-1"] :=
      ⟨_, Pool.follow_reachable happyAlone _ (List.replicate 24 0), by decide +kernel, by decide +kernel⟩
    obtain ⟨P, hend, hstate, hended⟩ := Pool.all_ended hresult
    obtain ⟨hends, honce⟩ := ((execute_batched (Built.new false)).2 True P).1 (hrun.trans hend)
    have hmem : some shopEnding ∈ P.ended := by
      rw [hended]
      exact List.mem_cons_self
    exact ⟨P, hrun.trans hend, by rw [hstate, hcalls], honce, hmem, hends _ hmem⟩

end CrazyHarness
