import CrazyHarness.Tools.AtMostOnce

/-! # Sessions over a durable ledger

A process makes one execution after the other over a ledger with a file.  It may be killed
between any two of the steps of its threads; a new process then opens the ledger again from the
lines that were written.

* `session_calls`: over all processes the registry is called at most once for each idempotency
  key; an operation that was started and not settled is unknown to the next process, and no
  process calls its key again; and a key that is used again for a different call raises before
  the execution has any effect. -/

namespace CrazyHarness

open Lib Program OperationLedger PipelineM

/-! ### Opening the ledger again -/

/-- A started operation whose process has died. -/
def OperationRecord.lost (r : OperationRecord) (reason : String) : OperationRecord :=
  { r with state := .unknown, result := none, error := some reason }

section reopen

variable {L : OperationLedger} {id reason : String} {r : OperationRecord} {n : ℕ}

theorem lookup_markUnknown {r' : OperationRecord} {L' : OperationLedger} {operationId : String}
    (h : L.markUnknown operationId reason = .ok (r', L'))
    (hlook : L.records.lookup id = some r) :
    (operationId ≠ id ∨ r.state = .unknown → L'.records.lookup id = some r) ∧
      (operationId = id → r.state = .started → L'.records.lookup id = some (r.lost reason)) := by
  rcases transition_cases h with ⟨rfl, hcur, hstate⟩ | ⟨current, hcur, hallowed, rfl, rfl⟩
  · refine ⟨fun _ => hlook, ?_⟩
    rintro rfl hstarted
    rw [hlook] at hcur
    cases hcur
    rw [hstarted] at hstate
    cases hstate
  · have hid := Table.key_of_lookup hcur
    simp only [OperationLedger.store, Table.lookup_upsert]
    constructor
    · rintro (hne | hunknown)
      · rw [if_neg (fun heq => hne (hid.symm.trans heq.symm))]
        exact hlook
      · rw [if_neg]
        · exact hlook
        · rintro rfl
          rw [hid, hcur] at hlook
          cases hlook
          rw [hunknown] at hallowed
          simp [OperationState.allowed] at hallowed
    · rintro rfl _
      rw [hcur] at hlook
      cases hlook
      rw [if_pos hid.symm]
      rfl

/-- One line of `recover_incomplete` after the other. -/
theorem lookup_foldl_markUnknown (started : List OperationRecord)
    (hlook : L.records.lookup id = some r) :
    let L' := started.foldl (fun L r =>
      match L.markUnknown r.operationId reason with
      | .ok (_, L') => L'
      | .error _ => L) L
    (id ∉ started.map OperationRecord.operationId ∨ r.state = .unknown →
        L'.records.lookup id = some r) ∧
      (id ∈ started.map OperationRecord.operationId → r.state = .started →
        L'.records.lookup id = some (r.lost reason)) := by
  induction started generalizing L r with
  | nil =>
      refine ⟨fun _ => hlook, ?_⟩
      intro hmem
      cases hmem
  | cons a started ih =>
      rw [List.foldl_cons, List.map_cons, List.mem_cons]
      cases hm : L.markUnknown a.operationId reason with
      | error e =>
          obtain ⟨hkeep, hlost⟩ := ih hlook
          refine ⟨?_, ?_⟩
          · rintro (hnot | hunknown)
            · exact hkeep (.inl (fun h => hnot (.inr h)))
            · exact hkeep (.inr hunknown)
          · rintro (rfl | hmem) hstate
            · have hok : L.transition a.operationId .unknown none (some reason) ≠ .error e := by
                simp [transition, get_ok_iff.mpr hlook, hstate, OperationState.allowed]
              exact absurd hm hok
            · exact hlost hmem hstate
      | ok out =>
          obtain ⟨r', L'⟩ := out
          obtain ⟨hother, hthis⟩ := lookup_markUnknown hm hlook
          refine ⟨?_, ?_⟩
          · rintro (hnot | hunknown)
            · exact (ih (hother (.inl (fun h => hnot (.inl h.symm))))).1
                (.inl (fun h => hnot (.inr h)))
            · exact (ih (hother (.inr hunknown))).1 (.inr hunknown)
          · intro hmem hstate
            by_cases ha : a.operationId = id
            · exact (ih (hthis ha hstate)).1 (.inr rfl)
            · exact (ih (hother (.inl ha))).2 (hmem.resolve_left (fun h => ha h.symm)) hstate

/-- What a new process knows of an operation: the record, unless it was started. -/
theorem lookup_reopen (h : LedgerOk L n) (hfile : L.file.isSome)
    (hlook : L.records.lookup id = some r) :
    L.reopen.records.lookup id = some (if r.state = .started then
      r.lost "ledger reopened after an incomplete external operation" else r) := by
  obtain ⟨lines, hlines⟩ := Option.isSome_iff_exists.mp hfile
  have hload : (load lines).records.lookup id = some r := by
    rw [(h.filed lines hlines).1]
    exact hlook
  unfold OperationLedger.reopen
  simp only [hlines]
  obtain ⟨hkeep, hlost⟩ := @lookup_foldl_markUnknown (load lines) id
    "ledger reopened after an incomplete external operation" r
    ((load lines).records.rows.filter (fun r => r.state = .started)) hload
  have hid := Table.key_of_lookup hload
  have hrow := Table.mem_of_lookup hload
  by_cases hstate : r.state = .started
  · rw [if_pos hstate]
    refine hlost ?_ hstate
    exact List.mem_map.mpr ⟨r, List.mem_filter.mpr ⟨hrow, by simp [hstate]⟩, hid⟩
  · rw [if_neg hstate]
    refine hkeep (.inl ?_)
    intro hmem
    obtain ⟨s, hs, hsid⟩ := List.mem_map.mp hmem
    obtain ⟨hsrow, hstarted⟩ := List.mem_filter.mp hs
    have hsr : s = r := Table.eq_of_key_eq _ hsrow hrow (hsid.trans hid.symm)
    rw [hsr] at hstarted
    exact hstate (of_decide_eq_true hstarted)

theorem grows_reopen (h : LedgerOk L n) (hfile : L.file.isSome) : L.Grows L.reopen := by
  intro id r hlook
  refine ⟨_, lookup_reopen h hfile hlook, ?_, ?_⟩
  · split <;> rfl
  · intro hstate
    split
    next => simp [OperationRecord.lost]
    next => exact hstate

theorem file_recoverIncomplete (hfile : L.file.isSome) :
    (L.recoverIncomplete reason).file.isSome := by
  unfold OperationLedger.recoverIncomplete
  generalize L.records.rows.filter (fun r => r.state = .started) = started
  induction started generalizing L with
  | nil => exact hfile
  | cons a started ih =>
      rw [List.foldl_cons]
      refine ih ?_
      cases hm : L.markUnknown a.operationId reason with
      | error e => exact hfile
      | ok out =>
          obtain ⟨r', L'⟩ := out
          rcases transition_cases hm with ⟨rfl, -, -⟩ | ⟨current, -, -, -, rfl⟩
          · exact hfile
          · simp only [OperationLedger.store, Option.isSome_map]
            exact hfile

theorem file_reopen (hfile : L.file.isSome) : L.reopen.file.isSome := by
  obtain ⟨lines, hlines⟩ := Option.isSome_iff_exists.mp hfile
  unfold OperationLedger.reopen
  rw [hlines]
  exact file_recoverIncomplete rfl

end reopen

/-! ### Sessions -/

/-- A new process over the file of this one. -/
def PipelineWorld.restarted (w : PipelineWorld) : PipelineWorld where
  ledger := w.ledger.reopen
  drawn := w.drawn
  calls := w.calls

/-- Workers start when there is a job. -/
inductive WorkerStarts : PipelineWorld → Program pipelineInterface Unit → PipelineWorld → Prop
  | worker {w : PipelineWorld} {ticket : ℕ} {job : PlannedInvocation}
      (h : (ticket, job) ∈ w.jobs) :
      WorkerStarts w (workerJob ticket job).thread { w with jobs := w.jobs.erase (ticket, job) }

/-- The threads of one execution. -/
def executionRules : PoolRules pipelineInterface Unit PipelineWorld :=
  { pipelineRules with starts := WorkerStarts }

/-- One step of a session.  The next execution begins when the executing thread of the last
one has come to its end, and with it the thread pool of its last batch; the process may be
killed at any time. -/
inductive SessionStep :
    Pool pipelineInterface Unit PipelineWorld → Pool pipelineInterface Unit PipelineWorld → Prop
  | act {P P' : Pool pipelineInterface Unit PipelineWorld} (h : Pool.Step executionRules P P') :
      SessionStep P P'
  | execute {w : PipelineWorld} {ended : List Unit} (hjobs : w.jobs = [])
      (prepare : ToolRequest → Except PipelineError ToolInvocation) (requests : List ToolRequest) :
      SessionStep ⟨w, [], ended⟩ ⟨w, [(execute prepare requests).thread], ended⟩
  | kill {P : Pool pipelineInterface Unit PipelineWorld} : SessionStep P ⟨P.state.restarted, [], []⟩

/-- Any number of steps. -/
abbrev SessionRuns := Relation.ReflTransGen SessionStep

/-- A session over a new ledger file. -/
def newSession : Pool pipelineInterface Unit PipelineWorld := ⟨.start (.empty true) 0, [], []⟩

theorem execution_sound (cap : String → ℕ) : Pool.Sound executionRules
    (PipelineWorld.Covered True cap) PipelineWorld.Grows (fun _ _ => True) where
  refl := by
    intro w
    exact Grows.refl _
  trans := Grows.trans
  stable := by
    intro _ _ _ _ _
    trivial
  drop := by
    intro w m m' h
    exact h.drop
  starts := by
    intro w p w' owned h hs
    cases hs with
    | @worker ticket job hjob =>
        refine ⟨Grows.refl _, job.rights, covered_worker h hjob, ?_⟩
        refine Safe.restrict (safe_thread (does_workerJob (h.jobs _ hjob))) ?_
        intro w op r w' hs
        exact ⟨hs, fun hsolo => absurd trivial hsolo⟩
  env := by
    intro w w' owned _ h
    cases h

/-- What every session keeps: a ledger with a file, and threads that own what they do. -/
structure SessionOk (cap : String → ℕ) (P : Pool pipelineInterface Unit PipelineWorld) : Prop where
  durable : P.state.ledger.file.isSome
  owning : ∃ owned, Pool.Ok executionRules (PipelineWorld.Covered True cap) PipelineWorld.Grows
    (fun _ _ => True) P owned

theorem durable_step {w w' : PipelineWorld} {op : PipelineOp} {r : pipelineInterface.Reply op}
    (h : w.ledger.file.isSome) (hs : pipelineStep w op r w') : w'.ledger.file.isSome := by
  have hstore : ∀ r, (w.ledger.store r).file.isSome := by
    intro r
    simp only [OperationLedger.store, Option.isSome_map]
    exact h
  have htransition : ∀ operationId target result error (r : Except LedgerError OperationRecord),
      (r, w') = w.returns (w.ledger.transition operationId target result error) →
        w'.ledger.file.isSome := by
    intro operationId target result error r hs
    unfold PipelineWorld.returns at hs
    split at hs
    next out r L ht =>
      obtain ⟨rfl, rfl⟩ := Prod.mk.inj hs
      rcases transition_cases ht with ⟨rfl, -, -⟩ | ⟨current, -, -, -, rfl⟩
      · exact h
      · exact hstore _
    next =>
      obtain ⟨rfl, rfl⟩ := Prod.mk.inj hs
      exact h
  cases op with
  | plan i =>
      simp only [pipelineStep, PipelineWorld.returns] at hs
      split at hs
      next r L hp =>
        obtain ⟨rfl, rfl⟩ := Prod.mk.inj hs
        rcases plan_cases hp with ⟨rfl, -⟩ | ⟨-, -, -, -, rfl⟩
        · exact h
        · exact hstore _
      next =>
        obtain ⟨rfl, rfl⟩ := Prod.mk.inj hs
        exact h
  | start operationId => exact htransition _ _ _ _ _ hs
  | succeed operationId result => exact htransition _ _ _ _ _ hs
  | fail operationId error result => exact htransition _ _ _ _ _ hs
  | markUnknown operationId reason => exact htransition _ _ _ _ _ hs
  | get operationId =>
      obtain ⟨-, rfl⟩ := hs
      exact h
  | submit job =>
      obtain ⟨-, rfl⟩ := hs
      exact h
  | «await» ticket =>
      obtain ⟨-, rfl⟩ := hs
      exact h
  | cancelled => cases hs; exact h
  | onStarted r i => cases hs; exact h
  | call i => cases hs; exact h
  | settle ticket r => cases hs; exact h

theorem durable_poolStep {P P' : Pool pipelineInterface Unit PipelineWorld}
    (h : P.state.ledger.file.isSome) (hs : Pool.Step executionRules P P') :
    P'.state.ledger.file.isSome := by
  cases hs with
  | act hstep => exact durable_step h hstep
  | finish => exact h
  | crash => exact h
  | start hstart =>
      cases hstart
      exact h
  | env henv => cases henv

/-- Nothing runs: no thread owns anything. -/
theorem SessionOk.idle {cap : String → ℕ} {w : PipelineWorld} {ended : List Unit}
    (h : SessionOk cap ⟨w, [], ended⟩) : w.Covered True cap 0 := by
  obtain ⟨owned, hok⟩ := h.owning
  have hinv := hok.invariant
  cases hok.threads
  exact hinv

theorem SessionOk.covered {cap : String → ℕ} {P : Pool pipelineInterface Unit PipelineWorld}
    (h : SessionOk cap P) : P.state.Covered True cap 0 := by
  obtain ⟨owned, hok⟩ := h.owning
  have hinv := hok.invariant
  rw [← add_zero owned.sum] at hinv
  exact hinv.drop

theorem PipelineWorld.Covered.restarted {solo : Prop} {cap : String → ℕ} {w : PipelineWorld}
    (h : w.Covered solo cap 0) (hfile : w.ledger.file.isSome) : w.restarted.Covered solo cap 0 := by
  have hspent := spent_le_of_grows h.ledger h.ledger.reopen (grows_reopen h.ledger hfile)
  exact
    { ledger := h.ledger.reopen
      covered := by
        intro key
        exact (h.covered key).trans (Nat.mul_le_mul_right _ (hspent key))
      unspent := by
        intro key hkey
        exact h.unspent key (Nat.le_zero.mp ((hspent key).trans (le_of_eq hkey)))
      jobs := by
        intro job hjob
        cases hjob
      exclusive := by
        intro _ id
        exact Nat.zero_le _
      ready := by
        intro _ id hid
        cases hid }

/-- The world of a new process. -/
theorem sessionOk_start {cap : String → ℕ} {w : PipelineWorld} (h : w.Covered True cap 0)
    (hfile : w.ledger.file.isSome) : SessionOk cap ⟨w, [], []⟩ :=
  ⟨hfile, [], h, .nil, by simp⟩

theorem SessionOk.step {cap : String → ℕ} {P P' : Pool pipelineInterface Unit PipelineWorld}
    (h : SessionOk cap P) (hs : SessionStep P P') : SessionOk cap P' := by
  cases hs with
  | act hstep =>
      obtain ⟨owned, hok⟩ := h.owning
      exact ⟨durable_poolStep h.durable hstep, hok.step (execution_sound cap) hstep⟩
  | execute hjobs prepare requests =>
      have hcov := h.idle
      refine ⟨h.durable, [.everyStart], ?_, .cons ?_ .nil, ?_⟩
      · simp only [List.sum_cons, List.sum_nil, add_zero]
        refine ⟨hcov.ledger, hcov.covered, hcov.unspent, hcov.jobs, ?_, ?_⟩
        · intro _ id
          simp [PipelineWorld.waiting, hjobs, Rights.everyStart]
        · intro _ id hid
          cases hid
      · refine Safe.restrict (safe_thread (does_execute prepare requests)) ?_
        intro w op r w' hs
        exact ⟨hs, fun hsolo => absurd trivial hsolo⟩
      · intro _ _
        trivial
  | kill => exact sessionOk_start (h.covered.restarted h.durable) (file_reopen h.durable)

theorem SessionOk.runs {cap : String → ℕ} {P P' : Pool pipelineInterface Unit PipelineWorld}
    (h : SessionOk cap P) (hr : SessionRuns P P') : SessionOk cap P' := by
  induction hr with
  | refl => exact h
  | tail _ hs ih => exact ih.step hs

theorem sessionOk_new : SessionOk 1 newSession :=
  sessionOk_start (covered_start_world (.new true)) rfl

theorem SessionOk.callCount_le {cap : String → ℕ} {P : Pool pipelineInterface Unit PipelineWorld}
    (h : SessionOk cap P) (key : String) : P.state.callCount key ≤ cap key := by
  have hcov := h.covered.covered key
  have hone := Nat.mul_le_mul_right (cap key) (spent_le_one P.state.ledger key)
  rw [Nat.one_mul] at hone
  exact (Nat.le_add_right _ _).trans (hcov.trans hone)

/-! ### Calls stay -/

theorem returns_calls {w w' : PipelineWorld} {out : Except LedgerError (OperationRecord × OperationLedger)}
    {r : Except LedgerError OperationRecord} (hs : (r, w') = w.returns out) :
    w'.calls = w.calls ∧ w'.jobs = w.jobs := by
  unfold PipelineWorld.returns at hs
  split at hs
  all_goals
    obtain ⟨rfl, rfl⟩ := Prod.mk.inj hs
    exact ⟨rfl, rfl⟩

theorem calls_step {w w' : PipelineWorld} {op : PipelineOp} {r : pipelineInterface.Reply op}
    (hs : pipelineStep w op r w') : w.calls <:+ w'.calls := by
  cases op with
  | plan i => rw [(returns_calls hs).1]
  | start operationId => rw [(returns_calls hs).1]
  | succeed operationId result => rw [(returns_calls hs).1]
  | fail operationId error result => rw [(returns_calls hs).1]
  | markUnknown operationId reason => rw [(returns_calls hs).1]
  | get operationId => rw [hs.2]
  | «await» ticket => rw [hs.2]
  | submit job =>
      rw [hs.2]
      exact List.suffix_refl _
  | cancelled => rw [show w' = w from hs]
  | onStarted r i => rw [show w' = w from hs]
  | call i =>
      rw [show w' = w.called i from hs]
      exact List.suffix_cons i w.calls
  | settle ticket r =>
      rw [show w' = _ from hs]

theorem calls_sessionStep {P P' : Pool pipelineInterface Unit PipelineWorld}
    (hs : SessionStep P P') : P.state.calls <:+ P'.state.calls := by
  cases hs with
  | act h =>
      cases h with
      | act hstep => exact calls_step hstep
      | finish => exact List.suffix_refl _
      | crash => exact List.suffix_refl _
      | start hstart =>
          cases hstart
          exact List.suffix_refl _
      | env henv => cases henv
  | execute => exact List.suffix_refl _
  | kill => exact List.suffix_refl _

theorem callCount_mono {P P' : Pool pipelineInterface Unit PipelineWorld} (h : SessionRuns P P')
    (key : String) : P.state.callCount key ≤ P'.state.callCount key := by
  refine List.Sublist.countP_le (List.IsSuffix.sublist ?_)
  induction h with
  | refl => exact List.suffix_refl _
  | tail _ hs ih => exact ih.trans (calls_sessionStep hs)

/-- Once the operation of a key has left the planned state in an idle process, no call of the
key follows. -/
theorem callCount_spent {w : PipelineWorld} (h : SessionOk 1 ⟨w, [], []⟩) {key : String}
    (hspent : w.ledger.spent key = 1) {P : Pool pipelineInterface Unit PipelineWorld}
    (hr : SessionRuns ⟨w, [], []⟩ P) : P.state.callCount key = w.callCount key := by
  have hidle := h.idle
  have hcap : SessionOk (Function.update 1 key (w.callCount key)) ⟨w, [], []⟩ := by
    refine sessionOk_start ?_ h.durable
    refine ⟨hidle.ledger, ?_, ?_, hidle.jobs, hidle.exclusive, hidle.ready⟩
    · intro k
      by_cases hk : k = key
      · subst hk
        simp [hspent]
      · rw [Function.update_of_ne hk]
        exact hidle.covered k
    · intro k hzero
      have hk : k ≠ key := by
        rintro rfl
        omega
      rw [Function.update_of_ne hk]
      exact le_rfl
  have hle := (hcap.runs hr).callCount_le key
  rw [Function.update_self] at hle
  exact le_antisymm hle (callCount_mono hr key)

/-! ### A key used again for another call -/

/-- Some invocation uses a key that belongs to a different call, in the ledger or earlier in
the same request. -/
def KeyReused (L : OperationLedger) (is : List ToolInvocation) : Prop :=
  ∃ before i after, is = before ++ i :: after ∧
    ((∃ r, L.byIdempotencyKey i.idempotencyKey = some r ∧
        r.requestFingerprint ≠ callFingerprint i.call) ∨
      ∃ j ∈ before, j.idempotencyKey = i.idempotencyKey ∧
        callFingerprint j.call ≠ callFingerprint i.call)

/-- What a plan leaves under each key. -/
theorem OperationLedger.LedgerOk.byIdempotencyKey_plan {L L' : OperationLedger} {n : ℕ}
    {i : ToolInvocation} {r : OperationRecord} (h : LedgerOk L n)
    (hp : L.plan i (newOperationId n) = .ok (r, L')) :
    (L'.byIdempotencyKey i.idempotencyKey = some r ∧ r.requestFingerprint = callFingerprint i.call) ∧
      ∀ k s, L.byIdempotencyKey k = some s → L'.byIdempotencyKey k = some s := by
  have hL' := h.plan hp
  unfold OperationLedger.plan at hp
  split at hp
  next existing hkey =>
    split at hp
    next => cases hp
    next hsame =>
      obtain ⟨rfl, rfl⟩ := Prod.mk.inj (Except.ok.inj hp)
      exact ⟨⟨hkey, not_not.mp hsame⟩, fun _ _ hs => hs⟩
  next hnone =>
    obtain ⟨rfl, rfl⟩ := Prod.mk.inj (Except.ok.inj hp)
    refine ⟨⟨?_, rfl⟩, ?_⟩
    · rw [hL'.byIdempotencyKey_iff]
      exact ⟨Table.lookup_upsert_self _ _, rfl⟩
    · intro k s hs
      obtain ⟨hlook, hk⟩ := h.byIdempotencyKey_iff.mp hs
      rw [hL'.byIdempotencyKey_iff]
      refine ⟨?_, hk⟩
      simp only [OperationLedger.store, Table.lookup_upsert]
      rw [if_neg]
      · exact hlook
      · intro heq
        obtain ⟨m, hm, hid⟩ := h.drawn _ s hlook
        have := newOperationId_inj.mp (heq.symm.trans hid)
        omega

/-- A reused key is met by the first plan or is still there for the next one. -/
theorem KeyReused.plan {L : OperationLedger} {n : ℕ} {i : ToolInvocation} {is : List ToolInvocation}
    (hL : LedgerOk L n) (h : KeyReused L (i :: is)) :
    L.plan i (newOperationId n) = .error (.idempotencyConflict i.idempotencyKey) ∨
      ∃ r L', L.plan i (newOperationId n) = .ok (r, L') ∧ KeyReused L' is := by
  cases hp : L.plan i (newOperationId n) with
  | error e =>
      left
      unfold OperationLedger.plan at hp
      split at hp
      · split at hp
        · exact congrArg _ (Except.error.inj hp).symm
        · cases hp
      · cases hp
  | ok out =>
      right
      obtain ⟨r, L'⟩ := out
      refine ⟨r, L', rfl, ?_⟩
      obtain ⟨⟨hown, hfp⟩, hkeep⟩ := hL.byIdempotencyKey_plan hp
      obtain ⟨before, j, after, hsplit, hreuse⟩ := h
      cases before with
      | nil =>
          -- the plan of the invocation itself would have raised
          obtain ⟨rfl, rfl⟩ := List.cons.inj hsplit
          rcases hreuse with ⟨s, hs, hne⟩ | ⟨k, hk, -⟩
          · rw [hkeep _ _ hs] at hown
            cases hown
            exact absurd hfp hne
          · cases hk
      | cons a before =>
          obtain ⟨rfl, rfl⟩ := List.cons.inj hsplit
          refine ⟨before, j, after, rfl, ?_⟩
          rcases hreuse with ⟨s, hs, hne⟩ | ⟨k, hk, hkey, hne⟩
          · exact .inl ⟨s, hkeep _ _ hs, hne⟩
          · rcases List.mem_cons.mp hk with rfl | hk
            · exact .inl ⟨r, hkey ▸ hown, hfp ▸ hne⟩
            · exact .inr ⟨k, hk, hkey, hne⟩

/-- The effects so far. -/
def PipelineWorld.Effects (calls : List ToolInvocation) (w : PipelineWorld) : Prop :=
  w.calls = calls ∧ w.jobs = []

/-- The execution has raised the conflict. -/
def Conflicts {α : Type} (r : Except PipelineError α) : Prop :=
  ∃ key, r = .error (.ledger (.idempotencyConflict key))

/-- Planning does nothing but plan, and ends in a conflict. -/
theorem safe_planAll {w : PipelineWorld} {calls : List ToolInvocation} (hw : w.Effects calls)
    (hL : LedgerOk w.ledger w.drawn) (seen : List String) {is : List ToolInvocation}
    (h : KeyReused w.ledger is) :
    Safe pipelineStep (fun w (_ : Unit) => w.Effects calls) Eq (fun _ _ => True)
      (fun r w _ => w.Effects calls ∧ Conflicts r) (planAll seen is) w () := by
  induction is generalizing seen w with
  | nil =>
      obtain ⟨before, j, after, hsplit, -⟩ := h
      cases before <;> cases hsplit
  | cons i is ih =>
      rintro w₁ R r w' rfl hinv hstep
      have heffects : w'.Effects calls := by
        obtain ⟨hcalls, hjobs⟩ := returns_calls hstep
        exact ⟨hcalls.trans hw.1, hjobs.trans hw.2⟩
      refine ⟨(), heffects, trivial, ?_⟩
      simp only [pipelineStep] at hstep
      rcases h.plan hL with hp | ⟨record, L', hp, hreused⟩
      · rw [hp] at hstep
        obtain ⟨rfl, rfl⟩ := Prod.mk.inj hstep
        exact ⟨heffects, _, rfl⟩
      · have hL' := hL.plan hp
        rw [hp] at hstep
        obtain ⟨rfl, rfl⟩ := Prod.mk.inj hstep
        show Safe _ _ _ _ _ ((planAll (record.operationId :: seen) is).bind _) _ _
        refine safe_bind (ih heffects hL' _ hreused) ?_
        rintro r w' - ⟨hw', key, rfl⟩
        exact ⟨hw', key, rfl⟩

/-- Planning comes to its end. -/
theorem planAll_runs {w : PipelineWorld} (hL : LedgerOk w.ledger w.drawn) (seen : List String)
    {is : List ToolInvocation} (h : KeyReused w.ledger is) :
    ∃ r w', Conflicts r ∧ Runs pipelineStep (planAll seen is) w r w' := by
  induction is generalizing seen w with
  | nil =>
      obtain ⟨before, j, after, hsplit, -⟩ := h
      cases before <;> cases hsplit
  | cons i is ih =>
      rcases h.plan hL with hp | ⟨record, L', hp, hreused⟩
      · refine ⟨_, { w with drawn := w.drawn + 1 }, ⟨i.idempotencyKey, rfl⟩, ?_⟩
        have hstep : pipelineStep w (.plan i) (.error (.idempotencyConflict i.idempotencyKey))
            { w with drawn := w.drawn + 1 } := by
          simp only [pipelineStep, hp]
          rfl
        exact .step hstep (.refl _ _)
      · have hstep : pipelineStep w (.plan i) (.ok record)
            { w with drawn := w.drawn + 1, ledger := L' } := by
          simp only [pipelineStep, hp]
          rfl
        obtain ⟨r, w', ⟨key, rfl⟩, hrun⟩ := @ih { w with drawn := w.drawn + 1, ledger := L' }
          (hL.plan hp) (record.operationId :: seen) hreused
        exact ⟨_, w', ⟨key, rfl⟩, .step hstep (hrun.bind _)⟩

/-- **A key that is used again for a different call raises before any effect.** -/
theorem execute_conflict {w : PipelineWorld} (hL : LedgerOk w.ledger w.drawn) (hjobs : w.jobs = [])
    {prepare : ToolRequest → Except PipelineError ToolInvocation} {requests : List ToolRequest}
    {invocations : List ToolInvocation} (hprep : requests.mapM prepare = .ok invocations)
    (hids : (invocations.map ToolInvocation.callId).Nodup) (h : KeyReused w.ledger invocations) :
    (∃ r w', Conflicts r ∧ Runs pipelineStep (execute prepare requests) w r w') ∧
      ∀ p w', Reaches pipelineStep (execute prepare requests) w p w' → w'.calls = w.calls ∧
        w'.jobs = [] ∧ ∀ r, p = .done r → Conflicts r := by
  have hexec : execute prepare requests = (do
      let planned ← planAll [] invocations
      runBatches planned (planBatches [] [] invocations)) := by
    unfold execute
    rw [hprep]
    exact if_neg (not_not.mpr hids)
  rw [hexec]
  constructor
  · obtain ⟨r, w', ⟨key, rfl⟩, hrun⟩ := planAll_runs hL [] h
    exact ⟨_, w', ⟨key, rfl⟩, hrun.bind _⟩
  · intro p w' hr
    have hall : Safe pipelineStep (fun w' (_ : Unit) => w'.Effects w.calls) Eq (fun _ _ => True)
        (fun r w' _ => w'.Effects w.calls ∧ Conflicts r)
        (planAll [] invocations >>= fun planned =>
          runBatches planned (planBatches [] [] invocations) :
            PipelineM (List (List SettledToolResult))) w () := by
      refine safe_bind (safe_planAll ⟨rfl, hjobs⟩ hL [] h) ?_
      rintro r w' - ⟨hw', key, rfl⟩
      exact ⟨hw', key, rfl⟩
    obtain ⟨_, hinv, hrest⟩ := hall.reaches ⟨rfl, hjobs⟩ (fun _ => rfl) hr
    refine ⟨hinv.1, hinv.2, ?_⟩
    rintro r rfl
    exact hrest.2

/-- **At most one effect for each key, across restarts.** -/
theorem session_calls {P : Pool pipelineInterface Unit PipelineWorld}
    (h : SessionRuns newSession P) :
    (∀ key, P.state.callCount key ≤ 1) ∧
    (∀ id r, P.state.ledger.records.lookup id = some r → r.state = .started →
      P.state.restarted.ledger.records.lookup id =
        some (r.lost "ledger reopened after an incomplete external operation") ∧
      ∀ P', SessionRuns ⟨P.state.restarted, [], []⟩ P' →
        P'.state.callCount r.idempotencyKey = P.state.callCount r.idempotencyKey) ∧
    ∀ prepare requests invocations, P.threads = [] → P.state.jobs = [] →
      requests.mapM prepare = .ok invocations →
      (invocations.map ToolInvocation.callId).Nodup → KeyReused P.state.ledger invocations →
      (∃ r w', Conflicts r ∧ Runs pipelineStep (execute prepare requests) P.state r w') ∧
      ∀ p w', Reaches pipelineStep (execute prepare requests) P.state p w' →
        w'.calls = P.state.calls ∧ w'.jobs = [] ∧ ∀ r, p = .done r → Conflicts r := by
  have hok := sessionOk_new.runs h
  have hcov := hok.covered
  refine ⟨fun key => hok.callCount_le key, ?_, ?_⟩
  · intro id r hlook hstate
    have hreopen := lookup_reopen hcov.ledger hok.durable hlook
    rw [if_pos hstate] at hreopen
    refine ⟨hreopen, ?_⟩
    intro P' hr
    have hnew := hok.step .kill
    refine callCount_spent hnew ?_ hr
    -- the unknown operation is found under its key
    have hfind : P.state.restarted.ledger.byIdempotencyKey r.idempotencyKey =
        some (r.lost "ledger reopened after an incomplete external operation") := by
      rw [hnew.covered.ledger.byIdempotencyKey_iff]
      have hid := Table.key_of_lookup hlook
      exact ⟨by rw [show (r.lost _).operationId = id from hid]; exact hreopen, rfl⟩
    rw [spent, hfind]
    rfl
  · intro prepare requests invocations _ hjobs hprep hids hreused
    exact execute_conflict hcov.ledger hjobs hprep hids hreused

/-! ### A process killed before its call -/

theorem sessionRuns_follow (P : Pool pipelineInterface Unit PipelineWorld) (schedule : List ℕ) :
    SessionRuns P (P.follow happyStep schedule) :=
  Relation.ReflTransGen.mono (fun _ _ hs => SessionStep.act hs) _ _
    (@Pool.follow_reachable _ _ _ executionRules happyStep P schedule)

/-- The execution has started its operation, and not called the tool. -/
def startedCharge : Pool pipelineInterface Unit PipelineWorld :=
  Pool.follow happyStep ⟨.start (.empty true) 0, [chargeOnce], []⟩ [0, 0, 0, 0]

/-- Another call under the same key. -/
def chargeOther : ToolInvocation :=
  { chargeCard with call := { name := "charge_card", args := [("amount", .int 2)] } }

theorem startedCharge_runs : SessionRuns newSession startedCharge :=
  .head (.execute rfl (fun _ => .ok chargeCard) [{ call := chargeCard.call, callId := "call-1" }])
    (sessionRuns_follow _ _)

/-- The next process finds the outcome unknown, does not call the tool, and refuses another call
under the key. -/
theorem startedCharge_restarted :
    (∃ r, startedCharge.state.restarted.ledger.records.lookup (newOperationId 0) = some r ∧
      r.state = .unknown) ∧
    (Pool.follow happyStep ⟨startedCharge.state.restarted, [chargeOnce], []⟩
      [0, 0, 0, 0]).state.callCount "order-7" = 0 ∧
    ∃ r w', Conflicts r ∧ Runs pipelineStep (execute (fun _ => .ok chargeOther)
      [{ call := chargeOther.call, callId := "call-1" }]) startedCharge.state.restarted r w' := by
  obtain ⟨r, hlook, hstate, hkey⟩ : ∃ r,
      startedCharge.state.ledger.records.lookup (newOperationId 0) = some r ∧ r.state = .started ∧
        r.idempotencyKey = "order-7" := ⟨_, rfl, by decide, by decide⟩
  obtain ⟨hreopen, hagain⟩ := (session_calls startedCharge_runs).2.1 _ r hlook hstate
  have hnext : SessionRuns ⟨startedCharge.state.restarted, [], []⟩ (Pool.follow happyStep
      ⟨startedCharge.state.restarted, [chargeOnce], []⟩ [0, 0, 0, 0]) :=
    .head (.execute rfl (fun _ => .ok chargeCard) [{ call := chargeCard.call, callId := "call-1" }])
      (sessionRuns_follow _ _)
  refine ⟨⟨_, hreopen, rfl⟩, ?_, ?_⟩
  · rw [← hkey, hagain _ hnext, hkey]
    decide
  · refine ((session_calls (.tail startedCharge_runs .kill)).2.2 _ _ [chargeOther] rfl rfl rfl
      (by decide) ?_).1
    exact ⟨[], chargeOther, [], rfl, .inl ⟨_, rfl, by decide⟩⟩

end CrazyHarness
