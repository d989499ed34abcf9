import CrazyHarness.Tools.Pipeline

/-! # Accounting for calls and starts

What a thread of the pipeline may do is written down as what it owns.  It owns, for each
idempotency key, the calls it may still make; for each operation, the right to start it; and,
once it has read the operation as planned, the knowledge that it still is.  `Covered` ties what
all threads own together to the ledger and to the calls made, and `does_execute`,
`does_workerJob` follow the code of the pipeline once for every way of running it.

There are two such ways.  Any number of executions may share a ledger; then a start may meet a
record that another one has started, unless this is excluded from outside.  When one execution
runs at a time (`solo`), nobody else has the right to start its operations. -/

namespace CrazyHarness

open Lib Program OperationLedger PipelineM

/-! ### Counting -/

/-- How often the registry was called for a key. -/
def PipelineWorld.callCount (w : PipelineWorld) (key : String) : ℕ :=
  w.calls.countP (fun i => i.idempotencyKey = key)

/-- One once the operation of the key has left the planned state. -/
def OperationLedger.spent (L : OperationLedger) (key : String) : ℕ :=
  match L.byIdempotencyKey key with
  | some r => if r.state = .planned then 0 else 1
  | none => 0

theorem spent_le_one (L : OperationLedger) (key : String) : L.spent key ≤ 1 := by
  unfold spent
  split
  · split <;> omega
  · omega

/-- How many jobs wait for a worker that will start the operation. -/
def PipelineWorld.waiting (w : PipelineWorld) (operationId : String) : ℕ :=
  w.jobs.countP (fun job => job.2.primary ∧ job.2.record.operationId = operationId)

/-- What threads own: calls for each key, starts for each operation, and operations they
know to be planned. -/
abbrev Rights := (String → ℕ) × (String → ℕ) × (String → ℕ)

namespace Rights

/-- A call for the key. -/
def call (key : String) : Rights := (Pi.single key 1, 0, 0)

/-- The start of the operation. -/
def start (operationId : String) : Rights := (0, Pi.single operationId 1, 0)

/-- The start of the operation, which is known to be planned. -/
def ready (operationId : String) : Rights := (0, 0, Pi.single operationId 1)

/-- The start of every operation. -/
def everyStart : Rights := (0, fun _ => 1, 0)

end Rights

/-- The first invocation of an operation may start it. -/
def PlannedInvocation.rights (p : PlannedInvocation) : Rights :=
  if p.primary then .start p.record.operationId else 0

/-! ### Growth of the ledger -/

/-- Records stay, with their key, and never become planned again. -/
def OperationLedger.Grows (L L' : OperationLedger) : Prop :=
  ∀ id r, L.records.lookup id = some r → ∃ r', L'.records.lookup id = some r' ∧
    r'.idempotencyKey = r.idempotencyKey ∧ (r.state ≠ .planned → r'.state ≠ .planned)

theorem OperationLedger.Grows.refl (L : OperationLedger) : L.Grows L := by
  intro id r h
  exact ⟨r, h, rfl, fun hs => hs⟩

theorem OperationLedger.Grows.trans {L L' L'' : OperationLedger} (h : L.Grows L') (h' : L'.Grows L'') :
    L.Grows L'' := by
  intro id r hr
  obtain ⟨r', hr', hk', hs'⟩ := h id r hr
  obtain ⟨r'', hr'', hk'', hs''⟩ := h' id r' hr'
  exact ⟨r'', hr'', hk''.trans hk', fun hs => hs'' (hs' hs)⟩

theorem grows_store {L : OperationLedger} {r : OperationRecord}
    (h : ∀ s, L.records.lookup r.operationId = some s →
      r.idempotencyKey = s.idempotencyKey ∧ (s.state ≠ .planned → r.state ≠ .planned)) :
    L.Grows (L.store r) := by
  intro id s hs
  simp only [OperationLedger.store, Table.lookup_upsert]
  split
  next hid =>
    subst hid
    exact ⟨r, rfl, h s hs⟩
  next => exact ⟨s, hs, rfl, fun hp => hp⟩

theorem grows_transition {L L' : OperationLedger} {operationId : String} {target : OperationState}
    {result : Option ToolResult} {error : Option String} {r : OperationRecord}
    (h : L.transition operationId target result error = .ok (r, L')) : L.Grows L' := by
  rcases transition_cases h with ⟨rfl, -, -⟩ | ⟨current, hcur, hallowed, rfl, rfl⟩
  · exact Grows.refl _
  · refine grows_store ?_
    intro s hs
    rw [show operationId = current.operationId from (Table.key_of_lookup hcur).symm] at hcur
    rw [hcur] at hs
    cases hs
    exact ⟨rfl, fun _ => not_planned_of_allowed hallowed⟩

/-- The identifier drawn for a new record is in no record yet. -/
theorem OperationLedger.LedgerOk.lookup_fresh {L : OperationLedger} {n : ℕ} (hL : LedgerOk L n)
    {r : OperationRecord} (hid : r.operationId = newOperationId n) :
    L.records.lookup r.operationId = none := by
  rw [Option.eq_none_iff_forall_ne_some]
  intro s hs
  obtain ⟨m, hm, heq⟩ := hL.drawn _ s hs
  have := newOperationId_inj.mp (hid.symm.trans heq)
  omega

theorem grows_plan {L L' : OperationLedger} {n : ℕ} {i : ToolInvocation} {r : OperationRecord}
    (hL : LedgerOk L n) (h : L.plan i (newOperationId n) = .ok (r, L')) : L.Grows L' := by
  rcases plan_cases h with ⟨rfl, -⟩ | ⟨-, hid, -, -, rfl⟩
  · exact Grows.refl _
  · refine grows_store ?_
    intro s hs
    rw [hL.lookup_fresh hid] at hs
    cases hs

theorem spent_le_of_grows {L L' : OperationLedger} {n n' : ℕ} (hL : LedgerOk L n)
    (hL' : LedgerOk L' n') (h : L.Grows L') (key : String) : L.spent key ≤ L'.spent key := by
  unfold spent
  split
  next r hr =>
    split
    next => exact Nat.zero_le _
    next hs =>
      obtain ⟨hlook, hk⟩ := hL.byIdempotencyKey_iff.mp hr
      obtain ⟨r', hlook', hk', hs'⟩ := h _ r hlook
      have hid := Table.key_of_lookup hlook'
      have hr' : L'.byIdempotencyKey key = some r' := by
        rw [hL'.byIdempotencyKey_iff, hid]
        exact ⟨hlook', hk'.trans hk⟩
      rw [hr']
      simp [hs' hs]
  next => exact Nat.zero_le _

/-- Planned records stay as they are. -/
def OperationLedger.KeepsPlanned (L L' : OperationLedger) : Prop :=
  ∀ id r, L.records.lookup id = some r → r.state = .planned → L'.records.lookup id = some r

theorem OperationLedger.KeepsPlanned.refl (L : OperationLedger) : L.KeepsPlanned L :=
  fun _ _ h _ => h

theorem keepsPlanned_plan {L L' : OperationLedger} {n : ℕ} {i : ToolInvocation} {r : OperationRecord}
    (hL : LedgerOk L n) (h : L.plan i (newOperationId n) = .ok (r, L')) : L.KeepsPlanned L' := by
  rcases plan_cases h with ⟨rfl, -⟩ | ⟨-, hid, -, -, rfl⟩
  · exact KeepsPlanned.refl _
  · intro id s hs _
    simp only [OperationLedger.store, Table.lookup_upsert]
    rw [if_neg]
    · exact hs
    · rintro rfl
      rw [hL.lookup_fresh hid] at hs
      cases hs

/-- Only `start` changes a planned record. -/
theorem keepsPlanned_transition {L L' : OperationLedger} {operationId : String}
    {target : OperationState} {result : Option ToolResult} {error : Option String}
    {r : OperationRecord} (h : L.transition operationId target result error = .ok (r, L'))
    (htarget : target ≠ .started) : L.KeepsPlanned L' := by
  rcases transition_cases h with ⟨rfl, -, -⟩ | ⟨current, hcur, hallowed, rfl, rfl⟩
  · exact KeepsPlanned.refl _
  · intro id s hs hstate
    simp only [OperationLedger.store, Table.lookup_upsert]
    rw [if_neg]
    · exact hs
    · intro hid
      rw [hid, Table.key_of_lookup hcur, hcur] at hs
      cases hs
      rw [hstate] at hallowed
      exact htarget (List.mem_singleton.mp hallowed)

/-! ### The invariant -/

/-- The record of a planned invocation is in the ledger, under the key of the invocation. -/
def PlannedInvocation.Filed (p : PlannedInvocation) (L : OperationLedger) : Prop :=
  ∃ r, L.records.lookup p.record.operationId = some r ∧
    r.idempotencyKey = p.invocation.idempotencyKey

theorem PlannedInvocation.Filed.grow {p : PlannedInvocation} {L L' : OperationLedger} (h : p.Filed L)
    (hg : L.Grows L') : p.Filed L' := by
  obtain ⟨r, hr, hk⟩ := h
  obtain ⟨r', hr', hk', -⟩ := hg _ r hr
  exact ⟨r', hr', hk'.trans hk⟩

/-- What is owned is covered.  For each key the calls made and owned are at most `cap`, and
none as long as its operation is planned.  A `solo` execution has each right to start once,
in a thread or in a waiting job. -/
structure PipelineWorld.Covered (solo : Prop) (cap : String → ℕ) (w : PipelineWorld)
    (owned : Rights) : Prop where
  ledger : LedgerOk w.ledger w.drawn
  covered : ∀ key, w.callCount key + owned.1 key ≤ w.ledger.spent key * cap key
  unspent : ∀ key, w.ledger.spent key = 0 → 1 ≤ cap key
  jobs : ∀ job ∈ w.jobs, job.2.Filed w.ledger
  exclusive : solo → ∀ id, owned.2.1 id + owned.2.2 id + w.waiting id ≤ 1
  ready : solo → ∀ id, 0 < owned.2.2 id →
    ∃ r, w.ledger.records.lookup id = some r ∧ r.state = .planned

/-- What a world may become while a thread is not looking. -/
def PipelineWorld.Grows (w w' : PipelineWorld) : Prop := w.ledger.Grows w'.ledger

/-- A start that meets a started record: another execution got there first. -/
def Restarts (w : PipelineWorld) : PipelineOp → Prop
  | .start operationId => ∃ r ∈ w.ledger.records.lookup operationId, r.state = .started
  | _ => False

instance (w : PipelineWorld) : DecidablePred (Restarts w)
  | .start operationId =>
      inferInstanceAs (Decidable (∃ r ∈ w.ledger.records.lookup operationId, r.state = .started))
  | .plan _ | .get _ | .succeed _ _ | .fail _ _ _ | .markUnknown _ _ | .cancelled | .onStarted _ _
  | .call _ | .submit _ | .await _ | .settle _ _ => isFalse (fun h => h)

/-- The steps of the pipeline; unless an execution is alone, those that start a started
operation again are left out. -/
def accountedStep (solo : Prop) (w : PipelineWorld) (op : PipelineOp)
    (r : pipelineInterface.Reply op) (w' : PipelineWorld) : Prop :=
  pipelineStep w op r w' ∧ (¬ solo → ¬ Restarts w op)

/-- Operations that neither start an operation nor call a tool nor hand over a job. -/
def PipelineOp.Quiet : PipelineOp → Prop
  | .start _ | .call _ | .submit _ => False
  | _ => True

section invariant

variable {solo : Prop} {cap : String → ℕ} {w w' : PipelineWorld} {owned : Rights}

theorem PipelineWorld.Covered.withLedger {L : OperationLedger} {n : ℕ} (h : w.Covered solo cap owned)
    (hL : LedgerOk L n) (hg : w.ledger.Grows L) (hp : w.ledger.KeepsPlanned L) :
    PipelineWorld.Covered solo cap { w with ledger := L, drawn := n } owned := by
  have hspent := spent_le_of_grows h.ledger hL hg
  exact
    { ledger := hL
      covered := by
        intro key
        exact (h.covered key).trans (Nat.mul_le_mul_right _ (hspent key))
      unspent := by
        intro key hkey
        exact h.unspent key (Nat.le_zero.mp ((hspent key).trans (le_of_eq hkey)))
      jobs := by
        intro job hjob
        exact (h.jobs job hjob).grow hg
      exclusive := h.exclusive
      ready := by
        intro hsolo id hid
        obtain ⟨r, hr, hstate⟩ := h.ready hsolo id hid
        exact ⟨r, hp id r hr hstate, hstate⟩ }

/-- A transition that starts nothing keeps the invariant. -/
theorem covered_returns {operationId : String} {target : OperationState} {result : Option ToolResult}
    {error : Option String} {r : Except LedgerError OperationRecord} (h : w.Covered solo cap owned)
    (htarget : target ≠ .started)
    (hs : (r, w') = w.returns (w.ledger.transition operationId target result error)) :
    w'.Covered solo cap owned ∧ w.Grows w' := by
  unfold PipelineWorld.returns at hs
  split at hs
  next out r L ht =>
    obtain ⟨rfl, rfl⟩ := Prod.mk.inj hs
    exact ⟨h.withLedger (h.ledger.transition ht) (grows_transition ht)
      (keepsPlanned_transition ht htarget), grows_transition ht⟩
  next =>
    obtain ⟨rfl, rfl⟩ := Prod.mk.inj hs
    exact ⟨h, Grows.refl _⟩

theorem covered_quiet {op : PipelineOp} {r : pipelineInterface.Reply op}
    (h : w.Covered solo cap owned) (hq : op.Quiet) (hs : pipelineStep w op r w') :
    w'.Covered solo cap owned ∧ w.Grows w' := by
  cases op with
  | plan i =>
      simp only [pipelineStep, PipelineWorld.returns] at hs
      split at hs
      next r L hp =>
        obtain ⟨rfl, rfl⟩ := Prod.mk.inj hs
        exact ⟨h.withLedger (h.ledger.plan hp) (grows_plan h.ledger hp)
          (keepsPlanned_plan h.ledger hp), grows_plan h.ledger hp⟩
      next =>
        obtain ⟨rfl, rfl⟩ := Prod.mk.inj hs
        exact ⟨h.withLedger (h.ledger.mono (Nat.le_succ _)) (Grows.refl _) (KeepsPlanned.refl _),
          Grows.refl _⟩
  | get operationId =>
      obtain ⟨-, rfl⟩ := hs
      exact ⟨h, Grows.refl _⟩
  | succeed operationId result => exact covered_returns h (by decide) hs
  | fail operationId error result => exact covered_returns h (by decide) hs
  | markUnknown operationId reason => exact covered_returns h (by decide) hs
  | cancelled =>
      cases hs
      exact ⟨h, Grows.refl _⟩
  | onStarted r i =>
      cases hs
      exact ⟨h, Grows.refl _⟩
  | await ticket =>
      obtain ⟨-, rfl⟩ := hs
      exact ⟨h, Grows.refl _⟩
  | settle ticket r =>
      cases hs
      exact ⟨⟨h.ledger, h.covered, h.unspent, h.jobs, h.exclusive, h.ready⟩, Grows.refl _⟩
  | start operationId => cases hq
  | call i => cases hq
  | submit job => cases hq

/-- An operation that is ready is not started: it is planned, or else nobody starts a started
one. -/
theorem PipelineWorld.Covered.not_started {operationId : String} {r : OperationRecord}
    (h : w.Covered solo cap (.ready operationId + owned))
    (hlic : ¬ solo → ¬ Restarts w (.start operationId))
    (hlook : w.ledger.records.lookup operationId = some r) : r.state ≠ .started := by
  intro hstate
  by_cases hsolo : solo
  · obtain ⟨s, hs, hplanned⟩ := h.ready hsolo operationId (by simp [Rights.ready])
    rw [hlook] at hs
    cases hs
    rw [hstate] at hplanned
    cases hplanned
  · exact hlic hsolo ⟨r, hlook, hstate⟩

/-- A started operation is spent. -/
theorem spent_store_started {L : OperationLedger} {n : ℕ} {r : OperationRecord}
    (h : LedgerOk (L.store r) n) (hstate : r.state ≠ .planned) :
    (L.store r).spent r.idempotencyKey = 1 := by
  have hfind : (L.store r).byIdempotencyKey r.idempotencyKey = some r := by
    rw [h.byIdempotencyKey_iff]
    exact ⟨Table.lookup_upsert_self _ _, rfl⟩
  rw [spent, hfind]
  exact if_neg hstate

/-- Starting a planned operation earns the call of its key. -/
theorem covered_start {operationId : String} {r : Except LedgerError OperationRecord}
    (h : w.Covered solo cap (.ready operationId + owned))
    (hs : accountedStep solo w (.start operationId) r w') :
    (∃ e, r = .error e ∧ w' = w) ∨
      ∃ record, r = .ok record ∧ w'.ledger.records.lookup operationId = some record ∧
        w'.Covered solo cap (.call record.idempotencyKey + owned) ∧ w.Grows w' := by
  obtain ⟨hstep, hlic⟩ := hs
  simp only [pipelineStep, PipelineWorld.returns, OperationLedger.start] at hstep
  split at hstep
  next record L ht =>
    obtain ⟨rfl, rfl⟩ := Prod.mk.inj hstep
    right
    refine ⟨record, rfl, ?_⟩
    rcases transition_cases ht with ⟨-, hlook, hstate⟩ | ⟨current, hcur, hallowed, rfl, rfl⟩
    · exact absurd hstate (h.not_started hlic hlook)
    · have hg := grows_transition ht
      have hok := h.ledger.transition ht
      have hid := Table.key_of_lookup hcur
      have hplanned : current.state = .planned := by
        cases hc : current.state <;> simp_all [OperationState.allowed]
      refine ⟨hid ▸ Table.lookup_upsert_self _ _, ?_, hg⟩
      have hspent := spent_le_of_grows h.ledger hok hg
      -- before the start nothing was spent on this key
      have hbefore : w.ledger.spent current.idempotencyKey = 0 := by
        have hfind : w.ledger.byIdempotencyKey current.idempotencyKey = some current := by
          rw [h.ledger.byIdempotencyKey_iff, hid]
          exact ⟨hcur, rfl⟩
        simp [spent, hfind, hplanned]
      have hafter := spent_store_started hok (by simp)
      exact
        { ledger := hok
          covered := by
            intro key
            have hcov := h.covered key
            have hcount : ∀ L, PipelineWorld.callCount { w with ledger := L } key = w.callCount key :=
              fun _ => rfl
            simp only [Rights.ready, Rights.call, Prod.fst_add, Pi.add_apply, Pi.zero_apply,
              zero_add] at hcov ⊢
            rw [hcount]
            by_cases hk : key = current.idempotencyKey
            · subst hk
              have hcap := h.unspent _ hbefore
              rw [hbefore, Nat.zero_mul] at hcov
              dsimp only at hafter ⊢
              rw [hafter, Pi.single_eq_same]
              omega
            · rw [Pi.single_eq_of_ne hk, zero_add]
              exact hcov.trans (Nat.mul_le_mul_right _ (hspent key))
          unspent := by
            intro key hkey
            exact h.unspent key (Nat.le_zero.mp ((hspent key).trans (le_of_eq hkey)))
          jobs := by
            intro job hjob
            exact (h.jobs job hjob).grow hg
          exclusive := by
            intro hsolo id
            have hex : _ + _ + w.waiting id ≤ 1 := h.exclusive hsolo id
            simp only [Rights.ready, Rights.call, Prod.snd_add, Prod.fst_add, Pi.add_apply,
              Pi.zero_apply, zero_add] at hex ⊢
            show _ + _ + w.waiting id ≤ 1
            omega
          ready := by
            intro hsolo id hready
            simp only [Rights.call, Prod.snd_add, Pi.add_apply, Pi.zero_apply, zero_add] at hready
            have hex := h.exclusive hsolo id
            obtain ⟨s, hs, hstate⟩ := h.ready hsolo id (by
              simp only [Rights.ready, Prod.snd_add, Pi.add_apply]
              omega)
            have hne : id ≠ operationId := by
              rintro rfl
              simp only [Rights.ready, Prod.snd_add, Pi.add_apply, Pi.single_eq_same] at hex
              omega
            refine ⟨s, ?_, hstate⟩
            simp only [OperationLedger.store, Table.lookup_upsert]
            rw [if_neg (fun heq => hne (heq.trans hid))]
            exact hs }
  next e ht =>
    obtain ⟨rfl, rfl⟩ := Prod.mk.inj hstep
    exact .inl ⟨e, rfl, rfl⟩

/-- A call spends the right to it. -/
theorem covered_call {i : ToolInvocation} (h : w.Covered solo cap (.call i.idempotencyKey + owned)) :
    (w.called i).Covered solo cap owned where
  ledger := h.ledger
  covered := by
    intro key
    have hcov := h.covered key
    have hcount : (w.called i).callCount key =
        w.callCount key + if i.idempotencyKey = key then 1 else 0 := by
      simp [PipelineWorld.callCount, PipelineWorld.called, List.countP_cons]
    rw [hcount]
    simp only [Rights.call, Prod.fst_add, Pi.add_apply, Pi.single_apply, eq_comm (a := key)] at hcov
    show _ ≤ w.ledger.spent key * cap key
    omega
  unspent := h.unspent
  jobs := h.jobs
  exclusive := by
    intro hsolo id
    have hex := h.exclusive hsolo id
    simp only [Rights.call, Prod.snd_add, Prod.fst_add, Pi.add_apply, Pi.zero_apply, zero_add] at hex
    exact hex
  ready := by
    intro hsolo id hid
    refine h.ready hsolo id ?_
    simp only [Rights.call, Prod.snd_add, Pi.add_apply, Pi.zero_apply, zero_add]
    exact hid

/-- The right to a start goes with the job. -/
theorem covered_submit {job : PlannedInvocation} (h : w.Covered solo cap (job.rights + owned))
    (hjob : job.Filed w.ledger) : (w.submitted job).Covered solo cap owned where
  ledger := h.ledger
  covered := by
    intro key
    have hcov := h.covered key
    simp only [Prod.fst_add, Pi.add_apply] at hcov
    show w.callCount key + _ ≤ w.ledger.spent key * cap key
    omega
  unspent := h.unspent
  jobs := by
    intro j hj
    rcases List.mem_cons.mp hj with rfl | hj
    · exact hjob
    · exact h.jobs j hj
  exclusive := by
    intro hsolo id
    have hex := h.exclusive hsolo id
    have hwait : (w.submitted job).waiting id = w.waiting id + job.rights.2.1 id := by
      unfold PipelineWorld.waiting PipelineWorld.submitted PlannedInvocation.rights
      rw [List.countP_cons]
      cases hp : job.primary with
      | false => simp
      | true => simp [Rights.start, Pi.single_apply, eq_comm (a := id)]
    rw [hwait]
    simp only [Prod.snd_add, Prod.fst_add, Pi.add_apply] at hex
    omega
  ready := by
    intro hsolo id hid
    refine h.ready hsolo id ?_
    simp only [Prod.snd_add, Pi.add_apply]
    omega

/-- Reading that an operation is planned makes its start ready. -/
theorem PipelineWorld.Covered.readied {operationId : String} {r : OperationRecord}
    (h : w.Covered solo cap (.start operationId + owned))
    (hlook : w.ledger.records.lookup operationId = some r) (hstate : r.state = .planned) :
    w.Covered solo cap (.ready operationId + owned) where
  ledger := h.ledger
  covered := h.covered
  unspent := h.unspent
  jobs := h.jobs
  exclusive := by
    intro hsolo id
    have hex := h.exclusive hsolo id
    simp only [Rights.start, Rights.ready, Prod.snd_add, Prod.fst_add, Pi.add_apply, Pi.zero_apply,
      zero_add] at hex ⊢
    omega
  ready := by
    intro hsolo id hid
    by_cases hne : id = operationId
    · subst hne
      exact ⟨r, hlook, hstate⟩
    · refine h.ready hsolo id ?_
      simp only [Rights.start, Rights.ready, Prod.snd_add, Pi.add_apply, Pi.zero_apply, zero_add,
        Pi.single_eq_of_ne hne] at hid ⊢
      exact hid

/-- What a thread owns can be dropped. -/
theorem PipelineWorld.Covered.drop {m : Rights} (h : w.Covered solo cap (m + owned)) :
    w.Covered solo cap owned where
  ledger := h.ledger
  covered := by
    intro key
    have hcov := h.covered key
    simp only [Prod.fst_add, Pi.add_apply] at hcov
    omega
  unspent := h.unspent
  jobs := h.jobs
  exclusive := by
    intro hsolo id
    have hex := h.exclusive hsolo id
    simp only [Prod.snd_add, Prod.fst_add, Pi.add_apply] at hex
    omega
  ready := by
    intro hsolo id hid
    refine h.ready hsolo id ?_
    simp only [Prod.snd_add, Pi.add_apply]
    omega

end invariant

/-! ### The programs -/

/-- From `w` on and owning `owned` the code keeps the invariant, and a value it returns has
`Q`; nothing is said of the exceptions it may raise. -/
def Does (solo : Prop) (cap : String → ℕ) {α : Type} (Q : α → PipelineWorld → Rights → Prop)
    (p : PipelineM α) (w : PipelineWorld) (owned : Rights) : Prop :=
  Program.Safe (accountedStep solo) (PipelineWorld.Covered solo cap) PipelineWorld.Grows
    PipelineWorld.Grows (fun r w owned => ∀ a, r = .ok a → Q a w owned) p w owned

section rules

variable {solo : Prop} {cap : String → ℕ} {α β : Type} {Q : α → PipelineWorld → Rights → Prop}
  {Q' : β → PipelineWorld → Rights → Prop} {w : PipelineWorld} {owned : Rights}

theorem does_pure {a : α} (h : Q a w owned) : Does solo cap Q (pure a) w owned := by
  intro b hb
  cases hb
  exact h

theorem does_throw (e : PipelineError) : Does solo cap Q (throw e) w owned := by
  intro b hb
  cases hb

theorem does_bind {p : PipelineM α} {f : α → PipelineM β} (h : Does solo cap Q p w owned)
    (hf : ∀ a w' owned', w.Grows w' → Q a w' owned' → Does solo cap Q' (f a) w' owned') :
    Does solo cap Q' (p >>= f) w owned := by
  refine safe_bind (h.grown (fun w => Grows.refl w.ledger) Grows.trans) ?_
  intro r w' owned' hr
  cases r with
  | ok a => exact hf a w' owned' hr.1 (hr.2 a rfl)
  | error e => exact does_throw e

theorem does_handle {p : PipelineM α} {handler : PipelineError → PipelineM α}
    (h : Does solo cap Q p w owned) (hh : ∀ e w' owned', Does solo cap Q (handler e) w' owned') :
    Does solo cap Q (handle p handler) w owned := by
  refine safe_bind h ?_
  intro r w' owned' hr
  cases r with
  | ok a => exact does_pure (hr a rfl)
  | error e => exact hh e w' owned'

theorem Does.weaken {Q₂ : α → PipelineWorld → Rights → Prop} {p : PipelineM α}
    (h : Does solo cap Q p w owned) (hQ : ∀ a w owned, Q a w owned → Q₂ a w owned) :
    Does solo cap Q₂ p w owned := by
  refine Safe.weaken h ?_
  intro r w owned hr a ha
  exact hQ a w owned (hr a ha)

/-- What the code does not need it still owns in the end. -/
theorem Does.frame {p : PipelineM α} (h : Does solo cap Q p w owned) (f : Rights) :
    Does solo cap (fun a w' owned' => ∃ m, owned' = m + f ∧ Q a w' m) p w (owned + f) := by
  refine Safe.weaken (Safe.frame h f) ?_
  rintro r w' owned' ⟨m, rfl, hr⟩ a ha
  exact ⟨m, rfl, hr a ha⟩

/-- Code that needs nothing leaves what is owned. -/
theorem Does.keeps {P : α → PipelineWorld → Prop} {p : PipelineM α}
    (h : Does solo cap (fun a w' owned' => owned' = 0 ∧ P a w') p w 0) (owned : Rights) :
    Does solo cap (fun a w' owned' => owned' = owned ∧ P a w') p w owned := by
  have hframe := h.frame owned
  rw [zero_add] at hframe
  refine hframe.weaken ?_
  rintro a w' owned' ⟨m, rfl, rfl, ha⟩
  exact ⟨zero_add _, ha⟩

/-- Code may own more than it needs. -/
theorem Does.owning {P : α → PipelineWorld → Prop} {p : PipelineM α}
    (h : Does solo cap (fun a w' _ => P a w') p w owned) (more : Rights) :
    Does solo cap (fun a w' _ => P a w') p w (more + owned) := by
  rw [add_comm]
  refine (h.frame more).weaken ?_
  rintro a w' _ ⟨m, -, ha⟩
  exact ha

/-- One quiet operation: it was made in a world `w₁` that grew from `w`. -/
theorem safe_quiet {op : PipelineOp} {f : pipelineInterface.Reply op → PipelineM β} (hq : op.Quiet)
    (hf : ∀ r w₁ w', w.Grows w₁ → LedgerOk w₁.ledger w₁.drawn → pipelineStep w₁ op r w' →
      Does solo cap Q' (f r) w' owned) : Does solo cap Q' ((ask op).bind f) w owned := by
  intro w₁ R r w' hgrow hinv hstep
  obtain ⟨hcov, hgrow'⟩ := covered_quiet hinv hq hstep.1
  exact ⟨owned, hcov, hgrow', hf r w₁ w' hgrow hinv.ledger hstep.1⟩

theorem does_plan (i : ToolInvocation) :
    Does solo cap (fun r w' owned' => owned' = 0 ∧
      ∀ primary, PlannedInvocation.Filed ⟨i, r, primary⟩ w'.ledger) (PipelineM.plan i) w 0 := by
  have hq : PipelineOp.Quiet (.plan i) := trivial
  refine safe_quiet hq ?_
  intro r w₁ w' _ hok hstep
  simp only [pipelineStep, PipelineWorld.returns] at hstep
  split at hstep
  next record L hp =>
    obtain ⟨rfl, rfl⟩ := Prod.mk.inj hstep
    refine does_pure ⟨rfl, ?_⟩
    intro primary
    rcases plan_cases hp with ⟨rfl, hkey⟩ | ⟨-, -, hk, -, rfl⟩
    · obtain ⟨hlook, hk⟩ := hok.byIdempotencyKey_iff.mp hkey
      exact ⟨record, hlook, hk⟩
    · exact ⟨record, Table.lookup_upsert_self _ _, hk⟩
  next =>
    obtain ⟨rfl, rfl⟩ := Prod.mk.inj hstep
    exact does_throw _

theorem does_get (operationId : String) :
    Does solo cap (fun r _ _ => r.operationId = operationId) (PipelineM.get operationId) w owned := by
  have hq : PipelineOp.Quiet (.get operationId) := trivial
  refine safe_quiet hq ?_
  rintro (e | r) w₁ w' - - ⟨hr, -⟩
  · exact does_throw _
  · exact does_pure (Table.key_of_lookup (get_ok_iff.mp hr.symm))

/-- Who may start an operation and reads that it is planned is ready to. -/
theorem does_get_ready (operationId : String) :
    Does solo cap (fun r _ owned' => r.operationId = operationId ∧
      (r.state = .planned → owned' = .ready operationId)) (PipelineM.get operationId) w
      (.start operationId) := by
  intro w₁ R r w' _ hinv hstep
  obtain ⟨⟨hr, rfl⟩, -⟩ := hstep
  cases r with
  | error e => exact ⟨.start operationId, hinv, Grows.refl _, does_throw _⟩
  | ok r =>
      have hlook := get_ok_iff.mp hr.symm
      have hid := Table.key_of_lookup hlook
      by_cases hstate : r.state = .planned
      · exact ⟨.ready operationId, hinv.readied hlook hstate, Grows.refl _,
          does_pure ⟨hid, fun _ => rfl⟩⟩
      · exact ⟨.start operationId, hinv, Grows.refl _,
          does_pure ⟨hid, fun h => absurd h hstate⟩⟩

theorem does_raiseIfDispatchCancelled :
    Does solo cap (fun _ _ owned' => owned' = owned) raiseIfDispatchCancelled w owned := by
  have hq : PipelineOp.Quiet .cancelled := trivial
  refine safe_quiet hq ?_
  rintro (_ | _) w₁ w' - - -
  · exact does_pure rfl
  · exact does_throw _

/-- Recording how an operation ended needs no right. -/
theorem does_record {op : PipelineOp} {f : pipelineInterface.Reply op → PipelineM β} (hq : op.Quiet)
    (hf : ∀ r, (∃ b, f r = pure b) ∨ ∃ e, f r = throw e) :
    Does solo cap (fun _ _ _ => True) ((ask op).bind f) w owned := by
  refine safe_quiet hq ?_
  intro r w₁ w' _ _ _
  rcases hf r with ⟨b, hb⟩ | ⟨e, he⟩
  · rw [hb]
    exact does_pure trivial
  · rw [he]
    exact does_throw e

theorem ofLedger_ends (r : Except LedgerError OperationRecord) :
    (∃ record, (match r with
        | .ok r => .done (.ok r)
        | .error e => .done (.error (.ledger e)) : PipelineM OperationRecord) = pure record) ∨
      ∃ e, (match r with
        | .ok r => .done (.ok r)
        | .error e => .done (.error (.ledger e)) : PipelineM OperationRecord) = throw e := by
  cases r with
  | ok record => exact .inl ⟨record, rfl⟩
  | error e => exact .inr ⟨.ledger e, rfl⟩

theorem does_succeed (operationId : String) (result : ToolResult) :
    Does solo cap (fun _ _ _ => True) (PipelineM.succeed operationId result) w owned :=
  have hq : PipelineOp.Quiet (.succeed operationId result) := trivial
  does_record hq ofLedger_ends

theorem does_fail (operationId error : String) (result : Option ToolResult) :
    Does solo cap (fun _ _ _ => True) (PipelineM.fail operationId error result) w owned :=
  have hq : PipelineOp.Quiet (.fail operationId error result) := trivial
  does_record hq ofLedger_ends

theorem does_markUnknown (operationId reason : String) :
    Does solo cap (fun _ _ _ => True) (PipelineM.markUnknown operationId reason) w owned :=
  have hq : PipelineOp.Quiet (.markUnknown operationId reason) := trivial
  does_record hq ofLedger_ends

/-- The one call of an operation that this thread has started. -/
theorem does_call (i : ToolInvocation) :
    Does solo cap (fun _ _ _ => True) (PipelineM.call i) w (.call i.idempotencyKey) := by
  intro w₁ R r w' _ hinv hstep
  obtain ⟨rfl, -⟩ := hstep
  refine ⟨0, ?_, Grows.refl _, does_pure trivial⟩
  rw [zero_add]
  exact covered_call hinv

theorem does_callAndRecord (i : ToolInvocation) (operationId : String) :
    Does solo cap (fun _ _ _ => True) (callAndRecord i operationId) w (.call i.idempotencyKey) := by
  unfold callAndRecord
  refine does_bind does_raiseIfDispatchCancelled ?_
  rintro - w' owned' - rfl
  refine does_bind (does_call i) ?_
  intro outcome w₂ owned₂ _ _
  cases outcome with
  | cancelled => exact does_throw _
  | outcomeUnknown message =>
      exact does_bind (does_markUnknown operationId message) (fun _ _ _ _ _ => does_pure trivial)
  | raised message =>
      exact does_bind (does_fail operationId message none) (fun _ _ _ _ _ => does_pure trivial)
  | returned result =>
      dsimp only
      split
      · exact does_bind (does_succeed operationId result) (fun _ _ _ _ _ => does_pure trivial)
      · exact does_bind (does_fail operationId _ _) (fun _ _ _ _ _ => does_pure trivial)

/-- Starting the operation of a planned invocation earns its call. -/
theorem does_startOperation {p : PlannedInvocation} (hp : p.Filed w.ledger) :
    Does solo cap (fun started _ owned' => started ≠ none →
        owned' = .call p.invocation.idempotencyKey)
      (startOperation p.invocation p.record.operationId) w (.ready p.record.operationId) := by
  intro w₁ R r w' hgrow hinv hstep
  obtain ⟨record₁, hlook₁, hk₁⟩ := hp.grow hgrow
  rcases covered_start hinv hstep with ⟨e, rfl, rfl⟩ | ⟨record, rfl, hlook, hcov, hgrow'⟩
  · refine ⟨_, hinv, Grows.refl _, ?_⟩
    cases e with
    | transition s t => exact does_pure (fun h => absurd rfl h)
    | _ => exact does_throw _
  · obtain ⟨record', hlook', hk', -⟩ := hgrow' _ _ hlook₁
    have hkey : record.idempotencyKey = p.invocation.idempotencyKey := by
      rw [hlook] at hlook'
      cases hlook'
      exact hk'.trans hk₁
    rw [hkey] at hcov
    refine ⟨_, hcov, hgrow', ?_⟩
    have hq : PipelineOp.Quiet (.onStarted record p.invocation) := trivial
    refine safe_quiet hq ?_
    rintro (_ | _ | e) w₂ w₃ - - -
    · exact does_pure (fun _ => rfl)
    · exact does_pure (fun h => absurd rfl h)
    · exact does_throw _

theorem does_executeOne {p : PlannedInvocation} (hp : p.Filed w.ledger) :
    Does solo cap (fun _ _ _ => True) (executeOne p) w p.rights := by
  unfold executeOne
  refine does_bind does_raiseIfDispatchCancelled ?_
  rintro - w₁ owned₁ hg₁ rfl
  cases hprimary : p.primary with
  | false => exact does_bind (does_get _) (fun _ _ _ _ _ => does_pure trivial)
  | true =>
      rw [PlannedInvocation.rights, if_pos hprimary]
      refine does_bind (does_get_ready _) ?_
      rintro record w₂ owned₂ hg₂ ⟨hid, hready⟩
      simp only [Bool.not_true, Bool.false_eq_true, if_false]
      split
      next hplanned =>
        rw [hready hplanned, hid]
        refine does_bind (does_startOperation ((hp.grow hg₁).grow hg₂)) ?_
        intro started w₃ owned₃ _ hstarted
        cases started with
        | none => exact does_bind (does_get _) (fun _ _ _ _ _ => does_pure trivial)
        | some record =>
            rw [hstarted (Option.some_ne_none record)]
            exact does_callAndRecord _ _
      next =>
        split
        · exact does_bind (does_markUnknown _ _) (fun _ _ _ _ _ => does_pure trivial)
        · exact does_pure trivial

theorem does_settled {p : PlannedInvocation} (hp : p.Filed w.ledger) :
    Does solo cap (fun _ _ _ => True) (settled p) w p.rights := by
  refine does_handle (does_executeOne hp) ?_
  intro e w' owned'
  cases e with
  | dispatchCancelled => exact does_throw _
  | _ => exact does_pure trivial

/-- The planned invocations, in order; of each operation at most one is primary, and none of
an operation seen before. -/
def PlannedFor (seen : List String) (is : List ToolInvocation) (ps : List PlannedInvocation) : Prop :=
  ps.map PlannedInvocation.invocation = is ∧
    ∃ rest, Rights.everyStart = (ps.map PlannedInvocation.rights).sum + rest ∧
      ∀ id ∈ seen, rest.2.1 id = 1

theorem plannedFor_cons {seen : List String} {i : ToolInvocation} {is : List ToolInvocation}
    {record : OperationRecord} {ps : List PlannedInvocation}
    (h : PlannedFor (record.operationId :: seen) is ps) :
    PlannedFor seen (i :: is) (⟨i, record, record.operationId ∉ seen⟩ :: ps) := by
  obtain ⟨hmap, rest, hsum, hseen⟩ := h
  refine ⟨by rw [List.map_cons, hmap], ?_⟩
  by_cases hmem : record.operationId ∈ seen
  · refine ⟨rest, ?_, ?_⟩
    · simpa [PlannedInvocation.rights, hmem] using hsum
    · intro id hid
      exact hseen id (List.mem_cons_of_mem _ hid)
  · -- the right to start this operation is taken from what was left over
    have hone := hseen record.operationId List.mem_cons_self
    refine ⟨(rest.1, fun id => rest.2.1 id - (Pi.single record.operationId 1 : String → ℕ) id,
      rest.2.2), ?_, ?_⟩
    · rw [hsum]
      simp only [PlannedInvocation.rights, hmem, List.map_cons, List.sum_cons, not_false_eq_true,
        decide_true, if_true]
      refine Prod.ext ?_ (Prod.ext ?_ ?_)
      · simp [Rights.start]
      · funext id
        simp only [Rights.start, Prod.snd_add, Prod.fst_add, Pi.add_apply]
        by_cases hid : id = record.operationId
        · subst hid
          rw [Pi.single_eq_same, hone]
          omega
        · rw [Pi.single_eq_of_ne hid]
          omega
      · simp [Rights.start]
    · intro id hid
      have hne : id ≠ record.operationId := fun heq => hmem (heq ▸ hid)
      simp only [Pi.single_eq_of_ne hne, Nat.sub_zero]
      exact hseen id (List.mem_cons_of_mem _ hid)

theorem does_planAll (seen : List String) (is : List ToolInvocation) :
    Does solo cap (fun ps w' owned' => owned' = 0 ∧ PlannedFor seen is ps ∧
      ∀ p ∈ ps, p.Filed w'.ledger) (planAll seen is) w 0 := by
  induction is generalizing seen w with
  | nil =>
      refine does_pure ⟨rfl, ⟨rfl, .everyStart, (zero_add _).symm, fun _ _ => rfl⟩, ?_⟩
      intro p hp
      cases hp
  | cons i is ih =>
      unfold planAll
      refine does_bind (does_plan i) ?_
      rintro record w₁ owned₁ - ⟨rfl, hrecord⟩
      refine does_bind (ih _) ?_
      rintro rest w₂ owned₂ hg₂ ⟨rfl, hplanned, hrest⟩
      refine does_pure ⟨rfl, plannedFor_cons hplanned, ?_⟩
      intro p hp
      rcases List.mem_cons.mp hp with rfl | hp
      · exact (hrecord _).grow hg₂
      · exact hrest p hp

/-- The rights of a list of planned invocations. -/
def rightsOf (ps : List PlannedInvocation) : Rights := (ps.map PlannedInvocation.rights).sum

theorem rightsOf_cons (p : PlannedInvocation) (ps : List PlannedInvocation) :
    rightsOf (p :: ps) = p.rights + rightsOf ps := by
  rw [rightsOf, List.map_cons, List.sum_cons, rightsOf]

theorem rightsOf_append (ps qs : List PlannedInvocation) :
    rightsOf (ps ++ qs) = rightsOf ps + rightsOf qs := by
  rw [rightsOf, List.map_append, List.sum_append, rightsOf, rightsOf]

theorem does_submitAll {ps : List PlannedInvocation} (hps : ∀ p ∈ ps, p.Filed w.ledger) :
    Does solo cap (fun _ _ _ => True) (submitAll ps) w (rightsOf ps) := by
  induction ps generalizing w with
  | nil => exact does_pure trivial
  | cons p ps ih =>
      unfold submitAll
      rw [rightsOf_cons]
      refine @does_bind _ _ _ _ (fun _ _ owned' => owned' = rightsOf ps) _ _ _ _ _ ?_ ?_
      · intro w₁ R ticket w' hgrow hinv hstep
        obtain ⟨⟨rfl, rfl⟩, -⟩ := hstep
        have hfiled : p.Filed w₁.ledger := (hps p List.mem_cons_self).grow hgrow
        rw [add_assoc] at hinv
        exact ⟨rightsOf ps, covered_submit hinv hfiled, Grows.refl _, does_pure rfl⟩
      · rintro ticket w₁ owned₁ hg₁ rfl
        refine does_bind (ih ?_) (fun _ _ _ _ _ => does_pure trivial)
        intro q hq
        exact (hps q (List.mem_cons_of_mem p hq)).grow hg₁

theorem does_awaitAll (tickets : List ℕ) :
    Does solo cap (fun _ _ _ => True) (awaitAll tickets) w owned := by
  induction tickets generalizing w owned with
  | nil => exact does_pure trivial
  | cons ticket tickets ih =>
      unfold awaitAll
      refine @does_bind _ _ _ _ (fun _ _ _ => True) _ _ _ _ _ ?_ ?_
      · intro w₁ R r w' _ hinv hstep
        obtain ⟨⟨-, rfl⟩, -⟩ := hstep
        exact ⟨owned, hinv, Grows.refl _, fun _ _ => trivial⟩
      · intro r w₁ owned₁ _ _
        exact does_bind ih (fun _ _ _ _ _ => does_pure trivial)

theorem does_settleAll {ps : List PlannedInvocation} (hps : ∀ p ∈ ps, p.Filed w.ledger) :
    Does solo cap (fun _ _ _ => True) (settleAll ps) w (rightsOf ps) := by
  induction ps generalizing w with
  | nil => exact does_pure trivial
  | cons p ps ih =>
      unfold settleAll
      rw [rightsOf_cons]
      refine does_bind ((does_settled (hps p List.mem_cons_self)).frame _) ?_
      rintro r w₁ owned₁ hg₁ ⟨m, rfl, -⟩
      have hrest : ∀ q ∈ ps, q.Filed w₁.ledger := by
        intro q hq
        exact (hps q (List.mem_cons_of_mem p hq)).grow hg₁
      exact does_bind ((ih hrest).owning m) (fun _ _ _ _ _ => does_pure trivial)

theorem does_executeAllSettled {ps : List PlannedInvocation} (hps : ∀ p ∈ ps, p.Filed w.ledger)
    (concurrent : Bool) :
    Does solo cap (fun _ _ _ => True) (executeAllSettled concurrent ps) w (rightsOf ps) := by
  unfold executeAllSettled
  split
  · exact does_bind (does_submitAll hps) (fun tickets _ _ _ _ => does_awaitAll tickets)
  · exact does_settleAll hps

theorem mem_plannedOf {planned : List PlannedInvocation} {calls : List ToolInvocation}
    {p : PlannedInvocation} (h : p ∈ plannedOf planned calls) : p ∈ planned := by
  obtain ⟨i, _, hi⟩ := List.mem_filterMap.mp h
  exact List.mem_of_find?_eq_some hi

theorem does_runBatches {planned : List PlannedInvocation} (hp : ∀ p ∈ planned, p.Filed w.ledger)
    (batches : List ExecutionBatch) :
    Does solo cap (fun _ _ _ => True) (runBatches planned batches) w
      (rightsOf (plannedOf planned (batches.flatMap ExecutionBatch.calls))) := by
  induction batches generalizing w with
  | nil => exact does_pure trivial
  | cons batch batches ih =>
      unfold runBatches
      have hcalls : ∀ p ∈ plannedOf planned batch.calls, p.Filed w.ledger := by
        intro p hmem
        exact hp p (mem_plannedOf hmem)
      have hsplit : plannedOf planned ((batch :: batches).flatMap ExecutionBatch.calls) =
          plannedOf planned batch.calls ++
            plannedOf planned (batches.flatMap ExecutionBatch.calls) := by
        rw [List.flatMap_cons, plannedOf, List.filterMap_append]
        rfl
      rw [hsplit, rightsOf_append]
      refine does_bind ((does_executeAllSettled hcalls batch.concurrent).frame _) ?_
      rintro results w₁ owned₁ hg₁ ⟨m, rfl, -⟩
      have hrest : ∀ p ∈ planned, p.Filed w₁.ledger := by
        intro p hmem
        exact (hp p hmem).grow hg₁
      exact does_bind ((ih hrest).owning m) (fun _ _ _ _ _ => does_pure trivial)

/-- Every invocation is in one batch, in order. -/
theorem calls_planBatches (batches : List ExecutionBatch) (segment calls : List ToolInvocation) :
    (planBatches batches segment calls).flatMap ExecutionBatch.calls =
      batches.flatMap ExecutionBatch.calls ++ segment ++ calls := by
  have hflush : ∀ (batches : List ExecutionBatch) segment,
      (flushSafeSegment batches segment).flatMap ExecutionBatch.calls =
        batches.flatMap ExecutionBatch.calls ++ segment := by
    intro batches segment
    unfold flushSafeSegment
    split
    next h => simp_all
    next => simp
  induction calls generalizing batches segment with
  | nil => rw [planBatches, hflush, List.append_nil]
  | cons call calls ih =>
      unfold planBatches
      split
      · rw [ih]
        simp
      · rw [ih, List.flatMap_append, hflush]
        simp

/-- With different call ids each invocation finds its own record. -/
theorem plannedOf_self {ps : List PlannedInvocation}
    (h : (ps.map (fun p => p.invocation.callId)).Nodup) :
    plannedOf ps (ps.map PlannedInvocation.invocation) = ps := by
  have hfind : ∀ p ∈ ps, ps.find? (fun q => q.invocation.callId = p.invocation.callId) = some p := by
    intro p hp
    cases hf : ps.find? (fun q => q.invocation.callId = p.invocation.callId) with
    | none => exact absurd (List.find?_eq_none.mp hf p hp) (by simp)
    | some q =>
        have hq := List.find?_some hf
        rw [List.inj_on_of_nodup_map h (List.mem_of_find?_eq_some hf) hp (of_decide_eq_true hq)]
  unfold plannedOf
  rw [List.filterMap_map, List.filterMap_congr (g := some), List.filterMap_some]
  intro p hp
  exact hfind p hp

theorem does_execute (prepare : ToolRequest → Except PipelineError ToolInvocation)
    (requests : List ToolRequest) :
    Does solo cap (fun _ _ _ => True) (execute prepare requests) w .everyStart := by
  unfold execute
  split
  next e _ => exact does_throw e
  next invocations _ =>
    split
    next => exact does_throw _
    next hnodup =>
      refine does_bind ((does_planAll [] invocations).keeps .everyStart) ?_
      rintro planned w₁ owned₁ - ⟨rfl, ⟨rfl, rest, hsum, -⟩, hplanned⟩
      have hself : plannedOf planned (planBatches [] []
          (planned.map PlannedInvocation.invocation) |>.flatMap ExecutionBatch.calls) = planned := by
        rw [calls_planBatches]
        refine plannedOf_self ?_
        rw [not_not, List.map_map] at hnodup
        exact hnodup
      rw [hsum, add_comm]
      refine Does.owning ?_ rest
      have hrun := @does_runBatches solo cap _ _ hplanned
        (planBatches [] [] (planned.map PlannedInvocation.invocation))
      rw [hself] at hrun
      exact hrun

theorem does_workerJob {ticket : ℕ} {p : PlannedInvocation} (hp : p.Filed w.ledger) :
    Does solo cap (fun _ _ _ => True) (workerJob ticket p) w p.rights := by
  refine safe_bind (does_settled hp) ?_
  intro r w₁ owned₁ _
  have hq : PipelineOp.Quiet (.settle ticket r) := trivial
  exact does_record hq (fun _ => .inl ⟨(), rfl⟩)

end rules

/-! ### Threads -/

/-- The registry has not been called yet. -/
def PipelineWorld.start (L : OperationLedger) (drawn : ℕ) : PipelineWorld where
  ledger := L
  drawn := drawn

theorem covered_start_world {solo : Prop} {L : OperationLedger} {n : ℕ} (h : Built L n) :
    (PipelineWorld.start L n).Covered solo 1 0 where
  ledger := ledgerOk_built h
  covered := by
    intro key
    exact Nat.zero_le _
  unspent := by
    intro key _
    exact le_rfl
  jobs := by
    intro job hjob
    cases hjob
  exclusive := by
    intro _ id
    exact Nat.zero_le _
  ready := by
    intro _ id hid
    cases hid

section threads

variable {solo : Prop} {cap : String → ℕ} {w : PipelineWorld} {owned : Rights}

theorem safe_thread {α : Type} {p : PipelineM α} (h : Does solo cap (fun _ _ _ => True) p w owned) :
    Program.Safe (accountedStep solo) (PipelineWorld.Covered solo cap) PipelineWorld.Grows
      PipelineWorld.Grows (fun _ _ _ => True) p.thread w owned :=
  safe_bind h (fun _ _ _ _ => trivial)

/-- A worker takes the right to its start out of the waiting job. -/
theorem covered_worker {ticket : ℕ} {job : PlannedInvocation} (h : w.Covered solo cap owned)
    (hjob : (ticket, job) ∈ w.jobs) :
    PipelineWorld.Covered solo cap { w with jobs := w.jobs.erase (ticket, job) }
      (job.rights + owned) where
  ledger := h.ledger
  covered := by
    intro key
    have hcov := h.covered key
    have hzero : job.rights.1 key = 0 := by
      unfold PlannedInvocation.rights
      split <;> rfl
    simp only [Prod.fst_add, Pi.add_apply, hzero, zero_add]
    exact hcov
  unspent := h.unspent
  jobs := by
    intro j hj
    exact h.jobs j (List.mem_of_mem_erase hj)
  exclusive := by
    intro hsolo id
    have hex := h.exclusive hsolo id
    have hwait : PipelineWorld.waiting { w with jobs := w.jobs.erase (ticket, job) } id +
        job.rights.2.1 id = w.waiting id := by
      unfold PipelineWorld.waiting PlannedInvocation.rights
      rw [List.countP_erase]
      have hpos := @List.countP_pos_iff _ w.jobs
        (fun job => job.2.primary ∧ job.2.record.operationId = id)
      cases hp : job.primary with
      | false => simp [hjob]
      | true =>
          by_cases hid : job.record.operationId = id
          · have := hpos.mpr ⟨_, hjob, by simp [hp, hid]⟩
            simp only [hjob, hid, Rights.start, if_true, and_self, decide_true, Pi.single_eq_same]
            omega
          · simp [hid, Rights.start]
    have hready : job.rights.2.2 id = 0 := by
      unfold PlannedInvocation.rights
      split <;> rfl
    simp only [Prod.snd_add, Prod.fst_add, Pi.add_apply, hready]
    omega
  ready := by
    intro hsolo id hid
    refine h.ready hsolo id ?_
    have hready : job.rights.2.2 id = 0 := by
      unfold PlannedInvocation.rights
      split <;> rfl
    simp only [Prod.snd_add, Pi.add_apply, hready, zero_add] at hid
    exact hid

end threads

end CrazyHarness
