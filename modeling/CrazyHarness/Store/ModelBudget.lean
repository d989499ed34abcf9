import CrazyHarness.Store.ModelCalls

/-! # The shared model budget

What the operations on `model_calls` are meant to keep: the calls of one run never hold
more tokens, cost or slots than the limits of the run.

* What a call holds is one function of its row for each resource (`ModelCallRow.held`), and
  the sums of `_model_budget_status` are its totals (`held_tokens`, `held_cost`,
  `held_slots`).
* `withinLimits_apply_iff`: one operation keeps the budget exactly when it does not bring
  back a failed call, whose reservation is already released, for more than is left.
* `budget_kept_iff`: a run keeps its budget in every state exactly when every operation of
  the run does. -/

namespace CrazyHarness

open Lib

/-- What a run's model calls share. -/
inductive BudgetResource where
  | tokens
  | cost
  | slots
deriving DecidableEq

/-- The limit on a resource. -/
def ModelLimits.limit (l : ModelLimits) : BudgetResource → ℤ
  | .tokens => l.maxTotalTokens
  | .cost => l.maxCostMicrousd
  | .slots => l.maxConcurrentCalls

theorem ModelLimits.limit_nonneg (l : ModelLimits) (b : BudgetResource) : 0 ≤ l.limit b := by
  have ht := l.maxTotalTokens_pos
  have hc := l.maxCostMicrousd_pos
  have hs := l.maxConcurrentCalls_pos
  cases b <;> simp only [ModelLimits.limit] <;> omega

namespace ModelCallRow

/-- The reservation of a call. -/
def reservation (r : ModelCallRow) : BudgetResource → ℤ
  | .tokens => r.reservedTokens
  | .cost => r.reservedCostMicrousd
  | .slots => 1

/-- The usage a completed call was charged with. -/
def charge (r : ModelCallRow) : BudgetResource → ℤ
  | .tokens => (r.usage.map (·.totalTokens)).getD 0
  | .cost => r.actualCostMicrousd.getD 0
  | .slots => 0

/-- What a call holds of a resource. -/
def held (r : ModelCallRow) (b : BudgetResource) : ℤ :=
  match r.state with
  | .reserved | .inFlight => r.reservation b
  | .unknown => if b = .slots then 0 else r.reservation b
  | .failed => 0
  | .completed => r.charge b

theorem reservation_nonneg (r : ModelCallRow) (b : BudgetResource) : 0 ≤ r.reservation b := by
  cases b <;> simp only [reservation, reservedTokens] <;> omega

theorem held_nonneg {r : ModelCallRow} (h : r.state ≠ .completed) (b : BudgetResource) :
    0 ≤ r.held b := by
  have hr := r.reservation_nonneg b
  unfold held
  cases hs : r.state with
  | reserved => exact hr
  | inFlight => exact hr
  | unknown => dsimp only; split <;> omega
  | failed => exact le_refl 0
  | completed => exact absurd hs h

/-- A call that ends as `failed` or `unknown` holds no more than its reservation, which it
held before unless it had already failed. -/
theorem held_endedAs_le {r : ModelCallRow} {state : ModelCallState} {errorType errorMessage : String}
    {now : DateTime} (hstate : state = .failed ∨ state = .unknown)
    (hr : r.state ≠ .completed ∧ r.state ≠ .failed ∨ r.state = .failed ∧ state = .failed)
    (b : BudgetResource) : (r.endedAs state errorType errorMessage now).held b ≤ r.held b := by
  have hres := r.reservation_nonneg b
  rcases hstate with rfl | rfl
  · refine held_nonneg ?_ b
    rcases hr with ⟨hc, _⟩ | ⟨hf, _⟩
    · exact hc
    · rw [hf]
      decide
  · rcases hr with ⟨hc, hf⟩ | ⟨_, hne⟩
    · cases hs : r.state with
      | reserved => cases b <;> simp [held, endedAs, reservation, reservedTokens, hs]
      | inFlight => cases b <;> simp [held, endedAs, reservation, reservedTokens, hs]
      | unknown => cases b <;> simp [held, endedAs, reservation, reservedTokens, hs]
      | failed => exact absurd hs hf
      | completed => exact absurd hs hc
    · cases hne

theorem held_eq_reservation {r : ModelCallRow} (hc : r.state ≠ .completed) (hf : r.state ≠ .failed)
    {b : BudgetResource} (hb : b ≠ .slots) : r.held b = r.reservation b := by
  unfold held
  cases hs : r.state with
  | reserved => rfl
  | inFlight => rfl
  | unknown => exact if_neg hb
  | failed => exact absurd hs hf
  | completed => exact absurd hs hc

end ModelCallRow

namespace Database

/-- What the calls of a run hold of a resource together. -/
def held (db : Database) (runId : String) (b : BudgetResource) : ℤ :=
  db.modelCalls.total (fun r => if r.runId = runId then r.held b else 0)

/-- The three inequalities of a budget that is not over-committed. -/
def WithinLimits (limits : ModelLimits) (runId : String) (db : Database) : Prop :=
  (db.modelBudgetStatus runId).committedTokens ≤ limits.maxTotalTokens ∧
  (db.modelBudgetStatus runId).committedCostMicrousd ≤ limits.maxCostMicrousd ∧
  (db.modelBudgetStatus runId).activeCalls ≤ limits.maxConcurrentCalls

instance (limits : ModelLimits) (runId : String) (db : Database) :
    Decidable (WithinLimits limits runId db) :=
  inferInstanceAs (Decidable (_ ∧ _ ∧ _))

/-! ### The sums of the status are what the calls hold -/

theorem sumCalls_add (db : Database) (runId : String) (p q : ModelCallRow → Prop) [DecidablePred p]
    [DecidablePred q] (v w : ModelCallRow → ℤ) :
    db.sumCalls runId p v + db.sumCalls runId q w =
      db.modelCalls.total (fun r =>
        if r.runId = runId then (if p r then v r else 0) + (if q r then w r else 0) else 0) := by
  rw [sumCalls, sumCalls, ← Table.total_add]
  congr 1
  funext r
  split <;> simp

theorem held_tokens (db : Database) (runId : String) :
    (db.modelBudgetStatus runId).committedTokens = db.held runId .tokens := by
  simp only [ModelBudgetStatus.committedTokens, modelBudgetStatus, held]
  rw [sumCalls_add, sumCalls, ← Table.total_add]
  congr 1
  funext r
  cases hs : r.state <;>
    simp [ModelCallRow.held, ModelCallRow.Active, ModelCallRow.reservation, ModelCallRow.charge, hs]

theorem held_cost (db : Database) (runId : String) :
    (db.modelBudgetStatus runId).committedCostMicrousd = db.held runId .cost := by
  simp only [ModelBudgetStatus.committedCostMicrousd, modelBudgetStatus, held]
  rw [sumCalls_add, sumCalls, ← Table.total_add]
  congr 1
  funext r
  cases hs : r.state <;>
    simp [ModelCallRow.held, ModelCallRow.Active, ModelCallRow.reservation, ModelCallRow.charge, hs]

theorem held_slots (db : Database) (runId : String) :
    (db.modelBudgetStatus runId).activeCalls = db.held runId .slots := by
  simp only [modelBudgetStatus, held, sumCalls]
  congr 1
  funext r
  cases hs : r.state <;>
    simp [ModelCallRow.held, ModelCallRow.Active, ModelCallRow.reservation, ModelCallRow.charge, hs]

theorem withinLimits_iff {limits : ModelLimits} {runId : String} {db : Database} :
    db.WithinLimits limits runId ↔ ∀ b, db.held runId b ≤ limits.limit b := by
  unfold WithinLimits
  rw [held_tokens, held_cost, held_slots]
  constructor
  · rintro ⟨ht, hc, hs⟩ b
    cases b with
    | tokens => exact ht
    | cost => exact hc
    | slots => exact hs
  · intro h
    exact ⟨h .tokens, h .cost, h .slots⟩

/-! ### What an update moves -/

/-- Rewriting one call moves what its run holds by the difference of the two rows. -/
theorem held_updateCall {db : Database} {callId : String} {r : ModelCallRow}
    (h : db.modelCalls.lookup callId = some r) (f : ModelCallRow → ModelCallRow)
    (hid : ∀ r, (f r).callId = r.callId) (hrun : ∀ r, (f r).runId = r.runId) (runId : String)
    (b : BudgetResource) :
    (db.updateCall callId f hid).held runId b =
      db.held runId b + (if r.runId = runId then (f r).held b - r.held b else 0) := by
  unfold held updateCall
  have hkey := Table.key_of_lookup h
  rw [Table.total_updateWhere,
    Table.total_change h (fun r => if r.runId = runId then r.held b else 0)]
  · simp only [hkey, if_true, hrun]
    split <;> omega
  · intro s _ hs
    simp only [hs, if_false]

/-- A new call adds what it holds. -/
theorem held_insertNew (db : Database) (row : ModelCallRow)
    (h : db.modelCalls.lookup row.callId = none) (runId : String) (b : BudgetResource) :
    { db with modelCalls := db.modelCalls.insertNew row h }.held runId b =
      db.held runId b + (if row.runId = runId then row.held b else 0) :=
  Table.total_insertNew db.modelCalls row h _

end Database

/-! ### The system -/

/-- One store transaction that concerns model calls; `elsewhere` is any other one. -/
inductive ModelCallOp where
  | reserve (c : ModelReservation) (limits : ModelLimits) (now : DateTime)
  | start (callId : String) (now : DateTime)
  | fail (callId : String) (uncertain : Bool) (errorType errorMessage : String) (now : DateTime)
  | recover (runId : String) (staleBefore now : DateTime)
  | reconcile (callId completionEventId : String) (usage : ModelUsage) (actualCostMicrousd : ℤ)
      (now : DateTime)
  | elsewhere (db' : Database)

/-- The database after an operation; one that raises leaves it as it was. -/
def ModelCallOp.apply (op : ModelCallOp) (db : Database) : Database :=
  match op with
  | .reserve c limits now =>
      match db.reserveModelCall c limits now with
      | .ok (_, db') => db'
      | .error _ => db
  | .start callId now =>
      match db.startModelCallAttempt callId now with
      | .ok (_, db') => db'
      | .error _ => db
  | .fail callId uncertain errorType errorMessage now =>
      match db.failModelCall callId uncertain errorType errorMessage now with
      | .ok db' => db'
      | .error _ => db
  | .recover runId staleBefore now =>
      match db.recoverStaleModelCalls runId staleBefore now with
      | .ok (_, db') => db'
      | .error _ => db
  | .reconcile callId completionEventId usage cost now =>
      match db.reconcileModelCall callId completionEventId usage cost now with
      | .ok (_, db') => db'
      | .error _ => db
  | .elsewhere db' => { db' with modelCalls := db.modelCalls }

namespace Database

/-- The run's calls are reserved against the run's limits, and a usage that is reconciled
is no larger than the reservation of its call. -/
def Governed (limits : ModelLimits) (runId : String) (db : Database) : ModelCallOp → Prop
  | .reserve c l _ => c.runId = runId → l = limits
  | .reconcile callId _ usage cost _ => ∀ r ∈ db.modelCalls.lookup callId, r.runId = runId →
      usage.totalTokens ≤ r.reservedTokens ∧ cost ≤ r.reservedCostMicrousd
  | _ => True

/-- There is room in the run's budget for this much more. -/
def HasRoom (limits : ModelLimits) (runId : String) (db : Database) (tokens cost : ℤ) : Prop :=
  (db.modelBudgetStatus runId).committedTokens + tokens ≤ limits.maxTotalTokens ∧
  (db.modelBudgetStatus runId).committedCostMicrousd + cost ≤ limits.maxCostMicrousd

/-- A failed call is charged again only if there is still room for it. -/
def RevivalFits (limits : ModelLimits) (runId : String) (db : Database) : ModelCallOp → Prop
  | .fail callId uncertain _ _ _ => ∀ r ∈ db.modelCalls.lookup callId, r.runId = runId →
      r.state = .failed → uncertain = true →
        db.HasRoom limits runId r.reservedTokens r.reservedCostMicrousd
  | .reconcile callId completionEventId usage cost _ => ∀ r ∈ db.modelCalls.lookup callId,
      r.runId = runId → r.state = .failed → db.CompletionFree callId completionEventId →
        db.HasRoom limits runId usage.totalTokens cost
  | _ => True

instance (limits : ModelLimits) (runId : String) (db : Database) (tokens cost : ℤ) :
    Decidable (HasRoom limits runId db tokens cost) :=
  inferInstanceAs (Decidable (_ ∧ _))

instance (limits : ModelLimits) (runId : String) (db : Database) (op : ModelCallOp) :
    Decidable (Governed limits runId db op) :=
  match op with
  | .reserve c l _ => inferInstanceAs (Decidable (c.runId = runId → l = limits))
  | .reconcile callId _ _ _ _ =>
      inferInstanceAs (Decidable (∀ r ∈ db.modelCalls.lookup callId, _ → _))
  | .start .. | .fail .. | .recover .. | .elsewhere _ => inferInstanceAs (Decidable True)

instance (limits : ModelLimits) (runId : String) (db : Database) (op : ModelCallOp) :
    Decidable (RevivalFits limits runId db op) :=
  match op with
  | .fail callId _ _ _ _ =>
      inferInstanceAs (Decidable (∀ r ∈ db.modelCalls.lookup callId, _ → _ → _ → _))
  | .reconcile callId _ _ _ _ =>
      inferInstanceAs (Decidable (∀ r ∈ db.modelCalls.lookup callId, _ → _ → _ → _))
  | .reserve .. | .start .. | .recover .. | .elsewhere _ => inferInstanceAs (Decidable True)

/-! ### What each operation does to the budget -/

variable {limits : ModelLimits} {runId : String} {db : Database}

theorem hasRoom_iff {tokens cost : ℤ} :
    db.HasRoom limits runId tokens cost ↔
      db.held runId .tokens + tokens ≤ limits.limit .tokens ∧
      db.held runId .cost + cost ≤ limits.limit .cost := by
  unfold HasRoom
  rw [held_tokens, held_cost]
  rfl

/-- A reservation that is granted has found room for itself. -/
theorem withinLimits_reserve {c : ModelReservation} {l : ModelLimits} {now : DateTime}
    {row : ModelCallRow} {db' : Database} (hw : db.WithinLimits limits runId)
    (hl : c.runId = runId → l = limits) (h : db.reserveModelCall c l now = .ok (row, db')) :
    db'.WithinLimits limits runId := by
  unfold reserveModelCall at h
  split at h
  · cases h
  rename_i hneg
  split at h
  · cases h
  split at h
  swap
  · cases h
  rename_i hnew
  dsimp only at h
  split at h
  · cases h
  rename_i hslots
  split at h
  · cases h
  rename_i htokens
  split at h
  · cases h
  rename_i hcost
  obtain ⟨rfl, rfl⟩ := Prod.mk.inj (Except.ok.inj h)
  rw [withinLimits_iff] at hw ⊢
  intro b
  have hb := hw b
  rw [held_insertNew]
  dsimp only
  by_cases hrun : c.runId = runId
  · obtain rfl := hl hrun
    rw [held_slots, hrun] at hslots
    rw [held_tokens, hrun] at htokens
    rw [held_cost, hrun] at hcost
    rw [if_pos hrun]
    cases b with
    | tokens =>
        change _ + ((c.reservedInputTokens.toNat : ℤ) + c.reservedOutputTokens.toNat)
          ≤ l.maxTotalTokens
        omega
    | cost =>
        change _ + (c.reservedCostMicrousd.toNat : ℤ) ≤ l.maxCostMicrousd
        omega
    | slots =>
        change _ + 1 ≤ l.maxConcurrentCalls
        omega
  · rw [if_neg hrun]
    omega

theorem held_start {callId : String} {now : DateTime} {attempt : ℕ} {db' : Database}
    (h : db.startModelCallAttempt callId now = .ok (attempt, db')) (b : BudgetResource) :
    db'.held runId b = db.held runId b := by
  unfold startModelCallAttempt at h
  split at h
  · cases h
  rename_i row hrow
  split at h
  swap
  · cases h
  rename_i hactive
  obtain ⟨rfl, rfl⟩ := Prod.mk.inj (Except.ok.inj h)
  have hsame : row.held b = row.reservation b := by
    rcases hactive with hs | hs <;> simp [ModelCallRow.held, hs]
  have hstarted : (row.started (row.attemptCount + 1) now).held b = row.reservation b := by
    cases b <;> rfl
  rw [held_updateCall hrow (·.started (row.attemptCount + 1) now) _
    (fun r => r.started_runId _ now), hsame, hstarted]
  simp

theorem held_recover_le {r : String} {staleBefore now : DateTime} {counts : ℕ × ℕ} {db' : Database}
    (h : db.recoverStaleModelCalls r staleBefore now = .ok (counts, db')) (b : BudgetResource) :
    db'.held runId b ≤ db.held runId b := by
  unfold recoverStaleModelCalls at h
  split at h
  · cases h
  obtain ⟨rfl, rfl⟩ := Prod.mk.inj (Except.ok.inj h)
  unfold held
  dsimp only
  rw [Table.total_updateWhere, Table.total_updateWhere]
  refine Table.total_le_total ?_
  intro s _
  -- A stale reservation is released first, so the second update leaves it alone.
  by_cases h1 : StaleCall r staleBefore.isoformat .reserved s
  · have h2 : ∀ t u, ¬ StaleCall r staleBefore.isoformat .inFlight (s.endedAs .failed t u now) := by
      rintro t u ⟨_, hs, _⟩
      cases hs
    have hs : s.state ≠ .completed ∧ s.state ≠ .failed := by
      rw [h1.2.1]
      decide
    simp only [h1, h2, if_true, if_false, ModelCallRow.endedAs_runId]
    split
    · exact ModelCallRow.held_endedAs_le (.inl rfl) (.inl hs) b
    · exact le_refl 0
  · by_cases h2 : StaleCall r staleBefore.isoformat .inFlight s
    · have hs : s.state ≠ .completed ∧ s.state ≠ .failed := by
        rw [h2.2.1]
        decide
      simp only [h1, h2, if_true, if_false, ModelCallRow.endedAs_runId]
      split
      · exact ModelCallRow.held_endedAs_le (.inr rfl) (.inl hs) b
      · exact le_refl 0
    · simp only [h1, h2, if_false, le_refl]

/-- Of a failed call that is charged `tokens` and `cost` again, the budget asks for room. -/
theorem withinLimits_revive_iff {db' : Database} {tokens cost : ℤ} (hw : db.WithinLimits limits runId)
    (htokens : db'.held runId .tokens = db.held runId .tokens + tokens)
    (hcost : db'.held runId .cost = db.held runId .cost + cost)
    (hslots : db'.held runId .slots = db.held runId .slots) :
    db'.WithinLimits limits runId ↔ db.HasRoom limits runId tokens cost := by
  rw [withinLimits_iff] at hw
  rw [withinLimits_iff, hasRoom_iff]
  constructor
  · intro h
    have ht := h .tokens
    have hc := h .cost
    rw [htokens] at ht
    rw [hcost] at hc
    exact ⟨ht, hc⟩
  · rintro ⟨ht, hc⟩ b
    cases b with
    | tokens => rw [htokens]; exact ht
    | cost => rw [hcost]; exact hc
    | slots => rw [hslots]; exact hw .slots

theorem withinLimits_of_held_le {db' : Database} (hw : db.WithinLimits limits runId)
    (h : ∀ b, db'.held runId b ≤ db.held runId b) : db'.WithinLimits limits runId := by
  rw [withinLimits_iff] at hw ⊢
  intro b
  exact (h b).trans (hw b)

theorem withinLimits_fail_iff {callId errorType errorMessage : String} {uncertain : Bool}
    {now : DateTime} {db' : Database} (hw : db.WithinLimits limits runId)
    (h : db.failModelCall callId uncertain errorType errorMessage now = .ok db') :
    db'.WithinLimits limits runId ↔
      RevivalFits limits runId db (.fail callId uncertain errorType errorMessage now) := by
  unfold failModelCall at h
  split at h
  · cases h
  rename_i row hrow
  simp only [RevivalFits, hrow, Option.mem_some_iff, forall_eq']
  split at h
  · rename_i hdone
    obtain rfl := Except.ok.inj h
    refine iff_of_true hw ?_
    intro _ hfailed
    rw [hdone] at hfailed
    cases hfailed
  rename_i hdone
  have hheld := held_updateCall hrow
    (·.endedAs (if uncertain then .unknown else .failed) errorType errorMessage now)
    (fun r => r.endedAs_callId _ _ _ now) (fun r => r.endedAs_runId _ _ _ now) runId
  rw [Except.ok.inj h] at hheld
  by_cases hrun : row.runId = runId
  swap
  · refine iff_of_true (withinLimits_of_held_le hw ?_) (fun hr => absurd hr hrun)
    intro b
    rw [hheld, if_neg hrun, add_zero]
  simp only [hrun, if_true] at hheld
  by_cases hrev : row.state = .failed ∧ uncertain = true
  · obtain ⟨hfailed, rfl⟩ := hrev
    have hzero : ∀ b, row.held b = 0 := by
      intro b
      simp [ModelCallRow.held, hfailed]
    simp only [hrun, hfailed, forall_true_left]
    refine withinLimits_revive_iff hw ?_ ?_ ?_
    · rw [hheld, hzero]
      simp [ModelCallRow.held, ModelCallRow.endedAs, ModelCallRow.reservation,
        ModelCallRow.reservedTokens]
    · rw [hheld, hzero]
      simp [ModelCallRow.held, ModelCallRow.endedAs, ModelCallRow.reservation]
    · rw [hheld, hzero]
      simp [ModelCallRow.held, ModelCallRow.endedAs]
  · refine iff_of_true (withinLimits_of_held_le hw ?_)
      (fun _ hfailed hunc => absurd ⟨hfailed, hunc⟩ hrev)
    intro b
    have hle : (row.endedAs (if uncertain then .unknown else .failed) errorType errorMessage now).held b
        ≤ row.held b := by
      refine ModelCallRow.held_endedAs_le (by cases uncertain <;> simp) ?_ b
      by_cases hfailed : row.state = .failed
      · have hcertain : uncertain = false := by
          cases uncertain with
          | false => rfl
          | true => exact absurd ⟨hfailed, rfl⟩ hrev
        exact .inr ⟨hfailed, by simp [hcertain]⟩
      · exact .inl ⟨hdone, hfailed⟩
    rw [hheld]
    omega

theorem withinLimits_reconcile_iff {callId completionEventId : String} {usage : ModelUsage}
    {cost : ℤ} {now : DateTime} {changed : Bool} {db' : Database}
    (hw : db.WithinLimits limits runId)
    (hu : Governed limits runId db (.reconcile callId completionEventId usage cost now))
    (h : db.reconcileModelCall callId completionEventId usage cost now = .ok (changed, db')) :
    db'.WithinLimits limits runId ↔
      RevivalFits limits runId db (.reconcile callId completionEventId usage cost now) := by
  unfold reconcileModelCall at h
  split at h
  · cases h
  rename_i row hrow
  simp only [RevivalFits, Governed, hrow, Option.mem_some_iff, forall_eq'] at hu ⊢
  split at h
  · rename_i hdone
    split at h
    swap
    · cases h
    obtain ⟨rfl, rfl⟩ := Prod.mk.inj (Except.ok.inj h)
    refine iff_of_true hw ?_
    intro _ hfailed
    rw [hdone] at hfailed
    cases hfailed
  rename_i hdone
  split at h
  · cases h
  rename_i hfree
  have hheld := held_updateCall hrow (·.chargedWith usage cost completionEventId now)
    (fun r => r.chargedWith_callId usage cost _ now) (fun r => r.chargedWith_runId usage cost _ now)
    runId
  rw [(Prod.mk.inj (Except.ok.inj h)).2] at hheld
  by_cases hrun : row.runId = runId
  swap
  · refine iff_of_true (withinLimits_of_held_le hw ?_) (fun hr => absurd hr hrun)
    intro b
    rw [hheld, if_neg hrun, add_zero]
  simp only [hrun, if_true] at hheld
  by_cases hfailed : row.state = .failed
  · have hzero : ∀ b, row.held b = 0 := by
      intro b
      simp [ModelCallRow.held, hfailed]
    simp only [hrun, hfailed, not_not.mp hfree, forall_true_left]
    refine withinLimits_revive_iff hw ?_ ?_ ?_
    · rw [hheld, hzero]
      simp [ModelCallRow.held, ModelCallRow.chargedWith, ModelCallRow.charge]
    · rw [hheld, hzero]
      simp [ModelCallRow.held, ModelCallRow.chargedWith, ModelCallRow.charge]
    · rw [hheld, hzero]
      simp [ModelCallRow.held, ModelCallRow.chargedWith, ModelCallRow.charge]
  · refine iff_of_true (withinLimits_of_held_le hw ?_) (fun _ hf => absurd hf hfailed)
    intro b
    obtain ⟨hut, huc⟩ := hu hrun
    have hle : (row.chargedWith usage cost completionEventId now).held b ≤ row.held b := by
      cases b with
      | tokens =>
          rw [ModelCallRow.held_eq_reservation hdone hfailed (by decide)]
          exact hut
      | cost =>
          rw [ModelCallRow.held_eq_reservation hdone hfailed (by decide)]
          exact huc
      | slots => exact ModelCallRow.held_nonneg hdone .slots
    rw [hheld]
    omega

/-- **One operation.**  From a state within the limits, a governed operation stays within
them exactly when it does not charge a failed call beyond what is left. -/
theorem withinLimits_apply_iff {op : ModelCallOp} (hw : db.WithinLimits limits runId)
    (hg : db.Governed limits runId op) :
    (op.apply db).WithinLimits limits runId ↔ db.RevivalFits limits runId op := by
  cases op with
  | reserve c l now =>
      refine iff_of_true ?_ trivial
      simp only [ModelCallOp.apply]
      split
      · rename_i row db' h
        exact withinLimits_reserve hw hg h
      · exact hw
  | start callId now =>
      refine iff_of_true ?_ trivial
      simp only [ModelCallOp.apply]
      split
      · rename_i attempt db' h
        exact withinLimits_of_held_le hw (fun b => (held_start h b).le)
      · exact hw
  | fail callId uncertain errorType errorMessage now =>
      simp only [ModelCallOp.apply]
      split
      · rename_i db' h
        exact withinLimits_fail_iff hw h
      · rename_i e h
        refine iff_of_true hw ?_
        intro r hr
        unfold failModelCall at h
        rw [hr] at h
        dsimp only at h
        split at h <;> cases h
  | recover r staleBefore now =>
      refine iff_of_true ?_ trivial
      simp only [ModelCallOp.apply]
      split
      · rename_i counts db' h
        exact withinLimits_of_held_le hw (held_recover_le h)
      · exact hw
  | reconcile callId completionEventId usage cost now =>
      simp only [ModelCallOp.apply]
      split
      · rename_i changed db' h
        exact withinLimits_reconcile_iff hw hg h
      · rename_i e h
        refine iff_of_true hw ?_
        intro r hr _ hfailed hfree
        unfold reconcileModelCall at h
        rw [hr] at h
        simp [hfailed, hfree] at h
  | elsewhere db' =>
      refine iff_of_true ?_ trivial
      exact withinLimits_of_held_le hw (fun _ => le_refl _)

/-- The empty database holds nothing. -/
theorem withinLimits_initial (limits : ModelLimits) (runId : String) :
    initial.WithinLimits limits runId := by
  rw [withinLimits_iff]
  exact limits.limit_nonneg

/-- **The shared budget.**  In a governed run of any operations the calls of `runId` stay
within its limits in every state exactly when no step of the run charges a failed call
again without room for it. -/
theorem budget_kept_iff (limits : ModelLimits) (runId : String) (ops : List ModelCallOp)
    (hgoverned : EveryStep ModelCallOp.apply (Governed limits runId) initial ops) :
    EveryState ModelCallOp.apply (WithinLimits limits runId) initial ops ↔
      EveryStep ModelCallOp.apply (RevivalFits limits runId) initial ops :=
  everyState_iff_everyStep (withinLimits_initial limits runId)
    (fun _ _ hw hg => withinLimits_apply_iff hw hg) hgoverned

/-! ### A call that fails and is reconciled later -/

section lateReconcile

/-- Room for one of the two calls below. -/
def smallLimits : ModelLimits := ⟨100, 1000, 2, by decide, by decide, by decide⟩

def atSecond (n : ℤ) : DateTime := ⟨n * 1000000, some 0⟩

/-- A call of run `r1` that reserves the whole token budget. -/
def fullCall (callId : String) : ModelReservation :=
  ⟨callId, "r1", "t1", "scout", "DeepSeek", "deepseek-v4-flash", 60, 40, 400⟩

/-- Two calls, the first of which fails before the second is reserved. -/
def failThenReserve : List ModelCallOp :=
  [.elsewhere (initial.saveProjection "run" "r1" [("status", .str "running")] 1),
   .reserve (fullCall "call-a") smallLimits (atSecond 1),
   .start "call-a" (atSecond 2),
   .fail "call-a" false "HTTPStatusError" "401" (atSecond 3),
   .reserve (fullCall "call-b") smallLimits (atSecond 4)]

/-- The usage of the first call arrives after all. -/
def lateReconcile : ModelCallOp :=
  .reconcile "call-a" "completed-a" ⟨60, 0, 60, 40, 100⟩ 400 (atSecond 5)

theorem failThenReserve_within :
    EveryState ModelCallOp.apply (WithinLimits smallLimits "r1") initial failThenReserve :=
  (budget_kept_iff smallLimits "r1" failThenReserve (by decide)).mpr (by decide)

theorem lateReconcile_overcommits :
    EveryStep ModelCallOp.apply (Governed smallLimits "r1") initial
        (failThenReserve ++ [lateReconcile]) ∧
      ¬ EveryState ModelCallOp.apply (WithinLimits smallLimits "r1") initial
        (failThenReserve ++ [lateReconcile]) := by
  decide

end lateReconcile

end Database

end CrazyHarness
