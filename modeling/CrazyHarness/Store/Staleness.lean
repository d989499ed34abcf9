import CrazyHarness.Lib.DateTexts
import CrazyHarness.Store.ModelBudget

/-! # Stale model calls

`recover_stale_model_calls` takes a cutoff with any offset and compares it as a text with the time at
which a call was last written, which is always a time of UTC (`stamped_of_run`).  So it compares with
what the clock of the cutoff's zone shows: `recoversExactly_iff` says when this picks the calls that are
older than the cutoff. -/

namespace CrazyHarness

open Lib

/-- What `_utc_now` returns. -/
def UtcStamp (d : DateTime) : Prop := d.utcOffset = some 0 ∧ d.InRange

/-- The row after a recovery that takes these times for stale. -/
def ModelCallRow.recovered (r : ModelCallRow) (runId : String) (stale : DateTime → Prop)
    [DecidablePred stale] (now : DateTime) : ModelCallRow :=
  if r.runId = runId ∧ stale r.updatedAt then
    match r.state with
    | .reserved =>
        r.endedAs .failed "AbandonedReservation" "no transport attempt started before recovery" now
    | .inFlight =>
        r.endedAs .unknown "AbandonedInFlightCall" "transport outcome is unknown after recovery" now
    | _ => r
  else r

namespace Database

/-- All calls were last written at a time of the clock. -/
def Stamped (db : Database) : Prop := ∀ r ∈ db.modelCalls.rows, UtcStamp r.updatedAt

/-- The recovery changes the active calls of the run that are no later than the cutoff, each in its
way, and nothing else. -/
def RecoversExactly (db : Database) (runId : String) (staleBefore now : DateTime) : Prop :=
  ∃ counts db', db.recoverStaleModelCalls runId staleBefore now = .ok (counts, db') ∧
    db'.modelCalls.rows = db.modelCalls.rows.map
      (·.recovered runId (fun t => t.instant ≤ staleBefore.instant) now) ∧
    { db' with modelCalls := db.modelCalls } = db

/-- The time lies between the cutoff and what the clock of its zone shows. -/
def Misread (staleBefore t : DateTime) : Prop :=
  staleBefore.instant < t.instant ∧ t.instant ≤ staleBefore.wall ∨
    staleBefore.wall < t.instant ∧ t.instant ≤ staleBefore.instant

instance (staleBefore : DateTime) : DecidablePred (Misread staleBefore) := fun _ =>
  inferInstanceAs (Decidable (_ ∨ _))

/-! ### What a recovery does -/

section recovery

variable {db : Database} {runId : String} {staleBefore now : DateTime}

/-- The two updates in one. -/
theorem recoverStaleModelCalls_rows (haware : staleBefore.Aware) :
    ∃ counts db', db.recoverStaleModelCalls runId staleBefore now = .ok (counts, db') ∧
      db'.modelCalls.rows = db.modelCalls.rows.map
        (·.recovered runId (fun t => t.isoformat ≤ staleBefore.isoformat) now) ∧
      { db' with modelCalls := db.modelCalls } = db := by
  unfold recoverStaleModelCalls
  rw [if_neg (not_not.mpr haware)]
  refine ⟨_, _, rfl, ?_, rfl⟩
  show (db.modelCalls.rows.map _).map _ = _
  rw [List.map_map]
  refine List.map_congr_left ?_
  intro r _
  unfold ModelCallRow.recovered
  by_cases hstale : r.runId = runId ∧ r.updatedAt.isoformat ≤ staleBefore.isoformat
  · rw [if_pos hstale]
    cases hstate : r.state <;>
      simp [StaleCall, hstate, hstale.1, hstale.2, ModelCallRow.endedAs]
  · rw [if_neg hstale]
    have hnot : ∀ state, ¬ StaleCall runId staleBefore.isoformat state r :=
      fun state h => hstale ⟨h.1, h.2.2⟩
    simp [hnot]

theorem recoversExactly_iff_rows (haware : staleBefore.Aware) :
    db.RecoversExactly runId staleBefore now ↔ ∀ r ∈ db.modelCalls.rows,
      r.recovered runId (fun t => t.isoformat ≤ staleBefore.isoformat) now =
        r.recovered runId (fun t => t.instant ≤ staleBefore.instant) now := by
  obtain ⟨counts, db', hrun, hrows, hrest⟩ :=
    recoverStaleModelCalls_rows haware
  rw [← List.map_inj_left, ← hrows]
  constructor
  · rintro ⟨counts', db'', hrun', hrows', -⟩
    rw [hrun] at hrun'
    obtain ⟨-, rfl⟩ := Prod.mk.inj (Except.ok.inj hrun')
    exact hrows'
  · intro h
    exact ⟨counts, db', hrun, h, hrest⟩

theorem recovered_of_not {r : ModelCallRow} {p : DateTime → Prop} [DecidablePred p]
    (h : ¬ (r.runId = runId ∧ p r.updatedAt)) : r.recovered runId p now = r := if_neg h

/-- An active call that is taken for stale is not what it was. -/
theorem recovered_ne {r : ModelCallRow} {p : DateTime → Prop} [DecidablePred p] (hrun : r.runId = runId)
    (hp : p r.updatedAt) (hactive : r.Active) : r.recovered runId p now ≠ r := by
  intro h
  have hstate := congrArg ModelCallRow.state h
  unfold ModelCallRow.recovered at hstate
  rw [if_pos ⟨hrun, hp⟩] at hstate
  rcases hactive with hr | hr <;> simp [hr, ModelCallRow.endedAs] at hstate

theorem recovered_inactive {r : ModelCallRow} {p : DateTime → Prop} [DecidablePred p]
    (hactive : ¬ r.Active) : r.recovered runId p now = r := by
  unfold ModelCallRow.recovered
  split
  · split
    next hr => exact absurd (.inl hr) hactive
    next hr => exact absurd (.inr hr) hactive
    next => rfl
  · rfl

/-- Two views of what is stale make a difference for the active calls of the run. -/
theorem recovered_eq_iff {r : ModelCallRow} {p q : DateTime → Prop} [DecidablePred p] [DecidablePred q] :
    r.recovered runId p now = r.recovered runId q now ↔
      (r.runId = runId → r.Active → (p r.updatedAt ↔ q r.updatedAt)) := by
  constructor
  · intro h hrun hactive
    constructor
    · intro hp
      by_contra hq
      rw [recovered_of_not (p := q) (fun hboth => hq hboth.2)] at h
      exact recovered_ne hrun hp hactive h
    · intro hq
      by_contra hp
      rw [recovered_of_not (p := p) (fun hboth => hp hboth.2)] at h
      exact recovered_ne hrun hq hactive h.symm
  · intro h
    by_cases hboth : r.runId = runId ∧ r.Active
    · have hsame : (r.runId = runId ∧ p r.updatedAt) ↔ (r.runId = runId ∧ q r.updatedAt) :=
        and_congr_right (fun hrun => h hrun hboth.2)
      unfold ModelCallRow.recovered
      simp only [hsame]
    · by_cases hrun : r.runId = runId
      · have hactive : ¬ r.Active := fun hactive => hboth ⟨hrun, hactive⟩
        rw [recovered_inactive hactive, recovered_inactive hactive]
      · rw [recovered_of_not (fun hp => hrun hp.1), recovered_of_not (fun hq => hrun hq.1)]

/-- **When a recovery picks the stale calls**: no active call of the run was written between the cutoff
and what the clock of its zone shows. -/
theorem recoversExactly_iff (hdb : db.Stamped) (haware : staleBefore.Aware)
    (hrange : staleBefore.InRange) : db.RecoversExactly runId staleBefore now ↔
      ∀ r ∈ db.modelCalls.rows, r.runId = runId → r.Active → ¬ Misread staleBefore r.updatedAt := by
  rw [recoversExactly_iff_rows haware]
  refine forall₂_congr ?_
  intro r hr
  rw [recovered_eq_iff]
  refine imp_congr_right (fun _ => imp_congr_right (fun _ => ?_))
  rw [DateTime.isoformat_le_iff (hdb r hr).2 hrange (hdb r hr).1 haware]
  unfold Misread
  omega

end recovery

/-! ### The clock -/

end Database

/-- The time that an operation reads from the clock. -/
def ModelCallOp.clock : ModelCallOp → Option DateTime
  | .reserve _ _ now | .start _ now | .fail _ _ _ _ now | .recover _ _ now | .reconcile _ _ _ _ now =>
      some now
  | .elsewhere _ => none

namespace Database

section stamps

variable {db : Database}

theorem stamped_updateWhere {t : Table ModelCallRow.callId} (ht : ∀ r ∈ t.rows, UtcStamp r.updatedAt)
    {p : ModelCallRow → Prop} [DecidablePred p] {f : ModelCallRow → ModelCallRow}
    {hf : ∀ r, p r → (f r).callId = r.callId} (hstamp : ∀ r, UtcStamp (f r).updatedAt) :
    ∀ s ∈ (t.updateWhere p f hf).rows, UtcStamp s.updatedAt := by
  intro s hs
  obtain ⟨r, hr, rfl⟩ := Table.mem_updateWhere.mp hs
  split
  · exact hstamp r
  · exact ht r hr

theorem Stamped.updateCall (hdb : db.Stamped) {callId : String} {f : ModelCallRow → ModelCallRow}
    {hf : ∀ r, (f r).callId = r.callId} (hstamp : ∀ r, UtcStamp (f r).updatedAt) :
    (db.updateCall callId f hf).Stamped :=
  @stamped_updateWhere db.modelCalls hdb _ _ f (fun r _ => hf r) hstamp

/-- A reservation is stamped when it is made. -/
theorem reserveModelCall_updatedAt {c : ModelReservation} {limits : ModelLimits} {now : DateTime}
    {row : ModelCallRow} {db' : Database} (h : db.reserveModelCall c limits now = .ok (row, db')) :
    row.updatedAt = now := by
  unfold reserveModelCall at h
  dsimp only at h
  repeat' split at h
  any_goals cases h
  rfl

theorem Stamped.apply (hdb : db.Stamped) {op : ModelCallOp} (hclock : ∀ now ∈ op.clock, UtcStamp now) :
    (op.apply db).Stamped := by
  unfold ModelCallOp.apply
  cases op with
  | reserve c limits now =>
      dsimp only
      split
      next row db' h =>
        obtain ⟨_, _, _, hnew, rfl⟩ := reserveModelCall_eq h
        intro s hs
        rcases (Table.mem_insertNew (h := hnew)).mp hs with hs | rfl
        · exact hdb s hs
        · rw [reserveModelCall_updatedAt h]
          exact hclock now rfl
      next => exact hdb
  | start callId now =>
      dsimp only
      split
      next attempt db' h =>
        unfold startModelCallAttempt at h
        split at h
        · cases h
        split at h
        · obtain ⟨-, rfl⟩ := Prod.mk.inj (Except.ok.inj h)
          exact hdb.updateCall (fun r => hclock now rfl)
        · cases h
      next => exact hdb
  | fail callId uncertain errorType errorMessage now =>
      dsimp only
      split
      next db' h =>
        unfold failModelCall at h
        split at h
        · cases h
        split at h
        · obtain rfl := Except.ok.inj h
          exact hdb
        · obtain rfl := Except.ok.inj h
          exact hdb.updateCall (fun r => hclock now rfl)
      next => exact hdb
  | recover runId staleBefore now =>
      dsimp only
      split
      next counts db' h =>
        unfold recoverStaleModelCalls at h
        split at h
        · cases h
        · obtain ⟨-, rfl⟩ := Prod.mk.inj (Except.ok.inj h)
          refine @stamped_updateWhere _ ?_ _ _ _ (fun r _ => r.endedAs_callId _ _ _ now)
            (fun r => hclock now rfl)
          exact @stamped_updateWhere _ hdb _ _ _ (fun r _ => r.endedAs_callId _ _ _ now)
            (fun r => hclock now rfl)
      next => exact hdb
  | reconcile callId completionEventId usage cost now =>
      dsimp only
      split
      next changed db' h =>
        unfold reconcileModelCall at h
        split at h
        · cases h
        split at h
        · split at h
          · obtain ⟨-, rfl⟩ := Prod.mk.inj (Except.ok.inj h)
            exact hdb
          · cases h
        split at h
        · cases h
        · obtain ⟨-, rfl⟩ := Prod.mk.inj (Except.ok.inj h)
          exact hdb.updateCall (fun r => hclock now rfl)
      next => exact hdb
  | elsewhere db' => exact hdb

/-- In every run all calls were last written at a time of the clock. -/
theorem stamped_of_run (ops : List ModelCallOp)
    (hclock : EveryStep ModelCallOp.apply (fun _ op => ∀ now ∈ op.clock, UtcStamp now) initial ops) :
    EveryState ModelCallOp.apply Stamped initial ops :=
  EveryState.of_invariant (fun _ hr => absurd hr List.not_mem_nil) (fun _ _ hdb hop => hdb.apply hop)
    hclock

end stamps

/-! ### A cutoff of another zone -/

/-- A call that was reserved at eleven o'clock. -/
def reservedAtEleven : ModelCallRow where
  callId := "call-a"
  runId := "r1"
  taskId := "t1"
  agentId := "scout"
  provider := "DeepSeek"
  model := "deepseek-v4-flash"
  state := .reserved
  reservedInputTokens := 60
  reservedOutputTokens := 40
  reservedCostMicrousd := 400
  createdAt := atSecond 39600
  updatedAt := atSecond 39600

/-- The database with this call. -/
def oneReserved : Database := { initial with modelCalls := Table.empty.upsert reservedAtEleven }

theorem atSecond_utcStamp {n : ℤ} (h : 0 ≤ n) (hn : n < 1000000000) : UtcStamp (atSecond n) := by
  refine ⟨rfl, ?_, ?_, ?_⟩
  · show _ ≤ n * 1000000 + 0 * 1000000
    omega
  · show n * 1000000 + 0 * 1000000 < _
    omega
  · show |(0 : ℤ)| < 86400
    decide

theorem oneReserved_stamped : oneReserved.Stamped := by
  intro r hr
  obtain rfl := List.mem_singleton.mp (show r ∈ [reservedAtEleven] from hr)
  exact atSecond_utcStamp (by norm_num) (by norm_num)

/-- A cutoff of the same zone picks the call. -/
theorem oneReserved_recovered : oneReserved.RecoversExactly "r1" (atSecond 43200) (atSecond 50000) :=
  (recoversExactly_iff oneReserved_stamped (by decide) (atSecond_utcStamp (by norm_num) (by norm_num)).2).mpr
    (by decide +kernel)

/-- Twelve o'clock two hours east of Greenwich is an hour before the call was reserved. -/
theorem oneReserved_misread : ∃ staleBefore : DateTime, staleBefore.Aware ∧ staleBefore.InRange ∧
    oneReserved.Stamped ∧ ¬ oneReserved.RecoversExactly "r1" staleBefore (atSecond 50000) := by
  refine ⟨⟨36000 * 1000000, some 7200⟩, by decide, ⟨by decide, by decide, by decide⟩, oneReserved_stamped, ?_⟩
  rw [recoversExactly_iff_rows (by decide)]
  decide +kernel

end Database

end CrazyHarness
