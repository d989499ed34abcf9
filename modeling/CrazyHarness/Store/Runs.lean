import CrazyHarness.Store.Transactions

/-! # The projection of a run

What one event does to the status of its run and to the checkpoint barrier the run is under.
The other fields of the projection are counters and texts that no decision reads. -/

namespace CrazyHarness

open Lib

/-- The status of a run after an event of some type. -/
def statusAfter (type : String) (status : Option Json) : Option Json :=
  let terminal := runTerminal status
  let live := !terminal && !(decide (status = some (.str "cancelling")))
  if type = "run.succeeded" ∧ live then some (.str "succeeded")
  else if type = "run.failed" ∧ live then some (.str "failed")
  else if type = "run.paused" ∧ live then some (.str "paused")
  else if type = "run.cancel.requested" ∧ !terminal then some (.str "cancelling")
  else if type = "run.cancelled" ∧ !terminal then some (.str "cancelled")
  else status

/-- The field `key` of the barrier of a run after an event; `barrier_id` and `expires_at` are its
names in the event. -/
def barrierAfter (e : Event) (name : String) (barrierId old : Option Json) : Option Json :=
  if e.type = "checkpoint.barrier.acquired" then some ((e.get? name).getD .null)
  else if e.type = "checkpoint.barrier.released" ∧
      (barrierId.getD .null).pyEq ((e.get? "barrier_id").getD .null) then some .null
  else old

/-- The counters of a run. -/
def runCounters (e : Event) (seq : ℕ) (count : ℤ) : Dict :=
  [("event_count", .int (count + 1)), ("last_event_type", .str e.type), ("last_cursor", .int seq),
    ("updated_at", .time e.createdAt)]

theorem status_runStep (e : Event) (run : Dict) :
    (runStep e run).get? "status" = statusAfter e.type (run.get? "status") := by
  unfold runStep statusAfter
  dsimp only
  split_ifs <;> simp_all [Dict.get?_cons, Dict.get?_set]

theorem barrier_runStep (e : Event) (run : Dict) :
    (runStep e run).get? "checkpoint_barrier_id" =
        barrierAfter e "barrier_id" (run.get? "checkpoint_barrier_id")
          (run.get? "checkpoint_barrier_id") ∧
      (runStep e run).get? "checkpoint_barrier_expires_at" =
        barrierAfter e "expires_at" (run.get? "checkpoint_barrier_id")
          (run.get? "checkpoint_barrier_expires_at") := by
  unfold runStep barrierAfter
  dsimp only
  split_ifs <;> simp_all [Dict.get?_cons, Dict.get?_set, Dict.getD]

/-- Without a projection only `run.created` makes one; otherwise the counters are set and the
status branches follow. -/
theorem nextRun_cases {e : Event} {seq : ℕ} {old r : Option Dict} (h : nextRun e seq old = .ok r) :
    (old = none ∧ e.type ≠ "run.created" ∧ r = none) ∨
      ∃ run count, (old = some run ∨ old = none ∧ e.type = "run.created" ∧ run = initialRun e) ∧
        r = some (runStep e (run.update (runCounters e seq count))) := by
  unfold nextRun at h
  cases old with
  | none =>
      by_cases hcreated : e.type = "run.created"
      · simp only [hcreated, if_true, Option.getD_none] at h
        obtain ⟨count, -, h⟩ := bind_ok_iff.mp h
        refine .inr ⟨initialRun e, count, .inr ⟨rfl, hcreated, rfl⟩, ?_⟩
        rw [← Except.ok.inj h, runCounters, hcreated]
      · simp only [if_neg hcreated] at h
        exact .inl ⟨rfl, hcreated, (Except.ok.inj h).symm⟩
  | some run =>
      have hrun : (if e.type = "run.created" then some ((some run).getD (initialRun e))
          else some run) = some run := by
        split <;> rfl
      simp only [hrun] at h
      obtain ⟨count, -, h⟩ := bind_ok_iff.mp h
      exact .inr ⟨run, count, .inl rfl, (Except.ok.inj h).symm⟩

/-- A field of a run that is no counter. -/
theorem get?_runCounters (e : Event) (seq : ℕ) (count : ℤ) (run : Dict) {key : String}
    (hkey : key ∉ ["event_count", "last_event_type", "last_cursor", "updated_at"]) :
    (run.update (runCounters e seq count)).get? key = run.get? key := by
  simp only [List.mem_cons, List.not_mem_nil, or_false, not_or] at hkey
  simp [runCounters, Dict.get?_cons, hkey]

namespace Database

/-- The barrier a run is under: its identifier and its deadline. -/
def barrier (db : Database) (runId : String) : Option Json × Option Json :=
  let run := (db.loadProjection "run" runId).getD []
  (run.get? "checkpoint_barrier_id", run.get? "checkpoint_barrier_expires_at")

variable {db db' : Database} {e : Event}

/-- A projection of a run stays. -/
theorem NewEvent.run_isSome (h : NewEvent db e db') {runId : String}
    (hrun : (db.loadProjection "run" runId).isSome) : (db'.loadProjection "run" runId).isSome := by
  obtain ⟨r, -, hload⟩ := h.run
  rw [hload]
  split
  next heq =>
    rw [← heq, Option.isSome_or, hrun, Bool.or_true]
  next => exact hrun

theorem NewEvent.run_created (h : NewEvent db e db') (htype : e.type = "run.created") :
    (db'.loadProjection "run" e.runId).isSome := by
  obtain ⟨r, hr, hload⟩ := h.run
  rw [hload, if_pos rfl]
  rcases nextRun_cases hr with ⟨-, hne, -⟩ | ⟨run, count, -, rfl⟩
  · exact absurd htype hne
  · rfl

/-- The status of a run after an event. -/
theorem NewEvent.runStatus (h : NewEvent db e db') (runId : String) :
    db'.runStatus runId =
      if runId = e.runId then
        match db.loadProjection "run" runId with
        | some run => statusAfter e.type (run.get? "status")
        | none => if e.type = "run.created" then some (.str "running") else none
      else db.runStatus runId := by
  obtain ⟨r, hr, hload⟩ := h.run
  unfold Database.runStatus
  rw [hload]
  split
  next heq =>
    subst heq
    rcases nextRun_cases hr with ⟨hold, hne, rfl⟩ | ⟨run, count, hold, rfl⟩
    · rw [hold, if_neg hne]
      rfl
    · simp only [Option.some_or, Option.bind_some]
      rw [status_runStep, get?_runCounters _ _ _ _ (by decide)]
      rcases hold with hold | ⟨hold, hcreated, rfl⟩
      · rw [hold]
      · rw [hold, if_pos hcreated, hcreated]
        simp [initialRun, Dict.get?_cons, statusAfter]
  next => rfl

/-- The barrier of a run after an event. -/
theorem NewEvent.barrier (h : NewEvent db e db') {runId : String}
    (hrun : (db.loadProjection "run" runId).isSome) :
    db'.barrier runId =
      if runId = e.runId then
        (barrierAfter e "barrier_id" (db.barrier runId).1 (db.barrier runId).1,
          barrierAfter e "expires_at" (db.barrier runId).1 (db.barrier runId).2)
      else db.barrier runId := by
  obtain ⟨r, hr, hload⟩ := h.run
  unfold Database.barrier
  rw [hload]
  split
  next heq =>
    subst heq
    rcases nextRun_cases hr with ⟨hold, hne, rfl⟩ | ⟨run, count, hold, rfl⟩
    · rw [hold] at hrun
      cases hrun
    · rcases hold with hold | ⟨hold, -, -⟩
      · obtain ⟨hid, hexpires⟩ := barrier_runStep e (run.update (runCounters e
          (db.lastSeq + 1) count))
        simp only [Option.some_or, Option.getD_some, hold, hid, hexpires]
        rw [get?_runCounters _ _ _ _ (by decide), get?_runCounters _ _ _ _ (by decide)]
      · rw [hold] at hrun
        cases hrun
  next => rfl

/-- A run that is made by an event is under no barrier. -/
theorem NewEvent.barrier_none (h : NewEvent db e db')
    (hold : db.loadProjection "run" e.runId = none)
    (htype : e.type ≠ "checkpoint.barrier.acquired" ∧ e.type ≠ "checkpoint.barrier.released") :
    db'.barrier e.runId = (none, none) := by
  obtain ⟨r, hr, hload⟩ := h.run
  unfold Database.barrier
  rw [hload, if_pos rfl, hold]
  rcases nextRun_cases hr with ⟨-, -, rfl⟩ | ⟨run, count, hrun, rfl⟩
  · rfl
  · rcases hrun with hrun | ⟨-, -, rfl⟩
    · rw [hold] at hrun
      cases hrun
    · obtain ⟨hid, hexpires⟩ := barrier_runStep e ((initialRun e).update (runCounters e
        (db.lastSeq + 1) count))
      simp only [Option.some_or, Option.getD_some, hid, hexpires]
      rw [get?_runCounters _ _ _ _ (by decide), get?_runCounters _ _ _ _ (by decide)]
      simp [barrierAfter, htype, initialRun, Dict.get?_cons]

end Database

end CrazyHarness
