import CrazyHarness.Runtime.Store
import CrazyHarness.Store.Runs

/-! # Checkpoint barriers

`create_checkpoint` puts its run under a barrier, waits until the run is quiescent, captures
it, and lifts the barrier.  The run's projection has room for one barrier: a second caller
overwrites the first one's, and its release leaves none.

* `barrierHolds_iff`: `claim_work` sees a barrier exactly when the one acquired last is open and
  unexpired.
* `barrier_blocks_iff`: open barriers block the work of their run exactly then.
* `released_unblocks`: two overlapping callers, and a claim that succeeds in between. -/

namespace CrazyHarness

open Lib Program RuntimeM

/-! ### `create_checkpoint` -/

/-- The events of a barrier. -/
def barrierTypes : List String := ["checkpoint.barrier.acquired", "checkpoint.barrier.released"]

/-- What `create_checkpoint` does outside of the store: wait, and let `CheckpointService.create`
capture the run. -/
inductive CheckpointOp where
  | quiescence (runId : String)
  | create (runId requestId : String)

/-- Whether the run became quiescent in time, and how the capture ended. -/
def checkpointInterface : Interface where
  Op := CheckpointOp
  Reply
    | .quiescence _ => Bool
    | .create _ _ => Except RuntimeError Unit

/-- `checkpoint_id(run_id, request_id)`. -/
def checkpointId (runId requestId : String) : String :=
  "checkpoint_" ++ uuid5 ("crazy:checkpoint:" ++ runId ++ ":" ++ requestId)

/-- `f"checkpoint_barrier_{uuid4().hex}"`, of the `n`-th identifier drawn. -/
def barrierName (n : ℕ) : String := "checkpoint_barrier_" ++ uuid4 n

/-- The event that acquires a barrier. -/
def barrierAcquired (identity : Event) (barrierId checkpointId : String) (expiresAt : DateTime)
    (id : String) (createdAt : DateTime) : Event where
  id := id
  runId := identity.runId
  taskId := identity.taskId
  type := "checkpoint.barrier.acquired"
  source := "runtime.checkpoint"
  payload := [("barrier_id", .str barrierId), ("checkpoint_id", .str checkpointId),
    ("expires_at", .time expiresAt)]
  causationId := some identity.id
  createdAt := createdAt

/-- The event that releases it. -/
def barrierReleased (identity acquired : Event) (barrierId checkpointId : String) (id : String)
    (createdAt : DateTime) : Event where
  id := id
  runId := identity.runId
  taskId := identity.taskId
  type := "checkpoint.barrier.released"
  source := "runtime.checkpoint"
  payload := [("barrier_id", .str barrierId), ("checkpoint_id", .str checkpointId)]
  causationId := some acquired.id
  createdAt := createdAt

/-- An append of an event under a drawn identifier. -/
def appendDrawn {X : Interface} (e : String → DateTime → Event) : RuntimeM X Event := do
  let id ← uuid
  append none (e id)

/-- `_wait_for_checkpoint_quiescence`. -/
def waitForCheckpointQuiescence (runId : String) : RuntimeM checkpointInterface Unit :=
  (@outside checkpointInterface (CheckpointOp.quiescence runId)).bind (fun (quiescent : Bool) =>
    if quiescent then .done (.ok ())
    else .done (.error (.timeoutError ("run did not reach checkpoint quiescence: " ++ runId))))

/-- `create_checkpoint` once the run is known. -/
def createCheckpointOf (identity : Event) (runId requestId : String) :
    RuntimeM checkpointInterface Unit := do
  let drawn ← uuid
  let expiresAt ← now
  let acquired ← appendDrawn (barrierAcquired identity ("checkpoint_barrier_" ++ drawn)
    (checkpointId runId requestId) (expiresAt.addSeconds 300))
  tryFinally
    (do
      waitForCheckpointQuiescence runId
      (@outside checkpointInterface (CheckpointOp.create runId requestId) :
        RuntimeM checkpointInterface Unit))
    (appendDrawn (barrierReleased identity acquired ("checkpoint_barrier_" ++ drawn)
      (checkpointId runId requestId)))

/-- The event `run.created` among those of a run. -/
def runCreatedOf (events : List Event) : Option Event :=
  events.find? (fun e => e.type = "run.created")

/-- `create_checkpoint`. -/
def createCheckpoint (runId requestId : String) : RuntimeM checkpointInterface Unit := do
  let events ← readAll (some runId)
  match runCreatedOf events with
  | none => throw (.keyError ("unknown run: " ++ runId))
  | some identity => createCheckpointOf identity runId requestId

/-! ### Running it -/

/-- Other threads and processes write anything but barriers. -/
def WithoutBarriers (w w' : StoreWorld) : Prop :=
  w.drawn ≤ w'.drawn ∧ ∃ es, w.db.Wrote es w'.db ∧ ∀ e ∈ es, e.type ∉ barrierTypes

/-- An agent run of the run holds an unexpired claim. -/
def RunAtWork (db : Database) (runId : String) (now : DateTime) : Prop :=
  ∃ c ∈ db.workClaims.rows, c.Held now ∧ startsWith "agent-run:" c.claimKey ∧
    runId.toList <:+: c.claimKey.toList

instance (db : Database) (runId : String) (now : DateTime) : Decidable (RunAtWork db runId now) :=
  inferInstanceAs (Decidable (∃ c ∈ db.workClaims.rows, _))

/-- What each step replies and does.  A wait that ends in time has seen the run at rest; the
capture appends its own events. -/
def checkpointStep (w : StoreWorld) :
    (op : (withStore checkpointInterface).Op) → (withStore checkpointInterface).Reply op →
      StoreWorld → Prop
  | .inl op, r, w' => storeStep w op r w'
  | .inr (.quiescence runId), (r : Bool), w' =>
      w' = w ∧ ∃ now : DateTime, r = decide (¬ RunAtWork w.db runId now)
  | .inr (.create _ _), _, w' => WithoutBarriers w w'

/-- Callers of `create_checkpoint` start at any time. -/
inductive CheckpointStarts :
    StoreWorld → Program (withStore checkpointInterface) Unit → StoreWorld → Prop
  | create (w : StoreWorld) (runId requestId : String) :
      CheckpointStarts w (createCheckpoint runId requestId).thread w

/-- Any number of callers, among others that claim work and append events. -/
def checkpointRules : PoolRules (withStore checkpointInterface) Unit StoreWorld where
  step := checkpointStep
  starts := CheckpointStarts
  env := WithoutBarriers

/-- A new store. -/
def emptyStore : Pool (withStore checkpointInterface) Unit StoreWorld := ⟨⟨.initial, 0⟩, [], []⟩

/-! ### The barrier of a run -/

/-- The barrier of a run that was acquired last. -/
def lastAcquired (log : List Event) (runId : String) : Option Event :=
  (log.filter (fun e => e.type = "checkpoint.barrier.acquired" ∧ e.runId = runId)).getLast?

/-- The barrier has been released. -/
def Released (log : List Event) (a : Event) : Prop :=
  ∃ e ∈ log, e.type = "checkpoint.barrier.released" ∧ e.runId = a.runId ∧
    e.get? "barrier_id" = a.get? "barrier_id"

instance (log : List Event) (a : Event) : Decidable (Released log a) :=
  inferInstanceAs (Decidable (∃ e ∈ log, _))

/-- The barrier is open, and its deadline has not passed. -/
def HoldsAt (log : List Event) (now : DateTime) (a : Event) : Prop :=
  ¬ Released log a ∧ ∃ t, a.get? "expires_at" = some (.time t) ∧ now.instant < t.instant

/-- What the projection of a run says of its barrier. -/
def barrierView (log : List Event) (runId : String) : Option Json × Option Json :=
  match lastAcquired log runId with
  | none => (none, none)
  | some a =>
      if Released log a then (some .null, some .null) else (a.get? "barrier_id", a.get? "expires_at")

section view

variable {log : List Event} {e a : Event} {runId : String}

theorem lastAcquired_append_of_ne
    (h : ¬ (e.type = "checkpoint.barrier.acquired" ∧ e.runId = runId)) :
    lastAcquired (log ++ [e]) runId = lastAcquired log runId := by
  simp [lastAcquired, List.filter_append, h]

theorem lastAcquired_append (htype : e.type = "checkpoint.barrier.acquired") :
    lastAcquired (log ++ [e]) e.runId = some e := by
  simp [lastAcquired, List.filter_append, htype]

theorem released_append : Released (log ++ [e]) a ↔ Released log a ∨
    e.type = "checkpoint.barrier.released" ∧ e.runId = a.runId ∧
      e.get? "barrier_id" = a.get? "barrier_id" := by
  simp [Released, or_and_right, exists_or]

theorem mem_of_lastAcquired (h : lastAcquired log runId = some a) :
    a ∈ log ∧ a.type = "checkpoint.barrier.acquired" ∧ a.runId = runId := by
  have hmem := List.mem_of_getLast? h
  simpa using hmem

/-- Events of other runs and of other types leave the barrier alone. -/
theorem barrierView_append_of_ne (h : e.runId = runId → e.type ∉ barrierTypes) :
    barrierView (log ++ [e]) runId = barrierView log runId := by
  have hlast : lastAcquired (log ++ [e]) runId = lastAcquired log runId := by
    refine lastAcquired_append_of_ne ?_
    rintro ⟨htype, hrun⟩
    exact h hrun (by simp [barrierTypes, htype])
  unfold barrierView
  rw [hlast]
  cases hl : lastAcquired log runId with
  | none => rfl
  | some a =>
      have hrun := (mem_of_lastAcquired hl).2.2
      have hiff : Released (log ++ [e]) a ↔ Released log a := by
        rw [released_append, or_iff_left]
        rintro ⟨htype, heq, -⟩
        exact h (heq.trans hrun) (by simp [barrierTypes, htype])
      simp only [hiff]

end view

/-! ### The invariant -/

/-- The barrier an event is about. -/
def Event.Names (e : Event) (n : ℕ) : Prop := e.get? "barrier_id" = some (.str (barrierName n))

theorem barrierName_inj {m n : ℕ} : barrierName m = barrierName n ↔ m = n := by
  have hname : ∀ n, barrierName n = "checkpoint_barrier_" ++ ("uuid4:" ++ toString n) :=
    fun _ => rfl
  rw [hname, hname]
  constructor
  · intro h
    simpa using h
  · intro h
    rw [h]

theorem Event.Names.inj {e : Event} {m n : ℕ} (hm : e.Names m) (hn : e.Names n) : m = n := by
  rw [Event.Names, hn] at hm
  simpa [barrierName_inj, eq_comm] using hm

/-- What the log and the projections keep.  A thread owns the name of the barrier it is about
to acquire; nobody else uses it. -/
structure Barriers (w : StoreWorld) (owned : ℕ → ℕ) : Prop where
  created : ∀ e ∈ w.db.events.rows, e.type = "run.created" →
    (w.db.loadProjection "run" e.runId).isSome
  named : ∀ e ∈ w.db.events.rows, e.type ∈ barrierTypes → ∃ n < w.drawn, e.Names n ∧ owned n = 0
  acquired : ∀ e ∈ w.db.events.rows, e.type = "checkpoint.barrier.acquired" →
    (w.db.loadProjection "run" e.runId).isSome ∧
      ∃ t : DateTime, e.get? "expires_at" = some (.time t) ∧ t.Aware
  once : ∀ n, owned n ≤ 1 ∧ (0 < owned n → n < w.drawn)
  view : ∀ runId, (w.db.loadProjection "run" runId).isSome →
    w.db.barrier runId = barrierView w.db.events.rows runId

/-- Runs stay known, and the log keeps its events. -/
structure StoreWorld.Grows (w w' : StoreWorld) : Prop where
  runs : ∀ runId, (w.db.loadProjection "run" runId).isSome →
    (w'.db.loadProjection "run" runId).isSome
  log : w.db.events.rows ⊆ w'.db.events.rows

theorem StoreWorld.Grows.refl (w : StoreWorld) : w.Grows w := ⟨fun _ h => h, List.Subset.refl _⟩

theorem StoreWorld.Grows.trans {w w' w'' : StoreWorld} (h : w.Grows w') (h' : w'.Grows w'') :
    w.Grows w'' :=
  ⟨fun runId hrun => h'.runs runId (h.runs runId hrun), List.Subset.trans h.log h'.log⟩

section invariant

variable {w w' : StoreWorld} {owned : ℕ → ℕ} {db : Database} {e : Event}

theorem Barriers.drop {m : ℕ → ℕ} (h : Barriers w (m + owned)) : Barriers w owned where
  created := h.created
  named := by
    intro e he htype
    obtain ⟨n, hn, hname, hfree⟩ := h.named e he htype
    rw [Pi.add_apply] at hfree
    exact ⟨n, hn, hname, by omega⟩
  acquired := h.acquired
  once := by
    intro n
    have := h.once n
    rw [Pi.add_apply] at this
    omega
  view := h.view

/-- Drawing an identifier. -/
theorem Barriers.draw (h : Barriers w owned) {n : ℕ} (hn : w.drawn ≤ n) :
    Barriers { w with drawn := n } owned where
  created := h.created
  named := by
    intro e he htype
    obtain ⟨m, hm, hname, hfree⟩ := h.named e he htype
    exact ⟨m, lt_of_lt_of_le hm hn, hname, hfree⟩
  acquired := h.acquired
  once := by
    intro m
    obtain ⟨hone, hlt⟩ := h.once m
    exact ⟨hone, fun hpos => lt_of_lt_of_le (hlt hpos) hn⟩
  view := h.view

/-- The identifier just drawn can name a barrier. -/
theorem Barriers.own (h : Barriers w owned) :
    Barriers { w with drawn := w.drawn + 1 } (Pi.single w.drawn 1 + owned) := by
  have hbase := h.draw (Nat.le_succ w.drawn)
  have hzero : owned w.drawn = 0 := by
    obtain ⟨-, hlt⟩ := h.once w.drawn
    by_contra hne
    have := hlt (by omega)
    omega
  exact
    { created := hbase.created
      named := by
        intro e he htype
        obtain ⟨m, hm, hname, hfree⟩ := h.named e he htype
        refine ⟨m, Nat.lt_succ_of_lt hm, hname, ?_⟩
        rw [Pi.add_apply, Pi.single_eq_of_ne (by omega), hfree]
      acquired := hbase.acquired
      once := by
        intro m
        rw [Pi.add_apply]
        by_cases hm : m = w.drawn
        · subst hm
          rw [Pi.single_eq_same, hzero]
          exact ⟨le_rfl, fun _ => Nat.lt_succ_self _⟩
        · rw [Pi.single_eq_of_ne hm, zero_add]
          exact hbase.once m
      view := hbase.view }

theorem Barriers.sameLog (h : Barriers w owned) (hs : w.db.SameLog db) :
    Barriers { w with db := db } owned where
  created := by
    intro e he htype
    rw [hs.events] at he
    rw [hs.loadProjection]
    exact h.created e he htype
  named := by
    intro e he htype
    rw [hs.events] at he
    exact h.named e he htype
  acquired := by
    intro e he htype
    rw [hs.events] at he
    rw [hs.loadProjection]
    exact h.acquired e he htype
  once := h.once
  view := by
    intro runId hrun
    rw [hs.loadProjection] at hrun
    have hbarrier : db.barrier runId = w.db.barrier runId := by
      rw [Database.barrier, hs.loadProjection, Database.barrier]
    rw [hbarrier, hs.events]
    exact h.view runId hrun

/-- The barrier of a run after a new event. -/
theorem Barriers.view_newEvent (h : Barriers w owned) (he : w.db.NewEvent e db)
    (hfresh : e.type = "checkpoint.barrier.acquired" → (w.db.loadProjection "run" e.runId).isSome ∧
      e.get? "barrier_id" ≠ none ∧ e.get? "expires_at" ≠ none ∧ ∀ f ∈ w.db.events.rows,
        f.type ∈ barrierTypes → f.get? "barrier_id" ≠ e.get? "barrier_id")
    (hname : e.type = "checkpoint.barrier.released" →
      ∃ id, e.get? "barrier_id" = some (.str id)) {runId : String}
    (hrun : (db.loadProjection "run" runId).isSome) :
    db.barrier runId = barrierView (w.db.events.rows ++ [e]) runId := by
  by_cases hold : (w.db.loadProjection "run" runId).isSome
  · have hview := h.view runId hold
    rw [he.barrier hold]
    by_cases heq : runId = e.runId
    · subst heq
      rw [if_pos rfl]
      by_cases hacq : e.type = "checkpoint.barrier.acquired"
      · -- the new barrier is the last one, and nobody has released it
        obtain ⟨-, hid, hexpires, hnew⟩ := hfresh hacq
        have hopen : ¬ Released (w.db.events.rows ++ [e]) e := by
          rw [released_append]
          rintro (⟨f, hf, htype, -, hsame⟩ | ⟨htype, -⟩)
          · exact hnew f hf (by simp [barrierTypes, htype]) hsame
          · rw [hacq] at htype
            simp at htype
        obtain ⟨v, hv⟩ := Option.ne_none_iff_exists'.mp hid
        obtain ⟨t, ht⟩ := Option.ne_none_iff_exists'.mp hexpires
        rw [barrierView, lastAcquired_append hacq]
        simp [hopen, barrierAfter, hacq, hv, ht]
      · by_cases hrel : e.type = "checkpoint.barrier.released"
        · obtain ⟨id, hid⟩ := hname hrel
          have hlast : lastAcquired (w.db.events.rows ++ [e]) e.runId =
              lastAcquired w.db.events.rows e.runId :=
            lastAcquired_append_of_ne (fun hboth => hacq hboth.1)
          rw [hview]
          unfold barrierView
          rw [hlast]
          have hfree : Json.null.pyEq (.str id) = false := by simp [Json.pyEq, Json.normal]
          cases hl : lastAcquired w.db.events.rows e.runId with
          | none => simp [barrierAfter, hrel, hid, hfree]
          | some a =>
              obtain ⟨ha, htype, hrunId⟩ := mem_of_lastAcquired hl
              obtain ⟨n, -, hn, -⟩ := h.named a ha (by simp [barrierTypes, htype])
              rw [Event.Names] at hn
              have hiff : Released (w.db.events.rows ++ [e]) a ↔ Released w.db.events.rows a ∨
                  id = barrierName n := by
                rw [released_append, hid, hn]
                simp [hrel, hrunId]
              by_cases hreleased : Released w.db.events.rows a
              · simp [hiff, hreleased, barrierAfter, hrel, hid, hfree]
              · by_cases hsame : id = barrierName n
                · simp [hiff, hreleased, barrierAfter, hrel, hid, hn, hsame]
                · have hne : barrierName n ≠ id := fun heq => hsame heq.symm
                  simp [hiff, hreleased, barrierAfter, hrel, hid, hn, hsame, hne]
        · have hother : e.type ∉ barrierTypes := by simp [barrierTypes, hacq, hrel]
          rw [barrierView_append_of_ne (fun _ => hother), ← hview]
          simp [barrierAfter, hacq, hrel]
    · rw [if_neg heq, barrierView_append_of_ne (fun hsame => absurd hsame.symm heq)]
      exact hview
  · -- the event has made the run
    have hnone : w.db.loadProjection "run" runId = none := Option.not_isSome_iff_eq_none.mp hold
    have heq : runId = e.runId := by
      by_contra hne
      obtain ⟨r, -, hload⟩ := he.run
      rw [hload, if_neg hne, hnone] at hrun
      cases hrun
    subst heq
    have hother : e.type ≠ "checkpoint.barrier.acquired" ∧ e.type ≠ "checkpoint.barrier.released" := by
      obtain ⟨r, hr, hload⟩ := he.run
      rw [hload, if_pos rfl, hnone] at hrun
      rcases nextRun_cases hr with ⟨-, -, rfl⟩ | ⟨run, count, hcreated, -⟩
      · cases hrun
      · rcases hcreated with hcreated | ⟨-, hcreated, -⟩
        · rw [hnone] at hcreated
          cases hcreated
        · rw [hcreated]
          simp
    rw [he.barrier_none hnone hother, barrierView_append_of_ne
      (fun _ => by simp [barrierTypes, hother])]
    have hlast : lastAcquired w.db.events.rows e.runId = none := by
      rw [lastAcquired, List.getLast?_eq_none_iff, List.filter_eq_nil_iff]
      intro f hf hboth
      obtain ⟨htype, hrunId⟩ := of_decide_eq_true hboth
      have hsome := (h.acquired f hf htype).1
      rw [hrunId, hnone] at hsome
      cases hsome
    rw [barrierView, hlast]

theorem Database.NewEvent.grows {n : ℕ} (he : w.db.NewEvent e db) : w.Grows ⟨db, n⟩ :=
  ⟨fun _ hrun => he.run_isSome hrun, by
    show w.db.events.rows ⊆ db.events.rows
    rw [he.rows]
    exact List.subset_append_left _ _⟩

theorem Database.SameLog.grows {n : ℕ} (hs : w.db.SameLog db) : w.Grows ⟨db, n⟩ := by
  refine ⟨fun runId hrun => ?_, ?_⟩
  · show (db.loadProjection "run" runId).isSome
    rw [hs.loadProjection]
    exact hrun
  · show w.db.events.rows ⊆ db.events.rows
    rw [hs.events]
    exact List.Subset.refl _

/-- The barriers after a new event: who acquires one uses a name that nobody else has. -/
theorem Barriers.newEvent (h : Barriers w owned) (he : w.db.NewEvent e db)
    (hname : e.type ∈ barrierTypes → ∃ n < w.drawn, e.Names n ∧ owned n = 0)
    (hacq : e.type = "checkpoint.barrier.acquired" → (w.db.loadProjection "run" e.runId).isSome ∧
      (∃ t : DateTime, e.get? "expires_at" = some (.time t) ∧ t.Aware) ∧ ∀ f ∈ w.db.events.rows,
        f.type ∈ barrierTypes → f.get? "barrier_id" ≠ e.get? "barrier_id") :
    Barriers { w with db := db } owned where
  created := by
    intro f hf htype
    rw [he.rows, List.mem_append, List.mem_singleton] at hf
    rcases hf with hf | rfl
    · exact he.run_isSome (h.created f hf htype)
    · exact he.run_created htype
  named := by
    intro f hf htype
    rw [he.rows, List.mem_append, List.mem_singleton] at hf
    rcases hf with hf | rfl
    · exact h.named f hf htype
    · exact hname htype
  acquired := by
    intro f hf htype
    rw [he.rows, List.mem_append, List.mem_singleton] at hf
    rcases hf with hf | rfl
    · obtain ⟨hrun, hexpires⟩ := h.acquired f hf htype
      exact ⟨he.run_isSome hrun, hexpires⟩
    · obtain ⟨hrun, hexpires, -⟩ := hacq htype
      exact ⟨he.run_isSome hrun, hexpires⟩
  once := h.once
  view := by
    intro runId hrun
    show db.barrier runId = barrierView db.events.rows runId
    rw [he.rows]
    refine h.view_newEvent he ?_ ?_ hrun
    · intro htype
      obtain ⟨hknown, ⟨t, ht, -⟩, hfresh⟩ := hacq htype
      obtain ⟨n, -, hn, -⟩ := hname (by simp [barrierTypes, htype])
      rw [Event.Names] at hn
      exact ⟨hknown, by simp [hn], by simp [ht], hfresh⟩
    · intro htype
      obtain ⟨n, -, hn, -⟩ := hname (by simp [barrierTypes, htype])
      exact ⟨barrierName n, hn⟩

/-- What others write. -/
theorem Barriers.others (h : Barriers w owned) (hw : WithoutBarriers w w') :
    Barriers w' owned ∧ w.Grows w' := by
  obtain ⟨hdrawn, es, hwrote, hes⟩ := hw
  have hboth : Barriers ⟨w'.db, w.drawn⟩ owned ∧ w.Grows ⟨w'.db, w.drawn⟩ := by
    refine @Database.Wrote.preserves w.db w'.db es
      (fun db => Barriers ⟨db, w.drawn⟩ owned ∧ w.Grows ⟨db, w.drawn⟩) hwrote ?_ ?_ ⟨h, .refl w⟩
    · intro db db' hs hinv
      exact ⟨@Barriers.sameLog ⟨db, w.drawn⟩ owned db' hinv.1 hs,
        hinv.2.trans (@Database.SameLog.grows ⟨db, w.drawn⟩ db' w.drawn hs)⟩
    · intro db e db' he hmem hinv
      have hother := hes e hmem
      refine ⟨@Barriers.newEvent ⟨db, w.drawn⟩ owned db' e hinv.1 he ?_ ?_,
        hinv.2.trans (@Database.NewEvent.grows ⟨db, w.drawn⟩ db' e w.drawn he)⟩
      · intro htype
        exact absurd htype hother
      · intro htype
        exact absurd (by simp [barrierTypes, htype]) hother
  exact ⟨hboth.1.draw hdrawn, hboth.2.runs, hboth.2.log⟩

end invariant

/-! ### Every caller keeps it -/

section callers

variable {w : StoreWorld} {m : ℕ → ℕ} {identity acquired : Event} {runId requestId drawn : String}
  {checkpoint : String} {expiresAt : DateTime} {n : ℕ}

/-- Reading the clock. -/
theorem checkpoint_now {post : Except RuntimeError DateTime → StoreWorld → (ℕ → ℕ) → Prop}
    (h : ∀ (t : DateTime) w', t.Aware → w.Grows w' → post (.ok t) w' m) :
    Safe checkpointStep Barriers StoreWorld.Grows StoreWorld.Grows post
      (now : RuntimeM checkpointInterface DateTime) w m := by
  refine safe_call ?_
  rintro w₁ R t w₂ hrely hinv ⟨hutc, rfl⟩
  refine ⟨m, hinv, .refl _, h t _ ?_ hrely⟩
  show (DateTime.utcOffset t).isSome
  rw [hutc]
  rfl

/-- Drawing an identifier that names no barrier. -/
theorem checkpoint_uuid {post : Except RuntimeError String → StoreWorld → (ℕ → ℕ) → Prop}
    (h : ∀ id w', w.Grows w' → post (.ok id) w' m) :
    Safe checkpointStep Barriers StoreWorld.Grows StoreWorld.Grows post
      (uuid : RuntimeM checkpointInterface String) w m := by
  refine safe_call ?_
  rintro w₁ R id w₂ hrely hinv ⟨rfl, rfl⟩
  exact ⟨m, hinv.draw (Nat.le_succ _), ⟨fun _ hrun => hrun, List.Subset.refl _⟩,
    h _ _ ⟨hrely.runs, hrely.log⟩⟩

theorem names_barrierAcquired {id : String} {createdAt : DateTime} :
    (barrierAcquired identity (barrierName n) checkpoint expiresAt id createdAt).Names n := rfl

/-- Acquiring a barrier under a name of one's own. -/
theorem acquire_safe (hknown : (w.db.loadProjection "run" identity.runId).isSome)
    (hexpires : expiresAt.Aware) :
    Safe checkpointStep Barriers StoreWorld.Grows StoreWorld.Grows
      (fun r w m => ∀ stored, r = .ok stored → m = 0 ∧ ∃ f ∈ w.db.events.rows,
        f.type ∈ barrierTypes ∧ f.Names n)
      (appendDrawn (barrierAcquired identity (barrierName n) checkpoint expiresAt) :
        RuntimeM checkpointInterface Event) w (Pi.single n 1) := by
  refine @safe_bind _ _ _ _ _ _ _ _ _ _ _ _ _ _
    (fun _ w m => (w.db.loadProjection "run" identity.runId).isSome ∧ m = Pi.single n 1) _
    (checkpoint_uuid fun id w' hgrow => ⟨hgrow.runs _ hknown, rfl⟩) ?_
  rintro id w m ⟨hknown, rfl⟩
  refine @safe_append _ _ _ _ _ _ _ _ _ _ _ _
    (fun _ w m => (w.db.loadProjection "run" identity.runId).isSome ∧ m = Pi.single n 1) _ ?_ ?_
  · rintro w₁ R t w₂ hrely hinv ⟨-, rfl⟩
    exact ⟨_, hinv, .refl _, hrely.runs _ hknown, rfl⟩
  · rintro createdAt w m w₁ R r w₂ ⟨hknown, rfl⟩ hrely hinv ⟨d, t, -, -, hout⟩
    have hone := (hinv.once n).1
    rw [Pi.add_apply, Pi.single_eq_same] at hone
    -- no barrier has this name yet
    have hfresh : ∀ f ∈ w₁.db.events.rows, f.type ∈ barrierTypes →
        f.get? "barrier_id" ≠ some (.str (barrierName n)) := by
      intro f hf htype hsame
      obtain ⟨k, -, hk, hzero⟩ := hinv.named f hf htype
      obtain rfl := Event.Names.inj hk hsame
      rw [Pi.add_apply, Pi.single_eq_same] at hzero
      omega
    cases happend : w₁.db.append d (barrierAcquired identity (barrierName n) checkpoint expiresAt id
        createdAt) t with
    | error err =>
        rw [happend] at hout
        obtain ⟨rfl, rfl⟩ := Prod.mk.inj hout
        exact ⟨_, hinv, .refl _, fun stored hstored => by cases hstored⟩
    | ok out =>
        obtain ⟨stored, db⟩ := out
        rw [happend] at hout
        obtain ⟨rfl, rfl⟩ := Prod.mk.inj hout
        rcases Database.append_cases happend with ⟨rfl, hlook, hsame⟩ | ⟨rfl, hnew⟩
        · have hmem := Table.mem_of_lookup hlook
          have htype : stored.type = "checkpoint.barrier.acquired" := congrArg Event.type hsame
          have hpayload := congrArg Event.payload hsame
          refine absurd ?_ (hfresh stored hmem (by simp [barrierTypes, htype]))
          show Dict.get? stored.payload "barrier_id" = _
          rw [show stored.payload = _ from hpayload]
          rfl
        · have hlt := (hinv.once n).2
          rw [Pi.add_apply, Pi.single_eq_same] at hlt
          refine ⟨0, ?_, hnew.grows, ?_⟩
          · rw [zero_add]
            refine hinv.drop.newEvent hnew ?_ ?_
            · intro _
              exact ⟨n, hlt (by omega), names_barrierAcquired, by omega⟩
            · intro _
              exact ⟨hrely.runs _ hknown, ⟨expiresAt, rfl, hexpires⟩, hfresh⟩
          · intro stored hstored
            have hmem : barrierAcquired identity (barrierName n) checkpoint expiresAt id createdAt ∈
                db.events.rows := by
              rw [hnew.rows]
              exact List.mem_append_right _ (List.mem_singleton_self _)
            exact ⟨rfl, _, hmem, by simp [barrierTypes, barrierAcquired], names_barrierAcquired⟩

/-- Releasing it. -/
theorem release_safe (hmine : ∃ f ∈ w.db.events.rows, f.type ∈ barrierTypes ∧ f.Names n) :
    Safe checkpointStep Barriers StoreWorld.Grows StoreWorld.Grows (fun _ _ _ => True)
      (appendDrawn (barrierReleased identity acquired (barrierName n) checkpoint) :
        RuntimeM checkpointInterface Event) w m := by
  refine @safe_bind _ _ _ _ _ _ _ _ _ _ _ _ _ _
    (fun _ w _ => ∃ f ∈ w.db.events.rows, f.type ∈ barrierTypes ∧ f.Names n) _
    (checkpoint_uuid fun id w' hgrow => ?_) ?_
  · obtain ⟨f, hf, hname⟩ := hmine
    exact ⟨f, hgrow.log hf, hname⟩
  · intro id w m hmine
    refine @safe_append _ _ _ _ _ _ _ _ _ _ _ _
      (fun _ w _ => ∃ f ∈ w.db.events.rows, f.type ∈ barrierTypes ∧ f.Names n) _ ?_ ?_
    · rintro w₁ R t w₂ hrely hinv ⟨-, rfl⟩
      obtain ⟨f, hf, hname⟩ := hmine
      exact ⟨m, hinv, .refl _, f, hrely.log hf, hname⟩
    · rintro createdAt w m w₁ R r w₂ ⟨f, hf, htype, hname⟩ hrely hinv ⟨d, t, -, -, hout⟩
      cases happend : w₁.db.append d (barrierReleased identity acquired (barrierName n) checkpoint id
          createdAt) t with
      | error err =>
          rw [happend] at hout
          obtain ⟨rfl, rfl⟩ := Prod.mk.inj hout
          exact ⟨m, hinv, .refl _, trivial⟩
      | ok out =>
          obtain ⟨stored, db⟩ := out
          rw [happend] at hout
          obtain ⟨rfl, rfl⟩ := Prod.mk.inj hout
          rcases Database.append_cases happend with ⟨rfl, -, -⟩ | ⟨rfl, hnew⟩
          · have hsame := Database.sameLog_skipSeq w₁.db
            exact ⟨m, hinv.sameLog hsame, hsame.grows, trivial⟩
          · refine ⟨m, hinv.newEvent hnew ?_ ?_, hnew.grows, trivial⟩
            · intro _
              obtain ⟨k, hlt, hk, hzero⟩ := hinv.named f (hrely.log hf) htype
              obtain rfl := Event.Names.inj hk hname
              exact ⟨k, hlt, rfl, hzero⟩
            · intro hacquired
              simp [barrierReleased] at hacquired

theorem createCheckpointOf_safe (hknown : (w.db.loadProjection "run" identity.runId).isSome) :
    Safe checkpointStep Barriers StoreWorld.Grows StoreWorld.Grows (fun _ _ _ => True)
      (createCheckpointOf identity runId requestId) w 0 := by
  -- the name it draws is its own until the barrier is acquired
  refine @safe_bind _ _ _ _ _ _ _ _ _ _ _ _ _ _
    (fun drawn w m => ∃ n, drawn = uuid4 n ∧ m = Pi.single n 1 ∧
      (w.db.loadProjection "run" identity.runId).isSome) _ (safe_call ?_) ?_
  · rintro w₁ R drawn w₂ hrely hinv ⟨rfl, rfl⟩
    rw [zero_add] at hinv
    exact ⟨_, hinv.own, ⟨fun _ hrun => hrun, List.Subset.refl _⟩, w₁.drawn, rfl, rfl,
      hrely.runs _ hknown⟩
  rintro _ w m ⟨n, rfl, rfl, hknown⟩
  refine @safe_bind _ _ _ _ _ _ _ _ _ _ _ _ _ _
    (fun (t : DateTime) w m => t.Aware ∧ m = Pi.single n 1 ∧
      (w.db.loadProjection "run" identity.runId).isSome) _
    (checkpoint_now fun t w' haware hgrow => ⟨haware, rfl, hgrow.runs _ hknown⟩) ?_
  rintro t w m ⟨haware, rfl, hknown⟩
  refine @safe_bind _ _ _ _ _ _ _ _ _ _ _ _ _ _
    (fun _ w _ => ∃ f ∈ w.db.events.rows, f.type ∈ barrierTypes ∧ f.Names n) _
    ((acquire_safe hknown ((DateTime.addSeconds_aware t 300).mpr haware)).weaken ?_) ?_
  · intro r w m hr
    cases r with
    | ok stored => exact (hr stored rfl).2
    | error err => trivial
  intro acquired w m hmine
  refine @safe_tryFinally _ _ _ _ _ _ _ _ _ _ _ _ _ _
    (fun _ w _ => ∃ f ∈ w.db.events.rows, f.type ∈ barrierTypes ∧ f.Names n) _ ?_ ?_
  · refine @safe_bind _ _ _ _ _ _ _ _ _ _ _ _ _ _
      (fun _ w _ => ∃ f ∈ w.db.events.rows, f.type ∈ barrierTypes ∧ f.Names n) _ ?_ ?_
    · rintro w₁ R quiescent w₂ hrely hinv ⟨rfl, -⟩
      obtain ⟨f, hf, hname⟩ := hmine
      refine ⟨m, hinv, .refl _, ?_⟩
      cases quiescent with
      | true => exact ⟨f, hrely.log hf, hname⟩
      | false => exact ⟨f, hrely.log hf, hname⟩
    · rintro _ w m ⟨f, hf, hname⟩ w₁ R r w₂ hrely hinv hothers
      obtain ⟨hinv', hgrow⟩ := hinv.others hothers
      exact ⟨m, hinv', hgrow, f, hgrow.log (hrely.log hf), hname⟩
  · intro r w m hmine
    refine (release_safe hmine).weaken ?_
    intro r' w m _
    cases r' with
    | ok _ => trivial
    | error _ => trivial

theorem createCheckpoint_safe (w : StoreWorld) :
    Safe checkpointStep Barriers StoreWorld.Grows StoreWorld.Grows (fun _ _ _ => True)
      (createCheckpoint runId requestId) w 0 := by
  refine @safe_bind _ _ _ _ _ _ _ _ _ _ _ _ _ _
    (fun events w m => m = 0 ∧ ∀ e ∈ events, e.type = "run.created" →
      (w.db.loadProjection "run" e.runId).isSome) _ (safe_call ?_) ?_
  · rintro w₁ R events w₂ hrely hinv ⟨rfl, rfl⟩
    refine ⟨0, hinv, .refl _, rfl, ?_⟩
    intro e he htype
    exact hinv.created e (List.mem_of_mem_filter he) htype
  · rintro events w m ⟨rfl, hknown⟩
    cases hidentity : runCreatedOf events with
    | none => exact safe_done trivial
    | some identity =>
        have htype := List.find?_some hidentity
        exact createCheckpointOf_safe
          (hknown identity (List.mem_of_find?_eq_some hidentity) (by simpa using htype))

end callers

theorem checkpointRules_sound :
    Pool.Sound checkpointRules Barriers StoreWorld.Grows (fun _ _ => True) where
  refl := StoreWorld.Grows.refl
  trans := StoreWorld.Grows.trans
  stable := fun _ _ _ _ _ => trivial
  drop := fun _ _ _ h => h.drop
  starts := by
    rintro w p w' m hinv ⟨runId, requestId⟩
    refine ⟨.refl _, 0, by rwa [zero_add], ?_⟩
    exact safe_thread (createCheckpoint_safe w) (fun _ _ _ _ => trivial)
  env := fun _ _ _ hinv hothers => hinv.others hothers

theorem barriers_initial : Barriers ⟨.initial, 0⟩ 0 where
  created := fun e he => absurd he (List.not_mem_nil)
  named := fun e he => absurd he (List.not_mem_nil)
  acquired := fun e he => absurd he (List.not_mem_nil)
  once := fun n => ⟨Nat.zero_le 1, fun h => absurd h (lt_irrefl 0)⟩
  view := fun runId hrun => by cases hrun

/-- The invariant holds whatever callers do, and wherever they die. -/
theorem barriers_of_reachable {P : Pool (withStore checkpointInterface) Unit StoreWorld}
    (h : Pool.Reachable checkpointRules emptyStore P) : ∃ owned, Barriers P.state owned := by
  have hempty : Pool.Ok checkpointRules Barriers StoreWorld.Grows (fun _ _ => True) emptyStore [] :=
    ⟨barriers_initial, .nil, fun a ha => absurd ha (List.not_mem_nil)⟩
  obtain ⟨owned, hok⟩ := Pool.ok_of_reachable checkpointRules_sound hempty h
  exact ⟨owned.sum, hok.invariant⟩

/-! ### What a barrier blocks -/

section blocks

variable {w : StoreWorld} {owned : ℕ → ℕ} {now : DateTime} {runId : String}

/-- `claim_work` sees a barrier exactly when the one acquired last is open and unexpired. -/
theorem barrierHolds_iff (h : Barriers w owned) (runId : String) (now : DateTime) :
    ∃ v, w.db.barrierHolds (some runId) now = .ok v ∧
      (v = true ↔ ∃ b, lastAcquired w.db.events.rows runId = some b ∧
        HoldsAt w.db.events.rows now b) := by
  unfold Database.barrierHolds
  simp only [Option.bind_some]
  cases hrun : w.db.loadProjection "run" runId with
  | none =>
      refine ⟨false, rfl, ?_⟩
      simp only [Bool.false_eq_true, false_iff]
      rintro ⟨b, hb, -⟩
      obtain ⟨hmem, htype, rfl⟩ := mem_of_lastAcquired hb
      have hsome := (h.acquired b hmem htype).1
      rw [hrun] at hsome
      cases hsome
  | some run =>
      have hview := congrArg Prod.snd (h.view runId (by rw [hrun]; rfl))
      simp only [Database.barrier, hrun, Option.getD_some] at hview
      simp only [hview]
      unfold barrierView
      cases hlast : lastAcquired w.db.events.rows runId with
      | none => exact ⟨false, rfl, by simp⟩
      | some b =>
          obtain ⟨hmem, htype, -⟩ := mem_of_lastAcquired hlast
          obtain ⟨-, t, ht, haware⟩ := h.acquired b hmem htype
          by_cases hreleased : Released w.db.events.rows b
          · refine ⟨false, by simp [hreleased, Json.truthy], ?_⟩
            simp [HoldsAt, hreleased]
          · refine ⟨decide (now.instant < t.instant), by simp [hreleased, ht, Json.truthy, haware], ?_⟩
            simp [HoldsAt, hreleased, ht]

/-- Some work can always be claimed, unless the run is under a barrier. -/
theorem claimWork_succeeds (db : Database) (hnow : now.Aware)
    (hbarrier : db.barrierHolds (some runId) now = .ok false) :
    ∃ key claims db', db.claimWork [key] "scheduler" 1 now (some runId) = .ok (some claims, db') := by
  obtain ⟨key, hkey⟩ := Infinite.exists_notMem_finset
    (db.workClaims.rows.map WorkClaimRow.claimKey).toFinset
  have hfree : db.workClaims.lookup key = none := by
    rw [Table.lookup_eq_none_iff]
    intro r hr heq
    apply hkey
    rw [List.mem_toFinset, ← heq]
    exact List.mem_map_of_mem hr
  refine ⟨key, (db.takeKeys "scheduler" now 1 [key]).1, (db.takeKeys "scheduler" now 1 [key]).2, ?_⟩
  simp [Database.claimWork, hbarrier, hnow, hfree, ensure]

/-- A barrier that is seen lets nothing be claimed. -/
theorem claimWork_blocked {db db' : Database} {keys : List String} {owner : String} {ttl : ℤ}
    {result : Option Claims} (hbarrier : db.barrierHolds (some runId) now = .ok true)
    (h : db.claimWork keys owner ttl now (some runId) = .ok (result, db')) : result = none := by
  unfold Database.claimWork at h
  obtain ⟨_, _, h⟩ := bind_ok_iff.mp h
  obtain ⟨_, _, h⟩ := bind_ok_iff.mp h
  obtain ⟨_, _, h⟩ := bind_ok_iff.mp h
  obtain ⟨barrier, hseen, h⟩ := bind_ok_iff.mp h
  rw [hbarrier] at hseen
  obtain rfl := Except.ok.inj hseen
  rw [Bool.true_or, if_pos rfl] at h
  exact (Prod.mk.inj (Except.ok.inj h)).1.symm

/-- **Barriers block work exactly when the last one stands for all.** -/
theorem barrier_blocks_iff {P : Pool (withStore checkpointInterface) Unit StoreWorld}
    (h : Pool.Reachable checkpointRules emptyStore P) (runId : String) {now : DateTime}
    (hnow : now.Aware) :
    ((∃ a ∈ P.state.db.events.rows, a.type = "checkpoint.barrier.acquired" ∧ a.runId = runId ∧
        HoldsAt P.state.db.events.rows now a) →
      ∀ keys owner ttl result db',
        P.state.db.claimWork keys owner ttl now (some runId) = .ok (result, db') → result = none) ↔
      ((∃ a ∈ P.state.db.events.rows, a.type = "checkpoint.barrier.acquired" ∧ a.runId = runId ∧
        HoldsAt P.state.db.events.rows now a) →
      ∃ b, lastAcquired P.state.db.events.rows runId = some b ∧
        HoldsAt P.state.db.events.rows now b) := by
  obtain ⟨owned, hinv⟩ := barriers_of_reachable h
  obtain ⟨v, hv, hiff⟩ := barrierHolds_iff hinv runId now
  refine imp_congr_right ?_
  intro _
  rw [← hiff]
  cases v with
  | true =>
      refine iff_of_true ?_ rfl
      intro keys owner ttl result db' hclaim
      exact claimWork_blocked hv hclaim
  | false =>
      refine iff_of_false ?_ (by simp)
      intro hblocks
      obtain ⟨key, claims, db', hclaim⟩ := claimWork_succeeds P.state.db hnow hv
      cases hblocks [key] "scheduler" 1 (some claims) db' hclaim

end blocks

/-! ### Two callers -/

/-- The clock stands still; runs become quiescent and can be captured. -/
def checkpointStrategy (clock : DateTime) (hclock : clock.utcOffset = some 0) :
    Strategy checkpointRules.step where
  act
    | .inl op, w => some (storeStrategy clock op w)
    | .inr (.quiescence runId), w =>
        some ((decide (¬ RunAtWork w.db runId clock), w) : Bool × StoreWorld)
    | .inr (.create _ _), w => some ((.ok (), w) : Except RuntimeError Unit × StoreWorld)
  sound := by
    intro op w r h
    cases op with
    | inl op =>
        cases h
        exact storeStrategy_sound hclock op w
    | inr op =>
        cases op with
        | quiescence runId =>
            cases h
            exact ⟨rfl, clock, rfl⟩
        | create runId requestId =>
            cases h
            exact ⟨le_rfl, [], .nothing (.refl _), fun e he => absurd he (List.not_mem_nil)⟩

/-- The start of a run. -/
def runStarted (runId taskId : String) (createdAt : DateTime) : Event where
  id := "created-" ++ runId
  runId := runId
  taskId := taskId
  type := "run.created"
  source := "runtime"
  payload := []
  createdAt := createdAt

/-- Noon. -/
def noon : DateTime := ⟨43200000000, some 0⟩

/-- A run, and two callers that want a checkpoint of it. -/
def twoCallers : Pool (withStore checkpointInterface) Unit StoreWorld :=
  ⟨(StoreWorld.mk .initial 0).wrote [runStarted "r1" "t1" noon],
    [(createCheckpoint "r1" "first").thread, (createCheckpoint "r1" "second").thread], []⟩

theorem twoCallers_reachable : Pool.Reachable checkpointRules emptyStore twoCallers := by
  refine .tail (.tail (.single (.env ?_)) (.start (.create _ _ _))) (.start (.create _ _ _))
  obtain ⟨es, hes, hwrote, hdrawn⟩ :=
    (StoreWorld.mk .initial 0).wrote_db [runStarted "r1" "t1" noon]
  refine ⟨hdrawn.ge, es, hwrote, ?_⟩
  intro e he
  rw [List.mem_singleton.mp (hes he)]
  decide

/-- While only the first caller has acquired a barrier, it blocks. -/
theorem oneCaller_blocks :
    let P := Pool.follow (checkpointStrategy noon rfl) twoCallers [0, 0, 0, 0, 0, 0]
    Pool.Reachable checkpointRules emptyStore P ∧ ∀ keys owner ttl result db',
      P.state.db.claimWork keys owner ttl noon (some "r1") = .ok (result, db') → result = none := by
  refine ⟨twoCallers_reachable.trans (Pool.follow_reachable _ _ _), ?_⟩
  refine (barrier_blocks_iff (twoCallers_reachable.trans (Pool.follow_reachable _ _ _)) "r1"
    (by decide)).mpr (fun _ => ?_) ?_
  · exact ⟨_, rfl, by decide, noon.addSeconds 300, rfl, by decide⟩
  · exact ⟨_, List.mem_cons_of_mem _ (List.mem_singleton_self _), rfl, rfl, by decide,
      noon.addSeconds 300, rfl, by decide⟩

/-- Both callers acquire, the second one captures the run and releases; then work of the run is
claimed under the open barrier of the first. -/
theorem released_unblocks :
    ∃ P, Pool.Reachable checkpointRules emptyStore P ∧
      (∃ a ∈ P.state.db.events.rows, a.type = "checkpoint.barrier.acquired" ∧ a.runId = "r1" ∧
        HoldsAt P.state.db.events.rows noon a) ∧
      ∃ key claims db', P.state.db.claimWork [key] "scheduler" 1 noon (some "r1") =
        .ok (some claims, db') := by
  refine ⟨_, twoCallers_reachable.trans (Pool.follow_reachable (checkpointStrategy noon rfl) _
    [0, 0, 0, 0, 0, 0, 1, 1, 1, 1, 1, 1, 1, 1, 1, 1, 1]), ?_, ?_⟩
  · exact ⟨_, List.mem_cons_of_mem _ (List.mem_cons_self), rfl, rfl, by decide,
      noon.addSeconds 300, rfl, by decide⟩
  · exact claimWork_succeeds _ (by decide) (by decide)

end CrazyHarness
