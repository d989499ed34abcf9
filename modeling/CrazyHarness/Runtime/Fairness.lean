import CrazyHarness.Runtime.Selection

/-! # Fair and bounded reservations

Calls of `_reserve_next_locked` without a run filter, with everything else between them: deliveries
complete, runs are cancelled, the scheduler is paused, other processes work.

* `reservations_fair_and_bounded`: between two consecutive reservations for a worker every other
  worker that was ready throughout is reserved, and the in-flight set keeps both bounds at all times.
* `not_fair_to_waiting`: a worker whose only delivery is of a cancelled run waits in vain, although
  the store would give its claims. -/

namespace CrazyHarness

open Lib RuntimeM Program

/-! ### Runs -/

/-- What a call saw and returned. -/
structure Call where
  moments : List Moment
  result : Except RuntimeError (Option Reservation)

def Call.ReservedFor (c : Call) (workerId : String) : Prop :=
  ∃ r, c.result = .ok (some r) ∧ r.workerId = workerId

/-- For whom the call reserved. -/
def Call.reserved (c : Call) : Option String :=
  match c.result with
  | .ok found => found.map Reservation.workerId
  | .error _ => none

theorem Call.reservedFor_iff {c : Call} {workerId : String} :
    c.ReservedFor workerId ↔ c.reserved = some workerId := by
  obtain ⟨l, out⟩ := c
  constructor
  · rintro ⟨r, rfl, rfl⟩
    rfl
  · intro h
    match out, h with
    | .ok (some r), h => exact ⟨r, rfl, Option.some.inj h⟩

instance (c : Call) (workerId : String) : Decidable (c.ReservedFor workerId) :=
  decidable_of_iff _ Call.reservedFor_iff.symm

/-- What happens between calls: the cursor stays, and no delivery is put in flight. -/
structure Between (i : ℕ) (w w' : ResidentWorld) : Prop where
  selectionCursor : (w'.memory i).selectionCursor = (w.memory i).selectionCursor
  inFlight : List.Sublist (w'.memory i).scheduler.inFlight (w.memory i).scheduler.inFlight

/-- Calls of scheduler `i`, one after the other. -/
inductive SchedulerRun (cfg : SchedulerConfig) (i : ℕ) :
    ResidentWorld → List Call → ResidentWorld → Prop
  | start (w : ResidentWorld) : SchedulerRun cfg i w [] w
  | between {w w₁ w' : ResidentWorld} {calls : List Call} (h : Between i w w₁)
      (rest : SchedulerRun cfg i w₁ calls w') : SchedulerRun cfg i w calls w'
  | call {w w₁ w' : ResidentWorld} {l : List Moment} {out : Except RuntimeError (Option Reservation)}
      {calls : List Call} (h : Traced (LockHeld i) residentStep (reserveNext cfg i none) w l out w₁)
      (rest : SchedulerRun cfg i w₁ calls w') : SchedulerRun cfg i w (⟨l, out⟩ :: calls) w'

/-- A release, a cancellation and every other use of the memory is of this kind, except for what
`_reserve_next_locked` does to it. -/
theorem between_memory (i : ℕ) (w : ResidentWorld) {op : MemoryOp} (hreserve : ∀ r, op ≠ .reserve r)
    (hcursor : ∀ cursor, op ≠ .setSelectionCursor cursor) :
    Between i w (w.setMemory i (op.run (w.memory i)).2) := by
  have hkeep : ∀ m : ProcessMemory, m.selectionCursor = (w.memory i).selectionCursor →
      List.Sublist m.scheduler.inFlight (w.memory i).scheduler.inFlight →
      Between i w (w.setMemory i m) := by
    intro m hcursor hsub
    have hself : (w.setMemory i m).memory i = m := by
      show Function.update w.memory i m i = m
      rw [Function.update_self]
    constructor
    · rw [hself, hcursor]
    · rw [hself]
      exact hsub
  cases op with
  | reserve r => exact absurd rfl (hreserve r)
  | setSelectionCursor cursor => exact absurd rfl (hcursor cursor)
  | release workerId deliveryId =>
      refine hkeep _ rfl ?_
      exact List.filter_sublist.map Reservation.key
  | cancelRun runId reason =>
      have hkeys : (MemoryOp.run (w.memory i) (.cancelRun runId reason)).2.scheduler.inFlight =
          (w.memory i).scheduler.inFlight := by
        simp only [MemoryOp.run, ProcessMemory.scheduler, List.map_map]
        refine List.map_congr_left fun r _ => ?_
        rw [Function.comp_apply]
        split <;> rfl
      refine hkeep _ rfl ?_
      rw [hkeys]
  | _ => exact hkeep _ rfl (List.Sublist.refl _)

theorem SchedulerRun.append {cfg : SchedulerConfig} {i : ℕ} {w w' : ResidentWorld}
    {first second : List Call} (h : SchedulerRun cfg i w (first ++ second) w') :
    ∃ mid, SchedulerRun cfg i w first mid ∧ SchedulerRun cfg i mid second w' := by
  generalize hcalls : first ++ second = calls at h
  induction h generalizing first with
  | start w =>
      obtain ⟨rfl, rfl⟩ := List.append_eq_nil_iff.mp hcalls
      exact ⟨w, .start w, .start w⟩
  | between h _ ih =>
      obtain ⟨mid, hfirst, hsecond⟩ := ih hcalls
      exact ⟨mid, .between h hfirst, hsecond⟩
  | @call w _ _ l out _ h hrest ih =>
      cases first with
      | nil =>
          rw [List.nil_append] at hcalls
          exact ⟨w, .start w, hcalls ▸ .call h hrest⟩
      | cons c first =>
          obtain ⟨rfl, htail⟩ := List.cons.inj hcalls
          obtain ⟨mid, hfirst, hsecond⟩ := ih htail
          exact ⟨mid, .call h hfirst, hsecond⟩

/-- The first call of a run, and what follows it. -/
theorem SchedulerRun.first {cfg : SchedulerConfig} {i : ℕ} {w w' : ResidentWorld} {c : Call}
    {calls : List Call} (h : SchedulerRun cfg i w (c :: calls) w') :
    ∃ w₁ w₂, Traced (LockHeld i) residentStep (reserveNext cfg i none) w₁ c.moments c.result w₂ ∧
      SchedulerRun cfg i w₂ calls w' := by
  generalize hcalls : c :: calls = l at h
  induction h with
  | start w => cases hcalls
  | between _ _ ih => exact ih hcalls
  | call h hrest =>
      obtain ⟨rfl, rfl⟩ := List.cons.inj hcalls
      exact ⟨_, _, h, hrest⟩

/-! ### Bounds -/

/-- The in-flight set and its bounds. -/
structure Bounded (cfg : SchedulerConfig) (m : ProcessMemory) : Prop where
  nodup : (m.inFlight.map Reservation.key).Nodup
  maxWorkers : m.inFlight.length ≤ cfg.maxWorkers
  maxConcurrency : ∀ worker ∈ cfg.workers,
    m.inFlight.countP (fun r => r.workerId = worker.1) ≤ worker.2

/-- The bounds, of the keys. -/
structure KeysBounded (cfg : SchedulerConfig) (keys : List (String × String)) : Prop where
  nodup : keys.Nodup
  maxWorkers : keys.length ≤ cfg.maxWorkers
  maxConcurrency : ∀ worker ∈ cfg.workers, keys.countP (fun key => key.1 = worker.1) ≤ worker.2

theorem bounded_iff {cfg : SchedulerConfig} {m : ProcessMemory} :
    Bounded cfg m ↔ KeysBounded cfg m.scheduler.inFlight := by
  constructor
  · rintro ⟨hnodup, hmax, hconcurrency⟩
    refine ⟨hnodup, (length_inFlight m).symm.trans_le hmax, ?_⟩
    intro worker hworker
    exact (countP_workerId m worker.1).symm.trans_le (hconcurrency worker hworker)
  · rintro ⟨hnodup, hmax, hconcurrency⟩
    refine ⟨hnodup, (length_inFlight m).trans_le hmax, ?_⟩
    intro worker hworker
    exact (countP_workerId m worker.1).trans_le (hconcurrency worker hworker)

theorem KeysBounded.sublist {cfg : SchedulerConfig} {keys keys' : List (String × String)}
    (h : KeysBounded cfg keys) (hsub : List.Sublist keys' keys) : KeysBounded cfg keys' where
  nodup := h.nodup.sublist hsub
  maxWorkers := hsub.length_le.trans h.maxWorkers
  maxConcurrency worker hworker := hsub.countP_le.trans (h.maxConcurrency worker hworker)

section

variable {cfg : SchedulerConfig} {i : ℕ}

/-- Two workers of a name are one. -/
theorem worker_eq_of_name (hnames : (cfg.workers.map Prod.fst).Nodup) {v w : String × ℕ}
    (hv : v ∈ cfg.workers) (hw : w ∈ cfg.workers) (h : v.1 = w.1) : v = w :=
  List.inj_on_of_nodup_map hnames hv hw h

theorem Selects.mem {V : SchedulerView} {l : List Moment} {r : Reservation} {w : ResidentWorld}
    {passed : List (String × ℕ)} {worker : String × ℕ} {next : ℕ}
    (h : Selects cfg i V l r w passed worker next) : worker ∈ cfg.workers := by
  obtain ⟨rest, hqueue, -⟩ := h.turn
  have hmem : worker ∈ cfg.workers.rotate V.selectionCursor := by
    rw [hqueue]
    exact List.mem_append_right passed List.mem_cons_self
  exact List.mem_rotate.mp hmem

/-- A reservation keeps the bounds. -/
theorem Selects.keysBounded (hnames : (cfg.workers.map Prod.fst).Nodup) {V : SchedulerView}
    {l : List Moment} {r : Reservation} {w : ResidentWorld} {passed : List (String × ℕ)}
    {worker : String × ℕ} {next : ℕ} (h : Selects cfg i V l r w passed worker next)
    (hbounded : KeysBounded cfg V.inFlight) : KeysBounded cfg (V.inFlight ++ [r.key]) where
  nodup := List.nodup_append.mpr ⟨hbounded.nodup, List.nodup_singleton _, by
    intro key hkey other hother
    obtain rfl := List.mem_singleton.mp hother
    rintro rfl
    exact h.reserves.fresh hkey⟩
  maxWorkers := by
    rw [List.length_append, List.length_singleton]
    exact h.room
  maxConcurrency := by
    intro v hv
    rw [List.countP_append, List.countP_singleton]
    by_cases hname : r.key.1 = v.1
    · obtain rfl := worker_eq_of_name hnames h.mem hv (h.name.symm.trans hname)
      rw [if_pos (by simpa using hname)]
      exact h.spare
    · rw [if_neg (by simpa using hname)]
      exact hbounded.maxConcurrency v hv

/-- A call keeps the bounds at all its moments. -/
theorem bounded_call (hnames : (cfg.workers.map Prod.fst).Nodup) {w w' : ResidentWorld}
    {l : List Moment} {out : Except RuntimeError (Option Reservation)}
    (h : Traced (LockHeld i) residentStep (reserveNext cfg i none) w l out w')
    (hbounded : KeysBounded cfg (w.memory i).scheduler.inFlight) :
    KeysBounded cfg (w'.memory i).scheduler.inFlight ∧
      ∀ m ∈ l, KeysBounded cfg (m.1.memory i).scheduler.inFlight := by
  have hspec := reserveNext_spec cfg i (w.memory i).scheduler w l out w' rfl h
  have hquiet : Undisturbed i (w.memory i).scheduler l w' → KeysBounded cfg (w'.memory i).scheduler.inFlight ∧
      ∀ m ∈ l, KeysBounded cfg (m.1.memory i).scheduler.inFlight := by
    rintro ⟨hat, hmoments⟩
    refine ⟨?_, fun m hm => ?_⟩
    · rw [show (w'.memory i).scheduler = _ from hat]
      exact hbounded
    · rw [show (m.1.memory i).scheduler = _ from hmoments m hm]
      exact hbounded
  match out, hspec with
  | .error e, hspec => exact hquiet hspec
  | .ok none, ⟨hspec, _⟩ => exact hquiet hspec
  | .ok (some r), ⟨passed, worker, next, hselects⟩ =>
      have hmore := hselects.keysBounded hnames hbounded
      refine ⟨?_, fun m hm => ?_⟩
      · rw [show (w'.memory i).scheduler = _ from hselects.reserves.after]
        exact hmore
      · rcases hselects.reserves.moments m hm with hsame | hadded
        · exact hsame ▸ hbounded
        · exact hadded ▸ hmore

/-- A run keeps the bounds at all times. -/
theorem bounded_run (hnames : (cfg.workers.map Prod.fst).Nodup) {w w' : ResidentWorld}
    {calls : List Call} (hrun : SchedulerRun cfg i w calls w')
    (hbounded : KeysBounded cfg (w.memory i).scheduler.inFlight) :
    KeysBounded cfg (w'.memory i).scheduler.inFlight ∧
      ∀ c ∈ calls, ∀ m ∈ c.moments, KeysBounded cfg (m.1.memory i).scheduler.inFlight := by
  induction hrun with
  | start w => exact ⟨hbounded, fun c hc => absurd hc List.not_mem_nil⟩
  | between h _ ih => exact ih (hbounded.sublist h.inFlight)
  | call h _ ih =>
      obtain ⟨hafter, hmoments⟩ := bounded_call hnames h hbounded
      obtain ⟨hlast, hrest⟩ := ih hafter
      refine ⟨hlast, ?_⟩
      intro c hc
      rcases List.mem_cons.mp hc with rfl | hc
      · exact hmoments
      · exact hrest c hc

/-! ### Fairness -/

/-- Between two consecutive reservations for a worker, every other worker that was `ready` throughout
is reserved. -/
def FairTo (cfg : SchedulerConfig) (ready : String × ℕ → Delivery → ℕ → Moment → Prop)
    (calls : List Call) : Prop :=
  ∀ before first between last after workerId other,
    calls = before ++ first :: (between ++ last :: after) →
    first.ReservedFor workerId → last.ReservedFor workerId →
    (∀ c ∈ between, ¬ c.ReservedFor workerId) →
    other ∈ cfg.workers → other.1 ≠ workerId →
    (∀ c ∈ between ++ [last], ∃ d slot, ∀ m ∈ c.moments, ready other d slot m) →
    ∃ c ∈ between, c.ReservedFor other.1

/-- The workers in the order in which the next call looks at them. -/
def queueOf (cfg : SchedulerConfig) (i : ℕ) (w : ResidentWorld) : List (String × ℕ) :=
  cfg.workers.rotate (w.memory i).selectionCursor

theorem queueOf_nodup (hnames : (cfg.workers.map Prod.fst).Nodup) (w : ResidentWorld) :
    (queueOf cfg i w).Nodup :=
  List.nodup_rotate.mpr (List.Nodup.of_map Prod.fst hnames)

/-- A call reserves in turn, or leaves the queue alone. -/
theorem queueOf_call {w w' : ResidentWorld} {l : List Moment}
    {out : Except RuntimeError (Option Reservation)}
    (h : Traced (LockHeld i) residentStep (reserveNext cfg i none) w l out w') :
    ((∀ r, out ≠ .ok (some r)) ∧ queueOf cfg i w' = queueOf cfg i w) ∨
      ∃ r passed worker, out = .ok (some r) ∧ worker ∈ cfg.workers ∧ r.workerId = worker.1 ∧
        Turn passed worker (queueOf cfg i w) (queueOf cfg i w') ∧
        ∀ v ∈ passed, ∀ d slot, Refuted (Ready cfg i v d slot) l := by
  have hspec := reserveNext_spec cfg i (w.memory i).scheduler w l out w' rfl h
  have hquiet : Shows i (w.memory i).scheduler w' → queueOf cfg i w' = queueOf cfg i w := by
    intro hat
    exact congrArg (fun V : SchedulerView => cfg.workers.rotate V.selectionCursor) hat
  match out, hspec with
  | .error e, hspec => exact .inl ⟨nofun, hquiet hspec.1⟩
  | .ok none, ⟨hspec, _⟩ => exact .inl ⟨nofun, hquiet hspec.1⟩
  | .ok (some r), ⟨passed, worker, next, hselects⟩ =>
      refine .inr ⟨r, passed, worker, rfl, hselects.mem, hselects.name, ?_, hselects.unready⟩
      have hqueue : queueOf cfg i w' = cfg.workers.rotate next :=
        congrArg (fun V : SchedulerView => cfg.workers.rotate V.selectionCursor)
          hselects.reserves.after
      rw [hqueue]
      exact hselects.turn

/-- Who waits before another is reserved before the other, if it is ready in every call. -/
theorem reserved_before (hnames : (cfg.workers.map Prod.fst).Nodup) {w w' : ResidentWorld}
    {calls : List Call} (hrun : SchedulerRun cfg i w calls w') {other worker : String × ℕ}
    (hworker : worker ∈ cfg.workers) (hwaits : WaitsBefore other worker (queueOf cfg i w))
    (hready : ∀ c ∈ calls, ∃ d slot, ∀ m ∈ c.moments, Ready cfg i other d slot m)
    (hserved : ∃ c ∈ calls, c.ReservedFor worker.1) : ∃ c ∈ calls, c.ReservedFor other.1 := by
  induction hrun with
  | start w =>
      obtain ⟨c, hc, -⟩ := hserved
      exact absurd hc List.not_mem_nil
  | @between w w₁ _ _ h _ ih =>
      have hqueue : queueOf cfg i w₁ = queueOf cfg i w := by
        rw [queueOf, h.selectionCursor, queueOf]
      exact ih (hqueue ▸ hwaits) hready hserved
  | @call w _ _ l out calls h _ ih =>
      have hrest : ∀ c ∈ calls, ∃ d slot, ∀ m ∈ c.moments, Ready cfg i other d slot m :=
        fun c hc => hready c (List.mem_cons_of_mem _ hc)
      have hlater : (∃ c ∈ calls, c.ReservedFor other.1) →
          ∃ c ∈ (⟨l, out⟩ :: calls : List Call), c.ReservedFor other.1 := by
        rintro ⟨c, hc, hreserved⟩
        exact ⟨c, List.mem_cons_of_mem _ hc, hreserved⟩
      obtain ⟨c, hc, r, hresult, hname⟩ := hserved
      rcases queueOf_call h with ⟨hnothing, hqueue⟩ | ⟨r', passed, x, rfl, hx, hname', hturn, hunready⟩
      · -- the call that serves the worker is a later one
        rcases List.mem_cons.mp hc with rfl | hc
        · exact absurd hresult (hnothing r)
        · exact hlater (ih (hqueue ▸ hwaits) hrest ⟨c, hc, r, hresult, hname⟩)
      · by_cases hother : x = other
        · exact ⟨_, List.mem_cons_self, r', rfl, hother ▸ hname'⟩
        · have hnotpassed : other ∉ passed := by
            intro hmem
            obtain ⟨d, slot, hall⟩ := hready _ List.mem_cons_self
            obtain ⟨m, hm, hnot⟩ := hunready other hmem d slot
            exact hnot (hall m hm)
          obtain ⟨hne, hstill⟩ := hturn.keeps_waiting (queueOf_nodup hnames w) hwaits hnotpassed hother
          rcases List.mem_cons.mp hc with rfl | hc
          · obtain rfl := Option.some.inj (Except.ok.inj hresult)
            exact absurd (worker_eq_of_name hnames hx hworker (hname'.symm.trans hname)) hne
          · exact hlater (ih hstill hrest ⟨c, hc, r, hresult, hname⟩)

/-- In every run of a scheduler that starts with nothing in flight. -/
theorem reservations_fair_and_bounded (hnames : (cfg.workers.map Prod.fst).Nodup)
    {w w' : ResidentWorld} {calls : List Call} (hstart : (w.memory i).inFlight = [])
    (hrun : SchedulerRun cfg i w calls w') :
    FairTo cfg (Ready cfg i) calls ∧ Bounded cfg (w'.memory i) ∧
      ∀ c ∈ calls, ∀ m ∈ c.moments, Bounded cfg (m.1.memory i) := by
  constructor
  · rintro before first between last after workerId other rfl hfirst hlast - hother hne hready
    obtain ⟨w₁, -, hrest⟩ := hrun.append
    obtain ⟨w₂, w₃, hcall, hrest⟩ := hrest.first
    obtain ⟨r, hresult, hname⟩ := hfirst
    rcases queueOf_call hcall with ⟨hnothing, -⟩ | ⟨r', passed, worker, hresult', hworker, hname', hturn, -⟩
    · exact absurd hresult (hnothing r)
    · obtain rfl := Option.some.inj (Except.ok.inj (hresult.symm.trans hresult'))
      obtain rfl := hname.symm.trans hname'
      have hqueued : other ∈ queueOf cfg i w₂ := List.mem_rotate.mpr hother
      have hwaits := hturn.waits_behind hqueued (fun h => hne (congrArg Prod.fst h))
      rw [List.append_cons] at hrest
      obtain ⟨w₄, hwindow, -⟩ := hrest.append
      have hserved : ∃ c ∈ between ++ [last], c.ReservedFor worker.1 :=
        ⟨last, List.mem_append_right between List.mem_cons_self, hlast⟩
      obtain ⟨c, hc, hreserved⟩ := reserved_before hnames hwindow hworker hwaits hready hserved
      rcases List.mem_append.mp hc with hc | hc
      · exact ⟨c, hc, hreserved⟩
      · -- the last call is for the other worker
        obtain rfl := List.mem_singleton.mp hc
        obtain ⟨r₁, hr₁, hother₁⟩ := hreserved
        obtain ⟨r₂, hr₂, hworker₂⟩ := hlast
        obtain rfl := Option.some.inj (Except.ok.inj (hr₁.symm.trans hr₂))
        exact absurd (hother₁.symm.trans hworker₂) hne
  · have hempty : KeysBounded cfg (w.memory i).scheduler.inFlight := by
      rw [ProcessMemory.scheduler, hstart]
      exact ⟨List.nodup_nil, Nat.zero_le _, fun worker _ => Nat.zero_le _⟩
    obtain ⟨hlast, hmoments⟩ := bounded_run hnames hrun hempty
    exact ⟨bounded_iff.mpr hlast, fun c hc m hm => bounded_iff.mpr (hmoments c hc m hm)⟩

end

/-! ### A delivery of a cancelled run -/

instance decidableExistsOk {ε α : Type} {P : α → Prop} [DecidablePred P] (x : Except ε α) :
    Decidable (∃ a, x = .ok a ∧ P a) :=
  match x with
  | .ok a => decidable_of_iff (P a) (by simp)
  | .error _ => isFalse (by simp)

instance (cfg : SchedulerConfig) (i : ℕ) (worker : String × ℕ) (d : Delivery) (slot : ℕ) (m : Moment) :
    Decidable (Waiting cfg i worker d slot m) :=
  decidable_of_iff
    ((m.1.memory i).inFlight.countP (fun r => r.workerId = worker.1) < worker.2 ∧
      (∃ ds, pendingIn worker.1 (m.1.store.db.readAll none) = .ok ds ∧ d ∈ ds) ∧ slot < worker.2 ∧
      ∀ now ∈ claimClock m.2, ∃ found, m.1.store.db.claimWork (claimKeys worker.1 d slot) cfg.ownerId
        cfg.workClaimSeconds now (some d.event.runId) = .ok found ∧ found.1.isSome = true)
    (by
      constructor
      · rintro ⟨hspare, hpending, hslot, hgranted⟩
        refine ⟨hspare, hpending, hslot, ?_⟩
        intro now hnow
        obtain ⟨⟨claims, db⟩, hclaim, hsome⟩ := hgranted now hnow
        obtain ⟨claims, rfl⟩ := Option.isSome_iff_exists.mp hsome
        exact ⟨claims, db, hclaim⟩
      · rintro ⟨hspare, hpending, hslot, hobtainable⟩
        refine ⟨hspare, hpending, hslot, ?_⟩
        intro now hnow
        obtain ⟨claims, db, hclaim⟩ := hobtainable now hnow
        exact ⟨(some claims, db), hclaim, rfl⟩)

/-- A task for a worker. -/
def newTask (runId taskId : String) : Event where
  id := taskId
  runId := runId
  taskId := taskId
  type := "assignment.created"
  source := "kernel"
  payload := []
  createdAt := twelve

def alphaFirst : Delivery := ⟨"d1", newTask "r1" "t1"⟩

def alphaSecond : Delivery := ⟨"d2", newTask "r1" "t2"⟩

def betaOnly : Delivery := ⟨"d3", newTask "r2" "t3"⟩

def twoWorkers : SchedulerConfig where
  ownerId := "scheduler"
  maxWorkers := 3
  workers := [("alpha", 2), ("beta", 1)]

/-- Three deliveries have been sent. -/
def threeSent (cancelledRuns : List String) : ResidentWorld where
  store := (StoreWorld.mk .initial 0).wrote [sentEvent "alpha" alphaFirst twelve,
    sentEvent "alpha" alphaSecond twelve, sentEvent "beta" betaOnly twelve]
  memory := fun _ => { cancelledRuns := cancelledRuns }

/-- A call that is alone, and the world it leaves. -/
def callAlone (w : ResidentWorld) : Call × ResidentWorld :=
  let p := reserveNext twoWorkers 0 none
  let S := residentStrategy twelve twelve_utc
  (⟨S.trace 30 p w, (S.after 30 p w).1.result.getD (.ok none)⟩, (S.after 30 p w).2)

theorem callAlone_run {w w' : ResidentWorld} {calls : List Call}
    (hends : ((residentStrategy twelve rfl).after 30 (reserveNext twoWorkers 0 none) w).1.result.isSome)
    (hrest : SchedulerRun twoWorkers 0 (callAlone w).2 calls w') :
    SchedulerRun twoWorkers 0 w ((callAlone w).1 :: calls) w' := by
  obtain ⟨out, hout⟩ := Option.isSome_iff_exists.mp hends
  refine .call ?_ hrest
  rw [hout, Option.getD_some]
  have hlock : ∀ w, LockHeld 0 w w := fun _ => rfl
  exact Program.Strategy.trace_traced _ hlock hout

/-- Nothing is cancelled: the first worker, the second, and the first again. -/
theorem reservations_fair_and_bounded_three :
    let first := callAlone (threeSent [])
    let second := callAlone first.2
    let third := callAlone second.2
    let calls := [first.1, second.1, third.1]
    calls.map Call.reserved = [some "alpha", some "beta", some "alpha"] ∧
      FairTo twoWorkers (Ready twoWorkers 0) calls ∧ Bounded twoWorkers (third.2.memory 0) ∧
        ∀ c ∈ calls, ∀ m ∈ c.moments, Bounded twoWorkers (m.1.memory 0) := by
  refine ⟨?_, reservations_fair_and_bounded (by decide) rfl
    (callAlone_run ?_ (callAlone_run ?_ (callAlone_run ?_ (.start _))))⟩
  · set_option maxRecDepth 4000 in
    decide
  all_goals
    set_option maxRecDepth 4000 in
    decide

/-- The second worker waits for as long as its run is cancelled, while the first has two turns. -/
theorem not_fair_to_waiting :
    ¬ ∀ (cfg : SchedulerConfig) (i : ℕ) (w w' : ResidentWorld) (calls : List Call),
      (cfg.workers.map Prod.fst).Nodup → (w.memory i).inFlight = [] →
      SchedulerRun cfg i w calls w' → FairTo cfg (Waiting cfg i) calls := by
  intro h
  let first := callAlone (threeSent ["r2"])
  let second := callAlone first.2
  have hrun : SchedulerRun twoWorkers 0 (threeSent ["r2"]) [first.1, second.1] second.2 := by
    refine callAlone_run ?_ (callAlone_run ?_ (.start _))
    all_goals
      set_option maxRecDepth 4000 in
      decide
  have hfirst : first.1.ReservedFor "alpha" := by
    set_option maxRecDepth 4000 in
    decide
  have hsecond : second.1.ReservedFor "alpha" := by
    set_option maxRecDepth 4000 in
    decide
  have hwaits : ∀ m ∈ second.1.moments, Waiting twoWorkers 0 ("beta", 1) betaOnly 0 m := by
    set_option maxRecDepth 4000 in
    decide
  obtain ⟨c, hc, -⟩ := h twoWorkers 0 _ _ _ (by decide) rfl hrun [] first.1 [] second.1 [] "alpha"
    ("beta", 1) rfl hfirst hsecond (fun c hc => absurd hc List.not_mem_nil) (by decide) (by decide)
    (fun c hc => ⟨betaOnly, 0, List.mem_singleton.mp hc ▸ hwaits⟩)
  exact absurd hc List.not_mem_nil

end CrazyHarness
