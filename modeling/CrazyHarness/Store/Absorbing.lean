import CrazyHarness.Lib.Run
import CrazyHarness.Store.Runs

/-! # Finished entities

A run that has ended keeps its status, a run that is being cancelled can only become cancelled,
an assignment that has ended keeps its status and a lease that has ended keeps its whole record
(`Absorbs`).  Every projector looks at the old state before it writes a status, but the one of
`assignment.created`, which stores `queued` whatever is there (`Reopens`).

* `absorbs_newEvent`: one new event that reopens nothing absorbs.
* `absorbsAlong_iff`: a sequence of appended events absorbs exactly if none of them reopens an
  assignment that has ended. -/

namespace CrazyHarness

open Lib

namespace Database

/-- `_append_in_transaction` alone in its transaction; an exception rolls it back. -/
def appended (e : Event) (db : Database) : Database :=
  match db.appendInTransaction e with
  | .ok (_, db') => db'
  | .error _ => db

/-- The status of an assignment. -/
def assignmentStatus (db : Database) (assignmentId : String) : Option Json :=
  (db.loadProjection "assignment" assignmentId).bind (Dict.get? · "status")

/-- The status of a lease. -/
def leaseStatus (db : Database) (assignmentId : String) : Option Json :=
  (db.loadProjection "lease" assignmentId).bind (Dict.get? · "status")

/-- From `db` to `db'` nothing that was finished has changed. -/
structure Absorbs (db db' : Database) : Prop where
  run : ∀ runId, runTerminal (db.runStatus runId) → db'.runStatus runId = db.runStatus runId
  cancelling : ∀ runId, db.runStatus runId = some (.str "cancelling") →
    db'.runStatus runId ∈ [some (.str "cancelling"), some (.str "cancelled")]
  assignment : ∀ assignmentId, assignmentTerminal (db.assignmentStatus assignmentId) →
    db'.assignmentStatus assignmentId = db.assignmentStatus assignmentId
  lease : ∀ assignmentId, leaseTerminal (db.leaseStatus assignmentId) →
    db'.loadProjection "lease" assignmentId = db.loadProjection "lease" assignmentId

/-- The event would create an assignment that has ended. -/
def Reopens (db : Database) (e : Event) : Prop :=
  e.type = "assignment.created" ∧ db.getEvent e.id = none ∧
    (e.get? "assignment_id").any (fun v => assignmentTerminal (db.assignmentStatus v.pyStr))

instance (db : Database) : DecidablePred db.Reopens := fun e =>
  inferInstanceAs (Decidable (e.type = "assignment.created" ∧ db.getEvent e.id = none ∧
    (e.get? "assignment_id").any (fun v => assignmentTerminal (db.assignmentStatus v.pyStr))))

variable {db db' db'' : Database} {e : Event}

/-! ### Absorption over several events -/

theorem SameLog.absorbs (h : SameLog db db') : Absorbs db db' := by
  have hrun : ∀ runId, db'.runStatus runId = db.runStatus runId := by
    intro runId
    rw [runStatus, h.loadProjection, runStatus]
  refine ⟨fun runId _ => hrun runId, ?_, ?_, fun id _ => h.loadProjection "lease" id⟩
  · intro runId hstatus
    rw [hrun, hstatus]
    decide
  · intro id _
    rw [assignmentStatus, h.loadProjection, assignmentStatus]

theorem Absorbs.refl (db : Database) : Absorbs db db := (SameLog.refl db).absorbs

theorem Absorbs.trans (h : Absorbs db db') (h' : Absorbs db' db'') : Absorbs db db'' where
  run := by
    intro runId hterminal
    have hstep := h.run runId hterminal
    rw [← hstep] at hterminal
    rw [h'.run runId hterminal, hstep]
  cancelling := by
    intro runId hstatus
    have hstep := h.cancelling runId hstatus
    simp only [List.mem_cons, List.not_mem_nil, or_false] at hstep
    cases hstep with
    | inl hcancelling => exact h'.cancelling runId hcancelling
    | inr hcancelled =>
        have hterminal : runTerminal (db'.runStatus runId) := by
          rw [hcancelled]
          decide
        rw [h'.run runId hterminal, hcancelled]
        decide
  assignment := by
    intro id hterminal
    have hstep := h.assignment id hterminal
    rw [← hstep] at hterminal
    rw [h'.assignment id hterminal, hstep]
  lease := by
    intro id hterminal
    have hstep := h.lease id hterminal
    have hstatus : db'.leaseStatus id = db.leaseStatus id := by
      rw [leaseStatus, hstep, leaseStatus]
    rw [← hstatus] at hterminal
    rw [h'.lease id hterminal, hstep]

/-! ### One new event -/

theorem statusAfter_of_terminal {type : String} {status : Option Json} (h : runTerminal status) :
    statusAfter type status = status := by
  unfold statusAfter
  simp [h]

theorem statusAfter_cancelling (type : String) :
    statusAfter type (some (.str "cancelling")) ∈
      [some (.str "cancelling"), some (.str "cancelled")] := by
  unfold statusAfter
  dsimp only
  split_ifs <;> simp_all

/-- An event keeps the status of a run that has ended. -/
theorem NewEvent.run_terminal (h : NewEvent db e db') {runId : String}
    (hterminal : runTerminal (db.runStatus runId)) : db'.runStatus runId = db.runStatus runId := by
  rw [h.runStatus]
  split
  · rw [Database.runStatus] at hterminal ⊢
    cases hrun : db.loadProjection "run" runId with
    | none =>
        rw [hrun] at hterminal
        simp [runTerminal] at hterminal
    | some run =>
        rw [hrun] at hterminal
        exact statusAfter_of_terminal hterminal
  · rfl

/-- A run that is being cancelled stays so or becomes cancelled. -/
theorem NewEvent.run_cancelling (h : NewEvent db e db') {runId : String}
    (hstatus : db.runStatus runId = some (.str "cancelling")) :
    db'.runStatus runId ∈ [some (.str "cancelling"), some (.str "cancelled")] := by
  rw [h.runStatus]
  split
  · rw [Database.runStatus] at hstatus
    cases hrun : db.loadProjection "run" runId with
    | none =>
        rw [hrun] at hstatus
        cases hstatus
    | some run =>
        rw [hrun] at hstatus
        have hget : run.get? "status" = some (.str "cancelling") := hstatus
        show statusAfter e.type (run.get? "status") ∈ _
        rw [hget]
        exact statusAfter_cancelling e.type
  · rw [hstatus]
    decide

/-- An event that creates nothing keeps the status of an assignment that has ended. -/
theorem assignmentAfter_of_terminal {assignmentId : String} {old : Option Dict}
    (hterminal : assignmentTerminal (old.bind (Dict.get? · "status")))
    (hcreated : e.type = "assignment.created" →
      (e.get? "assignment_id").map Json.pyStr ≠ some assignmentId) :
    assignmentAfter e assignmentId old = old := by
  unfold assignmentAfter
  cases old with
  | none => simp [assignmentTerminal] at hterminal
  | some state =>
      have hkept : ∀ status, nextAssignment e status (some state) = none := by
        intro status
        have hstatus : assignmentTerminal (state.get? "status") = true := hterminal
        rw [nextAssignment, if_pos hstatus]
      split
      next htype => rw [if_neg (hcreated htype)]
      next =>
        split
        next status _ =>
          rw [hkept, Option.none_or]
          exact ite_self _
        next => rfl

/-- An event keeps the record of a lease that has ended. -/
theorem leaseAfter_of_terminal {assignmentId : String} {old : Option Dict}
    (hterminal : leaseTerminal (old.bind (Dict.get? · "status"))) :
    leaseAfter e assignmentId old = old := by
  unfold leaseAfter
  cases old with
  | none => simp [leaseTerminal] at hterminal
  | some state =>
      have hkept : nextLease e assignmentId (some state) = none := by
        have hstatus : leaseTerminal (state.get? "status") = true := hterminal
        rw [nextLease]
        exact if_pos hstatus
      rw [hkept, Option.none_or]
      exact ite_self _

/-- **One new event** that reopens nothing absorbs. -/
theorem absorbs_newEvent (h : NewEvent db e db') (hreopen : ¬ Reopens db e) : Absorbs db db' where
  run := fun _ hterminal => h.run_terminal hterminal
  cancelling := fun _ hstatus => h.run_cancelling hstatus
  assignment := by
    intro id hterminal
    have hsame : db'.loadProjection "assignment" id = db.loadProjection "assignment" id := by
      rw [h.assignment]
      refine assignmentAfter_of_terminal hterminal ?_
      intro htype hid
      obtain ⟨v, hv, hstr⟩ := Option.map_eq_some_iff.mp hid
      refine hreopen ⟨htype, h.fresh, ?_⟩
      rw [hv, Option.any_some, hstr]
      exact hterminal
    rw [assignmentStatus, hsame, assignmentStatus]
  lease := by
    intro id hterminal
    rw [h.lease]
    exact leaseAfter_of_terminal hterminal

/-- An assignment that is created is queued. -/
theorem NewEvent.queued (h : NewEvent db e db') (htype : e.type = "assignment.created") {v : Json}
    (hv : e.get? "assignment_id" = some v) :
    db'.assignmentStatus v.pyStr = some (.str "queued") := by
  have hid : (e.get? "assignment_id").map Json.pyStr = some v.pyStr := by
    rw [hv, Option.map_some]
  rw [assignmentStatus, h.assignment, assignmentAfter, if_pos htype, if_pos hid]
  simp [createdAssignment, Dict.get?_cons]

/-! ### Creating an assignment succeeds -/

/-- The counters of the runs are numbers. -/
def Counted (db : Database) : Prop :=
  ∀ runId run, db.loadProjection "run" runId = some run → ∃ n, run.get? "event_count" = some (.int n)

theorem counted_initial : Counted .initial := by
  intro runId run hrun
  cases hrun

theorem count_runStep (e : Event) (run : Dict) :
    (runStep e run).get? "event_count" = run.get? "event_count" := by
  unfold runStep
  dsimp only
  split_ifs <;> simp [Dict.get?_cons, Dict.get?_set]

theorem Counted.newEvent (h : Counted db) (he : NewEvent db e db') : Counted db' := by
  intro runId run hrun
  obtain ⟨r, hr, hload⟩ := he.run
  rw [hload] at hrun
  split at hrun
  next heq =>
    rcases nextRun_cases hr with ⟨hold, -, rfl⟩ | ⟨run', count, hold, rfl⟩
    · rw [hold] at hrun
      cases hrun
    · obtain rfl := Option.some.inj hrun
      refine ⟨count + 1, ?_⟩
      rw [count_runStep, Dict.get?_update]
      simp [runCounters]
  next => exact h runId run hrun

theorem Counted.nextRun (h : Counted db) (htype : e.type = "assignment.created") (seq : ℕ) :
    ∃ r, nextRun e seq (db.loadProjection "run" e.runId) = .ok r := by
  have hne : e.type ≠ "run.created" := by
    rw [htype]
    decide
  cases hrun : db.loadProjection "run" e.runId with
  | none =>
      refine ⟨none, ?_⟩
      simp [CrazyHarness.nextRun, hne]
  | some run =>
      obtain ⟨n, hn⟩ := h _ _ hrun
      have hcount : intOf (run.getD "event_count" (.int 0)) = .ok n := by
        rw [Dict.getD, hn]
        rfl
      simp only [CrazyHarness.nextRun, if_neg hne, hcount, ok_bind]
      exact ⟨_, rfl⟩

theorem rewriteProjection_of_ok {kind entityId : String} {seq : ℕ}
    {next : Option Dict → Except StoreError (Option Dict)} {r : Option Dict}
    (h : next (db.loadProjection kind entityId) = .ok r) :
    ∃ db', db.rewriteProjection kind entityId seq next = .ok db' := by
  rw [rewriteProjection, h]
  cases r with
  | none => exact ⟨_, rfl⟩
  | some state => exact ⟨_, rfl⟩

/-- Only the run and the assignment have a part in `assignment.created`. -/
theorem projectEvent_created (h : Counted db) (htype : e.type = "assignment.created") {v : Json}
    (hv : e.get? "assignment_id" = some v) (seq : ℕ) : ∃ db', db.projectEvent e seq = .ok db' := by
  obtain ⟨r, hr⟩ := h.nextRun htype seq
  obtain ⟨run, hrun⟩ := @rewriteProjection_of_ok db "run" e.runId seq _ _ hr
  have hagent : run.projectAgent e seq = .ok run := by
    simp [projectAgent, htype, show startsWith "runtime.agent." "assignment.created" = false by decide]
  obtain ⟨assignment, hassignment⟩ := @rewriteProjection_of_ok run "assignment" v.pyStr seq
    (fun _ => .ok (some (createdAssignment e))) _ rfl
  have hitem : item e.payload "assignment_id" = .ok v := by
    rw [item, show e.payload.get? "assignment_id" = some v from hv]
  have hcreated : run.projectAssignment e seq = .ok assignment := by
    rw [projectAssignment, if_pos htype, hitem, ok_bind]
    exact hassignment
  have hlease : assignment.projectLease e seq = .ok assignment := by
    simp [projectLease, htype, show startsWith "assignment.lease." "assignment.created" = false by decide]
  have hpayload : ∀ kind types, "assignment.created" ∉ types →
      assignment.projectPayload kind types e seq = .ok assignment := by
    intro kind types hnot
    simp [projectPayload, htype, hnot]
  have hentity : ∀ kind family idKey next, startsWith family "assignment.created" = false →
      assignment.projectEntity kind family idKey next e seq = .ok assignment := by
    intro kind family idKey next hnot
    simp [projectEntity, htype, hnot]
  refine ⟨assignment, ?_⟩
  rw [projectEvent, hrun, ok_bind, hagent, ok_bind, hcreated, ok_bind, hlease, ok_bind,
    hpayload _ _ (by decide), ok_bind, hpayload _ _ (by decide), ok_bind, hentity _ _ _ _ (by decide),
    ok_bind, hentity _ _ _ _ (by decide), ok_bind, hentity _ _ _ _ (by decide)]

/-! ### Sequences of appended events -/

/-- An append leaves the log alone or writes its event. -/
theorem appended_cases (e : Event) (db : Database) :
    SameLog db (db.appended e) ∨ NewEvent db e (db.appended e) := by
  unfold appended
  cases happend : db.appendInTransaction e with
  | error err => exact .inl (.refl db)
  | ok out =>
      obtain ⟨⟨stored, inserted⟩, db'⟩ := out
      rcases appendInTransaction_cases happend with ⟨rfl, -, -, -⟩ | ⟨-, -, hnew⟩
      · exact .inl (sameLog_skipSeq db)
      · exact .inr hnew

/-- A sequence of appends writes some of its events, in their order. -/
theorem wrote_runAll (db : Database) (events : List Event) :
    ∃ es, es.Sublist events ∧ db.Wrote es (runAll appended db events) := by
  induction events generalizing db with
  | nil => exact ⟨[], .slnil, .nothing (.refl db)⟩
  | cons e events ih =>
      obtain ⟨es, hes, hrest⟩ := ih (db.appended e)
      cases db.appended_cases e with
      | inl hsame => exact ⟨es, hes.cons e, (Wrote.nothing hsame).trans hrest⟩
      | inr hnew => exact ⟨e :: es, hes.cons_cons e, hnew.wrote.trans hrest⟩

theorem Counted.appended (h : Counted db) : Counted (db.appended e) := by
  cases db.appended_cases e with
  | inl hsame =>
      intro runId run hrun
      rw [hsame.loadProjection] at hrun
      exact h runId run hrun
  | inr hnew => exact h.newEvent hnew

/-- **One append** absorbs exactly if its event reopens nothing. -/
theorem absorbs_appended_iff (h : Counted db) : Absorbs db (db.appended e) ↔ ¬ Reopens db e := by
  constructor
  · rintro habsorbs ⟨htype, hfresh, hterminal⟩
    obtain ⟨v, hv, hended⟩ := (Option.any_eq_true _ _).mp hterminal
    have hnew : NewEvent db e (db.appended e) := by
      obtain ⟨db', hproject⟩ := @projectEvent_created (db.inserted e hfresh) e h htype v hv
        (db.lastSeq + 1)
      have happend : db.appendInTransaction e = .ok ((e, true), db') := by
        unfold appendInTransaction
        split
        · rw [hproject]
          rfl
        · rename_i hlook
          rw [show db.events.lookup e.id = none from hfresh] at hlook
          cases hlook
      rw [Database.appended, happend]
      exact ⟨hfresh, hproject⟩
    have hkept := habsorbs.assignment v.pyStr hended
    rw [hnew.queued htype hv] at hkept
    rw [← hkept] at hended
    simp [assignmentTerminal] at hended
  · intro hreopen
    cases db.appended_cases e with
    | inl hsame => exact hsame.absorbs
    | inr hnew => exact absorbs_newEvent hnew hreopen

end Database

/-- From any state of a sequence of appends to any later one nothing that was finished changes. -/
def AbsorbsAlong (events : List Event) : Prop :=
  ∀ pre post, pre ++ post <+: events →
    Database.Absorbs (runAll Database.appended .initial pre)
      (runAll Database.appended .initial (pre ++ post))

/-- **A sequence of appended events** leaves everything that is finished alone exactly if none of
its events creates an assignment that has ended. -/
theorem absorbsAlong_iff (events : List Event) :
    AbsorbsAlong events ↔
      EveryStep Database.appended (fun db e => ¬ db.Reopens e) .initial events := by
  have hsteps : AbsorbsAlong events ↔
      EveryStep Database.appended (fun db e => db.Absorbs (db.appended e)) .initial events :=
    everyPair_iff_everyStep Database.Absorbs.refl Database.Absorbs.trans
  rw [hsteps]
  exact EveryStep.congr Database.counted_initial (fun _ _ h => h.appended)
    (fun _ _ h => Database.absorbs_appended_iff h)

/-- An assignment that succeeds and is created a second time. -/
def createdTwice : List Event :=
  let created (id : String) : Event :=
    { id := id, runId := "run-a", taskId := "task-a", type := "assignment.created",
      source := "control-kernel", payload := [("assignment_id", .str "assignment-1")],
      createdAt := ⟨0, some 0⟩ }
  [created "event-1", { created "event-2" with type := "assignment.succeeded" }, created "event-3"]

/-- The assignment has succeeded, and is queued again. -/
theorem createdTwice_reopened : ¬ AbsorbsAlong createdTwice := by
  intro h
  have habsorbs := h (createdTwice.take 2) (createdTwice.drop 2) (by
    rw [List.take_append_drop])
  have hkept := habsorbs.assignment "assignment-1" (by decide)
  revert hkept
  decide

end CrazyHarness
