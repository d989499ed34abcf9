import CrazyHarness.Store.Fencing

/-! # What transactions write

Whatever a store operation does, it appends some new events, projecting each, and changes other
tables.  `Wrote db es db'` says just this, so it also stands for what code that is not followed
line by line does to the store.

* `append_cases`, `commitCommand_wrote`, `finishWorkClaims_wrote` and `claimWork_wrote` give the
  events an operation wrote.
* `Wrote.preserves`: an invariant of the log and the projections has to be shown for one new
  event at a time (`NewEvent`). -/

namespace CrazyHarness

open Lib

namespace Database

/-- `db'` is `db` with one new event, appended and projected. -/
def NewEvent (db : Database) (e : Event) (db' : Database) : Prop :=
  ∃ hnew : db.events.lookup e.id = none,
    (db.inserted e hnew).projectEvent e (db.lastSeq + 1) = .ok db'

/-- `db'` has the log and the projections of `db`. -/
structure SameLog (db db' : Database) : Prop where
  events : db'.events = db.events
  projections : db'.projections = db.projections
  seqOf : db'.seqOf = db.seqOf
  lastSeq : db.lastSeq ≤ db'.lastSeq

/-- From `db` to `db'` the events `es` were written, in this order. -/
inductive Wrote : Database → List Event → Database → Prop
  | nothing {db db' : Database} (h : SameLog db db') : Wrote db [] db'
  | event {db db' db'' : Database} {es : List Event} {e : Event} (h : Wrote db es db')
      (he : NewEvent db' e db'') : Wrote db (es ++ [e]) db''
  | elsewhere {db db' db'' : Database} {es : List Event} (h : Wrote db es db')
      (hs : SameLog db' db'') : Wrote db es db''

variable {db db' db'' : Database} {e : Event} {es : List Event}

theorem SameLog.refl (db : Database) : SameLog db db := ⟨rfl, rfl, rfl, le_rfl⟩

theorem sameLog_skipSeq (db : Database) : SameLog db db.skipSeq :=
  ⟨rfl, rfl, rfl, Nat.le_succ db.lastSeq⟩

theorem SameLog.loadProjection (h : SameLog db db') (kind entityId : String) :
    db'.loadProjection kind entityId = db.loadProjection kind entityId := by
  rw [Database.loadProjection, h.projections, Database.loadProjection]

/-! ### One new event -/

theorem NewEvent.rows (h : NewEvent db e db') : db'.events.rows = db.events.rows ++ [e] := by
  obtain ⟨hnew, hproject⟩ := h
  rw [(onlyProjections_projectEvent hproject).events]
  rfl

theorem NewEvent.fresh (h : NewEvent db e db') : db.events.lookup e.id = none := h.1

theorem NewEvent.workClaims (h : NewEvent db e db') : db'.workClaims = db.workClaims := by
  obtain ⟨hnew, hproject⟩ := h
  rw [(onlyProjections_projectEvent hproject).workClaims, inserted_workClaims]

theorem NewEvent.lookup (h : NewEvent db e db') (id : String) :
    db'.events.lookup id = if id = e.id then some e else db.events.lookup id := by
  obtain ⟨hnew, hproject⟩ := h
  rw [(onlyProjections_projectEvent hproject).events, inserted_events, Table.lookup_insertNew]

theorem NewEvent.run (h : NewEvent db e db') :
    ∃ r, nextRun e (db.lastSeq + 1) (db.loadProjection "run" e.runId) = .ok r ∧
      ∀ runId, db'.loadProjection "run" runId =
        if runId = e.runId then r.or (db.loadProjection "run" e.runId)
        else db.loadProjection "run" runId := by
  obtain ⟨hnew, hproject⟩ := h
  obtain ⟨r, hr, hload⟩ := projectEvent_run hproject
  exact ⟨r, hr, hload⟩

theorem NewEvent.assignment (h : NewEvent db e db') (assignmentId : String) :
    db'.loadProjection "assignment" assignmentId =
      assignmentAfter e assignmentId (db.loadProjection "assignment" assignmentId) := by
  obtain ⟨hnew, hproject⟩ := h
  exact projectEvent_assignment hproject assignmentId

theorem NewEvent.lease (h : NewEvent db e db') (assignmentId : String) :
    db'.loadProjection "lease" assignmentId =
      leaseAfter e assignmentId (db.loadProjection "lease" assignmentId) := by
  obtain ⟨hnew, hproject⟩ := h
  exact projectEvent_lease hproject assignmentId

/-! ### What was written -/

theorem Wrote.rows (h : Wrote db es db') : db'.events.rows = db.events.rows ++ es := by
  induction h with
  | nothing hs => rw [hs.events, List.append_nil]
  | event _ he ih => rw [he.rows, ih, List.append_assoc]
  | elsewhere _ hs ih => rw [hs.events, ih]

theorem NewEvent.wrote (h : NewEvent db e db') : Wrote db [e] db' :=
  .event (.nothing (.refl db)) h

theorem Wrote.trans {fs : List Event} (h : Wrote db es db') (h' : Wrote db' fs db'') :
    Wrote db (es ++ fs) db'' := by
  induction h' with
  | nothing hs =>
      rw [List.append_nil]
      exact .elsewhere h hs
  | event _ he ih =>
      rw [← List.append_assoc]
      exact .event ih he
  | elsewhere _ hs ih => exact .elsewhere ih hs

/-- An invariant of the log and the projections holds after everything that is written. -/
theorem Wrote.preserves {inv : Database → Prop} (h : Wrote db es db')
    (hsame : ∀ db db', SameLog db db' → inv db → inv db')
    (hevent : ∀ db e db', NewEvent db e db' → e ∈ es → inv db → inv db') (hinv : inv db) :
    inv db' := by
  induction h with
  | nothing hs => exact hsame _ _ hs hinv
  | @event db' db'' es e _ he ih =>
      refine hevent _ _ _ he (List.mem_append_right _ (List.mem_singleton_self e)) (ih ?_)
      intro db e db' hnew hmem
      exact hevent db e db' hnew (List.mem_append_left _ hmem)
  | elsewhere _ hs ih => exact hsame _ _ hs (ih hevent)

/-! ### The operations -/

/-- An append finds the same fact under its identifier, or writes a new event. -/
theorem appendInTransaction_cases {stored : Event} {inserted : Bool}
    (h : db.appendInTransaction e = .ok ((stored, inserted), db')) :
    (db' = db.skipSeq ∧ inserted = false ∧ db.events.lookup e.id = some stored ∧ stored.SameFact e) ∨
      (stored = e ∧ inserted = true ∧ NewEvent db e db') := by
  unfold appendInTransaction at h
  split at h
  next hnew =>
    obtain ⟨db'', hproject, h⟩ := bind_ok_iff.mp h
    obtain ⟨heq, rfl⟩ := Prod.mk.inj (Except.ok.inj h)
    obtain ⟨rfl, rfl⟩ := Prod.mk.inj heq
    exact .inr ⟨rfl, rfl, hnew, hproject⟩
  next existing hlook =>
    split at h
    next hsame =>
      obtain ⟨heq, rfl⟩ := Prod.mk.inj (Except.ok.inj h)
      obtain ⟨rfl, rfl⟩ := Prod.mk.inj heq
      exact .inl ⟨rfl, rfl, hlook, hsame⟩
    next => cases h

theorem append_cases {dispatch : Option DispatchContext} {stored : Event} {now : DateTime}
    (h : db.append dispatch e now = .ok (stored, db')) :
    (db' = db.skipSeq ∧ db.events.lookup e.id = some stored ∧ stored.SameFact e) ∨
      (stored = e ∧ NewEvent db e db') := by
  unfold append at h
  obtain ⟨_, _, h⟩ := bind_ok_iff.mp h
  obtain ⟨_, _, h⟩ := bind_ok_iff.mp h
  obtain ⟨⟨⟨s, inserted⟩, db₁⟩, happend, h⟩ := bind_ok_iff.mp h
  obtain ⟨rfl, rfl⟩ := Prod.mk.inj (Except.ok.inj h)
  rcases appendInTransaction_cases happend with ⟨rfl, -, hlook, hsame⟩ | ⟨rfl, -, hnew⟩
  · exact .inl ⟨rfl, hlook, hsame⟩
  · exact .inr ⟨rfl, hnew⟩

theorem appendInTransaction_wrote {r : Event × Bool} (h : db.appendInTransaction e = .ok (r, db')) :
    ∃ es, es.Sublist [e] ∧ Wrote db es db' ∧ ∃ f ∈ db'.events.rows, f.SameFact e := by
  obtain ⟨stored, inserted⟩ := r
  rcases appendInTransaction_cases h with ⟨rfl, -, hlook, hsame⟩ | ⟨-, -, hnew⟩
  · exact ⟨[], List.nil_sublist _, .nothing (sameLog_skipSeq _), stored, Table.mem_of_lookup hlook, hsame⟩
  · refine ⟨[e], List.Sublist.refl _, hnew.wrote, e, ?_, .refl e⟩
    rw [hnew.rows]
    exact List.mem_append_right _ (List.mem_singleton_self e)

/-- Of the events of a transaction those are written that are not there, in the order given. -/
theorem appendAll_wrote {events stored : List Event} (h : db.appendAll events = .ok (stored, db')) :
    ∃ es, es.Sublist events ∧ Wrote db es db' ∧ ∀ e ∈ events, ∃ f ∈ db'.events.rows, f.SameFact e := by
  induction events generalizing db stored with
  | nil =>
      obtain ⟨-, rfl⟩ := Prod.mk.inj (Except.ok.inj h)
      exact ⟨[], List.nil_sublist _, .nothing (.refl _), fun e he => absurd he List.not_mem_nil⟩
  | cons e events ih =>
      unfold appendAll at h
      obtain ⟨⟨r, db₁⟩, happend, h⟩ := bind_ok_iff.mp h
      obtain ⟨⟨rest, db₂⟩, hrest, h⟩ := bind_ok_iff.mp h
      obtain ⟨-, rfl⟩ := Prod.mk.inj (Except.ok.inj h)
      obtain ⟨es, hes, hwrote, f, hf, hsame⟩ := appendInTransaction_wrote happend
      obtain ⟨fs, hfs, hwrote', hpresent⟩ := ih hrest
      refine ⟨es ++ fs, hes.append hfs, hwrote.trans hwrote', ?_⟩
      intro g hg
      cases List.mem_cons.mp hg with
      | inl heq =>
          refine ⟨f, ?_, by rwa [heq]⟩
          rw [hwrote'.rows]
          exact List.mem_append_left _ hf
      | inr hmem => exact hpresent g hmem

theorem finalize_sameLog {key : String} {state : CommandState} {decision : KernelDecision}
    {now : DateTime} (h : db.finalize key state decision now = .ok db') : SameLog db db' := by
  unfold finalize at h
  split at h
  · cases h
  · split at h
    · obtain rfl := Except.ok.inj h
      exact ⟨rfl, rfl, rfl, le_rfl⟩
    · split at h
      · obtain rfl := Except.ok.inj h
        exact .refl _
      · cases h

/-- A commit writes events of its own, in a state that meets its precondition. -/
theorem commitCommand_wrote {key : String} {state : CommandState} {decision : KernelDecision}
    {events stored : List Event}
    {precondition : Option (Database → Except StoreError (Option String))}
    {guard : Option (String × Claims)} {now : DateTime}
    (h : db.commitCommand key state decision events precondition guard now = .ok (stored, db')) :
    (∀ check ∈ precondition, check db = .ok none) ∧ ∃ es, es.Sublist events ∧ Wrote db es db' ∧
      ∀ e ∈ events, ∃ f ∈ db'.events.rows, f.SameFact e := by
  unfold commitCommand at h
  obtain ⟨_, _, h⟩ := bind_ok_iff.mp h
  obtain ⟨_, _, h⟩ := bind_ok_iff.mp h
  obtain ⟨_, hcheck, h⟩ := bind_ok_iff.mp h
  obtain ⟨⟨persisted, db₁⟩, happend, h⟩ := bind_ok_iff.mp h
  obtain ⟨db₂, hfinal, h⟩ := bind_ok_iff.mp h
  obtain ⟨-, rfl⟩ := Prod.mk.inj (Except.ok.inj h)
  constructor
  · rintro check rfl
    obtain ⟨answer, hanswer, hcheck⟩ := bind_ok_iff.mp hcheck
    cases answer with
    | none => exact hanswer
    | some rejection => cases hcheck
  · obtain ⟨es, hes, hwrote, hpresent⟩ := appendAll_wrote happend
    refine ⟨es, hes, .elsewhere hwrote (finalize_sameLog hfinal), ?_⟩
    rwa [(finalize_sameLog hfinal).events]

theorem updateClaims_sameLog {ownerId : String} {f : WorkClaimRow → WorkClaimRow}
    {hf : ∀ r, (f r).claimKey = r.claimKey} (claims : Claims) :
    SameLog db (db.updateClaims ownerId f hf claims) := by
  induction claims generalizing db with
  | nil => exact .refl db
  | cons claim claims ih =>
      have hrest := @ih { db with
        workClaims := db.workClaims.updateWhere
          (fun r => r.claimKey = claim.1 ∧ r.IsClaim ownerId claim.2) f (fun r _ => hf r) }
      exact ⟨hrest.events, hrest.projections, hrest.seqOf, hrest.lastSeq⟩

theorem finishWorkClaims_wrote {claims : Claims} {ownerId : String} {state : WorkClaimState}
    {now : DateTime} {finalEvent : Option Event} {allowCancelledRun finished : Bool}
    (h : db.finishWorkClaims claims ownerId state now finalEvent allowCancelledRun =
      .ok (finished, db')) : ∃ es, es ⊆ finalEvent.toList ∧ Wrote db es db' := by
  unfold finishWorkClaims at h
  obtain ⟨_, _, h⟩ := bind_ok_iff.mp h
  obtain ⟨_, _, h⟩ := bind_ok_iff.mp h
  obtain ⟨_, _, h⟩ := bind_ok_iff.mp h
  split at h
  · obtain ⟨-, rfl⟩ := Prod.mk.inj (Except.ok.inj h)
    exact ⟨[], List.nil_subset _, .nothing (.refl _)⟩
  · split at h
    · obtain ⟨db₁, hfinal, h⟩ := bind_ok_iff.mp h
      obtain ⟨-, rfl⟩ := Prod.mk.inj (Except.ok.inj h)
      cases finalEvent with
      | none =>
          obtain rfl := Except.ok.inj hfinal
          exact ⟨[], List.nil_subset _, .nothing (updateClaims_sameLog claims)⟩
      | some e =>
          unfold appendFinal at hfinal
          obtain ⟨⟨r, db₂⟩, happend, hfinal⟩ := bind_ok_iff.mp hfinal
          obtain rfl := Except.ok.inj hfinal
          obtain ⟨es, hes, hwrote, -⟩ := appendInTransaction_wrote happend
          exact ⟨es, hes.subset, .elsewhere hwrote (updateClaims_sameLog claims)⟩
    · obtain ⟨-, rfl⟩ := Prod.mk.inj (Except.ok.inj h)
      exact ⟨[], List.nil_subset _, .nothing (.refl _)⟩

theorem renewWorkClaims_sameLog {claims : Claims} {ownerId : String} {ttlSeconds : ℤ}
    {now : DateTime} {renewed : Bool}
    (h : db.renewWorkClaims claims ownerId ttlSeconds now = .ok (renewed, db')) : SameLog db db' := by
  unfold renewWorkClaims at h
  obtain ⟨_, _, h⟩ := bind_ok_iff.mp h
  obtain ⟨_, _, h⟩ := bind_ok_iff.mp h
  obtain ⟨_, _, h⟩ := bind_ok_iff.mp h
  split at h
  · obtain ⟨-, rfl⟩ := Prod.mk.inj (Except.ok.inj h)
    exact updateClaims_sameLog claims
  · obtain ⟨-, rfl⟩ := Prod.mk.inj (Except.ok.inj h)
    exact .refl _

theorem failWorkClaimBundle_sameLog {claimKey : String} {now : DateTime} {count : ℕ}
    (h : db.failWorkClaimBundle claimKey now = .ok (count, db')) : SameLog db db' := by
  unfold failWorkClaimBundle at h
  split at h
  · cases h
  · split at h
    · obtain ⟨-, rfl⟩ := Prod.mk.inj (Except.ok.inj h)
      exact .refl _
    · split at h
      · obtain ⟨-, rfl⟩ := Prod.mk.inj (Except.ok.inj h)
        exact .refl _
      · obtain ⟨-, rfl⟩ := Prod.mk.inj (Except.ok.inj h)
        exact ⟨rfl, rfl, rfl, le_rfl⟩

theorem takeKeys_sameLog {ownerId : String} {now : DateTime} {ttlSeconds : ℤ} (keys : List String) :
    SameLog db (db.takeKeys ownerId now ttlSeconds keys).2 := by
  induction keys generalizing db with
  | nil => exact .refl db
  | cons key keys ih =>
      have hrest := @ih { db with
        workClaims := db.workClaims.upsert
          (WorkClaimRow.taken key ownerId now ttlSeconds (db.workClaims.lookup key)) }
      exact ⟨hrest.events, hrest.projections, hrest.seqOf, hrest.lastSeq⟩

theorem claimWork_wrote {keys : List String} {ownerId : String} {ttlSeconds : ℤ} {now : DateTime}
    {runId : Option String} {result : Option Claims}
    (h : db.claimWork keys ownerId ttlSeconds now runId = .ok (result, db')) : SameLog db db' := by
  unfold claimWork at h
  obtain ⟨_, _, h⟩ := bind_ok_iff.mp h
  obtain ⟨_, _, h⟩ := bind_ok_iff.mp h
  obtain ⟨_, _, h⟩ := bind_ok_iff.mp h
  obtain ⟨barrier, _, h⟩ := bind_ok_iff.mp h
  split at h
  · obtain ⟨-, rfl⟩ := Prod.mk.inj (Except.ok.inj h)
    exact .refl _
  · obtain ⟨-, rfl⟩ := Prod.mk.inj (Except.ok.inj h)
    exact takeKeys_sameLog _

end Database

end CrazyHarness
