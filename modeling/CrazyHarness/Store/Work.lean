import CrazyHarness.Store.Absorbing

/-! # Assignments and leases over several events

The rows of an assignment and of its lease after some events are those before them, taken through
`assignmentAfter` and `leaseAfter` one event at a time.  An event only moves the rows of the
assignment it names (`Event.assignmentOf`, `Event.leaseOf`), and an event of one run neither changes
the run of a row nor makes a row of another run (`Wrote.frame`). -/

namespace CrazyHarness

open Lib

/-! ### The assignment an event names -/

namespace Event

/-- The assignment whose row the event can change. -/
def assignmentOf (e : Event) : Option String :=
  if e.type = "assignment.created" then (e.get? "assignment_id").map Json.pyStr
  else if (assignmentStatusByType.lookup e.type).isSome then truthyText (e.get? "assignment_id")
  else none

/-- The assignment whose lease the event can change. -/
def leaseOf (e : Event) : Option String :=
  if startsWith "assignment.lease." e.type then truthyText (e.get? "assignment_id") else none

theorem leaseOf_of_other {e : Event} (h : startsWith "assignment.lease." e.type = false) :
    e.leaseOf = none := if_neg (by rw [h]; decide)

theorem leaseOf_of_lease {e : Event} (h : startsWith "assignment.lease." e.type = true) :
    e.leaseOf = truthyText (e.get? "assignment_id") := if_pos h

end Event

theorem truthyText_pyStr {v : Option Json} {s : String} (h : truthyText v = some s) :
    v.map Json.pyStr = some s := by
  cases v with
  | none => cases h
  | some v =>
      unfold truthyText at h
      dsimp only at h
      split at h
      · exact h
      · cases h

/-- The run of a row. -/
def ownerOf (row : Option Dict) : Option Json := row.bind (Dict.get? · "run_id")

namespace Database

variable {db db' : Database} {e : Event} {es : List Event} {assignmentId : String}
  {row : Option Dict} {other : Json}

theorem assignmentAfter_of_ne (h : e.assignmentOf ≠ some assignmentId) :
    assignmentAfter e assignmentId row = row := by
  unfold Event.assignmentOf at h
  unfold assignmentAfter
  by_cases hcreated : e.type = "assignment.created"
  · rw [if_pos hcreated] at h ⊢
    rw [if_neg h]
  · rw [if_neg hcreated] at h ⊢
    cases hstatus : assignmentStatusByType.lookup e.type with
    | none => rfl
    | some status =>
        rw [hstatus, Option.isSome_some, if_pos rfl] at h
        exact if_neg h

theorem leaseAfter_of_ne (h : e.leaseOf ≠ some assignmentId) :
    leaseAfter e assignmentId row = row := by
  unfold Event.leaseOf at h
  unfold leaseAfter
  by_cases hfamily : startsWith "assignment.lease." e.type = true
  · rw [if_pos hfamily] at h
    exact if_neg (fun hboth => h hboth.2)
  · exact if_neg (fun hboth => hfamily hboth.1)

/-! ### Several events -/

theorem Wrote.assignment (h : Wrote db es db') (assignmentId : String) :
    db'.loadProjection "assignment" assignmentId =
      es.foldl (fun row e => assignmentAfter e assignmentId row)
        (db.loadProjection "assignment" assignmentId) := by
  induction h with
  | nothing hs => exact hs.loadProjection _ _
  | event _ he ih => rw [he.assignment, ih, List.foldl_append, List.foldl_cons, List.foldl_nil]
  | elsewhere _ hs ih => rw [hs.loadProjection, ih]

theorem Wrote.lease (h : Wrote db es db') (assignmentId : String) :
    db'.loadProjection "lease" assignmentId =
      es.foldl (fun row e => leaseAfter e assignmentId row)
        (db.loadProjection "lease" assignmentId) := by
  induction h with
  | nothing hs => exact hs.loadProjection _ _
  | event _ he ih => rw [he.lease, ih, List.foldl_append, List.foldl_cons, List.foldl_nil]
  | elsewhere _ hs ih => rw [hs.loadProjection, ih]

/-! ### The run of a row -/

/-- An event of another run makes no row of the run. -/
theorem owner_assignmentAfter (hrun : other ≠ .str e.runId) (h : ownerOf row ≠ some other) :
    ownerOf (assignmentAfter e assignmentId row) ≠ some other := by
  unfold assignmentAfter
  split
  · split
    · intro howner
      refine hrun (Option.some.inj (howner.symm.trans ?_))
      simp [ownerOf, createdAssignment]
    · exact h
  · split
    next status =>
      split
      · cases row with
        | none => exact h
        | some state =>
            unfold nextAssignment
            dsimp only
            split
            · exact h
            · intro howner
              refine h (howner.symm.trans ?_).symm
              simp [ownerOf, Dict.get?_cons]
      · exact h
    next => exact h

/-- The lease before any event of it. -/
def initialLease (e : Event) (assignmentId : String) : Dict :=
  [("assignment_id", .str assignmentId), ("run_id", .str e.runId), ("task_id", .str e.taskId)]

/-- The fields that every event of a lease sets. -/
def leaseStamps : List String :=
  ["status", "updated_at", "acquired_at", "renewed_at", "released_at", "expired_at"]

/-- The other fields of a lease are those of the event, or stay. -/
theorem get?_nextLease {state : Dict} {key : String} (h : nextLease e assignmentId row = some state)
    (hkey : key ∉ leaseStamps) :
    state.get? key = (e.get? key).or ((row.getD (initialLease e assignmentId)).get? key) := by
  have hstatus : key ≠ "status" := fun heq => hkey (by rw [heq]; decide)
  have hupdated : key ≠ "updated_at" := fun heq => hkey (by rw [heq]; decide)
  unfold nextLease at h
  dsimp only at h
  split at h
  · cases h
  · obtain rfl := Option.some.inj h
    rw [Dict.get?_set_ne _ _ hupdated]
    split
    next stamp hstamp =>
      have hmem : stamp ∈ leaseStamps := by
        have hpair := List.lookup_eq_some_iff.mp hstamp
        obtain ⟨before, after, hlist, -⟩ := hpair
        have hin : (e.type, stamp) ∈ leaseStampByType := by
          rw [hlist]
          exact List.mem_append_right _ List.mem_cons_self
        simp only [leaseStampByType, List.mem_cons, Prod.mk.injEq, List.not_mem_nil, or_false] at hin
        rcases hin with ⟨-, rfl⟩ | ⟨-, rfl⟩ | ⟨-, rfl⟩ | ⟨-, rfl⟩ <;> decide
      have hne : key ≠ stamp := fun heq => hkey (by rw [heq]; exact hmem)
      rw [Dict.get?_setDefault, if_neg hne, Dict.get?_set_ne _ _ hstatus, Dict.get?_update]
      rfl
    next =>
      rw [Dict.get?_set_ne _ _ hstatus, Dict.get?_update]
      rfl

/-- An event of another run that names no run itself makes no lease of the run. -/
theorem owner_leaseAfter (hrun : other ≠ .str e.runId) (hpayload : e.get? "run_id" = none)
    (h : ownerOf row ≠ some other) : ownerOf (leaseAfter e assignmentId row) ≠ some other := by
  unfold leaseAfter
  split
  · cases hnext : nextLease e assignmentId row with
    | none => exact h
    | some state =>
        have hstate := get?_nextLease hnext (show "run_id" ∉ leaseStamps by decide)
        rw [hpayload, Option.none_or] at hstate
        intro howner
        have hother : state.get? "run_id" = some other := howner
        rw [hother] at hstate
        cases row with
        | none => exact hrun (Option.some.inj hstate)
        | some old => exact h hstate.symm
  · exact h

/-! ### The rows of a run -/

/-- A row that its events leave alone while it is of the run, and that they do not take into the run,
is the same after them. -/
theorem foldl_frame {after : Event → Option Dict → Option Dict}
    (hkeep : ownerOf row = some other → ∀ e ∈ es, after e row = row)
    (hforeign : ∀ e ∈ es, ∀ row, ownerOf row ≠ some other → ownerOf (after e row) ≠ some other)
    (h : ownerOf row = some other ∨
      ownerOf (es.foldl (fun row e => after e row) row) = some other) :
    es.foldl (fun row e => after e row) row = row := by
  by_cases howner : ownerOf row = some other
  · have hsame := hkeep howner
    clear hkeep hforeign h
    induction es with
    | nil => rfl
    | cons e es ih =>
        rw [List.foldl_cons, hsame e List.mem_cons_self]
        exact ih (fun f hf => hsame f (List.mem_cons_of_mem e hf))
  · exfalso
    have hlast : ownerOf (es.foldl (fun row e => after e row) row) ≠ some other := by
      clear hkeep h
      induction es generalizing row with
      | nil => exact howner
      | cons e es ih =>
          exact ih (fun f hf => hforeign f (List.mem_cons_of_mem e hf))
            (hforeign e List.mem_cons_self row howner)
    cases h with
    | inl h => exact howner h
    | inr h => exact hlast h

/-! ### The fields of an assignment -/

/-- The fields of a row that events after its creation leave alone. -/
def SameAssignment (state state' : Dict) : Prop :=
  ∀ key, key ≠ "status" → key ≠ "updated_at" → state'.get? key = state.get? key

theorem SameAssignment.refl (state : Dict) : SameAssignment state state := fun _ _ _ => rfl

theorem SameAssignment.trans {a b c : Dict} (h : SameAssignment a b) (h' : SameAssignment b c) :
    SameAssignment a c := by
  intro key hstatus hupdated
  rw [h' key hstatus hupdated, h key hstatus hupdated]

/-- An event that does not create the assignment keeps its fields. -/
theorem assignmentAfter_keeps {state : Dict}
    (h : e.type = "assignment.created" → e.assignmentOf ≠ some assignmentId) :
    ∃ state', assignmentAfter e assignmentId (some state) = some state' ∧
      SameAssignment state state' := by
  unfold assignmentAfter
  split
  next hcreated =>
    have hne := h hcreated
    rw [Event.assignmentOf, if_pos hcreated] at hne
    rw [if_neg hne]
    exact ⟨state, rfl, .refl state⟩
  next =>
    split
    next status _ =>
      split
      · unfold nextAssignment
        dsimp only
        split
        · exact ⟨state, rfl, .refl state⟩
        · refine ⟨_, rfl, ?_⟩
          intro key hstatus hupdated
          simp [Dict.get?_cons, hstatus, hupdated]
      · exact ⟨state, rfl, .refl state⟩
    next => exact ⟨state, rfl, .refl state⟩

theorem assignmentFold_keeps {state : Dict}
    (h : ∀ e ∈ es, e.type = "assignment.created" → e.assignmentOf ≠ some assignmentId) :
    ∃ state', es.foldl (fun row e => assignmentAfter e assignmentId row) (some state) = some state' ∧
      SameAssignment state state' := by
  induction es generalizing state with
  | nil => exact ⟨state, rfl, .refl state⟩
  | cons e es ih =>
      obtain ⟨next, hnext, hsame⟩ := @assignmentAfter_keeps e assignmentId state
        (h e List.mem_cons_self)
      obtain ⟨state', hrest, hsame'⟩ := @ih next (fun f hf => h f (List.mem_cons_of_mem e hf))
      refine ⟨state', ?_, hsame.trans hsame'⟩
      rw [List.foldl_cons, hnext]
      exact hrest

/-- An assignment that is created once, and then not again, has the fields of its creation. -/
theorem assignmentFold_created {before after : List Event} (hcreated : e.type = "assignment.created")
    (hid : e.assignmentOf = some assignmentId)
    (h : ∀ f ∈ after, f.type = "assignment.created" → f.assignmentOf ≠ some assignmentId) :
    ∃ state', (before ++ e :: after).foldl (fun row e => assignmentAfter e assignmentId row) row =
      some state' ∧ SameAssignment (createdAssignment e) state' := by
  rw [List.foldl_append, List.foldl_cons]
  have hnext : ∀ row, assignmentAfter e assignmentId row = some (createdAssignment e) := by
    intro row
    rw [Event.assignmentOf, if_pos hcreated] at hid
    rw [assignmentAfter, if_pos hcreated, if_pos hid]
  rw [hnext]
  exact assignmentFold_keeps h

/-- A row after some events is the row before them, or one of them has created it. -/
theorem assignmentFold_cases {state' : Dict}
    (h : es.foldl (fun row e => assignmentAfter e assignmentId row) row = some state') :
    (∃ state, row = some state ∧ SameAssignment state state') ∨
      ∃ e ∈ es, e.type = "assignment.created" ∧ e.assignmentOf = some assignmentId ∧
        SameAssignment (createdAssignment e) state' := by
  induction es generalizing row with
  | nil => exact .inl ⟨state', h, .refl state'⟩
  | cons e es ih =>
      rw [List.foldl_cons] at h
      by_cases hcreates : e.type = "assignment.created" ∧ e.assignmentOf = some assignmentId
      · obtain ⟨hcreated, hid⟩ := hcreates
        rcases ih h with ⟨state, hstate, hsame⟩ | ⟨f, hf, hrest⟩
        · rw [Event.assignmentOf, if_pos hcreated] at hid
          rw [assignmentAfter, if_pos hcreated, if_pos hid] at hstate
          obtain rfl := Option.some.inj hstate
          refine .inr ⟨e, List.mem_cons_self, hcreated, ?_, hsame⟩
          rw [Event.assignmentOf, if_pos hcreated, hid]
        · exact .inr ⟨f, List.mem_cons_of_mem e hf, hrest⟩
      · rcases ih h with ⟨next, hnext, hsame⟩ | ⟨f, hf, hrest⟩
        · left
          cases row with
          | none =>
              have hnone : assignmentAfter e assignmentId none = none := by
                by_cases hid : e.assignmentOf = some assignmentId
                · have hcreated : e.type ≠ "assignment.created" := fun hcreated => hcreates ⟨hcreated, hid⟩
                  rw [assignmentAfter, if_neg hcreated]
                  split
                  · split <;> rfl
                  · rfl
                · exact assignmentAfter_of_ne hid
              rw [hnone] at hnext
              cases hnext
          | some state =>
              obtain ⟨state₁, hstate₁, hsame₁⟩ := @assignmentAfter_keeps e assignmentId state
                (fun hcreated hid => hcreates ⟨hcreated, hid⟩)
              rw [hstate₁] at hnext
              obtain rfl := Option.some.inj hnext
              exact ⟨state, rfl, hsame₁.trans hsame⟩
        · exact .inr ⟨f, List.mem_cons_of_mem e hf, hrest⟩

/-! ### The end of an assignment -/

/-- An assignment that has ended stays as it is, until it is created anew. -/
theorem assignmentFold_of_terminal {state : Dict} (hended : assignmentTerminal (state.get? "status"))
    (h : ∀ e ∈ es, e.type = "assignment.created" → e.assignmentOf ≠ some assignmentId) :
    es.foldl (fun row e => assignmentAfter e assignmentId row) (some state) = some state := by
  induction es with
  | nil => rfl
  | cons e es ih =>
      have hstays : assignmentAfter e assignmentId (some state) = some state := by
        refine assignmentAfter_of_terminal hended ?_
        intro hcreated hid
        refine h e List.mem_cons_self hcreated ?_
        rw [Event.assignmentOf, if_pos hcreated, hid]
      rw [List.foldl_cons, hstays]
      exact ih (fun f hf => h f (List.mem_cons_of_mem e hf))

/-- An assignment that has not ended succeeds by the first event that says so. -/
theorem assignmentFold_succeeded {state : Dict} (hopen : ¬ assignmentTerminal (state.get? "status"))
    (h : ∀ e ∈ es, e.assignmentOf = some assignmentId → e.type = "assignment.succeeded")
    (hends : ∃ e ∈ es, e.assignmentOf = some assignmentId) :
    ∃ state', es.foldl (fun row e => assignmentAfter e assignmentId row) (some state) = some state' ∧
      SameAssignment state state' ∧ state'.get? "status" = some (.str "succeeded") := by
  induction es with
  | nil =>
      obtain ⟨e, he, -⟩ := hends
      cases he
  | cons e es ih =>
      rw [List.foldl_cons]
      have hrest : ∀ f ∈ es, f.assignmentOf = some assignmentId → f.type = "assignment.succeeded" :=
        fun f hf => h f (List.mem_cons_of_mem e hf)
      by_cases hid : e.assignmentOf = some assignmentId
      · have htype := h e List.mem_cons_self hid
        let next : Dict := state.update [("status", .str "succeeded"), ("updated_at", .time e.createdAt)]
        have hstatus : next.get? "status" = some (.str "succeeded") := by
          simp [next]
        have hlookup : assignmentStatusByType.lookup e.type = some "succeeded" := by
          rw [htype]
          rfl
        have hnext : assignmentAfter e assignmentId (some state) = some next := by
          have hcreated : e.type ≠ "assignment.created" := by
            rw [htype]
            decide
          rw [Event.assignmentOf, if_neg hcreated, hlookup, Option.isSome_some, if_pos rfl] at hid
          rw [assignmentAfter, if_neg hcreated, hlookup]
          dsimp only
          rw [if_pos hid, nextAssignment, if_neg hopen]
          rfl
        refine ⟨next, ?_, ?_, hstatus⟩
        · rw [hnext]
          refine assignmentFold_of_terminal (by rw [hstatus]; decide) ?_
          intro f hf hcreated hfid
          have hsucceeded := hrest f hf hfid
          rw [hcreated] at hsucceeded
          exact absurd hsucceeded (by decide)
        · intro key hkey hupdated
          simp [next, Dict.get?_cons, hkey, hupdated]
      · rw [assignmentAfter_of_ne hid]
        refine ih hrest ?_
        obtain ⟨f, hf, hfid⟩ := hends
        cases List.mem_cons.mp hf with
        | inl heq =>
            rw [heq] at hfid
            exact absurd hfid hid
        | inr hmem => exact ⟨f, hmem, hfid⟩

end Database

end CrazyHarness
