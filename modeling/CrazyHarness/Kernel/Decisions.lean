import CrazyHarness.Kernel.Submit
import CrazyHarness.Runtime.Ensures

/-! # A command is decided once

Any number of callers submit the same candidate; each may die between two calls of the store and
come back.  The row of the command, the facts of its decision and the decisions that the callers
return agree in every state (`decides_once`): the commit appends the facts and finalises the row in
one transaction, so a row that is still open has no facts, and a row that was decided by another
caller with another decision takes the whole commit back. -/

namespace CrazyHarness

open Lib RuntimeM

/-! ### The facts of a decision -/

/-- The identifier of `candidate.accepted` of a command. -/
def acceptedId (key : String) : String := kernelId key "accepted"

/-- The identifier of `candidate.rejected` of a command. -/
def rejectedId (key : String) : String := kernelId key "rejected"

theorem acceptedId_injective : Function.Injective acceptedId := by
  intro k k' h
  simpa [acceptedId, kernelId] using h

theorem acceptedId_ne_rejectedId (key key' : String) : acceptedId key ≠ rejectedId key' := by
  intro h
  have hname := congrArg String.toList (uuid5_injective h)
  simp only [String.toList_append, List.append_assoc] at hname
  have hlast := congrArg (fun l => l.reverse.take 5) hname
  simp at hlast

/-- The event accepts the command. -/
def Accepts (key : String) (e : Event) : Prop :=
  e.type = "candidate.accepted" ∧ e.get? "idempotency_key" = some (.str key)

instance (key : String) : DecidablePred (Accepts key) := fun _ => inferInstanceAs (Decidable (_ ∧ _))

/-- The event rejects the command. -/
def Rejects (key : String) (e : Event) : Prop :=
  e.type = "candidate.rejected" ∧ e.get? "idempotency_key" = some (.str key)

instance (key : String) : DecidablePred (Rejects key) := fun _ => inferInstanceAs (Decidable (_ ∧ _))

/-- The facts `candidate.accepted` and `candidate.rejected` of a command. -/
def decisionFacts (log : List Event) (key : String) : List Event :=
  log.filter (fun e => Accepts key e ∨ Rejects key e)

/-- A formal fact of the command: it is caused by the acceptance. -/
def Formal (key : String) (e : Event) : Prop := e.causationId = some (acceptedId key)

instance (key : String) : DecidablePred (Formal key) := fun _ => inferInstanceAs (Decidable (_ = _))

/-- Nothing in the log is about a decision of the command. -/
def Undecided (log : List Event) (key : String) : Prop :=
  ∀ e ∈ log, ¬ Accepts key e ∧ ¬ Rejects key e ∧ ¬ Formal key e

/-- The facts of an accepted command: all of those that its decision names. -/
structure AcceptedFacts (log : List Event) (key : String) (d : KernelDecision) : Prop where
  accepted : d.accepted = true
  fact : ∃ e ∈ log, Accepts key e
  not_rejected : ∀ e ∈ log, ¬ Rejects key e
  present : ∀ id ∈ d.eventIds, ∃ e ∈ log, e.id = id
  formal : ∀ e ∈ log, Formal key e → e.id ∈ d.eventIds

/-- The facts of a rejected command: none of them is formal. -/
structure RejectedFacts (log : List Event) (key : String) (d : KernelDecision) : Prop where
  accepted : d.accepted = false
  fact : ∃ e ∈ log, Rejects key e
  not_accepted : ∀ e ∈ log, ¬ Accepts key e
  present : ∀ id ∈ d.eventIds, ∃ e ∈ log, e.id = id
  formal : ∀ e ∈ log, ¬ Formal key e

/-- The facts that a row stands for. -/
def RowFacts (log : List Event) (key : String) (row : CommandRow) : Prop :=
  match row.state with
  | .processing => Undecided log key
  | .accepted => ∃ d, row.decision = some d ∧ AcceptedFacts log key d
  | .rejected => ∃ d, row.decision = some d ∧ RejectedFacts log key d

/-- The row of the command and the log agree. -/
def CommandFacts (db : Database) (key : String) : Prop :=
  match db.commandRecord key with
  | none => Undecided db.events.rows key
  | some row => RowFacts db.events.rows key row

/-- Decisions have the identifiers of their commands. -/
def DecisionsNamed (log : List Event) : Prop :=
  ∀ e ∈ log, ∀ key, (Accepts key e → e.id = acceptedId key) ∧ (Rejects key e → e.id = rejectedId key)

/-- The ledger of the commands and the log. -/
structure KernelLog (w : StoreWorld) : Prop where
  commands : ∀ key, CommandFacts w.db key
  named : DecisionsNamed w.db.events.rows

/-- Decided rows stay as they are. -/
def DecidedStay (w w' : StoreWorld) : Prop :=
  ∀ key row, w.db.commandRecord key = some row → row.state ≠ .processing →
    w'.db.commandRecord key = some row

theorem DecidedStay.refl (w : StoreWorld) : DecidedStay w w := fun _ _ h _ => h

theorem DecidedStay.trans {w w' w'' : StoreWorld} (h : DecidedStay w w') (h' : DecidedStay w' w'') :
    DecidedStay w w'' :=
  fun key row hrow hstate => h' key row (h key row hrow hstate) hstate

/-! ### More events -/

section log

variable {log es : List Event} {key : String} {e f : Event} {d : KernelDecision}

theorem Accepts.sameFact (h : e.SameFact f) : Accepts key e ↔ Accepts key f := by
  have htype : e.type = f.type := (congrArg Event.type h :)
  have hpayload : e.payload = f.payload := (congrArg Event.payload h :)
  rw [Accepts, Accepts, Event.get?, Event.get?, htype, hpayload]

theorem Rejects.sameFact (h : e.SameFact f) : Rejects key e ↔ Rejects key f := by
  have htype : e.type = f.type := (congrArg Event.type h :)
  have hpayload : e.payload = f.payload := (congrArg Event.payload h :)
  rw [Rejects, Rejects, Event.get?, Event.get?, htype, hpayload]

/-- The event is not about a decision of the command. -/
def Apart (key : String) (e : Event) : Prop := ¬ Accepts key e ∧ ¬ Rejects key e ∧ ¬ Formal key e

theorem Undecided.append (h : Undecided log key) (hes : ∀ e ∈ es, Apart key e) :
    Undecided (log ++ es) key := by
  intro e he
  rcases List.mem_append.mp he with he | he
  · exact h e he
  · exact hes e he

theorem present_append {ids : List String} (h : ∀ id ∈ ids, ∃ e ∈ log, e.id = id) :
    ∀ id ∈ ids, ∃ e ∈ log ++ es, e.id = id := by
  intro id hid
  obtain ⟨e, he, heq⟩ := h id hid
  exact ⟨e, List.mem_append_left _ he, heq⟩

/-- More facts of an accepted command, if they are its own. -/
theorem AcceptedFacts.append (h : AcceptedFacts log key d)
    (hes : ∀ e ∈ es, ¬ Rejects key e ∧ (Formal key e → e.id ∈ d.eventIds)) :
    AcceptedFacts (log ++ es) key d where
  accepted := h.accepted
  fact := by
    obtain ⟨e, he, hacc⟩ := h.fact
    exact ⟨e, List.mem_append_left _ he, hacc⟩
  not_rejected := by
    intro e he
    rcases List.mem_append.mp he with he | he
    · exact h.not_rejected e he
    · exact (hes e he).1
  present := present_append h.present
  formal := by
    intro e he
    rcases List.mem_append.mp he with he | he
    · exact h.formal e he
    · exact (hes e he).2

/-- More facts of a rejected command, if they are its own. -/
theorem RejectedFacts.append (h : RejectedFacts log key d)
    (hes : ∀ e ∈ es, ¬ Accepts key e ∧ ¬ Formal key e) : RejectedFacts (log ++ es) key d where
  accepted := h.accepted
  fact := by
    obtain ⟨e, he, hrej⟩ := h.fact
    exact ⟨e, List.mem_append_left _ he, hrej⟩
  not_accepted := by
    intro e he
    rcases List.mem_append.mp he with he | he
    · exact h.not_accepted e he
    · exact (hes e he).1
  present := present_append h.present
  formal := by
    intro e he
    rcases List.mem_append.mp he with he | he
    · exact h.formal e he
    · exact (hes e he).2

theorem RowFacts.append {row : CommandRow} (h : RowFacts log key row)
    (hes : ∀ e ∈ es, Apart key e) : RowFacts (log ++ es) key row := by
  unfold RowFacts at h ⊢
  cases hstate : row.state with
  | processing =>
      rw [hstate] at h
      exact Undecided.append h hes
  | accepted =>
      rw [hstate] at h
      obtain ⟨d, hd, hfacts⟩ := h
      exact ⟨d, hd, hfacts.append (fun e he => ⟨(hes e he).2.1, fun hf => absurd hf (hes e he).2.2⟩)⟩
  | rejected =>
      rw [hstate] at h
      obtain ⟨d, hd, hfacts⟩ := h
      exact ⟨d, hd, hfacts.append (fun e he => ⟨(hes e he).1, (hes e he).2.2⟩)⟩

theorem CommandFacts.append {db db' : Database} (h : CommandFacts db key)
    (hrow : db'.commandRecord key = db.commandRecord key)
    (hrows : db'.events.rows = db.events.rows ++ es) (hes : ∀ e ∈ es, Apart key e) :
    CommandFacts db' key := by
  unfold CommandFacts at h ⊢
  rw [hrow, hrows]
  cases hrecord : db.commandRecord key with
  | none =>
      rw [hrecord] at h
      exact Undecided.append h hes
  | some row =>
      rw [hrecord] at h
      exact RowFacts.append h hes

theorem DecisionsNamed.append (h : DecisionsNamed log) (hes : DecisionsNamed es) :
    DecisionsNamed (log ++ es) := by
  intro e he
  rcases List.mem_append.mp he with he | he
  · exact h e he
  · exact hes e he

end log

/-! ### The commit -/

/-- What a commit brings: the fact of its decision first, and what that causes. -/
inductive Committable (key : String) : CommandState → KernelDecision → List Event → Prop
  | accepted {d : KernelDecision} {a : Event} {formal : List Event} (hd : d.accepted = true)
      (ha : Accepts key a) (hid : a.id = acceptedId key) (hcause : a.causationId = none)
      (hformal : ∀ e ∈ formal, EmittedFor a e) (hids : d.eventIds = (a :: formal).map Event.id) :
      Committable key .accepted d (a :: formal)
  | rejected {d : KernelDecision} {r : Event} {denied : List Event} (hd : d.accepted = false)
      (hr : Rejects key r) (hid : r.id = rejectedId key) (hcause : r.causationId = none)
      (hdenied : ∀ e ∈ denied, EmittedFor r e) (hids : d.eventIds = (r :: denied).map Event.id) :
      Committable key .rejected d (r :: denied)

section commit

variable {key key' : String} {state : CommandState} {d : KernelDecision} {events : List Event} {e : Event}

theorem Accepts.unique (h : Accepts key e) (h' : Accepts key' e) : key = key' := by
  have hkey := h.2.symm.trans h'.2
  simpa using hkey

theorem Rejects.unique (h : Rejects key e) (h' : Rejects key' e) : key = key' := by
  have hkey := h.2.symm.trans h'.2
  simpa using hkey

theorem Accepts.not_rejects (h : Accepts key e) : ¬ Rejects key' e := by
  intro h'
  have htype := h.1.symm.trans h'.1
  simp at htype

theorem not_formal_of_none (h : e.causationId = none) : ¬ Formal key e := by
  rw [Formal, h]
  exact Option.some_ne_none _ ∘ Eq.symm

theorem EmittedFor.apart {a : Event} (h : EmittedFor a e) (hid : a.id ≠ acceptedId key) :
    Apart key e := by
  refine ⟨fun hacc => h.undecided.1 hacc.1, fun hrej => h.undecided.2 hrej.1, ?_⟩
  intro hformal
  rw [Formal, h.caused] at hformal
  exact hid (Option.some.inj hformal)

theorem Committable.apart (h : Committable key state d events) (hne : key' ≠ key) (he : e ∈ events) :
    Apart key' e := by
  cases h with
  | @accepted d a formal hd ha hid hcause hformal hids =>
      rcases List.mem_cons.mp he with rfl | he
      · exact ⟨fun hacc => hne (hacc.unique ha), ha.not_rejects, not_formal_of_none hcause⟩
      · refine (hformal e he).apart ?_
        rw [hid]
        exact fun heq => hne (acceptedId_injective heq).symm
  | @rejected d r denied hd hr hid hcause hdenied hids =>
      rcases List.mem_cons.mp he with rfl | he
      · exact ⟨fun hacc => hacc.not_rejects hr, fun hrej => hne (hrej.unique hr),
          not_formal_of_none hcause⟩
      · refine (hdenied e he).apart ?_
        rw [hid]
        exact (acceptedId_ne_rejectedId _ _).symm

theorem Committable.named (h : Committable key state d events) : DecisionsNamed events := by
  intro e he k
  cases h with
  | @accepted d a formal hd ha hid hcause hformal hids =>
      rcases List.mem_cons.mp he with rfl | he
      · refine ⟨fun hacc => ?_, fun hrej => absurd hrej ha.not_rejects⟩
        rw [hacc.unique ha]
        exact hid
      · exact ⟨fun hacc => absurd hacc.1 (hformal e he).undecided.1,
          fun hrej => absurd hrej.1 (hformal e he).undecided.2⟩
  | @rejected d r denied hd hr hid hcause hdenied hids =>
      rcases List.mem_cons.mp he with rfl | he
      · refine ⟨fun hacc => absurd hr hacc.not_rejects, fun hrej => ?_⟩
        rw [hrej.unique hr]
        exact hid
      · exact ⟨fun hacc => absurd hacc.1 (hdenied e he).undecided.1,
          fun hrej => absurd hrej.1 (hdenied e he).undecided.2⟩

/-- The facts that the row will stand for, once the events are in the log. -/
theorem Committable.facts (h : Committable key state d events) {log es : List Event}
    (hlog : Undecided log key) (hes : es ⊆ events)
    (hpresent : ∀ e ∈ events, ∃ f ∈ log ++ es, f.SameFact e) {row : CommandRow}
    (hstate : row.state = state) (hdecision : row.decision = some d) :
    RowFacts (log ++ es) key row := by
  have hids : ∀ {ids : List String}, ids = events.map Event.id →
      ∀ id ∈ ids, ∃ e ∈ log ++ es, e.id = id := by
    rintro _ rfl id hid
    obtain ⟨e, he, rfl⟩ := List.mem_map.mp hid
    obtain ⟨f, hf, hsame⟩ := hpresent e he
    exact ⟨f, hf, (congrArg Event.id hsame :)⟩
  unfold RowFacts
  rw [hstate]
  cases h with
  | @accepted d a formal hd ha hid hcause hformal heq =>
      obtain ⟨f, hf, hsame⟩ := hpresent a List.mem_cons_self
      refine ⟨d, hdecision, hd, ⟨f, hf, (Accepts.sameFact hsame).mpr ha⟩, ?_, hids heq, ?_⟩
      · intro e he
        rcases List.mem_append.mp he with he | he
        · exact (hlog e he).2.1
        · rcases List.mem_cons.mp (hes he) with rfl | he
          · exact ha.not_rejects
          · exact fun hrej => (hformal e he).undecided.2 hrej.1
      · intro e he hcaused
        rcases List.mem_append.mp he with he | he
        · exact absurd hcaused (hlog e he).2.2
        · rw [heq]
          exact List.mem_map_of_mem (hes he)
  | @rejected d r denied hd hr hid hcause hdenied heq =>
      obtain ⟨f, hf, hsame⟩ := hpresent r List.mem_cons_self
      refine ⟨d, hdecision, hd, ⟨f, hf, (Rejects.sameFact hsame).mpr hr⟩, ?_, hids heq, ?_⟩
      · intro e he
        rcases List.mem_append.mp he with he | he
        · exact (hlog e he).1
        · rcases List.mem_cons.mp (hes he) with rfl | he
          · exact fun hacc => hacc.not_rejects hr
          · exact fun hacc => (hdenied e he).undecided.1 hacc.1
      · intro e he
        rcases List.mem_append.mp he with he | he
        · exact (hlog e he).2.2
        · rcases List.mem_cons.mp (hes he) with rfl | he
          · exact not_formal_of_none hcause
          · refine ((hdenied e he).apart ?_).2.2
            rw [hid]
            exact (acceptedId_ne_rejectedId _ _).symm

/-- A row that was decided in the same way takes the facts as its own. -/
theorem Committable.again (h : Committable key state d events) {log es : List Event} {row : CommandRow}
    (hrow : RowFacts log key row) (hes : es ⊆ events) (hstate : row.state = state)
    (hdecision : row.decision = some d) : RowFacts (log ++ es) key row := by
  unfold RowFacts at hrow ⊢
  rw [hstate] at hrow ⊢
  cases h with
  | @accepted d a formal hd ha hid hcause hformal heq =>
      obtain ⟨d', hd', hfacts⟩ := hrow
      rw [hdecision] at hd'
      obtain rfl := Option.some.inj hd'
      refine ⟨d, hdecision, hfacts.append (fun e he => ⟨?_, fun _ => ?_⟩)⟩
      · rcases List.mem_cons.mp (hes he) with rfl | he
        · exact ha.not_rejects
        · exact fun hrej => (hformal e he).undecided.2 hrej.1
      · rw [heq]
        exact List.mem_map_of_mem (hes he)
  | @rejected d r denied hd hr hid hcause hdenied heq =>
      obtain ⟨d', hd', hfacts⟩ := hrow
      rw [hdecision] at hd'
      obtain rfl := Option.some.inj hd'
      refine ⟨d, hdecision, hfacts.append (fun e he => ?_)⟩
      rcases List.mem_cons.mp (hes he) with rfl | he
      · exact ⟨fun hacc => hacc.not_rejects hr, not_formal_of_none hcause⟩
      · refine ⟨fun hacc => (hdenied e he).undecided.1 hacc.1, ((hdenied e he).apart ?_).2.2⟩
        rw [hid]
        exact (acceptedId_ne_rejectedId _ _).symm

end commit

namespace Database

variable {db db' : Database} {key : String} {state : CommandState} {decision : KernelDecision}
  {events stored : List Event} {now : DateTime}

theorem commands_appendInTransaction {e : Event} {r : Event × Bool}
    (h : db.appendInTransaction e = .ok (r, db')) : db'.commands = db.commands := by
  unfold appendInTransaction at h
  split at h
  · obtain ⟨db'', hproject, h⟩ := bind_ok_iff.mp h
    obtain ⟨-, rfl⟩ := Prod.mk.inj (Except.ok.inj h)
    exact (onlyProjections_projectEvent hproject).commands
  · split at h
    · obtain ⟨-, rfl⟩ := Prod.mk.inj (Except.ok.inj h)
      rfl
    · cases h

/-- What `appendAll` leaves: the rows of the commands, and every event or the same fact before it. -/
theorem appendAll_present (h : db.appendAll events = .ok (stored, db')) :
    db'.commands = db.commands ∧ ∃ es, es ⊆ events ∧ db'.events.rows = db.events.rows ++ es ∧
      ∀ e ∈ events, ∃ f ∈ db'.events.rows, f.SameFact e := by
  induction events generalizing db stored with
  | nil =>
      obtain ⟨-, rfl⟩ := Prod.mk.inj (Except.ok.inj h)
      exact ⟨rfl, [], List.nil_subset _, (List.append_nil _).symm, fun e he => absurd he List.not_mem_nil⟩
  | cons e events ih =>
      unfold appendAll at h
      obtain ⟨⟨⟨f, inserted⟩, db₁⟩, happend, h⟩ := bind_ok_iff.mp h
      obtain ⟨⟨rest, db₂⟩, hrest, h⟩ := bind_ok_iff.mp h
      obtain ⟨-, rfl⟩ := Prod.mk.inj (Except.ok.inj h)
      obtain ⟨hcommands, fs, hfs, hrows, hpresent⟩ := ih hrest
      have hfirst : ∃ es, es ⊆ [e] ∧ db₁.events.rows = db.events.rows ++ es ∧
          ∃ f ∈ db₁.events.rows, f.SameFact e := by
        rcases appendInTransaction_cases happend with ⟨rfl, -, hlook, hsame⟩ | ⟨rfl, -, hnew⟩
        · exact ⟨[], List.nil_subset _, (List.append_nil _).symm, f, Table.mem_of_lookup hlook, hsame⟩
        · refine ⟨[f], List.Subset.refl _, hnew.rows, f, ?_, .refl f⟩
          rw [hnew.rows]
          exact List.mem_append_right _ (List.mem_singleton_self f)
      obtain ⟨es, hes, hrows₁, f, hf, hsame⟩ := hfirst
      refine ⟨hcommands.trans (commands_appendInTransaction happend), es ++ fs, ?_, ?_, ?_⟩
      · intro g hg
        rcases List.mem_append.mp hg with hg | hg
        · exact List.mem_cons.mpr (.inl (List.mem_singleton.mp (hes hg)))
        · exact List.mem_cons_of_mem e (hfs hg)
      · rw [hrows, hrows₁, List.append_assoc]
      · intro g hg
        rcases List.mem_cons.mp hg with rfl | hg
        · refine ⟨f, ?_, hsame⟩
          rw [hrows]
          exact List.mem_append_left _ hf
        · exact hpresent g hg

/-- A row is decided with this decision now, or was so before. -/
theorem finalize_cases (h : db.finalize key state decision now = .ok db') :
    ∃ row, db.commandRecord key = some row ∧
      (row.state = .processing ∧ db' = db.decideRow key state decision now ∨
        row.state ≠ .processing ∧ row.state = state ∧ row.decision = some decision ∧ db' = db) := by
  unfold finalize at h
  split at h
  next => cases h
  next row hrow =>
    refine ⟨row, hrow, ?_⟩
    split at h
    next hopen => exact .inl ⟨hopen, (Except.ok.inj h).symm⟩
    next hopen =>
      split at h
      next hsame => exact .inr ⟨hopen, hsame.1, hsame.2, (Except.ok.inj h).symm⟩
      next => cases h

theorem commandRecord_decideRow (db : Database) (key : String) (state : CommandState)
    (decision : KernelDecision) (now : DateTime) (key' : String) :
    (db.decideRow key state decision now).commandRecord key' =
      (db.commandRecord key').map (fun r =>
        if r.idempotencyKey = key ∧ r.state = .processing then
          { r with state := state, decision := some decision, updatedAt := now }
        else r) := by
  show (db.decideRow key state decision now).commands.lookup key' = _
  rw [decideRow, Table.lookup_updateWhere]
  rfl

end Database

/-- **The commit** keeps the ledger and the log in step, and the row has the decision afterwards. -/
theorem KernelLog.commit {w : StoreWorld} (h : KernelLog w) {key : String} {state : CommandState}
    {d : KernelDecision} {events stored : List Event}
    {precondition : Option (Database → Except StoreError (Option String))}
    {guard : Option (String × Claims)} {now : DateTime} {db' : Database}
    (hc : Committable key state d events)
    (hcommit : w.db.commitCommand key state d events precondition guard now = .ok (stored, db')) :
    KernelLog { w with db := db' } ∧ DecidedStay w { w with db := db' } ∧
      ∃ row, db'.commandRecord key = some row ∧ row.state ≠ .processing ∧ row.decision = some d := by
  have hstate : state ≠ .processing := by
    cases hc <;> exact CommandState.noConfusion
  unfold Database.commitCommand at hcommit
  obtain ⟨_, _, hcommit⟩ := bind_ok_iff.mp hcommit
  obtain ⟨_, _, hcommit⟩ := bind_ok_iff.mp hcommit
  obtain ⟨_, _, hcommit⟩ := bind_ok_iff.mp hcommit
  obtain ⟨⟨persisted, db₁⟩, happend, hcommit⟩ := bind_ok_iff.mp hcommit
  obtain ⟨db₂, hfinal, hcommit⟩ := bind_ok_iff.mp hcommit
  obtain ⟨-, rfl⟩ := Prod.mk.inj (Except.ok.inj hcommit)
  obtain ⟨hcommands, es, hes, hrows, hpresent⟩ := Database.appendAll_present happend
  have hrecord : ∀ k, db₁.commandRecord k = w.db.commandRecord k := by
    intro k
    rw [Database.commandRecord, hcommands, Database.commandRecord]
  have hnamed : DecisionsNamed db₁.events.rows := by
    rw [hrows]
    exact h.named.append (fun e he => hc.named e (hes he))
  rw [hrows] at hpresent
  have hothers : ∀ k ≠ key, CommandFacts db₁ k :=
    fun k hk => (h.commands k).append (hrecord k) hrows (fun e he => hc.apart hk (hes he))
  obtain ⟨row, hrow, hcases⟩ := Database.finalize_cases hfinal
  have hold : CommandFacts w.db key := h.commands key
  rw [CommandFacts, ← hrecord key, hrow] at hold
  dsimp only at hold
  rcases hcases with ⟨hopen, rfl⟩ | ⟨hdecided, rfl, hdecision, rfl⟩
  · have hlookup : ∀ k, (db₁.decideRow key state d now).commandRecord k =
        (w.db.commandRecord k).map (fun r =>
          if r.idempotencyKey = key ∧ r.state = .processing then
            { r with state := state, decision := some d, updatedAt := now }
          else r) := by
      intro k
      rw [Database.commandRecord_decideRow, hrecord]
    have hkey : row.idempotencyKey = key := Table.key_of_lookup hrow
    have hnew : (db₁.decideRow key state d now).commandRecord key =
        some { row with state := state, decision := some d, updatedAt := now } := by
      rw [hlookup, ← hrecord key, hrow, Option.map_some, if_pos ⟨hkey, hopen⟩]
    have hsame : ∀ k r, w.db.commandRecord k = some r → (k ≠ key ∨ r.state ≠ .processing) →
        (db₁.decideRow key state d now).commandRecord k = some r := by
      intro k r hr hne
      have hkr : r.idempotencyKey = k := Table.key_of_lookup hr
      rw [hlookup, hr, Option.map_some, if_neg]
      rintro ⟨hk, hs⟩
      rcases hne with hne | hne
      · exact hne (hkr.symm.trans hk)
      · exact hne hs
    refine ⟨⟨?_, hnamed⟩, fun k r hr hs => hsame k r hr (.inr hs), _, hnew, hstate, rfl⟩
    intro k
    by_cases hk : k = key
    · subst hk
      show CommandFacts (db₁.decideRow k state d now) k
      rw [CommandFacts, hnew]
      have hundecided : Undecided w.db.events.rows k := by
        rw [RowFacts, hopen] at hold
        exact hold
      show RowFacts db₁.events.rows k _
      rw [hrows]
      exact hc.facts hundecided hes hpresent rfl rfl
    · have hk₁ := hothers k hk
      show CommandFacts (db₁.decideRow key state d now) k
      rw [CommandFacts, hrecord k] at hk₁
      rw [CommandFacts]
      cases hr : w.db.commandRecord k with
      | none =>
          rw [hr] at hk₁
          rw [hlookup, hr]
          exact hk₁
      | some r =>
          rw [hr] at hk₁
          rw [hsame k r hr (.inl hk)]
          exact hk₁
  · refine ⟨⟨?_, hnamed⟩, fun k r hr _ => (hrecord k).trans hr, row, hrow, hdecided, hdecision⟩
    intro k
    by_cases hk : k = key
    · subst hk
      show CommandFacts db₂ k
      rw [CommandFacts, hrow, hrows]
      exact hc.again hold hes rfl hdecision
    · exact hothers k hk

/-! ### What callers do -/

/-- The fact is about no decision. -/
def NoDecision (e : Event) : Prop := ∀ key, Apart key e

/-- What a caller asks for: it commits what belongs to its command, and appends no decision. -/
def KernelAsks : (withStore kernelInterface).Op → Prop
  | .inl .now => True
  | .inl (.append _ e) => NoDecision e
  | .inl _ => False
  | .inr (.commitCommand key state decision events _ _) => Committable key state decision events
  | .inr _ => True

section steps

variable {w w' : StoreWorld} {op : (withStore kernelInterface).Op}
  {r : (withStore kernelInterface).Reply op} {es : List Event}

/-- Events without a decision are written, and the commands stay. -/
theorem KernelLog.wrote (h : KernelLog w) (hcommands : w'.db.commands = w.db.commands)
    (hrows : w'.db.events.rows = w.db.events.rows ++ es) (hes : ∀ e ∈ es, NoDecision e) :
    KernelLog w' ∧ DecidedStay w w' := by
  have hrecord : ∀ k, w'.db.commandRecord k = w.db.commandRecord k := by
    intro k
    rw [Database.commandRecord, hcommands, Database.commandRecord]
  refine ⟨⟨fun k => ?_, ?_⟩, fun k row hrow _ => (hrecord k).trans hrow⟩
  · exact (h.commands k).append (hrecord k) hrows (fun e he => hes e he k)
  · rw [hrows]
    refine h.named.append (fun e he k => ⟨fun hacc => ?_, fun hrej => ?_⟩)
    · exact absurd hacc (hes e he k).1
    · exact absurd hrej (hes e he k).2.1

/-- A row is begun. -/
theorem KernelLog.begin (h : KernelLog w) (c : CommandCandidate) (now : DateTime) :
    KernelLog { w with db := (w.db.beginCommand c now).2 } ∧
      DecidedStay w { w with db := (w.db.beginCommand c now).2 } := by
  have hlookup : ∀ k, (w.db.beginCommand c now).2.commandRecord k =
      if k = c.idempotencyKey then some ((w.db.commandRecord c.idempotencyKey).getD
        { idempotencyKey := c.idempotencyKey, candidateId := c.candidateId, state := .processing,
          candidate := c, updatedAt := now })
      else w.db.commandRecord k := by
    intro k
    show ((w.db.commands.insertIgnore _).lookup k) = _
    rw [Table.lookup_insertIgnore]
    rfl
  refine ⟨⟨fun k => ?_, h.named⟩, fun k row hrow hstate => ?_⟩
  · have hk := h.commands k
    unfold CommandFacts at hk ⊢
    dsimp only
    rw [hlookup k]
    by_cases heq : k = c.idempotencyKey
    · subst heq
      rw [if_pos rfl]
      cases hrow : w.db.commandRecord c.idempotencyKey with
      | none =>
          rw [hrow] at hk
          exact hk
      | some row =>
          rw [hrow] at hk
          exact hk
    · rw [if_neg heq]
      exact hk
  · show (w.db.beginCommand c now).2.commandRecord k = some row
    rw [hlookup k]
    split
    next heq => rw [← heq, hrow, Option.getD_some]
    next => exact hrow

/-- **One step** of a caller. -/
theorem KernelLog.step (h : KernelLog w) (hop : KernelAsks op) (hs : kernelStep w op r w') :
    KernelLog w' ∧ DecidedStay w w' := by
  cases op with
  | inl op =>
      cases op with
      | now =>
          obtain ⟨-, rfl⟩ := hs
          exact ⟨h, .refl _⟩
      | append dispatch e =>
          obtain ⟨d, now, -, -, hout⟩ := hs
          rcases StoreWorld.returns_cases hout with ⟨_, -, -, rfl⟩ | ⟨stored, db, happend, -, rfl⟩
          · exact ⟨h, .refl _⟩
          · rcases Database.append_cases happend with ⟨rfl, -, -⟩ | ⟨-, hnew⟩
            · exact h.wrote rfl (List.append_nil _).symm (fun f hf => absurd hf List.not_mem_nil)
            · have hcommands : db.commands = w.db.commands := by
                obtain ⟨hfresh, hproject⟩ := hnew
                exact (Database.onlyProjections_projectEvent hproject).commands
              refine h.wrote hcommands hnew.rows (fun f hf => ?_)
              obtain rfl := List.mem_singleton.mp hf
              exact hop
      | _ => exact absurd hop id
  | inr op =>
      cases op with
      | cancelled =>
          obtain rfl := hs
          exact ⟨h, .refl _⟩
      | commandRecord key =>
          obtain ⟨-, rfl⟩ := hs
          exact ⟨h, .refl _⟩
      | beginCommand c =>
          obtain ⟨now, -, hout⟩ := hs
          obtain ⟨-, rfl⟩ := Prod.mk.inj hout
          exact h.begin c now
      | read op =>
          obtain ⟨now, -, -, rfl⟩ := hs
          exact ⟨h, .refl _⟩
      | commitCommand key state decision events precondition guard =>
          obtain ⟨now, -, hout⟩ := hs
          rcases StoreWorld.returns_cases hout with ⟨_, -, -, rfl⟩ | ⟨stored, db, hcommit, -, rfl⟩
          · exact ⟨h, .refl _⟩
          · obtain ⟨hinv, hstay, -⟩ := h.commit hop hcommit
            exact ⟨hinv, hstay⟩

end steps

/-! ### What `submit` ensures -/

/-- The row of the command has been decided as the decision says. -/
def DecidedAs (key : String) (d : KernelDecision) (w : StoreWorld) : Prop :=
  ∃ row d', w.db.commandRecord key = some row ∧ row.state ≠ .processing ∧ row.decision = some d' ∧
    d'.accepted = d.accepted ∧ d'.reason = d.reason ∧ d'.eventIds = d.eventIds

theorem DecidedAs.stay {key : String} {d : KernelDecision} {w w' : StoreWorld} (h : DecidedAs key d w)
    (hs : DecidedStay w w') : DecidedAs key d w' := by
  obtain ⟨row, d', hrow, hstate, hrest⟩ := h
  exact ⟨row, d', hs key row hrow hstate, hstate, hrest⟩

/-- The code keeps the ledger and the log in step, among others that do. -/
abbrev EnsuresKernel {α : Type} (post : α → StoreWorld → Prop) (p : Kernel α) (w : StoreWorld) : Prop :=
  Ensures kernelStep KernelLog DecidedStay DecidedStay post p w

/-- Code of a caller, and what it returns. -/
abbrev AsksKernel {α : Type} (post : α → Prop) (p : Kernel α) : Prop :=
  Asks (fun _ _ => True) KernelAsks post p

section ensures

variable {α : Type} {w : StoreWorld} {c : CommandCandidate} {dispatch : Option DispatchContext}
  {K : KernelRules}

theorem ensures_kernel {post : α → Prop} {p : Kernel α} (h : AsksKernel post p) :
    EnsuresKernel (fun a _ => post a) p w :=
  ensures_of_asks h (fun _ _ _ _ _ => trivial) (fun _ _ _ _ hinv => hinv.step)

theorem asks_reading {post : α → Prop} {p : ReadM α}
    (h : Program.Asks (fun _ _ => True) (fun _ => True) (fun r => ∀ a, r = .ok a → post a) p) :
    AsksKernel post (reading p) := by
  induction p with
  | done r =>
      cases r with
      | ok a => exact asks_pure (h a rfl)
      | error e => exact asks_throw _
  | request op next ih => exact ⟨trivial, fun r _ => ih r (h.2 r trivial)⟩

theorem asks_kernelNow : AsksKernel (fun _ => True) (now : Kernel DateTime) :=
  ⟨trivial, fun _ _ _ _ => trivial⟩

theorem asks_raiseIfCancelled : AsksKernel (fun _ => True) (raiseIfCancelled dispatch) := by
  cases dispatch with
  | none => exact asks_pure trivial
  | some d =>
      have hcall : AsksKernel (fun _ => True) (lift (kernelCall .cancelled)) :=
        ⟨trivial, fun _ _ _ _ => trivial⟩
      refine asks_bind hcall (fun cancelled _ => ?_)
      split
      · exact asks_throw _
      · exact asks_pure trivial

theorem asks_workClaimGuard : AsksKernel (fun _ => True) (workClaimGuard dispatch) :=
  asks_bind asks_raiseIfCancelled (fun _ _ => asks_pure trivial)

theorem asks_kernelAppend {suffix type : String} (payload : Dict) (source : String)
    (htype : type ≠ "candidate.accepted" ∧ type ≠ "candidate.rejected") :
    AsksKernel (fun _ => True) (kernelAppend dispatch c suffix type payload source) := by
  refine asks_append trivial (fun createdAt key => ?_)
  exact ⟨fun hacc => htype.1 hacc.1, fun hrej => htype.2 hrej.1, not_formal_of_none rfl⟩

theorem asks_rejectEvents (c : CommandCandidate) (reason : String) :
    AsksKernel (fun events => ∀ d : KernelDecision, d.accepted = false →
      d.eventIds = events.map Event.id → Committable c.idempotencyKey .rejected d events)
      (rejectEvents c reason) := by
  refine asks_bind asks_kernelNow (fun createdAt _ => ?_)
  have hrejects : Rejects c.idempotencyKey (rejectedEvent c reason createdAt) := by
    refine ⟨rfl, ?_⟩
    simp [rejectedEvent, kernelEvent, Event.get?, Dict.get?_cons]
  dsimp only
  split
  · refine asks_bind asks_kernelNow (fun deniedAt _ => asks_pure (fun d hd hids => ?_))
    refine .rejected hd hrejects rfl rfl (fun e he => ?_) hids
    obtain rfl := List.mem_singleton.mp he
    exact ⟨rfl, by simp [peerDeniedEvent, kernelEvent], by simp [peerDeniedEvent, kernelEvent]⟩
  · exact asks_pure (fun d hd hids =>
      .rejected hd hrejects rfl rfl (fun e he => absurd he List.not_mem_nil) hids)

/-- **A commit** that returns has decided the command. -/
theorem ensures_commit {key : String} {state : CommandState} {d : KernelDecision} {events : List Event}
    {precondition : Option (ReadM (Option String))} {guard : Option (String × Claims)}
    (hc : Committable key state d events) :
    EnsuresKernel (fun _ w => DecidedAs key d w)
      (raising (kernelCall (.commitCommand key state d events precondition guard))) w := by
  refine ensures_raising ?_
  rintro w₁ _ r w₂ - hinv hs
  have hasks : KernelAsks (.inr (.commitCommand key state d events precondition guard)) := hc
  have hstep := hinv.step hasks hs
  refine ⟨(), hstep.1, hstep.2, ?_⟩
  rintro stored hr
  obtain ⟨now, -, hout⟩ := hs
  rcases StoreWorld.returns_cases hout with ⟨_, -, herror, -⟩ | ⟨_, db, hcommit, -, rfl⟩
  · rw [herror] at hr
    cases hr
  · obtain ⟨-, -, row, hrow, hstate, hdecision⟩ := hinv.commit hc hcommit
    exact ⟨row, d, hrow, hstate, hdecision, rfl, rfl, rfl⟩

theorem ensures_commitRejection (recovered : Bool) (reason : String) :
    EnsuresKernel (fun d w => DecidedAs c.idempotencyKey d w)
      (commitRejection dispatch c recovered reason) w := by
  refine ensures_bind (ensures_kernel (asks_rejectEvents c reason)) (fun events w hevents => ?_)
  refine ensures_bind (ensures_kernel asks_workClaimGuard) (fun guard w _ => ?_)
  exact ensures_bind (ensures_commit (hevents _ rfl rfl)) (fun _ _ hdecided => ensures_pure hdecided)

theorem ensures_commitAcceptance (recovered : Bool) :
    EnsuresKernel (fun d w => DecidedAs c.idempotencyKey d w)
      (commitAcceptance K dispatch c recovered) w := by
  refine ensures_bind (ensures_kernel asks_kernelNow) (fun acceptedAt w _ => ?_)
  refine ensures_bind (ensures_kernel (asks_reading (K.emits c (acceptedEvent c acceptedAt))))
    (fun formal w hformal => ?_)
  refine ensures_bind (ensures_kernel asks_workClaimGuard) (fun guard w _ => ?_)
  refine ensures_handle (ensures_bind (ensures_commit ?_) (fun _ _ hdecided => ensures_pure hdecided)) ?_
  · refine .accepted rfl ⟨rfl, ?_⟩ rfl rfl hformal rfl
    simp [acceptedEvent, kernelEvent, Event.get?, Dict.get?_cons]
  · intro e w
    split
    · exact ensures_commitRejection recovered _
    · exact ensures_throw _

theorem ensures_decideCommand (recovered : Bool) :
    EnsuresKernel (fun d w => DecidedAs c.idempotencyKey d w) (decideCommand K dispatch c recovered) w := by
  have hvalidate : AsksKernel (fun _ => True) (reading (K.validate c)) :=
    asks_reading (Program.Asks.weaken (Program.asks_true _) (fun _ _ _ _ => trivial))
  refine ensures_bind (ensures_kernel hvalidate) (fun rejection w _ => ?_)
  cases rejection with
  | some reason => exact ensures_commitRejection recovered reason
  | none => exact ensures_commitAcceptance recovered

theorem ensures_submitRecorded {row : CommandRow}
    (h : row.state ≠ .processing → w.db.commandRecord c.idempotencyKey = some row) :
    EnsuresKernel (fun d w => DecidedAs c.idempotencyKey d w) (submitRecorded K dispatch c row) w := by
  unfold submitRecorded
  split
  · unfold submitRecovered
    split
    · exact ensures_throw _
    · split
      · exact ensures_throw _
      · exact ensures_bind (ensures_kernel (asks_kernelAppend _ _ (by decide)))
          (fun _ _ _ => ensures_decideCommand true)
  next hdecided =>
    split
    next decision hdecision =>
      exact ensures_pure ⟨row, decision, h hdecided, hdecided, hdecision, rfl, rfl, rfl⟩
    next => exact ensures_throw _

theorem ensures_submitFrom (depth : ℕ) :
    EnsuresKernel (fun d w => DecidedAs c.idempotencyKey d w) (submitFrom K dispatch c depth) w := by
  induction depth generalizing w with
  | zero => exact ensures_throw _
  | succ depth ih =>
      refine ensures_bind (ensures_kernel asks_raiseIfCancelled) (fun _ w _ => ?_)
      have hrecord : EnsuresKernel (fun record w => ∀ row, record = some row →
          row.state ≠ .processing → w.db.commandRecord c.idempotencyKey = some row)
          (lift (kernelCall (.commandRecord c.idempotencyKey))) w := by
        refine ensures_lift ?_
        rintro w₁ record w₂ - hinv ⟨rfl, rfl⟩
        exact ⟨hinv, .refl _, fun row hrow _ => hrow⟩
      refine ensures_bind hrecord (fun record w hrow => ?_)
      cases record with
      | some row => exact ensures_submitRecorded (hrow row rfl)
      | none =>
          have hbegin : AsksKernel (fun _ => True) (lift (kernelCall (.beginCommand c))) :=
            ⟨trivial, fun _ _ _ _ => trivial⟩
          refine ensures_bind (ensures_kernel hbegin) (fun created w _ => ?_)
          dsimp only
          split
          · exact ensures_bind (ensures_kernel (asks_kernelAppend _ _ (by decide)))
              (fun _ _ _ => ensures_decideCommand false)
          · exact ih

end ensures

/-! ### Runs -/

/-- What a caller leaves: the command and what `submit` returned or raised. -/
abbrev Submitted := String × Except RuntimeError KernelDecision

/-- A caller of `submit`. -/
def submitThread (K : KernelRules) (dispatch : Option DispatchContext) (c : CommandCandidate) :
    Program (withStore kernelInterface) Submitted :=
  Program.bind (submit K dispatch c) (fun r => .done (c.idempotencyKey, r))

/-- Callers, each with any candidate. -/
inductive SubmitStarts (K : KernelRules) : StoreWorld →
    Program (withStore kernelInterface) Submitted → StoreWorld → Prop
  | submit (w : StoreWorld) (dispatch : Option DispatchContext) (c : CommandCandidate) :
      SubmitStarts K w (submitThread K dispatch c) w

/-- Other code appends facts without a decision, does what it likes elsewhere in the store, and
leaves the commands alone. -/
def KernelElsewhere (w w' : StoreWorld) : Prop :=
  w'.db.commands = w.db.commands ∧
    ∃ es, w'.db.events.rows = w.db.events.rows ++ es ∧ ∀ e ∈ es, NoDecision e

/-- All interleavings of callers and other code, with crashes anywhere. -/
def submitRules (K : KernelRules) : PoolRules (withStore kernelInterface) Submitted StoreWorld where
  step := kernelStep
  starts := SubmitStarts K
  env := KernelElsewhere

/-- What a caller returned is what the row says. -/
def ReturnedDecided (r : Submitted) (w : StoreWorld) : Prop := ∀ d, r.2 = .ok d → DecidedAs r.1 d w

theorem submitRules_sound (K : KernelRules) :
    Pool.Sound (submitRules K) (fun w (_ : Unit) => KernelLog w) DecidedStay ReturnedDecided where
  refl := DecidedStay.refl
  trans := DecidedStay.trans
  stable := fun r w w' hs hr d hd => (hr d hd).stay hs
  drop := fun _ _ _ h => h
  starts := by
    rintro w p w' m hinv ⟨dispatch, c⟩
    refine ⟨.refl _, (), hinv, Program.safe_bind (ensures_submitFrom 1000) ?_⟩
    intro r w m hr d hd
    exact hr d hd
  env := by
    rintro w w' m hinv ⟨hcommands, es, hrows, hes⟩
    exact hinv.wrote hcommands hrows hes

/-- No caller has come, and nothing is stored. -/
def kernelStart : Pool (withStore kernelInterface) Submitted StoreWorld := ⟨⟨.initial, 0⟩, [], []⟩

/-- What the callers of one command see of it. -/
structure DecidedOnce (db : Database) (ended : List Submitted) (key : String) : Prop where
  once : (decisionFacts db.events.rows key).length ≤ 1
  accepted : (∃ row ∈ db.commandRecord key, row.state = .accepted) ↔
    ∃ e ∈ db.events.rows, Accepts key e
  rejected : (∃ row ∈ db.commandRecord key, row.state = .rejected) ↔
    ∃ e ∈ db.events.rows, Rejects key e
  formal : ∀ e ∈ db.events.rows, Formal key e → ∃ row ∈ db.commandRecord key, ∃ d,
    row.state = .accepted ∧ row.decision = some d ∧ e.id ∈ d.eventIds
  present : ∀ row ∈ db.commandRecord key, ∀ d, row.state = .accepted → row.decision = some d →
    ∀ id ∈ d.eventIds, ∃ e ∈ db.events.rows, e.id = id
  returned : ∀ d d', (key, .ok d) ∈ ended → (key, .ok d') ∈ ended →
    d.accepted = d'.accepted ∧ d.reason = d'.reason ∧ d.eventIds = d'.eventIds

section once

variable {w : StoreWorld} {key : String}

/-- A command is open, accepted or rejected. -/
theorem KernelLog.cases (h : KernelLog w) (key : String) :
    Undecided w.db.events.rows key ∨
      (∃ row d, w.db.commandRecord key = some row ∧ row.state = .accepted ∧ row.decision = some d ∧
        AcceptedFacts w.db.events.rows key d) ∨
      ∃ row d, w.db.commandRecord key = some row ∧ row.state = .rejected ∧ row.decision = some d ∧
        RejectedFacts w.db.events.rows key d := by
  have hkey := h.commands key
  unfold CommandFacts at hkey
  cases hrow : w.db.commandRecord key with
  | none =>
      rw [hrow] at hkey
      exact .inl hkey
  | some row =>
      rw [hrow] at hkey
      dsimp only at hkey
      unfold RowFacts at hkey
      cases hstate : row.state with
      | processing =>
          rw [hstate] at hkey
          exact .inl hkey
      | accepted =>
          rw [hstate] at hkey
          obtain ⟨d, hd, hfacts⟩ := hkey
          exact .inr (.inl ⟨row, d, rfl, hstate, hd, hfacts⟩)
      | rejected =>
          rw [hstate] at hkey
          obtain ⟨d, hd, hfacts⟩ := hkey
          exact .inr (.inr ⟨row, d, rfl, hstate, hd, hfacts⟩)

/-- A command with a fact has been decided so. -/
theorem KernelLog.row_of_accepts (h : KernelLog w) {e : Event} (he : e ∈ w.db.events.rows)
    (hacc : Accepts key e) : ∃ row ∈ w.db.commandRecord key, row.state = .accepted := by
  rcases h.cases key with hopen | ⟨row, d, hrow, hstate, -, -⟩ | ⟨row, d, -, -, -, hfacts⟩
  · exact absurd hacc (hopen e he).1
  · exact ⟨row, hrow, hstate⟩
  · exact absurd hacc (hfacts.not_accepted e he)

theorem KernelLog.row_of_rejects (h : KernelLog w) {e : Event} (he : e ∈ w.db.events.rows)
    (hrej : Rejects key e) : ∃ row ∈ w.db.commandRecord key, row.state = .rejected := by
  rcases h.cases key with hopen | ⟨row, d, -, -, -, hfacts⟩ | ⟨row, d, hrow, hstate, -, -⟩
  · exact absurd hrej (hopen e he).2.1
  · exact absurd hrej (hfacts.not_rejected e he)
  · exact ⟨row, hrow, hstate⟩

theorem KernelLog.acceptedFacts (h : KernelLog w) {row : CommandRow}
    (hrow : w.db.commandRecord key = some row) (hstate : row.state = .accepted) :
    ∃ d, row.decision = some d ∧ AcceptedFacts w.db.events.rows key d := by
  have hkey := h.commands key
  rw [CommandFacts, hrow] at hkey
  dsimp only at hkey
  rwa [RowFacts, hstate] at hkey

theorem KernelLog.rejectedFacts (h : KernelLog w) {row : CommandRow}
    (hrow : w.db.commandRecord key = some row) (hstate : row.state = .rejected) :
    ∃ d, row.decision = some d ∧ RejectedFacts w.db.events.rows key d := by
  have hkey := h.commands key
  rw [CommandFacts, hrow] at hkey
  dsimp only at hkey
  rwa [RowFacts, hstate] at hkey

/-- Two facts of the decision of a command are the same fact. -/
theorem KernelLog.fact_unique (h : KernelLog w) {e f : Event} (he : e ∈ decisionFacts w.db.events.rows key)
    (hf : f ∈ decisionFacts w.db.events.rows key) : e = f := by
  obtain ⟨he, hek⟩ := List.mem_filter.mp he
  obtain ⟨hf, hfk⟩ := List.mem_filter.mp hf
  have hcross : ∀ e ∈ w.db.events.rows, ∀ f ∈ w.db.events.rows, Accepts key e → ¬ Rejects key f := by
    intro e he f hf hacc hrej
    obtain ⟨row, hrow, hstate⟩ := h.row_of_accepts he hacc
    obtain ⟨row', hrow', hstate'⟩ := h.row_of_rejects hf hrej
    rw [Option.mem_def, Option.mem_def.mp hrow] at hrow'
    obtain rfl := Option.some.inj hrow'
    rw [hstate] at hstate'
    cases hstate'
  refine w.db.events.eq_of_key_eq he hf ?_
  rcases of_decide_eq_true hek with hacc | hrej
  · rcases of_decide_eq_true hfk with hacc' | hrej'
    · rw [(h.named e he key).1 hacc, (h.named f hf key).1 hacc']
    · exact absurd hrej' (hcross e he f hf hacc)
  · rcases of_decide_eq_true hfk with hacc' | hrej'
    · exact absurd hrej (hcross f hf e he hacc')
    · rw [(h.named e he key).2 hrej, (h.named f hf key).2 hrej']

theorem length_le_one_of_unique {α : Type*} {l : List α} (hl : l.Nodup)
    (h : ∀ a ∈ l, ∀ b ∈ l, a = b) : l.length ≤ 1 := by
  cases l with
  | nil => exact Nat.zero_le 1
  | cons a l =>
      cases l with
      | nil => exact le_rfl
      | cons b l =>
          have hab := h a List.mem_cons_self b (List.mem_cons_of_mem a List.mem_cons_self)
          subst hab
          exact absurd List.mem_cons_self (List.nodup_cons.mp hl).1

end once

/-- **A command is decided once**, whoever submits it and wherever callers die. -/
theorem decides_once (K : KernelRules) {P : Pool (withStore kernelInterface) Submitted StoreWorld}
    (h : Pool.Reachable (submitRules K) kernelStart P) (key : String) :
    DecidedOnce P.state.db P.ended key := by
  have hstart : Pool.Ok (submitRules K) (fun w (_ : Unit) => KernelLog w) DecidedStay ReturnedDecided
      kernelStart [] := by
    refine ⟨⟨fun key => ?_, fun e he => absurd he List.not_mem_nil⟩, .nil,
      fun r hr => absurd hr List.not_mem_nil⟩
    exact fun e he => absurd he List.not_mem_nil
  obtain ⟨owned, hlog, -, hended⟩ := Pool.ok_of_reachable (submitRules_sound K) hstart h
  refine ⟨?_, ⟨?_, ?_⟩, ⟨?_, ?_⟩, ?_, ?_, ?_⟩
  · refine length_le_one_of_unique ?_ (fun e he f hf => hlog.fact_unique he hf)
    exact (List.Nodup.of_map _ P.state.db.events.nodup).filter _
  · rintro ⟨row, hrow, hstate⟩
    obtain ⟨d, -, hfacts⟩ := hlog.acceptedFacts hrow hstate
    exact hfacts.fact
  · rintro ⟨e, he, hacc⟩
    exact hlog.row_of_accepts he hacc
  · rintro ⟨row, hrow, hstate⟩
    obtain ⟨d, -, hfacts⟩ := hlog.rejectedFacts hrow hstate
    exact hfacts.fact
  · rintro ⟨e, he, hrej⟩
    exact hlog.row_of_rejects he hrej
  · intro e he hformal
    rcases hlog.cases key with hopen | ⟨row, d, hrow, hstate, hd, hfacts⟩ | ⟨row, d, -, -, -, hfacts⟩
    · exact absurd hformal (hopen e he).2.2
    · exact ⟨row, hrow, d, hstate, hd, hfacts.formal e he hformal⟩
    · exact absurd hformal (hfacts.formal e he)
  · intro row hrow d hstate hd
    obtain ⟨d', hd', hfacts⟩ := hlog.acceptedFacts hrow hstate
    rw [hd] at hd'
    obtain rfl := Option.some.inj hd'
    exact hfacts.present
  · intro d d' hd hd'
    obtain ⟨row, a, hrow, -, ha, h₁, h₂, h₃⟩ := hended _ hd d rfl
    obtain ⟨row', b, hrow', -, hb, h₁', h₂', h₃'⟩ := hended _ hd' d' rfl
    rw [hrow] at hrow'
    obtain rfl := Option.some.inj hrow'
    rw [ha] at hb
    obtain rfl := Option.some.inj hb
    exact ⟨h₁.symm.trans h₁', h₂.symm.trans h₂', h₃.symm.trans h₃'⟩

/-! ### Two callers -/

/-- The kernel, as it takes an `EVOLUTION` command of a run without a contract. -/
def evolutionRules : KernelRules where
  validate _ := pure none
  materialize c accepted := do
    let proposedAt ← ReadM.now
    let passedAt ← ReadM.now
    return [
      kernelEvent c "evolution-proposed" "evolution.candidate.proposed"
        (c.payload ++ [("status", .str "candidate")]) c.actorId (some accepted.id) proposedAt,
      kernelEvent c "evolution-offline-passed" "evolution.offline.passed"
        [("candidate_id", (c.payload.get? "candidate_id").getD .null),
          ("metrics", c.payload.getD "offline_metrics" (.dict [])), ("next_gate", .str "shadow"),
          ("note", .str "trace replay passed; no Git promotion performed")]
        "control.kernel" (some accepted.id) passedAt]
  emits := by
    intro c accepted
    refine ⟨trivial, fun _ _ => ⟨trivial, fun _ _ => ?_⟩⟩
    intro events hevents e he
    obtain rfl := Except.ok.inj hevents
    rcases List.mem_cons.mp he with rfl | he
    · exact ⟨rfl, by simp [kernelEvent], by simp [kernelEvent]⟩
    · obtain rfl := List.mem_singleton.mp he
      exact ⟨rfl, by simp [kernelEvent], by simp [kernelEvent]⟩

/-- A candidate of the evolver. -/
def evolverCandidate : CommandCandidate where
  candidateId := "candidate-1"
  idempotencyKey := "r1:evolver:candidate"
  runId := "r1"
  taskId := "t1"
  actorId := "context.evolver"
  kind := .evolution
  payload := [("candidate_id", .str "evolution-1")]

/-- Two callers have come with it: the first has begun the command, and the second overtakes it. -/
def evolverTwice : Pool (withStore kernelInterface) Submitted StoreWorld :=
  Pool.follow (R := submitRules evolutionRules) (kernelStrategy ⟨43200000000, some 0⟩ rfl)
    ⟨⟨.initial, 0⟩, [submitThread evolutionRules none evolverCandidate,
      submitThread evolutionRules none evolverCandidate], []⟩
    (List.replicate 4 0 ++ List.replicate 10 1 ++ List.replicate 10 0)

/-- The command is accepted, once. -/
theorem evolution_decided_once :
    (∃ row ∈ evolverTwice.state.db.commandRecord "r1:evolver:candidate", row.state = .accepted) ∧
      DecidedOnce evolverTwice.state.db evolverTwice.ended "r1:evolver:candidate" := by
  refine ⟨by decide, decides_once evolutionRules ?_ _⟩
  refine .trans (.tail (.single (.start (.submit _ none evolverCandidate)))
    (.start (.submit _ none evolverCandidate))) ?_
  exact Pool.follow_reachable _ _ _

end CrazyHarness
