import CrazyHarness.Lib.Run
import CrazyHarness.Store.Runs

/-! # Replaying the log

`rebuild_projections`: the projections are deleted and every stored event is projected again,
in the order of the column `seq`.  A row of `events` holds the event its JSON column parses to.

* `projectEvent_frame`: what projecting an event does to the projections depends on nothing else
  in the file.
* `Replayed`: the projections are what a replay makes of the log.  One new event keeps this
  (`Replayed.newEvent`), and no operation of the store writes anything else.
* `replayed_everywhere`: so it holds after every history of calls, the failed ones included. -/

namespace CrazyHarness

open Lib

namespace Database

/-- `SELECT seq, event_json FROM events ORDER BY seq`. -/
def records (db : Database) : List (ℕ × Event) :=
  (db.events.rows.map (fun e => (db.seqOf e.id, e))).mergeSort (fun a b => a.1 ≤ b.1)

/-- Project one record after the other. -/
def projectAll (db : Database) : List (ℕ × Event) → Except StoreError Database
  | [] => .ok db
  | (seq, e) :: records => do
      let db ← db.projectEvent e seq
      db.projectAll records

/-- `clear_projections`. -/
def clearProjections (db : Database) : Database := { db with projections := .empty }

/-- `rebuild_projections`. -/
def rebuildProjections (db : Database) : Except StoreError Database :=
  db.clearProjections.projectAll db.records

/-! ### Projecting reads and writes the projections alone -/

/-- The file with other projections. -/
def withProjections (db : Database) (t : Table ProjectionRow.key) : Database :=
  { db with projections := t }

/-- A stage of the projection depends on the projections alone, and changes nothing else. -/
def OnProjections (f : Database → Except StoreError Database) : Prop :=
  ∀ db d : Database, d.projections = db.projections →
    f d = (f db).map (fun db' => d.withProjections db'.projections)

theorem onProjections_ok : OnProjections .ok := by
  intro db d h
  show Except.ok d = Except.ok (d.withProjections db.projections)
  rw [← h]
  rfl

theorem onProjections_error (err : StoreError) : OnProjections (fun _ => .error err) :=
  fun _ _ _ => rfl

theorem onProjections_save (kind entityId : String) (state : Dict) (seq : ℕ) :
    OnProjections (fun db => .ok (db.saveProjection kind entityId state seq)) := by
  intro db d h
  show Except.ok (d.saveProjection kind entityId state seq) = _
  rw [saveProjection, h]
  rfl

/-- One stage after the other. -/
theorem OnProjections.bind {f g : Database → Except StoreError Database} (hf : OnProjections f)
    (hg : OnProjections g) : OnProjections (fun db => f db >>= g) := by
  intro db d h
  show (f d >>= g) = (f db >>= g).map _
  rw [hf db d h]
  cases hdb : f db with
  | error err => rfl
  | ok db₁ => exact hg db₁ (d.withProjections db₁.projections) rfl

theorem onProjections_rewrite (kind entityId : String) (seq : ℕ)
    (next : Option Dict → Except StoreError (Option Dict)) :
    OnProjections (fun db => db.rewriteProjection kind entityId seq next) := by
  intro db d h
  show d.rewriteProjection kind entityId seq next = (db.rewriteProjection kind entityId seq next).map _
  have hload : d.loadProjection kind entityId = db.loadProjection kind entityId := by
    rw [loadProjection, h, loadProjection]
  rw [rewriteProjection, hload, rewriteProjection]
  cases hnext : next (db.loadProjection kind entityId) with
  | error err => rfl
  | ok r =>
      cases r with
      | none => exact onProjections_ok db d h
      | some state => exact onProjections_save kind entityId state seq db d h

theorem onProjections_projectAgent (e : Event) (seq : ℕ) :
    OnProjections (fun db => db.projectAgent e seq) := by
  unfold projectAgent
  split
  · cases item e.payload "agent_id" with
    | error err => exact onProjections_error err
    | ok v => exact onProjections_rewrite _ _ _ _
  split
  · cases truthyText (e.get? "agent_id") with
    | none => exact onProjections_ok
    | some agentId => exact onProjections_rewrite _ _ _ _
  split
  · cases truthyText (e.get? "mailbox_id") with
    | none => exact onProjections_ok
    | some agentId => exact onProjections_rewrite _ _ _ _
  exact onProjections_ok

theorem onProjections_projectAssignment (e : Event) (seq : ℕ) :
    OnProjections (fun db => db.projectAssignment e seq) := by
  unfold projectAssignment
  split
  · cases item e.payload "assignment_id" with
    | error err => exact onProjections_error err
    | ok v =>
        exact onProjections_rewrite "assignment" v.pyStr seq (fun _ => .ok (some (createdAssignment e)))
  cases truthyText (e.get? "assignment_id") with
  | none => exact onProjections_ok
  | some assignmentId =>
      cases assignmentStatusByType.lookup e.type with
      | none => exact onProjections_ok
      | some status => exact onProjections_rewrite _ _ _ _

theorem onProjections_projectLease (e : Event) (seq : ℕ) :
    OnProjections (fun db => db.projectLease e seq) := by
  unfold projectLease
  split
  · cases truthyText (e.get? "assignment_id") with
    | none => exact onProjections_ok
    | some assignmentId => exact onProjections_rewrite _ _ _ _
  · exact onProjections_ok

theorem onProjections_projectPayload (kind : String) (types : List String) (e : Event) (seq : ℕ) :
    OnProjections (fun db => db.projectPayload kind types e seq) := by
  unfold projectPayload
  split
  · cases item e.payload "agent_id" with
    | error err => exact onProjections_error err
    | ok v => exact onProjections_save _ _ _ _
  · exact onProjections_ok

theorem onProjections_projectEntity (kind family idKey : String)
    (next : Json → Option Dict → Dict) (e : Event) (seq : ℕ) :
    OnProjections (fun db => db.projectEntity kind family idKey next e seq) := by
  unfold projectEntity
  split
  · cases e.get? idKey with
    | none => exact onProjections_ok
    | some v =>
        dsimp only
        split
        · exact onProjections_rewrite _ _ _ _
        · exact onProjections_ok
  · exact onProjections_ok

theorem onProjections_projectEvent (e : Event) (seq : ℕ) :
    OnProjections (fun db => db.projectEvent e seq) := by
  unfold projectEvent
  refine (onProjections_rewrite _ _ _ _).bind ?_
  refine (onProjections_projectAgent e seq).bind ?_
  refine (onProjections_projectAssignment e seq).bind ?_
  refine (onProjections_projectLease e seq).bind ?_
  refine (onProjections_projectPayload _ _ e seq).bind ?_
  refine (onProjections_projectPayload _ _ e seq).bind ?_
  refine (onProjections_projectEntity _ _ _ _ e seq).bind ?_
  refine (onProjections_projectEntity _ _ _ _ e seq).bind ?_
  exact onProjections_projectEntity _ _ _ _ e seq

theorem onProjections_projectAll (records : List (ℕ × Event)) :
    OnProjections (fun db => db.projectAll records) := by
  induction records with
  | nil => exact onProjections_ok
  | cons record records ih => exact (onProjections_projectEvent record.2 record.1).bind ih

/-- What an event does to the projections depends on them alone, and it changes nothing else. -/
theorem projectEvent_frame {db d : Database} (h : d.projections = db.projections) (e : Event)
    (seq : ℕ) :
    d.projectEvent e seq =
      (db.projectEvent e seq).map (fun db' => d.withProjections db'.projections) :=
  onProjections_projectEvent e seq db d h

theorem projectAll_frame {db d : Database} (h : d.projections = db.projections)
    (records : List (ℕ × Event)) :
    d.projectAll records =
      (db.projectAll records).map (fun db' => d.withProjections db'.projections) :=
  onProjections_projectAll records db d h

theorem projectAll_append (db : Database) (rs ss : List (ℕ × Event)) :
    db.projectAll (rs ++ ss) = db.projectAll rs >>= fun db' => db'.projectAll ss := by
  induction rs generalizing db with
  | nil => rfl
  | cons record rs ih =>
      show (db.projectEvent record.2 record.1 >>= fun db' => db'.projectAll (rs ++ ss)) =
        (db.projectEvent record.2 record.1 >>= fun db' => db'.projectAll rs) >>= _
      cases db.projectEvent record.2 record.1 with
      | error err => rfl
      | ok db' => exact ih db'

/-! ### The projections are a replay of the log -/

variable {db db' : Database} {e : Event} {es : List Event}

/-- The rows come in the order of their numbers, and a replay finds the projections as they are. -/
structure Replayed (db : Database) : Prop where
  ordered : db.events.rows.Pairwise (fun e f => db.seqOf e.id < db.seqOf f.id)
  counted : ∀ e ∈ db.events.rows, db.seqOf e.id ≤ db.lastSeq
  rebuilt : db.rebuildProjections = .ok db

theorem Replayed.records (h : Replayed db) :
    db.records = db.events.rows.map (fun e => (db.seqOf e.id, e)) := by
  apply List.mergeSort_of_pairwise
  rw [List.pairwise_map]
  exact h.ordered.imp (fun hlt => decide_eq_true hlt.le)

theorem replayed_initial : Replayed .initial where
  ordered := List.Pairwise.nil
  counted := fun _ he => absurd he List.not_mem_nil
  rebuilt := by simp [rebuildProjections, records, initial, Table.empty, projectAll, clearProjections]

/-- What leaves the log and the projections alone keeps the replay. -/
theorem Replayed.sameLog (h : Replayed db) (hs : SameLog db db') : Replayed db' := by
  have hordered : db'.events.rows.Pairwise (fun e f => db'.seqOf e.id < db'.seqOf f.id) := by
    rw [hs.events, hs.seqOf]
    exact h.ordered
  have hrecords : db'.records = db.records := by
    rw [Database.records, hs.events, hs.seqOf, Database.records]
  refine ⟨hordered, ?_, ?_⟩
  · intro e he
    rw [hs.events] at he
    rw [hs.seqOf]
    exact (h.counted e he).trans hs.lastSeq
  · have hrebuilt : db.clearProjections.projectAll db.records = .ok db := h.rebuilt
    have hcleared : db'.clearProjections.projections = db.clearProjections.projections := rfl
    rw [rebuildProjections, hrecords, projectAll_frame hcleared, hrebuilt]
    show Except.ok (db'.clearProjections.withProjections db.projections) = .ok db'
    rw [← hs.projections]
    rfl

/-- The file after a new event is the one with its row, with other projections. -/
theorem NewEvent.inserted (h : NewEvent db e db') :
    ∃ hnew, db' = (db.inserted e hnew).withProjections db'.projections := by
  obtain ⟨hnew, hproject⟩ := h
  have hframe := hproject
  rw [projectEvent_frame rfl, hproject] at hframe
  exact ⟨hnew, (Except.ok.inj hframe).symm⟩

/-- The columns of the log after a new event. -/
theorem NewEvent.numbered (h : NewEvent db e db') :
    (∀ f ∈ db.events.rows, db'.seqOf f.id = db.seqOf f.id) ∧ db'.seqOf e.id = db.lastSeq + 1 ∧
      db'.lastSeq = db.lastSeq + 1 := by
  obtain ⟨hnew, heq⟩ := h.inserted
  have hseq : db'.seqOf = Function.update db.seqOf e.id (db.lastSeq + 1) := by
    rw [heq]
    rfl
  refine ⟨?_, ?_, ?_⟩
  · intro f hf
    have hne : f.id ≠ e.id := Table.lookup_eq_none_iff.mp hnew f hf
    rw [hseq, Function.update_of_ne hne]
  · rw [hseq, Function.update_self]
  · rw [heq]
    rfl

/-- The rows stay in the order of their numbers. -/
theorem Replayed.ordered_newEvent (h : Replayed db) (he : NewEvent db e db') :
    db'.events.rows.Pairwise (fun e f => db'.seqOf e.id < db'.seqOf f.id) := by
  obtain ⟨hsame, hseq, -⟩ := he.numbered
  rw [he.rows, List.pairwise_append]
  refine ⟨h.ordered.imp_of_mem ?_, List.pairwise_singleton _ _, ?_⟩
  · intro f g hf hg hlt
    rw [hsame f hf, hsame g hg]
    exact hlt
  · intro f hf g hg
    obtain rfl := List.mem_singleton.mp hg
    have hle := h.counted f hf
    rw [hsame f hf, hseq]
    omega

/-- The record of a new event is the last one. -/
theorem Replayed.records_newEvent (h : Replayed db) (he : NewEvent db e db') :
    db'.records = db.records ++ [(db.lastSeq + 1, e)] := by
  obtain ⟨hsame, hseq, -⟩ := he.numbered
  have hmap : db.events.rows.map (fun f => (db'.seqOf f.id, f)) =
      db.events.rows.map (fun f => (db.seqOf f.id, f)) := by
    refine List.map_congr_left ?_
    intro f hf
    rw [hsame f hf]
  have hsorted : db'.records = db'.events.rows.map (fun f => (db'.seqOf f.id, f)) := by
    apply List.mergeSort_of_pairwise
    rw [List.pairwise_map]
    exact (h.ordered_newEvent he).imp (fun hlt => decide_eq_true hlt.le)
  rw [hsorted, he.rows, List.map_append, hmap, h.records, List.map_singleton, hseq]

/-- **One new event** is projected as a replay projects it. -/
theorem Replayed.newEvent (h : Replayed db) (he : NewEvent db e db') : Replayed db' := by
  obtain ⟨hsame, -, hlast⟩ := he.numbered
  have hcounted : ∀ f ∈ db'.events.rows, db'.seqOf f.id ≤ db'.lastSeq := by
    intro f hf
    rw [he.rows] at hf
    rcases List.mem_append.mp hf with hf | hf
    · have hle := h.counted f hf
      rw [hsame f hf]
      omega
    · obtain rfl := List.mem_singleton.mp hf
      have hseq := he.numbered.2.1
      omega
  refine ⟨h.ordered_newEvent he, hcounted, ?_⟩
  -- the records before the new one lead to the projections before it
  have hbefore : db'.clearProjections.projectAll db.records =
      .ok (db'.withProjections db.projections) := by
    have hrebuilt : db.clearProjections.projectAll db.records = .ok db := h.rebuilt
    have hcleared : db'.clearProjections.projections = db.clearProjections.projections := rfl
    rw [projectAll_frame hcleared, hrebuilt]
    rfl
  rw [rebuildProjections, h.records_newEvent he, projectAll_append, hbefore, ok_bind]
  obtain ⟨hnew, hproject⟩ := he
  have hprojections : (db'.withProjections db.projections).projections =
      (db.inserted e hnew).projections := rfl
  show ((db'.withProjections db.projections).projectEvent e (db.lastSeq + 1) >>= .ok) = .ok db'
  rw [projectEvent_frame hprojections, hproject]
  rfl

/-- Whatever is written keeps the replay. -/
theorem Replayed.wrote (h : Replayed db) (hw : Wrote db es db') : Replayed db' :=
  hw.preserves (fun _ _ hs hr => hr.sameLog hs) (fun _ _ _ he _ hr => hr.newEvent he) h

end Database

/-! ### Histories -/

/-- A call of the store; `elsewhere` is what leaves the log alone: commands that begin, claims
that are taken or renewed, model calls. -/
inductive LogCall where
  | append (dispatch : Option DispatchContext) (e : Event) (now : DateTime)
  | commitCommand (idempotencyKey : String) (state : CommandState) (decision : KernelDecision)
      (events : List Event) (precondition : Option (Database → Except StoreError (Option String)))
      (guard : Option (String × Claims)) (now : DateTime)
  | finishWorkClaims (claims : Claims) (ownerId : String) (state : WorkClaimState)
      (now : DateTime) (finalEvent : Option Event) (allowCancelledRun : Bool)
  | elsewhere (db' : Database)

namespace LogCall

/-- The file a call leaves, or the exception it raises. -/
def run (db : Database) : LogCall → Except StoreError Database
  | .append dispatch e now => (db.append dispatch e now).map Prod.snd
  | .commitCommand idempotencyKey state decision events precondition guard now =>
      (db.commitCommand idempotencyKey state decision events precondition guard now).map Prod.snd
  | .finishWorkClaims claims ownerId state now finalEvent allowCancelledRun =>
      (db.finishWorkClaims claims ownerId state now finalEvent allowCancelledRun).map Prod.snd
  | .elsewhere db' => .ok { db' with
      events := db.events, projections := db.projections, seqOf := db.seqOf, lastSeq := db.lastSeq }

/-- A call that raises is rolled back. -/
def apply (call : LogCall) (db : Database) : Database :=
  match call.run db with
  | .ok db' => db'
  | .error _ => db

theorem run_wrote {db db' : Database} {call : LogCall} (h : call.run db = .ok db') :
    ∃ es, db.Wrote es db' := by
  cases call with
  | append dispatch e now =>
      cases happend : db.append dispatch e now with
      | error err =>
          rw [run, happend] at h
          cases h
      | ok out =>
          rw [run, happend] at h
          obtain rfl := Except.ok.inj h
          rcases Database.append_cases happend with ⟨heq, -, -⟩ | ⟨-, hnew⟩
          · refine ⟨[], .nothing ?_⟩
            rw [heq]
            exact Database.sameLog_skipSeq db
          · exact ⟨[e], (show db.NewEvent e out.2 by simpa using hnew).wrote⟩
  | commitCommand idempotencyKey state decision events precondition guard now =>
      cases hcommit : db.commitCommand idempotencyKey state decision events precondition guard now with
      | error err =>
          rw [run, hcommit] at h
          cases h
      | ok out =>
          rw [run, hcommit] at h
          obtain rfl := Except.ok.inj h
          obtain ⟨-, es, -, hwrote, -⟩ := Database.commitCommand_wrote hcommit
          exact ⟨es, hwrote⟩
  | finishWorkClaims claims ownerId state now finalEvent allowCancelledRun =>
      cases hfinish : db.finishWorkClaims claims ownerId state now finalEvent allowCancelledRun with
      | error err =>
          rw [run, hfinish] at h
          cases h
      | ok out =>
          rw [run, hfinish] at h
          obtain rfl := Except.ok.inj h
          obtain ⟨es, -, hwrote⟩ := Database.finishWorkClaims_wrote hfinish
          exact ⟨es, hwrote⟩
  | elsewhere db₁ =>
      obtain rfl := Except.ok.inj h
      exact ⟨[], .nothing ⟨rfl, rfl, rfl, le_rfl⟩⟩

/-- A call keeps the replay, whether it returns or raises. -/
theorem replayed_apply {db : Database} (call : LogCall) (h : db.Replayed) :
    (call.apply db).Replayed := by
  unfold apply
  split
  next db' hrun =>
    obtain ⟨es, hwrote⟩ := run_wrote hrun
    exact h.wrote hwrote
  next => exact h

theorem apply_of_error {db : Database} {call : LogCall} {err : StoreError}
    (h : call.run db = .error err) : call.apply db = db := by
  rw [apply, h]

end LogCall

/-- **After every history of calls** the projections are what projecting the log from an empty
table gives, so that rebuilding them changes nothing; and a call that raised changed nothing. -/
theorem replayed_everywhere (calls : List LogCall) :
    EveryState LogCall.apply (fun db =>
        db.events.rows.Pairwise (fun e f => db.seqOf e.id < db.seqOf f.id) ∧
        (db.clearProjections.projectAll db.records).map Database.projections = .ok db.projections ∧
        db.rebuildProjections = .ok db) .initial calls ∧
      EveryStep LogCall.apply (fun db call => ∀ err, call.run db = .error err →
        (call.apply db).events = db.events ∧ (call.apply db).projections = db.projections)
        .initial calls := by
  constructor
  · have hall : EveryState LogCall.apply Database.Replayed .initial calls :=
      EveryState.of_invariant Database.replayed_initial (fun _ call h _ => call.replayed_apply h)
        (EveryStep.of_forall (Q := fun _ _ => True) (fun _ _ => trivial) _ _)
    refine hall.mono ?_
    intro db h
    have hrebuilt : db.clearProjections.projectAll db.records = .ok db := h.rebuilt
    refine ⟨h.ordered, ?_, h.rebuilt⟩
    rw [hrebuilt]
    rfl
  · refine EveryStep.of_forall ?_ _ _
    intro db call err herror
    rw [LogCall.apply_of_error herror]
    exact ⟨rfl, rfl⟩

end CrazyHarness
