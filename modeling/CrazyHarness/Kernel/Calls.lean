import CrazyHarness.Kernel.Submit

/-! # What a submission does to the store

Whatever the store replies, `submit` only makes calls of the kinds of `KernelCall`: it notes that the
candidate has come, rejects it, or accepts it in a transaction that checks it once more.
`KernelEffect` is what such a call does to the log; the events of an acceptance are those that
`_materialize` could have given, in the state of the commit as far as the checks go, and in any state
before as far as its own reads go. -/

namespace CrazyHarness

open Lib RuntimeM

/-- The types of the events that are no formal facts. -/
def candidateNotes : List String :=
  ["candidate.submitted", "candidate.recovered", "candidate.rejected", "a2a.policy.denied"]

/-- An event about the candidate that is no formal fact. -/
def IsNote (c : CommandCandidate) (e : Event) : Prop :=
  e.runId = c.runId ∧ e.taskId = c.taskId ∧ e.type ∈ candidateNotes

/-- The replies that calls may get. -/
abbrev Replies : Type := (op : (withStore kernelInterface).Op) → (withStore kernelInterface).Reply op → Prop

/-- Any replies. -/
abbrev anyReply : Replies := fun _ _ => True

/-- The replies that reads may get. -/
def Replies.reads (A : Replies) (op : ReadOp) (r : op.Reply) : Prop := A (.inr (.read op)) r

/-- The calls that a submission of a candidate makes, when the replies are among `A`. -/
inductive KernelCall (A : Replies) (K : KernelRules) (c : CommandCandidate) :
    (withStore kernelInterface).Op → Prop
  | now : KernelCall A K c (.inl .now)
  | note {dispatch : Option DispatchContext} {e : Event} (h : IsNote c e) :
      KernelCall A K c (.inl (.append dispatch e))
  | cancelled : KernelCall A K c (.inr .cancelled)
  | record {key : String} : KernelCall A K c (.inr (.commandRecord key))
  | begin : KernelCall A K c (.inr (.beginCommand c))
  | read {op : ReadOp} : KernelCall A K c (.inr (.read op))
  | reject {decision : KernelDecision} {events : List Event} {guard : Option (String × Claims)}
      (h : ∀ e ∈ events, IsNote c e) :
      KernelCall A K c (.inr (.commitCommand c.idempotencyKey .rejected decision events none guard))
  | accept {decision : KernelDecision} {acceptedAt : DateTime} {formal : List Event}
      {guard : Option (String × Claims)}
      (h : (K.materialize c (acceptedEvent c acceptedAt)).YieldsIn A.reads formal) :
      KernelCall A K c (.inr (.commitCommand c.idempotencyKey .accepted decision
        (acceptedEvent c acceptedAt :: formal) (some (K.validate c)) guard))

/-- The acceptance of a candidate: the checks pass in the state of the commit, the events that are
new come from the acceptance, and the others were there before. -/
structure Acceptance (A : Replies) (K : KernelRules) (c : CommandCandidate) (db : Database)
    (es : List Event) (db' : Database) : Prop where
  valid : ∃ clock : DateTime, (K.validate c).within db clock = .ok none
  formal : ∃ acceptedAt formal,
    (K.materialize c (acceptedEvent c acceptedAt)).YieldsIn A.reads formal ∧
      es.Sublist (acceptedEvent c acceptedAt :: formal) ∧
      ∀ e ∈ acceptedEvent c acceptedAt :: formal, ∃ f ∈ db'.events.rows, f.SameFact e
  wrote : db.Wrote es db'

/-- The call that commits an acceptance. -/
def CommitsAcceptance (op : (withStore kernelInterface).Op) : Prop :=
  ∃ idempotencyKey decision events precondition guard,
    op = .inr (.commitCommand idempotencyKey .accepted decision events precondition guard)

/-- What a call of a submission does. -/
inductive KernelEffect (A : Replies) (K : KernelRules) (c : CommandCandidate)
    (op : (withStore kernelInterface).Op) (db db' : Database) : Prop
  | noted (es : List Event) (h : db.Wrote es db') (hnotes : ∀ e ∈ es, IsNote c e)
  | accepted (es : List Event) (h : Acceptance A K c db es db') (hop : CommitsAcceptance op)

/-! ### The calls of `submit` -/

section asks

variable {A : Replies} {K : KernelRules} {c : CommandCandidate} {dispatch : Option DispatchContext}
  {α : Type}

/-- Code that makes the calls of a submission only. -/
abbrev AsksCalls (A : Replies) (K : KernelRules) (c : CommandCandidate) (post : α → Prop)
    (p : Kernel α) : Prop :=
  Asks A (KernelCall A K c) post p

theorem calls_reading (p : ReadM α) : AsksCalls A K c (p.YieldsIn A.reads) (reading p) := by
  suffices h : ∀ q : ReadM α, (∀ a, q.YieldsIn A.reads a → p.YieldsIn A.reads a) →
      AsksCalls A K c (p.YieldsIn A.reads) (reading q) from h p (fun _ ha => ha)
  intro q
  induction q with
  | done r =>
      intro hq
      cases r with
      | ok a => exact asks_pure (hq a rfl)
      | error e => exact asks_throw _
  | request op next ih =>
      intro hq
      exact ⟨.read, fun r hr => ih r (fun a ha => hq a ⟨r, hr, ha⟩)⟩

theorem calls_now : AsksCalls A K c (fun _ => True) (now : Kernel DateTime) :=
  ⟨.now, fun _ _ _ _ => trivial⟩

theorem calls_raiseIfCancelled : AsksCalls A K c (fun _ => True) (raiseIfCancelled dispatch) := by
  cases dispatch with
  | none => exact asks_pure trivial
  | some d =>
      have hcall : AsksCalls A K c (fun _ => True) (lift (kernelCall .cancelled)) :=
        ⟨.cancelled, fun _ _ _ _ => trivial⟩
      refine asks_bind hcall ?_
      intro cancelled _
      split
      · exact asks_throw _
      · exact asks_pure trivial

theorem calls_workClaimGuard : AsksCalls A K c (fun _ => True) (workClaimGuard dispatch) :=
  asks_bind calls_raiseIfCancelled (fun _ _ => asks_pure trivial)

theorem calls_kernelAppend {suffix type : String} (payload : Dict) (source : String)
    (htype : type ∈ candidateNotes) :
    AsksCalls A K c (fun _ => True) (kernelAppend dispatch c suffix type payload source) :=
  asks_append .now (fun _ => .note ⟨rfl, rfl, htype⟩)

theorem calls_rejectEvents (reason : String) :
    AsksCalls A K c (fun events => ∀ e ∈ events, IsNote c e) (rejectEvents c reason) := by
  refine asks_bind calls_now ?_
  intro createdAt _
  have hrejected : IsNote c (rejectedEvent c reason createdAt) :=
    ⟨rfl, rfl, by simp [rejectedEvent, kernelEvent, candidateNotes]⟩
  dsimp only
  split
  · refine asks_bind calls_now ?_
    intro deniedAt _
    refine asks_pure ?_
    intro e he
    cases List.mem_cons.mp he with
    | inl heq =>
        rw [heq]
        exact hrejected
    | inr hmem =>
        rw [List.mem_singleton.mp hmem]
        exact ⟨rfl, rfl, by simp [peerDeniedEvent, kernelEvent, candidateNotes]⟩
  · refine asks_pure ?_
    intro e he
    rw [List.mem_singleton.mp he]
    exact hrejected

theorem calls_commitRejection (recovered : Bool) (reason : String) :
    AsksCalls A K c (fun _ => True) (commitRejection dispatch c recovered reason) := by
  refine asks_bind (calls_rejectEvents reason) ?_
  intro events hevents
  refine asks_bind calls_workClaimGuard ?_
  intro guard _
  have hcommit : ∀ decision, AsksCalls A K c (fun _ => True)
      (raising (kernelCall (.commitCommand c.idempotencyKey .rejected decision events none guard))) :=
    fun _ => asks_raising ⟨.reject hevents, fun _ _ _ _ => trivial⟩
  exact asks_bind (hcommit _) (fun _ _ => asks_pure trivial)

theorem calls_commitAcceptance (recovered : Bool) :
    AsksCalls A K c (fun _ => True) (commitAcceptance K dispatch c recovered) := by
  refine asks_bind calls_now ?_
  intro acceptedAt _
  refine asks_bind (calls_reading (K.materialize c (acceptedEvent c acceptedAt))) ?_
  intro formal hformal
  refine asks_bind calls_workClaimGuard ?_
  intro guard _
  have hcommit : ∀ decision, AsksCalls A K c (fun _ => True)
      (raising (kernelCall (.commitCommand c.idempotencyKey .accepted decision
        (acceptedEvent c acceptedAt :: formal) (some (K.validate c)) guard))) :=
    fun _ => asks_raising ⟨.accept hformal, fun _ _ _ _ => trivial⟩
  refine asks_handle ?_ ?_
  · exact asks_bind (hcommit _) (fun _ _ => asks_pure trivial)
  · intro e
    split
    · exact calls_commitRejection recovered _
    · exact asks_throw _

theorem calls_decideCommand (recovered : Bool) :
    AsksCalls A K c (fun _ => True) (decideCommand K dispatch c recovered) := by
  refine asks_bind (calls_reading (K.validate c)) ?_
  intro rejection _
  cases rejection with
  | some reason => exact calls_commitRejection recovered reason
  | none => exact calls_commitAcceptance recovered

theorem calls_submitRecorded (row : CommandRow) :
    AsksCalls A K c (fun _ => True) (submitRecorded K dispatch c row) := by
  unfold submitRecorded
  split
  · unfold submitRecovered
    split
    · exact asks_throw _
    split
    · exact asks_throw _
    exact asks_bind (calls_kernelAppend _ _ (by decide)) (fun _ _ => calls_decideCommand true)
  · split
    · exact asks_pure trivial
    · exact asks_throw _

/-- Whatever the store replies, a submission makes these calls only. -/
theorem calls_submit (A : Replies) (K : KernelRules) (dispatch : Option DispatchContext) (c : CommandCandidate) :
    AsksCalls A K c (fun _ => True) (submit K dispatch c) := by
  suffices h : ∀ depth, AsksCalls A K c (fun _ => True) (submitFrom K dispatch c depth) from h 1000
  intro depth
  induction depth with
  | zero => exact asks_throw _
  | succ depth ih =>
      refine asks_bind calls_raiseIfCancelled ?_
      intro _ _
      have hrecord : AsksCalls A K c (fun _ => True)
          (lift (kernelCall (.commandRecord c.idempotencyKey))) :=
        ⟨.record, fun _ _ _ _ => trivial⟩
      refine asks_bind hrecord ?_
      intro record _
      cases record with
      | some row => exact calls_submitRecorded row
      | none =>
          have hbegin : AsksCalls A K c (fun _ => True) (lift (kernelCall (.beginCommand c))) :=
            ⟨.begin, fun _ _ _ _ => trivial⟩
          refine asks_bind hbegin ?_
          intro created _
          dsimp only
          split
          · exact asks_bind (calls_kernelAppend _ _ (by decide)) (fun _ _ => calls_decideCommand false)
          · exact ih

end asks

/-! ### The effect of a call -/

section effect

variable {A : Replies} {K : KernelRules} {c : CommandCandidate} {w w' : StoreWorld}

theorem KernelEffect.sameLog {op : (withStore kernelInterface).Op} {db db' : Database}
    (h : db.SameLog db') : KernelEffect A K c op db db' :=
  .noted [] (.nothing h) (fun _ he => absurd he List.not_mem_nil)

/-- **A call of a submission** notes something, or accepts the candidate. -/
theorem KernelCall.effect {op : (withStore kernelInterface).Op}
    {r : (withStore kernelInterface).Reply op} (h : KernelCall A K c op) (hs : kernelStep w op r w') :
    KernelEffect A K c op w.db w'.db := by
  cases h with
  | now =>
      rw [hs.2]
      exact .sameLog (.refl _)
  | @note dispatch e hnote =>
      obtain ⟨d, now, -, -, hout⟩ := hs
      rcases StoreWorld.returns_cases hout with ⟨_, -, -, rfl⟩ | ⟨stored, db, happend, -, rfl⟩
      · exact .sameLog (.refl _)
      · rcases Database.append_cases happend with ⟨rfl, -, -⟩ | ⟨-, hnew⟩
        · exact .sameLog (Database.sameLog_skipSeq _)
        · refine .noted [e] hnew.wrote ?_
          intro f hf
          rw [List.mem_singleton.mp hf]
          exact hnote
  | cancelled =>
      rw [show w' = w from hs]
      exact .sameLog (.refl _)
  | record =>
      rw [hs.2]
      exact .sameLog (.refl _)
  | begin =>
      obtain ⟨now, -, hout⟩ := hs
      obtain ⟨-, rfl⟩ := Prod.mk.inj hout
      exact .sameLog ⟨rfl, rfl, rfl, le_rfl⟩
  | read =>
      obtain ⟨now, -, -, rfl⟩ := hs
      exact .sameLog (.refl _)
  | reject hnotes =>
      obtain ⟨now, -, hout⟩ := hs
      rcases StoreWorld.returns_cases hout with ⟨_, -, -, rfl⟩ | ⟨stored, db, hcommit, -, rfl⟩
      · exact .sameLog (.refl _)
      · obtain ⟨-, es, hes, hwrote, -⟩ := Database.commitCommand_wrote hcommit
        exact .noted es hwrote (fun e he => hnotes e (hes.subset he))
  | @accept decision acceptedAt formal guard hformal =>
      obtain ⟨now, -, hout⟩ := hs
      rcases StoreWorld.returns_cases hout with ⟨_, -, -, rfl⟩ | ⟨stored, db, hcommit, -, rfl⟩
      · exact .sameLog (.refl _)
      · obtain ⟨hvalid, es, hes, hwrote, hpresent⟩ := Database.commitCommand_wrote hcommit
        exact .accepted es ⟨⟨now, hvalid _ rfl⟩, ⟨acceptedAt, formal, hformal, hes, hpresent⟩, hwrote⟩
          ⟨_, _, _, _, _, rfl⟩

end effect

end CrazyHarness
