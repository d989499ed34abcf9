import CrazyHarness.Agents.GovernedLoop
import CrazyHarness.Agents.TurnCode

/-! # Requests and their calls

`Accounted` is an invariant between the log and the table of model calls: a request with a started
attempt and no response is the one the next run resumes with.  `Spares w w'` says that a step of a
governed loop touches no request: the writes of others (`spares_others`), the authority without a
call to make (`spares_outside`) and the loop inside a turn (`spares_within`) are such steps. -/

namespace CrazyHarness

open Lib Program LoopM

/-! ### Operations of the table -/

namespace Database

variable {db db' : Database} {id : String}

/-- A call has as many attempts as before, and no row has appeared for it. -/
def SameCall (id : String) (db db' : Database) : Prop :=
  db'.attemptsOf id = db.attemptsOf id ∧
    (db.modelCalls.lookup id = none → db'.modelCalls.lookup id = none)

theorem SameCall.refl (id : String) (db : Database) : SameCall id db db := ⟨rfl, fun h => h⟩

theorem SameCall.trans {db'' : Database} (h : SameCall id db db') (h' : SameCall id db' db'') :
    SameCall id db db'' :=
  ⟨h'.1.trans h.1, fun hnone => h'.2 (h.2 hnone)⟩

/-- Rows rewritten without their attempts. -/
theorem sameCall_updateWhere (db : Database) (p : ModelCallRow → Prop) [DecidablePred p]
    (f : ModelCallRow → ModelCallRow) (hf : ∀ r, p r → (f r).callId = r.callId)
    (hattempts : ∀ r, p r → r.callId = id → (f r).attemptCount = r.attemptCount) :
    SameCall id db { db with modelCalls := db.modelCalls.updateWhere p f hf } := by
  unfold SameCall attemptsOf
  rw [Table.lookup_updateWhere]
  cases hrow : db.modelCalls.lookup id with
  | none => simp
  | some row =>
      refine ⟨?_, fun h => by cases h⟩
      rw [Option.map_some, Option.elim_some, Option.elim_some]
      split
      next hp => exact hattempts row hp (Table.key_of_lookup hrow)
      next => rfl

/-- Reserving a call starts no attempt and makes a row for this call only. -/
theorem sameCall_reserve (db : Database) (c : ModelReservation) (limits : ModelLimits)
    (now : DateTime) (id : String) :
    ((ModelCallOp.reserve c limits now).apply db).attemptsOf id = db.attemptsOf id ∧
      (id ≠ c.callId → SameCall id db ((ModelCallOp.reserve c limits now).apply db)) := by
  simp only [ModelCallOp.apply]
  split
  next row db' happly =>
    obtain ⟨hid, hnone, -, hnew, rfl⟩ := reserveModelCall_eq happly
    have hattempts : Database.attemptsOf
        { db with modelCalls := db.modelCalls.insertNew row hnew } id = db.attemptsOf id := by
      unfold attemptsOf
      rw [Table.lookup_insertNew]
      by_cases hrow : id = row.callId
      · subst hrow
        rw [if_pos rfl, hnew, Option.elim_some, Option.elim_none, hnone]
      · rw [if_neg hrow]
    refine ⟨hattempts, fun hne => ⟨hattempts, fun hlook => ?_⟩⟩
    rw [Table.lookup_insertNew, if_neg (hid ▸ hne), hlook]
  next => exact ⟨rfl, fun _ => .refl _ _⟩

theorem sameCall_start (db : Database) (callId : String) (now : DateTime) (hne : id ≠ callId) :
    SameCall id db ((ModelCallOp.start callId now).apply db) := by
  simp only [ModelCallOp.apply, startModelCallAttempt]
  split
  next happly =>
    split at happly
    · cases happly
    · split at happly
      · obtain ⟨_, rfl⟩ := Prod.mk.inj (Except.ok.inj happly)
        exact sameCall_updateWhere _ _ _ _ (fun r hr hid => absurd (hid.symm.trans hr) hne)
      · cases happly
  next => exact .refl _ _

theorem sameCall_fail (db : Database) (callId : String) (uncertain : Bool)
    (errorType errorMessage : String) (now : DateTime) (id : String) :
    SameCall id db ((ModelCallOp.fail callId uncertain errorType errorMessage now).apply db) := by
  simp only [ModelCallOp.apply, failModelCall]
  split
  next happly =>
    split at happly
    · cases happly
    · split at happly
      · cases happly
        exact .refl _ _
      · cases happly
        exact sameCall_updateWhere _ _ _ _ (fun _ _ _ => rfl)
  next => exact .refl _ _

theorem sameCall_recover (db : Database) (runId : String) (staleBefore now : DateTime) (id : String) :
    SameCall id db ((ModelCallOp.recover runId staleBefore now).apply db) := by
  simp only [ModelCallOp.apply, recoverStaleModelCalls]
  split
  next happly =>
    split at happly
    · cases happly
    · obtain ⟨_, rfl⟩ := Prod.mk.inj (Except.ok.inj happly)
      have hreleased : SameCall id db _ := sameCall_updateWhere db
        (StaleCall runId staleBefore.isoformat .reserved)
        (·.endedAs .failed "AbandonedReservation" "no transport attempt started before recovery" now)
        (fun r _ => r.endedAs_callId _ _ _ now) (fun _ _ _ => rfl)
      exact hreleased.trans (sameCall_updateWhere _ _ _ _ (fun _ _ _ => rfl))
  next => exact .refl _ _

theorem sameCall_reconcile (db : Database) (callId completionEventId : String) (usage : ModelUsage)
    (cost : ℤ) (now : DateTime) (id : String) :
    SameCall id db ((ModelCallOp.reconcile callId completionEventId usage cost now).apply db) := by
  simp only [ModelCallOp.apply, reconcileModelCall]
  split
  next happly =>
    split at happly
    · cases happly
    · split at happly
      · split at happly
        · obtain ⟨_, rfl⟩ := Prod.mk.inj (Except.ok.inj happly)
          exact .refl _ _
        · cases happly
      · split at happly
        · cases happly
        · obtain ⟨_, rfl⟩ := Prod.mk.inj (Except.ok.inj happly)
          exact sameCall_updateWhere _ _ _ _ (fun _ _ _ => rfl)
  next => exact .refl _ _

/-- An operation about other calls. -/
theorem sameCall_apply (op : ModelCallOp) (db : Database) (hop : op.callId? ≠ some id) :
    SameCall id db (op.apply db) := by
  cases op with
  | reserve c limits now =>
      exact (sameCall_reserve db c limits now id).2 (fun h => hop (congrArg some h.symm))
  | start callId now => exact sameCall_start db callId now (fun h => hop (congrArg some h.symm))
  | fail callId uncertain errorType errorMessage now => exact sameCall_fail _ _ _ _ _ _ _
  | recover runId staleBefore now => exact sameCall_recover _ _ _ _ _
  | reconcile callId completionEventId usage cost now => exact sameCall_reconcile _ _ _ _ _ _ _
  | elsewhere db' => exact ⟨rfl, fun h => h⟩

/-- Others never touch a call of this agent. -/
theorem sameCall_others (h : OthersCall db db') (n : ℕ) : SameCall (uuid4 n) db db' := by
  induction h with
  | refl => exact .refl _ _
  | step _ hop ih => exact ih.trans (sameCall_apply _ _ (hop n))

end Database

/-! ### The account of a log -/

/-- A request with a started attempt and no response. -/
structure Dangling (w : GovernedWorld) (e : Event) : Prop where
  mem : e ∈ w.loop.log
  requested : e.type = "model.requested"
  attempted : 0 < w.db.attemptsOf e.id
  unanswered : lastOfType (turnEvents w.loop.log e.turn) "model.completed" = none

/-- The next run of the loop resumes with the request. -/
structure Resumed (log : List Event) (e : Event) : Prop where
  undecided : turnClosed log e.turn = false
  last : lastOfType (turnEvents log e.turn) "model.requested" = some e
  latest : ∀ t', recoverable log t' = true → t' ≠ e.turn → turnNumber t' < turnNumber e.turn

/-- No call of this agent has been made under an identifier it has not drawn. -/
def Unspent (w : GovernedWorld) : Prop :=
  ∀ n, w.loop.drawn ≤ n → w.db.modelCalls.lookup (uuid4 n) = none

/-- The log accounts for the table. -/
structure Accounted (w : GovernedWorld) : Prop where
  unspent : Unspent w
  resumed : ∀ e, Dangling w e → Resumed w.loop.log e

/-- A step that neither answers a request nor begins or sends an attempt. -/
structure Spares (w w' : GovernedWorld) : Prop where
  dangling : ∀ e, Dangling w' e ↔ Dangling w e
  resumed : ∀ e, Dangling w e → Resumed w.loop.log e → Resumed w'.loop.log e
  unspent : Unspent w → Unspent w'
  sent : w'.sent = w.sent

section account

variable {cfg : AgentConfig} {A : Authority} {w w' w'' : GovernedWorld} {e : Event} {log : List Event}
  {db : Database} {t : String}

theorem Spares.refl (w : GovernedWorld) : Spares w w := ⟨fun _ => .rfl, fun _ _ h => h, id, rfl⟩

theorem Spares.trans (h : Spares w w') (h' : Spares w' w'') : Spares w w'' where
  dangling e := (h'.dangling e).trans (h.dangling e)
  resumed e hd hr := h'.resumed e ((h.dangling e).mpr hd) (h.resumed e hd hr)
  unspent hu := h'.unspent (h.unspent hu)
  sent := h'.sent.trans h.sent

theorem Accounted.spares (h : Accounted w) (hs : Spares w w') : Accounted w' where
  unspent := hs.unspent h.unspent
  resumed e hd := by
    have hold := (hs.dangling e).mp hd
    exact hs.resumed e hold (h.resumed e hold)

/-- The next run finds the turn of the request. -/
theorem Resumed.recoverableTurn (h : Resumed log e) (hmem : e ∈ log)
    (hturn : (e.get? "turn_id").isSome) : recoverableTurn log = (e.turn, turnEvents log e.turn) := by
  refine recoverableTurn_eq (mem_turnIds.mpr ⟨e, hmem, hturn, rfl⟩) ?_ h.latest
  simp [recoverable, h.last, h.undecided]

theorem recoverable_append_of {t' : String} (hrec : recoverable (log ++ [e]) t' = true)
    (htype : e.type ∉ ["model.requested", "model.completed"]) : recoverable log t' = true := by
  simp only [List.mem_cons, List.not_mem_nil, or_false, not_or] at htype
  have hlast : ∀ type ∈ ["model.requested", "model.completed"],
      lastOfType (turnEvents (log ++ [e]) t') type = lastOfType (turnEvents log t') type := by
    intro type hmem
    rw [turnEvents_append]
    split
    · rw [lastOfType_append, if_neg]
      rintro rfl
      simp [htype.1, htype.2] at hmem
    · rfl
  unfold recoverable at hrec ⊢
  rw [hlast _ (by simp), hlast _ (by simp), turnClosed_append] at hrec
  simp only [Bool.and_eq_true, Bool.not_eq_true', Bool.or_eq_false_iff] at hrec ⊢
  exact ⟨hrec.1, hrec.2.1⟩

/-- One more event that is neither a request nor a response, in a turn with a response when it
closes its turn. -/
theorem Resumed.append {a : Event} (h : Resumed log e)
    (htype : a.type ∉ ["model.requested", "model.completed"])
    (hclosing : a.type ∈ turnCompletedEvents → a.turn ≠ e.turn) : Resumed (log ++ [a]) e where
  undecided := by
    rw [turnClosed_append, h.undecided, Bool.false_or, decide_eq_false_iff_not]
    exact fun hc => hclosing hc.2 hc.1
  last := by
    rw [turnEvents_append]
    split
    · rw [lastOfType_append, if_neg, h.last]
      intro hc
      simp [hc] at htype
    · exact h.last
  latest t' hrec := h.latest t' (recoverable_append_of hrec htype)

/-- The responses of a turn after an event that is none. -/
theorem completed_append {a : Event} (htype : a.type ≠ "model.completed") (log : List Event) (t : String) :
    lastOfType (turnEvents (log ++ [a]) t) "model.completed" =
      lastOfType (turnEvents log t) "model.completed" := by
  rw [turnEvents_append]
  split
  · rw [lastOfType_append, if_neg htype]
  · rfl

/-- The events of the loop are where they were. -/
theorem ForeignGrowth.mem_loop {log' : List Event} (h : ForeignGrowth log log') {a : Event}
    (ha : a ∈ log') (htype : a.type ∈ loopTypes) : a ∈ log := by
  induction h with
  | refl => exact ha
  | step _ he ih =>
      rcases List.mem_append.mp ha with ha | ha
      · exact ih ha
      · rw [List.mem_singleton.mp ha] at htype
        exact absurd htype he.1

theorem ForeignGrowth.completed {log' : List Event} (h : ForeignGrowth log log') (t : String) :
    lastOfType (turnEvents log' t) "model.completed" = lastOfType (turnEvents log t) "model.completed" := by
  induction h with
  | refl => rfl
  | step _ he ih => exact (completed_append (he.ne _ (by simp [loopTypes])) _ t).trans ih

theorem Foreign.deciding {a : Event} (h : Foreign log a) :
    a.type ∉ ["model.requested", "model.completed"] := by
  have hrequested := h.ne "model.requested" (by simp [loopTypes])
  have hcompleted := h.ne "model.completed" (by simp [loopTypes])
  simp [hrequested, hcompleted]

theorem Resumed.foreignGrowth {log' : List Event} (h : Resumed log e) (hgrow : ForeignGrowth log log') :
    Resumed log' e := by
  induction hgrow with
  | refl => exact h
  | step _ he ih => exact ih.append he.deciding (fun hc => absurd hc he.not_closing)

/-- The requests of a loop have the identifiers it has drawn. -/
theorem LoopOk.identified (h : LoopOk cfg w.loop) {a : Event} (ha : a ∈ w.loop.log)
    (htype : a.type ∈ loopTypes) : ∃ m < w.loop.drawn, a.id = uuid4 m := by
  obtain ⟨t, v, hat⟩ := h
  exact hat.once.identified a ha htype

theorem LoopOk.eq_of_id (h : LoopOk cfg w.loop) {a b : Event} (ha : a ∈ w.loop.log)
    (hb : b ∈ w.loop.log) (hatype : a.type ∈ loopTypes) (hbtype : b.type ∈ loopTypes)
    (hid : a.id = b.id) : a = b := by
  obtain ⟨t, v, hat⟩ := h
  exact List.inj_on_of_nodup_map hat.once.distinct (by simpa using ⟨ha, hatype⟩)
    (by simpa using ⟨hb, hbtype⟩) hid

/-- The events of others change no attempt of this agent, nor the log it works on. -/
theorem spares_others (hok : LoopOk cfg w.loop) (hgrow : ForeignGrowth w.loop.log log)
    (hdb : ∀ n, Database.SameCall (uuid4 n) w.db db) (hloop : w'.loop = { w.loop with log := log })
    (hdb' : w'.db = db) (hsent : w'.sent = w.sent) : Spares w w' where
  dangling e := by
    constructor
    · rintro ⟨hmem, htype, hattempted, hnone⟩
      rw [hloop] at hmem hnone
      have hmem := hgrow.mem_loop hmem (by simp [htype, loopTypes])
      obtain ⟨m, _, hid⟩ := hok.identified hmem (by simp [htype, loopTypes])
      rw [hdb', hid, (hdb m).1, ← hid] at hattempted
      exact ⟨hmem, htype, hattempted, (hgrow.completed _).symm.trans hnone⟩
    · rintro ⟨hmem, htype, hattempted, hnone⟩
      obtain ⟨m, _, hid⟩ := hok.identified hmem (by simp [htype, loopTypes])
      rw [hid, ← (hdb m).1, ← hid, ← hdb'] at hattempted
      refine ⟨?_, htype, hattempted, ?_⟩
      · rw [hloop]
        exact hgrow.mem hmem
      · rw [hloop]
        exact (hgrow.completed _).trans hnone
  resumed e _ hr := by
    rw [hloop]
    exact hr.foreignGrowth hgrow
  unspent hu n hn := by
    rw [hloop] at hn
    rw [hdb']
    exact (hdb n).2 (hu n hn)
  sent := hsent

/-! ### Steps of the authority -/

theorem GovernedWorld.Commits.cases {α : Type} {result : Except StoreError (α × Database)}
    {r : Except StoreError α} (h : w.Commits result r w') :
    (∃ a, result = .ok (a, w'.db)) ∨ (∃ e, result = .error e) ∧ w'.db = w.db := by
  unfold GovernedWorld.Commits at h
  split at h
  next a db =>
    rw [h.2]
    exact .inl ⟨a, rfl⟩
  next e =>
    rw [h.2]
    exact .inr ⟨⟨e, rfl⟩, rfl⟩

theorem GovernedWorld.Commits.sent_eq {α : Type} {result : Except StoreError (α × Database)}
    {r : Except StoreError α} (h : w.Commits result r w') : w'.sent = w.sent := by
  unfold GovernedWorld.Commits at h
  split at h <;> rw [h.2]

/-- The authority touches no other call than the one it makes. -/
theorem outside_sameCall {call : Option String} {op : GovernedOp} (hop : op.Outside call)
    {r : governedInterface.Reply op} (hact : governedAct cfg w op r w') {id : String}
    (hne : call ≠ some id) : Database.SameCall id w.db w'.db := by
  cases op with
  | loop op => exact hop.elim
  | recoverStale runId staleBefore =>
      obtain ⟨now, hcommits⟩ := hact
      have hsame := Database.sameCall_recover w.db runId staleBefore now id
      rcases hcommits.cases with ⟨a, hok⟩ | ⟨⟨e, herr⟩, hdb⟩
      · rwa [ModelCallOp.apply, hok] at hsame
      · rw [hdb]
        exact .refl _ _
  | reserve c limits =>
      obtain ⟨now, hcommits⟩ := hact
      have hsame := (Database.sameCall_reserve w.db c limits now id).2 (by rintro rfl; exact hne hop)
      rcases hcommits.cases with ⟨a, hok⟩ | ⟨⟨e, herr⟩, hdb⟩
      · rwa [ModelCallOp.apply, hok] at hsame
      · rw [hdb]
        exact .refl _ _
  | startAttempt callId =>
      obtain ⟨now, hcommits⟩ := hact
      have hsame : Database.SameCall id w.db _ :=
        Database.sameCall_start w.db callId now (by rintro rfl; exact hne hop)
      rcases hcommits.cases with ⟨a, hok⟩ | ⟨⟨e, herr⟩, hdb⟩
      · rwa [ModelCallOp.apply, hok] at hsame
      · rw [hdb]
        exact .refl _ _
  | failCall callId uncertain errorType errorMessage =>
      obtain ⟨now, hcommits⟩ := hact
      have hsame := Database.sameCall_fail w.db callId uncertain errorType errorMessage now id
      rcases hcommits.cases with ⟨a, hok⟩ | ⟨⟨e, herr⟩, hdb⟩
      · cases hfail : w.db.failModelCall callId uncertain errorType errorMessage now with
        | error e =>
            rw [hfail] at hok
            cases hok
        | ok db =>
            rw [hfail] at hok
            rw [ModelCallOp.apply, hfail] at hsame
            exact (Prod.mk.inj (Except.ok.inj hok)).2 ▸ hsame
      · rw [hdb]
        exact .refl _ _
  | reconcileCall callId completionEventId usage cost =>
      obtain ⟨now, hcommits⟩ := hact
      have hsame := Database.sameCall_reconcile w.db callId completionEventId usage cost now id
      rcases hcommits.cases with ⟨a, hok⟩ | ⟨⟨e, herr⟩, hdb⟩
      · rwa [ModelCallOp.apply, hok] at hsame
      · rw [hdb]
        exact .refl _ _
  | record identity key type payload =>
      obtain ⟨now, ⟨rfl, _⟩ | ⟨_, _, rfl⟩⟩ := hact
      · exact .refl _ _
      · exact .refl _ _
  | projectRun runId => exact hact.2 ▸ .refl _ _
  | modelCall callId => exact hact.2 ▸ .refl _ _
  | provide request => exact (show w' = _ from hact) ▸ .refl _ _
  | now => exact (show w' = _ from hact) ▸ .refl _ _
  | beforeReserve => exact (show w' = _ from hact) ▸ .refl _ _
  | sleep index => exact (show w' = _ from hact) ▸ .refl _ _

/-- The authority sends nothing but the call it makes. -/
theorem outside_sent {op : GovernedOp} (hop : op.Outside none) {r : governedInterface.Reply op}
    (hact : governedAct cfg w op r w') : w'.sent = w.sent := by
  cases op with
  | loop op => exact hop.elim
  | reserve c limits => cases hop
  | startAttempt callId => cases hop
  | provide request => cases hop
  | recoverStale runId staleBefore =>
      obtain ⟨now, hcommits⟩ := hact
      exact hcommits.sent_eq
  | failCall callId uncertain errorType errorMessage =>
      obtain ⟨now, hcommits⟩ := hact
      exact hcommits.sent_eq
  | reconcileCall callId completionEventId usage cost =>
      obtain ⟨now, hcommits⟩ := hact
      exact hcommits.sent_eq
  | record identity key type payload =>
      obtain ⟨now, ⟨rfl, _⟩ | ⟨_, _, rfl⟩⟩ := hact <;> rfl
  | projectRun runId => rw [hact.2]
  | modelCall callId => rw [hact.2]
  | now => rw [show w' = _ from hact]
  | beforeReserve => rw [show w' = _ from hact]
  | sleep index => rw [show w' = _ from hact]

/-- What the authority writes without making a call. -/
theorem spares_outside {op : GovernedOp} (hop : op.Outside none) (hok : LoopOk cfg w.loop)
    {r : governedInterface.Reply op} (hs : governedStep cfg w op r w') : Spares w w' := by
  obtain ⟨log, hgrow, hloop⟩ := outside_grows hop hs
  obtain ⟨log', db, hgrow', hothers, hact⟩ := hs
  have hdb : ∀ n, Database.SameCall (uuid4 n) w.db w'.db := fun n =>
    (Database.sameCall_others hothers n).trans (outside_sameCall hop hact (by simp))
  have hsent := outside_sent hop hact
  exact spares_others hok hgrow hdb hloop rfl hsent

/-! ### Steps of the loop -/

/-- One more event that is neither a request nor a response. -/
theorem spares_append {a : Event} (htype : Deciding a.type)
    (hclosing : a.type ∈ turnCompletedEvents →
      lastOfType (turnEvents w.loop.log a.turn) "model.completed" ≠ none)
    (hloop : w'.loop.log = w.loop.log ++ [a]) (hdrawn : w.loop.drawn ≤ w'.loop.drawn)
    (hdb : w'.db = w.db) (hsent : w'.sent = w.sent) : Spares w w' := by
  have hcompleted : ∀ t, lastOfType (turnEvents w'.loop.log t) "model.completed" =
      lastOfType (turnEvents w.loop.log t) "model.completed" := by
    intro t
    rw [hloop]
    exact completed_append (fun h => htype (by simp [h])) _ t
  refine ⟨fun e => ⟨?_, ?_⟩, ?_, ?_, hsent⟩
  · rintro ⟨hmem, hreq, hattempted, hnone⟩
    rw [hcompleted] at hnone
    rw [hdb] at hattempted
    rw [hloop] at hmem
    rcases List.mem_append.mp hmem with hmem | hmem
    · exact ⟨hmem, hreq, hattempted, hnone⟩
    · rw [List.mem_singleton.mp hmem] at hreq
      exact absurd (by simp [hreq]) htype
  · rintro ⟨hmem, hreq, hattempted, hnone⟩
    refine ⟨?_, hreq, hdb ▸ hattempted, (hcompleted _).trans hnone⟩
    rw [hloop]
    exact List.mem_append_left _ hmem
  · intro e hd hr
    rw [hloop]
    exact hr.append htype (fun hc heq => hclosing hc (heq ▸ hd.unanswered))
  · intro hu n hn
    rw [hdb]
    exact hu n (hdrawn.trans hn)

/-- The log after a step that stays in a turn. -/
theorem within_cases {T : String → Prop} {op : LoopOp} (hop : op.Within T t)
    {r : loopInterface.Reply op} {w' : LoopWorld} {w : LoopWorld} (hact : loopAct cfg w op r w') :
    (w'.log = w.log ∧ w'.drawn = w.drawn) ∨
      ∃ a, T a.type ∧ a.turn = t ∧ w'.log = w.log ++ [a] ∧ w'.drawn = w.drawn + 1 := by
  cases op with
  | append type payload cause =>
      obtain ⟨now, hact⟩ := hact
      unfold LoopWorld.appended at hact
      split at hact
      next identity _ =>
        obtain ⟨_, rfl⟩ := Prod.mk.inj hact
        refine .inr ⟨_, hop.1, ?_, rfl, rfl⟩
        simp [LoopWorld.newEvent, Event.turn, Dict.getD, hop.2]
      next =>
        obtain ⟨_, rfl⟩ := Prod.mk.inj hact
        exact .inl ⟨rfl, rfl⟩
  | recoverUnresolved request => exact hop.elim
  | complete request => exact hop.elim
  | events => exact hact.2 ▸ .inl ⟨rfl, rfl⟩
  | pipeline op =>
      obtain ⟨pipe, _, rfl⟩ := hact
      exact .inl ⟨rfl, rfl⟩
  | drawOperationId => exact hact.2 ▸ .inl ⟨rfl, rfl⟩
  | compileCapabilities turnId => exact (show w' = _ from hact) ▸ .inl ⟨rfl, rfl⟩
  | buildMessages capability => exact (show w' = _ from hact) ▸ .inl ⟨rfl, rfl⟩
  | reconcile request completion => exact (show w' = _ from hact) ▸ .inl ⟨rfl, rfl⟩
  | callTool call => exact (show w' = _ from hact) ▸ .inl ⟨rfl, rfl⟩
  | evaluateGate output evidence pending => exact (show w' = _ from hact) ▸ .inl ⟨rfl, rfl⟩
  | writeArtifact artifact summary => exact (show w' = _ from hact) ▸ .inl ⟨rfl, rfl⟩
  | handleMessage action turnId => exact (show w' = _ from hact) ▸ .inl ⟨rfl, rfl⟩

/-- What the events of others and those of some types in a turn leave true of a log. -/
def Lasting (T : String → Prop) (t : String) (P : List Event → Prop) : Prop :=
  ∀ log a, P log → Foreign log a ∨ (T a.type ∧ a.turn = t) → P (log ++ [a])

theorem Lasting.foreignGrowth {T : String → Prop} {P : List Event → Prop} (h : Lasting T t P)
    (hgrow : ForeignGrowth w.loop.log log) (hP : P w.loop.log) : P log := by
  induction hgrow with
  | refl => exact hP
  | step _ he ih => exact h _ _ ih (.inl he)

/-- The types are those of events that decide nothing about requests, and only a turn with a
response is closed. -/
def Neutral (T : String → Prop) (t : String) (log : List Event) : Prop :=
  ∀ type, T type → Deciding type ∧
    (type ∈ turnCompletedEvents → lastOfType (turnEvents log t) "model.completed" ≠ none)

/-- A step that stays in a turn. -/
theorem spares_within {T : String → Prop} {P : List Event → Prop} (hlasting : Lasting T t P)
    (hneutral : ∀ log, P log → Neutral T t log) {op : LoopOp} (hop : op.Within T t)
    (hok : LoopOk cfg w.loop) {r : loopInterface.Reply op}
    (hs : governedStep cfg w (.loop op) r w') (hP : P w.loop.log) :
    Spares w w' ∧ P w'.loop.log := by
  obtain ⟨log, db, hgrow, hothers, loop, hact, rfl⟩ := hs
  have hP₁ := hlasting.foreignGrowth hgrow hP
  have hspares : Spares w { w with loop := { w.loop with log := log }, db := db } :=
    spares_others hok hgrow (Database.sameCall_others hothers) rfl rfl rfl
  rcases within_cases hop hact with ⟨hlog, hdrawn⟩ | ⟨a, htype, hturn, hlog, hdrawn⟩
  · have hsame : Spares { w with loop := { w.loop with log := log }, db := db }
        { w with loop := loop, db := db } := by
      refine ⟨fun e => ⟨?_, ?_⟩, ?_, ?_, rfl⟩
      · rintro ⟨hmem, hreq, hattempted, hnone⟩
        exact ⟨hlog ▸ hmem, hreq, hattempted, hlog ▸ hnone⟩
      · rintro ⟨hmem, hreq, hattempted, hnone⟩
        exact ⟨hlog.symm ▸ hmem, hreq, hattempted, hlog.symm ▸ hnone⟩
      · intro e _ hr
        exact hlog.symm ▸ hr
      · intro hu n hn
        exact hu n (hdrawn ▸ hn)
    exact ⟨hspares.trans hsame, hlog.symm ▸ hP₁⟩
  · obtain ⟨hdeciding, hclosing⟩ := hneutral log hP₁ a.type htype
    refine ⟨hspares.trans (spares_append hdeciding ?_ hlog (by simp [hdrawn]) rfl rfl), ?_⟩
    · rw [hturn]
      exact hclosing
    · rw [show ({ w with loop := loop, db := db } : GovernedWorld).loop.log = log ++ [a] from hlog]
      exact hlasting log a hP₁ (.inr ⟨htype, hturn⟩)

end account

end CrazyHarness
