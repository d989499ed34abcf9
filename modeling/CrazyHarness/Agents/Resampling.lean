import CrazyHarness.Agents.ModelAccounts
import CrazyHarness.Agents.Recovery

/-! # No response is sampled twice

A run of the governed loop keeps `Accounted` (`tracks_runOnce`): it begins a new turn only after
`recover_unresolved` has found nothing dangling, and from its response on a turn touches no request.
Where a request is dangling, `recover_unresolved` ends the run, so from there on no run asks the
provider again (`sent_of_continues`). -/

namespace CrazyHarness

open Lib Program LoopM

/-! ### Code of the governed loop -/

/-- A step of the governed loop between states of which the invariant of the loop is known. -/
def knownStep (cfg : AgentConfig) (w : GovernedWorld) (op : GovernedOp)
    (r : governedInterface.Reply op) (w' : GovernedWorld) : Prop :=
  governedStep cfg w op r w' ∧ LoopOk cfg w.loop ∧ LoopOk cfg w'.loop

/-- The log accounts for the table; unless `B` a request is dangling and nothing has been sent since
`sent`. -/
def HeldBack (B : Prop) (sent : List String) (w : GovernedWorld) : Prop :=
  Accounted w ∧ (B ∨ w.sent = sent ∧ ∃ e, Dangling w e)

/-- The code keeps the account, and its value has `Q`. -/
def Tracks {α : Type} (cfg : AgentConfig) (A : Authority) (B : Prop) (sent : List String)
    (Q : α → GovernedWorld → Prop) (p : LoopM α) (w : GovernedWorld) : Prop :=
  Program.Safe (knownStep cfg) (fun w (_ : Unit) => HeldBack B sent w) Eq (fun _ _ => True)
    (fun rs w' _ => ∀ a, rs.1 = .ok a → Q a w')
    (Program.interpret (fun op s => (governed cfg A op).bind (fun r => .done (r, s))) p ()) w ()

section tracks

variable {α β : Type} {cfg : AgentConfig} {A : Authority} {B : Prop} {sent : List String}
  {w w' : GovernedWorld} {T : String → Prop} {t : String} {P : List Event → Prop}

theorem HeldBack.spares (h : HeldBack B sent w) (hs : Spares w w') : HeldBack B sent w' := by
  refine ⟨h.1.spares hs, h.2.imp id ?_⟩
  rintro ⟨hsent, e, hd⟩
  exact ⟨hs.sent.trans hsent, e, (hs.dangling e).mpr hd⟩

theorem tracks_pure {Q : α → GovernedWorld → Prop} {a : α} (h : Q a w) :
    Tracks cfg A B sent Q (pure a) w := by
  rintro _ ⟨⟩
  exact h

theorem tracks_throw {Q : α → GovernedWorld → Prop} (e : LoopError) :
    Tracks cfg A B sent Q (throw e) w := by
  rintro _ ⟨⟩

theorem tracks_bind {Q : α → GovernedWorld → Prop} {Q' : β → GovernedWorld → Prop} {p : LoopM α}
    {f : α → LoopM β} (h : Tracks cfg A B sent Q p w)
    (hf : ∀ a w', Q a w' → Tracks cfg A B sent Q' (f a) w') :
    Tracks cfg A B sent Q' (p >>= f) w := by
  show Program.Safe _ _ _ _ _ (Program.interpret _ (Program.bind p (ExceptT.bindCont f)) ()) w ()
  rw [interpret_bind]
  refine safe_bind h ?_
  rintro ⟨r, s⟩ w' _ hr
  cases r with
  | ok a => exact hf a w' (hr a rfl)
  | error e => exact fun _ h => by cases h

theorem Tracks.weaken {Q Q' : α → GovernedWorld → Prop} {p : LoopM α} (h : Tracks cfg A B sent Q p w)
    (hQ : ∀ a w', Q a w' → Q' a w') : Tracks cfg A B sent Q' p w :=
  Safe.weaken h (fun _ w' _ hr a ha => hQ a w' (hr a ha))

/-- What the authority does without making a call. -/
theorem safe_settling {p : AuthorityM α} (h : Only none p) {P' : GovernedWorld → Prop} (hP : P' w)
    (hstep : ∀ w₁ w₂, P' w₁ → Spares w₁ w₂ → w₁.loop.Grows w₂.loop → P' w₂) :
    Program.Safe (knownStep cfg) (fun w (_ : Unit) => HeldBack B sent w) Eq (fun _ _ => True)
      (fun _ w' _ => P' w') p w () := by
  refine Safe.weaken (Asks.safe_along h (fun _ _ _ _ _ => trivial) hP ?_) (fun _ _ _ hr => hr.2)
  intro w₁ _ op r w₂ hP₁ hheld hop hs
  have hspares := spares_outside hop hs.2.1 hs.1
  exact ⟨hstep w₁ w₂ hP₁ hspares (outside_grows hop hs.1), hheld.spares hspares, trivial⟩

theorem Lasting.grows (h : Lasting T t P) {w₁ w₂ : GovernedWorld} (hP : P w₁.loop.log)
    (hgrows : w₁.loop.Grows w₂.loop) : P w₂.loop.log := by
  obtain ⟨log, hgrow, hloop⟩ := hgrows
  rw [hloop]
  exact h.foreignGrowth hgrow hP

/-- One step that stays in a turn. -/
theorem safe_within {w₀ : GovernedWorld} (hlasting : Lasting T t P)
    (hneutral : ∀ log, P log → Neutral T t log) {op : LoopOp} (hop : op.Within T t)
    (hw : P w.loop.log ∧ Spares w₀ w) :
    Program.Safe (knownStep cfg) (fun w (_ : Unit) => HeldBack B sent w) Eq (fun _ _ => True)
      (fun _ w' _ => P w'.loop.log ∧ Spares w₀ w') (governed cfg A op) w () := by
  have hdirect : Program.Safe (knownStep cfg) (fun w (_ : Unit) => HeldBack B sent w) Eq
      (fun _ _ => True) (fun _ w' _ => P w'.loop.log ∧ Spares w₀ w') (AuthorityM.ask (.loop op)) w () := by
    rintro w₁ R r w₂ rfl hheld hs
    obtain ⟨hspares, hP⟩ := spares_within hlasting hneutral hop hs.2.1 hs.1 hw.1
    exact ⟨(), hheld.spares hspares, trivial, safe_done ⟨hP, hw.2.trans hspares⟩⟩
  cases op with
  | recoverUnresolved request => exact hop.elim
  | complete request => exact hop.elim
  | reconcile request completion =>
      have honly : Only none (CrazyHarness.reconcile request completion) := only_reconcile completion
      have hsettling : Program.Safe (knownStep cfg) (fun w (_ : Unit) => HeldBack B sent w) Eq
          (fun _ _ => True) (fun _ w' _ => (fun w' : GovernedWorld => P w'.loop.log ∧ Spares w₀ w') w')
          (CrazyHarness.reconcile request completion) w () := by
        refine safe_settling honly hw ?_
        intro w₁ w₂ hw₁ hspares hgrows
        exact ⟨hlasting.grows hw₁.1 hgrows, hw₁.2.trans hspares⟩
      refine safe_bind hsettling ?_
      rintro (e | a) w₁ _ hw₁
      · exact safe_done hw₁
      · exact safe_done hw₁
  | _ => exact hdirect

/-- **Code that stays in a turn** changes nothing the table has to account for. -/
theorem tracks_stays {p : LoopM α} (h : Stays T t p) (hlasting : Lasting T t P)
    (hneutral : ∀ log, P log → Neutral T t log) (hP : P w.loop.log) :
    Tracks cfg A B sent (fun _ w' => P w'.loop.log ∧ Spares w w') p w := by
  have hhandler : ∀ (op : LoopOp) (s : Unit) (w₁ : GovernedWorld) (m : Unit), op.Within T t →
      P w₁.loop.log ∧ Spares w w₁ →
      Program.Safe (knownStep cfg) (fun w (_ : Unit) => HeldBack B sent w) Eq (fun _ _ => True)
        (fun _ w' _ => P w'.loop.log ∧ Spares w w')
        ((governed cfg A op).bind (fun r => .done (r, s))) w₁ m := by
    intro op s w₁ _ hop hw₁
    exact safe_bind (safe_within hlasting hneutral hop hw₁) (fun _ _ _ hr => safe_done hr)
  have hsafe := Asks.safe_interpret h hhandler (t := ()) (m := ()) ⟨hP, .refl w⟩
  exact Safe.weaken hsafe (fun _ _ _ hr _ _ => hr.2)

/-- One step and what follows. -/
theorem tracks_step {op : LoopOp} {f : loopInterface.Reply op → LoopM β} {Q : β → GovernedWorld → Prop}
    (h : Program.Safe (knownStep cfg) (fun w (_ : Unit) => HeldBack B sent w) Eq (fun _ _ => True)
      (fun r w' _ => Tracks cfg A B sent Q (f r) w') (governed cfg A op) w ()) :
    Tracks cfg A B sent Q ((ask op).bind f) w := by
  have hone : Program.Safe (knownStep cfg) (fun w (_ : Unit) => HeldBack B sent w) Eq (fun _ _ => True)
      (fun rs w' _ => Tracks cfg A B sent Q (f rs.1) w')
      ((governed cfg A op).bind (fun r => .done (r, ()))) w () :=
    safe_bind h (fun _ _ _ hr => safe_done hr)
  refine safe_bind hone ?_
  rintro ⟨r, s⟩ w' _ hr
  exact hr

/-- The log as the loop reads it. -/
theorem tracks_events : Tracks cfg A B sent (fun es w' => es = w'.loop.log ∧ LoopOk cfg w'.loop ∧
    HeldBack B sent w' ∧ Spares w w') events w := by
  refine tracks_step ?_
  rintro w₁ R r w₂ rfl hheld ⟨⟨log, db, hgrow, hothers, loop, ⟨hr, hloop⟩, rfl⟩, hok, hok'⟩
  have hspares : Spares w { w with loop := loop, db := db } := by
    refine spares_others hok hgrow (Database.sameCall_others hothers) hloop rfl rfl
  have hheld' := hheld.spares hspares
  refine ⟨(), hheld', trivial, safe_done (tracks_pure ⟨?_, hok', hheld', hspares⟩)⟩
  rw [hr, hloop]

/-! ### Parts of a run -/

/-- The turn has a response. -/
def Answered (t : String) (log : List Event) : Prop :=
  lastOfType (turnEvents log t) "model.completed" ≠ none

theorem lasting_answered (T : String → Prop) (t : String) : Lasting T t (Answered t) := by
  intro log a h _
  unfold Answered at *
  rw [turnEvents_append]
  split
  · rw [lastOfType_append]
    split
    · simp
    · exact h
  · exact h

/-- **From its response on a turn** is of no importance. -/
theorem tracks_answered {p : LoopM α} (h : Stays Deciding t p) (ht : Answered t w.loop.log) :
    Tracks cfg A B sent (fun _ _ => True) p w :=
  (tracks_stays h (lasting_answered _ t) (fun _ hP _ htype => ⟨htype, fun _ => hP⟩) ht).weaken
    (fun _ _ _ => trivial)

/-- An operation has started in a turn with a response. -/
theorem answered_of_unresolved (hok : LoopOk cfg w.loop) {u : Event}
    (hu : unresolvedOperation w.loop.log = some u) : Answered u.turn w.loop.log := by
  obtain ⟨t, v, hat⟩ := hok
  have hpending : v.pending = some u := hat.current.pending_eq.symm.trans hu
  obtain ⟨hturn, _, hcommand, _⟩ := hat.current.pending u hpending
  rw [← hat.current.view] at hcommand
  obtain ⟨r, hr, _⟩ := hat.current.commanded t hcommand
  rw [Answered, hturn, hr]
  simp

/-- What a new turn needs to be the one resumed. -/
structure Opening (t : String) (log : List Event) : Prop where
  undecided : turnClosed log t = false
  latest : ∀ t', recoverable log t' = true → t' ≠ t → turnNumber t' < turnNumber t

/-- The types of the events before the request of a turn. -/
def Preparing (type : String) : Prop :=
  type ∈ ["loop.phase.changed", "capability.manifest.compiled", "context.manifest.compiled"]

instance : DecidablePred Preparing := fun type => inferInstanceAs (Decidable (type ∈ _))

theorem Preparing.neutral (t : String) (log : List Event) : Neutral Preparing t log := by
  intro type htype
  simp only [Preparing, List.mem_cons, List.not_mem_nil, or_false] at htype
  rcases htype with rfl | rfl | rfl <;> exact ⟨by decide, fun h => absurd h (by decide)⟩

/-- An event that closes no turn and is neither a request nor a response of another one. -/
theorem Opening.append {log : List Event} {a : Event} (h : Opening t log)
    (htype : a.turn ≠ t → a.type ∉ ["model.requested", "model.completed"])
    (hclosing : a.type ∉ turnCompletedEvents) : Opening t (log ++ [a]) where
  undecided := by
    rw [turnClosed_append, h.undecided, decide_eq_false (fun hc => hclosing hc.2), Bool.or_false]
  latest t' hrec hne := by
    refine h.latest t' ?_ hne
    by_cases hturn : a.turn = t
    · have hother : a.turn ≠ t' := fun heq => hne (heq.symm.trans hturn)
      unfold recoverable at hrec ⊢
      rwa [turnEvents_append, if_neg hother, turnClosed_append,
        decide_eq_false (fun hc => hother hc.1), Bool.or_false] at hrec
    · exact recoverable_append_of hrec (htype hturn)

theorem lasting_opening : Lasting Preparing t (Opening t) := by
  rintro log a h (hforeign | ⟨htype, _⟩)
  · exact h.append (fun _ => hforeign.deciding) hforeign.not_closing
  · obtain ⟨hdeciding, hclosing⟩ := Preparing.neutral t [] a.type htype
    refine h.append (fun _ => hdeciding) (fun hc => ?_)
    exact hclosing hc rfl

/-- The turn after all turns of the log. -/
theorem opening_nextTurnId (hok : LoopOk cfg w.loop) :
    Opening (nextTurnId w.loop.log) w.loop.log := by
  obtain ⟨t, v, hat⟩ := hok
  have hlater : NoLater w.loop.log (nextTurnId w.loop.log) := fun a ha htype =>
    lt_nextTurnId ha (hat.current.numbered a ha htype).1
  refine ⟨hlater.any_eq_false ?_, ?_⟩
  · intro a ha
    exact List.mem_append_left _ (by simpa using ha)
  · intro t' hrec _
    have hfound : ∀ type ∈ ["model.requested", "model.completed"],
        (lastOfType (turnEvents w.loop.log t') type).isSome →
          turnNumber t' < turnNumber (nextTurnId w.loop.log) := by
      intro type hmem hsome
      obtain ⟨a, ha⟩ := Option.isSome_iff_exists.mp hsome
      obtain ⟨hmem', htype, rfl⟩ := mem_of_lastOfType ha
      refine hlater a hmem' ?_
      simp only [List.mem_cons, List.not_mem_nil, or_false] at hmem
      rcases hmem with rfl | rfl <;> simp [htype, loopTypes]
    simp only [recoverable, Bool.and_eq_true, Bool.or_eq_true] at hrec
    rcases hrec.1 with hrequested | hcompleted
    · exact hfound _ (by simp) hrequested
    · exact hfound _ (by simp) hcompleted

/-! ### A new request -/

/-- Nothing is dangling. -/
def NothingDangling (w : GovernedWorld) : Prop := ∀ e, ¬ Dangling w e

theorem NothingDangling.spares (h : NothingDangling w) (hs : Spares w w') : NothingDangling w' :=
  fun e hd => h e ((hs.dangling e).mp hd)

/-- Only the request of the newest turn may be dangling. -/
structure Asked (r : Event) (w : GovernedWorld) : Prop where
  mem : r ∈ w.loop.log
  requested : r.type = "model.requested"
  only : ∀ e, Dangling w e → e = r
  opening : Opening r.turn w.loop.log
  last : lastOfType (turnEvents w.loop.log r.turn) "model.requested" = some r

theorem HeldBack.quiet (h : HeldBack B sent w) (hquiet : NothingDangling w) : B := by
  rcases h.2 with hB | ⟨_, e, hd⟩
  · exact hB
  · exact absurd hd (hquiet e)

/-- The request of a new turn has not been sent yet. -/
theorem tracks_request {payload : Dict} {cause : Option String} (hquiet : NothingDangling w)
    (hopening : Opening t w.loop.log) (hturn : payload.get? "turn_id" = some (.str t)) :
    Tracks cfg A B sent (fun r w' => Asked r w' ∧ r.turn = t ∧ NothingDangling w')
      (append "model.requested" payload cause) w := by
  refine tracks_step ?_
  rintro w₁ R r w₂ rfl hheld ⟨⟨log, db, hgrow, hothers, loop, ⟨now, hact⟩, rfl⟩, hok, hok'⟩
  have hspares : Spares w { w with loop := { w.loop with log := log }, db := db } :=
    spares_others hok hgrow (Database.sameCall_others hothers) rfl rfl rfl
  have hheld₁ := hheld.spares hspares
  have hquiet₁ := hquiet.spares hspares
  have hopening₁ := lasting_opening.foreignGrowth hgrow hopening
  have hB := hheld.quiet hquiet
  unfold LoopWorld.appended at hact
  split at hact
  next identity _ =>
    obtain ⟨rfl, rfl⟩ := Prod.mk.inj hact
    set e := LoopWorld.newEvent { w.loop with log := log } cfg identity "model.requested" payload
      cause now with he
    have het : e.turn = t := by simp [he, LoopWorld.newEvent, Event.turn, Dict.getD, hturn]
    have hnone : db.modelCalls.lookup e.id = none := hheld₁.1.unspent w.loop.drawn (le_refl _)
    have hquiet₂ : NothingDangling { w with
        loop := LoopWorld.wrote { w.loop with log := log } e, db := db } := by
      rintro a ⟨hmem, hreq, hattempted, hunanswered⟩
      rcases List.mem_append.mp hmem with hmem | hmem
      · refine hquiet₁ a ⟨hmem, hreq, hattempted, ?_⟩
        exact (completed_append (by simp [he, LoopWorld.newEvent]) log a.turn).symm.trans hunanswered
      · -- no attempt has been made under a new identifier
        rw [List.mem_singleton.mp hmem] at hattempted
        simp [Database.attemptsOf, hnone] at hattempted
    have hunspent : Unspent { w with
        loop := LoopWorld.wrote { w.loop with log := log } e, db := db } :=
      fun n hn => hheld₁.1.unspent n (by simp only [LoopWorld.wrote] at hn ⊢; omega)
    refine ⟨(), ⟨⟨hunspent, fun a hd => absurd hd (hquiet₂ a)⟩, .inl hB⟩, trivial, ?_⟩
    refine safe_done (tracks_pure ⟨⟨?_, rfl, fun a hd => absurd hd (hquiet₂ a), ?_, ?_⟩, het, hquiet₂⟩)
    · simp [LoopWorld.wrote]
    · rw [het]
      exact hopening₁.append (fun hne => absurd het hne) (by simp [he, LoopWorld.newEvent, turnCompletedEvents])
    · simp only [LoopWorld.wrote]
      rw [turnEvents_append, if_pos rfl, lastOfType_append, if_pos (by simp [he, LoopWorld.newEvent])]
  next =>
    obtain ⟨rfl, rfl⟩ := Prod.mk.inj hact
    exact ⟨(), hheld₁, trivial, safe_done (tracks_throw _)⟩

/-- A step of the authority for the request of the newest turn. -/
theorem Asked.outside {r : Event} (h : Asked r w) {op : GovernedOp} (hop : op.Outside (some r.id))
    {reply : governedInterface.Reply op} (hs : knownStep cfg w op reply w') (hB : B)
    (hheld : HeldBack B sent w) : Asked r w' ∧ HeldBack B sent w' := by
  obtain ⟨hstep, hok, hok'⟩ := hs
  obtain ⟨log, hgrow, hloop⟩ := outside_grows hop hstep
  obtain ⟨log', db, hgrow', hothers, hact⟩ := hstep
  have hlast : ∀ log, ForeignGrowth w.loop.log log →
      lastOfType (turnEvents log r.turn) "model.requested" = some r := by
    intro log hgrow
    induction hgrow with
    | refl => exact h.last
    | step _ he ih => exact (he.lastOfType (by simp [loopTypes]) r.turn).trans ih
  obtain ⟨m, hm, hid⟩ := hok.identified h.mem (by simp [h.requested, loopTypes])
  have hasked : Asked r w' := by
    refine ⟨?_, h.requested, ?_, ?_, ?_⟩
    · rw [hloop]
      exact hgrow.mem h.mem
    · intro e hd
      have hmem := hd.mem
      have hunanswered := hd.unanswered
      rw [hloop] at hmem hunanswered
      have hmem := hgrow.mem_loop hmem (by simp [hd.requested, loopTypes])
      obtain ⟨n, _, hn⟩ := hok.identified hmem (by simp [hd.requested, loopTypes])
      by_cases heq : e.id = r.id
      · exact hok.eq_of_id hmem h.mem (by simp [hd.requested, loopTypes])
          (by simp [h.requested, loopTypes]) heq
      · -- another call has not been touched
        have hsame := (Database.sameCall_others hothers n).trans
          (outside_sameCall hop hact (by rw [← hn]; simpa using fun hc => heq hc.symm))
        refine h.only e ⟨hmem, hd.requested, ?_, (hgrow.completed _).symm.trans hunanswered⟩
        have hattempted := hd.attempted
        rwa [hn, hsame.1, ← hn] at hattempted
    · rw [hloop]
      exact lasting_opening.foreignGrowth hgrow h.opening
    · rw [hloop]
      exact hlast log hgrow
  refine ⟨hasked, ⟨⟨?_, ?_⟩, .inl hB⟩⟩
  · intro n hn
    have hne : n ≠ m := by
      rw [hloop] at hn
      simp only at hn
      omega
    have hsame := (Database.sameCall_others hothers n).trans (outside_sameCall hop hact (by
      rw [hid]
      simpa using fun hc => hne (uuid4_inj hc).symm))
    refine hsame.2 (hheld.1.unspent n ?_)
    rw [hloop] at hn
    exact hn
  · intro e hd
    rw [hasked.only e hd]
    exact ⟨hasked.opening.undecided, hasked.last, hasked.opening.latest⟩

/-- The call of the authority for the request of the newest turn. -/
theorem tracks_complete {r : Event} (h : Asked r w) (hB : B) :
    Tracks cfg A B sent (fun _ w' => Asked r w') (calling (ask (.complete r))) w := by
  have honly : Only (some r.id) (if cfg.hasAuthority then A.complete r else provideFreely r) := by
    split
    · exact only_complete A
    · exact only_provideFreely
  have hsafe : Program.Safe (knownStep cfg) (fun w (_ : Unit) => HeldBack B sent w) Eq (fun _ _ => True)
      (fun _ w' _ => True ∧ Asked r w')
      (if cfg.hasAuthority then A.complete r else provideFreely r : AuthorityM ModelResponse) w () := by
    refine Asks.safe_along honly (fun _ _ _ _ _ => trivial) h ?_
    intro w₁ _ op reply w₂ hasked hheld hop hs
    obtain ⟨hasked', hheld'⟩ := hasked.outside hop hs hB hheld
    exact ⟨hasked', hheld', trivial⟩
  refine tracks_step (safe_bind hsafe ?_)
  rintro (e | response) w₁ _ ⟨_, hasked⟩
  · exact safe_done (tracks_throw _)
  · exact safe_done (tracks_pure hasked)

/-- The response answers the only request that may be dangling. -/
theorem tracks_response {r : Event} (h : Asked r w) (hB : B) {payload : Dict} {cause : Option String}
    (hturn : payload.get? "turn_id" = some (.str r.turn)) :
    Tracks cfg A B sent (fun _ w' => Answered r.turn w'.loop.log)
      (append "model.completed" payload cause) w := by
  refine tracks_step ?_
  rintro w₁ R reply w₂ rfl hheld ⟨⟨log, db, hgrow, hothers, loop, ⟨now, hact⟩, rfl⟩, hok, hok'⟩
  have hspares : Spares w { w with loop := { w.loop with log := log }, db := db } :=
    spares_others hok hgrow (Database.sameCall_others hothers) rfl rfl rfl
  have hheld₁ := hheld.spares hspares
  unfold LoopWorld.appended at hact
  split at hact
  next identity _ =>
    obtain ⟨rfl, rfl⟩ := Prod.mk.inj hact
    set e := LoopWorld.newEvent { w.loop with log := log } cfg identity "model.completed" payload
      cause now with he
    have het : e.turn = r.turn := by simp [he, LoopWorld.newEvent, Event.turn, Dict.getD, hturn]
    have hanswered : Answered r.turn (log ++ [e]) := by
      rw [Answered, turnEvents_append, if_pos het, lastOfType_append,
        if_pos (by simp [he, LoopWorld.newEvent])]
      simp
    have hquiet : NothingDangling { w with loop := LoopWorld.wrote { w.loop with log := log } e, db := db } := by
      rintro a ⟨hmem, hreq, hattempted, hunanswered⟩
      by_cases hsame : a.turn = r.turn
      · exact hanswered (hsame ▸ hunanswered)
      · rcases List.mem_append.mp hmem with hmem | hmem
        · -- any other request has been answered before
          refine hsame (congrArg Event.turn (h.only a ((hspares.dangling a).mp ?_)))
          refine ⟨hmem, hreq, hattempted, ?_⟩
          simp only [LoopWorld.wrote] at hunanswered
          rwa [turnEvents_append, if_neg (fun hc => hsame (hc.symm.trans het))] at hunanswered
        · rw [List.mem_singleton.mp hmem] at hsame
          exact hsame het
    have hunspent : Unspent { w with
        loop := LoopWorld.wrote { w.loop with log := log } e, db := db } :=
      fun n hn => hheld₁.1.unspent n (by simp only [LoopWorld.wrote] at hn ⊢; omega)
    exact ⟨(), ⟨⟨hunspent, fun a hd => absurd hd (hquiet a)⟩, .inl hB⟩, trivial,
      safe_done (tracks_pure hanswered)⟩
  next =>
    obtain ⟨rfl, rfl⟩ := Prod.mk.inj hact
    exact ⟨(), hheld₁, trivial, safe_done (tracks_throw _)⟩

/-- A step before the request of a new turn. -/
theorem tracks_preparing {p : LoopM α} (h : Stays Preparing t p)
    (hw : NothingDangling w ∧ Opening t w.loop.log) :
    Tracks cfg A B sent (fun _ w' => NothingDangling w' ∧ Opening t w'.loop.log) p w :=
  (tracks_stays h lasting_opening (fun log _ => Preparing.neutral t log) hw.2).weaken
    (fun _ _ hw' => ⟨hw.1.spares hw'.2, hw'.1⟩)

theorem stays_compileCapabilities (trigger : Option String) :
    Stays Preparing t (compileCapabilities cfg trigger t) := by
  unfold compileCapabilities
  split
  · refine stays_bind (stays_calling (stays_ask trivial)) (fun compiled => ?_)
    exact stays_bind (stays_append (by decide) (by simp) _) (fun _ => stays_pure _)
  · exact stays_pure _

theorem stays_recordContext (trigger : Option String) (capability : Option Event)
    (built : BuiltMessages) : Stays Preparing t (recordContext cfg trigger t capability built) := by
  unfold recordContext
  split
  · exact stays_bind (stays_append (by decide) (by simp) _) (fun _ => stays_pure _)
  · exact stays_pure _

/-- **The model call of a new turn** leaves it with a response. -/
theorem tracks_callModel (es : List Event) (hB : B) (hw : NothingDangling w ∧ Opening t w.loop.log) :
    Tracks cfg A B sent (fun _ w' => Answered t w'.loop.log) (callModel cfg es t) w := by
  refine tracks_bind (tracks_preparing (stays_phase (by decide) _) hw) (fun _ w₁ hw₁ => ?_)
  refine tracks_bind (tracks_preparing (stays_compileCapabilities _) hw₁) (fun capability w₂ hw₂ => ?_)
  refine tracks_bind (tracks_preparing (stays_calling (stays_ask trivial)) hw₂) (fun built w₃ hw₃ => ?_)
  refine tracks_bind (tracks_preparing (stays_recordContext _ _ _) hw₃) (fun context w₄ hw₄ => ?_)
  refine tracks_bind (tracks_preparing (stays_phase (by decide) _) hw₄) (fun _ w₅ hw₅ => ?_)
  refine tracks_bind (tracks_request hw₅.1 hw₅.2 (by simp)) ?_
  rintro requested w₆ ⟨hasked, rfl, _⟩
  refine tracks_bind (tracks_complete hasked hB) (fun response w₇ hasked₇ => ?_)
  refine tracks_bind (tracks_response hasked₇ hB (by simp)) (fun completed w₈ hanswered => ?_)
  have hreconcile : Stays Deciding requested.turn (reconcileRequest cfg (some requested) completed) := by
    unfold reconcileRequest
    split
    · exact stays_calling (stays_ask trivial)
    · exact stays_pure _
  refine tracks_bind ((tracks_stays hreconcile (lasting_answered _ _)
    (fun _ hP _ htype => ⟨htype, fun _ => hP⟩) hanswered)) (fun _ w₉ hw₉ => tracks_pure hw₉.1)

/-! ### Recovery -/

/-- A call with an attempt is never released. -/
theorem refuses_settleCall (r : Event) {row : ModelCallRow} (h : row.attemptCount ≠ 0) :
    (settleCall r row).Asks (fun _ _ => True) (GovernedOp.Outside none) (fun out => ∀ a, out ≠ .ok a) := by
  have hthrow : ∀ e : Raised, (throw e : AuthorityM Unit).Asks (fun _ _ => True)
      (GovernedOp.Outside none) (fun out => ∀ a, out ≠ .ok a) := fun _ _ h => by cases h
  have hbind : ∀ {p q : AuthorityM Unit}, Only none p → q.Asks (fun _ _ => True)
      (GovernedOp.Outside none) (fun out => ∀ a, out ≠ .ok a) →
      (p >>= fun _ => q : AuthorityM Unit).Asks (fun _ _ => True) (GovernedOp.Outside none)
        (fun out => ∀ a, out ≠ .ok a) := by
    intro p q hp hq
    refine asks_bind hp ?_
    rintro (e | a) _
    · exact fun _ h => by cases h
    · exact hq
  rw [settleCall, if_neg (fun hc => h hc.1)]
  refine hbind ?_ (hbind (only_record (by decide) _ _ _) (hthrow _))
  split
  · exact only_pure _
  · exact only_fail _ _ _ _

/-- A settlement that the next run needs, when a request is dangling, ends the run. -/
theorem tracks_recoverUnresolved {r : Event} (h : HeldBack B sent w)
    (hdangling : ∀ e, Dangling w e → e = r) :
    Tracks cfg A B sent (fun _ w' => B ∧ NothingDangling w' ∧ w.loop.Grows w'.loop)
      (calling (ask (.recoverUnresolved r))) w := by
  have hsafe : Program.Safe (knownStep cfg) (fun w (_ : Unit) => HeldBack B sent w) Eq (fun _ _ => True)
      (fun out w' _ => ∀ a, out = .ok a → B ∧ NothingDangling w' ∧ w.loop.Grows w'.loop)
      (recoverUnresolved r) w () := by
    by_cases hquiet : NothingDangling w
    · have honly : Only none (recoverUnresolved r) := only_recoverUnresolved
      have hsettling : Program.Safe (knownStep cfg) (fun w (_ : Unit) => HeldBack B sent w) Eq
          (fun _ _ => True)
          (fun _ w' _ => (fun w' : GovernedWorld => NothingDangling w' ∧ w.loop.Grows w'.loop) w')
          (recoverUnresolved r) w () :=
        safe_settling honly ⟨hquiet, .refl _⟩
          (fun _ _ hw₁ hspares hgrows => ⟨hw₁.1.spares hspares, hw₁.2.trans hgrows⟩)
      exact hsettling.weaken (fun _ _ _ hw' _ _ => ⟨h.quiet hquiet, hw'⟩)
    · rintro w₁ R row w₂ rfl hheld hs
      have hout : (GovernedOp.modelCall r.id).Outside none := trivial
      have hspares := spares_outside hout hs.2.1 hs.1
      refine ⟨(), hheld.spares hspares, trivial, ?_⟩
      -- the dangling request is this one, and its row shows the attempt
      obtain ⟨e, hd⟩ := not_forall_not.mp hquiet
      obtain rfl := hdangling e hd
      have hattempted := ((hspares.dangling e).mpr hd).attempted
      obtain ⟨⟨log, db, _, _, hrow, rfl⟩, _⟩ := hs
      rw [hrow]
      unfold Database.attemptsOf at hattempted
      cases hlook : db.modelCalls.lookup e.id with
      | none => simp [hlook] at hattempted
      | some row' =>
          simp only [hlook, Option.elim_some] at hattempted
          have hasks := @refuses_settleCall e row' (by omega)
          refine Safe.weaken (Asks.safe_along hasks (fun _ _ _ _ _ => trivial)
            (P := fun _ => True) trivial ?_) (fun out _ _ hout a ha => absurd ha (hout.1 a))
          intro w₁ _ op reply w₂ _ hheld₁ hop hs₁
          exact ⟨trivial, hheld₁.spares (spares_outside hop hs₁.2.1 hs₁.1), trivial⟩
  refine tracks_step (safe_bind hsafe ?_)
  rintro (e | a) w₁ _ hw₁
  · exact safe_done (tracks_throw _)
  · exact safe_done (tracks_pure (hw₁ a rfl))

/-- A new turn only begins when nothing is dangling. -/
theorem tracks_recoverRequest (hauth : cfg.hasAuthority = true) {request : Option Event}
    (h : HeldBack B sent w) (hdangling : ∀ e, Dangling w e → request = some e) :
    Tracks cfg A B sent (fun _ w' => B ∧ NothingDangling w' ∧ w.loop.Grows w'.loop)
      (recoverRequest cfg request) w := by
  unfold recoverRequest
  rw [hauth]
  cases request with
  | none =>
      have hquiet : NothingDangling w := fun e hd => by cases hdangling e hd
      exact tracks_pure ⟨h.quiet hquiet, hquiet, .refl _⟩
  | some r =>
      exact tracks_recoverUnresolved h (fun e hd => (Option.some.inj (hdangling e hd)).symm)

/-- A turn that is resumed, or a new one. -/
theorem tracks_advanceTurn (hauth : cfg.hasAuthority = true) (hok : LoopOk cfg w.loop)
    (h : HeldBack B sent w) : Tracks cfg A B sent (fun _ _ => True) (advanceTurn cfg w.loop.log) w := by
  unfold advanceTurn
  dsimp only
  split
  next response hresponse =>
    have hanswered : Answered (recoverableTurn w.loop.log).1 w.loop.log := by
      rcases recoverableTurn_cases w.loop.log with ⟨turn, _, heq⟩ | heq
      · rw [heq] at hresponse ⊢
        rw [Answered, hresponse]
        simp
      · rw [heq] at hresponse
        cases hresponse
    have hreconcile : Stays Deciding (recoverableTurn w.loop.log).1
        (reconcileRequest cfg (lastOfType (recoverableTurn w.loop.log).2 "model.requested") response) := by
      unfold reconcileRequest
      split
      · exact stays_calling (stays_ask trivial)
      · exact stays_pure _
    refine tracks_bind (tracks_stays hreconcile (lasting_answered _ _)
      (fun _ hP _ htype => ⟨htype, fun _ => hP⟩) hanswered) (fun _ w₁ hw₁ => ?_)
    exact tracks_answered (stays_decideTurn _ _ _ _ _) hw₁.1
  next =>
    refine tracks_bind (tracks_recoverRequest hauth h ?_) ?_
    · intro e hd
      have hr := h.1.resumed e hd
      obtain ⟨t, v, hat⟩ := hok
      have hturn := (hat.current.numbered e hd.mem (by simp [hd.requested, loopTypes])).1
      rw [hr.recoverableTurn hd.mem hturn]
      exact hr.last
    · rintro - w₁ ⟨hB, hquiet, log, hgrow, hloop⟩
      have hopening : Opening (nextTurnId w.loop.log) w₁.loop.log := by
        rw [hloop]
        exact lasting_opening.foreignGrowth hgrow (opening_nextTurnId hok)
      refine tracks_bind (tracks_callModel _ hB ⟨hquiet, hopening⟩) (fun called w₂ hw₂ => ?_)
      exact tracks_answered (stays_decideTurn _ _ _ _ _) hw₂

/-- **A run of the loop** keeps the account of its table, and sends nothing while a request is
dangling. -/
theorem tracks_runOnce (hauth : cfg.hasAuthority = true) :
    Tracks cfg A B sent (fun _ _ => True) (runOnce cfg) w := by
  refine tracks_bind tracks_events ?_
  rintro es w₁ ⟨rfl, hok, hheld, _⟩
  split
  · exact tracks_throw _
  · split
    · exact tracks_pure trivial
    · split
      next u hu => exact tracks_answered (stays_recoverOperation u) (answered_of_unresolved hok hu)
      next => exact tracks_advanceTurn hauth hok hheld

end tracks

/-! ### All runs -/

section runs

variable {cfg : AgentConfig} {A : Authority} {w w' : GovernedWorld}

/-- From a world whose log accounts for its table, all that follow are such. -/
theorem held_of_continues (hauth : cfg.hasAuthority = true) {B : Prop} {sent : List String}
    (h : Continues cfg A w w') (hs : Survives cfg w.loop) (hheld : HeldBack B sent w) : HeldBack B sent w' := by
  induction h with
  | refl => exact hheld
  | died hc hr ih =>
      rename_i w₁ w₂ p
      have hsurvives := hc.survives hs
      have hr' := (safe_refines hsurvives (.refl _ _) (.refl _) ()).reaches_within hsurvives
        (fun _ => rfl) hr
      have hstep : ∀ w₃ op r w₄, (governedStep cfg w₃ op r w₄ ∧ (∃ _ : Unit, Survives cfg w₃.loop) ∧
          ∃ _ : Unit, Survives cfg w₄.loop) → knownStep cfg w₃ op r w₄ := by
        rintro w₃ op r w₄ ⟨hs, ⟨_, hs₃⟩, _, hs₄⟩
        exact ⟨hs, hs₃.loopOk, hs₄.loopOk⟩
      have hsafe : Tracks cfg A B sent (fun _ _ => True) (runOnce cfg) w₁ := tracks_runOnce hauth
      obtain ⟨_, hheld', _⟩ := (Safe.restrict hsafe hstep).reaches ih (fun _ => rfl) hr'
      exact hheld'
  | written hc hforeign hothers ih =>
      exact ih.spares (spares_others (hc.survives hs).loopOk hforeign
        (Database.sameCall_others hothers) rfl rfl rfl)
  | restarted hc ih =>
      exact ih.spares ⟨fun _ => ⟨fun h => ⟨h.1, h.2, h.3, h.4⟩, fun h => ⟨h.1, h.2, h.3, h.4⟩⟩,
        fun _ _ hr => hr, fun hu => hu, rfl⟩

theorem accounted_of_governed (hauth : cfg.hasAuthority = true) (h : GovernedSurvives cfg A w) :
    Accounted w := by
  obtain ⟨log, durable, db, hne, hforeign, hnew, hcontinues⟩ := h
  have hheld : HeldBack True []
      { loop := { log := log, pipe := { ledger := .empty durable, drawn := 0 } }, db := db } := by
    refine ⟨⟨fun n _ => hnew n, ?_⟩, .inl trivial⟩
    rintro e ⟨hmem, htype, _⟩
    have := hforeign.mem_loop hmem (by simp [htype, loopTypes])
    cases this
  exact (held_of_continues hauth hcontinues (.seed durable hne hforeign) hheld).1

/-- **From a dangling request on** the provider is never asked again. -/
theorem sent_of_continues (hauth : cfg.hasAuthority = true) (h : GovernedSurvives cfg A w) {e : Event}
    (hd : Dangling w e) (hc : Continues cfg A w w') : w'.sent = w.sent := by
  have hheld : HeldBack False w.sent w := ⟨accounted_of_governed hauth h, .inr ⟨rfl, e, hd⟩⟩
  rcases (held_of_continues hauth hc (survives_of_governed h) hheld).2 with hfalse | hsent
  · exact hfalse.elim
  · exact hsent.1

/-- A command has started no operation but one. -/
theorem startsOf_le_one (h : Survives cfg w.loop) {c : Event} (hc : c ∈ w.loop.log)
    (htype : c.type = "agent.command.validated") : startsOf w.loop.log c ≤ 1 := by
  obtain ⟨t, v, hat⟩ := h.loopOk
  -- the operations of a command are operations of its turn
  have hle : startsOf w.loop.log c ≤ turnCount w.loop.log "operation.started" c.turn := by
    unfold startsOf turnCount turnEvents
    rw [List.countP_filter]
    refine List.countP_mono_left ?_
    intro u hu hcond
    simp only [decide_eq_true_eq, Bool.and_eq_true] at hcond ⊢
    obtain ⟨c', hc', hcommand, hturn, hcause⟩ := hat.once.caused u hu hcond.1
    have hid : c'.id = c.id := by
      rw [hcond.2] at hcause
      exact (Option.some.inj hcause).symm
    have heq := LoopOk.eq_of_id h.loopOk hc' hc (by simp [hcommand, loopTypes])
      (by simp [htype, loopTypes]) hid
    exact ⟨hcond.1, by rw [← hturn, heq]⟩
  exact hle.trans (hat.once.single _ (by simp [singleTypes]) _)

/-! ### A call that is never answered -/

/-- A worker whose model calls are accounted for. -/
def accounted : AgentConfig where
  agentId := "generalist"
  spec := fun _ => none
  authorize := fun _ => .error (.policyDenied "no tools")
  parseJson := fun _ => none
  manifestNames := fun _ => .ok []
  hasAuthority := true

/-- An authority with the default budget. -/
def accountant : Authority where
  provider := { className := "DeepSeekModelProvider" }
  validateBudget := fun _ => .ok defaultBudget
  encodedLength := fun _ => 100

/-- A transaction and its reply. -/
def GovernedWorld.commit {α : Type} (w : GovernedWorld) (result : Except StoreError (α × Database)) :
    Except StoreError α × GovernedWorld :=
  match result with
  | .ok (a, db) => (.ok a, { w with db := db })
  | .error e => (.error e, w)

theorem GovernedWorld.commit_commits {α : Type} (w : GovernedWorld)
    (result : Except StoreError (α × Database)) :
    w.Commits result (w.commit result).1 (w.commit result).2 := by
  unfold GovernedWorld.Commits GovernedWorld.commit
  split <;> exact ⟨rfl, rfl⟩

/-- The first request is sent, and nobody else writes. -/
def askOnce : @Strategy governedInterface GovernedWorld (governedStep accounted) where
  act
    | .loop .events, w => some (w.loop.log, w)
    | .loop (.append type payload causationId), w =>
        let r := w.loop.appended accounted type payload causationId writing
        some (r.1, { w with loop := r.2 })
    | .loop (.buildMessages _), w =>
        some (.ok { count := 1, promptHash := "", manifest := none }, w)
    | .projectRun runId, w => some (w.db.loadProjection "run" runId, w)
    | .modelCall callId, w => some (w.db.modelCalls.lookup callId, w)
    | .recoverStale runId staleBefore, w =>
        some (w.commit (w.db.recoverStaleModelCalls runId staleBefore writing))
    | .reserve c limits, w => some (w.commit (w.db.reserveModelCall c limits writing))
    | .startAttempt callId, w => some (w.commit (w.db.startModelCallAttempt callId writing))
    | .record identity key type payload, w =>
        let e := GovernedWorld.auditEvent identity key type payload writing
        if ∀ a ∈ w.loop.log, a.id ≠ e.id then
          some (.ok (), { w with loop := { w.loop with log := w.loop.log ++ [e] } })
        else none
    | .provide e, w => some (.ok { content := "" }, { w with sent := w.sent ++ [e.id] })
    | .now, w => some (writing, w)
    | _, _ => none
  sound := by
    intro op w r h
    refine ⟨w.loop.log, w.db, .refl _, .refl _, ?_⟩
    cases op with
    | loop op =>
        cases op with
        | events => cases h; exact ⟨w.loop, ⟨rfl, rfl⟩, rfl⟩
        | append type payload cause => cases h; exact ⟨_, ⟨writing, rfl⟩, rfl⟩
        | buildMessages capability => cases h; exact ⟨w.loop, rfl, rfl⟩
        | _ => cases h
    | projectRun runId => cases h; exact ⟨rfl, rfl⟩
    | modelCall callId => cases h; exact ⟨rfl, rfl⟩
    | recoverStale runId staleBefore => cases h; exact ⟨writing, w.commit_commits _⟩
    | reserve c limits => cases h; exact ⟨writing, w.commit_commits _⟩
    | startAttempt callId => cases h; exact ⟨writing, w.commit_commits _⟩
    | record identity key type payload =>
        simp only [Option.ite_none_right_eq_some] at h
        obtain ⟨hnew, h⟩ := h
        · cases h
          exact ⟨writing, .inr ⟨rfl, hnew, rfl⟩⟩
    | provide e => cases h; rfl
    | now => cases h; rfl
    | _ => cases h

/-- The store of a running run whose model calls are accounted for. -/
def running : Database :=
  Database.initial.saveProjection "run" "run-1"
    [("status", .str "running"), ("model_mode", .str "deepseek")] 1

/-- The task before its first turn. -/
def unasked : GovernedWorld where
  loop := assigned
  db := running

/-- The process has died with the response in its hands. -/
def answerLost : GovernedWorld := (askOnce.after 15 (governedRunOnce accounted accountant) unasked).2

theorem survives_answerLost : GovernedSurvives accounted accountant answerLost := by
  have hseed : ForeignGrowth [] [taskCreated] :=
    .step (.refl _) ⟨by decide, fun htype => absurd htype (by decide)⟩
  exact ⟨[taskCreated], true, running, by simp, hseed, fun _ => rfl,
    .died (.refl _) (askOnce.after_reaches _ _ _)⟩

/-- **A response is used once.**  Whatever crashes and recoveries a governed loop has gone through, a
turn has one response and one command at most, a turn with a started attempt and no response is
followed by no call of the provider, and a command has started one operation at most. -/
theorem response_used_once (hauth : cfg.hasAuthority = true) (h : GovernedSurvives cfg A w) :
    (∀ t, turnCount w.loop.log "model.completed" t ≤ 1 ∧
      turnCount w.loop.log "agent.command.validated" t ≤ 1) ∧
    (∀ e ∈ w.loop.log, e.type = "model.requested" → 0 < w.db.attemptsOf e.id →
      turnCount w.loop.log "model.completed" e.turn = 0 → ∀ w', Continues cfg A w w' → w'.sent = w.sent) ∧
    ∀ c ∈ w.loop.log, c.type = "agent.command.validated" → startsOf w.loop.log c ≤ 1 := by
  have hsurvives := survives_of_governed h
  obtain ⟨t, v, hat⟩ := hsurvives.loopOk
  refine ⟨fun t => ⟨?_, ?_⟩, ?_, fun c hc htype => startsOf_le_one hsurvives hc htype⟩
  · exact hat.once.single _ (by simp [singleTypes]) t
  · exact hat.once.single _ (by simp [singleTypes]) t
  · intro e he htype hattempted hnone w' hc
    refine sent_of_continues hauth h ⟨he, htype, hattempted, ?_⟩ hc
    rw [lastOfType, List.find?_eq_none]
    intro a ha
    rw [turnCount, List.countP_eq_zero] at hnone
    simpa using hnone a (List.mem_reverse.mp ha)

/-- The lost response is not sampled again. -/
theorem answerLost_asked_once :
    (∃ e ∈ answerLost.loop.log, e.type = "model.requested" ∧ 0 < answerLost.db.attemptsOf e.id ∧
      turnCount answerLost.loop.log "model.completed" e.turn = 0) ∧
    ∀ w', Continues accounted accountant answerLost w' → w'.sent = ["uuid4:2"] := by
  have hdangling : ∃ e ∈ answerLost.loop.log, e.type = "model.requested" ∧
      0 < answerLost.db.attemptsOf e.id ∧ turnCount answerLost.loop.log "model.completed" e.turn = 0 := by
    decide +kernel
  obtain ⟨e, he, htype, hattempted, hnone⟩ := hdangling
  refine ⟨⟨e, he, htype, hattempted, hnone⟩, fun w' hc => ?_⟩
  rw [(response_used_once rfl survives_answerLost).2.1 e he htype hattempted hnone w' hc]
  decide +kernel

end runs

end CrazyHarness
