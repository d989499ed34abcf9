import CrazyHarness.Agents.Governance
import CrazyHarness.Agents.RunOnce

/-! # The governed loop refines the loop

The authority only writes audit events and rows of its table: `Only` says so of each part of it,
and `safe_authority` makes one step of the loop of it.  So what the runs of a governed loop leave
behind, the runs of a loop do (`survives_of_governed`), and its invariant holds of them. -/

namespace CrazyHarness

open Lib Program LoopM

/-! ### Steps of the authority -/

/-- A step of the authority, which writes no event of the loop; only one call may be made. -/
def GovernedOp.Outside (call : Option String) : GovernedOp → Prop
  | .loop _ => False
  | .record _ _ type _ => type ∉ loopTypes ∧ type ≠ "operation.reconciled"
  | .reserve c _ => call = some c.callId
  | .startAttempt callId => call = some callId
  | .provide e => call = some e.id
  | _ => True

/-- Code of the authority that takes such steps only. -/
def Only {α : Type} (call : Option String) (p : AuthorityM α) : Prop :=
  Program.Asks (fun _ _ => True) (GovernedOp.Outside call) (fun _ => True) p

section only

variable {α β : Type} {call : Option String}

theorem only_done (r : Except Raised α) : Only call (.done r : Program governedInterface _) := trivial

theorem only_pure (a : α) : Only call (pure a) := trivial

theorem only_throw (e : Raised) : Only call (throw e : AuthorityM α) := trivial

theorem only_bind {p : AuthorityM α} {f : α → AuthorityM β} (h : Only call p)
    (hf : ∀ a, Only call (f a)) : Only call (p >>= f) := by
  refine asks_bind h ?_
  intro r _
  cases r with
  | ok a => exact hf a
  | error e => trivial

theorem only_then (op : GovernedOp) (h : op.Outside call)
    {f : governedInterface.Reply op → AuthorityM β} (hf : ∀ r, Only call (f r)) :
    Only call ((AuthorityM.ask op).bind f) :=
  ⟨h, fun r _ => hf r⟩

theorem asks_step {op : GovernedOp} (h : op.Outside call) :
    (AuthorityM.ask op).Asks (fun _ _ => True) (GovernedOp.Outside call) (fun _ => True) :=
  ⟨h, fun _ _ => trivial⟩

theorem only_read {p : Program governedInterface α}
    (h : p.Asks (fun _ _ => True) (GovernedOp.Outside call) (fun _ => True)) :
    Only call (AuthorityM.read p) :=
  asks_bind h (fun _ _ => trivial)

theorem only_store {p : Program governedInterface (Except StoreError α)}
    (h : p.Asks (fun _ _ => True) (GovernedOp.Outside call) (fun _ => True)) :
    Only call (AuthorityM.store p) := by
  refine asks_bind h ?_
  intro r _
  cases r <;> trivial

theorem only_fail (callId : String) (uncertain : Bool) (errorType errorMessage : String) :
    Only call (AuthorityM.fail callId uncertain errorType errorMessage) :=
  only_store (asks_step trivial)

theorem only_record {type : String} (h : type ∉ loopTypes ∧ type ≠ "operation.reconciled")
    (identity : Event) (key : String) (payload : Dict) :
    Only call (AuthorityM.record identity key type payload) :=
  asks_step h

theorem only_audited {type : String} (h : type ∉ loopTypes ∧ type ≠ "operation.reconciled")
    (request : Event) (key : String) (payload : Dict) (errorMessage : String) :
    Only call (audited request key type payload errorMessage) := by
  refine only_then (.record request key type payload) h ?_
  rintro (exc | _)
  · exact only_bind (only_fail _ _ _ _) (fun _ => only_throw _)
  · exact only_done _

end only

/-! ### What the parts of the authority do -/

section parts

variable {call : Option String} {request : Event}

theorem only_settleCall (row : ModelCallRow) : Only call (settleCall request row) := by
  have hrecord : ∀ key payload, Only call (AuthorityM.record request key "model.call.failed" payload) :=
    only_record (by decide) request
  unfold settleCall
  split
  · refine only_bind ?_ (fun _ => hrecord _ _)
    split
    · exact only_fail _ _ _ _
    · exact only_pure _
  · refine only_bind ?_ (fun _ => only_bind (hrecord _ _) (fun _ => only_throw _))
    split
    · exact only_pure _
    · exact only_fail _ _ _ _

theorem only_recoverUnresolved : Only call (recoverUnresolved request) := by
  refine only_then (.modelCall request.id) trivial ?_
  rintro (_ | row)
  · exact only_done _
  · exact only_settleCall row

theorem only_recordUsage (completion : Event) (payload : Dict) :
    Only call (recordUsage completion payload) := by
  refine only_then (.record completion "usage" "model.usage.recorded" payload)
    (show "model.usage.recorded" ∉ loopTypes ∧ _ by decide) ?_
  rintro (exc | _)
  · dsimp only
    split <;> exact only_done _
  · exact only_done _

theorem only_reconcile (completion : Event) : Only call (reconcile request completion) := by
  refine only_then (.modelCall request.id) trivial ?_
  rintro (_ | row)
  · exact only_done _
  · refine only_bind (only_done _) (fun reported => only_bind (only_done _) (fun price => ?_))
    refine only_bind (only_store (asks_step trivial)) (fun changed => ?_)
    exact only_bind (only_recordUsage _ _) (fun _ => only_pure _)

theorem only_attempts (model : String) (left index : ℕ) :
    Only (some request.id) (attempts model request left index) := by
  induction left generalizing index with
  | zero => exact only_throw _
  | succ left ih =>
      refine only_bind (only_store (asks_step rfl)) (fun attempt => ?_)
      refine only_bind (only_audited (by decide) _ _ _ _) (fun _ => only_then (.provide request) rfl ?_)
      rintro (error | response)
      · dsimp only
        split
        · refine only_bind ?_ (fun _ => ih _)
          exact only_bind (only_record (by decide) _ _ _) (fun _ => only_read (asks_step trivial))
        · refine only_bind (only_fail _ _ _ _) (fun _ => ?_)
          exact only_bind (only_record (by decide) _ _ _) (fun _ => only_throw _)
      · exact only_done _

theorem only_provideFreely : Only (some request.id) (provideFreely request) := by
  refine only_then (.provide request) rfl ?_
  rintro (error | response) <;> exact only_done _

theorem only_reserve (A : Authority) (budget : ModelBudgetConfig) (quote : CallQuote) :
    Only (some request.id) (A.reserve budget quote request) := by
  refine only_bind ?_ (fun _ => only_bind (only_store (asks_step rfl)) (fun _ => ?_))
  · cases A.hasBeforeReserve
    · exact only_pure _
    · exact asks_step trivial
  · exact only_audited (by decide) _ _ _ _

theorem only_complete (A : Authority) : Only (some request.id) (A.complete request) := by
  refine only_bind (only_read (asks_step trivial)) (fun projected => ?_)
  dsimp only
  split
  · exact only_provideFreely
  · refine only_bind (only_done _) (fun budget => only_bind (only_read (asks_step trivial)) (fun now => ?_))
    refine only_bind (only_store (asks_step trivial)) (fun _ => only_bind (only_done _) (fun quote => ?_))
    exact only_bind (only_reserve A budget quote) (fun _ => only_attempts _ _ _)

end parts

/-! ### The loop below -/

/-- Only others have written. -/
def LoopWorld.Grows (w w' : LoopWorld) : Prop :=
  ∃ log, ForeignGrowth w.log log ∧ w' = { w with log := log }

section refinement

variable {cfg : AgentConfig} {A : Authority} {w w' : GovernedWorld}

theorem ForeignGrowth.trans {log log' log'' : List Event} (h : ForeignGrowth log log')
    (h' : ForeignGrowth log' log'') : ForeignGrowth log log'' := by
  induction h' with
  | refl => exact h
  | step _ he ih => exact .step ih he

theorem LoopWorld.Grows.refl (w : LoopWorld) : w.Grows w := ⟨w.log, .refl _, rfl⟩

theorem LoopWorld.Grows.trans {w w' w'' : LoopWorld} (h : w.Grows w') (h' : w'.Grows w'') :
    w.Grows w'' := by
  obtain ⟨log, hgrow, rfl⟩ := h
  obtain ⟨log', hgrow', rfl⟩ := h'
  exact ⟨log', hgrow.trans hgrow', rfl⟩

/-- The log of the loop is of no concern to a transaction of the store. -/
theorem GovernedWorld.Commits.loop {α : Type} {result : Except StoreError (α × Database)}
    {r : Except StoreError α} (h : w.Commits result r w') : w'.loop = w.loop := by
  unfold GovernedWorld.Commits at h
  split at h
  · rw [h.2]
  · rw [h.2]

theorem GovernedWorld.Records.grows {e : Event} {r : Except Raised Unit} (h : w.Records e r w')
    (htype : e.type ∉ loopTypes ∧ e.type ≠ "operation.reconciled") : w.loop.Grows w'.loop := by
  rcases h with ⟨rfl, _⟩ | ⟨_, _, rfl⟩
  · exact .refl _
  · exact ⟨_, .step (.refl _) ⟨htype.1, fun hc => absurd hc htype.2⟩, rfl⟩

/-- A step of the authority is one of the others for the loop. -/
theorem outside_grows {call : Option String} {op : GovernedOp} (hop : op.Outside call)
    {r : governedInterface.Reply op} (hs : governedStep cfg w op r w') : w.loop.Grows w'.loop := by
  obtain ⟨log, db, hgrow, _, hact⟩ := hs
  refine .trans ⟨log, hgrow, rfl⟩ ?_
  cases op with
  | loop op => exact hop.elim
  | record identity key type payload =>
      obtain ⟨now, hrecords⟩ := hact
      exact hrecords.grows hop
  | recoverStale runId staleBefore =>
      obtain ⟨now, hcommits⟩ := hact
      exact hcommits.loop.symm ▸ .refl _
  | reserve c limits =>
      obtain ⟨now, hcommits⟩ := hact
      exact hcommits.loop.symm ▸ .refl _
  | startAttempt callId =>
      obtain ⟨now, hcommits⟩ := hact
      exact hcommits.loop.symm ▸ .refl _
  | failCall callId uncertain errorType errorMessage =>
      obtain ⟨now, hcommits⟩ := hact
      exact hcommits.loop.symm ▸ .refl _
  | reconcileCall callId completionEventId usage cost =>
      obtain ⟨now, hcommits⟩ := hact
      exact hcommits.loop.symm ▸ .refl _
  | projectRun runId =>
      rw [hact.2]
      exact .refl _
  | modelCall callId =>
      rw [hact.2]
      exact .refl _
  | provide request =>
      rw [show w' = _ from hact]
      exact .refl _
  | now =>
      rw [show w' = _ from hact]
      exact .refl _
  | beforeReserve =>
      rw [show w' = _ from hact]
      exact .refl _
  | sleep index =>
      rw [show w' = _ from hact]
      exact .refl _

/-- A part of the authority is one step of the loop for its log. -/
theorem safe_authority {α : Type} {call : Option String} {p : AuthorityM α} (h : Only call p) (β : Type)
    (f : α → β) {w₀ : LoopWorld} (hs : ∀ w, w₀.Grows w → Survives cfg w) (hw : w₀.Grows w.loop) :
    Program.Safe (governedStep cfg) (fun w (_ : Unit) => Survives cfg w.loop) Eq (fun _ _ => True)
      (fun _ w' _ => w₀.Grows w'.loop) (told f p) w () := by
  have hsafe : Program.Safe (governedStep cfg) (fun w (_ : Unit) => Survives cfg w.loop) Eq
      (fun _ _ => True) (fun _ w' _ => True ∧ w₀.Grows w'.loop) p w () := by
    refine Asks.safe_along h (fun _ _ _ _ _ => trivial) hw ?_
    intro w₁ _ op r w₂ hw₁ _ hop hstep
    have hgrows := hw₁.trans (outside_grows hop hstep)
    exact ⟨hgrows, hs _ hgrows, trivial⟩
  refine safe_bind hsafe ?_
  rintro (e | a) w₁ _ ⟨_, hw₁⟩
  · exact safe_done hw₁
  · exact safe_done hw₁

/-- One step of the loop, with its authority. -/
theorem safe_governed (op : LoopOp) {w₀ : LoopWorld} (hs : ∀ w, w₀.Grows w → Survives cfg w)
    (hs' : ∀ r w', loopStep cfg w₀ op r w' → Survives cfg w') (hw : w₀.Grows w.loop) :
    Program.Safe (governedStep cfg) (fun w (_ : Unit) => Survives cfg w.loop) Eq (fun _ _ => True)
      (fun r w' _ => ∃ w₁, loopStep cfg w₀ op r w₁ ∧ w₁.Grows w'.loop) (governed cfg A op) w () := by
  have hdirect : Program.Safe (governedStep cfg) (fun w (_ : Unit) => Survives cfg w.loop) Eq
      (fun _ _ => True) (fun r w' _ => ∃ w₁, loopStep cfg w₀ op r w₁ ∧ w₁.Grows w'.loop)
      (AuthorityM.ask (.loop op)) w () := by
    rintro w₁ R r w₂ rfl _ ⟨log', _, hgrow', _, loop, hact, rfl⟩
    -- what others have written before this step belongs to it
    obtain ⟨log, hgrow, hlog⟩ := hw
    rw [hlog] at hgrow' hact
    have hstep : loopStep cfg w₀ op r loop := ⟨log', hgrow.trans hgrow', hact⟩
    exact ⟨(), hs' r loop hstep, trivial, safe_done ⟨loop, hstep, .refl _⟩⟩
  have hquiet : ∀ {w' : GovernedWorld} (r : loopInterface.Reply op), w₀.Grows w'.loop →
      (∀ w₁, loopAct cfg w₁ op r w₁) → ∃ w₁, loopStep cfg w₀ op r w₁ ∧ w₁.Grows w'.loop := by
    rintro w' r ⟨log, hgrow, hlog⟩ hact
    exact ⟨_, ⟨log, hgrow, hact _⟩, hlog ▸ .refl _⟩
  cases op with
  | recoverUnresolved request =>
      have honly : Only none (recoverUnresolved request) := only_recoverUnresolved
      exact (safe_authority honly Unit id hs hw).weaken
        (fun r _ _ hr => hquiet r hr (fun _ => rfl))
  | complete request =>
      have honly : Only (some request.id) (if cfg.hasAuthority then A.complete request else provideFreely request) := by
        split
        · exact only_complete A
        · exact only_provideFreely
      exact (safe_authority honly ModelResponse id hs hw).weaken
        (fun r _ _ hr => hquiet r hr (fun _ => rfl))
  | reconcile request completion =>
      have honly : Only none (CrazyHarness.reconcile request completion) := only_reconcile completion
      exact (safe_authority honly Unit (fun _ => ()) hs hw).weaken
        (fun r _ _ hr => hquiet r hr (fun _ => rfl))
  | _ => exact hdirect

/-- The runs of the governed loop are runs of the loop. -/
theorem safe_refines {q : Program loopInterface (Except LoopError Unit)} {w₀ w₁ : LoopWorld}
    (hs : Survives cfg w₀) (hr : Program.Reaches (loopStep cfg) (runOnce cfg) w₀ q w₁)
    (hw : w₁.Grows w.loop) (s : Unit) :
    Program.Safe (governedStep cfg) (fun w (_ : Unit) => Survives cfg w.loop) Eq (fun _ _ => True)
      (fun _ _ _ => True)
      (q.interpret (fun op s => (governed cfg A op).bind (fun r => .done (r, s))) s) w () := by
  induction q generalizing w w₁ s with
  | done a => trivial
  | request op next ih =>
      have hgrown : ∀ w₂, w₁.Grows w₂ → Survives cfg w₂ := by
        rintro _ ⟨log, hgrow, rfl⟩
        exact .written (.died hs hr) hgrow
      have hstep : ∀ r w₂, loopStep cfg w₁ op r w₂ → Survives cfg w₂ :=
        fun r w₂ h => .died hs (hr.trans (.step h (.refl _ _)))
      have hone : Program.Safe (governedStep cfg) (fun w (_ : Unit) => Survives cfg w.loop) Eq
          (fun _ _ => True) (fun rs w' _ => ∃ w₂, loopStep cfg w₁ op rs.1 w₂ ∧ w₂.Grows w'.loop)
          ((governed cfg A op).bind (fun r => .done (r, s))) w () :=
        safe_bind (safe_governed op hgrown hstep hw) (fun _ _ _ hr' => safe_done hr')
      refine safe_bind hone ?_
      rintro ⟨r, s⟩ w' _ ⟨w₂, h₂, hw₂⟩
      exact ih r (hr.trans (.step h₂ (.refl _ _))) hw₂ s

/-- **The governed loop refines the loop.** -/
theorem Continues.survives (h : Continues cfg A w w') (hs : Survives cfg w.loop) :
    Survives cfg w'.loop := by
  induction h with
  | refl => exact hs
  | died _ hr ih =>
      obtain ⟨_, hsurvives, _⟩ := (safe_refines ih (.refl _ _) (.refl _) ()).reaches ih (fun _ => rfl) hr
      exact hsurvives
  | written _ hforeign _ ih => exact .written ih hforeign
  | restarted _ ih => exact .restarted ih

/-- What the runs of a governed loop leave behind, the runs of a loop do. -/
theorem survives_of_governed (h : GovernedSurvives cfg A w) : Survives cfg w.loop := by
  obtain ⟨log, durable, db, hne, hforeign, _, hcontinues⟩ := h
  exact hcontinues.survives (.seed durable hne hforeign)

end refinement

end CrazyHarness
