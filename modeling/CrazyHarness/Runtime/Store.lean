import CrazyHarness.Lib.Pool
import CrazyHarness.Store.Transactions

/-! # Runtime code over the store

The resident runtime is code that calls the store: every call is one transaction, and between
two calls any other thread or process may make its own.  A `RuntimeM X` is such code; its
operations are the calls of the store, the clock and the identifiers it draws (`StoreOp`), and
those of an interface `X` for what it does outside of the store.

Nothing is assumed of the clock: each reading is any aware time. -/

namespace CrazyHarness

open Lib

/-- The calls of the store, the clock and the drawn identifiers. -/
inductive StoreOp where
  | now
  | uuid4
  | readAll (runId : Option String)
  | projection (kind entityId : String)
  | snapshot (runId : Option String)
  | append (dispatch : Option DispatchContext) (e : Event)
  | claimWork (claimKeys : List String) (ownerId : String) (ttlSeconds : ℤ) (now : DateTime)
      (runId : Option String)
  | finishWorkClaims (claims : Claims) (ownerId : String) (state : WorkClaimState)
      (finalEvent : Option Event) (allowCancelledRun : Bool)
  | failWorkClaimBundle (claimKey : String)
  | activeWorkClaims

/-- What each call returns. -/
def StoreOp.Reply : StoreOp → Type
  | .now => DateTime
  | .uuid4 => String
  | .readAll _ => List Event
  | .projection _ _ => Option Dict
  | .snapshot _ => String → List Dict
  | .append _ _ => Except StoreError Event
  | .claimWork _ _ _ _ _ => Except StoreError (Option Claims)
  | .finishWorkClaims _ _ _ _ _ => Except StoreError Bool
  | .failWorkClaimBundle _ => Except StoreError ℕ
  | .activeWorkClaims => List WorkClaimRow

/-- The store and an interface of its own. -/
def withStore (X : Interface) : Interface where
  Op := StoreOp ⊕ X.Op
  Reply
    | .inl op => op.Reply
    | .inr op => X.Reply op

/-- The exceptions of runtime code. -/
inductive RuntimeError where
  | store (e : StoreError)
  | keyError (message : String)
  | valueError (message : String)
  | typeError
  | runtimeError (message : String)
  | timeoutError (message : String)
deriving DecidableEq

/-- Runtime code, with its exceptions. -/
abbrev RuntimeM (X : Interface) := ExceptT RuntimeError (Program (withStore X))

namespace RuntimeM

variable {X : Interface} {α β : Type}

/-- One call of the store. -/
def call (op : StoreOp) : Program (withStore X) op.Reply :=
  @Program.perform (withStore X) (.inl op)

/-- One step outside of the store. -/
def outside (op : X.Op) : Program (withStore X) (X.Reply op) :=
  @Program.perform (withStore X) (.inr op)

/-- A program that does not raise. -/
def lift (p : Program (withStore X) α) : RuntimeM X α := p.bind (fun a => .done (.ok a))

/-- The exceptions of the store are exceptions of the runtime. -/
def raising (p : Program (withStore X) (Except StoreError α)) : RuntimeM X α :=
  p.bind (fun
    | .ok a => .done (.ok a)
    | .error e => .done (.error (.store e)))

def now : RuntimeM X DateTime := lift (call .now)

def uuid : RuntimeM X String := lift (call .uuid4)

def readAll (runId : Option String) : RuntimeM X (List Event) := lift (call (.readAll runId))

def projection (kind entityId : String) : RuntimeM X (Option Dict) :=
  lift (call (.projection kind entityId))

/-- The projections, by kind. -/
def snapshot (runId : Option String) : RuntimeM X (String → List Dict) :=
  lift (call (.snapshot runId))

/-- `store.append` of an event whose `created_at` is read from the clock. -/
def append (dispatch : Option DispatchContext) (e : DateTime → Event) : RuntimeM X Event := do
  let createdAt ← now
  raising (call (.append dispatch (e createdAt)))

/-- `try: p finally: q`. -/
def tryFinally (p : RuntimeM X α) (q : RuntimeM X β) : RuntimeM X α :=
  Program.bind p (fun r =>
    Program.bind q (fun
      | .ok _ => .done r
      | .error e => .done (.error e)))

/-- `try: p except e: handler(e)`. -/
def handle (p : RuntimeM X α) (handler : RuntimeError → RuntimeM X α) : RuntimeM X α :=
  Program.bind p (fun
    | .ok a => .done (.ok a)
    | .error e => handler e)

/-- `for x in xs: body(x)`. -/
def each (body : β → RuntimeM X Unit) : List β → RuntimeM X Unit
  | [] => pure ()
  | x :: xs => do
      body x
      each body xs

/-- A program for a thread; nobody takes its value. -/
def thread (p : RuntimeM X α) : Program (withStore X) Unit := Program.bind p (fun _ => .done ())

/-! ### Rules -/

/-- What the program asks for meets `Q`, and what it returns meets `post`; it may also raise. -/
abbrev Asks (A : (op : (withStore X).Op) → (withStore X).Reply op → Prop)
    (Q : (withStore X).Op → Prop) (post : α → Prop) (p : RuntimeM X α) : Prop :=
  Program.Asks A Q (fun r => ∀ a, r = .ok a → post a) p

section asks

variable {A : (op : (withStore X).Op) → (withStore X).Reply op → Prop}
  {Q : (withStore X).Op → Prop} {mid : α → Prop} {post : β → Prop}

theorem asks_bind {p : RuntimeM X α} {f : α → RuntimeM X β} (h : Asks A Q mid p)
    (hf : ∀ a, mid a → Asks A Q post (f a)) : Asks A Q post (p >>= f) := by
  refine Program.asks_bind h ?_
  intro r hr
  cases r with
  | ok a => exact hf a (hr a rfl)
  | error e =>
      intro a ha
      cases ha

theorem asks_pure {a : α} (h : mid a) : Asks A Q mid (pure a : RuntimeM X α) := by
  intro b hb
  obtain rfl := Except.ok.inj hb
  exact h

theorem asks_throw (e : RuntimeError) : Asks A Q mid (throw e : RuntimeM X α) := by
  intro a ha
  cases ha

theorem asks_call {op : StoreOp} {mid : op.Reply → Prop} (h : Q (.inl op))
    (hmid : ∀ r, A (.inl op) r → mid r) : Asks A Q mid (lift (call op)) := by
  refine ⟨h, fun r hr a ha => ?_⟩
  obtain rfl := Except.ok.inj ha
  exact hmid r hr

theorem asks_raising {p : Program (withStore X) (Except StoreError α)}
    (h : Program.Asks A Q (fun r => ∀ a, r = .ok a → mid a) p) : Asks A Q mid (raising p) := by
  refine Program.asks_bind h ?_
  intro r hr
  cases r with
  | ok a => exact asks_pure (hr a rfl)
  | error e => exact asks_throw _

theorem asks_append {dispatch : Option DispatchContext} {e : DateTime → Event}
    (hnow : Q (.inl .now)) (happend : ∀ createdAt, Q (.inl (.append dispatch (e createdAt)))) :
    Asks A Q (fun _ => True) (append dispatch e) := by
  have hcall : Asks A Q (fun _ => True) (now : RuntimeM X DateTime) :=
    asks_call hnow (fun _ _ => trivial)
  refine asks_bind hcall ?_
  intro createdAt _
  exact asks_raising ⟨happend createdAt, fun _ _ _ _ => trivial⟩

theorem asks_handle {p : RuntimeM X α} {handler : RuntimeError → RuntimeM X α} (h : Asks A Q mid p)
    (hhandler : ∀ e, Asks A Q mid (handler e)) : Asks A Q mid (handle p handler) := by
  refine Program.asks_bind h ?_
  intro r hr
  cases r with
  | ok a => exact asks_pure (hr a rfl)
  | error e => exact hhandler e

theorem asks_each {body : β → RuntimeM X Unit} (hbody : ∀ x, Asks A Q (fun _ => True) (body x))
    (xs : List β) : Asks A Q (fun _ => True) (each body xs) := by
  induction xs with
  | nil => exact asks_pure trivial
  | cons x xs ih => exact asks_bind (hbody x) (fun _ _ => ih)

theorem asks_thread {p : RuntimeM X α} (h : Asks A Q mid p) :
    Program.Asks A Q (fun _ => True) (thread p) :=
  Program.asks_bind h (fun _ _ => trivial)

end asks

section rules

open Program

variable {σ M : Type} [AddCommMonoid M]
  {step : σ → (op : (withStore X).Op) → (withStore X).Reply op → σ → Prop} {inv : σ → M → Prop}
  {rely guar : σ → σ → Prop} {s : σ} {m : M}

/-- Sequencing: an exception ends the whole. -/
theorem safe_bind {p : RuntimeM X α} {f : α → RuntimeM X β} {mid : α → σ → M → Prop}
    {post : Except RuntimeError β → σ → M → Prop}
    (h : Safe step inv rely guar (fun r s m =>
      match r with
      | .ok a => mid a s m
      | .error e => post (.error e) s m) p s m)
    (hf : ∀ a s m, mid a s m → Safe step inv rely guar post (f a) s m) :
    Safe step inv rely guar post (p >>= f : RuntimeM X β) s m := by
  refine Program.safe_bind h ?_
  intro r s m hr
  cases r with
  | ok a => exact hf a s m hr
  | error e => exact hr

theorem safe_call {op : StoreOp} {post : Except RuntimeError op.Reply → σ → M → Prop}
    (h : ∀ s₁ R r s₂, rely s s₁ → inv s₁ (m + R) → step s₁ (.inl op) r s₂ →
      ∃ m', inv s₂ (m' + R) ∧ guar s₁ s₂ ∧ post (.ok r) s₂ m') :
    Safe step inv rely guar post (lift (call op)) s m := h

/-- An append reads the clock first. -/
theorem safe_append {dispatch : Option DispatchContext} {e : DateTime → Event}
    {mid : DateTime → σ → M → Prop} {post : Except RuntimeError Event → σ → M → Prop}
    (hnow : ∀ s₁ R r s₂, rely s s₁ → inv s₁ (m + R) → step s₁ (.inl .now) r s₂ →
      ∃ m', inv s₂ (m' + R) ∧ guar s₁ s₂ ∧ mid r s₂ m')
    (happend : ∀ createdAt s m s₁ R r s₂, mid createdAt s m → rely s s₁ → inv s₁ (m + R) →
      step s₁ (.inl (.append dispatch (e createdAt))) r s₂ →
      ∃ m', inv s₂ (m' + R) ∧ guar s₁ s₂ ∧ post (r.mapError .store) s₂ m') :
    Safe step inv rely guar post (append dispatch e) s m := by
  refine safe_bind (safe_call hnow) ?_
  intro createdAt s m hmid s₁ R r s₂ hrely hinv hstep
  obtain ⟨m', hinv', hguar, hpost⟩ := happend createdAt s m s₁ R r s₂ hmid hrely hinv hstep
  refine ⟨m', hinv', hguar, ?_⟩
  cases r with
  | ok stored => exact hpost
  | error err => exact hpost

theorem safe_tryFinally {p : RuntimeM X α} {q : RuntimeM X β}
    {mid : Except RuntimeError α → σ → M → Prop} {post : Except RuntimeError α → σ → M → Prop}
    (h : Safe step inv rely guar mid p s m)
    (hq : ∀ r s m, mid r s m → Safe step inv rely guar (fun r' s m =>
      match r' with
      | .ok _ => post r s m
      | .error e => post (.error e) s m) q s m) :
    Safe step inv rely guar post (tryFinally p q) s m := by
  refine Program.safe_bind h ?_
  intro r s m hr
  refine Program.safe_bind (hq r s m hr) ?_
  intro r' s m hr'
  cases r' with
  | ok b => exact hr'
  | error e => exact hr'

theorem safe_thread {p : RuntimeM X α} {post : Except RuntimeError α → σ → M → Prop}
    {goal : Unit → σ → M → Prop} (h : Safe step inv rely guar post p s m)
    (hgoal : ∀ r s m, post r s m → goal () s m) :
    Safe step inv rely guar goal (thread p) s m :=
  Program.safe_bind h hgoal

end rules

end RuntimeM

/-- `_append_deterministic`: an event under the identifier that its key gives. -/
def appendDeterministic {X : Interface} (dispatch : Option DispatchContext) (identity : Event)
    (key type : String) (payload : Dict) (source : String) (causationId : Option String := none) :
    RuntimeM X Event :=
  RuntimeM.append dispatch (fun createdAt =>
    { id := uuid5 ("crazy:" ++ key), runId := identity.runId, taskId := identity.taskId, type := type,
      source := source, payload := payload, causationId := some (causationId.getD identity.id),
      createdAt := createdAt })

/-! ### What the calls do -/

/-- The store, and how many identifiers were drawn. -/
structure StoreWorld where
  db : Database
  drawn : ℕ

namespace Database

/-- The projections of a kind, by entity, as `snapshot` lists them. -/
def snapshotOf (db : Database) (runId : Option String) (kind : String) : List Dict :=
  let rows := (db.projections.rows.filter (fun r => r.kind = kind)).insertionSort
    (fun r s => r.entityId ≤ s.entityId)
  (rows.map ProjectionRow.state).filter (fun state =>
    match runId with
    | none => true
    | some runId => decide (kind = "agent" ∨ state.get? "run_id" = some (.str runId)))

/-- `read_all(run_id=…)`. -/
def readAll (db : Database) (runId : Option String) : List Event :=
  match runId with
  | none => db.events.rows
  | some runId => db.readRun runId

end Database

/-- A call returns with a new database or raises. -/
def StoreWorld.returns {α : Type} (w : StoreWorld) (out : Except StoreError (α × Database)) :
    Except StoreError α × StoreWorld :=
  match out with
  | .ok (a, db) => (.ok a, { w with db := db })
  | .error e => (.error e, w)

/-- Others append events, if they can. -/
def StoreWorld.wrote (w : StoreWorld) (events : List Event) : StoreWorld :=
  match w.db.appendAll events with
  | .ok (_, db) => { w with db := db }
  | .error _ => w

/-- Others claim work, if they can. -/
def StoreWorld.claimed (w : StoreWorld) (claimKeys : List String) (ownerId : String)
    (ttlSeconds : ℤ) (now : DateTime) (runId : Option String) : StoreWorld :=
  (w.returns (w.db.claimWork claimKeys ownerId ttlSeconds now runId)).2

/-- The dispatch of a thread as it is when it writes: it may have been cancelled meanwhile. -/
def DispatchContext.Becomes (d : Option DispatchContext) : Option DispatchContext → Prop
  | none => d = none
  | some d' => ∃ d₀, d = some d₀ ∧ ∃ cancelled, d' = { d₀ with cancelled := cancelled }

/-- What each call replies and does. -/
def storeStep (w : StoreWorld) : (op : StoreOp) → op.Reply → StoreWorld → Prop
  | .now, (r : DateTime), w' => r.utcOffset = some 0 ∧ w' = w
  | .uuid4, (r : String), w' => r = uuid4 w.drawn ∧ w' = { w with drawn := w.drawn + 1 }
  | .readAll runId, r, w' => r = w.db.readAll runId ∧ w' = w
  | .projection kind entityId, r, w' => r = w.db.loadProjection kind entityId ∧ w' = w
  | .snapshot runId, r, w' => r = w.db.snapshotOf runId ∧ w' = w
  | .append dispatch e, r, w' => ∃ d now, DispatchContext.Becomes dispatch d ∧
      now.Aware ∧ (r, w') = w.returns (w.db.append d e now)
  | .claimWork claimKeys ownerId ttlSeconds now runId, r, w' =>
      (r, w') = w.returns (w.db.claimWork claimKeys ownerId ttlSeconds now runId)
  | .finishWorkClaims claims ownerId state finalEvent allowCancelledRun, r, w' =>
      ∃ now : DateTime, now.Aware ∧ (r, w') = w.returns (w.db.finishWorkClaims claims ownerId state
        now finalEvent allowCancelledRun)
  | .failWorkClaimBundle claimKey, r, w' =>
      ∃ now : DateTime, now.Aware ∧ (r, w') = w.returns (w.db.failWorkClaimBundle claimKey now)
  | .activeWorkClaims, r, w' =>
      r = w.db.workClaims.rows.filter (fun c => c.state = .active) ∧ w' = w

/-- The clock stands still, and no dispatch is cancelled. -/
def storeStrategy (clock : DateTime) : (op : StoreOp) → StoreWorld → op.Reply × StoreWorld
  | .now, w => ((clock, w) : DateTime × StoreWorld)
  | .uuid4, w => ((uuid4 w.drawn, { w with drawn := w.drawn + 1 }) : String × StoreWorld)
  | .readAll runId, w => (w.db.readAll runId, w)
  | .projection kind entityId, w => (w.db.loadProjection kind entityId, w)
  | .snapshot runId, w => (w.db.snapshotOf runId, w)
  | .append dispatch e, w => w.returns (w.db.append dispatch e clock)
  | .claimWork claimKeys ownerId ttlSeconds now runId, w =>
      w.returns (w.db.claimWork claimKeys ownerId ttlSeconds now runId)
  | .finishWorkClaims claims ownerId state finalEvent allowCancelledRun, w =>
      w.returns (w.db.finishWorkClaims claims ownerId state clock finalEvent allowCancelledRun)
  | .failWorkClaimBundle claimKey, w => w.returns (w.db.failWorkClaimBundle claimKey clock)
  | .activeWorkClaims, w => (w.db.workClaims.rows.filter (fun c => c.state = .active), w)

/-- A call raised and changed nothing, or returned with its database. -/
theorem StoreWorld.returns_cases {α : Type} {w w' : StoreWorld} {out : Except StoreError (α × Database)}
    {r : Except StoreError α} (h : (r, w') = w.returns out) :
    (∃ e, out = .error e ∧ r = .error e ∧ w' = w) ∨
      ∃ a db, out = .ok (a, db) ∧ r = .ok a ∧ w' = { w with db := db } := by
  unfold returns at h
  split at h
  next a db =>
    obtain ⟨rfl, rfl⟩ := Prod.mk.inj h
    exact .inr ⟨a, db, rfl, rfl, rfl⟩
  next e =>
    obtain ⟨rfl, rfl⟩ := Prod.mk.inj h
    exact .inl ⟨e, rfl, rfl, rfl⟩

theorem StoreWorld.wrote_db (w : StoreWorld) (events : List Event) :
    ∃ es, es ⊆ events ∧ w.db.Wrote es (w.wrote events).db ∧ (w.wrote events).drawn = w.drawn := by
  unfold StoreWorld.wrote
  cases happend : w.db.appendAll events with
  | ok out =>
      obtain ⟨es, hes, hwrote, -⟩ := Database.appendAll_wrote happend
      exact ⟨es, hes.subset, hwrote, rfl⟩
  | error e => exact ⟨[], List.nil_subset _, .nothing (.refl _), rfl⟩

theorem StoreWorld.claimed_db (w : StoreWorld) (claimKeys : List String) (ownerId : String)
    (ttlSeconds : ℤ) (now : DateTime) (runId : Option String) :
    w.db.SameLog (w.claimed claimKeys ownerId ttlSeconds now runId).db := by
  unfold StoreWorld.claimed
  cases hclaim : w.db.claimWork claimKeys ownerId ttlSeconds now runId with
  | ok out => exact Database.claimWork_wrote hclaim
  | error e => exact .refl _

/-- The event a call may append. -/
def StoreOp.event : StoreOp → Option Event
  | .append _ e => some e
  | .finishWorkClaims _ _ _ finalEvent _ => finalEvent
  | _ => none

/-- Whatever a call does, it writes at most its event. -/
theorem storeStep_wrote {w w' : StoreWorld} {op : StoreOp} {r : op.Reply} (h : storeStep w op r w') :
    w.drawn ≤ w'.drawn ∧ ∃ es, es ⊆ op.event.toList ∧ w.db.Wrote es w'.db := by
  have hsame : ∀ {w' : StoreWorld} {events : List Event}, w' = w →
      w.drawn ≤ w'.drawn ∧ ∃ es, es ⊆ events ∧ w.db.Wrote es w'.db := by
    rintro w' events rfl
    exact ⟨le_rfl, [], List.nil_subset _, .nothing (.refl _)⟩
  cases op with
  | now => exact hsame h.2
  | uuid4 =>
      obtain ⟨-, rfl⟩ := h
      exact ⟨Nat.le_succ _, [], List.nil_subset _, .nothing (.refl _)⟩
  | readAll runId => exact hsame h.2
  | projection kind entityId => exact hsame h.2
  | snapshot runId => exact hsame h.2
  | activeWorkClaims => exact hsame h.2
  | append dispatch e =>
      obtain ⟨d, now, -, -, hout⟩ := h
      rcases StoreWorld.returns_cases hout with ⟨_, -, -, rfl⟩ | ⟨stored, db, happend, -, rfl⟩
      · exact hsame rfl
      · rcases Database.append_cases happend with ⟨rfl, -, -⟩ | ⟨-, hnew⟩
        · exact ⟨le_rfl, [], List.nil_subset _, .nothing (Database.sameLog_skipSeq _)⟩
        · exact ⟨le_rfl, [e], List.Subset.refl _, hnew.wrote⟩
  | claimWork claimKeys ownerId ttlSeconds now runId =>
      rcases StoreWorld.returns_cases h with ⟨_, -, -, rfl⟩ | ⟨claims, db, hclaim, -, rfl⟩
      · exact hsame rfl
      · exact ⟨le_rfl, [], List.nil_subset _, .nothing (Database.claimWork_wrote hclaim)⟩
  | finishWorkClaims claims ownerId state finalEvent allowCancelledRun =>
      obtain ⟨now, -, hout⟩ := h
      rcases StoreWorld.returns_cases hout with ⟨_, -, -, rfl⟩ | ⟨finished, db, hfinish, -, rfl⟩
      · exact hsame rfl
      · exact ⟨le_rfl, Database.finishWorkClaims_wrote hfinish⟩
  | failWorkClaimBundle claimKey =>
      obtain ⟨now, -, hout⟩ := h
      rcases StoreWorld.returns_cases hout with ⟨_, -, -, rfl⟩ | ⟨count, db, hfail, -, rfl⟩
      · exact hsame rfl
      · exact ⟨le_rfl, [], List.nil_subset _, .nothing (Database.failWorkClaimBundle_sameLog hfail)⟩

theorem DispatchContext.becomes_self (d : Option DispatchContext) : DispatchContext.Becomes d d := by
  cases d with
  | none => rfl
  | some d => exact ⟨d, rfl, d.cancelled, rfl⟩

theorem storeStrategy_sound {clock : DateTime} (hclock : clock.utcOffset = some 0) (op : StoreOp)
    (w : StoreWorld) : storeStep w op (storeStrategy clock op w).1 (storeStrategy clock op w).2 := by
  have haware : clock.Aware := by
    rw [DateTime.Aware, hclock]
    rfl
  cases op with
  | now => exact ⟨hclock, rfl⟩
  | append dispatch e => exact ⟨dispatch, clock, DispatchContext.becomes_self dispatch, haware, rfl⟩
  | claimWork claimKeys ownerId ttlSeconds now runId => exact rfl
  | finishWorkClaims claims ownerId state finalEvent allowCancelledRun => exact ⟨clock, haware, rfl⟩
  | failWorkClaimBundle claimKey => exact ⟨clock, haware, rfl⟩
  | _ => exact ⟨rfl, rfl⟩

end CrazyHarness
