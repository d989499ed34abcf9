import CrazyHarness.Lib.Pool
import CrazyHarness.Agents.Governance
import CrazyHarness.Store.Transactions

/-! # Physical calls are counted

Any number of `complete` and `recover_unresolved` run over one store, also about the same request,
and the sweep of old calls may come at any time.  While a provider is asked, its call should be
counted, and a call that is given up should be charged exactly if its outcome is uncertain.

`recover_unresolved` reads a call and writes its failure later, whatever has become of the call in
between.  As long as a failure that it writes as certain finds no attempt, and one that it writes as
uncertain finds no failure, every call is counted (`calls_counted`).  The proof gives every call to
the `complete` that has reserved it: nobody else starts an attempt of it. -/

namespace CrazyHarness

open Lib AuthorityM

/-! ### Callers -/

/-- Who takes a step. -/
inductive CallRole where
  | completing
  | recovering
deriving DecidableEq

/-- The steps of the authority, with who takes them. -/
def callInterface : Interface where
  Op := CallRole × GovernedOp
  Reply op := governedInterface.Reply op.2

/-- What the provider has replied, in order. -/
abbrev ProviderReplies := List (Except ProviderError ModelResponse)

/-- The reply of the provider, if it was asked. -/
def heard : (op : GovernedOp) → governedInterface.Reply op → ProviderReplies
  | .provide _, r => [r]
  | _, _ => []

/-- One step; what the provider replies is kept. -/
def performed (role : CallRole) (op : GovernedOp) (replies : ProviderReplies) :
    Program callInterface (governedInterface.Reply op × ProviderReplies) :=
  .request (role, op) (fun r => .done (r, replies ++ heard op r))

/-- A program of the authority in its role. -/
def asRole {α : Type} (role : CallRole) (p : Program governedInterface α) (replies : ProviderReplies) :
    Program callInterface (α × ProviderReplies) :=
  p.interpret (performed role) replies

/-- How a caller ends; a call with what the provider has replied to it. -/
inductive CallEnd where
  | completed (request : Event) (result : Except Raised ModelResponse) (replies : ProviderReplies)
  | recovered (request : Event) (result : Except Raised Unit)

/-- `complete`. -/
def completion (A : Authority) (request : Event) : Program callInterface CallEnd :=
  (asRole .completing (A.complete request) []).bind
    (fun r => .done (.completed request r.1 r.2))

/-- `recover_unresolved`. -/
def recovery (request : Event) : Program callInterface CallEnd :=
  (asRole .recovering (recoverUnresolved request) []).bind (fun r => .done (.recovered request r.1))

/-! ### The store they share -/

/-- The call is in flight or its outcome is unknown. -/
def Database.CallCounted (db : Database) (callId : String) : Prop :=
  (db.modelCalls.lookup callId).elim False
    (fun row => row.state = .inFlight ∨ row.state = .unknown)

instance (db : Database) (callId : String) : Decidable (db.CallCounted callId) := by
  unfold Database.CallCounted
  cases db.modelCalls.lookup callId with
  | none => exact inferInstanceAs (Decidable False)
  | some row => exact inferInstanceAs (Decidable (_ ∨ _))

/-- The store, whether a provider was asked for a call that is not counted, and the calls that were
given up, with whether their outcome is uncertain.  No code reads the last two. -/
structure CallWorld where
  db : Database
  uncounted : Bool := false
  givenUp : List (String × Bool) := []

namespace CallWorld

variable (w : CallWorld)

/-- A transaction of the store and its reply. -/
def Commits {α : Type} (result : Except StoreError (α × Database)) (r : Except StoreError α)
    (w' : CallWorld) : Prop :=
  match result with
  | .ok (a, db) => r = .ok a ∧ w' = { w with db := db }
  | .error e => r = .error e ∧ w' = w

/-- `fail_model_call` of a caller. -/
def Fails (role : CallRole) (callId : String) (uncertain : Bool) (result : Except StoreError Database)
    (r : Except StoreError Unit) (w' : CallWorld) : Prop :=
  match result with
  | .ok db => r = .ok () ∧ w' = { w with
      db := db
      givenUp := if role = .completing then (callId, uncertain) :: w.givenUp else w.givenUp }
  | .error e => r = .error e ∧ w' = w

/-- `_append` of the authority. -/
def Audits (result : Except StoreError (Event × Database)) (r : Except Raised Unit) (w' : CallWorld) :
    Prop :=
  match result with
  | .ok (_, db) => r = .ok () ∧ w' = { w with db := db }
  | .error e => r = .error e.raised ∧ w' = w

end CallWorld

/-- What each step replies and does. -/
def sharedStep (w : CallWorld) :
    (op : callInterface.Op) → callInterface.Reply op → CallWorld → Prop
  | (_, .projectRun runId), r, w' => r = w.db.loadProjection "run" runId ∧ w' = w
  | (_, .modelCall callId), r, w' => r = w.db.modelCalls.lookup callId ∧ w' = w
  | (_, .recoverStale runId staleBefore), r, w' =>
      ∃ now, w.Commits (w.db.recoverStaleModelCalls runId staleBefore now) r w'
  | (_, .reserve c limits), r, w' => ∃ now, w.Commits (w.db.reserveModelCall c limits now) r w'
  | (_, .startAttempt callId), r, w' => ∃ now, w.Commits (w.db.startModelCallAttempt callId now) r w'
  | (role, .failCall callId uncertain errorType errorMessage), r, w' => ∃ now,
      w.Fails role callId uncertain (w.db.failModelCall callId uncertain errorType errorMessage now) r w'
  | (_, .reconcileCall callId completionEventId usage cost), r, w' =>
      ∃ now, w.Commits (w.db.reconcileModelCall callId completionEventId usage cost now) r w'
  | (_, .record identity key type payload), r, w' => ∃ dispatch now, w.Audits
      (w.db.append dispatch (GovernedWorld.auditEvent identity key type payload now) now) r w'
  | (_, .provide request), _, w' =>
      w' = { w with uncounted := w.uncounted || !decide (w.db.CallCounted request.id) }
  | (_, .now), _, w' | (_, .beforeReserve), _, w' | (_, .sleep _), _, w' => w' = w
  | (_, .loop _), _, _ => False

/-- What else may happen: the sweep, and writes that leave the calls alone. -/
def callEnv (w w' : CallWorld) : Prop :=
  ∃ db, w' = { w with db := db } ∧ (db.modelCalls = w.db.modelCalls ∨
    ∃ runId staleBefore now counts,
      w.db.recoverStaleModelCalls runId staleBefore now = .ok (counts, db))

/-- Callers come and go. -/
def callRules : PoolRules callInterface CallEnd CallWorld where
  step := sharedStep
  starts w p w' := w' = w ∧ ∃ A request, p = completion A request ∨ p = recovery request
  env := callEnv

/-- The model mode of a run is that of physical calls, and a failure that `recover_unresolved` writes
finds no attempt if it is certain, and no failure if it is not. -/
def Timely (w : CallWorld) : CallRole × GovernedOp → Prop
  | (_, .projectRun runId) =>
      ((w.db.loadProjection "run" runId).getD []).getD "model_mode" (.str "scripted") = .str "deepseek"
  | (.recovering, .failCall callId uncertain _ _) => ∀ row,
      w.db.modelCalls.lookup callId = some row →
        if uncertain then row.state ≠ .failed else row.attemptCount = 0
  | _ => True

/-- The callers, when every step is timely. -/
def timelyRules : PoolRules callInterface CallEnd CallWorld :=
  { callRules with step := fun w op r w' => sharedStep w op r w' ∧ Timely w op }

/-! ### Who may start an attempt -/

/-- How far the caller that has reserved a call has come with it. -/
inductive CallPhase where
  | reserved
  | attempted

/-- The row of a call that a caller has reserved. -/
def CallPhase.Fits (db : Database) : String × CallPhase → Prop
  | (callId, .reserved) => ∃ row, db.modelCalls.lookup callId = some row ∧ row.attemptCount = 0 ∧
      row.state ≠ .completed
  | (callId, .attempted) => ∃ row, db.modelCalls.lookup callId = some row ∧ row.attemptCount ≠ 0 ∧
      (row.state = .inFlight ∨ row.state = .unknown)

/-- The row of a call that was given up. -/
def EndedAs (db : Database) (t : String × Bool) : Prop :=
  ∃ row, db.modelCalls.lookup t.1 = some row ∧
    if t.2 then row.state = .unknown ∧ row.attemptCount ≠ 0 else row.state = .failed

/-- The calls that the callers hold, and those that were given up, are different calls, and each row
is as it should be. -/
structure CallInv (w : CallWorld) (held : Multiset (String × CallPhase)) : Prop where
  counted : w.uncounted = false
  fits : ∀ t ∈ held, CallPhase.Fits w.db t
  ended : ∀ t ∈ w.givenUp, EndedAs w.db t
  apart : (held.map Prod.fst + (w.givenUp.map Prod.fst : Multiset String)).Nodup

/-- The change does no harm to a call that is held or was given up. -/
structure HarmlessToCalls (db db' : Database) : Prop where
  fits : ∀ t, CallPhase.Fits db t → CallPhase.Fits db' t
  ended : ∀ t, EndedAs db t → EndedAs db' t

/-- The rows of other calls are left alone. -/
def OnlyCall (callId : String) (db db' : Database) : Prop :=
  ∀ id, id ≠ callId → db'.modelCalls.lookup id = db.modelCalls.lookup id

section rows

variable {db db' : Database} {w w' : CallWorld} {held rest : Multiset (String × CallPhase)}
  {callId : String} {phase : CallPhase} {t : String × CallPhase}

theorem CallPhase.Fits.row (h : CallPhase.Fits db t) : ∃ row, db.modelCalls.lookup t.1 = some row := by
  obtain ⟨id, phase⟩ := t
  cases phase with
  | reserved =>
      obtain ⟨row, hrow, -⟩ := h
      exact ⟨row, hrow⟩
  | attempted =>
      obtain ⟨row, hrow, -⟩ := h
      exact ⟨row, hrow⟩

theorem CallPhase.Fits.counted (h : CallPhase.Fits db (callId, .attempted)) : db.CallCounted callId := by
  obtain ⟨row, hrow, -, hstate⟩ := h
  rw [Database.CallCounted, hrow]
  exact hstate

/-- What may become of a row at the hands of others. -/
structure RowKept (r r' : ModelCallRow) : Prop where
  attempts : r'.attemptCount = r.attemptCount
  inFlight : r.attemptCount ≠ 0 → r.state = .inFlight → r'.state = .inFlight ∨ r'.state = .unknown
  unknown : r.attemptCount ≠ 0 → r.state = .unknown → r'.state = .unknown
  failed : r.state = .failed → r'.state = .failed
  running : r.state ≠ .completed → r'.state ≠ .completed

theorem RowKept.refl (r : ModelCallRow) : RowKept r r :=
  ⟨rfl, fun _ h => .inl h, fun _ h => h, fun h => h, fun h => h⟩

theorem harmless_of_rows (h : ∀ id row, db.modelCalls.lookup id = some row →
    ∃ row', db'.modelCalls.lookup id = some row' ∧ RowKept row row') : HarmlessToCalls db db' := by
  constructor
  · rintro ⟨id, phase⟩ hfits
    cases phase with
    | reserved =>
        obtain ⟨row, hrow, hzero, hrunning⟩ := hfits
        obtain ⟨row', hrow', hkept⟩ := h id row hrow
        exact ⟨row', hrow', hkept.attempts.trans hzero, hkept.running hrunning⟩
    | attempted =>
        obtain ⟨row, hrow, hne, hst⟩ := hfits
        obtain ⟨row', hrow', hkept⟩ := h id row hrow
        refine ⟨row', hrow', by rwa [hkept.attempts], ?_⟩
        cases hst with
        | inl hst => exact hkept.inFlight hne hst
        | inr hst => exact .inr (hkept.unknown hne hst)
  · rintro ⟨id, uncertain⟩ ⟨row, hrow, hend⟩
    obtain ⟨row', hrow', hkept⟩ := h id row hrow
    refine ⟨row', hrow', ?_⟩
    cases uncertain with
    | true => exact ⟨hkept.unknown hend.2 hend.1, by rw [hkept.attempts]; exact hend.2⟩
    | false => exact hkept.failed hend

theorem harmless_of_eq (h : db'.modelCalls = db.modelCalls) : HarmlessToCalls db db' := by
  refine harmless_of_rows (fun id row hrow => ⟨row, ?_, .refl row⟩)
  rw [h, hrow]

/-- Rows are rewritten, each to one that the calls can do with. -/
theorem harmless_updateWhere {p : ModelCallRow → Prop} [DecidablePred p]
    {f : ModelCallRow → ModelCallRow} {hf : ∀ r, p r → (f r).callId = r.callId}
    (h : ∀ row ∈ db.modelCalls.rows, p row → RowKept row (f row)) :
    HarmlessToCalls db { db with modelCalls := db.modelCalls.updateWhere p f hf } := by
  refine harmless_of_rows (fun id row hrow => ?_)
  refine ⟨if p row then f row else row, by rw [Table.lookup_updateWhere, hrow]; rfl, ?_⟩
  split
  next hp => exact h row (Table.mem_of_lookup hrow) hp
  next => exact .refl row

theorem HarmlessToCalls.trans {db'' : Database} (h : HarmlessToCalls db db')
    (h' : HarmlessToCalls db' db'') : HarmlessToCalls db db'' :=
  ⟨fun t ht => h'.fits t (h.fits t ht), fun t ht => h'.ended t (h.ended t ht)⟩

/-- `recover_stale_model_calls`. -/
theorem harmless_recoverStale {runId : String} {staleBefore now : DateTime} {counts : ℕ × ℕ}
    (h : db.recoverStaleModelCalls runId staleBefore now = .ok (counts, db')) :
    HarmlessToCalls db db' := by
  unfold Database.recoverStaleModelCalls at h
  split at h
  · cases h
  obtain ⟨-, rfl⟩ := Prod.mk.inj (Except.ok.inj h)
  let released := db.modelCalls.updateWhere
    (Database.StaleCall runId staleBefore.isoformat .reserved)
    (·.endedAs .failed "AbandonedReservation" "no transport attempt started before recovery" now)
    (fun r _ => r.endedAs_callId _ _ _ now)
  have hreleased : HarmlessToCalls db { db with modelCalls := released } := by
    apply harmless_updateWhere
    rintro row - ⟨-, hst, -⟩
    have hfailed : ModelCallState.failed ≠ .completed := by decide
    refine ⟨rfl, ?_, ?_, fun _ => rfl, fun _ hst' => absurd hst' hfailed⟩ <;> intro _ hst' <;>
      rw [hst] at hst' <;> cases hst'
  refine hreleased.trans (harmless_updateWhere ?_)
  rintro row - ⟨-, hst, -⟩
  have hunknown : ModelCallState.unknown ≠ .completed := by decide
  refine ⟨rfl, fun _ _ => .inr rfl, fun _ _ => rfl, ?_, fun _ hst' => absurd hst' hunknown⟩
  intro hst'
  rw [hst] at hst'
  cases hst'

/-- A failure that `recover_unresolved` writes in time. -/
theorem harmless_fail {uncertain : Bool} {errorType errorMessage : String} {now : DateTime}
    (h : db.failModelCall callId uncertain errorType errorMessage now = .ok db')
    (htimely : ∀ row, db.modelCalls.lookup callId = some row →
      if uncertain then row.state ≠ .failed else row.attemptCount = 0) : HarmlessToCalls db db' := by
  unfold Database.failModelCall at h
  split at h
  · cases h
  next row hrow =>
    have hrow' := htimely row hrow
    split at h
    · obtain rfl := Except.ok.inj h
      exact harmless_of_eq rfl
    · obtain rfl := Except.ok.inj h
      refine harmless_updateWhere ?_
      intro r hr hid
      obtain rfl : r = row := by
        have hlook := Table.lookup_of_mem hr
        rw [hid, hrow] at hlook
        exact (Option.some.inj hlook).symm
      cases uncertain with
      | true =>
          have hunknown : ModelCallState.unknown ≠ .completed := by decide
          exact ⟨rfl, fun _ _ => .inr rfl, fun _ _ => rfl, fun hst => absurd hst hrow',
            fun _ hst => absurd hst hunknown⟩
      | false =>
          have hfailed : ModelCallState.failed ≠ .completed := by decide
          exact ⟨rfl, fun hne => absurd hrow' hne, fun hne => absurd hrow' hne, fun _ => rfl,
            fun _ hst => absurd hst hfailed⟩

/-! ### The invariant -/

theorem CallInv.harmless (h : CallInv w held) (hdb : HarmlessToCalls w.db db) :
    CallInv { w with db := db } held :=
  ⟨h.counted, fun t ht => hdb.fits t (h.fits t ht), fun t ht => hdb.ended t (h.ended t ht), h.apart⟩

theorem CallInv.drop (h : CallInv w (held + rest)) : CallInv w rest := by
  refine ⟨h.counted, fun t ht => h.fits t (Multiset.mem_add.mpr (.inr ht)), h.ended, ?_⟩
  have hle : rest.map Prod.fst + (w.givenUp.map Prod.fst : Multiset String) ≤
      (held + rest).map Prod.fst + (w.givenUp.map Prod.fst : Multiset String) := by
    rw [Multiset.map_add]
    exact add_le_add_left (Multiset.le_add_left _ _) _
  exact Multiset.nodup_of_le hle h.apart

theorem OnlyCall.fits (hdb : OnlyCall callId db db') (hne : t.1 ≠ callId)
    (h : CallPhase.Fits db t) : CallPhase.Fits db' t := by
  obtain ⟨id, phase⟩ := t
  cases phase <;> simpa only [CallPhase.Fits, hdb id hne] using h

theorem OnlyCall.ended {t : String × Bool} (hdb : OnlyCall callId db db') (hne : t.1 ≠ callId)
    (h : EndedAs db t) : EndedAs db' t := by
  simpa only [EndedAs, hdb t.1 hne] using h

/-- The holder of a call rewrites its row. -/
theorem CallInv.own (h : CallInv w ({(callId, phase)} + rest)) (hdb : OnlyCall callId w.db db) :
    (∀ t ∈ rest, CallPhase.Fits db t) ∧ ∀ t ∈ w.givenUp, EndedAs db t := by
  have happart := h.apart
  rw [Multiset.map_add, Multiset.map_singleton, add_assoc, Multiset.singleton_add,
    Multiset.nodup_cons, Multiset.mem_add] at happart
  constructor
  · intro t ht
    refine hdb.fits ?_ (h.fits t (Multiset.mem_add.mpr (.inr ht)))
    intro heq
    refine happart.1 (.inl ?_)
    have hmem := Multiset.mem_map_of_mem Prod.fst ht
    rwa [heq] at hmem
  · intro t ht
    refine hdb.ended ?_ (h.ended t ht)
    intro heq
    refine happart.1 (.inr ?_)
    rw [Multiset.mem_coe, ← heq]
    exact List.mem_map_of_mem ht

theorem onlyCall_updateCall (db : Database) (f : ModelCallRow → ModelCallRow)
    (hf : ∀ r, (f r).callId = r.callId) : OnlyCall callId db (db.updateCall callId f hf) := by
  intro id hne
  unfold Database.updateCall
  rw [Table.lookup_updateWhere]
  cases hrow : db.modelCalls.lookup id with
  | none => rfl
  | some row =>
      rw [Option.map_some, if_neg]
      exact fun hid => hne ((Table.key_of_lookup hrow).symm.trans hid)

theorem lookup_updateCall {row : ModelCallRow} (hrow : db.modelCalls.lookup callId = some row)
    (f : ModelCallRow → ModelCallRow) (hf : ∀ r, (f r).callId = r.callId) :
    (db.updateCall callId f hf).modelCalls.lookup callId = some (f row) := by
  unfold Database.updateCall
  rw [Table.lookup_updateWhere, hrow, Option.map_some, if_pos (Table.key_of_lookup hrow)]

/-- A call that is reserved belongs to who has reserved it. -/
theorem CallInv.reserve {c : ModelReservation} {limits : ModelLimits} {now : DateTime}
    {row : ModelCallRow} (h : CallInv w rest) (hdb : w.db.reserveModelCall c limits now = .ok (row, db)) :
    CallInv { w with db := db } ({(c.callId, .reserved)} + rest) := by
  obtain ⟨hid, hzero, hreserved, hnew, rfl⟩ := Database.reserveModelCall_eq hdb
  have hlookup : ∀ id, (w.db.modelCalls.insertNew row hnew).lookup id =
      if id = row.callId then some row else w.db.modelCalls.lookup id :=
    Table.lookup_insertNew _ _ _
  have hold : OnlyCall row.callId w.db { w.db with modelCalls := w.db.modelCalls.insertNew row hnew } :=
    fun id hne => (hlookup id).trans (if_neg hne)
  have hfree : ∀ t ∈ rest, t.1 ≠ row.callId := by
    intro t ht heq
    obtain ⟨r, hr⟩ := (h.fits t ht).row
    rw [heq, hnew] at hr
    cases hr
  have hgiven : ∀ t ∈ w.givenUp, t.1 ≠ row.callId := by
    intro t ht heq
    obtain ⟨r, hr, -⟩ := h.ended t ht
    rw [heq, hnew] at hr
    cases hr
  refine ⟨h.counted, ?_, fun t ht => hold.ended (hgiven t ht) (h.ended t ht), ?_⟩
  · intro t ht
    cases Multiset.mem_add.mp ht with
    | inl hown =>
        rw [Multiset.mem_singleton.mp hown]
        refine ⟨row, (hlookup c.callId).trans ?_, hzero, by rw [hreserved]; nofun⟩
        rw [hid, if_pos rfl]
    | inr hrest => exact hold.fits (hfree t hrest) (h.fits t hrest)
  · rw [Multiset.map_add, Multiset.map_singleton, add_assoc, Multiset.singleton_add,
      Multiset.nodup_cons]
    refine ⟨?_, h.apart⟩
    intro hmem
    rw [← hid] at hmem
    cases Multiset.mem_add.mp hmem with
    | inl hrest =>
        obtain ⟨t, ht, heq⟩ := Multiset.mem_map.mp hrest
        exact hfree t ht heq
    | inr hend =>
        obtain ⟨t, ht, heq⟩ := List.mem_map.mp (Multiset.mem_coe.mp hend)
        exact hgiven t ht heq

/-- The holder of a call starts an attempt. -/
theorem CallInv.start {now : DateTime} {attempt : ℕ} (h : CallInv w ({(callId, phase)} + rest))
    (hdb : w.db.startModelCallAttempt callId now = .ok (attempt, db)) :
    CallInv { w with db := db } ({(callId, .attempted)} + rest) := by
  unfold Database.startModelCallAttempt at hdb
  split at hdb
  · cases hdb
  next row hrow =>
    split at hdb
    swap
    · cases hdb
    obtain ⟨-, rfl⟩ := Prod.mk.inj (Except.ok.inj hdb)
    obtain ⟨hfits, hended⟩ := h.own (onlyCall_updateCall w.db _ _)
    refine ⟨h.counted, ?_, hended, ?_⟩
    · intro t ht
      cases Multiset.mem_add.mp ht with
      | inl hown =>
          rw [Multiset.mem_singleton.mp hown]
          exact ⟨_, lookup_updateCall hrow _ _, Nat.succ_ne_zero _, .inl rfl⟩
      | inr hrest => exact hfits t hrest
    · simpa only [Multiset.map_add, Multiset.map_singleton] using h.apart

/-- The holder of a call gives it up. -/
theorem CallInv.giveUp {uncertain : Bool} {errorType errorMessage : String} {now : DateTime}
    (h : CallInv w ({(callId, phase)} + rest)) (hphase : uncertain = true → phase = .attempted)
    (hdb : w.db.failModelCall callId uncertain errorType errorMessage now = .ok db) :
    CallInv { w with db := db, givenUp := (callId, uncertain) :: w.givenUp } rest := by
  unfold Database.failModelCall at hdb
  split at hdb
  · cases hdb
  next row hrow =>
    have hown := h.fits _ (Multiset.mem_add.mpr (.inl (Multiset.mem_singleton_self _)))
    have hrunning : row.state ≠ .completed := by
      cases phase with
      | reserved =>
          obtain ⟨r, hr, -, hne⟩ := hown
          rw [hrow] at hr
          obtain rfl := Option.some.inj hr
          exact hne
      | attempted =>
          obtain ⟨r, hr, -, hst⟩ := hown
          rw [hrow] at hr
          obtain rfl := Option.some.inj hr
          cases hst with
          | inl hst => rw [hst]; nofun
          | inr hst => rw [hst]; nofun
    rw [if_neg hrunning] at hdb
    obtain rfl := Except.ok.inj hdb
    obtain ⟨hfits, hended⟩ := h.own (onlyCall_updateCall w.db _ _)
    refine ⟨h.counted, hfits, ?_, ?_⟩
    · intro t ht
      cases List.mem_cons.mp ht with
      | inr hold => exact hended t hold
      | inl heq =>
          rw [heq]
          refine ⟨_, lookup_updateCall hrow _ _, ?_⟩
          cases uncertain with
          | false => rfl
          | true =>
              refine ⟨rfl, ?_⟩
              rw [hphase rfl] at hown
              obtain ⟨r, hr, hne, -⟩ := hown
              rw [hrow] at hr
              obtain rfl := Option.some.inj hr
              exact hne
    · have happart := h.apart
      rw [Multiset.map_add, Multiset.map_singleton] at happart
      rw [List.map_cons, ← Multiset.cons_coe, Multiset.add_cons, ← Multiset.singleton_add, ← add_assoc]
      exact happart

end rows

/-! ### Callers that keep the invariant -/

/-- What was given up stays given up. -/
def CallWorld.Remembers (w w' : CallWorld) : Prop := w.givenUp ⊆ w'.givenUp

/-- A step of a caller that comes in time. -/
def timelyStep (w : CallWorld) (op : callInterface.Op) (r : callInterface.Reply op) (w' : CallWorld) :
    Prop := sharedStep w op r w' ∧ Timely w op

/-- What the value of a caller should be, with what the provider has replied, the state and the calls
it still holds. -/
abbrev CallPost (α : Type) :=
  α → ProviderReplies → CallWorld → Multiset (String × CallPhase) → Prop

/-- From a state on and holding these calls, the program keeps the invariant, and ends as it should. -/
def KeepsCalls {α : Type} (role : CallRole) (p : Program governedInterface α) (replies : ProviderReplies)
    (w : CallWorld) (held : Multiset (String × CallPhase)) (post : CallPost α) : Prop :=
  Program.Safe timelyStep CallInv CallWorld.Remembers CallWorld.Remembers
    (fun r w' held' => post r.1 r.2 w' held') (asRole role p replies) w held

section callers

variable {α β : Type} {role : CallRole} {replies : ProviderReplies} {w : CallWorld}
  {held : Multiset (String × CallPhase)}

theorem CallWorld.Remembers.refl (w : CallWorld) : w.Remembers w := List.Subset.refl _

theorem CallWorld.Remembers.trans {w' w'' : CallWorld} (h : w.Remembers w') (h' : w'.Remembers w'') :
    w.Remembers w'' := List.Subset.trans h h'

/-- One step, and what follows. -/
theorem keepsCalls_request {op : GovernedOp}
    {next : governedInterface.Reply op → Program governedInterface α} {post : CallPost α}
    (h : ∀ w₁ rest r w₂, w.Remembers w₁ → CallInv w₁ (held + rest) → timelyStep w₁ (role, op) r w₂ →
      ∃ held', CallInv w₂ (held' + rest) ∧ w₁.Remembers w₂ ∧
        KeepsCalls role (next r) (replies ++ heard op r) w₂ held' post) :
    KeepsCalls role (.request op next : Program governedInterface α) replies w held post := by
  intro w₁ rest r w₂ hrely hinv hstep
  exact h w₁ rest r w₂ hrely hinv hstep

theorem keepsCalls_bind {p : Program governedInterface α} {f : α → Program governedInterface β}
    {mid : CallPost α} {post : CallPost β} (h : KeepsCalls role p replies w held mid)
    (hf : ∀ a replies' w' held', mid a replies' w' held' →
      KeepsCalls role (f a) replies' w' held' post) :
    KeepsCalls role (p.bind f) replies w held post := by
  have heq : asRole role (p.bind f) replies =
      (asRole role p replies).bind (fun r => asRole role (f r.1) r.2) :=
    @Program.interpret_bind governedInterface α β callInterface ProviderReplies (performed role) p f
      replies
  unfold KeepsCalls
  rw [heq]
  exact Program.safe_bind h (fun r w' held' hr => hf r.1 r.2 w' held' hr)

/-- One part of a caller, and what follows unless it raises. -/
theorem keepsCalls_then {p : AuthorityM α} {f : α → AuthorityM β} {mid : CallPost (Except Raised α)}
    {post : CallPost (Except Raised β)} (h : KeepsCalls role p replies w held mid)
    (hok : ∀ a replies' w' held', mid (.ok a) replies' w' held' →
      KeepsCalls role (f a) replies' w' held' post)
    (herror : ∀ e replies' w' held', mid (.error e) replies' w' held' →
      post (.error e) replies' w' held') :
    KeepsCalls role (p >>= f : AuthorityM β) replies w held post := by
  refine keepsCalls_bind h ?_
  rintro (e | a) replies' w' held' hmid
  · exact herror e replies' w' held' hmid
  · exact hok a replies' w' held' hmid

theorem keepsCalls_ite {c : Prop} [Decidable c] {p q : AuthorityM α}
    {post : CallPost (Except Raised α)} (hp : KeepsCalls role p replies w held post)
    (hq : KeepsCalls role q replies w held post) :
    KeepsCalls role (if c then p else q : AuthorityM α) replies w held post := by
  split
  · exact hp
  · exact hq

theorem keepsCalls_else {c : Prop} [Decidable c] {p q : AuthorityM α}
    {post : CallPost (Except Raised α)} (hc : ¬ c) (hq : KeepsCalls role q replies w held post) :
    KeepsCalls role (if c then p else q : AuthorityM α) replies w held post := by
  rw [if_neg hc]
  exact hq

/-- The steps that no call is touched by. -/
def GovernedOp.Uncalling : GovernedOp → Prop
  | .projectRun _ | .now | .modelCall _ | .recoverStale _ _ | .beforeReserve | .record _ _ _ _
  | .sleep _ => True
  | _ => False

theorem append_modelCalls {db db' : Database} {dispatch : Option DispatchContext} {e stored : Event}
    {now : DateTime} (h : db.append dispatch e now = .ok (stored, db')) :
    db'.modelCalls = db.modelCalls := by
  rcases Database.append_cases h with ⟨rfl, -⟩ | ⟨-, hnew, hproject⟩
  · rfl
  · exact (Database.onlyProjections_projectEvent hproject).modelCalls

theorem CallInv.uncalling {w' : CallWorld} {op : GovernedOp} {r : governedInterface.Reply op}
    (h : CallInv w held) (hop : op.Uncalling) (hstep : timelyStep w (role, op) r w') :
    CallInv w' held ∧ w'.givenUp = w.givenUp ∧ heard op r = [] := by
  obtain ⟨hstep, -⟩ := hstep
  cases op with
  | projectRun runId =>
      obtain ⟨-, rfl⟩ := hstep
      exact ⟨h, rfl, rfl⟩
  | modelCall callId =>
      obtain ⟨-, rfl⟩ := hstep
      exact ⟨h, rfl, rfl⟩
  | now =>
      obtain rfl := hstep
      exact ⟨h, rfl, rfl⟩
  | beforeReserve =>
      obtain rfl := hstep
      exact ⟨h, rfl, rfl⟩
  | sleep index =>
      obtain rfl := hstep
      exact ⟨h, rfl, rfl⟩
  | recoverStale runId staleBefore =>
      obtain ⟨now, hcommit⟩ := hstep
      unfold CallWorld.Commits at hcommit
      split at hcommit
      next counts db hdb =>
        obtain ⟨-, rfl⟩ := hcommit
        exact ⟨h.harmless (harmless_recoverStale hdb), rfl, rfl⟩
      next =>
        obtain ⟨-, rfl⟩ := hcommit
        exact ⟨h, rfl, rfl⟩
  | record identity key type payload =>
      obtain ⟨dispatch, now, haudit⟩ := hstep
      unfold CallWorld.Audits at haudit
      split at haudit
      next stored db hdb =>
        obtain ⟨-, rfl⟩ := haudit
        exact ⟨h.harmless (harmless_of_eq (append_modelCalls hdb)), rfl, rfl⟩
      next =>
        obtain ⟨-, rfl⟩ := haudit
        exact ⟨h, rfl, rfl⟩
  | _ => cases hop

/-- A step that touches no call. -/
theorem keepsCalls_uncalling {op : GovernedOp}
    {next : governedInterface.Reply op → Program governedInterface α} {post : CallPost α}
    (hop : op.Uncalling) (h : ∀ w₁ r w₂, w.Remembers w₂ → timelyStep w₁ (role, op) r w₂ →
      KeepsCalls role (next r) replies w₂ held post) :
    KeepsCalls role (.request op next : Program governedInterface α) replies w held post := by
  apply keepsCalls_request
  intro w₁ rest r w₂ hrely hinv hstep
  obtain ⟨hinv', hgiven, hheard⟩ := hinv.uncalling hop hstep
  have hremembers : w₁.Remembers w₂ := by
    rw [CallWorld.Remembers, hgiven]
    exact List.Subset.refl _
  refine ⟨held, hinv', hremembers, ?_⟩
  rw [hheard, List.append_nil]
  exact h w₁ r w₂ (hrely.trans hremembers) hstep

/-! ### Exceptions of a call -/

/-- The store does not raise `ModelCallFailed`. -/
theorem raised_ne (e : StoreError) : e.raised.typeName ≠ "ModelCallFailed" := by
  cases e <;> simp [StoreError.raised]

/-- A call that fails after a reply of the provider was given up with what the reply says. -/
def Blames (request : Event) (replies : ProviderReplies) (w : CallWorld) (exc : Raised) : Prop :=
  exc.typeName = "ModelCallFailed" → ∀ e, replies.getLast? = some (.error e) →
    (request.id, (classifyError e).2) ∈ w.givenUp

/-- What a caller may raise. -/
def MayRaise {α : Type} (request : Event) : CallPost (Except Raised α) :=
  fun r replies w _ => ∀ exc, r = .error exc → Blames request replies w exc

theorem blames_of_ne {request : Event} {exc : Raised} (h : exc.typeName ≠ "ModelCallFailed") :
    Blames request replies w exc := fun heq => absurd heq h

theorem blames_nil {request : Event} {exc : Raised} : Blames request [] w exc := by
  intro _ e he
  cases he

/-- An event of the authority. -/
theorem keepsCalls_record {identity : Event} {key type : String} {payload : Dict}
    {post : CallPost (Except Raised Unit)} (h : ∀ w₂, w.Remembers w₂ → post (.ok ()) replies w₂ held)
    (herror : ∀ e w₂, post (.error (StoreError.raised e)) replies w₂ held) :
    KeepsCalls role (AuthorityM.record identity key type payload) replies w held post := by
  refine @keepsCalls_uncalling _ role replies w held (.record identity key type payload) _ _ trivial ?_
  intro w₁ r w₂ hremembers hstep
  obtain ⟨⟨dispatch, now, haudit⟩, -⟩ := hstep
  unfold CallWorld.Audits at haudit
  split at haudit
  · obtain ⟨rfl, -⟩ := haudit
    exact h w₂ hremembers
  · obtain ⟨rfl, -⟩ := haudit
    exact herror _ w₂

/-- A call that is given up by its holder. -/
theorem keepsCalls_giveUp {callId errorType errorMessage : String} {uncertain : Bool}
    {phase : CallPhase} {post : CallPost (Except Raised Unit)}
    (hphase : uncertain = true → phase = .attempted)
    (h : ∀ w₂, (callId, uncertain) ∈ w₂.givenUp → post (.ok ()) replies w₂ 0)
    (herror : ∀ e w₂, post (.error (StoreError.raised e)) replies w₂ {(callId, phase)}) :
    KeepsCalls .completing (AuthorityM.fail callId uncertain errorType errorMessage) replies w
      {(callId, phase)} post := by
  refine @keepsCalls_request _ .completing replies w _ (.failCall callId uncertain errorType errorMessage)
    _ _ ?_
  intro w₁ rest r w₂ _ hinv hstep
  obtain ⟨⟨now, hfails⟩, -⟩ := hstep
  unfold CallWorld.Fails at hfails
  split at hfails
  next db hdb =>
    obtain ⟨rfl, rfl⟩ := hfails
    refine ⟨0, ?_, fun t ht => List.mem_cons_of_mem _ ht, ?_⟩
    · rw [zero_add]
      exact hinv.giveUp hphase hdb
    · rw [show heard (.failCall callId uncertain errorType errorMessage) (.ok ()) = [] from rfl,
        List.append_nil]
      exact h _ List.mem_cons_self
  next e hdb =>
    obtain ⟨rfl, rfl⟩ := hfails
    refine ⟨{(callId, phase)}, hinv, .refl _, ?_⟩
    rw [show heard (.failCall callId uncertain errorType errorMessage) (.error e) = [] from rfl,
      List.append_nil]
    exact herror e _

/-! ### The parts of `complete` -/

/-- A part that goes on with the calls `m`, or raises. -/
def GoesOn {α : Type} (request : Event) (replies : ProviderReplies)
    (m : Multiset (String × CallPhase)) : CallPost (Except Raised α) :=
  fun r replies' w held' => (∀ a, r = .ok a → replies' = replies ∧ held' = m) ∧
    ∀ exc, r = .error exc → Blames request replies' w exc

theorem goesOn_ok {request : Event} {a : α} : GoesOn request replies held (.ok a) replies w held :=
  ⟨fun _ _ => ⟨rfl, rfl⟩, nofun⟩

theorem goesOn_error {request : Event} {m : Multiset (String × CallPhase)} {exc : Raised}
    {replies' : ProviderReplies} (h : Blames request replies' w exc) :
    GoesOn request replies m (.error exc : Except Raised α) replies' w held :=
  ⟨nofun, fun _ heq => Except.error.inj heq ▸ h⟩

theorem goesOn_store {request : Event} {m : Multiset (String × CallPhase)} (e : StoreError) :
    GoesOn request replies m (.error e.raised : Except Raised α) replies w held :=
  goesOn_error (blames_of_ne (raised_ne e))

variable {request : Event} {phase : CallPhase}

theorem keepsCalls_audited (key type : String) (payload : Dict) (errorMessage : String) :
    KeepsCalls .completing (audited request key type payload errorMessage) replies w
      {(request.id, phase)} (GoesOn request replies {(request.id, phase)}) := by
  refine @keepsCalls_uncalling _ .completing replies w _ (.record request key type payload) _ _ trivial ?_
  intro w₁ r w₂ _ hstep
  obtain ⟨⟨dispatch, now, haudit⟩, -⟩ := hstep
  unfold CallWorld.Audits at haudit
  split at haudit
  · obtain ⟨rfl, -⟩ := haudit
    exact goesOn_ok
  next e hdb =>
    obtain ⟨rfl, -⟩ := haudit
    have hfail : KeepsCalls .completing
        (AuthorityM.fail request.id false e.raised.typeName errorMessage) replies w₂
        {(request.id, phase)} (fun r replies' _ _ => replies' = replies ∧
          ∀ exc, r = .error exc → exc.typeName ≠ "ModelCallFailed") := by
      refine keepsCalls_giveUp nofun (fun _ _ => ⟨rfl, nofun⟩) ?_
      intro e' _
      refine ⟨rfl, ?_⟩
      rintro _ ⟨⟩
      exact raised_ne e'
    refine keepsCalls_then hfail ?_ ?_
    · rintro _ replies' w' held' ⟨rfl, -⟩
      exact goesOn_store e
    · rintro exc replies' w' held' ⟨rfl, hne⟩
      exact goesOn_error (blames_of_ne (hne exc rfl))

theorem keepsCalls_scheduleRetry (attempt index : ℕ) (error : ProviderError) :
    KeepsCalls role (scheduleRetry request attempt index error) replies w held
      (GoesOn request replies held) := by
  have hrecord : ∀ payload, KeepsCalls role
      (AuthorityM.record request ("retry:" ++ toString attempt) "model.call.retry.scheduled" payload)
      replies w held (GoesOn request replies held) :=
    fun _ => keepsCalls_record (fun _ _ => goesOn_ok) (fun e _ => goesOn_store e)
  refine keepsCalls_then (hrecord _) ?_ (fun _ _ _ _ hgo => goesOn_error (hgo.2 _ rfl))
  intro _ replies' w' held' hgo
  obtain ⟨rfl, rfl⟩ := hgo.1 _ rfl
  refine @keepsCalls_uncalling _ role replies' w' held' (.sleep index) _ _ trivial ?_
  intro _ _ _ _ _
  exact goesOn_ok

/-- A part that gives the call up, with what the last error has of it, or raises another error. -/
def GivesUp (request : Event) (error : ProviderError) (replies : ProviderReplies) :
    CallPost (Except Raised Unit) :=
  fun r replies' w' _ => replies' = replies ∧
    match r with
    | .ok () => (request.id, (classifyError error).2) ∈ w'.givenUp
    | .error exc => exc.typeName ≠ "ModelCallFailed"

theorem keepsCalls_last (attempt : ℕ) {error : ProviderError}
    (hlast : replies.getLast? = some (.error error)) :
    KeepsCalls .completing (giveUp request attempt (classifyError error).2 error.raised) replies w
      {(request.id, .attempted)} (MayRaise request) := by
  have hfail : KeepsCalls .completing
      (AuthorityM.fail request.id (classifyError error).2 error.raised.typeName error.raised.message)
      replies w {(request.id, .attempted)} (GivesUp request error replies) :=
    keepsCalls_giveUp (fun _ => rfl) (fun _ hmem => ⟨rfl, hmem⟩) (fun e _ => ⟨rfl, raised_ne e⟩)
  refine keepsCalls_then hfail ?_ ?_
  · rintro ⟨⟩ replies' w' held' ⟨rfl, hmem⟩
    have hrecord : ∀ payload, KeepsCalls .completing
        (AuthorityM.record request "failed" "model.call.failed" payload) replies' w' held'
        (GivesUp request error replies') :=
      fun _ => keepsCalls_record (fun _ hsub => ⟨rfl, hsub hmem⟩) (fun e _ => ⟨rfl, raised_ne e⟩)
    refine keepsCalls_then (hrecord _) ?_ ?_
    · rintro ⟨⟩ replies'' w'' held'' ⟨rfl, hgiven⟩ exc - - e he
      rw [hlast] at he
      cases he
      exact hgiven
    · rintro e replies'' w'' held'' ⟨-, hne⟩ exc ⟨⟩
      exact blames_of_ne hne
  · rintro e replies' w' held' ⟨-, hne⟩ exc ⟨⟩
    exact blames_of_ne hne

/-- The attempts of a call that its caller holds. -/
theorem keepsCalls_attempts (model : String) (left index : ℕ) :
    KeepsCalls .completing (attempts model request left index) replies w {(request.id, phase)}
      (MayRaise request) := by
  induction left generalizing index replies w phase with
  | zero =>
      rintro exc ⟨⟩
      exact blames_of_ne (by decide)
  | succ left ih =>
      have hstart : KeepsCalls .completing (AuthorityM.store (ask (.startAttempt request.id))) replies w
          {(request.id, phase)} (GoesOn request replies {(request.id, .attempted)}) := by
        refine @keepsCalls_request _ .completing replies w _ (.startAttempt request.id) _ _ ?_
        intro w₁ rest r w₂ _ hinv hstep
        obtain ⟨⟨now, hcommit⟩, -⟩ := hstep
        unfold CallWorld.Commits at hcommit
        split at hcommit
        next attempt db hdb =>
          obtain ⟨rfl, rfl⟩ := hcommit
          refine ⟨{(request.id, .attempted)}, hinv.start hdb, .refl _, ?_⟩
          rw [show heard (.startAttempt request.id) (.ok attempt) = [] from rfl, List.append_nil]
          exact goesOn_ok
        next e hdb =>
          obtain ⟨rfl, rfl⟩ := hcommit
          refine ⟨{(request.id, phase)}, hinv, .refl _, ?_⟩
          rw [show heard (.startAttempt request.id) (.error e) = [] from rfl, List.append_nil]
          exact goesOn_store e
      refine keepsCalls_then hstart ?_ (fun _ _ _ _ hgo exc hexc => by
        cases hexc
        exact hgo.2 _ rfl)
      intro attempt replies₁ w₁ held₁ hgo
      obtain ⟨rfl, rfl⟩ := hgo.1 _ rfl
      refine keepsCalls_then (keepsCalls_audited _ _ _ _) ?_ (fun _ _ _ _ hgo exc hexc => by
        cases hexc
        exact hgo.2 _ rfl)
      intro _ replies₂ w₂ held₂ hgo
      obtain ⟨rfl, rfl⟩ := hgo.1 _ rfl
      refine @keepsCalls_request _ .completing _ w₂ _ (.provide request) _ _ ?_
      intro w₃ rest r w₄ _ hinv hstep
      obtain ⟨rfl, -⟩ := hstep
      have hcounted : w₃.db.CallCounted request.id :=
        (hinv.fits _ (Multiset.mem_add.mpr (.inl (Multiset.mem_singleton_self _)))).counted
      refine ⟨{(request.id, .attempted)}, ⟨?_, hinv.fits, hinv.ended, hinv.apart⟩, .refl _, ?_⟩
      · simp [hinv.counted, hcounted]
      · cases r with
        | ok response =>
            rintro exc ⟨⟩
        | error error =>
            show KeepsCalls .completing
              (if (classifyError error).1 ∧ left ≠ 0 then do
                  scheduleRetry request attempt index error
                  attempts model request left (index + 1)
                else giveUp request attempt (classifyError error).2 error.raised : AuthorityM ModelResponse)
              (replies₂ ++ [.error error]) _ _ _
            split
            · refine keepsCalls_then (keepsCalls_scheduleRetry _ _ _) ?_ (fun _ _ _ _ hgo exc hexc => by
                cases hexc
                exact hgo.2 _ rfl)
              intro _ replies₅ w₅ held₅ hgo
              obtain ⟨rfl, rfl⟩ := hgo.1 _ rfl
              exact ih (index + 1)
            · exact keepsCalls_last attempt (by simp)

/-! ### `complete` -/

/-- A part before the provider is asked. -/
def Silent {α : Type} (m : Multiset (String × CallPhase)) : CallPost (Except Raised α) :=
  fun r replies' _ held' => replies' = [] ∧ ∀ a, r = .ok a → held' = m

theorem silent_ok {a : α} : Silent held (.ok a) [] w held := ⟨rfl, fun _ _ => rfl⟩

theorem silent_error {m : Multiset (String × CallPhase)} {exc : Raised} :
    Silent m (.error exc : Except Raised α) [] w held := ⟨rfl, nofun⟩

theorem Silent.raises {m : Multiset (String × CallPhase)} {exc : Raised}
    (h : Silent m (.error exc : Except Raised α) replies w held) :
    (MayRaise request : CallPost (Except Raised β)) (.error exc) replies w held := by
  rw [h.1]
  rintro _ ⟨⟩
  exact blames_nil

/-- A step that no call is touched by, before the provider is asked. -/
theorem keepsCalls_silent {op : GovernedOp} (hop : op.Uncalling) {α : Type}
    {f : governedInterface.Reply op → Except Raised α} :
    KeepsCalls role (.request op (fun r => .done (f r)) : Program governedInterface (Except Raised α)) []
      w held (Silent held) :=
  keepsCalls_uncalling hop (fun _ _ _ _ _ => ⟨rfl, fun _ _ => rfl⟩)

/-- `reserve_model_call` of a call that is made. -/
theorem keepsCalls_reserveCall {c : ModelReservation} (limits : ModelLimits) :
    KeepsCalls .completing (AuthorityM.store (ask (.reserve c limits))) [] w 0
      (Silent {(c.callId, .reserved)}) := by
  refine @keepsCalls_request _ .completing [] w 0 (.reserve c limits) _ _ ?_
  intro w₁ rest r w₂ _ hinv hstep
  obtain ⟨⟨now, hcommit⟩, -⟩ := hstep
  rw [zero_add] at hinv
  unfold CallWorld.Commits at hcommit
  split at hcommit
  next row db hdb =>
    obtain ⟨rfl, rfl⟩ := hcommit
    refine ⟨{(c.callId, .reserved)}, hinv.reserve hdb, .refl _, ?_⟩
    exact silent_ok (w := w)
  next e hdb =>
    obtain ⟨rfl, rfl⟩ := hcommit
    refine ⟨0, by rwa [zero_add], .refl _, ?_⟩
    exact silent_error (w := w)

theorem keepsCalls_reserve (A : Authority) (budget : ModelBudgetConfig) (quote : CallQuote) :
    KeepsCalls .completing (A.reserve budget quote request) [] w 0
      (GoesOn request [] {(request.id, .reserved)}) := by
  unfold Authority.reserve
  have hbefore : KeepsCalls .completing
      (if A.hasBeforeReserve then ask .beforeReserve else pure () : AuthorityM Unit) [] w 0
      (Silent 0) := by
    refine keepsCalls_ite ?_ (silent_ok (w := w))
    exact @keepsCalls_silent .completing w 0 .beforeReserve trivial Unit id
  refine keepsCalls_then hbefore ?_ (fun _ _ _ _ h => goesOn_error (by rw [h.1]; exact blames_nil))
  rintro _ _ w₁ _ ⟨rfl, hheld⟩
  rw [hheld _ rfl]
  have hreserve := @keepsCalls_reserveCall w₁
    { callId := request.id, runId := request.runId, taskId := request.taskId,
      agentId := request.source, provider := A.provider.className, model := A.provider.model,
      reservedInputTokens := quote.inputTokens, reservedOutputTokens := quote.outputTokens,
      reservedCostMicrousd := quote.reservedCost } budget.limits
  refine keepsCalls_then hreserve ?_ (fun _ _ _ _ h => goesOn_error (by rw [h.1]; exact blames_nil))
  rintro row _ w₂ _ ⟨rfl, hheld⟩
  rw [hheld _ rfl]
  exact keepsCalls_audited _ _ _ _

theorem keepsCalls_pureE {r : Except Raised α} :
    KeepsCalls role (AuthorityM.pureE r) [] w held (Silent held) := ⟨rfl, fun _ _ => rfl⟩

/-- A caller in a run with physical calls. -/
theorem keepsCalls_complete (A : Authority) :
    KeepsCalls .completing (A.complete request) [] w 0 (MayRaise request) := by
  refine @keepsCalls_uncalling _ .completing [] w 0 (.projectRun request.runId) _ _ trivial ?_
  intro w₁ projected w₂ _ hstep
  obtain ⟨⟨rfl, rfl⟩, hmode⟩ := hstep
  refine keepsCalls_else (not_not_intro hmode) ?_
  refine keepsCalls_then keepsCalls_pureE ?_ (fun _ _ _ _ h => h.raises)
  rintro budget _ w₃ _ ⟨rfl, hheld⟩
  rw [hheld _ rfl]
  have hnow : KeepsCalls .completing (AuthorityM.read (ask .now)) [] w₃ 0 (Silent 0) :=
    @keepsCalls_silent .completing w₃ 0 .now trivial DateTime .ok
  refine keepsCalls_then hnow ?_ (fun _ _ _ _ h => h.raises)
  rintro now _ w₄ _ ⟨rfl, hheld⟩
  rw [hheld _ rfl]
  have hstale : ∀ cutoff, KeepsCalls .completing
      (AuthorityM.store (ask (.recoverStale request.runId cutoff))) [] w₄ 0 (Silent 0) := by
    intro cutoff
    refine @keepsCalls_uncalling _ .completing [] w₄ 0 (.recoverStale request.runId cutoff) _ _ trivial ?_
    intro w₅ r w₆ _ _
    cases r with
    | ok counts => exact silent_ok (w := w₆)
    | error e => exact silent_error (w := w₆)
  refine keepsCalls_then (hstale _) ?_ (fun _ _ _ _ h => h.raises)
  rintro _ _ w₅ _ ⟨rfl, hheld⟩
  rw [hheld _ rfl]
  refine keepsCalls_then keepsCalls_pureE ?_ (fun _ _ _ _ h => h.raises)
  rintro quote _ w₆ _ ⟨rfl, hheld⟩
  rw [hheld _ rfl]
  refine keepsCalls_then (keepsCalls_reserve A budget quote) ?_ ?_
  · intro _ replies' w₇ held' hgo
    obtain ⟨rfl, rfl⟩ := hgo.1 _ rfl
    exact keepsCalls_attempts _ _ _
  · rintro e replies' w₇ held' hgo exc ⟨⟩
    exact hgo.2 _ rfl

/-! ### `recover_unresolved` -/

/-- The steps that a recovery takes. -/
def GovernedOp.Recovers (op : GovernedOp) : Prop :=
  op.Uncalling ∨ ∃ callId uncertain errorType errorMessage,
    op = .failCall callId uncertain errorType errorMessage

theorem keepsCalls_recovers {p : Program governedInterface α} {mid : α → Prop}
    (h : p.Asks (fun _ _ => True) GovernedOp.Recovers mid) :
    KeepsCalls .recovering p replies w 0 (fun _ _ _ _ => True) := by
  induction p generalizing replies w with
  | done a => trivial
  | request op next ih =>
      rcases h.1 with hop | ⟨callId, uncertain, errorType, errorMessage, rfl⟩
      · refine keepsCalls_uncalling hop ?_
        intro w₁ r w₂ _ _
        exact ih r (h.2 r trivial)
      · apply keepsCalls_request
        intro w₁ rest r w₂ _ hinv hstep
        obtain ⟨⟨now, hfails⟩, htimely⟩ := hstep
        rw [zero_add] at hinv
        unfold CallWorld.Fails at hfails
        split at hfails
        next db hdb =>
          obtain ⟨rfl, rfl⟩ := hfails
          refine ⟨0, ?_, .refl _, ih _ (h.2 _ trivial)⟩
          rw [zero_add]
          exact hinv.harmless (harmless_fail hdb htimely)
        next e hdb =>
          obtain ⟨rfl, rfl⟩ := hfails
          exact ⟨0, by rwa [zero_add], .refl _, ih _ (h.2 _ trivial)⟩

theorem authority_bind {Q : GovernedOp → Prop} {p : AuthorityM α} {f : α → AuthorityM β}
    (h : Program.Asks (fun _ _ => True) Q (fun _ => True) p)
    (hf : ∀ a, Program.Asks (fun _ _ => True) Q (fun _ => True) (f a)) :
    Program.Asks (fun _ _ => True) Q (fun _ => True) (p >>= f : AuthorityM β) := by
  refine Program.asks_bind h ?_
  rintro (e | a) _
  · trivial
  · exact hf a

theorem authority_store {Q : GovernedOp → Prop} {p : Program governedInterface (Except StoreError α)}
    (h : Program.Asks (fun _ _ => True) Q (fun _ => True) p) :
    Program.Asks (fun _ _ => True) Q (fun _ => True) (AuthorityM.store p) := by
  refine Program.asks_bind h ?_
  rintro (e | a) _ <;> trivial

theorem recovers_fail (callId : String) (uncertain : Bool) (errorType errorMessage : String) :
    Program.Asks (fun _ _ => True) GovernedOp.Recovers (fun _ => True)
      (AuthorityM.fail callId uncertain errorType errorMessage) := by
  refine ⟨.inr ⟨callId, uncertain, errorType, errorMessage, rfl⟩, fun r _ => ?_⟩
  cases r <;> trivial

theorem recovers_record (identity : Event) (key type : String) (payload : Dict) :
    Program.Asks (fun _ _ => True) GovernedOp.Recovers (fun _ => True)
      (AuthorityM.record identity key type payload) :=
  ⟨.inl trivial, fun _ _ => trivial⟩

theorem recovers_recoverUnresolved (request : Event) :
    (recoverUnresolved request).Asks (fun _ _ => True) GovernedOp.Recovers (fun _ => True) := by
  refine ⟨.inl trivial, ?_⟩
  rintro (_ | row) _
  · trivial
  show Program.Asks _ _ _ (settleCall request row)
  unfold settleCall
  split
  · refine authority_bind ?_ (fun _ => recovers_record _ _ _ _)
    split
    · exact recovers_fail _ _ _ _
    · trivial
  · refine authority_bind ?_ (fun _ => authority_bind (recovers_record _ _ _ _) (fun _ => trivial))
    split
    · trivial
    · exact recovers_fail _ _ _ _

end callers

/-! ### All callers together -/

/-- How a caller may end: a call that raises `ModelCallFailed` after a reply was given up. -/
def CallEnd.Just (r : CallEnd) (w : CallWorld) : Prop :=
  match r with
  | .completed request result replies => ∀ exc, result = .error exc → Blames request replies w exc
  | .recovered _ _ => True

theorem Blames.remembers {request : Event} {replies : ProviderReplies} {w w' : CallWorld} {exc : Raised}
    (h : Blames request replies w exc) (hw : w.Remembers w') : Blames request replies w' exc :=
  fun hexc e he => hw (h hexc e he)

theorem callers_sound : Pool.Sound timelyRules CallInv CallWorld.Remembers CallEnd.Just where
  refl := .refl
  trans := CallWorld.Remembers.trans
  stable := by
    intro r w w' hw hjust
    cases r with
    | completed request result replies =>
        intro exc hexc
        exact (hjust exc hexc).remembers hw
    | recovered request result => trivial
  drop w m m' h := h.drop
  starts := by
    rintro w p w' m hinv ⟨rfl, A, request, rfl | rfl⟩
    · refine ⟨.refl w', 0, by rwa [zero_add], ?_⟩
      exact Program.safe_bind (keepsCalls_complete A) (fun r w'' held' hr => hr)
    · refine ⟨.refl w', 0, by rwa [zero_add], ?_⟩
      exact Program.safe_bind (keepsCalls_recovers (recovers_recoverUnresolved request))
        (fun r w'' held' _ => trivial)
  env := by
    rintro w _ m hinv ⟨db, rfl, hdb | ⟨runId, staleBefore, now, counts, hdb⟩⟩
    · exact ⟨hinv.harmless (harmless_of_eq hdb), .refl _⟩
    · exact ⟨hinv.harmless (harmless_recoverStale hdb), .refl _⟩

/-- The calls of a store that are in use by nobody. -/
theorem callInv_initial (db : Database) : CallInv { db := db } 0 := by
  refine ⟨rfl, fun t ht => absurd ht (Multiset.notMem_zero t), fun t ht => ?_, ?_⟩
  · cases ht
  · simp

/-! ### How often the provider is asked -/

/-- The provider is asked. -/
def IsProvide : GovernedOp → Prop
  | .provide _ => True
  | _ => False

instance decidableIsProvide : DecidablePred IsProvide := fun op => by
  cases op <;> unfold IsProvide <;> infer_instance

/-- The reply is a success, or leaves the outcome uncertain. -/
def FinalReply : (op : GovernedOp) → governedInterface.Reply op → Prop
  | .provide _, (.ok _ : Except ProviderError ModelResponse) => True
  | .provide _, (.error e : Except ProviderError ModelResponse) => (classifyError e).2 = true
  | _, _ => False

/-- `max_retries_per_call` of the budget of the run. -/
def Authority.maxRetries (A : Authority) (projected : Option Dict) : ℕ :=
  match A.validateBudget (budgetOf (projected.getD [])) with
  | .ok budget => budget.maxRetriesPerCall
  | .error _ => 0

section provides

variable {α β : Type} {request : Event} {n : ℕ}

theorem classifyError_certain {e : ProviderError} (h : (classifyError e).2 = true) :
    (classifyError e).1 = false := by
  unfold classifyError at h ⊢
  split at h <;> simp_all

/-- The program does not ask the provider. -/
abbrev NoProvide (p : Program governedInterface α) : Prop :=
  p.Asks (fun _ _ => True) (fun op => ¬ IsProvide op) (fun _ => True)

theorem noProvide_op (op : GovernedOp) (h : ¬ IsProvide op) : NoProvide (ask op) :=
  ⟨h, fun _ _ => trivial⟩

theorem noProvide_fail (callId : String) (uncertain : Bool) (errorType errorMessage : String) :
    NoProvide (AuthorityM.fail callId uncertain errorType errorMessage) :=
  authority_store (noProvide_op (.failCall callId uncertain errorType errorMessage) id)

theorem noProvide_record (identity : Event) (key type : String) (payload : Dict) :
    NoProvide (AuthorityM.record identity key type payload) :=
  noProvide_op (.record identity key type payload) id

theorem noProvide_audited (key type : String) (payload : Dict) (errorMessage : String) :
    NoProvide (audited request key type payload errorMessage) := by
  refine ⟨id, ?_⟩
  rintro (exc | _) _
  · exact authority_bind (noProvide_fail _ _ _ _) (fun _ => trivial)
  · trivial

theorem noProvide_giveUp (attempt : ℕ) (uncertain : Bool) (error : Raised) :
    NoProvide (giveUp request attempt uncertain error) :=
  authority_bind (noProvide_fail _ _ _ _)
    (fun _ => authority_bind (noProvide_record _ _ _ _) (fun _ => trivial))

theorem noProvide_scheduleRetry (attempt index : ℕ) (error : ProviderError) :
    NoProvide (scheduleRetry request attempt index error) :=
  authority_bind (noProvide_record _ _ _ _) (fun _ => ⟨id, fun _ _ => trivial⟩)

theorem noProvide_ite {c : Prop} [Decidable c] {p q : AuthorityM α} (hp : NoProvide p)
    (hq : NoProvide q) : NoProvide (if c then p else q : AuthorityM α) := by
  split
  · exact hp
  · exact hq

theorem noProvide_reserve (A : Authority) (budget : ModelBudgetConfig) (quote : CallQuote) :
    NoProvide (A.reserve budget quote request) := by
  unfold Authority.reserve
  refine authority_bind ?_ (fun _ => authority_bind
    (authority_store (noProvide_op (.reserve _ _) id)) (fun _ => noProvide_audited _ _ _ _))
  exact noProvide_ite ⟨id, fun _ _ => trivial⟩ trivial

theorem spends_then {p : AuthorityM α} {f : α → AuthorityM β} (h : NoProvide p)
    (hf : ∀ a, Program.Spends IsProvide FinalReply n (f a)) :
    Program.Spends IsProvide FinalReply n (p >>= f : AuthorityM β) := by
  refine Program.spends_bind h ?_
  rintro (e | a) _
  · trivial
  · exact hf a

theorem spends_ite {c : Prop} [Decidable c] {p q : AuthorityM α}
    (hp : Program.Spends IsProvide FinalReply n p) (hq : Program.Spends IsProvide FinalReply n q) :
    Program.Spends IsProvide FinalReply n (if c then p else q : AuthorityM α) := by
  split
  · exact hp
  · exact hq

theorem spends_else {c : Prop} [Decidable c] {p q : AuthorityM α} (hc : ¬ c)
    (hq : Program.Spends IsProvide FinalReply n q) :
    Program.Spends IsProvide FinalReply n (if c then p else q : AuthorityM α) := by
  rw [if_neg hc]
  exact hq

/-- Attempts that are left. -/
theorem attempts_spends (model : String) (left index : ℕ) :
    Program.Spends IsProvide FinalReply left (attempts model request left index) := by
  induction left generalizing index with
  | zero => trivial
  | succ left ih =>
      refine spends_then (authority_store (noProvide_op (.startAttempt _) id)) (fun attempt => ?_)
      refine spends_then (noProvide_audited _ _ _ _) (fun _ => ?_)
      refine .inr ⟨trivial, Nat.succ_pos left, ?_⟩
      have hgiveUp : ∀ {m : ℕ} {error : ProviderError}, Program.Spends IsProvide FinalReply m
          (giveUp request attempt (classifyError error).2 error.raised) :=
        (noProvide_giveUp _ _ _).spends
      rintro (error | response)
      · constructor
        · intro huncertain
          refine spends_else ?_ hgiveUp
          rw [classifyError_certain huncertain]
          exact fun h => Bool.false_ne_true h.1
        · intro _
          exact spends_ite (spends_then (noProvide_scheduleRetry _ _ _) (fun _ => ih (index + 1))) hgiveUp
      · exact ⟨fun _ => trivial, fun _ => trivial⟩

/-- A call asks the provider as often as its budget says. -/
theorem complete_spends (A : Authority) (projected : Option Dict)
    {next : Option Dict → Program governedInterface (Except Raised ModelResponse)}
    (hnext : A.complete request = .request (.projectRun request.runId) next) :
    Program.Spends IsProvide FinalReply (A.maxRetries projected + 1) (next projected) := by
  cases hnext
  refine spends_ite ?_ ?_
  · refine .inr ⟨trivial, Nat.succ_pos _, ?_⟩
    rintro (error | response) <;> exact ⟨fun _ => trivial, fun _ => trivial⟩
  · unfold Authority.maxRetries
    cases hbudget : A.validateBudget (budgetOf (projected.getD [])) with
    | error e => trivial
    | ok budget =>
        refine .inl ⟨id, fun now => .inl ⟨id, fun counts => ?_⟩⟩
        cases counts with
        | error e => trivial
        | ok counts =>
            show @Program.Spends governedInterface _ IsProvide FinalReply (budget.maxRetriesPerCall + 1) _
            have hquote : NoProvide (AuthorityM.pureE (A.quote budget request)) := trivial
            exact spends_then hquote (fun quote =>
              spends_then (noProvide_reserve A budget quote) (fun _ => attempts_spends _ _ _))

end provides

/-! ### Every physical call is counted -/

/-- What the call adds to the committed tokens and cost of its run is its reservation. -/
def Database.Charges (db : Database) (callId : String) : Prop :=
  ∃ row, db.modelCalls.lookup callId = some row ∧ row.held .tokens = row.reservation .tokens ∧
    row.held .cost = row.reservation .cost

theorem charges_of_row {db : Database} {callId : String} {row : ModelCallRow}
    (hrow : db.modelCalls.lookup callId = some row)
    (hstate : row.state = .inFlight ∨ row.state = .unknown) : db.Charges callId := by
  have hrunning : row.state ≠ .completed ∧ row.state ≠ .failed := by
    cases hstate with
    | inl h => rw [h]; exact ⟨nofun, nofun⟩
    | inr h => rw [h]; exact ⟨nofun, nofun⟩
  exact ⟨row, hrow, ModelCallRow.held_eq_reservation hrunning.1 hrunning.2 nofun,
    ModelCallRow.held_eq_reservation hrunning.1 hrunning.2 nofun⟩

theorem Database.CallCounted.charges {db : Database} {callId : String} (h : db.CallCounted callId) :
    db.Charges callId := by
  unfold Database.CallCounted at h
  cases hrow : db.modelCalls.lookup callId with
  | none =>
      rw [hrow] at h
      exact h.elim
  | some row =>
      rw [hrow] at h
      exact charges_of_row hrow h

/-- The outcome of the call is unknown, and its reservation counts. -/
def Database.Quarantined (db : Database) (callId : String) : Prop :=
  ∃ row, db.modelCalls.lookup callId = some row ∧ row.state = .unknown ∧ db.Charges callId

theorem EndedAs.quarantined_iff {db : Database} {callId : String} {uncertain : Bool}
    (h : EndedAs db (callId, uncertain)) : db.Quarantined callId ↔ uncertain = true := by
  obtain ⟨row, hrow, hend⟩ := h
  cases uncertain with
  | true => exact iff_of_true ⟨row, hrow, hend.1, charges_of_row hrow (.inr hend.1)⟩ rfl
  | false =>
      refine iff_of_false ?_ nofun
      rintro ⟨r, hr, hunknown, -⟩
      rw [hrow] at hr
      obtain rfl := Option.some.inj hr
      have hfailed : row.state = .failed := hend
      rw [hfailed] at hunknown
      cases hunknown

/-- A caller that may go on from here while the provider is asked has a call that is counted. -/
theorem counted_of_safe {w : CallWorld} {held rest : Multiset (String × CallPhase)} {request : Event}
    {next : Except ProviderError ModelResponse → Program callInterface CallEnd}
    {post : CallEnd → CallWorld → Multiset (String × CallPhase) → Prop}
    (h : Program.Safe timelyStep CallInv CallWorld.Remembers CallWorld.Remembers post
      (@Program.request callInterface CallEnd (.completing, .provide request) next) w held)
    (hinv : CallInv w (held + rest)) : w.db.CallCounted request.id := by
  obtain ⟨held', hinv', -⟩ := h w rest (.error ⟨.other, ⟨"", ""⟩⟩ : Except ProviderError ModelResponse) _
    (.refl w) hinv ⟨rfl, trivial⟩
  have hcounted := hinv'.counted
  dsimp only at hcounted
  rw [hinv.counted, Bool.false_or, Bool.not_eq_false', decide_eq_true_eq] at hcounted
  exact hcounted

/-- **Every physical call is counted.**  When failures are written in time, the call is counted while
its provider is asked, it is asked no more often than the budget allows and not after a last reply,
and a call that raises `ModelCallFailed` is quarantined exactly if its last error was uncertain. -/
theorem calls_counted {db : Database} {P : Pool callInterface CallEnd CallWorld}
    (h : Pool.Reachable timelyRules ⟨{ db := db }, [], []⟩ P) :
    (∀ request next, @Program.request callInterface CallEnd (.completing, .provide request) next ∈
      P.threads → P.state.db.CallCounted request.id ∧ P.state.db.Charges request.id) ∧
    (∀ (A : Authority) (request : Event) (projected : Option Dict) next,
      A.complete request = .request (.projectRun request.runId) next →
      ∀ l p, Program.Path (next projected) l p →
        l.countP (fun x => IsProvide x.1) ≤ A.maxRetries projected + 1 ∧
        ∀ before op r after, l = before ++ ⟨op, r⟩ :: after → FinalReply op r →
          ∀ x ∈ after, ¬ IsProvide x.1) ∧
    (∀ request exc replies e, @Program.done callInterface CallEnd (.completed request (.error exc) replies) ∈
      P.threads → exc.typeName = "ModelCallFailed" → replies.getLast? = some (.error e) →
      (P.state.db.Quarantined request.id ↔ (classifyError e).2 = true)) := by
  have hstart : Pool.Ok timelyRules CallInv CallWorld.Remembers CallEnd.Just ⟨{ db := db }, [], []⟩ [] :=
    ⟨callInv_initial db, .nil, fun a ha => absurd ha List.not_mem_nil⟩
  obtain ⟨owned, hok⟩ := Pool.ok_of_reachable callers_sound hstart h
  have hthread : ∀ p ∈ P.threads, ∃ held rest, CallInv P.state (held + rest) ∧
      Program.Safe timelyStep CallInv CallWorld.Remembers CallWorld.Remembers
        (fun a s _ => CallEnd.Just a s) p P.state held := by
    intro p hp
    obtain ⟨before, after, hthreads⟩ := List.append_of_mem hp
    have hsafe := hok.threads
    rw [hthreads] at hsafe
    obtain ⟨held, owned₁, owned₂, rfl, -, hp, -⟩ := forall₂_around hsafe
    refine ⟨held, owned₁.sum + owned₂.sum, ?_, hp⟩
    have hinv := hok.invariant
    rwa [List.sum_append, List.sum_cons, add_left_comm] at hinv
  refine ⟨?_, ?_, ?_⟩
  · intro request next hp
    obtain ⟨held, rest, hinv, hsafe⟩ := hthread _ hp
    have hcounted := counted_of_safe hsafe hinv
    exact ⟨hcounted, hcounted.charges⟩
  · intro A request projected next hnext l p hpath
    have hspends := complete_spends A projected hnext
    refine ⟨@Program.Path.count_le _ _ _ _ _ _ _ _ decidableIsProvide hpath hspends, ?_⟩
    rintro before op r after rfl hfinal
    refine hpath.none_after hspends ?_ hfinal
    cases op <;> trivial
  · intro request exc replies e hp hexc hlast
    obtain ⟨held, rest, hinv, hsafe⟩ := hthread _ hp
    exact (hinv.ended _ (hsafe exc rfl hexc e hlast)).quarantined_iff

/-! ### A recovery between the reservation and the first attempt -/

section lateRecovery

/-- What a transaction does, as a reply and a world. -/
def CallWorld.committed {α : Type} (w : CallWorld) (result : Except StoreError (α × Database)) :
    Except StoreError α × CallWorld :=
  match result with
  | .ok (a, db) => (.ok a, { w with db := db })
  | .error e => (.error e, w)

/-- The clock stands still, and the provider does not reply. -/
def patientAct (clock : DateTime) : (op : CallRole × GovernedOp) → CallWorld →
    Option (governedInterface.Reply op.2 × CallWorld)
  | (_, .projectRun runId), w => some (w.db.loadProjection "run" runId, w)
  | (_, .modelCall callId), w => some (w.db.modelCalls.lookup callId, w)
  | (_, .recoverStale runId staleBefore), w =>
      some (w.committed (w.db.recoverStaleModelCalls runId staleBefore clock))
  | (_, .reserve c limits), w => some (w.committed (w.db.reserveModelCall c limits clock))
  | (_, .startAttempt callId), w => some (w.committed (w.db.startModelCallAttempt callId clock))
  | (role, .failCall callId uncertain errorType errorMessage), w =>
      match w.db.failModelCall callId uncertain errorType errorMessage clock with
      | .ok db => some ((.ok () : Except StoreError Unit), { w with
          db := db
          givenUp := if role = .completing then (callId, uncertain) :: w.givenUp else w.givenUp })
      | .error e => some ((.error e : Except StoreError Unit), w)
  | (_, .record identity key type payload), w =>
      match w.db.append none (GovernedWorld.auditEvent identity key type payload clock) clock with
      | .ok (_, db) => some ((.ok () : Except Raised Unit), { w with db := db })
      | .error e => some ((.error e.raised : Except Raised Unit), w)
  | (_, .now), w => some (clock, w)
  | _, _ => none

theorem CallWorld.committed_commits {α : Type} (w : CallWorld)
    (result : Except StoreError (α × Database)) :
    w.Commits result (w.committed result).1 (w.committed result).2 := by
  unfold CallWorld.Commits CallWorld.committed
  split <;> exact ⟨rfl, rfl⟩

/-- The steps of a patient run. -/
def patientStrategy (clock : DateTime) : @Program.Strategy callInterface CallWorld sharedStep where
  act := patientAct clock
  sound := by
    rintro ⟨role, op⟩ w r h
    cases op with
    | projectRun runId => cases h; exact ⟨rfl, rfl⟩
    | modelCall callId => cases h; exact ⟨rfl, rfl⟩
    | now => cases h; rfl
    | recoverStale runId staleBefore =>
        cases h
        exact ⟨clock, w.committed_commits _⟩
    | reserve c limits =>
        cases h
        exact ⟨clock, w.committed_commits _⟩
    | startAttempt callId =>
        cases h
        exact ⟨clock, w.committed_commits _⟩
    | failCall callId uncertain errorType errorMessage =>
        refine ⟨clock, ?_⟩
        unfold CallWorld.Fails
        simp only [patientAct] at h
        split at h
        next =>
          cases h
          exact ⟨rfl, rfl⟩
        next =>
          cases h
          exact ⟨rfl, rfl⟩
    | record identity key type payload =>
        refine ⟨none, clock, ?_⟩
        unfold CallWorld.Audits
        simp only [patientAct] at h
        split at h
        next =>
          cases h
          exact ⟨rfl, rfl⟩
        next =>
          cases h
          exact ⟨rfl, rfl⟩
    | _ => cases h

/-- A run with physical calls. -/
def physicalRun : Database :=
  Database.initial.saveProjection "run" "run-1"
    [("status", .str "running"), ("model_mode", .str "deepseek")] 1

/-- The request of a turn. -/
def askedEvent : Event where
  id := "request-1"
  runId := "run-1"
  taskId := "task-1"
  type := "model.requested"
  source := "scout"
  payload := []
  createdAt := Database.atSecond 0

/-- A provider with the default budget. -/
def defaultAuthority : Authority where
  provider := { className := "DeepSeekProvider" }
  validateBudget _ := .ok defaultBudget
  encodedLength _ := 100

/-- One caller makes the call, another recovers it. -/
def bothCallers : Pool callInterface CallEnd CallWorld where
  state := { db := physicalRun }
  threads := [completion defaultAuthority askedEvent, recovery askedEvent]

/-- The provider is asked for a call that is not counted. -/
def asksUncounted (P : Pool callInterface CallEnd CallWorld) : Bool :=
  P.threads.any (fun
    | .request (.completing, .provide request) _ => !decide (P.state.db.CallCounted request.id)
    | _ => false)

/-- The two callers in the order of a schedule. -/
def served (schedule : List ℕ) : Pool callInterface CallEnd CallWorld :=
  @Pool.follow callInterface CallEnd CallWorld callRules (patientStrategy (Database.atSecond 1))
    bothCallers schedule

theorem bothCallers_reachable {R : PoolRules callInterface CallEnd CallWorld}
    (hR : R.starts = callRules.starts) :
    Pool.Reachable R ⟨{ db := physicalRun }, [], []⟩ bothCallers := by
  have hrecovery : Pool.Step R ⟨{ db := physicalRun }, [], []⟩
      ⟨{ db := physicalRun }, [recovery askedEvent], []⟩ := by
    refine .start ?_
    rw [hR]
    exact ⟨rfl, defaultAuthority, askedEvent, .inr rfl⟩
  have hcompletion : Pool.Step R ⟨{ db := physicalRun }, [recovery askedEvent], []⟩ bothCallers := by
    refine .start ?_
    rw [hR]
    exact ⟨rfl, defaultAuthority, askedEvent, .inl rfl⟩
  exact (Relation.ReflTransGen.single hrecovery).tail hcompletion

theorem asksUncounted_spec {P : Pool callInterface CallEnd CallWorld} (h : asksUncounted P = true) :
    ∃ request next, @Program.request callInterface CallEnd (.completing, .provide request) next ∈
      P.threads ∧ ¬ P.state.db.CallCounted request.id := by
  obtain ⟨p, hp, hasks⟩ := List.any_eq_true.mp h
  split at hasks
  next request next =>
    refine ⟨request, next, hp, ?_⟩
    simpa using hasks
  next => cases hasks

/-- `recover_unresolved` has read the call before its first attempt, and writes it off as never
started while the provider is asked. -/
theorem late_recovery_uncounts : ∃ P, Pool.Reachable callRules ⟨{ db := physicalRun }, [], []⟩ P ∧
    ∃ request next, @Program.request callInterface CallEnd (.completing, .provide request) next ∈
      P.threads ∧ ¬ P.state.db.CallCounted request.id :=
  ⟨served [0, 0, 0, 0, 0, 1, 0, 0, 1],
    (bothCallers_reachable rfl).trans (Pool.follow_reachable _ _ _),
    asksUncounted_spec (by decide +kernel)⟩

instance (w : CallWorld) (op : callInterface.Op) : Decidable (Timely w op) := by
  obtain ⟨role, op⟩ := op
  cases op with
  | projectRun runId => cases role <;> exact inferInstanceAs (Decidable (_ = _))
  | failCall callId uncertain errorType errorMessage =>
      cases role with
      | completing => exact .isTrue trivial
      | recovering =>
          exact decidable_of_iff
            (∀ row ∈ w.db.modelCalls.lookup callId,
              if uncertain then row.state ≠ .failed else row.attemptCount = 0) Iff.rfl
  | _ => cases role <;> exact .isTrue trivial

/-- The first caller alone, up to where its provider is asked. -/
def timelyServed : Pool callInterface CallEnd CallWorld :=
  @Pool.follow callInterface CallEnd CallWorld timelyRules
    ((patientStrategy (Database.atSecond 1)).restrict Timely) bothCallers [0, 0, 0, 0, 0, 0, 0]

/-- The provider is asked for a call. -/
def asksProvider (P : Pool callInterface CallEnd CallWorld) : Bool :=
  P.threads.any (fun
    | .request (.completing, .provide _) _ => true
    | _ => false)

theorem asksProvider_spec {P : Pool callInterface CallEnd CallWorld} (h : asksProvider P = true) :
    ∃ request next, @Program.request callInterface CallEnd (.completing, .provide request) next ∈
      P.threads := by
  obtain ⟨p, hp, hasks⟩ := List.any_eq_true.mp h
  split at hasks
  next request next => exact ⟨request, next, hp⟩
  next => cases hasks

/-- The first caller asks its provider, and its call is counted. -/
theorem timelyServed_counted : ∃ request next,
    @Program.request callInterface CallEnd (.completing, .provide request) next ∈
      timelyServed.threads ∧ timelyServed.state.db.CallCounted request.id := by
  have hasks : asksProvider timelyServed = true := by decide +kernel
  obtain ⟨request, next, hmem⟩ := asksProvider_spec hasks
  have hreach : Pool.Reachable timelyRules ⟨{ db := physicalRun }, [], []⟩ timelyServed :=
    (@bothCallers_reachable timelyRules rfl).trans (Pool.follow_reachable _ _ _)
  exact ⟨request, next, hmem, ((calls_counted hreach).1 request next hmem).1⟩

end lateRecovery

end CrazyHarness
