import CrazyHarness.Lib.Except
import CrazyHarness.Lib.Table
import CrazyHarness.Core.Events
import CrazyHarness.Tools.Schemas

/-! # The operation ledger

`OperationLedger`: one record per external operation, found by its identifier and, through
`_operation_ids_by_key`, by the idempotency key of the call.  Every method holds the
ledger's lock, so each is one atomic step.  A ledger with a file appends the record to it on
every change; opening the file again keeps the last line of every operation and marks the
started ones unknown.

* `transition_cases` says what a transition can do: nothing, when the record is already in
  the target state, or the one allowed change of the record.
* `LedgerOk` is what every ledger keeps (`ledgerOk_built`): the index and the records agree,
  and reading the file again gives them back. -/

namespace CrazyHarness

open Lib

/-- The states of an operation. -/
inductive OperationState where
  | planned
  | started
  | succeeded
  | failed
  | unknown
  | reconciling
deriving DecidableEq

/-- `state.value`. -/
def OperationState.value : OperationState → String
  | .planned => "planned"
  | .started => "started"
  | .succeeded => "succeeded"
  | .failed => "failed"
  | .unknown => "unknown"
  | .reconciling => "reconciling"

/-- `_ALLOWED_TRANSITIONS`. -/
def OperationState.allowed : OperationState → List OperationState
  | .planned => [.started]
  | .started => [.succeeded, .failed, .unknown]
  | .unknown => [.reconciling]
  | .reconciling => [.succeeded, .failed, .unknown]
  | .succeeded => []
  | .failed => []

/-- The durable record of one operation.  The fingerprint is kept as the value it digests:
the call, with the items of every dictionary sorted. -/
structure OperationRecord where
  operationId : String
  idempotencyKey : String
  callId : String
  toolName : String
  requestFingerprint : Json
  state : OperationState
  result : Option ToolResult := none
  error : Option String := none
deriving DecidableEq

/-- `_call_fingerprint`. -/
def callFingerprint (call : ToolCall) : Json :=
  Json.canonical (.dict [("name", .str call.name), ("args", .dict call.args)])

/-- The exceptions of the ledger. -/
inductive LedgerError where
  | idempotencyConflict (key : String)
  | unknownOperation (operationId : String)
  | transition (source target : OperationState)
  | cannotReconcile (state : OperationState)
  | invalidOutcome
deriving DecidableEq

/-- The text of a ledger exception, `str(exc)`. -/
def LedgerError.text : LedgerError → String
  | .idempotencyConflict key =>
      "idempotency key " ++ Json.reprStr key ++ " was reused for a different call"
  | .unknownOperation operationId => Json.reprStr ("unknown operation: " ++ operationId)
  | .transition source target =>
      "illegal operation transition: " ++ source.value ++ " -> " ++ target.value
  | .cannotReconcile state => "cannot reconcile operation in state " ++ Json.reprStr state.value
  | .invalidOutcome => "reconciliation outcome must be succeeded, failed, or unknown"

/-- The ledger in memory, with the lines of its file if it has one. -/
structure OperationLedger where
  records : Table OperationRecord.operationId
  idsByKey : Table (Prod.fst : String × String → String)
  file : Option (List OperationRecord)

namespace OperationLedger

/-- A new ledger, in memory only or over an empty file. -/
def empty (durable : Bool) : OperationLedger :=
  ⟨.empty, .empty, if durable then some [] else none⟩

/-- `_store`. -/
def store (L : OperationLedger) (r : OperationRecord) : OperationLedger where
  records := L.records.upsert r
  idsByKey := L.idsByKey.upsert (r.idempotencyKey, r.operationId)
  file := L.file.map (· ++ [r])

/-- `get`. -/
def get (L : OperationLedger) (operationId : String) : Except LedgerError OperationRecord :=
  match L.records.lookup operationId with
  | some r => .ok r
  | none => .error (.unknownOperation operationId)

/-- `by_idempotency_key`. -/
def byIdempotencyKey (L : OperationLedger) (key : String) : Option OperationRecord :=
  (L.idsByKey.lookup key).bind (fun e => L.records.lookup e.2)

/-- `plan`; `fresh` is the identifier drawn for a new record. -/
def plan (L : OperationLedger) (i : ToolInvocation) (fresh : String) :
    Except LedgerError (OperationRecord × OperationLedger) :=
  match L.byIdempotencyKey i.idempotencyKey with
  | some existing =>
      if existing.requestFingerprint ≠ callFingerprint i.call then
        .error (.idempotencyConflict i.idempotencyKey)
      else .ok (existing, L)
  | none =>
      let r : OperationRecord :=
        { operationId := fresh, idempotencyKey := i.idempotencyKey, callId := i.callId,
          toolName := i.call.name, requestFingerprint := callFingerprint i.call, state := .planned }
      .ok (r, L.store r)

/-- `_transition`. -/
def transition (L : OperationLedger) (operationId : String) (target : OperationState)
    (result : Option ToolResult) (error : Option String) :
    Except LedgerError (OperationRecord × OperationLedger) :=
  match L.get operationId with
  | .error e => .error e
  | .ok current =>
      if current.state = target then .ok (current, L)
      else if target ∈ current.state.allowed then
        let r := { current with state := target, result := result, error := error }
        .ok (r, L.store r)
      else .error (.transition current.state target)

def start (L : OperationLedger) (operationId : String) := L.transition operationId .started none none

def succeed (L : OperationLedger) (operationId : String) (result : ToolResult) :=
  L.transition operationId .succeeded (some result) none

def fail (L : OperationLedger) (operationId error : String) (result : Option ToolResult) :=
  L.transition operationId .failed result (some error)

def markUnknown (L : OperationLedger) (operationId reason : String) :=
  L.transition operationId .unknown none (some reason)

def beginReconcile (L : OperationLedger) (operationId : String) :=
  L.transition operationId .reconciling none none

/-- `recover_incomplete`: every started operation becomes unknown. -/
def recoverIncomplete (L : OperationLedger) (reason : String) : OperationLedger :=
  (L.records.rows.filter (fun r => r.state = .started)).foldl
    (fun L r =>
      match L.markUnknown r.operationId reason with
      | .ok (_, L') => L'
      | .error _ => L)
    L

/-- One line of `_load`. -/
def loadLine (L : OperationLedger) (r : OperationRecord) : OperationLedger :=
  { L with
    records := L.records.upsert r
    idsByKey := L.idsByKey.upsert (r.idempotencyKey, r.operationId) }

/-- `_load`: the last line of every operation. -/
def load (lines : List OperationRecord) : OperationLedger :=
  { lines.foldl loadLine ⟨.empty, .empty, none⟩ with file := some lines }

/-- `OperationLedger(path)` over the file of this one, after the process has died. -/
def reopen (L : OperationLedger) : OperationLedger :=
  match L.file with
  | none => .empty false
  | some lines =>
      (load lines).recoverIncomplete "ledger reopened after an incomplete external operation"

/-- `f"op_{uuid4().hex}"`, the `n`-th one drawn. -/
def newOperationId (n : ℕ) : String := "op_" ++ uuid4 n

theorem newOperationId_inj {m n : ℕ} : newOperationId m = newOperationId n ↔ m = n := by
  rw [newOperationId, newOperationId, uuid4, uuid4]
  simp only [String.append_right_inj]
  constructor
  · intro h
    exact Nat.repr_injective h
  · rintro rfl
    rfl

/-- The ledgers that the class can be brought to, with the identifiers drawn for them. -/
inductive Built : OperationLedger → ℕ → Prop
  | new (durable : Bool) : Built (empty durable) 0
  | plan {L L' : OperationLedger} {n : ℕ} {i : ToolInvocation} {r : OperationRecord}
      (h : Built L n) (hp : L.plan i (newOperationId n) = .ok (r, L')) : Built L' (n + 1)
  | transition {L L' : OperationLedger} {n : ℕ} {operationId : String} {target : OperationState}
      {result : Option ToolResult} {error : Option String} {r : OperationRecord}
      (h : Built L n) (ht : L.transition operationId target result error = .ok (r, L')) : Built L' n
  | reopen {L : OperationLedger} {n : ℕ} (h : Built L n) : Built L.reopen n

/-! ### What each method does -/

theorem get_ok_iff {L : OperationLedger} {operationId : String} {r : OperationRecord} :
    L.get operationId = .ok r ↔ L.records.lookup operationId = some r := by
  unfold get
  cases L.records.lookup operationId <;> simp

theorem transition_cases {L L' : OperationLedger} {operationId : String} {target : OperationState}
    {result : Option ToolResult} {error : Option String} {r : OperationRecord}
    (h : L.transition operationId target result error = .ok (r, L')) :
    (L' = L ∧ L.records.lookup operationId = some r ∧ r.state = target) ∨
      ∃ current, L.records.lookup operationId = some current ∧ target ∈ current.state.allowed ∧
        r = { current with state := target, result := result, error := error } ∧ L' = L.store r := by
  unfold transition at h
  split at h
  · cases h
  · next current hget =>
    have hcur := get_ok_iff.mp hget
    split at h
    · next hsame =>
      obtain ⟨rfl, rfl⟩ := Prod.mk.inj (Except.ok.inj h)
      exact .inl ⟨rfl, hcur, hsame⟩
    · split at h
      · next hallowed =>
        obtain ⟨rfl, rfl⟩ := Prod.mk.inj (Except.ok.inj h)
        exact .inr ⟨current, hcur, hallowed, rfl, rfl⟩
      · cases h

theorem plan_cases {L L' : OperationLedger} {i : ToolInvocation} {fresh : String}
    {r : OperationRecord} (h : L.plan i fresh = .ok (r, L')) :
    (L' = L ∧ L.byIdempotencyKey i.idempotencyKey = some r) ∨
      L.byIdempotencyKey i.idempotencyKey = none ∧ r.operationId = fresh ∧
        r.idempotencyKey = i.idempotencyKey ∧ r.state = .planned ∧ L' = L.store r := by
  unfold plan at h
  split at h
  · next existing hkey =>
    split at h
    · cases h
    · obtain ⟨rfl, rfl⟩ := Prod.mk.inj (Except.ok.inj h)
      exact .inl ⟨rfl, hkey⟩
  · next hkey =>
    obtain ⟨rfl, rfl⟩ := Prod.mk.inj (Except.ok.inj h)
    exact .inr ⟨hkey, rfl, rfl, rfl, rfl⟩

/-- No transition leads back to a planned operation. -/
theorem not_planned_of_allowed {s t : OperationState} (h : t ∈ s.allowed) : t ≠ .planned := by
  cases s <;> cases t <;> simp_all [OperationState.allowed]

theorem load_append (lines : List OperationRecord) (r : OperationRecord) :
    load (lines ++ [r]) = { loadLine (load lines) r with file := some (lines ++ [r]) } := by
  unfold load
  rw [List.foldl_append]
  rfl

/-! ### The invariant -/

/-- Every record is found through its key, every key leads to a record with it, all
identifiers have been drawn, and the file holds what is in memory. -/
structure LedgerOk (L : OperationLedger) (drawn : ℕ) : Prop where
  named : ∀ id r, L.records.lookup id = some r →
    L.idsByKey.lookup r.idempotencyKey = some (r.idempotencyKey, id)
  indexed : ∀ k e, L.idsByKey.lookup k = some e →
    ∃ r, L.records.lookup e.2 = some r ∧ r.idempotencyKey = k
  drawn : ∀ id r, L.records.lookup id = some r → ∃ m < drawn, id = newOperationId m
  filed : ∀ lines, L.file = some lines →
    (load lines).records = L.records ∧ (load lines).idsByKey = L.idsByKey

theorem ledgerOk_empty (durable : Bool) (n : ℕ) : LedgerOk (empty durable) n where
  named := by intro id r h; cases h
  indexed := by intro k e h; cases h
  drawn := by intro id r h; cases h
  filed := by
    intro lines h
    cases durable with
    | false => cases h
    | true => cases h; exact ⟨rfl, rfl⟩

/-- A record may be written when it is new under its key or the record of its key. -/
theorem LedgerOk.store {L : OperationLedger} {n n' : ℕ} {r : OperationRecord} (h : LedgerOk L n)
    (hn : n ≤ n') (hid : ∃ m < n', r.operationId = newOperationId m)
    (hown : ∀ s, L.records.lookup r.operationId = some s → s.idempotencyKey = r.idempotencyKey)
    (hkey : ∀ e, L.idsByKey.lookup r.idempotencyKey = some e → e.2 = r.operationId) :
    LedgerOk (L.store r) n' where
  named := by
    intro id s hs
    simp only [OperationLedger.store, Table.lookup_upsert] at hs ⊢
    split at hs
    next hr =>
      cases hs
      rw [if_pos rfl, hr]
    next hne =>
      have hold := h.named id s hs
      split
      next hk =>
        rw [hk] at hold
        exact absurd (hkey _ hold) hne
      next => exact hold
  indexed := by
    intro k e he
    simp only [OperationLedger.store, Table.lookup_upsert] at he ⊢
    split at he
    next hk =>
      cases he
      exact ⟨r, if_pos rfl, hk.symm⟩
    next hk =>
      obtain ⟨s, hs, hsk⟩ := h.indexed k e he
      have hne : e.2 ≠ r.operationId := by
        intro heq
        rw [heq] at hs
        exact hk (hsk.symm.trans (hown s hs))
      exact ⟨s, by rw [if_neg hne]; exact hs, hsk⟩
  drawn := by
    intro id s hs
    simp only [OperationLedger.store, Table.lookup_upsert] at hs
    split at hs
    next hr =>
      rw [hr]
      exact hid
    next =>
      obtain ⟨m, hm, hid⟩ := h.drawn id s hs
      exact ⟨m, lt_of_lt_of_le hm hn, hid⟩
  filed := by
    intro lines hl
    obtain ⟨old, hold, rfl⟩ := Option.map_eq_some_iff.mp hl
    obtain ⟨hrec, hids⟩ := h.filed old hold
    rw [load_append, loadLine, hrec, hids]
    exact ⟨rfl, rfl⟩

theorem LedgerOk.mono {L : OperationLedger} {n n' : ℕ} (h : LedgerOk L n) (hn : n ≤ n') :
    LedgerOk L n' :=
  { h with
    drawn := by
      intro id r hr
      obtain ⟨m, hm, hid⟩ := h.drawn id r hr
      exact ⟨m, lt_of_lt_of_le hm hn, hid⟩ }

theorem LedgerOk.byIdempotencyKey_iff {L : OperationLedger} {n : ℕ} {k : String}
    {r : OperationRecord} (h : LedgerOk L n) :
    L.byIdempotencyKey k = some r ↔
      L.records.lookup r.operationId = some r ∧ r.idempotencyKey = k := by
  unfold byIdempotencyKey
  rw [Option.bind_eq_some_iff]
  constructor
  · rintro ⟨e, he, hr⟩
    obtain ⟨s, hs, hk⟩ := h.indexed k e he
    have hsr : s = r := Option.some.inj (hs.symm.trans hr)
    subst hsr
    rw [Table.key_of_lookup hr]
    exact ⟨hr, hk⟩
  · rintro ⟨hr, rfl⟩
    exact ⟨_, h.named _ _ hr, hr⟩

theorem LedgerOk.plan {L L' : OperationLedger} {n : ℕ} {i : ToolInvocation} {r : OperationRecord}
    (h : LedgerOk L n) (hp : L.plan i (newOperationId n) = .ok (r, L')) : LedgerOk L' (n + 1) := by
  rcases plan_cases hp with ⟨rfl, -⟩ | ⟨hnone, hid, hk, -, rfl⟩
  · exact h.mono (Nat.le_succ n)
  · refine h.store (Nat.le_succ n) ⟨n, Nat.lt_succ_self n, hid⟩ ?_ ?_
    · intro s hs
      obtain ⟨m, hm, heq⟩ := h.drawn _ s hs
      have := newOperationId_inj.mp (hid.symm.trans heq)
      omega
    · intro e he
      obtain ⟨s, hs, hsk⟩ := h.indexed _ e he
      have hsome : L.byIdempotencyKey i.idempotencyKey = some s := by
        rw [h.byIdempotencyKey_iff, Table.key_of_lookup hs]
        exact ⟨hs, hsk.trans hk⟩
      rw [hnone] at hsome
      cases hsome

theorem LedgerOk.transition {L L' : OperationLedger} {n : ℕ} {operationId : String}
    {target : OperationState} {result : Option ToolResult} {error : Option String}
    {r : OperationRecord} (h : LedgerOk L n)
    (ht : L.transition operationId target result error = .ok (r, L')) : LedgerOk L' n := by
  rcases transition_cases ht with ⟨rfl, -, -⟩ | ⟨current, hcur, -, rfl, rfl⟩
  · exact h
  · have hid := Table.key_of_lookup hcur
    refine h.store le_rfl ?_ ?_ ?_
    · exact hid ▸ h.drawn _ _ hcur
    · intro s hs
      rw [hid, hcur] at hs
      cases hs
      rfl
    · intro e he
      have := h.named _ _ hcur
      rw [he] at this
      cases this
      exact hid.symm

theorem LedgerOk.recoverIncomplete {L : OperationLedger} {n : ℕ} (h : LedgerOk L n)
    (reason : String) : LedgerOk (L.recoverIncomplete reason) n := by
  unfold OperationLedger.recoverIncomplete
  generalize L.records.rows.filter (fun r => r.state = .started) = started
  induction started generalizing L with
  | nil => exact h
  | cons r started ih =>
      rw [List.foldl_cons]
      cases hm : L.markUnknown r.operationId reason with
      | error e => exact ih h
      | ok out => exact ih (LedgerOk.transition h (r := out.1) hm)

theorem LedgerOk.reopen {L : OperationLedger} {n : ℕ} (h : LedgerOk L n) : LedgerOk L.reopen n := by
  unfold OperationLedger.reopen
  cases hf : L.file with
  | none => exact ledgerOk_empty false n
  | some lines =>
      obtain ⟨hrec, hids⟩ := h.filed lines hf
      refine LedgerOk.recoverIncomplete ?_ _
      exact
        { named := by rw [hrec, hids]; exact h.named
          indexed := by rw [hrec, hids]; exact h.indexed
          drawn := by rw [hrec]; exact h.drawn
          filed := by
            intro lines' hl
            cases hl
            exact ⟨rfl, rfl⟩ }

theorem ledgerOk_built {L : OperationLedger} {n : ℕ} (h : Built L n) : LedgerOk L n := by
  induction h with
  | new durable => exact ledgerOk_empty durable 0
  | plan _ hp ih => exact ih.plan hp
  | transition _ ht ih => exact ih.transition ht
  | reopen _ ih => exact ih.reopen

end OperationLedger

end CrazyHarness
