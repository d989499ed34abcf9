import CrazyHarness.Store.Events

/-! # Work claims

The leases under which the scheduler works on deliveries: a claim key is held by an owner
under a fencing token, which grows by one each time the key is taken.  `claimWork` takes a
bundle of keys, `renewWorkClaims` and `finishWorkClaims` act for the holder of a bundle,
`failWorkClaimBundle` fences everything taken together with one key, and `append` is the
event append of a dispatch, which must still hold its bundle. -/

namespace CrazyHarness

open Lib

/-- A bundle of claims: key and fencing token. -/
abbrev Claims := List (String × ℤ)

/-- The dispatch under which a thread writes; `cancelled` is the reason of its cancellation. -/
structure DispatchContext where
  workerId : String
  deliveryId : String
  claimOwnerId : String
  claimTokens : Claims
  cancelled : Option String := none
deriving DecidableEq

namespace WorkClaimRow

/-- The row of a key that is taken by `ownerId`; the token fences every earlier owner. -/
def taken (key ownerId : String) (now : DateTime) (ttlSeconds : ℤ) (old : Option WorkClaimRow) :
    WorkClaimRow where
  claimKey := key
  ownerId := ownerId
  fencingToken := (old.map (fun r => r.fencingToken + 1)).getD 1
  state := .active
  claimedAt := now
  expiresAt := now.addSeconds ttlSeconds
  updatedAt := now

/-- The row of a claim whose deadline is moved. -/
def renewed (r : WorkClaimRow) (now : DateTime) (ttlSeconds : ℤ) : WorkClaimRow :=
  { r with expiresAt := now.addSeconds ttlSeconds, updatedAt := now }

/-- The row of a claim that ends. -/
def ended (r : WorkClaimRow) (now : DateTime) (state : WorkClaimState) : WorkClaimRow :=
  { r with state := state, updatedAt := now }

@[simp] theorem renewed_claimKey (r : WorkClaimRow) (now : DateTime) (ttlSeconds : ℤ) :
    (r.renewed now ttlSeconds).claimKey = r.claimKey := rfl

@[simp] theorem ended_claimKey (r : WorkClaimRow) (now : DateTime) (state : WorkClaimState) :
    (r.ended now state).claimKey = r.claimKey := rfl

/-- Someone holds the key and its deadline has not passed. -/
def Held (now : DateTime) (r : WorkClaimRow) : Prop :=
  r.state = .active ∧ now.instant < r.expiresAt.instant

instance (now : DateTime) : DecidablePred (Held now) := fun r =>
  inferInstanceAs (Decidable (r.state = .active ∧ now.instant < r.expiresAt.instant))

/-- The row is the claim `(ownerId, token)`. -/
def IsClaim (ownerId : String) (token : ℤ) (r : WorkClaimRow) : Prop :=
  r.ownerId = ownerId ∧ r.fencingToken = token

instance (ownerId : String) (token : ℤ) : DecidablePred (IsClaim ownerId token) := fun r =>
  inferInstanceAs (Decidable (r.ownerId = ownerId ∧ r.fencingToken = token))

end WorkClaimRow

namespace Database

/-- `_work_claims_are_current`. -/
def workClaimsAreCurrent (db : Database) (claims : Claims) (ownerId : String) (now : DateTime) :
    Bool :=
  claims.all (fun claim =>
    match db.workClaims.lookup claim.1 with
    | none => false
    | some row => decide (row.IsClaim ownerId claim.2 ∧ row.Held now))

/-- `UPDATE work_claims SET f WHERE claim_key = ? AND owner_id = ? AND fencing_token = ?`, for
every claim of a bundle. -/
def updateClaims (db : Database) (ownerId : String) (f : WorkClaimRow → WorkClaimRow)
    (hf : ∀ r, (f r).claimKey = r.claimKey) : Claims → Database
  | [] => db
  | (key, token) :: claims =>
      updateClaims { db with
        workClaims := db.workClaims.updateWhere (fun r => r.claimKey = key ∧ r.IsClaim ownerId token) f
          (fun r _ => hf r) } ownerId f hf claims

/-- The run is held by a checkpoint barrier whose deadline has not passed. -/
def barrierHolds (db : Database) (runId : Option String) (now : DateTime) : Except StoreError Bool :=
  match runId.bind (db.loadProjection "run") with
  | none => .ok false
  | some run =>
      match run.get? "checkpoint_barrier_expires_at" with
      | none => .ok false
      | some v =>
          if ¬ v.truthy then .ok false
          else
            match v.asTime with
            | none => .error (.valueError "Invalid isoformat string")
            | some deadline =>
                if deadline.Aware then .ok (now.instant < deadline.instant) else .error .typeError

/-- Take every key of the list for `ownerId`. -/
def takeKeys (db : Database) (ownerId : String) (now : DateTime) (ttlSeconds : ℤ) :
    List String → Claims × Database
  | [] => ([], db)
  | key :: keys =>
      let row := WorkClaimRow.taken key ownerId now ttlSeconds (db.workClaims.lookup key)
      let (tokens, db') :=
        takeKeys { db with workClaims := db.workClaims.upsert row } ownerId now ttlSeconds keys
      ((key, row.fencingToken) :: tokens, db')

/-- `claim_work`: every key or none; `none` leaves the table alone. -/
def claimWork (db : Database) (claimKeys : List String) (ownerId : String) (ttlSeconds : ℤ)
    (now : DateTime) (runId : Option String) : Except StoreError (Option Claims × Database) := do
  let keys := claimKeys.dedup.insertionSort (· ≤ ·)
  ensure (keys ≠ []) (.valueError "work claim requires at least one key")
  ensure (1 ≤ ttlSeconds) (.valueError "work claim ttl must be positive")
  ensure now.Aware (.valueError "work claim clock must be timezone-aware")
  let barrier ← db.barrierHolds runId now
  if barrier || keys.any (fun key => (db.workClaims.lookup key).any (fun r => r.Held now)) then
    return (none, db)
  else
    let taken := db.takeKeys ownerId now ttlSeconds keys
    return (some taken.1, taken.2)

/-- `renew_work_claims`. -/
def renewWorkClaims (db : Database) (claims : Claims) (ownerId : String) (ttlSeconds : ℤ)
    (now : DateTime) : Except StoreError (Bool × Database) := do
  ensure (claims ≠ []) (.valueError "renewing work claims requires at least one claim")
  ensure (1 ≤ ttlSeconds) (.valueError "work claim ttl must be positive")
  ensure now.Aware (.valueError "work claim clock must be timezone-aware")
  if db.workClaimsAreCurrent claims ownerId now then
    return (true, db.updateClaims ownerId (·.renewed now ttlSeconds)
      (fun r => r.renewed_claimKey now ttlSeconds) claims)
  else
    return (false, db)

/-- The run has been cancelled or is being cancelled. -/
def runCancelled (db : Database) (runId : String) : Bool :=
  db.runStatus runId ∈ [some (.str "cancelling"), some (.str "cancelled")]

/-- Append the final fact of a finished bundle, if there is one. -/
def appendFinal (db : Database) (finalEvent : Option Event) : Except StoreError Database :=
  match finalEvent with
  | none => .ok db
  | some e => do
      let (_, db) ← db.appendInTransaction e
      return db

/-- `finish_work_claims`: fence, append the final fact if there is one, end every claim. -/
def finishWorkClaims (db : Database) (claims : Claims) (ownerId : String) (state : WorkClaimState)
    (now : DateTime) (finalEvent : Option Event) (allowCancelledRun : Bool) :
    Except StoreError (Bool × Database) := do
  ensure (state ≠ .active) (.valueError "invalid terminal work claim state: active")
  ensure (claims ≠ []) (.valueError "finishing work claims requires at least one claim")
  ensure now.Aware (.valueError "work claim clock must be timezone-aware")
  if finalEvent.any (fun e => !allowCancelledRun && db.runCancelled e.runId) then
    return (false, db)
  else if db.workClaimsAreCurrent claims ownerId now then do
    let db ← db.appendFinal finalEvent
    return (true, db.updateClaims ownerId (·.ended now state)
      (fun r => r.ended_claimKey now state) claims)
  else
    return (false, db)

/-- `fail_work_claim_bundle`: fence every key claimed together with one key. -/
def failWorkClaimBundle (db : Database) (claimKey : String) (now : DateTime) :
    Except StoreError (ℕ × Database) :=
  if ¬ now.Aware then
    .error (.valueError "work claim invalidation clock must be timezone-aware")
  else
    match db.workClaims.lookup claimKey with
    | none => .ok (0, db)
    | some row =>
        if row.state ≠ .active then .ok (0, db)
        else
          let bundle : WorkClaimRow → Prop := fun r =>
            r.ownerId = row.ownerId ∧ r.claimedAt = row.claimedAt ∧ r.state = .active
          .ok (db.workClaims.rowcount bundle, { db with
            workClaims := db.workClaims.updateWhere bundle (·.ended now .failed)
              (fun r _ => r.ended_claimKey now .failed) })

/-- What a dispatch must still hold to write to a run; other threads are not checked. -/
def checkDispatch (db : Database) (dispatch : Option DispatchContext) (runId : String)
    (now : DateTime) : Except StoreError Unit :=
  match dispatch with
  | none => .ok ()
  | some d => do
      ensure (d.cancelled.isNone ∧ d.claimTokens ≠ [])
        (.workClaimLost (d.cancelled.getD "dispatch is no longer writable"))
      ensure (db.workClaimsAreCurrent d.claimTokens d.claimOwnerId now)
        (.workClaimLost "event append rejected by dispatch fencing token")
      ensure (¬ db.runCancelled runId)
        (.workClaimLost "event append rejected because the run is cancelled")
      ensure (db.runStatus runId ≠ some (.str "failed"))
        (.workClaimLost "event append rejected because the run is terminal")

/-- An Ack of a claimed delivery must commit with the claim, unless the claim has expired and
the run has ended. -/
def checkAck (db : Database) (e : Event) (now : DateTime) : Except StoreError Unit :=
  if e.type = "mailbox.delivery.acked" then
    let mailboxId := (e.payload.getD "mailbox_id" (.str "")).pyStr
    let deliveryId := (e.payload.getD "delivery_id" (.str "")).pyStr
    match db.workClaims.lookup s!"delivery:{mailboxId}:{deliveryId}" with
    | none => .ok ()
    | some claim =>
        if claim.state = .active ∧
            ¬ (claim.expiresAt.instant ≤ now.instant ∧
              db.runStatus e.runId ∈
                [some (.str "cancelling"), some (.str "cancelled"), some (.str "failed")]) then
          .error (.unfencedAck "claimed delivery Ack must commit with its fencing token")
        else .ok ()
  else .ok ()

/-- `append`: once by identifier, under the current dispatch if there is one. -/
def append (db : Database) (dispatch : Option DispatchContext) (e : Event) (now : DateTime) :
    Except StoreError (Event × Database) := do
  db.checkDispatch dispatch e.runId now
  db.checkAck e now
  let ((stored, _), db') ← db.appendInTransaction e
  return (stored, db')

end Database

end CrazyHarness
