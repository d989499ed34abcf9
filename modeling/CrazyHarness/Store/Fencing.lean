import CrazyHarness.Lib.Run
import CrazyHarness.Store.Commands

/-! # Fencing safety of work claims

`claim_work`, `renew_work_claims`, `finish_work_claims` and `fail_work_claim_bundle` write the
same rows; appends and commits under a dispatch are fenced by them.  For each operation one
lemma says what it does to the row of every key (`lookup_takeKeys`, `lookup_updateClaims`,
…); from these:

* `token_apply`: the fencing token of a key grows exactly when the key is claimed;
* `retired_apply`: a claim whose key was taken again, finished or failed stays retired;
* `refused_of_not_live`: whatever is presented with a claim that is not live changes nothing;
* `fencing_safety`: the same for whole runs of operations of any owners and clocks. -/

namespace CrazyHarness

open Lib

namespace Database

variable {db db' : Database}

/-! ### Frames -/

theorem workClaims_appendInTransaction {e : Event} {r : Event × Bool}
    (h : db.appendInTransaction e = .ok (r, db')) : db'.workClaims = db.workClaims := by
  unfold appendInTransaction at h
  split at h
  · obtain ⟨db'', hp, h⟩ := bind_ok_iff.mp h
    obtain ⟨rfl, rfl⟩ := Prod.mk.inj (Except.ok.inj h)
    exact (onlyProjections_projectEvent hp).workClaims
  · split at h
    · obtain ⟨rfl, rfl⟩ := Prod.mk.inj (Except.ok.inj h)
      rfl
    · cases h

theorem workClaims_appendAll {es stored : List Event} (h : db.appendAll es = .ok (stored, db')) :
    db'.workClaims = db.workClaims := by
  induction es generalizing db stored with
  | nil =>
      obtain ⟨rfl, rfl⟩ := Prod.mk.inj (Except.ok.inj h)
      rfl
  | cons e es ih =>
      unfold appendAll at h
      obtain ⟨⟨r, db₁⟩, h1, h⟩ := bind_ok_iff.mp h
      obtain ⟨⟨rest, db₂⟩, h2, h⟩ := bind_ok_iff.mp h
      obtain ⟨rfl, rfl⟩ := Prod.mk.inj (Except.ok.inj h)
      exact (ih h2).trans (workClaims_appendInTransaction h1)

theorem workClaims_append {dispatch : Option DispatchContext} {e stored : Event} {now : DateTime}
    (h : db.append dispatch e now = .ok (stored, db')) : db'.workClaims = db.workClaims := by
  unfold append at h
  obtain ⟨_, _, h⟩ := bind_ok_iff.mp h
  obtain ⟨_, _, h⟩ := bind_ok_iff.mp h
  obtain ⟨⟨r, db₁⟩, h1, h⟩ := bind_ok_iff.mp h
  obtain ⟨rfl, rfl⟩ := Prod.mk.inj (Except.ok.inj h)
  exact workClaims_appendInTransaction h1

theorem workClaims_finalize {key : String} {state : CommandState} {decision : KernelDecision}
    {now : DateTime} (h : db.finalize key state decision now = .ok db') :
    db'.workClaims = db.workClaims := by
  unfold finalize at h
  split at h
  · cases h
  split at h
  · obtain rfl := Except.ok.inj h
    rfl
  split at h
  · obtain rfl := Except.ok.inj h
    rfl
  · cases h

theorem workClaims_commitCommand {key : String} {state : CommandState} {decision : KernelDecision}
    {events stored : List Event}
    {precondition : Option (Database → Except StoreError (Option String))}
    {guard : Option (String × Claims)} {now : DateTime}
    (h : db.commitCommand key state decision events precondition guard now = .ok (stored, db')) :
    db'.workClaims = db.workClaims := by
  unfold commitCommand at h
  obtain ⟨_, _, h⟩ := bind_ok_iff.mp h
  obtain ⟨_, _, h⟩ := bind_ok_iff.mp h
  obtain ⟨_, _, h⟩ := bind_ok_iff.mp h
  obtain ⟨⟨persisted, db₁⟩, h1, h⟩ := bind_ok_iff.mp h
  obtain ⟨db₂, h2, h⟩ := bind_ok_iff.mp h
  obtain ⟨rfl, rfl⟩ := Prod.mk.inj (Except.ok.inj h)
  exact (workClaims_finalize h2).trans (workClaims_appendAll h1)

theorem workClaims_appendFinal {finalEvent : Option Event}
    (h : db.appendFinal finalEvent = .ok db') : db'.workClaims = db.workClaims := by
  cases finalEvent with
  | none =>
      obtain rfl := Except.ok.inj h
      rfl
  | some e =>
      unfold appendFinal at h
      obtain ⟨⟨r, db₁⟩, h1, h⟩ := bind_ok_iff.mp h
      obtain rfl := Except.ok.inj h
      exact workClaims_appendInTransaction h1

/-! ### The row of a key after each operation -/

/-- Taking keys rewrites exactly the rows of these keys, each from what it was before. -/
theorem lookup_takeKeys {ownerId : String} {now : DateTime} {ttlSeconds : ℤ} {keys : List String}
    (hnd : keys.Nodup) (k : String) :
    (db.takeKeys ownerId now ttlSeconds keys).2.workClaims.lookup k =
      if k ∈ keys then some (.taken k ownerId now ttlSeconds (db.workClaims.lookup k))
      else db.workClaims.lookup k := by
  induction keys generalizing db with
  | nil => rfl
  | cons key keys ih =>
      obtain ⟨hkey, hnd'⟩ := List.nodup_cons.mp hnd
      unfold takeKeys
      dsimp only
      rw [ih hnd', Table.lookup_upsert]
      by_cases hk : k = key
      · subst hk
        simp [hkey, WorkClaimRow.taken]
      · have hne : k ≠ (WorkClaimRow.taken key ownerId now ttlSeconds
            (db.workClaims.lookup key)).claimKey := hk
        simp [hk, hne]

theorem mem_takeKeys_tokens {ownerId : String} {now : DateTime} {ttlSeconds : ℤ}
    {keys : List String} (hnd : keys.Nodup) (k : String) (token : ℤ) :
    (k, token) ∈ (db.takeKeys ownerId now ttlSeconds keys).1 ↔
      k ∈ keys ∧
        token = (WorkClaimRow.taken k ownerId now ttlSeconds (db.workClaims.lookup k)).fencingToken := by
  induction keys generalizing db with
  | nil => simp [takeKeys]
  | cons key keys ih =>
      obtain ⟨hkey, hnd'⟩ := List.nodup_cons.mp hnd
      unfold takeKeys
      dsimp only
      rw [List.mem_cons, ih hnd', List.mem_cons, Table.lookup_upsert]
      by_cases hk : k = key
      · subst hk
        simp [hkey]
      · have hne : k ≠ (WorkClaimRow.taken key ownerId now ttlSeconds
            (db.workClaims.lookup key)).claimKey := hk
        simp [hk, hne]

/-- Updating the claims of a bundle rewrites the rows that are these claims. -/
theorem lookup_updateClaims {ownerId : String} (f : WorkClaimRow → WorkClaimRow)
    (hf : ∀ r, (f r).claimKey = r.claimKey) (howner : ∀ r, (f r).ownerId = r.ownerId)
    (htoken : ∀ r, (f r).fencingToken = r.fencingToken) (hff : ∀ r, f (f r) = f r)
    (claims : Claims) (k : String) :
    (db.updateClaims ownerId f hf claims).workClaims.lookup k =
      (db.workClaims.lookup k).map (fun r =>
        if r.ownerId = ownerId ∧ (k, r.fencingToken) ∈ claims then f r else r) := by
  induction claims generalizing db with
  | nil =>
      simp [updateClaims]
  | cons claim claims ih =>
      obtain ⟨key, token⟩ := claim
      unfold updateClaims
      rw [ih, Table.lookup_updateWhere]
      cases hrow : db.workClaims.lookup k with
      | none => rfl
      | some r =>
          have hkey := Table.key_of_lookup hrow
          simp only [Option.map_some, hkey, WorkClaimRow.IsClaim, List.mem_cons, Prod.mk.injEq]
          by_cases hown : r.ownerId = ownerId
          · by_cases hhead : k = key ∧ r.fencingToken = token
            · simp [hown, hhead, howner, htoken, hff]
            · by_cases htail : (k, r.fencingToken) ∈ claims
              · simp [hown, hhead, htail]
              · simp [hown, hhead, htail]
          · simp [hown]

theorem workClaimsAreCurrent_iff {claims : Claims} {ownerId : String} {now : DateTime} :
    db.workClaimsAreCurrent claims ownerId now = true ↔
      ∀ key token, (key, token) ∈ claims →
        ∃ r, db.workClaims.lookup key = some r ∧ r.IsClaim ownerId token ∧ r.Held now := by
  unfold workClaimsAreCurrent
  rw [List.all_eq_true]
  constructor
  · intro h key token hmem
    have := h (key, token) hmem
    dsimp only at this
    split at this
    · cases this
    · rename_i r hr
      exact ⟨r, hr, of_decide_eq_true this⟩
  · rintro h ⟨key, token⟩ hmem
    obtain ⟨r, hr, hc⟩ := h key token hmem
    dsimp only
    rw [hr]
    exact decide_eq_true hc

end Database

/-! ### The system -/

/-- One store transaction; `elsewhere` is any that leaves the table of claims alone. -/
inductive ClaimOp where
  | claim (keys : List String) (ownerId : String) (ttlSeconds : ℤ) (now : DateTime)
      (runId : Option String)
  | renew (claims : Claims) (ownerId : String) (ttlSeconds : ℤ) (now : DateTime)
  | finish (claims : Claims) (ownerId : String) (state : WorkClaimState) (now : DateTime)
      (finalEvent : Option Event) (allowCancelledRun : Bool)
  | failBundle (key : String) (now : DateTime)
  | append (dispatch : Option DispatchContext) (e : Event) (now : DateTime)
  | commit (idempotencyKey : String) (state : CommandState) (decision : KernelDecision)
      (events : List Event) (precondition : Option (Database → Except StoreError (Option String)))
      (guard : Option (String × Claims)) (now : DateTime)
  | elsewhere (db' : Database)

namespace ClaimOp

/-- The database after an operation; one that raises leaves it as it was. -/
def apply (op : ClaimOp) (db : Database) : Database :=
  match op with
  | claim keys ownerId ttlSeconds now runId =>
      match db.claimWork keys ownerId ttlSeconds now runId with
      | .ok (_, db') => db'
      | .error _ => db
  | renew claims ownerId ttlSeconds now =>
      match db.renewWorkClaims claims ownerId ttlSeconds now with
      | .ok (_, db') => db'
      | .error _ => db
  | finish claims ownerId state now finalEvent allowCancelledRun =>
      match db.finishWorkClaims claims ownerId state now finalEvent allowCancelledRun with
      | .ok (_, db') => db'
      | .error _ => db
  | failBundle key now =>
      match db.failWorkClaimBundle key now with
      | .ok (_, db') => db'
      | .error _ => db
  | append dispatch e now =>
      match db.append dispatch e now with
      | .ok (_, db') => db'
      | .error _ => db
  | commit idempotencyKey state decision events precondition guard now =>
      match db.commitCommand idempotencyKey state decision events precondition guard now with
      | .ok (_, db') => db'
      | .error _ => db
  | elsewhere db' => { db' with workClaims := db.workClaims }

/-- The operation returns success to its caller. -/
def Succeeds (op : ClaimOp) (db : Database) : Prop :=
  match op with
  | claim keys ownerId ttlSeconds now runId =>
      ∃ tokens db', db.claimWork keys ownerId ttlSeconds now runId = .ok (some tokens, db')
  | renew claims ownerId ttlSeconds now =>
      ∃ db', db.renewWorkClaims claims ownerId ttlSeconds now = .ok (true, db')
  | finish claims ownerId state now finalEvent allowCancelledRun =>
      ∃ db', db.finishWorkClaims claims ownerId state now finalEvent allowCancelledRun = .ok (true, db')
  | failBundle key now => ∃ r, db.failWorkClaimBundle key now = .ok r
  | append dispatch e now => ∃ r, db.append dispatch e now = .ok r
  | commit idempotencyKey state decision events precondition guard now =>
      ∃ r, db.commitCommand idempotencyKey state decision events precondition guard now = .ok r
  | elsewhere _ => True

/-- The operation takes the key. -/
def Takes (op : ClaimOp) (db : Database) (key : String) : Prop :=
  match op with
  | claim keys _ _ _ _ => key ∈ keys ∧ op.Succeeds db
  | _ => False

/-- The operation is presented with the claim `(ownerId, token)` of the key. -/
def Presents (op : ClaimOp) (key ownerId : String) (token : ℤ) : Prop :=
  match op with
  | renew claims o _ _ => o = ownerId ∧ (key, token) ∈ claims
  | finish claims o _ _ _ _ => o = ownerId ∧ (key, token) ∈ claims
  | append (some d) _ _ => d.claimOwnerId = ownerId ∧ (key, token) ∈ d.claimTokens
  | commit _ _ _ _ _ (some (o, claims)) _ => o = ownerId ∧ (key, token) ∈ claims
  | _ => False

end ClaimOp

namespace Database

/-- The fencing token of a key, if it was ever claimed. -/
def fencingToken? (db : Database) (key : String) : Option ℤ :=
  (db.workClaims.lookup key).map (·.fencingToken)

/-- The key was last taken by `ownerId` under `token`. -/
def Granted (db : Database) (key ownerId : String) (token : ℤ) : Prop :=
  ∃ r ∈ db.workClaims.lookup key, r.IsClaim ownerId token

/-- The key is held by `ownerId` under `token`: not claimed again, finished or failed. -/
def LiveClaim (db : Database) (key ownerId : String) (token : ℤ) : Prop :=
  ∃ r ∈ db.workClaims.lookup key, r.IsClaim ownerId token ∧ r.state = .active

/-- A claim the key has moved past. -/
def Retired (db : Database) (key ownerId : String) (token : ℤ) : Prop :=
  (∃ t ∈ db.fencingToken? key, token ≤ t) ∧ ¬ db.LiveClaim key ownerId token

/-- Every key of the list was taken, each under a new token, and no other row changed. -/
structure TookAll (db db' : Database) (keys : List String) (ownerId : String) (ttlSeconds : ℤ)
    (now : DateTime) (tokens : Claims) : Prop where
  taken : ∀ key ∈ keys, db'.workClaims.lookup key =
    some (.taken key ownerId now ttlSeconds (db.workClaims.lookup key))
  tokens : ∀ key token, (key, token) ∈ tokens ↔ key ∈ keys ∧
    token = (WorkClaimRow.taken key ownerId now ttlSeconds (db.workClaims.lookup key)).fencingToken
  others : ∀ key, key ∉ keys → db'.workClaims.lookup key = db.workClaims.lookup key

/-- A row of a claim that is not taken: gone it cannot be, and its claim stays the same. -/
def Kept (old new : Option WorkClaimRow) : Prop :=
  match old, new with
  | none, none => True
  | some r, some r' => r'.ownerId = r.ownerId ∧ r'.fencingToken = r.fencingToken ∧
      (r'.state = r.state ∨ r'.state ≠ .active)
  | _, _ => False

theorem Kept.refl (old : Option WorkClaimRow) : Kept old old := by
  cases old with
  | none => trivial
  | some r => exact ⟨rfl, rfl, .inl rfl⟩

theorem kept_map {old : Option WorkClaimRow} {f : WorkClaimRow → WorkClaimRow}
    (h : ∀ r, (f r).ownerId = r.ownerId ∧ (f r).fencingToken = r.fencingToken ∧
      ((f r).state = r.state ∨ (f r).state ≠ .active)) : Kept old (old.map f) := by
  cases old with
  | none => trivial
  | some r => exact h r

/-! ### What each operation can do -/

variable {db db' : Database}

/-- `claim_work` takes all of its keys or changes nothing. -/
theorem claimWork_cases {keys : List String} {ownerId : String} {ttlSeconds : ℤ} {now : DateTime}
    {runId : Option String} {result : Option Claims}
    (h : db.claimWork keys ownerId ttlSeconds now runId = .ok (result, db')) :
    (result = none ∧ db' = db) ∨
      ∃ tokens, result = some tokens ∧ TookAll db db' keys ownerId ttlSeconds now tokens := by
  unfold claimWork at h
  obtain ⟨_, _, h⟩ := bind_ok_iff.mp h
  obtain ⟨_, _, h⟩ := bind_ok_iff.mp h
  obtain ⟨_, _, h⟩ := bind_ok_iff.mp h
  obtain ⟨barrier, _, h⟩ := bind_ok_iff.mp h
  split at h
  · obtain ⟨rfl, rfl⟩ := Prod.mk.inj (Except.ok.inj h)
    exact .inl ⟨rfl, rfl⟩
  obtain ⟨rfl, rfl⟩ := Prod.mk.inj (Except.ok.inj h)
  have hnd : (keys.dedup.insertionSort (· ≤ ·)).Nodup :=
    (List.perm_insertionSort _ _).nodup_iff.mpr keys.nodup_dedup
  have hmem : ∀ key, key ∈ keys.dedup.insertionSort (· ≤ ·) ↔ key ∈ keys := by
    intro key
    rw [(List.perm_insertionSort _ _).mem_iff, List.mem_dedup]
  refine .inr ⟨_, rfl, ?_, ?_, ?_⟩
  · intro key hkey
    rw [lookup_takeKeys hnd, if_pos ((hmem key).mpr hkey)]
  · intro key token
    rw [mem_takeKeys_tokens hnd, hmem]
  · intro key hkey
    rw [lookup_takeKeys hnd, if_neg (fun h => hkey ((hmem key).mp h))]

theorem renewWorkClaims_cases {claims : Claims} {ownerId : String} {ttlSeconds : ℤ}
    {now : DateTime} {renewed : Bool}
    (h : db.renewWorkClaims claims ownerId ttlSeconds now = .ok (renewed, db')) :
    (renewed = false ∧ db' = db) ∨
      (renewed = true ∧ db.workClaimsAreCurrent claims ownerId now ∧
        ∀ key, db'.workClaims.lookup key = (db.workClaims.lookup key).map (fun r =>
          if r.ownerId = ownerId ∧ (key, r.fencingToken) ∈ claims then r.renewed now ttlSeconds
          else r)) := by
  unfold renewWorkClaims at h
  obtain ⟨_, _, h⟩ := bind_ok_iff.mp h
  obtain ⟨_, _, h⟩ := bind_ok_iff.mp h
  obtain ⟨_, _, h⟩ := bind_ok_iff.mp h
  split at h
  · rename_i hcurrent
    obtain ⟨rfl, rfl⟩ := Prod.mk.inj (Except.ok.inj h)
    exact .inr ⟨rfl, hcurrent,
      lookup_updateClaims (·.renewed now ttlSeconds) _ (fun _ => rfl) (fun _ => rfl)
        (fun _ => rfl) claims⟩
  · obtain ⟨rfl, rfl⟩ := Prod.mk.inj (Except.ok.inj h)
    exact .inl ⟨rfl, rfl⟩

theorem finishWorkClaims_cases {claims : Claims} {ownerId : String} {state : WorkClaimState}
    {now : DateTime} {finalEvent : Option Event} {allowCancelledRun finished : Bool}
    (h : db.finishWorkClaims claims ownerId state now finalEvent allowCancelledRun =
      .ok (finished, db')) :
    (finished = false ∧ db' = db) ∨
      (finished = true ∧ db.workClaimsAreCurrent claims ownerId now ∧ state ≠ .active ∧
        ∀ key, db'.workClaims.lookup key = (db.workClaims.lookup key).map (fun r =>
          if r.ownerId = ownerId ∧ (key, r.fencingToken) ∈ claims then r.ended now state
          else r)) := by
  unfold finishWorkClaims at h
  obtain ⟨_, hstate, h⟩ := bind_ok_iff.mp h
  obtain ⟨_, _, h⟩ := bind_ok_iff.mp h
  obtain ⟨_, _, h⟩ := bind_ok_iff.mp h
  split at h
  · obtain ⟨rfl, rfl⟩ := Prod.mk.inj (Except.ok.inj h)
    exact .inl ⟨rfl, rfl⟩
  split at h
  · rename_i hcurrent
    obtain ⟨db₁, hfinal, h⟩ := bind_ok_iff.mp h
    obtain ⟨rfl, rfl⟩ := Prod.mk.inj (Except.ok.inj h)
    refine .inr ⟨rfl, hcurrent, ensure_ok_iff.mp hstate, ?_⟩
    intro key
    rw [lookup_updateClaims (·.ended now state) _ (fun _ => rfl) (fun _ => rfl) (fun _ => rfl) claims,
      workClaims_appendFinal hfinal]
  · obtain ⟨rfl, rfl⟩ := Prod.mk.inj (Except.ok.inj h)
    exact .inl ⟨rfl, rfl⟩

/-- `fail_work_claim_bundle` fails the active rows claimed together with the key. -/
theorem failWorkClaimBundle_cases {claimKey : String} {now : DateTime} {count : ℕ}
    (h : db.failWorkClaimBundle claimKey now = .ok (count, db')) :
    db' = db ∨
      ∃ row ∈ db.workClaims.lookup claimKey, row.state = .active ∧
        ∀ key, db'.workClaims.lookup key = (db.workClaims.lookup key).map (fun r =>
          if r.ownerId = row.ownerId ∧ r.claimedAt = row.claimedAt ∧ r.state = .active then
            r.ended now .failed
          else r) := by
  unfold failWorkClaimBundle at h
  split at h
  · cases h
  split at h
  · obtain ⟨rfl, rfl⟩ := Prod.mk.inj (Except.ok.inj h)
    exact .inl rfl
  rename_i row hrow
  split at h
  · obtain ⟨rfl, rfl⟩ := Prod.mk.inj (Except.ok.inj h)
    exact .inl rfl
  rename_i hactive
  obtain ⟨rfl, rfl⟩ := Prod.mk.inj (Except.ok.inj h)
  refine .inr ⟨row, hrow, not_not.mp hactive, ?_⟩
  intro key
  dsimp only
  rw [Table.lookup_updateWhere]

/-! ### What a step does to the row of a key -/

/-- A key that a step does not take keeps its claim. -/
theorem kept_apply {op : ClaimOp} {key : String} (h : ¬ op.Takes db key) :
    Kept (db.workClaims.lookup key) ((op.apply db).workClaims.lookup key) := by
  cases op with
  | claim keys ownerId ttlSeconds now runId =>
      simp only [ClaimOp.apply]
      split
      · rename_i result db' hres
        rcases claimWork_cases hres with ⟨_, rfl⟩ | ⟨tokens, rfl, htook⟩
        · exact .refl _
        · have hkey : key ∉ keys := fun hk => h ⟨hk, tokens, db', hres⟩
          rw [htook.others key hkey]
          exact .refl _
      · exact .refl _
  | renew claims ownerId ttlSeconds now =>
      simp only [ClaimOp.apply]
      split
      · rename_i renewed db' hres
        rcases renewWorkClaims_cases hres with ⟨_, rfl⟩ | ⟨_, _, hrows⟩
        · exact .refl _
        · rw [hrows key]
          refine kept_map ?_
          intro r
          split
          · exact ⟨rfl, rfl, .inl rfl⟩
          · exact ⟨rfl, rfl, .inl rfl⟩
      · exact .refl _
  | finish claims ownerId state now finalEvent allowCancelledRun =>
      simp only [ClaimOp.apply]
      split
      · rename_i finished db' hres
        rcases finishWorkClaims_cases hres with ⟨_, rfl⟩ | ⟨_, _, hstate, hrows⟩
        · exact .refl _
        · rw [hrows key]
          refine kept_map ?_
          intro r
          split
          · exact ⟨rfl, rfl, .inr hstate⟩
          · exact ⟨rfl, rfl, .inl rfl⟩
      · exact .refl _
  | failBundle claimKey now =>
      simp only [ClaimOp.apply]
      split
      · rename_i count db' hres
        rcases failWorkClaimBundle_cases hres with rfl | ⟨row, _, _, hrows⟩
        · exact .refl _
        · rw [hrows key]
          refine kept_map ?_
          intro r
          split
          · have hfailed : WorkClaimState.failed ≠ .active := by decide
            exact ⟨rfl, rfl, .inr hfailed⟩
          · exact ⟨rfl, rfl, .inl rfl⟩
      · exact .refl _
  | append dispatch e now =>
      simp only [ClaimOp.apply]
      split
      · rename_i stored db' hres
        rw [workClaims_append hres]
        exact .refl _
      · exact .refl _
  | commit idempotencyKey state decision events precondition guard now =>
      simp only [ClaimOp.apply]
      split
      · rename_i stored db' hres
        rw [workClaims_commitCommand hres]
        exact .refl _
      · exact .refl _
  | elsewhere db' => exact .refl _

/-- A key that a step takes gets the next token. -/
theorem taken_apply {op : ClaimOp} {key : String} (h : op.Takes db key) :
    ∃ ownerId now ttlSeconds, (op.apply db).workClaims.lookup key =
      some (.taken key ownerId now ttlSeconds (db.workClaims.lookup key)) := by
  cases op with
  | claim keys ownerId ttlSeconds now runId =>
      obtain ⟨hkey, tokens, db', hres⟩ := h
      rcases claimWork_cases hres with ⟨hnone, _⟩ | ⟨_, _, htook⟩
      · cases hnone
      · refine ⟨ownerId, now, ttlSeconds, ?_⟩
        simp only [ClaimOp.apply, hres]
        exact htook.taken key hkey
  | renew | finish | failBundle | append | commit | elsewhere => exact h.elim

/-! ### Tokens -/

/-- What a step does to the fencing token of a key. -/
def AdvancesTokens (db : Database) (op : ClaimOp) : Prop :=
  ∀ key,
    (op.Takes db key → ∃ token, (op.apply db).fencingToken? key = some token ∧
      ∀ old ∈ db.fencingToken? key, old < token) ∧
    (¬ op.Takes db key → (op.apply db).fencingToken? key = db.fencingToken? key)

/-- The token of a key grows when the key is taken and is untouched otherwise. -/
theorem token_apply (db : Database) (op : ClaimOp) : AdvancesTokens db op := by
  intro key
  constructor
  · intro h
    obtain ⟨ownerId, now, ttlSeconds, hrow⟩ := taken_apply h
    refine ⟨_, by rw [fencingToken?, hrow, Option.map_some], ?_⟩
    intro old hold
    obtain ⟨r, hr, rfl⟩ := Option.map_eq_some_iff.mp hold
    rw [hr]
    exact lt_add_one r.fencingToken
  · intro h
    have hkept := kept_apply h
    unfold fencingToken?
    cases hold : db.workClaims.lookup key with
    | none =>
        rw [hold] at hkept
        cases hnew : (op.apply db).workClaims.lookup key with
        | none => rfl
        | some r' =>
            rw [hnew] at hkept
            exact hkept.elim
    | some r =>
        rw [hold] at hkept
        cases hnew : (op.apply db).workClaims.lookup key with
        | none =>
            rw [hnew] at hkept
            exact hkept.elim
        | some r' =>
            rw [hnew] at hkept
            rw [Option.map_some, Option.map_some, hkept.2.1]

theorem token_le_apply (op : ClaimOp) {key : String} {t : ℤ} (h : db.fencingToken? key = some t) :
    ∃ t', (op.apply db).fencingToken? key = some t' ∧ t ≤ t' := by
  by_cases htakes : op.Takes db key
  · obtain ⟨token, hnew, hlt⟩ := (token_apply db op key).1 htakes
    exact ⟨token, hnew, (hlt t h).le⟩
  · exact ⟨t, by rw [(token_apply db op key).2 htakes, h], le_refl t⟩

/-! ### Retired claims -/

variable {key ownerId : String} {token : ℤ}

/-- A live claim carries the key's token. -/
theorem LiveClaim.fencingToken (h : db.LiveClaim key ownerId token) : db.fencingToken? key = some token := by
  obtain ⟨r, hr, ⟨_, rfl⟩, _⟩ := h
  rw [fencingToken?, Option.mem_def.mp hr, Option.map_some]

/-- A step only makes a claim live by taking the key under a token that was not in use. -/
theorem live_of_apply {op : ClaimOp} (h : (op.apply db).LiveClaim key ownerId token) :
    db.LiveClaim key ownerId token ∨ ∀ old ∈ db.fencingToken? key, old < token := by
  by_cases htakes : op.Takes db key
  · right
    obtain ⟨new, hnew, hlt⟩ := (token_apply db op key).1 htakes
    rw [h.fencingToken] at hnew
    rw [Option.some.inj hnew]
    exact hlt
  · left
    obtain ⟨r', hr', ⟨howner, htoken⟩, hactive⟩ := h
    have hkept := kept_apply htakes
    rw [Option.mem_def.mp hr'] at hkept
    cases hold : db.workClaims.lookup key with
    | none =>
        rw [hold] at hkept
        exact hkept.elim
    | some r =>
        rw [hold] at hkept
        obtain ⟨ho, ht, hs⟩ := hkept
        refine ⟨r, hold, ⟨ho.symm.trans howner, ht.symm.trans htoken⟩, ?_⟩
        rcases hs with hs | hs
        · rw [← hs]
          exact hactive
        · exact absurd hactive hs

/-- Once retired, always retired. -/
theorem retired_apply (op : ClaimOp) (h : db.Retired key ownerId token) :
    (op.apply db).Retired key ownerId token := by
  obtain ⟨⟨t, ht, hle⟩, hlive⟩ := h
  obtain ⟨t', ht', hle'⟩ := token_le_apply op ht
  refine ⟨⟨t', ht', hle.trans hle'⟩, ?_⟩
  intro hnew
  rcases live_of_apply hnew with hold | hlt
  · exact hlive hold
  · have := hlt t ht
    omega

theorem retired_runAll (ops : List ClaimOp) (h : db.Retired key ownerId token) :
    (runAll ClaimOp.apply db ops).Retired key ownerId token := by
  induction ops generalizing db with
  | nil => exact h
  | cons op ops ih => exact ih (retired_apply op h)

theorem token_le_runAll (ops : List ClaimOp) {t : ℤ} (h : db.fencingToken? key = some t) :
    ∃ t', (runAll ClaimOp.apply db ops).fencingToken? key = some t' ∧ t ≤ t' := by
  induction ops generalizing db t with
  | nil => exact ⟨t, h, le_refl t⟩
  | cons op ops ih =>
      obtain ⟨t', ht', hle⟩ := token_le_apply op h
      obtain ⟨t'', ht'', hle'⟩ := ih ht'
      exact ⟨t'', ht'', hle.trans hle'⟩

/-- A claim that was granted and is no longer live is retired. -/
theorem Granted.retired (h : db.Granted key ownerId token) (ops : List ClaimOp)
    (hlive : ¬ (runAll ClaimOp.apply db ops).LiveClaim key ownerId token) :
    (runAll ClaimOp.apply db ops).Retired key ownerId token := by
  obtain ⟨r, hr, _, rfl⟩ := h
  have htoken : db.fencingToken? key = some r.fencingToken := by
    rw [fencingToken?, Option.mem_def.mp hr, Option.map_some]
  exact ⟨token_le_runAll ops htoken, hlive⟩

/-! ### What a retired claim can still do -/

/-- The operation fails and changes neither a row nor an event. -/
def Refused (db : Database) (op : ClaimOp) : Prop := ¬ op.Succeeds db ∧ op.apply db = db

theorem not_current_of_not_live {claims : Claims} {now : DateTime} (hmem : (key, token) ∈ claims)
    (h : ¬ db.LiveClaim key ownerId token) : ¬ db.workClaimsAreCurrent claims ownerId now := by
  intro hcurrent
  obtain ⟨r, hr, hclaim, hactive, _⟩ := workClaimsAreCurrent_iff.mp hcurrent key token hmem
  exact h ⟨r, hr, hclaim, hactive⟩

/-- Whatever is presented with a claim that is not live is refused. -/
theorem refused_of_not_live {op : ClaimOp} (hop : op.Presents key ownerId token)
    (h : ¬ db.LiveClaim key ownerId token) : Refused db op := by
  cases op with
  | renew claims o ttlSeconds now =>
      obtain ⟨rfl, hmem⟩ := hop
      have hnot : ¬ db.workClaimsAreCurrent claims o now := not_current_of_not_live hmem h
      constructor
      · rintro ⟨db', hres⟩
        rcases renewWorkClaims_cases hres with ⟨hfalse, _⟩ | ⟨_, hcurrent, _⟩
        · cases hfalse
        · exact hnot hcurrent
      · simp only [ClaimOp.apply]
        split
        · rename_i renewed db' hres
          rcases renewWorkClaims_cases hres with ⟨_, rfl⟩ | ⟨_, hcurrent, _⟩
          · rfl
          · exact absurd hcurrent hnot
        · rfl
  | finish claims o state now finalEvent allowCancelledRun =>
      obtain ⟨rfl, hmem⟩ := hop
      have hnot : ¬ db.workClaimsAreCurrent claims o now := not_current_of_not_live hmem h
      constructor
      · rintro ⟨db', hres⟩
        rcases finishWorkClaims_cases hres with ⟨hfalse, _⟩ | ⟨_, hcurrent, _⟩
        · cases hfalse
        · exact hnot hcurrent
      · simp only [ClaimOp.apply]
        split
        · rename_i finished db' hres
          rcases finishWorkClaims_cases hres with ⟨_, rfl⟩ | ⟨_, hcurrent, _⟩
          · rfl
          · exact absurd hcurrent hnot
        · rfl
  | append dispatch e now =>
      cases dispatch with
      | none => exact hop.elim
      | some d =>
          obtain ⟨rfl, hmem⟩ := hop
          have hnot : ¬ db.workClaimsAreCurrent d.claimTokens d.claimOwnerId now :=
            not_current_of_not_live hmem h
          have hfails : ∀ r, db.append (some d) e now ≠ .ok r := by
            intro r hres
            unfold append at hres
            obtain ⟨_, hcheck, _⟩ := bind_ok_iff.mp hres
            unfold checkDispatch at hcheck
            obtain ⟨_, _, hcheck⟩ := bind_ok_iff.mp hcheck
            obtain ⟨_, hcurrent, _⟩ := bind_ok_iff.mp hcheck
            exact hnot (ensure_ok_iff.mp hcurrent)
          constructor
          · rintro ⟨r, hres⟩
            exact hfails r hres
          · simp only [ClaimOp.apply]
            split
            · rename_i hres
              exact absurd hres (hfails _)
            · rfl
  | commit idempotencyKey state decision events precondition guard now =>
      cases guard with
      | none => exact hop.elim
      | some g =>
          obtain ⟨o, claims⟩ := g
          obtain ⟨rfl, hmem⟩ := hop
          have hnot : ¬ db.workClaimsAreCurrent claims o now := not_current_of_not_live hmem h
          have hfails : ∀ r, db.commitCommand idempotencyKey state decision events precondition
              (some (o, claims)) now ≠ .ok r := by
            intro r hres
            unfold commitCommand at hres
            obtain ⟨_, hcheck, _⟩ := bind_ok_iff.mp hres
            exact hnot (ensure_ok_iff.mp hcheck)
          constructor
          · rintro ⟨r, hres⟩
            exact hfails r hres
          · simp only [ClaimOp.apply]
            split
            · rename_i hres
              exact absurd hres (hfails _)
            · rfl
  | claim | failBundle | elsewhere => exact hop.elim

/-! ### What ends a claim -/

/-- The step claims the key again, finishes the claim, or fails the bundle it is part of. -/
def Ends (db : Database) (op : ClaimOp) (key ownerId : String) (token : ℤ) : Prop :=
  match op with
  | .claim .. => op.Takes db key
  | .finish .. => op.Presents key ownerId token ∧ op.Succeeds db
  | .failBundle claimKey now => now.Aware ∧
      ∃ row ∈ db.workClaims.lookup claimKey, row.state = .active ∧
        ∃ r ∈ db.workClaims.lookup key, r.ownerId = row.ownerId ∧ r.claimedAt = row.claimedAt
  | _ => False

/-- A row that was rewritten by an ending update is not active. -/
theorem not_live_of_ended {r : WorkClaimRow} {p : WorkClaimRow → Prop} [DecidablePred p]
    {now : DateTime} {state : WorkClaimState} (hr : db.workClaims.lookup key = some r)
    (hp : p r ∨ r.state ≠ .active) (hstate : state ≠ .active)
    (hrows : db'.workClaims.lookup key = (db.workClaims.lookup key).map (fun r =>
      if p r then r.ended now state else r)) : ¬ db'.LiveClaim key ownerId token := by
  rintro ⟨r', hr', _, hactive⟩
  rw [hrows, hr, Option.map_some] at hr'
  obtain rfl := Option.some.inj hr'
  by_cases h : p r
  · rw [if_pos h] at hactive
    exact hstate hactive
  · rw [if_neg h] at hactive
    rcases hp with hp | hne
    · exact h hp
    · exact hne hactive

/-- A claim that was granted is not live after a step that ends it. -/
theorem not_live_of_ends {op : ClaimOp} (hgranted : db.Granted key ownerId token)
    (h : db.Ends op key ownerId token) : ¬ (op.apply db).LiveClaim key ownerId token := by
  obtain ⟨r, hr, rfl, rfl⟩ := hgranted
  cases op with
  | claim keys o ttlSeconds now runId =>
      obtain ⟨new, hnew, hlt⟩ := (token_apply db (.claim keys o ttlSeconds now runId) key).1 h
      have htoken : db.fencingToken? key = some r.fencingToken := by
        rw [fencingToken?, Option.mem_def.mp hr, Option.map_some]
      intro hlive
      rw [hlive.fencingToken] at hnew
      have := hlt _ htoken
      rw [← Option.some.inj hnew] at this
      omega
  | finish claims o state now finalEvent allowCancelledRun =>
      obtain ⟨⟨rfl, hmem⟩, db', hres⟩ := h
      rcases finishWorkClaims_cases hres with ⟨hfalse, _⟩ | ⟨_, _, hstate, hrows⟩
      · cases hfalse
      · simp only [ClaimOp.apply, hres]
        exact not_live_of_ended hr (.inl ⟨rfl, hmem⟩) hstate (hrows key)
  | failBundle claimKey now =>
      obtain ⟨haware, row, hrow, hactive, r', hr', howner, hclaimed⟩ := h
      obtain rfl := Option.some.inj ((Option.mem_def.mp hr).symm.trans hr')
      have hfails : ∃ count db', db.failWorkClaimBundle claimKey now = .ok (count, db') ∧
          ∀ key, db'.workClaims.lookup key = (db.workClaims.lookup key).map (fun r =>
            if r.ownerId = row.ownerId ∧ r.claimedAt = row.claimedAt ∧ r.state = .active then
              r.ended now .failed
            else r) := by
        unfold failWorkClaimBundle
        simp only [haware, not_true_eq_false, if_false, Option.mem_def.mp hrow, hactive, ne_eq]
        refine ⟨_, _, rfl, ?_⟩
        intro key
        dsimp only
        rw [Table.lookup_updateWhere]
      obtain ⟨count, db', hres, hrows⟩ := hfails
      simp only [ClaimOp.apply, hres]
      have hfailed : WorkClaimState.failed ≠ .active := by decide
      refine not_live_of_ended hr ?_ hfailed (hrows key)
      by_cases hr_active : r.state = .active
      · exact .inl ⟨howner, hclaimed, hr_active⟩
      · exact .inr hr_active
  | renew | append | commit | elsewhere => exact h.elim

/-! ### Fencing safety -/

/-- A claim takes all of its keys, each under a new token, or changes nothing. -/
def TakesAllOrNone (db : Database) (op : ClaimOp) : Prop :=
  match op with
  | .claim keys ownerId ttlSeconds now runId => ∀ result db',
      db.claimWork keys ownerId ttlSeconds now runId = .ok (result, db') →
        (result = none ∧ db' = db) ∨
          ∃ tokens, result = some tokens ∧ TookAll db db' keys ownerId ttlSeconds now tokens
  | _ => True

/-- At most one owner and token of a key pass the check of `_work_claims_are_current`. -/
def OneHolder (db : Database) : Prop :=
  ∀ key claims claims' ownerId ownerId' token token' now now',
    (key, token) ∈ claims → (key, token') ∈ claims' →
    db.workClaimsAreCurrent claims ownerId now → db.workClaimsAreCurrent claims' ownerId' now' →
      ownerId = ownerId' ∧ token = token'

theorem oneHolder (db : Database) : OneHolder db := by
  intro key claims claims' o o' t t' now now' hmem hmem' h h'
  obtain ⟨r, hr, ⟨rfl, rfl⟩, _⟩ := workClaimsAreCurrent_iff.mp h key t hmem
  obtain ⟨r', hr', ⟨rfl, rfl⟩, _⟩ := workClaimsAreCurrent_iff.mp h' key t' hmem'
  obtain rfl := Option.some.inj (hr.symm.trans hr')
  exact ⟨rfl, rfl⟩

/-- **Fencing safety.**  In every sequence of operations, by any owners, on any keys, at any
times: a claim takes all of its keys or none; the token of a key grows exactly when the key
is taken; one owner and token of a key are current; and after a step that claims a key again,
finishes or fails its claim, whatever is presented with the older claim fails and changes
neither a row nor an event. -/
theorem fencing_safety (db : Database) (ops : List ClaimOp) :
    EveryStep ClaimOp.apply (fun s op => TakesAllOrNone s op ∧ AdvancesTokens s op) db ops ∧
    EveryState ClaimOp.apply OneHolder db ops ∧
    ∀ before ending after key ownerId token, ops = before ++ ending :: after →
      (runAll ClaimOp.apply db before).Granted key ownerId token →
      (runAll ClaimOp.apply db before).Ends ending key ownerId token →
        ∀ op : ClaimOp, op.Presents key ownerId token →
          Refused (runAll ClaimOp.apply db ops) op := by
  refine ⟨.of_forall ?_ db ops, .of_forall oneHolder db ops, ?_⟩
  · intro s op
    refine ⟨?_, token_apply s op⟩
    cases op with
    | claim keys ownerId ttlSeconds now runId =>
        intro result db' h
        exact claimWork_cases h
    | renew | finish | failBundle | append | commit | elsewhere => trivial
  · intro before ending after key ownerId token hops hgranted hends op hop
    rw [hops, runAll_append]
    have hstep : (runAll ClaimOp.apply (runAll ClaimOp.apply db before) [ending]).Retired key
        ownerId token :=
      hgranted.retired [ending] (not_live_of_ends hgranted hends)
    exact refused_of_not_live hop (retired_runAll after hstep).2

/-- The first scheduler's claim. -/
def firstClaim : ClaimOp := .claim ["d1"] "scheduler-a" 30 ⟨0, some 0⟩ none

/-- The second scheduler claims the delivery when the first claim has expired. -/
def secondClaim : ClaimOp := .claim ["d1"] "scheduler-b" 30 ⟨31000000, some 0⟩ none

/-- A finish of the delivery, nineteen seconds after the second claim. -/
def finishOf (ownerId : String) (token : ℤ) : ClaimOp :=
  .finish [("d1", token)] ownerId .completed ⟨50000000, some 0⟩ none false

/-- The delivery goes from one scheduler to the other, which renews its claim. -/
def handedOver : List ClaimOp :=
  [firstClaim, secondClaim, .renew [("d1", 2)] "scheduler-b" 30 ⟨40000000, some 0⟩]

/-- The first scheduler comes back too late to finish; the second one can. -/
theorem fencing_safety_late :
    (runAll ClaimOp.apply .initial [firstClaim]).Granted "d1" "scheduler-a" 1 ∧
      (runAll ClaimOp.apply .initial [firstClaim]).Ends secondClaim "d1" "scheduler-a" 1 ∧
      Refused (runAll ClaimOp.apply .initial handedOver) (finishOf "scheduler-a" 1) ∧
      (finishOf "scheduler-b" 2).Succeeds (runAll ClaimOp.apply .initial handedOver) := by
  have hgranted : (runAll ClaimOp.apply .initial [firstClaim]).Granted "d1" "scheduler-a" 1 :=
    ⟨_, rfl, rfl, rfl⟩
  have hends : (runAll ClaimOp.apply .initial [firstClaim]).Ends secondClaim "d1" "scheduler-a" 1 :=
    ⟨List.mem_singleton_self _, [("d1", 2)], _, rfl⟩
  refine ⟨hgranted, hends, ?_, ⟨_, rfl⟩⟩
  exact (fencing_safety .initial handedOver).2.2 [firstClaim] secondClaim _ "d1" "scheduler-a" 1 rfl
    hgranted hends _ ⟨rfl, List.mem_singleton_self _⟩

end Database

end CrazyHarness
