import CrazyHarness.Store.Fencing

/-! # Bundles of work claims

`fail_work_claim_bundle` is meant to fence the keys that one `claim_work` call has taken
together.  Which call has taken a key is not stored; the code goes by owner and claim time.
`BundleWorld` is the database with the number of the call that took each key last.

* `labelled_run`: keys of one call have one owner and one claim time.
* `failsExactly_iff`: the call fails exactly the active keys of the bundle unless the owner has
  taken another active key at the same time in another call. -/

namespace CrazyHarness

open Lib

namespace ClaimOp

/-- The keys an operation takes. -/
def taken (op : ClaimOp) (db : Database) : List String :=
  match op with
  | claim keys ownerId ttlSeconds now runId =>
      match db.claimWork keys ownerId ttlSeconds now runId with
      | .ok (some _, _) => keys
      | _ => []
  | _ => []

theorem mem_taken {op : ClaimOp} {db : Database} {key : String} :
    key ∈ op.taken db ↔ op.Takes db key := by
  cases op with
  | claim keys ownerId ttlSeconds now runId =>
      unfold taken Takes Succeeds
      dsimp only
      rcases hres : db.claimWork keys ownerId ttlSeconds now runId with e | ⟨tokens, db'⟩
      · simp
      · cases tokens <;> simp
  | _ => exact iff_of_false List.not_mem_nil id

end ClaimOp

/-- The database, the number of operations so far, and which of them took each key last. -/
structure BundleWorld where
  db : Database
  calls : ℕ
  takenBy : String → Option ℕ

namespace BundleWorld

/-- A store without claims. -/
def initial : BundleWorld := ⟨Database.initial, 0, fun _ => none⟩

/-- One operation, with a note of the keys it takes. -/
def apply (op : ClaimOp) (s : BundleWorld) : BundleWorld where
  db := op.apply s.db
  calls := s.calls + 1
  takenBy key := if key ∈ op.taken s.db then some s.calls else s.takenBy key

/-- The key is held, and `call` has taken it. -/
def Holds (s : BundleWorld) (call : Option ℕ) (key : String) : Prop :=
  (∃ r ∈ s.db.workClaims.lookup key, r.state = .active) ∧ s.takenBy key = call

/-- Two rows that `fail_work_claim_bundle` takes for one bundle. -/
def SameBundle (r r' : WorkClaimRow) : Prop := r.ownerId = r'.ownerId ∧ r.claimedAt = r'.claimedAt

instance (r r' : WorkClaimRow) : Decidable (SameBundle r r') :=
  inferInstanceAs (Decidable (_ ∧ _))

/-- `fail_work_claim_bundle` fails the held keys that were taken by the call that took `key`, and
leaves every other row alone. -/
def FailsExactly (s : BundleWorld) (key : String) (now : DateTime) : Prop :=
  ∀ k, (s.Holds (s.takenBy key) k → ((ClaimOp.failBundle key now).apply s.db).workClaims.lookup k =
      (s.db.workClaims.lookup k).map (·.ended now .failed)) ∧
    (¬ s.Holds (s.takenBy key) k → ((ClaimOp.failBundle key now).apply s.db).workClaims.lookup k =
      s.db.workClaims.lookup k)

/-- Another call has taken a key that is held, for the same owner and at the same time. -/
def TakenAlongside (s : BundleWorld) (key k : String) : Prop :=
  s.takenBy k ≠ s.takenBy key ∧ ∃ r ∈ s.db.workClaims.lookup k, r.state = .active ∧
    ∃ row ∈ s.db.workClaims.lookup key, SameBundle r row

/-! ### Keys of one call -/

/-- The calls have owners and times, and each row has those of its call. -/
def Labelled (s : BundleWorld) : Prop :=
  ∃ label : ℕ → String × DateTime, ∀ key r, s.db.workClaims.lookup key = some r →
    ∃ call < s.calls, s.takenBy key = some call ∧ label call = (r.ownerId, r.claimedAt)

theorem labelled_initial : Labelled initial := by
  refine ⟨fun _ => ("", ⟨0, none⟩), ?_⟩
  intro key r h
  cases h

/-- Taking a key sets its owner and its time. -/
theorem label_of_taken {op : ClaimOp} {db : Database} :
    ∃ label : String × DateTime, ∀ key ∈ op.taken db, ∃ r,
      (op.apply db).workClaims.lookup key = some r ∧ label = (r.ownerId, r.claimedAt) := by
  cases op with
  | claim keys ownerId ttlSeconds now runId =>
      refine ⟨(ownerId, now), ?_⟩
      intro key hkey
      obtain ⟨hmem, tokens, db', hres⟩ := ClaimOp.mem_taken.mp hkey
      rcases Database.claimWork_cases hres with ⟨hnone, _⟩ | ⟨_, _, htook⟩
      · cases hnone
      · refine ⟨.taken key ownerId now ttlSeconds (db.workClaims.lookup key), ?_, rfl⟩
        simp only [ClaimOp.apply, hres]
        exact htook.taken key hmem
  | _ => exact ⟨("", ⟨0, none⟩), fun key hkey => absurd hkey List.not_mem_nil⟩

/-- A row that is rewritten without its key being taken keeps owner and time. -/
theorem label_of_map {old new : Option WorkClaimRow} {f : WorkClaimRow → WorkClaimRow}
    (h : new = old.map f) (hf : ∀ r, SameBundle (f r) r) {r : WorkClaimRow} (hr : new = some r) :
    ∃ r', old = some r' ∧ SameBundle r r' := by
  rw [h] at hr
  obtain ⟨r', hold, rfl⟩ := Option.map_eq_some_iff.mp hr
  exact ⟨r', hold, hf r'⟩

theorem label_of_not_taken {op : ClaimOp} {db : Database} {key : String} (h : key ∉ op.taken db)
    {r : WorkClaimRow} (hr : (op.apply db).workClaims.lookup key = some r) :
    ∃ r', db.workClaims.lookup key = some r' ∧ SameBundle r r' := by
  have hsame : ∀ {db' : Database}, db'.workClaims = db.workClaims →
      db'.workClaims.lookup key = some r → ∃ r', db.workClaims.lookup key = some r' ∧ SameBundle r r' :=
    fun htable hr' => ⟨r, by rw [← htable]; exact hr', rfl, rfl⟩
  cases op with
  | claim keys ownerId ttlSeconds now runId =>
      simp only [ClaimOp.apply] at hr
      split at hr
      · rename_i result db' hres
        rcases Database.claimWork_cases hres with ⟨_, rfl⟩ | ⟨tokens, rfl, htook⟩
        · exact hsame rfl hr
        · have hkey : key ∉ keys := fun hk => h (ClaimOp.mem_taken.mpr ⟨hk, tokens, db', hres⟩)
          rw [htook.others key hkey] at hr
          exact hsame rfl hr
      · exact hsame rfl hr
  | renew claims ownerId ttlSeconds now =>
      simp only [ClaimOp.apply] at hr
      split at hr
      · rename_i renewed db' hres
        rcases Database.renewWorkClaims_cases hres with ⟨_, rfl⟩ | ⟨_, _, hrows⟩
        · exact hsame rfl hr
        · refine label_of_map (hrows key) (fun r => ?_) hr
          split <;> exact ⟨rfl, rfl⟩
      · exact hsame rfl hr
  | finish claims ownerId state now finalEvent allowCancelledRun =>
      simp only [ClaimOp.apply] at hr
      split at hr
      · rename_i finished db' hres
        rcases Database.finishWorkClaims_cases hres with ⟨_, rfl⟩ | ⟨_, _, _, hrows⟩
        · exact hsame rfl hr
        · refine label_of_map (hrows key) (fun r => ?_) hr
          split <;> exact ⟨rfl, rfl⟩
      · exact hsame rfl hr
  | failBundle claimKey now =>
      simp only [ClaimOp.apply] at hr
      split at hr
      · rename_i count db' hres
        rcases Database.failWorkClaimBundle_cases hres with rfl | ⟨row, _, _, hrows⟩
        · exact hsame rfl hr
        · refine label_of_map (hrows key) (fun r => ?_) hr
          split <;> exact ⟨rfl, rfl⟩
      · exact hsame rfl hr
  | append dispatch e now =>
      simp only [ClaimOp.apply] at hr
      split at hr
      · rename_i stored db' hres
        exact hsame (Database.workClaims_append hres) hr
      · exact hsame rfl hr
  | commit idempotencyKey state decision events precondition guard now =>
      simp only [ClaimOp.apply] at hr
      split at hr
      · rename_i stored db' hres
        exact hsame (Database.workClaims_commitCommand hres) hr
      · exact hsame rfl hr
  | elsewhere db' => exact hsame rfl hr

theorem labelled_apply (op : ClaimOp) {s : BundleWorld} (h : s.Labelled) : (s.apply op).Labelled := by
  obtain ⟨label, hlabel⟩ := h
  obtain ⟨new, hnew⟩ := @label_of_taken op s.db
  refine ⟨Function.update label s.calls new, ?_⟩
  intro key r hr
  by_cases hkey : key ∈ op.taken s.db
  · obtain ⟨r', hr', hlabel'⟩ := hnew key hkey
    obtain rfl := Option.some.inj (hr'.symm.trans hr)
    refine ⟨s.calls, Nat.lt_succ_self _, if_pos hkey, ?_⟩
    rw [Function.update_self, hlabel']
  · obtain ⟨r', hr', howner, htime⟩ := label_of_not_taken hkey hr
    obtain ⟨call, hlt, htaken, heq⟩ := hlabel key r' hr'
    refine ⟨call, Nat.lt_succ_of_lt hlt, (if_neg hkey).trans htaken, ?_⟩
    rw [Function.update_of_ne (by omega), heq, howner, htime]

/-- In every run the keys of one call have one owner and one claim time. -/
theorem labelled_run (ops : List ClaimOp) : (runAll (fun op s => apply op s) initial ops).Labelled := by
  suffices h : ∀ s : BundleWorld, s.Labelled → (runAll (fun op s => apply op s) s ops).Labelled from
    h initial labelled_initial
  induction ops with
  | nil => exact fun s h => h
  | cons op ops ih => exact fun s h => ih (s.apply op) (labelled_apply op h)

theorem Labelled.sameBundle {s : BundleWorld} (h : s.Labelled) {k key : String}
    {r row : WorkClaimRow} (hr : s.db.workClaims.lookup k = some r)
    (hrow : s.db.workClaims.lookup key = some row) (heq : s.takenBy k = s.takenBy key) :
    SameBundle r row := by
  obtain ⟨label, hlabel⟩ := h
  obtain ⟨call, _, hcall, hl⟩ := hlabel k r hr
  obtain ⟨call', _, hcall', hl'⟩ := hlabel key row hrow
  obtain rfl : call = call' := Option.some.inj (hcall.symm.trans (heq.trans hcall'))
  have hpair := hl.symm.trans hl'
  exact ⟨congrArg Prod.fst hpair, congrArg Prod.snd hpair⟩

/-! ### Failing a bundle -/

/-- What `fail_work_claim_bundle` does to every row. -/
theorem lookup_failBundle {db : Database} {key : String} {now : DateTime} (haware : now.Aware)
    {row : WorkClaimRow} (hrow : db.workClaims.lookup key = some row) (hactive : row.state = .active)
    (k : String) : ((ClaimOp.failBundle key now).apply db).workClaims.lookup k =
      (db.workClaims.lookup k).map (fun r =>
        if r.ownerId = row.ownerId ∧ r.claimedAt = row.claimedAt ∧ r.state = .active then
          r.ended now .failed
        else r) := by
  simp only [ClaimOp.apply, Database.failWorkClaimBundle, haware, not_true_eq_false, if_false, hrow,
    hactive, ne_eq]
  rw [Table.lookup_updateWhere]

/-- **Failing a bundle.**  In every run of claims, renewals, finishes and failures, failing a held
key fails exactly the held keys of the call that took it, unless its owner has taken another held
key at the same time in another call. -/
theorem failsExactly_iff (ops : List ClaimOp) {key : String} {now : DateTime} (haware : now.Aware)
    (hheld : ∃ r ∈ (runAll (fun op s => apply op s) initial ops).db.workClaims.lookup key,
      r.state = .active) :
    (runAll (fun op s => apply op s) initial ops).FailsExactly key now ↔
      ∀ k, ¬ (runAll (fun op s => apply op s) initial ops).TakenAlongside key k := by
  have hlabelled := labelled_run ops
  generalize runAll (fun op s => apply op s) initial ops = s at hheld hlabelled ⊢
  obtain ⟨row, hrow, hactive⟩ := hheld
  have hrows := lookup_failBundle haware hrow hactive
  constructor
  · rintro h k ⟨hother, r, hr, hractive, row', hrow', howner, htime⟩
    obtain rfl := Option.some.inj (hrow.symm.trans hrow')
    have hkept := (h k).2 (fun hholds => hother hholds.2)
    rw [hrows k, hr, Option.map_some, if_pos ⟨howner, htime, hractive⟩] at hkept
    have hstate := congrArg WorkClaimRow.state (Option.some.inj hkept)
    rw [hractive] at hstate
    cases hstate
  · intro h k
    rw [hrows k]
    constructor
    · rintro ⟨⟨r, hr, hractive⟩, hcall⟩
      obtain ⟨howner, htime⟩ := hlabelled.sameBundle hr hrow hcall
      rw [hr, Option.map_some, Option.map_some, if_pos ⟨howner, htime, hractive⟩]
    · intro hnot
      cases hr : s.db.workClaims.lookup k with
      | none => rfl
      | some r =>
          rw [Option.map_some, if_neg]
          rintro ⟨howner, htime, hractive⟩
          by_cases hcall : s.takenBy k = s.takenBy key
          · exact hnot ⟨⟨r, hr, hractive⟩, hcall⟩
          · exact h k ⟨hcall, r, hr, hractive, row, hrow, howner, htime⟩

/-! ### Two bundles of one moment -/

/-- The clock of every call. -/
def moment : DateTime := ⟨43200000000, some 0⟩

/-- One process reserves two deliveries at one time. -/
def reservedTogether : List ClaimOp :=
  [.claim ["delivery:scout:a"] "scheduler-1" 30 moment none,
    .claim ["delivery:writer:b"] "scheduler-1" 30 moment none]

/-- One process reserves two keys in one call. -/
def reservedOnce : List ClaimOp :=
  [.claim ["delivery:scout:a", "agent_run:scout"] "scheduler-1" 30 moment none]

theorem reservedOnce_failsExactly :
    (runAll (fun op s => apply op s) initial reservedOnce).FailsExactly "delivery:scout:a" moment ↔
      ∀ k, ¬ (runAll (fun op s => apply op s) initial reservedOnce).TakenAlongside "delivery:scout:a" k :=
  failsExactly_iff reservedOnce (by decide) ⟨_, by rfl, by rfl⟩

/-- Failing the one delivery fails the other one too. -/
theorem reservedTogether_failed :
    ∃ ops key now, now.Aware ∧ (∃ r ∈ (runAll (fun op s => apply op s) initial ops).db.workClaims.lookup key,
      r.state = .active) ∧ ¬ (runAll (fun op s => apply op s) initial ops).FailsExactly key now := by
  refine ⟨reservedTogether, "delivery:scout:a", moment, by decide, ⟨_, by rfl, by rfl⟩, ?_⟩
  intro h
  have hkept := (h "delivery:writer:b").2 (fun hholds => absurd hholds.2 (by decide +kernel))
  have hstate := congrArg (Option.map WorkClaimRow.state) hkept
  revert hstate
  decide +kernel

end BundleWorld

end CrazyHarness
